import PTEditor.Switching
import PTEditor.WindowsRuns

/-!
# Linux and Windows

The library is one source for two operating systems.  On a machine with the same page tables,
all of them mapped by the Windows kernel, a run of PTE operations on Linux and the same
operations on Windows leave the same memory, whatever the implementations that Linux uses
meanwhile: `agrees_with_linux`.
-/

namespace PTEditor

namespace Windows

/-- A page as the Windows library names it, whose pids have 64 bits. -/
def clientPage (page : Pid × Word) : Word × Word := (sizeOfInt page.1, page.2)

/-- The same operation on Windows. -/
def ClientCall.ofPteCall (call : PteCall) : ClientCall where
  page := clientPage call.page
  op :=
    match call.op with
    | .edit edit => .edit edit
    | .update vm only => .update vm only

/-- A Windows machine with the memory and the paging roots of a Linux machine, on which the caller
runs on its own tables, and whose kernel has the PTEs of the pages mapped. -/
structure SameTables (host : WindowsHost) (machine : Machine) (currentProcessId : Word)
    (sys : System) (k : Kernel) (pages : List (Pid × Word)) : Prop where
  mem : machine.mem = k.mem
  own : host.OwnTables machine
  root : ∀ page ∈ pages, host.pagingRoot ((host.library currentProcessId).named
    (sizeOfInt page.1)) = sys.pagingRoot k page.1
  mapped : ∀ page ∈ pages, host.virtualForPhysical ((sys.tables k page).slot .pte) ≠ 0 ∧
    host.Maps ((sys.tables k page).slot .pte)

section Agreement

variable {host : WindowsHost} {cpu : Nat} {machine : Machine} {currentProcessId : Word}
  {sys : System} {lib : PTEditor.Lib} {w : World} {k : Kernel} {pages : List (Pid × Word)}

theorem apply_ofPteCall (call : PteCall) :
    (ClientCall.ofPteCall call).apply = call.apply .x86_64 := by
  obtain ⟨page, op⟩ := call
  cases op <;> rfl

/-- Both systems walk the same tables. -/
theorem SameTables.walk_eq (same : SameTables host machine currentProcessId sys k pages)
    {page : Pid × Word} (member : page ∈ pages) :
    host.walk (host.library currentProcessId) machine.mem (clientPage page) =
      sys.tables k page := by
  rw [same.mem]
  exact congrArg (fun root => Walk.mk .x86_64 .x86_64 root page.2 k.mem.read)
    (same.root page member)

theorem SameTables.separate (same : SameTables host machine currentProcessId sys k pages)
    (mapped : Mapped sys k pages) :
    Walk.Separate (host.walk (host.library currentProcessId) machine.mem) (pages.map clientPage)
      machine.mem where
  reads := fun _ _ => rfl
  paged := by
    rw [List.forall_mem_map]
    intro page member
    rw [same.walk_eq member]
    exact mapped.paged page member
  aligned := by
    rw [List.forall_mem_map]
    intro page member
    rw [same.walk_eq member]
    exact mapped.aligned page member
  apart := by
    rw [List.forall_mem_map]
    intro page member
    rw [List.forall_mem_map]
    intro other member'
    rw [same.walk_eq member, same.walk_eq member']
    exact mapped.apart page member other member'

/-- No edit is lost. -/
theorem SameTables.edits_eq (same : SameTables host machine currentProcessId sys k pages)
    {calls : List PteCall} (inPages : ∀ call ∈ calls, call.page ∈ pages) :
    host.edits (host.library currentProcessId) machine.mem (calls.map ClientCall.ofPteCall) =
      sys.tableEdits k calls := by
  have slot : ∀ call ∈ calls, host.pteSlot (host.library currentProcessId) machine.mem
      (ClientCall.ofPteCall call).page = (sys.tables k call.page).slot .pte :=
    fun call member => congrArg (Walk.slot · .pte) (same.walk_eq (inPages call member))
  have kept : (calls.map ClientCall.ofPteCall).filter (fun call => host.virtualForPhysical
      (host.pteSlot (host.library currentProcessId) machine.mem call.page) ≠ 0) =
        calls.map ClientCall.ofPteCall := by
    rw [List.filter_eq_self, List.forall_mem_map]
    intro call member
    rw [slot call member]
    exact decide_eq_true (same.mapped _ (inPages call member)).1
  unfold WindowsHost.edits System.tableEdits
  rw [kept, List.map_map]
  refine List.map_congr_left fun call member => ?_
  rw [Function.comp_apply, slot call member, apply_ofPteCall]

end Agreement

/-- **Linux and Windows agree.**  The same PTE operations leave the same memory. -/
theorem agrees_with_linux {host : WindowsHost} {cpu : Nat} {machine : Machine}
    {currentProcessId : Word} {sys : System} {lib : PTEditor.Lib} {w : World}
    {pages : List (Pid × Word)} (fourLevel : FourLevel sys.host)
    (loaded : w.kernel.Loaded sys.host) (mapped : Mapped sys w.kernel pages)
    {steps : List RunStep} (inPages : ∀ call ∈ callsOf steps, call.page ∈ pages)
    (prepared : Prepared sys lib w.kernel)
    (window : lib.implementation = .user ∨ .use pteditImplUser ∈ steps →
      ∀ page ∈ pages, sys.InWindow w.kernel page)
    (same : SameTables host machine currentProcessId sys w.kernel pages) :
    ∃ last mem machine',
      Prog.run (sysHandler sys) (runSteps steps lib) w = some (last, w.withMem mem) ∧
      Prog.run (deviceHandler host cpu)
        (client currentProcessId ((callsOf steps).map ClientCall.ofPteCall)) machine =
          some ((), machine') ∧
      machine'.mem = mem := by
  obtain ⟨last, linux⟩ := run_runSteps fourLevel loaded mapped inPages prepared window
    (System.settled_self w.kernel)
  have maps : ∀ page ∈ pages.map clientPage,
      host.Maps (host.pteSlot (host.library currentProcessId) machine.mem page) := by
    rw [List.forall_mem_map]
    intro page member
    rw [WindowsHost.pteSlot, same.walk_eq member]
    exact (same.mapped page member).2
  have among : ∀ call ∈ (callsOf steps).map ClientCall.ofPteCall,
      call.page ∈ pages.map clientPage := by
    rw [List.forall_mem_map]
    exact fun call member => List.mem_map_of_mem (inPages call member)
  refine ⟨last, _, _, linux, run_client same.own (same.separate mapped) maps among, ?_⟩
  rw [same.edits_eq inPages, same.mem]

/-- A host with the tables of the sample machine, all of them mapped. -/
def windowsMappedHost : WindowsHost :=
  { sampleHost with processById := fun pid => some pid.toNat }

theorem sample_sameTables :
    SameTables windowsMappedHost windowsSampleMachine 4 sampleSystem sampleWorld.kernel
      samplePages := by
  have root : samplePages.all (fun page => decide (windowsMappedHost.pagingRoot
      ((windowsMappedHost.library 4).named (sizeOfInt page.1)) =
        sampleSystem.pagingRoot sampleWorld.kernel page.1)) = true := by
    decide +kernel
  have mapped : samplePages.all (fun page => decide
      ((sampleSystem.tables sampleWorld.kernel page).slot .pte ≠ 0)) = true := by
    decide +kernel
  simp only [List.all_eq_true, decide_eq_true_eq] at root mapped
  exact ⟨rfl, rfl, root, fun page member => ⟨mapped page member, fun _ => rfl⟩⟩

theorem agrees_with_linux_sample :
    ∃ last mem machine',
      Prog.run (sysHandler sampleSystem) (runSteps sampleSteps sampleKernelLib) sampleWorld =
        some (last, sampleWorld.withMem mem) ∧
      Prog.run (deviceHandler windowsMappedHost 0)
        (client 4 ((callsOf sampleSteps).map ClientCall.ofPteCall)) windowsSampleMachine =
          some ((), machine') ∧
      machine'.mem = mem :=
  agrees_with_linux sampleHost_fourLevel sampleKernel_loaded sample_mapped sampleSteps_inPages
    sampleKernelLib_prepared (fun _ => sample_inWindow) sample_sameTables

end Windows

end PTEditor
