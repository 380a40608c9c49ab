import PTEditor.Library.Separate
import PTEditor.Library.Tables
import PTEditor.PteRuns

/-!
# Switching the implementation

A process may call `ptedit_use_implementation` at any time.  `run_runSteps` says that a run
of PTE operations does not depend on when it does: whatever the implementation of each call,
the run makes the edits of its calls in the PTE slots of their pages.  `switching_run` says
so of all runs with the same calls, and `translate_afterRun` what becomes of the address
translation of these pages and of every other address.
-/

namespace PTEditor

open ByteMem

/-- A step of a run: a switch of the implementation, or a PTE operation. -/
inductive RunStep where
  | use (implementation : Int)
  | call (call : PteCall)

/-- Make steps one after the other; a switch changes the library's variables. -/
def runSteps : List RunStep → Lib → Sys Lib
  | [], lib => pure lib
  | .use implementation :: rest, lib => do
      let lib ← pteditUseImplementation lib implementation
      runSteps rest lib
  | .call call :: rest, lib => do
      call.program lib
      runSteps rest lib

/-- The operations among some steps. -/
def callsOf : List RunStep → List PteCall
  | [] => []
  | .use _ :: rest => callsOf rest
  | .call call :: rest => call :: callsOf rest

/-- Pages with page tables, none of whose PTE slots is a slot through which a page is found. -/
structure Mapped (sys : System) (k : Kernel) (pages : List (Pid × Word)) : Prop where
  paged : ∀ page ∈ pages, (sys.tables k page).Paged
  aligned : ∀ page ∈ pages, (sys.pagingRoot k page.1).toNat % 4096 = 0
  apart : ∀ page ∈ pages, ∀ other ∈ pages, ∀ level, level ≠ .pte → level ≠ .p4d →
    (sys.tables k page).slot .pte ≠ (sys.tables k other).slot level

/-- The library has opened the device and `/proc/umem`, and has selected an implementation
with what it needs. -/
structure Prepared (sys : System) (lib : Lib) (k : Kernel) : Prop where
  device : sys.file lib.fd = .device
  arch : lib.arch = sys.host.arch
  definition : lib.pagingDefinition = .x86_64
  umem : sys.file lib.umem = .umem
  vmem : lib.vmem = .null ∨ lib.vmem = .umem 0 vmemLength
  selected : lib.implementation = .kernel ∨ lib.pagingRoot = sys.pagingRoot k 0 ∧
    (lib.implementation = .userPread ∨
      lib.implementation = .user ∧ lib.vmem = .umem 0 vmemLength)

/-- Every slot of a page's walk lies in the window that `PTEDIT_IMPL_USER` maps. -/
def System.InWindow (sys : System) (k : Kernel) (page : Pid × Word) : Prop :=
  ∀ a ∈ (sys.tables k page).slots, a.toNat + 8 ≤ vmemLength

/-- The edits that calls make, in the PTE slots of their pages. -/
def System.tableEdits (sys : System) (k : Kernel) (calls : List PteCall) :
    List (Word × (Word → Word)) :=
  calls.map fun call => ((sys.tables k call.page).slot .pte, call.apply .x86_64)

/-- The PTE that calls leave for a page. -/
def System.pteAfter (sys : System) (k : Kernel) (calls : List PteCall) (page : Pid × Word) :
    Word :=
  (calls.filter fun call =>
      (sys.tables k call.page).slot .pte = (sys.tables k page).slot .pte).foldl
    (fun pte call => call.apply .x86_64 pte) ((sys.tables k page).entry .pte)

/-- A memory that differs from another at most in the PTEs of some pages. -/
def System.Settled (sys : System) (k : Kernel) (pages : List (Pid × Word)) (mem : ByteMem) :
    Prop :=
  ∀ b, (∀ page ∈ pages, ¬ InWord ((sys.tables k page).slot .pte) b) → mem b = k.mem b

section Runs

variable {sys : System} {lib : Lib} {w : World} {pages : List (Pid × Word)}

theorem userRoot_of_aligned {k : Kernel} {pid : Pid}
    (root : lib.pagingRoot = sys.pagingRoot k 0)
    (aligned : (sys.pagingRoot k pid).toNat % 4096 = 0) :
    sys.userRoot lib k pid = sys.pagingRoot k pid := by
  unfold System.userRoot
  rw [root]
  split
  next own =>
    subst own
    exact and_not_one_of_aligned aligned
  next => exact and_not_one_of_aligned aligned

theorem Mapped.separate {k : Kernel} (mapped : Mapped sys k pages) :
    Walk.Separate (sys.tables k) pages k.mem where
  reads := fun _ _ => rfl
  paged := mapped.paged
  aligned := mapped.aligned
  apart := mapped.apart

/-- The pages' PTE slots are aligned. -/
theorem Mapped.aligned_slot {k : Kernel} (mapped : Mapped sys k pages) {page : Pid × Word}
    (member : page ∈ pages) (level : Level) : Aligned ((sys.tables k page).slot level) :=
  mapped.separate.aligned_slot member level

/-- In a settled memory the tables of a page are as they were. -/
theorem Mapped.sameTables {k : Kernel} {mem : ByteMem} (mapped : Mapped sys k pages)
    (settled : sys.Settled k pages mem) {page : Pid × Word} (member : page ∈ pages) :
    (sys.tables k page).SameTables mem.read :=
  mapped.separate.sameTables settled member

/-- Storing the PTE of one of the pages leaves a memory settled. -/
theorem System.Settled.write {k : Kernel} {mem : ByteMem} (settled : sys.Settled k pages mem)
    {page : Pid × Word} (member : page ∈ pages) (value : Word) :
    sys.Settled k pages (mem.write ((sys.tables k page).slot .pte) value) :=
  Walk.Settled.write settled member value

theorem System.settled_self (k : Kernel) : sys.Settled k pages k.mem := fun _ _ => rfl

theorem tables_withMem (k : Kernel) (mem : ByteMem) (page : Pid × Word) :
    sys.tables (k.withMem mem) page = (sys.tables k page).withRead mem.read := rfl

theorem World.kernel_withMem (w : World) (mem : ByteMem) :
    (w.withMem mem).kernel = w.kernel.withMem mem := rfl

theorem Prepared.drives (prepared : Prepared sys lib w.kernel) (fourLevel : FourLevel sys.host)
    (loaded : w.kernel.Loaded sys.host) : Drives sys lib w :=
  ⟨⟨prepared.device, prepared.arch, loaded⟩, fourLevel, prepared.definition⟩

/-- A prepared library serves a page. -/
theorem Prepared.serves {k : Kernel} {page : Pid × Word} (prepared : Prepared sys lib k)
    (aligned : (sys.pagingRoot k page.1).toNat % 4096 = 0)
    (window : lib.implementation = .user → sys.InWindow k page) : Serves sys lib k page := by
  rcases prepared.selected with kernel | ⟨root, pread | ⟨user, vmem⟩⟩
  · exact .kernel kernel
  · exact .user (userRoot_of_aligned root aligned) (.pread pread prepared.umem)
  · exact .user (userRoot_of_aligned root aligned) (.mapped user vmemLength vmem (window user))

theorem pagingRoot_withMem (k : Kernel) (mem : ByteMem) (pid : Pid) :
    sys.pagingRoot (k.withMem mem) pid = sys.pagingRoot k pid := by
  cases mm : sys.host.getMm (sizeOfInt pid) with
  | none => rw [pagingRoot_of_unknown mm, pagingRoot_of_unknown mm]; rfl
  | some found => rw [pagingRoot_of_mm mm, pagingRoot_of_mm mm]; rfl

theorem Prepared.withMem {k : Kernel} (prepared : Prepared sys lib k) (mem : ByteMem) :
    Prepared sys lib (k.withMem mem) where
  device := prepared.device
  arch := prepared.arch
  definition := prepared.definition
  umem := prepared.umem
  vmem := prepared.vmem
  selected := by
    rw [pagingRoot_withMem]
    exact prepared.selected

theorem umemWindow_of_umem (umem : sys.file lib.umem = .umem) :
    sys.umemWindow lib = .umem 0 vmemLength := by
  unfold System.umemWindow
  rw [umem]

/-- A switch leaves the library prepared. -/
theorem Prepared.use {k : Kernel} (prepared : Prepared sys lib k) (implementation : Int) :
    Prepared sys (sys.useImplementation lib k implementation) k := by
  have mapped : (if lib.vmem = .null then sys.umemWindow lib else lib.vmem) =
      .umem 0 vmemLength := by
    rcases prepared.vmem with null | window
    · rw [if_pos null, umemWindow_of_umem prepared.umem]
    · rw [window]
      rfl
  unfold System.useImplementation
  split
  next => exact { prepared with selected := .inl rfl }
  next =>
  split
  next => exact { prepared with selected := .inr ⟨rfl, .inl rfl⟩ }
  next =>
  split
  next =>
    exact
      { device := prepared.device
        arch := prepared.arch
        definition := prepared.definition
        umem := prepared.umem
        vmem := .inr mapped
        selected := .inr ⟨rfl, .inr ⟨rfl, mapped⟩⟩ }
  next => exact prepared

/-- A switch selects `PTEDIT_IMPL_USER` only when it is asked to. -/
theorem use_user {k : Kernel} {implementation : Int}
    (selected : (sys.useImplementation lib k implementation).implementation = .user) :
    lib.implementation = .user ∨ implementation = pteditImplUser := by
  unfold System.useImplementation at selected
  split at selected
  next => cases selected
  next =>
  split at selected
  next => cases selected
  next =>
  split at selected
  next user => exact .inr user
  next => exact .inl selected

/-- **Step.**  A call edits the PTE slot of its page, whatever the implementation. -/
theorem run_call (prepared : Prepared sys lib w.kernel) (fourLevel : FourLevel sys.host)
    (loaded : w.kernel.Loaded sys.host) (mapped : Mapped sys w.kernel pages) {mem : ByteMem}
    (settled : sys.Settled w.kernel pages mem) {call : PteCall} (member : call.page ∈ pages)
    (window : lib.implementation = .user → sys.InWindow w.kernel call.page) :
    Prog.run (sysHandler sys) (call.program lib) (w.withMem mem) =
      some ((), w.withMem (mem.write ((sys.tables w.kernel call.page).slot .pte)
        (call.apply .x86_64 (mem.read ((sys.tables w.kernel call.page).slot .pte))))) := by
  have tables := mapped.sameTables settled member
  have paged : (sys.tables (w.withMem mem).kernel call.page).Paged :=
    (mapped.paged _ member).withRead tables
  have slot : (sys.tables (w.withMem mem).kernel call.page).slot .pte =
      (sys.tables w.kernel call.page).slot .pte := Walk.slot_withRead tables .pte
  have drives := (prepared.drives fourLevel loaded).withMem mem
  have inside : lib.implementation = .user →
      sys.InWindow (w.withMem mem).kernel call.page := by
    intro user a read
    rw [World.kernel_withMem, tables_withMem] at read
    exact window user a ((mapped.paged _ member).slots_withRead tables a read)
  have aligned : (sys.pagingRoot (w.withMem mem).kernel call.page.1).toNat % 4096 = 0 :=
    mapped.aligned _ member
  have serves := (prepared.withMem mem).serves aligned inside
  obtain ⟨page, op⟩ := call
  unfold PteCall.program PteCall.apply
  cases op with
  | edit edit =>
      have arch := drives.attached.arch.trans drives.fourLevel.arch
      dsimp only
      rw [PteEdit.program_eq, arch, run_pteditPteEdit_paged drives serves paged, slot]
      rfl
  | update vm only =>
      dsimp only
      rw [run_pteditUpdate_paged drives serves paged only, slot]
      rfl

/-- **Run.**  Steps make the edits of their calls and nothing else. -/
theorem run_runSteps (fourLevel : FourLevel sys.host) (loaded : w.kernel.Loaded sys.host)
    (mapped : Mapped sys w.kernel pages) {steps : List RunStep}
    (inPages : ∀ call ∈ callsOf steps, call.page ∈ pages)
    (prepared : Prepared sys lib w.kernel)
    (window : lib.implementation = .user ∨ .use pteditImplUser ∈ steps →
      ∀ page ∈ pages, sys.InWindow w.kernel page)
    {mem : ByteMem} (settled : sys.Settled w.kernel pages mem) :
    ∃ last, Prog.run (sysHandler sys) (runSteps steps lib) (w.withMem mem) =
      some (last, w.withMem (mem.editAll (sys.tableEdits w.kernel (callsOf steps)))) := by
  induction steps generalizing lib mem with
  | nil => exact ⟨lib, rfl⟩
  | cons step rest ih =>
      cases step with
      | use implementation =>
          have switch : Prog.run (sysHandler sys) (pteditUseImplementation lib implementation)
              (w.withMem mem) =
                some (sys.useImplementation lib w.kernel implementation, w.withMem mem) :=
            run_pteditUseImplementation_of_device prepared.device implementation
          obtain ⟨last, done⟩ := ih inPages (prepared.use implementation) (fun user => by
            refine window ?_
            rcases user with selected | later
            · refine (use_user selected).imp_right fun asked => ?_
              rw [asked]
              exact List.mem_cons_self
            · exact .inr (List.mem_cons_of_mem _ later)) settled
          refine ⟨last, ?_⟩
          rw [runSteps, Prog.run_bind_of_some switch]
          exact done
      | call call =>
          rw [callsOf, List.forall_mem_cons] at inPages
          have here := run_call prepared fourLevel loaded mapped settled inPages.1
            fun user => window (.inl user) _ inPages.1
          obtain ⟨last, done⟩ := ih inPages.2 prepared
            (fun user => window (user.imp_right (List.mem_cons_of_mem _)))
            (settled.write inPages.1 _)
          refine ⟨last, ?_⟩
          rw [runSteps, Prog.run_bind_of_some here]
          exact done

/-! ## What a run leaves -/

theorem Mapped.aligned_edits {k : Kernel} (mapped : Mapped sys k pages) {calls : List PteCall}
    (inPages : ∀ call ∈ calls, call.page ∈ pages) :
    ∀ edit ∈ sys.tableEdits k calls, Aligned edit.1 := by
  intro edit member
  obtain ⟨call, inCalls, rfl⟩ := List.mem_map.mp member
  exact mapped.aligned_slot (inPages call inCalls) .pte

/-- The PTE slot of a page holds what the calls leave for it. -/
theorem Mapped.read_editAll {k : Kernel} (mapped : Mapped sys k pages) {calls : List PteCall}
    (inPages : ∀ call ∈ calls, call.page ∈ pages) {page : Pid × Word} (member : page ∈ pages) :
    (k.mem.editAll (sys.tableEdits k calls)).read ((sys.tables k page).slot .pte) =
      sys.pteAfter k calls page := by
  have entry : (sys.tables k page).entry .pte = k.mem.read ((sys.tables k page).slot .pte) :=
    (mapped.paged page member).leadsTo.entry_eq_read (by decide)
  rw [ByteMem.read_editAll _ (mapped.aligned_edits inPages) (mapped.aligned_slot member .pte),
    System.pteAfter, entry]
  simp only [editsAt, System.tableEdits, List.filter_map, List.map_map, List.foldl_map]
  rfl

/-- Bytes outside the PTE slots of the calls keep their value. -/
theorem editAll_outside {k : Kernel} {calls : List PteCall} {b : Word}
    (outside : ∀ call ∈ calls, ¬ InWord ((sys.tables k call.page).slot .pte) b) :
    k.mem.editAll (sys.tableEdits k calls) b = k.mem b := by
  refine editAll_of_not_inWord _ fun edit member => ?_
  obtain ⟨call, inCalls, rfl⟩ := List.mem_map.mp member
  exact outside call inCalls

/-- The memory after the calls still has the tables of the pages. -/
theorem Mapped.sameTables_editAll {k : Kernel} (mapped : Mapped sys k pages)
    {calls : List PteCall} (inPages : ∀ call ∈ calls, call.page ∈ pages) {page : Pid × Word}
    (member : page ∈ pages) :
    (sys.tables k page).SameTables (k.mem.editAll (sys.tableEdits k calls)).read := by
  refine mapped.sameTables (fun b outside => editAll_outside fun call inCalls => ?_) member
  exact outside call.page (inPages call inCalls)

end Runs

/-- **The implementations are interchangeable at every step of a run.**  All runs with the
same calls, however they switch between the kernel and the two user-space implementations,
leave one memory: the PTE of each page after its calls, and everything else as it was. -/
theorem switching_run {sys : System} {w : World} {pages : List (Pid × Word)}
    (fourLevel : FourLevel sys.host) (loaded : w.kernel.Loaded sys.host)
    (mapped : Mapped sys w.kernel pages) {calls : List PteCall}
    (inPages : ∀ call ∈ calls, call.page ∈ pages) :
    ∃ mem,
      (∀ lib steps, Prepared sys lib w.kernel → callsOf steps = calls →
        (lib.implementation = .user ∨ .use pteditImplUser ∈ steps →
          ∀ page ∈ pages, sys.InWindow w.kernel page) →
        ∃ last, Prog.run (sysHandler sys) (runSteps steps lib) w = some (last, w.withMem mem)) ∧
      (∀ page ∈ pages, mem.read ((sys.tables w.kernel page).slot .pte) =
        sys.pteAfter w.kernel calls page) ∧
      ∀ b, (∀ call ∈ calls, ¬ InWord ((sys.tables w.kernel call.page).slot .pte) b) →
        mem b = w.kernel.mem b := by
  refine ⟨_, fun lib steps prepared same window => ?_,
    fun page member => mapped.read_editAll inPages member, fun b => editAll_outside⟩
  subst same
  exact run_runSteps fourLevel loaded mapped inPages prepared window (System.settled_self w.kernel)

theorem sample_mapped : Mapped sampleSystem sampleWorld.kernel samplePages :=
  have separate : Walk.Separate (sampleSystem.tables sampleWorld.kernel) samplePages
      sampleWorld.kernel.mem :=
    Walk.separate_of_all (fun _ => rfl) (fun _ => rfl) (fun _ => rfl) (by decide +kernel)
      (by decide +kernel) (by decide +kernel)
  ⟨separate.paged, separate.aligned, separate.apart⟩

theorem sampleKernelLib_prepared :
    Prepared sampleSystem sampleKernelLib sampleWorld.kernel :=
  ⟨rfl, rfl, rfl, rfl, .inl rfl, .inl rfl⟩

theorem sample_inWindow :
    ∀ page ∈ samplePages, sampleSystem.InWindow sampleWorld.kernel page := by
  have inside : samplePages.all (fun page => (sampleSystem.tables sampleWorld.kernel page).slots.all
      fun a => decide (a.toNat + 8 ≤ vmemLength)) = true := by
    decide +kernel
  simp only [List.all_eq_true, decide_eq_true_eq] at inside
  exact inside

/-- Three calls, each under another implementation. -/
def sampleSteps : List RunStep :=
  [.call ⟨(0, 0), .edit (.setPfn 6)⟩, .use pteditImplUserPread,
    .call ⟨(0, 0x1000), .edit (.setPfn 7)⟩, .use pteditImplUser,
    .call ⟨(0, 0), .edit (.setPfn 8)⟩]

theorem sampleSteps_inPages : ∀ call ∈ callsOf sampleSteps, call.page ∈ samplePages := by
  intro call member
  simp only [sampleSteps, callsOf, List.mem_cons, List.not_mem_nil, or_false] at member
  rcases member with rfl | rfl | rfl <;> decide

theorem switching_run_sample :
    ∃ last mem, Prog.run (sysHandler sampleSystem) (runSteps sampleSteps sampleKernelLib)
        sampleWorld = some (last, sampleWorld.withMem mem) ∧
      mem.read ((sampleSystem.tables sampleWorld.kernel (0, 0)).slot .pte) = 0x8003 := by
  obtain ⟨mem, runs, stored, -⟩ := switching_run sampleHost_fourLevel sampleKernel_loaded
    sample_mapped sampleSteps_inPages
  obtain ⟨last, done⟩ := runs _ _ sampleKernelLib_prepared rfl fun _ => sample_inWindow
  refine ⟨last, mem, done, ?_⟩
  rw [stored (0, 0) (by decide)]
  decide +kernel

/-- **Address translation after a run.**  Each page translates by the PTE that its calls
leave; an address whose walk reads no PTE slot of a call translates as before. -/
theorem translate_afterRun {sys : System} {lib : Lib} {w : World} {pages : List (Pid × Word)}
    (fourLevel : FourLevel sys.host) (loaded : w.kernel.Loaded sys.host)
    (mapped : Mapped sys w.kernel pages) {steps : List RunStep}
    (inPages : ∀ call ∈ callsOf steps, call.page ∈ pages) (prepared : Prepared sys lib w.kernel)
    (window : lib.implementation = .user ∨ .use pteditImplUser ∈ steps →
      ∀ page ∈ pages, sys.InWindow w.kernel page) :
    ∃ last mem,
      Prog.run (sysHandler sys) (runSteps steps lib) w = some (last, w.withMem mem) ∧
      (∀ page ∈ pages,
        translate .x86_64 mem.read (sys.pagingRoot w.kernel page.1) page.2 =
          if (sys.pteAfter w.kernel (callsOf steps) page).getLsbD 0 = true then
            some (mappedPage .x86_64 12 (sys.pteAfter w.kernel (callsOf steps) page) +
              bitField 0 12 page.2)
          else none) ∧
      ∀ root addr, root.toNat % 4096 = 0 →
        (∀ visit ∈ hardwareWalk .x86_64 w.kernel.mem.read root addr, ∀ call ∈ callsOf steps,
          visit.slot ≠ (sys.tables w.kernel call.page).slot .pte) →
        translate .x86_64 mem.read root addr =
          translate .x86_64 w.kernel.mem.read root addr := by
  obtain ⟨last, done⟩ := run_runSteps fourLevel loaded mapped inPages prepared window
    (System.settled_self w.kernel)
  refine ⟨last, _, done, fun page member => ?_, fun root addr aligned apart => ?_⟩
  · have tables := mapped.sameTables_editAll inPages member
    have paged := (mapped.paged page member).withRead tables
    have entry : ((sys.tables w.kernel page).withRead (w.kernel.mem.editAll
        (sys.tableEdits w.kernel (callsOf steps))).read).entry .pte =
          sys.pteAfter w.kernel (callsOf steps) page := by
      rw [paged.leadsTo.entry_eq_read (by decide), Walk.slot_withRead tables]
      exact mapped.read_editAll inPages member
    rw [← entry]
    exact paged.translate_eq
  · refine translate_congr_read fun visit member => read_congr fun b inSlot => ?_
    refine editAll_outside fun call inCalls inPte => ?_
    have slot := aligned_hardwareWalk aligned visit member
    exact apart_of_aligned slot (mapped.aligned_slot (inPages call inCalls) .pte)
      (apart visit member call inCalls) b inSlot inPte

theorem translate_afterRun_sample :
    ∃ last mem, Prog.run (sysHandler sampleSystem) (runSteps sampleSteps sampleKernelLib)
        sampleWorld = some (last, sampleWorld.withMem mem) ∧
      translate .x86_64 mem.read (sampleSystem.pagingRoot sampleWorld.kernel 0) 0 =
        some 0x8000 := by
  obtain ⟨last, mem, done, pages, -⟩ := translate_afterRun sampleHost_fourLevel
    sampleKernel_loaded sample_mapped sampleSteps_inPages sampleKernelLib_prepared
    fun _ => sample_inWindow
  refine ⟨last, mem, done, ?_⟩
  rw [pages (0, 0) (by decide)]
  decide +kernel

end PTEditor
