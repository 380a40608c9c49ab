import PTEditor.Library.Separate
import PTEditor.WindowsSpec

/-!
# Runs of the library on Windows

What a client does to the machine when it resolves pages and edits PTEs through the driver.
Memory gets the edits of the PTEs that the kernel has mapped; the edits of the others are
dropped without a word.  `windows_run` also counts the references that the client leaves behind
on the processes it names.
-/

namespace PTEditor

namespace Windows

open ByteMem

/-! ## Runs -/

/-- What a client does with a page. -/
inductive ClientOp where
  | resolve
  | edit (edit : PteEdit)
  | update (vm : PteditEntry) (only : vm.PteOnly)

/-- A call for a page, a pid with an address. -/
structure ClientCall where
  page : Word × Word
  op : ClientOp

namespace ClientCall

/-- The call as the library makes it. -/
def program (lib : Lib) (call : ClientCall) : ClientProg Unit :=
  match call.op with
  | .resolve => do
      let _ ← pteditResolveUser lib call.page.2 call.page.1
      pure ()
  | .edit (.setBit bit) => pteditPteSetBit lib call.page.2 call.page.1 bit
  | .edit (.clearBit bit) => pteditPteClearBit lib call.page.2 call.page.1 bit
  | .edit (.setPfn pfn) => pteditPteSetPfn lib call.page.2 call.page.1 pfn
  | .update vm _ => pteditUpdateUser lib call.page.2 call.page.1 vm

/-- What the call is to do to the PTE of its page. -/
def apply (call : ClientCall) (pte : Word) : Word :=
  match call.op with
  | .resolve => pte
  | .edit edit => edit.apply .x86_64 pte
  | .update vm _ => vm.pte

/-- The pids that the call looks up: a resolution walks the tables once, an update looks up the
root once more, and an edit is both. -/
def lookups (call : ClientCall) : List Word :=
  match call.op with
  | .resolve => Windows.lookups call.page.1
  | .edit _ => Windows.lookups call.page.1 ++
      (Windows.lookups call.page.1 ++ Windows.lookups call.page.1)
  | .update _ _ => Windows.lookups call.page.1 ++ Windows.lookups call.page.1

end ClientCall

theorem ClientCall.program_edit (lib : Lib) (page : Word × Word) (edit : PteEdit) :
    (ClientCall.mk page (.edit edit)).program lib =
      pteditPteEdit lib page.2 page.1 (edit.apply .x86_64) := by
  cases edit <;> rfl

/-- Make calls one after the other. -/
def runClientCalls (lib : Lib) : List ClientCall → ClientProg Unit
  | [] => pure ()
  | call :: rest => do
      call.program lib
      runClientCalls lib rest

/-- A client: `ptedit_init`, then its calls. -/
def client (currentProcessId : Word) (calls : List ClientCall) : ClientProg Unit := do
  let lib ← pteditInit currentProcessId
  runClientCalls lib calls

/-- If the kernel has a virtual address for a physical one, it maps it there. -/
def WindowsHost.Maps (host : WindowsHost) (address : Word) : Prop :=
  host.virtualForPhysical address ≠ 0 →
    host.physicalForVirtual (host.virtualForPhysical address) = address

/-- The PTE slot of a page. -/
def WindowsHost.pteSlot (host : WindowsHost) (lib : Lib) (mem : ByteMem) (page : Word × Word) :
    Word :=
  (host.walk lib mem page).slot .pte

/-- The edits that calls make: those in the slots that the kernel has mapped. -/
def WindowsHost.edits (host : WindowsHost) (lib : Lib) (mem : ByteMem) (calls : List ClientCall) :
    List (Word × (Word → Word)) :=
  (calls.filter fun call => host.virtualForPhysical (host.pteSlot lib mem call.page) ≠ 0).map
    fun call => (host.pteSlot lib mem call.page, call.apply)

/-- The PTE that calls leave for a page: what they make of it one after the other, or the one
that it had if the kernel has not mapped it. -/
def WindowsHost.pteAfter (host : WindowsHost) (lib : Lib) (mem : ByteMem)
    (calls : List ClientCall) (page : Word × Word) : Word :=
  if host.virtualForPhysical (host.pteSlot lib mem page) = 0 then
    mem.read (host.pteSlot lib mem page)
  else
    (calls.filter fun call => host.pteSlot lib mem call.page = host.pteSlot lib mem page).foldl
      (fun pte call => call.apply pte) (mem.read (host.pteSlot lib mem page))

section Runs

variable {host : WindowsHost} {cpu : Nat} {machine : Machine} {lib : Lib} {mem : ByteMem}
  {pages : List (Word × Word)}

/-- A word stored where it is mapped is an edit; elsewhere it is lost. -/
theorem stored_eq_editAll {call : ClientCall} (mem' : ByteMem)
    (maps : host.Maps (host.pteSlot lib mem call.page)) :
    host.stored mem' (host.pteSlot lib mem call.page)
        (call.apply (mem'.read (host.pteSlot lib mem call.page))) =
      mem'.editAll (host.edits lib mem [call]) := by
  unfold WindowsHost.stored WindowsHost.edits
  by_cases mapped : host.virtualForPhysical (host.pteSlot lib mem call.page) ≠ 0
  · rw [if_pos mapped, maps mapped, List.filter_cons_of_pos (by simpa using mapped)]
    rfl
  · rw [if_neg mapped, List.filter_cons_of_neg (by simpa using mapped)]
    rfl

/-- Resolving is storing the PTE that is there. -/
theorem stored_read_self (mem' : ByteMem) {address : Word} (maps : host.Maps address) :
    host.stored mem' address (mem'.read address) = mem' := by
  unfold WindowsHost.stored
  by_cases mapped : host.virtualForPhysical address ≠ 0
  · rw [if_pos mapped, maps mapped, write_read_self]
  · rw [if_neg mapped]

/-- **Step.**  A call edits the PTE of its page, if the kernel has it mapped. -/
theorem run_clientCall (own : host.OwnTables machine) (ready : Ready host lib)
    (separate : Walk.Separate (host.walk lib mem) pages mem)
    (settled : Walk.Settled (host.walk lib mem) pages mem machine.mem) {call : ClientCall}
    (member : call.page ∈ pages) (maps : host.Maps (host.pteSlot lib mem call.page)) :
    Prog.run (deviceHandler host cpu) (call.program lib) machine =
      some ((), { host.afterLookups machine call.lookups with
        mem := machine.mem.editAll (host.edits lib mem [call]) }) := by
  have tables := separate.sameTables settled member
  have paged : (host.walk lib machine.mem call.page).Paged :=
    (separate.paged call.page member).withRead tables
  have slot : (host.walk lib machine.mem call.page).slot .pte = host.pteSlot lib mem call.page :=
    Walk.slot_withRead tables .pte
  have stored := stored_eq_editAll machine.mem maps
  have edited := @run_pteditPteEdit host cpu machine lib own ready call.page paged
  rw [slot] at edited
  rw [← stored]
  obtain ⟨page, op⟩ := call
  cases op with
  | resolve =>
      have resolved := @run_pteditResolveUser host cpu machine lib own ready page
      have same : (host.afterLookups machine (lookups page.1)).mem = machine.mem :=
        mem_afterLookups _
      have kept : { host.afterLookups machine (lookups page.1) with
          mem := host.stored machine.mem (host.pteSlot lib mem page)
            (machine.mem.read (host.pteSlot lib mem page)) } =
          host.afterLookups machine (lookups page.1) := by
        rw [stored_read_self machine.mem maps, ← same]
      exact (Prog.run_bind_of_some resolved).trans (congrArg (fun after => some ((), after))
        kept.symm)
  | edit edit =>
      rw [ClientCall.program_edit]
      exact edited (edit.apply .x86_64)
  | update vm only =>
      have updated := @run_pteditUpdateUser_pteOnly host cpu machine lib own ready page vm paged
        only
      rw [slot] at updated
      exact updated

theorem edits_cons (call : ClientCall) (rest : List ClientCall) :
    host.edits lib mem (call :: rest) = host.edits lib mem [call] ++ host.edits lib mem rest := by
  unfold WindowsHost.edits
  rw [← List.map_append, ← List.filter_append]
  rfl

/-- Every edit of some calls is in the PTE slot of one of them. -/
theorem exists_call_of_mem_edits {calls : List ClientCall} {edit : Word × (Word → Word)}
    (member : edit ∈ host.edits lib mem calls) :
    ∃ call ∈ calls, edit.1 = host.pteSlot lib mem call.page := by
  obtain ⟨call, among, rfl⟩ := List.mem_map.mp member
  exact ⟨call, (List.mem_filter.mp among).1, rfl⟩

/-- The edits of calls leave the tables of their pages as they are. -/
theorem settled_editAll {calls : List ClientCall} (inPages : ∀ call ∈ calls, call.page ∈ pages)
    {mem' : ByteMem} (settled : Walk.Settled (host.walk lib mem) pages mem mem') :
    Walk.Settled (host.walk lib mem) pages mem (mem'.editAll (host.edits lib mem calls)) := by
  intro b outside
  rw [editAll_of_not_inWord mem' fun edit member => ?_]
  · exact settled b outside
  · obtain ⟨call, among, slot⟩ := exists_call_of_mem_edits member
    rw [slot]
    exact outside call.page (inPages call among)

/-- **Run.**  Calls make the edits of the PTEs that are mapped, and nothing else in memory. -/
theorem run_runClientCalls (own : host.OwnTables machine) (ready : Ready host lib)
    (separate : Walk.Separate (host.walk lib mem) pages mem)
    (maps : ∀ page ∈ pages, host.Maps (host.pteSlot lib mem page)) {calls : List ClientCall}
    (inPages : ∀ call ∈ calls, call.page ∈ pages)
    (settled : Walk.Settled (host.walk lib mem) pages mem machine.mem) :
    Prog.run (deviceHandler host cpu) (runClientCalls lib calls) machine =
      some ((), { host.afterLookups machine (calls.flatMap ClientCall.lookups) with
        mem := machine.mem.editAll (host.edits lib mem calls) }) := by
  induction calls generalizing machine with
  | nil => rfl
  | cons call rest ih =>
      rw [List.forall_mem_cons] at inPages
      have step := @run_clientCall host cpu machine lib mem pages own ready separate settled call
        inPages.1 (maps _ inPages.1)
      have one : ∀ other ∈ [call], other.page ∈ pages := by
        intro other member
        rw [List.mem_singleton.mp member]
        exact inPages.1
      have whole : machine.mem.editAll (host.edits lib mem (call :: rest)) =
          (machine.mem.editAll (host.edits lib mem [call])).editAll (host.edits lib mem rest) := by
        rw [edits_cons]
        exact List.foldl_append
      have still : host.OwnTables { host.afterLookups machine call.lookups with
          mem := machine.mem.editAll (host.edits lib mem [call]) } :=
        own.afterLookups call.lookups
      rw [runClientCalls, Prog.run_bind_of_some step,
        ih still inPages.2 (settled_editAll one settled), whole, afterLookups_withMem,
        List.flatMap_cons, afterLookups_append]

/-- What the calls with a slot make of the PTE in it. -/
theorem read_edits (separate : Walk.Separate (host.walk lib mem) pages mem)
    {calls : List ClientCall} (inPages : ∀ call ∈ calls, call.page ∈ pages) {page : Word × Word}
    (member : page ∈ pages) :
    (mem.editAll (host.edits lib mem calls)).read (host.pteSlot lib mem page) =
      host.pteAfter lib mem calls page := by
  have aligned : ∀ edit ∈ host.edits lib mem calls, Aligned edit.1 := by
    intro edit among
    obtain ⟨call, inCalls, slot⟩ := exists_call_of_mem_edits among
    rw [slot]
    exact separate.aligned_slot (inPages call inCalls) .pte
  have here : editsAt (host.edits lib mem calls) (host.pteSlot lib mem page) =
      (if host.virtualForPhysical (host.pteSlot lib mem page) = 0 then [] else
        calls.filter fun call => host.pteSlot lib mem call.page = host.pteSlot lib mem page).map
          ClientCall.apply := by
    unfold editsAt WindowsHost.edits
    rw [List.filter_map, List.filter_filter, List.map_map]
    refine congrArg (List.map ClientCall.apply) ?_
    split
    next unmapped =>
      refine List.filter_eq_nil_iff.mpr fun call _ both => ?_
      simp only [Function.comp_apply, ne_eq, Bool.and_eq_true, decide_eq_true_eq] at both
      exact both.2 (both.1.symm ▸ unmapped)
    next mapped =>
      refine List.filter_congr fun call _ => ?_
      by_cases same : host.pteSlot lib mem call.page = host.pteSlot lib mem page
      · simpa [same] using mapped
      · simp [same]
  have slot : Aligned (host.pteSlot lib mem page) := separate.aligned_slot member .pte
  rw [ByteMem.read_editAll _ aligned slot, here, List.foldl_map, WindowsHost.pteAfter]
  split <;> rfl

/-- Resolving a page of settled memory returns the PTE that is there. -/
theorem exists_resolved (own : host.OwnTables machine) (ready : Ready host lib)
    (separate : Walk.Separate (host.walk lib mem) pages mem)
    (settled : Walk.Settled (host.walk lib mem) pages mem machine.mem) {page : Word × Word}
    (member : page ∈ pages) :
    ∃ entry after, Prog.run (deviceHandler host cpu) (pteditResolveUser lib page.2 page.1) machine =
        some (entry, after) ∧
      entry.pte = machine.mem.read (host.pteSlot lib mem page) ∧ after.mem = machine.mem := by
  have tables := separate.sameTables settled member
  have paged : (host.walk lib machine.mem page).Paged :=
    (separate.paged page member).withRead tables
  have slot : (host.walk lib machine.mem page).slot .pte = host.pteSlot lib mem page :=
    Walk.slot_withRead tables .pte
  refine ⟨_, _, run_pteditResolveUser own ready page, ?_, mem_afterLookups _⟩
  rw [← slot]
  exact paged.valid_pte.pte_resolved page.1

/-- A whole client, with the state that it leaves. -/
theorem run_client {currentProcessId : Word} (own : host.OwnTables machine)
    (separate : Walk.Separate (host.walk (host.library currentProcessId) machine.mem) pages
      machine.mem)
    (maps : ∀ page ∈ pages,
      host.Maps (host.pteSlot (host.library currentProcessId) machine.mem page))
    {calls : List ClientCall} (inPages : ∀ call ∈ calls, call.page ∈ pages) :
    Prog.run (deviceHandler host cpu) (client currentProcessId calls) machine =
      some ((), { host.afterLookups machine
          (currentProcessId :: calls.flatMap ClientCall.lookups) with
        mem := machine.mem.editAll
          (host.edits (host.library currentProcessId) machine.mem calls) }) := by
  let start := host.looked machine currentProcessId
  have same : start.mem = machine.mem := mem_looked currentProcessId
  have settled : Walk.Settled (host.walk (host.library currentProcessId) machine.mem) pages
      machine.mem start.mem := fun b _ => congrFun same b
  have ran := @run_runClientCalls host cpu start _ _ pages (own.afterLookups [_])
    (ready_library currentProcessId) separate maps calls inPages settled
  rw [same] at ran
  exact (Prog.run_bind_of_some (run_pteditInit own currentProcessId)).trans ran

end Runs

/-- **A client on Windows.**  Through any calls, the PTEs that the kernel has mapped get what the
calls make of them one after the other, the other PTEs keep their values, and so does the rest of
memory.  Every lookup of a process leaves a reference on it. -/
theorem windows_run {host : WindowsHost} {cpu : Nat} {machine : Machine} {currentProcessId : Word}
    {pages : List (Word × Word)} (own : host.OwnTables machine)
    (separate : Walk.Separate (host.walk (host.library currentProcessId) machine.mem) pages
      machine.mem)
    (maps : ∀ page ∈ pages,
      host.Maps (host.pteSlot (host.library currentProcessId) machine.mem page))
    {calls : List ClientCall} (inPages : ∀ call ∈ calls, call.page ∈ pages) :
    ∃ machine', Prog.run (deviceHandler host cpu) (client currentProcessId calls) machine =
        some ((), machine') ∧
      (∀ b, (∀ call ∈ calls, ¬ InWord
        (host.pteSlot (host.library currentProcessId) machine.mem call.page) b) →
          machine'.mem b = machine.mem b) ∧
      (∀ page ∈ pages,
        machine'.mem.read (host.pteSlot (host.library currentProcessId) machine.mem page) =
          host.pteAfter (host.library currentProcessId) machine.mem calls page ∧
        ∃ entry after, Prog.run (deviceHandler host cpu)
            (pteditResolveUser (host.library currentProcessId) page.2 page.1) machine' =
              some (entry, after) ∧
          entry.pte = host.pteAfter (host.library currentProcessId) machine.mem calls page ∧
          after.mem = machine'.mem) ∧
      machine'.ia32Pat = machine.ia32Pat ∧
      ∀ process, machine'.references process = machine.references process +
        (currentProcessId :: calls.flatMap ClientCall.lookups).countP
          fun pid => decide (host.processById pid = some process) := by
  let finish : Machine :=
    { host.afterLookups machine (currentProcessId :: calls.flatMap ClientCall.lookups) with
      mem := machine.mem.editAll (host.edits (host.library currentProcessId) machine.mem calls) }
  have edited : Walk.Settled (host.walk (host.library currentProcessId) machine.mem) pages
      machine.mem finish.mem := settled_editAll inPages fun _ _ => rfl
  have ownEnd : host.OwnTables finish := own.afterLookups (currentProcessId :: _)
  refine ⟨finish, run_client own separate maps inPages, ?_, ?_, ?_, ?_⟩
  · intro b outside
    refine editAll_of_not_inWord _ fun edit member => ?_
    obtain ⟨call, among, slot⟩ := exists_call_of_mem_edits member
    rw [slot]
    exact outside call among
  · intro page member
    have pte := read_edits separate inPages member
    obtain ⟨entry, after, resolved, read, kept⟩ := @exists_resolved host cpu finish _ _ pages
      ownEnd (ready_library currentProcessId) separate edited page member
    exact ⟨pte, entry, after, resolved, read.trans pte, kept⟩
  · exact @ia32Pat_afterLookups host machine (currentProcessId :: _)
  · exact @references_afterLookups host machine (currentProcessId :: _)

/-- A host on which every process has its tables at `0x1000`, and the kernel has the last table
mapped up to its second entry. -/
def windowsSampleHost : WindowsHost :=
  { sampleHost with
    virtualForPhysical := fun physical => if physical = 0x4008 then 0 else physical
    processById := fun pid => some pid.toNat }

/-- A machine with the sample tables. -/
def windowsSampleMachine : Machine := { sampleMachine with mem := sampleMem }

/-- Two pages whose PTEs are next to each other, the second one in process 7. -/
def windowsSamplePages : List (Word × Word) := [(0, 0), (7, 0x1000)]

theorem windowsSample_separate :
    Walk.Separate (windowsSampleHost.walk (windowsSampleHost.library 4) windowsSampleMachine.mem)
      windowsSamplePages windowsSampleMachine.mem :=
  Walk.separate_of_all (fun _ => rfl) (fun _ => rfl) (fun _ => rfl) (by decide +kernel)
    (by decide +kernel) (by decide +kernel)

/-- The edit of the second page is lost, and three references on its process stay behind. -/
theorem windows_run_sample :
    ∃ machine', Prog.run (deviceHandler windowsSampleHost 0)
        (client 4 [⟨(0, 0), .edit (.setBit 1)⟩, ⟨(7, 0x1000), .edit (.setPfn 7)⟩,
          ⟨(0, 0), .edit (.clearBit 0)⟩]) windowsSampleMachine = some ((), machine') ∧
      machine'.mem.read 0x4000 = 0x5002 ∧ machine'.mem.read 0x4008 = 0 ∧
      machine'.references 7 = 4 := by
  have maps : ∀ page ∈ windowsSamplePages, windowsSampleHost.Maps
      (windowsSampleHost.pteSlot (windowsSampleHost.library 4) windowsSampleMachine.mem page) := by
    intro page _ mapped
    exact if_neg fun gone => mapped (if_pos gone)
  obtain ⟨machine', done, -, stored, -, references⟩ :=
    @windows_run windowsSampleHost 0 windowsSampleMachine 4 windowsSamplePages rfl
      windowsSample_separate maps
      [⟨(0, 0), .edit (.setBit 1)⟩, ⟨(7, 0x1000), .edit (.setPfn 7)⟩,
        ⟨(0, 0), .edit (.clearBit 0)⟩] (by decide +kernel)
  have first : windowsSampleHost.pteSlot (windowsSampleHost.library 4) windowsSampleMachine.mem
      (0, 0) = 0x4000 := by
    decide +kernel
  have second : windowsSampleHost.pteSlot (windowsSampleHost.library 4) windowsSampleMachine.mem
      (7, 0x1000) = 0x4008 := by
    decide +kernel
  refine ⟨machine', done, ?_, ?_, ?_⟩
  · rw [← first, (stored (0, 0) (by decide)).1]
    decide +kernel
  · rw [← second, (stored (7, 0x1000) (by decide)).1]
    decide +kernel
  · rw [references]
    decide +kernel

end Windows

end PTEditor
