import PTEditor.Library.PteSpec

/-!
# Runs of PTE operations

Every PTE operation walks the tables afresh, through memory that earlier operations
have changed.  As long as no PTE slot in use is a table slot of some walk, the walks
stay as they were (`Stable.walk`), a step edits the word in one slot
(`run_pteCall`), and a whole run is the edits of its steps (`run_pteCalls`);
`pteRun_independent` says what that means for the pages.
-/

namespace PTEditor

open ByteMem

/-- A PTE operation: one of the editing calls, or an update of the PTE alone. -/
inductive PteOp where
  | edit (edit : PteEdit)
  | update (vm : PteditEntry) (only : vm.PteOnly)

/-- A call of a PTE operation for a page of a process. -/
structure PteCall where
  page : Pid × Word
  op : PteOp

namespace PteCall

/-- The call as the library makes it. -/
def program (lib : Lib) (call : PteCall) : Sys Unit :=
  match call.op with
  | .edit edit => edit.program lib call.page.2 call.page.1
  | .update vm _ => pteditUpdate lib call.page.2 call.page.1 vm

/-- What the call does to the PTE of its page. -/
def apply (arch : Arch) (call : PteCall) (pte : Word) : Word :=
  match call.op with
  | .edit edit => edit.apply arch pte
  | .update vm _ => vm.pte

end PteCall

/-- Make calls one after the other. -/
def runCalls (lib : Lib) : List PteCall → Sys Unit
  | [] => pure ()
  | call :: rest => do
      call.program lib
      runCalls lib rest

/-- The walk for a page, a pid with an address. -/
def System.pageWalk (sys : System) (lib : Lib) (k : Kernel) (page : Pid × Word) : Walk :=
  sys.userWalk lib k page.2 page.1

/-- The PTE slot of a page. -/
def System.pteSlot (sys : System) (lib : Lib) (k : Kernel) (page : Pid × Word) : Word :=
  (sys.pageWalk lib k page).slot .pte

/-- Pages with valid PTEs, none of which lies in a slot through which another page, or
the page itself, is resolved. -/
structure Independent (sys : System) (lib : Lib) (k : Kernel) (pages : List (Pid × Word)) :
    Prop where
  valid : ∀ page ∈ pages, (sys.pageWalk lib k page).Valid .pte
  pageAligned : ∀ page ∈ pages, (sys.userRoot lib k page.1).toNat % 4096 = 0
  tables : ∀ page ∈ pages, ∀ other ∈ pages, ∀ level, level ≠ .pte →
    (sys.pageWalk lib k other).Exists level →
      sys.pteSlot lib k page ≠ (sys.pageWalk lib k other).slot level

/-- A memory that differs from another at most in the PTEs of some pages. -/
def Stable (sys : System) (lib : Lib) (k : Kernel) (pages : List (Pid × Word)) (mem : ByteMem) :
    Prop :=
  ∀ b, (∀ page ∈ pages, ¬ InWord (sys.pteSlot lib k page) b) → mem b = k.mem b

section Runs

variable {sys : System} {lib : Lib} {w : World} {pages : List (Pid × Word)}

theorem Independent.aligned_slot {k : Kernel} (independent : Independent sys lib k pages)
    {page : Pid × Word} (member : page ∈ pages) (level : Level) :
    Aligned ((sys.pageWalk lib k page).slot level) := by
  have aligned := independent.pageAligned page member
  refine Walk.aligned_slot ?_ level
  change (sys.userRoot lib k page.1).toNat % 8 = 0
  omega

/-- In a stable memory the tables of the pages are unchanged. -/
theorem Stable.tables {k : Kernel} {mem : ByteMem} (independent : Independent sys lib k pages)
    (stable : Stable sys lib k pages mem) {page : Pid × Word} (member : page ∈ pages) :
    (sys.pageWalk lib k page).SameTables mem.read := by
  intro level ne here
  refine read_congr fun b inWord => stable b fun other inPages inPte => ?_
  exact apart_of_aligned (independent.aligned_slot inPages .pte)
    (independent.aligned_slot member level)
    (independent.tables other inPages page member level ne here) b inPte inWord

theorem pageWalk_withMem (k : Kernel) (mem : ByteMem) (page : Pid × Word) :
    sys.pageWalk lib (k.withMem mem) page = (sys.pageWalk lib k page).withRead mem.read := rfl

/-- **Every walk of the run is the walk of the start.** -/
theorem Stable.walk {k : Kernel} {mem : ByteMem} (independent : Independent sys lib k pages)
    (stable : Stable sys lib k pages mem) {page : Pid × Word} (member : page ∈ pages) :
    (sys.pageWalk lib (k.withMem mem) page).Valid .pte ∧
      ∀ level, (sys.pageWalk lib (k.withMem mem) page).slot level =
        (sys.pageWalk lib k page).slot level := by
  have tables := stable.tables independent member
  rw [pageWalk_withMem]
  exact ⟨(Walk.valid_pte_withRead tables).mpr (independent.valid page member),
    Walk.slot_withRead tables⟩

/-- Storing the PTE of one of the pages keeps a memory stable. -/
theorem Stable.write {k : Kernel} {mem : ByteMem} (stable : Stable sys lib k pages mem)
    {page : Pid × Word} (member : page ∈ pages) (value : Word) :
    Stable sys lib k pages (mem.write (sys.pteSlot lib k page) value) := by
  intro b outside
  rw [write_of_not_inWord _ _ (outside page member)]
  exact stable b outside

/-- What a walk of a page reads lies in the slots of the page's first walk. -/
theorem Stable.slots_subset {k : Kernel} {mem : ByteMem}
    (independent : Independent sys lib k pages) (stable : Stable sys lib k pages mem)
    {page : Pid × Word} (member : page ∈ pages) :
    ∀ a ∈ (sys.pageWalk lib (k.withMem mem) page).slots, a ∈ (sys.pageWalk lib k page).slots := by
  have tables := stable.tables independent member
  have valid := independent.valid page member
  intro a read
  rw [pageWalk_withMem] at read
  obtain ⟨level, here, -, same⟩ := (Walk.mem_slots _).mp read
  rw [Walk.slot_withRead tables] at same
  exact (Walk.mem_slots _).mpr ⟨level, Walk.exists_withRead.mp here, valid.reached level, same⟩

/-- **Step.**  A call edits the word in the PTE slot of its page. -/
theorem run_pteCall (attached : Attached sys lib w) (fits : lib.pagingDefinition.Fits)
    (independent : Independent sys lib w.kernel pages) {mem : ByteMem}
    (stable : Stable sys lib w.kernel pages mem) {call : PteCall} (member : call.page ∈ pages)
    (access : UserAccess sys lib (sys.pageWalk lib w.kernel call.page).slots) :
    Prog.run (sysHandler sys) (call.program lib) (w.withMem mem) =
      some ((), w.withMem (mem.write (sys.pteSlot lib w.kernel call.page)
        (call.apply lib.arch (mem.read (sys.pteSlot lib w.kernel call.page))))) := by
  obtain ⟨valid, slots⟩ := stable.walk independent member
  have slot := slots .pte
  have reaches := access.mono (stable.slots_subset independent member)
  obtain ⟨⟨pid, address⟩, op⟩ := call
  unfold PteCall.program PteCall.apply System.pteSlot
  cases op with
  | edit edit =>
      dsimp only
      rw [PteEdit.program_eq, ← slot]
      exact run_pteditPteEdit (attached.withMem mem) fits reaches valid _
  | update vm only =>
      dsimp only
      rw [← slot]
      exact run_pteditUpdate_pteOnly (attached.withMem mem) fits reaches valid only

/-- The edits that calls make, at the slots of their pages. -/
def System.pteEdits (sys : System) (lib : Lib) (k : Kernel) (calls : List PteCall) :
    List (Word × (Word → Word)) :=
  calls.map fun call => (sys.pteSlot lib k call.page, call.apply lib.arch)

/-- **Run.**  Calls for the pages make their edits and nothing else. -/
theorem run_pteCalls (attached : Attached sys lib w) (fits : lib.pagingDefinition.Fits)
    (independent : Independent sys lib w.kernel pages)
    (access : ∀ page ∈ pages, UserAccess sys lib (sys.pageWalk lib w.kernel page).slots)
    {calls : List PteCall} (inPages : ∀ call ∈ calls, call.page ∈ pages) {mem : ByteMem}
    (stable : Stable sys lib w.kernel pages mem) :
    Prog.run (sysHandler sys) (runCalls lib calls) (w.withMem mem) =
      some ((), w.withMem (mem.editAll (sys.pteEdits lib w.kernel calls))) := by
  induction calls generalizing mem with
  | nil => rfl
  | cons call rest ih =>
      rw [List.forall_mem_cons] at inPages
      have step := run_pteCall attached fits independent stable inPages.1 (access _ inPages.1)
      rw [runCalls, Prog.run_bind_of_some step]
      exact ih inPages.2 (stable.write inPages.1 _)

/-- The calls for pages with a given PTE slot. -/
def System.callsAt (sys : System) (lib : Lib) (k : Kernel) (slot : Word) (calls : List PteCall) :
    List PteCall :=
  calls.filter fun call => sys.pteSlot lib k call.page = slot

theorem editsAt_pteEdits (k : Kernel) (calls : List PteCall) (slot : Word) :
    editsAt (sys.pteEdits lib k calls) slot =
      (sys.callsAt lib k slot calls).map (PteCall.apply lib.arch) := by
  simp only [editsAt, System.pteEdits, System.callsAt, List.filter_map, List.map_map]
  rfl

/-- Neighbouring calls for different slots may be swapped. -/
theorem editAll_swap {k : Kernel} (mem : ByteMem) {before after : List PteCall}
    {first second : PteCall}
    (aligned : ∀ edit ∈ sys.pteEdits lib k (before ++ first :: second :: after), Aligned edit.1)
    (ne : sys.pteSlot lib k first.page ≠ sys.pteSlot lib k second.page) :
    mem.editAll (sys.pteEdits lib k (before ++ second :: first :: after)) =
      mem.editAll (sys.pteEdits lib k (before ++ first :: second :: after)) := by
  refine editAll_congr mem aligned fun a => ?_
  simp only [System.pteEdits, List.map_append, List.map_cons]
  exact editsAt_swap ne _ _ a

theorem stable_self (k : Kernel) : Stable sys lib k pages k.mem := fun _ _ => rfl

/-- The PTE slots of the pages that calls are for are aligned. -/
theorem Independent.aligned_edits {k : Kernel} (independent : Independent sys lib k pages)
    {calls : List PteCall} (inPages : ∀ call ∈ calls, call.page ∈ pages) :
    ∀ edit ∈ sys.pteEdits lib k calls, Aligned edit.1 := by
  intro edit member
  obtain ⟨call, inCalls, rfl⟩ := List.mem_map.mp member
  exact independent.aligned_slot (inPages call inCalls) .pte

end Runs

/-- **Pages are independent over whole runs of PTE operations.** -/
theorem pteRun_independent {sys : System} {lib : Lib} {w : World} {pages : List (Pid × Word)}
    (attached : Attached sys lib w) (fits : lib.pagingDefinition.Fits)
    (independent : Independent sys lib w.kernel pages)
    (access : ∀ page ∈ pages, UserAccess sys lib (sys.pageWalk lib w.kernel page).slots) :
    (∀ calls : List PteCall, (∀ call ∈ calls, call.page ∈ pages) → ∃ mem,
      Prog.run (sysHandler sys) (runCalls lib calls) w = some ((), w.withMem mem) ∧
      (∀ b, (∀ call ∈ calls, ¬ InWord (sys.pteSlot lib w.kernel call.page) b) →
        mem b = w.kernel.mem b) ∧
      (∀ page ∈ pages, mem.read (sys.pteSlot lib w.kernel page) =
        (sys.callsAt lib w.kernel (sys.pteSlot lib w.kernel page) calls).foldl
          (fun pte call => call.apply lib.arch pte)
          (w.kernel.mem.read (sys.pteSlot lib w.kernel page))) ∧
      (∀ page ∈ pages,
        (∀ bit, Prog.run (sysHandler sys) (pteditPteGetBit lib page.2 page.1 bit)
          (w.withMem mem) = some (decide (mem.read (sys.pteSlot lib w.kernel page) &&&
            (1#64 <<< bit) ≠ 0), w.withMem mem)) ∧
        Prog.run (sysHandler sys) (pteditPteGetPfn lib page.2 page.1) (w.withMem mem) =
          some (pteditGetPfn lib.arch (mem.read (sys.pteSlot lib w.kernel page)),
            w.withMem mem)) ∧
      (∀ before first second after, calls = before ++ first :: second :: after →
        sys.pteSlot lib w.kernel first.page ≠ sys.pteSlot lib w.kernel second.page →
        Prog.run (sysHandler sys) (runCalls lib (before ++ second :: first :: after)) w =
          some ((), w.withMem mem))) ∧
    ∀ page (edit : PteEdit), UserAccess sys lib (sys.pageWalk lib w.kernel page).slots →
      ¬ (sys.pageWalk lib w.kernel page).Valid .pte →
      Prog.run (sysHandler sys) (edit.program lib page.2 page.1) w = some ((), w) := by
  refine ⟨fun calls inPages => ?_, fun page edit reaches invalid => ?_⟩
  · have run := run_pteCalls attached fits independent access inPages (stable_self w.kernel)
    have aligned := independent.aligned_edits inPages
    have unchanged : ∀ b, (∀ call ∈ calls, ¬ InWord (sys.pteSlot lib w.kernel call.page) b) →
        w.kernel.mem.editAll (sys.pteEdits lib w.kernel calls) b = w.kernel.mem b := by
      intro b outside
      refine editAll_of_not_inWord _ fun edit member => ?_
      obtain ⟨call, inCalls, rfl⟩ := List.mem_map.mp member
      exact outside call inCalls
    have stable : Stable sys lib w.kernel pages
        (w.kernel.mem.editAll (sys.pteEdits lib w.kernel calls)) :=
      fun b outside => unchanged b fun call member => outside _ (inPages call member)
    refine ⟨_, run, unchanged, ?_, ?_, ?_⟩
    · intro page member
      have slot : Aligned (sys.pteSlot lib w.kernel page) := independent.aligned_slot member .pte
      rw [read_editAll _ aligned slot, editsAt_pteEdits, List.foldl_map]
    · intro page member
      obtain ⟨valid, slots⟩ := stable.walk independent member
      have reaches := (access page member).mono (stable.slots_subset independent member)
      have slot := slots .pte
      unfold System.pteSlot
      rw [← slot]
      exact ⟨run_pteditPteGetBit (attached.withMem _) reaches valid,
        run_pteditPteGetPfn (attached.withMem _) reaches valid⟩
    · rintro before first second after rfl ne
      have swapped : ∀ call ∈ before ++ second :: first :: after, call.page ∈ pages := by
        have perm := (List.Perm.swap first second after).append_left before
        exact fun call member => inPages call (perm.mem_iff.mp member)
      rw [← editAll_swap w.kernel.mem aligned ne]
      exact run_pteCalls attached fits independent access swapped (stable_self w.kernel)
  · rw [PteEdit.program_eq]
    exact run_pteditPteEdit_of_not_valid attached reaches invalid _

/-- Two pages of the sample machine whose PTEs are next to each other. -/
def samplePages : List (Pid × Word) := [(0, 0), (0, 0x1000)]

theorem sample_independent :
    Independent sampleSystem sampleLib sampleWorld.kernel samplePages := by
  have root : samplePages.all (fun page => decide
      ((sampleSystem.userRoot sampleLib sampleWorld.kernel page.1).toNat % 4096 = 0)) = true := by
    decide +kernel
  have valid : samplePages.all (fun page => decide
      ((sampleSystem.pageWalk sampleLib sampleWorld.kernel page).Valid .pte)) = true := by
    decide +kernel
  have slots : samplePages.all (fun page => samplePages.all fun other => Level.all.all fun level =>
      decide (level ≠ .pte →
        (sampleSystem.pageWalk sampleLib sampleWorld.kernel other).Exists level →
        sampleSystem.pteSlot sampleLib sampleWorld.kernel page ≠
          (sampleSystem.pageWalk sampleLib sampleWorld.kernel other).slot level)) = true := by
    decide +kernel
  simp only [List.all_eq_true, decide_eq_true_eq] at root valid slots
  exact ⟨valid, root,
    fun page member other member' level => slots page member other member' level level.mem_all⟩

theorem pteRun_independent_sample :
    ∃ mem, Prog.run (sysHandler sampleSystem) (runCalls sampleLib
        [⟨(0, 0), .edit (.setBit 1)⟩, ⟨(0, 0x1000), .edit (.setPfn 7)⟩,
          ⟨(0, 0), .edit (.clearBit 0)⟩]) sampleWorld = some ((), sampleWorld.withMem mem) ∧
      mem.read 0x4000 = 0x5002 ∧ mem.read 0x4008 = 0x7000 := by
  have run := (pteRun_independent sample_attached PteditPagingDefinition.x86_64_fits
    sample_independent fun _ _ => sample_access _).1
      [⟨(0, 0), .edit (.setBit 1)⟩, ⟨(0, 0x1000), .edit (.setPfn 7)⟩,
        ⟨(0, 0), .edit (.clearBit 0)⟩]
  obtain ⟨mem, done, -, stored, -⟩ := run (by decide +kernel)
  have first : sampleSystem.pteSlot sampleLib sampleWorld.kernel (0, 0) = 0x4000 := by
    decide +kernel
  have second : sampleSystem.pteSlot sampleLib sampleWorld.kernel (0, 0x1000) = 0x4008 := by
    decide +kernel
  refine ⟨mem, done, ?_, ?_⟩
  · rw [← first, stored (0, 0) (by decide)]
    decide +kernel
  · rw [← second, stored (0, 0x1000) (by decide)]
    decide +kernel

end PTEditor
