import PTEditor.Library.Shape

/-!
# Saving, modifying and restoring an entry

An entry that was saved, replaced and written back: `saveRestore_iff` says that this
restores the memory at every level but the PGD, where the second update finds nothing
valid once the entry is not present any more.
-/

namespace PTEditor

open ByteMem

/-- The structure selects one level and holds a value for it. -/
structure PteditEntry.Only (vm : PteditEntry) (level : Level) (value : Word) : Prop where
  valid : ∀ other, vm.Valid other ↔ other = level
  field : vm.field level = value

/-- A structure that selects one level. -/
def PteditEntry.single (level : Level) (value : Word) : PteditEntry :=
  ((PteditEntry.cleared 0 0).withField value level).withValid level

theorem PteditEntry.only_single (level : Level) (value : Word) :
    (PteditEntry.single level value).Only level value := by
  have mask : (single level value).valid = level.validMask := by
    cases level <;> exact BitVec.zero_or
  refine ⟨fun other => ?_, ?_⟩
  · unfold Valid
    rw [mask]
    cases level <;> cases other <;> decide
  · cases level <;> rfl

namespace Walk

variable {w : Walk} {m : ByteMem} {level : Level} {vm : PteditEntry} {value : Word}

/-- An update of one valid level of the four-level walk. -/
theorem stores_only (definition : w.definition = .x86_64) (ne : level ≠ .p4d)
    (only : vm.Only level value) :
    w.stores vm = if w.Valid level then [(w.slot level, value)] else [] := by
  rw [stores_of_only only.valid, levelStore, only.field]
  exact if_congr ⟨fun selected => selected.2.1,
    fun valid => ⟨(only.valid level).mpr rfl, valid, stored_x86 definition ne⟩⟩ rfl rfl

/-- Storing the entry of a level keeps every entry above. -/
theorem sameShape_write (root : Aligned w.root) (distinct : w.slots.Nodup)
    (found : w.read = m.read) (valid : w.Valid level) (value : Word) :
    w.SameShape (m.write (w.slot level) value).read level := by
  intro up member here reached
  have ne : w.slot level ≠ w.slot up := by
    intro same
    have one := slot_injective distinct ⟨valid.1, valid.2.1⟩ ⟨here, reached⟩ same
    have above := Level.mem_upper.mp member
    rw [one] at above
    exact Nat.lt_irrefl _ above
  have apart := apart_of_aligned (aligned_slot root level) (aligned_slot root up) ne
  rw [read_write_of_apart m value apart, found]
  exact Alike.refl _

/-- In a memory that keeps the shape above a valid level and holds a value in its slot, the
level is valid again, the PGD only if the value is present. -/
theorem valid_withRead_iff {read : Word → Word} (shape : w.SameShape read level)
    (valid : w.Valid level) (held : read (w.slot level) = value) :
    (w.withRead read).Valid level ↔ (level = .pgd → Present w.arch value) := by
  have reached := shape.reached_iff.mpr valid.2.1
  have pgd : level = .pgd → (w.withRead read).pgdEntry = value := by
    rintro rfl
    exact held
  refine ⟨fun again same => ?_, fun present => ⟨valid.1, reached, fun same => ?_⟩⟩
  · have present := again.2.2 same
    rwa [pgd same] at present
  · rw [pgd same]
    exact present same

end Walk

section Updates

variable {sys : System} {lib : Lib} {w : World} {address : Word} {pid : Pid} {level : Level}

/-- An update of one level. -/
theorem run_pteditUpdate_only (attached : Attached sys lib w)
    (definition : lib.pagingDefinition = .x86_64)
    (access : UserAccess sys lib (sys.userWalk lib w.kernel address pid).slots)
    (ne : level ≠ .p4d) {vm : PteditEntry} {value : Word} (only : vm.Only level value) :
    Prog.run (sysHandler sys) (pteditUpdate lib address pid vm) w =
      some ((), if (sys.userWalk lib w.kernel address pid).Valid level then
        w.withMem (w.kernel.mem.write ((sys.userWalk lib w.kernel address pid).slot level) value)
      else w) := by
  have fourLevel : (sys.userWalk lib w.kernel address pid).definition = .x86_64 := definition
  have fits : lib.pagingDefinition.Fits := definition ▸ PteditPagingDefinition.x86_64_fits
  rw [run_pteditUpdate_stores attached fits access vm, Walk.stores_only fourLevel ne only]
  by_cases valid : (sys.userWalk lib w.kernel address pid).Valid level
  · rw [if_pos valid, if_pos valid]
    rfl
  · rw [if_neg valid, if_neg valid]
    rfl

/-- The entry of a level is saved by a resolve, replaced, and written back from what was
saved; then the memory is what it was. -/
def RestoresMemory (sys : System) (lib : Lib) (w : World) (address : Word) (pid : Pid)
    (level : Level) (value : Word) : Prop :=
  ∃ r, Prog.run (sysHandler sys) (pteditResolve lib address pid) w = some (r, w) ∧
    ∀ vm saved : PteditEntry, vm.Only level value → saved.Only level (r.field level) →
      ∃ w₁ w₂, Prog.run (sysHandler sys) (pteditUpdate lib address pid vm) w = some ((), w₁) ∧
        Prog.run (sysHandler sys) (pteditUpdate lib address pid saved) w₁ = some ((), w₂) ∧
        w₂.kernel.mem = w.kernel.mem

/-! ### The second update -/

section Runs

variable (attached : Attached sys lib w) (definition : lib.pagingDefinition = .x86_64)
  (pageAligned : (sys.userRoot lib w.kernel pid).toNat % 4096 = 0)
  (access : UserAccess sys lib (sys.userWalk lib w.kernel address pid).slots)
  (distinct : (sys.userWalk lib w.kernel address pid).slots.Nodup) (ne : level ≠ .p4d)
  (valid : (sys.userWalk lib w.kernel address pid).Valid level)

include attached access valid in
/-- What a resolve saves is what the memory holds. -/
theorem run_pteditResolve_saved :
    ∃ r, Prog.run (sysHandler sys) (pteditResolve lib address pid) w = some (r, w) ∧
      r.field level =
        w.kernel.mem.read ((sys.userWalk lib w.kernel address pid).slot level) := by
  refine ⟨_, run_pteditResolve attached access, ?_⟩
  rw [Walk.field_resolved, if_pos valid.2, Walk.entry_of_exists _ valid.1]
  rfl

variable {value : Word}
  (accessAgain : UserAccess sys lib (sys.userWalk lib (w.withMem (w.kernel.mem.write
    ((sys.userWalk lib w.kernel address pid).slot level) value)).kernel address pid).slots)

include attached definition pageAligned distinct ne valid accessAgain in
/-- After a store to a level an update of that level comes to the same slot, and stores
unless the walk stops at the PGD. -/
theorem run_pteditUpdate_again {vm : PteditEntry} {old : Word} (only : vm.Only level old) :
    Prog.run (sysHandler sys) (pteditUpdate lib address pid vm) (w.withMem (w.kernel.mem.write
        ((sys.userWalk lib w.kernel address pid).slot level) value)) =
      some ((), if level = .pgd → Present lib.arch value then
        w.withMem ((w.kernel.mem.write ((sys.userWalk lib w.kernel address pid).slot level)
          value).write ((sys.userWalk lib w.kernel address pid).slot level) old)
      else w.withMem (w.kernel.mem.write
        ((sys.userWalk lib w.kernel address pid).slot level) value)) := by
  have aligned : Aligned (sys.userWalk lib w.kernel address pid).root := by
    change (sys.userRoot lib w.kernel pid).toNat % 8 = 0
    omega
  have shape := Walk.sameShape_write aligned distinct rfl valid value
  have again := Walk.valid_withRead_iff shape valid (read_write_self _ _ _)
  rw [run_pteditUpdate_only (attached.withMem _) definition accessAgain ne only,
    System.userWalk_withMem, shape.slot_eq valid.2.1]
  congr 2
  exact if_congr again rfl rfl

include attached definition pageAligned access distinct ne valid accessAgain in
theorem restoresMemory_of_present (found : level = .pgd → Present lib.arch value) :
    RestoresMemory sys lib w address pid level value := by
  obtain ⟨r, resolves, saved_eq⟩ := run_pteditResolve_saved attached access valid
  refine ⟨r, resolves, fun vm saved replaces restores => ?_⟩
  have first := run_pteditUpdate_only attached definition access ne replaces
  have second := run_pteditUpdate_again attached definition pageAligned distinct ne valid
    accessAgain restores
  rw [if_pos valid] at first
  rw [if_pos found] at second
  refine ⟨_, _, first, second, ?_⟩
  rw [saved_eq]
  exact (write_write_self _ _ _ _).trans (write_read_self _ _)

include attached definition pageAligned access distinct valid accessAgain in
/-- A PGD entry that is not present any more is never written back. -/
theorem not_restoresMemory_of_absent (isPgd : level = .pgd) (absent : ¬ Present lib.arch value) :
    ¬ RestoresMemory sys lib w address pid level value := by
  rintro ⟨r, -, restores⟩
  have ne : level ≠ .p4d := isPgd ▸ by decide
  obtain ⟨w₁, w₂, ran₁, ran₂, same⟩ := restores _ _ (PteditEntry.only_single level value)
    (PteditEntry.only_single level _)
  rw [run_pteditUpdate_only attached definition access ne (PteditEntry.only_single level value),
    if_pos valid] at ran₁
  obtain rfl := (Prod.mk.inj (Option.some.inj ran₁)).2
  rw [run_pteditUpdate_again attached definition pageAligned distinct ne valid accessAgain
    (PteditEntry.only_single level _), if_neg (fun found => absent (found isPgd))] at ran₂
  obtain rfl := (Prod.mk.inj (Option.some.inj ran₂)).2
  -- the memory still holds the value, and a valid PGD entry is present
  have kept : value = w.kernel.mem.read ((sys.userWalk lib w.kernel address pid).slot level) :=
    (read_write_self _ _ _).symm.trans (congrArg (fun m : ByteMem => m.read _) same)
  subst isPgd
  rw [kept] at absent
  exact absent (valid.2.2 rfl)

end Runs

/-- **Save, modify, restore.**  Writing back a saved entry restores the memory, unless the
entry is that of the PGD and was replaced by one that is not present. -/
theorem saveRestore_iff (attached : Attached sys lib w)
    (definition : lib.pagingDefinition = .x86_64)
    (pageAligned : (sys.userRoot lib w.kernel pid).toNat % 4096 = 0)
    (access : UserAccess sys lib (sys.userWalk lib w.kernel address pid).slots)
    (distinct : (sys.userWalk lib w.kernel address pid).slots.Nodup) (ne : level ≠ .p4d)
    (valid : (sys.userWalk lib w.kernel address pid).Valid level) (value : Word)
    (accessAgain : UserAccess sys lib (sys.userWalk lib (w.withMem (w.kernel.mem.write
      ((sys.userWalk lib w.kernel address pid).slot level) value)).kernel address pid).slots) :
    RestoresMemory sys lib w address pid level value ↔
      level ≠ .pgd ∨ Present lib.arch value := by
  constructor
  · intro restores
    by_contra lost
    obtain ⟨isPgd, absent⟩ := not_or.mp lost
    exact not_restoresMemory_of_absent attached definition pageAligned access distinct valid
      accessAgain (not_not.mp isPgd) absent restores
  · intro condition
    exact restoresMemory_of_present attached definition pageAligned access distinct ne valid
      accessAgain fun isPgd => condition.resolve_left (not_not.mpr isPgd)

end Updates

/-! ### The sample machine -/

theorem sample_pageAligned :
    (sampleSystem.userRoot sampleLib sampleWorld.kernel 0).toNat % 4096 = 0 := by decide

theorem sample_distinct :
    (sampleSystem.userWalk sampleLib sampleWorld.kernel 0 0).slots.Nodup := by decide +kernel

theorem sample_valid_pte : (sampleSystem.userWalk sampleLib sampleWorld.kernel 0 0).Valid .pte := by
  decide +kernel

theorem sample_valid_pgd : (sampleSystem.userWalk sampleLib sampleWorld.kernel 0 0).Valid .pgd := by
  decide +kernel

/-- A PTE that was cleared is written back. -/
theorem saveRestore_iff_sample : RestoresMemory sampleSystem sampleLib sampleWorld 0 0 .pte 0 :=
  (saveRestore_iff sample_attached rfl sample_pageAligned (sample_access _) sample_distinct
    (by decide) sample_valid_pte 0 (sample_access _)).mpr (.inl (by decide))

/-- A PGD entry that was cleared is lost. -/
theorem saveRestore_lostPgd :
    Attached sampleSystem sampleLib sampleWorld ∧ sampleLib.pagingDefinition = .x86_64 ∧
      (sampleSystem.userRoot sampleLib sampleWorld.kernel 0).toNat % 4096 = 0 ∧
      (∀ touched, UserAccess sampleSystem sampleLib touched) ∧
      (sampleSystem.userWalk sampleLib sampleWorld.kernel 0 0).slots.Nodup ∧
      (sampleSystem.userWalk sampleLib sampleWorld.kernel 0 0).Valid .pgd ∧
      ¬ RestoresMemory sampleSystem sampleLib sampleWorld 0 0 .pgd 0 :=
  ⟨sample_attached, rfl, sample_pageAligned, sample_access, sample_distinct, sample_valid_pgd,
    not_restoresMemory_of_absent sample_attached rfl sample_pageAligned (sample_access _)
      sample_distinct sample_valid_pgd (sample_access _) rfl (by decide)⟩

end PTEditor
