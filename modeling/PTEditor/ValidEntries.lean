import PTEditor.Library.Slots

/-!
# Valid bits and empty entries

A valid bit is to mean that there is an entry.  The user-space walker sets the bits below
the PGD for what it has read, and `resolve_vm` sets that of the PTE without looking at the
entry: `validEntries_iff` says when every level that `ptedit_resolve` reports valid has an
entry.
-/

namespace PTEditor

/-- Every level that a resolve reports valid has a non-empty entry. -/
def PteditEntry.HasValidEntries (resolved : PteditEntry) : Prop :=
  ∀ level, resolved.Valid level → resolved.field level ≠ 0

theorem Present.ne_zero {arch : Arch} {entry : Word} (present : Present arch entry) :
    entry ≠ 0 := by
  rintro rfl
  cases arch <;> exact absurd present (by decide)

/-! ## The user-space walker -/

namespace Walk

variable {w : Walk}

/-- The last entry that the walk reads is empty and not that of the PGD. -/
def EndsEmpty (w : Walk) : Prop :=
  ∃ level, (w.readAt Level.all).getLast? = some level ∧ level ≠ .pgd ∧ w.entry level = 0

theorem mem_readAt_all {level : Level} :
    level ∈ w.readAt Level.all ↔ w.Exists level ∧ w.Reached level := by
  simp [readAt, level.mem_all]

/-- Below an entry that is read there is another one only if it is present. -/
theorem present_of_lower {level lower : Level} (reached : w.Reached lower)
    (below : level.rank < lower.rank) : Present w.arch (w.entry level) :=
  reached.2.1 level (Level.mem_upper.mpr below)

/-- A level that is read is the last one, or the walk goes on below it. -/
theorem last_or_present {last level : Level}
    (ends : (w.readAt Level.all).getLast? = some last) (member : level ∈ w.readAt Level.all) :
    level = last ∨ Present w.arch (w.entry level) := by
  have reached := (mem_readAt_all.mp (List.mem_of_getLast? ends)).2
  obtain ⟨before, split⟩ := List.getLast?_eq_some_iff.mp ends
  have ordered : (w.readAt Level.all).Pairwise fun a b => a.rank < b.rank :=
    Level.all_ordered.filter _
  rw [split, List.pairwise_append] at ordered
  rw [split, List.mem_append, List.mem_singleton] at member
  rcases member with early | same
  · exact .inr (present_of_lower reached (ordered.2.2 level early last (List.mem_singleton_self _)))
  · exact .inl same

theorem valid_iff_mem_readAt {level : Level} :
    w.Valid level ↔ level ∈ w.readAt Level.all ∧ (level = .pgd → Present w.arch w.pgdEntry) := by
  rw [mem_readAt_all]
  exact and_assoc.symm

/-- Every valid level has an entry unless the walk ends at an empty one. -/
theorem hasValidEntries_resolved_iff (pid : Word) :
    (w.resolved pid).HasValidEntries ↔ ¬ w.EndsEmpty := by
  have field : ∀ level, w.Valid level → (w.resolved pid).field level = w.entry level :=
    fun level valid => (w.field_resolved pid level).trans (if_pos valid.2)
  constructor
  · rintro entries ⟨level, ends, below, empty⟩
    have read := List.mem_of_getLast? ends
    have valid := valid_iff_mem_readAt.mpr ⟨read, fun root => absurd root below⟩
    exact entries level ((w.valid_resolved pid level).mpr valid) ((field level valid).trans empty)
  · intro filled level reported empty
    have valid := (w.valid_resolved pid level).mp reported
    obtain ⟨read, root⟩ := valid_iff_mem_readAt.mp valid
    rw [field level valid] at empty
    have ends := List.getLast?_eq_some_getLast (List.ne_nil_of_mem read)
    rcases last_or_present ends read with same | present
    · rcases eq_or_ne level .pgd with isRoot | below
      · subst isRoot
        exact (root rfl).ne_zero empty
      · exact filled ⟨level, same ▸ ends, below, empty⟩
    · exact present.ne_zero empty

end Walk

/-! ## The descent of the module -/

/-- `X_none` tests for the empty entry, and `pte_offset_map` returns the slot. -/
structure NoneIsEmpty (host : Host) : Prop where
  pgdNone : ∀ e, host.pgdNone e = decide (e = 0)
  p4dNone : ∀ e, host.p4dNone e = decide (e = 0)
  pudNone : ∀ e, host.pudNone e = decide (e = 0)
  pmdNone : ∀ e, host.pmdNone e = decide (e = 0)
  pteOffset : ∀ pointer e addr, (host.pteOffsetMap pointer e addr).isSome

namespace KernelWalk

variable {w : KernelWalk}

/-- All tables for the address are there, and the last one has an empty entry for it. -/
structure EmptyPte (w : KernelWalk) : Prop where
  pgd : w.entry .pgd ≠ 0 ∧ w.host.pgdBad (w.entry .pgd) = false
  p4d : w.entry .p4d ≠ 0 ∧ w.host.p4dBad (w.entry .p4d) = false
  pud : w.entry .pud ≠ 0 ∧ w.host.pudLeaf (w.entry .pud) = false
  pmd : w.entry .pmd ≠ 0 ∧ w.host.pmdLeaf (w.entry .pmd) = false
  pte : w.entry .pte = 0

section Tests

variable (tests : NoneIsEmpty w.host)

include tests

/-- Above the PTE a level passes only if it has an entry. -/
theorem entry_ne_zero_of_passes {level : Level} (passes : w.Passes level) (ne : level ≠ .pte) :
    w.entry level ≠ 0 := by
  cases level with
  | pgd => exact ((passes_pgd_iff tests.pgdNone).mp passes).1
  | p4d => exact ((passes_p4d_iff tests.p4dNone).mp passes).1
  | pud => exact (passes_pud_iff tests.pudNone).mp passes
  | pmd => exact ((passes_pmd_iff tests.pmdNone).mp passes).1
  | pte => exact absurd rfl ne

theorem emptyPte_iff : w.EmptyPte ↔ w.Valid .pte ∧ w.entry .pte = 0 := by
  have upper : (∀ up ∈ Level.upper .pte, w.Passes up) ↔
      w.Passes .pgd ∧ w.Passes .p4d ∧ w.Passes .pud ∧ w.Passes .pmd := by
    simp [Level.upper]
  rw [Valid, upper, passes_pgd_iff tests.pgdNone, passes_p4d_iff tests.p4dNone,
    passes_pud_iff tests.pudNone, passes_pmd_iff tests.pmdNone,
    passes_pte_iff (tests.pteOffset _ _ _)]
  constructor
  · rintro ⟨pgd, p4d, pud, pmd, pte⟩
    exact ⟨⟨⟨pgd, p4d, pud.1, pmd.1, pud.2⟩, pmd.2⟩, pte⟩
  · rintro ⟨⟨⟨pgd, p4d, pud, pmd, pudLeaf⟩, pmdLeaf⟩, pte⟩
    exact ⟨pgd, p4d, ⟨pud, pudLeaf⟩, ⟨pmd, pmdLeaf⟩, pte⟩

end Tests

/-- Every valid level has an entry unless that of the PTE is empty. -/
theorem entries_of_valid_iff (tests : NoneIsEmpty w.host) :
    (∀ level, w.Valid level → w.entry level ≠ 0) ↔ ¬ w.EmptyPte := by
  rw [emptyPte_iff tests]
  constructor
  · rintro entries ⟨valid, empty⟩
    exact entries .pte valid empty
  · intro filled level valid empty
    rcases eq_or_ne level .pte with rfl | ne
    · exact filled ⟨valid, empty⟩
    · exact entry_ne_zero_of_passes tests valid.2 ne empty

end KernelWalk

/-! ## `ptedit_resolve` -/

section Resolve

variable {sys : System} {lib : Lib} {w : World}

theorem kernelEntry_hasValidEntries_iff {address : Word} {pid : Pid} {mm : Mm}
    (live : sys.host.getMm (sizeOfInt pid) = some mm) (tests : NoneIsEmpty sys.host) :
    (sys.kernelEntry w.kernel address pid).HasValidEntries ↔
      ¬ (w.kernel.walk sys.host address mm).EmptyPte := by
  rw [← KernelWalk.entries_of_valid_iff tests]
  have field : ∀ level, (w.kernel.walk sys.host address mm).Valid level →
      (sys.kernelEntry w.kernel address pid).field level =
        (w.kernel.walk sys.host address mm).entry level :=
    fun level valid => (field_kernelEntry live level).trans (if_pos valid)
  have valid : ∀ level, (sys.kernelEntry w.kernel address pid).Valid level ↔
      (w.kernel.walk sys.host address mm).Valid level :=
    fun level => valid_kernelEntry live level
  constructor
  · intro entries level here
    rw [← field level here]
    exact entries level ((valid level).mpr here)
  · intro entries level reported
    have here := (valid level).mp reported
    rw [field level here]
    exact entries level here

/-- **A valid bit means an entry.**  In user space that fails exactly when the walk below
the PGD ends at an empty entry, and through the kernel when the last table has an empty
entry for the address. -/
theorem validEntries_iff (attached : Attached sys lib w) (address : Word) (pid : Pid) {mm : Mm}
    (live : sys.host.getMm (sizeOfInt pid) = some mm) :
    (UserAccess sys lib (sys.userWalk lib w.kernel address pid).slots →
      ∃ r, Prog.run (sysHandler sys) (pteditResolve lib address pid) w = some (r, w) ∧
        (r.HasValidEntries ↔ ¬ (sys.userWalk lib w.kernel address pid).EndsEmpty)) ∧
    (lib.implementation = .kernel → NoneIsEmpty sys.host →
      ∃ r, Prog.run (sysHandler sys) (pteditResolve lib address pid) w = some (r, w) ∧
        (r.HasValidEntries ↔ ¬ (w.kernel.walk sys.host address mm).EmptyPte)) := by
  constructor
  · intro access
    exact ⟨_, run_pteditResolve attached access, Walk.hasValidEntries_resolved_iff _⟩
  · intro selected tests
    refine ⟨_, ?_, kernelEntry_hasValidEntries_iff live tests⟩
    unfold pteditResolve
    rw [selected]
    exact run_pteditResolveKernel attached address pid

end Resolve

/-! ## Empty entries on the sample machine -/

/-- The sample machine with a `pgd_none` that tests the entry, as on five levels. -/
def testingSystem : System :=
  { sampleSystem with host := { sampleHost with pgdNone := fun e => decide (e = 0) } }

theorem testingSystem_attached (lib : Lib) (device : lib.fd = 3) (arch : lib.arch = .x86_64) :
    Attached testingSystem lib sampleWorld :=
  ⟨by rw [device]; rfl, arch, rfl, fun _ => rfl⟩

theorem testingSystem_tests : NoneIsEmpty testingSystem.host :=
  ⟨fun _ => rfl, fun _ => rfl, fun _ => rfl, fun _ => rfl, fun _ _ _ => rfl⟩

/-- The page at address 0 is mapped, and every valid level has an entry. -/
theorem validEntries_iff_sample :
    (∃ r, Prog.run (sysHandler testingSystem) (pteditResolve sampleLib 0 1) sampleWorld =
      some (r, sampleWorld) ∧ r.HasValidEntries) ∧
    ∃ r, Prog.run (sysHandler testingSystem) (pteditResolve sampleKernelLib 0 1) sampleWorld =
      some (r, sampleWorld) ∧ r.HasValidEntries := by
  have live : testingSystem.host.getMm (sizeOfInt 1) = some 0 := by decide
  obtain ⟨byUser, ranUser, user⟩ := (validEntries_iff (testingSystem_attached sampleLib rfl rfl) 0 1
    live).1 (.pread rfl rfl)
  obtain ⟨byKernel, ranKernel, kernel⟩ := (validEntries_iff
    (testingSystem_attached sampleKernelLib rfl rfl) 0 1 live).2 rfl testingSystem_tests
  refine ⟨⟨byUser, ranUser, user.mpr ?_⟩, ⟨byKernel, ranKernel, kernel.mpr fun empty => ?_⟩⟩
  · rintro ⟨level, ends, below, empty⟩
    have last : ((testingSystem.userWalk sampleLib sampleWorld.kernel 0 1).readAt
        Level.all).getLast? = some .pte := by
      decide +kernel
    obtain rfl := Option.some.inj (last.symm.trans ends)
    exact absurd empty (by decide +kernel)
  · exact absurd empty.pte (by decide +kernel)

/-- The table of address `0x1000` is there, its entry is empty, and the PTE is valid. -/
theorem validEntries_emptyPte :
    testingSystem.host.getMm (sizeOfInt 1) = some 0 ∧ NoneIsEmpty testingSystem.host ∧
    (∃ r, Prog.run (sysHandler testingSystem) (pteditResolve sampleLib 0x1000 1) sampleWorld =
      some (r, sampleWorld) ∧ r.Valid .pte ∧ r.pte = 0 ∧ ¬ r.HasValidEntries) ∧
    ∃ r, Prog.run (sysHandler testingSystem) (pteditResolve sampleKernelLib 0x1000 1)
      sampleWorld = some (r, sampleWorld) ∧ r.Valid .pte ∧ r.pte = 0 ∧ ¬ r.HasValidEntries := by
  have lost : ∀ r : PteditEntry, r.Valid .pte → r.pte = 0 →
      r.Valid .pte ∧ r.pte = 0 ∧ ¬ r.HasValidEntries :=
    fun r valid empty => ⟨valid, empty, fun entries => entries .pte valid empty⟩
  refine ⟨by decide, testingSystem_tests, ⟨_, run_pteditResolve (testingSystem_attached sampleLib
    rfl rfl) (.pread rfl rfl), lost _ ?_ ?_⟩, ⟨_, run_pteditResolveKernel (testingSystem_attached
      sampleKernelLib rfl rfl) _ _, lost _ ?_ ?_⟩⟩
  all_goals decide +kernel

end PTEditor
