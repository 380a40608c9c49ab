import PTEditor.Library.Slots

/-!
# An update writes the selected entries and nothing else

`ptedit_update` under a user-space implementation walks the tables once more and
stores the selected levels.  `updateUser_frame` compares the memory before and
after: each selected level holds the new value in the very slot from which the walk
had read its entry, and no other byte has changed.

The paging definition decides which levels are selected, with one exception: the
updater stores the PTE without looking at `has_pt`, as `updateUser_ignores_hasPt`
shows on a definition that has none.
-/

namespace PTEditor

open ByteMem

/-- **Update, frame and agreement with the walker.** -/
theorem updateUser_frame
    {sys : System} {lib : Lib} {w : World} {address : Word} {pid : Pid}
    (attached : Attached sys lib w) (fits : lib.pagingDefinition.Fits)
    (pageAligned : (sys.userRoot lib w.kernel pid).toNat % 4096 = 0)
    (access : UserAccess sys lib (sys.userWalk lib w.kernel address pid).slots)
    (distinct : (sys.userWalk lib w.kernel address pid).slots.Nodup) (vm : PteditEntry) :
    let walk := sys.userWalk lib w.kernel address pid
    let current := walk.resolved (sizeOfInt pid)
    ∃ mem,
      Prog.run (sysHandler sys) (pteditResolve lib address pid) w = some (current, w) ∧
      Prog.run (sysHandler sys) (pteditUpdate lib address pid vm) w =
        some ((), w.withMem mem) ∧
      (∀ level, current.Valid level →
        walk.slot level ∈ (pteditWalk lib.arch lib.pagingDefinition address
          (sys.userRoot lib w.kernel pid) pid).queries w.kernel.mem.read ∧
        current.field level = w.kernel.mem.read (walk.slot level)) ∧
      (∀ level, Selected lib.pagingDefinition vm current level →
        mem.read (walk.slot level) = vm.field level) ∧
      (∀ b, (∀ level, Selected lib.pagingDefinition vm current level →
          ¬ InWord (walk.slot level) b) → mem b = w.kernel.mem b) ∧
      (vm.valid = 0 ∨ (∀ level, ¬ current.Valid level) ∨ sys.userRoot lib w.kernel pid = 0 →
        mem = w.kernel.mem) := by
  intro walk current
  have aligned : Aligned walk.root := by
    change (sys.userRoot lib w.kernel pid).toNat % 8 = 0
    omega
  have unchanged : (∀ level, ¬ (vm.Valid level ∧ walk.Valid level)) →
      w.kernel.mem.writeAll (walk.stores vm) = w.kernel.mem := by
    intro none
    have empty : walk.stores vm = [] := by
      refine List.eq_nil_iff_forall_not_mem.mpr fun store member => ?_
      obtain ⟨level, selected, valid, _⟩ := Walk.mem_stores.mp member
      exact none level ⟨selected, valid⟩
    rw [empty, writeAll_nil]
  refine ⟨w.kernel.mem.writeAll (walk.stores vm),
    run_pteditResolve attached access, run_pteditUpdate_stores attached fits access vm,
    ?_, ?_, ?_, ?_⟩
  · intro level valid
    have found := (walk.valid_resolved _ level).mp valid
    refine ⟨?_, ?_⟩
    · have asked : (pteditWalk lib.arch lib.pagingDefinition address
          (sys.userRoot lib w.kernel pid) pid).queries w.kernel.mem.read = walk.slots :=
        walk.queries_pteditWalk pid
      rw [asked]
      exact walk.mem_slots.mpr ⟨level, found.1, found.2.1, rfl⟩
    · rw [walk.field_resolved, if_pos found.2]
      exact walk.entry_of_exists found.1
  · rintro level ⟨selected, valid, here⟩
    exact Walk.read_stores aligned distinct _ selected ((walk.valid_resolved _ level).mp valid) here
  · intro b outside
    refine writeAll_of_not_inWord _ fun store member => ?_
    obtain ⟨level, selected, valid, here, rfl⟩ := Walk.mem_stores.mp member
    exact outside level ⟨selected, (walk.valid_resolved _ level).mpr valid, here⟩
  · rintro (nothing | invalid | noRoot)
    · exact unchanged fun level both => PteditEntry.not_valid_of_zero nothing level both.1
    · exact unchanged fun level both => invalid level ((walk.valid_resolved _ level).mpr both.2)
    · exact unchanged fun level both => Walk.not_valid_of_noRoot noRoot level both.2

/-- The PTE of address 0 of the sample machine, pointed to frame 6. -/
def sampleUpdate : PteditEntry :=
  { PteditEntry.cleared 0 0 with pte := 0x6003, valid := Level.pte.validMask }

theorem updateUser_frame_sample :
    ∃ mem, Prog.run (sysHandler sampleSystem) (pteditUpdate sampleLib 0 0 sampleUpdate)
        sampleWorld = some ((), sampleWorld.withMem mem) ∧
      mem.read 0x4000 = 0x6003 := by
  have root : (sampleSystem.userRoot sampleLib sampleWorld.kernel 0).toNat % 4096 = 0 := by decide
  have distinct : (sampleSystem.userWalk sampleLib sampleWorld.kernel 0 0).slots.Nodup := by
    decide +kernel
  obtain ⟨mem, _, update, _, stored, _⟩ := updateUser_frame sample_attached
    PteditPagingDefinition.x86_64_fits root (sample_access _) distinct sampleUpdate
  have slot : (sampleSystem.userWalk sampleLib sampleWorld.kernel 0 0).slot .pte = 0x4000 := by
    decide +kernel
  refine ⟨mem, update, ?_⟩
  rw [← slot]
  exact stored .pte (by decide +kernel)

/-- A definition without page tables: the PTE level is folded. -/
def foldedPt : PteditPagingDefinition :=
  { PteditPagingDefinition.x86_64 with hasPt := 0, ptEntries := 0 }

/-- The updater stores the PTE even when the definition has no such level. -/
theorem updateUser_ignores_hasPt :
    let lib := { sampleLib with pagingDefinition := foldedPt }
    let walk := sampleSystem.userWalk lib sampleWorld.kernel 0 0
    lib.arch = .x86_64 ∧ foldedPt.Fits ∧
    (∀ level, foldedPt.has level = 0 → foldedPt.width level = 0) ∧
    (sampleSystem.userRoot lib sampleWorld.kernel 0).toNat % 4096 = 0 ∧
    UserAccess sampleSystem lib walk.slots ∧ walk.slots.Nodup ∧
    (∀ level, sampleUpdate.Valid level → foldedPt.has level = 0) ∧
    ∃ mem, Prog.run (sysHandler sampleSystem) (pteditUpdate lib 0 0 sampleUpdate) sampleWorld =
        some ((), sampleWorld.withMem mem) ∧
      mem.read 0x4000 ≠ sampleWorld.kernel.mem.read 0x4000 := by
  intro lib walk
  have attached : Attached sampleSystem lib sampleWorld := ⟨rfl, rfl, sampleKernel_loaded⟩
  have access : ∀ touched, UserAccess sampleSystem lib touched := fun _ => .pread rfl rfl
  refine ⟨rfl, ⟨by decide, fun level => by cases level <;> decide⟩,
    fun level => by cases level <;> decide, by decide, access _, by decide +kernel,
    fun level => by cases level <;> decide, _, run_pteditUpdate attached (access _), ?_⟩
  decide +kernel

end PTEditor
