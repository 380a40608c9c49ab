import PTEditor.Library.Shape

/-!
# Resolving after an update

As long as the values an update writes above the PTE keep the shape of the entries they
replace, the next walk reads the slots that the update has written: `resolveUser_afterUpdate`
says what it returns.
-/

namespace PTEditor

open ByteMem

namespace Walk

variable {w : Walk} {vm : PteditEntry}

/-- What an update of distinct slots leaves in a slot of the walk. -/
theorem read_stores_of_reached (root : Aligned w.root) (distinct : w.slots.Nodup) (m : ByteMem)
    {level : Level} (here : w.Exists level) (reached : w.Reached level) :
    (m.writeAll (w.stores vm)).read (w.slot level) =
      if vm.Valid level ∧ w.Valid level ∧ (level = .pte ∨ w.definition.has level ≠ 0) then
        vm.field level
      else
        m.read (w.slot level) := by
  by_cases selected : vm.Valid level ∧ w.Valid level ∧ (level = .pte ∨ w.definition.has level ≠ 0)
  · rw [if_pos selected]
    exact read_stores root distinct m selected.1 selected.2.1 selected.2.2
  · have aligned : ∀ store ∈ w.stores vm, Aligned store.1 := by
      intro store member
      obtain ⟨_, _, _, _, rfl⟩ := mem_stores.mp member
      exact aligned_slot root _
    rw [if_neg selected, read_writeAll m aligned (aligned_slot root level)]
    cases last : lastStore (w.stores vm) (w.slot level) with
    | none => rfl
    | some value =>
        obtain ⟨other, chosen, valid, stored, same⟩ := mem_stores.mp (lastStore_mem last)
        obtain rfl := slot_injective distinct ⟨here, reached⟩ ⟨valid.1, valid.2.1⟩
          (congrArg Prod.fst same)
        exact absurd ⟨chosen, valid, stored⟩ selected

/-- An update keeps the shape of a walk when each value it writes above the PTE has the
shape of the entry it replaces. -/
theorem sameShape_stores (root : Aligned w.root) (distinct : w.slots.Nodup) (m : ByteMem)
    (found : w.read = m.read)
    (keeps : ∀ level, level ≠ .pte → vm.Valid level → w.Valid level →
      w.definition.has level ≠ 0 → Alike w.arch (vm.field level) (w.entry level)) :
    w.SameShape (m.writeAll (w.stores vm)).read .pte := by
  intro level member here reached
  have ne := Level.ne_pte_of_mem_upper member
  rw [read_stores_of_reached root distinct m here reached, found]
  split
  next selected =>
    have alike := keeps level ne selected.1 selected.2.1 (selected.2.2.resolve_left ne)
    rwa [w.entry_of_exists here, found] at alike
  next => exact Alike.refl _

theorem recorded_iff_valid (definition : w.definition = .x86_64) {level : Level}
    (ne : level ≠ .p4d) : w.Recorded level ↔ w.Valid level :=
  (and_iff_right ((exists_x86 definition level).mpr ne)).symm

/-- What an update leaves in the slot of a valid level. -/
theorem read_stores_of_valid (definition : w.definition = .x86_64) (root : Aligned w.root)
    (distinct : w.slots.Nodup) {m : ByteMem} (found : w.read = m.read) {level : Level}
    (ne : level ≠ .p4d) (valid : w.Valid level) :
    (m.writeAll (w.stores vm)).read (w.slot level) =
      if vm.Valid level then vm.field level else w.read (w.slot level) := by
  have stored := stored_x86 definition ne
  rw [read_stores_of_reached root distinct m valid.1 valid.2.1, found]
  exact if_congr ⟨And.left, fun selected => ⟨selected, valid, stored⟩⟩ rfl rfl

/-- The folded P4D mirrors the PGD. -/
theorem p4d_resolved (definition : w.definition = .x86_64) (pid : Word) :
    (w.resolved pid).p4d = (w.resolved pid).pgd := by
  have folded : w.entry .p4d = w.entry .pgd :=
    w.entry_of_not_exists (fun here => (exists_x86 definition .p4d).mp here rfl) rfl
  have recorded : w.Recorded .p4d ↔ w.Recorded .pgd := w.recorded_p4d
  change (w.resolved pid).field .p4d = (w.resolved pid).field .pgd
  rw [field_resolved, field_resolved, folded]
  by_cases there : w.Recorded .pgd
  · rw [if_pos there, if_pos (recorded.mpr there)]
  · rw [if_neg there, if_neg (mt recorded.mp there)]

theorem p4d_resolved_withRead (definition : w.definition = .x86_64) (read : Word → Word)
    (pid : Word) :
    ((w.withRead read).resolved pid).p4d = ((w.withRead read).resolved pid).pgd :=
  @p4d_resolved (w.withRead read) definition pid

/-- The fields that the walk returns in a memory of the same shape, given what the memory
holds in the slots. -/
theorem field_resolved_ofShape (definition : w.definition = .x86_64) {read : Word → Word}
    (shape : w.SameShape read .pte) (pid : Word) {level : Level} (ne : level ≠ .p4d)
    (held : w.Valid level → read (w.slot level) =
      if vm.Valid level then vm.field level else w.read (w.slot level)) :
    ((w.withRead read).resolved pid).field level =
      if vm.Valid level ∧ w.Valid level then vm.field level
      else (w.resolved pid).field level := by
  have here := (exists_x86 definition level).mpr ne
  have recorded := recorded_iff_valid definition ne
  have recorded' := @recorded_iff_valid (w.withRead read) definition level ne
  rw [field_resolved, field_resolved]
  by_cases valid : w.Valid level
  · have slot := (shape.every level).slot_eq valid.2.1
    have entry : (w.withRead read).entry level = read (w.slot level) := by
      rw [(w.withRead read).entry_of_exists here, slot]
      rfl
    rw [if_pos (recorded'.mpr ((shape.valid_iff level).mpr valid)), if_pos (recorded.mpr valid),
      entry, w.entry_of_exists here, held valid]
    by_cases selected : vm.Valid level
    · rw [if_pos selected, if_pos ⟨selected, valid⟩]
    · rw [if_neg selected, if_neg (fun both => selected both.1)]
  · have invalid := mt (shape.valid_iff level).mp valid
    rw [if_neg (mt recorded'.mp invalid), if_neg (mt recorded.mp valid),
      if_neg (fun both => valid both.2)]

end Walk

/-- **Resolve after update.**  If the values written above the PTE keep the present bit,
the size bit and the frame number, the next resolve finds the same levels valid, the new
value at each level that was updated and the old value at every other level. -/
theorem resolveUser_afterUpdate
    {sys : System} {lib : Lib} {w : World} {address : Word} {pid : Pid}
    (attached : Attached sys lib w) (definition : lib.pagingDefinition = .x86_64)
    (pageAligned : (sys.userRoot lib w.kernel pid).toNat % 4096 = 0)
    (access : UserAccess sys lib (sys.userWalk lib w.kernel address pid).slots)
    (distinct : (sys.userWalk lib w.kernel address pid).slots.Nodup) (vm : PteditEntry)
    (keeps : ∀ level, level = .pgd ∨ level = .pud ∨ level = .pmd → vm.Valid level →
      ((sys.userWalk lib w.kernel address pid).resolved (sizeOfInt pid)).Valid level →
      Alike lib.arch (vm.field level)
        (((sys.userWalk lib w.kernel address pid).resolved (sizeOfInt pid)).field level)) :
    ∃ r r' w',
      Prog.run (sysHandler sys) (pteditResolve lib address pid) w = some (r, w) ∧
      Prog.run (sysHandler sys) (pteditUpdate lib address pid vm) w = some ((), w') ∧
      Prog.run (sysHandler sys) (pteditResolve lib address pid) w' = some (r', w') ∧
      r'.valid = r.valid ∧
      (∀ level, level ≠ .p4d → r'.field level =
        if vm.Valid level ∧ r.Valid level then vm.field level else r.field level) ∧
      r'.p4d = r'.pgd := by
  have fits : lib.pagingDefinition.Fits := definition ▸ PteditPagingDefinition.x86_64_fits
  have fourLevel : (sys.userWalk lib w.kernel address pid).definition = .x86_64 := definition
  have found : (sys.userWalk lib w.kernel address pid).read = w.kernel.mem.read := rfl
  have resolves := run_pteditResolve attached access
  have updates := run_pteditUpdate_stores attached fits access vm
  have aligned : Aligned (sys.userWalk lib w.kernel address pid).root := by
    change (sys.userRoot lib w.kernel pid).toNat % 8 = 0
    omega
  have shape : (sys.userWalk lib w.kernel address pid).SameShape
      (w.kernel.mem.writeAll ((sys.userWalk lib w.kernel address pid).stores vm)).read .pte := by
    refine Walk.sameShape_stores aligned distinct _ found fun level ne selected valid has => ?_
    have middle : level = .pgd ∨ level = .pud ∨ level = .pmd := by
      have notP4d := (Walk.exists_x86 fourLevel level).mp valid.1
      cases level <;> simp_all
    have alike := keeps level middle selected ((Walk.valid_resolved _ _ _).mpr valid)
    rw [Walk.field_resolved, if_pos valid.2] at alike
    exact alike
  have again : UserAccess sys lib (sys.userWalk lib (w.withMem (w.kernel.mem.writeAll
      ((sys.userWalk lib w.kernel address pid).stores vm))).kernel address pid).slots := by
    rw [System.userWalk_withMem]
    refine access.mono fun a member => ?_
    exact shape.mem_slots_iff.mp member
  have resolvesAgain := run_pteditResolve (attached.withMem _) again
  rw [System.userWalk_withMem] at resolvesAgain
  refine ⟨_, _, _, resolves, updates, resolvesAgain, ?_, fun level ne => ?_, ?_⟩
  · exact Level.maskOf_congr shape.valid_iff
  · have field := @Walk.field_resolved_ofShape _ vm fourLevel _ shape (sizeOfInt pid) level ne
      fun valid => Walk.read_stores_of_valid fourLevel aligned distinct found ne valid
    simp only [Walk.valid_resolved]
    exact field
  · exact Walk.p4d_resolved_withRead fourLevel _ _

/-- The PMD entry of address 0 of the sample machine with its accessed bit set, and the
PTE pointed to frame 6. -/
def sampleFlags : PteditEntry :=
  { PteditEntry.cleared 0 0 with
    pmd := 0x4023, pte := 0x6003, valid := Level.pmd.validMask ||| Level.pte.validMask }

theorem resolveUser_afterUpdate_sample :
    ∃ r' w', Prog.run (sysHandler sampleSystem) (pteditUpdate sampleLib 0 0 sampleFlags)
        sampleWorld = some ((), w') ∧
      Prog.run (sysHandler sampleSystem) (pteditResolve sampleLib 0 0) w' = some (r', w') ∧
      r'.p4d = r'.pgd := by
  have root : (sampleSystem.userRoot sampleLib sampleWorld.kernel 0).toNat % 4096 = 0 := by decide
  have distinct : (sampleSystem.userWalk sampleLib sampleWorld.kernel 0 0).slots.Nodup := by
    decide +kernel
  obtain ⟨_, r', w', -, updates, resolves, -, -, folded⟩ := resolveUser_afterUpdate sample_attached
    rfl root (sample_access _) distinct sampleFlags fun level middle selected _ => by
      rcases middle with rfl | rfl | rfl
      · exact absurd selected (by decide)
      · exact absurd selected (by decide)
      · exact ⟨by decide +kernel, by decide +kernel, by decide +kernel⟩
  exact ⟨r', w', updates, resolves, folded⟩

end PTEditor
