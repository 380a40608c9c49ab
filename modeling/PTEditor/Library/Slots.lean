import Mathlib.Data.List.Nodup
import PTEditor.Library.UserSpec

/-!
# The updater stores where the walker read

`ptedit_update_user_ext` recomputes the slot of every level from the entries that
the resolver returned.  `userStores_eq` says that it arrives at the slots the
walker read (`Walk.slot`); the rest of the module is what follows for the memory
after the stores.
-/

namespace PTEditor

open ByteMem

namespace Walk

variable {w : Walk}

/-- The store that an update makes for one level, at the slot the walker read. -/
def levelStore (w : Walk) (vm : PteditEntry) (level : Level) : List (Word × Word) :=
  if vm.Valid level ∧ w.Valid level ∧ (level = .pte ∨ w.definition.has level ≠ 0) then
    [(w.slot level, vm.field level)]
  else
    []

/-- The stores that an update makes, at the slots the walker read. -/
def stores (w : Walk) (vm : PteditEntry) : List (Word × Word) :=
  updateOrder.flatMap (w.levelStore vm)

theorem mem_upper_pte {level : Level} (ne : level ≠ .pte) : level ∈ Level.pte.upper := by
  cases level with
  | pte => exact absurd rfl ne
  | _ => decide

/-- A walk that finds a PTE comes to every level. -/
theorem Valid.reached {w : Walk} (valid : w.Valid .pte) (level : Level) : w.Reached level := by
  rcases eq_or_ne level .pte with rfl | ne
  · exact valid.2.1
  · exact valid.2.1.upper (mem_upper_pte ne)

/-- The entry above a valid level stands in the resolved structure. -/
theorem Valid.field_above {level up : Level} (valid : w.Valid level)
    (above : level.above = some up) (pid : Word) : (w.resolved pid).field up = w.entry up := by
  rw [field_resolved, if_pos (valid.2.1.recorded (Level.above_mem_upper above))]

/-- The updater's copy of the index arithmetic finds the slot the walker read. -/
theorem Valid.updateSlot_eq (fits : w.definition.Fits) {level : Level} (valid : w.Valid level)
    (pid : Word) :
    updateSlot w.arch w.definition w.root w.addr (w.resolved pid) level = w.slot level := by
  unfold updateSlot slot
  rw [PteditPagingDefinition.intIndex_eq fits]
  cases above : level.above with
  | none => rfl
  | some up => exact congrArg (tableSlot w.arch · _) (valid.field_above above pid)

theorem levelUpdate_eq (fits : w.definition.Fits) (vm : PteditEntry) (pid : Word)
    (level : Level) : levelUpdate w vm (w.resolved pid) level = w.levelStore vm level := by
  unfold levelUpdate levelStore Selected
  simp only [valid_resolved]
  split
  next selected => rw [selected.2.1.updateSlot_eq fits]
  next => rfl

theorem userStores_eq (fits : w.definition.Fits) (vm : PteditEntry) (pid : Word) :
    userStores w vm (w.resolved pid) = w.stores vm := by
  unfold userStores stores
  rw [funext (levelUpdate_eq fits vm pid)]

theorem mem_stores {vm : PteditEntry} {store : Word × Word} :
    store ∈ w.stores vm ↔ ∃ level, vm.Valid level ∧ w.Valid level ∧
      (level = .pte ∨ w.definition.has level ≠ 0) ∧ store = (w.slot level, vm.field level) := by
  have ordered : ∀ level : Level, level ∈ updateOrder := by
    intro level
    cases level <;> decide
  simp only [stores, List.mem_flatMap, levelStore]
  constructor
  · rintro ⟨level, _, member⟩
    split at member
    next selected =>
      exact ⟨level, selected.1, selected.2.1, selected.2.2, List.mem_singleton.mp member⟩
    next => cases member
  · rintro ⟨level, selected, valid, here, rfl⟩
    refine ⟨level, ordered level, ?_⟩
    rw [if_pos ⟨selected, valid, here⟩]
    exact List.mem_singleton_self _

/-- An entry structure that selects one level makes at most the store of that level. -/
theorem stores_of_only {vm : PteditEntry} {level : Level}
    (only : ∀ other, vm.Valid other ↔ other = level) : w.stores vm = w.levelStore vm level := by
  have other : ∀ other, other ≠ level → w.levelStore vm other = [] :=
    fun other ne => if_neg fun selected => ne ((only other).mp selected.1)
  unfold stores updateOrder
  cases level <;> simp [other]

/-- Every store goes to a slot that the walker read. -/
theorem slot_mem_of_stores {vm : PteditEntry} {store : Word × Word}
    (member : store ∈ w.stores vm) : store.1 ∈ w.slots := by
  obtain ⟨level, _, valid, _, rfl⟩ := mem_stores.mp member
  exact w.mem_slots.mpr ⟨level, valid.1, valid.2.1, rfl⟩

/-! ### The same walk in another memory -/

/-- The walk of the same address below the same root in another memory. -/
def withRead (w : Walk) (read : Word → Word) : Walk := { w with read }

/-- A memory holds the same tables above the PTE. -/
def SameTables (w : Walk) (read : Word → Word) : Prop :=
  ∀ level, level ≠ .pte → w.Exists level → read (w.slot level) = w.read (w.slot level)

section Tables

variable {read : Word → Word}

theorem exists_withRead {level : Level} : (w.withRead read).Exists level ↔ w.Exists level :=
  Iff.rfl

theorem slot_withRead_of_entry {level : Level}
    (same : ∀ up, level.above = some up → (w.withRead read).entry up = w.entry up) :
    (w.withRead read).slot level = w.slot level := by
  unfold slot
  cases above : level.above with
  | none => rfl
  | some up => exact congrArg (tableSlot w.arch · _) (same up above)

theorem entry_withRead_of_above (tables : w.SameTables read) {level : Level} (ne : level ≠ .pte)
    (same : ∀ up, level.above = some up → (w.withRead read).entry up = w.entry up) :
    (w.withRead read).entry level = w.entry level := by
  by_cases here : w.Exists level
  · have slot := slot_withRead_of_entry same
    rw [(w.withRead read).entry_of_exists here, w.entry_of_exists here, slot]
    exact tables level ne here
  · cases above : level.above with
    | none =>
        have root : level = .pgd := by cases level <;> cases above; rfl
        exact absurd (.inl root) here
    | some up =>
        rw [(w.withRead read).entry_of_not_exists here above, w.entry_of_not_exists here above]
        exact same up above

theorem entry_withRead (tables : w.SameTables read) {level : Level} (ne : level ≠ .pte) :
    (w.withRead read).entry level = w.entry level := by
  have pgd : (w.withRead read).entry .pgd = w.entry .pgd :=
    entry_withRead_of_above tables nofun nofun
  have p4d : (w.withRead read).entry .p4d = w.entry .p4d :=
    entry_withRead_of_above tables nofun fun up above => by cases above; exact pgd
  have pud : (w.withRead read).entry .pud = w.entry .pud :=
    entry_withRead_of_above tables nofun fun up above => by cases above; exact p4d
  have pmd : (w.withRead read).entry .pmd = w.entry .pmd :=
    entry_withRead_of_above tables nofun fun up above => by cases above; exact pud
  cases level with
  | pgd => exact pgd
  | p4d => exact p4d
  | pud => exact pud
  | pmd => exact pmd
  | pte => exact absurd rfl ne

/-- A level is never its own table. -/
theorem above_ne_pte {level up : Level} (above : level.above = some up) : up ≠ .pte := by
  rintro rfl
  cases level <;> cases above

theorem slot_withRead (tables : w.SameTables read) (level : Level) :
    (w.withRead read).slot level = w.slot level :=
  slot_withRead_of_entry fun _ above => entry_withRead tables (above_ne_pte above)

/-- The walk comes to the PTE in both memories or in neither. -/
theorem valid_pte_withRead (tables : w.SameTables read) :
    (w.withRead read).Valid .pte ↔ w.Valid .pte := by
  have upper : ∀ up ∈ Level.pte.upper, (w.withRead read).entry up = w.entry up := by
    intro up member
    refine entry_withRead tables ?_
    rintro rfl
    simp [Level.upper] at member
  have pmd : (w.withRead read).pmdEntry = w.pmdEntry := upper .pmd (by decide)
  have present : (∀ up ∈ Level.pte.upper, Present w.arch ((w.withRead read).entry up)) ↔
      ∀ up ∈ Level.pte.upper, Present w.arch (w.entry up) :=
    forall₂_congr fun up member => by rw [upper up member]
  unfold Valid Recorded Reached
  rw [pmd]
  exact and_congr_right fun _ => and_congr
    (and_congr_right fun _ => and_congr_left fun _ => present)
    (iff_of_true (fun same => absurd same (by decide)) fun same => absurd same (by decide))

end Tables

theorem aligned_tableSlot (arch : Arch) (above index : Word) :
    Aligned (tableSlot arch above index) := by
  have frame : PteditPgd.pfn arch above * pteditPfnMultiply =
      PteditPgd.pfn arch above * 512#64 * 8#64 := by
    rw [BitVec.mul_assoc]
    rfl
  rw [tableSlot, frame]
  exact (Aligned.mul_eight _).add (Aligned.mul_eight _)

theorem aligned_slot (root : Aligned w.root) (level : Level) : Aligned (w.slot level) := by
  unfold slot
  cases level.above with
  | none => exact root.add (Aligned.mul_eight _)
  | some up => exact aligned_tableSlot w.arch _ _

/-- When the slots of the walk are pairwise distinct, a slot belongs to one level. -/
theorem slot_injective (distinct : w.slots.Nodup) {level level' : Level}
    (here : w.Exists level ∧ w.Reached level) (here' : w.Exists level' ∧ w.Reached level')
    (same : w.slot level = w.slot level') : level = level' := by
  apply List.inj_on_of_nodup_map distinct _ _ same
  · exact List.mem_filter.mpr ⟨level.mem_all, decide_eq_true here⟩
  · exact List.mem_filter.mpr ⟨level'.mem_all, decide_eq_true here'⟩

/-- After an update of distinct slots, a selected level's slot holds the new value. -/
theorem read_stores (root : Aligned w.root) (distinct : w.slots.Nodup) {vm : PteditEntry}
    (m : ByteMem) {level : Level} (selected : vm.Valid level) (valid : w.Valid level)
    (here : level = .pte ∨ w.definition.has level ≠ 0) :
    (m.writeAll (w.stores vm)).read (w.slot level) = vm.field level := by
  have aligned : ∀ store ∈ w.stores vm, Aligned store.1 := by
    intro store member
    obtain ⟨_, _, _, _, rfl⟩ := mem_stores.mp member
    exact aligned_slot root _
  have member := mem_stores.mpr ⟨level, selected, valid, here, rfl⟩
  rw [read_writeAll m aligned (aligned_slot root level)]
  cases last : lastStore (w.stores vm) (w.slot level) with
  | none => exact absurd rfl (lastStore_eq_none_iff.mp last _ member)
  | some value =>
      obtain ⟨level', _, valid', _, same⟩ := mem_stores.mp (lastStore_mem last)
      have one := slot_injective distinct ⟨valid.1, valid.2.1⟩ ⟨valid'.1, valid'.2.1⟩
        (congrArg Prod.fst same)
      rw [Option.getD_some, one]
      exact congrArg Prod.snd same

end Walk

/-- `ptedit_update` under a user-space implementation that reaches the slots of the
walk makes the stores of the selected levels and no others. -/
theorem run_pteditUpdate_stores {sys : System} {lib : Lib} {w : World} {address : Word} {pid : Pid}
    (attached : Attached sys lib w) (fits : lib.pagingDefinition.Fits)
    (access : UserAccess sys lib (sys.userWalk lib w.kernel address pid).slots)
    (vm : PteditEntry) :
    Prog.run (sysHandler sys) (pteditUpdate lib address pid vm) w =
      some ((), w.withMem (w.kernel.mem.writeAll
        ((sys.userWalk lib w.kernel address pid).stores vm))) := by
  have stores : userStores (sys.userWalk lib w.kernel address pid) vm
      ((sys.userWalk lib w.kernel address pid).resolved (sizeOfInt pid)) =
        (sys.userWalk lib w.kernel address pid).stores vm :=
    Walk.userStores_eq fits vm _
  rw [← stores]
  refine run_pteditUpdate attached (access.mono fun a touched => ?_)
  rw [stores] at touched
  rcases List.mem_append.mp touched with read | stored
  · exact read
  · obtain ⟨store, member, rfl⟩ := List.mem_map.mp stored
    exact Walk.slot_mem_of_stores member

end PTEditor
