import PTEditor.Library.Slots

/-!
# Walks through entries of the same shape

A walk looks at three things in an entry it goes through: the present bits, the size bit
and the frame number.  Where these are kept, the same walk in another memory reads the
same slots (`Walk.SameShape`).
-/

namespace PTEditor

/-- An induction from the root of the tables down. -/
theorem Level.downward {P : Level → Prop}
    (step : ∀ level, (∀ up ∈ Level.upper level, P up) → P level) (level : Level) : P level := by
  have below : ∀ n, ∀ level : Level, level.rank < n → P level := by
    intro n
    induction n with
    | zero => exact fun level less => absurd less (Nat.not_lt_zero _)
    | succ n ih =>
        intro level less
        refine step level fun up member => ih up ?_
        have above := Level.mem_upper.mp member
        omega
  exact below (level.rank + 1) level (Nat.lt_succ_self _)

theorem Level.ne_pte_of_mem_upper {level up : Level} (member : up ∈ level.upper) : up ≠ .pte := by
  have above := Level.mem_upper.mp member
  rintro rfl
  cases level <;> simp [Level.rank] at above

/-- Two entries that a walk goes through alike. -/
structure Alike (arch : Arch) (first second : Word) : Prop where
  present : PteditPgd.present arch first = PteditPgd.present arch second
  size : PteditPgd.size first = PteditPgd.size second
  pfn : PteditPgd.pfn arch first = PteditPgd.pfn arch second

namespace Alike

variable {arch : Arch} {first second : Word}

theorem refl (entry : Word) : Alike arch entry entry := ⟨rfl, rfl, rfl⟩

theorem present_iff (alike : Alike arch first second) :
    Present arch first ↔ Present arch second := by
  unfold Present
  rw [alike.present]

theorem large_iff (alike : Alike arch first second) : Large arch first ↔ Large arch second := by
  unfold Large
  rw [alike.size]

theorem tableSlot_eq (alike : Alike arch first second) (index : Word) :
    tableSlot arch first index = tableSlot arch second index := by
  unfold tableSlot
  rw [alike.pfn]

end Alike

namespace Walk

variable {w : Walk} {read : Word → Word}

/-- Another memory keeps the shape of every entry above a level that the walk reads. -/
def SameShape (w : Walk) (read : Word → Word) (level : Level) : Prop :=
  ∀ up ∈ level.upper, w.Exists up → w.Reached up →
    Alike w.arch (read (w.slot up)) (w.read (w.slot up))

theorem SameShape.mono {level up : Level} (shape : w.SameShape read level)
    (member : up ∈ level.upper) : w.SameShape read up := by
  intro higher above
  refine shape higher ?_
  rw [Level.mem_upper] at above member ⊢
  omega

/-- Where the walk comes to, it reads the same slot. -/
theorem slot_withRead_of_parent {level : Level}
    (parent : ∀ up, level.above = some up →
      Alike w.arch ((w.withRead read).entry up) (w.entry up)) :
    (w.withRead read).slot level = w.slot level := by
  unfold Walk.slot
  cases above : level.above with
  | none => rfl
  | some up => exact (parent up above).tableSlot_eq _

/-- Above the level the walk finds entries of the same shape. -/
theorem SameShape.alike {level : Level} (shape : w.SameShape read level) (up : Level)
    (member : up ∈ level.upper) (reached : w.Reached up) :
    Alike w.arch ((w.withRead read).entry up) (w.entry up) := by
  induction up using Level.downward with
  | step up ih =>
      have parent : ∀ higher, up.above = some higher →
          Alike w.arch ((w.withRead read).entry higher) (w.entry higher) := by
        intro higher above
        have higherUp := Level.above_mem_upper above
        refine ih higher higherUp ?_ (reached.upper higherUp)
        rw [Level.mem_upper] at higherUp member ⊢
        omega
      by_cases here : w.Exists up
      · rw [(w.withRead read).entry_of_exists here, w.entry_of_exists here,
          slot_withRead_of_parent parent]
        exact shape up member here reached
      · cases above : up.above with
        | none =>
            have root : up = .pgd := by cases up <;> cases above; rfl
            exact absurd (.inl root) here
        | some higher =>
            rw [(w.withRead read).entry_of_not_exists here above, w.entry_of_not_exists here above]
            exact parent higher above

theorem SameShape.slot_eq {level : Level} (shape : w.SameShape read level)
    (reached : w.Reached level) : (w.withRead read).slot level = w.slot level := by
  refine slot_withRead_of_parent fun up above => ?_
  have member := Level.above_mem_upper above
  exact shape.alike up member (reached.upper member)

/-- The walk comes to the level in both memories or in neither. -/
theorem SameShape.reached_iff {level : Level} (shape : w.SameShape read level) :
    (w.withRead read).Reached level ↔ w.Reached level := by
  induction level using Level.downward with
  | step level ih =>
      constructor
      · intro reached
        have upper : ∀ up ∈ level.upper, w.Reached up :=
          fun up member => (ih up member (shape.mono member)).mp (reached.upper member)
        refine ⟨reached.1, fun up member => ?_, ?_⟩
        · have alike := shape.alike up member (upper up member)
          exact alike.present_iff.mp (reached.2.1 up member)
        · rintro rfl
          have alike := shape.alike .pmd (by decide) (upper .pmd (by decide))
          exact mt alike.large_iff.mpr (reached.2.2 rfl)
      · intro reached
        refine ⟨reached.1, fun up member => ?_, ?_⟩
        · have alike := shape.alike up member (reached.upper member)
          exact alike.present_iff.mpr (reached.2.1 up member)
        · rintro rfl
          have alike := shape.alike .pmd (by decide) (reached.upper (by decide))
          exact mt alike.large_iff.mp (reached.2.2 rfl)

/-! ### The whole walk -/

/-- A memory that keeps the shape of every entry above the PTE keeps the shape above every
level. -/
theorem SameShape.every (shape : w.SameShape read .pte) (level : Level) :
    w.SameShape read level := by
  rcases eq_or_ne level .pte with rfl | ne
  · exact shape
  · exact shape.mono (mem_upper_pte ne)

/-- The same levels are valid. -/
theorem SameShape.valid_iff (shape : w.SameShape read .pte) (level : Level) :
    (w.withRead read).Valid level ↔ w.Valid level := by
  have reached := (shape.every level).reached_iff
  have pgd : w.Reached level → level = .pgd →
      (Present w.arch ((w.withRead read).entry .pgd) ↔ Present w.arch (w.entry .pgd)) := by
    rintro there rfl
    exact (shape.alike .pgd (by decide) there).present_iff
  refine and_congr exists_withRead ⟨fun ⟨there, present⟩ => ?_, fun ⟨there, present⟩ => ?_⟩
  · exact ⟨reached.mp there, fun same => (pgd (reached.mp there) same).mp (present same)⟩
  · exact ⟨reached.mpr there, fun same => (pgd there same).mpr (present same)⟩

/-- The same slots are read. -/
theorem SameShape.mem_slots_iff (shape : w.SameShape read .pte) {a : Word} :
    a ∈ (w.withRead read).slots ↔ a ∈ w.slots := by
  rw [(w.withRead read).mem_slots, w.mem_slots]
  constructor
  · rintro ⟨level, here, reached, slot⟩
    have there := (shape.every level).reached_iff.mp reached
    exact ⟨level, here, there, ((shape.every level).slot_eq there).symm.trans slot⟩
  · rintro ⟨level, here, there, slot⟩
    have reached := (shape.every level).reached_iff.mpr there
    exact ⟨level, here, reached, ((shape.every level).slot_eq there).trans slot⟩

/-! ### The four-level walk -/

/-- The levels of the four-level walk of x86_64. -/
theorem exists_x86 (definition : w.definition = .x86_64) (level : Level) :
    w.Exists level ↔ level ≠ .p4d := by
  unfold Exists
  rw [definition]
  cases level <;> decide

/-- The levels that an update of the four-level walk stores. -/
theorem stored_x86 (definition : w.definition = .x86_64) {level : Level} (ne : level ≠ .p4d) :
    level = .pte ∨ w.definition.has level ≠ 0 := by
  rw [definition]
  cases level with
  | p4d => exact absurd rfl ne
  | _ => decide

end Walk

/-- Another memory changes what a walk reads, not where it starts. -/
theorem System.userWalk_withMem (sys : System) (lib : Lib) (w : World) (mem : ByteMem)
    (address : Word) (pid : Pid) :
    sys.userWalk lib (w.withMem mem).kernel address pid =
      (sys.userWalk lib w.kernel address pid).withRead mem.read := rfl

end PTEditor
