import PTEditor.Foundation.Bits

/-!
# Fields of a word as lenses

A reader and a writer form a `View` of a word when they read and write its bits at the
positions `position 0` to `position (n - 1)`, which need not be next to each other.  The
low `n` bits of a value are written, provided that the writer accepts the value.  A view
is a lens, and views of different positions do not disturb each other.
-/

namespace Bits

variable {w v v' n n' : Nat}

/-- `get` reads and `set` writes `n` bits of a word, bit `j` at `position j`. -/
structure View (get : BitVec w → BitVec v) (set : BitVec w → BitVec v → BitVec w)
    (accepts : BitVec v → Prop) (position : Nat → Nat) (n : Nat) : Prop where
  reads : ∀ word j, (get word).getLsbD j = (decide (j < n) && word.getLsbD (position j))
  writes : ∀ word value, accepts value → ∀ j < n,
    (set word value).getLsbD (position j) = value.getLsbD j
  keeps : ∀ word value, accepts value → ∀ i < w, (∀ j < n, i ≠ position j) →
    (set word value).getLsbD i = word.getLsbD i
  accepts_get : ∀ word, accepts (get word)

/-- Words that agree inside and outside of some positions are equal. -/
theorem eq_of_positions {first second : BitVec w} (position : Nat → Nat) (n : Nat)
    (inside : ∀ j < n, first.getLsbD (position j) = second.getLsbD (position j))
    (outside : ∀ i < w, (∀ j < n, i ≠ position j) → first.getLsbD i = second.getLsbD i) :
    first = second := by
  apply BitVec.eq_of_getLsbD_eq
  intro i bound
  by_cases within : ∃ j, j < n ∧ i = position j
  · obtain ⟨j, below, rfl⟩ := within
    exact inside j below
  · exact outside i bound fun j below same => within ⟨j, below, same⟩

namespace View

variable {get : BitVec w → BitVec v} {set : BitVec w → BitVec v → BitVec w}
  {accepts : BitVec v → Prop} {position : Nat → Nat}
  {get' : BitVec w → BitVec v'} {set' : BitVec w → BitVec v' → BitVec w}
  {accepts' : BitVec v' → Prop} {position' : Nat → Nat}

/-- What is read after a write are the bits of the value that have a position. -/
theorem toNat_get_set (view : View get set accepts position n) (word : BitVec w)
    {value : BitVec v} (accepted : accepts value) :
    (get (set word value)).toNat = value.toNat % 2 ^ n := by
  apply Nat.eq_of_testBit_eq
  intro j
  have read := view.reads (set word value) j
  rw [BitVec.getLsbD] at read
  rw [read, Nat.testBit_mod_two_pow]
  by_cases below : j < n
  · rw [view.writes word value accepted j below]
    rfl
  · rw [decide_eq_false below, Bool.false_and, Bool.false_and]

theorem get_set (view : View get set accepts position n) (word : BitVec w) {value : BitVec v}
    (accepted : accepts value) (small : value.toNat < 2 ^ n) : get (set word value) = value := by
  apply BitVec.eq_of_toNat_eq
  rw [view.toNat_get_set word accepted, Nat.mod_eq_of_lt small]

theorem set_get (view : View get set accepts position n) (word : BitVec w) :
    set word (get word) = word := by
  have accepted := view.accepts_get word
  refine eq_of_positions position n (fun j below => ?_) (view.keeps word _ accepted)
  rw [view.writes word _ accepted j below, view.reads, decide_eq_true below, Bool.true_and]

theorem set_set (view : View get set accepts position n) (word : BitVec w)
    {first second : BitVec v} (accepted : accepts first) (accepted' : accepts second) :
    set (set word first) second = set word second := by
  refine eq_of_positions position n (fun j below => ?_) fun i bound outside => ?_
  · rw [view.writes _ _ accepted' j below, view.writes _ _ accepted' j below]
  · rw [view.keeps _ _ accepted' i bound outside, view.keeps _ _ accepted i bound outside,
      view.keeps _ _ accepted' i bound outside]

/-! ### Two views -/

/-- No bit has a position in both of two views. -/
def Disjoint (position : Nat → Nat) (n : Nat) (position' : Nat → Nat) (n' : Nat) : Prop :=
  ∀ j < n, ∀ j' < n', position j ≠ position' j'

theorem Disjoint.symm (disjoint : Disjoint position n position' n') :
    Disjoint position' n' position n :=
  fun j' below' j below same => disjoint j below j' below' same.symm

theorem get_set_of_disjoint (view : View get set accepts position n)
    (view' : View get' set' accepts' position' n') (disjoint : Disjoint position n position' n')
    (word : BitVec w) {value : BitVec v} (accepted : accepts value) :
    get' (set word value) = get' word := by
  apply BitVec.eq_of_getLsbD_eq
  intro j' _
  rw [view'.reads, view'.reads]
  by_cases below : j' < n'
  · by_cases bound : position' j' < w
    · rw [view.keeps word value accepted _ bound fun j inside => (disjoint j inside j' below).symm]
    · rw [BitVec.getLsbD_of_ge _ _ (by omega), BitVec.getLsbD_of_ge _ _ (by omega)]
  · rw [decide_eq_false below, Bool.false_and, Bool.false_and]

theorem set_comm (view : View get set accepts position n)
    (view' : View get' set' accepts' position' n') (disjoint : Disjoint position n position' n')
    (word : BitVec w) {value : BitVec v} {value' : BitVec v'} (accepted : accepts value)
    (accepted' : accepts' value') :
    set' (set word value) value' = set (set' word value') value := by
  refine eq_of_positions position n (fun j below => ?_) fun i bound outside => ?_
  · by_cases bound : position j < w
    · rw [view'.keeps _ _ accepted' _ bound (disjoint j below),
        view.writes _ _ accepted j below, view.writes _ _ accepted j below]
    · rw [BitVec.getLsbD_of_ge _ _ (by omega), BitVec.getLsbD_of_ge _ _ (by omega)]
  · rw [view.keeps _ _ accepted i bound outside]
    by_cases within : ∃ j', j' < n' ∧ i = position' j'
    · obtain ⟨j', below, rfl⟩ := within
      rw [view'.writes _ _ accepted' j' below, view'.writes _ _ accepted' j' below]
    · have outside' : ∀ j' < n', i ≠ position' j' := fun j' below same => within ⟨j', below, same⟩
      rw [view'.keeps _ _ accepted' i bound outside', view'.keeps _ _ accepted' i bound outside',
        view.keeps _ _ accepted i bound outside]

end View

end Bits
