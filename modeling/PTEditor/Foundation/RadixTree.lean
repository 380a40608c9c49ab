import Mathlib.Data.List.Basic
import Mathlib.Data.Nat.Count
import Mathlib.Tactic.Ring
import PTEditor.Foundation.RadixWalk

/-!
# The leaves of a radix tree

A `RadixTree` is a multi-level table over the natural numbers: an entry of a level
stands for `span` keys, and a table of the level has `fanout` entries.  `find` descends
to the leaf of one key, `leaves` lists the leaves of all keys in order.

* `mem_leaves_iff`: the list has a leaf for exactly the keys that are found;
* `pairwise_leaves`: its leaves are in the order of their keys and do not overlap;
* `sum_span_leaves`: their spans add up to the number of keys that are found.

`find_eq_getLast` says that `find` ends where `Radix.walk` ends.
-/

/-- A radix tree: where the entries of a table lie, which table an entry names, and
which entries are leaves. -/
structure RadixTree (Lvl Table Slot Entry : Type) where
  fanout : Lvl → Nat
  span : Lvl → Nat
  slot : Lvl → Table → Nat → Slot
  next : Lvl → Entry → Option Table
  leaf : Lvl → Entry → Bool

namespace RadixTree

/-- A leaf and its first key. -/
structure Leaf (Lvl Entry : Type) where
  level : Lvl
  base : Nat
  entry : Entry
  deriving DecidableEq, Repr

variable {Lvl Table Slot Entry : Type} (T : RadixTree Lvl Table Slot Entry)
  (read : Slot → Entry)

/-- The index of a key in a table of a level. -/
def index (level : Lvl) (key : Nat) : Nat := key / T.span level % T.fanout level

/-- The leaf that a key lies in. -/
def find : List Lvl → Table → Nat → Option (Lvl × Entry)
  | [], _, _ => none
  | level :: levels, table, key =>
      let entry := read (T.slot level table (T.index level key))
      match T.next level entry with
      | some below => find levels below key
      | none => if T.leaf level entry then some (level, entry) else none

/-- The leaves below one entry, which stands for the keys from `base` on. -/
def below (level : Lvl) (entry : Entry) (base : Nat)
    (rest : Table → Nat → List (Leaf Lvl Entry)) : List (Leaf Lvl Entry) :=
  match T.next level entry with
  | some table => rest table base
  | none => if T.leaf level entry then [⟨level, base, entry⟩] else []

/-- The leaves below a table, which stands for the keys from `base` on. -/
def leaves : List Lvl → Table → Nat → List (Leaf Lvl Entry)
  | [], _, _ => []
  | level :: levels, table, base =>
      (List.range (T.fanout level)).flatMap fun i =>
        T.below level (read (T.slot level table i)) (base + i * T.span level) (leaves levels)

/-- The tables of the levels stand for `size` keys, and each entry for as many as a table
of the next level. -/
def Tiles : List Lvl → Nat → Prop
  | [], _ => True
  | level :: levels, size =>
      0 < T.span level ∧ T.fanout level * T.span level = size ∧ Tiles levels (T.span level)

/-- A leaf covers a key. -/
def Covers (leaf : Leaf Lvl Entry) (key : Nat) : Prop :=
  leaf.base ≤ key ∧ key < leaf.base + T.span leaf.level

variable {T read}

theorem leaves_cons (level : Lvl) (levels : List Lvl) (table : Table) (base : Nat) :
    T.leaves read (level :: levels) table base =
      (List.range (T.fanout level)).flatMap fun i =>
        T.below level (read (T.slot level table i)) (base + i * T.span level)
          (T.leaves read levels) := rfl

theorem find_cons (level : Lvl) (levels : List Lvl) (table : Table) (key : Nat) :
    T.find read (level :: levels) table key =
      match T.next level (read (T.slot level table (T.index level key))) with
      | some below => T.find read levels below key
      | none =>
          if T.leaf level (read (T.slot level table (T.index level key))) then
            some (level, read (T.slot level table (T.index level key)))
          else none := rfl

/-! ## Where the leaves lie -/

/-- The leaves below an entry lie among its keys. -/
theorem within_below {level : Lvl} {entry : Entry} {base : Nat}
    {rest : Table → Nat → List (Leaf Lvl Entry)}
    (inside : ∀ table base, ∀ leaf ∈ rest table base,
      base ≤ leaf.base ∧ leaf.base + T.span leaf.level ≤ base + T.span level)
    {leaf : Leaf Lvl Entry} (member : leaf ∈ T.below level entry base rest) :
    base ≤ leaf.base ∧ leaf.base + T.span leaf.level ≤ base + T.span level := by
  unfold below at member
  split at member
  next table _ => exact inside table base leaf member
  next =>
    split at member
    · obtain rfl := List.mem_singleton.mp member
      exact ⟨Nat.le_refl _, Nat.le_refl _⟩
    · cases member

/-- An entry ends before the table does. -/
theorem block_le {fanout span size i : Nat} (tiles : fanout * span = size) (inside : i < fanout)
    (base : Nat) : base + i * span + span ≤ base + size := by
  have upto : (i + 1) * span ≤ fanout * span := Nat.mul_le_mul_right _ inside
  rw [Nat.add_mul, Nat.one_mul] at upto
  omega

/-- The leaves below a table lie among its keys. -/
theorem within_leaves {levels : List Lvl} {size : Nat} (tiles : T.Tiles levels size)
    {table : Table} {base : Nat} {leaf : Leaf Lvl Entry}
    (member : leaf ∈ T.leaves read levels table base) :
    base ≤ leaf.base ∧ leaf.base + T.span leaf.level ≤ base + size := by
  induction levels generalizing size table base leaf with
  | nil => cases member
  | cons level levels ih =>
      obtain ⟨-, product, rest⟩ := tiles
      rw [leaves_cons, List.mem_flatMap] at member
      obtain ⟨i, inRange, found⟩ := member
      have inside := List.mem_range.mp inRange
      have block := within_below (fun _ _ _ member => ih rest member) found
      have ends := block_le product inside base
      omega

/-- **The leaves are in the order of their keys and do not overlap.** -/
theorem pairwise_leaves {levels : List Lvl} {size : Nat} (tiles : T.Tiles levels size)
    (table : Table) (base : Nat) :
    (T.leaves read levels table base).Pairwise fun first second =>
      first.base + T.span first.level ≤ second.base := by
  induction levels generalizing size table base with
  | nil => exact List.Pairwise.nil
  | cons level levels ih =>
      obtain ⟨-, -, rest⟩ := tiles
      rw [leaves_cons, List.pairwise_flatMap]
      constructor
      · intro i _
        unfold below
        split
        next => exact ih rest _ _
        next => split <;> simp
      · refine List.pairwise_lt_range.imp fun {i j} less first inFirst second inSecond => ?_
        have left := within_below (fun _ _ _ member => within_leaves rest member) inFirst
        have right := within_below (fun _ _ _ member => within_leaves rest member) inSecond
        have step : (i + 1) * T.span level ≤ j * T.span level := Nat.mul_le_mul_right _ less
        rw [Nat.add_mul, Nat.one_mul] at step
        omega

/-! ## Which keys they cover -/

/-- A key of a table has the index of the entry that stands for it. -/
theorem index_of_block {level : Lvl} {size base i key : Nat}
    (positive : 0 < T.span level) (product : T.fanout level * T.span level = size)
    (aligned : base % size = 0) (inside : i < T.fanout level)
    (lower : base + i * T.span level ≤ key) (upper : key < base + i * T.span level + T.span level) :
    T.index level key = i := by
  obtain ⟨tables, rfl⟩ := Nat.dvd_of_mod_eq_zero aligned
  obtain ⟨offset, rfl⟩ := Nat.exists_eq_add_of_le lower
  have small : offset < T.span level := by omega
  have split : size * tables + i * T.span level + offset =
      T.span level * (T.fanout level * tables + i) + offset := by
    rw [← product]
    ring
  rw [index, split, Nat.mul_add_div positive, Nat.div_eq_of_lt small, Nat.add_zero,
    Nat.mul_add_mod, Nat.mod_eq_of_lt inside]

/-- Every key of a table lies below one of its entries. -/
theorem exists_block {level : Lvl} {size base key : Nat} (positive : 0 < T.span level)
    (product : T.fanout level * T.span level = size) (lower : base ≤ key)
    (upper : key < base + size) :
    ∃ i < T.fanout level, base + i * T.span level ≤ key ∧
      key < base + i * T.span level + T.span level := by
  obtain ⟨offset, rfl⟩ := Nat.exists_eq_add_of_le lower
  have small : offset < T.fanout level * T.span level := by omega
  refine ⟨offset / T.span level, (Nat.div_lt_iff_lt_mul positive).mpr small, ?_, ?_⟩
  · have part := Nat.div_mul_le_self offset (T.span level)
    omega
  · have part := Nat.lt_div_mul_add (a := offset) positive
    omega

/-- The entries of a table keep the alignment of its keys. -/
theorem aligned_block {fanout span size base : Nat} (product : fanout * span = size)
    (aligned : base % size = 0) (i : Nat) : (base + i * span) % span = 0 := by
  obtain ⟨tables, rfl⟩ := Nat.dvd_of_mod_eq_zero aligned
  rw [← product, Nat.add_mul_mod_self_right, Nat.mul_assoc, Nat.mul_comm span, ← Nat.mul_assoc,
    Nat.mul_mod_left]

/-- **The list has a leaf for exactly the keys that are found.** -/
theorem mem_leaves_iff {levels : List Lvl} {size : Nat} (tiles : T.Tiles levels size)
    {table : Table} {base key : Nat} (aligned : base % size = 0) (lower : base ≤ key)
    (upper : key < base + size) {level : Lvl} {entry : Entry} :
    T.find read levels table key = some (level, entry) ↔
      ∃ leaf ∈ T.leaves read levels table base, leaf.level = level ∧ leaf.entry = entry ∧
        T.Covers leaf key := by
  induction levels generalizing size table base with
  | nil => simp [find, leaves]
  | cons first levels ih =>
      obtain ⟨positive, product, rest⟩ := tiles
      obtain ⟨i, inside, starts, ends⟩ := exists_block positive product lower upper
      have here := index_of_block positive product aligned inside starts ends
      -- no other entry has a leaf for the key
      have only : ∀ leaf, leaf ∈ T.leaves read (first :: levels) table base ∧ T.Covers leaf key ↔
          leaf ∈ T.below first (read (T.slot first table i)) (base + i * T.span first)
            (T.leaves read levels) ∧ T.Covers leaf key := by
        intro leaf
        refine and_congr_left fun covers => ?_
        rw [leaves_cons, List.mem_flatMap]
        refine ⟨fun ⟨j, inRange, member⟩ => ?_, fun member => ⟨i, List.mem_range.mpr inside, member⟩⟩
        have block := within_below (fun _ _ _ member => within_leaves rest member) member
        have same : T.index first key = j := index_of_block positive product aligned
          (List.mem_range.mp inRange) (block.1.trans covers.1)
          (Nat.lt_of_lt_of_le covers.2 block.2)
        rwa [show i = j from here.symm.trans same]
      have shuffle : (∃ leaf ∈ T.leaves read (first :: levels) table base,
          leaf.level = level ∧ leaf.entry = entry ∧ T.Covers leaf key) ↔
          ∃ leaf ∈ T.below first (read (T.slot first table i)) (base + i * T.span first)
            (T.leaves read levels), leaf.level = level ∧ leaf.entry = entry ∧ T.Covers leaf key := by
        refine exists_congr fun leaf => ?_
        have each := only leaf
        tauto
      rw [shuffle, find_cons, here]
      unfold below
      split
      next next _ => exact ih rest (aligned_block product aligned i) starts ends
      next =>
        split
        · simp only [Option.some.injEq, Prod.mk.injEq, List.mem_singleton, exists_eq_left]
          exact ⟨fun ⟨same, entry⟩ => ⟨same, entry, starts, ends⟩,
            fun ⟨same, entry, _⟩ => ⟨same, entry⟩⟩
        · simp

/-! ## How many keys they cover -/

/-- A count over the keys of a table is the sum of the counts over its entries. -/
theorem count_mul (p : Nat → Prop) [DecidablePred p] (base n span : Nat) :
    Nat.count (fun key => p (base + key)) (n * span) =
      ((List.range n).map fun i => Nat.count (fun key => p (base + i * span + key)) span).sum := by
  induction n with
  | zero => simp
  | succ n ih =>
      rw [Nat.add_mul, Nat.one_mul, Nat.count_add, ih, List.range_succ, List.map_append,
        List.sum_append]
      simp only [List.map_cons, List.map_nil, List.sum_cons, List.sum_nil, Nat.add_zero,
        Nat.add_assoc]

/-- **The spans of the leaves add up to the number of keys that are found.** -/
theorem sum_span_leaves {levels : List Lvl} {size : Nat} (tiles : T.Tiles levels size)
    (table : Table) {base : Nat} (aligned : base % size = 0) :
    ((T.leaves read levels table base).map fun leaf => T.span leaf.level).sum =
      Nat.count (fun key => (T.find read levels table (base + key)).isSome = true) size := by
  induction levels generalizing size table base with
  | nil => simp [leaves, find, Nat.count_false]
  | cons level levels ih =>
      obtain ⟨positive, product, rest⟩ := tiles
      rw [leaves_cons, List.map_flatMap, List.flatMap_def, List.sum_flatten, List.map_map,
        ← product, count_mul fun key => (T.find read (level :: levels) table key).isSome = true]
      refine congrArg List.sum (List.map_congr_left fun i inRange => ?_)
      have inside := List.mem_range.mp inRange
      have there : ∀ key, key < T.span level →
          T.index level (base + i * T.span level + key) = i := fun key less =>
        index_of_block positive product aligned inside (Nat.le_add_right _ _)
          (Nat.add_lt_add_left less _)
      rw [Function.comp_apply]
      unfold below
      split
      next below next =>
        rw [ih rest below (aligned_block product aligned i)]
        refine List.countP_congr fun key inTable => ?_
        have same : T.find read (level :: levels) table (base + i * T.span level + key) =
            T.find read levels below (base + i * T.span level + key) := by
          rw [find_cons, there key (List.mem_range.mp inTable), next]
        simp only [same]
      next stops =>
        split
        next leaf =>
          have found : ∀ key < T.span level, (T.find read (level :: levels) table
              (base + i * T.span level + key)).isSome = true := by
            intro key less
            rw [find_cons, there key less, stops, leaf]
            rfl
          rw [Nat.count_of_forall found]
          simp
        next absent =>
          have missed : ∀ key < T.span level, ¬ (T.find read (level :: levels) table
              (base + i * T.span level + key)).isSome = true := by
            intro key less
            rw [find_cons, there key less, stops, Bool.eq_false_iff.mpr absent]
            exact Bool.false_ne_true
          rw [Nat.count_of_forall_not missed]
          rfl

/-! ## Two trees -/

/-- What is listed is a leaf. -/
theorem leaf_of_mem_leaves {levels : List Lvl} {table : Table} {base : Nat}
    {leaf : Leaf Lvl Entry} (member : leaf ∈ T.leaves read levels table base) :
    T.leaf leaf.level leaf.entry = true := by
  induction levels generalizing table base with
  | nil => cases member
  | cons level levels ih =>
      rw [leaves_cons, List.mem_flatMap] at member
      obtain ⟨i, -, found⟩ := member
      unfold below at found
      split at found
      next => exact ih found
      next =>
        split at found
        next here =>
          obtain rfl := List.mem_singleton.mp found
          exact here
        next => cases found

/-- Two trees on the same tables have the same leaves, as long as each entry that they tell
apart is a leaf of the first and none of its leaves is such an entry. -/
theorem leaves_congr {T' : RadixTree Lvl Table Slot Entry} {apart : Lvl → Entry → Prop}
    (fanout : T'.fanout = T.fanout) (span : T'.span = T.span) (slot : T'.slot = T.slot)
    (agree : ∀ level entry, ¬ apart level entry →
      T'.next level entry = T.next level entry ∧ T'.leaf level entry = T.leaf level entry)
    (isLeaf : ∀ level entry, apart level entry →
      T.next level entry = none ∧ T.leaf level entry = true)
    {levels : List Lvl} {table : Table} {base : Nat}
    (noneListed : ∀ leaf ∈ T.leaves read levels table base, ¬ apart leaf.level leaf.entry) :
    T'.leaves read levels table base = T.leaves read levels table base := by
  induction levels generalizing table base with
  | nil => rfl
  | cons level levels ih =>
      rw [leaves_cons, leaves_cons, fanout, span, slot, List.flatMap_def, List.flatMap_def]
      refine congrArg List.flatten (List.map_congr_left fun i inRange => ?_)
      have listed : ∀ leaf ∈ T.below level (read (T.slot level table i)) (base + i * T.span level)
          (T.leaves read levels), ¬ apart leaf.level leaf.entry := by
        intro leaf member
        exact noneListed leaf (List.mem_flatMap.mpr ⟨i, inRange, member⟩)
      have same : ¬ apart level (read (T.slot level table i)) := by
        intro here
        obtain ⟨stops, leaf⟩ := isLeaf _ _ here
        unfold below at listed
        rw [stops, if_pos leaf] at listed
        exact listed _ (List.mem_singleton_self _) here
      obtain ⟨next, leaf⟩ := agree _ _ same
      unfold below at listed ⊢
      rw [next, leaf]
      cases descends : T.next level (read (T.slot level table i)) with
      | none => rfl
      | some below =>
          rw [descends] at listed
          exact ih listed

/-- Two trees that differ in the sizes of their tables alone find the same leaf of a key that
has the same index in both. -/
theorem find_congr {T' : RadixTree Lvl Table Slot Entry} (slot : T'.slot = T.slot)
    (next : T'.next = T.next) (leaf : T'.leaf = T.leaf) {levels : List Lvl} {key : Nat}
    (index : ∀ level ∈ levels, T'.index level key = T.index level key) (table : Table) :
    T'.find read levels table key = T.find read levels table key := by
  induction levels generalizing table with
  | nil => rfl
  | cons level levels ih =>
      rw [List.forall_mem_cons] at index
      rw [find_cons, find_cons, index.1, slot, next, leaf]
      cases T.next level (read (T.slot level table (T.index level key))) with
      | none => rfl
      | some below => exact ih index.2 below

/-! ## The walk of one key -/

/-- The tree as one key descends it. -/
def radix (T : RadixTree Lvl Table Slot Entry) (key : Nat) : Radix Lvl Table Slot Entry where
  slot := fun level table => T.slot level table (T.index level key)
  next := T.next

/-- **The descent ends in the last visit of the walk.** -/
theorem find_eq_getLast (levels : List Lvl) (table : Table) (key : Nat) :
    T.find read levels table key =
      (((T.radix key).walk read levels table).getLast?).bind fun visit =>
        if T.next visit.level visit.entry = none ∧ T.leaf visit.level visit.entry = true then
          some (visit.level, visit.entry)
        else none := by
  induction levels generalizing table with
  | nil => rfl
  | cons level levels ih =>
      rw [find_cons, Radix.walk_cons]
      dsimp only [radix]
      cases next : T.next level (read (T.slot level table (T.index level key))) with
      | none => simp [next]
      | some below =>
          rw [Option.elim_some]
          cases levels with
          | nil => simp [find, Radix.walk, next]
          | cons second levels =>
              rw [List.getLast?_cons_of_ne_nil (by simp [Radix.walk])]
              exact ih below

end RadixTree
