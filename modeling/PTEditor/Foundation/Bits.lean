import Mathlib.Algebra.Group.Nat.Defs
import Mathlib.Data.List.Basic
import Mathlib.Data.Nat.Notation
import Mathlib.Tactic.ByContra

/-!
# Words bit by bit

Operations on fixed-width words as a C compiler understands them: shifts that have no
meaning from the width of their operand on, single bytes, the mask of the positions that
pass a test, the first set bit, and the fields of a packed structure (`Layout`) that are
laid out from the least significant bit up.
-/

namespace Bits

variable {w : Nat}

/-! ## Shifts -/

/-- `value << amount`. -/
def shl (value : BitVec w) (amount : Nat) : Option (BitVec w) :=
  if amount < w then some (value <<< amount) else none

/-- `value >> amount` of an unsigned value. -/
def shr (value : BitVec w) (amount : Nat) : Option (BitVec w) :=
  if amount < w then some (value >>> amount) else none

theorem shl_of_lt {amount : Nat} (inside : amount < w) (value : BitVec w) :
    shl value amount = some (value <<< amount) :=
  if_pos inside

theorem shr_of_lt {amount : Nat} (inside : amount < w) (value : BitVec w) :
    shr value amount = some (value >>> amount) :=
  if_pos inside

theorem shl_of_le {amount : Nat} (beyond : w ≤ amount) (value : BitVec w) :
    shl value amount = none :=
  if_neg (by omega)

/-- The low `n` bits, as `(1 << n) - 1` computes them. -/
theorem getLsbD_ones {n : Nat} (inside : n < w) (i : Nat) :
    ((1#w <<< n) - 1#w).getLsbD i = decide (i < n) := by
  have power : 2 ^ n < 2 ^ w := Nat.pow_lt_pow_right (by omega) inside
  have positive : 0 < 2 ^ n := Nat.two_pow_pos n
  have one : (1#w).toNat = 1 := by
    rw [BitVec.toNat_ofNat, Nat.mod_eq_of_lt (by omega)]
  have ones : ((1#w <<< n) - 1#w).toNat = 2 ^ n - 1 := by
    rw [BitVec.toNat_sub, BitVec.toNat_shiftLeft, Nat.shiftLeft_eq, one, Nat.one_mul,
      Nat.mod_eq_of_lt power, show 2 ^ w - 1 + 2 ^ n = (2 ^ n - 1) + 2 ^ w by omega,
      Nat.add_mod_right, Nat.mod_eq_of_lt (by omega)]
  rw [BitVec.getLsbD, ones, Nat.testBit_two_pow_sub_one]

theorem toNat_lt_two_pow_iff {word : BitVec w} {n : Nat} :
    word.toNat < 2 ^ n ↔ ∀ i, n ≤ i → word.getLsbD i = false := by
  constructor
  · intro small i above
    exact Nat.testBit_lt_two_pow
      (Nat.lt_of_lt_of_le small (Nat.pow_le_pow_right (by omega) above))
  · intro clear
    exact Nat.lt_pow_two_of_testBit _ clear

/-! ## Bytes -/

/-- Byte `i` of a word, counted from the least significant one. -/
def byte (i : Nat) (word : BitVec w) : BitVec 8 := word.extractLsb' (8 * i) 8

theorem getLsbD_byte (i j : Nat) (word : BitVec w) :
    (byte i word).getLsbD j = (decide (j < 8) && word.getLsbD (8 * i + j)) := by
  rw [byte, BitVec.getLsbD_extractLsb']

/-- A byte depends on its eight bits only. -/
theorem byte_congr {i : Nat} {first second : BitVec w}
    (same : ∀ j < 8, first.getLsbD (8 * i + j) = second.getLsbD (8 * i + j)) :
    byte i first = byte i second := by
  apply BitVec.eq_of_getLsbD_eq
  intro j inside
  rw [getLsbD_byte, getLsbD_byte, same j inside]

/-! ## The positions that pass a test -/

/-- The word whose bit `i` is set for every `i < n` that passes. -/
def collect (w : Nat) (passes : Nat → Bool) (n : Nat) : BitVec w :=
  (List.range n).foldl (fun mask i => if passes i then mask ||| (1#w <<< i) else mask) 0

theorem getLsbD_one_shl {i j : Nat} (inside : j < w) :
    (1#w <<< i).getLsbD j = decide (j = i) := by
  rw [BitVec.getLsbD_shiftLeft, BitVec.getLsbD_one]
  by_cases same : j = i
  · subst same
    have wide : 0 < w := by omega
    simp [inside, wide]
  · by_cases below : j < i
    · simp [below, same]
    · have apart : j - i ≠ 0 := by omega
      simp [same, apart]

/-- The test of a single bit. -/
theorem and_one_shl_ne_zero_iff {word : BitVec w} {i : Nat} (inside : i < w) :
    word &&& (1#w <<< i) ≠ 0 ↔ word.getLsbD i = true := by
  constructor
  · intro nonzero
    by_contra clear
    refine nonzero (BitVec.eq_of_getLsbD_eq fun j bound => ?_)
    rw [BitVec.getLsbD_and, getLsbD_one_shl bound]
    by_cases same : j = i
    · rw [same, Bool.eq_false_iff.mpr clear]
      simp
    · simp [same]
  · intro set zero
    have bit := congrArg (BitVec.getLsbD · i) zero
    simp only [BitVec.getLsbD_and, getLsbD_one_shl inside, set] at bit
    simp at bit

/-- A word with more bits set under a condition. -/
theorem getLsbD_ite_or (condition : Prop) [Decidable condition] (word more : BitVec w) (i : Nat) :
    (if condition then word ||| more else word).getLsbD i =
      (word.getLsbD i || (decide condition && more.getLsbD i)) := by
  by_cases holds : condition
  · rw [if_pos holds, BitVec.getLsbD_or, decide_eq_true holds, Bool.true_and]
  · rw [if_neg holds, decide_eq_false holds, Bool.false_and, Bool.or_false]

theorem getLsbD_collect {passes : Nat → Bool} {n i : Nat} (inside : i < w) :
    (collect w passes n).getLsbD i = (decide (i < n) && passes i) := by
  unfold collect
  induction n with
  | zero => simp
  | succ n ih =>
      have grow : decide (i < n + 1) = (decide (i < n) || decide (i = n)) := by
        rw [← Bool.decide_or]
        exact decide_eq_decide.mpr (by omega)
      rw [List.range_succ, List.foldl_append, List.foldl_cons, List.foldl_nil, grow]
      by_cases passed : passes n = true
      · rw [if_pos passed, BitVec.getLsbD_or, ih, getLsbD_one_shl inside]
        by_cases same : i = n
        · subst same
          simp [passed]
        · simp [same]
      · rw [if_neg passed, ih]
        by_cases same : i = n
        · subst same
          simp [passed]
        · simp [same]

/-! ## The first set bit -/

/-- The position of the least significant set bit. -/
def first (word : BitVec w) : Option Nat := (List.range w).find? word.getLsbD

theorem first_eq_none_iff {word : BitVec w} :
    first word = none ↔ ∀ i < w, word.getLsbD i = false := by
  simp [first, List.find?_eq_none]

theorem first_eq_some_iff {word : BitVec w} {i : Nat} :
    first word = some i ↔ word.getLsbD i = true ∧ ∀ j < i, word.getLsbD j = false := by
  rw [first, List.find?_range_eq_some]
  constructor
  · rintro ⟨set, -, below⟩
    exact ⟨set, fun j less => by simpa using below j less⟩
  · rintro ⟨set, below⟩
    have inside : i < w := BitVec.lt_of_getLsbD set
    exact ⟨set, List.mem_range.mpr inside, fun j less => by simp [below j less]⟩

/-! ## Packed structures -/

/-- The fields of a packed structure with their widths, from the least significant bit up. -/
abbrev Layout (Field : Type) : Type := List (Field × Nat)

namespace Layout

variable {Field : Type} [DecidableEq Field]

/-- The bit where a field starts. -/
def offset : Layout Field → Field → Nat
  | [], _ => 0
  | (name, width) :: rest, field => if name = field then 0 else width + offset rest field

/-- The width of a field, which is 0 when there is no such field. -/
def width : Layout Field → Field → Nat
  | [], _ => 0
  | (name, bits) :: rest, field => if name = field then bits else width rest field

/-- The width of the whole structure. -/
def total : Layout Field → Nat
  | [] => 0
  | (_, bits) :: rest => bits + total rest

/-- The value of a field. -/
def get (layout : Layout Field) (field : Field) (word : BitVec w) : BitVec w :=
  (word.extractLsb' (layout.offset field) (layout.width field)).setWidth w

theorem getLsbD_get (layout : Layout Field) (field : Field) (word : BitVec w) (i : Nat) :
    (layout.get field word).getLsbD i =
      (decide (i < w) && (decide (i < layout.width field) &&
        word.getLsbD (layout.offset field + i))) := by
  simp only [get, BitVec.getLsbD_setWidth, BitVec.getLsbD_extractLsb']

end Layout

end Bits
