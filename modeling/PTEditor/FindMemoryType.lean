import PTEditor.Library.MemoryType
import PTEditor.Library.UserSpec

/-!
# Finding and applying a memory type

From a memory type to the entry that selects it: `ptedit_find_mt` and
`ptedit_find_first_mt` search the register, and the apply functions store the index
that they find.  `memoryTypePipeline_x86` says that the steps fit together.
-/

namespace PTEditor

open Bits

/-- The search of `ptedit_find_mt` finds the fields that hold the type. -/
theorem hasMt_x86 (mts : Word) (type : UChar) (i : Nat) :
    hasMt .x86_64 mts type i = true ↔ mtField .x86_64 mts i = type := by
  have seven : ∀ j, (7 : Word).getLsbD j = decide (j < 3) := by
    intro j
    by_cases low : j < 64
    · revert j
      decide
    · have outside : ¬ j < 3 := by omega
      rw [BitVec.getLsbD_of_ge _ _ (by omega), decide_eq_false outside]
  have field : ∀ j < 64, ((mts >>> (i * 8)) &&& 7).getLsbD j =
      (mtField .x86_64 mts i).getLsbD j := by
    intro j _
    rw [BitVec.getLsbD_and, BitVec.getLsbD_ushiftRight, seven, getLsbD_mtField, mtWidth,
      Nat.mul_comm, Bool.and_comm]
  rw [hasMt, decide_eq_true_iff]
  constructor
  · intro equal
    apply BitVec.eq_of_getLsbD_eq
    intro j bound
    have low : j < 64 := by omega
    rw [← field j low, equal, BitVec.getLsbD_setWidth, decide_eq_true low, Bool.true_and]
  · intro equal
    apply BitVec.eq_of_getLsbD_eq
    intro j low
    rw [field j low, equal, BitVec.getLsbD_setWidth, decide_eq_true low, Bool.true_and]

theorem getLsbD_pteditFindMt (arch : Arch) (mts : Word) (type : UChar) {i : Nat}
    (inside : i < 8) :
    (collect 8 (hasMt arch mts type) 8).getLsbD i = hasMt arch mts type i := by
  rw [getLsbD_collect inside, decide_eq_true inside, Bool.true_and]

/-- `ptedit_find_first_mt` returns the first bit of what `ptedit_find_mt` returns. -/
theorem builtinFfs_cases (found : UChar) :
    (∃ i : Nat, i < 8 ∧ builtinFfs (found.setWidth 32) - 1 = (i : Int) ∧ found.getLsbD i = true ∧
      ∀ j < i, found.getLsbD j = false) ∨
    builtinFfs (found.setWidth 32) - 1 = -1 ∧ ∀ i < 8, found.getLsbD i = false := by
  have widened : ∀ i < 32, (found.setWidth 32 : Pid).getLsbD i = found.getLsbD i := by
    intro i bound
    rw [BitVec.getLsbD_setWidth, decide_eq_true bound, Bool.true_and]
  unfold builtinFfs
  cases search : first (found.setWidth 32 : Pid) with
  | none =>
      refine .inr ⟨by simp, fun i bound => ?_⟩
      rw [← widened i (by omega)]
      exact first_eq_none_iff.mp search i (by omega)
  | some i =>
      obtain ⟨set, below⟩ := first_eq_some_iff.mp search
      have bound : i < 32 := BitVec.lt_of_getLsbD set
      rw [widened i bound] at set
      have inside : i < 8 := BitVec.lt_of_getLsbD set
      refine .inl ⟨i, inside, by simp, set, fun j less => ?_⟩
      rw [← widened j (by omega)]
      exact below j less

section Pipeline

variable {sys : System} {lib : Lib} {w : World}

theorem toNat_index {i : Nat} (inside : i < 8) : (BitVec.ofNat 8 i).toNat = i := by
  rw [BitVec.toNat_ofNat]
  exact Nat.mod_eq_of_lt (by omega)

theorem hasMt_iff_readsMt (attached : Attached sys lib w) (x86 : lib.arch = .x86_64)
    (type : UChar) {i : Nat} (inside : i < 8) :
    hasMt lib.arch (sys.mts w.kernel) type i = true ↔
      ReadsMt sys lib w (BitVec.ofNat 8 i) type := by
  rw [readsMt_iff attached, toNat_index inside, x86, hasMt_x86]
  exact (and_iff_right inside).symm

/-- `ptedit_find_first_mt` returns the least index of a type, or -1. -/
theorem pteditFindFirstMt_cases (attached : Attached sys lib w) (x86 : lib.arch = .x86_64)
    (type : UChar) :
    (∃ i : Nat, i < 8 ∧
      Prog.run (sysHandler sys) (pteditFindFirstMt lib type) w = some ((i : Int), w) ∧
      ReadsMt sys lib w (BitVec.ofNat 8 i) type ∧
      ∀ j < i, ¬ ReadsMt sys lib w (BitVec.ofNat 8 j) type) ∨
    Prog.run (sysHandler sys) (pteditFindFirstMt lib type) w = some (-1, w) ∧
      ∀ i < 8, ¬ ReadsMt sys lib w (BitVec.ofNat 8 i) type := by
  have reads := @hasMt_iff_readsMt sys lib w attached x86 type
  rw [run_pteditFindFirstMt attached]
  rcases builtinFfs_cases (collect 8 (hasMt lib.arch (sys.mts w.kernel) type) 8) with
    ⟨i, inside, result, set, below⟩ | ⟨result, clear⟩
  · refine .inl ⟨i, inside, by rw [result], ?_, fun j less => ?_⟩
    · rw [getLsbD_pteditFindMt _ _ _ inside] at set
      exact (reads inside).mp set
    · have unset := below j less
      rw [getLsbD_pteditFindMt _ _ _ (by omega)] at unset
      rw [← reads (by omega : j < 8), unset]
      exact Bool.false_ne_true
  · refine .inr ⟨by rw [result], fun i inside => ?_⟩
    have unset := clear i inside
    rw [getLsbD_pteditFindMt _ _ _ inside] at unset
    rw [← reads inside, unset]
    exact Bool.false_ne_true

/-- **The memory-type pipeline.**  The search finds the indices of a type, the first of
them is the least, an entry to which it is applied has that type, and the search for the
type of an index ends there at the latest. -/
theorem memoryTypePipeline_x86 (attached : Attached sys lib w) (x86 : lib.arch = .x86_64)
    (type : UChar) (entry : Word) :
    (∃ found, Prog.run (sysHandler sys) (pteditFindMt lib type) w = some (found, w) ∧
      ∀ i < 8, found.getLsbD i = true ↔ ReadsMt sys lib w (BitVec.ofNat 8 i) type) ∧
    ((∃ i : Nat, i < 8 ∧
        Prog.run (sysHandler sys) (pteditFindFirstMt lib type) w = some ((i : Int), w) ∧
        ReadsMt sys lib w (BitVec.ofNat 8 i) type ∧
        ∀ j < i, ¬ ReadsMt sys lib w (BitVec.ofNat 8 j) type) ∨
      Prog.run (sysHandler sys) (pteditFindFirstMt lib type) w = some (-1, w) ∧
        ∀ i < 8, ¬ ReadsMt sys lib w (BitVec.ofNat 8 i) type) ∧
    (∀ i : Nat, Prog.run (sysHandler sys) (pteditFindFirstMt lib type) w = some ((i : Int), w) →
      ReadsMt sys lib w
        (pteditExtractMt lib.arch (pteditApplyMt lib.arch entry (BitVec.ofNat 8 i))) type ∧
      ReadsMt sys lib w
        (pteditExtractMtHuge lib.arch (pteditApplyMtHuge lib.arch entry (BitVec.ofNat 8 i)))
        type) ∧
    ∀ j < 8, ∃ read, ReadsMt sys lib w (BitVec.ofNat 8 j) read ∧
      ∃ i : Nat, i ≤ j ∧
        Prog.run (sysHandler sys) (pteditFindFirstMt lib read) w = some ((i : Int), w) := by
  refine ⟨⟨_, run_pteditFindMt attached type, fun i inside => ?_⟩,
    pteditFindFirstMt_cases attached x86 type, fun i ran => ?_, fun j inside => ?_⟩
  · rw [getLsbD_pteditFindMt _ _ _ inside]
    exact hasMt_iff_readsMt attached x86 type inside
  · rcases pteditFindFirstMt_cases attached x86 type with ⟨k, inside, ran', reads, -⟩ | ⟨ran', -⟩
    · have same : (i : Int) = k := (Prod.mk.inj (Option.some.inj (ran.symm.trans ran'))).1
      obtain rfl : i = k := by omega
      have small : (BitVec.ofNat 8 i).toNat ≤ 7 := by
        rw [toNat_index inside]
        omega
      rw [x86, pteditExtractMt_pteditApplyMt entry small,
        pteditExtractMtHuge_pteditApplyMtHuge entry small]
      exact ⟨reads, reads⟩
    · have same : (i : Int) = -1 := (Prod.mk.inj (Option.some.inj (ran.symm.trans ran'))).1
      omega
  · have index := toNat_index inside
    have reads : ReadsMt sys lib w (BitVec.ofNat 8 j)
        (mtField lib.arch (sys.mts w.kernel) (BitVec.ofNat 8 j).toNat) :=
      (readsMt_iff attached _ _).mpr ⟨by omega, rfl⟩
    refine ⟨_, reads, ?_⟩
    rcases pteditFindFirstMt_cases attached x86 _ with ⟨i, -, ran, -, below⟩ | ⟨-, none⟩
    · refine ⟨i, ?_, ran⟩
      by_contra later
      exact below j (by omega) reads
    · exact absurd reads (none j inside)

theorem memoryTypePipeline_x86_sample :
    ∃ i : Nat, i < 8 ∧
      Prog.run (sysHandler sampleSystem) (pteditFindFirstMt sampleLib 0) sampleWorld =
        some ((i : Int), sampleWorld) := by
  obtain ⟨-, first | ⟨-, none⟩, -⟩ := memoryTypePipeline_x86 sample_attached rfl 0 0
  · obtain ⟨i, inside, ran, -⟩ := first
    exact ⟨i, inside, ran⟩
  · exact absurd ((readsMt_iff sample_attached 3 0).mpr (by decide)) (none 3 (by decide))

end Pipeline

end PTEditor
