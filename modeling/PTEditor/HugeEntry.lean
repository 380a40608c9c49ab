import PTEditor.Library.MemoryType

/-!
# Entries of huge pages

An entry of a 2 MiB page has its PAT bit where the frame number of a 4 KiB page starts.
`ptedit_pmd_large_t` keeps the two apart; `ptedit_get_pfn` and `ptedit_set_pfn` do not
(`hugeEntry_iff`).
-/

namespace PTEditor

open Bits

/-- The memory type that `ptedit_apply_mt_huge` stores stays out of the frame number of
`ptedit_pmd_large_t`. -/
theorem largePfn_pteditApplyMtHuge (entry : Word) (mt : UChar) :
    pteditCast (pteditApplyMtHuge .x86_64 entry mt) (pteditPmdLargeT .x86_64) .pfn =
      pteditCast entry (pteditPmdLargeT .x86_64) .pfn := by
  have offset : (pteditPmdLargeT .x86_64).offset .pfn = 21 := by decide
  have width : (pteditPmdLargeT .x86_64).width .pfn = 19 := by decide
  apply BitVec.eq_of_getLsbD_eq
  intro j _
  unfold pteditCast
  rw [Layout.getLsbD_get, Layout.getLsbD_get, offset, width]
  by_cases inside : j < 19
  · have pwt : ¬ 21 + j = pteditPageBitPwt := by
      unfold pteditPageBitPwt
      omega
    have pcd : ¬ 21 + j = pteditPageBitPcd := by
      unfold pteditPageBitPcd
      omega
    have pat : ¬ 21 + j = pteditPageBitPatLarge := by
      unfold pteditPageBitPatLarge
      omega
    rw [pteditApplyMtHuge, getLsbD_applyPat _ _ _ (by omega)]
    simp [pwt, pcd, pat]
  · rw [decide_eq_false inside, Bool.false_and, Bool.false_and]

/-- Storing a memory type keeps the frame number when it keeps the PAT bit. -/
theorem pfn_pteditApplyMtHuge_iff (entry : Word) (mt : UChar) :
    pteditGetPfn .x86_64 (pteditApplyMtHuge .x86_64 entry mt) = pteditGetPfn .x86_64 entry ↔
      mt.getLsbD 2 = entry.getLsbD 12 := by
  have bit : ∀ i, 12 ≤ i → i < 64 → (pteditApplyMtHuge .x86_64 entry mt).getLsbD i =
      if i = 12 then mt.getLsbD 2 else entry.getLsbD i := by
    intro i above bound
    have pwt : ¬ i = pteditPageBitPwt := by
      unfold pteditPageBitPwt
      omega
    have pcd : ¬ i = pteditPageBitPcd := by
      unfold pteditPageBitPcd
      omega
    rw [pteditApplyMtHuge, getLsbD_applyPat _ _ _ bound, decide_eq_false pwt,
      decide_eq_false pcd, pteditPageBitPatLarge]
    by_cases pat : i = 12
    · simp [pat]
    · simp [pat]
  constructor
  · intro same
    have first := congrArg (BitVec.getLsbD · 0) same
    simp only [getLsbD_pteditGetPfn, Nat.add_zero] at first
    rw [bit 12 (by omega) (by omega), if_pos rfl] at first
    exact first
  · intro same
    apply BitVec.eq_of_getLsbD_eq
    intro j _
    rw [getLsbD_pteditGetPfn, getLsbD_pteditGetPfn]
    by_cases inside : j < pfnBits .x86_64
    · have narrow : j < 40 := inside
      rw [bit (12 + j) (by omega) (by omega)]
      by_cases lowest : 12 + j = 12
      · rw [if_pos lowest, same, lowest]
      · rw [if_neg lowest]
    · rw [decide_eq_false inside, Bool.false_and, Bool.false_and]

/-- Storing an aligned frame number clears the PAT bit. -/
theorem extractMtHuge_pteditSetPfn_iff (entry : Word) {pfn : Word} (aligned : 512 ∣ pfn.toNat) :
    pteditExtractMtHuge .x86_64 (pteditSetPfn .x86_64 entry pfn) =
        pteditExtractMtHuge .x86_64 entry ↔ entry.getLsbD 12 = false := by
  have even : pfn.getLsbD 0 = false := by
    rw [BitVec.getLsbD, Nat.testBit_zero]
    exact decide_eq_false (by omega)
  have low : ∀ i, i < 12 → (pteditSetPfn .x86_64 entry pfn).getLsbD i = entry.getLsbD i :=
    getLsbD_pteditSetPfn_low .x86_64 entry pfn
  have pat : (pteditSetPfn .x86_64 entry pfn).getLsbD 12 = false := by
    rw [getLsbD_pteditSetPfn _ _ _ _ (by omega), if_pos (by decide)]
    exact even
  have large : pteditPageBitPatLarge < 64 := by decide
  unfold pteditExtractMtHuge
  constructor
  · intro same
    have third := congrArg (BitVec.getLsbD · 2) same
    simp only [getLsbD_extractPat large] at third
    exact third.symm.trans pat
  · intro clear
    apply BitVec.eq_of_getLsbD_eq
    intro j _
    rw [getLsbD_extractPat large, getLsbD_extractPat large]
    by_cases inside : j < 3
    · rcases (by omega : j = 0 ∨ j = 1 ∨ j = 2) with rfl | rfl | rfl
      · exact congrArg _ (low 3 (by omega))
      · exact congrArg _ (low 4 (by omega))
      · exact congrArg _ (pat.trans clear.symm)
    · rw [decide_eq_false inside, Bool.false_and, Bool.false_and]

/-- **Memory type and frame number of a huge-page entry.**  Storing one keeps the other
exactly when the PAT bit, which both use, does not change. -/
theorem hugeEntry_iff (entry : Word) (mt : BitVec 8) {pfn : Word} (_below : pfn.toNat < 2 ^ 40)
    (aligned : 512 ∣ pfn.toNat) :
    (pteditGetPfn .x86_64 (pteditApplyMtHuge .x86_64 entry mt) = pteditGetPfn .x86_64 entry ↔
      mt.getLsbD 2 = entry.getLsbD 12) ∧
    (pteditExtractMtHuge .x86_64 (pteditSetPfn .x86_64 entry pfn) =
      pteditExtractMtHuge .x86_64 entry ↔ entry.getLsbD 12 = false) :=
  ⟨pfn_pteditApplyMtHuge_iff entry mt, extractMtHuge_pteditSetPfn_iff entry aligned⟩

/-- A present 2 MiB entry, given the type of index 3 and frame 512. -/
theorem hugeEntry_iff_sample :
    pteditGetPfn .x86_64 (pteditApplyMtHuge .x86_64 0x83 3) = pteditGetPfn .x86_64 0x83 ∧
      pteditExtractMtHuge .x86_64 (pteditSetPfn .x86_64 0x83 512) =
        pteditExtractMtHuge .x86_64 0x83 := by
  have both := @hugeEntry_iff 0x83 3 512 (by decide) (by decide)
  exact ⟨both.1.mpr (by decide), both.2.mpr (by decide)⟩

/-- A present 2 MiB entry of frame 512, given the type of index 4, and one of index 4,
given frame 512. -/
theorem hugeEntry_interferes :
    pteditGetPfn .x86_64 (pteditApplyMtHuge .x86_64 0x200083 4) ≠ pteditGetPfn .x86_64 0x200083 ∧
      pteditExtractMtHuge .x86_64 (pteditSetPfn .x86_64 0x201083 512) ≠
        pteditExtractMtHuge .x86_64 0x201083 := by
  decide

end PTEditor
