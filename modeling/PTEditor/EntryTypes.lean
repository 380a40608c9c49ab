import PTEditor.Entry
import PTEditor.Foundation.BitView

/-!
# Entry types

The packed structures of `ptedit.h` that `ptedit_cast` reads an entry as, and what
their frame number has to do with `ptedit_get_pfn` and `ptedit_set_pfn`:
`pfnReaders_agree_iff` says that the x86_64 field is too narrow.
-/

namespace PTEditor

open Bits

/-! ## The packed structures -/

/-- The members of the entry types. -/
inductive EntryField where
  | present
  | writeable
  | userAccess
  | writeThrough
  | cacheDisabled
  | accessed
  | dirty
  | size
  | global
  | pat
  | pfn
  | executionDisabled
  | memoryAttributesIndex
  | nonSecure
  | accessPermissions
  | shareabilityField
  | accessFlag
  | notGlobal
  | contiguous
  | privilegedExecuteNever
  | executeNever
  | pxnTable
  | xnTable
  | apTable
  | nsTable
  | reserved
  | reserved1
  | reserved2
  | ignored1
  | ignored2
  | ignored3
  | ingored1
  deriving DecidableEq, Repr

/-- `ptedit_pgd_t`, and by their `typedef`s `ptedit_p4d_t`, `ptedit_pud_t` and
`ptedit_pmd_t`. -/
def pteditPgdT : Arch → Layout EntryField
  | .x86_64 =>
      [(.present, 1), (.writeable, 1), (.userAccess, 1), (.writeThrough, 1),
        (.cacheDisabled, 1), (.accessed, 1), (.ignored3, 1), (.size, 1), (.ignored2, 4),
        (.pfn, 28), (.reserved1, 12), (.ignored1, 11), (.executionDisabled, 1)]
  | .aarch64 =>
      [(.present, 2), (.ignored1, 10), (.pfn, 36), (.reserved, 4), (.ignored2, 7),
        (.pxnTable, 1), (.xnTable, 1), (.apTable, 2), (.nsTable, 1)]

/-- `ptedit_pmd_large_t`. -/
def pteditPmdLargeT : Arch → Layout EntryField
  | .x86_64 =>
      [(.present, 1), (.writeable, 1), (.userAccess, 1), (.writeThrough, 1),
        (.cacheDisabled, 1), (.accessed, 1), (.dirty, 1), (.size, 1), (.global, 1),
        (.ignored2, 3), (.pat, 1), (.reserved2, 8), (.pfn, 19), (.reserved1, 12),
        (.ignored1, 11), (.executionDisabled, 1)]
  | .aarch64 =>
      [(.present, 2), (.memoryAttributesIndex, 3), (.nonSecure, 1), (.accessPermissions, 2),
        (.shareabilityField, 2), (.accessFlag, 1), (.notGlobal, 1), (.reserved1, 9), (.pfn, 27),
        (.reserved2, 4), (.contiguous, 1), (.privilegedExecuteNever, 1), (.executeNever, 1),
        (.ingored1, 4), (.ignored2, 5)]

/-- `ptedit_pte_t`. -/
def pteditPteT : Arch → Layout EntryField
  | .x86_64 =>
      [(.present, 1), (.writeable, 1), (.userAccess, 1), (.writeThrough, 1),
        (.cacheDisabled, 1), (.accessed, 1), (.dirty, 1), (.size, 1), (.global, 1),
        (.ignored2, 3), (.pfn, 28), (.reserved1, 12), (.ignored1, 11), (.executionDisabled, 1)]
  | .aarch64 =>
      [(.present, 2), (.memoryAttributesIndex, 3), (.nonSecure, 1), (.accessPermissions, 2),
        (.shareabilityField, 2), (.accessFlag, 1), (.notGlobal, 1), (.pfn, 36), (.reserved1, 4),
        (.contiguous, 1), (.privilegedExecuteNever, 1), (.executeNever, 1), (.ingored1, 4),
        (.ignored2, 5)]

/-- The type of an entry of a level. -/
def entryType (arch : Arch) : Level → Layout EntryField
  | .pte => pteditPteT arch
  | .pgd | .p4d | .pud | .pmd => pteditPgdT arch

/-- A member of `ptedit_cast(entry, type)`. -/
def pteditCast (entry : Word) (type : Layout EntryField) (field : EntryField) : Word :=
  type.get field entry

/-- Every type covers an entry exactly. -/
theorem total_entryTypes (arch : Arch) :
    (∀ level, (entryType arch level).total = 64) ∧ (pteditPmdLargeT arch).total = 64 := by
  refine ⟨fun level => ?_, ?_⟩
  · cases arch <;> cases level <;> rfl
  · cases arch <;> rfl

/-- The walker reads the same two members whatever the level of the entry. -/
theorem present_eq_pteditCast (arch : Arch) (level : Level) (entry : Word) :
    PteditPgd.present arch entry = pteditCast entry (entryType arch level) .present := by
  cases arch <;> cases level <;> rfl

theorem pfn_eq_pteditCast (arch : Arch) (level : Level) (entry : Word) :
    PteditPgd.pfn arch entry = pteditCast entry (entryType arch level) .pfn := by
  cases arch <;> cases level <;> rfl

theorem size_eq_pteditCast (level : Level) (entry : Word) :
    PteditPgd.size entry = pteditCast entry (entryType .x86_64 level) .size := by
  cases level <;> rfl

/-! ## Frame-number bits -/

/-- The width of the member `pfn` of `ptedit_pgd_t` and `ptedit_pte_t`. -/
def pfnFieldBits : Arch → Nat
  | .x86_64 => 28
  | .aarch64 => 36

section Bits

variable (arch : Arch) (entry pfn : Word) (i : Nat)

theorem getLsbD_pfnMask :
    (pfnMask arch).getLsbD i = (decide (12 ≤ i) && decide (i < 12 + pfnBits arch)) := by
  have narrow : pfnBits arch < 64 := by cases arch <;> decide
  have top : 12 + pfnBits arch ≤ 64 := by cases arch <;> decide
  have ones : ((1#64 <<< pfnBits arch) - 1).getLsbD (i - 12) = decide (i - 12 < pfnBits arch) :=
    getLsbD_ones narrow (i - 12)
  rw [pfnMask, BitVec.getLsbD_shiftLeft, ones]
  by_cases low : i < 12
  · have notAbove : ¬ 12 ≤ i := by omega
    simp [low, notAbove]
  · have above : 12 ≤ i := by omega
    have same : decide (i - 12 < pfnBits arch) = decide (i < 12 + pfnBits arch) :=
      decide_eq_decide.mpr (by omega)
    rw [same]
    by_cases inside : i < 12 + pfnBits arch
    · have bound : i < 64 := by omega
      simp [low, above, inside, bound]
    · simp [inside]

theorem getLsbD_pteditGetPfn :
    (pteditGetPfn arch entry).getLsbD i =
      (decide (i < pfnBits arch) && entry.getLsbD (12 + i)) := by
  have above : 12 ≤ 12 + i := by omega
  have same : decide (12 + i < 12 + pfnBits arch) = decide (i < pfnBits arch) :=
    decide_eq_decide.mpr (by omega)
  rw [pteditGetPfn, BitVec.getLsbD_ushiftRight, BitVec.getLsbD_and, getLsbD_pfnMask, same,
    decide_eq_true above, Bool.true_and, Bool.and_comm]

/-- Outside the frame number `ptedit_set_pfn` leaves a bit alone, unless the new frame
number does not fit. -/
theorem getLsbD_pteditSetPfn (bound : i < 64) :
    (pteditSetPfn arch entry pfn).getLsbD i =
      (if 12 ≤ i ∧ i < 12 + pfnBits arch then pfn.getLsbD (i - 12)
        else entry.getLsbD i || (decide (12 ≤ i) && pfn.getLsbD (i - 12))) := by
  rw [pteditSetPfn, BitVec.getLsbD_or, BitVec.getLsbD_and, BitVec.getLsbD_not, getLsbD_pfnMask,
    BitVec.getLsbD_shiftLeft]
  by_cases above : 12 ≤ i
  · have notLow : ¬ i < 12 := by omega
    by_cases inside : i < 12 + pfnBits arch <;> simp [above, inside, notLow, bound]
  · have low : i < 12 := by omega
    simp [above, low, bound]

/-- Below the frame number nothing changes. -/
theorem getLsbD_pteditSetPfn_low (low : i < 12) :
    (pteditSetPfn arch entry pfn).getLsbD i = entry.getLsbD i := by
  have below : ¬ 12 ≤ i := by omega
  rw [getLsbD_pteditSetPfn _ _ _ _ (by omega), if_neg (fun inside => below inside.1),
    decide_eq_false below, Bool.false_and, Bool.or_false]

theorem getLsbD_pfn :
    (PteditPgd.pfn arch entry).getLsbD i =
      (decide (i < pfnFieldBits arch) && entry.getLsbD (12 + i)) := by
  have narrow : pfnFieldBits arch ≤ 64 := by cases arch <;> decide
  have field : PteditPgd.pfn arch entry = bitField 12 (pfnFieldBits arch) entry := by
    cases arch <;> rfl
  rw [field, getLsbD_bitField]
  by_cases inside : i < pfnFieldBits arch
  · have bound : i < 64 := by omega
    simp [inside, bound]
  · simp [inside]

end Bits

/-- `ptedit_get_pfn` and `ptedit_set_pfn` share the bits of the frame number, as long as the
new frame number fits. -/
theorem pfnView (arch : Arch) :
    View (pteditGetPfn arch) (pteditSetPfn arch) (fun pfn => pfn.toNat < 2 ^ pfnBits arch)
      (fun j => 12 + j) (pfnBits arch) where
  reads := getLsbD_pteditGetPfn arch
  writes := by
    intro entry pfn _ j inside
    have top : 12 + pfnBits arch ≤ 64 := by cases arch <;> decide
    have there : 12 ≤ 12 + j ∧ 12 + j < 12 + pfnBits arch := by omega
    rw [getLsbD_pteditSetPfn _ _ _ _ (by omega), if_pos there, Nat.add_sub_cancel_left]
  keeps := by
    intro entry pfn small i bound outside
    have beyond : ¬ (12 ≤ i ∧ i < 12 + pfnBits arch) :=
      fun inside => outside (i - 12) (by omega) (by omega)
    rw [getLsbD_pteditSetPfn _ _ _ _ bound, if_neg beyond]
    by_cases above : 12 ≤ i
    · rw [toNat_lt_two_pow_iff.mp small (i - 12) (by omega), Bool.and_false, Bool.or_false]
    · rw [decide_eq_false above, Bool.false_and, Bool.or_false]
  accepts_get := by
    intro entry
    refine toNat_lt_two_pow_iff.mpr fun i outside => ?_
    rw [getLsbD_pteditGetPfn, decide_eq_false (by omega), Bool.false_and]

/-! ## The two readers -/

theorem pfn_eq_pteditGetPfn_iff (arch : Arch) (entry : Word) :
    PteditPgd.pfn arch entry = pteditGetPfn arch entry ↔
      ∀ i, pfnFieldBits arch ≤ i → i < pfnBits arch → entry.getLsbD (12 + i) = false := by
  constructor
  · intro same i outside inside
    have bits := congrArg (BitVec.getLsbD · i) same
    have left : ¬ i < pfnFieldBits arch := by omega
    simp only [getLsbD_pfn, getLsbD_pteditGetPfn, left, inside, decide_false, decide_true,
      Bool.false_and, Bool.true_and] at bits
    exact bits.symm
  · intro clear
    have narrow : pfnFieldBits arch ≤ pfnBits arch := by cases arch <;> decide
    apply BitVec.eq_of_getLsbD_eq
    intro i _
    rw [getLsbD_pfn, getLsbD_pteditGetPfn]
    by_cases field : i < pfnFieldBits arch
    · have inside : i < pfnBits arch := by omega
      rw [decide_eq_true field, decide_eq_true inside]
    · by_cases inside : i < pfnBits arch
      · rw [clear i (by omega) inside, Bool.and_false, Bool.and_false]
      · rw [decide_eq_false field, decide_eq_false inside]

/-- What `ptedit_get_pfn` reads after `ptedit_set_pfn`. -/
theorem pteditGetPfn_pteditSetPfn {arch : Arch} (entry : Word) {pfn : Word}
    (small : pfn.toNat < 2 ^ pfnBits arch) :
    pteditGetPfn arch (pteditSetPfn arch entry pfn) = pfn :=
  (pfnView arch).get_set entry small small

/-- After `ptedit_set_pfn` the member `pfn` holds the frame number that fits it. -/
theorem pfn_pteditSetPfn_iff {arch : Arch} (entry : Word) {pfn : Word}
    (small : pfn.toNat < 2 ^ pfnBits arch) :
    PteditPgd.pfn arch (pteditSetPfn arch entry pfn) = pfn ↔
      pfn.toNat < 2 ^ pfnFieldBits arch := by
  have stored := pteditGetPfn_pteditSetPfn entry small
  have agree := pfn_eq_pteditGetPfn_iff arch (pteditSetPfn arch entry pfn)
  have bit : ∀ i, i < pfnBits arch →
      (pteditSetPfn arch entry pfn).getLsbD (12 + i) = pfn.getLsbD i :=
    (pfnView arch).writes entry pfn small
  rw [stored] at agree
  rw [agree, toNat_lt_two_pow_iff]
  constructor
  · intro clear i outside
    by_cases inside : i < pfnBits arch
    · rw [← bit i inside, clear i outside inside]
    · exact toNat_lt_two_pow_iff.mp small i (by omega)
  · intro clear i outside inside
    rw [bit i inside, clear i outside]

/-- **The two readers of a frame number.**  They agree on aarch64; on x86_64 the member
has 28 of the 40 bits that `ptedit_get_pfn` reads and `ptedit_set_pfn` writes. -/
theorem pfnReaders_agree_iff (arch : Arch) (level : Level) (entry : Word) {pfn : Word}
    (small : pfn.toNat < 2 ^ pfnBits arch) :
    (pteditCast entry (entryType arch level) .pfn = pteditGetPfn arch entry ↔
      arch = .aarch64 ∨ ∀ i, 40 ≤ i → i < 52 → entry.getLsbD i = false) ∧
    (pteditCast (pteditSetPfn arch entry pfn) (entryType arch level) .pfn = pfn ↔
      arch = .aarch64 ∨ pfn.toNat < 2 ^ 28) := by
  constructor
  · rw [← pfn_eq_pteditCast, pfn_eq_pteditGetPfn_iff]
    cases arch with
    | x86_64 =>
        constructor
        · intro clear
          refine .inr fun i above below => ?_
          have bit := clear (i - 12) (by simp only [pfnFieldBits]; omega)
            (by simp only [pfnBits]; omega)
          rwa [show 12 + (i - 12) = i by omega] at bit
        · intro clear i outside inside
          simp only [pfnFieldBits, pfnBits] at outside inside
          exact clear.resolve_left (by decide) (12 + i) (by omega) (by omega)
    | aarch64 =>
        refine iff_of_true (fun i outside inside => ?_) (.inl rfl)
        simp only [pfnFieldBits, pfnBits] at outside inside
        omega
  · rw [← pfn_eq_pteditCast, pfn_pteditSetPfn_iff entry small]
    cases arch with
    | x86_64 => exact ⟨.inr, fun fits => fits.resolve_left (by decide)⟩
    | aarch64 => exact iff_of_true small (.inl rfl)

theorem pfnReaders_agree_iff_sample :
    pteditCast (pteditSetPfn .x86_64 0 1) (entryType .x86_64 .pte) .pfn = 1 :=
  (@pfnReaders_agree_iff .x86_64 .pte 0 1 (by decide)).2.mpr (.inr (by decide))

/-- An entry of a frame at 1 TiB. -/
theorem pfnReaders_disagree :
    pteditCast (1#64 <<< 40) (entryType .x86_64 .pte) .pfn ≠
        pteditGetPfn .x86_64 (1#64 <<< 40) ∧
      pteditCast (pteditSetPfn .x86_64 0 (1#64 <<< 28)) (entryType .x86_64 .pte) .pfn ≠
        1#64 <<< 28 := by
  decide

end PTEditor
