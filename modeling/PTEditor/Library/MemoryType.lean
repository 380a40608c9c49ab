import PTEditor.EntryTypes
import PTEditor.Library.PteditSpec

/-!
# Memory types

The functions of `ptedit.c` on the memory-type register (`IA32_PAT` on x86_64,
`MAIR_EL1` on aarch64) and on the bits of an entry that select one of its eight
types.  A function that evaluates a shift by the width of its operand or more has no
result, `none`.
-/

namespace PTEditor

open Bits Sys

/-- `unsigned char`, and the `char` that `ptedit_get_mt` returns. -/
abbrev UChar : Type := BitVec 8

/-! ## The register -/

section Register

variable (lib : Lib)

/-- `ptedit_get_mts`. -/
def pteditGetMts : Sys Word := do
  let (_, mt) ← ioctl lib.fd .getPat 0 (fun _ => 0)
  pure (mt 0)

/-- `ptedit_set_mts`. -/
def pteditSetMts (mts : Word) : Sys Unit := do
  let _ ← ioctl lib.fd .setPat mts (fun _ => 0)
  pure ()

/-- The constant that the source shifts to a memory type, an `int`. -/
def mtBits : Arch → Pid
  | .x86_64 => 7
  | .aarch64 => 0xff

/-- What `ptedit_get_mt` computes from the register. -/
def mtOf (arch : Arch) (mts : Word) (mt : UChar) : Option UChar := do
  let shifted ← shr mts (mt.toNat * 8)
  pure ((shifted &&& sizeOfInt (mtBits arch)).setWidth 8)

/-- `ptedit_get_mt`. -/
def pteditGetMt (mt : UChar) : Sys (Option UChar) := do
  let mts ← pteditGetMts lib
  pure (mtOf lib.arch mts mt)

/-- What `ptedit_set_mt` makes of the register.  The mask is an `int`, shifted and
complemented before it is converted. -/
def mtsWith (arch : Arch) (mts : Word) (mt value : UChar) : Option Word := do
  let mask ← shl (mtBits arch) (mt.toNat * 8)
  let cleared := mts &&& sizeOfInt (~~~mask)
  let shifted ← shl (value.setWidth 64) (mt.toNat * 8)
  pure (cleared ||| shifted)

/-- `ptedit_set_mt`. -/
def pteditSetMt (mt value : UChar) : Sys (Option Unit) := do
  let mts ← pteditGetMts lib
  match mtsWith lib.arch mts mt value with
  | none => pure none
  | some mts => do
      pteditSetMts lib mts
      pure (some ())

/-- The test that `ptedit_find_mt` makes for each memory type. -/
def hasMt (arch : Arch) (mts : Word) (type : UChar) (i : Nat) : Bool :=
  match arch with
  | .x86_64 => (mts >>> (i * 8)) &&& 7 = type.setWidth 64
  | .aarch64 =>
      if (mts >>> (i * 8)) &&& 0xff = type.setWidth 64 then
        true
      else
        let plow : UChar := ((mts >>> (i * 8)) &&& 0xf).setWidth 8
        let phigh : UChar := (((mts >>> (i * 8)) >>> 4) &&& 0xf).setWidth 8
        plow = phigh ∧ plow = type

/-- `ptedit_find_mt`. -/
def pteditFindMt (type : UChar) : Sys UChar := do
  let mts ← pteditGetMts lib
  pure (collect 8 (hasMt lib.arch mts type) 8)

/-- `__builtin_ffs`. -/
def builtinFfs (word : Pid) : Int :=
  match first word with
  | none => 0
  | some i => i + 1

/-- `ptedit_find_first_mt`. -/
def pteditFindFirstMt (type : UChar) : Sys Int := do
  let found ← pteditFindMt lib type
  pure (builtinFfs (found.setWidth 32) - 1)

end Register

/-! ## The bits of an entry -/

/-- `PTEDIT_PAGE_BIT_PWT`. -/
def pteditPageBitPwt : Nat := 3

/-- `PTEDIT_PAGE_BIT_PCD`. -/
def pteditPageBitPcd : Nat := 4

/-- `PTEDIT_PAGE_BIT_PAT`. -/
def pteditPageBitPat : Nat := 7

/-- `PTEDIT_PAGE_BIT_PAT_LARGE`. -/
def pteditPageBitPatLarge : Nat := 12

/-- What both apply functions do on x86_64, with the bit that holds the PAT bit. -/
def applyPat (pat : Nat) (entry : Word) (mt : UChar) : Word :=
  let bits := (1#64 <<< pteditPageBitPwt) ||| (1#64 <<< pteditPageBitPcd) ||| (1#64 <<< pat)
  let entry := entry &&& ~~~bits
  let entry := if mt &&& 1 ≠ 0 then entry ||| (1#64 <<< pteditPageBitPwt) else entry
  let entry := if mt &&& 2 ≠ 0 then entry ||| (1#64 <<< pteditPageBitPcd) else entry
  if mt &&& 4 ≠ 0 then entry ||| (1#64 <<< pat) else entry

/-- What both apply functions do on aarch64. -/
def applyMair (entry : Word) (mt : UChar) : Word :=
  let mt : Pid := (mt.setWidth 32 &&& 7) <<< 2
  (entry &&& sizeOfInt (~~~0x1c)) ||| sizeOfInt mt

/-- `ptedit_apply_mt`. -/
def pteditApplyMt : Arch → Word → UChar → Word
  | .x86_64 => applyPat pteditPageBitPat
  | .aarch64 => applyMair

/-- `ptedit_apply_mt_huge`. -/
def pteditApplyMtHuge : Arch → Word → UChar → Word
  | .x86_64 => applyPat pteditPageBitPatLarge
  | .aarch64 => applyMair

/-- `!!(entry & (1ull << bit))`. -/
def testBit (entry : Word) (bit : Nat) : Pid :=
  if entry &&& (1#64 <<< bit) ≠ 0 then 1 else 0

/-- What both extract functions return on x86_64. -/
def extractPat (pat : Nat) (entry : Word) : UChar :=
  (testBit entry pteditPageBitPwt ||| (testBit entry pteditPageBitPcd <<< 1) |||
    (testBit entry pat <<< 2)).setWidth 8

/-- What both extract functions return on aarch64. -/
def extractMair (entry : Word) : UChar := ((entry >>> 2) &&& 7).setWidth 8

/-- `ptedit_extract_mt`. -/
def pteditExtractMt : Arch → Word → UChar
  | .x86_64 => extractPat pteditPageBitPat
  | .aarch64 => extractMair

/-- `ptedit_extract_mt_huge`. -/
def pteditExtractMtHuge : Arch → Word → UChar
  | .x86_64 => extractPat pteditPageBitPatLarge
  | .aarch64 => extractMair

/-! ## The register bit by bit -/

/-- The number of bits of a memory type. -/
def mtWidth : Arch → Nat
  | .x86_64 => 3
  | .aarch64 => 8

/-- Memory type `i` of the register. -/
def mtField (arch : Arch) (mts : Word) (i : Nat) : UChar :=
  (mts.extractLsb' (8 * i) (mtWidth arch)).setWidth 8

section Fields

variable (arch : Arch) (mts : Word)

theorem mtWidth_le : mtWidth arch ≤ 8 := by
  cases arch <;> decide

theorem getLsbD_mtBits (i : Nat) : (mtBits arch).getLsbD i = decide (i < mtWidth arch) := by
  have low : ∀ i < 32, (mtBits arch).getLsbD i = decide (i < mtWidth arch) := by
    cases arch <;> decide
  by_cases inside : i < 32
  · exact low i inside
  · have width := mtWidth_le arch
    have outside : ¬ i < mtWidth arch := by omega
    rw [BitVec.getLsbD_of_ge _ _ (by omega), decide_eq_false outside]

theorem getLsbD_mtField (i j : Nat) :
    (mtField arch mts i).getLsbD j =
      (decide (j < mtWidth arch) && mts.getLsbD (8 * i + j)) := by
  have width := mtWidth_le arch
  rw [mtField, BitVec.getLsbD_setWidth, BitVec.getLsbD_extractLsb']
  by_cases inside : j < mtWidth arch
  · have bound : j < 8 := by omega
    simp [inside, bound]
  · simp [inside]

/-- `ptedit_get_mt` reads a memory type of the register; from index 8 on it shifts too
far. -/
theorem mtOf_eq (mt : UChar) :
    mtOf arch mts mt = if mt.toNat < 8 then some (mtField arch mts mt.toNat) else none := by
  unfold mtOf
  by_cases inside : mt.toNat < 8
  · rw [if_pos inside, shr_of_lt (by omega)]
    refine congrArg some ?_
    apply BitVec.eq_of_getLsbD_eq
    intro j bound
    have low : j < 64 := by omega
    have small : (mtBits arch).msb = false := by cases arch <;> rfl
    rw [getLsbD_mtField, BitVec.getLsbD_setWidth, BitVec.getLsbD_and, BitVec.getLsbD_ushiftRight,
      sizeOfInt, BitVec.signExtend_eq_setWidth_of_msb_false small, BitVec.getLsbD_setWidth,
      getLsbD_mtBits, Nat.mul_comm]
    simp [bound, low, Bool.and_comm]
  · rw [if_neg inside, shr, if_neg (by omega)]
    rfl

/-- The bits of the register that the mask of `ptedit_set_mt` keeps: above bit 31 they
follow bit 31 of the complemented `int`. -/
def keptByMask (mt i : Nat) : Bool :=
  if i < 32 then
    !(decide (8 * mt ≤ i) && decide (i < 8 * mt + mtWidth arch))
  else
    decide (8 * mt + mtWidth arch ≤ 31)

theorem mtsWith_of_lt {mt : UChar} (low : mt.toNat < 4) (value : UChar) :
    ∃ new, mtsWith arch mts mt value = some new ∧ ∀ i < 64,
      new.getLsbD i = ((mts.getLsbD i && keptByMask arch mt.toNat i) ||
        (decide (8 * mt.toNat ≤ i) && value.getLsbD (i - 8 * mt.toNat))) := by
  have width := mtWidth_le arch
  unfold mtsWith
  rw [shl_of_lt (by omega), shl_of_lt (by omega)]
  refine ⟨_, rfl, fun i bound => ?_⟩
  have mask : ∀ j < 32, (mtBits arch <<< (mt.toNat * 8)).getLsbD j =
      (decide (8 * mt.toNat ≤ j) && decide (j < 8 * mt.toNat + mtWidth arch)) := by
    intro j inside
    rw [BitVec.getLsbD_shiftLeft, getLsbD_mtBits, Nat.mul_comm]
    by_cases above : 8 * mt.toNat ≤ j
    · have notBelow : ¬ j < 8 * mt.toNat := by omega
      have within : decide (j - 8 * mt.toNat < mtWidth arch) =
          decide (j < 8 * mt.toNat + mtWidth arch) := decide_eq_decide.mpr (by omega)
      rw [within, decide_eq_true inside, decide_eq_false notBelow, decide_eq_true above]
      rfl
    · have below : j < 8 * mt.toNat := by omega
      rw [decide_eq_true below, decide_eq_false above, Bool.not_true, Bool.and_false,
        Bool.false_and, Bool.false_and]
  have kept : (sizeOfInt (~~~(mtBits arch <<< (mt.toNat * 8)))).getLsbD i =
      keptByMask arch mt.toNat i := by
    rw [sizeOfInt, BitVec.getLsbD_signExtend, keptByMask]
    by_cases inside : i < 32
    · rw [if_pos inside, if_pos inside, BitVec.getLsbD_not, mask i inside]
      simp [bound, inside]
    · have sign : 8 * mt.toNat ≤ 31 := by omega
      have flip : (!decide (31 < 8 * mt.toNat + mtWidth arch)) =
          decide (8 * mt.toNat + mtWidth arch ≤ 31) := by
        rw [← decide_not]
        exact decide_eq_decide.mpr (by omega)
      rw [if_neg inside, if_neg inside, BitVec.msb_eq_getLsbD_last, BitVec.getLsbD_not,
        mask 31 (by omega), decide_eq_true sign, decide_eq_true bound, Bool.true_and,
        Bool.true_and, flip]
      rfl
  rw [BitVec.getLsbD_or, BitVec.getLsbD_and, kept, BitVec.getLsbD_shiftLeft, Nat.mul_comm,
    BitVec.getLsbD_setWidth]
  by_cases above : 8 * mt.toNat ≤ i
  · have inside : i - 8 * mt.toNat < 64 := by omega
    have notBelow : ¬ i < 8 * mt.toNat := by omega
    simp [above, bound, inside, notBelow]
  · simp [above]

/-- From index 4 on the mask is shifted by the width of an `int` or more. -/
theorem mtsWith_of_le {mt : UChar} (high : 4 ≤ mt.toNat) (value : UChar) :
    mtsWith arch mts mt value = none := by
  rw [mtsWith, shl_of_le (by omega)]
  rfl

end Fields

/-! ## The bits of an entry one by one -/

theorem testBit_eq (entry : Word) {bit : Nat} (inside : bit < 64) :
    testBit entry bit = if entry.getLsbD bit then 1 else 0 := by
  by_cases set : entry.getLsbD bit = true
  · rw [testBit, if_pos ((and_one_shl_ne_zero_iff inside).mpr set), if_pos set]
  · rw [testBit, if_neg (mt (and_one_shl_ne_zero_iff inside).mp set), if_neg set]

/-- The three bits of an entry that select a memory type. -/
def patBits (pat : Nat) (j : Nat) : Nat :=
  if j = 0 then pteditPageBitPwt else if j = 1 then pteditPageBitPcd else pat

theorem getLsbD_extractPat {pat : Nat} (inside : pat < 64) (entry : Word) (j : Nat) :
    (extractPat pat entry).getLsbD j = (decide (j < 3) && entry.getLsbD (patBits pat j)) := by
  have table : ∀ pwt pcd large : Bool, ∀ j < 8,
      (((if pwt then (1 : Pid) else 0) ||| ((if pcd then (1 : Pid) else 0) <<< 1) |||
        ((if large then (1 : Pid) else 0) <<< 2)).setWidth 8).getLsbD j =
      (decide (j < 3) && if j = 0 then pwt else if j = 1 then pcd else large) := by
    decide
  by_cases bound : j < 8
  · rw [extractPat, testBit_eq entry (by decide : pteditPageBitPwt < 64),
      testBit_eq entry (by decide : pteditPageBitPcd < 64), testBit_eq entry inside,
      table _ _ _ j bound, patBits]
    by_cases first : j = 0
    · rw [if_pos first, if_pos first]
    · by_cases second : j = 1
      · rw [if_neg first, if_neg first, if_pos second, if_pos second]
      · rw [if_neg first, if_neg first, if_neg second, if_neg second]
  · have outside : ¬ j < 3 := by omega
    rw [BitVec.getLsbD_of_ge _ _ (by omega), decide_eq_false outside, Bool.false_and]

theorem getLsbD_applyPat (pat : Nat) (entry : Word) (mt : UChar) {i : Nat} (bound : i < 64) :
    (applyPat pat entry mt).getLsbD i =
      (((entry.getLsbD i && !(decide (i = pteditPageBitPwt) || decide (i = pteditPageBitPcd) ||
          decide (i = pat)) ||
        (mt.getLsbD 0 && decide (i = pteditPageBitPwt))) ||
        (mt.getLsbD 1 && decide (i = pteditPageBitPcd))) ||
        (mt.getLsbD 2 && decide (i = pat))) := by
  have selects : ∀ j < 8, decide (mt &&& (1#8 <<< j) ≠ 0) = mt.getLsbD j := by
    intro j inside
    by_cases set : mt.getLsbD j = true
    · rw [decide_eq_true ((and_one_shl_ne_zero_iff inside).mpr set), set]
    · have unset : ¬ (mt &&& (1#8 <<< j) ≠ 0) :=
        fun selected => set ((and_one_shl_ne_zero_iff inside).mp selected)
      rw [decide_eq_false unset, Bool.eq_false_iff.mpr set]
  have first : decide (mt &&& 1 ≠ 0) = mt.getLsbD 0 := selects 0 (by omega)
  have second : decide (mt &&& 2 ≠ 0) = mt.getLsbD 1 := selects 1 (by omega)
  have third : decide (mt &&& 4 ≠ 0) = mt.getLsbD 2 := selects 2 (by omega)
  dsimp only [applyPat]
  rw [getLsbD_ite_or, getLsbD_ite_or, getLsbD_ite_or, BitVec.getLsbD_and, BitVec.getLsbD_not,
    BitVec.getLsbD_or, BitVec.getLsbD_or, getLsbD_one_shl bound, getLsbD_one_shl bound,
    getLsbD_one_shl bound, first, second, third, decide_eq_true bound, Bool.true_and]

/-- The bits of a small memory type. -/
theorem getLsbD_of_le_seven {type : UChar} (small : type.toNat ≤ 7) {j : Nat} (high : 3 ≤ j) :
    type.getLsbD j = false :=
  (toNat_lt_two_pow_iff (n := 3)).mp (by omega) j high

/-- The extract and apply functions of x86_64 share the three bits of a memory type, of which
the third may not be one of the first two. -/
theorem patView {pat : Nat} (inside : pat < 64) (pwt : pat ≠ pteditPageBitPwt)
    (pcd : pat ≠ pteditPageBitPcd) :
    View (extractPat pat) (applyPat pat) (fun _ => True) (patBits pat) 3 where
  reads := getLsbD_extractPat inside
  writes := by
    intro entry mt _ j low
    have position : patBits pat j < 64 := by
      unfold patBits pteditPageBitPwt pteditPageBitPcd
      split
      · omega
      · split <;> omega
    have three : ¬ 3 = pat := fun same => pwt same.symm
    have four : ¬ 4 = pat := fun same => pcd same.symm
    rw [getLsbD_applyPat pat entry mt position]
    unfold patBits
    rcases (by omega : j = 0 ∨ j = 1 ∨ j = 2) with rfl | rfl | rfl
    · simp [three, pteditPageBitPwt, pteditPageBitPcd]
    · simp [four, pteditPageBitPwt, pteditPageBitPcd]
    · simp [pwt, pcd]
  keeps := by
    intro entry mt _ i bound outside
    have first : ¬ i = pteditPageBitPwt := outside 0 (by decide)
    have second : ¬ i = pteditPageBitPcd := outside 1 (by decide)
    have third : ¬ i = pat := outside 2 (by decide)
    rw [getLsbD_applyPat pat entry mt bound]
    simp [first, second, third]
  accepts_get := fun _ => trivial

/-- What is applied is extracted. -/
theorem extractPat_applyPat {pat : Nat} (inside : pat < 64) (pwt : pat ≠ pteditPageBitPwt)
    (pcd : pat ≠ pteditPageBitPcd) (entry : Word) {mt : UChar} (small : mt.toNat ≤ 7) :
    extractPat pat (applyPat pat entry mt) = mt :=
  (patView inside pwt pcd).get_set entry trivial (by omega)

theorem pteditExtractMt_pteditApplyMt (entry : Word) {mt : UChar} (small : mt.toNat ≤ 7) :
    pteditExtractMt .x86_64 (pteditApplyMt .x86_64 entry mt) = mt :=
  extractPat_applyPat (by decide) (by decide) (by decide) entry small

theorem pteditExtractMtHuge_pteditApplyMtHuge (entry : Word) {mt : UChar} (small : mt.toNat ≤ 7) :
    pteditExtractMtHuge .x86_64 (pteditApplyMtHuge .x86_64 entry mt) = mt :=
  extractPat_applyPat (by decide) (by decide) (by decide) entry small

/-! ## Runs -/

/-- What `GET_PAT` reports: on x86_64 the lower half is an `int`, which fills the upper
half with its sign. -/
def System.mts (sys : System) (k : Kernel) : Word :=
  match sys.host.arch with
  | .x86_64 =>
      sizeOfInt (k.memoryTypes.extractLsb' 0 32) |||
        (sizeOfInt (k.memoryTypes.extractLsb' 32 32) <<< 32)
  | .aarch64 => k.memoryTypes

/-- The world with another memory-type register. -/
def World.withMts (w : World) (mts : Word) : World :=
  { w with kernel := { w.kernel with memoryTypes := mts } }

theorem Attached.withMts {sys : System} {lib : Lib} {w : World} (attached : Attached sys lib w)
    (mts : Word) : Attached sys lib (w.withMts mts) :=
  ⟨attached.device, attached.arch, attached.loaded.1, attached.loaded.2⟩

/-- Both halves of a word together. -/
theorem halves_append (mts : Word) :
    intOfSize ((mts >>> 32) &&& 0xffffffff) ++ intOfSize (mts &&& 0xffffffff) = mts := by
  have ones : ∀ i < 32, (0xffffffff : Word).getLsbD i = true := by decide
  apply BitVec.eq_of_getLsbD_eq
  intro i bound
  rw [BitVec.getLsbD_append]
  by_cases low : i < 32
  · rw [if_pos low, intOfSize, BitVec.getLsbD_setWidth, BitVec.getLsbD_and, ones i low]
    simp [low]
  · have inside : i - 32 < 32 := by omega
    rw [if_neg low, intOfSize, BitVec.getLsbD_setWidth, BitVec.getLsbD_and, ones _ inside,
      BitVec.getLsbD_ushiftRight, Nat.add_sub_of_le (by omega)]
    simp [inside]

/-- Bit 31 belongs to entry 3. -/
theorem getLsbD_31_of_types {mts : Word} (types : ∀ i < 8, (byte i mts).toNat ≤ 7) :
    mts.getLsbD 31 = false := by
  have bit := getLsbD_of_le_seven (types 3 (by omega)) (j := 7) (by omega)
  rw [getLsbD_byte] at bit
  exact bit

/-- What `GET_PAT` reports is the register, unless the sign reaches the upper half. -/
theorem System.mts_eq {sys : System} {k : Kernel}
    (positive : sys.host.arch = .x86_64 → k.memoryTypes.getLsbD 31 = false) :
    sys.mts k = k.memoryTypes := by
  unfold System.mts
  cases arch : sys.host.arch with
  | aarch64 => rfl
  | x86_64 =>
      have sign := positive arch
      apply BitVec.eq_of_getLsbD_eq
      intro i bound
      simp only [BitVec.getLsbD_or, sizeOfInt, BitVec.getLsbD_signExtend,
        BitVec.getLsbD_extractLsb', BitVec.getLsbD_shiftLeft, BitVec.msb_eq_getLsbD_last,
        Nat.zero_add, sign]
      by_cases low : i < 32
      · simp [low, bound]
      · have high : i - 32 < 32 := by omega
        have inside : i - 32 < 64 := by omega
        have back : 32 + (i - 32) = i := by omega
        simp [low, high, inside, bound, back]

/-- `ptedit_get_mt` returns `type` for index `mt`. -/
def ReadsMt (sys : System) (lib : Lib) (w : World) (mt type : UChar) : Prop :=
  Prog.run (sysHandler sys) (pteditGetMt lib mt) w = some (some type, w)

section Runs

variable {sys : System} {lib : Lib} {w : World}

theorem run_getPat (s : CallState) :
    Prog.run (kernelHandler sys.host sys.copy) (DeviceIoctl.getPat sys.host) s =
      some (0, s.reply sys.copy (fun _ => sys.mts s.kernel) 8) := by
  unfold DeviceIoctl.getPat System.mts
  cases sys.host.arch with
  | x86_64 => rfl
  | aarch64 => rfl

/-- `SET_PAT` programs every value as it is. -/
theorem run_setPat (mts : Word) (s : CallState) :
    Prog.run (kernelHandler sys.host sys.copy) (DeviceIoctl.setPat sys.host mts) s =
      some (0, { s with kernel := { s.kernel with memoryTypes := mts } }) := by
  have word := halves_append mts
  unfold DeviceIoctl.setPat
  cases sys.host.arch with
  | x86_64 =>
      exact congrArg (fun mts => some ((0 : Int),
        { s with kernel := { s.kernel with memoryTypes := mts } })) word
  | aarch64 => rfl

theorem run_pteditGetMts (attached : Attached sys lib w) :
    Prog.run (sysHandler sys) (pteditGetMts lib) w = some (sys.mts w.kernel, w) := by
  rw [pteditGetMts, Prog.run_bind, run_ioctl attached, System.deviceIoctl, deviceIoctl, run_getPat]
  refine congrArg (fun mts => some (mts, w)) ?_
  exact sys.reply_whole ⟨w.kernel, fun _ => 0, w.user⟩ (by decide) (by decide) _

theorem run_pteditSetMts (attached : Attached sys lib w) (mts : Word) :
    Prog.run (sysHandler sys) (pteditSetMts lib mts) w = some ((), w.withMts mts) := by
  rw [pteditSetMts, Prog.run_bind, run_ioctl attached, System.deviceIoctl, deviceIoctl, run_setPat]
  rfl

theorem run_pteditGetMt (attached : Attached sys lib w) (mt : UChar) :
    Prog.run (sysHandler sys) (pteditGetMt lib mt) w =
      some (mtOf lib.arch (sys.mts w.kernel) mt, w) := by
  rw [pteditGetMt, Prog.run_bind_of_some (run_pteditGetMts attached)]
  rfl

theorem readsMt_iff (attached : Attached sys lib w) (mt type : UChar) :
    ReadsMt sys lib w mt type ↔
      mt.toNat < 8 ∧ mtField lib.arch (sys.mts w.kernel) mt.toNat = type := by
  rw [ReadsMt, run_pteditGetMt attached, mtOf_eq]
  by_cases inside : mt.toNat < 8
  · simp [inside]
  · simp [inside]

theorem run_pteditSetMt (attached : Attached sys lib w) (mt value : UChar) :
    Prog.run (sysHandler sys) (pteditSetMt lib mt value) w =
      match mtsWith lib.arch (sys.mts w.kernel) mt value with
      | none => some (none, w)
      | some mts => some (some (), w.withMts mts) := by
  rw [pteditSetMt, Prog.run_bind_of_some (run_pteditGetMts attached)]
  cases mtsWith lib.arch (sys.mts w.kernel) mt value with
  | none => rfl
  | some mts => exact Prog.run_bind_of_some (run_pteditSetMts attached mts)

theorem run_pteditFindMt (attached : Attached sys lib w) (type : UChar) :
    Prog.run (sysHandler sys) (pteditFindMt lib type) w =
      some (collect 8 (hasMt lib.arch (sys.mts w.kernel) type) 8, w) := by
  rw [pteditFindMt, Prog.run_bind_of_some (run_pteditGetMts attached)]
  rfl

theorem run_pteditFindFirstMt (attached : Attached sys lib w) (type : UChar) :
    Prog.run (sysHandler sys) (pteditFindFirstMt lib type) w =
      some (builtinFfs ((collect 8 (hasMt lib.arch (sys.mts w.kernel) type) 8).setWidth 32) - 1,
        w) := by
  rw [pteditFindFirstMt, Prog.run_bind_of_some (run_pteditFindMt attached type)]
  rfl

end Runs

end PTEditor
