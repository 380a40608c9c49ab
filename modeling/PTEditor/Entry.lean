import Mathlib.Order.Basic
import Mathlib.Algebra.Group.Nat.Defs
import PTEditor.Foundation.Prog

/-!
# Page-table entries and paging definitions

The data both halves of PTEditor share: the entry bit-fields of `ptedit.h`, the
entry structure and the valid masks of `module/pteditor.h`, and the paging
definition that the user-space library walks by.
-/

namespace PTEditor

/-- `size_t`, `unsigned long` and pointers. -/
abbrev Word : Type := BitVec 64

/-- `pid_t` and the other 32-bit `int`s. -/
abbrev Pid : Type := BitVec 32

/-- The conversion of an `int` to `size_t`. -/
def sizeOfInt (value : Pid) : Word := value.signExtend 64

/-- The conversion of a `size_t` to `int`. -/
def intOfSize (value : Word) : Pid := value.setWidth 32

/-- An `int` survives the conversion to `size_t` and back. -/
theorem intOfSize_sizeOfInt (value : Pid) : intOfSize (sizeOfInt value) = value := by
  apply BitVec.eq_of_getLsbD_eq
  intro i bound
  have inside : i < 64 := by omega
  simp only [intOfSize, sizeOfInt, BitVec.getLsbD_setWidth, BitVec.getLsbD_signExtend, bound,
    inside, decide_true, Bool.true_and, if_true]

/-- The architectures PTEditor is built for. -/
inductive Arch where
  | x86_64
  | aarch64
  deriving DecidableEq, Repr

/-- A program that only reads words: what both walkers are before it is said
how a word is read. -/
abbrev ReadProg (α : Type) : Type := Prog Word (fun _ => Word) α

/-- Read the word at an address. -/
def readWord (a : Word) : ReadProg Word := Prog.perform a

/-! ## Entry bit-fields -/

/-- The bit-field of `width` bits that starts at bit `offset`. -/
def bitField (offset width : Nat) (entry : Word) : Word :=
  (entry.extractLsb' offset width).setWidth 64

/-- `PTEDIT_PAGE_PRESENT`. -/
def pteditPagePresent : Arch → Word
  | .x86_64 => 1
  | .aarch64 => 3

namespace PteditPgd

/- `ptedit_p4d_t`, `ptedit_pud_t` and `ptedit_pmd_t` are further names of
`ptedit_pgd_t`, and `ptedit_pte_t` has these three fields in the same places. -/

/-- `ptedit_cast(entry, ptedit_pgd_t).present`. -/
def present : Arch → Word → Word
  | .x86_64 => bitField 0 1
  | .aarch64 => bitField 0 2

/-- `ptedit_cast(entry, ptedit_pgd_t).size`, a field of the x86_64 layout only. -/
def size : Word → Word := bitField 7 1

/-- `ptedit_cast(entry, ptedit_pgd_t).pfn`. -/
def pfn : Arch → Word → Word
  | .x86_64 => bitField 12 28
  | .aarch64 => bitField 12 36

end PteditPgd

/-- The test `ptedit_cast(entry, …).present == PTEDIT_PAGE_PRESENT`. -/
def Present (arch : Arch) (entry : Word) : Prop :=
  PteditPgd.present arch entry = pteditPagePresent arch

instance (arch : Arch) (entry : Word) : Decidable (Present arch entry) :=
  inferInstanceAs (Decidable (_ = _))

/-- The size bit of a middle-level entry, which the walker tests on x86_64 only. -/
def Large (arch : Arch) (entry : Word) : Prop :=
  arch = .x86_64 ∧ PteditPgd.size entry ≠ 0

instance (arch : Arch) (entry : Word) : Decidable (Large arch entry) :=
  inferInstanceAs (Decidable (_ ∧ _))

theorem getLsbD_bitField (offset width i : Nat) (entry : Word) :
    (bitField offset width entry).getLsbD i =
      (decide (i < 64) && (decide (i < width) && entry.getLsbD (offset + i))) := by
  simp only [bitField, BitVec.getLsbD_setWidth, BitVec.getLsbD_extractLsb']

/-- A one-bit field holds the bit. -/
theorem bitField_one (offset : Nat) (entry : Word) :
    bitField offset 1 entry = if entry.getLsbD offset then 1 else 0 := by
  apply BitVec.eq_of_getLsbD_eq
  intro i bound
  rw [getLsbD_bitField]
  by_cases first : i = 0
  · subst first
    cases entry.getLsbD offset <;> rfl
  · have notOne : ¬ i < 1 := by omega
    cases entry.getLsbD offset <;> simp [notOne, first]

@[simp] theorem present_x86 (entry : Word) : Present .x86_64 entry ↔ entry.getLsbD 0 = true := by
  change bitField 0 1 entry = 1 ↔ _
  rw [bitField_one]
  cases entry.getLsbD 0 <;> decide

@[simp] theorem large_x86 (entry : Word) : Large .x86_64 entry ↔ entry.getLsbD 7 = true := by
  unfold Large PteditPgd.size
  rw [bitField_one]
  cases entry.getLsbD 7 <;> simp

/-- A field that drops only zero bits of a wider one equals it. -/
theorem bitField_eq_of_lt {offset narrow wide : Nat} {entry : Word} (le : narrow ≤ wide)
    (small : (bitField offset wide entry).toNat < 2 ^ narrow) :
    bitField offset narrow entry = bitField offset wide entry := by
  apply BitVec.eq_of_getLsbD_eq
  intro i _
  by_cases inside : i < narrow
  · have inWide : i < wide := by omega
    simp only [getLsbD_bitField, inside, inWide]
  · have high : (bitField offset wide entry).getLsbD i = false := by
      rw [BitVec.getLsbD]
      exact Nat.testBit_lt_two_pow (Nat.lt_of_lt_of_le small
        (Nat.pow_le_pow_right (by omega) (by omega)))
    rw [high, getLsbD_bitField]
    simp [inside]

/-! ## Page-frame numbers -/

/-- The number of frame-number bits that `ptedit_set_pfn` and `ptedit_get_pfn` mask. -/
def pfnBits : Arch → Nat
  | .x86_64 => 40
  | .aarch64 => 36

/-- The mask `((1ull << pfnBits) - 1) << 12`. -/
def pfnMask (arch : Arch) : Word := ((1#64 <<< pfnBits arch) - 1) <<< 12

/-- `ptedit_set_pfn`. -/
def pteditSetPfn (arch : Arch) (pte pfn : Word) : Word :=
  (pte &&& ~~~pfnMask arch) ||| (pfn <<< 12)

/-- `ptedit_get_pfn`. -/
def pteditGetPfn (arch : Arch) (pte : Word) : Word :=
  (pte &&& pfnMask arch) >>> 12

/-! ## Levels and the entry structure -/

/-- The five levels, from the root down. -/
inductive Level where
  | pgd
  | p4d
  | pud
  | pmd
  | pte
  deriving DecidableEq, Repr

namespace Level

/-- The levels in the order of a walk. -/
def all : List Level := [.pgd, .p4d, .pud, .pmd, .pte]

/-- The position of a level below the root. -/
def rank : Level → Nat
  | .pgd => 0
  | .p4d => 1
  | .pud => 2
  | .pmd => 3
  | .pte => 4

/-- `PTEDIT_VALID_MASK_PGD` to `PTEDIT_VALID_MASK_PTE`. -/
def validMask (level : Level) : Word := 1#64 <<< level.rank

/-- The level directly above; the root level has none. -/
def above : Level → Option Level
  | .pgd => none
  | .p4d => some .pgd
  | .pud => some .p4d
  | .pmd => some .pud
  | .pte => some .pmd

theorem mem_all (level : Level) : level ∈ all := by
  cases level <;> decide

theorem all_ordered : all.Pairwise fun a b => rank a < rank b := by
  decide

/-- The levels above a level, from the root down. -/
def upper : Level → List Level
  | .pgd => []
  | .p4d => [.pgd]
  | .pud => [.pgd, .p4d]
  | .pmd => [.pgd, .p4d, .pud]
  | .pte => [.pgd, .p4d, .pud, .pmd]

theorem mem_upper {level up : Level} : up ∈ level.upper ↔ up.rank < level.rank := by
  cases level <;> cases up <;> decide

theorem mem_upper_concat {level up : Level} :
    up ∈ level.upper ++ [level] ↔ up.rank ≤ level.rank := by
  cases level <;> cases up <;> decide

theorem eq_of_rank_eq {first second : Level} (same : first.rank = second.rank) :
    first = second := by
  cases first <;> cases second <;> first | rfl | cases same

theorem above_mem_upper {level up : Level} (above : level.above = some up) :
    up ∈ level.upper := by
  cases level <;> cases above <;> decide

/-- The mask that accumulates the bits of the levels in `P`, in the order of a walk. -/
def maskOf (P : Level → Prop) [DecidablePred P] : Word :=
  all.foldl (fun mask level => if P level then mask ||| level.validMask else mask) 0

theorem maskOf_and_validMask (P : Level → Prop) [DecidablePred P] (level : Level) :
    maskOf P &&& level.validMask ≠ 0 ↔ P level := by
  have bits : ∀ a b c d e : Bool,
      let mask := [(Level.pgd, a), (.p4d, b), (.pud, c), (.pmd, d), (.pte, e)].foldl
        (fun (mask : Word) (bit : Level × Bool) =>
          if bit.2 then mask ||| bit.1.validMask else mask) 0
      (mask &&& Level.pgd.validMask ≠ 0 ↔ a) ∧ (mask &&& Level.p4d.validMask ≠ 0 ↔ b) ∧
      (mask &&& Level.pud.validMask ≠ 0 ↔ c) ∧ (mask &&& Level.pmd.validMask ≠ 0 ↔ d) ∧
      (mask &&& Level.pte.validMask ≠ 0 ↔ e) := by
    decide
  have spec := bits (P .pgd) (P .p4d) (P .pud) (P .pmd) (P .pte)
  simp only [List.foldl_cons, List.foldl_nil, decide_eq_true_eq] at spec
  obtain ⟨pgd, p4d, pud, pmd, pte⟩ := spec
  cases level with
  | pgd => exact pgd
  | p4d => exact p4d
  | pud => exact pud
  | pmd => exact pmd
  | pte => exact pte

/-- No other bit is set. -/
theorem maskOf_lt (P : Level → Prop) [DecidablePred P] : (maskOf P).toNat < 32 := by
  have bits : ∀ a b c d e : Bool,
      ([(Level.pgd, a), (.p4d, b), (.pud, c), (.pmd, d), (.pte, e)].foldl
        (fun (mask : Word) (bit : Level × Bool) =>
          if bit.2 then mask ||| bit.1.validMask else mask) 0).toNat < 32 := by
    decide
  have spec := bits (P .pgd) (P .p4d) (P .pud) (P .pmd) (P .pte)
  simp only [List.foldl_cons, List.foldl_nil, decide_eq_true_eq] at spec
  exact spec

theorem maskOf_congr {P Q : Level → Prop} [DecidablePred P] [DecidablePred Q]
    (same : ∀ level, P level ↔ Q level) : maskOf P = maskOf Q := by
  simp only [maskOf, same]

/-- What the next level of a walk adds to the mask. -/
theorem maskOf_upper_concat (P : Level → Prop) [DecidablePred P] (level : Level) :
    maskOf (fun other => other ∈ level.upper ++ [level] ∧ P other) =
      if P level then maskOf (fun other => other ∈ level.upper ∧ P other) ||| level.validMask
      else maskOf fun other => other ∈ level.upper ∧ P other := by
  cases level <;> simp [maskOf, all, upper]

end Level

/-- `ptedit_entry_t`. -/
structure PteditEntry where
  pid : Word
  vaddr : Word
  pgd : Word
  p4d : Word
  pud : Word
  pmd : Word
  pte : Word
  valid : Word
  deriving DecidableEq, Repr

namespace PteditEntry

/-- The entry field of a level. -/
def field (entry : PteditEntry) : Level → Word
  | .pgd => entry.pgd
  | .p4d => entry.p4d
  | .pud => entry.pud
  | .pmd => entry.pmd
  | .pte => entry.pte

/-- The test `entry.valid & PTEDIT_VALID_MASK_…` of a level. -/
def Valid (entry : PteditEntry) (level : Level) : Prop :=
  entry.valid &&& level.validMask ≠ 0

instance (entry : PteditEntry) (level : Level) : Decidable (entry.Valid level) :=
  inferInstanceAs (Decidable (_ ≠ _))

/-- Store a level's entry. -/
def withField (entry : PteditEntry) (value : Word) : Level → PteditEntry
  | .pgd => { entry with pgd := value }
  | .p4d => { entry with p4d := value }
  | .pud => { entry with pud := value }
  | .pmd => { entry with pmd := value }
  | .pte => { entry with pte := value }

/-- `entry.valid |= PTEDIT_VALID_MASK_…`. -/
def withValid (entry : PteditEntry) (level : Level) : PteditEntry :=
  { entry with valid := entry.valid ||| level.validMask }

/-- What `memset(&entry, 0, sizeof(entry))` leaves once address and pid are stored. -/
def cleared (vaddr pid : Word) : PteditEntry :=
  { pid, vaddr, pgd := 0, p4d := 0, pud := 0, pmd := 0, pte := 0, valid := 0 }

theorem not_valid_of_zero {entry : PteditEntry} (zero : entry.valid = 0) (level : Level) :
    ¬ entry.Valid level := by
  simp [Valid, zero]

end PteditEntry

/-! ## Paging definitions -/

/-- `ptedit_paging_definition_t`.  The widths are the `int`s of the source, which
only hold small non-negative values. -/
structure PteditPagingDefinition where
  hasPgd : Nat
  hasP4d : Nat
  hasPud : Nat
  hasPmd : Nat
  hasPt : Nat
  pgdEntries : Nat
  p4dEntries : Nat
  pudEntries : Nat
  pmdEntries : Nat
  ptEntries : Nat
  pageOffset : Nat
  deriving DecidableEq, Repr

namespace PteditPagingDefinition

/-- The definition `ptedit_init` stores on x86_64. -/
def x86_64 : PteditPagingDefinition :=
  { hasPgd := 1, hasP4d := 0, hasPud := 1, hasPmd := 1, hasPt := 1,
    pgdEntries := 9, p4dEntries := 0, pudEntries := 9, pmdEntries := 9, ptEntries := 9,
    pageOffset := 12 }

/-- The definition `ptedit_init` stores on aarch64 with 16 KiB pages. -/
def aarch64Pages16k : PteditPagingDefinition :=
  { hasPgd := 1, hasP4d := 0, hasPud := 1, hasPmd := 1, hasPt := 1,
    pgdEntries := 11, p4dEntries := 0, pudEntries := 11, pmdEntries := 11, ptEntries := 11,
    pageOffset := 14 }

/-- The definition `ptedit_init` stores on aarch64 with any other page size. -/
def aarch64Pages4k : PteditPagingDefinition :=
  { hasPgd := 1, hasP4d := 0, hasPud := 0, hasPmd := 1, hasPt := 1,
    pgdEntries := 9, p4dEntries := 0, pudEntries := 0, pmdEntries := 9, ptEntries := 9,
    pageOffset := 12 }

/-- The flag `has_…` of a level. -/
def has (d : PteditPagingDefinition) : Level → Nat
  | .pgd => d.hasPgd
  | .p4d => d.hasP4d
  | .pud => d.hasPud
  | .pmd => d.hasPmd
  | .pte => d.hasPt

/-- The index width of a level, `…_entries`. -/
def width (d : PteditPagingDefinition) : Level → Nat
  | .pgd => d.pgdEntries
  | .p4d => d.p4dEntries
  | .pud => d.pudEntries
  | .pmd => d.pmdEntries
  | .pte => d.ptEntries

/-- The bit of an address where the index of a level starts. -/
def shift (d : PteditPagingDefinition) : Level → Nat
  | .pgd => d.pageOffset + d.ptEntries + d.pmdEntries + d.pudEntries + d.p4dEntries
  | .p4d => d.pageOffset + d.ptEntries + d.pmdEntries + d.pudEntries
  | .pud => d.pageOffset + d.ptEntries + d.pmdEntries
  | .pmd => d.pageOffset + d.ptEntries
  | .pte => d.pageOffset

/-- The index of a level as `ptedit_update_user_ext` computes it, in `size_t`. -/
def index (d : PteditPagingDefinition) (level : Level) (address : Word) : Word :=
  (address >>> d.shift level) % (1#64 <<< d.width level)

/-- The index of a level as `ptedit_resolve_user_ext` computes it: stored in an
`int`, and converted back where it is multiplied by the entry size. -/
def intIndex (d : PteditPagingDefinition) (level : Level) (address : Word) : Word :=
  sizeOfInt (intOfSize (d.index level address))

/-- The widths fit an address, and each index fits an `int`: no shift of the
index arithmetic reaches the width of its operand. -/
structure Fits (d : PteditPagingDefinition) : Prop where
  total : d.shift .pgd + d.pgdEntries ≤ 63
  narrow : ∀ level, d.width level < 31

/-- The index field of an address at a level: bits `shift` up to `shift + width`. -/
def indexField (d : PteditPagingDefinition) (level : Level) (address : Word) : Word :=
  bitField (d.shift level) (d.width level) address

theorem toNat_bitField (offset width : Nat) (address : Word) :
    (bitField offset width address).toNat = address.toNat / 2 ^ offset % 2 ^ width % 2 ^ 64 := by
  rw [bitField, BitVec.toNat_setWidth, BitVec.extractLsb'_toNat, Nat.shiftRight_eq_div_pow]

theorem index_eq_indexField {d : PteditPagingDefinition} (fits : d.Fits) (level : Level)
    (address : Word) : d.index level address = d.indexField level address := by
  have narrow := fits.narrow level
  have power : 2 ^ d.width level < 2 ^ 64 := Nat.pow_lt_pow_right (by omega) (by omega)
  apply BitVec.eq_of_toNat_eq
  rw [index, indexField, toNat_bitField, BitVec.toNat_umod, BitVec.toNat_ushiftRight,
    Nat.shiftRight_eq_div_pow, BitVec.toNat_shiftLeft, Nat.shiftLeft_eq,
    show (1#64).toNat = 1 from rfl, Nat.one_mul, Nat.mod_eq_of_lt power]
  exact (Nat.mod_eq_of_lt (Nat.lt_trans (Nat.mod_lt _ (Nat.two_pow_pos _)) power)).symm

theorem index_lt {d : PteditPagingDefinition} (fits : d.Fits) (level : Level)
    (address : Word) : (d.index level address).toNat < 2 ^ 31 := by
  have narrow := fits.narrow level
  have power : 2 ^ d.width level < 2 ^ 31 := Nat.pow_lt_pow_right (by omega) (by omega)
  have below : address.toNat / 2 ^ d.shift level % 2 ^ d.width level < 2 ^ d.width level :=
    Nat.mod_lt _ (Nat.two_pow_pos _)
  rw [index_eq_indexField fits, indexField, toNat_bitField]
  exact Nat.lt_of_le_of_lt (Nat.mod_le _ _) (Nat.lt_trans below power)

/-- The two copies of the index arithmetic agree: an index fits an `int`. -/
theorem intIndex_eq {d : PteditPagingDefinition} (fits : d.Fits) (level : Level)
    (address : Word) : d.intIndex level address = d.index level address := by
  have small := index_lt fits level address
  apply BitVec.eq_of_toNat_eq
  rw [intIndex, sizeOfInt, intOfSize, BitVec.signExtend_eq_setWidth_of_msb_false]
  · rw [BitVec.toNat_setWidth, BitVec.toNat_setWidth]
    omega
  · rw [BitVec.msb_eq_decide, BitVec.toNat_setWidth]
    simp only [decide_eq_false_iff_not, Nat.not_le]
    omega

end PteditPagingDefinition

end PTEditor
