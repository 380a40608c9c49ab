import PTEditor.Demos.MemmapSpec
import PTEditor.EntryTypes
import PTEditor.Library.Tables

/-!
# From virtual to physical addresses

`demos/virt2phys.c` from the successful `ptedit_init` on: it resolves the address of one of
its variables and prints the physical address.  For a page of 4 KiB that is the address to
which the processor translates.  For one of 2 MiB the bits of the entry below its frame are
or-ed into the result, and `virt2phys_iff` says when they do no harm.
-/

namespace PTEditor

/-! ## The code -/

/-- What the program prints; `ptedit_print_entry` prints an entry. -/
inductive Virt2physLine where
  | page4kb
  | page2mb
  | entry (entry : Word)
  | virtualAddress (address : Word)
  | physicalAddress (phys : Word)
  deriving DecidableEq, Repr

/-- `main`, between `ptedit_init` and `ptedit_cleanup`, with the address of `target`. -/
def virt2phys (lib : Lib) (target : Word) : Sys (List Virt2physLine) := do
  let entry ← pteditResolve lib target 0
  if isNormalPage lib.arch entry.pmd then
    let phys := (pteditGetPfn lib.arch entry.pte <<< 12) ||| (target &&& 0xfff)
    pure [.page4kb, .entry entry.pte, .virtualAddress target, .physicalAddress phys]
  else
    let phys := (pteditGetPfn lib.arch entry.pmd <<< 12) ||| (target &&& 0x1fffff)
    pure [.page2mb, .entry entry.pmd, .virtualAddress target, .physicalAddress phys]

/-! ## The addresses -/

/-- The bits of an entry of a page of 2 MiB that stand below its frame, among them the PAT
bit, where the address has none. -/
def FrameBitsWithin (entry target : Word) : Prop :=
  ∀ i, 12 ≤ i → i < 21 → entry.getLsbD i = true → target.getLsbD i = true

theorem getLsbD_frame (entry : Word) (i : Nat) : (pteditGetPfn .x86_64 entry <<< 12).getLsbD i =
    (decide (12 ≤ i ∧ i < 52) && entry.getLsbD i) := by
  rcases Nat.lt_or_ge i 64 with inside | outside
  · rcases Nat.lt_or_ge i 12 with low | above
    · simp [low, Nat.not_le.mpr low]
    · obtain ⟨j, rfl⟩ := Nat.exists_eq_add_of_le above
      have same : decide (j < 40) = decide (12 ≤ 12 + j ∧ 12 + j < 52) :=
        decide_eq_decide.mpr (by omega)
      have notLow : ¬ 12 + j < 12 := by omega
      rw [BitVec.getLsbD_shiftLeft, Nat.add_sub_cancel_left, getLsbD_pteditGetPfn,
        decide_eq_true inside, decide_eq_false notLow, ← same]
      rfl
  · rw [BitVec.getLsbD_of_ge _ i outside, BitVec.getLsbD_of_ge _ i outside, Bool.and_false]

theorem getLsbD_mappedPage (entry : Word) (shift i : Nat) :
    (mappedPage .x86_64 shift entry).getLsbD i =
      (decide (shift ≤ i ∧ 12 ≤ i ∧ i < 52) && entry.getLsbD i) := by
  rcases Nat.lt_or_ge i 64 with inside | outside
  · rcases Nat.lt_or_ge i shift with low | above
    · have notAbove : ¬ (shift ≤ i ∧ 12 ≤ i ∧ i < 52) := fun within => by omega
      rw [mappedPage, BitVec.getLsbD_shiftLeft, decide_eq_true low, decide_eq_false notAbove]
      simp
    · obtain ⟨j, rfl⟩ := Nat.exists_eq_add_of_le above
      have same : (decide (12 ≤ shift + j) && decide (shift + j < 12 + pfnBits .x86_64)) =
          decide (shift ≤ shift + j ∧ 12 ≤ shift + j ∧ shift + j < 52) := by
        rw [← Bool.decide_and]
        exact decide_eq_decide.mpr (and_iff_right above).symm
      rw [mappedPage, BitVec.getLsbD_shiftLeft, Nat.add_sub_cancel_left,
        BitVec.getLsbD_ushiftRight, BitVec.getLsbD_and, getLsbD_pfnMask, same,
        decide_eq_true inside, decide_eq_false (by omega), Bool.and_comm (entry.getLsbD _)]
      rfl
  · rw [BitVec.getLsbD_of_ge _ i outside, BitVec.getLsbD_of_ge _ i outside, Bool.and_false]

/-- The offset of an address in its page, as the program masks it. -/
theorem getLsbD_offset (target : Word) (shift i : Nat) :
    (target &&& BitVec.ofNat 64 (2 ^ shift - 1)).getLsbD i =
      (decide (i < shift) && target.getLsbD i) := by
  rw [BitVec.getLsbD_and, BitVec.getLsbD_ofNat, Nat.testBit_two_pow_sub_one, Bool.and_comm]
  rcases Nat.lt_or_ge i 64 with inside | outside
  · rw [decide_eq_true inside, Bool.true_and]
  · rw [BitVec.getLsbD_of_ge _ i outside, Bool.and_false, Bool.and_false]

/-- What the processor computes has the bits of the page and those of the offset. -/
theorem getLsbD_pageAndOffset (entry target : Word) (shift i : Nat) :
    (mappedPage .x86_64 shift entry + bitField 0 shift target).getLsbD i =
      ((decide (shift ≤ i ∧ 12 ≤ i ∧ i < 52) && entry.getLsbD i) ||
        (decide (i < 64) && (decide (i < shift) && target.getLsbD i))) := by
  have disjoint : mappedPage .x86_64 shift entry &&& bitField 0 shift target = 0#64 := by
    apply BitVec.eq_of_getLsbD_eq
    intro j _
    rw [BitVec.getLsbD_and, getLsbD_mappedPage, getLsbD_bitField, BitVec.getLsbD_zero]
    rcases Nat.lt_or_ge j shift with low | above
    · have notAbove : ¬ (shift ≤ j ∧ 12 ≤ j ∧ j < 52) := fun within => by omega
      rw [decide_eq_false notAbove, Bool.false_and, Bool.false_and]
    · rw [decide_eq_false (Nat.not_lt.mpr above), Bool.false_and, Bool.and_false, Bool.and_false]
  rw [BitVec.add_eq_or_of_and_eq_zero _ _ disjoint, BitVec.getLsbD_or, getLsbD_mappedPage,
    getLsbD_bitField, Nat.zero_add]

/-- The program's address is the processor's exactly when the entry sets no bit of the
offset that the address does not have. -/
theorem frame_or_offset_iff (entry target : Word) {shift : Nat} (lower : 12 ≤ shift)
    (upper : shift ≤ 52) :
    (pteditGetPfn .x86_64 entry <<< 12) ||| (target &&& BitVec.ofNat 64 (2 ^ shift - 1)) =
        mappedPage .x86_64 shift entry + bitField 0 shift target ↔
      ∀ i, 12 ≤ i → i < shift → entry.getLsbD i = true → target.getLsbD i = true := by
  have bits : ∀ i, ((pteditGetPfn .x86_64 entry <<< 12) |||
      (target &&& BitVec.ofNat 64 (2 ^ shift - 1))).getLsbD i =
        ((decide (12 ≤ i ∧ i < 52) && entry.getLsbD i) ||
          (decide (i < shift) && target.getLsbD i)) := by
    intro i
    rw [BitVec.getLsbD_or, getLsbD_frame, getLsbD_offset target]
  constructor
  · intro same i above below set
    have bit := congrArg (BitVec.getLsbD · i) same
    have notPage : ¬ (shift ≤ i ∧ 12 ≤ i ∧ i < 52) := fun within => by omega
    rw [bits, getLsbD_pageAndOffset, decide_eq_true ⟨above, by omega⟩, decide_eq_true below, set,
      decide_eq_true (show i < 64 by omega), decide_eq_false notPage] at bit
    simpa using bit.symm
  · intro within
    apply BitVec.eq_of_getLsbD_eq
    intro i inside
    rw [bits, getLsbD_pageAndOffset, decide_eq_true inside, Bool.true_and]
    rcases Nat.lt_or_ge i shift with low | above
    · have notPage : ¬ (shift ≤ i ∧ 12 ≤ i ∧ i < 52) := fun within => by omega
      rw [decide_eq_false notPage, decide_eq_true low, Bool.false_and, Bool.false_or,
        Bool.true_and]
      rcases Nat.lt_or_ge i 12 with offset | frame
      · rw [decide_eq_false (by omega), Bool.false_and, Bool.false_or]
      · have kept := within i frame low
        cases set : entry.getLsbD i with
        | false => rw [Bool.and_false, Bool.false_or]
        | true => rw [kept set, Bool.or_true]
    · have page : decide (12 ≤ i ∧ i < 52) = decide (shift ≤ i ∧ 12 ≤ i ∧ i < 52) :=
        decide_eq_decide.mpr (and_iff_right above).symm
      rw [page, decide_eq_false (Nat.not_lt.mpr above)]

/-! ## The run -/

section Runs

variable {sys : System} {lib : Lib} {w : World} {target : Word}

/-- A page of 4 KiB. -/
theorem run_virt2phys_paged (drives : Drives sys lib w) (serves : Serves sys lib w.kernel (0, target))
    (paged : (sys.tables w.kernel (0, target)).Paged) :
    Prog.run (sysHandler sys) (virt2phys lib target) w =
      some ([.page4kb, .entry ((sys.tables w.kernel (0, target)).entry .pte),
        .virtualAddress target,
        .physicalAddress (mappedPage .x86_64 12 ((sys.tables w.kernel (0, target)).entry .pte) +
          bitField 0 12 target)], w) := by
  obtain ⟨r, resolves, fields, -⟩ := run_pteditResolve_paged drives serves paged
  have arch := drives.attached.arch.trans drives.fourLevel.arch
  have pmd : r.pmd = (sys.tables w.kernel (0, target)).entry .pmd := fields .pmd
  have pte : r.pte = (sys.tables w.kernel (0, target)).entry .pte := fields .pte
  have normal : isNormalPage .x86_64 r.pmd = true := by
    rw [isNormalPage_x86, pmd, (paged.table .pmd (by decide)).2]
    rfl
  have phys := (frame_or_offset_iff r.pte target (Nat.le_refl 12) (by decide)).mpr
    fun i above below => absurd above (Nat.not_le.mpr below)
  rw [virt2phys, Prog.run_bind_of_some resolves, arch, if_pos normal, ← pte, ← phys]
  rfl

/-- A page of 2 MiB. -/
theorem run_virt2phys_largePaged (drives : Drives sys lib w)
    (serves : Serves sys lib w.kernel (0, target))
    (paged : (sys.tables w.kernel (0, target)).LargePaged) :
    Prog.run (sysHandler sys) (virt2phys lib target) w =
      some ([.page2mb, .entry ((sys.tables w.kernel (0, target)).entry .pmd),
        .virtualAddress target,
        .physicalAddress ((pteditGetPfn .x86_64 ((sys.tables w.kernel (0, target)).entry .pmd)
          <<< 12) ||| (target &&& 0x1fffff))], w) := by
  obtain ⟨r, resolves, pmd⟩ := run_pteditResolve_largePaged drives serves paged
  have arch := drives.attached.arch.trans drives.fourLevel.arch
  have large : ¬ isNormalPage .x86_64 r.pmd = true := by
    rw [isNormalPage_x86, pmd, paged.large]
    exact Bool.false_ne_true
  rw [virt2phys, Prog.run_bind_of_some resolves, arch, if_neg large, ← pmd]
  rfl

end Runs

/-- **The printed physical address.**  For a page of 4 KiB the program prints the address to
which the processor translates.  For one of 2 MiB it does exactly when every bit of the
entry between the page offset and the frame is one of the address. -/
theorem virt2phys_iff {sys : System} {lib : Lib} {w : World} {target : Word}
    (drives : Drives sys lib w) (serves : Serves sys lib w.kernel (0, target))
    (mapped : (sys.tables w.kernel (0, target)).Paged ∧
        ((sys.tables w.kernel (0, target)).entry .pte).getLsbD 0 = true ∨
      (sys.tables w.kernel (0, target)).LargePaged) :
    ∃ lines phys, Prog.run (sysHandler sys) (virt2phys lib target) w = some (lines, w) ∧
      lines.getLast? = some (.physicalAddress phys) ∧
      (translate .x86_64 w.kernel.mem.read (sys.pagingRoot w.kernel 0) target = some phys ↔
        ((sys.tables w.kernel (0, target)).LargePaged →
          FrameBitsWithin ((sys.tables w.kernel (0, target)).entry .pmd) target)) := by
  rcases mapped with ⟨paged, present⟩ | paged
  · refine ⟨_, _, run_virt2phys_paged drives serves paged, rfl, iff_of_true ?_ fun large => ?_⟩
    · exact paged.translate_eq.trans (if_pos present)
    · have small := (paged.table .pmd (by decide)).2
      rw [large.large] at small
      cases small
  · refine ⟨_, _, run_virt2phys_largePaged drives serves paged, rfl, ?_⟩
    have translates : translate .x86_64 w.kernel.mem.read (sys.pagingRoot w.kernel 0) target =
        some _ := paged.translate_eq
    rw [translates, Option.some_inj, eq_comm]
    have exactly := @frame_or_offset_iff ((sys.tables w.kernel (0, target)).entry .pmd) target 21
      (by decide) (by decide)
    exact exactly.trans ⟨fun within _ => within, fun within => within paged⟩

/-- A page of 2 MiB for address 0, with the PAT bit set. -/
def largePatMem : ByteMem :=
  ByteMem.writeAll (fun _ => 0) [(0x1000, 0x2003), (0x2000, 0x3003), (0x3000, 0x201083)]

def largePatWorld : World := sampleWorld.withMem largePatMem

theorem largePat_largePaged : (sampleSystem.tables largePatWorld.kernel (0, 0)).LargePaged := by
  have tables : Level.pmd.upper.all (fun level => decide
      (PointsToTable ((sampleSystem.tables largePatWorld.kernel (0, 0)).entry level) ∧
        (hardwareFrame ((sampleSystem.tables largePatWorld.kernel (0, 0)).entry level)).toNat <
          2 ^ 28)) = true := by
    decide +kernel
  simp only [List.all_eq_true, decide_eq_true_eq] at tables
  exact
    { leadsTo :=
        { arch := rfl
          definition := rfl
          root := by decide +kernel
          table := fun up member => (tables up member).1
          frame := fun up member => (tables up member).2 }
      maps := by decide +kernel }

/-- The PAT bit makes the program print `0x201000` for the page at `0x200000`. -/
theorem virt2phys_iff_sample :
    ∃ lines phys, Prog.run (sysHandler sampleSystem) (virt2phys sampleKernelLib 0)
        largePatWorld = some (lines, largePatWorld) ∧
      lines.getLast? = some (.physicalAddress phys) ∧
      translate .x86_64 largePatWorld.kernel.mem.read 0x1000 0 ≠ some phys := by
  have root : sampleSystem.pagingRoot largePatWorld.kernel 0 = 0x1000 :=
    pagingRoot_sample largePatMem
  have attached : Attached sampleSystem sampleKernelLib sampleWorld :=
    ⟨rfl, rfl, sampleKernel_loaded⟩
  have drives : Drives sampleSystem sampleKernelLib largePatWorld :=
    ⟨attached.withMem largePatMem, sampleHost_fourLevel, rfl⟩
  obtain ⟨lines, phys, done, last, same⟩ :=
    virt2phys_iff drives (.kernel rfl) (.inr largePat_largePaged)
  rw [root] at same
  refine ⟨lines, phys, done, last, fun translates => ?_⟩
  have within := same.mp translates largePat_largePaged 12 (by decide) (by decide)
    (by decide +kernel)
  cases within

end PTEditor
