import PTEditor.Library.MemoryType
import PTEditor.Library.PteSpec

/-!
# Flags beside the frame number

`ptedit_set_pfn` clears 40 bits of an entry but stores whatever number it gets:
`setPfn_keepsFlags_iff` says for which numbers the flags around the frame number stay,
in an entry and in the PTE that `ptedit_pte_set_pfn` edits.
-/

namespace PTEditor

open Bits ByteMem

/-! ## Flags -/

/-- `PTEDIT_PAGE_BIT_PRESENT`. -/
def pteditPageBitPresent : Nat := 0

/-- `PTEDIT_PAGE_BIT_RW`. -/
def pteditPageBitRw : Nat := 1

/-- `PTEDIT_PAGE_BIT_USER`. -/
def pteditPageBitUser : Nat := 2

/-- `PTEDIT_PAGE_BIT_PKEY_BIT0`, the first of the four bits of a protection key. -/
def pteditPageBitPkeyBit0 : Nat := 59

/-- `PTEDIT_PAGE_BIT_NX`. -/
def pteditPageBitNx : Nat := 63

/-- The present bit, the access rights, the protection key and the no-execute bit. -/
def flagBits : List Nat :=
  [pteditPageBitPresent, pteditPageBitRw, pteditPageBitUser, pteditPageBitPkeyBit0,
    pteditPageBitPkeyBit0 + 1, pteditPageBitPkeyBit0 + 2, pteditPageBitPkeyBit0 + 3,
    pteditPageBitNx]

/-- Two entries agree on the bits below and above the frame number. -/
def SameFlags (first second : Word) : Prop :=
  ∀ i < 64, i < 12 ∨ 52 ≤ i → first.getLsbD i = second.getLsbD i

/-- The bits of a frame number from bit `lowest` on are already set in the entry, at the
positions where they are stored. -/
def Absorbs (lowest : Nat) (entry pfn : Word) : Prop :=
  ∀ i, lowest ≤ i → i < 52 → pfn.getLsbD i = true → entry.getLsbD (12 + i) = true

/-- A frame number that fits its field leaves nothing to absorb. -/
theorem absorbs_of_lt {pfn : Word} (fits : pfn.toNat < 2 ^ 40) (entry : Word) :
    Absorbs 40 entry pfn := by
  intro i above _ set
  rw [toNat_lt_two_pow_iff.mp fits i above] at set
  cases set

section Entries

variable (entry pfn : Word)

/-- Above the frame number a bit stays when the number has no bit there, or the entry had
one already. -/
theorem getLsbD_pteditSetPfn_high_iff {i : Nat} (above : 40 ≤ i) (bound : i < 52) :
    (pteditSetPfn .x86_64 entry pfn).getLsbD (12 + i) = entry.getLsbD (12 + i) ↔
      (pfn.getLsbD i = true → entry.getLsbD (12 + i) = true) := by
  have beyond : ¬ (12 ≤ 12 + i ∧ 12 + i < 12 + pfnBits .x86_64) := by
    simp only [pfnBits]
    omega
  have inside : 12 ≤ 12 + i := by omega
  rw [getLsbD_pteditSetPfn _ _ _ _ (by omega), if_neg beyond, decide_eq_true inside,
    Nat.add_sub_cancel_left, Bool.true_and]
  cases entry.getLsbD (12 + i) <;> cases pfn.getLsbD i <;> decide

theorem sameFlags_pteditSetPfn_iff :
    SameFlags (pteditSetPfn .x86_64 entry pfn) entry ↔ Absorbs 40 entry pfn := by
  constructor
  · intro same i above bound
    have kept := same (12 + i) (by omega) (.inr (by omega))
    exact (getLsbD_pteditSetPfn_high_iff entry pfn above bound).mp kept
  · intro absorbs i bound flag
    rcases flag with low | high
    · exact getLsbD_pteditSetPfn_low _ entry pfn _ low
    · obtain ⟨j, rfl⟩ := Nat.exists_eq_add_of_le (by omega : 12 ≤ i)
      have above : 40 ≤ j := by omega
      have below : j < 52 := by omega
      exact (getLsbD_pteditSetPfn_high_iff entry pfn above below).mpr (absorbs j above below)

/-- Of the flag bits only those from the protection key on lie above the frame number. -/
theorem flagBits_pteditSetPfn_iff :
    (∀ i ∈ flagBits, (pteditSetPfn .x86_64 entry pfn).getLsbD i = entry.getLsbD i) ↔
      Absorbs 47 entry pfn := by
  constructor
  · intro same i above bound
    have listed : ∀ i < 52, 47 ≤ i → 12 + i ∈ flagBits := by decide
    have kept := same (12 + i) (listed i bound above)
    exact (getLsbD_pteditSetPfn_high_iff entry pfn (by omega) bound).mp kept
  · intro absorbs i flag
    have places : ∀ i ∈ flagBits, i < 12 ∨ 59 ≤ i ∧ i < 64 := by decide
    rcases places i flag with low | ⟨high, bound⟩
    · exact getLsbD_pteditSetPfn_low _ entry pfn _ low
    · obtain ⟨j, rfl⟩ := Nat.exists_eq_add_of_le (by omega : 12 ≤ i)
      have below : j < 52 := by omega
      exact (getLsbD_pteditSetPfn_high_iff entry pfn (by omega) below).mpr
        (absorbs j (by omega) below)

/-- The memory type of a 4 KiB page lies below the frame number. -/
theorem pteditExtractMt_pteditSetPfn :
    pteditExtractMt .x86_64 (pteditSetPfn .x86_64 entry pfn) = pteditExtractMt .x86_64 entry := by
  have pat : pteditPageBitPat < 64 := by decide
  have low : ∀ j < 3, patBits pteditPageBitPat j < 12 := by decide
  apply BitVec.eq_of_getLsbD_eq
  intro j _
  change (extractPat _ _).getLsbD j = (extractPat _ _).getLsbD j
  rw [getLsbD_extractPat pat, getLsbD_extractPat pat]
  by_cases inside : j < 3
  · rw [getLsbD_pteditSetPfn_low _ entry pfn _ (low j inside)]
  · rw [decide_eq_false inside, Bool.false_and, Bool.false_and]

end Entries

/-! ## The PTE of an address -/

/-- The implementation in use finds a valid PTE for an address, in a slot of physical
memory. -/
inductive ValidPte (sys : System) (lib : Lib) (k : Kernel) (address : Word) (pid : Pid)
    (slot : Word) : Prop
  | user (access : UserAccess sys lib (sys.userWalk lib k address pid).slots)
      (valid : (sys.userWalk lib k address pid).Valid .pte)
      (place : slot = (sys.userWalk lib k address pid).slot .pte)
  | kernel (selected : lib.implementation = .kernel) (mm : Mm)
      (found : sys.host.getMm (sizeOfInt pid) = some mm)
      (valid : (k.walk sys.host address mm).Valid .pte)
      (place : (k.walk sys.host address mm).ptePtr.map sys.host.virtToPhys = some slot)

/-- `ptedit_pte_set_pfn` leaves the flags of the PTE and its memory type as they were. -/
def KeepsFlags (sys : System) (lib : Lib) (w : World) (address : Word) (pid : Pid)
    (slot pfn : Word) :
    Prop :=
  ∃ w', Prog.run (sysHandler sys) (pteditPteSetPfn lib address pid pfn) w = some ((), w') ∧
    (∀ i ∈ flagBits,
      (w'.kernel.mem.read slot).getLsbD i = (w.kernel.mem.read slot).getLsbD i) ∧
    pteditExtractMt .x86_64 (w'.kernel.mem.read slot) =
      pteditExtractMt .x86_64 (w.kernel.mem.read slot)

section Runs

variable {sys : System} {lib : Lib} {w : World} {address : Word} {pid : Pid} {slot : Word}

/-- Under every implementation an edit replaces the word in the slot of the PTE. -/
theorem ValidPte.run_pteditPteEdit (pte : ValidPte sys lib w.kernel address pid slot)
    (attached : Attached sys lib w) (fits : lib.pagingDefinition.Fits) (edit : Word → Word) :
    Prog.run (sysHandler sys) (pteditPteEdit lib address pid edit) w =
      some ((), w.withMem (w.kernel.mem.write slot (edit (w.kernel.mem.read slot)))) := by
  cases pte with
  | user access valid place =>
      rw [place]
      exact PTEditor.run_pteditPteEdit attached fits access valid edit
  | kernel selected mm found valid place =>
      obtain ⟨pointer, here, rfl⟩ := Option.map_eq_some_iff.mp place
      exact run_pteditPteEdit_kernel attached selected found valid here edit

theorem keepsFlags_iff (pte : ValidPte sys lib w.kernel address pid slot)
    (attached : Attached sys lib w) (x86 : lib.arch = .x86_64) (fits : lib.pagingDefinition.Fits)
    (pfn : Word) :
    KeepsFlags sys lib w address pid slot pfn ↔ Absorbs 47 (w.kernel.mem.read slot) pfn := by
  have done := pte.run_pteditPteEdit attached fits fun entry => pteditSetPfn lib.arch entry pfn
  rw [x86] at done
  have stored : (w.withMem (w.kernel.mem.write slot (pteditSetPfn .x86_64 (w.kernel.mem.read slot)
      pfn))).kernel.mem.read slot = pteditSetPfn .x86_64 (w.kernel.mem.read slot) pfn :=
    read_write_self _ _ _
  have flags := flagBits_pteditSetPfn_iff (w.kernel.mem.read slot) pfn
  have edits : pteditPteSetPfn lib address pid pfn =
      pteditPteEdit lib address pid fun entry => pteditSetPfn .x86_64 entry pfn := by
    unfold pteditPteSetPfn
    rw [x86]
  unfold KeepsFlags
  rw [edits]
  constructor
  · rintro ⟨w', done', kept, -⟩
    obtain rfl := (Prod.mk.inj (Option.some.inj (done.symm.trans done'))).2
    rw [stored] at kept
    exact flags.mp kept
  · intro absorbs
    refine ⟨_, done, ?_, ?_⟩
    · rw [stored]
      exact flags.mpr absorbs
    · rw [stored]
      exact pteditExtractMt_pteditSetPfn _ _

end Runs

/-- **Flags beside the frame number.**  Storing a number keeps the bits around the frame
number exactly when each of its bits from bit 40 on is set in the entry already, and the
present bit, the access rights, the protection key, the no-execute bit and the memory type
of a PTE exactly when each of its bits from bit 47 on is. -/
theorem setPfn_keepsFlags_iff {sys : System} {lib : Lib} {w : World} {address : Word} {pid : Pid}
    {slot : Word} (attached : Attached sys lib w) (x86 : lib.arch = .x86_64)
    (fits : lib.pagingDefinition.Fits) (pte : ValidPte sys lib w.kernel address pid slot)
    (entry pfn : Word) :
    (SameFlags (pteditSetPfn .x86_64 entry pfn) entry ↔ Absorbs 40 entry pfn) ∧
    (KeepsFlags sys lib w address pid slot pfn ↔ Absorbs 47 (w.kernel.mem.read slot) pfn) :=
  ⟨sameFlags_pteditSetPfn_iff entry pfn, keepsFlags_iff pte attached x86 fits pfn⟩

theorem sample_validPte : ValidPte sampleSystem sampleLib sampleWorld.kernel 0 0 0x4000 :=
  .user (sample_access _) (by decide +kernel) (by decide +kernel)

theorem setPfn_keepsFlags_iff_sample :
    SameFlags (pteditSetPfn .x86_64 0x5003 6) 0x5003 ∧
      KeepsFlags sampleSystem sampleLib sampleWorld 0 0 0x4000 6 := by
  have both := setPfn_keepsFlags_iff sample_attached rfl PteditPagingDefinition.x86_64_fits
    sample_validPte 0x5003 6
  have nothing : ∀ lowest, 40 ≤ lowest → ∀ entry, Absorbs lowest entry 6 := fun lowest high entry i
    above => absorbs_of_lt (by decide) entry i (by omega)
  exact ⟨both.1.mpr (nothing 40 (by omega) _), both.2.mpr (nothing 47 (by omega) _)⟩

/-- Frame number `1 << 51` makes a page non-executable. -/
theorem setPfn_setsNx :
    ValidPte sampleSystem sampleLib sampleWorld.kernel 0 0 0x4000 ∧
    ¬ SameFlags (pteditSetPfn .x86_64 0x5003 (1#64 <<< 51)) 0x5003 ∧
    ¬ KeepsFlags sampleSystem sampleLib sampleWorld 0 0 0x4000 (1#64 <<< 51) := by
  have entry : sampleWorld.kernel.mem.read 0x4000 = 0x5003 := by decide +kernel
  refine ⟨sample_validPte, fun same => ?_, fun kept => ?_⟩
  · exact absurd (same 63 (by decide) (.inr (by decide))) (by decide)
  · have absorbs := (keepsFlags_iff sample_validPte sample_attached rfl
      PteditPagingDefinition.x86_64_fits _).mp kept
    rw [entry] at absorbs
    exact absurd (absorbs 51 (by decide) (by decide) (by decide)) (by decide)

end PTEditor
