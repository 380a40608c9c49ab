import PTEditor.Library.MemoryType
import PTEditor.Library.UserSpec

/-!
# Programming one memory type

`ptedit_set_mt` builds its mask as an `int`: `setMt_x86_iff` says that this shifts too
far from index 4 on, and `setMt_aarch64_iff` that the mask of index 3 also clears the
upper half of the register.
-/

namespace PTEditor

open Bits

section Fields

variable (arch : Arch) (mts : Word)

/-- The register after `ptedit_set_mt` evaluates its mask: the memory type is stored, and
the other bytes are kept, the upper four of them only if the mask is not negative before
its complement. -/
theorem mtsWith_fields {mt : UChar} (low : mt.toNat < 4) (value : UChar) :
    ∃ new, mtsWith arch mts mt value = some new ∧
      (∀ j < 8, new.getLsbD (8 * mt.toNat + j) =
        ((mts.getLsbD (8 * mt.toNat + j) && decide (mtWidth arch ≤ j)) || value.getLsbD j)) ∧
      ∀ other < 8, other ≠ mt.toNat → ∀ j < 8, new.getLsbD (8 * other + j) =
        (mts.getLsbD (8 * other + j) &&
          (decide (other < 4) || decide (8 * mt.toNat + mtWidth arch ≤ 31))) := by
  have width := mtWidth_le arch
  obtain ⟨new, done, bits⟩ := mtsWith_of_lt arch mts low value
  refine ⟨new, done, fun j bound => ?_, fun other inside apart j bound => ?_⟩
  · have half : 8 * mt.toNat + j < 32 := by omega
    have above : 8 * mt.toNat ≤ 8 * mt.toNat + j := by omega
    have kept : keptByMask arch mt.toNat (8 * mt.toNat + j) = decide (mtWidth arch ≤ j) := by
      rw [keptByMask, if_pos half, decide_eq_true above, Bool.true_and, ← decide_not]
      exact decide_eq_decide.mpr (by omega)
    rw [bits _ (by omega), kept, decide_eq_true above, Nat.add_sub_cancel_left, Bool.true_and]
  · have kept : keptByMask arch mt.toNat (8 * other + j) =
        (decide (other < 4) || decide (8 * mt.toNat + mtWidth arch ≤ 31)) := by
      rw [keptByMask]
      by_cases half : 8 * other + j < 32
      · have quarter : other < 4 := by omega
        rw [if_pos half, decide_eq_true quarter, Bool.true_or]
        by_cases above : 8 * mt.toNat ≤ 8 * other + j
        · have beyond : ¬ 8 * other + j < 8 * mt.toNat + mtWidth arch := by omega
          rw [decide_eq_false beyond, Bool.and_false, Bool.not_false]
        · rw [decide_eq_false above, Bool.false_and, Bool.not_false]
      · have quarter : ¬ other < 4 := by omega
        rw [if_neg half, decide_eq_false quarter, Bool.false_or]
    have stored : (decide (8 * mt.toNat ≤ 8 * other + j) &&
        value.getLsbD (8 * other + j - 8 * mt.toNat)) = false := by
      by_cases above : 8 * mt.toNat ≤ 8 * other + j
      · rw [BitVec.getLsbD_of_ge _ _ (by omega), Bool.and_false]
      · rw [decide_eq_false above, Bool.false_and]
    rw [bits _ (by omega), kept, stored, Bool.or_false]

end Fields

section Runs

variable (sys : System) (lib : Lib) (w : World)

/-- `ptedit_set_mt` evaluates no shift that is too far, `ptedit_get_mt` then returns the
new type, and it returns what it returned before for every other index. -/
def SetsOneType (mt value : UChar) : Prop :=
  ∃ w', Prog.run (sysHandler sys) (pteditSetMt lib mt value) w = some (some (), w') ∧
    ReadsMt sys lib w' mt value ∧
    ∀ other, other ≠ mt → ∀ type, ReadsMt sys lib w' other type ↔ ReadsMt sys lib w other type

/-- `ptedit_set_mt` evaluates no shift that is too far, stores its value in one byte of
the register and keeps every other byte. -/
def SetsOneByte (mt value : UChar) : Prop :=
  ∃ w', Prog.run (sysHandler sys) (pteditSetMt lib mt value) w = some (some (), w') ∧
    byte mt.toNat w'.kernel.memoryTypes = value ∧
    ∀ other < 8, other ≠ mt.toNat →
      byte other w'.kernel.memoryTypes = byte other w.kernel.memoryTypes

end Runs

section Results

variable {sys : System} {lib : Lib} {w : World}

/-- From index 4 on `ptedit_set_mt` has no result. -/
theorem run_pteditSetMt_of_le (attached : Attached sys lib w) {mt : UChar} (high : 4 ≤ mt.toNat)
    (value : UChar) :
    Prog.run (sysHandler sys) (pteditSetMt lib mt value) w = some (none, w) := by
  rw [run_pteditSetMt attached, mtsWith_of_le _ _ high]

/-- **Programming one PAT entry.**  With the register's bytes at most 7, `ptedit_set_mt`
programs one entry and no other exactly for the indices 0 to 3. -/
theorem setMt_x86_iff (attached : Attached sys lib w) (x86 : lib.arch = .x86_64)
    (types : ∀ i < 8, (byte i w.kernel.memoryTypes).toNat ≤ 7) (mt : UChar) {value : UChar}
    (small : value.toNat ≤ 7) : SetsOneType sys lib w mt value ↔ mt.toNat ≤ 3 := by
  have before31 := getLsbD_31_of_types types
  have before : sys.mts w.kernel = w.kernel.memoryTypes := System.mts_eq fun _ => before31
  constructor
  · rintro ⟨w', done, -⟩
    by_contra high
    rw [run_pteditSetMt_of_le attached (by omega)] at done
    cases done
  · intro low
    obtain ⟨new, done, own, others⟩ :=
      mtsWith_fields lib.arch w.kernel.memoryTypes (by omega : mt.toNat < 4) value
    rw [x86] at own others
    have after : sys.mts (w.withMts new).kernel = new := by
      refine System.mts_eq fun _ => ?_
      -- entry 3 is at most 7 whether it is stored or kept
      by_cases stored : mt.toNat = 3
      · have bit := own 7 (by omega)
        rw [stored, getLsbD_of_le_seven small (by omega)] at bit
        exact bit.trans (by rw [before31]; rfl)
      · have bit := others 3 (by omega) (fun same => stored same.symm) 7 (by omega)
        exact bit.trans (by rw [before31]; rfl)
    refine ⟨w.withMts new, ?_, ?_, fun other apart type => ?_⟩
    · rw [run_pteditSetMt attached, before, done]
    · rw [readsMt_iff (attached.withMts new), after]
      refine ⟨by omega, ?_⟩
      apply BitVec.eq_of_getLsbD_eq
      intro j bound
      rw [getLsbD_mtField, x86]
      by_cases field : j < 3
      · have outside : ¬ 3 ≤ j := by omega
        rw [own j bound, mtWidth, decide_eq_true field, decide_eq_false outside, Bool.and_false,
          Bool.false_or, Bool.true_and]
      · rw [mtWidth, decide_eq_false field, getLsbD_of_le_seven small (by omega), Bool.false_and]
    · rw [readsMt_iff (attached.withMts new), readsMt_iff attached, after, before]
      refine and_congr_right fun inside => ?_
      have different : other.toNat ≠ mt.toNat := fun same => apart (BitVec.eq_of_toNat_eq same)
      have fits : 8 * mt.toNat + mtWidth .x86_64 ≤ 31 := by
        simp only [mtWidth]
        omega
      have same : mtField lib.arch new other.toNat =
          mtField lib.arch w.kernel.memoryTypes other.toNat := by
        apply BitVec.eq_of_getLsbD_eq
        intro j bound
        rw [getLsbD_mtField, getLsbD_mtField, others _ inside different j bound,
          decide_eq_true fits, Bool.or_true, Bool.and_true]
      rw [same]

theorem setMt_x86_iff_sample : SetsOneType sampleSystem sampleLib sampleWorld 3 1 :=
  (setMt_x86_iff sample_attached rfl (by decide) 3 (by decide)).mpr (by decide)

/-- The mask of index 4 shifts a 32-bit `int` by 32. -/
theorem setMt_x86_shiftsTooFar :
    (∀ i < 8, (byte i sampleWorld.kernel.memoryTypes).toNat ≤ 7) ∧
    Prog.run (sysHandler sampleSystem) (pteditSetMt sampleLib 4 1) sampleWorld =
      some (none, sampleWorld) ∧
    ¬ SetsOneType sampleSystem sampleLib sampleWorld 4 1 := by
  have done := run_pteditSetMt_of_le sample_attached (by decide : 4 ≤ (4 : UChar).toNat) 1
  refine ⟨by decide, done, ?_⟩
  rintro ⟨w', defined, -⟩
  rw [done] at defined
  cases defined

/-- **Programming one MAIR entry.**  `ptedit_set_mt` stores one byte and keeps the others
exactly for the indices 0 to 2, and for index 3 when the upper half of the register is
zero. -/
theorem setMt_aarch64_iff (attached : Attached sys lib w) (arm : lib.arch = .aarch64)
    (mt value : UChar) :
    SetsOneByte sys lib w mt value ↔
      mt.toNat ≤ 2 ∨ mt.toNat = 3 ∧ w.kernel.memoryTypes.toNat < 2 ^ 32 := by
  have before : sys.mts w.kernel = w.kernel.memoryTypes := by
    refine System.mts_eq fun x86 => ?_
    rw [← attached.arch, arm] at x86
    exact absurd x86 (by decide)
  by_cases low : mt.toNat < 4
  case neg =>
    refine iff_of_false ?_ (by omega)
    rintro ⟨w', done, -⟩
    rw [run_pteditSetMt_of_le attached (by omega)] at done
    cases done
  obtain ⟨new, done, own, others⟩ := mtsWith_fields lib.arch w.kernel.memoryTypes low value
  rw [arm] at own others
  have runs : Prog.run (sysHandler sys) (pteditSetMt lib mt value) w =
      some (some (), w.withMts new) := by
    rw [run_pteditSetMt attached, before, done]
  have stored : byte mt.toNat new = value := by
    apply BitVec.eq_of_getLsbD_eq
    intro j bound
    have inField : ¬ mtWidth .aarch64 ≤ j := by
      simp only [mtWidth]
      omega
    rw [getLsbD_byte, own j bound, decide_eq_false inField, decide_eq_true bound, Bool.and_false,
      Bool.false_or, Bool.true_and]
  constructor
  · rintro ⟨w', done', -, kept⟩
    obtain rfl := (Prod.mk.inj (Option.some.inj (runs.symm.trans done'))).2
    by_cases fits : mt.toNat ≤ 2
    · exact .inl fits
    · refine .inr ⟨by omega, toNat_lt_two_pow_iff.mpr fun i high => ?_⟩
      by_cases bound : i < 64
      · have quarter : ¬ i / 8 < 4 := by omega
        have wide : ¬ 8 * mt.toNat + mtWidth .aarch64 ≤ 31 := by
          simp only [mtWidth]
          omega
        have cleared := others (i / 8) (by omega) (by omega) (i % 8) (by omega)
        have same := congrArg (BitVec.getLsbD · (i % 8)) (kept (i / 8) (by omega) (by omega))
        have inside : i % 8 < 8 := by omega
        simp only [getLsbD_byte, inside, decide_true, Bool.true_and, World.withMts] at same
        rw [decide_eq_false quarter, decide_eq_false wide, Bool.or_false, Bool.and_false, same,
          Nat.div_add_mod] at cleared
        exact cleared
      · exact BitVec.getLsbD_of_ge _ _ (by omega)
  · intro condition
    refine ⟨w.withMts new, runs, stored, fun other inside apart => byte_congr fun j bound => ?_⟩
    refine (others other inside apart j bound).trans ?_
    rcases condition with fits | ⟨-, small⟩
    · have narrow : 8 * mt.toNat + mtWidth .aarch64 ≤ 31 := by
        simp only [mtWidth]
        omega
      rw [decide_eq_true narrow, Bool.or_true, Bool.and_true]
    · by_cases quarter : other < 4
      · rw [decide_eq_true quarter, Bool.true_or, Bool.and_true]
      · rw [toNat_lt_two_pow_iff.mp small _ (by omega), Bool.false_and]

theorem setMt_aarch64_iff_sample :
    SetsOneByte sampleAarch64 sampleAarch64Lib sampleAarch64World 1 0x44 :=
  (setMt_aarch64_iff sampleAarch64_attached rfl 1 0x44).mpr (.inl (by decide))

/-- Programming index 3 clears the bytes 4 to 7. -/
theorem setMt_aarch64_clearsUpperHalf :
    sampleAarch64World.kernel.memoryTypes = 0x0407050600070106 ∧
    Prog.run (sysHandler sampleAarch64) (pteditSetMt sampleAarch64Lib 3 0xff)
      sampleAarch64World = some (some (), sampleAarch64World.withMts 0x00000000ff070106) ∧
    ¬ SetsOneByte sampleAarch64 sampleAarch64Lib sampleAarch64World 3 0xff := by
  have done : Prog.run (sysHandler sampleAarch64) (pteditSetMt sampleAarch64Lib 3 0xff)
      sampleAarch64World = some (some (), sampleAarch64World.withMts 0x00000000ff070106) := by
    have computed : mtsWith sampleAarch64Lib.arch
        (sampleAarch64.mts sampleAarch64World.kernel) 3 0xff = some 0x00000000ff070106 := by
      decide
    rw [run_pteditSetMt sampleAarch64_attached, computed]
  refine ⟨rfl, done, ?_⟩
  rintro ⟨w', defined, -, kept⟩
  obtain rfl := (Prod.mk.inj (Option.some.inj (done.symm.trans defined))).2
  exact absurd (kept 7 (by decide) (by decide)) (by decide)

end Results

end PTEditor
