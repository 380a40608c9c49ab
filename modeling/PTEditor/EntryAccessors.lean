import PTEditor.Library.MemoryType

/-!
# The accessors of an entry

On x86_64 the frame number and the memory type of an entry are read and written by three
pairs of functions, each of which is a lens (`pfnView`, `patView`).  The frame number and
the memory type of a 4 KiB page lie apart, so that neither pair disturbs the other
(`entryAccessors_independent`).
-/

namespace PTEditor

open Bits

/-- The bits of the memory type of a 4 KiB page. -/
theorem mtView : View (pteditExtractMt .x86_64) (pteditApplyMt .x86_64) (fun _ => True)
    (patBits pteditPageBitPat) 3 :=
  patView (by decide) (by decide) (by decide)

/-- The bits of the memory type of a huge page. -/
theorem mtHugeView : View (pteditExtractMtHuge .x86_64) (pteditApplyMtHuge .x86_64)
    (fun _ => True) (patBits pteditPageBitPatLarge) 3 :=
  patView (by decide) (by decide) (by decide)

theorem disjoint_mt_pfn :
    View.Disjoint (patBits pteditPageBitPat) 3 (fun j => 12 + j) (pfnBits .x86_64) := by
  have low : ∀ j < 3, patBits pteditPageBitPat j < 12 := by decide
  intro j below j' _
  have bound := low j below
  dsimp only
  omega

/-- Of the number that is written as a memory type three bits are kept. -/
theorem get_set_mt {get : Word → UChar} {set : Word → UChar → Word} {position : Nat → Nat}
    (view : View get set (fun _ => True) position 3) (entry : Word) (mt : UChar) :
    get (set entry mt) = mt % 8 := by
  apply BitVec.eq_of_toNat_eq
  rw [view.toNat_get_set entry trivial, BitVec.toNat_umod]
  rfl

/-- An entry differs from another at most in the bits that are listed. -/
def ChangesOnly (positions : List Nat) (before after : Word) : Prop :=
  ∀ i < 64, i ∉ positions → after.getLsbD i = before.getLsbD i

/-- A writer changes the bits of its view only. -/
theorem changesOnly_of_view {v n : Nat} {get : Word → BitVec v} {set : Word → BitVec v → Word}
    {accepts : BitVec v → Prop} {position : Nat → Nat} (view : View get set accepts position n)
    {positions : List Nat} (listed : ∀ j < n, position j ∈ positions) (entry : Word)
    {value : BitVec v} (accepted : accepts value) :
    ChangesOnly positions entry (set entry value) := by
  intro i bound outside
  refine view.keeps entry value accepted i bound fun j below same => outside ?_
  exact same ▸ listed j below

/-- **Independent lenses.**  Each reader returns what its writer stored, storing what was
read changes nothing, the second of two stores wins, a writer changes the bits of its field
only, and the frame number and the memory type of a 4 KiB page are independent. -/
theorem entryAccessors_independent (entry : Word) (m n : UChar) {p q : Word}
    (fits : p.toNat < 2 ^ 40) (fits' : q.toNat < 2 ^ 40) :
    (pteditGetPfn .x86_64 (pteditSetPfn .x86_64 entry p) = p ∧
      pteditSetPfn .x86_64 entry (pteditGetPfn .x86_64 entry) = entry ∧
      pteditSetPfn .x86_64 (pteditSetPfn .x86_64 entry p) q = pteditSetPfn .x86_64 entry q) ∧
    (pteditExtractMt .x86_64 (pteditApplyMt .x86_64 entry m) = m % 8 ∧
      pteditApplyMt .x86_64 entry (pteditExtractMt .x86_64 entry) = entry ∧
      pteditApplyMt .x86_64 (pteditApplyMt .x86_64 entry m) n = pteditApplyMt .x86_64 entry n) ∧
    (pteditExtractMtHuge .x86_64 (pteditApplyMtHuge .x86_64 entry m) = m % 8 ∧
      pteditApplyMtHuge .x86_64 entry (pteditExtractMtHuge .x86_64 entry) = entry ∧
      pteditApplyMtHuge .x86_64 (pteditApplyMtHuge .x86_64 entry m) n =
        pteditApplyMtHuge .x86_64 entry n) ∧
    (ChangesOnly (List.range' 12 40) entry (pteditSetPfn .x86_64 entry p) ∧
      ChangesOnly [3, 4, 7] entry (pteditApplyMt .x86_64 entry m) ∧
      ChangesOnly [3, 4, 12] entry (pteditApplyMtHuge .x86_64 entry m)) ∧
    pteditSetPfn .x86_64 (pteditApplyMt .x86_64 entry m) p =
      pteditApplyMt .x86_64 (pteditSetPfn .x86_64 entry p) m ∧
    pteditGetPfn .x86_64 (pteditApplyMt .x86_64 entry m) = pteditGetPfn .x86_64 entry ∧
    pteditExtractMt .x86_64 (pteditSetPfn .x86_64 entry p) = pteditExtractMt .x86_64 entry := by
  have frame := pfnView .x86_64
  have apart := disjoint_mt_pfn
  have pfnListed : ∀ j < pfnBits .x86_64, 12 + j ∈ List.range' 12 40 := by
    intro j below
    simp only [pfnBits] at below
    exact List.mem_range'_1.mpr ⟨by omega, by omega⟩
  refine ⟨⟨frame.get_set entry fits fits, frame.set_get entry, frame.set_set entry fits fits'⟩,
    ⟨get_set_mt mtView entry m, mtView.set_get entry, mtView.set_set entry trivial trivial⟩,
    ⟨get_set_mt mtHugeView entry m, mtHugeView.set_get entry,
      mtHugeView.set_set entry trivial trivial⟩,
    ⟨changesOnly_of_view frame pfnListed entry fits,
      changesOnly_of_view mtView (by decide) entry trivial,
      changesOnly_of_view mtHugeView (by decide) entry trivial⟩, ?_, ?_, ?_⟩
  · exact mtView.set_comm frame apart entry trivial fits
  · exact mtView.get_set_of_disjoint frame apart entry trivial
  · exact frame.get_set_of_disjoint mtView apart.symm entry fits

/-- An entry of frame 5 with every flag of its upper half set, given frame 7 and the memory
type 6. -/
theorem entryAccessors_independent_sample :
    pteditGetPfn .x86_64 (pteditSetPfn .x86_64 0xfff0000000005fff 7) = 7 ∧
      pteditExtractMt .x86_64 (pteditSetPfn .x86_64 0xfff0000000005fff 7) =
        pteditExtractMt .x86_64 0xfff0000000005fff := by
  obtain ⟨⟨stored, -⟩, -, -, -, -, -, kept⟩ :=
    @entryAccessors_independent 0xfff0000000005fff 6 0 7 0 (by decide) (by decide)
  exact ⟨stored, kept⟩

end PTEditor
