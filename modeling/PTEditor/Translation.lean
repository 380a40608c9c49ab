import PTEditor.Agreement
import PTEditor.Architecture
import PTEditor.EntryTypes
import PTEditor.Foundation.RadixTree
import PTEditor.Library.Shape
import PTEditor.PhysicalPage

/-!
# Address translation

The x86_64 page tables as a `RadixTree` over the address space (`hardwareTree`), and the
physical address they give a virtual one (`translate`): the page of the leaf that the
address lies in, and the offset of the address in that page.

`Walk.Paged` is a walk through three tables to a PTE slot, `Walk.LargePaged` one that ends at
a page of 2 MiB.  There the processor makes the visits of the user-space walker, and
`translate_eq` is the translation.
-/

namespace PTEditor

open ByteMem

/-- An entry that maps a page. -/
def MapsPage (level : Level) (entry : Word) : Prop :=
  entry.getLsbD 0 = true ∧ (level = .pte ∨ MapsLarge level entry)

instance (level : Level) (entry : Word) : Decidable (MapsPage level entry) :=
  inferInstanceAs (Decidable (_ ∧ (_ ∨ _)))

/-- The x86_64 page tables. -/
def hardwareTree (d : PteditPagingDefinition) : RadixTree Level Word Word Word where
  fanout := fun level => 2 ^ d.width level
  span := fun level => 2 ^ d.shift level
  slot := fun _ table i => table + BitVec.ofNat 64 i * 8#64
  next := fun level entry =>
    if NamesTable level entry then some (hardwareFrame entry * 4096#64) else none
  leaf := fun level entry => MapsPage level entry

/-- The leaf that an address lies in. -/
def hardwareLeaf (d : PteditPagingDefinition) (read : Word → Word) (root addr : Word) :
    Option (Level × Word) :=
  (hardwareTree d).find read (hardwareLevels d) root addr.toNat

/-- The physical address that a leaf gives an address. -/
def leafAddress (d : PteditPagingDefinition) (addr : Word) (leaf : Level × Word) : Word :=
  mappedPage .x86_64 (d.shift leaf.1) leaf.2 + bitField 0 (d.shift leaf.1) addr

/-- The physical address of a virtual one. -/
def translate (d : PteditPagingDefinition) (read : Word → Word) (root addr : Word) :
    Option Word :=
  (hardwareLeaf d read root addr).map (leafAddress d addr)

/-- No entry both names a table and maps a page. -/
theorem not_namesTable_of_mapsPage {level : Level} {entry : Word} (maps : MapsPage level entry) :
    ¬ NamesTable level entry := fun names => maps.2.elim names.1 names.2.2

/-- On x86_64 `ptedit_get_pfn` reads the frame that the hardware reads. -/
theorem pteditGetPfn_x86 (entry : Word) : pteditGetPfn .x86_64 entry = hardwareFrame entry := by
  apply BitVec.eq_of_getLsbD_eq
  intro i inside
  rw [getLsbD_pteditGetPfn, hardwareFrame, getLsbD_bitField, decide_eq_true inside, Bool.true_and]
  rfl

section Tree

variable {d : PteditPagingDefinition} {read : Word → Word} {root addr : Word}

theorem hardwareTree_next (level : Level) (entry : Word) : (hardwareTree d).next level entry =
    if NamesTable level entry then some (hardwareFrame entry * 4096#64) else none := rfl

theorem hardwareTree_index (addr : Word) (level : Level) :
    BitVec.ofNat 64 ((hardwareTree d).index level addr.toNat) = d.indexField level addr := by
  apply BitVec.eq_of_toNat_eq
  rw [PteditPagingDefinition.indexField, PteditPagingDefinition.toNat_bitField,
    BitVec.toNat_ofNat]
  rfl

/-- The tree as one address descends it. -/
theorem radix_hardwareTree (addr : Word) :
    (hardwareTree d).radix addr.toNat = hardwareRadix d addr := by
  have slots : ∀ level table, (hardwareTree d).slot level table
      ((hardwareTree d).index level addr.toNat) = table + d.indexField level addr * 8#64 :=
    fun level table => congrArg (table + · * 8#64) (hardwareTree_index addr level)
  unfold RadixTree.radix hardwareRadix
  exact congrArg (fun slot => Radix.mk slot (hardwareTree d).next)
    (funext fun level => funext fun table => slots level table)

/-- The leaf is what the last visit of the walk finds. -/
theorem hardwareLeaf_eq_getLast : hardwareLeaf d read root addr =
    (hardwareWalk d read root addr).getLast?.bind fun visit =>
      if MapsPage visit.level visit.entry then some (visit.level, visit.entry) else none := by
  rw [hardwareLeaf, RadixTree.find_eq_getLast, radix_hardwareTree]
  refine congrArg _ (funext fun visit => if_congr ?_ rfl rfl)
  rw [hardwareTree_next]
  constructor
  · exact fun found => of_decide_eq_true found.2
  · exact fun maps => ⟨if_neg (not_namesTable_of_mapsPage maps), decide_eq_true maps⟩

/-- A memory with the same entries in the visited slots translates alike. -/
theorem translate_congr_read {read' : Word → Word}
    (agree : ∀ visit ∈ hardwareWalk d read root addr, read' visit.slot = read visit.slot) :
    translate d read' root addr = translate d read root addr := by
  have same : hardwareWalk d read' root addr = hardwareWalk d read root addr :=
    Radix.walk_congr_read agree
  rw [translate, translate, hardwareLeaf_eq_getLast, hardwareLeaf_eq_getLast, same]

/-- The slots of a walk from a page-aligned root are aligned. -/
theorem aligned_hardwareWalk (aligned : root.toNat % 4096 = 0) :
    ∀ visit ∈ hardwareWalk d read root addr, Aligned visit.slot := by
  have first : Aligned root := by
    unfold Aligned
    omega
  refine Radix.forall_slot_walk (fun level => first.add (Aligned.mul_eight _)) ?_
  intro up entry next named level
  obtain ⟨-, same⟩ := Option.ite_none_right_eq_some.mp named
  obtain rfl := Option.some.inj same
  have frame : hardwareFrame entry * 4096#64 = hardwareFrame entry * 512#64 * 8#64 := by
    rw [BitVec.mul_assoc]
    rfl
  rw [frame]
  exact (Aligned.mul_eight _).add (Aligned.mul_eight _)

end Tree

/-! ## Walks through tables -/

/-- A four-level walk that comes to a level through tables, the frames of which fit the frame
field that `ptedit.c` reads. -/
structure Walk.LeadsTo (w : Walk) (goal : Level) : Prop where
  arch : w.arch = .x86_64
  definition : w.definition = .x86_64
  root : w.root ≠ 0
  table : ∀ up ∈ goal.upper, PointsToTable (w.entry up)
  frame : ∀ up ∈ goal.upper, (hardwareFrame (w.entry up)).toNat < 2 ^ 28

namespace Walk.LeadsTo

variable {w : Walk} {goal : Level}

theorem entry_eq_read (leads : w.LeadsTo goal) {level : Level} (ne : level ≠ .p4d) :
    w.entry level = w.read (w.slot level) :=
  w.entry_of_exists ((Walk.exists_x86 leads.definition level).mpr ne)

theorem entry_p4d (leads : w.LeadsTo goal) : w.entry .p4d = w.entry .pgd :=
  w.entry_of_not_exists (fun here => (Walk.exists_x86 leads.definition .p4d).mp here rfl) rfl

theorem index_eq (leads : w.LeadsTo goal) (level : Level) : w.definition.intIndex level w.addr =
    PteditPagingDefinition.x86_64.indexField level w.addr := by
  rw [leads.definition,
    PteditPagingDefinition.intIndex_eq PteditPagingDefinition.x86_64_fits,
    PteditPagingDefinition.index_eq_indexField PteditPagingDefinition.x86_64_fits]

theorem slot_pgd (leads : w.LeadsTo goal) : w.slot .pgd =
    w.root + PteditPagingDefinition.x86_64.indexField .pgd w.addr * 8#64 :=
  congrArg (w.root + · * 8#64) (leads.index_eq .pgd)

/-- Below the root the walker reads the slots that the hardware reads. -/
theorem slot_below (leads : w.LeadsTo goal) {level up : Level} (member : up ∈ goal.upper)
    (above : level.above = some up) :
    w.slot level = hardwareSlot level (w.entry up) w.addr := by
  have frame := leads.frame up member
  rw [Walk.slot, above]
  dsimp only
  rw [tableSlot, leads.arch, pfn_eq_hardwareFrame frame, leads.index_eq]
  rfl

theorem next (leads : w.LeadsTo goal) {level : Level} (member : level ∈ goal.upper) :
    (hardwareRadix .x86_64 w.addr).next level (w.entry level) =
      some (hardwareFrame (w.entry level) * 4096#64) := by
  have table := leads.table level member
  have notLarge : ¬ MapsLarge level (w.entry level) := by
    rintro ⟨-, large⟩
    rw [table.2] at large
    cases large
  exact if_pos ⟨Level.ne_pte_of_mem_upper member, table.1, notLarge⟩

/-- The walk from the root. -/
theorem walk_pgd (leads : w.LeadsTo goal) (rest : List Level) :
    (hardwareRadix .x86_64 w.addr).walk w.read (.pgd :: rest) w.root =
      w.visit .pgd :: ((hardwareRadix .x86_64 w.addr).next .pgd (w.entry .pgd)).elim []
        ((hardwareRadix .x86_64 w.addr).walk w.read rest) := by
  have slot : (hardwareRadix .x86_64 w.addr).slot .pgd w.root = w.slot .pgd := leads.slot_pgd.symm
  rw [Radix.walk_cons, slot, ← leads.entry_eq_read (by decide)]
  rfl

/-- The walk from the table that the entry above a level names. -/
theorem walk_below (leads : w.LeadsTo goal) {level up : Level} (member : up ∈ goal.upper)
    (above : level.above = some up) (ne : level ≠ .p4d) (rest : List Level) :
    (hardwareRadix .x86_64 w.addr).walk w.read (level :: rest)
        (hardwareFrame (w.entry up) * 4096#64) =
      w.visit level :: ((hardwareRadix .x86_64 w.addr).next level (w.entry level)).elim []
        ((hardwareRadix .x86_64 w.addr).walk w.read rest) := by
  have slot : (hardwareRadix .x86_64 w.addr).slot level (hardwareFrame (w.entry up) * 4096#64) =
      w.slot level := (leads.slot_below member above).symm
  rw [Radix.walk_cons, slot, ← leads.entry_eq_read ne]
  rfl

/-- To the PMD the processor makes the visits of the walker. -/
theorem hardwareWalk_eq (leads : w.LeadsTo goal) (pud : .pud ∈ goal.upper) :
    hardwareWalk .x86_64 w.read w.root w.addr =
      w.visit .pgd :: w.visit .pud :: (hardwareRadix .x86_64 w.addr).walk w.read [.pmd, .pte]
        (hardwareFrame (w.entry .pud) * 4096#64) := by
  have member : ∀ {level}, level.rank ≤ Level.pud.rank → level ∈ goal.upper :=
    fun higher => Level.mem_upper.mpr (Nat.lt_of_le_of_lt higher (Level.mem_upper.mp pud))
  have below := fun rest => leads.walk_below (member (by decide)) (show Level.pud.above = some .p4d
    from rfl) (by decide) rest
  rw [leads.entry_p4d] at below
  rw [hardwareWalk, show hardwareLevels .x86_64 = [.pgd, .pud, .pmd, .pte] from rfl,
    leads.walk_pgd, leads.next (member (by decide)), Option.elim_some, below, leads.next pud,
    Option.elim_some]

end Walk.LeadsTo

/-- A walk through three tables. -/
structure Walk.Paged (w : Walk) : Prop where
  arch : w.arch = .x86_64
  definition : w.definition = .x86_64
  root : w.root ≠ 0
  table : ∀ level, level ≠ .pte → PointsToTable (w.entry level)
  frame : ∀ level, level ≠ .pte → (hardwareFrame (w.entry level)).toNat < 2 ^ 28

namespace Walk.Paged

variable {w : Walk}

theorem leadsTo (paged : w.Paged) : w.LeadsTo .pte where
  arch := paged.arch
  definition := paged.definition
  root := paged.root
  table := fun up member => paged.table up (Level.ne_pte_of_mem_upper member)
  frame := fun up member => paged.frame up (Level.ne_pte_of_mem_upper member)

theorem reached (paged : w.Paged) (level : Level) : w.Reached level := by
  have present : ∀ up ∈ level.upper, Present w.arch (w.entry up) := by
    intro up member
    rw [paged.arch, present_x86]
    exact (paged.table up (Level.ne_pte_of_mem_upper member)).1
  refine ⟨paged.root, present, fun _ => ?_⟩
  have small : w.pmdEntry.getLsbD 7 = false := (paged.table .pmd (by decide)).2
  rw [paged.arch, large_x86, small]
  exact Bool.false_ne_true

/-- Every level but the folded one is valid. -/
theorem valid_iff (paged : w.Paged) (level : Level) : w.Valid level ↔ level ≠ .p4d := by
  have present : Present w.arch w.pgdEntry := by
    rw [paged.arch, present_x86]
    exact (paged.table .pgd (by decide)).1
  rw [Walk.Valid, Walk.exists_x86 paged.definition]
  exact and_iff_left ⟨paged.reached level, fun _ => present⟩

theorem valid_pte (paged : w.Paged) : w.Valid .pte := (paged.valid_iff .pte).mpr (by decide)

/-- **The processor makes the visits of the walker.** -/
theorem hardwareWalk_eq (paged : w.Paged) :
    hardwareWalk .x86_64 w.read w.root w.addr =
      [w.visit .pgd, w.visit .pud, w.visit .pmd, w.visit .pte] := by
  have leaf : ¬ NamesTable .pte (w.entry .pte) := fun names => names.1 rfl
  have last : (hardwareRadix .x86_64 w.addr).next .pte (w.entry .pte) = none := by
    dsimp only [hardwareRadix]
    exact if_neg leaf
  have leads := paged.leadsTo
  rw [leads.hardwareWalk_eq (by decide), leads.walk_below (by decide) rfl (by decide),
    leads.next (by decide), Option.elim_some, leads.walk_below (by decide) rfl (by decide), last]
  rfl

/-- The leaf of an address with a page table is its PTE. -/
theorem hardwareLeaf_eq (paged : w.Paged) : hardwareLeaf .x86_64 w.read w.root w.addr =
    if (w.entry .pte).getLsbD 0 = true then some (.pte, w.entry .pte) else none := by
  rw [hardwareLeaf_eq_getLast, paged.hardwareWalk_eq]
  exact if_congr (and_iff_left (.inl rfl)) rfl rfl

/-- **What a walk to a page table translates to.** -/
theorem translate_eq (paged : w.Paged) : translate .x86_64 w.read w.root w.addr =
    if (w.entry .pte).getLsbD 0 = true then
      some (mappedPage .x86_64 12 (w.entry .pte) + bitField 0 12 w.addr) else none := by
  rw [translate, paged.hardwareLeaf_eq]
  split <;> rfl

/-- In a memory that keeps the tables the walk still comes to its PTE slot. -/
theorem withRead {read : Word → Word} (paged : w.Paged) (tables : w.SameTables read) :
    (w.withRead read).Paged where
  arch := paged.arch
  definition := paged.definition
  root := paged.root
  table := fun level ne => by
    rw [Walk.entry_withRead tables ne]
    exact paged.table level ne
  frame := fun level ne => by
    rw [Walk.entry_withRead tables ne]
    exact paged.frame level ne

/-- The walk in such a memory reads no other slots. -/
theorem slots_withRead {read : Word → Word} (paged : w.Paged) (tables : w.SameTables read) :
    ∀ a ∈ (w.withRead read).slots, a ∈ w.slots := by
  intro a member
  obtain ⟨level, here, -, same⟩ := (Walk.mem_slots _).mp member
  rw [Walk.slot_withRead tables] at same
  exact w.mem_slots.mpr ⟨level, Walk.exists_withRead.mp here, paged.reached level, same⟩

end Walk.Paged

/-- A walk to an entry of the PMD that maps a page of 2 MiB. -/
structure Walk.LargePaged (w : Walk) : Prop where
  leadsTo : w.LeadsTo .pmd
  maps : MapsPage .pmd (w.entry .pmd)

namespace Walk.LargePaged

variable {w : Walk}

theorem large (paged : w.LargePaged) : (w.entry .pmd).getLsbD 7 = true := by
  rcases paged.maps.2 with pte | ⟨-, large⟩
  · cases pte
  · exact large

theorem hardwareWalk_eq (paged : w.LargePaged) :
    hardwareWalk .x86_64 w.read w.root w.addr = [w.visit .pgd, w.visit .pud, w.visit .pmd] := by
  have last : (hardwareRadix .x86_64 w.addr).next .pmd (w.entry .pmd) = none := by
    dsimp only [hardwareRadix]
    exact if_neg (not_namesTable_of_mapsPage paged.maps)
  have leads := paged.leadsTo
  rw [leads.hardwareWalk_eq (by decide), leads.walk_below (by decide) rfl (by decide), last]
  rfl

/-- **What a walk to a page of 2 MiB translates to.** -/
theorem translate_eq (paged : w.LargePaged) : translate .x86_64 w.read w.root w.addr =
    some (mappedPage .x86_64 21 (w.entry .pmd) + bitField 0 21 w.addr) := by
  have leaf : hardwareLeaf .x86_64 w.read w.root w.addr = some (.pmd, w.entry .pmd) := by
    rw [hardwareLeaf_eq_getLast, paged.hardwareWalk_eq]
    exact if_pos paged.maps
  rw [translate, leaf]
  rfl

end Walk.LargePaged

end PTEditor
