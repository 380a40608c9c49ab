import PTEditor.Foundation.RadixWalk
import PTEditor.Library.Slots

/-!
# The architectural walk

What the x86_64 page-table walk is, independently of the code: `hardwareRadix` says
where the slot of a level lies in a table and which table an entry names, and
`hardwareWalk` lists the visits from a root down.  `hardwareWalk_eq_visits` says
that the walk of `ptedit.c` makes exactly these visits as long as every frame fits
its 28-bit frame field and no PUD entry maps a large page.
-/

namespace PTEditor

open Radix

/-- An entry that maps a large page, at the two levels that allow one. -/
def MapsLarge (level : Level) (entry : Word) : Prop :=
  (level = .pud ∨ level = .pmd) ∧ entry.getLsbD 7 = true

instance (level : Level) (entry : Word) : Decidable (MapsLarge level entry) :=
  inferInstanceAs (Decidable (_ ∧ _))

/-- An entry that names a table of the next level. -/
def NamesTable (level : Level) (entry : Word) : Prop :=
  level ≠ .pte ∧ entry.getLsbD 0 = true ∧ ¬ MapsLarge level entry

instance (level : Level) (entry : Word) : Decidable (NamesTable level entry) :=
  inferInstanceAs (Decidable (_ ∧ _ ∧ _))

/-- The x86_64 page tables as one address descends them. -/
def hardwareRadix (d : PteditPagingDefinition) (addr : Word) : Radix Level Word Word Word where
  slot := fun level table => table + d.indexField level addr * 8#64
  next := fun level entry =>
    if NamesTable level entry then some (hardwareFrame entry * 4096#64) else none

/-- The levels that a paging definition has. -/
def hardwareLevels (d : PteditPagingDefinition) : List Level :=
  Level.all.filter fun level => d.has level ≠ 0

/-- The visits of the architectural walk. -/
def hardwareWalk (d : PteditPagingDefinition) (read : Word → Word) (root addr : Word) :
    List (Visit Level Word Word) :=
  (hardwareRadix d addr).walk read (hardwareLevels d) root

/-- The tables as `ptedit.c` descends them: a 28-bit frame, and a size bit that
counts at the PMD only. -/
def walkerRadix (w : Walk) : Radix Level Word Word Word where
  slot := fun level table => table + w.definition.intIndex level w.addr * pteditEntrySize
  next := fun level entry =>
    if level ≠ .pte ∧ Present w.arch entry ∧ (level = .pmd → ¬ Large w.arch entry) then
      some (PteditPgd.pfn w.arch entry * pteditPfnMultiply)
    else
      none

namespace Walk

variable (w : Walk)

/-- What the walker finds at a level. -/
def visit (level : Level) : Visit Level Word Word := ⟨level, w.slot level, w.entry level⟩

@[simp] theorem level_visit (level : Level) : (w.visit level).level = level := rfl

@[simp] theorem entry_visit (level : Level) : (w.visit level).entry = w.entry level := rfl

/-- The visits that the walker makes. -/
def visits : List (Visit Level Word Word) := (w.readAt Level.all).map w.visit

theorem mem_visits {visit : Visit Level Word Word} :
    visit ∈ w.visits ↔ w.Exists visit.level ∧ w.Reached visit.level ∧
      visit.slot = w.slot visit.level ∧ visit.entry = w.entry visit.level := by
  simp only [visits, readAt, List.mem_map, List.mem_filter, decide_eq_true_eq]
  constructor
  · rintro ⟨level, ⟨_, here, reached⟩, rfl⟩
    exact ⟨here, reached, rfl, rfl⟩
  · rintro ⟨here, reached, slot, entry⟩
    refine ⟨visit.level, ⟨visit.level.mem_all, here, reached⟩, ?_⟩
    rw [Walk.visit, ← slot, ← entry]

theorem slot_walkerRadix (level : Level) (above : Word) :
    (walkerRadix w).slot level (PteditPgd.pfn w.arch above * pteditPfnMultiply) =
      tableSlot w.arch above (w.definition.intIndex level w.addr) := rfl

/-- A middle level: the tree is descended below an entry exactly when the walker
goes on below it. -/
theorem walk_middleLevel {level : Level} {rest : List Level} {above : Word}
    (reached : w.Reached level) (lower : ∀ lower ∈ rest, level ∈ lower.upper)
    (middle : level = .p4d ∨ level = .pud) (entry : w.entry level = w.middle level above)
    (slot : w.slot level = tableSlot w.arch above (w.definition.intIndex level w.addr))
    (below : Present w.arch (w.entry level) →
      (walkerRadix w).walk w.read (rest.filter w.Exists)
        (PteditPgd.pfn w.arch (w.entry level) * pteditPfnMultiply) =
      (w.readAt rest).map w.visit)
    (present : Present w.arch above) :
    (walkerRadix w).walk w.read ((level :: rest).filter w.Exists)
        (PteditPgd.pfn w.arch above * pteditPfnMultiply) =
      (w.readAt (level :: rest)).map w.visit := by
  rw [w.readAt_cons reached lower, List.map_append, List.filter_cons]
  by_cases here : w.Exists level
  · have next : (walkerRadix w).next level (w.entry level) =
        if Present w.arch (w.entry level) then
          some (PteditPgd.pfn w.arch (w.entry level) * pteditPfnMultiply) else none := by
      rcases middle with rfl | rfl <;> simp [walkerRadix]
    rw [if_pos (decide_eq_true here), if_pos here, walk_cons, slot_walkerRadix, ← slot,
      ← w.entry_of_exists here, next]
    refine congrArg (w.visit level :: ·) ?_
    by_cases goes : Present w.arch (w.entry level)
    · rw [if_pos goes, if_pos goes]
      exact below goes
    · rw [if_neg goes, if_neg goes]
      rfl
  · have folded : w.entry level = above := by
      refine entry.trans (if_neg fun has => here (.inr (.inr has)))
    rw [folded] at below ⊢
    rw [if_neg (by simpa using here), if_neg here, if_pos present]
    exact below present

/-- The walker's tree has the walker's visits, when there is a PMD level. -/
theorem walk_walkerRadix (noRoot : w.root ≠ 0) (hasPmd : w.definition.hasPmd ≠ 0) :
    (walkerRadix w).walk w.read (Level.all.filter w.Exists) w.root = w.visits := by
  have pgdHere : w.Exists .pgd := .inl rfl
  have pmdHere : w.Exists .pmd := .inr (.inr hasPmd)
  have pteHere : w.Exists .pte := .inr (.inl rfl)
  have pgdReached : w.Reached .pgd := ⟨noRoot, by simp [Level.upper], by simp⟩
  rw [visits, show Level.all = .pgd :: [.p4d, .pud, .pmd, .pte] from rfl,
    w.readAt_cons pgdReached (by decide), List.filter_cons, if_pos (decide_eq_true pgdHere),
    if_pos pgdHere, List.map_append, walk_cons]
  refine congrArg (w.visit .pgd :: ·) ?_
  have next : (walkerRadix w).next .pgd (w.entry .pgd) = if Present w.arch (w.entry .pgd) then
      some (PteditPgd.pfn w.arch (w.entry .pgd) * pteditPfnMultiply) else none := by
    simp [walkerRadix]
  rw [show w.read ((walkerRadix w).slot .pgd w.root) = w.entry .pgd from rfl, next]
  by_cases pgd : Present w.arch (w.entry .pgd)
  case neg =>
    rw [if_neg pgd, if_neg pgd]
    rfl
  rw [if_pos pgd, if_pos pgd]
  refine w.walk_middleLevel ?_ (by decide) (.inl rfl) rfl rfl (fun p4d => ?_) pgd
  · exact ⟨noRoot, by simpa [Level.upper] using pgd, by simp⟩
  refine w.walk_middleLevel ?_ (by decide) (.inr rfl) rfl rfl (fun pud => ?_) p4d
  · exact ⟨noRoot, by simpa [Level.upper] using ⟨pgd, p4d⟩, by simp⟩
  have pmdReached : w.Reached .pmd :=
    ⟨noRoot, by simpa [Level.upper] using ⟨pgd, p4d, pud⟩, by simp⟩
  rw [w.readAt_cons pmdReached (by decide), List.map_append, List.filter_cons,
    if_pos (decide_eq_true pmdHere), if_pos pmdHere, walk_cons, slot_walkerRadix,
    show tableSlot _ _ _ = w.slot .pmd from rfl, ← w.entry_of_exists pmdHere]
  refine congrArg (w.visit .pmd :: ·) ?_
  have pteReached : w.Reached .pte ↔
      Present w.arch (w.entry .pmd) ∧ ¬ Large w.arch (w.entry .pmd) := by
    refine ⟨fun reached => ⟨reached.2.1 .pmd (by decide), reached.2.2 rfl⟩, fun stop => ?_⟩
    exact ⟨noRoot, by simpa [Level.upper] using ⟨pgd, p4d, pud, stop.1⟩, fun _ => stop.2⟩
  have next : (walkerRadix w).next .pmd (w.entry .pmd) =
      if Present w.arch (w.entry .pmd) ∧ ¬ Large w.arch (w.entry .pmd) then
        some (PteditPgd.pfn w.arch (w.entry .pmd) * pteditPfnMultiply) else none := by
    simp [walkerRadix]
  have last : w.readAt [.pte] = if w.Reached .pte then [.pte] else [] := by
    by_cases reached : w.Reached .pte <;> simp [readAt, pteHere, reached]
  rw [next, last]
  by_cases stop : Present w.arch (w.entry .pmd) ∧ ¬ Large w.arch (w.entry .pmd)
  · rw [if_pos stop, if_pos stop.1, if_pos (pteReached.mpr stop), List.filter_cons,
      if_pos (decide_eq_true pteHere), Option.elim_some, walk_cons, slot_walkerRadix,
      show tableSlot _ _ _ = w.slot .pte from rfl, ← w.entry_of_exists pteHere]
    refine congrArg (w.visit .pte :: ·) ?_
    simp [walkerRadix]
  · rw [if_neg stop, if_neg (mt pteReached.mp stop), ite_self]
    rfl

end Walk

/-! ## The walk of `ptedit.c` is the architectural one -/

/-- Every entry that a walk goes through above a level is present and, above the
PTE, the entry of the PMD has its size bit clear. -/
def Reaches (d : PteditPagingDefinition) (visits : List (Visit Level Word Word))
    (level : Level) : Prop :=
  (∀ up ∈ level.upper, d.has up ≠ 0 →
    ∃ visit ∈ visits, visit.level = up ∧ visit.entry.getLsbD 0 = true) ∧
  (level = .pte → ∀ visit ∈ visits, visit.level = .pmd → visit.entry.getLsbD 7 = false)

/-- An entry structure is the architectural walk of an address. -/
structure IsHardwareWalk (d : PteditPagingDefinition) (read : Word → Word) (root addr : Word)
    (r : PteditEntry) : Prop where
  pgdValid : r.Valid .pgd ↔ (read (root + d.indexField .pgd addr * 8#64)).getLsbD 0 = true
  levelValid : ∀ level, level ≠ .pgd → d.has level ≠ 0 →
    (r.Valid level ↔ Reaches d (hardwareWalk d read root addr) level)
  foldedInvalid : ∀ level, d.has level = 0 → ¬ r.Valid level
  noOtherBit : r.valid.toNat < 32
  visited : ∀ level, r.Valid level →
    ∃ visit ∈ hardwareWalk d read root addr, visit.level = level ∧ visit.entry = r.field level
  pgdField : r.Valid .pgd → r.field .pgd = read (root + d.indexField .pgd addr * 8#64)
  levelField : ∀ level up, level.above = some up → r.Valid level →
    r.field level =
      read (hardwareFrame (r.field up) * 4096#64 + d.indexField level addr * 8#64)
  foldedField : ∀ level up, level.above = some up → d.has level = 0 →
    Reaches d (hardwareWalk d read root addr) level → r.field level = r.field up
  belowStop : ∀ level, ¬ Reaches d (hardwareWalk d read root addr) level → r.field level = 0
  noPgd : ¬ r.Valid .pgd → ∀ level, r.field level = 0

/-- The two trees name the same next tables as long as every frame fits 28 bits and
no PUD entry maps a large page. -/
theorem next_walkerRadix {w : Walk} (x86 : w.arch = .x86_64) {visit : Visit Level Word Word}
    (frame : NamesTable visit.level visit.entry → (hardwareFrame visit.entry).toNat < 2 ^ 28)
    (noLargePud : visit.level = .pud → visit.entry.getLsbD 0 = true →
      visit.entry.getLsbD 7 = false) (addr : Word) :
    (walkerRadix w).next visit.level visit.entry =
      (hardwareRadix w.definition addr).next visit.level visit.entry := by
  have tests : (visit.level ≠ .pte ∧ Present w.arch visit.entry ∧
      (visit.level = .pmd → ¬ Large w.arch visit.entry)) ↔
        NamesTable visit.level visit.entry := by
    rw [x86, present_x86, large_x86]
    unfold NamesTable MapsLarge
    cases level : visit.level <;> simp_all
  have frames : NamesTable visit.level visit.entry →
      PteditPgd.pfn w.arch visit.entry * pteditPfnMultiply =
        hardwareFrame visit.entry * 4096#64 := by
    intro table
    rw [x86, pfn_eq_hardwareFrame (frame table)]
    rfl
  dsimp only [walkerRadix, hardwareRadix]
  by_cases table : NamesTable visit.level visit.entry
  · rw [if_pos (tests.mpr table), if_pos table, frames table]
  · rw [if_neg (mt tests.mp table), if_neg table]

/-- **Simulation.**  The architectural walk makes the visits that the walker makes. -/
theorem hardwareWalk_eq_visits {w : Walk} (x86 : w.arch = .x86_64) (fits : w.definition.Fits)
    (hasPgd : w.definition.hasPgd = 1) (hasPmd : w.definition.hasPmd = 1)
    (hasPt : w.definition.hasPt = 1) (noRoot : w.root ≠ 0)
    (frames : ∀ visit ∈ hardwareWalk w.definition w.read w.root w.addr,
      NamesTable visit.level visit.entry → (hardwareFrame visit.entry).toNat < 2 ^ 28)
    (noLargePud : ∀ visit ∈ hardwareWalk w.definition w.read w.root w.addr,
      visit.level = .pud → visit.entry.getLsbD 0 = true → visit.entry.getLsbD 7 = false) :
    hardwareWalk w.definition w.read w.root w.addr = w.visits := by
  have levels : Level.all.filter w.Exists = hardwareLevels w.definition := by
    unfold hardwareLevels
    refine List.filter_congr fun level _ => decide_eq_decide.mpr ?_
    cases level <;> simp [Walk.Exists, PteditPagingDefinition.has, hasPgd, hasPt]
  rw [← w.walk_walkerRadix noRoot (by omega), levels]
  refine (walk_congr_radix ?_ ?_).symm
  · intro level table
    dsimp only [walkerRadix, hardwareRadix]
    rw [PteditPagingDefinition.intIndex_eq fits, PteditPagingDefinition.index_eq_indexField fits]
    rfl
  · intro visit member
    exact next_walkerRadix x86 (frames visit member) (noLargePud visit member) w.addr

theorem reaches_iff {w : Walk} (x86 : w.arch = .x86_64) (hasPgd : w.definition.hasPgd = 1)
    (hasPmd : w.definition.hasPmd = 1) (noRoot : w.root ≠ 0) (level : Level) :
    Reaches w.definition w.visits level ↔ w.Reached level := by
  have pmdHere : w.Exists .pmd := .inr (.inr (by simp [PteditPagingDefinition.has, hasPmd]))
  constructor
  · intro reaches
    -- a folded level is present because the level it mirrors is
    have present : ∀ up ∈ level.upper, Present w.arch (w.entry up) := by
      have here : ∀ up ∈ level.upper, w.definition.has up ≠ 0 →
          Present w.arch (w.entry up) := by
        intro up above has
        obtain ⟨visit, member, rfl, bit⟩ := reaches.1 up above has
        rw [x86, present_x86, ← (w.mem_visits.mp member).2.2.2]
        exact bit
      have mirror : ∀ up parent, up ∈ level.upper → up.above = some parent → up ≠ .pte →
          (parent ∈ level.upper → Present w.arch (w.entry parent)) →
          Present w.arch (w.entry up) := by
        intro up parent above direct notPte parentPresent
        by_cases has : w.definition.has up ≠ 0
        · exact here up above has
        · have folded : ¬ w.Exists up := by
            rintro (rfl | rfl | existing)
            · cases direct
            · exact notPte rfl
            · exact has existing
          rw [w.entry_of_not_exists folded direct]
          refine parentPresent ?_
          rw [Level.mem_upper] at above ⊢
          cases up <;> cases direct <;> simp only [Level.rank] at above ⊢ <;> omega
      have pgd : .pgd ∈ level.upper → Present w.arch (w.entry .pgd) :=
        fun above => here .pgd above (by simp [PteditPagingDefinition.has, hasPgd])
      have p4d : .p4d ∈ level.upper → Present w.arch (w.entry .p4d) :=
        fun above => mirror .p4d .pgd above rfl (by decide) pgd
      have pud : .pud ∈ level.upper → Present w.arch (w.entry .pud) :=
        fun above => mirror .pud .p4d above rfl (by decide) p4d
      intro up above
      cases up with
      | pgd => exact pgd above
      | p4d => exact p4d above
      | pud => exact pud above
      | pmd => exact mirror .pmd .pud above rfl (by decide) pud
      | pte => cases level <;> simp [Level.upper] at above
    refine ⟨noRoot, present, ?_⟩
    rintro rfl
    have pmdReached : w.Reached .pmd :=
      ⟨noRoot, fun up above => present up (by revert above; cases up <;> decide), by simp⟩
    have size : w.pmdEntry.getLsbD 7 = false :=
      reaches.2 rfl (w.visit .pmd) (w.mem_visits.mpr ⟨pmdHere, pmdReached, rfl, rfl⟩) rfl
    rw [x86, large_x86, size]
    decide
  · intro reached
    constructor
    · intro up above has
      refine ⟨w.visit up, w.mem_visits.mpr ⟨.inr (.inr has), reached.upper above, rfl, rfl⟩,
        rfl, ?_⟩
      have present := reached.2.1 up above
      rw [x86, present_x86] at present
      exact present
    · rintro rfl visit member pmd
      have large := reached.2.2 rfl
      rw [x86, large_x86] at large
      have entry : visit.entry = w.pmdEntry := by
        rw [(w.mem_visits.mp member).2.2.2, pmd]
        rfl
      rw [entry]
      exact Bool.eq_false_iff.mpr large

section Frames

variable {w : Walk}

/-- A table entry that the walk reads and goes through has a frame of 28 bits. -/
theorem pfn_of_exists (x86 : w.arch = .x86_64)
    (frames : ∀ visit ∈ w.visits,
      NamesTable visit.level visit.entry → (hardwareFrame visit.entry).toNat < 2 ^ 28)
    (noLargePud : ∀ visit ∈ w.visits,
      visit.level = .pud → visit.entry.getLsbD 0 = true → visit.entry.getLsbD 7 = false)
    {up : Level} (here : w.Exists up) (notPte : up ≠ .pte) (reached : w.Reached up)
    (present : Present w.arch (w.entry up)) (table : up = .pmd → ¬ Large w.arch (w.entry up)) :
    PteditPgd.pfn w.arch (w.entry up) = hardwareFrame (w.entry up) := by
  have member : w.visit up ∈ w.visits := w.mem_visits.mpr ⟨here, reached, rfl, rfl⟩
  have small := frames (w.visit up) member
  have clear := noLargePud (w.visit up) member
  rw [w.level_visit, w.entry_visit] at small clear
  rw [x86, present_x86] at present
  have names : NamesTable up (w.entry up) := by
    refine ⟨notPte, present, ?_⟩
    rintro ⟨pud | pmd, large⟩
    · rw [clear pud present] at large
      cases large
    · refine table pmd ?_
      rw [x86, large_x86]
      exact large
  rw [x86]
  exact pfn_eq_hardwareFrame (small names)

/-- The frame of the entry above a reached level; a folded level has the frame of the
level that it mirrors. -/
theorem pfn_above (x86 : w.arch = .x86_64) (hasPmd : w.definition.hasPmd = 1)
    (frames : ∀ visit ∈ w.visits,
      NamesTable visit.level visit.entry → (hardwareFrame visit.entry).toNat < 2 ^ 28)
    (noLargePud : ∀ visit ∈ w.visits,
      visit.level = .pud → visit.entry.getLsbD 0 = true → visit.entry.getLsbD 7 = false)
    {level up : Level} (above : level.above = some up) (reached : w.Reached level) :
    PteditPgd.pfn w.arch (w.entry up) = hardwareFrame (w.entry up) := by
  have upper : up ∈ level.upper := Level.above_mem_upper above
  have present := reached.2.1 up upper
  have upReached := reached.upper upper
  have here := fun level => @pfn_of_exists w x86 frames noLargePud level
  cases up with
  | pgd => exact here .pgd (.inl rfl) (by decide) upReached present nofun
  | p4d =>
      by_cases read : w.Exists .p4d
      · exact here .p4d read (by decide) upReached present nofun
      · rw [w.entry_of_not_exists read rfl]
        exact here .pgd (.inl rfl) (by decide) (upReached.upper (by decide))
          (upReached.2.1 .pgd (by decide)) nofun
  | pud =>
      by_cases read : w.Exists .pud
      · exact here .pud read (by decide) upReached present nofun
      rw [w.entry_of_not_exists read rfl]
      have p4dReached : w.Reached .p4d := upReached.upper (by decide)
      by_cases read' : w.Exists .p4d
      · exact here .p4d read' (by decide) p4dReached (upReached.2.1 .p4d (by decide)) nofun
      · rw [w.entry_of_not_exists read' rfl]
        exact here .pgd (.inl rfl) (by decide) (p4dReached.upper (by decide))
          (p4dReached.2.1 .pgd (by decide)) nofun
  | pmd =>
      have pmdHere : w.Exists .pmd := .inr (.inr (by simp [PteditPagingDefinition.has, hasPmd]))
      refine here .pmd pmdHere (by decide) upReached present fun _ => reached.2.2 ?_
      cases level <;> cases above
      rfl
  | pte => cases level <;> cases above

end Frames

theorem isHardwareWalk_resolved {w : Walk} (x86 : w.arch = .x86_64) (fits : w.definition.Fits)
    (hasPgd : w.definition.hasPgd = 1) (hasPmd : w.definition.hasPmd = 1)
    (hasPt : w.definition.hasPt = 1) (noRoot : w.root ≠ 0)
    (frames : ∀ visit ∈ hardwareWalk w.definition w.read w.root w.addr,
      NamesTable visit.level visit.entry → (hardwareFrame visit.entry).toNat < 2 ^ 28)
    (noLargePud : ∀ visit ∈ hardwareWalk w.definition w.read w.root w.addr,
      visit.level = .pud → visit.entry.getLsbD 0 = true → visit.entry.getLsbD 7 = false)
    (pid : Word) :
    IsHardwareWalk w.definition w.read w.root w.addr (w.resolved pid) := by
  have visits := hardwareWalk_eq_visits x86 fits hasPgd hasPmd hasPt noRoot frames noLargePud
  have reaches : ∀ level, Reaches w.definition (hardwareWalk w.definition w.read w.root w.addr)
      level ↔ w.Reached level := by
    intro level
    rw [visits]
    exact reaches_iff x86 hasPgd hasPmd noRoot level
  rw [visits] at frames noLargePud
  have index : ∀ level, w.definition.intIndex level w.addr * pteditEntrySize =
      w.definition.indexField level w.addr * 8#64 := by
    intro level
    rw [PteditPagingDefinition.intIndex_eq fits, PteditPagingDefinition.index_eq_indexField fits]
    rfl
  have pgdEntry : w.pgdEntry = w.read (w.root + w.definition.indexField .pgd w.addr * 8#64) := by
    rw [← index]
    rfl
  have pgdReached : w.Reached .pgd := ⟨noRoot, by simp [Level.upper], by simp⟩
  have existing : ∀ level, w.Exists level ↔ w.definition.has level ≠ 0 := by
    intro level
    cases level <;> simp [Walk.Exists, PteditPagingDefinition.has, hasPgd, hasPt]
  have recorded : ∀ level, level ≠ .pgd → (w.Recorded level ↔ w.Reached level) :=
    fun level notPgd => and_iff_left fun pgd => absurd pgd notPgd
  have valid : ∀ level, (w.resolved pid).Valid level ↔ w.Valid level := w.valid_resolved pid
  have field : ∀ level, w.Recorded level → (w.resolved pid).field level = w.entry level := by
    intro level here
    rw [w.field_resolved, if_pos here]
  constructor
  case noOtherBit => exact Level.maskOf_lt w.Valid
  case pgdValid =>
    rw [valid, ← pgdEntry, ← present_x86, ← x86]
    exact ⟨fun found => found.2.2 rfl, fun present => ⟨.inl rfl, pgdReached, fun _ => present⟩⟩
  case levelValid =>
    intro level notPgd has
    rw [valid, reaches, ← recorded level notPgd]
    exact and_iff_right (.inr (.inr has))
  case foldedInvalid =>
    intro level folded found
    exact (existing level).mp ((valid level).mp found).1 folded
  case visited =>
    intro level found
    have here := (valid level).mp found
    rw [visits, field level here.2]
    exact ⟨w.visit level, w.mem_visits.mpr ⟨here.1, here.2.1, rfl, rfl⟩, rfl, rfl⟩
  case pgdField =>
    intro found
    rw [field .pgd ((valid .pgd).mp found).2, ← pgdEntry]
    rfl
  case levelField =>
    intro level up above found
    have here := (valid level).mp found
    have upper := Level.above_mem_upper above
    rw [field level here.2, field up (here.2.1.recorded upper), w.entry_of_exists here.1,
      ← pfn_above x86 hasPmd frames noLargePud above here.2.1, ← index]
    unfold Walk.slot
    rw [above]
    rfl
  case foldedField =>
    intro level up above folded reached
    have here := (reaches level).mp reached
    have upper := Level.above_mem_upper above
    have notPgd : level ≠ .pgd := by
      rintro rfl
      cases above
    rw [field level ((recorded level notPgd).mpr here), field up (here.recorded upper)]
    exact w.entry_of_not_exists (fun read => (existing level).mp read folded) above
  case belowStop =>
    intro level stop
    rw [w.field_resolved, if_neg fun here => stop ((reaches level).mpr here.1)]
  case noPgd =>
    intro absent level
    rw [w.field_resolved, if_neg]
    intro here
    refine absent ((valid .pgd).mpr ⟨.inl rfl, pgdReached, fun _ => ?_⟩)
    cases level with
    | pgd => exact here.2 rfl
    | _ => exact here.1.2.1 .pgd (by decide)

/-- **The walker returns exactly the architectural walk.** -/
theorem resolveUserExt_isHardwareWalk
    {sys : System} {lib : Lib} {w : World} {address : Word} {pid : Pid}
    {deref : Word → Sys Word} {read : Word → Word}
    (attached : Attached sys lib w) (x86 : lib.arch = .x86_64)
    (fits : lib.pagingDefinition.Fits) (hasPgd : lib.pagingDefinition.hasPgd = 1)
    (hasPmd : lib.pagingDefinition.hasPmd = 1) (hasPt : lib.pagingDefinition.hasPt = 1)
    (reads : ∀ a, Prog.run (sysHandler sys) (deref a) w = some (read a, w))
    (noRoot : sys.userRoot lib w.kernel pid ≠ 0)
    (frames : ∀ visit ∈ hardwareWalk lib.pagingDefinition read (sys.userRoot lib w.kernel pid)
      address, NamesTable visit.level visit.entry → (hardwareFrame visit.entry).toNat < 2 ^ 28)
    (noLargePud : ∀ visit ∈ hardwareWalk lib.pagingDefinition read
      (sys.userRoot lib w.kernel pid) address, visit.level = .pud →
        visit.entry.getLsbD 0 = true → visit.entry.getLsbD 7 = false) :
    ∃ r, Prog.run (sysHandler sys) (pteditResolveUserExt lib address pid deref) w = some (r, w) ∧
      r.vaddr = address ∧ r.pid = sizeOfInt pid ∧
      IsHardwareWalk lib.pagingDefinition read (sys.userRoot lib w.kernel pid) address r :=
  ⟨_, run_pteditResolveUserExt attached fun a _ => reads a, rfl, rfl,
    isHardwareWalk_resolved (w := sys.walkOver lib w.kernel address pid read) x86 fits hasPgd
      hasPmd hasPt noRoot frames noLargePud (sizeOfInt pid)⟩

theorem resolveUserExt_isHardwareWalk_sample :
    ∃ r, Prog.run (sysHandler sampleSystem)
        (pteditResolveUserExt sampleLib 0x345 0 (pteditPhysReadPread sampleLib)) sampleWorld =
          some (r, sampleWorld) ∧
      r.vaddr = 0x345 ∧ r.pid = 0 ∧
      IsHardwareWalk PteditPagingDefinition.x86_64 sampleMem.read 0x1000 0x345 r := by
  have frames : ∀ visit ∈ hardwareWalk PteditPagingDefinition.x86_64 sampleMem.read
      (sampleSystem.userRoot sampleLib sampleWorld.kernel 0) 0x345,
      NamesTable visit.level visit.entry → (hardwareFrame visit.entry).toNat < 2 ^ 28 := by
    decide +kernel
  have noLargePud : ∀ visit ∈ hardwareWalk PteditPagingDefinition.x86_64 sampleMem.read
      (sampleSystem.userRoot sampleLib sampleWorld.kernel 0) 0x345, visit.level = .pud →
        visit.entry.getLsbD 0 = true → visit.entry.getLsbD 7 = false := by
    decide +kernel
  exact resolveUserExt_isHardwareWalk sample_attached rfl PteditPagingDefinition.x86_64_fits rfl
    rfl rfl (fun a => run_pteditPhysReadPread a) (by decide) frames noLargePud

end PTEditor
