import PTEditor.Entry

/-!
# The user-space walker

The walk of `ptedit_resolve_user_ext` in `ptedit.c` from the root it has chosen:
`pteditWalk` is the code, `Walk` its closed form.  A `Walk` says for every level
which slot is read (`slot`), what is found there (`entry`) and whether the walk
comes that far (`Reached`); `eval_pteditWalk` and `queries_pteditWalk` are the
equations between the two.
-/

namespace PTEditor

/-- `ptedit_pfn_multiply`. -/
def pteditPfnMultiply : Word := 4096

/-- `ptedit_entry_size`. -/
def pteditEntrySize : Word := 8

/-- The slot that an index picks in the table that an entry names. -/
def tableSlot (arch : Arch) (above index : Word) : Word :=
  PteditPgd.pfn arch above * pteditPfnMultiply + index * pteditEntrySize

/-! ## The code -/

section Code

variable (arch : Arch) (d : PteditPagingDefinition) (addr : Word)

/-- The P4D, PUD and PMD parts of `ptedit_resolve_user_ext`: the entry is read
through the frame of the entry above or, on a folded level, taken over from there;
`below` is the rest of the walk, entered when the entry is present. -/
def pteditMiddleLevel (level : Level) (below : Word → PteditEntry → ReadProg PteditEntry)
    (above : Word) (resolved : PteditEntry) : ReadProg PteditEntry :=
  let descend := fun entry resolved =>
    if Present arch entry then below entry resolved else pure resolved
  if d.has level ≠ 0 then do
    let entry ← readWord (tableSlot arch above (d.intIndex level addr))
    descend entry ((resolved.withValid level).withField entry level)
  else
    descend above (resolved.withField above level)

/-- The PTE part, which both architectures leave the same way whether or not the
entry it reads is present. -/
def pteditPteLevel (pmdEntry : Word) (resolved : PteditEntry) : ReadProg PteditEntry :=
  if Large arch pmdEntry then
    pure resolved
  else do
    let ptEntry ← readWord (tableSlot arch pmdEntry (d.intIndex .pte addr))
    pure ((resolved.withField ptEntry .pte).withValid .pte)

/-- `ptedit_resolve_user_ext` from its masked root on. -/
def pteditWalk (root : Word) (pid : Pid) : ReadProg PteditEntry :=
  let resolved := PteditEntry.cleared addr (sizeOfInt pid)
  if root = 0 then
    pure resolved
  else do
    let pgdEntry ← readWord (root + d.intIndex .pgd addr * pteditEntrySize)
    if ¬ Present arch pgdEntry then
      pure resolved
    else
      pteditMiddleLevel arch d addr .p4d
        (pteditMiddleLevel arch d addr .pud
          (pteditMiddleLevel arch d addr .pmd
            (pteditPteLevel arch d addr)))
        pgdEntry ((resolved.withField pgdEntry .pgd).withValid .pgd)

end Code

/-! ## The closed form -/

/-- The walk for one address below one root, in one memory. -/
structure Walk where
  arch : Arch
  definition : PteditPagingDefinition
  root : Word
  addr : Word
  read : Word → Word

namespace Walk

variable (w : Walk)

/-- The entry of a middle level, given the entry above it. -/
def middle (level : Level) (above : Word) : Word :=
  if w.definition.has level ≠ 0 then
    w.read (tableSlot w.arch above (w.definition.intIndex level w.addr))
  else
    above

def pgdEntry : Word :=
  w.read (w.root + w.definition.intIndex .pgd w.addr * pteditEntrySize)

def p4dEntry : Word := w.middle .p4d w.pgdEntry

def pudEntry : Word := w.middle .pud w.p4dEntry

def pmdEntry : Word := w.middle .pmd w.pudEntry

def pteEntry : Word :=
  w.read (tableSlot w.arch w.pmdEntry (w.definition.intIndex .pte w.addr))

/-- The entry of each level, as if no entry stopped the walk. -/
def entry : Level → Word
  | .pgd => w.pgdEntry
  | .p4d => w.p4dEntry
  | .pud => w.pudEntry
  | .pmd => w.pmdEntry
  | .pte => w.pteEntry

/-- The slot of each level. -/
def slot (level : Level) : Word :=
  match level.above with
  | none => w.root + w.definition.intIndex level w.addr * pteditEntrySize
  | some up => tableSlot w.arch (w.entry up) (w.definition.intIndex level w.addr)

/-- The walk comes to a level when there is a root, every entry above is present,
and the entry of the PMD does not map a large page. -/
def Reached (level : Level) : Prop :=
  w.root ≠ 0 ∧ (∀ up ∈ level.upper, Present w.arch (w.entry up)) ∧
    (level = .pte → ¬ Large w.arch w.pmdEntry)

instance : DecidablePred w.Reached := fun _ => inferInstanceAs (Decidable (_ ∧ _ ∧ _))

/-- The levels that the walker reads a slot of: the PGD and the PTE always. -/
def Exists (level : Level) : Prop :=
  level = .pgd ∨ level = .pte ∨ w.definition.has level ≠ 0

instance : DecidablePred w.Exists := fun _ => inferInstanceAs (Decidable (_ ∨ _ ∨ _))

/-- The levels whose field is stored: the PGD only when its entry is present. -/
def Recorded (level : Level) : Prop :=
  w.Reached level ∧ (level = .pgd → Present w.arch w.pgdEntry)

instance : DecidablePred w.Recorded := fun _ => inferInstanceAs (Decidable (_ ∧ _))

/-- The levels whose valid bit is set. -/
def Valid (level : Level) : Prop := w.Exists level ∧ w.Recorded level

instance : DecidablePred w.Valid := fun _ => inferInstanceAs (Decidable (_ ∧ _))

/-- The entry structure that the walker returns. -/
def resolved (pid : Word) : PteditEntry :=
  let field := fun level => if w.Recorded level then w.entry level else 0
  { pid, vaddr := w.addr, pgd := field .pgd, p4d := field .p4d, pud := field .pud,
    pmd := field .pmd, pte := field .pte, valid := Level.maskOf w.Valid }

/-- Those of some levels that the walker reads. -/
def readAt (levels : List Level) : List Level :=
  levels.filter fun level => w.Exists level ∧ w.Reached level

/-- The slots that the walker reads, in order. -/
def slots : List Word := (w.readAt Level.all).map w.slot

theorem field_resolved (pid : Word) (level : Level) :
    (w.resolved pid).field level = if w.Recorded level then w.entry level else 0 := by
  cases level <;> rfl

theorem valid_resolved (pid : Word) (level : Level) :
    (w.resolved pid).Valid level ↔ w.Valid level :=
  Level.maskOf_and_validMask w.Valid level

theorem mem_slots {a : Word} :
    a ∈ w.slots ↔ ∃ level, w.Exists level ∧ w.Reached level ∧ w.slot level = a := by
  simp only [slots, readAt, List.mem_map, List.mem_filter, decide_eq_true_eq, and_assoc]
  exact ⟨fun ⟨level, _, rest⟩ => ⟨level, rest⟩,
    fun ⟨level, rest⟩ => ⟨level, level.mem_all, rest⟩⟩

theorem Reached.upper {w : Walk} {level up : Level} (reached : w.Reached level)
    (above : up ∈ level.upper) : w.Reached up := by
  refine ⟨reached.1, fun higher member => reached.2.1 higher ?_, ?_⟩
  · rw [Level.mem_upper] at *
    omega
  · rintro rfl
    cases level <;> simp [Level.upper] at above

theorem Reached.recorded {w : Walk} {level up : Level} (reached : w.Reached level)
    (above : up ∈ level.upper) : w.Recorded up := by
  refine ⟨reached.upper above, ?_⟩
  rintro rfl
  exact reached.2.1 .pgd above

/-- A level that is read holds the word in its slot. -/
theorem entry_of_exists {level : Level} (here : w.Exists level) :
    w.entry level = w.read (w.slot level) := by
  cases level with
  | pgd => rfl
  | pte => rfl
  | p4d => exact if_pos (by simpa [Exists] using here)
  | pud => exact if_pos (by simpa [Exists] using here)
  | pmd => exact if_pos (by simpa [Exists] using here)

/-- A folded level mirrors the level above. -/
theorem entry_of_not_exists {level up : Level} (folded : ¬ w.Exists level)
    (above : level.above = some up) : w.entry level = w.entry up := by
  have unread : level ≠ .pte ∧ ¬ w.definition.has level ≠ 0 :=
    ⟨fun last => folded (.inr (.inl last)), fun has => folded (.inr (.inr has))⟩
  cases level <;> cases above
  case pte => exact absurd rfl unread.1
  all_goals exact if_neg unread.2

/-! ## The code and the closed form -/

theorem eval_middleLevel (level : Level) (below : Word → PteditEntry → ReadProg PteditEntry)
    (above : Word) (resolved : PteditEntry) :
    (pteditMiddleLevel w.arch w.definition w.addr level below above resolved).eval w.read =
      let resolved := if w.definition.has level ≠ 0 then resolved.withValid level else resolved
      let resolved := resolved.withField (w.middle level above) level
      if Present w.arch (w.middle level above) then
        (below (w.middle level above) resolved).eval w.read
      else
        resolved := by
  unfold pteditMiddleLevel middle
  by_cases has : w.definition.has level ≠ 0
  · simp only [if_pos has]
    rw [Prog.eval_bind, show (readWord _).eval w.read = w.read _ from rfl, apply_ite (Prog.eval _)]
    rfl
  · simp only [if_neg has]
    rw [apply_ite (Prog.eval _)]
    rfl

theorem eval_pteLevel (pmdEntry : Word) (resolved : PteditEntry) :
    (pteditPteLevel w.arch w.definition w.addr pmdEntry resolved).eval w.read =
      if Large w.arch pmdEntry then
        resolved
      else
        (resolved.withField
          (w.read (tableSlot w.arch pmdEntry (w.definition.intIndex .pte w.addr))) .pte).withValid
            .pte := by
  unfold pteditPteLevel
  split <;> rfl

theorem recorded_pgd : w.Recorded .pgd ↔ w.root ≠ 0 ∧ Present w.arch w.pgdEntry := by
  simp [Recorded, Reached, Level.upper]

theorem recorded_p4d : w.Recorded .p4d ↔ w.Recorded .pgd := by
  simp [Recorded, Reached, Level.upper, entry]

theorem recorded_pud :
    w.Recorded .pud ↔ w.Recorded .p4d ∧ Present w.arch w.p4dEntry := by
  simp [Recorded, Reached, Level.upper, entry, and_assoc]

theorem recorded_pmd :
    w.Recorded .pmd ↔ w.Recorded .pud ∧ Present w.arch w.pudEntry := by
  simp [Recorded, Reached, Level.upper, entry, and_assoc]

theorem recorded_pte :
    w.Recorded .pte ↔
      w.Recorded .pmd ∧ Present w.arch w.pmdEntry ∧ ¬ Large w.arch w.pmdEntry := by
  simp [Recorded, Reached, Level.upper, entry, and_assoc]

/-- The entry structure after a walk that has come through some levels. -/
def filled (levels : List Level) (pid : Word) : PteditEntry :=
  let field := fun level => if level ∈ levels then w.entry level else 0
  { pid, vaddr := w.addr, pgd := field .pgd, p4d := field .p4d, pud := field .pud,
    pmd := field .pmd, pte := field .pte,
    valid := Level.maskOf fun level => level ∈ levels ∧ w.Exists level }

theorem resolved_eq_filled {levels : List Level}
    (recorded : ∀ level, w.Recorded level ↔ level ∈ levels) (pid : Word) :
    w.resolved pid = w.filled levels pid := by
  have valid : ∀ level, w.Valid level ↔ level ∈ levels ∧ w.Exists level := by
    intro level
    rw [Valid, recorded, and_comm]
  unfold resolved filled
  rw [Level.maskOf_congr valid]
  simp only [recorded]

/-- What the walk makes of the next level. -/
theorem filled_concat (level : Level) (pid : Word) :
    (if w.Exists level then (w.filled level.upper pid).withValid level
      else w.filled level.upper pid).withField (w.entry level) level =
      w.filled (level.upper ++ [level]) pid := by
  have mask := Level.maskOf_upper_concat w.Exists level
  unfold filled
  rw [mask]
  by_cases here : w.Exists level
  · rw [if_pos here, if_pos here]
    cases level <;> rfl
  · rw [if_neg here, if_neg here]
    cases level <;> rfl

/-- A walk that ends at a level has come through the levels down to there. -/
theorem recorded_iff_of_ends {stop : Level} (recorded : w.Recorded stop)
    (ends : ∀ lower, stop.rank < lower.rank → ¬ w.Recorded lower) (level : Level) :
    w.Recorded level ↔ level ∈ stop.upper ++ [stop] := by
  rw [Level.mem_upper_concat]
  constructor
  · intro reached
    by_contra lower
    exact ends level (by omega) reached
  · intro within
    rcases Nat.eq_or_lt_of_le within with same | higher
    · exact Level.eq_of_rank_eq same ▸ recorded
    · exact recorded.1.recorded (Level.mem_upper.mpr higher)

/-- The walk ends at an entry that is not present. -/
theorem recorded_iff_of_absent {stop : Level} (recorded : w.Recorded stop)
    (absent : ¬ Present w.arch (w.entry stop)) (level : Level) :
    w.Recorded level ↔ level ∈ stop.upper ++ [stop] :=
  w.recorded_iff_of_ends recorded
    (fun _ below lower => absent (lower.1.2.1 stop (Level.mem_upper.mpr below))) level

theorem eval_middleLevel_filled {level : Level} {above : Word}
    (existing : w.Exists level ↔ w.definition.has level ≠ 0)
    (entry : w.entry level = w.middle level above)
    (below : Word → PteditEntry → ReadProg PteditEntry) (pid : Word) :
    (pteditMiddleLevel w.arch w.definition w.addr level below above
        (w.filled level.upper pid)).eval w.read =
      if Present w.arch (w.entry level) then
        (below (w.entry level) (w.filled (level.upper ++ [level]) pid)).eval w.read
      else
        w.filled (level.upper ++ [level]) pid := by
  rw [eval_middleLevel, ← filled_concat, entry]
  simp only [existing]

theorem eval_pteditWalk (pid : Pid) :
    (pteditWalk w.arch w.definition w.addr w.root pid).eval w.read =
      w.resolved (sizeOfInt pid) := by
  have root : ∀ level, w.Recorded level → w.Recorded .pgd := by
    intro level recorded
    rcases eq_or_ne level .pgd with rfl | ne
    · exact recorded
    · exact recorded.1.recorded (by cases level <;> first | exact absurd rfl ne | decide)
  unfold pteditWalk
  dsimp only
  -- the walk ends at the first level whose entry is not present
  by_cases noRoot : w.root = 0
  · have none : ∀ level, w.Recorded level ↔ level ∈ [] :=
      fun level => iff_of_false (fun recorded => recorded.1.1 noRoot) List.not_mem_nil
    rw [if_pos noRoot]
    exact (w.resolved_eq_filled none _).symm
  rw [if_neg noRoot, Prog.eval_bind, show (readWord _).eval w.read = w.pgdEntry from rfl]
  by_cases pgd : Present w.arch w.pgdEntry
  case neg =>
    have none : ∀ level, w.Recorded level ↔ level ∈ [] :=
      fun level => iff_of_false (fun recorded => pgd ((root level recorded).2 rfl)) List.not_mem_nil
    rw [if_pos pgd]
    exact (w.resolved_eq_filled none _).symm
  have first : w.Recorded .pgd := w.recorded_pgd.mpr ⟨noRoot, pgd⟩
  have second : w.Recorded .p4d := w.recorded_p4d.mpr first
  rw [if_neg (not_not.mpr pgd)]
  refine (w.eval_middleLevel_filled (by simp [Exists]) rfl _ _).trans ?_
  split
  case isFalse absent =>
    exact (w.resolved_eq_filled (w.recorded_iff_of_absent second absent) _).symm
  next p4d =>
  have third : w.Recorded .pud := w.recorded_pud.mpr ⟨second, p4d⟩
  refine (w.eval_middleLevel_filled (by simp [Exists]) rfl _ _).trans ?_
  split
  case isFalse absent =>
    exact (w.resolved_eq_filled (w.recorded_iff_of_absent third absent) _).symm
  next pud =>
  have fourth : w.Recorded .pmd := w.recorded_pmd.mpr ⟨third, pud⟩
  refine (w.eval_middleLevel_filled (by simp [Exists]) rfl _ _).trans ?_
  split
  case isFalse absent =>
    exact (w.resolved_eq_filled (w.recorded_iff_of_absent fourth absent) _).symm
  next pmd =>
  have last : w.Recorded .pte ↔ ¬ Large w.arch w.pmdEntry :=
    w.recorded_pte.trans ((and_iff_right fourth).trans (and_iff_right pmd))
  refine (w.eval_pteLevel _ _).trans ?_
  split
  next large =>
    refine (w.resolved_eq_filled (w.recorded_iff_of_ends fourth fun lower below => ?_) _).symm
    have isPte : lower = .pte := by
      cases lower <;> first | rfl | exact absurd below (by decide)
    rw [isPte]
    exact fun recorded => last.mp recorded large
  next table =>
    have deepest : ∀ lower : Level, ¬ Level.rank .pte < lower.rank := by
      intro lower
      cases lower <;> decide
    have through := w.recorded_iff_of_ends (last.mpr table) fun lower below =>
      absurd below (deepest lower)
    rw [w.resolved_eq_filled through, ← w.filled_concat .pte, if_pos (.inr (.inl rfl))]
    rfl

/-- From a reached level on the walk reads that level and, when its entry is
present, goes on below. -/
theorem readAt_cons {level : Level} {rest : List Level} (reached : w.Reached level)
    (below : ∀ lower ∈ rest, level ∈ lower.upper) :
    w.readAt (level :: rest) = (if w.Exists level then [level] else []) ++
      (if Present w.arch (w.entry level) then w.readAt rest else []) := by
  have stop : ¬ Present w.arch (w.entry level) → w.readAt rest = [] := by
    intro absent
    simp only [readAt, List.filter_eq_nil_iff, decide_eq_true_eq, not_and]
    exact fun lower member _ reached => absent (reached.2.1 level (below lower member))
  have all : (if Present w.arch (w.entry level) then w.readAt rest else []) = w.readAt rest := by
    split
    next => rfl
    next absent => exact (stop absent).symm
  rw [all, readAt, List.filter_cons]
  by_cases here : w.Exists level
  · simp [here, reached, readAt]
  · simp [here, readAt]

theorem queries_middleLevel {level : Level} {rest : List Level}
    {below : Word → PteditEntry → ReadProg PteditEntry} {above : Word} (reached : w.Reached level)
    (lower : ∀ lower ∈ rest, level ∈ lower.upper)
    (existing : w.Exists level ↔ w.definition.has level ≠ 0)
    (entry : w.entry level = w.middle level above)
    (slot : w.slot level = tableSlot w.arch above (w.definition.intIndex level w.addr))
    (next : Present w.arch (w.entry level) →
      ∀ resolved, (below (w.entry level) resolved).queries w.read = (w.readAt rest).map w.slot)
    (resolved : PteditEntry) :
    (pteditMiddleLevel w.arch w.definition w.addr level below above resolved).queries w.read =
      (w.readAt (level :: rest)).map w.slot := by
  have descend : ∀ resolved, (if Present w.arch (w.entry level) then
      below (w.entry level) resolved else pure resolved).queries w.read =
        (if Present w.arch (w.entry level) then w.readAt rest else []).map w.slot := by
    intro resolved
    split
    next present => exact next present resolved
    next => rfl
  rw [w.readAt_cons reached lower, List.map_append]
  unfold pteditMiddleLevel
  dsimp only
  by_cases has : w.definition.has level ≠ 0
  · rw [if_pos (existing.mpr has), if_pos has, List.map_singleton, slot, Prog.queries_bind]
    have found : w.entry level = w.read (tableSlot w.arch above _) := entry.trans (if_pos has)
    rw [found] at descend ⊢
    exact congrArg (_ :: ·) (descend _)
  · have folded : w.entry level = above := entry.trans (if_neg has)
    rw [if_neg (mt existing.mp has), if_neg has]
    rw [folded] at descend ⊢
    exact descend _

theorem queries_pteditWalk (pid : Pid) :
    (pteditWalk w.arch w.definition w.addr w.root pid).queries w.read = w.slots := by
  unfold pteditWalk
  dsimp only
  by_cases noRoot : w.root = 0
  · rw [if_pos noRoot]
    simp [slots, readAt, Reached, noRoot]
  have pgdReached : w.Reached .pgd := ⟨noRoot, by simp [Level.upper], by simp⟩
  rw [if_neg noRoot, Prog.queries_bind, show (readWord _).eval w.read = w.pgdEntry from rfl,
    show w.slots = (w.readAt (.pgd :: [.p4d, .pud, .pmd, .pte])).map w.slot from rfl,
    w.readAt_cons pgdReached (by decide), if_pos (show w.Exists .pgd from .inl rfl),
    List.map_append]
  refine congrArg ([w.slot .pgd] ++ ·) ?_
  by_cases pgd : Present w.arch w.pgdEntry
  case neg =>
    rw [if_pos pgd, show w.entry .pgd = w.pgdEntry from rfl, if_neg pgd]
    rfl
  rw [if_neg (not_not.mpr pgd), show w.entry .pgd = w.pgdEntry from rfl, if_pos pgd]
  -- below a reached and present level the next one is reached
  refine w.queries_middleLevel ?_ (by decide) (by simp [Exists]) rfl rfl (fun p4d => ?_) _
  · exact ⟨noRoot, by simpa [Level.upper, entry] using pgd, by simp⟩
  refine w.queries_middleLevel ?_ (by decide) (by simp [Exists]) rfl rfl (fun pud => ?_)
  · exact ⟨noRoot, by simpa [Level.upper, entry] using ⟨pgd, p4d⟩, by simp⟩
  refine w.queries_middleLevel ?_ (by decide) (by simp [Exists]) rfl rfl (fun pmd => ?_)
  · exact ⟨noRoot, by simpa [Level.upper, entry] using ⟨pgd, p4d, pud⟩, by simp⟩
  intro resolved
  have reached : w.Reached .pte ↔ ¬ Large w.arch w.pmdEntry :=
    ⟨fun reached => reached.2.2 rfl,
      fun table =>
        ⟨noRoot, by simpa [Level.upper, entry] using ⟨pgd, p4d, pud, pmd⟩, fun _ => table⟩⟩
  have here : w.Exists .pte := .inr (.inl rfl)
  unfold pteditPteLevel
  rw [show w.entry .pmd = w.pmdEntry from rfl]
  split
  next large => simp [readAt, reached, large]
  next table =>
    simp only [readAt, here, reached, table, not_false_eq_true, and_true, decide_true,
      List.filter_cons_of_pos, List.filter_nil, List.map_cons, List.map_nil]
    rfl

end Walk

end PTEditor
