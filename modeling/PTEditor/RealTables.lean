import PTEditor.Module.Linux

/-!
# The tables that `resolve_vm` reads

`resolve_vm` goes on below an entry that is not empty: it makes no test for a present
entry, and tests the PUD for being a leaf only after it has read through it.
`onlyRealTables_iff` says for which page tables it reads the words of tables only.
-/

namespace PTEditor

open KernelProg

/-! ## What a run reads -/

namespace KernelWalk

variable {w : KernelWalk}

/-- The pointers whose words `resolve_vm` reads, in order. -/
def reads (w : KernelWalk) : List Word :=
  w.pgdPtr ::
    if w.Passes .pgd then
      w.p4dPtr ::
        if w.Passes .p4d then w.pudPtr :: if w.Passes .pud then [w.pmdPtr] else [] else []
    else []

/-- A word behind the entry pointer of a level is read, in the level's turn. -/
def ReadsEntry (w : KernelWalk) (reads : List Word) (level : Level) : Prop :=
  ∃ pointer, w.pointer level = some pointer ∧ reads[level.rank]? = some pointer

/-- Above the PTE the entry of a level is read when the levels above pass their tests. -/
theorem readsEntry_iff (level : Level) :
    w.ReadsEntry w.reads level ↔ level ≠ .pte ∧ ∀ up ∈ level.upper, w.Passes up := by
  unfold ReadsEntry reads
  cases level with
  | pgd => simp [pointer, Level.rank, Level.upper]
  | p4d =>
      by_cases pgd : w.Passes .pgd <;> simp [pointer, Level.rank, Level.upper, pgd]
  | pud =>
      by_cases pgd : w.Passes .pgd <;> by_cases p4d : w.Passes .p4d <;>
      simp [pointer, Level.rank, Level.upper, pgd, p4d]
  | pmd =>
      by_cases pgd : w.Passes .pgd <;> by_cases p4d : w.Passes .p4d <;>
      by_cases pud : w.Passes .pud <;>
      simp [pointer, Level.rank, Level.upper, pgd, p4d, pud]
  | pte =>
      by_cases pgd : w.Passes .pgd <;> by_cases p4d : w.Passes .p4d <;>
      by_cases pud : w.Passes .pud <;>
      simp [Level.rank, pgd, p4d, pud]

end KernelWalk

theorem queries_resolveTables (host : Host) (root addr : Word) (entry : Vm) (read : Word → Word) :
    (resolveTables host root addr entry).queries read =
      KernelWalk.reads ⟨host, root, addr, read⟩ := by
  have asks : ∀ {α : Type} (a : Word) (f : Word → ReadProg α),
      (readWord a >>= f).queries read = a :: (f (read a)).queries read := by
    intro α a f
    rw [Prog.queries_bind]
    rfl
  unfold resolveTables KernelWalk.reads
  dsimp only
  rw [asks]
  refine congrArg (_ :: ·) ?_
  split
  next fails => exact (if_neg fun passes : KernelWalk.Passes _ .pgd => passes fails).symm
  next passes =>
  have pgd : KernelWalk.Passes ⟨host, root, addr, read⟩ .pgd := passes
  rw [if_pos pgd, asks]
  refine congrArg (_ :: ·) ?_
  split
  next fails => exact (if_neg fun passes : KernelWalk.Passes _ .p4d => passes fails).symm
  next passes =>
  have p4d : KernelWalk.Passes ⟨host, root, addr, read⟩ .p4d := passes
  rw [if_pos p4d, asks]
  refine congrArg (_ :: ·) ?_
  split
  next fails => exact (if_neg fun passes : KernelWalk.Passes _ .pud => passes fails).symm
  next passes =>
  have pud : KernelWalk.Passes ⟨host, root, addr, read⟩ .pud := passes
  rw [if_pos pud, asks]
  refine congrArg (_ :: ·) ?_
  -- the pointer of the PTE is only computed
  split
  next => rfl
  next =>
  split
  next => rfl
  next => split <;> rfl

/-- The words of page tables among what a run does. -/
def entryReads (ops : List KernelOp) : List Word :=
  ops.filterMap fun
    | .readEntry pointer => some pointer
    | _ => none

theorem entryReads_append (first second : List KernelOp) :
    entryReads (first ++ second) = entryReads first ++ entryReads second :=
  List.filterMap_append

theorem entryReads_map_readEntry (pointers : List Word) :
    entryReads (pointers.map KernelOp.readEntry) = pointers := by
  induction pointers with
  | nil => rfl
  | cons pointer rest ih => exact congrArg (pointer :: ·) ih

/-- Taking and dropping a lock reads no entry. -/
theorem entryReads_when {host : Host} {copy : UserCopy} {p : KernelProg Unit} {s : CallState}
    (none : entryReads (p.trace (kernelHandler host copy) s) = []) (condition : Bool) :
    entryReads ((when condition p).trace (kernelHandler host copy) s) = [] := by
  cases condition with
  | false => rfl
  | true => exact none

/-- The words that a run of `resolve_vm` reads. -/
theorem entryReads_resolveVm {host : Host} {copy : UserCopy} {pid : Word} {mm : Mm}
    (found : host.getMm pid = some mm) (addr : Word) (lock : Bool) (s : CallState) :
    entryReads ((resolveVm host addr pid lock).trace (kernelHandler host copy) s) =
      (s.kernel.walk host addr mm).reads := by
  have answers : ∀ a, Prog.run (kernelHandler host copy) (readEntry a) s =
      some (s.kernel.entryAt host a, s) :=
    fun a => Prog.run_perform (KernelOp.readEntry a) s
  have each : ∀ a, (readEntry a).trace (kernelHandler host copy) s = [KernelOp.readEntry a] :=
    fun a => Prog.trace_perform (KernelOp.readEntry a) s
  have walked := Prog.trace_translate answers each
    (resolveTables host (s.kernel.pgd mm) addr (Vm.cleared pid))
  have taken : Prog.run (kernelHandler host copy) (when lock (mmapReadLock mm)) s =
      some ((), s) := by
    rw [run_when, run_mmapReadLock, ite_self]
  have dropped : Prog.run (kernelHandler host copy) (when lock (mmapReadUnlock mm)) s =
      some ((), s) := by
    rw [run_when, run_mmapReadUnlock, ite_self]
  have taking : entryReads ((when lock (mmapReadLock mm)).trace (kernelHandler host copy) s) = [] :=
    entryReads_when rfl lock
  have dropping :
      entryReads ((when lock (mmapReadUnlock mm)).trace (kernelHandler host copy) s) = [] :=
    entryReads_when rfl lock
  unfold resolveVm
  rw [found]
  dsimp only
  rw [Prog.trace_bind_of_some taken, Prog.trace_bind_of_some (run_mmPgd s mm),
    Prog.trace_bind_of_some (run_translate_readEntry _ s), Prog.trace_bind_of_some dropped, walked,
    queries_resolveTables, entryReads_append, entryReads_append, entryReads_append,
    entryReads_append, entryReads_map_readEntry, taking, dropping]
  exact List.append_nil _

/-! ## Tables and other entries -/

/-- What `X_present` and `X_leaf` say of the entries of each level. -/
structure EntryKinds where
  present : Level → Word → Prop
  leaf : Level → Word → Prop

/-- An entry that points to a table. -/
def EntryKinds.Table (kinds : EntryKinds) (level : Level) (entry : Word) : Prop :=
  kinds.present level entry ∧ ¬ kinds.leaf level entry

/-- `X_none` tests for the empty entry, `pud_leaf` and `pmd_leaf` for leaves. -/
structure EntryKinds.TestedBy (kinds : EntryKinds) (host : Host) : Prop where
  p4dNone : ∀ e, host.p4dNone e = decide (e = 0)
  pudNone : ∀ e, host.pudNone e = decide (e = 0)
  pmdNone : ∀ e, host.pmdNone e = decide (e = 0)
  pudLeaf : ∀ e, host.pudLeaf e = true ↔ kinds.leaf .pud e
  pmdLeaf : ∀ e, host.pmdLeaf e = true ↔ kinds.leaf .pmd e

section Safety

variable (kinds : EntryKinds) (host : Host) (copy : UserCopy)

/-- A run of `resolve_vm` reads the word of a level only below an entry that points to a
table. -/
def OnlyRealTables (addr pid : Word) (lock : Bool) (s : CallState) : Prop :=
  ∀ mm, host.getMm pid = some mm → ∀ level up, level.above = some up →
    (s.kernel.walk host addr mm).ReadsEntry
      (entryReads ((resolveVm host addr pid lock).trace (kernelHandler host copy) s)) level →
    kinds.Table up ((s.kernel.walk host addr mm).entry up)

/-- Every entry that the descent goes on below points to a table: a PGD and a P4D entry
that pass their tests, and then a PUD entry that is not empty. -/
structure KernelWalk.TablesAbove (walk : KernelWalk) : Prop where
  pgd : walk.Passes .pgd → kinds.Table .pgd (walk.entry .pgd)
  p4d : walk.Passes .pgd → walk.Passes .p4d → kinds.Table .p4d (walk.entry .p4d)
  pud : walk.Passes .pgd → walk.Passes .p4d → walk.entry .pud ≠ 0 →
    kinds.Table .pud (walk.entry .pud)

end Safety

section Iff

variable {kinds : EntryKinds} {host : Host} {copy : UserCopy}

/-- The levels that are read below tables only. -/
theorem KernelWalk.tablesAbove_iff {walk : KernelWalk} (tests : kinds.TestedBy walk.host) :
    walk.TablesAbove kinds ↔ ∀ level up, level.above = some up →
      walk.ReadsEntry walk.reads level → kinds.Table up (walk.entry up) := by
  have pud := passes_pud_iff tests.pudNone
  simp only [readsEntry_iff]
  constructor
  · rintro above level up isAbove ⟨ne, upper⟩
    cases level with
    | pgd => cases isAbove
    | p4d =>
        cases isAbove
        exact above.pgd (upper .pgd (by decide))
    | pud =>
        cases isAbove
        exact above.p4d (upper .pgd (by decide)) (upper .p4d (by decide))
    | pmd =>
        cases isAbove
        exact above.pud (upper .pgd (by decide)) (upper .p4d (by decide))
          (pud.mp (upper .pud (by decide)))
    | pte => exact absurd rfl ne
  · intro only
    refine ⟨fun pgd => ?_, fun pgd p4d => ?_, fun pgd p4d filled => ?_⟩
    · exact only .p4d .pgd rfl ⟨by decide, by simpa [Level.upper] using pgd⟩
    · exact only .pud .p4d rfl ⟨by decide, by simpa [Level.upper] using ⟨pgd, p4d⟩⟩
    · exact only .pmd .pud rfl ⟨by decide, by simpa [Level.upper] using ⟨pgd, p4d, pud.mpr filled⟩⟩

/-- **Only real tables are read.**  That holds exactly for the page tables in which the
descent goes on below tables only; it also goes on below a PUD entry that is a leaf or is
not present. -/
theorem onlyRealTables_iff (tests : kinds.TestedBy host) (addr pid : Word) (lock : Bool)
    (s : CallState) :
    OnlyRealTables kinds host copy addr pid lock s ↔
      ∀ mm, host.getMm pid = some mm → (s.kernel.walk host addr mm).TablesAbove kinds := by
  refine forall₂_congr fun mm found => ?_
  rw [entryReads_resolveVm found]
  exact (@KernelWalk.tablesAbove_iff kinds (s.kernel.walk host addr mm) tests).symm

/-- Where the tests of the PGD and the P4D let tables pass only, the PUD decides. -/
theorem tablesAbove_iff_pud {walk : KernelWalk}
    (pgd : walk.Passes .pgd → kinds.Table .pgd (walk.entry .pgd))
    (p4d : walk.Passes .p4d → kinds.Table .p4d (walk.entry .p4d)) :
    walk.TablesAbove kinds ↔ (walk.Passes .pgd → walk.Passes .p4d →
      walk.entry .pud = 0 ∨ kinds.Table .pud (walk.entry .pud)) := by
  constructor
  · intro above first second
    exact or_iff_not_imp_left.mpr fun filled => above.pud first second filled
  · intro decides
    exact ⟨pgd, fun _ => p4d, fun first second filled =>
      (decides first second).resolve_left filled⟩

end Iff

/-! ## On the sample machine -/

/-- The entries of a 4-level x86_64 kernel, on which the PGD is folded. -/
def fourLevelKinds : EntryKinds where
  present := fun level e => level = .pgd ∨ e.getLsbD 0 = true
  leaf := fun level e => (level = .pud ∨ level = .pmd) ∧ e.getLsbD 0 = true ∧ e.getLsbD 7 = true

theorem fourLevelKinds_testedBy {host : Host} (fourLevel : FourLevel host) :
    fourLevelKinds.TestedBy host where
  p4dNone := fourLevel.p4dNone
  pudNone := fourLevel.pudNone
  pmdNone := fourLevel.pmdNone
  pudLeaf := fun e => by
    rw [fourLevel.pudLeaf, Bool.and_eq_true]
    simp [fourLevelKinds]
  pmdLeaf := fun e => by
    rw [fourLevel.pmdLeaf, Bool.and_eq_true]
    simp [fourLevelKinds]

/-- A call in a kernel with given page tables. -/
def callWith (mem : ByteMem) : CallState :=
  { kernel := { sampleKernel with mem }, arg := fun _ => 0, user := fun _ => 0 }

theorem onlyRealTables_iff_sample :
    OnlyRealTables fourLevelKinds sampleHost wholeCopy 0 0 true (callWith sampleMem) := by
  have tests := fourLevelKinds_testedBy sampleHost_fourLevel
  refine (onlyRealTables_iff tests 0 0 true _).mpr fun mm found => ?_
  obtain rfl : 0 = mm := Option.some.inj found
  refine (tablesAbove_iff_pud (fun _ => ?_) (fun _ => ?_)).mpr fun _ _ => .inr ?_
  · exact ⟨.inl rfl, fun leaf => absurd leaf.1 (by decide)⟩
  · exact ⟨.inr (by decide +kernel), fun leaf => absurd leaf.1 (by decide)⟩
  · exact ⟨.inr (by decide +kernel), fun leaf => absurd leaf.2.2 (by decide +kernel)⟩

/-- Page tables whose PUD entry for address 0 maps the page of 1 GiB at `0x40000000`. -/
def hugePudMem : ByteMem := ByteMem.writeAll (fun _ => 0) [(0x1000, 0x2003), (0x2000, 0x40000083)]

/-- The first word of a page of 1 GiB is read as a PMD entry. -/
theorem not_onlyRealTables_hugePud :
    fourLevelKinds.TestedBy sampleHost ∧
    directMap 0x40000000 ∈ entryReads ((resolveVm sampleHost 0 0 true).trace
      (kernelHandler sampleHost wholeCopy) (callWith hugePudMem)) ∧
    ¬ OnlyRealTables fourLevelKinds sampleHost wholeCopy 0 0 true (callWith hugePudMem) := by
  have reads := @entryReads_resolveVm sampleHost wholeCopy 0 0 (by decide) 0 true
    (callWith hugePudMem)
  refine ⟨fourLevelKinds_testedBy sampleHost_fourLevel, ?_, fun only => ?_⟩
  · rw [reads]
    decide +kernel
  · have below := only 0 (by decide) .pmd .pud rfl
    rw [reads] at below
    have table := below ⟨directMap 0x40000000, by decide +kernel, by decide +kernel⟩
    exact table.2 ⟨.inl rfl, by decide +kernel, by decide +kernel⟩

end PTEditor
