import PTEditor.Library.Operations

/-!
# The bits that the tables are indexed with

The five indices of an address are consecutive fields.  Two addresses have the same
indices exactly when they agree on all the bits from the page offset up
(`sameIndices_iff`), and then the library walks and updates the tables alike for both.
-/

namespace PTEditor

open Sys

/-! ## Fields of an address -/

/-- Two addresses agree on the bits from `low` up to `high`. -/
def AgreeOn (low high : Nat) (first second : Word) : Prop :=
  ∀ i, low ≤ i → i < high → first.getLsbD i = second.getLsbD i

theorem bitField_eq_iff {offset width : Nat} (inside : width ≤ 64) (first second : Word) :
    bitField offset width first = bitField offset width second ↔
      AgreeOn offset (offset + width) first second := by
  constructor
  · intro same i above below
    have bit := congrArg (BitVec.getLsbD · (i - offset)) same
    have inField : i - offset < width := by omega
    have inWord : i - offset < 64 := by omega
    have position : offset + (i - offset) = i := by omega
    simpa only [getLsbD_bitField, inField, inWord, position, decide_true, Bool.true_and] using bit
  · intro agree
    apply BitVec.eq_of_getLsbD_eq
    intro i _
    rw [getLsbD_bitField, getLsbD_bitField]
    by_cases inField : i < width
    · rw [agree (offset + i) (by omega) (by omega)]
    · rw [decide_eq_false inField, Bool.false_and, Bool.false_and]

namespace PteditPagingDefinition

variable {d : PteditPagingDefinition}

/-- The bit above the index of the PGD. -/
def top (d : PteditPagingDefinition) : Nat :=
  d.pageOffset +
    (d.ptEntries + d.pmdEntries + d.pudEntries + d.p4dEntries + d.pgdEntries)

/-- Two addresses agree on the bits that the tables are indexed with. -/
def SameTableBits (d : PteditPagingDefinition) (first second : Word) : Prop :=
  AgreeOn d.pageOffset d.top first second

/-- The fields of the five levels cover the bits from the page offset up. -/
theorem agreeOn_fields_iff (first second : Word) :
    (∀ level, AgreeOn (d.shift level) (d.shift level + d.width level) first second) ↔
      d.SameTableBits first second := by
  constructor
  · intro fields i above below
    unfold top at below
    rcases Nat.lt_or_ge i (d.shift .pmd) with inPte | fromPmd
    · exact fields .pte i above inPte
    rcases Nat.lt_or_ge i (d.shift .pud) with inPmd | fromPud
    · exact fields .pmd i fromPmd inPmd
    rcases Nat.lt_or_ge i (d.shift .p4d) with inPud | fromP4d
    · exact fields .pud i fromPud inPud
    rcases Nat.lt_or_ge i (d.shift .pgd) with inP4d | fromPgd
    · exact fields .p4d i fromP4d inP4d
    · refine fields .pgd i fromPgd ?_
      simp only [shift, width]
      omega
  · intro agree level i above below
    have bounds : d.pageOffset ≤ i ∧ i < d.top := by
      unfold top
      cases level <;> simp only [shift, width] at above below <;> omega
    exact agree i bounds.1 bounds.2

/-- Two addresses have the same index at every level, in `ptedit_update_user_ext`. -/
theorem index_eq_iff (fits : d.Fits) (first second : Word) :
    (∀ level, d.index level first = d.index level second) ↔ d.SameTableBits first second := by
  rw [← agreeOn_fields_iff]
  refine forall_congr' fun level => ?_
  have narrow := fits.narrow level
  rw [index_eq_indexField fits, index_eq_indexField fits]
  exact bitField_eq_iff (by omega) first second

/-- Two addresses have the same index at every level, in `ptedit_resolve_user_ext`. -/
theorem intIndex_eq_iff (fits : d.Fits) (first second : Word) :
    (∀ level, d.intIndex level first = d.intIndex level second) ↔ d.SameTableBits first second := by
  simp only [intIndex_eq fits]
  exact index_eq_iff fits first second

end PteditPagingDefinition

/-! ## Walking -/

/-- The entry structure with another address. -/
def PteditEntry.withVaddr (entry : PteditEntry) (vaddr : Word) : PteditEntry := { entry with vaddr }

namespace PteditEntry

variable (entry : PteditEntry) (vaddr value : Word) (level : Level)

theorem withVaddr_withField :
    (entry.withVaddr vaddr).withField value level =
      (entry.withField value level).withVaddr vaddr := by
  cases level <;> rfl

theorem withVaddr_withValid :
    (entry.withVaddr vaddr).withValid level = (entry.withValid level).withVaddr vaddr := rfl

@[simp] theorem field_withVaddr : (entry.withVaddr vaddr).field level = entry.field level := by
  cases level <;> rfl

end PteditEntry

section Walks

variable {arch : Arch} {d : PteditPagingDefinition} {first second : Word}

/-- The second program does what the first does, and reports another address. -/
def Readdresses (vaddr : Word) (p q : ReadProg PteditEntry) : Prop :=
  q = p >>= fun entry => pure (entry.withVaddr vaddr)

theorem readdresses_pure (vaddr : Word) (entry : PteditEntry) :
    Readdresses vaddr (pure entry) (pure (entry.withVaddr vaddr)) := rfl

theorem Readdresses.read {vaddr : Word} {p q : Word → ReadProg PteditEntry}
    (rest : ∀ value, Readdresses vaddr (p value) (q value)) (address : Word) :
    Readdresses vaddr (readWord address >>= p) (readWord address >>= q) :=
  congrArg (Prog.call _) (funext rest)

variable (arch)

theorem readdresses_pteditPteLevel (same : d.intIndex .pte first = d.intIndex .pte second)
    (pmdEntry : Word) (resolved : PteditEntry) :
    Readdresses second (pteditPteLevel arch d first pmdEntry resolved)
      (pteditPteLevel arch d second pmdEntry (resolved.withVaddr second)) := by
  unfold pteditPteLevel
  rw [same]
  split
  · exact readdresses_pure _ _
  · exact Readdresses.read (fun _ => readdresses_pure _ _) _

theorem readdresses_pteditMiddleLevel {level : Level}
    (same : d.intIndex level first = d.intIndex level second)
    {below below' : Word → PteditEntry → ReadProg PteditEntry}
    (rest : ∀ above resolved, Readdresses second (below above resolved)
      (below' above (resolved.withVaddr second)))
    (above : Word) (resolved : PteditEntry) :
    Readdresses second (pteditMiddleLevel arch d first level below above resolved)
      (pteditMiddleLevel arch d second level below' above (resolved.withVaddr second)) := by
  have descend : ∀ entry (resolved : PteditEntry), Readdresses second
      (if Present arch entry then below entry resolved else pure resolved)
      (if Present arch entry then below' entry (resolved.withVaddr second)
        else pure (resolved.withVaddr second)) := by
    intro entry resolved
    split
    · exact rest entry resolved
    · exact readdresses_pure _ _
  unfold pteditMiddleLevel
  rw [same]
  split
  · refine Readdresses.read (fun entry => ?_) _
    rw [PteditEntry.withVaddr_withValid, PteditEntry.withVaddr_withField]
    exact descend entry _
  · rw [PteditEntry.withVaddr_withField]
    exact descend above _

/-- Walks with the same indices ask the same questions and find the same entries. -/
theorem readdresses_pteditWalk
    (same : ∀ level, d.intIndex level first = d.intIndex level second) (root : Word) (pid : Pid) :
    Readdresses second (pteditWalk arch d first root pid) (pteditWalk arch d second root pid) := by
  have pte := readdresses_pteditPteLevel arch (same .pte)
  have pmd := readdresses_pteditMiddleLevel arch (same .pmd) pte
  have pud := readdresses_pteditMiddleLevel arch (same .pud) pmd
  have p4d := readdresses_pteditMiddleLevel arch (same .p4d) pud
  have cleared : PteditEntry.cleared second (sizeOfInt pid) =
      (PteditEntry.cleared first (sizeOfInt pid)).withVaddr second := rfl
  unfold pteditWalk
  rw [same, cleared]
  dsimp only
  split
  · exact readdresses_pure _ _
  · refine Readdresses.read (fun entry => ?_) _
    split
    · exact readdresses_pure _ _
    · rw [PteditEntry.withVaddr_withField, PteditEntry.withVaddr_withValid]
      exact p4d entry _

end Walks

/-! ## Resolving and updating -/

/-- The resolver makes the same calls for both addresses and returns structures that
differ in the address only. -/
structure ResolvesAlike (sys : System) (lib : Lib) (pid : Pid) (deref : Word → Sys Word)
    (w : World) (first second : Word) : Prop where
  calls : (pteditResolveUserExt lib second pid deref).trace (sysHandler sys) w =
    (pteditResolveUserExt lib first pid deref).trace (sysHandler sys) w
  result : Prog.run (sysHandler sys) (pteditResolveUserExt lib second pid deref) w =
    (Prog.run (sysHandler sys) (pteditResolveUserExt lib first pid deref) w).map
      fun (entry, w') => (entry.withVaddr second, w')

/-- The calls that write physical memory. -/
def SysOp.isWrite : SysOp → Bool
  | .pwrite _ _ _ | .store _ _ _ => true
  | _ => false

def SysOp.Quiet (op : SysOp) : Prop := op.isWrite = false

/-- The writes of a run. -/
def writes {α : Type} (sys : System) (p : Sys α) (w : World) : List SysOp :=
  (p.trace (sysHandler sys) w).filter SysOp.isWrite

section Runs

variable {sys : System} {lib : Lib} {first second : Word} {w : World}

theorem resolvesAlike
    (same : ∀ level, lib.pagingDefinition.intIndex level first =
      lib.pagingDefinition.intIndex level second)
    (pid : Pid) (deref : Word → Sys Word) : ResolvesAlike sys lib pid deref w first second := by
  have readdressed : pteditResolveUserExt lib second pid deref =
      pteditResolveUserExt lib first pid deref >>= fun entry =>
        pure (entry.withVaddr second) := by
    unfold pteditResolveUserExt
    rw [Prog.bind_bind]
    refine congrArg _ (funext fun root => ?_)
    rw [readdresses_pteditWalk lib.arch same root pid, Prog.translate_bind]
    rfl
  constructor
  · rw [readdressed]
    exact Prog.trace_bind_ret _ _ w
  · rw [readdressed]
    exact Prog.run_bind_ret _ _ w

theorem writes_of_quiet {α : Type} {p : Sys α} (only : p.Performs SysOp.Quiet) :
    writes sys p w = [] := by
  refine List.filter_eq_nil_iff.mpr fun op member => ?_
  rw [only.trace w op member]
  exact Bool.false_ne_true

/-- The writes of a first part, and then those of what follows it. -/
theorem writes_bind_congr {α β : Type} {p : Sys α} {f g : α → Sys β}
    (rest : ∀ value w', writes sys (f value) w' = writes sys (g value) w') :
    writes sys (p >>= f) w = writes sys (p >>= g) w := by
  unfold writes
  cases ran : Prog.run (sysHandler sys) p w with
  | none => rw [Prog.trace_bind_of_none ran, Prog.trace_bind_of_none ran]
  | some result =>
      have later := rest result.1 result.2
      unfold writes at later
      rw [Prog.trace_bind_of_some ran, Prog.trace_bind_of_some ran, List.filter_append,
        List.filter_append, later]

theorem pteditUpdateLevel_readdress
    (same : ∀ level, lib.pagingDefinition.index level first =
      lib.pagingDefinition.index level second)
    (pset : Word → Word → Sys Unit) (root : Word) (vm current : PteditEntry) (level : Level) :
    pteditUpdateLevel lib pset root second vm (current.withVaddr second) level =
      pteditUpdateLevel lib pset root first vm current level := by
  have slot : updateSlot lib.arch lib.pagingDefinition root second (current.withVaddr second)
      level = updateSlot lib.arch lib.pagingDefinition root first current level := by
    unfold updateSlot
    rw [same level]
    split
    · rfl
    · rw [PteditEntry.field_withVaddr]
  unfold pteditUpdateLevel
  rw [slot]
  rfl

/-- What `ptedit_update_user_ext` does with the entries that it resolved. -/
def pteditUpdateFrom (lib : Lib) (address : Word) (pid : Pid) (vm : PteditEntry)
    (pset : Word → Word → Sys Unit) (current : PteditEntry) : Sys Unit := do
  let root ← pteditUserRoot lib pid
  if root = 0 then
    pure ()
  else do
    pteditUpdateLevel lib pset root address vm current .pte
    pteditUpdateLevel lib pset root address vm current .pmd
    pteditUpdateLevel lib pset root address vm current .pud
    pteditUpdateLevel lib pset root address vm current .p4d
    pteditUpdateLevel lib pset root address vm current .pgd
    pteditInvalidateTlbPid lib pid address

theorem pteditUpdateUserExt_eq (lib : Lib) (address : Word) (pid : Pid) (vm : PteditEntry)
    (pset : Word → Word → Sys Unit) :
    pteditUpdateUserExt lib address pid vm pset =
      pteditResolve lib address pid >>= pteditUpdateFrom lib address pid vm pset := rfl

theorem writes_pteditUpdateFrom
    (same : ∀ level, lib.pagingDefinition.index level first =
      lib.pagingDefinition.index level second)
    (pid : Pid) (vm current : PteditEntry) (pset : Word → Word → Sys Unit) :
    writes sys (pteditUpdateFrom lib second pid vm pset (current.withVaddr second)) w =
      writes sys (pteditUpdateFrom lib first pid vm pset current) w := by
  have flush : ∀ address w, writes sys (pteditInvalidateTlbPid lib pid address) w = [] := by
    intro address w
    have request : ∀ param arg,
        (ioctl lib.fd .invalidateTlbPid param arg).Performs SysOp.Quiet :=
      fun _ _ => Prog.Performs.perform rfl
    exact writes_of_quiet ((request _ _).bind fun _ => trivial)
  unfold pteditUpdateFrom
  refine writes_bind_congr fun root w₁ => ?_
  split
  · rfl
  · simp only [pteditUpdateLevel_readdress same]
    refine writes_bind_congr fun _ w₂ => writes_bind_congr fun _ w₃ => ?_
    refine writes_bind_congr fun _ w₄ => writes_bind_congr fun _ w₅ => ?_
    refine writes_bind_congr fun _ w₆ => ?_
    rw [flush, flush]

/-- Under the kernel implementation `ptedit_resolve` is the walk of the kernel: it takes
both addresses the same way. -/
def KernelAgrees (sys : System) (lib : Lib) (k : Kernel) (pid : Pid) (first second : Word) :
    Prop :=
  lib.implementation = .kernel →
    kernelResolve sys.host k first (sizeOfInt pid) = kernelResolve sys.host k second (sizeOfInt pid)

theorem kernelEntry_readdress {k : Kernel} {pid : Pid}
    (agrees : kernelResolve sys.host k first (sizeOfInt pid) =
      kernelResolve sys.host k second (sizeOfInt pid)) :
    sys.kernelEntry k second pid = (sys.kernelEntry k first pid).withVaddr second := by
  have load : ∀ (vm : Vm) (user : PteditEntry) (read : Word → Word),
      (vmToUser (user.withVaddr second) vm).eval read =
        ((vmToUser user vm).eval read).withVaddr second := by
    intro vm user read
    simp only [vmToUser, Prog.eval_bind]
    rfl
  change (vmToUser ((PteditEntry.cleared first (sizeOfInt pid)).withVaddr second)
    (kernelResolve sys.host k second (sizeOfInt pid)).2).eval _ = _
  rw [load, ← agrees]
  rfl

theorem run_pteditResolve_readdress
    (same : ∀ level, lib.pagingDefinition.intIndex level first =
      lib.pagingDefinition.intIndex level second)
    (pid : Pid) (agrees : KernelAgrees sys lib w.kernel pid first second) :
    Prog.run (sysHandler sys) (pteditResolve lib second pid) w =
      (Prog.run (sysHandler sys) (pteditResolve lib first pid) w).map
        fun (entry, w') => (entry.withVaddr second, w') := by
  unfold pteditResolve
  cases selected : lib.implementation with
  | unset => rfl
  | userPread => exact (resolvesAlike same pid (pteditPhysReadPread lib)).result
  | user => exact (resolvesAlike same pid (pteditPhysReadMap lib)).result
  | kernel =>
      by_cases device : sys.file lib.fd = .device
      · dsimp only
        rw [run_pteditResolveKernel_of_device device, run_pteditResolveKernel_of_device device,
          kernelEntry_readdress (agrees selected)]
        rfl
      · -- the request fails, and the structure comes back as it was sent
        have failed : ∀ address, Prog.run (sysHandler sys)
            (pteditResolveKernel lib address pid) w =
            some (PteditEntry.cleared address (sizeOfInt pid), w) := by
          intro address
          have answer : ∀ arg, sysHandler sys (.ioctl lib.fd .vmResolve 0 arg) w =
              some ((-1, arg), w) := by
            intro arg
            dsimp only [sysHandler]
            cases opened : sys.file lib.fd with
            | device => exact absurd opened device
            | _ => rfl
          exact Prog.run_bind_of_some ((Prog.run_perform _ _).trans (answer _))
        dsimp only
        rw [failed, failed]
        rfl

/-- `ptedit_update_user_ext` writes the same for both addresses. -/
theorem writes_pteditUpdateUserExt
    (sameInt : ∀ level, lib.pagingDefinition.intIndex level first =
      lib.pagingDefinition.intIndex level second)
    (same : ∀ level, lib.pagingDefinition.index level first =
      lib.pagingDefinition.index level second)
    (pid : Pid) (vm : PteditEntry) (pset : Word → Word → Sys Unit)
    (agrees : KernelAgrees sys lib w.kernel pid first second) :
    writes sys (pteditUpdateUserExt lib second pid vm pset) w =
      writes sys (pteditUpdateUserExt lib first pid vm pset) w := by
  have reads : AllowsReads lib SysOp.Quiet :=
    ⟨fun _ _ => rfl, fun _ _ => rfl, fun _ _ => rfl, fun _ => rfl, rfl⟩
  have quiet : ∀ address, writes sys (pteditResolve lib address pid) w = [] :=
    fun address => writes_of_quiet (performs_pteditResolve reads address pid)
  have resolved := run_pteditResolve_readdress sameInt pid agrees
  rw [pteditUpdateUserExt_eq, pteditUpdateUserExt_eq]
  unfold writes at quiet ⊢
  cases ran : Prog.run (sysHandler sys) (pteditResolve lib first pid) w with
  | none =>
      rw [ran] at resolved
      rw [Prog.trace_bind_of_none ran, Prog.trace_bind_of_none resolved, quiet, quiet]
  | some result =>
      have stored : writes sys (pteditUpdateFrom lib second pid vm pset
          (result.1.withVaddr second)) result.2 =
          writes sys (pteditUpdateFrom lib first pid vm pset result.1) result.2 :=
        writes_pteditUpdateFrom same pid vm result.1 pset
      unfold writes at stored
      rw [ran] at resolved
      rw [Prog.trace_bind_of_some ran, Prog.trace_bind_of_some resolved, List.filter_append,
        List.filter_append, quiet, quiet, stored]

end Runs

/-- **The bits that count.**  Two addresses have the same indices, in the resolver and in
the updater, exactly when they agree from the page offset up to the top of the PGD
index; then they are resolved alike and updated alike. -/
theorem indexDecomposition {lib : Lib} (fits : lib.pagingDefinition.Fits) (first second : Word) :
    ((∀ level, lib.pagingDefinition.intIndex level first =
      lib.pagingDefinition.intIndex level second) ↔
        lib.pagingDefinition.SameTableBits first second) ∧
    ((∀ level, lib.pagingDefinition.index level first =
      lib.pagingDefinition.index level second) ↔
        lib.pagingDefinition.SameTableBits first second) ∧
    (lib.pagingDefinition.SameTableBits first second →
      ∀ sys w pid deref, ResolvesAlike sys lib pid deref w first second) ∧
    (lib.pagingDefinition.SameTableBits first second →
      ∀ sys w pid vm pset, KernelAgrees sys lib w.kernel pid first second →
        writes sys (pteditUpdateUserExt lib second pid vm pset) w =
          writes sys (pteditUpdateUserExt lib first pid vm pset) w) := by
  have ints := PteditPagingDefinition.intIndex_eq_iff fits first second
  have indices := PteditPagingDefinition.index_eq_iff fits first second
  refine ⟨ints, indices, fun agree sys w pid deref => ?_, fun agree sys w pid vm pset kernel => ?_⟩
  · exact resolvesAlike (ints.mpr agree) pid deref
  · exact writes_pteditUpdateUserExt (ints.mpr agree) (indices.mpr agree) pid vm pset kernel

/-- Two addresses of one page, on x86_64. -/
theorem indexDecomposition_samePage :
    ResolvesAlike sampleSystem sampleLib 0 (pteditPhysReadPread sampleLib) sampleWorld
      0x7000 0x7fff ∧
    ∀ vm, writes sampleSystem (pteditUpdateUserExt sampleLib 0x7fff 0 vm
        (pteditPhysWritePwrite sampleLib)) sampleWorld =
      writes sampleSystem (pteditUpdateUserExt sampleLib 0x7000 0 vm
        (pteditPhysWritePwrite sampleLib)) sampleWorld := by
  have bits : ∀ i < 48, 12 ≤ i → (0x7000#64).getLsbD i = (0x7fff#64).getLsbD i := by decide
  have agree : sampleLib.pagingDefinition.SameTableBits 0x7000 0x7fff :=
    fun i above below => bits i below above
  obtain ⟨-, -, resolve, update⟩ :=
    @indexDecomposition sampleLib PteditPagingDefinition.x86_64_fits 0x7000 0x7fff
  exact ⟨resolve agree _ _ _ _, fun vm => update agree _ _ _ vm _ nofun⟩

end PTEditor
