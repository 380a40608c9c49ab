import PTEditor.Module.Resolve

/-!
# What resolving and updating in the module do

* `KernelWalk` is the descent of `resolve_vm` in closed form: the pointer and the
  entry of every level, and which levels pass their tests.  `eval_resolveTables`
  is the equation between the two.
* `run_resolveVm` and `run_updateVm` are the specifications of the two functions:
  the first leaves the state alone, the second performs the stores
  `kernelStores` and nothing else.
-/

namespace PTEditor

/-- The descent of `resolve_vm` for one address below one root. -/
structure KernelWalk where
  host : Host
  root : Word
  addr : Word
  read : Word → Word

namespace KernelWalk

variable (w : KernelWalk)

def pgdPtr : Word := w.host.pgdOffset w.root w.addr

def p4dPtr : Word := w.host.p4dOffset w.pgdPtr (w.read w.pgdPtr) w.addr

def pudPtr : Word := w.host.pudOffset w.p4dPtr (w.read w.p4dPtr) w.addr

def pmdPtr : Word := w.host.pmdOffset w.pudPtr (w.read w.pudPtr) w.addr

def ptePtr : Option Word := w.host.pteOffsetMap w.pmdPtr (w.read w.pmdPtr) w.addr

/-- The pointer that `resolve_vm` computes for a level. -/
def pointer : Level → Option Word
  | .pgd => some w.pgdPtr
  | .p4d => some w.p4dPtr
  | .pud => some w.pudPtr
  | .pmd => some w.pmdPtr
  | .pte => w.ptePtr

/-- The test that `resolve_vm` makes before it sets a level's valid bit. -/
def Passes : Level → Prop
  | .pgd => ¬ (w.host.pgdNone (w.read w.pgdPtr) || w.host.pgdBad (w.read w.pgdPtr))
  | .p4d => ¬ (w.host.p4dNone (w.read w.p4dPtr) || w.host.p4dBad (w.read w.p4dPtr))
  | .pud => ¬ w.host.pudNone (w.read w.pudPtr)
  | .pmd => ¬ (w.host.pmdNone (w.read w.pmdPtr) || w.host.pudLeaf (w.read w.pudPtr))
  | .pte => w.ptePtr.isSome ∧ ¬ w.host.pmdLeaf (w.read w.pmdPtr)

instance : DecidablePred w.Passes := fun level => by
  cases level <;> unfold Passes <;> infer_instance

/-- A level ends up valid when it and all levels above pass. -/
def Valid (level : Level) : Prop :=
  (∀ up ∈ level.upper, w.Passes up) ∧ w.Passes level

instance : DecidablePred w.Valid := fun _ => inferInstanceAs (Decidable (_ ∧ _))

/-- The `vm_t` that `resolve_vm` leaves. -/
def vm (pid : Word) : Vm :=
  let pointer := fun level => if w.Valid level then w.pointer level else none
  { pid, pgd := pointer .pgd, p4d := pointer .p4d, pud := pointer .pud, pmd := pointer .pmd,
    pte := pointer .pte, valid := Level.maskOf w.Valid }

theorem pointer_vm (pid : Word) (level : Level) :
    (w.vm pid).pointer level = if w.Valid level then w.pointer level else none := by
  cases level <;> rfl

theorem valid_vm (pid : Word) (level : Level) : (w.vm pid).Valid level ↔ w.Valid level :=
  Level.maskOf_and_validMask w.Valid level

/-- A level is valid only below valid levels. -/
theorem Valid.upper {w : KernelWalk} {level up : Level} (valid : w.Valid level)
    (above : up ∈ level.upper) : w.Valid up := by
  refine ⟨fun higher member => valid.1 higher ?_, valid.1 up above⟩
  rw [Level.mem_upper] at *
  omega

theorem Valid.isSome {w : KernelWalk} {level : Level} (valid : w.Valid level) :
    (w.pointer level).isSome := by
  cases level with
  | pte => exact valid.2.1
  | _ => rfl

/-- The entry that a level's pointer points to. -/
def entry (level : Level) : Word :=
  match w.pointer level with
  | none => 0
  | some pointer => w.read pointer

/-- A descent that stops at a level leaves the levels above valid. -/
theorem valid_iff_of_stops {w : KernelWalk} {stop : Level} (fails : ¬ w.Passes stop)
    (above : ∀ up ∈ stop.upper, w.Passes up) (level : Level) :
    w.Valid level ↔ level ∈ stop.upper := by
  constructor
  · intro valid
    rw [Level.mem_upper]
    by_contra below
    rcases Nat.eq_or_lt_of_le (Nat.not_lt.mp below) with same | lower
    · exact fails (Level.eq_of_rank_eq same ▸ valid.2)
    · exact fails (valid.1 stop (Level.mem_upper.mpr lower))
  · intro member
    refine ⟨fun up higher => above up ?_, above level member⟩
    rw [Level.mem_upper] at *
    omega

/-- The `vm_t` with the pointers of some levels. -/
def filled (w : KernelWalk) (levels : List Level) (pid : Word) : Vm :=
  let pointer := fun level => if level ∈ levels then w.pointer level else none
  { pid, pgd := pointer .pgd, p4d := pointer .p4d, pud := pointer .pud, pmd := pointer .pmd,
    pte := pointer .pte, valid := Level.maskOf (· ∈ levels) }

theorem vm_eq_filled {w : KernelWalk} {levels : List Level}
    (valid : ∀ level, w.Valid level ↔ level ∈ levels) (pid : Word) :
    w.vm pid = w.filled levels pid := by
  unfold vm filled
  rw [Level.maskOf_congr valid]
  simp only [valid]

/-- The result of a descent that stops at a level. -/
theorem resolved_of_stops {w : KernelWalk} {stop : Level} (fails : ¬ w.Passes stop)
    (above : ∀ up ∈ stop.upper, w.Passes up) (pid : Word) :
    ((if w.Valid .pte then 0 else 1, w.vm pid) : Int × Vm) = (1, w.filled stop.upper pid) := by
  have valid := valid_iff_of_stops fails above
  have last : Level.pte ∉ stop.upper := by cases stop <;> decide
  rw [if_neg (mt (valid .pte).mp last), vm_eq_filled valid]

/-- The result of a descent that comes to the PTE. -/
theorem resolved_of_valid {w : KernelWalk} (valid : w.Valid .pte) (pid : Word) :
    ((if w.Valid .pte then 0 else 1, w.vm pid) : Int × Vm) = (0, w.filled Level.all pid) := by
  have every : ∀ level, w.Valid level := by
    intro level
    cases level with
    | pte => exact valid
    | _ => exact valid.upper (by decide)
  rw [if_pos valid, vm_eq_filled fun level => iff_of_true (every level) level.mem_all]

/-! ### The tests of a kernel whose `X_none` tests for the empty entry -/

section Tests

variable {w : KernelWalk}

theorem passes_pgd_iff (none : ∀ e, w.host.pgdNone e = decide (e = 0)) :
    w.Passes .pgd ↔ w.entry .pgd ≠ 0 ∧ w.host.pgdBad (w.entry .pgd) = false := by
  change ¬ (w.host.pgdNone (w.entry .pgd) || w.host.pgdBad (w.entry .pgd)) ↔ _
  rw [none]
  simp

theorem passes_p4d_iff (none : ∀ e, w.host.p4dNone e = decide (e = 0)) :
    w.Passes .p4d ↔ w.entry .p4d ≠ 0 ∧ w.host.p4dBad (w.entry .p4d) = false := by
  change ¬ (w.host.p4dNone (w.entry .p4d) || w.host.p4dBad (w.entry .p4d)) ↔ _
  rw [none]
  simp

theorem passes_pud_iff (none : ∀ e, w.host.pudNone e = decide (e = 0)) :
    w.Passes .pud ↔ w.entry .pud ≠ 0 := by
  change ¬ w.host.pudNone (w.entry .pud) ↔ _
  rw [none, decide_eq_true_eq]

theorem passes_pmd_iff (none : ∀ e, w.host.pmdNone e = decide (e = 0)) :
    w.Passes .pmd ↔ w.entry .pmd ≠ 0 ∧ w.host.pudLeaf (w.entry .pud) = false := by
  change ¬ (w.host.pmdNone (w.entry .pmd) || w.host.pudLeaf (w.entry .pud)) ↔ _
  rw [none]
  simp

theorem passes_pte_iff (mapped : w.ptePtr.isSome) :
    w.Passes .pte ↔ w.host.pmdLeaf (w.entry .pmd) = false := by
  change w.ptePtr.isSome ∧ ¬ w.host.pmdLeaf (w.entry .pmd) ↔ _
  rw [and_iff_right mapped, Bool.not_eq_true]

end Tests

/-! ### The same descent in another memory -/

/-- The walk of the same address below the same root through other entries. -/
def withRead (w : KernelWalk) (read : Word → Word) : KernelWalk := { w with read }

/-- Other contents of memory hold the same entries above the PTE. -/
structure SameTables (w : KernelWalk) (read : Word → Word) : Prop where
  pgd : read w.pgdPtr = w.read w.pgdPtr
  p4d : read w.p4dPtr = w.read w.p4dPtr
  pud : read w.pudPtr = w.read w.pudPtr
  pmd : read w.pmdPtr = w.read w.pmdPtr

variable {w : KernelWalk} {read : Word → Word}

theorem p4dPtr_withRead (same : w.SameTables read) : (w.withRead read).p4dPtr = w.p4dPtr := by
  change w.host.p4dOffset w.pgdPtr (read w.pgdPtr) w.addr = _
  rw [same.pgd]
  rfl

theorem pudPtr_withRead (same : w.SameTables read) : (w.withRead read).pudPtr = w.pudPtr := by
  change w.host.pudOffset (w.withRead read).p4dPtr (read (w.withRead read).p4dPtr) w.addr = _
  rw [p4dPtr_withRead same, same.p4d]
  rfl

theorem pmdPtr_withRead (same : w.SameTables read) : (w.withRead read).pmdPtr = w.pmdPtr := by
  change w.host.pmdOffset (w.withRead read).pudPtr (read (w.withRead read).pudPtr) w.addr = _
  rw [pudPtr_withRead same, same.pud]
  rfl

theorem ptePtr_withRead (same : w.SameTables read) : (w.withRead read).ptePtr = w.ptePtr := by
  change w.host.pteOffsetMap (w.withRead read).pmdPtr (read (w.withRead read).pmdPtr) w.addr = _
  rw [pmdPtr_withRead same, same.pmd]
  rfl

theorem passes_withRead (same : w.SameTables read) (level : Level) :
    (w.withRead read).Passes level ↔ w.Passes level := by
  have p4d := p4dPtr_withRead same
  have pud := pudPtr_withRead same
  have pmd := pmdPtr_withRead same
  have pte := ptePtr_withRead same
  cases level with
  | pgd =>
      change ¬ (w.host.pgdNone (read w.pgdPtr) || w.host.pgdBad (read w.pgdPtr)) ↔ _
      rw [same.pgd]
      rfl
  | p4d =>
      change ¬ (w.host.p4dNone (read (w.withRead read).p4dPtr) ||
        w.host.p4dBad (read (w.withRead read).p4dPtr)) ↔ _
      rw [p4d, same.p4d]
      rfl
  | pud =>
      change ¬ w.host.pudNone (read (w.withRead read).pudPtr) ↔ _
      rw [pud, same.pud]
      rfl
  | pmd =>
      change ¬ (w.host.pmdNone (read (w.withRead read).pmdPtr) ||
        w.host.pudLeaf (read (w.withRead read).pudPtr)) ↔ _
      rw [pmd, pud, same.pmd, same.pud]
      rfl
  | pte =>
      change (w.withRead read).ptePtr.isSome ∧
        ¬ w.host.pmdLeaf (read (w.withRead read).pmdPtr) ↔ _
      rw [pte, pmd, same.pmd]
      rfl

theorem valid_withRead (same : w.SameTables read) (level : Level) :
    (w.withRead read).Valid level ↔ w.Valid level := by
  unfold Valid
  simp only [passes_withRead same]

end KernelWalk

theorem eval_resolveTables (host : Host) (root addr pid : Word) (read : Word → Word) :
    (resolveTables host root addr (Vm.cleared pid)).eval read =
      (if KernelWalk.Valid ⟨host, root, addr, read⟩ .pte then 0 else 1,
        KernelWalk.vm ⟨host, root, addr, read⟩ pid) := by
  have readEval : ∀ a, (readWord a).eval read = read a := fun _ => rfl
  simp only [resolveTables, Prog.eval_bind, readEval]
  -- one level after another: either its test fails and the walk ends, or it goes on
  split
  next fails =>
    have pgd : ¬ KernelWalk.Passes ⟨host, root, addr, read⟩ .pgd := fun passes => passes fails
    exact (KernelWalk.resolved_of_stops pgd (by simp [Level.upper]) pid).symm
  next passes =>
  have pgd : KernelWalk.Passes ⟨host, root, addr, read⟩ .pgd := passes
  rw [Prog.eval_bind, readEval]
  split
  next fails =>
    have p4d : ¬ KernelWalk.Passes ⟨host, root, addr, read⟩ .p4d := fun passes => passes fails
    exact (KernelWalk.resolved_of_stops p4d (by simp [Level.upper, pgd]) pid).symm
  next passes =>
  have p4d : KernelWalk.Passes ⟨host, root, addr, read⟩ .p4d := passes
  rw [Prog.eval_bind, readEval]
  split
  next fails =>
    have pud : ¬ KernelWalk.Passes ⟨host, root, addr, read⟩ .pud := fun passes => passes fails
    exact (KernelWalk.resolved_of_stops pud (by simp [Level.upper, pgd, p4d]) pid).symm
  next passes =>
  have pud : KernelWalk.Passes ⟨host, root, addr, read⟩ .pud := passes
  rw [Prog.eval_bind, readEval]
  split
  next fails =>
    have pmd : ¬ KernelWalk.Passes ⟨host, root, addr, read⟩ .pmd := fun passes => passes fails
    exact (KernelWalk.resolved_of_stops pmd (by simp [Level.upper, pgd, p4d, pud]) pid).symm
  next passes =>
  have pmd : KernelWalk.Passes ⟨host, root, addr, read⟩ .pmd := passes
  have upper : ∀ up ∈ Level.upper .pte, KernelWalk.Passes ⟨host, root, addr, read⟩ up := by
    simp [Level.upper, pgd, p4d, pud, pmd]
  split
  next absent =>
    have pointer : KernelWalk.ptePtr ⟨host, root, addr, read⟩ = none := absent
    have pte : ¬ KernelWalk.Passes ⟨host, root, addr, read⟩ .pte := by
      simp [KernelWalk.Passes, pointer]
    exact (KernelWalk.resolved_of_stops pte upper pid).symm
  next ptePtr found =>
  have pointer : KernelWalk.ptePtr ⟨host, root, addr, read⟩ = some ptePtr := found
  split
  next fails =>
    have pte : ¬ KernelWalk.Passes ⟨host, root, addr, read⟩ .pte :=
      fun passes => passes.2 fails
    exact (KernelWalk.resolved_of_stops pte upper pid).symm
  next passes =>
    have pte : KernelWalk.Passes ⟨host, root, addr, read⟩ .pte :=
      ⟨by rw [pointer]; rfl, passes⟩
    rw [← found]
    exact (KernelWalk.resolved_of_valid ⟨upper, pte⟩ pid).symm

/-! ## `resolve_vm` -/

/-- The descent that `resolve_vm` makes in a kernel state, in the tables of an mm. -/
def Kernel.walk (host : Host) (k : Kernel) (addr : Word) (mm : Mm) : KernelWalk :=
  { host, root := k.pgd mm, addr, read := k.entryAt host }

/-- The return value of `resolve_vm` and the `vm_t` it fills. -/
def kernelResolve (host : Host) (k : Kernel) (addr pid : Word) : Int × Vm :=
  match host.getMm pid with
  | none => (1, Vm.cleared pid)
  | some mm => (if (k.walk host addr mm).Valid .pte then 0 else 1, (k.walk host addr mm).vm pid)

section Runs

open KernelProg

variable {host : Host} {copy : UserCopy}

/-- A program that reads entries runs like its evaluation in the kernel's memory. -/
theorem run_translate_readEntry {α : Type} (p : ReadProg α) (s : CallState) :
    Prog.run (kernelHandler host copy) (p.translate readEntry) s =
      some (p.eval (s.kernel.entryAt host), s) :=
  Prog.run_translate_of_total fun pointer _ => Prog.run_perform (KernelOp.readEntry pointer) s

theorem run_resolveVm (addr pid : Word) (lock : Bool) (s : CallState) :
    Prog.run (kernelHandler host copy) (resolveVm host addr pid lock) s =
      some (kernelResolve host s.kernel addr pid, s) := by
  unfold resolveVm kernelResolve
  cases host.getMm pid with
  | none => rfl
  | some mm =>
      simp only [Prog.run_bind, run_when, run_mmapReadLock, run_mmapReadUnlock, ite_self,
        run_mmPgd, run_translate_readEntry, Option.bind_some, eval_resolveTables]
      rfl

section Operations

variable {P : KernelOp → Prop}

theorem performs_op (op : KernelOp) (allowed : P op) :
    (Prog.perform op : KernelProg op.Res).Performs P :=
  Prog.Performs.perform allowed

theorem performs_when {p : KernelProg Unit} (only : p.Performs P) (condition : Bool) :
    (when condition p).Performs P := by
  cases condition
  · trivial
  · exact only

theorem performs_readEntries {α : Type} (entry : ∀ a, P (.readEntry a)) (p : ReadProg α) :
    (p.translate readEntry).Performs P := by
  have each : ∀ a, (readEntry a).Performs P := fun a => Prog.Performs.perform (entry a)
  exact Prog.Performs.translate each p

/-- The operations of `resolve_vm`. -/
theorem performs_resolveVm {lock : Bool}
    (locks : lock = true → ∀ mm, P (.mmapReadLock mm) ∧ P (.mmapReadUnlock mm))
    (root : ∀ mm, P (.mmPgd mm)) (entry : ∀ a, P (.readEntry a)) (addr pid : Word) :
    (resolveVm host addr pid lock).Performs P := by
  unfold resolveVm
  cases host.getMm pid with
  | none => trivial
  | some mm =>
      have enter : (when lock (mmapReadLock mm)).Performs P := by
        cases lock with
        | false => trivial
        | true => exact Prog.Performs.perform (locks rfl mm).1
      have leave : (when lock (mmapReadUnlock mm)).Performs P := by
        cases lock with
        | false => trivial
        | true => exact Prog.Performs.perform (locks rfl mm).2
      refine enter.bind fun _ => Prog.Performs.bind (Prog.Performs.perform (root mm)) fun _ => ?_
      exact (performs_readEntries entry _).bind fun _ => leave.bind fun _ => trivial

/-- The operations of a call through `invalidate_tlb`. -/
theorem performs_callInvalidateTlb {pid : Pid} (calls : P .invalidateTlb)
    (size : P .pageSize) (shift : P .pageShift)
    (range : host.arch = .x86_64 → (host.getMm (sizeOfInt pid)).isSome →
      ∀ mm start stop shift, P (.flushTlbMmRange mm start stop shift))
    (page : ∀ vma addr, P (.flushTlbPageOnEachCpu vma addr)) (every : P .tlbiAllOnEachCpu)
    (addr : Word) : (callInvalidateTlb host pid addr).Performs P := by
  refine (performs_op .invalidateTlb calls).bind fun entry => ?_
  cases entry with
  | custom =>
      dsimp only [invalidateTlbCustom]
      cases host.arch with
      | x86_64 => trivial
      | aarch64 => exact performs_op .tlbiAllOnEachCpu every
  | kernel =>
      dsimp only [invalidateTlbKernel]
      cases arch : host.arch with
      | x86_64 =>
          dsimp only
          cases found : host.getMm (sizeOfInt pid) with
          | none => trivial
          | some mm =>
              have live : (host.getMm (sizeOfInt pid)).isSome := by rw [found]; rfl
              refine (performs_op .pageSize size).bind fun _ => ?_
              refine (performs_op .pageShift shift).bind fun _ => ?_
              exact performs_op (.flushTlbMmRange _ _ _ _) (range arch live _ _ _ _)
      | aarch64 =>
          dsimp only
          cases host.findVma host.current.mm addr with
          | none => trivial
          | some vma =>
              dsimp only
              split
              · trivial
              · exact performs_op (.flushTlbPageOnEachCpu _ _) (page _ _)

end Operations

/-- What a call through `invalidate_tlb` needs: no unset function pointer. -/
theorem run_callInvalidateTlb {s : CallState} (loaded : s.kernel.Loaded host) (pid : Pid)
    (addr : Word) :
    Prog.run (kernelHandler host copy) (callInvalidateTlb host pid addr) s = some ((), s) := by
  obtain ⟨method, set⟩ := Option.isSome_iff_exists.mp loaded.invalidateTlb
  have entered : Prog.run (kernelHandler host copy) invalidateTlb s = some (method, s) := by
    change Prog.run _ (Prog.perform KernelOp.invalidateTlb) s = _
    rw [Prog.run_perform, kernelHandler, set]
    rfl
  rw [callInvalidateTlb, Prog.run_bind_of_some entered]
  cases method with
  | custom =>
      unfold invalidateTlbCustom
      cases host.arch <;> rfl
  | kernel =>
      dsimp only [invalidateTlbKernel]
      cases arch : host.arch with
      | aarch64 =>
          dsimp only
          cases host.findVma host.current.mm addr with
          | none => rfl
          | some vma =>
              dsimp only
              split <;> rfl
      | x86_64 =>
          dsimp only
          cases host.getMm (sizeOfInt pid) with
          | none => rfl
          | some mm =>
              have set := loaded.flushTlbMmRangeFunc arch
              dsimp only
              rw [Prog.run_bind_of_some (run_pageSize s), Prog.run_bind_of_some (run_pageShift s)]
              change Prog.run _ (Prog.perform (KernelOp.flushTlbMmRange _ _ _ _)) s = _
              rw [Prog.run_perform, kernelHandler, if_pos set]
              rfl

/-! ## `update_vm` -/

end Runs

/-- The store that `update_vm` performs for one level. -/
def levelStore (host : Host) (old : Vm) (new : PteditEntry) (level : Level) :
    Option (Word × Word) :=
  if old.Valid level ∧ new.Valid level then
    (old.pointer level).map fun pointer => (host.virtToPhys pointer, new.field level)
  else
    none

/-- The stores that `update_vm` performs in a kernel state, in order. -/
def kernelStores (host : Host) (k : Kernel) (new : PteditEntry) : List (Word × Word) :=
  Level.all.flatMap fun level =>
    (levelStore host (kernelResolve host k new.vaddr new.pid).2 new level).toList

/-- Nothing is stored for a pid without an mm. -/
theorem kernelStores_eq_nil {host : Host} {k : Kernel} {new : PteditEntry}
    (found : host.getMm new.pid = none) : kernelStores host k new = [] := by
  simp [kernelStores, kernelResolve, found, levelStore, Level.all, Vm.Valid, Vm.cleared]

/-- A kernel state with other contents of physical memory. -/
def Kernel.withMem (k : Kernel) (mem : ByteMem) : Kernel := { k with mem }

@[simp] theorem Kernel.mem_withMem (k : Kernel) (mem : ByteMem) : (k.withMem mem).mem = mem := rfl

@[simp] theorem Kernel.withMem_withMem (k : Kernel) (first second : ByteMem) :
    (k.withMem first).withMem second = k.withMem second := rfl

theorem Kernel.withMem_self (k : Kernel) : k.withMem k.mem = k := rfl

theorem Kernel.Loaded.withMem {host : Host} {k : Kernel} (loaded : k.Loaded host)
    (mem : ByteMem) : (k.withMem mem).Loaded host :=
  ⟨loaded.invalidateTlb, loaded.flushTlbMmRangeFunc⟩

/-- A call's state with other contents of physical memory. -/
def CallState.withMem (s : CallState) (mem : ByteMem) : CallState :=
  { s with kernel := s.kernel.withMem mem }

/-- The entries that `resolve_vm` reports valid have pointers. -/
theorem isSome_kernelResolve {host : Host} {k : Kernel} {addr pid : Word} {level : Level}
    (valid : (kernelResolve host k addr pid).2.Valid level) :
    ((kernelResolve host k addr pid).2.pointer level).isSome := by
  unfold kernelResolve at valid ⊢
  cases found : host.getMm pid with
  | none =>
      rw [found] at valid
      simp [Vm.Valid, Vm.cleared] at valid
  | some mm =>
      rw [found] at valid
      have reached := ((k.walk host addr mm).valid_vm pid level).mp valid
      dsimp only
      rw [KernelWalk.pointer_vm, if_pos reached]
      exact reached.isSome

section Updates

open KernelProg

variable {host : Host} {copy : UserCopy}

theorem run_updateLevel {old : Vm} {new : PteditEntry} {level : Level}
    (pointers : old.Valid level → (old.pointer level).isSome) (s : CallState) (mem : ByteMem)
    (done : List (Word × Word)) :
    Prog.run (kernelHandler host copy) (updateLevel old new level)
        (s.withMem (mem.writeAll done)) =
      some ((), s.withMem (mem.writeAll (done ++ (levelStore host old new level).toList))) := by
  rw [updateLevel, run_when, levelStore]
  by_cases selected : old.Valid level ∧ new.Valid level
  · obtain ⟨pointer, found⟩ := Option.isSome_iff_exists.mp (pointers selected.1)
    rw [if_pos (decide_eq_true selected), if_pos selected, found, ByteMem.writeAll_append]
    rfl
  · rw [if_neg (by simpa using selected), if_neg selected, Option.toList_none, List.append_nil]

/-- `update_vm` up to the flush, with the `vm_t` that it found before its stores. -/
def storeLevels (host : Host) (new : PteditEntry) (mm : Mm) (lock : Bool) : KernelProg Vm := do
  when lock (mmapWriteLock mm)
  let resolved ← resolveVm host new.vaddr new.pid false
  updateLevel resolved.2 new .pgd
  updateLevel resolved.2 new .p4d
  updateLevel resolved.2 new .pud
  updateLevel resolved.2 new .pmd
  updateLevel resolved.2 new .pte
  pure resolved.2

theorem updateVm_eq {new : PteditEntry} {lock : Bool} {mm : Mm}
    (found : host.getMm new.pid = some mm) :
    updateVm host new lock = (do
      let old ← storeLevels host new mm lock
      callInvalidateTlb host (intOfSize old.pid) new.vaddr
      when lock (mmapWriteUnlock mm)
      pure 0) := by
  unfold updateVm storeLevels
  simp only [found, Prog.bind_bind, Prog.pure_def, Prog.ret_bind]

theorem run_storeLevels {new : PteditEntry} {lock : Bool} {mm : Mm} (s : CallState) :
    Prog.run (kernelHandler host copy) (storeLevels host new mm lock) s =
      some ((kernelResolve host s.kernel new.vaddr new.pid).2,
        s.withMem (s.kernel.mem.writeAll (kernelStores host s.kernel new))) := by
  have locking : Prog.run (kernelHandler host copy) (when lock (mmapWriteLock mm)) s =
      some ((), s) := by
    rw [run_when, run_mmapWriteLock, ite_self]
  have pointers : ∀ level, (kernelResolve host s.kernel new.vaddr new.pid).2.Valid level →
      ((kernelResolve host s.kernel new.vaddr new.pid).2.pointer level).isSome :=
    fun _ => isSome_kernelResolve
  unfold storeLevels
  rw [Prog.run_bind_of_some locking, Prog.run_bind_of_some (run_resolveVm _ _ _ _)]
  unfold kernelStores
  generalize kernelResolve host s.kernel new.vaddr new.pid = resolved at pointers ⊢
  have first : Prog.run (kernelHandler host copy) (updateLevel resolved.2 new .pgd) s =
      some ((), s.withMem (s.kernel.mem.writeAll
        (levelStore host resolved.2 new .pgd).toList)) :=
    run_updateLevel (pointers .pgd) s s.kernel.mem []
  rw [Prog.run_bind_of_some first,
    Prog.run_bind_of_some (run_updateLevel (pointers .p4d) s _ _),
    Prog.run_bind_of_some (run_updateLevel (pointers .pud) s _ _),
    Prog.run_bind_of_some (run_updateLevel (pointers .pmd) s _ _),
    Prog.run_bind_of_some (run_updateLevel (pointers .pte) s _ _)]
  simp [Level.all]

theorem run_updateVm {new : PteditEntry} {lock : Bool} {s : CallState}
    (loaded : s.kernel.Loaded host) :
    Prog.run (kernelHandler host copy) (updateVm host new lock) s =
      some (if (host.getMm new.pid).isSome then 0 else 1,
        s.withMem (s.kernel.mem.writeAll (kernelStores host s.kernel new))) := by
  cases found : host.getMm new.pid with
  | none =>
      unfold updateVm
      rw [kernelStores_eq_nil found, found]
      rfl
  | some mm =>
      have unlocking : ∀ s, Prog.run (kernelHandler host copy)
          (when lock (mmapWriteUnlock mm)) s = some ((), s) := by
        intro s
        rw [run_when, run_mmapWriteUnlock, ite_self]
      have loaded' : ∀ mem, ((s.withMem mem).kernel).Loaded host := loaded.withMem
      rw [updateVm_eq found, Prog.run_bind_of_some (run_storeLevels s),
        Prog.run_bind_of_some (run_callInvalidateTlb (loaded' _) _ _),
        Prog.run_bind_of_some (unlocking _)]
      rfl

end Updates

end PTEditor
