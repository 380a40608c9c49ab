import Mathlib.Data.Set.Basic
import PTEditor.Module.IoctlSpec

/-!
# Stale translations

`staleAfter` watches a run of module code for the translations that some CPU cached
before an entry was written and may still use: after a store this is any translation,
and the flushes drop those they are documented to drop.  `flushedBy` is what a call
through `invalidate_tlb` drops (`accepts_callInvalidateTlb`), and `mem_flushedBy_iff`
when that includes the address it is called for.
-/

namespace PTEditor

open KernelProg

/-- A translation of an address of a process that a CPU has cached. -/
structure Translation where
  cpu : Nat
  mm : Mm
  address : Word

/-- The translations of `mm` from `start` up to `stop`. -/
def translationsIn (mm : Mm) (start stop : Word) : Set Translation :=
  {t | t.mm = mm ∧ start ≤ t.address ∧ t.address < stop}

/-- The translations of one address in the mm of a VMA. -/
def translationsOf (vma : Vma) (addr : Word) : Set Translation :=
  {t | t.mm = vma.mm ∧ t.address = addr}

/-- The stale translations after an operation. -/
def staleAfter (op : KernelOp) (_ : CallState) (stale : Set Translation) :
    Option (Set Translation) :=
  some (match op with
  | .setEntry _ _ _ | .fromUserPage _ _ _ => Set.univ
  | .flushTlbMmRange mm start stop _ => stale \ translationsIn mm start stop
  | .flushTlbPageOnEachCpu vma addr => stale \ translationsOf vma addr
  | .tlbiAllOnEachCpu => stale \ Set.univ
  | _ => stale)

/-- A method that `ptedit_switch_tlb_invalidation` can install. -/
def TlbMethod.Installable (host : Host) : TlbMethod → Prop
  | .kernel => True
  | .custom => host.arch = .aarch64

/-- What a call through `invalidate_tlb` drops. -/
def flushedBy (host : Host) (size : Pid) (method : TlbMethod) (pid : Pid) (addr : Word) :
    Set Translation :=
  match method, host.arch with
  | .custom, .aarch64 => Set.univ
  | .custom, .x86_64 => ∅
  | .kernel, .x86_64 =>
      match host.getMm (sizeOfInt pid) with
      | none => ∅
      | some mm => translationsIn mm addr (addr + sizeOfInt size)
  | .kernel, .aarch64 =>
      match host.findVma host.current.mm addr with
      | none => ∅
      | some vma => if addr < vma.vmStart then ∅ else translationsOf vma addr

/-- An address is mapped: it lies in a VMA, and `size` bytes on is still an address. -/
structure MappedAddress (host : Host) (size : Pid) (mm : Mm) (addr : Word) : Prop where
  vma : ∃ vma, host.findVma (some mm) addr = some vma ∧ ¬ addr < vma.vmStart
  inside : addr < addr + sizeOfInt size

/-- **What is flushed.**  The method of the kernel flushes the named process on x86_64 but
the calling one on aarch64. -/
theorem mem_flushedBy_iff {host : Host} {size : Pid} {method : TlbMethod} {pid : Pid}
    {addr : Word} {mm : Mm} (installable : method.Installable host)
    (ofMm : ∀ mm addr vma, host.findVma mm addr = some vma → mm = some vma.mm)
    (live : host.getMm (sizeOfInt pid) = some mm) (mapped : MappedAddress host size mm addr)
    (cpu : Nat) :
    ⟨cpu, mm, addr⟩ ∈ flushedBy host size method pid addr ↔
      host.arch = .x86_64 ∨ method = .custom ∨ host.current.mm = some mm := by
  unfold flushedBy
  cases arch : host.arch with
  | x86_64 =>
      refine iff_of_true ?_ (.inl rfl)
      cases method with
      | custom => exact absurd (arch.symm.trans installable) (by decide)
      | kernel =>
          dsimp only
          rw [live]
          exact ⟨rfl, BitVec.le_refl addr, mapped.inside⟩
  | aarch64 =>
      cases method with
      | custom => exact iff_of_true trivial (.inr (.inl rfl))
      | kernel =>
          dsimp only
          constructor
          · intro dropped
            cases found : host.findVma host.current.mm addr with
            | none =>
                rw [found] at dropped
                exact dropped.elim
            | some vma =>
                rw [found] at dropped
                dsimp only at dropped
                split at dropped
                · exact dropped.elim
                · exact .inr (.inr ((ofMm _ _ _ found).trans (congrArg some dropped.1.symm)))
          · rintro (x86 | custom | own)
            · exact absurd x86 (by decide)
            · exact absurd custom (by decide)
            · obtain ⟨vma, found, above⟩ := mapped.vma
              have same := ofMm _ _ _ found
              rw [own, found]
              dsimp only
              rw [if_neg above]
              exact ⟨Option.some.inj same, rfl⟩

/-! ## Runs of the module -/

/-- The operations of VM_RESOLVE and GET_ROOT. -/
def KernelOp.Reading : KernelOp → Prop
  | .uninitialised | .fromUser _ _ | .toUser _ _ | .mmIsLocked | .mmapReadLock _
  | .mmapReadUnlock _ | .mmPgd _ | .readEntry _ | .mrsTtbr0 => True
  | _ => False

/-- The operations of `update_vm` before it flushes. -/
def KernelOp.Storing : KernelOp → Prop
  | .mmapWriteLock _ | .mmapWriteUnlock _ | .setEntry _ _ _ => True
  | op => op.Reading

theorem staleAfter_of_reading {op : KernelOp} (reading : op.Reading) (s : CallState)
    (stale : Set Translation) : staleAfter op s stale = some stale := by
  cases op <;> first | rfl | exact reading.elim

/-- When every translation may be stale a store makes it no worse. -/
theorem staleAfter_of_storing {op : KernelOp} (storing : op.Storing) (s : CallState) :
    staleAfter op s Set.univ = some Set.univ := by
  cases op <;> first | rfl | exact storing.elim

/-- The method that `invalidate_tlb` points to, and the page size that it flushes. -/
structure FlushSetup (method : TlbMethod) (size : Pid) (s : CallState) : Prop where
  method : s.kernel.invalidateTlb = some method
  size : s.kernel.realPageSize = size

section Runs

variable {host : Host} {copy : UserCopy} {method : TlbMethod} {size : Pid}

theorem FlushSetup.preserved (op : KernelOp) (storing : op.Storing) (s : CallState) (r : op.Res)
    (s' : CallState) (setup : FlushSetup method size s)
    (answer : kernelHandler host copy op s = some (r, s')) : FlushSetup method size s' := by
  cases op with
  | setEntry level pointer value =>
      cases pointer with
      | none => cases answer
      | some pointer =>
          obtain rfl := (Prod.mk.inj (Option.some.inj answer)).2
          exact ⟨setup.method, setup.size⟩
  | toUser src size =>
      obtain rfl := (Prod.mk.inj (Option.some.inj answer)).2
      exact ⟨setup.method, setup.size⟩
  | uninitialised | fromUser | mmIsLocked | mmapReadLock | mmapReadUnlock | mmapWriteLock
  | mmapWriteUnlock | mmPgd | readEntry | mrsTtbr0 =>
      have same := KernelOp.Silent.keeps (by trivial) answer
      exact same ▸ setup
  | _ => exact storing.elim

theorem performs_vmResolve : (DeviceIoctl.vmResolve host).Performs KernelOp.Reading := by
  have resolve : ∀ addr pid lock, (resolveVm host addr pid lock).Performs KernelOp.Reading :=
    fun addr pid lock => performs_resolveVm (fun _ _ => ⟨trivial, trivial⟩) (fun _ => trivial)
      (fun _ => trivial) addr pid
  refine (performs_op .uninitialised trivial).bind fun garbage => ?_
  refine (performs_op (.fromUser _ _) trivial).bind fun arg => ?_
  refine (performs_op .mmIsLocked trivial).bind fun isLocked => ?_
  refine (resolve _ _ _).bind fun resolved => ?_
  refine (performs_readEntries (fun _ => trivial) _).bind fun vmUser => ?_
  exact (performs_op (.toUser _ _) trivial).bind fun _ => trivial

theorem performs_getRoot : (DeviceIoctl.getRoot host).Performs KernelOp.Reading := by
  have ttbr0 : ∀ paging, (DeviceIoctl.getRootFromTtbr0 paging).Performs KernelOp.Reading := by
    intro paging
    have current : DeviceIoctl.currentTtbr0.Performs KernelOp.Reading :=
      (performs_op .mrsTtbr0 trivial).bind fun _ => trivial
    exact current.bind fun _ => (performs_op (.toUser _ _) trivial).bind fun _ => trivial
  have root : ∀ paging mm, (DeviceIoctl.getRootOf host paging mm).Performs KernelOp.Reading := by
    intro paging mm
    refine (performs_op .mmIsLocked trivial).bind fun _ => ?_
    refine (performs_when (performs_op (.mmapReadLock mm) trivial) _).bind fun _ => ?_
    refine (performs_op (.mmPgd mm) trivial).bind fun _ => ?_
    refine (performs_op .mmIsLocked trivial).bind fun _ => ?_
    refine (performs_when (performs_op (.mmapReadUnlock mm) trivial) _).bind fun _ => ?_
    exact (performs_op (.toUser _ _) trivial).bind fun _ => trivial
  refine (performs_op .uninitialised trivial).bind fun garbage => ?_
  refine (performs_op (.fromUser _ _) trivial).bind fun arg => ?_
  dsimp only
  split
  · trivial
  · exact root _ _
  · exact ttbr0 _
  · refine (performs_op (.mmPgd _) trivial).bind fun pgd => ?_
    split
    · exact ttbr0 _
    · exact root _ _

theorem run_invalidateTlb {s : CallState} (set : s.kernel.invalidateTlb = some method) :
    Prog.run (kernelHandler host copy) invalidateTlb s = some (method, s) := by
  refine (Prog.run_perform _ _).trans ?_
  rw [kernelHandler, set]
  rfl

/-- A call through `invalidate_tlb` drops `flushedBy`. -/
theorem accepts_callInvalidateTlb {s : CallState} (setup : FlushSetup method size s) (pid : Pid)
    (addr : Word) (stale : Set Translation) :
    Prog.Accepts (kernelHandler host copy) staleAfter (callInvalidateTlb host pid addr) s stale
      (stale \ flushedBy host size method pid addr) := by
  have nothing : ∀ s, Prog.Accepts (kernelHandler host copy) staleAfter
      (pure () : KernelProg Unit) s stale (stale \ ∅) := by
    intro s
    rw [Set.sdiff_empty]
    exact Prog.accepts_ret () s stale
  have entered : Prog.Accepts (kernelHandler host copy) staleAfter invalidateTlb s stale stale :=
    Prog.accepts_perform rfl
  refine entered.bind fun entry s₁ ran => ?_
  cases (run_invalidateTlb setup.method).symm.trans ran
  unfold flushedBy
  cases method with
  | custom =>
      dsimp only [invalidateTlbCustom]
      cases host.arch with
      | x86_64 => exact nothing s
      | aarch64 => exact Prog.accepts_perform rfl
  | kernel =>
      dsimp only [invalidateTlbKernel]
      cases host.arch with
      | x86_64 =>
          cases host.getMm (sizeOfInt pid) with
          | none => exact nothing s
          | some mm =>
              have asked : Prog.Accepts (kernelHandler host copy) staleAfter pageSize s stale
                stale := Prog.accepts_perform rfl
              refine asked.bind fun value s₂ ran => ?_
              cases (run_pageSize s).symm.trans ran
              have shifted : Prog.Accepts (kernelHandler host copy) staleAfter pageShift s stale
                stale := Prog.accepts_perform rfl
              refine shifted.bind fun shift s₃ _ => ?_
              rw [setup.size]
              exact Prog.accepts_perform rfl
      | aarch64 =>
          dsimp only
          cases host.findVma host.current.mm addr with
          | none => exact nothing s
          | some vma =>
              dsimp only
              by_cases below : addr < vma.vmStart
              · rw [if_pos below, if_pos below]
                exact nothing s
              · rw [if_neg below, if_neg below]
                exact Prog.accepts_perform rfl

/-- Before the flush everything may be stale, and the setup of the flush stays. -/
theorem FlushSetup.bind {α β : Type} {p : KernelProg α} {f : α → KernelProg β} {s : CallState}
    {stale : Set Translation} (setup : FlushSetup method size s)
    (only : p.Performs KernelOp.Storing)
    (rest : ∀ value s', FlushSetup method size s' →
      Prog.Accepts (kernelHandler host copy) staleAfter (f value) s' Set.univ stale) :
    Prog.Accepts (kernelHandler host copy) staleAfter (p >>= f) s Set.univ stale :=
  only.accepts_bind (fun _ storing s => staleAfter_of_storing storing s) FlushSetup.preserved setup
    rest

theorem pid_kernelResolve (k : Kernel) (addr pid : Word) :
    (kernelResolve host k addr pid).2.pid = pid := by
  unfold kernelResolve
  cases host.getMm pid <;> rfl

/-- `update_vm` ends with a flush for the process and the address that it updates. -/
theorem accepts_updateVm {new : PteditEntry} {lock : Bool} {s : CallState} {mm : Mm}
    (setup : FlushSetup method size s) (found : host.getMm new.pid = some mm) :
    Prog.Accepts (kernelHandler host copy) staleAfter (updateVm host new lock) s Set.univ
      (Set.univ \ flushedBy host size method (intOfSize new.pid) new.vaddr) := by
  have level : ∀ old level, (updateLevel old new level).Performs KernelOp.Storing :=
    fun old level => performs_when (performs_op (.setEntry _ _ _) trivial) _
  have resolves : (resolveVm host new.vaddr new.pid false).Performs KernelOp.Storing :=
    performs_resolveVm (fun _ _ => ⟨trivial, trivial⟩) (fun _ => trivial) (fun _ => trivial) _ _
  unfold updateVm
  rw [found]
  refine setup.bind (performs_when (performs_op (.mmapWriteLock mm) trivial) _) ?_
  intro _ s₁ setup
  have quiet : Prog.Accepts (kernelHandler host copy) staleAfter _ s₁ Set.univ Set.univ :=
    resolves.accepts (fun _ storing s => staleAfter_of_storing storing s) s₁
  refine quiet.bind fun resolved s₂ ran => ?_
  cases (run_resolveVm _ _ _ s₁).symm.trans ran
  refine setup.bind (level _ _) fun _ s₃ setup => setup.bind (level _ _) fun _ s₄ setup => ?_
  refine setup.bind (level _ _) fun _ s₅ setup => setup.bind (level _ _) fun _ s₆ setup => ?_
  refine setup.bind (level _ _) fun _ s₇ setup => ?_
  rw [pid_kernelResolve]
  refine (accepts_callInvalidateTlb setup _ _ _).bind fun _ s₈ _ => ?_
  -- what is left touches neither entries nor the TLB
  have leaves : ∀ stale, Prog.Accepts (kernelHandler host copy) staleAfter
      (when lock (mmapWriteUnlock mm)) s₈ stale stale := by
    intro stale
    cases lock
    · exact Prog.accepts_ret () s₈ _
    · exact Prog.accepts_perform rfl
  exact (leaves _).bind fun _ s₉ _ => Prog.accepts_ret 0 s₉ _

theorem accepts_vmUpdate {s : CallState} {mm : Mm} (setup : FlushSetup method size s)
    {new : PteditEntry}
    (request : PteditEntry.ofBlock (received copy s copy.locals PteditEntry.size) = new)
    (found : host.getMm new.pid = some mm) :
    Prog.Accepts (kernelHandler host copy) staleAfter (DeviceIoctl.vmUpdate host) s Set.univ
      (Set.univ \ flushedBy host size method (intOfSize new.pid) new.vaddr) := by
  subst request
  have asks : ∀ op : KernelOp, op.Reading → ∀ s, Prog.Accepts (kernelHandler host copy) staleAfter
      (Prog.perform op) s Set.univ Set.univ :=
    fun op reading s => Prog.accepts_perform (staleAfter_of_reading reading s _)
  refine (asks .uninitialised trivial s).bind fun garbage s₁ ran => ?_
  cases (run_uninitialised s).symm.trans ran
  refine (asks (.fromUser _ _) trivial s).bind fun arg s₂ ran => ?_
  cases (run_fromUser s _ _).symm.trans ran
  refine (asks .mmIsLocked trivial s).bind fun isLocked s₃ ran => ?_
  cases (run_mmIsLocked s).symm.trans ran
  exact (accepts_updateVm setup found).bind fun _ s₄ _ => Prog.accepts_ret 0 s₄ _

theorem accepts_invalidateTlb {s : CallState} (setup : FlushSetup method size s) (param : Word)
    (stale : Set Translation) :
    Prog.Accepts (kernelHandler host copy) staleAfter (DeviceIoctl.invalidateTlb host param) s stale
      (stale \ flushedBy host size method host.current.nr param) :=
  (accepts_callInvalidateTlb setup _ _ stale).bind fun _ s₁ _ => Prog.accepts_ret 0 s₁ _

theorem accepts_invalidateTlbPid {s : CallState} (setup : FlushSetup method size s)
    {args : PteditInvalidateTlbArgs} (request : PteditInvalidateTlbArgs.ofBlock
      (received copy s copy.locals PteditInvalidateTlbArgs.size) = args)
    (stale : Set Translation) :
    Prog.Accepts (kernelHandler host copy) staleAfter (DeviceIoctl.invalidateTlbPid host) s stale
      (stale \ flushedBy host size method args.pid args.address) := by
  subst request
  have asks : ∀ op : KernelOp, op.Reading → ∀ s, Prog.Accepts (kernelHandler host copy) staleAfter
      (Prog.perform op) s stale stale :=
    fun op reading s => Prog.accepts_perform (staleAfter_of_reading reading s _)
  refine (asks .uninitialised trivial s).bind fun garbage s₁ ran => ?_
  cases (run_uninitialised s).symm.trans ran
  refine (asks (.fromUser _ _) trivial s).bind fun arg s₂ ran => ?_
  cases (run_fromUser s _ _).symm.trans ran
  exact (accepts_callInvalidateTlb setup _ _ stale).bind fun _ s₃ _ => Prog.accepts_ret 0 s₃ _

end Runs

end PTEditor
