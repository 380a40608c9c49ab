import PTEditor.Module.Tlb

/-!
# Calls through function pointers

Three commands call through `invalidate_tlb`, and on x86_64 its kernel method calls on
through `flush_tlb_mm_range_func`.  `flushPid` is the process a request flushes for, if it
flushes.  `performsAmid_deviceIoctl` says where a request calls through which pointer,
whatever happens to the kernel while it is served, and `watch_deviceIoctl` that it does
make the call when nothing happens.
-/

namespace PTEditor

open KernelProg

/-- The function pointer that an operation goes through is set. -/
def Kernel.pointerSet (k : Kernel) : KernelOp → Bool
  | .invalidateTlb => k.invalidateTlb.isSome
  | .flushTlbMmRange _ _ _ _ => k.flushTlbMmRangeFunc
  | _ => true

/-- Objects to a call through an unset pointer. -/
def unsetPointer (op : KernelOp) (s : CallState) (_ : Unit) : Option Unit :=
  if s.kernel.pointerSet op then some () else none

/-- What a request may do where `method` and `flush` say whether it may call through
`invalidate_tlb` and `flush_tlb_mm_range_func`. -/
def KernelOp.Permitted (host : Host) (method flush : Prop) : KernelOp → Prop
  | .invalidateTlb => method
  | .flushTlbMmRange _ _ _ _ => flush
  | .setInvalidateTlb installed => installed.Installable host
  | _ => True

/-- The process that a request flushes for, as it is passed to `invalidate_tlb`. -/
def flushPid (host : Host) (copy : UserCopy) (s : CallState) : Cmd → Option Pid
  | .invalidateTlb => some host.current.nr
  | .invalidateTlbPid =>
      some (PteditInvalidateTlbArgs.ofBlock
        (received copy s copy.locals PteditInvalidateTlbArgs.size)).pid
  | .vmUpdate =>
      let new := PteditEntry.ofBlock (received copy s copy.locals PteditEntry.size)
      (host.getMm new.pid).map fun _ => intOfSize new.pid
  | _ => none

/-- The module also flushes through `flush_tlb_mm_range_func` for this process. -/
def Host.FlushesRange (host : Host) (pid : Pid) : Prop :=
  host.arch = .x86_64 ∧ (host.getMm (sizeOfInt pid)).isSome

instance (host : Host) (pid : Pid) : Decidable (host.FlushesRange pid) :=
  inferInstanceAs (Decidable (_ ∧ _))

/-- Anything may happen to the kernel, but the caller's memory stays. -/
def KernelChanges (s s' : CallState) : Prop := s'.arg = s.arg ∧ s'.user = s.user

section Calls

variable {host : Host} {copy : UserCopy} {method flush : Prop}

/-! ## Where a request calls -/

theorem permitted_callInvalidateTlb {pid : Pid} (calls : method)
    (range : host.FlushesRange pid → flush)
    (addr : Word) :
    (callInvalidateTlb host pid addr).Performs (KernelOp.Permitted host method flush) :=
  performs_callInvalidateTlb calls trivial trivial
    (fun arch live _ _ _ _ => range ⟨arch, live⟩) (fun _ _ => trivial) trivial addr

theorem returns_resolveTables (root addr : Word) (entry : Vm) :
    (resolveTables host root addr entry).Returns fun result => result.2.pid = entry.pid := by
  unfold resolveTables
  refine (Prog.returns_any _).bind fun pgd _ => ?_
  split
  · rfl
  · refine (Prog.returns_any _).bind fun p4d _ => ?_
    split
    · rfl
    · refine (Prog.returns_any _).bind fun pud _ => ?_
      split
      · rfl
      · refine (Prog.returns_any _).bind fun pmd _ => ?_
        split
        · rfl
        · dsimp only
          split
          · rfl
          · split <;> rfl

/-- `resolve_vm` reports the pid that it was asked for. -/
theorem returns_resolveVm (addr pid : Word) (lock : Bool) :
    (resolveVm host addr pid lock).Returns fun result => result.2.pid = pid := by
  unfold resolveVm
  cases host.getMm pid with
  | none => rfl
  | some mm =>
      refine (Prog.returns_any _).bind fun _ _ => (Prog.returns_any _).bind fun root _ => ?_
      refine (returns_resolveTables root addr (Vm.cleared pid)).translate.bind fun result same => ?_
      exact (Prog.returns_any _).bind fun _ _ => same

theorem performs_updateVm {new : PteditEntry} (lock : Bool)
    (calls : (host.getMm new.pid).isSome → method)
    (range : (host.getMm new.pid).isSome → host.FlushesRange (intOfSize new.pid) → flush) :
    (updateVm host new lock).Performs (KernelOp.Permitted host method flush) := by
  unfold updateVm
  cases found : host.getMm new.pid with
  | none => trivial
  | some mm =>
      rw [found] at calls range
      have level : ∀ old level, (updateLevel old new level).Performs
          (KernelOp.Permitted host method flush) :=
        fun old level => performs_when (performs_op (.setEntry _ _ _) trivial) _
      have resolves : (resolveVm host new.vaddr new.pid false).Performs
          (KernelOp.Permitted host method flush) :=
        performs_resolveVm (fun _ _ => ⟨trivial, trivial⟩) (fun _ => trivial) (fun _ => trivial) _ _
      refine (performs_when (performs_op (.mmapWriteLock mm) trivial) _).bind fun _ => ?_
      refine resolves.bind_returns (returns_resolveVm _ _ _) fun resolved same => ?_
      refine (level _ _).bind fun _ => (level _ _).bind fun _ => (level _ _).bind fun _ => ?_
      refine (level _ _).bind fun _ => (level _ _).bind fun _ => ?_
      rw [same]
      refine (permitted_callInvalidateTlb (calls rfl) (range rfl) _).bind fun _ => ?_
      exact (performs_when (performs_op (.mmapWriteUnlock mm) trivial) _).bind fun _ => trivial

/-- The operations of the commands that neither flush nor switch the method. -/
def KernelOp.PointerFree : KernelOp → Prop
  | .invalidateTlb | .flushTlbMmRange _ _ _ _ | .setInvalidateTlb _ => False
  | _ => True

theorem permitted_of_pointerFree (op : KernelOp) (free : op.PointerFree) :
    op.Permitted host method flush := by
  cases op <;> trivial

theorem pointerFree_of_reading (op : KernelOp) (reading : op.Reading) : op.PointerFree := by
  cases op <;> trivial

theorem performs_vmLock : (DeviceIoctl.vmLock host).Performs KernelOp.PointerFree := by
  refine (performs_op .mmIsLocked trivial).bind fun isLocked => ?_
  split
  · trivial
  · split
    · exact (performs_op .oops trivial).bind fun _ => trivial
    · refine (performs_op (.mmapWriteLock _) trivial).bind fun _ => ?_
      refine (performs_op (.mmapReadLock _) trivial).bind fun _ => ?_
      exact (performs_op (.setMmIsLocked true) trivial).bind fun _ => trivial

theorem performs_vmUnlock : (DeviceIoctl.vmUnlock host).Performs KernelOp.PointerFree := by
  refine (performs_op .mmIsLocked trivial).bind fun isLocked => ?_
  split
  · trivial
  · split
    · exact (performs_op .oops trivial).bind fun _ => trivial
    · refine (performs_op (.mmapWriteUnlock _) trivial).bind fun _ => ?_
      refine (performs_op (.mmapReadUnlock _) trivial).bind fun _ => ?_
      exact (performs_op (.setMmIsLocked false) trivial).bind fun _ => trivial

theorem performs_readPage : (DeviceIoctl.readPage host).Performs KernelOp.PointerFree := by
  refine (performs_op .uninitialised trivial).bind fun garbage => ?_
  refine (performs_op (.fromUser _ _) trivial).bind fun arg => ?_
  refine (performs_op .pageSize trivial).bind fun size => ?_
  exact (performs_op (.toUserPage _ _ _) trivial).bind fun _ => trivial

theorem performs_writePage : (DeviceIoctl.writePage host).Performs KernelOp.PointerFree := by
  refine (performs_op .uninitialised trivial).bind fun garbage => ?_
  refine (performs_op (.fromUser _ _) trivial).bind fun arg => ?_
  refine (performs_op .pageSize trivial).bind fun size => ?_
  exact (performs_op (.fromUserPage _ _ _) trivial).bind fun _ => trivial

theorem performs_setRoot : (DeviceIoctl.setRoot host).Performs KernelOp.PointerFree := by
  refine (performs_op (.fromUser _ _) trivial).bind fun arg => ?_
  unfold DeviceIoctl.setRootOf
  split
  · trivial
  · refine (performs_op .mmIsLocked trivial).bind fun _ => ?_
    refine (performs_when (performs_op (.mmapWriteLock _) trivial) _).bind fun _ => ?_
    refine (performs_op (.setMmPgd _ _) trivial).bind fun _ => ?_
    refine (performs_op .mmIsLocked trivial).bind fun _ => ?_
    exact (performs_when (performs_op (.mmapWriteUnlock _) trivial) _).bind fun _ => trivial

theorem performs_getPat : (DeviceIoctl.getPat host).Performs KernelOp.PointerFree := by
  unfold DeviceIoctl.getPat
  split
  · refine (performs_op .rdmsr trivial).bind fun value => ?_
    exact (performs_op (.toUser _ _) trivial).bind fun _ => trivial
  · refine (performs_op .mrsMair trivial).bind fun value => ?_
    exact (performs_op (.toUser _ _) trivial).bind fun _ => trivial

theorem performs_setPat (param : Word) :
    (DeviceIoctl.setPat host param).Performs KernelOp.PointerFree := by
  unfold DeviceIoctl.setPat
  split
  · exact (performs_op (.wrmsrOnEachCpu _ _) trivial).bind fun _ => trivial
  · exact (performs_op (.msrMairOnEachCpu _) trivial).bind fun _ => trivial

theorem performs_switchTlbInvalidation (param : Word) :
    (DeviceIoctl.switchTlbInvalidation host param).Performs
      (KernelOp.Permitted host method flush) := by
  unfold DeviceIoctl.switchTlbInvalidation
  split
  next => trivial
  next known =>
  split
  next => trivial
  next accepted =>
    refine (performs_op (.setInvalidateTlb _) ?_).bind fun _ => trivial
    split
    next => trivial
    next other =>
      cases arch : host.arch with
      | aarch64 => exact arch
      | x86_64 => exact absurd ⟨arch, by_contra fun custom => known ⟨other, custom⟩⟩ accepted

/-- **Where a request calls.**  A request that flushes for no process calls through neither
pointer, and one that flushes through both at most. -/
theorem performsAmid_deviceIoctl {cmd : Cmd} {param : Word} {s : CallState}
    (calls : ∀ pid, flushPid host copy s cmd = some pid → method)
    (range : ∀ pid, flushPid host copy s cmd = some pid → host.FlushesRange pid → flush) :
    (deviceIoctl host cmd param).PerformsAmid (kernelHandler host copy) KernelChanges
      (KernelOp.Permitted host method flush) s := by
  have free : ∀ {p : KernelProg Int}, p.Performs KernelOp.PointerFree → p.PerformsAmid
      (kernelHandler host copy) KernelChanges (KernelOp.Permitted host method flush) s :=
    fun only => (only.mono permitted_of_pointerFree).amid s
  cases cmd with
  | vmResolve => exact free (performs_vmResolve.mono pointerFree_of_reading)
  | getRoot => exact free (performs_getRoot.mono pointerFree_of_reading)
  | vmLock => exact free performs_vmLock
  | vmUnlock => exact free performs_vmUnlock
  | readPage => exact free performs_readPage
  | writePage => exact free performs_writePage
  | setRoot => exact free performs_setRoot
  | getPagesize => exact free ((performs_op .pageSize trivial).bind fun _ => trivial)
  | getPat => exact free performs_getPat
  | setPat => exact free (performs_setPat param)
  | other number => exact free trivial
  | switchTlbInvalidation => exact (performs_switchTlbInvalidation param).amid s
  | invalidateTlb =>
      refine Prog.Performs.amid ?_ s
      exact (permitted_callInvalidateTlb (calls _ rfl) (range _ rfl) param).bind fun _ => trivial
  | invalidateTlbPid =>
      refine Prog.performsAmid_perform_bind trivial fun s₁ garbage s₂ kept answer => ?_
      cases answer
      refine Prog.performsAmid_perform_bind trivial fun s₂ arg s₃ kept' answer => ?_
      cases answer
      refine Prog.Performs.amid ?_ s₂
      rw [kept'.1, kept.1]
      exact (permitted_callInvalidateTlb (calls _ rfl) (range _ rfl) _).bind fun _ => trivial
  | vmUpdate =>
      refine Prog.performsAmid_perform_bind trivial fun s₁ garbage s₂ kept answer => ?_
      cases answer
      refine Prog.performsAmid_perform_bind trivial fun s₂ arg s₃ kept' answer => ?_
      cases answer
      refine Prog.performsAmid_perform_bind trivial fun s₃ isLocked s₄ _ answer => ?_
      cases answer
      refine Prog.Performs.amid ?_ s₃
      rw [kept'.1, kept.1]
      have flushes : ∀ live : (host.getMm (PteditEntry.ofBlock
          (received copy s copy.locals PteditEntry.size)).pid).isSome,
          flushPid host copy s .vmUpdate = some (intOfSize (PteditEntry.ofBlock
            (received copy s copy.locals PteditEntry.size)).pid) := by
        intro live
        obtain ⟨mm, found⟩ := Option.isSome_iff_exists.mp live
        dsimp only [flushPid]
        rw [found]
        rfl
      exact (performs_updateVm _ (fun live => calls _ (flushes live))
        (fun live => range _ (flushes live))).bind fun _ => trivial

/-! ## The calls of a request that is served alone -/

theorem watch_callInvalidateTlb {s : CallState} {pid : Pid} (addr : Word)
    (installable : ∀ method, s.kernel.invalidateTlb = some method → method.Installable host)
    (unset : s.kernel.invalidateTlb = none ∨
      (host.FlushesRange pid ∧ s.kernel.flushTlbMmRangeFunc = false)) :
    Prog.watch (kernelHandler host copy) unsetPointer (callInvalidateTlb host pid addr) s () =
      none := by
  cases set : s.kernel.invalidateTlb with
  | none =>
      refine Prog.watch_bind_eq_none ?_
      refine (Prog.watch_perform _ s ()).trans ?_
      rw [unsetPointer, Kernel.pointerSet, set]
      rfl
  | some method =>
      obtain ⟨⟨x86, live⟩, missing⟩ := unset.resolve_left (by rw [set]; exact Option.some_ne_none _)
      refine Prog.watch_bind_eq_none_of_some (run_invalidateTlb set) (fun _ => ?_) ()
      cases method with
      | custom => exact absurd (x86.symm.trans (installable _ set)) (by decide)
      | kernel =>
          obtain ⟨mm, found⟩ := Option.isSome_iff_exists.mp live
          dsimp only [invalidateTlbKernel]
          rw [x86, found]
          refine Prog.watch_bind_eq_none_of_some (run_pageSize s) (fun _ => ?_) ()
          refine Prog.watch_bind_eq_none_of_some (run_pageShift s) (fun _ => ?_) ()
          refine (Prog.watch_perform _ s ()).trans ?_
          rw [unsetPointer, Kernel.pointerSet, missing]
          rfl

/-- **The call is made.**  A request that flushes and that is served alone goes through an
unset pointer when one that it needs is unset. -/
theorem watch_deviceIoctl {cmd : Cmd} {param : Word} {s : CallState} {pid : Pid}
    (flushes : flushPid host copy s cmd = some pid)
    (installable : ∀ method, s.kernel.invalidateTlb = some method → method.Installable host)
    (unset : s.kernel.invalidateTlb = none ∨
      (host.FlushesRange pid ∧ s.kernel.flushTlbMmRangeFunc = false)) :
    Prog.watch (kernelHandler host copy) unsetPointer (deviceIoctl host cmd param) s () = none := by
  cases cmd with
  | invalidateTlb =>
      cases flushes
      exact Prog.watch_bind_eq_none (watch_callInvalidateTlb param installable unset)
  | invalidateTlbPid =>
      cases flushes
      refine Prog.watch_bind_eq_none_of_some (run_uninitialised s) (fun _ => ?_) ()
      refine Prog.watch_bind_eq_none_of_some (run_fromUser s _ _) (fun _ => ?_) ()
      exact Prog.watch_bind_eq_none (watch_callInvalidateTlb _ installable unset)
  | vmUpdate =>
      obtain ⟨mm, found, rfl⟩ := Option.map_eq_some_iff.mp flushes
      refine Prog.watch_bind_eq_none_of_some (run_uninitialised s) (fun _ => ?_) ()
      refine Prog.watch_bind_eq_none_of_some (run_fromUser s _ _) (fun _ => ?_) ()
      refine Prog.watch_bind_eq_none_of_some (run_mmIsLocked s) (fun _ => ?_) ()
      refine Prog.watch_bind_eq_none ?_
      rw [← received, updateVm_eq found]
      refine Prog.watch_bind_eq_none_of_some (run_storeLevels s) (fun _ => ?_) ()
      refine Prog.watch_bind_eq_none ?_
      rw [pid_kernelResolve]
      exact watch_callInvalidateTlb _ installable unset
  | _ => cases flushes

end Calls

end PTEditor
