import PTEditor.LockBalance

/-!
# `VM_LOCK` and `VM_UNLOCK`

`VM_LOCK` takes the mmap lock of the calling process for writing and then once more
for reading.  A lock that a writer holds refuses readers, so the second request waits
for the first to be released, which only the caller could do: `vmLock_blocks_itself`.
The two refusals, of a second `VM_LOCK` and of a `VM_UNLOCK` without one, work.
-/

namespace PTEditor

open KernelProg

/-- A run of a command over the kernel and all mmap locks. -/
abbrev lockedRun (host : Host) (copy : UserCopy) (cmd : Cmd) (param : Word)
    (c : CallState × (Mm → RwLock)) : Option (Int × (CallState × (Mm → RwLock))) :=
  Prog.run (Prog.watched (kernelHandler host copy) lockTable) (deviceIoctl host cmd param) c

/-- The protocol of the two commands, from a state in which neither the module nor
anybody else holds the lock of `mm`. -/
def VmLockProtocol (host : Host) (copy : UserCopy) (param : Word) (mm : Mm)
    (c : CallState × (Mm → RwLock)) : Prop :=
  ∃ locked, lockedRun host copy .vmLock param c = some (0, locked) ∧
    locked.1.kernel.mmIsLocked = true ∧ locked.2 mm = .exclusive ∧
    (∃ s, lockedRun host copy .vmUnlock param locked = some (0, (s, c.2)) ∧
      s.kernel.mmIsLocked = false) ∧
    lockedRun host copy .vmLock param locked = some (-1, locked) ∧
    lockedRun host copy .vmUnlock param c = some (-1, c)

section Commands

variable {host : Host} {copy : UserCopy} {param : Word} {s : CallState} {locks : Mm → RwLock}

/-- A second `VM_LOCK` returns -1 and changes nothing. -/
theorem vmLock_of_locked (locked : s.kernel.mmIsLocked = true) :
    lockedRun host copy .vmLock param (s, locks) = some (-1, (s, locks)) := by
  change Option.bind (some (s.kernel.mmIsLocked, (s, locks))) _ = _
  rw [locked]
  rfl

/-- A `VM_UNLOCK` without a `VM_LOCK` returns -1 and changes nothing. -/
theorem vmUnlock_of_unlocked (unlocked : s.kernel.mmIsLocked = false) :
    lockedRun host copy .vmUnlock param (s, locks) = some (-1, (s, locks)) := by
  change Option.bind (some (s.kernel.mmIsLocked, (s, locks))) _ = _
  rw [unlocked]
  rfl

/-- The request of `mmap_read_lock` on a lock that the caller took for writing waits. -/
theorem onTable_read_of_write {mm : Mm} (free : locks mm = .free) :
    (LockEvent.acquire .write mm).onTable locks = some (Function.update locks mm .exclusive) ∧
    (LockEvent.acquire .read mm).onTable (Function.update locks mm .exclusive) = none := by
  constructor
  · rw [LockEvent.onTable, free]
    rfl
  · rw [LockEvent.onTable, Function.update_self, RwLock.acquire_exclusive, Option.map_none]

/-- **`VM_LOCK` never returns.**  With the lock free the call takes it for writing and
then waits for itself. -/
theorem vmLock_blocks_itself {mm : Mm} (caller : host.current.activeMm = some mm)
    (unlocked : s.kernel.mmIsLocked = false) (free : locks mm = .free) :
    ¬ VmLockProtocol host copy param mm (s, locks) ∧
    lockedRun host copy .vmLock param (s, locks) = none ∧
    (deviceIoctl host .vmLock param).trace (Prog.watched (kernelHandler host copy) lockTable)
      (s, locks) = [.mmIsLocked, .mmapWriteLock mm, .mmapReadLock mm] := by
  obtain ⟨taken, waits⟩ := onTable_read_of_write free
  have flag : Prog.run (Prog.watched (kernelHandler host copy) lockTable) mmIsLocked (s, locks) =
      some (false, (s, locks)) := by
    rw [← unlocked]
    rfl
  have write : Prog.run (Prog.watched (kernelHandler host copy) lockTable) (mmapWriteLock mm)
      (s, locks) = some ((), (s, Function.update locks mm .exclusive)) := by
    refine (Prog.run_perform _ _).trans ?_
    change ((LockEvent.acquire .write mm).onTable locks).bind _ = _
    rw [taken]
    rfl
  have read : Prog.run (Prog.watched (kernelHandler host copy) lockTable) (mmapReadLock mm)
      (s, Function.update locks mm .exclusive) = none := by
    refine (Prog.run_perform _ _).trans ?_
    change ((LockEvent.acquire .read mm).onTable _).bind _ = _
    rw [waits]
    rfl
  have code : deviceIoctl host .vmLock param = (do
      if ← mmIsLocked then
        pure (-1)
      else
        mmapWriteLock mm
        mmapReadLock mm
        setMmIsLocked true
        pure 0) := by
    simp only [deviceIoctl, DeviceIoctl.vmLock, caller]
  have blocked : lockedRun host copy .vmLock param (s, locks) = none := by
    rw [lockedRun, code, Prog.run_bind_of_some flag, if_neg Bool.false_ne_true,
      Prog.run_bind_of_some write, Prog.run_bind, read, Option.bind_none]
  refine ⟨?_, blocked, ?_⟩
  · rintro ⟨locked, returns, -⟩
    rw [blocked] at returns
    cases returns
  · rw [code, Prog.trace_bind_of_some flag, if_neg Bool.false_ne_true,
      Prog.trace_bind_of_some write, Prog.trace_bind_of_none read]
    exact congrArg₂ (· ++ ·) (Prog.trace_perform _ _)
      (congrArg₂ (· ++ ·) (Prog.trace_perform _ _) (Prog.trace_perform _ _))

end Commands

/-- The sample machine with every lock free. -/
def sampleLocks : CallState × (Mm → RwLock) := (sampleUpdateCall, fun _ => .free)

theorem vmLock_protocol_fails :
    sampleLocks.1.kernel.mmIsLocked = false ∧ sampleLocks.2 0 = .free ∧
    ¬ VmLockProtocol sampleHost wholeCopy 0 0 sampleLocks := by
  refine ⟨rfl, rfl, ?_⟩
  rintro ⟨locked, returns, -⟩
  cases returns

theorem vmLock_blocks_itself_sample :
    ¬ VmLockProtocol sampleHost wholeCopy 0 0 sampleLocks :=
  And.left (vmLock_blocks_itself rfl rfl rfl)

end PTEditor
