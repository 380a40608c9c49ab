import PTEditor.Foundation.RwLock
import PTEditor.Module.IoctlSpec

/-!
# The module's use of the mmap locks

Two ghosts watch a run of module code: `lockTable` is the state of all mmap locks,
and refuses a request that has to wait; `ownership` is what the call itself holds,
and objects to a request for a lock that the call holds already and to a release of
one that it does not hold in that mode.  `Restores` says that a piece of code ends
with the locks it started with, and has a rule for each way in which `resolve_vm`,
`update_vm` and the handlers are put together.
-/

namespace PTEditor

open KernelProg

/-- What an operation does to an mmap lock. -/
def KernelOp.lockEvent : KernelOp → Option (LockEvent Mm)
  | .mmapReadLock mm => some (.acquire .read mm)
  | .mmapReadUnlock mm => some (.release .read mm)
  | .mmapWriteLock mm => some (.acquire .write mm)
  | .mmapWriteUnlock mm => some (.release .write mm)
  | _ => none

/-- A ghost that follows the lock events of a run. -/
def lockGhost {μ : Type} (effect : LockEvent Mm → μ → Option μ) (op : KernelOp) (_ : CallState)
    (g : μ) : Option μ :=
  match op.lockEvent with
  | none => some g
  | some event => effect event g

/-- The state of every mmap lock. -/
def lockTable : KernelOp → CallState → (Mm → RwLock) → Option (Mm → RwLock) :=
  lockGhost LockEvent.onTable

/-- The mmap locks that the call holds. -/
def ownership : KernelOp → CallState → Owned Mm → Option (Owned Mm) :=
  lockGhost LockEvent.onOwned

/-- No lock. -/
def holdsNone : Owned Mm := fun _ => none

/-- One lock, or none. -/
def holding (lock : Bool) (mode : LockMode) (mm : Mm) : Owned Mm :=
  if lock then Function.update holdsNone mm (some mode) else holdsNone

/-- The code never touches a lock. -/
abbrev Lockless {α : Type} (p : KernelProg α) : Prop := p.Performs fun op => op.lockEvent = none

section Rules

variable {host : Host} {copy : UserCopy} {α β : Type}

/-- The call holds `owned` before the code and `owned'` where it returns, and has no
objection on the way. -/
abbrev Moves (host : Host) (copy : UserCopy) (p : KernelProg α) (s : CallState)
    (owned owned' : Owned Mm) : Prop :=
  Prog.Accepts (kernelHandler host copy) ownership p s owned owned'

theorem Lockless.moves {p : KernelProg α} (only : Lockless p) (s : CallState) (owned : Owned Mm) :
    Moves host copy p s owned owned := by
  refine only.accepts (fun op quiet s => ?_) s
  rw [ownership, lockGhost, quiet]

theorem lockless_pure (value : α) : Lockless (pure value : KernelProg α) := trivial

theorem lockless_perform {op : KernelOp} (quiet : op.lockEvent = none) :
    Lockless (Prog.perform op : KernelProg op.Res) :=
  Prog.Performs.perform quiet

theorem Lockless.bind {p : KernelProg α} {f : α → KernelProg β} (first : Lockless p)
    (rest : ∀ value, Lockless (f value)) : Lockless (p >>= f) :=
  Prog.Performs.bind first rest

theorem lockless_readEntries (p : ReadProg α) : Lockless (p.translate readEntry) :=
  performs_readEntries (fun _ => rfl) p

/-- Taking a lock while none is held. -/
theorem moves_readLock (lock : Bool) (mm : Mm) (s : CallState) :
    Moves host copy (when lock (mmapReadLock mm)) s holdsNone (holding lock .read mm) := by
  cases lock
  · exact Prog.accepts_ret () s _
  · exact Prog.accepts_perform rfl

theorem moves_writeLock (lock : Bool) (mm : Mm) (s : CallState) :
    Moves host copy (when lock (mmapWriteLock mm)) s holdsNone (holding lock .write mm) := by
  cases lock
  · exact Prog.accepts_ret () s _
  · exact Prog.accepts_perform rfl

/-- Releasing the only lock that is held. -/
theorem onOwned_release (mode : LockMode) (mm : Mm) :
    (LockEvent.release mode mm).onOwned (holding true mode mm) = some holdsNone := by
  have held : holding true mode mm mm = some mode := Function.update_self mm _ _
  rw [LockEvent.onOwned, if_pos held, holding, if_pos rfl, Function.update_idem]
  exact congrArg some (Function.update_eq_self mm holdsNone)

theorem moves_readUnlock (lock : Bool) (mm : Mm) (s : CallState) :
    Moves host copy (when lock (mmapReadUnlock mm)) s (holding lock .read mm) holdsNone := by
  cases lock
  · exact Prog.accepts_ret () s _
  · exact Prog.accepts_perform (onOwned_release .read mm)

theorem moves_writeUnlock (lock : Bool) (mm : Mm) (s : CallState) :
    Moves host copy (when lock (mmapWriteUnlock mm)) s (holding lock .write mm) holdsNone := by
  cases lock
  · exact Prog.accepts_ret () s _
  · exact Prog.accepts_perform (onOwned_release .write mm)

end Rules

/-! ## The functions -/

section Functions

variable {host : Host} {copy : UserCopy}

theorem lockless_callInvalidateTlb (pid : Pid) (addr : Word) :
    Lockless (callInvalidateTlb host pid addr) := by
  refine Lockless.bind (lockless_perform rfl) fun method => ?_
  cases method with
  | custom =>
      dsimp only [invalidateTlbCustom]
      split
      · trivial
      · exact lockless_perform rfl
  | kernel =>
      dsimp only [invalidateTlbKernel]
      split
      · split
        · trivial
        · exact Lockless.bind (lockless_perform rfl) fun _ =>
            Lockless.bind (lockless_perform rfl) fun _ => lockless_perform rfl
      · split
        · trivial
        · split
          · trivial
          · exact lockless_perform rfl

/-- The call of `resolve_vm` that `update_vm` makes takes no lock. -/
theorem lockless_resolveVm (addr pid : Word) : Lockless (resolveVm host addr pid false) :=
  performs_resolveVm (fun locked => absurd locked Bool.false_ne_true) (fun _ => rfl)
    (fun _ => rfl) addr pid

theorem moves_resolveVm (addr pid : Word) (lock : Bool) (s : CallState) :
    Moves host copy (resolveVm host addr pid lock) s holdsNone holdsNone := by
  unfold resolveVm
  cases host.getMm pid with
  | none => exact Prog.accepts_ret _ s _
  | some mm =>
      refine (moves_readLock lock mm s).bind fun _ s₁ _ => ?_
      refine ((lockless_perform rfl).moves s₁ _).bind fun _ s₂ _ => ?_
      refine ((lockless_readEntries _).moves s₂ _).bind fun _ s₃ _ => ?_
      exact (moves_readUnlock lock mm s₃).bind fun _ s₄ _ => Prog.accepts_ret _ s₄ _

theorem lockless_updateLevel (old : Vm) (new : PteditEntry) (level : Level) :
    Lockless (updateLevel old new level) :=
  performs_when (lockless_perform rfl) _

theorem moves_updateVm (new : PteditEntry) (lock : Bool) (s : CallState) :
    Moves host copy (updateVm host new lock) s holdsNone holdsNone := by
  unfold updateVm
  cases host.getMm new.pid with
  | none => exact Prog.accepts_ret _ s _
  | some mm =>
      have level : ∀ old level s, Moves host copy (updateLevel old new level) s
          (holding lock .write mm) (holding lock .write mm) :=
        fun old level s => (lockless_updateLevel old new level).moves s _
      refine (moves_writeLock lock mm s).bind fun _ s₁ _ => ?_
      refine ((lockless_resolveVm _ _).moves s₁ _).bind fun resolved s₂ _ => ?_
      refine (level _ _ s₂).bind fun _ s₃ _ => (level _ _ s₃).bind fun _ s₄ _ => ?_
      refine (level _ _ s₄).bind fun _ s₅ _ => (level _ _ s₅).bind fun _ s₆ _ => ?_
      refine (level _ _ s₆).bind fun _ s₇ _ => ?_
      refine ((lockless_callInvalidateTlb _ _).moves s₇ _).bind fun _ s₈ _ => ?_
      exact (moves_writeUnlock lock mm s₈).bind fun _ s₉ _ => Prog.accepts_ret _ s₉ _

end Functions

end PTEditor
