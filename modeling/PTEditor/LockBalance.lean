import PTEditor.Module.Linux
import PTEditor.Module.Locks

/-!
# Lock balance

Every command but `VM_LOCK` and `VM_UNLOCK` gives back each mmap lock that it takes,
in the mode in which it took it, on every path on which it returns
(`deviceIoctl_lockBalanced`).
-/

namespace PTEditor

open KernelProg

/-- One call and the mmap locks. -/
structure LockBalanced (host : Host) (copy : UserCopy) (cmd : Cmd) (param : Word)
    (s : CallState) : Prop where
  /-- The call never requests a lock that it holds, and releases only what it holds. -/
  accepted : (Prog.watch (kernelHandler host copy) ownership (deviceIoctl host cmd param) s
    holdsNone).isSome
  /-- Where it returns it holds nothing. -/
  released : ∀ r s', Prog.run (kernelHandler host copy) (deviceIoctl host cmd param) s =
    some (r, s') → Prog.watch (kernelHandler host copy) ownership (deviceIoctl host cmd param) s
      holdsNone = some holdsNone
  /-- Where it returns every lock is as it was. -/
  restored : ∀ locks r s' locks',
    Prog.run (Prog.watched (kernelHandler host copy) lockTable) (deviceIoctl host cmd param)
      (s, locks) = some (r, (s', locks')) → locks' = locks

section Handlers

variable {host : Host} {copy : UserCopy}

theorem moves_vmResolve (s : CallState) :
    Moves host copy (DeviceIoctl.vmResolve host) s holdsNone holdsNone := by
  refine ((lockless_perform rfl).moves s _).bind fun garbage s₁ _ => ?_
  refine ((lockless_perform rfl).moves s₁ _).bind fun arg s₂ _ => ?_
  refine ((lockless_perform rfl).moves s₂ _).bind fun isLocked s₃ _ => ?_
  refine (moves_resolveVm _ _ _ s₃).bind fun resolved s₄ _ => ?_
  refine ((lockless_readEntries _).moves s₄ _).bind fun vmUser s₅ _ => ?_
  exact ((lockless_perform rfl).moves s₅ _).bind fun _ s₆ _ => Prog.accepts_ret _ s₆ _

theorem moves_vmUpdate (s : CallState) :
    Moves host copy (DeviceIoctl.vmUpdate host) s holdsNone holdsNone := by
  refine ((lockless_perform rfl).moves s _).bind fun garbage s₁ _ => ?_
  refine ((lockless_perform rfl).moves s₁ _).bind fun arg s₂ _ => ?_
  refine ((lockless_perform rfl).moves s₂ _).bind fun isLocked s₃ _ => ?_
  exact (moves_updateVm _ _ s₃).bind fun _ s₄ _ => Prog.accepts_ret _ s₄ _

theorem moves_getRootOf (paging : PteditPaging) (mm : Mm) (s : CallState) :
    Moves host copy (DeviceIoctl.getRootOf host paging mm) s holdsNone holdsNone := by
  refine ((lockless_perform rfl).moves s _).bind fun isLocked s₁ ran => ?_
  cases ran
  refine (moves_readLock _ mm s).bind fun _ s₂ ran => ?_
  rw [run_when, run_mmapReadLock, ite_self] at ran
  cases ran
  refine ((lockless_perform rfl).moves s _).bind fun pgd s₃ ran => ?_
  cases ran
  -- the flag is read again, and is what it was
  refine ((lockless_perform rfl).moves s _).bind fun isLocked s₄ ran => ?_
  cases ran
  refine (moves_readUnlock _ mm s).bind fun _ s₅ _ => ?_
  exact ((lockless_perform rfl).moves s₅ _).bind fun _ s₆ _ => Prog.accepts_ret _ s₆ _

theorem moves_getRootFromTtbr0 (paging : PteditPaging) (s : CallState) :
    Moves host copy (DeviceIoctl.getRootFromTtbr0 paging) s holdsNone holdsNone := by
  refine Lockless.moves ?_ s _
  exact Lockless.bind (Lockless.bind (lockless_perform rfl) fun _ => lockless_pure _)
    fun _ => Lockless.bind (lockless_perform rfl) fun _ => lockless_pure _

theorem moves_getRoot (s : CallState) :
    Moves host copy (DeviceIoctl.getRoot host) s holdsNone holdsNone := by
  refine ((lockless_perform rfl).moves s _).bind fun garbage s₁ _ => ?_
  refine ((lockless_perform rfl).moves s₁ _).bind fun arg s₂ _ => ?_
  dsimp only
  split
  · exact Prog.accepts_ret _ s₂ _
  · exact moves_getRootOf _ _ s₂
  · exact moves_getRootFromTtbr0 _ s₂
  · refine ((lockless_perform rfl).moves s₂ _).bind fun pgd s₃ _ => ?_
    split
    · exact moves_getRootFromTtbr0 _ s₃
    · exact moves_getRootOf _ _ s₃

theorem moves_setRootOf (paging : PteditPaging) (s : CallState) :
    Moves host copy (DeviceIoctl.setRootOf host paging) s holdsNone holdsNone := by
  unfold DeviceIoctl.setRootOf
  cases host.getMm paging.pid with
  | none => exact Prog.accepts_ret _ s _
  | some mm =>
      refine ((lockless_perform rfl).moves s _).bind fun isLocked s₁ ran => ?_
      cases ran
      refine (moves_writeLock _ mm s).bind fun _ s₂ ran => ?_
      rw [run_when, run_mmapWriteLock, ite_self] at ran
      cases ran
      refine ((lockless_perform rfl).moves s _).bind fun _ s₃ ran => ?_
      cases ran
      refine ((lockless_perform rfl).moves _ _).bind fun isLocked s₄ ran => ?_
      cases ran
      exact (moves_writeUnlock _ mm _).bind fun _ s₅ _ => Prog.accepts_ret _ s₅ _

/-- The commands that have no lock to do with. -/
theorem lockless_deviceIoctl {cmd : Cmd} (param : Word)
    (other : cmd ∉ [Cmd.vmResolve, .vmUpdate, .vmLock, .vmUnlock, .getRoot, .setRoot]) :
    Lockless (deviceIoctl host cmd param) := by
  cases cmd with
  | vmResolve | vmUpdate | vmLock | vmUnlock | getRoot | setRoot =>
      exact absurd (by decide) other
  | readPage | writePage =>
      exact Lockless.bind (lockless_perform rfl) fun _ => Lockless.bind (lockless_perform rfl)
        fun _ => Lockless.bind (lockless_perform rfl) fun _ =>
          Lockless.bind (lockless_perform rfl) fun _ => lockless_pure _
  | getPagesize => exact Lockless.bind (lockless_perform rfl) fun _ => lockless_pure _
  | invalidateTlb =>
      exact Lockless.bind (lockless_callInvalidateTlb _ _) fun _ => lockless_pure _
  | invalidateTlbPid =>
      exact Lockless.bind (lockless_perform rfl) fun _ => Lockless.bind (lockless_perform rfl)
        fun _ => Lockless.bind (lockless_callInvalidateTlb _ _) fun _ => lockless_pure _
  | getPat =>
      dsimp only [deviceIoctl, DeviceIoctl.getPat]
      split <;> exact Lockless.bind (lockless_perform rfl) fun _ =>
        Lockless.bind (lockless_perform rfl) fun _ => lockless_pure _
  | setPat =>
      dsimp only [deviceIoctl, DeviceIoctl.setPat]
      split <;> exact Lockless.bind (lockless_perform rfl) fun _ => lockless_pure _
  | switchTlbInvalidation =>
      dsimp only [deviceIoctl, DeviceIoctl.switchTlbInvalidation]
      split
      · trivial
      · split
        · trivial
        · exact Lockless.bind (lockless_perform rfl) fun _ => lockless_pure _
  | other number => trivial

theorem moves_deviceIoctl {cmd : Cmd} (param : Word) (notLock : cmd ≠ .vmLock)
    (notUnlock : cmd ≠ .vmUnlock) (s : CallState) :
    Moves host copy (deviceIoctl host cmd param) s holdsNone holdsNone := by
  cases cmd with
  | vmLock => exact absurd rfl notLock
  | vmUnlock => exact absurd rfl notUnlock
  | vmResolve => exact moves_vmResolve s
  | vmUpdate => exact moves_vmUpdate s
  | getRoot => exact moves_getRoot s
  | setRoot =>
      exact ((lockless_perform rfl).moves s _).bind fun arg s₁ _ => moves_setRootOf _ s₁
  | _ => exact (lockless_deviceIoctl param (by simp)).moves s _

end Handlers

/-- What the call owns and the state of the locks stay together. -/
theorem takenFrom_watch {host : Host} {copy : UserCopy} {α : Type} {p : KernelProg α}
    {s : CallState} {start locks locks' : Mm → RwLock} {owned owned' : Owned Mm}
    (taken : TakenFrom start owned locks)
    (table : Prog.watch (kernelHandler host copy) lockTable p s locks = some locks')
    (own : Prog.watch (kernelHandler host copy) ownership p s owned = some owned') :
    TakenFrom start owned' locks' := by
  refine Prog.watch_related (R := fun locks owned => TakenFrom start owned locks) ?_ taken table own
  intro op s locks locks' owned owned' before table own
  unfold lockTable lockGhost at table
  unfold ownership lockGhost at own
  cases touches : op.lockEvent with
  | none =>
      rw [touches] at table own
      cases table
      cases own
      exact before
  | some event =>
      rw [touches] at table own
      exact before.event table own

/-- **Balance.**  Every command other than `VM_LOCK` and `VM_UNLOCK` leaves the mmap locks
as it found them. -/
theorem deviceIoctl_lockBalanced {host : Host} {copy : UserCopy} {cmd : Cmd} {param : Word}
    {s : CallState} (notLock : cmd ≠ .vmLock) (notUnlock : cmd ≠ .vmUnlock) :
    LockBalanced host copy cmd param s := by
  have moves : Moves host copy (deviceIoctl host cmd param) s holdsNone holdsNone :=
    moves_deviceIoctl param notLock notUnlock s
  have released : ∀ r s', Prog.run (kernelHandler host copy) (deviceIoctl host cmd param) s =
      some (r, s') → Prog.watch (kernelHandler host copy) ownership
        (deviceIoctl host cmd param) s holdsNone = some holdsNone := by
    intro r s' returns
    exact moves.watch_eq (by rw [returns]; rfl)
  refine ⟨moves.isSome, released, fun locks r s' locks' returns => ?_⟩
  rw [Prog.run_watched] at returns
  obtain ⟨last, table, done⟩ := Option.bind_eq_some_iff.mp returns
  obtain ⟨⟨value, state⟩, ran, same⟩ := Option.map_eq_some_iff.mp done
  cases same
  exact (takenFrom_watch (takenFrom_none locks) table (released _ _ ran)).eq_of_none

/-- An update of address 0 of process 1 on the sample machine. -/
def sampleUpdateCall : CallState where
  kernel := sampleKernel
  arg := PteditEntry.block { PteditEntry.cleared 0 1 with pte := 0x6003, valid := 16 }
  user := fun _ => 0

theorem deviceIoctl_lockBalanced_sample :
    LockBalanced sampleHost wholeCopy .vmUpdate 0 sampleUpdateCall :=
  deviceIoctl_lockBalanced (by decide) (by decide)

end PTEditor
