import PTEditor.LockBalance

/-!
# Page tables under the mmap lock

`discipline` watches a run like `ownership` and objects as well to an access to the
page tables or to `mm->pgd` of a process whose lock is not held for it: for reading
at least, and for writing where the access writes.  `keepsDiscipline_iff` says which
requests pass.  While the VM is locked the handlers take no lock at all, so a request
for another process than the one that issued `VM_LOCK` runs unlocked; while it is
not, `VM_RESOLVE` reads the entries again after it dropped the lock, and `GET_ROOT`
looks at `mm->pgd` before it takes it on aarch64.
-/

namespace PTEditor

open KernelProg

/-- The mode in which an operation needs the lock of the process it is about. -/
def KernelOp.needs : KernelOp → Option LockMode
  | .mmPgd _ | .readEntry _ => some .read
  | .setMmPgd _ _ | .setEntry _ _ _ => some .write
  | _ => none

/-- A lock that is held, or not, allows an access. -/
def Permits (held : Option LockMode) : Option LockMode → Prop
  | none => True
  | some .read => held ≠ none
  | some .write => held = some .write

instance (held need : Option LockMode) : Decidable (Permits held need) := by
  unfold Permits
  split <;> infer_instance

/-- The locks that are held, as long as every access to the tables of `target` is made
under its lock. -/
def discipline (target : Mm) (op : KernelOp) (s : CallState) (held : Owned Mm) :
    Option (Owned Mm) :=
  if Permits (held target) op.needs then ownership op s held else none

/-- The pid that a request for a process's tables names. -/
def requestedPid (copy : UserCopy) (s : CallState) : Cmd → Word
  | .vmResolve | .vmUpdate =>
      (PteditEntry.ofBlock (received copy s copy.locals PteditEntry.size)).pid
  | .getRoot => (PteditPaging.ofBlock (received copy s copy.locals PteditPaging.size)).pid
  | .setRoot => (PteditPaging.ofBlock
      (received copy s (PteditPaging.block { pid := 0, root := 0 }) PteditPaging.size)).pid
  | _ => 0

/-- The address that a VM_RESOLVE names. -/
def requestedAddress (copy : UserCopy) (s : CallState) : Word :=
  (PteditEntry.ofBlock (received copy s copy.locals PteditEntry.size)).vaddr

/-- The call accesses the tables of the process it names under that process's lock.
When the VM is locked the lock of `owner` is held on entry, and otherwise none. -/
def KeepsDiscipline (host : Host) (copy : UserCopy) (cmd : Cmd) (param : Word) (owner : Mm)
    (s : CallState) : Prop :=
  ∀ target, host.getMm (requestedPid copy s cmd) = some target →
    (Prog.watch (kernelHandler host copy) (discipline target) (deviceIoctl host cmd param) s
      (holding s.kernel.mmIsLocked .write owner)).isSome

/-- What the handlers' locking covers for the process `target`. -/
def LockCovers (host : Host) (copy : UserCopy) (cmd : Cmd) (owner target : Mm)
    (s : CallState) : Prop :=
  if s.kernel.mmIsLocked then
    target = owner
  else
    match cmd with
    | .vmResolve => ¬ (s.kernel.walk host (requestedAddress copy s) target).Valid .pgd
    | .getRoot => host.arch = .x86_64
    | _ => True

/-! ## Steps of the ghost -/

section Steps

variable {host : Host} {copy : UserCopy} {target : Mm} {α β : Type}

/-- The ghost of `target` accepts the code. -/
abbrev Guards (host : Host) (copy : UserCopy) (target : Mm) (p : KernelProg α) (s : CallState)
    (held held' : Owned Mm) : Prop :=
  Prog.Accepts (kernelHandler host copy) (discipline target) p s held held'

/-- The ghost of `target` objects to the code. -/
abbrev Objects (host : Host) (copy : UserCopy) (target : Mm) (p : KernelProg α) (s : CallState)
    (held : Owned Mm) : Prop :=
  Prog.watch (kernelHandler host copy) (discipline target) p s held = none

theorem discipline_of_permits {op : KernelOp} {held : Owned Mm}
    (permits : Permits (held target) op.needs) (s : CallState) :
    discipline target op s held = ownership op s held :=
  if_pos permits

theorem discipline_of_idle (op : KernelOp) (idle : op.needs = none) (s : CallState)
    (held : Owned Mm) : discipline target op s held = ownership op s held :=
  discipline_of_permits (by rw [idle]; trivial) s

theorem guards_perform (op : KernelOp) {held : Owned Mm} (quiet : op.lockEvent = none)
    (permits : Permits (held target) op.needs) (s : CallState) :
    Guards host copy target (Prog.perform op : KernelProg op.Res) s held held := by
  refine Prog.accepts_perform ?_
  rw [discipline_of_permits permits, ownership, lockGhost, quiet]

theorem objects_perform (op : KernelOp) {held : Owned Mm}
    (forbids : ¬ Permits (held target) op.needs) (s : CallState) :
    Objects host copy target (Prog.perform op : KernelProg op.Res) s held :=
  (Prog.watch_perform op s held).trans (if_neg forbids)

/-- Under the write lock everything is permitted. -/
theorem Lockless.guards {p : KernelProg α} (only : Lockless p) {held : Owned Mm}
    (writing : held target = some .write) (s : CallState) :
    Guards host copy target p s held held := by
  refine only.accepts (fun op quiet s => ?_) s
  have permits : Permits (held target) op.needs := by
    rw [writing]
    unfold Permits
    split
    · trivial
    · nofun
    · rfl
  rw [discipline_of_permits permits, ownership, lockGhost, quiet]

/-- Under any lock the tables may be read. -/
theorem guards_readEntries (p : ReadProg α) {held : Owned Mm} (reading : held target ≠ none)
    (s : CallState) : Guards host copy target (p.translate readEntry) s held held := by
  have each : ∀ a, (readEntry a).Performs fun op => ∃ a, op = KernelOp.readEntry a :=
    fun a => Prog.Performs.perform ⟨a, rfl⟩
  refine (Prog.Performs.translate each p).accepts ?_ s
  rintro op ⟨a, rfl⟩ s
  exact if_pos reading

/-- After a first part that passes the ghost goes on with the second. -/
theorem Guards.watch_bind {p : KernelProg α} {f : α → KernelProg β} {s s' : CallState} {value : α}
    {held held' : Owned Mm} (guards : Guards host copy target p s held held')
    (ran : Prog.run (kernelHandler host copy) p s = some (value, s')) :
    Prog.watch (kernelHandler host copy) (discipline target) (p >>= f) s held =
      Prog.watch (kernelHandler host copy) (discipline target) (f value) s' held' := by
  rw [Prog.watch_bind_of_some ran, guards.watch_eq (by rw [ran]; rfl), Option.bind_some]

end Steps

/-! ## The functions -/

section Functions

variable {host : Host} {copy : UserCopy} {target : Mm}

theorem guards_readLock (lock : Bool) (s : CallState) :
    Guards host copy target (when lock (mmapReadLock target)) s holdsNone
      (holding lock .read target) := by
  cases lock
  · exact Prog.accepts_ret () s _
  · exact Prog.accepts_perform (discipline_of_idle (.mmapReadLock target) rfl s _)

theorem guards_readUnlock (lock : Bool) (s : CallState) :
    Guards host copy target (when lock (mmapReadUnlock target)) s (holding lock .read target)
      holdsNone := by
  cases lock
  · exact Prog.accepts_ret () s _
  · exact Prog.accepts_perform
      ((discipline_of_idle (.mmapReadUnlock target) rfl s _).trans (onOwned_release .read target))

theorem guards_writeLock (lock : Bool) (s : CallState) :
    Guards host copy target (when lock (mmapWriteLock target)) s holdsNone
      (holding lock .write target) := by
  cases lock
  · exact Prog.accepts_ret () s _
  · exact Prog.accepts_perform (discipline_of_idle (.mmapWriteLock target) rfl s _)

theorem guards_writeUnlock (lock : Bool) (s : CallState) :
    Guards host copy target (when lock (mmapWriteUnlock target)) s (holding lock .write target)
      holdsNone := by
  cases lock
  · exact Prog.accepts_ret () s _
  · exact Prog.accepts_perform
      ((discipline_of_idle (.mmapWriteUnlock target) rfl s _).trans (onOwned_release .write target))

theorem holding_self (mode : LockMode) : holding true mode target target = some mode :=
  Function.update_self target _ _

theorem run_whenNot (p : KernelProg Unit) (s : CallState) :
    Prog.run (kernelHandler host copy) (when false p) s = some ((), s) := rfl

/-- With its own read lock `resolve_vm` passes. -/
theorem guards_resolveVm {addr pid : Word} (found : host.getMm pid = some target) (s : CallState) :
    Guards host copy target (resolveVm host addr pid true) s holdsNone holdsNone := by
  have reading : holding true .read target target ≠ none := by
    rw [holding_self]
    nofun
  unfold resolveVm
  rw [found]
  refine (guards_readLock true s).bind fun _ s₁ _ => ?_
  refine (guards_perform (.mmPgd target) rfl reading s₁).bind fun root s₂ _ => ?_
  refine (guards_readEntries _ reading s₂).bind fun result s₃ _ => ?_
  exact (guards_readUnlock true s₃).bind fun _ s₄ _ => Prog.accepts_ret _ s₄ _

/-- Without its own lock `resolve_vm` needs one that is held already. -/
theorem objects_resolveVm {addr pid : Word} (found : host.getMm pid = some target)
    {held : Owned Mm} (unheld : held target = none) (s : CallState) :
    Objects host copy target (resolveVm host addr pid false) s held := by
  unfold resolveVm
  rw [found]
  refine (Guards.watch_bind (Prog.accepts_ret () s held)
    (run_whenNot (mmapReadLock target) s)).trans ?_
  exact Prog.watch_bind_eq_none (objects_perform (.mmPgd target) (fun p => p unheld) s)

/-- Without a lock the entries that `vm_to_user` reads are unprotected. -/
theorem objects_vmToUser {user : PteditEntry} {vm : Vm} {pointer : Word}
    (reached : vm.pgd = some pointer) {held : Owned Mm} (unheld : held target = none)
    (s : CallState) :
    Objects host copy target ((vmToUser user vm).translate readEntry) s held := by
  have first : ∀ {α : Type} (a : Word) (next : Word → KernelProg α),
      Objects host copy target (readEntry a >>= next) s held := fun a _ =>
    Prog.watch_bind_eq_none (objects_perform (.readEntry a) (fun p => p unheld) s)
  unfold vmToUser
  rw [reached]
  cases vm.p4d with
  | none => exact first pointer _
  | some above => exact first above _

/-- A `vm_t` whose PGD is not valid holds no pointer, and `vm_to_user` reads nothing. -/
theorem vmToUser_of_not_valid {w : KernelWalk} (fails : ¬ w.Valid .pgd) (user : PteditEntry)
    (pid : Word) :
    (vmToUser user (w.vm pid)).translate readEntry =
      pure { user with valid := (w.vm pid).valid } := by
  have none : ∀ level, (w.vm pid).pointer level = none := by
    intro level
    rw [KernelWalk.pointer_vm, if_neg]
    cases level with
    | pgd => exact fails
    | _ => exact fun valid => fails (valid.upper (by decide))
  unfold vmToUser
  rw [show (w.vm pid).p4d = _ from none .p4d, show (w.vm pid).pgd = _ from none .pgd,
    show (w.vm pid).pmd = _ from none .pmd, show (w.vm pid).pud = _ from none .pud,
    show (w.vm pid).pte = _ from none .pte]
  rfl

/-- `update_vm` passes with its own write lock. -/
theorem guards_updateVm {new : PteditEntry} (found : host.getMm new.pid = some target)
    (s : CallState) : Guards host copy target (updateVm host new true) s holdsNone holdsNone := by
  have writing : holding true .write target target = some .write := holding_self .write
  have level : ∀ old level s, Guards host copy target (updateLevel old new level) s
      (holding true .write target) (holding true .write target) :=
    fun old level => (lockless_updateLevel old new level).guards writing
  unfold updateVm
  rw [found]
  refine (guards_writeLock true s).bind fun _ s₁ _ => ?_
  refine ((lockless_resolveVm _ _).guards writing s₁).bind fun resolved s₂ _ => ?_
  refine (level _ _ s₂).bind fun _ s₃ _ => (level _ _ s₃).bind fun _ s₄ _ => ?_
  refine (level _ _ s₄).bind fun _ s₅ _ => (level _ _ s₅).bind fun _ s₆ _ => ?_
  refine (level _ _ s₆).bind fun _ s₇ _ => ?_
  refine ((lockless_callInvalidateTlb _ _).guards writing s₇).bind fun _ s₈ _ => ?_
  exact (guards_writeUnlock true s₈).bind fun _ s₉ _ => Prog.accepts_ret _ s₉ _

theorem lockless_updateVm (new : PteditEntry) : Lockless (updateVm host new false) := by
  unfold updateVm
  cases host.getMm new.pid with
  | none => trivial
  | some mm =>
      exact (lockless_pure ()).bind fun _ => (lockless_resolveVm _ _).bind fun _ =>
        (lockless_updateLevel _ _ _).bind fun _ => (lockless_updateLevel _ _ _).bind fun _ =>
        (lockless_updateLevel _ _ _).bind fun _ => (lockless_updateLevel _ _ _).bind fun _ =>
        (lockless_updateLevel _ _ _).bind fun _ => (lockless_callInvalidateTlb _ _).bind fun _ =>
        (lockless_pure ()).bind fun _ => lockless_pure _

theorem objects_updateVm {new : PteditEntry} (found : host.getMm new.pid = some target)
    {held : Owned Mm} (unheld : held target = none) (s : CallState) :
    Objects host copy target (updateVm host new false) s held := by
  unfold updateVm
  rw [found]
  refine (Guards.watch_bind (Prog.accepts_ret () s held)
    (run_whenNot (mmapWriteLock target) s)).trans ?_
  exact Prog.watch_bind_eq_none (objects_resolveVm found unheld s)

end Functions

/-! ## The requests -/

section Requests

variable {host : Host} {copy : UserCopy} {target owner : Mm} {s : CallState} {α : Type}

/-- What `resolve_vm` and the handlers do before they look at a process. -/
theorem watch_copied {held : Owned Mm} {dst : Block} {size : Nat} {f : Block → KernelProg α} :
    Prog.watch (kernelHandler host copy) (discipline target) (fromUser dst size >>= f) s held =
      Prog.watch (kernelHandler host copy) (discipline target) (f (received copy s dst size)) s
        held := by
  have guards : Guards host copy target (fromUser dst size) s held held :=
    guards_perform (.fromUser dst size) rfl trivial s
  exact guards.watch_bind (run_fromUser s dst size)

theorem watch_uninitialised {held : Owned Mm} {f : Block → KernelProg α} :
    Prog.watch (kernelHandler host copy) (discipline target) (uninitialised >>= f) s held =
      Prog.watch (kernelHandler host copy) (discipline target) (f copy.locals) s held := by
  have guards : Guards host copy target uninitialised s held held :=
    guards_perform .uninitialised rfl trivial s
  exact guards.watch_bind (run_uninitialised s)

theorem watch_mmIsLocked {held : Owned Mm} {f : Bool → KernelProg α} :
    Prog.watch (kernelHandler host copy) (discipline target) (mmIsLocked >>= f) s held =
      Prog.watch (kernelHandler host copy) (discipline target) (f s.kernel.mmIsLocked) s held := by
  have guards : Guards host copy target mmIsLocked s held held :=
    guards_perform .mmIsLocked rfl trivial s
  exact guards.watch_bind (run_mmIsLocked s)

theorem holding_of_ne (ne : target ≠ owner) : holding true .write owner target = none :=
  Function.update_of_ne ne _ _

/-- While the VM is locked nothing but the lock of `owner` protects the tables. -/
theorem isSome_iff_own {p : KernelProg α} {held : Owned Mm}
    (own : target = owner → Guards host copy target p s held held)
    (foreign : target ≠ owner → Objects host copy target p s held) :
    (Prog.watch (kernelHandler host copy) (discipline target) p s held).isSome ↔
      target = owner := by
  constructor
  · intro passes
    by_contra ne
    rw [foreign ne] at passes
    cases passes
  · exact fun same => (own same).isSome

theorem locked_iff {p : KernelProg α} (only : Lockless p)
    (objects : ∀ held : Owned Mm, held target = none → Objects host copy target p s held) :
    (Prog.watch (kernelHandler host copy) (discipline target) p s
      (holding true .write owner)).isSome ↔ target = owner := by
  refine isSome_iff_own (fun same => ?_) fun ne => objects _ (holding_of_ne ne)
  subst same
  exact only.guards (holding_self .write) s

theorem watch_vmResolve (found : host.getMm (requestedPid copy s .vmResolve) = some target) :
    (Prog.watch (kernelHandler host copy) (discipline target) (DeviceIoctl.vmResolve host) s
      (holding s.kernel.mmIsLocked .write owner)).isSome ↔
        LockCovers host copy .vmResolve owner target s := by
  unfold DeviceIoctl.vmResolve LockCovers requestedAddress
  rw [watch_uninitialised, watch_copied, watch_mmIsLocked]
  change host.getMm (PteditEntry.ofBlock (received copy s copy.locals PteditEntry.size)).pid = _
    at found
  generalize PteditEntry.ofBlock (received copy s copy.locals PteditEntry.size) = user at *
  cases s.kernel.mmIsLocked with
  | true =>
      rw [if_pos rfl]
      refine locked_iff ?_ fun held unheld =>
        Prog.watch_bind_eq_none (objects_resolveVm found unheld s)
      exact (lockless_resolveVm _ _).bind fun _ => (lockless_readEntries _).bind fun _ =>
        (lockless_perform rfl).bind fun _ => lockless_pure _
  | false =>
      have resolves : Guards host copy target (resolveVm host user.vaddr user.pid true) s
        holdsNone holdsNone := guards_resolveVm found s
      have resolved : (kernelResolve host s.kernel user.vaddr user.pid).2 =
          (s.kernel.walk host user.vaddr target).vm user.pid := by
        rw [kernelResolve, found]
      rw [if_neg Bool.false_ne_true]
      simp only [holding, Bool.not_false, Bool.false_eq_true, if_false]
      rw [resolves.watch_bind (run_resolveVm _ _ _ s), resolved]
      constructor
      · intro passes valid
        -- the entries are read once more after the lock is dropped
        have reached : ((s.kernel.walk host user.vaddr target).vm user.pid).pgd =
            some (s.kernel.walk host user.vaddr target).pgdPtr := if_pos valid
        rw [Prog.watch_bind_eq_none (objects_vmToUser reached rfl s)] at passes
        cases passes
      · intro fails
        rw [vmToUser_of_not_valid fails]
        have replies : ∀ user : PteditEntry, Guards host copy target
            (toUser user.block PteditEntry.size >>= fun _ => pure (0 : Int)) s holdsNone
            holdsNone := fun user =>
          (guards_perform (.toUser user.block PteditEntry.size) rfl trivial s).bind
            fun _ s₁ _ => Prog.accepts_ret 0 s₁ _
        exact (replies _).isSome

theorem watch_vmUpdate (found : host.getMm (requestedPid copy s .vmUpdate) = some target) :
    (Prog.watch (kernelHandler host copy) (discipline target) (DeviceIoctl.vmUpdate host) s
      (holding s.kernel.mmIsLocked .write owner)).isSome ↔
        LockCovers host copy .vmUpdate owner target s := by
  unfold DeviceIoctl.vmUpdate LockCovers
  rw [watch_uninitialised, watch_copied, watch_mmIsLocked]
  cases s.kernel.mmIsLocked with
  | true =>
      rw [if_pos rfl]
      refine locked_iff ?_ fun held unheld =>
        Prog.watch_bind_eq_none (objects_updateVm found unheld s)
      exact (lockless_updateVm _).bind fun _ => lockless_pure _
  | false =>
      have updates : Guards host copy target _ s _ _ := guards_updateVm found s
      exact iff_of_true (updates.bind fun _ s₁ _ => Prog.accepts_ret 0 s₁ _).isSome trivial

/-- What is held between the two locking steps of a handler. -/
def inside (flag : Bool) (mode : LockMode) (owner target : Mm) : Owned Mm :=
  if flag then holding true .write owner else holding true mode target

theorem inside_target {flag : Bool} (own : flag = true → target = owner) (mode : LockMode) :
    inside flag mode owner target target = some (if flag then .write else mode) := by
  cases flag with
  | true =>
      obtain rfl := own rfl
      exact holding_self .write
  | false => exact holding_self mode

theorem guards_enterRead (flag : Bool) (s : CallState) :
    Guards host copy target (when (!flag) (mmapReadLock target)) s (holding flag .write owner)
      (inside flag .read owner target) := by
  cases flag
  · exact guards_readLock true s
  · exact Prog.accepts_ret () s _

theorem guards_leaveRead (flag : Bool) (s : CallState) :
    Guards host copy target (when (!flag) (mmapReadUnlock target)) s
      (inside flag .read owner target) (holding flag .write owner) := by
  cases flag
  · exact guards_readUnlock true s
  · exact Prog.accepts_ret () s _

theorem guards_enterWrite (flag : Bool) (s : CallState) :
    Guards host copy target (when (!flag) (mmapWriteLock target)) s (holding flag .write owner)
      (inside flag .write owner target) := by
  cases flag
  · exact guards_writeLock true s
  · exact Prog.accepts_ret () s _

theorem guards_leaveWrite (flag : Bool) (s : CallState) :
    Guards host copy target (when (!flag) (mmapWriteUnlock target)) s
      (inside flag .write owner target) (holding flag .write owner) := by
  cases flag
  · exact guards_writeUnlock true s
  · exact Prog.accepts_ret () s _

theorem guards_getRootOf (own : s.kernel.mmIsLocked = true → target = owner)
    (paging : PteditPaging) :
    Guards host copy target (DeviceIoctl.getRootOf host paging target) s
      (holding s.kernel.mmIsLocked .write owner) (holding s.kernel.mmIsLocked .write owner) := by
  have reading : inside s.kernel.mmIsLocked .read owner target target ≠ none := by
    rw [inside_target own]
    nofun
  refine (guards_perform .mmIsLocked rfl trivial s).bind fun isLocked s₁ ran => ?_
  cases ran
  refine (guards_enterRead s.kernel.mmIsLocked s).bind fun _ s₂ ran => ?_
  rw [run_when, run_mmapReadLock, ite_self] at ran
  cases ran
  refine (guards_perform (.mmPgd target) rfl reading s).bind fun pgd s₃ ran => ?_
  cases ran
  refine (guards_perform .mmIsLocked rfl trivial s).bind fun isLocked s₄ ran => ?_
  cases ran
  refine (guards_leaveRead s.kernel.mmIsLocked s).bind fun _ s₅ _ => ?_
  exact (guards_perform (.toUser _ _) rfl trivial s₅).bind fun _ s₆ _ => Prog.accepts_ret _ s₆ _

theorem guards_setRootOf {paging : PteditPaging} (found : host.getMm paging.pid = some target)
    (own : s.kernel.mmIsLocked = true → target = owner) :
    Guards host copy target (DeviceIoctl.setRootOf host paging) s
      (holding s.kernel.mmIsLocked .write owner) (holding s.kernel.mmIsLocked .write owner) := by
  have writing : inside s.kernel.mmIsLocked .write owner target target = some .write := by
    rw [inside_target own, ite_self]
  unfold DeviceIoctl.setRootOf
  rw [found]
  refine (guards_perform .mmIsLocked rfl trivial s).bind fun isLocked s₁ ran => ?_
  cases ran
  refine (guards_enterWrite s.kernel.mmIsLocked s).bind fun _ s₂ ran => ?_
  rw [run_when, run_mmapWriteLock, ite_self] at ran
  cases ran
  refine (guards_perform (.setMmPgd target _) rfl writing s).bind fun _ s₃ ran => ?_
  cases ran
  refine (guards_perform .mmIsLocked rfl trivial _).bind fun isLocked s₄ ran => ?_
  cases ran
  exact (guards_leaveWrite s.kernel.mmIsLocked _).bind fun _ s₅ _ => Prog.accepts_ret _ s₅ _

/-- While the VM is locked for another process GET_ROOT reads `mm->pgd` without a lock. -/
theorem objects_getRootOf (locked : s.kernel.mmIsLocked = true) (ne : target ≠ owner)
    (paging : PteditPaging) :
    Objects host copy target (DeviceIoctl.getRootOf host paging target) s
      (holding true .write owner) := by
  refine watch_mmIsLocked.trans ?_
  rw [locked]
  refine (Guards.watch_bind (Prog.accepts_ret () s _)
    (run_whenNot (mmapReadLock target) s)).trans ?_
  exact Prog.watch_bind_eq_none
    (objects_perform (.mmPgd target) (fun p => p (holding_of_ne ne)) s)

/-- While the VM is locked for another process SET_ROOT writes `mm->pgd` without a lock. -/
theorem objects_setRootOf {paging : PteditPaging} (found : host.getMm paging.pid = some target)
    (locked : s.kernel.mmIsLocked = true) (ne : target ≠ owner) :
    Objects host copy target (DeviceIoctl.setRootOf host paging) s (holding true .write owner) := by
  have forbids : ¬ Permits (holding true .write owner target) (some .write) := by
    rw [holding_of_ne ne]
    nofun
  unfold DeviceIoctl.setRootOf
  rw [found]
  refine watch_mmIsLocked.trans ?_
  rw [locked]
  refine (Guards.watch_bind (Prog.accepts_ret () s _)
    (run_whenNot (mmapWriteLock target) s)).trans ?_
  exact Prog.watch_bind_eq_none (objects_perform (.setMmPgd target _) forbids s)

theorem watch_setRoot (found : host.getMm (requestedPid copy s .setRoot) = some target) :
    (Prog.watch (kernelHandler host copy) (discipline target) (DeviceIoctl.setRoot host) s
      (holding s.kernel.mmIsLocked .write owner)).isSome ↔
        LockCovers host copy .setRoot owner target s := by
  unfold DeviceIoctl.setRoot LockCovers
  rw [watch_copied]
  cases flag : s.kernel.mmIsLocked with
  | true =>
      rw [if_pos rfl]
      refine isSome_iff_own (fun own => ?_) (objects_setRootOf found flag)
      have guards : Guards host copy target _ s _ _ := guards_setRootOf found fun _ => own
      rwa [flag] at guards
  | false =>
      have unlocked : s.kernel.mmIsLocked = true → target = owner := by simp [flag]
      have guards : Guards host copy target _ s _ _ := guards_setRootOf found unlocked
      rw [flag] at guards
      exact iff_of_true guards.isSome trivial

theorem guards_getRootFromTtbr0 (paging : PteditPaging) (held : Owned Mm) :
    Guards host copy target (DeviceIoctl.getRootFromTtbr0 paging) s held held := by
  refine ((guards_perform .mrsTtbr0 rfl trivial s).bind fun _ s₁ _ =>
    Prog.accepts_ret _ s₁ held).bind fun root s₂ _ => ?_
  exact (guards_perform (.toUser _ _) rfl trivial s₂).bind fun _ s₃ _ => Prog.accepts_ret _ s₃ _

theorem watch_getRoot (found : host.getMm (requestedPid copy s .getRoot) = some target) :
    (Prog.watch (kernelHandler host copy) (discipline target) (DeviceIoctl.getRoot host) s
      (holding s.kernel.mmIsLocked .write owner)).isSome ↔
        LockCovers host copy .getRoot owner target s := by
  unfold DeviceIoctl.getRoot LockCovers
  rw [watch_uninitialised, watch_copied]
  change host.getMm (PteditPaging.ofBlock (received copy s copy.locals PteditPaging.size)).pid = _
    at found
  generalize PteditPaging.ofBlock (received copy s copy.locals PteditPaging.size) = paging at *
  have covered : (s.kernel.mmIsLocked = true → target = owner) →
      Guards host copy target (DeviceIoctl.getRootOf host paging target) s _ _ :=
    fun own => guards_getRootOf own paging
  dsimp only
  rw [found]
  cases arch : host.arch with
  | x86_64 =>
      cases flag : s.kernel.mmIsLocked with
      | true =>
          rw [flag] at covered
          rw [if_pos rfl]
          exact isSome_iff_own (fun own => covered fun _ => own)
            fun ne => objects_getRootOf flag ne paging
      | false =>
          rw [flag] at covered
          exact iff_of_true (covered (by simp)).isSome rfl
  | aarch64 =>
      -- `mm->pgd` is tested before any lock is taken
      cases flag : s.kernel.mmIsLocked with
      | true =>
          rw [flag] at covered
          rw [if_pos rfl]
          refine isSome_iff_own (fun own => ?_) fun ne => Prog.watch_bind_eq_none
            (objects_perform (.mmPgd target) (fun p => p (holding_of_ne ne)) s)
          have reading : Permits (holding true .write owner target) (some .read) := by
            rw [own, holding_self]
            exact Option.some_ne_none _
          refine (guards_perform (.mmPgd target) rfl reading s).bind fun pgd s₁ ran => ?_
          cases ran
          split
          · exact guards_getRootFromTtbr0 paging _
          · exact covered fun _ => own
      | false =>
          have objects : Objects host copy target (mmPgd target) s holdsNone :=
            objects_perform (.mmPgd target) (fun p => p rfl) s
          refine iff_of_false ?_ (by simp)
          simp only [holding, Bool.false_eq_true, if_false]
          rw [Prog.watch_bind_eq_none objects]
          exact Bool.false_ne_true

end Requests

/-- **Which requests keep the lock discipline.** -/
theorem keepsDiscipline_iff {host : Host} {copy : UserCopy} {cmd : Cmd} (param : Word)
    {owner : Mm} {s : CallState} (table : cmd ∈ [Cmd.vmResolve, .vmUpdate, .getRoot, .setRoot]) :
    KeepsDiscipline host copy cmd param owner s ↔
      ∀ target, host.getMm (requestedPid copy s cmd) = some target →
        LockCovers host copy cmd owner target s := by
  refine forall_congr' fun target => forall_congr' fun found => ?_
  simp only [List.mem_cons, List.not_mem_nil, or_false] at table
  obtain rfl | rfl | rfl | rfl := table
  · exact watch_vmResolve found
  · exact watch_vmUpdate found
  · exact watch_getRoot found
  · exact watch_setRoot found

/-- A VM_RESOLVE while the VM is not locked reads the entries after it dropped the lock. -/
theorem vmResolve_reads_unlocked :
    sampleUpdateCall.kernel.mmIsLocked = false ∧
    ¬ KeepsDiscipline sampleHost wholeCopy .vmResolve 0 0 sampleUpdateCall := by
  refine ⟨rfl, fun keeps => ?_⟩
  have found : sampleHost.getMm (requestedPid wholeCopy sampleUpdateCall .vmResolve) = some 0 := by
    decide +kernel
  have covers := (watch_vmResolve found).mp (keeps 0 found)
  have valid : (sampleUpdateCall.kernel.walk sampleHost
      (requestedAddress wholeCopy sampleUpdateCall) 0).Valid .pgd := by
    decide +kernel
  exact covers valid

/-- A VM_UPDATE while the VM is not locked takes the write lock itself. -/
theorem keepsDiscipline_iff_sample :
    KeepsDiscipline sampleHost wholeCopy .vmUpdate 0 0 sampleUpdateCall := by
  have unlocked : ¬ sampleUpdateCall.kernel.mmIsLocked = true := by decide
  refine (keepsDiscipline_iff 0 (by decide)).mpr fun target _ => ?_
  unfold LockCovers
  rw [if_neg unlocked]
  trivial

end PTEditor
