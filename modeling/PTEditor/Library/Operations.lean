import PTEditor.Library.UserSpec

/-!
# What the library's functions perform

Resolving and updating perform only the calls that `AllowsReads` and `AllowsUpdates`
list, whatever they are answered.  None of these changes anything but physical memory
(`withMem_of_memOps`).
-/

namespace PTEditor

open Sys

/-- `P` allows everything that `ptedit_resolve` does. -/
structure AllowsReads (lib : Lib) (P : SysOp → Prop) : Prop where
  resolve : ∀ param arg, P (.ioctl lib.fd .vmResolve param arg)
  root : ∀ param arg, P (.ioctl lib.fd .getRoot param arg)
  pread : ∀ count offset, P (.pread lib.umem count offset)
  load : ∀ address, P (.load lib.vmem address)
  crash : P .crash

/-- `P` allows everything that `ptedit_update` does. -/
structure AllowsUpdates (lib : Lib) (P : SysOp → Prop) : Prop extends AllowsReads lib P where
  update : ∀ param arg, P (.ioctl lib.fd .vmUpdate param arg)
  invalidate : ∀ param arg, P (.ioctl lib.fd .invalidateTlbPid param arg)
  pwrite : ∀ bytes offset, P (.pwrite lib.umem bytes offset)
  store : ∀ address value, P (.store lib.vmem address value)

section Operations

variable {lib : Lib} {P : SysOp → Prop}

theorem performs_pure {α : Type} (value : α) : (pure value : Sys α).Performs P := trivial

theorem performs_pteditUserRoot (allows : AllowsReads lib P) (pid : Pid) :
    (pteditUserRoot lib pid).Performs P := by
  unfold pteditUserRoot
  by_cases own : pid = 0
  · rw [if_pos own]
    exact performs_pure _
  · have asks : (pteditGetPagingRoot lib pid).Performs P :=
      (Prog.Performs.perform (allows.root _ _)).bind fun _ => performs_pure _
    rw [if_neg own]
    exact asks.bind fun _ => performs_pure _

theorem performs_pteditInvalidateTlbPid
    (invalidate : ∀ param arg, P (.ioctl lib.fd .invalidateTlbPid param arg)) (pid : Pid)
    (address : Word) : (pteditInvalidateTlbPid lib pid address).Performs P :=
  (Prog.Performs.perform (invalidate _ _)).bind fun _ => performs_pure _

theorem performs_pteditPhysReadPread (pread : ∀ count offset, P (.pread lib.umem count offset))
    (address : Word) : (pteditPhysReadPread lib address).Performs P :=
  (Prog.Performs.perform (pread _ _)).bind fun _ => performs_pure _

theorem performs_pteditPhysWritePwrite
    (pwrite : ∀ bytes offset, P (.pwrite lib.umem bytes offset)) (address value : Word) :
    (pteditPhysWritePwrite lib address value).Performs P :=
  (Prog.Performs.perform (pwrite _ _)).bind fun _ => performs_pure _

theorem performs_pteditResolve (allows : AllowsReads lib P) (address : Word) (pid : Pid) :
    (pteditResolve lib address pid).Performs P := by
  have walk : ∀ deref : Word → Sys Word, (∀ a, (deref a).Performs P) →
      (pteditResolveUserExt lib address pid deref).Performs P :=
    fun deref each => (performs_pteditUserRoot allows pid).bind fun _ =>
      Prog.Performs.translate each _
  unfold pteditResolve
  cases lib.implementation with
  | unset => exact (Prog.Performs.perform allows.crash).bind fun _ => performs_pure _
  | kernel =>
      exact (Prog.Performs.perform (allows.resolve _ _)).bind fun _ => performs_pure _
  | userPread => exact walk _ (performs_pteditPhysReadPread allows.pread)
  | user => exact walk _ fun a => Prog.Performs.perform (allows.load _)

theorem performs_pteditUpdateLevel {pset : Word → Word → Sys Unit}
    (each : ∀ a v, (pset a v).Performs P) (root addr : Word) (vm current : PteditEntry)
    (level : Level) : (pteditUpdateLevel lib pset root addr vm current level).Performs P := by
  unfold pteditUpdateLevel
  split
  next => exact each _ _
  next => exact performs_pure _

theorem performs_pteditUpdateUserExt (allows : AllowsUpdates lib P) (address : Word) (pid : Pid)
    (vm : PteditEntry) {pset : Word → Word → Sys Unit} (each : ∀ a v, (pset a v).Performs P) :
    (pteditUpdateUserExt lib address pid vm pset).Performs P := by
  refine (performs_pteditResolve allows.toAllowsReads address pid).bind fun current => ?_
  refine (performs_pteditUserRoot allows.toAllowsReads pid).bind fun root => ?_
  split
  next => exact performs_pure _
  next =>
    have level : ∀ level, (pteditUpdateLevel lib pset root address vm current level).Performs P :=
      performs_pteditUpdateLevel each root address vm current
    refine (level .pte).bind fun _ => (level .pmd).bind fun _ => (level .pud).bind fun _ => ?_
    refine (level .p4d).bind fun _ => (level .pgd).bind fun _ => ?_
    exact performs_pteditInvalidateTlbPid allows.invalidate pid address

theorem performs_pteditUpdate (allows : AllowsUpdates lib P) (address : Word) (pid : Pid)
    (vm : PteditEntry) : (pteditUpdate lib address pid vm).Performs P := by
  have done := performs_pteditInvalidateTlbPid allows.invalidate pid address
  unfold pteditUpdate
  cases lib.implementation with
  | unset => exact Prog.Performs.perform allows.crash
  | kernel => exact (Prog.Performs.perform (allows.update _ _)).bind fun _ => performs_pure _
  | userPread =>
      have each := performs_pteditPhysWritePwrite allows.pwrite
      exact (performs_pteditUpdateUserExt allows address pid vm each).bind fun _ => done
  | user =>
      have each : ∀ a v, (pteditPhysWriteMap lib a v).Performs P :=
        fun a v => Prog.Performs.perform (allows.store a v)
      exact (performs_pteditUpdateUserExt allows address pid vm each).bind fun _ => done

end Operations

/-! ## Calls that change only physical memory -/

/-- The commands that `ptedit_resolve` and `ptedit_update` send. -/
def TableCmd (cmd : Cmd) : Prop :=
  cmd = .vmResolve ∨ cmd = .vmUpdate ∨ cmd = .getRoot ∨ cmd = .invalidateTlbPid

/-- An operation that changes nothing but physical memory. -/
def MemOp (lib : Lib) : SysOp → Prop
  | .ioctl fd cmd _ _ => fd = lib.fd ∧ TableCmd cmd
  | .mmap _ _ _ | .writeUser _ _ => False
  | _ => True

theorem memOp_allowsUpdates (lib : Lib) : AllowsUpdates lib (MemOp lib) where
  resolve := fun _ _ => ⟨rfl, .inl rfl⟩
  root := fun _ _ => ⟨rfl, .inr (.inr (.inl rfl))⟩
  pread := fun _ _ => trivial
  load := fun _ => trivial
  crash := trivial
  update := fun _ _ => ⟨rfl, .inr (.inl rfl)⟩
  invalidate := fun _ _ => ⟨rfl, .inr (.inr (.inr rfl))⟩
  pwrite := fun _ _ => trivial
  store := fun _ _ => trivial

theorem withMem_of_memOp {sys : System} {lib : Lib} {w w' : World} (attached : Attached sys lib w)
    {op : SysOp} (only : MemOp lib op) {r : op.Res}
    (answer : sysHandler sys op w = some (r, w')) : ∃ mem, w' = w.withMem mem := by
  cases op with
  | ioctl fd cmd param arg =>
      obtain ⟨rfl, resolve | update | root | invalidate⟩ := only
      all_goals
        subst cmd
        rw [answer_ioctl attached, System.deviceIoctl, deviceIoctl] at answer
      · rw [run_vmResolve] at answer
        cases answer
        exact ⟨_, rfl⟩
      · rw [run_vmUpdate _ attached.loaded] at answer
        cases answer
        exact ⟨_, rfl⟩
      · rw [run_getRoot] at answer
        dsimp only at answer
        split at answer <;> cases answer <;> exact ⟨_, rfl⟩
      · rw [run_invalidateTlbPid _ attached.loaded] at answer
        cases answer
        exact ⟨_, rfl⟩
  | pread fd count offset =>
      rw [sysHandler] at answer
      cases file : sys.file fd <;> rw [file] at answer <;>
        obtain rfl := (Prod.mk.inj (Option.some.inj answer)).2 <;> exact ⟨_, rfl⟩
  | pwrite fd bytes offset =>
      rw [sysHandler] at answer
      cases file : sys.file fd <;> rw [file] at answer <;>
        obtain rfl := (Prod.mk.inj (Option.some.inj answer)).2 <;> exact ⟨_, rfl⟩
  | load mapping address =>
      rw [sysHandler] at answer
      obtain ⟨-, done⟩ := Option.ite_none_right_eq_some.mp answer
      obtain rfl := (Prod.mk.inj (Option.some.inj done)).2
      exact ⟨_, rfl⟩
  | store mapping address value =>
      rw [sysHandler] at answer
      obtain ⟨-, done⟩ := Option.ite_none_right_eq_some.mp answer
      obtain rfl := (Prod.mk.inj (Option.some.inj done)).2
      exact ⟨_, rfl⟩
  | readUser buffer count =>
      obtain rfl := (Prod.mk.inj (Option.some.inj answer)).2
      exact ⟨_, rfl⟩
  | mmap | writeUser => exact only.elim
  | crash => cases answer

theorem withMem_of_memOps {sys : System} {lib : Lib} {w w' : World} {α : Type} {p : Sys α}
    {value : α} (attached : Attached sys lib w) (only : p.Performs (MemOp lib))
    (done : Prog.run (sysHandler sys) p w = some (value, w')) : ∃ mem, w' = w.withMem mem := by
  have preserved : ∀ op, MemOp lib op → ∀ s r s', (∃ mem, s = w.withMem mem) →
      sysHandler sys op s = some (r, s') → ∃ mem, s' = w.withMem mem := by
    rintro op allowed _ r s' ⟨mem, rfl⟩ answer
    obtain ⟨mem', rfl⟩ := withMem_of_memOp (attached.withMem mem) allowed answer
    exact ⟨mem', rfl⟩
  exact only.run_invariant preserved ⟨w.kernel.mem, rfl⟩ done

end PTEditor
