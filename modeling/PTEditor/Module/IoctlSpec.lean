import PTEditor.Module.Ioctl
import PTEditor.Module.ResolveSpec

/-!
# What each command does

The run of every command that reads or writes page tables or roots, from any call
state and for any outcome of the copies from and to user space.
-/

namespace PTEditor

open KernelProg

/-- What a handler works on after it copied `size` bytes of its argument over
`dst`. -/
def received (copy : UserCopy) (s : CallState) (dst : Block) (size : Nat) : Block :=
  copyBlock (min copy.copied size) s.arg dst

/-- The state after `size` bytes were copied back to the caller. -/
def CallState.reply (s : CallState) (copy : UserCopy) (src : Block) (size : Nat) : CallState :=
  { s with arg := copyBlock (min copy.stored size) src s.arg }

/-- The entry structure that `VM_RESOLVE` makes of the one it gets. -/
def kernelEntry (host : Host) (k : Kernel) (user : PteditEntry) : PteditEntry :=
  (vmToUser user (kernelResolve host k user.vaddr user.pid).2).eval (k.entryAt host)

/-- `vm_to_user` fills a field through the pointer of its level, if there is one. -/
theorem field_eval_vmToUser (user : PteditEntry) (vm : Vm) (read : Word → Word) (level : Level) :
    ((vmToUser user vm).eval read).field level =
      (vm.pointer level).elim (user.field level) read := by
  have load : ∀ pointer kept, (loadField pointer kept).eval read = pointer.elim kept read := by
    intro pointer kept
    cases pointer <;> rfl
  simp only [vmToUser, Prog.eval_bind, load]
  cases level <;> rfl

/-- A field of the reply holds the entry of a valid level, and what the caller sent
otherwise. -/
theorem field_kernelEntry {host : Host} {k : Kernel} {user : PteditEntry} {mm : Mm}
    (found : host.getMm user.pid = some mm) (level : Level) :
    (kernelEntry host k user).field level =
      if (k.walk host user.vaddr mm).Valid level then (k.walk host user.vaddr mm).entry level
      else user.field level := by
  unfold kernelEntry kernelResolve
  rw [found, field_eval_vmToUser, KernelWalk.pointer_vm]
  split
  next valid =>
    obtain ⟨pointer, here⟩ := Option.isSome_iff_exists.mp valid.isSome
    unfold KernelWalk.entry
    rw [here]
    rfl
  next => rfl

theorem valid_eval_vmToUser (user : PteditEntry) (vm : Vm) (read : Word → Word) :
    ((vmToUser user vm).eval read).valid = vm.valid := by
  simp only [vmToUser, Prog.eval_bind]
  rfl

theorem valid_kernelEntry {host : Host} {k : Kernel} {user : PteditEntry} {mm : Mm}
    (found : host.getMm user.pid = some mm) (level : Level) :
    (kernelEntry host k user).Valid level ↔ (k.walk host user.vaddr mm).Valid level := by
  have resolved : (kernelEntry host k user).valid =
      ((k.walk host user.vaddr mm).vm user.pid).valid := by
    unfold kernelEntry kernelResolve
    rw [found, valid_eval_vmToUser]
  unfold PteditEntry.Valid
  rw [resolved]
  exact KernelWalk.valid_vm _ _ level

/-- The root that `GET_ROOT` reports for a pid, if it reports one. -/
def reportedRoot (host : Host) (k : Kernel) (pid : Word) : Option Word :=
  match host.arch, host.getMm pid with
  | .x86_64, none => none
  | .x86_64, some mm => some (host.virtToPhys (k.pgd mm))
  | .aarch64, none => some (k.ttbr0 &&& ~~~1#64)
  | .aarch64, some mm =>
      some (if k.pgd mm = 0 then k.ttbr0 &&& ~~~1#64 else host.virtToPhys (k.pgd mm))

/-- A kernel state in which the root pointer of the mm of a pid, if there is one,
points to the table at `root`. -/
def Kernel.withRoot (host : Host) (k : Kernel) (pid root : Word) : Kernel :=
  match host.getMm pid with
  | none => k
  | some mm =>
      { k with pgd := fun other => if other = mm then host.physToVirt root else k.pgd other }

namespace Kernel

variable {host : Host} {k : Kernel} {pid root : Word}

@[simp] theorem ttbr0_withRoot : (k.withRoot host pid root).ttbr0 = k.ttbr0 := by
  unfold withRoot
  cases host.getMm pid <;> rfl

theorem pgd_withRoot {mm : Mm} : (k.withRoot host pid root).pgd mm =
    if host.getMm pid = some mm then host.physToVirt root else k.pgd mm := by
  unfold withRoot
  cases host.getMm pid with
  | none => rfl
  | some target => simp only [Option.some.injEq, eq_comm]

theorem Loaded.withRoot (loaded : k.Loaded host) : (k.withRoot host pid root).Loaded host := by
  unfold Kernel.withRoot
  cases host.getMm pid with
  | none => exact loaded
  | some mm => exact ⟨loaded.invalidateTlb, loaded.flushTlbMmRangeFunc⟩

end Kernel

section Runs

variable {host : Host} {copy : UserCopy} (s : CallState)

theorem run_vmResolve :
    Prog.run (kernelHandler host copy) (DeviceIoctl.vmResolve host) s =
      some (0, s.reply copy (kernelEntry host s.kernel (PteditEntry.ofBlock
        (received copy s copy.locals PteditEntry.size))).block PteditEntry.size) := by
  simp only [DeviceIoctl.vmResolve, Prog.run_bind, run_uninitialised, run_fromUser,
    run_mmIsLocked, run_resolveVm, run_translate_readEntry, run_toUser, Option.bind_some]
  rfl

theorem run_vmUpdate (loaded : s.kernel.Loaded host) :
    Prog.run (kernelHandler host copy) (DeviceIoctl.vmUpdate host) s =
      some (0, s.withMem (s.kernel.mem.writeAll (kernelStores host s.kernel
        (PteditEntry.ofBlock (received copy s copy.locals PteditEntry.size))))) := by
  simp only [DeviceIoctl.vmUpdate, Prog.run_bind, run_uninitialised, run_fromUser,
    run_mmIsLocked, run_updateVm loaded, Option.bind_some]
  rfl

/-- The physical page that READ_PAGE and WRITE_PAGE work on. -/
def pagePhysical (host : Host) (k : Kernel) (page : PteditPage) : Word :=
  host.virtToPhys (host.physToVirt (page.pfn * sizeOfInt k.realPageSize))

/-- What READ_PAGE copies out of the page. -/
def readPageBytes (host : Host) (copy : UserCopy) (k : Kernel) (page : PteditPage) :
    List (BitVec 8) :=
  k.mem.readBytes (pagePhysical host k page)
    (min copy.pageStored (sizeOfInt k.realPageSize).toNat)

theorem run_readPage :
    Prog.run (kernelHandler host copy) (DeviceIoctl.readPage host) s =
      let page := PteditPage.ofBlock (received copy s copy.locals PteditPage.sizeOf)
      let user := s.user.writeBytes page.buffer (readPageBytes host copy s.kernel page)
      some (0, { s with user }) := by
  simp only [DeviceIoctl.readPage, Prog.run_bind, run_uninitialised, run_fromUser, run_pageSize,
    Option.bind_some]
  rfl

/-- What WRITE_PAGE copies into the page. -/
def writtenBytes (copy : UserCopy) (s : CallState) (page : PteditPage) : List (BitVec 8) :=
  s.user.readBytes page.buffer (min copy.pageCopied (sizeOfInt s.kernel.realPageSize).toNat)

theorem run_getRootOf (paging : PteditPaging) (mm : Mm) :
    Prog.run (kernelHandler host copy) (DeviceIoctl.getRootOf host paging mm) s =
      some (0, s.reply copy
        (PteditPaging.block { paging with root := host.virtToPhys (s.kernel.pgd mm) })
        PteditPaging.size) := by
  simp only [DeviceIoctl.getRootOf, Prog.run_bind, run_when, run_mmIsLocked, run_mmapReadLock,
    run_mmapReadUnlock, ite_self, run_mmPgd, run_toUser, Option.bind_some]
  rfl

theorem run_getRootFromTtbr0 (paging : PteditPaging) :
    Prog.run (kernelHandler host copy) (DeviceIoctl.getRootFromTtbr0 paging) s =
      some (0, s.reply copy
        (PteditPaging.block { paging with root := s.kernel.ttbr0 &&& ~~~1#64 })
        PteditPaging.size) := by
  simp only [DeviceIoctl.getRootFromTtbr0, DeviceIoctl.currentTtbr0, Prog.run_bind, run_mrsTtbr0,
    run_toUser, Option.bind_some]
  rfl

theorem run_getRoot :
    Prog.run (kernelHandler host copy) (DeviceIoctl.getRoot host) s =
      let paging := PteditPaging.ofBlock (received copy s copy.locals PteditPaging.size)
      match reportedRoot host s.kernel paging.pid with
      | none => some (1, s)
      | some root =>
          some (0, s.reply copy (PteditPaging.block { paging with root }) PteditPaging.size) := by
  simp only [DeviceIoctl.getRoot, Prog.run_bind, run_uninitialised, run_fromUser,
    Option.bind_some, received]
  generalize PteditPaging.ofBlock _ = paging
  unfold reportedRoot
  cases host.arch with
  | x86_64 =>
      cases host.getMm paging.pid with
      | none => rfl
      | some mm => exact run_getRootOf s paging mm
  | aarch64 =>
      cases host.getMm paging.pid with
      | none => exact run_getRootFromTtbr0 s paging
      | some mm =>
          dsimp only
          rw [Prog.run_bind_of_some (run_mmPgd s mm)]
          by_cases absent : s.kernel.pgd mm = 0
          · rw [if_pos absent, if_pos absent]
            exact run_getRootFromTtbr0 s paging
          · rw [if_neg absent, if_neg absent]
            exact run_getRootOf s paging mm

theorem run_setRootOf (paging : PteditPaging) :
    Prog.run (kernelHandler host copy) (DeviceIoctl.setRootOf host paging) s =
      some (if (host.getMm paging.pid).isSome then 0 else 1,
        { s with kernel := s.kernel.withRoot host paging.pid paging.root }) := by
  unfold DeviceIoctl.setRootOf Kernel.withRoot
  cases host.getMm paging.pid with
  | none => rfl
  | some mm =>
      simp only [Prog.run_bind, run_mmIsLocked, run_when, run_mmapWriteLock,
        run_mmapWriteUnlock, ite_self, Option.bind_some]
      rfl

theorem run_setRoot :
    Prog.run (kernelHandler host copy) (DeviceIoctl.setRoot host) s =
      let paging := PteditPaging.ofBlock
        (received copy s (PteditPaging.block { pid := 0, root := 0 }) PteditPaging.size)
      some (if (host.getMm paging.pid).isSome then 0 else 1,
        { s with kernel := s.kernel.withRoot host paging.pid paging.root }) := by
  rw [DeviceIoctl.setRoot, Prog.run_bind_of_some (run_fromUser s _ _)]
  exact run_setRootOf s _

theorem run_ioctlInvalidateTlb (loaded : s.kernel.Loaded host) (param : Word) :
    Prog.run (kernelHandler host copy) (DeviceIoctl.invalidateTlb host param) s = some (0, s) := by
  rw [DeviceIoctl.invalidateTlb, Prog.run_bind_of_some (run_callInvalidateTlb loaded _ _)]
  rfl

theorem run_invalidateTlbPid (loaded : s.kernel.Loaded host) :
    Prog.run (kernelHandler host copy) (DeviceIoctl.invalidateTlbPid host) s = some (0, s) := by
  simp only [DeviceIoctl.invalidateTlbPid, Prog.run_bind, run_uninitialised, run_fromUser,
    run_callInvalidateTlb loaded, Option.bind_some]
  rfl

end Runs

end PTEditor
