import PTEditor.Library.Ptedit

/-!
# What the library's functions do

Specifications of the library on a system whose device is open (`Attached`): what
the calls that go through the device return and change, and how the user-space
walker and updater run when every access they make to physical memory succeeds.
-/

namespace PTEditor

open Sys

/-- The library's device descriptor is open on a loaded module of the same
architecture. -/
structure Attached (sys : System) (lib : Lib) (w : World) : Prop where
  device : sys.file lib.fd = .device
  arch : lib.arch = sys.host.arch
  loaded : w.kernel.Loaded sys.host

theorem Attached.withMem {sys : System} {lib : Lib} {w : World} (attached : Attached sys lib w)
    (mem : ByteMem) : Attached sys lib (w.withMem mem) :=
  ⟨attached.device, attached.arch, attached.loaded.withMem mem⟩

@[simp] theorem World.withMem_withMem (w : World) (first second : ByteMem) :
    (w.withMem first).withMem second = w.withMem second := rfl

@[simp] theorem World.mem_withMem (w : World) (mem : ByteMem) :
    (w.withMem mem).kernel.mem = mem := rfl

theorem World.withMem_self (w : World) : w.withMem w.kernel.mem = w := rfl

/-- The root that `ptedit_get_paging_root` returns. -/
def System.pagingRoot (sys : System) (k : Kernel) (pid : Pid) : Word :=
  (reportedRoot sys.host k (sizeOfInt pid)).getD 0

/-- What `GET_ROOT` reports for a pid without an mm. -/
theorem pagingRoot_of_unknown {sys : System} {k : Kernel} {pid : Pid}
    (unknown : sys.host.getMm (sizeOfInt pid) = none) :
    sys.pagingRoot k pid = if sys.host.arch = .x86_64 then 0 else k.ttbr0 &&& ~~~1#64 := by
  unfold System.pagingRoot reportedRoot
  rw [unknown]
  cases sys.host.arch <;> rfl

/-- What `GET_ROOT` reports for a process, given its `mm->pgd`. -/
def System.rootOf (sys : System) (ttbr0 pgd : Word) : Word :=
  if sys.host.arch = .aarch64 ∧ pgd = 0 then ttbr0 &&& ~~~1#64 else sys.host.virtToPhys pgd

theorem pagingRoot_of_mm {sys : System} {k : Kernel} {pid : Pid} {mm : Mm}
    (found : sys.host.getMm (sizeOfInt pid) = some mm) :
    sys.pagingRoot k pid = sys.rootOf k.ttbr0 (k.pgd mm) := by
  unfold System.pagingRoot reportedRoot System.rootOf
  rw [found]
  cases sys.host.arch <;> simp

/-- The masked root that the user-space walker starts from. -/
def System.userRoot (sys : System) (lib : Lib) (k : Kernel) (pid : Pid) : Word :=
  (if pid = 0 then lib.pagingRoot else sys.pagingRoot k pid) &&& ~~~1#64

/-- The entry that `ptedit_resolve_kernel` returns. -/
def System.kernelEntry (sys : System) (k : Kernel) (address : Word) (pid : Pid) : PteditEntry :=
  PTEditor.kernelEntry sys.host k (PteditEntry.cleared address (sizeOfInt pid))

/-- What `mmap` of the library's `/proc/umem` descriptor returns. -/
def System.umemWindow (sys : System) (lib : Lib) : Mapping :=
  match sys.file lib.umem with
  | .umem => .umem 0 vmemLength
  | _ => .failed

/-- The library's variables after `ptedit_use_implementation`. -/
def System.useImplementation (sys : System) (lib : Lib) (k : Kernel) (implementation : Int) : Lib :=
  if implementation = pteditImplKernel then
    { lib with implementation := .kernel }
  else if implementation = pteditImplUserPread then
    { lib with implementation := .userPread, pagingRoot := sys.pagingRoot k 0 }
  else if implementation = pteditImplUser then
    { lib with
      implementation := .user, pagingRoot := sys.pagingRoot k 0,
      vmem := if lib.vmem = .null then sys.umemWindow lib else lib.vmem }
  else
    lib

/-- A copy of a library variable brings over the whole structure. -/
theorem System.copyBlock_whole (sys : System) {size i : Nat} (small : size ≤ 64)
    (inside : 8 * i + 8 ≤ size) (src dst : Block) :
    copyBlock (min sys.copy.copied size) src dst i = src i :=
  copyBlock_of_le (by simp only [copy]; omega) src dst

/-- A reply to a library variable reaches it whole. -/
theorem System.reply_whole (sys : System) (s : CallState) {size i : Nat} (small : size ≤ 64)
    (inside : 8 * i + 8 ≤ size) (src : Block) : (s.reply sys.copy src size).arg i = src i :=
  copyBlock_of_le (by simp only [copy]; omega) src s.arg

section Runs

variable {sys : System} {lib : Lib} {w : World}

theorem run_ioctl_of_device (device : sys.file lib.fd = .device) (cmd : Cmd) (param : Word)
    (arg : Block) :
    Prog.run (sysHandler sys) (ioctl lib.fd cmd param arg) w =
      sys.deviceIoctl cmd param arg w := by
  change Prog.run _ (Prog.perform (SysOp.ioctl _ _ _ _)) w = _
  rw [Prog.run_perform, sysHandler, device]

theorem answer_ioctl (attached : Attached sys lib w) (cmd : Cmd) (param : Word) (arg : Block) :
    sysHandler sys (SysOp.ioctl lib.fd cmd param arg) w = sys.deviceIoctl cmd param arg w := by
  rw [sysHandler, attached.device]

theorem run_ioctl (attached : Attached sys lib w) (cmd : Cmd) (param : Word) (arg : Block) :
    Prog.run (sysHandler sys) (ioctl lib.fd cmd param arg) w =
      sys.deviceIoctl cmd param arg w :=
  run_ioctl_of_device attached.device cmd param arg

theorem ofBlock_received_paging (sys : System) (k : Kernel) (user : ByteMem) (dst : Block)
    (paging : PteditPaging) :
    PteditPaging.ofBlock (received sys.copy ⟨k, paging.block, user⟩ dst PteditPaging.size) =
      paging := by
  have small : PteditPaging.size ≤ 64 := by decide
  unfold received PteditPaging.ofBlock
  rw [sys.copyBlock_whole small (by decide), sys.copyBlock_whole small (by decide)]
  rfl

theorem PteditEntry.ofBlock_eq {b : Block} {entry : PteditEntry}
    (same : ∀ i < 8, b i = entry.block i) : ofBlock b = entry := by
  unfold ofBlock
  rw [same 0 (by decide), same 1 (by decide), same 2 (by decide), same 3 (by decide),
    same 4 (by decide), same 5 (by decide), same 6 (by decide), same 7 (by decide)]
  rfl

theorem ofBlock_received_entry (sys : System) (k : Kernel) (user : ByteMem) (dst : Block)
    (entry : PteditEntry) :
    PteditEntry.ofBlock (received sys.copy ⟨k, entry.block, user⟩ dst PteditEntry.size) =
      entry := by
  refine PteditEntry.ofBlock_eq fun i bound => ?_
  exact sys.copyBlock_whole (by decide) (by unfold PteditEntry.size; omega) _ _

theorem ofBlock_reply_entry (sys : System) (s : CallState) (entry : PteditEntry) :
    PteditEntry.ofBlock (s.reply sys.copy entry.block PteditEntry.size).arg = entry := by
  refine PteditEntry.ofBlock_eq fun i bound => ?_
  exact sys.reply_whole s (by decide) (by unfold PteditEntry.size; omega) _

theorem run_pteditGetPagingRoot_of_device (device : sys.file lib.fd = .device) (pid : Pid) :
    Prog.run (sysHandler sys) (pteditGetPagingRoot lib pid) w =
      some (sys.pagingRoot w.kernel pid, w) := by
  rw [pteditGetPagingRoot, Prog.run_bind, run_ioctl_of_device device, System.deviceIoctl,
    deviceIoctl, run_getRoot, System.pagingRoot]
  dsimp only
  rw [ofBlock_received_paging]
  cases reportedRoot sys.host w.kernel (sizeOfInt pid) with
  | none => rfl
  | some root =>
      have small : PteditPaging.size ≤ 64 := by decide
      refine congrArg (fun root => some (root, w)) ?_
      exact sys.reply_whole _ small (by decide) _

theorem run_pteditGetPagingRoot (attached : Attached sys lib w) (pid : Pid) :
    Prog.run (sysHandler sys) (pteditGetPagingRoot lib pid) w =
      some (sys.pagingRoot w.kernel pid, w) :=
  run_pteditGetPagingRoot_of_device attached.device pid

/-- The world after `SET_ROOT`. -/
def World.withRoot (sys : System) (w : World) (pid : Pid) (root : Word) : World :=
  { w with kernel := w.kernel.withRoot sys.host (sizeOfInt pid) root }

theorem run_pteditSetPagingRoot (attached : Attached sys lib w) (pid : Pid) (root : Word) :
    Prog.run (sysHandler sys) (pteditSetPagingRoot lib pid root) w =
      some ((), w.withRoot sys pid root) := by
  rw [pteditSetPagingRoot, Prog.run_bind, run_ioctl attached, System.deviceIoctl, deviceIoctl,
    run_setRoot]
  dsimp only
  rw [ofBlock_received_paging]
  rfl

theorem run_pteditFullSerializingBarrier (attached : Attached sys lib w) :
    Prog.run (sysHandler sys) (pteditFullSerializingBarrier lib) w =
      some ((), w.withRoot sys 0 (sys.pagingRoot w.kernel 0)) := by
  rw [pteditFullSerializingBarrier, Prog.run_bind_of_some (run_pteditGetPagingRoot attached 0)]
  exact run_pteditSetPagingRoot attached 0 _

theorem run_mmapUmem (w : World) :
    Prog.run (sysHandler sys) (mmap lib.umem vmemLength 0) w = some (sys.umemWindow lib, w) := by
  change Prog.run _ (Prog.perform (SysOp.mmap _ _ _)) w = _
  rw [Prog.run_perform, sysHandler, System.umemWindow]
  cases sys.file lib.umem <;> rfl

theorem run_pteditUseImplementation_of_device (device : sys.file lib.fd = .device)
    (implementation : Int) :
    Prog.run (sysHandler sys) (pteditUseImplementation lib implementation) w =
      some (sys.useImplementation lib w.kernel implementation, w) := by
  have root := @run_pteditGetPagingRoot_of_device sys lib w device 0
  unfold pteditUseImplementation System.useImplementation
  split
  next => rfl
  next =>
  split
  next =>
    rw [Prog.run_bind_of_some root]
    rfl
  next =>
  split
  next =>
    rw [Prog.run_bind_of_some root]
    by_cases unmapped : lib.vmem = .null
    · rw [if_pos unmapped, if_pos unmapped, Prog.run_bind_of_some (run_mmapUmem w)]
      rfl
    · rw [if_neg unmapped, if_neg unmapped]
      rfl
  next => rfl

theorem run_pteditUseImplementation (attached : Attached sys lib w) (implementation : Int) :
    Prog.run (sysHandler sys) (pteditUseImplementation lib implementation) w =
      some (sys.useImplementation lib w.kernel implementation, w) :=
  run_pteditUseImplementation_of_device attached.device implementation

theorem run_pteditGetPagesize (device : sys.file lib.fd = .device) :
    Prog.run (sysHandler sys) (pteditGetPagesize lib) w =
      some (w.kernel.realPageSize.toInt, w) := by
  rw [pteditGetPagesize, Prog.run_bind, run_ioctl_of_device device]
  rfl

theorem run_pteditInvalidateTlbPid (attached : Attached sys lib w) (pid : Pid) (address : Word) :
    Prog.run (sysHandler sys) (pteditInvalidateTlbPid lib pid address) w = some ((), w) := by
  rw [pteditInvalidateTlbPid, Prog.run_bind, run_ioctl attached, System.deviceIoctl, deviceIoctl,
    run_invalidateTlbPid _ attached.loaded]
  rfl

theorem run_pteditInvalidateTlb (attached : Attached sys lib w) (address : Word) :
    Prog.run (sysHandler sys) (pteditInvalidateTlb lib address) w = some ((), w) := by
  rw [pteditInvalidateTlb, Prog.run_bind, run_ioctl attached, System.deviceIoctl, deviceIoctl,
    run_ioctlInvalidateTlb _ attached.loaded]
  rfl

theorem run_pteditResolveKernel_of_device (device : sys.file lib.fd = .device) (address : Word)
    (pid : Pid) :
    Prog.run (sysHandler sys) (pteditResolveKernel lib address pid) w =
      some (sys.kernelEntry w.kernel address pid, w) := by
  rw [pteditResolveKernel, Prog.run_bind, run_ioctl_of_device device, System.deviceIoctl,
    deviceIoctl, run_vmResolve, ofBlock_received_entry]
  exact congrArg (fun entry => some (entry, w)) (ofBlock_reply_entry sys _ _)

theorem run_pteditResolveKernel (attached : Attached sys lib w) (address : Word) (pid : Pid) :
    Prog.run (sysHandler sys) (pteditResolveKernel lib address pid) w =
      some (sys.kernelEntry w.kernel address pid, w) :=
  run_pteditResolveKernel_of_device attached.device address pid

theorem run_pteditUpdateKernel (attached : Attached sys lib w) (address : Word) (pid : Pid)
    (vm : PteditEntry) :
    Prog.run (sysHandler sys) (pteditUpdateKernel lib address pid vm) w =
      some ((), w.withMem (w.kernel.mem.writeAll (kernelStores sys.host w.kernel
        { vm with vaddr := address, pid := sizeOfInt pid }))) := by
  dsimp only [pteditUpdateKernel]
  rw [Prog.run_bind, run_ioctl attached, System.deviceIoctl, deviceIoctl,
    run_vmUpdate _ attached.loaded, ofBlock_received_entry]
  rfl

end Runs

end PTEditor
