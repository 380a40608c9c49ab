import PTEditor.Module.Resolve

/-!
# The ioctl handler

`device_ioctl` of `module/pteditor.c`, command by command, and the argument
structures of `module/pteditor.h` as the words of their memory.  A command that
gets a pointer finds the structure behind it in the call's `arg`; for the others
the ioctl parameter is the argument itself.
-/

namespace PTEditor

open KernelProg

/-! ## Argument structures -/

namespace PteditEntry

/-- The memory of a `ptedit_entry_t`. -/
def block (entry : PteditEntry) : Block
  | 0 => entry.pid
  | 1 => entry.vaddr
  | 2 => entry.pgd
  | 3 => entry.p4d
  | 4 => entry.pud
  | 5 => entry.pmd
  | 6 => entry.pte
  | 7 => entry.valid
  | _ => 0

def ofBlock (b : Block) : PteditEntry :=
  { pid := b 0, vaddr := b 1, pgd := b 2, p4d := b 3, pud := b 4, pmd := b 5, pte := b 6,
    valid := b 7 }

@[simp] theorem ofBlock_block (entry : PteditEntry) : ofBlock entry.block = entry := rfl

/-- `sizeof(ptedit_entry_t)`. -/
def size : Nat := 64

end PteditEntry

/-- `ptedit_page_t`. -/
structure PteditPage where
  pfn : Word
  vaddr : Word
  size : Word
  buffer : Word

namespace PteditPage

def block (page : PteditPage) : Block
  | 0 => page.pfn
  | 1 => page.vaddr
  | 2 => page.size
  | 3 => page.buffer
  | _ => 0

def ofBlock (b : Block) : PteditPage :=
  { pfn := b 0, vaddr := b 1, size := b 2, buffer := b 3 }

/-- `sizeof(ptedit_page_t)`. -/
def sizeOf : Nat := 32

end PteditPage

/-- `ptedit_paging_t`. -/
structure PteditPaging where
  pid : Word
  root : Word

namespace PteditPaging

def block (paging : PteditPaging) : Block
  | 0 => paging.pid
  | 1 => paging.root
  | _ => 0

def ofBlock (b : Block) : PteditPaging := { pid := b 0, root := b 1 }

/-- `sizeof(ptedit_paging_t)`. -/
def size : Nat := 16

end PteditPaging

/-- `ptedit_invalidate_tlb_args_t`. -/
structure PteditInvalidateTlbArgs where
  pid : Pid
  address : Word

namespace PteditInvalidateTlbArgs

/-- The `pid_t` fills the lower half of its word; the upper half is padding. -/
def block (args : PteditInvalidateTlbArgs) : Block
  | 0 => args.pid.setWidth 64
  | 1 => args.address
  | _ => 0

def ofBlock (b : Block) : PteditInvalidateTlbArgs := { pid := intOfSize (b 0), address := b 1 }

/-- `sizeof(ptedit_invalidate_tlb_args_t)`. -/
def size : Nat := 16

end PteditInvalidateTlbArgs

/-! ## Commands -/

/-- The ioctl commands, `PTEDITOR_IOCTL_CMD_…`; `other` is any further number. -/
inductive Cmd where
  | vmResolve
  | vmUpdate
  | vmLock
  | vmUnlock
  | readPage
  | writePage
  | getRoot
  | setRoot
  | getPagesize
  | invalidateTlb
  | getPat
  | setPat
  | switchTlbInvalidation
  | invalidateTlbPid
  | other (number : Nat)
  deriving DecidableEq, Repr

/-- The bytes of the argument structure that a command copies from user space. -/
def Cmd.argSize : Cmd → Option Nat
  | .vmResolve | .vmUpdate => some PteditEntry.size
  | .readPage | .writePage => some PteditPage.sizeOf
  | .getRoot | .setRoot => some PteditPaging.size
  | .invalidateTlbPid => some PteditInvalidateTlbArgs.size
  | _ => none

/-- `PTEDITOR_TLB_INVALIDATION_KERNEL`. -/
def pteditorTlbInvalidationKernel : Pid := 0

/-- `PTEDITOR_TLB_INVALIDATION_CUSTOM`. -/
def pteditorTlbInvalidationCustom : Pid := 1

namespace DeviceIoctl

variable (host : Host)

def vmResolve : KernelProg Int := do
  let garbage ← uninitialised
  let arg ← fromUser garbage PteditEntry.size
  let vmUser := PteditEntry.ofBlock arg
  let isLocked ← mmIsLocked
  let resolved ← resolveVm host vmUser.vaddr vmUser.pid !isLocked
  let vmUser ← (vmToUser vmUser resolved.2).translate readEntry
  toUser vmUser.block PteditEntry.size
  pure 0

def vmUpdate : KernelProg Int := do
  let garbage ← uninitialised
  let arg ← fromUser garbage PteditEntry.size
  let isLocked ← mmIsLocked
  let _ ← updateVm host (PteditEntry.ofBlock arg) !isLocked
  pure 0

def vmLock : KernelProg Int := do
  let isLocked ← mmIsLocked
  if isLocked then
    pure (-1)
  else
    match host.current.activeMm with
    | none => do
        oops
        pure 0
    | some mm => do
        mmapWriteLock mm
        mmapReadLock mm
        setMmIsLocked true
        pure 0

def vmUnlock : KernelProg Int := do
  let isLocked ← mmIsLocked
  if !isLocked then
    pure (-1)
  else
    match host.current.activeMm with
    | none => do
        oops
        pure 0
    | some mm => do
        mmapWriteUnlock mm
        mmapReadUnlock mm
        setMmIsLocked false
        pure 0

def readPage : KernelProg Int := do
  let garbage ← uninitialised
  let arg ← fromUser garbage PteditPage.sizeOf
  let page := PteditPage.ofBlock arg
  let size ← pageSize
  toUserPage page.buffer (host.physToVirt (page.pfn * sizeOfInt size)) (sizeOfInt size).toNat
  pure 0

def writePage : KernelProg Int := do
  let garbage ← uninitialised
  let arg ← fromUser garbage PteditPage.sizeOf
  let page := PteditPage.ofBlock arg
  let size ← pageSize
  fromUserPage (host.physToVirt (page.pfn * sizeOfInt size)) page.buffer (sizeOfInt size).toNat
  pure 0

/-- `paging.root &= ~1` on what `TTBR0_EL1` holds. -/
def currentTtbr0 : KernelProg Word := do
  let ttbr0 ← mrsTtbr0
  pure (ttbr0 &&& ~~~1#64)

/-- The part of `GET_ROOT` that every architecture has, once the mm is found. -/
def getRootOf (paging : PteditPaging) (mm : Mm) : KernelProg Int := do
  let isLocked ← mmIsLocked
  when (!isLocked) (mmapReadLock mm)
  let pgd ← mmPgd mm
  let isLocked ← mmIsLocked
  when (!isLocked) (mmapReadUnlock mm)
  toUser (PteditPaging.block { paging with root := host.virtToPhys pgd }) PteditPaging.size
  pure 0

/-- The answer of the aarch64 build when there is no mm or no `mm->pgd`. -/
def getRootFromTtbr0 (paging : PteditPaging) : KernelProg Int := do
  let root ← currentTtbr0
  toUser (PteditPaging.block { paging with root }) PteditPaging.size
  pure 0

def getRoot : KernelProg Int := do
  let garbage ← uninitialised
  let arg ← fromUser garbage PteditPaging.size
  let paging := PteditPaging.ofBlock arg
  match host.arch, host.getMm paging.pid with
  | .x86_64, none => pure 1
  | .x86_64, some mm => getRootOf host paging mm
  | .aarch64, none => getRootFromTtbr0 paging
  | .aarch64, some mm => do
      let pgd ← mmPgd mm
      if pgd = 0 then getRootFromTtbr0 paging else getRootOf host paging mm

/-- The part of `SET_ROOT` after the copy of its argument. -/
def setRootOf (paging : PteditPaging) : KernelProg Int :=
  match host.getMm paging.pid with
  | none => pure 1
  | some mm => do
      let isLocked ← mmIsLocked
      when (!isLocked) (mmapWriteLock mm)
      setMmPgd mm (host.physToVirt paging.root)
      let isLocked ← mmIsLocked
      when (!isLocked) (mmapWriteUnlock mm)
      pure 0

def setRoot : KernelProg Int := do
  let arg ← fromUser (PteditPaging.block { pid := 0, root := 0 }) PteditPaging.size
  setRootOf host (PteditPaging.ofBlock arg)

def getPagesize : KernelProg Int := do
  let size ← pageSize
  pure size.toInt

def invalidateTlbPid : KernelProg Int := do
  let garbage ← uninitialised
  let arg ← fromUser garbage PteditInvalidateTlbArgs.size
  let args := PteditInvalidateTlbArgs.ofBlock arg
  callInvalidateTlb host args.pid args.address
  pure 0

def invalidateTlb (param : Word) : KernelProg Int := do
  callInvalidateTlb host host.current.nr param
  pure 0

def getPat : KernelProg Int :=
  match host.arch with
  | .x86_64 => do
      let (low, high) ← rdmsr
      let pat := sizeOfInt low ||| (sizeOfInt high <<< 32)
      toUser (fun _ => pat) 8
      pure 0
  | .aarch64 => do
      let value ← mrsMair
      toUser (fun _ => value) 8
      pure 0

/-- `set_pat` with its callback `_set_pat`. -/
def setPat (param : Word) : KernelProg Int := do
  match host.arch with
  | .x86_64 =>
      wrmsrOnEachCpu (intOfSize (param &&& 0xffffffff)) (intOfSize ((param >>> 32) &&& 0xffffffff))
  | .aarch64 => msrMairOnEachCpu param
  pure 0

def switchTlbInvalidation (param : Word) : KernelProg Int :=
  if intOfSize param ≠ pteditorTlbInvalidationKernel ∧
      intOfSize param ≠ pteditorTlbInvalidationCustom then
    pure (-1)
  else if host.arch = .x86_64 ∧ intOfSize param = pteditorTlbInvalidationCustom then
    pure 0
  else do
    setInvalidateTlb
      (if intOfSize param = pteditorTlbInvalidationKernel then .kernel else .custom)
    pure 0

end DeviceIoctl

/-- `device_ioctl`. -/
def deviceIoctl (host : Host) (cmd : Cmd) (param : Word) : KernelProg Int :=
  match cmd with
  | .vmResolve => DeviceIoctl.vmResolve host
  | .vmUpdate => DeviceIoctl.vmUpdate host
  | .vmLock => DeviceIoctl.vmLock host
  | .vmUnlock => DeviceIoctl.vmUnlock host
  | .readPage => DeviceIoctl.readPage host
  | .writePage => DeviceIoctl.writePage host
  | .getRoot => DeviceIoctl.getRoot host
  | .setRoot => DeviceIoctl.setRoot host
  | .getPagesize => DeviceIoctl.getPagesize
  | .invalidateTlb => DeviceIoctl.invalidateTlb host param
  | .getPat => DeviceIoctl.getPat host
  | .setPat => DeviceIoctl.setPat host param
  | .switchTlbInvalidation => DeviceIoctl.switchTlbInvalidation host param
  | .invalidateTlbPid => DeviceIoctl.invalidateTlbPid host
  | .other _ => pure (-1)

end PTEditor
