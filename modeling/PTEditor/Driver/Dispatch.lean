import PTEditor.Entry
import PTEditor.Foundation.ByteMem

/-!
# The Windows driver

`DispatchDeviceCtl` of `Driver.c`, which serves the device-control requests of the
Windows build, as a program over the kernel calls it makes (`DriverOp`).  Requests are
buffered: the driver finds the input of a request in the system buffer and leaves the
output there.
-/

namespace PTEditor

namespace Windows

/-! ## Control codes -/

/-- `CTL_CODE(FILE_DEVICE_UNKNOWN, function, METHOD_BUFFERED, access)`. -/
def ctlCode (function access : Nat) : BitVec 32 :=
  let fileDeviceUnknown := 0x22#32
  let methodBuffered := 0#32
  (fileDeviceUnknown <<< 16) ||| (BitVec.ofNat 32 access <<< 14) |||
    (BitVec.ofNat 32 function <<< 2) ||| methodBuffered

/-- `FILE_ANY_ACCESS`. -/
def fileAnyAccess : Nat := 0

/-- `FILE_READ_DATA`. -/
def fileReadData : Nat := 1

def pteditorReadPage : BitVec 32 := ctlCode 0x801 fileAnyAccess

def pteditorWritePage : BitVec 32 := ctlCode 0x802 fileReadData

def pteditorGetCr3 : BitVec 32 := ctlCode 0x803 fileAnyAccess

def pteditorFlushTlb : BitVec 32 := ctlCode 0x804 fileAnyAccess

def pteditorReadPhysVal : BitVec 32 := ctlCode 0x805 fileAnyAccess

def pteditorWritePhysVal : BitVec 32 := ctlCode 0x806 fileAnyAccess

def pteditorSetCr3 : BitVec 32 := ctlCode 0x807 fileAnyAccess

def pteditorSetPat : BitVec 32 := ctlCode 0x808 fileAnyAccess

def pteditorGetPat : BitVec 32 := ctlCode 0x809 fileAnyAccess

/-- The cases of the dispatcher are different codes. -/
theorem codes_nodup :
    [pteditorWritePage, pteditorReadPage, pteditorGetCr3, pteditorSetCr3, pteditorFlushTlb,
      pteditorReadPhysVal, pteditorWritePhysVal, pteditorGetPat, pteditorSetPat].Nodup := by
  decide

/-! ## Kernel calls -/

/-- A process object. -/
abbrev Process : Type := Nat

/-- A `KAPC_STATE`: the process to go back to, if another one was attached to. -/
abbrev KapcState : Type := Option Process

/-- A callback that `KeIpiGenericCall` runs on every CPU: `invalidate_tlb` or `set_pat`. -/
inductive Broadcast where
  | invalidateTlb
  | setPat
  deriving DecidableEq, Repr

/-- What `DispatchDeviceCtl` does besides computing.  Offsets are offsets into the
system buffer. -/
inductive DriverOp where
  /-- Read eight bytes of the system buffer. -/
  | loadBuffer (offset : Nat)
  | storeBuffer (offset : Nat) (value : Word)
  /-- `MmCopyMemory` from physical memory to the start of the system buffer. -/
  | copyFromPhysical (source : Word) (count : Nat)
  /-- `MmCopyMemory` from the start of the system buffer to a virtual address. -/
  | copyToVirtual (target : Word) (count : Nat)
  | mmGetVirtualForPhysical (physical : Word)
  | storeVirtual (vaddr value : Word)
  | psLookupProcessByProcessId (pid : Word)
  | keStackAttachProcess (process : Process)
  | keUnstackDetachProcess (apcState : KapcState)
  | readcr3
  | writecr3 (value : Word)
  | keIpiGenericCall (callback : Broadcast) (context : Word)
  /-- `__readmsr(IA32_PAT)`. -/
  | readmsr
  deriving DecidableEq, Repr

def DriverOp.Res : DriverOp → Type
  | .loadBuffer _ => Word
  | .mmGetVirtualForPhysical _ => Word
  | .psLookupProcessByProcessId _ => Option Process
  | .keStackAttachProcess _ => KapcState
  | .readcr3 => Word
  | .readmsr => Word
  | _ => Unit

/-- A piece of driver code. -/
abbrev DriverProg (α : Type) : Type := Prog DriverOp DriverOp.Res α

/-- `NTSTATUS`, as far as the driver returns it. -/
inductive NtStatus where
  | success
  | invalidParameter
  deriving DecidableEq, Repr

/-- `Irp->IoStatus`. -/
structure IoStatus where
  status : NtStatus
  information : Nat
  deriving DecidableEq, Repr

namespace DriverProg

def loadBuffer (offset : Nat) : DriverProg Word := Prog.perform (DriverOp.loadBuffer offset)

def storeBuffer (offset : Nat) (value : Word) : DriverProg Unit :=
  Prog.perform (DriverOp.storeBuffer offset value)

def copyFromPhysical (source : Word) (count : Nat) : DriverProg Unit :=
  Prog.perform (DriverOp.copyFromPhysical source count)

def copyToVirtual (target : Word) (count : Nat) : DriverProg Unit :=
  Prog.perform (DriverOp.copyToVirtual target count)

def mmGetVirtualForPhysical (physical : Word) : DriverProg Word :=
  Prog.perform (DriverOp.mmGetVirtualForPhysical physical)

def storeVirtual (vaddr value : Word) : DriverProg Unit :=
  Prog.perform (DriverOp.storeVirtual vaddr value)

def psLookupProcessByProcessId (pid : Word) : DriverProg (Option Process) :=
  Prog.perform (DriverOp.psLookupProcessByProcessId pid)

def keStackAttachProcess (process : Process) : DriverProg KapcState :=
  Prog.perform (DriverOp.keStackAttachProcess process)

def keUnstackDetachProcess (apcState : KapcState) : DriverProg Unit :=
  Prog.perform (DriverOp.keUnstackDetachProcess apcState)

def readcr3 : DriverProg Word := Prog.perform DriverOp.readcr3

def writecr3 (value : Word) : DriverProg Unit := Prog.perform (DriverOp.writecr3 value)

def keIpiGenericCall (callback : Broadcast) (context : Word) : DriverProg Unit :=
  Prog.perform (DriverOp.keIpiGenericCall callback context)

def readmsr : DriverProg Word := Prog.perform DriverOp.readmsr

end DriverProg

open DriverProg

/-! ## The dispatcher -/

/-- `sizeof` the member `content` of `PageContent`, which is also the offset of `paddr`. -/
def pageContentSize : Nat := 4096

namespace DispatchDeviceCtl

def writePage : DriverProg Nat := do
  let paddr ← loadBuffer pageContentSize
  let vaddr ← mmGetVirtualForPhysical paddr
  if vaddr ≠ 0 then
    copyToVirtual vaddr 4096
    pure 0
  else
    pure 0

def readPage : DriverProg Nat := do
  let physicalAddress ← loadBuffer 0
  copyFromPhysical physicalAddress 4096
  pure 4096

def getCr3 : DriverProg Nat := do
  let pid ← loadBuffer 0
  match ← psLookupProcessByProcessId pid with
  | some process => do
      let apcState ← keStackAttachProcess process
      let cr3 ← readcr3
      keUnstackDetachProcess apcState
      storeBuffer 0 cr3
      pure 8
  | none => do
      storeBuffer 0 0
      pure 8

def flushTlb : DriverProg Nat := do
  let addr ← loadBuffer 0
  keIpiGenericCall .invalidateTlb addr
  pure 0

/-- There is no `break` at the end of this case: it goes on with the next one. -/
def setCr3 : DriverProg Nat := do
  let pid ← loadBuffer 0
  match ← psLookupProcessByProcessId pid with
  | some process => do
      let apcState ← keStackAttachProcess process
      let cr3 ← loadBuffer 8
      writecr3 cr3
      keUnstackDetachProcess apcState
      flushTlb
  | none => flushTlb

def readPhysVal : DriverProg Nat := do
  let physicalAddress ← loadBuffer 0
  copyFromPhysical physicalAddress 8
  pure 8

def writePhysVal : DriverProg Nat := do
  let val ← loadBuffer 8
  let physicalAddress ← loadBuffer 0
  let vaddr ← mmGetVirtualForPhysical physicalAddress
  if vaddr ≠ 0 then
    storeVirtual vaddr val
    pure 0
  else
    pure 0

def getPat : DriverProg Nat := do
  let pat ← readmsr
  storeBuffer 0 pat
  pure 8

def setPat : DriverProg Nat := do
  let pat ← loadBuffer 0
  keIpiGenericCall .setPat pat
  pure 0

/-- The case of a control code, if there is one; it returns `returnLength`. -/
def case (code : BitVec 32) : Option (DriverProg Nat) :=
  if code = pteditorWritePage then some writePage
  else if code = pteditorReadPage then some readPage
  else if code = pteditorGetCr3 then some getCr3
  else if code = pteditorSetCr3 then some setCr3
  else if code = pteditorFlushTlb then some flushTlb
  else if code = pteditorReadPhysVal then some readPhysVal
  else if code = pteditorWritePhysVal then some writePhysVal
  else if code = pteditorGetPat then some getPat
  else if code = pteditorSetPat then some setPat
  else none

end DispatchDeviceCtl

/-- `DispatchDeviceCtl`: what it leaves in `Irp->IoStatus`. -/
def dispatchDeviceCtl (ioControlCode : BitVec 32) : DriverProg IoStatus :=
  match DispatchDeviceCtl.case ioControlCode with
  | some body => do
      let returnLength ← body
      pure { status := .success, information := returnLength }
  | none => pure { status := .invalidParameter, information := 0 }

/-! ## The machine under the driver -/

/-- What does not change while requests are served: the address mappings of the kernel,
the process table with the page-table root of each process, the process that makes the
requests, and the old contents of the pool that system buffers come from. -/
structure WindowsHost where
  virtualForPhysical : Word → Word
  physicalForVirtual : Word → Word
  processById : Word → Option Process
  directoryBase : Process → Word
  caller : Process
  pool : ByteMem

/-- The state that requests read and change; `ia32Pat` is the register of each CPU. -/
structure Machine where
  mem : ByteMem
  ia32Pat : Nat → Word
  cr3 : Word
  references : Process → Nat

/-- Attaching to the process that runs already changes nothing. -/
def WindowsHost.apcState (host : WindowsHost) (process : Process) : KapcState :=
  if process = host.caller then none else some host.caller

def Machine.attach (host : WindowsHost) (process : Process) (machine : Machine) : Machine :=
  { machine with cr3 := if process = host.caller then machine.cr3 else host.directoryBase process }

def Machine.detach (host : WindowsHost) (apcState : KapcState) (machine : Machine) : Machine :=
  { machine with cr3 := apcState.elim machine.cr3 host.directoryBase }

/-- The state of one request. -/
structure RequestState where
  machine : Machine
  buffer : ByteMem

/-- The effect of each call on CPU `cpu`. -/
def driverHandler (host : WindowsHost) (cpu : Nat) :
    Prog.Handler DriverOp DriverOp.Res RequestState
  | .loadBuffer offset, s => some (s.buffer.read (BitVec.ofNat 64 offset), s)
  | .storeBuffer offset value, s =>
      some ((), { s with buffer := s.buffer.write (BitVec.ofNat 64 offset) value })
  | .copyFromPhysical source count, s =>
      some ((), { s with buffer := s.buffer.writeBytes 0 (s.machine.mem.readBytes source count) })
  | .copyToVirtual target count, s =>
      let mem := s.machine.mem.writeBytes (host.physicalForVirtual target)
        (s.buffer.readBytes 0 count)
      some ((), { s with machine := { s.machine with mem } })
  | .mmGetVirtualForPhysical physical, s => some (host.virtualForPhysical physical, s)
  | .storeVirtual vaddr value, s =>
      let mem := s.machine.mem.write (host.physicalForVirtual vaddr) value
      some ((), { s with machine := { s.machine with mem } })
  | .psLookupProcessByProcessId pid, s =>
      match host.processById pid with
      | none => some (none, s)
      | some process =>
          let references := fun other =>
            if other = process then s.machine.references other + 1 else s.machine.references other
          some (some process, { s with machine := { s.machine with references } })
  | .keStackAttachProcess process, s =>
      some (host.apcState process, { s with machine := s.machine.attach host process })
  | .keUnstackDetachProcess apcState, s =>
      some ((), { s with machine := s.machine.detach host apcState })
  | .readcr3, s => some (s.machine.cr3, s)
  | .writecr3 value, s => some ((), { s with machine := { s.machine with cr3 := value } })
  | .keIpiGenericCall .invalidateTlb _, s => some ((), s)
  | .keIpiGenericCall .setPat context, s =>
      some ((), { s with machine := { s.machine with ia32Pat := fun _ => context } })
  | .readmsr, s => some (s.machine.ia32Pat cpu, s)

end Windows

end PTEditor
