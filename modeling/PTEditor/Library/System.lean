import PTEditor.Module.IoctlSpec

/-!
# The system under the library

The calls through which `ptedit.c` reaches the kernel and physical memory
(`SysOp`) and their effect on the `World` (`sysHandler`).  An ioctl on the device
runs `deviceIoctl` as one step.  `/proc/umem` answers every read and write with
physical memory; a mapping of it gives access to the bytes of its window only.
-/

namespace PTEditor

/-- What a file descriptor of the process refers to, if it is open. -/
inductive File where
  | device
  | umem
  | other
  | closed
  deriving DecidableEq, Repr

/-- A return value of `mmap`, or a pointer that no `mmap` has set yet. -/
inductive Mapping where
  | null
  | failed
  | umem (start : Word) (length : Nat)
  deriving DecidableEq, Repr

/-- What does not change while the library runs: the running kernel, the file
descriptors, what a read of a file that is neither the device nor `/proc/umem`
returns, and the garbage in the kernel's stack frames. -/
structure System where
  host : Host
  file : Int → File
  foreignRead : Int → Nat → Word → Option (List (BitVec 8))
  locals : Block

/-- The state that the library's calls read and change. -/
structure World where
  kernel : Kernel
  user : ByteMem

/-- The calls the library makes; `readUser` and `writeUser` access a page buffer of its
caller, and `crash` is a call through a null pointer. -/
inductive SysOp where
  | ioctl (fd : Int) (cmd : Cmd) (param : Word) (arg : Block)
  | pread (fd : Int) (count : Nat) (offset : Word)
  | pwrite (fd : Int) (bytes : List (BitVec 8)) (offset : Word)
  | mmap (fd : Int) (length : Nat) (offset : Word)
  | load (mapping : Mapping) (address : Word)
  | store (mapping : Mapping) (address value : Word)
  | readUser (buffer : Word) (count : Nat)
  | writeUser (buffer : Word) (bytes : List (BitVec 8))
  | crash

/-- What each call returns: an ioctl its value and its argument structure, `pread`
and `pwrite` nothing when they fail. -/
def SysOp.Res : SysOp → Type
  | .ioctl _ _ _ _ => Int × Block
  | .pread _ _ _ => Option (List (BitVec 8))
  | .pwrite _ _ _ => Option Nat
  | .mmap _ _ _ => Mapping
  | .load _ _ => Word
  | .store _ _ _ => Unit
  | .readUser _ _ => List (BitVec 8)
  | .writeUser _ _ => Unit
  | .crash => Unit

/-- The copies of a call whose pointers are the library's own variables. -/
def System.copy (sys : System) : UserCopy :=
  { copied := 64, stored := 64, pageCopied := 2 ^ 64, pageStored := 2 ^ 64, locals := sys.locals }

/-- The world with other contents of physical memory. -/
def World.withMem (w : World) (mem : ByteMem) : World := { w with kernel := w.kernel.withMem mem }

/-- An ioctl on the device. -/
def System.deviceIoctl (sys : System) (cmd : Cmd) (param : Word) (arg : Block) (w : World) :
    Option ((Int × Block) × World) :=
  (Prog.run (kernelHandler sys.host sys.copy) (PTEditor.deviceIoctl sys.host cmd param)
    ⟨w.kernel, arg, w.user⟩).map fun (r, s) => ((r, s.arg), ⟨s.kernel, s.user⟩)

/-- The access of eight bytes at an address falls into a mapping's window. -/
def Mapping.Covers (mapping : Mapping) (address : Word) : Prop :=
  match mapping with
  | .umem _ length => address.toNat + 8 ≤ length
  | _ => False

instance (mapping : Mapping) (address : Word) : Decidable (mapping.Covers address) := by
  unfold Mapping.Covers
  split <;> infer_instance

/-- The physical address behind an address of a mapping. -/
def Mapping.physical (mapping : Mapping) (address : Word) : Word :=
  match mapping with
  | .umem start _ => start + address
  | _ => address

/-- The effect of each call; an access outside a mapping's window is refused. -/
def sysHandler (sys : System) : Prog.Handler SysOp SysOp.Res World
  | .ioctl fd cmd param arg, w =>
      match sys.file fd with
      | .device => sys.deviceIoctl cmd param arg w
      | _ => some ((-1, arg), w)
  | .pread fd count offset, w =>
      match sys.file fd with
      | .umem => some (some (w.kernel.mem.readBytes offset count), w)
      | .device | .closed => some (none, w)
      | .other => some (sys.foreignRead fd count offset, w)
  | .pwrite fd bytes offset, w =>
      match sys.file fd with
      | .umem => some (some bytes.length, w.withMem (w.kernel.mem.writeBytes offset bytes))
      | .device | .closed => some (none, w)
      | .other => some (some bytes.length, w)
  | .mmap fd length offset, w =>
      match sys.file fd with
      | .umem => some (Mapping.umem offset length, w)
      | _ => some (Mapping.failed, w)
  | .load mapping address, w =>
      if mapping.Covers address then
        some (w.kernel.mem.read (mapping.physical address), w)
      else
        none
  | .store mapping address value, w =>
      if mapping.Covers address then
        some ((), w.withMem (w.kernel.mem.write (mapping.physical address) value))
      else
        none
  | .readUser buffer count, w => some (w.user.readBytes buffer count, w)
  | .writeUser buffer bytes, w => some ((), { w with user := w.user.writeBytes buffer bytes })
  | .crash, _ => none

/-- A piece of library code. -/
abbrev Sys (α : Type) : Type := Prog SysOp SysOp.Res α

namespace Sys

def ioctl (fd : Int) (cmd : Cmd) (param : Word) (arg : Block) : Sys (Int × Block) :=
  Prog.perform (SysOp.ioctl fd cmd param arg)

def pread (fd : Int) (count : Nat) (offset : Word) : Sys (Option (List (BitVec 8))) :=
  Prog.perform (SysOp.pread fd count offset)

def pwrite (fd : Int) (bytes : List (BitVec 8)) (offset : Word) : Sys (Option Nat) :=
  Prog.perform (SysOp.pwrite fd bytes offset)

def mmap (fd : Int) (length : Nat) (offset : Word) : Sys Mapping :=
  Prog.perform (SysOp.mmap fd length offset)

def load (mapping : Mapping) (address : Word) : Sys Word :=
  Prog.perform (SysOp.load mapping address)

def store (mapping : Mapping) (address value : Word) : Sys Unit :=
  Prog.perform (SysOp.store mapping address value)

def readUser (buffer : Word) (count : Nat) : Sys (List (BitVec 8)) :=
  Prog.perform (SysOp.readUser buffer count)

def writeUser (buffer : Word) (bytes : List (BitVec 8)) : Sys Unit :=
  Prog.perform (SysOp.writeUser buffer bytes)

def crash : Sys Unit := Prog.perform SysOp.crash

end Sys

end PTEditor
