import PTEditor.Entry
import PTEditor.Foundation.ByteMem

/-!
# The kernel around the module

What `module/pteditor.c` finds when it runs: the parts of Linux it calls into
(`Host`), the state it reads and writes (`Kernel`), and its primitive operations
(`KernelOp`) with their effect (`kernelHandler`).

`Host` holds the code that is not part of the repository as parameters: the
process table, the direct map and the page-table macros of the running kernel.
Locks and TLB flushes have no effect on the state here; they are operations of
their own so that a run's `Prog.trace` shows them.  The module is modelled for
kernels from 4.11 on, where it has a P4D level.
-/

namespace PTEditor

/-- The identity of a `struct mm_struct`. -/
abbrev Mm : Type := Nat

/-- The parts of a `struct task_struct` that the module reads. -/
structure Task where
  mm : Option Mm
  activeMm : Option Mm
  /-- `task_pid_nr`: the number of the task in the initial pid namespace. -/
  nr : Pid
  /-- The pid namespace in which the task looks up numbers. -/
  pidNs : Nat
  deriving DecidableEq, Repr

/-- A `struct vm_area_struct`, as far as a TLB flush looks at it. -/
structure Vma where
  mm : Mm
  vmStart : Word
  deriving DecidableEq, Repr

/-- The running kernel as the module calls it.  A macro `X_offset` gets the
pointer and the entry of the level above; `pte_offset_map` may return `NULL`. -/
structure Host where
  arch : Arch
  current : Task
  findVpid : Nat → Pid → Option Nat
  pidTask : Nat → Option Task
  physToVirt : Word → Word
  virtToPhys : Word → Word
  pgdOffset : Word → Word → Word
  p4dOffset : Word → Word → Word → Word
  pudOffset : Word → Word → Word → Word
  pmdOffset : Word → Word → Word → Word
  pteOffsetMap : Word → Word → Word → Option Word
  pgdNone : Word → Bool
  pgdBad : Word → Bool
  p4dNone : Word → Bool
  p4dBad : Word → Bool
  pudNone : Word → Bool
  pmdNone : Word → Bool
  pudLeaf : Word → Bool
  pmdLeaf : Word → Bool
  findVma : Option Mm → Word → Option Vma

/-- The two functions that `invalidate_tlb` can point to. -/
inductive TlbMethod where
  | kernel
  | custom
  deriving DecidableEq, Repr

/-- The state the module works on: physical memory, the root pointer of every mm,
the module's own variables and the system registers it reads and writes.  A
function pointer that is not set yet is `none` (`invalidate_tlb`) or `false`
(`flush_tlb_mm_range_func`). -/
structure Kernel where
  mem : ByteMem
  pgd : Mm → Word
  mmIsLocked : Bool
  invalidateTlb : Option TlbMethod
  flushTlbMmRangeFunc : Bool
  realPageSize : Pid
  realPageShift : Pid
  /-- `IA32_PAT` on x86_64, `MAIR_EL1` on aarch64. -/
  memoryTypes : Word
  /-- `TTBR0_EL1` of the calling process, aarch64 only. -/
  ttbr0 : Word

/-- The module's function pointers are set, as `pteditor_init` leaves them. -/
structure Kernel.Loaded (host : Host) (k : Kernel) : Prop where
  invalidateTlb : k.invalidateTlb.isSome
  flushTlbMmRangeFunc : host.arch = .x86_64 → k.flushTlbMmRangeFunc = true

/-! ## Copies from user space -/

/-- An argument structure as the words of its memory. -/
abbrev Block : Type := Nat → Word

/-- Replace the first `n` bytes of a word, all of them from `n = 8` on. -/
def mixBytes (n : Nat) (src dst : Word) : Word :=
  (src &&& ((1#64 <<< (8 * n)) - 1)) ||| (dst &&& ~~~((1#64 <<< (8 * n)) - 1))

/-- Replace the first `copied` bytes of a structure: `raw_copy_from_user` leaves
the rest of the destination as it was. -/
def copyBlock (copied : Nat) (src dst : Block) : Block := fun i =>
  mixBytes (copied - 8 * i) (src i) (dst i)

theorem mixBytes_of_le {n : Nat} (whole : 8 ≤ n) (src dst : Word) : mixBytes n src dst = src := by
  have ones : (1#64 <<< (8 * n)) - 1 = BitVec.allOnes 64 := by
    rw [BitVec.shiftLeft_eq_zero (by omega)]
    decide
  rw [mixBytes, ones, BitVec.not_allOnes, BitVec.and_allOnes, BitVec.and_zero, BitVec.or_zero]

/-- A copy that reaches word `i` whole delivers it. -/
theorem copyBlock_of_le {copied i : Nat} (whole : 8 * i + 8 ≤ copied) (src dst : Block) :
    copyBlock copied src dst i = src i :=
  mixBytes_of_le (by omega) _ _

/-- What the module does not control about one call: how many bytes of the argument
structure and of a page buffer can be read and written, and what an uninitialised
local of the handler happens to hold. -/
structure UserCopy where
  copied : Nat
  stored : Nat
  pageCopied : Nat
  pageStored : Nat
  locals : Block

/-! ## Primitive operations -/

/-- The operations the module performs on the kernel. -/
inductive KernelOp where
  | uninitialised
  | fromUser (dst : Block) (size : Nat)
  | toUser (src : Block) (size : Nat)
  | fromUserPage (dst buffer : Word) (size : Nat)
  | toUserPage (buffer src : Word) (size : Nat)
  | mmIsLocked
  | setMmIsLocked (value : Bool)
  | mmapReadLock (mm : Mm)
  | mmapReadUnlock (mm : Mm)
  | mmapWriteLock (mm : Mm)
  | mmapWriteUnlock (mm : Mm)
  | mmPgd (mm : Mm)
  | setMmPgd (mm : Mm) (pgd : Word)
  | readEntry (pointer : Word)
  | setEntry (level : Level) (pointer : Option Word) (value : Word)
  /-- The function that a call through `invalidate_tlb` enters. -/
  | invalidateTlb
  | setInvalidateTlb (method : TlbMethod)
  | flushTlbMmRange (mm : Mm) (start stop : Word) (shift : Pid)
  | flushTlbPageOnEachCpu (vma : Vma) (addr : Word)
  | tlbiAllOnEachCpu
  | pageSize
  | pageShift
  | rdmsr
  | wrmsrOnEachCpu (low high : Pid)
  | mrsMair
  | msrMairOnEachCpu (value : Word)
  | mrsTtbr0
  /-- A dereference of `NULL`. -/
  | oops

/-- What each operation returns. -/
def KernelOp.Res : KernelOp → Type
  | .uninitialised => Block
  | .fromUser _ _ => Block
  | .mmIsLocked => Bool
  | .mmPgd _ => Word
  | .readEntry _ => Word
  | .invalidateTlb => TlbMethod
  | .pageSize => Pid
  | .pageShift => Pid
  | .rdmsr => Pid × Pid
  | .mrsMair => Word
  | .mrsTtbr0 => Word
  | _ => Unit

/-- The state of one call: the kernel, and the user memory the call can reach,
which is its argument structure and the page buffers.  The pointers of the call are those of a
caller that passes its own memory; where any others lead is the subject of `RawCopy`. -/
structure CallState where
  kernel : Kernel
  arg : Block
  user : ByteMem

/-- The word a page-table pointer points to. -/
def Kernel.entryAt (host : Host) (k : Kernel) (pointer : Word) : Word :=
  k.mem.read (host.virtToPhys pointer)

/-- Store the word a page-table pointer points to. -/
def Kernel.storeEntry (host : Host) (k : Kernel) (pointer value : Word) : Kernel :=
  { k with mem := k.mem.write (host.virtToPhys pointer) value }

/-- The effect of each operation.  A call through an unset function pointer and a
dereference of `NULL` are refused. -/
def kernelHandler (host : Host) (copy : UserCopy) :
    Prog.Handler KernelOp KernelOp.Res CallState
  | .uninitialised, s => some (copy.locals, s)
  | .fromUser dst size, s => some (copyBlock (min copy.copied size) s.arg dst, s)
  | .toUser src size, s =>
      some ((), { s with arg := copyBlock (min copy.stored size) src s.arg })
  | .fromUserPage dst buffer size, s =>
      let bytes := s.user.readBytes buffer (min copy.pageCopied size)
      let mem := s.kernel.mem.writeBytes (host.virtToPhys dst) bytes
      some ((), { s with kernel := { s.kernel with mem := mem } })
  | .toUserPage buffer src size, s =>
      let bytes := s.kernel.mem.readBytes (host.virtToPhys src) (min copy.pageStored size)
      some ((), { s with user := s.user.writeBytes buffer bytes })
  | .mmIsLocked, s => some (s.kernel.mmIsLocked, s)
  | .setMmIsLocked value, s =>
      some ((), { s with kernel := { s.kernel with mmIsLocked := value } })
  | .mmapReadLock _, s => some ((), s)
  | .mmapReadUnlock _, s => some ((), s)
  | .mmapWriteLock _, s => some ((), s)
  | .mmapWriteUnlock _, s => some ((), s)
  | .mmPgd mm, s => some (s.kernel.pgd mm, s)
  | .setMmPgd mm pgd, s =>
      let roots := fun other => if other = mm then pgd else s.kernel.pgd other
      some ((), { s with kernel := { s.kernel with pgd := roots } })
  | .readEntry pointer, s => some (s.kernel.entryAt host pointer, s)
  | .setEntry _ none _, _ => none
  | .setEntry _ (some pointer) value, s =>
      some ((), { s with kernel := s.kernel.storeEntry host pointer value })
  | .invalidateTlb, s => s.kernel.invalidateTlb.map fun method => (method, s)
  | .setInvalidateTlb method, s =>
      some ((), { s with kernel := { s.kernel with invalidateTlb := some method } })
  | .flushTlbMmRange _ _ _ _, s => if s.kernel.flushTlbMmRangeFunc then some ((), s) else none
  | .flushTlbPageOnEachCpu _ _, s => some ((), s)
  | .tlbiAllOnEachCpu, s => some ((), s)
  | .pageSize, s => some (s.kernel.realPageSize, s)
  | .pageShift, s => some (s.kernel.realPageShift, s)
  | .rdmsr, s =>
      some ((s.kernel.memoryTypes.extractLsb' 0 32, s.kernel.memoryTypes.extractLsb' 32 32), s)
  | .wrmsrOnEachCpu low high, s =>
      some ((), { s with kernel := { s.kernel with memoryTypes := high ++ low } })
  | .mrsMair, s => some (s.kernel.memoryTypes, s)
  | .msrMairOnEachCpu value, s =>
      some ((), { s with kernel := { s.kernel with memoryTypes := value } })
  | .mrsTtbr0, s => some (s.kernel.ttbr0, s)
  | .oops, _ => none

/-- A piece of module code. -/
abbrev KernelProg (α : Type) : Type := Prog KernelOp KernelOp.Res α

/-- Operations that leave the kernel and user memory alone. -/
def KernelOp.Silent : KernelOp → Prop
  | .uninitialised | .fromUser _ _ | .mmIsLocked | .mmapReadLock _ | .mmapReadUnlock _
  | .mmapWriteLock _ | .mmapWriteUnlock _ | .mmPgd _ | .readEntry _ | .invalidateTlb
  | .flushTlbMmRange _ _ _ _ | .flushTlbPageOnEachCpu _ _ | .tlbiAllOnEachCpu | .pageSize
  | .pageShift | .rdmsr | .mrsMair | .mrsTtbr0 => True
  | _ => False

theorem KernelOp.Silent.keeps {host : Host} {copy : UserCopy} {op : KernelOp}
    (silent : op.Silent) {s s' : CallState} {r : op.Res}
    (answer : kernelHandler host copy op s = some (r, s')) : s' = s := by
  cases op <;> simp only [Silent] at silent
  case invalidateTlb =>
    obtain ⟨_, _, same⟩ := Option.map_eq_some_iff.mp answer
    exact (congrArg Prod.snd same).symm
  case flushTlbMmRange =>
    simp only [kernelHandler, Option.ite_none_right_eq_some] at answer
    exact (congrArg Prod.snd (Option.some.inj answer.2)).symm
  all_goals exact (congrArg Prod.snd (Option.some.inj answer)).symm

/-! ## The operations as programs -/

namespace KernelProg

def uninitialised : KernelProg Block := Prog.perform KernelOp.uninitialised

def fromUser (dst : Block) (size : Nat) : KernelProg Block :=
  Prog.perform (KernelOp.fromUser dst size)

def toUser (src : Block) (size : Nat) : KernelProg Unit := Prog.perform (KernelOp.toUser src size)

def fromUserPage (dst buffer : Word) (size : Nat) : KernelProg Unit :=
  Prog.perform (KernelOp.fromUserPage dst buffer size)

def toUserPage (buffer src : Word) (size : Nat) : KernelProg Unit :=
  Prog.perform (KernelOp.toUserPage buffer src size)

def mmIsLocked : KernelProg Bool := Prog.perform KernelOp.mmIsLocked

def setMmIsLocked (value : Bool) : KernelProg Unit := Prog.perform (KernelOp.setMmIsLocked value)

def mmapReadLock (mm : Mm) : KernelProg Unit := Prog.perform (KernelOp.mmapReadLock mm)

def mmapReadUnlock (mm : Mm) : KernelProg Unit := Prog.perform (KernelOp.mmapReadUnlock mm)

def mmapWriteLock (mm : Mm) : KernelProg Unit := Prog.perform (KernelOp.mmapWriteLock mm)

def mmapWriteUnlock (mm : Mm) : KernelProg Unit := Prog.perform (KernelOp.mmapWriteUnlock mm)

def mmPgd (mm : Mm) : KernelProg Word := Prog.perform (KernelOp.mmPgd mm)

def setMmPgd (mm : Mm) (pgd : Word) : KernelProg Unit := Prog.perform (KernelOp.setMmPgd mm pgd)

def readEntry (pointer : Word) : KernelProg Word := Prog.perform (KernelOp.readEntry pointer)

def setEntry (level : Level) (pointer : Option Word) (value : Word) : KernelProg Unit :=
  Prog.perform (KernelOp.setEntry level pointer value)

def invalidateTlb : KernelProg TlbMethod := Prog.perform KernelOp.invalidateTlb

def setInvalidateTlb (method : TlbMethod) : KernelProg Unit :=
  Prog.perform (KernelOp.setInvalidateTlb method)

def flushTlbMmRange (mm : Mm) (start stop : Word) (shift : Pid) : KernelProg Unit :=
  Prog.perform (KernelOp.flushTlbMmRange mm start stop shift)

def flushTlbPageOnEachCpu (vma : Vma) (addr : Word) : KernelProg Unit :=
  Prog.perform (KernelOp.flushTlbPageOnEachCpu vma addr)

def tlbiAllOnEachCpu : KernelProg Unit := Prog.perform KernelOp.tlbiAllOnEachCpu

def pageSize : KernelProg Pid := Prog.perform KernelOp.pageSize

def pageShift : KernelProg Pid := Prog.perform KernelOp.pageShift

def rdmsr : KernelProg (Pid × Pid) := Prog.perform KernelOp.rdmsr

def wrmsrOnEachCpu (low high : Pid) : KernelProg Unit :=
  Prog.perform (KernelOp.wrmsrOnEachCpu low high)

def mrsMair : KernelProg Word := Prog.perform KernelOp.mrsMair

def msrMairOnEachCpu (value : Word) : KernelProg Unit :=
  Prog.perform (KernelOp.msrMairOnEachCpu value)

def mrsTtbr0 : KernelProg Word := Prog.perform KernelOp.mrsTtbr0

def oops : KernelProg Unit := Prog.perform KernelOp.oops

/-- Run `p` when the condition holds. -/
def when (condition : Bool) (p : KernelProg Unit) : KernelProg Unit :=
  if condition then p else pure ()

section Runs

variable {host : Host} {copy : UserCopy} (s : CallState)

@[simp] theorem run_when (condition : Bool) (p : KernelProg Unit) :
    Prog.run (kernelHandler host copy) (when condition p) s =
      if condition then Prog.run (kernelHandler host copy) p s else some ((), s) := by
  cases condition <;> rfl

@[simp] theorem run_uninitialised :
    Prog.run (kernelHandler host copy) uninitialised s = some (copy.locals, s) := rfl

@[simp] theorem run_fromUser (dst : Block) (size : Nat) :
    Prog.run (kernelHandler host copy) (fromUser dst size) s =
      some (copyBlock (min copy.copied size) s.arg dst, s) := rfl

@[simp] theorem run_toUser (src : Block) (size : Nat) :
    Prog.run (kernelHandler host copy) (toUser src size) s =
      some ((), { s with arg := copyBlock (min copy.stored size) src s.arg }) := rfl

@[simp] theorem run_mmIsLocked :
    Prog.run (kernelHandler host copy) mmIsLocked s = some (s.kernel.mmIsLocked, s) := rfl

@[simp] theorem run_setMmIsLocked (value : Bool) :
    Prog.run (kernelHandler host copy) (setMmIsLocked value) s =
      some ((), { s with kernel := { s.kernel with mmIsLocked := value } }) := rfl

@[simp] theorem run_mmapReadLock (mm : Mm) :
    Prog.run (kernelHandler host copy) (mmapReadLock mm) s = some ((), s) := rfl

@[simp] theorem run_mmapReadUnlock (mm : Mm) :
    Prog.run (kernelHandler host copy) (mmapReadUnlock mm) s = some ((), s) := rfl

@[simp] theorem run_mmapWriteLock (mm : Mm) :
    Prog.run (kernelHandler host copy) (mmapWriteLock mm) s = some ((), s) := rfl

@[simp] theorem run_mmapWriteUnlock (mm : Mm) :
    Prog.run (kernelHandler host copy) (mmapWriteUnlock mm) s = some ((), s) := rfl

@[simp] theorem run_mmPgd (mm : Mm) :
    Prog.run (kernelHandler host copy) (mmPgd mm) s = some (s.kernel.pgd mm, s) := rfl

@[simp] theorem run_pageSize :
    Prog.run (kernelHandler host copy) pageSize s = some (s.kernel.realPageSize, s) := rfl

@[simp] theorem run_pageShift :
    Prog.run (kernelHandler host copy) pageShift s = some (s.kernel.realPageShift, s) := rfl

@[simp] theorem run_mrsTtbr0 :
    Prog.run (kernelHandler host copy) mrsTtbr0 s = some (s.kernel.ttbr0, s) := rfl

@[simp] theorem run_rdmsr :
    Prog.run (kernelHandler host copy) rdmsr s =
      some ((s.kernel.memoryTypes.extractLsb' 0 32, s.kernel.memoryTypes.extractLsb' 32 32), s) :=
  rfl

@[simp] theorem run_mrsMair :
    Prog.run (kernelHandler host copy) mrsMair s = some (s.kernel.memoryTypes, s) := rfl

end Runs

end KernelProg

end PTEditor
