import PTEditor.Module.ResolveSpec

/-!
# A 4-level x86_64 kernel

`FourLevel` states what the module and its users rely on when the running kernel
is a 4-level x86_64 Linux: the folded P4D, the emptiness and leaf tests, and macros
that index a table as the hardware does.  `linuxHost` is such a kernel, with a
direct map at `pageOffsetBase` and any process table.
-/

namespace PTEditor

/-- Bits 12 to 51 of an entry: the frame number that the hardware uses. -/
def hardwareFrame (entry : Word) : Word := bitField 12 40 entry

/-- The 28-bit frame field of an entry is its frame when that is small enough. -/
theorem pfn_eq_hardwareFrame {entry : Word} (small : (hardwareFrame entry).toNat < 2 ^ 28) :
    PteditPgd.pfn .x86_64 entry = hardwareFrame entry :=
  bitField_eq_of_lt (by decide) small

/-- A present entry that does not map a large page. -/
def PointsToTable (entry : Word) : Prop :=
  entry.getLsbD 0 = true ∧ entry.getLsbD 7 = false

instance (entry : Word) : Decidable (PointsToTable entry) := inferInstanceAs (Decidable (_ ∧ _))

/-- The physical address of the slot that the hardware reads in the table that an
entry names. -/
def hardwareSlot (level : Level) (above addr : Word) : Word :=
  hardwareFrame above * 4096#64 + PteditPagingDefinition.x86_64.indexField level addr * 8#64

/-- The macros of a 4-level x86_64 kernel. -/
structure FourLevel (host : Host) : Prop where
  arch : host.arch = .x86_64
  pgdNone : ∀ e, host.pgdNone e = false
  pgdBad : ∀ e, host.pgdBad e = false
  p4dNone : ∀ e, host.p4dNone e = decide (e = 0)
  pudNone : ∀ e, host.pudNone e = decide (e = 0)
  pmdNone : ∀ e, host.pmdNone e = decide (e = 0)
  p4dBad : ∀ e, PointsToTable e → host.p4dBad e = false
  pudLeaf : ∀ e, host.pudLeaf e = (e.getLsbD 0 && e.getLsbD 7)
  pmdLeaf : ∀ e, host.pmdLeaf e = (e.getLsbD 0 && e.getLsbD 7)
  pgdOffset : ∀ root addr, host.virtToPhys (host.pgdOffset root addr) =
    host.virtToPhys root + PteditPagingDefinition.x86_64.indexField .pgd addr * 8#64
  p4dOffset : ∀ pointer e addr, host.p4dOffset pointer e addr = pointer
  pudOffset : ∀ pointer e addr, PointsToTable e →
    host.virtToPhys (host.pudOffset pointer e addr) = hardwareSlot .pud e addr
  pmdOffset : ∀ pointer e addr, PointsToTable e →
    host.virtToPhys (host.pmdOffset pointer e addr) = hardwareSlot .pmd e addr
  pteOffset : ∀ pointer e addr, ∃ slot, host.pteOffsetMap pointer e addr = some slot ∧
    (PointsToTable e → host.virtToPhys slot = hardwareSlot .pte e addr)

/-- Where the direct map of physical memory starts. -/
def pageOffsetBase : Word := 0xffff888000000000

/-- `__va` and `__pa` in the direct map. -/
def directMap (physical : Word) : Word := physical + pageOffsetBase

def physicalOf (virtual : Word) : Word := virtual - pageOffsetBase

@[simp] theorem physicalOf_directMap (physical : Word) :
    physicalOf (directMap physical) = physical :=
  BitVec.add_sub_cancel physical pageOffsetBase

/-- The pointer that an `X_offset` macro computes; a large entry names a frame whose
low bits are not part of the address. -/
def offsetIn (level : Level) (largeBits : Nat) (above addr : Word) : Word :=
  let frame :=
    if above.getLsbD 7 then (hardwareFrame above >>> largeBits) <<< largeBits
    else hardwareFrame above
  directMap (frame * 4096#64 + PteditPagingDefinition.x86_64.indexField level addr * 8#64)

/-- A 4-level x86_64 kernel with a given process table.  Of the flags that `p4d_bad`
refuses only the size bit is kept: the kernel sets no other in an entry that points
to a table. -/
def linuxHost (current : Task) (findVpid : Nat → Pid → Option Nat) (pidTask : Nat → Option Task)
    (findVma : Option Mm → Word → Option Vma) : Host where
  arch := .x86_64
  current := current
  findVpid := findVpid
  pidTask := pidTask
  physToVirt := directMap
  virtToPhys := physicalOf
  pgdOffset := fun root addr =>
    root + PteditPagingDefinition.x86_64.indexField .pgd addr * 8#64
  p4dOffset := fun pointer _ _ => pointer
  pudOffset := fun _ e addr => offsetIn .pud 0 e addr
  pmdOffset := fun _ e addr => offsetIn .pmd 18 e addr
  pteOffsetMap := fun _ e addr => some (offsetIn .pte 9 e addr)
  pgdNone := fun _ => false
  pgdBad := fun _ => false
  p4dNone := fun e => decide (e = 0)
  p4dBad := fun e => e.getLsbD 7
  pudNone := fun e => decide (e = 0)
  pmdNone := fun e => decide (e = 0)
  pudLeaf := fun e => e.getLsbD 0 && e.getLsbD 7
  pmdLeaf := fun e => e.getLsbD 0 && e.getLsbD 7
  findVma := findVma

theorem physicalOf_offsetIn (level : Level) (largeBits : Nat) {above : Word} (addr : Word)
    (table : PointsToTable above) :
    physicalOf (offsetIn level largeBits above addr) = hardwareSlot level above addr := by
  unfold offsetIn
  rw [physicalOf_directMap, if_neg (by rw [table.2]; decide)]
  rfl

theorem linuxHost_fourLevel (current : Task) (findVpid : Nat → Pid → Option Nat)
    (pidTask : Nat → Option Task) (findVma : Option Mm → Word → Option Vma) :
    FourLevel (linuxHost current findVpid pidTask findVma) where
  arch := rfl
  pgdNone := fun _ => rfl
  pgdBad := fun _ => rfl
  p4dNone := fun _ => rfl
  pudNone := fun _ => rfl
  pmdNone := fun _ => rfl
  p4dBad := fun _ table => table.2
  pudLeaf := fun _ => rfl
  pmdLeaf := fun _ => rfl
  pgdOffset := by
    intro root addr
    change root + _ - pageOffsetBase = root - pageOffsetBase + _
    rw [BitVec.sub_eq_add_neg, BitVec.sub_eq_add_neg, BitVec.add_assoc, BitVec.add_assoc,
      BitVec.add_comm (_ * _)]
  p4dOffset := fun _ _ _ => rfl
  pudOffset := fun _ _ addr table => physicalOf_offsetIn .pud 0 addr table
  pmdOffset := fun _ _ addr table => physicalOf_offsetIn .pmd 18 addr table
  pteOffset := fun _ _ addr => ⟨_, rfl, fun table => physicalOf_offsetIn .pte 9 addr table⟩

/-! ## A machine with one process -/

def sampleTask : Task := { mm := some 0, activeMm := some 0, nr := 1, pidNs := 0 }

/-- A machine on which 1 is the only pid. -/
def sampleHost : Host :=
  linuxHost sampleTask (fun _ pid => if pid = 1 then some 0 else none) (fun _ => some sampleTask)
    (fun _ _ => none)

theorem sampleHost_fourLevel : FourLevel sampleHost := linuxHost_fourLevel _ _ _ _

/-- Page tables at `0x1000` to `0x4000` that map address 0 to frame 5. -/
def sampleMem : ByteMem :=
  ByteMem.writeAll (fun _ => 0)
    [(0x1000, 0x2003), (0x2000, 0x3003), (0x3000, 0x4003), (0x4000, 0x5003)]

def sampleKernel : Kernel where
  mem := sampleMem
  pgd := fun _ => directMap 0x1000
  mmIsLocked := false
  invalidateTlb := some .kernel
  flushTlbMmRangeFunc := true
  realPageSize := 4096
  realPageShift := 12
  memoryTypes := 0x0407050600070106
  ttbr0 := 0

theorem sampleKernel_loaded : sampleKernel.Loaded sampleHost :=
  ⟨rfl, fun _ => rfl⟩

/-- Copies that never fail. -/
def wholeCopy : UserCopy :=
  { copied := 64, stored := 64, pageCopied := 4096, pageStored := 4096, locals := fun _ => 0 }

end PTEditor
