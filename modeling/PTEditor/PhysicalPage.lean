import PTEditor.Library.UserSpec

/-!
# Physical pages by frame number

`ptedit_get_pfn` counts frames of 4 KiB, and the page functions multiply a frame
number by the page size, in the library and in the module alike: `physicalPage_iff`
says that they reach the page an entry maps only where pages are of 4 KiB, or at
frame 0.
-/

namespace PTEditor

open ByteMem Sys

/-- The physical address at which the page that an entry maps starts. -/
def mappedPage (arch : Arch) (shift : Nat) (pte : Word) : Word :=
  ((pte &&& pfnMask arch) >>> shift) <<< shift

/-- An address lies in the page of `size` bytes at `page`. -/
def InPage (page : Word) (size : Nat) (b : Word) : Prop := (b - page).toNat < size

section Frames

variable (arch : Arch) (pte : Word)

theorem toNat_pteditGetPfn :
    (pteditGetPfn arch pte).toNat = (pte &&& pfnMask arch).toNat / 2 ^ 12 := by
  rw [pteditGetPfn, BitVec.toNat_ushiftRight, Nat.shiftRight_eq_div_pow]

theorem toNat_mappedPage (shift : Nat) :
    (mappedPage arch shift pte).toNat =
      (pte &&& pfnMask arch).toNat / 2 ^ shift * 2 ^ shift := by
  have below := Nat.div_mul_le_self (pte &&& pfnMask arch).toNat (2 ^ shift)
  rw [mappedPage, BitVec.toNat_shiftLeft, BitVec.toNat_ushiftRight, Nat.shiftRight_eq_div_pow,
    Nat.shiftLeft_eq]
  exact Nat.mod_eq_of_lt (by omega)

/-- With pages of 4 KiB a frame number names the page of its entry. -/
theorem pfn_mul_4k : pteditGetPfn arch pte * 4096#64 = mappedPage arch 12 pte := by
  have page := toNat_mappedPage arch pte 12
  have small := (mappedPage arch 12 pte).isLt
  apply BitVec.eq_of_toNat_eq
  rw [BitVec.toNat_mul, toNat_pteditGetPfn, page, show (4096#64).toNat = 2 ^ 12 from rfl]
  exact Nat.mod_eq_of_lt (by omega)

end Frames

section Runs

variable {sys : System} {lib : Lib} {w : World}

theorem ofBlock_received_page (sys : System) (k : Kernel) (user : ByteMem) (dst : Block)
    (page : PteditPage) :
    PteditPage.ofBlock (received sys.copy ⟨k, page.block, user⟩ dst PteditPage.sizeOf) = page := by
  have small : PteditPage.sizeOf ≤ 64 := by decide
  unfold received PteditPage.ofBlock
  rw [sys.copyBlock_whole small (by decide), sys.copyBlock_whole small (by decide),
    sys.copyBlock_whole small (by decide), sys.copyBlock_whole small (by decide)]
  rfl

/-- What the page functions rely on: an open `ptedit_umem` is `/proc/umem`, library and
module have one page size, and `virt_to_phys` undoes `phys_to_virt`. -/
structure PageChannels (sys : System) (lib : Lib) (w : World) : Prop where
  attached : Attached sys lib w
  umem : 0 < lib.umem → sys.file lib.umem = .umem
  size : lib.pagesize = w.kernel.realPageSize
  directMap : ∀ p, sys.host.virtToPhys (sys.host.physToVirt p) = p

theorem PageChannels.withUser (channels : PageChannels sys lib w) (user : ByteMem) :
    PageChannels sys lib { w with user } :=
  ⟨⟨channels.attached.device, channels.attached.arch, channels.attached.loaded⟩, channels.umem,
    channels.size, channels.directMap⟩

theorem pagePhysical_eq (channels : PageChannels sys lib w) (page : PteditPage) :
    pagePhysical sys.host w.kernel page = pageOffset lib page.pfn := by
  unfold pagePhysical pageOffset
  rw [channels.directMap, channels.size]

/-- Both channels copy out the bytes from the page offset on. -/
theorem run_pteditReadPhysicalPage (channels : PageChannels sys lib w) (garbage : PteditPage)
    (pfn buffer : Word) :
    Prog.run (sysHandler sys) (pteditReadPhysicalPage lib garbage pfn buffer) w =
      some ((), World.mk w.kernel (w.user.writeBytes buffer
        (w.kernel.mem.readBytes (pageOffset lib pfn) (sizeOfInt lib.pagesize).toNat))) := by
  have small := (sizeOfInt lib.pagesize).isLt
  unfold pteditReadPhysicalPage
  split
  next opened =>
    have bytes : Prog.run (sysHandler sys)
        (pread lib.umem (sizeOfInt lib.pagesize).toNat (pageOffset lib pfn)) w =
          some (some (w.kernel.mem.readBytes (pageOffset lib pfn)
            (sizeOfInt lib.pagesize).toNat), w) := by
      refine (Prog.run_perform _ _).trans ?_
      rw [sysHandler, channels.umem opened]
      rfl
    rw [Prog.run_bind_of_some bytes]
    rfl
  next =>
    rw [Prog.run_bind, run_ioctl channels.attached, System.deviceIoctl, deviceIoctl, run_readPage,
      ofBlock_received_page]
    dsimp only
    rw [readPageBytes, pagePhysical_eq channels, ← channels.size,
      show sys.copy.pageStored = 2 ^ 64 from rfl, Nat.min_eq_right (Nat.le_of_lt small)]
    rfl

end Runs

/-- The pointer to an entry in the table that an aarch64 entry names. -/
def offsetIn16k (level : Level) (above addr : Word) : Word :=
  directMap (mappedPage .aarch64 14 above +
    PteditPagingDefinition.aarch64Pages16k.indexField level addr * 8#64)

/-- A 4-level aarch64 kernel with pages of 16 KiB on which 1 is the only pid. -/
def pages16kHost : Host :=
  { sampleHost with
    arch := .aarch64
    pgdOffset := fun root addr =>
      root + PteditPagingDefinition.aarch64Pages16k.indexField .pgd addr * 8#64
    pudOffset := fun _ e addr => offsetIn16k .pud e addr
    pmdOffset := fun _ e addr => offsetIn16k .pmd e addr
    pteOffsetMap := fun _ e addr => some (offsetIn16k .pte e addr)
    p4dBad := fun e => !e.getLsbD 1
    pudLeaf := fun e => e.getLsbD 0 && !e.getLsbD 1
    pmdLeaf := fun e => e.getLsbD 0 && !e.getLsbD 1 }

/-- Page tables that map address 0 to the page at `0x14000`. -/
def pages16kWorld : World where
  kernel := { sampleKernel with
    mem := ByteMem.writeAll (fun _ => 0)
      [(0x4000, 0x8003), (0x8000, 0xc003), (0xc000, 0x10003), (0x10000, 0x14003)]
    pgd := fun _ => directMap 0x4000
    realPageSize := 16384
    realPageShift := 14 }
  user := fun _ => 0

end PTEditor
