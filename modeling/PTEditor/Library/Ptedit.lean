import PTEditor.Library.System
import PTEditor.Library.Walk

/-!
# The library

The functions of `ptedit.c` on Linux that resolve and update page tables, with the
library's global variables (`Lib`) as an argument.  `ptedit_resolve` and
`ptedit_update` are function pointers in the source; `Implementation` says what
they point to.
-/

namespace PTEditor

open Sys

/-- What `ptedit_resolve` and `ptedit_update` point to; `unset` until
`ptedit_use_implementation` is called for the first time. -/
inductive Implementation where
  | unset
  | kernel
  | userPread
  | user
  deriving DecidableEq, Repr

/-- The global variables of `ptedit.c`. -/
structure Lib where
  arch : Arch
  fd : Int
  umem : Int
  pagesize : Pid
  pagingRoot : Word
  vmem : Mapping
  pagingDefinition : PteditPagingDefinition
  implementation : Implementation

variable (lib : Lib)

/-! ## Paging roots and TLB invalidation -/

/-- `ptedit_get_paging_root`. -/
def pteditGetPagingRoot (pid : Pid) : Sys Word := do
  let (_, cr3) ← ioctl lib.fd .getRoot 0 (PteditPaging.block { pid := sizeOfInt pid, root := 0 })
  pure (PteditPaging.ofBlock cr3).root

/-- `ptedit_set_paging_root`. -/
def pteditSetPagingRoot (pid : Pid) (root : Word) : Sys Unit := do
  let _ ← ioctl lib.fd .setRoot 0 (PteditPaging.block { pid := sizeOfInt pid, root })
  pure ()

/-- `ptedit_invalidate_tlb_pid`. -/
def pteditInvalidateTlbPid (pid : Pid) (address : Word) : Sys Unit := do
  -- the pid that the source passes after the argument goes nowhere
  let _ ← ioctl lib.fd .invalidateTlbPid 0 (PteditInvalidateTlbArgs.block { pid, address })
  pure ()

/-- `ptedit_invalidate_tlb`. -/
def pteditInvalidateTlb (address : Word) : Sys Unit := do
  let _ ← ioctl lib.fd .invalidateTlb address (fun _ => 0)
  pure ()

/-- `ptedit_get_pagesize`. -/
def pteditGetPagesize : Sys Int := do
  let (result, _) ← ioctl lib.fd .getPagesize 0 (fun _ => 0)
  pure result

/-- `ptedit_switch_tlb_invalidation`. -/
def pteditSwitchTlbInvalidation (implementation : Pid) : Sys Int := do
  let (result, _) ← ioctl lib.fd .switchTlbInvalidation (sizeOfInt implementation) (fun _ => 0)
  pure result

/-- `ptedit_full_serializing_barrier`; the fences have no effect on the state. -/
def pteditFullSerializingBarrier : Sys Unit := do
  let root ← pteditGetPagingRoot lib 0
  pteditSetPagingRoot lib 0 root

/-- `PTEDIT_IMPL_KERNEL`. -/
def pteditImplKernel : Int := 0

/-- `PTEDIT_IMPL_USER_PREAD`. -/
def pteditImplUserPread : Int := 1

/-- `PTEDIT_IMPL_USER`. -/
def pteditImplUser : Int := 2

/-- The length of the window that `PTEDIT_IMPL_USER` maps, `32ull << 30ull`. -/
def vmemLength : Nat := 2 ^ 35

/-- `ptedit_use_implementation`; an unknown implementation changes nothing. -/
def pteditUseImplementation (implementation : Int) : Sys Lib :=
  if implementation = pteditImplKernel then
    pure { lib with implementation := .kernel }
  else if implementation = pteditImplUserPread then do
    let root ← pteditGetPagingRoot lib 0
    pure { lib with implementation := .userPread, pagingRoot := root }
  else if implementation = pteditImplUser then do
    let root ← pteditGetPagingRoot lib 0
    let vmem ← if lib.vmem = .null then mmap lib.umem vmemLength 0 else pure lib.vmem
    pure { lib with implementation := .user, pagingRoot := root, vmem }
  else
    pure lib

/-! ## Access to physical memory -/

/-- `ptedit_phys_read_map`. -/
def pteditPhysReadMap (address : Word) : Sys Word := load lib.vmem address

/-- `ptedit_phys_write_map`. -/
def pteditPhysWriteMap (address value : Word) : Sys Unit := store lib.vmem address value

/-- `ptedit_phys_read_pread`: the bytes that `pread` delivers, over a zero. -/
def pteditPhysReadPread (address : Word) : Sys Word := do
  let bytes ← pread lib.umem 8 address
  pure (ByteMem.wordOfBytes (bytes.getD []))

/-- `ptedit_phys_write_pwrite`. -/
def pteditPhysWritePwrite (address value : Word) : Sys Unit := do
  let _ ← pwrite lib.umem (ByteMem.bytesOfWord value) address
  pure ()

/-! ## Resolving -/

/-- `ptedit_resolve_kernel`. -/
def pteditResolveKernel (address : Word) (pid : Pid) : Sys PteditEntry := do
  let (_, vm) ← ioctl lib.fd .vmResolve 0 (PteditEntry.cleared address (sizeOfInt pid)).block
  pure (PteditEntry.ofBlock vm)

/-- The root that the user-space walker and updater start from. -/
def pteditUserRoot (pid : Pid) : Sys Word := do
  let root ← if pid = 0 then pure lib.pagingRoot else pteditGetPagingRoot lib pid
  pure (root &&& ~~~1#64)

/-- `ptedit_resolve_user_ext`. -/
def pteditResolveUserExt (address : Word) (pid : Pid) (deref : Word → Sys Word) :
    Sys PteditEntry := do
  let root ← pteditUserRoot lib pid
  (pteditWalk lib.arch lib.pagingDefinition address root pid).translate deref

/-- `ptedit_resolve_user`. -/
def pteditResolveUser (address : Word) (pid : Pid) : Sys PteditEntry :=
  pteditResolveUserExt lib address pid (pteditPhysReadPread lib)

/-- `ptedit_resolve_user_map`. -/
def pteditResolveUserMap (address : Word) (pid : Pid) : Sys PteditEntry :=
  pteditResolveUserExt lib address pid (pteditPhysReadMap lib)

/-- A call through `ptedit_resolve`. -/
def pteditResolve (address : Word) (pid : Pid) : Sys PteditEntry :=
  match lib.implementation with
  | .unset => do
      crash
      pure (PteditEntry.cleared 0 0)
  | .kernel => pteditResolveKernel lib address pid
  | .userPread => pteditResolveUser lib address pid
  | .user => pteditResolveUserMap lib address pid

/-! ## Updating -/

/-- `ptedit_update_kernel`. -/
def pteditUpdateKernel (address : Word) (pid : Pid) (vm : PteditEntry) : Sys Unit := do
  let vm := { vm with vaddr := address, pid := sizeOfInt pid }
  let _ ← ioctl lib.fd .vmUpdate 0 vm.block
  pure ()

/-- Where `ptedit_update_user_ext` stores a level: the slot that the resolved entry
above names, or the root's. -/
def updateSlot (arch : Arch) (d : PteditPagingDefinition) (root addr : Word)
    (current : PteditEntry) (level : Level) : Word :=
  match level.above with
  | none => root + d.index level addr * pteditEntrySize
  | some up => tableSlot arch (current.field up) (d.index level addr)

/-- The test before one of the five stores; the PTE has no `has_…` test. -/
def Selected (d : PteditPagingDefinition) (vm current : PteditEntry) (level : Level) : Prop :=
  vm.Valid level ∧ current.Valid level ∧ (level = .pte ∨ d.has level ≠ 0)

instance (d : PteditPagingDefinition) (vm current : PteditEntry) (level : Level) :
    Decidable (Selected d vm current level) :=
  inferInstanceAs (Decidable (_ ∧ _ ∧ _))

/-- One of the five stores of `ptedit_update_user_ext`. -/
def pteditUpdateLevel (pset : Word → Word → Sys Unit) (root addr : Word)
    (vm current : PteditEntry) (level : Level) : Sys Unit :=
  if Selected lib.pagingDefinition vm current level then
    pset (updateSlot lib.arch lib.pagingDefinition root addr current level) (vm.field level)
  else
    pure ()

/-- `ptedit_update_user_ext`. -/
def pteditUpdateUserExt (address : Word) (pid : Pid) (vm : PteditEntry)
    (pset : Word → Word → Sys Unit) : Sys Unit := do
  let current ← pteditResolve lib address pid
  let root ← pteditUserRoot lib pid
  if root = 0 then
    pure ()
  else do
    pteditUpdateLevel lib pset root address vm current .pte
    pteditUpdateLevel lib pset root address vm current .pmd
    pteditUpdateLevel lib pset root address vm current .pud
    pteditUpdateLevel lib pset root address vm current .p4d
    pteditUpdateLevel lib pset root address vm current .pgd
    pteditInvalidateTlbPid lib pid address

/-- `ptedit_update_user`. -/
def pteditUpdateUser (address : Word) (pid : Pid) (vm : PteditEntry) : Sys Unit := do
  pteditUpdateUserExt lib address pid vm (pteditPhysWritePwrite lib)
  pteditInvalidateTlbPid lib pid address

/-- `ptedit_update_user_map`. -/
def pteditUpdateUserMap (address : Word) (pid : Pid) (vm : PteditEntry) : Sys Unit := do
  pteditUpdateUserExt lib address pid vm (pteditPhysWriteMap lib)
  pteditInvalidateTlbPid lib pid address

/-- A call through `ptedit_update`. -/
def pteditUpdate (address : Word) (pid : Pid) (vm : PteditEntry) : Sys Unit :=
  match lib.implementation with
  | .unset => crash
  | .kernel => pteditUpdateKernel lib address pid vm
  | .userPread => pteditUpdateUser lib address pid vm
  | .user => pteditUpdateUserMap lib address pid vm

/-! ## Editing the PTE -/

/-- The body that `ptedit_pte_set_bit`, `ptedit_pte_clear_bit` and
`ptedit_pte_set_pfn` share. -/
def pteditPteEdit (address : Word) (pid : Pid) (edit : Word → Word) : Sys Unit := do
  let vm ← pteditResolve lib address pid
  if ¬ vm.Valid .pte then
    pure ()
  else
    pteditUpdate lib address pid { vm with pte := edit vm.pte, valid := Level.pte.validMask }

/-- `ptedit_pte_set_bit`. -/
def pteditPteSetBit (address : Word) (pid : Pid) (bit : Nat) : Sys Unit :=
  pteditPteEdit lib address pid fun pte => pte ||| (1#64 <<< bit)

/-- `ptedit_pte_clear_bit`. -/
def pteditPteClearBit (address : Word) (pid : Pid) (bit : Nat) : Sys Unit :=
  pteditPteEdit lib address pid fun pte => pte &&& ~~~(1#64 <<< bit)

/-- `ptedit_pte_set_pfn`. -/
def pteditPteSetPfn (address : Word) (pid : Pid) (pfn : Word) : Sys Unit :=
  pteditPteEdit lib address pid fun pte => pteditSetPfn lib.arch pte pfn

/-- `ptedit_pte_get_bit`. -/
def pteditPteGetBit (address : Word) (pid : Pid) (bit : Nat) : Sys Bool := do
  let vm ← pteditResolve lib address pid
  pure (decide (vm.pte &&& (1#64 <<< bit) ≠ 0))

/-- `ptedit_pte_get_pfn`. -/
def pteditPteGetPfn (address : Word) (pid : Pid) : Sys Word := do
  let vm ← pteditResolve lib address pid
  if ¬ vm.Valid .pte then pure 0 else pure (pteditGetPfn lib.arch vm.pte)

/-! ## Physical pages -/

/-- `ptedit_pmap`: a mapping, and the place in it that the pointer names. -/
def pteditPmap (physical length : Word) : Sys (Mapping × Word) := do
  let m ← mmap lib.umem (length + physical % sizeOfInt lib.pagesize).toNat
    (physical / sizeOfInt lib.pagesize * sizeOfInt lib.pagesize)
  pure (m, physical % sizeOfInt lib.pagesize)

/-- `pfn * ptedit_pagesize`. -/
def pageOffset (pfn : Word) : Word := pfn * sizeOfInt lib.pagesize

/-- `ptedit_read_physical_page`.  The ioctl leaves two fields of its argument
uninitialised: they are those of `garbage`. -/
def pteditReadPhysicalPage (garbage : PteditPage) (pfn buffer : Word) : Sys Unit :=
  if 0 < lib.umem then do
    let bytes ← pread lib.umem (sizeOfInt lib.pagesize).toNat (pageOffset lib pfn)
    match bytes with
    | none => pure ()
    | some bytes => writeUser buffer bytes
  else do
    let _ ← ioctl lib.fd .readPage 0 (PteditPage.block { garbage with buffer, pfn })
    pure ()

end PTEditor
