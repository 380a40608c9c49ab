import PTEditor.Library.Ptedit
import PTEditor.WindowsMemoryType

/-!
# The library on Windows

The Windows half of `ptedit.c`.  Only the implementation `PTEDIT_IMPL_USER_PREAD` is supported,
and `ptedit_init` selects it: the walker and the updater are the code that Linux runs, and every
word they read or write is a request to the driver.  `pid_t` is `size_t` here.
-/

namespace PTEditor

namespace Windows

open ByteMem

/-- The global variables of `ptedit.c` that its Windows half reads, and the number of the
calling process. -/
structure Lib where
  pagingRoot : Word
  pagingDefinition : PteditPagingDefinition
  currentProcessId : Word

/-- A buffered request. -/
def request (ioControlCode : BitVec 32) (input : List (BitVec 8)) (outputLength : Nat) :
    ClientProg (List (BitVec 8)) :=
  Prog.perform { ioControlCode, input, outputLength }

variable (lib : Lib)

/-! ## Paging roots and TLB invalidation -/

/-- The process that a pid names; 0 is the caller. -/
def Lib.named (pid : Word) : Word := if pid = 0 then lib.currentProcessId else pid

/-- `ptedit_get_paging_root`. -/
def pteditGetPagingRoot (pid : Word) : ClientProg Word := do
  let cr3 : Word := 0
  let output ← request pteditorGetCr3 (bytesOfWord (lib.named pid)) 8
  pure (overwritten cr3 output &&& ~~~0xfff#64)

/-- `ptedit_invalidate_tlb_pid`, which does not send the pid. -/
def pteditInvalidateTlbPid (_ address : Word) : ClientProg Unit := do
  let _ ← request pteditorFlushTlb (bytesOfWord address) 8
  pure ()

/-! ## Implementations -/

/-- `ptedit_use_implementation`; the other implementations only print an error. -/
def pteditUseImplementation (implementation : Int) : ClientProg Lib :=
  if implementation = pteditImplUserPread then do
    let pagingRoot ← pteditGetPagingRoot lib 0
    pure { lib with pagingRoot }
  else
    pure lib

/-- `ptedit_init`, once the device is open. -/
def pteditInit (currentProcessId : Word) : ClientProg Lib := do
  let start : Lib :=
    { pagingRoot := 0
      pagingDefinition :=
        { hasPgd := 0, hasP4d := 0, hasPud := 0, hasPmd := 0, hasPt := 0, pgdEntries := 0,
          p4dEntries := 0, pudEntries := 0, pmdEntries := 0, ptEntries := 0, pageOffset := 0 }
      currentProcessId }
  let lib ← pteditUseImplementation start pteditImplUserPread
  pure { lib with pagingDefinition := .x86_64 }

/-- `ptedit_phys_read_pread`. -/
def pteditPhysReadPread (address : Word) : ClientProg Word := do
  let val : Word := 0
  let output ← request pteditorReadPhysVal (bytesOfWord address) 8
  pure (overwritten val output)

/-- `ptedit_phys_write_pwrite`. -/
def pteditPhysWritePwrite (address value : Word) : ClientProg Unit := do
  let _ ← request pteditorWritePhysVal (bytesOfWord address ++ bytesOfWord value) 16
  pure ()

/-! ## Resolving -/

/-- The root that the walker and the updater start from. -/
def pteditUserRoot (pid : Word) : ClientProg Word := do
  let root ← if pid = 0 then pure lib.pagingRoot else pteditGetPagingRoot lib pid
  pure (root &&& ~~~1#64)

/-- `ptedit_resolve_user_ext`. -/
def pteditResolveUserExt (address pid : Word) (deref : Word → ClientProg Word) :
    ClientProg PteditEntry := do
  let root ← pteditUserRoot lib pid
  let resolved ← (pteditWalk .x86_64 lib.pagingDefinition address root 0).translate deref
  pure { resolved with pid }

/-- `ptedit_resolve_user`, which `ptedit_resolve` points to. -/
def pteditResolveUser (address pid : Word) : ClientProg PteditEntry :=
  pteditResolveUserExt lib address pid pteditPhysReadPread

/-! ## Updating -/

/-- One of the five stores of `ptedit_update_user_ext`. -/
def pteditUpdateLevel (pset : Word → Word → ClientProg Unit) (root addr : Word)
    (vm current : PteditEntry) (level : Level) : ClientProg Unit :=
  if Selected lib.pagingDefinition vm current level then
    pset (updateSlot .x86_64 lib.pagingDefinition root addr current level) (vm.field level)
  else
    pure ()

/-- `ptedit_update_user_ext`. -/
def pteditUpdateUserExt (address pid : Word) (vm : PteditEntry)
    (pset : Word → Word → ClientProg Unit) : ClientProg Unit := do
  let current ← pteditResolveUser lib address pid
  let root ← pteditUserRoot lib pid
  if root = 0 then
    pure ()
  else do
    pteditUpdateLevel lib pset root address vm current .pte
    pteditUpdateLevel lib pset root address vm current .pmd
    pteditUpdateLevel lib pset root address vm current .pud
    pteditUpdateLevel lib pset root address vm current .p4d
    pteditUpdateLevel lib pset root address vm current .pgd
    pteditInvalidateTlbPid pid address

/-- `ptedit_update_user`, which `ptedit_update` points to. -/
def pteditUpdateUser (address pid : Word) (vm : PteditEntry) : ClientProg Unit := do
  pteditUpdateUserExt lib address pid vm pteditPhysWritePwrite
  pteditInvalidateTlbPid pid address

/-! ## Editing the PTE -/

/-- The body that `ptedit_pte_set_bit`, `ptedit_pte_clear_bit` and `ptedit_pte_set_pfn`
share. -/
def pteditPteEdit (address pid : Word) (edit : Word → Word) : ClientProg Unit := do
  let vm ← pteditResolveUser lib address pid
  if ¬ vm.Valid .pte then
    pure ()
  else
    pteditUpdateUser lib address pid { vm with pte := edit vm.pte, valid := Level.pte.validMask }

/-- `ptedit_pte_set_bit`. -/
def pteditPteSetBit (address pid : Word) (bit : Nat) : ClientProg Unit :=
  pteditPteEdit lib address pid fun pte => pte ||| (1#64 <<< bit)

/-- `ptedit_pte_clear_bit`. -/
def pteditPteClearBit (address pid : Word) (bit : Nat) : ClientProg Unit :=
  pteditPteEdit lib address pid fun pte => pte &&& ~~~(1#64 <<< bit)

/-- `ptedit_pte_set_pfn`. -/
def pteditPteSetPfn (address pid pfn : Word) : ClientProg Unit :=
  pteditPteEdit lib address pid fun pte => pteditSetPfn .x86_64 pte pfn

/-- `ptedit_pte_get_pfn`. -/
def pteditPteGetPfn (address pid : Word) : ClientProg Word := do
  let vm ← pteditResolveUser lib address pid
  if ¬ vm.Valid .pte then pure 0 else pure (pteditGetPfn .x86_64 vm.pte)

end Windows

end PTEditor
