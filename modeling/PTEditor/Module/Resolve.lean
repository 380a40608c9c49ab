import PTEditor.Module.Kernel

/-!
# Resolving and updating in the module

`get_mm`, `resolve_vm`, `update_vm`, `vm_to_user` and the TLB functions of
`module/pteditor.c`.  The part of `resolve_vm` between taking and dropping the
lock only reads words, so it is a `ReadProg` (`resolveTables`); `kernelResolve` is
its value in a kernel state, and `run_resolveVm` says that running `resolve_vm`
yields that value and leaves the state alone.
-/

namespace PTEditor

open KernelProg

/-- The mm that `get_mm` takes from a task. -/
def Task.theMm (task : Task) : Option Mm :=
  match task.mm with
  | some mm => some mm
  | none => task.activeMm

/-- `get_mm`; its `size_t` argument is converted to the `int` of `find_vpid`. -/
def Host.getMm (host : Host) (pid : Word) : Option Mm :=
  if pid = 0 then
    host.current.theMm
  else
    match host.findVpid host.current.pidNs (intOfSize pid) with
    | none => none
    | some vpid =>
        match host.pidTask vpid with
        | none => none
        | some task => task.theMm

/-! ## TLB invalidation -/

/-- `invalidate_tlb_custom`; its callback only warns on x86_64. -/
def invalidateTlbCustom (host : Host) (_pid : Pid) (_addr : Word) : KernelProg Unit :=
  match host.arch with
  | .x86_64 => pure ()
  | .aarch64 => tlbiAllOnEachCpu

/-- `invalidate_tlb_kernel`. -/
def invalidateTlbKernel (host : Host) (pid : Pid) (addr : Word) : KernelProg Unit :=
  match host.arch with
  | .x86_64 =>
      match host.getMm (sizeOfInt pid) with
      | none => pure ()
      | some mm => do
          let size ← pageSize
          let shift ← pageShift
          flushTlbMmRange mm addr (addr + sizeOfInt size) shift
  | .aarch64 =>
      match host.findVma host.current.mm addr with
      | none => pure ()
      | some vma => if addr < vma.vmStart then pure () else flushTlbPageOnEachCpu vma addr

/-- A call through `invalidate_tlb`. -/
def callInvalidateTlb (host : Host) (pid : Pid) (addr : Word) : KernelProg Unit := do
  let method ← invalidateTlb
  match method with
  | .kernel => invalidateTlbKernel host pid addr
  | .custom => invalidateTlbCustom host pid addr

/-! ## Resolving -/

/-- `vm_t`; a `NULL` pointer is `none`. -/
structure Vm where
  pid : Word
  pgd : Option Word
  p4d : Option Word
  pud : Option Word
  pmd : Option Word
  pte : Option Word
  valid : Word
  deriving DecidableEq, Repr

namespace Vm

/-- The entry pointer of a level. -/
def pointer (vm : Vm) : Level → Option Word
  | .pgd => vm.pgd
  | .p4d => vm.p4d
  | .pud => vm.pud
  | .pmd => vm.pmd
  | .pte => vm.pte

/-- `vm.valid & PTEDIT_VALID_MASK_…`. -/
def Valid (vm : Vm) (level : Level) : Prop :=
  vm.valid &&& level.validMask ≠ 0

instance (vm : Vm) (level : Level) : Decidable (vm.Valid level) :=
  inferInstanceAs (Decidable (_ ≠ _))

/-- What the first lines of `resolve_vm` make of a `vm_t`. -/
def cleared (pid : Word) : Vm :=
  { pid, pgd := none, p4d := none, pud := none, pmd := none, pte := none, valid := 0 }

end Vm

/-- The walk of `resolve_vm` from the `mm->pgd` it finds, with its return value.
Each entry is read once here; a pointer that fails its test is set back to `NULL`. -/
def resolveTables (host : Host) (root addr : Word) (entry : Vm) : ReadProg (Int × Vm) := do
  let pgdPtr := host.pgdOffset root addr
  let pgd ← readWord pgdPtr
  if host.pgdNone pgd || host.pgdBad pgd then
    pure (1, { entry with pgd := none })
  else
    let entry := { entry with pgd := some pgdPtr, valid := entry.valid ||| Level.pgd.validMask }
    let p4dPtr := host.p4dOffset pgdPtr pgd addr
    let p4d ← readWord p4dPtr
    if host.p4dNone p4d || host.p4dBad p4d then
      pure (1, { entry with p4d := none })
    else
      let entry := { entry with p4d := some p4dPtr, valid := entry.valid ||| Level.p4d.validMask }
      let pudPtr := host.pudOffset p4dPtr p4d addr
      let pud ← readWord pudPtr
      if host.pudNone pud then
        pure (1, { entry with pud := none })
      else
        let entry :=
          { entry with pud := some pudPtr, valid := entry.valid ||| Level.pud.validMask }
        let pmdPtr := host.pmdOffset pudPtr pud addr
        let pmd ← readWord pmdPtr
        -- the PUD leaf test comes after the read through the PUD entry
        if host.pmdNone pmd || host.pudLeaf pud then
          pure (1, { entry with pmd := none })
        else
          let entry :=
            { entry with pmd := some pmdPtr, valid := entry.valid ||| Level.pmd.validMask }
          match host.pteOffsetMap pmdPtr pmd addr with
          | none => pure (1, { entry with pte := none })
          | some ptePtr =>
              if host.pmdLeaf pmd then
                pure (1, { entry with pte := none })
              else
                pure (0, { entry with
                  pte := some ptePtr, valid := entry.valid ||| Level.pte.validMask })

/-- `resolve_vm`, which every caller gives a non-null entry. -/
def resolveVm (host : Host) (addr : Word) (pid : Word) (lock : Bool) : KernelProg (Int × Vm) :=
  match host.getMm pid with
  | none => pure (1, Vm.cleared pid)
  | some mm => do
      when lock (mmapReadLock mm)
      let root ← mmPgd mm
      let result ← (resolveTables host root addr (Vm.cleared pid)).translate readEntry
      when lock (mmapReadUnlock mm)
      pure result

/-- `*pointer`, or the value a field keeps when the pointer is `NULL`. -/
def loadField (pointer : Option Word) (kept : Word) : ReadProg Word :=
  match pointer with
  | none => pure kept
  | some pointer => readWord pointer

/-- `vm_to_user`. -/
def vmToUser (user : PteditEntry) (vm : Vm) : ReadProg PteditEntry := do
  let p4d ← loadField vm.p4d user.p4d
  let pgd ← loadField vm.pgd user.pgd
  let pmd ← loadField vm.pmd user.pmd
  let pud ← loadField vm.pud user.pud
  let pte ← loadField vm.pte user.pte
  pure { user with pgd, p4d, pud, pmd, pte, valid := vm.valid }

/-! ## Updating -/

/-- One of the five stores of `update_vm`. -/
def updateLevel (old : Vm) (new : PteditEntry) (level : Level) : KernelProg Unit :=
  when (old.Valid level ∧ new.Valid level) (setEntry level (old.pointer level) (new.field level))

/-- `update_vm`. -/
def updateVm (host : Host) (new : PteditEntry) (lock : Bool) : KernelProg Int :=
  match host.getMm new.pid with
  | none => pure 1
  | some mm => do
      when lock (mmapWriteLock mm)
      let resolved ← resolveVm host new.vaddr new.pid false
      let old := resolved.2
      updateLevel old new .pgd
      updateLevel old new .p4d
      updateLevel old new .pud
      updateLevel old new .pmd
      updateLevel old new .pte
      -- the pid goes through the `pid_t` parameter of `invalidate_tlb`
      callInvalidateTlb host (intOfSize old.pid) new.vaddr
      when lock (mmapWriteUnlock mm)
      pure 0

end PTEditor
