import PTEditor.Module.Linux
import PTEditor.Module.RawCopy

/-!
# Copies from user space that fail

No command of `device_ioctl` looks at the result of the copy of its argument: it goes
on with the bytes that arrived, over whatever the destination held before, and what it
copies afterwards goes through pointers that nothing has checked.  `failedCopy_intact_iff`
says which bytes of physical memory each command then stores, and when they leave the
kernel as it was.
-/

namespace PTEditor

open KernelProg ByteMem

/-- The copy of a command's argument structure stops before its end. -/
def CopyFails (copy : UserCopy) (cmd : Cmd) : Prop :=
  ∃ size, cmd.argSize = some size ∧ copy.copied < size

/-- No page, no root pointer and no memory type has changed. -/
structure Intact (k k' : Kernel) : Prop where
  mem : k'.mem = k.mem
  pgd : k'.pgd = k.pgd
  memoryTypes : k'.memoryTypes = k.memoryTypes

/-- What a command stores has no effect: the byte that it stores last at an address is the
one that is there. -/
def Harmless (host : Host) (copy : UserCopy) (place : Placement) (param : Word) (k : Kernel)
    (cmd : Cmd) : Prop :=
  let stores := place.stores host copy param k cmd
  ∀ store ∈ stores, lastStore stores store.1 = some (k.mem store.1)

section Commands

variable {host : Host} {copy : UserCopy} {place : Placement} {k : Kernel} {cmd : Cmd}

/-- Root pointers are intact where memory is. -/
theorem intact_after_iff (holds : place.Holds k) (param : Word) :
    Intact k (place.after host copy param k cmd) ↔ Harmless host copy place param k cmd := by
  refine Iff.trans ?_ (storeBytes_eq_self_iff k.mem)
  constructor
  · exact fun intact => intact.mem
  · intro same
    refine ⟨same, ?_, rfl⟩
    rw [Placement.after, same, holds.withMem_self]

theorem run_raw_deviceIoctl (loaded : k.Loaded host) (holds : place.Holds k)
    (argument : cmd.argSize.isSome) (param : Word) :
    ∃ r, Prog.run (rawHandler host copy place param) (deviceIoctl host cmd param) k =
      some (r, place.after host copy param k cmd) := by
  cases cmd with
  | vmResolve => exact ⟨0, run_raw_vmResolve holds⟩
  | vmUpdate => exact ⟨0, run_raw_vmUpdate holds loaded⟩
  | readPage => exact ⟨0, run_raw_readPage holds⟩
  | writePage => exact ⟨0, run_raw_writePage holds⟩
  | getRoot => exact run_raw_getRoot holds
  | setRoot => exact run_raw_setRoot holds
  | invalidateTlbPid => exact ⟨0, run_raw_invalidateTlbPid holds loaded⟩
  | _ => cases argument

end Commands

/-- **A failed copy of the argument** leaves the kernel intact exactly when what the command
stores has no effect. -/
theorem failedCopy_intact_iff {host : Host} {copy : UserCopy} {place : Placement} {k : Kernel}
    {cmd : Cmd} (loaded : k.Loaded host) (holds : place.Holds k) (failed : CopyFails copy cmd)
    (param : Word) :
    ∃ r k', Prog.run (rawHandler host copy place param) (deviceIoctl host cmd param) k =
        some (r, k') ∧
      (Intact k k' ↔ Harmless host copy place param k cmd) ∧
      k'.mem = k.mem.storeBytes (place.stores host copy param k cmd) ∧
      (∀ mm, k'.pgd mm = k'.mem.read (place.pgdField mm)) ∧
      k'.memoryTypes = k.memoryTypes := by
  obtain ⟨size, needs, -⟩ := failed
  have argument : cmd.argSize.isSome := by
    rw [needs]
    rfl
  obtain ⟨r, run⟩ := @run_raw_deviceIoctl host copy place k cmd loaded holds argument param
  exact ⟨r, _, run, intact_after_iff holds param, rfl, fun _ => rfl, rfl⟩

/-! ## On the sample machine -/

/-- The sample machine's memory, whose mms keep their root pointers at `0x8000`. -/
def samplePlacement : Placement where
  physical := fun a => a
  pgdField := fun _ => 0x8000

def rawSampleKernel : Kernel :=
  { sampleKernel with mem := sampleMem.write 0x8000 (directMap 0x1000) }

theorem rawSampleKernel_holds : samplePlacement.Holds rawSampleKernel :=
  fun _ => (read_write_self sampleMem 0x8000 (directMap 0x1000)).symm

/-- A call whose argument pointer is not readable. -/
def unreadable : UserCopy :=
  { copied := 0, stored := 0, pageCopied := 0, pageStored := 0, locals := fun _ => 0 }

/-- SET_ROOT with an unreadable argument points the caller's mm to frame 0. -/
theorem setRoot_unreadable :
    CopyFails unreadable .setRoot ∧
    ∃ r k', Prog.run (rawHandler sampleHost unreadable samplePlacement 0)
        (deviceIoctl sampleHost .setRoot 0) rawSampleKernel = some (r, k') ∧
      rawSampleKernel.pgd 0 = directMap 0x1000 ∧ k'.pgd 0 = directMap 0 ∧
      ¬ Intact rawSampleKernel k' := by
  have failed : CopyFails unreadable .setRoot := ⟨PteditPaging.size, rfl, by decide⟩
  obtain ⟨r, run⟩ := @run_raw_setRoot sampleHost unreadable samplePlacement 0 rawSampleKernel
    rawSampleKernel_holds
  have moved : (samplePlacement.after sampleHost unreadable 0 rawSampleKernel .setRoot).pgd 0 =
      directMap 0 := by
    decide +kernel
  refine ⟨failed, r, _, run, rfl, moved, fun intact => ?_⟩
  have same := congrFun intact.pgd 0
  exact absurd (moved.symm.trans same) (by decide)

/-- The stack holds an update of page 0 to the PTE that it has. -/
def staleUpdate : UserCopy :=
  { unreadable with
    locals := PteditEntry.block
      { pid := 0, vaddr := 0, pgd := 0, p4d := 0, pud := 0, pmd := 0, pte := 0x5003,
        valid := Level.pte.validMask } }

/-- An unreadable VM_UPDATE leaves the sample machine intact if it stores the PTE that is
there. -/
theorem failedCopy_intact_iff_sample :
    ∃ r k', Prog.run (rawHandler sampleHost staleUpdate samplePlacement 0)
        (deviceIoctl sampleHost .vmUpdate 0) rawSampleKernel = some (r, k') ∧
      Intact rawSampleKernel k' := by
  have failed : CopyFails staleUpdate .vmUpdate := ⟨PteditEntry.size, rfl, by decide⟩
  have loaded : rawSampleKernel.Loaded sampleHost := ⟨rfl, fun _ => rfl⟩
  let stores := samplePlacement.stores sampleHost staleUpdate 0 rawSampleKernel .vmUpdate
  have already : stores.all (fun store => decide
      (lastStore stores store.1 = some (rawSampleKernel.mem store.1))) = true := by
    decide +kernel
  simp only [List.all_eq_true, decide_eq_true_eq] at already
  obtain ⟨r, k', run, intact, -⟩ :=
    failedCopy_intact_iff loaded rawSampleKernel_holds failed 0
  exact ⟨r, k', run, intact.mpr already⟩

end PTEditor
