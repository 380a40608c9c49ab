import PTEditor.Module.IoctlSpec

/-!
# Copies through any pointer

`from_user` and `to_user` are `raw_copy_from_user` and `raw_copy_to_user`, which do not
check that their pointer is one of user space.  Here the pointers of a call lead into the
physical memory that everything else is in (`Placement`): through the direct map to any
page, and to the root pointer of any mm.  `rawHandler` has the operations on that memory;
`run_silent` takes a run that changes nothing over from `kernelHandler`.

A copy reads all its bytes before it stores the first, and what is behind an address does
not change during a call.
-/

namespace PTEditor

open KernelProg ByteMem

/-- Where the pointers of a call lead: the physical address behind each virtual one, of user
space or of the kernel, and the physical address of the `pgd` of each mm. -/
structure Placement where
  physical : Word → Word
  pgdField : Mm → Word

/-- The root pointers are in physical memory. -/
def Placement.Holds (place : Placement) (k : Kernel) : Prop :=
  ∀ mm, k.pgd mm = k.mem.read (place.pgdField mm)

/-- A kernel state with other contents of physical memory, root pointers included. -/
def Placement.withMem (place : Placement) (k : Kernel) (mem : ByteMem) : Kernel :=
  { k with mem, pgd := fun mm => mem.read (place.pgdField mm) }

/-- Physical memory as virtual addresses show it. -/
def Placement.shown (place : Placement) (mem : ByteMem) : ByteMem := fun a => mem (place.physical a)

/-- What a call with the parameter `param` finds. -/
def Placement.view (place : Placement) (param : Word) (k : Kernel) : CallState where
  kernel := k
  arg := fun i => (place.shown k.mem).read (param + BitVec.ofNat 64 (8 * i))
  user := place.shown k.mem

/-- The first `n` bytes of a structure. -/
def blockBytes (n : Nat) (src : Block) : List (BitVec 8) :=
  (List.range n).map fun i => (src (i / 8)).extractLsb' (8 * (i % 8)) 8

/-- The stores of a copy of a structure to the parameter of the call. -/
def Placement.reply (place : Placement) (copy : UserCopy) (param : Word) (src : Block)
    (size : Nat) : List (Word × BitVec 8) :=
  byteStores place.physical param (blockBytes (min copy.stored size) src)

/-- The effect of each operation of a call with the parameter `param`. -/
def rawHandler (host : Host) (copy : UserCopy) (place : Placement) (param : Word) :
    Prog.Handler KernelOp KernelOp.Res Kernel
  | .toUser src size, k =>
      some ((), place.withMem k (k.mem.storeBytes (place.reply copy param src size)))
  | .toUserPage buffer src size, k =>
      let bytes := k.mem.readBytes (host.virtToPhys src) (min copy.pageStored size)
      some ((), place.withMem k (k.mem.storeBytes (byteStores place.physical buffer bytes)))
  | .setMmPgd mm pgd, k => some ((), place.withMem k (k.mem.write (place.pgdField mm) pgd))
  | op, k =>
      (kernelHandler host copy op (place.view param k)).map fun (r, s) =>
        (r, place.withMem s.kernel s.kernel.mem)

section Runs

variable {host : Host} {copy : UserCopy} {place : Placement} {param : Word} {k : Kernel}

theorem Placement.Holds.withMem_self (holds : place.Holds k) : place.withMem k k.mem = k := by
  have roots : (fun mm => k.mem.read (place.pgdField mm)) = k.pgd :=
    funext fun mm => (holds mm).symm
  rw [Placement.withMem, roots]

theorem Placement.holds_withMem (mem : ByteMem) : place.Holds (place.withMem k mem) :=
  fun _ => rfl

theorem Kernel.Loaded.rawWithMem (loaded : k.Loaded host) (mem : ByteMem) :
    (place.withMem k mem).Loaded host :=
  ⟨loaded.invalidateTlb, loaded.flushTlbMmRangeFunc⟩

theorem rawHandler_of_silent {op : KernelOp} (silent : op.Silent) :
    rawHandler host copy place param op k =
      (kernelHandler host copy op (place.view param k)).map fun (r, s) =>
        (r, place.withMem s.kernel s.kernel.mem) := by
  cases op <;> first | rfl | cases silent

/-- Silent operations run as on separate memories. -/
theorem run_silent {α : Type} {p : KernelProg α} {value : α} {s : CallState}
    (holds : place.Holds k) (only : p.Performs KernelOp.Silent)
    (done : Prog.run (kernelHandler host copy) p (place.view param k) = some (value, s)) :
    Prog.run (rawHandler host copy place param) p k = some (value, k) := by
  -- a silent operation finds the same on both sides, and neither side moves
  have alike : ∀ op, op.Silent → ∀ s k' (r : op.Res) s', (s = place.view param k ∧ k' = k) →
      kernelHandler host copy op s = some (r, s') →
      ∃ k'', rawHandler host copy place param op k' = some (r, k'') ∧
        (s' = place.view param k ∧ k'' = k) := by
    rintro op silent _ _ r s' ⟨rfl, rfl⟩ answer
    obtain rfl := KernelOp.Silent.keeps silent answer
    refine ⟨_, ?_, rfl, rfl⟩
    rw [rawHandler_of_silent silent, answer, Option.map_some]
    exact congrArg (fun after => some (r, after)) holds.withMem_self
  obtain ⟨k', done', -, rfl⟩ := only.run_related alike ⟨rfl, rfl⟩ done
  exact done'

theorem silent_resolveVm (lock : Bool) (addr pid : Word) :
    (resolveVm host addr pid lock).Performs KernelOp.Silent :=
  performs_resolveVm (fun _ _ => ⟨trivial, trivial⟩) (fun _ => trivial) (fun _ => trivial) addr pid

theorem silent_callInvalidateTlb (pid : Pid) (addr : Word) :
    (callInvalidateTlb host pid addr).Performs KernelOp.Silent :=
  performs_callInvalidateTlb trivial trivial trivial (fun _ _ _ _ _ _ => trivial)
    (fun _ _ => trivial) trivial addr

section Silent

variable (holds : place.Holds k)
include holds

theorem run_raw_uninitialised :
    Prog.run (rawHandler host copy place param) uninitialised k = some (copy.locals, k) :=
  run_silent holds (performs_op .uninitialised trivial) (run_uninitialised _)

theorem run_raw_fromUser (dst : Block) (size : Nat) :
    Prog.run (rawHandler host copy place param) (fromUser dst size) k =
      some (received copy (place.view param k) dst size, k) :=
  run_silent holds (performs_op (.fromUser dst size) trivial) (run_fromUser _ dst size)

theorem run_raw_mmIsLocked :
    Prog.run (rawHandler host copy place param) mmIsLocked k = some (k.mmIsLocked, k) :=
  run_silent holds (performs_op .mmIsLocked trivial) (run_mmIsLocked _)

theorem run_raw_mmPgd (mm : Mm) :
    Prog.run (rawHandler host copy place param) (mmPgd mm) k = some (k.pgd mm, k) :=
  run_silent holds (performs_op (.mmPgd mm) trivial) (run_mmPgd _ mm)

theorem run_raw_pageSize :
    Prog.run (rawHandler host copy place param) pageSize k = some (k.realPageSize, k) :=
  run_silent holds (performs_op .pageSize trivial) (run_pageSize _)

theorem run_raw_when {p : KernelProg Unit} (only : p.Performs KernelOp.Silent)
    (done : Prog.run (kernelHandler host copy) p (place.view param k) =
      some ((), place.view param k)) (condition : Bool) :
    Prog.run (rawHandler host copy place param) (when condition p) k = some ((), k) := by
  have ran : Prog.run (kernelHandler host copy) (when condition p) (place.view param k) =
      some ((), place.view param k) := by
    rw [run_when, done, ite_self]
  exact run_silent holds (performs_when only condition) ran

theorem run_raw_resolveVm (addr pid : Word) (lock : Bool) :
    Prog.run (rawHandler host copy place param) (resolveVm host addr pid lock) k =
      some (kernelResolve host k addr pid, k) :=
  run_silent holds (silent_resolveVm lock addr pid) (run_resolveVm addr pid lock _)

theorem run_raw_callInvalidateTlb (loaded : k.Loaded host) (pid : Pid) (addr : Word) :
    Prog.run (rawHandler host copy place param) (callInvalidateTlb host pid addr) k =
      some ((), k) := by
  have loaded' : (place.view param k).kernel.Loaded host := loaded
  exact run_silent holds (silent_callInvalidateTlb pid addr)
    (run_callInvalidateTlb loaded' pid addr)

end Silent

end Runs

/-! ## Commands -/

/-- The bytes that a command with an argument structure stores in physical memory, in order. -/
def Placement.stores (place : Placement) (host : Host) (copy : UserCopy) (param : Word)
    (k : Kernel) : Cmd → List (Word × BitVec 8)
  | .vmResolve =>
      let user := PteditEntry.ofBlock
        (received copy (place.view param k) copy.locals PteditEntry.size)
      place.reply copy param (kernelEntry host k user).block PteditEntry.size
  | .vmUpdate =>
      let new := PteditEntry.ofBlock
        (received copy (place.view param k) copy.locals PteditEntry.size)
      wordStores (kernelStores host k new)
  | .readPage =>
      let page := PteditPage.ofBlock
        (received copy (place.view param k) copy.locals PteditPage.sizeOf)
      byteStores place.physical page.buffer (readPageBytes host copy k page)
  | .writePage =>
      let page := PteditPage.ofBlock
        (received copy (place.view param k) copy.locals PteditPage.sizeOf)
      byteStores id (pagePhysical host k page) (writtenBytes copy (place.view param k) page)
  | .getRoot =>
      let paging := PteditPaging.ofBlock
        (received copy (place.view param k) copy.locals PteditPaging.size)
      match reportedRoot host k paging.pid with
      | none => []
      | some root =>
          place.reply copy param (PteditPaging.block { paging with root }) PteditPaging.size
  | .setRoot =>
      let paging := PteditPaging.ofBlock
        (received copy (place.view param k) (PteditPaging.block { pid := 0, root := 0 })
          PteditPaging.size)
      match host.getMm paging.pid with
      | none => []
      | some mm => wordStores [(place.pgdField mm, host.physToVirt paging.root)]
  | _ => []

/-- The kernel after the stores of a command. -/
def Placement.after (place : Placement) (host : Host) (copy : UserCopy) (param : Word)
    (k : Kernel) (cmd : Cmd) : Kernel :=
  place.withMem k (k.mem.storeBytes (place.stores host copy param k cmd))

section Commands

variable {host : Host} {copy : UserCopy} {place : Placement} {param : Word} {k : Kernel}

theorem run_raw_vmResolve (holds : place.Holds k) :
    Prog.run (rawHandler host copy place param) (DeviceIoctl.vmResolve host) k =
      some (0, place.after host copy param k .vmResolve) := by
  let user := PteditEntry.ofBlock (received copy (place.view param k) copy.locals PteditEntry.size)
  have entries : Prog.run (rawHandler host copy place param)
      ((vmToUser user (kernelResolve host k user.vaddr user.pid).2).translate readEntry) k =
        some (kernelEntry host k user, k) :=
    run_silent holds (performs_readEntries (fun _ => trivial) _) (run_translate_readEntry _ _)
  rw [DeviceIoctl.vmResolve, Prog.run_bind_of_some (run_raw_uninitialised holds),
    Prog.run_bind_of_some (run_raw_fromUser holds _ _),
    Prog.run_bind_of_some (run_raw_mmIsLocked holds),
    Prog.run_bind_of_some (run_raw_resolveVm holds _ _ _), Prog.run_bind_of_some entries]
  rfl

/-- One store of `update_vm`, after others. -/
theorem run_raw_updateLevel {old : Vm} {new : PteditEntry} {level : Level}
    (pointers : old.Valid level → (old.pointer level).isSome) (mem : ByteMem)
    (done : List (Word × Word)) :
    Prog.run (rawHandler host copy place param) (updateLevel old new level)
        (place.withMem k (mem.writeAll done)) =
      some ((), place.withMem k
        (mem.writeAll (done ++ (levelStore host old new level).toList))) := by
  rw [updateLevel, levelStore]
  by_cases selected : old.Valid level ∧ new.Valid level
  · obtain ⟨pointer, found⟩ := Option.isSome_iff_exists.mp (pointers selected.1)
    rw [decide_eq_true selected, if_pos selected, found, writeAll_append]
    rfl
  · rw [decide_eq_false selected, if_neg selected, Option.toList_none, List.append_nil]
    rfl

theorem run_raw_storeLevels (holds : place.Holds k) (new : PteditEntry) (mm : Mm) (lock : Bool) :
    Prog.run (rawHandler host copy place param) (storeLevels host new mm lock) k =
      some ((kernelResolve host k new.vaddr new.pid).2,
        place.withMem k (k.mem.writeAll (kernelStores host k new))) := by
  have locking := @run_raw_when host copy place param k holds (mmapWriteLock mm)
    (performs_op (.mmapWriteLock mm) trivial) (run_mmapWriteLock _ mm) lock
  have pointers : ∀ level, (kernelResolve host k new.vaddr new.pid).2.Valid level →
      ((kernelResolve host k new.vaddr new.pid).2.pointer level).isSome :=
    fun _ => isSome_kernelResolve
  unfold storeLevels
  rw [Prog.run_bind_of_some locking, Prog.run_bind_of_some (run_raw_resolveVm holds _ _ _)]
  unfold kernelStores
  generalize kernelResolve host k new.vaddr new.pid = resolved at pointers ⊢
  have level := fun level => @run_raw_updateLevel host copy place param k resolved.2 new level
    (pointers level) k.mem
  have first := level .pgd []
  rw [writeAll_nil, holds.withMem_self] at first
  rw [Prog.run_bind_of_some first, Prog.run_bind_of_some (level .p4d _),
    Prog.run_bind_of_some (level .pud _), Prog.run_bind_of_some (level .pmd _),
    Prog.run_bind_of_some (level .pte _)]
  simp [Level.all]

theorem run_raw_updateVm (holds : place.Holds k) (loaded : k.Loaded host) (new : PteditEntry)
    (lock : Bool) :
    ∃ r, Prog.run (rawHandler host copy place param) (updateVm host new lock) k =
      some (r, place.withMem k (k.mem.writeAll (kernelStores host k new))) := by
  cases found : host.getMm new.pid with
  | none =>
      unfold updateVm
      rw [kernelStores_eq_nil found, found]
      exact ⟨1, congrArg (fun after => some (1, after)) holds.withMem_self.symm⟩
  | some mm =>
      let finish := place.withMem k (k.mem.writeAll (kernelStores host k new))
      have ready : place.Holds finish := Placement.holds_withMem _
      have loaded' : finish.Loaded host := loaded.rawWithMem _
      have unlocking := @run_raw_when host copy place param finish ready (mmapWriteUnlock mm)
        (performs_op (.mmapWriteUnlock mm) trivial) (run_mmapWriteUnlock _ mm) lock
      refine ⟨0, ?_⟩
      rw [updateVm_eq found, Prog.run_bind_of_some (run_raw_storeLevels holds new mm lock),
        Prog.run_bind_of_some (run_raw_callInvalidateTlb ready loaded' _ _),
        Prog.run_bind_of_some unlocking]
      rfl

theorem run_raw_vmUpdate (holds : place.Holds k) (loaded : k.Loaded host) :
    Prog.run (rawHandler host copy place param) (DeviceIoctl.vmUpdate host) k =
      some (0, place.after host copy param k .vmUpdate) := by
  let new := PteditEntry.ofBlock (received copy (place.view param k) copy.locals PteditEntry.size)
  obtain ⟨r, updated⟩ := @run_raw_updateVm host copy place param k holds loaded new !k.mmIsLocked
  rw [writeAll_eq_storeBytes] at updated
  rw [DeviceIoctl.vmUpdate, Prog.run_bind_of_some (run_raw_uninitialised holds),
    Prog.run_bind_of_some (run_raw_fromUser holds _ _),
    Prog.run_bind_of_some (run_raw_mmIsLocked holds), Prog.run_bind_of_some updated]
  rfl

theorem run_raw_readPage (holds : place.Holds k) :
    Prog.run (rawHandler host copy place param) (DeviceIoctl.readPage host) k =
      some (0, place.after host copy param k .readPage) := by
  rw [DeviceIoctl.readPage, Prog.run_bind_of_some (run_raw_uninitialised holds),
    Prog.run_bind_of_some (run_raw_fromUser holds _ _),
    Prog.run_bind_of_some (run_raw_pageSize holds)]
  rfl

theorem length_writtenBytes_le (copy : UserCopy) (s : CallState) (page : PteditPage) :
    (writtenBytes copy s page).length ≤ 2 ^ 64 := by
  have bound := (sizeOfInt s.kernel.realPageSize).isLt
  unfold writtenBytes
  rw [length_readBytes]
  omega

theorem run_raw_writePage (holds : place.Holds k) :
    Prog.run (rawHandler host copy place param) (DeviceIoctl.writePage host) k =
      some (0, place.after host copy param k .writePage) := by
  let page := PteditPage.ofBlock
    (received copy (place.view param k) copy.locals PteditPage.sizeOf)
  have stored := writeBytes_eq_storeBytes k.mem (pagePhysical host k page)
    (length_writtenBytes_le copy (place.view param k) page)
  rw [DeviceIoctl.writePage, Prog.run_bind_of_some (run_raw_uninitialised holds),
    Prog.run_bind_of_some (run_raw_fromUser holds _ _),
    Prog.run_bind_of_some (run_raw_pageSize holds)]
  exact congrArg (fun mem => some (0, place.withMem k mem)) stored

/-- A reply of `GET_ROOT`. -/
theorem run_raw_getRootOf (holds : place.Holds k) (paging : PteditPaging) (mm : Mm) :
    Prog.run (rawHandler host copy place param) (DeviceIoctl.getRootOf host paging mm) k =
      some (0, place.withMem k (k.mem.storeBytes (place.reply copy param
        (PteditPaging.block { paging with root := host.virtToPhys (k.pgd mm) })
        PteditPaging.size))) := by
  have locking := @run_raw_when host copy place param k holds (mmapReadLock mm)
    (performs_op (.mmapReadLock mm) trivial) (run_mmapReadLock _ mm) !k.mmIsLocked
  have unlocking := @run_raw_when host copy place param k holds (mmapReadUnlock mm)
    (performs_op (.mmapReadUnlock mm) trivial) (run_mmapReadUnlock _ mm) !k.mmIsLocked
  rw [DeviceIoctl.getRootOf, Prog.run_bind_of_some (run_raw_mmIsLocked holds),
    Prog.run_bind_of_some locking, Prog.run_bind_of_some (run_raw_mmPgd holds mm),
    Prog.run_bind_of_some (run_raw_mmIsLocked holds), Prog.run_bind_of_some unlocking]
  rfl

theorem run_raw_getRootFromTtbr0 (holds : place.Holds k) (paging : PteditPaging) :
    Prog.run (rawHandler host copy place param) (DeviceIoctl.getRootFromTtbr0 paging) k =
      some (0, place.withMem k (k.mem.storeBytes (place.reply copy param
        (PteditPaging.block { paging with root := k.ttbr0 &&& ~~~1#64 }) PteditPaging.size))) := by
  have register : Prog.run (rawHandler host copy place param) DeviceIoctl.currentTtbr0 k =
      some (k.ttbr0 &&& ~~~1#64, k) :=
    run_silent holds ((performs_op .mrsTtbr0 trivial).bind fun _ => trivial) rfl
  rw [DeviceIoctl.getRootFromTtbr0, Prog.run_bind_of_some register]
  rfl

theorem run_raw_getRoot (holds : place.Holds k) :
    ∃ r, Prog.run (rawHandler host copy place param) (DeviceIoctl.getRoot host) k =
      some (r, place.after host copy param k .getRoot) := by
  rw [DeviceIoctl.getRoot, Prog.run_bind_of_some (run_raw_uninitialised holds),
    Prog.run_bind_of_some (run_raw_fromUser holds _ _), Placement.after, Placement.stores]
  generalize PteditPaging.ofBlock _ = paging
  unfold reportedRoot
  dsimp only
  cases host.arch with
  | x86_64 =>
      cases host.getMm paging.pid with
      | none => exact ⟨1, congrArg (fun after => some (1, after)) holds.withMem_self.symm⟩
      | some mm => exact ⟨0, run_raw_getRootOf holds paging mm⟩
  | aarch64 =>
      cases host.getMm paging.pid with
      | none => exact ⟨0, run_raw_getRootFromTtbr0 holds paging⟩
      | some mm =>
          dsimp only
          rw [Prog.run_bind_of_some (run_raw_mmPgd holds mm)]
          by_cases absent : k.pgd mm = 0
          · rw [if_pos absent, if_pos absent]
            exact ⟨0, run_raw_getRootFromTtbr0 holds paging⟩
          · rw [if_neg absent, if_neg absent]
            exact ⟨0, run_raw_getRootOf holds paging mm⟩

theorem run_raw_setRoot (holds : place.Holds k) :
    ∃ r, Prog.run (rawHandler host copy place param) (DeviceIoctl.setRoot host) k =
      some (r, place.after host copy param k .setRoot) := by
  rw [DeviceIoctl.setRoot, Prog.run_bind_of_some (run_raw_fromUser holds _ _), Placement.after,
    Placement.stores]
  generalize PteditPaging.ofBlock _ = paging
  unfold DeviceIoctl.setRootOf
  cases host.getMm paging.pid with
  | none => exact ⟨1, congrArg (fun after => some (1, after)) holds.withMem_self.symm⟩
  | some mm =>
      let finish := place.withMem k (k.mem.write (place.pgdField mm) (host.physToVirt paging.root))
      have locking := @run_raw_when host copy place param k holds (mmapWriteLock mm)
        (performs_op (.mmapWriteLock mm) trivial) (run_mmapWriteLock _ mm) !k.mmIsLocked
      have setting : Prog.run (rawHandler host copy place param)
          (setMmPgd mm (host.physToVirt paging.root)) k = some ((), finish) := rfl
      have ready : place.Holds finish := Placement.holds_withMem _
      have unlocking := @run_raw_when host copy place param finish ready (mmapWriteUnlock mm)
        (performs_op (.mmapWriteUnlock mm) trivial) (run_mmapWriteUnlock _ mm) !k.mmIsLocked
      have stored := writeAll_eq_storeBytes k.mem
        [(place.pgdField mm, host.physToVirt paging.root)]
      refine ⟨0, ?_⟩
      dsimp only
      rw [Prog.run_bind_of_some (run_raw_mmIsLocked holds), Prog.run_bind_of_some locking,
        Prog.run_bind_of_some setting, Prog.run_bind_of_some (run_raw_mmIsLocked ready)]
      exact (Prog.run_bind_of_some unlocking).trans
        (congrArg (fun mem => some (0, place.withMem k mem)) stored)

theorem run_raw_invalidateTlbPid (holds : place.Holds k) (loaded : k.Loaded host) :
    Prog.run (rawHandler host copy place param) (DeviceIoctl.invalidateTlbPid host) k =
      some (0, place.after host copy param k .invalidateTlbPid) := by
  have kept : place.after host copy param k .invalidateTlbPid = k := holds.withMem_self
  rw [DeviceIoctl.invalidateTlbPid, Prog.run_bind_of_some (run_raw_uninitialised holds),
    Prog.run_bind_of_some (run_raw_fromUser holds _ _),
    Prog.run_bind_of_some (run_raw_callInvalidateTlb holds loaded _ _), kept]
  rfl

end Commands

end PTEditor
