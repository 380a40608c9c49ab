import PTEditor.Library.PteditSpec
import PTEditor.Module.Linux

/-!
# The user-space implementations

How `ptedit_resolve` and `ptedit_update` run under `PTEDIT_IMPL_USER_PREAD` and
`PTEDIT_IMPL_USER`, given that every access they make to physical memory succeeds
(`UserAccess`): the first returns the result of the walk, the second performs the
stores `userStores`.
-/

namespace PTEditor

open Sys

/-- The walk of an address for a pid through what `read` finds in physical memory. -/
def System.walkOver (sys : System) (lib : Lib) (k : Kernel) (address : Word) (pid : Pid)
    (read : Word → Word) : Walk :=
  { arch := lib.arch, definition := lib.pagingDefinition, root := sys.userRoot lib k pid,
    addr := address, read }

/-- The walk that a user-space implementation makes for an address and a pid. -/
def System.userWalk (sys : System) (lib : Lib) (k : Kernel) (address : Word) (pid : Pid) : Walk :=
  sys.walkOver lib k address pid k.mem.read

/-- The store that the updater performs for one level, given what it resolved. -/
def levelUpdate (w : Walk) (vm current : PteditEntry) (level : Level) : List (Word × Word) :=
  if Selected w.definition vm current level then
    [(updateSlot w.arch w.definition w.root w.addr current level, vm.field level)]
  else
    []

/-- The levels in the order in which the updater stores them. -/
def updateOrder : List Level := [.pte, .pmd, .pud, .p4d, .pgd]

/-- The stores of `ptedit_update_user_ext`, in order. -/
def userStores (w : Walk) (vm current : PteditEntry) : List (Word × Word) :=
  updateOrder.flatMap (levelUpdate w vm current)

/-- Without a valid level nothing is stored. -/
theorem userStores_of_not_valid {w : Walk} {vm current : PteditEntry}
    (none : ∀ level, ¬ current.Valid level) : userStores w vm current = [] := by
  simp only [userStores, List.flatMap_eq_nil_iff, levelUpdate]
  exact fun level _ => if_neg fun selected => none level selected.2.1

/-- A user-space implementation is selected, and its accesses to the given
addresses succeed. -/
inductive UserAccess (sys : System) (lib : Lib) (touched : List Word) : Prop
  | pread (selected : lib.implementation = .userPread) (umem : sys.file lib.umem = .umem)
  | mapped (selected : lib.implementation = .user) (length : Nat)
      (window : lib.vmem = .umem 0 length) (inside : ∀ a ∈ touched, a.toNat + 8 ≤ length)

theorem UserAccess.mono {sys : System} {lib : Lib} {touched fewer : List Word}
    (access : UserAccess sys lib touched) (subset : ∀ a ∈ fewer, a ∈ touched) :
    UserAccess sys lib fewer := by
  cases access with
  | pread selected umem => exact .pread selected umem
  | mapped selected length window inside =>
      exact .mapped selected length window fun a member => inside a (subset a member)

/-- What a `pread` of one word from the library's `/proc/umem` descriptor delivers. -/
def System.preadBytes (sys : System) (lib : Lib) (k : Kernel) (address : Word) :
    Option (List (BitVec 8)) :=
  match sys.file lib.umem with
  | .umem => some (k.mem.readBytes address 8)
  | .device | .closed => none
  | .other => sys.foreignRead lib.umem 8 address

/-- The word that `ptedit_phys_read_pread` makes of it. -/
def System.preadWord (sys : System) (lib : Lib) (k : Kernel) (address : Word) : Word :=
  ByteMem.wordOfBytes ((sys.preadBytes lib k address).getD [])

/-- Physical memory after `ptedit_phys_write_pwrite`. -/
def System.pwriteWord (sys : System) (lib : Lib) (mem : ByteMem) (store : Word × Word) : ByteMem :=
  match sys.file lib.umem with
  | .umem => mem.write store.1 store.2
  | _ => mem

section Runs

variable {sys : System} {lib : Lib} {w : World}

theorem run_pteditPhysReadPread (address : Word) :
    Prog.run (sysHandler sys) (pteditPhysReadPread lib address) w =
      some (sys.preadWord lib w.kernel address, w) := by
  have answer : Prog.run (sysHandler sys) (pread lib.umem 8 address) w =
      some (sys.preadBytes lib w.kernel address, w) := by
    change Prog.run _ (Prog.perform (SysOp.pread _ _ _)) w = _
    rw [Prog.run_perform, sysHandler, System.preadBytes]
    cases sys.file lib.umem <;> rfl
  rw [pteditPhysReadPread, Prog.run_bind_of_some answer]
  rfl

theorem preadWord_of_umem (umem : sys.file lib.umem = .umem) (k : Kernel) :
    sys.preadWord lib k = k.mem.read := by
  funext address
  rw [System.preadWord, System.preadBytes, umem]
  rfl

theorem run_pteditPhysWritePwrite (store : Word × Word) (mem : ByteMem) :
    Prog.run (sysHandler sys) (pteditPhysWritePwrite lib store.1 store.2) (w.withMem mem) =
      some ((), w.withMem (sys.pwriteWord lib mem store)) := by
  have answer : ∃ written, Prog.run (sysHandler sys)
      (pwrite lib.umem (ByteMem.bytesOfWord store.2) store.1) (w.withMem mem) =
        some (written, w.withMem (sys.pwriteWord lib mem store)) := by
    change ∃ written, Prog.run _ (Prog.perform (SysOp.pwrite _ _ _)) _ = _
    rw [Prog.run_perform, sysHandler, System.pwriteWord]
    cases sys.file lib.umem <;> exact ⟨_, rfl⟩
  obtain ⟨written, answer⟩ := answer
  rw [pteditPhysWritePwrite, Prog.run_bind_of_some answer]
  rfl

theorem pwriteWord_of_umem (umem : sys.file lib.umem = .umem) (mem : ByteMem)
    (store : Word × Word) : sys.pwriteWord lib mem store = mem.write store.1 store.2 := by
  rw [System.pwriteWord, umem]

theorem run_pteditPhysReadMap {length : Nat} (window : lib.vmem = .umem 0 length) (address : Word) :
    Prog.run (sysHandler sys) (pteditPhysReadMap lib address) w =
      if address.toNat + 8 ≤ length then some (w.kernel.mem.read address, w) else none := by
  change Prog.run _ (Prog.perform (SysOp.load lib.vmem address)) w = _
  rw [Prog.run_perform, window, sysHandler]
  have physical : (Mapping.umem 0 length).physical address = address := BitVec.zero_add address
  rw [physical]
  rfl

theorem run_pteditPhysWriteMap {length : Nat} (window : lib.vmem = .umem 0 length)
    (address value : Word) :
    Prog.run (sysHandler sys) (pteditPhysWriteMap lib address value) w =
      if address.toNat + 8 ≤ length then
        some ((), w.withMem (w.kernel.mem.write address value)) else none := by
  change Prog.run _ (Prog.perform (SysOp.store lib.vmem address value)) w = _
  rw [Prog.run_perform, window, sysHandler]
  have physical : (Mapping.umem 0 length).physical address = address := BitVec.zero_add address
  rw [physical]
  rfl

theorem run_pteditUserRoot_of_device (device : sys.file lib.fd = .device) (pid : Pid) :
    Prog.run (sysHandler sys) (pteditUserRoot lib pid) w =
      some (sys.userRoot lib w.kernel pid, w) := by
  unfold pteditUserRoot System.userRoot
  by_cases own : pid = 0
  · rw [if_pos own, if_pos own]
    rfl
  · rw [if_neg own, if_neg own,
      Prog.run_bind_of_some (run_pteditGetPagingRoot_of_device device pid)]
    rfl

theorem run_pteditUserRoot (attached : Attached sys lib w) (pid : Pid) :
    Prog.run (sysHandler sys) (pteditUserRoot lib pid) w =
      some (sys.userRoot lib w.kernel pid, w) :=
  run_pteditUserRoot_of_device attached.device pid

/-- The walker with any way to read a word that works at the slots of the walk. -/
theorem run_pteditResolveUserExt (attached : Attached sys lib w) {address : Word} {pid : Pid}
    {deref : Word → Sys Word} {read : Word → Word}
    (reads : ∀ a ∈ (sys.walkOver lib w.kernel address pid read).slots,
      Prog.run (sysHandler sys) (deref a) w = some (read a, w)) :
    Prog.run (sysHandler sys) (pteditResolveUserExt lib address pid deref) w =
      some ((sys.walkOver lib w.kernel address pid read).resolved (sizeOfInt pid), w) := by
  rw [pteditResolveUserExt, Prog.run_bind_of_some (run_pteditUserRoot attached pid)]
  rw [← (sys.walkOver lib w.kernel address pid read).eval_pteditWalk pid]
  refine Prog.run_translate_of_total ?_
  intro a asked
  have member := (sys.walkOver lib w.kernel address pid read).queries_pteditWalk pid
  exact reads a (member ▸ asked)

/-- `ptedit_resolve` under a user-space implementation. -/
theorem run_pteditResolve (attached : Attached sys lib w) {address : Word} {pid : Pid}
    (access : UserAccess sys lib (sys.userWalk lib w.kernel address pid).slots) :
    Prog.run (sysHandler sys) (pteditResolve lib address pid) w =
      some ((sys.userWalk lib w.kernel address pid).resolved (sizeOfInt pid), w) := by
  unfold pteditResolve
  cases access with
  | pread selected umem =>
      rw [selected]
      refine run_pteditResolveUserExt attached fun a _ => ?_
      rw [run_pteditPhysReadPread, preadWord_of_umem umem]
  | mapped selected length window inside =>
      rw [selected]
      refine run_pteditResolveUserExt attached fun a member => ?_
      rw [run_pteditPhysReadMap window, if_pos (inside a member)]

/-- One store of the updater, after others; `put` is what a store does to memory. -/
theorem run_pteditUpdateLevel {pset : Word → Word → Sys Unit}
    {put : ByteMem → Word × Word → ByteMem} {k : Kernel} {address : Word}
    {pid : Pid} {vm current : PteditEntry} {level : Level}
    (writes : ∀ store ∈ levelUpdate (sys.userWalk lib k address pid) vm current level, ∀ mem,
      Prog.run (sysHandler sys) (pset store.1 store.2) (w.withMem mem) =
        some ((), w.withMem (put mem store)))
    (mem : ByteMem) (done : List (Word × Word)) :
    Prog.run (sysHandler sys)
        (pteditUpdateLevel lib pset (sys.userRoot lib k pid) address vm current level)
        (w.withMem (done.foldl put mem)) =
      some ((), w.withMem ((done ++ levelUpdate (sys.userWalk lib k address pid) vm current
        level).foldl put mem)) := by
  unfold pteditUpdateLevel
  by_cases selected : Selected lib.pagingDefinition vm current level
  · have one : levelUpdate (sys.userWalk lib k address pid) vm current level =
        [(updateSlot lib.arch lib.pagingDefinition (sys.userRoot lib k pid) address current level,
          vm.field level)] := if_pos selected
    rw [one] at writes ⊢
    rw [if_pos selected, writes _ (List.mem_singleton_self _), List.foldl_append]
    rfl
  · have none : levelUpdate (sys.userWalk lib k address pid) vm current level = [] :=
      if_neg selected
    rw [if_neg selected, none, List.append_nil]
    rfl

/-- The updater with any way to store a word that works at the slots it stores. -/
theorem run_pteditUpdateUserExt (attached : Attached sys lib w) {address : Word} {pid : Pid}
    {vm current : PteditEntry} {pset : Word → Word → Sys Unit}
    {put : ByteMem → Word × Word → ByteMem}
    (resolves : Prog.run (sysHandler sys) (pteditResolve lib address pid) w = some (current, w))
    (stopped : sys.userRoot lib w.kernel pid = 0 → ∀ level, ¬ current.Valid level)
    (writes : ∀ store ∈ userStores (sys.userWalk lib w.kernel address pid) vm current, ∀ mem,
      Prog.run (sysHandler sys) (pset store.1 store.2) (w.withMem mem) =
        some ((), w.withMem (put mem store))) :
    Prog.run (sysHandler sys) (pteditUpdateUserExt lib address pid vm pset) w =
      some ((), w.withMem ((userStores (sys.userWalk lib w.kernel address pid) vm current).foldl put
        w.kernel.mem)) := by
  rw [pteditUpdateUserExt, Prog.run_bind_of_some resolves,
    Prog.run_bind_of_some (run_pteditUserRoot attached pid)]
  by_cases noRoot : sys.userRoot lib w.kernel pid = 0
  · rw [if_pos noRoot, userStores_of_not_valid (stopped noRoot)]
    rfl
  · have each : ∀ level ∈ updateOrder,
        ∀ store ∈ levelUpdate (sys.userWalk lib w.kernel address pid) vm current level, ∀ mem,
          Prog.run (sysHandler sys) (pset store.1 store.2) (w.withMem mem) =
            some ((), w.withMem (put mem store)) :=
      fun level ordered store member => writes store (List.mem_flatMap.mpr ⟨level, ordered, member⟩)
    have first := run_pteditUpdateLevel (each .pte (by decide)) w.kernel.mem []
    rw [show w.withMem (([] : List (Word × Word)).foldl put w.kernel.mem) = w from rfl] at first
    rw [if_neg noRoot, Prog.run_bind_of_some first,
      Prog.run_bind_of_some (run_pteditUpdateLevel (each .pmd (by decide)) _ _),
      Prog.run_bind_of_some (run_pteditUpdateLevel (each .pud (by decide)) _ _),
      Prog.run_bind_of_some (run_pteditUpdateLevel (each .p4d (by decide)) _ _),
      Prog.run_bind_of_some (run_pteditUpdateLevel (each .pgd (by decide)) _ _),
      run_pteditInvalidateTlbPid (attached.withMem _)]
    simp [userStores, updateOrder]

theorem run_pteditPhysWrite_of_mapped {length : Nat} (window : lib.vmem = .umem 0 length)
    {stores : List (Word × Word)} (inside : ∀ store ∈ stores, store.1.toNat + 8 ≤ length) :
    ∀ store ∈ stores, ∀ mem,
      Prog.run (sysHandler sys) (pteditPhysWriteMap lib store.1 store.2) (w.withMem mem) =
        some ((), w.withMem (mem.write store.1 store.2)) := by
  intro store member mem
  rw [run_pteditPhysWriteMap window, if_pos (inside store member)]
  rfl

/-- A walk without a root finds nothing valid. -/
theorem Walk.not_valid_of_noRoot {walk : Walk} (noRoot : walk.root = 0) (level : Level) :
    ¬ walk.Valid level :=
  fun valid => valid.2.1.1 noRoot

/-- `ptedit_update` under a user-space implementation. -/
theorem run_pteditUpdate (attached : Attached sys lib w) {address : Word} {pid : Pid}
    {vm : PteditEntry}
    (access : UserAccess sys lib ((sys.userWalk lib w.kernel address pid).slots ++
      (userStores (sys.userWalk lib w.kernel address pid) vm
        ((sys.userWalk lib w.kernel address pid).resolved (sizeOfInt pid))).map Prod.fst)) :
    Prog.run (sysHandler sys) (pteditUpdate lib address pid vm) w =
      some ((), w.withMem (w.kernel.mem.writeAll
        (userStores (sys.userWalk lib w.kernel address pid) vm
          ((sys.userWalk lib w.kernel address pid).resolved (sizeOfInt pid))))) := by
  have resolves : Prog.run (sysHandler sys) (pteditResolve lib address pid) w =
      some ((sys.userWalk lib w.kernel address pid).resolved (sizeOfInt pid), w) :=
    run_pteditResolve attached (access.mono fun a member => List.mem_append_left _ member)
  have stopped : sys.userRoot lib w.kernel pid = 0 → ∀ level,
      ¬ ((sys.userWalk lib w.kernel address pid).resolved (sizeOfInt pid)).Valid level :=
    fun noRoot level valid =>
      Walk.not_valid_of_noRoot noRoot level ((Walk.valid_resolved _ _ _).mp valid)
  unfold pteditUpdate
  cases access with
  | pread selected umem =>
      rw [selected]
      dsimp only [pteditUpdateUser]
      have writes : ∀ (store : Word × Word) mem, Prog.run (sysHandler sys)
          (pteditPhysWritePwrite lib store.1 store.2) (w.withMem mem) =
            some ((), w.withMem (mem.write store.1 store.2)) := by
        intro store mem
        rw [run_pteditPhysWritePwrite, pwriteWord_of_umem umem]
      rw [Prog.run_bind_of_some (run_pteditUpdateUserExt attached resolves stopped
        fun store _ mem => writes store mem), run_pteditInvalidateTlbPid (attached.withMem _)]
      rfl
  | mapped selected length window inside =>
      rw [selected]
      dsimp only [pteditUpdateUserMap]
      have stores := fun store member => inside store
        (List.mem_append_right (sys.userWalk lib w.kernel address pid).slots member)
      rw [Prog.run_bind_of_some (run_pteditUpdateUserExt attached resolves stopped
        (run_pteditPhysWrite_of_mapped window fun store member =>
          stores store.1 (List.mem_map_of_mem member))),
        run_pteditInvalidateTlbPid (attached.withMem _)]
      rfl

end Runs

/-! ## The library on the sample machine -/

/-- Descriptor 3 is the device, descriptor 4 is `/proc/umem`. -/
def sampleSystem : System where
  host := sampleHost
  file := fun fd => if fd = 3 then .device else if fd = 4 then .umem else .other
  foreignRead := fun _ _ _ => none
  locals := fun _ => 0

/-- The library after `ptedit_use_implementation(PTEDIT_IMPL_USER_PREAD)`. -/
def sampleLib : Lib where
  arch := .x86_64
  fd := 3
  umem := 4
  pagesize := 4096
  pagingRoot := 0x1000
  vmem := .null
  pagingDefinition := .x86_64
  implementation := .userPread

/-- The library after `ptedit_use_implementation(PTEDIT_IMPL_KERNEL)`. -/
def sampleKernelLib : Lib := { sampleLib with implementation := .kernel }

def sampleWorld : World := { kernel := sampleKernel, user := fun _ => 0 }

theorem pagingRoot_sample (mem : ByteMem) :
    sampleSystem.pagingRoot (sampleWorld.withMem mem).kernel 0 = 0x1000 :=
  physicalOf_directMap 0x1000

theorem sample_attached : Attached sampleSystem sampleLib sampleWorld :=
  ⟨rfl, rfl, sampleKernel_loaded⟩

theorem sample_access (touched : List Word) : UserAccess sampleSystem sampleLib touched :=
  .pread rfl rfl

theorem PteditPagingDefinition.x86_64_fits : PteditPagingDefinition.x86_64.Fits :=
  ⟨by decide, fun level => by cases level <;> decide⟩

/-- The sample machine as an aarch64 build, with a root in `TTBR0_EL1`. -/
def sampleAarch64 : System :=
  { sampleSystem with host := { sampleHost with arch := .aarch64 } }

def sampleAarch64Lib : Lib :=
  { sampleLib with arch := .aarch64, umem := 0, pagingDefinition := .aarch64Pages4k }

def sampleAarch64World : World :=
  { sampleWorld with kernel := { sampleKernel with ttbr0 := 0x48001 } }

theorem sampleAarch64_attached : Attached sampleAarch64 sampleAarch64Lib sampleAarch64World :=
  ⟨rfl, rfl, rfl, fun x86 => absurd x86 (by decide)⟩

end PTEditor
