import PTEditor.Library.Process
import PTEditor.PhysicalPage

/-!
# The channel that `ptedit_init` selects

After `ptedit_init` the library works through the device, and every word of a walk is
read and written by the module.  On aarch64 with pages of 16 KiB the last thing that
`ptedit_init` does is to select `PTEDIT_IMPL_USER_PREAD`, and `ptedit_umem` is 0 there:
the walker then reads its entries from the process's standard input
(`walksPhysical_iff`).
-/

namespace PTEditor

open Sys ProcessProg

/-- The descriptor was opened between two states of the process. -/
def Process.Opens (p p' : Process) (fd : Int) : Prop :=
  p.files fd = .closed ∧ p'.files fd ≠ .closed

/-- The call reaches the module or physical memory, by a descriptor opened in between. -/
def OwnChannel (p p' : Process) : SysOp → Prop
  | .ioctl fd _ _ _ => p.Opens p' fd ∧ p'.files fd = .device
  | .pread fd _ _ | .pwrite fd _ _ | .mmap fd _ _ => p.Opens p' fd ∧ p'.files fd = .umem
  | .load mapping _ | .store mapping _ _ => ∃ start length, mapping = .umem start length
  | .readUser _ _ | .writeUser _ _ => True
  | .crash => False

/-- Two worlds with the same physical memory and the same root of the calling process. -/
structure SamePhysical (host : Host) (w w' : World) : Prop where
  mem : w'.kernel.mem = w.kernel.mem
  root : ∀ mm, host.getMm (sizeOfInt 0) = some mm → w'.kernel.pgd mm = w.kernel.pgd mm

/-- From now on resolving and updating work on physical memory: their calls are `OwnChannel`
ones, and what `ptedit_resolve` returns for the process's own addresses is settled by
physical memory and its root, whatever its other descriptors hold. -/
structure WalksPhysical (m : Machine) (lib : Lib) (p p' : Process) : Prop where
  resolve : ∀ w address pid, ∀ op ∈ (pteditResolve lib address pid).trace
    (sysHandler (m.system p'.files)) w, OwnChannel p p' op
  update : ∀ w address pid vm, ∀ op ∈ (pteditUpdate lib address pid vm).trace
    (sysHandler (m.system p'.files)) w, OwnChannel p p' op
  determined : ∀ w w' address foreignRead, SamePhysical m.host w w' →
    ∃ r, Prog.run (sysHandler (m.system p'.files)) (pteditResolve lib address 0) w =
        some (r, w) ∧
      Prog.run (sysHandler { m.system p'.files with foreignRead }) (pteditResolve lib address 0)
        w' = some (r, w')

section Channels

variable {m : Machine} {lib : Lib} {p p' : Process}

theorem kernelEntry_congr {sys : System} {w w' : World} (same : SamePhysical sys.host w w')
    (address : Word) :
    sys.kernelEntry w'.kernel address 0 = sys.kernelEntry w.kernel address 0 := by
  have read : w'.kernel.entryAt sys.host = w.kernel.entryAt sys.host := by
    funext pointer
    rw [Kernel.entryAt, Kernel.entryAt, same.mem]
  unfold System.kernelEntry kernelEntry kernelResolve Kernel.walk
  rw [read]
  cases found : sys.host.getMm (PteditEntry.cleared address (sizeOfInt 0)).pid with
  | none => rfl
  | some mm =>
      dsimp only
      rw [same.root mm found]

/-- The kernel implementation leaves every access to the module. -/
theorem walksPhysical_of_kernel (selected : lib.implementation = .kernel)
    (opens : p.Opens p' lib.fd) (device : p'.files lib.fd = .device) :
    WalksPhysical m lib p p' := by
  have asks : ∀ cmd param arg, (ioctl lib.fd cmd param arg).Performs (OwnChannel p p') :=
    fun cmd param arg => Prog.Performs.perform ⟨opens, device⟩
  constructor
  · intro w address pid
    have only : (pteditResolve lib address pid).Performs (OwnChannel p p') := by
      unfold pteditResolve
      rw [selected]
      exact (asks _ _ _).bind fun _ => trivial
    exact only.trace w
  · intro w address pid vm
    have only : (pteditUpdate lib address pid vm).Performs (OwnChannel p p') := by
      unfold pteditUpdate
      rw [selected]
      exact (asks _ _ _).bind fun _ => trivial
    exact only.trace w
  · intro w w' address foreignRead same
    have resolves : ∀ (sys : System) w, sys.file lib.fd = .device →
        Prog.run (sysHandler sys) (pteditResolve lib address 0) w =
          some (sys.kernelEntry w.kernel address 0, w) := by
      intro sys w device
      unfold pteditResolve
      rw [selected]
      exact run_pteditResolveKernel_of_device device address 0
    refine ⟨_, resolves (m.system p'.files) w device, ?_⟩
    refine (resolves { m.system p'.files with foreignRead } w' device).trans ?_
    have entry := @kernelEntry_congr { m.system p'.files with foreignRead } w w' same address
    exact congrArg (fun entry => some (entry, w')) entry

/-- With a root to start from, the pread implementation reads at `ptedit_umem`. -/
theorem pread_mem_trace {sys : System} {w : World} (device : sys.file lib.fd = .device)
    (selected : lib.implementation = .userPread) {pid : Pid}
    (rooted : sys.userRoot lib w.kernel pid ≠ 0) (address : Word) :
    ∃ offset, SysOp.pread lib.umem 8 offset ∈
      (pteditResolve lib address pid).trace (sysHandler sys) w := by
  have reads : ∀ a, Prog.run (sysHandler sys) (pteditPhysReadPread lib a) w =
      some (sys.preadWord lib w.kernel a, w) := run_pteditPhysReadPread
  unfold pteditResolve
  rw [selected]
  dsimp only [pteditResolveUser, pteditResolveUserExt]
  rw [Prog.trace_bind_of_some (run_pteditUserRoot_of_device device pid)]
  let pgdSlot : Word := sys.userRoot lib w.kernel pid +
    lib.pagingDefinition.intIndex .pgd address * pteditEntrySize
  have asked : pgdSlot ∈ (pteditWalk lib.arch lib.pagingDefinition address
      (sys.userRoot lib w.kernel pid) pid).queries (sys.preadWord lib w.kernel) := by
    unfold pteditWalk
    rw [if_neg rooted]
    exact List.mem_cons_self
  have member : SysOp.pread lib.umem 8 pgdSlot ∈
      (pteditPhysReadPread lib pgdSlot).trace (sysHandler sys) w := List.mem_cons_self
  exact ⟨pgdSlot, List.mem_append_right _ (Prog.mem_trace_translate reads asked member)⟩

/-- A world in which `GET_ROOT` of an aarch64 build answers every pid with a root. -/
def rootedWorld (w : World) : World :=
  { w with kernel := { w.kernel with pgd := fun _ => 0, ttbr0 := 2 } }

theorem pagingRoot_rootedWorld {sys : System} (arch : sys.host.arch = .aarch64) (w : World)
    (pid : Pid) : sys.pagingRoot (rootedWorld w).kernel pid = 2 := by
  have masked : (2 : Word) &&& ~~~1#64 = 2 := by decide
  cases found : sys.host.getMm (sizeOfInt pid) with
  | none =>
      rw [pagingRoot_of_unknown found, if_neg (by rw [arch]; decide)]
      exact masked
  | some mm =>
      rw [pagingRoot_of_mm found, System.rootOf, if_pos ⟨arch, rfl⟩]
      exact masked

/-- With a `ptedit_umem` that is not the library's own `/proc/umem`, walks leave it. -/
theorem not_walksPhysical_of_pread (arch : m.host.arch = .aarch64)
    (selected : lib.implementation = .userPread) (device : p'.files lib.fd = .device)
    (foreign : ¬ (p.Opens p' lib.umem ∧ p'.files lib.umem = .umem)) :
    ¬ WalksPhysical m lib p p' := by
  intro walks
  let w := rootedWorld p'.world
  have root : (m.system p'.files).pagingRoot w.kernel 1 = 2 :=
    pagingRoot_rootedWorld arch p'.world 1
  have rooted : (m.system p'.files).userRoot lib w.kernel 1 ≠ 0 := by
    rw [System.userRoot, if_neg (by decide), root]
    decide
  have device' : (m.system p'.files).file lib.fd = .device := device
  obtain ⟨offset, member⟩ := pread_mem_trace device' selected rooted 0
  exact foreign (walks.resolve w 0 1 _ member)

end Channels

/-- **The implementation that `ptedit_init` selects works on physical memory except on
aarch64 with pages of 16 KiB.** -/
theorem walksPhysical_iff {m : Machine} {lib lib' : Lib} {p p' : Process}
    (arch : lib.arch = m.host.arch)
    (done : Prog.run (processHandler m) (pteditInit lib) p = some ((0, lib'), p')) :
    WalksPhysical m lib' p p' ↔
      m.host.arch = .x86_64 ∨ p.world.kernel.realPageSize ≠ 16384 := by
  rw [run_pteditInit] at done
  rcases init_cases m lib p with failed | ⟨fd, umem, ready, nonneg, free, -, second, initialised⟩
  · rw [failed] at done
    cases done
  · rw [initialised] at done
    obtain ⟨first, rfl⟩ := Prod.mk.inj (Option.some.inj done)
    obtain ⟨-, rfl⟩ := Prod.mk.inj first
    have opened : (p.withOpen fd .device).files fd = .device := Function.update_self _ _ _
    have kept := @files_openUmem_of_open m (p.withOpen fd .device) lib.arch fd
      (by rw [opened]; decide)
    rw [second] at kept
    have device : ready.files fd = .device := kept.trans opened
    have opens : p.Opens ready fd := ⟨free, by rw [device]; decide⟩
    have works : (m.initialised lib ready fd umem).implementation = .kernel →
        WalksPhysical m (m.initialised lib ready fd umem) p ready := fun selected =>
      walksPhysical_of_kernel selected (by rwa [fd_initialised]) (by rwa [fd_initialised])
    rw [← arch]
    unfold Machine.initialised at works ⊢
    unfold Machine.openUmem at second
    cases build : lib.arch with
    | x86_64 =>
        rw [build] at works
        exact iff_of_true (works rfl) (.inl rfl)
    | aarch64 =>
        rw [build, if_pos rfl] at second
        obtain ⟨rfl, rfl⟩ := Prod.mk.inj second
        rw [build] at works
        dsimp only at works ⊢
        have size : (p.withOpen fd .device).world.kernel.realPageSize.toInt = 16384 ↔
            p.world.kernel.realPageSize = 16384 := by
          rw [show (16384 : Int) = (16384 : Pid).toInt by decide]
          exact BitVec.toInt_inj
        by_cases pages16k : p.world.kernel.realPageSize = 16384
        · rw [if_pos (size.mpr pages16k)]
          refine iff_of_false ?_ ?_
          · refine not_walksPhysical_of_pread (arch.symm.trans build) rfl device ?_
            rintro ⟨⟨closed, -⟩, isUmem⟩
            -- descriptor 0 was open before, or is the device's
            change (p.withOpen fd .device).files 0 = .umem at isUmem
            by_cases zero : 0 = fd
            · rw [zero, device] at isUmem
              cases isUmem
            · have same : (p.withOpen fd .device).files 0 = p.files 0 :=
                Function.update_of_ne zero _ _
              rw [same] at isUmem
              exact absurd (closed.symm.trans isUmem) (by decide)
          · rintro (x86 | other)
            · exact absurd x86 (by decide)
            · exact other pages16k
        · rw [if_neg (mt size.mp pages16k)] at works ⊢
          exact iff_of_true (works rfl) (.inr pages16k)

theorem walksPhysical_iff_sample :
    ∃ lib p, Prog.run (processHandler (machineOf sampleHost 4096))
        (pteditInit (Lib.static .x86_64)) (processOf sampleWorld) = some ((0, lib), p) ∧
      WalksPhysical (machineOf sampleHost 4096) lib (processOf sampleWorld) p := by
  have done := @run_pteditInit (machineOf sampleHost 4096) (processOf sampleWorld)
    (Lib.static .x86_64)
  exact ⟨_, _, done, (walksPhysical_iff rfl done).mpr (.inl rfl)⟩

/-- On the machine with pages of 16 KiB the first word of the first walk is read from
descriptor 0, which the process had open before. -/
theorem pages16k_readsStdin :
    ∃ lib p, Prog.run (processHandler (machineOf pages16kHost 16384))
        (pteditInit (Lib.static .aarch64)) (processOf pages16kWorld) = some ((0, lib), p) ∧
      (processOf pages16kWorld).files 0 = .other ∧
      (∃ offset, SysOp.pread 0 8 offset ∈ (pteditResolve lib 0 0).trace
        (sysHandler ((machineOf pages16kHost 16384).system p.files)) p.world) ∧
      ¬ WalksPhysical (machineOf pages16kHost 16384) lib (processOf pages16kWorld) p := by
  have done := @run_pteditInit (machineOf pages16kHost 16384) (processOf pages16kWorld)
    (Lib.static .aarch64)
  let result := (machineOf pages16kHost 16384).init (Lib.static .aarch64)
    (processOf pages16kWorld)
  have device : ((machineOf pages16kHost 16384).system result.2.files).file result.1.2.fd =
    .device := rfl
  have rooted : ((machineOf pages16kHost 16384).system result.2.files).userRoot result.1.2
      result.2.world.kernel 0 ≠ 0 := by
    decide +kernel
  obtain ⟨offset, member⟩ := pread_mem_trace device rfl rooted 0
  refine ⟨result.1.2, result.2, done, rfl, ⟨offset, member⟩, fun walks => ?_⟩
  exact absurd (walks.resolve _ 0 0 _ member).1.1 (by decide)

end PTEditor
