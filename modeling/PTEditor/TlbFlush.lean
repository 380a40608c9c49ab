import PTEditor.Library.Operations
import PTEditor.Module.Tlb

/-!
# The TLB after an update

However `ptedit_update` runs, it ends with a flush for the process and the address it
was called for, and nothing is stored after it (`leaves_pteditUpdate`).  On x86_64,
and with the custom method of aarch64, no stale translation of the address is left.
The kernel method of aarch64 looks for the address in the caller's own VMAs, so it
leaves those of every other process: `tlbFlushed_iff`.
-/

namespace PTEditor

open Sys

/-- The stale translations after a call of the library. -/
def System.staleAfter (sys : System) (op : SysOp) (w : World) (stale : Set Translation) :
    Option (Set Translation) :=
  match op with
  | .ioctl fd cmd param arg =>
      match sys.file fd with
      | .device =>
          Prog.watch (kernelHandler sys.host sys.copy) PTEditor.staleAfter
            (PTEditor.deviceIoctl sys.host cmd param) ⟨w.kernel, arg, w.user⟩ stale
      | _ => some stale
  | .pwrite _ _ _ | .store _ _ _ => some Set.univ
  | _ => some stale

/-- After the update no CPU holds a translation of the address for `mm` that it cached
before the entries were written. -/
def TlbFlushed (sys : System) (lib : Lib) (w : World) (address : Word) (pid : Pid)
    (vm : PteditEntry) (mm : Mm) : Prop :=
  ∃ stale, Prog.watch (sysHandler sys) sys.staleAfter (pteditUpdate lib address pid vm) w
    Set.univ = some stale ∧ ∀ cpu, (⟨cpu, mm, address⟩ : Translation) ∉ stale

section Runs

variable {sys : System} {lib : Lib} {w : World}

/-- The library's code ends with these translations stale. -/
abbrev Leaves {α : Type} (sys : System) (p : Sys α) (w : World) (stale stale' : Set Translation) :
    Prop :=
  Prog.Accepts (sysHandler sys) sys.staleAfter p w stale stale'

theorem leaves_ioctl (attached : Attached sys lib w) {cmd : Cmd} {param : Word} {arg : Block}
    {stale stale' : Set Translation}
    (accepts : Prog.Accepts (kernelHandler sys.host sys.copy) PTEditor.staleAfter
      (PTEditor.deviceIoctl sys.host cmd param) ⟨w.kernel, arg, w.user⟩ stale stale') :
    Leaves sys (ioctl lib.fd cmd param arg) w stale stale' := by
  obtain ⟨last, seen, settled⟩ := accepts
  refine ⟨last, ?_, fun returns => settled ?_⟩
  · refine (Prog.watch_perform _ w stale).trans ?_
    rw [System.staleAfter, attached.device]
    exact seen
  · rw [run_ioctl attached, System.deviceIoctl, Option.isSome_map] at returns
    exact returns

/-- The calls of the library before its stores, and the stores. -/
def Preparing (lib : Lib) : SysOp → Prop
  | .ioctl fd cmd _ _ => fd = lib.fd ∧ (cmd = .vmResolve ∨ cmd = .getRoot)
  | .mmap _ _ _ | .writeUser _ _ => False
  | _ => True

theorem preparing_allowsReads (lib : Lib) : AllowsReads lib (Preparing lib) :=
  ⟨fun _ _ => ⟨rfl, .inl rfl⟩, fun _ _ => ⟨rfl, .inr rfl⟩, fun _ _ => trivial, fun _ => trivial,
    trivial⟩

theorem memOp_of_preparing {op : SysOp} (preparing : Preparing lib op) : MemOp lib op := by
  cases op with
  | ioctl fd cmd param arg =>
      obtain ⟨device, resolve | root⟩ := preparing
      · exact ⟨device, .inl resolve⟩
      · exact ⟨device, .inr (.inr (.inl root))⟩
  | mmap | writeUser => exact preparing.elim
  | _ => trivial

theorem staleAfter_of_preparing (op : SysOp) (preparing : Preparing lib op) (w : World) :
    sys.staleAfter op w Set.univ = some Set.univ := by
  cases op with
  | ioctl fd cmd param arg =>
      have quiet : ∀ op : KernelOp, op.Reading → ∀ s,
          PTEditor.staleAfter op s Set.univ = some Set.univ :=
        fun op reading s => staleAfter_of_reading reading s _
      have reads : (PTEditor.deviceIoctl sys.host cmd param).Performs KernelOp.Reading := by
        obtain ⟨-, rfl | rfl⟩ := preparing
        · exact performs_vmResolve
        · exact performs_getRoot
      dsimp only [System.staleAfter]
      cases sys.file fd with
      | device => exact reads.watch_eq quiet _
      | _ => rfl
  | mmap | writeUser => exact preparing.elim
  | _ => rfl

/-- Before the flush everything may be stale, and only physical memory changes. -/
theorem leaves_bind {α β : Type} {p : Sys α} {f : α → Sys β} {stale : Set Translation}
    (attached : Attached sys lib w) (only : p.Performs (Preparing lib))
    (rest : ∀ value mem, Leaves sys (f value) (w.withMem mem) Set.univ stale) :
    Leaves sys (p >>= f) w Set.univ stale := by
  refine (only.accepts staleAfter_of_preparing w).bind fun value w' ran => ?_
  obtain ⟨mem, rfl⟩ := withMem_of_memOps attached
    (only.mono fun _ preparing => memOp_of_preparing preparing) ran
  exact rest value mem

section Updates

variable {method : TlbMethod} {size : Pid}

theorem ofBlock_received_tlbArgs (sys : System) (k : Kernel) (user : ByteMem) (dst : Block)
    (args : PteditInvalidateTlbArgs) :
    PteditInvalidateTlbArgs.ofBlock
      (received sys.copy ⟨k, args.block, user⟩ dst PteditInvalidateTlbArgs.size) = args := by
  have small : PteditInvalidateTlbArgs.size ≤ 64 := by decide
  have lower : intOfSize (args.pid.setWidth 64) = args.pid := by
    rw [intOfSize, BitVec.setWidth_setWidth_of_le _ (by decide), BitVec.setWidth_eq]
  unfold received PteditInvalidateTlbArgs.ofBlock
  rw [sys.copyBlock_whole small (by decide), sys.copyBlock_whole small (by decide)]
  exact congrArg (PteditInvalidateTlbArgs.mk · args.address) lower

/-- The function that `invalidate_tlb` points to, and the page size. -/
structure FlushesWith (method : TlbMethod) (size : Pid) (w : World) : Prop where
  method : w.kernel.invalidateTlb = some method
  size : w.kernel.realPageSize = size

theorem leaves_pteditInvalidateTlbPid (attached : Attached sys lib w)
    (setup : FlushesWith method size w) (pid : Pid) (address : Word) (stale : Set Translation) :
    Leaves sys (pteditInvalidateTlbPid lib pid address) w stale
      (stale \ flushedBy sys.host size method pid address) := by
  have request := ofBlock_received_tlbArgs sys w.kernel w.user sys.copy.locals ⟨pid, address⟩
  have accepts : Prog.Accepts (kernelHandler sys.host sys.copy) PTEditor.staleAfter
      (PTEditor.deviceIoctl sys.host .invalidateTlbPid 0) ⟨w.kernel, _, w.user⟩ stale
      (stale \ flushedBy sys.host size method pid address) :=
    accepts_invalidateTlbPid ⟨setup.method, setup.size⟩ request stale
  exact (leaves_ioctl attached accepts).bind fun _ w₁ _ => Prog.accepts_ret () w₁ _

theorem leaves_pteditInvalidateTlb (attached : Attached sys lib w)
    (setup : FlushesWith method size w) (address : Word) (stale : Set Translation) :
    Leaves sys (pteditInvalidateTlb lib address) w stale
      (stale \ flushedBy sys.host size method sys.host.current.nr address) := by
  have ready : FlushSetup method size ⟨w.kernel, fun _ => 0, w.user⟩ := ⟨setup.method, setup.size⟩
  exact (leaves_ioctl attached (accepts_invalidateTlb ready address stale)).bind fun _ w₁ _ =>
    Prog.accepts_ret () w₁ _

theorem leaves_vmUpdate (attached : Attached sys lib w) (setup : FlushesWith method size w)
    {new : PteditEntry} {mm : Mm} (live : sys.host.getMm new.pid = some mm) :
    Leaves sys (ioctl lib.fd .vmUpdate 0 new.block) w Set.univ
      (Set.univ \ flushedBy sys.host size method (intOfSize new.pid) new.vaddr) := by
  have request := ofBlock_received_entry sys w.kernel w.user sys.copy.locals new
  have ready : FlushSetup method size ⟨w.kernel, new.block, w.user⟩ := ⟨setup.method, setup.size⟩
  exact leaves_ioctl attached (accepts_vmUpdate ready request live)

theorem leaves_pteditUpdateKernel (attached : Attached sys lib w)
    (setup : FlushesWith method size w) {pid : Pid} {mm : Mm}
    (live : sys.host.getMm (sizeOfInt pid) = some mm) (address : Word) (vm : PteditEntry) :
    Leaves sys (pteditUpdateKernel lib address pid vm) w Set.univ
      (Set.univ \ flushedBy sys.host size method pid address) := by
  have request : Leaves sys (ioctl lib.fd .vmUpdate 0
      (PteditEntry.block { vm with vaddr := address, pid := sizeOfInt pid })) w Set.univ
      (Set.univ \ flushedBy sys.host size method (intOfSize (sizeOfInt pid)) address) :=
    leaves_vmUpdate attached setup live
  rw [intOfSize_sizeOfInt] at request
  exact request.bind fun _ w₁ _ => Prog.accepts_ret () w₁ _

/-- The body of the user-space updaters flushes unless it finds no root. -/
theorem leaves_pteditUpdateUserExt (attached : Attached sys lib w)
    (setup : FlushesWith method size w) (address : Word) (pid : Pid) (vm : PteditEntry)
    {pset : Word → Word → Sys Unit} (each : ∀ a v, (pset a v).Performs (Preparing lib)) :
    Leaves sys (pteditUpdateUserExt lib address pid vm pset) w Set.univ
      (if sys.userRoot lib w.kernel pid = 0 then Set.univ
        else Set.univ \ flushedBy sys.host size method pid address) := by
  have reads := preparing_allowsReads lib
  refine leaves_bind attached (performs_pteditResolve reads address pid) fun current mem => ?_
  have asked : Leaves sys (pteditUserRoot lib pid) (w.withMem mem) Set.univ Set.univ :=
    (performs_pteditUserRoot reads pid).accepts staleAfter_of_preparing _
  refine asked.bind fun root w₁ ran => ?_
  cases (run_pteditUserRoot (attached.withMem mem) pid).symm.trans ran
  change Leaves sys (if sys.userRoot lib w.kernel pid = 0 then _ else _) _ _ _
  split
  next => exact Prog.accepts_ret () _ _
  next =>
    have level : ∀ level, (pteditUpdateLevel lib pset (sys.userRoot lib w.kernel pid) address vm
        current level).Performs (Preparing lib) :=
      performs_pteditUpdateLevel each _ address vm current
    have stored : ∀ mem, Attached sys lib (w.withMem mem) := attached.withMem
    refine leaves_bind (stored mem) (level .pte) fun _ mem => ?_
    refine leaves_bind (stored mem) (level .pmd) fun _ mem => ?_
    refine leaves_bind (stored mem) (level .pud) fun _ mem => ?_
    refine leaves_bind (stored mem) (level .p4d) fun _ mem => ?_
    refine leaves_bind (stored mem) (level .pgd) fun _ mem => ?_
    exact leaves_pteditInvalidateTlbPid (stored mem) ⟨setup.method, setup.size⟩ pid address _

/-- **One flush at the end.**  After `ptedit_update` only the translations that the
flush of the address does not drop can be stale. -/
theorem leaves_pteditUpdate (attached : Attached sys lib w) (setup : FlushesWith method size w)
    {pid : Pid} {mm : Mm} (live : sys.host.getMm (sizeOfInt pid) = some mm) (address : Word)
    (vm : PteditEntry) (selected : lib.implementation ≠ .unset) :
    Leaves sys (pteditUpdate lib address pid vm) w Set.univ
      (Set.univ \ flushedBy sys.host size method pid address) := by
  have last : ∀ {pset : Word → Word → Sys Unit}, (∀ a v, (pset a v).Performs (Preparing lib)) →
      Leaves sys (pteditUpdateUserExt lib address pid vm pset >>= fun _ =>
        pteditInvalidateTlbPid lib pid address) w Set.univ
        (Set.univ \ flushedBy sys.host size method pid address) := by
    intro pset each
    have stores : (pteditUpdateUserExt lib address pid vm pset).Performs (MemOp lib) :=
      performs_pteditUpdateUserExt (memOp_allowsUpdates lib) address pid vm fun a v =>
        (each a v).mono fun _ preparing => memOp_of_preparing preparing
    refine (leaves_pteditUpdateUserExt attached setup address pid vm each).bind ?_
    intro _ w₁ ran
    obtain ⟨mem, rfl⟩ := withMem_of_memOps attached stores ran
    have flush := leaves_pteditInvalidateTlbPid (attached.withMem mem)
      ⟨setup.method, setup.size⟩ pid address
    split
    next => exact flush _
    next =>
      -- a second flush of the same translations
      have again := flush (Set.univ \ flushedBy sys.host size method pid address)
      rwa [Set.sdiff_sdiff, Set.union_self] at again
  unfold pteditUpdate
  cases implementation : lib.implementation with
  | unset => exact absurd implementation selected
  | kernel => exact leaves_pteditUpdateKernel attached setup live address vm
  | userPread => exact last fun a v => performs_pteditPhysWritePwrite (fun _ _ => trivial) a v
  | user => exact last fun a v => Prog.Performs.perform trivial

end Updates

end Runs

/-- **Whose translations are flushed.**  Those of the process the update is for, except
on aarch64 with the kernel method, where they are the caller's. -/
theorem tlbFlushed_iff {sys : System} {lib : Lib} {w w' : World} {method : TlbMethod}
    {size : Pid} {pid : Pid} {mm : Mm} {address : Word} {vm : PteditEntry}
    (attached : Attached sys lib w) (setup : FlushesWith method size w)
    (installable : method.Installable sys.host)
    (ofMm : ∀ mm addr vma, sys.host.findVma mm addr = some vma → mm = some vma.mm)
    (live : sys.host.getMm (sizeOfInt pid) = some mm)
    (mapped : MappedAddress sys.host size mm address)
    (done : Prog.run (sysHandler sys) (pteditUpdate lib address pid vm) w = some ((), w')) :
    TlbFlushed sys lib w address pid vm mm ↔
      sys.host.arch = .x86_64 ∨ method = .custom ∨ sys.host.current.mm = some mm := by
  have selected : lib.implementation ≠ .unset := by
    intro unset
    unfold pteditUpdate at done
    rw [unset] at done
    cases done
  have accepts := leaves_pteditUpdate attached setup live address vm selected
  have seen := accepts.watch_eq (by rw [done]; rfl)
  have dropped := mem_flushedBy_iff installable ofMm live mapped
  constructor
  · rintro ⟨stale, watched, clean⟩
    obtain rfl := Option.some.inj (seen.symm.trans watched)
    by_contra kept
    exact clean 0 ⟨trivial, fun member => kept ((dropped 0).mp member)⟩
  · intro flushes
    exact ⟨_, seen, fun cpu stale => stale.2 ((dropped cpu).mpr flushes)⟩

/-- `ptedit_switch_tlb_invalidation` installs only methods that the build has. -/
theorem installable_pteditSwitchTlbInvalidation {sys : System} {lib : Lib} {w w' : World}
    {implementation : Pid} {result : Int} (attached : Attached sys lib w)
    (installable : ∀ method, w.kernel.invalidateTlb = some method → method.Installable sys.host)
    (done : Prog.run (sysHandler sys) (pteditSwitchTlbInvalidation lib implementation) w =
      some (result, w')) :
    ∀ method, w'.kernel.invalidateTlb = some method → method.Installable sys.host := by
  rw [pteditSwitchTlbInvalidation, Prog.run_bind, run_ioctl attached, System.deviceIoctl,
    deviceIoctl, DeviceIoctl.switchTlbInvalidation] at done
  split at done
  next =>
    obtain rfl := (Prod.mk.inj (Option.some.inj done)).2
    exact installable
  next known =>
  split at done
  next =>
    obtain rfl := (Prod.mk.inj (Option.some.inj done)).2
    exact installable
  next accepted =>
    obtain rfl := (Prod.mk.inj (Option.some.inj done)).2
    intro method installed
    obtain rfl := Option.some.inj installed
    split
    next => trivial
    next other =>
      cases arch : sys.host.arch with
      | aarch64 => exact arch
      | x86_64 => exact absurd ⟨arch, by_contra fun custom => known ⟨other, custom⟩⟩ accepted

/-! ## A foreign process on aarch64 -/

/-- An aarch64 machine with the processes 1, which calls, and 2. -/
def twoProcesses : System :=
  { sampleSystem with
    host := { sampleHost with
      arch := .aarch64
      findVpid := fun _ pid => if pid = 1 then some 0 else if pid = 2 then some 1 else none
      pidTask := fun task => some { sampleTask with mm := some task }
      findVma := fun mm _ => mm.map fun mm => { mm, vmStart := 0 } } }

def twoProcessesLib : Lib :=
  { sampleLib with
    arch := .aarch64, pagingDefinition := .aarch64Pages4k, implementation := .kernel }

/-- A new PTE for an address. -/
def remapped : PteditEntry := { PteditEntry.cleared 0 0 with pte := 0x6003, valid := 0x10 }

theorem twoProcesses_attached : Attached twoProcesses twoProcessesLib sampleWorld :=
  ⟨rfl, rfl, ⟨rfl, nofun⟩⟩

theorem twoProcesses_flushesWith : FlushesWith .kernel 4096 sampleWorld := ⟨rfl, rfl⟩

theorem twoProcesses_mapped (mm : Mm) : MappedAddress twoProcesses.host 4096 mm 0 :=
  ⟨⟨⟨mm, 0⟩, rfl, BitVec.lt_irrefl 0⟩, by decide⟩

theorem twoProcesses_ofMm (mm : Option Mm) (addr : Word) (vma : Vma)
    (found : twoProcesses.host.findVma mm addr = some vma) : mm = some vma.mm := by
  obtain ⟨_, rfl, rfl⟩ := Option.map_eq_some_iff.mp found
  rfl

/-- Process 1 updates address 0 of process 2 and leaves its translation stale. -/
theorem foreignPid_keepsTranslation :
    Attached twoProcesses twoProcessesLib sampleWorld ∧ FlushesWith .kernel 4096 sampleWorld ∧
    TlbMethod.kernel.Installable twoProcesses.host ∧
    twoProcesses.host.getMm (sizeOfInt 2) = some 1 ∧ MappedAddress twoProcesses.host 4096 1 0 ∧
    (∃ w', Prog.run (sysHandler twoProcesses) (pteditUpdate twoProcessesLib 0 2 remapped)
      sampleWorld = some ((), w')) ∧
    ¬ TlbFlushed twoProcesses twoProcessesLib sampleWorld 0 2 remapped 1 := by
  have live : twoProcesses.host.getMm (sizeOfInt 2) = some 1 := by decide
  have done := run_pteditUpdateKernel twoProcesses_attached 0 2 remapped
  have installable : TlbMethod.kernel.Installable twoProcesses.host := trivial
  refine ⟨twoProcesses_attached, twoProcesses_flushesWith, installable, live,
    twoProcesses_mapped 1, ⟨_, done⟩, ?_⟩
  have accepts := leaves_pteditUpdate twoProcesses_attached twoProcesses_flushesWith live 0 remapped
    (by decide)
  have seen := accepts.watch_eq (Option.isSome_of_mem done)
  rintro ⟨stale, watched, clean⟩
  obtain rfl := Option.some.inj (seen.symm.trans watched)
  have dropped := mem_flushedBy_iff installable twoProcesses_ofMm live (twoProcesses_mapped 1) 0
  refine clean 0 ⟨trivial, fun member => ?_⟩
  exact absurd (dropped.mp member) (by decide)

theorem tlbFlushed_iff_sample :
    TlbFlushed twoProcesses twoProcessesLib sampleWorld 0 1 remapped 0 :=
  (tlbFlushed_iff twoProcesses_attached twoProcesses_flushesWith trivial twoProcesses_ofMm
    (by decide) (twoProcesses_mapped 0)
    (run_pteditUpdateKernel twoProcesses_attached 0 1 remapped)).mpr (.inr (.inr rfl))

end PTEditor
