import Mathlib.Data.Fintype.EquivFin
import PTEditor.Foundation.Interleaving
import PTEditor.Library.Operations

/-!
# The cached root

For pid 0 the user-space walker starts from `ptedit_paging_root`, which only
`ptedit_use_implementation` fills; every other pid it asks the kernel about.  A run
of library calls keeps the two answers for the calling process together
(`ownRoot_coherent`) as long as no `ptedit_set_paging_root` moves the process's own
root while the pread implementation is selected; `setPagingRoot_leaves_cache` is a
run of two calls that does.
-/

namespace PTEditor

open Sys

/-- The calls of a process that the cached root depends on, or that read it. -/
inductive LibCall where
  | useImplementation (implementation : Int)
  | setPagingRoot (pid : Pid) (root : Word)
  | fullSerializingBarrier
  | update (address : Word) (pid : Pid) (vm : PteditEntry)
  | resolve (address : Word) (pid : Pid)

/-- A call, and the library's variables after it. -/
def LibCall.program (lib : Lib) : LibCall → Sys Lib
  | .useImplementation implementation => pteditUseImplementation lib implementation
  | .setPagingRoot pid root => do
      pteditSetPagingRoot lib pid root
      pure lib
  | .fullSerializingBarrier => do
      pteditFullSerializingBarrier lib
      pure lib
  | .update address pid vm => do
      pteditUpdate lib address pid vm
      pure lib
  | .resolve address pid => do
      let _ ← pteditResolve lib address pid
      pure lib

/-- One call of a run. -/
def System.stepCall (sys : System) (call : LibCall) (c : Lib × World) : Option (Lib × World) :=
  Prog.run (sysHandler sys) (call.program c.1) c.2

/-- The call does not move the root of the calling process under the pread
implementation. -/
def KeepsOwnRoot (sys : System) (call : LibCall) (c : Lib × World) : Prop :=
  ∀ pid root mm, call = .setPagingRoot pid root → c.1.implementation = .userPread →
    sys.host.getMm 0 = some mm → sys.host.getMm (sizeOfInt pid) = some mm →
      root = sys.pagingRoot c.2.kernel 0

/-- What a call writes to `/proc/umem`. -/
def SysOp.written : SysOp → Option (Int × Word × List (BitVec 8))
  | .pwrite fd bytes offset => some (fd, offset, bytes)
  | _ => none

/-- The writes to `/proc/umem` of a piece of library code, in order. -/
def System.writes (sys : System) {α : Type} (p : Sys α) (w : World) :
    List (Int × Word × List (BitVec 8)) :=
  (p.trace (sysHandler sys) w).filterMap SysOp.written

/-- Under the pread implementation the pids 0 and `own` name the same tables. -/
structure OwnRootCoherent (sys : System) (own : Pid) (c : Lib × World) : Prop where
  resolve : c.1.implementation = .userPread → ∀ address, ∃ r rOwn,
    Prog.run (sysHandler sys) (pteditResolve c.1 address 0) c.2 = some (r, c.2) ∧
    Prog.run (sysHandler sys) (pteditResolve c.1 address own) c.2 = some (rOwn, c.2) ∧
    rOwn.valid = r.valid ∧ ∀ level, rOwn.field level = r.field level
  update : c.1.implementation = .userPread → ∀ address vm, ∃ w',
    Prog.run (sysHandler sys) (pteditUpdate c.1 address 0 vm) c.2 = some ((), w') ∧
    Prog.run (sysHandler sys) (pteditUpdate c.1 address own vm) c.2 = some ((), w') ∧
    sys.writes (pteditUpdate c.1 address own vm) c.2 =
      sys.writes (pteditUpdate c.1 address 0 vm) c.2

/-! ## The invariant -/

/-- Under the pread implementation the cached root is the one that the kernel
reports for the calling process. -/
structure RootCached (sys : System) (c : Lib × World) : Prop where
  attached : Attached sys c.1 c.2
  cached : c.1.implementation = .userPread → c.1.pagingRoot = sys.pagingRoot c.2.kernel 0

theorem Attached.withRoot {sys : System} {lib : Lib} {w : World} (attached : Attached sys lib w)
    (pid : Pid) (root : Word) : Attached sys lib (w.withRoot sys pid root) :=
  ⟨attached.device, attached.arch, attached.loaded.withRoot⟩

/-- On words a left inverse is an inverse. -/
theorem physToVirt_virtToPhys {host : Host}
    (inverse : ∀ p, host.virtToPhys (host.physToVirt p) = p) (v : Word) :
    host.physToVirt (host.virtToPhys v) = v := by
  have finite : Finite Word := Finite.of_injective BitVec.toFin fun a b => BitVec.toFin_inj.mp
  have onto : Function.Surjective host.physToVirt :=
    Finite.surjective_of_injective (Function.LeftInverse.injective inverse)
  obtain ⟨p, rfl⟩ := onto v
  rw [inverse]

/-- Storing the root that is reported changes no reported root. -/
theorem rootOf_physToVirt_rootOf {sys : System} {ttbr0 : Word}
    (inverse : ∀ p, sys.host.virtToPhys (sys.host.physToVirt p) = p) (pgd : Word) :
    sys.rootOf ttbr0 (sys.host.physToVirt (sys.rootOf ttbr0 pgd)) = sys.rootOf ttbr0 pgd := by
  have stored : sys.rootOf ttbr0 pgd = ttbr0 &&& ~~~1#64 ∨
      sys.host.physToVirt (sys.rootOf ttbr0 pgd) = pgd := by
    unfold System.rootOf
    split
    next => exact .inl rfl
    next => exact .inr (physToVirt_virtToPhys inverse pgd)
  rcases stored with empty | same
  · rw [empty, System.rootOf, inverse, ite_self]
  · rw [same]

theorem pagingRoot_withRoot {sys : System} {w : World} {pid : Pid} {root : Word}
    (inverse : ∀ p, sys.host.virtToPhys (sys.host.physToVirt p) = p)
    (keeps : ∀ mm, sys.host.getMm 0 = some mm → sys.host.getMm (sizeOfInt pid) = some mm →
      root = sys.pagingRoot w.kernel 0) :
    sys.pagingRoot (w.withRoot sys pid root).kernel 0 = sys.pagingRoot w.kernel 0 := by
  have kept : (w.withRoot sys pid root).kernel.ttbr0 = w.kernel.ttbr0 := Kernel.ttbr0_withRoot
  cases own : sys.host.getMm 0 with
  | none => rw [pagingRoot_of_unknown own, pagingRoot_of_unknown own, kept]
  | some mm =>
      have before : sys.pagingRoot w.kernel 0 = _ := pagingRoot_of_mm own
      have after : sys.pagingRoot (w.withRoot sys pid root).kernel 0 = _ := pagingRoot_of_mm own
      have now : (w.withRoot sys pid root).kernel.pgd mm = _ := Kernel.pgd_withRoot
      rw [after, kept, now]
      split
      next target =>
        rw [keeps mm own target, before]
        exact rootOf_physToVirt_rootOf inverse _
      next => exact before.symm

/-- Selecting the pread implementation fills the cache, and keeps it when it was
selected before. -/
theorem RootCached.useImplementation {sys : System} {lib : Lib} {w : World}
    (before : RootCached sys (lib, w)) (implementation : Int) :
    RootCached sys (sys.useImplementation lib w.kernel implementation, w) := by
  obtain ⟨⟨device, arch, loaded⟩, cached⟩ := before
  unfold System.useImplementation
  split
  next => exact ⟨⟨device, arch, loaded⟩, nofun⟩
  next =>
  split
  next => exact ⟨⟨device, arch, loaded⟩, fun _ => rfl⟩
  next =>
  split
  next => exact ⟨⟨device, arch, loaded⟩, nofun⟩
  next => exact ⟨⟨device, arch, loaded⟩, cached⟩

theorem RootCached.withRoot {sys : System} {lib : Lib} {w : World}
    (inverse : ∀ p, sys.host.virtToPhys (sys.host.physToVirt p) = p)
    (before : RootCached sys (lib, w)) {pid : Pid} {root : Word}
    (keeps : lib.implementation = .userPread → ∀ mm, sys.host.getMm 0 = some mm →
      sys.host.getMm (sizeOfInt pid) = some mm → root = sys.pagingRoot w.kernel 0) :
    RootCached sys (lib, w.withRoot sys pid root) := by
  refine ⟨before.attached.withRoot pid root, fun selected => ?_⟩
  exact (before.cached selected).trans (pagingRoot_withRoot inverse (keeps selected)).symm

/-- **One call.**  The cache is right after every call that keeps the own root. -/
theorem rootCached_step {sys : System}
    (inverse : ∀ p, sys.host.virtToPhys (sys.host.physToVirt p) = p) {call : LibCall}
    {c c' : Lib × World} (before : RootCached sys c) (keeps : KeepsOwnRoot sys call c)
    (taken : sys.stepCall call c = some c') : RootCached sys c' := by
  obtain ⟨lib, w⟩ := c
  have attached : Attached sys lib w := before.attached
  have stored : ∀ {α : Type} {p : Sys α}, p.Performs (MemOp lib) →
      Prog.run (sysHandler sys) (do let _ ← p; pure lib) w = some c' → RootCached sys c' := by
    intro α p only done
    rw [Prog.run_bind] at done
    obtain ⟨⟨value, w'⟩, ran, last⟩ := Option.bind_eq_some_iff.mp done
    obtain ⟨mem, rfl⟩ := withMem_of_memOps attached only ran
    obtain rfl := Option.some.inj last
    exact ⟨attached.withMem mem, before.cached⟩
  cases call with
  | useImplementation implementation =>
      have ran := run_pteditUseImplementation attached implementation
      obtain rfl := Option.some.inj (ran.symm.trans taken)
      exact before.useImplementation implementation
  | setPagingRoot pid root =>
      have ran := run_pteditSetPagingRoot attached pid root
      obtain rfl := Option.some.inj ((Prog.run_bind_of_some ran).symm.trans taken)
      exact before.withRoot inverse fun selected mm => keeps pid root mm rfl selected
  | fullSerializingBarrier =>
      have ran := run_pteditFullSerializingBarrier attached
      obtain rfl := Option.some.inj ((Prog.run_bind_of_some ran).symm.trans taken)
      exact before.withRoot inverse fun _ _ _ _ => rfl
  | update address pid vm =>
      exact stored (performs_pteditUpdate (memOp_allowsUpdates lib) address pid vm) taken
  | resolve address pid =>
      have reads := (memOp_allowsUpdates lib).toAllowsReads
      exact stored (performs_pteditResolve reads address pid) taken

/-! ## What the pread implementation does -/

section Pread

variable {sys : System} {lib : Lib} {w : World}

/-- The walk of the pread implementation, whatever its `/proc/umem` descriptor is. -/
def System.preadWalk (sys : System) (lib : Lib) (k : Kernel) (address : Word) (pid : Pid) : Walk :=
  sys.walkOver lib k address pid (sys.preadWord lib k)

theorem run_pteditResolve_pread (attached : Attached sys lib w)
    (selected : lib.implementation = .userPread) (address : Word) (pid : Pid) :
    Prog.run (sysHandler sys) (pteditResolve lib address pid) w =
      some ((sys.preadWalk lib w.kernel address pid).resolved (sizeOfInt pid), w) := by
  unfold pteditResolve
  rw [selected]
  exact run_pteditResolveUserExt attached fun a _ => run_pteditPhysReadPread a

theorem writes_bind_of_some {α β : Type} {p : Sys α} {f : α → Sys β} {w' : World} {value : α}
    (first : Prog.run (sysHandler sys) p w = some (value, w')) :
    sys.writes (p >>= f) w = sys.writes p w ++ sys.writes (f value) w' := by
  unfold System.writes
  rw [Prog.trace_bind_of_some first, List.filterMap_append]

theorem writes_eq_nil {α : Type} {p : Sys α} (only : p.Performs fun op => op.written = none)
    (w : World) : sys.writes p w = [] :=
  List.filterMap_eq_nil_iff.mpr (only.trace w)

theorem unwritten_allowsReads (lib : Lib) : AllowsReads lib fun op => op.written = none :=
  ⟨fun _ _ => rfl, fun _ _ => rfl, fun _ _ => rfl, fun _ => rfl, rfl⟩

/-- The write that stores a word. -/
def writeOf (lib : Lib) (store : Word × Word) : Int × Word × List (BitVec 8) :=
  (lib.umem, store.1, ByteMem.bytesOfWord store.2)

/-- The code performs these stores with `pwrite`, and nothing else. -/
def PerformsStores (sys : System) (lib : Lib) (w : World) (p : Sys Unit)
    (stores : List (Word × Word)) : Prop :=
  Prog.run (sysHandler sys) p w =
      some ((), w.withMem (stores.foldl (sys.pwriteWord lib) w.kernel.mem)) ∧
    sys.writes p w = stores.map (writeOf lib)

theorem PerformsStores.then {p q : Sys Unit} {first second : List (Word × Word)}
    (before : PerformsStores sys lib w p first)
    (after : ∀ mem, PerformsStores sys lib (w.withMem mem) q second) :
    PerformsStores sys lib w (p >>= fun _ => q) (first ++ second) := by
  obtain ⟨ran, wrote⟩ := before
  obtain ⟨ran', wrote'⟩ := after (first.foldl (sys.pwriteWord lib) w.kernel.mem)
  refine ⟨(Prog.run_bind_of_some ran).trans ?_, ?_⟩
  · rw [ran', List.foldl_append]
    rfl
  · rw [writes_bind_of_some ran, wrote, wrote', List.map_append]

/-- A first part that changes and writes nothing does not count. -/
theorem PerformsStores.skip {α : Type} {p : Sys α} {f : α → Sys Unit} {value : α}
    {stores : List (Word × Word)} (ran : Prog.run (sysHandler sys) p w = some (value, w))
    (only : p.Performs fun op => op.written = none)
    (rest : PerformsStores sys lib w (f value) stores) :
    PerformsStores sys lib w (p >>= f) stores := by
  refine ⟨(Prog.run_bind_of_some ran).trans rest.1, ?_⟩
  rw [writes_bind_of_some ran, writes_eq_nil only w, List.nil_append]
  exact rest.2

theorem performsStores_pure : PerformsStores sys lib w (pure ()) [] := ⟨rfl, rfl⟩

theorem performsStores_pteditInvalidateTlbPid (attached : Attached sys lib w) (pid : Pid)
    (address : Word) : PerformsStores sys lib w (pteditInvalidateTlbPid lib pid address) [] :=
  ⟨run_pteditInvalidateTlbPid attached pid address,
    writes_eq_nil (performs_pteditInvalidateTlbPid (fun _ _ => rfl) pid address) _⟩

theorem performsStores_pteditPhysWritePwrite (store : Word × Word) :
    PerformsStores sys lib w (pteditPhysWritePwrite lib store.1 store.2) [store] := by
  refine ⟨run_pteditPhysWritePwrite store w.kernel.mem, ?_⟩
  have traced : (pteditPhysWritePwrite lib store.1 store.2).trace (sysHandler sys) w =
      [SysOp.pwrite lib.umem (ByteMem.bytesOfWord store.2) store.1] := by
    refine congrArg (List.cons _) ?_
    cases sysHandler sys (SysOp.pwrite lib.umem (ByteMem.bytesOfWord store.2) store.1) w <;> rfl
  rw [System.writes, traced]
  rfl

theorem performsStores_pteditUpdateLevel (k : Kernel) (pid : Pid) (address : Word)
    (vm current : PteditEntry) (level : Level) :
    PerformsStores sys lib w
      (pteditUpdateLevel lib (pteditPhysWritePwrite lib) (sys.userRoot lib k pid) address vm current
        level) (levelUpdate (sys.userWalk lib k address pid) vm current level) := by
  have one := @performsStores_pteditPhysWritePwrite sys lib w (updateSlot lib.arch
    lib.pagingDefinition (sys.userRoot lib k pid) address current level, vm.field level)
  unfold pteditUpdateLevel
  by_cases selected : Selected lib.pagingDefinition vm current level
  · rw [if_pos selected, levelUpdate, if_pos (by exact selected)]
    exact one
  · rw [if_neg selected, levelUpdate, if_neg (by exact selected)]
    exact performsStores_pure

/-- `ptedit_update` under the pread implementation performs the stores of the walk it
makes. -/
theorem performsStores_pteditUpdate (attached : Attached sys lib w)
    (selected : lib.implementation = .userPread) (address : Word) (pid : Pid) (vm : PteditEntry) :
    PerformsStores sys lib w (pteditUpdate lib address pid vm)
      (userStores (sys.userWalk lib w.kernel address pid) vm
        ((sys.preadWalk lib w.kernel address pid).resolved (sizeOfInt pid))) := by
  have reads := unwritten_allowsReads lib
  have resolves := run_pteditResolve_pread attached selected address pid
  have root := run_pteditUserRoot attached pid
  have invalidate := fun mem =>
    performsStores_pteditInvalidateTlbPid (attached.withMem mem) pid address
  have update := fun mem => @performsStores_pteditUpdateLevel sys lib (w.withMem mem) w.kernel pid
    address vm ((sys.preadWalk lib w.kernel address pid).resolved (sizeOfInt pid))
  have walked : PerformsStores sys lib w
      (pteditUpdateUserExt lib address pid vm (pteditPhysWritePwrite lib))
      (userStores (sys.userWalk lib w.kernel address pid) vm
        ((sys.preadWalk lib w.kernel address pid).resolved (sizeOfInt pid))) := by
    refine .skip resolves (performs_pteditResolve reads address pid) ?_
    refine .skip root (performs_pteditUserRoot reads pid) ?_
    by_cases noRoot : sys.userRoot lib w.kernel pid = 0
    · have stopped : ∀ level, ¬ ((sys.preadWalk lib w.kernel address pid).resolved
          (sizeOfInt pid)).Valid level :=
        fun level valid =>
          Walk.not_valid_of_noRoot noRoot level ((Walk.valid_resolved _ _ _).mp valid)
      rw [if_pos noRoot, userStores_of_not_valid stopped]
      exact performsStores_pure
    · rw [if_neg noRoot]
      have stored := (update w.kernel.mem .pte).then fun mem => (update mem .pmd).then fun mem =>
        (update mem .pud).then fun mem => (update mem .p4d).then fun mem =>
        (update mem .pgd).then invalidate
      simp only [userStores, updateOrder, List.flatMap_cons, List.flatMap_nil]
      exact stored
  unfold pteditUpdate
  rw [selected]
  have done := walked.then invalidate
  rw [List.append_nil] at done
  exact done

end Pread

/-! ## The calling process under two pids -/

/-- The stores do not depend on the pid in the entry that was resolved. -/
theorem userStores_resolved (walk read : Walk) (vm : PteditEntry) (pid pid' : Word) :
    userStores walk vm (read.resolved pid) = userStores walk vm (read.resolved pid') := by
  have field : ∀ level, (read.resolved pid).field level = (read.resolved pid').field level := by
    intro level
    rw [Walk.field_resolved, Walk.field_resolved]
  refine congrArg (fun stores => updateOrder.flatMap stores) ?_
  funext level
  unfold levelUpdate updateSlot
  simp only [field]
  rfl

/-- With the right root in the cache both pids name the same tables. -/
theorem RootCached.coherent {sys : System} {own : Pid} {c : Lib × World}
    (cached : RootCached sys c)
    (sameMm : sys.host.getMm (sizeOfInt own) = sys.host.getMm 0) : OwnRootCoherent sys own c := by
  obtain ⟨lib, w⟩ := c
  obtain ⟨attached, cached⟩ := cached
  dsimp only at attached cached
  have reported : sys.pagingRoot w.kernel own = sys.pagingRoot w.kernel 0 := by
    unfold System.pagingRoot reportedRoot
    rw [sameMm]
    rfl
  have root : lib.implementation = .userPread →
      sys.userRoot lib w.kernel own = sys.userRoot lib w.kernel 0 := by
    intro selected
    unfold System.userRoot
    rw [if_pos rfl, cached selected, reported, ite_self]
  have walk : lib.implementation = .userPread → ∀ address read,
      sys.walkOver lib w.kernel address own read = sys.walkOver lib w.kernel address 0 read := by
    intro selected address read
    unfold System.walkOver
    rw [root selected]
  have pread : lib.implementation = .userPread → ∀ address,
      sys.preadWalk lib w.kernel address own = sys.preadWalk lib w.kernel address 0 :=
    fun selected address => walk selected address _
  refine ⟨fun selected address => ?_, fun selected address vm => ?_⟩
  · refine ⟨_, _, run_pteditResolve_pread attached selected address 0,
      run_pteditResolve_pread attached selected address own, ?_, fun level => ?_⟩
    · rw [pread selected]
      rfl
    · rw [pread selected, Walk.field_resolved, Walk.field_resolved]
  · have first := performsStores_pteditUpdate attached selected address 0 vm
    have second := performsStores_pteditUpdate attached selected address own vm
    rw [show sys.userWalk lib w.kernel address own = sys.userWalk lib w.kernel address 0 from
      walk selected address _, pread selected,
      userStores_resolved _ _ vm (sizeOfInt own) (sizeOfInt 0)] at second
    exact ⟨_, first.1, second.1, second.2.trans first.2.symm⟩

/-- **The cached root stays coherent.**  In every run of library calls none of which
moves the own root under the pread implementation, the pid 0 and the process's own
pid resolve and update the same tables wherever that implementation is selected. -/
theorem ownRoot_coherent {sys : System} {own : Pid} {lib : Lib} {w : World} {calls : List LibCall}
    {c : Lib × World} (attached : Attached sys lib w) (unselected : lib.implementation ≠ .userPread)
    (inverse : ∀ p, sys.host.virtToPhys (sys.host.physToVirt p) = p)
    (sameMm : sys.host.getMm (sizeOfInt own) = sys.host.getMm 0)
    (run : GuardedRun sys.stepCall (KeepsOwnRoot sys) (lib, w) calls c) :
    OwnRootCoherent sys own c := by
  have start : RootCached sys (lib, w) :=
    ⟨attached, fun selected => absurd selected unselected⟩
  have reached : RootCached sys c :=
    run.invariant (fun _ _ _ before keeps taken => rootCached_step inverse before keeps taken) start
  exact reached.coherent sameMm

/-- The sample library as `ptedit_init` leaves it. -/
def sampleInitLib : Lib := { sampleLib with pagingRoot := 0, implementation := .kernel }

theorem sampleInit_attached : Attached sampleSystem sampleInitLib sampleWorld :=
  ⟨rfl, rfl, sampleKernel_loaded⟩

theorem stepCall_useImplementation_sample :
    sampleSystem.stepCall (.useImplementation pteditImplUserPread) (sampleInitLib, sampleWorld) =
      some (sampleLib, sampleWorld) := by
  have root : sampleSystem.pagingRoot sampleWorld.kernel 0 = 0x1000 := pagingRoot_sample sampleMem
  have ran := run_pteditUseImplementation sampleInit_attached pteditImplUserPread
  rw [System.useImplementation, root] at ran
  exact ran

/-- Setting the root of pid 0 to an empty table leaves the old one in the cache: pid 0
still resolves through it, the own pid 1 finds nothing. -/
theorem setPagingRoot_leaves_cache :
    let calls : List LibCall := [.useImplementation pteditImplUserPread, .setPagingRoot 0 0x5000]
    let c : Lib × World := (sampleLib, sampleWorld.withRoot sampleSystem 0 0x5000)
    Attached sampleSystem sampleInitLib sampleWorld ∧
    (∀ p, sampleHost.virtToPhys (sampleHost.physToVirt p) = p) ∧
    sampleHost.getMm (sizeOfInt 1) = sampleHost.getMm 0 ∧
    runSchedule sampleSystem.stepCall calls (sampleInitLib, sampleWorld) = some c ∧
    ¬ OwnRootCoherent sampleSystem 1 c := by
  intro calls c
  have moved : Attached sampleSystem c.1 c.2 := sample_attached.withRoot 0 0x5000
  have moves : sampleSystem.stepCall (.setPagingRoot 0 0x5000) (sampleLib, sampleWorld) = some c :=
    Prog.run_bind_of_some (run_pteditSetPagingRoot sample_attached 0 0x5000)
  have nothing : ((sampleSystem.preadWalk sampleLib c.2.kernel 0 1).resolved
      (sizeOfInt 1)).valid = 0 := by
    decide +kernel
  have found : ((sampleSystem.preadWalk sampleLib c.2.kernel 0 0).resolved
      (sizeOfInt 0)).valid ≠ 0 := by
    decide +kernel
  refine ⟨sampleInit_attached, physicalOf_directMap, by decide, ?_, fun coherent => ?_⟩
  · rw [runSchedule_cons, stepCall_useImplementation_sample, Option.bind_some,
      runSchedule_cons, moves]
    rfl
  · obtain ⟨r, rOwn, resolves, resolvesOwn, same, -⟩ := coherent.resolve rfl 0
    rw [run_pteditResolve_pread moved rfl] at resolves resolvesOwn
    have here := congrArg Prod.fst (Option.some.inj resolves)
    have own := congrArg Prod.fst (Option.some.inj resolvesOwn)
    dsimp only at here own
    rw [← here, ← own, nothing] at same
    exact found same.symm

/-- Setting the own root to the one that it is, and a serializing barrier. -/
theorem ownRoot_coherent_sample :
    ∃ c, runSchedule sampleSystem.stepCall
        [.useImplementation pteditImplUserPread, .setPagingRoot 0 0x1000, .fullSerializingBarrier]
        (sampleInitLib, sampleWorld) = some c ∧
      OwnRootCoherent sampleSystem 1 c := by
  let kept := sampleWorld.withRoot sampleSystem 0 0x1000
  have root : sampleSystem.pagingRoot sampleWorld.kernel 0 = 0x1000 := pagingRoot_sample sampleMem
  have keptAttached : Attached sampleSystem sampleLib kept := sample_attached.withRoot 0 0x1000
  have sets : sampleSystem.stepCall (.setPagingRoot 0 0x1000) (sampleLib, sampleWorld) =
      some (sampleLib, kept) :=
    Prog.run_bind_of_some (run_pteditSetPagingRoot sample_attached 0 0x1000)
  have serializes : sampleSystem.stepCall .fullSerializingBarrier (sampleLib, kept) = some _ :=
    Prog.run_bind_of_some (run_pteditFullSerializingBarrier keptAttached)
  have keepsRoot :
      KeepsOwnRoot sampleSystem (.setPagingRoot 0 0x1000) (sampleLib, sampleWorld) := by
    rintro _ _ _ same _ _ _
    cases same
    exact root.symm
  have run := GuardedRun.cons (fun _ _ _ same => by cases same) stepCall_useImplementation_sample
    (.cons keepsRoot sets (.cons (fun _ _ _ same => by cases same) serializes (.nil _)))
  refine ⟨_, ?_, ownRoot_coherent sampleInit_attached (by decide) physicalOf_directMap
    (by decide) run⟩
  rw [runSchedule_cons, stepCall_useImplementation_sample, Option.bind_some, runSchedule_cons,
    sets, Option.bind_some, runSchedule_cons, serializes]
  rfl

end PTEditor
