import PTEditor.Foundation.Interleaving
import PTEditor.Module.Linux
import PTEditor.Module.Load
import PTEditor.Module.Pointers

/-!
# Requests while the module loads

`pteditor_init` registers the device before it stores `flush_tlb_mm_range_func` and
`invalidate_tlb`.  `StartUp` runs it one operation at a time next to any number of
callers whose requests are served one operation at a time as well; a caller may issue a
request as soon as the device is registered, also after `pteditor_init` has failed.

A request is `Timely` when what it calls through has been stored by the time it is
issued.  `pointersSet_iff`: while all requests are, no unset pointer is called, and a
request that is not would call one if nothing else happened from then on.
-/

namespace PTEditor

open KernelProg

/-- What a caller passes to `device_ioctl`: the kernel as the caller sees it, the
arguments, and the memory behind them. -/
structure Request where
  host : Host
  copy : UserCopy
  cmd : Cmd
  param : Word
  arg : Block
  user : ByteMem

/-- A request that is being served: what is left to do, and the caller's memory. -/
structure Service where
  request : Request
  rest : KernelProg Int
  arg : Block
  user : ByteMem

def Request.start (q : Request) : Service where
  request := q
  rest := deviceIoctl q.host q.cmd q.param
  arg := q.arg
  user := q.user

def Service.callState (v : Service) (k : Kernel) : CallState := ⟨k, v.arg, v.user⟩

/-- An operation that was performed, and by whom. -/
inductive Performed (ι : Type) where
  | init (op : LoadOp)
  | request (caller : ι) (op : KernelOp)

/-- `pteditor_init` with what is left of it, the requests that are being served, and the
operations performed so far. -/
structure StartUp (ι : Type) where
  loading : Loading
  init : LoadProg Int
  services : ι → Option Service
  log : List (Performed ι)

/-- Who acts next. -/
inductive StartAct (ι : Type) where
  | init
  | issue (caller : ι) (request : Request)
  | serve (caller : ι)

namespace StartUp

variable {ι : Type}

/-- The next operation of `pteditor_init`. -/
def stepInit (o : Outcomes) (c : StartUp ι) : Option (StartUp ι) :=
  match c.init with
  | .ret _ => none
  | .call op next =>
      (loadHandler o op c.loading).map fun (r, loading) =>
        { c with loading, init := next r, log := .init op :: c.log }

variable [DecidableEq ι]

/-- An idle caller issues a request, which takes the device to be registered. -/
def issue (arch : Arch) (caller : ι) (q : Request) (c : StartUp ι) : Option (StartUp ι) :=
  if c.loading.registered .miscDevice ∧ (c.services caller).isNone ∧ q.host.arch = arch then
    some { c with services := Function.update c.services caller (some q.start) }
  else
    none

/-- The next operation of a request, or its return. -/
def serve (caller : ι) (c : StartUp ι) : Option (StartUp ι) :=
  match c.services caller with
  | none => none
  | some v =>
      match v.rest with
      | .ret _ => some { c with services := Function.update c.services caller none }
      | .call op next =>
          (kernelHandler v.request.host v.request.copy op (v.callState c.loading.kernel)).map
            fun (r, s) =>
              { c with
                loading := { c.loading with kernel := s.kernel }
                services := Function.update c.services caller
                  (some { v with rest := next r, arg := s.arg, user := s.user })
                log := .request caller op :: c.log }

def step (o : Outcomes) (arch : Arch) : StartAct ι → StartUp ι → Option (StartUp ι)
  | .init, c => c.stepInit o
  | .issue caller q, c => c.issue arch caller q
  | .serve caller, c => c.serve caller

/-- `pteditor_init` is about to start. -/
def start (s : Loading) (arch : Arch) (kprobeLookup : Bool) : StartUp ι where
  loading := s
  init := pteditorInit arch kprobeLookup
  services := fun _ => none
  log := []

end StartUp

/-! ## Pointers -/

/-- The method that an operation stores in `invalidate_tlb`. -/
def Performed.method {ι : Type} : Performed ι → Option TlbMethod
  | .init (.setInvalidateTlb method) => some method
  | .request _ (.setInvalidateTlb method) => some method
  | _ => none

/-- The operation stores an address in `flush_tlb_mm_range_func`. -/
def Performed.storesFlush {ι : Type} : Performed ι → Bool
  | .init (.setFlushTlbMmRangeFunc found) => found
  | _ => false

/-- `invalidate_tlb` has been stored, by `pteditor_init` or by a request. -/
def MethodStored {ι : Type} (log : List (Performed ι)) : Prop :=
  ∃ event ∈ log, event.method.isSome

/-- `pteditor_init` has stored the address of `flush_tlb_mm_range`. -/
def FlushStored {ι : Type} (log : List (Performed ι)) : Prop :=
  ∃ event ∈ log, event.storesFlush = true

/-- The pointers that a request calls through have been stored. -/
def Request.Timely {ι : Type} (q : Request) (c : StartUp ι) : Prop :=
  ∀ pid, flushPid q.host q.copy (q.start.callState c.loading.kernel) q.cmd = some pid →
    MethodStored c.log ∧ (q.host.FlushesRange pid → FlushStored c.log)

/-- Every request is timely. -/
def StartAct.Timely {ι : Type} : StartAct ι → StartUp ι → Prop
  | .issue _ q, c => q.Timely c
  | _, _ => True

/-- The next operation goes through no unset pointer. -/
def Kernel.Calls (k : Kernel) : KernelProg Int → Prop
  | .ret _ => True
  | .call op _ => k.pointerSet op = true

/-- No request is about to call through an unset pointer. -/
def StartUp.PointersSet {ι : Type} (c : StartUp ι) : Prop :=
  ∀ caller v, c.services caller = some v → c.loading.kernel.Calls v.rest

/-! ## What each party stores -/

/-- What `pteditor_init` may store, where `found` says whether there is an address of
`flush_tlb_mm_range`. -/
def LoadOp.Stores (found : Bool) : LoadOp → Prop
  | .setFlushTlbMmRangeFunc stored => stored = found
  | .setInvalidateTlb method => method = .kernel
  | _ => True

/-- Nothing but its own answers decides what `pteditor_init` does. -/
def AnyChange (_ _ : Loading) : Prop := True

section Stores

variable {o : Outcomes} {arch : Arch}

theorem performs_setUp (found : Bool) (arch : Arch) :
    (setUp arch).Performs (LoadOp.Stores found) := by
  have op : ∀ op : LoadOp, op.Stores found →
      (Prog.perform op : LoadProg op.Res).Performs (LoadOp.Stores found) :=
    fun op allowed => Prog.Performs.perform allowed
  have size : (readPageSize arch).Performs (LoadOp.Stores found) := by
    cases arch with
    | x86_64 => trivial
    | aarch64 =>
        refine (op .mrsTcrEl1 trivial).bind fun tcr => ?_
        split
        · exact op (.setPageSize _ _) trivial
        · split
          · exact op (.setPageSize _ _) trivial
          · trivial
  have umem : createUmem.Performs (LoadOp.Stores found) := by
    refine (op (.kallsymsLookupName _) trivial).bind fun lseek => ?_
    refine (op (.kallsymsLookupName _) trivial).bind fun read => ?_
    refine (op (.kallsymsLookupName _) trivial).bind fun write => ?_
    refine (op (.kallsymsLookupName _) trivial).bind fun mmap => ?_
    split
    · trivial
    · exact (op .procCreate trivial).bind fun _ => op .setHasUmem trivial
  refine (op (.setInvalidateTlb .kernel) rfl).bind fun _ => size.bind fun _ => ?_
  exact (op .registerKretprobe trivial).bind fun _ => umem.bind fun _ => trivial

/-- `pteditor_init` stores the address that it looked up, and the kernel's method. -/
theorem performsAmid_pteditorInit (kprobeLookup : Bool) (s : Loading) :
    (pteditorInit arch kprobeLookup).PerformsAmid (loadHandler o) AnyChange
      (LoadOp.Stores (o.kallsymsLookupName .flushTlbMmRange)) s := by
  have lookup : (findKallsymsLookupName kprobeLookup).Performs
      (LoadOp.Stores (o.kallsymsLookupName .flushTlbMmRange)) := by
    cases kprobeLookup
    · trivial
    · exact ⟨trivial, fun _ => ⟨trivial, fun _ => ⟨trivial, fun _ => trivial⟩⟩⟩
  have flush : ∀ s, (findFlushTlbMmRange arch).PerformsAmid (loadHandler o) AnyChange
      (LoadOp.Stores (o.kallsymsLookupName .flushTlbMmRange)) s := by
    intro s
    cases arch with
    | aarch64 => trivial
    | x86_64 =>
        refine Prog.performsAmid_perform_bind trivial fun s₁ found s₂ _ answer => ?_
        cases answer
        exact Prog.performsAmid_perform_bind rfl fun _ _ _ _ _ => trivial
  refine (lookup.amid s).bind fun found s₁ => ?_
  split
  · trivial
  · refine Prog.performsAmid_perform_bind trivial fun s₂ r s₃ _ _ => ?_
    split
    · trivial
    · refine (flush s₃).bind fun found s₄ => ?_
      split
      · trivial
      · exact (performs_setUp _ arch).amid s₄

/-- What an operation of `pteditor_init` stores is there after it, and the rest stays. -/
theorem pointers_of_load {ι : Type} {op : LoadOp} {s s' : Loading} {r : op.Res}
    (answer : loadHandler o op s = some (r, s')) :
    s'.kernel.invalidateTlb =
        ((Performed.init op : Performed ι).method).or s.kernel.invalidateTlb ∧
      ((op = .setFlushTlbMmRangeFunc s'.kernel.flushTlbMmRangeFunc) ∨
        ((Performed.init op : Performed ι).storesFlush = false ∧
          s'.kernel.flushTlbMmRangeFunc = s.kernel.flushTlbMmRangeFunc)) := by
  cases op <;> cases answer
  case setFlushTlbMmRangeFunc found => exact ⟨rfl, .inl rfl⟩
  all_goals exact ⟨rfl, .inr ⟨rfl, rfl⟩⟩

/-- The same for an operation of a request, which never stores the address of the flush. -/
theorem pointers_of_request {ι : Type} {host : Host} {copy : UserCopy} {op : KernelOp}
    {s s' : CallState} {r : op.Res} (caller : ι)
    (answer : kernelHandler host copy op s = some (r, s')) :
    s'.kernel.invalidateTlb =
        ((Performed.request caller op).method).or s.kernel.invalidateTlb ∧
      s'.kernel.flushTlbMmRangeFunc = s.kernel.flushTlbMmRangeFunc := by
  cases op with
  | setEntry level pointer value =>
      cases pointer with
      | none => cases answer
      | some pointer =>
          obtain rfl := (Prod.mk.inj (Option.some.inj answer)).2
          exact ⟨rfl, rfl⟩
  | invalidateTlb =>
      obtain ⟨_, _, same⟩ := Option.map_eq_some_iff.mp answer
      obtain rfl := congrArg Prod.snd same
      exact ⟨rfl, rfl⟩
  | flushTlbMmRange =>
      simp only [kernelHandler, Option.ite_none_right_eq_some] at answer
      obtain rfl := congrArg Prod.snd (Option.some.inj answer.2)
      exact ⟨rfl, rfl⟩
  | oops => cases answer
  | _ =>
      obtain rfl := (Prod.mk.inj (Option.some.inj answer)).2
      exact ⟨rfl, rfl⟩

end Stores

theorem methodStored_cons {ι : Type} {event : Performed ι} {log : List (Performed ι)} :
    MethodStored (event :: log) ↔ event.method.isSome ∨ MethodStored log := by
  simp only [MethodStored, List.mem_cons, exists_eq_or_imp]

theorem flushStored_cons {ι : Type} {event : Performed ι} {log : List (Performed ι)} :
    FlushStored (event :: log) ↔ event.storesFlush = true ∨ FlushStored log := by
  simp only [FlushStored, List.mem_cons, exists_eq_or_imp]

/-! ## The invariant -/

/-- Whatever happens next, a service calls only through what the log has stored. -/
structure Service.Covered {ι : Type} (arch : Arch) (log : List (Performed ι)) (k : Kernel)
    (v : Service) : Prop where
  host : v.request.host.arch = arch
  rest : v.rest.PerformsAmid (kernelHandler v.request.host v.request.copy) KernelChanges
    (KernelOp.Permitted v.request.host (MethodStored log) (FlushStored log)) (v.callState k)

/-- The log only grows, and the kernel may change. -/
theorem Service.Covered.after {ι : Type} {arch : Arch} {log : List (Performed ι)} {k : Kernel}
    {v : Service} (covered : v.Covered arch log k) (event : Performed ι) (k' : Kernel) :
    v.Covered arch (event :: log) k' := by
  have later : v.rest.PerformsAmid (kernelHandler v.request.host v.request.copy) KernelChanges
      (KernelOp.Permitted v.request.host (MethodStored log) (FlushStored log)) (v.callState k') :=
    covered.rest.changed fun _ kept => kept
  refine ⟨covered.host, later.mono fun op allowed => ?_⟩
  cases op with
  | invalidateTlb => exact methodStored_cons.mpr (.inr allowed)
  | flushTlbMmRange => exact flushStored_cons.mpr (.inr allowed)
  | setInvalidateTlb => exact allowed
  | _ => trivial

/-- The pointers are what the log has stored, and can be. -/
structure PointersAgree {ι : Type} (o : Outcomes) (arch : Arch) (log : List (Performed ι))
    (k : Kernel) : Prop where
  method : MethodStored log ↔ k.invalidateTlb.isSome
  flush : FlushStored log ↔ k.flushTlbMmRangeFunc = true
  found : k.flushTlbMmRangeFunc = true → o.kallsymsLookupName .flushTlbMmRange = true
  installable : ∀ host : Host, host.arch = arch → ∀ method, k.invalidateTlb = some method →
    method.Installable host

/-- What holds in every state that a run of timely requests reaches. -/
structure StartUp.Inv {ι : Type} (o : Outcomes) (arch : Arch) (c : StartUp ι) : Prop where
  pointers : PointersAgree o arch c.log c.loading.kernel
  init : c.init.PerformsAmid (loadHandler o) AnyChange
    (LoadOp.Stores (o.kallsymsLookupName .flushTlbMmRange)) c.loading
  services : ∀ caller v, c.services caller = some v → v.Covered arch c.log c.loading.kernel

/-- A module whose function pointers are as the loader leaves them. -/
structure Loading.Fresh (s : Loading) : Prop where
  invalidateTlb : s.kernel.invalidateTlb = none
  flushTlbMmRangeFunc : s.kernel.flushTlbMmRangeFunc = false

section Pointers

variable {ι : Type} {o : Outcomes} {arch : Arch} {log : List (Performed ι)} {k k' : Kernel}

/-- An operation that stores in `invalidate_tlb` at most. -/
theorem PointersAgree.store (agree : PointersAgree o arch log k) {event : Performed ι}
    (stored : k'.invalidateTlb = event.method.or k.invalidateTlb)
    (flush : FlushStored (event :: log) ↔ k'.flushTlbMmRangeFunc = true)
    (found : k'.flushTlbMmRangeFunc = true → o.kallsymsLookupName .flushTlbMmRange = true)
    (installs : ∀ host : Host, host.arch = arch → ∀ method, event.method = some method →
      method.Installable host) : PointersAgree o arch (event :: log) k' := by
  refine ⟨?_, flush, found, fun host sameArch method now => ?_⟩
  · rw [methodStored_cons, agree.method, stored, Option.isSome_or, Bool.or_eq_true]
  · rw [stored] at now
    cases stores : event.method with
    | none =>
        rw [stores, Option.none_or] at now
        exact agree.installable host sameArch method now
    | some installed =>
        rw [stores, Option.some_or] at now
        cases now
        exact installs host sameArch method stores

theorem flushStored_of_silent (agree : PointersAgree o arch log k) {event : Performed ι}
    (silent : event.storesFlush = false) (same : k'.flushTlbMmRangeFunc = k.flushTlbMmRangeFunc) :
    FlushStored (event :: log) ↔ k'.flushTlbMmRangeFunc = true := by
  rw [flushStored_cons, agree.flush, silent, same]
  exact or_iff_right Bool.false_ne_true

theorem PointersAgree.load (agree : PointersAgree o arch log k) {op : LoadOp} {s s' : Loading}
    {r : op.Res} (before : s.kernel = k)
    (allowed : op.Stores (o.kallsymsLookupName .flushTlbMmRange))
    (answer : loadHandler o op s = some (r, s')) :
    PointersAgree o arch (.init op :: log) s'.kernel := by
  subst before
  obtain ⟨stored, flush⟩ := @pointers_of_load o ι op s s' r answer
  have installs : ∀ host : Host, host.arch = arch → ∀ method,
      (Performed.init op : Performed ι).method = some method → method.Installable host := by
    intro host _ method stores
    cases op <;> cases stores
    rw [show method = TlbMethod.kernel from allowed]
    trivial
  rcases flush with is | ⟨silent, same⟩
  · subst is
    refine agree.store stored ?_ (fun set => allowed.symm.trans set) installs
    -- the address is stored once more only where it is the one that is there
    rw [flushStored_cons, agree.flush]
    exact or_iff_left_of_imp fun set => allowed.trans (agree.found set)
  · exact agree.store stored (flushStored_of_silent agree silent same)
      (fun set => agree.found (same.symm.trans set)) installs

theorem PointersAgree.request (agree : PointersAgree o arch log k) {host : Host} {copy : UserCopy}
    {op : KernelOp} {s s' : CallState} {r : op.Res} (caller : ι) {method flush : Prop}
    (before : s.kernel = k) (sameArch : host.arch = arch)
    (allowed : op.Permitted host method flush)
    (answer : kernelHandler host copy op s = some (r, s')) :
    PointersAgree o arch (.request caller op :: log) s'.kernel := by
  subst before
  obtain ⟨stored, same⟩ := pointers_of_request caller answer
  have silent : (Performed.request caller op).storesFlush = false := rfl
  refine agree.store stored (flushStored_of_silent agree silent same)
    (fun set => agree.found (same.symm.trans set)) fun other otherArch installed stores => ?_
  cases op <;> cases stores
  cases installed with
  | kernel => trivial
  | custom => exact otherArch.trans (sameArch.symm.trans allowed)

end Pointers

/-! ## Steps and runs -/

namespace StartUp

variable {ι : Type} {o : Outcomes} {arch : Arch} {c c' : StartUp ι}

theorem inv_start {s : Loading} (fresh : s.Fresh) (kprobeLookup : Bool) :
    Inv o arch (start s arch kprobeLookup : StartUp ι) where
  pointers :=
    { method := by simp [MethodStored, start, fresh.invalidateTlb]
      flush := by simp [FlushStored, start, fresh.flushTlbMmRangeFunc]
      found := fun stored => absurd (fresh.flushTlbMmRangeFunc.symm.trans stored) (by decide)
      installable := fun _ _ method stored =>
        absurd (fresh.invalidateTlb.symm.trans stored).symm (Option.some_ne_none method) }
  init := performsAmid_pteditorInit kprobeLookup s
  services _ _ serving := by cases serving

theorem inv_stepInit (inv : Inv o arch c) (next : c.stepInit o = some c') : Inv o arch c' := by
  have only := inv.init
  unfold stepInit at next
  cases program : c.init with
  | ret value =>
      rw [program] at next
      cases next
  | call op rest =>
      rw [program] at next only
      obtain ⟨⟨r, loading⟩, answer, rfl⟩ := Option.map_eq_some_iff.mp next
      exact ⟨inv.pointers.load rfl only.1 answer, only.2 _ r loading trivial answer,
        fun caller v serving => (inv.services caller v serving).after _ _⟩

/-- No service that is covered is about to call through an unset pointer. -/
theorem Inv.pointersSet (inv : Inv o arch c) : c.PointersSet := by
  intro caller v serving
  have covered := (inv.services caller v serving).rest
  unfold Kernel.Calls
  cases program : v.rest with
  | ret value => trivial
  | call op rest =>
      rw [program] at covered
      have allowed := covered.1
      cases op with
      | invalidateTlb => exact inv.pointers.method.mp allowed
      | flushTlbMmRange => exact inv.pointers.flush.mp allowed
      | _ => rfl

variable [DecidableEq ι]

/-- A caller's service is its new one, or was there before. -/
theorem serving_update {services : ι → Option Service} {caller other : ι} {w : Option Service}
    {v : Service} (serving : Function.update services caller w other = some v) :
    w = some v ∨ services other = some v := by
  by_cases same : other = caller
  · subst same
    rw [Function.update_self] at serving
    exact .inl serving
  · rw [Function.update_of_ne same] at serving
    exact .inr serving

theorem inv_issue {caller : ι} {q : Request} (inv : Inv o arch c) (timely : q.Timely c)
    (next : c.issue arch caller q = some c') : Inv o arch c' := by
  unfold issue at next
  split at next
  next enabled =>
    cases next
    refine ⟨inv.pointers, inv.init, fun other v serving => ?_⟩
    rcases serving_update serving with started | before
    · cases started
      exact ⟨enabled.2.2, performsAmid_deviceIoctl (fun pid flushes => (timely pid flushes).1)
        (fun pid flushes => (timely pid flushes).2)⟩
    · exact inv.services other v before
  next => cases next

theorem inv_serve {caller : ι} (inv : Inv o arch c) (next : c.serve caller = some c') :
    Inv o arch c' := by
  unfold serve at next
  cases serving : c.services caller with
  | none =>
      rw [serving] at next
      cases next
  | some v =>
      obtain ⟨sameArch, only⟩ := inv.services caller v serving
      rw [serving] at next
      dsimp only at next
      cases program : v.rest with
      | ret value =>
          rw [program] at next
          cases next
          refine ⟨inv.pointers, inv.init, fun other v' serving => ?_⟩
          rcases serving_update serving with gone | before
          · cases gone
          · exact inv.services other v' before
      | call op rest =>
          rw [program] at next only
          obtain ⟨⟨r, s⟩, answer, rfl⟩ := Option.map_eq_some_iff.mp next
          refine ⟨inv.pointers.request caller rfl sameArch only.1 answer, inv.init.changed
            fun _ _ => trivial, fun other v' serving => ?_⟩
          rcases serving_update serving with moved | before
          · cases moved
            have left : Service.Covered arch c.log s.kernel
                { v with rest := rest r, arg := s.arg, user := s.user } :=
              ⟨sameArch, only.2 _ r s ⟨rfl, rfl⟩ answer⟩
            exact left.after _ _
          · exact (inv.services other v' before).after _ _

theorem inv_step {act : StartAct ι} (inv : Inv o arch c) (timely : act.Timely c)
    (next : step o arch act c = some c') : Inv o arch c' := by
  cases act with
  | init => exact inv_stepInit inv next
  | issue caller q => exact inv_issue inv timely next
  | serve caller => exact inv_serve inv next

/-- **Runs.**  In every state that a run of timely requests reaches, no request is about to
call through an unset pointer. -/
theorem inv_of_run {s : Loading} (fresh : s.Fresh) {kprobeLookup : Bool}
    {schedule : List (StartAct ι)}
    (run : GuardedRun (step o arch) StartAct.Timely (start s arch kprobeLookup) schedule c) :
    Inv o arch c :=
  run.invariant (fun _ _ _ inv timely next => inv_step inv timely next)
    (inv_start fresh kprobeLookup)

/-! ## A request that is not timely -/

/-- A service that would call through an unset pointer does so when it is the only one that
goes on. -/
theorem unset_of_watch {caller : ι} {v : Service} (serving : c.services caller = some v)
    (objects : Prog.watch (kernelHandler v.request.host v.request.copy) unsetPointer v.rest
      (v.callState c.loading.kernel) () = none) :
    ∃ schedule c', GuardedRun (step o arch) StartAct.Timely c schedule c' ∧ ¬ c'.PointersSet := by
  obtain ⟨q, rest, arg, user⟩ := v
  induction rest generalizing c arg user with
  | ret value => cases objects
  | call op next ih =>
      cases seen : unsetPointer op ⟨c.loading.kernel, arg, user⟩ () with
      | none =>
          refine ⟨[], c, .nil c, fun set => ?_⟩
          have now : c.loading.kernel.pointerSet op = true := set caller _ serving
          rw [unsetPointer, if_pos now] at seen
          cases seen
      | some ghost =>
          rw [Prog.watch, Service.callState, seen, Option.bind_some] at objects
          cases answer : kernelHandler q.host q.copy op ⟨c.loading.kernel, arg, user⟩ with
          | none =>
              rw [answer] at objects
              cases objects
          | some result =>
              rw [answer] at objects
              let c₁ : StartUp ι :=
                { c with
                  loading := { c.loading with kernel := result.2.kernel }
                  services := Function.update c.services caller
                    (some ⟨q, next result.1, result.2.arg, result.2.user⟩)
                  log := .request caller op :: c.log }
              have taken : step o arch (.serve caller) c = some c₁ := by
                change c.serve caller = _
                unfold serve
                rw [serving]
                dsimp only [Service.callState]
                rw [answer]
                rfl
              have serving₁ : c₁.services caller =
                  some ⟨q, next result.1, result.2.arg, result.2.user⟩ :=
                Function.update_self _ _ _
              obtain ⟨schedule, c', run, unset⟩ :=
                ih result.1 result.2.arg result.2.user serving₁ objects
              have allowed : (StartAct.serve caller).Timely c := trivial
              exact ⟨_, c', .cons allowed taken run, unset⟩

/-- From here on, while requests are timely, no unset pointer is called. -/
def StaysSet (o : Outcomes) (arch : Arch) (c : StartUp ι) : Prop :=
  ∀ schedule c', GuardedRun (step o arch) StartAct.Timely c schedule c' → c'.PointersSet

/-- In a state of such a run an untimely request leads to a call of an unset pointer. -/
theorem timely_of_staysSet {caller : ι} {q : Request} (inv : Inv o arch c)
    (next : step o arch (.issue caller q) c = some c') (stays : StaysSet o arch c') :
    q.Timely c := by
  dsimp only [step, issue] at next
  split at next
  next enabled =>
    cases next
    intro pid flushes
    by_contra missing
    have unset : c.loading.kernel.invalidateTlb = none ∨
        (q.host.FlushesRange pid ∧ c.loading.kernel.flushTlbMmRangeFunc = false) := by
      rw [inv.pointers.method, inv.pointers.flush, not_and_or, Classical.not_imp] at missing
      rcases missing with none | ⟨range, absent⟩
      · exact .inl (Option.not_isSome_iff_eq_none.mp none)
      · exact .inr ⟨range, Bool.eq_false_of_not_eq_true absent⟩
    have objects := @watch_deviceIoctl q.host q.copy q.cmd q.param _ pid flushes
      (inv.pointers.installable q.host enabled.2.2) unset
    obtain ⟨schedule, c', run, calls⟩ := @unset_of_watch ι o arch
      { c with services := Function.update c.services caller (some q.start) } _ caller q.start
      (Function.update_self _ _ _) objects
    exact calls (stays schedule c' run)
  next => cases next

/-- **Pointers while the module loads.**  As long as every request is timely no request calls
through an unset pointer; and each time, that a request is timely is what keeps it so. -/
theorem pointersSet_iff {s : Loading} (fresh : s.Fresh) {kprobeLookup : Bool}
    {schedule : List (StartAct ι)}
    (run : GuardedRun (step o arch) StartAct.Timely (start s arch kprobeLookup) schedule c) :
    c.PointersSet ∧ ∀ caller q c', step o arch (.issue caller q) c = some c' →
      (StaysSet o arch c' ↔ q.Timely c) := by
  have inv := inv_of_run fresh run
  refine ⟨inv.pointersSet, fun caller q c' next => ⟨timely_of_staysSet inv next, ?_⟩⟩
  intro timely schedule c'' later
  have kept : Inv o arch c'' :=
    later.invariant (fun _ _ _ inv timely next => inv_step inv timely next)
      (inv_issue inv timely next)
  exact kept.pointersSet

end StartUp

/-! ## Sample runs -/

/-- A caller's `INVALIDATE_TLB` on the sample machine. -/
def sampleInvalidate : Request where
  host := sampleHost
  copy := wholeCopy
  cmd := .invalidateTlb
  param := 0
  arg := fun _ => 0
  user := fun _ => 0

theorem freshLoading_fresh : freshLoading.Fresh := ⟨rfl, rfl⟩

/-- `pteditor_init` is about to start on x86_64, on a kernel that exports
`kallsyms_lookup_name`. -/
def sampleStart : StartUp Unit := .start freshLoading .x86_64 false

/-- A request that arrives once the device is registered calls through `invalidate_tlb` before
`pteditor_init` stores it; and also when `pteditor_init` has returned an error. -/
theorem earlyRequest_callsUnset :
    (∃ c, runSchedule (StartUp.step (lookupFails .mmapMem) .x86_64)
        [.init, .issue () sampleInvalidate] sampleStart = some c ∧ ¬ c.PointersSet) ∧
    ∃ c, runSchedule (StartUp.step (lookupFails .flushTlbMmRange) .x86_64)
        [.init, .init, .init, .issue () sampleInvalidate] sampleStart = some c ∧
      c.init = Prog.ret (-enxio) ∧ ¬ c.PointersSet := by
  refine ⟨⟨_, rfl, fun set => ?_⟩, ⟨_, rfl, rfl, fun set => ?_⟩⟩
  · exact Bool.false_ne_true (set () _ rfl)
  · exact Bool.false_ne_true (set () _ rfl)

/-- The same request once `invalidate_tlb` is stored. -/
theorem pointersSet_iff_sample :
    ∃ c, GuardedRun (StartUp.step (lookupFails .mmapMem) .x86_64) StartAct.Timely sampleStart
      [.init, .init, .init, .init, .issue () sampleInvalidate, .serve (), .serve (), .serve ()] c ∧
      c.PointersSet := by
  have timely : ∀ {c : StartUp Unit}, MethodStored c.log → FlushStored c.log →
      sampleInvalidate.Timely c := fun method flush pid _ => ⟨method, fun _ => flush⟩
  have run : GuardedRun (StartUp.step (lookupFails .mmapMem) .x86_64) StartAct.Timely sampleStart
      [.init, .init, .init, .init, .issue () sampleInvalidate, .serve (), .serve (), .serve ()] _ :=
    .cons trivial rfl (.cons trivial rfl (.cons trivial rfl (.cons trivial rfl
      (.cons (timely ⟨_, .head _, rfl⟩ ⟨_, .tail _ (.head _), rfl⟩) rfl (.cons trivial rfl
        (.cons trivial rfl (.cons trivial rfl (.nil _))))))))
  exact ⟨_, run, (StartUp.pointersSet_iff freshLoading_fresh run).1⟩

end PTEditor
