import PTEditor.Foundation.Interleaving
import PTEditor.Library.Process
import PTEditor.Library.UserSpec

/-!
# The life of a handle

A process calls `ptedit_init` and `ptedit_cleanup` in any order while its other code
opens and closes descriptors (`Session`).  `ptedit_init` overwrites its descriptor before
it knows whether the device could be opened, and `ptedit_cleanup` never resets it, so
both are safe only while the library's variables tell what it holds: `lifecycle_safe`
is about the runs in which they do.
-/

namespace PTEditor

/-- A process, the library's variables, and the descriptors that `ptedit_init` opened and
that have not been closed since. -/
structure Session where
  lib : Lib
  process : Process
  owned : Int → Bool

/-- What happens next: a call of the library, or a step of the other code. -/
inductive Act where
  | init
  | cleanup
  | openPath (path : Path)
  | close (fd : Int)
  /-- Any other calls of the library, which leave its two descriptors alone. -/
  | work (lib : Lib) (world : World)

/-- Who owns a descriptor after a step between two descriptor tables. -/
def ownedAfter (owned : Int → Bool) (before after : Int → File) (byInit : Bool) (fd : Int) :
    Bool :=
  if after fd = .closed then false
  else if before fd = .closed then byInit
  else owned fd

/-- The session with another process. -/
def Session.move (s : Session) (p : Process) (byInit : Bool) : Session :=
  { s with process := p, owned := ownedAfter s.owned s.process.files p.files byInit }

/-- One step. -/
def Session.step (m : Machine) : Act → Session → Option Session
  | .init, s =>
      (Prog.run (processHandler m) (pteditInit s.lib) s.process).map fun (result, p) =>
        { s.move p true with lib := result.2 }
  | .cleanup, s =>
      (Prog.run (processHandler m) (pteditCleanup s.lib) s.process).map fun (_, p) =>
        s.move p false
  | .openPath path, s => some (s.move (m.openPath path s.process).2 false)
  | .close fd, s => some (s.move (s.process.close fd).2 false)
  | .work lib world, s =>
      some { s with
        lib := { lib with fd := s.lib.fd, umem := s.lib.umem }
        process := { s.process with world } }

/-- A device descriptor of the library's. -/
def Session.Handle (s : Session) (fd : Int) : Prop :=
  s.owned fd = true ∧ s.process.files fd = .device

/-- Watches the closes of a run, and objects to one of a descriptor that is not owned. -/
def closeGhost (op : ProcessOp) (_ : Process) (owned : Int → Bool) : Option (Int → Bool) :=
  match op with
  | .close fd => if owned fd then some (Function.update owned fd false) else none
  | _ => some owned

/-- What is promised of a step from `s` to `s'`. -/
def Session.Safe (m : Machine) (act : Act) (s s' : Session) : Prop :=
  match act with
  | .init => ∀ lib p, Prog.run (processHandler m) (pteditInit s.lib) s.process =
      some ((-1, lib), p) → ∀ fd, s.Handle fd → s'.lib.fd = fd ∧ s'.Handle fd
  | .cleanup => (Prog.watch (processHandler m) closeGhost (pteditCleanup s.lib) s.process
      s.owned).isSome ∧ s'.process.deviceBusy = false
  | _ => True

/-- `ptedit_init` is called while no handle is held, `ptedit_cleanup` while one is or when
the library has opened nothing; the other code leaves the device and the library's
descriptors alone. -/
def Session.Guard (act : Act) (s : Session) : Prop :=
  match act with
  | .init => ∀ fd, ¬ s.Handle fd
  | .cleanup => s.Handle s.lib.fd ∨ (s.lib.fd < 0 ∧ s.lib.umem ≤ 0)
  | .openPath path => path ≠ .device
  | .close fd => s.owned fd = false
  | .work _ _ => True

/-- A process that has not called the library yet, and a free device. -/
structure Session.Start (s : Session) : Prop where
  lib : s.lib = Lib.static s.lib.arch
  owned : ∀ fd, s.owned fd = false
  none : ∀ fd, s.process.files fd ≠ .device
  idle : s.process.deviceBusy = false

/-! ## What holds in a guarded run -/

/-- The library holds the device, and its variables say so. -/
structure Session.Held (s : Session) : Prop where
  nonneg : 0 ≤ s.lib.fd
  handle : s.Handle s.lib.fd
  only : ∀ fd, s.process.files fd = .device → fd = s.lib.fd
  busy : s.process.deviceBusy = true
  umem : 0 < s.lib.umem → s.owned s.lib.umem = true ∧ s.process.files s.lib.umem = .umem

/-- The device is free, and the library's variables name no descriptor of its own. -/
structure Session.Released (s : Session) : Prop where
  none : ∀ fd, s.process.files fd ≠ .device
  idle : s.process.deviceBusy = false
  fd : 0 ≤ s.lib.fd → s.owned s.lib.fd = false
  umem : 0 < s.lib.umem → s.owned s.lib.umem = false

section Owned

variable {owned : Int → Bool} {before after : Int → File} {byInit : Bool} {fd : Int}

theorem ownedAfter_of_closed (closed : after fd = .closed) :
    ownedAfter owned before after byInit fd = false := if_pos closed

theorem ownedAfter_of_same (same : after fd = before fd) (opened : before fd ≠ .closed) :
    ownedAfter owned before after byInit fd = owned fd := by
  unfold ownedAfter
  rw [same, if_neg opened, if_neg opened]

theorem ownedAfter_of_new (closed : before fd = .closed) (opened : after fd ≠ .closed) :
    ownedAfter owned before after byInit fd = byInit := by
  unfold ownedAfter
  rw [if_neg opened, if_pos closed]

/-- A step that is not of `ptedit_init` adds no owned descriptor. -/
theorem ownedAfter_of_not_owned (unowned : owned fd = false) :
    ownedAfter owned before after false fd = false := by
  unfold ownedAfter
  rw [unowned, ite_self, ite_self]

end Owned

section Steps

variable {m : Machine} {s : Session}

theorem Session.Released.not_handle (released : s.Released) (fd : Int) : ¬ s.Handle fd :=
  fun handle => released.none fd handle.2

/-- What the other code does to descriptors that are not the library's keeps the handle. -/
theorem Session.Held.move (held : s.Held) {p : Process}
    (same : ∀ fd, s.owned fd = true → s.process.files fd ≠ .closed →
      p.files fd = s.process.files fd)
    (device : ∀ fd, p.files fd = .device → s.process.files fd = .device)
    (busy : p.deviceBusy = s.process.deviceBusy) : (s.move p false).Held := by
  have kept : ∀ fd, s.owned fd = true → s.process.files fd ≠ .closed →
      (s.move p false).owned fd = true := fun fd owned opened =>
    (ownedAfter_of_same (same fd owned opened) opened).trans owned
  obtain ⟨owned, isDevice⟩ := held.handle
  have opened : s.process.files s.lib.fd ≠ .closed := by
    rw [isDevice]
    exact fun closed => nomatch closed
  refine ⟨held.nonneg, ⟨kept _ owned opened, (same _ owned opened).trans isDevice⟩,
    fun fd is => held.only fd (device fd is), busy.trans held.busy, fun positive => ?_⟩
  obtain ⟨owned, isUmem⟩ := held.umem positive
  have opened : s.process.files s.lib.umem ≠ .closed := by
    rw [isUmem]
    exact fun closed => nomatch closed
  exact ⟨kept _ owned opened, (same _ owned opened).trans isUmem⟩

theorem Session.Released.move (released : s.Released) {p : Process}
    (device : ∀ fd, p.files fd = .device → s.process.files fd = .device)
    (busy : p.deviceBusy = s.process.deviceBusy) : (s.move p false).Released :=
  ⟨fun fd is => released.none fd (device fd is), busy.trans released.idle,
    fun nonneg => ownedAfter_of_not_owned (released.fd nonneg),
    fun positive => ownedAfter_of_not_owned (released.umem positive)⟩

/-- The states that a guarded run goes through. -/
def Session.Tidy (s : Session) : Prop := s.Held ∨ s.Released

theorem tidy_openPath (tidy : s.Tidy) {path : Path} (other : path ≠ .device) :
    (s.move (m.openPath path s.process).2 false).Tidy := by
  have same : ∀ fd, s.owned fd = true → s.process.files fd ≠ .closed →
      (m.openPath path s.process).2.files fd = s.process.files fd :=
    fun fd _ opened => files_openPath_of_open opened
  have device : ∀ fd, (m.openPath path s.process).2.files fd = .device →
      s.process.files fd = .device := fun fd => device_of_openPath_ne other
  have busy := @deviceBusy_openPath_ne m path s.process other
  rcases tidy with held | released
  · exact .inl (held.move same device busy)
  · exact .inr (released.move device busy)

theorem tidy_close (tidy : s.Tidy) {fd : Int} (unowned : s.owned fd = false) :
    (s.move (s.process.close fd).2 false).Tidy := by
  have notDevice : s.process.files fd ≠ .device := by
    rcases tidy with held | released
    · intro device
      obtain rfl := held.only fd device
      exact absurd (held.handle.1.symm.trans unowned) (by decide)
    · exact released.none fd
  rw [close_snd]
  have files : ∀ x, (s.process.withClosed fd).files x =
      if x = fd then .closed else s.process.files x := Function.update_apply _ _ _
  have same : ∀ x, s.owned x = true → s.process.files x ≠ .closed →
      (s.process.withClosed fd).files x = s.process.files x := by
    intro x owned _
    rw [files, if_neg]
    rintro rfl
    exact absurd (owned.symm.trans unowned) (by decide)
  have device : ∀ x, (s.process.withClosed fd).files x = .device →
      s.process.files x = .device := by
    intro x is
    rw [files] at is
    split at is
    · cases is
    · exact is
  have busy : (s.process.withClosed fd).deviceBusy = s.process.deviceBusy := if_neg notDevice
  rcases tidy with held | released
  · exact .inl (held.move same device busy)
  · exact .inr (released.move device busy)

/-- After a `ptedit_cleanup` of the handle that is held the device is free. -/
theorem released_cleanup (held : s.Held) :
    (s.move (s.process.cleanup s.lib) false).Released := by
  have files := files_cleanup s.process s.lib
  have isDevice := held.handle.2
  refine ⟨fun fd device => ?_, ?_, fun nonneg => ?_, fun positive => ?_⟩
  · change (s.process.cleanup s.lib).files fd = .device at device
    rw [files] at device
    split at device
    next => cases device
    next named => exact named (.inl ⟨held.nonneg, held.only fd device⟩)
  · exact deviceBusy_cleanup _ _ (fun _ => isDevice)
      fun negative => absurd held.nonneg (Int.not_le.mpr negative)
  · exact ownedAfter_of_closed ((files _).trans (if_pos (.inl ⟨nonneg, rfl⟩)))
  · exact ownedAfter_of_closed ((files _).trans (if_pos (.inr ⟨positive, rfl⟩)))

/-- Without descriptors to close `ptedit_cleanup` does nothing. -/
theorem cleanup_eq_self {p : Process} {lib : Lib} (fd : lib.fd < 0) (umem : lib.umem ≤ 0) :
    p.cleanup lib = p := by
  unfold Process.cleanup
  rw [closeIf_eq, closeIf_eq, if_neg (Int.not_lt.mpr umem), if_neg (Int.not_le.mpr fd)]

theorem tidy_cleanup (tidy : s.Tidy) (guard : s.Guard .cleanup) :
    (s.move (s.process.cleanup s.lib) false).Tidy := by
  rcases tidy with held | released
  · exact .inr (released_cleanup held)
  · rcases guard with handle | ⟨fd, umem⟩
    · exact absurd handle (released.not_handle _)
    · rw [cleanup_eq_self fd umem]
      exact .inr (released.move (fun _ device => device) rfl)

/-- New descriptors of the device and of `/proc/umem` make a handle. -/
theorem held_of_opened {ready : Process} {lib : Lib} {fd umem : Int} (isFd : lib.fd = fd)
    (isUmem : lib.umem = umem) (nonneg : 0 ≤ fd) (free : s.process.files fd = .closed)
    (device : ready.files fd = .device) (only : ∀ x, ready.files x = .device → x = fd)
    (busy : ready.deviceBusy = true)
    (opened : 0 < umem → s.process.files umem = .closed ∧ ready.files umem = .umem) :
    Session.Held { s.move ready true with lib } := by
  subst isFd isUmem
  refine ⟨nonneg, ⟨ownedAfter_of_new free ?_, device⟩, only, busy, fun positive => ?_⟩
  · change ready.files lib.fd ≠ .closed
    rw [device]
    exact fun closed => nomatch closed
  · obtain ⟨closed, isUmem⟩ := opened positive
    refine ⟨ownedAfter_of_new closed ?_, isUmem⟩
    change ready.files lib.umem ≠ .closed
    rw [isUmem]
    exact fun closed => nomatch closed

/-- A `ptedit_init` without a handle fails and stays without, or holds the device. -/
theorem tidy_init (released : s.Released) :
    Session.Tidy { s.move (m.init s.lib s.process).2 true with
      lib := (m.init s.lib s.process).1.2 } := by
  rcases init_cases m s.lib s.process with
    failed | ⟨fd, umem, ready, nonneg, free, -, second, initialised⟩
  · rw [failed]
    refine .inr ⟨released.none, released.idle,
      fun (nonneg : 0 ≤ (-1 : Int)) => absurd nonneg (by decide), ?_⟩
    intro positive
    change ownedAfter _ _ _ _ _ = false
    unfold ownedAfter
    split
    next => rfl
    next opened => exact released.umem positive
  · rw [initialised]
    have opened : ∀ x, (s.process.withOpen fd .device).files x =
        if x = fd then .device else s.process.files x := files_withOpen _ _ _
    have only : ∀ x, (s.process.withOpen fd .device).files x = .device → x = fd := by
      intro x device
      rw [opened] at device
      by_contra other
      rw [if_neg other] at device
      exact released.none x device
    have busy : (s.process.withOpen fd .device).deviceBusy = true := rfl
    have here : (s.process.withOpen fd .device).files fd = .device := by
      rw [opened, if_pos rfl]
    left
    rcases openUmem_cases m s.lib.arch (s.process.withOpen fd .device) with
      ⟨none, same⟩ | ⟨new, closed, added⟩
    · rw [second] at none same
      dsimp only at none same
      subst same
      exact held_of_opened (fd_initialised _ _ _) (umem_initialised _ _ _) nonneg free here only
        busy fun positive => absurd positive (Int.not_lt.mpr none)
    · obtain ⟨rfl, rfl⟩ := Prod.mk.inj (second.symm.trans added)
      have files : ∀ x, ((s.process.withOpen fd .device).withOpen umem .umem).files x =
          if x = umem then .umem else (s.process.withOpen fd .device).files x :=
        files_withOpen _ _ _
      have apart : fd ≠ umem := by
        rintro rfl
        exact absurd (here.symm.trans closed) (by decide)
      refine held_of_opened (fd_initialised _ _ _) (umem_initialised _ _ _) nonneg free ?_ ?_ busy
        fun _ => ⟨?_, ?_⟩
      · rw [files, if_neg apart, here]
      · intro x device
        rw [files] at device
        split at device
        next => cases device
        next => exact only x device
      · rwa [opened, if_neg apart.symm] at closed
      · rw [files, if_pos rfl]

/-! ## The closes of `ptedit_cleanup` -/

/-- The owned descriptors after a close that is made when a test holds, if it may be. -/
def release (owned : Int → Bool) (held : Prop) [Decidable held] (fd : Int) :
    Option (Int → Bool) :=
  if held then
    if owned fd then some (Function.update owned fd false) else none
  else
    some owned

theorem watch_closeIf (p : Process) (owned : Int → Bool) (held : Prop) [Decidable held] (fd : Int) :
    Prog.watch (processHandler m) closeGhost (closeIf held fd) p owned =
      release owned held fd := by
  unfold closeIf release
  split
  next =>
    have closes : Prog.run (processHandler m) (ProcessProg.close fd) p = some (p.close fd) :=
      Prog.run_perform _ _
    rw [Prog.watch_bind_of_some closes]
    change ((Prog.watch _ _ (Prog.perform (ProcessOp.close fd)) p owned).bind _) = _
    rw [Prog.watch_perform, closeGhost]
    cases owned fd <;> rfl
  next => rfl

theorem watch_pteditCleanup (p : Process) (lib : Lib) (owned : Int → Bool) :
    Prog.watch (processHandler m) closeGhost (pteditCleanup lib) p owned =
      (release owned (0 ≤ lib.fd) lib.fd).bind fun owned =>
        release owned (0 < lib.umem) lib.umem := by
  rw [pteditCleanup, Prog.watch_bind_of_some (run_closeIf _ _), watch_closeIf]
  exact congrArg _ (funext fun owned => watch_closeIf _ _ _ _)

/-- With the handle held only its descriptors are closed. -/
theorem closesOwned_of_held (held : s.Held) :
    (Prog.watch (processHandler m) closeGhost (pteditCleanup s.lib) s.process s.owned).isSome := by
  obtain ⟨owned, isDevice⟩ := held.handle
  rw [watch_pteditCleanup, release, if_pos held.nonneg, if_pos owned, Option.bind_some, release]
  split
  next positive =>
    obtain ⟨ownedUmem, isUmem⟩ := held.umem positive
    have apart : s.lib.umem ≠ s.lib.fd := by
      intro same
      rw [same] at isUmem
      exact absurd (isDevice.symm.trans isUmem) (by decide)
    rw [Function.update_of_ne apart, if_pos ownedUmem]
    rfl
  next => rfl

/-- With the handle released every close is of a descriptor that is not the library's. -/
theorem closesOwned_iff_of_released (released : s.Released) :
    (Prog.watch (processHandler m) closeGhost (pteditCleanup s.lib) s.process s.owned).isSome ↔
      s.lib.fd < 0 ∧ s.lib.umem ≤ 0 := by
  rw [watch_pteditCleanup, release]
  by_cases nonneg : 0 ≤ s.lib.fd
  · rw [if_pos nonneg, released.fd nonneg]
    exact iff_of_false (fun some => nomatch some) fun both => Int.not_le.mpr both.1 nonneg
  · rw [if_neg nonneg, Option.bind_some, release]
    by_cases positive : 0 < s.lib.umem
    · rw [if_pos positive, released.umem positive]
      exact iff_of_false (fun some => nomatch some) fun both => Int.not_lt.mpr both.2 positive
    · rw [if_neg positive]
      exact iff_of_true rfl ⟨Int.not_le.mp nonneg, Int.not_lt.mp positive⟩

/-! ## Runs -/

/-- **Step.**  A step that meets its condition leaves the session tidy. -/
theorem tidy_step {act : Act} {s' : Session} (tidy : s.Tidy) (guard : s.Guard act)
    (taken : s.step m act = some s') : s'.Tidy := by
  cases act with
  | init =>
      have released : s.Released := tidy.resolve_left fun held => guard _ held.handle
      rw [Session.step, run_pteditInit] at taken
      obtain rfl := Option.some.inj taken
      exact tidy_init released
  | cleanup =>
      rw [Session.step, run_pteditCleanup] at taken
      obtain rfl := Option.some.inj taken
      exact tidy_cleanup tidy guard
  | openPath path =>
      obtain rfl := Option.some.inj taken
      exact tidy_openPath tidy guard
  | close fd =>
      obtain rfl := Option.some.inj taken
      exact tidy_close tidy guard
  | work lib world =>
      obtain rfl := Option.some.inj taken
      rcases tidy with held | released
      · exact .inl ⟨held.nonneg, held.handle, held.only, held.busy, held.umem⟩
      · exact .inr ⟨released.none, released.idle, released.fd, released.umem⟩

theorem safe_init_iff (tidy : s.Tidy) : ∃ s', s.step m .init = some s' ∧
    (Session.Safe m .init s s' ↔ s.Guard .init) := by
  rw [Session.step, run_pteditInit]
  refine ⟨_, rfl, fun safe fd handle => ?_, fun guard _ _ _ fd handle =>
    absurd handle (guard fd)⟩
  have held : s.Held := tidy.resolve_right fun released => released.not_handle fd handle
  have busy := held.busy
  rcases init_cases m s.lib s.process with failed | ⟨_, _, _, _, _, idle, -, -⟩
  · have ran := @run_pteditInit m s.process s.lib
    rw [failed] at ran
    have kept := (safe _ _ ran fd handle).1
    rw [failed] at kept
    -- the library's descriptor is now -1, and that of the handle is not
    have lost : (-1 : Int) = fd := kept
    have nonneg := held.nonneg
    rw [← held.only fd handle.2, ← lost] at nonneg
    exact absurd nonneg (by decide)
  · exact absurd (busy.symm.trans idle) (by decide)

theorem safe_cleanup_iff (tidy : s.Tidy) : ∃ s', s.step m .cleanup = some s' ∧
    (Session.Safe m .cleanup s s' ↔ s.Guard .cleanup) := by
  rw [Session.step, run_pteditCleanup]
  refine ⟨_, rfl, ?_⟩
  rcases tidy with held | released
  · exact iff_of_true ⟨closesOwned_of_held held, (released_cleanup held).idle⟩ (.inl held.handle)
  · have closes := @closesOwned_iff_of_released m s released
    constructor
    · exact fun safe => .inr (closes.mp safe.1)
    · rintro (handle | none)
      · exact absurd handle (released.not_handle _)
      · refine ⟨closes.mpr none, ?_⟩
        rw [cleanup_eq_self none.1 none.2]
        exact released.idle

end Steps

theorem Session.Start.tidy {s : Session} (start : s.Start) : s.Tidy :=
  .inr ⟨start.none, start.idle, fun _ => start.owned _, fun _ => start.owned _⟩

/-- **The life of a handle.**  In a run whose steps all met their conditions the next call
of the library is safe exactly when it meets its own. -/
theorem lifecycle_safe {m : Machine} {start s : Session} {acts : List Act}
    (begins : start.Start)
    (run : GuardedRun (Session.step m) (fun act s => s.Guard act) start acts s) {act : Act}
    (call : act = .init ∨ act = .cleanup) :
    ∃ s', s.step m act = some s' ∧ (Session.Safe m act s s' ↔ s.Guard act) := by
  have tidy : s.Tidy := run.invariant
    (fun _ _ _ tidy guard taken => tidy_step tidy guard taken) begins.tidy
  rcases call with rfl | rfl
  · exact safe_init_iff tidy
  · exact safe_cleanup_iff tidy

/-! ## Two calls too many -/

/-- A process that has just started, on a machine with the module loaded. -/
def freshSession : Session where
  lib := Lib.static .x86_64
  process := processOf sampleWorld
  owned := fun _ => false

theorem freshSession_start : freshSession.Start := by
  refine ⟨rfl, fun _ => rfl, fun fd => ?_, rfl⟩
  change (if 0 ≤ fd ∧ fd < 3 then File.other else File.closed) ≠ .device
  split
  next => exact fun device => nomatch device
  next => exact fun device => nomatch device

/-- The process after its first `ptedit_init`. -/
def openedSession : Session :=
  let result := (machineOf sampleHost 4096).init freshSession.lib freshSession.process
  { freshSession.move result.2 true with lib := result.1.2 }

theorem freshSession_guard : freshSession.Guard .init :=
  fun _ handle => Bool.false_ne_true handle.1

theorem step_init_freshSession :
    freshSession.step (machineOf sampleHost 4096) .init = some openedSession := by
  rw [Session.step, run_pteditInit]
  rfl

theorem openedSession_handle : openedSession.Handle 3 := ⟨rfl, rfl⟩

/-- A second `ptedit_init` loses the handle, and a `ptedit_cleanup` before the first one
closes a descriptor that is not the library's. -/
theorem secondInit_losesHandle :
    freshSession.Start ∧
    (∃ s s', freshSession.step (machineOf sampleHost 4096) .init = some s ∧ s.Handle 3 ∧
      s.step (machineOf sampleHost 4096) .init = some s' ∧
      ¬ Session.Safe (machineOf sampleHost 4096) .init s s') ∧
    ∃ s', freshSession.step (machineOf sampleHost 4096) .cleanup = some s' ∧
      ¬ Session.Safe (machineOf sampleHost 4096) .cleanup freshSession s' := by
  have tidy := freshSession_start.tidy
  obtain ⟨s', again, safe⟩ := @safe_init_iff (machineOf sampleHost 4096) openedSession
    (tidy_step tidy freshSession_guard step_init_freshSession)
  obtain ⟨s'', cleaned, safe'⟩ := @safe_cleanup_iff (machineOf sampleHost 4096) freshSession tidy
  refine ⟨freshSession_start, ⟨openedSession, s', step_init_freshSession, openedSession_handle,
    again, fun kept => ?_⟩, s'', cleaned, fun owned => ?_⟩
  · exact safe.mp kept 3 openedSession_handle
  · rcases safe'.mp owned with handle | ⟨fd, -⟩
    · exact freshSession_guard _ handle
    · exact absurd fd (by decide)

/-- Other code opens and closes a file while the handle is held: then a `ptedit_cleanup` is safe,
and another `ptedit_init` is not. -/
theorem lifecycle_safe_sample :
    ∃ s, GuardedRun (Session.step (machineOf sampleHost 4096)) (fun act s => s.Guard act)
        freshSession [.init, .openPath .other, .close 5] s ∧
      (∃ s', s.step (machineOf sampleHost 4096) .cleanup = some s' ∧
        Session.Safe (machineOf sampleHost 4096) .cleanup s s') ∧
      ∃ s', s.step (machineOf sampleHost 4096) .init = some s' ∧
        ¬ Session.Safe (machineOf sampleHost 4096) .init s s' := by
  let m := machineOf sampleHost 4096
  let shared := openedSession.move (m.openPath .other openedSession.process).2 false
  let s := shared.move (shared.process.close 5).2 false
  have closing : GuardedRun (Session.step m) (fun act s => s.Guard act) shared [.close 5] s :=
    .cons rfl rfl (.nil s)
  have opening : GuardedRun (Session.step m) (fun act s => s.Guard act) openedSession
      [.openPath .other, .close 5] s :=
    .cons (show Path.other ≠ .device by decide) rfl closing
  have run : GuardedRun (Session.step m) (fun act s => s.Guard act) freshSession
      [.init, .openPath .other, .close 5] s :=
    .cons freshSession_guard step_init_freshSession opening
  have handle : s.Handle 3 := ⟨rfl, rfl⟩
  obtain ⟨s', cleaned, safe⟩ := lifecycle_safe freshSession_start run (.inr rfl)
  obtain ⟨s'', again, lost⟩ := lifecycle_safe freshSession_start run (.inl rfl)
  exact ⟨s, run, ⟨s', cleaned, safe.mpr (.inl handle)⟩, s'', again,
    fun kept => lost.mp kept 3 handle⟩

end PTEditor
