import PTEditor.Module.Load

/-!
# Loading is all-or-nothing

A failed `pteditor_init` should leave nothing registered, and after a successful one
`pteditor_exit` should take back what was registered and nothing else.
`allOrNothing_iff` says for which outcomes of the calls in `pteditor_init` this is so.
Three returns are not acted on: that of the look-up after the device is registered
leads to an error return without `misc_deregister`, and those of `register_kretprobe`
and `proc_create` are not remembered for `pteditor_exit`.
-/

namespace PTEditor

open LoadProg

/-- How often a run of `pteditor_exit` takes a registration back. -/
def removals (o : Outcomes) (s : Loading) (what : Registration) : Nat :=
  ((pteditorExit.trace (loadHandler o) s).filterMap LoadOp.removes).count what

/-- `pteditor_init` returns; an error leaves nothing registered, and after `0` the next
`pteditor_exit` takes back once each what was registered, and nothing else. -/
def AllOrNothing (o : Outcomes) (arch : Arch) (kprobeLookup : Bool) (s : Loading) : Prop :=
  ∃ r s', Prog.run (loadHandler o) (pteditorInit arch kprobeLookup) s = some (r, s') ∧
    (r ≠ 0 → ∀ what, s'.registered what = false) ∧
    (r = 0 → ∀ what, removals o s' what = if s'.registered what then 1 else 0)

variable {o : Outcomes} {s s' : Loading} {arch : Arch} {kprobeLookup : Bool}

/-! ## What is registered after a successful load -/

theorem withDevice_registered :
    (s.withDevice o arch).registered = Function.update s.registered .miscDevice true := by
  have both : (s.register .miscDevice true).registered =
      Function.update s.registered .miscDevice true := by
    unfold Loading.register
    rw [Bool.or_true]
  cases arch with
  | x86_64 => exact both
  | aarch64 => exact both

theorem withDevice_hasUmem : (s.withDevice o arch).hasUmem = s.hasUmem := by
  cases arch <;> rfl

theorem withPageSize_registered : (s.withPageSize o arch).registered = s.registered := by
  unfold Loading.withPageSize
  cases arch with
  | x86_64 => rfl
  | aarch64 =>
      dsimp only
      split
      · rfl
      · split <;> rfl

theorem withPageSize_hasUmem : (s.withPageSize o arch).hasUmem = s.hasUmem := by
  unfold Loading.withPageSize
  cases arch with
  | x86_64 => rfl
  | aarch64 =>
      dsimp only
      split
      · rfl
      · split <;> rfl

/-- A loaded module: which registrations it has. -/
def Outcomes.kept (o : Outcomes) : Registration → Bool
  | .kprobe => false
  | .miscDevice => true
  | .kretprobe => decide (0 ≤ o.registerKretprobe)
  | .procEntry => decide o.FindsUmem && o.procCreate

theorem loaded_registered (unloaded : s.Unloaded) (what : Registration) :
    ((s.withDevice o arch).setUp o arch).registered what = o.kept what := by
  have none := unloaded.registered
  by_cases finds : o.FindsUmem <;> cases what <;>
    simp [Loading.setUp, Loading.withUmem, Loading.register, withPageSize_registered,
      withDevice_registered, Outcomes.kept, finds, none]

theorem loaded_hasUmem (unloaded : s.Unloaded) :
    ((s.withDevice o arch).setUp o arch).hasUmem = decide o.FindsUmem := by
  by_cases finds : o.FindsUmem <;>
    simp [Loading.setUp, Loading.withUmem, Loading.register, withPageSize_hasUmem,
      withDevice_hasUmem, finds, unloaded.hasUmem]

/-! ## What is taken back -/

/-- What `pteditor_exit` takes back: the device and the kretprobe, and the entry of a
module that has one. -/
def takenBack (hasUmem : Bool) : List Registration :=
  if hasUmem then [.miscDevice, .kretprobe, .procEntry] else [.miscDevice, .kretprobe]

theorem removals_eq (what : Registration) :
    removals o s what = (takenBack s.hasUmem).count what := by
  obtain ⟨kernel, registered, hasUmem⟩ := s
  cases hasUmem <;> rfl

/-- **Unloading.**  `pteditor_exit` agrees with what a loaded module has registered, up to a
kretprobe and an entry that were not created. -/
theorem removals_loaded_iff (unloaded : s.Unloaded) :
    (∀ what, removals o ((s.withDevice o arch).setUp o arch) what =
      if ((s.withDevice o arch).setUp o arch).registered what then 1 else 0) ↔
    0 ≤ o.registerKretprobe ∧ (o.FindsUmem → o.procCreate = true) := by
  simp only [removals_eq, loaded_registered unloaded, loaded_hasUmem unloaded]
  constructor
  · intro agree
    refine ⟨?_, fun finds => ?_⟩
    · have kretprobe := agree .kretprobe
      by_contra fails
      simp [Outcomes.kept, fails, takenBack] at kretprobe
      by_cases finds : o.FindsUmem <;> simp [finds] at kretprobe
    · have procEntry := agree .procEntry
      by_contra fails
      simp [Outcomes.kept, fails, takenBack, finds] at procEntry
  · rintro ⟨kretprobe, procEntry⟩ what
    by_cases finds : o.FindsUmem
    · cases what <;> simp [Outcomes.kept, takenBack, kretprobe, finds, procEntry finds]
    · cases what <;> simp [Outcomes.kept, takenBack, kretprobe, finds]

/-- **All or nothing.**  Loading an unloaded module is all-or-nothing exactly when the device
is not registered, or when nothing fails after it whose return is not acted on: the look-up
of `flush_tlb_mm_range`, the kretprobe, and the entry where its operations are found. -/
theorem allOrNothing_iff (unloaded : s.Unloaded) (arch : Arch) (kprobeLookup : Bool) :
    AllOrNothing o arch kprobeLookup s ↔
      ¬ o.Registers kprobeLookup ∨ (o.Loads arch kprobeLookup ∧ 0 ≤ o.registerKretprobe ∧
        (o.FindsUmem → o.procCreate = true)) := by
  unfold AllOrNothing
  rcases @run_pteditorInit o s unloaded arch kprobeLookup with
    ⟨refused, run⟩ | ⟨registers, aborts, run⟩ | ⟨loads, run⟩
  · refine iff_of_true ⟨-enxio, s, run, fun _ => unloaded.registered, fun zero => ?_⟩
      (.inl refused)
    exact absurd zero (by decide)
  · refine iff_of_false ?_ ?_
    · rintro ⟨r, s', ran, error, -⟩
      cases run.symm.trans ran
      have left := error (by decide) .miscDevice
      rw [withDevice_registered, Function.update_self] at left
      cases left
    · rintro (refused | ⟨loads, -⟩)
      · exact refused registers
      · exact aborts loads
  · have agree := @removals_loaded_iff o s arch unloaded
    constructor
    · rintro ⟨r, s', ran, -, undone⟩
      cases run.symm.trans ran
      exact .inr ⟨loads, agree.mp (undone rfl)⟩
    · rintro (refused | ⟨-, registered⟩)
      · exact absurd loads.1 refused
      · exact ⟨0, _, run, fun error => absurd rfl error, fun _ => agree.mpr registered⟩

/-- Without the four operations of `/proc/umem` all is as it should be. -/
theorem allOrNothing_iff_sample :
    freshLoading.Unloaded ∧ AllOrNothing (lookupFails .mmapMem) .x86_64 true freshLoading :=
  ⟨freshLoading_unloaded,
    (allOrNothing_iff freshLoading_unloaded .x86_64 true).mpr (.inr (by decide))⟩

/-- The error return for a missing `flush_tlb_mm_range` leaves the device registered. -/
theorem missingFlush_leavesDevice :
    freshLoading.Unloaded ∧
      ¬ AllOrNothing (lookupFails .flushTlbMmRange) .x86_64 true freshLoading := by
  refine ⟨freshLoading_unloaded, ?_⟩
  rintro ⟨r, s', ran, error, -⟩
  cases ran
  exact Bool.noConfusion (error (by decide) .miscDevice)

end PTEditor
