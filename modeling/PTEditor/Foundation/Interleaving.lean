import Mathlib.Data.Bool.Count
import Mathlib.Logic.Function.Basic
import PTEditor.Foundation.Prog

/-!
# Threads in any order

`runSchedule` performs the steps of several actors in a given order, and
`runSchedule_map` is the simulation rule: a map between two systems that commutes
with every step commutes with every schedule.  A `GuardedRun` takes each step under a
condition on the state it is taken in.  `Prog.stepThread` makes actors of programs: a
step is one operation of one of them.

`Cell` is what is left of threads that each read a value, edit their copy and write
it back.  `Cell.run_pair` says how two of them end: one after the other they apply
both edits, and otherwise the edit that is written first is lost.
-/

section Schedules

variable {ι σ τ : Type}

/-- Perform one step of each actor of a schedule, in order. -/
def runSchedule (step : ι → σ → Option σ) : List ι → σ → Option σ
  | [], s => some s
  | i :: rest, s => (step i s).bind (runSchedule step rest)

@[simp] theorem runSchedule_nil (step : ι → σ → Option σ) (s : σ) :
    runSchedule step [] s = some s := rfl

theorem runSchedule_cons (step : ι → σ → Option σ) (i : ι) (rest : List ι) (s : σ) :
    runSchedule step (i :: rest) s = (step i s).bind (runSchedule step rest) := rfl

/-- **Simulation.**  A map that commutes with every step commutes with every run. -/
theorem runSchedule_map {step : ι → σ → Option σ} {step' : ι → τ → Option τ} {f : σ → τ}
    (simulates : ∀ i s, step' i (f s) = (step i s).map f) (schedule : List ι) (s : σ) :
    runSchedule step' schedule (f s) = (runSchedule step schedule s).map f := by
  induction schedule generalizing s with
  | nil => rfl
  | cons i rest ih =>
      rw [runSchedule_cons, runSchedule_cons, simulates]
      cases step i s with
      | none => rfl
      | some next => exact ih next

/-- A run of steps each of which is taken where its guard holds. -/
inductive GuardedRun (step : ι → σ → Option σ) (guard : ι → σ → Prop) : σ → List ι → σ → Prop
  | nil (s : σ) : GuardedRun step guard s [] s
  | cons {s s' s'' : σ} {i : ι} {rest : List ι} (allowed : guard i s) (taken : step i s = some s')
      (later : GuardedRun step guard s' rest s'') : GuardedRun step guard s (i :: rest) s''

/-- What every guarded step preserves holds wherever a guarded run ends. -/
theorem GuardedRun.invariant {step : ι → σ → Option σ} {guard : ι → σ → Prop} {inv : σ → Prop}
    (preserved : ∀ i s s', inv s → guard i s → step i s = some s' → inv s') {s s' : σ}
    {schedule : List ι} (run : GuardedRun step guard s schedule s') (start : inv s) : inv s' := by
  induction run with
  | nil => exact start
  | cons allowed taken later ih => exact ih (preserved _ _ _ start allowed taken)

end Schedules

namespace Prog

variable {Op : Type} {Res : Op → Type} {α ι σ : Type} [DecidableEq ι]

/-- One operation of a thread; a thread that has returned takes no step. -/
def stepThread (h : Handler Op Res σ) (i : ι) (c : (ι → Prog Op Res α) × σ) :
    Option ((ι → Prog Op Res α) × σ) :=
  match c.1 i with
  | ret _ => none
  | call op next => (h op c.2).map fun (r, s) => (Function.update c.1 i (next r), s)

/-- Every thread has returned. -/
def Finished (threads : ι → Prog Op Res α) : Prop := ∀ i, ∃ value, threads i = ret value

theorem stepThread_of_ret {h : Handler Op Res σ} {i : ι} {threads : ι → Prog Op Res α} {s : σ}
    {value : α} (returned : threads i = ret value) : stepThread h i (threads, s) = none := by
  unfold stepThread
  dsimp only
  rw [returned]

theorem stepThread_of_call {h : Handler Op Res σ} {i : ι} {threads : ι → Prog Op Res α} {s s' : σ}
    {op : Op} {next : Res op → Prog Op Res α} {r : Res op} (calls : threads i = call op next)
    (answer : h op s = some (r, s')) :
    stepThread h i (threads, s) = some (Function.update threads i (next r), s') := by
  unfold stepThread
  dsimp only
  rw [calls]
  dsimp only
  rw [answer]
  rfl

end Prog

/-! ## Reading, editing and writing back -/

/-- What a thread has done: nothing, read a value, or written it back edited. -/
inductive Phase (V : Type) where
  | ready
  | holding (value : V)
  | done
  deriving DecidableEq

/-- A shared value and the phase of each thread. -/
structure Cell (ι V : Type) where
  value : V
  phase : ι → Phase V

namespace Cell

variable {ι V : Type} [DecidableEq ι]

/-- One step of a thread: it reads the value, or writes back what it read, edited. -/
def step (edit : ι → V → V) (i : ι) (c : Cell ι V) : Option (Cell ι V) :=
  match c.phase i with
  | .ready => some { c with phase := Function.update c.phase i (.holding c.value) }
  | .holding old => some { value := edit i old, phase := Function.update c.phase i .done }
  | .done => none

/-- A value that no thread has read yet. -/
def start (value : V) : Cell ι V := { value, phase := fun _ => .ready }

/-- Every thread has written. -/
def Done (c : Cell ι V) : Prop := ∀ i, c.phase i = .done

/-- How often a thread still steps. -/
def remaining : Phase V → Nat
  | .ready => 2
  | .holding _ => 1
  | .done => 0

theorem remaining_step {edit : ι → V → V} {i : ι} {c c' : Cell ι V}
    (next : step edit i c = some c') (j : ι) :
    remaining (c.phase j) = remaining (c'.phase j) + if j = i then 1 else 0 := by
  unfold step at next
  cases phase : c.phase i with
  | done =>
      rw [phase] at next
      cases next
  | ready =>
      rw [phase] at next
      cases next
      by_cases same : j = i
      · subst same
        simp [phase, remaining]
      · simp [same]
  | holding old =>
      rw [phase] at next
      cases next
      by_cases same : j = i
      · subst same
        simp [phase, remaining]
      · simp [same]

/-- In a run to the end a thread steps as often as its phase allows. -/
theorem count_of_done {edit : ι → V → V} {schedule : List ι} {c c' : Cell ι V}
    (run : runSchedule (step edit) schedule c = some c') (done : c'.Done) (j : ι) :
    schedule.count j = remaining (c.phase j) := by
  induction schedule generalizing c with
  | nil =>
      obtain rfl := Option.some.inj run
      rw [done j]
      rfl
  | cons i rest ih =>
      obtain ⟨middle, first, later⟩ := Option.bind_eq_some_iff.mp run
      rw [remaining_step first j, List.count_cons, ih later]
      by_cases same : j = i
      · simp [same]
      · simp [same, Ne.symm same]

/-- A schedule with as many steps of each thread as its phase allows is a run to the end. -/
theorem exists_run_of_count {edit : ι → V → V} {schedule : List ι} {c : Cell ι V}
    (steps : ∀ j, schedule.count j = remaining (c.phase j)) :
    ∃ c', runSchedule (step edit) schedule c = some c' ∧ c'.Done := by
  induction schedule generalizing c with
  | nil =>
      refine ⟨c, rfl, fun j => ?_⟩
      have spent : remaining (c.phase j) = 0 := (steps j).symm
      cases phase : c.phase j with
      | done => rfl
      | ready =>
          rw [phase] at spent
          cases spent
      | holding old =>
          rw [phase] at spent
          cases spent
  | cons i rest ih =>
      obtain ⟨middle, first⟩ : ∃ middle, step edit i c = some middle := by
        have due := steps i
        rw [List.count_cons_self] at due
        unfold step
        cases phase : c.phase i with
        | done =>
            rw [phase] at due
            cases due
        | ready => exact ⟨_, rfl⟩
        | holding old => exact ⟨_, rfl⟩
      have left : ∀ j, rest.count j = remaining (middle.phase j) := by
        intro j
        have now := steps j
        rw [remaining_step first j, List.count_cons] at now
        by_cases same : j = i
        · simpa [same] using now
        · simpa [same, Ne.symm same] using now
      obtain ⟨c', later, done⟩ := ih left
      exact ⟨c', Option.bind_eq_some_iff.mpr ⟨middle, first, later⟩, done⟩

/-- Two threads that each step twice do so in one of six orders. -/
theorem schedules_of_pair {schedule : List Bool} (twice : ∀ i, schedule.count i = 2) :
    ∃ i, schedule = [i, i, !i, !i] ∨ schedule = [i, !i, i, !i] ∨ schedule = [!i, i, i, !i] := by
  have counts := And.intro (twice false) (twice true)
  have length : schedule.length = 4 := by
    rw [← List.count_true_add_count_false, twice, twice]
  match schedule, length with
  | [a, b, c, d], _ =>
    cases a <;> cases b <;> cases c <;> cases d <;> simp at counts <;> simp

/-- **Two threads on one value.**  One after the other they apply both edits; when
both have read before either writes, only the edit written last is applied. -/
theorem run_pair {edit : Bool → V → V} {schedule : List Bool} {value : V} {c : Cell Bool V}
    (run : runSchedule (step edit) schedule (start value) = some c) (done : c.Done) :
    (∃ i, schedule = [i, i, !i, !i] ∧ c.value = edit (!i) (edit i value)) ∨
      (∃ i, schedule = [i, !i, i, !i] ∧ c.value = edit (!i) value) ∨
      (∃ i, schedule = [!i, i, i, !i] ∧ c.value = edit (!i) value) := by
  obtain ⟨i, serial | crossed | nested⟩ := schedules_of_pair (count_of_done run done)
  · subst serial
    refine .inl ⟨i, rfl, ?_⟩
    cases i <;> simp [runSchedule, step, start] at run <;> simp [← run]
  · subst crossed
    refine .inr (.inl ⟨i, rfl, ?_⟩)
    cases i <;> simp [runSchedule, step, start] at run <;> simp [← run]
  · subst nested
    refine .inr (.inr ⟨i, rfl, ?_⟩)
    cases i <;> simp [runSchedule, step, start] at run <;> simp [← run]

end Cell
