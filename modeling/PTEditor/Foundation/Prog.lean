import Mathlib.Logic.Function.Basic

/-!
# Programs over primitive operations

A `Prog Op Res α` performs operations `Op` one at a time, continues with the
response `Res op` to each, and returns an `α`.  The operations carry no meaning
of their own; a meaning is supplied from outside.

* `Prog.run`: a `Handler` threads a state through the operations and may refuse
  one (`none`), which ends the run.
* `Prog.watch`: beside a run, a ghost state looks at every operation and may object.
* `Prog.eval`: an environment answers every operation, with no state.  This is
  the meaning of a program that only reads, and `Prog.queries` lists what it
  asked.

`Prog.translate` replaces each operation by a program over other operations; the
`run_translate` rules say how a read-only program runs after the replacement.
-/

/-- A program that performs operations one at a time and returns an `α`. -/
inductive Prog (Op : Type) (Res : Op → Type) (α : Type) : Type
  | ret (value : α)
  | call (op : Op) (next : Res op → Prog Op Res α)

namespace Prog

variable {Op Op' : Type} {Res : Op → Type} {Res' : Op' → Type} {α β σ : Type}

/-- Run `p`, then continue with `f` on its result. -/
def bind : Prog Op Res α → (α → Prog Op Res β) → Prog Op Res β
  | ret value, f => f value
  | call op next, f => call op fun r => (next r).bind f

instance : Monad (Prog Op Res) where
  pure := ret
  bind := bind

@[simp] theorem pure_def (value : α) : (pure value : Prog Op Res α) = ret value := rfl

@[simp] theorem ret_bind (value : α) (f : α → Prog Op Res β) :
    (ret value >>= f) = f value := rfl

@[simp] theorem call_bind (op : Op) (next : Res op → Prog Op Res α) (f : α → Prog Op Res β) :
    (call op next >>= f) = call op fun r => next r >>= f := rfl

theorem bind_bind {γ : Type} (p : Prog Op Res α) (f : α → Prog Op Res β)
    (g : β → Prog Op Res γ) : p >>= f >>= g = p >>= fun value => f value >>= g := by
  induction p with
  | ret value => rfl
  | call op next ih => exact congrArg (call op) (funext ih)

/-- Perform one operation and return its response. -/
def perform (op : Op) : Prog Op Res (Res op) := call op ret

/-! ## Running against a state -/

/-- How each operation acts on a state; `none` refuses the operation. -/
abbrev Handler (Op : Type) (Res : Op → Type) (σ : Type) : Type :=
  (op : Op) → σ → Option (Res op × σ)

/-- Run a program from a state. -/
def run (h : Handler Op Res σ) : Prog Op Res α → σ → Option (α × σ)
  | ret value, s => some (value, s)
  | call op next, s => (h op s).bind fun (r, s') => run h (next r) s'

/-- The operations a run performs, in order, a refused one included. -/
def trace (h : Handler Op Res σ) : Prog Op Res α → σ → List Op
  | ret _, _ => []
  | call op next, s => op :: ((h op s).elim [] fun (r, s') => trace h (next r) s')

variable {h : Handler Op Res σ}

@[simp] theorem run_ret (value : α) (s : σ) :
    run h (ret value : Prog Op Res α) s = some (value, s) := rfl

@[simp] theorem run_call (op : Op) (next : Res op → Prog Op Res α) (s : σ) :
    run h (call op next) s = (h op s).bind fun (r, s') => run h (next r) s' := rfl

@[simp] theorem run_perform (op : Op) (s : σ) :
    run h (perform op : Prog Op Res (Res op)) s = h op s := by
  cases answer : h op s <;> simp [perform, answer]

theorem run_bind (p : Prog Op Res α) (f : α → Prog Op Res β) (s : σ) :
    run h (p >>= f) s = (run h p s).bind fun (value, s') => run h (f value) s' := by
  induction p generalizing s with
  | ret value => rfl
  | call op next ih =>
      cases answer : h op s with
      | none => simp [answer]
      | some result => simp [answer, ih]

/-- A first part with a known run hands its result to the second. -/
theorem run_bind_of_some {p : Prog Op Res α} {f : α → Prog Op Res β} {s s' : σ} {value : α}
    (first : run h p s = some (value, s')) : run h (p >>= f) s = run h (f value) s' := by
  rw [run_bind, first, Option.bind_some]

/-! ## Operations a program can perform -/

/-- Whatever it is answered, the program performs only operations in `P`. -/
def Performs (P : Op → Prop) : Prog Op Res α → Prop
  | ret _ => True
  | call op next => P op ∧ ∀ r, (next r).Performs P

theorem Performs.bind {P : Op → Prop} {p : Prog Op Res α} {f : α → Prog Op Res β}
    (first : p.Performs P) (rest : ∀ value, (f value).Performs P) : (p >>= f).Performs P := by
  induction p with
  | ret value => exact rest value
  | call op next ih => exact ⟨first.1, fun r => ih r (first.2 r)⟩

theorem Performs.perform {P : Op → Prop} {op : Op} (allowed : P op) :
    (Prog.perform op : Prog Op Res (Res op)).Performs P :=
  ⟨allowed, fun _ => trivial⟩

theorem Performs.mono {P Q : Op → Prop} {p : Prog Op Res α} (only : p.Performs P)
    (weaker : ∀ op, P op → Q op) : p.Performs Q := by
  induction p with
  | ret value => trivial
  | call op next ih => exact ⟨weaker op only.1, fun r => ih r (only.2 r)⟩

/-- **Simulation.**  Two machines that answer the operations in `P` alike from related states
run a program of such operations alike. -/
theorem Performs.run_related {τ : Type} {h' : Handler Op Res τ} {P : Op → Prop}
    {R : σ → τ → Prop} {p : Prog Op Res α} (only : p.Performs P)
    (alike : ∀ op, P op → ∀ s t r s', R s t → h op s = some (r, s') →
      ∃ t', h' op t = some (r, t') ∧ R s' t')
    {s s' : σ} {t : τ} {value : α} (start : R s t) (done : run h p s = some (value, s')) :
    ∃ t', run h' p t = some (value, t') ∧ R s' t' := by
  induction p generalizing s t with
  | ret result =>
      cases done
      exact ⟨t, rfl, start⟩
  | call op next ih =>
      simp only [run_call, Option.bind_eq_some_iff] at done
      obtain ⟨⟨r, middle⟩, answer, rest⟩ := done
      obtain ⟨t₁, answer', related⟩ := alike op only.1 s t r middle start answer
      obtain ⟨t', rest', final⟩ := ih r (only.2 r) related rest
      refine ⟨t', ?_, final⟩
      rw [run_call, answer']
      exact rest'

/-- **Invariants.**  What every operation in `P` preserves holds after a whole run of
such operations. -/
theorem Performs.run_invariant {P : Op → Prop} {inv : σ → Prop} {p : Prog Op Res α}
    (only : p.Performs P)
    (preserved : ∀ op, P op → ∀ s r s', inv s → h op s = some (r, s') → inv s')
    {s s' : σ} {value : α} (start : inv s) (done : run h p s = some (value, s')) : inv s' := by
  induction p generalizing s with
  | ret result =>
      cases done
      exact start
  | call op next ih =>
      simp only [run_call, Option.bind_eq_some_iff] at done
      obtain ⟨⟨r, middle⟩, answer, rest⟩ := done
      exact ih r (only.2 r) (preserved op only.1 s r middle start answer) rest

/-- A run performs only operations in `P`. -/
theorem Performs.trace {P : Op → Prop} {p : Prog Op Res α} (only : p.Performs P) (s : σ) :
    ∀ op ∈ p.trace h s, P op := by
  induction p generalizing s with
  | ret value => nofun
  | call op next ih =>
      intro op' member
      rcases List.mem_cons.mp member with rfl | later
      · exact only.1
      · cases answer : h op s with
        | none =>
            rw [answer] at later
            cases later
        | some result =>
            rw [answer] at later
            exact ih result.1 (only.2 result.1) result.2 op' later

/-- What a program performs after a first part with a known run. -/
theorem trace_bind_of_some {p : Prog Op Res α} {f : α → Prog Op Res β} {s s' : σ} {value : α}
    (first : run h p s = some (value, s')) :
    (p >>= f).trace h s = p.trace h s ++ (f value).trace h s' := by
  induction p generalizing s with
  | ret result =>
      cases first
      rfl
  | call op next ih =>
      simp only [run_call, Option.bind_eq_some_iff] at first
      obtain ⟨⟨r, middle⟩, answer, rest⟩ := first
      simp only [call_bind, Prog.trace, answer, Option.elim_some, List.cons_append]
      rw [ih r rest]

/-- After a first part that is refused nothing is performed. -/
theorem trace_bind_of_none {p : Prog Op Res α} {f : α → Prog Op Res β} {s : σ}
    (first : run h p s = none) : (p >>= f).trace h s = p.trace h s := by
  induction p generalizing s with
  | ret result => cases first
  | call op next ih =>
      simp only [call_bind, Prog.trace]
      cases answer : h op s with
      | none => rfl
      | some result =>
          simp only [run_call, answer, Option.bind_some] at first
          exact congrArg _ (ih result.1 first)

@[simp] theorem trace_perform (op : Op) (s : σ) :
    (Prog.perform op : Prog Op Res (Res op)).trace h s = [op] := by
  unfold Prog.perform Prog.trace
  cases h op s <;> rfl

theorem run_bind_ret (p : Prog Op Res α) (f : α → β) (s : σ) :
    run h (p >>= fun value => ret (f value)) s =
      (run h p s).map fun (value, s') => (f value, s') := by
  rw [run_bind]
  cases run h p s <;> rfl

/-- Computing a value from the result performs nothing. -/
theorem trace_bind_ret (p : Prog Op Res α) (f : α → β) (s : σ) :
    (p >>= fun value => ret (f value)).trace h s = p.trace h s := by
  cases first : run h p s with
  | none => exact trace_bind_of_none first
  | some result => exact (trace_bind_of_some first).trans (List.append_nil _)

/-- The run from `s` performs `ops` and returns `value` in the state `s'`. -/
structure Makes (h : Handler Op Res σ) (p : Prog Op Res α) (s : σ) (ops : List Op) (value : α)
    (s' : σ) : Prop where
  trace : p.trace h s = ops
  run : run h p s = some (value, s')

theorem Makes.bind {p : Prog Op Res α} {f : α → Prog Op Res β} {s s' s'' : σ} {ops ops' : List Op}
    {value : α} {result : β} (first : Makes h p s ops value s')
    (rest : Makes h (f value) s' ops' result s'') :
    Makes h (p >>= f) s (ops ++ ops') result s'' where
  trace := by rw [trace_bind_of_some first.run, first.trace, rest.trace]
  run := (run_bind_of_some first.run).trans rest.run

theorem makes_perform {op : Op} {s s' : σ} {r : Res op} (answer : h op s = some (r, s')) :
    Makes h (perform op) s [op] r s' :=
  ⟨trace_perform op s, (run_perform op s).trans answer⟩

/-! ### Values and interference -/

/-- The program returns only values in `Q`, whatever it is answered. -/
def Returns (Q : α → Prop) : Prog Op Res α → Prop
  | ret value => Q value
  | call _ next => ∀ r, (next r).Returns Q

theorem returns_any (p : Prog Op Res α) : p.Returns fun _ => True := by
  induction p with
  | ret value => trivial
  | call op next ih => exact ih

theorem Returns.bind {Q : α → Prop} {R : β → Prop} {p : Prog Op Res α} {f : α → Prog Op Res β}
    (first : p.Returns Q) (rest : ∀ value, Q value → (f value).Returns R) :
    (p >>= f).Returns R := by
  induction p with
  | ret value => exact rest value first
  | call op next ih => exact fun r => ih r (first r)

theorem Performs.bind_returns {P : Op → Prop} {Q : α → Prop} {p : Prog Op Res α}
    {f : α → Prog Op Res β} (only : p.Performs P) (values : p.Returns Q)
    (rest : ∀ value, Q value → (f value).Performs P) : (p >>= f).Performs P := by
  induction p with
  | ret value => exact rest value values
  | call op next ih => exact ⟨only.1, fun r => ih r (only.2 r) (values r)⟩

/-- From `s` the program performs only operations in `P`, although before each of them
the environment may change the state as `env` allows. -/
def PerformsAmid (h : Handler Op Res σ) (env : σ → σ → Prop) (P : Op → Prop) :
    Prog Op Res α → σ → Prop
  | ret _, _ => True
  | call op next, s =>
      P op ∧ ∀ s₁ r s₂, env s s₁ → h op s₁ = some (r, s₂) → (next r).PerformsAmid h env P s₂

section Amid

variable {env : σ → σ → Prop} {P : Op → Prop}

theorem Performs.amid {p : Prog Op Res α} (only : p.Performs P) (s : σ) :
    p.PerformsAmid h env P s := by
  induction p generalizing s with
  | ret value => trivial
  | call op next ih => exact ⟨only.1, fun _ r s₂ _ _ => ih r (only.2 r) s₂⟩

theorem PerformsAmid.mono {Q : Op → Prop} {p : Prog Op Res α} {s : σ}
    (only : p.PerformsAmid h env P s) (weaker : ∀ op, P op → Q op) :
    p.PerformsAmid h env Q s := by
  induction p generalizing s with
  | ret value => trivial
  | call op next ih =>
      exact ⟨weaker op only.1, fun s₁ r s₂ change answer => ih r (only.2 s₁ r s₂ change answer)⟩

/-- A change that the environment may make is one it may have made. -/
theorem PerformsAmid.changed {p : Prog Op Res α} {s s₁ : σ} (only : p.PerformsAmid h env P s)
    (transitive : ∀ s₂, env s₁ s₂ → env s s₂) : p.PerformsAmid h env P s₁ := by
  cases p with
  | ret value => trivial
  | call op next => exact ⟨only.1, fun s₂ r s₃ change => only.2 s₂ r s₃ (transitive s₂ change)⟩

theorem PerformsAmid.bind {p : Prog Op Res α} {f : α → Prog Op Res β} {s : σ}
    (first : p.PerformsAmid h env P s) (rest : ∀ value s', (f value).PerformsAmid h env P s') :
    (p >>= f).PerformsAmid h env P s := by
  induction p generalizing s with
  | ret value => exact rest value s
  | call op next ih =>
      exact ⟨first.1, fun s₁ r s₂ change answer => ih r (first.2 s₁ r s₂ change answer)⟩

theorem performsAmid_perform_bind {op : Op} {f : Res op → Prog Op Res α} {s : σ} (allowed : P op)
    (rest : ∀ s₁ r s₂, env s s₁ → h op s₁ = some (r, s₂) → (f r).PerformsAmid h env P s₂) :
    (perform op >>= f).PerformsAmid h env P s :=
  ⟨allowed, rest⟩

end Amid

/-! ## Watching a run -/

section Watch

variable {μ : Type} {m : Op → σ → μ → Option μ}

/-- The ghost state after a run.  The ghost sees each operation, a refused one
included, in the state it is performed in, and objects with `none`. -/
def watch (h : Handler Op Res σ) (m : Op → σ → μ → Option μ) :
    Prog Op Res α → σ → μ → Option μ
  | ret _, _, g => some g
  | call op next, s, g =>
      (m op s g).bind fun g' => (h op s).elim (some g') fun (r, s') => watch h m (next r) s' g'

@[simp] theorem watch_ret (value : α) (s : σ) (g : μ) :
    watch h m (ret value : Prog Op Res α) s g = some g := rfl

@[simp] theorem watch_perform (op : Op) (s : σ) (g : μ) :
    watch h m (perform op : Prog Op Res (Res op)) s g = m op s g := by
  unfold perform watch
  cases m op s g with
  | none => rfl
  | some g' => cases h op s <;> rfl

/-- After a first part with a known run the ghost goes on with the second. -/
theorem watch_bind_of_some {p : Prog Op Res α} {f : α → Prog Op Res β} {s s' : σ} {value : α}
    (first : run h p s = some (value, s')) (g : μ) :
    watch h m (p >>= f) s g = (watch h m p s g).bind (watch h m (f value) s') := by
  induction p generalizing s g with
  | ret result =>
      cases first
      rfl
  | call op next ih =>
      simp only [run_call, Option.bind_eq_some_iff] at first
      obtain ⟨⟨r, middle⟩, answer, rest⟩ := first
      simp only [call_bind, watch, answer, Option.elim_some, Option.bind_assoc]
      exact congrArg _ (funext fun g' => ih r rest g')

/-- A first part that is refused leaves the ghost where it was then. -/
theorem watch_bind_of_none {p : Prog Op Res α} {f : α → Prog Op Res β} {s : σ}
    (first : run h p s = none) (g : μ) : watch h m (p >>= f) s g = watch h m p s g := by
  induction p generalizing s g with
  | ret result => cases first
  | call op next ih =>
      simp only [call_bind, watch]
      cases answer : h op s with
      | none => rfl
      | some result =>
          simp only [run_call, answer, Option.bind_some] at first
          exact congrArg _ (funext fun g' => ih result.1 first g')

/-- An objection to what follows a first part with a known run is one to the whole. -/
theorem watch_bind_eq_none_of_some {p : Prog Op Res α} {f : α → Prog Op Res β} {s s' : σ}
    {value : α} (first : run h p s = some (value, s'))
    (objects : ∀ g, watch h m (f value) s' g = none) (g : μ) : watch h m (p >>= f) s g = none := by
  rw [watch_bind_of_some first]
  cases watch h m p s g with
  | none => rfl
  | some g' => exact objects g'

/-- An objection to a first part is one to the whole. -/
theorem watch_bind_eq_none {p : Prog Op Res α} {f : α → Prog Op Res β} {s : σ} {g : μ}
    (objects : watch h m p s g = none) : watch h m (p >>= f) s g = none := by
  cases first : run h p s with
  | none => rw [watch_bind_of_none first, objects]
  | some result => rw [watch_bind_of_some first, objects, Option.bind_none]

/-- The ghost accepts a run from `g`, and is at `g'` where the run returns. -/
def Accepts (h : Handler Op Res σ) (m : Op → σ → μ → Option μ) (p : Prog Op Res α) (s : σ)
    (g g' : μ) : Prop :=
  ∃ last, watch h m p s g = some last ∧ ((run h p s).isSome → last = g')

theorem accepts_ret (value : α) (s : σ) (g : μ) :
    Accepts h m (ret value : Prog Op Res α) s g g :=
  ⟨g, rfl, fun _ => rfl⟩

theorem accepts_perform {op : Op} {s : σ} {g g' : μ} (accepted : m op s g = some g') :
    Accepts h m (perform op : Prog Op Res (Res op)) s g g' :=
  ⟨g', (watch_perform op s g).trans accepted, fun _ => rfl⟩

theorem Accepts.bind {p : Prog Op Res α} {f : α → Prog Op Res β} {s : σ} {g g' g'' : μ}
    (first : Accepts h m p s g g')
    (rest : ∀ value s', run h p s = some (value, s') → Accepts h m (f value) s' g' g'') :
    Accepts h m (p >>= f) s g g'' := by
  obtain ⟨middle, seen, settled⟩ := first
  cases ran : run h p s with
  | none =>
      refine ⟨middle, (watch_bind_of_none ran g).trans seen, fun returns => ?_⟩
      rw [run_bind, ran] at returns
      cases returns
  | some result =>
      obtain rfl := settled (by rw [ran]; rfl)
      obtain ⟨last, seen', settled'⟩ := rest result.1 result.2 ran
      refine ⟨last, ?_, fun returns => settled' ?_⟩
      · rw [watch_bind_of_some ran, seen, Option.bind_some, seen']
      · rwa [run_bind_of_some ran] at returns

/-- Where the ghost is after a run that it accepts and that returns. -/
theorem Accepts.watch_eq {p : Prog Op Res α} {s : σ} {g g' : μ} (accepts : Accepts h m p s g g')
    (returns : (run h p s).isSome) : watch h m p s g = some g' := by
  obtain ⟨last, seen, settled⟩ := accepts
  rw [seen, settled returns]

theorem Accepts.isSome {p : Prog Op Res α} {s : σ} {g g' : μ} (accepts : Accepts h m p s g g') :
    (watch h m p s g).isSome := by
  obtain ⟨last, seen, -⟩ := accepts
  rw [seen]
  rfl

/-- A run of operations that leave the ghost where it is. -/
theorem Performs.watch_eq {P : Op → Prop} {p : Prog Op Res α} {g : μ} (only : p.Performs P)
    (quiet : ∀ op, P op → ∀ s, m op s g = some g) (s : σ) : watch h m p s g = some g := by
  induction p generalizing s with
  | ret value => rfl
  | call op next ih =>
      rw [watch, quiet op only.1, Option.bind_some]
      cases answer : h op s with
      | none => rfl
      | some result => exact ih result.1 (only.2 result.1) result.2

theorem Performs.accepts {P : Op → Prop} {p : Prog Op Res α} {g : μ} (only : p.Performs P)
    (quiet : ∀ op, P op → ∀ s, m op s g = some g) (s : σ) : Accepts h m p s g g :=
  ⟨g, only.watch_eq quiet s, fun _ => rfl⟩

/-- A first part that leaves the ghost where it is and keeps an invariant of the state. -/
theorem Performs.accepts_bind {P : Op → Prop} {inv : σ → Prop} {p : Prog Op Res α}
    {f : α → Prog Op Res β} {s : σ} {g g' : μ} (only : p.Performs P)
    (quiet : ∀ op, P op → ∀ s, m op s g = some g)
    (preserved : ∀ op, P op → ∀ s r s', inv s → h op s = some (r, s') → inv s') (start : inv s)
    (rest : ∀ value s', inv s' → Accepts h m (f value) s' g g') : Accepts h m (p >>= f) s g g' :=
  (only.accepts quiet s).bind fun value s' ran =>
    rest value s' (only.run_invariant preserved start ran)

/-- Two ghosts that every operation keeps related stay related. -/
theorem watch_related {ν : Type} {m' : Op → σ → ν → Option ν} {R : μ → ν → Prop}
    (preserved : ∀ op s g g' k k', R g k → m op s g = some g' → m' op s k = some k' → R g' k')
    {p : Prog Op Res α} {s : σ} {g g' : μ} {k k' : ν} (start : R g k)
    (first : watch h m p s g = some g') (second : watch h m' p s k = some k') : R g' k' := by
  induction p generalizing s g k with
  | ret value =>
      cases first
      cases second
      exact start
  | call op next ih =>
      obtain ⟨g₁, seen, rest⟩ := Option.bind_eq_some_iff.mp first
      obtain ⟨k₁, seen', rest'⟩ := Option.bind_eq_some_iff.mp second
      have kept := preserved op s g g₁ k k₁ start seen seen'
      cases answer : h op s with
      | none =>
          rw [answer] at rest rest'
          cases rest
          cases rest'
          exact kept
      | some result =>
          rw [answer] at rest rest'
          exact ih result.1 kept rest rest'

/-- A handler that also threads the ghost, and refuses what the ghost objects to. -/
def watched (h : Handler Op Res σ) (m : Op → σ → μ → Option μ) : Handler Op Res (σ × μ) :=
  fun op c => (m op c.1 c.2).bind fun g' => (h op c.1).map fun (r, s') => (r, (s', g'))

/-- A watched run is a run next to the ghost's. -/
theorem run_watched (p : Prog Op Res α) (s : σ) (g : μ) :
    run (watched h m) p (s, g) = (watch h m p s g).bind fun g' =>
      (run h p s).map fun (value, s') => (value, (s', g')) := by
  induction p generalizing s g with
  | ret value => rfl
  | call op next ih =>
      simp only [run_call, watched, watch]
      cases m op s g with
      | none => rfl
      | some g' =>
          cases answer : h op s with
          | none => rfl
          | some result => exact ih result.1 result.2 g'

end Watch

/-! ## Evaluating a read-only program -/

/-- The result of a program whose operations are answered by an environment. -/
def eval (answer : (op : Op) → Res op) : Prog Op Res α → α
  | ret value => value
  | call op next => eval answer (next (answer op))

/-- The operations asked on the way, in order. -/
def queries (answer : (op : Op) → Res op) : Prog Op Res α → List Op
  | ret _ => []
  | call op next => op :: queries answer (next (answer op))

/-- Evaluation against an environment that may have no answer. -/
def evalPartial (answer : (op : Op) → Option (Res op)) : Prog Op Res α → Option α
  | ret value => some value
  | call op next => (answer op).bind fun r => evalPartial answer (next r)

@[simp] theorem eval_ret (answer : (op : Op) → Res op) (value : α) :
    (ret value : Prog Op Res α).eval answer = value := rfl

@[simp] theorem eval_call (answer : (op : Op) → Res op) (op : Op)
    (next : Res op → Prog Op Res α) :
    (call op next).eval answer = (next (answer op)).eval answer := rfl

@[simp] theorem queries_ret (answer : (op : Op) → Res op) (value : α) :
    (ret value : Prog Op Res α).queries answer = [] := rfl

@[simp] theorem queries_call (answer : (op : Op) → Res op) (op : Op)
    (next : Res op → Prog Op Res α) :
    (call op next).queries answer = op :: (next (answer op)).queries answer := rfl

@[simp] theorem eval_bind (answer : (op : Op) → Res op) (p : Prog Op Res α)
    (f : α → Prog Op Res β) : (p >>= f).eval answer = (f (p.eval answer)).eval answer := by
  induction p with
  | ret value => rfl
  | call op next ih => exact ih (answer op)

@[simp] theorem queries_bind (answer : (op : Op) → Res op) (p : Prog Op Res α)
    (f : α → Prog Op Res β) :
    (p >>= f).queries answer = p.queries answer ++ (f (p.eval answer)).queries answer := by
  induction p with
  | ret value => rfl
  | call op next ih => simp [ih]

/-- A partial environment that restricts a total one answers a program exactly
when it has an answer to every question asked, and then with the total result. -/
theorem evalPartial_eq_some_iff {total : (op : Op) → Res op}
    {part : (op : Op) → Option (Res op)}
    (restricts : ∀ op r, part op = some r → r = total op)
    {p : Prog Op Res α} {value : α} :
    p.evalPartial part = some value ↔
      (∀ op ∈ p.queries total, (part op).isSome) ∧ value = p.eval total := by
  induction p with
  | ret result =>
      simp only [evalPartial, Option.some.injEq, queries_ret, List.not_mem_nil, false_implies,
        implies_true, true_and, eval_ret]
      exact eq_comm
  | call op next ih =>
      cases answer : part op with
      | none => simp [evalPartial, answer]
      | some r =>
          obtain rfl := restricts op r answer
          simp [evalPartial, answer, ih]

/-! ## Replacing the operations -/

/-- Replace every operation by a program over other operations. -/
def translate (f : (op : Op) → Prog Op' Res' (Res op)) : Prog Op Res α → Prog Op' Res' α
  | ret value => ret value
  | call op next => f op >>= fun r => translate f (next r)

theorem translate_bind {f : (op : Op) → Prog Op' Res' (Res op)} (p : Prog Op Res α)
    (g : α → Prog Op Res β) :
    (p >>= g).translate f = p.translate f >>= fun value => (g value).translate f := by
  induction p with
  | ret value => rfl
  | call op next ih => simp only [call_bind, translate, ih, bind_bind]

/-- A read-only program runs like its partial evaluation when every replaced
operation reads the state and leaves it alone. -/
theorem run_translate {h : Handler Op' Res' σ} {f : (op : Op) → Prog Op' Res' (Res op)}
    {part : (op : Op) → Option (Res op)} {s : σ}
    (reads : ∀ op, run h (f op) s = (part op).map fun r => (r, s)) (p : Prog Op Res α) :
    run h (p.translate f) s = (p.evalPartial part).map fun value => (value, s) := by
  induction p with
  | ret value => rfl
  | call op next ih =>
      rw [translate, run_bind, reads, evalPartial]
      cases part op with
      | none => rfl
      | some r => exact ih r

/-- The total case of `run_translate`: no replaced operation is refused. -/
theorem run_translate_of_total {h : Handler Op' Res' σ}
    {f : (op : Op) → Prog Op' Res' (Res op)} {total : (op : Op) → Res op} {s : σ}
    {p : Prog Op Res α}
    (reads : ∀ op ∈ p.queries total, run h (f op) s = some (total op, s)) :
    run h (p.translate f) s = some (p.eval total, s) := by
  induction p with
  | ret value => rfl
  | call op next ih =>
      simp only [queries_call, List.mem_cons, forall_eq_or_imp] at reads
      rw [translate, run_bind_of_some reads.1]
      exact ih _ reads.2

/-- A program whose operations act on a part of the state, put back by `put`, runs as it
does on that part alone. -/
theorem run_translate_embed {τ : Type} {h : Handler Op Res σ} {h' : Handler Op' Res' τ}
    {f : (op : Op) → Prog Op' Res' (Res op)} {put : σ → τ}
    (embeds : ∀ op s, run h' (f op) (put s) = (h op s).map fun (r, s') => (r, put s'))
    (p : Prog Op Res α) (s : σ) :
    run h' (p.translate f) (put s) = (run h p s).map fun (value, s') => (value, put s') := by
  induction p generalizing s with
  | ret value => rfl
  | call op next ih =>
      rw [translate, run_bind, embeds, run_call]
      cases h op s with
      | none => rfl
      | some result => exact ih result.1 result.2

/-- The operations that a replaced operation performs are performed by the whole. -/
theorem mem_trace_translate {h : Handler Op' Res' σ} {f : (op : Op) → Prog Op' Res' (Res op)}
    {total : (op : Op) → Res op} {s : σ} (reads : ∀ op, run h (f op) s = some (total op, s))
    {p : Prog Op Res α} {op : Op} (asked : op ∈ p.queries total) {op' : Op'}
    (member : op' ∈ (f op).trace h s) : op' ∈ (p.translate f).trace h s := by
  induction p with
  | ret value => cases asked
  | call first next ih =>
      rw [translate, trace_bind_of_some (reads first), List.mem_append]
      rcases List.mem_cons.mp asked with rfl | later
      · exact .inl member
      · exact .inr (ih (total first) later)

/-- What a program performs whose operations are each replaced by one operation that reads
the state and leaves it alone. -/
theorem trace_translate {h : Handler Op' Res' σ} {f : (op : Op) → Prog Op' Res' (Res op)}
    {total : (op : Op) → Res op} {image : Op → Op'} {s : σ}
    (reads : ∀ op, run h (f op) s = some (total op, s))
    (performs : ∀ op, (f op).trace h s = [image op]) (p : Prog Op Res α) :
    (p.translate f).trace h s = (p.queries total).map image := by
  induction p with
  | ret value => rfl
  | call op next ih =>
      rw [translate, trace_bind_of_some (reads op), performs, queries_call, List.map_cons, ih]
      rfl

/-- Replacing operations by programs that perform only `P` performs only `P`. -/
theorem Performs.translate {P : Op' → Prop} {f : (op : Op) → Prog Op' Res' (Res op)}
    (each : ∀ op, (f op).Performs P) (p : Prog Op Res α) : (p.translate f).Performs P := by
  induction p with
  | ret value => trivial
  | call op next ih => exact (each op).bind ih

theorem Returns.translate {Q : α → Prop} {f : (op : Op) → Prog Op' Res' (Res op)}
    {p : Prog Op Res α} (values : p.Returns Q) : (p.translate f).Returns Q := by
  induction p with
  | ret value => exact values
  | call op next ih => exact (returns_any (f op)).bind fun r _ => ih r (values r)

end Prog
