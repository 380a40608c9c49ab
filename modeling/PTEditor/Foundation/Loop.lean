import PTEditor.Foundation.Prog

/-!
# Counting loops

`Prog.loop n body` runs `body 0`, …, `body (n - 1)` one after the other on a value that each
of them may change.  `run_loop` is the rule for its runs: an invariant over the number of
iterations, the value and the state.
-/

namespace Prog

variable {Op : Type} {Res : Op → Type} {γ σ : Type} {h : Handler Op Res σ}

/-- `n` iterations from `first` on. -/
def loopFrom (body : Nat → γ → Prog Op Res γ) : Nat → Nat → γ → Prog Op Res γ
  | 0, _, value => pure value
  | n + 1, first, value => do
      let value ← body first value
      loopFrom body n (first + 1) value

/-- `for (i = 0; i < n; i++)`. -/
def loop (n : Nat) (body : Nat → γ → Prog Op Res γ) (value : γ) : Prog Op Res γ :=
  loopFrom body n 0 value

theorem run_loopFrom {inv : Nat → γ → σ → Prop} {body : Nat → γ → Prog Op Res γ} {n first : Nat}
    (step : ∀ i, first ≤ i → i < first + n → ∀ value s, inv i value s →
      ∃ value' s', run h (body i value) s = some (value', s') ∧ inv (i + 1) value' s')
    {value : γ} {s : σ} (start : inv first value s) :
    ∃ value' s', run h (loopFrom body n first value) s = some (value', s') ∧
      inv (first + n) value' s' := by
  induction n generalizing first value s with
  | zero => exact ⟨value, s, rfl, start⟩
  | succ n ih =>
      obtain ⟨middle, s', here, kept⟩ := step first (Nat.le_refl _) (by omega) value s start
      obtain ⟨value', s'', rest, done⟩ := ih
        (fun i lower upper => step i (by omega) (by omega)) kept
      refine ⟨value', s'', ?_, ?_⟩
      · rw [loopFrom, run_bind_of_some here]
        exact rest
      · rwa [show first + (n + 1) = first + 1 + n by omega]

/-- **Loops.**  What holds before the first iteration, and after each one if it held
before, holds after the loop. -/
theorem run_loop {inv : Nat → γ → σ → Prop} {body : Nat → γ → Prog Op Res γ} {n : Nat}
    (step : ∀ i < n, ∀ value s, inv i value s →
      ∃ value' s', run h (body i value) s = some (value', s') ∧ inv (i + 1) value' s')
    {value : γ} {s : σ} (start : inv 0 value s) :
    ∃ value' s', run h (loop n body value) s = some (value', s') ∧ inv n value' s' := by
  obtain ⟨value', s', done, last⟩ := run_loopFrom (n := n)
    (fun i _ upper => step i (by omega)) start
  rw [Nat.zero_add] at last
  exact ⟨value', s', done, last⟩

end Prog
