import PTEditor.Foundation.Prog

/-!
# Programs on a machine with choices

A handler answers every operation in one way.  `Choices` leave a machine several answers,
and `Prog.Ensures` says that a program completes whatever the machine chooses, with a
postcondition of the value and the last state.  `ensures_translate` carries a run against a
handler over to a machine with more state, as long as no choice of the machine changes what
the handler answers.
-/

namespace Prog

variable {Op Op' : Type} {Res : Op → Type} {Res' : Op' → Type} {α β σ τ : Type}

/-- What a machine may answer to an operation, with the states that it may go on in. -/
abbrev Choices (Op : Type) (Res : Op → Type) (σ : Type) : Type :=
  (op : Op) → σ → Res op → σ → Prop

/-- Whatever the machine chooses, the program completes and meets a postcondition. -/
def Ensures (m : Choices Op Res σ) : Prog Op Res α → σ → (α → σ → Prop) → Prop
  | ret value, s, post => post value s
  | call op next, s, post =>
      (∃ r s', m op s r s') ∧ ∀ r s', m op s r s' → Ensures m (next r) s' post

variable {m : Choices Op Res σ}

theorem Ensures.mono {p : Prog Op Res α} {s : σ} {post post' : α → σ → Prop}
    (ensures : Ensures m p s post) (weaker : ∀ value s, post value s → post' value s) :
    Ensures m p s post' := by
  induction p generalizing s with
  | ret value => exact weaker value s ensures
  | call op next ih => exact ⟨ensures.1, fun r s' chosen => ih r (ensures.2 r s' chosen)⟩

/-- **Sequencing.**  What the first part ensures is what the second starts from. -/
theorem Ensures.bind {p : Prog Op Res α} {f : α → Prog Op Res β} {s : σ}
    {middle : α → σ → Prop} {post : β → σ → Prop} (first : Ensures m p s middle)
    (rest : ∀ value s', middle value s' → Ensures m (f value) s' post) :
    Ensures m (p >>= f) s post := by
  induction p generalizing s with
  | ret value => exact rest value s first
  | call op next ih => exact ⟨first.1, fun r s' chosen => ih r (first.2 r s' chosen)⟩

/-- **Runs on a machine.**  Every operation of a run is carried out by the machine with the
same answer, and an invariant relates the states. -/
theorem ensures_translate {h : Handler Op' Res' τ} {f : (op : Op') → Prog Op Res (Res' op)}
    {P : Op' → Prop} {inv : τ → σ → Prop}
    (each : ∀ op, P op → ∀ t s r t', inv t s → h op t = some (r, t') →
      Ensures m (f op) s fun r' s' => r' = r ∧ inv t' s')
    {p : Prog Op' Res' α} (only : p.Performs P) {t t' : τ} {s : σ} {value : α} (start : inv t s)
    (done : run h p t = some (value, t')) :
    Ensures m (p.translate f) s fun value' s' => value' = value ∧ inv t' s' := by
  induction p generalizing t s with
  | ret result =>
      cases done
      exact ⟨rfl, start⟩
  | call op next ih =>
      simp only [run_call, Option.bind_eq_some_iff] at done
      obtain ⟨⟨r, middle⟩, answer, rest⟩ := done
      refine (each op only.1 t s r middle start answer).bind fun r' s' => ?_
      rintro ⟨rfl, kept⟩
      exact ih r' (only.2 r') kept rest

end Prog
