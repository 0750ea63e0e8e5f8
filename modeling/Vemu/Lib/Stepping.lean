import Mathlib.Logic.Relation
import Mathlib.Tactic.Ring

/-!
# Systems that take steps

A system is a relation between its states.  `Steps step n s t` says that `n` steps lead from `s`
to `t`, and `Reaches step P Q` that from every state with `P` some number of steps leads to one with
`Q`.  The latter is a judgment about total correctness, with the usual rules: a step, a sequence, a
weaker statement, and a loop whose measure decreases (`Reaches.loop`).

A simulation takes every step of one system to a step of another.  So it takes runs to runs of the
same length (`Simulation.steps`), and what is proved of the first system to the second
(**`Simulation.reaches`**).  Where the second system can also leave the first, its runs are runs of
the first up to there (`Follows.steps`).
-/

namespace Stepping

universe u v

variable {σ : Type u} {τ : Type v} {step : σ → σ → Prop} {step' : τ → τ → Prop}

/-! ## Runs of a given length -/

inductive Steps (step : σ → σ → Prop) : ℕ → σ → σ → Prop
  | zero (s : σ) : Steps step 0 s s
  | succ {n : ℕ} {s t u : σ} (h : step s t) (hsteps : Steps step n t u) : Steps step (n + 1) s u

namespace Steps

variable {n k : ℕ} {s t u : σ}

lemma one (h : step s t) : Steps step 1 s t := .succ h (.zero t)

lemma trans (h : Steps step n s t) (h' : Steps step k t u) : Steps step (n + k) s u := by
  induction h with
  | zero => rwa [Nat.zero_add]
  | succ h _ ih =>
      rw [Nat.add_right_comm]
      exact .succ h (ih h')

end Steps

/-! ## Total correctness -/

/-- From every state with `P`, steps lead to a state with `Q`. -/
def Reaches (step : σ → σ → Prop) (P Q : σ → Prop) : Prop :=
  ∀ s, P s → ∃ n t, Steps step n s t ∧ Q t

namespace Reaches

variable {P P' Q Q' R : σ → Prop}

lemma refl (P : σ → Prop) : Reaches step P P := fun s hs => ⟨0, s, .zero s, hs⟩

lemma trans (h : Reaches step P Q) (h' : Reaches step Q R) : Reaches step P R := by
  intro s hs
  obtain ⟨n, t, hsteps, ht⟩ := h s hs
  obtain ⟨k, u, hsteps', hu⟩ := h' t ht
  exact ⟨n + k, u, hsteps.trans hsteps', hu⟩

lemma consequence (hpre : ∀ s, P' s → P s) (h : Reaches step P Q) (hpost : ∀ s, Q s → Q' s) :
    Reaches step P' Q' := by
  intro s hs
  obtain ⟨n, t, hsteps, ht⟩ := h s (hpre s hs)
  exact ⟨n, t, hsteps, hpost t ht⟩

lemma exists_pre {ι : Sort*} {P : ι → σ → Prop} (h : ∀ i, Reaches step (P i) Q) :
    Reaches step (fun s => ∃ i, P i s) Q := by
  rintro s ⟨i, hs⟩
  exact h i s hs

/-- **The loop rule.**  If the body leads from the invariant at one measure to the end of the loop, or
to the invariant at a smaller measure, then the loop ends. -/
theorem loop {I : ℕ → σ → Prop}
    (hbody : ∀ m, Reaches step (I m) fun t => Q t ∨ ∃ k < m, I k t) (m : ℕ) :
    Reaches step (I m) Q := by
  induction m using Nat.strong_induction_on with
  | h m ih =>
      refine (hbody m).trans fun t ht => ?_
      rcases ht with ht | ⟨k, hk, ht⟩
      · exact refl Q t ht
      · exact ih k hk t ht

end Reaches

/-! ## Simulation -/

/-- Every step of the first system is one of the second, in related states. -/
def Simulation (step : σ → σ → Prop) (step' : τ → τ → Prop) (R : σ → τ → Prop) : Prop :=
  ∀ s t s', R s t → step s s' → ∃ t', step' t t' ∧ R s' t'

namespace Simulation

variable {R : σ → τ → Prop}

theorem steps (h : Simulation step step' R) {n : ℕ} {s s' : σ} (hsteps : Steps step n s s') :
    ∀ t, R s t → ∃ t', Steps step' n t t' ∧ R s' t' := by
  induction hsteps with
  | zero s => exact fun t ht => ⟨t, .zero t, ht⟩
  | succ hstep _ ih =>
      intro t ht
      obtain ⟨t₁, hstep', ht₁⟩ := h _ t _ ht hstep
      obtain ⟨t', hsteps', ht'⟩ := ih t₁ ht₁
      exact ⟨t', .succ hstep' hsteps', ht'⟩

/-- **What is proved of the first system holds of the second.** -/
theorem reaches (h : Simulation step step' R) {P Q : σ → Prop} (hpq : Reaches step P Q) :
    Reaches step' (fun t => ∃ s, R s t ∧ P s) fun t => ∃ s, R s t ∧ Q s := by
  rintro t ⟨s, hR, hs⟩
  obtain ⟨n, s', hsteps, hs'⟩ := hpq s hs
  obtain ⟨t', hsteps', hR'⟩ := h.steps hsteps t hR
  exact ⟨n, t', hsteps', s', hR', hs'⟩

end Simulation

/-- Every step of the second system is one of the first, unless the first is left. -/
def Follows (step : σ → σ → Prop) (step' : τ → τ → Prop) (R : σ → τ → Prop) (Leaves : σ → Prop) :
    Prop :=
  ∀ s t t', R s t → step' t t' → (∃ s', step s s' ∧ R s' t') ∨ Leaves s

/-- **A run of the second system is one of the first**, up to the state where the first is left. -/
theorem Follows.steps {R : σ → τ → Prop} {Leaves : σ → Prop} (h : Follows step step' R Leaves)
    {n : ℕ} {t t' : τ} (hsteps : Steps step' n t t') :
    ∀ s, R s t → (∃ s', Steps step n s s' ∧ R s' t')
      ∨ ∃ k < n, ∃ s', Steps step k s s' ∧ Leaves s' := by
  induction hsteps with
  | zero t => exact fun s hs => .inl ⟨s, .zero s, hs⟩
  | succ hstep _ ih =>
      intro s hs
      rcases h s _ _ hs hstep with ⟨s₁, hstep₁, hs₁⟩ | hleaves
      · rcases ih s₁ hs₁ with ⟨s', hsteps', hs'⟩ | ⟨k, hk, s', hsteps', hleaves⟩
        · exact .inl ⟨s', .succ hstep₁ hsteps', hs'⟩
        · exact .inr ⟨k + 1, Nat.succ_lt_succ hk, s', .succ hstep₁ hsteps', hleaves⟩
      · exact .inr ⟨0, Nat.succ_pos _, s, .zero s, hleaves⟩

end Stepping
