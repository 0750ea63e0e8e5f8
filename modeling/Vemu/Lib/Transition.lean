import Vemu.Lib.Fallible

/-!
# Runs of a system whose steps can fail

`apply : σ → ι → Except ε σ` performs one operation on a state.  A run is a list of operations
performed from the left; it ends early at the first operation that fails.

* `AllStates apply P s ops` — `P` holds in every state the run reaches, the first included.
* `AllSteps apply G s ops` — every operation of the run that succeeds meets `G`, a condition on
  the state before it.
* `AllTries apply G s ops` — every operation that the run comes to meets `G`, whether it succeeds
  or fails.

`allStates_iff_allSteps` is the rule the development uses: when one successful step keeps an
invariant exactly if it meets `G`, the invariant holds all along a run exactly if every step
of the run meets `G`.  Where meeting `G` is only enough, there is `allStates_of_allSteps`.
-/

namespace Transition

open Fallible

universe u

variable {σ : Type u} {ι ε : Type*}

/-- The property holds in every state that the run reaches. -/
def AllStates (apply : σ → ι → Except ε σ) (P : σ → Prop) : σ → List ι → Prop
  | s, [] => P s
  | s, i :: ops => P s ∧ ∀ s', apply s i = .ok s' → AllStates apply P s' ops

/-- Every successful step of the run meets the condition in the state before it. -/
def AllSteps (apply : σ → ι → Except ε σ) (G : σ → ι → Prop) : σ → List ι → Prop
  | _, [] => True
  | s, i :: ops => ∀ s', apply s i = .ok s' → G s i ∧ AllSteps apply G s' ops

/-- Every operation that the run comes to meets the condition in the state before it. -/
def AllTries (apply : σ → ι → Except ε σ) (G : σ → ι → Prop) : σ → List ι → Prop
  | _, [] => True
  | s, i :: ops => G s i ∧ ∀ s', apply s i = .ok s' → AllTries apply G s' ops

/-- The steps of a run can be taken and looked at. -/
instance AllSteps.decidable {apply : σ → ι → Except ε σ} {G : σ → ι → Prop}
    [hG : ∀ s i, Decidable (G s i)] : ∀ s ops, Decidable (AllSteps apply G s ops)
  | _, [] => isTrue trivial
  | s, i :: ops =>
      match hs : apply s i with
      | .ok s' =>
          have : Decidable (AllSteps apply G s' ops) := @AllSteps.decidable apply G hG s' ops
          decidable_of_iff (G s i ∧ AllSteps apply G s' ops) (by simp [AllSteps, hs])
      | .error _ => isTrue (by simp [AllSteps, hs])

/-- The states of a run can be looked at. -/
instance AllStates.decidable {apply : σ → ι → Except ε σ} {P : σ → Prop}
    [hP : ∀ s, Decidable (P s)] : ∀ s ops, Decidable (AllStates apply P s ops)
  | s, [] => hP s
  | s, i :: ops =>
      match hs : apply s i with
      | .ok s' =>
          have : Decidable (AllStates apply P s' ops) := @AllStates.decidable apply P hP s' ops
          decidable_of_iff (P s ∧ AllStates apply P s' ops) (by simp [AllStates, hs])
      | .error _ => decidable_of_iff (P s) (by simp [AllStates, hs])

/-- The tries of a run can be looked at. -/
instance AllTries.decidable {apply : σ → ι → Except ε σ} {G : σ → ι → Prop}
    [hG : ∀ s i, Decidable (G s i)] : ∀ s ops, Decidable (AllTries apply G s ops)
  | _, [] => isTrue trivial
  | s, i :: ops =>
      match hs : apply s i with
      | .ok s' =>
          have : Decidable (AllTries apply G s' ops) := @AllTries.decidable apply G hG s' ops
          decidable_of_iff (G s i ∧ AllTries apply G s' ops) (by simp [AllTries, hs])
      | .error _ => decidable_of_iff (G s i) (by simp [AllTries, hs])

lemma AllStates.head {apply : σ → ι → Except ε σ} {P : σ → Prop} :
    ∀ {s : σ} {ops : List ι}, AllStates apply P s ops → P s
  | _, [], h => h
  | _, _ :: _, h => h.1

lemma AllStates.last {apply : σ → ι → Except ε σ} {P : σ → Prop} :
    ∀ {s s' : σ} {ops : List ι}, AllStates apply P s ops → ops.foldlM apply s = .ok s' → P s'
  | s, s', [], h, hs => by
      obtain rfl := Except.ok.inj hs
      exact h
  | s, s', i :: ops, h, hs => by
      rw [List.foldlM_cons, bind_eq_ok_iff] at hs
      obtain ⟨s₁, hs₁, hs⟩ := hs
      exact (h.2 s₁ hs₁).last hs

/-- **An invariant that a step keeps exactly under a condition.**  It holds in every state of a
run exactly if every step of the run meets the condition.  `J` collects what holds of every
state anyway. -/
theorem allStates_iff_allSteps {apply : σ → ι → Except ε σ} {J P : σ → Prop} {G : σ → ι → Prop}
    (hJ : ∀ s i s', J s → apply s i = .ok s' → J s')
    (hstep : ∀ s i s', J s → P s → apply s i = .ok s' → (P s' ↔ G s i)) :
    ∀ {s : σ} (ops : List ι), J s → P s → (AllStates apply P s ops ↔ AllSteps apply G s ops)
  | s, [], _, hs => ⟨fun _ => trivial, fun _ => hs⟩
  | s, i :: ops, hj, hs => by
      constructor
      · rintro ⟨-, h⟩ s' hs'
        have hP : P s' := (h s' hs').head
        exact ⟨(hstep s i s' hj hs hs').mp hP,
          (allStates_iff_allSteps hJ hstep ops (hJ s i s' hj hs') hP).mp (h s' hs')⟩
      · intro h
        refine ⟨hs, fun s' hs' => ?_⟩
        obtain ⟨hG, hrest⟩ := h s' hs'
        have hP : P s' := (hstep s i s' hj hs hs').mpr hG
        exact (allStates_iff_allSteps hJ hstep ops (hJ s i s' hj hs') hP).mpr hrest

/-- **An invariant that steps meeting a condition keep.**  It holds in every state of a run all of
whose steps meet the condition. -/
theorem allStates_of_allSteps {apply : σ → ι → Except ε σ} {J P : σ → Prop} {G : σ → ι → Prop}
    (hJ : ∀ s i s', J s → G s i → apply s i = .ok s' → J s') (hP : ∀ s, J s → P s) :
    ∀ {s : σ} (ops : List ι), J s → AllSteps apply G s ops → AllStates apply P s ops
  | s, [], hj, _ => hP s hj
  | s, i :: ops, hj, h => by
      refine ⟨hP s hj, fun s' hs' => ?_⟩
      obtain ⟨hG, hrest⟩ := h s' hs'
      exact allStates_of_allSteps hJ hP ops (hJ s i s' hj hG hs') hrest

/-! ## What is tried -/

/-- Two conditions that come to the same where an invariant holds come to the same along a run,
if the steps that meet the second keep the invariant. -/
theorem allTries_iff {apply : σ → ι → Except ε σ} {J : σ → Prop} {G H : σ → ι → Prop}
    (hGH : ∀ s i, J s → (H s i ↔ G s i))
    (hJ : ∀ s i s', J s → G s i → apply s i = .ok s' → J s') :
    ∀ {s : σ} (ops : List ι), J s → (AllTries apply H s ops ↔ AllTries apply G s ops)
  | _, [], _ => Iff.rfl
  | s, i :: ops, hj => by
      constructor
      · rintro ⟨hH, hrest⟩
        have hG := (hGH s i hj).mp hH
        exact ⟨hG, fun s' hs' =>
          (allTries_iff hGH hJ ops (hJ s i s' hj hG hs')).mp (hrest s' hs')⟩
      · rintro ⟨hG, hrest⟩
        exact ⟨(hGH s i hj).mpr hG, fun s' hs' =>
          (allTries_iff hGH hJ ops (hJ s i s' hj hG hs')).mpr (hrest s' hs')⟩

/-- What holds where an invariant and a condition do holds of all tries that meet the condition. -/
theorem AllTries.imp {apply : σ → ι → Except ε σ} {J : σ → Prop} {G H : σ → ι → Prop}
    (hGH : ∀ s i, J s → G s i → H s i)
    (hJ : ∀ s i s', J s → G s i → apply s i = .ok s' → J s') :
    ∀ {s : σ} (ops : List ι), J s → AllTries apply G s ops → AllTries apply H s ops
  | _, [], _, _ => trivial
  | s, i :: ops, hj, h =>
      ⟨hGH s i hj h.1, fun s' hs' =>
        AllTries.imp hGH hJ ops (hJ s i s' hj h.1 hs') (h.2 s' hs')⟩

/-- Two conditions hold of all tries exactly if each of them does. -/
lemma allTries_and_iff {apply : σ → ι → Except ε σ} {G H : σ → ι → Prop} :
    ∀ {s : σ} {ops : List ι}, AllTries apply (fun s i => G s i ∧ H s i) s ops
      ↔ AllTries apply G s ops ∧ AllTries apply H s ops
  | _, [] => by simp [AllTries]
  | s, i :: ops => by
      simp only [AllTries, allTries_and_iff, forall_and]
      tauto

/-- What is tried includes what succeeds. -/
lemma AllTries.allSteps {apply : σ → ι → Except ε σ} {G : σ → ι → Prop} :
    ∀ {s : σ} {ops : List ι}, AllTries apply G s ops → AllSteps apply G s ops
  | _, [], _ => trivial
  | _, _ :: _, h => fun s' hs' => ⟨h.1, (h.2 s' hs').allSteps⟩

lemma AllTries.last {apply : σ → ι → Except ε σ} {G : σ → ι → Prop} :
    ∀ {s s' : σ} {ops : List ι} {i : ι}, AllTries apply G s (ops ++ [i]) →
      ops.foldlM apply s = .ok s' → G s' i
  | s, s', [], i, h, hs => by
      obtain rfl := Except.ok.inj hs
      exact h.1
  | s, s', j :: ops, i, h, hs => by
      rw [List.foldlM_cons, bind_eq_ok_iff] at hs
      obtain ⟨s₁, hs₁, hs⟩ := hs
      exact (h.2 s₁ hs₁).last hs

/-- **An invariant of the states and a condition on the tries**, which together hold all along a
run exactly if every try meets another condition.  `J` collects what holds of every state
anyway. -/
theorem allStates_and_allTries_iff {apply : σ → ι → Except ε σ} {J P : σ → Prop}
    {G H : σ → ι → Prop} (hJ : ∀ s i s', J s → apply s i = .ok s' → J s')
    (hstep : ∀ s i, J s → P s → (H s i ∧ (∀ s', apply s i = .ok s' → P s') ↔ G s i)) :
    ∀ {s : σ} (ops : List ι), J s → P s →
      (AllStates apply P s ops ∧ AllTries apply H s ops ↔ AllTries apply G s ops)
  | s, [], _, hs => ⟨fun _ => trivial, fun _ => ⟨hs, trivial⟩⟩
  | s, i :: ops, hj, hs => by
      constructor
      · rintro ⟨⟨-, hstates⟩, hH, htries⟩
        have hP : ∀ s', apply s i = .ok s' → P s' := fun s' hs' => (hstates s' hs').head
        exact ⟨(hstep s i hj hs).mp ⟨hH, hP⟩, fun s' hs' =>
          (allStates_and_allTries_iff hJ hstep ops (hJ s i s' hj hs') (hP s' hs')).mp
            ⟨hstates s' hs', htries s' hs'⟩⟩
      · rintro ⟨hG, hrest⟩
        obtain ⟨hH, hP⟩ := (hstep s i hj hs).mpr hG
        have ih := fun s' hs' =>
          (allStates_and_allTries_iff hJ hstep ops (hJ s i s' hj hs') (hP s' hs')).mpr (hrest s' hs')
        exact ⟨⟨hs, fun s' hs' => (ih s' hs').1⟩, hH, fun s' hs' => (ih s' hs').2⟩

/-- Two conditions that come to the same where an invariant holds come to the same in the states
of a run. -/
theorem allStates_congr {apply : σ → ι → Except ε σ} {J P Q : σ → Prop}
    (hPQ : ∀ s, J s → (P s ↔ Q s)) (hJ : ∀ s i s', J s → apply s i = .ok s' → J s') :
    ∀ {s : σ} (ops : List ι), J s → (AllStates apply P s ops ↔ AllStates apply Q s ops)
  | s, [], hj => hPQ s hj
  | s, i :: ops, hj =>
      and_congr (hPQ s hj) (forall₂_congr fun s' hs' =>
        allStates_congr hPQ hJ ops (hJ s i s' hj hs'))

/-- What every step keeps holds in every state of a run. -/
lemma allStates_of_invariant {apply : σ → ι → Except ε σ} {J P : σ → Prop}
    (hJ : ∀ s i s', J s → apply s i = .ok s' → J s') (hP : ∀ s, J s → P s) {s : σ} (ops : List ι)
    (hs : J s) : AllStates apply P s ops := by
  induction ops generalizing s with
  | nil => exact hP s hs
  | cons i ops ih => exact ⟨hP s hs, fun s' hs' => ih (hJ s i s' hs hs')⟩

/-- What holds of a try wherever an invariant does holds of every try of a run. -/
lemma allTries_of_invariant {apply : σ → ι → Except ε σ} {J : σ → Prop} {H : σ → ι → Prop}
    (hJ : ∀ s i s', J s → apply s i = .ok s' → J s') (hH : ∀ s i, J s → H s i) {s : σ}
    (ops : List ι) (hs : J s) : AllTries apply H s ops := by
  induction ops generalizing s with
  | nil => exact trivial
  | cons i ops ih => exact ⟨hH s i hs, fun s' hs' => ih (hJ s i s' hs hs')⟩

/-! ## Reachable states -/

/-- A state reached from an initial one by any number of steps. -/
inductive Reachable (init : σ → Prop) (step : σ → σ → Prop) : σ → Prop
  | start {s : σ} (h : init s) : Reachable init step s
  | step {s s' : σ} (h : Reachable init step s) (hs : step s s') : Reachable init step s'

/-- **The invariant rule.**  What holds initially and is kept by every step holds of every
reachable state. -/
theorem Reachable.invariant {init : σ → Prop} {step : σ → σ → Prop} {P : σ → Prop}
    (hinit : ∀ s, init s → P s) (hstep : ∀ s s', P s → step s s' → P s') {s : σ}
    (h : Reachable init step s) : P s := by
  induction h with
  | start h => exact hinit _ h
  | step _ hs ih => exact hstep _ _ ih hs

end Transition
