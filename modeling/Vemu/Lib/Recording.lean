import Vemu.Lib.Fallible

/-!
# Computations that keep a record

To speak of the history of a program, the program is written once more, with a record on the
side: a computation over `StateT L (Except ε)` for the record type `L`.  `Erases x y` says that
the recording computation `x` is the program `y` as soon as its record is dropped; it is proved
along the program, with one rule for each way of putting a program together.  Every run of `y`
then has a record (**`Erases.exists_run`**).

`run_bind_eq_ok_iff` and `run_foldlM_invariant` are the inversion rules of `Fallible` for such
computations.
-/

namespace Recording

open Fallible

universe u v

variable {ε : Type v} {L α β σ : Type u} {ι : Type*}

/-- Without its record, the one computation is the other. -/
def Erases (x : StateT L (Except ε) α) (y : Except ε α) : Prop :=
  ∀ l, (x.run l >>= fun r => .ok r.1) = y

variable {x : StateT L (Except ε) α} {y : Except ε α}

/-! ## Erasing -/

lemma erases_pure (a : α) : Erases (pure a : StateT L (Except ε) α) (pure a) := fun _ => rfl

/-- A step that records nothing. -/
lemma erases_lift (y : Except ε α) : Erases (liftM y : StateT L (Except ε) α) y
  | _ => by
      cases y with
      | error e => rfl
      | ok a => rfl

/-- What is recorded after a step. -/
lemma erases_modify_pure (g : L → L) (a : α) :
    Erases (modify g >>= fun _ => pure a : StateT L (Except ε) α) (pure a) := fun _ => rfl

lemma erases_bind {f : α → StateT L (Except ε) β} {g : α → Except ε β} (hx : Erases x y)
    (hf : ∀ a, Erases (f a) (g a)) : Erases (x >>= f) (y >>= g) := by
  intro l
  rw [← hx l, StateT.run_bind]
  cases x.run l with
  | error e => rfl
  | ok r => exact hf r.1 r.2

lemma erases_ite {c : Prop} [Decidable c] {x' : StateT L (Except ε) α} {y' : Except ε α}
    (hx : Erases x y) (hx' : Erases x' y') :
    Erases (if c then x else x') (if c then y else y') := by
  split_ifs
  · exact hx
  · exact hx'

lemma erases_foldlM {f : σ → ι → StateT L (Except ε) σ} {g : σ → ι → Except ε σ}
    (hf : ∀ s i, Erases (f s i) (g s i)) (is : List ι) (s : σ) :
    Erases (is.foldlM f s) (is.foldlM g s) := by
  induction is generalizing s with
  | nil => exact erases_pure s
  | cons i is ih =>
      rw [List.foldlM_cons, List.foldlM_cons]
      exact erases_bind (hf s i) ih

/-- **Every run has a record.** -/
theorem Erases.exists_run (h : Erases x y) {a : α} (hy : y = .ok a) (l : L) :
    ∃ l', x.run l = .ok (a, l') := by
  have hx := h l
  rw [hy, bind_eq_ok_iff] at hx
  obtain ⟨⟨a', l'⟩, hrun, ha⟩ := hx
  obtain rfl := Except.ok.inj ha
  exact ⟨l', hrun⟩

/-! ## Runs -/

lemma run_bind_eq_ok_iff {f : α → StateT L (Except ε) β} {l : L} {r : β × L} :
    (x >>= f).run l = .ok r ↔ ∃ a l', x.run l = .ok (a, l') ∧ (f a).run l' = .ok r := by
  rw [StateT.run_bind, bind_eq_ok_iff]
  exact ⟨fun ⟨p, hp, hr⟩ => ⟨p.1, p.2, hp, hr⟩, fun ⟨a, l', hp, hr⟩ => ⟨(a, l'), hp, hr⟩⟩

lemma run_lift_eq_ok_iff {l l' : L} {a : α} :
    (liftM y : StateT L (Except ε) α).run l = .ok (a, l') ↔ y = .ok a ∧ l' = l := by
  cases y with
  | error e => exact ⟨fun h => (nomatch h), fun h => nomatch h.1⟩
  | ok b =>
      constructor
      · intro h
        obtain ⟨rfl, rfl⟩ := Prod.mk.inj (Except.ok.inj h)
        exact ⟨rfl, rfl⟩
      · rintro ⟨h, rfl⟩
        obtain rfl := Except.ok.inj h
        rfl

/-- A step that records nothing, before others. -/
lemma run_lift_bind_eq_ok_iff {f : α → StateT L (Except ε) β} {l : L} {r : β × L} :
    (liftM y >>= f : StateT L (Except ε) β).run l = .ok r ↔
      ∃ a, y = .ok a ∧ (f a).run l = .ok r := by
  rw [run_bind_eq_ok_iff]
  constructor
  · rintro ⟨a, l', hlift, hr⟩
    obtain ⟨hy, rfl⟩ := run_lift_eq_ok_iff.mp hlift
    exact ⟨a, hy, hr⟩
  · rintro ⟨a, hy, hr⟩
    exact ⟨a, l, run_lift_eq_ok_iff.mpr ⟨hy, rfl⟩, hr⟩

/-- What every round keeps, of the record and the state, the loop keeps. -/
lemma run_foldlM_invariant {f : σ → ι → StateT L (Except ε) σ} (P : L → σ → Prop)
    (hstep : ∀ l s i l' s', P l s → (f s i).run l = .ok (s', l') → P l' s') (is : List ι)
    {l l' : L} {s s' : σ} (hs : P l s) (h : (is.foldlM f s).run l = .ok (s', l')) : P l' s' := by
  induction is generalizing l s with
  | nil =>
      obtain ⟨rfl, rfl⟩ := Prod.mk.inj (Except.ok.inj h)
      exact hs
  | cons i is ih =>
      rw [List.foldlM_cons, run_bind_eq_ok_iff] at h
      obtain ⟨s₁, l₁, h₁, h₂⟩ := h
      exact ih (hstep l s i l₁ s₁ hs h₁) h₂

end Recording
