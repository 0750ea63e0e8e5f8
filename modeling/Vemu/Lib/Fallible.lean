import Mathlib.Tactic.Linarith

/-!
# Computations that can fail

A program that may stop half way is a function into `Except ε`.  This file has the two
inversion rules of its bind — where a successful or a failed result of `x >>= f` comes from —
and the same for a loop, `List.foldlM`: a property that every round keeps holds at the end
(`foldlM_invariant`) and at every round on the way (`foldlM_round`).

`check` is the assertion of such a program: it goes on, or stops with the given fault.
-/

namespace Fallible

universe u v

variable {ε : Type*} {α β σ : Type u} {ι : Type v}

@[simp] lemma pure_eq_ok (a : α) : (pure a : Except ε α) = .ok a := rfl

@[simp] lemma ok_bind (a : α) (f : α → Except ε β) : (Except.ok a >>= f) = f a := rfl

@[simp] lemma error_bind (e : ε) (f : α → Except ε β) : (Except.error e >>= f) = .error e := rfl

/-- A successful bind comes from a successful first half. -/
lemma bind_eq_ok_iff {x : Except ε α} {f : α → Except ε β} {b : β} :
    (x >>= f) = .ok b ↔ ∃ a, x = .ok a ∧ f a = .ok b := by
  cases x with
  | error e => simp
  | ok a => simp

/-- A failed bind failed in its first half, or after it. -/
lemma bind_eq_error_iff {x : Except ε α} {f : α → Except ε β} {e : ε} :
    (x >>= f) = .error e ↔ x = .error e ∨ ∃ a, x = .ok a ∧ f a = .error e := by
  cases x with
  | error e' => simp
  | ok a => simp

/-- Goes on when the condition holds, stops with the fault when it does not. -/
def check (fault : ε) (cond : Bool) : Except ε Unit :=
  if cond then .ok () else .error fault

@[simp] lemma check_true (fault : ε) : check fault true = .ok () := rfl

@[simp] lemma check_false (fault : ε) : check fault false = .error fault := rfl

lemma check_eq_ok_iff {fault : ε} {cond : Bool} {u : Unit} :
    check fault cond = .ok u ↔ cond = true := by
  cases cond <;> simp [check]

/-- Reads an optional value, stopping with the fault when there is none. -/
def orFault (fault : ε) : Option α → Except ε α
  | some a => .ok a
  | none => .error fault

@[simp] lemma orFault_some (fault : ε) (a : α) : orFault fault (some a) = .ok a := rfl

@[simp] lemma orFault_none (fault : ε) : orFault fault (none : Option α) = .error fault := rfl

lemma orFault_eq_ok_iff {fault : ε} {x : Option α} {a : α} :
    orFault fault x = .ok a ↔ x = some a := by
  cases x <;> simp [orFault]

/-- A loop depends on what its rounds do with the elements of its list only. -/
lemma foldlM_congr {f g : σ → ι → Except ε σ} {l : List ι} (h : ∀ i ∈ l, ∀ s, f s i = g s i) (s : σ) :
    l.foldlM f s = l.foldlM g s := by
  induction l generalizing s with
  | nil => rfl
  | cons i l ih =>
      rw [List.foldlM_cons, List.foldlM_cons, h i List.mem_cons_self s]
      congr 1
      funext s'
      exact ih (fun j hj => h j (List.mem_cons_of_mem i hj)) s'

/-- What every round keeps, the loop keeps. -/
lemma foldlM_invariant {f : σ → ι → Except ε σ} (P : σ → Prop)
    (hstep : ∀ s i s', P s → f s i = .ok s' → P s') :
    ∀ (l : List ι) (s s' : σ), P s → l.foldlM f s = .ok s' → P s'
  | [], s, s', hs, h => by
      simp only [List.foldlM_nil, pure_eq_ok, Except.ok.injEq] at h
      exact h ▸ hs
  | i :: l, s, s', hs, h => by
      rw [List.foldlM_cons] at h
      obtain ⟨s₁, h₁, h₂⟩ := bind_eq_ok_iff.mp h
      exact foldlM_invariant P hstep l s₁ s' (hstep s i s₁ hs h₁) h₂

/-- As many results as inputs. -/
lemma length_mapM {f : α → Except ε β} {l : List α} {l' : List β} (h : l.mapM f = .ok l') :
    l'.length = l.length := by
  induction l generalizing l' with
  | nil =>
      obtain rfl := Except.ok.inj h
      rfl
  | cons a l ih =>
      rw [List.mapM_cons, bind_eq_ok_iff] at h
      obtain ⟨b, -, h⟩ := h
      obtain ⟨bs, hbs, h⟩ := bind_eq_ok_iff.mp h
      obtain rfl := Except.ok.inj h
      exact congrArg (· + 1) (ih hbs)

/-- A function of the results can be put into the rest of a computation. -/
lemma bind_eq_map {γ : Type u} {x : Except ε α} {f : α → Except ε β} {g : α → Except ε γ}
    {k : β → γ} (h : ∀ a, g a = (f a).map k) : (x >>= g) = (x >>= f).map k := by
  cases x with
  | error => rfl
  | ok a => exact h a

/-- Computations that go on alike from every result are alike. -/
lemma map_bind_congr {γ : Type u} {x : Except ε α} {f g : α → Except ε β} {k : β → γ}
    (h : ∀ a, (f a).map k = (g a).map k) : (x >>= f).map k = (x >>= g).map k := by
  cases x with
  | error => rfl
  | ok a => exact h a

/-- In a loop that goes through, every round went through, in a state that keeps what every
round keeps. -/
lemma foldlM_round {f : σ → ι → Except ε σ} (P : σ → Prop)
    (hstep : ∀ s i s', P s → f s i = .ok s' → P s') :
    ∀ {l : List ι} {s s' : σ}, P s → l.foldlM f s = .ok s' →
      ∀ i ∈ l, ∃ s₁ s₂, P s₁ ∧ f s₁ i = .ok s₂
  | j :: l, s, s', hs, h, i, hi => by
      rw [List.foldlM_cons] at h
      obtain ⟨s₁, h₁, h₂⟩ := bind_eq_ok_iff.mp h
      rcases List.mem_cons.mp hi with rfl | hi
      · exact ⟨s, s₁, hs, h₁⟩
      · exact foldlM_round P hstep (hstep s j s₁ hs h₁) h₂ i hi

end Fallible
