import Vemu.Lib.Fallible

/-!
# Two computations at once

`Related R x y` says of two computations that can fail that they do the same up to `R`: they fail in
the same way, or end in results that `R` relates.  With `R` for "the same but for what must not
matter" this is the judgment that it does not matter.

The rules follow the structure of the computations: a result, a bind, a loop whose rounds keep the
relation, and `Related.of_ok`, which takes the results apart when it is known what each computation
does.
-/

namespace Fallible

universe u v

variable {ε : Type*} {α β γ δ : Type u} {ι : Type v} {R R' : α → β → Prop} {S : γ → δ → Prop}
  {x : Except ε α} {y : Except ε β}

inductive Related (R : α → β → Prop) : Except ε α → Except ε β → Prop
  | ok {a : α} {b : β} (h : R a b) : Related R (.ok a) (.ok b)
  | error (e : ε) : Related R (.error e) (.error e)

namespace Related

lemma refl {R : α → α → Prop} (h : ∀ a, R a a) (x : Except ε α) : Related R x x := by
  cases x with
  | error e => exact .error e
  | ok a => exact .ok (h a)

lemma mono (h : Related R x y) (hR : ∀ a b, R a b → R' a b) : Related R' x y := by
  cases h with
  | error e => exact .error e
  | ok h => exact .ok (hR _ _ h)

/-- Computations that fail alike are related if their results are. -/
lemma of_ok (h : Related R x y) (hR : ∀ a b, x = .ok a → y = .ok b → R a b → R' a b) :
    Related R' x y := by
  cases h with
  | error e => exact .error e
  | ok h => exact .ok (hR _ _ rfl rfl h)

/-- Computations that end in the same are the same. -/
lemma eq {x y : Except ε α} (h : Related (fun a b => b = a) x y) : y = x := by
  cases h with
  | error e => rfl
  | ok h => exact congrArg Except.ok h

/-- What is the same of the results is the same of the computations. -/
lemma map_eq {f : α → γ} {g : β → γ} (h : Related (fun a b => g b = f a) x y) :
    g <$> y = f <$> x := by
  cases h with
  | error e => rfl
  | ok h => exact congrArg Except.ok h

lemma bind {f : α → Except ε γ} {g : β → Except ε δ} (h : Related R x y)
    (hf : ∀ a b, R a b → Related S (f a) (g b)) : Related S (x >>= f) (y >>= g) := by
  cases h with
  | error e => exact .error e
  | ok h => exact hf _ _ h

/-- The same first half. -/
lemma bind_same {x : Except ε α} {f : α → Except ε γ} {g : α → Except ε δ}
    (hf : ∀ a, x = .ok a → Related S (f a) (g a)) : Related S (x >>= f) (x >>= g) := by
  cases x with
  | error e => exact .error e
  | ok a => exact hf a rfl

/-- A loop keeps what every round keeps. -/
lemma foldlM {f : α → ι → Except ε α} {g : β → ι → Except ε β}
    (hround : ∀ i a b, R a b → Related R (f a i) (g b i)) (l : List ι) {a : α} {b : β} (h : R a b) :
    Related R (l.foldlM f a) (l.foldlM g b) := by
  induction l generalizing a b with
  | nil => exact .ok h
  | cons i l ih =>
      rw [List.foldlM_cons, List.foldlM_cons]
      exact (hround i a b h).bind fun _ _ h' => ih h'

end Related

end Fallible
