import Mathlib.Data.BitVec
import Mathlib.Data.FinEnum
import Mathlib.Dynamics.PeriodicPts.Lemmas

/-!
# Xor-shifts

A word xor-ed with a shift of itself determines the word, whatever the direction, if the shift is
by at least one bit: the bits that are shifted out leave a bit that is the word's own, and each
bit gives the next one (`xor_ushiftRight_injective`, `xor_shiftLeft_injective`).

A generator whose step is injective on a finite type runs in circles: every sequence of states
comes back to where it began (`exists_period`), and never reaches a fixed point that it did not
start from (`iterate_ne_of_fixed`).
-/

namespace XorShift

variable {w : ℕ} {k : ℕ}

/-! ## One shift -/

/-- From the highest bit down. -/
lemma xor_ushiftRight_injective (hk : 0 < k) :
    Function.Injective fun x : BitVec w => x ^^^ (x >>> k) := by
  intro x y h
  have hbit : ∀ i, (x.getLsbD i ^^ x.getLsbD (k + i)) = (y.getLsbD i ^^ y.getLsbD (k + i)) := by
    intro i
    have hi := congrArg (BitVec.getLsbD · i) h
    simpa only [BitVec.getLsbD_xor, BitVec.getLsbD_ushiftRight] using hi
  have hall : ∀ n i, w ≤ i + n → x.getLsbD i = y.getLsbD i := by
    intro n
    induction n with
    | zero =>
        intro i hi
        rw [BitVec.getLsbD_of_ge x i hi, BitVec.getLsbD_of_ge y i hi]
    | succ n ih =>
        intro i hi
        have hi' := hbit i
        rwa [ih (k + i) (by omega), Bool.xor_left_inj] at hi'
  exact BitVec.eq_of_getLsbD_eq fun i _ => hall w i (Nat.le_add_left w i)

/-- From the lowest bit up. -/
lemma xor_shiftLeft_injective (hk : 0 < k) :
    Function.Injective fun x : BitVec w => x ^^^ (x <<< k) := by
  intro x y h
  refine BitVec.eq_of_getLsbD_eq fun i hi => ?_
  induction i using Nat.strong_induction_on with
  | _ i ih =>
      have hbit := congrArg (BitVec.getLsbD · i) h
      simp only [BitVec.getLsbD_xor, BitVec.getLsbD_shiftLeft, decide_eq_true hi, Bool.true_and]
        at hbit
      by_cases hik : i < k
      · simpa [hik] using hbit
      · rwa [ih (i - k) (by omega) (by omega), Bool.xor_left_inj] at hbit

/-! ## Running in circles -/

variable {α : Type*} {f : α → α} {a x : α}

/-- A fixed point is reached from itself only. -/
lemma iterate_ne_of_fixed (hf : Function.Injective f) (ha : f a = a) (hx : x ≠ a) (n : ℕ) :
    f^[n] x ≠ a := by
  intro h
  have hfix : f^[n] a = a := Function.iterate_fixed ha n
  exact hx (hf.iterate n (h.trans hfix.symm))

/-- The sequence repeats itself, from its first state on. -/
lemma exists_period [Finite α] (hf : Function.Injective f) (x : α) :
    ∃ p > 0, ∀ n, f^[n + p] x = f^[n] x := by
  obtain ⟨p, hp, hperiod⟩ := Function.mem_periodicPts.mp (hf.mem_periodicPts x)
  refine ⟨p, hp, fun n => ?_⟩
  rw [Function.iterate_add_apply]
  exact congrArg f^[n] hperiod

end XorShift
