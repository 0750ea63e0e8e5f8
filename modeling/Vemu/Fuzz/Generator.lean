import Vemu.Fuzz
import Vemu.Lib.XorShift

/-!
# The random generator

`gen_rand` changes its seed by three xor-shifts and returns the new seed times an odd number.
Each of them is injective and keeps zero, so that a seed other than zero never becomes zero, comes
back after some number of calls, and can be told from what is returned
(**`neverDegenerates`**).
-/

namespace Vemu

open XorShift

/-- What a call of `gen_rand` returns, of the seed it leaves. -/
def returnedOf (x : U64) : U64 := x * 0x2545F4914F6CDD1D

lemma genRandStream_eq (n : ℕ) : genRandStream n = returnedOf (seedAt (n + 1)) := rfl

lemma seedAt_eq_iterate (n : ℕ) : seedAt n = nextSeed^[n] 123456789 := by
  induction n with
  | zero => rfl
  | succ n ih => rw [seedAt, ih, Function.iterate_succ_apply']

/-! ## One call -/

lemma nextSeed_injective : Function.Injective nextSeed := by
  have hfirst : Function.Injective fun x : U64 => x ^^^ (x >>> 12) :=
    xor_ushiftRight_injective (by decide)
  have hsecond : Function.Injective fun x : U64 => x ^^^ (x <<< 25) :=
    xor_shiftLeft_injective (by decide)
  have hthird : Function.Injective fun x : U64 => x ^^^ (x >>> 27) :=
    xor_ushiftRight_injective (by decide)
  exact hthird.comp (hsecond.comp hfirst)

lemma nextSeed_zero : nextSeed 0 = 0 := rfl

/-- The factor is odd, and therefore has an inverse. -/
lemma returnedOf_injective : Function.Injective returnedOf := by
  have hunit : IsUnit (0x2545F4914F6CDD1D : U64) :=
    IsUnit.of_mul_eq_one 0x59071D96D81ECD35 (by decide)
  exact hunit.mul_left_injective

lemma returnedOf_zero : returnedOf 0 = 0 := rfl

/-! ## All calls -/

/-- **What is asked of the generator**, and that it is the one of `gen_rand`: each call changes the
seed by the three xor-shifts, one after the other, and returns the new seed times the factor. -/
structure NeverDegenerates : Prop where
  xor_shifts : ∀ x y z : U64, y = x ^^^ (x >>> 12) → z = y ^^^ (y <<< 25) →
    nextSeed x = z ^^^ (z >>> 27)
  source : seedAt 0 = 123456789
  next : ∀ n, seedAt (n + 1) = nextSeed (seedAt n)
  returned : ∀ n, genRandStream n = returnedOf (seedAt (n + 1))
  bijective : Function.Bijective nextSeed
  zero : nextSeed 0 = 0
  seed_ne_zero : ∀ seed ≠ 0, ∀ n, nextSeed^[n] seed ≠ 0
  period : ∀ seed, ∃ p > 0, ∀ n, nextSeed^[n + p] seed = nextSeed^[n] seed
  returned_injective : Function.Injective returnedOf
  returned_ne_zero : ∀ seed ≠ 0, ∀ n, returnedOf (nextSeed^[n + 1] seed) ≠ 0

/-- **The generator never degenerates**, from any seed other than zero and from the one in the
source. -/
theorem neverDegenerates :
    NeverDegenerates ∧ (∀ n, seedAt n ≠ 0 ∧ genRandStream n ≠ 0)
      ∧ ∃ p > 0, ∀ n, seedAt (n + p) = seedAt n ∧ genRandStream (n + p) = genRandStream n := by
  have hseed : ∀ seed ≠ 0, ∀ n, nextSeed^[n] seed ≠ 0 := fun _ hne n =>
    iterate_ne_of_fixed nextSeed_injective nextSeed_zero hne n
  have hreturned : ∀ seed ≠ 0, ∀ n, returnedOf (nextSeed^[n + 1] seed) ≠ 0 := fun seed hne n h =>
    hseed seed hne (n + 1) (returnedOf_injective (h.trans returnedOf_zero.symm))
  have hsource : (123456789 : U64) ≠ 0 := by decide
  refine ⟨⟨by rintro x y z rfl rfl; rfl, rfl, fun _ => rfl, genRandStream_eq,
    Finite.injective_iff_bijective.mp nextSeed_injective, nextSeed_zero, hseed,
    fun seed => exists_period nextSeed_injective seed, returnedOf_injective, hreturned⟩, ?_, ?_⟩
  · intro n
    rw [genRandStream_eq, seedAt_eq_iterate, seedAt_eq_iterate]
    exact ⟨hseed _ hsource n, hreturned _ hsource n⟩
  · obtain ⟨p, hp, hperiod⟩ := exists_period nextSeed_injective (123456789 : U64)
    have hstates : ∀ n, seedAt (n + p) = seedAt n := fun n => by
      rw [seedAt_eq_iterate, seedAt_eq_iterate, hperiod]
    refine ⟨p, hp, fun n => ⟨hstates n, ?_⟩⟩
    rw [genRandStream_eq, genRandStream_eq, Nat.add_right_comm, hstates]

end Vemu
