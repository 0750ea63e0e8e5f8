import Vemu.Lib.LittleEndian

/-!
# A byte memory with little-endian words

A memory is a function from addresses to bytes.  `load` puts `n` bytes together to a number, the
byte at the first address lowest, and `store` writes the lowest `n` digits of a number, to the
base 256, there.

* **`load_store_self`** — a word that was stored is read back, up to its size.
* **`load_add`** — a word is made of the words of its parts.
-/

namespace ByteMemory

open LittleEndian

variable {f g : ℕ → BitVec 8} {lo lo' n k d : ℕ}

/-- The bytes from an address on. -/
def bytes (f : ℕ → BitVec 8) (lo n : ℕ) : List (BitVec 8) := (List.range n).map fun k => f (lo + k)

/-- The word of `n` bytes at an address. -/
def load (f : ℕ → BitVec 8) (lo n : ℕ) : ℕ := value (bytes f lo n)

/-- The `k`-th digit of a number. -/
def digit (d k : ℕ) : BitVec 8 := BitVec.ofNat 8 (d / 256 ^ k)

def store (f : ℕ → BitVec 8) (lo n d : ℕ) : ℕ → BitVec 8 := fun k =>
  if lo ≤ k ∧ k < lo + n then digit d (k - lo) else f k

lemma store_of_mem (h : lo ≤ k ∧ k < lo + n) : store f lo n d k = digit d (k - lo) := if_pos h

lemma store_of_not_mem (h : ¬ (lo ≤ k ∧ k < lo + n)) : store f lo n d k = f k := if_neg h

/-! ## Words -/

@[simp] lemma load_zero : load f lo 0 = 0 := rfl

lemma load_succ (f : ℕ → BitVec 8) (lo n : ℕ) :
    load f lo (n + 1) = (f lo).toNat + 256 * load f (lo + 1) n := by
  have hshift : (fun k => f (lo + (k + 1))) = fun k => f (lo + 1 + k) :=
    funext fun k => congrArg f (by ring)
  simp only [load, bytes, List.range_succ_eq_map, List.map_cons, List.map_map, Function.comp_def,
    value_cons, Nat.add_zero, Nat.succ_eq_add_one, hshift]

/-- **A word is made of the words of its parts.** -/
theorem load_add (f : ℕ → BitVec 8) : ∀ (lo n k : ℕ),
    load f lo (n + k) = load f lo n + 256 ^ n * load f (lo + n) k
  | lo, 0, k => by simp
  | lo, n + 1, k => by
      have hassoc : lo + 1 + n = lo + (n + 1) := by ring
      rw [Nat.succ_add, load_succ, load_succ, load_add f (lo + 1) n k, hassoc]
      ring

/-- The lower part of a word. -/
lemma load_mod (f : ℕ → BitVec 8) (lo n k : ℕ) :
    load f lo (n + k) % 256 ^ n = load f lo n % 256 ^ n := by
  rw [load_add, Nat.add_mul_mod_self_left]

lemma load_congr : ∀ {n lo lo' : ℕ}, (∀ k < n, f (lo + k) = g (lo' + k)) →
    load f lo n = load g lo' n
  | 0, _, _, _ => rfl
  | n + 1, lo, lo', h => by
      have hrest : ∀ k < n, f (lo + 1 + k) = g (lo' + 1 + k) := by
        intro k hk
        rw [Nat.add_right_comm, Nat.add_right_comm lo']
        exact h (k + 1) (by omega)
      rw [load_succ, load_succ, load_congr hrest, show f lo = g lo' from h 0 (by omega)]

/-! ## Words after a store -/

/-- The word of the digits of a number is the number, up to the size of the word. -/
lemma load_digit (d : ℕ) : ∀ n : ℕ, load (digit d) 0 n = d % 256 ^ n
  | 0 => by simp [Nat.mod_one]
  | n + 1 => by
      have hlast : load (digit d) n 1 = d / 256 ^ n % 256 := by
        rw [load_succ, load_zero, digit, BitVec.toNat_ofNat]
        rfl
      rw [load_add, load_digit d n, Nat.zero_add, hlast, pow_succ, Nat.mod_mul]

/-- **A word that was stored is read back**, up to its size. -/
theorem load_store_self (f : ℕ → BitVec 8) (lo n d : ℕ) :
    load (store f lo n d) lo n = d % 256 ^ n := by
  rw [← load_digit d n]
  refine load_congr fun k hk => ?_
  rw [store_of_mem (by omega), Nat.add_sub_cancel_left, Nat.zero_add]

end ByteMemory
