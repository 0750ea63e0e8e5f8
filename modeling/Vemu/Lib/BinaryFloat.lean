import Mathlib.Data.EReal.Basic
import Mathlib.Tactic.FieldSimp
import Mathlib.Tactic.Linarith
import Mathlib.Tactic.Positivity
import Mathlib.Tactic.Ring

/-!
# Binary floating-point numbers

A number of a binary format is a sign and a magnitude: the exponent above the fraction, read as one
natural number.  Magnitudes are ordered as the numbers are, every finite one is a multiple of the
smallest (`scaled`), and infinity and the NaNs are above the finite ones.

`nearest` rounds a multiple of `2 ^ (-k)` of the smallest number to a magnitude, to the nearest one
and to the even one of two.  A magnitude that is hit is not rounded (`nearest_of_scaled`), and what
has at most one bit more than the fraction is hit by some (`exists_scaled`).  So a conversion to a
wider format and back changes nothing but NaNs (**`convert_convert_eq`**), the fused operation is
exact wherever its result is a number of the format (**`value_fma`**), and an integer comes back
exactly if its bits fit (**`toInt_ofInt_iff`**).
-/

namespace BinaryFloat

/-! ## Magnitudes -/

/-- The magnitude as a multiple of the smallest one, for `p` bits of fraction. -/
def scaled (p m : ℕ) : ℕ := if m < 2 ^ p then m else (2 ^ p + m % 2 ^ p) * 2 ^ (m / 2 ^ p - 1)

/-- The magnitude next to `n / 2 ^ k`, an even one if there are two.  Rounding up to the next
exponent is carried by the sum. -/
def nearest (p n k : ℕ) : ℕ :=
  let e := max k (n.log2 - p)
  let q := n / 2 ^ e
  let r := n % 2 ^ e
  let up := 2 ^ e < 2 * r ∨ 2 * r = 2 ^ e ∧ q % 2 = 1
  (e - k) * 2 ^ p + if up then q + 1 else q

variable {p k m n q e : ℕ}

lemma scaled_of_lt (h : m < 2 ^ p) : scaled p m = m := if_pos h

/-- The exponent and the bits below it. -/
lemma scaled_add (hlo : 2 ^ p ≤ q) (hhi : q < 2 ^ (p + 1)) (e : ℕ) :
    scaled p (e * 2 ^ p + q) = q * 2 ^ e := by
  obtain ⟨f, rfl⟩ := Nat.exists_eq_add_of_le hlo
  have hf : f < 2 ^ p := by
    rw [Nat.pow_succ] at hhi
    omega
  have hsum : e * 2 ^ p + (2 ^ p + f) = f + 2 ^ p * (e + 1) := by ring
  have hdiv : (f + 2 ^ p * (e + 1)) / 2 ^ p = e + 1 := by
    rw [Nat.add_mul_div_left _ _ (Nat.two_pow_pos p), Nat.div_eq_of_lt hf, Nat.zero_add]
  have hmod : (f + 2 ^ p * (e + 1)) % 2 ^ p = f := by
    rw [Nat.add_mul_mod_self_left, Nat.mod_eq_of_lt hf]
  have hge : ¬ f + 2 ^ p * (e + 1) < 2 ^ p := by
    have hpos : 2 ^ p ≤ 2 ^ p * (e + 1) := Nat.le_mul_of_pos_right _ (Nat.succ_pos e)
    omega
  rw [hsum, scaled, if_neg hge, hdiv, hmod, Nat.add_sub_cancel]

/-- Every magnitude with an exponent is of that form. -/
lemma exists_eq_add (h : 2 ^ p ≤ m) : ∃ e q, 2 ^ p ≤ q ∧ q < 2 ^ (p + 1) ∧ m = e * 2 ^ p + q := by
  have hpos := Nat.two_pow_pos p
  have hdiv : 1 ≤ m / 2 ^ p := (Nat.one_le_div_iff hpos).mpr h
  have hmod := Nat.mod_lt m hpos
  refine ⟨m / 2 ^ p - 1, 2 ^ p + m % 2 ^ p, Nat.le_add_right _ _, ?_, ?_⟩
  · rw [Nat.pow_succ]
    omega
  · have hsplit := Nat.div_add_mod m (2 ^ p)
    obtain ⟨d, hd⟩ := Nat.exists_eq_add_of_le' hdiv
    rw [hd] at hsplit ⊢
    rw [Nat.add_sub_cancel]
    linarith

/-- Bits that are not dropped are kept. -/
lemma nearest_of_dvd (hq : q < 2 ^ (p + 1)) (h : 2 ^ p ≤ q ∨ e = 0) :
    nearest p (q * 2 ^ (e + k)) k = e * 2 ^ p + q := by
  have hlog : max k ((q * 2 ^ (e + k)).log2 - p) = e + k := by
    rcases Nat.eq_zero_or_pos q with rfl | hpos
    · rcases h with h | rfl
      · exact absurd (Nat.two_pow_pos p) (by omega)
      · simp
    · have hne : q * 2 ^ (e + k) ≠ 0 := (Nat.mul_pos hpos (Nat.two_pow_pos _)).ne'
      have hupper : (q * 2 ^ (e + k)).log2 < p + 1 + (e + k) := by
        rw [Nat.log2_lt hne, Nat.pow_add 2 (p + 1)]
        exact Nat.mul_lt_mul_of_pos_right hq (Nat.two_pow_pos _)
      rcases h with h | rfl
      · have hlower : p + (e + k) ≤ (q * 2 ^ (e + k)).log2 := by
          rw [Nat.le_log2 hne, Nat.pow_add 2 p]
          exact Nat.mul_le_mul_right _ h
        omega
      · omega
  have hdiv : q * 2 ^ (e + k) / 2 ^ (e + k) = q := Nat.mul_div_cancel _ (Nat.two_pow_pos _)
  have hmod : q * 2 ^ (e + k) % 2 ^ (e + k) = 0 := Nat.mul_mod_left _ _
  have hup : ¬ (2 ^ (e + k) < 2 * 0 ∨ 2 * 0 = 2 ^ (e + k) ∧ q % 2 = 1) := by
    have hpos := Nat.two_pow_pos (e + k)
    omega
  simp only [nearest, hlog, hdiv, hmod, if_neg hup, Nat.add_sub_cancel]

/-- **A magnitude that is hit is not rounded.** -/
lemma nearest_of_scaled (h : scaled p m * 2 ^ k = n) : nearest p n k = m := by
  by_cases hm : m < 2 ^ p
  · rw [← h, scaled_of_lt hm]
    have hlt : m < 2 ^ (p + 1) := lt_trans hm (Nat.pow_lt_pow_right (by omega) (Nat.lt_succ_self p))
    have hexact := @nearest_of_dvd p k m 0 hlt (Or.inr rfl)
    rwa [Nat.zero_add, Nat.zero_mul, Nat.zero_add] at hexact
  · obtain ⟨e, q, hlo, hhi, rfl⟩ := exists_eq_add (Nat.le_of_not_lt hm)
    rw [← h, scaled_add hlo hhi, Nat.mul_assoc, ← Nat.pow_add]
    exact nearest_of_dvd hhi (Or.inl hlo)

/-- What has at most one bit more than the fraction is a magnitude, wherever the bits stand. -/
lemma exists_scaled (hq : q < 2 ^ (p + 1)) (e : ℕ) : ∃ m, scaled p m = q * 2 ^ e := by
  induction e generalizing q with
  | zero =>
      by_cases h : q < 2 ^ p
      · exact ⟨q, by rw [scaled_of_lt h, Nat.pow_zero, Nat.mul_one]⟩
      · exact ⟨0 * 2 ^ p + q, scaled_add (Nat.le_of_not_lt h) hq 0⟩
  | succ e ih =>
      by_cases h : q < 2 ^ p
      · have hdouble : 2 * q < 2 ^ (p + 1) := by
          rw [Nat.pow_succ]
          omega
        obtain ⟨m, hm⟩ := ih hdouble
        exact ⟨m, by rw [hm, Nat.pow_succ]; ring⟩
      · exact ⟨(e + 1) * 2 ^ p + q, scaled_add (Nat.le_of_not_lt h) hq (e + 1)⟩

/-- The bits of a magnitude. -/
lemma exists_scaled_eq (p m : ℕ) : ∃ q e, q < 2 ^ (p + 1) ∧ scaled p m = q * 2 ^ e := by
  by_cases hm : m < 2 ^ p
  · have hlt : m < 2 ^ (p + 1) := lt_trans hm (Nat.pow_lt_pow_right (by omega) (Nat.lt_succ_self p))
    exact ⟨m, 0, hlt, by rw [scaled_of_lt hm, Nat.pow_zero, Nat.mul_one]⟩
  · obtain ⟨e, q, hlo, hhi, rfl⟩ := exists_eq_add (Nat.le_of_not_lt hm)
    exact ⟨q, e, hhi, scaled_add hlo hhi e⟩

lemma scaled_eq_zero_iff : scaled p m = 0 ↔ m = 0 := by
  by_cases hm : m < 2 ^ p
  · rw [scaled_of_lt hm]
  · obtain ⟨e, q, hlo, hhi, rfl⟩ := exists_eq_add (Nat.le_of_not_lt hm)
    have hpos := Nat.two_pow_pos p
    rw [scaled_add hlo hhi, Nat.mul_eq_zero]
    have hne : (2 : ℕ) ^ e ≠ 0 := (Nat.two_pow_pos e).ne'
    omega

/-- Below an exponent. -/
lemma scaled_lt (h : m < (e + 1) * 2 ^ p) : scaled p m < 2 ^ (p + e) := by
  by_cases hm : m < 2 ^ p
  · rw [scaled_of_lt hm]
    exact lt_of_lt_of_le hm (Nat.pow_le_pow_right (by omega) (Nat.le_add_right p e))
  · obtain ⟨d, q, hlo, hhi, rfl⟩ := exists_eq_add (Nat.le_of_not_lt hm)
    have hd : d + 1 ≤ e := by
      by_contra hde
      have hle : e * 2 ^ p ≤ d * 2 ^ p := Nat.mul_le_mul_right _ (by omega)
      rw [Nat.succ_mul] at h
      omega
    rw [scaled_add hlo hhi]
    calc q * 2 ^ d < 2 ^ (p + 1) * 2 ^ d := Nat.mul_lt_mul_of_pos_right hhi (Nat.two_pow_pos d)
      _ = 2 ^ (p + (d + 1)) := by rw [← Nat.pow_add]; congr 1; omega
      _ ≤ 2 ^ (p + e) := Nat.pow_le_pow_right (by omega) (by omega)

/-- From an exponent on. -/
lemma le_scaled (h : (e + 1) * 2 ^ p ≤ m) : 2 ^ (p + e) ≤ scaled p m := by
  have hpos := Nat.two_pow_pos p
  have hge : 2 ^ p ≤ m := le_trans (Nat.le_mul_of_pos_left _ (Nat.succ_pos e)) h
  obtain ⟨d, q, hlo, hhi, rfl⟩ := exists_eq_add hge
  have hed : e ≤ d := by
    by_contra hlt
    have hle : (d + 2) * 2 ^ p ≤ (e + 1) * 2 ^ p := Nat.mul_le_mul_right _ (by omega)
    have hq : (d + 2) * 2 ^ p = d * 2 ^ p + 2 ^ (p + 1) := by ring
    omega
  rw [scaled_add hlo hhi]
  calc 2 ^ (p + e) ≤ 2 ^ (p + d) := Nat.pow_le_pow_right (by omega) (by omega)
    _ = 2 ^ p * 2 ^ d := Nat.pow_add ..
    _ ≤ q * 2 ^ d := Nat.mul_le_mul_right _ hlo

/-- **Magnitudes are ordered as the numbers are.** -/
lemma scaled_strictMono (p : ℕ) : StrictMono (scaled p) := by
  intro m n hmn
  by_cases hn : n < 2 ^ p
  · rwa [scaled_of_lt hn, scaled_of_lt (hmn.trans hn)]
  · obtain ⟨e', q', hlo', hhi', rfl⟩ := exists_eq_add (Nat.le_of_not_lt hn)
    by_cases hm : m < 2 ^ p
    · have hbound := @le_scaled p (e' * 2 ^ p + q') 0 (by omega)
      rw [scaled_of_lt hm]
      exact lt_of_lt_of_le hm hbound
    · obtain ⟨e, q, hlo, hhi, rfl⟩ := exists_eq_add (Nat.le_of_not_lt hm)
      rw [scaled_add hlo hhi, scaled_add hlo' hhi']
      rcases lt_trichotomy e e' with hlt | rfl | hgt
      · calc q * 2 ^ e < 2 ^ (p + 1) * 2 ^ e := Nat.mul_lt_mul_of_pos_right hhi (Nat.two_pow_pos e)
          _ = 2 ^ p * 2 ^ (e + 1) := by ring
          _ ≤ q' * 2 ^ e' := Nat.mul_le_mul hlo' (Nat.pow_le_pow_right (by omega) hlt)
      · exact Nat.mul_lt_mul_of_pos_right (by omega) (Nat.two_pow_pos e)
      · have hstep : (e' + 1) * 2 ^ p ≤ e * 2 ^ p := Nat.mul_le_mul_right _ hgt
        rw [Nat.succ_mul] at hstep
        rw [Nat.pow_succ] at hhi'
        omega

/-- What is large enough is rounded to a multiple of a power of two. -/
lemma exists_scaled_nearest (h : 2 ^ (p + k) ≤ n) :
    ∃ q e, k ≤ e ∧ q ≤ 2 ^ (p + 1) ∧ scaled p (nearest p n 0) = q * 2 ^ e := by
  have hne : n ≠ 0 := (lt_of_lt_of_le (Nat.two_pow_pos _) h).ne'
  have hlog : p + k ≤ n.log2 := (Nat.le_log2 hne).mpr h
  set e := n.log2 - p with he
  have hsum : n.log2 = p + e := by omega
  have hlower : 2 ^ p ≤ n / 2 ^ e := by
    rw [Nat.le_div_iff_mul_le (Nat.two_pow_pos e), ← Nat.pow_add, ← hsum]
    exact Nat.log2_self_le hne
  have hupper : n / 2 ^ e < 2 ^ (p + 1) := by
    rw [Nat.div_lt_iff_lt_mul (Nat.two_pow_pos e), ← Nat.pow_add,
      show p + 1 + e = n.log2 + 1 by omega]
    exact Nat.lt_log2_self
  have hnear : nearest p n 0 = e * 2 ^ p + n / 2 ^ e
      ∨ nearest p n 0 = e * 2 ^ p + (n / 2 ^ e + 1) := by
    simp only [nearest, ← he, Nat.zero_max, Nat.sub_zero]
    split_ifs
    · exact Or.inr rfl
    · exact Or.inl rfl
  rcases hnear with hnear | hnear
  · exact ⟨n / 2 ^ e, e, by omega, hupper.le, by rw [hnear, scaled_add hlower hupper]⟩
  · refine ⟨n / 2 ^ e + 1, e, by omega, hupper, ?_⟩
    rw [hnear]
    rcases Nat.lt_or_ge (n / 2 ^ e + 1) (2 ^ (p + 1)) with hlt | hge
    · exact scaled_add (by omega) hlt e
    · -- rounding up is carried to the exponent
      have hcarry : n / 2 ^ e + 1 = 2 ^ (p + 1) := by omega
      have hnext : e * 2 ^ p + 2 ^ (p + 1) = (e + 1) * 2 ^ p + 2 ^ p := by ring
      rw [hcarry, hnext, scaled_add le_rfl (Nat.pow_lt_pow_right (by omega) (Nat.lt_succ_self p))]
      ring

/-- The magnitude is below the exponent that comes after the number. -/
lemma nearest_le (h : n < 2 ^ (p + k + 1)) : nearest p n 0 ≤ (k + 2) * 2 ^ p := by
  rcases Nat.eq_zero_or_pos n with rfl | hpos
  · simp [nearest]
  have hlog : n.log2 < p + k + 1 := (Nat.log2_lt hpos.ne').mpr h
  set e := n.log2 - p with he
  have hle : e * 2 ^ p ≤ k * 2 ^ p := Nat.mul_le_mul_right _ (by omega)
  have hupper : n / 2 ^ e < 2 ^ (p + 1) := by
    rw [Nat.div_lt_iff_lt_mul (Nat.two_pow_pos e), ← Nat.pow_add]
    exact lt_of_lt_of_le Nat.lt_log2_self (Nat.pow_le_pow_right (by omega) (by omega))
  have hbound : (k + 2) * 2 ^ p = k * 2 ^ p + 2 ^ (p + 1) := by ring
  simp only [nearest, ← he, Nat.zero_max, Nat.sub_zero]
  split_ifs <;> omega

/-! ## Formats -/

structure Format where
  expBits : ℕ
  fracBits : ℕ

/-- A sign and a magnitude. -/
structure Datum where
  neg : Bool
  mag : ℕ
  deriving DecidableEq, Repr

/-- Where a number stands among the others.  Both zeros have the same place. -/
def Datum.place (d : Datum) : ℤ := if d.neg then -d.mag else d.mag

/-- The number that a word holds, its sign in the highest bit. -/
def unpack {w : ℕ} (x : BitVec w) : Datum := ⟨x.msb, x.toNat % 2 ^ (w - 1)⟩

def pack (w : ℕ) (d : Datum) : BitVec w :=
  BitVec.ofNat w (d.mag + if d.neg then 2 ^ (w - 1) else 0)

section Words

variable {w : ℕ}

lemma two_pow_pred (hw : 0 < w) : 2 ^ w = 2 * 2 ^ (w - 1) := by
  obtain ⟨v, rfl⟩ := Nat.exists_eq_add_of_le' hw
  rw [Nat.add_sub_cancel, Nat.pow_succ, Nat.mul_comm]

lemma pack_unpack (hw : 0 < w) (x : BitVec w) : pack w (unpack x) = x := by
  have hlt := x.isLt
  rw [two_pow_pred hw] at hlt
  apply BitVec.eq_of_toNat_eq
  rw [pack, unpack, BitVec.toNat_ofNat, BitVec.msb_eq_decide, two_pow_pred hw]
  dsimp only
  by_cases h : 2 ^ (w - 1) ≤ x.toNat
  · have hmag : x.toNat % 2 ^ (w - 1) = x.toNat - 2 ^ (w - 1) := by
      rw [Nat.mod_eq_sub_mod h, Nat.mod_eq_of_lt (by omega)]
    rw [if_pos (decide_eq_true h), hmag, Nat.sub_add_cancel h, Nat.mod_eq_of_lt hlt]
  · have hmag : x.toNat % 2 ^ (w - 1) = x.toNat := Nat.mod_eq_of_lt (Nat.lt_of_not_le h)
    rw [if_neg (by simpa using h), hmag, Nat.add_zero, Nat.mod_eq_of_lt hlt]

lemma unpack_pack (hw : 0 < w) {d : Datum} (hd : d.mag < 2 ^ (w - 1)) : unpack (pack w d) = d := by
  obtain ⟨neg, mag⟩ := d
  dsimp only at hd
  have hnat : (pack w ⟨neg, mag⟩).toNat = mag + if neg then 2 ^ (w - 1) else 0 := by
    rw [pack, BitVec.toNat_ofNat, two_pow_pred hw]
    refine Nat.mod_eq_of_lt ?_
    dsimp only
    split_ifs
    · omega
    · omega
  rw [unpack, BitVec.msb_eq_decide, hnat]
  cases neg with
  | true => simp [Nat.mod_eq_of_lt hd]
  | false => simp [hd, Nat.mod_eq_of_lt hd]

end Words

namespace Format

variable (F G : Format)

/-- The magnitude of infinity.  The NaNs are above it. -/
def inf : ℕ := (2 ^ F.expBits - 1) * 2 ^ F.fracBits

/-- The smallest number of the format is `2 ^ (-unit)`. -/
def unit : ℕ := 2 ^ (F.expBits - 1) - 2 + F.fracBits

/-- The quiet NaN without a payload. -/
def quiet : ℕ := F.inf + 2 ^ (F.fracBits - 1)

/-- A finite number as a multiple of the smallest one. -/
def signed (d : Datum) : ℤ := if d.neg then -scaled F.fracBits d.mag else scaled F.fracBits d.mag

/-- **The value** of a finite number. -/
def value (d : Datum) : ℚ := F.signed d / 2 ^ F.unit

/-- The numbers that need not be rounded. -/
def Represents (x : ℚ) : Prop := ∃ d, d.mag < F.inf ∧ F.value d = x

/-- The number next to `n / 2 ^ k` times the smallest one.  What is too large becomes infinity. -/
def round (neg : Bool) (n k : ℕ) : Datum := ⟨neg, min F.inf (nearest F.fracBits n k)⟩

/-! ### Conversion -/

/-- A NaN becomes quiet and keeps the upper bits of its fraction. -/
def convertNaN (m : ℕ) : ℕ :=
  G.inf + (2 ^ (G.fracBits - 1)
    ||| m % 2 ^ F.fracBits * 2 ^ (G.fracBits - F.fracBits) / 2 ^ (F.fracBits - G.fracBits))

/-- **The conversion** from one format to another. -/
def convert (d : Datum) : Datum :=
  if F.inf < d.mag then ⟨d.neg, F.convertNaN G d.mag⟩
  else if d.mag = F.inf then ⟨d.neg, G.inf⟩
  else G.round d.neg (scaled F.fracBits d.mag * 2 ^ (G.unit - F.unit)) (F.unit - G.unit)

/-- Everything of the one format is in the other. -/
structure Extends : Prop where
  expBits : 0 < G.expBits
  fracBits : F.fracBits ≤ G.fracBits
  unit : F.unit ≤ G.unit
  range : F.fracBits + 2 ^ F.expBits + (G.unit - F.unit) ≤ G.fracBits + 2 ^ G.expBits

variable {F G} {d : Datum} {neg : Bool}

lemma round_of_scaled {n k m : ℕ} (hm : m < F.inf) (h : scaled F.fracBits m * 2 ^ k = n) :
    F.round neg n k = ⟨neg, m⟩ := by
  rw [round, nearest_of_scaled h, min_eq_right hm.le]

/-- A finite number of the narrower format is one of the wider. -/
lemma convert_finite (h : F.Extends G) (hd : d.mag < F.inf) :
    ∃ m < G.inf, F.convert G d = ⟨d.neg, m⟩
      ∧ scaled G.fracBits m = scaled F.fracBits d.mag * 2 ^ (G.unit - F.unit) := by
  obtain ⟨q, e, hq, hscaled⟩ := exists_scaled_eq F.fracBits d.mag
  have hwide : q < 2 ^ (G.fracBits + 1) :=
    lt_of_lt_of_le hq (Nat.pow_le_pow_right (by omega) (Nat.succ_le_succ h.fracBits))
  obtain ⟨m, hm⟩ := exists_scaled hwide (e + (G.unit - F.unit))
  rw [Nat.pow_add, ← Nat.mul_assoc, ← hscaled] at hm
  have hlt : m < G.inf := by
    by_contra hge
    have hF : 0 < 2 ^ F.expBits - 1 := Nat.pos_of_mul_pos_right (lt_of_le_of_lt (Nat.zero_le _) hd)
    have hG : 2 ≤ 2 ^ G.expBits := Nat.pow_le_pow_right (by omega : 0 < 2) h.expBits
    have hbelow : scaled F.fracBits d.mag < 2 ^ (F.fracBits + (2 ^ F.expBits - 2)) := by
      refine scaled_lt ?_
      rwa [show 2 ^ F.expBits - 2 + 1 = 2 ^ F.expBits - 1 by omega]
    have habove : 2 ^ (G.fracBits + (2 ^ G.expBits - 2)) ≤ scaled G.fracBits m := by
      refine le_scaled ?_
      rw [show 2 ^ G.expBits - 2 + 1 = 2 ^ G.expBits - 1 by omega]
      exact Nat.le_of_not_lt hge
    have hprod : scaled F.fracBits d.mag * 2 ^ (G.unit - F.unit)
        < 2 ^ (F.fracBits + (2 ^ F.expBits - 2) + (G.unit - F.unit)) := by
      rw [Nat.pow_add 2 (F.fracBits + _)]
      exact Nat.mul_lt_mul_of_pos_right hbelow (Nat.two_pow_pos _)
    have hexp := (Nat.pow_lt_pow_iff_right (by omega : 1 < 2)).mp
      (lt_of_le_of_lt (habove.trans_eq hm) hprod)
    have hrange := h.range
    omega
  refine ⟨m, hlt, ?_, hm⟩
  have hunit := h.unit
  have hk : F.unit - G.unit = 0 := by omega
  rw [convert, if_neg hd.not_gt, if_neg hd.ne, hk]
  exact round_of_scaled hlt (by rw [Nat.pow_zero, Nat.mul_one, hm])

/-- **To a wider format and back**, whatever is a number or infinity. -/
theorem convert_convert (h : F.Extends G) (hd : d.mag ≤ F.inf) :
    G.convert F (F.convert G d) = d := by
  rcases hd.lt_or_eq with hlt | heq
  · obtain ⟨m, hm, hconv, hscaled⟩ := convert_finite h hlt
    have hunit := h.unit
    have hk : F.unit - G.unit = 0 := by omega
    rw [hconv, convert, if_neg (by simpa using hm.le), if_neg (by simpa using hm.ne), hk]
    exact round_of_scaled hlt (by rw [Nat.pow_zero, Nat.mul_one, hscaled])
  · have hinf : F.convert G d = ⟨d.neg, G.inf⟩ := by
      rw [convert, if_neg heq.not_gt, if_pos heq]
    rw [hinf, convert, if_neg (lt_irrefl _), if_pos rfl, ← heq]

/-- A NaN stays one. -/
lemma inf_lt_convertNaN (F G : Format) (m : ℕ) : G.inf < F.convertNaN G m := by
  have hpos := Nat.two_pow_pos (G.fracBits - 1)
  exact Nat.lt_add_of_pos_right (lt_of_lt_of_le hpos Nat.left_le_or)

lemma convertNaN_lt (F : Format) (hG : 0 < G.fracBits) (m : ℕ) :
    F.convertNaN G m < G.inf + 2 ^ G.fracBits := by
  have hquiet : 2 ^ (G.fracBits - 1) < 2 ^ G.fracBits :=
    Nat.pow_lt_pow_right (by omega) (by omega)
  have hkept : m % 2 ^ F.fracBits * 2 ^ (G.fracBits - F.fracBits) / 2 ^ (F.fracBits - G.fracBits)
      < 2 ^ G.fracBits := by
    rw [Nat.div_lt_iff_lt_mul (Nat.two_pow_pos _)]
    calc m % 2 ^ F.fracBits * 2 ^ (G.fracBits - F.fracBits)
        < 2 ^ F.fracBits * 2 ^ (G.fracBits - F.fracBits) :=
          Nat.mul_lt_mul_of_pos_right (Nat.mod_lt _ (Nat.two_pow_pos _)) (Nat.two_pow_pos _)
      _ = 2 ^ G.fracBits * 2 ^ (F.fracBits - G.fracBits) := by
          rw [← Nat.pow_add, ← Nat.pow_add]
          congr 1
          omega
  exact Nat.add_lt_add_left (Nat.or_lt_two_pow hquiet hkept) _

/-! ### NaNs -/

/-- The fraction of a NaN once it is quiet. -/
def quietFrac (F : Format) (m : ℕ) : ℕ := 2 ^ (F.fracBits - 1) ||| m % 2 ^ F.fracBits

/-- **A NaN is made quiet**, and all else is left as it is. -/
def quieten (F : Format) (d : Datum) : Datum :=
  if F.inf < d.mag then ⟨d.neg, F.inf + F.quietFrac d.mag⟩ else d

lemma quietFrac_lt (hF : 0 < F.fracBits) (m : ℕ) : F.quietFrac m < 2 ^ F.fracBits :=
  Nat.or_lt_two_pow (Nat.pow_lt_pow_right (by omega) (by omega)) (Nat.mod_lt _ (Nat.two_pow_pos _))

lemma inf_add_mod (hn : n < 2 ^ F.fracBits) : (F.inf + n) % 2 ^ F.fracBits = n := by
  rw [inf, Nat.add_comm, Nat.add_mul_mod_self_right, Nat.mod_eq_of_lt hn]

lemma quietFrac_quietFrac (hF : 0 < F.fracBits) (m : ℕ) :
    F.quietFrac (F.inf + F.quietFrac m) = F.quietFrac m := by
  rw [quietFrac, inf_add_mod (quietFrac_lt hF m), quietFrac, ← Nat.or_assoc, Nat.or_self]

/-- The wider NaN has the fraction of the quiet one in its upper bits. -/
lemma convertNaN_eq (h : F.Extends G) (hF : 0 < F.fracBits) (m : ℕ) :
    F.convertNaN G m = G.inf + F.quietFrac m * 2 ^ (G.fracBits - F.fracBits) := by
  have hfrac := h.fracBits
  have hnone : F.fracBits - G.fracBits = 0 := by omega
  have hquiet : 2 ^ (G.fracBits - 1) = 2 ^ (F.fracBits - 1) * 2 ^ (G.fracBits - F.fracBits) := by
    rw [← Nat.pow_add]
    congr 1
    omega
  rw [convertNaN, hnone, Nat.pow_zero, Nat.div_one, hquiet, quietFrac, ← Nat.shiftLeft_eq,
    ← Nat.shiftLeft_eq, ← Nat.shiftLeft_eq, Nat.shiftLeft_or_distrib]

/-- **To a wider format and back**: a NaN comes back quiet, and everything else as it was. -/
theorem convert_convert_eq (h : F.Extends G) (hF : 0 < F.fracBits) (d : Datum) :
    G.convert F (F.convert G d) = F.quieten d := by
  by_cases hnan : F.inf < d.mag
  · have hfrac := h.fracBits
    have hnone : F.fracBits - G.fracBits = 0 := by omega
    have hwide : F.quietFrac d.mag * 2 ^ (G.fracBits - F.fracBits) < 2 ^ G.fracBits := by
      calc F.quietFrac d.mag * 2 ^ (G.fracBits - F.fracBits)
          < 2 ^ F.fracBits * 2 ^ (G.fracBits - F.fracBits) :=
            Nat.mul_lt_mul_of_pos_right (quietFrac_lt hF _) (Nat.two_pow_pos _)
        _ = 2 ^ G.fracBits := by rw [← Nat.pow_add, Nat.add_sub_of_le hfrac]
    have hback : G.convertNaN F (F.convertNaN G d.mag) = F.inf + F.quietFrac d.mag := by
      rw [convertNaN_eq h hF, convertNaN, inf_add_mod hwide, hnone, Nat.pow_zero, Nat.mul_one,
        Nat.mul_div_cancel _ (Nat.two_pow_pos _), quietFrac, ← Nat.or_assoc, Nat.or_self]
    have hconv : F.convert G d = ⟨d.neg, F.convertNaN G d.mag⟩ := if_pos hnan
    rw [hconv, convert, if_pos (inf_lt_convertNaN F G d.mag), hback, quieten, if_pos hnan]
  · rw [convert_convert h (Nat.le_of_not_lt hnan), quieten, if_neg hnan]

/-- A NaN that was made quiet first is converted alike. -/
lemma convert_quieten (h : F.Extends G) (hF : 0 < F.fracBits) (d : Datum) :
    F.convert G (F.quieten d) = F.convert G d := by
  unfold quieten
  split_ifs with hnan
  · have hpos : 0 < F.quietFrac d.mag :=
      lt_of_lt_of_le (Nat.two_pow_pos (F.fracBits - 1)) Nat.left_le_or
    have hquiet : F.inf < F.inf + F.quietFrac d.mag := Nat.lt_add_of_pos_right hpos
    rw [convert, if_pos hquiet, convert, if_pos hnan, convertNaN_eq h hF, convertNaN_eq h hF,
      quietFrac_quietFrac hF]
  · rfl

/-! ### The fused operation -/

/-- **Multiplying and adding** with one rounding. -/
def fma (F : Format) (x y z : Datum) : Datum :=
  if F.inf < x.mag ∨ F.inf < y.mag ∨ F.inf < z.mag then ⟨false, F.quiet⟩
  else if x.mag = F.inf ∧ y.mag = 0 ∨ x.mag = 0 ∧ y.mag = F.inf then ⟨false, F.quiet⟩
  else if x.mag = F.inf ∨ y.mag = F.inf then
    if z.mag = F.inf ∧ z.neg ≠ (x.neg ^^ y.neg) then ⟨false, F.quiet⟩ else ⟨x.neg ^^ y.neg, F.inf⟩
  else if z.mag = F.inf then z
  else
    let sum := F.signed x * F.signed y + F.signed z * 2 ^ F.unit
    -- an exact zero is negative only if both parts are
    if sum = 0 then ⟨(x.neg ^^ y.neg) && z.neg, 0⟩ else F.round (decide (sum < 0)) sum.natAbs F.unit

variable {x y z : Datum}

lemma signed_of_natAbs {n : ℤ} {m k : ℕ} (h : scaled F.fracBits m * 2 ^ k = n.natAbs) :
    F.signed ⟨decide (n < 0), m⟩ * 2 ^ k = n := by
  have hcast : (scaled F.fracBits m : ℤ) * 2 ^ k = n.natAbs := by exact_mod_cast h
  by_cases hn : n < 0
  · rw [signed, if_pos (decide_eq_true hn), Int.neg_mul, hcast]
    omega
  · rw [signed, if_neg (by simpa using hn), hcast]
    omega

lemma natAbs_signed (d : Datum) : (F.signed d).natAbs = scaled F.fracBits d.mag := by
  unfold signed
  split_ifs <;> simp

/-- What is multiplied and added, as a multiple of the square of the smallest number. -/
lemma value_mul_add (x y z : Datum) :
    F.value x * F.value y + F.value z
      = ((F.signed x * F.signed y + F.signed z * 2 ^ F.unit : ℤ) : ℚ) / (2 ^ F.unit * 2 ^ F.unit) := by
  have hne : (2 : ℚ) ^ F.unit ≠ 0 := by positivity
  simp only [value]
  push_cast
  field_simp

/-- Nothing finite comes of an addend that is infinite or a NaN. -/
lemma fma_mag_of_inf_le (hz : F.inf ≤ z.mag) :
    (F.fma x y z).mag = F.inf ∨ (F.fma x y z).mag = F.quiet := by
  unfold fma
  split_ifs with hnan hinvalid hinf hsigns hzinf
  · exact Or.inr rfl
  · exact Or.inr rfl
  · exact Or.inr rfl
  · exact Or.inl rfl
  · exact Or.inl hzinf
  · omega

/-- **The fused operation is exact** where its result is a number of the format. -/
theorem value_fma (hx : x.mag < F.inf) (hy : y.mag < F.inf) (hz : z.mag < F.inf)
    (h : F.Represents (F.value x * F.value y + F.value z)) :
    (F.fma x y z).mag < F.inf ∧ F.value (F.fma x y z) = F.value x * F.value y + F.value z := by
  have hpow : (2 : ℚ) ^ F.unit ≠ 0 := by positivity
  obtain ⟨d, hd, hvalue⟩ := h
  rw [value_mul_add] at hvalue ⊢
  have hnan : ¬ (F.inf < x.mag ∨ F.inf < y.mag ∨ F.inf < z.mag) := by omega
  have hinvalid : ¬ (x.mag = F.inf ∧ y.mag = 0 ∨ x.mag = 0 ∧ y.mag = F.inf) := by omega
  have hinf : ¬ (x.mag = F.inf ∨ y.mag = F.inf) := by omega
  simp only [fma, if_neg hnan, if_neg hinvalid, if_neg hinf, if_neg hz.ne]
  set sum := F.signed x * F.signed y + F.signed z * 2 ^ F.unit
  -- the exact sum is a multiple of the smallest number
  have hmul : F.signed d * 2 ^ F.unit = sum := by
    rw [value, div_eq_div_iff hpow (by positivity)] at hvalue
    have hcast : (F.signed d : ℚ) * 2 ^ F.unit = (sum : ℤ) := by
      refine mul_right_cancel₀ hpow ?_
      rw [mul_assoc, hvalue]
    exact_mod_cast hcast
  by_cases hzero : sum = 0
  · rw [if_pos hzero, hzero]
    refine ⟨lt_of_le_of_lt (Nat.zero_le _) hd, ?_⟩
    have hnone : scaled F.fracBits 0 = 0 := scaled_eq_zero_iff.mpr rfl
    simp [value, signed, hnone]
  · have habs : scaled F.fracBits d.mag * 2 ^ F.unit = sum.natAbs := by
      rw [← hmul, Int.natAbs_mul, natAbs_signed]
      simp [Int.natAbs_pow]
    rw [if_neg hzero, round_of_scaled hd habs]
    refine ⟨hd, ?_⟩
    have hsigned : (F.signed ⟨decide (sum < 0), d.mag⟩ : ℚ) * 2 ^ F.unit = sum := by
      exact_mod_cast signed_of_natAbs habs
    rw [value, div_eq_div_iff hpow (by positivity), ← mul_assoc, hsigned]

variable {d' : Datum}

/-! ### Order -/

lemma signed_lt_signed_iff : F.signed d < F.signed d' ↔ d.place < d'.place := by
  have hmono := scaled_strictMono F.fracBits
  have hzero : scaled F.fracBits 0 = 0 := scaled_eq_zero_iff.mpr rfl
  obtain ⟨neg, m⟩ := d
  obtain ⟨neg', m'⟩ := d'
  have hlt : scaled F.fracBits m < scaled F.fracBits m' ↔ m < m' := hmono.lt_iff_lt
  have hgt : scaled F.fracBits m' < scaled F.fracBits m ↔ m' < m := hmono.lt_iff_lt
  have hm : scaled F.fracBits 0 < scaled F.fracBits m ↔ 0 < m := hmono.lt_iff_lt
  have hm' : scaled F.fracBits 0 < scaled F.fracBits m' ↔ 0 < m' := hmono.lt_iff_lt
  cases neg <;> cases neg' <;>
    simp only [signed, Datum.place, if_true, if_false, Bool.false_eq_true] <;> omega

lemma value_lt_value_iff : F.value d < F.value d' ↔ d.place < d'.place := by
  have hpos : (0 : ℚ) < 2 ^ F.unit := by positivity
  rw [value, value, div_lt_div_iff_of_pos_right hpos, Int.cast_lt, signed_lt_signed_iff]

/-- The number, or the infinity. -/
noncomputable def extended (F : Format) (d : Datum) : EReal :=
  if d.mag < F.inf then ((F.value d : ℝ) : EReal) else if d.neg then ⊥ else ⊤

/-- **The order of the numbers and the infinities** is that of the places. -/
theorem extended_lt_extended_iff (hF : 0 < F.inf) (hd : d.mag ≤ F.inf) (hd' : d'.mag ≤ F.inf) :
    F.extended d < F.extended d' ↔ d.place < d'.place := by
  unfold extended
  by_cases h : d.mag < F.inf
  · by_cases h' : d'.mag < F.inf
    · rw [if_pos h, if_pos h', EReal.coe_lt_coe_iff, Rat.cast_lt, value_lt_value_iff]
    · rw [if_pos h, if_neg h', Datum.place, Datum.place]
      cases d'.neg with
      | true =>
          simp only [if_true, not_lt_bot, false_iff]
          split_ifs <;> omega
      | false =>
          simp only [Bool.false_eq_true, if_false, EReal.coe_lt_top, true_iff]
          split_ifs <;> omega
  · by_cases h' : d'.mag < F.inf
    · rw [if_neg h, if_pos h', Datum.place, Datum.place]
      cases d.neg with
      | true =>
          simp only [if_true, EReal.bot_lt_coe, true_iff]
          split_ifs <;> omega
      | false =>
          simp only [Bool.false_eq_true, if_false, not_top_lt, false_iff]
          split_ifs <;> omega
    · rw [if_neg h, if_neg h', Datum.place, Datum.place]
      cases d.neg <;> cases d'.neg <;> simp <;> omega

/-- Two of them are the same exactly if they have the same place. -/
lemma extended_inj_iff (hF : 0 < F.inf) (hd : d.mag ≤ F.inf) (hd' : d'.mag ≤ F.inf) :
    F.extended d = F.extended d' ↔ d.place = d'.place := by
  rw [le_antisymm_iff, ← not_lt, ← not_lt, extended_lt_extended_iff hF hd' hd,
    extended_lt_extended_iff hF hd hd', not_lt, not_lt, ← le_antisymm_iff]

/-- A number is not changed by being widened. -/
lemma value_convert (h : F.Extends G) (hd : d.mag < F.inf) :
    (F.convert G d).mag < G.inf ∧ G.value (F.convert G d) = F.value d := by
  obtain ⟨m, hm, hconv, hscaled⟩ := convert_finite h hd
  rw [hconv]
  refine ⟨hm, ?_⟩
  have hpow : (2 : ℚ) ^ G.unit = 2 ^ (G.unit - F.unit) * 2 ^ F.unit := by
    rw [← pow_add, Nat.sub_add_cancel h.unit]
  have hsigned : (G.signed ⟨d.neg, m⟩ : ℚ) = F.signed d * 2 ^ (G.unit - F.unit) := by
    have hcast : (scaled G.fracBits m : ℚ) = scaled F.fracBits d.mag * 2 ^ (G.unit - F.unit) := by
      exact_mod_cast hscaled
    unfold signed
    cases d.neg with
    | true => simp [hcast]
    | false => simp [hcast]
  rw [value, value, hsigned, hpow]
  field_simp

/-- Neither is an infinity. -/
lemma extended_convert (h : F.Extends G) (hd : d.mag ≤ F.inf) :
    (F.convert G d).mag ≤ G.inf ∧ G.extended (F.convert G d) = F.extended d := by
  rcases hd.lt_or_eq with hlt | heq
  · obtain ⟨hmag, hvalue⟩ := value_convert h hlt
    exact ⟨hmag.le, by rw [extended, if_pos hmag, hvalue, extended, if_pos hlt]⟩
  · have hconv : F.convert G d = ⟨d.neg, G.inf⟩ := by
      rw [convert, if_neg heq.not_gt, if_pos heq]
    rw [hconv]
    refine ⟨le_rfl, ?_⟩
    unfold extended
    rw [if_neg (lt_irrefl _), if_neg heq.not_lt]

/-! ### Integers -/

/-- The number that an integer is rounded to. -/
def ofInt (F : Format) (i : ℤ) : Datum := F.round (decide (i < 0)) (i.natAbs * 2 ^ F.unit) 0

/-- The integer next to a number, the one away from zero if there are two. -/
def toInt (F : Format) (d : Datum) : ℤ :=
  let n := (scaled F.fracBits d.mag + 2 ^ (F.unit - 1)) / 2 ^ F.unit
  if d.neg then -n else n

/-- The integers with few enough bits between the first and the last. -/
def HoldsInt (F : Format) (i : ℤ) : Prop := ∃ q e, q < 2 ^ (F.fracBits + 1) ∧ i.natAbs = q * 2 ^ e

/-- A multiple of the unit is rounded to itself. -/
lemma rounded_multiple (hF : 0 < F.unit) (n : ℕ) :
    (n * 2 ^ F.unit + 2 ^ (F.unit - 1)) / 2 ^ F.unit = n := by
  have hhalf : 2 ^ (F.unit - 1) < 2 ^ F.unit := Nat.pow_lt_pow_right (by omega) (by omega)
  rw [Nat.add_comm, Nat.add_mul_div_right _ _ (Nat.two_pow_pos _), Nat.div_eq_of_lt hhalf,
    Nat.zero_add]

/-- An integer below a power of two is not rounded past it. -/
lemma natAbs_toInt_ofInt_le (hF : 0 < F.unit) {i : ℤ} {b : ℕ} (hb : F.fracBits + 1 ≤ b + F.unit)
    (hi : i.natAbs < 2 ^ b) : (F.toInt (F.ofInt i)).natAbs ≤ 2 ^ b := by
  obtain ⟨k, hk⟩ := Nat.exists_eq_add_of_le hb
  have hpow : 2 ^ (F.fracBits + k + 1) = 2 ^ b * 2 ^ F.unit := by
    rw [← Nat.pow_add, hk, Nat.add_right_comm]
  have hlt : i.natAbs * 2 ^ F.unit < 2 ^ (F.fracBits + k + 1) := by
    rw [hpow]
    exact Nat.mul_lt_mul_of_pos_right hi (Nat.two_pow_pos _)
  have hmag : (F.ofInt i).mag ≤ (k + 1) * 2 ^ F.fracBits + 2 ^ F.fracBits := by
    refine le_trans (min_le_right _ _) (le_trans (nearest_le hlt) (le_of_eq ?_))
    rw [← Nat.succ_mul]
  have hscaled : scaled F.fracBits (F.ofInt i).mag ≤ 2 ^ b * 2 ^ F.unit := by
    refine le_trans ((scaled_strictMono F.fracBits).monotone hmag) (le_of_eq ?_)
    rw [scaled_add le_rfl (Nat.pow_lt_pow_right (by omega) (by omega)), ← Nat.pow_add, ← hpow,
      Nat.add_assoc]
  have hround := Nat.div_le_div_right (c := 2 ^ F.unit)
    (Nat.add_le_add_right hscaled (2 ^ (F.unit - 1)))
  rw [rounded_multiple hF] at hround
  unfold toInt
  dsimp only
  split_ifs
  · rwa [Int.natAbs_neg, Int.natAbs_natCast]
  · rwa [Int.natAbs_natCast]

/-- **From an integer and back.**  It returns exactly if the format holds it. -/
theorem toInt_ofInt_iff (hF : 0 < F.unit) {i : ℤ} (hi : (F.ofInt i).mag < F.inf) :
    F.toInt (F.ofInt i) = i ↔ F.HoldsInt i := by
  have hmag : (F.ofInt i).mag = nearest F.fracBits (i.natAbs * 2 ^ F.unit) 0 := by
    change min F.inf _ < F.inf at hi
    exact min_eq_right (by omega)
  have hneg : (F.ofInt i).neg = decide (i < 0) := rfl
  have habs : F.toInt (F.ofInt i) = i
      ↔ (scaled F.fracBits (F.ofInt i).mag + 2 ^ (F.unit - 1)) / 2 ^ F.unit = i.natAbs := by
    simp only [toInt, hneg, decide_eq_true_iff]
    split_ifs <;> omega
  rw [habs, hmag]
  constructor
  · intro h
    by_cases hsmall : i.natAbs < 2 ^ (F.fracBits + 1)
    · exact ⟨i.natAbs, 0, hsmall, by rw [Nat.pow_zero, Nat.mul_one]⟩
    · have hlarge : 2 ^ (F.fracBits + F.unit) ≤ i.natAbs * 2 ^ F.unit := by
        rw [Nat.pow_add]
        refine Nat.mul_le_mul_right _ (le_trans ?_ (Nat.le_of_not_lt hsmall))
        exact Nat.pow_le_pow_right (by omega) (Nat.le_succ _)
      obtain ⟨q, e, he, hq, hscaled⟩ := exists_scaled_nearest hlarge
      have hsplit : q * 2 ^ e = q * 2 ^ (e - F.unit) * 2 ^ F.unit := by
        rw [Nat.mul_assoc, ← Nat.pow_add, Nat.sub_add_cancel he]
      rw [hscaled, hsplit, rounded_multiple hF] at h
      rcases hq.lt_or_eq with hlt | rfl
      · exact ⟨q, e - F.unit, hlt, h.symm⟩
      · refine ⟨2 ^ F.fracBits, e - F.unit + 1, Nat.pow_lt_pow_right (by omega) (by omega), ?_⟩
        rw [← h]
        ring
  · rintro ⟨q, e, hq, hn⟩
    obtain ⟨m, hm⟩ := exists_scaled hq (e + F.unit)
    rw [Nat.pow_add, ← Nat.mul_assoc, ← hn] at hm
    have hexact : nearest F.fracBits (i.natAbs * 2 ^ F.unit) 0 = m :=
      nearest_of_scaled (by rw [Nat.pow_zero, Nat.mul_one, hm])
    rw [hexact, hm, rounded_multiple hF]

end Format

end BinaryFloat
