import Mathlib.Tactic.Ring

/-!
# Fields of machine words

Three ways in which a program takes a field out of a word, as the field itself:
masking and shifting down (`and_mask_ushiftRight`), shifting up and arithmetically down again
(`shiftLeft_sshiftRight`, a sign extension), and reading one column of a word that was put
together from columns (`column`, `lastColumn`).  A field of one bit is also tested by shifting it
down and looking at the last bit (`ushiftRight_and_one_ne_zero`).
-/

namespace BitFields

variable {w v : ℕ}

/-- The mask of the field of `len` bits from bit `lo` on. -/
def mask (w lo len : ℕ) : BitVec w := (BitVec.allOnes len).setWidth w <<< lo

lemma getLsbD_mask {lo len i : ℕ} (hi : i < w) :
    (mask w lo len).getLsbD i = decide (lo ≤ i ∧ i < lo + len) := by
  rw [mask, BitVec.getLsbD_shiftLeft, BitVec.getLsbD_setWidth, BitVec.getLsbD_allOnes,
    decide_eq_true hi, decide_eq_true (show i - lo < w by omega)]
  by_cases hlo : i < lo
  · simp [hlo, show ¬ lo ≤ i by omega]
  · simp [hlo, show i - lo < len ↔ i < lo + len by omega, show lo ≤ i by omega]

/-- Masking a field and shifting it down extracts it. -/
lemma and_mask_ushiftRight (x : BitVec w) (lo len : ℕ) :
    (x &&& mask w lo len) >>> lo = (x.extractLsb' lo len).setWidth w := by
  apply BitVec.eq_of_getLsbD_eq
  intro i hi
  by_cases h : lo + i < w
  · simp [mask, h, hi]
    grind
  · simp [mask, h, BitVec.getLsbD_of_ge x (lo + i) (by omega)]

/-- Shifting a field down and masking it extracts it. -/
lemma ushiftRight_and_allOnes (x : BitVec w) (lo len : ℕ) :
    (x >>> lo) &&& (BitVec.allOnes len).setWidth w = (x.extractLsb' lo len).setWidth w := by
  apply BitVec.eq_of_getLsbD_eq
  intro i hi
  rw [BitVec.getLsbD_and, BitVec.getLsbD_ushiftRight, BitVec.getLsbD_setWidth,
    BitVec.getLsbD_setWidth, BitVec.getLsbD_allOnes, BitVec.getLsbD_extractLsb', Bool.and_comm,
    Bool.and_assoc]

/-- Shifting up by `n` and arithmetically down again sign-extends the bits that stay. -/
lemma shiftLeft_sshiftRight {m n : ℕ} (x : BitVec (m + n)) (hm : 0 < m) :
    (x <<< n).sshiftRight n = (x.setWidth m).signExtend (m + n) := by
  apply BitVec.eq_of_getElem_eq
  intro i hi
  rw [BitVec.getElem_sshiftRight, BitVec.getElem_signExtend]
  by_cases h : i < m
  · simp [h, show n + i < m + n by omega, BitVec.getLsbD_eq_getElem hi]
  · -- past the field, both sides repeat its highest bit
    have h1 : ¬ n + i < m + n := by omega
    have h2 : ¬ m + n - 1 < n := by omega
    have h3 : m + n - 1 - n = m - 1 := by omega
    have h4 : m - 1 < m := by omega
    have h5 : m - 1 < m + n := by omega
    simp [h, h1, BitVec.msb_eq_getLsbD_last, h2, h3, h4, BitVec.getLsbD_eq_getElem h5, hm]

/-- Sign extension loses nothing. -/
lemma eq_of_signExtend_eq {m n : ℕ} (h : m ≤ n) {x y : BitVec m}
    (hxy : x.signExtend n = y.signExtend n) : x = y := by
  apply BitVec.eq_of_toInt_eq
  rw [← BitVec.toInt_signExtend_of_le h, hxy, BitVec.toInt_signExtend_of_le h]

/-- The last column of a word. -/
lemma lastColumn (x : BitVec w) (y : BitVec v) : (x ++ y).extractLsb' 0 v = y := by
  rw [BitVec.extractLsb'_append_eq_of_add_le (by omega), BitVec.extractLsb'_eq_self]

/-- A column of a word stays where it is, counted from the columns after it. -/
lemma column (x : BitVec w) (y : BitVec v) (lo len : ℕ) :
    (x ++ y).extractLsb' (v + lo) len = x.extractLsb' lo len := by
  rw [BitVec.extractLsb'_append_eq_of_le (by omega), Nat.add_sub_cancel_left]

/-- A field of a field. -/
lemma extractLsb'_extractLsb' (x : BitVec w) (lo len lo' len' : ℕ) (h : lo' + len' ≤ len) :
    (x.extractLsb' lo len).extractLsb' lo' len' = x.extractLsb' (lo + lo') len' := by
  apply BitVec.eq_of_getLsbD_eq
  intro i hi
  rw [BitVec.getLsbD_extractLsb', BitVec.getLsbD_extractLsb', BitVec.getLsbD_extractLsb',
    Nat.add_assoc]
  simp [hi, show lo' + i < len by omega]

/-- Clearing the last `n` bits rounds down to a multiple of `2 ^ n`. -/
lemma toNat_and_not_lowMask (x : BitVec w) (n : ℕ) :
    (x &&& ~~~(BitVec.allOnes n).setWidth w).toNat = x.toNat / 2 ^ n * 2 ^ n := by
  have hshift : x &&& ~~~(BitVec.allOnes n).setWidth w = (x >>> n) <<< n := by
    apply BitVec.eq_of_getLsbD_eq
    intro i hi
    rw [BitVec.getLsbD_and, BitVec.getLsbD_not, BitVec.getLsbD_setWidth, BitVec.getLsbD_allOnes,
      BitVec.getLsbD_shiftLeft, BitVec.getLsbD_ushiftRight]
    by_cases h : i < n
    · simp [h]
    · simp [h, hi, show n + (i - n) = i by omega]
  have hle : x.toNat / 2 ^ n * 2 ^ n ≤ x.toNat := Nat.div_mul_le_self _ _
  rw [hshift, BitVec.toNat_shiftLeft, BitVec.toNat_ushiftRight, Nat.shiftLeft_eq,
    Nat.shiftRight_eq_div_pow, Nat.mod_eq_of_lt (lt_of_le_of_lt hle x.isLt)]

/-! ## Single bits -/

/-- The word with one bit set. -/
lemma getLsbD_one_shiftLeft (pos i : ℕ) :
    ((1 : BitVec w) <<< pos).getLsbD i = (decide (i < w) && decide (i = pos)) := by
  have hone : (1 : BitVec w).getLsbD (i - pos) = (decide (0 < w) && decide (i - pos = 0)) := by
    rw [show (1 : BitVec w) = 1#w from rfl, BitVec.getLsbD_one]
  rw [BitVec.getLsbD_shiftLeft, hone]
  by_cases hi : i < w
  · by_cases heq : i = pos
    · simp [heq, show 0 < w by omega]
    · by_cases hlt : i < pos
      · simp [hlt, heq]
      · simp [heq, show ¬ i - pos = 0 by omega]
  · simp [hi]

/-- Shifting a bit down and masking it tests it. -/
lemma ushiftRight_and_one_ne_zero (hw : 0 < w) (x : BitVec w) (i : ℕ) :
    ((x >>> i) &&& 1 != 0) = x.getLsbD i := by
  rw [show (1 : BitVec w) = 1#w from rfl, BitVec.and_one_eq_setWidth_ofBool_getLsbD,
    BitVec.getLsbD_ushiftRight, Nat.add_zero]
  cases x.getLsbD i with
  | false => simp
  | true =>
      have hne : (BitVec.ofBool true).setWidth w ≠ 0 := by
        intro h
        have h0 := congrArg (·.getLsbD 0) h
        simp [hw] at h0
      simpa using hne

end BitFields
