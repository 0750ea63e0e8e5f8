import Vemu.Lib.Fallible

/-!
# Counting loops over machine words, and writes over an interval

`forRange lo hi` lists the values the counter takes in `for (i = lo; i < hi; i++)` at a fixed
word width.  Its bounds are words, so a bound that was computed with wrap-around makes the
loop run over nothing (`forRange_eq_nil`): this is where a machine loop and the mathematical
interval part.

The rule for such a loop is `foldlM_forRange`: give the state after `k` rounds as a function of
`k`, and show that one round leads from each to the next.  `foldlM_forRange_words` is the rule
where the bounds are given by a length.

`overlay f lo bs` is the function `f` with the list `bs` written over it from index `lo` on,
and `mapOn g f lo n` is `f` changed by `g` on an interval; this is what a loop of single writes
leaves behind.
-/

namespace Loop

open Fallible

variable {w : ℕ} {α : Type*}

/-- The values of the counter in `for (i = lo; i < hi; i++)`. -/
def forRange (lo hi : BitVec w) : List (BitVec w) :=
  (List.range (hi.toNat - lo.toNat)).map fun k => lo + BitVec.ofNat w k

lemma toNat_add_ofNat {lo hi : BitVec w} {k : ℕ} (hk : k < hi.toNat - lo.toNat) :
    (lo + BitVec.ofNat w k).toNat = lo.toNat + k := by
  have hhi := hi.isLt
  rw [BitVec.toNat_add, BitVec.toNat_ofNat, Nat.mod_eq_of_lt (show k < 2 ^ w by omega)]
  exact Nat.mod_eq_of_lt (by omega)

/-- The counter's distance from the start of its loop. -/
lemma toNat_add_ofNat_sub {lo : BitVec w} {k : ℕ} (hk : k < 2 ^ w) :
    (lo + BitVec.ofNat w k - lo).toNat = k := by
  rw [BitVec.add_comm, BitVec.add_sub_cancel, BitVec.toNat_ofNat, Nat.mod_eq_of_lt hk]

lemma mem_forRange {lo hi i : BitVec w} :
    i ∈ forRange lo hi ↔ lo.toNat ≤ i.toNat ∧ i.toNat < hi.toNat := by
  simp only [forRange, List.mem_map, List.mem_range]
  constructor
  · rintro ⟨k, hk, rfl⟩
    rw [toNat_add_ofNat hk]
    omega
  · rintro ⟨hlo, hhi⟩
    refine ⟨i.toNat - lo.toNat, by omega, ?_⟩
    apply BitVec.eq_of_toNat_eq
    rw [@toNat_add_ofNat _ lo hi _ (by omega)]
    omega

/-- A loop whose upper bound is not above its lower bound does nothing. -/
lemma forRange_eq_nil {lo hi : BitVec w} (h : hi.toNat ≤ lo.toNat) : forRange lo hi = [] := by
  simp [forRange, Nat.sub_eq_zero_of_le h]

@[simp] lemma length_forRange (lo hi : BitVec w) :
    (forRange lo hi).length = hi.toNat - lo.toNat := by
  simp [forRange]

/-- The upper bound of an interval of `n` words from `lo`, when it does not wrap. -/
lemma toNat_add_ofNat_of_le {lo : BitVec w} {n : ℕ} (h : lo.toNat + n < 2 ^ w) :
    (lo + BitVec.ofNat w n).toNat = lo.toNat + n := by
  rw [BitVec.toNat_add, BitVec.toNat_ofNat, Nat.mod_eq_of_lt (show n < 2 ^ w by omega),
    Nat.mod_eq_of_lt h]

/-- The upper bound of an interval of `n` words from `lo`, when it wraps: it falls below
`lo`. -/
lemma toNat_add_ofNat_of_wrap {lo : BitVec w} {n : ℕ} (hn : n < 2 ^ w)
    (h : 2 ^ w ≤ lo.toNat + n) :
    (lo + BitVec.ofNat w n).toNat = lo.toNat + n - 2 ^ w := by
  have hlo := lo.isLt
  rw [BitVec.toNat_add, BitVec.toNat_ofNat, Nat.mod_eq_of_lt hn,
    Nat.mod_eq_sub_mod h, Nat.mod_eq_of_lt (by omega)]

universe u v

/-- **The loop rule.**  `g k` is the state after `k` rounds. -/
theorem foldlM_forRange {σ : Type u} {ε : Type v} {f : σ → BitVec w → Except ε σ} (g : ℕ → σ)
    (lo hi : BitVec w)
    (hround : ∀ k, k < hi.toNat - lo.toNat →
      f (g k) (lo + BitVec.ofNat w k) = .ok (g (k + 1))) :
    (forRange lo hi).foldlM f (g 0) = .ok (g (hi.toNat - lo.toNat)) := by
  have h : ∀ n, n ≤ hi.toNat - lo.toNat →
      ((List.range n).map fun k => lo + BitVec.ofNat w k).foldlM f (g 0) = .ok (g n) := by
    intro n
    induction n with
    | zero => intro _; rfl
    | succ n ih =>
        intro hn
        rw [List.range_succ, List.map_append, List.foldlM_append, ih (by omega), ok_bind,
          List.map_cons, List.map_nil, List.foldlM_cons, hround n (by omega), ok_bind,
          List.foldlM_nil, pure_eq_ok]
  exact h _ le_rfl

/-- The loop rule for `n` words from `lo`, when they do not wrap. -/
theorem foldlM_forRange_words {σ : Type u} {ε : Type v} {f : σ → BitVec w → Except ε σ}
    (g : ℕ → σ) {lo : BitVec w} {n : ℕ} (h : lo.toNat + n < 2 ^ w)
    (hround : ∀ k < n, f (g k) (lo + BitVec.ofNat w k) = .ok (g (k + 1))) :
    (forRange lo (lo + BitVec.ofNat w n)).foldlM f (g 0) = .ok (g n) := by
  have hn : (lo + BitVec.ofNat w n).toNat - lo.toNat = n := by
    rw [toNat_add_ofNat_of_le h, Nat.add_sub_cancel_left]
  have hloop := foldlM_forRange g lo (lo + BitVec.ofNat w n) fun k hk => hround k (hn ▸ hk)
  rwa [hn] at hloop

/-! ## Writing a list over a function -/

/-- `f` with the list `bs` written over it from index `lo` on. -/
def overlay (f : ℕ → α) (lo : ℕ) (bs : List α) : ℕ → α := fun k =>
  if lo ≤ k then (bs[k - lo]?).getD (f k) else f k

lemma overlay_of_lt {f : ℕ → α} {lo k : ℕ} {bs : List α} (h : k < lo) :
    overlay f lo bs k = f k := if_neg (by omega)

lemma overlay_of_ge {f : ℕ → α} {lo k : ℕ} {bs : List α} (h : lo + bs.length ≤ k) :
    overlay f lo bs k = f k := by
  simp [overlay, List.getElem?_eq_none (show bs.length ≤ k - lo by omega)]

lemma overlay_of_mem {f : ℕ → α} {lo k : ℕ} {bs : List α} (hlo : lo ≤ k)
    (hhi : k - lo < bs.length) : overlay f lo bs k = bs[k - lo] := by
  simp [overlay, hlo, hhi]

/-- Outside the interval nothing changes. -/
lemma overlay_of_not_mem {f : ℕ → α} {lo k : ℕ} {bs : List α}
    (h : ¬ (lo ≤ k ∧ k < lo + bs.length)) : overlay f lo bs k = f k := by
  by_cases hk : k < lo
  · exact overlay_of_lt hk
  · exact overlay_of_ge (by omega)

@[simp] lemma overlay_nil (f : ℕ → α) (lo : ℕ) : overlay f lo [] = f := by
  funext k
  simp [overlay]

/-- `f` changed by `g` at the indices of an interval. -/
def mapOn (g : α → α) (f : ℕ → α) (lo n : ℕ) : ℕ → α := fun k =>
  if lo ≤ k ∧ k < lo + n then g (f k) else f k

lemma mapOn_of_mem {g : α → α} {f : ℕ → α} {lo n k : ℕ} (h : lo ≤ k ∧ k < lo + n) :
    mapOn g f lo n k = g (f k) := if_pos h

lemma mapOn_of_not_mem {g : α → α} {f : ℕ → α} {lo n k : ℕ} (h : ¬ (lo ≤ k ∧ k < lo + n)) :
    mapOn g f lo n k = f k := if_neg h

@[simp] lemma mapOn_zero (g : α → α) (f : ℕ → α) (lo : ℕ) : mapOn g f lo 0 = f := by
  funext k
  exact mapOn_of_not_mem (by omega)

/-- What holds everywhere and is kept by `g` holds everywhere after. -/
lemma mapOn_forall {P : α → Prop} {g : α → α} {f : ℕ → α} {lo n : ℕ} (h : ∀ k, P (f k))
    (hg : ∀ a, P a → P (g a)) (k : ℕ) : P (mapOn g f lo n k) := by
  by_cases hk : lo ≤ k ∧ k < lo + n
  · rw [mapOn_of_mem hk]
    exact hg _ (h k)
  · rw [mapOn_of_not_mem hk]
    exact h k

/-- Changing the same interval on both sides of a pointwise relation. -/
lemma mapOn_rel {β : Type*} {R : α → β → Prop} {g : α → α} {g' : β → β} {f : ℕ → α} {f' : ℕ → β}
    {lo n : ℕ} (h : ∀ k, R (f k) (f' k)) (hg : ∀ a b, R a b → R (g a) (g' b)) (k : ℕ) :
    R (mapOn g f lo n k) (mapOn g' f' lo n k) := by
  by_cases hk : lo ≤ k ∧ k < lo + n
  · rw [mapOn_of_mem hk, mapOn_of_mem hk]
    exact hg _ _ (h k)
  · rw [mapOn_of_not_mem hk, mapOn_of_not_mem hk]
    exact h k

/-- Overwriting an interval forgets what was done to it before. -/
lemma mapOn_const_mapOn (a : α) (g : α → α) (f : ℕ → α) (lo n : ℕ) :
    mapOn (fun _ => a) (mapOn g f lo n) lo n = mapOn (fun _ => a) f lo n := by
  funext k
  by_cases hk : lo ≤ k ∧ k < lo + n
  · rw [mapOn_of_mem hk, mapOn_of_mem hk]
  · rw [mapOn_of_not_mem hk, mapOn_of_not_mem hk, mapOn_of_not_mem hk]

/-- Writing one more element of the list. -/
lemma overlay_take_succ (f : ℕ → α) (lo : ℕ) {bs : List α} {k : ℕ} (hk : k < bs.length) :
    overlay f lo (bs.take (k + 1)) = Function.update (overlay f lo (bs.take k)) (lo + k) bs[k] := by
  funext j
  by_cases hj : j = lo + k
  · subst hj
    rw [Function.update_self, overlay_of_mem (by omega) (by simp; omega)]
    simp
  · rw [Function.update_of_ne hj]
    by_cases hin : lo ≤ j ∧ j < lo + k
    · rw [overlay_of_mem hin.1 (by simp; omega), overlay_of_mem hin.1 (by simp; omega)]
      simp
    · rw [overlay_of_not_mem (by simp; omega), overlay_of_not_mem (by simp; omega)]

/-- Changing the element after an interval. -/
lemma mapOn_succ (g : α → α) (f : ℕ → α) (lo k : ℕ) :
    mapOn g f lo (k + 1) = Function.update (mapOn g f lo k) (lo + k) (g (f (lo + k))) := by
  funext j
  by_cases hj : j = lo + k
  · subst hj
    rw [Function.update_self, mapOn_of_mem (by omega)]
  · rw [Function.update_of_ne hj]
    by_cases hin : lo ≤ j ∧ j < lo + k
    · rw [mapOn_of_mem (by omega), mapOn_of_mem hin]
    · rw [mapOn_of_not_mem (by omega), mapOn_of_not_mem hin]

/-- `f` with the values of `g` at the indices of an interval. -/
def splice (g f : ℕ → α) (lo n : ℕ) : ℕ → α := fun k =>
  if lo ≤ k ∧ k < lo + n then g k else f k

lemma splice_of_mem {g f : ℕ → α} {lo n k : ℕ} (h : lo ≤ k ∧ k < lo + n) :
    splice g f lo n k = g k := if_pos h

lemma splice_of_not_mem {g f : ℕ → α} {lo n k : ℕ} (h : ¬ (lo ≤ k ∧ k < lo + n)) :
    splice g f lo n k = f k := if_neg h

@[simp] lemma splice_zero (g f : ℕ → α) (lo : ℕ) : splice g f lo 0 = f := by
  funext k
  exact splice_of_not_mem (by omega)

/-- Taking over the value after an interval. -/
lemma splice_succ (g f : ℕ → α) (lo k : ℕ) :
    splice g f lo (k + 1) = Function.update (splice g f lo k) (lo + k) (g (lo + k)) := by
  funext j
  by_cases hj : j = lo + k
  · subst hj
    rw [Function.update_self, splice_of_mem (by omega)]
  · rw [Function.update_of_ne hj]
    by_cases hin : lo ≤ j ∧ j < lo + k
    · rw [splice_of_mem (by omega), splice_of_mem hin]
    · rw [splice_of_not_mem (by omega), splice_of_not_mem hin]

end Loop
