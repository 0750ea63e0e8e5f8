import Vemu.Invariant

/-!
# When a memory operation goes through

A range is *accepted* by a read when it passes the range check, and by a write when it passes
the range check and every byte of it can be written; a range that wraps has no bytes and passes
either way.  On a backed memory these conditions are exact: `load_ok_iff`, `store_ok_iff`,
`writeFrom_ok_iff`, `allocate_ok_iff` and `readString_ok_iff`.
-/

namespace Vemu

open Fallible Loop

namespace MMU

variable {m : MMU} {addr : U64} {n : ℕ}

/-- A read of the range passes its check. -/
def AcceptsRead (m : MMU) (addr : U64) (n : ℕ) : Prop := m.Fits addr n ∨ m.Wraps addr n

/-- A write to the range passes its checks. -/
def AcceptsWrite (m : MMU) (addr : U64) (n : ℕ) : Prop :=
  (m.Fits addr n ∧ m.Writable addr n) ∨ m.Wraps addr n

instance (m : MMU) (addr : U64) (n : ℕ) : Decidable (m.AcceptsRead addr n) :=
  inferInstanceAs (Decidable (_ ∨ _))

instance (m : MMU) (addr : U64) (n : ℕ) : Decidable (m.AcceptsWrite addr n) :=
  inferInstanceAs (Decidable (_ ∨ _))

/-! ## Loads and stores -/

lemma load_ok_iff (hm : m.Backed) {sz : ℕ} (hsz : sizeBytes sz = some n) :
    (∃ r, m.load addr sz = .ok r) ↔ m.AcceptsRead addr n := by
  by_cases hf : m.Fits addr n
  · exact iff_of_true ⟨_, load_of_fits hm hsz hf⟩ (Or.inl hf)
  · by_cases hw : m.Wraps addr n
    · exact iff_of_true ⟨_, load_of_wraps hsz hw⟩ (Or.inr hw)
    · rw [load_of_not hsz hf hw]
      simp [AcceptsRead, hf, hw]

lemma store_ok_iff (hm : m.Backed) {sz : ℕ} (hsz : sizeBytes sz = some n) (data : U64) :
    (∃ r, m.store addr data sz = .ok r) ↔ m.AcceptsWrite addr n := by
  by_cases hf : m.Fits addr n
  · have hw : ¬ m.Wraps addr n := fun h => not_fits_of_wraps h hf
    rw [store_of_fits hm hsz hf]
    by_cases hwr : m.Writable addr n
    · simp [AcceptsWrite, hf, hwr]
    · simp [AcceptsWrite, hwr, hw]
  · by_cases hw : m.Wraps addr n
    · exact iff_of_true ⟨_, store_of_wraps hsz hw⟩ (Or.inr hw)
    · rw [store_of_not hsz hf hw]
      simp [AcceptsWrite, hf, hw]

/-! ## Ranges of bytes -/

lemma writeFrom_ok_iff (hm : m.Backed) {buf : List U8} (hn : buf.length < 2 ^ 64) :
    (∃ m', m.writeFrom buf addr = .ok m') ↔ m.AcceptsWrite addr buf.length := by
  constructor
  · rintro ⟨m', hm'⟩
    rcases writeFrom_cases hm hn hm' with ⟨hf, hwr, -⟩ | ⟨hw, -⟩
    · exact Or.inl ⟨hf, hwr⟩
    · exact Or.inr hw
  · rintro (⟨hf, hwr⟩ | hw)
    · exact ⟨_, by rw [writeFrom_of_fits hm hf, if_pos hwr]⟩
    · exact ⟨_, writeFrom_of_wraps hn hw⟩

/-- An allocation has to fit: behind the range check, the fill of a range that wraps leaves the
array. -/
lemma allocate_ok_iff (hm : m.Backed) (size : U64) :
    (∃ r, m.allocate size = .ok r) ↔ m.Fits m.allocPtr size.toNat := by
  constructor
  · rintro ⟨⟨base, m'⟩, h⟩
    exact (allocate_cases hm h).2.1
  · intro hf
    exact ⟨_, allocate_of_fits hm hf⟩

/-! ## Strings -/

/-- The byte that a read of one byte gives: above the last address the range is empty, and the
vector that should take the byte has a zero there. -/
def charAt (m : MMU) (addr : U64) : U8 := if m.Fits addr 1 then m.ram.data addr.toNat else 0

lemma readTo_one (hm : m.Backed) (h : m.AcceptsRead addr 1) :
    ∃ e, m.readTo addr 1 = .ok ([m.charAt addr], e) := by
  rcases h with hf | hw
  · refine ⟨m.readOutcome addr 1, ?_⟩
    rw [charAt, if_pos hf]
    exact readTo_of_fits hm hf
  · refine ⟨.NormalExecutionReturn, ?_⟩
    rw [charAt, if_neg (not_fits_of_wraps hw)]
    exact readTo_of_wraps (by decide) hw

lemma readTo_one_of_not (h : ¬ m.AcceptsRead addr 1) :
    m.readTo addr 1 = .error .assertFailed := by
  rw [AcceptsRead, not_or] at h
  exact readTo_of_not (by decide) h.1 h.2

/-- There is a string of `k` characters at the address, and a zero behind it. -/
def StringAt (m : MMU) (addr : U64) (k : ℕ) : Prop :=
  (∀ j ≤ k, m.AcceptsRead (addr + BitVec.ofNat 64 j) 1)
    ∧ (∀ j < k, m.charAt (addr + BitVec.ofNat 64 j) ≠ 0)
    ∧ m.charAt (addr + BitVec.ofNat 64 k) = 0

/-- The characters of the string. -/
def chars (m : MMU) (addr : U64) (k : ℕ) : List U8 :=
  (List.range k).map fun j => m.charAt (addr + BitVec.ofNat 64 j)

lemma add_one_add_ofNat (addr : U64) (j : ℕ) :
    addr + 1 + BitVec.ofNat 64 j = addr + BitVec.ofNat 64 (j + 1) := by
  rw [BitVec.ofNat_add, BitVec.add_assoc, BitVec.add_comm (1 : U64)]
  rfl

lemma chars_succ (m : MMU) (addr : U64) (k : ℕ) :
    m.chars addr (k + 1) = m.charAt addr :: m.chars (addr + 1) k := by
  rw [chars, List.range_succ_eq_map, List.map_cons, List.map_map, chars]
  congr 1
  · rw [BitVec.add_zero]
  · apply List.map_congr_left
    intro j _
    rw [add_one_add_ofNat]
    rfl

lemma stringAt_zero :
    m.StringAt addr 0 ↔ m.AcceptsRead addr 1 ∧ m.charAt addr = 0 := by
  simp [StringAt]

lemma stringAt_succ {k : ℕ} :
    m.StringAt addr (k + 1)
      ↔ m.AcceptsRead addr 1 ∧ m.charAt addr ≠ 0 ∧ m.StringAt (addr + 1) k := by
  have hzero : addr + BitVec.ofNat 64 0 = addr := BitVec.add_zero addr
  constructor
  · rintro ⟨hacc, hne, hend⟩
    have h0 := hacc 0 (by omega)
    have hn0 := hne 0 (by omega)
    rw [hzero] at h0 hn0
    refine ⟨h0, hn0, fun j hj => ?_, fun j hj => ?_, ?_⟩
    · rw [add_one_add_ofNat]
      exact hacc (j + 1) (by omega)
    · rw [add_one_add_ofNat]
      exact hne (j + 1) (by omega)
    · rw [add_one_add_ofNat]
      exact hend
  · rintro ⟨h0, hn0, hacc, hne, hend⟩
    refine ⟨fun j hj => ?_, fun j hj => ?_, ?_⟩
    · cases j with
      | zero => rwa [hzero]
      | succ j =>
          rw [← add_one_add_ofNat]
          exact hacc j (by omega)
    · cases j with
      | zero => rwa [hzero]
      | succ j =>
          rw [← add_one_add_ofNat]
          exact hne j (by omega)
    · rwa [add_one_add_ofNat] at hend

/-- What the rounds read, if they are enough. -/
lemma readStringRounds_eq_ok_iff (hm : m.Backed) :
    ∀ (rounds : ℕ) (addr : U64) (p : List U8),
      m.readStringRounds rounds addr = .ok p
        ↔ ∃ k < rounds, m.StringAt addr k ∧ p = m.chars addr k ++ [0]
  | 0, _, _ => by simp [readStringRounds]
  | rounds + 1, addr, p => by
      by_cases hacc : m.AcceptsRead addr 1
      · obtain ⟨e, hread⟩ := readTo_one hm hacc
        rw [readStringRounds, hread, ok_bind]
        dsimp only [List.getElem?_cons_zero]
        rw [orFault_some, ok_bind]
        by_cases hz : m.charAt addr = 0
        · rw [if_pos hz, hz]
          constructor
          · intro h
            exact ⟨0, by omega, stringAt_zero.mpr ⟨hacc, hz⟩, (Except.ok.inj h).symm⟩
          · rintro ⟨k, -, hk, rfl⟩
            cases k with
            | zero => rfl
            | succ k => exact absurd hz (stringAt_succ.mp hk).2.1
        · rw [if_neg hz, bind_eq_ok_iff]
          constructor
          · rintro ⟨rest, hrest, h⟩
            obtain ⟨k, hlt, hk, rfl⟩ :=
              (readStringRounds_eq_ok_iff hm rounds (addr + 1) rest).mp hrest
            refine ⟨k + 1, by omega, stringAt_succ.mpr ⟨hacc, hz, hk⟩, ?_⟩
            rw [chars_succ, List.cons_append]
            exact (Except.ok.inj h).symm
          · rintro ⟨k, hlt, hk, rfl⟩
            cases k with
            | zero => exact absurd (stringAt_zero.mp hk).2 hz
            | succ k =>
                refine ⟨m.chars (addr + 1) k ++ [0],
                  (readStringRounds_eq_ok_iff hm rounds (addr + 1) _).mpr
                    ⟨k, by omega, (stringAt_succ.mp hk).2.2, rfl⟩, ?_⟩
                rw [chars_succ, List.cons_append]
                rfl
      · rw [readStringRounds, readTo_one_of_not hacc, error_bind]
        simp only [reduceCtorEq, false_iff, not_exists, not_and]
        intro k _ hk _
        cases k with
        | zero => exact hacc (stringAt_zero.mp hk).1
        | succ k => exact hacc (stringAt_succ.mp hk).1

/-- A string ends inside RAM, so it is shorter than RAM. -/
lemma StringAt.lt {k : ℕ} (h : m.StringAt addr k) : k < m.ramSize.toNat + 1 := by
  -- every character stands inside RAM, at addresses that go up one by one
  have hstep : ∀ j, j ≤ k → addr.toNat + j ≤ m.ramSize.toNat ∨ j = 0 := by
    intro j
    induction j with
    | zero => exact fun _ => Or.inr rfl
    | succ j ih =>
        intro hj
        left
        have hne := h.2.1 j (by omega)
        have hfit : m.Fits (addr + BitVec.ofNat 64 j) 1 := by
          by_contra hnot
          exact hne (if_neg hnot)
        have hsize := m.ramSize.isLt
        have hj64 : (addr + BitVec.ofNat 64 j).toNat = addr.toNat + j := by
          apply toNat_add_ofNat_of_le
          rcases ih (by omega) with hle | rfl
          · omega
          · exact addr.isLt
        unfold Fits at hfit
        omega
  rcases hstep k le_rfl with hle | rfl
  · omega
  · omega

/-- **A string can be read exactly if there is one.** -/
lemma readString_ok_iff (hm : m.Backed) {p : List U8} :
    m.readNullTerminatedString addr = .ok p
      ↔ ∃ k, m.StringAt addr k ∧ p = m.chars addr k ++ [0] := by
  rw [readNullTerminatedString, readStringRounds_eq_ok_iff hm]
  constructor
  · rintro ⟨k, -, hk, hp⟩
    exact ⟨k, hk, hp⟩
  · rintro ⟨k, hk, hp⟩
    exact ⟨k, hk.lt, hk, hp⟩

/-- The C string that was read is its characters. -/
lemma cString_chars {k : ℕ} (h : m.StringAt addr k) :
    VEmu.cString (m.chars addr k ++ [0]) = m.chars addr k := by
  have hne : ∀ c ∈ m.chars addr k, c ≠ 0 := by
    intro c hc
    obtain ⟨j, hj, rfl⟩ := List.mem_map.mp hc
    exact h.2.1 j (List.mem_range.mp hj)
  rw [VEmu.cString, List.takeWhile_append_of_pos (by simpa using hne)]
  simp

end MMU

end Vemu
