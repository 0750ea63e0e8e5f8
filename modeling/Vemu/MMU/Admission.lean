import Vemu.MMU.Spec

/-!
# Which ranges are admitted

Admission of a range is *exact* when the range operations admit it if and only if it ends at or
below the end of RAM, and when a load or store of that range which goes through was inside RAM
and touched the bytes it names.  **`admissionExact_iff`**: this is the case for all ranges but
two kinds.  A range that ends exactly at the end of RAM is turned away, and a range whose end
wraps to below the end of RAM is let through, with loops over nothing behind the check.
-/

namespace Vemu

open Fallible Loop

namespace MMU

variable {m m' : MMU}

/-- Admission of the range of `len` bytes from `start` on is exact. -/
structure AdmissionExact (m : MMU) (start len : U64) : Prop where
  read : m.readTo start len ≠ .error .assertFailed ↔ start.toNat + len.toNat ≤ m.ramSize.toNat
  perms : ∀ perm, m.setPerms start len perm ≠ .error .assertFailed
    ↔ start.toNat + len.toNat ≤ m.ramSize.toNat
  /-- The other assertion of `write_from` is met when every byte can be written. -/
  write : ∀ buf, buf.length = len.toNat → m.Writable start len.toNat →
    (m.writeFrom buf start ≠ .error .assertFailed
      ↔ start.toNat + len.toNat ≤ m.ramSize.toNat)
  /-- A store that goes through was in range and changed all of its bytes. -/
  store : ∀ sz data r m', sizeBytes sz = some len.toNat → m.store start data sz = .ok (r, m') →
    start.toNat + len.toNat ≤ m.ramSize.toNat ∧
      ∀ k < len.toNat, m'.ram.data (start.toNat + k) = (data >>> (8 * k)).setWidth 8
  /-- A load that goes through was in range and returns the bytes it names. -/
  load : ∀ sz v e, sizeBytes sz = some len.toNat → m.load start sz = .ok (v, e) →
    start.toNat + len.toNat ≤ m.ramSize.toNat ∧ v = assemble (m.bytesAt start len.toNat)

/-! ## The assertions -/

lemma ofNat_toNat (len : U64) : BitVec.ofNat 64 len.toNat = len := by simp

lemma readTo_admits_iff (hm : m.Backed) (start len : U64) :
    m.readTo start len ≠ .error .assertFailed
      ↔ m.Fits start len.toNat ∨ m.Wraps start len.toNat := by
  rw [← ofNat_toNat len]
  by_cases hf : m.Fits start len.toNat
  · rw [readTo_of_fits hm hf]
    simp [hf]
  · by_cases hw : m.Wraps start len.toNat
    · by_cases hmax : len.toNat ≤ maxVectorSize
      · rw [readTo_of_wraps hmax hw]
        simp [hw]
      · have hin : m.inRange start len = true := by
          simpa using (inRange_iff m start len.isLt).mpr (Or.inr hw)
        simp [readTo, hin, hmax, hw]
    · rw [readTo_of_not len.isLt hf hw]
      simp [hf, hw]

lemma setPerms_admits_iff (hm : m.Backed) (start len : U64) (perm : U8) :
    m.setPerms start len perm ≠ .error .assertFailed
      ↔ m.Fits start len.toNat ∨ m.Wraps start len.toNat := by
  by_cases hf : m.Fits start len.toNat
  · rw [setPerms_of_fits hm hf]
    simp [hf]
  · by_cases hw : m.Wraps start len.toNat
    · rw [setPerms_of_wraps hm hw]
      simp [hw]
    · rw [setPerms_of_not hf hw]
      simp [hf, hw]

lemma writeFrom_admits_iff (hm : m.Backed) {start : U64} {buf : List U8}
    (hn : buf.length < 2 ^ 64) (hwr : m.Writable start buf.length) :
    m.writeFrom buf start ≠ .error .assertFailed
      ↔ m.Fits start buf.length ∨ m.Wraps start buf.length := by
  by_cases hf : m.Fits start buf.length
  · rw [writeFrom_of_fits hm hf, if_pos hwr]
    simp [hf]
  · by_cases hw : m.Wraps start buf.length
    · rw [writeFrom_of_wraps hn hw]
      simp [hw]
    · rw [writeFrom_of_not hn hf hw]
      simp [hf, hw]

/-! ## Exactness -/

/-- Away from the two edges, the assertions admit what they should. -/
lemma fits_or_wraps_iff {start : U64} {n : ℕ} (hend : start.toNat + n ≠ m.ramSize.toNat)
    (hwrap : ¬ m.Wraps start n) :
    m.Fits start n ∨ m.Wraps start n ↔ start.toNat + n ≤ m.ramSize.toNat := by
  have h : m.Fits start n ↔ start.toNat + n ≤ m.ramSize.toNat := by
    unfold Fits
    omega
  simp only [hwrap, or_false, h]

lemma written_data {addr : U64} {n k : ℕ} {data : U64} (hk : k < n) :
    ((m.written addr (split n data)).mark addr).ram.data (addr.toNat + k)
      = (data >>> (8 * k)).setWidth 8 := by
  have hk' : addr.toNat + k - addr.toNat < (split n data).length := by simp [hk]
  change overlay m.ram.data addr.toNat (split n data) (addr.toNat + k) = _
  rw [overlay_of_mem (by omega) hk', getElem_split]
  simp

/-- A store that goes through away from the edges. -/
lemma store_exact (hm : m.Backed) {start data : U64} {n sz : ℕ} {r : ReturnException}
    (hwrap : ¬ m.Wraps start n) (hsz : sizeBytes sz = some n)
    (h : m.store start data sz = .ok (r, m')) :
    start.toNat + n ≤ m.ramSize.toNat ∧
      ∀ k < n, m'.ram.data (start.toNat + k) = (data >>> (8 * k)).setWidth 8 := by
  obtain ⟨-, n', hsz', hcase⟩ := store_cases hm h
  have hnn : n = n' := Option.some.inj (hsz.symm.trans hsz')
  subst hnn
  rcases hcase with ⟨hf, -, rfl⟩ | ⟨hw, -⟩
  · exact ⟨le_of_lt hf, fun k hk => written_data hk⟩
  · exact absurd hw hwrap

/-- A load that goes through away from the edges. -/
lemma load_exact (hm : m.Backed) {start v : U64} {n sz : ℕ} {e : ReturnException}
    (hwrap : ¬ m.Wraps start n) (hsz : sizeBytes sz = some n)
    (h : m.load start sz = .ok (v, e)) :
    start.toNat + n ≤ m.ramSize.toNat ∧ v = assemble (m.bytesAt start n) := by
  by_cases hf : m.Fits start n
  · rw [load_of_fits hm hsz hf] at h
    simp only [Except.ok.injEq, Prod.mk.injEq] at h
    exact ⟨le_of_lt hf, h.1.symm⟩
  · rw [load_of_not hsz hf hwrap] at h
    simp at h

/-- **Admission is exact but for two kinds of ranges**: those that end exactly at the end of
RAM, and those whose end wraps to below it. -/
theorem admissionExact_iff (hm : m.Backed) (start len : U64) :
    m.AdmissionExact start len
      ↔ start.toNat + len.toNat ≠ m.ramSize.toNat
        ∧ ¬ (2 ^ 64 ≤ start.toNat + len.toNat
              ∧ start.toNat + len.toNat - 2 ^ 64 < m.ramSize.toNat) := by
  change _ ↔ _ ∧ ¬ m.Wraps start len.toNat
  constructor
  · intro h
    have hread := (readTo_admits_iff hm start len).symm.trans h.read
    have hsize := m.ramSize.isLt
    constructor
    · intro hend
      rcases hread.mpr (le_of_eq hend) with hf | hw
      · exact absurd hend (ne_of_lt hf)
      · have := hw.1
        omega
    · intro hw
      have hle := hread.mp (Or.inr hw)
      have := hw.1
      omega
  · rintro ⟨hend, hwrap⟩
    have hiff := fits_or_wraps_iff hend hwrap
    refine ⟨(readTo_admits_iff hm start len).trans hiff,
      fun perm => (setPerms_admits_iff hm start len perm).trans hiff, ?_, ?_, ?_⟩
    · intro buf hlen hwr
      rw [← hlen] at hwr hiff ⊢
      exact (writeFrom_admits_iff hm (hlen ▸ len.isLt) hwr).trans hiff
    · intro sz data r m' hsz h
      exact store_exact hm hwrap hsz h
    · intro sz v e hsz h
      exact load_exact hm hwrap hsz h

/-- The first eight bytes of a page are admitted exactly. -/
theorem admissionExact_start : (uniform 4096 6).AdmissionExact 0 8 :=
  (admissionExact_iff (backed_uniform (by decide) 6) 0 8).mpr (by decide)

/-- The last eight bytes of RAM are turned away, and a store below address zero goes through
without writing anything. -/
theorem not_admissionExact_end :
    ¬ (uniform 4096 6).AdmissionExact 4088 8
      ∧ ¬ (uniform 4096 6).AdmissionExact 0xFFFFFFFFFFFFFFFC 8 := by
  constructor
  · intro h
    exact h.read.mpr (by decide) rfl
  · intro h
    have hle := (h.store 64 0 _ _ rfl rfl).1
    revert hle
    decide

end MMU

end Vemu
