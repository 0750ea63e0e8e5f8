import Vemu.MMU

/-!
# What the memory operations do

A memory is *backed* when its two arrays have storage for all of RAM.  On a backed memory each
operation is described by one lemma for every way it can go:

* the range *fits*: it ends below the end of RAM, at the size the assertion wants;
* the range *wraps*: its end, at 64 bits, comes out below the end of RAM, and the loops over it
  run over nothing;
* neither: the assertion fails.

`writeFrom_cases`, `setPerms_cases`, `allocate_cases` and `store_cases` say from a successful
call what it did.
-/

namespace Vemu

open Fallible Loop

namespace MMU

variable {m m' : MMU}

/-- Both arrays have storage for all of RAM. -/
structure Backed (m : MMU) : Prop where
  ram : m.ram.capacity = m.ramSize.toNat
  perm : m.bytePermission.capacity = m.ramSize.toNat
  size : m.ramSize.toNat ≤ maxVectorSize

/-- A new memory is backed. -/
lemma backed_new {memSize : U64} {rs ps : ℕ → U8} (h : MMU.new memSize rs ps = .ok m) :
    m.Backed := by
  obtain ⟨_, hsize, hm⟩ := bind_eq_ok_iff.mp h
  simp only [pure_eq_ok, Except.ok.injEq] at hm
  subst hm
  exact ⟨rfl, rfl, by simpa [check_eq_ok_iff] using hsize⟩

/-- The range ends below the end of RAM. -/
def Fits (m : MMU) (addr : U64) (n : ℕ) : Prop := addr.toNat + n < m.ramSize.toNat

/-- The end of the range passes zero and comes out below the end of RAM. -/
def Wraps (m : MMU) (addr : U64) (n : ℕ) : Prop :=
  2 ^ 64 ≤ addr.toNat + n ∧ addr.toNat + n - 2 ^ 64 < m.ramSize.toNat

instance (m : MMU) (addr : U64) (n : ℕ) : Decidable (m.Fits addr n) :=
  inferInstanceAs (Decidable (_ < _))

instance (m : MMU) (addr : U64) (n : ℕ) : Decidable (m.Wraps addr n) :=
  inferInstanceAs (Decidable (_ ∧ _))

lemma not_fits_of_wraps {addr : U64} {n : ℕ} (h : m.Wraps addr n) : ¬ m.Fits addr n := by
  have hsize := m.ramSize.isLt
  unfold Fits
  have := h.1
  omega

/-- **The assertion of the range checks**, in natural numbers. -/
lemma inRange_iff (m : MMU) (addr : U64) {n : ℕ} (hn : n < 2 ^ 64) :
    m.inRange addr (BitVec.ofNat 64 n) = true ↔ m.Fits addr n ∨ m.Wraps addr n := by
  have hsize := m.ramSize.isLt
  simp only [inRange, decide_eq_true_eq, BitVec.lt_def, Fits, Wraps]
  by_cases h : addr.toNat + n < 2 ^ 64
  · rw [toNat_add_ofNat_of_le h]
    omega
  · rw [toNat_add_ofNat_of_wrap hn (by omega)]
    omega

lemma Fits.lt_two_pow {addr : U64} {n : ℕ} (h : m.Fits addr n) : addr.toNat + n < 2 ^ 64 :=
  lt_trans h m.ramSize.isLt

lemma toNat_end_of_fits {addr : U64} {n : ℕ} (h : m.Fits addr n) :
    (addr + BitVec.ofNat 64 n).toNat = addr.toNat + n :=
  toNat_add_ofNat_of_le h.lt_two_pow

/-- The index of a byte of the range. -/
lemma Fits.toNat_index {addr : U64} {n k : ℕ} (h : m.Fits addr n) (hk : k < n) :
    (addr + BitVec.ofNat 64 k).toNat = addr.toNat + k :=
  toNat_add_ofNat_of_le (lt_trans (Nat.add_lt_add_left hk _) h.lt_two_pow)

/-- The offset of a byte of the range. -/
lemma Fits.toNat_offset {addr : U64} {n k : ℕ} (h : m.Fits addr n) (hk : k < n) :
    (addr + BitVec.ofNat 64 k - addr).toNat = k :=
  toNat_add_ofNat_sub (by have hn := h.lt_two_pow; omega)

lemma Fits.index_lt {addr : U64} {n k : ℕ} (h : m.Fits addr n) (hk : k < n) :
    (addr + BitVec.ofNat 64 k).toNat < m.ramSize.toNat := by
  rw [h.toNat_index hk]
  exact lt_trans (Nat.add_lt_add_left hk _) h

lemma forRange_of_wraps {addr : U64} {n : ℕ} (hn : n < 2 ^ 64) (h : m.Wraps addr n) :
    forRange addr (addr + BitVec.ofNat 64 n) = [] := by
  apply forRange_eq_nil
  rw [toNat_add_ofNat_of_wrap hn h.1]
  omega

/-! ## Contents -/

/-- The memory with other contents. -/
def withContents (m : MMU) (ram perm : ℕ → U8) : MMU :=
  { m with ram := { m.ram with data := ram }
           bytePermission := { m.bytePermission with data := perm } }

@[simp] lemma withContents_ram (m : MMU) (r p : ℕ → U8) :
    (m.withContents r p).ram = { m.ram with data := r } := rfl

@[simp] lemma withContents_perm (m : MMU) (r p : ℕ → U8) :
    (m.withContents r p).bytePermission = { m.bytePermission with data := p } := rfl

@[simp] lemma withContents_dirtyBlocks (m : MMU) (r p : ℕ → U8) :
    (m.withContents r p).dirtyBlocks = m.dirtyBlocks := rfl

@[simp] lemma withContents_ramSize (m : MMU) (r p : ℕ → U8) :
    (m.withContents r p).ramSize = m.ramSize := rfl

@[simp] lemma withContents_allocPtr (m : MMU) (r p : ℕ → U8) :
    (m.withContents r p).allocPtr = m.allocPtr := rfl

@[simp] lemma withContents_self (m : MMU) :
    m.withContents m.ram.data m.bytePermission.data = m := rfl

lemma Backed.withContents (h : m.Backed) (r p : ℕ → U8) : (m.withContents r p).Backed :=
  ⟨h.ram, h.perm, h.size⟩

/-- A permission byte after a write. -/
def initialised (p : U8) : U8 := if p &&& permRaw ≠ 0 then (p ||| permRead) &&& ~~~permRaw else p

/-- An uninitialised byte's permissions change when it is written, no other's do. -/
lemma initialised_eq_self_iff (p : U8) : initialised p = p ↔ p &&& permRaw = 0 := by
  revert p
  decide

/-- Every byte of the range can be written. -/
def Writable (m : MMU) (addr : U64) (n : ℕ) : Prop :=
  ∀ k < n, m.bytePermission.data (addr.toNat + k) &&& permWrite ≠ 0

instance (m : MMU) (addr : U64) (n : ℕ) : Decidable (m.Writable addr n) :=
  Nat.decidableBallLT n _

/-- The memory after the bytes have been written from `addr` on. -/
def written (m : MMU) (addr : U64) (buf : List U8) : MMU :=
  m.withContents (overlay m.ram.data addr.toNat buf)
    (mapOn initialised m.bytePermission.data addr.toNat buf.length)

/-- The memory after the permissions of a range have been set. -/
def permitted (m : MMU) (addr size : U64) (perm : U8) : MMU :=
  m.withContents m.ram.data (mapOn (fun _ => perm) m.bytePermission.data addr.toNat size.toNat)

/-! ## Permissions -/

lemma setPerms_of_fits (hm : m.Backed) {addr size : U64} (h : m.Fits addr size.toNat) (perm : U8) :
    m.setPerms addr size perm = .ok (m.permitted addr size perm) := by
  have hin : m.inRange addr size = true := by
    simpa using (inRange_iff m addr size.isLt).mpr (Or.inl h)
  have hle : addr.toNat + size.toNat ≤ m.bytePermission.capacity := by
    rw [hm.perm]
    exact le_of_lt h
  rw [setPerms, hin, check_true, ok_bind, ByteVec.fill_of_le hle, ok_bind]
  rfl

/-- A range that wraps passes the assertion, and the fill leaves the array. -/
lemma setPerms_of_wraps (hm : m.Backed) {addr size : U64} (h : m.Wraps addr size.toNat)
    (perm : U8) : m.setPerms addr size perm = .error .outOfBounds := by
  have hin : m.inRange addr size = true := by
    simpa using (inRange_iff m addr size.isLt).mpr (Or.inr h)
  have hout : ¬ (size = 0 ∨ addr.toNat + size.toNat ≤ m.bytePermission.capacity) := by
    have hsize := m.ramSize.isLt
    have haddr := addr.isLt
    have := h.1
    rw [hm.perm]
    rintro (rfl | hle)
    · simp at this
      omega
    · omega
  rw [setPerms, hin, check_true, ok_bind, ByteVec.fill, if_neg hout]
  rfl

lemma setPerms_of_not {addr size : U64} (hf : ¬ m.Fits addr size.toNat)
    (hw : ¬ m.Wraps addr size.toNat) (perm : U8) :
    m.setPerms addr size perm = .error .assertFailed := by
  have hin : m.inRange addr size = false := by
    simpa [hf, hw] using (inRange_iff m addr size.isLt)
  rw [setPerms, hin, check_false, error_bind]

/-- What a successful change of permissions did. -/
lemma setPerms_cases (hm : m.Backed) {addr size : U64} {perm : U8}
    (h : m.setPerms addr size perm = .ok m') :
    m.Fits addr size.toNat ∧ m' = m.permitted addr size perm := by
  by_cases hf : m.Fits addr size.toNat
  · rw [setPerms_of_fits hm hf, Except.ok.injEq] at h
    exact ⟨hf, h.symm⟩
  · by_cases hw : m.Wraps addr size.toNat
    · rw [setPerms_of_wraps hm hw] at h
      simp at h
    · rw [setPerms_of_not hf hw] at h
      simp at h

lemma allocate_of_fits (hm : m.Backed) {size : U64} (h : m.Fits m.allocPtr size.toNat) :
    m.allocate size = .ok (m.allocPtr,
      { m.permitted m.allocPtr size (permRaw ||| permWrite) with
        allocPtr := m.allocPtr + size }) := by
  have hin : decide (size + m.allocPtr < m.ramSize) = true := by
    have hrange := (inRange_iff m m.allocPtr size.isLt).mpr (Or.inl h)
    rwa [inRange, BitVec.ofNat_toNat, BitVec.setWidth_eq, BitVec.add_comm] at hrange
  have hbacked : Backed { m with allocPtr := m.allocPtr + size } := ⟨hm.ram, hm.perm, hm.size⟩
  have hfit : Fits { m with allocPtr := m.allocPtr + size } m.allocPtr size.toNat := h
  rw [allocate, hin, check_true, ok_bind]
  dsimp only
  rw [setPerms_of_fits hbacked hfit, ok_bind]
  rfl

lemma allocate_of_not {size : U64} (hf : ¬ m.Fits m.allocPtr size.toNat)
    (hw : ¬ m.Wraps m.allocPtr size.toNat) : m.allocate size = .error .assertFailed := by
  have hin : decide (size + m.allocPtr < m.ramSize) = false := by
    have hrange : m.inRange m.allocPtr size = false := by
      simpa [hf, hw] using inRange_iff m m.allocPtr size.isLt
    rwa [inRange, BitVec.add_comm] at hrange
  rw [allocate, hin, check_false, error_bind]

/-- What a successful allocation did. -/
lemma allocate_cases (hm : m.Backed) {size base : U64} (h : m.allocate size = .ok (base, m')) :
    base = m.allocPtr ∧ m.Fits m.allocPtr size.toNat
      ∧ m' = { m.permitted m.allocPtr size (permRaw ||| permWrite) with
                allocPtr := m.allocPtr + size } := by
  rw [allocate] at h
  obtain ⟨_, -, h⟩ := bind_eq_ok_iff.mp h
  obtain ⟨m₁, h₁, h⟩ := bind_eq_ok_iff.mp h
  simp only [pure_eq_ok, Except.ok.injEq, Prod.mk.injEq] at h
  have hbacked : Backed { m with allocPtr := m.allocPtr + size } := ⟨hm.ram, hm.perm, hm.size⟩
  obtain ⟨hfit, hm₁⟩ := setPerms_cases hbacked h₁
  refine ⟨h.1.symm, hfit, ?_⟩
  rw [← h.2, hm₁]
  rfl

/-! ## Writing -/

lemma writeByte_of_lt (hm : m.Backed) {i : U64} (hi : i.toNat < m.ramSize.toNat) (b : U8) :
    m.writeByte i b = .ok (m.withContents (Function.update m.ram.data i.toNat b)
      (Function.update m.bytePermission.data i.toNat
        (initialised (m.bytePermission.data i.toNat)))) := by
  have hram : i.toNat < m.ram.capacity := hm.ram ▸ hi
  have hperm : i.toNat < m.bytePermission.capacity := hm.perm ▸ hi
  rw [writeByte, ByteVec.set_of_lt hram, ok_bind, ByteVec.get_of_lt hperm, ok_bind]
  by_cases hraw : m.bytePermission.data i.toNat &&& permRaw ≠ 0
  · rw [if_pos hraw, ByteVec.set_of_lt hperm, ok_bind, initialised, if_pos hraw]
    rfl
  · rw [if_neg hraw, initialised, if_neg hraw, Function.update_eq_self]
    rfl

lemma writable_succ {addr : U64} {k : ℕ} :
    m.Writable addr (k + 1) ↔ m.Writable addr k
      ∧ m.bytePermission.data (addr.toNat + k) &&& permWrite ≠ 0 :=
  Nat.forall_lt_succ_right

/-- The permissions of a byte of the range. -/
lemma perm_get_of_fits (hm : m.Backed) {addr : U64} {n k : ℕ} (h : m.Fits addr n) (hk : k < n) :
    m.bytePermission.get (addr + BitVec.ofNat 64 k)
      = .ok (m.bytePermission.data (addr.toNat + k)) := by
  rw [ByteVec.get_of_lt (hm.perm ▸ h.index_lt hk), h.toNat_index hk]

lemma ram_get_of_fits (hm : m.Backed) {addr : U64} {n k : ℕ} (h : m.Fits addr n) (hk : k < n) :
    m.ram.get (addr + BitVec.ofNat 64 k) = .ok (m.ram.data (addr.toNat + k)) := by
  rw [ByteVec.get_of_lt (hm.ram ▸ h.index_lt hk), h.toNat_index hk]

lemma canWriteAll_of_fits (hm : m.Backed) {addr : U64} {n : ℕ} (h : m.Fits addr n) :
    m.canWriteAll (forRange addr (addr + BitVec.ofNat 64 n)) = .ok (decide (m.Writable addr n)) := by
  have hloop := @foldlM_forRange_words 64 Bool Fault (fun ok i => do
      let p ← m.bytePermission.get i
      return ok && p &&& permWrite != 0)
    (fun k => decide (m.Writable addr k)) addr n h.lt_two_pow ?_
  · have h0 : decide (m.Writable addr 0) = true := by simp [Writable]
    rw [h0] at hloop
    exact hloop
  · intro k hk
    rw [perm_get_of_fits hm h hk, ok_bind, pure_eq_ok]
    simp only [writable_succ, Bool.decide_and, bne, decide_not, Bool.beq_eq_decide_eq]

/-- The loop that writes. -/
lemma writeLoop_of_fits (hm : m.Backed) {addr : U64} {buf : List U8}
    (h : m.Fits addr buf.length) :
    (forRange addr (addr + BitVec.ofNat 64 buf.length)).foldlM (fun m i => do
        let b ← orFault Fault.outOfBounds buf[(i - addr).toNat]?
        m.writeByte i b) m
      = .ok (m.written addr buf) := by
  have hloop := @foldlM_forRange_words 64 MMU Fault (fun m i => do
      let b ← orFault Fault.outOfBounds buf[(i - addr).toNat]?
      m.writeByte i b)
    (fun k => m.withContents (overlay m.ram.data addr.toNat (buf.take k))
      (mapOn initialised m.bytePermission.data addr.toNat k)) addr buf.length h.lt_two_pow ?_
  · simpa [written] using hloop
  · intro k hk
    have hbacked := hm.withContents (overlay m.ram.data addr.toNat (buf.take k))
      (mapOn initialised m.bytePermission.data addr.toNat k)
    rw [h.toNat_offset hk, List.getElem?_eq_getElem hk, orFault_some, ok_bind,
      writeByte_of_lt hbacked (h.index_lt hk), h.toNat_index hk, overlay_take_succ _ _ hk,
      mapOn_succ]
    have hperm : mapOn initialised m.bytePermission.data addr.toNat k (addr.toNat + k)
        = m.bytePermission.data (addr.toNat + k) := mapOn_of_not_mem (by omega)
    simp only [withContents_perm, hperm]
    rfl

lemma writeFrom_of_fits (hm : m.Backed) {addr : U64} {buf : List U8}
    (h : m.Fits addr buf.length) :
    m.writeFrom buf addr
      = if m.Writable addr buf.length then .ok (m.written addr buf) else .error .assertFailed := by
  have hsize := m.ramSize.isLt
  have hn : buf.length < 2 ^ 64 := by
    unfold Fits at h
    omega
  have hin : m.inRange addr (BitVec.ofNat 64 buf.length) = true :=
    (inRange_iff m addr hn).mpr (Or.inl h)
  simp only [writeFrom, hin, check_true, ok_bind, canWriteAll_of_fits hm h]
  by_cases hw : m.Writable addr buf.length
  · rw [decide_eq_true hw, check_true, ok_bind, writeLoop_of_fits hm h, if_pos hw]
  · rw [decide_eq_false hw, check_false, error_bind, if_neg hw]

/-- A range that wraps is written without any effect. -/
lemma writeFrom_of_wraps {addr : U64} {buf : List U8} (hn : buf.length < 2 ^ 64)
    (h : m.Wraps addr buf.length) : m.writeFrom buf addr = .ok m := by
  have hin : m.inRange addr (BitVec.ofNat 64 buf.length) = true :=
    (inRange_iff m addr hn).mpr (Or.inr h)
  simp only [writeFrom, hin, check_true, ok_bind, forRange_of_wraps hn h]
  rfl

lemma writeFrom_of_not {addr : U64} {buf : List U8} (hn : buf.length < 2 ^ 64)
    (hf : ¬ m.Fits addr buf.length) (hw : ¬ m.Wraps addr buf.length) :
    m.writeFrom buf addr = .error .assertFailed := by
  have hin : m.inRange addr (BitVec.ofNat 64 buf.length) = false := by
    simpa [hf, hw] using inRange_iff m addr hn
  rw [writeFrom, hin, check_false, error_bind]

/-- What a successful write did. -/
lemma writeFrom_cases (hm : m.Backed) {addr : U64} {buf : List U8} (hn : buf.length < 2 ^ 64)
    (h : m.writeFrom buf addr = .ok m') :
    (m.Fits addr buf.length ∧ m.Writable addr buf.length ∧ m' = m.written addr buf)
      ∨ (m.Wraps addr buf.length ∧ m' = m) := by
  by_cases hf : m.Fits addr buf.length
  · rw [writeFrom_of_fits hm hf] at h
    split_ifs at h with hwr
    · exact Or.inl ⟨hf, hwr, (Except.ok.inj h).symm⟩
  · by_cases hw : m.Wraps addr buf.length
    · rw [writeFrom_of_wraps hn hw] at h
      exact Or.inr ⟨hw, (Except.ok.inj h).symm⟩
    · rw [writeFrom_of_not hn hf hw] at h
      simp at h

/-! ## Reading -/

/-- The bytes of RAM from `addr` on. -/
def bytesAt (m : MMU) (addr : U64) (n : ℕ) : List U8 :=
  (List.range n).map fun k => m.ram.data (addr.toNat + k)

@[simp] lemma length_bytesAt (m : MMU) (addr : U64) (n : ℕ) : (m.bytesAt addr n).length = n := by
  simp [bytesAt]

/-- What a load of the range reports. -/
def readOutcome (m : MMU) (addr : U64) (n : ℕ) : ReturnException :=
  readException
    (decide (∀ k < n, m.bytePermission.data (addr.toNat + k) &&& permRead ≠ 0),
      decide (∃ k < n, m.bytePermission.data (addr.toNat + k) &&& permRaw ≠ 0))

lemma readException_uninitialised_iff {p : Bool × Bool} :
    readException p = .UninitializedMemoryAccess ↔ p.2 = true := by
  rcases p with ⟨_ | _, _ | _⟩ <;> decide

lemma readException_normal_iff {p : Bool × Bool} :
    readException p = .NormalExecutionReturn ↔ p.1 = true ∧ p.2 = false := by
  rcases p with ⟨_ | _, _ | _⟩ <;> decide

/-- An uninitialised byte counts more than anything else. -/
lemma readOutcome_uninitialised_iff {addr : U64} {n : ℕ} :
    m.readOutcome addr n = .UninitializedMemoryAccess
      ↔ ∃ k < n, m.bytePermission.data (addr.toNat + k) &&& permRaw ≠ 0 := by
  rw [readOutcome, readException_uninitialised_iff, decide_eq_true_iff]

lemma readOutcome_normal_iff {addr : U64} {n : ℕ} :
    m.readOutcome addr n = .NormalExecutionReturn
      ↔ (∀ k < n, m.bytePermission.data (addr.toNat + k) &&& permRead ≠ 0)
        ∧ ∀ k < n, m.bytePermission.data (addr.toNat + k) &&& permRaw = 0 := by
  rw [readOutcome, readException_normal_iff, decide_eq_true_iff, decide_eq_false_iff_not]
  simp only [not_exists, not_and, not_not]

lemma readPerms_of_fits (hm : m.Backed) {addr : U64} {n : ℕ} (h : m.Fits addr n) :
    readException <$> m.readPerms (forRange addr (addr + BitVec.ofNat 64 n))
      = .ok (m.readOutcome addr n) := by
  have hloop := @foldlM_forRange_words 64 (Bool × Bool) Fault (fun acc i => do
      let p ← m.bytePermission.get i
      return (acc.1 && p &&& permRead != 0, acc.2 || p &&& permRaw != 0))
    (fun k =>
      (decide (∀ j < k, m.bytePermission.data (addr.toNat + j) &&& permRead ≠ 0),
        decide (∃ j < k, m.bytePermission.data (addr.toNat + j) &&& permRaw ≠ 0)))
    addr n h.lt_two_pow ?_
  · simp only [not_lt_zero, IsEmpty.forall_iff, implies_true, decide_true, false_and, exists_false,
      decide_false] at hloop
    rw [readPerms, hloop]
    rfl
  · intro k hk
    rw [perm_get_of_fits hm h hk, ok_bind, pure_eq_ok]
    simp only [Nat.forall_lt_succ_right, Nat.exists_lt_succ_right, Bool.decide_and,
      Bool.decide_or, bne, Bool.beq_eq_decide_eq, decide_not]

/-- The loop that copies the bytes out. -/
lemma readLoop_of_fits (hm : m.Backed) {addr : U64} {n : ℕ} (h : m.Fits addr n) :
    (forRange addr (addr + BitVec.ofNat 64 n)).foldlM (fun bytes i => do
        let b ← m.ram.get i
        return bytes.set (i - addr).toNat b) (List.replicate n 0)
      = (.ok (m.bytesAt addr n) : Except Fault (List U8)) := by
  have hloop := @foldlM_forRange_words 64 (List U8) Fault (fun bytes i => do
      let b ← m.ram.get i
      return bytes.set (i - addr).toNat b)
    (fun k => m.bytesAt addr k ++ List.replicate (n - k) 0) addr n h.lt_two_pow ?_
  · simpa [bytesAt] using hloop
  · intro k hk
    have hrep : List.replicate (n - k) (0 : U8) = 0 :: List.replicate (n - (k + 1)) 0 := by
      rw [← List.replicate_succ]
      congr 1
      omega
    rw [ram_get_of_fits hm h hk, ok_bind, h.toNat_offset hk, pure_eq_ok, hrep,
      List.set_append_right _ _ (by simp)]
    simp [bytesAt, List.range_succ]

lemma readTo_of_fits (hm : m.Backed) {addr : U64} {n : ℕ} (h : m.Fits addr n) :
    m.readTo addr (BitVec.ofNat 64 n) = .ok (m.bytesAt addr n, m.readOutcome addr n) := by
  have hsize := m.ramSize.isLt
  have hmax := hm.size
  have hn : n < 2 ^ 64 := by
    unfold Fits at h
    omega
  have hin : m.inRange addr (BitVec.ofNat 64 n) = true := (inRange_iff m addr hn).mpr (Or.inl h)
  have hlen : (BitVec.ofNat 64 n).toNat = n := by
    rw [BitVec.toNat_ofNat, Nat.mod_eq_of_lt hn]
  have hle : n ≤ maxVectorSize := by
    unfold Fits at h
    omega
  have hperms := readPerms_of_fits hm h
  cases hp : m.readPerms (forRange addr (addr + BitVec.ofNat 64 n)) with
  | error e => simp [hp] at hperms
  | ok acc =>
      rw [hp] at hperms
      have hexp : readException acc = m.readOutcome addr n := Except.ok.inj hperms
      simp only [readTo, hin, check_true, ok_bind, hlen, decide_eq_true hle, hp,
        readLoop_of_fits hm h, hexp]
      rfl

/-- A range that wraps is read as zeros, and nothing is reported. -/
lemma readTo_of_wraps {addr : U64} {n : ℕ} (hn : n ≤ maxVectorSize) (h : m.Wraps addr n) :
    m.readTo addr (BitVec.ofNat 64 n) = .ok (List.replicate n 0, .NormalExecutionReturn) := by
  have hn' : n < 2 ^ 64 := lt_of_le_of_lt hn (by decide)
  have hin : m.inRange addr (BitVec.ofNat 64 n) = true := (inRange_iff m addr hn').mpr (Or.inr h)
  have hlen : (BitVec.ofNat 64 n).toNat = n := by
    rw [BitVec.toNat_ofNat, Nat.mod_eq_of_lt hn']
  simp only [readTo, hin, check_true, ok_bind, hlen, decide_eq_true hn, forRange_of_wraps hn' h]
  rfl

lemma readTo_of_not {addr : U64} {n : ℕ} (hn : n < 2 ^ 64) (hf : ¬ m.Fits addr n)
    (hw : ¬ m.Wraps addr n) : m.readTo addr (BitVec.ofNat 64 n) = .error .assertFailed := by
  have hin : m.inRange addr (BitVec.ofNat 64 n) = false := by
    simpa [hf, hw] using inRange_iff m addr hn
  rw [readTo, hin, check_false, error_bind]

/-! ## Loads and stores -/

/-- The number of bytes of an access of the given number of bits. -/
def sizeBytes : ℕ → Option ℕ
  | 8 => some 1
  | 16 => some 2
  | 32 => some 4
  | 64 => some 8
  | _ => none

lemma sizeBytes_le {sz n : ℕ} (h : sizeBytes sz = some n) : 0 < n ∧ n ≤ 8 := by
  unfold sizeBytes at h
  split at h <;> simp_all <;> omega

lemma load_eq {sz n : ℕ} (h : sizeBytes sz = some n) (addr : U64) :
    m.load addr sz = loadBytes n m addr := by
  unfold sizeBytes at h
  split at h <;> simp only [Option.some.injEq, reduceCtorEq] at h <;> subst h <;> rfl

/-- Marking the block of an address. -/
def mark (m : MMU) (addr : U64) : MMU :=
  { m with dirtyBlocks := m.dirtyBlocks.insert (addr / blockSize) }

lemma store_eq {sz n : ℕ} (h : sizeBytes sz = some n) (addr data : U64) :
    m.store addr data sz
      = (m.storeBytes n addr data >>= fun m => .ok (.NormalExecutionReturn, m.mark addr)) := by
  unfold sizeBytes at h
  split at h <;> simp only [Option.some.injEq, reduceCtorEq] at h <;> subst h <;> rfl

/-- An access of another size fails its assertion. -/
lemma load_of_size {sz : ℕ} (h : sizeBytes sz = none) (addr : U64) :
    m.load addr sz = .error .assertFailed := by
  unfold sizeBytes at h
  split at h <;> simp only [reduceCtorEq] at h
  simp [load, *]

lemma store_of_size {sz : ℕ} (h : sizeBytes sz = none) (addr data : U64) :
    m.store addr data sz = .error .assertFailed := by
  unfold sizeBytes at h
  split at h <;> simp only [reduceCtorEq] at h
  simp [store, *]

@[simp] lemma length_split (n : ℕ) (data : U64) : (split n data).length = n := by
  simp [split]

lemma getElem_split {n k : ℕ} (data : U64) (hk : k < (split n data).length) :
    (split n data)[k] = (data >>> (8 * k)).setWidth 8 := by
  have hmask : ∀ x : U8, x &&& 255#8 = x := by decide
  simp [split, hmask]

lemma assemble_replicate_zero {sz n : ℕ} (h : sizeBytes sz = some n) :
    assemble (List.replicate n 0) = 0 := by
  unfold sizeBytes at h
  split at h <;> simp only [Option.some.injEq, reduceCtorEq] at h <;> subst h <;> rfl

section Access

variable {sz n : ℕ} {addr data : U64}

lemma load_of_fits (hm : m.Backed) (hsz : sizeBytes sz = some n) (h : m.Fits addr n) :
    m.load addr sz = .ok (assemble (m.bytesAt addr n), m.readOutcome addr n) := by
  rw [load_eq hsz, loadBytes, readTo_of_fits hm h, ok_bind]
  rfl

/-- A load whose range wraps reads zero. -/
lemma load_of_wraps (hsz : sizeBytes sz = some n) (h : m.Wraps addr n) :
    m.load addr sz = .ok (0, .NormalExecutionReturn) := by
  have hn := (sizeBytes_le hsz).2
  have hmax : n ≤ maxVectorSize := le_trans hn (by decide)
  rw [load_eq hsz, loadBytes, readTo_of_wraps hmax h, ok_bind]
  simp only [assemble_replicate_zero hsz]
  rfl

lemma load_of_not (hsz : sizeBytes sz = some n) (hf : ¬ m.Fits addr n) (hw : ¬ m.Wraps addr n) :
    m.load addr sz = .error .assertFailed := by
  have hn := (sizeBytes_le hsz).2
  rw [load_eq hsz, loadBytes, readTo_of_not (by omega) hf hw, error_bind]

lemma store_of_fits (hm : m.Backed) (hsz : sizeBytes sz = some n) (h : m.Fits addr n) :
    m.store addr data sz
      = if m.Writable addr n then
          .ok (.NormalExecutionReturn, (m.written addr (split n data)).mark addr)
        else .error .assertFailed := by
  rw [store_eq hsz, storeBytes, writeFrom_of_fits hm (by simpa using h)]
  by_cases hw : m.Writable addr n <;> simp [hw]

/-- A store whose range wraps only marks a block. -/
lemma store_of_wraps (hsz : sizeBytes sz = some n) (h : m.Wraps addr n) :
    m.store addr data sz = .ok (.NormalExecutionReturn, m.mark addr) := by
  have hn := (sizeBytes_le hsz).2
  rw [store_eq hsz, storeBytes, writeFrom_of_wraps (by simp; omega) (by simpa using h), ok_bind]

lemma store_of_not (hsz : sizeBytes sz = some n) (hf : ¬ m.Fits addr n) (hw : ¬ m.Wraps addr n) :
    m.store addr data sz = .error .assertFailed := by
  have hn := (sizeBytes_le hsz).2
  rw [store_eq hsz, storeBytes,
    writeFrom_of_not (by simp; omega) (by simpa using hf) (by simpa using hw), error_bind]

/-- What a successful store did. -/
lemma store_cases (hm : m.Backed) {r : ReturnException}
    (h : m.store addr data sz = .ok (r, m')) :
    r = .NormalExecutionReturn ∧ ∃ n, sizeBytes sz = some n ∧
      ((m.Fits addr n ∧ m.Writable addr n ∧ m' = (m.written addr (split n data)).mark addr)
        ∨ (m.Wraps addr n ∧ m' = m.mark addr)) := by
  cases hsz : sizeBytes sz with
  | none =>
      rw [store_of_size hsz] at h
      simp at h
  | some n =>
      by_cases hf : m.Fits addr n
      · rw [store_of_fits hm hsz hf] at h
        split_ifs at h with hwr
        simp only [Except.ok.injEq, Prod.mk.injEq] at h
        exact ⟨h.1.symm, n, rfl, Or.inl ⟨hf, hwr, h.2.symm⟩⟩
      · by_cases hw : m.Wraps addr n
        · rw [store_of_wraps hsz hw] at h
          simp only [Except.ok.injEq, Prod.mk.injEq] at h
          exact ⟨h.1.symm, n, rfl, Or.inr ⟨hw, h.2.symm⟩⟩
        · rw [store_of_not hsz hf hw] at h
          simp at h

end Access

/-! ## A uniform memory -/

/-- A memory of zeros in which every byte has the same permissions. -/
def uniform (ramSize : U64) (perm : U8) : MMU where
  ram := ⟨0, ramSize.toNat, fun _ => 0⟩
  bytePermission := ⟨0, ramSize.toNat, fun _ => perm⟩
  dirtyBlocks := []
  ramSize := ramSize
  allocPtr := 0x10000

lemma backed_uniform {ramSize : U64} (h : ramSize.toNat ≤ maxVectorSize) (perm : U8) :
    (uniform ramSize perm).Backed := ⟨rfl, rfl, h⟩

end MMU

end Vemu
