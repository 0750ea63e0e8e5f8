import Vemu.Frame
import Vemu.Lib.ByteMemory
import Vemu.MMU.Admission
import Vemu.MMU.Shape

/-!
# Loads and stores of words

The RAM array is a byte memory, and the four loads and the four stores are those of a byte
memory with little-endian words (`written_eq_store`, `load_eq_word`), for every width and every
overlap.  **`store_refines`** says so of every memory that can be made, next to what a store
leaves alone.  What was stored is therefore read back (**`reload`**).
-/

namespace Vemu

open Fallible Loop

namespace MMU

variable {m m' : MMU} {addr data b : U64} {sz sz' n n' : ℕ}

/-- The number of up to eight bytes. -/
lemma toNat_assemble {bytes : List U8} (h : bytes.length ≤ 8) :
    (assemble bytes).toNat = LittleEndian.value bytes := by
  have hfold := LittleEndian.toNat_foldl_or bytes 0 (0 : U64) (by simp) (by omega)
  simpa [assemble] using hfold

/-- The four bytes of a word make it up again. -/
lemma assemble_word (w : U32) :
    (assemble ((List.range 4).map fun k => w.extractLsb' (8 * k) 8)).setWidth 32 = w := by
  have hw := w.isLt
  apply BitVec.eq_of_toNat_eq
  rw [BitVec.toNat_setWidth, toNat_assemble (by simp)]
  simp only [List.range_succ, List.range_zero, List.nil_append, List.cons_append, List.map_cons,
    List.map_nil, LittleEndian.value_cons, LittleEndian.value_nil, BitVec.extractLsb'_toNat,
    Nat.shiftRight_eq_div_pow]
  omega

lemma digit_toNat (data : U64) (k : ℕ) :
    ByteMemory.digit data.toNat k = (data >>> (8 * k)).setWidth 8 := by
  have hbase : 2 ^ (8 * k) = 256 ^ k := pow_mul 2 8 k
  apply BitVec.eq_of_toNat_eq
  rw [ByteMemory.digit, BitVec.toNat_ofNat, BitVec.toNat_setWidth, BitVec.toNat_ushiftRight,
    Nat.shiftRight_eq_div_pow, hbase]

/-- **A store is one of the byte memory.** -/
lemma written_eq_store (m : MMU) (addr data : U64) (n : ℕ) :
    (m.written addr (split n data)).ram.data
      = ByteMemory.store m.ram.data addr.toNat n data.toNat := by
  change overlay m.ram.data addr.toNat (split n data) = _
  funext k
  by_cases hk : addr.toNat ≤ k ∧ k < addr.toNat + n
  · have hlen : k - addr.toNat < (split n data).length := by
      rw [length_split]
      omega
    rw [overlay_of_mem hk.1 hlen, getElem_split, ByteMemory.store_of_mem hk, digit_toNat]
  · rw [overlay_of_not_mem (by rwa [length_split]), ByteMemory.store_of_not_mem hk]

/-- **A load is one of the byte memory**, whatever it reports. -/
lemma load_eq_word (hm : m.Backed) (hsz : sizeBytes sz = some n) (hfit : m.Fits addr n) :
    ∃ v e, m.load addr sz = .ok (v, e) ∧ v.toNat = ByteMemory.load m.ram.data addr.toNat n := by
  refine ⟨_, _, load_of_fits hm hsz hfit, ?_⟩
  rw [toNat_assemble (by rw [length_bytesAt]; exact (sizeBytes_le hsz).2)]
  rfl

/-! ## One store -/

/-- Each of the `n` bytes has a permission, and it includes `PERM_WRITE`. -/
def HasWrite (m : MMU) (addr : U64) (n : ℕ) : Prop :=
  ∀ i < n, ∃ p, m.bytePermission.get (addr + BitVec.ofNat 64 i) = .ok p ∧ p &&& permWrite ≠ 0

/-- **The specification** of a store of the lowest `n` bytes of a number, and of the loads
after it. -/
structure StoresWord (m : MMU) (addr data : U64) (n : ℕ) (m' : MMU) : Prop where
  bytes : ∀ i < n, m'.ram.data (addr.toNat + i) = data.extractLsb' (8 * i) 8
  ram : ∀ k, ¬ (addr.toNat ≤ k ∧ k < addr.toNat + n) → m'.ram.data k = m.ram.data k
  perm : ∀ k, ¬ (addr.toNat ≤ k ∧ k < addr.toNat + n) →
    m'.bytePermission.data k = m.bytePermission.data k
  loads : ∀ b sz' n', sizeBytes sz' = some n' → m'.Fits b n' → ∃ v e, m'.load b sz' = .ok (v, e)
    ∧ v.toNat = LittleEndian.value ((List.range n').map fun i => m'.ram.data (b.toNat + i))
  keeps : ∀ bus : Bus, bus.mmu = m' → ∀ b sz' r bus', bus.load b sz' = .ok (r, bus') →
    bus'.mmu = m'

lemma storesWord_written (hm : m.Backed) (addr data : U64) (n : ℕ) :
    StoresWord m addr data n ((m.written addr (split n data)).mark addr) where
  bytes := by
    intro i hi
    rw [written_data hi]
    apply BitVec.eq_of_toNat_eq
    simp
  ram := fun k hk => overlay_of_not_mem (by rwa [length_split])
  perm := fun k hk => mapOn_of_not_mem (by rwa [length_split])
  loads := fun b sz' n' hsz' hfit' => by
    have hm' : ((m.written addr (split n data)).mark addr).Backed := ⟨hm.ram, hm.perm, hm.size⟩
    exact load_eq_word hm' hsz' hfit'
  keeps := fun bus hbus b sz' r bus' h => (Bus.load_leaves h).1.trans hbus

/-- In a memory that can be made, bytes that have a permission have storage. -/
lemma HasWrite.writable (hmade : m.Made) (hfit : m.Fits addr n) (hn : 0 < n)
    (h : m.HasWrite addr n) : m.Backed ∧ m.Writable addr n := by
  obtain ⟨p, hp, -⟩ := h 0 hn
  refine ⟨hmade.backed hp, fun i hi => ?_⟩
  have hsize := m.ramSize.isLt
  unfold Fits at hfit
  obtain ⟨p, hp, hwrite⟩ := h i hi
  unfold ByteVec.get at hp
  split_ifs at hp
  obtain rfl := Except.ok.inj hp
  rwa [toNat_add_ofNat_of_le (by omega)] at hwrite

/-- **Memory is a little-endian byte memory.**  A store inside RAM to bytes that can be written
goes through, sets those bytes and no others, and every load after it returns the little-endian
number of the bytes that are there then. -/
theorem store_refines (hmade : m.Made) (hsz : sizeBytes sz = some n) (hfit : m.Fits addr n)
    (hwrite : m.HasWrite addr n) (data : U64) :
    ∃ m', m.store addr data sz = .ok (.NormalExecutionReturn, m')
      ∧ StoresWord m addr data n m' := by
  obtain ⟨hm, hw⟩ := hwrite.writable hmade hfit (sizeBytes_le hsz).1
  refine ⟨_, ?_, storesWord_written hm addr data n⟩
  rw [store_of_fits hm hsz hfit, if_pos hw]

/-- A dword at the first address of a page of zeros. -/
theorem store_refines_dword :
    ∃ m', (uniform 4096 6).store 0 0x1122334455667788 64 = .ok (.NormalExecutionReturn, m')
      ∧ StoresWord (uniform 4096 6) 0 0x1122334455667788 8 m' := by
  have hmade : (uniform 4096 6).Made := .new (show MMU.new 4096 (fun _ => 0) (fun _ => 6) = _ from rfl)
  refine store_refines hmade rfl (by decide) (fun i hi => ⟨6, ?_, by decide⟩) _
  interval_cases i <;> rfl

/-! ## Loads after a store -/

/-- **What was stored is read back**, up to its size. -/
theorem reload (hm : m.Backed) (hsz : sizeBytes sz = some n) (hfit : m.Fits addr n) :
    ∃ v e, ((m.written addr (split n data)).mark addr).load addr sz = .ok (v, e)
      ∧ v.toNat = data.toNat % 256 ^ n := by
  obtain ⟨v, e, hload, hv⟩ := @load_eq_word ((m.written addr (split n data)).mark addr) addr sz n
    ⟨hm.ram, hm.perm, hm.size⟩ hsz hfit
  refine ⟨v, e, hload, ?_⟩
  change v.toNat = ByteMemory.load (m.written addr (split n data)).ram.data addr.toNat n at hv
  rw [hv, written_eq_store, ByteMemory.load_store_self]

end MMU

end Vemu
