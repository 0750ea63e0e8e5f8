import Vemu.MMU.Reset

/-!
# Whether the marked blocks are complete

A memory is *complete* for a snapshot when every difference of its RAM from the snapshot's lies
in a marked block, and resetting it to the snapshot goes through and gives the snapshot's RAM.

Operations lose completeness in three ways: a store that runs over the end of a block marks the
first block only; `write_from` marks nothing; and the last block of a RAM that is not a whole
number of blocks, once marked, makes the reset leave RAM.  `Recordable` is the condition, on an
operation and the memory before it, that none of this happens.  **`complete_run_iff`**: a run
that starts from the snapshot's RAM with nothing marked keeps the memory complete exactly if
every step is recordable.
-/

namespace Vemu

open Fallible Loop Transition

namespace MMU

variable {m m' b : MMU}

/-- The marked blocks are complete for the snapshot `b`. -/
structure Complete (b m : MMU) : Prop where
  recorded : ∀ i < m.ramSize.toNat, m.ram.data i ≠ b.ram.data i → blockOf i ∈ m.dirtyBlocks
  /-- Resetting goes through, hence stays inside RAM, and restores all of it. -/
  restored : ∃ m', m.resetTo b = .ok m' ∧
    ∀ i < m.ramSize.toNat, m'.ram.data i = b.ram.data i

/-- A byte written to an index is the snapshot's, or its block is marked already. -/
def Covered (b m : MMU) (i : ℕ) (v : U8) : Prop :=
  v = b.ram.data i ∨ blockOf i ∈ m.dirtyBlocks

/-- **The condition on a step.**  A store inside RAM marks a block inside RAM, and each of its
bytes is in that block or is covered; each byte of a `write_from` inside RAM is covered. -/
def Recordable (b m : MMU) : Op → Prop
  | .store addr data sz => ∀ n, sizeBytes sz = some n → m.Fits addr n →
      m.InsideRam (blockOf addr.toNat) ∧
        ∀ k < n, blockOf (addr.toNat + k) = blockOf addr.toNat
          ∨ Covered b m (addr.toNat + k) ((data >>> (8 * k)).setWidth 8)
  | .writeFrom buf _ startAddr => m.Fits startAddr buf.length →
      ∀ k, (hk : k < buf.length) → Covered b m (startAddr.toNat + k) buf[k]
  | .setPerms _ _ _ => True
  | .allocate _ => True

/-- Completeness without the reset. -/
lemma complete_iff (h : Resettable b m) :
    Complete b m
      ↔ (∀ i < m.ramSize.toNat, m.ram.data i ≠ b.ram.data i → blockOf i ∈ m.dirtyBlocks)
        ∧ ∀ blk ∈ m.dirtyBlocks, m.InsideRam blk ∨ blk = lastBlock := by
  constructor
  · rintro ⟨hrec, m', hm', -⟩
    exact ⟨hrec, (resetTo_ok_iff h).mp ⟨m', hm'⟩⟩
  · rintro ⟨hrec, hin⟩
    obtain ⟨m', hm'⟩ := (resetTo_ok_iff h).mpr hin
    refine ⟨hrec, m', hm', ?_⟩
    intro i hi
    rw [resetTo_ram h hm' hi]
    split_ifs with hblk
    · rfl
    · by_contra hne
      exact hblk (hrec i hi hne)

/-! ## One step -/

/-- Writing bytes keeps every difference recorded, in a larger set of blocks, exactly if each of
the bytes is the snapshot's or in one of the blocks. -/
lemma recorded_overlay_iff (b : MMU) {addr : U64} {bs : List U8} (blocks : List U64)
    (hrec : ∀ i < m.ramSize.toNat, m.ram.data i ≠ b.ram.data i → blockOf i ∈ m.dirtyBlocks)
    (hfit : m.Fits addr bs.length) (hsub : ∀ blk ∈ m.dirtyBlocks, blk ∈ blocks) :
    (∀ i < m.ramSize.toNat,
        overlay m.ram.data addr.toNat bs i ≠ b.ram.data i → blockOf i ∈ blocks)
      ↔ ∀ k, (hk : k < bs.length) →
          bs[k] = b.ram.data (addr.toNat + k) ∨ blockOf (addr.toNat + k) ∈ blocks := by
  unfold Fits at hfit
  constructor
  · intro h k hk
    by_cases heq : bs[k] = b.ram.data (addr.toNat + k)
    · exact Or.inl heq
    · right
      refine h (addr.toNat + k) (by omega) ?_
      rw [overlay_of_mem (by omega) (by omega)]
      simpa using heq
  · intro h i hi hne
    by_cases hin : addr.toNat ≤ i ∧ i < addr.toNat + bs.length
    · rw [overlay_of_mem hin.1 (by omega)] at hne
      have hk := h (i - addr.toNat) (by omega)
      rw [show addr.toNat + (i - addr.toNat) = i by omega] at hk
      exact hk.resolve_left hne
    · rw [overlay_of_not_mem hin] at hne
      exact hsub _ (hrec i hi hne)

lemma recordable_store_iff {addr data : U64} {sz n : ℕ} (hsz : sizeBytes sz = some n) :
    Recordable b m (.store addr data sz)
      ↔ (m.Fits addr n → m.InsideRam (blockOf addr.toNat) ∧
          ∀ k < n, blockOf (addr.toNat + k) = blockOf addr.toNat
            ∨ Covered b m (addr.toNat + k) ((data >>> (8 * k)).setWidth 8)) := by
  simp only [Recordable, hsz, Option.some.injEq, forall_eq']

/-- A store inside RAM writes the bytes and marks the block of the first one. -/
lemma recorded_store_iff {addr data : U64} {n : ℕ}
    (hrec : ∀ i < m.ramSize.toNat, m.ram.data i ≠ b.ram.data i → blockOf i ∈ m.dirtyBlocks)
    (hfit : m.Fits addr n) :
    (∀ i < m.ramSize.toNat, overlay m.ram.data addr.toNat (split n data) i ≠ b.ram.data i →
        blockOf i ∈ (m.mark addr).dirtyBlocks)
      ↔ ∀ k < n, blockOf (addr.toNat + k) = blockOf addr.toNat
          ∨ Covered b m (addr.toNat + k) ((data >>> (8 * k)).setWidth 8) := by
  have hfit' : m.Fits addr (split n data).length := by simpa using hfit
  refine (recorded_overlay_iff b _ hrec hfit' fun blk hblk => mem_mark.mpr (Or.inr hblk)).trans ?_
  simp only [length_split, getElem_split, mem_mark, Covered]
  exact forall₂_congr fun k _ => or_left_comm

/-- **One step** keeps completeness exactly if it is recordable. -/
lemma complete_step (h : Resettable b m) (hc : Complete b m) {op : Op}
    (hok : m.applyOp op = .ok m') : Complete b m' ↔ Recordable b m op := by
  have h' := resettable_step h hok
  obtain ⟨hrec, hin⟩ := (complete_iff h).mp hc
  have hcase := applyOp_cases h.backed hok
  rw [complete_iff h']
  cases op with
  | store addr data sz =>
      obtain ⟨n, hsz, ⟨hfit, -, rfl⟩ | ⟨hwrap, rfl⟩⟩ := hcase
      · rw [recordable_store_iff hsz, forall_prop_of_true hfit]
        exact (and_congr (recorded_store_iff hrec hfit) (marks_inside_iff h hfit hin)).trans and_comm
      · -- the range wraps: nothing is written, the last block of the address space is marked
        rw [recordable_store_iff hsz]
        refine iff_of_true ⟨?_, marks_inside_of_wraps (sizeBytes_le hsz).2 hwrap hin⟩ ?_
        · intro i hi hne
          exact mem_mark.mpr (Or.inr (hrec i hi hne))
        · intro hfit
          exact absurd hfit (not_fits_of_wraps hwrap)
  | writeFrom buf hbuf startAddr =>
      obtain ⟨hfit, -, rfl⟩ | ⟨hwrap, rfl⟩ := hcase
      · have hover := recorded_overlay_iff b m.dirtyBlocks hrec hfit
          (fun _ hblk => hblk)
        refine Iff.trans (and_iff_left hin) (hover.trans ?_)
        exact ⟨fun hb _ => hb, fun hb => hb hfit⟩
      · refine iff_of_true ⟨hrec, hin⟩ ?_
        intro hfit
        exact absurd hfit (not_fits_of_wraps hwrap)
  | setPerms addr size perm =>
      obtain ⟨-, rfl⟩ := hcase
      exact iff_of_true ⟨hrec, hin⟩ trivial
  | allocate size =>
      obtain ⟨-, rfl⟩ := hcase
      exact iff_of_true ⟨hrec, hin⟩ trivial

/-! ## Runs -/

/-- Every memory is complete for a snapshot of the same RAM, with nothing marked. -/
lemma complete_start (h : Resettable b m)
    (hram : ∀ i < m.ramSize.toNat, m.ram.data i = b.ram.data i) (hclean : m.dirtyBlocks = []) :
    Complete b m := by
  rw [complete_iff h, hclean]
  exact ⟨fun i hi hne => absurd (hram i hi) hne, by simp⟩

/-- **A run keeps the marked blocks complete exactly if every step of it is recordable.** -/
theorem complete_run_iff (hm : m.Backed) (hb : b.Backed) (hsize : m.ramSize = b.ramSize)
    (hram : ∀ i < m.ramSize.toNat, m.ram.data i = b.ram.data i) (hclean : m.dirtyBlocks = [])
    (ops : List Op) :
    AllStates applyOp (Complete b) m ops ↔ AllSteps applyOp (Recordable b) m ops := by
  have h : Resettable b m := ⟨hm, hb, hsize, by simp [hclean]⟩
  exact allStates_iff_allSteps (fun _ _ _ hs hok => resettable_step hs hok)
    (fun _ _ _ hs hc hok => complete_step hs hc hok) ops h (complete_start h hram hclean)

/-- A store inside its block keeps the marked blocks complete. -/
theorem complete_run_aligned :
    AllStates applyOp (Complete (uniform 12288 6)) (uniform 12288 6) [.store 0 1 64] := by
  have hu : (uniform 12288 6).Backed := backed_uniform (by decide) 6
  refine (complete_run_iff hu hu rfl (fun _ _ => rfl) rfl _).mpr fun s' _ => ⟨?_, trivial⟩
  intro n hsz _
  obtain rfl : 8 = n := Option.some.inj hsz
  refine ⟨by decide, fun k hk => Or.inl ?_⟩
  interval_cases k <;> rfl

/-- A store over the end of a block loses its second half, and `write_from` loses everything. -/
theorem not_complete_run_straddling :
    ¬ AllStates applyOp (Complete (uniform 12288 6)) (uniform 12288 6)
        [.store 4094 0xFFFFFFFF 32]
      ∧ ¬ AllStates applyOp (Complete (uniform 12288 6)) (uniform 12288 6)
        [.writeFrom [1] (by decide) 0] := by
  constructor
  · intro h
    have hrec := (h.2 _ rfl).recorded 4096 (by decide) (by decide)
    revert hrec
    decide
  · intro h
    have hrec := (h.2 _ rfl).recorded 0 (by decide) (by decide)
    revert hrec
    decide

end MMU

end Vemu
