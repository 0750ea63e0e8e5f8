import Vemu.MMU.Shape

/-!
# What resetting does

`resetTo` copies the marked blocks back from another memory and forgets the marks.  It goes
through exactly when every marked block lies inside RAM (`resetTo_ok_iff`; the last block of
the address space counts as well, because the loop over it is empty), and then RAM is the other
memory's on the marked blocks and unchanged elsewhere (`resetTo_ram`).  It never touches the
permissions or the allocation pointer (`resetTo_frame`).
-/

namespace Vemu

open Fallible Loop

namespace MMU

variable {m m' b : MMU} {ram ram' : ByteVec}

/-- A memory of the shape that the operations leave, next to the one it is to be reset to. -/
structure Resettable (b m : MMU) : Prop where
  backed : m.Backed
  other : b.Backed
  ramSize : m.ramSize = b.ramSize
  blocks : ∀ blk ∈ m.dirtyBlocks, IsBlock blk

lemma Resettable.capacity_lt (h : Resettable b m) : b.ram.capacity < 2 ^ 63 := by
  have hsize := h.other.size
  unfold maxVectorSize at hsize
  rw [h.other.ram]
  omega

/-- Operations keep a memory resettable. -/
lemma resettable_step (h : Resettable b m) {op : Op} (hok : m.applyOp op = .ok m') :
    Resettable b m' := by
  have hshape := applyOp_sameShape hok
  refine ⟨hshape.backed h.backed, h.other, hshape.ramSize.trans h.ramSize, ?_⟩
  intro blk hblk
  exact (applyOp_dirtyBlocks hok hblk).elim (h.blocks blk) id

lemma toNat_blockStart {blk : U64} (h : IsBlock blk) :
    (blk * blockSize).toNat = blk.toNat * 4096 := by
  unfold IsBlock at h
  rw [BitVec.toNat_mul, blockSize_toNat, Nat.mod_eq_of_lt (by omega)]

lemma toNat_blockEnd {blk : U64} (h : IsBlock blk) (hlast : blk ≠ lastBlock) :
    (blk * blockSize + blockSize).toNat = blk.toNat * 4096 + 4096 := by
  have hne : blk.toNat ≠ 2 ^ 52 - 1 := fun h' => hlast (BitVec.eq_of_toNat_eq h')
  unfold IsBlock at h
  rw [BitVec.toNat_add, toNat_blockStart h, blockSize_toNat, Nat.mod_eq_of_lt (by omega)]

/-- The last index of a block. -/
lemma toNat_blockTop {blk : U64} (h : IsBlock blk) :
    (blk * blockSize + 4095).toNat = blk.toNat * 4096 + 4095 := by
  have hstart := toNat_blockStart h
  unfold IsBlock at h
  rw [BitVec.toNat_add, hstart]
  exact Nat.mod_eq_of_lt (by simp; omega)

/-- The block of the last addresses is not looped over. -/
lemma resetBlock_last : resetBlock b ram lastBlock = .ok ram := by
  have hnil : forRange (lastBlock * blockSize) (lastBlock * blockSize + blockSize) = [] :=
    forRange_eq_nil (by decide)
  simp only [resetBlock, hnil]
  rfl

/-- A block inside both arrays is copied. -/
lemma resetBlock_of_inside {blk : U64} (h : IsBlock blk) (hlast : blk ≠ lastBlock)
    (hb : blk.toNat * 4096 + 4096 ≤ b.ram.capacity)
    (hram : blk.toNat * 4096 + 4096 ≤ ram.capacity) :
    resetBlock b ram blk
      = .ok { ram with data := splice b.ram.data ram.data (blk.toNat * 4096) 4096 } := by
  have hstart := toNat_blockStart h
  have hend := toNat_blockEnd h hlast
  have hloop := @foldlM_forRange 64 ByteVec Fault (fun ram i => do
      let x ← b.ram.get i
      ram.set i x)
    (fun k => { ram with data := splice b.ram.data ram.data (blk.toNat * 4096) k })
    (blk * blockSize) (blk * blockSize + blockSize) ?_
  · rw [hstart, hend, Nat.add_sub_cancel_left] at hloop
    simpa [resetBlock] using hloop
  · intro k hk
    have hi := toNat_add_ofNat hk
    rw [hend, hstart, Nat.add_sub_cancel_left] at hk
    rw [hstart] at hi
    rw [ByteVec.get_of_lt (by omega), ok_bind, ByteVec.set_of_lt (by simp only; omega), hi,
      splice_succ]

lemma lt_capacity_of_set {v v' : ByteVec} {i : U64} {x : U8} (h : v.set i x = .ok v') :
    i.toNat < v.capacity := by
  unfold ByteVec.set at h
  split_ifs at h with hi
  exact hi

/-- What a successful copy of a block did. -/
lemma resetBlock_cases {blk : U64} (h : IsBlock blk) (hcap : b.ram.capacity = ram.capacity)
    (hok : resetBlock b ram blk = .ok ram') :
    (blk.toNat * 4096 + 4096 ≤ ram.capacity
        ∧ ram' = { ram with data := splice b.ram.data ram.data (blk.toNat * 4096) 4096 })
      ∨ (blk = lastBlock ∧ ram' = ram) := by
  by_cases hlast : blk = lastBlock
  · subst hlast
    rw [resetBlock_last] at hok
    exact Or.inr ⟨rfl, (Except.ok.inj hok).symm⟩
  · left
    -- the round for the last index of the block is inside the array
    have hstart := toNat_blockStart h
    have hend := toNat_blockEnd h hlast
    have hmem : blk * blockSize + 4095 ∈ forRange (blk * blockSize) (blk * blockSize + blockSize) := by
      rw [mem_forRange, toNat_blockTop h, hstart, hend]
      omega
    have hround := foldlM_round (fun v : ByteVec => v.capacity = ram.capacity) ?_ rfl hok _ hmem
    · obtain ⟨v, v', hv, hvv⟩ := hround
      obtain ⟨x, -, hset⟩ := bind_eq_ok_iff.mp hvv
      have hlt := lt_capacity_of_set hset
      rw [toNat_blockTop h] at hlt
      have hin : blk.toNat * 4096 + 4096 ≤ ram.capacity := by omega
      rw [resetBlock_of_inside h hlast (hcap ▸ hin) hin] at hok
      exact ⟨hin, (Except.ok.inj hok).symm⟩
    · intro v i v' hv hvv
      obtain ⟨x, -, hset⟩ := bind_eq_ok_iff.mp hvv
      exact (ByteVec.set_sameShape hset).capacity.trans hv

/-- The indices of a block. -/
lemma mem_block_iff (blk : U64) {i : ℕ} (hi : i < 2 ^ 64) :
    blk.toNat * 4096 ≤ i ∧ i < blk.toNat * 4096 + 4096 ↔ blockOf i = blk := by
  rw [← BitVec.toNat_inj, toNat_blockOf hi]
  omega

/-- The loop over the marked blocks. -/
lemma resetBlocks_ram (hcap : b.ram.capacity < 2 ^ 63) :
    ∀ {blocks : List U64} {ram ram' : ByteVec}, (∀ blk ∈ blocks, IsBlock blk) →
      blocks.foldlM (resetBlock b) ram = .ok ram' → b.ram.capacity = ram.capacity →
      ram'.capacity = ram.capacity
        ∧ (∀ blk ∈ blocks, blk.toNat * 4096 + 4096 ≤ ram.capacity ∨ blk = lastBlock)
        ∧ ∀ i < ram.capacity,
            ram'.data i = if blockOf i ∈ blocks then b.ram.data i else ram.data i
  | [], ram, ram', _, h, _ => by
      simp only [List.foldlM_nil, pure_eq_ok, Except.ok.injEq] at h
      subst h
      simp
  | blk :: blocks, ram, ram', hblocks, h, hram => by
      rw [List.foldlM_cons] at h
      obtain ⟨ram₁, h₁, h₂⟩ := bind_eq_ok_iff.mp h
      have hblk : IsBlock blk := hblocks blk (by simp)
      have hrest : ∀ blk ∈ blocks, IsBlock blk := fun blk' hmem => hblocks blk' (by simp [hmem])
      rcases resetBlock_cases hblk hram h₁ with ⟨hin, rfl⟩ | ⟨rfl, rfl⟩
      · obtain ⟨hc, hb, hd⟩ := resetBlocks_ram hcap hrest h₂ hram
        refine ⟨hc, ?_, ?_⟩
        · intro blk' hmem
          rcases List.mem_cons.mp hmem with rfl | hmem
          · exact Or.inl hin
          · exact hb blk' hmem
        · intro i hi
          rw [hd i hi]
          have hmem := mem_block_iff blk (show i < 2 ^ 64 by omega)
          by_cases hiblk : blockOf i = blk
          · simp [hiblk, splice_of_mem (hmem.mpr hiblk)]
          · simp [hiblk, splice_of_not_mem fun h' => hiblk (hmem.mp h')]
      · obtain ⟨hc, hb, hd⟩ := resetBlocks_ram hcap hrest h₂ hram
        refine ⟨hc, ?_, ?_⟩
        · intro blk' hmem
          rcases List.mem_cons.mp hmem with rfl | hmem
          · exact Or.inr rfl
          · exact hb blk' hmem
        · intro i hi
          have hne : blockOf i ≠ lastBlock := by
            intro heq
            have htop := congrArg BitVec.toNat heq
            rw [toNat_blockOf (by omega), show lastBlock.toNat = 2 ^ 52 - 1 from rfl] at htop
            omega
          rw [hd i hi]
          simp [hne]

/-- The loop over the marked blocks goes through when they all lie inside. -/
lemma resetBlocks_ok :
    ∀ {blocks : List U64} {ram : ByteVec}, b.ram.capacity = ram.capacity →
      (∀ blk ∈ blocks, IsBlock blk) →
      (∀ blk ∈ blocks, blk.toNat * 4096 + 4096 ≤ ram.capacity ∨ blk = lastBlock) →
      ∃ ram', blocks.foldlM (resetBlock b) ram = .ok ram'
  | [], ram, _, _, _ => ⟨ram, rfl⟩
  | blk :: blocks, ram, hcap, hblocks, hin => by
      have hrest : ∀ blk ∈ blocks, IsBlock blk := fun blk' hmem => hblocks blk' (by simp [hmem])
      have hrest' : ∀ blk ∈ blocks, blk.toNat * 4096 + 4096 ≤ ram.capacity ∨ blk = lastBlock :=
        fun blk' hmem => hin blk' (by simp [hmem])
      by_cases hlast : blk = lastBlock
      · subst hlast
        rw [List.foldlM_cons, resetBlock_last, ok_bind]
        exact resetBlocks_ok hcap hrest hrest'
      · have hblk := (hin blk (by simp)).resolve_right hlast
        rw [List.foldlM_cons, resetBlock_of_inside (hblocks blk (by simp)) hlast (hcap ▸ hblk) hblk,
          ok_bind]
        exact resetBlocks_ok hcap hrest hrest'

/-- Resetting goes through exactly when every marked block lies inside the storage. -/
lemma resetTo_ok_iff_storage (hcap : b.ram.capacity = m.ram.capacity)
    (hlt : b.ram.capacity < 2 ^ 63) (hblocks : ∀ blk ∈ m.dirtyBlocks, IsBlock blk) :
    (∃ m', m.resetTo b = .ok m')
      ↔ ∀ blk ∈ m.dirtyBlocks, blk.toNat * 4096 + 4096 ≤ m.ram.capacity ∨ blk = lastBlock := by
  constructor
  · rintro ⟨m', hm'⟩
    obtain ⟨ram', hr, -⟩ := bind_eq_ok_iff.mp hm'
    exact (resetBlocks_ram hlt hblocks hr hcap).2.1
  · intro hin
    obtain ⟨ram', hr⟩ := resetBlocks_ok hcap hblocks hin
    exact ⟨{ m with ram := ram', dirtyBlocks := [] }, by rw [resetTo, hr, ok_bind]; rfl⟩

/-- **Resetting goes through** exactly when every marked block lies inside RAM. -/
theorem resetTo_ok_iff (h : Resettable b m) :
    (∃ m', m.resetTo b = .ok m')
      ↔ ∀ blk ∈ m.dirtyBlocks, m.InsideRam blk ∨ blk = lastBlock := by
  have hcap : b.ram.capacity = m.ram.capacity := by
    rw [h.other.ram, h.backed.ram, h.ramSize]
  rw [resetTo_ok_iff_storage hcap h.capacity_lt h.blocks, h.backed.ram]
  rfl

/-- A store inside RAM keeps the marked blocks inside exactly if it marks one that is. -/
lemma marks_inside_iff (h : Resettable b m) {addr : U64} {n : ℕ} (hfit : m.Fits addr n)
    (hin : ∀ blk ∈ m.dirtyBlocks, m.InsideRam blk ∨ blk = lastBlock) :
    (∀ blk ∈ (m.mark addr).dirtyBlocks, m.InsideRam blk ∨ blk = lastBlock)
      ↔ m.InsideRam (blockOf addr.toNat) := by
  have hlast : blockOf addr.toNat ≠ lastBlock := by
    intro heq
    have htop := congrArg BitVec.toNat heq
    have hsize := h.backed.size
    unfold maxVectorSize at hsize
    unfold Fits at hfit
    rw [toNat_blockOf (by omega), show lastBlock.toNat = 2 ^ 52 - 1 from rfl] at htop
    omega
  constructor
  · intro hb
    exact (hb _ (mem_mark.mpr (Or.inl rfl))).resolve_right hlast
  · intro hb blk hblk
    rcases mem_mark.mp hblk with rfl | hblk
    · exact Or.inl hb
    · exact hin blk hblk

/-- A store whose range wraps marks the last block of the address space. -/
lemma marks_inside_of_wraps {addr : U64} {n : ℕ} (hn : n ≤ 8) (hwrap : m.Wraps addr n)
    (hin : ∀ blk ∈ m.dirtyBlocks, m.InsideRam blk ∨ blk = lastBlock) :
    ∀ blk ∈ (m.mark addr).dirtyBlocks, m.InsideRam blk ∨ blk = lastBlock := by
  intro blk hmem
  rcases mem_mark.mp hmem with rfl | hmem
  · exact Or.inr (blockOf_of_wraps hn hwrap)
  · exact hin blk hmem

/-- RAM after a reset. -/
theorem resetTo_ram (h : Resettable b m) (hok : m.resetTo b = .ok m') {i : ℕ}
    (hi : i < m.ramSize.toNat) :
    m'.ram.data i = if blockOf i ∈ m.dirtyBlocks then b.ram.data i else m.ram.data i := by
  have hcap : b.ram.capacity = m.ram.capacity := by
    rw [h.other.ram, h.backed.ram, h.ramSize]
  obtain ⟨ram', hr, hm'⟩ := bind_eq_ok_iff.mp hok
  rw [pure_eq_ok, Except.ok.injEq] at hm'
  subst hm'
  exact (resetBlocks_ram h.capacity_lt h.blocks hr hcap).2.2 i (h.backed.ram ▸ hi)

/-- What a reset leaves alone. -/
lemma resetTo_frame (hok : m.resetTo b = .ok m') :
    m'.bytePermission = m.bytePermission ∧ m'.allocPtr = m.allocPtr
      ∧ m'.ramSize = m.ramSize ∧ m'.dirtyBlocks = [] := by
  obtain ⟨ram', -, hm'⟩ := bind_eq_ok_iff.mp hok
  rw [pure_eq_ok, Except.ok.injEq] at hm'
  subst hm'
  exact ⟨rfl, rfl, rfl, rfl⟩

end MMU

end Vemu
