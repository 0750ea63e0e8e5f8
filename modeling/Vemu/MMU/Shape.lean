import Vemu.Lib.Related
import Vemu.MMU.Operations

/-!
# The storage of a memory

No operation changes how much storage the two arrays have, or the size of RAM
(`applyOp_sameShape`, `loadFile_sameShape`, `resetTo_sameShape`).  A memory that comes from the
constructor therefore stays backed.  The copy constructor takes over the elements of the vectors
only, of which there are none: every other memory that can be made has no storage at all
(`Made.backed_or_bare`).
-/

namespace Vemu

open Fallible Loop

/-- The same size and the same storage. -/
structure ByteVec.SameShape (v v' : ByteVec) : Prop where
  size : v'.size = v.size
  capacity : v'.capacity = v.capacity

namespace ByteVec

variable {v v' : ByteVec}

lemma SameShape.refl (v : ByteVec) : SameShape v v := ⟨rfl, rfl⟩

lemma SameShape.trans {v'' : ByteVec} (h : SameShape v v') (h' : SameShape v' v'') :
    SameShape v v'' := ⟨h'.size.trans h.size, h'.capacity.trans h.capacity⟩

lemma set_sameShape {i : U64} {b : U8} (h : v.set i b = .ok v') : SameShape v v' := by
  unfold set at h
  split_ifs at h
  obtain rfl := Except.ok.inj h
  exact ⟨rfl, rfl⟩

lemma fill_sameShape {i n : U64} {b : U8} (h : v.fill i n b = .ok v') : SameShape v v' := by
  unfold fill at h
  split_ifs at h
  obtain rfl := Except.ok.inj h
  exact ⟨rfl, rfl⟩

/-- Where a vector has an element, every vector with as much storage has one. -/
lemma get_related (hcap : v'.capacity = v.capacity) (i : U64) :
    Related (fun _ _ => True) (v.get i) (v'.get i) := by
  rw [get, get, hcap]
  split_ifs
  · exact .ok trivial
  · exact .error _

/-- A vector without storage has no element. -/
lemma get_of_bare (hcap : v.capacity = 0) (i : U64) : v.get i = .error .outOfBounds := by
  rw [get, hcap, if_neg (Nat.not_lt_zero _)]

end ByteVec

namespace MMU

variable {m m' b : MMU}

structure SameShape (m m' : MMU) : Prop where
  ram : m.ram.SameShape m'.ram
  perm : m.bytePermission.SameShape m'.bytePermission
  ramSize : m'.ramSize = m.ramSize

lemma SameShape.refl (m : MMU) : SameShape m m := ⟨.refl _, .refl _, rfl⟩

lemma SameShape.trans {m'' : MMU} (h : SameShape m m') (h' : SameShape m' m'') :
    SameShape m m'' := ⟨h.ram.trans h'.ram, h.perm.trans h'.perm, h'.ramSize.trans h.ramSize⟩

lemma SameShape.backed (h : SameShape m m') (hm : m.Backed) : m'.Backed where
  ram := by rw [h.ram.capacity, h.ramSize, hm.ram]
  perm := by rw [h.perm.capacity, h.ramSize, hm.perm]
  size := h.ramSize ▸ hm.size

/-! ## Operations -/

/-- What a change of permissions that comes to an end has changed. -/
lemma setPerms_result {addr size : U64} {perm : U8} (h : m.setPerms addr size perm = .ok m') :
    ∃ p, m.bytePermission.fill addr size perm = .ok p ∧ m' = { m with bytePermission := p } := by
  obtain ⟨_, -, h⟩ := bind_eq_ok_iff.mp h
  obtain ⟨p, hp, h⟩ := bind_eq_ok_iff.mp h
  exact ⟨p, hp, (Except.ok.inj h).symm⟩

lemma setPerms_sameShape {addr size : U64} {perm : U8} (h : m.setPerms addr size perm = .ok m') :
    SameShape m m' := by
  obtain ⟨p, hp, rfl⟩ := setPerms_result h
  exact ⟨.refl _, ByteVec.fill_sameShape hp, rfl⟩

/-- What an allocation that comes to an end has changed. -/
lemma allocate_result {size base : U64} (h : m.allocate size = .ok (base, m')) :
    ∃ p, m.bytePermission.fill m.allocPtr size (permRaw ||| permWrite) = .ok p
      ∧ m' = { m with bytePermission := p, allocPtr := m.allocPtr + size } := by
  rw [allocate, bind_eq_ok_iff] at h
  obtain ⟨_, -, h⟩ := h
  dsimp only at h
  rw [bind_eq_ok_iff] at h
  obtain ⟨m₁, h₁, h⟩ := h
  obtain ⟨-, rfl⟩ := Prod.mk.inj (Except.ok.inj h)
  exact setPerms_result h₁

lemma allocate_sameShape {size base : U64} (h : m.allocate size = .ok (base, m')) :
    SameShape m m' := by
  obtain ⟨p, hp, rfl⟩ := allocate_result h
  exact ⟨.refl _, ByteVec.fill_sameShape hp, rfl⟩

/-- What the write of a byte has changed. -/
lemma writeByte_result {i : U64} {x : U8} (h : m.writeByte i x = .ok m') :
    ∃ ram perm, m.ram.SameShape ram ∧ m.bytePermission.SameShape perm
      ∧ m' = { m with ram := ram, bytePermission := perm } := by
  rw [writeByte, bind_eq_ok_iff] at h
  obtain ⟨ram, hram, h⟩ := h
  rw [bind_eq_ok_iff] at h
  obtain ⟨p, -, h⟩ := h
  split_ifs at h
  · rw [bind_eq_ok_iff] at h
    obtain ⟨perm, hperm, h⟩ := h
    exact ⟨ram, perm, ByteVec.set_sameShape hram, ByteVec.set_sameShape hperm,
      (Except.ok.inj h).symm⟩
  · exact ⟨ram, m.bytePermission, ByteVec.set_sameShape hram, .refl _, (Except.ok.inj h).symm⟩

lemma writeByte_sameShape {i : U64} {x : U8} (h : m.writeByte i x = .ok m') : SameShape m m' := by
  obtain ⟨ram, perm, hram, hperm, rfl⟩ := writeByte_result h
  exact ⟨hram, hperm, rfl⟩

/-- What every write of a byte keeps, a write of many keeps. -/
lemma writeFrom_invariant (P : MMU → Prop)
    (hbyte : ∀ m₁ i x m₂, P m₁ → writeByte m₁ i x = .ok m₂ → P m₂) {buf : List U8} {addr : U64}
    (hm : P m) (h : m.writeFrom buf addr = .ok m') : P m' := by
  rw [writeFrom, bind_eq_ok_iff] at h
  obtain ⟨_, -, h⟩ := h
  dsimp only at h
  rw [bind_eq_ok_iff] at h
  obtain ⟨ok, -, h⟩ := h
  rw [bind_eq_ok_iff] at h
  obtain ⟨_, -, h⟩ := h
  refine foldlM_invariant P ?_ _ m m' hm h
  intro m₁ i m₂ hm₁ hround
  rw [bind_eq_ok_iff] at hround
  obtain ⟨x, -, hround⟩ := hround
  exact hbyte m₁ i x m₂ hm₁ hround

lemma writeFrom_sameShape {buf : List U8} {addr : U64} (h : m.writeFrom buf addr = .ok m') :
    SameShape m m' :=
  writeFrom_invariant (SameShape m) (fun _ _ _ _ hm₁ hbyte => hm₁.trans (writeByte_sameShape hbyte))
    (.refl m) h

/-- A store that comes to an end has written its bytes and marked their block. -/
lemma store_steps {addr data : U64} {sz : ℕ} {e : ReturnException}
    (h : m.store addr data sz = .ok (e, m')) :
    ∃ n m₁, sizeBytes sz = some n ∧ m.storeBytes n addr data = .ok m₁ ∧ m' = m₁.mark addr := by
  cases hsz : sizeBytes sz with
  | none =>
      rw [store_of_size hsz] at h
      cases h
  | some n =>
      rw [store_eq hsz, bind_eq_ok_iff] at h
      obtain ⟨m₁, h₁, h⟩ := h
      obtain ⟨-, rfl⟩ := Prod.mk.inj (Except.ok.inj h)
      exact ⟨n, m₁, rfl, h₁, rfl⟩

lemma store_sameShape {addr data : U64} {sz : ℕ} {e : ReturnException}
    (h : m.store addr data sz = .ok (e, m')) : SameShape m m' := by
  obtain ⟨n, m₁, -, h₁, rfl⟩ := store_steps h
  have hshape := writeFrom_sameShape h₁
  exact ⟨hshape.ram, hshape.perm, hshape.ramSize⟩

lemma applyOp_sameShape {op : Op} (h : m.applyOp op = .ok m') : SameShape m m' := by
  cases op with
  | store addr data sz =>
      obtain ⟨⟨e, m₁⟩, h₁, h⟩ := bind_eq_ok_iff.mp h
      obtain rfl := Except.ok.inj h
      exact store_sameShape h₁
  | writeFrom buf hbuf startAddr => exact writeFrom_sameShape h
  | setPerms addr size perm => exact setPerms_sameShape h
  | allocate size =>
      obtain ⟨⟨base, m₁⟩, h₁, h⟩ := bind_eq_ok_iff.mp h
      obtain rfl := Except.ok.inj h
      exact allocate_sameShape h₁

/-! ## The allocation pointer -/

lemma setPerms_allocPtr {addr size : U64} {perm : U8} (h : m.setPerms addr size perm = .ok m') :
    m'.allocPtr = m.allocPtr := by
  obtain ⟨p, -, rfl⟩ := setPerms_result h
  rfl

lemma writeByte_allocPtr {i : U64} {x : U8} (h : m.writeByte i x = .ok m') :
    m'.allocPtr = m.allocPtr := by
  obtain ⟨ram, perm, -, -, rfl⟩ := writeByte_result h
  rfl

lemma writeFrom_allocPtr {buf : List U8} {addr : U64} (h : m.writeFrom buf addr = .ok m') :
    m'.allocPtr = m.allocPtr :=
  writeFrom_invariant (fun m₁ => m₁.allocPtr = m.allocPtr)
    (fun _ _ _ _ hm₁ hbyte => (writeByte_allocPtr hbyte).trans hm₁) rfl h

lemma store_allocPtr {addr data : U64} {sz : ℕ} {e : ReturnException}
    (h : m.store addr data sz = .ok (e, m')) : m'.allocPtr = m.allocPtr := by
  obtain ⟨n, m₁, -, h₁, rfl⟩ := store_steps h
  have hptr := writeFrom_allocPtr h₁
  exact hptr

/-! ## Images and resets -/

lemma loadSegment_sameShape {seg : MemorySegment} (h : m.loadSegment seg = .ok m') :
    SameShape m m' := by
  rw [loadSegment, bind_eq_ok_iff] at h
  obtain ⟨m₁, h₁, h⟩ := h
  rw [bind_eq_ok_iff] at h
  obtain ⟨m₂, h₂, h⟩ := h
  rw [bind_eq_ok_iff] at h
  obtain ⟨m₃, h₃, h⟩ := h
  obtain rfl := Except.ok.inj h
  have hshape := ((setPerms_sameShape h₁).trans (writeFrom_sameShape h₂)).trans
    (setPerms_sameShape h₃)
  exact ⟨hshape.ram, hshape.perm, hshape.ramSize⟩

lemma loadFile_sameShape {info : FileInfo} (h : m.loadFile info = .ok m') : SameShape m m' :=
  foldlM_invariant (SameShape m) (fun _ _ _ hm₁ hseg => hm₁.trans (loadSegment_sameShape hseg)) _
    m m' (.refl m) h

lemma resetBlock_sameShape {ram ram' : ByteVec} {blk : U64}
    (h : resetBlock b ram blk = .ok ram') : ram.SameShape ram' := by
  refine foldlM_invariant ram.SameShape ?_ _ ram ram' (.refl ram) h
  intro v i v' hv hround
  rw [bind_eq_ok_iff] at hround
  obtain ⟨x, -, hround⟩ := hround
  exact hv.trans (ByteVec.set_sameShape hround)

lemma resetTo_sameShape (h : m.resetTo b = .ok m') : SameShape m m' := by
  obtain ⟨ram, hram, h⟩ := bind_eq_ok_iff.mp h
  obtain rfl := Except.ok.inj h
  refine ⟨?_, .refl _, rfl⟩
  exact foldlM_invariant m.ram.SameShape (fun _ _ _ hv hround => hv.trans (resetBlock_sameShape hround))
    _ m.ram ram (.refl _) hram

/-! ## The memories that can be made -/

/-- A memory from one of the constructors, after any operations. -/
inductive Made : MMU → Prop
  | new {m : MMU} {memSize : U64} {rs ps : ℕ → U8} (h : MMU.new memSize rs ps = .ok m) : Made m
  | copy {m : MMU} (hm : Made m) (rs ps : ℕ → U8) : Made (m.copy rs ps)
  | op {m m' : MMU} {op : Op} (hm : Made m) (h : m.applyOp op = .ok m') : Made m'
  | loadFile {m m' : MMU} {info : FileInfo} (hm : Made m) (h : m.loadFile info = .ok m') : Made m'
  | resetTo {m b m' : MMU} (hm : Made m) (hb : Made b) (h : m.resetTo b = .ok m') : Made m'

/-- The vectors are empty; their storage is all of RAM, or nothing. -/
structure Reserved (m : MMU) : Prop where
  ramEmpty : m.ram.size = 0
  permEmpty : m.bytePermission.size = 0
  storage : m.Backed ∨ m.ram.capacity = 0 ∧ m.bytePermission.capacity = 0

lemma Reserved.of_sameShape (hm : m.Reserved) (h : SameShape m m') : m'.Reserved where
  ramEmpty := h.ram.size.trans hm.ramEmpty
  permEmpty := h.perm.size.trans hm.permEmpty
  storage := hm.storage.imp h.backed
    fun hbare => ⟨h.ram.capacity.trans hbare.1, h.perm.capacity.trans hbare.2⟩

/-- A memory has as much storage for the bytes as for the permissions. -/
lemma Reserved.capacity_eq (h : m.Reserved) : m.ram.capacity = m.bytePermission.capacity := by
  rcases h.storage with hbacked | ⟨hram, hperm⟩
  · rw [hbacked.ram, hbacked.perm]
  · rw [hram, hperm]

lemma Made.reserved (h : Made m) : m.Reserved := by
  induction h with
  | new h =>
      refine ⟨?_, ?_, Or.inl (backed_new h)⟩
      all_goals
        obtain ⟨_, -, h⟩ := bind_eq_ok_iff.mp h
        obtain rfl := Except.ok.inj h
        rfl
  | copy _ rs ps ih =>
      exact ⟨ih.ramEmpty, ih.permEmpty, Or.inr ⟨ih.ramEmpty, ih.permEmpty⟩⟩
  | op _ h ih => exact ih.of_sameShape (applyOp_sameShape h)
  | loadFile _ h ih => exact ih.of_sameShape (loadFile_sameShape h)
  | resetTo _ _ h ih => exact ih.of_sameShape (resetTo_sameShape h)

/-- **Every memory has all its storage or none**: it is backed as soon as one permission can be
read. -/
theorem Made.backed (h : Made m) {i : U64} {p : U8} (hp : m.bytePermission.get i = .ok p) :
    m.Backed := by
  rcases h.reserved.storage with hbacked | ⟨-, hbare⟩
  · exact hbacked
  · rw [ByteVec.get_of_bare hbare] at hp
    cases hp

/-- A memory that has no storage cannot be written anywhere in RAM. -/
lemma writeFrom_bare (hbare : m.bytePermission.capacity = 0) {addr : U64} {buf : List U8}
    (hpos : 0 < buf.length) (hfit : m.Fits addr buf.length) :
    m.writeFrom buf addr = .error .outOfBounds := by
  have hsize := m.ramSize.isLt
  have hn : buf.length < 2 ^ 64 := by
    unfold Fits at hfit
    omega
  have hin : m.inRange addr (BitVec.ofNat 64 buf.length) = true :=
    (inRange_iff m addr hn).mpr (Or.inl hfit)
  have hlength : 0 < (forRange addr (addr + BitVec.ofNat 64 buf.length)).length := by
    rw [length_forRange, toNat_end_of_fits hfit]
    omega
  obtain ⟨i, range, hrange⟩ := List.exists_cons_of_length_pos hlength
  simp only [writeFrom, hin, check_true, ok_bind, hrange, canWriteAll, List.foldlM_cons,
    ByteVec.get_of_bare hbare, error_bind]

/-- What it can write is a range that wraps, and that changes nothing. -/
lemma writeFrom_bare_cases (hbare : m.bytePermission.capacity = 0) {addr : U64} {buf : List U8}
    (hpos : 0 < buf.length) (hn : buf.length < 2 ^ 64) (h : m.writeFrom buf addr = .ok m') :
    m.Wraps addr buf.length ∧ m' = m := by
  by_cases hf : m.Fits addr buf.length
  · rw [writeFrom_bare hbare hpos hf] at h
    cases h
  · by_cases hw : m.Wraps addr buf.length
    · rw [writeFrom_of_wraps hn hw] at h
      exact ⟨hw, (Except.ok.inj h).symm⟩
    · rw [writeFrom_of_not hn hf hw] at h
      cases h

/-- It has no bytes to allocate. -/
lemma allocate_bare (hbare : m.bytePermission.capacity = 0) {size base : U64}
    (h : m.allocate size = .ok (base, m')) : size = 0 := by
  obtain ⟨p, hp, -⟩ := allocate_result h
  rw [ByteVec.fill, hbare] at hp
  split_ifs at hp with hfit
  rcases hfit with hzero | hle
  · exact hzero
  · have hsize : size.toNat = 0 := by omega
    exact BitVec.eq_of_toNat_eq hsize

/-! ## The marked blocks -/

lemma setPerms_dirtyBlocks {addr size : U64} {perm : U8} (h : m.setPerms addr size perm = .ok m') :
    m'.dirtyBlocks = m.dirtyBlocks := by
  obtain ⟨p, -, rfl⟩ := setPerms_result h
  rfl

lemma allocate_dirtyBlocks {size base : U64} (h : m.allocate size = .ok (base, m')) :
    m'.dirtyBlocks = m.dirtyBlocks := by
  obtain ⟨p, -, rfl⟩ := allocate_result h
  rfl

lemma writeByte_dirtyBlocks {i : U64} {x : U8} (h : m.writeByte i x = .ok m') :
    m'.dirtyBlocks = m.dirtyBlocks := by
  obtain ⟨ram, perm, -, -, rfl⟩ := writeByte_result h
  rfl

lemma writeFrom_dirtyBlocks {buf : List U8} {addr : U64} (h : m.writeFrom buf addr = .ok m') :
    m'.dirtyBlocks = m.dirtyBlocks :=
  writeFrom_invariant (fun m₁ => m₁.dirtyBlocks = m.dirtyBlocks)
    (fun _ _ _ _ hm₁ hbyte => (writeByte_dirtyBlocks hbyte).trans hm₁) rfl h

lemma loadSegment_dirtyBlocks {seg : MemorySegment} (h : m.loadSegment seg = .ok m') :
    m'.dirtyBlocks = m.dirtyBlocks := by
  rw [loadSegment, bind_eq_ok_iff] at h
  obtain ⟨m₁, h₁, h⟩ := h
  rw [bind_eq_ok_iff] at h
  obtain ⟨m₂, h₂, h⟩ := h
  rw [bind_eq_ok_iff] at h
  obtain ⟨m₃, h₃, h⟩ := h
  obtain rfl := Except.ok.inj h
  exact (setPerms_dirtyBlocks h₃).trans ((writeFrom_dirtyBlocks h₂).trans (setPerms_dirtyBlocks h₁))

lemma loadFile_dirtyBlocks {info : FileInfo} (h : m.loadFile info = .ok m') :
    m'.dirtyBlocks = m.dirtyBlocks :=
  foldlM_invariant (fun m₁ => m₁.dirtyBlocks = m.dirtyBlocks)
    (fun _ _ _ hm₁ hseg => (loadSegment_dirtyBlocks hseg).trans hm₁) _ m m' rfl h

/-- An operation marks at most the block of an address. -/
lemma applyOp_dirtyBlocks {op : Op} (h : m.applyOp op = .ok m') {blk : U64}
    (hblk : blk ∈ m'.dirtyBlocks) : blk ∈ m.dirtyBlocks ∨ IsBlock blk := by
  cases op with
  | store addr data sz =>
      obtain ⟨⟨e, m₁⟩, h₁, h⟩ := bind_eq_ok_iff.mp h
      obtain rfl := Except.ok.inj h
      obtain ⟨n, m₂, -, h₂, rfl⟩ := store_steps h₁
      rcases mem_mark.mp hblk with rfl | hblk
      · exact Or.inr (isBlock_blockOf addr)
      · exact Or.inl (writeFrom_dirtyBlocks h₂ ▸ hblk)
  | writeFrom buf hbuf startAddr => exact Or.inl (writeFrom_dirtyBlocks h ▸ hblk)
  | setPerms addr size perm => exact Or.inl (setPerms_dirtyBlocks h ▸ hblk)
  | allocate size =>
      obtain ⟨⟨base, m₁⟩, h₁, h⟩ := bind_eq_ok_iff.mp h
      obtain rfl := Except.ok.inj h
      exact Or.inl (allocate_dirtyBlocks h₁ ▸ hblk)

/-- **Only blocks of addresses are marked.** -/
theorem Made.isBlock (h : Made m) : ∀ blk ∈ m.dirtyBlocks, IsBlock blk := by
  induction h with
  | new h =>
      obtain ⟨_, -, h⟩ := bind_eq_ok_iff.mp h
      obtain rfl := Except.ok.inj h
      simp
  | copy _ rs ps ih => exact ih
  | op _ h ih => exact fun blk hblk => (applyOp_dirtyBlocks h hblk).elim (ih blk) id
  | loadFile _ h ih => exact fun blk hblk => ih blk (loadFile_dirtyBlocks h ▸ hblk)
  | resetTo _ _ h =>
      obtain ⟨ram, -, h⟩ := bind_eq_ok_iff.mp h
      obtain rfl := Except.ok.inj h
      simp

end MMU

end Vemu
