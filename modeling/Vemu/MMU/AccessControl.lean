import Vemu.MMU.Reset

/-!
# Whether a reset restores the access control

Permissions and the allocation pointer are not among what a reset restores.  So resetting gives
back the access control of a snapshot only as long as both are still the snapshot's.

A copy made by the copy constructor never has the snapshot's permissions, unless the snapshot has
none itself: the vectors of the copy have no storage (`copy_restores_iff`).  For a memory with
storage of its own, in the state of the snapshot, `Preserving` is the condition on an operation,
and the memory before it, that it leaves the access control alone: no byte that it writes was
uninitialised, the permissions that it sets are there already, it allocates nothing.  A store must
also mark a block that the reset can copy back (`own_restores_iff`).  **`restores_run_iff`** says
both: which runs from a copy, and which runs from the snapshot's state, can be undone at every
point.
-/

namespace Vemu

open Fallible Loop Transition

namespace MMU

variable {m m' b : MMU}

/-- Two memories of one size control access alike: they have the same permissions, where they
have any, and allocate from the same address on. -/
structure SameAccess (b m : MMU) : Prop where
  allocPtr : m.allocPtr = b.allocPtr
  perm : ∀ i : U64, i.toNat < b.ramSize.toNat →
    m.bytePermission.get i = b.bytePermission.get i

/-- Two memories of one size with the same storage. -/
structure SameStorage (b m : MMU) : Prop where
  ram : m.ram.capacity = b.ram.capacity
  perm : m.bytePermission.capacity = b.bytePermission.capacity
  ramSize : m.ramSize = b.ramSize

/-- Resetting goes through and gives back the access control of `b`, so that every load reports
and every allocation returns what it does on `b`. -/
def Restores (b m : MMU) : Prop :=
  ∃ m', m.resetTo b = .ok m' ∧ SameAccess b m'
    ∧ (∀ addr sz, Prod.snd <$> m'.load addr sz = Prod.snd <$> b.load addr sz)
    ∧ ∀ size, Prod.fst <$> m'.allocate size = Prod.fst <$> b.allocate size

/-- **The condition on a step.** -/
def Preserving (m : MMU) : Op → Prop
  | .store addr _ sz => ∀ n, sizeBytes sz = some n → m.Fits addr n →
      m.InsideRam (blockOf addr.toNat) ∧
        ∀ k < n, m.bytePermission.data (addr.toNat + k) &&& permRaw = 0
  | .writeFrom buf _ startAddr => m.Fits startAddr buf.length →
      ∀ k < buf.length, m.bytePermission.data (startAddr.toNat + k) &&& permRaw = 0
  | .setPerms addr size perm =>
      ∀ k < size.toNat, m.bytePermission.data (addr.toNat + k) = perm
  | .allocate size => size = 0

/-! ## What the access control decides -/

lemma SameStorage.of_sameShape (h : SameShape b m) : SameStorage b m :=
  ⟨h.ram.capacity, h.perm.capacity, h.ramSize⟩

lemma Resettable.sameStorage (h : Resettable b m) : SameStorage b m where
  ram := by rw [h.backed.ram, h.other.ram, h.ramSize]
  perm := by rw [h.backed.perm, h.other.perm, h.ramSize]
  ramSize := h.ramSize

/-- Reading reports the same where access is controlled alike. -/
lemma readTo_snd_related (h : SameStorage b m) (hs : SameAccess b m) (addr len : U64) :
    Related (fun r r' => r'.2 = r.2) (b.readTo addr len) (m.readTo addr len) := by
  have hin : m.inRange addr len = b.inRange addr len := by rw [inRange, inRange, h.ramSize]
  rw [readTo, readTo, hin]
  cases hrange : b.inRange addr len with
  | false => exact .error _
  | true =>
      rw [check_true, ok_bind, ok_bind]
      have hperms : m.readPerms (forRange addr (addr + len))
          = b.readPerms (forRange addr (addr + len)) := by
        refine foldlM_congr (fun i hi acc => ?_) _
        have hlt : i.toNat < (addr + len).toNat := (mem_forRange.mp hi).2
        have hend : (addr + len).toNat < b.ramSize.toNat := of_decide_eq_true hrange
        rw [hs.perm i (by omega)]
      refine .bind_same fun _ _ => ?_
      dsimp only
      rw [hperms]
      refine .bind_same fun perms _ => ?_
      have hbytes : ∀ (i : U64) (bytes bytes' : List U8), True → Related (fun _ _ => True)
          (b.ram.get i >>= fun x => .ok (bytes.set (i - addr).toNat x))
          (m.ram.get i >>= fun x => .ok (bytes'.set (i - addr).toNat x)) := fun i bytes bytes' _ =>
        (ByteVec.get_related h.ram i).bind fun _ _ _ => .ok trivial
      exact (Related.foldlM hbytes _ trivial).bind fun _ _ _ => .ok rfl

/-- Loads report the same where access is controlled alike. -/
lemma load_snd_eq (h : SameStorage b m) (hs : SameAccess b m) (addr : U64) (sz : ℕ) :
    Prod.snd <$> m.load addr sz = Prod.snd <$> b.load addr sz := by
  cases hsz : sizeBytes sz with
  | none => rw [load_of_size hsz, load_of_size hsz]
  | some n =>
      have hload : Related (fun r r' => r'.2 = r.2) (b.load addr sz) (m.load addr sz) := by
        rw [load_eq hsz, load_eq hsz]
        exact (readTo_snd_related h hs addr _).bind fun _ _ heq => .ok heq
      exact Related.map_eq hload

/-- Allocations have the same base where access is controlled alike. -/
lemma allocate_fst_eq (h : SameStorage b m) (hs : SameAccess b m) (size : U64) :
    Prod.fst <$> m.allocate size = Prod.fst <$> b.allocate size := by
  have hallocate : Related (fun r r' => r'.1 = r.1) (b.allocate size) (m.allocate size) := by
    rw [allocate, allocate, hs.allocPtr, h.ramSize]
    refine .bind_same fun _ _ => ?_
    have hperms : Related (fun _ _ => True)
        (setPerms { b with allocPtr := b.allocPtr + size } b.allocPtr size (permRaw ||| permWrite))
        (setPerms { m with ramSize := b.ramSize, allocPtr := b.allocPtr + size } b.allocPtr size
          (permRaw ||| permWrite)) := by
      refine .bind_same fun _ _ => ?_
      dsimp only
      rw [ByteVec.fill, ByteVec.fill, h.perm]
      split_ifs
      · exact .ok trivial
      · exact .error _
    exact hperms.bind fun _ _ _ => .ok rfl
  exact Related.map_eq hallocate

/-- Where memories have storage, the permissions are what the storage holds. -/
lemma sameAccess_iff (h : Resettable b m) :
    SameAccess b m ↔ m.allocPtr = b.allocPtr
      ∧ ∀ i < b.ramSize.toNat, m.bytePermission.data i = b.bytePermission.data i := by
  have hlt := b.ramSize.isLt
  have hget : ∀ i : U64, i.toNat < b.ramSize.toNat →
      (m.bytePermission.get i = b.bytePermission.get i
        ↔ m.bytePermission.data i.toNat = b.bytePermission.data i.toNat) := by
    intro i hi
    rw [ByteVec.get_of_lt (by rw [h.backed.perm, h.ramSize]; exact hi),
      ByteVec.get_of_lt (by rw [h.other.perm]; exact hi), Except.ok.injEq]
  constructor
  · refine fun hs => ⟨hs.allocPtr, fun i hi => ?_⟩
    have hi' : (BitVec.ofNat 64 i).toNat = i := by
      rw [BitVec.toNat_ofNat, Nat.mod_eq_of_lt (by omega)]
    have heq := (hget (BitVec.ofNat 64 i) (by omega)).mp (hs.perm _ (by omega))
    rwa [hi'] at heq
  · exact fun hs => ⟨hs.1, fun i hi => (hget i hi).mpr (hs.2 _ hi)⟩

/-- A memory can be undone exactly while its access control is the snapshot's and a reset goes
through. -/
lemma restores_iff_resetTo (h : SameStorage b m) :
    Restores b m ↔ SameAccess b m ∧ ∃ m', m.resetTo b = .ok m' := by
  constructor
  · rintro ⟨m', hm', hsame, -, -⟩
    obtain ⟨hperm, halloc, -, -⟩ := resetTo_frame hm'
    exact ⟨⟨halloc ▸ hsame.allocPtr, hperm ▸ hsame.perm⟩, m', hm'⟩
  · rintro ⟨hsame, m', hm'⟩
    obtain ⟨hperm, halloc, -, -⟩ := resetTo_frame hm'
    have hsame' : SameAccess b m' := ⟨halloc ▸ hsame.allocPtr, hperm ▸ hsame.perm⟩
    have hshape := resetTo_sameShape hm'
    have h' : SameStorage b m' := ⟨hshape.ram.capacity.trans h.ram,
      hshape.perm.capacity.trans h.perm, hshape.ramSize.trans h.ramSize⟩
    exact ⟨m', hm', hsame', load_snd_eq h' hsame', allocate_fst_eq h' hsame'⟩

lemma restores_iff (h : Resettable b m) :
    Restores b m
      ↔ SameAccess b m ∧ ∀ blk ∈ m.dirtyBlocks, m.InsideRam blk ∨ blk = lastBlock := by
  rw [restores_iff_resetTo h.sameStorage, resetTo_ok_iff h]

/-! ## One step -/

/-- Changing the permissions of a range inside RAM keeps them the snapshot's exactly if it
changes none of them. -/
lemma perm_mapOn_iff {g : U8 → U8} {addr : U64} {n : ℕ} (hsize : m.ramSize = b.ramSize)
    (hperm : ∀ i < b.ramSize.toNat, m.bytePermission.data i = b.bytePermission.data i)
    (hfit : m.Fits addr n) :
    (∀ i < b.ramSize.toNat,
        mapOn g m.bytePermission.data addr.toNat n i = b.bytePermission.data i)
      ↔ ∀ k < n, g (m.bytePermission.data (addr.toNat + k))
          = m.bytePermission.data (addr.toNat + k) := by
  unfold Fits at hfit
  rw [hsize] at hfit
  constructor
  · intro h k hk
    have hk' := h (addr.toNat + k) (by omega)
    rw [mapOn_of_mem (by omega)] at hk'
    rw [hk', hperm _ (by omega)]
  · intro h i hi
    by_cases hin : addr.toNat ≤ i ∧ i < addr.toNat + n
    · have hk := h (i - addr.toNat) (by omega)
      rw [show addr.toNat + (i - addr.toNat) = i by omega] at hk
      rw [mapOn_of_mem hin, hk, hperm i hi]
    · rw [mapOn_of_not_mem hin, hperm i hi]

/-- Writing bytes inside RAM keeps the permissions exactly if none of them is uninitialised. -/
lemma perm_written_iff (hsize : m.ramSize = b.ramSize)
    (hperm : ∀ i < b.ramSize.toNat, m.bytePermission.data i = b.bytePermission.data i)
    {addr : U64} {buf : List U8} (hfit : m.Fits addr buf.length) :
    (∀ i < b.ramSize.toNat, (m.written addr buf).bytePermission.data i = b.bytePermission.data i)
      ↔ ∀ k < buf.length, m.bytePermission.data (addr.toNat + k) &&& permRaw = 0 := by
  rw [← forall₂_congr fun k _ => initialised_eq_self_iff _]
  exact perm_mapOn_iff hsize hperm hfit

/-- Allocating keeps the access control only if nothing is allocated. -/
lemma allocated_iff (hptr : m.allocPtr = b.allocPtr)
    (hperm : ∀ i < b.ramSize.toNat, m.bytePermission.data i = b.bytePermission.data i)
    {size : U64} {perm : U8} :
    (m.allocPtr + size = b.allocPtr ∧ ∀ i < b.ramSize.toNat,
        (m.permitted m.allocPtr size perm).bytePermission.data i = b.bytePermission.data i)
      ↔ size = 0 := by
  constructor
  · rintro ⟨hptr', -⟩
    rw [← hptr] at hptr'
    simpa using hptr'
  · rintro rfl
    refine ⟨by simpa using hptr, fun i hi => ?_⟩
    simpa [permitted] using hperm i hi

lemma preserving_store_iff {addr data : U64} {sz n : ℕ} (hsz : sizeBytes sz = some n) :
    Preserving m (.store addr data sz)
      ↔ (m.Fits addr n → m.InsideRam (blockOf addr.toNat) ∧
          ∀ k < n, m.bytePermission.data (addr.toNat + k) &&& permRaw = 0) := by
  simp only [Preserving, hsz, Option.some.injEq, forall_eq']

/-- **One step** keeps a memory restorable exactly if it is preserving. -/
lemma restores_step (h : Resettable b m) (hr : Restores b m) {op : Op}
    (hok : m.applyOp op = .ok m') : Restores b m' ↔ Preserving m op := by
  have h' := resettable_step h hok
  obtain ⟨hs, hin⟩ := (restores_iff h).mp hr
  obtain ⟨hptr, hperm⟩ := (sameAccess_iff h).mp hs
  have hcase := applyOp_cases h.backed hok
  rw [restores_iff h', sameAccess_iff h']
  cases op with
  | store addr data sz =>
      obtain ⟨n, hsz, ⟨hfit, -, rfl⟩ | ⟨hwrap, rfl⟩⟩ := hcase
      · rw [preserving_store_iff hsz, forall_prop_of_true hfit]
        have hlen : (split n data).length = n := length_split n data
        have hwritten := perm_written_iff h.ramSize hperm (hlen ▸ hfit)
        rw [hlen] at hwritten
        have haccess := (and_iff_right hptr).trans hwritten
        exact (and_congr haccess (marks_inside_iff h hfit hin)).trans and_comm
      · rw [preserving_store_iff hsz]
        refine iff_of_true ⟨⟨hptr, hperm⟩, ?_⟩ ?_
        · exact marks_inside_of_wraps (sizeBytes_le hsz).2 hwrap hin
        · intro hfit
          exact absurd hfit (not_fits_of_wraps hwrap)
  | writeFrom buf hbuf startAddr =>
      obtain ⟨hfit, -, rfl⟩ | ⟨hwrap, rfl⟩ := hcase
      · have haccess := (and_iff_right hptr).trans (perm_written_iff h.ramSize hperm hfit)
        refine (and_iff_left hin).trans (haccess.trans ?_)
        exact ⟨fun hraw _ => hraw, fun hraw => hraw hfit⟩
      · refine iff_of_true ⟨⟨hptr, hperm⟩, hin⟩ ?_
        intro hfit
        exact absurd hfit (not_fits_of_wraps hwrap)
  | setPerms addr size perm =>
      obtain ⟨hfit, rfl⟩ := hcase
      have hmap := @perm_mapOn_iff m b (fun _ => perm) addr size.toNat h.ramSize hperm hfit
      constructor
      · rintro ⟨⟨-, hperm'⟩, -⟩ k hk
        exact (hmap.mp hperm' k hk).symm
      · intro hp
        exact ⟨⟨hptr, hmap.mpr fun k hk => (hp k hk).symm⟩, hin⟩
  | allocate size =>
      obtain ⟨-, rfl⟩ := hcase
      exact (and_iff_left hin).trans (allocated_iff hptr hperm)

/-! ## Runs from the snapshot's state -/

/-- **A run that starts in the snapshot's state, with storage of its own, can be undone at every
point exactly if every step of it is preserving** and the blocks that the snapshot has marked
itself lie inside RAM. -/
theorem own_restores_iff (hb : b.Backed) (hblocks : ∀ blk ∈ b.dirtyBlocks, IsBlock blk)
    (ops : List Op) :
    AllStates applyOp (Restores b) b ops
      ↔ (∀ blk ∈ b.dirtyBlocks, b.InsideRam blk ∨ blk = lastBlock)
        ∧ AllSteps applyOp Preserving b ops := by
  have h : Resettable b b := ⟨hb, hb, rfl, hblocks⟩
  have hstart : Restores b b ↔ ∀ blk ∈ b.dirtyBlocks, b.InsideRam blk ∨ blk = lastBlock := by
    rw [restores_iff h]
    exact and_iff_right ⟨rfl, fun _ _ => rfl⟩
  have hrun : Restores b b →
      (AllStates applyOp (Restores b) b ops ↔ AllSteps applyOp Preserving b ops) :=
    allStates_iff_allSteps (fun _ _ _ hs hok => resettable_step hs hok)
      (fun _ _ _ hs hc hok => restores_step hs hc hok) ops h
  constructor
  · intro hall
    exact ⟨hstart.mp hall.head, (hrun hall.head).mp hall⟩
  · rintro ⟨hin, hsteps⟩
    exact (hrun (hstart.mpr hin)).mpr hsteps

/-! ## Runs from a copy -/

/-- A memory next to a snapshot, both without storage, with the snapshot's allocation pointer and
only the last block of the address space marked. -/
structure BareCopy (b m : MMU) : Prop where
  ram : b.ram.capacity = 0
  perm : b.bytePermission.capacity = 0
  storage : SameStorage b m
  allocPtr : m.allocPtr = b.allocPtr
  blocks : ∀ blk ∈ m.dirtyBlocks, blk = lastBlock

lemma BareCopy.bare (h : BareCopy b m) : m.bytePermission.capacity = 0 :=
  h.storage.perm.trans h.perm

/-- Without storage only operations on no bytes come to an end. -/
lemma BareCopy.step (h : BareCopy b m) {op : Op} (hok : m.applyOp op = .ok m') :
    BareCopy b m' := by
  have hshape := applyOp_sameShape hok
  have hstorage : SameStorage b m' := ⟨hshape.ram.capacity.trans h.storage.ram,
    hshape.perm.capacity.trans h.storage.perm, hshape.ramSize.trans h.storage.ramSize⟩
  cases op with
  | store addr data sz =>
      obtain ⟨⟨e, m₁⟩, h₁, hok⟩ := bind_eq_ok_iff.mp hok
      obtain rfl := Except.ok.inj hok
      refine ⟨h.ram, h.perm, hstorage, (store_allocPtr h₁).trans h.allocPtr, fun blk hblk => ?_⟩
      obtain ⟨n, m₂, hsz, h₂, rfl⟩ := store_steps h₁
      obtain ⟨hpos, hn⟩ := sizeBytes_le hsz
      have hlen : (split n data).length = n := length_split n data
      obtain ⟨hwrap, rfl⟩ := writeFrom_bare_cases h.bare (by omega) (by omega) h₂
      rw [hlen] at hwrap
      rcases mem_mark.mp hblk with rfl | hblk
      · exact blockOf_of_wraps hn hwrap
      · exact h.blocks blk hblk
  | writeFrom buf hbuf startAddr =>
      exact ⟨h.ram, h.perm, hstorage, (writeFrom_allocPtr hok).trans h.allocPtr,
        writeFrom_dirtyBlocks hok ▸ h.blocks⟩
  | setPerms addr size perm =>
      exact ⟨h.ram, h.perm, hstorage, (setPerms_allocPtr hok).trans h.allocPtr,
        setPerms_dirtyBlocks hok ▸ h.blocks⟩
  | allocate size =>
      obtain ⟨⟨base, m₁⟩, h₁, hok⟩ := bind_eq_ok_iff.mp hok
      obtain rfl := Except.ok.inj hok
      refine ⟨h.ram, h.perm, hstorage, ?_, allocate_dirtyBlocks h₁ ▸ h.blocks⟩
      have hsize := allocate_bare h.bare h₁
      obtain ⟨p, -, rfl⟩ := allocate_result h₁
      exact hsize ▸ (BitVec.add_zero m.allocPtr).trans h.allocPtr

lemma BareCopy.restores (h : BareCopy b m) : Restores b m := by
  rw [restores_iff_resetTo h.storage]
  refine ⟨⟨h.allocPtr, fun i _ => ?_⟩, ?_⟩
  · rw [ByteVec.get_of_bare h.bare, ByteVec.get_of_bare h.perm]
  · have hcap : b.ram.capacity = m.ram.capacity := h.storage.ram.symm
    have hblocks : ∀ blk ∈ m.dirtyBlocks, IsBlock blk := fun blk hblk => by
      rw [h.blocks blk hblk, IsBlock]
      decide
    rw [resetTo_ok_iff_storage hcap (by rw [h.ram]; decide) hblocks]
    exact fun blk hblk => Or.inr (h.blocks blk hblk)

/-- **A run that starts from a copy of the snapshot can be undone at every point exactly if the
snapshot has no permissions to restore** and marks no block but the last of the address space. -/
theorem copy_restores_iff (hmade : b.Made) (rs ps : ℕ → U8) (ops : List Op) :
    AllStates applyOp (Restores b) (b.copy rs ps) ops
      ↔ b.bytePermission.capacity = 0 ∧ ∀ blk ∈ b.dirtyBlocks, blk = lastBlock := by
  have hcapacity := hmade.reserved.capacity_eq
  have hram : (b.copy rs ps).ram.capacity = 0 := hmade.reserved.ramEmpty
  have hperm : (b.copy rs ps).bytePermission.capacity = 0 := hmade.reserved.permEmpty
  constructor
  · intro hall
    obtain ⟨m', hm', hsame, -, -⟩ := hall.head
    obtain ⟨hframe, -, -, -⟩ := resetTo_frame hm'
    have hbare : b.bytePermission.capacity = 0 := by
      by_contra hne
      have hbacked : b.Backed := hmade.reserved.storage.resolve_right fun hbare => hne hbare.2
      have hget := hsame.perm 0 (by rw [← hbacked.perm]; exact Nat.pos_of_ne_zero hne)
      rw [hframe, ByteVec.get_of_bare hperm,
        ByteVec.get_of_lt (show (0 : U64).toNat < _ from Nat.pos_of_ne_zero hne)] at hget
      cases hget
    refine ⟨hbare, fun blk hblk => ?_⟩
    have hin := (resetTo_ok_iff_storage (b := b) (m := b.copy rs ps)
      (by rw [hram, hcapacity, hbare]) (by rw [hcapacity, hbare]; decide) hmade.isBlock).mp
        ⟨m', hm'⟩ blk hblk
    rw [hram] at hin
    exact hin.resolve_left (by omega)
  · rintro ⟨hbare, hblocks⟩
    have hcopy : BareCopy b (b.copy rs ps) := ⟨hcapacity.trans hbare, hbare,
      ⟨by rw [hram, hcapacity, hbare], by rw [hperm, hbare], rfl⟩, rfl, hblocks⟩
    exact allStates_of_invariant (fun _ _ _ h hok => BareCopy.step h hok)
      (fun _ h => h.restores) ops hcopy

/-! ## Both kinds of runs -/

/-- **Which runs can be undone at every point**: from a copy of the snapshot, those of a snapshot
that has no permissions to restore and marks no block but the last of the address space; from the
snapshot's state with storage of its own, those all of whose steps are preserving, if the blocks
that the snapshot has marked itself lie inside RAM. -/
theorem restores_run_iff (hmade : b.Made) (rs ps : ℕ → U8) (ops : List Op) :
    (AllStates applyOp (Restores b) (b.copy rs ps) ops
        ↔ b.bytePermission.capacity = 0 ∧ ∀ blk ∈ b.dirtyBlocks, blk = lastBlock)
      ∧ (b.Backed → (AllStates applyOp (Restores b) b ops
        ↔ (∀ blk ∈ b.dirtyBlocks, b.InsideRam blk ∨ blk = lastBlock)
          ∧ AllSteps applyOp Preserving b ops)) :=
  ⟨copy_restores_iff hmade rs ps ops, fun hb => own_restores_iff hb hmade.isBlock ops⟩

/-- Writing to initialised memory can be undone, and so can what is done with the copy of a
copy. -/
theorem restores_run_initialised :
    AllStates applyOp (Restores (uniform 12288 6)) (uniform 12288 6) [.store 0 1 64]
      ∧ AllStates applyOp (Restores ((uniform 12288 6).copy (fun _ => 0) (fun _ => 0)))
        (((uniform 12288 6).copy (fun _ => 0) (fun _ => 0)).copy (fun _ => 0) (fun _ => 0))
        [.store 0xFFFFFFFFFFFFFFFC 1 64] := by
  have hmade : (uniform 12288 6).Made :=
    .new (show MMU.new 12288 (fun _ => 0) (fun _ => 6) = _ from rfl)
  have hu : (uniform 12288 6).Backed := backed_uniform (by decide) 6
  constructor
  · refine ((restores_run_iff hmade (fun _ => 0) (fun _ => 0) _).2 hu).mpr
      ⟨by simp [uniform], fun s' _ => ⟨?_, trivial⟩⟩
    intro n hsz _
    obtain rfl : 8 = n := Option.some.inj hsz
    exact ⟨by decide, by decide⟩
  · exact (restores_run_iff (.copy hmade _ _) _ _ _).1.mpr ⟨rfl, by simp [uniform, copy]⟩

/-- A copy cannot be undone even before the first operation.  With storage of its own, writing to
uninitialised memory and allocating cannot be undone. -/
theorem not_restores_run_raw :
    (¬ AllStates applyOp (Restores (uniform 262144 10))
        ((uniform 262144 10).copy (fun _ => 0) (fun _ => 0)) [])
      ∧ (¬ AllStates applyOp (Restores (uniform 262144 10)) (uniform 262144 10) [.store 0 1 8])
      ∧ ¬ AllStates applyOp (Restores (uniform 262144 10)) (uniform 262144 10)
        [.allocate 16] := by
  refine ⟨fun h => ?_, fun h => ?_, fun h => ?_⟩
  · obtain ⟨m', hm', hsame, -, -⟩ := h
    obtain ⟨hperm, -, -, -⟩ := resetTo_frame hm'
    have h0 := hsame.perm 0 (by decide)
    rw [hperm] at h0
    revert h0
    decide
  · obtain ⟨m', hm', hsame, -, -⟩ := h.2 _ rfl
    obtain ⟨hperm, -, -, -⟩ := resetTo_frame hm'
    have h0 := hsame.perm 0 (by decide)
    rw [hperm] at h0
    revert h0
    decide
  · obtain ⟨m', hm', hsame, -, -⟩ := h.2 _ rfl
    obtain ⟨-, halloc, -, -⟩ := resetTo_frame hm'
    have h0 := hsame.allocPtr
    rw [halloc] at h0
    revert h0
    decide

end MMU

end Vemu
