import Vemu.MMU.Uninitialised

/-!
# The representation of a memory

Every range check of the memory unit compares with the field `ram_size`, and every access goes
to the vectors.  The checks protect the accesses if both vectors have `ram_size` elements, which
is the invariant `Represented`.  Whether an access stays below the size of its vector is read
off the *strict* memory, whose vectors have no storage but their elements.

The constructor only reserves the storage and leaves the vectors without elements, and no
operation adds one (`Made.reserved`).  So the invariant is as good as never established:
**`represented_iff`** says that it holds of the memories without any RAM, and of no other.  Those
pass no range check (`applyEvent_empty`) and never have a block to copy back
(`Made.dirtyBlocks_empty`).
-/

namespace Vemu

open Fallible

/-- The vector without the storage beyond its elements. -/
def ByteVec.strict (v : ByteVec) : ByteVec := { v with capacity := v.size }

namespace MMU

variable {m m' : MMU}

/-- The memory whose accesses are bounded by the sizes of its vectors. -/
def strict (m : MMU) : MMU :=
  { m with ram := m.ram.strict, bytePermission := m.bytePermission.strict }

@[simp] lemma strict_ramSize (m : MMU) : m.strict.ramSize = m.ramSize := rfl

@[simp] lemma strict_dirtyBlocks (m : MMU) : m.strict.dirtyBlocks = m.dirtyBlocks := rfl

/-- **The representation invariant.**  Both vectors have `ram_size` elements, and no operation
has an element access past them before an assertion stops it. -/
structure Represented (m : MMU) : Prop where
  ram : m.ram.size = m.ramSize.toNat
  perm : m.bytePermission.size = m.ramSize.toNat
  event : ∀ ev, m.strict.applyEvent ev ≠ .error .outOfBounds
  resetTo : ∀ other : MMU, other.Made → m.strict.resetTo other.strict ≠ .error .outOfBounds

/-! ## Memories without RAM -/

lemma inRange_empty (h : m.ramSize = 0) (addr len : U64) : m.inRange addr len = false := by
  simp [inRange, h]

lemma setPerms_empty (h : m.ramSize = 0) (addr size : U64) (perm : U8) :
    m.setPerms addr size perm = .error .assertFailed := by
  simp [setPerms, inRange_empty h]

lemma writeFrom_empty (h : m.ramSize = 0) (buf : List U8) (addr : U64) :
    m.writeFrom buf addr = .error .assertFailed := by
  simp [writeFrom, inRange_empty h]

lemma readTo_empty (h : m.ramSize = 0) (addr len : U64) :
    m.readTo addr len = .error .assertFailed := by
  simp [readTo, inRange_empty h]

lemma allocate_empty (h : m.ramSize = 0) (size : U64) :
    m.allocate size = .error .assertFailed := by
  simp [allocate, h]

lemma load_empty (h : m.ramSize = 0) (addr : U64) (sz : ℕ) :
    m.load addr sz = .error .assertFailed := by
  cases hsz : sizeBytes sz with
  | none =>
      unfold load
      unfold sizeBytes at hsz
      split at hsz <;> simp_all
  | some n => simp [load_eq hsz, loadBytes, readTo_empty h]

lemma store_empty (h : m.ramSize = 0) (addr data : U64) (sz : ℕ) :
    m.store addr data sz = .error .assertFailed := by
  cases hsz : sizeBytes sz with
  | none => exact store_of_size hsz addr data
  | some n => simp [store_eq hsz, storeBytes, writeFrom_empty h]

lemma applyOp_empty (h : m.ramSize = 0) (op : Op) : m.applyOp op = .error .assertFailed := by
  cases op with
  | store addr data sz => simp [applyOp, store_empty h]
  | writeFrom buf hbuf startAddr => exact writeFrom_empty h buf startAddr
  | setPerms addr size perm => exact setPerms_empty h addr size perm
  | allocate size => simp [applyOp, allocate_empty h]

/-- An image goes in only if it has no segment. -/
lemma loadFile_empty (h : m.ramSize = 0) (info : FileInfo) :
    m.loadFile info = .error .assertFailed ∨ m.loadFile info = .ok m := by
  rw [loadFile]
  cases info.segments with
  | nil => exact Or.inr rfl
  | cons seg segs => simp [loadSegment, setPerms_empty h]

/-- **Without RAM nothing gets past an assertion.** -/
lemma applyEvent_empty (h : m.ramSize = 0) (ev : Event) :
    m.applyEvent ev = .error .assertFailed ∨ m.applyEvent ev = .ok m := by
  cases ev with
  | op op => exact Or.inl (applyOp_empty h op)
  | loadFile info => exact loadFile_empty h info
  | load addr sz => simp [applyEvent, load_empty h]
  | readTo addr len => simp [applyEvent, readTo_empty h]

lemma Made.dirtyBlocks_empty (hmade : m.Made) : m.ramSize = 0 → m.dirtyBlocks = [] := by
  induction hmade with
  | new h =>
      intro _
      obtain ⟨_, -, h⟩ := bind_eq_ok_iff.mp h
      obtain rfl := Except.ok.inj h
      rfl
  | copy _ rs ps ih => exact ih
  | @op m₁ m₂ op _ h ih =>
      intro hsize
      rw [applyOp_empty ((applyOp_sameShape h).ramSize ▸ hsize)] at h
      cases h
  | @loadFile m₁ m₂ info _ h ih =>
      intro hsize
      have hsize₁ : m₁.ramSize = 0 := (loadFile_sameShape h).ramSize ▸ hsize
      rcases loadFile_empty hsize₁ info with hinfo | hinfo
      · rw [hinfo] at h
        cases h
      · rw [hinfo] at h
        obtain rfl := Except.ok.inj h
        exact ih hsize
  | resetTo _ _ h ih =>
      intro _
      obtain ⟨ram, -, h⟩ := bind_eq_ok_iff.mp h
      obtain rfl := Except.ok.inj h
      rfl

/-! ## The invariant -/

/-- **The representation invariant holds of the memories without RAM only**, whichever
constructor a memory comes from and whatever operations it has been through. -/
theorem represented_iff (hmade : m.Made) : m.Represented ↔ m.ramSize = 0 := by
  constructor
  · intro hrep
    apply BitVec.eq_of_toNat_eq
    rw [← hrep.ram, hmade.reserved.ramEmpty]
    rfl
  · intro hsize
    refine ⟨?_, ?_, fun ev => ?_, fun other _ => ?_⟩
    · rw [hmade.reserved.ramEmpty, hsize]
      rfl
    · rw [hmade.reserved.permEmpty, hsize]
      rfl
    · rcases applyEvent_empty (m := m.strict) hsize ev with h | h <;> simp [h]
    · simp [MMU.resetTo, hmade.dirtyBlocks_empty hsize]

theorem represented_without_ram :
    ∃ m, MMU.new 0 (fun _ => 0) (fun _ => 0) = .ok m ∧ m.Represented := by
  have hnew : MMU.new 0 (fun _ => 0) (fun _ => 0) = .ok _ := rfl
  exact ⟨_, hnew, (represented_iff (.new hnew)).mpr rfl⟩

/-- A memory of 128 KiB, fresh from the constructor: its vectors are empty, and an `allocate`
that passes every assertion sets permissions past the end of one of them. -/
theorem fresh_not_represented :
    ∃ m m', MMU.new 0x20000 (fun _ => 0) (fun _ => 0) = .ok m ∧ m.ram.size = 0
      ∧ m.allocate 16 = .ok (0x10000, m') ∧ m.strict.allocate 16 = .error .outOfBounds
      ∧ ¬ m.Represented := by
  refine ⟨_, _, rfl, rfl, rfl, rfl, fun hrep => ?_⟩
  have hsize := hrep.ram
  revert hsize
  decide

end MMU

end Vemu
