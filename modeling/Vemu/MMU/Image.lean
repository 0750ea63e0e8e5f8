import Vemu.MMU.Shape
import Vemu.Lib.BitFields

/-!
# Loading an image

What `load_file` does with a segment in a backed memory (`loadSegment_cases`): the segment ends
below the end of RAM, its bytes and permissions are written there and nowhere else, and the
allocation pointer moves to the next multiple of 64 KiB if that is higher.
-/

namespace Vemu

open Fallible Loop

namespace MMU

variable {m m' : MMU} {seg : MemorySegment}

/-- The end of a segment, rounded up to a multiple of 64 KiB. -/
def segmentTop (seg : MemorySegment) : U64 := (seg.startAddr + seg.memSize + 0xFFFF) &&& ~~~0xFFFF

/-- The same in natural numbers. -/
def roundedEnd (seg : MemorySegment) : ℕ :=
  (seg.startAddr.toNat + seg.memSize.toNat + 0xFFFF) / 0x10000 * 0x10000

/-- Below `2 ^ 63` nothing wraps. -/
lemma toNat_segmentTop (h : seg.startAddr.toNat + seg.memSize.toNat < 2 ^ 63) :
    (segmentTop seg).toNat = roundedEnd seg := by
  have hend : (seg.startAddr + seg.memSize + 0xFFFF).toNat
      = seg.startAddr.toNat + seg.memSize.toNat + 0xFFFF := by
    rw [BitVec.toNat_add, BitVec.toNat_add, Nat.mod_eq_of_lt (show seg.startAddr.toNat + seg.memSize.toNat < 2 ^ 64 by omega)]
    exact Nat.mod_eq_of_lt (by simpa using by omega)
  rw [roundedEnd, ← hend]
  exact BitFields.toNat_and_not_lowMask _ 16

/-- The end of a segment below `2 ^ 63` is rounded up, and by less than 64 KiB. -/
lemma segmentTop_bounds (h : seg.startAddr.toNat + seg.memSize.toNat < 2 ^ 63) :
    seg.startAddr.toNat + seg.memSize.toNat ≤ (segmentTop seg).toNat
      ∧ (segmentTop seg).toNat ≤ seg.startAddr.toNat + seg.memSize.toNat + 0xFFFF := by
  rw [toNat_segmentTop h, roundedEnd]
  omega

/-- A segment in memory has the size it asks for. -/
lemma length_segmentBytes (seg : MemorySegment) :
    (segmentBytes seg).length = seg.memSize.toNat := by
  simp only [segmentBytes, List.length_take, List.length_append, List.length_replicate]
  omega

/-- The memory after a segment has been loaded. -/
def loaded (m : MMU) (seg : MemorySegment) : MMU :=
  { m.withContents (overlay m.ram.data seg.startAddr.toNat (segmentBytes seg))
      (mapOn (fun _ => seg.perms) m.bytePermission.data seg.startAddr.toNat seg.memSize.toNat) with
    allocPtr := if m.allocPtr < segmentTop seg then segmentTop seg else m.allocPtr }

/-- What a successful load of a segment did. -/
lemma loadSegment_cases (hm : m.Backed) (h : m.loadSegment seg = .ok m') :
    m.Fits seg.startAddr seg.memSize.toNat ∧ m' = m.loaded seg := by
  rw [loadSegment, bind_eq_ok_iff] at h
  obtain ⟨m₁, h₁, h⟩ := h
  rw [bind_eq_ok_iff] at h
  obtain ⟨m₂, h₂, h⟩ := h
  rw [bind_eq_ok_iff] at h
  obtain ⟨m₃, h₃, h⟩ := h
  obtain rfl := Except.ok.inj h
  obtain ⟨hfit, rfl⟩ := setPerms_cases hm h₁
  have hm₁ := (setPerms_sameShape h₁).backed hm
  have hlen := length_segmentBytes seg
  have hbuf : (segmentBytes seg).length < 2 ^ 64 := hlen ▸ seg.memSize.isLt
  have hfit₁ : (m.permitted seg.startAddr seg.memSize permWrite).Fits seg.startAddr
      (segmentBytes seg).length := by
    rw [hlen]
    exact hfit
  rcases writeFrom_cases hm₁ hbuf h₂ with ⟨-, -, rfl⟩ | ⟨hwraps, -⟩
  · obtain ⟨-, rfl⟩ := setPerms_cases ((writeFrom_sameShape h₂).backed hm₁) h₃
    refine ⟨hfit, ?_⟩
    simp only [loaded, permitted, written, withContents, hlen, mapOn_const_mapOn]
    rfl
  · exact absurd hfit₁ (not_fits_of_wraps hwraps)

/-- Every segment of an image that was loaded ends below the end of RAM.  The induction is on the
segments that are still to be loaded. -/
lemma loadSegments_fit : ∀ {segs : List MemorySegment} {m m' : MMU}, m.Backed →
    segs.foldlM loadSegment m = .ok m' → ∀ seg ∈ segs, m.Fits seg.startAddr seg.memSize.toNat
  | [], _, _, _, _ => by simp
  | seg :: segs, m, m', hm, h => by
      rw [List.foldlM_cons] at h
      obtain ⟨m₁, h₁, h⟩ := bind_eq_ok_iff.mp h
      have hshape := loadSegment_sameShape h₁
      have hrest := loadSegments_fit (hshape.backed hm) h
      intro seg' hseg'
      rcases List.mem_cons.mp hseg' with rfl | hseg'
      · exact (loadSegment_cases hm h₁).1
      · have hfit := hrest seg' hseg'
        rwa [Fits, hshape.ramSize] at hfit

end MMU

end Vemu
