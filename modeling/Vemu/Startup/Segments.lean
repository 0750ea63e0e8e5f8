import Mathlib.Order.Bounds.Basic
import Vemu.Startup.Image

/-!
# Loading segments

What `load_file` leaves behind for segments that do not overlap and end below the end of RAM
(`LoadsSegments`).  This determines the memory (`LoadsSegments.unique`) and does not depend on the
order of the segments (`LoadsSegments.perm`).

**`loadFile_spec`**: such segments are loaded, in whatever order they come.
-/

namespace Vemu

open Fallible Loop Bump

/-! ## The bytes of an image -/

variable {seg : MemorySegment} {segs segs' : List MemorySegment} {k : ℕ}

/-- The bytes of the file that fit, and zeros after them. -/
lemma getElem?_segmentBytes (hk : k < seg.memSize.toNat) :
    (MMU.segmentBytes seg)[k]? = some (seg.data[k]?.getD 0) := by
  rw [MMU.segmentBytes, List.getElem?_take, if_pos hk, List.getElem?_append]
  by_cases hdata : k < seg.data.length
  · simp [hdata]
  · rw [if_neg hdata, List.getElem?_replicate, if_pos (by omega), List.getElem?_eq_none (by omega)]
    rfl

namespace MemorySegment

lemma byteAt_add (hk : k < seg.memSize.toNat) :
    seg.byteAt (seg.startAddr.toNat + k) = some (seg.data[k]?.getD 0, seg.perms) := by
  rw [byteAt, if_pos (Nat.le_add_right _ _), Nat.add_sub_cancel_left, getElem?_segmentBytes hk]
  rfl

lemma byteAt_of_not_mem (hk : k ∉ span seg.range) : seg.byteAt k = none := by
  by_cases hlo : seg.startAddr.toNat ≤ k
  · exact byteAt_eq_none (not_lt.mp fun hhi => hk ⟨hlo, hhi⟩)
  · exact if_neg hlo

end MemorySegment

lemma imageAt_of_not_mem (hk : ∀ seg ∈ segs, k ∉ span seg.range) : imageAt segs k = none := by
  induction segs with
  | nil => rfl
  | cons seg segs ih =>
      rw [imageAt, ih fun seg' hseg' => hk seg' (List.mem_cons_of_mem seg hseg'),
        MemorySegment.byteAt_of_not_mem (hk seg List.mem_cons_self)]
      rfl

/-- **Where segments do not overlap**, an image has the byte of the one segment that has it. -/
lemma imageAt_of_mem (hapart : segs.Pairwise fun a b => Disjoint (span a.range) (span b.range))
    (hseg : seg ∈ segs) (hk : k ∈ span seg.range) : imageAt segs k = seg.byteAt k := by
  induction segs with
  | nil => cases hseg
  | cons seg' segs ih =>
      obtain ⟨hhead, htail⟩ := List.pairwise_cons.mp hapart
      rw [imageAt]
      rcases List.mem_cons.mp hseg with rfl | hmem
      · have hnone : imageAt segs k = none :=
          imageAt_of_not_mem fun other hother => Set.disjoint_left.mp (hhead other hother) hk
        rw [hnone]
        rfl
      · have hnone : seg'.byteAt k = none :=
          MemorySegment.byteAt_of_not_mem (Set.disjoint_right.mp (hhead seg hmem) hk)
        rw [ih htail hmem, hnone, Option.or_none]

namespace MMU

variable {m m' : MMU}

/-! ## One segment -/

/-- A segment that ends below the end of RAM is loaded. -/
lemma loadSegment_of_fits (hm : m.Backed) (h : m.Fits seg.startAddr seg.memSize.toNat) :
    m.loadSegment seg = .ok (m.loaded seg) := by
  have hlen := length_segmentBytes seg
  -- the range is made writable first, so that the write goes through
  obtain ⟨m₁, h₁⟩ : ∃ m₁, m.setPerms seg.startAddr seg.memSize permWrite = .ok m₁ :=
    ⟨_, setPerms_of_fits hm h permWrite⟩
  obtain ⟨-, rfl⟩ := setPerms_cases hm h₁
  have hm₁ := (setPerms_sameShape h₁).backed hm
  have hfit₁ : (m.permitted seg.startAddr seg.memSize permWrite).Fits seg.startAddr
      (segmentBytes seg).length := by
    rw [hlen]
    exact h
  have hwritable : (m.permitted seg.startAddr seg.memSize permWrite).Writable seg.startAddr
      (segmentBytes seg).length := by
    intro k hk
    have hmem : seg.startAddr.toNat ≤ seg.startAddr.toNat + k
        ∧ seg.startAddr.toNat + k < seg.startAddr.toNat + seg.memSize.toNat := by omega
    change mapOn _ _ _ _ _ &&& permWrite ≠ 0
    rw [mapOn_of_mem hmem]
    decide
  have h₂ := writeFrom_of_fits hm₁ hfit₁
  rw [if_pos hwritable] at h₂
  have h₃ := setPerms_of_fits ((writeFrom_sameShape h₂).backed hm₁) h seg.perms
  have hok : ∃ m', m.loadSegment seg = .ok m' := by
    rw [loadSegment, h₁, ok_bind, h₂, ok_bind]
    dsimp only
    rw [h₃, ok_bind]
    exact ⟨_, rfl⟩
  obtain ⟨m', hok⟩ := hok
  rw [hok, (loadSegment_cases hm hok).2]

/-- Segments that end below the end of RAM are all loaded. -/
lemma exists_loadSegments (hm : m.Backed) (h : ∀ seg ∈ segs, m.Fits seg.startAddr seg.memSize.toNat) :
    ∃ m', segs.foldlM loadSegment m = .ok m' := by
  induction segs generalizing m with
  | nil => exact ⟨m, rfl⟩
  | cons seg segs ih =>
      have hload := loadSegment_of_fits hm (h seg List.mem_cons_self)
      have hshape := loadSegment_sameShape hload
      rw [List.foldlM_cons, hload, ok_bind]
      refine ih (hshape.backed hm) fun seg' hseg' => ?_
      rw [Fits, hshape.ramSize]
      exact h seg' (List.mem_cons_of_mem seg hseg')

/-- The contents and the allocation pointer are all that loading changes. -/
lemma loadSegments_rest (hm : m.Backed) (h : segs.foldlM loadSegment m = .ok m') :
    m' = { m.withContents m'.ram.data m'.bytePermission.data with allocPtr := m'.allocPtr } := by
  induction segs generalizing m with
  | nil =>
      obtain rfl := Except.ok.inj h
      rfl
  | cons seg segs ih =>
      rw [List.foldlM_cons, bind_eq_ok_iff] at h
      obtain ⟨m₁, h₁, h⟩ := h
      obtain ⟨-, rfl⟩ := loadSegment_cases hm h₁
      have hrest := ih ((loadSegment_sameShape h₁).backed hm) h
      exact hrest

/-! ## The allocation pointer -/

lemma toNat_raised (ptr : U64) (seg : MemorySegment) :
    (raised ptr seg).toNat = max ptr.toNat (segmentTop seg).toNat := by
  unfold raised
  split_ifs with h
  · exact (max_eq_right (le_of_lt (BitVec.lt_def.mp h))).symm
  · exact (max_eq_left (not_lt.mp (mt BitVec.lt_def.mpr h))).symm

/-- The pointer is the highest of its old value and the rounded ends. -/
lemma isGreatest_imageTop (h : ∀ seg ∈ segs, seg.startAddr.toNat + seg.memSize.toNat < 2 ^ 63)
    (ptr : U64) :
    IsGreatest (insert ptr.toNat {n | ∃ seg ∈ segs, n = roundedEnd seg}) (imageTop segs ptr).toNat := by
  induction segs generalizing ptr with
  | nil => simp [imageTop]
  | cons seg segs ih =>
      have hrest := ih (fun seg' hseg' => h seg' (List.mem_cons_of_mem seg hseg')) (raised ptr seg)
      rw [toNat_raised, toNat_segmentTop (h seg List.mem_cons_self)] at hrest
      rw [imageTop_cons]
      constructor
      · rcases hrest.1 with heq | ⟨seg', hseg', heq⟩
        · rcases max_choice ptr.toNat (roundedEnd seg) with hmax | hmax
          · exact Or.inl (heq.trans hmax)
          · exact Or.inr ⟨seg, List.mem_cons_self, heq.trans hmax⟩
        · exact Or.inr ⟨seg', List.mem_cons_of_mem seg hseg', heq⟩
      · have hle := hrest.2 (Or.inl rfl)
        rintro n (rfl | ⟨seg', hseg', rfl⟩)
        · exact (le_max_left _ _).trans hle
        · rcases List.mem_cons.mp hseg' with rfl | hmem
          · exact (le_max_right _ _).trans hle
          · exact hrest.2 (Or.inr ⟨seg', hmem, rfl⟩)

/-! ## What loading leaves -/

/-- **The memory after segments have been loaded.** -/
structure LoadsSegments (m : MMU) (segs : List MemorySegment) (m' : MMU) : Prop where
  data : ∀ seg ∈ segs, ∀ k < min seg.fileSize.toNat seg.memSize.toNat,
    seg.data[k]? = some (m'.ram.data (seg.startAddr.toNat + k))
  zeros : ∀ seg ∈ segs, ∀ k, seg.fileSize.toNat ≤ k → k < seg.memSize.toNat →
    m'.ram.data (seg.startAddr.toNat + k) = 0
  perms : ∀ seg ∈ segs, ∀ k < seg.memSize.toNat,
    m'.bytePermission.data (seg.startAddr.toNat + k) = seg.perms
  /-- Outside the segments nothing changes. -/
  frame : ∀ k, (∀ seg ∈ segs, k ∉ span seg.range) →
    m'.ram.data k = m.ram.data k ∧ m'.bytePermission.data k = m.bytePermission.data k
  allocPtr : IsGreatest (insert m.allocPtr.toNat {n | ∃ seg ∈ segs, n = roundedEnd seg})
    m'.allocPtr.toNat
  /-- Nothing else changes. -/
  rest : m' = { m.withContents m'.ram.data m'.bytePermission.data with allocPtr := m'.allocPtr }

namespace LoadsSegments

/-- The order of the segments does not count. -/
lemma perm (h : m.LoadsSegments segs m') (hperm : segs'.Perm segs) : m.LoadsSegments segs' m' where
  data := fun seg hseg => h.data seg (hperm.mem_iff.mp hseg)
  zeros := fun seg hseg => h.zeros seg (hperm.mem_iff.mp hseg)
  perms := fun seg hseg => h.perms seg (hperm.mem_iff.mp hseg)
  frame := fun k hk => h.frame k fun seg hseg => hk seg (hperm.mem_iff.mpr hseg)
  allocPtr := by simpa only [hperm.mem_iff] using h.allocPtr
  rest := h.rest

/-- The byte of a segment. -/
lemma byte (h : m.LoadsSegments segs m') (hseg : seg ∈ segs) (hk : k < seg.memSize.toNat) :
    m'.ram.data (seg.startAddr.toNat + k) = seg.data[k]?.getD 0 := by
  by_cases hdata : k < seg.fileSize.toNat
  · rw [h.data seg hseg k (lt_min hdata hk)]
    rfl
  · have hnone : seg.data[k]? = none := by
      rw [List.getElem?_eq_none_iff, seg.length_data]
      exact not_lt.mp hdata
    rw [h.zeros seg hseg k (not_lt.mp hdata) hk, hnone]
    rfl

/-- There is only one such memory. -/
lemma unique {m₁ m₂ : MMU} (h₁ : m.LoadsSegments segs m₁) (h₂ : m.LoadsSegments segs m₂) : m₁ = m₂ := by
  have hcontents : ∀ k, m₁.ram.data k = m₂.ram.data k
      ∧ m₁.bytePermission.data k = m₂.bytePermission.data k := by
    intro k
    by_cases hk : ∀ seg ∈ segs, k ∉ span seg.range
    · obtain ⟨hram₁, hperm₁⟩ := h₁.frame k hk
      obtain ⟨hram₂, hperm₂⟩ := h₂.frame k hk
      exact ⟨hram₁.trans hram₂.symm, hperm₁.trans hperm₂.symm⟩
    · push Not at hk
      obtain ⟨seg, hseg, hlo, hhi⟩ := hk
      obtain ⟨j, rfl⟩ := Nat.exists_eq_add_of_le hlo
      have hj : j < seg.memSize.toNat := Nat.lt_of_add_lt_add_left hhi
      exact ⟨(h₁.byte hseg hj).trans (h₂.byte hseg hj).symm,
        (h₁.perms seg hseg j hj).trans (h₂.perms seg hseg j hj).symm⟩
  have hptr : m₁.allocPtr = m₂.allocPtr := BitVec.eq_of_toNat_eq (h₁.allocPtr.unique h₂.allocPtr)
  rw [h₁.rest, h₂.rest, funext fun k => (hcontents k).1, funext fun k => (hcontents k).2, hptr]

end LoadsSegments

/-- What a successful load leaves, for segments that do not overlap. -/
lemma loadSegments_spec (hm : m.Backed)
    (hapart : segs.Pairwise fun a b => Disjoint (span a.range) (span b.range))
    (h : segs.foldlM loadSegment m = .ok m') : m.LoadsSegments segs m' := by
  obtain ⟨hptr, hcontents⟩ := loadSegments_contents hm h
  have hfit := loadSegments_fit hm h
  have hsize : m.ramSize.toNat < 2 ^ 63 := lt_of_le_of_lt hm.size (by decide)
  have hbyte : ∀ seg ∈ segs, ∀ k < seg.memSize.toNat,
      (m'.ram.data (seg.startAddr.toNat + k), m'.bytePermission.data (seg.startAddr.toNat + k))
        = (seg.data[k]?.getD 0, seg.perms) := by
    intro seg hseg k hk
    have hmem : seg.startAddr.toNat + k ∈ span seg.range :=
      ⟨Nat.le_add_right _ _, Nat.add_lt_add_left hk _⟩
    rw [hcontents, imageAt_of_mem hapart hseg hmem, MemorySegment.byteAt_add hk]
    rfl
  refine ⟨?_, ?_, ?_, ?_, ?_, loadSegments_rest hm h⟩
  · intro seg hseg k hk
    obtain ⟨hdata, hmem⟩ := lt_min_iff.mp hk
    rw [(Prod.mk.inj (hbyte seg hseg k hmem)).1, List.getElem?_eq_getElem (by rwa [seg.length_data])]
    rfl
  · intro seg hseg k hdata hk
    rw [(Prod.mk.inj (hbyte seg hseg k hk)).1, List.getElem?_eq_none (by rwa [seg.length_data])]
    rfl
  · intro seg hseg k hk
    exact (Prod.mk.inj (hbyte seg hseg k hk)).2
  · intro k hk
    have hsame := hcontents k
    rw [imageAt_of_not_mem hk] at hsame
    exact Prod.mk.inj hsame
  · rw [hptr]
    exact isGreatest_imageTop (fun seg hseg => lt_trans (hfit seg hseg) hsize) m.allocPtr

/-- **Loading segments** that do not overlap and end below the end of RAM, in any order. -/
theorem loadFile_spec {info : FileInfo} (hm : m.Backed)
    (hapart : info.segments.Pairwise fun a b => Disjoint (span a.range) (span b.range))
    (hfits : ∀ seg ∈ info.segments, m.Fits seg.startAddr seg.memSize.toNat) :
    ∃ m', m.LoadsSegments info.segments m' ∧
      ∀ info' : FileInfo, info'.segments.Perm info.segments → m.loadFile info' = .ok m' := by
  obtain ⟨m', h⟩ := exists_loadSegments hm hfits
  have hspec := loadSegments_spec hm hapart h
  refine ⟨m', hspec, fun info' hperm => ?_⟩
  obtain ⟨m₂, h₂⟩ := exists_loadSegments hm fun seg hseg => hfits seg (hperm.mem_iff.mp hseg)
  have hapart₂ : info'.segments.Pairwise fun a b => Disjoint (span a.range) (span b.range) :=
    hperm.symm.pairwise hapart fun hab => hab.symm
  rw [loadFile, h₂, (loadSegments_spec hm hapart₂ h₂).unique (hspec.perm hperm)]

/-- Of one segment a byte is cut off, and the other is filled up. -/
def cutAndFilled : FileInfo where
  fileName := []
  segments := [⟨permRead, 0x10, 2, 3, [1, 2, 3], rfl⟩,
    ⟨permRead ||| permWrite, 0x20, 4, 1, [9], rfl⟩]
  entryPoint := 0x10

theorem loadFile_spec_cutAndFilled : ∃ m m' : MMU, MMU.new 0x100 (fun _ => 7) (fun _ => 0) = .ok m
    ∧ m.LoadsSegments cutAndFilled.segments m'
    ∧ m.loadFile { cutAndFilled with segments := cutAndFilled.segments.reverse } = .ok m' := by
  obtain ⟨m, hm⟩ : ∃ m, MMU.new 0x100 (fun _ => 7) (fun _ => 0) = .ok m := ⟨_, rfl⟩
  have hsize : m.ramSize = 0x100 := by
    obtain rfl := Except.ok.inj hm
    rfl
  have hapart : Disjoint (span (0x10, 2)) (span (0x20, 4)) := span_disjoint (by decide)
  obtain ⟨m', hspec, hall⟩ := @loadFile_spec m cutAndFilled (backed_new hm)
    (by simpa [cutAndFilled, MemorySegment.range] using hapart) (by simp [cutAndFilled, Fits, hsize])
  exact ⟨m, m', hm, hspec, hall _ (List.reverse_perm _)⟩

end MMU

end Vemu
