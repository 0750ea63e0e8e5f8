import Vemu.HostSafety.Memory
import Vemu.Refinement.Step

/-!
# Strings in memory

The constructor writes a string and a zero behind it.  The reader appends every character it has
read, and looks at it only then: the string that comes back is the one that was written and its
zero, one character too many (**`readString_written`**).  `open` does not notice, because it takes
the C string of what it gets.
-/

namespace Vemu

open Fallible Loop

namespace MMU

variable {m : MMU} {addr : U64} {str : List U8}

/-- A character of a string that was written. -/
lemma charAt_written (hfit : m.Fits addr (str.length + 1)) {j : ℕ} (hj : j < (str ++ [0]).length) :
    (m.written addr (str ++ [0])).AcceptsRead (addr + BitVec.ofNat 64 j) 1
      ∧ (m.written addr (str ++ [0])).charAt (addr + BitVec.ofNat 64 j) = (str ++ [0])[j] := by
  have hlen : (str ++ [0]).length = str.length + 1 := by simp
  have hindex := hfit.toNat_index (show j < str.length + 1 by omega)
  have hone : (m.written addr (str ++ [0])).Fits (addr + BitVec.ofNat 64 j) 1 := by
    change (addr + BitVec.ofNat 64 j).toNat + 1 < m.ramSize.toNat
    unfold Fits at hfit
    omega
  refine ⟨Or.inl hone, ?_⟩
  rw [charAt, if_pos hone, hindex]
  exact (overlay_of_mem (by omega) (by omega)).trans (by simp)

/-- What was written is a string, if it has no zero inside. -/
lemma stringAt_written (hfit : m.Fits addr (str.length + 1)) (hstr : (0 : U8) ∉ str) :
    (m.written addr (str ++ [0])).StringAt addr str.length := by
  have hlen : (str ++ [0]).length = str.length + 1 := by simp
  refine ⟨fun j hj => (charAt_written hfit (by omega)).1, fun j hj hzero => ?_, ?_⟩
  · rw [(charAt_written hfit (by omega)).2, List.getElem_append_left hj] at hzero
    exact hstr (hzero ▸ List.getElem_mem hj)
  · rw [(charAt_written hfit (by omega)).2]
    simp

lemma chars_written (hfit : m.Fits addr (str.length + 1)) :
    (m.written addr (str ++ [0])).chars addr str.length = str := by
  refine List.ext_getElem (by simp [chars]) fun j hj hj' => ?_
  have hchar := (charAt_written hfit (show j < (str ++ [0]).length by simp; omega)).2
  simp only [chars, List.getElem_map, List.getElem_range]
  rw [hchar, List.getElem_append_left hj']

end MMU

namespace VEmu

variable {s : VEmu} {addr : U64} {str : List U8}

/-- The bytes of the string and the one behind them are in range, and can be written. -/
structure HasRoom (s : VEmu) (str : List U8) (addr : U64) : Prop where
  fits : s.bus.mmu.Fits addr (str.length + 1)
  writable : s.bus.mmu.Writable addr (str.length + 1)

/-- **What is asked of a string** that is written and read back. -/
def RoundTrips (s : VEmu) (str : List U8) (addr : U64) : Prop :=
  ∃ s', s.writeStringToAddr str addr = .ok s'
    ∧ s'.bus.mmu.readNullTerminatedString addr = .ok str

/-- What comes back instead: the reader stops at the first zero, and keeps it. -/
structure KeepsZero (s s' : VEmu) (str : List U8) (addr : U64) : Prop where
  read : s'.bus.mmu.readNullTerminatedString addr = .ok (str ++ [0])
  first : s'.bus.mmu.StringAt addr str.length
  asCString : cString (str ++ [0]) = str
  /-- No other byte is written. -/
  frame : ∀ k, ¬ (addr.toNat ≤ k ∧ k ≤ addr.toNat + str.length) →
    s'.bus.mmu.ram.data k = s.bus.mmu.ram.data k
      ∧ s'.bus.mmu.bytePermission.data k = s.bus.mmu.bytePermission.data k

lemma writeString_eq (hm : s.bus.mmu.Backed) (hroom : s.HasRoom str addr) :
    s.writeStringToAddr str addr = .ok (s.withMmu (s.bus.mmu.written addr (str ++ [0]))) := by
  have hlen : (str ++ [0]).length = str.length + 1 := by simp
  rw [writeStringToAddr, MMU.writeFrom_of_fits hm (hlen ▸ hroom.fits), if_pos (hlen ▸ hroom.writable)]
  rfl

/-- **A string that is written and read back** has its zero at the end, so no string makes the
round trip. -/
theorem readString_written (hm : s.bus.mmu.Backed) (hstr : (0 : U8) ∉ str)
    (hroom : s.HasRoom str addr) :
    ¬ s.RoundTrips str addr
      ∧ ∃ s', s.writeStringToAddr str addr = .ok s' ∧ KeepsZero s s' str addr := by
  have hwrite := writeString_eq hm hroom
  have hat := MMU.stringAt_written hroom.fits hstr
  have hchars := MMU.chars_written hroom.fits
  have hbacked : (s.bus.mmu.written addr (str ++ [0])).Backed := hm.withContents _ _
  have hread : (s.bus.mmu.written addr (str ++ [0])).readNullTerminatedString addr
      = .ok (str ++ [0]) :=
    (MMU.readString_ok_iff hbacked).mpr ⟨str.length, hat, by rw [hchars]⟩
  refine ⟨?_, _, hwrite, hread, hat, ?_, fun k hk => ?_⟩
  · rintro ⟨s', hs', hback⟩
    obtain rfl := Except.ok.inj (hwrite.symm.trans hs')
    have hsame : str ++ [0] = str := Except.ok.inj (hread.symm.trans hback)
    simp at hsame
  · have hcstring := MMU.cString_chars hat
    rwa [hchars] at hcstring
  · have hout : ¬ (addr.toNat ≤ k ∧ k < addr.toNat + (str ++ [0]).length) := by
      rw [List.length_append, List.length_singleton]
      omega
    exact ⟨overlay_of_not_mem hout, mapOn_of_not_mem hout⟩

/-! ## The empty string, and one of a character -/

lemma hasRoom_onePage (hin : addr.toNat + (str.length + 1) < 4096) :
    (onePage 0 0).HasRoom str addr := by
  refine ⟨hin, fun k _ => ?_⟩
  rw [show (onePage 0 0).bus.mmu.bytePermission.data (addr.toNat + k) = _ from
    permAt_onePage 0 0 addr k]
  decide

theorem readString_written_single : ∃ s',
    (onePage 0 0).writeStringToAddr [0x61] 0x100 = .ok s'
      ∧ KeepsZero (onePage 0 0) s' [0x61] 0x100 :=
  (readString_written (intact_onePage 0 0).memory (by decide) (hasRoom_onePage (by decide))).2

/-- The empty string comes back as a string of one character. -/
theorem not_roundTrips_empty :
    (onePage 0 0).HasRoom [] 0x100
      ∧ ((onePage 0 0).writeStringToAddr [] 0x100 >>= fun s =>
          s.bus.mmu.readNullTerminatedString 0x100) = .ok [0]
      ∧ ¬ RoundTrips (onePage 0 0) [] 0x100 := by
  have hback : ((onePage 0 0).writeStringToAddr [] 0x100 >>= fun s =>
      s.bus.mmu.readNullTerminatedString 0x100) = .ok [0] := by
    decide +kernel
  refine ⟨hasRoom_onePage (by decide), hback, ?_⟩
  rintro ⟨s', hs', hread⟩
  rw [hs', ok_bind, hread] at hback
  cases hback

end VEmu

end Vemu
