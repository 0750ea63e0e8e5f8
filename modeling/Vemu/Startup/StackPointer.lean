import Vemu.Startup.Image

/-!
# The stack pointer at the start

The calling convention wants the stack pointer to be a multiple of 16 when a program starts.  The
stack ends at such a multiple, because the segments are rounded up to 64 KiB and the stack is as
long as it is.  Every word that is pushed moves the pointer by eight bytes, and there are five of
them besides the arguments: the pointer is aligned exactly where the number of arguments is odd
(**`alignedStart_iff`**).
-/

namespace Vemu

open Fallible

/-! ## The end of the stack -/

/-- Segments are rounded up. -/
lemma MMU.segmentTop_mod (seg : MemorySegment) : (segmentTop seg).toNat % 0x10000 = 0 := by
  have hround : (segmentTop seg).toNat
      = (seg.startAddr + seg.memSize + 0xFFFF).toNat / 2 ^ 16 * 2 ^ 16 :=
    BitFields.toNat_and_not_lowMask _ 16
  rw [hround]
  exact Nat.mul_mod_left _ _

lemma imageTop_mod {segs : List MemorySegment} {ptr : U64} (h : ptr.toNat % 0x10000 = 0) :
    (imageTop segs ptr).toNat % 0x10000 = 0 := by
  induction segs generalizing ptr with
  | nil => exact h
  | cons seg segs ih =>
      rw [imageTop_cons]
      refine ih ?_
      unfold raised
      split_ifs
      · exact MMU.segmentTop_mod seg
      · exact h

lemma Process.top_mod (p : Process) : p.top.toNat % 16 = 0 := by
  have hbase : p.stackBase.toNat % 0x10000 = 0 := imageTop_mod rfl
  have hsize : VEmu.stackSize.toNat = 0x100000 := rfl
  rw [top, BitVec.toNat_add, hsize]
  omega

namespace VEmu

variable {s s' : VEmu}

/-! ## Pushing -/

lemma pushToStack_sp {v : U64} (h : s.pushToStack v 64 = .ok s') :
    s'.loadReg regSp = s.loadReg regSp - 8 := by
  obtain ⟨e, bus, -, rfl⟩ := pushToStack_cases h
  rw [loadReg_storeReg_self _ (by decide)]

lemma pushString_sp {arg : List U8} (h : s.pushString arg = .ok s') :
    s'.loadReg regSp = s.loadReg regSp - 8 := by
  obtain ⟨base, m, m', -, -, hpush⟩ := pushString_cases h
  have hkept : (s.withMmu m').loadReg regSp = s.loadReg regSp := rfl
  rw [pushToStack_sp hpush, hkept]

/-- Eight bytes for each string. -/
lemma pushStrings_sp {strs : List (List U8)} (h : strs.foldlM pushString s = .ok s') :
    s'.loadReg regSp = s.loadReg regSp - BitVec.ofNat 64 (8 * strs.length) := by
  induction strs generalizing s with
  | nil =>
      obtain rfl := Except.ok.inj h
      exact (BitVec.sub_zero _).symm
  | cons str strs ih =>
      rw [List.foldlM_cons, bind_eq_ok_iff] at h
      obtain ⟨s₁, h₁, h⟩ := h
      rw [ih h, pushString_sp h₁, BitVec.sub_sub, List.length_cons, Nat.mul_succ, Nat.add_comm,
        BitVec.ofNat_add]
      rfl

/-! ## The start -/

section

variable {host : Host} {junk : Junk} {decoder : InstructionDecoder} {hostCalls : ℕ}
  {info : FileInfo} {args : List (List U8)} {memSize : U64}

/-- **Where the stack pointer is** when the constructor is through, however many words there are. -/
lemma ofInfo_sp (h : ofInfo host junk decoder hostCalls info args memSize = .ok s) :
    s.loadReg regSp = Process.top ⟨info, args⟩ - BitVec.ofNat 64 (8 * (args.length + 5)) := by
  obtain ⟨s₀, s₁, s₂, s₃, s₄, s₅, ⟨hstage, -, -⟩, ⟨h₁, h₂, h₃⟩, h₄, h₅, h₆⟩ :=
    @ofInfo_cases _ _ _ _ _ _ ⟨info, args⟩ h
  have hstart : s₀.loadReg regSp = Process.top ⟨info, args⟩ :=
    hstage.sp.trans (BitVec.sub_zero _)
  have hwords : 8 * (args.length + 5) = 8 * args.length + 8 + 8 + 8 + 8 + 8 := by ring
  rw [pushToStack_sp h₆, pushString_sp h₅, pushStrings_sp h₄, pushToStack_sp h₃, pushToStack_sp h₂,
    pushToStack_sp h₁, hstart, List.length_reverse, hwords]
  simp only [BitVec.ofNat_add]
  bv_omega

/-- **The alignment of the stack pointer** at the start. -/
theorem alignedStart_iff (h : ofInfo host junk decoder hostCalls info args memSize = .ok s) :
    (s.loadReg regSp).toNat % 16 = 0 ↔ args.length % 2 = 1 := by
  have htop := Process.top_mod ⟨info, args⟩
  rw [ofInfo_sp h, BitVec.toNat_sub, BitVec.toNat_ofNat]
  omega

end

/-- The name of the program, and one argument. -/
theorem alignedStart_one :
    ∃ s, ofInfo (.bare .emu) .zero (.after .init []) 0 (oneWord 0x0000006F) [[0x61]] 0x8000000
        = .ok s ∧ (s.loadReg regSp).toNat % 16 = 0 := by
  have hview : (ofInfo (.bare .emu) .zero (.after .init []) 0 (oneWord 0x0000006F) [[0x61]]
      0x8000000 >>= fun _ => .ok ()) = .ok () := by
    decide +kernel
  obtain ⟨s, hs, -⟩ := bind_eq_ok_iff.mp hview
  exact ⟨s, hs, (alignedStart_iff hs).mpr rfl⟩

/-- Only the name. -/
theorem not_alignedStart_none :
    ∃ s, ofInfo (.bare .emu) .zero (.after .init []) 0 (oneWord 0x0000006F) [] 0x8000000 = .ok s
      ∧ s.loadReg regSp = 0x10FFD8 ∧ ¬ (s.loadReg regSp).toNat % 16 = 0 := by
  have hview : (ofInfo (.bare .emu) .zero (.after .init []) 0 (oneWord 0x0000006F) []
      0x8000000 >>= fun s => .ok (s.loadReg regSp)) = .ok 0x10FFD8 := by
    decide +kernel
  obtain ⟨s, hs, hsp⟩ := bind_eq_ok_iff.mp hview
  have hsp : s.loadReg regSp = 0x10FFD8 := Except.ok.inj hsp
  refine ⟨s, hs, hsp, ?_⟩
  rw [hsp]
  decide

end VEmu

end Vemu
