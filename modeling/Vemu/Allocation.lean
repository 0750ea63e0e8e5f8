import Vemu.Allocation.Ledger
import Vemu.Frame
import Vemu.Lib.BumpAllocator
import Vemu.MMU.Image

/-!
# The allocator and the heap break

The image, the stack, the argument strings and the heap of a program share one pointer.  Seen
with its ledger, the allocator is a bump allocator (`Ledger.bump`): `allocate` hands out the next
addresses, and the loading of a segment raises the pointer past the segment, to a multiple of
64 KiB.

`Sound` is the invariant of a whole history, whoever the callers are; every step of the
constructors and every `brk` keeps it (`historyNoting_sound`).  What it says of the ranges and of
the next call is **`allocations_never_overlap`**.
-/

namespace Vemu

open Fallible Recording Bump Loop

/-! ## Steps that leave the pointer alone -/

namespace MMU

variable {m m' : MMU}

structure Settled (m m' : MMU) : Prop where
  shape : SameShape m m'
  allocPtr : m'.allocPtr = m.allocPtr

lemma Settled.trans {m'' : MMU} (h : Settled m m') (h' : Settled m' m'') : Settled m m'' :=
  ⟨h.shape.trans h'.shape, h'.allocPtr.trans h.allocPtr⟩

lemma setPerms_settled {addr size : U64} {perm : U8} (h : m.setPerms addr size perm = .ok m') :
    Settled m m' := ⟨setPerms_sameShape h, setPerms_allocPtr h⟩

lemma writeFrom_settled {buf : List U8} {addr : U64} (h : m.writeFrom buf addr = .ok m') :
    Settled m m' := ⟨writeFrom_sameShape h, writeFrom_allocPtr h⟩

lemma store_settled {addr data : U64} {sz : ℕ} {e : ReturnException}
    (h : m.store addr data sz = .ok (e, m')) : Settled m m' :=
  ⟨store_sameShape h, store_allocPtr h⟩

end MMU

namespace VEmu

variable {s s' : VEmu}

lemma writeStringToAddr_settled {arg : List U8} {addr : U64}
    (h : s.writeStringToAddr arg addr = .ok s') : s.bus.mmu.Settled s'.bus.mmu := by
  rw [writeStringToAddr, bind_eq_ok_iff] at h
  obtain ⟨mmu, hwrite, h⟩ := h
  obtain rfl := Except.ok.inj h
  exact MMU.writeFrom_settled hwrite

lemma pushToStack_settled {data : U64} {sz : ℕ} (h : s.pushToStack data sz = .ok s') :
    s.bus.mmu.Settled s'.bus.mmu := by
  rw [pushToStack, bind_eq_ok_iff] at h
  obtain ⟨⟨e, s₁⟩, h₁, h⟩ := h
  obtain rfl := Except.ok.inj h
  rw [store, bind_eq_ok_iff] at h₁
  obtain ⟨⟨e', bus⟩, hstore, h₁⟩ := h₁
  obtain ⟨-, rfl⟩ := Prod.mk.inj (Except.ok.inj h₁)
  rcases (Bus.store_leaves hstore).1 with hmmu | ⟨e'', hmmu⟩
  · exact ⟨hmmu ▸ .refl s.bus.mmu, congrArg MMU.allocPtr hmmu⟩
  · exact MMU.store_settled hmmu

end VEmu

/-! ## The invariant -/

/-- The allocator as a bump allocator. -/
def Ledger.bump (l : Ledger) (m : MMU) : Bump.State := ⟨m.allocPtr.toNat, l.ranges, l.past⟩

/-- The addresses of a segment. -/
def MemorySegment.range (seg : MemorySegment) : ℕ × ℕ := (seg.startAddr.toNat, seg.memSize.toNat)

/-- A history that loaded the given segments so far. -/
structure Sound (memSize : U64) (segs : List MemorySegment) (l : Ledger) (m : MMU) : Prop where
  backed : m.Backed
  ramSize : m.ramSize = memSize
  ordered : Ordered (l.bump m)
  inside : ∀ r ∈ l.ranges, r.1 + r.2 < memSize.toNat
  above : ∀ seg ∈ segs, Above (seg.startAddr.toNat + seg.memSize.toNat) (l.bump m)
  /-- A segment may end right below the end of RAM, and its end is rounded up. -/
  near : m.allocPtr.toNat ≤ memSize.toNat + 0x10000

section

variable {memSize : U64} {segs : List MemorySegment} {l : Ledger} {m m' : MMU}

lemma Sound.settled (h : Sound memSize segs l m) (hm : m.Settled m') : Sound memSize segs l m' := by
  have hbump : l.bump m' = l.bump m := by rw [Ledger.bump, hm.allocPtr]; rfl
  exact ⟨hm.shape.backed h.backed, hm.shape.ramSize.trans h.ramSize, hbump ▸ h.ordered, h.inside,
    fun seg hseg => hbump ▸ h.above seg hseg, hm.allocPtr ▸ h.near⟩

/-- **`allocate` is the allocation of the bump allocator.** -/
lemma Sound.bump_allocated (h : Sound memSize segs l m) {size base : U64}
    (halloc : m.allocate size = .ok (base, m')) :
    (l.allocated m base size).bump m' = (l.bump m).alloc size.toNat := by
  obtain ⟨rfl, hfit, rfl⟩ := MMU.allocate_cases h.backed halloc
  have hptr : (m.allocPtr + size).toNat = m.allocPtr.toNat + size.toNat := by
    simpa using MMU.toNat_end_of_fits hfit
  simp only [Ledger.bump, Ledger.allocated, State.alloc, hptr]

lemma Sound.allocated (h : Sound memSize segs l m) {size base : U64}
    (halloc : m.allocate size = .ok (base, m')) :
    Sound memSize segs (l.allocated m base size) m' := by
  have hbump := h.bump_allocated halloc
  have hshape := MMU.allocate_sameShape halloc
  obtain ⟨rfl, hfit, hm'⟩ := MMU.allocate_cases h.backed halloc
  have hfit' : m.allocPtr.toNat + size.toNat < memSize.toNat := h.ramSize ▸ hfit
  have hptr : m'.allocPtr.toNat = m.allocPtr.toNat + size.toNat := congrArg State.ptr hbump
  refine ⟨hshape.backed h.backed, hshape.ramSize.trans h.ramSize, ?_, ?_, ?_, by omega⟩
  · rw [hbump]
    exact h.ordered.alloc _
  · intro r hr
    rcases List.mem_append.mp hr with hr | hr
    · exact h.inside r hr
    · obtain rfl := List.mem_singleton.mp hr
      exact hfit'
  · intro seg hseg
    rw [hbump]
    exact (h.above seg hseg).alloc _

/-- **The loading of a segment raises the pointer of the bump allocator.** -/
lemma Sound.bump_moved (h : Sound memSize segs l m) {seg : MemorySegment}
    (hload : m.loadSegment seg = .ok m') :
    (l.moved m).bump m' = (l.bump m).raise (MMU.segmentTop seg).toNat := by
  obtain ⟨-, rfl⟩ := MMU.loadSegment_cases h.backed hload
  have hptr : (m.loaded seg).allocPtr.toNat
      = max m.allocPtr.toNat (MMU.segmentTop seg).toNat := by
    simp only [MMU.loaded, BitVec.lt_def]
    split_ifs <;> omega
  simp only [Ledger.bump, Ledger.moved, State.raise, hptr]

/-- A segment is loaded before anything is handed out. -/
lemma Sound.moved (h : Sound memSize segs l m) (hnone : l.ranges = []) {seg : MemorySegment}
    (hload : m.loadSegment seg = .ok m') : Sound memSize (segs ++ [seg]) (l.moved m) m' := by
  have hbump := h.bump_moved hload
  have hshape := MMU.loadSegment_sameShape hload
  obtain ⟨hfit, -⟩ := MMU.loadSegment_cases h.backed hload
  have hfit' : seg.startAddr.toNat + seg.memSize.toNat < memSize.toNat := h.ramSize ▸ hfit
  have hsize : memSize.toNat ≤ 2 ^ 63 - 1 := h.ramSize ▸ h.backed.size
  have htop := @MMU.segmentTop_bounds seg (by omega)
  have hptr : m'.allocPtr.toNat = max m.allocPtr.toNat (MMU.segmentTop seg).toNat :=
    congrArg State.ptr hbump
  have hnear := h.near
  refine ⟨hshape.backed h.backed, hshape.ramSize.trans h.ramSize, ?_, h.inside, ?_, by omega⟩
  · rw [hbump]
    exact h.ordered.raise _
  · intro seg' hseg'
    rw [hbump]
    rcases List.mem_append.mp hseg' with hseg' | hseg'
    · exact (h.above seg' hseg').raise _
    · obtain rfl := List.mem_singleton.mp hseg'
      exact above_raise hnone htop.1

/-! ## The steps of a history -/

lemma Sound.allocateNoting {l' : Ledger} {size base : U64} (h : Sound memSize segs l m)
    (hrun : (m.allocateNoting size).run l = .ok ((base, m'), l')) : Sound memSize segs l' m' := by
  rw [MMU.allocateNoting, run_lift_bind_eq_ok_iff] at hrun
  obtain ⟨r, halloc, hrun⟩ := hrun
  obtain ⟨rfl, rfl⟩ := Prod.mk.inj (Except.ok.inj hrun)
  exact h.allocated halloc

/-- The induction is on the segments that are still to be loaded. -/
lemma Sound.loadSegments {l' : Ledger} {todo : List MemorySegment} (h : Sound memSize segs l m)
    (hnone : l.ranges = []) (hrun : (todo.foldlM MMU.loadSegmentNoting m).run l = .ok (m', l')) :
    Sound memSize (segs ++ todo) l' m' := by
  induction todo generalizing segs l m with
  | nil =>
      obtain ⟨rfl, rfl⟩ := Prod.mk.inj (Except.ok.inj hrun)
      rwa [List.append_nil]
  | cons seg todo ih =>
      rw [List.foldlM_cons, run_bind_eq_ok_iff] at hrun
      obtain ⟨m₁, l₁, h₁, hrun⟩ := hrun
      rw [MMU.loadSegmentNoting, run_lift_bind_eq_ok_iff] at h₁
      obtain ⟨m₂, hload, h₁⟩ := h₁
      obtain ⟨rfl, rfl⟩ := Prod.mk.inj (Except.ok.inj h₁)
      have hrest := ih (h.moved hnone hload) hnone hrun
      rwa [List.append_assoc] at hrest

end

namespace VEmu

variable {memSize : U64} {segs : List MemorySegment} {l l' : Ledger} {s s' : VEmu}

lemma loadImageNoting_sound {bytes : List U8} (h : Sound memSize segs l s.bus.mmu)
    (hrun : (s.loadImageNoting bytes).run l = .ok (s', l')) : Sound memSize segs l' s'.bus.mmu := by
  rw [loadImageNoting, run_bind_eq_ok_iff] at hrun
  obtain ⟨⟨base, m₁⟩, l₁, h₁, hrun⟩ := hrun
  dsimp only at hrun
  rw [run_lift_bind_eq_ok_iff] at hrun
  obtain ⟨m₂, h₂, hrun⟩ := hrun
  rw [run_lift_bind_eq_ok_iff] at hrun
  obtain ⟨m₃, h₃, hrun⟩ := hrun
  rw [run_lift_bind_eq_ok_iff] at hrun
  obtain ⟨m₄, h₄, hrun⟩ := hrun
  obtain ⟨rfl, rfl⟩ := Prod.mk.inj (Except.ok.inj hrun)
  have hsettled := ((MMU.setPerms_settled h₂).trans (MMU.writeFrom_settled h₃)).trans
    (MMU.setPerms_settled h₄)
  exact (h.allocateNoting h₁).settled hsettled

lemma pushStringNoting_sound {arg : List U8} (h : Sound memSize segs l s.bus.mmu)
    (hrun : (s.pushStringNoting arg).run l = .ok (s', l')) : Sound memSize segs l' s'.bus.mmu := by
  rw [pushStringNoting, run_bind_eq_ok_iff] at hrun
  obtain ⟨⟨argval, m₁⟩, l₁, h₁, hrun⟩ := hrun
  dsimp only at hrun
  rw [run_lift_bind_eq_ok_iff] at hrun
  obtain ⟨s₂, h₂, hrun⟩ := hrun
  rw [run_lift_eq_ok_iff] at hrun
  obtain ⟨h₃, rfl⟩ := hrun
  exact ((h.allocateNoting h₁).settled (writeStringToAddr_settled h₂)).settled
    (pushToStack_settled h₃)

lemma sysBrkNoting_eq (s : VEmu) :
    sysBrkNoting s
      = if s.rejectsBrk then liftM (normal (s.storeReg regA0 (-1)))
        else s.bus.mmu.allocateNoting s.brkIncrement >>= fun r =>
          liftM (normal ((s.withMmu r.2).storeReg regA0 (r.1 + s.brkIncrement))) := rfl

lemma sysBrkNoting_sound {e : ReturnException} (h : Sound memSize segs l s.bus.mmu)
    (hrun : (sysBrkNoting s).run l = .ok ((e, s'), l')) : Sound memSize segs l' s'.bus.mmu := by
  rw [sysBrkNoting_eq] at hrun
  split_ifs at hrun with hreject
  · obtain ⟨hnormal, rfl⟩ := run_lift_eq_ok_iff.mp hrun
    obtain ⟨-, rfl⟩ := Prod.mk.inj (Except.ok.inj hnormal)
    exact h
  · rw [run_bind_eq_ok_iff] at hrun
    obtain ⟨⟨retBase, m₁⟩, l₁, h₁, hrun⟩ := hrun
    obtain ⟨hnormal, rfl⟩ := run_lift_eq_ok_iff.mp hrun
    obtain ⟨-, rfl⟩ := Prod.mk.inj (Except.ok.inj hnormal)
    exact h.allocateNoting h₁

lemma brkNoting_sound {addr : U64} (h : Sound memSize segs l s.bus.mmu)
    (hrun : (s.brkNoting addr).run l = .ok (s', l')) : Sound memSize segs l' s'.bus.mmu := by
  rw [brkNoting, run_bind_eq_ok_iff] at hrun
  obtain ⟨⟨e, s₁⟩, l₁, h₁, hrun⟩ := hrun
  obtain ⟨rfl, rfl⟩ := Prod.mk.inj (Except.ok.inj hrun)
  exact @sysBrkNoting_sound _ _ _ _ (s.asksBrk addr) _ _ h h₁

variable {host : Host} {junk : Junk} {decoder : InstructionDecoder} {hostCalls : ℕ}

lemma sound_blank {fName : List U8} {startPc : U64}
    (h : blank host junk decoder hostCalls fName startPc memSize = .ok s) :
    Sound memSize [] .empty s.bus.mmu := by
  rw [blank, bind_eq_ok_iff] at h
  obtain ⟨bus, hbus, h⟩ := h
  rw [Bus.new, bind_eq_ok_iff] at hbus
  obtain ⟨mmu, hmmu, hbus⟩ := hbus
  obtain rfl := Except.ok.inj hbus
  have hs : s.bus.mmu = mmu := by
    split_ifs at h
    all_goals
      obtain rfl := Except.ok.inj h
      rfl
  rw [hs]
  have hbacked := MMU.backed_new hmmu
  obtain ⟨_, -, hmmu⟩ := bind_eq_ok_iff.mp hmmu
  obtain rfl := Except.ok.inj hmmu
  refine ⟨hbacked, rfl, ⟨List.Pairwise.nil, ?_, List.pairwise_singleton _ _⟩, ?_, ?_, ?_⟩
  · intro r hr
    cases hr
  · intro r hr
    cases hr
  · intro seg hseg
    cases hseg
  · exact Nat.le_add_left _ _

lemma ofFileNoting_sound {fName : List U8} {startPc : U64}
    (hrun : (ofFileNoting host junk decoder hostCalls fName startPc memSize).run .empty
      = .ok (s', l')) :
    Sound memSize [] l' s'.bus.mmu ∧ (fName = [] → l' = .empty) := by
  rw [ofFileNoting, run_lift_bind_eq_ok_iff] at hrun
  obtain ⟨s, hblank, hrun⟩ := hrun
  have hsound := sound_blank hblank
  split_ifs at hrun with hname
  · obtain ⟨rfl, rfl⟩ := Prod.mk.inj (Except.ok.inj hrun)
    exact ⟨hsound, fun _ => rfl⟩
  · rw [readFileNoting, run_lift_bind_eq_ok_iff] at hrun
    obtain ⟨content, -, hrun⟩ := hrun
    exact ⟨loadImageNoting_sound hsound hrun, fun hnil => absurd hnil hname⟩

lemma ofInfoNoting_sound {info : FileInfo} {args : List (List U8)}
    (hrun : (ofInfoNoting host junk decoder hostCalls info args memSize).run .empty
      = .ok (s', l')) :
    Sound memSize info.segments l' s'.bus.mmu := by
  rw [ofInfoNoting, run_bind_eq_ok_iff] at hrun
  obtain ⟨s, l, hfile, hrun⟩ := hrun
  obtain ⟨hsound, hempty⟩ := ofFileNoting_sound hfile
  rw [run_bind_eq_ok_iff] at hrun
  obtain ⟨m₁, l₁, h₁, hrun⟩ := hrun
  rw [hempty rfl] at hsound h₁
  have hloaded := hsound.loadSegments rfl h₁
  rw [run_bind_eq_ok_iff] at hrun
  obtain ⟨⟨stackBase, m₂⟩, l₂, h₂, hrun⟩ := hrun
  have hstack := hloaded.allocateNoting h₂
  dsimp only at hrun
  rw [run_lift_bind_eq_ok_iff] at hrun
  obtain ⟨s₃, h₃, hrun⟩ := hrun
  rw [run_lift_bind_eq_ok_iff] at hrun
  obtain ⟨s₄, h₄, hrun⟩ := hrun
  rw [run_lift_bind_eq_ok_iff] at hrun
  obtain ⟨s₅, h₅, hrun⟩ := hrun
  rw [run_bind_eq_ok_iff] at hrun
  obtain ⟨s₆, l₆, h₆, hrun⟩ := hrun
  rw [run_bind_eq_ok_iff] at hrun
  obtain ⟨s₇, l₇, h₇, hrun⟩ := hrun
  rw [run_lift_eq_ok_iff] at hrun
  obtain ⟨h₈, rfl⟩ := hrun
  have hpushed : Sound memSize info.segments l₂ s₅.bus.mmu :=
    ((hstack.settled (pushToStack_settled h₃)).settled (pushToStack_settled h₄)).settled
      (pushToStack_settled h₅)
  have hargs := run_foldlM_invariant (fun l s => Sound memSize info.segments l s.bus.mmu)
    (fun _ _ _ _ _ => pushStringNoting_sound) args.reverse hpushed h₆
  exact (pushStringNoting_sound hargs h₇).settled (pushToStack_settled h₈)

lemma constructNoting_sound {src : Source}
    (hrun : (constructNoting host junk decoder hostCalls memSize src).run .empty = .ok (s', l')) :
    Sound memSize src.segments l' s'.bus.mmu := by
  cases src with
  | file fName startPc => exact (ofFileNoting_sound hrun).1
  | bytes content startPc =>
      rw [constructNoting, ofBytesNoting, run_bind_eq_ok_iff] at hrun
      obtain ⟨s, l, hfile, hrun⟩ := hrun
      exact loadImageNoting_sound (ofFileNoting_sound hfile).1 hrun
  | image info args => exact ofInfoNoting_sound hrun

/-- **The invariant holds after every history.** -/
theorem historyNoting_sound {src : Source} {addrs : List U64}
    (hrun : (historyNoting host junk decoder hostCalls memSize src addrs).run .empty
      = .ok (s', l')) :
    Sound memSize src.segments l' s'.bus.mmu := by
  rw [historyNoting, run_bind_eq_ok_iff] at hrun
  obtain ⟨s, l, hmade, hrun⟩ := hrun
  exact run_foldlM_invariant (fun l s => Sound memSize src.segments l s.bus.mmu)
    (fun _ _ _ _ _ => brkNoting_sound) addrs (constructNoting_sound hmade) hrun

/-! ## The heap break -/

lemma loadReg_asksBrk (s : VEmu) (addr : U64) : (s.asksBrk addr).loadReg regA0 = addr := by
  simp only [asksBrk, loadReg, storeReg, RegFile.loadReg, RegFile.data_storeReg]
  rfl

/-- What a call at or above the pointer did when it was not rejected. -/
structure Grown (s s' : VEmu) (addr : U64) : Prop where
  allocPtr : s'.bus.mmu.allocPtr = addr
  result : s'.loadReg regA0 = addr
  ram : s'.bus.mmu.ram = s.bus.mmu.ram
  fresh : ∀ k, s.bus.mmu.allocPtr.toNat ≤ k → k < addr.toNat →
    s'.bus.mmu.bytePermission.data k = permRaw ||| permWrite
  kept : ∀ k, k < s.bus.mmu.allocPtr.toNat ∨ addr.toNat ≤ k →
    s'.bus.mmu.bytePermission.data k = s.bus.mmu.bytePermission.data k

/-- Every outcome of a `brk` call. -/
structure BrkExact (host : Host) (s : VEmu) (addr : U64) : Prop where
  /-- In any RAM that a machine has, it is stopped by an assertion only. -/
  fault : s.bus.mmu.ramSize.toNat ≤ 2 ^ 62 →
    ∀ fault, s.brk host addr = .error fault → fault = .assertFailed
  /-- The program sees -1 exactly if the call was rejected. -/
  result : ∀ s', s.brk host addr = .ok s' → (s'.loadReg regA0 = -1 ↔ (s.asksBrk addr).rejectsBrk)
  rejected : ∀ s', s.brk host addr = .ok s' → s'.loadReg regA0 = -1 →
    s' = (s.asksBrk addr).storeReg regA0 (-1)
  grown : ∀ s', s.brk host addr = .ok s' → s'.loadReg regA0 ≠ -1 → s.bus.mmu.allocPtr ≤ addr →
    Grown s s' addr

lemma brk_of_rejects {addr : U64} (h : (s.asksBrk addr).rejectsBrk = true) :
    s.brk host addr = .ok ((s.asksBrk addr).storeReg regA0 (-1)) := by
  rw [brk_eq, sysBrk_eq, if_pos h]
  rfl

/-- An increment that is not negative is below `2 ^ 63`. -/
lemma toNat_brkIncrement (h : s.rejectsBrk = false) : s.brkIncrement.toNat < 2 ^ 63 := by
  rw [rejectsBrk, show (0 : U64) = 0#64 from rfl, BitVec.slt_zero_eq_msb,
    BitVec.msb_eq_false_iff_two_mul_lt] at h
  omega

/-- So the range that it asks for does not wrap. -/
lemma not_wraps_brk (hsound : Sound memSize segs l s.bus.mmu)
    (hsize : s.bus.mmu.ramSize.toNat ≤ 2 ^ 62) (h : s.rejectsBrk = false) :
    ¬ s.bus.mmu.Wraps s.bus.mmu.allocPtr s.brkIncrement.toNat := by
  intro hwraps
  have hinc := toNat_brkIncrement h
  have hnear := hsound.near
  rw [hsound.ramSize] at hsize
  have hend := hwraps.1
  omega

/-- The emulator after a call that was not rejected. -/
def afterBrk (s : VEmu) : VEmu :=
  (s.withMmu { s.bus.mmu.permitted s.bus.mmu.allocPtr s.brkIncrement (permRaw ||| permWrite) with
      allocPtr := s.bus.mmu.allocPtr + s.brkIncrement }).storeReg regA0
    (s.bus.mmu.allocPtr + s.brkIncrement)

lemma perm_afterBrk (s : VEmu) :
    s.afterBrk.bus.mmu.bytePermission.data
      = mapOn (fun _ => permRaw ||| permWrite) s.bus.mmu.bytePermission.data
          s.bus.mmu.allocPtr.toNat s.brkIncrement.toNat := rfl

lemma brk_of_fits (hm : s.bus.mmu.Backed) {addr : U64} (h : (s.asksBrk addr).rejectsBrk = false)
    (hfit : s.bus.mmu.Fits s.bus.mmu.allocPtr (s.asksBrk addr).brkIncrement.toNat) :
    s.brk host addr = .ok (s.asksBrk addr).afterBrk := by
  rw [brk_eq, sysBrk_eq, if_neg (Bool.eq_false_iff.mp h)]
  rw [show (s.asksBrk addr).bus.mmu = s.bus.mmu from rfl, MMU.allocate_of_fits hm hfit]
  rfl

lemma fits_of_brk (hm : s.bus.mmu.Backed) {addr : U64} (h : (s.asksBrk addr).rejectsBrk = false)
    (hbrk : s.brk host addr = .ok s') :
    s.bus.mmu.Fits s.bus.mmu.allocPtr (s.asksBrk addr).brkIncrement.toNat := by
  rw [brk_eq, sysBrk_eq, if_neg (Bool.eq_false_iff.mp h), bind_eq_ok_iff] at hbrk
  obtain ⟨r, hbrk, -⟩ := hbrk
  rw [bind_eq_ok_iff] at hbrk
  obtain ⟨⟨base, mmu⟩, halloc, -⟩ := hbrk
  exact (MMU.allocate_cases hm halloc).2.1

lemma brk_fault (hsound : Sound memSize segs l s.bus.mmu)
    (hsize : s.bus.mmu.ramSize.toNat ≤ 2 ^ 62) {addr : U64} {fault : Fault}
    (hbrk : s.brk host addr = .error fault) : fault = .assertFailed := by
  by_cases hreject : (s.asksBrk addr).rejectsBrk = true
  · rw [brk_of_rejects hreject] at hbrk
    cases hbrk
  · have haccept := Bool.eq_false_iff.mpr hreject
    by_cases hfit : s.bus.mmu.Fits s.bus.mmu.allocPtr (s.asksBrk addr).brkIncrement.toNat
    · rw [brk_of_fits hsound.backed haccept hfit] at hbrk
      cases hbrk
    · have hwraps := @not_wraps_brk _ _ _ (s.asksBrk addr) hsound hsize haccept
      rw [brk_eq, sysBrk_eq, if_neg hreject, show (s.asksBrk addr).bus.mmu = s.bus.mmu from rfl,
        MMU.allocate_of_not hfit hwraps] at hbrk
      exact (Except.error.inj hbrk).symm

/-- At or above the pointer, the increment leads to the address. -/
lemma add_brkIncrement {addr : U64} (hle : s.bus.mmu.allocPtr ≤ addr) :
    s.bus.mmu.allocPtr + (s.asksBrk addr).brkIncrement = addr := by
  rw [brkIncrement, loadReg_asksBrk, show (s.asksBrk addr).bus = s.bus from rfl]
  split_ifs with hzero
  · subst hzero
    have hptr : s.bus.mmu.allocPtr = 0 := BitVec.eq_of_toNat_eq (Nat.le_zero.mp hle)
    rw [hptr]
    rfl
  · rw [BitVec.add_comm, BitVec.sub_add_cancel]

lemma grown_afterBrk {addr : U64}
    (hfit : s.bus.mmu.Fits s.bus.mmu.allocPtr (s.asksBrk addr).brkIncrement.toNat)
    (hle : s.bus.mmu.allocPtr ≤ addr) : Grown s (s.asksBrk addr).afterBrk addr := by
  have hadd := add_brkIncrement hle
  have hend : s.bus.mmu.allocPtr.toNat + (s.asksBrk addr).brkIncrement.toNat = addr.toNat := by
    have hnat := MMU.toNat_end_of_fits hfit
    rw [BitVec.ofNat_toNat, BitVec.setWidth_eq, hadd] at hnat
    exact hnat.symm
  refine ⟨hadd, ?_, rfl, ?_, ?_⟩
  · rw [afterBrk, loadReg_storeReg_self _ (by decide)]
    exact hadd
  · intro k hlo hhi
    rw [perm_afterBrk]
    exact mapOn_of_mem ⟨hlo, hend ▸ hhi⟩
  · intro k hk
    rw [perm_afterBrk]
    refine mapOn_of_not_mem fun hmem => ?_
    have hhi : k < addr.toNat := hend ▸ hmem.2
    have hlo : s.bus.mmu.allocPtr.toNat ≤ k := hmem.1
    omega

/-- A new end of the heap is below the end of RAM, so it is not -1. -/
lemma loadReg_afterBrk_ne (hsound : Sound memSize segs l s.bus.mmu) {addr : U64}
    (hfit : s.bus.mmu.Fits s.bus.mmu.allocPtr (s.asksBrk addr).brkIncrement.toNat) :
    (s.asksBrk addr).afterBrk.loadReg regA0 ≠ -1 := by
  intro hresult
  rw [afterBrk, loadReg_storeReg_self _ (by decide)] at hresult
  have hnat := MMU.toNat_end_of_fits hfit
  rw [BitVec.ofNat_toNat, BitVec.setWidth_eq] at hnat
  have hend : (s.bus.mmu.allocPtr + (s.asksBrk addr).brkIncrement).toNat = 2 ^ 64 - 1 :=
    congrArg BitVec.toNat hresult
  have hsize := hsound.backed.size
  have hlt := hfit
  unfold MMU.Fits at hlt
  unfold MMU.maxVectorSize at hsize
  omega

/-- **Every outcome of a call in a sound history.** -/
theorem brkExact_of_sound (hsound : Sound memSize segs l s.bus.mmu) (addr : U64) :
    BrkExact host s addr := by
  by_cases hreject : (s.asksBrk addr).rejectsBrk = true
  · have hresult := (s.asksBrk addr).loadReg_storeReg_self (show regA0 ≠ 0 by decide) (-1)
    refine ⟨fun hsize _ => brk_fault hsound hsize, ?_, ?_, ?_⟩
    all_goals
      intro s' hbrk
      rw [brk_of_rejects hreject] at hbrk
      obtain rfl := Except.ok.inj hbrk
    · exact iff_of_true hresult hreject
    · exact fun _ => rfl
    · exact fun hne => absurd hresult hne
  · have haccept := Bool.eq_false_iff.mpr hreject
    refine ⟨fun hsize _ => brk_fault hsound hsize, ?_, ?_, ?_⟩
    all_goals
      intro s' hbrk
      have hfit := fits_of_brk hsound.backed haccept hbrk
      have hne := loadReg_afterBrk_ne hsound hfit
      rw [brk_of_fits hsound.backed haccept hfit] at hbrk
      obtain rfl := Except.ok.inj hbrk
    · exact iff_of_false hne hreject
    · exact fun heq => absurd heq hne
    · exact fun _ hle => grown_afterBrk hfit hle

/-! ## Every history -/

/-- What was handed out overlaps with nothing. -/
structure Separate (memSize : U64) (segs : List MemorySegment) (l : Ledger) (m : MMU) : Prop where
  ranges : l.ranges.Pairwise fun r r' => Disjoint (span r) (span r')
  segments : ∀ seg ∈ segs, ∀ r ∈ l.ranges, Disjoint (span seg.range) (span r)
  inside : ∀ r ∈ l.ranges, r.1 + r.2 ≤ memSize.toNat
  /-- The pointer never decreased. -/
  past : (l.past ++ [m.allocPtr.toNat]).Pairwise (· ≤ ·)

lemma separate_of_sound {m : MMU} (h : Sound memSize segs l m) : Separate memSize segs l m where
  ranges := h.ordered.disjoint
  segments := fun seg hseg _ hr => (h.above seg hseg).disjoint le_rfl hr
  inside := fun r hr => le_of_lt (h.inside r hr)
  past := h.ordered.past

/-- **The allocator and `brk` never overlap.**  After every construction of an emulator and every
sequence of `brk` calls, what was handed out is disjoint in pairs and from every segment, lies
inside RAM, and the pointer never went back; and every further call does exactly what it should. -/
theorem allocations_never_overlap {src : Source} {addrs : List U64}
    (hrun : history host junk decoder hostCalls memSize src addrs = .ok s) :
    ∃ l, (historyNoting host junk decoder hostCalls memSize src addrs).run .empty = .ok (s, l)
      ∧ Separate memSize src.segments l s.bus.mmu
      ∧ ∀ addr, BrkExact host s addr := by
  have herases := history_erases host junk decoder hostCalls memSize src addrs
  obtain ⟨l, hnoting⟩ := herases.exists_run hrun .empty
  have hsound := historyNoting_sound hnoting
  exact ⟨l, hnoting, separate_of_sound hsound, brkExact_of_sound hsound⟩

/-- A program of one word and its stack, a heap that grows once, and a call that is rejected. -/
theorem allocations_never_overlap_oneWord :
    ∃ s l, (historyNoting (.bare .fuzz) .zero (.after .init []) 0 0x200000
        (.image (oneWord 0x0000006F) []) [0x111000, 0x100]).run .empty = .ok (s, l)
      ∧ s.loadReg regA0 = -1
      ∧ l.ranges = [(0x10000, 0x100000), (0x110000, 0x100), (0x110100, 0xF00)]
      ∧ Separate 0x200000 (oneWord 0x0000006F).segments l s.bus.mmu := by
  have hview : ((historyNoting (.bare .fuzz) .zero (.after .init []) 0 0x200000
        (.image (oneWord 0x0000006F) []) [0x111000, 0x100]).run .empty >>= fun r =>
          .ok (r.1.loadReg regA0, r.2.ranges))
      = .ok (-1, [(0x10000, 0x100000), (0x110000, 0x100), (0x110100, 0xF00)]) := by
    decide +kernel
  obtain ⟨⟨s, l⟩, hnoting, hview⟩ := bind_eq_ok_iff.mp hview
  obtain ⟨hresult, hranges⟩ := Prod.mk.inj (Except.ok.inj hview)
  have hrun := history_erases (.bare .fuzz) .zero (.after .init []) 0 0x200000
    (.image (oneWord 0x0000006F) []) [0x111000, 0x100] .empty
  rw [hnoting] at hrun
  obtain ⟨l', hnoting', hseparate, -⟩ := allocations_never_overlap hrun.symm
  obtain ⟨-, rfl⟩ := Prod.mk.inj (Except.ok.inj (hnoting.symm.trans hnoting'))
  exact ⟨s, l, hnoting, hresult, hranges, hseparate⟩

end VEmu

end Vemu
