import Vemu.Startup.Stages

/-!
# The start of a process

What a program finds when it starts (`StartedUp`): the words at the stack pointer, the strings that
they point to, and its segments.  The constructor builds this up in stages, of which the first is
the loaded image with an empty stack (`stage_image`).

It takes no notice of the windows of the devices, and gives every string 256 bytes.
**`startedUp_iff`**: a program finds what it should exactly if the arguments are shorter than that,
the stack and the strings are clear of the windows, and the name of the file, where it is longer,
can be read past its block.
-/

namespace Vemu

open Fallible Loop Bump

/-! ## The image -/

namespace MMU

variable {m m' : MMU} {seg : MemorySegment} {segs : List MemorySegment}

lemma loaded_contents (hm : m.Backed) (h : m.loadSegment seg = .ok m') (k : ℕ) :
    (m'.ram.data k, m'.bytePermission.data k)
      = (seg.byteAt k).getD (m.ram.data k, m.bytePermission.data k) := by
  obtain ⟨-, rfl⟩ := loadSegment_cases hm h
  have hlen := length_segmentBytes seg
  change (overlay m.ram.data seg.startAddr.toNat (segmentBytes seg) k,
    mapOn (fun _ => seg.perms) m.bytePermission.data seg.startAddr.toNat seg.memSize.toNat k) = _
  unfold MemorySegment.byteAt
  by_cases hk : seg.startAddr.toNat ≤ k ∧ k < seg.startAddr.toNat + seg.memSize.toNat
  · rw [if_pos hk.1, mapOn_of_mem hk, overlay_of_mem hk.1 (by omega),
      List.getElem?_eq_getElem (by omega)]
    rfl
  · rw [mapOn_of_not_mem hk, overlay_of_not_mem (by rwa [hlen])]
    split_ifs
    · rw [List.getElem?_eq_none (by omega)]
      rfl
    · rfl

/-- **What the loader leaves in memory**, and where the allocation pointer is. -/
lemma loadSegments_contents (hm : m.Backed) (h : segs.foldlM loadSegment m = .ok m') :
    m'.allocPtr = imageTop segs m.allocPtr ∧ ∀ k, (m'.ram.data k, m'.bytePermission.data k)
      = (imageAt segs k).getD (m.ram.data k, m.bytePermission.data k) := by
  induction segs generalizing m with
  | nil =>
      obtain rfl := Except.ok.inj h
      exact ⟨rfl, fun _ => rfl⟩
  | cons seg segs ih =>
      rw [List.foldlM_cons, bind_eq_ok_iff] at h
      obtain ⟨m₁, h₁, h⟩ := h
      obtain ⟨hptr, hrest⟩ := ih ((loadSegment_sameShape h₁).backed hm) h
      constructor
      · obtain ⟨-, rfl⟩ := loadSegment_cases hm h₁
        rw [hptr, imageTop_cons]
        rfl
      · intro k
        rw [hrest k, loaded_contents hm h₁ k, imageAt]
        cases imageAt segs k with
        | none => rfl
        | some x => rfl

end MMU

/-- The bytes of an image are below the stack. -/
lemma imageAt_lt {segs : List MemorySegment} {ptr : U64}
    (h : ∀ seg ∈ segs, seg.startAddr.toNat + seg.memSize.toNat < 2 ^ 63) {k : ℕ} {x : U8 × U8}
    (hx : imageAt segs k = some x) : k < (imageTop segs ptr).toNat := by
  by_contra hk
  rw [imageAt_eq_none fun seg hseg =>
    le_trans (segment_le_imageTop hseg ptr (h seg hseg)) (not_lt.mp hk)] at hx
  cases hx

/-! ## The first stage -/

namespace VEmu

variable {host : Host} {junk : Junk} {decoder : InstructionDecoder} {hostCalls : ℕ}
  {info : FileInfo} {args : List (List U8)} {memSize : U64} {s s' : VEmu}

/-- The memory and the devices of a new emulator. -/
structure Unused (host : Host) (junk : Junk) (s : VEmu) : Prop where
  backed : s.bus.mmu.Backed
  allocPtr : s.bus.mmu.allocPtr = 0x10000
  perm : s.bus.mmu.bytePermission.data = junk.perm
  isNone : s.bus.devices.isNone = decide (host.build = .fuzz)
  uart : ∀ d, s.bus.devices = some d → d.uart.uartMem = (UART.new false).uartMem

lemma unused_blank {startPc : U64} {s₀ : VEmu}
    (hblank : blank host junk decoder hostCalls [] startPc memSize = .ok s₀) :
    Unused host junk s₀ := by
  have hbacked := (sound_blank hblank).backed
  rw [blank, bind_eq_ok_iff] at hblank
  obtain ⟨bus, hbus, hblank⟩ := hblank
  have hs : s₀.bus = bus := by
    split_ifs at hblank
    all_goals
      obtain rfl := Except.ok.inj hblank
      rfl
  rw [Bus.new, bind_eq_ok_iff] at hbus
  obtain ⟨mmu, hmmu, hbus⟩ := hbus
  obtain rfl := Except.ok.inj hbus
  rw [MMU.new, bind_eq_ok_iff] at hmmu
  obtain ⟨-, -, hmmu⟩ := hmmu
  obtain rfl := Except.ok.inj hmmu
  refine ⟨hbacked, ?_, ?_, ?_, ?_⟩
  · rw [hs]
  · rw [hs]
    rfl
  · rw [hs]
    dsimp only
    split_ifs with hb
    · simp [hb]
    · simp [hb]
  · intro d hd
    rw [hs] at hd
    dsimp only at hd
    split_ifs at hd
    obtain rfl := Option.some.inj hd
    rfl

/-- The segments of an image that was loaded into a new emulator end below `2 ^ 63`. -/
lemma Unused.segments_lt (h : Unused host junk s) {m : MMU}
    (hload : s.bus.mmu.loadFile info = .ok m) :
    ∀ seg ∈ info.segments, seg.startAddr.toNat + seg.memSize.toNat < 2 ^ 63 := by
  intro seg hseg
  have hsize := h.backed.size
  have hfit := MMU.loadSegments_fit h.backed hload seg hseg
  unfold MMU.maxVectorSize at hsize
  unfold MMU.Fits at hfit
  omega

/-- The memory after the image has been loaded and the stack has been handed out. -/
structure Loaded (junk : Junk) (p : Process) (m : MMU) : Prop where
  footing : Footing p 0 m
  contents : ∀ k < p.stackBase.toNat, ∀ x, imageAt p.info.segments k = some x →
    m.ram.data k = x.1 ∧ m.bytePermission.data k = x.2
  stack : ∀ k, p.stackBase.toNat ≤ k → k < p.stackBase.toNat + 2 ^ 20 →
    m.bytePermission.data k = permRaw ||| permWrite
  beyond : Beyond junk p 0 m

lemma loaded_of_unused (h : Unused host junk s) (p : Process) {m m' : MMU} {base : U64}
    (hload : s.bus.mmu.loadFile p.info = .ok m) (halloc : m.allocate stackSize = .ok (base, m')) :
    base = p.stackBase ∧ Loaded junk p m' := by
  have hsegs := h.segments_lt hload
  have hm := (MMU.loadFile_sameShape hload).backed h.backed
  obtain ⟨hptr, hcontents⟩ := MMU.loadSegments_contents h.backed hload
  rw [h.allocPtr] at hptr
  change m.allocPtr = p.stackBase at hptr
  have hbacked := (MMU.allocate_sameShape halloc).backed hm
  obtain ⟨rfl, hfit, hm'⟩ := MMU.allocate_cases hm halloc
  rw [hptr, MMU.Fits, Process.stackSize_toNat] at hfit
  have hperm : m'.bytePermission.data = mapOn (fun _ => permRaw ||| permWrite) m.bytePermission.data
      p.stackBase.toNat (2 ^ 20) := by
    rw [hm', ← Process.stackSize_toNat, ← hptr]
    rfl
  have hfooting : Footing p 0 m' := by
    refine ⟨hbacked, ?_, ?_⟩
    · rw [hm', hptr]
      exact (BitVec.add_zero p.top).symm
    · rw [hm']
      exact hfit
  refine ⟨hptr, hfooting, ?_, ?_, ?_⟩
  · intro k hk x hx
    obtain ⟨hdata, hperms⟩ := Prod.mk.inj ((hcontents k).trans (congrArg (Option.getD · _) hx))
    rw [hperm, mapOn_of_not_mem (by omega), show m'.ram.data = m.ram.data by rw [hm']; rfl]
    exact ⟨hdata, hperms⟩
  · intro k hlo hhi
    rw [hperm, mapOn_of_mem ⟨hlo, hhi⟩]
  · intro k hk
    have hlot := Process.toNat_lot hfooting.below
    have hnone : imageAt p.info.segments k = none := by
      refine imageAt_eq_none fun seg hseg => ?_
      have hle := segment_le_imageTop hseg 0x10000 (hsegs seg hseg)
      change _ ≤ p.stackBase.toNat at hle
      omega
    obtain ⟨-, hperms⟩ := Prod.mk.inj ((hcontents k).trans (congrArg (Option.getD · _) hnone))
    rw [hperm, mapOn_of_not_mem (by omega), hperms, h.perm]

/-- **The image is loaded and the stack is empty.** -/
lemma stage_image (h : Unused host junk s) (p : Process) {m m' : MMU} {base : U64}
    (hload : s.bus.mmu.loadFile p.info = .ok m) (halloc : m.allocate stackSize = .ok (base, m'))
    (fName : List U8) :
    Stage host junk p [] []
        (({ s.withMmu m' with binFileName := fName } : VEmu).storeReg regSp (base + stackSize))
      ∧ Beyond junk p 0 m' := by
  have hsegs := h.segments_lt hload
  obtain ⟨rfl, hloaded⟩ := loaded_of_unused h p hload halloc
  refine ⟨⟨⟨h.uart, ?_, ?_, ?_, ?_⟩, hloaded.footing, Nat.zero_le _, h.isNone, ?_, hloaded.stack⟩,
    hloaded.beyond⟩
  · intro j v hv
    cases hv
  · intro i str hstr
    cases hstr
  · intro i str hstr
    cases hstr
  · intro k x hx
    have hk : k < p.stackBase.toNat := imageAt_lt hsegs hx
    exact ⟨hk, hloaded.contents k hk x hx⟩
  · rw [loadReg_storeReg_self _ (by decide)]
    exact (BitVec.sub_zero p.top).symm

/-! ## The last stage -/

section

variable {p : Process} (h : ofInfo host junk decoder hostCalls p.info p.args memSize = .ok s)
include h

/-- The stages of the constructor. -/
lemma ofInfo_cases :
    ∃ s₀ s₁ s₂ s₃ s₄ s₅,
      (Stage host junk p [] [] s₀ ∧ Beyond junk p 0 s₀.bus.mmu
        ∧ ∀ seg ∈ p.info.segments, seg.startAddr.toNat + seg.memSize.toNat < 2 ^ 63)
      ∧ (s₀.pushToStack 0 64 = .ok s₁ ∧ s₁.pushToStack 0 64 = .ok s₂
        ∧ s₂.pushToStack 0 64 = .ok s₃)
      ∧ p.args.reverse.foldlM pushString s₃ = .ok s₄ ∧ s₄.pushString p.info.fileName = .ok s₅
      ∧ s₅.pushToStack (BitVec.ofNat 64 p.args.length + 1) 64 = .ok s := by
  obtain ⟨s', m, base, m', s₁, s₂, s₃, s₄, s₅, hblank, hload, halloc, h₁, h₂, h₃, h₄, h₅, h₆⟩ :=
    ofInfo_result h
  have hunused := unused_blank hblank
  obtain ⟨hstage, hbeyond⟩ := stage_image hunused p hload halloc p.info.fileName
  exact ⟨_, s₁, s₂, s₃, s₄, s₅, ⟨hstage, hbeyond, hunused.segments_lt hload⟩, ⟨h₁, h₂, h₃⟩, h₄, h₅,
    h₆⟩

/-- Whatever the arguments are, there is room for their blocks. -/
lemma placed_of_ofInfo (hfits : p.FitsStack) : p.Placed ∧ s.bus.mmu.Backed := by
  obtain ⟨s₀, s₁, s₂, s₃, s₄, s₅, ⟨hstage, -, hsegs⟩, ⟨h₁, h₂, h₃⟩, h₄, h₅, h₆⟩ := ofInfo_cases h
  have hzeros := ((hstage.footing.settled (pushToStack_settled h₁)).settled
    (pushToStack_settled h₂)).settled (pushToStack_settled h₃)
  have hlast := ((hzeros.pushStrings h₄).pushString h₅).settled (pushToStack_settled h₆)
  have hbelow := hlast.below
  rw [List.length_reverse, List.length_nil, Nat.zero_add] at hbelow
  exact ⟨⟨hfits, hbelow, hsegs⟩, hlast.backed⟩

/-- **What there is in the end**, if the arguments are short. -/
lemma stage_last (hfits : p.FitsStack) (hshort : p.Short)
    (hname : p.info.fileName.length < 2 ^ 63) :
    Stage host junk p p.words.reverse p.strings.reverse s := by
  obtain ⟨s₀, s₁, s₂, s₃, s₄, s₅, ⟨hstage, hbeyond, -⟩, ⟨h₁, h₂, h₃⟩, h₄, h₅, h₆⟩ := ofInfo_cases h
  rw [Process.FitsStack, Process.length_words, Process.stackSize_toNat] at hfits
  have hshort' : ∀ arg ∈ p.args.reverse, arg.length < 256 :=
    fun arg harg => hshort arg (List.mem_reverse.mp harg)
  have hlength : p.args.reverse.length = p.args.length := List.length_reverse
  obtain ⟨hstage₁, hkept₁⟩ := hstage.push (by decide) h₁
  obtain ⟨hstage₂, hkept₂⟩ := hstage₁.push (by decide) h₂
  obtain ⟨hstage₃, hkept₃⟩ := hstage₂.push (by decide) h₃
  have hbeyond₃ := hkept₃ 0 (hkept₂ 0 (hkept₁ 0 hbeyond le_rfl) le_rfl) le_rfl
  have hzeros : Stage host junk p (p.pushed ([] : List (List U8)).length) [] s₃ := hstage₃
  obtain ⟨hstage₄, hbeyond₄⟩ := hzeros.pushStrings hbeyond₃ (fun _ hstr => nomatch hstr) hshort'
    (by rw [List.length_nil]; omega) h₄
  rw [List.nil_append, List.length_nil, Nat.zero_add] at hstage₄
  rw [List.length_nil, Nat.zero_add] at hbeyond₄
  obtain ⟨hstage₅, -⟩ := hstage₄.pushString hbeyond₄ hshort' (by omega) hname h₅
  obtain ⟨hstage₆, -⟩ := hstage₅.push (by rw [Process.length_pushed]; omega) h₆
  rw [Process.reverse_words, Process.length_strings, Process.strings, List.reverse_cons,
    BitVec.ofNat_add]
  rwa [hlength] at hstage₆

end

end VEmu

/-! ## What the program finds -/

/-- **The start-up image.** -/
structure StartedUp (p : Process) (s : VEmu) : Prop where
  sp : s.loadReg regSp = p.sp
  /-- The number of strings, the pointers and the zeros. -/
  words : ∀ j v, p.words[j]? = some v → s.Sees (s.loadReg regSp + BitVec.ofNat 64 (8 * j)) 64 v
  /-- The strings, with their terminators. -/
  strings : ∀ i str k b, p.strings[i]? = some str → (str ++ [0])[k]? = some b →
    s.Sees (p.block i + BitVec.ofNat 64 k) 8 (b.setWidth 64)
  apart : p.Apart
  segments : ∀ k x, imageAt p.info.segments k = some x →
    s.bus.mmu.ram.data k = x.1 ∧ s.bus.mmu.bytePermission.data k = x.2

/-- Nothing is in the way of the process. -/
structure Clear (host : Host) (junk : Junk) (p : Process) : Prop where
  short : p.Short
  /-- A string is not longer than that. -/
  name : p.info.fileName.length < 2 ^ 63
  words : ∀ j v, p.words[j]? = some v →
    ShowsWord (decide (host.build = .fuzz)) (p.sp + BitVec.ofNat 64 (8 * j)) v
  strings : ∀ i str k b, p.strings[i]? = some str → (str ++ [0])[k]? = some b →
    ShowsByte (decide (host.build = .fuzz)) (p.block i + BitVec.ofNat 64 k)
      (if k < 256 then permRaw ||| permWrite else junk.perm ((p.block i).toNat + k)) b

namespace Stage

variable {host : Host} {junk : Junk} {p : Process} {s : VEmu}

lemma sees_word (h : Stage host junk p p.words.reverse p.strings.reverse s) {j : ℕ} {v : U64}
    (hv : p.words[j]? = some v) :
    s.Sees (p.sp + BitVec.ofNat 64 (8 * j)) 64 v
      ↔ ShowsWord (decide (host.build = .fuzz)) (p.sp + BitVec.ofNat 64 (8 * j)) v := by
  obtain ⟨hj, -⟩ := List.getElem?_eq_some_iff.mp hv
  have hfits := h.fits
  rw [List.length_reverse] at hfits
  have hroom := h.footing.room
  have hslot := h.toNat_slot (show 8 * (p.words.length - 1 - j + 1) ≤ 2 ^ 20 by omega)
  have hword : p.words.reverse[p.words.length - 1 - j]? = some v := by
    rw [List.getElem?_reverse (by omega), Nat.sub_sub_self (by omega)]
    exact hv
  rw [Process.sp_add hj, ← h.isNone]
  refine VEmu.sees_word_iff h.footing.backed ?_ (h.words _ v hword)
  rw [MMU.Fits, hslot]
  omega

lemma sees_byte (h : Stage host junk p p.words.reverse p.strings.reverse s) {i k : ℕ}
    {str : List U8} {b : U8} (hstr : p.strings[i]? = some str) (hb : (str ++ [0])[k]? = some b) :
    s.Sees (p.block i + BitVec.ofNat 64 k) 8 (b.setWidth 64)
      ↔ ShowsByte (decide (host.build = .fuzz)) (p.block i + BitVec.ofNat 64 k)
          (if k < 256 then permRaw ||| permWrite else junk.perm ((p.block i).toNat + k)) b := by
  obtain ⟨hi, -⟩ := List.getElem?_eq_some_iff.mp hstr
  obtain ⟨hk, -⟩ := List.getElem?_eq_some_iff.mp hb
  rw [Process.length_strings] at hi
  rw [List.length_append, List.length_singleton] at hk
  have hhoused : p.strings.reverse[p.args.length - i]? = some str := by
    rw [List.getElem?_reverse (by rw [Process.length_strings]; omega), Process.length_strings,
      Nat.add_sub_cancel, Nat.sub_sub_self (by omega)]
    exact hstr
  have hinside := h.inside _ str hhoused
  obtain ⟨hram, hperm⟩ := h.strings _ str hhoused k b hb
  have haddr := hinside.toNat_index hk
  rw [← h.isNone]
  refine VEmu.sees_byte_iff h.footing.backed ?_ ?_ ?_ h.uart
  · change (p.lot (p.args.length - i) + BitVec.ofNat 64 k).toNat + 1 < _
    rw [haddr]
    exact lt_of_le_of_lt (Nat.add_le_add_left hk _) hinside
  · change s.bus.mmu.ram.data (p.lot (p.args.length - i) + BitVec.ofNat 64 k).toNat = b
    rw [haddr, hram]
  · change s.bus.mmu.bytePermission.data (p.lot (p.args.length - i) + BitVec.ofNat 64 k).toNat = _
    rw [haddr, hperm]
    rfl

end Stage

namespace VEmu

variable {host : Host} {junk : Junk} {decoder : InstructionDecoder} {hostCalls : ℕ} {memSize : U64}
  {s : VEmu} {p : Process}

/-- No memory has this address, and no device. -/
lemma not_sees_half (hm : s.bus.mmu.Backed) {a : U64} (ha : a.toNat = 2 ^ 63 - 1) (v : U64) :
    ¬ s.Sees a 8 v := by
  obtain rfl : a = 0x7FFFFFFFFFFFFFFF := BitVec.eq_of_toNat_eq ha
  have hsize := hm.size
  unfold MMU.maxVectorSize at hsize
  have hram : s.bus.routesToRam 0x7FFFFFFFFFFFFFFF = true := by
    cases hd : s.bus.devices with
    | none => simp [Bus.routesToRam, hd]
    | some d =>
        rw [Bus.routesToRam_iff hd]
        decide
  have hfit : ¬ s.bus.mmu.Fits 0x7FFFFFFFFFFFFFFF 1 := by
    rw [MMU.Fits, ha]
    omega
  have hwraps : ¬ s.bus.mmu.Wraps 0x7FFFFFFFFFFFFFFF 1 := by
    rw [MMU.Wraps, ha]
    omega
  rintro ⟨s', hload⟩
  rw [load, Bus.load_of_ram hram, MMU.load_of_not rfl hfit hwraps] at hload
  cases hload

/-- **A process is started as it should be** exactly if nothing is in the way. -/
theorem startedUp_iff (h : ofInfo host junk decoder hostCalls p.info p.args memSize = .ok s)
    (hfits : p.FitsStack) : StartedUp p s ↔ Clear host junk p := by
  obtain ⟨hplaced, hbacked⟩ := placed_of_ofInfo h hfits
  constructor
  · intro hs
    have hshort := hplaced.apart_iff.mp hs.apart
    have hname : p.info.fileName.length < 2 ^ 63 := by
      by_contra hlong
      have hblock := hplaced.toNat_block (Nat.zero_le _)
      have hroom := hplaced.room
      rw [Process.stackSize_toNat, Process.length_strings] at hroom
      rw [Nat.sub_zero] at hblock
      obtain ⟨k, hk⟩ := Nat.exists_eq_add_of_le (show (p.block 0).toNat ≤ 2 ^ 63 - 1 by omega)
      have hlen : k < (p.info.fileName ++ [0]).length := by
        rw [List.length_append, List.length_singleton]
        omega
      have hsees := hs.strings 0 p.info.fileName k _ rfl (List.getElem?_eq_getElem hlen)
      refine not_sees_half hbacked ?_ _ hsees
      rw [toNat_add_ofNat_of_le (by omega), ← hk]
    have hstage := stage_last h hfits hshort hname
    refine ⟨hshort, hname, fun j v hv => ?_, fun i str k b hstr hb => ?_⟩
    · have hsees := hs.words j v hv
      rw [hs.sp] at hsees
      exact (hstage.sees_word hv).mp hsees
    · exact (hstage.sees_byte hstr hb).mp (hs.strings i str k b hstr hb)
  · intro hc
    have hstage := stage_last h hfits hc.short hc.name
    have hsp : s.loadReg regSp = p.sp := by
      rw [hstage.sp, List.length_reverse, Process.sp]
    refine ⟨hsp, fun j v hv => ?_, fun i str k b hstr hb => ?_, hplaced.apart_iff.mpr hc.short,
      fun k x hx => (hstage.image k x hx).2⟩
    · rw [hsp]
      exact (hstage.sees_word hv).mpr (hc.words j v hv)
    · exact (hstage.sees_byte hstr hb).mpr (hc.strings i str k b hstr hb)

/-- A process that ends below the windows. -/
lemma clear_of_below (hplaced : p.Placed) (hshort : ∀ str ∈ p.strings, str.length < 256)
    (hbelow : p.stackBase.toNat + 2 ^ 20 + 256 * p.strings.length ≤ clintBase.toNat) :
    Clear host junk p := by
  have houtside : ∀ {a : U64}, a.toNat < clintBase.toNat → Bus.OutsideDevices a := by
    intro a ha
    have hle : clintBase.toNat ≤ plicBase.toNat ∧ clintBase.toNat ≤ uartBase.toNat := by decide
    refine ⟨?_, ?_, ?_⟩
    all_goals
      simp only [Bus.inWindow, Bool.and_eq_false_iff, decide_eq_false_iff_not, BitVec.le_def]
      exact Or.inl (by omega)
  rw [Process.length_strings] at hbelow
  refine ⟨fun arg harg => hshort arg (List.mem_cons_of_mem _ harg), ?_, ?_, ?_⟩
  · exact lt_trans (hshort _ List.mem_cons_self) (by decide)
  · intro j v hv
    obtain ⟨hj, -⟩ := List.getElem?_eq_some_iff.mp hv
    have hfits := hplaced.fits
    rw [Process.FitsStack, Process.stackSize_toNat] at hfits
    refine Or.inr (Or.inl (houtside ?_))
    rw [Process.sp_add hj, Process.slot, Process.toNat_top_sub hplaced.top_lt (by omega)]
    omega
  · intro i str k b hstr hb
    obtain ⟨hi, -⟩ := List.getElem?_eq_some_iff.mp hstr
    obtain ⟨hk, -⟩ := List.getElem?_eq_some_iff.mp hb
    have hlen := hshort str (List.mem_of_getElem? hstr)
    rw [Process.length_strings] at hi
    rw [List.length_append, List.length_singleton] at hk
    have hblock := hplaced.toNat_block (Nat.le_of_lt_succ hi)
    have hlimit := hplaced.top_lt
    have hclint : clintBase.toNat = 0x2000000 := rfl
    refine Or.inl ⟨Or.inr (houtside ?_), ?_⟩
    · rw [toNat_add_ofNat_of_le (by omega)]
      omega
    · rw [if_pos (by omega)]
      decide

/-- A program of one word, with one argument. -/
def withArgument : Process := ⟨oneWord 0x0000006F, [[0x61, 0x62]]⟩

theorem startedUp_withArgument :
    ∃ s, ofInfo (.bare .emu) .zero (.after .init []) 0 withArgument.info withArgument.args 0x8000000
        = .ok s ∧ StartedUp withArgument s := by
  have hview : (ofInfo (.bare .emu) .zero (.after .init []) 0 withArgument.info withArgument.args
      0x8000000 >>= fun _ => .ok ()) = .ok () := by
    decide +kernel
  obtain ⟨s, hs, -⟩ := bind_eq_ok_iff.mp hview
  have hfits : withArgument.FitsStack := by
    unfold Process.FitsStack
    decide
  refine ⟨s, hs, (startedUp_iff hs hfits).mpr (clear_of_below (placed_of_ofInfo hs hfits).1 ?_ ?_)⟩
  · decide
  · decide +kernel

/-- A program of one word whose stack reaches to the end of the window of the CLINT. -/
def belowClint : Process where
  info :=
    { fileName := []
      segments := [⟨permExec ||| permRead, 0x1F00000, 4, 4, MMU.split 4 0x6F, rfl⟩]
      entryPoint := 0x1F00000 }
  args := []

/-- The program finds that it has no arguments at all, not even its name. -/
theorem not_startedUp_belowClint :
    ∃ s, ofInfo (.bare .emu) .zero (.after .init []) 0 belowClint.info belowClint.args 0x8000000
        = .ok s ∧ belowClint.FitsStack ∧ s.Sees (s.loadReg regSp) 64 0 ∧ ¬ StartedUp belowClint s := by
  have hview : (ofInfo (.bare .emu) .zero (.after .init []) 0 belowClint.info belowClint.args
      0x8000000 >>= fun s => s.load (s.loadReg regSp) 64 >>= fun r => .ok r.1)
        = .ok (0, .NormalExecutionReturn) := by
    decide +kernel
  obtain ⟨s, hs, hview⟩ := bind_eq_ok_iff.mp hview
  obtain ⟨⟨r, s'⟩, hload, hr⟩ := bind_eq_ok_iff.mp hview
  obtain rfl : r = _ := Except.ok.inj hr
  refine ⟨s, hs, ?_, ⟨s', hload⟩, fun h => ?_⟩
  · unfold Process.FitsStack
    decide
  · obtain ⟨s'', hsees⟩ := h.words 0 1 rfl
    rw [BitVec.add_zero, hload] at hsees
    cases hsees

end VEmu

end Vemu
