import Vemu.Allocation
import Vemu.Invariant
import Vemu.MMU.Words

/-!
# RAM and the devices

RAM starts at address zero and the devices have their windows in the middle of it; nothing keeps
what is loaded or handed out clear of them.  `InRam` says that an access goes to RAM: what is
stored is read back, it is what the memory unit has there and what a fetch finds, and no device
notices.

A `Tenancy` is an emulator together with the ranges that the allocator has handed out and the
loader has filled, at any point of its life.  **`inRam_iff_outsideDevices`**: an access inside
such a range goes to RAM exactly if its first address is in no window.
-/

namespace Vemu

open Fallible Transition

/-! ## Words of the byte memory -/

namespace MMU

variable {m : MMU} {addr : U64} {sz n : ℕ}

lemma two_pow_sizeBytes (hsz : sizeBytes sz = some n) : 2 ^ sz = 256 ^ n := by
  unfold sizeBytes at hsz
  split at hsz <;> simp only [Option.some.injEq, reduceCtorEq] at hsz <;> subst hsz <;> rfl

/-- A fetched word is the one of the byte memory. -/
lemma loadInsn_value {w : U32} {e : ReturnException} (h : m.loadInsn addr = .ok (w, e))
    (haddr : addr.toNat + 4 ≤ 2 ^ 64) {k : ℕ} (hk : k ≤ 4) :
    w.toNat % 256 ^ k = ByteMemory.load m.ram.data addr.toNat 4 % 256 ^ k := by
  have hget : ∀ {i : U64} {b : U8}, m.ram.get i = .ok b → b = m.ram.data i.toNat := by
    intro i b hb
    unfold ByteVec.get at hb
    split_ifs at hb
    exact (Except.ok.inj hb).symm
  have hat : ∀ j < 4, (addr + BitVec.ofNat 64 j).toNat = addr.toNat + j :=
    fun j hj => Loop.toNat_add_ofNat_of_le (by omega)
  rw [loadInsn, bind_eq_ok_iff] at h
  obtain ⟨b0, h0, h⟩ := h
  rw [bind_eq_ok_iff] at h
  obtain ⟨b1, h1, h⟩ := h
  rw [bind_eq_ok_iff] at h
  obtain ⟨b2, h2, h⟩ := h
  rw [bind_eq_ok_iff] at h
  obtain ⟨b3, h3, h⟩ := h
  obtain ⟨rfl, -⟩ := Prod.mk.inj (Except.ok.inj h)
  have hbytes : [b0, b1, b2, b3] = ByteMemory.bytes m.ram.data addr.toNat 4 := by
    rw [hget h0, hget h1, hget h2, hget h3]
    have hat0 : (addr + 0).toNat = addr.toNat + 0 := hat 0 (by decide)
    have hat1 : (addr + 1).toNat = addr.toNat + 1 := hat 1 (by decide)
    have hat2 : (addr + 2).toNat = addr.toNat + 2 := hat 2 (by decide)
    have hat3 : (addr + 3).toNat = addr.toNat + 3 := hat 3 (by decide)
    simp only [ByteMemory.bytes, List.range_succ, List.range_zero, List.nil_append,
      List.cons_append, List.map_cons, List.map_nil, hat0, hat1, hat2, hat3]
  have hdvd : 256 ^ k ∣ 2 ^ 32 := by
    rw [show (2 : ℕ) ^ 32 = 256 ^ 4 by rfl]
    exact pow_dvd_pow 256 hk
  rw [BitVec.toNat_setWidth, Nat.mod_mod_of_dvd _ hdvd, toNat_assemble (by simp), hbytes]
  rfl

end MMU

/-! ## Accesses -/

namespace Bus

/-- The address is in the window of no device. -/
def OutsideDevices (addr : U64) : Prop :=
  inWindow clintBase clintSize addr = false ∧ inWindow plicBase plicSize addr = false
    ∧ inWindow uartBase uartSize addr = false

instance : DecidablePred OutsideDevices := fun _ => inferInstanceAs (Decidable (_ ∧ _ ∧ _))

/-- What a store of `n` bytes that came to an end left behind. -/
structure Held (bus bus' : Bus) (addr data : U64) (sz n : ℕ) : Prop where
  memory : ByteMemory.load bus'.mmu.ram.data addr.toNat n = data.toNat % 2 ^ sz
  /-- It is loaded again, and the load changes nothing. -/
  load : ∃ v e, bus'.load addr sz = .ok ((v, e), bus') ∧ v.toNat = data.toNat % 2 ^ sz
  /-- A fetch finds as much of it as it looks at. -/
  fetch : ∀ w e, bus'.mmu.loadInsn addr = .ok (w, e) →
    w.toNat % 256 ^ min n 4 = data.toNat % 256 ^ min n 4
  devices : bus'.devices = bus.devices

/-- **An access of `n` bytes goes to RAM.**  A store to bytes that cannot be written does not come
to an end: it fails the assertion of `write_from`. -/
structure InRam (bus : Bus) (addr : U64) (sz n : ℕ) : Prop where
  completes : bus.mmu.Writable addr n → ∀ data, ∃ e bus', bus.store addr data sz = .ok (e, bus')
  held : ∀ data e bus', bus.store addr data sz = .ok (e, bus') → Held bus bus' addr data sz n

variable {bus bus' : Bus} {addr data : U64} {sz n : ℕ}

lemma routesToRam_iff {d : Devices} (hd : bus.devices = some d) :
    bus.routesToRam addr = true ↔ OutsideDevices addr := by
  simp [routesToRam, hd, OutsideDevices, and_assoc]

/-- A store to a device goes through and leaves memory alone. -/
lemma store_of_device (h : ¬ bus.routesToRam addr = true) (data : U64) (sz : ℕ) :
    ∃ e bus', bus.store addr data sz = .ok (e, bus') ∧ bus'.mmu = bus.mmu := by
  cases hd : bus.devices with
  | none => simp [routesToRam, hd] at h
  | some d =>
      simp only [store, hd]
      split_ifs with h1 h2 h3
      · exact ⟨_, _, rfl, rfl⟩
      · exact ⟨_, _, rfl, rfl⟩
      · exact ⟨_, _, rfl, rfl⟩
      · simp [routesToRam, h1, h2, h3] at h

/-- A store to RAM that came to an end. -/
lemma held_of_ram (hm : bus.mmu.Backed) (hsz : MMU.sizeBytes sz = some n)
    (hfit : bus.mmu.Fits addr n) (hram : bus.routesToRam addr = true) {e : ReturnException}
    (h : bus.store addr data sz = .ok (e, bus')) : Held bus bus' addr data sz n := by
  rw [store_of_ram hram, storeRam, MMU.store_of_fits hm hsz hfit] at h
  split_ifs at h with hwrite
  · obtain ⟨-, rfl⟩ := Prod.mk.inj (Except.ok.inj h)
    set m := (bus.mmu.written addr (MMU.split n data)).mark addr with hmdef
    have hpow := MMU.two_pow_sizeBytes hsz
    have hn := MMU.sizeBytes_le hsz
    have hmemory : ByteMemory.load m.ram.data addr.toNat n = data.toNat % 256 ^ n := by
      change ByteMemory.load (bus.mmu.written addr (MMU.split n data)).ram.data _ _ = _
      rw [MMU.written_eq_store, ByteMemory.load_store_self]
    refine ⟨hpow ▸ hmemory, ?_, ?_, rfl⟩
    · obtain ⟨v, e', hload, hv⟩ := @MMU.reload bus.mmu addr data sz n hm hsz hfit
      refine ⟨v, e', ?_, hpow ▸ hv⟩
      have hram' : Bus.routesToRam { bus with mmu := m } addr = true := hram
      rw [load_of_ram hram']
      change (m.load addr sz >>= fun r => .ok (r, { bus with mmu := m })) = _
      rw [hmdef, hload, ok_bind]
    · intro w e' hfetch
      have hsize := hm.size
      have haddr : addr.toNat + 4 ≤ 2 ^ 64 := by
        unfold MMU.Fits at hfit
        unfold MMU.maxVectorSize at hsize
        omega
      have h4 := ByteMemory.load_mod m.ram.data addr.toNat (min n 4) (4 - min n 4)
      have hn' := ByteMemory.load_mod m.ram.data addr.toNat (min n 4) (n - min n 4)
      rw [Nat.add_sub_cancel' (min_le_right n 4)] at h4
      rw [Nat.add_sub_cancel' (min_le_left n 4), hmemory,
        Nat.mod_mod_of_dvd _ (pow_dvd_pow 256 (min_le_left n 4))] at hn'
      rw [MMU.loadInsn_value hfetch haddr (min_le_right n 4), h4, hn']
  · rw [error_bind] at h
    cases h

/-- Outside the windows of the devices an access goes to RAM, and inside it does not: the store
leaves memory as it is, whatever was to be stored. -/
lemma inRam_iff_routesToRam (hm : bus.mmu.Backed) (hsz : MMU.sizeBytes sz = some n)
    (hfit : bus.mmu.Fits addr n) : bus.InRam addr sz n ↔ bus.routesToRam addr = true := by
  constructor
  · intro h
    by_contra hdevice
    obtain ⟨e₀, bus₀, hstore₀, hmmu₀⟩ := store_of_device hdevice 0 sz
    obtain ⟨e₁, bus₁, hstore₁, hmmu₁⟩ := store_of_device hdevice 1 sz
    have hzero := (h.held _ _ _ hstore₀).memory
    have hone := (h.held _ _ _ hstore₁).memory
    rw [hmmu₀] at hzero
    rw [hmmu₁, hzero] at hone
    have hsz' : 1 < 2 ^ sz := by
      rw [MMU.two_pow_sizeBytes hsz]
      exact Nat.one_lt_pow (MMU.sizeBytes_le hsz).1.ne' (by decide)
    rw [show (1 : U64).toNat = 1 from rfl, Nat.mod_eq_of_lt hsz'] at hone
    simp at hone
  · intro hram
    refine ⟨?_, fun data e bus' h => held_of_ram hm hsz hfit hram h⟩
    intro hwrite data
    rw [store_of_ram hram, storeRam, MMU.store_of_fits hm hsz hfit, if_pos hwrite]
    exact ⟨_, _, rfl⟩

end Bus

/-! ## The ranges in use -/

/-- An emulator, and the ranges of its RAM that were handed out by `allocate` or filled by
`load_file` so far, each as its base and its size. -/
structure Tenancy where
  vm : VEmu
  ranges : List (ℕ × ℕ)

namespace Tenancy

variable {host : Host}

/-- An emulator that a constructor made, with the ranges in the ledger of the construction and
those of the segments it loaded. -/
inductive Made (host : Host) : Tenancy → Prop
  | intro {junk : Junk} {words : List U32} {hostCalls : ℕ} {memSize : U64} {src : VEmu.Source}
      {s : VEmu} {l : Ledger}
      (h : (VEmu.constructNoting host junk (.after .init words) hostCalls memSize src).run .empty
        = .ok (s, l)) :
      Made host ⟨s, l.ranges ++ src.segments.map MemorySegment.range⟩

/-- The emulator goes a round or receives a character, or its memory is asked for more room or for
another image. -/
inductive Step (host : Host) : Tenancy → Tenancy → Prop
  | goes {s s' : VEmu} {ranges : List (ℕ × ℕ)} (h : VEmu.Step host s s') :
      Step host ⟨s, ranges⟩ ⟨s', ranges⟩
  | allocates {s : VEmu} {ranges : List (ℕ × ℕ)} {size base : U64} {mmu : MMU}
      (h : s.bus.mmu.allocate size = .ok (base, mmu)) :
      Step host ⟨s, ranges⟩ ⟨s.withMmu mmu, ranges ++ [(base.toNat, size.toNat)]⟩
  | loads {s : VEmu} {ranges : List (ℕ × ℕ)} {info : FileInfo} {mmu : MMU}
      (h : s.bus.mmu.loadFile info = .ok mmu) :
      Step host ⟨s, ranges⟩ ⟨s.withMmu mmu, ranges ++ info.segments.map MemorySegment.range⟩

abbrev Reachable (host : Host) : Tenancy → Prop := Transition.Reachable (Made host) (Step host)

/-- The emulator is intact and its ranges are inside RAM. -/
structure Lawful (host : Host) (t : Tenancy) : Prop where
  intact : t.vm.Intact host
  inside : ∀ r ∈ t.ranges, r.1 + r.2 < t.vm.bus.mmu.ramSize.toNat

/-! ## Construction -/

section Construction

variable {junk : Junk} {words : List U32} {hostCalls : ℕ} {memSize : U64} {src : VEmu.Source}
  {s : VEmu} {l : Ledger}

lemma built_of_construct
    (h : VEmu.construct host junk (.after .init words) hostCalls memSize src = .ok s) :
    VEmu.Built host s := by
  cases src with
  | file fName startPc => exact .ofFile h
  | bytes content startPc => exact .ofBytes h
  | image info args => exact .ofInfo h

/-- The segments of an image that an emulator was made from are inside its RAM. -/
lemma segments_inside {decoder : InstructionDecoder}
    (h : VEmu.construct host junk decoder hostCalls memSize src = .ok s) :
    ∀ seg ∈ src.segments, seg.startAddr.toNat + seg.memSize.toNat < memSize.toNat := by
  cases src with
  | file fName startPc => simp [VEmu.Source.segments]
  | bytes content startPc => simp [VEmu.Source.segments]
  | image info args =>
      obtain ⟨s₀, m, hblank, hload, -⟩ := VEmu.ofInfo_setup h
      have hsound := VEmu.sound_blank hblank
      intro seg hseg
      have hfit := MMU.loadSegments_fit hsound.backed hload seg hseg
      rwa [MMU.Fits, hsound.ramSize] at hfit

lemma Made.lawful {t : Tenancy} (h : Made host t) : Lawful host t := by
  obtain @⟨junk, words, hostCalls, memSize, src, s, l, h⟩ := h
  have hconstruct := VEmu.construct_erases host junk (.after .init words) hostCalls memSize src
    .empty
  rw [h] at hconstruct
  have hsound := VEmu.constructNoting_sound h
  refine ⟨(built_of_construct hconstruct.symm).intact, ?_⟩
  intro r hr
  change r.1 + r.2 < s.bus.mmu.ramSize.toNat
  rw [hsound.ramSize]
  rcases List.mem_append.mp hr with hr | hr
  · exact hsound.inside r hr
  · obtain ⟨seg, hseg, rfl⟩ := List.mem_map.mp hr
    exact segments_inside hconstruct.symm seg hseg

end Construction

/-! ## Life -/

/-- A round keeps the size of RAM. -/
lemma ramSize_of_step {s s' : VEmu} (h : VEmu.Step host s s') :
    s'.bus.mmu.ramSize = s.bus.mmu.ramSize := by
  cases h with
  | round h => exact (VEmu.iterate_sameShape h).ramSize
  | receive hd c => rfl

/-- More ranges, in a memory of the same shape. -/
lemma Lawful.grow {s : VEmu} {ranges new : List (ℕ × ℕ)} {mmu : MMU}
    (ht : Lawful host ⟨s, ranges⟩) (hshape : s.bus.mmu.SameShape mmu)
    (hnew : ∀ r ∈ new, r.1 + r.2 < s.bus.mmu.ramSize.toNat) :
    Lawful host ⟨s.withMmu mmu, ranges ++ new⟩ := by
  refine ⟨ht.intact.withMmu (hshape.backed ht.intact.memory), ?_⟩
  intro r hr
  change r.1 + r.2 < mmu.ramSize.toNat
  rw [hshape.ramSize]
  rcases List.mem_append.mp hr with hr | hr
  · exact ht.inside r hr
  · exact hnew r hr

/-- What is handed out or loaded is inside RAM, and stays there. -/
lemma Lawful.step {t t' : Tenancy} (ht : Lawful host t) (h : Step host t t') : Lawful host t' := by
  cases h with
  | goes h =>
      refine ⟨h.intact ht.intact, ?_⟩
      intro r hr
      rw [ramSize_of_step h]
      exact ht.inside r hr
  | allocates h =>
      obtain ⟨rfl, hfit, -⟩ := MMU.allocate_cases ht.intact.memory h
      refine ht.grow (MMU.allocate_sameShape h) fun r hr => ?_
      obtain rfl := List.mem_singleton.mp hr
      exact hfit
  | loads h =>
      refine ht.grow (MMU.loadFile_sameShape h) fun r hr => ?_
      obtain ⟨seg, hseg, rfl⟩ := List.mem_map.mp hr
      exact MMU.loadSegments_fit ht.intact.memory h seg hseg

theorem Reachable.lawful {t : Tenancy} (h : Reachable host t) : Lawful host t :=
  h.invariant (fun _ h => h.lawful) fun _ _ ht h => ht.step h

/-! ## Separation -/

lemma Lawful.inRam_iff {t : Tenancy} (ht : Lawful host t) (hbuild : host.build ≠ .fuzz)
    {r : ℕ × ℕ} (hr : r ∈ t.ranges) {addr : U64} {sz n : ℕ} (hsz : MMU.sizeBytes sz = some n)
    (hin : r.1 ≤ addr.toNat ∧ addr.toNat + n ≤ r.1 + r.2) :
    t.vm.bus.InRam addr sz n ↔ Bus.OutsideDevices addr := by
  have hfit : t.vm.bus.mmu.Fits addr n := lt_of_le_of_lt hin.2 (ht.inside r hr)
  have hdevices : t.vm.bus.devices.isNone = false := by
    rw [ht.intact.devices]
    simpa using hbuild
  cases hd : t.vm.bus.devices with
  | none => simp [hd] at hdevices
  | some d => rw [Bus.inRam_iff_routesToRam ht.intact.memory hsz hfit, Bus.routesToRam_iff hd]

/-- **RAM and the devices are separate outside the windows, and only there.**  At every point of
the life of an emulator with devices, an access inside a range that was handed out or loaded goes
to RAM exactly if its first address is in the window of no device. -/
theorem inRam_iff_outsideDevices {t : Tenancy} (h : Reachable host t) (hbuild : host.build ≠ .fuzz)
    {r : ℕ × ℕ} (hr : r ∈ t.ranges) {addr : U64} {sz n : ℕ} (hsz : MMU.sizeBytes sz = some n)
    (hin : r.1 ≤ addr.toNat ∧ addr.toNat + n ≤ r.1 + r.2) :
    t.vm.bus.InRam addr sz n ↔ Bus.OutsideDevices addr :=
  h.lawful.inRam_iff hbuild hr hsz hin

/-- The first double word of the stack of a program of one word. -/
theorem inRam_stack :
    ∃ t, Reachable (.bare .emu) t ∧ (0x10000, 0x100000) ∈ t.ranges
      ∧ t.vm.bus.InRam 0x10000 64 8 := by
  have hview : ((VEmu.constructNoting (.bare .emu) .zero (.after .init []) 0 0x8000000
        (.image (VEmu.oneWord 0x0000006F) [])).run .empty >>= fun r => .ok r.2.ranges)
      = .ok [(0x10000, 0x100000), (0x110000, 0x100)] := by
    decide +kernel
  obtain ⟨⟨s, l⟩, hmade, hview⟩ := bind_eq_ok_iff.mp hview
  have hranges : l.ranges = _ := Except.ok.inj hview
  have hreach : Reachable (.bare .emu) _ := .start ⟨hmade⟩
  have hmem : (0x10000, 0x100000) ∈ l.ranges := by
    rw [hranges]
    decide
  refine ⟨_, hreach, List.mem_append_left _ hmem, ?_⟩
  exact (inRam_iff_outsideDevices hreach (by decide) (List.mem_append_left _ hmem) rfl
    (by decide)).mpr (by decide)

/-- A program image whose one segment, eight bytes of data, starts where the window of the CLINT
does. -/
def atClint : FileInfo where
  fileName := []
  segments := [⟨permRead ||| permWrite, clintBase, 8, 8, List.replicate 8 0, rfl⟩]
  entryPoint := clintBase

/-- With the default size of RAM the image is loaded, and an access to its data goes to the
device. -/
theorem not_inRam_atClint :
    ∃ t, Reachable (.bare .emu) t ∧ (0x2000000, 8) ∈ t.ranges
      ∧ ¬ t.vm.bus.InRam 0x2000000 64 8 := by
  have hview : ((VEmu.constructNoting (.bare .emu) .zero (.after .init []) 0 0x8000000
        (.image atClint [])).run .empty >>= fun _ => .ok ()) = .ok () := by
    decide +kernel
  obtain ⟨⟨s, l⟩, hmade, -⟩ := bind_eq_ok_iff.mp hview
  have hreach : Reachable (.bare .emu) _ := .start ⟨hmade⟩
  have hmem : (0x2000000, 8) ∈ l.ranges ++ [(0x2000000, 8)] := by simp
  refine ⟨_, hreach, hmem, ?_⟩
  rw [hreach.lawful.inRam_iff (by decide) hmem rfl (by decide)]
  decide

end Tenancy

end Vemu
