import Vemu.Startup.Contents

/-!
# The stages of the construction

A process is built up word by word and string by string.  `Stage` says what there is when some
words have been pushed and some strings written, in the order in which it happened.  A string goes
to the block that `allocate` hands out next (`Stage.house`), a word to the place below the last one
(`Stage.push`), and neither touches what is there already.

Long strings would; the stages have short ones.  How far the allocator gets does not depend on the
strings (`Footing`).
-/

namespace Vemu

open Fallible Loop Bump

/-- An element of a list that got one more is an old one, or the new one at the end. -/
lemma snoc_cases {α : Type*} {l : List α} {x y : α} {j : ℕ} (h : (l ++ [x])[j]? = some y) :
    l[j]? = some y ∨ j = l.length ∧ x = y := by
  rcases Nat.lt_or_ge j l.length with hj | hj
  · exact Or.inl (List.getElem?_append_left hj ▸ h)
  · obtain ⟨hlen, -⟩ := List.getElem?_eq_some_iff.mp h
    rw [List.length_append, List.length_singleton] at hlen
    obtain rfl : j = l.length := by omega
    rw [List.getElem?_concat_length] at h
    exact Or.inr ⟨rfl, Option.some.inj h⟩

/-! ## Changes in one place -/

namespace Bus

variable {R : Set ℕ} {bus bus' : Bus} {a v : U64}

/-- Between the two, RAM and the registers changed at the addresses of `R` only. -/
structure Confined (R : Set ℕ) (bus bus' : Bus) : Prop where
  ram : ∀ k, k ∉ R → bus'.mmu.ram.data k = bus.mmu.ram.data k
  perm : ∀ k, k ∉ R → bus'.mmu.bytePermission.data k = bus.mmu.bytePermission.data k
  isNone : bus'.devices.isNone = bus.devices.isNone
  devices : ∀ d', bus'.devices = some d' → ∃ d, bus.devices = some d ∧ d'.uart = d.uart
    ∧ ∀ a : U64, a.toNat ∉ R →
      d'.clint.load64 a = d.clint.load64 a ∧ d'.plic.load64 a = d.plic.load64 a

lemma Confined.withMmu {m : MMU} (hram : ∀ k, k ∉ R → m.ram.data k = bus.mmu.ram.data k)
    (hperm : ∀ k, k ∉ R → m.bytePermission.data k = bus.mmu.bytePermission.data k) :
    Confined R bus { bus with mmu := m } :=
  ⟨hram, hperm, rfl, fun d' hd' => ⟨d', hd', rfl, fun _ _ => ⟨rfl, rfl⟩⟩⟩

lemma Confined.routesToRam (h : Confined R bus bus') (a : U64) :
    bus'.routesToRam a = bus.routesToRam a := by
  rw [Bus.routesToRam, Bus.routesToRam, h.isNone]

end Bus

/-- A word stays where it is. -/
lemma WordAt.confined {R : Set ℕ} {bus bus' : Bus} {a v : U64} (h : WordAt bus a v) (hc : Bus.Confined R bus bus')
    (haway : ∀ k < 8, a.toNat + k ∉ R) : WordAt bus' a v where
  ram := by
    intro hram
    rw [hc.routesToRam] at hram
    obtain ⟨hvalue, hperm⟩ := h.ram hram
    refine ⟨?_, fun k hk => (hc.perm _ (haway k hk)).trans (hperm k hk)⟩
    rw [← hvalue]
    exact ByteMemory.load_congr fun k hk => hc.ram _ (haway k hk)
  clint := by
    intro d' hd' hin
    obtain ⟨d, hd, -, hsame⟩ := hc.devices d' hd'
    rw [(hsame a (haway 0 (by decide))).1]
    exact h.clint d hd hin
  plic := by
    intro d' hd' hin
    obtain ⟨d, hd, -, hsame⟩ := hc.devices d' hd'
    rw [(hsame a (haway 0 (by decide))).2]
    exact h.plic d hd hin

namespace Bus

variable {bus bus' : Bus} {a v : U64}

/-- A word that is stored to RAM where nothing was written yet. -/
lemma written64_pushed (hfresh : ∀ k < 8,
      bus.mmu.bytePermission.data (a.toNat + k) = permRaw ||| permWrite)
    (hram : bus.routesToRam a = true) :
    WordAt { bus with mmu := (bus.mmu.written a (MMU.split 8 v)).mark a } a v
      ∧ Confined (span (a.toNat, 8)) bus
          { bus with mmu := (bus.mmu.written a (MMU.split 8 v)).mark a } := by
  refine ⟨⟨fun _ => ⟨?_, fun k hk => ?_⟩, fun d hd hin => ?_, fun d hd hin => ?_⟩, .withMmu ?_ ?_⟩
  · change ByteMemory.load (bus.mmu.written a (MMU.split 8 v)).ram.data a.toNat 8 = v.toNat
    rw [MMU.written_eq_store, ByteMemory.load_store_self]
    exact Nat.mod_eq_of_lt v.isLt
  · change mapOn MMU.initialised bus.mmu.bytePermission.data a.toNat (MMU.split 8 v).length _ = _
    rw [mapOn_of_mem ⟨Nat.le_add_right _ _, by rw [MMU.length_split]; omega⟩, hfresh k hk]
    decide
  · rw [((routesToRam_iff hd).mp hram).1] at hin
    cases hin
  · rw [((routesToRam_iff hd).mp hram).2.1] at hin
    cases hin
  · intro k hk
    refine overlay_of_not_mem fun hmem => hk ?_
    rwa [MMU.length_split] at hmem
  · intro k hk
    refine mapOn_of_not_mem fun hmem => hk ?_
    rwa [MMU.length_split] at hmem

/-- A word that is stored to a device. -/
lemma stored64_pushed {d : Devices} (hd : bus.devices = some d) (hram : bus.routesToRam a = false) :
    WordAt { bus with devices := some (d.stored64 a v) } a v
      ∧ Confined (span (a.toNat, 8)) bus { bus with devices := some (d.stored64 a v) } := by
  have hne : ∀ {b : U64}, b.toNat ∉ span (a.toNat, 8) → b ≠ a := by
    rintro b hb rfl
    exact hb (Set.mem_Ico.mpr ⟨le_rfl, Nat.lt_add_of_pos_right (Nat.succ_pos 7)⟩)
  refine ⟨⟨?_, ?_, ?_⟩, fun _ _ => rfl, fun _ _ => rfl, by simp [hd], ?_⟩
  · intro hram'
    rw [show Bus.routesToRam { bus with devices := some (d.stored64 a v) } a = bus.routesToRam a by
      simp [routesToRam, hd], hram] at hram'
    cases hram'
  · rintro d' hd' hin
    obtain rfl := Option.some.inj hd'
    rw [Devices.stored64, if_pos hin]
    exact CLINT.load64_store64 d.clint v hin
  · rintro d' hd' hin
    obtain rfl := Option.some.inj hd'
    have hclint : inWindow clintBase clintSize a ≠ true := fun hclint => by
      rw [inWindow_eq_false (by decide) hclint] at hin
      cases hin
    rw [Devices.stored64, if_neg hclint, if_pos hin]
    exact PLIC.load64_store64 d.plic v hin
  · rintro d' hd'
    obtain rfl := Option.some.inj hd'
    refine ⟨d, hd, ?_, fun b hb => ?_⟩
    · unfold Devices.stored64
      split_ifs
      · rfl
      · rfl
      · rfl
    · unfold Devices.stored64
      split_ifs
      · exact ⟨CLINT.load64_store64_of_ne d.clint v (hne hb), rfl⟩
      · exact ⟨rfl, PLIC.load64_store64_of_ne d.plic v (hne hb)⟩
      · exact ⟨rfl, rfl⟩

/-- **A word is stored** where nothing was written yet. -/
lemma store64_pushed (hm : bus.mmu.Backed) (hfit : bus.mmu.Fits a 8)
    (hfresh : ∀ k < 8, bus.mmu.bytePermission.data (a.toNat + k) = permRaw ||| permWrite)
    {e : ReturnException} (h : bus.store a v 64 = .ok (e, bus')) :
    WordAt bus' a v ∧ Confined (span (a.toNat, 8)) bus bus' := by
  cases hram : bus.routesToRam a with
  | true =>
      rw [store_of_ram hram, storeRam, bind_eq_ok_iff] at h
      obtain ⟨⟨e', m⟩, hstore, h⟩ := h
      obtain ⟨-, rfl⟩ := Prod.mk.inj (Except.ok.inj h)
      obtain ⟨-, n, hn, ⟨-, -, rfl⟩ | ⟨hwraps, -⟩⟩ := MMU.store_cases hm hstore
      · obtain rfl := Option.some.inj hn
        exact written64_pushed hfresh hram
      · obtain rfl := Option.some.inj hn
        exact absurd hfit (MMU.not_fits_of_wraps hwraps)
  | false =>
      obtain ⟨d, hd, rfl⟩ := store64_device hram h
      exact stored64_pushed hd hram

end Bus

/-! ## Footing -/

/-- The allocator has handed out the stack and `n` blocks. -/
structure Footing (p : Process) (n : ℕ) (m : MMU) : Prop where
  backed : m.Backed
  allocPtr : m.allocPtr = p.lot n
  room : p.stackBase.toNat + 2 ^ 20 + 256 * n < m.ramSize.toNat

namespace Footing

variable {p : Process} {n : ℕ} {m m' : MMU}

lemma below (h : Footing p n m) : p.stackBase.toNat + 2 ^ 20 + 256 * n < 2 ^ 63 := by
  have hroom := h.room
  have hsize := h.backed.size
  unfold MMU.maxVectorSize at hsize
  omega

lemma settled (h : Footing p n m) (hm : m.Settled m') : Footing p n m' :=
  ⟨hm.shape.backed h.backed, hm.allocPtr.trans h.allocPtr, hm.shape.ramSize ▸ h.room⟩

/-- One block further. -/
lemma allocate (h : Footing p n m) {base : U64} (halloc : m.allocate 256 = .ok (base, m')) :
    base = p.lot n ∧ Footing p (n + 1) m' := by
  have hshape := MMU.allocate_sameShape halloc
  have hbelow := h.below
  obtain ⟨rfl, hfit, rfl⟩ := MMU.allocate_cases h.backed halloc
  have hlot := Process.toNat_lot hbelow
  refine ⟨h.allocPtr, hshape.backed h.backed, ?_, ?_⟩
  · change m.allocPtr + 256 = _
    rw [h.allocPtr, Process.lot, Process.lot, BitVec.add_assoc, Nat.mul_add, BitVec.ofNat_add]
    rfl
  · change _ < m.ramSize.toNat
    rw [MMU.Fits, h.allocPtr, hlot] at hfit
    have hsize : (256 : U64).toNat = 256 := rfl
    omega

lemma pushString {s s' : VEmu} (h : Footing p n s.bus.mmu) {arg : List U8}
    (hpush : s.pushString arg = .ok s') : Footing p (n + 1) s'.bus.mmu := by
  obtain ⟨base, m, m', halloc, hwrite, hpush⟩ := VEmu.pushString_cases hpush
  have hm' := (h.allocate halloc).2.settled (MMU.writeFrom_settled hwrite)
  exact hm'.settled (VEmu.pushToStack_settled hpush)

/-- The allocator gets as far with long strings. -/
lemma pushStrings {s s' : VEmu} (h : Footing p n s.bus.mmu) {strs : List (List U8)}
    (hpush : strs.foldlM VEmu.pushString s = .ok s') :
    Footing p (n + strs.length) s'.bus.mmu := by
  induction strs generalizing n s with
  | nil =>
      obtain rfl := Except.ok.inj hpush
      exact h
  | cons str strs ih =>
      rw [List.foldlM_cons, bind_eq_ok_iff] at hpush
      obtain ⟨s₁, h₁, hpush⟩ := hpush
      have hrest := ih (h.pushString h₁) hpush
      rwa [Nat.add_assoc, Nat.add_comm 1] at hrest

end Footing

/-! ## Stages -/

/-- The bytes of a string are in RAM, with the permissions that a write leaves.  What is past the
block had its permissions before the constructor. -/
def HoldsString (junk : Junk) (m : MMU) (a : ℕ) (str : List U8) : Prop :=
  ∀ k b, str[k]? = some b → m.ram.data (a + k) = b
    ∧ m.bytePermission.data (a + k)
      = MMU.initialised (if k < 256 then permRaw ||| permWrite else junk.perm (a + k))

/-- The words that have been pushed and the strings that have been written are where they should
be, beside the image. -/
structure Stored (junk : Junk) (p : Process) (pushed : List U64) (housed : List (List U8))
    (bus : Bus) : Prop where
  uart : ∀ d, bus.devices = some d → d.uart.uartMem = (UART.new false).uartMem
  words : ∀ j v, pushed[j]? = some v → WordAt bus (p.slot j) v
  strings : ∀ i str, housed[i]? = some str → HoldsString junk bus.mmu (p.lot i).toNat (str ++ [0])
  inside : ∀ i str, housed[i]? = some str → bus.mmu.Fits (p.lot i) (str.length + 1)
  image : ∀ k x, imageAt p.info.segments k = some x → k < p.stackBase.toNat
    ∧ bus.mmu.ram.data k = x.1 ∧ bus.mmu.bytePermission.data k = x.2

/-- **A stage of the construction.** -/
structure Stage (host : Host) (junk : Junk) (p : Process) (pushed : List U64)
    (housed : List (List U8)) (s : VEmu) : Prop extends Stored junk p pushed housed s.bus where
  footing : Footing p housed.length s.bus.mmu
  fits : 8 * pushed.length ≤ 2 ^ 20
  isNone : s.bus.devices.isNone = decide (host.build = .fuzz)
  sp : s.loadReg regSp = p.top - BitVec.ofNat 64 (8 * pushed.length)
  fresh : ∀ k, p.stackBase.toNat ≤ k → k + 8 * pushed.length < p.stackBase.toNat + 2 ^ 20 →
    s.bus.mmu.bytePermission.data k = permRaw ||| permWrite

/-- Past the blocks, the permissions are what they were before the constructor. -/
def Beyond (junk : Junk) (p : Process) (n : ℕ) (m : MMU) : Prop :=
  ∀ k, (p.lot n).toNat ≤ k → m.bytePermission.data k = junk.perm k

namespace Stored

variable {junk : Junk} {p : Process} {pushed : List U64} {housed : List (List U8)} {bus bus' : Bus}

/-- A change elsewhere. -/
lemma confined {R : Set ℕ} (h : Stored junk p pushed housed bus) (hc : Bus.Confined R bus bus')
    (hsize : bus'.mmu.ramSize = bus.mmu.ramSize)
    (hwords : ∀ j < pushed.length, ∀ k < 8, (p.slot j).toNat + k ∉ R)
    (hstrings : ∀ i str, housed[i]? = some str → ∀ k < str.length + 1, (p.lot i).toNat + k ∉ R)
    (himage : ∀ k < p.stackBase.toNat, k ∉ R) : Stored junk p pushed housed bus' where
  uart := by
    intro d' hd'
    obtain ⟨d, hd, hsame, -⟩ := hc.devices d' hd'
    rw [hsame]
    exact h.uart d hd
  words := by
    intro j v hv
    obtain ⟨hj, -⟩ := List.getElem?_eq_some_iff.mp hv
    exact (h.words j v hv).confined hc (hwords j hj)
  strings := by
    intro i str hstr k b hb
    obtain ⟨hk, -⟩ := List.getElem?_eq_some_iff.mp hb
    rw [List.length_append, List.length_singleton] at hk
    rw [hc.ram _ (hstrings i str hstr k hk), hc.perm _ (hstrings i str hstr k hk)]
    exact h.strings i str hstr k b hb
  inside := by
    intro i str hstr
    exact lt_of_lt_of_eq (h.inside i str hstr) (congrArg BitVec.toNat hsize).symm
  image := by
    intro k x hx
    obtain ⟨hk, himg⟩ := h.image k x hx
    rw [hc.ram k (himage k hk), hc.perm k (himage k hk)]
    exact ⟨hk, himg⟩

/-- One more word. -/
lemma snoc_word (h : Stored junk p pushed housed bus) {v : U64}
    (hword : WordAt bus (p.slot pushed.length) v) : Stored junk p (pushed ++ [v]) housed bus := by
  refine ⟨h.uart, fun j w hw => ?_, h.strings, h.inside, h.image⟩
  rcases snoc_cases hw with hw | ⟨rfl, rfl⟩
  · exact h.words j w hw
  · exact hword

/-- One more string. -/
lemma snoc_string (h : Stored junk p pushed housed bus) {str : List U8}
    (hholds : HoldsString junk bus.mmu (p.lot housed.length).toNat (str ++ [0]))
    (hfit : bus.mmu.Fits (p.lot housed.length) (str.length + 1)) :
    Stored junk p pushed (housed ++ [str]) bus := by
  refine ⟨h.uart, h.words, fun i str' hstr => ?_, fun i str' hstr => ?_, h.image⟩
  · rcases snoc_cases hstr with hstr | ⟨rfl, rfl⟩
    · exact h.strings i str' hstr
    · exact hholds
  · rcases snoc_cases hstr with hstr | ⟨rfl, rfl⟩
    · exact h.inside i str' hstr
    · exact hfit

end Stored

namespace Stage

variable {host : Host} {junk : Junk} {p : Process} {pushed : List U64} {housed : List (List U8)}
  {s s' : VEmu}

section Addresses

variable (h : Stage host junk p pushed housed s)
include h

lemma top_lt : p.stackBase.toNat + 2 ^ 20 < 2 ^ 63 := by
  have hbelow := h.footing.below
  omega

lemma toNat_slot {j : ℕ} (hj : 8 * (j + 1) ≤ 2 ^ 20) :
    (p.slot j).toNat = p.stackBase.toNat + 2 ^ 20 - 8 * (j + 1) :=
  Process.toNat_top_sub h.top_lt hj

lemma toNat_lot {i : ℕ} (hi : i ≤ housed.length) :
    (p.lot i).toNat = p.stackBase.toNat + 2 ^ 20 + 256 * i := by
  have hbelow := h.footing.below
  exact Process.toNat_lot (by omega)

/-- The place of the next word. -/
lemma sp_sub : s.loadReg regSp - 8 = p.slot pushed.length := by
  rw [h.sp, Process.slot, Nat.mul_add, BitVec.ofNat_add, ← BitVec.sub_sub]
  rfl

/-- It is right below the last one, and on the stack. -/
lemma mem_slot (hroom : 8 * (pushed.length + 1) ≤ 2 ^ 20) {k : ℕ}
    (hk : k ∈ span ((p.slot pushed.length).toNat, 8)) :
    p.stackBase.toNat ≤ k ∧ k + 8 * pushed.length < p.stackBase.toNat + 2 ^ 20
      ∧ p.stackBase.toNat + 2 ^ 20 ≤ k + 8 * (pushed.length + 1) := by
  have hslot := h.toNat_slot hroom
  obtain ⟨hlo, hhi⟩ := Set.mem_Ico.mp hk
  dsimp only at hlo hhi
  omega

/-- The next block is above everything. -/
lemma below_lot (hshort : ∀ str ∈ housed, str.length < 256) {k : ℕ}
    (hk : k ∈ Set.Ici (p.lot housed.length).toNat) :
    p.stackBase.toNat + 2 ^ 20 ≤ k
      ∧ ∀ i str, housed[i]? = some str → (p.lot i).toNat + str.length < k := by
  have hlot := h.toNat_lot (le_refl housed.length)
  have hle := Set.mem_Ici.mp hk
  refine ⟨by omega, fun i str hstr => ?_⟩
  obtain ⟨hi, -⟩ := List.getElem?_eq_some_iff.mp hstr
  have hi' := h.toNat_lot (le_of_lt hi)
  have hlen := hshort str (List.mem_of_getElem? hstr)
  omega

end Addresses

/-! ## A word -/

/-- The next word is stored beside the others. -/
lemma stored_push (h : Stage host junk p pushed housed s)
    (hroom : 8 * (pushed.length + 1) ≤ 2 ^ 20) {v : U64} {e : ReturnException} {bus : Bus}
    (hstore : s.bus.store (p.slot pushed.length) v 64 = .ok (e, bus))
    (hsize : bus.mmu.ramSize = s.bus.mmu.ramSize) :
    Stored junk p (pushed ++ [v]) housed bus
      ∧ Bus.Confined (span ((p.slot pushed.length).toNat, 8)) s.bus bus := by
  have hslot := h.toNat_slot hroom
  have hfit : s.bus.mmu.Fits (p.slot pushed.length) 8 := by
    have hlarge := h.footing.room
    rw [MMU.Fits, hslot]
    omega
  have hfresh : ∀ k < 8, s.bus.mmu.bytePermission.data ((p.slot pushed.length).toNat + k)
      = permRaw ||| permWrite := fun k hk => by
    rw [hslot]
    exact h.fresh _ (by omega) (by omega)
  obtain ⟨hword, hc⟩ := Bus.store64_pushed h.footing.backed hfit hfresh hstore
  refine ⟨(h.toStored.confined hc hsize ?_ ?_ ?_).snoc_word hword, hc⟩
  · intro j hj k _ hmem
    have hj' := h.toNat_slot (show 8 * (j + 1) ≤ 2 ^ 20 by omega)
    have hmem' := h.mem_slot hroom hmem
    omega
  · intro i str hstr k _ hmem
    obtain ⟨hi, -⟩ := List.getElem?_eq_some_iff.mp hstr
    have hi' := h.toNat_lot (le_of_lt hi)
    have hmem' := h.mem_slot hroom hmem
    omega
  · intro k hk hmem
    have hmem' := h.mem_slot hroom hmem
    omega

/-- **A word is pushed.** -/
lemma push (h : Stage host junk p pushed housed s) (hroom : 8 * (pushed.length + 1) ≤ 2 ^ 20)
    {v : U64} (hpush : s.pushToStack v 64 = .ok s') :
    Stage host junk p (pushed ++ [v]) housed s'
      ∧ ∀ n, Beyond junk p n s.bus.mmu → n ≤ housed.length → Beyond junk p n s'.bus.mmu := by
  have hsettled := VEmu.pushToStack_settled hpush
  have hsize := hsettled.shape.ramSize
  have hfooting := h.footing.settled hsettled
  obtain ⟨e, bus, hstore, rfl⟩ := VEmu.pushToStack_cases hpush
  rw [h.sp_sub] at hstore hsize hfooting ⊢
  have hlength : (pushed ++ [v]).length = pushed.length + 1 := List.length_append
  obtain ⟨hstored, hc⟩ := h.stored_push hroom hstore hsize
  refine ⟨⟨hstored, hfooting, hlength ▸ hroom, hc.isNone.trans h.isNone, ?_, ?_⟩, ?_⟩
  · rw [VEmu.loadReg_storeReg_self _ (by decide), hlength]
    rfl
  · intro k hlo hhi
    rw [hlength] at hhi
    have hk : k ∉ span ((p.slot pushed.length).toNat, 8) := fun hmem => by
      have hmem' := h.mem_slot hroom hmem
      omega
    exact (hc.perm k hk).trans (h.fresh k hlo (by omega))
  · intro n hbeyond hn k hk
    have hn' := h.toNat_lot hn
    have hk' : k ∉ span ((p.slot pushed.length).toNat, 8) := fun hmem => by
      have hmem' := h.mem_slot hroom hmem
      omega
    exact (hc.perm k hk').trans (hbeyond k hk)

/-! ## A string -/

/-- What `allocate` and `write_from` do to memory. -/
structure Housed (m : MMU) (base : U64) (str : List U8) (m' : MMU) : Prop where
  ramSize : m'.ramSize = m.ramSize
  fits : m'.Fits base (str.length + 1)
  ram : m'.ram.data = overlay m.ram.data base.toNat (str ++ [0])
  perm : m'.bytePermission.data = mapOn MMU.initialised
    (mapOn (fun _ => permRaw ||| permWrite) m.bytePermission.data base.toNat 256)
    base.toNat (str.length + 1)

lemma housed_cases {n : ℕ} {m m₁ m' : MMU} (h : Footing p n m) {str : List U8}
    (hlen : str.length < 2 ^ 63) {base : U64} (halloc : m.allocate 256 = .ok (base, m₁))
    (hwrite : m₁.writeFrom (str ++ [0]) base = .ok m') :
    base = p.lot n ∧ Footing p (n + 1) m' ∧ Housed m base str m' := by
  obtain ⟨rfl, hfooting⟩ := h.allocate halloc
  have hbelow := h.below
  have hlot := Process.toNat_lot hbelow
  have hlength : (str ++ [0]).length = str.length + 1 := List.length_append
  obtain ⟨-, -, hm⟩ := MMU.allocate_cases h.backed halloc
  have hsettled := MMU.writeFrom_settled hwrite
  have hsize := hsettled.shape.ramSize.trans (MMU.allocate_sameShape halloc).ramSize
  rcases MMU.writeFrom_cases hfooting.backed (by omega) hwrite with ⟨hfit, -, rfl⟩ | ⟨hwraps, -⟩
  · rw [hlength] at hfit
    have hinside := lt_of_lt_of_eq hfit (congrArg BitVec.toNat hsettled.shape.ramSize).symm
    refine ⟨rfl, hfooting.settled hsettled, hsize, hinside, ?_, ?_⟩
    · rw [hm]
      rfl
    · rw [← hlength, h.allocPtr.symm, hm]
      rfl
  · have hend := hwraps.1
    omega

/-- Below the block, nothing changed. -/
lemma Housed.confined {bus : Bus} {base : U64} {str : List U8} {m' : MMU}
    (h : Housed bus.mmu base str m') :
    Bus.Confined (Set.Ici base.toNat) bus { bus with mmu := m' } := by
  refine .withMmu (fun k hk => ?_) fun k hk => ?_
  · rw [h.ram, overlay_of_lt (not_le.mp hk)]
  · have hlt : k < base.toNat := not_le.mp hk
    rw [h.perm, mapOn_of_not_mem (by omega), mapOn_of_not_mem (by omega)]

/-- The string is there. -/
lemma Housed.holdsString {m m' : MMU} {n : ℕ} {str : List U8} (h : Housed m (p.lot n) str m')
    (hbeyond : Beyond junk p n m) : HoldsString junk m' (p.lot n).toNat (str ++ [0]) := by
  intro k b hb
  obtain ⟨hk, rfl⟩ := List.getElem?_eq_some_iff.mp hb
  have hlength : (str ++ [0]).length = str.length + 1 := List.length_append
  have hoffset : (p.lot n).toNat + k - (p.lot n).toNat = k := Nat.add_sub_cancel_left ..
  constructor
  · rw [h.ram, overlay_of_mem (Nat.le_add_right _ _) (by omega)]
    simp only [hoffset]
  · rw [h.perm, mapOn_of_mem ⟨Nat.le_add_right _ _, by omega⟩]
    split_ifs with hlo
    · rw [mapOn_of_mem ⟨Nat.le_add_right _ _, by omega⟩]
    · rw [mapOn_of_not_mem (by omega), hbeyond _ (Nat.le_add_right _ _)]

/-- **A string is written** to the next block. -/
lemma house (h : Stage host junk p pushed housed s) (hbeyond : Beyond junk p housed.length s.bus.mmu)
    (hshort : ∀ str ∈ housed, str.length < 256) {str : List U8} (hlen : str.length < 2 ^ 63)
    {base : U64} {m m' : MMU} (halloc : s.bus.mmu.allocate 256 = .ok (base, m))
    (hwrite : m.writeFrom (str ++ [0]) base = .ok m') :
    Stage host junk p pushed (housed ++ [str]) (s.withMmu m')
      ∧ (str.length < 256 → Beyond junk p (housed.length + 1) m') := by
  obtain ⟨rfl, hfooting, hhoused⟩ := housed_cases h.footing hlen halloc hwrite
  have hlot := h.toNat_lot (le_refl housed.length)
  have hc := hhoused.confined
  have hstored : Stored junk p pushed housed { s.bus with mmu := m' } := by
    refine h.toStored.confined hc hhoused.ramSize ?_ ?_ ?_
    · intro j hj k hk hmem
      have hfits := h.fits
      have hj' := h.toNat_slot (show 8 * (j + 1) ≤ 2 ^ 20 by omega)
      have habove := (h.below_lot hshort hmem).1
      omega
    · intro i str' hstr k hk hmem
      have habove := (h.below_lot hshort hmem).2 i str' hstr
      omega
    · intro k hk hmem
      have habove := (h.below_lot hshort hmem).1
      omega
  refine ⟨⟨hstored.snoc_string (hhoused.holdsString hbeyond) hhoused.fits, ?_, h.fits, h.isNone, h.sp,
    fun k hlo hhi => ?_⟩, fun hstr k hk => ?_⟩
  · rwa [List.length_append, List.length_singleton]
  · have hk : k ∉ Set.Ici (p.lot housed.length).toNat := fun hmem => by
      have habove := (h.below_lot hshort hmem).1
      omega
    exact (hc.perm k hk).trans (h.fresh k hlo hhi)
  · have hnext := Process.toNat_lot hfooting.below
    rw [hhoused.perm, mapOn_of_not_mem (by omega), mapOn_of_not_mem (by omega)]
    exact hbeyond k (by omega)

/-! ## The strings -/

/-- **A string and the pointer to it.** -/
lemma pushString (h : Stage host junk p (p.pushed housed.length) housed s)
    (hbeyond : Beyond junk p housed.length s.bus.mmu) (hshort : ∀ str ∈ housed, str.length < 256)
    (hroom : 8 * (housed.length + 4) ≤ 2 ^ 20) {str : List U8} (hlen : str.length < 2 ^ 63)
    (hpush : s.pushString str = .ok s') :
    Stage host junk p (p.pushed (housed.length + 1)) (housed ++ [str]) s'
      ∧ (str.length < 256 → Beyond junk p (housed.length + 1) s'.bus.mmu) := by
  obtain ⟨base, m, m', halloc, hwrite, hpush⟩ := VEmu.pushString_cases hpush
  obtain rfl := (h.footing.allocate halloc).1
  obtain ⟨hstage, hpast⟩ := h.house hbeyond hshort hlen halloc hwrite
  obtain ⟨hpushed, hkept⟩ := hstage.push (by rw [Process.length_pushed]; omega) hpush
  rw [Process.pushed_succ]
  exact ⟨hpushed, fun hstr => hkept _ (hpast hstr) (by rw [List.length_append]; rfl)⟩

/-- **The arguments.**  The induction is on the strings that are still to be pushed. -/
lemma pushStrings (h : Stage host junk p (p.pushed housed.length) housed s)
    (hbeyond : Beyond junk p housed.length s.bus.mmu) (hshort : ∀ str ∈ housed, str.length < 256)
    {strs : List (List U8)} (hstrs : ∀ str ∈ strs, str.length < 256)
    (hroom : 8 * (housed.length + strs.length + 3) ≤ 2 ^ 20)
    (hpush : strs.foldlM VEmu.pushString s = .ok s') :
    Stage host junk p (p.pushed (housed.length + strs.length)) (housed ++ strs) s'
      ∧ Beyond junk p (housed.length + strs.length) s'.bus.mmu := by
  induction strs generalizing housed s with
  | nil =>
      obtain rfl := Except.ok.inj hpush
      rw [List.append_nil]
      exact ⟨h, hbeyond⟩
  | cons str strs ih =>
      rw [List.foldlM_cons, bind_eq_ok_iff] at hpush
      obtain ⟨s₁, h₁, hpush⟩ := hpush
      rw [List.length_cons] at hroom
      have hstr := hstrs str List.mem_cons_self
      obtain ⟨hstage, hpast⟩ := h.pushString hbeyond hshort (by omega) (by omega) h₁
      have hlength : (housed ++ [str]).length = housed.length + 1 := List.length_append
      have hrest := ih (hlength ▸ hstage) (hlength ▸ hpast hstr) ?_
        (fun str' hstr' => hstrs str' (List.mem_cons_of_mem str hstr')) (by omega) hpush
      · rwa [hlength, List.append_assoc, Nat.add_assoc, Nat.add_comm 1] at hrest
      · intro str' hstr'
        rcases List.mem_append.mp hstr' with hold | hnew
        · exact hshort str' hold
        · rwa [List.mem_singleton.mp hnew]

end Stage

end Vemu
