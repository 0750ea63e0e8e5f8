import Vemu.Atomics.LoadReserved
import Vemu.Atomics.ReadModifyWrite
import Vemu.Trap.Rounds

/-!
# Reservations

A store-conditional should succeed only where a load-reserved of the same width and address went
before it, with no other store-conditional in between, and otherwise leave memory alone and say so
in `rd` (`ScSound`).  That is a property of the calls of a run.

The source keeps no reservation: every store-conditional stores, and zeroes `rd`.  So the calls of
a run are sound exactly where each store-conditional has its reservation or cannot be told from one
that fails: it writes no register, and what it stores is there already (**`scSound_iff`**).
-/

namespace Vemu

open Fallible Loop

/-! ## What a store leaves in place -/

namespace Bus

variable {bus bus' : Bus} {addr data : U64} {sz n : ℕ} {e : ReturnException}

/-- A device that goes along with a store of more than a byte stores a double word. -/
lemma store_device (hsz : sz ≠ 8) (hram : bus.routesToRam addr = false)
    (h : bus.store addr data sz = .ok (e, bus')) (he : VEmu.isFatal e = false) :
    ∃ d, bus.devices = some d
      ∧ bus' = { bus with devices := some (d.stored64 addr data) } := by
  by_cases h64 : sz = 64
  · subst h64
    exact store64_device hram h
  · have hno : ¬ bus.Takes addr sz := by
      rintro (hyes | hwidth)
      · simp [hram] at hyes
      · split_ifs at hwidth
        · exact h64 hwidth
        · exact hsz hwidth
    rw [store_of_not_takes hno] at h
    obtain ⟨rfl, -⟩ := Prod.mk.inj (Except.ok.inj h)
    cases he

/-- The bytes are there already, and initialised.  A range of RAM that wraps is not written at
all. -/
structure AlreadyThere (bus : Bus) (addr data : U64) (n : ℕ) : Prop where
  ram : bus.routesToRam addr = true → bus.mmu.Fits addr n → ∀ k < n,
    bus.mmu.ram.data (addr.toNat + k) = data.extractLsb' (8 * k) 8
      ∧ bus.mmu.bytePermission.data (addr.toNat + k) &&& permRaw = 0
  device : bus.routesToRam addr = false → ∀ d, bus.devices = some d → d.stored64 addr data = d

/-- What a store can change, and a store-conditional that fails must not. -/
structure Unwritten (bus bus' : Bus) : Prop where
  ram : bus'.mmu.ram.data = bus.mmu.ram.data
  perm : bus'.mmu.bytePermission.data = bus.mmu.bytePermission.data
  devices : bus'.devices = bus.devices

/-- Writing over memory changes nothing exactly where it is there already. -/
lemma written_eq_iff (m : MMU) (addr data : U64) (n : ℕ) :
    (m.written addr (MMU.split n data)).ram.data = m.ram.data
        ∧ (m.written addr (MMU.split n data)).bytePermission.data = m.bytePermission.data
      ↔ ∀ k < n, m.ram.data (addr.toNat + k) = data.extractLsb' (8 * k) 8
          ∧ m.bytePermission.data (addr.toNat + k) &&& permRaw = 0 := by
  have hdata : ∀ k < n, (m.written addr (MMU.split n data)).ram.data (addr.toNat + k)
      = data.extractLsb' (8 * k) 8 := fun k hk => by
    rw [show (m.written addr (MMU.split n data)).ram.data (addr.toNat + k) = _ from
      MMU.written_data hk]
    exact BitVec.eq_of_toNat_eq (by simp)
  have hperm : ∀ k < n, (m.written addr (MMU.split n data)).bytePermission.data (addr.toNat + k)
      = MMU.initialised (m.bytePermission.data (addr.toNat + k)) :=
    fun k hk => mapOn_of_mem (by simpa using hk)
  constructor
  · rintro ⟨hram, hp⟩ k hk
    have hinit := hperm k hk
    rw [hp] at hinit
    exact ⟨hram ▸ hdata k hk, (MMU.initialised_eq_self_iff _).mp hinit.symm⟩
  · intro h
    constructor
    · funext k
      by_cases hk : addr.toNat ≤ k ∧ k < addr.toNat + n
      · obtain ⟨i, rfl⟩ := Nat.exists_eq_add_of_le hk.1
        have hi : i < n := by omega
        rw [hdata i hi, (h i hi).1]
      · exact overlay_of_not_mem (by simpa using hk)
    · funext k
      by_cases hk : addr.toNat ≤ k ∧ k < addr.toNat + n
      · obtain ⟨i, rfl⟩ := Nat.exists_eq_add_of_le hk.1
        have hi : i < n := by omega
        rw [hperm i hi, (MMU.initialised_eq_self_iff _).mpr (h i hi).2]
      · exact mapOn_of_not_mem (by simpa using hk)

/-- **A store** that goes through changes nothing exactly where the bytes are there already. -/
lemma unwritten_iff (hm : bus.mmu.Backed) (hsz : MMU.sizeBytes sz = some n) (hne : sz ≠ 8)
    (h : bus.store addr data sz = .ok (e, bus')) (he : VEmu.isFatal e = false) :
    Unwritten bus bus' ↔ bus.AlreadyThere addr data n := by
  cases hram : bus.routesToRam addr with
  | true =>
      rw [store_of_ram hram] at h
      obtain ⟨⟨r, mmu⟩, hstore, h⟩ := bind_eq_ok_iff.mp h
      obtain ⟨rfl, rfl⟩ := Prod.mk.inj (Except.ok.inj h)
      obtain ⟨-, n', hsz', ⟨hfit, -, rfl⟩ | ⟨hwraps, rfl⟩⟩ := MMU.store_cases hm hstore
      · obtain rfl := Option.some.inj (hsz.symm.trans hsz')
        have hiff := written_eq_iff bus.mmu addr data n
        exact ⟨fun hu => ⟨fun _ _ => hiff.mp ⟨hu.ram, hu.perm⟩, fun hno => absurd hram (by simp [hno])⟩,
          fun hthere => ⟨(hiff.mpr (hthere.ram hram hfit)).1, (hiff.mpr (hthere.ram hram hfit)).2, rfl⟩⟩
      · obtain rfl := Option.some.inj (hsz.symm.trans hsz')
        exact ⟨fun _ => ⟨fun _ hfit => absurd hfit (MMU.not_fits_of_wraps hwraps),
          fun hno => absurd hram (by simp [hno])⟩, fun _ => ⟨rfl, rfl, rfl⟩⟩
  | false =>
      obtain ⟨d, hd, rfl⟩ := store_device hne hram h he
      constructor
      · intro hu
        refine ⟨fun hyes => absurd hram (by simp [hyes]), fun _ d' hd' => ?_⟩
        obtain rfl := Option.some.inj (hd.symm.trans hd')
        exact Option.some.inj (hu.devices.trans hd)
      · exact fun hthere => ⟨rfl, rfl, (congrArg some (hthere.device hram d hd)).trans hd.symm⟩

end Bus

namespace VEmu

variable {shift : U64 → Bool} {host : Host} {s : VEmu} {c : Call} {calls : List Call}

/-! ## Calls -/

/-- The width of a load-reserved. -/
def lrWidth : IName → Option ReservedWidth
  | .LRW => some .word
  | .LRD => some .double
  | _ => none

/-- The width of a store-conditional. -/
def scWidth : IName → Option ReservedWidth
  | .SCW => some .word
  | .SCD => some .double
  | _ => none

namespace Call

def name (c : Call) : IName := c.called.currInstr.name

def addr (c : Call) : U64 := c.called.loadReg c.called.rs1

end Call

/-- A load-reserved of the width and the address went through, and no store-conditional came after
it. -/
def Reserved (w : ReservedWidth) (addr : U64) : List Call → Prop
  | [] => False
  | c :: earlier =>
      (lrWidth c.name = some w ∧ c.addr = addr ∧ c.report = .NormalExecutionReturn)
        ∨ (scWidth c.name = none ∧ Reserved w addr earlier)

/-- The store-conditional left memory and the devices alone, and a number other than zero in
`rd`. -/
structure Failed (c : Call) : Prop where
  unwritten : c.called.bus.Unwritten c.left.bus
  rd : c.called.rd ≠ 0 → c.left.loadReg c.called.rd ≠ 0

/-- Each call has the property, with the calls before it. -/
def EachCall (P : Call → List Call → Prop) : List Call → Prop
  | [] => True
  | c :: earlier => P c earlier ∧ EachCall P earlier

/-- **The specification**: without a reservation, a store-conditional fails. -/
def ScSound (c : Call) (earlier : List Call) : Prop :=
  ∀ w, scWidth c.name = some w → Reserved w c.addr earlier ∨ Failed c

/-- The condition: the reservation is there, or there is nothing to be written. -/
def ScHarmless (c : Call) (earlier : List Call) : Prop :=
  ∀ w, scWidth c.name = some w → Reserved w c.addr earlier
    ∨ c.called.rd = 0
      ∧ c.called.bus.AlreadyThere c.addr (c.called.loadReg c.called.rs2) (w.bits / 8)

/-- Two properties that come to the same for the calls that were made. -/
lemma eachCall_congr {P Q : Call → List Call → Prop} {N : Call → Prop}
    (h : ∀ c earlier, N c → (P c earlier ↔ Q c earlier)) (hN : ∀ c ∈ calls, N c) :
    EachCall P calls ↔ EachCall Q calls := by
  induction calls with
  | nil => exact Iff.rfl
  | cons c earlier ih =>
      rw [EachCall, EachCall, h c earlier (hN c List.mem_cons_self),
        ih fun c' hc' => hN c' (List.mem_cons_of_mem c hc')]

lemma handler_scWidth {name : IName} {w : ReservedWidth} (hw : scWidth name = some w) :
    handler host name = storeConditional w.bits := by
  cases name <;> cases hw <;> rfl

/-- A store-conditional that the loop survives has made its store, and zeroed `rd`. -/
lemma storeConditional_cases {sz : ℕ} {e : ReturnException} {s' : VEmu}
    (h : storeConditional sz s = .ok (e, s')) (he : isFatal e = false) :
    ∃ bus, s.bus.store (s.loadReg s.rs1) (s.loadReg s.rs2) sz = .ok (e, bus)
      ∧ s' = ({ s with bus := bus }).storeReg s.rd 0 := by
  unfold storeConditional at h
  dsimp only at h
  split_ifs at h
  · obtain ⟨rfl, -⟩ := Prod.mk.inj (Except.ok.inj h)
    cases he
  · obtain ⟨⟨exp, s₁⟩, hstore, h⟩ := bind_eq_ok_iff.mp h
    obtain ⟨bus, hbus, rfl⟩ := store_frame hstore
    obtain ⟨rfl, rfl⟩ := Prod.mk.inj (Except.ok.inj h)
    exact ⟨bus, hbus, rfl⟩

/-- **One store-conditional** that the loop survives. -/
lemma failed_iff {w : ReservedWidth} (hc : Noted shift host c) (hw : scWidth c.name = some w) :
    Failed c ↔ c.called.rd = 0
      ∧ c.called.bus.AlreadyThere c.addr (c.called.loadReg c.called.rs2) (w.bits / 8) := by
  have hleft : handler host c.name c.called = .ok (c.report, c.left) := hc.made.left
  rw [handler_scWidth hw] at hleft
  obtain ⟨s', hfinish⟩ := hc.made.finished
  have hfatal := finishAs_not_fatal hfinish
  obtain ⟨bus, hstore, heq⟩ := storeConditional_cases hleft hfatal
  have hbus : c.left.bus = bus := congrArg VEmu.bus heq
  have hrd : c.called.rd ≠ 0 → c.left.loadReg c.called.rd = 0 := by
    intro hne
    rw [heq]
    exact RegFile.loadReg_storeReg_self _ hne 0
  have hiff := Bus.unwritten_iff hc.called.memory (n := w.bits / 8) (by cases w <;> rfl)
    (by cases w <;> decide) hstore hfatal
  constructor
  · rintro ⟨hun, hne⟩
    refine ⟨by_contra fun hrd0 => hne hrd0 (hrd hrd0), hiff.mp (hbus ▸ hun)⟩
  · rintro ⟨hrd0, hthere⟩
    exact ⟨hbus ▸ hiff.mpr hthere, fun hne => absurd hrd0 hne⟩

/-- **The calls of a run** are sound exactly where each store-conditional has its reservation or
has nothing to write. -/
theorem scSound_iff (shift : U64 → Bool) (host : Host) (s : VEmu) (hs : s.Intact host)
    (ops : List Event) (turn : Turn) (calls : List Call)
    (h : ops.foldlM (stepNoting shift host) (.next s, []) = .ok (turn, calls)) :
    EachCall ScSound calls ↔ EachCall ScHarmless calls := by
  refine eachCall_congr (fun c earlier hc => ?_) ((NotedRun.start hs).run ops h).2
  exact forall_congr' fun w => imp_congr_right fun hw => or_congr_right (failed_iff hc hw)

/-! ## With a reservation, and without -/

/-- `lr.w x1, (x2)`. -/
def lrWord : U32 := 0x100120AF

/-- `sc.w x3, x0, (x2)`. -/
def scWord : U32 := 0x180121AF

/-- A load-reserved of the word at sixteen, and then a store-conditional to it. -/
def reserving : VEmu :=
  { onePage lrWord 16 with
    bus := { (onePage lrWord 16).bus with
      mmu := (onePageMemory lrWord).written 4 (MMU.split 4 (scWord.setWidth 64)) } }

lemma intact_reserving : reserving.Intact (.bare .fuzz) where
  instFuncs := rfl
  memory := ((intact_onePage lrWord 16).memory).withContents _ _
  devices := rfl
  decoder := (intact_onePage lrWord 16).decoder

/-- The name, the address and the report of each call, the register it writes and what is then in
it. -/
def shown (r : Turn × List Call) : List (IName × U64 × ReturnException × Reg × U64) :=
  r.2.map fun c => (c.name, c.addr, c.report, c.called.rd, c.left.loadReg c.called.rd)

theorem scSound_reserving :
    ∃ turn calls, [Event.round, .round].foldlM (stepNoting (fun _ => false) (.bare .fuzz))
        (.next reserving, []) = .ok (turn, calls) ∧ calls.length = 2 ∧ EachCall ScSound calls := by
  have hview : ([Event.round, .round].foldlM (stepNoting (fun _ => false) (.bare .fuzz))
      (.next reserving, []) >>= fun r => .ok (shown r))
        = .ok [(.SCW, 16, .NormalExecutionReturn, 3, 0), (.LRW, 16, .NormalExecutionReturn, 1, 0)] := by
    decide +kernel
  obtain ⟨⟨turn, calls⟩, hrun, hview⟩ := bind_eq_ok_iff.mp hview
  obtain ⟨sc, rest, rfl, hsc, hrest⟩ := List.map_eq_cons_iff.mp (Except.ok.inj hview)
  obtain ⟨lr, rest, rfl, hlr, hrest⟩ := List.map_eq_cons_iff.mp hrest
  obtain rfl := List.map_eq_nil_iff.mp hrest
  simp only [Prod.mk.injEq] at hsc hlr
  refine ⟨turn, [sc, lr], hrun, rfl,
    (scSound_iff _ _ _ intact_reserving [.round, .round] turn [sc, lr] hrun).mpr ⟨?_, ?_, trivial⟩⟩
  · rintro w hw
    refine Or.inl (Or.inl ⟨?_, hlr.2.1.trans hsc.2.1.symm, hlr.2.2.1⟩)
    rw [hsc.1] at hw
    rw [hlr.1]
    exact hw
  · rintro w hw
    rw [hlr.1] at hw
    cases hw

/-- The first instruction of a run is a store-conditional, and it reports success. -/
theorem not_scSound_first :
    ∃ turn calls, [Event.round].foldlM (stepNoting (fun _ => false) (.bare .fuzz))
        (.next (onePage scWord 16), []) = .ok (turn, calls) ∧ ¬ EachCall ScSound calls := by
  have hview : ([Event.round].foldlM (stepNoting (fun _ => false) (.bare .fuzz))
      (.next (onePage scWord 16), []) >>= fun r => .ok (shown r))
        = .ok [(.SCW, 16, .NormalExecutionReturn, 3, 0)] := by
    decide +kernel
  obtain ⟨⟨turn, calls⟩, hrun, hview⟩ := bind_eq_ok_iff.mp hview
  obtain ⟨sc, rest, rfl, hsc, hrest⟩ := List.map_eq_cons_iff.mp (Except.ok.inj hview)
  obtain rfl := List.map_eq_nil_iff.mp hrest
  simp only [Prod.mk.injEq] at hsc
  refine ⟨turn, [sc], hrun, ?_⟩
  rintro ⟨hsound, -⟩
  have hw : scWidth sc.name = some .word := hsc.1 ▸ rfl
  have hrd : sc.called.rd ≠ 0 := by
    rw [hsc.2.2.2.1]
    decide
  rcases hsound .word hw with hreserved | hfailed
  · exact hreserved.elim
  · exact hfailed.rd hrd hsc.2.2.2.2

end VEmu

end Vemu
