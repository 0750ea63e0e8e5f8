import Vemu.Trap.Rounds

/-!
# The interrupt of the serial port

A character that the reading thread stores should be seen by the next look for interrupts, which
records the serial port in the claim register and makes the external interrupt pending
(`Signals`).  The way has two breaks.  No part of the source raises the flag that the look reads:
it holds what was in memory when the serial port was made, until the first look clears it.  And
the look stores with its data and its size exchanged, which the interrupt controller refuses.  So
the signal gets through exactly at a first look, when the flag happened to be raised and the
number happened to be in the register (**`signals_iff`**).
-/

namespace Vemu

open Fallible Transition

namespace VEmu

variable {shift : U64 → Bool} {host : Host} {s s' t : VEmu} {e : ReturnException}

/-! ## The flag of the serial port -/

/-- The flag, where there is a serial port. -/
def interrupting (s : VEmu) : Option Bool := s.bus.devices.map (·.uart.interrupting)

/-- The claim register, where there is an interrupt controller. -/
def claim (s : VEmu) : Option U64 := s.bus.devices.map (·.plic.sclaim)

lemma interrupting_load {addr : U64} {sz : ℕ} {r : U64 × ReturnException}
    (h : s.load addr sz = .ok (r, s')) : s'.interrupting = s.interrupting := by
  obtain ⟨⟨r', bus⟩, hload, h⟩ := bind_eq_ok_iff.mp h
  obtain ⟨-, rfl⟩ := Prod.mk.inj (Except.ok.inj h)
  unfold interrupting
  cases hd : s.bus.devices with
  | none =>
      simp only [Bus.load, hd] at hload
      obtain ⟨_, -, hload⟩ := bind_eq_ok_iff.mp hload
      obtain ⟨-, rfl⟩ := Prod.mk.inj (Except.ok.inj hload)
      simp [hd]
  | some d =>
      simp only [Bus.load, hd] at hload
      split_ifs at hload with h1 h2 h3
      · obtain ⟨-, rfl⟩ := Prod.mk.inj (Except.ok.inj hload)
        simp [hd]
      · obtain ⟨-, rfl⟩ := Prod.mk.inj (Except.ok.inj hload)
        simp [hd]
      · obtain ⟨-, rfl⟩ := Prod.mk.inj (Except.ok.inj hload)
        simp only [UART.load, UART.load8, Option.map_some]
        split_ifs <;> rfl
      · obtain ⟨_, -, hload⟩ := bind_eq_ok_iff.mp hload
        obtain ⟨-, rfl⟩ := Prod.mk.inj (Except.ok.inj hload)
        simp [hd]

lemma interrupting_store {addr data : U64} {sz : ℕ} (h : s.store addr data sz = .ok (e, s')) :
    s'.interrupting = s.interrupting := by
  obtain ⟨⟨r', bus⟩, hstore, h⟩ := bind_eq_ok_iff.mp h
  obtain ⟨-, rfl⟩ := Prod.mk.inj (Except.ok.inj h)
  unfold interrupting
  cases hd : s.bus.devices with
  | none =>
      simp only [Bus.store, hd] at hstore
      obtain ⟨_, -, hstore⟩ := bind_eq_ok_iff.mp hstore
      obtain ⟨-, rfl⟩ := Prod.mk.inj (Except.ok.inj hstore)
      simp [hd]
  | some d =>
      simp only [Bus.store, hd] at hstore
      split_ifs at hstore with h1 h2 h3
      · obtain ⟨-, rfl⟩ := Prod.mk.inj (Except.ok.inj hstore)
        rfl
      · obtain ⟨-, rfl⟩ := Prod.mk.inj (Except.ok.inj hstore)
        rfl
      · obtain ⟨-, rfl⟩ := Prod.mk.inj (Except.ok.inj hstore)
        simp only [UART.store, UART.store8, Option.map_some]
        split_ifs <;> rfl
      · obtain ⟨_, -, hstore⟩ := bind_eq_ok_iff.mp hstore
        obtain ⟨-, rfl⟩ := Prod.mk.inj (Except.ok.inj hstore)
        simp [hd]

/-- **No handler** touches the flag. -/
lemma handler_interrupting (hb : host.build ≠ .fuzz) (n : IName) :
    Preserves interrupting (handler host n) := by
  have hview : Unseen interrupting := ⟨fun _ _ => rfl, interrupting_load, interrupting_store⟩
  exact hview.handler hb (fun _ _ => rfl) (fun _ _ => rfl) (fun _ _ => rfl) (fun _ => rfl) n

lemma interrupting_received (s : VEmu) (c : U8) : (s.received c).interrupting = s.interrupting := by
  unfold received interrupting
  cases hd : s.bus.devices with
  | none => simp [hd]
  | some d =>
      simp only [UART.receive, Option.map_some]
      split_ifs <;> rfl

/-! ## A look for interrupts -/

/-- The round looks for interrupts: the run has not ended, and they are not turned off. -/
def looks (s : VEmu) : Bool := !s.hasExited && !s.interruptsOff

/-- A look clears the flag, and nothing else on the way to the fetch does. -/
lemma interrupting_pollAs (hb : host.build ≠ .fuzz) (hexit : s.hasExited = false)
    (h : pollAs shift host s = .ok s') :
    s'.interrupting = s.interrupting.map (· && !s.looks) := by
  rw [pollAs, if_neg hb, bind_eq_ok_iff] at h
  obtain ⟨⟨i, s₁⟩, hcheck, h⟩ := h
  have hs₁ : s₁.interrupting = s.interrupting.map (· && !s.looks) := by
    unfold checkPendingInterrupt at hcheck
    split_ifs at hcheck with hoff
    · obtain ⟨-, rfl⟩ := Prod.mk.inj (Except.ok.inj hcheck)
      simp [looks, hoff]
    · obtain ⟨s₂, hpoll, hcheck⟩ := bind_eq_ok_iff.mp hcheck
      have hs₂ : s₂.interrupting = s.interrupting.map (· && !s.looks) := by
        have hlooks : s.looks = true := by simp [looks, hexit, hoff]
        obtain ⟨⟨irq, bus⟩, hirq, hpoll⟩ := bind_eq_ok_iff.mp hpoll
        unfold Bus.uartIsInterrupting at hirq
        cases hd : s.bus.devices with
        | none => simp [hd] at hirq
        | some d =>
            simp only [hd, Except.ok.injEq, Prod.mk.injEq] at hirq
            obtain ⟨-, rfl⟩ := hirq
            have hcleared : (some false : Option Bool) = s.interrupting.map (· && !s.looks) := by
              simp [interrupting, hd, hlooks]
            dsimp only at hpoll
            split_ifs at hpoll with hset
            · obtain ⟨⟨r, s₃⟩, hstore, hpoll⟩ := bind_eq_ok_iff.mp hpoll
              obtain rfl := Except.ok.inj hpoll
              exact (interrupting_store hstore).trans hcleared
            · obtain rfl := Except.ok.inj hpoll
              exact hcleared
      dsimp only at hcheck
      split at hcheck
      · obtain ⟨-, rfl⟩ := Prod.mk.inj (Except.ok.inj hcheck)
        exact hs₂
      · obtain ⟨-, rfl⟩ := Prod.mk.inj (Except.ok.inj hcheck)
        exact hs₂
  obtain rfl := Except.ok.inj h
  split_ifs
  · exact hs₁
  · obtain ⟨csrs, mode, heq⟩ := @enterAs_frame shift s₁ (interruptCause i) (interruptHandler shift s₁ i)
    rw [takeInterruptAs, heq]
    exact hs₁

/-- **A round** clears the flag if it looks. -/
lemma interrupting_round (hb : host.build ≠ .fuzz) {call : Option Call}
    (h : roundNoting shift host s = .ok (.next s', call)) :
    s'.interrupting = s.interrupting.map (· && !s.looks) := by
  rcases roundNoting_cases h with ⟨code, hcode, -⟩ | ⟨c, s₁, -, hhead, hmade, hfinish, hturn⟩
  · cases hcode
  · obtain ⟨hexit, hpoll, -⟩ := headAs_cases hhead
    obtain ⟨w, exp, t₀, ins, -, hfetched, -, hcalled⟩ := callAs_cases hmade.called
    obtain ⟨csrs, mode, pc, rfl⟩ := finishAs_frame hfetched
    obtain ⟨csrs', mode', pc', rfl⟩ := finishAs_frame hfinish
    obtain rfl := Turn.next.inj hturn
    have hleft := handler_interrupting hb _ _ _ _ hmade.left
    have hpolled := interrupting_pollAs hb hexit hpoll
    exact hleft.trans ((congrArg interrupting hcalled).trans hpolled)

/-! ## The signal -/

/-- **What a character should bring about** at the next look for interrupts. -/
structure Signalled (s : VEmu) : Prop where
  seen : ∃ bus, s.bus.uartIsInterrupting = .ok (true, bus)
  /-- The guest can load the number of the serial port, and an external interrupt is pending or
  being taken. -/
  recorded : ∃ i s', s.checkPendingInterrupt = .ok (i, s')
    ∧ (∃ s'', s'.load plicSclaim 64 = .ok ((uartIrq.setWidth 64, .NormalExecutionReturn), s''))
    ∧ (i = .SupervisorExternalInterrupt ∨ s'.csrs.bit mip mipSeipPos = true)

/-- The source stores to the claim register with the data and the size exchanged, and the store is
refused. -/
lemma pollUart_of_set {d : Devices} (hd : s.bus.devices = some d) (hset : d.uart.interrupting = true) :
    s.pollUart = .ok { s with
      bus := { s.bus with devices := some { d with uart := { d.uart with interrupting := false } } }
      csrs := s.csrs.setBits mip (bit32 mipSeipPos) } := by
  have hclint : Bus.inWindow clintBase clintSize plicSclaim = false := by decide
  have hplic : Bus.inWindow plicBase plicSize plicSclaim = true := by decide
  have hsize : uartIrq.toNat ≠ 64 := by decide
  simp only [pollUart, Bus.uartIsInterrupting, hd, UART.isInterrupting, hset, ok_bind, if_true, store,
    Bus.store, hclint, hplic, Bool.false_eq_true, if_false, PLIC.store, if_neg hsize]
  rfl

/-- The guest loads the claim register. -/
lemma load_claim {v : U64} (h : s.claim = some v) :
    s.load plicSclaim 64 = .ok ((v, .NormalExecutionReturn), s) := by
  have hclint : Bus.inWindow clintBase clintSize plicSclaim = false := by decide
  have hplic : Bus.inWindow plicBase plicSize plicSclaim = true := by decide
  obtain ⟨d, hd, rfl⟩ := Option.map_eq_some_iff.mp h
  simp only [load, Bus.load, hd, hclint, hplic, Bool.false_eq_true, if_false, if_true, PLIC.load]
  rfl

/-- A look with the flag raised leaves the external interrupt pending, or takes it. -/
lemma check_of_set {d : Devices} (hd : s.bus.devices = some d) (hset : d.uart.interrupting = true)
    (hoff : s.interruptsOff = false) :
    ∃ i csrs, s.checkPendingInterrupt = .ok (i, { s with
        bus := { s.bus with devices := some { d with uart := { d.uart with interrupting := false } } }
        csrs := csrs })
      ∧ (i = .SupervisorExternalInterrupt ∨ csrs.bit mip mipSeipPos = true) := by
  have hmip : mip ≠ sie := by decide
  have hbit : (s.csrs.setBits mip (bit32 mipSeipPos)).bit mip mipSeipPos = true := by
    rw [Csrs.bit_of_ne hmip, Csrs.setBits_of_ne hmip, Csrs.reg_set_self, BitVec.getLsbD_or]
    simp [bit32, mipSeipPos]
  unfold checkPendingInterrupt
  rw [if_neg (by simp [hoff]), pollUart_of_set hd hset, ok_bind]
  dsimp only
  split
  · next pos i hfind =>
      refine ⟨i, _, rfl, ?_⟩
      have hmem : (pos, i) ∈ interruptOrder := List.mem_of_find?_eq_some hfind
      by_cases hpos : pos = mipSeipPos
      · left
        subst hpos
        simpa [interruptOrder, mipSeipPos, mipMeipPos, mipMsipPos, mipMtipPos, mipSsipPos,
          mipStipPos] using hmem
      · right
        rw [Csrs.bit_of_ne hmip, Csrs.keepBits_of_ne hmip, Csrs.reg_set_self, BitVec.getLsbD_and,
          ← Csrs.bit_of_ne hmip, hbit, getLsbD_allBut32]
        simp [Ne.symm hpos, show mipSeipPos < 32 by decide]
  · exact ⟨.NoInterrupt, _, rfl, Or.inr hbit⟩

/-- **One look**: the signal gets through exactly if the flag is raised and the claim register holds
the number already. -/
lemma signalled_iff (hlooks : s.looks = true) :
    Signalled s ↔ s.interrupting = some true ∧ s.claim = some (uartIrq.setWidth 64) := by
  have hoff : s.interruptsOff = false := by
    simp only [looks, Bool.and_eq_true, Bool.not_eq_true'] at hlooks
    exact hlooks.2
  cases hd : s.bus.devices with
  | none =>
      refine iff_of_false ?_ (by simp [interrupting, hd])
      rintro ⟨⟨bus, hseen⟩, -⟩
      simp [Bus.uartIsInterrupting, hd] at hseen
  | some d =>
      simp only [interrupting, claim, hd, Option.map_some, Option.some.injEq]
      constructor
      · rintro ⟨⟨bus, hseen⟩, i, s', hcheck, ⟨s'', hload⟩, -⟩
        have hset : d.uart.interrupting = true := by
          simp only [Bus.uartIsInterrupting, hd, UART.isInterrupting, Except.ok.injEq,
            Prod.mk.injEq] at hseen
          exact hseen.1
        obtain ⟨j, csrs, hcheck', -⟩ := check_of_set hd hset hoff
        rw [hcheck'] at hcheck
        have hclaim : s'.claim = some d.plic.sclaim := by
          rw [← (Prod.mk.inj (Except.ok.inj hcheck)).2]
          rfl
        rw [load_claim hclaim] at hload
        exact ⟨hset, (Prod.mk.inj (Prod.mk.inj (Except.ok.inj hload)).1).1⟩
      · rintro ⟨hset, hten⟩
        obtain ⟨i, csrs, hcheck, hpending⟩ := check_of_set hd hset hoff
        have hseen : ∃ bus, s.bus.uartIsInterrupting = .ok (true, bus) := by
          simp only [Bus.uartIsInterrupting, hd, UART.isInterrupting, hset]
          exact ⟨_, rfl⟩
        exact ⟨hseen, i, _, hcheck, ⟨_, load_claim (congrArg some hten)⟩, hpending⟩

/-! ## Runs -/

/-- The reading thread can store a character. -/
def ready (s : VEmu) : Bool :=
  match s.bus.devices with
  | some d => !(d.uart.uartMem (UART.index uartLsr) &&& uartLsrRx == 1)
  | none => false

/-- A run, whether a character was stored since its last look for interrupts, and whether there was
a look. -/
structure Watched where
  turn : Turn
  waiting : Bool
  looked : Bool

def watch (s : VEmu) : Watched := ⟨.next s, false, false⟩

def stepWatched (shift : U64 → Bool) (host : Host) : Watched → Event → Except Fault Watched
  | ⟨.returned code, waiting, looked⟩, _ => .ok ⟨.returned code, waiting, looked⟩
  | ⟨.next s, waiting, looked⟩, .round => do
      let (turn, _) ← roundNoting shift host s
      return if s.looks then ⟨turn, false, true⟩ else ⟨turn, waiting, looked⟩
  | ⟨.next s, waiting, looked⟩, .receive c => .ok ⟨.next (s.received c), waiting || s.ready, looked⟩

/-- The event is a look for interrupts, with a character waiting. -/
def Looks (w : Watched) (i : Event) (s : VEmu) : Prop :=
  i = .round ∧ w.turn = .next s ∧ s.looks = true ∧ w.waiting = true

/-- **The specification** of a run's events. -/
def Signals (w : Watched) (i : Event) : Prop := ∀ s, Looks w i s → Signalled s

/-- The condition, for a run that starts in `s₀`. -/
def Lucky (s₀ : VEmu) (w : Watched) (i : Event) : Prop :=
  ∀ s, Looks w i s → s₀.interrupting = some true ∧ w.looked = false ∧ s.claim = some (uartIrq.setWidth 64)

/-- The flag is what it was at the start of the run, until the first look. -/
def FlagOf (s₀ : VEmu) (w : Watched) : Prop :=
  ∀ s, w.turn = .next s → s.interrupting = s₀.interrupting.map (· && !w.looked)

lemma FlagOf.step {s₀ : VEmu} {w w' : Watched} {i : Event} (hb : host.build ≠ .fuzz)
    (hw : FlagOf s₀ w) (h : stepWatched shift host w i = .ok w') : FlagOf s₀ w' := by
  obtain ⟨turn, waiting, looked⟩ := w
  cases turn with
  | returned code =>
      obtain rfl := Except.ok.inj h
      exact hw
  | next s =>
      have hflag := hw s rfl
      cases i with
      | receive c =>
          obtain rfl := Except.ok.inj h
          rintro s' hs'
          obtain rfl := Turn.next.inj hs'
          exact (interrupting_received s c).trans hflag
      | round =>
          obtain ⟨⟨turn', call⟩, hround, h⟩ := bind_eq_ok_iff.mp h
          obtain rfl := Except.ok.inj h
          rintro s' hs'
          cases hlooks : s.looks with
          | true =>
              simp only [hlooks, if_true] at hs' ⊢
              subst hs'
              rw [interrupting_round hb hround, hflag, Option.map_map]
              congr 1
              funext b
              simp [hlooks]
          | false =>
              simp only [hlooks, Bool.false_eq_true, if_false] at hs' ⊢
              subst hs'
              rw [interrupting_round hb hround, hflag, Option.map_map]
              congr 1
              funext b
              simp [hlooks]

/-- **The signal of the serial port**, all along a run: it gets through exactly where it is luck. -/
theorem signals_iff (hb : host.build ≠ .fuzz) (shift : U64 → Bool) (s : VEmu) (ops : List Event) :
    AllTries (stepWatched shift host) Signals (watch s) ops
      ↔ AllTries (stepWatched shift host) (Lucky s) (watch s) ops := by
  have hstart : FlagOf s (watch s) := by
    rintro s' hs'
    obtain rfl := Turn.next.inj hs'
    simp [watch]
  refine allTries_iff (fun w i hw => ?_) (fun w i w' hw _ h => hw.step hb h) ops hstart
  refine forall_congr' fun t => forall_congr' fun ht => ?_
  rw [signalled_iff ht.2.2.1, hw t ht.2.1, ← and_assoc]
  refine and_congr_left' ?_
  cases s.interrupting with
  | none => simp
  | some b => simp

/-! ## One character -/

/-- A hart in user mode, of which the flag happens to be raised, and whose guest has stored ten to
the claim register. -/
def luckyHart : VEmu :=
  { userHart 0 0 with
    bus := { (userHart 0 0).bus with
      devices := some ⟨.new, { PLIC.new with sclaim := 10 }, .new true⟩ } }

theorem signals_luckyHart :
    AllTries (stepWatched (fun _ => false) (.bare .emu)) Signals (watch luckyHart)
      [.receive 0x41, .round] := by
  refine (signals_iff (by decide) _ luckyHart [.receive 0x41, .round]).mpr ⟨?_, fun w hw => ⟨?_, ?_⟩⟩
  · rintro s ⟨hround, -⟩
    cases hround
  · obtain rfl := Except.ok.inj hw
    rintro s ⟨-, hturn, -, -⟩
    obtain rfl := Turn.next.inj hturn
    exact ⟨rfl, rfl, rfl⟩
  · exact fun _ _ => trivial

/-- Otherwise nobody hears of a character. -/
theorem not_signals_userHart :
    ¬ AllTries (stepWatched (fun _ => false) (.bare .emu)) Signals (watch (userHart 0 0))
      [.receive 0x41, .round] := by
  rintro ⟨-, h⟩
  obtain ⟨hsignals, -⟩ := h _ rfl
  obtain ⟨⟨bus, hseen⟩, -⟩ := hsignals ((userHart 0 0).received 0x41) ⟨rfl, rfl, rfl, rfl⟩
  cases (Prod.mk.inj (Except.ok.inj hseen)).1

end VEmu

end Vemu
