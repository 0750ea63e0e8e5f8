import Vemu.Devices
import Vemu.Lib.Fifo
import Vemu.Lib.Transition

/-!
# Reception of the serial port

The thread that reads characters and the guest share the registers of the serial port.  The
thread waits until the receive bit is clear, writes the character and sets the bit; the guest,
once it has seen the bit set, clears it and reads the character.  Every read and every write of a
register is a step of its own here, and the steps of the two sides come in any order.  The mutex
does not order them: the thread does not take it.

The guest clears the bit *before* it reads the character.  In between the thread may see the bit
clear and overwrite the character that is still to be read.  And the thread does not look whether
it got a character: at the end of the input the last one stays in its variable and is written
again.  Where neither happens (`Orderly`), every step of the two sides is a step of a channel that
delivers in order (`step_refines`), and what the guest has read is a prefix of the input:
**`delivered_in_order`**.
-/

namespace Vemu

open Fallible Transition

/-! ## The two sides -/

/-- Where the reading thread is. -/
inductive Receiver
  | idle
  /-- It has gone for a character and waits for the receive bit to be clear. -/
  | polling
  /-- It has seen the bit clear and goes on to write the character. -/
  | storing
  /-- It goes on to read the status, to set the bit. -/
  | flagging
  /-- It goes on to write back the status it has read. -/
  | setting (lsr : U8)
  deriving DecidableEq

/-- Where the guest is. -/
inductive Reader
  | waiting
  /-- It has seen the receive bit set since it last read a character. -/
  | observed
  /-- It is inside `load8`, and goes on to write back the status it has read. -/
  | clearing (lsr : U8)
  /-- It is inside `load8`, and goes on to read the character. -/
  | reading
  deriving DecidableEq

structure Line where
  uart : UART
  input : List U8
  thread : Receiver
  /-- The thread's variable. -/
  c : U8
  guest : Reader
  /-- What the loads of the receive register have returned. -/
  delivered : List U64

/-- Whose turn it is: the thread's, or the guest's to look at the status or to go on with
`load8` of the receive register. -/
inductive Move
  | receive | observe | load
  deriving DecidableEq

namespace UART

def put (d : UART) (i b : U8) : UART := { d with uartMem := Function.update d.uartMem i b }

def lsr (d : UART) : U8 := d.uartMem (index uartLsr)

def rhr (d : UART) : U8 := d.uartMem (index uartRhr)

/-- The receive bit. -/
def rx (d : UART) : Bool := d.lsr &&& uartLsrRx = 1

end UART

namespace Line

/-- The port after its construction, before any character.  The thread's variable holds
anything. -/
def start (interrupting : Bool) (c : U8) (input : List U8) : Line where
  uart := .new interrupting
  input := input
  thread := .idle
  c := c
  guest := .waiting
  delivered := []

/-- The thread's next step. -/
def receive (s : Line) : Except Unit Line :=
  match s.thread with
  | .idle =>
      match s.input with
      -- at the end of the input `cin >> c` fails and leaves `c` as it is
      | [] => .ok { s with thread := .polling }
      | c :: rest => .ok { s with input := rest, c := c, thread := .polling }
  | .polling => .ok (if s.uart.rx then s else { s with thread := .storing })
  | .storing => .ok { s with uart := s.uart.put (UART.index uartRhr) s.c, thread := .flagging }
  | .flagging => .ok { s with thread := .setting s.uart.lsr }
  | .setting lsr =>
      .ok { s with uart := s.uart.put (UART.index uartLsr) (lsr ||| uartLsrRx), thread := .idle }

/-- The guest looks at the status. -/
def observe (s : Line) : Except Unit Line :=
  match s.guest with
  | .waiting => .ok (if s.uart.rx then { s with guest := .observed } else s)
  | .observed => .ok s
  | .clearing _ => .error ()
  | .reading => .error ()

/-- The guest's next step in `load8`, which it enters only after it has seen the bit set. -/
def load (s : Line) : Except Unit Line :=
  match s.guest with
  | .waiting => .error ()
  | .observed => .ok { s with guest := .clearing s.uart.lsr }
  | .clearing lsr =>
      .ok { s with uart := s.uart.put (UART.index uartLsr) (lsr &&& ~~~uartLsrRx), guest := .reading }
  | .reading =>
      .ok { s with guest := .waiting, delivered := s.delivered ++ [s.uart.rhr.setWidth 64] }

def step (s : Line) : Move → Except Unit Line
  | .receive => s.receive
  | .observe => s.observe
  | .load => s.load

/-! ### One side at a time

Without the other side in between, the steps are those of the serial port as a device. -/

variable {s s' : Line}

lemma index_ne : UART.index uartLsr ≠ UART.index uartRhr := by decide

@[simp] lemma lsr_put_rhr (d : UART) (b : U8) : (d.put (UART.index uartRhr) b).lsr = d.lsr :=
  Function.update_of_ne index_ne b d.uartMem

@[simp] lemma rhr_put_rhr (d : UART) (b : U8) : (d.put (UART.index uartRhr) b).rhr = b := by
  simp [UART.rhr, UART.put]

@[simp] lemma lsr_put_lsr (d : UART) (b : U8) : (d.put (UART.index uartLsr) b).lsr = b := by
  simp [UART.lsr, UART.put]

@[simp] lemma rhr_put_lsr (d : UART) (b : U8) : (d.put (UART.index uartLsr) b).rhr = d.rhr :=
  Function.update_of_ne index_ne.symm b d.uartMem

@[simp] lemma rx_put_rhr (d : UART) (b : U8) : (d.put (UART.index uartRhr) b).rx = d.rx := by
  simp [UART.rx]

lemma and_rx_set (lsr : U8) : (lsr ||| uartLsrRx) &&& uartLsrRx = 1 := by
  revert lsr
  decide

lemma and_rx_clear (lsr : U8) : lsr &&& ~~~uartLsrRx &&& uartLsrRx ≠ 1 := by
  revert lsr
  decide

@[simp] lemma rx_set (d : UART) (lsr : U8) :
    (d.put (UART.index uartLsr) (lsr ||| uartLsrRx)).rx = true := by
  rw [UART.rx, lsr_put_lsr, decide_eq_true_iff]
  exact and_rx_set lsr

@[simp] lemma rx_clear (d : UART) (lsr : U8) :
    (d.put (UART.index uartLsr) (lsr &&& ~~~uartLsrRx)).rx = false := by
  rw [UART.rx, lsr_put_lsr, decide_eq_false_iff_not]
  exact and_rx_clear lsr

/-- The three steps of the guest are `load8` of the receive register. -/
lemma load_thrice (h : s.guest = .observed) :
    [.load, .load, .load].foldlM step s
      = .ok { s with
          uart := (s.uart.load8 uartRhr).2, guest := .waiting
          delivered := s.delivered ++ [(s.uart.load8 uartRhr).1] } := by
  obtain ⟨uart, input, thread, c, guest, delivered⟩ := s
  obtain rfl : guest = .observed := h
  rfl

/-- The steps of the thread, once the bit is clear, are `receive`. -/
lemma receive_four (h : s.thread = .polling) (hrx : s.uart.rx = false) :
    [.receive, .receive, .receive, .receive].foldlM step s
      = .ok { s with uart := s.uart.receive s.c, thread := .idle } := by
  obtain ⟨uart, input, thread, c, guest, delivered⟩ := s
  obtain rfl : thread = .polling := h
  have hclear : ¬ uart.uartMem (UART.index uartLsr) &&& uartLsrRx = 1 :=
    decide_eq_false_iff_not.mp hrx
  have hreceive : uart.receive c = (uart.put (UART.index uartRhr) c).put (UART.index uartLsr)
      ((uart.put (UART.index uartRhr) c).lsr ||| uartLsrRx) := by
    rw [lsr_put_rhr, UART.receive, if_neg hclear]
    rfl
  simp only [List.foldlM_cons, List.foldlM_nil, step, receive, hrx, Bool.false_eq_true, if_false]
  rw [hreceive]
  rfl

/-! ## The channel -/

/-- The character that the thread holds. -/
def held (s : Line) : List U8 :=
  match s.thread with
  | .polling | .storing => [s.c]
  | .idle | .flagging | .setting _ => []

/-- Whether the thread has written a character and not yet set the bit. -/
def flagPending : Receiver → Bool
  | .flagging => true
  | .setting _ => true
  | .idle | .polling | .storing => false

/-- Whether the receive register holds a character that was not read. -/
def full (s : Line) : Bool := s.uart.rx || s.guest = .reading || flagPending s.thread

def inRegister (s : Line) : List U8 := if s.full then [s.uart.rhr] else []

/-- The line as a channel: the characters in the register, then the one with the thread. -/
def channel (s : Line) : Fifo U64 where
  delivered := s.delivered
  inFlight := (s.inRegister ++ s.held).map (·.setWidth 64)
  waiting := s.input.map (·.setWidth 64)

/-- The handshake.  While the bit is set the thread is before its polling; the guest is past its
looking only while the bit is set; and while the guest is reading the thread has written
nothing. -/
structure Handshake (s : Line) : Prop where
  thread : s.uart.rx = true → s.thread = .idle ∨ s.thread = .polling
  guest : s.guest = .observed ∨ (∃ lsr, s.guest = .clearing lsr) → s.uart.rx = true
  reading : s.guest = .reading → s.uart.rx = false ∧ flagPending s.thread = false

/-- A step of the thread that keeps the order: it does not overwrite a character while the guest is
about to read it, and goes for a character only while there is one. -/
structure Orderly (s : Line) (m : Move) : Prop where
  kept : m = .receive → s.guest = .reading → s.thread ≠ .storing
  more : m = .receive → s.thread = .idle → s.input ≠ []

instance (s : Line) (m : Move) : Decidable (Orderly s m) :=
  decidable_of_iff ((m = .receive → s.guest = .reading → s.thread ≠ .storing)
    ∧ (m = .receive → s.thread = .idle → s.input ≠ [])) ⟨fun h => ⟨h.1, h.2⟩, fun h => ⟨h.1, h.2⟩⟩

/-- Steps that keep what the register holds do not show. -/
lemma step_inner (hdelivered : s'.delivered = s.delivered)
    (hregister : s'.inRegister ++ s'.held = s.inRegister ++ s.held)
    (hinput : s'.input = s.input) : (channel s).Step (channel s') := by
  have hsame : channel s' = channel s := by
    rw [channel, hdelivered, hregister, hinput, channel]
  rw [hsame]
  exact .inner _

/-! ### The thread -/

lemma receive_refines (h : Handshake s) (horder : Orderly s .receive)
    (hs : s.receive = .ok s') : Handshake s' ∧ (channel s).Step (channel s') := by
  obtain ⟨uart, input, thread, c, guest, delivered⟩ := s
  cases thread with
  | idle =>
      cases input with
      | nil => exact absurd rfl (horder.more rfl rfl)
      | cons c' rest =>
          obtain rfl := Except.ok.inj hs
          refine ⟨⟨fun _ => Or.inr rfl, h.guest, fun hr => ⟨(h.reading hr).1, rfl⟩⟩, ?_⟩
          have hstep := Fifo.Step.accept delivered
            ((inRegister ⟨uart, c' :: rest, .idle, c, guest, delivered⟩).map (·.setWidth 64))
            (c'.setWidth 64) (rest.map (·.setWidth 64))
          simpa [channel, held, inRegister, full, flagPending] using hstep
  | polling =>
      obtain rfl := Except.ok.inj hs
      cases hrx : uart.rx with
      | true =>
          rw [if_pos rfl]
          exact ⟨h, .inner _⟩
      | false =>
          rw [if_neg Bool.false_ne_true]
          refine ⟨⟨fun hset => ?_, h.guest, h.reading⟩, ?_⟩
          · exact absurd (hrx.symm.trans hset) Bool.false_ne_true
          · exact step_inner rfl (by simp [inRegister, full, flagPending, held]) rfl
  | storing =>
      obtain rfl := Except.ok.inj hs
      have hrx : uart.rx = false := by
        by_contra hset
        rcases h.thread (by simpa using hset) with hthread | hthread <;> cases hthread
      have hreading : guest ≠ .reading := fun hr => horder.kept rfl hr rfl
      refine ⟨⟨fun hset => ?_, fun hg => ?_, fun hr => absurd hr hreading⟩, ?_⟩
      · rw [rx_put_rhr, hrx] at hset
        cases hset
      · rw [rx_put_rhr]
        exact h.guest hg
      · exact step_inner rfl (by simp [inRegister, full, flagPending, held, hrx, hreading]) rfl
  | flagging =>
      obtain rfl := Except.ok.inj hs
      refine ⟨⟨fun hset => ?_, h.guest, h.reading⟩, ?_⟩
      · rcases h.thread hset with hthread | hthread <;> cases hthread
      · exact step_inner rfl (by simp [inRegister, full, flagPending, held]) rfl
  | setting lsr =>
      obtain rfl := Except.ok.inj hs
      refine ⟨⟨fun _ => Or.inl rfl, fun _ => rx_set uart lsr, fun hr => ?_⟩, ?_⟩
      · cases (h.reading hr).2
      · exact step_inner rfl (by simp [inRegister, full, flagPending, held]) rfl

/-! ### The guest -/

lemma observe_refines (h : Handshake s) (hs : s.observe = .ok s') :
    Handshake s' ∧ (channel s).Step (channel s') := by
  obtain ⟨uart, input, thread, c, guest, delivered⟩ := s
  cases guest with
  | waiting =>
      obtain rfl := Except.ok.inj hs
      cases hrx : uart.rx with
      | true =>
          rw [if_pos rfl]
          refine ⟨⟨h.thread, fun _ => hrx, fun hr => by cases hr⟩, ?_⟩
          exact step_inner rfl (by simp [inRegister, full, held]) rfl
      | false =>
          rw [if_neg Bool.false_ne_true]
          exact ⟨h, .inner _⟩
  | observed =>
      obtain rfl := Except.ok.inj hs
      exact ⟨h, .inner _⟩
  | clearing lsr => cases hs
  | reading => cases hs

lemma load_refines (h : Handshake s) (hs : s.load = .ok s') :
    Handshake s' ∧ (channel s).Step (channel s') := by
  obtain ⟨uart, input, thread, c, guest, delivered⟩ := s
  cases guest with
  | waiting => cases hs
  | observed =>
      obtain rfl := Except.ok.inj hs
      refine ⟨⟨h.thread, fun _ => h.guest (Or.inl rfl), fun hr => by cases hr⟩, ?_⟩
      exact step_inner rfl (by simp [inRegister, full, held]) rfl
  | clearing lsr =>
      obtain rfl := Except.ok.inj hs
      have hrx : uart.rx = true := h.guest (Or.inr ⟨lsr, rfl⟩)
      refine ⟨⟨fun hset => ?_, fun hg => ?_, fun _ => ⟨rx_clear uart lsr, ?_⟩⟩, ?_⟩
      · rw [rx_clear] at hset
        cases hset
      · rcases hg with hg | ⟨lsr', hg⟩ <;> cases hg
      · rcases h.thread hrx with hthread | hthread
        · obtain rfl : thread = .idle := hthread
          rfl
        · obtain rfl : thread = .polling := hthread
          rfl
      · exact step_inner rfl (by simp [inRegister, full, hrx, held]) rfl
  | reading =>
      obtain rfl := Except.ok.inj hs
      obtain ⟨hrx, hflag⟩ := h.reading rfl
      refine ⟨⟨h.thread, fun hg => ?_, fun hr => by cases hr⟩, ?_⟩
      · rcases hg with hg | ⟨lsr', hg⟩ <;> cases hg
      · have hrx' : uart.rx = false := hrx
        have hflag' : flagPending thread = false := hflag
        have hstep := Fifo.Step.deliver delivered (uart.rhr.setWidth 64)
          ((held ⟨uart, input, thread, c, .reading, delivered⟩).map (·.setWidth 64))
          (input.map (·.setWidth 64))
        simpa [channel, inRegister, full, hrx', hflag', held] using hstep

/-- **A step that keeps the order is a step of the channel.** -/
theorem step_refines {m : Move} (h : Handshake s) (horder : Orderly s m)
    (hs : s.step m = .ok s') : Handshake s' ∧ (channel s).Step (channel s') := by
  cases m with
  | receive => exact receive_refines h horder hs
  | observe => exact observe_refines h hs
  | load => exact load_refines h hs

/-! ## Runs -/

lemma rx_start (interrupting : Bool) (c : U8) (input : List U8) :
    (start interrupting c input).uart.rx = false := by
  have hnew : (UART.new interrupting).rx = false := by cases interrupting <;> decide
  exact hnew

lemma handshake_start (interrupting : Bool) (c : U8) (input : List U8) :
    Handshake (start interrupting c input) where
  thread := fun hset => by
    rw [rx_start] at hset
    cases hset
  guest := fun hg => by rcases hg with hg | ⟨lsr, hg⟩ <;> cases hg
  reading := fun hr => by cases hr

lemma contents_start (interrupting : Bool) (c : U8) (input : List U8) :
    (channel (start interrupting c input)).contents = input.map (·.setWidth 64) := by
  have hempty : (start interrupting c input).inRegister = [] := by
    rw [inRegister, full, rx_start]
    rfl
  rw [Fifo.contents, channel, hempty]
  simp [start, held]

/-- What the guest has read is what came first of the input. -/
def InOrder (input : List U8) (s : Line) : Prop :=
  s.delivered <+: input.map (·.setWidth 64)

/-- The handshake is kept, and the input is all there: read, on its way, or to come. -/
structure Follows (input : List U8) (s : Line) : Prop where
  handshake : Handshake s
  contents : (channel s).contents = input.map (·.setWidth 64)

lemma follows_start (interrupting : Bool) (c : U8) (input : List U8) :
    Follows input (start interrupting c input) :=
  ⟨handshake_start interrupting c input, contents_start interrupting c input⟩

lemma Follows.step {input : List U8} {m : Move} (h : Follows input s) (horder : Orderly s m)
    (hs : s.step m = .ok s') : Follows input s' := by
  obtain ⟨hshake, hstep⟩ := step_refines h.handshake horder hs
  exact ⟨hshake, hstep.contents_eq.trans h.contents⟩

lemma Follows.inOrder {input : List U8} (h : Follows input s) : InOrder input s := by
  rw [InOrder, ← h.contents]
  exact Fifo.delivered_isPrefix (channel s)

/-- **Reception loses and duplicates nothing**, whatever the input and the order of the steps, in
runs in which the thread never overwrites a character that the guest is about to read and never
goes for one when there is none left. -/
theorem delivered_in_order (interrupting : Bool) (c : U8) (input : List U8) (moves : List Move)
    (h : AllSteps step Orderly (start interrupting c input) moves) :
    AllStates step (InOrder input) (start interrupting c input) moves :=
  allStates_of_allSteps (fun _ _ _ hs horder hstep => Follows.step hs horder hstep)
    (fun _ => Follows.inOrder) moves (follows_start interrupting c input) h

/-- Two characters, the second received while the guest is in `load8`, and both read. -/
theorem delivered_two :
    AllStates step (InOrder [0x61, 0x62]) (start false 0 [0x61, 0x62])
      [.receive, .receive, .receive, .receive, .receive, .observe, .load, .receive, .load,
        .receive, .load, .receive, .receive, .receive, .observe, .load, .load, .load] :=
  delivered_in_order _ _ _ _ (by decide +kernel)

/-- Two characters, the second written between the two halves of `load8`. -/
def overwriting : List Move :=
  [.receive, .receive, .receive, .receive, .receive, .receive, .observe, .load, .load, .receive,
    .receive, .load, .receive, .receive, .observe, .load, .load, .load]

/-- A character received and read, one step after the other, and then another time. -/
def repeating : List Move :=
  [.receive, .receive, .receive, .receive, .receive, .observe, .load, .load, .load,
    .receive, .receive, .receive, .receive, .receive, .observe, .load, .load, .load]

/-- The first of two characters is lost and the second read twice; and a single one is read twice,
with no step of one side inside the other's. -/
theorem not_delivered_in_order :
    (overwriting.foldlM step (start false 0 [0x61, 0x62]) >>= fun s => .ok s.delivered)
        = .ok [0x62, 0x62]
      ∧ (repeating.foldlM step (start false 0 [0x61]) >>= fun s => .ok s.delivered)
        = .ok [0x61, 0x61]
      ∧ ¬ ∀ interrupting c input moves,
          AllStates step (InOrder input) (start interrupting c input) moves := by
  have hview : (overwriting.foldlM step (start false 0 [0x61, 0x62]) >>= fun s => .ok s.delivered)
      = .ok [0x62, 0x62] := by decide +kernel
  refine ⟨hview, by decide +kernel, fun h => ?_⟩
  obtain ⟨s, hs, hdelivered⟩ := bind_eq_ok_iff.mp hview
  have horder := (h false 0 [0x61, 0x62] overwriting).last hs
  rw [InOrder, Except.ok.inj hdelivered] at horder
  revert horder
  decide

end Line

end Vemu
