import Vemu.Trap.Control

/-!
# Runs with interrupts, and what they called

A round of any of the builds, with the result of an undefined shift as a parameter: up to the
fetch (`headAs`), up to the call of the handler (`callAs`), and to its end.  It notes the call it
made.  Where `iterate` goes through, a round is one of `iterate` (`roundNoting_of_iterate`); where
`iterate` ends at an interrupt, because of the shift, a round goes on.

A run is a list of events, each of which is a round or a character that the reading thread stores.
Along a run an emulator stays intact, and every call in the notes was made (`Noted`).
-/

namespace Vemu

open Fallible Transition

namespace VEmu

/-! ## One round -/

section Definitions

variable (shift : U64 → Bool) (host : Host)

/-- What the loop does with an outcome. -/
def finishAs (s : VEmu) (e : ReturnException) : Except Fault VEmu :=
  if host.build = .fuzz then s.afterwards .fuzz e else afterwardsAs shift s e

/-- The interrupts of a round. -/
def pollAs (s : VEmu) : Except Fault VEmu := do
  if host.build = .fuzz then return s
  else
    let (i, s) ← s.checkPendingInterrupt
    return if i = .NoInterrupt then s else takeInterruptAs shift s i

/-- A round up to the fetch. -/
def headAs (s : VEmu) : Except Fault Turn := do
  if s.hasExited then return .returned (s.exitCode.setWidth 32)
  else
    let s ← pollAs shift host s
    if host.build = .test ∧ s.testFlagDone then return .returned 0 else return .next s

/-- From the fetch up to the call of the handler. -/
def callAs (s : VEmu) : Except Fault VEmu := do
  let ((w, exp), s) ← s.fetch host
  let s ← finishAs shift host s exp
  s.decodeInto w

/-- The call of a handler: the state at the fetch, the state in which the handler was called, what
it reported and what it left. -/
structure Call where
  fetched : VEmu
  called : VEmu
  report : ReturnException
  left : VEmu

/-- A round, and the call that it made. -/
def roundNoting (s : VEmu) : Except Fault (Turn × Option Call) := do
  match ← headAs shift host s with
  | .returned code => return (.returned code, none)
  | .next f =>
      let t ← callAs shift host f
      let (e, t') ← dispatch host t.currInstr.name t
      let s' ← finishAs shift host t' e
      return (.next { s' with pc := s'.pc + 4 }, some ⟨f, t, e, t'⟩)

/-- The reading thread stores a character, where there is a serial port. -/
def received (s : VEmu) (c : U8) : VEmu :=
  match s.bus.devices with
  | some d => { s with bus := { s.bus with devices := some { d with uart := d.uart.receive c } } }
  | none => s

inductive Event
  | round
  | receive (c : U8)

def Event.isRound : Event → Bool
  | round => true
  | receive _ => false

/-- One event of a run, with the calls so far, the last one first. -/
def stepNoting : Turn × List Call → Event → Except Fault (Turn × List Call)
  | (.returned code, calls), _ => .ok (.returned code, calls)
  | (.next s, calls), .round => do
      let (turn, call) ← roundNoting shift host s
      return (turn, call.toList ++ calls)
  | (.next s, calls), .receive c => .ok (.next (s.received c), calls)

/-- A condition on the emulator between two events. -/
def Between (P : VEmu → Prop) (r : Turn × List Call) : Prop := ∀ s, r.1 = .next s → P s

/-- A condition on the rounds that reach their fetch. -/
def AtFetch (P : VEmu → Prop) : Turn × List Call → Event → Prop
  | (.next s, _), .round => ∀ f, headAs shift host s = .ok (.next f) → P f
  | _, _ => True

end Definitions

variable {shift : U64 → Bool} {host : Host} {s s' f t : VEmu} {e : ReturnException} {turn : Turn}

instance (P : VEmu → Prop) [hP : DecidablePred P] (r : Turn × List Call) :
    Decidable (Between P r) :=
  match hr : r.1 with
  | .returned _ => isTrue fun s hs => by rw [hr] at hs; cases hs
  | .next s => decidable_of_iff (P s) (by simp [Between, hr])

instance (P : VEmu → Prop) [hP : DecidablePred P] : ∀ r i, Decidable (AtFetch shift host P r i)
  | (.next s, _), .round =>
      match hf : headAs shift host s with
      | .ok (.next f) => decidable_of_iff (P f) (by simp [AtFetch, hf])
      | .ok (.returned _) => isTrue (by simp [AtFetch, hf])
      | .error _ => isTrue (by simp [AtFetch, hf])
  | (.returned _, _), .round => isTrue trivial
  | (.returned _, _), .receive _ => isTrue trivial
  | (.next _, _), .receive _ => isTrue trivial

/-! ## What a round did -/

lemma finishAs_of_afterwards (h : s.afterwards host.build e = .ok s') :
    finishAs shift host s e = .ok s' := by
  unfold finishAs
  split_ifs with hb
  · exact hb ▸ h
  · exact afterwardsAs_of_afterwards hb h

lemma finishAs_frame (h : finishAs shift host s e = .ok s') :
    ∃ csrs mode pc, s' = { s with csrs := csrs, mode := mode, pc := pc } := by
  unfold finishAs at h
  split_ifs at h
  · exact afterwards_frame h
  · exact afterwardsAs_frame h

/-- The loop goes on only after an outcome that is not fatal. -/
lemma finishAs_not_fatal (h : finishAs shift host s e = .ok s') : isFatal e = false := by
  unfold finishAs at h
  split_ifs at h
  · unfold afterwards at h
    split_ifs at h with he hfatal
    · rw [he]
      rfl
    · obtain ⟨s₁, -, h⟩ := bind_eq_ok_iff.mp h
      cases h
    · simpa using hfatal
  · rcases afterwardsAs_cases h with ⟨rfl, -⟩ | ⟨-, hfatal, -⟩
    · rfl
    · exact hfatal

lemma pollAs_frame (h : pollAs shift host s = .ok s') :
    ∃ csrs mode pc devices, devices.isNone = s.bus.devices.isNone ∧ s' = { s with
      csrs := csrs, mode := mode, pc := pc, bus := { s.bus with devices := devices } } := by
  unfold pollAs at h
  split_ifs at h with hb
  · obtain rfl := Except.ok.inj h
    exact ⟨s.csrs, s.mode, s.pc, s.bus.devices, rfl, rfl⟩
  · obtain ⟨⟨i, s₁⟩, hcheck, h⟩ := bind_eq_ok_iff.mp h
    obtain ⟨csrs, devices, hdev, rfl⟩ := checkPendingInterrupt_frame hcheck
    obtain rfl := Except.ok.inj h
    split_ifs with hi
    · exact ⟨csrs, s.mode, s.pc, devices, hdev, rfl⟩
    · obtain ⟨csrs', mode, heq⟩ := @enterAs_frame shift
        { s with csrs := csrs, bus := { s.bus with devices := devices } } (interruptCause i)
        (interruptHandler shift { s with csrs := csrs, bus := { s.bus with devices := devices } } i)
      exact ⟨csrs', mode, _, devices, hdev, heq⟩

lemma headAs_cases (h : headAs shift host s = .ok (.next f)) :
    s.hasExited = false ∧ pollAs shift host s = .ok f
      ∧ ¬ (host.build = .test ∧ f.testFlagDone = true) := by
  unfold headAs at h
  split_ifs at h with hexit
  · cases h
  · obtain ⟨s₁, hpoll, h⟩ := bind_eq_ok_iff.mp h
    split_ifs at h with htest
    · cases h
    · obtain rfl := Turn.next.inj (Except.ok.inj h)
      exact ⟨by simpa using hexit, hpoll, htest⟩

lemma callAs_cases (h : callAs shift host f = .ok t) :
    ∃ w exp t₀ ins, f.fetch host = .ok ((w, exp), f) ∧ finishAs shift host f exp = .ok t₀
      ∧ (t₀.decoder.decode w).1 = .ok ins
      ∧ t = { t₀ with hexInstr := w, currInstr := ins, decoder := (t₀.decoder.decode w).2 } := by
  rw [callAs, bind_eq_ok_iff] at h
  obtain ⟨⟨⟨w, exp⟩, f'⟩, hfetch, h⟩ := h
  obtain rfl := fetch_frame hfetch
  obtain ⟨t₀, hfinish, h⟩ := bind_eq_ok_iff.mp h
  obtain ⟨ins, hins, rfl⟩ := decodeInto_frame h
  exact ⟨w, exp, t₀, ins, hfetch, hfinish, hins, rfl⟩

/-- A call was made: up to it the round went through, the handler came back, and the loop went
on. -/
structure Call.Made (shift : U64 → Bool) (host : Host) (c : Call) : Prop where
  called : callAs shift host c.fetched = .ok c.called
  known : c.called.currInstr.name ∈ c.called.instFuncs
  left : handler host c.called.currInstr.name c.called = .ok (c.report, c.left)
  finished : ∃ s', finishAs shift host c.left c.report = .ok s'

lemma roundNoting_cases {call : Option Call} (h : roundNoting shift host s = .ok (turn, call)) :
    (∃ code, turn = .returned code ∧ call = none)
      ∨ ∃ c s', call = some c ∧ headAs shift host s = .ok (.next c.fetched)
        ∧ c.Made shift host ∧ finishAs shift host c.left c.report = .ok s'
        ∧ turn = .next { s' with pc := s'.pc + 4 } := by
  obtain ⟨turn₁, hhead, h⟩ := bind_eq_ok_iff.mp h
  cases turn₁ with
  | returned code =>
      obtain ⟨rfl, rfl⟩ := Prod.mk.inj (Except.ok.inj h)
      exact Or.inl ⟨code, rfl, rfl⟩
  | next f =>
      obtain ⟨t, hcall, h⟩ := bind_eq_ok_iff.mp h
      obtain ⟨⟨e, t'⟩, hexec, h⟩ := bind_eq_ok_iff.mp h
      obtain ⟨s', hfinish, h⟩ := bind_eq_ok_iff.mp h
      obtain ⟨rfl, rfl⟩ := Prod.mk.inj (Except.ok.inj h)
      unfold dispatch dispatchWith at hexec
      split_ifs at hexec with hknown
      exact Or.inr ⟨⟨f, t, e, t'⟩, s', rfl, hhead, ⟨hcall, hknown, hexec, s', hfinish⟩, hfinish, rfl⟩

/-- **Where `iterate` goes through**, a round is one of `iterate`. -/
theorem roundNoting_of_iterate (h : s.iterate host = .ok turn) :
    ∃ call, roundNoting shift host s = .ok (turn, call) := by
  have hpollAs : ∀ {s₁}, s.poll host = .ok s₁ → pollAs shift host s = .ok s₁ := by
    intro s₁ hpoll
    unfold poll at hpoll
    unfold pollAs
    split_ifs at hpoll ⊢ with hb
    · exact hpoll
    · obtain ⟨⟨i, s₂⟩, hcheck, hpoll⟩ := bind_eq_ok_iff.mp hpoll
      dsimp only at hpoll
      split_ifs at hpoll with hi
      · rw [hcheck, ok_bind]
        dsimp only
        rw [if_pos hi]
        exact hpoll
      · rw [takeInterrupt_eq] at hpoll
        cases hpoll
  unfold iterate iterateWith at h
  unfold roundNoting headAs
  split_ifs at h ⊢ with hexit
  · obtain rfl := Except.ok.inj h
    exact ⟨none, rfl⟩
  · obtain ⟨s₁, hpoll, h⟩ := bind_eq_ok_iff.mp h
    rw [hpollAs hpoll, ok_bind]
    split_ifs at h ⊢ with htest
    · obtain rfl := Except.ok.inj h
      exact ⟨none, rfl⟩
    · obtain ⟨⟨e, s₂⟩, hexec, h⟩ := bind_eq_ok_iff.mp h
      obtain ⟨s₃, hafter, h⟩ := bind_eq_ok_iff.mp h
      obtain rfl := Except.ok.inj h
      obtain ⟨⟨⟨w, exp⟩, s₄⟩, hfetch, hexec⟩ := bind_eq_ok_iff.mp hexec
      obtain ⟨s₅, htrap, hexec⟩ := bind_eq_ok_iff.mp hexec
      obtain ⟨s₆, hdecode, hexec⟩ := bind_eq_ok_iff.mp hexec
      rw [← dispatch] at hexec
      have hcall : callAs shift host s₁ = .ok s₆ := by
        rw [callAs, hfetch, ok_bind]
        dsimp only
        rw [finishAs_of_afterwards htrap, ok_bind, hdecode]
      refine ⟨some ⟨s₁, s₆, e, s₂⟩, ?_⟩
      simp only [pure_eq_ok, ok_bind, hcall, hexec, finishAs_of_afterwards hafter]

/-! ## Runs -/

variable {calls calls' : List Call} {i : Event} {events : List Event}

/-- A run that has returned does nothing more. -/
lemma run_returned {code : U32} :
    events.foldlM (stepNoting shift host) (.returned code, calls)
      = .ok (.returned code, calls) := by
  induction events with
  | nil => rfl
  | cons i events ih => exact ih

/-- A run that goes on after all its events went on after the first one. -/
lemma run_cons_next
    (h : (i :: events).foldlM (stepNoting shift host) (.next s, calls)
      = .ok (.next s', calls')) :
    ∃ s₁ calls₁, stepNoting shift host (.next s, calls) i = .ok (.next s₁, calls₁)
      ∧ events.foldlM (stepNoting shift host) (.next s₁, calls₁) = .ok (.next s', calls') := by
  rw [List.foldlM_cons] at h
  obtain ⟨⟨turn, calls₁⟩, hstep, h⟩ := bind_eq_ok_iff.mp h
  cases turn with
  | returned code =>
      rw [run_returned] at h
      cases h
  | next s₁ => exact ⟨s₁, calls₁, hstep, h⟩

lemma received_frame (s : VEmu) (c : U8) :
    ∃ devices, devices.isNone = s.bus.devices.isNone
      ∧ s.received c = { s with bus := { s.bus with devices := devices } } := by
  unfold received
  split
  · next d hd => exact ⟨some _, by rw [hd]; rfl, rfl⟩
  · exact ⟨s.bus.devices, rfl, rfl⟩

lemma Intact.head (hs : s.Intact host) (h : headAs shift host s = .ok (.next f)) :
    f.Intact host := by
  obtain ⟨-, hpoll, -⟩ := headAs_cases h
  obtain ⟨csrs, mode, pc, devices, hdev, rfl⟩ := pollAs_frame hpoll
  exact ⟨hs.instFuncs, hs.memory, hdev.trans hs.devices, hs.decoder⟩

lemma Intact.call (hf : f.Intact host) (h : callAs shift host f = .ok t) : t.Intact host := by
  obtain ⟨w, exp, t₀, ins, -, hfinish, -, rfl⟩ := callAs_cases h
  obtain ⟨csrs, mode, pc, rfl⟩ := finishAs_frame hfinish
  exact ⟨hf.instFuncs, hf.memory, hf.devices, (InstructionDecoder.decode_eq hf.decoder w).2⟩

/-- A call in the notes: it was made, by an intact emulator. -/
structure Noted (shift : U64 → Bool) (host : Host) (c : Call) : Prop where
  made : c.Made shift host
  intact : c.fetched.Intact host

lemma Noted.called {c : Call} (h : Noted shift host c) : c.called.Intact host := h.intact.call h.made.called

/-- What holds of the state of a run and of its notes. -/
def NotedRun (shift : U64 → Bool) (host : Host) : Turn × List Call → Prop
  | (turn, calls) => (∀ s, turn = .next s → s.Intact host) ∧ ∀ c ∈ calls, Noted shift host c

lemma NotedRun.start (hs : s.Intact host) : NotedRun shift host (.next s, []) :=
  ⟨fun _ hs' => Turn.next.inj hs' ▸ hs, fun _ hc => absurd hc List.not_mem_nil⟩

/-- **One event** keeps the emulator intact and notes the call that was made. -/
lemma NotedRun.step {r r' : Turn × List Call} {i : Event} (hr : NotedRun shift host r)
    (h : stepNoting shift host r i = .ok r') : NotedRun shift host r' := by
  obtain ⟨turn, calls⟩ := r
  obtain ⟨hs, hcalls⟩ := hr
  cases turn with
  | returned code =>
      obtain rfl := Except.ok.inj h
      exact ⟨hs, hcalls⟩
  | next s =>
      have hintact := hs s rfl
      cases i with
      | receive c =>
          obtain rfl := Except.ok.inj h
          obtain ⟨devices, hdev, heq⟩ := received_frame s c
          refine ⟨fun s' hs' => ?_, hcalls⟩
          obtain rfl := Turn.next.inj hs'
          rw [heq]
          exact ⟨hintact.instFuncs, hintact.memory, hdev.trans hintact.devices, hintact.decoder⟩
      | round =>
          obtain ⟨⟨turn', call⟩, hround, h⟩ := bind_eq_ok_iff.mp h
          obtain rfl := Except.ok.inj h
          rcases roundNoting_cases hround with
            ⟨code, rfl, rfl⟩ | ⟨c, s', rfl, hhead, hmade, hfinish, rfl⟩
          · exact ⟨fun s' hs' => absurd hs' (by simp), hcalls⟩
          · have hnoted : Noted shift host c := ⟨hmade, hintact.head hhead⟩
            refine ⟨fun s'' hs'' => ?_, ?_⟩
            · obtain rfl := Turn.next.inj hs''
              obtain ⟨csrs, mode, pc, rfl⟩ := finishAs_frame hfinish
              have hkeeps := handler_keeps host _ _ _ _ hmade.left
              exact hnoted.called.keeps (hkeeps.trans_same rfl rfl rfl)
            · rintro c' hc'
              rcases List.mem_cons.mp hc' with rfl | hc'
              · exact hnoted
              · exact hcalls c' hc'

/-- **A run** from an intact emulator. -/
theorem NotedRun.run {r r' : Turn × List Call} (hr : NotedRun shift host r) (ops : List Event)
    (h : ops.foldlM (stepNoting shift host) r = .ok r') : NotedRun shift host r' :=
  foldlM_invariant (NotedRun shift host) (fun _ _ _ hs h => hs.step h) ops r r' hr h

/-! ### Conditions on intact emulators

Two of them that come to the same come to the same along a run. -/

variable {P Q : VEmu → Prop}

lemma between_congr (hPQ : ∀ f : VEmu, f.Intact host → (P f ↔ Q f)) (hs : s.Intact host)
    (ops : List Event) :
    AllStates (stepNoting shift host) (Between P) (.next s, []) ops
      ↔ AllStates (stepNoting shift host) (Between Q) (.next s, []) ops := by
  have hstart : NotedRun shift host (.next s, []) := .start hs
  exact allStates_congr (fun _ hr => forall₂_congr fun s' hs' => hPQ s' (hr.1 s' hs'))
    (fun _ _ _ hr h => NotedRun.step hr h) ops hstart

lemma atFetch_congr (hPQ : ∀ f : VEmu, f.Intact host → (P f ↔ Q f)) (hs : s.Intact host)
    (ops : List Event) :
    AllTries (stepNoting shift host) (AtFetch shift host P) (.next s, []) ops
      ↔ AllTries (stepNoting shift host) (AtFetch shift host Q) (.next s, []) ops := by
  have hstart : NotedRun shift host (.next s, []) := .start hs
  refine allTries_iff (fun r i hr => ?_) (fun _ _ _ hr _ h => hr.step h) ops hstart
  obtain ⟨turn, calls⟩ := r
  cases turn with
  | returned code => exact Iff.rfl
  | next s =>
      cases i with
      | receive c => exact Iff.rfl
      | round => exact forall₂_congr fun f hf => hPQ f ((hr.1 s rfl).head hf)

end VEmu

end Vemu
