import Vemu.Trap.Rounds

/-!
# What a run does to memory

A round leaves memory alone or performs one operation on it: a store, the write of a system call,
or an allocation.  Other than by an allocation, permissions are set by the loaders only, never by
a guest (`handler_moves`).

So a run of the emulator is, for its memory, a run of such operations, at most one a round
(**`run_trace`**), whatever characters arrive and whatever an undefined shift gives.  What the
operations of a guest keep of a memory therefore holds between any two states of a run
(`moved_of_run`).
-/

namespace Vemu

open Fallible Relation

namespace MMU

variable {m m' m'' : MMU}

/-- The operations that a guest can cause. -/
def Op.ofGuest : Op → Bool
  | .store .. | .writeFrom .. | .allocate .. => true
  | .setPerms .. => false

/-- The memory is left alone, or changed by one operation of a guest. -/
def Moved (m m' : MMU) : Prop := m' = m ∨ ∃ op : Op, op.ofGuest = true ∧ m.applyOp op = .ok m'

lemma Moved.refl (m : MMU) : m.Moved m := Or.inl rfl

lemma Moved.touched (h : m.Moved m') : m.Touched m' := by
  rcases h with rfl | ⟨op, -, hop⟩
  · exact Or.inl rfl
  · exact Or.inr ⟨op, hop⟩

lemma Moved.backed (h : m.Moved m') (hm : m.Backed) : m'.Backed := h.touched.sameShape.backed hm

lemma moved_store {addr data : U64} {sz : ℕ} {e : ReturnException}
    (h : m.store addr data sz = .ok (e, m')) : m.Moved m' := by
  refine Or.inr ⟨.store addr data sz, rfl, ?_⟩
  rw [applyOp, h]
  rfl

lemma moved_allocate {size base : U64} (h : m.allocate size = .ok (base, m')) : m.Moved m' := by
  refine Or.inr ⟨.allocate size, rfl, ?_⟩
  rw [applyOp, h]
  rfl

lemma moved_writeFrom {buf : List U8} {addr : U64} (hbuf : buf.length ≤ maxVectorSize)
    (h : m.writeFrom buf addr = .ok m') : m.Moved m' := Or.inr ⟨.writeFrom buf hbuf addr, rfl, h⟩

end MMU

namespace VEmu

variable {host : Host} {s s' : VEmu} {e : ReturnException}

/-! ## Handlers -/

/-- The handler moves memory by one operation at most. -/
def HandlerMoves (h : Handler) : Prop := ∀ s e s', h s = .ok (e, s') → s.bus.mmu.Moved s'.bus.mmu

lemma store_moves {addr data : U64} {sz : ℕ} (h : s.store addr data sz = .ok (e, s')) :
    s.bus.mmu.Moved s'.bus.mmu := by
  rw [store, bind_eq_ok_iff] at h
  obtain ⟨⟨e', bus⟩, hbus, h⟩ := h
  obtain ⟨-, rfl⟩ := Prod.mk.inj (Except.ok.inj h)
  rcases (Bus.store_leaves hbus).1 with hsame | ⟨e'', hstore⟩
  · exact Or.inl hsame
  · exact MMU.moved_store hstore

lemma moved_of_normal {t : VEmu} (h : normal t = .ok (e, s')) (ht : s.bus.mmu.Moved t.bus.mmu) :
    s.bus.mmu.Moved s'.bus.mmu := by
  obtain ⟨-, rfl⟩ := Prod.mk.inj (Except.ok.inj h)
  exact ht

lemma moved_of_return {r : ReturnException} {t : VEmu}
    (h : (pure (r, t) : Except Fault (ReturnException × VEmu)) = .ok (e, s'))
    (ht : s.bus.mmu.Moved t.bus.mmu) : s.bus.mmu.Moved s'.bus.mmu := by
  obtain ⟨-, rfl⟩ := Prod.mk.inj (Except.ok.inj h)
  exact ht

/-- A handler that goes through with other members only. -/
lemma moves_of_normal {f : VEmu → VEmu} (hf : ∀ s, (f s).bus = s.bus) :
    HandlerMoves fun s => normal (f s) := fun s _ _ h =>
  moved_of_normal h (Or.inl (congrArg Bus.mmu (hf s)))

lemma loadUnsigned_moves (sz : ℕ) : HandlerMoves (loadUnsigned sz) := fun s e s' h => by
  rw [loadUnsigned, bind_eq_ok_iff] at h
  obtain ⟨⟨⟨res, exp⟩, s₁⟩, h₁, h⟩ := h
  have hmmu : s.bus.mmu.Moved s₁.bus.mmu := Or.inl (load_keeps h₁).2
  dsimp only at h
  split_ifs at h
  · exact moved_of_return h hmmu
  · exact moved_of_normal h hmmu

lemma loadSigned_moves (bits : ℕ) {unsigned : Handler} (hu : HandlerMoves unsigned) :
    HandlerMoves (loadSigned bits unsigned) := fun s e s' h => by
  rw [loadSigned, bind_eq_ok_iff] at h
  obtain ⟨⟨e₁, s₁⟩, h₁, h⟩ := h
  exact moved_of_normal h (hu s e₁ s₁ h₁)

lemma loadReserved_moves (sz : ℕ) : HandlerMoves (loadReserved sz) := fun s e s' h => by
  unfold loadReserved at h
  dsimp only at h
  split_ifs at h
  · exact moved_of_return h (.refl _)
  · rw [bind_eq_ok_iff] at h
    obtain ⟨⟨⟨res, exp⟩, s₁⟩, h₁, h⟩ := h
    have hmmu : s.bus.mmu.Moved s₁.bus.mmu := Or.inl (load_keeps h₁).2
    dsimp only at h
    split_ifs at h
    · exact moved_of_return h hmmu
    · exact moved_of_normal h hmmu

lemma storeConditional_moves (sz : ℕ) : HandlerMoves (storeConditional sz) := fun s e s' h => by
  unfold storeConditional at h
  dsimp only at h
  split_ifs at h
  · exact moved_of_return h (.refl _)
  · rw [bind_eq_ok_iff] at h
    obtain ⟨⟨exp, s₁⟩, h₁, h⟩ := h
    have hmmu : s.bus.mmu.Moved s₁.bus.mmu := store_moves h₁
    exact moved_of_return h hmmu

lemma amo_moves (sz : ℕ) (old : U64 → U64) (f : U64 → U64 → U64) :
    HandlerMoves (amo sz old f) := fun s e s' h => by
  unfold amo at h
  dsimp only at h
  split_ifs at h
  · exact moved_of_return h (.refl _)
  · rw [bind_eq_ok_iff] at h
    obtain ⟨⟨⟨tmp, exp⟩, s₁⟩, h₁, h⟩ := h
    have hload : s₁.bus.mmu = s.bus.mmu := (load_keeps h₁).2
    dsimp only at h
    split_ifs at h
    · exact moved_of_return h (Or.inl hload)
    · rw [bind_eq_ok_iff] at h
      obtain ⟨⟨exp', s₂⟩, h₂, h⟩ := h
      -- the load left memory alone, so the store is the one operation
      have hmmu : s.bus.mmu.Moved s₂.bus.mmu := hload ▸ store_moves h₂
      dsimp only at h
      split_ifs at h
      · exact moved_of_return h hmmu
      · exact moved_of_normal h hmmu

lemma branch_moves (taken : U64 → U64 → Bool) : HandlerMoves (branch taken) := fun s _ _ h => by
  refine moved_of_normal h ?_
  split
  · exact .refl _
  · exact .refl _

lemma dividing_moves (f : U64 → U64 → Option U64) : HandlerMoves (dividing f) := fun s _ _ h => by
  unfold dividing at h
  split at h
  · exact moved_of_normal h (.refl _)
  · exact moved_of_normal h (.refl _)

lemma families_move : Families HandlerMoves where
  regReg := fun _ => moves_of_normal fun _ => rfl
  regImm := fun _ => moves_of_normal fun _ => rfl
  shiftImm := fun _ _ => moves_of_normal fun _ => rfl
  shiftReg := fun _ _ => moves_of_normal fun _ => rfl
  branch := branch_moves
  dividing := dividing_moves
  loadUnsigned := loadUnsigned_moves
  loadSigned := fun bits sz => loadSigned_moves bits (loadUnsigned_moves sz)
  storeData := fun _ _ _ _ _ h => store_moves h
  loadReserved := loadReserved_moves
  storeConditional := storeConditional_moves
  amo := amo_moves
  csrModify := fun _ _ => moves_of_normal fun _ => rfl
  upper := ⟨moves_of_normal fun _ => rfl, moves_of_normal fun _ => rfl⟩
  jump := ⟨moves_of_normal fun _ => rfl, moves_of_normal fun _ => rfl⟩
  report := fun _ _ hh s _ _ h => moved_of_return ((hh s).symm.trans h) (.refl _)

/-! ## System calls -/

lemma sysBrk_moves : HandlerMoves sysBrk := fun s e s' h => by
  rw [sysBrk_eq] at h
  split_ifs at h
  · exact moved_of_normal h (.refl _)
  · obtain ⟨⟨base, mmu⟩, halloc, h⟩ := bind_eq_ok_iff.mp h
    exact moved_of_normal h (MMU.moved_allocate halloc)

lemma sysOpen_moves : HandlerMoves (sysOpen host) := fun s e s' h => by
  rw [sysOpen, bind_eq_ok_iff] at h
  obtain ⟨_, -, h⟩ := h
  rw [bind_eq_ok_iff] at h
  obtain ⟨_, -, h⟩ := h
  rw [bind_eq_ok_iff] at h
  obtain ⟨_, -, h⟩ := h
  rw [bind_eq_ok_iff] at h
  obtain ⟨_, -, h⟩ := h
  rw [bind_eq_ok_iff] at h
  obtain ⟨_, -, h⟩ := h
  exact moved_of_normal h (.refl _)

lemma sysClose_moves : HandlerMoves sysClose := fun s e s' h => by
  unfold sysClose at h
  dsimp only at h
  split_ifs at h
  · exact moved_of_normal h (.refl _)
  · exact moved_of_normal h (.refl _)

lemma sysFstat_moves : HandlerMoves (sysFstat host) := fun s e s' h => by
  rw [sysFstat, bind_eq_ok_iff] at h
  obtain ⟨_, -, h⟩ := h
  rw [bind_eq_ok_iff] at h
  obtain ⟨last, -, h⟩ := h
  rw [bind_eq_ok_iff] at h
  obtain ⟨mmu, hmmu, h⟩ := h
  refine moved_of_normal h (MMU.moved_writeFrom ?_ hmmu)
  rw [length_statBytes]
  decide

lemma sysLseek_moves : HandlerMoves sysLseek := fun s e s' h => by
  unfold sysLseek at h
  dsimp only at h
  split at h
  · rw [bind_eq_ok_iff] at h
    obtain ⟨idx, -, h⟩ := h
    exact moved_of_normal h (.refl _)
  · exact moved_of_normal h (.refl _)

lemma sysRead_moves : HandlerMoves sysRead := fun s e s' h => by
  unfold sysRead at h
  dsimp only at h
  split at h
  · split_ifs at h
    · exact moved_of_normal h (.refl _)
    · rw [bind_eq_ok_iff] at h
      obtain ⟨data, hdata, h⟩ := h
      rw [bind_eq_ok_iff] at h
      obtain ⟨mmu, hmmu, h⟩ := h
      obtain ⟨hlen, hmax⟩ := length_slice hdata
      exact moved_of_normal h (MMU.moved_writeFrom (hlen ▸ hmax) hmmu)
  · cases h

lemma ecallFuzz_moves : HandlerMoves (ecallFuzz host) := fun s e s' h => by
  unfold ecallFuzz at h
  dsimp only at h
  split_ifs at h
  · exact sysBrk_moves s e s' h
  · exact moved_of_normal h (.refl _)
  · exact sysOpen_moves s e s' h
  · exact sysClose_moves s e s' h
  · exact moved_of_normal h (.refl _)
  · exact sysFstat_moves s e s' h
  · exact sysLseek_moves s e s' h
  · exact sysRead_moves s e s' h

lemma ecall_moves (host : Host) : HandlerMoves (handler host .ECALL) := by
  simp only [handler]
  cases host.build with
  | fuzz => exact ecallFuzz_moves
  | test => exact moves_of_normal fun _ => rfl
  | emu =>
      intro s e s' h
      change ecallEmu s = .ok (e, s') at h
      unfold ecallEmu at h
      split at h
      all_goals exact moved_of_return h (.refl _)

/-- **Every handler moves memory by one operation at most.** -/
theorem handler_moves (host : Host) (n : IName) : HandlerMoves (handler host n) := by
  by_cases hecall : n = .ECALL
  · exact hecall ▸ ecall_moves host
  · by_cases hmret : n = .MRET
    · subst hmret
      intro s e s' h
      obtain ⟨mode, -, h⟩ := bind_eq_ok_iff.mp h
      exact moved_of_normal h (.refl _)
    · by_cases hsret : n = .SRET
      · subst hsret
        exact moves_of_normal fun _ => rfl
      · exact families_move.handler host hecall hmret hsret

/-! ## Rounds and runs -/

variable {shift : U64 → Bool} {calls calls' : List Call} {i : Event} {events : List Event}

/-- A round moves memory by one operation at most, that of the handler. -/
lemma roundNoting_moves {call : Option Call}
    (h : roundNoting shift host s = .ok (.next s', call)) : s.bus.mmu.Moved s'.bus.mmu := by
  obtain ⟨code, hcode, -⟩ | ⟨c, s₁, -, hhead, hmade, hfinish, hnext⟩ := roundNoting_cases h
  · cases hcode
  · obtain rfl := Turn.next.inj hnext
    obtain ⟨-, hpoll, -⟩ := headAs_cases hhead
    obtain ⟨_, _, _, _, -, hfetched⟩ := pollAs_frame hpoll
    obtain ⟨w, exp, t₀, ins, -, hfinish₀, -, hcalled⟩ := callAs_cases hmade.called
    obtain ⟨_, _, _, rfl⟩ := finishAs_frame hfinish₀
    obtain ⟨_, _, _, rfl⟩ := finishAs_frame hfinish
    have hmoves := handler_moves host _ _ _ _ hmade.left
    have hmmu : c.called.bus.mmu = s.bus.mmu := by rw [hcalled, hfetched]
    exact hmmu ▸ hmoves

/-- **One event** of a run leaves memory alone, unless it is a round. -/
lemma stepNoting_moves (h : stepNoting shift host (.next s, calls) i = .ok (.next s', calls')) :
    s.bus.mmu.Moved s'.bus.mmu ∧ (i.isRound = false → s'.bus.mmu = s.bus.mmu) := by
  cases i with
  | round =>
      obtain ⟨⟨turn, call⟩, hround, h⟩ := bind_eq_ok_iff.mp h
      obtain ⟨rfl, -⟩ := Prod.mk.inj (Except.ok.inj h)
      exact ⟨roundNoting_moves hround, nofun⟩
  | receive c =>
      obtain ⟨hnext, -⟩ := Prod.mk.inj (Except.ok.inj h)
      obtain rfl := Turn.next.inj hnext
      obtain ⟨devices, -, heq⟩ := received_frame s c
      have hmmu : (s.received c).bus.mmu = s.bus.mmu := by rw [heq]
      exact ⟨Or.inl hmmu, fun _ => hmmu⟩

/-- **A run of the emulator is a run of memory operations**, at most one a round, none of which
sets permissions. -/
theorem run_trace
    (h : events.foldlM (stepNoting shift host) (.next s, calls) = .ok (.next s', calls')) :
    ∃ ops : List MMU.Op, ops.length ≤ events.countP Event.isRound
      ∧ (∀ op ∈ ops, op.ofGuest = true)
      ∧ ops.foldlM MMU.applyOp s.bus.mmu = .ok s'.bus.mmu := by
  induction events generalizing s calls with
  | nil =>
      obtain ⟨hnext, -⟩ := Prod.mk.inj (Except.ok.inj h)
      obtain rfl := Turn.next.inj hnext
      exact ⟨[], le_rfl, nofun, rfl⟩
  | cons i events ih =>
      obtain ⟨s₁, calls₁, hstep, h⟩ := run_cons_next h
      obtain ⟨ops, hlen, hguest, hops⟩ := ih h
      obtain ⟨hmoved, hsame⟩ := stepNoting_moves hstep
      rw [List.countP_cons]
      cases hround : i.isRound with
      | false => exact ⟨ops, by simpa using hlen, hguest, hsame hround ▸ hops⟩
      | true =>
          rcases hmoved with hmmu | ⟨op, hop, happly⟩
          · exact ⟨ops, by simpa using Nat.le_succ_of_le hlen, hguest, hmmu ▸ hops⟩
          · refine ⟨op :: ops, by simpa using hlen, List.forall_mem_cons.mpr ⟨hop, hguest⟩, ?_⟩
            rw [List.foldlM_cons, happly, ok_bind]
            exact hops

/-- **What the operations of a guest keep**, every run keeps. -/
theorem moved_of_run {R : MMU → MMU → Prop} (hrefl : ∀ m, R m m)
    (htrans : ∀ {m m' m''}, R m m' → R m' m'' → R m m'')
    (hop : ∀ {m m' op}, m.Backed → MMU.Op.ofGuest op = true → m.applyOp op = .ok m' → R m m')
    (hs : s.bus.mmu.Backed)
    (h : events.foldlM (stepNoting shift host) (.next s, calls) = .ok (.next s', calls')) :
    R s.bus.mmu s'.bus.mmu := by
  obtain ⟨ops, -, hguest, hops⟩ := run_trace h
  generalize s.bus.mmu = m at hs hops
  induction ops generalizing m with
  | nil =>
      obtain rfl := Except.ok.inj hops
      exact hrefl _
  | cons op ops ih =>
      rw [List.foldlM_cons] at hops
      obtain ⟨m₁, happly, hops⟩ := bind_eq_ok_iff.mp hops
      obtain ⟨hop₁, hguest⟩ := List.forall_mem_cons.mp hguest
      have hm₁ : m₁.Backed := (MMU.applyOp_sameShape happly).backed hs
      exact htrans (hop hs hop₁ happly) (ih hguest m₁ hm₁ hops)

/-! ## A program that stores -/

/-- `sd x2, -8(x2)`, and then `jal x0, 0` for ever. -/
def storing : FileInfo where
  fileName := []
  segments := [⟨permExec ||| permRead, 0x1000, 8, 8, MMU.split 8 0x0000006FFE213C23, rfl⟩]
  entryPoint := 0x1000

/-- The byte of the stack below its pointer. -/
def belowStack (s : VEmu) : U8 := s.bus.mmu.ram.data (s.loadReg 2 - 8).toNat

/-- The stack pointer is stored on the stack, and a character arrives. -/
lemma run_storing : ∃ s s' calls, ofInfo (.bare .emu) .zero (.after .init []) 0 storing [] 0x200000
      = .ok s
    ∧ [Event.round, .receive 0x61, .round].foldlM (stepNoting (fun _ => false) (.bare .emu))
      (.next s, []) = .ok (.next s', calls)
    ∧ s'.belowStack ≠ s.belowStack ∧ s'.pc = 0x1004 := by
  have hview : (ofInfo (.bare .emu) .zero (.after .init []) 0 storing [] 0x200000 >>= fun s =>
      [Event.round, .receive 0x61, .round].foldlM (stepNoting (fun _ => false) (.bare .emu))
        (.next s, []) >>= fun r => orFault .exitFailure r.1.state >>= fun s' =>
      .ok (decide (s'.belowStack ≠ s.belowStack), s'.pc)) = .ok (true, 0x1004) := by
    decide +kernel
  obtain ⟨s, hs, hview⟩ := bind_eq_ok_iff.mp hview
  obtain ⟨⟨turn, calls⟩, hrun, hview⟩ := bind_eq_ok_iff.mp hview
  obtain ⟨s', hturn, hview⟩ := bind_eq_ok_iff.mp hview
  obtain ⟨hstored, hpc⟩ := Prod.mk.inj (Except.ok.inj hview)
  cases turn with
  | returned code => cases hturn
  | next s₁ =>
      obtain rfl := Option.some.inj (orFault_eq_ok_iff.mp hturn)
      exact ⟨s, _, calls, hs, hrun, of_decide_eq_true hstored, hpc⟩

theorem run_trace_storing : ∃ s s' calls,
    [Event.round, .receive 0x61, .round].foldlM (stepNoting (fun _ => false) (.bare .emu))
      (.next s, []) = .ok (.next s', calls)
    ∧ s'.belowStack ≠ s.belowStack
    ∧ ∃ ops : List MMU.Op, ops.length ≤ 2 ∧ (∀ op ∈ ops, op.ofGuest = true)
      ∧ ops.foldlM MMU.applyOp s.bus.mmu = .ok s'.bus.mmu := by
  obtain ⟨s, s', calls, -, hrun, hstored, -⟩ := run_storing
  exact ⟨s, s', calls, hrun, hstored, run_trace hrun⟩

end VEmu

end Vemu
