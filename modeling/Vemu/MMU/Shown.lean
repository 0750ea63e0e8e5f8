import Mathlib.Tactic.FinCases
import Vemu.MMU.Uninitialised

/-!
# Memories that look alike

A byte is *shown* if a load of it goes through: it can be read and has been written.  Two memories
look alike if they are the same but for what the bytes hold that are not shown.

A write stores the same bytes in both, and shows no other.  So every operation keeps the memories
alike and fails alike; a load reports the same on both, and returns the same where it reports
nothing.  Over any run the two cannot be told apart (**`MMU.observeAll_alike`**): what the storage
held before does not matter.
-/

namespace Vemu

open Fallible Loop

/-- The permissions of a byte that is shown. -/
def Shows (p : U8) : Prop := p &&& permRead ≠ 0 ∧ p &&& permRaw = 0

lemma not_shows_allocated : ¬ Shows (permRaw ||| permWrite) := by
  unfold Shows
  decide

namespace MMU

variable {m m' m₁ : MMU} {d : ℕ → U8} {S S' : ℕ → Prop} {addr : U64}

def Shown (m : MMU) (i : ℕ) : Prop := Shows (m.bytePermission.data i)

/-- The memory with other bytes. -/
def withRam (m : MMU) (d : ℕ → U8) : MMU := { m with ram := { m.ram with data := d } }

/-- The second memory is the first, with bytes that are the same on the set. -/
def AgreeOn (S : ℕ → Prop) (m m' : MMU) : Prop :=
  ∃ d, (∀ i, S i → d i = m.ram.data i) ∧ m' = m.withRam d

def LooksAlike (m m' : MMU) : Prop := AgreeOn m.Shown m m'

lemma AgreeOn.mono (h : AgreeOn S m m') (hS : ∀ i, S' i → S i) : AgreeOn S' m m' := by
  obtain ⟨d, hd, rfl⟩ := h
  exact ⟨d, fun i hi => hd i (hS i hi), rfl⟩

/-! ## Permissions -/

lemma setPerms_agree (h : AgreeOn S m m') (addr size : U64) (perm : U8) :
    Related (AgreeOn S) (m.setPerms addr size perm) (m'.setPerms addr size perm) := by
  obtain ⟨d, hd, rfl⟩ := h
  exact .bind_same fun _ _ => .bind_same fun p _ => .ok ⟨d, hd, rfl⟩

/-- Permissions that do not show a byte show no more than before. -/
lemma Shown.of_setPerms {size : U64} {perm : U8} {i : ℕ} (hperm : ¬ Shows perm)
    (h : m.setPerms addr size perm = .ok m₁) (hi : m₁.Shown i) : m.Shown i := by
  obtain ⟨_, -, h⟩ := bind_eq_ok_iff.mp h
  obtain ⟨p, hp, h⟩ := bind_eq_ok_iff.mp h
  obtain rfl := Except.ok.inj h
  unfold ByteVec.fill at hp
  split_ifs at hp
  obtain rfl := Except.ok.inj hp
  change Shows (mapOn (fun _ => perm) m.bytePermission.data addr.toNat size.toNat i) at hi
  by_cases hin : addr.toNat ≤ i ∧ i < addr.toNat + size.toNat
  · rw [mapOn_of_mem hin] at hi
    exact absurd hi hperm
  · rwa [mapOn_of_not_mem hin] at hi

lemma allocate_alike (h : LooksAlike m m') (size : U64) :
    Related (fun r r' => r'.1 = r.1 ∧ LooksAlike r.2 r'.2) (m.allocate size)
      (m'.allocate size) := by
  obtain ⟨d, hd, rfl⟩ := h
  refine .bind_same fun _ _ => ?_
  have hagree : AgreeOn m.Shown { m with allocPtr := m.allocPtr + size }
      { m.withRam d with allocPtr := m.allocPtr + size } := ⟨d, hd, rfl⟩
  have hperms : Related LooksAlike
      (setPerms { m with allocPtr := m.allocPtr + size } m.allocPtr size (permRaw ||| permWrite))
      (setPerms { m.withRam d with allocPtr := m.allocPtr + size } m.allocPtr size
        (permRaw ||| permWrite)) := by
    refine (setPerms_agree hagree m.allocPtr size _).of_ok fun m₁ m₂ h₁ _ h₂ => ?_
    refine h₂.mono fun i hi => ?_
    have hshown := Shown.of_setPerms not_shows_allocated h₁ hi
    exact hshown
  exact hperms.bind fun _ _ h => .ok ⟨rfl, h⟩

/-! ## Writing -/

/-- Both hold the byte that is written. -/
lemma writeByte_agree (h : AgreeOn S m m') (i : U64) (b : U8) :
    Related (AgreeOn fun j => S j ∨ j = i.toNat) (m.writeByte i b) (m'.writeByte i b) := by
  obtain ⟨d, hd, rfl⟩ := h
  have hupdate : ∀ j, (S j ∨ j = i.toNat) →
      Function.update d i.toNat b j = Function.update m.ram.data i.toNat b j := by
    intro j hj
    by_cases hji : j = i.toNat
    · rw [hji, Function.update_self, Function.update_self]
    · rw [Function.update_of_ne hji, Function.update_of_ne hji]
      exact hd j (hj.resolve_right hji)
  by_cases hi : i.toNat < m.ram.capacity
  · have hset' : (m.withRam d).ram.set i b
        = .ok { m.ram with data := Function.update d i.toNat b } := if_pos hi
    rw [writeByte, writeByte, ByteVec.set_of_lt hi, hset', ok_bind, ok_bind]
    refine .bind_same fun p _ => ?_
    split_ifs
    · exact .bind_same fun perm _ => .ok ⟨_, hupdate, rfl⟩
    · exact .ok ⟨_, hupdate, rfl⟩
  · have hset : m.ram.set i b = .error .outOfBounds := if_neg hi
    have hset' : (m.withRam d).ram.set i b = .error .outOfBounds := if_neg hi
    rw [writeByte, writeByte, hset, hset']
    exact .error _

/-- No byte is shown that was neither shown nor written. -/
lemma Shown.of_writeByte {i : U64} {b : U8} {j : ℕ} (h : m.writeByte i b = .ok m₁)
    (hj : m₁.Shown j) :
    m.Shown j ∨ j = i.toNat := by
  by_cases hji : j = i.toNat
  · exact Or.inr hji
  · refine Or.inl ?_
    rw [writeByte, bind_eq_ok_iff] at h
    obtain ⟨ram, -, h⟩ := h
    rw [bind_eq_ok_iff] at h
    obtain ⟨p, -, h⟩ := h
    split_ifs at h
    · obtain ⟨perm, hperm, h⟩ := bind_eq_ok_iff.mp h
      obtain rfl := Except.ok.inj h
      unfold ByteVec.set at hperm
      split_ifs at hperm
      obtain rfl := Except.ok.inj hperm
      rw [Shown] at hj
      dsimp only at hj
      rwa [Function.update_of_ne hji] at hj
    · obtain rfl := Except.ok.inj h
      exact hj

lemma writeByte_alike (h : LooksAlike m m') (i : U64) (b : U8) :
    Related LooksAlike (m.writeByte i b) (m'.writeByte i b) :=
  (writeByte_agree h i b).of_ok fun _ _ h₁ _ hagree =>
    hagree.mono fun _ hj => Shown.of_writeByte h₁ hj

/-- What the write of a byte keeps, the write of a buffer keeps. -/
lemma writeFrom_related {R : MMU → MMU → Prop}
    (hbyte : ∀ m₁ m₂, R m₁ m₂ → ∀ i b, Related R (m₁.writeByte i b) (m₂.writeByte i b))
    (h : R m (m.withRam d)) (buf : List U8) (addr : U64) :
    Related R (m.writeFrom buf addr) ((m.withRam d).writeFrom buf addr) := by
  refine .bind_same fun _ _ => .bind_same fun _ _ => .bind_same fun _ _ =>
    Related.foldlM (fun i m₁ m₂ h₁ => ?_) _ h
  exact .bind_same fun b _ => hbyte m₁ m₂ h₁ i b

lemma writeFrom_agree (h : AgreeOn S m m') (buf : List U8) (addr : U64) :
    Related (AgreeOn S) (m.writeFrom buf addr) (m'.writeFrom buf addr) := by
  obtain ⟨d, hd, rfl⟩ := h
  refine writeFrom_related (fun _ _ h₁ i b => ?_) ⟨d, hd, rfl⟩ buf addr
  exact (writeByte_agree h₁ i b).mono fun _ _ h₂ => h₂.mono fun _ => Or.inl

lemma writeFrom_alike (h : LooksAlike m m') (buf : List U8) (addr : U64) :
    Related LooksAlike (m.writeFrom buf addr) (m'.writeFrom buf addr) := by
  obtain ⟨d, hd, rfl⟩ := h
  exact writeFrom_related (fun _ _ h₁ i b => writeByte_alike h₁ i b) ⟨d, hd, rfl⟩ buf addr

lemma LooksAlike.mark (h : LooksAlike m m') (addr : U64) :
    LooksAlike (m.mark addr) (m'.mark addr) := by
  obtain ⟨d, hd, rfl⟩ := h
  exact ⟨d, hd, rfl⟩

lemma store_alike (h : LooksAlike m m') (addr data : U64) (sz : ℕ) :
    Related (fun r r' => r'.1 = r.1 ∧ LooksAlike r.2 r'.2) (m.store addr data sz)
      (m'.store addr data sz) := by
  cases hsz : sizeBytes sz with
  | none =>
      rw [store_of_size hsz, store_of_size hsz]
      exact .error _
  | some n =>
      rw [store_eq hsz, store_eq hsz]
      exact (writeFrom_alike h _ addr).bind fun _ _ h₁ => .ok ⟨rfl, h₁.mark addr⟩

/-! ## Reading -/

/-- What is read depends on the bytes that are read. -/
lemma readTo_same {len : U64}
    (hd : ∀ i ∈ forRange addr (addr + len), d i.toNat = m.ram.data i.toNat) :
    (m.withRam d).readTo addr len = m.readTo addr len := by
  have hloop : ∀ bytes : List U8, (forRange addr (addr + len)).foldlM (fun bytes i => do
        let b ← (m.withRam d).ram.get i
        return bytes.set (i - addr).toNat b) bytes
      = (forRange addr (addr + len)).foldlM (fun bytes i => do
        let b ← m.ram.get i
        return bytes.set (i - addr).toNat b) bytes := by
    refine foldlM_congr fun i hi bytes => ?_
    have hget : (m.withRam d).ram.get i = m.ram.get i := by
      change (if i.toNat < m.ram.capacity then Except.ok (d i.toNat) else _) = _
      rw [hd i hi]
      rfl
    rw [hget]
  unfold readTo
  dsimp only
  rw [hloop]
  rfl

/-- If nothing is reported, every byte of the range can be read. -/
lemma shown_of_readPerms {range : List U64} {acc r : Bool × Bool}
    (h : range.foldlM (fun acc i => do
        let p ← m.bytePermission.get i
        return (acc.1 && p &&& permRead != 0, acc.2 || p &&& permRaw != 0)) acc
      = (.ok r : Except Fault (Bool × Bool)))
    (hr : readException r = .NormalExecutionReturn) :
    readException acc = .NormalExecutionReturn ∧ ∀ i ∈ range, m.Shown i.toNat := by
  induction range generalizing acc with
  | nil =>
      obtain rfl := Except.ok.inj h
      exact ⟨hr, nofun⟩
  | cons i range ih =>
      rw [List.foldlM_cons, bind_eq_ok_iff] at h
      obtain ⟨acc', hround, h⟩ := h
      obtain ⟨p, hp, hround⟩ := bind_eq_ok_iff.mp hround
      obtain rfl := Except.ok.inj hround
      obtain ⟨hacc, hrange⟩ := ih h
      unfold ByteVec.get at hp
      split_ifs at hp
      obtain rfl := Except.ok.inj hp
      rw [readException_normal_iff] at hacc ⊢
      simp only [Bool.and_eq_true, Bool.or_eq_false_iff, bne_iff_ne, bne_eq_false_iff_eq] at hacc
      obtain ⟨⟨hacc₁, hread⟩, hacc₂, hraw⟩ := hacc
      exact ⟨⟨hacc₁, hacc₂⟩, List.forall_mem_cons.mpr ⟨⟨hread, hraw⟩, hrange⟩⟩

/-- Reading reports the same, and reads the same if it reports nothing. -/
lemma readTo_alike (h : LooksAlike m m') (addr len : U64) :
    Related (fun r r' => r'.2 = r.2 ∧ (r.2 = .NormalExecutionReturn → r'.1 = r.1))
      (m.readTo addr len) (m'.readTo addr len) := by
  obtain ⟨d, hd, rfl⟩ := h
  by_cases hshown : ∀ i ∈ forRange addr (addr + len), m.Shown i.toNat
  · rw [readTo_same fun i hi => hd _ (hshown i hi)]
    exact .refl (fun _ => ⟨rfl, fun _ => rfl⟩) _
  · refine .bind_same fun _ _ => .bind_same fun _ _ => .bind_same fun perms hperms => ?_
    have hexp : readException perms ≠ .NormalExecutionReturn := fun hnormal =>
      hshown (shown_of_readPerms hperms hnormal).2
    have hround : ∀ i : U64, ∀ bytes bytes' : List U8, True →
        Related (fun _ _ => True) (m.ram.get i >>= fun b => .ok (bytes.set (i - addr).toNat b))
          ((m.withRam d).ram.get i >>= fun b => .ok (bytes'.set (i - addr).toNat b)) := by
      intro i bytes bytes' _
      have hcap : (m.withRam d).ram.capacity = m.ram.capacity := rfl
      exact (ByteVec.get_related hcap i).bind fun _ _ _ => .ok trivial
    exact (Related.foldlM hround _ trivial).bind fun _ _ _ => .ok ⟨rfl, fun h => absurd h hexp⟩

lemma load_alike (h : LooksAlike m m') (addr : U64) (sz : ℕ) :
    Related (fun r r' => r'.2 = r.2 ∧ (r.2 = .NormalExecutionReturn → r'.1 = r.1))
      (m.load addr sz) (m'.load addr sz) := by
  cases hsz : sizeBytes sz with
  | none =>
      rw [load_of_size hsz, load_of_size hsz]
      exact .error _
  | some n =>
      rw [load_eq hsz, load_eq hsz]
      exact (readTo_alike h addr _).bind fun _ _ h₁ =>
        .ok ⟨h₁.1, fun hnormal => congrArg assemble (h₁.2 hnormal)⟩

/-! ## Loading an image -/

/-- A segment is written before it is shown. -/
lemma loadSegment_alike (hm : m.Backed) (h : LooksAlike m m') (seg : MemorySegment) :
    Related LooksAlike (m.loadSegment seg) (m'.loadSegment seg) := by
  have hagree : Related (AgreeOn m.Shown) (m.loadSegment seg) (m'.loadSegment seg) := by
    refine (setPerms_agree h _ _ _).bind fun _ _ h₁ => ?_
    refine (writeFrom_agree h₁ _ _).bind fun _ _ h₂ => ?_
    refine (setPerms_agree h₂ _ _ _).bind fun _ _ h₃ => ?_
    obtain ⟨d, hd, rfl⟩ := h₃
    exact .ok ⟨d, hd, rfl⟩
  obtain ⟨d, hd, rfl⟩ := h
  refine hagree.of_ok fun m₁ m₂ h₁ h₂ _ => ?_
  have hm' : (m.withRam d).Backed := ⟨hm.ram, hm.perm, hm.size⟩
  obtain ⟨-, rfl⟩ := loadSegment_cases hm h₁
  obtain ⟨-, rfl⟩ := loadSegment_cases hm' h₂
  refine ⟨overlay d seg.startAddr.toNat (segmentBytes seg), fun i hi => ?_, rfl⟩
  change overlay d _ _ i = overlay m.ram.data _ _ i
  by_cases hin : seg.startAddr.toNat ≤ i ∧ i < seg.startAddr.toNat + (segmentBytes seg).length
  · rw [overlay_of_mem hin.1 (by omega), overlay_of_mem hin.1 (by omega)]
  · rw [overlay_of_not_mem hin, overlay_of_not_mem hin]
    rw [length_segmentBytes] at hin
    refine hd i ?_
    change Shows (mapOn _ m.bytePermission.data _ _ i) at hi
    rwa [mapOn_of_not_mem hin] at hi

lemma loadFile_alike (hm : m.Backed) (h : LooksAlike m m') (info : FileInfo) :
    Related LooksAlike (m.loadFile info) (m'.loadFile info) := by
  have hloop : Related (fun m m' => LooksAlike m m' ∧ m.Backed) (m.loadFile info)
      (m'.loadFile info) := by
    refine Related.foldlM (fun seg m₁ m₂ h₁ => ?_) _ ⟨h, hm⟩
    refine (loadSegment_alike h₁.2 h₁.1 seg).of_ok fun _ _ hseg _ h₂ => ?_
    exact ⟨h₂, (loadSegment_sameShape hseg).backed h₁.2⟩
  exact hloop.mono fun _ _ h₁ => h₁.1

/-! ## Runs -/

/-- What is seen of an event: the exception it reports, and the value if it reports none. -/
inductive Observation
  | silent
  | base (addr : U64)
  | stored (e : ReturnException)
  | loaded (e : ReturnException) (value : Option U64)
  | read (e : ReturnException) (bytes : Option (List U8))
  deriving DecidableEq, Repr

def valueSeen {α : Type} (r : α × ReturnException) : Option α :=
  if r.2 = .NormalExecutionReturn then some r.1 else none

def observe (m : MMU) : Event → Except Fault (Observation × MMU)
  | .op (.store addr data sz) => do
      let r ← m.store addr data sz
      return (.stored r.1, r.2)
  | .op (.writeFrom buf _ addr) => do
      let m ← m.writeFrom buf addr
      return (.silent, m)
  | .op (.setPerms addr size perm) => do
      let m ← m.setPerms addr size perm
      return (.silent, m)
  | .op (.allocate size) => do
      let r ← m.allocate size
      return (.base r.1, r.2)
  | .loadFile info => do
      let m ← m.loadFile info
      return (.silent, m)
  | .load addr sz => do
      let r ← m.load addr sz
      return (.loaded r.2 (valueSeen r), m)
  | .readTo addr len => do
      let r ← m.readTo addr len
      return (.read r.2 (valueSeen r), m)

/-- What is seen of a run, up to its fault. -/
def observeAll : MMU → List Event → Except Fault (List Observation)
  | _, [] => .ok []
  | m, ev :: events => do
      let (seen, m) ← m.observe ev
      let rest ← observeAll m events
      return seen :: rest

lemma applyEvent_eq_observe (m : MMU) (ev : Event) :
    m.applyEvent ev = (m.observe ev).map Prod.snd := by
  cases ev with
  | op op =>
      cases op with
      | store addr data sz => exact bind_eq_map fun _ => rfl
      | writeFrom buf hbuf addr =>
          change m.writeFrom buf addr = (m.writeFrom buf addr >>= _ : Except Fault _).map _
          cases m.writeFrom buf addr <;> rfl
      | setPerms addr size perm =>
          change m.setPerms addr size perm
            = (m.setPerms addr size perm >>= _ : Except Fault _).map _
          cases m.setPerms addr size perm <;> rfl
      | allocate size => exact bind_eq_map fun _ => rfl
  | loadFile info =>
      change m.loadFile info = (m.loadFile info >>= _ : Except Fault _).map _
      cases m.loadFile info <;> rfl
  | load addr sz => exact bind_eq_map fun _ => rfl
  | readTo addr len => exact bind_eq_map fun _ => rfl

lemma applyEvent_sameShape {ev : Event} (h : m.applyEvent ev = .ok m₁) : SameShape m m₁ := by
  cases ev with
  | op op => exact applyOp_sameShape h
  | loadFile info => exact loadFile_sameShape h
  | load addr sz =>
      obtain ⟨r, -, h⟩ := bind_eq_ok_iff.mp h
      exact Except.ok.inj h ▸ .refl m
  | readTo addr len =>
      obtain ⟨r, -, h⟩ := bind_eq_ok_iff.mp h
      exact Except.ok.inj h ▸ .refl m

/-- The event shows no byte that was not written.  Permissions that show a byte do. -/
def Event.Hides : Event → Prop
  | .op (.setPerms _ _ perm) => ¬ Shows perm
  | _ => True

lemma valueSeen_same {α : Type} {r r' : α × ReturnException} (he : r'.2 = r.2)
    (hv : r.2 = .NormalExecutionReturn → r'.1 = r.1) : valueSeen r' = valueSeen r := by
  unfold valueSeen
  rw [he]
  split_ifs with hnormal
  · rw [hv hnormal]
  · rfl

/-- **An event looks alike** on memories that do, and leaves memories that do. -/
lemma observe_alike (hm : m.Backed) (h : LooksAlike m m') {ev : Event} (hev : ev.Hides) :
    Related (fun r r' => r'.1 = r.1 ∧ LooksAlike r.2 r'.2) (m.observe ev) (m'.observe ev) := by
  cases ev with
  | op op =>
      cases op with
      | store addr data sz =>
          exact (store_alike h addr data sz).bind fun _ _ h₁ =>
            .ok ⟨congrArg Observation.stored h₁.1, h₁.2⟩
      | writeFrom buf hbuf addr =>
          exact (writeFrom_alike h buf addr).bind fun _ _ h₁ => .ok ⟨rfl, h₁⟩
      | setPerms addr size perm =>
          have hperms : Related LooksAlike (m.setPerms addr size perm)
              (m'.setPerms addr size perm) :=
            (setPerms_agree h addr size perm).of_ok fun m₁ m₂ h₁ _ h₂ =>
              h₂.mono fun i hi => Shown.of_setPerms hev h₁ hi
          exact hperms.bind fun _ _ h₁ => .ok ⟨rfl, h₁⟩
      | allocate size =>
          exact (allocate_alike h size).bind fun _ _ h₁ =>
            .ok ⟨congrArg Observation.base h₁.1, h₁.2⟩
  | loadFile info => exact (loadFile_alike hm h info).bind fun _ _ h₁ => .ok ⟨rfl, h₁⟩
  | load addr sz =>
      refine (load_alike h addr sz).bind fun r r' h₁ => .ok ⟨?_, h⟩
      rw [h₁.1, valueSeen_same h₁.1 h₁.2]
  | readTo addr len =>
      refine (readTo_alike h addr len).bind fun r r' h₁ => .ok ⟨?_, h⟩
      rw [h₁.1, valueSeen_same h₁.1 h₁.2]

lemma observeAll_related (hm : m.Backed) (h : LooksAlike m m') {events : List Event}
    (hev : ∀ ev ∈ events, ev.Hides) :
    Related (fun seen seen' => seen' = seen) (m.observeAll events) (m'.observeAll events) := by
  induction events generalizing m m' with
  | nil => exact .ok rfl
  | cons ev events ih =>
      obtain ⟨hfirst, hrest⟩ := List.forall_mem_cons.mp hev
      have hround : Related (fun r r' => (r'.1 = r.1 ∧ LooksAlike r.2 r'.2) ∧ r.2.Backed)
          (m.observe ev) (m'.observe ev) := by
        refine (observe_alike hm h hfirst).of_ok fun r r' hr _ h₁ => ⟨h₁, ?_⟩
        have hstep : m.applyEvent ev = .ok r.2 := by
          rw [applyEvent_eq_observe, hr]
          rfl
        exact (applyEvent_sameShape hstep).backed hm
      refine hround.bind fun r r' hr => ?_
      obtain ⟨⟨hseen, halike⟩, hbacked⟩ := hr
      refine (ih hbacked halike hrest).bind fun rest rest' heq => .ok ?_
      rw [hseen, heq]

/-- **What is not initialised is not seen.**  Events that show no byte before it is written report
the same on memories that look alike, return the same values and fail alike. -/
theorem observeAll_alike (hm : m.Backed) (h : LooksAlike m m') {events : List Event}
    (hev : ∀ ev ∈ events, ev.Hides) : m'.observeAll events = m.observeAll events :=
  (observeAll_related hm h hev).eq

/-- The same events on memory that was zero and on memory that was not: two of the four bytes of
the word have been written. -/
theorem observeAll_alike_hword :
    ((uniform 0x20000 0).withRam fun _ => 0xFF).observeAll
        [.op (.allocate 16), .op (.store 0x10000 7 16), .load 0x10000 32, .load 0x10000 16]
      = (uniform 0x20000 0).observeAll
        [.op (.allocate 16), .op (.store 0x10000 7 16), .load 0x10000 32, .load 0x10000 16]
      ∧ (uniform 0x20000 0).observeAll
        [.op (.allocate 16), .op (.store 0x10000 7 16), .load 0x10000 32, .load 0x10000 16]
      = .ok [.base 0x10000, .stored .NormalExecutionReturn, .loaded .UninitializedMemoryAccess none,
          .loaded .NormalExecutionReturn (some 7)] := by
  have hhidden : ∀ i, ¬ (uniform 0x20000 0).Shown i := by
    intro i
    change ¬ Shows 0
    unfold Shows
    decide
  have hevents : ∀ ev ∈ [Event.op (.allocate 16), .op (.store 0x10000 7 16), .load 0x10000 32,
      .load 0x10000 16], ev.Hides := by
    intro ev hev
    fin_cases hev <;> trivial
  have halike : LooksAlike (uniform 0x20000 0) ((uniform 0x20000 0).withRam fun _ => 0xFF) :=
    ⟨_, fun i hi => absurd hi (hhidden i), rfl⟩
  refine ⟨observeAll_alike (backed_uniform (by decide) _) halike hevents, ?_⟩
  decide +kernel

end MMU

end Vemu
