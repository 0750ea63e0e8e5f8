import Vemu.MMU.Image

/-!
# Uninitialised bytes

A shadow of memory records for every byte whether it came from `allocate`, and whether it has
been written since; setting permissions and loading an image take a byte out of the record.  The
two permission bits `PERM_RAW` and `PERM_READ` describe the shadow (`Tracked`), every operation
keeps that (`Tracked.step`), and so a read of allocated memory reports an uninitialised byte
exactly if there is one that has not been written: **`uninitialised_exact`**.

A write whose range wraps is admitted and writes nothing.  Its range, which starts beyond the end
of RAM, has no byte of the record in it.
-/

namespace Vemu

open Fallible Loop

/-! ## The shadow -/

/-- What is recorded of a byte: nothing, that it was allocated and not written since, or that it
was allocated and written. -/
inductive Cell
  | foreign | fresh | written
  deriving DecidableEq, Repr

def Cell.write : Cell → Cell
  | .fresh => .written
  | c => c

/-- What the permissions of a byte say of it. -/
def Cell.Describes : Cell → U8 → Prop
  | .foreign, _ => True
  | .fresh, p => p &&& permRaw ≠ 0
  | .written, p => p &&& permRead ≠ 0 ∧ p &&& permRaw = 0

abbrev Shadow := ℕ → Cell

namespace MMU

variable {m m' : MMU} {sh sh' : Shadow}

/-- An event in the life of a memory. -/
inductive Event
  | op (op : Op)
  | loadFile (info : FileInfo)
  | load (addr : U64) (sz : ℕ)
  | readTo (addr len : U64)

def applyEvent (m : MMU) : Event → Except Fault MMU
  | .op op => m.applyOp op
  | .loadFile info => m.loadFile info
  | .load addr sz => do
      let _ ← m.load addr sz
      return m
  | .readTo addr len => do
      let _ ← m.readTo addr len
      return m

/-- The shadow after an event that succeeds. -/
def shadowAfter (m : MMU) (sh : Shadow) : Event → Shadow
  | .op (.allocate size) => mapOn (fun _ => .fresh) sh m.allocPtr.toNat size.toNat
  | .op (.store addr _ sz) => mapOn Cell.write sh addr.toNat (sz / 8)
  | .op (.writeFrom buf _ addr) => mapOn Cell.write sh addr.toNat buf.length
  | .op (.setPerms addr size _) => mapOn (fun _ => .foreign) sh addr.toNat size.toNat
  | .loadFile info => info.segments.foldl (fun sh seg =>
      mapOn (fun _ => .foreign) sh seg.startAddr.toNat seg.memSize.toNat) sh
  | .load _ _ => sh
  | .readTo _ _ => sh

/-- An event, with its record. -/
def track (p : MMU × Shadow) (ev : Event) : Except Fault (MMU × Shadow) := do
  let m ← p.1.applyEvent ev
  return (m, p.1.shadowAfter p.2 ev)

/-! ## The invariant -/

/-- The permissions describe the shadow, and what is recorded is inside RAM. -/
structure Tracked (m : MMU) (sh : Shadow) : Prop where
  made : m.Made
  storage : (∀ k, sh k = .foreign) ∨ m.Backed
  inside : ∀ k, sh k ≠ .foreign → k + 1 < m.ramSize.toNat
  perm : ∀ k, (sh k).Describes (m.bytePermission.data k)

lemma Tracked.of_foreign (hmade : m.Made) (h : ∀ k, sh k = .foreign) : Tracked m sh where
  made := hmade
  storage := Or.inl h
  inside := fun k hk => absurd (h k) hk
  perm := fun k => by
    rw [h k]
    trivial

lemma made_event (hmade : m.Made) {ev : Event} (h : m.applyEvent ev = .ok m') : m'.Made := by
  cases ev with
  | op op => exact .op hmade h
  | loadFile info => exact .loadFile hmade h
  | load addr sz =>
      obtain ⟨r, -, h⟩ := bind_eq_ok_iff.mp h
      exact Except.ok.inj h ▸ hmade
  | readTo addr len =>
      obtain ⟨r, -, h⟩ := bind_eq_ok_iff.mp h
      exact Except.ok.inj h ▸ hmade

/-- A memory in which something was allocated has storage. -/
lemma backed_of_allocate (hmade : m.Made) {size base : U64} (hsize : size ≠ 0)
    (h : m.allocate size = .ok (base, m')) : m.Backed := by
  rcases hmade.reserved.storage with hbacked | ⟨-, hbare⟩
  · exact hbacked
  · rw [allocate, bind_eq_ok_iff] at h
    obtain ⟨_, -, h⟩ := h
    dsimp only at h
    rw [bind_eq_ok_iff] at h
    obtain ⟨m₁, h₁, -⟩ := h
    rw [setPerms, bind_eq_ok_iff] at h₁
    obtain ⟨_, -, h₁⟩ := h₁
    rw [bind_eq_ok_iff] at h₁
    obtain ⟨p, hp, -⟩ := h₁
    have hpos : size.toNat ≠ 0 := fun h0 => hsize (BitVec.eq_of_toNat_eq h0)
    rw [ByteVec.fill, hbare, if_neg (by rintro (h0 | hle); exacts [hsize h0, by omega])] at hp
    cases hp

/-- Writing to bytes that are not recorded records nothing. -/
lemma foreign_mapOn {g : Cell → Cell} (hg : g .foreign = .foreign) (hsh : ∀ k, sh k = .foreign)
    (lo n k : ℕ) : mapOn g sh lo n k = .foreign := by
  refine @mapOn_forall _ (fun c => c = .foreign) g sh lo n hsh ?_ k
  rintro _ rfl
  exact hg

lemma foreign_segments (segs : List MemorySegment) (hsh : ∀ k, sh k = .foreign) :
    ∀ k, segs.foldl (fun sh seg =>
      mapOn (fun _ => Cell.foreign) sh seg.startAddr.toNat seg.memSize.toNat) sh k = .foreign := by
  induction segs generalizing sh with
  | nil => exact hsh
  | cons seg segs ih => exact ih (@foreign_mapOn sh (fun _ => .foreign) rfl hsh _ _)

/-- Without storage nothing is recorded. -/
lemma foreign_after (hmade : m.Made) (hm : ¬ m.Backed) (hsh : ∀ k, sh k = .foreign) {ev : Event}
    (h : m.applyEvent ev = .ok m') : ∀ k, m.shadowAfter sh ev k = .foreign := by
  cases ev with
  | op op =>
      cases op with
      | store addr data sz => exact foreign_mapOn rfl hsh _ _
      | writeFrom buf hbuf addr => exact foreign_mapOn rfl hsh _ _
      | setPerms addr size perm =>
          exact @foreign_mapOn sh (fun _ => .foreign) rfl hsh addr.toNat size.toNat
      | allocate size =>
          obtain ⟨⟨base, m₁⟩, h₁, -⟩ := bind_eq_ok_iff.mp h
          have hsize : size = 0 := by
            by_contra hne
            exact hm (backed_of_allocate hmade hne h₁)
          have hnone : size.toNat = 0 := by
            rw [hsize]
            rfl
          intro k
          rw [shadowAfter, hnone, mapOn_zero]
          exact hsh k
  | loadFile info => exact foreign_segments info.segments hsh
  | load addr sz => exact hsh
  | readTo addr len => exact hsh

/-! ## One event -/

lemma initialised_bits (p : U8) :
    (p &&& permRaw ≠ 0 ∨ p &&& permRead ≠ 0 → initialised p &&& permRead ≠ 0)
      ∧ initialised p &&& permRaw = 0 := by
  revert p
  decide

/-- A write makes a recorded byte readable. -/
lemma describes_write {c : Cell} {p : U8} (h : c.Describes p) :
    c.write.Describes (initialised p) := by
  obtain ⟨hread, hraw⟩ := initialised_bits p
  cases c with
  | foreign => trivial
  | fresh => exact ⟨hread (Or.inl h), hraw⟩
  | written => exact ⟨hread (Or.inr h.1), hraw⟩

lemma tracked_written (h : Tracked m sh) (hm : m.Backed) {addr : U64} {buf : List U8}
    (hmade : m'.Made) (hshape : SameShape m m')
    (hperm : m'.bytePermission.data
      = mapOn initialised m.bytePermission.data addr.toNat buf.length) :
    Tracked m' (mapOn Cell.write sh addr.toNat buf.length) where
  made := hmade
  storage := Or.inr (hshape.backed hm)
  inside := by
    intro k hk
    rw [hshape.ramSize]
    refine h.inside k fun hsh => hk ?_
    by_cases hin : addr.toNat ≤ k ∧ k < addr.toNat + buf.length
    · rw [mapOn_of_mem hin, hsh]
      rfl
    · rw [mapOn_of_not_mem hin, hsh]
  perm := by
    rw [hperm]
    exact mapOn_rel h.perm fun _ _ => describes_write

/-- Nothing is recorded in a range that wraps. -/
lemma tracked_wraps (h : Tracked m sh) (hm : m.Backed) {addr : U64} {n : ℕ}
    (hn : n ≤ maxVectorSize) (hw : m.Wraps addr n) : mapOn Cell.write sh addr.toNat n = sh := by
  have hmax := hm.size
  have hbeyond := hw.1
  unfold maxVectorSize at hmax hn
  funext k
  by_cases hin : addr.toNat ≤ k ∧ k < addr.toNat + n
  · have hsh : sh k = .foreign := by
      by_contra hne
      have hk := h.inside k hne
      omega
    rw [mapOn_of_mem hin, hsh]
    rfl
  · exact mapOn_of_not_mem hin

/-- Setting permissions takes the range out of the record. -/
lemma Tracked.permitted (h : Tracked m sh) (hm : m.Backed) {start size : ℕ} {perm : U8}
    (hmade : m'.Made) (hshape : SameShape m m')
    (hperm : m'.bytePermission.data = mapOn (fun _ => perm) m.bytePermission.data start size) :
    Tracked m' (mapOn (fun _ => .foreign) sh start size) where
  made := hmade
  storage := Or.inr (hshape.backed hm)
  inside := by
    intro k hk
    rw [hshape.ramSize]
    refine h.inside k fun hsh => hk ?_
    by_cases hin : start ≤ k ∧ k < start + size
    · exact mapOn_of_mem hin
    · rw [mapOn_of_not_mem hin, hsh]
  perm := by
    rw [hperm]
    exact mapOn_rel h.perm fun _ _ _ => trivial

/-- An allocation records its range, which ends inside RAM. -/
lemma Tracked.allocated (h : Tracked m sh) (hm : m.Backed) {start size : ℕ} (hmade : m'.Made)
    (hshape : SameShape m m') (hin : start + size < m.ramSize.toNat)
    (hperm : m'.bytePermission.data
      = mapOn (fun _ => permRaw ||| permWrite) m.bytePermission.data start size) :
    Tracked m' (mapOn (fun _ => .fresh) sh start size) where
  made := hmade
  storage := Or.inr (hshape.backed hm)
  inside := by
    intro k hk
    rw [hshape.ramSize]
    by_cases hmem : start ≤ k ∧ k < start + size
    · omega
    · rw [mapOn_of_not_mem hmem] at hk
      exact h.inside k hk
  perm := by
    rw [hperm]
    refine mapOn_rel h.perm fun _ _ _ => ?_
    show (permRaw ||| permWrite) &&& permRaw ≠ 0
    decide

lemma div_eight_of_sizeBytes {sz n : ℕ} (h : sizeBytes sz = some n) : sz / 8 = n := by
  unfold sizeBytes at h
  split at h <;> simp only [Option.some.injEq, reduceCtorEq] at h <;> subst h <;> rfl

lemma tracked_loadSegments : ∀ {segs : List MemorySegment} {m m' : MMU} {sh : Shadow},
    Tracked m sh → m.Backed → m'.Made → segs.foldlM loadSegment m = .ok m' →
      Tracked m' (segs.foldl (fun sh seg =>
        mapOn (fun _ => .foreign) sh seg.startAddr.toNat seg.memSize.toNat) sh)
  | [], m, m', sh, h, _, _, hrun => by
      obtain rfl := Except.ok.inj hrun
      exact h
  | seg :: segs, m, m', sh, h, hm, hmade', hrun => by
      rw [List.foldlM_cons, bind_eq_ok_iff] at hrun
      obtain ⟨m₁, h₁, hrun⟩ := hrun
      have hshape := loadSegment_sameShape h₁
      have hmade₁ : m₁.Made :=
        .loadFile h.made (show m.loadFile ⟨[], [seg], 0⟩ = .ok m₁ from by
          rw [loadFile, List.foldlM_cons, h₁]
          rfl)
      obtain ⟨-, rfl⟩ := loadSegment_cases hm h₁
      have h₂ := @Tracked.permitted m _ sh h hm seg.startAddr.toNat seg.memSize.toNat seg.perms
        hmade₁ hshape rfl
      rw [List.foldl_cons]
      exact tracked_loadSegments h₂ (hshape.backed hm) hmade' hrun

/-- **Every event keeps the permissions in step with the shadow.** -/
theorem Tracked.step (h : Tracked m sh) {ev : Event} (hev : m.applyEvent ev = .ok m') :
    Tracked m' (m.shadowAfter sh ev) := by
  have hmade := made_event h.made hev
  by_cases hm : m.Backed
  · cases ev with
    | op op =>
        have hshape := applyOp_sameShape hev
        have hcase := applyOp_cases hm hev
        cases op with
        | store addr data sz =>
            obtain ⟨n, hsz, hcase⟩ := hcase
            rw [shadowAfter, div_eight_of_sizeBytes hsz]
            rcases hcase with ⟨-, -, rfl⟩ | ⟨hw, rfl⟩
            · have htracked := @tracked_written m _ sh h hm addr (split n data) hmade hshape rfl
              rwa [length_split] at htracked
            · rw [tracked_wraps h hm (le_trans (sizeBytes_le hsz).2 (by decide)) hw]
              exact ⟨hmade, h.storage.imp id hshape.backed, h.inside, h.perm⟩
        | writeFrom buf hbuf addr =>
            rw [shadowAfter]
            rcases hcase with ⟨-, -, rfl⟩ | ⟨hw, rfl⟩
            · exact tracked_written h hm hmade hshape rfl
            · rw [tracked_wraps h hm hbuf hw]
              exact h
        | setPerms addr size perm =>
            obtain ⟨-, rfl⟩ := hcase
            exact h.permitted hm hmade hshape rfl
        | allocate size =>
            obtain ⟨hfit, rfl⟩ := hcase
            exact h.allocated hm hmade hshape hfit rfl
    | loadFile info => exact tracked_loadSegments h hm hmade hev
    | load addr sz =>
        obtain ⟨r, -, hev⟩ := bind_eq_ok_iff.mp hev
        exact Except.ok.inj hev ▸ h
    | readTo addr len =>
        obtain ⟨r, -, hev⟩ := bind_eq_ok_iff.mp hev
        exact Except.ok.inj hev ▸ h
  · have hsh := h.storage.resolve_right hm
    exact .of_foreign hmade (foreign_after h.made hm hsh hev)

lemma Tracked.run : ∀ {events : List Event} {m m' : MMU} {sh sh' : Shadow}, Tracked m sh →
    events.foldlM track (m, sh) = .ok (m', sh') → Tracked m' sh'
  | [], m, m', sh, sh', h, hrun => by
      obtain ⟨rfl, rfl⟩ := Prod.mk.inj (Except.ok.inj hrun)
      exact h
  | ev :: events, m, m', sh, sh', h, hrun => by
      rw [List.foldlM_cons, bind_eq_ok_iff] at hrun
      obtain ⟨⟨m₁, sh₁⟩, h₁, hrun⟩ := hrun
      obtain ⟨m₂, hev, h₁⟩ := bind_eq_ok_iff.mp h₁
      obtain ⟨rfl, rfl⟩ := Prod.mk.inj (Except.ok.inj h₁)
      exact (h.step hev).run hrun

/-! ## Reads -/

/-- **The specification** of what a read of recorded bytes reports. -/
structure ReportsExactly (sh : Shadow) (addr : U64) (n : ℕ) (e : ReturnException) : Prop where
  uninitialised : e = .UninitializedMemoryAccess ↔ ∃ k < n, sh (addr.toNat + k) = .fresh
  normal : e = .NormalExecutionReturn ↔ ∀ k < n, sh (addr.toNat + k) = .written

lemma Tracked.reports (h : Tracked m sh) {addr : U64} {n : ℕ}
    (hown : ∀ k < n, sh (addr.toNat + k) ≠ .foreign) :
    ReportsExactly sh addr n (m.readOutcome addr n) := by
  have hcell : ∀ k < n, (sh (addr.toNat + k) = .fresh
        ↔ m.bytePermission.data (addr.toNat + k) &&& permRaw ≠ 0)
      ∧ (sh (addr.toNat + k) = .written
        ↔ m.bytePermission.data (addr.toNat + k) &&& permRead ≠ 0
          ∧ m.bytePermission.data (addr.toNat + k) &&& permRaw = 0) := by
    intro k hk
    have hperm := h.perm (addr.toNat + k)
    cases hsh : sh (addr.toNat + k) with
    | foreign => exact absurd hsh (hown k hk)
    | fresh =>
        rw [hsh] at hperm
        exact ⟨iff_of_true rfl hperm, iff_of_false (by decide) fun hw => hperm hw.2⟩
    | written =>
        rw [hsh] at hperm
        exact ⟨iff_of_false (by decide) fun hraw => hraw hperm.2, iff_of_true rfl hperm⟩
  constructor
  · rw [readOutcome_uninitialised_iff]
    exact exists_congr fun k => and_congr_right fun hk => (hcell k hk).1.symm
  · rw [readOutcome_normal_iff]
    constructor
    · exact fun hp k hk => (hcell k hk).2.mpr ⟨hp.1 k hk, hp.2 k hk⟩
    · exact fun hp => ⟨fun k hk => ((hcell k hk).2.mp (hp k hk)).1,
        fun k hk => ((hcell k hk).2.mp (hp k hk)).2⟩

/-- Recorded bytes are in a range that the checks let through. -/
lemma Tracked.fits (h : Tracked m sh) {addr : U64} {n : ℕ} (hn : 0 < n)
    (hown : ∀ k < n, sh (addr.toNat + k) ≠ .foreign) : m.Backed ∧ m.Fits addr n := by
  have hlast := h.inside _ (hown (n - 1) (by omega))
  refine ⟨h.storage.resolve_left fun hsh => hown 0 hn (hsh _), ?_⟩
  unfold Fits
  omega

/-- A read of nothing reports nothing. -/
lemma readTo_zero {addr : U64} {r : List U8 × ReturnException} (h : m.readTo addr 0 = .ok r) :
    r.2 = .NormalExecutionReturn := by
  have hrange : forRange addr (addr + 0) = [] := forRange_eq_nil (by simp)
  rw [readTo, bind_eq_ok_iff] at h
  obtain ⟨_, -, h⟩ := h
  rw [bind_eq_ok_iff] at h
  obtain ⟨_, -, h⟩ := h
  rw [hrange] at h
  obtain rfl := Except.ok.inj h
  rfl

/-- **The detection of uninitialised reads is exact.**  After any events from any memory, a read
of bytes that were allocated on the way goes through; it reports an uninitialised byte exactly if
one of them has not been written since, and a normal return exactly if all have. -/
theorem uninitialised_exact {m₀ : MMU} (hmade : m₀.Made) {events : List Event}
    (hrun : events.foldlM track (m₀, fun _ => .foreign) = .ok (m, sh)) {addr len : U64}
    (hown : ∀ k < len.toNat, sh (addr.toNat + k) ≠ .foreign) :
    (len ≠ 0 → ∃ r, m.readTo addr len = .ok r)
      ∧ (∀ r, m.readTo addr len = .ok r → ReportsExactly sh addr len.toNat r.2)
      ∧ ∀ sz, sizeBytes sz = some len.toNat →
          ∃ r, m.load addr sz = .ok r ∧ ReportsExactly sh addr len.toNat r.2 := by
  have h : Tracked m sh := (Tracked.of_foreign hmade fun _ => rfl).run hrun
  have hlen : BitVec.ofNat 64 len.toNat = len := by simp
  have hreads := h.reports hown
  by_cases hzero : len = 0
  · subst hzero
    refine ⟨fun hne => absurd rfl hne, fun r hr => ?_, fun sz hsz => ?_⟩
    · rw [readTo_zero hr]
      exact ⟨by simp, by simp⟩
    · exact absurd (sizeBytes_le hsz).1 (by decide)
  · have hpos : 0 < len.toNat := by
      by_contra hne
      exact hzero (BitVec.eq_of_toNat_eq (by simpa using hne))
    obtain ⟨hm, hfit⟩ := h.fits hpos hown
    have hread := readTo_of_fits hm hfit
    rw [hlen] at hread
    refine ⟨fun _ => ⟨_, hread⟩, fun r hr => ?_, fun sz hsz => ⟨_, load_of_fits hm hsz hfit, hreads⟩⟩
    obtain rfl := Except.ok.inj (hread.symm.trans hr)
    exact hreads

/-- Sixteen bytes are allocated and the first two are written: a word read there is still
uninitialised. -/
theorem uninitialised_exact_hword :
    ∃ m sh r, [Event.op (.allocate 16), .op (.store 0x10000 7 16)].foldlM track
        (uniform 0x20000 0, fun _ => .foreign) = .ok (m, sh)
      ∧ m.load 0x10000 32 = .ok r ∧ r.2 = .UninitializedMemoryAccess := by
  have hview : ([Event.op (.allocate 16), .op (.store 0x10000 7 16)].foldlM track
        (uniform 0x20000 0, fun _ => .foreign) >>= fun p => .ok ((List.range 4).map fun k =>
          p.2 (0x10000 + k)))
      = .ok [Cell.written, .written, .fresh, .fresh] := by
    decide +kernel
  obtain ⟨⟨m, sh⟩, hrun, hcells⟩ := bind_eq_ok_iff.mp hview
  simp only [Except.ok.injEq, List.range_succ, List.range_zero, List.nil_append, List.cons_append,
    List.map_cons, List.map_nil, List.cons.injEq, and_true] at hcells
  obtain ⟨h0, h1, h2, h3⟩ := hcells
  have hmade : (uniform 0x20000 0).Made :=
    .new (show MMU.new 0x20000 (fun _ => 0) (fun _ => 0) = _ from rfl)
  have hown : ∀ k < (4 : U64).toNat, sh ((0x10000 : U64).toNat + k) ≠ .foreign := by
    intro k hk
    have hk4 : k < 4 := hk
    interval_cases k
    · simp [h0]
    · simp [h1]
    · simp [h2]
    · simp [h3]
  obtain ⟨r, hload, hreports⟩ := (uninitialised_exact hmade hrun hown).2.2 32 rfl
  exact ⟨m, sh, r, hrun, hload, hreports.uninitialised.mpr ⟨2, by decide, h2⟩⟩

end MMU

end Vemu
