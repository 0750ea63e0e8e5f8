import Vemu.Fuzz

/-!
# Whether a mutation is undone

`push_mutate` writes random bytes into the target and keeps the old byte of every position it
writes to; `pop_mutate` writes the old bytes back, into the input file instead of the target.
So an iteration leaves all bytes as they were only if neither of the two changed any: every byte
drawn was in the target already, and the input has the target's bytes at the positions drawn
(**`undone_iff`**).
-/

namespace Vemu

open Fallible OrderedMap

namespace FileInfo

variable {info info' : FileInfo} {pos : Position} {b : U8}

/-! ## Bytes and shape -/

/-- The number of bytes of each segment. -/
def shape (info : FileInfo) : List U64 := info.segments.map (·.fileSize)

lemma byteAt_eq (info : FileInfo) (pos : Position) :
    info.byteAt pos = info.bytes[pos.1]? >>= fun data => data[pos.2]? := by
  rw [byteAt, bytes, List.getElem?_map]
  cases info.segments[pos.1]? <;> rfl

/-- Two images of one shape have the same bytes if they have them position by position. -/
lemma bytes_ext (hshape : info'.shape = info.shape)
    (h : ∀ pos, info'.byteAt pos = info.byteAt pos) : info'.bytes = info.bytes := by
  have hlen : info'.bytes.length = info.bytes.length := by
    have := congrArg List.length hshape
    simpa [shape, bytes] using this
  refine List.ext_getElem hlen fun i hi hi' => ?_
  have hi₁ : i < info'.segments.length := by simpa [bytes] using hi
  have hi₂ : i < info.segments.length := by simpa [bytes] using hi'
  have hsize : info'.segments[i].fileSize = info.segments[i].fileSize := by
    have hget := congrArg (·[i]?) hshape
    simpa [shape, List.getElem?_map, hi₁, hi₂] using hget
  refine List.ext_getElem? fun j => ?_
  have hj := h (i, j)
  rw [byteAt_eq, byteAt_eq, List.getElem?_eq_getElem hi, List.getElem?_eq_getElem hi'] at hj
  exact hj

lemma setByte_eq_ok_iff :
    info.setByte pos b = .ok info'
      ↔ (info.byteAt pos).isSome = true ∧
        info' = { info with segments := info.segments.modify pos.1 (·.setByte pos.2 b) } := by
  rw [setByte]
  by_cases h : (info.byteAt pos).isSome = true
  · rw [if_pos h, Except.ok.injEq]
    exact ⟨fun heq => ⟨h, heq.symm⟩, fun heq => heq.2.symm⟩
  · rw [if_neg h]
    simp [h]

/-- A byte that is there can be written. -/
lemma exists_setByte {old : U8} (h : info.byteAt pos = some old) (b : U8) :
    ∃ info', info.setByte pos b = .ok info' :=
  ⟨_, setByte_eq_ok_iff.mpr ⟨by rw [h]; rfl, rfl⟩⟩

lemma shape_setByte (h : info.setByte pos b = .ok info') : info'.shape = info.shape := by
  obtain ⟨-, rfl⟩ := setByte_eq_ok_iff.mp h
  refine List.ext_getElem? fun i => ?_
  simp only [shape, List.getElem?_map, List.getElem?_modify]
  cases info.segments[i]? with
  | none => simp
  | some seg => by_cases hi : pos.1 = i <;> simp [hi, MemorySegment.setByte]

/-- A write changes the byte at its position. -/
lemma byteAt_setByte (h : info.setByte pos b = .ok info') (q : Position) :
    info'.byteAt q = if q = pos then some b else info.byteAt q := by
  obtain ⟨hsome, rfl⟩ := setByte_eq_ok_iff.mp h
  obtain ⟨i, j⟩ := pos
  obtain ⟨i', j'⟩ := q
  simp only [byteAt, List.getElem?_modify] at hsome ⊢
  by_cases hi : i = i'
  · subst hi
    cases hseg : info.segments[i]? with
    | none => simp [hseg] at hsome
    | some seg =>
        have hj : j < seg.data.length := by
          rw [hseg] at hsome
          simpa using hsome
        by_cases hjj : j' = j
        · subst hjj
          simp [MemorySegment.setByte, hj]
        · simp [MemorySegment.setByte, hjj, List.getElem?_set_ne (Ne.symm hjj)]
  · have hne : (i', j') ≠ (i, j) := fun heq => hi (congrArg Prod.fst heq).symm
    simp [hi, hne]

lemma byteAt_lt {pos : Position} (h : (info.byteAt pos).isSome = true) : pos.2 < 2 ^ 64 := by
  rw [byteAt] at h
  cases hseg : info.segments[pos.1]? with
  | none => simp [hseg] at h
  | some seg =>
      rw [hseg] at h
      have hj : pos.2 < seg.data.length := by simpa using h
      have hsize := seg.fileSize.isLt
      rw [seg.length_data] at hj
      omega

end FileInfo

/-! ## Writing a list of bytes -/

section Writes

variable {info info' : FileInfo}

/-- The last byte that a list of writes writes to a position. -/
def lastWritten : List (Position × U8) → Position → Option U8
  | [], _ => none
  | w :: ws, pos => (lastWritten ws pos).or (if w.1 = pos then some w.2 else none)

/-- The last byte written to a position that is written to. -/
lemma lastWritten_isSome {pos : Position} :
    ∀ {ws : List (Position × U8)}, (∃ w ∈ ws, w.1 = pos) → (lastWritten ws pos).isSome = true
  | [], h => by simp at h
  | w :: ws, h => by
      rw [lastWritten]
      obtain ⟨w', hw', rfl⟩ := h
      rcases List.mem_cons.mp hw' with rfl | hmem
      · cases lastWritten ws w'.1 <;> simp
      · have hsome := lastWritten_isSome ⟨w', hmem, rfl⟩
        obtain ⟨a, ha⟩ := Option.isSome_iff_exists.mp hsome
        simp [ha]

/-- It is one of the bytes written there. -/
lemma mem_of_lastWritten {pos : Position} {b : U8} :
    ∀ {ws : List (Position × U8)}, lastWritten ws pos = some b → (pos, b) ∈ ws
  | [], h => by cases h
  | w :: ws, h => by
      rw [lastWritten] at h
      cases hlast : lastWritten ws pos with
      | some a =>
          rw [hlast] at h
          obtain rfl : a = b := by simpa using h
          exact List.mem_cons_of_mem _ (mem_of_lastWritten hlast)
      | none =>
          rw [hlast] at h
          by_cases hw : w.1 = pos
          · subst hw
            simp only [Option.none_or, if_true, Option.some.injEq] at h
            subst h
            exact List.mem_cons_self
          · simp [hw] at h

/-- Writes keep the shape, and leave the last byte written at each position. -/
lemma popMutate_spec :
    ∀ {ws : List (Position × U8)} {info info' : FileInfo}, popMutate info ws = .ok info' →
      info'.shape = info.shape
        ∧ ∀ pos, info'.byteAt pos = (lastWritten ws pos).or (info.byteAt pos)
  | [], info, info', h => by
      obtain rfl := Except.ok.inj h
      exact ⟨rfl, fun _ => rfl⟩
  | w :: ws, info, info', h => by
      rw [popMutate, List.foldlM_cons, bind_eq_ok_iff] at h
      obtain ⟨info₁, h₁, h⟩ := h
      obtain ⟨hshape, hbytes⟩ := popMutate_spec h
      refine ⟨hshape.trans (FileInfo.shape_setByte h₁), fun pos => ?_⟩
      rw [hbytes, FileInfo.byteAt_setByte h₁, lastWritten]
      by_cases hw : w.1 = pos
      · rw [if_pos hw, if_pos hw.symm]
        cases lastWritten ws pos <;> rfl
      · rw [if_neg hw, if_neg (Ne.symm hw)]
        cases lastWritten ws pos <;> rfl

/-- Writes go through exactly if all their positions are inside. -/
lemma popMutate_ok_iff :
    ∀ {ws : List (Position × U8)} {info : FileInfo},
      (∃ info', popMutate info ws = .ok info') ↔ ∀ w ∈ ws, (info.byteAt w.1).isSome = true
  | [], info => by simp [popMutate]
  | w :: ws, info => by
      rw [popMutate, List.foldlM_cons]
      by_cases hw : (info.byteAt w.1).isSome = true
      · obtain ⟨info₁, h₁⟩ : ∃ info₁, info.setByte w.1 w.2 = .ok info₁ := ⟨_, if_pos hw⟩
        have hsome : ∀ pos, (info₁.byteAt pos).isSome = (info.byteAt pos).isSome := by
          intro pos
          rw [FileInfo.byteAt_setByte h₁]
          by_cases hpos : pos = w.1
          · rw [if_pos hpos, hpos, hw]
            rfl
          · rw [if_neg hpos]
        have ih := @popMutate_ok_iff ws info₁
        simp only [hsome] at ih
        rw [h₁, ok_bind]
        exact ih.trans (by simp [hw])
      · have hfail : info.setByte w.1 w.2 = .error .outOfBounds := if_neg hw
        rw [hfail, error_bind]
        simp [hw]

/-- **Writes go through and change no byte** exactly if the last byte written to each position is
the one that is there. -/
lemma popMutate_same_iff {ws : List (Position × U8)} :
    (∃ info', popMutate info ws = .ok info' ∧ info'.bytes = info.bytes)
      ↔ ∀ w ∈ ws, lastWritten ws w.1 = info.byteAt w.1 := by
  constructor
  · rintro ⟨info', h, hsame⟩ w hw
    obtain ⟨-, hbytes⟩ := popMutate_spec h
    have hsome := lastWritten_isSome ⟨w, hw, rfl⟩
    obtain ⟨b, hb⟩ := Option.isSome_iff_exists.mp hsome
    have hpos := hbytes w.1
    rw [FileInfo.byteAt_eq, hsame, ← FileInfo.byteAt_eq, hb] at hpos
    rw [hb, hpos]
    rfl
  · intro h
    have hinside : ∀ w ∈ ws, (info.byteAt w.1).isSome = true := by
      intro w hw
      rw [← h w hw]
      exact lastWritten_isSome ⟨w, hw, rfl⟩
    obtain ⟨info', hok⟩ := popMutate_ok_iff.mpr hinside
    obtain ⟨hshape, hbytes⟩ := popMutate_spec hok
    refine ⟨info', hok, FileInfo.bytes_ext hshape fun pos => ?_⟩
    rw [hbytes]
    cases hlast : lastWritten ws pos with
    | none => rfl
    | some b =>
        have hmem := mem_of_lastWritten hlast
        rw [← h _ hmem, hlast]
        rfl

end Writes

/-! ## What `push_mutate` writes and keeps -/

lemma below_eq_ok {x : U64} {n i : ℕ} (h : below x n = .ok i) : i = x.toNat % n := by
  by_cases hn : n = 0
  · simp [below, hn] at h
  · rw [below, if_neg hn] at h
    exact (Except.ok.inj h).symm

/-- The positions that `push_mutate` draws, with the bytes it writes there. -/
def draws (stream : ℕ → U64) (sizes : List U64) : ℕ → ℕ → List (Position × U8)
  | 0, _ => []
  | nBytes + 1, drawn =>
      let segIdx := (stream drawn).toNat % sizes.length
      let byteIdx := (stream (drawn + 1)).toNat % ((sizes[segIdx]?.getD 0).toNat)
      ((segIdx, byteIdx), BitVec.ofNat 8 ((stream (drawn + 2)).toNat % 255))
        :: draws stream sizes nBytes (drawn + 3)

/-- The entries of a history hold the bytes of an earlier image, and away from their positions the
image is still as it was. -/
structure Keeps (orig info : FileInfo) (history : MutationHistory) : Prop where
  old : ∀ e ∈ history, orig.byteAt e.1 = some e.2
  rest : ∀ pos, find? history pos = none → info.byteAt pos = orig.byteAt pos

namespace Keeps

variable {orig info info' : FileInfo} {history : MutationHistory}

lemma nil (info : FileInfo) : Keeps info info [] where
  old := by simp
  rest := fun _ _ => rfl

/-- Positions inside an image have different ranks. -/
lemma rank_ne (h : Keeps orig info history) {pos : Position} {b : U8}
    (hpos : info.byteAt pos = some b) (hfresh : find? history pos = none) :
    ∀ e ∈ history, positionRank e.1 ≠ positionRank pos := by
  intro e he hrank
  have he₂ : e.1.2 < 2 ^ 64 := FileInfo.byteAt_lt (by rw [h.old e he]; rfl)
  have hp₂ : pos.2 < 2 ^ 64 := FileInfo.byteAt_lt (by rw [hpos]; rfl)
  have heq : e.1 = pos := by
    simp only [positionRank] at hrank
    exact Prod.ext (by omega) (by omega)
  exact find?_eq_none_iff.mp hfresh (List.mem_map.mpr ⟨e, he, heq⟩)

/-- One mutation: its position is in the history afterwards, and no other is added. -/
lemma step (h : Keeps orig info history) {pos : Position} {old b : U8}
    (hpos : info.byteAt pos = some old) (hset : info.setByte pos b = .ok info')
    {history' : MutationHistory}
    (hhist : history'
      = if find? history pos = none then insertNew positionRank pos old history else history) :
    Keeps orig info' history' ∧
      ∀ q, q ∈ history'.map Prod.fst ↔ q = pos ∨ q ∈ history.map Prod.fst := by
  by_cases hfresh : find? history pos = none
  · rw [if_pos hfresh] at hhist
    subst hhist
    have hkeys : ∀ q, q ∈ (insertNew positionRank pos old history).map Prod.fst
        ↔ q = pos ∨ q ∈ history.map Prod.fst := by
      intro q
      simp only [List.mem_map]
      constructor
      · rintro ⟨e, he, rfl⟩
        rcases mem_insertNew he with rfl | he
        · exact Or.inl rfl
        · exact Or.inr ⟨e, he, rfl⟩
      · rintro (rfl | ⟨e, he, rfl⟩)
        · exact ⟨_, mem_insertNew_self old (h.rank_ne hpos hfresh), rfl⟩
        · exact ⟨e, mem_insertNew_of_mem pos old he, rfl⟩
    refine ⟨⟨fun e he => ?_, fun q hq => ?_⟩, hkeys⟩
    · rcases mem_insertNew he with rfl | he
      · rw [← h.rest pos hfresh, hpos]
      · exact h.old e he
    · obtain ⟨hne, hold⟩ := not_or.mp (mt (hkeys q).mpr (find?_eq_none_iff.mp hq))
      rw [FileInfo.byteAt_setByte hset, if_neg hne, h.rest q (find?_eq_none_iff.mpr hold)]
  · rw [if_neg hfresh] at hhist
    subst hhist
    have hmem : pos ∈ history'.map Prod.fst := not_not.mp (mt find?_eq_none_iff.mpr hfresh)
    refine ⟨⟨h.old, fun q hq => ?_⟩, fun q => ⟨Or.inr, ?_⟩⟩
    · have hne : q ≠ pos := fun heq => hfresh (heq ▸ hq)
      rw [FileInfo.byteAt_setByte hset, if_neg hne, h.rest q hq]
    · rintro (rfl | hq)
      · exact hmem
      · exact hq

end Keeps

/-- `push_mutate` writes the bytes drawn, and its history holds the old byte of every position
drawn. -/
lemma pushMutate_spec {stream : ℕ → U64} {orig : FileInfo} :
    ∀ {nBytes drawn drawn' : ℕ} {info info' : FileInfo} {history history' : MutationHistory},
      Keeps orig info history →
      pushMutate stream nBytes drawn info history = .ok (drawn', info', history') →
      popMutate info (draws stream info.shape nBytes drawn) = .ok info'
        ∧ Keeps orig info' history'
        ∧ ∀ q, q ∈ history'.map Prod.fst
            ↔ q ∈ (draws stream info.shape nBytes drawn).map Prod.fst ∨ q ∈ history.map Prod.fst
  | 0, drawn, drawn', info, info', history, history', hkeep, h => by
      obtain ⟨-, rfl, rfl⟩ := by simpa [pushMutate] using h
      exact ⟨rfl, hkeep, by simp [draws]⟩
  | nBytes + 1, drawn, drawn', info, info', history, history', hkeep, h => by
      rw [pushMutate, bind_eq_ok_iff] at h
      obtain ⟨segIdx, hseg, h⟩ := h
      rw [bind_eq_ok_iff] at h
      obtain ⟨seg, hget, h⟩ := h
      rw [bind_eq_ok_iff] at h
      obtain ⟨byteIdx, hbyte, h⟩ := h
      dsimp only at h
      rw [bind_eq_ok_iff] at h
      obtain ⟨old, hold, h⟩ := h
      rw [bind_eq_ok_iff] at h
      obtain ⟨info₁, hset, h⟩ := h
      have hshape := FileInfo.shape_setByte hset
      obtain ⟨hkeep₁, hkeys₁⟩ := hkeep.step (orFault_eq_ok_iff.mp hold) hset rfl
      obtain ⟨hpop, hkeep', hkeys'⟩ := pushMutate_spec hkeep₁ h
      rw [hshape] at hpop hkeys'
      have hdraw : draws stream info.shape (nBytes + 1) drawn
          = ((segIdx, byteIdx), BitVec.ofNat 8 ((stream (drawn + 2)).toNat % 255))
            :: draws stream info.shape nBytes (drawn + 3) := by
        have hlen : info.shape.length = info.segments.length := by simp [FileInfo.shape]
        have hsize : info.shape[segIdx]? = some seg.fileSize := by
          rw [FileInfo.shape, List.getElem?_map, orFault_eq_ok_iff.mp hget]
          rfl
        rw [draws, hlen, ← below_eq_ok hseg, hsize, Option.getD_some, ← below_eq_ok hbyte]
      refine ⟨?_, hkeep', fun q => ?_⟩
      · rw [hdraw, popMutate, List.foldlM_cons, hset, ok_bind]
        exact hpop
      · rw [hkeys', hkeys₁, hdraw, List.map_cons, List.mem_cons]
        tauto

/-- Every byte drawn was there already, exactly if `push_mutate` changes no byte. -/
lemma pushMutate_same_iff {stream : ℕ → U64} {nBytes drawn drawn' : ℕ} {info info' : FileInfo}
    {history : MutationHistory}
    (h : pushMutate stream nBytes drawn info [] = .ok (drawn', info', history)) :
    info'.bytes = info.bytes
      ↔ ∀ w ∈ draws stream info.shape nBytes drawn,
          lastWritten (draws stream info.shape nBytes drawn) w.1 = info.byteAt w.1 := by
  obtain ⟨hpop, -, -⟩ := pushMutate_spec (Keeps.nil info) h
  rw [← popMutate_same_iff, hpop]
  simp

/-- What is written back to an image is the target's bytes at the positions drawn. -/
lemma popMutate_history_same_iff {stream : ℕ → U64} {nBytes drawn drawn' : ℕ}
    {info info' input : FileInfo} {history : MutationHistory}
    (h : pushMutate stream nBytes drawn info [] = .ok (drawn', info', history)) :
    (∃ input', popMutate input history = .ok input' ∧ input'.bytes = input.bytes)
      ↔ ∀ w ∈ draws stream info.shape nBytes drawn, input.byteAt w.1 = info.byteAt w.1 := by
  obtain ⟨-, hkeep, hkeys⟩ := pushMutate_spec (Keeps.nil info) h
  have hlast : ∀ e ∈ history, lastWritten history e.1 = info.byteAt e.1 := by
    intro e he
    have hsome := lastWritten_isSome ⟨e, he, rfl⟩
    obtain ⟨b, hb⟩ := Option.isSome_iff_exists.mp hsome
    rw [hb, hkeep.old _ (mem_of_lastWritten hb)]
  rw [popMutate_same_iff]
  constructor
  · intro hsame w hw
    have hmem : w.1 ∈ history.map Prod.fst := (hkeys w.1).mpr (Or.inl (List.mem_map_of_mem hw))
    obtain ⟨e, he, hew⟩ := List.mem_map.mp hmem
    rw [← hew, ← hsame e he, hlast e he]
  · intro hsame e he
    rcases (hkeys e.1).mp (List.mem_map_of_mem he) with hmem | hmem
    · obtain ⟨w, hw, hwe⟩ := List.mem_map.mp hmem
      rw [hlast e he, ← hwe, hsame w hw]
    · simp at hmem

/-- **Written back to the image itself, a history undoes what it keeps.** -/
lemma Keeps.restores {orig info : FileInfo} {history : MutationHistory}
    (h : Keeps orig info history) (hshape : info.shape = orig.shape)
    (hinside : ∀ pos, (info.byteAt pos).isSome = (orig.byteAt pos).isSome) :
    ∃ info', popMutate info history = .ok info' ∧ info'.bytes = orig.bytes := by
  obtain ⟨info', hback⟩ := popMutate_ok_iff.mpr fun e he => by
    rw [hinside, h.old e he]
    rfl
  obtain ⟨hshape', hbytes⟩ := popMutate_spec hback
  refine ⟨info', hback, FileInfo.bytes_ext (hshape'.trans hshape) fun pos => ?_⟩
  rw [hbytes]
  cases hlast : lastWritten history pos with
  | some b => exact (h.old _ (mem_of_lastWritten hlast)).symm
  | none =>
      refine h.rest pos (find?_eq_none_iff.mpr fun hmem => ?_)
      obtain ⟨e, he, rfl⟩ := List.mem_map.mp hmem
      have hsome := lastWritten_isSome ⟨e, he, rfl⟩
      rw [hlast] at hsome
      cases hsome

/-! ## An iteration -/

namespace Corpus

/-- The bytes of every file. -/
def bytes (c : Corpus) : List (List (List U8)) := c.files.map fun f => f.info.bytes

lemma bytes_update_iff {c : Corpus} {i : ℕ} {g : CorpusFile → CorpusFile} :
    (c.update i g).bytes = c.bytes
      ↔ ∀ f, c.files[i]? = some f → (g f).info.bytes = f.info.bytes := by
  have hget : ∀ j : ℕ, (c.update i g).bytes[j]?
      = c.files[j]?.map fun f => if i = j then (g f).info.bytes else f.info.bytes := by
    intro j
    simp only [bytes, update, List.getElem?_map, List.getElem?_modify]
    by_cases hij : i = j <;> cases c.files[j]? <;> simp [hij]
  have hget' : ∀ j : ℕ, c.bytes[j]? = c.files[j]?.map fun f => f.info.bytes := by
    intro j
    rw [bytes, List.getElem?_map]
  constructor
  · intro h f hf
    have hi := congrArg (·[i]?) h
    simpa [hget, hget', hf] using hi
  · intro h
    refine List.ext_getElem? fun j => ?_
    rw [hget, hget']
    cases hf : c.files[j]? with
    | none => rfl
    | some f =>
        by_cases hij : i = j
        · subst hij
          simp [h f hf]
        · simp [hij]

lemma bytes_lock (c : Corpus) (i : ℕ) : (c.lock i).bytes = c.bytes :=
  bytes_update_iff.mpr fun _ _ => rfl

/-- A locked file keeps its image. -/
lemma info_lock {c : Corpus} {i : ℕ} {f : CorpusFile} (h : (c.lock i).files[i]? = some f) :
    ∃ f₀, c.files[i]? = some f₀ ∧ f.info = f₀.info := by
  simp only [lock, update, List.getElem?_modify_eq, Option.map_eq_map, Option.map_eq_some_iff] at h
  obtain ⟨f₀, hf₀, rfl⟩ := h
  exact ⟨f₀, hf₀, rfl⟩

end Corpus

lemma Stop.lift_eq_ok_iff {α : Type} {x : Except Fault α} {a : α} :
    Stop.lift x = .ok a ↔ x = .ok a := by
  cases x <;> simp [Stop.lift]

namespace FuzzThread

variable {env : Surroundings} {k : ℕ} {t t₀ t' : FuzzThread} {p : AtPop}

/-- The bytes of the target and of the corpus. -/
def bytes (t : FuzzThread) : List (List U8) × List (List (List U8)) :=
  (t.target.bytes, t.corpus.bytes)

/-- What an iteration did before `pop_mutate`. -/
structure Prepared (env : Surroundings) (k : ℕ) (t : FuzzThread) (p : AtPop) : Prop where
  input : ∃ drawn f, getRandomFreeFile env.stream t.corpus env.tries t.drawn = .ok (p.input, drawn)
    ∧ p.thread.corpus.files[p.input]? = some f ∧ f.info = p.inputInfo
    ∧ pushMutate env.stream (env.stream drawn % 8).toNat (drawn + 1) t.target []
        = .ok (p.thread.drawn, p.thread.target, p.history)
  corpus : p.thread.corpus = t.corpus.lock p.input
  emulator : ∃ args, VEmu.ofInfo env.host (env.junk k) (.after .init (env.history k))
    (env.hostCalls k) p.thread.target args defaultMemSize = .ok p.emulator

lemma prepared (h : t.prepare env k = .ok p) : Prepared env k t p := by
  rw [prepare, bind_eq_ok_iff] at h
  obtain ⟨⟨input, drawn⟩, hfree, h⟩ := h
  dsimp only at h
  rw [bind_eq_ok_iff] at h
  obtain ⟨f, hf, h⟩ := h
  rw [bind_eq_ok_iff] at h
  obtain ⟨⟨drawn', target, history⟩, hpush, h⟩ := h
  dsimp only at h
  rw [bind_eq_ok_iff] at h
  obtain ⟨em, hem, h⟩ := h
  rw [Stop.lift_eq_ok_iff] at hf hpush hem
  obtain rfl := Except.ok.inj h
  exact ⟨⟨drawn, f, hfree, orFault_eq_ok_iff.mp hf, rfl, hpush⟩, rfl, _, hem⟩

/-- The end of an iteration is as its beginning: `pop_mutate` went through, and the target and the
files of the corpus have the bytes they had. -/
def Restored (t : FuzzThread) (p : AtPop) : Prop :=
  ∃ info, popMutate p.inputInfo p.history = .ok info ∧ (withInput p info).bytes = t.bytes

/-- **The iterations that restore what they change.**  Every byte drawn is in the target already,
and the free file that is picked has the target's bytes at the positions drawn. -/
def Harmless (env : Surroundings) (t : FuzzThread) : Prop :=
  ∀ input drawn f, getRandomFreeFile env.stream t.corpus env.tries t.drawn = .ok (input, drawn) →
    t.corpus.files[input]? = some f →
    let ws := draws env.stream t.target.shape (env.stream drawn % 8).toNat (drawn + 1)
    ∀ w ∈ ws, lastWritten ws w.1 = t.target.byteAt w.1 ∧ f.info.byteAt w.1 = t.target.byteAt w.1

lemma restored_iff_harmless (h : t.prepare env k = .ok p) : t.Restored p ↔ t.Harmless env := by
  have hp := prepared h
  obtain ⟨drawn, f, hfree, hf, hinfo, hpush⟩ := hp.input
  have hf' := hf
  rw [hp.corpus] at hf'
  obtain ⟨f₀, hf₀, hinfo₀⟩ := Corpus.info_lock hf'
  have hsplit : t.Restored p ↔ p.thread.target.bytes = t.target.bytes
      ∧ ∃ info, popMutate p.inputInfo p.history = .ok info ∧ info.bytes = p.inputInfo.bytes := by
    have hcorpus : ∀ info : FileInfo,
        (withInput p info).corpus.bytes = t.corpus.bytes ↔ info.bytes = p.inputInfo.bytes := by
      intro info
      rw [← Corpus.bytes_lock t.corpus p.input, ← hp.corpus]
      refine Corpus.bytes_update_iff.trans ⟨fun hall => ?_, fun heq g hg => ?_⟩
      · rw [← hinfo]
        exact hall f hf
      · obtain rfl : f = g := Option.some.inj (hf.symm.trans hg)
        rw [hinfo]
        exact heq
    simp only [Restored, bytes, Prod.mk.injEq, hcorpus]
    constructor
    · rintro ⟨info, hpop, htarget, hinput⟩
      exact ⟨htarget, info, hpop, hinput⟩
    · rintro ⟨htarget, info, hpop, hinput⟩
      exact ⟨info, hpop, htarget, hinput⟩
  rw [hsplit, pushMutate_same_iff hpush, popMutate_history_same_iff hpush, ← hinfo, hinfo₀]
  constructor
  · rintro ⟨htarget, hinput⟩ input drawn' g hfree' hg
    obtain ⟨rfl, rfl⟩ := Prod.mk.inj (Except.ok.inj (hfree.symm.trans hfree'))
    obtain rfl : f₀ = g := Option.some.inj (hf₀.symm.trans hg)
    exact fun w hw => ⟨htarget w hw, hinput w hw⟩
  · intro hharm
    have hall := hharm p.input drawn f₀ hfree hf₀
    exact ⟨fun w hw => (hall w hw).1, fun w hw => (hall w hw).2⟩

/-- An iteration that restores the bytes ends with them. -/
lemma bytes_iteration (h : iteration env k t = .ok t')
    (hrestored : ∀ p, t.prepare env k = .ok p → t.Restored p) : t'.bytes = t.bytes := by
  rw [iteration, bind_eq_ok_iff] at h
  obtain ⟨p, hp, h⟩ := h
  rw [bind_eq_ok_iff] at h
  obtain ⟨info, hpop, h⟩ := h
  rw [bind_eq_ok_iff] at h
  obtain ⟨turn, -, h⟩ := h
  rw [Stop.lift_eq_ok_iff] at hpop
  obtain ⟨info', hpop', hbytes⟩ := hrestored p hp
  obtain rfl : info = info' := Except.ok.inj (hpop.symm.trans hpop')
  cases turn with
  | returned st =>
      obtain rfl := Except.ok.inj h
      exact hbytes
  | next s => cases h

/-- After iterations that restored the bytes, they are those of the beginning. -/
lemma bytes_dispatch :
    ∀ {runs : ℕ} {t : FuzzThread}, dispatch env runs t₀ = .ok t →
      (∀ k < runs, ∀ t p, dispatch env k t₀ = .ok t → t.prepare env k = .ok p → t.Restored p) →
      t.bytes = t₀.bytes
  | 0, t, h, _ => by
      obtain rfl := Except.ok.inj h
      rfl
  | runs + 1, t, h, hall => by
      rw [dispatch, bind_eq_ok_iff] at h
      obtain ⟨t₁, h₁, h⟩ := h
      rw [bytes_iteration h fun p hp => hall runs (Nat.lt_succ_self runs) t₁ p h₁ hp]
      exact bytes_dispatch h₁ fun k hk => hall k (Nat.lt_succ_of_lt hk)

/-- **An iteration undoes its mutations.**  It ends with the bytes it began with, and its emulator
was built from the target of the beginning with the mutations of this iteration only. -/
structure Undone (env : Surroundings) (k : ℕ) (t₀ t : FuzzThread) (p : AtPop) : Prop where
  restored : t.Restored p
  original : t.bytes = t₀.bytes
  mutated : ∃ nBytes drawn, pushMutate env.stream nBytes drawn t.target []
    = .ok (p.thread.drawn, p.thread.target, p.history)
  emulator : ∃ args, VEmu.ofInfo env.host (env.junk k) (.after .init (env.history k))
    (env.hostCalls k) p.thread.target args defaultMemSize = .ok p.emulator

/-- **When mutations are undone.**  In a run of any length, every iteration undoes its mutations
exactly if every iteration is harmless. -/
theorem undone_iff (env : Surroundings) (t₀ : FuzzThread) (runs : ℕ) :
    (∀ k < runs, ∀ t p, dispatch env k t₀ = .ok t → t.prepare env k = .ok p →
        Undone env k t₀ t p)
      ↔ ∀ k < runs, ∀ t p, dispatch env k t₀ = .ok t → t.prepare env k = .ok p →
          t.Harmless env := by
  constructor
  · intro h k hk t p ht hp
    exact (restored_iff_harmless hp).mp (h k hk t p ht hp).restored
  · intro h
    have hrestored : ∀ k < runs, ∀ t p, dispatch env k t₀ = .ok t → t.prepare env k = .ok p →
        t.Restored p :=
      fun k hk t p ht hp => (restored_iff_harmless hp).mpr (h k hk t p ht hp)
    intro k hk t p ht hp
    obtain ⟨drawn, f, -, -, -, hpush⟩ := (prepared hp).input
    exact
      { restored := hrestored k hk t p ht hp
        original := bytes_dispatch ht fun j hj => hrestored j (hj.trans hk)
        mutated := ⟨_, _, hpush⟩
        emulator := (prepared hp).emulator }

/-! ## One mutation -/

/-- `addi a7, x0, 93`, `ecall`, and a word that is not reached: the program exits. -/
def exitProgram : FileInfo where
  fileName := []
  segments := [⟨permExec ||| permRead, 0x1000, 12, 12,
    [0x93, 0x08, 0xD0, 0x05, 0x73, 0, 0, 0, 0, 0, 0, 0], rfl⟩]
  entryPoint := 0x1000

/-- A thread that fuzzes the program, with the program as the only file of the corpus. -/
def oneFile : FuzzThread := ⟨⟨[⟨exitProgram, false⟩], by decide⟩, exitProgram, [], 0⟩

/-- Surroundings with given random numbers, in which an emulator runs for three rounds. -/
def drawing (stream : ℕ → U64) : Surroundings where
  host := .bare .fuzz
  stream := stream
  tries := 1
  rounds := fun _ => 3
  junk := fun _ => .zero
  history := fun _ => []
  hostCalls := fun _ => 0

/-- A mutation of byte eight to seven stays in the target. -/
theorem not_undone_exitProgram :
    (∃ t, dispatch (drawing ([0, 1, 0, 8, 7].getD · 0)) 1 oneFile = .ok t ∧ t.bytes ≠ oneFile.bytes)
      ∧ ¬ ∀ k < 1, ∀ t p, dispatch (drawing ([0, 1, 0, 8, 7].getD · 0)) k oneFile = .ok t →
          t.prepare (drawing ([0, 1, 0, 8, 7].getD · 0)) k = .ok p →
          Undone (drawing ([0, 1, 0, 8, 7].getD · 0)) k oneFile t p := by
  have hrun : (dispatch (drawing ([0, 1, 0, 8, 7].getD · 0)) 1 oneFile >>= fun t => .ok t.bytes.1)
      = .ok [[0x93, 0x08, 0xD0, 0x05, 0x73, 0, 0, 0, 7, 0, 0, 0]] := by decide +kernel
  obtain ⟨t, ht, hview⟩ := bind_eq_ok_iff.mp hrun
  have hne : t.bytes ≠ oneFile.bytes := by
    intro heq
    rw [heq] at hview
    exact absurd hview (by decide)
  refine ⟨⟨t, ht, hne⟩, fun hall => hne ?_⟩
  exact bytes_dispatch ht fun k hk t' p ht' hp => (hall k hk t' p ht' hp).restored

end FuzzThread

end Vemu
