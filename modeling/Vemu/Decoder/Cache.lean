import Vemu.InstructionDecoder

/-!
# The decoder's caches are transparent

`decodeOf w` is the decoding of `w` without any cache.  A decoder is *consistent* when its
caches hold nothing but what an uncached decoding gives, and the two fixed words.  The freshly
constructed decoder is consistent (`consistent_init`), every call keeps it so, and a consistent
decoder answers every word as the uncached decoding does (`decode_eq`), whatever words it was
asked before and whatever became of them (`decode_after`).  Seen from the freshly constructed
decoder, that is **`caches_transparent`**.
-/

namespace Vemu

open Fallible OrderedMap

/-- The fields of a word, its immediate cut out by the format its opcode has. -/
def fieldsOf (w : U32) : Fields := fieldsWith w (immediateOf w (scanType (extractOpcode w)))

/-- The table search that a word's format leads to. -/
def searchOf (w : U32) : InstrType → Fields → Except Fault Instruction
  | .R =>
      if isFpInstr w then
        if ignoreF3 w then searchFpWithoutF3 else searchFpWithF3
      else searchR
  | .R4 => searchR4
  | .I => searchI
  | .S => searchS
  | .B => searchB
  | .U => searchU
  | .J => searchJ
  | .WRONG => fun _ => .ok ⟨.WRONG, .XXX, Fields.zero, "XXX"⟩

/-- Decoding without caches. -/
def decodeOf (w : U32) : Except Fault Instruction :=
  if w = sretWord then .ok sretInstr
  else if w = mretWord then .ok mretInstr
  else searchOf w (scanType (extractOpcode w)) (fieldsOf w)

namespace InstructionDecoder

variable {d : InstructionDecoder}

/-- The caches hold what uncached decoding gives. -/
structure Consistent (d : InstructionDecoder) : Prop where
  types : ∀ op t, d.opcodeToTypeCache op = some t → t = scanType op
  instrs : ∀ w i, d.instrCache w = some i → decodeOf w = .ok i
  mret : d.instrCache mretWord = some mretInstr
  sret : d.instrCache sretWord = some sretInstr

lemma consistent_init : InstructionDecoder.init.Consistent where
  types := by simp [InstructionDecoder.init]
  instrs := by
    intro w i h
    by_cases hs : w = sretWord
    · subst hs
      simpa [InstructionDecoder.init, decodeOf] using h
    · by_cases hm : w = mretWord
      · subst hm
        simpa [InstructionDecoder.init, decodeOf, hs, Function.update] using h
      · simp [InstructionDecoder.init, Function.update, hs, hm] at h
  mret := by
    have hne : mretWord ≠ sretWord := by decide
    simp [InstructionDecoder.init, Function.update, hne]
  sret := by simp [InstructionDecoder.init]

/-- The decoder after it has looked an opcode up. -/
def withType (d : InstructionDecoder) (op : U8) : InstructionDecoder :=
  { d with opcodeToTypeCache := Function.update d.opcodeToTypeCache op (some (scanType op)) }

@[simp] lemma withType_instrCache (d : InstructionDecoder) (op : U8) :
    (d.withType op).instrCache = d.instrCache := rfl

@[simp] lemma withType_withType (d : InstructionDecoder) (op : U8) :
    (d.withType op).withType op = d.withType op := by
  simp [withType]

lemma Consistent.withType (hd : d.Consistent) (op : U8) : (d.withType op).Consistent where
  types := by
    intro op' t h
    by_cases hop : op' = op
    · subst hop
      simpa [InstructionDecoder.withType, eq_comm] using h
    · exact hd.types op' t (by simpa [InstructionDecoder.withType, hop] using h)
  instrs := hd.instrs
  mret := hd.mret
  sret := hd.sret

/-- Caching the instruction that a word decodes to. -/
def withInstr (d : InstructionDecoder) (w : U32) (i : Instruction) : InstructionDecoder :=
  { d with instrCache := Function.update d.instrCache w (some i) }

lemma Consistent.withInstr (hd : d.Consistent) {w : U32} {i : Instruction}
    (hi : decodeOf w = .ok i) : (d.withInstr w i).Consistent where
  types := hd.types
  instrs := by
    intro w' i' h
    by_cases hw : w' = w
    · subst hw
      have hii : i = i' := by simpa [InstructionDecoder.withInstr] using h
      exact hii ▸ hi
    · exact hd.instrs w' i' (by simpa [InstructionDecoder.withInstr, hw] using h)
  mret := by
    by_cases hw : mretWord = w
    · subst hw
      have hii : mretInstr = i := by
        have hm : decodeOf mretWord = .ok mretInstr := hd.instrs _ _ hd.mret
        simpa [hm] using hi
      simp [InstructionDecoder.withInstr, hii]
    · simpa [InstructionDecoder.withInstr, hw] using hd.mret
  sret := by
    by_cases hw : sretWord = w
    · subst hw
      have hii : sretInstr = i := by
        have hs : decodeOf sretWord = .ok sretInstr := hd.instrs _ _ hd.sret
        simpa [hs] using hi
      simp [InstructionDecoder.withInstr, hii]
    · simpa [InstructionDecoder.withInstr, hw] using hd.sret

/-! ## Running the decoder on a consistent state -/

/-- Running a decoding on a decoder. -/
abbrev runM {α : Type} (x : DecodeM α) (d : InstructionDecoder) :
    Except Fault α × InstructionDecoder := x.run.run d

lemma runM_bind {α β : Type} (x : DecodeM α) (f : α → DecodeM β) (d : InstructionDecoder) :
    runM (x >>= f) d = match runM x d with
      | (.ok a, d') => runM (f a) d'
      | (.error e, d') => (.error e, d') := by
  simp only [runM, ExceptT.run, StateT.run, bind, ExceptT.bind, ExceptT.mk, StateT.bind]
  rcases x d with ⟨r, d'⟩
  cases r <;> rfl

@[simp] lemma runM_pure {α : Type} (a : α) (d : InstructionDecoder) :
    runM (pure a) d = (.ok a, d) := rfl

@[simp] lemma runM_get (d : InstructionDecoder) : runM get d = (.ok d, d) := rfl

@[simp] lemma runM_modify (g : InstructionDecoder → InstructionDecoder) (d : InstructionDecoder) :
    runM (modify g) d = (.ok (), g d) := rfl

@[simp] lemma runM_lift {α : Type} (x : StateM InstructionDecoder α) (d : InstructionDecoder) :
    runM (liftM x) d = (.ok (x.run d).1, (x.run d).2) := rfl

@[simp] lemma runM_liftExcept (x : Except Fault Instruction) (d : InstructionDecoder) :
    runM (decodeWith.liftExcept x) d = (x, d) := rfl

lemma run_instrTypeOfOp (hd : d.Consistent) (op : U8) :
    (instrTypeOfOp op).run d = (scanType op, d.withType op) := by
  cases h : d.opcodeToTypeCache op with
  | none =>
      simp only [instrTypeOfOp, StateT.run_bind, StateT.run_get, pure_bind, h]
      rfl
  | some t =>
      have ht := hd.types op t h
      subst ht
      have hself : d.withType op = d := by
        simp only [withType, ← h, Function.update_eq_self]
      rw [hself]
      simp only [instrTypeOfOp, StateT.run_bind, StateT.run_get, pure_bind, h]
      rfl

lemma run_getFields (hd : d.Consistent) (w : U32) :
    (getFields w).run d = (fieldsOf w, d.withType (extractOpcode w)) := by
  simp only [getFields, getImmediate, instrType, StateT.run_bind, run_instrTypeOfOp hd]
  rfl

lemma runM_decodeWith (hd : d.Consistent) (search : Fields → Except Fault Instruction) (w : U32) :
    runM (decodeWith search w) d = (search (fieldsOf w), d.withType (extractOpcode w)) := by
  rw [decodeWith, runM_bind, runM_lift, run_getFields hd]
  exact runM_liftExcept _ _

/-- The decoder after a word has been decoded: the instruction is cached, unless decoding
failed. -/
def withResult (d : InstructionDecoder) (w : U32) : Except Fault Instruction → InstructionDecoder
  | .ok i => d.withInstr w i
  | .error _ => d

lemma Consistent.withResult (hd : d.Consistent) (w : U32) :
    (d.withResult w (decodeOf w)).Consistent := by
  cases h : decodeOf w with
  | ok i => exact hd.withInstr h
  | error e => exact hd

lemma runM_cacheInstr {w : U32} {x : DecodeM Instruction} {r : Except Fault Instruction}
    {d' : InstructionDecoder} (h : runM x d = (r, d')) :
    runM (cacheInstr w x) d = (r, d'.withResult w r) := by
  rw [cacheInstr, runM_bind, h]
  cases r with
  | ok i => rfl
  | error e => rfl

/-- The `decode…` function that a format leads to. -/
def decodeFn (w : U32) : InstrType → DecodeM Instruction
  | .R => decodeR w
  | .R4 => decodeR4 w
  | .I => decodeI w
  | .S => decodeS w
  | .B => decodeB w
  | .U => decodeU w
  | .J => decodeJ w
  | .WRONG => pure ⟨.WRONG, .XXX, Fields.zero, "XXX"⟩

lemma runM_decodeFn (hd : d.Consistent) (w : U32) {t : InstrType} (ht : t ≠ .WRONG) :
    runM (decodeFn w t) d = (searchOf w t (fieldsOf w), d.withType (extractOpcode w)) := by
  cases t with
  | R =>
      simp only [decodeFn, decodeR, decodeFp, searchOf]
      split_ifs <;> exact runM_decodeWith hd _ w
  | WRONG => exact absurd rfl ht
  | _ => exact runM_decodeWith hd _ w

/-- A word that is not cached: its format is looked up, then its table is searched, and what the
search gives is cached. -/
lemma decode_uncached (hd : d.Consistent) {w : U32} (hw : d.instrCache w = none) :
    d.decode w
      = (decodeOf w,
        if scanType (extractOpcode w) = .WRONG then d.withType (extractOpcode w)
        else (d.withType (extractOpcode w)).withResult w (decodeOf w)) := by
  have hs : w ≠ sretWord := fun h => by simp [h, hd.sret] at hw
  have hm : w ≠ mretWord := fun h => by simp [h, hd.mret] at hw
  have hof : decodeOf w = searchOf w (scanType (extractOpcode w)) (fieldsOf w) := by
    simp [decodeOf, hs, hm]
  have hfn : ∀ {t : InstrType}, scanType (extractOpcode w) = t → t ≠ .WRONG →
      runM (decodeFn w t) (d.withType (extractOpcode w))
        = (decodeOf w, d.withType (extractOpcode w)) := by
    intro t ht hne
    rw [runM_decodeFn (hd.withType _) w hne, withType_withType, hof, ht]
  have hstart : d.decode w
      = runM (match scanType (extractOpcode w) with
          | .WRONG => decodeFn w .WRONG
          | t => cacheInstr w (decodeFn w t)) (d.withType (extractOpcode w)) := by
    change runM (decodeM w) d = _
    rw [decodeM, runM_bind, runM_get]
    simp only [hw]
    rw [runM_bind, runM_lift, instrType, run_instrTypeOfOp hd]
    cases scanType (extractOpcode w) <;> rfl
  rw [hstart]
  cases ht : scanType (extractOpcode w) with
  | WRONG =>
      rw [hof, ht]
      rfl
  | _ => exact runM_cacheInstr (hfn ht (by simp))

/-- **A consistent decoder decodes as if it had no caches**, and stays consistent. -/
theorem decode_eq (hd : d.Consistent) (w : U32) :
    (d.decode w).1 = decodeOf w ∧ (d.decode w).2.Consistent := by
  cases hw : d.instrCache w with
  | some i =>
      have hdec : d.decode w = (.ok i, d) := by
        change runM (decodeM w) d = _
        rw [decodeM, runM_bind, runM_get]
        simp only [hw, runM_pure]
      rw [hdec]
      exact ⟨(hd.instrs w i hw).symm, hd⟩
  | none =>
      have ht := hd.withType (extractOpcode w)
      rw [decode_uncached hd hw]
      refine ⟨rfl, ?_⟩
      split_ifs
      · exact ht
      · exact ht.withResult w

/-- Any history of calls keeps a decoder consistent. -/
theorem Consistent.after (hd : d.Consistent) (history : List U32) :
    (d.after history).Consistent := by
  induction history generalizing d with
  | nil => exact hd
  | cons w history ih => exact ih (decode_eq hd w).2

/-- **History does not matter**: after any calls, the decoder answers as without caches. -/
theorem decode_after (history : List U32) (w : U32) :
    ((InstructionDecoder.init.after history).decode w).1 = decodeOf w :=
  (decode_eq (consistent_init.after history) w).1

/-- **The caches are transparent.**  After any calls, those that throw among them, every word
decodes as it does in the first call of all, and the opcode cache holds what the walk of the
tables gives. -/
theorem caches_transparent (history : List U32) :
    (∀ w, ((InstructionDecoder.init.after history).decode w).1
        = (InstructionDecoder.init.decode w).1) ∧
      ∀ op t, (InstructionDecoder.init.after history).opcodeToTypeCache op = some t →
        t = scanType op := by
  refine ⟨fun w => ?_, (consistent_init.after history).types⟩
  rw [decode_after, (decode_eq consistent_init w).1]

end InstructionDecoder

end Vemu
