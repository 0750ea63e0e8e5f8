import Vemu.Decoder.FixedBits
import Vemu.Decoder.EncodeFloat
import Vemu.Decoder.Total
import Vemu.Run

/-!
# The decoder rejects what is not an instruction

A word that is decoded to a mnemonic has all the fields of that mnemonic which the walks look at
(`settles_decodeOf`): of every row of the joined tables, the codes are the fixed bits.  With
the fields that no walk looks at, this is sound for all but the overaccepted words:
**`rejects_iff`**.  The standard encodings are not among these (`encode_fits`,
`encode_float_fits`).
-/

namespace Vemu

open Fallible OrderedMap BitFields Riscv

open Fixed (opcode funct2 funct3 funct5 funct6 funct7 funct12)

/-! ## Fields as fixed bits -/

/-- A field that was widened for the comparison. -/
lemma eq_setWidth_of_setWidth_eq {m n : ℕ} {x : BitVec m} {c : BitVec n} (hmn : m ≤ n)
    (h : x.setWidth n = c) : x = c.setWidth m := by
  rw [← h, BitVec.setWidth_setWidth_of_le x hmn, BitVec.setWidth_eq]

variable {w : U32} {c : U8}

lemma metBy_opcode (h : extractOpcode w = c) : (opcode (c.setWidth 7)).MetBy w :=
  eq_setWidth_of_setWidth_eq (by decide) ((extractOpcode_eq w).symm.trans h)

lemma metBy_funct3 (h : extractFunct3 w = c) : (funct3 (c.setWidth 3)).MetBy w :=
  eq_setWidth_of_setWidth_eq (by decide) ((extractFunct3_eq w).symm.trans h)

lemma metBy_funct7 (h : extractFunct7 w = c) : (funct7 (c.setWidth 7)).MetBy w :=
  eq_setWidth_of_setWidth_eq (by decide) ((extractFunct7_eq w).symm.trans h)

lemma metBy_funct6 (h : extractFunct6 w = c) : (funct6 (c.setWidth 6)).MetBy w :=
  eq_setWidth_of_setWidth_eq (by decide) ((extractFunct6_eq w).symm.trans h)

lemma metBy_funct2 (h : extractFunct2 w = c) : (funct2 (c.setWidth 2)).MetBy w :=
  eq_setWidth_of_setWidth_eq (by decide) ((extractFunct2_eq w).symm.trans h)

lemma metBy_rs2 {r : Reg} (h : extractRs2 w = r) : (Fixed.rs2 r).MetBy w :=
  (extractRs2_eq w).symm.trans h

/-- The upper five bits of `funct7`, with or without the two bits that atomics leave free. -/
lemma metBy_funct5 (h : extractFunct7 w = c ∨ extractFunct7 w &&& ~~~3 = c) :
    (funct5 (c.extractLsb' 2 5)).MetBy w := by
  have hfield : w.extractLsb' 27 5 = (extractFunct7 w).extractLsb' 2 5 := by
    apply BitVec.eq_of_getElem_eq
    intro i hi
    interval_cases i <;> simp [extractFunct7_eq]
  have hfree : (extractFunct7 w).extractLsb' 2 5 = (extractFunct7 w &&& ~~~3).extractLsb' 2 5 := by
    apply BitVec.eq_of_getElem_eq
    intro i hi
    interval_cases i <;> simp
  rw [Fixed.MetBy]
  change w.extractLsb' 27 5 = c.extractLsb' 2 5
  rcases h with h | h
  · rw [hfield, h]
  · rw [hfield, hfree, h]

lemma metBy_funct12 {v : BitVec 12} (h : immI w = v.signExtend 32) : (funct12 v).MetBy w := by
  rw [immI_eq] at h
  exact @eq_of_signExtend_eq 12 32 (by decide) _ _ h

/-! ## Rows -/

/-- A search that finds a mnemonic finds it in a row that fits. -/
lemma row_of_found {ρ : Type*} {rows : List (IName × ρ)} {t : InstrType} {f : Fields}
    {p : IName × ρ → Bool} {ins : Instruction}
    (h : found t f ((rows.find? p).map Prod.fst) = .ok ins) (hne : ins.name ≠ .XXX) :
    ∃ r ∈ rows, p r = true ∧ ins.name = r.1 := by
  cases hfind : rows.find? p with
  | none =>
      rw [hfind] at h
      obtain rfl := Except.ok.inj h
      exact absurd rfl hne
  | some r =>
      rw [hfind] at h
      obtain ⟨s, -, hins⟩ := bind_eq_ok_iff.mp h
      obtain rfl := Except.ok.inj hins
      exact ⟨r, List.mem_of_find?_eq_some hfind, List.find?_some hfind, rfl⟩

/-- What a row of the I table asks for besides its opcode and `funct3`, as fixed bits. -/
def guardBits : IName → List Fixed
  | .ECALL => [funct12 0]
  | .EBREAK => [funct12 1]
  | .SLLIW | .SRLIW => [funct7 0b0000000]
  | .SRAIW => [funct7 0b0100000]
  | .SLLI | .SRLI => [funct6 0b000000]
  | .SRAI => [funct6 0b010000]
  | _ => []

/-- **The codes of a row are the fixed bits of its mnemonic**, except for those that no walk looks
at. -/
lemma compared_rows :
    (∀ r ∈ rRows, compared r.1 = if r.2.1 = amOpcode
      then [opcode (r.2.1.setWidth 7), funct3 (r.2.2.1.setWidth 3), funct5 (r.2.2.2.extractLsb' 2 5)]
      else [opcode (r.2.1.setWidth 7), funct3 (r.2.2.1.setWidth 3), funct7 (r.2.2.2.setWidth 7)])
    ∧ (∀ r ∈ r4Rows, compared r.1 = [opcode (r.2.1.setWidth 7), funct2 (r.2.2.setWidth 2)])
    ∧ (∀ r ∈ iRows, compared r.1
        = [opcode (r.2.1.setWidth 7), funct3 (r.2.2.setWidth 3)] ++ guardBits r.1)
    ∧ (∀ r ∈ sRows ++ bRows, compared r.1
        = [opcode (r.2.1.setWidth 7), funct3 (r.2.2.setWidth 3)])
    ∧ (∀ e ∈ jOpcodes ++ uOpcodes, compared e.1 = [opcode (e.2.setWidth 7)]) := by
  decide +kernel

/-- The mnemonics of the single-precision words without a `funct3`: the second source is one of
the codes of a conversion. -/
lemma compared_fpNames :
    (∀ f7 ∈ ([0b1100000, 0b1101000] : List U8), ∀ r : Reg,
      ∀ n ∈ (fpNameWithoutF3 0b1010011 f7 r).toOption, n ≠ .XXX →
        compared n = [opcode 0b1010011, funct7 (f7.setWidth 7), Fixed.rs2 r])
    ∧ (∀ f7 ∈ ([0b0000000, 0b0000100, 0b0001000, 0b0001100, 0b0101100] : List U8),
      ∀ n ∈ (fpNameWithoutF3 0b1010011 f7 0).toOption,
        compared n = [opcode 0b1010011, funct7 (f7.setWidth 7)]) := by
  decide +kernel

/-- What the search for a word's format tells of the mnemonic it comes to. -/
def Settles (w : U32) (x : Except Fault Instruction) : Prop :=
  ∀ ins, x = .ok ins → ins.name ≠ .XXX → Accepts w ins.name

section Walks

variable {f : Fields}

lemma settles_searchR (hop : f.opCode = extractOpcode w) (hf3 : f.funct3 = extractFunct3 w)
    (hf7 : f.funct7 = extractFunct7 w) : Settles w (searchR f) := by
  intro ins h hne
  rw [searchR_eq] at h
  obtain ⟨r, hr, hfit, hname⟩ := row_of_found h hne
  simp only [fitsR, hop, hf3, hf7, Bool.and_eq_true, Bool.or_eq_true, beq_iff_eq] at hfit
  obtain ⟨⟨hrop, hrf3⟩, hrf7⟩ := hfit
  rw [hname, Accepts, compared_rows.1 r hr]
  by_cases ham : r.2.1 = amOpcode
  · have hcode : extractFunct7 w = r.2.2.2 ∨ extractFunct7 w &&& ~~~3 = r.2.2.2 :=
      hrf7.imp Eq.symm And.right
    simp [ham, metBy_opcode (hrop.trans ham), metBy_funct3 hrf3.symm, metBy_funct5 hcode]
  · have hcode : extractFunct7 w = r.2.2.2 := by
      rcases hrf7 with h | ⟨h, -⟩
      · exact h.symm
      · exact absurd (hrop.symm.trans h) ham
    simp [ham, metBy_opcode hrop, metBy_funct3 hrf3.symm, metBy_funct7 hcode]

lemma settles_searchFpWithF3 (hop : f.opCode = extractOpcode w)
    (hf3 : f.funct3 = extractFunct3 w) (hf7 : f.funct7 = extractFunct7 w)
    (hfp : extractOpcode w = 0b1010011) : Settles w (searchFpWithF3 f) := by
  intro ins h hne
  rw [searchFpWithF3_eq] at h
  obtain ⟨r, hr, hfit, hname⟩ := row_of_found h hne
  simp only [fitsFp, hop, hf3, hf7, Bool.and_eq_true, beq_iff_eq] at hfit
  obtain ⟨⟨hrf3, hrop⟩, hrf7⟩ := hfit
  have ham : r.2.1 ≠ amOpcode := by
    rw [← hrop, hfp]
    decide
  rw [hname, Accepts, compared_rows.1 r hr, if_neg ham]
  simp [metBy_opcode hrop, metBy_funct3 hrf3, metBy_funct7 hrf7]

lemma settles_searchR4 (hop : f.opCode = extractOpcode w) (hf2 : f.funct2 = extractFunct2 w) :
    Settles w (searchR4 f) := by
  intro ins h hne
  rw [searchR4_eq] at h
  obtain ⟨r, hr, hfit, hname⟩ := row_of_found h hne
  simp only [hop, hf2, Bool.and_eq_true, beq_iff_eq] at hfit
  rw [hname, Accepts, compared_rows.2.1 r hr]
  simp [metBy_opcode hfit.1, metBy_funct2 hfit.2.symm]

/-- The walks that compare an opcode and a `funct3`. -/
lemma settles_opF3 {rows : List (IName × U8 × U8)} {t : InstrType} (hrows : rows ⊆ sRows ++ bRows)
    (hop : f.opCode = extractOpcode w) (hf3 : f.funct3 = extractFunct3 w) :
    Settles w (found t f
      ((rows.find? fun r => f.opCode == r.2.1 && r.2.2 == f.funct3).map Prod.fst)) := by
  intro ins h hne
  obtain ⟨r, hr, hfit, hname⟩ := row_of_found h hne
  simp only [hop, hf3, Bool.and_eq_true, beq_iff_eq] at hfit
  rw [hname, Accepts, compared_rows.2.2.2.1 r (hrows hr)]
  simp [metBy_opcode hfit.1, metBy_funct3 hfit.2.symm]

/-- The walks that compare an opcode. -/
lemma settles_op {rows : List (IName × U8)} {t : InstrType} (hrows : rows ⊆ jOpcodes ++ uOpcodes)
    (hop : f.opCode = extractOpcode w) :
    Settles w (found t f ((rows.find? fun e => e.2 == f.opCode).map Prod.fst)) := by
  intro ins h hne
  obtain ⟨r, hr, hfit, hname⟩ := row_of_found h hne
  simp only [hop, beq_iff_eq] at hfit
  rw [hname, Accepts, compared_rows.2.2.2.2 r (hrows hr)]
  simp [metBy_opcode hfit.symm]

lemma metBy_guardBits {n : IName}
    (h : iGuard (extractFunct7 w) (extractFunct6 w) (immI w) n = true) :
    ∀ b ∈ guardBits n, b.MetBy w := by
  cases n with
  | ECALL => exact List.forall_mem_singleton.mpr (metBy_funct12 (beq_iff_eq.mp h))
  | EBREAK => exact List.forall_mem_singleton.mpr (metBy_funct12 (beq_iff_eq.mp h))
  | SLLIW => exact List.forall_mem_singleton.mpr (metBy_funct7 (beq_iff_eq.mp h).symm)
  | SRLIW => exact List.forall_mem_singleton.mpr (metBy_funct7 (beq_iff_eq.mp h).symm)
  | SRAIW => exact List.forall_mem_singleton.mpr (metBy_funct7 (beq_iff_eq.mp h).symm)
  | SLLI => exact List.forall_mem_singleton.mpr (metBy_funct6 (beq_iff_eq.mp h).symm)
  | SRLI => exact List.forall_mem_singleton.mpr (metBy_funct6 (beq_iff_eq.mp h).symm)
  | SRAI => exact List.forall_mem_singleton.mpr (metBy_funct6 (beq_iff_eq.mp h).symm)
  | _ => simp [guardBits]

lemma settles_searchI (hop : f.opCode = extractOpcode w) (hf3 : f.funct3 = extractFunct3 w)
    (hf7 : f.funct7 = extractFunct7 w) (hf6 : f.funct6 = extractFunct6 w) (himm : f.imm = immI w) :
    Settles w (searchI f) := by
  intro ins h hne
  rw [searchI_eq] at h
  obtain ⟨r, hr, hguard, hname⟩ := row_of_found h hne
  obtain ⟨hmem, hfit⟩ := List.mem_filter.mp hr
  simp only [hop, hf3, Bool.and_eq_true, beq_iff_eq] at hfit
  rw [hf7, hf6, himm] at hguard
  rw [hname, Accepts, compared_rows.2.2.1 r hmem]
  intro b hb
  rcases List.mem_append.mp hb with hb | hb
  · simp only [List.mem_cons, List.not_mem_nil, or_false] at hb
    rcases hb with rfl | rfl
    · exact metBy_opcode hfit.1.symm
    · exact metBy_funct3 hfit.2.symm
  · exact metBy_guardBits hguard b hb

/-- Outside the conversions the second source does not matter. -/
lemma fpNameWithoutF3_of_not_conversion {f7 : U8} (h : ¬ (f7 = 0b1100000 ∨ f7 = 0b1101000))
    (r r' : Reg) : fpNameWithoutF3 0b1010011 f7 r = fpNameWithoutF3 0b1010011 f7 r' := by
  obtain ⟨h1, h2⟩ := not_or.mp h
  simp only [fpNameWithoutF3, beq_iff_eq, h1, h2, if_false]

/-- Without a `funct3`: the conversions are told apart by the second source, the others by their
`funct7`. -/
lemma settles_searchFpWithoutF3 (hop : f.opCode = extractOpcode w)
    (hf7 : f.funct7 = extractFunct7 w) (hrs2 : f.rs2 = extractRs2 w)
    (hfp : extractOpcode w = 0b1010011) (hign : ignoreF3 w = true) :
    Settles w (searchFpWithoutF3 f) := by
  intro ins h hne
  obtain ⟨n, hn, hprint⟩ := bind_eq_ok_iff.mp h
  obtain ⟨s, -, hins⟩ := bind_eq_ok_iff.mp hprint
  obtain rfl := Except.ok.inj hins
  change n ≠ .XXX at hne
  change Accepts w n
  rw [hop, hf7, hrs2, hfp] at hn
  have hopcode : (opcode 0b1010011).MetBy w := metBy_opcode hfp
  have hfunct7 := @metBy_funct7 w _ rfl
  simp only [ignoreF3, Bool.or_eq_true, beq_iff_eq, or_assoc] at hign
  by_cases hconv : extractFunct7 w = 0b1100000 ∨ extractFunct7 w = 0b1101000
  · have hmem : extractFunct7 w ∈ ([0b1100000, 0b1101000] : List U8) := by simpa using hconv
    rw [Accepts, compared_fpNames.1 _ hmem _ n (congrArg Except.toOption hn) hne]
    simpa [hfunct7, metBy_rs2] using hopcode
  · have hmem : extractFunct7 w
        ∈ ([0b0000000, 0b0000100, 0b0001000, 0b0001100, 0b0101100] : List U8) := by
      simp only [List.mem_cons, List.not_mem_nil, or_false]
      tauto
    have hn' : fpNameWithoutF3 0b1010011 (extractFunct7 w) 0 = .ok n := by
      rw [← hn, fpNameWithoutF3_of_not_conversion hconv]
    rw [Accepts, compared_fpNames.2 _ hmem n (congrArg Except.toOption hn')]
    simpa [hfunct7] using hopcode

end Walks

/-- **A word has the fields of its mnemonic that the decoder looks at.** -/
theorem settles_decodeOf (w : U32) : Settles w (decodeOf w) := by
  rw [decodeOf]
  split_ifs with hs hm
  · subst hs
    rintro ins h -
    obtain rfl := Except.ok.inj h
    decide
  · subst hm
    rintro ins h -
    obtain rfl := Except.ok.inj h
    decide
  · cases ht : scanType (extractOpcode w) with
    | R =>
        rw [searchOf]
        by_cases hfp : isFpInstr w = true
        · have hop : extractOpcode w = 0b1010011 := beq_iff_eq.mp hfp
          rw [if_pos hfp]
          by_cases hign : ignoreF3 w = true
          · rw [if_pos hign]
            exact settles_searchFpWithoutF3 rfl rfl rfl hop hign
          · rw [if_neg hign]
            exact settles_searchFpWithF3 rfl rfl rfl hop
        · rw [if_neg hfp]
          exact settles_searchR rfl rfl rfl
    | R4 => exact settles_searchR4 rfl rfl
    | I =>
        refine settles_searchI rfl rfl rfl rfl ?_
        rw [fieldsOf, ht]
        rfl
    | S =>
        rw [searchOf, searchS_eq]
        exact settles_opF3 (List.subset_append_left _ _) rfl rfl
    | B =>
        rw [searchOf, searchB_eq]
        exact settles_opF3 (List.subset_append_right _ _) rfl rfl
    | J =>
        rw [searchOf, searchJ_eq]
        exact settles_op (List.subset_append_left _ _) rfl
    | U =>
        rw [searchOf, searchU_eq]
        exact settles_op (List.subset_append_right _ _) rfl
    | WRONG =>
        rintro ins h hne
        obtain rfl := Except.ok.inj h
        exact absurd rfl hne

/-! ## The fields that no walk looks at -/

lemma decodes_lr (double : Bool) (hop : w.extractLsb' 0 7 = 0b0101111)
    (hf3 : w.extractLsb' 12 3 = amoWidth double) (hf5 : w.extractLsb' 27 5 = lrCode) :
    ∃ ins, decodeOf w = .ok ins ∧ ins.name = lrName double := by
  have hf7 : (w.extractLsb' 25 7).extractLsb' 2 5 = lrCode := by
    rw [extractLsb'_extractLsb' w 25 7 2 5 (by decide), hf5]
  obtain ⟨ins, hins, hname, -⟩ := decode_wordLr (w.extractLsb' 7 5) (w.extractLsb' 15 5)
    (w.extractLsb' 20 5) double hf7
  rw [← hop, ← hf3, ← eq_word] at hins
  exact ⟨ins, hins, hname⟩

lemma decodes_move (op : FMoveOp) (hop : w.extractLsb' 0 7 = opFp)
    (hf3 : w.extractLsb' 12 3 = op.code.2) (hf7 : w.extractLsb' 25 7 = op.code.1) :
    ∃ ins, decodeOf w = .ok ins ∧ ins.name = moveName op := by
  obtain ⟨ins, hins, hname, -⟩ := decode_wordMove (w.extractLsb' 7 5) (w.extractLsb' 15 5)
    (w.extractLsb' 20 5) op
  rw [← hop, ← hf3, ← hf7, ← eq_word] at hins
  exact ⟨ins, hins, hname⟩

lemma decodes_sqrt (hop : w.extractLsb' 0 7 = opFp) (hf7 : w.extractLsb' 25 7 = 0b0101100) :
    ∃ ins, decodeOf w = .ok ins ∧ ins.name = .FSQRTS := by
  obtain ⟨ins, hins, hname, -⟩ := @decode_fp_without_f3 (w.extractLsb' 7 5) (w.extractLsb' 15 5)
    (w.extractLsb' 20 5) .FSQRTS 0b0101100 (w.extractLsb' 12 3) (by decide) (by rfl) rfl
  rw [← hop, ← hf7, ← eq_word] at hins
  exact ⟨ins, hins, hname⟩

/-- The environment instructions, whatever their registers. -/
lemma decodes_environment {n : IName} {v : BitVec 12} (hop : w.extractLsb' 0 7 = 0b1110011)
    (hf3 : w.extractLsb' 12 3 = 0) (himm : w.extractLsb' 20 12 = v)
    (hv : v = 0 ∧ n = .ECALL ∨ v = 1 ∧ n = .EBREAK) :
    ∃ ins, decodeOf w = .ok ins ∧ ins.name = n := by
  have hfixed : w ≠ sretWord ∧ w ≠ mretWord := by
    constructor
    · rintro rfl
      rcases hv with ⟨rfl, -⟩ | ⟨rfl, -⟩ <;> exact absurd himm (by decide)
    · rintro rfl
      rcases hv with ⟨rfl, -⟩ | ⟨rfl, -⟩ <;> exact absurd himm (by decide)
  have hop' : extractOpcode w = 0b1110011 := by
    rw [extractOpcode_eq, hop]
    rfl
  have hf3' : extractFunct3 w = 0 := by
    rw [extractFunct3_eq, hf3]
    rfl
  have hrows : (iRows.filter fun r => r.2.1 == 0b1110011 && r.2.2 == 0)
      = [(.ECALL, 0b1110011, 0), (.EBREAK, 0b1110011, 0)] := by rfl
  have hdec : decodeOf w = found .I (fieldsWith w (immI w)) (some n) := by
    rw [decodeOf, if_neg hfixed.1, if_neg hfixed.2, fieldsOf, scanType_eq, hop']
    change searchI (fieldsWith w (immI w)) = _
    rw [searchI_eq]
    simp only [fieldsWith, hop', hf3', hrows, immI_eq, himm]
    rcases hv with ⟨rfl, rfl⟩ | ⟨rfl, rfl⟩ <;> rfl
  have hn : unprinted n = false := by
    rcases hv with ⟨-, rfl⟩ | ⟨-, rfl⟩ <;> rfl
  obtain ⟨s, hs⟩ := found_some hn .I (fieldsWith w (immI w))
  exact ⟨_, hdec.trans hs, rfl⟩

/-- A word that has the fields of a mnemonic, so far as the decoder looks, is decoded to it, if
the decoder leaves something out. -/
lemma decodes_of_accepts {n : IName} (hn : unread n ≠ []) (h : Accepts w n) :
    ∃ ins, decodeOf w = .ok ins ∧ ins.name = n := by
  cases n with
  | ECALL =>
      exact decodes_environment (h (opcode 0b1110011) (by decide)) (h (funct3 0) (by decide))
        (h (funct12 0) (by decide)) (Or.inl ⟨rfl, rfl⟩)
  | EBREAK =>
      exact decodes_environment (h (opcode 0b1110011) (by decide)) (h (funct3 0) (by decide))
        (h (funct12 1) (by decide)) (Or.inr ⟨rfl, rfl⟩)
  | LRW =>
      exact decodes_lr false (h (opcode 0b0101111) (by decide)) (h (funct3 0b010) (by decide))
        (h (funct5 0b00010) (by decide))
  | LRD =>
      exact decodes_lr true (h (opcode 0b0101111) (by decide)) (h (funct3 0b011) (by decide))
        (h (funct5 0b00010) (by decide))
  | FSQRTS =>
      exact decodes_sqrt (h (opcode 0b1010011) (by decide)) (h (funct7 0b0101100) (by decide))
  | FCLASSS =>
      exact decodes_move .FCLASSS (h (opcode 0b1010011) (by decide)) (h (funct3 0b001) (by decide))
        (h (funct7 0b1110000) (by decide))
  | FMVXW =>
      exact decodes_move .FMVXW (h (opcode 0b1010011) (by decide)) (h (funct3 0b000) (by decide))
        (h (funct7 0b1110000) (by decide))
  | FMVWX =>
      exact decodes_move .FMVWX (h (opcode 0b1010011) (by decide)) (h (funct3 0b000) (by decide))
        (h (funct7 0b1111000) (by decide))
  | _ => exact absurd rfl hn

/-! ## The words that are not decoded at all -/

/-- The words of the two instructions without a printed name, whose decoding throws. -/
def Unnamed (w : U32) : Prop := Fits w .FNMADDS ∨ Fits w .FCVTSL

lemma decodeOf_unnamed (h : Unnamed w) : decodeOf w = .error .outOfRange := by
  rcases h with h | h
  · have hop : w.extractLsb' 0 7 = 0b1001111 := h (opcode 0b1001111) (by decide)
    have hfmt : w.extractLsb' 25 2 = 0b00 := h (funct2 0b00) (by decide)
    have hcol : w.extractLsb' 25 7 = w.extractLsb' 27 5 ++ singleFmt := by
      rw [singleFmt, ← hfmt]
      have hsplit : 27 = 25 + 2 := by decide
      exact (@BitVec.extractLsb'_append_extractLsb'_eq_extractLsb' _ _ _ _ 5 w hsplit).symm
    have hword := eq_word w
    rw [hop, hcol] at hword
    rw [hword]
    exact (decodeOf_fused _ _ _ _ .FNMADDS _).trans (found_unprinted rfl _ _)
  · have hop : w.extractLsb' 0 7 = opFp := h (opcode 0b1010011) (by decide)
    have hf7 : w.extractLsb' 25 7 = 0b1101000 := h (funct7 0b1101000) (by decide)
    have hrs2 : w.extractLsb' 20 5 = 0b00010 := h (Fixed.rs2 2) (by decide)
    have hword := eq_word w
    rw [hop, hf7, hrs2] at hword
    rw [hword]
    exact (@decodeOf_fp_without_f3 _ _ _ .FCVTSL _ _ (by decide) rfl).trans
      (found_unprinted rfl _ _)

/-- No other word makes the decoding throw. -/
lemma unnamed_of_error {e : Fault} (h : decodeOf w = .error e) : Unnamed w := by
  have hnot : ¬ Dispatched (decodeOf w) := by
    rintro ⟨ins, hins, -⟩
    exact absurd (h.symm.trans hins) (by simp)
  rw [dispatched_decodeOf_iff, not_not] at hnot
  rcases hnot with ⟨hop, hf2⟩ | ⟨hop, hf7 | ⟨hf7, hrs2⟩⟩
  · have hop' : (opcode 0b1001111).MetBy w := metBy_opcode hop
    have hf2' : (funct2 0b00).MetBy w := metBy_funct2 hf2
    exact Or.inl (List.forall_mem_cons.mpr ⟨hop', List.forall_mem_singleton.mpr hf2'⟩)
  · -- a square root is decoded, whatever its second source
    have hop' : (opcode 0b1010011).MetBy w := metBy_opcode hop
    have hf7' : (funct7 0b0101100).MetBy w := metBy_funct7 hf7
    obtain ⟨ins, hins, -⟩ := decodes_sqrt hop' hf7'
    exact absurd (h.symm.trans hins) (by simp)
  · have hop' : (opcode 0b1010011).MetBy w := metBy_opcode hop
    have hf7' : (funct7 0b1101000).MetBy w := metBy_funct7 hf7
    have hrs2' : (Fixed.rs2 2).MetBy w := metBy_rs2 hrs2
    exact Or.inr (List.forall_mem_cons.mpr ⟨hop', List.forall_mem_cons.mpr
      ⟨hf7', List.forall_mem_singleton.mpr hrs2'⟩⟩)

/-! ## Soundness -/

/-- Decoding came to `XXX`, and the handler of `XXX` raises an illegal instruction. -/
def Refused (x : Except Fault Instruction) : Prop :=
  ∃ ins, x = .ok ins ∧ ins.name = .XXX ∧ ∀ (host : Host) (s : VEmu),
    s.instFuncs = initFuncMap → VEmu.dispatch host ins.name s = .ok (.IllegalInstruction, s)

lemma refused_of_XXX {x : Except Fault Instruction} {ins : Instruction} (hx : x = .ok ins)
    (hname : ins.name = .XXX) : Refused x := by
  refine ⟨ins, hx, hname, ?_⟩
  intro host s hs
  have hmem : (.XXX : IName) ∈ s.instFuncs := by
    rw [hs, mem_initFuncMap]
    decide
  rw [hname, VEmu.dispatch, VEmu.dispatchWith, if_pos hmem]
  rfl

/-- **What a sound decoder does with a word**: a mnemonic it reports has its fixed bits there,
and a word with the fixed bits of no mnemonic is refused. -/
def Rejects (w : U32) (x : Except Fault Instruction) : Prop :=
  (∀ ins, x = .ok ins → ins.name ≠ .XXX → Fits w ins.name)
    ∧ ((∀ n, n ≠ .XXX → ¬ Fits w n) → Refused x)

/-- The stricter reading: besides the words that are reported as a mnemonic they fit, every word
is refused, so that no decoding throws. -/
def Decides (w : U32) (x : Except Fault Instruction) : Prop :=
  Refused x ∨ ∃ ins, x = .ok ins ∧ ins.name ≠ .XXX ∧ Fits w ins.name

/-- An overaccepted word is decoded to a mnemonic that it does not fit. -/
lemma misread_of_overaccepted (h : Overaccepted w) :
    ∃ ins, decodeOf w = .ok ins ∧ ins.name ≠ .XXX ∧ ¬ Fits w ins.name := by
  obtain ⟨n, hacc, hnot⟩ := h
  have hn : unread n ≠ [] := fun hn => hnot (hacc.fits hn)
  obtain ⟨ins, hins, rfl⟩ := decodes_of_accepts hn hacc
  refine ⟨ins, hins, ?_, hnot⟩
  intro hname
  rw [hname] at hn
  exact hn rfl

/-- The other words are decoded to a mnemonic that they fit. -/
lemma fits_of_decodeOf (h : ¬ Overaccepted w) {ins : Instruction} (hins : decodeOf w = .ok ins)
    (hne : ins.name ≠ .XXX) : Fits w ins.name := by
  by_contra hnot
  exact h ⟨ins.name, settles_decodeOf w ins hins hne, hnot⟩

lemma rejects_decodeOf_iff (w : U32) : Rejects w (decodeOf w) ↔ ¬ Overaccepted w := by
  constructor
  · rintro ⟨hsound, -⟩ hover
    obtain ⟨ins, hins, hne, hnot⟩ := misread_of_overaccepted hover
    exact hnot (hsound ins hins hne)
  · intro h
    refine ⟨fun ins hins hne => fits_of_decodeOf h hins hne, ?_⟩
    intro hnone
    cases hdec : decodeOf w with
    | ok ins =>
        by_cases hname : ins.name = .XXX
        · exact refused_of_XXX rfl hname
        · exact absurd (fits_of_decodeOf h hdec hname) (hnone _ hname)
    | error e =>
        rcases unnamed_of_error hdec with hfits | hfits
        · exact absurd hfits (hnone _ (by decide))
        · exact absurd hfits (hnone _ (by decide))

lemma decides_decodeOf_iff (w : U32) :
    Decides w (decodeOf w) ↔ ¬ Overaccepted w ∧ ¬ Unnamed w := by
  constructor
  · intro h
    obtain ⟨ins, hins, hfits⟩ : ∃ ins, decodeOf w = .ok ins
        ∧ (ins.name ≠ .XXX → Fits w ins.name) := by
      rcases h with ⟨ins, hins, hname, -⟩ | ⟨ins, hins, -, hfits⟩
      · exact ⟨ins, hins, fun hne => absurd hname hne⟩
      · exact ⟨ins, hins, fun _ => hfits⟩
    constructor
    · intro hover
      obtain ⟨ins', hins', hne, hnot⟩ := misread_of_overaccepted hover
      obtain rfl := Except.ok.inj (hins.symm.trans hins')
      exact hnot (hfits hne)
    · intro hthrow
      exact absurd (hins.symm.trans (decodeOf_unnamed hthrow)) (by simp)
  · rintro ⟨hover, hthrow⟩
    cases hdec : decodeOf w with
    | ok ins =>
        by_cases hname : ins.name = .XXX
        · exact Or.inl (refused_of_XXX rfl hname)
        · exact Or.inr ⟨ins, rfl, hname, fits_of_decodeOf hover hdec hname⟩
    | error e => exact absurd (unnamed_of_error hdec) hthrow

/-- A word of the compressed formats is refused. -/
lemma refused_of_compressed (h : w.extractLsb' 0 2 ≠ 0b11) : Refused (decodeOf w) := by
  cases hdec : decodeOf w with
  | ok ins =>
      by_cases hname : ins.name = .XXX
      · exact refused_of_XXX rfl hname
      · exact absurd ((settles_decodeOf w ins hdec hname).lowBits hname) h
  | error e =>
      rcases unnamed_of_error hdec with hfits | hfits
      · exact absurd (hfits.accepts.lowBits (by decide)) h
      · exact absurd (hfits.accepts.lowBits (by decide)) h

/-- **The decoder rejects what is not an instruction, except for the overaccepted words**,
whatever it was asked before; those of the two instructions without a printed name are not
decoded at all, and a compressed word is always refused. -/
theorem rejects_iff (history : List U32) (w : U32) :
    (Rejects w ((InstructionDecoder.init.after history).decode w).1 ↔ ¬ Overaccepted w)
      ∧ (Decides w ((InstructionDecoder.init.after history).decode w).1
          ↔ ¬ Overaccepted w ∧ ¬ Unnamed w)
      ∧ (w.extractLsb' 0 2 ≠ 0b11 →
          Refused ((InstructionDecoder.init.after history).decode w).1) := by
  rw [InstructionDecoder.decode_after]
  exact ⟨rejects_decodeOf_iff w, decides_decodeOf_iff w, refused_of_compressed⟩

/-- The word `0`, which is no instruction. -/
theorem rejects_zero :
    (Rejects 0 ((InstructionDecoder.init.after []).decode 0).1 ↔ ¬ Overaccepted 0)
      ∧ Refused ((InstructionDecoder.init.after []).decode 0).1 :=
  ⟨(rejects_iff [] 0).1, (rejects_iff [] 0).2.2 (by decide)⟩

/-- `LR.W` with a second source: the decoder takes it for `LR.W`. -/
theorem lrw_ignores_rs2 :
    ((InstructionDecoder.init.after []).decode 0x1010202F).1.toOption.map (fun ins => ins.name)
        = some .LRW
      ∧ ¬ Rejects 0x1010202F ((InstructionDecoder.init.after []).decode 0x1010202F).1 := by
  rw [InstructionDecoder.decode_after]
  refine ⟨?_, ?_⟩
  · obtain ⟨ins, hins, hname⟩ := @decodes_lr 0x1010202F false (by decide) (by decide) (by decide)
    rw [hins]
    exact congrArg some hname
  · rw [rejects_decodeOf_iff, not_not]
    exact ⟨.LRW, by decide, by decide⟩

/-! ## The table and the encodings

Both were written from the instruction set: the encoding of an instruction has the fixed bits of
the mnemonic that the decoder has to report.  No standard encoding is overaccepted. -/

section Encodings

variable (funct7 : BitVec 7) (rs2 rs1 : BitVec 5) (funct3 : BitVec 3) (rd : BitVec 5)
  (op : BitVec 7)

lemma metBy_word :
    (opcode op).MetBy (word funct7 rs2 rs1 funct3 rd op)
      ∧ (Fixed.funct3 funct3).MetBy (word funct7 rs2 rs1 funct3 rd op)
      ∧ (Fixed.rs2 rs2).MetBy (word funct7 rs2 rs1 funct3 rd op)
      ∧ (Fixed.funct7 funct7).MetBy (word funct7 rs2 rs1 funct3 rd op) :=
  ⟨word_opcode .., word_funct3 .., word_rs2 .., word_funct7 ..⟩

/-- The upper `len` bits of `funct7`, from bit `lo` on. -/
lemma metBy_word_above {lo len : ℕ} {c : BitVec len} (h : funct7.extractLsb' lo len = c) :
    Fixed.MetBy ⟨25 + lo, len, c⟩ (word funct7 rs2 rs1 funct3 rd op) :=
  (word_above funct7 rs2 rs1 funct3 rd op lo len).trans h

end Encodings

/-- What the fixed bits come to on an encoded word. -/
lemma fits_word {w : U32} {n : IName} {bits : List Fixed} (hbits : fixedBits n = bits)
    (h : ∀ b ∈ bits, b.MetBy w) : Fits w n := by
  rw [Fits, hbits]
  exact h

theorem encode_fits (i : Instr) {ins : Instruction} (h : Reads ins i) :
    Fits i.encode ins.name := by
  cases i with
  | r op rd rs1 rs2 =>
      obtain ⟨hop, hf3, -, hf7⟩ := metBy_word op.code.2.2 rs2 rs1 op.code.2.1 rd op.code.1
      rw [h.1]
      refine @fits_word _ _ (opF3F7 op.code.1 op.code.2.1 op.code.2.2) (by cases op <;> rfl) ?_
      simpa [opF3F7] using ⟨hop, hf3, hf7⟩
  | i op rd rs1 imm =>
      obtain ⟨hop, hf3, -⟩ := metBy_word (imm.extractLsb' 5 7) (imm.extractLsb' 0 5) rs1 op.code.2
        rd op.code.1
      rw [h.1]
      refine @fits_word _ _ (opF3 op.code.1 op.code.2) (by cases op <;> rfl) ?_
      simpa [opF3] using ⟨hop, hf3⟩
  | shift op rd rs1 shamt =>
      obtain ⟨hop, hf3, -⟩ := metBy_word ((op.code.2 ++ shamt).extractLsb' 5 7)
        ((op.code.2 ++ shamt).extractLsb' 0 5) rs1 op.code.1 rd 0b0010011
      have hf6 := metBy_word_above _ ((op.code.2 ++ shamt).extractLsb' 0 5) rs1 op.code.1 rd
        0b0010011 (shift_code op shamt)
      rw [h.1]
      refine @fits_word _ _ (opF3 0b0010011 op.code.1 ++ [funct6 op.code.2])
        (by cases op <;> rfl) ?_
      simpa [opF3] using ⟨hop, hf3, hf6⟩
  | shiftW op rd rs1 shamt =>
      obtain ⟨hop, hf3, -⟩ := metBy_word ((op.code.2 ++ shamt).extractLsb' 5 7)
        ((op.code.2 ++ shamt).extractLsb' 0 5) rs1 op.code.1 rd 0b0011011
      have hf7 : (funct7 op.code.2).MetBy (Instr.shiftW op rd rs1 shamt).encode :=
        (word_funct7 ..).trans (shiftW_code op shamt)
      rw [h.1]
      refine @fits_word _ _ (opF3F7 0b0011011 op.code.1 op.code.2) (by cases op <;> rfl) ?_
      simpa [opF3F7] using ⟨hop, hf3, hf7⟩
  | s op rs1 rs2 imm =>
      obtain ⟨hop, hf3, -⟩ := metBy_word (imm.extractLsb' 5 7) rs2 rs1 op.code
        (imm.extractLsb' 0 5) 0b0100011
      rw [h.1]
      refine @fits_word _ _ (opF3 0b0100011 op.code) (by cases op <;> rfl) ?_
      simpa [opF3] using ⟨hop, hf3⟩
  | b op rs1 rs2 halfwords =>
      obtain ⟨hop, hf3, -⟩ := metBy_word (branchHigh halfwords) rs2 rs1 op.code
        (branchLow halfwords) 0b1100011
      rw [h.1]
      refine @fits_word _ _ (opF3 0b1100011 op.code) (by cases op <;> rfl) ?_
      simpa [opF3] using ⟨hop, hf3⟩
  | u op rd imm =>
      rw [h.1]
      refine @fits_word _ _ [opcode op.code] (by cases op <;> rfl) ?_
      exact List.forall_mem_singleton.mpr (word_opcode ..)
  | jal rd halfwords =>
      rw [h.1]
      exact List.forall_mem_singleton.mpr (word_opcode ..)
  | amo op double aq rl rd rs1 rs2 =>
      obtain ⟨hop, hf3, -⟩ := metBy_word (amoFunct7 op.code aq rl) rs2 rs1 (amoWidth double) rd
        0b0101111
      have hf5 := metBy_word_above _ rs2 rs1 (amoWidth double) rd 0b0101111
        (amoFunct7_code op.code aq rl)
      rw [h.1]
      refine @fits_word _ _ (amoBits (amoWidth double) op.code)
        (by cases op <;> cases double <;> rfl) ?_
      simpa [amoBits] using ⟨hop, hf3, hf5⟩
  | lr double aq rl rd rs1 =>
      obtain ⟨hop, hf3, hrs2, -⟩ := metBy_word (amoFunct7 lrCode aq rl) 0 rs1 (amoWidth double) rd
        0b0101111
      have hf5 := metBy_word_above _ 0 rs1 (amoWidth double) rd 0b0101111
        (amoFunct7_code lrCode aq rl)
      rw [h.1]
      refine @fits_word _ _ (amoBits (amoWidth double) lrCode ++ [Fixed.rs2 0])
        (by cases double <;> rfl) ?_
      simpa [amoBits] using ⟨hop, hf3, hf5, hrs2⟩
  | system op =>
      rw [h.1]
      cases op <;> decide

theorem encode_float_fits (i : FInstr) {ins : Instruction} (h : ReadsFloat ins i) :
    Fits i.encode ins.name := by
  cases i with
  | flw rd rs1 imm =>
      obtain ⟨hop, hf3, -⟩ := metBy_word (imm.extractLsb' 5 7) (imm.extractLsb' 0 5) rs1 0b010 rd
        0b0000111
      rw [h.1]
      refine @fits_word _ _ (opF3 0b0000111 0b010) rfl ?_
      simpa [opF3] using ⟨hop, hf3⟩
  | fsw rs1 rs2 imm =>
      obtain ⟨hop, hf3, -⟩ := metBy_word (imm.extractLsb' 5 7) rs2 rs1 0b010 (imm.extractLsb' 0 5)
        0b0100111
      rw [h.1]
      refine @fits_word _ _ (opF3 0b0100111 0b010) rfl ?_
      simpa [opF3] using ⟨hop, hf3⟩
  | fused op rm rd rs1 rs2 rs3 =>
      have hop : (opcode op.code).MetBy (word (rs3 ++ singleFmt) rs2 rs1 rm rd op.code) :=
        word_opcode ..
      have hf2 := @metBy_word_above (rs3 ++ singleFmt) rs2 rs1 rm rd op.code 0 2 singleFmt
        (lastColumn rs3 singleFmt)
      rw [h.1]
      refine @fits_word _ _ [opcode op.code, funct2 singleFmt] (by cases op <;> rfl) ?_
      simpa using ⟨hop, hf2⟩
  | arith op rm rd rs1 rs2 =>
      obtain ⟨hop, -, -, hf7⟩ := metBy_word op.code rs2 rs1 rm rd opFp
      rw [h.1]
      refine @fits_word _ _ (fpBits op.code) (by cases op <;> rfl) ?_
      simpa [fpBits] using ⟨hop, hf7⟩
  | exact op rd rs1 rs2 =>
      obtain ⟨hop, hf3, -, hf7⟩ := metBy_word op.code.1 rs2 rs1 op.code.2 rd opFp
      rw [h.1]
      refine @fits_word _ _ (opF3F7 opFp op.code.2 op.code.1) (by cases op <;> rfl) ?_
      simpa [opF3F7] using ⟨hop, hf3, hf7⟩
  | convert op rm rd rs1 =>
      obtain ⟨hop, -, hrs2, hf7⟩ := metBy_word op.code.1 op.code.2 rs1 rm rd opFp
      rw [h.1]
      refine @fits_word _ _ (fpBits op.code.1 ++ [Fixed.rs2 op.code.2]) (by cases op <;> rfl) ?_
      simpa [fpBits] using ⟨hop, hf7, hrs2⟩
  | move op rd rs1 =>
      obtain ⟨hop, hf3, hrs2, hf7⟩ := metBy_word op.code.1 0 rs1 op.code.2 rd opFp
      rw [h.1]
      refine @fits_word _ _ (opF3F7 opFp op.code.2 op.code.1 ++ [Fixed.rs2 0])
        (by cases op <;> rfl) ?_
      simpa [opF3F7] using ⟨hop, hf3, hf7, hrs2⟩

end Vemu
