import Vemu.Decoder.Search
import Vemu.FuncMap

/-!
# Which words are decoded and dispatched

Decoding can throw in one place only, where the printed name of the row that was found is
looked up, and the dispatch can fail only for a mnemonic without a handler.  Three mnemonics
are concerned: `FNMADDS` and `FCVTSL` have no printed name, `FSQRTS` has no handler.
**`dispatched_iff`** says which words they are: every other word, after any history of calls,
is decoded to an instruction with a handler.
-/

namespace Vemu

open Fallible OrderedMap

/-- Decoding came to an instruction that has a handler. -/
def Dispatched (x : Except Fault Instruction) : Prop :=
  ∃ ins, x = .ok ins ∧ ins.name ∈ initFuncMap

/-- The words of the three mnemonics that the tables leave out. -/
def Unhandled (w : U32) : Prop :=
  (extractOpcode w = 0b1001111 ∧ extractFunct2 w = 0b00)
    ∨ (extractOpcode w = 0b1010011
        ∧ (extractFunct7 w = 0b0101100
            ∨ (extractFunct7 w = 0b1101000 ∧ extractRs2 w = 0b00010)))

/-- A mnemonic has a printed name and a handler. -/
def Handled (n : IName) : Prop := n ≠ .FNMADDS ∧ n ≠ .FCVTSL ∧ n ≠ .FSQRTS

instance : DecidablePred Handled := fun _ => inferInstanceAs (Decidable (_ ∧ _ ∧ _))

lemma getStringName_eq_ok_iff (n : IName) :
    (∃ s, getStringName n = .ok s) ↔ unprinted n = false := by
  have h := find?_instStringNames n
  cases hf : find? instStringNames n <;> cases hu : unprinted n <;>
    simp_all [getStringName, mapAt]

lemma handled_iff (n : IName) :
    Handled n ↔ (∃ s, getStringName n = .ok s) ∧ n ∈ initFuncMap := by
  rw [getStringName_eq_ok_iff, mem_initFuncMap]
  simp [Handled, unprinted, and_assoc]

/-- A named row is dispatched exactly if its mnemonic is handled. -/
lemma dispatched_named (t : InstrType) (n : IName) (f : Fields) :
    Dispatched (do
      let s ← getStringName n
      return ⟨t, n, f, s⟩) ↔ Handled n := by
  rw [handled_iff]
  constructor
  · rintro ⟨ins, h, hmem⟩
    obtain ⟨s, hs, hins⟩ := bind_eq_ok_iff.mp h
    simp only [pure_eq_ok, Except.ok.injEq] at hins
    subst hins
    exact ⟨⟨s, hs⟩, hmem⟩
  · rintro ⟨⟨s, hs⟩, hmem⟩
    exact ⟨⟨t, n, f, s⟩, by simp [hs], hmem⟩

/-- The result of a search is dispatched exactly if the mnemonic it came to is handled. -/
lemma dispatched_found (t : InstrType) (f : Fields) (r : Option IName) :
    Dispatched (found t f r) ↔ ∀ n, r = some n → Handled n := by
  cases r with
  | none =>
      refine ⟨fun _ n hn => by simp at hn, fun _ => ⟨_, rfl, ?_⟩⟩
      exact (mem_initFuncMap .XXX).mpr (by decide)
  | some n =>
      rw [found, dispatched_named]
      simp

/-- A search over a table of handled mnemonics is dispatched. -/
lemma dispatched_of_rows {ρ : Type*} {rows : List (IName × ρ)}
    (hrows : ∀ r ∈ rows, Handled r.1) (t : InstrType) (f : Fields) (p : IName × ρ → Bool) :
    Dispatched (found t f ((rows.find? p).map Prod.fst)) := by
  rw [dispatched_found]
  intro n hn
  obtain ⟨r, hr, rfl⟩ := Option.map_eq_some_iff.mp hn
  exact hrows r (List.mem_of_find?_eq_some hr)

lemma dispatched_searchR (f : Fields) : Dispatched (searchR f) := by
  rw [searchR_eq]
  exact dispatched_of_rows (by decide) _ _ _

lemma dispatched_searchFpWithF3 (f : Fields) : Dispatched (searchFpWithF3 f) := by
  rw [searchFpWithF3_eq]
  exact dispatched_of_rows (by decide) _ _ _

lemma dispatched_searchI (f : Fields) : Dispatched (searchI f) := by
  rw [searchI_eq]
  refine dispatched_of_rows ?_ _ _ _
  intro r hr
  have h : ∀ r ∈ iRows, Handled r.1 := by decide
  exact h r (List.mem_of_mem_filter hr)

lemma dispatched_searchS (f : Fields) : Dispatched (searchS f) := by
  rw [searchS_eq]
  exact dispatched_of_rows (by decide) _ _ _

lemma dispatched_searchB (f : Fields) : Dispatched (searchB f) := by
  rw [searchB_eq]
  exact dispatched_of_rows (by decide) _ _ _

lemma dispatched_searchJ (f : Fields) : Dispatched (searchJ f) := by
  rw [searchJ_eq]
  exact dispatched_of_rows (by decide) _ _ _

lemma dispatched_searchU (f : Fields) : Dispatched (searchU f) := by
  rw [searchU_eq]
  exact dispatched_of_rows (by decide) _ _ _

/-- Of the four fused rows, the last one has no printed name. -/
lemma dispatched_searchR4 (f : Fields) :
    Dispatched (searchR4 f) ↔ ¬ (f.opCode = 0b1001111 ∧ f.funct2 = 0b00) := by
  have hrows : ∀ r ∈ r4Rows, Handled r.1 ∨ (r.2.1 = 0b1001111 ∧ r.2.2 = 0b00) := by decide
  rw [searchR4_eq, dispatched_found]
  constructor
  · rintro h ⟨hop, hf2⟩
    have hnot : Handled .FNMADDS := h .FNMADDS (by rw [hop, hf2]; rfl)
    exact absurd hnot (by decide)
  · intro h n hn
    obtain ⟨r, hr, rfl⟩ := Option.map_eq_some_iff.mp hn
    have hfit := List.find?_some hr
    rw [Bool.and_eq_true, beq_iff_eq, beq_iff_eq] at hfit
    rcases hrows r (List.mem_of_find?_eq_some hr) with hhandled | ⟨hop, hf2⟩
    · exact hhandled
    · exact absurd ⟨hfit.1.trans hop, hfit.2.symm.trans hf2⟩ h

/-- The mnemonic that a word without a `funct3` comes to. -/
lemma fpNameWithoutF3_handled (f7 : U8) (rs2 : Reg) :
    ∃ n, fpNameWithoutF3 0b1010011 f7 rs2 = .ok n
      ∧ (Handled n ↔ ¬ (f7 = 0b0101100 ∨ (f7 = 0b1101000 ∧ rs2 = 0b00010))) := by
  by_cases h1 : f7 = 0b1100000
  · subst h1
    refine ⟨_, rfl, ?_⟩
    revert rs2
    decide
  · by_cases h2 : f7 = 0b1101000
    · subst h2
      refine ⟨_, rfl, ?_⟩
      revert rs2
      decide
    · simp only [fpNameWithoutF3, beq_iff_eq, h1, h2, if_false, firstMatch_fpRows, ok_bind,
        pure_eq_ok, false_and, or_false, Except.ok.injEq, exists_eq_left']
      cases hfind : fpRows.find? fun r => r.2.2 == f7 && r.2.1 == 0b1010011 with
      | none =>
          -- the row of `FSQRTS` was not found either
          have hmem : (.FSQRTS, 0b1010011, 0b0101100) ∈ fpRows := by decide
          have hsqrt := List.find?_eq_none.mp hfind _ hmem
          refine iff_of_true (by decide) fun hf7 => hsqrt ?_
          rw [hf7]
          rfl
      | some r =>
          have hrows : ∀ r ∈ fpRows, r.2.1 = 0b1010011 →
              (Handled r.1 ↔ ¬ r.2.2 = 0b0101100) := by decide
          have hfit := List.find?_some hfind
          rw [Bool.and_eq_true, beq_iff_eq, beq_iff_eq] at hfit
          have hiff := hrows r (List.mem_of_find?_eq_some hfind) hfit.2
          rwa [hfit.1] at hiff

lemma dispatched_searchFpWithoutF3 (f : Fields) (hop : f.opCode = 0b1010011) :
    Dispatched (searchFpWithoutF3 f)
      ↔ ¬ (f.funct7 = 0b0101100 ∨ (f.funct7 = 0b1101000 ∧ f.rs2 = 0b00010)) := by
  obtain ⟨n, hn, hiff⟩ := fpNameWithoutF3_handled f.funct7 f.rs2
  rw [searchFpWithoutF3, hop, hn, ok_bind, dispatched_named, hiff]

/-- The uncached decoding of a word is dispatched unless the word is unhandled. -/
theorem dispatched_decodeOf_iff (w : U32) : Dispatched (decodeOf w) ↔ ¬ Unhandled w := by
  rw [decodeOf]
  split_ifs with hs hm
  · subst hs
    exact ⟨fun _ => by unfold Unhandled; decide, fun _ => ⟨_, rfl, by decide⟩⟩
  · subst hm
    exact ⟨fun _ => by unfold Unhandled; decide, fun _ => ⟨_, rfl, by decide⟩⟩
  · rw [fieldsOf, scanType_eq]
    have hR4 : formatOf (extractOpcode w) ≠ .R4 → extractOpcode w ≠ 0b1001111 := by
      intro h hop
      exact h (by rw [hop]; rfl)
    have hR : formatOf (extractOpcode w) ≠ .R → extractOpcode w ≠ 0b1010011 := by
      intro h hop
      exact h (by rw [hop]; rfl)
    have hnone : extractOpcode w ≠ 0b1001111 → extractOpcode w ≠ 0b1010011 → ¬ Unhandled w := by
      rintro h4 hfp (⟨hop, -⟩ | ⟨hop, -⟩)
      · exact h4 hop
      · exact hfp hop
    cases ht : formatOf (extractOpcode w) with
    | R4 =>
        have hfp := hR (by simp [ht])
        rw [searchOf, dispatched_searchR4]
        exact not_congr ⟨Or.inl, fun h => h.elim id fun h' => absurd h'.1 hfp⟩
    | R =>
        have h4 := hR4 (by simp [ht])
        rw [searchOf]
        by_cases hfp : extractOpcode w = 0b1010011
        · have hfp' : isFpInstr w = true := by simp [isFpInstr, hfp, fpROpcode]
          rw [if_pos hfp']
          by_cases hf3 : ignoreF3 w = true
          · rw [if_pos hf3, dispatched_searchFpWithoutF3 _ hfp]
            exact not_congr ⟨fun h => Or.inr ⟨hfp, h⟩,
              fun h => h.elim (fun h' => absurd h'.1 h4) fun h' => h'.2⟩
          · rw [if_neg hf3, iff_true_left (dispatched_searchFpWithF3 _)]
            rintro (⟨hop, -⟩ | ⟨-, hf7 | ⟨hf7, -⟩⟩)
            · exact h4 hop
            · exact hf3 (by rw [ignoreF3, hf7]; rfl)
            · exact hf3 (by rw [ignoreF3, hf7]; rfl)
        · have hfp' : isFpInstr w = false := by simpa [isFpInstr, fpROpcode] using hfp
          rw [hfp', if_neg (by simp), iff_true_left (dispatched_searchR _)]
          exact hnone h4 hfp
    | I => exact iff_of_true (dispatched_searchI _) (hnone (hR4 (by simp [ht])) (hR (by simp [ht])))
    | S => exact iff_of_true (dispatched_searchS _) (hnone (hR4 (by simp [ht])) (hR (by simp [ht])))
    | B => exact iff_of_true (dispatched_searchB _) (hnone (hR4 (by simp [ht])) (hR (by simp [ht])))
    | U => exact iff_of_true (dispatched_searchU _) (hnone (hR4 (by simp [ht])) (hR (by simp [ht])))
    | J => exact iff_of_true (dispatched_searchJ _) (hnone (hR4 (by simp [ht])) (hR (by simp [ht])))
    | WRONG =>
        exact iff_of_true ⟨_, rfl, by decide⟩ (hnone (hR4 (by simp [ht])) (hR (by simp [ht])))

/-- **Every word but the unhandled ones is decoded and dispatched**, whatever was decoded
before. -/
theorem dispatched_iff (history : List U32) (w : U32) :
    Dispatched ((InstructionDecoder.init.after history).decode w).1 ↔ ¬ Unhandled w := by
  rw [InstructionDecoder.decode_after, dispatched_decodeOf_iff]

/-- The word of `FNMADD.S f0, f0, f0, f0`: its decoding throws. -/
theorem not_dispatched_fnmadds :
    ((InstructionDecoder.init.after []).decode 0x0000004F).1 = .error .outOfRange
      ∧ ¬ Dispatched ((InstructionDecoder.init.after []).decode 0x0000004F).1 := by
  have h : decodeOf 0x0000004F = .error .outOfRange := by
    rw [@decodeOf_eq_search _ .R4 (by decide) (Or.inl (by decide)), searchOf, searchR4_eq]
    exact found_unprinted rfl ..
  rw [InstructionDecoder.decode_after, h]
  refine ⟨rfl, ?_⟩
  rintro ⟨ins, hins, -⟩
  simp at hins

end Vemu
