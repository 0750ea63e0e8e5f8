import Vemu.Decoder.Cache

/-!
# The table searches, as searches over joined tables

A row of the decoder's walk takes its opcode and its function codes from several maps, looked
up by mnemonic.  Here each walk is given the table of all it looks up, in the order it walks
in, and shown to be a plain search for the first row that fits (`searchR_eq`, …): the lookups
that a walk makes in the other maps never fail.  What can still fail is the lookup of the
printed name of the row that was found.
-/

namespace Vemu

open Fallible OrderedMap

/-! ## The joined tables -/

/-- The rows of `decode_r`: mnemonic, opcode, `funct3` and `funct7`. -/
def rRows : List (IName × U8 × U8 × U8) :=
  [ (.ADDW, 0b0111011, 0b000, 0b0000000), (.ADD, 0b0110011, 0b000, 0b0000000),
    (.SUB, 0b0110011, 0b000, 0b0100000), (.SUBW, 0b0111011, 0b000, 0b0100000),
    (.SLL, 0b0110011, 0b001, 0b0000000), (.SLLW, 0b0111011, 0b001, 0b0000000),
    (.SLT, 0b0110011, 0b010, 0b0000000), (.SLTU, 0b0110011, 0b011, 0b0000000),
    (.XOR, 0b0110011, 0b100, 0b0000000), (.SRL, 0b0110011, 0b101, 0b0000000),
    (.SRLW, 0b0111011, 0b101, 0b0000000), (.SRA, 0b0110011, 0b101, 0b0100000),
    (.SRAW, 0b0111011, 0b101, 0b0100000), (.OR, 0b0110011, 0b110, 0b0000000),
    (.AND, 0b0110011, 0b111, 0b0000000), (.MUL, 0b0110011, 0b000, 0b0000001),
    (.MULH, 0b0110011, 0b001, 0b0000001), (.MULHSU, 0b0110011, 0b010, 0b0000001),
    (.MULHU, 0b0110011, 0b011, 0b0000001), (.DIV, 0b0110011, 0b100, 0b0000001),
    (.DIVU, 0b0110011, 0b101, 0b0000001), (.REM, 0b0110011, 0b110, 0b0000001),
    (.REMU, 0b0110011, 0b111, 0b0000001), (.MULW, 0b0111011, 0b000, 0b0000001),
    (.DIVW, 0b0111011, 0b100, 0b0000001), (.DIVUW, 0b0111011, 0b101, 0b0000001),
    (.REMW, 0b0111011, 0b110, 0b0000001), (.REMUW, 0b0111011, 0b111, 0b0000001),
    (.LRW, 0b0101111, 0b010, 0b0001000), (.SCW, 0b0101111, 0b010, 0b0001100),
    (.AMOSWAPW, 0b0101111, 0b010, 0b0000100), (.AMOADDW, 0b0101111, 0b010, 0b0000000),
    (.AMOXORW, 0b0101111, 0b010, 0b0010000), (.AMOANDW, 0b0101111, 0b010, 0b0110000),
    (.AMOORW, 0b0101111, 0b010, 0b0100000), (.AMOMINW, 0b0101111, 0b010, 0b1000000),
    (.AMOMAXW, 0b0101111, 0b010, 0b1010000), (.AMOMINUW, 0b0101111, 0b010, 0b1100000),
    (.AMOMAXUW, 0b0101111, 0b010, 0b1110000), (.LRD, 0b0101111, 0b011, 0b0001000),
    (.SCD, 0b0101111, 0b011, 0b0001100), (.AMOSWAPD, 0b0101111, 0b011, 0b0000100),
    (.AMOADDD, 0b0101111, 0b011, 0b0000000), (.AMOXORD, 0b0101111, 0b011, 0b0010000),
    (.AMOANDD, 0b0101111, 0b011, 0b0110000), (.AMOORD, 0b0101111, 0b011, 0b0100000),
    (.AMOMIND, 0b0101111, 0b011, 0b1000000), (.AMOMAXD, 0b0101111, 0b011, 0b1010000),
    (.AMOMINUD, 0b0101111, 0b011, 0b1100000), (.AMOMAXUD, 0b0101111, 0b011, 0b1110000),
    (.FSGNJS, 0b1010011, 0b000, 0b0010000), (.FSGNJNS, 0b1010011, 0b001, 0b0010000),
    (.FSGNJXS, 0b1010011, 0b010, 0b0010000), (.FMINS, 0b1010011, 0b000, 0b0010100),
    (.FMAXS, 0b1010011, 0b001, 0b0010100), (.FMVXW, 0b1010011, 0b000, 0b1110000),
    (.FEQS, 0b1010011, 0b010, 0b1010000), (.FLTS, 0b1010011, 0b001, 0b1010000),
    (.FLES, 0b1010011, 0b000, 0b1010000), (.FCLASSS, 0b1010011, 0b001, 0b1110000),
    (.FMVWX, 0b1010011, 0b000, 0b1111000)]

/-- The rows of `decode_fp_without_f3`: mnemonic, opcode and `funct7`. -/
def fpRows : List (IName × U8 × U8) :=
  [ (.ADDW, 0b0111011, 0b0000000), (.ADD, 0b0110011, 0b0000000), (.SUB, 0b0110011, 0b0100000),
    (.SUBW, 0b0111011, 0b0100000), (.SLL, 0b0110011, 0b0000000), (.SLLW, 0b0111011, 0b0000000),
    (.SLT, 0b0110011, 0b0000000), (.SLTU, 0b0110011, 0b0000000), (.XOR, 0b0110011, 0b0000000),
    (.SRL, 0b0110011, 0b0000000), (.SRLW, 0b0111011, 0b0000000), (.SRA, 0b0110011, 0b0100000),
    (.SRAW, 0b0111011, 0b0100000), (.OR, 0b0110011, 0b0000000), (.AND, 0b0110011, 0b0000000),
    (.MUL, 0b0110011, 0b0000001), (.MULH, 0b0110011, 0b0000001), (.MULHSU, 0b0110011, 0b0000001),
    (.MULHU, 0b0110011, 0b0000001), (.DIV, 0b0110011, 0b0000001), (.DIVU, 0b0110011, 0b0000001),
    (.REM, 0b0110011, 0b0000001), (.REMU, 0b0110011, 0b0000001), (.MULW, 0b0111011, 0b0000001),
    (.DIVW, 0b0111011, 0b0000001), (.DIVUW, 0b0111011, 0b0000001), (.REMW, 0b0111011, 0b0000001),
    (.REMUW, 0b0111011, 0b0000001), (.LRW, 0b0101111, 0b0001000), (.SCW, 0b0101111, 0b0001100),
    (.AMOSWAPW, 0b0101111, 0b0000100), (.AMOADDW, 0b0101111, 0b0000000),
    (.AMOXORW, 0b0101111, 0b0010000), (.AMOANDW, 0b0101111, 0b0110000),
    (.AMOORW, 0b0101111, 0b0100000), (.AMOMINW, 0b0101111, 0b1000000),
    (.AMOMAXW, 0b0101111, 0b1010000), (.AMOMINUW, 0b0101111, 0b1100000),
    (.AMOMAXUW, 0b0101111, 0b1110000), (.LRD, 0b0101111, 0b0001000), (.SCD, 0b0101111, 0b0001100),
    (.AMOSWAPD, 0b0101111, 0b0000100), (.AMOADDD, 0b0101111, 0b0000000),
    (.AMOXORD, 0b0101111, 0b0010000), (.AMOANDD, 0b0101111, 0b0110000),
    (.AMOORD, 0b0101111, 0b0100000), (.AMOMIND, 0b0101111, 0b1000000),
    (.AMOMAXD, 0b0101111, 0b1010000), (.AMOMINUD, 0b0101111, 0b1100000),
    (.AMOMAXUD, 0b0101111, 0b1110000), (.FADDS, 0b1010011, 0b0000000),
    (.FSUBS, 0b1010011, 0b0000100), (.FMULS, 0b1010011, 0b0001000),
    (.FDIVS, 0b1010011, 0b0001100), (.FSQRTS, 0b1010011, 0b0101100),
    (.FSGNJS, 0b1010011, 0b0010000), (.FSGNJNS, 0b1010011, 0b0010000),
    (.FSGNJXS, 0b1010011, 0b0010000), (.FMINS, 0b1010011, 0b0010100),
    (.FMAXS, 0b1010011, 0b0010100), (.FCVTWS, 0b1010011, 0b1100000),
    (.FCVTWUS, 0b1010011, 0b1100000), (.FMVXW, 0b1010011, 0b1110000),
    (.FEQS, 0b1010011, 0b1010000), (.FLTS, 0b1010011, 0b1010000), (.FLES, 0b1010011, 0b1010000),
    (.FCLASSS, 0b1010011, 0b1110000), (.FCVTSW, 0b1010011, 0b1101000),
    (.FCVTSWU, 0b1010011, 0b1101000), (.FMVWX, 0b1010011, 0b1111000),
    (.FCVTLS, 0b1010011, 0b1100000), (.FCVTLUS, 0b1010011, 0b1100000),
    (.FCVTSLU, 0b1010011, 0b1101000)]

/-- The rows of `decode_r4`: mnemonic, opcode and `funct2`. -/
def r4Rows : List (IName × U8 × U8) :=
  [ (.FMADDS, 0b1000011, 0b00), (.FMSUBS, 0b1000111, 0b00), (.FNMSUBS, 0b1001011, 0b00),
    (.FNMADDS, 0b1001111, 0b00)]

/-- The rows of `decode_i`: mnemonic, opcode and `funct3`. -/
def iRows : List (IName × U8 × U8) :=
  [ (.LB, 0b0000011, 0b000), (.LH, 0b0000011, 0b001), (.LW, 0b0000011, 0b010),
    (.LBU, 0b0000011, 0b100), (.LHU, 0b0000011, 0b101), (.LD, 0b0000011, 0b011),
    (.LWU, 0b0000011, 0b110), (.ADDI, 0b0010011, 0b000), (.ADDIW, 0b0011011, 0b000),
    (.SLTI, 0b0010011, 0b010), (.SLTIU, 0b0010011, 0b011), (.XORI, 0b0010011, 0b100),
    (.ORI, 0b0010011, 0b110), (.ANDI, 0b0010011, 0b111), (.SLLI, 0b0010011, 0b001),
    (.SRLI, 0b0010011, 0b101), (.SRAI, 0b0010011, 0b101), (.SLLIW, 0b0011011, 0b001),
    (.SRLIW, 0b0011011, 0b101), (.SRAIW, 0b0011011, 0b101), (.FENCE, 0b0001111, 0b000),
    (.FENCEI, 0b0001111, 0b001), (.ECALL, 0b1110011, 0b000), (.EBREAK, 0b1110011, 0b000),
    (.CSRRW, 0b1110011, 0b001), (.CSRRS, 0b1110011, 0b010), (.CSRRC, 0b1110011, 0b011),
    (.CSRRWI, 0b1110011, 0b101), (.CSRRSI, 0b1110011, 0b110), (.CSRRCI, 0b1110011, 0b111),
    (.JALR, 0b1100111, 0b000), (.FLW, 0b0000111, 0b010)]

/-- The rows of `decode_s`: mnemonic, opcode and `funct3`. -/
def sRows : List (IName × U8 × U8) :=
  [ (.SB, 0b0100011, 0b000), (.SH, 0b0100011, 0b001), (.SW, 0b0100011, 0b010),
    (.SD, 0b0100011, 0b011), (.FSW, 0b0100111, 0b010)]

/-- The rows of `decode_b`. -/
def bRows : List (IName × U8 × U8) :=
  [ (.BEQ, 0b1100011, 0b000), (.BNE, 0b1100011, 0b001), (.BLT, 0b1100011, 0b100),
    (.BGE, 0b1100011, 0b101), (.BLTU, 0b1100011, 0b110), (.BGEU, 0b1100011, 0b111)]

/-- The entries of a map, from the rows of a joined table. -/
def entries {ρ : Type} (rows : List (IName × ρ)) (val : ρ → U8) : List (IName × U8) :=
  rows.map fun r => (r.1, val r.2)

/-- **Every map holds one column of its joined table**, and the rows with a `funct3` are among
all rows of the R format. -/
lemma maps_eq :
    (rFunct3 = entries rRows (·.2.1) ∧ rOpcodes = entries fpRows (·.1)
      ∧ rFunct7 = entries fpRows (·.2)
      ∧ (rRows.map fun r => (r.1, r.2.1, r.2.2.2)).Sublist fpRows)
    ∧ (r4Funct2 = entries r4Rows (·.2) ∧ r4Opcodes = entries r4Rows (·.1))
    ∧ (iFunct3 = entries iRows (·.2) ∧ iOpcodes = entries iRows (·.1)
      ∧ iFunct7 = [(.SLLI, 0b0000000), (.SRLI, 0b0000000), (.SRAI, 0b0100000),
          (.SLLIW, 0b0000000), (.SRLIW, 0b0000000), (.SRAIW, 0b0100000)]
      ∧ iFunct6 = [(.SLLI, 0b000000), (.SRLI, 0b000000), (.SRAI, 0b010000)])
    ∧ (sFunct3 = entries sRows (·.2) ∧ sOpcodes = entries sRows (·.1))
    ∧ (bFunct3 = entries bRows (·.2) ∧ bOpcodes = entries bRows (·.1)) := by
  decide +kernel

/-- A map that holds a column of a table gives the entry of every row. -/
lemma lookup_entries {ρ : Type} {rows : List (IName × ρ)} {val : ρ → U8} {m : List (IName × U8)}
    (hm : Sorted IName.rank m) (h : m = entries rows val) {r : IName × ρ} (hr : r ∈ rows) :
    find? m r.1 = some (val r.2) := by
  have hmem : (r.1, val r.2) ∈ m := by
    rw [h]
    exact List.mem_map.mpr ⟨r, hr, rfl⟩
  exact hm.find?_of_mem hmem

/-! ## R format -/

lemma fpRows_lookup {r : IName × U8 × U8} (hr : r ∈ fpRows) :
    find? rOpcodes r.1 = some r.2.1 ∧ find? rFunct7 r.1 = some r.2.2 :=
  ⟨lookup_entries (sorted_ofEntries _ _) maps_eq.1.2.1 hr,
    lookup_entries (sorted_ofEntries _ _) maps_eq.1.2.2.1 hr⟩

lemma rRows_lookup {r : IName × U8 × U8 × U8} (hr : r ∈ rRows) :
    find? rOpcodes r.1 = some r.2.1 ∧ find? rFunct7 r.1 = some r.2.2.2 :=
  fpRows_lookup (maps_eq.1.2.2.2.subset (List.mem_map.mpr ⟨r, hr, rfl⟩))

/-- Whether a row fits: the last two bits of an atomic's `funct7` are let go. -/
def fitsR (op f3 f7 : U8) (r : IName × U8 × U8 × U8) : Bool :=
  op == r.2.1 && r.2.2.1 == f3 && (r.2.2.2 == f7 || op == amOpcode && f7 &&& ~~~3 == r.2.2.2)

theorem searchR_eq (f : Fields) :
    searchR f
      = found .R f ((rRows.find? (fitsR f.opCode f.funct3 f.funct7)).map Prod.fst) := by
  rw [searchR, maps_eq.1.1, entries, firstMatch_map rRows, ok_bind]
  intro r hr
  obtain ⟨hop, hf7⟩ := rRows_lookup hr
  simp only [matchR, getOpcode, mapAt, hop, hf7, orFault_some, ok_bind, fitsR]
  cases f.opCode == r.2.1 <;> cases r.2.2.1 == f.funct3 <;> cases r.2.2.2 == f.funct7 <;>
    cases f.opCode == amOpcode <;> simp

/-- Whether a row fits a single-precision instruction that has a `funct3`. -/
def fitsFp (op f3 f7 : U8) (r : IName × U8 × U8 × U8) : Bool :=
  f3 == r.2.2.1 && op == r.2.1 && f7 == r.2.2.2

theorem searchFpWithF3_eq (f : Fields) :
    searchFpWithF3 f
      = found .R f ((rRows.find? (fitsFp f.opCode f.funct3 f.funct7)).map Prod.fst) := by
  rw [searchFpWithF3, maps_eq.1.1, entries, firstMatch_map rRows, ok_bind]
  intro r hr
  obtain ⟨hop, hf7⟩ := rRows_lookup hr
  simp only [matchFpWithF3, getOpcode, mapAt, hop, hf7, orFault_some, ok_bind, fitsFp,
    pure_eq_ok]

/-- The walk that `decode_fp_without_f3` makes when the second source register does not decide. -/
theorem firstMatch_fpRows (op f7 : U8) :
    firstMatch (matchFpWithoutF3 op f7) rFunct7
      = .ok ((fpRows.find? fun r => r.2.2 == f7 && r.2.1 == op).map Prod.fst) := by
  rw [maps_eq.1.2.2.1, entries, firstMatch_map fpRows]
  intro r hr
  simp only [matchFpWithoutF3, getOpcode, mapAt, (fpRows_lookup hr).1, orFault_some, ok_bind,
    pure_eq_ok]

/-! ## R4 format -/

lemma r4Rows_lookup {r : IName × U8 × U8} (hr : r ∈ r4Rows) : find? r4Opcodes r.1 = some r.2.1 :=
  lookup_entries (sorted_ofEntries _ _) maps_eq.2.1.2 hr

theorem searchR4_eq (f : Fields) :
    searchR4 f
      = found .R4 f
          ((r4Rows.find? fun r => f.opCode == r.2.1 && r.2.2 == f.funct2).map Prod.fst) := by
  rw [searchR4, maps_eq.2.1.1, entries, firstMatch_map r4Rows, ok_bind]
  intro r hr
  simp only [matchR4, getOpcode, mapAt, r4Rows_lookup hr, orFault_some, ok_bind, pure_eq_ok]

/-! ## I format -/

lemma iRows_lookup {r : IName × U8 × U8} (hr : r ∈ iRows) : find? iOpcodes r.1 = some r.2.1 :=
  lookup_entries (sorted_ofEntries _ _) maps_eq.2.2.1.2.1 hr

/-- What a row of the I table asks for besides its opcode and `funct3`. -/
def iGuard (f7 f6 : U8) (imm : U32) : IName → Bool
  | .ECALL => imm == 0
  | .EBREAK => imm == 1
  | .SLLIW | .SRLIW => 0b0000000 == f7
  | .SRAIW => 0b0100000 == f7
  | .SLLI | .SRLI => 0b000000 == f6
  | .SRAI => 0b010000 == f6
  | _ => true

/-- The test of a row of the I table: opcode, `funct3` and the row's own condition. -/
lemma matchI_eq {op f3 f7 f6 insOp insF3 : U8} {imm : U32} {ins : IName}
    (hop : find? iOpcodes ins = some insOp) :
    matchI op f3 f7 f6 imm ins insF3
      = .ok (insOp == op && insF3 == f3 && iGuard f7 f6 imm ins) := by
  simp only [matchI, getOpcode, mapAt, hop, orFault_some, ok_bind]
  by_cases h : insOp = op ∧ insF3 = f3
  · obtain ⟨rfl, rfl⟩ := h
    have hf7 := maps_eq.2.2.1.2.2.1
    have hf6 := maps_eq.2.2.1.2.2.2
    cases ins <;>
      simp [iGuard, isShiftImm32Instruction, isShiftImm64Instruction, getIFunct7, getIFunct6,
        mapAt, hf7, hf6, find?_cons]
  · have hne : (insOp == op && insF3 == f3) = false := by simpa using h
    have hne' : (op == insOp && insF3 == f3) = false := by simpa [@eq_comm _ op] using h
    simp only [hne, Bool.false_and, Bool.and_assoc, hne', Bool.and_false, if_false,
      Bool.false_eq_true, pure_eq_ok]

theorem searchI_eq (f : Fields) :
    searchI f
      = found .I f (((iRows.filter fun r => r.2.1 == f.opCode && r.2.2 == f.funct3).find? fun r =>
          iGuard f.funct7 f.funct6 f.imm r.1).map Prod.fst) := by
  rw [searchI, maps_eq.2.2.1.1, entries, firstMatch_map iRows, ok_bind, List.find?_filter]
  intro r hr
  simp [matchI_eq (iRows_lookup hr), ← Bool.beq_eq_decide_eq]

/-! ## S, B, J and U formats -/

lemma sRows_lookup {r : IName × U8 × U8} (hr : r ∈ sRows) : find? sOpcodes r.1 = some r.2.1 :=
  lookup_entries (sorted_ofEntries _ _) maps_eq.2.2.2.1.2 hr

theorem searchS_eq (f : Fields) :
    searchS f
      = found .S f
          ((sRows.find? fun r => f.opCode == r.2.1 && r.2.2 == f.funct3).map Prod.fst) := by
  rw [searchS, maps_eq.2.2.2.1.1, entries, firstMatch_map sRows, ok_bind]
  intro r hr
  simp only [matchOpF3, getOpcode, mapAt, sRows_lookup hr, orFault_some, ok_bind, pure_eq_ok]

lemma bRows_lookup {r : IName × U8 × U8} (hr : r ∈ bRows) : find? bOpcodes r.1 = some r.2.1 :=
  lookup_entries (sorted_ofEntries _ _) maps_eq.2.2.2.2.2 hr

theorem searchB_eq (f : Fields) :
    searchB f
      = found .B f
          ((bRows.find? fun r => f.opCode == r.2.1 && r.2.2 == f.funct3).map Prod.fst) := by
  rw [searchB, maps_eq.2.2.2.2.1, entries, firstMatch_map bRows, ok_bind]
  intro r hr
  simp only [matchOpF3, getOpcode, mapAt, bRows_lookup hr, orFault_some, ok_bind, pure_eq_ok]

theorem searchJ_eq (f : Fields) :
    searchJ f = found .J f ((jOpcodes.find? fun e => e.2 == f.opCode).map Prod.fst) := by
  have h := @firstMatch_map _ _ _ _ (matchOp f.opCode) id (fun e => e.2 == f.opCode) jOpcodes
    fun _ _ => rfl
  rw [searchJ, ← List.map_id jOpcodes, h, ok_bind, List.map_id]
  rfl

theorem searchU_eq (f : Fields) :
    searchU f = found .U f ((uOpcodes.find? fun e => e.2 == f.opCode).map Prod.fst) := by
  have h := @firstMatch_map _ _ _ _ (matchOp f.opCode) id (fun e => e.2 == f.opCode) uOpcodes
    fun _ _ => rfl
  rw [searchU, ← List.map_id uOpcodes, h, ok_bind, List.map_id]
  rfl

/-! ## Formats -/

/-- The format of an opcode, as the opcode tables together define it. -/
def formatOf (op : U8) : InstrType :=
  if op == 0b0000011 || op == 0b0010011 || op == 0b0011011 || op == 0b1100111 || op == 0b0001111
      || op == 0b1110011 || op == 0b0000111 then .I
  else if op == 0b1101111 then .J
  else if op == 0b0100011 || op == 0b0100111 then .S
  else if op == 0b1100011 then .B
  else if op == 0b0110011 || op == 0b0111011 || op == 0b0101111 || op == 0b1010011 then .R
  else if op == 0b1000011 || op == 0b1000111 || op == 0b1001011 || op == 0b1001111 then .R4
  else if op == 0b0110111 || op == 0b0010111 then .U
  else .WRONG

/-- The opcodes that occur in the tables, format by format. -/
lemma scanType_eq (op : U8) : scanType op = formatOf op := by
  have hi := @any_snd _ _ _ iOpcodes [0b0000011, 0b0010011, 0b0011011, 0b1100111, 0b0001111,
    0b1110011, 0b0000111] (by decide +kernel) (by decide +kernel) op
  have hj := @any_snd _ _ _ jOpcodes [0b1101111] (by decide +kernel) (by decide +kernel) op
  have hs := @any_snd _ _ _ sOpcodes [0b0100011, 0b0100111] (by decide +kernel)
    (by decide +kernel) op
  have hb := @any_snd _ _ _ bOpcodes [0b1100011] (by decide +kernel) (by decide +kernel) op
  have hr := @any_snd _ _ _ rOpcodes [0b0110011, 0b0111011, 0b0101111, 0b1010011]
    (by decide +kernel) (by decide +kernel) op
  have hr4 := @any_snd _ _ _ r4Opcodes [0b1000011, 0b1000111, 0b1001011, 0b1001111]
    (by decide +kernel) (by decide +kernel) op
  have hu := @any_snd _ _ _ uOpcodes [0b0110111, 0b0010111] (by decide +kernel)
    (by decide +kernel) op
  simp only [List.any_cons, List.any_nil, Bool.or_false] at hi hj hs hb hr hr4 hu
  simp only [scanType, hi, hj, hs, hb, hr, hr4, hu, formatOf, Bool.or_assoc]

/-- A word that is not one of the two trap returns is decoded by its table. -/
lemma decodeOf_eq_search {w : U32} {t : InstrType} (ht : formatOf (extractOpcode w) = t)
    (h : extractOpcode w ≠ 0b1110011 ∨ extractFunct3 w ≠ 0) :
    decodeOf w = searchOf w t (fieldsWith w (immediateOf w t)) := by
  have hs : w ≠ sretWord := by
    rintro rfl
    revert h
    decide
  have hm : w ≠ mretWord := by
    rintro rfl
    revert h
    decide
  simp only [decodeOf, hs, hm, if_false, fieldsOf, scanType_eq, ht]

/-! ## Printed names -/

/-- The mnemonics without a printed name. -/
def unprinted (n : IName) : Bool := n = .FNMADDS || n = .FCVTSL

lemma keys_instStringNames :
    instStringNames.map Prod.fst = IName.all.filter fun n => !unprinted n := by decide +kernel

lemma find?_instStringNames (n : IName) :
    (find? instStringNames n).isSome = !unprinted n := by
  rw [isSome_find?, keys_instStringNames]
  simp [n.mem_all]

/-- A row with a printed name gives its instruction. -/
lemma found_some {n : IName} (hn : unprinted n = false) (t : InstrType) (f : Fields) :
    ∃ s, found t f (some n) = .ok ⟨t, n, f, s⟩ := by
  have h := find?_instStringNames n
  rw [hn] at h
  obtain ⟨s, hs⟩ := Option.isSome_iff_exists.mp h
  exact ⟨s, by simp [found, getStringName, mapAt, hs]⟩

/-- A row without a printed name ends the search with the fault of `at`. -/
lemma found_unprinted {n : IName} (hn : unprinted n = true) (t : InstrType) (f : Fields) :
    found t f (some n) = .error .outOfRange := by
  have h := find?_instStringNames n
  rw [hn] at h
  have hnone : find? instStringNames n = none := by simpa using h
  simp [found, getStringName, mapAt, hnone]

end Vemu
