import Vemu.DecoderTables

/-!
# The instruction decoder

`decode` looks a word up in the instruction cache, and otherwise finds its format from the
opcode and walks that format's table for the first row that fits the word's fields.  The two
caches are the decoder's state.  It is written in `DecodeM`, which keeps the state when a map
lookup throws: a word whose decoding throws leaves behind the opcode it has cached, and no
instruction.

Every `decode…` function of the source first takes the fields apart and then searches a table.
The search is a function of the fields alone and is kept apart here (`search…`): it is the
part that can throw, and the part that does not touch the caches.
-/

namespace Vemu

open Fallible OrderedMap

/-- The decoder: a cache of decoded words and one of opcode formats. -/
structure InstructionDecoder where
  instrCache : U32 → Option Instruction
  opcodeToTypeCache : U8 → Option InstrType

/-- Decoding: it may throw, and what it did to the caches stays. -/
abbrev DecodeM := ExceptT Fault (StateM InstructionDecoder)

def amOpcode : U8 := 0b0101111
def fpROpcode : U8 := 0b1010011

/-! ## Construction -/

def mretWord : U32 := 0x30200073
def sretWord : U32 := 0x10200073

def mretInstr : Instruction :=
  { t := .R, name := .MRET, strName := "MRET"
    f := { Fields.zero with opCode := 0b1110011, rs2 := 0b00010, funct7 := 0b0011000 } }

def sretInstr : Instruction :=
  { t := .R, name := .SRET, strName := "SRET"
    f := { Fields.zero with opCode := 0b1110011, rs2 := 0b00010, funct7 := 0b0001000 } }

/-- The constructor: the words of `MRET` and `SRET` are cached beforehand. -/
def InstructionDecoder.init : InstructionDecoder where
  instrCache := Function.update (Function.update (fun _ => none) mretWord (some mretInstr))
    sretWord (some sretInstr)
  opcodeToTypeCache := fun _ => none

/-! ## Formats -/

/-- The walk of `instr_type` over the opcode tables, in its order. -/
def scanType (op : U8) : InstrType :=
  if iOpcodes.any fun e => op == e.2 then .I
  else if jOpcodes.any fun e => op == e.2 then .J
  else if sOpcodes.any fun e => op == e.2 then .S
  else if bOpcodes.any fun e => op == e.2 then .B
  else if rOpcodes.any fun e => op == e.2 then .R
  else if r4Opcodes.any fun e => op == e.2 then .R4
  else if uOpcodes.any fun e => op == e.2 then .U
  else .WRONG

/-- `instr_type` of an opcode, through its cache. -/
def instrTypeOfOp (op : U8) : StateM InstructionDecoder InstrType := do
  match (← get).opcodeToTypeCache op with
  | some t => return t
  | none =>
      let t := scanType op
      modify fun d => { d with opcodeToTypeCache := Function.update d.opcodeToTypeCache op t }
      return t

def instrType (inst : U32) : StateM InstructionDecoder InstrType :=
  instrTypeOfOp (extractOpcode inst)

/-- The immediate in a word of the given format. -/
def immediateOf (inst : U32) : InstrType → U32
  | .WRONG | .R | .R4 => 0
  | .I => immI inst
  | .J => immJ inst
  | .B => immB inst
  | .S => immS inst
  | .U => immU inst

def getImmediate (inst : U32) : StateM InstructionDecoder U32 := do
  return immediateOf inst (← instrType inst)

/-- The fields of a word with the given immediate. -/
def fieldsWith (inst imm : U32) : Fields where
  opCode := extractOpcode inst
  rd := extractRd inst
  funct3 := extractFunct3 inst
  rs1 := extractRs1 inst
  rs2 := extractRs2 inst
  funct7 := extractFunct7 inst
  shamt32 := extractShamt32 inst
  shamt64 := extractShamt64 inst
  funct6 := extractFunct6 inst
  imm := imm
  funct2 := extractFunct2 inst
  rs3 := extractRs3 inst

def getFields (inst : U32) : StateM InstructionDecoder Fields := do
  return fieldsWith inst (← getImmediate inst)

/-! ## Map lookups -/

/-- `std::map::at`. -/
def mapAt {α : Type} (m : List (IName × α)) (n : IName) : Except Fault α :=
  orFault .outOfRange (find? m n)

def getOpcode (n : IName) : InstrType → Except Fault U8
  | .R => mapAt rOpcodes n
  | .I => mapAt iOpcodes n
  | .S => mapAt sOpcodes n
  | .B => mapAt bOpcodes n
  | .U => mapAt uOpcodes n
  | .J => mapAt jOpcodes n
  | .R4 => mapAt r4Opcodes n
  | .WRONG => .ok 0xFF

def getStringName (n : IName) : Except Fault String := mapAt instStringNames n

def getIFunct7 (n : IName) : Except Fault U8 :=
  if n = .XXX then .ok 0xFF else mapAt iFunct7 n

def getIFunct6 (n : IName) : Except Fault U8 :=
  if n = .XXX then .ok 0xFF else mapAt iFunct6 n

def isShiftImm32Instruction (n : IName) : Bool := n = .SLLIW || n = .SRLIW || n = .SRAIW

def isShiftImm64Instruction (n : IName) : Bool := n = .SLLI || n = .SRLI || n = .SRAI

/-! ## Searching the tables

Each `match…` is the test that a row of the table has to pass, with the lookups it makes on the
way; each `search…` walks the table with it and builds the instruction. -/

/-- The result of a search: the row that was found, or the instruction `XXX`. -/
def found (t : InstrType) (f : Fields) : Option IName → Except Fault Instruction
  | some ins => do
      let s ← getStringName ins
      return ⟨t, ins, f, s⟩
  | none => .ok ⟨.WRONG, .XXX, f, "XXX"⟩

/-- The test of `decode_r`.  The last two bits of `funct7` of an atomic are its `aq` and `rl`
bits and are left out of a second comparison. -/
def matchR (op f3 f7 : U8) (ins : IName) (insF3 : U8) : Except Fault Bool := do
  let insOpcode ← getOpcode ins .R
  let insF7 ← mapAt rFunct7 ins
  if op == insOpcode && insF3 == f3 && insF7 == f7 then return true
  else if op == insOpcode && insF3 == f3 && op == amOpcode then return (f7 &&& ~~~3) == insF7
  else return false

def searchR (f : Fields) : Except Fault Instruction := do
  found .R f (← firstMatch (matchR f.opCode f.funct3 f.funct7) rFunct3)

def matchFpWithF3 (op f3 f7 : U8) (ins : IName) (insF3 : U8) : Except Fault Bool := do
  let insOpcode ← getOpcode ins .R
  let insF7 ← mapAt rFunct7 ins
  return f3 == insF3 && op == insOpcode && f7 == insF7

def searchFpWithF3 (f : Fields) : Except Fault Instruction := do
  found .R f (← firstMatch (matchFpWithF3 f.opCode f.funct3 f.funct7) rFunct3)

def matchFpWithoutF3 (op f7 : U8) (ins : IName) (insF7 : U8) : Except Fault Bool := do
  let insOpcode ← getOpcode ins .R
  return insF7 == f7 && insOpcode == op

/-- The mnemonic that `decode_fp_without_f3` settles on. -/
def fpNameWithoutF3 (op f7 : U8) (rs2 : Reg) : Except Fault IName :=
  if f7 == 0b1100000 then
    .ok (match rs2 with
      | 0b00000 => .FCVTWS
      | 0b00001 => .FCVTWUS
      | 0b00010 => .FCVTLS
      | 0b00011 => .FCVTLUS
      | _ => .XXX)
  else if f7 == 0b1101000 then
    .ok (match rs2 with
      | 0b00000 => .FCVTSW
      | 0b00001 => .FCVTSWU
      | 0b00010 => .FCVTSL
      | 0b00011 => .FCVTSLU
      | _ => .XXX)
  else do
    let r ← firstMatch (matchFpWithoutF3 op f7) rFunct7
    return r.getD .XXX

def searchFpWithoutF3 (f : Fields) : Except Fault Instruction := do
  let ins ← fpNameWithoutF3 f.opCode f.funct7 f.rs2
  let s ← getStringName ins
  return ⟨.R, ins, f, s⟩

def matchR4 (op f2 : U8) (ins : IName) (insF2 : U8) : Except Fault Bool := do
  let insOpcode ← getOpcode ins .R4
  return op == insOpcode && insF2 == f2

def searchR4 (f : Fields) : Except Fault Instruction := do
  found .R4 f (← firstMatch (matchR4 f.opCode f.funct2) r4Funct2)

/-- The test of `decode_i`: shifts by an immediate look at `funct7` or `funct6`, and the two
environment instructions at their immediate. -/
def matchI (op f3 f7 f6 : U8) (imm : U32) (ins : IName) (insF3 : U8) : Except Fault Bool := do
  let insOpcode ← getOpcode ins .I
  if insOpcode == op && insF3 == f3
      && !isShiftImm32Instruction ins && !isShiftImm64Instruction ins then
    return (ins = .ECALL && imm == 0) || (ins = .EBREAK && imm == 1)
      || (ins ≠ .EBREAK && ins ≠ .ECALL)
  else if isShiftImm32Instruction ins && op == insOpcode && insF3 == f3 then
    return (← getIFunct7 ins) == f7
  else if isShiftImm64Instruction ins && op == insOpcode && insF3 == f3 then
    return (← getIFunct6 ins) == f6
  else return false

def searchI (f : Fields) : Except Fault Instruction := do
  found .I f (← firstMatch (matchI f.opCode f.funct3 f.funct7 f.funct6 f.imm) iFunct3)

/-- The test of `decode_b` and `decode_s`: opcode and `funct3`. -/
def matchOpF3 (t : InstrType) (op f3 : U8) (ins : IName) (insF3 : U8) : Except Fault Bool := do
  let insOpcode ← getOpcode ins t
  return op == insOpcode && insF3 == f3

def searchB (f : Fields) : Except Fault Instruction := do
  found .B f (← firstMatch (matchOpF3 .B f.opCode f.funct3) bFunct3)

def searchS (f : Fields) : Except Fault Instruction := do
  found .S f (← firstMatch (matchOpF3 .S f.opCode f.funct3) sFunct3)

/-- The test of `decode_j` and `decode_u`: the opcode. -/
def matchOp (op : U8) (_ : IName) (insOp : U8) : Except Fault Bool := .ok (insOp == op)

def searchJ (f : Fields) : Except Fault Instruction := do
  found .J f (← firstMatch (matchOp f.opCode) jOpcodes)

def searchU (f : Fields) : Except Fault Instruction := do
  found .U f (← firstMatch (matchOp f.opCode) uOpcodes)

/-! ## Decoding -/

def isFpInstr (inst : U32) : Bool := extractOpcode inst == fpROpcode

def ignoreF3 (inst : U32) : Bool :=
  let f7 := extractFunct7 inst
  f7 == 0b0000000 || f7 == 0b0000100 || f7 == 0b0001000 || f7 == 0b0001100
    || f7 == 0b0101100 || f7 == 0b1100000 || f7 == 0b1101000

/-- Takes a word apart and searches a table for it. -/
def decodeWith (search : Fields → Except Fault Instruction) (inst : U32) : DecodeM Instruction := do
  let f ← getFields inst
  liftExcept (search f)
where
  liftExcept (x : Except Fault Instruction) : DecodeM Instruction := ExceptT.mk (pure x)

def decodeFp (inst : U32) : DecodeM Instruction :=
  if ignoreF3 inst then decodeWith searchFpWithoutF3 inst else decodeWith searchFpWithF3 inst

def decodeR (inst : U32) : DecodeM Instruction :=
  if isFpInstr inst then decodeFp inst else decodeWith searchR inst

def decodeR4 : U32 → DecodeM Instruction := decodeWith searchR4
def decodeI : U32 → DecodeM Instruction := decodeWith searchI
def decodeB : U32 → DecodeM Instruction := decodeWith searchB
def decodeS : U32 → DecodeM Instruction := decodeWith searchS
def decodeJ : U32 → DecodeM Instruction := decodeWith searchJ
def decodeU : U32 → DecodeM Instruction := decodeWith searchU

/-- `instr_cache[inst] = x`, for an `x` whose decoding may throw: the right side comes first. -/
def cacheInstr (inst : U32) (x : DecodeM Instruction) : DecodeM Instruction := do
  let i ← x
  modify fun d => { d with instrCache := Function.update d.instrCache inst (some i) }
  return i

def decodeM (inst : U32) : DecodeM Instruction := do
  match (← get).instrCache inst with
  | some i => return i
  | none =>
      let t ← instrType inst
      match t with
      | .R => cacheInstr inst (decodeR inst)
      | .R4 => cacheInstr inst (decodeR4 inst)
      | .I => cacheInstr inst (decodeI inst)
      | .S => cacheInstr inst (decodeS inst)
      | .B => cacheInstr inst (decodeB inst)
      | .U => cacheInstr inst (decodeU inst)
      | .J => cacheInstr inst (decodeJ inst)
      | .WRONG => return ⟨t, .XXX, Fields.zero, "XXX"⟩

/-- **`InstructionDecoder::decode`**: the outcome, and the decoder afterwards. -/
def InstructionDecoder.decode (d : InstructionDecoder) (inst : U32) :
    Except Fault Instruction × InstructionDecoder :=
  (decodeM inst).run.run d

/-- The decoder after a history of calls, whatever each of them came to. -/
def InstructionDecoder.after (d : InstructionDecoder) (history : List U32) : InstructionDecoder :=
  history.foldl (fun d w => (d.decode w).2) d

end Vemu
