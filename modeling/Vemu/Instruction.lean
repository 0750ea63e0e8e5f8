import Vemu.Defs

/-!
# Instruction words, their fields and their immediates

`Fields` and `Instruction` are the decoder's result types; the `extract…` and `imm…` functions
cut a 32-bit word up.  The immediates are put together from masked pieces of the word.  The
masks are unsigned, so every shift to the right inside a piece is a logical one; the two
shifts that sign-extend the finished immediate are on a signed variable, hence arithmetic.
-/

namespace Vemu

inductive InstrType
  | R | R4 | I | S | B | U | J | WRONG
  deriving DecidableEq, Repr

/-- The fields of an instruction word.  Every instruction carries all of them, whatever its
format. -/
structure Fields where
  opCode : U8
  rd : Reg
  funct3 : U8
  rs1 : Reg
  rs2 : Reg
  funct7 : U8
  shamt32 : U8
  shamt64 : U8
  funct6 : U8
  imm : U32
  funct2 : U8
  rs3 : Reg
  deriving DecidableEq, Repr

/-- The fields of a value-initialised `Fields {}`. -/
def Fields.zero : Fields := ⟨0, 0, 0, 0, 0, 0, 0, 0, 0, 0, 0, 0⟩

/-- A decoded instruction. -/
structure Instruction where
  t : InstrType
  name : IName
  f : Fields
  strName : String
  deriving DecidableEq, Repr

/-! ## Masks -/

def opcodeMask : U32 := 0x0000007F
def funct3Mask : U32 := 0x00007000
def funct2Mask : U32 := 0x06000000
def funct7Mask : U32 := 0xFE000000
def funct6Mask : U32 := 0xFC000000
def rdMask : U32 := 0x00000F80
def rs1Mask : U32 := 0x000F8000
def rs2Mask : U32 := 0x01F00000
def rs3Mask : U32 := 0xF1000000
def imm12Mask : U32 := 0xFFF00000
def imm20Mask : U32 := 0xFFFFF000
def shamt64Mask : U32 := 0x03F00000
def shamt32Mask : U32 := 0x01F00000

def jImm0 : U32 := 0x0000001E
def jImm1 : U32 := 0x000007E0
def jImm2 : U32 := 0x00000800
def jImm3 : U32 := 0x000FF000
def jImm4 : U32 := 0xFFF00000

def jInstImm0 : U32 := 0x01E00000
def jInstImm1 : U32 := 0x7E000000
def jInstImm2 : U32 := 0x00100000
def jInstImm3 : U32 := 0x000FF000
def jInstImm4 : U32 := 0x80000000

def bImm0 : U32 := 0x0000001E
def bImm1 : U32 := 0x000007E0
def bImm2 : U32 := 0x00000800
def bImm3 : U32 := 0xFFFFF000

def bInstImm0 : U32 := 0x00000F00
def bInstImm1 : U32 := 0x7E000000
def bInstImm2 : U32 := 0x00000080
def bInstImm3 : U32 := 0x80000000

/-! ## Fields -/

def extractOpcode (inst : U32) : U8 := (inst &&& opcodeMask).setWidth 8
def extractFunct3 (inst : U32) : U8 := ((inst &&& funct3Mask) >>> 12).setWidth 8
def extractFunct7 (inst : U32) : U8 := ((inst &&& funct7Mask) >>> 25).setWidth 8
def extractFunct6 (inst : U32) : U8 := ((inst &&& funct6Mask) >>> 26).setWidth 8
def extractRd (inst : U32) : Reg := ((inst &&& rdMask) >>> 7).setWidth 5
def extractRs1 (inst : U32) : Reg := ((inst &&& rs1Mask) >>> 15).setWidth 5
def extractRs2 (inst : U32) : Reg := ((inst &&& rs2Mask) >>> 20).setWidth 5
def extractRs3 (inst : U32) : Reg := ((inst &&& rs3Mask) >>> 27).setWidth 5
def extractFunct2 (inst : U32) : U8 := ((inst &&& funct2Mask) >>> 25).setWidth 8
def extractShamt32 (inst : U32) : U8 := ((inst &&& shamt32Mask) >>> 20).setWidth 8
def extractShamt64 (inst : U32) : U8 := ((inst &&& shamt64Mask) >>> 20).setWidth 8

/-! ## Immediates -/

def immI (inst : U32) : U32 := (inst &&& imm12Mask).sshiftRight 20

def immS (inst : U32) : U32 :=
  let imm := (extractRd inst).setWidth 32 ||| (inst &&& funct7Mask) >>> 20
  (imm <<< 20).sshiftRight 20

def immB (inst : U32) : U32 :=
  let imm :=
    ((inst &&& bInstImm0) >>> 7 &&& bImm0)
      ||| ((inst &&& bInstImm1) >>> 20 &&& bImm1)
      ||| ((inst &&& bInstImm2) <<< 4 &&& bImm2)
      ||| ((inst &&& bInstImm3) >>> 19 &&& bImm3)
  (imm <<< 19).sshiftRight 19

def immU (inst : U32) : U32 := inst &&& imm20Mask

def immJ (inst : U32) : U32 :=
  let imm :=
    ((inst &&& jInstImm0) >>> 20 &&& jImm0)
      ||| ((inst &&& jInstImm1) >>> 20 &&& jImm1)
      ||| ((inst &&& jInstImm2) >>> 9 &&& jImm2)
      ||| ((inst &&& jInstImm3) &&& jImm3)
      ||| ((inst &&& jInstImm4) >>> 11 &&& jImm4)
  (imm <<< 11).sshiftRight 11

end Vemu
