import Vemu.Invariant
import Vemu.Softfloat.Single

/-!
# The float handlers with `SUPPORT_SOFTFLOAT`

The registers are doubles, and every handler works on floats: it converts its operands, computes on
the host or in SoftFloat, and converts the result back.  What SoftFloat computes, and which flags it
raises on the way, is left open (`SoftFloat`).  A handler that looks at the flags clears them first,
so that they are those of its own operation.

As in the build without it, handlers of one body are a family at their operation.  Of the handlers
with two sources five take the first one twice.
-/

namespace Vemu

/-- SoftFloat: the pattern of a result, and the flags raised.  The last entry is what a conversion
to an integer comes to that C++ leaves undefined. -/
structure SoftFloat where
  f32Add : U32 → U32 → U32 × U8
  f32Sub : U32 → U32 → U32 × U8
  f32Mul : U32 → U32 → U32 × U8
  f32Div : U32 → U32 → U32 × U8
  f32Sqrt : U32 → U32 × U8
  undefined : U32 → U64

/-- A SoftFloat for programs that do not call it. -/
def SoftFloat.idle : SoftFloat where
  f32Add := fun x _ => (x, 0)
  f32Sub := fun x _ => (x, 0)
  f32Mul := fun x _ => (x, 0)
  f32Div := fun x _ => (x, 0)
  f32Sqrt := fun x => (x, 0)
  undefined := fun _ => 0

/-! ## Flags -/

def softfloatFlagInexact : U8 := 1
def softfloatFlagUnderflow : U8 := 2
def softfloatFlagOverflow : U8 := 4
def softfloatFlagInvalid : U8 := 16

/-- A bit of the flag register.  Its complement is an unsigned number of 32 bits. -/
def updateFlag (raised : Prop) [Decidable raised] (bit : U32) (c : Csrs) : Csrs :=
  c.set fflags (if raised then c.reg fflags ||| bit.setWidth 64
    else c.reg fflags &&& (~~~bit).setWidth 64)

def updateFloatFlags (flags : U8) (c : Csrs) : Csrs :=
  let c := updateFlag (flags &&& softfloatFlagInexact ≠ 0) 0x1 c
  let c := updateFlag (flags &&& softfloatFlagUnderflow ≠ 0) 0x2 c
  let c := updateFlag (flags &&& softfloatFlagOverflow ≠ 0) 0x4 c
  updateFlag (flags &&& softfloatFlagInvalid ≠ 0) 0x10 c

namespace VEmu

/-! ## Registers -/

def rs3 (s : VEmu) : Reg := s.currInstr.f.rs3

/-- A float register, as a float. -/
def single (s : VEmu) (idx : Reg) : U32 := toFloat (s.fregs idx)

def storeSingle (s : VEmu) (idx : Reg) (value : U32) : VEmu :=
  { s with fregs := Function.update s.fregs idx (toDouble value) }

namespace Softfloat

/-! ## Loads and stores -/

/-- The offset is added as it is in its field, an unsigned number of 32 bits. -/
def offs (s : VEmu) : U64 := s.imm32.setWidth 64

def FLW : Handler := fun s => do
  let addr := s.loadReg s.rs1 + offs s
  let ((res, exp), s) ← s.load addr 32
  if exp ≠ .NormalExecutionReturn then return (exp, s)
  normal (s.storeSingle s.rd (res.setWidth 32))

def FSW : Handler := fun s =>
  s.store (s.loadReg s.rs1 + offs s) ((s.single s.rs2).setWidth 64) 32

/-! ## Families -/

/-- A product and a third operand. -/
def fused (factor addend : U32 → U32) : Handler := fun s =>
  normal (s.storeSingle s.rd
    (fmaf (factor (s.single s.rs1)) (s.single s.rs2) (addend (s.single s.rs3))))

/-- An operation of SoftFloat, and what is done to the flags afterwards. -/
def floatArith (op : U32 → U32 → U32 × U8) (after : U32 → Csrs → Csrs) : Handler := fun s =>
  let op1 := s.single s.rs1
  let op2 := s.single s.rs2
  let (res, flags) := op op1 op2
  normal { s.storeSingle s.rd res with csrs := after op2 (updateFloatFlags flags s.csrs) }

/-- Two operands, both from the first source register. -/
def sameSource (f : U32 → U32 → U32) : Handler := fun s =>
  normal (s.storeSingle s.rd (f (s.single s.rs1) (s.single s.rs1)))

def floatCompare (f : U32 → U32 → Bool) : Handler := fun s =>
  normal (s.storeReg s.rd (if f (s.single s.rs1) (s.single s.rs2) then 1 else 0))

/-- A conversion to an integer type with the given bounds. -/
def floatToInteger (lib : SoftFloat) (lo hi : ℤ) (f : ℤ → U64) : Handler := fun s =>
  let op := s.single s.rs1
  normal (s.storeReg s.rd (match roundedToInteger op with
    | some i => if lo ≤ i ∧ i < hi then f i else lib.undefined op
    | none => lib.undefined op))

def integerToFloat (f : U64 → ℤ) : Handler := fun s =>
  normal (s.storeSingle s.rd (ofInteger (f (s.loadReg s.rs1))))

/-! ## Arithmetic -/

def FMADDS : Handler := fused id id
def FMSUBS : Handler := fused id negf
def FNMSUBS : Handler := fused negf negf
def FNMADDS : Handler := fused negf id

def FADDS (lib : SoftFloat) : Handler := floatArith lib.f32Add fun _ c => c

/-- The difference of two positive infinities loses its sign. -/
def FSUBS (lib : SoftFloat) : Handler :=
  floatArith
    (fun op1 op2 =>
      let (res, flags) := lib.f32Sub op1 op2
      (if isinf op1 && isinf op2 && !signbit op1 && !signbit op2 then fabsf res else res, flags))
    fun _ c => c

def FMULS (lib : SoftFloat) : Handler := floatArith lib.f32Mul fun _ c => c

/-- The flag of a division by zero is not taken from SoftFloat. -/
def FDIVS (lib : SoftFloat) : Handler :=
  floatArith lib.f32Div fun op2 c => updateFlag (isequal (fabsf op2) 0) 0x8 c

/-- The flags are left alone. -/
def FSQRTS (lib : SoftFloat) : Handler := fun s =>
  normal (s.storeSingle s.rd (lib.f32Sqrt (s.single s.rs1)).1)

/-! ## Signs, the smaller and the larger -/

def FSGNJS : Handler := sameSource copysignf

def FSGNJNS : Handler := sameSource fun op1 op2 => copysignf op1 (negf op2)

def FSGNJXS : Handler :=
  sameSource fun op1 op2 =>
    let tmp := if isless op1 0 ^^ isless op2 0 then negf 0x3F800000 else 0x3F800000
    copysignf op1 tmp

/-- A double that equals zero, by its pattern. -/
def isZero (d : U64) : Bool := d &&& 0x7FFFFFFFFFFFFFFF = 0

def isNegativeZero (d : U64) : Bool := isZero d && d ≠ 0

def isPositiveZero (d : U64) : Bool := isZero d && d = 0

def FMINS : Handler :=
  sameSource fun op1 op2 =>
    if isPositiveZero (toDouble op1) && isNegativeZero (toDouble op2) then op2
    else if isNegativeZero (toDouble op1) && isPositiveZero (toDouble op2) then op1
    else fminf op1 op2

def FMAXS : Handler :=
  sameSource fun op1 op2 =>
    if isPositiveZero (toDouble op1) && isNegativeZero (toDouble op2) then op1
    else if isNegativeZero (toDouble op1) && isPositiveZero (toDouble op2) then op2
    else fmaxf op1 op2

def FEQS : Handler := floatCompare isequal
def FLTS : Handler := floatCompare isless
def FLES : Handler := floatCompare islessequal

/-! ## Conversions and moves -/

def FCVTWS (lib : SoftFloat) : Handler :=
  floatToInteger lib (-2 ^ 31) (2 ^ 31) fun i => (BitVec.ofInt 32 i).signExtend 64

def FCVTWUS (lib : SoftFloat) : Handler := floatToInteger lib 0 (2 ^ 64) (BitVec.ofInt 64)
def FCVTLS (lib : SoftFloat) : Handler := floatToInteger lib (-2 ^ 63) (2 ^ 63) (BitVec.ofInt 64)
def FCVTLUS (lib : SoftFloat) : Handler := floatToInteger lib 0 (2 ^ 64) (BitVec.ofInt 64)

def FCVTSW : Handler := integerToFloat fun x => (x.setWidth 32).toInt
def FCVTSWU : Handler := integerToFloat fun x => (x.setWidth 32).toNat
def FCVTSL : Handler := integerToFloat fun x => (x.setWidth 32).toInt
def FCVTSLU : Handler := integerToFloat fun x => (x.setWidth 32).toNat

def FMVXW : Handler := fun s => normal (s.storeReg s.rd ((s.single s.rs1).signExtend 64))

def FMVWX : Handler := fun s => normal (s.storeSingle s.rd ((s.loadReg s.rs1).setWidth 32))

/-- The number of the class. -/
def classOf (op : U32) : U64 :=
  match fpclassify op with
  | .FP_INFINITE => if signbit op then 0 else 7
  | .FP_NORMAL => if signbit op then 1 else 6
  | .FP_SUBNORMAL => if signbit op then 2 else 5
  | .FP_ZERO => if signbit op then 3 else 4
  | .FP_NAN => 9

def FCLASSS : Handler := fun s => normal (s.storeReg s.rd (classOf (s.single s.rs1)))

/-! ## Dispatch -/

/-- The method of a mnemonic. -/
def handler (lib : SoftFloat) (host : Host) : IName → Handler
  | .FLW => FLW | .FSW => FSW
  | .FMADDS => FMADDS | .FMSUBS => FMSUBS | .FNMSUBS => FNMSUBS | .FNMADDS => FNMADDS
  | .FADDS => FADDS lib | .FSUBS => FSUBS lib | .FMULS => FMULS lib | .FDIVS => FDIVS lib
  | .FSQRTS => FSQRTS lib
  | .FSGNJS => FSGNJS | .FSGNJNS => FSGNJNS | .FSGNJXS => FSGNJXS
  | .FMINS => FMINS | .FMAXS => FMAXS
  | .FCVTWS => FCVTWS lib | .FCVTWUS => FCVTWUS lib
  | .FCVTLS => FCVTLS lib | .FCVTLUS => FCVTLUS lib
  | .FMVXW => FMVXW | .FMVWX => FMVWX
  | .FEQS => FEQS | .FLTS => FLTS | .FLES => FLES | .FCLASSS => FCLASSS
  | .FCVTSW => FCVTSW | .FCVTSWU => FCVTSWU | .FCVTSL => FCVTSL | .FCVTSLU => FCVTSLU
  | n => VEmu.handler host n

/-- What a round does with the word it has fetched. -/
def perform (lib : SoftFloat) (host : Host) (w : U32) : Handler := fun s => do
  let s ← s.decodeInto w
  dispatchWith (handler lib host) s.currInstr.name s

end Softfloat

/-! ## One word -/

/-- The emulator once the word is decoded. -/
def decoded (s : VEmu) (w : U32) (ins : Instruction) : VEmu :=
  { s with hexInstr := w, currInstr := ins, decoder := (s.decoder.decode w).2 }

variable {host : Host} {s : VEmu} {w : U32} {ins : Instruction}

/-- Other float registers. -/
lemma Intact.withFregs (hs : s.Intact host) (fregs : Reg → U64) :
    ({ s with fregs := fregs } : VEmu).Intact host :=
  ⟨hs.instFuncs, hs.memory, hs.devices, hs.decoder⟩

lemma decodeInto_eq (hs : s.Intact host) (w : U32) :
    s.decodeInto w = (decodeOf w >>= fun ins => .ok (s.decoded w ins)) := by
  rw [← (InstructionDecoder.decode_eq hs.decoder w).1]
  rfl

namespace Softfloat

/-- A word that is decoded goes to the method of its mnemonic. -/
lemma perform_eq (lib : SoftFloat) (hs : s.Intact host) (h : decodeOf w = .ok ins)
    (hname : ins.name ≠ .FSQRTS) :
    perform lib host w s = handler lib host ins.name (s.decoded w ins) := by
  have hmem : ins.name ∈ (s.decoded w ins).instFuncs := by
    change ins.name ∈ s.instFuncs
    rw [hs.instFuncs, mem_initFuncMap]
    exact hname
  rw [perform, decodeInto_eq hs, h, Fallible.ok_bind, Fallible.ok_bind, dispatchWith]
  exact if_pos hmem

/-- A word that is not decoded is not performed. -/
lemma perform_error (lib : SoftFloat) (hs : s.Intact host) {e : Fault}
    (h : decodeOf w = .error e) : perform lib host w s = .error e := by
  rw [perform, decodeInto_eq hs, h]
  rfl

end Softfloat

end VEmu

end Vemu
