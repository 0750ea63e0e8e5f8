import Vemu.Handlers.Integer

/-!
# The handlers of A

Load-reserved is a load that wants an aligned address, store-conditional a store that always
succeeds: no reservation is kept.  The read-modify-write instructions report a misaligned
address as the one of a load.
-/

namespace Vemu

namespace VEmu

/-- Whether the address is a multiple of the size of the access.  The remainder is zero for the
signed address exactly if it is for the unsigned one. -/
def aligned (addr : U64) (sz : ℕ) : Bool := addr.toNat % (sz / 8) = 0

def loadReserved (sz : ℕ) : Handler := fun s => do
  let addr := s.loadReg s.rs1
  if !aligned addr sz then return (.LoadAddressMisaligned, s)
  let ((res, exp), s) ← s.load addr sz
  if exp ≠ .NormalExecutionReturn then return (exp, s)
  normal (s.storeReg s.rd res)

def storeConditional (sz : ℕ) : Handler := fun s => do
  let addr := s.loadReg s.rs1
  if !aligned addr sz then return (.StoreAMOAddressMisaligned, s)
  let (exp, s) ← s.store addr (s.loadReg s.rs2) sz
  return (exp, s.storeReg s.rd 0)

/-- A read-modify-write: `f` of the old value and `rs2` is stored, `old` of the old value goes to
`rd`. -/
def amo (sz : ℕ) (old : U64 → U64) (f : U64 → U64 → U64) : Handler := fun s => do
  let addr := s.loadReg s.rs1
  if !aligned addr sz then return (.LoadAddressMisaligned, s)
  let ((tmp, exp), s) ← s.load addr sz
  if exp ≠ .NormalExecutionReturn then return (exp, s)
  let (exp, s) ← s.store addr (f tmp (s.loadReg s.rs2)) sz
  if exp ≠ .NormalExecutionReturn then return (exp, s)
  normal (s.storeReg s.rd (old tmp))

def oldWord (tmp : U64) : U64 := (tmp.setWidth 32).signExtend 64

def amoW (f : U32 → U32 → U32) : Handler :=
  amo 32 oldWord fun tmp b => (f (tmp.setWidth 32) (b.setWidth 32)).setWidth 64

def amoD (f : U64 → U64 → U64) : Handler := amo 64 id f

def LRW : Handler := loadReserved 32
def LRD : Handler := loadReserved 64
def SCW : Handler := storeConditional 32
def SCD : Handler := storeConditional 64

/-- The only one of its width that hands the bus a sign-extended datum. -/
def AMOSWAPW : Handler := amo 32 oldWord fun _ b => (b.setWidth 32).signExtend 64
def AMOADDW : Handler := amoW fun a b => a + b
def AMOXORW : Handler := amoW fun a b => a ^^^ b
def AMOANDW : Handler := amoW fun a b => a &&& b
def AMOORW : Handler := amoW fun a b => a ||| b
def AMOMINW : Handler := amoW fun a b => if a.slt b then a else b
def AMOMAXW : Handler := amoW fun a b => if b.slt a then a else b
def AMOMINUW : Handler := amoW fun a b => if a < b then a else b
def AMOMAXUW : Handler := amoW fun a b => if b < a then a else b

def AMOSWAPD : Handler := amoD fun _ b => b
def AMOADDD : Handler := amoD fun a b => a + b
def AMOXORD : Handler := amoD fun a b => a ^^^ b
def AMOANDD : Handler := amoD fun a b => a &&& b
def AMOORD : Handler := amoD fun a b => a ||| b
def AMOMIND : Handler := amoD fun a b => if a.slt b then a else b
def AMOMAXD : Handler := amoD fun a b => if b.slt a then a else b
def AMOMINUD : Handler := amoD fun a b => if a < b then a else b
def AMOMAXUD : Handler := amoD fun a b => if b < a then a else b

end VEmu

end Vemu
