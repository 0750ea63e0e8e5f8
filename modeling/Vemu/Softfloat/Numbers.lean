import Vemu.Softfloat.Registers

/-!
# What the float registers mean

A register that is not a NaN is a number or an infinity (`number`).  The comparisons decide how
these compare, and say no where one of the two is a NaN (**`compares_iff`**).

The conversions round, and the one from a double word takes its low half only.  An integer that is
converted to a float and back is what it was exactly if it is in that half and its bits fit into the
fraction, whatever the conversions come to that C++ leaves undefined (**`converts_back_iff`**).
-/

namespace Vemu

open BinaryFloat Fallible Riscv

namespace VEmu

namespace Softfloat

variable {host : Host} {lib : SoftFloat} {s : VEmu} {rd : Reg} {x y : U32}

/-! ## Comparisons -/

/-- The number or infinity in a register. -/
noncomputable def number (s : VEmu) (r : Reg) : EReal := binary64.extended (unpack (s.fregs r))

def isNaN (s : VEmu) (r : Reg) : Prop := binary64.inf < (unpack (s.fregs r)).mag

inductive Comparison
  | FEQS | FLTS | FLES
  deriving DecidableEq, Repr

namespace Comparison

def op : Comparison → FExactOp
  | FEQS => .FEQS | FLTS => .FLTS | FLES => .FLES

/-- The relation that is decided. -/
def Holds : Comparison → EReal → EReal → Prop
  | FEQS => (· = ·) | FLTS => (· < ·) | FLES => (· ≤ ·)

/-- The function of the handler. -/
def decides : Comparison → U32 → U32 → Bool
  | FEQS => isequal | FLTS => isless | FLES => islessequal

lemma decides_iff (c : Comparison) :
    c.decides x y = true ↔ isnan x = false ∧ isnan y = false
      ∧ c.Holds (binary32.extended (unpack x)) (binary32.extended (unpack y)) := by
  have hinf : 0 < binary32.inf := by decide
  by_cases hx : isnan x = false
  · by_cases hy : isnan y = false
    · have hx' := isnan_eq_false_iff.mp hx
      have hy' := isnan_eq_false_iff.mp hy
      have hlt := Format.extended_lt_extended_iff hinf hx' hy'
      have hgt := Format.extended_lt_extended_iff hinf hy' hx'
      have heq := Format.extended_inj_iff hinf hx' hy'
      cases c with
      | FEQS =>
          simp only [decides, Holds, isequal, hx, hy, heq, Bool.not_false, Bool.true_and, true_and,
            decide_eq_true_iff]
          rfl
      | FLTS =>
          simp only [decides, Holds, isless, hx, hy, hlt, Bool.not_false, Bool.true_and, true_and,
            decide_eq_true_iff]
          rfl
      | FLES =>
          simp only [decides, Holds, islessequal, hx, hy, Bool.not_false, Bool.true_and, true_and,
            decide_eq_true_iff]
          rw [← not_lt, ← not_lt, hgt]
          rfl
    · cases c <;> simp [decides, isequal, isless, islessequal, hy]
  · cases c <;> simp [decides, isequal, isless, islessequal, hx]

end Comparison

/-- What a register holds as a double, it holds as a float. -/
lemma number_eq (h : HoldsFloat (s.fregs rd)) :
    (isnan (s.single rd) = false ↔ ¬ isNaN s rd)
      ∧ (isnan (s.single rd) = false → number s rd = binary32.extended (unpack (s.single rd))) := by
  have hback : unpack (s.fregs rd) = binary32.convert binary64 (unpack (s.single rd)) := by
    rw [← unpack_toDouble, single, h.toDouble_toFloat]
  rw [isNaN, number, hback]
  constructor
  · rw [isnan_eq_false_iff, not_lt]
    constructor
    · intro hle
      exact (Format.extended_convert extends_binary64 hle).1
    · intro hle
      by_contra hnan
      rw [Format.convert, if_pos (Nat.lt_of_not_le hnan)] at hle
      exact absurd (Format.inf_lt_convertNaN ..) hle.not_gt
  · intro hnan
    exact (Format.extended_convert extends_binary64 (isnan_eq_false_iff.mp hnan)).2

lemma perform_compare (lib : SoftFloat) (hs : s.Intact host) (c : Comparison) (rs1 rs2 : Reg)
    (hrd : rd ≠ 0) :
    ∃ t, perform lib host (FInstr.exact c.op rd rs1 rs2).encode s = .ok (.NormalExecutionReturn, t)
      ∧ t.fregs = s.fregs
      ∧ t.loadReg rd = if c.decides (s.single rs1) (s.single rs2) then 1 else 0 := by
  obtain ⟨ins, hdec, hname, rfl, rfl, rfl⟩ := decode_exact rd rs1 rs2 c.op
  have hhandler : handler lib host ins.name = floatCompare c.decides := by
    rw [hname]
    cases c <;> rfl
  rw [perform_eq lib hs hdec (by rw [hname]; cases c <;> decide), hhandler]
  exact ⟨_, rfl, rfl, loadReg_storeReg_self _ hrd _⟩

/-- **The comparisons decide** how the numbers in two registers compare. -/
theorem compares_iff (h : Reachable lib host s) (c : Comparison) (rs1 rs2 : Reg) (hrd : rd ≠ 0) :
    ∃ t, perform lib host (FInstr.exact c.op rd rs1 rs2).encode s = .ok (.NormalExecutionReturn, t)
      ∧ t.fregs = s.fregs ∧ (t.loadReg rd = 0 ∨ t.loadReg rd = 1)
      ∧ (t.loadReg rd = 1
        ↔ ¬ isNaN s rs1 ∧ ¬ isNaN s rs2 ∧ c.Holds (number s rs1) (number s rs2)) := by
  have hs := Reachable.holdsFloats h
  obtain ⟨hnan₁, hnumber₁⟩ := number_eq (hs.registers rs1)
  obtain ⟨hnan₂, hnumber₂⟩ := number_eq (hs.registers rs2)
  obtain ⟨t, ht, hfregs, hvalue⟩ := perform_compare lib hs.intact c rs1 rs2 hrd
  have hdecides : c.decides (s.single rs1) (s.single rs2) = true
      ↔ ¬ isNaN s rs1 ∧ ¬ isNaN s rs2 ∧ c.Holds (number s rs1) (number s rs2) := by
    rw [c.decides_iff, ← hnan₁, ← hnan₂]
    refine and_congr_right fun h₁ => and_congr_right fun h₂ => ?_
    rw [hnumber₁ h₁, hnumber₂ h₂]
  refine ⟨t, ht, hfregs, ?_⟩
  rw [← hdecides, hvalue]
  cases c.decides (s.single rs1) (s.single rs2) <;> decide

/-- One is at most infinity, and a NaN is not. -/
theorem compares_iff_mixing :
    ∃ s t u, Reachable .idle (.bare .fuzz) s
      ∧ isNaN s 1 ∧ number s 2 = ⊤ ∧ s.fregs 3 = 0x3FF0000000000000
      ∧ perform .idle (.bare .fuzz) (FInstr.exact .FLES 5 3 2).encode s
        = .ok (.NormalExecutionReturn, t) ∧ t.loadReg 5 = 1
      ∧ perform .idle (.bare .fuzz) (FInstr.exact .FLES 5 1 2).encode s
        = .ok (.NormalExecutionReturn, u) ∧ u.loadReg 5 = 0 := by
  obtain ⟨s, hs, hnan, hinf, hone, -⟩ := reachable_mixing
  have hnan₁ : isNaN s 1 := by
    rw [isNaN, hnan]
    decide
  have hnan₂ : ¬ isNaN s 2 := by
    rw [isNaN, hinf]
    decide
  have hnan₃ : ¬ isNaN s 3 := by
    rw [isNaN, hone]
    decide
  have htop : number s 2 = ⊤ := by
    rw [number, hinf, Format.extended, if_neg (by decide), if_neg (by decide)]
  obtain ⟨t, ht, -, -, hholds⟩ := compares_iff hs .FLES 3 2 (by decide : (5 : Reg) ≠ 0)
  obtain ⟨u, hu, -, hbit, hfails⟩ := compares_iff hs .FLES 1 2 (by decide : (5 : Reg) ≠ 0)
  refine ⟨s, t, u, hs, hnan₁, htop, hone, ht, hholds.mpr ⟨hnan₃, hnan₂, ?_⟩, hu, ?_⟩
  · rw [htop]
    exact le_top
  · exact hbit.resolve_right fun h => (hfails.mp h).1 hnan₁

/-! ## Conversions -/

/-- The integers that a float is converted from and to. -/
inductive IntegerKind
  | W | WU | LU
  deriving DecidableEq, Repr

namespace IntegerKind

def into : IntegerKind → FConvertOp
  | W => .FCVTSW | WU => .FCVTSWU | LU => .FCVTSLU

def back : IntegerKind → FConvertOp
  | W => .FCVTWS | WU => .FCVTWUS | LU => .FCVTLUS

/-- The integer of a register: its low word, with a sign or without, or all of it. -/
def integer : IntegerKind → U64 → ℤ
  | W, v => (v.setWidth 32 : U32).toInt
  | WU, v => (v.setWidth 32 : U32).toNat
  | LU, v => v.toNat

/-- What the handler converts.  `FCVTSLU` takes the low word as well. -/
def operand : IntegerKind → U64 → ℤ
  | W, v => (v.setWidth 32 : U32).toInt
  | WU, v | LU, v => (v.setWidth 32 : U32).toNat

/-- The register of an integer. -/
def register : IntegerKind → ℤ → U64
  | W, i => (BitVec.ofInt 32 i).signExtend 64
  | WU, i | LU, i => BitVec.ofInt 64 i

def lowest : IntegerKind → ℤ
  | W => -2 ^ 31
  | WU | LU => 0

def bound : IntegerKind → ℤ
  | W => 2 ^ 31
  | WU | LU => 2 ^ 64

variable (k : IntegerKind) {v : U64} {i j : ℤ}

lemma integer_bounds : k.lowest ≤ k.integer v ∧ k.integer v < k.bound := by
  cases k with
  | W =>
      have hlo := BitVec.le_toInt (v.setWidth 32)
      have hhi := BitVec.toInt_lt (x := v.setWidth 32)
      simp only [lowest, bound, integer]
      omega
  | WU =>
      have hlt := (v.setWidth 32).isLt
      simp only [lowest, bound, integer]
      omega
  | LU =>
      have hlt := v.isLt
      simp only [lowest, bound, integer]
      omega

lemma operand_small : (k.operand v).natAbs < 2 ^ 32 := by
  cases k with
  | W =>
      have hlo := BitVec.le_toInt (v.setWidth 32)
      have hhi := BitVec.toInt_lt (x := v.setWidth 32)
      simp only [operand]
      omega
  | WU | LU =>
      have hlt := (v.setWidth 32).isLt
      simp only [operand]
      omega

/-- The handler converts the integer if it is in the low word. -/
lemma operand_eq (h : k = .LU → v.toNat < 2 ^ 32) : k.operand v = k.integer v := by
  cases k with
  | W | WU => rfl
  | LU =>
      have hlow : (v.setWidth 32 : U32).toNat = v.toNat := by
        rw [BitVec.toNat_setWidth, Nat.mod_eq_of_lt (h rfl)]
      simp only [operand, integer, hlow]

/-- Two integers of the kind with the same register are the same. -/
lemma register_inj (hi : k.lowest ≤ i ∧ i < k.bound) (hj : k.lowest ≤ j ∧ j < k.bound)
    (h : k.register i = k.register j) : i = j := by
  cases k with
  | W =>
      have hint := congrArg BitVec.toInt h
      simp only [register] at hint
      rw [BitVec.toInt_signExtend_of_le (by decide), BitVec.toInt_signExtend_of_le (by decide),
        BitVec.toInt_ofInt, BitVec.toInt_ofInt, Int.bmod_eq_of_le, Int.bmod_eq_of_le] at hint
      all_goals
        simp only [lowest, bound] at hi hj
        omega
  | WU | LU =>
      have hnat := congrArg BitVec.toNat h
      simp only [register, BitVec.toNat_ofInt, lowest, bound] at hnat hi hj
      omega

/-- The handlers of the two conversions. -/
lemma handlers (lib : SoftFloat) (host : Host) :
    handler lib host (convertName k.into) = integerToFloat k.operand
      ∧ handler lib host (convertName k.back)
        = floatToInteger lib k.lowest k.bound k.register := by
  cases k
  · exact ⟨rfl, rfl⟩
  · exact ⟨rfl, rfl⟩
  · exact ⟨rfl, rfl⟩

end IntegerKind

/-- An integer register is converted to a float, and that to an integer in another register. -/
def convertThrough (lib : SoftFloat) (host : Host) (k : IntegerKind) (rm : BitVec 3)
    (rs1 via rd : Reg) (s : VEmu) : Except Fault VEmu := do
  let (_, s) ← perform lib host (FInstr.convert k.into rm via rs1).encode s
  let (_, s) ← perform lib host (FInstr.convert k.back rm rd via).encode s
  return s

/-- An integer of 32 bits is rounded to a number. -/
lemma unpack_ofInteger {i : ℤ} (hi : i.natAbs < 2 ^ 32) :
    unpack (ofInteger i) = binary32.ofInt i ∧ (binary32.ofInt i).mag < binary32.inf := by
  have hlarge : i.natAbs * 2 ^ binary32.unit < 2 ^ (binary32.fracBits + 157 + 1) := by
    change _ < 2 ^ 32 * 2 ^ 149
    exact Nat.mul_lt_mul_of_pos_right hi (Nat.two_pow_pos _)
  have hmag : (binary32.ofInt i).mag < binary32.inf :=
    lt_of_le_of_lt (le_trans (min_le_right _ _) (nearest_le hlarge)) (by decide)
  exact ⟨unpack_pack (by decide) (lt_trans hmag (by decide)), hmag⟩

lemma roundedToInteger_of_finite (h : IsFinite x) :
    roundedToInteger x = some (binary32.toInt (unpack x)) :=
  if_neg (not_le.mpr h)

/-- What a float is converted to. -/
def converted (lib : SoftFloat) (k : IntegerKind) (x : U32) : U64 :=
  match roundedToInteger x with
  | some i => if k.lowest ≤ i ∧ i < k.bound then k.register i else lib.undefined x
  | none => lib.undefined x

lemma convertThrough_eq (lib : SoftFloat) (hs : s.Intact host) (k : IntegerKind) (rm : BitVec 3)
    (rs1 via : Reg) (hrd : rd ≠ 0) :
    ∃ t, convertThrough lib host k rm rs1 via rd s = .ok t
      ∧ t.loadReg rd
        = converted lib k (quieted (ofInteger (k.operand (s.loadReg rs1)))) := by
  obtain ⟨ins, hdec, hname, rfl, rfl⟩ :=
    (decode_convert_iff via rs1 k.into rm).mpr (by cases k <;> decide)
  have hinto := perform_eq lib hs hdec (by rw [hname]; cases k <;> decide)
  rw [hname, (k.handlers lib host).1] at hinto
  set s₁ := (s.decoded (FInstr.convert k.into rm ins.f.rd ins.f.rs1).encode ins).storeSingle ins.f.rd
    (ofInteger (k.operand (s.loadReg ins.f.rs1))) with hs₁
  have hs₁ : s₁.Intact host :=
    ⟨hs.instFuncs, hs.memory, hs.devices, (InstructionDecoder.decode_eq hs.decoder _).2⟩
  have hsingle : s₁.single ins.f.rd = quieted (ofInteger (k.operand (s.loadReg ins.f.rs1))) := by
    rw [← toFloat_toDouble_eq]
    exact congrArg toFloat (Function.update_self ..)
  obtain ⟨ins', hdec', hname', hrd', hvia⟩ :=
    (decode_convert_iff rd ins.f.rd k.back rm).mpr (by cases k <;> decide)
  have hback := perform_eq lib hs₁ hdec' (by rw [hname']; cases k <;> decide)
  rw [hname', (k.handlers lib host).2] at hback
  subst hrd'
  refine ⟨(s₁.decoded (FInstr.convert k.back rm ins'.f.rd ins.f.rd).encode ins').storeReg ins'.f.rd
    (converted lib k (s₁.single ins'.f.rs1)), ?_, ?_⟩
  · rw [convertThrough, hinto]
    change (perform lib host _ s₁ >>= _) = _
    rw [hback]
    rfl
  · rw [loadReg_storeReg_self _ hrd, hvia, hsingle]

/-- A number is converted to the next integer, if there is one of the kind. -/
lemma converted_ofInteger (lib : SoftFloat) (k : IntegerKind) {i : ℤ} (hi : i.natAbs < 2 ^ 32) :
    converted lib k (quieted (ofInteger i))
      = if k.lowest ≤ binary32.toInt (binary32.ofInt i)
            ∧ binary32.toInt (binary32.ofInt i) < k.bound
        then k.register (binary32.toInt (binary32.ofInt i)) else lib.undefined (ofInteger i) := by
  obtain ⟨hunpack, hmag⟩ := unpack_ofInteger hi
  have hfinite : IsFinite (ofInteger i) := by
    rw [IsFinite, hunpack]
    exact hmag
  have hquiet : quieted (ofInteger i) = ofInteger i := by
    rw [quieted, hfinite.isnan]
    rfl
  rw [hquiet, converted, roundedToInteger_of_finite hfinite, hunpack]

/-- The conversions come to the register of an integer, whatever is undefined, exactly if that is
what the operand is rounded to. -/
lemma converted_iff (k : IntegerKind) {o i : ℤ} (ho : o.natAbs < 2 ^ 32)
    (hi : k.lowest ≤ i ∧ i < k.bound) :
    (∀ lib, converted lib k (quieted (ofInteger o)) = k.register i)
      ↔ binary32.toInt (binary32.ofInt o) = i := by
  constructor
  · intro h
    -- what is undefined could be anything, so that it is not the register
    have hvalue := h { SoftFloat.idle with undefined := fun _ => ~~~k.register i }
    rw [converted_ofInteger _ k ho] at hvalue
    split_ifs at hvalue with hin
    · exact k.register_inj hin hi hvalue
    · exact absurd hvalue (by simp)
  · intro h lib
    rw [converted_ofInteger lib k ho, h, if_pos hi]

/-- The operand is rounded to the integer exactly if it is the integer and the format holds it. -/
lemma rounds_back_iff (k : IntegerKind) (v : U64) :
    binary32.toInt (binary32.ofInt (k.operand v)) = k.integer v
      ↔ (k = .LU → v.toNat < 2 ^ 32) ∧ binary32.HoldsInt (k.integer v) := by
  have hsmall := @IntegerKind.operand_small k v
  have hexact := Format.toInt_ofInt_iff (by decide) (unpack_ofInteger hsmall).2
  by_cases hlow : k = .LU → v.toNat < 2 ^ 32
  · rw [and_iff_right hlow, ← k.operand_eq hlow]
    exact hexact
  · refine iff_of_false (fun h => ?_) fun h => hlow h.1
    obtain ⟨rfl, hv⟩ := Classical.not_imp.mp hlow
    -- a low word is rounded to `2 ^ 32` at most, and zero to zero
    have hle := Format.natAbs_toInt_ofInt_le (F := binary32) (by decide) (by decide) hsmall
    rw [h] at hle
    change ((v.toNat : ℤ)).natAbs ≤ 2 ^ 32 at hle
    have hv' : v.toNat = 2 ^ 32 := by omega
    have hzero : IntegerKind.LU.operand v = 0 := by
      simp only [IntegerKind.operand, BitVec.toNat_setWidth, hv']
      rfl
    rw [hzero] at h hexact
    have hback := hexact.mpr ⟨0, 0, by decide, rfl⟩
    rw [h] at hback
    change ((v.toNat : ℤ)) = 0 at hback
    omega

/-- **An integer that is converted to a float and back** is the one it was exactly if it is in the
word that is converted and the fraction holds its bits, whatever else the conversions come to. -/
theorem converts_back_iff (hs : s.Intact host) (k : IntegerKind) (rm : BitVec 3) (rs1 via : Reg)
    (hrd : rd ≠ 0) :
    (∀ lib, ∃ t, convertThrough lib host k rm rs1 via rd s = .ok t
      ∧ t.loadReg rd = k.register (k.integer (s.loadReg rs1)))
    ↔ (k = .LU → (s.loadReg rs1).toNat < 2 ^ 32)
      ∧ binary32.HoldsInt (k.integer (s.loadReg rs1)) := by
  rw [← rounds_back_iff, ← converted_iff k k.operand_small k.integer_bounds]
  refine forall_congr' fun lib => ?_
  obtain ⟨t, ht, hvalue⟩ := convertThrough_eq lib hs k rm rs1 via hrd
  constructor
  · rintro ⟨t', ht', hvalue'⟩
    obtain rfl := Except.ok.inj (ht.symm.trans ht')
    rw [← hvalue, hvalue']
  · exact fun h => ⟨t, ht, hvalue.trans h⟩

/-- The first integer that a float does not hold, and the first that is not in the low word. -/
theorem converts_back_iff_large :
    (¬ ∀ lib, ∃ t, convertThrough lib (.bare .fuzz) .W 0 2 1 3 (onePage 0 0x1000001) = .ok t
        ∧ t.loadReg 3 = 0x1000001)
      ∧ ¬ ∀ lib, ∃ t, convertThrough lib (.bare .fuzz) .LU 0 2 1 3 (onePage 0 0x100000000) = .ok t
        ∧ t.loadReg 3 = 0x100000000 := by
  constructor
  · have hiff := converts_back_iff (intact_onePage 0 0x1000001) .W 0 2 1 (by decide : (3 : Reg) ≠ 0)
    have hregister :
        IntegerKind.W.register (IntegerKind.W.integer ((onePage 0 0x1000001).loadReg 2))
          = 0x1000001 := by
      decide
    rw [hregister] at hiff
    rw [hiff]
    rintro ⟨-, q, e, hq, he⟩
    change 16777217 = q * 2 ^ e at he
    change q < 2 ^ 24 at hq
    cases e with
    | zero =>
        rw [Nat.pow_zero, Nat.mul_one] at he
        omega
    | succ e =>
        rw [Nat.pow_succ, ← Nat.mul_assoc] at he
        omega
  · have hiff := converts_back_iff (intact_onePage 0 0x100000000) .LU 0 2 1
      (by decide : (3 : Reg) ≠ 0)
    have hregister :
        IntegerKind.LU.register (IntegerKind.LU.integer ((onePage 0 0x100000000).loadReg 2))
          = 0x100000000 := by
      decide
    rw [hregister] at hiff
    rw [hiff]
    rintro ⟨hlow, -⟩
    exact absurd (hlow rfl) (by decide)

end Softfloat

end VEmu

end Vemu
