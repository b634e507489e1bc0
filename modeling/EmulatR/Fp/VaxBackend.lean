import EmulatR.Boxes.FBox
import EmulatR.Fp.SoftFloat

/-! # The VAX operations of the backend

The VAX part of the reference backend (fpBoxLib/fp_backend_softfloat.cpp): F and G arithmetic goes
to the integer kernels, the comparisons and the conversions go through IEEE doubles. Its IEEE part
stays a parameter.

`addF` to `sqrtG` call the kernels, `cmpG` and `cvtGF` to `cvtQG` go by way of doubles, and
`backend` puts them together. -/

namespace EmulatR

/-- What an operation of the backend is told: the qualifiers of the instruction, and FPCR. -/
structure FpExecCtx where
  /-- The qualifiers. -/
  variant : FPVariant
  /-- FPCR. -/
  fpcr : Word
  deriving DecidableEq, Repr

namespace SoftFloatBackend

/-! ## Rounding and exceptions -/

/-- The rounding FPCR selects in its bits 59:58. -/
def dynamicRm (fpcr : Word) : SoftFloat.RoundingMode :=
  let dyn := fpcr.extractLsb' 58 2
  if dyn = 0 then .minMag else if dyn = 1 then .min else if dyn = 3 then .max else .nearEven

/-- The rounding of an operation. -/
def resolveRm (c : FpExecCtx) : SoftFloat.RoundingMode :=
  match c.variant.getEffectiveRoundingMode with
  | .useFPCR => dynamicRm c.fpcr
  | .roundTowardZero => .minMag
  | .roundDown => .min
  | .roundUp => .max
  | .roundToNearest => .nearEven

/-- The exceptions of a SoftFloat routine. -/
def harvest (f : SoftFloat.ExceptionFlags) : FpExc :=
  { inv := f.invalid, dze := f.infinite, ovf := f.overflow, unf := f.underflow, ine := f.inexact }

/-- The exceptions of a VAX kernel. -/
def vaxToFpExc (m : Vax.Exc) : FpExc :=
  { inv := m &&& Vax.VaxExc.Inv ≠ 0, dze := m &&& Vax.VaxExc.Dze ≠ 0
    ovf := m &&& Vax.VaxExc.Ovf ≠ 0, unf := m &&& Vax.VaxExc.Unf ≠ 0 }

/-- The qualifiers ask for chopping. -/
def vaxChop (c : FpExecCtx) : Bool := c.variant.getEffectiveRoundingMode = .roundTowardZero

/-- The result of a VAX kernel. -/
def vaxResult (r : Word × Vax.Exc) : FpResult := ⟨r.1, vaxToFpExc r.2⟩

/-! ## Arithmetic -/

section Arithmetic

variable (a b : Word) (c : FpExecCtx)

/-- ADDF. -/
def addF : FpResult := vaxResult (Vax.addsub a b false Vax.F (vaxChop c) c.variant.underflow 0)

/-- SUBF. -/
def subF : FpResult := vaxResult (Vax.addsub a b true Vax.F (vaxChop c) c.variant.underflow 0)

/-- MULF. -/
def mulF : FpResult := vaxResult (Vax.mul a b Vax.F (vaxChop c) c.variant.underflow 0)

/-- DIVF. -/
def divF : FpResult := vaxResult (Vax.div a b Vax.F (vaxChop c) c.variant.underflow 0)

/-- SQRTF. -/
def sqrtF : FpResult := vaxResult (Vax.sqrt a Vax.F (vaxChop c) c.variant.underflow 0)

/-- ADDG. -/
def addG : FpResult := vaxResult (Vax.addsub a b false Vax.G (vaxChop c) c.variant.underflow 0)

/-- SUBG. -/
def subG : FpResult := vaxResult (Vax.addsub a b true Vax.G (vaxChop c) c.variant.underflow 0)

/-- MULG. -/
def mulG : FpResult := vaxResult (Vax.mul a b Vax.G (vaxChop c) c.variant.underflow 0)

/-- DIVG. -/
def divG : FpResult := vaxResult (Vax.div a b Vax.G (vaxChop c) c.variant.underflow 0)

/-- SQRTG. -/
def sqrtG : FpResult := vaxResult (Vax.sqrt a Vax.G (vaxChop c) c.variant.underflow 0)

end Arithmetic

/-! ## Comparisons -/

/-- Compare the register images as doubles. -/
def cmpG (k : FpCompare) (a b : Word) : FpResult :=
  let r : Bool × SoftFloat.ExceptionFlags :=
    match k with
    | .eq => SoftFloat.f64Eq a b
    | .lt => SoftFloat.f64LtQuiet a b
    | .le => SoftFloat.f64LeQuiet a b
    | .un => (false, {})
  ⟨if r.1 then 0x4000000000000000 else 0, harvest r.2⟩

/-! ## Conversions -/

/-- Exponent zero with the sign set or a fraction. -/
def vaxReserved (reg : Word) : Bool :=
  (reg >>> 52) &&& 0x7FF == 0 && reg &&& 0x800FFFFFFFFFFFFF != 0

/-- Add to the exponent of a double: a zero or a denormal passes, below the range is a zero with the
sign, and above it the largest exponent. -/
def scaleExp (reg : Word) (dexp : Int) : Word :=
  let exp : Word := (reg >>> 52) &&& 0x7FF
  if exp = 0 then reg
  else
    let ne : Int := exp.toNat + dexp
    if ne ≤ 0 then reg &&& 0x8000000000000000
    else
      let field : Word := BitVec.ofInt 64 (if 0x7FF ≤ ne then 0x7FE else ne)
      (reg &&& (0x800FFFFFFFFFFFFF : Word)) ||| (field <<< 52)

/-- Round an image to 23 fraction bits, a tie to the even neighbour, carrying into the exponent. -/
def roundFreg (reg : Word) : Word :=
  let exp : Word := (reg >>> 52) &&& 0x7FF
  let unit : Word := 1 <<< 29
  let base : Word := reg &&& ~~~(unit - 1)
  if exp = 0 ∨ exp = 0x7FF then base
  else
    let low : Word := reg &&& (unit - 1)
    let half : Word := 1 <<< 28
    if half < low ∨ (low = half ∧ (reg >>> 29) &&& 1 ≠ 0) then base + unit else base

/-- CVTGF. -/
def cvtGF (a : Word) : FpResult :=
  if vaxReserved a then ⟨0, { inv := true }⟩ else ⟨roundFreg a, {}⟩

/-- CVTGD, which the backend leaves undone. -/
def cvtGD (a : Word) : FpResult := ⟨a, {}⟩

/-- CVTDG, which the backend leaves undone. -/
def cvtDG (a : Word) : FpResult := ⟨a, {}⟩

/-- CVTQF. -/
def cvtQF (a : Word) (c : FpExecCtx) : FpResult :=
  let r := SoftFloat.i64ToF64 (resolveRm c) a
  ⟨roundFreg (scaleExp r.1 2), harvest r.2⟩

/-- CVTQG. -/
def cvtQG (a : Word) (c : FpExecCtx) : FpResult :=
  let r := SoftFloat.i64ToF64 (resolveRm c) a
  ⟨scaleExp r.1 2, harvest r.2⟩

/-! ## The backend -/

/-- The backend whose VAX operations are these; its IEEE operations and the conversion from
G_floating to an integer are those of `ieee`. -/
def backend (ieee : FpBackend) : FpBackend where
  bin op a b v fpcr :=
    match op with
    | .addF => addF a b ⟨v, fpcr⟩
    | .subF => subF a b ⟨v, fpcr⟩
    | .mulF => mulF a b ⟨v, fpcr⟩
    | .divF => divF a b ⟨v, fpcr⟩
    | .addG => addG a b ⟨v, fpcr⟩
    | .subG => subG a b ⟨v, fpcr⟩
    | .mulG => mulG a b ⟨v, fpcr⟩
    | .divG => divG a b ⟨v, fpcr⟩
    | .cmpG k => cmpG k a b
    | op => ieee.bin op a b v fpcr
  un op b v fpcr :=
    match op with
    | .sqrtF => sqrtF b ⟨v, fpcr⟩
    | .sqrtG => sqrtG b ⟨v, fpcr⟩
    | .cvtGF => cvtGF b
    | .cvtGD => cvtGD b
    | .cvtDG => cvtDG b
    | .cvtQF => cvtQF b ⟨v, fpcr⟩
    | .cvtQG => cvtQG b ⟨v, fpcr⟩
    | op => ieee.un op b v fpcr

end SoftFloatBackend

end EmulatR
