import Mathlib.Data.Nat.Log
import EmulatR.Library.Rounding
import EmulatR.Fp.VaxFloat

/-! # The vendored SoftFloat routines

The routines of Berkeley SoftFloat that the VAX part of the backend calls
(berkeley-softfloat-3-master/source): the quiet comparisons of doubles, and the conversion of a
64-bit integer to a double. The exception flags and the rounding mode, globals of the source, are
returned and taken.

The rounding every arithmetic routine ends in is the same text for doubles and for singles with
other constants, so it is one definition over the format (`Fmt.roundPack`, `Fmt.normRoundPack`).
Encodings and fractions are natural numbers there: no fraction of these routines reaches the width
of its word. -/

namespace EmulatR

namespace SoftFloat

/-! ## Doubles -/

/-- The exception flags. -/
structure ExceptionFlags where
  /-- An operand is a signaling NaN, or the operation is invalid. -/
  invalid : Bool := false
  /-- Division by zero. -/
  infinite : Bool := false
  /-- The result is too large. -/
  overflow : Bool := false
  /-- The result is too small. -/
  underflow : Bool := false
  /-- The result was rounded. -/
  inexact : Bool := false
  deriving DecidableEq, Repr

/-- The rounding modes the backend selects. -/
inductive RoundingMode
  | nearEven | minMag | min | max
  deriving DecidableEq, Repr

/-- The double is a NaN. -/
def isNaNF64UI (a : Word) : Bool :=
  (~~~a &&& 0x7FF0000000000000 == 0) && (a &&& 0x000FFFFFFFFFFFFF != 0)

/-- The double is a signaling NaN. -/
def isSigNaNF64UI (a : Word) : Bool :=
  (a &&& 0x7FF8000000000000 == 0x7FF0000000000000) && (a &&& 0x0007FFFFFFFFFFFF != 0)

/-- The sign of a double. -/
def signF64UI (a : Word) : Bool := a >>> 63 != 0

/-! ## Comparisons -/

/-- The flags of a comparison: only a signaling NaN is invalid. -/
def nanFlags (a b : Word) : ExceptionFlags := { invalid := isSigNaNF64UI a || isSigNaNF64UI b }

/-- Equality of doubles. -/
def f64Eq (a b : Word) : Bool × ExceptionFlags :=
  if isNaNF64UI a || isNaNF64UI b then (false, nanFlags a b)
  else (a == b || (a ||| b) &&& 0x7FFFFFFFFFFFFFFF == 0, {})

/-- Quiet less-than of doubles. -/
def f64LtQuiet (a b : Word) : Bool × ExceptionFlags :=
  if isNaNF64UI a || isNaNF64UI b then (false, nanFlags a b)
  else
    (if signF64UI a != signF64UI b then signF64UI a && (a ||| b) &&& 0x7FFFFFFFFFFFFFFF != 0
      else a != b && (signF64UI a ^^ decide (a < b)), {})

/-- Quiet less-or-equal of doubles. -/
def f64LeQuiet (a b : Word) : Bool × ExceptionFlags :=
  if isNaNF64UI a || isNaNF64UI b then (false, nanFlags a b)
  else
    (if signF64UI a != signF64UI b then signF64UI a || (a ||| b) &&& 0x7FFFFFFFFFFFFFFF == 0
      else a == b || (signF64UI a ^^ decide (a < b)), {})

/-! ## Formats -/

/-- A binary format. -/
structure Fmt where
  /-- Fraction bits. -/
  fracBits : Nat
  /-- Exponent bits. -/
  expBits : Nat
  /-- An even sum of two numbers with one exponent is packed without a rounding. -/
  shortSum : Bool

/-- Doubles. -/
def f64 : Fmt := ⟨52, 11, false⟩

/-- Singles. -/
def f32 : Fmt := ⟨23, 8, true⟩

namespace Fmt

variable (k : Fmt)

/-- Bits of an encoding. -/
def width : Nat := k.fracBits + k.expBits + 1

/-- Bits below a fraction that is still to be rounded. -/
def guard : Nat := k.expBits - 1

/-- The exponent field of infinities and NaNs. -/
def expMax : Nat := 2 ^ k.expBits - 1

/-- The exponent field of one. -/
def bias : Nat := 2 ^ (k.expBits - 1) - 1

/-- The leading bit of a fraction with its guard bits. -/
def lead : Nat := 2 ^ (k.fracBits + k.guard)

/-- The sign of an encoding. -/
def signUI (ui : Nat) : Bool := decide (ui / 2 ^ (k.width - 1) % 2 = 1)

/-- The exponent field of an image. -/
def expUI (ui : Nat) : Nat := ui / 2 ^ k.fracBits % 2 ^ k.expBits

/-- The fraction field of an image. -/
def fracUI (ui : Nat) : Nat := ui % 2 ^ k.fracBits

/-- The encoding with a sign, an exponent and a fraction; a fraction with its leading bit carries
into the exponent. -/
def packUI (sign : Bool) (exp : Int) (sig : Nat) : Nat :=
  (((if sign then 2 ^ (k.width - 1) else 0) + exp * 2 ^ k.fracBits + sig) % 2 ^ k.width : Int).toNat

end Fmt

/-! ## Shifting and rounding -/

/-- Leading zeros of a number in so many bits. -/
def countLeadingZeros (bits a : Nat) : Nat := if a = 0 then bits else bits - 1 - Nat.log 2 a

/-- Shift right by fewer bits than the word has, keeping in the last bit whether a one was shifted
out. -/
def shortShiftRightJam (a dist : Nat) : Nat := a / 2 ^ dist ||| if a % 2 ^ dist ≠ 0 then 1 else 0

/-- A right shift by any positive distance that keeps what falls off as a sticky bit, in words of
so many bits. -/
def shiftRightJam (bits a dist : Nat) : Nat :=
  if dist < bits - 1 then shortShiftRightJam a dist else if a ≠ 0 then 1 else 0

namespace Fmt

variable (k : Fmt)

/-- What is added before the guard bits are dropped. -/
def roundIncrement (mode : RoundingMode) (sign : Bool) : Nat :=
  match mode with
  | .nearEven => 2 ^ (k.guard - 1)
  | .minMag => 0
  | .min => if sign then 2 ^ k.guard - 1 else 0
  | .max => if sign then 0 else 2 ^ k.guard - 1

/-- Drop the guard bits of a fraction, rounding. -/
def roundSig (mode : RoundingMode) (sign : Bool) (sig : Nat) : Nat :=
  let sig' := (sig + k.roundIncrement mode sign) / 2 ^ k.guard
  -- a tie goes to the even neighbour
  if sig % 2 ^ k.guard = 2 ^ (k.guard - 1) ∧ mode = .nearEven then sig' - sig' % 2 else sig'

/-- Round a fraction and pack the number. -/
def packRounded (mode : RoundingMode) (sign : Bool) (exp : Int) (sig : Nat)
    (flags : ExceptionFlags) : Nat × ExceptionFlags :=
  let sig' := k.roundSig mode sign sig
  (k.packUI sign (if sig' = 0 then 0 else exp) sig',
    { flags with inexact := flags.inexact || decide (sig % 2 ^ k.guard ≠ 0) })

/-- Round a fraction with its leading bit above the guard bits and the fraction bits, and pack the
number, tininess being detected after rounding. -/
def roundPack (mode : RoundingMode) (sign : Bool) (exp : Int) (sig : Nat) : Nat × ExceptionFlags :=
  let inc := k.roundIncrement mode sign
  if exp < 0 then
    let isTiny := exp < -1 ∨ sig + inc < 2 * k.lead
    let sig' := shiftRightJam k.width sig (-exp).toNat
    k.packRounded mode sign 0 sig' { underflow := decide (isTiny ∧ sig' % 2 ^ k.guard ≠ 0) }
  else if k.expMax - 2 < exp ∨ (k.expMax - 2 = exp ∧ 2 * k.lead ≤ sig + inc) then
    (k.packUI sign k.expMax 0 - (if inc = 0 then 1 else 0), { overflow := true, inexact := true })
  else k.packRounded mode sign exp sig {}

/-- Normalize a fraction, round it and pack the number. -/
def normRoundPack (mode : RoundingMode) (sign : Bool) (exp : Int) (sig : Nat) :
    Nat × ExceptionFlags :=
  let shiftDist : Int := countLeadingZeros k.width sig - 1
  let exp := exp - shiftDist
  if k.guard ≤ shiftDist ∧ 0 ≤ exp ∧ exp < k.expMax - 2 then
    (k.packUI sign (if sig ≠ 0 then exp else 0) (sig * 2 ^ (shiftDist - k.guard).toNat), {})
  else k.roundPack mode sign exp (sig * 2 ^ shiftDist.toNat)

end Fmt

/-! ## Integer to double -/

/-- A routine on the encodings of doubles. -/
def onWords (r : Nat × ExceptionFlags) : Word × ExceptionFlags := (BitVec.ofNat 64 r.1, r.2)

/-- A signed 64-bit integer as a double. -/
def i64ToF64 (mode : RoundingMode) (a : Word) : Word × ExceptionFlags :=
  let sign := a.slt 0
  let absA := (if sign then -a else a).toNat
  onWords <|
    if a &&& 0x7FFFFFFFFFFFFFFF = 0 then (if sign then f64.packUI true 0x43E 0 else 0, {})
    else f64.normRoundPack mode sign 0x43C absA

end SoftFloat

end EmulatR
