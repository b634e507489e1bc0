import EmulatR.Fp.SoftFloat

/-! # SoftFloat arithmetic

The routines of Berkeley SoftFloat the IEEE part of the backend calls
(berkeley-softfloat-3-master/source): addition, subtraction, multiplication and division of doubles
and of singles, and the conversions between them and to and from 64-bit integers.

Each is one definition over the format (`Fmt`), on top of the rounding of `Fp/SoftFloat`. NaNs are
treated as the 8086-SSE specialization treats them.

`addMags`, `subMags`, `mul` and `div` are the arithmetic, `f64ToF32`, `f32ToF64`, `i64ToF32` and
`f64ToI64` the conversions. -/

namespace EmulatR

namespace SoftFloat

/-! ## NaNs -/

namespace Fmt

variable (k : Fmt)

/-- The encoding is a NaN. -/
def isNaNUI (ui : Nat) : Bool := k.expUI ui == k.expMax && k.fracUI ui != 0

/-- The encoding is a signaling NaN: the leading bit of its fraction is clear. -/
def isSigNaNUI (ui : Nat) : Bool := k.isNaNUI ui && decide (k.fracUI ui < 2 ^ (k.fracBits - 1))

/-- The NaN of an invalid operation. -/
def defaultNaNUI : Nat := k.packUI true k.expMax (2 ^ (k.fracBits - 1))

/-- A NaN of two encodings, made quiet: the first, unless only the second is one. -/
def propagateNaNUI (uiA uiB : Nat) : Nat × ExceptionFlags :=
  let isSigNaNA := k.isSigNaNUI uiA
  ((if isSigNaNA then uiA else if k.isNaNUI uiA then uiA else uiB) ||| 2 ^ (k.fracBits - 1),
    { invalid := isSigNaNA || k.isSigNaNUI uiB })

/-! ## Subnormal numbers -/

/-- The exponent and the fraction of a subnormal number, normalized. -/
def normSubnormalSig (sig : Nat) : Int × Nat :=
  let shiftDist := countLeadingZeros k.width sig - k.expBits
  (1 - shiftDist, sig * 2 ^ shiftDist)

/-! ## Addition and subtraction -/

/-- The sum of two magnitudes, under a sign. -/
def addMags (mode : RoundingMode) (uiA uiB : Nat) (signZ : Bool) : Nat × ExceptionFlags :=
  let expA := k.expUI uiA
  let sigA := k.fracUI uiA
  let expB := k.expUI uiB
  let sigB := k.fracUI uiB
  if expA = expB then
    if expA = 0 then (uiA + sigB, {})
    else if expA = k.expMax then
      if sigA ≠ 0 ∨ sigB ≠ 0 then k.propagateNaNUI uiA uiB else (uiA, {})
    else
      let sigZ := 2 * 2 ^ k.fracBits + sigA + sigB
      if k.shortSum ∧ sigZ % 2 = 0 ∧ expA < k.expMax - 1 then
        (k.packUI signZ expA (sigZ / 2), {})
      else k.roundPack mode signZ expA (sigZ * 2 ^ (k.guard - 1))
  else
    let half := k.lead / 2
    let sigA := sigA * 2 ^ (k.guard - 1)
    let sigB := sigB * 2 ^ (k.guard - 1)
    -- the smaller number is brought to the exponent of the larger, and the sum normalized
    let sum (expZ : Nat) (sigA sigB : Nat) : Nat × ExceptionFlags :=
      let sigZ := half + sigA + sigB
      if sigZ < k.lead then k.roundPack mode signZ (expZ - 1) (sigZ * 2)
      else k.roundPack mode signZ expZ sigZ
    if expA < expB then
      if expB = k.expMax then
        if sigB ≠ 0 then k.propagateNaNUI uiA uiB else (k.packUI signZ k.expMax 0, {})
      else
        let sigA := if expA ≠ 0 then sigA + half else sigA * 2
        sum expB (shiftRightJam k.width sigA (expB - expA)) sigB
    else
      if expA = k.expMax then
        if sigA ≠ 0 then k.propagateNaNUI uiA uiB else (uiA, {})
      else
        let sigB := if expB ≠ 0 then sigB + half else sigB * 2
        sum expA sigA (shiftRightJam k.width sigB (expA - expB))

/-- The difference of two magnitudes, under the sign of the first. -/
def subMags (mode : RoundingMode) (uiA uiB : Nat) (signZ : Bool) : Nat × ExceptionFlags :=
  let expA := k.expUI uiA
  let sigA := k.fracUI uiA
  let expB := k.expUI uiB
  let sigB := k.fracUI uiB
  if expA = expB then
    if expA = k.expMax then
      if sigA ≠ 0 ∨ sigB ≠ 0 then k.propagateNaNUI uiA uiB
      else (k.defaultNaNUI, { invalid := true })
    else
      let sigDiff : Int := sigA - sigB
      if sigDiff = 0 then (k.packUI (decide (mode = .min)) 0 0, {})
      else
        let expA := if expA ≠ 0 then expA - 1 else expA
        let signZ := if sigDiff < 0 then !signZ else signZ
        let sigDiff := sigDiff.natAbs
        let shiftDist := countLeadingZeros k.width sigDiff - k.expBits
        -- the exponent stops at the subnormals
        if expA < shiftDist then (k.packUI signZ 0 (sigDiff * 2 ^ expA), {})
        else (k.packUI signZ (expA - shiftDist) (sigDiff * 2 ^ shiftDist), {})
  else
    let sigA := sigA * 2 ^ k.guard
    let sigB := sigB * 2 ^ k.guard
    if expA < expB then
      if expB = k.expMax then
        if sigB ≠ 0 then k.propagateNaNUI uiA uiB else (k.packUI (!signZ) k.expMax 0, {})
      else
        let sigA := sigA + if expA ≠ 0 then k.lead else sigA
        k.normRoundPack mode (!signZ) (expB - 1)
          (k.lead + sigB - shiftRightJam k.width sigA (expB - expA))
    else
      if expA = k.expMax then
        if sigA ≠ 0 then k.propagateNaNUI uiA uiB else (uiA, {})
      else
        let sigB := sigB + if expB ≠ 0 then k.lead else sigB
        k.normRoundPack mode signZ (expA - 1)
          (k.lead + sigA - shiftRightJam k.width sigB (expA - expB))

/-- `f64_add` and `f32_add`: magnitudes are added or subtracted as the signs say. -/
def add (mode : RoundingMode) (uiA uiB : Nat) : Nat × ExceptionFlags :=
  let signA := k.signUI uiA
  if signA = k.signUI uiB then k.addMags mode uiA uiB signA else k.subMags mode uiA uiB signA

/-- `f64_sub` and `f32_sub`. -/
def sub (mode : RoundingMode) (uiA uiB : Nat) : Nat × ExceptionFlags :=
  let signA := k.signUI uiA
  if signA = k.signUI uiB then k.subMags mode uiA uiB signA else k.addMags mode uiA uiB signA

/-! ## Multiplication -/

/-- The product. `mulJam` multiplies two fractions and keeps the high word of the product, its last
bit saying whether the low word is not zero. -/
def mul (mulJam : Nat → Nat → Nat) (mode : RoundingMode) (uiA uiB : Nat) : Nat × ExceptionFlags :=
  let expA := k.expUI uiA
  let sigA := k.fracUI uiA
  let expB := k.expUI uiB
  let sigB := k.fracUI uiB
  let signZ := k.signUI uiA ^^ k.signUI uiB
  let infArg (magBits : Nat) : Nat × ExceptionFlags :=
    if magBits = 0 then (k.defaultNaNUI, { invalid := true }) else (k.packUI signZ k.expMax 0, {})
  if expA = k.expMax then
    if sigA ≠ 0 ∨ (expB = k.expMax ∧ sigB ≠ 0) then k.propagateNaNUI uiA uiB
    else infArg (expB ||| sigB)
  else if expB = k.expMax then
    if sigB ≠ 0 then k.propagateNaNUI uiA uiB else infArg (expA ||| sigA)
  else if (expA = 0 ∧ sigA = 0) ∨ (expB = 0 ∧ sigB = 0) then (k.packUI signZ 0 0, {})
  else
    let a : Int × Nat := if expA = 0 then k.normSubnormalSig sigA else (expA, sigA)
    let b : Int × Nat := if expB = 0 then k.normSubnormalSig sigB else (expB, sigB)
    let expZ := a.1 + b.1 - k.bias
    let sigA := (a.2 ||| 2 ^ k.fracBits) * 2 ^ k.guard
    let sigB := (b.2 ||| 2 ^ k.fracBits) * 2 ^ (k.guard + 1)
    let sigZ := mulJam sigA sigB
    if sigZ < k.lead then k.roundPack mode signZ (expZ - 1) (sigZ * 2)
    else k.roundPack mode signZ expZ sigZ

/-! ## Division -/

/-- The quotient. `divSig` divides a fraction by one not above it and not below half of it. -/
def div (divSig : Nat → Nat → Nat) (mode : RoundingMode) (uiA uiB : Nat) : Nat × ExceptionFlags :=
  let expA := k.expUI uiA
  let sigA := k.fracUI uiA
  let expB := k.expUI uiB
  let sigB := k.fracUI uiB
  let signZ := k.signUI uiA ^^ k.signUI uiB
  if expA = k.expMax then
    if sigA ≠ 0 then k.propagateNaNUI uiA uiB
    else if expB = k.expMax then
      if sigB ≠ 0 then k.propagateNaNUI uiA uiB else (k.defaultNaNUI, { invalid := true })
    else (k.packUI signZ k.expMax 0, {})
  else if expB = k.expMax then
    if sigB ≠ 0 then k.propagateNaNUI uiA uiB else (k.packUI signZ 0 0, {})
  else if expB = 0 ∧ sigB = 0 then
    if expA ||| sigA = 0 then (k.defaultNaNUI, { invalid := true })
    else (k.packUI signZ k.expMax 0, { infinite := true })
  else if expA = 0 ∧ sigA = 0 then (k.packUI signZ 0 0, {})
  else
    let a : Int × Nat := if expA = 0 then k.normSubnormalSig sigA else (expA, sigA)
    let b : Int × Nat := if expB = 0 then k.normSubnormalSig sigB else (expB, sigB)
    let expZ := a.1 - b.1 + (k.bias - 1)
    let sigA := a.2 ||| 2 ^ k.fracBits
    let sigB := b.2 ||| 2 ^ k.fracBits
    if sigA < sigB then k.roundPack mode signZ (expZ - 1) (divSig (sigA * 2) sigB)
    else k.roundPack mode signZ expZ (divSig sigA sigB)

end Fmt

/-- The 128-bit product of two words, from the products of their halves. -/
def mul64To128 (a b : Word) : Word × Word :=
  let a32 := a >>> 32
  let a0 := a &&& 0xFFFFFFFF
  let b32 := b >>> 32
  let b0 := b &&& 0xFFFFFFFF
  let v0 := a0 * b0
  let mid1 := a32 * b0
  let mid := mid1 + a0 * b32
  let v64 := a32 * b32 + (((if mid < mid1 then (1 : Word) else 0) <<< 32) ||| (mid >>> 32))
  let mid' := mid <<< 32
  let v0 := v0 + mid'
  (v64 + (if v0 < mid' then 1 else 0), v0)

/-- The high word of the product of two fractions of doubles, jammed. -/
def mulJam64 (a b : Nat) : Nat :=
  let sig128Z := mul64To128 (BitVec.ofNat 64 a) (BitVec.ofNat 64 b)
  (sig128Z.1 ||| if sig128Z.2 ≠ 0 then 1 else 0).toNat

/-- The high word of the product of two fractions of singles, jammed. -/
def mulJam32 (a b : Nat) : Nat := shortShiftRightJam (a * b) 32

/-- The reciprocal of a normalized 32-bit fraction, from below. -/
def approxRecip32 (a : Nat) : Nat := 0x7FFFFFFFFFFFFFFF / a

/-- What is left of a number when the divisor is taken off it so many times, as a word. -/
def divRemainder (sigB n doubleTerm : Nat) : Word :=
  (BitVec.ofNat 64 n - BitVec.ofNat 64 (doubleTerm * (sigB / 2 ^ 32))) <<< 28 -
    BitVec.ofNat 64 (doubleTerm * (sigB % 2 ^ 32 / 2 ^ 4))

/-- The fraction of the quotient of two fractions of doubles, from the reciprocal of the high half
of the divisor. -/
def divSig64 (a b : Nat) : Nat :=
  let sigA := a * 2 ^ 10
  let sigB := b * 2 ^ 11
  let recip32 := approxRecip32 (sigB / 2 ^ 32) - 2
  let sig32Z := sigA / 2 ^ 32 * recip32 / 2 ^ 32
  let rem := divRemainder sigB sigA (sig32Z * 2)
  let q := rem.toNat / 2 ^ 32 * recip32 / 2 ^ 32 + 4
  let sigZ := sig32Z * 2 ^ 32 + q * 2 ^ 4
  if sigZ % 2 ^ 9 < 4 * 2 ^ 4 then
    -- the quotient may lie on either side of a tie
    let q := q - q % 8
    let sigZ := sigZ - sigZ % 2 ^ 7
    let rem := divRemainder sigB rem.toNat (q * 2)
    if rem.getLsbD 63 then sigZ - 2 ^ 7 else sigZ ||| if rem ≠ 0 then 1 else 0
  else sigZ

/-- The fraction of the quotient of two fractions of singles. -/
def divSig32 (a b : Nat) : Nat :=
  let sig64A := a * 2 ^ 30
  let sigZ := sig64A / b
  if sigZ % 2 ^ 6 = 0 then sigZ ||| if b * sigZ ≠ sig64A then 1 else 0 else sigZ

/-! ## NaNs between formats -/

/-- A NaN in no format. -/
structure CommonNaN where
  /-- Its sign. -/
  sign : Bool
  /-- Its fraction, at the top of a word. -/
  v64 : Nat
  deriving DecidableEq, Repr

namespace Fmt

variable (k : Fmt)

/-- Take a NaN out of the format. -/
def toCommonNaN (ui : Nat) : CommonNaN × ExceptionFlags :=
  (⟨k.signUI ui, ui * 2 ^ (64 - k.fracBits) % 2 ^ 64⟩, { invalid := k.isSigNaNUI ui })

/-- Put a NaN into the format, made quiet. -/
def ofCommonNaN (a : CommonNaN) : Nat :=
  (if a.sign then 2 ^ (k.width - 1) else 0) |||
    (k.expMax * 2 ^ k.fracBits + 2 ^ (k.fracBits - 1)) ||| a.v64 / 2 ^ (64 - k.fracBits)

end Fmt

/-! ## The routines -/

/-- A routine on the encodings of singles. -/
def onSingles (r : Nat × ExceptionFlags) : BitVec 32 × ExceptionFlags := (BitVec.ofNat 32 r.1, r.2)

section Routines

variable (mode : RoundingMode)

/-- `f64_add`. -/
def f64Add (a b : Word) : Word × ExceptionFlags := onWords (f64.add mode a.toNat b.toNat)

/-- `f64_sub`. -/
def f64Sub (a b : Word) : Word × ExceptionFlags := onWords (f64.sub mode a.toNat b.toNat)

/-- `f64_mul`. -/
def f64Mul (a b : Word) : Word × ExceptionFlags :=
  onWords (f64.mul mulJam64 mode a.toNat b.toNat)

/-- `f64_div`. -/
def f64Div (a b : Word) : Word × ExceptionFlags :=
  onWords (f64.div divSig64 mode a.toNat b.toNat)

/-- `f32_add`. -/
def f32Add (a b : BitVec 32) : BitVec 32 × ExceptionFlags :=
  onSingles (f32.add mode a.toNat b.toNat)

/-- `f32_sub`. -/
def f32Sub (a b : BitVec 32) : BitVec 32 × ExceptionFlags :=
  onSingles (f32.sub mode a.toNat b.toNat)

/-- `f32_mul`. -/
def f32Mul (a b : BitVec 32) : BitVec 32 × ExceptionFlags :=
  onSingles (f32.mul mulJam32 mode a.toNat b.toNat)

/-- `f32_div`. -/
def f32Div (a b : BitVec 32) : BitVec 32 × ExceptionFlags :=
  onSingles (f32.div divSig32 mode a.toNat b.toNat)

end Routines

/-! ## Conversions -/

/-- A double as a single. -/
def f64ToF32 (mode : RoundingMode) (a : Word) : BitVec 32 × ExceptionFlags :=
  let sign := f64.signUI a.toNat
  let exp := f64.expUI a.toNat
  let frac := f64.fracUI a.toNat
  onSingles <|
    if exp = f64.expMax then
      if frac ≠ 0 then
        let n := f64.toCommonNaN a.toNat
        (f32.ofCommonNaN n.1, n.2)
      else (f32.packUI sign f32.expMax 0, {})
    else
      let frac32 := shortShiftRightJam frac 22
      if exp = 0 ∧ frac32 = 0 then (f32.packUI sign 0 0, {})
      else f32.roundPack mode sign (exp - 0x381) (frac32 ||| 0x40000000)

/-- A single as a double. -/
def f32ToF64 (a : BitVec 32) : Word × ExceptionFlags :=
  let sign := f32.signUI a.toNat
  let exp := f32.expUI a.toNat
  let frac := f32.fracUI a.toNat
  onWords <|
    if exp = f32.expMax then
      if frac ≠ 0 then
        let n := f32.toCommonNaN a.toNat
        (f64.ofCommonNaN n.1, n.2)
      else (f64.packUI sign f64.expMax 0, {})
    else if exp = 0 ∧ frac = 0 then (f64.packUI sign 0 0, {})
    else
      let norm := f32.normSubnormalSig frac
      let a : Int × Nat := if exp = 0 then (norm.1 - 1, norm.2) else (exp, frac)
      (f64.packUI sign (a.1 + 0x380) (a.2 * 2 ^ 29), {})

/-- A signed 64-bit integer as a single. -/
def i64ToF32 (mode : RoundingMode) (a : Word) : BitVec 32 × ExceptionFlags :=
  let sign := a.slt 0
  let absA := (if sign then -a else a).toNat
  let shiftDist : Int := countLeadingZeros 64 absA - 40
  onSingles <|
    if 0 ≤ shiftDist then
      (if a ≠ 0 then f32.packUI sign (0x95 - shiftDist) (absA * 2 ^ shiftDist.toNat) else 0, {})
    else
      let shiftDist := shiftDist + 7
      f32.roundPack mode sign (0x9C - shiftDist)
        (if shiftDist < 0 then shortShiftRightJam absA (-shiftDist).toNat
          else absA * 2 ^ shiftDist.toNat)

/-- What is shifted out of a word goes to the top of another, jammed. -/
def shiftRightJam64Extra (a extra dist : Nat) : Nat × Nat :=
  let z : Nat × Nat :=
    if dist < 64 then (a / 2 ^ dist, a * 2 ^ (64 - dist) % 2 ^ 64)
    else (0, if dist = 64 then a else if a ≠ 0 then 1 else 0)
  (z.1, z.2 ||| if extra ≠ 0 then 1 else 0)

/-- The integer delivered for a number out of range, and for a NaN. -/
def i64Invalid : Word × ExceptionFlags := (0x8000000000000000, { invalid := true })

/-- A magnitude with its fraction to a signed 64-bit integer, inexactness being reported. -/
def roundToI64 (mode : RoundingMode) (sign : Bool) (sig sigExtra : Word) : Word × ExceptionFlags :=
  let increment : Bool :=
    match mode with
    | .nearEven => decide (0x8000000000000000 ≤ sigExtra)
    | .minMag => false
    | .min => sigExtra != 0 && sign
    | .max => sigExtra != 0 && !sign
  let sig := if increment then sig + 1 else sig
  if increment ∧ sig = 0 then i64Invalid
  else
    let sig := if increment ∧ sigExtra = 0x8000000000000000 ∧ mode = .nearEven then sig &&& ~~~1
      else sig
    let z := if sign then -sig else sig
    if z ≠ 0 ∧ z.slt 0 ≠ sign then i64Invalid else (z, { inexact := sigExtra != 0 })

/-- A double as a signed 64-bit integer. -/
def f64ToI64 (mode : RoundingMode) (a : Word) : Word × ExceptionFlags :=
  let sign := f64.signUI a.toNat
  let exp := f64.expUI a.toNat
  let frac := f64.fracUI a.toNat
  let sig := if exp ≠ 0 then frac ||| 2 ^ 52 else frac
  let shiftDist : Int := 0x433 - exp
  if shiftDist ≤ 0 then
    if shiftDist < -11 then i64Invalid
    else roundToI64 mode sign (BitVec.ofNat 64 (sig * 2 ^ (-shiftDist).toNat)) 0
  else
    let sigExtra := shiftRightJam64Extra sig 0 shiftDist.toNat
    roundToI64 mode sign (BitVec.ofNat 64 sigExtra.1) (BitVec.ofNat 64 sigExtra.2)

end SoftFloat

end EmulatR
