import EmulatR.Pte.AlphaPte
import EmulatR.Library.BitFields

/-! # The VAX floating kernels

F_floating and G_floating arithmetic in integers (fpBoxLib/vax_float.h). In a register both formats
are a sign, an eleven-bit excess-1024 exponent and 52 fraction bits; G uses all of them, F the top
23. One kernel with the precision and the exponent window as parameters serves both. A kernel
returns the register image and joins its exceptions to those it is given.

`VaxGeom` has the parameters, `unpack`, `norm` and `rpack` are the steps, `addsub`, `mul`, `div` and
`sqrt` the kernels. -/

namespace EmulatR

namespace Vax

/-! ## Geometry and exceptions -/

/-- What the parameters of a format satisfy: a fraction and a window of exponents that fit the
register, with exponent zero left to the zero. -/
structure GeomOk (fracBits : Nat) (expHi expLo : Int) : Prop where
  /-- There is a fraction. -/
  fracBits_pos : 0 < fracBits
  /-- It is no longer than that of G format. -/
  fracBits_le : fracBits ≤ 52
  /-- Exponent zero is reserved. -/
  expLo_pos : 0 < expLo
  /-- There is an exponent. -/
  expLo_le_expHi : expLo ≤ expHi
  /-- It fits the eleven bits of the register. -/
  expHi_le : expHi ≤ 0x7FF

/-- The parameters of a format: its fraction bits and its window of register exponents. -/
structure VaxGeom where
  /-- The significant fraction bits. -/
  fracBits : Nat
  /-- The largest register exponent. -/
  expHi : Int
  /-- The smallest register exponent. -/
  expLo : Int
  /-- They fit the register. -/
  ok : GeomOk fracBits expHi expLo

/-- G format. -/
theorem geomOk_G : GeomOk 52 0x7FF 1 := by constructor <;> decide

/-- F format. -/
theorem geomOk_F : GeomOk 23 1151 897 := by constructor <;> decide

/-- G_floating. -/
def G : VaxGeom := ⟨52, 0x7FF, 1, geomOk_G⟩

/-- F_floating: the memory exponents 1 to 255, expanded. -/
def F : VaxGeom := ⟨23, 1151, 897, geomOk_F⟩

/-- A set of VAX exceptions. -/
abbrev Exc := BitVec 32

namespace VaxExc

/-- Reserved operand. -/
def Inv : Exc := 0x02
/-- Division by zero. -/
def Dze : Exc := 0x04
/-- Overflow. -/
def Ovf : Exc := 0x08
/-- Underflow. -/
def Unf : Exc := 0x10

end VaxExc

/-! ## Unpacked numbers -/

/-- The sign position. -/
def kSignPos : Nat := 63
/-- The exponent position. -/
def kExpPos : Nat := 52
/-- The exponent field. -/
def kExpField : Word := 0x7FF
/-- The excess of the exponent. -/
def kExpBias : Int := 0x400
/-- The implicit leading bit. -/
def kHidden : Word := 1 <<< kExpPos
/-- The fraction field. -/
def kFracMask : Word := (1 <<< kExpPos) - 1
/-- The guard bits. -/
def kGuard : Nat := 63 - kExpPos
/-- The leading bit of a normalized fraction. -/
def kNormBit : Word := 1 <<< 63

/-- An unpacked number. -/
structure Ufp where
  /-- The number is negative. -/
  sign : Bool
  /-- The exponent, excess 1024. -/
  exp : Int
  /-- The fraction, with the leading bit at bit 63. -/
  frac : Word
  deriving DecidableEq, Repr

/-- The sign of a register image. -/
def signOf (op : Word) : Bool := op.getLsbD kSignPos

/-- The exponent field of a register image. -/
def expOf (op : Word) : Nat := ((op >>> kExpPos) &&& kExpField).toNat

/-- The fraction field of a register image. -/
def fracOf (op : Word) : Word := op &&& kFracMask

/-- Unpack a register image. Exponent zero is the zero; with the sign set it is reserved. -/
def unpack (op : Word) (exc : Exc) : Ufp × Exc :=
  if expOf op = 0 then (⟨false, 0, 0⟩, if signOf op then exc ||| VaxExc.Inv else exc)
  else (⟨signOf op, expOf op, (fracOf op ||| kHidden) <<< kGuard⟩, exc)

/-- Shift left until bit 63 is set, at most so many times. -/
def normLoop : Nat → Ufp → Ufp
  | 0, r => r
  | n + 1, r =>
    if r.frac &&& kNormBit = 0 then normLoop n { r with frac := r.frac <<< 1, exp := r.exp - 1 }
    else r

/-- Normalize. A fraction that is not zero takes at most 63 shifts. -/
def norm (r : Ufp) : Ufp :=
  if r.frac = 0 then ⟨false, 0, r.frac⟩ else normLoop 63 r

/-- The position of a format's last fraction bit in an unpacked number. -/
def VaxGeom.roundShift (g : VaxGeom) : Nat := 63 - g.fracBits

/-- What is rounded off lies below the fraction. -/
theorem VaxGeom.roundShift_bounds (g : VaxGeom) :
    11 ≤ g.roundShift ∧ g.roundShift ≤ 62 ∧ g.fracBits + 1 + g.roundShift = 64 := by
  have h1 := g.ok.fracBits_pos
  have h2 := g.ok.fracBits_le
  unfold VaxGeom.roundShift
  omega

/-- Add one half in the last place, renormalizing after a carry out of bit 63. -/
def roundUp (r : Ufp) (g : VaxGeom) : Ufp :=
  let frac := r.frac + ((1 : Word) <<< (g.roundShift - 1))
  if frac &&& kNormBit = 0 then { r with frac := (frac >>> 1) ||| kNormBit, exp := r.exp + 1 }
  else { r with frac := frac }

/-- The register image of a sign, an exponent and a fraction. -/
def packImage (sign : Bool) (exp : Int) (frac : Word) : Word :=
  (if sign then (1 : Word) <<< kSignPos else 0) ||| (BitVec.ofInt 64 exp <<< kExpPos)
    ||| ((frac >>> kGuard) &&& kFracMask)

/-- Round half up, or chop, and clear the bits below the last place of the format. -/
def roundFrac (r : Ufp) (g : VaxGeom) (chop : Bool) : Ufp :=
  let r := if chop then r else roundUp r g
  { r with frac := r.frac &&& ~~~(((1 : Word) <<< g.roundShift) - 1) }

/-- Round a normalized number to the format and pack it. Too large an exponent overflows, too small
a one gives zero. -/
def rpack (r : Ufp) (g : VaxGeom) (chop unfEnable : Bool) (exc : Exc) : Word × Exc :=
  if r.frac = 0 then (0, exc)
  else
    let r := roundFrac r g chop
    let exc := if g.expHi < r.exp then exc ||| VaxExc.Ovf else exc
    let exp := if g.expHi < r.exp then g.expHi else r.exp
    if exp < g.expLo then (0, if unfEnable then exc ||| VaxExc.Unf else exc)
    else (packImage r.sign exp r.frac, exc)

/-! ## Fields -/

/-- The exponent field, as a number. -/
theorem expOf_eq (op : Word) : expOf op = op.toNat / 2 ^ 52 % 2 ^ 11 := by
  have h : kExpField.toNat = 2 ^ 11 - 1 := rfl
  rw [expOf, Library.toNat_and_lowMask 11 h, BitVec.toNat_ushiftRight, Nat.shiftRight_eq_div_pow]
  rfl

/-- The fraction field, as a number. -/
theorem toNat_fracOf (op : Word) : (fracOf op).toNat = op.toNat % 2 ^ 52 := by
  have h : kFracMask.toNat = 2 ^ 52 - 1 := rfl
  rw [fracOf, Library.toNat_and_lowMask 52 h]

/-- The sign, as a number. -/
theorem signOf_eq (op : Word) : signOf op = decide (2 ^ 63 ≤ op.toNat) := by
  have h := BitVec.msb_eq_decide op
  rwa [BitVec.msb_eq_getLsbD_last] at h

/-- The exponent has eleven bits. -/
theorem expOf_lt (op : Word) : expOf op < 2048 := by
  rw [expOf_eq]
  exact Nat.mod_lt _ (by decide)

/-- The fraction has 52. -/
theorem fracOf_lt (op : Word) : (fracOf op).toNat < 2 ^ 52 := by
  rw [toNat_fracOf]
  exact Nat.mod_lt _ (by decide)

/-- The whole fraction of a register image, with its leading bit. -/
def wholeFrac (op : Word) : Nat := 2 ^ 52 + (fracOf op).toNat

/-- The fraction with its hidden bit has 53. -/
theorem wholeFrac_bounds (op : Word) : 2 ^ 52 ≤ wholeFrac op ∧ wholeFrac op < 2 ^ 53 := by
  have h := fracOf_lt op
  unfold wholeFrac
  omega

/-- The fraction of an unpacked number is the whole fraction, eleven guard bits up. -/
theorem toNat_unpackedFrac (op : Word) :
    ((fracOf op ||| kHidden) <<< kGuard).toNat = wholeFrac op * 2 ^ 11 := by
  have hlt := fracOf_lt op
  have hor : (fracOf op ||| kHidden).toNat = wholeFrac op := by
    have hk : kHidden.toNat = 2 ^ 52 := rfl
    have hadd := Nat.two_pow_add_eq_or_of_lt hlt 1
    rw [Nat.mul_one] at hadd
    rw [BitVec.toNat_or, hk, Nat.or_comm, ← hadd, wholeFrac]
  have hb := (wholeFrac_bounds op).2
  rw [BitVec.toNat_shiftLeft, hor, Nat.shiftLeft_eq, Nat.mod_eq_of_lt]
  · rfl
  · have hg : kGuard = 11 := rfl
    rw [hg]
    omega

/-- A zero exponent unpacks to zero, and a reserved operand raises Inv. -/
theorem unpack_of_zero {op : Word} (h : expOf op = 0) (exc : Exc) :
    unpack op exc = (⟨false, 0, 0⟩, if signOf op then exc ||| VaxExc.Inv else exc) := by
  rw [unpack, if_pos h]

/-- A register image, unpacked, that is not a zero. -/
def unpacked (op : Word) : Ufp := ⟨signOf op, expOf op, (fracOf op ||| kHidden) <<< kGuard⟩

/-- Every other image unpacks to its fields. -/
theorem unpack_of_pos {op : Word} (h : expOf op ≠ 0) (exc : Exc) :
    unpack op exc = (unpacked op, exc) := by
  rw [unpack, if_neg h, unpacked]

/-- An unpacked fraction is normalized, with clear guard bits. -/
theorem unpacked_frac (op : Word) :
    2 ^ 63 ≤ (unpacked op).frac.toNat ∧ 2 ^ 11 ∣ (unpacked op).frac.toNat := by
  have hb := (wholeFrac_bounds op).1
  rw [unpacked, toNat_unpackedFrac]
  exact ⟨by omega, Dvd.intro_left _ rfl⟩

/-- The reserved operands: exponent zero with the sign set. -/
def Reserved (op : Word) : Prop := expOf op = 0 ∧ signOf op = true

instance (op : Word) : Decidable (Reserved op) := inferInstanceAs (Decidable (_ ∧ _))

/-- Unpacking an operand that is not reserved raises nothing. -/
theorem unpack_of_not_reserved {op : Word} (h : ¬ Reserved op) (exc : Exc) :
    unpack op exc = (if expOf op = 0 then ⟨false, 0, 0⟩ else unpacked op, exc) := by
  by_cases hz : expOf op = 0
  · have hs : ¬ signOf op = true := fun hs => h ⟨hz, hs⟩
    rw [unpack_of_zero hz, if_neg hs, if_pos hz]
  · rw [unpack_of_pos hz, if_neg hz]

/-- The packed image, field by field. -/
theorem toNat_packImage (sign : Bool) {exp : Int} (frac : Word) (h0 : 0 ≤ exp) (hlt : exp < 2048) :
    (packImage sign exp frac).toNat =
      2 ^ 63 * sign.toNat + 2 ^ 52 * exp.toNat + frac.toNat / 2 ^ 11 % 2 ^ 52 := by
  have hs : (if sign then (1 : Word) <<< kSignPos else 0).toNat = 2 ^ 63 * sign.toNat := by
    cases sign <;> rfl
  have he : (BitVec.ofInt 64 exp <<< kExpPos).toNat = 2 ^ 52 * exp.toNat := by
    have hk : kExpPos = 52 := rfl
    rw [BitVec.toNat_shiftLeft, BitVec.toNat_ofInt, Nat.shiftLeft_eq, hk]
    omega
  have hf : ((frac >>> kGuard) &&& kFracMask).toNat = frac.toNat / 2 ^ 11 % 2 ^ 52 := by
    have hk : kFracMask.toNat = 2 ^ 52 - 1 := rfl
    rw [Library.toNat_and_lowMask 52 hk, BitVec.toNat_ushiftRight, Nat.shiftRight_eq_div_pow]
    rfl
  have hexp : 2 ^ 52 * exp.toNat < 2 ^ 63 := by omega
  have hfrac : frac.toNat / 2 ^ 11 % 2 ^ 52 < 2 ^ 52 := Nat.mod_lt _ (by decide)
  have hhigh : 2 ^ 63 * sign.toNat + 2 ^ 52 * exp.toNat =
      2 ^ 52 * (2 ^ 11 * sign.toNat + exp.toNat) := by omega
  rw [packImage, BitVec.toNat_or, BitVec.toNat_or, hs, he, hf,
    ← Nat.two_pow_add_eq_or_of_lt hexp, hhigh, ← Nat.two_pow_add_eq_or_of_lt hfrac]

/-- Packing keeps the sign, the exponent and the top 53 bits of a normalized fraction. -/
theorem packImage_fields (sign : Bool) {exp : Int} {frac : Word} (h0 : 0 ≤ exp) (hlt : exp < 2048)
    (hf : 2 ^ 63 ≤ frac.toNat) :
    signOf (packImage sign exp frac) = sign ∧ (expOf (packImage sign exp frac) : Int) = exp ∧
      wholeFrac (packImage sign exp frac) = frac.toNat / 2 ^ 11 := by
  have hn := toNat_packImage sign frac h0 hlt
  have hfrac := frac.isLt
  refine ⟨?_, ?_, ?_⟩
  · rw [signOf_eq, hn]
    cases sign with
    | false =>
      rw [Bool.toNat_false, decide_eq_false_iff_not]
      omega
    | true =>
      rw [Bool.toNat_true, decide_eq_true_eq]
      omega
  · rw [expOf_eq, hn]
    cases sign <;> simp only [Bool.toNat_false, Bool.toNat_true] <;> omega
  · rw [wholeFrac, toNat_fracOf, hn]
    cases sign <;> simp only [Bool.toNat_false, Bool.toNat_true] <;> omega

/-! ## Normalizing -/

/-- Bit 63 tells the normalized fractions. -/
theorem and_kNormBit_eq_zero (x : Word) : x &&& kNormBit = 0 ↔ x.toNat < 2 ^ 63 := by
  have hbit : kNormBit = BitVec.twoPow 64 63 := rfl
  have hmsb : x.getLsbD 63 = decide (2 ^ 63 ≤ x.toNat) := signOf_eq x
  rw [hbit, BitVec.and_twoPow, hmsb]
  by_cases hle : 2 ^ 63 ≤ x.toNat
  · rw [decide_eq_true hle, if_pos rfl]
    exact iff_of_false (by decide) (by omega)
  · rw [decide_eq_false hle, if_neg Bool.false_ne_true]
    exact iff_of_true rfl (by omega)

/-- Shifting at most `n` times normalizes a fraction with a bit among the top `n + 1`. -/
theorem normLoop_spec (n : Nat) (hn : n ≤ 63) (r : Ufp) (hr : 2 ^ (63 - n) ≤ r.frac.toNat) :
    ∃ s : Nat, (normLoop n r).sign = r.sign ∧ (normLoop n r).exp = r.exp - s ∧
      (normLoop n r).frac.toNat = r.frac.toNat * 2 ^ s ∧ 2 ^ 63 ≤ r.frac.toNat * 2 ^ s := by
  induction n generalizing r with
  | zero => exact ⟨0, rfl, (Int.sub_zero _).symm, (Nat.mul_one _).symm, by simpa using hr⟩
  | succ n ih =>
    rw [normLoop]
    by_cases h : r.frac &&& kNormBit = 0
    · have hlt := (and_kNormBit_eq_zero r.frac).1 h
      have hshift : (r.frac <<< 1).toNat = r.frac.toNat * 2 := by
        rw [BitVec.toNat_shiftLeft, Nat.shiftLeft_eq, Nat.mod_eq_of_lt (by omega)]
      have hpow : 2 ^ (63 - n) = 2 ^ (63 - (n + 1)) * 2 := by
        rw [← Nat.pow_succ]
        congr 1
        omega
      obtain ⟨s, h1, h2, h3, h4⟩ := ih (by omega) { r with frac := r.frac <<< 1, exp := r.exp - 1 }
        (by simp only [hshift, hpow]; omega)
      simp only [hshift] at h3 h4
      have hsplit : r.frac.toNat * 2 * 2 ^ s = r.frac.toNat * 2 ^ (s + 1) := by
        rw [Nat.mul_assoc, Nat.pow_succ, Nat.mul_comm 2]
      rw [if_pos h]
      refine ⟨s + 1, h1, ?_, ?_, ?_⟩
      · rw [h2]
        push_cast
        omega
      · rw [h3, hsplit]
      · rw [← hsplit]
        exact h4
    · rw [if_neg h]
      have hge : 2 ^ 63 ≤ r.frac.toNat := by
        rw [and_kNormBit_eq_zero] at h
        omega
      exact ⟨0, rfl, (Int.sub_zero _).symm, (Nat.mul_one _).symm, by simpa using hge⟩

/-- Normalizing a fraction that is not zero shifts its leading bit to bit 63 and adjusts the
exponent; no bit is lost. -/
theorem norm_spec {r : Ufp} (hr : r.frac ≠ 0) :
    ∃ s : Nat, (norm r).sign = r.sign ∧ (norm r).exp = r.exp - s ∧
      (norm r).frac.toNat = r.frac.toNat * 2 ^ s ∧ 2 ^ 63 ≤ r.frac.toNat * 2 ^ s := by
  have hpos : 0 < r.frac.toNat := by
    rw [Nat.pos_iff_ne_zero]
    intro h
    exact hr (BitVec.eq_of_toNat_eq h)
  rw [norm, if_neg hr]
  exact normLoop_spec 63 (Nat.le_refl _) r hpos

/-- A normalized number stays as it is. -/
theorem norm_of_normalized {r : Ufp} (hr : 2 ^ 63 ≤ r.frac.toNat) : norm r = r := by
  have hne : r.frac ≠ 0 := by
    intro h
    simp [h] at hr
  have hbit : ¬ r.frac &&& kNormBit = 0 := by
    rw [and_kNormBit_eq_zero]
    omega
  rw [norm, if_neg hne, normLoop, if_neg hbit]

/-- Zero normalizes to the true zero. -/
theorem norm_of_zero {r : Ufp} (hr : r.frac = 0) : norm r = ⟨false, 0, 0⟩ := by
  rw [norm, if_pos hr, hr]

/-! ## Wide helpers -/

/-- The full product of two words, high word first. -/
def umul128 (a b : Word) : Word × Word :=
  let p := a.setWidth 128 * b.setWidth 128
  (p.extractLsb' 64 64, p.extractLsb' 0 64)

/-- The product in two words. -/
theorem toNat_umul128 (a b : Word) :
    (umul128 a b).1.toNat = a.toNat * b.toNat / 2 ^ 64 ∧
      (umul128 a b).2.toNat = a.toNat * b.toNat % 2 ^ 64 := by
  have ha := a.isLt
  have hb := b.isLt
  have hp : a.toNat * b.toNat < 2 ^ 128 :=
    calc a.toNat * b.toNat < 2 ^ 64 * 2 ^ 64 := Nat.mul_lt_mul'' ha hb
      _ = 2 ^ 128 := by decide
  have hmul : (a.setWidth 128 * b.setWidth 128).toNat = a.toNat * b.toNat := by
    rw [BitVec.toNat_mul, BitVec.toNat_setWidth, BitVec.toNat_setWidth,
      Nat.mod_eq_of_lt (by omega : a.toNat < 2 ^ 128), Nat.mod_eq_of_lt (by omega : b.toNat < 2 ^ 128),
      Nat.mod_eq_of_lt hp]
  refine ⟨?_, ?_⟩
  · rw [umul128, BitVec.extractLsb'_toNat, hmul, Nat.shiftRight_eq_div_pow, Nat.mod_eq_of_lt]
    omega
  · rw [umul128, BitVec.extractLsb'_toNat, hmul, Nat.shiftRight_zero]

/-- The steps of a restoring division: the quotient so far and the steps taken. It stops when
nothing is left to divide. -/
def ufdivLoop : Nat → Word → Word → Word → Nat → Word × Nat
  | 0, _, _, quo, i => (quo, i)
  | n + 1, dvd, dvr, quo, i =>
    if dvd = 0 then (quo, i)
    else if dvr ≤ dvd then ufdivLoop n ((dvd - dvr) <<< 1) dvr ((quo <<< 1) + 1) (i + 1)
    else ufdivLoop n (dvd <<< 1) dvr (quo <<< 1) (i + 1)

/-- Divide two fractions to `prec` quotient bits. -/
def ufdiv (dvd dvr : Word) (prec : Nat) : Word :=
  let (quo, i) := ufdivLoop prec dvd dvr 0 0
  quo <<< (63 - i + 1)

/-- The steps of a binary square root, from the bit below `n` down. -/
def sqrtLoop (radHi radLo : Word) : Nat → Word → Word
  | 0, root => root
  | bit + 1, root =>
    let trial := root ||| ((1 : Word) <<< bit)
    let (tHi, tLo) := umul128 trial trial
    sqrtLoop radHi radLo bit
      (if tHi < radHi ∨ (tHi = radHi ∧ tLo ≤ radLo) then trial else root)

/-! ## The operations -/

/-- Add or subtract two aligned numbers: `a` has the larger exponent. -/
def addAligned (a b : Ufp) : Ufp :=
  let sh := (a.exp - b.exp).toNat
  let bfrac := if 64 ≤ sh then 0 else b.frac >>> sh
  if a.sign = b.sign then
    let frac := a.frac + bfrac
    if frac < bfrac then { a with frac := (frac >>> 1) ||| kNormBit, exp := a.exp + 1 }
    else { a with frac := frac }
  else { a with frac := a.frac - bfrac }

/-- ADDF, ADDG, SUBF and SUBG. -/
def addsub (opa opb : Word) (sub : Bool) (g : VaxGeom) (chop unfEnable : Bool) (exc : Exc) :
    Word × Exc :=
  let (a, exc) := unpack opa exc
  let (b, exc) := unpack opb exc
  let b := { b with sign := b.sign ^^ sub }
  if a.exp = 0 then rpack b g chop unfEnable exc
  else if b.exp = 0 then rpack a g chop unfEnable exc
  else
    let r := if a.exp < b.exp then addAligned b a else addAligned a b
    rpack (norm r) g chop unfEnable exc

/-- MULF and MULG. -/
def mul (opa opb : Word) (g : VaxGeom) (chop unfEnable : Bool) (exc : Exc) : Word × Exc :=
  let (a, exc) := unpack opa exc
  let (b, exc) := unpack opb exc
  if a.exp = 0 ∨ b.exp = 0 then (0, exc)
  else
    let sign := a.sign ^^ b.sign
    let exp := a.exp + b.exp - kExpBias - 1
    let (pHi, pLo) := umul128 a.frac b.frac
    -- bit 127 of the product decides which 64 bits lead
    let r : Ufp :=
      if pHi >>> 63 ≠ 0 then ⟨sign, exp + 1, pHi⟩ else ⟨sign, exp, (pHi <<< 1) ||| (pLo >>> 63)⟩
    rpack (norm r) g chop unfEnable exc

/-- DIVF and DIVG. -/
def div (opa opb : Word) (g : VaxGeom) (chop unfEnable : Bool) (exc : Exc) : Word × Exc :=
  let (a, exc) := unpack opa exc
  let (b, exc) := unpack opb exc
  if b.exp = 0 then (0, exc ||| VaxExc.Dze)
  else if a.exp = 0 then (0, exc)
  else
    -- one bit of headroom for the remainder
    let frac := ufdiv (a.frac >>> 1) (b.frac >>> 1) 55
    rpack (norm ⟨a.sign ^^ b.sign, a.exp - b.exp + kExpBias + 1, frac⟩) g chop unfEnable exc

/-- SQRTF and SQRTG. -/
def sqrt (opa : Word) (g : VaxGeom) (chop unfEnable : Bool) (exc : Exc) : Word × Exc :=
  let (a, exc) := unpack opa exc
  if a.sign ∧ a.exp ≠ 0 then (0, exc ||| VaxExc.Inv)
  else if a.exp = 0 then (0, exc)
  else
    let e := a.exp - kExpBias - 1
    -- an even exponent halves
    let m := if e % 2 = 1 then a.frac >>> 1 else a.frac
    let e := if e % 2 = 1 then e + 1 else e
    let root := sqrtLoop (m >>> 2) (m <<< 62) 64 0
    rpack (norm ⟨a.sign, e / 2 + kExpBias + 1, root⟩) g chop unfEnable exc

end Vax

end EmulatR
