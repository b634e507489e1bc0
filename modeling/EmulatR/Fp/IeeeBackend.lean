import EmulatR.Fp.SoftFloatCompare
import EmulatR.Fp.SoftFloatDiv
import EmulatR.Fp.SoftFloatInt

/-! # The IEEE operations of the backend

The IEEE part of the reference backend (fpBoxLib/fp_backend_softfloat.cpp): T arithmetic goes to the
routines for doubles; S arithmetic narrows its operands to singles, runs the routine for singles and
widens the result, so that it rounds once. Square roots stay a parameter.

`reference` is the backend. `reference_arithT`, `reference_arithS`, `reference_cvtTS_cvtST`,
`reference_cvtQ`, `reference_cvtTQ` and `reference_cmpT` compare it with the standard. -/

namespace EmulatR

open Library

namespace SoftFloatBackend

open SoftFloat

/-! ## Arithmetic -/

section Arithmetic

/-- A routine on doubles. -/
def tBinary (op : RoundingMode → Word → Word → Word × ExceptionFlags) (a b : Word) (c : FpExecCtx) :
    FpResult :=
  let r := op (resolveRm c) a b
  ⟨r.1, harvest r.2⟩

/-- A routine on singles: the exceptions of narrowing and of widening are dropped. -/
def sBinary (op : RoundingMode → BitVec 32 → BitVec 32 → BitVec 32 × ExceptionFlags) (a b : Word)
    (c : FpExecCtx) : FpResult :=
  let fa := (f64ToF32 (resolveRm c) a).1
  let fb := (f64ToF32 (resolveRm c) b).1
  let fr := op (resolveRm c) fa fb
  ⟨(f32ToF64 fr.1).1, harvest fr.2⟩

variable (a b : Word) (c : FpExecCtx)

/-- ADDT. -/
def addT : FpResult := tBinary f64Add a b c

/-- SUBT. -/
def subT : FpResult := tBinary f64Sub a b c

/-- MULT. -/
def mulT : FpResult := tBinary f64Mul a b c

/-- DIVT. -/
def divT : FpResult := tBinary f64Div a b c

/-- ADDS. -/
def addS : FpResult := sBinary f32Add a b c

/-- SUBS. -/
def subS : FpResult := sBinary f32Sub a b c

/-- MULS. -/
def mulS : FpResult := sBinary f32Mul a b c

/-- DIVS. -/
def divS : FpResult := sBinary f32Div a b c

end Arithmetic

/-! ## Comparisons and conversions -/

/-- Compare doubles: 2.0 for true. -/
def cmpT (k : FpCompare) (a b : Word) : FpResult :=
  let r : Bool × ExceptionFlags :=
    match k with
    | .eq => f64Eq a b
    | .lt => f64LtQuiet a b
    | .le => f64LeQuiet a b
    | .un => (isNaNF64UI a || isNaNF64UI b, {})
  ⟨if r.1 then 0x4000000000000000 else 0, harvest r.2⟩

/-- CVTTS. -/
def cvtTS (a : Word) (c : FpExecCtx) : FpResult :=
  let fr := f64ToF32 (resolveRm c) a
  ⟨(f32ToF64 fr.1).1, harvest fr.2⟩

/-- The narrowing rounds as the operation before it did. -/
def cvtST (left : RoundingMode) (a : Word) : FpResult := ⟨(f32ToF64 (f64ToF32 left a).1).1, {}⟩

/-- The result of a conversion to an integer: what is out of range is an integer overflow. -/
def i64FpResult (r : Word × ExceptionFlags) : FpResult :=
  ⟨r.1, { ine := r.2.inexact, iov := r.2.invalid }⟩

/-- CVTTQ. -/
def cvtTQ (a : Word) (c : FpExecCtx) : FpResult := i64FpResult (f64ToI64 (resolveRm c) a)

/-- CVTGQ, by way of the double of the same value. -/
def cvtGQ (a : Word) (c : FpExecCtx) : FpResult :=
  if vaxReserved a then ⟨0, { inv := true }⟩
  else i64FpResult (f64ToI64 (resolveRm c) (scaleExp a (-2)))

/-- CVTQT. -/
def cvtQT (a : Word) (c : FpExecCtx) : FpResult :=
  let r := i64ToF64 (resolveRm c) a
  ⟨r.1, harvest r.2⟩

/-- CVTQS. -/
def cvtQS (a : Word) (c : FpExecCtx) : FpResult :=
  let fr := i64ToF32 (resolveRm c) a
  ⟨(f32ToF64 fr.1).1, harvest fr.2⟩

/-- The IEEE operations; `left` is the rounding the operation before left behind, and square roots
are those of `rest`. -/
def ieee (left : RoundingMode) (rest : FpBackend) : FpBackend where
  bin op a b v fpcr :=
    match op with
    | .addT => addT a b ⟨v, fpcr⟩
    | .subT => subT a b ⟨v, fpcr⟩
    | .mulT => mulT a b ⟨v, fpcr⟩
    | .divT => divT a b ⟨v, fpcr⟩
    | .addS => addS a b ⟨v, fpcr⟩
    | .subS => subS a b ⟨v, fpcr⟩
    | .mulS => mulS a b ⟨v, fpcr⟩
    | .divS => divS a b ⟨v, fpcr⟩
    | .cmpT k => cmpT k a b
    | op => rest.bin op a b v fpcr
  un op b v fpcr :=
    match op with
    | .cvtTS => cvtTS b ⟨v, fpcr⟩
    | .cvtST => cvtST left b
    | .cvtTQ => cvtTQ b ⟨v, fpcr⟩
    | .cvtQT => cvtQT b ⟨v, fpcr⟩
    | .cvtQS => cvtQS b ⟨v, fpcr⟩
    | .cvtGQ => cvtGQ b ⟨v, fpcr⟩
    | op => rest.un op b v fpcr

/-- The whole backend. -/
def reference (left : RoundingMode) (rest : FpBackend) : FpBackend := backend (ieee left rest)

/-! ## What the registers hold -/

/-- The exceptions of an outcome of the standard. -/
def excOf (o : Ieee.Outcome ℚ) : FpExc :=
  { inv := o.invalid, dze := o.divByZero, ovf := o.overflow, unf := o.underflow, ine := o.inexact }

/-- A result holds what the standard delivers, and signals what the standard signals. -/
structure Delivers (r : FpResult) (o : Ieee.Outcome ℚ) : Prop where
  /-- The register holds the result. -/
  datum : f64.datum r.bits.toNat = o.datum
  /-- The exceptions are those of the standard. -/
  exc : r.exc = excOf o

/-- The register holds a single: a number single precision has, an infinity, or a quiet NaN. -/
def IsSingle (a : Word) : Prop :=
  (∃ s : BitVec 32, f64.datum a.toNat = f32.datum s.toNat) ∧ (f64.datum a.toNat).isSignaling = false

/-- The quadword an integer is delivered in. -/
def quadword : Option (ℤ × Bool) → FpResult
  | some r => ⟨BitVec.ofInt 64 r.1, { ine := r.2 }⟩
  | none => ⟨0x8000000000000000, { iov := true }⟩

/-- The relation of two data a comparison asks for. -/
def relates (k : FpCompare) (d e : Ieee.Datum ℚ) : Bool :=
  match k with
  | .eq => d.eq e
  | .lt => d.lt e
  | .le => d.lt e || d.eq e
  | .un => d.isNaN || e.isNaN

section Registers

variable {o : Ieee.Outcome ℚ}

/-- A kernel routine that has the outcome delivers it. -/
theorem delivers_of_wordOutcome {r : Word × ExceptionFlags} (h : f64.wordOutcome r = o) :
    Delivers ⟨r.1, harvest r.2⟩ o := by
  subst h
  exact ⟨rfl, rfl⟩

/-- An exact result is itself. -/
theorem exact_datum {d : Ieee.Datum ℚ} (h : d.isSignaling = false) : (Ieee.exact d).datum = d := by
  cases d with
  | nan s =>
    cases s
    · rfl
    · exact (Bool.false_ne_true h.symm).elim
  | inf _ => rfl
  | finite _ _ => rfl

/-- A result of single precision, widened. -/
theorem delivers_widen {r : BitVec 32 × ExceptionFlags} (h : f32.wordOutcome r = o)
    (hquiet : o.datum.isSignaling = false) :
    Delivers ⟨(f32ToF64 r.1).1, harvest r.2⟩ o ∧ IsSingle (f32ToF64 r.1).1 := by
  subst h
  have hdatum : f64.datum (f32ToF64 r.1).1.toNat = f32.datum r.1.toNat :=
    (congrArg Ieee.Outcome.datum (wordOutcome_f32ToF64 r.1)).trans (exact_datum hquiet)
  refine ⟨⟨hdatum, rfl⟩, ⟨r.1, hdatum⟩, ?_⟩
  rw [hdatum]
  exact hquiet

/-- Narrowing a single gives it back, however it rounds. -/
theorem datum_narrow {a : Word} (h : IsSingle a) (mode : RoundingMode) :
    f32.datum (f64ToF32 mode a).1.toNat = f64.datum a.toNat := by
  obtain ⟨⟨s, hs⟩, hquiet⟩ := h
  have hnarrow := congrArg Ieee.Outcome.datum (wordOutcome_f64ToF32 mode a)
  change f32.datum (f64ToF32 mode a).1.toNat = _ at hnarrow
  rw [hnarrow]
  by_cases he : f32.expUI s.toNat = f32.expMax
  · cases hd : f64.datum a.toNat with
    | nan t =>
      rw [hd] at hquiet
      cases t
      · rfl
      · exact (Bool.false_ne_true hquiet.symm).elim
    | inf _ => rfl
    | finite t x =>
      rw [hs, Fmt.datum, Fmt.datumOf, if_pos he] at hd
      split at hd <;> cases hd
  · have hlt := Fmt.expUI_lt Fmt.valid_f32 s.toNat
    have hmax := (Fmt.two_pow_expBits Fmt.valid_f32).2
    rw [hs, Fmt.datum, Fmt.datumOf_finite he, Ieee.convert,
      Fmt.deliver_mag Fmt.valid_f32 mode _ (by omega) (Fmt.fracUI_lt _)]

/-- A single-precision routine delivers through the register format. -/
theorem delivers_sBinary {op : RoundingMode → BitVec 32 → BitVec 32 → BitVec 32 × ExceptionFlags}
    {f : Ieee.Datum ℚ → Ieee.Datum ℚ → Ieee.Outcome ℚ} {a b : Word} {c : FpExecCtx}
    (hop : ∀ x y, f32.wordOutcome (op (resolveRm c) x y) = f (f32.datum x.toNat) (f32.datum y.toNat))
    (hquiet : ∀ d e, (f d e).datum.isSignaling = false) (ha : IsSingle a) (hb : IsSingle b) :
    Delivers (sBinary op a b c) (f (f64.datum a.toNat) (f64.datum b.toNat)) ∧
      IsSingle (sBinary op a b c).bits := by
  have hout := hop (f64ToF32 (resolveRm c) a).1 (f64ToF32 (resolveRm c) b).1
  rw [datum_narrow ha, datum_narrow hb] at hout
  exact delivers_widen hout (hquiet _ _)

/-- A comparison of doubles. -/
theorem cmpT_eq (k : FpCompare) (a b : Word) :
    cmpT k a b =
      ⟨if relates k (f64.datum a.toNat) (f64.datum b.toNat) then 0x4000000000000000 else 0,
        { inv := k != .un &&
            ((f64.datum a.toNat).isSignaling || (f64.datum b.toNat).isSignaling) }⟩ := by
  obtain ⟨heq, hlt, hle⟩ := f64_comparisons a b
  cases k with
  | eq =>
    rw [cmpT, heq]
    rfl
  | lt =>
    rw [cmpT, hlt]
    rfl
  | le =>
    rw [cmpT, hle]
    rfl
  | un =>
    rw [cmpT, isNaNF64UI_eq_isNaN, isNaNF64UI_eq_isNaN]
    rfl

end Registers

/-! ## The backend and the standard -/

section Standard

variable (left : RoundingMode) (rest : FpBackend) (v : FPVariant) (fpcr : Word)

/-- The rounding of an operation, as a mode of the standard. -/
def modeOf (v : FPVariant) (fpcr : Word) : Ieee.Mode := (resolveRm ⟨v, fpcr⟩).attribute

/-- T arithmetic is the arithmetic of the standard in double precision, for every pair of register
images. -/
theorem reference_arithT (a b : Word) :
    Delivers ((reference left rest).bin .addT a b v fpcr)
        (Ieee.add f64.format (modeOf v fpcr) (f64.datum a.toNat) (f64.datum b.toNat)) ∧
      Delivers ((reference left rest).bin .subT a b v fpcr)
        (Ieee.sub f64.format (modeOf v fpcr) (f64.datum a.toNat) (f64.datum b.toNat)) ∧
      Delivers ((reference left rest).bin .mulT a b v fpcr)
        (Ieee.mul f64.format (modeOf v fpcr) (f64.datum a.toNat) (f64.datum b.toNat)) ∧
      Delivers ((reference left rest).bin .divT a b v fpcr)
        (Ieee.div f64.format (modeOf v fpcr) (f64.datum a.toNat) (f64.datum b.toNat)) :=
  ⟨delivers_of_wordOutcome (wordOutcome_f64Add _ a b),
    delivers_of_wordOutcome (wordOutcome_f64Sub _ a b),
    delivers_of_wordOutcome (wordOutcome_f64Mul _ a b),
    delivers_of_wordOutcome (wordOutcome_f64Div _ a b)⟩

/-- S arithmetic of registers that hold singles is the arithmetic of the standard in single
precision, rounded once, and leaves a single. -/
theorem reference_arithS {a b : Word} (ha : IsSingle a) (hb : IsSingle b) :
    (Delivers ((reference left rest).bin .addS a b v fpcr)
        (Ieee.add f32.format (modeOf v fpcr) (f64.datum a.toNat) (f64.datum b.toNat)) ∧
      IsSingle ((reference left rest).bin .addS a b v fpcr).bits) ∧
    (Delivers ((reference left rest).bin .subS a b v fpcr)
        (Ieee.sub f32.format (modeOf v fpcr) (f64.datum a.toNat) (f64.datum b.toNat)) ∧
      IsSingle ((reference left rest).bin .subS a b v fpcr).bits) ∧
    (Delivers ((reference left rest).bin .mulS a b v fpcr)
        (Ieee.mul f32.format (modeOf v fpcr) (f64.datum a.toNat) (f64.datum b.toNat)) ∧
      IsSingle ((reference left rest).bin .mulS a b v fpcr).bits) ∧
    (Delivers ((reference left rest).bin .divS a b v fpcr)
        (Ieee.div f32.format (modeOf v fpcr) (f64.datum a.toNat) (f64.datum b.toNat)) ∧
      IsSingle ((reference left rest).bin .divS a b v fpcr).bits) :=
  ⟨delivers_sBinary (wordOutcome_f32Add _) (Ieee.isSignaling_add _ _) ha hb,
    delivers_sBinary (wordOutcome_f32Sub _) (fun _ _ => Ieee.isSignaling_add _ _ _ _) ha hb,
    delivers_sBinary (wordOutcome_f32Mul _) (Ieee.isSignaling_mul _ _) ha hb,
    delivers_sBinary (wordOutcome_f32Div _) (Ieee.isSignaling_div _ _) ha hb⟩

/-- One is a single. -/
theorem isSingle_one : IsSingle 0x3FF0000000000000 :=
  ⟨⟨0x3F800000, by decide +kernel⟩, by decide +kernel⟩

/-- One over one is a single. -/
theorem reference_arithS_one :
    IsSingle 0x3FF0000000000000 ∧
      IsSingle ((reference .nearEven ⟨fun _ a _ _ _ => ⟨a, {}⟩, fun _ b _ _ => ⟨b, {}⟩⟩).bin .divS
        0x3FF0000000000000 0x3FF0000000000000 {} 0).bits :=
  ⟨isSingle_one, (reference_arithS _ _ _ _ isSingle_one isSingle_one).2.2.2.2⟩

/-- CVTTS rounds once and leaves a single; CVTST gives a single back, whatever rounding the
operation before it left. -/
theorem reference_cvtTS_cvtST (a : Word) :
    Delivers ((reference left rest).un .cvtTS a v fpcr)
        (Ieee.convert f32.format (modeOf v fpcr) (f64.datum a.toNat)) ∧
      IsSingle ((reference left rest).un .cvtTS a v fpcr).bits ∧
      (IsSingle a → Delivers ((reference left rest).un .cvtST a v fpcr)
        { datum := f64.datum a.toNat }) := by
  have hts := delivers_widen (wordOutcome_f64ToF32 (resolveRm ⟨v, fpcr⟩) a)
    (Ieee.isSignaling_convert _ _ _)
  refine ⟨hts.1, hts.2, fun ha => ⟨?_, rfl⟩⟩
  have hnarrow := datum_narrow ha left
  have hwide := congrArg Ieee.Outcome.datum (wordOutcome_f32ToF64 (f64ToF32 left a).1)
  rw [hnarrow, exact_datum ha.2] at hwide
  exact hwide

/-- CVTST gives one back. -/
theorem reference_cvtTS_cvtST_one :
    Delivers ((reference .max ⟨fun _ a _ _ _ => ⟨a, {}⟩, fun _ b _ _ => ⟨b, {}⟩⟩).un .cvtST
      0x3FF0000000000000 {} 0) { datum := f64.datum (0x3FF0000000000000 : Word).toNat } :=
  (reference_cvtTS_cvtST .max ⟨fun _ a _ _ _ => ⟨a, {}⟩, fun _ b _ _ => ⟨b, {}⟩⟩ {} 0
    0x3FF0000000000000).2.2 isSingle_one

/-- CVTQT and CVTQS deliver the integer, rounded once; CVTQS leaves a single. -/
theorem reference_cvtQ (a : Word) :
    Delivers ((reference left rest).un .cvtQT a v fpcr)
        (Ieee.deliver f64.format (modeOf v fpcr) (decide (a.toInt < 0)) (a.toInt.natAbs : ℚ)) ∧
      Delivers ((reference left rest).un .cvtQS a v fpcr)
        (Ieee.deliver f32.format (modeOf v fpcr) (decide (a.toInt < 0)) (a.toInt.natAbs : ℚ)) ∧
      IsSingle ((reference left rest).un .cvtQS a v fpcr).bits := by
  have hqs := delivers_widen (wordOutcome_i64ToF32 (resolveRm ⟨v, fpcr⟩) a)
    (Ieee.isSignaling_deliver _ _ _ _)
  exact ⟨delivers_of_wordOutcome (wordOutcome_i64ToF64 _ a), hqs.1, hqs.2⟩

/-- CVTTQ delivers the number, rounded to an integer; what a quadword has no room for, an infinity
and a NaN are integer overflows. -/
theorem reference_cvtTQ (a : Word) :
    (reference left rest).un .cvtTQ a v fpcr =
      quadword (Ieee.toInt (-2 ^ 63) (2 ^ 63 - 1) (modeOf v fpcr) (f64.datum a.toNat)) := by
  have h : (reference left rest).un .cvtTQ a v fpcr =
      i64FpResult (f64ToI64 (resolveRm ⟨v, fpcr⟩) a) := rfl
  rw [h, f64ToI64_eq, modeOf]
  cases Ieee.toInt (-2 ^ 63) (2 ^ 63 - 1) (resolveRm ⟨v, fpcr⟩).attribute (f64.datum a.toNat) with
  | none => rfl
  | some r => rfl

/-- The comparisons deliver 2.0 or a zero as the data are related; only a signaling NaN is
invalid. -/
theorem reference_cmpT (k : FpCompare) (a b : Word) :
    (reference left rest).bin (.cmpT k) a b v fpcr =
      ⟨if relates k (f64.datum a.toNat) (f64.datum b.toNat) then 0x4000000000000000 else 0,
        { inv := k != .un &&
            ((f64.datum a.toNat).isSignaling || (f64.datum b.toNat).isSignaling) }⟩ :=
  cmpT_eq k a b

end Standard

end SoftFloatBackend

end EmulatR
