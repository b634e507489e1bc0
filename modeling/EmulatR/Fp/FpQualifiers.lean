import EmulatR.Boxes.Leaf
import EmulatR.Invariants.Fpcr
import EmulatR.Fp.VaxConvert

/-! # The qualifiers of a floating operate

The function field of a floating operate encodes its rounding and its trap qualifiers. What reaches
the backend is a record built from it: the record's underflow flag is never set, its software
completion misses the VAX /S, and its dynamic rounding is read as rounding to nearest.

* `QualifiersKept` says that the backend sees what the word encodes, and that an underflow is
  reported exactly when the word enables it.
* `qualifiersKept_iff` says for which words it does. The operation and the word are quantified
  apart: the record is built from the word alone, so every word is covered with the operation it
  decodes to.
* `ExactResult` is about the operations with a result in F_floating or G_floating. CVTGD and CVTDG
  have none: the backend knows no D_floating, and returns their operand as it is. -/

namespace EmulatR

open Vax SoftFloatBackend Library

/-! ## What the function field encodes -/

/-- An operation of the backend. -/
inductive FpOperate
  /-- One of two operands. -/
  | bin (op : FpBinOp)
  /-- One of operand B alone. -/
  | un (op : FpUnOp)
  deriving DecidableEq, Repr

namespace FpOperate

/-- Its leaf. -/
def leaf : FpOperate → OrdinaryLeaf
  | bin op => .fpBin op
  | un op => .fpUn op

/-- The operation converts to an integer: its /V stands where the others have /U. -/
def toInteger : FpOperate → Bool
  | un .cvtTQ => true
  | un .cvtGQ => true
  | _ => false

end FpOperate

/-- The rounding field of a word, function bits 7:6. -/
def rndOf (e : Encoded) : BitVec 2 := (e.extractLsb' 5 11).extractLsb' 6 2

/-- The trap field of a word, function bits 10:8: /S, /I and /U. -/
def trpOf (e : Encoded) : BitVec 3 := (e.extractLsb' 5 11).extractLsb' 8 3

/-- The word has the /U qualifier. -/
def encodesUnderflow (op : FpOperate) (e : Encoded) : Bool := (trpOf e).getLsbD 0 && !op.toInteger

/-- The word has the /S qualifier. -/
def encodesSoftware (e : Encoded) : Bool := (trpOf e).getLsbD 2

/-- The rounding of the word: /C, /M, to nearest, or /D as FPCR says. -/
def encodedRm (e : Encoded) (fpcr : Word) : SoftFloat.RoundingMode :=
  if rndOf e = 0 then .minMag else if rndOf e = 1 then .min else if rndOf e = 2 then .nearEven
  else dynamicRm fpcr

/-! ## What a VAX operation computes -/

/-- The exact result of a VAX operation on numbers of its format. -/
inductive ExactResult : FpOperate → VaxGeom → Word → Word → ℝ → Prop
  /-- ADDF. -/
  | addF {a b : Word} (ha : IsImage F a) (hb : IsImage F b) :
      ExactResult (.bin .addF) F a b (vaxValue a + vaxValue b)
  /-- SUBF. -/
  | subF {a b : Word} (ha : IsImage F a) (hb : IsImage F b) :
      ExactResult (.bin .subF) F a b (vaxValue a - vaxValue b)
  /-- MULF. -/
  | mulF {a b : Word} (ha : IsImage F a) (hb : IsImage F b) :
      ExactResult (.bin .mulF) F a b (vaxValue a * vaxValue b)
  /-- DIVF, by something else than zero. -/
  | divF {a b : Word} (ha : IsImage F a) (hb : IsImage F b) (h0 : vaxValue b ≠ 0) :
      ExactResult (.bin .divF) F a b (vaxValue a / vaxValue b)
  /-- ADDG. -/
  | addG {a b : Word} (ha : IsImage G a) (hb : IsImage G b) :
      ExactResult (.bin .addG) G a b (vaxValue a + vaxValue b)
  /-- SUBG. -/
  | subG {a b : Word} (ha : IsImage G a) (hb : IsImage G b) :
      ExactResult (.bin .subG) G a b (vaxValue a - vaxValue b)
  /-- MULG. -/
  | mulG {a b : Word} (ha : IsImage G a) (hb : IsImage G b) :
      ExactResult (.bin .mulG) G a b (vaxValue a * vaxValue b)
  /-- DIVG, by something else than zero. -/
  | divG {a b : Word} (ha : IsImage G a) (hb : IsImage G b) (h0 : vaxValue b ≠ 0) :
      ExactResult (.bin .divG) G a b (vaxValue a / vaxValue b)
  /-- SQRTF, of no negative number. -/
  | sqrtF {a b : Word} (hb : IsImage F b) (h0 : 0 ≤ vaxValue b) :
      ExactResult (.un .sqrtF) F a b (√(vaxValue b))
  /-- SQRTG, of no negative number. -/
  | sqrtG {a b : Word} (hb : IsImage G b) (h0 : 0 ≤ vaxValue b) :
      ExactResult (.un .sqrtG) G a b (√(vaxValue b))
  /-- CVTGF. -/
  | cvtGF {a b : Word} (hb : IsImage G b) : ExactResult (.un .cvtGF) F a b (vaxValue b)

/-- The UNF bit of FPCR. -/
def unfSet (fpcr : Word) : Bool := fpcr.getLsbD 55

/-- The backend sees the qualifiers that a word encodes, and a VAX operation whose exact result lies
below the range of its format sets UNF if the word has /U, and only then. -/
structure QualifiersKept (ieee : FpBackend) (op : FpOperate) (g : InstructionGrain) (fpcr : Word) :
    Prop where
  /-- The record asks for the underflow that the word enables. -/
  underflow : (fpVariantFromEncoded g.encoded).underflow = encodesUnderflow op g.encoded
  /-- It asks for the software completion that the word asks for. -/
  software : (fpVariantFromEncoded g.encoded).hasSoftwareCompletion = encodesSoftware g.encoded
  /-- The rounding is that of the word, and of FPCR if the word leaves it to it. -/
  rounding : resolveRm ⟨fpVariantFromEncoded g.encoded, fpcr⟩ = encodedRm g.encoded fpcr
  /-- A VAX operation chops exactly for a word with /C. -/
  chop : vaxChop ⟨fpVariantFromEncoded g.encoded, fpcr⟩ = decide (rndOf g.encoded = 0)
  /-- An underflow sets UNF exactly if the word enables it. -/
  unf : ∀ (c : ExecCtx) (cpu : CpuState) (geom : VaxGeom) (x : ℝ), cpu.fpcr = fpcr →
    unfSet fpcr = false → ExactResult op geom c.opA c.opB x → x ≠ 0 →
    vaxExp geom (decide (rndOf g.encoded = 0)) x < geom.expLo →
    unfSet (op.leaf.exec (backend ieee) g c cpu).1.fpcr = encodesUnderflow op g.encoded

/-! ## The record the backend sees -/

/-- The rounding after the flags are folded in: what is left to FPCR rounds to nearest, no flag
asking for the dynamic rounding. -/
theorem getEffectiveRoundingMode_fpVariantFromEncoded (e : Encoded) :
    (fpVariantFromEncoded e).getEffectiveRoundingMode =
      if rndOf e = 0 then .roundTowardZero else if rndOf e = 1 then .roundDown
      else .roundToNearest := by
  have hmode : (fpVariantFromEncoded e).roundingMode =
      if rndOf e = 0 then .roundTowardZero else if rndOf e = 1 then .roundDown
      else if rndOf e = 2 then .roundToNearest else .useFPCR := rfl
  have hflags : (fpVariantFromEncoded e).chopped = false ∧
      (fpVariantFromEncoded e).minusInf = false ∧ (fpVariantFromEncoded e).dynamic = false :=
    ⟨rfl, rfl, rfl⟩
  rw [FPVariant.getEffectiveRoundingMode, hmode, hflags.1, hflags.2.1, hflags.2.2]
  split_ifs <;> simp_all

/-- The rounding of an IEEE operation never depends on FPCR. -/
theorem resolveRm_fpVariantFromEncoded (e : Encoded) (fpcr : Word) :
    resolveRm ⟨fpVariantFromEncoded e, fpcr⟩ =
      if rndOf e = 0 then .minMag else if rndOf e = 1 then .min else .nearEven := by
  rw [resolveRm, getEffectiveRoundingMode_fpVariantFromEncoded]
  split_ifs <;> rfl

/-- A VAX operation chops exactly for a word with /C. -/
theorem vaxChop_fpVariantFromEncoded (e : Encoded) (fpcr : Word) :
    vaxChop ⟨fpVariantFromEncoded e, fpcr⟩ = decide (rndOf e = 0) := by
  rw [vaxChop, getEffectiveRoundingMode_fpVariantFromEncoded, decide_eq_decide]
  split_ifs <;> simp_all

/-- The software completion is seen for /SU and /SUI, and their /SV and /SVI. -/
theorem hasSoftwareCompletion_fpVariantFromEncoded (e : Encoded) :
    (fpVariantFromEncoded e).hasSoftwareCompletion = decide (trpOf e = 5 ∨ trpOf e = 7) := by
  have hsub : (fpVariantFromEncoded e).suppressUnderflow = decide (trpOf e = 5 ∨ trpOf e = 7) ∧
      (fpVariantFromEncoded e).suppressInexact = decide (trpOf e = 7) := by
    have hall : ∀ trp : BitVec 3,
        ((FPVariant.ofModes .useFPCR (if trp = 0 then .none else if trp = 1 then .underflow
          else if trp = 5 then .su else if trp = 7 then .sui else .none) (trp = 7)).suppressUnderflow
            = decide (trp = 5 ∨ trp = 7)) ∧
        ((FPVariant.ofModes .useFPCR (if trp = 0 then .none else if trp = 1 then .underflow
          else if trp = 5 then .su else if trp = 7 then .sui else .none) (trp = 7)).suppressInexact
            = decide (trp = 7)) := by decide
    exact hall (trpOf e)
  have hsoft : (fpVariantFromEncoded e).software = false := rfl
  rw [FPVariant.hasSoftwareCompletion, hsoft, hsub.1, hsub.2, Bool.false_or, ← Bool.decide_or,
    decide_eq_decide]
  exact ⟨fun h => h.elim id Or.inr, Or.inl⟩

/-- The software completion seen is the encoded one except on /S alone. -/
theorem software_iff (e : Encoded) :
    (fpVariantFromEncoded e).hasSoftwareCompletion = encodesSoftware e ↔
      trpOf e ≠ 4 ∧ trpOf e ≠ 6 := by
  have hall : ∀ trp : BitVec 3,
      decide (trp = 5 ∨ trp = 7) = trp.getLsbD 2 ↔ trp ≠ 4 ∧ trp ≠ 6 := by decide
  rw [hasSoftwareCompletion_fpVariantFromEncoded]
  exact hall (trpOf e)

/-- The rounding seen is the encoded one unless FPCR is asked for one that is not to nearest. -/
theorem rounding_iff (e : Encoded) (fpcr : Word) :
    resolveRm ⟨fpVariantFromEncoded e, fpcr⟩ = encodedRm e fpcr ↔
      (rndOf e = 3 → fpcr.extractLsb' 58 2 = 2) := by
  have hdyn : ∀ d : BitVec 2, SoftFloat.RoundingMode.nearEven = (if d = 0 then .minMag
      else if d = 1 then .min else if d = 3 then .max else .nearEven) ↔ d = 2 := by decide
  have hrnd : ∀ r : BitVec 2, r ≠ 0 → r ≠ 1 → r ≠ 2 → r = 3 := by decide
  rw [resolveRm_fpVariantFromEncoded, encodedRm]
  by_cases h0 : rndOf e = 0
  · simp [h0]
  · by_cases h1 : rndOf e = 1
    · simp [h1]
    · by_cases h2 : rndOf e = 2
      · simp [h2]
      · rw [if_neg h0, if_neg h1, if_neg h0, if_neg h1, if_neg h2]
        exact (hdyn _).trans (imp_iff_right (hrnd _ h0 h1 h2)).symm

/-! ## No underflow without its enable -/

namespace Vax

/-- No underflow is among the exceptions. -/
def NoUnf (exc : Exc) : Prop := exc &&& VaxExc.Unf = 0

/-- Other exceptions may join. -/
theorem NoUnf.or {exc m : Exc} (h : NoUnf exc) (hm : m &&& VaxExc.Unf = 0) : NoUnf (exc ||| m) := by
  have hz : exc &&& VaxExc.Unf ||| m &&& VaxExc.Unf = 0 := by
    rw [show exc &&& VaxExc.Unf = 0 from h, hm]
    rfl
  rw [NoUnf, BitVec.and_or_distrib_right]
  exact hz

/-- Unpacking an operand raises no underflow. -/
theorem noUnf_unpack (op : Word) {exc : Exc} (h : NoUnf exc) : NoUnf (unpack op exc).2 := by
  unfold unpack
  split
  · simp only
    split
    · exact h.or (by decide)
    · exact h
  · exact h

/-- Packing a result raises no underflow if it is not enabled. -/
theorem noUnf_rpack (r : Ufp) (g : VaxGeom) (chop : Bool) {exc : Exc} (h : NoUnf exc) :
    NoUnf (rpack r g chop false exc).2 := by
  have hovf : NoUnf (exc ||| VaxExc.Ovf) := h.or (by decide)
  unfold rpack
  simp only [Bool.false_eq_true, if_false]
  split_ifs <;> assumption

/-- With underflow disabled an addition or subtraction raises no underflow. -/
theorem noUnf_addsub (a b : Word) (sub : Bool) (g : VaxGeom) (chop : Bool) {exc : Exc}
    (h : NoUnf exc) : NoUnf (addsub a b sub g chop false exc).2 := by
  have hab := noUnf_unpack b (noUnf_unpack a h)
  unfold addsub
  simp only
  split_ifs
  all_goals exact noUnf_rpack _ g chop hab

/-- With underflow disabled a multiplication raises no underflow. -/
theorem noUnf_mul (a b : Word) (g : VaxGeom) (chop : Bool) {exc : Exc} (h : NoUnf exc) :
    NoUnf (mul a b g chop false exc).2 := by
  have hab := noUnf_unpack b (noUnf_unpack a h)
  unfold mul
  simp only
  split_ifs
  · exact hab
  all_goals exact noUnf_rpack _ g chop hab

/-- With underflow disabled a division raises no underflow. -/
theorem noUnf_div (a b : Word) (g : VaxGeom) (chop : Bool) {exc : Exc} (h : NoUnf exc) :
    NoUnf (div a b g chop false exc).2 := by
  have hab := noUnf_unpack b (noUnf_unpack a h)
  unfold div
  simp only
  split_ifs
  · exact hab.or (by decide)
  · exact hab
  · exact noUnf_rpack _ g chop hab

/-- With underflow disabled a square root raises no underflow. -/
theorem noUnf_sqrt (a : Word) (g : VaxGeom) (chop : Bool) {exc : Exc} (h : NoUnf exc) :
    NoUnf (sqrt a g chop false exc).2 := by
  have ha := noUnf_unpack a h
  unfold sqrt
  simp only
  split_ifs
  · exact ha.or (by decide)
  · exact ha
  all_goals exact noUnf_rpack _ g chop ha

/-- No exceptions, no underflow. -/
theorem noUnf_zero : NoUnf 0 := BitVec.zero_and

end Vax

/-- A result without the exception reports none to FPCR. -/
theorem unf_vaxResult {r : Word × Exc} (h : NoUnf r.2) : (vaxResult r).exc.unf = false :=
  decide_eq_false (not_not.2 h)

/-- The UNF bit after an operation. -/
theorem unfSet_foldFpcrExc (fpcr : Word) (e : FpExc) :
    unfSet (foldFpcrExc fpcr e) = (unfSet fpcr || e.unf) := by
  have hall : ∀ inv dze ovf unf ine iov : Bool,
      (FpExc.mk inv dze ovf unf ine iov).bits.getLsbD 55 = unf := by decide
  rw [unfSet, getLsbD_foldFpcrExc _ _ (by decide), unfSet]
  exact congrArg _ (hall e.inv e.dze e.ovf e.unf e.ine e.iov)

/-- A VAX operation never raises an underflow: the enable it is given is the flag that is never
set. -/
theorem unfSet_exec (ieee : FpBackend) {op : FpOperate} {geom : VaxGeom} {x : ℝ} (g : InstructionGrain)
    (c : ExecCtx) (cpu : CpuState) (hop : ExactResult op geom c.opA c.opB x) :
    unfSet (op.leaf.exec (backend ieee) g c cpu).1.fpcr = unfSet cpu.fpcr := by
  have hfold : ∀ e : FpExc, e.unf = false → unfSet (foldFpcrExc cpu.fpcr e) = unfSet cpu.fpcr :=
    fun e he => by rw [unfSet_foldFpcrExc, he, Bool.or_false]
  generalize c.opA = a, c.opB = b at hop
  cases hop with
  | addF => exact hfold _ (unf_vaxResult (noUnf_addsub _ _ _ _ _ noUnf_zero))
  | subF => exact hfold _ (unf_vaxResult (noUnf_addsub _ _ _ _ _ noUnf_zero))
  | mulF => exact hfold _ (unf_vaxResult (noUnf_mul _ _ _ _ noUnf_zero))
  | divF => exact hfold _ (unf_vaxResult (noUnf_div _ _ _ _ noUnf_zero))
  | addG => exact hfold _ (unf_vaxResult (noUnf_addsub _ _ _ _ _ noUnf_zero))
  | subG => exact hfold _ (unf_vaxResult (noUnf_addsub _ _ _ _ _ noUnf_zero))
  | mulG => exact hfold _ (unf_vaxResult (noUnf_mul _ _ _ _ noUnf_zero))
  | divG => exact hfold _ (unf_vaxResult (noUnf_div _ _ _ _ noUnf_zero))
  | sqrtF => exact hfold _ (unf_vaxResult (noUnf_sqrt _ _ _ noUnf_zero))
  | sqrtG => exact hfold _ (unf_vaxResult (noUnf_sqrt _ _ _ noUnf_zero))
  | cvtGF =>
    refine hfold _ ?_
    show (cvtGF c.opB).exc.unf = false
    unfold cvtGF
    split <;> rfl

/-! ## The qualifiers that survive -/

/-- The backend sees what a word encodes exactly when the word has no /U and no /S alone, and its
rounding is static or FPCR says to nearest. -/
theorem qualifiersKept_iff (ieee : FpBackend) (op : FpOperate) (g : InstructionGrain) (fpcr : Word) :
    QualifiersKept ieee op g fpcr ↔
      encodesUnderflow op g.encoded = false ∧ (trpOf g.encoded ≠ 4 ∧ trpOf g.encoded ≠ 6) ∧
        (rndOf g.encoded = 3 → fpcr.extractLsb' 58 2 = 2) := by
  constructor
  · intro h
    exact ⟨h.underflow.symm, (software_iff g.encoded).1 h.software,
      (rounding_iff g.encoded fpcr).1 h.rounding⟩
  · rintro ⟨hu, hs, hr⟩
    refine ⟨hu.symm, (software_iff g.encoded).2 hs, (rounding_iff g.encoded fpcr).2 hr,
      vaxChop_fpVariantFromEncoded g.encoded fpcr, ?_⟩
    intro c cpu geom x hcpu hclear hop _ _
    rw [unfSet_exec ieee g c cpu hop, hcpu, hclear, hu]

/-- The smallest number of G. -/
theorem vaxValue_smallest : vaxValue 0x0010000000000000 = 2 ^ (-1024 : ℤ) := by
  have hne : expOf 0x0010000000000000 ≠ 0 := by decide
  have hexp : expOf 0x0010000000000000 = 1 := by decide
  have hfrac : wholeFrac 0x0010000000000000 = 2 ^ 52 := by decide
  have hsign : signOf 0x0010000000000000 = false := by decide
  rw [vaxValue, if_neg hne, scaled, hsign, hfrac, hexp, signed, if_neg Bool.false_ne_true, Nat.cast_pow,
    Nat.cast_ofNat, ← zpow_natCast, ← zpow_add₀ two_ne_zero]
  norm_num

/-- A power of two below the range rounds below the range. -/
theorem vaxExp_lt_expLo {chop : Bool} {x : ℝ} (hx : x = 2 ^ (-2048 : ℤ)) :
    vaxExp G chop x < G.expLo := by
  have h63 : (((0x8000000000000000 : Word).toNat : ℕ) : ℝ) = 2 ^ (63 : ℤ) := by
    rw [show (0x8000000000000000 : Word).toNat = 2 ^ 63 from rfl]
    norm_num
  have hle : |x| ≤ (⟨false, 0, 0x8000000000000000⟩ : Ufp).mag := by
    rw [hx, abs_of_pos (zpow_pos two_pos _), Ufp.mag, scaled, h63, ← zpow_add₀ two_ne_zero]
    exact zpow_le_zpow_right₀ one_le_two (by norm_num)
  have hne : x ≠ 0 := by
    rw [hx]
    exact (zpow_pos two_pos _).ne'
  have hexp := vaxExp_le (u := ⟨false, 0, 0x8000000000000000⟩) G chop (by decide) (by decide) hne hle
  exact lt_of_le_of_lt hexp (by decide)

/-- MULG/U of the smallest number of G with itself. The product is far below the range, and UNF
stays clear. -/
theorem not_qualifiersKept_mulg_u :
    ¬ QualifiersKept ⟨fun _ a _ _ _ => ⟨a, {}⟩, fun _ b _ _ => ⟨b, {}⟩⟩ (.bin .mulG)
      ⟨0x1000, [], 0x54003440, 0x15⟩ 0 := by
  intro h
  have himage : IsImage G 0x0010000000000000 := isImage_G (by decide)
  have hprod : vaxValue 0x0010000000000000 * vaxValue 0x0010000000000000 = 2 ^ (-2048 : ℤ) := by
    rw [vaxValue_smallest, ← zpow_add₀ two_ne_zero]
    norm_num
  have hne : vaxValue 0x0010000000000000 * vaxValue 0x0010000000000000 ≠ 0 := by
    rw [hprod]
    exact (zpow_pos two_pos _).ne'
  have hexact := ExactResult.mulG himage himage
  have hunf := h.unf ⟨0x0010000000000000, 0x0010000000000000⟩ {} G _ rfl (by decide) hexact hne
    (vaxExp_lt_expLo hprod)
  rw [unfSet_exec _ _ ⟨0x0010000000000000, 0x0010000000000000⟩ {} hexact] at hunf
  exact absurd hunf (by decide)

end EmulatR
