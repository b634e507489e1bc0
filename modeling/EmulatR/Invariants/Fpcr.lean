import Mathlib.Data.BitVec
import EmulatR.Library.Run
import EmulatR.Boxes.Leaf

/-! # The floating control register over whole runs

FPCR keeps six sticky exception bits 57:52 and their summary in bit 63, stored and not computed on a
read. An arithmetic leaf folds its exceptions in and recomputes the summary (coreLib/
alpha_fpcr_core.h, fBoxLib/grains/FpExec.h); MT_FPCR stores its operand as it is (fBoxLib/grains/
Float.cpp). A run is any list of ordinary instructions with any grains and operands, so that the
floating operates, MT_FPCR and MF_FPCR come in any order.

`FpcrLaw` is what the register is meant to satisfy along a run. All of it but the summary holds of
every run; the summary holds iff no MT_FPCR stores a value whose own summary is wrong.

`fpcrLaw_iff` is the condition over runs; `mtFpcr_leaves_summary_wrong` is the write that breaks
it. -/

namespace EmulatR

open Library

/-- The summary bit of FPCR. -/
def fpcrSum : Word := 1 <<< 63

/-- The summary bit is the OR of the sticky bits 57:52. -/
def SumOk (fpcr : Word) : Prop := fpcr.getLsbD 63 = decide (fpcr &&& fpcrExcMask ≠ 0)

instance (fpcr : Word) : Decidable (SumOk fpcr) := inferInstanceAs (Decidable (_ = _))

/-! ## The fold -/

/-- The summary bit is bit 63. -/
theorem getLsbD_fpcrSum {i : Nat} (hi : i < 64) : fpcrSum.getLsbD i = decide (i = 63) := by
  have h : ∀ i : Fin 64, fpcrSum.getLsbD i.val = decide (i.val = 63) := by decide
  exact h ⟨i, hi⟩

/-- The exceptions of an operation are sticky bits only. -/
theorem FpExc.getLsbD_bits (e : FpExc) {i : Nat} (hi : ¬ (52 ≤ i ∧ i < 58)) :
    e.bits.getLsbD i = false := by
  rw [FpExc.bits, BitVec.getLsbD_shiftLeft, BitVec.getLsbD_setWidth]
  by_cases hlow : i < 52
  · simp [hlow]
  · rw [BitVec.getLsbD_of_ge _ (i - 52) (by omega)]
    simp

/-- A bit other than the summary after a fold: set if it was, or if the operation raised it. -/
theorem getLsbD_foldFpcrExc (fpcr : Word) (e : FpExc) {i : Nat} (hi : i < 63) :
    (foldFpcrExc fpcr e).getLsbD i = (fpcr.getLsbD i || e.bits.getLsbD i) := by
  have hsum : fpcrSum.getLsbD i = false := by
    rw [getLsbD_fpcrSum (by omega), decide_eq_false_iff_not]; omega
  unfold foldFpcrExc
  -- neither branch of the recomputation touches a bit below the summary
  change (if (fpcr ||| e.bits) &&& fpcrExcMask ≠ 0 then (fpcr ||| e.bits) ||| fpcrSum
    else (fpcr ||| e.bits) &&& ~~~fpcrSum).getLsbD i = _
  split
  · rw [BitVec.getLsbD_or, BitVec.getLsbD_or, hsum, Bool.or_false]
  · rw [BitVec.getLsbD_and, BitVec.getLsbD_not, hsum, BitVec.getLsbD_or]
    simp [show i < 64 by omega]

/-- The recomputation leaves the summary right. -/
theorem sumOk_foldFpcrExc (fpcr : Word) (e : FpExc) : SumOk (foldFpcrExc fpcr e) := by
  have hdisj : fpcrSum &&& fpcrExcMask = 0 := by decide
  have hbit : fpcrSum.getLsbD 63 = true := by decide
  change SumOk (if (fpcr ||| e.bits) &&& fpcrExcMask ≠ 0 then (fpcr ||| e.bits) ||| fpcrSum
    else (fpcr ||| e.bits) &&& ~~~fpcrSum)
  generalize fpcr ||| e.bits = f
  by_cases hexc : f &&& fpcrExcMask = 0
  · have hkeep : f &&& ~~~fpcrSum &&& fpcrExcMask = 0 := by
      rw [BitVec.and_assoc, BitVec.and_comm (~~~fpcrSum), ← BitVec.and_assoc, hexc]
      simp
    rw [if_neg (not_not_intro hexc), SumOk, hkeep, BitVec.getLsbD_and, BitVec.getLsbD_not, hbit]
    simp
  · have hkeep : (f ||| fpcrSum) &&& fpcrExcMask = f &&& fpcrExcMask := by
      rw [BitVec.and_comm, BitVec.and_or_distrib_left, BitVec.and_comm _ fpcrSum, hdisj,
        BitVec.and_comm]
      simp
    rw [if_pos hexc, SumOk, hkeep, BitVec.getLsbD_or, hbit, decide_eq_true hexc, Bool.or_true]

/-! ## One instruction -/

/-- An executed instruction: its leaf, its grain and the operands the pipeline gave it. -/
structure Executed where
  /-- The leaf. -/
  leaf : OrdinaryLeaf
  /-- The grain. -/
  g : InstructionGrain
  /-- The operands. -/
  ctx : ExecCtx

variable (fp : FpBackend)

/-- Execute an instruction. -/
def Executed.step (cpu : CpuState) (x : Executed) : CpuState := (x.leaf.exec fp x.g x.ctx cpu).1

/-- Every leaf but MT_FPCR leaves FPCR as it was or folds exceptions into it. -/
theorem Executed.fpcr_step (cpu : CpuState) (x : Executed) (hmt : x.leaf ≠ .mtFpcr) :
    (x.step fp cpu).fpcr = cpu.fpcr ∨ ∃ e, (x.step fp cpu).fpcr = foldFpcrExc cpu.fpcr e := by
  obtain ⟨leaf, g, ctx⟩ := x
  cases leaf with
  | fpBin op => exact Or.inr ⟨_, rfl⟩
  | fpUn op => exact Or.inr ⟨_, rfl⟩
  | mtFpcr => exact absurd rfl hmt
  | _ => exact Or.inl rfl

/-- MT_FPCR stores its operand. -/
theorem Executed.fpcr_step_mtFpcr (cpu : CpuState) {x : Executed} (hmt : x.leaf = .mtFpcr) :
    (x.step fp cpu).fpcr = x.ctx.opA := by
  rw [Executed.step, hmt]
  rfl

/-- An instruction other than MT_FPCR changes no bit but the summary and the sticky bits, and clears
no sticky bit. -/
theorem Executed.getLsbD_fpcr_step (cpu : CpuState) {x : Executed} (hmt : x.leaf ≠ .mtFpcr)
    {i : Nat} (hi : i < 63) :
    (¬ (52 ≤ i ∧ i < 58) → (x.step fp cpu).fpcr.getLsbD i = cpu.fpcr.getLsbD i) ∧
      (cpu.fpcr.getLsbD i = true → (x.step fp cpu).fpcr.getLsbD i = true) := by
  rcases x.fpcr_step fp cpu hmt with h | ⟨e, h⟩
  · rw [h]
    exact ⟨fun _ => rfl, id⟩
  · rw [h, getLsbD_foldFpcrExc cpu.fpcr e hi]
    refine ⟨?_, ?_⟩
    · intro hout
      rw [e.getLsbD_bits hout, Bool.or_false]
    · intro hset
      rw [hset, Bool.true_or]

/-! ## Runs -/

/-- The CPU after a list of instructions. -/
def execRun (cpu : CpuState) (xs : List Executed) : CpuState :=
  runFrom (fun cpu x => Executed.step fp cpu x) cpu xs

/-- **What FPCR is meant to satisfy along a run.** -/
structure FpcrLaw (cpu : CpuState) (xs : List Executed) : Prop where
  /-- In every state of the run the summary is the OR of the sticky bits. -/
  summary : ∀ done, done <+: xs → SumOk (execRun fp cpu done).fpcr
  /-- A sticky bit that is set stays set until an MT_FPCR writes it zero. -/
  sticky : ∀ before x after, xs = before ++ x :: after → ∀ i, 52 ≤ i → i < 58 →
    (execRun fp cpu before).fpcr.getLsbD i = true →
    (execRun fp cpu (before ++ [x])).fpcr.getLsbD i = true ∨
      (x.leaf = .mtFpcr ∧ x.ctx.opA.getLsbD i = false)
  /-- An instruction other than MT_FPCR changes no bit but the summary and the sticky bits. -/
  frame : ∀ before x after, xs = before ++ x :: after → x.leaf ≠ .mtFpcr → ∀ i, i < 64 → i ≠ 63 →
    ¬ (52 ≤ i ∧ i < 58) →
    (execRun fp cpu (before ++ [x])).fpcr.getLsbD i = (execRun fp cpu before).fpcr.getLsbD i
  /-- An MF_FPCR right after an MT_FPCR returns the value written. -/
  readBack : ∀ before x y after, xs = before ++ x :: y :: after → x.leaf = .mtFpcr →
    y.leaf = .mfFpcr →
    (y.leaf.exec fp y.g y.ctx (execRun fp cpu (before ++ [x]))).2.regWriteValue = x.ctx.opA

/-- Every MT_FPCR of the run stores a value whose summary is right. -/
def MtFpcrConsistent (xs : List Executed) : Prop :=
  ∀ x ∈ xs, x.leaf = .mtFpcr → SumOk x.ctx.opA

/-- One more instruction at the end. -/
theorem execRun_concat (cpu : CpuState) (before : List Executed) (x : Executed) :
    execRun fp cpu (before ++ [x]) = x.step fp (execRun fp cpu before) := by
  rw [execRun, runFrom_append]
  rfl

/-- One instruction keeps the summary right, unless it is an MT_FPCR of a wrong value. -/
theorem sumOk_step {cpu : CpuState} {x : Executed} (h : SumOk cpu.fpcr)
    (hx : x.leaf = .mtFpcr → SumOk x.ctx.opA) : SumOk (x.step fp cpu).fpcr := by
  by_cases hmt : x.leaf = .mtFpcr
  · rw [x.fpcr_step_mtFpcr fp cpu hmt]
    exact hx hmt
  · rcases x.fpcr_step fp cpu hmt with hkeep | ⟨e, hfold⟩
    · rw [hkeep]; exact h
    · rw [hfold]; exact sumOk_foldFpcrExc _ e

/-- The summary is right after a run in which every MT_FPCR stores a consistent value. -/
theorem sumOk_execRun {cpu : CpuState} {xs : List Executed} (h : SumOk cpu.fpcr)
    (hxs : MtFpcrConsistent xs) : SumOk (execRun fp cpu xs).fpcr := by
  induction xs generalizing cpu with
  | nil => exact h
  | cons x xs ih =>
    refine ih (sumOk_step fp h (hxs x List.mem_cons_self)) ?_
    exact fun y hy => hxs y (List.mem_cons_of_mem x hy)

/-- **FPCR keeps its law along a run iff every MT_FPCR stores a consistent summary.** From a state
whose summary is right, with any floating backend and any operands. -/
theorem fpcrLaw_iff (cpu : CpuState) (hstart : SumOk cpu.fpcr) (xs : List Executed) :
    FpcrLaw fp cpu xs ↔ MtFpcrConsistent xs := by
  constructor
  · intro hlaw x hx hmt
    obtain ⟨before, after, rfl⟩ := List.append_of_mem hx
    -- right after the MT_FPCR the register is its operand
    have hsum := hlaw.summary (before ++ [x]) ⟨after, by simp⟩
    rw [execRun_concat, x.fpcr_step_mtFpcr fp _ hmt] at hsum
    exact hsum
  · intro hxs
    refine ⟨?_, ?_, ?_, ?_⟩
    · intro done hdone
      exact sumOk_execRun fp hstart fun x hx => hxs x (hdone.subset hx)
    · rintro before x after - i hlo hhi hset
      rw [execRun_concat]
      by_cases hmt : x.leaf = .mtFpcr
      · rw [x.fpcr_step_mtFpcr fp _ hmt]
        cases hbit : x.ctx.opA.getLsbD i with
        | true => exact Or.inl rfl
        | false => exact Or.inr ⟨hmt, rfl⟩
      · exact Or.inl ((Executed.getLsbD_fpcr_step fp _ hmt (by omega)).2 hset)
    · rintro before x after - hmt i hi hne hout
      rw [execRun_concat]
      exact (Executed.getLsbD_fpcr_step fp _ hmt (by omega)).1 hout
    · rintro before x y after - hmt hmf
      rw [execRun_concat, hmf]
      exact x.fpcr_step_mtFpcr fp _ hmt

/-- An inexact ADDT of 1 and 2⁻⁶⁰ raises INE, an MT_FPCR of zero clears it, and an MF_FPCR reads
it. -/
theorem fpcrLaw_inexact_add_then_clear :
    let fp : FpBackend := ⟨fun _ a _ _ _ => ⟨a, { ine := true }⟩, fun _ b _ _ => ⟨b, {}⟩⟩
    let xs : List Executed :=
      [⟨.fpBin .addT, ⟨0x1000, [], 0x58221403, 0x16⟩, ⟨0x3FF0000000000000, 0x3C30000000000000⟩⟩,
        ⟨.mtFpcr, ⟨0x1004, [], 0x5C210481, 0x17⟩, ⟨0, 0⟩⟩,
        ⟨.mfFpcr, ⟨0x1008, [], 0x5C2104A1, 0x17⟩, ⟨0, 0⟩⟩]
    (execRun fp {} (xs.take 1)).fpcr = 0x8100000000000000 ∧ FpcrLaw fp {} xs := by
  intro fp xs
  refine ⟨by decide, (fpcrLaw_iff fp {} (by decide) xs).mpr ?_⟩
  intro x hx hmt
  simp only [xs, List.mem_cons, List.not_mem_nil, or_false] at hx
  rcases hx with rfl | rfl | rfl
  · exact absurd hmt (by decide)
  · decide
  · exact absurd hmt (by decide)

/-- **An MT_FPCR can leave the summary wrong.** A guest that clears the sticky bits of the value it
writes back but not its bit 63 leaves SUM set with no sticky bit set. -/
theorem mtFpcr_leaves_summary_wrong :
    ¬ ∀ (fp : FpBackend) (cpu : CpuState) (xs : List Executed), SumOk cpu.fpcr →
      FpcrLaw fp cpu xs := by
  intro h
  have hlaw := h ⟨fun _ a _ _ _ => ⟨a, {}⟩, fun _ b _ _ => ⟨b, {}⟩⟩ {}
    [⟨.mtFpcr, ⟨0x1000, [], 0x5C210481, 0x17⟩, ⟨0x8000000000000000, 0⟩⟩] (by decide)
  exact absurd (hlaw.summary _ List.prefix_rfl) (by decide)

end EmulatR
