import EmulatR.Library.Run
import EmulatR.Chipset.TsunamiCchip

/-! # MISC, DRIR<63> and the latches stay in step

MISC keeps fields of every access class in one word, and each of its writers updates more than the
word: a MISC write also clears DRIR<63> and drives the latches, the interval timer sets a bit and a
latch per CPU, a nonexistent-memory access sets NXM, locks NXS and mirrors NXM into DRIR<63>, and a
divert drops a latch and leaves the word alone. `MiscInv` is what all of them keep; the bit lemma
`getLsbD_miscAfterWrite` says what a write of any data does to each bit outside the arbitration
fields.

`misc_invariant_of_run` puts the parts together for every run. -/

namespace EmulatR

open Library

namespace TsunamiCchip

variable (c : TsunamiCchip)

/-- Read MISC: bits 1:0 are the reader's number, or zero where the access has no CPU context. -/
def readMisc (cpuId : Int) : Word :=
  let cpuField : Word := if 0 ≤ cpuId then BitVec.ofInt 64 cpuId &&& fieldMask 0 2 else 0
  (c.misc &&& ~~~fieldMask 0 2) ||| cpuField

/-- The NXM bit. -/
def nxm : Bool := c.misc.getLsbD 28

/-- The source locked with NXM. -/
def nxs : BitVec 3 := c.misc.extractLsb' 29 3

/-! ## The bits of a MISC write -/

/-- The bits of a field mask. -/
theorem getLsbD_fieldMask (lsb width i : Nat) :
    (fieldMask lsb width).getLsbD i = decide (lsb ≤ i ∧ i < lsb + width ∧ i < 64) := by
  rw [fieldMask, BitVec.getLsbD_shiftLeft, BitVec.getLsbD_ofNat, Nat.testBit_two_pow_sub_one]
  by_cases h : lsb ≤ i ∧ i < lsb + width ∧ i < 64
  · simp only [h, and_self, decide_true, Bool.true_and, Bool.and_eq_true, Bool.not_eq_eq_eq_not,
      Bool.not_true, decide_eq_false_iff_not, decide_eq_true_eq]
    omega
  · simp only [h, decide_false, Bool.and_eq_false_iff, Bool.not_eq_eq_eq_not, Bool.not_false,
      decide_eq_false_iff_not, decide_eq_true_eq]
    omega

/-- A one-bit field is clear iff its bit is. -/
theorem and_fieldMask_one_eq_zero_iff (x : Word) {lsb : Nat} (hlsb : lsb < 64) :
    x &&& fieldMask lsb 1 = 0 ↔ x.getLsbD lsb = false := by
  constructor
  · intro h
    have hbit : (x &&& fieldMask lsb 1).getLsbD lsb = false := by rw [h]; simp
    rw [BitVec.getLsbD_and, getLsbD_fieldMask, decide_eq_true (by omega), Bool.and_true] at hbit
    exact hbit
  · intro h
    refine BitVec.eq_of_getLsbD_eq fun i hi => ?_
    rw [BitVec.getLsbD_and, getLsbD_fieldMask]
    by_cases hil : i = lsb
    · rw [hil, h]; simp
    · have hout : ¬ (lsb ≤ i ∧ i < lsb + 1 ∧ i < 64) := by omega
      rw [decide_eq_false hout, Bool.and_false]
      exact BitVec.getLsbD_zero.symm

/-- What a MISC write does to a bit outside the arbitration fields: write-only bits keep their old
value, a one clears a write-one-to-clear bit, and a request sets the pending bit four below it, also
where the same write clears it. -/
theorem getLsbD_miscAfterWrite (old writeVal : Word) {i : Nat} (hi : i < 64)
    (harb : i < 16 ∨ 24 ≤ i) :
    (miscAfterWrite old writeVal).getLsbD i =
      if woMask.getLsbD i then old.getLsbD i
      else (old.getLsbD i && !(writeVal.getLsbD i && w1cMask.getLsbD i)) ||
        (decide (8 ≤ i ∧ i < 12) && writeVal.getLsbD (4 + i)) := by
  have habt : ABT.getLsbD i = false := by
    rw [ABT, getLsbD_fieldMask]; simp; omega
  have habw : ABW.getLsbD i = false := by
    rw [ABW, getLsbD_fieldMask]; simp; omega
  have hip : IPINTR.getLsbD i = decide (8 ≤ i ∧ i < 12) := by
    rw [IPINTR, getLsbD_fieldMask]
    simp [hi]
  have hreq : 8 ≤ i ∧ i < 12 → IPREQ.getLsbD (4 + i) = true := by
    intro h
    rw [IPREQ, getLsbD_fieldMask]; simp; omega
  -- neither the promotion nor the arbitration clear reaches the bit
  have hpromote : ∀ (b : Prop) [Decidable b] (x y : Word),
      (if b then x ||| (y &&& ABW) else x).getLsbD i = x.getLsbD i := by
    intro b _ x y
    split <;> simp [habw]
  have hclear : ∀ (b : Prop) [Decidable b] (x : Word),
      (if b then x &&& ~~~(ABT ||| ABW) else x).getLsbD i = x.getLsbD i := by
    intro b _ x
    split
    · rw [BitVec.getLsbD_and, BitVec.getLsbD_not, BitVec.getLsbD_or, habt, habw]
      simp [hi]
    · rfl
  rw [miscAfterWrite, BitVec.getLsbD_or, BitVec.getLsbD_and, BitVec.getLsbD_or, hclear, hpromote]
  simp only [BitVec.getLsbD_or, BitVec.getLsbD_and, BitVec.getLsbD_not,
    BitVec.getLsbD_ushiftRight, w1sMask, habt, habw, hip, hi, decide_true, Bool.true_and,
    Bool.or_false, Bool.and_false]
  by_cases hw : 8 ≤ i ∧ i < 12
  · rw [hreq hw]
    cases woMask.getLsbD i <;> simp [hw]
  · cases woMask.getLsbD i <;> simp [hw]

/-- A write leaves the write-only, read-only and reserved bits of MISC at their stored value. -/
theorem getLsbD_miscAfterWrite_of_kept (old writeVal : Word) {i : Nat} (hi : i < 64)
    (hkept : 12 ≤ i ∧ i < 16 ∨ 24 ≤ i ∧ i ≠ 28) :
    (miscAfterWrite old writeVal).getLsbD i = old.getLsbD i := by
  have hw1c : w1cMask.getLsbD i = false := by
    simp only [w1cMask, NXM, IPINTR, ITINTR, BitVec.getLsbD_or, getLsbD_fieldMask]
    simp; omega
  rw [getLsbD_miscAfterWrite old writeVal hi (by omega), hw1c]
  have hip : ¬ (8 ≤ i ∧ i < 12) := by omega
  simp [hip]

/-- The timer sets the pending bit of every configured CPU and no other bit. -/
theorem getLsbD_fireIntervalTimer (i : Nat) :
    c.fireIntervalTimer.misc.getLsbD i =
      (c.misc.getLsbD i || decide (∃ n : Fin 4, n.val < c.cpuCount ∧ 4 + n.val = i)) := by
  have hfold : ∀ (ns : List (Fin 4)) (misc : Word),
      (ns.foldl (fun misc n => if n.val < c.cpuCount then misc ||| BitVec.twoPow 64 (4 + n.val)
        else misc) misc).getLsbD i =
      (misc.getLsbD i || decide (∃ n ∈ ns, n.val < c.cpuCount ∧ 4 + n.val = i)) := by
    intro ns
    -- on the CPUs still to come
    induction ns with
    | nil => simp
    | cons n ns ih =>
      intro misc
      rw [List.foldl_cons, ih]
      by_cases hn : n.val < c.cpuCount
      · rw [if_pos hn, BitVec.getLsbD_or, BitVec.getLsbD_twoPow]
        have hn64 : 4 + n.val < 64 := by omega
        simp [hn, hn64, Bool.or_assoc]
      · simp [hn]
  rw [fireIntervalTimer, hfold]
  simp

/-! ## Events -/

/-- What reaches the interrupt registers: CPU writes of any register with any data, the interval
timer, nonexistent-memory accesses, the diverts that acknowledge a latch, and the device lines
below the NXM mirror. -/
inductive Event
  /-- A write to a Cchip register. -/
  | write (offset value : Word)
  /-- The interval timer fires. -/
  | fireIntervalTimer
  /-- A CPU or Pchip reports nonexistent memory. -/
  | latchNxm (srcCode : BitVec 3)
  /-- A b_irq<2> divert. -/
  | divertTimer (cpu : Fin 4)
  /-- A b_irq<3> divert. -/
  | divertIpi (cpu : Fin 4)
  /-- A device drives an interrupt line. -/
  | line (bit : Fin 63) (level : Bool)

/-- One event. -/
def step (c : TsunamiCchip) : Event → TsunamiCchip
  | .write offset value => c.write offset value
  | .fireIntervalTimer => c.fireIntervalTimer
  | .latchNxm srcCode => c.latchNxm srcCode
  | .divertTimer cpu => c.clearPendingIrq2 cpu
  | .divertIpi cpu => c.clearPendingIrq3 cpu
  | .line bit level => c.driveInterrupt bit.val level

/-- A line does not touch MISC. -/
@[simp] theorem driveInterrupt_misc (bit : Nat) (level : Bool) :
    (c.driveInterrupt bit level).misc = c.misc := by
  cases level <;> rfl

/-- A line does not touch the interval timer's latches. -/
@[simp] theorem driveInterrupt_pendingIrq2 (bit : Nat) (level : Bool) :
    (c.driveInterrupt bit level).pendingIrq2 = c.pendingIrq2 := by
  cases level <;> rfl

/-- A line does not touch the interprocessor latches. -/
@[simp] theorem driveInterrupt_pendingIrq3 (bit : Nat) (level : Bool) :
    (c.driveInterrupt bit level).pendingIrq3 = c.pendingIrq3 := by
  cases level <;> rfl

/-- A CPU write is a MISC write, or it touches neither MISC nor DRIR nor a latch. -/
theorem write_cases (offset value : Word) :
    c.write offset value = c.miscWriteW1C value ∨
      ((c.write offset value).misc = c.misc ∧ (c.write offset value).drir = c.drir ∧
        (c.write offset value).pendingIrq2 = c.pendingIrq2 ∧
        (c.write offset value).pendingIrq3 = c.pendingIrq3) := by
  unfold write
  cases Csr.decode offset with
  | misc => exact Or.inl rfl
  | dim cpu => exact Or.inr ⟨rfl, rfl, rfl, rfl⟩
  | iic cpu => exact Or.inr ⟨rfl, rfl, rfl, rfl⟩
  | other => exact Or.inr ⟨rfl, rfl, rfl, rfl⟩

/-- The revision of the chip is a constant. -/
theorem step_crev (e : Event) : (c.step e).crev = c.crev := by
  cases e with
  | write offset value =>
    simp only [step, write]
    cases Csr.decode offset <;> rfl
  | line bit level => cases level <;> rfl
  | fireIntervalTimer => rfl
  | latchNxm srcCode => rfl
  | divertTimer cpu => rfl
  | divertIpi cpu => rfl

/-- The bits of a latched word: NXM is set, NXS is the source if NXM was clear, and every other bit
is kept. -/
theorem getLsbD_latchNxm_misc (srcCode : BitVec 3) {i : Nat} (hi : i < 64) :
    (c.latchNxm srcCode).misc.getLsbD i =
      if i = 28 then true
      else if 29 ≤ i ∧ i < 32 ∧ c.nxm = false then srcCode.getLsbD (i - 29)
      else c.misc.getLsbD i := by
  have hnxm : NXM.getLsbD i = decide (i = 28) := by
    rw [NXM, getLsbD_fieldMask, decide_eq_decide]; omega
  have hnxs : NXS.getLsbD i = decide (29 ≤ i ∧ i < 32) := by
    rw [NXS, getLsbD_fieldMask, decide_eq_decide]; omega
  have hclear : (c.misc &&& NXM = 0) ↔ c.nxm = false :=
    and_fieldMask_one_eq_zero_iff c.misc (by decide)
  simp only [latchNxm, hclear]
  by_cases hc : c.nxm = false
  · rw [if_pos hc, BitVec.getLsbD_or, BitVec.getLsbD_and, BitVec.getLsbD_not, BitVec.getLsbD_or,
      BitVec.getLsbD_shiftLeft, BitVec.getLsbD_setWidth, hnxm, hnxs]
    by_cases h28 : i = 28
    · subst h28; simp
    · by_cases hs : 29 ≤ i ∧ i < 32
      · have h1 : ¬ i < 29 := by omega
        have h2 : i - 29 < 64 := by omega
        simp [hs, hc, h28, h1, h2, hi]
      · have hsrc : i < 29 ∨ srcCode.getLsbD (i - 29) = false := by
          by_cases h1 : i < 29
          · exact Or.inl h1
          · exact Or.inr (BitVec.getLsbD_of_ge _ _ (by omega))
        have hs' : ¬ (29 ≤ i ∧ i < 32 ∧ c.nxm = false) := fun h => hs ⟨h.1, h.2.1⟩
        rw [if_neg h28, if_neg hs']
        rcases hsrc with h1 | h1 <;> simp [hs, h28, h1, hi]
  · rw [if_neg hc, BitVec.getLsbD_or, hnxm]
    by_cases h28 : i = 28
    · simp [h28]
    · simp [h28, hc]

/-! ## The invariant -/

/-- What every writer of the interrupt registers keeps. -/
structure MiscInv (c : TsunamiCchip) : Prop where
  /-- DRIR<63> mirrors NXM. -/
  drir_nxm : c.drir.getLsbD 63 = c.nxm
  /-- The revision field is the chip's revision. -/
  rev : ∀ i < 8, c.misc.getLsbD (32 + i) = c.crev.getLsbD i
  /-- No write-only bit is stored. -/
  wo : ∀ i, woMask.getLsbD i = true → c.misc.getLsbD i = false
  /-- A pending timer latch has its bit in MISC. -/
  irq2 : ∀ n : Fin 4, c.pendingIrq2 n = true → c.misc.getLsbD (4 + n.val) = true
  /-- A pending interprocessor latch has its bit in MISC. -/
  irq3 : ∀ n : Fin 4, c.pendingIrq3 n = true → c.misc.getLsbD (8 + n.val) = true

/-- The write-only bits are those of DEVSUP, ACL and IPREQ. -/
theorem getLsbD_woMask (i : Nat) :
    woMask.getLsbD i = decide (12 ≤ i ∧ i < 16 ∨ i = 24 ∨ 40 ≤ i ∧ i < 44) := by
  simp only [woMask, DEVSUP, ACL, IPREQ, BitVec.getLsbD_or, getLsbD_fieldMask, ← Bool.decide_or,
    decide_eq_decide]
  omega

/-- The revision survives a reset. -/
theorem reset_crev : c.reset.crev = c.crev := by rw [reset]

/-- A reset Cchip meets the invariant. -/
theorem miscInv_reset : c.reset.MiscInv where
  drir_nxm := by
    simp [nxm, reset]
  rev i hi := by
    have h1 : 32 + i < 64 := by omega
    simp [reset, h1]
  wo i hi := by
    rw [getLsbD_woMask, decide_eq_true_iff] at hi
    have hout : i < 32 ∨ 8 ≤ i - 32 := by omega
    rcases hout with h | h
    · simp [reset, BitVec.getLsbD_shiftLeft, h]
    · simp [reset, BitVec.getLsbD_shiftLeft, h]
  irq2 n hn := by simp [reset] at hn
  irq3 n hn := by simp [reset] at hn

/-- No event changes a write-only bit, a reserved bit or the revision. -/
theorem getLsbD_step_of_kept (e : Event) {i : Nat} (hi : i < 64)
    (hkept : 12 ≤ i ∧ i < 16 ∨ 24 ≤ i ∧ i < 28 ∨ 32 ≤ i) :
    (c.step e).misc.getLsbD i = c.misc.getLsbD i := by
  cases e with
  | write offset value =>
    rcases c.write_cases offset value with h | ⟨h, -⟩
    · rw [step, h]
      exact getLsbD_miscAfterWrite_of_kept c.misc value hi (by omega)
    · rw [step, h]
  | fireIntervalTimer =>
    rw [step, getLsbD_fireIntervalTimer]
    have hout : ¬ ∃ n : Fin 4, n.val < c.cpuCount ∧ 4 + n.val = i := by
      rintro ⟨n, -, hn⟩
      omega
    simp [hout]
  | latchNxm srcCode =>
    rw [step, getLsbD_latchNxm_misc c srcCode hi, if_neg (by omega), if_neg (by omega)]
  | divertTimer cpu => rfl
  | divertIpi cpu => rfl
  | line bit level => rw [step, driveInterrupt_misc]

namespace MiscInv

variable {c}

/-- A MISC write of any data keeps the mirror and the latches in step with the stored word. -/
theorem miscWriteW1C (h : c.MiscInv) (writeVal : Word) :
    (c.miscWriteW1C writeVal).drir.getLsbD 63 = (c.miscWriteW1C writeVal).nxm ∧
      (∀ n : Fin 4, (c.miscWriteW1C writeVal).pendingIrq2 n = true →
        (c.miscWriteW1C writeVal).misc.getLsbD (4 + n.val) = true) ∧
      ∀ n : Fin 4, (c.miscWriteW1C writeVal).pendingIrq3 n = true →
        (c.miscWriteW1C writeVal).misc.getLsbD (8 + n.val) = true := by
  refine ⟨?_, ?_, ?_⟩
  · -- the same bit of the data clears NXM and its mirror
    have hw : writeVal &&& NXM = 0 ↔ writeVal.getLsbD 28 = false :=
      and_fieldMask_one_eq_zero_iff writeVal (by decide)
    have hnxm : (miscAfterWrite c.misc writeVal).getLsbD 28 =
        (c.misc.getLsbD 28 && !writeVal.getLsbD 28) := by
      rw [getLsbD_miscAfterWrite _ _ (by decide) (by decide)]
      have hw1c : w1cMask.getLsbD 28 = true := by decide
      have hwo : woMask.getLsbD 28 = false := by decide
      rw [hw1c, hwo]
      simp
    have hmirror : c.drir.getLsbD 63 = c.misc.getLsbD 28 := h.drir_nxm
    simp only [TsunamiCchip.miscWriteW1C, nxm, hnxm, ne_eq, hw]
    cases writeVal.getLsbD 28 with
    | false => simpa using hmirror
    | true => simp
  · intro n hn
    have hbit : 4 + n.val < 8 := by omega
    simp only [TsunamiCchip.miscWriteW1C, Bool.and_eq_true, Bool.not_eq_true'] at hn ⊢
    rw [getLsbD_miscAfterWrite _ _ (by omega) (by omega), hn.1, h.irq2 n hn.2]
    simp
  · intro n hn
    simp only [TsunamiCchip.miscWriteW1C, Bool.and_eq_true, Bool.or_eq_true, Bool.not_eq_true']
      at hn ⊢
    have hip : 8 ≤ 8 + n.val ∧ 8 + n.val < 12 := by omega
    have hwo : woMask.getLsbD (8 + n.val) = false := by
      rw [getLsbD_woMask, decide_eq_false_iff_not]; omega
    rw [getLsbD_miscAfterWrite _ _ (by omega) (by omega), hn.1, hwo, decide_eq_true hip,
      show 4 + (8 + n.val) = 12 + n.val by omega]
    -- the latch was set by a request of this write, or it was pending before
    rcases hn.2 with ⟨hreq, -⟩ | hold
    · simp [hreq]
    · simp [h.irq3 n hold]

/-- **Every event keeps the invariant.** -/
theorem step (h : c.MiscInv) (e : Event) : (c.step e).MiscInv where
  rev i hi := by
    rw [getLsbD_step_of_kept c e (by omega) (by omega), h.rev i hi, step_crev]
  wo i hi := by
    have hi' := hi
    rw [getLsbD_woMask, decide_eq_true_iff] at hi'
    rw [getLsbD_step_of_kept c e (by omega) (by omega), h.wo i hi]
  drir_nxm := by
    cases e with
    | write offset value =>
      rcases c.write_cases offset value with hw | ⟨hm, hd, -⟩
      · rw [TsunamiCchip.step, hw]
        exact (h.miscWriteW1C value).1
      · rw [TsunamiCchip.step, hd, nxm, hm]
        exact h.drir_nxm
    | fireIntervalTimer =>
      have hout : ¬ ∃ n : Fin 4, n.val < c.cpuCount ∧ 4 + n.val = 28 := by
        rintro ⟨n, -, hn⟩
        omega
      rw [nxm, TsunamiCchip.step, getLsbD_fireIntervalTimer, decide_eq_false hout, Bool.or_false]
      exact h.drir_nxm
    | latchNxm srcCode =>
      rw [nxm, TsunamiCchip.step, getLsbD_latchNxm_misc c srcCode (by decide), if_pos rfl]
      simp [TsunamiCchip.latchNxm]
    | divertTimer cpu => exact h.drir_nxm
    | divertIpi cpu => exact h.drir_nxm
    | line bit level =>
      have hne : bit.val ≠ 63 := by omega
      rw [TsunamiCchip.step, getLsbD_driveInterrupt c (by decide), if_neg hne, nxm,
        driveInterrupt_misc]
      exact h.drir_nxm
  irq2 n := by
    cases e with
    | write offset value =>
      rcases c.write_cases offset value with hw | ⟨hm, -, h2, -⟩
      · rw [TsunamiCchip.step, hw]
        exact (h.miscWriteW1C value).2.1 n
      · rw [TsunamiCchip.step, hm, h2]
        exact h.irq2 n
    | fireIntervalTimer =>
      intro hn
      simp only [TsunamiCchip.step, TsunamiCchip.fireIntervalTimer, Bool.or_eq_true,
        decide_eq_true_iff] at hn
      rw [TsunamiCchip.step, getLsbD_fireIntervalTimer]
      -- the timer sets the bit with the latch; a latch that was pending has its bit already
      rcases hn with hn | hn
      · rw [decide_eq_true ⟨n, hn, rfl⟩, Bool.or_true]
      · rw [h.irq2 n hn, Bool.true_or]
    | latchNxm srcCode =>
      intro hn
      rw [TsunamiCchip.step, getLsbD_latchNxm_misc c srcCode (by omega), if_neg (by omega),
        if_neg (by omega)]
      exact h.irq2 n hn
    | divertTimer cpu =>
      intro hn
      simp only [TsunamiCchip.step, clearPendingIrq2, Function.update_apply] at hn
      split at hn
      · exact absurd hn Bool.false_ne_true
      · exact h.irq2 n hn
    | divertIpi cpu => exact h.irq2 n
    | line bit level =>
      rw [TsunamiCchip.step, driveInterrupt_misc, driveInterrupt_pendingIrq2]
      exact h.irq2 n
  irq3 n := by
    cases e with
    | write offset value =>
      rcases c.write_cases offset value with hw | ⟨hm, -, -, h3⟩
      · rw [TsunamiCchip.step, hw]
        exact (h.miscWriteW1C value).2.2 n
      · rw [TsunamiCchip.step, hm, h3]
        exact h.irq3 n
    | fireIntervalTimer =>
      intro hn
      rw [TsunamiCchip.step, getLsbD_fireIntervalTimer, h.irq3 n hn, Bool.true_or]
    | latchNxm srcCode =>
      intro hn
      rw [TsunamiCchip.step, getLsbD_latchNxm_misc c srcCode (by omega), if_neg (by omega),
        if_neg (by omega)]
      exact h.irq3 n hn
    | divertTimer cpu => exact h.irq3 n
    | divertIpi cpu =>
      intro hn
      simp only [TsunamiCchip.step, clearPendingIrq3, Function.update_apply] at hn
      split at hn
      · exact absurd hn Bool.false_ne_true
      · exact h.irq3 n hn
    | line bit level =>
      rw [TsunamiCchip.step, driveInterrupt_misc, driveInterrupt_pendingIrq3]
      exact h.irq3 n

end MiscInv

/-! ## The source of a nonexistent-memory access -/

/-- An event that finds NXM set and leaves it set leaves its source alone. -/
theorem nxs_step (e : Event) (hbefore : c.nxm = true) : (c.step e).nxs = c.nxs := by
  refine BitVec.eq_of_getLsbD_eq fun i hi => ?_
  rw [nxs, nxs, BitVec.getLsbD_extractLsb', BitVec.getLsbD_extractLsb']
  congr 1
  cases e with
  | write offset value =>
    rcases c.write_cases offset value with h | ⟨h, -⟩
    · rw [step, h]
      exact getLsbD_miscAfterWrite_of_kept c.misc value (by omega) (by omega)
    · rw [step, h]
  | fireIntervalTimer =>
    rw [step, getLsbD_fireIntervalTimer]
    have hout : ¬ ∃ n : Fin 4, n.val < c.cpuCount ∧ 4 + n.val = 29 + i := by
      rintro ⟨n, -, hn⟩
      omega
    simp [hout]
  | latchNxm srcCode =>
    rw [step, getLsbD_latchNxm_misc c srcCode (by omega), if_neg (by omega), hbefore,
      if_neg (by simp)]
  | divertTimer cpu => rfl
  | divertIpi cpu => rfl
  | line bit level => rw [step, driveInterrupt_misc]

/-- The source is the same all through a stretch of events in which NXM stays set. -/
theorem nxs_runFrom {events : List Event}
    (hset : ∀ done, done <+: events → (runFrom step c done).nxm = true) :
    (runFrom step c events).nxs = c.nxs := by
  induction events generalizing c with
  | nil => rfl
  | cons e es ih =>
    have hfirst : c.nxm = true := hset [] List.nil_prefix
    have hrest : ∀ done, done <+: es → (runFrom step (c.step e) done).nxm = true := by
      intro done hdone
      exact hset (e :: done) (List.prefix_cons_inj e |>.mpr hdone)
    rw [runFrom_cons, ih _ hrest, nxs_step c e hfirst]

/-! ## Runs -/

/-- A read of MISC shows the stored bits above the reader's number. -/
theorem getLsbD_readMisc (cpuId : Int) {i : Nat} (hi : i < 64) (hcpu : 2 ≤ i) :
    (c.readMisc cpuId).getLsbD i = c.misc.getLsbD i := by
  have hmask : (fieldMask 0 2).getLsbD i = false := by
    rw [getLsbD_fieldMask, decide_eq_false_iff_not]; omega
  have hcpuField : (if 0 ≤ cpuId then BitVec.ofInt 64 cpuId &&& fieldMask 0 2
      else 0 : Word).getLsbD i = false := by
    split
    · rw [BitVec.getLsbD_and, hmask, Bool.and_false]
    · simp
  simp only [readMisc, BitVec.getLsbD_or, hcpuField, BitVec.getLsbD_and, BitVec.getLsbD_not, hmask,
    hi]
  simp

/-- MISC<REV> reads the revision. -/
theorem rev_readMisc {c : TsunamiCchip} (h : c.MiscInv) (cpuId : Int) :
    (c.readMisc cpuId).extractLsb' 32 8 = c.crev := by
  refine BitVec.eq_of_getLsbD_eq fun i hi => ?_
  rw [BitVec.getLsbD_extractLsb', getLsbD_readMisc c cpuId (by omega) (by omega), h.rev i hi]
  simp [hi]

/-- The write-only bits read zero. -/
theorem readMisc_and_woMask {c : TsunamiCchip} (h : c.MiscInv) (cpuId : Int) :
    c.readMisc cpuId &&& woMask = 0 := by
  refine BitVec.eq_of_getLsbD_eq fun i hi => ?_
  rw [BitVec.getLsbD_and]
  cases hwo : woMask.getLsbD i with
  | false => simp
  | true =>
    have hcpu := hwo
    rw [getLsbD_woMask, decide_eq_true_iff] at hcpu
    rw [getLsbD_readMisc c cpuId hi (by omega), h.wo i hwo]
    simp

/-- **The invariant holds over every run** from a reset. -/
theorem miscInv_runFrom (events : List Event) : (runFrom step c.reset events).MiscInv :=
  runFrom_invariant MiscInv (fun _ e h => h.step e) events c.miscInv_reset

/-- No run changes the revision. -/
theorem runFrom_crev (events : List Event) : (runFrom step c events).crev = c.crev :=
  runFrom_frame (fun s : TsunamiCchip => s.crev) (fun s e => step_crev s e) c events

/-- **The MISC invariant over every run from reset.** After any interleaving of register writes with
any data, timer fires, NXM latches, diverts and device lines: DRIR<63> is NXM; the source NXS is
what it was at the start of the stretch in which NXM has stayed set; MISC reads the chip's revision
and no write-only bit; and every pending timer or interprocessor latch has its MISC bit set. -/
theorem misc_invariant_of_run (events : List Event) :
    let s := runFrom step c.reset events
    s.drir.getLsbD 63 = s.nxm ∧
      (∀ before during, events = before ++ during →
        (∀ done, done <+: during → (runFrom step c.reset (before ++ done)).nxm = true) →
        s.nxs = (runFrom step c.reset before).nxs) ∧
      (∀ cpuId, (s.readMisc cpuId).extractLsb' 32 8 = c.crev) ∧
      (∀ cpuId, s.readMisc cpuId &&& woMask = 0) ∧
      (∀ n : Fin 4, s.pendingIrq2 n = true → s.misc.getLsbD (4 + n.val) = true) ∧
      ∀ n : Fin 4, s.pendingIrq3 n = true → s.misc.getLsbD (8 + n.val) = true := by
  intro s
  have hinv : s.MiscInv := miscInv_runFrom c events
  have hcrev : s.crev = c.crev := by
    rw [← reset_crev c]
    exact runFrom_crev c.reset events
  refine ⟨hinv.drir_nxm, ?_, ?_, readMisc_and_woMask hinv, hinv.irq2, hinv.irq3⟩
  · intro before during hsplit hset
    have hs : s = runFrom step (runFrom step c.reset before) during := by
      rw [← runFrom_append, ← hsplit]
    rw [hs]
    refine nxs_runFrom _ fun done hdone => ?_
    rw [← runFrom_append]
    exact hset done hdone
  · intro cpuId
    rw [rev_readMisc hinv cpuId, hcrev]

end TsunamiCchip

end EmulatR
