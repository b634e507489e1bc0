import EmulatR.Chipset.MiscInvariant

/-! # Arbitration for the boot CPU

Every CPU tries for the boot lock with a write-one-to-set of its bit in MISC<ABT>. A try without an
earlier contender is promoted to MISC<ABW>, arbitration won, in the same write, and MISC<ACL> clears
both fields (chipsetLib/TsunamiCchip.h). ABW is write-one-to-set as well, and the register
specification has it locked once a bit is set (chipsetLib/Tsunami21272_CsrSpec.h). The writer has no
such lock: it promotes all tries of a write together and sets whatever ABW bits the data has.

`arbitrationLocks_iff` is the condition over runs; `second_write_takes_arbitration` is the write
that breaks it. -/

namespace EmulatR

open Library

namespace TsunamiCchip

variable (c : TsunamiCchip)

/-- The CPU has won the arbitration. -/
def won (n : Fin 4) : Prop := c.misc.getLsbD (16 + n.val) = true

/-- The write asks for the lock for the CPU: with its ABW bit, or with its ABT bit while no try is
stored. -/
def asksFor (v : Word) (n : Fin 4) : Prop :=
  v.getLsbD (16 + n.val) = true ∨ c.misc &&& ABT = 0 ∧ v.getLsbD (20 + n.val) = true

instance (n : Fin 4) : Decidable (c.won n) := inferInstanceAs (Decidable (_ = _))

/-- At most one CPU has won. -/
def AtMostOneWinner : Prop := ∀ m n, c.won m → c.won n → m = n

/-- The event clears the arbitration. -/
def Event.ClearsArbitration : Event → Prop
  | .write offset value => Csr.decode offset = .misc ∧ value.getLsbD 24 = true
  | _ => False

/-- Unless it clears the arbitration, a MISC write asks for nobody but the winner, and for one CPU
at most where nobody has won. -/
def AsksForOne : Event → Prop
  | .write offset value => Csr.decode offset = .misc → value.getLsbD 24 = false →
      ∀ m n, c.won m ∨ c.asksFor value m → c.asksFor value n → m = n
  | _ => True

/-! ## The arbitration fields -/

/-- ABT is bits 23:20. -/
theorem getLsbD_ABT (i : Nat) : ABT.getLsbD i = decide (20 ≤ i ∧ i < 24) := by
  rw [ABT, getLsbD_fieldMask, decide_eq_decide]
  omega

/-- ABW is bits 19:16. -/
theorem getLsbD_ABW (i : Nat) : ABW.getLsbD i = decide (16 ≤ i ∧ i < 20) := by
  rw [ABW, getLsbD_fieldMask, decide_eq_decide]
  omega

/-- The stored bits and the ones of the data, in the arbitration fields. -/
theorem getLsbD_staged (old v : Word) {i : Nat} (hi : 16 ≤ i ∧ i < 24) :
    ((old &&& ~~~(v &&& w1cMask)) ||| (v &&& w1sMask)).getLsbD i =
      (old.getLsbD i || v.getLsbD i) := by
  have hw1c : w1cMask.getLsbD i = false := by
    simp only [w1cMask, NXM, IPINTR, ITINTR, BitVec.getLsbD_or, getLsbD_fieldMask]
    simp
    omega
  have hw1s : w1sMask.getLsbD i = true := by
    rw [w1sMask, BitVec.getLsbD_or, getLsbD_ABT, getLsbD_ABW, ← Bool.decide_or,
      decide_eq_true_iff]
    omega
  rw [BitVec.getLsbD_or, BitVec.getLsbD_and, BitVec.getLsbD_and, BitVec.getLsbD_not,
    BitVec.getLsbD_and, hw1c, hw1s, decide_eq_true (show i < 64 by omega)]
  simp

/-- The tries of a write that finds none stored are promoted. -/
theorem getLsbD_promoted (old v : Word) {staged : Word} {i : Nat} (hi : 16 ≤ i)
    (hstaged : i < 20 → staged.getLsbD (4 + i) = (old.getLsbD (4 + i) || v.getLsbD (4 + i))) :
    let newlyTried := (staged &&& ABT) &&& ~~~(old &&& ABT)
    (if newlyTried ≠ 0 ∧ old &&& ABT = 0 then staged ||| ((newlyTried >>> 4) &&& ABW)
      else staged).getLsbD i =
      (staged.getLsbD i || (decide (i < 20 ∧ old &&& ABT = 0) && v.getLsbD (4 + i))) := by
  intro newlyTried
  by_cases hold : old &&& ABT = 0
  · have hbit : ((newlyTried >>> 4) &&& ABW).getLsbD i = (decide (i < 20) && v.getLsbD (4 + i)) := by
      rw [BitVec.getLsbD_and, BitVec.getLsbD_ushiftRight, getLsbD_ABW]
      by_cases hlow : i < 20
      · have hclear : old.getLsbD (4 + i) = false := by
          have h := congrArg (BitVec.getLsbD · (4 + i)) hold
          simpa [getLsbD_ABT, show 20 ≤ 4 + i ∧ 4 + i < 24 by omega] using h
        have htry : newlyTried.getLsbD (4 + i) = v.getLsbD (4 + i) := by
          simp only [newlyTried]
          rw [hold, BitVec.getLsbD_and, BitVec.getLsbD_and, hstaged hlow, hclear, getLsbD_ABT,
            BitVec.getLsbD_not,
            decide_eq_true (show 20 ≤ 4 + i ∧ 4 + i < 24 by omega),
            decide_eq_true (show 4 + i < 64 by omega)]
          simp
        simp [htry, hlow, hi]
      · simp [hlow]
    by_cases hnew : newlyTried = 0
    · -- nothing new is tried, so nothing would be promoted
      rw [if_neg fun h => h.1 hnew]
      rw [hnew] at hbit
      simp only [hold, and_true]
      rw [← hbit]
      simp
    · rw [if_pos ⟨hnew, hold⟩, BitVec.getLsbD_or, hbit]
      simp [hold]
  · rw [if_neg fun h => hold h.2, decide_eq_false fun h => hold h.2, Bool.false_and,
      Bool.or_false]

/-- What a MISC write does to a bit of the arbitration fields. -/
theorem getLsbD_miscAfterWrite_arb (old v : Word) {i : Nat} (hi : 16 ≤ i ∧ i < 24) :
    (miscAfterWrite old v).getLsbD i =
      (!v.getLsbD 24 && ((old.getLsbD i || v.getLsbD i) ||
        (decide (i < 20 ∧ old &&& ABT = 0) && v.getLsbD (4 + i)))) := by
  have hip : IPINTR.getLsbD i = false := by
    rw [IPINTR, getLsbD_fieldMask, decide_eq_false_iff_not]
    omega
  have hwo : woMask.getLsbD i = false := by
    rw [getLsbD_woMask, decide_eq_false_iff_not]
    omega
  have harb : (ABT ||| ABW).getLsbD i = true := by
    rw [BitVec.getLsbD_or, getLsbD_ABT, getLsbD_ABW, ← Bool.decide_or, decide_eq_true_iff]
    omega
  have hacl : v &&& ACL = 0 ↔ v.getLsbD 24 = false := and_fieldMask_one_eq_zero_iff v (by decide)
  -- ACL has the last word on both fields
  have hclear : ∀ x : Word, (if v &&& ACL ≠ 0 then x &&& ~~~(ABT ||| ABW) else x).getLsbD i =
      (!v.getLsbD 24 && x.getLsbD i) := by
    intro x
    cases h : v.getLsbD 24 with
    | false => rw [if_neg (not_not.mpr (hacl.mpr h)), Bool.not_false, Bool.true_and]
    | true =>
      have hne : v &&& ACL ≠ 0 := fun h0 => by
        rw [hacl.mp h0] at h
        cases h
      rw [if_pos hne, BitVec.getLsbD_and, BitVec.getLsbD_not, harb]
      simp
  have hpromoted := getLsbD_promoted old v hi.1
    fun hlow => getLsbD_staged old v (i := 4 + i) (by omega)
  rw [miscAfterWrite, BitVec.getLsbD_or, BitVec.getLsbD_and, BitVec.getLsbD_or, hclear,
    hpromoted, getLsbD_staged old v hi, BitVec.getLsbD_and, BitVec.getLsbD_and, BitVec.getLsbD_not,
    hip, hwo]
  simp [show i < 64 by omega]

/-- Who has won after a MISC write. -/
theorem won_miscWriteW1C (v : Word) (n : Fin 4) :
    (c.miscWriteW1C v).won n ↔ v.getLsbD 24 = false ∧ (c.won n ∨ c.asksFor v n) := by
  have hbit := getLsbD_miscAfterWrite_arb c.misc v (i := 16 + n.val) (by omega)
  rw [show 4 + (16 + n.val) = 20 + n.val by omega] at hbit
  rw [won, won, asksFor, miscWriteW1C, hbit]
  simp only [Bool.and_eq_true, Bool.not_eq_true', Bool.or_eq_true, decide_eq_true_eq,
    show 16 + n.val < 20 by omega, true_and, or_assoc]

/-! ## Runs -/

/-- The other events leave the arbitration fields alone. -/
theorem won_step_of_kept {e : Event} (n : Fin 4)
    (he : ∀ offset value, e = .write offset value → Csr.decode offset ≠ .misc) :
    (c.step e).won n ↔ c.won n := by
  have hkept : (c.step e).misc.getLsbD (16 + n.val) = c.misc.getLsbD (16 + n.val) := by
    cases e with
    | write offset value =>
      rw [step, write]
      split
      · exact absurd ‹_› (he offset value rfl)
      · rfl
      · rfl
      · rfl
    | fireIntervalTimer =>
      have hout : ¬ ∃ k : Fin 4, k.val < c.cpuCount ∧ 4 + k.val = 16 + n.val := by
        rintro ⟨k, -, hk⟩
        omega
      rw [step, getLsbD_fireIntervalTimer, decide_eq_false hout, Bool.or_false]
    | latchNxm srcCode =>
      rw [step, getLsbD_latchNxm_misc _ _ (by omega), if_neg (by omega), if_neg (by omega)]
    | line bit level => rw [step, driveInterrupt_misc]
    | divertTimer cpu => rfl
    | divertIpi cpu => rfl
  rw [won, won, hkept]

/-- **One event.** Where at most one CPU has won, the same holds after the event iff it asks for one
CPU only. -/
theorem atMostOneWinner_step_iff (e : Event) (h : c.AtMostOneWinner) :
    (c.step e).AtMostOneWinner ↔ c.AsksForOne e := by
  by_cases hmisc : ∃ offset value, e = .write offset value ∧ Csr.decode offset = .misc
  · obtain ⟨offset, value, rfl, hdec⟩ := hmisc
    have hstep : c.step (.write offset value) = c.miscWriteW1C value := by
      rw [step, write, hdec]
    simp only [AtMostOneWinner, AsksForOne, hstep, won_miscWriteW1C, hdec, true_implies]
    constructor
    · intro hafter hacl m n hm hn
      exact hafter m n ⟨hacl, hm⟩ ⟨hacl, Or.inr hn⟩
    · rintro hask m n ⟨hacl, hm⟩ ⟨-, hn⟩
      rcases hn with hn | hn
      · rcases hm with hm | hm
        · exact h m n hm hn
        · exact (hask hacl n m (Or.inl hn) hm).symm
      · exact hask hacl m n hm hn
  · have hkept : ∀ n, (c.step e).won n ↔ c.won n := fun n =>
      c.won_step_of_kept n fun offset value he hdec => hmisc ⟨offset, value, he, hdec⟩
    have hask : c.AsksForOne e := by
      cases e with
      | write offset value => exact fun hdec => absurd ⟨offset, value, rfl, hdec⟩ hmisc
      | _ => trivial
    refine iff_of_true ?_ hask
    intro m n hm hn
    exact h m n ((hkept m).mp hm) ((hkept n).mp hn)

/-- A winner stays one until the arbitration is cleared. -/
theorem won_step_of_won {e : Event} {n : Fin 4} (h : c.won n) (he : ¬ e.ClearsArbitration) :
    (c.step e).won n := by
  by_cases hmisc : ∃ offset value, e = .write offset value ∧ Csr.decode offset = .misc
  · obtain ⟨offset, value, rfl, hdec⟩ := hmisc
    have hacl : value.getLsbD 24 = false := by
      rw [← Bool.not_eq_true]
      exact fun hset => he ⟨hdec, hset⟩
    rw [step, write, hdec]
    exact (c.won_miscWriteW1C value n).mpr ⟨hacl, Or.inl h⟩
  · exact (c.won_step_of_kept n fun offset value he hdec => hmisc ⟨offset, value, he, hdec⟩).mpr h

/-- A winner stays the winner until the arbitration is cleared. -/
theorem won_runFrom_of_won {events : List Event} {n : Fin 4} (h : c.won n)
    (he : ∀ e ∈ events, ¬ e.ClearsArbitration) : (runFrom step c events).won n := by
  induction events generalizing c with
  | nil => exact h
  | cons e es ih =>
    exact ih (c.step e) (c.won_step_of_won h (he e List.mem_cons_self))
      fun e' he' => he e' (List.mem_cons_of_mem e he')

/-- The arbitration is a lock: in every state of the run at most one CPU has won, and through a
stretch without an arbitration clear the winner is the same. -/
structure ArbitrationLocks (events : List Event) : Prop where
  /-- One winner at a time. -/
  one : ∀ done, done <+: events → (runFrom step c done).AtMostOneWinner
  /-- The winner keeps the lock. -/
  kept : ∀ before during, before ++ during <+: events →
    (∀ e ∈ during, ¬ e.ClearsArbitration) → ∀ m, (runFrom step c before).won m →
    ∀ n, (runFrom step c (before ++ during)).won n ↔ n = m

/-- After a reset nobody has won. -/
theorem atMostOneWinner_reset : c.reset.AtMostOneWinner := by
  intro m n hm _
  have hlow : 16 + m.val < 32 := by omega
  simp [won, reset, hlow] at hm

/-- **When the arbitration is a lock.** From power-on, over every sequence of register writes and
chipset events: it is one iff every MISC write that does not clear it asks for nobody but the
winner, and for one CPU at most where nobody has won. -/
theorem arbitrationLocks_iff (events : List Event) :
    ArbitrationLocks c.reset events ↔ RunMeets step AsksForOne c.reset events := by
  have hone : (∀ done, done <+: events → (runFrom step c.reset done).AtMostOneWinner) ↔
      RunMeets step AsksForOne c.reset events :=
    forall_prefix_iff_runMeets (fun s e h (_ : True) => s.atMostOneWinner_step_iff e h)
      (fun _ _ _ _ => trivial) c.atMostOneWinner_reset trivial events
  rw [← hone]
  constructor
  · exact ArbitrationLocks.one
  · intro h
    refine ⟨h, fun before during hpre hclear m hm n => ?_⟩
    -- the winner is still there, and it is the only one
    have hkept : (runFrom step c.reset (before ++ during)).won m := by
      rw [runFrom_append]
      exact won_runFrom_of_won _ hm hclear
    constructor
    · exact fun hn => h _ hpre n m hn hkept
    · rintro rfl
      exact hkept

/-- **The lock is taken twice.** CPU 0 takes the lock with its ABW bit, and then CPU 1 does. -/
theorem second_write_takes_arbitration :
    ¬ ∀ (c : TsunamiCchip) (events : List Event), ArbitrationLocks c.reset events := by
  intro h
  have hlocks := h (make 2 8) [.write 0x80 0x10000, .write 0x80 0x20000]
  have hsame : (0 : Fin 4) = 1 :=
    hlocks.one _ (List.prefix_refl _) 0 1 (by decide) (by decide)
  exact absurd hsame (by decide)

end TsunamiCchip

end EmulatR
