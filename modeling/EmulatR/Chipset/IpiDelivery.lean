import EmulatR.Chipset.MiscInvariant

/-! # Delivery of interprocessor interrupts

A write to MISC<IPREQ> sets the target's pending bit in MISC<IPINTR> and its b_irq<3> latch; a one
in MISC<IPINTR> clears the pending bit and drops the latch; a divert takes the latch and leaves the
bit (chipsetLib/TsunamiCchip.h). So the latch should stand for a pending interrupt that no divert
has taken yet. For the bit the request has the last word, for the latch the acknowledge: a write of
both for one CPU leaves the bit set and the latch down.

`ipi_agrees_iff` is the condition; `crossed_write_loses_interrupt` is the write that breaks it. -/

namespace EmulatR

open Library

/-- The Cchip, and which pending interprocessor interrupts a divert has taken. -/
structure IpiState where
  /-- The Cchip. -/
  cchip : TsunamiCchip
  /-- The last request for the CPU has been delivered. -/
  delivered : Fin 4 → Bool

namespace IpiState

variable (s : IpiState)

/-- A MISC write; what it requests is not delivered yet. -/
def miscWrite (v : Word) : IpiState :=
  ⟨s.cchip.miscWriteW1C v, fun n => s.delivered n && !v.getLsbD (12 + n.val)⟩

/-- A b_irq<3> divert delivers what the latch stands for. -/
def divert (cpu : Fin 4) : IpiState :=
  ⟨s.cchip.clearPendingIrq3 cpu,
    Function.update s.delivered cpu (s.delivered cpu || s.cchip.pendingIrq3 cpu)⟩

/-- One event. -/
def step : TsunamiCchip.Event → IpiState
  | .write offset value =>
    if TsunamiCchip.Csr.decode offset = .misc then s.miscWrite value
    else { s with cchip := s.cchip.write offset value }
  | .divertIpi cpu => s.divert cpu
  | e => { s with cchip := s.cchip.step e }

/-- The state carries the Cchip along. -/
theorem step_cchip (e : TsunamiCchip.Event) : (s.step e).cchip = s.cchip.step e := by
  cases e with
  | write offset value =>
    rw [step, TsunamiCchip.step]
    split
    · rename_i h
      rw [TsunamiCchip.write, h]
      rfl
    · rfl
  | _ => rfl

/-! ## Agreement -/

/-- The latch of the CPU is set exactly if its interrupt is pending and not delivered. -/
def AgreesAt (n : Fin 4) : Prop :=
  s.cchip.pendingIrq3 n = (s.cchip.misc.getLsbD (8 + n.val) && !s.delivered n)

/-- The latches of all configured CPUs agree. -/
def Agrees : Prop := ∀ n : Fin 4, n.val < s.cchip.cpuCount → s.AgreesAt n

/-- The write requests an interrupt of the CPU and acknowledges it. -/
def Crosses (v : Word) (n : Fin 4) : Prop :=
  v.getLsbD (12 + n.val) = true ∧ v.getLsbD (8 + n.val) = true

/-- The pending bit after a write: a request sets it, and else an acknowledge clears it. -/
theorem getLsbD_misc_miscWrite (v : Word) (n : Fin 4) :
    (s.miscWrite v).cchip.misc.getLsbD (8 + n.val) =
      ((s.cchip.misc.getLsbD (8 + n.val) && !v.getLsbD (8 + n.val)) ||
        v.getLsbD (12 + n.val)) := by
  have hbits : ∀ n : Fin 4, TsunamiCchip.woMask.getLsbD (8 + n.val) = false ∧
      TsunamiCchip.w1cMask.getLsbD (8 + n.val) = true := by decide
  obtain ⟨hwo, hw1c⟩ := hbits n
  change (TsunamiCchip.miscAfterWrite s.cchip.misc v).getLsbD (8 + n.val) = _
  rw [TsunamiCchip.getLsbD_miscAfterWrite _ _ (by omega) (by omega), hwo, hw1c,
    decide_eq_true (by omega), show 4 + (8 + n.val) = 12 + n.val by omega]
  simp

/-- The latch after a write: an acknowledge drops it, and else a request sets it. -/
theorem pendingIrq3_miscWrite (v : Word) (n : Fin 4) (hn : n.val < s.cchip.cpuCount) :
    (s.miscWrite v).cchip.pendingIrq3 n =
      (!v.getLsbD (8 + n.val) && (v.getLsbD (12 + n.val) || s.cchip.pendingIrq3 n)) := by
  change (!v.getLsbD (8 + n.val) && ((v.getLsbD (12 + n.val) && decide (n.val < s.cchip.cpuCount)) ||
    s.cchip.pendingIrq3 n)) = _
  rw [decide_eq_true hn, Bool.and_true]

/-- **One write, one CPU.** The latch agrees after the write iff the write does not both request and
acknowledge, and where it does neither the latch has agreed before. -/
theorem agreesAt_miscWrite_iff (v : Word) (n : Fin 4) (hn : n.val < s.cchip.cpuCount) :
    (s.miscWrite v).AgreesAt n ↔
      ¬ Crosses v n ∧ (v.getLsbD (12 + n.val) = false → v.getLsbD (8 + n.val) = false →
        s.AgreesAt n) := by
  rw [AgreesAt, pendingIrq3_miscWrite s v n hn, getLsbD_misc_miscWrite, Crosses, AgreesAt]
  change _ = (_ && !(s.delivered n && !v.getLsbD (12 + n.val))) ↔ _
  cases v.getLsbD (12 + n.val) with
  | true => cases v.getLsbD (8 + n.val) <;> simp
  | false => cases v.getLsbD (8 + n.val) <;> simp

/-! ## Runs -/

/-- The event is no MISC write that requests and acknowledges for one configured CPU. -/
def Uncrossed : TsunamiCchip.Event → Prop
  | .write offset value => TsunamiCchip.Csr.decode offset = .misc →
      ∀ n : Fin 4, n.val < s.cchip.cpuCount → ¬ Crosses value n
  | _ => True

/-- The event leaves the number of CPUs. -/
theorem cpuCount_step (e : TsunamiCchip.Event) :
    (s.step e).cchip.cpuCount = s.cchip.cpuCount := by
  rw [step_cchip]
  cases e with
  | write offset value =>
    rw [TsunamiCchip.step, TsunamiCchip.write]
    split <;> rfl
  | line bit level => cases level <;> rfl
  | _ => rfl

variable {s} in
/-- What moves neither the pending bit nor the latch nor what is delivered keeps the agreement. -/
theorem AgreesAt.of_eq {s' : IpiState} {n : Fin 4} (h : s.AgreesAt n)
    (hmisc : s'.cchip.misc.getLsbD (8 + n.val) = s.cchip.misc.getLsbD (8 + n.val))
    (hlatch : s'.cchip.pendingIrq3 n = s.cchip.pendingIrq3 n)
    (hdel : s'.delivered n = s.delivered n) : s'.AgreesAt n := by
  rw [AgreesAt, hmisc, hlatch, hdel]
  exact h

/-- **One event.** Where the latches agree, they agree after the event iff it does not cross. -/
theorem agrees_step_iff (e : TsunamiCchip.Event) (h : s.Agrees) :
    (s.step e).Agrees ↔ s.Uncrossed e := by
  have hkeep : (∀ n : Fin 4, n.val < s.cchip.cpuCount → (s.step e).AgreesAt n) →
      (s.step e).Agrees := by
    intro hall n hn
    rw [cpuCount_step] at hn
    exact hall n hn
  cases e with
  | write offset value =>
    by_cases hmisc : TsunamiCchip.Csr.decode offset = .misc
    · have hstep : s.step (.write offset value) = s.miscWrite value := if_pos hmisc
      constructor
      · intro hafter _ n hn
        have hagree := hafter n (by rwa [cpuCount_step])
        rw [hstep, agreesAt_miscWrite_iff s value n hn] at hagree
        exact hagree.1
      · intro huncrossed
        refine hkeep fun n hn => ?_
        rw [hstep, agreesAt_miscWrite_iff s value n hn]
        exact ⟨huncrossed hmisc n hn, fun _ _ => h n hn⟩
    -- the other registers hold no interprocessor interrupt
    · have hstep : s.step (.write offset value) =
          { s with cchip := s.cchip.write offset value } := if_neg hmisc
      have hwrite : (s.cchip.write offset value).misc = s.cchip.misc ∧
          (s.cchip.write offset value).pendingIrq3 = s.cchip.pendingIrq3 := by
        rw [TsunamiCchip.write]
        split
        · exact absurd ‹_› hmisc
        · exact ⟨rfl, rfl⟩
        · exact ⟨rfl, rfl⟩
        · exact ⟨rfl, rfl⟩
      refine iff_of_true (hkeep fun n hn => ?_) fun hm => absurd hm hmisc
      rw [hstep]
      exact (h n hn).of_eq (congrArg (BitVec.getLsbD · _) hwrite.1) (congrFun hwrite.2 n) rfl
  | fireIntervalTimer =>
    refine iff_of_true (hkeep fun n hn => (h n hn).of_eq ?_ rfl rfl) trivial
    rw [step_cchip, TsunamiCchip.step, TsunamiCchip.getLsbD_fireIntervalTimer]
    have hout : ¬ ∃ k : Fin 4, k.val < s.cchip.cpuCount ∧ 4 + k.val = 8 + n.val := by
      rintro ⟨k, -, hk⟩
      omega
    rw [decide_eq_false hout, Bool.or_false]
  | latchNxm srcCode =>
    refine iff_of_true (hkeep fun n hn => (h n hn).of_eq ?_ rfl rfl) trivial
    rw [step_cchip, TsunamiCchip.step, TsunamiCchip.getLsbD_latchNxm_misc _ _ (by omega),
      if_neg (by omega), if_neg (by omega)]
  | divertTimer cpu =>
    exact iff_of_true (hkeep fun n hn => (h n hn).of_eq rfl rfl rfl) trivial
  | divertIpi cpu =>
    refine iff_of_true (hkeep fun n hn => ?_) trivial
    have hn' := h n hn
    by_cases hcpu : n = cpu
    -- the divert takes what the latch stands for
    · subst hcpu
      simp only [AgreesAt, step, divert, TsunamiCchip.clearPendingIrq3,
        Function.update_self] at hn' ⊢
      rw [hn']
      cases s.cchip.misc.getLsbD (8 + n.val) <;> simp
    · exact hn'.of_eq rfl (Function.update_of_ne hcpu _ _) (Function.update_of_ne hcpu _ _)
  | line bit level =>
    refine iff_of_true (hkeep fun n hn => (h n hn).of_eq ?_ ?_ rfl) trivial
    · rw [step_cchip, TsunamiCchip.step, TsunamiCchip.driveInterrupt_misc]
    · rw [step_cchip, TsunamiCchip.step, TsunamiCchip.driveInterrupt_pendingIrq3]

/-- Power-on: nothing is pending and nothing delivered. -/
def powerOn (c : TsunamiCchip) : IpiState := ⟨c.reset, fun _ => false⟩

/-- After power-on the latches agree: nothing is pending. -/
theorem agrees_powerOn (c : TsunamiCchip) : (powerOn c).Agrees := by
  intro n _
  -- the revision field is far above the pending bits
  have hlow : 8 + n.val < 32 := by omega
  simp [AgreesAt, powerOn, TsunamiCchip.reset, hlow]

/-- **No interprocessor interrupt is lost unless a write crosses.** For every state and every MISC
write the latches agree after it iff for each configured CPU the write does not both request and
acknowledge, and where it does neither they have agreed before. From power-on, over every sequence
of events, they agree in every state reached iff no MISC write crosses. -/
theorem ipi_agrees_iff (v : Word) (c : TsunamiCchip) (events : List TsunamiCchip.Event) :
    ((s.miscWrite v).Agrees ↔
      ∀ n : Fin 4, n.val < s.cchip.cpuCount → ¬ Crosses v n ∧
        (v.getLsbD (12 + n.val) = false → v.getLsbD (8 + n.val) = false → s.AgreesAt n)) ∧
    ((∀ done, done <+: events → (runFrom step (powerOn c) done).Agrees) ↔
      RunMeets step Uncrossed (powerOn c) events) := by
  constructor
  · exact forall_congr' fun n => forall_congr' fun hn => agreesAt_miscWrite_iff s v n hn
  · exact forall_prefix_iff_runMeets (fun s e h (_ : True) => agrees_step_iff s e h)
      (fun _ _ _ _ => trivial) (agrees_powerOn c) trivial events

/-- **A request crossed by an acknowledge is lost.** After power-on one write requests an interrupt
of CPU 0 and acknowledges it: the pending bit is set and the latch is down. -/
theorem crossed_write_loses_interrupt :
    ¬ ∀ (c : TsunamiCchip) (events : List TsunamiCchip.Event),
      (runFrom step (powerOn c) events).Agrees := by
  intro h
  have hagree := h (TsunamiCchip.make 1 8) [.write 0x80 0x1100] 0 (by decide)
  unfold AgreesAt at hagree
  exact absurd hagree (by decide)

end IpiState

end EmulatR
