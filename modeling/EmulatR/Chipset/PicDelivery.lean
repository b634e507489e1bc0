import Mathlib.Order.WellFounded
import EmulatR.Chipset.Pic8259Pair

/-! # What the 8259 pair delivers

Three results about every run of the pair.

* A latched edge stays requested until its level is delivered by an INTA cycle or a poll, or the
  unit is restarted by ICW1; the mask does not matter.
* `acknowledge` delivers the best candidate of the cascaded pair, a candidate being a requested and
  unmasked level that no level in service on its unit suppresses (for a slave level, on the master's
  IR2 too), and moves exactly that level, with IR2 for a slave level, from IRR to ISR.
* While a level is in service, no level of equal or lower priority on the same unit is delivered.

`pic_delivery` is the law over runs; `acknowledge_skips_suppressed` is why it is about the lines
that are not suppressed. -/

namespace EmulatR

open Library

namespace PicUnit

variable {u : PicUnit} {extra : BitVec 8} {l j : Fin 8}

/-! ## The bits of a unit -/

/-- The mask of one line has that bit and no other. -/
theorem getLsbD_bit (l j : Fin 8) : (bit l).getLsbD j = decide (j = l) := by
  revert l j
  decide

/-- The transfer takes the request of its line away. -/
@[simp] theorem transferIrrToIsr_irr (l j : Fin 8) :
    (u.transferIrrToIsr l).irr.getLsbD j = (u.irr.getLsbD j && !decide (j = l)) := by
  rw [transferIrrToIsr, BitVec.getLsbD_and, BitVec.getLsbD_not, getLsbD_bit]
  simp

/-- The transfer puts its line in service. -/
@[simp] theorem transferIrrToIsr_isr (l j : Fin 8) :
    (u.transferIrrToIsr l).isr.getLsbD j = (u.isr.getLsbD j || decide (j = l)) := by
  rw [transferIrrToIsr, BitVec.getLsbD_or, getLsbD_bit]

/-! ## What a unit presents -/

/-- The unit could present this level: it is initialised, the level is requested and unmasked, and
nothing of equal or higher priority is in service. -/
structure Serviceable (u : PicUnit) (extra : BitVec 8) (l : Fin 8) : Prop where
  /-- The unit is initialised. -/
  ready : u.initState = .ready
  /-- The level is requested, by its own latch or by the cascade. -/
  requested : (u.irr ||| extra).getLsbD l = true
  /-- The level is unmasked. -/
  unmasked : u.imr.getLsbD l = false
  /-- Nothing of equal or higher priority is in service. -/
  free : ∀ j ≤ l, u.isr.getLsbD j = false

/-- The scan over an increasing list of levels finds the first request, unless a level in service
comes before it. -/
theorem scan_eq_some_iff {isr req : BitVec 8} {ls : List (Fin 8)} (hs : ls.Pairwise (· < ·)) :
    scan isr req ls = some l ↔
      l ∈ ls ∧ req.getLsbD l = true ∧ (∀ j ∈ ls, j ≤ l → isr.getLsbD j = false) ∧
        ∀ j ∈ ls, j < l → req.getLsbD j = false := by
  -- on the levels still to scan; the list is sorted, so its head has the best priority
  induction ls with
  | nil => simp [scan]
  | cons x rest ih =>
    obtain ⟨hx, hs⟩ := List.pairwise_cons.mp hs
    rw [scan]
    cases hisr : isr.getLsbD x with
    | true =>
      -- a level in service ends the scan, and it stands before everything that is left
      refine ⟨fun h => by simp at h, ?_⟩
      rintro ⟨hmem, -, hfree, -⟩
      have hle : x ≤ l := by
        rcases List.mem_cons.mp hmem with rfl | hmem
        · exact le_rfl
        · exact (hx l hmem).le
      exact absurd ((hfree x List.mem_cons_self hle).symm.trans hisr) Bool.false_ne_true
    | false =>
      cases hreq : req.getLsbD x with
      | true =>
        simp only [Bool.false_eq_true, if_false, if_true, Option.some.injEq]
        constructor
        · rintro rfl
          refine ⟨List.mem_cons_self, hreq, ?_, ?_⟩
          · intro j hj hle
            rcases List.mem_cons.mp hj with rfl | hj
            · exact hisr
            · exact absurd (hx j hj) (not_lt.mpr hle)
          · intro j hj hlt
            rcases List.mem_cons.mp hj with rfl | hj
            · exact absurd hlt (lt_irrefl _)
            · exact absurd (hx j hj) (not_lt.mpr hlt.le)
        · rintro ⟨hmem, -, -, hfirst⟩
          rcases List.mem_cons.mp hmem with rfl | hmem
          · rfl
          · exact absurd ((hfirst x List.mem_cons_self (hx l hmem)).symm.trans hreq)
              Bool.false_ne_true
      | false =>
        simp only [Bool.false_eq_true, if_false]
        -- a head neither in service nor requested constrains nothing
        rw [ih hs]
        constructor
        · rintro ⟨hmem, hl, hfree, hfirst⟩
          refine ⟨List.mem_cons_of_mem _ hmem, hl, ?_, ?_⟩
          · intro j hj hle
            rcases List.mem_cons.mp hj with rfl | hj
            · exact hisr
            · exact hfree j hj hle
          · intro j hj hlt
            rcases List.mem_cons.mp hj with rfl | hj
            · exact hreq
            · exact hfirst j hj hlt
        · rintro ⟨hmem, hl, hfree, hfirst⟩
          have hmem' : l ∈ rest := by
            rcases List.mem_cons.mp hmem with rfl | hmem
            · exact absurd (hreq.symm.trans hl) Bool.false_ne_true
            · exact hmem
          exact ⟨hmem', hl, fun j hj => hfree j (List.mem_cons_of_mem _ hj),
            fun j hj => hfirst j (List.mem_cons_of_mem _ hj)⟩

/-- **A unit presents its best serviceable level.** -/
theorem unitPending_eq_some_iff :
    u.unitPending extra = some l ↔
      u.Serviceable extra l ∧ ∀ j, u.Serviceable extra j → l ≤ j := by
  have hreq : ∀ j : Fin 8, ((u.irr ||| extra) &&& ~~~u.imr).getLsbD j = true ↔
      (u.irr ||| extra).getLsbD j = true ∧ u.imr.getLsbD j = false := by
    intro j
    rw [BitVec.getLsbD_and, BitVec.getLsbD_not]
    simp
  have hscan : u.unitPending extra = some l ↔ u.initState = .ready ∧
      scan u.isr ((u.irr ||| extra) &&& ~~~u.imr) (List.finRange 8) = some l := by
    unfold unitPending
    by_cases hready : u.initState = .ready
    -- the early exit on no request agrees with the scan, which then finds nothing
    · by_cases hzero : (u.irr ||| extra) &&& ~~~u.imr = 0
      · simp only [hready, hzero, if_true, true_and]
        rw [scan_eq_some_iff (List.pairwise_lt_finRange 8)]
        simp
      · rw [if_pos hready, if_neg hzero]
        exact (and_iff_right hready).symm
    · simp [hready]
  rw [hscan, scan_eq_some_iff (List.pairwise_lt_finRange 8), hreq]
  constructor
  · rintro ⟨hready, -, ⟨hl, hmask⟩, hfree, hfirst⟩
    refine ⟨⟨hready, hl, hmask, fun j hj => hfree j (List.mem_finRange j) hj⟩, ?_⟩
    intro j hj
    -- the scan would have stopped at a serviceable level before `l`
    by_contra hlt
    have hno := hfirst j (List.mem_finRange j) (not_le.mp hlt)
    exact absurd (hno.symm.trans ((hreq j).mpr ⟨hj.requested, hj.unmasked⟩)) Bool.false_ne_true
  · rintro ⟨hl, hmin⟩
    refine ⟨hl.ready, List.mem_finRange l, ⟨hl.requested, hl.unmasked⟩,
      fun j _ hj => hl.free j hj, ?_⟩
    intro j _ hlt
    rw [← Bool.not_eq_true, hreq]
    rintro ⟨hj, hmask⟩
    -- a request before `l` would be serviceable itself
    have hser : u.Serviceable extra j :=
      ⟨hl.ready, hj, hmask, fun i hi => hl.free i (hi.trans hlt.le)⟩
    exact absurd (hmin j hser) (not_le.mpr hlt)

/-! ## What the ports do to IRR and ISR -/

/-- OCW2 and OCW3 leave the requests alone. -/
theorem writeBase_irr {v : BitVec 8} (h : v.getLsbD 4 = false) : (u.writeBase v).irr = u.irr := by
  unfold writeBase endHighest
  rw [h, if_neg Bool.false_ne_true]
  repeat' split
  all_goals rfl

/-- A data write leaves the requests alone. -/
theorem writeData_irr (v : BitVec 8) : (u.writeData v).irr = u.irr := by
  unfold writeData
  split <;> rfl

/-- A data write leaves the lines in service alone. -/
theorem writeData_isr (v : BitVec 8) : (u.writeData v).isr = u.isr := by
  unfold writeData
  split <;> rfl

/-- The byte is an EOI for the level: a specific one that names it, or a non-specific one while it
is the highest in service. -/
def EndsService (u : PicUnit) (v : BitVec 8) (l : Fin 8) : Prop :=
  v.getLsbD 4 = false ∧ v.getLsbD 3 = false ∧
    ((v.extractLsb' 5 3 = 1 ∧ u.isr.getLsbD l = true ∧ ∀ j < l, u.isr.getLsbD j = false) ∨
      (v.extractLsb' 5 3 = 3 ∧ ocwLevel v = l))

/-- The level the non-specific EOI ends is the highest in service. -/
theorem endHighest_isr (h : u.isr.getLsbD l = true) :
    u.endHighest.isr.getLsbD l = true ∨ ∀ j < l, u.isr.getLsbD j = false := by
  unfold endHighest
  cases hfind : (List.finRange 8).find? (fun lvl : Fin 8 => u.isr.getLsbD lvl) with
  | none => exact Or.inl h
  | some m =>
    by_cases hlm : l = m
    · subst hlm
      refine Or.inr fun j hj => ?_
      -- `find?` takes the first level in service, and the levels are scanned in order
      obtain ⟨-, before, after, hsplit, hbefore⟩ := List.find?_eq_some_iff_append.mp hfind
      have hmem : j ∈ before := by
        have hsorted : (before ++ l :: after).Pairwise (· < ·) :=
          hsplit ▸ List.pairwise_lt_finRange 8
        have hafter := (List.pairwise_cons.mp (List.pairwise_append.mp hsorted).2.1).1
        have hj' : j ∈ before ++ l :: after := hsplit ▸ List.mem_finRange j
        rcases List.mem_append.mp hj' with hb | ha
        · exact hb
        · rcases List.mem_cons.mp ha with rfl | ha
          · exact absurd hj (lt_irrefl _)
          · exact absurd (hafter j ha) (not_lt.mpr hj.le)
      simpa using hbefore j hmem
    · left
      change (u.isr &&& ~~~bit m).getLsbD l = true
      rw [BitVec.getLsbD_and, BitVec.getLsbD_not, getLsbD_bit, decide_eq_false hlm, h]
      simp

/-- A level stays in service until its EOI or a restart. -/
theorem writeBase_isr {v : BitVec 8} (hv : v.getLsbD 4 = false) (hend : ¬ u.EndsService v l)
    (h : u.isr.getLsbD l = true) : (u.writeBase v).isr.getLsbD l = true := by
  unfold writeBase
  rw [hv, if_neg Bool.false_ne_true]
  cases hv3 : v.getLsbD 3 with
  | true => exact h
  | false =>
    rw [if_neg Bool.false_ne_true]
    split
    · rename_i hop
      rcases endHighest_isr h with h' | hhigh
      · exact h'
      · exact absurd ⟨hv, hv3, Or.inl ⟨hop, h, hhigh⟩⟩ hend
    · split
      · rename_i hop
        -- a specific EOI for another level
        have hne : l ≠ ocwLevel v := fun he => hend ⟨hv, hv3, Or.inr ⟨hop, he.symm⟩⟩
        change (u.isr &&& ~~~bit (ocwLevel v)).getLsbD l = true
        rw [BitVec.getLsbD_and, BitVec.getLsbD_not, getLsbD_bit, decide_eq_false hne, h]
        simp
      · exact h

/-- An armed poll takes the presented level, if there is one. -/
theorem readBase_of_poll (h : u.pollArmed = true) :
    u.readBase.1 = (u.unitPending 0).elim { u with pollArmed := false } fun lvl =>
      ({ u with pollArmed := false } : PicUnit).transferIrrToIsr lvl := by
  have hsame : ({ u with pollArmed := false } : PicUnit).unitPending 0 = u.unitPending 0 := rfl
  unfold readBase
  rw [if_pos h]
  simp only [hsame]
  cases u.unitPending 0 <;> rfl

/-- A base read takes a level out of IRR only as an armed poll. -/
theorem readBase_irr (h : u.irr.getLsbD l = true)
    (hpoll : ¬ (u.pollArmed = true ∧ u.unitPending 0 = some l)) :
    u.readBase.1.irr.getLsbD l = true := by
  by_cases harm : u.pollArmed = true
  · rw [readBase_of_poll harm]
    cases hpend : u.unitPending 0 with
    | none => exact h
    | some m =>
      have hne : l ≠ m := fun he => hpoll ⟨harm, he ▸ hpend⟩
      rw [Option.elim_some, transferIrrToIsr_irr, decide_eq_false hne]
      simpa using h
  · unfold readBase
    rw [if_neg harm]
    exact h

/-- A base read never takes a level out of service. -/
theorem readBase_isr (h : u.isr.getLsbD l = true) : u.readBase.1.isr.getLsbD l = true := by
  by_cases harm : u.pollArmed = true
  · rw [readBase_of_poll harm]
    cases u.unitPending 0 with
    | none => exact h
    | some m =>
      rw [Option.elim_some, transferIrrToIsr_isr]
      exact Bool.or_eq_true_iff.mpr (Or.inl h)
  · unfold readBase
    rw [if_neg harm]
    exact h

/-- A unit presents nothing only if it has nothing serviceable. -/
theorem unitPending_eq_none (h : u.unitPending extra = none) (l : Fin 8) :
    ¬ u.Serviceable extra l := by
  intro hl
  -- a serviceable level would have a least one below it, and that is presented
  obtain ⟨m, hm, hmin⟩ := wellFounded_lt.has_min {l | u.Serviceable extra l} ⟨l, hl⟩
  have hsome := unitPending_eq_some_iff.mpr ⟨hm, fun j hj => not_lt.mp (hmin j hj)⟩
  exact absurd (h.symm.trans hsome) (by simp)

end PicUnit

namespace Pic8259Pair

variable {p : Pic8259Pair} {k : Fin 2} {l m : Fin 8} {c w : Fin 2 × Fin 8} {e : Event}

/-- Modifying a unit changes that unit. -/
@[simp] theorem modifyUnit_same (f : PicUnit → PicUnit) :
    (p.modifyUnit k f).unit k = f (p.unit k) := Function.update_self k _ _

/-- Modifying one unit leaves the other alone. -/
theorem modifyUnit_of_ne (f : PicUnit → PicUnit) {k' : Fin 2} (h : k' ≠ k) :
    (p.modifyUnit k f).unit k' = p.unit k' := Function.update_of_ne h _ _

/-! ## The best candidate -/

/-- A level is latched. -/
def Requested (p : Pic8259Pair) (c : Fin 2 × Fin 8) : Prop := (p.unit c.1).irr.getLsbD c.2 = true

/-- A level is in service. -/
def InService (p : Pic8259Pair) (c : Fin 2 × Fin 8) : Prop := (p.unit c.1).isr.getLsbD c.2 = true

/-- A level that could be delivered: serviceable on its own unit, and for a slave level IR2
serviceable on the master. -/
def Candidate (p : Pic8259Pair) (c : Fin 2 × Fin 8) : Prop :=
  (p.unit c.1).Serviceable 0 c.2 ∧
    (c.1 = slaveUnit → (p.unit masterUnit).Serviceable (PicUnit.bit cascadeIr) cascadeIr)

/-- The priority order of the cascaded pair: the slave's levels stand where the master's IR2 does,
and the master's own IR2 request comes after them. -/
def rank (c : Fin 2 × Fin 8) : Nat :=
  if c.1 = slaveUnit then 2 + c.2 else if c.2 < cascadeIr then c.2 else 8 + c.2

/-- Serviceable with the cascade request is serviceable alone, except for IR2 itself. -/
theorem serviceable_cascade_iff {u : PicUnit} :
    u.Serviceable (PicUnit.bit cascadeIr) l ↔
      u.Serviceable 0 l ∨ (l = cascadeIr ∧ u.Serviceable (PicUnit.bit cascadeIr) cascadeIr) := by
  constructor
  · intro h
    by_cases hl : l = cascadeIr
    · exact Or.inr ⟨hl, hl ▸ h⟩
    · refine Or.inl ⟨h.ready, ?_, h.unmasked, h.free⟩
      have := h.requested
      rw [BitVec.getLsbD_or, PicUnit.getLsbD_bit, decide_eq_false hl] at this
      rw [BitVec.getLsbD_or]
      simpa using this
  · rintro (h | ⟨rfl, h⟩)
    · refine ⟨h.ready, ?_, h.unmasked, h.free⟩
      have := h.requested
      rw [BitVec.getLsbD_or] at this ⊢
      simp at this
      simp [this]
    · exact h

/-- With a quiet slave the master alone decides. -/
theorem pendingLevel_of_slave_none (h : (p.unit 1).unitPending 0 = none) :
    p.pendingLevel = ((p.unit 0).unitPending 0).map fun m => (0, m) := by
  unfold pendingLevel cascadeBit
  rw [h, Option.isSome_none, if_neg Bool.false_ne_true]
  cases (p.unit 0).unitPending 0 <;> rfl

/-- With a pending slave the master sees a request on the cascade line. -/
theorem pendingLevel_of_slave_some {s : Fin 8} (h : (p.unit 1).unitPending 0 = some s) :
    p.pendingLevel = ((p.unit 0).unitPending (PicUnit.bit cascadeIr)).map fun m =>
      if m = cascadeIr then (1, s) else (0, m) := by
  unfold pendingLevel cascadeBit
  rw [h, Option.isSome_some, if_pos rfl]
  cases (p.unit 0).unitPending (PicUnit.bit cascadeIr) with
  | none => rfl
  | some m =>
    change (if m = cascadeIr then some (1, s) else some (0, m)) = some _
    exact (apply_ite some _ _ _).symm

/-- In one unit the lower line ranks first. -/
theorem rank_mono (k : Fin 2) (l m : Fin 8) (h : m ≤ l) : rank (k, m) ≤ rank (k, l) := by
  revert k l m
  decide

/-- A slave line ranks before the master's lines after the cascade. -/
theorem rank_slave_le (s l : Fin 8) (h : cascadeIr ≤ l) : rank (1, s) ≤ rank (0, l) := by
  revert s l
  decide

/-- The master's lines before the cascade rank before the slave's. -/
theorem rank_le_slave (m s : Fin 8) (h : m ≤ cascadeIr) (hne : m ≠ cascadeIr) :
    rank (0, m) ≤ rank (1, s) := by
  revert m s
  decide

/-- **The pair presents its best candidate.** -/
theorem pendingLevel_some (h : p.pendingLevel = some c) :
    p.Candidate c ∧ ∀ c', p.Candidate c' → rank c ≤ rank c' := by
  cases hslave : (p.unit 1).unitPending 0 with
  | none =>
    -- nothing on the slave: the master's own best level wins, and no slave level is a candidate
    rw [pendingLevel_of_slave_none hslave, Option.map_eq_some_iff] at h
    obtain ⟨m, hmaster, rfl⟩ := h
    obtain ⟨hm, hmin⟩ := PicUnit.unitPending_eq_some_iff.mp hmaster
    refine ⟨⟨hm, fun h => absurd h Fin.zero_ne_one⟩, ?_⟩
    rintro ⟨k, l⟩ ⟨hl, -⟩
    obtain rfl | rfl : k = 0 ∨ k = 1 := by omega
    · exact rank_mono 0 l m (hmin l hl)
    · exact absurd hl (PicUnit.unitPending_eq_none hslave l)
  | some s =>
    rw [pendingLevel_of_slave_some hslave, Option.map_eq_some_iff] at h
    obtain ⟨m, hmaster, rfl⟩ := h
    obtain ⟨hs, hsmin⟩ := PicUnit.unitPending_eq_some_iff.mp hslave
    obtain ⟨hm, hmin⟩ := PicUnit.unitPending_eq_some_iff.mp hmaster
    -- every master candidate competes under the cascade request too
    have hmaster_le : ∀ l, (p.unit 0).Serviceable 0 l → m ≤ l := fun l hl =>
      hmin l (serviceable_cascade_iff.mpr (Or.inl hl))
    by_cases hcas : m = cascadeIr
    · subst hcas
      rw [if_pos rfl]
      refine ⟨⟨hs, fun _ => hm⟩, ?_⟩
      rintro ⟨k, l⟩ ⟨hl, -⟩
      obtain rfl | rfl : k = 0 ∨ k = 1 := by omega
      · exact rank_slave_le s l (hmaster_le l hl)
      · exact rank_mono 1 l s (hsmin l hl)
    · rw [if_neg hcas]
      -- the master presents something before IR2, and the cascade requests IR2 only
      have hown : (p.unit 0).Serviceable 0 m :=
        (serviceable_cascade_iff.mp hm).resolve_right fun h => hcas h.1
      refine ⟨⟨hown, fun h => absurd h Fin.zero_ne_one⟩, ?_⟩
      rintro ⟨k, l⟩ ⟨hl, hcascade⟩
      obtain rfl | rfl : k = 0 ∨ k = 1 := by omega
      · exact rank_mono 0 l m (hmaster_le l hl)
      · exact rank_le_slave m l (hmin _ (hcascade rfl)) hcas

/-- The pair presents nothing only if there is no candidate. -/
theorem pendingLevel_none (h : p.pendingLevel = none) (c : Fin 2 × Fin 8) : ¬ p.Candidate c := by
  obtain ⟨k, l⟩ := c
  rintro ⟨hl, hcascade⟩
  cases hslave : (p.unit 1).unitPending 0 with
  | none =>
    rw [pendingLevel_of_slave_none hslave, Option.map_eq_none_iff] at h
    obtain rfl | rfl : k = 0 ∨ k = 1 := by omega
    · exact PicUnit.unitPending_eq_none h l hl
    · exact PicUnit.unitPending_eq_none hslave l hl
  | some s =>
    rw [pendingLevel_of_slave_some hslave, Option.map_eq_none_iff] at h
    obtain rfl | rfl : k = 0 ∨ k = 1 := by omega
    · exact PicUnit.unitPending_eq_none h l (serviceable_cascade_iff.mpr (Or.inl hl))
    · exact PicUnit.unitPending_eq_none h cascadeIr (hcascade rfl)

/-! ## The INTA cycle -/

/-- The levels an INTA cycle of level `w` moves: the level, and IR2 on the master for a slave
level. -/
def Moves (w c : Fin 2 × Fin 8) : Prop := c = w ∨ (w.1 = slaveUnit ∧ c = (masterUnit, cascadeIr))

instance (w c : Fin 2 × Fin 8) : Decidable (Moves w c) := inferInstanceAs (Decidable (_ ∨ _))

/-- An INTA cycle of level `w`: its levels go from requested to in service, and nothing else
changes. -/
structure Moved (p : Pic8259Pair) (w : Fin 2 × Fin 8) (p' : Pic8259Pair) : Prop where
  /-- The moved levels are no longer requested; the others are as before. -/
  requested : ∀ c, p'.Requested c ↔ p.Requested c ∧ ¬ Moves w c
  /-- The moved levels are in service; the others are as before. -/
  inService : ∀ c, p'.InService c ↔ p.InService c ∨ Moves w c
  /-- No other register of a unit changes. -/
  unit : ∀ k, p'.unit k = { p.unit k with irr := (p'.unit k).irr, isr := (p'.unit k).isr }
  /-- The edge/level registers stay. -/
  elcr : p'.elcr = p.elcr
  /-- The edge detector stays. -/
  lastInput : p'.lastInput = p.lastInput

/-- One unit's transfer, seen from every level of the pair. -/
theorem requested_transfer (k : Fin 2) (l : Fin 8) (c : Fin 2 × Fin 8) :
    (p.modifyUnit k fun u => u.transferIrrToIsr l).Requested c ↔ p.Requested c ∧ c ≠ (k, l) := by
  obtain ⟨k', j⟩ := c
  unfold Requested
  by_cases hk : k' = k
  · subst hk
    rw [modifyUnit_same, PicUnit.transferIrrToIsr_irr]
    simp
  · rw [modifyUnit_of_ne _ hk]
    simp [hk]

/-- A transfer adds one line to those in service. -/
theorem inService_transfer (k : Fin 2) (l : Fin 8) (c : Fin 2 × Fin 8) :
    (p.modifyUnit k fun u => u.transferIrrToIsr l).InService c ↔ p.InService c ∨ c = (k, l) := by
  obtain ⟨k', j⟩ := c
  unfold InService
  by_cases hk : k' = k
  · subst hk
    rw [modifyUnit_same, PicUnit.transferIrrToIsr_isr]
    simp
  · rw [modifyUnit_of_ne _ hk]
    simp [hk]

/-- A transfer changes requests and lines in service only. -/
theorem unit_transfer (k k' : Fin 2) (l : Fin 8) :
    ∃ irr isr, (p.modifyUnit k fun u => u.transferIrrToIsr l).unit k'
      = { p.unit k' with irr := irr, isr := isr } := by
  by_cases hk : k' = k
  · subst hk
    rw [modifyUnit_same]
    exact ⟨_, _, rfl⟩
  · rw [modifyUnit_of_ne _ hk]
    exact ⟨_, _, rfl⟩

/-- **What `acknowledge` does**: it moves the presented level and returns its vector, or does
nothing. -/
theorem acknowledge_moved (h : p.pendingLevel = some w) :
    p.Moved w p.acknowledge.1 ∧
      p.acknowledge.2 = some ((p.unit w.1).icw2 ||| BitVec.ofNat 8 w.2) := by
  obtain ⟨k, l⟩ := w
  unfold acknowledge
  rw [h]
  obtain rfl | rfl : k = 0 ∨ k = 1 := by omega
  · refine ⟨⟨fun c => ?_, fun c => ?_, fun k => ?_, rfl, rfl⟩, rfl⟩
    · rw [requested_transfer]
      simp [Moves]
    · rw [inService_transfer]
      simp [Moves]
    · obtain ⟨irr, isr, hu⟩ := unit_transfer (p := p) 0 k l
      rw [hu]
  · refine ⟨⟨fun c => ?_, fun c => ?_, fun k => ?_, rfl, rfl⟩, rfl⟩
    -- a slave level moves on the slave and IR2 on the master
    · rw [requested_transfer, requested_transfer]
      simp only [Moves, not_or]
      tauto
    · rw [inService_transfer, inService_transfer]
      simp only [Moves]
      tauto
    · obtain ⟨irr, isr, hu⟩ :=
        unit_transfer (p := p.modifyUnit 0 fun u => u.transferIrrToIsr cascadeIr) 1 k l
      obtain ⟨irr', isr', hu'⟩ := unit_transfer (p := p) 0 k cascadeIr
      rw [hu, hu']

/-- With nothing pending an acknowledge changes nothing. -/
theorem acknowledge_none (h : p.pendingLevel = none) : p.acknowledge = (p, none) := by
  unfold acknowledge
  rw [h]

/-! ## Deliveries, ends of service and restarts -/

/-- The event delivers the level: an INTA cycle moves it, or a poll of its unit takes it. -/
def Delivers (p : Pic8259Pair) : Event → Fin 2 × Fin 8 → Prop
  | .acknowledge, c => ∃ w, p.pendingLevel = some w ∧ Moves w c
  | .ioRead port, c => Port.decode port = .base c.1 ∧ (p.unit c.1).pollArmed = true ∧
      (p.unit c.1).unitPending 0 = some c.2
  | _, _ => False

/-- The event is an ICW1 for the unit. -/
def Restarts (k : Fin 2) : Event → Prop
  | .ioWrite port v => Port.decode port = .base k ∧ (v.setWidth 8 : BitVec 8).getLsbD 4 = true
  | _ => False

/-- A byte at the base port that does not restart the unit is no ICW1. -/
theorem getLsbD_of_not_restarts {port : BitVec 16} {v : Word} (hport : Port.decode port = .base k)
    (h : ¬ Restarts k (.ioWrite port v)) : (v.setWidth 8 : BitVec 8).getLsbD 4 = false := by
  rw [← Bool.not_eq_true]
  exact fun h4 => h ⟨hport, h4⟩

/-- The event is an EOI for the level. -/
def EndsService (p : Pic8259Pair) (c : Fin 2 × Fin 8) : Event → Prop
  | .ioWrite port v => Port.decode port = .base c.1 ∧ (p.unit c.1).EndsService (v.setWidth 8) c.2
  | _ => False

/-- **What one event can do to a unit**: nothing, latch an edge, take a byte at one of its ports,
answer a base read, or its part of an INTA cycle. -/
inductive UnitStep (p : Pic8259Pair) (k : Fin 2) : Event → PicUnit → Prop
  /-- The event leaves the unit as it is. -/
  | same {e : Event} : UnitStep p k e (p.unit k)
  /-- A device drives a line of the unit. -/
  | edge {line : Fin 16} {level : Bool} : UnitStep p k (.irq line level)
      { p.unit k with irr := (p.unit k).irr ||| PicUnit.bit (levelOf line) }
  /-- A write to the unit's command port. -/
  | writeBase {port : BitVec 16} {v : Word} : Port.decode port = .base k →
      UnitStep p k (.ioWrite port v) ((p.unit k).writeBase (v.setWidth 8))
  /-- A write to the unit's data port. -/
  | writeData {port : BitVec 16} {v : Word} :
      UnitStep p k (.ioWrite port v) ((p.unit k).writeData (v.setWidth 8))
  /-- A read of the unit's command port, which may be a poll. -/
  | readBase {port : BitVec 16} : Port.decode port = .base k →
      UnitStep p k (.ioRead port) (p.unit k).readBase.1
  /-- An acknowledge moves the winning request into service. -/
  | moved {w : Fin 2 × Fin 8} : p.pendingLevel = some w →
      UnitStep p k .acknowledge (p.acknowledge.1.unit k)

/-- An event that works on one unit leaves the other as it was. -/
theorem unitStep_modifyUnit {q : Pic8259Pair} {k' : Fin 2} {f : PicUnit → PicUnit}
    (hq : q.unit k = p.unit k) (h : k = k' → UnitStep p k e (f (q.unit k))) :
    UnitStep p k e ((q.modifyUnit k' f).unit k) := by
  by_cases hk : k = k'
  · subst hk
    rw [modifyUnit_same]
    exact h rfl
  · rw [modifyUnit_of_ne _ hk, hq]
    exact .same

/-- Every event does to each unit one of these. -/
theorem unitStep_step (p : Pic8259Pair) (k : Fin 2) (e : Event) :
    UnitStep p k e ((p.step e).unit k) := by
  cases e with
  | irq line level =>
    simp only [step, setIrqInput]
    split
    · exact unitStep_modifyUnit rfl fun _ => .edge
    · exact .same
  | ioWrite port v =>
    simp only [step, ioWrite]
    cases hport : Port.decode port with
    | base k' =>
      refine unitStep_modifyUnit rfl fun hk => ?_
      subst hk
      exact .writeBase hport
    | data k' => exact unitStep_modifyUnit rfl fun _ => .writeData
    | elcr k' => exact .same
    | other => exact .same
  | ioRead port =>
    simp only [step, ioRead]
    cases hport : Port.decode port with
    | base k' =>
      show UnitStep p k _ ((p.modifyUnit k' fun u => u.readBase.1).unit k)
      refine unitStep_modifyUnit rfl fun hk => ?_
      subst hk
      exact .readBase hport
    | data k' => exact .same
    | elcr k' => exact .same
    | other => exact .same
  | acknowledge =>
    cases hpend : p.pendingLevel with
    | none =>
      rw [step, acknowledge_none hpend]
      exact .same
    | some w => exact .moved hpend

/-- **One event keeps a request**, unless it delivers the level or restarts the unit. -/
theorem requested_step (h : p.Requested c) (hdel : ¬ p.Delivers e c) (hres : ¬ Restarts c.1 e) :
    (p.step e).Requested c := by
  have hunit := unitStep_step p c.1 e
  unfold Requested
  generalize (p.step e).unit c.1 = u at hunit
  cases hunit with
  | same => exact h
  | edge =>
    rw [BitVec.getLsbD_or]
    exact Bool.or_eq_true_iff.mpr (Or.inl h)
  | writeBase hport =>
    -- a command byte clears no request, ICW1 apart
    rw [PicUnit.writeBase_irr (getLsbD_of_not_restarts hport hres)]
    exact h
  | writeData =>
    rw [PicUnit.writeData_irr]
    exact h
  | readBase hport =>
    -- an armed poll that takes this level is a delivery
    exact PicUnit.readBase_irr h fun hpoll => hdel ⟨hport, hpoll⟩
  | @moved w hpend =>
    -- an INTA cycle that moves this level is a delivery
    refine ((acknowledge_moved hpend).1.requested c).mpr ⟨h, ?_⟩
    exact fun hm => hdel ⟨w, hpend, hm⟩

/-- **One event keeps a level in service**, unless it is its EOI or restarts the unit. -/
theorem inService_step (h : p.InService c) (hend : ¬ p.EndsService c e) (hres : ¬ Restarts c.1 e) :
    (p.step e).InService c := by
  have hunit := unitStep_step p c.1 e
  unfold InService
  generalize (p.step e).unit c.1 = u at hunit
  cases hunit with
  | same => exact h
  | edge => exact h
  | writeBase hport =>
    exact PicUnit.writeBase_isr (getLsbD_of_not_restarts hport hres) (fun h => hend ⟨hport, h⟩) h
  | writeData =>
    rw [PicUnit.writeData_isr]
    exact h
  | readBase _ => exact PicUnit.readBase_isr h
  | moved hpend => exact ((acknowledge_moved hpend).1.inService c).mpr (Or.inl h)

/-- **A level in service suppresses** every delivery of equal or lower priority on its unit. -/
theorem lt_of_delivers (h : p.InService (k, l)) (hdel : p.Delivers e (k, m)) : m < l := by
  -- whatever is delivered on the unit was serviceable there
  have hser : ∃ extra, (p.unit k).Serviceable extra m := by
    cases e with
    | irq line level => exact hdel.elim
    | ioWrite port v => exact hdel.elim
    | ioRead port => exact ⟨0, (PicUnit.unitPending_eq_some_iff.mp hdel.2.2).1⟩
    | acknowledge =>
      obtain ⟨w, hw, hm⟩ := hdel
      obtain ⟨hcand, -⟩ := pendingLevel_some hw
      rcases hm with rfl | ⟨hw1, hkm⟩
      · exact ⟨0, hcand.1⟩
      · obtain ⟨rfl, rfl⟩ := Prod.mk.inj hkm
        exact ⟨_, hcand.2 hw1⟩
  obtain ⟨extra, hser⟩ := hser
  -- serviceable levels have nothing of equal or higher priority in service
  by_contra hle
  exact absurd ((hser.free l (not_lt.mp hle)).symm.trans h) Bool.false_ne_true

/-! ## Runs -/

/-- A rising edge latches its level. -/
theorem requested_of_edge {line : Fin 16} (h : p.lastInput line = false) :
    (p.setIrqInput line true).Requested (unitOf line, levelOf line) := by
  simp only [setIrqInput, h, Bool.not_false, Bool.and_self, if_true, Requested, modifyUnit_same]
  rw [BitVec.getLsbD_or, PicUnit.getLsbD_bit]
  simp

/-- A request outlives every run that neither delivers its level nor restarts its unit. -/
theorem requested_run {es : List Event} (h : p.Requested c)
    (hrun : RunMeets step (fun q e => ¬ q.Delivers e c ∧ ¬ Restarts c.1 e) p es) :
    (p.run es).Requested c :=
  hrun.invariant (fun q => q.Requested c) (fun _ _ h hok => requested_step h hok.1 hok.2) h

/-- A level stays in service over every run without its EOI and without a restart of its unit. -/
theorem inService_run {es : List Event} (h : p.InService c)
    (hrun : RunMeets step (fun q e => ¬ q.EndsService c e ∧ ¬ Restarts c.1 e) p es) :
    (p.run es).InService c :=
  hrun.invariant (fun q => q.InService c) (fun _ _ h hok => inService_step h hok.1 hok.2) h

/-- **The 8259 pair.** From every state and over every sequence of line changes, port accesses and
INTA cycles: a latched edge stays requested until its level is delivered or its unit restarted;
`acknowledge` delivers the best candidate, moves exactly that level and IR2 for a slave level, and
returns its vector, or does nothing if there is no candidate; and while a level is in service only
levels of higher priority are delivered on its unit. -/
theorem pic_delivery (p : Pic8259Pair) :
    (∀ line es, p.lastInput line = false →
      RunMeets step (fun q e => ¬ q.Delivers e (unitOf line, levelOf line) ∧
        ¬ Restarts (unitOf line) e) (p.setIrqInput line true) es →
      ((p.setIrqInput line true).run es).Requested (unitOf line, levelOf line)) ∧
    (((∀ c, ¬ p.Candidate c) ∧ p.acknowledge = (p, none)) ∨
      ∃ w, p.Candidate w ∧ (∀ c, p.Candidate c → rank w ≤ rank c) ∧
        p.Moved w p.acknowledge.1 ∧
        p.acknowledge.2 = some ((p.unit w.1).icw2 ||| BitVec.ofNat 8 w.2)) ∧
    (∀ k l es, p.InService (k, l) →
      RunMeets step (fun q e => ¬ q.EndsService (k, l) e ∧ ¬ Restarts k e) p es →
      ∀ e m, (p.run es).Delivers e (k, m) → m < l) := by
  refine ⟨?_, ?_, ?_⟩
  · intro line es hline hrun
    exact requested_run (requested_of_edge hline) hrun
  · cases hpend : p.pendingLevel with
    | none => exact Or.inl ⟨pendingLevel_none hpend, acknowledge_none hpend⟩
    | some w =>
      obtain ⟨hcand, hbest⟩ := pendingLevel_some hpend
      obtain ⟨hmoved, hvec⟩ := acknowledge_moved hpend
      exact Or.inr ⟨w, hcand, hbest, hmoved, hvec⟩
  · intro k l es h hrun e m hdel
    exact lt_of_delivers (inService_run h hrun) hdel

/-- With IRQ4 in service, IRQ5 is requested and unmasked and yet `acknowledge` returns nothing: the
level in service suppresses it. -/
theorem acknowledge_skips_suppressed :
    let p := run {} (initWrites.map (fun w => .ioWrite w.1 w.2) ++
      [.irq 4 true, .acknowledge, .irq 5 true])
    ((p.unit 0).initState = .ready ∧ (p.unit 1).initState = .ready) ∧
      ((p.unit 0).irr = PicUnit.bit 5 ∧ (p.unit 0).imr.getLsbD 5 = false) ∧
      p.acknowledge.2 = none := by
  decide

end Pic8259Pair

end EmulatR
