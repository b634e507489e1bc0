import EmulatR.Chipset.PicDelivery

/-! # Polling the 8259 pair

An OCW3 poll reads the level a unit presents and acknowledges it, as a software INTA on the unit
(chipsetLib/Pic8259Pair.h). The poll asks the unit alone; `acknowledge` adds the slave's request to
the master's IR2. So the master's poll does not see the cascade, and the two disagree exactly where
the cascade decides the master's level.

`poll_agrees_iff` is the condition; `poll_misses_cascade` is the poll that disagrees. -/

namespace EmulatR

open Library

namespace PicUnit

variable {u : PicUnit} {extra extra' : BitVec 8}

/-- Units that can present the same levels present the same level. -/
theorem unitPending_congr {m : Fin 8} (h : u.unitPending extra = some m)
    (hser : u.Serviceable extra' m) (hmin : ∀ j, u.Serviceable extra' j → m ≤ j) :
    u.unitPending extra = u.unitPending extra' := by
  rw [h]
  exact (unitPending_eq_some_iff.mpr ⟨hser, hmin⟩).symm

/-- A unit presents nothing iff nothing is serviceable. -/
theorem unitPending_eq_none_iff : u.unitPending extra = none ↔ ∀ l, ¬ u.Serviceable extra l := by
  refine ⟨unitPending_eq_none, fun h => ?_⟩
  cases hpend : u.unitPending extra with
  | none => rfl
  | some m => exact absurd (unitPending_eq_some_iff.mp hpend).1 (h m)

end PicUnit

namespace Pic8259Pair

variable {p : Pic8259Pair} {k : Fin 2}

/-! ## The level of an INTA cycle -/

/-- The level an INTA cycle takes on a unit: the master's part of what `acknowledge` delivers, IR2
for a slave level, and the slave's own level. -/
def intaLevel (p : Pic8259Pair) (k : Fin 2) : Option (Fin 8) :=
  if k = masterUnit then
    p.pendingLevel.map fun c => if c.1 = masterUnit then c.2 else cascadeIr
  else (p.unit slaveUnit).unitPending 0

/-- The output of a unit: the bridge output for the master, the cascade line for the slave. -/
def unitOutput (p : Pic8259Pair) (k : Fin 2) : Bool :=
  if k = masterUnit then p.outputAsserted else ((p.unit slaveUnit).unitPending 0).isSome

/-- There are two units. -/
theorem eq_master_or_slave : ∀ k : Fin 2, k = masterUnit ∨ k = slaveUnit := by decide

/-- **`acknowledge` takes the INTA level on the master.** -/
theorem unit_acknowledge_master :
    p.acknowledge.1.unit masterUnit =
      (p.intaLevel masterUnit).elim (p.unit masterUnit) (p.unit masterUnit).transferIrrToIsr := by
  rw [intaLevel, if_pos rfl]
  cases hpend : p.pendingLevel with
  | none => rw [acknowledge, hpend]; rfl
  | some c =>
    obtain ⟨k, lvl⟩ := c
    rw [acknowledge, hpend]
    rcases eq_master_or_slave k with rfl | rfl
    · change (p.modifyUnit 0 fun u => u.transferIrrToIsr lvl).unit 0 = _
      exact modifyUnit_same _
    -- for a slave level IR2 moves first, and then the level on the slave
    · change ((p.modifyUnit 0 fun u => u.transferIrrToIsr cascadeIr).modifyUnit 1
        fun u => u.transferIrrToIsr lvl).unit 0 = _
      refine (modifyUnit_of_ne _ ?_).trans (modifyUnit_same _)
      decide

/-- The master presents its best level with the slave's request on IR2. -/
theorem intaLevel_master : p.intaLevel masterUnit = (p.unit masterUnit).unitPending p.cascadeBit := by
  rw [intaLevel, if_pos rfl]
  cases hslave : (p.unit 1).unitPending 0 with
  | none =>
    rw [pendingLevel_of_slave_none hslave, cascadeBit, hslave, Option.map_map]
    exact Option.map_id'
  | some s =>
    rw [pendingLevel_of_slave_some hslave, cascadeBit, hslave, Option.map_map, Option.isSome_some,
      if_pos rfl]
    -- a slave level stands for IR2, the level it came in on
    have hid : ((fun c : Fin 2 × Fin 8 => if c.1 = masterUnit then c.2 else cascadeIr) ∘
        fun m => if m = cascadeIr then (1, s) else (0, m)) = id := by
      funext m
      by_cases hm : m = cascadeIr
      · simp [hm]
      · simp [hm]
    rw [hid, Option.map_id, id]

/-- A unit's output is asserted iff an INTA cycle would take a level there. -/
theorem unitOutput_eq : p.unitOutput k = (p.intaLevel k).isSome := by
  rw [unitOutput, intaLevel]
  split
  · rw [outputAsserted, Option.isSome_map]
  · rfl

/-! ## The poll -/

/-- The base port of a unit. -/
def basePort (k : Fin 2) : BitVec 16 := if k = masterUnit then 0x20 else 0xA0

/-- The level that a read of the base port reports as a poll: bit 7 says whether there is one. -/
def pollLevel (p : Pic8259Pair) (k : Fin 2) : Option (Fin 8) :=
  if (p.ioRead (basePort k)).2.getLsbD 7 then
    some (PicUnit.ocwLevel (p.ioRead (basePort k)).2)
  else none

/-- The poll byte of a level. -/
theorem pollByte (l : Fin 8) : (0x80 ||| BitVec.ofNat 8 l.val).getLsbD 7 = true ∧
    PicUnit.ocwLevel (0x80 ||| BitVec.ofNat 8 l.val) = l := by
  revert l
  decide

/-- An armed poll reports what the unit presents by itself. -/
theorem pollLevel_eq (h : (p.unit k).pollArmed = true) :
    p.pollLevel k = (p.unit k).unitPending 0 := by
  have hport : (p.ioRead (basePort k)).2 = (p.unit k).readBase.2 := by
    rcases eq_master_or_slave k with rfl | rfl
    · rfl
    · rfl
  have hread : (p.unit k).readBase.2 = ((p.unit k).unitPending 0).elim 0 fun lvl : Fin 8 =>
      0x80 ||| BitVec.ofNat 8 lvl.val := by
    have hsame : ({ p.unit k with pollArmed := false } : PicUnit).unitPending 0 =
        (p.unit k).unitPending 0 := rfl
    rw [PicUnit.readBase, if_pos h]
    simp only [hsame]
    cases (p.unit k).unitPending 0 <;> rfl
  rw [pollLevel, hport, hread]
  cases (p.unit k).unitPending 0 with
  | none => rfl
  | some l => rw [Option.elim_some, if_pos (pollByte l).1, (pollByte l).2]

/-! ## The condition -/

/-- The slave has a level to present that alone decides the master's: IR2 could be presented, and
neither IR2 itself nor a level before it is requested on the master. -/
def CascadeDecides (p : Pic8259Pair) : Prop :=
  (∃ s, (p.unit slaveUnit).Serviceable 0 s) ∧
    (p.unit masterUnit).Serviceable (PicUnit.bit cascadeIr) cascadeIr ∧
    ∀ l ≤ cascadeIr, ¬ (p.unit masterUnit).Serviceable 0 l

/-- The cascade request changes what a unit presents iff it wins there. -/
theorem unitPending_cascade_iff {u : PicUnit} :
    u.unitPending 0 = u.unitPending (PicUnit.bit cascadeIr) ↔
      ¬ (u.Serviceable (PicUnit.bit cascadeIr) cascadeIr ∧
        ∀ l ≤ cascadeIr, ¬ u.Serviceable 0 l) := by
  constructor
  · rintro heq ⟨hcas, hnone⟩
    -- with the cascade IR2 is presented, which is not serviceable without it
    have hpend : u.unitPending (PicUnit.bit cascadeIr) = some cascadeIr := by
      refine PicUnit.unitPending_eq_some_iff.mpr ⟨hcas, fun j hj => ?_⟩
      rcases serviceable_cascade_iff.mp hj with hj | ⟨rfl, -⟩
      · by_contra hlt
        exact hnone j (not_le.mp hlt).le hj
      · exact le_rfl
    rw [← heq] at hpend
    exact hnone cascadeIr le_rfl (PicUnit.unitPending_eq_some_iff.mp hpend).1
  · intro h
    have hser : ∀ l, u.Serviceable 0 l → u.Serviceable (PicUnit.bit cascadeIr) l :=
      fun l hl => serviceable_cascade_iff.mpr (Or.inl hl)
    cases hpend : u.unitPending 0 with
    | none =>
      have hno := PicUnit.unitPending_eq_none_iff.mp hpend
      refine (PicUnit.unitPending_eq_none_iff.mpr fun l hl => ?_).symm
      rcases serviceable_cascade_iff.mp hl with hl | ⟨-, hl⟩
      · exact hno l hl
      · exact h ⟨hl, fun l _ => hno l⟩
    | some m =>
      obtain ⟨hm, hmin⟩ := PicUnit.unitPending_eq_some_iff.mp hpend
      rw [← hpend]
      refine PicUnit.unitPending_congr hpend (hser m hm) fun j hj => ?_
      rcases serviceable_cascade_iff.mp hj with hj | ⟨rfl, hcas⟩
      · exact hmin j hj
      -- the cascade request comes after the unit's own level
      · by_contra hlt
        refine h ⟨hcas, fun l hl hl0 => ?_⟩
        exact absurd (hmin l hl0) (not_le.mpr (lt_of_le_of_lt hl (not_le.mp hlt)))

/-- **When a poll is an INTA.** In every state in which a unit's poll is armed, the poll reports the
level that an INTA cycle would take on the unit, and none exactly if the unit's output is
deasserted, iff it is not the master with a level that the cascade alone decides. -/
theorem poll_agrees_iff (p : Pic8259Pair) (k : Fin 2) (h : (p.unit k).pollArmed = true) :
    (p.pollLevel k = p.intaLevel k ∧ (p.pollLevel k = none ↔ p.unitOutput k = false)) ↔
      ¬ (k = masterUnit ∧ p.CascadeDecides) := by
  have hlevel : (p.pollLevel k = p.intaLevel k ∧
      (p.pollLevel k = none ↔ p.unitOutput k = false)) ↔ p.pollLevel k = p.intaLevel k := by
    refine ⟨And.left, fun heq => ⟨heq, ?_⟩⟩
    rw [heq, unitOutput_eq, Option.isSome_eq_false_iff, Option.isNone_iff_eq_none]
  rw [hlevel, pollLevel_eq h]
  by_cases hk : k = masterUnit
  · subst hk
    rw [intaLevel_master, cascadeBit]
    cases hslave : (p.unit 1).unitPending 0 with
    | none =>
      refine iff_of_true rfl ?_
      rintro ⟨-, ⟨s, hs⟩, -⟩
      exact PicUnit.unitPending_eq_none hslave s hs
    | some s =>
      have hs := (PicUnit.unitPending_eq_some_iff.mp hslave).1
      rw [Option.isSome_some, if_pos rfl, unitPending_cascade_iff, CascadeDecides]
      exact not_congr ⟨fun hc => ⟨rfl, ⟨s, hs⟩, hc⟩, fun hc => hc.2.2⟩
  · obtain rfl := (eq_master_or_slave k).resolve_left hk
    exact iff_of_true rfl fun hc => hk hc.1

/-- The firmware's initialisation with IRQ8 unmasked, an edge on a line, and an OCW3 that arms the
poll of the master. -/
def pollEvents (line : Fin 16) : List Event :=
  initWrites.map (fun w => .ioWrite w.1 w.2) ++
    [.ioWrite 0xA1 0xFE, .irq line true, .ioWrite 0x20 0x0C]

/-- A poll with a request on IRQ4. -/
theorem poll_agrees_iff_irq4 :
    (run {} (pollEvents 4)).pollLevel masterUnit = (run {} (pollEvents 4)).intaLevel masterUnit := by
  refine ((poll_agrees_iff (run {} (pollEvents 4)) masterUnit (by decide)).mpr ?_).1
  rintro ⟨-, ⟨s, hs⟩, -⟩
  -- the slave has nothing to present
  have hslave : ((run {} (pollEvents 4)).unit slaveUnit).unitPending 0 = none := by decide
  exact PicUnit.unitPending_eq_none hslave s hs

/-- **The master's poll misses the slave.** With a request on IRQ8 alone the bridge output is
asserted and `acknowledge` returns the slave's vector, but the poll reports no interrupt. -/
theorem poll_misses_cascade :
    ¬ ∀ (es : List Event) (k : Fin 2), ((run {} es).unit k).pollArmed = true →
      ((run {} es).pollLevel k = (run {} es).intaLevel k ∧
        ((run {} es).pollLevel k = none ↔ (run {} es).unitOutput k = false)) := by
  intro h
  have hpoll := h (pollEvents 8) masterUnit (by decide)
  exact absurd hpoll.1 (by decide)

end Pic8259Pair

end EmulatR
