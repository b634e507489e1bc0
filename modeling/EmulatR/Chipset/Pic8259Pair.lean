import Mathlib.Data.List.FinRange
import EmulatR.Library.Run
import EmulatR.Pte.AlphaPte

/-! # The 8259 interrupt controller pair

The master and slave 8259A of the ISA bridge (chipsetLib/Pic8259Pair.h). A rising edge on an input
latches its IRR bit whatever the mask says; the output is a function of the live registers: the
highest-priority bit of `IRR & ~IMR` that no in-service bit of equal or higher priority suppresses,
with the slave's result presented on the master's IR2. `acknowledge` is the INTA cycle: it moves the
winning level from IRR to ISR and returns its vector. -/

namespace EmulatR

open Library

/-- Where a unit stands in its ICW1 to ICW4 sequence. -/
inductive InitState
  | idle | expectIcw2 | expectIcw3 | expectIcw4 | ready
  deriving DecidableEq, Repr

/-- One 8259A. -/
structure PicUnit where
  /-- Edge-latched requests. -/
  irr : BitVec 8 := 0
  /-- Levels in service: set at INTA, cleared by EOI. -/
  isr : BitVec 8 := 0
  /-- The OCW1 mask. -/
  imr : BitVec 8 := 0xFF
  /-- The vector base. -/
  icw2 : BitVec 8 := 0
  /-- The cascade word. -/
  icw3 : BitVec 8 := 0
  /-- The mode word. -/
  icw4 : BitVec 8 := 0
  /-- The initialisation sequence. -/
  initState : InitState := .idle
  /-- OCW3: a base read returns ISR. -/
  readIsrSelected : Bool := false
  /-- OCW3: the next base read is a poll. -/
  pollArmed : Bool := false
  /-- ICW1 bit 3; stored, not honoured. -/
  ltim : Bool := false
  deriving DecidableEq, Repr

namespace PicUnit

variable (u : PicUnit)

/-- The bit of a level. -/
def bit (lvl : Fin 8) : BitVec 8 := 1 <<< lvl.val

/-- The scan of `unitPending`: an in-service level ends it, a request wins. -/
def scan (isr req : BitVec 8) : List (Fin 8) → Option (Fin 8)
  | [] => none
  | lvl :: rest =>
    if isr.getLsbD lvl then none
    else if req.getLsbD lvl then some lvl
    else scan isr req rest

/-- The highest-priority serviceable level of a unit. -/
def unitPending (extraIrr : BitVec 8) : Option (Fin 8) :=
  if u.initState = .ready then
    let req := (u.irr ||| extraIrr) &&& ~~~u.imr
    if req = 0 then none else scan u.isr req (List.finRange 8)
  else none

/-- Move a level from requested to in service. -/
def transferIrrToIsr (lvl : Fin 8) : PicUnit :=
  { u with irr := u.irr &&& ~~~bit lvl, isr := u.isr ||| bit lvl }

/-- Read the base port: a poll if one is armed, else ISR or IRR. -/
def readBase : PicUnit × BitVec 8 :=
  if u.pollArmed then
    let u := { u with pollArmed := false }
    match u.unitPending 0 with
    | none => (u, 0)
    | some lvl => (u.transferIrrToIsr lvl, 0x80 ||| BitVec.ofNat 8 lvl)
  else (u, if u.readIsrSelected then u.isr else u.irr)

/-- The non-specific EOI: clear the highest-priority in-service bit. -/
def endHighest : PicUnit :=
  match (List.finRange 8).find? (fun lvl : Fin 8 => u.isr.getLsbD lvl) with
  | some lvl => { u with isr := u.isr &&& ~~~bit lvl }
  | none => u

/-- The level field of an OCW2. -/
def ocwLevel (v : BitVec 8) : Fin 8 := (v.extractLsb' 0 3).toFin

/-- Write the base port: ICW1, OCW3 or OCW2. -/
def writeBase (v : BitVec 8) : PicUnit :=
  if v.getLsbD 4 then
    -- ICW1 restarts the unit; without IC4 the mode word is cleared
    { u with
      initState := .expectIcw2, ltim := v.getLsbD 3, imr := 0, irr := 0, isr := 0,
      readIsrSelected := false, pollArmed := false, icw4 := if v.getLsbD 0 then u.icw4 else 0 }
  else if v.getLsbD 3 then
    { u with
      readIsrSelected :=
        if v.extractLsb' 0 2 = 2 then false
        else if v.extractLsb' 0 2 = 3 then true
        else u.readIsrSelected
      pollArmed := v.getLsbD 2 || u.pollArmed }
  else if v.extractLsb' 5 3 = 1 then u.endHighest
  else if v.extractLsb' 5 3 = 3 then { u with isr := u.isr &&& ~~~bit (ocwLevel v) }
  -- the rotate and set-priority operations are not modelled by the source either
  else u

/-- Write the data port: the next ICW, or the OCW1 mask. -/
def writeData (v : BitVec 8) : PicUnit :=
  match u.initState with
  | .expectIcw2 => { u with icw2 := v &&& 0xF8, initState := .expectIcw3 }
  | .expectIcw3 => { u with icw3 := v, initState := .expectIcw4 }
  | .expectIcw4 => { u with icw4 := v, initState := .ready }
  | .ready => { u with imr := v }
  | .idle => { u with imr := v }

end PicUnit

/-- The pair: unit 0 is the master, unit 1 the slave on the master's IR2. -/
structure Pic8259Pair where
  /-- The two units. -/
  unit : Fin 2 → PicUnit := fun _ => {}
  /-- The edge/level registers; stored, not honoured. -/
  elcr : Fin 2 → BitVec 8 := fun _ => 0
  /-- The previous level of every input line. -/
  lastInput : Fin 16 → Bool := fun _ => false

namespace Pic8259Pair

variable (p : Pic8259Pair)

/-- Let a function change one unit. -/
def modifyUnit (k : Fin 2) (f : PicUnit → PicUnit) : Pic8259Pair :=
  { p with unit := Function.update p.unit k (f (p.unit k)) }

/-- The unit of a line. -/
def unitOf (line : Fin 16) : Fin 2 := ⟨line.val / 8, by omega⟩

/-- The level of a line on its unit. -/
def levelOf (line : Fin 16) : Fin 8 := ⟨line.val % 8, by omega⟩

/-- The index of the master among the units. -/
abbrev masterUnit : Fin 2 := 0

/-- The index of the slave among the units. -/
abbrev slaveUnit : Fin 2 := 1

/-- The master input the slave rides on. -/
def cascadeIr : Fin 8 := 2

/-- Drive an input line; a rising edge latches. -/
def setIrqInput (line : Fin 16) (level : Bool) : Pic8259Pair :=
  let prev := p.lastInput line
  let p := { p with lastInput := Function.update p.lastInput line level }
  if level && !prev then
    p.modifyUnit (unitOf line) fun u => { u with irr := u.irr ||| PicUnit.bit (levelOf line) }
  else p

/-- The slave's result as a request on the master's IR2. -/
def cascadeBit : BitVec 8 :=
  if ((p.unit 1).unitPending 0).isSome then PicUnit.bit cascadeIr else 0

/-- The winning level: a master level, or the slave level behind IR2. -/
def pendingLevel : Option (Fin 2 × Fin 8) :=
  match (p.unit 0).unitPending p.cascadeBit, (p.unit 1).unitPending 0 with
  | none, _ => none
  | some m, some s => if m = cascadeIr then some (1, s) else some (0, m)
  | some m, none => some (0, m)

/-- The bridge output. -/
def outputAsserted : Bool := p.pendingLevel.isSome

/-- The INTA cycle: the vector, or none if nothing is pending. -/
def acknowledge : Pic8259Pair × Option (BitVec 8) :=
  match p.pendingLevel with
  | none => (p, none)
  | some (0, lvl) =>
    (p.modifyUnit 0 fun u => u.transferIrrToIsr lvl,
      some ((p.unit 0).icw2 ||| BitVec.ofNat 8 lvl))
  | some (1, lvl) =>
    ((p.modifyUnit 0 fun u => u.transferIrrToIsr cascadeIr).modifyUnit 1 fun u =>
        u.transferIrrToIsr lvl,
      some ((p.unit 1).icw2 ||| BitVec.ofNat 8 lvl))

/-- The ports of the pair. -/
inductive Port
  /-- The command port of a unit. -/
  | base (k : Fin 2)
  /-- Its data port. -/
  | data (k : Fin 2)
  /-- Its edge or level register. -/
  | elcr (k : Fin 2)
  /-- No port of the pair. -/
  | other
  deriving DecidableEq, Repr

/-- The port decode. -/
def Port.decode (port : BitVec 16) : Port :=
  if port = 0x20 then .base 0
  else if port = 0x21 then .data 0
  else if port = 0xA0 then .base 1
  else if port = 0xA1 then .data 1
  else if port = 0x4D0 then .elcr 0
  else if port = 0x4D1 then .elcr 1
  else .other

/-- Read a port. -/
def ioRead (port : BitVec 16) : Pic8259Pair × BitVec 8 :=
  match Port.decode port with
  | .base k => (p.modifyUnit k fun u => u.readBase.1, (p.unit k).readBase.2)
  | .data k => (p, (p.unit k).imr)
  | .elcr k => (p, p.elcr k)
  | .other => (p, 0xFF)

/-- Write a port; only the low byte counts. -/
def ioWrite (port : BitVec 16) (value : Word) : Pic8259Pair :=
  let v := value.setWidth 8
  match Port.decode port with
  | .base k => p.modifyUnit k fun u => u.writeBase v
  | .data k => p.modifyUnit k fun u => u.writeData v
  | .elcr k => { p with elcr := Function.update p.elcr k v }
  | .other => p

/-! ## The events of the pair -/

/-- What can happen to the pair: a line change, a port access, an INTA cycle. -/
inductive Event
  /-- A device drives a line. -/
  | irq (line : Fin 16) (level : Bool)
  /-- A port write. -/
  | ioWrite (port : BitVec 16) (value : Word)
  /-- A port read. -/
  | ioRead (port : BitVec 16)
  /-- An interrupt acknowledge cycle. -/
  | acknowledge
  deriving DecidableEq, Repr

/-- One event. -/
def step : Event → Pic8259Pair
  | .irq line level => p.setIrqInput line level
  | .ioWrite port value => p.ioWrite port value
  | .ioRead port => (p.ioRead port).1
  | .acknowledge => p.acknowledge.1

/-- A run of events. -/
def run (events : List Event) : Pic8259Pair := runFrom step p events

/-- The port writes with which the firmware initialises both units, then IRQ4 and IRQ5 unmasked. -/
def initWrites : List (BitVec 16 × Word) :=
  [(0xA0, 0x11), (0xA1, 0x08), (0xA1, 0x02), (0xA1, 0x01), (0xA1, 0xFF),
    (0x20, 0x11), (0x21, 0x00), (0x21, 0x04), (0x21, 0x01), (0x21, 0xCB)]

end Pic8259Pair

end EmulatR
