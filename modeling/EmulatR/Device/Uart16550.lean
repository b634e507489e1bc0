import EmulatR.Device.BadgeFilter
import EmulatR.Library.Channel

/-! # The 16550 serial port

The registers of a serial port, its receive FIFO and its interrupt line (deviceLib/Tsunami/
Uart16550.h). A transmission is complete as soon as it is written; what is transmitted passes the
badge filter.

`uart_16550` is about every run of register accesses and received bytes: what is received leaves the
FIFO in order, once, unless it was full; and the line is asserted iff the interrupt identification
register reports a cause. -/

namespace EmulatR

open Library

namespace Uart16550

/-! ## Registers -/

/-- The receive buffer, the transmit register and the low byte of the divisor. -/
def kRBR_THR_DLL : BitVec 8 := 0x00
/-- The interrupt enable and the high byte of the divisor. -/
def kIER_DLM : BitVec 8 := 0x01
/-- The interrupt identification and the FIFO control. -/
def kIIR_FCR : BitVec 8 := 0x02
/-- The line control. -/
def kLCR : BitVec 8 := 0x03
/-- The modem control. -/
def kMCR : BitVec 8 := 0x04
/-- The line status. -/
def kLSR : BitVec 8 := 0x05
/-- The modem status. -/
def kMSR : BitVec 8 := 0x06
/-- The scratch register. -/
def kSCR : BitVec 8 := 0x07

/-- The first two registers are the divisor. -/
def kLCR_DLAB : BitVec 8 := 0x80
/-- Interrupt on received data. -/
def kIER_ERBFI : BitVec 8 := 0x01
/-- Interrupt on an empty transmitter. -/
def kIER_ETBEI : BitVec 8 := 0x02
/-- Data have been received. -/
def kLSR_DR : BitVec 8 := 0x01
/-- Data were lost. -/
def kLSR_OE : BitVec 8 := 0x02
/-- The transmit register is empty. -/
def kLSR_THRE : BitVec 8 := 0x20
/-- The transmitter is empty. -/
def kLSR_TEMT : BitVec 8 := 0x40
/-- No interrupt. -/
def kIIR_NO_INT : BitVec 8 := 0x01
/-- The transmitter is empty. -/
def kIIR_THRE : BitVec 8 := 0x02
/-- Data have been received. -/
def kIIR_RXAVAIL : BitVec 8 := 0x04
/-- The FIFOs are on. -/
def kIIR_FIFO_ON : BitVec 8 := 0xC0

/-- `(value & mask) != 0`. -/
def test (value mask : BitVec 8) : Bool := decide (value &&& mask ≠ 0)

variable (u : Uart16550)

/-- The divisor latch is accessed. -/
def dlab : Bool := test u.lcr kLCR_DLAB

/-- The receive interrupt source. -/
def rxPending : Bool := test u.ier kIER_ERBFI && !u.rxFifo.isEmpty

/-- The transmit interrupt source. -/
def threPending : Bool := test u.ier kIER_ETBEI && u.threLatch

/-- The interrupt line. -/
def intPending : Bool := rxPending u || threPending u

/-- A byte is received. -/
def feedRxByte (byte : BitVec 8) : Uart16550 :=
  if h : kRxFifoDepth ≤ u.rxFifo.length then { u with lsrSticky := u.lsrSticky ||| kLSR_OE }
  else
    { u with
      rxFifo := u.rxFifo ++ [byte]
      rxFifo_le := by
        rw [List.length_append, List.length_singleton]
        omega }

/-- The receive buffer: the oldest byte leaves the FIFO. -/
def readRBR : Uart16550 × BitVec 8 :=
  if u.rxFifo = [] then (u, 0x00)
  else
    ({ u with
        rxFifo := u.rxFifo.tail
        rxFifo_le := (List.length_tail ▸ Nat.sub_le _ _).trans u.rxFifo_le },
      u.rxFifo.headD 0)

/-- The interrupt enables; enabling the transmit interrupt sets its source. -/
def writeIER (value : BitVec 8) : Uart16550 :=
  let ier := value &&& 0x0F
  let etbeiRose := !test u.ier kIER_ETBEI && test ier kIER_ETBEI
  { u with ier := ier, threLatch := if etbeiRose then true else u.threLatch }

/-- The badge filter of the port. -/
def badge : BadgeFilter := { state := u.badgeState, pend := u.badgePend, suf := u.badgeSuf }

/-- Transmit a byte, with what goes to the console. -/
def writeTHR (value : BitVec 8) (mhz : BitVec 32) : Uart16550 × List (BitVec 8) :=
  let r := u.badge.badgeTxEmit (value, mhz)
  ({ u with badgeState := r.1.state, badgePend := r.1.pend, badgeSuf := r.1.suf, threLatch := true },
    r.2)

/-- The line status; its error bits are cleared. -/
def readLSR : Uart16550 × BitVec 8 :=
  let lsr := kLSR_THRE ||| kLSR_TEMT ||| u.lsrSticky
  ({ u with lsrSticky := 0 }, if u.rxFifo = [] then lsr else lsr ||| kLSR_DR)

/-- The interrupt identification; reporting the transmit source clears it. -/
def readIIR : Uart16550 × BitVec 8 :=
  let fifo := if u.fifosEnabled then kIIR_FIFO_ON else 0
  if rxPending u then (u, fifo ||| kIIR_RXAVAIL)
  else if threPending u then ({ u with threLatch := false }, fifo ||| kIIR_THRE)
  else (u, fifo ||| kIIR_NO_INT)

/-- The modem status, with a backend that is connected or not. -/
def readMSR (connected : Bool) : BitVec 8 := if connected then 0x30 ||| 0x80 else 0x30

/-- A write of the modem control; its upper bits are not there. -/
def writeMCR (value : BitVec 8) : Uart16550 := { u with mcr := value &&& 0x1F }

/-- The FIFO control: the receive FIFO may be cleared. -/
def writeFCR (value : BitVec 8) : Uart16550 :=
  let u := { u with fifosEnabled := test value 0x01, fcr := value &&& 0xC9 }
  if test value 0x02 then { u with rxFifo := [], rxFifo_le := Nat.zero_le _ } else u

/-- A read of a register. -/
def readRegister (reg : BitVec 8) (connected : Bool) : Uart16550 × BitVec 8 :=
  if reg = kRBR_THR_DLL then if u.dlab then (u, u.dll) else u.readRBR
  else if reg = kIER_DLM then if u.dlab then (u, u.dlm) else (u, u.ier)
  else if reg = kIIR_FCR then u.readIIR
  else if reg = kLCR then (u, u.lcr)
  else if reg = kMCR then (u, u.mcr)
  else if reg = kLSR then u.readLSR
  else if reg = kMSR then (u, readMSR connected)
  else if reg = kSCR then (u, u.scr)
  else (u, 0xFF)

/-- A write of a register, with what it transmits. -/
def writeRegister (reg value : BitVec 8) (mhz : BitVec 32) : Uart16550 × List (BitVec 8) :=
  if reg = kRBR_THR_DLL then
    if u.dlab then ({ u with dll := value }, []) else u.writeTHR value mhz
  else if reg = kIER_DLM then
    if u.dlab then ({ u with dlm := value }, []) else (u.writeIER value, [])
  else if reg = kIIR_FCR then (u.writeFCR value, [])
  else if reg = kLCR then ({ u with lcr := value }, [])
  else if reg = kMCR then (u.writeMCR value, [])
  else if reg = kLSR then (u, [])
  else if reg = kMSR then (u, [])
  else if reg = kSCR then ({ u with scr := value }, [])
  else (u, [])

/-- The register behind a port, of a serial port at `basePort`. -/
def reg (basePort port : BitVec 16) : BitVec 8 := (port - basePort).setWidth 8

/-- A read of a port. -/
def ioRead (basePort port : BitVec 16) (connected : Bool) : Uart16550 × BitVec 8 :=
  u.readRegister (reg basePort port) connected

/-- A write of a port. -/
def ioWrite (basePort port : BitVec 16) (value : Word) (mhz : BitVec 32) :
    Uart16550 × List (BitVec 8) :=
  u.writeRegister (reg basePort port) ((value &&& 0xFF).setWidth 8) mhz

/-! ## The receive FIFO -/

/-- A write of the interrupt enable keeps the FIFO. -/
@[simp] theorem rxFifo_writeIER (value : BitVec 8) : (u.writeIER value).rxFifo = u.rxFifo := rfl

/-- A transmitted byte keeps the receive FIFO. -/
@[simp] theorem rxFifo_writeTHR (value : BitVec 8) (mhz : BitVec 32) :
    (u.writeTHR value mhz).1.rxFifo = u.rxFifo := rfl

/-- A write of the modem control keeps the receive FIFO. -/
@[simp] theorem rxFifo_writeMCR (value : BitVec 8) : (u.writeMCR value).rxFifo = u.rxFifo := rfl

/-- A read of the line status keeps the receive FIFO. -/
@[simp] theorem rxFifo_readLSR : u.readLSR.1.rxFifo = u.rxFifo := rfl

/-- A read of the interrupt identification keeps the receive FIFO. -/
@[simp] theorem rxFifo_readIIR : u.readIIR.1.rxFifo = u.rxFifo := by
  simp only [readIIR]
  split
  · rfl
  · split <;> rfl

/-- A write of the FIFO control empties it if it says so. -/
theorem rxFifo_writeFCR (value : BitVec 8) :
    (u.writeFCR value).rxFifo = if test value 0x02 then [] else u.rxFifo := by
  simp only [writeFCR]
  split <;> rfl

/-- A received byte is appended while there is room. -/
theorem rxFifo_feedRxByte (byte : BitVec 8) :
    (u.feedRxByte byte).rxFifo =
      if u.rxFifo.length < kRxFifoDepth then u.rxFifo ++ [byte] else u.rxFifo := by
  rw [feedRxByte]
  split
  · next h => rw [if_neg (Nat.not_lt.2 h)]
  · next h => rw [if_pos (Nat.lt_of_not_le h)]

/-- The byte that is read is the one that leaves. -/
theorem readRBR_of_ne_nil (h : u.rxFifo ≠ []) : u.rxFifo = u.readRBR.2 :: u.readRBR.1.rxFifo := by
  simp only [readRBR, if_neg h]
  obtain ⟨b, rest, hcons⟩ := List.exists_cons_of_ne_nil h
  rw [hcons, List.headD_cons, List.tail_cons]

/-- A register read takes a byte from the FIFO iff it is one of the receive buffer. -/
theorem rxFifo_readRegister (r : BitVec 8) (connected : Bool) :
    (u.readRegister r connected).1.rxFifo =
      if r = kRBR_THR_DLL ∧ u.dlab = false then u.readRBR.1.rxFifo else u.rxFifo := by
  rw [readRegister]
  by_cases hr : r = kRBR_THR_DLL
  · rw [if_pos hr]
    cases hdlab : u.dlab with
    | true => rw [if_pos rfl, if_neg (by simp)]
    | false => rw [if_neg Bool.false_ne_true, if_pos ⟨hr, rfl⟩]
  · have hother : ¬ (r = kRBR_THR_DLL ∧ u.dlab = false) := fun h => hr h.1
    rw [if_neg hr, if_neg hother]
    split_ifs <;> simp

/-- A register write clears the FIFO iff it is that of the FIFO control which says so. -/
theorem rxFifo_writeRegister (r value : BitVec 8) (mhz : BitVec 32) :
    (u.writeRegister r value mhz).1.rxFifo =
      if r = kIIR_FCR ∧ test value 0x02 = true then [] else u.rxFifo := by
  rw [writeRegister]
  by_cases hr : r = kIIR_FCR
  · subst hr
    rw [if_neg (by decide), if_neg (by decide), if_pos rfl, rxFifo_writeFCR]
    simp only [true_and]
  · have hother : ¬ (r = kIIR_FCR ∧ test value 0x02 = true) := fun h => hr h.1
    rw [if_neg hother, if_neg hr]
    split_ifs <;> simp

/-! ## Runs -/

/-- What happens to a serial port. -/
inductive Event
  /-- A read of a port. -/
  | ioRead (port : BitVec 16) (connected : Bool)
  /-- A register is written, at this clock rate. -/
  | ioWrite (port : BitVec 16) (value : Word) (mhz : BitVec 32)
  /-- A byte is received. -/
  | feedRxByte (byte : BitVec 8)

variable (basePort : BitVec 16)

/-- The port after an event. -/
def step (u : Uart16550) : Event → Uart16550
  | .ioRead port connected => (u.ioRead basePort port connected).1
  | .ioWrite port value mhz => (u.ioWrite basePort port value mhz).1
  | .feedRxByte byte => u.feedRxByte byte

/-- The byte that is received while fewer than 16 are pending. -/
def accepted (u : Uart16550) : Event → List (BitVec 8)
  | .feedRxByte byte => if u.rxFifo.length < kRxFifoDepth then [byte] else []
  | .ioRead .. | .ioWrite .. => []

/-- The byte that a read of the receive buffer returns while one is pending. -/
def delivered (u : Uart16550) : Event → List (BitVec 8)
  | .ioRead port connected =>
    if (reg basePort port = kRBR_THR_DLL ∧ u.dlab = false) ∧ u.rxFifo ≠ [] then
      [(u.ioRead basePort port connected).2]
    else []
  | .ioWrite .. | .feedRxByte _ => []

/-- The event is a reset of the receive FIFO. -/
def IsFifoReset : Event → Prop
  | .ioWrite port value _ =>
    reg basePort port = kIIR_FCR ∧ test ((value &&& 0xFF).setWidth 8) 0x02 = true
  | .ioRead .. | .feedRxByte _ => False

instance : DecidablePred (IsFifoReset basePort)
  | .ioRead .. | .feedRxByte _ => isFalse id
  | .ioWrite .. => inferInstanceAs (Decidable (_ ∧ _))

/-- The bytes that leave the FIFO: one that is delivered, or all with a reset. -/
def leaving (u : Uart16550) (e : Event) : List (BitVec 8) :=
  if IsFifoReset basePort e then u.rxFifo else delivered basePort u e

/-- **One step of the FIFO.** -/
theorem rxFifo_step (e : Event) :
    u.rxFifo ++ accepted u e = leaving basePort u e ++ (step basePort u e).rxFifo := by
  cases e with
  | ioRead port connected =>
    rw [leaving, if_neg (show ¬ IsFifoReset basePort (.ioRead port connected) from id), accepted,
      List.append_nil, delivered, step, ioRead, rxFifo_readRegister]
    by_cases hreg : reg basePort port = kRBR_THR_DLL ∧ u.dlab = false
    · rw [if_pos hreg]
      by_cases hempty : u.rxFifo = []
      · rw [if_neg fun h => h.2 hempty, readRBR, if_pos hempty, List.nil_append]
      · rw [if_pos ⟨hreg, hempty⟩, readRegister, if_pos hreg.1, hreg.2,
          if_neg Bool.false_ne_true]
        exact u.readRBR_of_ne_nil hempty
    · rw [if_neg hreg, if_neg fun h => hreg h.1, List.nil_append]
  | ioWrite port value mhz =>
    rw [leaving, accepted, List.append_nil, step, ioWrite, rxFifo_writeRegister]
    by_cases hreset : IsFifoReset basePort (.ioWrite port value mhz)
    · rw [if_pos hreset]
      rw [IsFifoReset] at hreset
      rw [if_pos hreset, List.append_nil]
    · rw [if_neg hreset]
      rw [IsFifoReset] at hreset
      rw [if_neg hreset, delivered, List.nil_append]
  | feedRxByte byte =>
    rw [leaving, if_neg (show ¬ IsFifoReset basePort (.feedRxByte byte) from id), accepted, delivered,
      List.nil_append, step, rxFifo_feedRxByte]
    split
    · rfl
    · rw [List.append_nil]

/-! ## The overrun flag -/

/-- The line status is read. -/
def IsReadLSR : Event → Prop
  | .ioRead port _ => reg basePort port = kLSR
  | .ioWrite .. | .feedRxByte _ => False

/-- A byte is received and the FIFO is full. -/
def IsOverrun (u : Uart16550) : Event → Prop
  | .feedRxByte _ => u.rxFifo.length = kRxFifoDepth
  | .ioRead .. | .ioWrite .. => False

/-- The overrun flag is set. -/
def Overrun (u : Uart16550) : Prop := test u.lsrSticky kLSR_OE = true

/-- A bit of a disjunction. -/
theorem test_or (value other mask : BitVec 8) :
    test (value ||| other) mask = (test value mask || test other mask) := by
  rw [test, test, test, Bool.eq_iff_iff, Bool.or_eq_true_iff]
  simp only [decide_eq_true_eq, ne_eq]
  rw [BitVec.and_or_distrib_right]
  exact (not_congr BitVec.or_eq_zero_iff).trans not_and_or

/-- A read of the receive buffer keeps the error bits. -/
@[simp] theorem lsrSticky_readRBR : u.readRBR.1.lsrSticky = u.lsrSticky := by
  rw [readRBR]
  split <;> rfl

/-- A read of the interrupt identification keeps the sticky line status. -/
@[simp] theorem lsrSticky_readIIR : u.readIIR.1.lsrSticky = u.lsrSticky := by
  simp only [readIIR]
  split
  · rfl
  · split <;> rfl

/-- A write of the interrupt enable keeps the sticky line status. -/
@[simp] theorem lsrSticky_writeIER (value : BitVec 8) :
    (u.writeIER value).lsrSticky = u.lsrSticky := rfl

/-- A transmitted byte keeps the sticky line status. -/
@[simp] theorem lsrSticky_writeTHR (value : BitVec 8) (mhz : BitVec 32) :
    (u.writeTHR value mhz).1.lsrSticky = u.lsrSticky := rfl

/-- A write of the modem control keeps the sticky line status. -/
@[simp] theorem lsrSticky_writeMCR (value : BitVec 8) :
    (u.writeMCR value).lsrSticky = u.lsrSticky := rfl

/-- A write of the FIFO control keeps the sticky line status. -/
@[simp] theorem lsrSticky_writeFCR (value : BitVec 8) :
    (u.writeFCR value).lsrSticky = u.lsrSticky := by
  simp only [writeFCR]
  split <;> rfl

/-- A register read clears the error bits iff it is one of the line status. -/
theorem lsrSticky_readRegister (r : BitVec 8) (connected : Bool) :
    (u.readRegister r connected).1.lsrSticky = if r = kLSR then 0 else u.lsrSticky := by
  rw [readRegister]
  by_cases hr : r = kLSR
  · subst hr
    rfl
  · rw [if_neg hr, if_neg hr]
    split_ifs <;> simp

/-- No register write changes them. -/
theorem lsrSticky_writeRegister (r value : BitVec 8) (mhz : BitVec 32) :
    (u.writeRegister r value mhz).1.lsrSticky = u.lsrSticky := by
  rw [writeRegister]
  split_ifs <;> simp

/-- **One step of the overrun flag.** -/
theorem overrun_step (e : Event) :
    Overrun (step basePort u e) ↔ IsOverrun u e ∨ (Overrun u ∧ ¬ IsReadLSR basePort e) := by
  cases e with
  | ioRead port connected =>
    rw [step, ioRead, Overrun, lsrSticky_readRegister, IsOverrun, IsReadLSR, false_or]
    split
    · next h => exact iff_of_false (by decide) fun hflag => hflag.2 h
    · next h => exact (and_iff_left h).symm
  | ioWrite port value mhz =>
    rw [step, ioWrite, Overrun, lsrSticky_writeRegister, IsOverrun, IsReadLSR, false_or,
      not_false_eq_true, and_true]
    exact Iff.rfl
  | feedRxByte byte =>
    rw [step, feedRxByte, IsOverrun, IsReadLSR, not_false_eq_true, and_true]
    split
    · next h =>
      refine iff_of_true ?_ (Or.inl (Nat.le_antisymm u.rxFifo_le h))
      rw [Overrun, test_or]
      exact Bool.or_eq_true_iff.2 (Or.inr (by decide))
    · next h => exact (or_iff_right fun heq => h heq.ge).symm

/-- The line status reports the flag. -/
theorem test_readLSR : test u.readLSR.2 kLSR_OE = true ↔ Overrun u := by
  have hconst : test (kLSR_THRE ||| kLSR_TEMT) kLSR_OE = false := by decide
  have hready : test kLSR_DR kLSR_OE = false := by decide
  simp only [readLSR, Overrun]
  split
  · rw [test_or, hconst, Bool.false_or]
  · rw [test_or, test_or, hconst, hready, Bool.false_or, Bool.or_false]

/-! ## The interrupt line -/

/-- **The line is what the interrupt identification says**: it reports a cause, with its lowest bit
clear, iff the line is asserted. -/
theorem intPending_eq : u.intPending = !test u.readIIR.2 kIIR_NO_INT := by
  rw [readIIR, intPending]
  generalize hfifo : (if u.fifosEnabled then kIIR_FIFO_ON else 0) = fifo
  have hlow : test fifo kIIR_NO_INT = false := by
    rw [← hfifo]
    split <;> decide
  have hrx : test kIIR_RXAVAIL kIIR_NO_INT = false := by decide
  have hthre : test kIIR_THRE kIIR_NO_INT = false := by decide
  have hnone : test kIIR_NO_INT kIIR_NO_INT = true := by decide
  cases u.rxPending with
  | true => simp [test_or, hlow, hrx]
  | false =>
    cases u.threPending with
    | true => simp [test_or, hlow, hthre]
    | false => simp [test_or, hlow, hnone]

/-! ## The main result -/

/-- **The serial port**, after any run of register accesses and received bytes:

* the bytes that were pending and those that have been accepted are, in this order, those that have
  left and those that are pending, at most 16;
* a byte that is received with 16 pending is lost and sets the overrun flag, and nothing else
  changes; the line status reports it iff that has happened since it was read last;
* a reset of the FIFO empties it;
* the interrupt line is asserted iff the interrupt identification reports a cause. -/
theorem uart_16550 (es : List Event) :
    let v := runFrom (step basePort) u es
    u.rxFifo ++ collect (step basePort) accepted u es =
        collect (step basePort) (leaving basePort) u es ++ v.rxFifo ∧
      v.rxFifo.length ≤ kRxFifoDepth ∧
      (∀ byte, v.rxFifo.length = kRxFifoDepth →
        v.feedRxByte byte = { v with lsrSticky := v.lsrSticky ||| kLSR_OE }) ∧
      (∀ connected, test (v.readRegister kLSR connected).2 kLSR_OE = true ↔
        (∃ before e after, es = before ++ e :: after ∧
            IsOverrun (runFrom (step basePort) u before) e ∧
            ∀ k ∈ after, ¬ IsReadLSR basePort k) ∨
          (Overrun u ∧ ∀ k ∈ es, ¬ IsReadLSR basePort k)) ∧
      (∀ e, IsFifoReset basePort e → (step basePort v e).rxFifo = []) ∧
      ∀ connected, v.intPending = !test (v.readRegister kIIR_FCR connected).2 kIIR_NO_INT := by
  intro v
  refine ⟨collect_queue (rxFifo_step · basePort) u es, v.rxFifo_le, fun byte hfull => ?_,
    fun connected => ?_, fun e he => ?_, fun connected => v.intPending_eq⟩
  · rw [feedRxByte, dif_pos hfull.ge]
  · exact v.test_readLSR.trans (flag_iff (overrun_step · basePort) u es)
  · cases e with
    | ioWrite port value mhz =>
      rw [IsFifoReset] at he
      rw [step, ioWrite, rxFifo_writeRegister, if_pos he]
    | ioRead port connected => exact he.elim
    | feedRxByte byte => exact he.elim

end Uart16550

end EmulatR
