import EmulatR.Library.OnlineRewriting
import EmulatR.System.Board

/-! # The PCF8584 controller and its IIC bus

The two registers of the controller, and the EEPROMs, NVRAMs and status registers on its bus
(deviceLib/Tsunami/IicPcf8584.h). The data register carries the staged address, the offset in a
device or its content, as the phase of the transaction has it.

`iic_bus` is the law over runs; `status_register_absorbs` is the access it leaves out. -/

namespace EmulatR

open Library

namespace IicPcf8584

/-! ## The controller -/

/-- The port of the data register. -/
def kOffData : BitVec 16 := 0x00
/-- The port of control and status. -/
def kOffCtrlSt : BitVec 16 := 0x01

/-- Control: acknowledge, or reset the interrupt. -/
def kCtl_PIN : BitVec 8 := 0x80
/-- Control: the serial interface is enabled. -/
def kCtl_ES0 : BitVec 8 := 0x40
/-- Control: a register select bit. -/
def kCtl_ES1 : BitVec 8 := 0x20
/-- Control: the other one. -/
def kCtl_ES2 : BitVec 8 := 0x10
/-- Control: START. -/
def kCtl_STA : BitVec 8 := 0x04
/-- Control: STOP. -/
def kCtl_STO : BitVec 8 := 0x02
/-- Control: acknowledge what is read. -/
def kCtl_ACK : BitVec 8 := 0x01

/-- Status: no interrupt is pending. -/
def kSt_PIN : BitVec 8 := 0x80
/-- Status: the last byte was not acknowledged. -/
def kSt_LRB : BitVec 8 := 0x08
/-- Status: the bus is free. -/
def kSt_BB : BitVec 8 := 0x01

/-- The registers behind the data port of an idle controller. -/
inductive Sel
  | s0 | s0Own | s2 | s3
  deriving DecidableEq, Repr

namespace IicDevice

/-- The byte of the content that an offset is about. -/
def index (offset : BitVec 8) : Fin kImageSize := ⟨offset.toNat, offset.isLt⟩

/-- A byte is read: the offset moves on. -/
def advance (d : IicDevice) : IicDevice := { d with offset := d.offset + 1 }

/-- A read keeps the address of a device. -/
@[simp] theorem address_advance (d : IicDevice) : d.advance.address = d.address := rfl

/-- A byte is written: the first is the offset, the others are content, which a status register does
not take. -/
def receive (firstWrite : Bool) (d : IicDevice) (v : BitVec 8) : IicDevice :=
  if firstWrite then { d with offset := v }
  else if d.kind ≠ .status then
    { d with image := Function.update d.image (index d.offset) v, offset := d.offset + 1 }
  else d

/-- A device that is written to keeps its address. -/
@[simp] theorem address_receive (firstWrite : Bool) (d : IicDevice) (v : BitVec 8) :
    (d.receive firstWrite v).address = d.address := by
  rw [receive]
  split
  · rfl
  · split <;> rfl

/-- A device that is written to keeps its kind. -/
@[simp] theorem kind_receive (firstWrite : Bool) (d : IicDevice) (v : BitVec 8) :
    (d.receive firstWrite v).kind = d.kind := by
  rw [receive]
  split
  · rfl
  · split <;> rfl

end IicDevice

variable (c : IicPcf8584)

/-- The controller is reset, its devices are not. -/
def reset : IicPcf8584 := { c with controller := {} }

/-- The device at an address, as its place in the manifest. -/
def deviceLookup (node : BitVec 8) : Option Nat := c.devices.findIdx? fun d => d.address == node

/-- The register that the control byte selects. -/
def regSelect : Sel :=
  if c.controller.control &&& kCtl_ES0 ≠ 0 then .s0
  else if c.controller.control &&& kCtl_ES1 ≠ 0 then .s2
  else if c.controller.control &&& kCtl_ES2 ≠ 0 then .s3
  else .s0Own

/-- A change of a device that keeps its address keeps all addresses. -/
theorem map_address_modify {f : IicDevice → IicDevice} (hf : ∀ d, (f d).address = d.address)
    (devices : List IicDevice) (i : Nat) :
    (devices.modify i f).map (·.address) = devices.map (·.address) := by
  apply List.ext_getElem?
  intro j
  rw [List.getElem?_map, List.getElem?_map, List.getElem?_modify]
  split
  · cases devices[j]? with
    | none => rfl
    | some d => exact congrArg some (hf d)
  · cases devices[j]? <;> rfl

/-- The current device changes. -/
def updateCurrent (f : IicDevice → IicDevice) (hf : ∀ d, (f d).address = d.address) : IicPcf8584 :=
  match c.controller.curDev with
  | none => c
  | some i =>
    { c with
      devices := c.devices.modify i f
      nodup := by rw [map_address_modify hf]; exact c.nodup }

/-- A START: the staged address selects a device, and its lowest bit the direction. -/
def startTransaction : IicPcf8584 :=
  let addr := c.controller.shift
  match c.deviceLookup (addr &&& 0xFE) with
  | none =>
    { c with controller := { c.controller with
        phase := .addrNak, curDev := none, status := kSt_LRB } }
  | some idx =>
    { c with controller := { c.controller with
        curDev := some idx
        status := 0x00
        dummyDone := false
        firstWrite := true
        phase := if addr &&& 0x01 ≠ 0 then .readData else .writeData } }

/-- A write of the control register. -/
def writeControl (v : BitVec 8) : IicPcf8584 :=
  let c := { c with controller := { c.controller with control := v } }
  if v &&& kCtl_STA ≠ 0 then c.startTransaction
  else if v &&& kCtl_STO ≠ 0 then
    { c with controller := { c.controller with
        status := kSt_PIN ||| kSt_BB, phase := .idle, curDev := none } }
  else if v &&& kCtl_PIN ≠ 0 then
    if c.controller.phase = .idle then
      { c with controller := { c.controller with status := kSt_PIN ||| kSt_BB } }
    else if v &&& kCtl_ACK = 0 ∧ c.controller.phase = .readData then
      { c with controller := { c.controller with status := kSt_LRB } }
    else c
  else c

/-- A write of the data register. -/
def writeData (v : BitVec 8) : IicPcf8584 :=
  match c.controller.phase with
  | .writeData =>
    let c' := c.updateCurrent (·.receive c.controller.firstWrite v)
      (IicDevice.address_receive _ · v)
    { c' with controller := { c'.controller with firstWrite := false, status := 0x00 } }
  | .addrNak | .readData => c
  | .idle =>
    match c.regSelect with
    | .s0 => { c with controller := { c.controller with shift := v } }
    | .s0Own => { c with controller := { c.controller with ownAddr := v } }
    | .s2 => { c with controller := { c.controller with clock := v } }
    | .s3 => { c with controller := { c.controller with vector := v } }

/-- The current device. -/
def current : Option IicDevice := c.controller.curDev.bind (c.devices[·]?)

/-- The byte of a device that is read next. -/
def IicDevice.next (d : IicDevice) : BitVec 8 := d.image (index d.offset)

/-- A read of the data register; the first of a transaction is a dummy. -/
def readData : IicPcf8584 × Word :=
  match c.controller.phase with
  | .readData =>
    if c.controller.dummyDone then
      (c.updateCurrent IicDevice.advance IicDevice.address_advance,
        (c.current.map fun d => d.next.setWidth 64).getD 0xFF)
    else ({ c with controller := { c.controller with dummyDone := true } }, 0xFF)
  | .addrNak | .writeData => (c, 0xFF)
  | .idle =>
    match c.regSelect with
    | .s0 => (c, c.controller.shift.setWidth 64)
    | .s0Own => (c, c.controller.ownAddr.setWidth 64)
    | .s2 => (c, c.controller.clock.setWidth 64)
    | .s3 => (c, c.controller.vector.setWidth 64)

/-- A read of a port; the controller has bytes only. -/
def ioRead (port : BitVec 16) (width : BitVec 8) : IicPcf8584 × Word :=
  if width ≠ 1 then (c, 0xFF)
  else if port = kOffCtrlSt then (c, c.controller.status.setWidth 64)
  else if port = kOffData then c.readData
  else (c, 0xFF)

/-- A write of a port. -/
def ioWrite (port : BitVec 16) (value : Word) (width : BitVec 8) : IicPcf8584 :=
  if width ≠ 1 then c
  else
    let v := (value &&& 0xFF).setWidth 8
    if port = kOffCtrlSt then c.writeControl v
    else if port = kOffData then c.writeData v
    else c

/-- An access to the controller. -/
inductive Access
  /-- A read of a port. -/
  | ioRead (port : BitVec 16) (width : BitVec 8)
  /-- A write of one. -/
  | ioWrite (port : BitVec 16) (value : Word) (width : BitVec 8)

/-- An access, with what it reads. -/
def access (c : IicPcf8584) : Access → IicPcf8584 × List Word
  | .ioRead port width => ((c.ioRead port width).1, [(c.ioRead port width).2])
  | .ioWrite port value width => (c.ioWrite port value width, [])

/-- The controller after an access. -/
def step (c : IicPcf8584) (a : Access) : IicPcf8584 := (c.access a).1

/-! ## What an access does -/

/-- What an access does: it changes the controller alone, which is idle then or is where it was in
its transaction; it is a START; it reads a byte; or it writes one. -/
theorem step_cases (a : Access) :
    (∃ k : Controller, step c a = { c with controller := k } ∧
        (k.phase = .idle ∨ k.phase = c.controller.phase ∧ k.curDev = c.controller.curDev ∧
          k.shift = c.controller.shift)) ∨
      (∃ v, step c a =
        startTransaction { c with controller := { c.controller with control := v } }) ∨
      (c.controller.phase = .readData ∧
        step c a = c.updateCurrent IicDevice.advance IicDevice.address_advance) ∨
      ∃ value, a = .ioWrite kOffData value 1 ∧ c.controller.phase = .writeData ∧
        step c a = c.writeData ((value &&& 0xFF).setWidth 8) := by
  have hsame : ∃ k : Controller, c = { c with controller := k } ∧
      (k.phase = .idle ∨ k.phase = c.controller.phase ∧ k.curDev = c.controller.curDev ∧
        k.shift = c.controller.shift) := ⟨c.controller, rfl, Or.inr ⟨rfl, rfl, rfl⟩⟩
  cases a with
  | ioRead port width =>
    have hread : step c (.ioRead port width) = (c.ioRead port width).1 := rfl
    rw [hread, ioRead]
    split_ifs with hwidth hctrl hdata
    · exact Or.inl hsame
    · exact Or.inl hsame
    · rw [readData]
      split
      · next hphase =>
        split
        · exact Or.inr (Or.inr (Or.inl ⟨hphase, rfl⟩))
        · exact Or.inl ⟨_, rfl, Or.inr ⟨rfl, rfl, rfl⟩⟩
      · exact Or.inl hsame
      · exact Or.inl hsame
      · split <;> exact Or.inl hsame
    · exact Or.inl hsame
  | ioWrite port value width =>
    rw [step, access, ioWrite]
    split_ifs with hwidth hctrl hdata
    · exact Or.inl hsame
    · simp only [writeControl]
      generalize (value &&& 0xFF).setWidth 8 = v
      split
      · exact Or.inr (Or.inl ⟨v, rfl⟩)
      · refine Or.inl ?_
        split_ifs with hsto hpin hidle hack
        · exact ⟨_, rfl, Or.inl rfl⟩
        · exact ⟨_, rfl, Or.inl hidle⟩
        · exact ⟨_, rfl, Or.inr ⟨rfl, rfl, rfl⟩⟩
        · exact ⟨_, rfl, Or.inr ⟨rfl, rfl, rfl⟩⟩
        · exact ⟨_, rfl, Or.inr ⟨rfl, rfl, rfl⟩⟩
    · by_cases hphase : c.controller.phase = .writeData
      · rw [not_not.1 hwidth, hdata]
        exact Or.inr (Or.inr (Or.inr ⟨value, rfl, hphase, rfl⟩))
      · refine Or.inl ?_
        rw [writeData]
        split
        · next h => exact absurd h hphase
        · exact hsame
        · exact hsame
        · next hidle => split <;> exact ⟨_, rfl, Or.inl hidle⟩
    · exact Or.inl hsame

/-- The devices when the current one has changed. -/
theorem getElem?_updateCurrent {f : IicDevice → IicDevice}
    (hf : ∀ d, (f d).address = d.address) (j : Nat) :
    (c.updateCurrent f hf).devices[j]? =
      if c.controller.curDev = some j then c.devices[j]?.map f else c.devices[j]? := by
  rw [updateCurrent]
  cases c.controller.curDev with
  | none => rfl
  | some i =>
    simp only [List.getElem?_modify, Option.some.injEq]
    split
    · rfl
    · cases c.devices[j]? <;> rfl

/-- A change of the current device keeps the controller. -/
@[simp] theorem controller_updateCurrent {f : IicDevice → IicDevice}
    (hf : ∀ d, (f d).address = d.address) :
    (c.updateCurrent f hf).controller = c.controller := by
  rw [updateCurrent]
  split <;> rfl

/-- A START keeps the devices. -/
@[simp] theorem devices_startTransaction : c.startTransaction.devices = c.devices := by
  simp only [startTransaction]
  split <;> rfl

/-- A byte that is written reaches the current device. -/
theorem writeData_eq (hphase : c.controller.phase = .writeData) (v : BitVec 8) :
    (c.writeData v).devices =
        (c.updateCurrent (·.receive c.controller.firstWrite v)
          (IicDevice.address_receive _ · v)).devices ∧
      (c.writeData v).controller = { c.controller with firstWrite := false, status := 0x00 } := by
  rw [writeData]
  split
  · exact ⟨rfl, by simp only [controller_updateCurrent]⟩
  all_goals next h => exact absurd (h.symm.trans hphase) (by decide)

/-! ## The invariant -/

/-- A data phase. -/
def InData : Prop := c.controller.phase = .writeData ∨ c.controller.phase = .readData

/-- In a data phase the current device is that at the staged address. -/
def Valid : Prop :=
  InData c → ∃ i d, c.controller.curDev = some i ∧ c.devices[i]? = some d ∧
    d.address = c.controller.shift &&& 0xFE

/-- The device that is found has the address. -/
theorem deviceLookup_eq_some {node : BitVec 8} {i : Nat} (h : c.deviceLookup node = some i) :
    ∃ d, c.devices[i]? = some d ∧ d.address = node := by
  obtain ⟨hi, heq, -⟩ := List.findIdx?_eq_some_iff_getElem.1 h
  exact ⟨c.devices[i], List.getElem?_eq_getElem hi, beq_iff_eq.1 heq⟩

/-- A device keeps its address while the current device changes. -/
theorem exists_updateCurrent {f : IicDevice → IicDevice} (hf : ∀ d, (f d).address = d.address)
    {j : Nat} {d : IicDevice} (h : c.devices[j]? = some d) :
    ∃ d', (c.updateCurrent f hf).devices[j]? = some d' ∧ d'.address = d.address := by
  rw [getElem?_updateCurrent, h]
  split
  · exact ⟨f d, rfl, hf d⟩
  · exact ⟨d, rfl, rfl⟩

/-- **The index of the current device stays valid.** -/
theorem valid_step (a : Access) (h : Valid c) : Valid (step c a) := by
  intro hdata
  rcases step_cases c a with ⟨k, hstep, hk⟩ | ⟨v, hstep⟩ | ⟨hphase, hstep⟩ |
    ⟨value, -, hphase, hstep⟩
  · rw [hstep, InData] at hdata
    obtain hidle | ⟨hphase, hcur, hshift⟩ := hk
    · rw [hidle] at hdata
      rcases hdata with hdata | hdata <;> cases hdata
    · rw [hphase] at hdata
      rw [hstep]
      simp only [hcur, hshift]
      exact h hdata
  · rw [hstep] at hdata ⊢
    simp only [startTransaction] at hdata ⊢
    split at hdata
    · rcases hdata with hdata | hdata <;> cases hdata
    · next i hi =>
      obtain ⟨d, hd, haddress⟩ := deviceLookup_eq_some _ hi
      exact ⟨i, d, rfl, hd, haddress⟩
  · obtain ⟨i, d, hcur, hd, haddress⟩ := h (Or.inr hphase)
    obtain ⟨d', hd', haddress'⟩ := exists_updateCurrent c IicDevice.address_advance hd
    rw [hstep, controller_updateCurrent]
    exact ⟨i, d', hcur, hd', haddress'.trans haddress⟩
  · obtain ⟨i, d, hcur, hd, haddress⟩ := h (Or.inl hphase)
    obtain ⟨hdevices, hcontroller⟩ := writeData_eq c hphase ((value &&& 0xFF).setWidth 8)
    obtain ⟨d', hd', haddress'⟩ := exists_updateCurrent c (IicDevice.address_receive
      c.controller.firstWrite · ((value &&& 0xFF).setWidth 8)) hd
    rw [hstep, hdevices, hcontroller]
    exact ⟨i, d', hcur, hd', haddress'.trans haddress⟩

/-! ## The content of the devices -/

/-- A byte of the content of a device, by its place. -/
def content (j : Nat) (offset : BitVec 8) : Option (BitVec 8) :=
  (c.devices[j]?).map (·.image (IicDevice.index offset))

/-- The access stores a byte there. -/
def Stores (a : Access) (j : Nat) (offset : BitVec 8) : Prop :=
  (∃ value, a = .ioWrite kOffData value 1) ∧ c.controller.phase = .writeData ∧
    c.controller.firstWrite = false ∧ c.controller.curDev = some j ∧
    ∃ d, c.devices[j]? = some d ∧ d.kind ≠ .status ∧ d.offset = offset

/-- Outside a data phase nothing changes a device, and in one only the current device changes. -/
theorem getElem?_step (a : Access) {j : Nat} (h : ¬ (InData c ∧ c.controller.curDev = some j)) :
    (step c a).devices[j]? = c.devices[j]? := by
  rcases step_cases c a with ⟨k, hstep, -⟩ | ⟨v, hstep⟩ | ⟨hphase, hstep⟩ |
    ⟨value, -, hphase, hstep⟩
  · rw [hstep]
  · rw [hstep, devices_startTransaction]
  · rw [hstep, getElem?_updateCurrent, if_neg fun hcur => h ⟨Or.inr hphase, hcur⟩]
  · rw [hstep, (writeData_eq c hphase _).1, getElem?_updateCurrent,
      if_neg fun hcur => h ⟨Or.inl hphase, hcur⟩]

/-- A device that takes a byte keeps the rest of its content. -/
theorem image_receive {firstWrite : Bool} {d : IicDevice} {v offset : BitVec 8}
    (h : firstWrite = false → d.kind ≠ .status → d.offset ≠ offset) :
    (d.receive firstWrite v).image (IicDevice.index offset) = d.image (IicDevice.index offset) := by
  rw [IicDevice.receive]
  split_ifs with hfirst hkind
  · rfl
  · have hne : IicDevice.index offset ≠ IicDevice.index d.offset := by
      intro heq
      have htoNat : offset.toNat = d.offset.toNat := congrArg Fin.val heq
      exact h (Bool.eq_false_iff.2 hfirst) hkind (BitVec.eq_of_toNat_eq htoNat.symm)
    simp only [Function.update_of_ne hne]
  · rfl

/-- **One step of the content**: only a store changes a byte. -/
theorem content_step {a : Access} {j : Nat} {offset : BitVec 8} (h : ¬ Stores c a j offset) :
    (step c a).content j offset = c.content j offset := by
  rw [content, content]
  rcases step_cases c a with ⟨k, hstep, -⟩ | ⟨v, hstep⟩ | ⟨hphase, hstep⟩ |
    ⟨value, ha, hphase, hstep⟩
  · rw [hstep]
  · rw [hstep, devices_startTransaction]
  · rw [hstep, getElem?_updateCurrent]
    split
    · cases c.devices[j]? <;> rfl
    · rfl
  · rw [hstep, (writeData_eq c hphase _).1, getElem?_updateCurrent]
    split
    · next hcur =>
      cases hd : c.devices[j]? with
      | none => rfl
      | some d =>
        refine congrArg some (image_receive fun hfirst hkind hoffset => h ?_)
        exact ⟨⟨value, ha⟩, hphase, hfirst, hcur, d, hd, hkind, hoffset⟩
    · rfl

/-- What a run does not store is as it was. -/
theorem content_run {j : Nat} {offset : BitVec 8} {es : List Access}
    (h : RunMeets step (fun s a => ¬ Stores s a j offset) c es) :
    (runFrom step c es).content j offset = c.content j offset :=
  h.invariant (fun s => s.content j offset = c.content j offset)
    (fun s _ heq hstep => (content_step s hstep).trans heq) rfl

/-- The bus keeps its addresses. -/
theorem map_address_step (a : Access) :
    (step c a).devices.map (·.address) = c.devices.map (·.address) := by
  have hupdate : ∀ {f : IicDevice → IicDevice} (hf : ∀ d, (f d).address = d.address),
      (c.updateCurrent f hf).devices.map (·.address) = c.devices.map (·.address) := by
    intro f hf
    rw [updateCurrent]
    split
    · rfl
    · exact map_address_modify hf _ _
  rcases step_cases c a with ⟨k, hstep, -⟩ | ⟨v, hstep⟩ | ⟨hphase, hstep⟩ |
    ⟨value, -, hphase, hstep⟩
  · rw [hstep]
  · rw [hstep, devices_startTransaction]
  · rw [hstep, hupdate]
  · rw [hstep, (writeData_eq c hphase _).1, hupdate]

/-- A run of accesses keeps the places of the addresses. -/
theorem deviceLookup_run (es : List Access) (node : BitVec 8) :
    (runFrom step c es).deviceLookup node = c.deviceLookup node := by
  have hlookup : ∀ s : IicPcf8584, s.deviceLookup node =
      (s.devices.map (·.address)).findIdx? (· == node) := fun s => by
    rw [deviceLookup, List.findIdx?_map]
    rfl
  rw [hlookup, hlookup, runFrom_frame (fun s : IicPcf8584 => s.devices.map (·.address))
    (fun s a => map_address_step s a)]

/-! ## Transactions -/

namespace IicDevice

/-- Bytes of content are written one after the other. -/
def store (d : IicDevice) (bs : List (BitVec 8)) : IicDevice := bs.foldl (receive false) d

/-- A byte of content is stored at the offset, which moves on. -/
theorem receive_false {d : IicDevice} (hkind : d.kind ≠ .status) (v : BitVec 8) :
    d.receive false v =
      { d with image := Function.update d.image (index d.offset) v, offset := d.offset + 1 } := by
  rw [receive, if_neg Bool.false_ne_true, if_pos hkind]

/-- Bytes that are written elsewhere leave a byte as it is. -/
theorem image_store_of_ne {bs : List (BitVec 8)} {d : IicDevice} {offset : BitVec 8}
    (hkind : d.kind ≠ .status)
    (h : ∀ m < bs.length, d.offset + BitVec.ofNat 8 m ≠ offset) :
    (d.store bs).image (index offset) = d.image (index offset) := by
  induction bs generalizing d with
  | nil => rfl
  | cons b bs ih =>
    have hfirst : d.offset ≠ offset := by
      have := h 0 (Nat.succ_pos _)
      rwa [BitVec.add_zero] at this
    have hrest : ∀ m < bs.length, (d.receive false b).offset + BitVec.ofNat 8 m ≠ offset := by
      intro m hm
      have := h (m + 1) (Nat.succ_lt_succ hm)
      rw [receive_false hkind]
      rwa [Nat.add_comm, BitVec.ofNat_add, ← BitVec.add_assoc] at this
    rw [store, List.foldl_cons]
    exact (ih ((kind_receive false d b).symm ▸ hkind) hrest).trans
      (image_receive fun _ _ => hfirst)

/-- What is written is what the content has then, up to the size of the device. -/
theorem image_store {bs : List (BitVec 8)} {d : IicDevice} (hkind : d.kind ≠ .status) {m : Nat}
    (hm : m < bs.length) (hlast : bs.length ≤ m + kImageSize) :
    (d.store bs).image (index (d.offset + BitVec.ofNat 8 m)) = bs[m] := by
  induction bs generalizing d m with
  | nil => exact absurd hm (Nat.not_lt_zero m)
  | cons b bs ih =>
    have hkind' : (d.receive false b).kind ≠ .status := (kind_receive false d b).symm ▸ hkind
    rw [List.length_cons] at hm hlast
    rw [store, List.foldl_cons]
    cases m with
    | zero =>
      -- no byte after it comes round to its place
      rw [BitVec.add_zero, List.getElem_cons_zero]
      refine (image_store_of_ne hkind' ?_).trans ?_
      · intro i hi
        rw [receive_false hkind]
        simp only [kImageSize] at hlast
        simp only
        bv_omega
      · rw [receive_false hkind]
        simp only [Function.update_self]
    | succ m =>
      have := ih hkind' (Nat.lt_of_succ_lt_succ hm) (by omega)
      rw [receive_false hkind] at this
      rw [receive_false hkind, List.getElem_cons_succ, ← this, Nat.add_comm m 1, BitVec.ofNat_add,
        ← BitVec.add_assoc]
      rfl

end IicDevice

/-- The control bytes of a driver: which selects the data register, which starts a transaction, and
which ends it. -/
structure Driver where
  /-- The byte that selects the data register. -/
  select : BitVec 8
  /-- The byte that starts a transaction. -/
  start : BitVec 8
  /-- The byte that ends it. -/
  stop : BitVec 8
  /-- The select enables the serial interface. -/
  select_es0 : select &&& kCtl_ES0 ≠ 0
  /-- It is no START. -/
  select_sta : select &&& kCtl_STA = 0
  /-- Nor a STOP. -/
  select_sto : select &&& kCtl_STO = 0
  /-- The start is a START. -/
  start_sta : start &&& kCtl_STA ≠ 0
  /-- The stop is no START. -/
  stop_sta : stop &&& kCtl_STA = 0
  /-- It is a STOP. -/
  stop_sto : stop &&& kCtl_STO ≠ 0

/-- A byte is written to the control register. -/
def Access.control (v : BitVec 8) : Access := .ioWrite kOffCtrlSt (v.setWidth 64) 1

/-- A byte is written to the data register. -/
def Access.data (v : BitVec 8) : Access := .ioWrite kOffData (v.setWidth 64) 1

/-- The data register is read. -/
def Access.next : Access := .ioRead kOffData 1

/-- An address is staged and sent. -/
def Driver.begin (k : Driver) (addr : BitVec 8) : List Access :=
  [.control k.select, .data addr, .control k.start]

/-- Bytes are written to a device. -/
def Driver.write (k : Driver) (node offset : BitVec 8) (bs : List (BitVec 8)) : List Access :=
  k.begin node ++ .data offset :: bs.map .data ++ [.control k.stop]

/-- Bytes are read from a device: its offset is set, and in a second transaction they are read
behind a dummy. -/
def Driver.randomRead (k : Driver) (node offset : BitVec 8) (n : Nat) : List Access :=
  k.write node offset [] ++ (k.begin (node ||| 0x01) ++ .next :: List.replicate n .next ++
    [.control k.stop])

/-- A byte passes the data bus as it is. -/
theorem byte_setWidth (v : BitVec 8) : (v.setWidth 64 &&& 0xFF).setWidth 8 = v := by
  decide +revert

/-- A byte for the control register is a control byte. -/
theorem step_control (v : BitVec 8) : step c (.control v) = c.writeControl v :=
  congrArg c.writeControl (byte_setWidth v)

/-- A byte for the data register is a data byte. -/
theorem step_data (v : BitVec 8) : step c (.data v) = c.writeData v :=
  congrArg c.writeData (byte_setWidth v)

/-- A transaction has begun with the device at this place. -/
structure Begun (c v : IicPcf8584) (addr : BitVec 8) (i : Nat) : Prop where
  /-- The devices are as before. -/
  devices : v.devices = c.devices
  /-- The device is the current one. -/
  curDev : v.controller.curDev = some i
  /-- The next byte that is written is an offset. -/
  firstWrite : v.controller.firstWrite = true
  /-- The next byte that is read is a dummy. -/
  dummyDone : v.controller.dummyDone = false
  /-- The lowest bit of the address gives the direction. -/
  phase : v.controller.phase = if addr &&& 0x01 ≠ 0 then .readData else .writeData

/-- **The address is acknowledged** by the device that has it. -/
theorem run_begin (k : Driver) {addr : BitVec 8} {i : Nat} (hidle : c.controller.phase = .idle)
    (hi : c.deviceLookup (addr &&& 0xFE) = some i) :
    Begun c (runFrom step c (k.begin addr)) addr i := by
  -- the register is selected, the address is staged, and the transaction starts
  obtain ⟨k₁, hselect, hidle₁, hcontrol₁⟩ : ∃ k₁ : Controller,
      c.writeControl k.select = { c with controller := k₁ } ∧ k₁.phase = .idle ∧
        k₁.control = k.select := by
    simp only [writeControl, k.select_sta, k.select_sto]
    rw [if_neg (not_not.2 rfl), if_neg (not_not.2 rfl)]
    split_ifs with hpin
    · exact ⟨_, rfl, hidle, rfl⟩
    · exact ⟨_, rfl, hidle, rfl⟩
  have hstage : writeData { c with controller := k₁ } addr =
      { c with controller := { k₁ with shift := addr } } := by
    simp only [writeData, hidle₁, regSelect, hcontrol₁, if_pos k.select_es0]
  rw [Driver.begin, runFrom_cons, step_control, hselect, runFrom_cons, step_data, hstage,
    runFrom_cons, step_control, runFrom_nil]
  simp only [writeControl, if_pos k.start_sta, startTransaction]
  have hlookup : deviceLookup { c with controller := { k₁ with shift := addr, control := k.start } }
      (addr &&& 0xFE) = some i := hi
  rw [hlookup]
  exact ⟨rfl, rfl, rfl, rfl, rfl⟩

/-- A transaction ends. -/
theorem writeControl_stop (k : Driver) :
    (c.writeControl k.stop).devices = c.devices ∧
      (c.writeControl k.stop).controller.phase = .idle := by
  simp only [writeControl, k.stop_sta]
  rw [if_neg (not_not.2 rfl), if_pos k.stop_sto]
  exact ⟨rfl, rfl⟩

/-- A device in its write phase. -/
structure Writing (c : IicPcf8584) (firstWrite : Bool) (i : Nat) : Prop where
  /-- It is the write phase. -/
  phase : c.controller.phase = .writeData
  /-- The device is the current one. -/
  curDev : c.controller.curDev = some i
  /-- Whether the next byte is an offset. -/
  firstWrite : c.controller.firstWrite = firstWrite

/-- A byte reaches the device. -/
theorem writing_writeData {firstWrite : Bool} {i : Nat} (h : Writing c firstWrite i)
    (v : BitVec 8) :
    Writing (c.writeData v) false i ∧
      (c.writeData v).devices[i]? = c.devices[i]?.map (·.receive firstWrite v) := by
  obtain ⟨hdevices, hcontroller⟩ := writeData_eq c h.phase v
  refine ⟨⟨?_, ?_, ?_⟩, ?_⟩
  · rw [hcontroller]
    exact h.phase
  · rw [hcontroller]
    exact h.curDev
  · rw [hcontroller]
  · rw [hdevices, getElem?_updateCurrent, if_pos h.curDev, h.firstWrite]

/-- Bytes reach the device one after the other. -/
theorem writing_run {i : Nat} (bs : List (BitVec 8)) (h : Writing c false i) :
    Writing (runFrom step c (bs.map .data)) false i ∧
      (runFrom step c (bs.map .data)).devices[i]? = c.devices[i]?.map (·.store bs) := by
  induction bs generalizing c with
  | nil => exact ⟨h, (congrFun Option.map_id c.devices[i]?).symm⟩
  | cons b bs ih =>
    obtain ⟨hnext, hdevice⟩ := writing_writeData c h b
    obtain ⟨hlast, hdevices⟩ := ih (c.writeData b) hnext
    rw [List.map_cons, runFrom_cons, step_data]
    refine ⟨hlast, ?_⟩
    rw [hdevices, hdevice, Option.map_map]
    rfl

/-- The node address of a device: its lowest bit is clear. -/
theorem node_and {node : BitVec 8} (h : node &&& 0x01 = 0) :
    node &&& 0xFE = node ∧ (node ||| 0x01) &&& 0xFE = node ∧ (node ||| 0x01) &&& 0x01 ≠ 0 := by
  decide +revert

/-- **A write transaction** leaves its bytes in the device, and the controller idle. -/
theorem run_write (k : Driver) {node : BitVec 8} {i : Nat} (hnode : node &&& 0x01 = 0)
    (hidle : c.controller.phase = .idle) (hi : c.deviceLookup node = some i) (offset : BitVec 8)
    (bs : List (BitVec 8)) :
    (runFrom step c (k.write node offset bs)).controller.phase = .idle ∧
      (runFrom step c (k.write node offset bs)).devices[i]? =
        c.devices[i]?.map fun d => (d.receive true offset).store bs := by
  have hbegun := run_begin c k hidle (by rw [(node_and hnode).1]; exact hi)
  have hwriting : Writing (runFrom step c (k.begin node)) true i := by
    refine ⟨?_, hbegun.curDev, hbegun.firstWrite⟩
    rw [hbegun.phase, if_neg (not_not.2 hnode)]
  obtain ⟨hfirst, hoffset⟩ := writing_writeData _ hwriting offset
  obtain ⟨-, hstored⟩ := writing_run _ bs hfirst
  have hrun : runFrom step c (k.write node offset bs) =
      (runFrom step ((runFrom step c (k.begin node)).writeData offset)
        (bs.map .data)).writeControl k.stop := by
    simp only [Driver.write, runFrom_append, runFrom_cons, runFrom_nil, step_control, step_data]
  rw [hrun]
  obtain ⟨hdevices, hphase⟩ := writeControl_stop
    (runFrom step ((runFrom step c (k.begin node)).writeData offset) (bs.map .data)) k
  refine ⟨hphase, ?_⟩
  rw [hdevices, hstored, hoffset, hbegun.devices, Option.map_map]
  rfl

/-- A device in its read phase. -/
structure Reading (c : IicPcf8584) (dummyDone : Bool) (i : Nat) (d : IicDevice) : Prop where
  /-- It is the read phase. -/
  phase : c.controller.phase = .readData
  /-- The device is the current one. -/
  curDev : c.controller.curDev = some i
  /-- Whether the dummy has been taken. -/
  dummyDone : c.controller.dummyDone = dummyDone
  /-- What the device is now. -/
  device : c.devices[i]? = some d

/-- The first byte that is read is a dummy. -/
theorem access_dummy {i : Nat} {d : IicDevice} (h : Reading c false i d) :
    Reading (c.access .next).1 true i d ∧ (c.access .next).2 = [0xFF] := by
  have hread : c.readData =
      ({ c with controller := { c.controller with dummyDone := true } }, 0xFF) := by
    simp only [readData, h.phase, h.dummyDone]
    rw [if_neg Bool.false_ne_true]
  have haccess : c.access .next = (c.readData.1, [c.readData.2]) := rfl
  rw [haccess, hread]
  exact ⟨⟨h.phase, h.curDev, rfl, h.device⟩, rfl⟩

/-- The bytes behind it are the content. -/
theorem access_next {i : Nat} {d : IicDevice} (h : Reading c true i d) :
    Reading (c.access .next).1 true i d.advance ∧ (c.access .next).2 = [d.next.setWidth 64] := by
  have hcurrent : c.current = some d := by
    rw [current, h.curDev]
    exact h.device
  have hread : c.readData =
      (c.updateCurrent IicDevice.advance IicDevice.address_advance, d.next.setWidth 64) := by
    simp only [readData, h.phase, h.dummyDone, hcurrent]
    rfl
  have haccess : c.access .next = (c.readData.1, [c.readData.2]) := rfl
  rw [haccess, hread]
  refine ⟨⟨?_, ?_, ?_, ?_⟩, rfl⟩
  · rw [controller_updateCurrent]
    exact h.phase
  · rw [controller_updateCurrent]
    exact h.curDev
  · rw [controller_updateCurrent]
    exact h.dummyDone
  · rw [getElem?_updateCurrent, if_pos h.curDev, h.device]
    rfl

/-- The answers of a read phase. -/
theorem answers_reading {i : Nat} {d : IicDevice} (n : Nat) (h : Reading c true i d) :
    (Rewriting.transduce access c (List.replicate n .next)).2 =
      (List.range n).map fun m =>
        (d.image (IicDevice.index (d.offset + BitVec.ofNat 8 m))).setWidth 64 := by
  induction n generalizing c d with
  | zero => rfl
  | succ n ih =>
    obtain ⟨hnext, hanswer⟩ := access_next c h
    rw [List.replicate_succ, Rewriting.transduce_cons, hanswer, ih _ hnext, List.range_succ_eq_map,
      List.map_cons, List.map_map, List.singleton_append, IicDevice.next, BitVec.add_zero]
    refine congrArg (List.cons _) (List.map_congr_left fun m _ => ?_)
    rw [Function.comp, Nat.succ_eq_add_one, Nat.add_comm m 1, BitVec.ofNat_add, ← BitVec.add_assoc]
    rfl

/-- The answers of accesses are those of their parts. -/
theorem answers_append (es fs : List Access) :
    (Rewriting.transduce access c (es ++ fs)).2 =
      (Rewriting.transduce access c es).2 ++
        (Rewriting.transduce access (runFrom step c es) fs).2 := by
  rw [Rewriting.transduce_append]
  rfl

/-- Writes have no answer. -/
theorem answers_writes {es : List Access}
    (h : ∀ a ∈ es, ∃ port value width, a = .ioWrite port value width) :
    (Rewriting.transduce access c es).2 = [] := by
  induction es generalizing c with
  | nil => rfl
  | cons a es ih =>
    obtain ⟨port, value, width, rfl⟩ := h a List.mem_cons_self
    rw [Rewriting.transduce_cons, ih _ fun a ha => h a (List.mem_cons_of_mem _ ha)]
    rfl

/-- **A random read** answers with the content of the device, behind the dummy. -/
theorem answers_randomRead (k : Driver) {node : BitVec 8} {i : Nat} {d : IicDevice}
    (hnode : node &&& 0x01 = 0) (hidle : c.controller.phase = .idle)
    (hi : c.deviceLookup node = some i) (hd : c.devices[i]? = some d) (offset : BitVec 8) (n : Nat) :
    (Rewriting.transduce access c (k.randomRead node offset n)).2 =
      0xFF :: (List.range n).map fun m =>
        (d.image (IicDevice.index (offset + BitVec.ofNat 8 m))).setWidth 64 := by
  obtain ⟨hidle', hdevice⟩ := run_write c k hnode hidle hi offset []
  rw [hd] at hdevice
  have hlookup := deviceLookup_run c (k.write node offset []) node
  obtain ⟨-, hnode', hread⟩ := node_and hnode
  have hwrites : ∀ (addr : BitVec 8), ∀ a ∈ k.begin addr,
      ∃ port value width, a = .ioWrite port value width := by
    intro addr a ha
    simp only [Driver.begin, List.mem_cons, List.not_mem_nil, or_false] at ha
    rcases ha with rfl | rfl | rfl <;> exact ⟨_, _, _, rfl⟩
  have hwrite : (Rewriting.transduce access c (k.write node offset [])).2 = [] := by
    refine answers_writes c fun a ha => ?_
    simp only [Driver.write, List.map_nil, List.mem_append, List.mem_cons, List.not_mem_nil,
      or_false] at ha
    rcases ha with (ha | rfl) | rfl
    · exact hwrites node a ha
    · exact ⟨_, _, _, rfl⟩
    · exact ⟨_, _, _, rfl⟩
  rw [Driver.randomRead, answers_append, hwrite, List.nil_append]
  generalize runFrom step c (k.write node offset []) = c' at hidle' hdevice hlookup
  have hbegun := run_begin c' k hidle' (by rw [hnode', hlookup, hi])
  have hreading : Reading (runFrom step c' (k.begin (node ||| 0x01))) false i
      (d.receive true offset) := by
    refine ⟨?_, hbegun.curDev, hbegun.dummyDone, ?_⟩
    · rw [hbegun.phase, if_pos hread]
    · rw [hbegun.devices, hdevice]
      rfl
  obtain ⟨hdummy, hfirst⟩ := access_dummy _ hreading
  rw [answers_append, answers_append, answers_writes c' (hwrites (node ||| 0x01)),
    List.nil_append, Rewriting.transduce_cons, hfirst, answers_reading _ n hdummy, answers_writes]
  · rw [List.append_nil]
    rfl
  · intro a ha
    rw [List.mem_singleton.1 ha]
    exact ⟨_, _, _, rfl⟩

/-- **A random read returns what a transaction has written**, if it has not been written since. -/
theorem answers_randomRead_write (k : Driver) {node : BitVec 8} {i : Nat} {d : IicDevice}
    (hnode : node &&& 0x01 = 0) (hi : c.deviceLookup node = some i) (hd : c.devices[i]? = some d)
    (hkind : d.kind ≠ .status) (hidle : c.controller.phase = .idle) (offset : BitVec 8)
    {bs : List (BitVec 8)} (es : List Access) {m : Nat} (hm : m < bs.length)
    (hlast : bs.length ≤ m + kImageSize)
    (hkeep : RunMeets step (fun s a => ¬ Stores s a i (offset + BitVec.ofNat 8 m))
      (runFrom step c (k.write node offset bs)) es)
    (hidle' : (runFrom step (runFrom step c (k.write node offset bs)) es).controller.phase =
      .idle) :
    (Rewriting.transduce access (runFrom step (runFrom step c (k.write node offset bs)) es)
      (k.randomRead node (offset + BitVec.ofNat 8 m) 1)).2 = [0xFF, (bs[m]).setWidth 64] := by
  obtain ⟨-, hdevice⟩ := run_write c k hnode hidle hi offset bs
  have hlookup : (runFrom step (runFrom step c (k.write node offset bs)) es).deviceLookup node =
      some i := by
    rw [deviceLookup_run, deviceLookup_run, hi]
  generalize runFrom step c (k.write node offset bs) = w at hdevice hkeep hidle' hlookup ⊢
  have hkind' : (d.receive true offset).kind ≠ .status := hkind
  have hcontent : w.content i (offset + BitVec.ofNat 8 m) = some bs[m] := by
    rw [content, hdevice, hd]
    exact congrArg some (IicDevice.image_store hkind' hm hlast)
  rw [← content_run w hkeep, content] at hcontent
  obtain ⟨d', hd', himage⟩ := Option.map_eq_some_iff.1 hcontent
  rw [answers_randomRead _ k hnode hidle' hlookup hd']
  simp only [List.range_one, List.map_cons, List.map_nil, BitVec.add_zero, himage]

/-! ## The main result -/

/-- A START for an address that no device has is not acknowledged. -/
theorem phase_start_of_none (k : Driver)
    (h : c.deviceLookup (c.controller.shift &&& 0xFE) = none) :
    (step c (.control k.start)).controller.phase = .addrNak ∧
      (step c (.control k.start)).devices = c.devices := by
  rw [step_control]
  simp only [writeControl, if_pos k.start_sta]
  refine ⟨?_, devices_startTransaction _⟩
  have hlookup : deviceLookup { c with controller := { c.controller with control := k.start } }
      (c.controller.shift &&& 0xFE) = none := h
  simp only [startTransaction, hlookup]

/-- No access changes a status register. -/
theorem content_step_of_status (a : Access) {j : Nat} {d : IicDevice} (hd : c.devices[j]? = some d)
    (hkind : d.kind = .status) (offset : BitVec 8) :
    (step c a).content j offset = some (d.image (IicDevice.index offset)) := by
  rw [content_step c fun hstores => ?_, content, hd]
  · rfl
  · obtain ⟨-, -, -, -, d', hd', hkind', -⟩ := hstores
    rw [hd] at hd'
    cases hd'
    exact hkind' hkind

/-- **The bus**, after any accesses since a reset:

* in a data phase the index of the current device is valid, and the device is that at the staged
  address;
* an address that no device has is not acknowledged;
* outside a data phase, that is behind such an address and in the idle phase, no access changes any
  device;
* no access changes a device other than the current one, and none the content of a status register;
* a status read changes nothing;
* what a transaction writes to an EEPROM or an NVRAM, a later random read at that offset returns,
  unless it has been written since. -/
theorem iic_bus (es : List Access) :
    let v := runFrom step c.reset es
    Valid v ∧
      (∀ (k : Driver), v.deviceLookup (v.controller.shift &&& 0xFE) = none →
        (step v (.control k.start)).controller.phase = .addrNak ∧
          (step v (.control k.start)).devices = v.devices) ∧
      (v.controller.phase = .addrNak ∨ v.controller.phase = .idle → ∀ (a : Access) (j : Nat),
        (step v a).devices[j]? = v.devices[j]?) ∧
      (∀ (a : Access) (j : Nat), v.controller.curDev ≠ some j →
        (step v a).devices[j]? = v.devices[j]?) ∧
      (∀ (a : Access) (j : Nat) (d : IicDevice), v.devices[j]? = some d → d.kind = .status →
        ∀ offset, (step v a).content j offset = some (d.image (IicDevice.index offset))) ∧
      (∀ width, step v (.ioRead kOffCtrlSt width) = v) ∧
      ∀ (k : Driver) (node : BitVec 8) (i : Nat) (d : IicDevice), node &&& 0x01 = 0 →
        v.deviceLookup node = some i → v.devices[i]? = some d → d.kind ≠ .status →
        v.controller.phase = .idle →
        ∀ (offset : BitVec 8) (bs : List (BitVec 8)) (es' : List Access) (m : Nat)
          (hm : m < bs.length), bs.length ≤ m + kImageSize →
          let w := runFrom step v (k.write node offset bs)
          RunMeets step (fun s a => ¬ Stores s a i (offset + BitVec.ofNat 8 m)) w es' →
          (runFrom step w es').controller.phase = .idle →
          (Rewriting.transduce access (runFrom step w es')
            (k.randomRead node (offset + BitVec.ofNat 8 m) 1)).2 =
              [0xFF, (bs[m]).setWidth 64] := by
  intro v
  have hvalid : Valid v := runFrom_invariant Valid (fun s a h => valid_step s a h) es
    (fun h => by rcases h with h | h <;> cases h)
  refine ⟨hvalid, fun k hnone => v.phase_start_of_none k hnone, fun houtside a j => ?_,
    fun a j hj => getElem?_step v a fun h => hj h.2,
    fun a j d hd hkind offset => v.content_step_of_status a hd hkind offset, fun width => ?_, ?_⟩
  · refine getElem?_step v a fun h => ?_
    rcases houtside with houtside | houtside <;> rcases h.1 with h | h <;>
      cases houtside.symm.trans h
  · rw [step, access, ioRead]
    split
    · rfl
    · rw [if_pos rfl]
  · intro k node i d hnode hi hd hkind hidle offset bs es' m hm hlast w hkeep hidle'
    exact v.answers_randomRead_write k hnode hi hd hkind hidle offset es' hm hlast hkeep hidle'

/-- The control bytes of the firmware. -/
def firmware : Driver where
  select := kCtl_ES0
  start := 0xC5
  stop := 0xC3
  select_es0 := by decide
  select_sta := by decide
  select_sto := by decide
  start_sta := by decide
  stop_sta := by decide
  stop_sto := by decide

/-- A bus with a status register and two NVRAMs. -/
def testBus : IicPcf8584 where
  devices := [⟨0x72, .status, fun _ => 0x33, 0⟩, ⟨0xC0, .nvram, fun _ => 0, 0⟩,
    ⟨0xC2, .nvram, fun _ => 0, 0⟩]

/-- A status register does not return what is written to it. Behind a repeated START the address of
one NVRAM becomes an offset in the other, and the offset becomes its content. -/
theorem status_register_absorbs :
    (Rewriting.transduce access testBus
        (firmware.write 0x72 0 [0xEE] ++ firmware.randomRead 0x72 0 1)).2 = [0xFF, 0x33] ∧
      (runFrom step testBus (firmware.begin 0xC0 ++
          [.data 0x10, .control 0x45, .data 0xC2, .data 0x20])).content 1 0xC2 = some 0x20 := by
  decide

end IicPcf8584

end EmulatR
