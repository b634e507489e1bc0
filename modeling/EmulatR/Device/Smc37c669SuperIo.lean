import EmulatR.Device.Floppy82077

/-! # The SuperIO chip

The configuration registers of the SuperIO chip, which share two ports with the floppy controller
behind it (deviceLib/Tsunami/Smc37c669SuperIo.h). A driver finds the chip by reading its device ID
from configuration register 0x0D.

The register file stores whatever is written, the ID too. `detection_iff` says that this is all that
can spoil the detection: it works all along a run of accesses iff none of them stores another value
there. -/

namespace EmulatR

open Library

/-- The configuration registers, with the floppy controller behind the same ports. -/
structure Smc37c669SuperIo where
  /-- The floppy controller. -/
  fdc : Floppy82077
  /-- The configuration registers. -/
  creg : BitVec 8 → BitVec 8
  /-- The selected register. -/
  index : BitVec 8
  /-- The ports lead to the configuration registers. -/
  configMode : Bool
  /-- The keys that have been written to enter that mode. -/
  enterCount : Nat

namespace Smc37c669SuperIo

/-- The index port. -/
def kIndexPort : BitVec 16 := 0x3F0
/-- The data port. -/
def kDataPort : BitVec 16 := 0x3F1
/-- The key that enters the configuration mode, written twice. -/
def kConfigOnKey : BitVec 8 := 0x55
/-- The key that leaves it. -/
def kConfigOffKey : BitVec 8 := 0xAA
/-- The register with the device identification. -/
def kDeviceIdIndex : BitVec 8 := 0x0D
/-- The identification. -/
def kDeviceId : BitVec 8 := 0x03

/-- A new chip; the firmware before it has left it in configuration mode. -/
def init : Smc37c669SuperIo :=
  { fdc := .init
    creg := fun i =>
      if i = 0x0D then 0x03 else if i = 0x20 then 0x02 else if i = 0x21 then 0x01 else 0
    index := 0, configMode := true, enterCount := 0 }

variable (s : Smc37c669SuperIo)

/-- A read of a byte. -/
def readByte (port : BitVec 16) : Smc37c669SuperIo × BitVec 8 :=
  if s.configMode ∧ port = kIndexPort then (s, s.index)
  else if s.configMode ∧ port = kDataPort then (s, s.creg s.index)
  else ({ s with fdc := (s.fdc.ioRead port 1).1 }, (s.fdc.ioRead port 1).2.setWidth 8)

/-- A byte for the floppy controller. -/
def toFdc (port : BitVec 16) (v : BitVec 8) : Smc37c669SuperIo :=
  { s with fdc := s.fdc.ioWrite port (v.setWidth 64) 1 }

/-- A write of a byte. -/
def writeByte (port : BitVec 16) (v : BitVec 8) : Smc37c669SuperIo :=
  if s.configMode then
    if port = kIndexPort then
      if v = kConfigOffKey then { s with configMode := false } else { s with index := v }
    else if port = kDataPort then { s with creg := Function.update s.creg s.index v }
    else s.toFdc port v
  else if port = kIndexPort ∧ v = kConfigOnKey then
    -- the second key in succession opens the configuration mode
    if 2 ≤ s.enterCount + 1 then { s with configMode := true, enterCount := 0 }
    else { s with enterCount := s.enterCount + 1 }
  else if port = kIndexPort then { s with enterCount := 0 }.toFdc port v
  else s.toFdc port v

/-- The first `n` bytes of a wide read. -/
def readBytes (port : BitVec 16) : Nat → Smc37c669SuperIo × Word
  | 0 => (s, 0)
  | n + 1 =>
    let out := readBytes port n
    let r := out.1.readByte (port + BitVec.ofNat 16 n)
    (r.1, out.2 ||| r.2.setWidth 64 <<< (8 * n))

/-- The first `n` bytes of a wide write. -/
def writeBytes (port : BitVec 16) (value : Word) : Nat → Smc37c669SuperIo
  | 0 => s
  | n + 1 =>
    (writeBytes port value n).writeByte (port + BitVec.ofNat 16 n) ((value >>> (8 * n)).setWidth 8)

/-- Only a wide access to the index port is split into bytes. -/
def ioRead (port : BitVec 16) (width : BitVec 8) : Smc37c669SuperIo × Word :=
  if port = kIndexPort ∧ 1 < width.toNat then s.readBytes port width.toNat
  else if port = kIndexPort ∨ port = kDataPort then
    ((s.readByte port).1, (s.readByte port).2.setWidth 64)
  else ({ s with fdc := (s.fdc.ioRead port width).1 }, (s.fdc.ioRead port width).2)

/-- A write of a port: byte by byte at the index port, one byte elsewhere. -/
def ioWrite (port : BitVec 16) (value : Word) (width : BitVec 8) : Smc37c669SuperIo :=
  if port = kIndexPort ∧ 1 < width.toNat then s.writeBytes port value width.toNat
  else if port = kIndexPort ∨ port = kDataPort then s.writeByte port (value.setWidth 8)
  else { s with fdc := s.fdc.ioWrite port value width }

/-- The chip after an access. -/
def access : PortAccess → Smc37c669SuperIo
  | .read port width => (s.ioRead port width).1
  | .write port value width => s.ioWrite port value width

/-! ## Detection -/

/-- The sequence of the drivers: the key twice, the index of the ID, the read, the key that leaves
the configuration mode. -/
def detect : Smc37c669SuperIo × Word :=
  let s1 := s.ioWrite kIndexPort (kConfigOnKey.setWidth 64) 1
  let s2 := s1.ioWrite kIndexPort (kConfigOnKey.setWidth 64) 1
  let s3 := s2.ioWrite kIndexPort (kDeviceIdIndex.setWidth 64) 1
  let r := s3.ioRead kDataPort 1
  (r.1.ioWrite kIndexPort (kConfigOffKey.setWidth 64) 1, r.2)

/-- The sequence reads the ID and leaves the configuration mode, and word accesses to the index port
are the two byte accesses. -/
structure DetectLaw : Prop where
  /-- The probe finds the device. -/
  deviceId : s.detect.2 = kDeviceId.setWidth 64
  /-- It leaves the configuration mode. -/
  left : s.detect.1.configMode = false
  /-- A word for the index port writes index and data. -/
  writeWord : ∀ value, s.ioWrite kIndexPort value 2 =
    (s.ioWrite kIndexPort value 1).ioWrite kDataPort (value >>> 8) 1
  /-- A word from it reads both. -/
  readWord : s.ioRead kIndexPort 2 =
    (((s.ioRead kIndexPort 1).1.ioRead kDataPort 1).1,
      (s.ioRead kIndexPort 1).2 ||| ((s.ioRead kIndexPort 1).1.ioRead kDataPort 1).2 <<< 8)

/-! ## The registers -/

section Registers

/-- Two states that differ in the floppy controller only. -/
structure SameRegisters (s t : Smc37c669SuperIo) : Prop where
  /-- The configuration registers agree. -/
  creg : t.creg = s.creg
  /-- So does the selected one. -/
  index : t.index = s.index
  /-- So does the mode. -/
  configMode : t.configMode = s.configMode
  /-- So does the count of keys. -/
  enterCount : t.enterCount = s.enterCount

namespace SameRegisters

variable {s t u : Smc37c669SuperIo}

/-- A chip has its own registers. -/
theorem refl (s : Smc37c669SuperIo) : SameRegisters s s := ⟨rfl, rfl, rfl, rfl⟩

/-- Having the same registers is transitive. -/
theorem trans (h : SameRegisters s t) (h' : SameRegisters t u) : SameRegisters s u :=
  ⟨h'.creg.trans h.creg, h'.index.trans h.index, h'.configMode.trans h.configMode,
    h'.enterCount.trans h.enterCount⟩

end SameRegisters

variable (s : Smc37c669SuperIo)

/-- A write to the floppy controller keeps the registers. -/
theorem sameRegisters_toFdc (port : BitVec 16) (v : BitVec 8) : SameRegisters s (s.toFdc port v) :=
  ⟨rfl, rfl, rfl, rfl⟩

/-- A read of a byte keeps the registers. -/
theorem sameRegisters_readByte (port : BitVec 16) : SameRegisters s (s.readByte port).1 := by
  unfold readByte
  split_ifs
  · exact .refl s
  · exact .refl s
  · exact ⟨rfl, rfl, rfl, rfl⟩

/-- A read of several bytes keeps the registers. -/
theorem sameRegisters_readBytes (port : BitVec 16) (n : Nat) :
    SameRegisters s (s.readBytes port n).1 := by
  induction n with
  | zero => exact .refl s
  | succ n ih => exact ih.trans (sameRegisters_readByte _ _)

/-- A read of a port keeps the registers. -/
theorem sameRegisters_ioRead (port : BitVec 16) (width : BitVec 8) :
    SameRegisters s (s.ioRead port width).1 := by
  unfold ioRead
  split_ifs
  · exact sameRegisters_readBytes s port _
  · exact sameRegisters_readByte s port
  · exact ⟨rfl, rfl, rfl, rfl⟩

/-- Beyond the index and the data port a byte goes to the floppy controller. -/
theorem writeByte_of_ne {port : BitVec 16} (hindex : port ≠ kIndexPort) (hdata : port ≠ kDataPort)
    (v : BitVec 8) : s.writeByte port v = s.toFdc port v := by
  simp [writeByte, hindex, hdata]

/-- Several bytes are written one after the other. -/
theorem writeBytes_succ (port : BitVec 16) (value : Word) (n : Nat) :
    s.writeBytes port value (n + 1) =
      (s.writeBytes port value n).writeByte (port + BitVec.ofNat 16 n)
        ((value >>> (8 * n)).setWidth 8) := rfl

/-- From its third byte on a wide write at the index port goes to the floppy controller. -/
theorem sameRegisters_writeBytes (value : Word) {n : Nat} (hn : 2 ≤ n) (hlt : n < 256) :
    SameRegisters (s.writeBytes kIndexPort value 2) (s.writeBytes kIndexPort value n) := by
  induction n, hn using Nat.le_induction with
  | base => exact .refl _
  | succ n hn ih =>
    have hindex : kIndexPort + BitVec.ofNat 16 n ≠ kIndexPort := by
      intro h
      have := congrArg BitVec.toNat h
      simp [kIndexPort, BitVec.toNat_add] at this
      omega
    have hdata : kIndexPort + BitVec.ofNat 16 n ≠ kDataPort := by
      intro h
      have := congrArg BitVec.toNat h
      simp [kIndexPort, kDataPort, BitVec.toNat_add] at this
      omega
    rw [writeBytes_succ s kIndexPort value n, writeByte_of_ne _ hindex hdata]
    exact (ih (by omega)).trans (sameRegisters_toFdc _ _ _)

/-- The first two bytes of a wide write are the bytes at the index and at the data port. -/
theorem writeBytes_two (value : Word) :
    s.writeBytes kIndexPort value 2 =
      (s.writeByte kIndexPort (value.setWidth 8)).writeByte kDataPort
        ((value >>> 8).setWidth 8) := by
  simp [writeBytes, kIndexPort, kDataPort]

/-- Two bytes are read one after the other. -/
theorem readBytes_two :
    s.readBytes kIndexPort 2 =
      (((s.readByte kIndexPort).1.readByte kDataPort).1,
        (s.readByte kIndexPort).2.setWidth 64 |||
          ((s.readByte kIndexPort).1.readByte kDataPort).2.setWidth 64 <<< 8) := by
  simp [readBytes, kIndexPort, kDataPort]

end Registers

/-! ## What detection reads -/

section Detect

variable (s : Smc37c669SuperIo)

/-- A byte for the index port is written there. -/
theorem ioWrite_index (v : BitVec 8) :
    s.ioWrite kIndexPort (v.setWidth 64) 1 = s.writeByte kIndexPort v := by
  simp [ioWrite]

/-- A value for the data port writes its low byte. -/
theorem ioWrite_data (value : Word) (width : BitVec 8) :
    s.ioWrite kDataPort value width = s.writeByte kDataPort (value.setWidth 8) := by
  simp [ioWrite, kDataPort, kIndexPort]

/-- A read of the data port reads a byte. -/
theorem ioRead_data (width : BitVec 8) :
    s.ioRead kDataPort width = ((s.readByte kDataPort).1, (s.readByte kDataPort).2.setWidth 64) := by
  simp [ioRead, kDataPort, kIndexPort]

/-- The key, twice in succession, opens the configuration mode, also where it is open or one key
has been seen already. It writes no register. -/
theorem key_twice :
    ((s.writeByte kIndexPort kConfigOnKey).writeByte kIndexPort kConfigOnKey).configMode = true ∧
      ((s.writeByte kIndexPort kConfigOnKey).writeByte kIndexPort kConfigOnKey).creg = s.creg := by
  cases hmode : s.configMode
  · by_cases hcount : 2 ≤ s.enterCount + 1
    · simp [writeByte, hmode, hcount, kConfigOnKey, kConfigOffKey]
    · simp [writeByte, hmode, hcount]
  · simp [writeByte, hmode, kConfigOnKey, kConfigOffKey]

/-- In configuration mode the index and the read of the data port give a register. -/
theorem readByte_writeByte {s : Smc37c669SuperIo} (hmode : s.configMode = true) {i : BitVec 8}
    (hi : i ≠ kConfigOffKey) :
    (s.writeByte kIndexPort i).readByte kDataPort = ({ s with index := i }, s.creg i) := by
  simp [writeByte, readByte, hmode, hi, kDataPort, kIndexPort]

/-- The second key leaves the configuration mode. -/
theorem writeByte_off {s : Smc37c669SuperIo} (hmode : s.configMode = true) :
    (s.writeByte kIndexPort kConfigOffKey).configMode = false := by
  simp [writeByte, hmode]

/-- **Detection reads the register of the ID**, whatever the state, and leaves the configuration
mode. -/
theorem detect_spec :
    s.detect.2 = (s.creg kDeviceIdIndex).setWidth 64 ∧ s.detect.1.configMode = false := by
  obtain ⟨hmode, hcreg⟩ := key_twice s
  simp only [detect, ioWrite_index, ioRead_data]
  rw [readByte_writeByte hmode (by decide), hcreg]
  exact ⟨rfl, writeByte_off hmode⟩

/-- A word write at the index port is two byte writes. -/
theorem ioWrite_word (value : Word) :
    s.ioWrite kIndexPort value 2 =
      (s.ioWrite kIndexPort value 1).ioWrite kDataPort (value >>> 8) 1 := by
  rw [ioWrite_data]
  simp [ioWrite, writeBytes_two]

/-- A word from the index port is a byte from there and one from the data port. -/
theorem ioRead_word :
    s.ioRead kIndexPort 2 =
      (((s.ioRead kIndexPort 1).1.ioRead kDataPort 1).1,
        (s.ioRead kIndexPort 1).2 ||| ((s.ioRead kIndexPort 1).1.ioRead kDataPort 1).2 <<< 8) := by
  rw [ioRead_data]
  simp [ioRead, readBytes_two]

/-- The law holds exactly where the register of the ID still holds it. -/
theorem detectLaw_iff : s.DetectLaw ↔ s.creg kDeviceIdIndex = kDeviceId := by
  obtain ⟨hid, hleft⟩ := detect_spec s
  constructor
  · intro h
    have hread : (s.creg kDeviceIdIndex).setWidth 64 = kDeviceId.setWidth 64 := hid ▸ h.deviceId
    simpa using congrArg (BitVec.setWidth 8) hread
  · intro h
    exact ⟨by rw [hid, h], hleft, ioWrite_word s, ioRead_word s⟩

end Detect

/-! ## Runs -/

section Runs

variable (s : Smc37c669SuperIo)

/-- After this byte at the index port the data port is the register of the ID. -/
def Selects (v : BitVec 8) : Prop :=
  (s.configMode ∧ v = kDeviceIdIndex) ∨
    (¬ s.configMode ∧ v = kConfigOnKey ∧ 1 ≤ s.enterCount ∧ s.index = kDeviceIdIndex)

/-- The access stores a value other than the ID in its register: by a byte at the data port, or by
the second byte of a wide write at the index port. -/
def StoresId : PortAccess → Prop
  | .read _ _ => False
  | .write port value width =>
    (port = kDataPort ∧ s.configMode ∧ s.index = kDeviceIdIndex ∧ value.setWidth 8 ≠ kDeviceId) ∨
      (port = kIndexPort ∧ 1 < width.toNat ∧ s.Selects (value.setWidth 8) ∧
        (value >>> 8).setWidth 8 ≠ kDeviceId)

/-- A byte at the index port writes no register, and selects that of the ID as `Selects` says. -/
theorem writeByte_index (v : BitVec 8) :
    (s.writeByte kIndexPort v).creg = s.creg ∧
      (((s.writeByte kIndexPort v).configMode ∧ (s.writeByte kIndexPort v).index = kDeviceIdIndex) ↔
        s.Selects v) := by
  cases hmode : s.configMode
  · by_cases hkey : v = kConfigOnKey
    · by_cases hcount : 1 ≤ s.enterCount <;> simp [writeByte, Selects, hmode, hkey, hcount]
    · simp [writeByte, Selects, toFdc, hmode, hkey]
  · by_cases hkey : v = kConfigOffKey
    · subst hkey
      simp [writeByte, Selects, hmode, kConfigOffKey, kDeviceIdIndex]
    · simp [writeByte, Selects, hmode, hkey]

/-- A byte at the data port spoils the ID iff its register is selected and the byte is another. -/
theorem writeByte_data {s : Smc37c669SuperIo} (h : s.creg kDeviceIdIndex = kDeviceId)
    (v : BitVec 8) :
    (s.writeByte kDataPort v).creg kDeviceIdIndex = kDeviceId ↔
      ¬ ((s.configMode ∧ s.index = kDeviceIdIndex) ∧ v ≠ kDeviceId) := by
  have hne : ¬ kDataPort = kIndexPort := by decide
  cases hmode : s.configMode
  · simp [writeByte, toFdc, hmode, h, hne]
  · by_cases hindex : s.index = kDeviceIdIndex
    · simp [writeByte, hmode, hne, hindex]
    · simp [writeByte, hmode, hne, hindex, Function.update_of_ne (Ne.symm hindex), h]

/-- One access keeps the ID iff it does not store another value there. -/
theorem access_creg {s : Smc37c669SuperIo} (h : s.creg kDeviceIdIndex = kDeviceId)
    (a : PortAccess) :
    (s.access a).creg kDeviceIdIndex = kDeviceId ↔ ¬ s.StoresId a := by
  cases a with
  | read port width =>
    rw [access, (sameRegisters_ioRead s port width).creg]
    exact iff_of_true h not_false
  | write port value width =>
    have hne : ¬ kIndexPort = kDataPort := by decide
    simp only [access, ioWrite, StoresId]
    by_cases hindex : port = kIndexPort
    · subst hindex
      obtain ⟨hcreg, hsel⟩ := writeByte_index s (value.setWidth 8)
      by_cases hwide : 1 < width.toNat
      · have hsame := sameRegisters_writeBytes s value hwide width.isLt
        rw [if_pos ⟨rfl, hwide⟩, hsame.creg, writeBytes_two, writeByte_data (by rw [hcreg, h]),
          hsel]
        simp [hne, hwide]
      · simp [hwide, hne, hcreg, h]
    · by_cases hdata : port = kDataPort
      · subst hdata
        simp [Ne.symm hne, writeByte_data h, and_assoc]
      · simp [hindex, hdata, h]

/-- **Detection works all along a history of accesses iff none of them stores another value in the
register of the ID.** -/
theorem detection_iff (es : List PortAccess) :
    (∀ done, done <+: es → (runFrom access init done).DetectLaw) ↔
      RunMeets access (fun s a => ¬ s.StoresId a) init es := by
  have hstep : ∀ (s : Smc37c669SuperIo) (a : PortAccess), s.creg kDeviceIdIndex = kDeviceId → True →
      ((s.access a).creg kDeviceIdIndex = kDeviceId ↔ ¬ s.StoresId a) := fun _ a h _ =>
    access_creg h a
  have hinit : init.creg kDeviceIdIndex = kDeviceId := rfl
  simp only [detectLaw_iff]
  exact forall_prefix_iff_runMeets hstep (fun _ _ _ _ => trivial) hinit trivial es

/-- One word written to a new chip, index 0x0D and data 0x00, and detection reads 0x00. -/
theorem not_detectLaw_word :
    ¬ (runFrom access init [.write kIndexPort 0x000D 2]).DetectLaw := by
  intro h
  have hread := h.deviceId
  revert hread
  decide

end Runs

end Smc37c669SuperIo

end EmulatR
