import EmulatR.Core.CpuState
import EmulatR.Library.Json
import EmulatR.Library.UniqueIndex

/-! # The platform manifest

The loader of the platform manifest (systemLib/PlatformConfig.cpp): the entries it reads from a
JSON document, what it reports while reading and while validating them, and the default it falls
back to. The JSON parser and the text functions of Qt are parameters.

`DeviceManifest` is the manifest, `parseManifest` the reading, `validate` the check and `Qt` the
parameter. -/

namespace EmulatR

open Library

/-! ## The manifest -/

/-- The classes of IIC devices. -/
inductive IicClass
  | fruEeprom | nvram | status | led
  deriving DecidableEq, Repr

/-- An IIC device of the manifest. -/
structure IicDeviceEntry where
  /-- Its name. -/
  name : String := ""
  /-- Its bus address. -/
  address : BitVec 8 := 0
  /-- Its class. -/
  cls : IicClass := .status
  /-- The manufacturer in its FRU image. -/
  manufacturer : String := ""
  /-- The model there. -/
  model : String := ""
  /-- The class of the part. -/
  partClass : String := ""
  /-- The serial number. -/
  serial : String := ""
  /-- The revision of the read-only part. -/
  revisionRo : BitVec 8 := 0
  /-- The revision of the writable part. -/
  revisionRw : BitVec 8 := 0
  /-- The size of the content. -/
  size : BitVec 32 := 256
  /-- The byte of a status register. -/
  statusByte : BitVec 8 := 0
  deriving DecidableEq, Repr

/-- A base address register of a PCI device. -/
structure PciBarEntry where
  /-- Which of the six it is. -/
  index : BitVec 8 := 0
  /-- It decodes memory, and not I/O space. -/
  isMem : Bool := false
  /-- The size of its window. -/
  size : BitVec 32 := 0
  /-- The window can be prefetched. -/
  prefetch : Bool := false
  deriving DecidableEq, Repr

/-- The models of PCI devices; the text of a named one is kept beside. -/
inductive PciModel
  | generic | passive | named
  deriving DecidableEq, Repr

/-- The types of drives. -/
inductive StorageType
  | atapiCdrom | ataDisk
  deriving DecidableEq, Repr

/-- A drive on a controller. -/
structure StorageTarget where
  /-- The channel it is on. -/
  channel : BitVec 8 := 0
  /-- The unit of the channel. -/
  unit : BitVec 8 := 0
  /-- The logical unit. -/
  lun : BitVec 8 := 0
  /-- The type of the drive. -/
  type : StorageType := .atapiCdrom
  /-- Its model. -/
  model : String := ""
  /-- The file of its medium. -/
  media : String := ""
  /-- The kind of file. -/
  mediaKind : String := ""
  /-- It is attached. -/
  enabled : Bool := true
  /-- The file is created if there is none. -/
  createIfMissing : Bool := false
  /-- The size it is created with. -/
  sizeBytes : Word := 0
  deriving DecidableEq, Repr

/-- A PCI device of the manifest. -/
structure PciDeviceEntry where
  /-- Its name. -/
  name : String := ""
  /-- Its model. -/
  model : PciModel := .generic
  /-- The text of a model that has a name only. -/
  modelName : String := ""
  /-- The hose it is on. -/
  hose : BitVec 8 := 0
  /-- The bus of the hose. -/
  bus : BitVec 8 := 0
  /-- The slot of the bus. -/
  slot : BitVec 8 := 0
  /-- The function of the device. -/
  func : BitVec 8 := 0
  /-- The vendor identification. -/
  vendor : BitVec 16 := 0
  /-- The device identification. -/
  device : BitVec 16 := 0
  /-- The class code. -/
  classCode : BitVec 32 := 0
  /-- The revision. -/
  revision : BitVec 8 := 0
  /-- The vendor of the subsystem. -/
  subsysVendor : BitVec 16 := 0
  /-- The identification of the subsystem. -/
  subsysId : BitVec 16 := 0
  /-- Its base address registers. -/
  bars : List PciBarEntry := []
  /-- It has an option ROM. -/
  optionRom : Bool := false
  /-- The interrupt pin, 0 if it has none. -/
  interruptPin : BitVec 8 := 0
  /-- The drives on it. -/
  storage : List StorageTarget := []
  deriving DecidableEq, Repr

/-- The devices of a platform. -/
structure DeviceManifest where
  /-- The version of the format. -/
  manifestVersion : ℤ := 0
  /-- The name of the platform. -/
  platform : String := ""
  /-- The IIC devices. -/
  iic : List IicDeviceEntry := []
  /-- The PCI devices. -/
  pci : List PciDeviceEntry := []
  deriving DecidableEq, Repr

/-- What loading a manifest gives. -/
structure ManifestLoadResult where
  /-- The document was taken. -/
  ok : Bool := false
  /-- The built-in manifest is used. -/
  usedDefault : Bool := false
  /-- Why the document was refused. -/
  error : String := ""
  /-- What was wrong or strange with it. -/
  issues : List String := []
  /-- The manifest to use. -/
  manifest : DeviceManifest
  deriving DecidableEq, Repr

namespace PlatformConfig

/-- The version of the format that is understood. -/
def kSupportedVersion : ℤ := 1

/-! ## Scalars -/

/-- The text functions of Qt that the loader uses, and the conversion of a double that no 64-bit
word holds, which the language leaves open. -/
structure Qt where
  /-- A text without the white space around it. -/
  trimmed : String → String
  /-- The number a text stands for in a base, if it stands for one that fits. -/
  toULongLong : String → Nat → Option Word
  /-- The cast of a number that no 64-bit word holds. -/
  castOther : ℚ → Word

/-- The class of a text. -/
def iicClassFromString (s : String) : Option IicClass :=
  if s = "fru_eeprom" then some .fruEeprom
  else if s = "nvram" then some .nvram
  else if s = "status" then some .status
  else if s = "led" then some .led
  else none

/-- The model of a text; any other text names a device. -/
def pciModelFromString (s : String) : Option PciModel :=
  if s = "generic" then some .generic
  else if s = "passive" then some .passive
  -- any other name is that of a behavioural model
  else if s ≠ "" then some .named
  else none

/-- The storage type of a text. -/
def storageTypeFromString (s : String) : Option StorageType :=
  if s = "atapi_cdrom" then some .atapiCdrom
  else if s = "ata_disk" then some .ataDisk
  else none

/-- The multiplier of a size suffix. -/
def suffixMult (last : Char) : Option Nat :=
  if last.toUpper = 'K' then some (2 ^ 10)
  else if last.toUpper = 'M' then some (2 ^ 20)
  else if last.toUpper = 'G' then some (2 ^ 30)
  else if last.toUpper = 'T' then some (2 ^ 40)
  else none

/-- A size without its suffix, and the multiplier. -/
def splitSuffix (s : String) : String × Nat :=
  match s.toList.getLast?.bind suffixMult with
  | some mult => (.ofList s.toList.dropLast, mult)
  | none => (s, 1)

section Read

variable (qt : Qt)

/-- A double, cut to an integer. -/
def castUInt64 (x : ℚ) : Word :=
  if -1 < x ∧ x < 2 ^ 64 then .ofNat 64 x.floor.toNat else qt.castOther x

/-- A numeral, hexadecimal behind 0x and decimal otherwise. -/
def parseHexOrDec (s : String) : Option Word :=
  let t := qt.trimmed s
  if t = "" then none
  else if (t.toList.take 2).map Char.toLower = ['0', 'x'] then
    qt.toULongLong (.ofList (t.toList.drop 2)) 16
  else qt.toULongLong t 10

/-- A number, or a text that is a numeral. -/
def jsonHex : Json → Option Word
  | .str s => parseHexOrDec qt s
  | .num x => some (castUInt64 qt x)
  | _ => none

/-- The number of a size, before it is multiplied, and the multiplier. -/
def sizeParts (s : String) : Option (Word × Nat) :=
  let t := qt.trimmed s
  if t = "" then none
  else (qt.toULongLong (qt.trimmed (splitSuffix t).1) 10).map fun n => (n, (splitSuffix t).2)

/-- A size: a number, or a numeral with a unit. -/
def parseSizeBytes : Json → Word
  | .num x => if 0 < x then castUInt64 qt x else 0
  | .str s => (sizeParts qt s).elim 0 fun p => p.1 * .ofNat 64 p.2
  | _ => 0

/-- An optional scalar, kept in a word. -/
def hexField {w : Nat} (v : Json) (default : BitVec w) : BitVec w :=
  (jsonHex qt v).elim default (·.setWidth w)

/-- An optional integer, kept in a word. -/
def intField (w : Nat) (v : Json) (default : ℤ) : BitVec w := .ofInt w (v.toInt default)

/-! ## Devices -/

/-- A message if a condition holds. -/
def messageIf {α : Type} (p : Prop) [Decidable p] (message : α) : List α :=
  if p then [message] else []

/-- Parse an IIC device, with what is missing. -/
def parseIicDevice (o : Json) (idx : Nat) : IicDeviceEntry × List String :=
  let tag := "iic_devices[" ++ toString idx ++ "]: "
  let cls := (o.value "class").toText
  ({ name := (o.value "name").toText
     address := hexField qt (o.value "address") 0
     cls := (iicClassFromString cls).getD .status
     manufacturer := (o.value "manufacturer").toText
     model := (o.value "model").toText
     partClass := (o.value "part_class").toText
     serial := (o.value "serial").toText
     revisionRo := hexField qt (o.value "revision_ro") 0
     revisionRw := hexField qt (o.value "revision_rw") 0
     size := if o.contains "size" then intField 32 (o.value "size") 256 else 256
     statusByte := hexField qt (o.value "byte") 0 },
   messageIf ((jsonHex qt (o.value "address")).isNone) (tag ++ "missing or malformed 'address'") ++
   messageIf ((iicClassFromString cls).isNone)
     (tag ++ "missing or unknown 'class' (" ++ cls ++ ")"))

/-- Parse a base address register. -/
def parseBar (o : Json) : PciBarEntry :=
  { index := intField 8 (o.value "index") 0
    isMem := (o.value "kind").toText = "mem"
    size := hexField qt (o.value "size") 0
    prefetch := (o.value "prefetch").toBool false }

/-- Parse a storage target, with what is missing. -/
def parseStorage (tag : String) (o : Json) : StorageTarget × List String :=
  let type := (o.value "type").toText
  ({ channel := intField 8 (o.value "channel") 0
     unit := intField 8 (o.value "unit") 0
     lun := intField 8 (o.value "lun") 0
     type := (storageTypeFromString type).getD .atapiCdrom
     model := (o.value "model").toText
     media := (o.value "media").toText
     mediaKind := (o.value "media_kind").toText
     -- a target is enabled unless the document says otherwise
     enabled := (o.value "enabled").toBool true
     createIfMissing := (o.value "create_if_missing").toBool false
     sizeBytes := parseSizeBytes qt (o.value "size") },
   messageIf ((storageTypeFromString type).isNone)
     (tag ++ "storage entry missing/unknown 'type' (" ++ type ++ ")"))

/-- Parse a PCI device with its registers and targets, with what is missing. -/
def parsePciDevice (o : Json) (idx : Nat) : PciDeviceEntry × List String :=
  let tag := "pci_devices[" ++ toString idx ++ "]: "
  let model := (o.value "model").toText
  let storage := (o.value "storage").toArray.map (parseStorage qt tag)
  ({ name := (o.value "name").toText
     model := (pciModelFromString model).getD .generic
     modelName := if pciModelFromString model = some .named then model else ""
     hose := intField 8 (o.value "hose") 0
     bus := intField 8 (o.value "bus") 0
     slot := intField 8 (o.value "slot") 0
     func := intField 8 (o.value "func") 0
     vendor := hexField qt (o.value "vendor") 0
     device := hexField qt (o.value "device") 0
     classCode := hexField qt (o.value "class_code") 0
     revision := hexField qt (o.value "revision") 0
     subsysVendor := hexField qt (o.value "subsys_vendor") 0
     subsysId := hexField qt (o.value "subsys_id") 0
     bars := (o.value "bars").toArray.map (parseBar qt)
     optionRom := (o.value "option_rom").toBool false
     interruptPin := intField 8 (o.value "interrupt_pin") 0
     storage := storage.map Prod.fst },
   messageIf ((pciModelFromString model).isNone) (tag ++ "missing 'model'") ++
   messageIf ((jsonHex qt (o.value "vendor")).isNone) (tag ++ "missing 'vendor'") ++
   messageIf ((jsonHex qt (o.value "device")).isNone) (tag ++ "missing 'device'") ++
   storage.flatMap Prod.snd)

/-- The devices of one kind, in order, with what was reported on them. -/
def parseDevices {α : Type} (parse : Json → Nat → α × List String) (devices : Json) :
    List α × List String :=
  let parsed := devices.toArray.zipIdx.map fun p => parse p.1 p.2
  (parsed.map Prod.fst, parsed.flatMap Prod.snd)

/-- The manifest of a document, and what was reported on it. -/
def parseManifest (root : Json) : DeviceManifest × List String :=
  let iic := parseDevices (parseIicDevice qt) (root.value "iic_devices")
  let pci := parseDevices (parsePciDevice qt) (root.value "pci_devices")
  ({ manifestVersion := (root.value "manifest_version").toInt (-1)
     platform := (root.value "platform").toText
     iic := iic.1
     pci := pci.1 },
   iic.2 ++ pci.2)

end Read

/-! ## Validation -/

/-- What validation reports: an error, which rejects the manifest, or a warning. -/
inductive Finding
  /-- An error: the document is refused. -/
  | err (text : String)
  /-- A warning. -/
  | warn (text : String)
  deriving DecidableEq, Repr

namespace Finding

/-- The issue that is recorded. -/
def issue : Finding → String
  | err text => text
  | warn text => "WARN: " ++ text

/-- The finding is an error. -/
def isErr : Finding → Bool
  | err _ => true
  | warn _ => false

end Finding

/-- A device for the detection of duplicates: hose, bus, slot and function in one word. -/
def bdfKey (d : PciDeviceEntry) : BitVec 32 :=
  d.hose.setWidth 32 <<< 24 ||| d.bus.setWidth 32 <<< 16 ||| d.slot.setWidth 32 <<< 8 |||
    d.func.setWidth 32

/-- A target for the detection of duplicates: channel and unit in one word. -/
def chanUnit (s : StorageTarget) : BitVec 16 := s.channel.setWidth 16 <<< 8 ||| s.unit.setWidth 16

/-- The checks of an IIC device, after the addresses that were seen. -/
def iicFindings (seen : List (BitVec 8)) (k : Nat) (e : IicDeviceEntry) : List Finding :=
  let tag := "iic[" ++ toString k ++ "] (" ++ e.name ++ ")"
  messageIf (e.address &&& 0x01 ≠ 0)
    (Finding.err (tag ++ ": address 0x" ++ toString e.address.toNat ++ " is not even")) ++
  messageIf (e.address ∈ seen) (Finding.err (tag ++ ": duplicate IIC address")) ++
  match e.cls with
  | .fruEeprom =>
    messageIf (e.manufacturer = "") (Finding.err (tag ++ ": fru_eeprom needs 'manufacturer'")) ++
    messageIf (e.model = "") (Finding.err (tag ++ ": fru_eeprom needs 'model'"))
  | .nvram => messageIf (e.size = 0) (Finding.err (tag ++ ": nvram 'size' must be > 0"))
  | .status | .led => []

/-- The checks of a base address register, after the indices that were seen. -/
def barFindings (tag : String) (seen : List (BitVec 8)) (_k : Nat) (b : PciBarEntry) :
    List Finding :=
  messageIf (5 < b.index) (Finding.err (tag ++ ": BAR index > 5")) ++
  messageIf (b.index ∈ seen)
    (Finding.err (tag ++ ": duplicate BAR index " ++ toString b.index.toNat))

/-- The checks of a storage target, after the places that were seen. -/
def storageFindings (tag : String) (seen : List (BitVec 16)) (_k : Nat) (s : StorageTarget) :
    List Finding :=
  messageIf (1 < s.channel) (Finding.err (tag ++ ": storage channel > 1")) ++
  messageIf (1 < s.unit) (Finding.err (tag ++ ": storage unit > 1")) ++
  messageIf (chanUnit s ∈ seen)
    (Finding.err (tag ++ ": duplicate storage channel/unit (among enabled targets)")) ++
  if s.createIfMissing then
    messageIf (s.type ≠ .ataDisk)
      (Finding.err (tag ++ ": create_if_missing only valid on a writable ata_disk")) ++
    if s.sizeBytes = 0 then [Finding.err (tag ++ ": create_if_missing requires a non-zero 'size'")]
    else messageIf (s.sizeBytes.toNat % 512 ≠ 0)
      (Finding.err (tag ++ ": create_if_missing 'size' must be a multiple of 512"))
  else []

/-- The checks of a PCI device, after the places that were seen. -/
def pciFindings (seen : List (BitVec 32)) (k : Nat) (e : PciDeviceEntry) : List Finding :=
  let tag := "pci[" ++ toString k ++ "] (" ++ e.name ++ ")"
  messageIf (bdfKey e ∈ seen) (Finding.err (tag ++ ": duplicate BDF (hose/bus/slot/func)")) ++
  messageIf (e.vendor = 0x0000 ∨ e.vendor = 0xFFFF)
    (Finding.err (tag ++ ": invalid vendor 0x" ++ toString e.vendor.toNat)) ++
  messageIf (e.model = .named ∧ e.modelName = "")
    (Finding.err (tag ++ ": model 'named' but no model name")) ++
  scanSeen PciBarEntry.index (barFindings tag) [] 0 e.bars ++
  messageIf (e.storage ≠ [] ∧ e.model ≠ .named)
    (Finding.warn (tag ++ ": has storage targets but model is not a named controller")) ++
  -- a disabled target is not wired, so it may share a slot
  scanSeen chanUnit (storageFindings tag) [] 0 (e.storage.filter (·.enabled))

/-- The boards that lack a device their firmware looks for. -/
def presenceFindings (m : DeviceManifest) : List Finding :=
  let haveIic := fun a : BitVec 8 => ∃ e ∈ m.iic, e.address = a
  (if m.platform = "DS10" then
    messageIf (¬ haveIic 0x70)
      (Finding.warn "DS10 has no IIC 0x70 (iic_system0) -- build_power_hw will fail") ++
    messageIf (¬ haveIic 0x72)
      (Finding.warn "DS10 has no IIC 0x72 (iic_system1) -- build_power_hw will fail") ++
    messageIf (¬ haveIic 0xA2)
      (Finding.warn "DS10 has no IIC 0xA2 (iic_smb0) -- FRU descriptor will be empty")
  else []) ++
  if m.platform = "DS20" then
    messageIf (¬ haveIic 0x40)
      (Finding.warn ("DS20 has no IIC 0x40 (iic_ocp0) -- get_sysvar will badge 'AlphaPC 264DP', " ++
        "not 'AlphaServer DS20'")) ++
    messageIf (¬ haveIic 0x42)
      (Finding.warn ("DS20 has no IIC 0x42 (iic_ocp1) -- sable_ocp_init reports " ++
        "Device Open Error: IIC_OCP1")) ++
    messageIf (haveIic 0x4E)
      (Finding.warn ("DS20 has IIC 0x4E (iic_8574_ocp) -- get_sysvar will badge DS20E/Goldrack " ++
        "(member 8), not DS20"))
  else []

/-- All checks of a manifest. -/
def findings (m : DeviceManifest) : List Finding :=
  messageIf (m.manifestVersion ≠ kSupportedVersion)
    (Finding.err ("manifest_version " ++ toString m.manifestVersion ++ " != supported " ++
      toString kSupportedVersion)) ++
  scanSeen IicDeviceEntry.address iicFindings [] 0 m.iic ++
  scanSeen bdfKey pciFindings [] 0 m.pci ++
  presenceFindings m

/-- Whether a manifest is accepted, and the issues with those of validation at the end. -/
def validate (m : DeviceManifest) (issues : List String) : Bool × List String :=
  ((findings m).all (!·.isErr), issues ++ (findings m).map Finding.issue)

/-! ## Loading -/

/-- The IIC devices of the built-in manifest. -/
def defaultIic : List IicDeviceEntry :=
  [{ name := "iic_system0", address := 0x70, cls := .status, statusByte := 0x00 },
   { name := "iic_system1", address := 0x72, cls := .status, statusByte := 0x00 },
   { name := "iic_smb0", address := 0xA2, cls := .fruEeprom, manufacturer := "DEC", model := "DS10"
     partClass := "54-", serial := "", revisionRo := 0x20, revisionRw := 0x21 },
   { name := "iic_cpu0", address := 0xA4, cls := .fruEeprom, manufacturer := "DEC", model := "EV6"
     partClass := "54-", serial := "", revisionRo := 0x20, revisionRw := 0x21 },
   { name := "iic_rcm_nvram0", address := 0xC0, cls := .nvram, size := 256 }]

/-- The ISA bridge of the built-in manifest. -/
def cypressIsa : PciDeviceEntry :=
  { name := "cypress_isa", model := .named, modelName := "cypress_isa"
    hose := 0, bus := 0, slot := 5, func := 0
    vendor := 0x1080, device := 0xC693, classCode := 0x060100
    optionRom := false, interruptPin := 0 }

/-- The IDE controller of the default manifest. -/
def cypressIde : PciDeviceEntry :=
  { name := "cypress_ide", model := .named, modelName := "cypress_ide"
    hose := 0, bus := 0, slot := 5, func := 1
    vendor := 0x1080, device := 0xC693, classCode := 0x010100
    optionRom := false, interruptPin := 0
    storage :=
      [{ channel := 0, unit := 0, lun := 0, type := .ataDisk, model := "EMULATR VIRTUAL DISK"
         media := "" },
       { channel := 0, unit := 1, lun := 0, type := .atapiCdrom
         model := "EMULATR VIRTUAL CDROM" }] }

/-- The network controller of the default manifest. -/
def de500Tulip : PciDeviceEntry :=
  { name := "de500_tulip", model := .generic
    hose := 0, bus := 0, slot := 7, func := 0
    vendor := 0x1011, device := 0x0019, classCode := 0x020000
    bars :=
      [{ index := 0, isMem := false, size := 0x80 }, { index := 1, isMem := true, size := 0x80 }]
    optionRom := false, interruptPin := 1 }

/-- The built-in manifest. -/
def defaultDs10Manifest : DeviceManifest :=
  { manifestVersion := kSupportedVersion, platform := "DS10", iic := defaultIic
    pci := [cypressIsa, cypressIde, de500Tulip] }

/-- The built-in manifest with the reason for it. -/
def fallback (why : String) (issues : List String) : ManifestLoadResult :=
  { ok := true, usedDefault := true, error := why, issues := issues
    manifest := defaultDs10Manifest }

/-- Why a document is not parsed: the offset and the text of the error. -/
abbrev JsonParser := String → Except (Nat × String) Json

/-- Load an object of a document. -/
def loadRoot (qt : Qt) (root : Json) : ManifestLoadResult :=
  let m := (parseManifest qt root).1
  if m.manifestVersion ≠ kSupportedVersion then
    fallback ("unsupported manifest_version " ++ toString m.manifestVersion ++ " (expected " ++
      toString kSupportedVersion ++ ")") []
  else
    let v := validate m (parseManifest qt root).2
    if !v.1 then
      fallback ("manifest failed validation (" ++ toString v.2.length ++ " issue(s))") v.2
    else { ok := true, usedDefault := false, issues := v.2, manifest := m }

/-- Load a manifest from the text of a document. -/
def loadFromString (qt : Qt) (fromJson : JsonParser) (json : String) : ManifestLoadResult :=
  match fromJson json with
  | .error (offset, text) =>
    fallback ("JSON parse error at offset " ++ toString offset ++ ": " ++ text) []
  | .ok doc =>
    if !doc.isObject then fallback "manifest root is not a JSON object" []
    else loadRoot qt doc

/-- The default passes its own validation. -/
theorem validate_default : (validate defaultDs10Manifest []).1 = true := by decide +kernel

end PlatformConfig

end EmulatR
