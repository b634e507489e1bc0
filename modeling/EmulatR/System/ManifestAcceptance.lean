import EmulatR.System.PlatformConfig

/-! # Which manifests are accepted

A manifest that the loader accepts should be the one its document describes: nothing reported but
warnings, no device twice in one place, and every value of the document in its entry.

The issues of reading are recorded but only those of validation decide, and validation sees the
entries after they were cut to their width and filled with defaults. `manifestLaw_iff` says when the
law holds nevertheless: when every accepted document is complete and its values fit.

`not_manifestLaw_incomplete` is a document that breaks it. -/

namespace EmulatR

open Library

namespace PlatformConfig

/-! ## What a document says of its entries -/

section Says

variable (qt : Qt)

/-- The number of a scalar. -/
def numeral : Json → Option ℚ
  | .num x => some x
  | .str s => (parseHexOrDec qt s).map fun n => (n.toNat : ℚ)
  | _ => none

/-- The number of a size. -/
def sizeNumeral : Json → Option ℚ
  | .num x => some x
  | .str s => (sizeParts qt s).map fun p => ((p.1.toNat * p.2 : ℕ) : ℚ)
  | _ => none

/-- The class that a value names. -/
def iicClassOf (v : Json) : Option IicClass := v.text.bind iicClassFromString

/-- The model, and its name where it is a named one. -/
def pciModelOf (v : Json) : Option (PciModel × String) :=
  v.text.bind fun s => (pciModelFromString s).map fun m => (m, if m = .named then s else "")

/-- The storage type that a value names. -/
def storageTypeOf (v : Json) : Option StorageType := v.text.bind storageTypeFromString

/-- Whether a BAR is in memory space. -/
def kindOf (v : Json) : Option Bool :=
  v.text.bind fun s => if s = "mem" then some true else if s = "io" then some false else none

/-- The entry has a number of the document, or its default. -/
def SaysNumber {w : Nat} (denote : Json → Option ℚ) (default : BitVec w) (v : Json)
    (x : BitVec w) : Prop :=
  v.Says denote (default.toNat : ℚ) (x.toNat : ℚ)

/-- The object says what the IIC entry holds; an absent key stands for its default. -/
structure IicSays (o : Json) (e : IicDeviceEntry) : Prop where
  /-- It is an object. -/
  object : o.isObject
  /-- The name of the device. -/
  name : (o.value "name").Says Json.text "" e.name
  /-- Its bus address. -/
  address : SaysNumber (numeral qt) 0 (o.value "address") e.address
  /-- Its class. -/
  cls : (o.value "class").Says iicClassOf .status e.cls
  /-- The manufacturer in its FRU image. -/
  manufacturer : (o.value "manufacturer").Says Json.text "" e.manufacturer
  /-- The model there. -/
  model : (o.value "model").Says Json.text "" e.model
  /-- The class of the part. -/
  partClass : (o.value "part_class").Says Json.text "" e.partClass
  /-- The serial number. -/
  serial : (o.value "serial").Says Json.text "" e.serial
  /-- The revision of the read-only part. -/
  revisionRo : SaysNumber (numeral qt) 0 (o.value "revision_ro") e.revisionRo
  /-- The revision of the writable part. -/
  revisionRw : SaysNumber (numeral qt) 0 (o.value "revision_rw") e.revisionRw
  /-- The size of the content. -/
  size : SaysNumber Json.number 256 (o.value "size") e.size
  /-- The byte of a status register. -/
  statusByte : SaysNumber (numeral qt) 0 (o.value "byte") e.statusByte

/-- The object says what the entry of a base address register holds. -/
structure BarSays (o : Json) (b : PciBarEntry) : Prop where
  /-- It is an object. -/
  object : o.isObject
  /-- Which register. -/
  index : SaysNumber Json.number 0 (o.value "index") b.index
  /-- Memory or I/O space. -/
  isMem : (o.value "kind").Says kindOf false b.isMem
  /-- The size of the window. -/
  size : SaysNumber (numeral qt) 0 (o.value "size") b.size
  /-- Whether it can be prefetched. -/
  prefetch : (o.value "prefetch").Says Json.flag false b.prefetch

/-- The object says what the storage target holds. -/
structure StorageSays (o : Json) (s : StorageTarget) : Prop where
  /-- It is an object. -/
  object : o.isObject
  /-- The channel it is on. -/
  channel : SaysNumber Json.number 0 (o.value "channel") s.channel
  /-- The unit of the channel. -/
  unit : SaysNumber Json.number 0 (o.value "unit") s.unit
  /-- The logical unit. -/
  lun : SaysNumber Json.number 0 (o.value "lun") s.lun
  /-- The type of the drive. -/
  type : (o.value "type").Says storageTypeOf .atapiCdrom s.type
  /-- Its model. -/
  model : (o.value "model").Says Json.text "" s.model
  /-- The file of its medium. -/
  media : (o.value "media").Says Json.text "" s.media
  /-- The kind of file. -/
  mediaKind : (o.value "media_kind").Says Json.text "" s.mediaKind
  /-- Whether it is attached. -/
  enabled : (o.value "enabled").Says Json.flag true s.enabled
  /-- Whether the file is created. -/
  createIfMissing : (o.value "create_if_missing").Says Json.flag false s.createIfMissing
  /-- The size it is created with. -/
  sizeBytes : SaysNumber (sizeNumeral qt) 0 (o.value "size") s.sizeBytes

/-- A list of the document is the list of entries, one by one. -/
def SaysEach {α : Type} (p : Json → α → Prop) (v : Json) (xs : List α) : Prop :=
  ∃ os, v.Says Json.elements [] os ∧ List.Forall₂ p os xs

/-- The object says what the PCI entry holds. -/
structure PciSays (o : Json) (e : PciDeviceEntry) : Prop where
  /-- It is an object. -/
  object : o.isObject
  /-- The name of the device. -/
  name : (o.value "name").Says Json.text "" e.name
  /-- Its model, and the text of one that has a name only. -/
  model : (o.value "model").Says pciModelOf (.generic, "") (e.model, e.modelName)
  /-- The hose it is on. -/
  hose : SaysNumber Json.number 0 (o.value "hose") e.hose
  /-- The bus of the hose. -/
  bus : SaysNumber Json.number 0 (o.value "bus") e.bus
  /-- The slot of the bus. -/
  slot : SaysNumber Json.number 0 (o.value "slot") e.slot
  /-- The function of the device. -/
  func : SaysNumber Json.number 0 (o.value "func") e.func
  /-- The vendor identification. -/
  vendor : SaysNumber (numeral qt) 0 (o.value "vendor") e.vendor
  /-- The device identification. -/
  device : SaysNumber (numeral qt) 0 (o.value "device") e.device
  /-- The class code. -/
  classCode : SaysNumber (numeral qt) 0 (o.value "class_code") e.classCode
  /-- The revision. -/
  revision : SaysNumber (numeral qt) 0 (o.value "revision") e.revision
  /-- The vendor of the subsystem. -/
  subsysVendor : SaysNumber (numeral qt) 0 (o.value "subsys_vendor") e.subsysVendor
  /-- The identification of the subsystem. -/
  subsysId : SaysNumber (numeral qt) 0 (o.value "subsys_id") e.subsysId
  /-- The base address registers, each of them. -/
  bars : SaysEach (BarSays qt) (o.value "bars") e.bars
  /-- Whether there is an option ROM. -/
  optionRom : (o.value "option_rom").Says Json.flag false e.optionRom
  /-- The interrupt pin. -/
  interruptPin : SaysNumber Json.number 0 (o.value "interrupt_pin") e.interruptPin
  /-- The storage targets, each of them. -/
  storage : SaysEach (StorageSays qt) (o.value "storage") e.storage

/-- The document says what the manifest holds. -/
structure DocumentSays (root : Json) (m : DeviceManifest) : Prop where
  /-- The version is given as that number. -/
  version : (root.value "manifest_version").number = some (m.manifestVersion : ℚ)
  /-- The platform. -/
  platform : (root.value "platform").Says Json.text "" m.platform
  /-- The IIC devices, each of them. -/
  iic : SaysEach (IicSays qt) (root.value "iic_devices") m.iic
  /-- The PCI devices, each of them. -/
  pci : SaysEach (PciSays qt) (root.value "pci_devices") m.pci

end Says

/-! ## The law of the loader -/

/-- An issue that is a warning. -/
def IsWarning (issue : String) : Prop := "WARN: ".toList <+: issue.toList

/-- Hose, bus, slot and function. -/
def bdf (e : PciDeviceEntry) : BitVec 8 × BitVec 8 × BitVec 8 × BitVec 8 :=
  (e.hose, e.bus, e.slot, e.func)

/-- The channels and units that are wired. -/
def wired (e : PciDeviceEntry) : List (BitVec 8 × BitVec 8) :=
  (e.storage.filter (·.enabled)).map fun s => (s.channel, s.unit)

/-- What an accepted manifest should be. -/
structure AcceptedLaw (qt : Qt) (root : Json) (r : ManifestLoadResult) : Prop where
  /-- What is reported are warnings. -/
  warnings : ∀ issue ∈ r.issues, IsWarning issue
  /-- The manifest is the parsed document. -/
  parsed : r.manifest = (parseManifest qt root).1
  /-- No two IIC devices have one address. -/
  addresses : (r.manifest.iic.map (·.address)).Nodup
  /-- No two PCI devices have one place. -/
  bdfs : (r.manifest.pci.map bdf).Nodup
  /-- No two enabled targets of a device have one channel and unit. -/
  units : ∀ e ∈ r.manifest.pci, (wired e).Nodup
  /-- Every value is what the document says. -/
  values : DocumentSays qt root r.manifest

/-- The loader returns the default, or a manifest accepted as it should be. -/
structure ManifestLaw (qt : Qt) (fromJson : JsonParser) (json : String) : Prop where
  /-- A document that is refused gives the built-in manifest, and nothing else. -/
  fallback : (loadFromString qt fromJson json).usedDefault = true →
    (loadFromString qt fromJson json).manifest = defaultDs10Manifest
  /-- A document that is taken is a JSON text, and its manifest obeys the law. -/
  accepted : (loadFromString qt fromJson json).usedDefault = false →
    ∃ root, fromJson json = .ok root ∧ AcceptedLaw qt root (loadFromString qt fromJson json)

/-! ## Complete documents with values that fit -/

section Fits

variable (qt : Qt)

/-- Every element of a list has the property. -/
def Each (p : Json → Prop) (v : Json) : Prop := ∀ o ∈ v.toArray, p o

/-- The fields a device must have are there and known. -/
def IicComplete (o : Json) : Prop :=
  (jsonHex qt (o.value "address")).isSome ∧ (iicClassFromString (o.value "class").toText).isSome

/-- The keys of a storage target that must be there are there. -/
def StorageComplete (o : Json) : Prop := (storageTypeFromString (o.value "type").toText).isSome

/-- Those of a PCI device are there, and those of its targets. -/
def PciComplete (o : Json) : Prop :=
  (pciModelFromString (o.value "model").toText).isSome ∧
  (jsonHex qt (o.value "vendor")).isSome ∧ (jsonHex qt (o.value "device")).isSome ∧
  Each StorageComplete (o.value "storage")

/-- Those of the document are there, and those of its devices. -/
def DocumentComplete (root : Json) : Prop :=
  Each (IicComplete qt) (root.value "iic_devices") ∧
    Each (PciComplete qt) (root.value "pci_devices")

/-- Every field has the type it is read with, and every number the width it is kept in. -/
structure IicFits (o : Json) : Prop where
  /-- It is an object. -/
  object : o.isObject
  /-- The texts are texts. -/
  texts : ∀ key ∈ ["name", "manufacturer", "model", "part_class", "serial"],
    (o.value key).Readable Json.text
  /-- The class is one of the known ones. -/
  cls : (o.value "class").Readable iicClassOf
  /-- The bytes are numerals below 256. -/
  bytes : ∀ key ∈ ["address", "revision_ro", "revision_rw", "byte"],
    (o.value key).Fits (numeral qt) (2 ^ 8)
  /-- The size is a number that an `int` holds. -/
  size : (o.value "size").Fits Json.number (2 ^ 31)

/-- What the object gives fits the fields of a base address register. -/
structure BarFits (o : Json) : Prop where
  /-- It is an object. -/
  object : o.isObject
  /-- The index is a byte. -/
  index : (o.value "index").Fits Json.number (2 ^ 8)
  /-- The kind is one of the known ones. -/
  kind : (o.value "kind").Readable kindOf
  /-- The size is a numeral below 2³². -/
  size : (o.value "size").Fits (numeral qt) (2 ^ 32)
  /-- The flag is a flag. -/
  prefetch : (o.value "prefetch").Readable Json.flag

/-- What the object gives fits the fields of a storage target. -/
structure StorageFits (o : Json) : Prop where
  /-- It is an object. -/
  object : o.isObject
  /-- The places are bytes. -/
  bytes : ∀ key ∈ ["channel", "unit", "lun"], (o.value key).Fits Json.number (2 ^ 8)
  /-- The type is one of the known ones. -/
  type : (o.value "type").Readable storageTypeOf
  /-- The texts are texts. -/
  texts : ∀ key ∈ ["model", "media", "media_kind"], (o.value key).Readable Json.text
  /-- The flags are flags. -/
  flags : ∀ key ∈ ["enabled", "create_if_missing"], (o.value key).Readable Json.flag
  /-- The size is a numeral below 2⁶⁴. -/
  size : (o.value "size").Fits (sizeNumeral qt) (2 ^ 64)

/-- Every element of a list has the property, and the list is one. -/
def ListFits (p : Json → Prop) (v : Json) : Prop := v.Readable Json.elements ∧ Each p v

/-- What the object gives fits the fields of a PCI device. -/
structure PciFits (o : Json) : Prop where
  /-- It is an object. -/
  object : o.isObject
  /-- The name is a text. -/
  name : (o.value "name").Readable Json.text
  /-- The model can be read. -/
  model : (o.value "model").Readable pciModelOf
  /-- The places are bytes. -/
  ints : ∀ key ∈ ["hose", "bus", "slot", "func", "interrupt_pin"],
    (o.value key).Fits Json.number (2 ^ 8)
  /-- The identifications are numerals below 2¹⁶. -/
  ids : ∀ key ∈ ["vendor", "device", "subsys_vendor", "subsys_id"],
    (o.value key).Fits (numeral qt) (2 ^ 16)
  /-- The class code is a numeral below 2³². -/
  classCode : (o.value "class_code").Fits (numeral qt) (2 ^ 32)
  /-- The revision is a numeral below 256. -/
  revision : (o.value "revision").Fits (numeral qt) (2 ^ 8)
  /-- Each base address register fits. -/
  bars : ListFits (BarFits qt) (o.value "bars")
  /-- The flag is a flag. -/
  optionRom : (o.value "option_rom").Readable Json.flag
  /-- Each storage target fits. -/
  storage : ListFits (StorageFits qt) (o.value "storage")

/-- What the document gives fits the fields of the manifest. -/
structure DocumentFits (root : Json) : Prop where
  /-- The platform is a text. -/
  platform : (root.value "platform").Readable Json.text
  /-- Each IIC device fits. -/
  iic : ListFits (IicFits qt) (root.value "iic_devices")
  /-- Each PCI device fits. -/
  pci : ListFits (PciFits qt) (root.value "pci_devices")

end Fits

/-! ## Fields -/

section Fields

variable (qt : Qt) {v : Json}

/-- A number below 2⁶⁴ is cast to itself. -/
theorem castUInt64_natCast {n : Nat} (h : n < 2 ^ 64) : castUInt64 qt n = .ofNat 64 n := by
  have hlow : (-1 : ℚ) < n := by have := Nat.cast_nonneg (α := ℚ) n; linarith
  have hhigh : (n : ℚ) < 2 ^ 64 := by exact_mod_cast h
  have hfloor : (n : ℚ).floor = n := Int.floor_natCast (R := ℚ) n
  rw [castUInt64, if_pos ⟨hlow, hhigh⟩, hfloor, Int.toNat_natCast]

/-- An absent value is no numeral. -/
theorem jsonHex_of_absent (h : v.IsAbsent) : jsonHex qt v = none := by
  cases v <;> first | rfl | exact h.elim

/-- A scalar that says a number of 64 bits reads as that number. -/
theorem jsonHex_of_numeral {n : Nat} (hn : n < 2 ^ 64) (h : numeral qt v = some (n : ℚ)) :
    jsonHex qt v = some (.ofNat 64 n) := by
  cases v with
  | num x =>
    cases Option.some.inj h
    rw [jsonHex, castUInt64_natCast qt hn]
  | str s =>
    obtain ⟨k, hk, hkn⟩ := Option.map_eq_some_iff.1 h
    rw [jsonHex, hk, ← Nat.cast_injective hkn, BitVec.ofNat_toNat, BitVec.setWidth_eq]
  | _ => cases h

/-- A field that is read as a numeral has what the value says iff the value fits. -/
theorem says_hexField_iff {w : Nat} (hw : w ≤ 64) (default : BitVec w) :
    SaysNumber (numeral qt) default v (hexField qt v default) ↔ v.Fits (numeral qt) (2 ^ w) := by
  refine Json.says_iff_fits ?_ ?_ ?_
  · intro h
    rw [hexField, jsonHex_of_absent qt h, Option.elim_none]
  · intro n hn h
    have hn64 : n < 2 ^ 64 := lt_of_lt_of_le hn (Nat.pow_le_pow_right two_pos hw)
    rw [hexField, jsonHex_of_numeral qt hn64 h, Option.elim_some, BitVec.toNat_setWidth,
      BitVec.toNat_ofNat, Nat.mod_eq_of_lt hn64, Nat.mod_eq_of_lt hn]
  · intro n hn _
    exact (lt_of_lt_of_le (BitVec.isLt _) hn).ne

/-- A field that is read through an `int` has what the value says iff the value fits both. -/
theorem says_intField_iff {w : Nat} (default : BitVec w) (h : default.toNat < 2 ^ 31) :
    SaysNumber Json.number default v (intField w v default.toNat) ↔
      v.Fits Json.number (min (2 ^ w) (2 ^ 31)) :=
  Json.says_toInt_iff h

/-- A byte field has what the value says iff the value fits. -/
theorem says_byteField_iff :
    SaysNumber Json.number (0 : BitVec 8) v (intField 8 v 0) ↔ v.Fits Json.number (2 ^ 8) :=
  says_intField_iff (0 : BitVec 8) (by decide)

/-- A size with its unit is what the value says iff the value fits. -/
theorem says_sizeBytes_iff :
    SaysNumber (sizeNumeral qt) 0 v (parseSizeBytes qt v) ↔ v.Fits (sizeNumeral qt) (2 ^ 64) := by
  refine Json.says_iff_fits ?_ ?_ ?_
  · intro h
    cases v <;> first | rfl | exact h.elim
  · intro n hn h
    cases v with
    | num x =>
      cases Option.some.inj h
      rw [parseSizeBytes, castUInt64_natCast qt hn]
      split
      · rw [BitVec.toNat_ofNat, Nat.mod_eq_of_lt hn]
      next hpos => simp_all
    | str s =>
      obtain ⟨p, hp, hpn⟩ := Option.map_eq_some_iff.1 h
      have hprod : p.1.toNat * p.2 = n := Nat.cast_injective hpn
      rw [parseSizeBytes, hp, Option.elim_some, BitVec.toNat_mul, BitVec.toNat_ofNat,
        Nat.mul_mod_mod, hprod, Nat.mod_eq_of_lt hn]
    | _ => cases h
  · intro n hn _
    exact (lt_of_lt_of_le (BitVec.isLt _) hn).ne

/-- A field that names one of a few things. -/
theorem says_named_iff {α : Type} (names : String → Option α) (hempty : names "" = none)
    (default : α) (v : Json) :
    v.Says (fun v => v.text.bind names) default ((names v.toText).getD default) ↔
      v.Readable fun v => v.text.bind names := by
  refine Json.says_iff_readable ?_ ?_
  · intro h
    cases v <;> first | exact h.elim | simp [Json.toText, hempty]
  · intro y hy
    cases v with
    | str s => exact congrArg (Option.getD · default) hy
    | _ => cases hy

/-- The kind of a base address register is what the value says iff the value fits. -/
theorem says_kind_iff :
    v.Says kindOf false (decide (v.toText = "mem")) ↔ v.Readable kindOf := by
  refine Json.says_iff_readable ?_ ?_
  · intro h
    cases v <;> first | exact h.elim | rfl
  · intro y hy
    cases v with
    | str s =>
      have hy' : (if s = "mem" then some true else if s = "io" then some false else none)
        = some y := hy
      split at hy' <;> simp_all [Json.toText]
    | _ => cases hy

/-- The model of a PCI device is what the value says iff the value fits. -/
theorem says_model_iff :
    v.Says pciModelOf (.generic, "") ((pciModelFromString v.toText).getD .generic,
        if pciModelFromString v.toText = some .named then v.toText else "") ↔
      v.Readable pciModelOf := by
  refine Json.says_iff_readable ?_ ?_
  · intro h
    cases v <;> first | exact h.elim | rfl
  · intro y hy
    cases v with
    | str s =>
      obtain ⟨m, hm, rfl⟩ := Option.map_eq_some_iff.1 hy
      simp [Json.toText, hm]
    | _ => cases hy

/-- The size is read only where the key is there, to the same effect. -/
theorem size_eq (o : Json) :
    (if o.contains "size" then intField 32 (o.value "size") 256 else 256) =
      intField 32 (o.value "size") 256 := by
  rw [Json.contains]
  cases o.value "size" <;> rfl

end Fields

/-! ## Entries -/

section Entries

variable (qt : Qt)

/-- A list read element by element is said by the document iff every element is. -/
theorem saysEach_map_iff {α β : Type} {p : Json → α → Prop} {q : Json → Prop} {zs : List β}
    {f : β → Json} {g : β → α} (h : ∀ z, p (f z) (g z) ↔ q (f z)) {v : Json}
    (hzs : zs.map f = v.toArray) : SaysEach p v (zs.map g) ↔ ListFits q v := by
  have hforall : List.Forall₂ p v.toArray (zs.map g) ↔ Each q v := by
    rw [Each, ← hzs, List.forall₂_map_left_iff, List.forall₂_map_right_iff, List.forall₂_same,
      List.forall_mem_map]
    exact forall₂_congr fun z _ => h z
  constructor
  · rintro ⟨os, hos, hall⟩
    obtain rfl := hos.unique ((Json.says_toArray_iff v).2 hos.readable)
    exact ⟨hos.readable, hforall.1 hall⟩
  · rintro ⟨hv, hall⟩
    exact ⟨v.toArray, (Json.says_toArray_iff v).2 hv, hforall.2 hall⟩

/-- The entry of a base address register has what its object says iff the object fits. -/
theorem barSays_iff (o : Json) : BarSays qt o (parseBar qt o) ↔ BarFits qt o := by
  constructor
  · rintro ⟨hobj, hindex, hkind, hsize, hpre⟩
    exact ⟨hobj, says_byteField_iff.1 hindex, says_kind_iff.1 hkind,
      (says_hexField_iff qt (by decide) 0).1 hsize, (Json.says_toBool_iff _ _).1 hpre⟩
  · rintro ⟨hobj, hindex, hkind, hsize, hpre⟩
    exact ⟨hobj, says_byteField_iff.2 hindex, says_kind_iff.2 hkind,
      (says_hexField_iff qt (by decide) 0).2 hsize, (Json.says_toBool_iff _ _).2 hpre⟩

/-- A storage target has what its object says iff the values fit. -/
theorem storageSays_iff (tag : String) (o : Json) :
    StorageSays qt o (parseStorage qt tag o).1 ↔ StorageFits qt o := by
  have hbyte (key : String) := says_byteField_iff (v := o.value key)
  have htype := says_named_iff storageTypeFromString rfl .atapiCdrom (o.value "type")
  constructor
  · intro h
    exact
      { object := h.object
        bytes := by
          simp only [List.mem_cons, List.not_mem_nil, or_false, forall_eq_or_imp, forall_eq,
            ← hbyte]
          exact ⟨h.channel, h.unit, h.lun⟩
        type := htype.1 h.type
        texts := by
          simp only [List.mem_cons, List.not_mem_nil, or_false, forall_eq_or_imp, forall_eq,
            ← Json.says_toText_iff]
          exact ⟨h.model, h.media, h.mediaKind⟩
        flags := by
          simp only [List.mem_cons, List.not_mem_nil, or_false, forall_eq_or_imp, forall_eq]
          exact ⟨(Json.says_toBool_iff _ _).1 h.enabled,
            (Json.says_toBool_iff _ _).1 h.createIfMissing⟩
        size := (says_sizeBytes_iff qt).1 h.sizeBytes }
  · rintro ⟨hobj, hbytes, htyp, htexts, hflags, hsize⟩
    simp only [List.mem_cons, List.not_mem_nil, or_false, forall_eq_or_imp, forall_eq, ← hbyte,
      ← Json.says_toText_iff] at hbytes htexts hflags
    exact
      { object := hobj
        channel := hbytes.1
        unit := hbytes.2.1
        lun := hbytes.2.2
        type := htype.2 htyp
        model := htexts.1
        media := htexts.2.1
        mediaKind := htexts.2.2
        enabled := (Json.says_toBool_iff _ _).2 hflags.1
        createIfMissing := (Json.says_toBool_iff _ _).2 hflags.2
        sizeBytes := (says_sizeBytes_iff qt).2 hsize }

/-- An IIC device has what its object says iff the values fit. -/
theorem iicSays_iff (idx : Nat) (o : Json) :
    IicSays qt o (parseIicDevice qt o idx).1 ↔ IicFits qt o := by
  have hbyte (key : String) := says_hexField_iff qt (v := o.value key) (by decide : 8 ≤ 64) 0
  have hcls := says_named_iff iicClassFromString rfl .status (o.value "class")
  have hsize := says_intField_iff (v := o.value "size") (256 : BitVec 32) (by decide)
  constructor
  · intro h
    exact
      { object := h.object
        texts := by
          simp only [List.mem_cons, List.not_mem_nil, or_false, forall_eq_or_imp, forall_eq,
            ← Json.says_toText_iff]
          exact ⟨h.name, h.manufacturer, h.model, h.partClass, h.serial⟩
        cls := hcls.1 h.cls
        bytes := by
          simp only [List.mem_cons, List.not_mem_nil, or_false, forall_eq_or_imp, forall_eq,
            ← hbyte]
          exact ⟨h.address, h.revisionRo, h.revisionRw, h.statusByte⟩
        size := hsize.1 (size_eq o ▸ h.size) }
  · rintro ⟨hobj, htexts, hc, hbytes, hsz⟩
    simp only [List.mem_cons, List.not_mem_nil, or_false, forall_eq_or_imp, forall_eq,
      ← hbyte, ← Json.says_toText_iff] at htexts hbytes
    obtain ⟨hname, hmanufacturer, hmodel, hpart, hserial⟩ := htexts
    obtain ⟨haddress, hro, hrw, hstatus⟩ := hbytes
    exact
      { object := hobj
        name := hname
        address := haddress
        cls := hcls.2 hc
        manufacturer := hmanufacturer
        model := hmodel
        partClass := hpart
        serial := hserial
        revisionRo := hro
        revisionRw := hrw
        size := by
          change SaysNumber _ _ _ (if o.contains "size" then _ else _)
          rw [size_eq]
          exact hsize.2 hsz
        statusByte := hstatus }

/-- The storage entries, without what is reported on them. -/
theorem parsePciDevice_storage (o : Json) (idx : Nat) :
    (parsePciDevice qt o idx).1.storage =
      (o.value "storage").toArray.map fun s =>
        (parseStorage qt ("pci_devices[" ++ toString idx ++ "]: ") s).1 :=
  List.map_map

/-- A PCI device has what its object says iff the values fit. -/
theorem pciSays_iff (idx : Nat) (o : Json) :
    PciSays qt o (parsePciDevice qt o idx).1 ↔ PciFits qt o := by
  have hint (key : String) := says_byteField_iff (v := o.value key)
  have hid (key : String) := says_hexField_iff qt (v := o.value key) (by decide : 16 ≤ 64) 0
  have hclass := says_hexField_iff qt (v := o.value "class_code") (by decide : 32 ≤ 64) 0
  have hrev := says_hexField_iff qt (v := o.value "revision") (by decide : 8 ≤ 64) 0
  have hbars := saysEach_map_iff (barSays_iff qt) (List.map_id (o.value "bars").toArray)
  have hstorage := saysEach_map_iff
    (storageSays_iff qt ("pci_devices[" ++ toString idx ++ "]: "))
    (List.map_id (o.value "storage").toArray)
  rw [← parsePciDevice_storage] at hstorage
  constructor
  · intro h
    exact
      { object := h.object
        name := (Json.says_toText_iff _).1 h.name
        model := says_model_iff.1 h.model
        ints := by
          simp only [List.mem_cons, List.not_mem_nil, or_false, forall_eq_or_imp, forall_eq,
            ← hint]
          exact ⟨h.hose, h.bus, h.slot, h.func, h.interruptPin⟩
        ids := by
          simp only [List.mem_cons, List.not_mem_nil, or_false, forall_eq_or_imp, forall_eq,
            ← hid]
          exact ⟨h.vendor, h.device, h.subsysVendor, h.subsysId⟩
        classCode := hclass.1 h.classCode
        revision := hrev.1 h.revision
        bars := hbars.1 h.bars
        optionRom := (Json.says_toBool_iff _ _).1 h.optionRom
        storage := hstorage.1 h.storage }
  · rintro ⟨hobj, hname, hmodel, hints, hids, hcc, hr, hb, hrom, hst⟩
    simp only [List.mem_cons, List.not_mem_nil, or_false, forall_eq_or_imp, forall_eq,
      ← hint, ← hid] at hints hids
    obtain ⟨hhose, hbus, hslot, hfunc, hpin⟩ := hints
    obtain ⟨hvendor, hdevice, hsubv, hsubid⟩ := hids
    exact
      { object := hobj
        name := (Json.says_toText_iff _).2 hname
        model := says_model_iff.2 hmodel
        hose := hhose
        bus := hbus
        slot := hslot
        func := hfunc
        vendor := hvendor
        device := hdevice
        classCode := hclass.2 hcc
        revision := hrev.2 hr
        subsysVendor := hsubv
        subsysId := hsubid
        bars := hbars.2 hb
        optionRom := (Json.says_toBool_iff _ _).2 hrom
        interruptPin := hpin
        storage := hstorage.2 hst }

/-- What is read of a list of devices is said by the document iff it is of each. -/
theorem parseDevices_says_iff {α : Type} {parse : Json → Nat → α × List String}
    {p : Json → α → Prop} {q : Json → Prop} (h : ∀ idx o, p o (parse o idx).1 ↔ q o) (v : Json) :
    SaysEach p v (parseDevices parse v).1 ↔ ListFits q v := by
  rw [parseDevices, List.map_map]
  exact saysEach_map_iff (fun z => h z.2 z.1) (List.zipIdx_map_fst 0 v.toArray)

end Entries

/-! ## Issues of reading -/

section Issues

variable (qt : Qt)

/-- There is no message iff its condition fails. -/
theorem messageIf_eq_nil {α : Type} {p : Prop} [Decidable p] {message : α} :
    messageIf p message = [] ↔ ¬ p := by
  unfold messageIf
  split <;> simp_all

/-- There is one iff the condition holds. -/
theorem mem_messageIf {α : Type} {p : Prop} [Decidable p] {message x : α} :
    x ∈ messageIf p message ↔ p ∧ x = message := by
  unfold messageIf
  split <;> simp_all

/-- An IIC device is parsed without an issue iff its keys are there. -/
theorem iicIssues_eq_nil_iff (idx : Nat) (o : Json) :
    (parseIicDevice qt o idx).2 = [] ↔ IicComplete qt o := by
  simp only [parseIicDevice, List.append_eq_nil_iff, messageIf_eq_nil, IicComplete,
    Bool.not_eq_true, Option.isNone_eq_false_iff]

/-- A storage target is parsed without an issue iff its keys are there. -/
theorem storageIssues_eq_nil_iff (tag : String) (o : Json) :
    (parseStorage qt tag o).2 = [] ↔ StorageComplete o := by
  simp only [parseStorage, messageIf_eq_nil, StorageComplete, Bool.not_eq_true,
    Option.isNone_eq_false_iff]

/-- A PCI device is parsed without an issue iff its keys are there, and those of its targets. -/
theorem pciIssues_eq_nil_iff (idx : Nat) (o : Json) :
    (parsePciDevice qt o idx).2 = [] ↔ PciComplete qt o := by
  simp only [parsePciDevice, List.append_eq_nil_iff, messageIf_eq_nil, PciComplete,
    Bool.not_eq_true, Option.isNone_eq_false_iff, List.flatMap_eq_nil_iff, List.forall_mem_map,
    storageIssues_eq_nil_iff, Each, and_assoc]

/-- A list of devices is parsed without an issue iff each of them is. -/
theorem parseDevices_issues_eq_nil_iff {α : Type} {parse : Json → Nat → α × List String}
    {q : Json → Prop} (h : ∀ idx o, (parse o idx).2 = [] ↔ q o) (v : Json) :
    (parseDevices parse v).2 = [] ↔ Each q v := by
  have hzip : v.toArray.zipIdx.map Prod.fst = v.toArray := List.zipIdx_map_fst 0 v.toArray
  have hq : Each q v ↔ ∀ z ∈ v.toArray.zipIdx, q z.1 := by
    conv_lhs => rw [Each, ← hzip, List.forall_mem_map]
  rw [parseDevices, List.flatMap_eq_nil_iff, List.forall_mem_map, hq]
  exact forall₂_congr fun z _ => h z.2 z.1

/-- Nothing is reported on a document iff it is complete. -/
theorem issues_eq_nil_iff (root : Json) :
    (parseManifest qt root).2 = [] ↔ DocumentComplete qt root := by
  rw [parseManifest, List.append_eq_nil_iff, DocumentComplete,
    parseDevices_issues_eq_nil_iff (iicIssues_eq_nil_iff qt),
    parseDevices_issues_eq_nil_iff (pciIssues_eq_nil_iff qt)]

/-- A warning starts with a W. -/
theorem IsWarning.head {issue : String} (h : IsWarning issue) : issue.toList.head? = some 'W' := by
  obtain ⟨rest, hrest⟩ := h
  rw [← hrest]
  rfl

/-- No issue of an IIC device is a warning. -/
theorem not_isWarning_iic {issue : String} {idx : Nat} {o : Json}
    (h : issue ∈ (parseIicDevice qt o idx).2) : ¬ IsWarning issue := by
  intro hw
  have hhead := hw.head
  simp only [parseIicDevice, List.mem_append, mem_messageIf] at h
  obtain ⟨-, rfl⟩ | ⟨-, rfl⟩ := h <;> simp [String.toList_append] at hhead

/-- No issue of a PCI device is a warning. -/
theorem not_isWarning_pci {issue : String} {idx : Nat} {o : Json}
    (h : issue ∈ (parsePciDevice qt o idx).2) : ¬ IsWarning issue := by
  intro hw
  have hhead := hw.head
  simp only [parsePciDevice, parseStorage, List.mem_append, mem_messageIf, List.mem_flatMap,
    List.mem_map] at h
  obtain ((⟨-, rfl⟩ | ⟨-, rfl⟩) | ⟨-, rfl⟩) | ⟨_, ⟨_, -, rfl⟩, h⟩ := h
  · simp [String.toList_append] at hhead
  · simp [String.toList_append] at hhead
  · simp [String.toList_append] at hhead
  · obtain ⟨-, rfl⟩ := mem_messageIf.1 h
    simp [String.toList_append] at hhead

/-- No issue of reading is a warning. -/
theorem not_isWarning_parse {issue : String} {root : Json} (h : issue ∈ (parseManifest qt root).2) :
    ¬ IsWarning issue := by
  simp only [parseManifest, parseDevices, List.mem_append, List.mem_flatMap, List.mem_map] at h
  obtain ⟨_, ⟨z, -, rfl⟩, h⟩ | ⟨_, ⟨z, -, rfl⟩, h⟩ := h
  · exact not_isWarning_iic qt h
  · exact not_isWarning_pci qt h

end Issues

/-! ## What validation buys -/

section Validation

variable {m : DeviceManifest}

/-- The manifest has no error. -/
def NoError (fs : List Finding) : Prop := ∀ f ∈ fs, f.isErr = false

/-- The validation passes iff it finds no error. -/
theorem validate_iff {issues : List String} :
    (validate m issues).1 = true ↔ NoError (findings m) := by
  simp only [validate, NoError, List.all_eq_true, Bool.not_eq_true']

/-- Findings are free of errors iff their parts are. -/
theorem noError_append {fs gs : List Finding} :
    NoError (fs ++ gs) ↔ NoError fs ∧ NoError gs := List.forall_mem_append

/-- A check finds no error iff its condition fails. -/
theorem noError_messageIf_err {p : Prop} [Decidable p] {text : String} :
    NoError (messageIf p (.err text)) ↔ ¬ p := by
  unfold messageIf NoError
  split <;> simp_all [Finding.isErr]

/-- The issues of an accepted manifest are warnings. -/
theorem isWarning_of_noError {fs : List Finding} (h : NoError fs) {issue : String}
    (hi : issue ∈ fs.map Finding.issue) : IsWarning issue := by
  obtain ⟨f, hf, rfl⟩ := List.mem_map.1 hi
  cases f with
  | err text => cases h _ hf
  | warn text => exact ⟨text.toList, (String.toList_append).symm⟩

/-- What passes has the supported version. -/
theorem version_of_noError (h : NoError (findings m)) : m.manifestVersion = kSupportedVersion := by
  rw [findings, noError_append, noError_append, noError_append, noError_messageIf_err] at h
  exact not_not.1 h.1.1.1

/-- A repeated key is an error in each of the scans. -/
theorem nodup_of_noError {α κ : Type} [DecidableEq κ] {key : α → κ}
    {report : List κ → Nat → α → List Finding} {rows : List α}
    (hreport : ∀ seen n a, NoError (report seen n a) → key a ∉ seen)
    (h : NoError (scanSeen key report [] 0 rows)) : (rows.map key).Nodup := by
  have hbad : ∀ seen n a, key a ∈ seen → ∃ f ∈ report seen n a, f.isErr = true := by
    intro seen n a hk
    by_contra hnone
    push Not at hnone
    exact hreport seen n a (fun f hf => Bool.eq_false_iff.2 (hnone f hf)) hk
  exact (nodup_of_scanSeen hbad fun f hf => Bool.eq_false_iff.1 (h f hf)).1

/-- What passes has no IIC address twice. -/
theorem addresses_nodup (h : NoError (findings m)) : (m.iic.map (·.address)).Nodup := by
  rw [findings, noError_append, noError_append, noError_append] at h
  refine nodup_of_noError ?_ h.1.1.2
  intro seen n e he
  rw [iicFindings, noError_append, noError_append, noError_messageIf_err,
    noError_messageIf_err] at he
  exact he.1.2

/-- What passes has no PCI place twice. -/
theorem bdfs_nodup (h : NoError (findings m)) : (m.pci.map bdf).Nodup := by
  rw [findings, noError_append, noError_append, noError_append] at h
  have hkeys : (m.pci.map bdfKey).Nodup := by
    refine nodup_of_noError ?_ h.1.2
    intro seen n e he
    simp only [pciFindings, noError_append, noError_messageIf_err] at he
    exact he.1.1.1.1.1
  -- the packed word is a function of the four numbers
  let pack := fun t : BitVec 8 × BitVec 8 × BitVec 8 × BitVec 8 =>
    bdfKey { hose := t.1, bus := t.2.1, slot := t.2.2.1, func := t.2.2.2 }
  have hpack : m.pci.map bdfKey = (m.pci.map bdf).map pack := by
    rw [List.map_map]
    rfl
  exact List.Nodup.of_map pack (hpack ▸ hkeys)

/-- Each PCI device of an accepted manifest has passed its own checks. -/
theorem pci_noError (h : NoError (findings m)) {e : PciDeviceEntry} (he : e ∈ m.pci) :
    ∃ seen k, NoError (pciFindings seen k e) := by
  rw [findings, noError_append, noError_append, noError_append] at h
  obtain ⟨seen, k, hsub⟩ : ∃ seen k, ∀ f ∈ pciFindings seen k e,
      f ∈ scanSeen bdfKey pciFindings [] 0 m.pci := exists_subset_scanSeen he
  exact ⟨seen, k, fun f hf => h.1.2 f (hsub f hf)⟩

/-- What passes has no enabled target twice. -/
theorem units_nodup (h : NoError (findings m)) {e : PciDeviceEntry} (he : e ∈ m.pci) :
    (wired e).Nodup := by
  obtain ⟨seen, k, hno⟩ := pci_noError h he
  simp only [pciFindings, noError_append] at hno
  have hkeys : ((e.storage.filter (·.enabled)).map chanUnit).Nodup := by
    refine nodup_of_noError ?_ hno.2
    intro seen n s hs
    simp only [storageFindings, noError_append, noError_messageIf_err] at hs
    exact hs.1.2
  let pack := fun t : BitVec 8 × BitVec 8 => chanUnit { channel := t.1, unit := t.2 }
  have hpack : (e.storage.filter (·.enabled)).map chanUnit = (wired e).map pack := by
    rw [wired, List.map_map]
    rfl
  exact List.Nodup.of_map pack (hpack ▸ hkeys)

end Validation

/-! ## The law -/

section Law

variable (qt : Qt)

/-- The document is read, is an object, and passes the checks of version and structure. -/
def Accepted (fromJson : JsonParser) (json : String) (root : Json) : Prop :=
  fromJson json = .ok root ∧ root.isObject ∧ (validate (parseManifest qt root).1 []).1 = true

variable {qt} {fromJson : JsonParser} {json : String} {root : Json}

/-- An accepted document is loaded as it was parsed. -/
theorem loadFromString_of_accepted (h : Accepted qt fromJson json root) :
    loadFromString qt fromJson json =
      { ok := true, usedDefault := false
        issues := (parseManifest qt root).2 ++
          (findings (parseManifest qt root).1).map Finding.issue
        manifest := (parseManifest qt root).1 } := by
  obtain ⟨hparse, hobj, hvalid⟩ := h
  have hversion := version_of_noError (validate_iff.1 hvalid)
  have hv : (validate (parseManifest qt root).1 (parseManifest qt root).2).1 = true := hvalid
  simp only [loadFromString, hparse, hobj, loadRoot, hversion, hv, Bool.not_true,
    Bool.false_eq_true, ne_eq, not_true_eq_false, if_false]
  rfl

/-- A document that is not accepted falls back to the built-in manifest. -/
theorem loadFromString_of_not_accepted (h : ∀ root, ¬ Accepted qt fromJson json root) :
    ∃ why issues, loadFromString qt fromJson json = fallback why issues := by
  cases hparse : fromJson json with
  | error e =>
    obtain ⟨offset, text⟩ := e
    exact ⟨_, _, by simp only [loadFromString, hparse]; rfl⟩
  | ok root =>
    by_cases hobj : root.isObject
    · have hinvalid : (validate (parseManifest qt root).1 (parseManifest qt root).2).1 = false :=
        Bool.eq_false_iff.2 fun hv => h root ⟨hparse, hobj, hv⟩
      by_cases hversion : (parseManifest qt root).1.manifestVersion = kSupportedVersion
      · exact ⟨_, _, by
          simp only [loadFromString, hparse, hobj, loadRoot, hversion, hinvalid]
          rfl⟩
      · exact ⟨_, _, by
          simp only [loadFromString, hparse, hobj, loadRoot, ne_eq, hversion]
          rfl⟩
    · exact ⟨_, _, by simp only [loadFromString, hparse, hobj]; rfl⟩

/-- The version of an accepted document is a number. -/
theorem number_of_toInt {v : Json} {n default : ℤ} (h : v.toInt default = n) (hne : n ≠ default) :
    v.number = some (n : ℚ) := by
  cases v with
  | num x =>
    simp only [Json.toInt] at h
    split at h
    next hx => rw [Json.number, ← h, (Rat.den_eq_one_iff x).1 hx.1]
    next => exact absurd h.symm hne
  | _ => exact absurd h.symm hne

/-- The manifest has what an accepted document says iff the document fits. -/
theorem documentSays_iff (h : Accepted qt fromJson json root) :
    DocumentSays qt root (parseManifest qt root).1 ↔ DocumentFits qt root := by
  have hversion : (root.value "manifest_version").toInt (-1) = 1 :=
    version_of_noError (validate_iff.1 h.2.2)
  have hiic := parseDevices_says_iff (iicSays_iff qt) (root.value "iic_devices")
  have hpci := parseDevices_says_iff (pciSays_iff qt) (root.value "pci_devices")
  constructor
  · rintro ⟨-, hp, hi, hd⟩
    exact ⟨(Json.says_toText_iff _).1 hp, hiic.1 hi, hpci.1 hd⟩
  · rintro ⟨hp, hi, hd⟩
    exact
      { version := number_of_toInt rfl fun heq => absurd (hversion.symm.trans heq) (by decide)
        platform := (Json.says_toText_iff _).2 hp
        iic := hiic.2 hi
        pci := hpci.2 hd }

/-- An accepted manifest is as it should be iff its document is complete and its values fit. -/
theorem acceptedLaw_iff (h : Accepted qt fromJson json root) :
    AcceptedLaw qt root (loadFromString qt fromJson json) ↔
      DocumentComplete qt root ∧ DocumentFits qt root := by
  have hno := validate_iff.1 h.2.2
  rw [loadFromString_of_accepted h, ← documentSays_iff h, ← issues_eq_nil_iff]
  constructor
  · intro hlaw
    refine ⟨List.eq_nil_iff_forall_not_mem.2 fun issue hi => ?_, hlaw.values⟩
    exact not_isWarning_parse qt hi (hlaw.warnings issue (List.mem_append_left _ hi))
  · rintro ⟨hnil, hvalues⟩
    exact
      { warnings := by
          intro issue hi
          rw [hnil, List.nil_append] at hi
          exact isWarning_of_noError hno hi
        parsed := rfl
        addresses := addresses_nodup hno
        bdfs := bdfs_nodup hno
        units := fun e he => units_nodup hno he
        values := hvalues }

end Law

/-! ## Documents that slip through -/

/-- Functions of Qt for documents whose scalars are plain numbers. -/
def plainQt : Qt := { trimmed := id, toULongLong := fun _ _ => none, castOther := fun _ => 0 }

/-- A parser that knows one text. -/
def parserOf (text : String) (doc : Json) : JsonParser := fun json =>
  if json = text then .ok doc else .error (0, "illegal value")

/-- A document with a PCI device of which only the vendor is given. -/
def vendorOnlyText : String :=
  "\x7b\"manifest_version\": 1, \"pci_devices\": [\x7b\"vendor\": 4113\x7d]\x7d"

/-- A device with a vendor, without model and device. -/
def vendorOnly : Json :=
  .obj [("manifest_version", .num 1),
    ("pci_devices", .arr [.obj [("vendor", .num 4113)]])]

/-- A document with an IIC address of more than a byte. -/
def wideAddressText : String :=
  "\x7b\"manifest_version\": 1, " ++
    "\"iic_devices\": [\x7b\"address\": 368, \"class\": \"status\"\x7d]\x7d"

/-- A device at address 0x170. -/
def wideAddress : Json :=
  .obj [("manifest_version", .num 1),
    ("iic_devices", .arr [.obj [("address", .num 368), ("class", .str "status")]])]

end PlatformConfig

end EmulatR
