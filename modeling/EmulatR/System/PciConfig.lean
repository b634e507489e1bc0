import EmulatR.Library.BitFields
import EmulatR.System.ManifestAcceptance

/-! # PCI configuration images

The configuration header that is made of a PCI entry of the manifest, and the masks that the size
probe of a base address register reads back (systemLib/PlatformConfig.cpp). Validation checks the
indices of the registers but not their sizes, and a mask has no room below the type bits:
`probeLaw_iff` says that the probe finds every declared size iff each is a multiple of that room. -/

namespace EmulatR

open Library

namespace PlatformConfig

/-! ## The image -/

/-- The configuration space a device is given, with the size masks of its base registers. -/
structure PciConfigImage where
  /-- The bytes of configuration space. -/
  cfg : Nat → BitVec 8 := fun _ => 0
  /-- What a probe of each base register reads. -/
  barMask : Nat → BitVec 32 := fun _ => 0
  /-- Each base register is of memory space. -/
  barIsMem : Nat → Bool := fun _ => false

/-- Two bytes, the low one first. -/
def putLE16 (d : Nat → BitVec 8) (off : Nat) (v : BitVec 16) : Nat → BitVec 8 :=
  Function.update (Function.update d off (v.setWidth 8)) (off + 1) ((v >>> 8).setWidth 8)

/-- The header, but for the base address registers. -/
def headerBytes (e : PciDeviceEntry) : Nat → BitVec 8 :=
  let d := putLE16 (putLE16 (fun _ => 0) 0x00 e.vendor) 0x02 e.device
  let d := Function.update d 0x08 e.revision
  let d := Function.update d 0x09 (e.classCode.setWidth 8)
  let d := Function.update d 0x0A ((e.classCode >>> 8).setWidth 8)
  let d := Function.update d 0x0B ((e.classCode >>> 16).setWidth 8)
  let d := Function.update d 0x0E 0x00
  let d := putLE16 (putLE16 d 0x2C e.subsysVendor) 0x2E e.subsysId
  Function.update d 0x3D e.interruptPin

/-- The type bits of a base register. -/
def typeMask (b : PciBarEntry) : BitVec 32 := if b.isMem then 0x0F else 0x03

/-- The values of the type bits. -/
def typeBits (b : PciBarEntry) : BitVec 32 :=
  if b.isMem then (if b.prefetch then 0x08 else 0x00) else 0x01

/-- What a size probe reads back: the complement of the size less one, with the type bits. -/
def sizeMask (b : PciBarEntry) : BitVec 32 :=
  if b.size ≠ 0 then (~~~(b.size - 1) &&& ~~~typeMask b) ||| typeBits b else 0

/-- Set up one base register. -/
def addBar (img : PciConfigImage) (b : PciBarEntry) : PciConfigImage :=
  if 5 < b.index then img
  else
    let off := 0x10 + b.index.toNat * 4
    let d := Function.update img.cfg off ((typeBits b).setWidth 8)
    let d := Function.update (Function.update d (off + 1) 0) (off + 2) 0
    { cfg := Function.update d (off + 3) 0
      barMask := Function.update img.barMask b.index.toNat (sizeMask b)
      barIsMem := Function.update img.barIsMem b.index.toNat b.isMem }

/-- The image of a manifest entry. -/
def synthesizePciConfig (e : PciDeviceEntry) : PciConfigImage :=
  e.bars.foldl addBar { cfg := headerBytes e }

/-! ## The probe -/

/-- The type bits of a mask: two in I/O space, four in memory space. -/
def probeTypeMask (mask : BitVec 32) : BitVec 32 := if mask &&& 1 ≠ 0 then 0x03 else 0x0F

/-- The size probe: mask the type bits, complement and add one. -/
def probe (mask : BitVec 32) : BitVec 32 := ~~~(mask &&& ~~~probeTypeMask mask) + 1

/-- The probe finds every declared size, and nothing where no register is declared. -/
structure ProbeLaw (e : PciDeviceEntry) : Prop where
  /-- A declared register probes to its size. -/
  declared : ∀ b ∈ e.bars, probe ((synthesizePciConfig e).barMask b.index.toNat) = b.size
  /-- Every other probes to zero. -/
  absent : ∀ i < 6, (∀ b ∈ e.bars, b.index.toNat ≠ i) →
    probe ((synthesizePciConfig e).barMask i) = 0

/-- The sizes that the type bits leave room for. -/
def granule (b : PciBarEntry) : Nat := if b.isMem then 16 else 4

section Mask

/-- A size survives the masking of low bits iff it has none of them. -/
theorem neg_and_eq_iff {s m : BitVec 32} {k : Nat} (hk : k ≤ 32) (hm : m.toNat = 2 ^ k - 1) :
    -(-s &&& ~~~m) = s ↔ 2 ^ k ∣ s.toNat := by
  have hneg : -(-s &&& ~~~m) = s ↔ -s &&& ~~~m = -s := by
    rw [← BitVec.neg_inj, BitVec.neg_neg]
  have hlow : ((-s) &&& m).toNat = (-s).toNat % 2 ^ k := toNat_and_lowMask k hm
  have hdvd : (-s).toNat % 2 ^ k = 0 ↔ 2 ^ k ∣ s.toNat := by
    have hpow : 2 ^ k ∣ 2 ^ 32 := pow_dvd_pow 2 hk
    rw [BitVec.toNat_neg, Nat.mod_mod_of_dvd _ hpow, ← Nat.dvd_iff_mod_eq_zero,
      Nat.dvd_sub_iff_right s.isLt.le hpow]
  rw [hneg, and_eq_self_iff, BitVec.not_not, ← BitVec.toNat_inj, hlow]
  exact hdvd

/-- A part of a mask that is the complement of low bits joined to the type bits. -/
theorem or_and_eq (x m t n : BitVec 32) :
    ((x &&& ~~~m) ||| t) &&& n = (x &&& (~~~m &&& n)) ||| (t &&& n) := by
  rw [BitVec.and_or_distrib_right, BitVec.and_assoc]

/-- The type bits of a register are the ones the probe masks. -/
theorem probeTypeMask_sizeMask {b : PciBarEntry} (h : b.size ≠ 0) :
    probeTypeMask (sizeMask b) = typeMask b := by
  have hbit : sizeMask b &&& 1 = if b.isMem then 0 else 1 := by
    rw [sizeMask, if_pos h, or_and_eq, typeMask, typeBits]
    cases b.isMem <;> cases b.prefetch <;> simp
  rw [probeTypeMask, typeMask, hbit]
  cases b.isMem <;> rfl

/-- The mask probes to the size of a multiple of the granule only. -/
theorem probe_sizeMask_iff (b : PciBarEntry) :
    probe (sizeMask b) = b.size ↔ granule b ∣ b.size.toNat := by
  by_cases h : b.size = 0
  · rw [sizeMask, if_neg (not_not.2 h), h]
    exact iff_of_true rfl (dvd_zero _)
  · have hmask : sizeMask b &&& ~~~typeMask b = -b.size &&& ~~~typeMask b := by
      have hout : typeBits b &&& ~~~typeMask b = 0#32 := by
        rw [typeMask, typeBits]
        cases b.isMem <;> cases b.prefetch <;> rfl
      have hsize : ~~~(b.size - 1) = -b.size := by
        rw [BitVec.neg_eq_not_add, ← BitVec.not_sub_one_eq_not_add_one]
        rfl
      rw [sizeMask, if_pos h, or_and_eq, BitVec.and_self, hout, BitVec.or_zero, hsize]
    have hneg : ∀ x : BitVec 32, ~~~x + 1 = -x := fun x => (BitVec.neg_eq_not_add x).symm
    rw [probe, probeTypeMask_sizeMask h, hmask, hneg]
    cases hmem : b.isMem
    · rw [typeMask, granule, hmem]
      exact neg_and_eq_iff (by decide : 2 ≤ 32) rfl
    · rw [typeMask, granule, hmem]
      exact neg_and_eq_iff (by decide : 4 ≤ 32) rfl

end Mask

/-! ## The registers of a device -/

section Bars

variable {bars : List PciBarEntry} {img : PciConfigImage}

/-- One register at a time. -/
theorem barMask_addBar {b : PciBarEntry} (h : ¬ 5 < b.index) :
    (addBar img b).barMask = Function.update img.barMask b.index.toNat (sizeMask b) := by
  rw [addBar, if_neg h]

/-- A register that is not declared keeps its mask. -/
theorem barMask_of_undeclared {i : Nat} (h : ∀ b ∈ bars, b.index.toNat ≠ i) :
    (bars.foldl addBar img).barMask i = img.barMask i := by
  induction bars generalizing img with
  | nil => rfl
  | cons b bars ih =>
    rw [List.foldl_cons, ih fun b' hb' => h b' (List.mem_cons_of_mem _ hb')]
    by_cases hindex : 5 < b.index
    · rw [addBar, if_pos hindex]
    · rw [barMask_addBar hindex, Function.update_of_ne (h b List.mem_cons_self).symm]

/-- A declared one has the mask of its entry. -/
theorem barMask_of_declared (hnodup : (bars.map (·.index)).Nodup)
    (hindex : ∀ b ∈ bars, ¬ 5 < b.index) {b : PciBarEntry} (hb : b ∈ bars) :
    (bars.foldl addBar img).barMask b.index.toNat = sizeMask b := by
  induction bars generalizing img with
  | nil => cases hb
  | cons b' bars ih =>
    rw [List.map_cons, List.nodup_cons] at hnodup
    rw [List.foldl_cons]
    rcases List.mem_cons.1 hb with rfl | hb
    · rw [barMask_of_undeclared, barMask_addBar (hindex b List.mem_cons_self), Function.update_self]
      intro b' hb' heq
      exact hnodup.1 (List.mem_map.2 ⟨b', hb', BitVec.eq_of_toNat_eq heq⟩)
    · exact ih hnodup.2 (fun b hb => hindex b (List.mem_cons_of_mem _ hb)) hb

end Bars

section Probe

variable {m : DeviceManifest} {e : PciDeviceEntry}

/-- What validation checks of the registers of an accepted device. -/
theorem bars_of_noError (h : NoError (findings m)) (he : e ∈ m.pci) :
    (e.bars.map (·.index)).Nodup ∧ ∀ b ∈ e.bars, ¬ 5 < b.index := by
  obtain ⟨seen, k, hno⟩ := pci_noError h he
  simp only [pciFindings, noError_append] at hno
  obtain ⟨⟨⟨-, hbars⟩, -⟩, -⟩ := hno
  constructor
  · refine nodup_of_noError ?_ hbars
    intro seen n b hb
    rw [barFindings, noError_append, noError_messageIf_err, noError_messageIf_err] at hb
    exact hb.2
  · intro b hb
    obtain ⟨seen', k', hsub⟩ := exists_subset_scanSeen hb
    have hno : NoError (barFindings _ seen' k' b) := fun f hf => hbars f (hsub f hf)
    rw [barFindings, noError_append, noError_messageIf_err] at hno
    exact hno.1

/-- **The probe is right for an accepted device iff every size it declares is a multiple of what the
type bits leave room for.** -/
theorem probeLaw_iff (h : (validate m []).1 = true) (he : e ∈ m.pci) :
    ProbeLaw e ↔ ∀ b ∈ e.bars, granule b ∣ b.size.toNat := by
  obtain ⟨hnodup, hindex⟩ := bars_of_noError (validate_iff.1 h) he
  constructor
  · intro hlaw b hb
    have hprobe := hlaw.declared b hb
    rw [synthesizePciConfig, barMask_of_declared hnodup hindex hb] at hprobe
    exact (probe_sizeMask_iff b).1 hprobe
  · intro hdvd
    constructor
    · intro b hb
      rw [synthesizePciConfig, barMask_of_declared hnodup hindex hb]
      exact (probe_sizeMask_iff b).2 (hdvd b hb)
    · intro i _ hi
      rw [synthesizePciConfig, barMask_of_undeclared hi]
      exact (by decide : probe 0 = 0)

/-- The network device of the default manifest, with a register in either space. -/
theorem probeLaw_tulip : ProbeLaw de500Tulip :=
  (probeLaw_iff validate_default (by decide)).2 (by decide)

/-- A manifest with one device that declares eight bytes of memory. -/
def smallBar : DeviceManifest :=
  { manifestVersion := 1
    pci := [{ vendor := 0x1011, bars := [{ index := 0, isMem := true, size := 8 }] }] }

/-- The device of eight bytes is accepted, and the probe finds sixteen. -/
theorem not_probeLaw_smallBar :
    (validate smallBar []).1 = true ∧ ¬ ∀ e ∈ smallBar.pci, ProbeLaw e := by
  refine ⟨by decide +kernel, fun h => ?_⟩
  have hprobe := (h _ List.mem_cons_self).declared _ List.mem_cons_self
  revert hprobe
  decide

end Probe

end PlatformConfig

end EmulatR
