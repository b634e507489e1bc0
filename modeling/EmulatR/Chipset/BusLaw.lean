import EmulatR.Chipset.BusDecode
import EmulatR.Library.BitFields

/-! # What a bus access does

The address map of the chipset, stated by the ends of its windows and apart from the cascades of
`TsunamiChipset`: who claims an address, and which chip claims an offset of the CSR and PCI space.

* `TsunamiBus.Claims`, `TsunamiBus.ChipClaims`: the map.
* `decodeRead_eq_iff`, `routeRead_eq_iff`: the cascades find what the map says.
* `MmioLaw`, `DecodeLaw`, `bus_decodes`: every access does what its one claimant does, at the
  claimant's own offset. -/

namespace EmulatR

open Library GuestMemory

namespace TsunamiBus

variable {δ : Type} (D : BusDevices δ)

/-! ## The address map -/

/-- The number is in a window that starts at `first` and ends in front of `limit`. -/
def Within (first limit n : Nat) : Prop := first ≤ n ∧ n < limit

/-- The array holds the address: it is enabled and has a size code, and the address is among the `16
MiB · 2 ^ (code - 1)` bytes from its base on. The base stands in bits 34 to 24 of the register, the
code in bits 15 to 12. -/
def Aar.Holds (a : Aar) (pa : Word) : Prop :=
  a.enabled = true ∧ a.base.toNat / 0x1000 % 16 ≠ 0 ∧
    Within (a.base.toNat / 0x1000000 % 0x800 * 0x1000000)
      (a.base.toNat / 0x1000000 % 0x800 * 0x1000000 +
        0x1000000 * 2 ^ (a.base.toNat / 0x1000 % 16 - 1)) pa.toNat

/-- Who claims an address, and at which offset. The trace-arm register is cut out of the TIG window,
and the CSR and PCI space has what is left above its start. -/
def Claims (d : δ) (pa : Word) : Claimant → Prop
  | .palScratch off =>
    Within 0xFFFFFF00000 0x100000000000 pa.toNat ∧ off.toNat = pa.toNat - 0xFFFFFF00000
  | .dram a => (∃ i, (D.aar d i).Holds pa) ∧ a = pa
  | .flash off =>
    Within 0x80100000000 0x80108000000 pa.toNat ∧ off.toNat = (pa.toNat - 0x80100000000) / 64
  | .traceArm => pa.toNat = 0x80130000FF8
  | .tig a =>
    Within 0x80130000000 0x80140000000 pa.toNat ∧ pa.toNat ≠ 0x80130000FF8 ∧ a = pa
  | .mmio off =>
    0x80000000000 ≤ pa.toNat ∧ ¬ Within 0xFFFFFF00000 0x100000000000 pa.toNat ∧
      ¬ Within 0x80100000000 0x80108000000 pa.toNat ∧
      ¬ Within 0x80130000000 0x80140000000 pa.toNat ∧ off.toNat = pa.toNat - 0x80000000000
  | .nxm => pa.toNat < 0x80000000000 ∧ ∀ i, ¬ (D.aar d i).Holds pa

/-- Which chip claims an offset of the CSR and PCI space, and at which offset of its own. The
generic port of the first Pchip has what the others leave. -/
def ChipClaims (off : Word) : Chip → Prop
  | .iack => off.toNat = 0x1F8000000
  | .pchip1 => Within 0x200000000 0x4000000000 off.toNat
  | .sparseMem o => Within 0x100000000 0x140000000 off.toNat ∧ o.toNat = off.toNat - 0x100000000
  | .sparseIo o => Within 0x140000000 0x180000000 off.toNat ∧ o.toNat = off.toNat - 0x140000000
  | .cchip o => Within 0x1A0000000 0x1B0000000 off.toNat ∧ o.toNat = off.toNat - 0x1A0000000
  | .dchip o => Within 0x1B0000000 0x1C0000000 off.toNat ∧ o.toNat = off.toNat - 0x1B0000000
  | .pchip o =>
    off.toNat ≠ 0x1F8000000 ∧ ¬ Within 0x100000000 0x180000000 off.toNat ∧
      ¬ Within 0x1A0000000 0x1C0000000 off.toNat ∧
      ¬ Within 0x200000000 0x4000000000 off.toNat ∧ o = off

/-! ## The cascades find the claimant -/

section Windows

variable (pa : Word)

/-- The scratch test is the scratch window. -/
theorem isPalScratchAddr_iff :
    isPalScratchAddr pa = true ↔ Within 0xFFFFFF00000 0x100000000000 pa.toNat := by
  rw [isPalScratchAddr, Bool.and_eq_true, decide_eq_true_iff, decide_eq_true_iff]
  exact Iff.rfl

/-- The flash test is the flash window. -/
theorem isTigFlashAddr_iff :
    isTigFlashAddr pa = true ↔ Within 0x80100000000 0x80108000000 pa.toNat := by
  rw [isTigFlashAddr, Bool.and_eq_true, decide_eq_true_iff, decide_eq_true_iff]
  exact Iff.rfl

/-- The TIG test is the TIG window. -/
theorem tigDecodes_iff : tigDecodes pa = true ↔ Within 0x80130000000 0x80140000000 pa.toNat := by
  rw [tigDecodes, Bool.and_eq_true, decide_eq_true_iff, decide_eq_true_iff]
  exact Iff.rfl

/-- The trace-arm register is one address. -/
theorem eq_kTigTraceArmReg_iff : pa = kTigTraceArmReg ↔ pa.toNat = 0x80130000FF8 :=
  BitVec.toNat_inj.symm

end Windows

/-- The base of an array is a field of its register. -/
theorem Aar.toNat_windowBase (a : Aar) :
    a.windowBase.toNat = a.base.toNat / 0x1000000 % 0x800 * 0x1000000 := by
  rw [Aar.windowBase, BitVec.toNat_shiftLeft, toNat_and_lowMask 11 rfl, BitVec.toNat_ushiftRight,
    Nat.shiftRight_eq_div_pow, Nat.shiftLeft_eq]
  omega

/-- The size of an array doubles with its code. -/
theorem Aar.toNat_windowSize (a : Aar) (h : a.base.toNat / 0x1000 % 16 ≠ 0) :
    a.windowSize.toNat = 0x1000000 * 2 ^ (a.base.toNat / 0x1000 % 16 - 1) := by
  have hcode : ((a.base >>> 12) &&& 0xF).toNat = a.base.toNat / 0x1000 % 16 := by
    rw [toNat_and_lowMask 4 rfl, BitVec.toNat_ushiftRight, Nat.shiftRight_eq_div_pow]
    rfl
  have hsizes : ∀ code < 16, code ≠ 0 →
      ((16 * 1024 * 1024 : Word) <<< (code - 1)).toNat = 0x1000000 * 2 ^ (code - 1) := by decide
  rw [Aar.windowSize, hcode]
  exact (congrArg BitVec.toNat (if_neg h)).trans (hsizes _ (Nat.mod_lt _ (by decide)) h)

/-- The window of an array ends below 2³⁹. -/
theorem Aar.window_lt (a : Aar) :
    a.base.toNat / 0x1000000 % 0x800 * 0x1000000 +
      0x1000000 * 2 ^ (a.base.toNat / 0x1000 % 16 - 1) < 2 ^ 39 := by
  have hpow : 2 ^ (a.base.toNat / 0x1000 % 16 - 1) ≤ 2 ^ 14 :=
    Nat.pow_le_pow_right (by decide) (by omega)
  omega

/-- The decode test of an array is that it holds the address. -/
theorem Aar.claims_iff (a : Aar) (pa : Word) : a.claims pa = true ↔ a.Holds pa := by
  rw [Aar.claims, Aar.Holds, Within]
  by_cases hcode : a.base.toNat / 0x1000 % 16 = 0
  · have hsize : a.windowSize = 0 := by
      rw [Aar.windowSize, toNat_and_lowMask 4 rfl, BitVec.toNat_ushiftRight,
        Nat.shiftRight_eq_div_pow]
      exact if_pos hcode
    simp [hsize, hcode]
  · have hsize := a.toNat_windowSize hcode
    have hbound := a.window_lt
    have hne : a.windowSize ≠ 0 := by
      intro h
      rw [h, show (0 : Word).toNat = 0 from rfl] at hsize
      have := Nat.two_pow_pos (a.base.toNat / 0x1000 % 16 - 1)
      omega
    have hend : (a.windowBase + a.windowSize).toNat = a.base.toNat / 0x1000000 % 0x800 * 0x1000000 +
        0x1000000 * 2 ^ (a.base.toNat / 0x1000 % 16 - 1) := by
      rw [BitVec.toNat_add, a.toNat_windowBase, hsize, Nat.mod_eq_of_lt (by omega)]
    simp only [Bool.and_eq_true, bne_iff_ne, decide_eq_true_eq, BitVec.le_def, BitVec.lt_def,
      a.toNat_windowBase, hend, ne_eq, hne, hcode, not_false_eq_true, true_and, and_true, and_assoc]

/-- An array holds addresses below 2³⁹ only. -/
theorem Aar.Holds.lt {a : Aar} {pa : Word} (h : a.Holds pa) : pa.toNat < 2 ^ 39 :=
  h.2.2.2.trans a.window_lt

/-- The DRAM test is that some array holds the address. -/
theorem isDramAddress_iff (d : δ) (pa : Word) :
    isDramAddress D d pa = true ↔ ∃ i, (D.aar d i).Holds pa := by
  simp [isDramAddress, Aar.claims_iff]

/-- An offset is the difference that its number says. -/
theorem sub_eq_of_toNat {x base o : Word} (hle : base ≤ x) (ho : o.toNat = x.toNat - base.toNat) :
    x - base = o :=
  BitVec.eq_of_toNat_eq ((BitVec.toNat_sub_of_le hle).trans ho.symm)

/-- The offset of an address in the flash counts steps of 64 bytes. -/
theorem toNat_tigFlashOffset {pa : Word} (h : Within 0x80100000000 0x80108000000 pa.toNat) :
    (tigFlashOffset pa).toNat = (pa.toNat - 0x80100000000) / 64 := by
  have hsub : (pa - kTigFlashBase).toNat = pa.toNat - 0x80100000000 := BitVec.toNat_sub_of_le h.1
  have hend := h.2
  rw [tigFlashOffset, BitVec.toNat_setWidth, BitVec.toNat_ushiftRight, Nat.shiftRight_eq_div_pow,
    hsub]
  omega

/-- **The cascade of reads finds a claimant.** -/
theorem claims_decodeRead (d : δ) (pa : Word) : Claims D d pa (decodeRead D d pa) := by
  have hdram := isDramAddress_iff D d pa
  rw [decodeRead]
  split_ifs with hs hd hf ha ht hm
  · have hs := (isPalScratchAddr_iff pa).1 hs
    exact ⟨hs, BitVec.toNat_sub_of_le hs.1⟩
  · exact ⟨hdram.1 hd, rfl⟩
  · have hf := (isTigFlashAddr_iff pa).1 hf
    exact ⟨hf, toNat_tigFlashOffset hf⟩
  · exact (eq_kTigTraceArmReg_iff pa).1 ha
  · exact ⟨(tigDecodes_iff pa).1 ht, fun h => ha ((eq_kTigTraceArmReg_iff pa).2 h), rfl⟩
  · refine ⟨hm, fun h => hs ((isPalScratchAddr_iff pa).2 h),
      fun h => hf ((isTigFlashAddr_iff pa).2 h), fun h => ht ((tigDecodes_iff pa).2 h), ?_⟩
    exact BitVec.toNat_sub_of_le hm
  · exact ⟨not_le.1 hm, fun i h => hd (hdram.2 ⟨i, h⟩)⟩

/-- A claimant is the one that the cascade finds. -/
theorem decodeRead_of_claims {d : δ} {pa : Word} {k : Claimant} (h : Claims D d pa k) :
    decodeRead D d pa = k := by
  have hs := isPalScratchAddr_iff pa
  have hf := isTigFlashAddr_iff pa
  have ht := tigDecodes_iff pa
  have ha := eq_kTigTraceArmReg_iff pa
  have hm : kMMIO_Start ≤ pa ↔ 0x80000000000 ≤ pa.toNat := Iff.rfl
  -- an array ends below the other windows
  have hd : isDramAddress D d pa = true → pa.toNat < 2 ^ 39 := fun h =>
    ((isDramAddress_iff D d pa).1 h).elim fun _ => Aar.Holds.lt
  simp only [Within] at hs hf ht
  cases k with
  | palScratch off =>
    have hoff : pa - kPalScratchBase = off := sub_eq_of_toNat h.1.1 h.2
    rw [decodeRead, if_pos (hs.2 h.1), hoff]
  | dram a =>
    obtain ⟨hholds, rfl⟩ := h
    have hdram := (isDramAddress_iff D d a).2 hholds
    have hlt := hd hdram
    rw [decodeRead, if_neg (mt hs.1 (by omega)), if_pos hdram]
  | flash off =>
    have hoff := BitVec.eq_of_toNat_eq ((toNat_tigFlashOffset h.1).trans h.2.symm)
    obtain ⟨⟨hfirst, hlimit⟩, -⟩ := h
    rw [decodeRead, if_neg (mt hs.1 (by omega)), if_neg (mt hd (by omega)),
      if_pos (hf.2 ⟨hfirst, hlimit⟩), hoff]
  | traceArm =>
    have hpa : pa.toNat = 0x80130000FF8 := h
    rw [decodeRead, if_neg (mt hs.1 (by omega)), if_neg (mt hd (by omega)),
      if_neg (mt hf.1 (by omega)), if_pos (ha.2 hpa)]
  | tig a =>
    obtain ⟨⟨hfirst, hlimit⟩, harm, rfl⟩ := h
    rw [decodeRead, if_neg (mt hs.1 (by omega)), if_neg (mt hd (by omega)),
      if_neg (mt hf.1 (by omega)), if_neg (mt ha.1 harm), if_pos (ht.2 ⟨hfirst, hlimit⟩)]
  | mmio off =>
    obtain ⟨hfirst, hns, hnf, hnt, hoff⟩ := h
    have harm : pa ≠ kTigTraceArmReg := fun h => hnt (h ▸ ⟨by decide, by decide⟩)
    have hsub : pa - kMMIO_Start = off := sub_eq_of_toNat (hm.2 hfirst) hoff
    rw [decodeRead, if_neg (mt hs.1 hns), if_neg (mt hd (by omega)), if_neg (mt hf.1 hnf),
      if_neg harm, if_neg (mt ht.1 hnt), if_pos (hm.2 hfirst), hsub]
  | nxm =>
    obtain ⟨hlow, hnone⟩ := h
    have hnd : ¬ isDramAddress D d pa = true := fun h =>
      ((isDramAddress_iff D d pa).1 h).elim hnone
    rw [decodeRead, if_neg (mt hs.1 (by omega)), if_neg hnd, if_neg (mt hf.1 (by omega)),
      if_neg (mt ha.1 (by omega)), if_neg (mt ht.1 (by omega)), if_neg (mt hm.1 (by omega))]

/-- **The cascade finds the claimant of the map**, and each address has one. -/
theorem decodeRead_eq_iff {d : δ} {pa : Word} {k : Claimant} :
    decodeRead D d pa = k ↔ Claims D d pa k :=
  ⟨fun h => h ▸ claims_decodeRead D d pa, decodeRead_of_claims D⟩

/-! ## The dispatches find the chip -/

/-- No two rows of the region table overlap. -/
theorem kRegionTable_disjoint :
    ∀ r ∈ kRegionTable, ∀ s ∈ kRegionTable, r = s ∨ r.2.1 ≤ s.1 ∨ s.2.1 ≤ r.1 := by decide

/-- Each region has one row. -/
theorem kRegionTable_nodup : (kRegionTable.map fun r => r.2.2).Nodup := by decide

/-- The test of a row is its window. -/
theorem row_test_iff (row : Word × Word × RegionId) (off : Word) :
    (decide (row.1 ≤ off) && decide (off < row.2.1)) = true ↔
      Within row.1.toNat row.2.1.toNat off.toNat := by
  rw [Bool.and_eq_true, decide_eq_true_iff, decide_eq_true_iff]
  exact Iff.rfl

/-- An offset is routed to a region iff it is in the window of the region's row. -/
theorem routeMmioOffset_iff (off : Word) (row : Word × Word × RegionId) (hrow : row ∈ kRegionTable) :
    routeMmioOffset off = row.2.2 ↔ Within row.1.toNat row.2.1.toNat off.toNat := by
  rw [routeMmioOffset]
  cases hfind : kRegionTable.find? fun r => decide (r.1 ≤ off) && decide (off < r.2.1) with
  | none =>
    have hout := List.find?_eq_none.1 hfind row hrow
    rw [row_test_iff] at hout
    have hnamed : ∀ r ∈ kRegionTable, RegionId.none ≠ r.2.2 := by decide
    exact iff_of_false (hnamed row hrow) hout
  | some found =>
    have hmem := List.mem_of_find?_eq_some hfind
    have htest : (decide (found.1 ≤ off) && decide (off < found.2.1)) = true :=
      List.find?_some (p := fun r : Word × Word × RegionId =>
        decide (r.1 ≤ off) && decide (off < r.2.1)) hfind
    have hin := (row_test_iff found off).1 htest
    constructor
    · intro hid
      exact List.inj_on_of_nodup_map kRegionTable_nodup hmem hrow hid ▸ hin
    · rintro ⟨hfirst, hlimit⟩
      obtain ⟨hfirst', hlimit'⟩ := hin
      obtain rfl | hle | hle := kRegionTable_disjoint found hmem row hrow
      · rfl
      · have hle := BitVec.le_def.1 hle
        omega
      · have hle := BitVec.le_def.1 hle
        omega

section Routes

variable (off : Word)

/-- The sparse memory region is its window. -/
theorem routeMmioOffset_sparseMem_iff :
    routeMmioOffset off = .pchip0SparseMem ↔ Within 0x100000000 0x140000000 off.toNat :=
  routeMmioOffset_iff off (kPchip0_SparseMem, 0x140000000, .pchip0SparseMem) (by decide)

/-- The sparse I/O region is its window. -/
theorem routeMmioOffset_sparseIo_iff :
    routeMmioOffset off = .pchip0SparseIo ↔ Within 0x140000000 0x180000000 off.toNat :=
  routeMmioOffset_iff off (kPchip0_SparseIo, 0x180000000, .pchip0SparseIo) (by decide)

/-- The Cchip region is its window. -/
theorem routeMmioOffset_cchip_iff :
    routeMmioOffset off = .cchipCSR ↔ Within 0x1A0000000 0x1B0000000 off.toNat :=
  routeMmioOffset_iff off (kCchip_CSR, 0x1B0000000, .cchipCSR) (by decide)

/-- The Dchip region is its window. -/
theorem routeMmioOffset_dchip_iff :
    routeMmioOffset off = .dchipCSR ↔ Within 0x1B0000000 0x1C0000000 off.toNat :=
  routeMmioOffset_iff off (kDchip_CSR, 0x1C0000000, .dchipCSR) (by decide)

/-- The test of the second Pchip is its window. -/
theorem pchip1_test_iff :
    (kPchip1_PciMem ≤ off ∧ off < kMMIO_Size) ↔ Within 0x200000000 0x4000000000 off.toNat := Iff.rfl

/-- The interrupt acknowledge cycle is one offset. -/
theorem eq_iackOffset_iff : off = 0x1F8000000 ↔ off.toNat = 0x1F8000000 := BitVec.toNat_inj.symm

/-- **The dispatch of reads finds a chip.** -/
theorem chipClaims_routeRead : ChipClaims off (routeRead off) := by
  have hmem := routeMmioOffset_sparseMem_iff off
  have hio := routeMmioOffset_sparseIo_iff off
  have hcchip := routeMmioOffset_cchip_iff off
  have hdchip := routeMmioOffset_dchip_iff off
  rw [routeRead]
  split_ifs with hiack hpchip1
  · exact (eq_iackOffset_iff off).1 hiack
  · exact hpchip1
  · cases hregion : routeMmioOffset off with
    | pchip0SparseMem =>
      have hin := hmem.1 hregion
      exact ⟨hin, BitVec.toNat_sub_of_le hin.1⟩
    | pchip0SparseIo =>
      have hin := hio.1 hregion
      exact ⟨hin, BitVec.toNat_sub_of_le hin.1⟩
    | cchipCSR =>
      have hin := hcchip.1 hregion
      exact ⟨hin, BitVec.toNat_sub_of_le hin.1⟩
    | dchipCSR =>
      have hin := hdchip.1 hregion
      exact ⟨hin, BitVec.toNat_sub_of_le hin.1⟩
    | _ =>
      rw [hregion] at hmem hio hcchip hdchip
      simp only [reduceCtorEq, false_iff, Within] at hmem hio hcchip hdchip
      refine ⟨mt (eq_iackOffset_iff off).2 hiack, ?_, ?_, hpchip1, rfl⟩
      · rintro ⟨_, _⟩
        omega
      · rintro ⟨_, _⟩
        omega

/-- A chip that claims the offset is the one that the dispatch of reads finds. -/
theorem routeRead_of_claims {off : Word} {k : Chip} (h : ChipClaims off k) : routeRead off = k := by
  have hiack := eq_iackOffset_iff off
  have hpchip1 := pchip1_test_iff off
  have hmem := routeMmioOffset_sparseMem_iff off
  have hio := routeMmioOffset_sparseIo_iff off
  have hcchip := routeMmioOffset_cchip_iff off
  have hdchip := routeMmioOffset_dchip_iff off
  simp only [Within] at hpchip1
  cases k with
  | iack => rw [routeRead, if_pos (hiack.2 h)]
  | pchip1 =>
    have hin : Within 0x200000000 0x4000000000 off.toNat := h
    obtain ⟨hfirst, hlimit⟩ := hin
    rw [routeRead, if_neg (mt hiack.1 (by omega)), if_pos (hpchip1.2 ⟨hfirst, hlimit⟩)]
  | sparseMem o =>
    obtain ⟨hin, ho⟩ := h
    have hsub : off - kPchip0_SparseMem = o := sub_eq_of_toNat hin.1 ho
    have hlimit := hin.2
    rw [routeRead, if_neg (mt hiack.1 (by omega)), if_neg (mt hpchip1.1 (by omega)), hmem.2 hin]
    exact congrArg Chip.sparseMem hsub
  | sparseIo o =>
    obtain ⟨hin, ho⟩ := h
    have hsub : off - kPchip0_SparseIo = o := sub_eq_of_toNat hin.1 ho
    have hlimit := hin.2
    rw [routeRead, if_neg (mt hiack.1 (by omega)), if_neg (mt hpchip1.1 (by omega)), hio.2 hin]
    exact congrArg Chip.sparseIo hsub
  | cchip o =>
    obtain ⟨hin, ho⟩ := h
    have hsub : off - kCchip_CSR = o := sub_eq_of_toNat hin.1 ho
    have hlimit := hin.2
    rw [routeRead, if_neg (mt hiack.1 (by omega)), if_neg (mt hpchip1.1 (by omega)), hcchip.2 hin]
    exact congrArg Chip.cchip hsub
  | dchip o =>
    obtain ⟨hin, ho⟩ := h
    have hsub : off - kDchip_CSR = o := sub_eq_of_toNat hin.1 ho
    have hlimit := hin.2
    rw [routeRead, if_neg (mt hiack.1 (by omega)), if_neg (mt hpchip1.1 (by omega)), hdchip.2 hin]
    exact congrArg Chip.dchip hsub
  | pchip o =>
    obtain ⟨hni, hsparse, hcsr, hnp, rfl⟩ := h
    simp only [Within] at hsparse hcsr hnp
    have hnmem := mt hmem.1 (by simp only [Within]; omega)
    have hnio := mt hio.1 (by simp only [Within]; omega)
    have hncchip := mt hcchip.1 (by simp only [Within]; omega)
    have hndchip := mt hdchip.1 (by simp only [Within]; omega)
    rw [routeRead, if_neg (mt hiack.1 hni), if_neg (mt hpchip1.1 hnp)]
    cases hregion : routeMmioOffset o with
    | pchip0SparseMem => exact absurd hregion hnmem
    | pchip0SparseIo => exact absurd hregion hnio
    | cchipCSR => exact absurd hregion hncchip
    | dchipCSR => exact absurd hregion hndchip
    | _ => rfl

/-- The dispatch of reads finds the chip of the map, and each offset has one. -/
theorem routeRead_eq_iff {off : Word} {k : Chip} : routeRead off = k ↔ ChipClaims off k :=
  ⟨fun h => h ▸ chipClaims_routeRead off, routeRead_of_claims⟩

/-- The dispatch of writes sends what reads treat in their own way to the generic port. -/
theorem routeWrite_of_readsElsewhere {off : Word} (h : ReadsElsewhere off) :
    routeWrite off = .pchip off := by
  obtain rfl | hregion := h
  · decide
  · have hin := (routeMmioOffset_sparseMem_iff off).1 hregion
    have hnp : ¬ (kPchip1_PciMem ≤ off ∧ off < kMMIO_Size) := by
      rw [pchip1_test_iff]
      rintro ⟨_, _⟩
      have := hin.2
      omega
    rw [routeWrite, if_neg hnp, hregion]

/-- Every other write goes where a read goes. -/
theorem routeWrite_of_claims {off : Word} {k : Chip} (h : ChipClaims off k) (hk : k ≠ .iack)
    (hmem : ∀ o, k ≠ .sparseMem o) : routeWrite off = k := by
  have hread := routeRead_of_claims h
  rw [routeWrite_eq, hread]
  rintro (rfl | hregion)
  · exact hk (hread.symm.trans (by decide))
  · have hin := (routeMmioOffset_sparseMem_iff off).1 hregion
    have hsparse : ChipClaims off (.sparseMem (off - kPchip0_SparseMem)) :=
      ⟨hin, BitVec.toNat_sub_of_le hin.1⟩
    exact hmem _ (hread.symm.trans (routeRead_of_claims hsparse))

end Routes

/-! ## The law -/

section Law

/-- **What an access to the CSR and PCI space does**: what the one chip that claims the offset does,
at the chip's own offset. The interrupt acknowledge cycle and sparse memory are for reads only, and
writes there go to the generic port of the first Pchip. The second Pchip is not populated. -/
structure MmioLaw (d : δ) (off value : Word) (width : Nat) : Prop where
  /-- One chip claims the offset. -/
  chip : ∃! k, ChipClaims off k
  /-- A read is the interrupt acknowledge cycle. -/
  iack : ChipClaims off .iack → mmioRead D d off width = D.iack d ∧
    mmioWrite D d off value width = D.pchipWrite d off value width
  /-- Nobody is there. -/
  pchip1 : ChipClaims off .pchip1 → mmioRead D d off width = (d, 0xFFFFFFFF) ∧
    mmioWrite D d off value width = d
  /-- A read decodes the sparse offset, a write does not. -/
  sparseMem : ∀ o, ChipClaims off (.sparseMem o) →
    mmioRead D d off width = D.pchipReadSparseMem d o ∧
      mmioWrite D d off value width = D.pchipWrite d off value width
  /-- Reads and writes decode the sparse offset, which carries the width. -/
  sparseIo : ∀ o, ChipClaims off (.sparseIo o) →
    mmioRead D d off width = D.pchipReadSparseIo d o ∧
      mmioWrite D d off value width = D.pchipWriteSparseIo d o value
  /-- The registers of the Cchip. -/
  cchip : ∀ o, ChipClaims off (.cchip o) → mmioRead D d off width = D.cchipRead d o ∧
    mmioWrite D d off value width = D.cchipWrite d o value
  /-- The registers of the Dchip. -/
  dchip : ∀ o, ChipClaims off (.dchip o) → mmioRead D d off width = D.dchipRead d o ∧
    mmioWrite D d off value width = D.dchipWrite d o value
  /-- The generic port takes the offset as it is, and the width. -/
  pchip : ∀ o, ChipClaims off (.pchip o) → mmioRead D d off width = D.pchipRead d o width ∧
    mmioWrite D d off value width = D.pchipWrite d o value width

/-- **Every access to the CSR and PCI space obeys the law of the chips.** -/
theorem mmioLaw (d : δ) (off value : Word) (width : Nat) : MmioLaw D d off value width := by
  have hread {k : Chip} (h : ChipClaims off k) := routeRead_of_claims h
  refine ⟨⟨routeRead off, chipClaims_routeRead off, fun k h => (hread h).symm⟩, fun h => ?_,
    fun h => ?_, fun o h => ?_, fun o h => ?_, fun o h => ?_, fun o h => ?_, fun o h => ?_⟩
  · have hoff : off = 0x1F8000000 := (eq_iackOffset_iff off).2 h
    rw [mmioRead, mmioWrite, hread h, routeWrite_of_readsElsewhere (Or.inl hoff)]
    exact ⟨rfl, rfl⟩
  · rw [mmioRead, mmioWrite, hread h, routeWrite_of_claims h (by decide) (by simp)]
    exact ⟨rfl, rfl⟩
  · have hregion := (routeMmioOffset_sparseMem_iff off).2 h.1
    rw [mmioRead, mmioWrite, hread h, routeWrite_of_readsElsewhere (Or.inr hregion)]
    exact ⟨rfl, rfl⟩
  all_goals
    rw [mmioRead, mmioWrite, hread h, routeWrite_of_claims h (by simp) (by simp)]
    exact ⟨rfl, rfl⟩

variable (c : Chipset (BusSide δ)) (pa value : Word) (width : Nat)

/-- **What a bus access of a legal width does**: what the one claimant of the address does, at the
claimant's own offset, for reads and writes alike. -/
structure DecodeLaw : Prop where
  /-- One claimant answers. -/
  claimant : ∃! k, Claims D c.devices.devices pa k
  /-- Reads and writes find it, with the same offset. -/
  sameClaimant : ∀ k, Claims D c.devices.devices pa k →
    decodeRead D c.devices.devices pa = k ∧ decodeWrite D c.devices.devices pa = k
  /-- In the CSR and PCI space they reach the same chip, at the same offset. -/
  sameChip : ∀ off, Claims D c.devices.devices pa (.mmio off) → ¬ ReadsElsewhere off →
    routeWrite off = routeRead off
  /-- An access inside the scratch RAM reads or writes its bytes there, and nothing else. -/
  palScratch : ∀ off, Claims D c.devices.devices pa (.palScratch off) →
    off.toNat + width ≤ 0x100000 →
    read D c pa width =
        (c, ⟨.ok, leWord (fun i => c.devices.palScratch (off.toNat + i)) width⟩) ∧
      write D c pa value width =
        ({ c with devices := { c.devices with
            palScratch := fun i =>
              if off.toNat ≤ i ∧ i < off.toNat + width then byteOf value (i - off.toNat)
              else c.devices.palScratch i } }, ⟨.ok, 0⟩)
  /-- An access to DRAM is one of guest memory. -/
  dram : Claims D c.devices.devices pa (.dram pa) →
    read D c pa width = (c, ⟨.ok, c.memory.read pa width⟩) ∧
      write D c pa value width =
        ({ c with memory := (c.memory.write pa value width).1 }, ⟨.ok, 0⟩)
  /-- An access to flash is one of its command machine. -/
  flash : ∀ off, Claims D c.devices.devices pa (.flash off) →
    read D c pa width =
        (setDevices c (D.flashRead c.devices.devices off).1,
          ⟨.ok, (D.flashRead c.devices.devices off).2⟩) ∧
      write D c pa value width =
        (setDevices c (D.flashWrite c.devices.devices off value), ⟨.ok, 0⟩)
  /-- A read of the trace-arm register opens the window for good, and a write sets its length. -/
  traceArm : Claims D c.devices.devices pa .traceArm →
    read D c pa width =
        (setDevices c (D.setTraceWindowCountdown c.devices.devices 0x7FFFFFFFFFFFFFFF),
          ⟨.ok, 0x7FFFFFFFFFFFFFFF⟩) ∧
      write D c pa value width =
        (setDevices c (D.setTraceWindowCountdown c.devices.devices value), ⟨.ok, 0⟩)
  /-- An access to the TIG registers is theirs. -/
  tig : Claims D c.devices.devices pa (.tig pa) →
    read D c pa width =
        (setDevices c (D.tigRead c.devices.devices pa).1,
          ⟨.ok, (D.tigRead c.devices.devices pa).2⟩) ∧
      write D c pa value width = (setDevices c (D.tigWrite c.devices.devices pa value), ⟨.ok, 0⟩)
  /-- An access to the CSR and PCI space is one of its chips. -/
  mmio : ∀ off, Claims D c.devices.devices pa (.mmio off) →
    read D c pa width =
        (setDevices c (mmioRead D c.devices.devices off width).1,
          ⟨.ok, (mmioRead D c.devices.devices off width).2⟩) ∧
      write D c pa value width =
        (setDevices c (mmioWrite D c.devices.devices off value width), ⟨.ok, 0⟩) ∧
      MmioLaw D c.devices.devices off value width
  /-- An access nobody claims is latched and completes: a read with all ones, a write dropped. -/
  unclaimed : Claims D c.devices.devices pa .nxm →
    read D c pa width = (setDevices c (D.reportNxm c.devices.devices pa), ⟨.ok, ~~~0⟩) ∧
      write D c pa value width = (setDevices c (D.reportNxm c.devices.devices pa), ⟨.ok, 0⟩)
  /-- Guest memory is written by a DRAM write only. -/
  memory : (∀ a, ¬ Claims D c.devices.devices pa (.dram a)) →
    (write D c pa value width).1.memory = c.memory
  /-- The scratch RAM is written by a scratch write only. -/
  scratch : (∀ off, ¬ Claims D c.devices.devices pa (.palScratch off)) →
    (write D c pa value width).1.devices.palScratch = c.devices.palScratch
  /-- A read changes neither. -/
  readOnly : (read D c pa width).1.memory = c.memory ∧
    (read D c pa width).1.devices.palScratch = c.devices.palScratch
  /-- A backed write succeeds and is read back. -/
  readBack : Backed D c pa width → (write D c pa value width).2 = ⟨.ok, 0⟩ ∧
    (read D (write D c pa value width).1 pa width).2 = ⟨.ok, cut value width⟩

/-- The end test of the scratch RAM does not wrap for an offset in it. -/
theorem inScratch_iff {off : Word} (hoff : off.toNat < 0x100000) (hw : LegalWidth width) :
    inScratch off width = true ↔ off.toNat + width ≤ 0x100000 := by
  have hwidth := hw.pos.2
  have hend : (off + BitVec.ofNat 64 width).toNat = off.toNat + width := by
    rw [BitVec.toNat_add, BitVec.toNat_ofNat, Nat.mod_eq_of_lt (by omega : width < 2 ^ 64),
      Nat.mod_eq_of_lt (by omega)]
  rw [inScratch, decide_eq_true_iff, BitVec.le_def, hend]
  exact Iff.rfl

/-- **How the bus decodes.** Every access of a legal width obeys the decode law, and a write of
another width is refused. -/
theorem bus_decodes :
    (LegalWidth width → DecodeLaw D c pa value width) ∧
      (¬ LegalWidth width → write D c pa value width = (c, ⟨.busError, 0⟩)) := by
  refine ⟨fun hw => ?_, fun hw => if_pos hw⟩
  have hlegal : ¬ ¬ LegalWidth width := not_not.2 hw
  have hdecode {k : Claimant} (h : Claims D c.devices.devices pa k) := decodeRead_of_claims D h
  exact {
    claimant := ⟨_, claims_decodeRead D _ pa, fun k h => (hdecode h).symm⟩
    sameClaimant := fun k h => ⟨hdecode h, hdecode h⟩
    sameChip := fun off _ ho => routeWrite_eq ho
    palScratch := fun off h hin => by
      have hoff : off.toNat < 0x100000 := by
        obtain ⟨⟨_, _⟩, _⟩ := h
        omega
      have htest := (inScratch_iff width hoff hw).2 hin
      constructor
      · simp only [read, hdecode h, if_pos htest]
      · simp only [write, decodeWrite_eq, hdecode h, if_neg hlegal, if_pos htest]
        rfl
    dram := fun h => by
      constructor
      · simp only [read, hdecode h, dramRead_eq _ _ hw]
      · simp only [write, decodeWrite_eq, hdecode h, if_neg hlegal, dramWrite_eq]
    flash := fun off h => by
      constructor
      · simp only [read, hdecode h]
      · simp only [write, decodeWrite_eq, hdecode h, if_neg hlegal]
    traceArm := fun h => by
      constructor
      · simp only [read, hdecode h]
      · simp only [write, decodeWrite_eq, hdecode h, if_neg hlegal]
    tig := fun h => by
      constructor
      · simp only [read, hdecode h]
      · simp only [write, decodeWrite_eq, hdecode h, if_neg hlegal]
    mmio := fun off h => by
      refine ⟨?_, ?_, mmioLaw D _ off value width⟩
      · simp only [read, hdecode h]
      · simp only [write, decodeWrite_eq, hdecode h, if_neg hlegal]
    unclaimed := fun h => by
      constructor
      · simp only [read, hdecode h]
      · simp only [write, decodeWrite_eq, hdecode h, if_neg hlegal]
    memory := fun h => write_memory fun a ha => h a ((decodeRead_eq_iff D).1 ha)
    scratch := fun h => write_palScratch fun off ho => h off ((decodeRead_eq_iff D).1 ho)
    readOnly := read_storage
    readBack := read_write_backed hw }

end Law

/-- Devices that keep no state and answer zero. -/
def quietDevices : BusDevices Unit where
  aar _ _ := {}
  flashRead _ _ := ((), 0)
  flashWrite _ _ _ := ()
  setTraceWindowCountdown _ _ := ()
  tigRead _ _ := ((), 0)
  tigWrite _ _ _ := ()
  iack _ := ((), 0)
  cchipRead _ _ := ((), 0)
  cchipWrite _ _ _ := ()
  dchipRead _ _ := ((), 0)
  dchipWrite _ _ _ := ()
  pchipReadSparseMem _ _ := ((), 0)
  pchipReadSparseIo _ _ := ((), 0)
  pchipWriteSparseIo _ _ _ := ()
  pchipRead _ _ _ := ((), 0)
  pchipWrite _ _ _ _ := ()
  reportNxm _ _ := ()

/-- **The bus does more than the plain decode, and reports less.** Reads and writes of sparse memory
go to different offsets; a quadword written over the end of the scratch window is not read back; and
a read that nobody claims reports success. -/
theorem bus_decode_is_not_plain :
    (¬ ∀ off, routeWrite off = routeRead off) ∧
    (¬ ∀ (c : Chipset (BusSide Unit)) (pa value : Word) (width : Nat), LegalWidth width →
      isPalScratchAddr pa = true →
        (read quietDevices (write quietDevices c pa value width).1 pa width).2.data =
          cut value width) ∧
    (¬ ∀ (c : Chipset (BusSide Unit)) (pa : Word) (width : Nat), LegalWidth width →
      decodeRead quietDevices () pa = .nxm →
        (read quietDevices c pa width).2.status = .busError) := by
  refine ⟨fun h => absurd (h 0x100000000) (by decide), fun h => ?_, fun h => ?_⟩
  · exact absurd (h ⟨.empty 1, ⟨fun _ => 0, ()⟩⟩ 0xFFFFFFFFFFF 1 8 (by decide) (by decide))
      (by decide +kernel)
  · exact absurd (h ⟨.empty 1, ⟨fun _ => 0, ()⟩⟩ 0x2000000000 8 (by decide) (by decide))
      (by decide +kernel)

end TsunamiBus

end EmulatR
