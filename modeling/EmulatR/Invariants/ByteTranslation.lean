import EmulatR.Chipset.BusDecode
import EmulatR.Invariants.Granularity
import EmulatR.Invariants.Superpage

/-! # One translation for all bytes of an access

The drain stage translates the first byte of an access and hands the physical address with the width
to the bus (pipelineLib/MemDrainer.h); the other bytes follow the first one physically. With traps
disabled a misaligned access may run into the next page, whose mapping is never looked at.

`frameOf` is the page map that the data stream of a CPU sees. A translation is its page's frame with
the offset in the page, which a superpage drops; so the bytes of an access are where their own
translations put them exactly where the pages it touches are mapped one after the other.

`ownBytes_iff` is the exact condition; `straddling_store_does_not_fault` is a store that breaks
it. -/

namespace EmulatR

open GuestMemory

namespace AlphaPte

instance (pte : AlphaPte) (mode : ModePrivilege) (access : AccessKind) :
    Decidable (pte.Permits mode access) :=
  match access with
  | .dataRead => inferInstanceAs (Decidable (_ ∧ _))
  | .dataWrite => inferInstanceAs (Decidable (_ ∧ _))
  | .execute => inferInstanceAs (Decidable (_ ∧ _))

end AlphaPte

namespace Ev6Translator

/-! ## Pages -/

/-- The offset of an address in its page. -/
def pageOffset (va : Word) : Nat := va.toNat % 0x2000

/-- The first address of the next page; after the last page comes the first one. -/
def nextPage (va : Word) : Word := pageBase va + 0x2000

/-- The first byte of the physical page that the data stream has an address's page at, if the page
may be accessed. -/
def frameOf (cpu : CpuState) (access : AccessKind) (va : Word) : Option Word :=
  if isCanonicalVA va cpu.vaCtl then
    match (superpageMap va cpu.mSpe).map pageBase with
    | some page => if cpu.mode = .kernel then some page else none
    | none =>
      match cpu.dtbMgr.lookup .dtb va cpu.asn with
      | some pte =>
        if pte.Permits cpu.mode access then some ((pte.pfn <<< 13) &&& paMask) else none
      | none => none
  else none

/-- The offset that a translation keeps: a superpage's is dropped. -/
def keptOffset (cpu : CpuState) (va : Word) : Nat :=
  if (superpageMap va cpu.mSpe).isSome then 0 else pageOffset va

/-- An offset is inside its page. -/
theorem pageOffset_lt (va : Word) : pageOffset va < 0x2000 := Nat.mod_lt _ (by decide)

/-- The base is the address less its offset. -/
theorem toNat_pageBase (va : Word) : (pageBase va).toNat = va.toNat - pageOffset va :=
  Library.toNat_and_not_lowMask 13 rfl

/-- Two addresses are in one page iff they agree from bit 13 up. -/
theorem vaToVpn_eq_iff {va va' : Word} :
    vaToVpn va = vaToVpn va' ↔ va.toNat / 0x2000 = va'.toNat / 0x2000 := by
  rw [vaToVpn, vaToVpn, ← BitVec.toNat_inj, BitVec.toNat_ushiftRight, BitVec.toNat_ushiftRight,
    Nat.shiftRight_eq_div_pow, Nat.shiftRight_eq_div_pow]

/-- Addresses on one page have the same upper bits. -/
theorem getLsbD_of_vaToVpn {va va' : Word} (h : vaToVpn va = vaToVpn va') {i : Nat}
    (hi : 13 ≤ i) : va.getLsbD i = va'.getLsbD i := by
  have hbit := congrArg (BitVec.getLsbD · (i - 13)) h
  simpa only [vaToVpn, BitVec.getLsbD_ushiftRight, Nat.add_sub_cancel' hi] using hbit

/-- A byte of the access in the page of the first. -/
theorem vaToVpn_add {va : Word} {i : Nat} (h : pageOffset va + i < 0x2000) :
    vaToVpn (va + BitVec.ofNat 64 i) = vaToVpn va := by
  rw [pageOffset] at h
  rw [vaToVpn_eq_iff, BitVec.toNat_add, BitVec.toNat_ofNat]
  have hva := va.isLt
  omega

/-- The offset of a later byte. -/
theorem pageOffset_add (va : Word) (i : Nat) :
    pageOffset (va + BitVec.ofNat 64 i) = (pageOffset va + i) % 0x2000 := by
  simp only [pageOffset, BitVec.toNat_add, BitVec.toNat_ofNat]
  omega

/-- A byte of the access in the page after the first. -/
theorem vaToVpn_add_nextPage (va : Word) {i : Nat} (h : 0x2000 ≤ pageOffset va + i)
    (h' : pageOffset va + i < 0x4000) :
    vaToVpn (va + BitVec.ofNat 64 i) = vaToVpn (nextPage va) := by
  have hva := va.isLt
  have hbase := toNat_pageBase va
  rw [pageOffset] at h h' hbase
  rw [vaToVpn_eq_iff, nextPage, BitVec.toNat_add, BitVec.toNat_add, BitVec.toNat_ofNat, hbase,
    show BitVec.toNat (0x2000 : Word) = 0x2000 from rfl]
  omega

/-! ## The page map -/

section PageMap

variable {cpu : CpuState} {access : AccessKind} {va va' : Word}

/-- Fields of an address above the offset. -/
theorem extractLsb'_of_vaToVpn (h : vaToVpn va = vaToVpn va') {start : Nat} (hs : 13 ≤ start)
    (len : Nat) : va.extractLsb' start len = va'.extractLsb' start len := by
  apply BitVec.eq_of_getLsbD_eq
  intro i hi
  rw [BitVec.getLsbD_extractLsb', BitVec.getLsbD_extractLsb', getLsbD_of_vaToVpn h (by omega)]

/-- Being canonical depends on the page. -/
theorem isCanonicalVA_congr (h : vaToVpn va = vaToVpn va') (vaCtl : Word) :
    isCanonicalVA va vaCtl = isCanonicalVA va' vaCtl := by
  have hshift : ∀ k, 13 ≤ k → va >>> k = va' >>> k := by
    intro k hk
    apply BitVec.eq_of_getLsbD_eq
    intro i hi
    rw [BitVec.getLsbD_ushiftRight, BitVec.getLsbD_ushiftRight, getLsbD_of_vaToVpn h (by omega)]
  simp only [isCanonicalVA]
  split
  · rw [hshift 47 (by decide)]
  · rw [hshift 42 (by decide)]

/-- A superpage maps pages. -/
theorem superpageMap_congr (h : vaToVpn va = vaToVpn va') (spe : BitVec 3) :
    (superpageMap va spe).map pageBase = (superpageMap va' spe).map pageBase := by
  have hbits : ∀ f : Word → Word, (∀ i < 64, 13 ≤ i → (f va).getLsbD i = (f va').getLsbD i) →
      some (pageBase (f va)) = some (pageBase (f va')) := by
    intro f hf
    congr 1
    apply BitVec.eq_of_getLsbD_eq
    intro i hi
    rw [getLsbD_pageBase _ hi, getLsbD_pageBase _ hi]
    by_cases h13 : 13 ≤ i
    · rw [hf i hi h13]
    · simp [h13]
  simp only [superpageMap, extractLsb'_of_vaToVpn h (show 13 ≤ 46 by decide),
    extractLsb'_of_vaToVpn h (show 13 ≤ 41 by decide),
    extractLsb'_of_vaToVpn h (show 13 ≤ 30 by decide)]
  -- the region is the same, and its image takes the page's bits from the address
  split_ifs
  · refine hbits (fun v => (v.extractLsb' 0 44).setWidth 64) fun i hi h13 => ?_
    simp [getLsbD_of_vaToVpn h h13]
  · refine hbits (fun v => ((v.extractLsb' 0 41).signExtend 44).setWidth 64) fun i hi h13 => ?_
    have hsign : va[40] = va'[40] := getLsbD_of_vaToVpn h (show 13 ≤ 40 by decide)
    simp [BitVec.getLsbD_signExtend, BitVec.msb_eq_getLsbD_last, getLsbD_of_vaToVpn h h13, hsign]
  · refine hbits (fun v => (v.extractLsb' 0 30).setWidth 64) fun i hi h13 => ?_
    simp [getLsbD_of_vaToVpn h h13]
  · rfl

/-- Being in a superpage depends on the page. -/
theorem isSome_superpageMap_congr (h : vaToVpn va = vaToVpn va') (spe : BitVec 3) :
    (superpageMap va spe).isSome = (superpageMap va' spe).isSome := by
  rw [← Option.isSome_map (f := pageBase), superpageMap_congr h, Option.isSome_map]

/-- The lookup depends on the page. -/
theorem lookup_congr (h : vaToVpn va = vaToVpn va') (tb : TbManager) (realm : TlbRealm)
    (asn : Word) : tb.lookup realm va asn = tb.lookup realm va' asn := by
  simp only [SPAMShardManager.lookup, SPAMShardManager.probeShard, h]

/-- The page map depends on the page. -/
theorem frameOf_congr (h : vaToVpn va = vaToVpn va') :
    frameOf cpu access va = frameOf cpu access va' := by
  simp only [frameOf, isCanonicalVA_congr h, superpageMap_congr h, lookup_congr h]

/-- A page's base is a multiple of the page size. -/
theorem toNat_mod_of_pageBase {a : Word} (h : pageBase a = a) : a.toNat % 0x2000 = 0 := by
  have hbase := toNat_pageBase a
  rw [h, pageOffset] at hbase
  have hle := Nat.mod_le a.toNat 0x2000
  omega

/-- A base is its own base. -/
theorem pageBase_pageBase (a : Word) : pageBase (pageBase a) = pageBase a := by
  rw [pageBase, pageBase, BitVec.and_assoc, BitVec.and_self]

/-- The frame of a PTE starts on a page. -/
theorem pageBase_pteFrame (pte : AlphaPte) :
    pageBase ((pte.pfn <<< 13) &&& paMask) = (pte.pfn <<< 13) &&& paMask := by
  apply BitVec.eq_of_getLsbD_eq
  intro i hi
  rw [getLsbD_pageBase _ hi, BitVec.getLsbD_and, BitVec.getLsbD_shiftLeft]
  by_cases h13 : i < 13
  · simp [h13]
  · simp [show 13 ≤ i by omega]

/-- A frame is a superpage's or an entry's. -/
theorem frameOf_eq_some {frame : Word} (h : frameOf cpu access va = some frame) :
    (∃ pa, superpageMap va cpu.mSpe = some pa ∧ frame = pageBase pa) ∨
      ∃ pte : AlphaPte, frame = (pte.pfn <<< 13) &&& paMask := by
  cases hcan : isCanonicalVA va cpu.vaCtl with
  | false => simp [frameOf, hcan] at h
  | true =>
    cases hmap : superpageMap va cpu.mSpe with
    | some pa =>
      simp only [frameOf, hcan, hmap, if_true, Option.map_some] at h
      split at h
      · cases h
        exact Or.inl ⟨pa, rfl, rfl⟩
      · cases h
    | none =>
      simp only [frameOf, hcan, hmap, if_true, Option.map_none] at h
      split at h
      · split at h
        · cases h
          exact Or.inr ⟨_, rfl⟩
        · cases h
      · cases h

/-- A frame starts on a page of the 44-bit physical space. -/
theorem frameOf_aligned {frame : Word} (h : frameOf cpu access va = some frame) :
    frame.toNat % 0x2000 = 0 ∧ frame.toNat < 2 ^ 44 := by
  rcases frameOf_eq_some h with ⟨pa, hmap, rfl⟩ | ⟨pte, rfl⟩
  · refine ⟨toNat_mod_of_pageBase (pageBase_pageBase pa), ?_⟩
    rw [← pageBase_and_paMask hmap]
    exact toNat_and_paMask_lt _
  · exact ⟨toNat_mod_of_pageBase (pageBase_pteFrame pte), toNat_and_paMask_lt _⟩

/-- A hit's address is its frame and the offset. -/
theorem hitPa_eq (pte : AlphaPte) (va : Word) :
    hitPa pte va = ((pte.pfn <<< 13) &&& paMask) + BitVec.ofNat 64 (pageOffset va) := by
  have hoffset : BitVec.ofNat 64 (pageOffset va) = va &&& 0x1FFF := by
    apply BitVec.eq_of_toNat_eq
    rw [BitVec.toNat_ofNat, Library.toNat_and_lowMask 13 rfl, pageOffset]
    omega
  have hdisjoint : ((pte.pfn <<< 13) &&& paMask) &&& (va &&& 0x1FFF) = 0#64 := by
    apply BitVec.eq_of_getLsbD_eq
    intro i hi
    have hpage := getLsbD_pageMask ⟨i, hi⟩
    rw [BitVec.getLsbD_and, BitVec.getLsbD_and, BitVec.getLsbD_and, BitVec.getLsbD_shiftLeft, hpage]
    by_cases h13 : i < 13
    · simp [h13]
    · simp [h13]
  rw [hoffset, BitVec.add_eq_or_of_and_eq_zero _ _ hdisjoint, hitPa]
  apply BitVec.eq_of_getLsbD_eq
  intro i hi
  have hpage := getLsbD_pageMask ⟨i, hi⟩
  have hpa := getLsbD_paMask ⟨i, hi⟩
  simp only [BitVec.getLsbD_and, BitVec.getLsbD_or, hpage, hpa]
  -- the offset lies below bit 44
  by_cases h13 : i < 13
  · simp [h13, show i < 44 by omega]
  · simp [h13]

/-- A hit succeeds if the entry permits the access. -/
theorem applyTlbHit_of_permits {pte : AlphaPte} {mode : ModePrivilege}
    (haccess : access ≠ .execute) (h : pte.Permits mode access) :
    applyTlbHit pte va access mode = .success (hitPa pte va) := by
  cases access with
  | dataRead =>
    obtain ⟨hfo, hen⟩ := h
    simp [applyTlbHit, AlphaPte.canRead, hfo, hen]
  | dataWrite =>
    obtain ⟨hfo, hen⟩ := h
    simp [applyTlbHit, AlphaPte.canWrite, hfo, hen]
  | execute => exact absurd rfl haccess

/-- **A translation is the frame of the page with the offset that is kept.** -/
theorem translateData_eq_success_iff (haccess : access ≠ .execute) (pa : Word) :
    translateData cpu va access = .success pa ↔
      ∃ frame, frameOf cpu access va = some frame ∧
        pa = frame + BitVec.ofNat 64 (keptOffset cpu va) := by
  rw [translateData, tryKsegTranslate_eq, frameOf, keptOffset]
  cases hcan : isCanonicalVA va cpu.vaCtl with
  | false => simp
  | true =>
    cases hmap : superpageMap va cpu.mSpe with
    | some base =>
      by_cases hmode : cpu.mode = .kernel
      · simp [hmode, TranslationResult.pa?, pageBase_and_paMask hmap, eq_comm]
      · simp [hmode, TranslationResult.pa?]
    | none =>
      cases hl : cpu.dtbMgr.lookup .dtb va cpu.asn with
      | none => simp [TranslationResult.pa?]
      | some pte =>
        by_cases hpermit : pte.Permits cpu.mode access
        · simp [TranslationResult.pa?, applyTlbHit_of_permits haccess hpermit, hpermit, hitPa_eq,
            eq_comm]
        · have hfail : applyTlbHit pte va access cpu.mode ≠ .success pa :=
            fun h => hpermit (applyTlbHit_success h).1
          simp [TranslationResult.pa?, hpermit, hfail]

/-! ## Bytes that follow the first one -/

/-- The page after an access's first one is mapped to the frame after the first one's. Of a
superpage, which drops the offset, the access takes one byte. -/
def NextFrameFollows (cpu : CpuState) (access : AccessKind) (va : Word) (size : Nat) : Prop :=
  frameOf cpu access (nextPage va) = (frameOf cpu access va).map (· + 0x2000) ∧
    (InSuperpage (nextPage va) cpu.mSpe → pageOffset va + size = 0x2001)

/-- The superpage map keeps the offset of no address. -/
theorem keptOffset_of_superpage (h : InSuperpage va cpu.mSpe) : keptOffset cpu va = 0 := by
  rw [keptOffset, if_pos]
  rwa [Option.isSome_iff_ne_none, superpageMap_ne_none_iff]

/-- Outside the superpages the offset is kept. -/
theorem keptOffset_of_not_superpage (h : ¬ InSuperpage va cpu.mSpe) :
    keptOffset cpu va = pageOffset va := by
  rw [keptOffset, if_neg]
  rwa [Option.isSome_iff_ne_none, superpageMap_ne_none_iff]

/-- A page's first address has nothing to keep. -/
theorem keptOffset_of_offset (h : pageOffset va = 0) : keptOffset cpu va = 0 := by
  rw [keptOffset, h, ite_self]

/-- Being in one of the enabled superpages depends on the page. -/
theorem inSuperpage_congr (h : vaToVpn va = vaToVpn va') (spe : BitVec 3) :
    InSuperpage va spe ↔ InSuperpage va' spe := by
  rw [← superpageMap_ne_none_iff, ← superpageMap_ne_none_iff, ← Option.isSome_iff_ne_none,
    ← Option.isSome_iff_ne_none, isSome_superpageMap_congr h]

/-- A translation that keeps no offset is the frame. -/
theorem frameOf_of_translateData {pa : Word} (haccess : access ≠ .execute)
    (h : translateData cpu va access = .success pa) (hkept : keptOffset cpu va = 0) :
    frameOf cpu access va = some pa := by
  obtain ⟨frame, hframe, rfl⟩ := (translateData_eq_success_iff haccess pa).mp h
  rw [hkept, BitVec.add_zero]
  exact hframe

section

variable {frame : Word} {size : Nat}

/-- A superpage access of two bytes has its second byte where the first is, or on another page. -/
theorem not_inSuperpage_of_ownTranslations (haccess : access ≠ .execute)
    (hframe : frameOf cpu access va = some frame) (hsize : 1 < size)
    (h : ∀ i < size, translateData cpu (va + BitVec.ofNat 64 i) access =
      .success (frame + BitVec.ofNat 64 (keptOffset cpu va) + BitVec.ofNat 64 i)) :
    ¬ InSuperpage va cpu.mSpe := by
  intro hsuper
  have hoffset := pageOffset_lt va
  have hkept : keptOffset cpu (va + BitVec.ofNat 64 1) = 0 := by
    by_cases hsame : pageOffset va + 1 < 0x2000
    · exact keptOffset_of_superpage ((inSuperpage_congr (vaToVpn_add hsame) _).mpr hsuper)
    · refine keptOffset_of_offset ?_
      rw [pageOffset_add]
      omega
  have hsecond := frameOf_of_translateData haccess (h 1 hsize) hkept
  rw [keptOffset_of_superpage hsuper, BitVec.add_zero] at hsecond
  -- a frame does not start one byte after a frame
  obtain ⟨hfirst, hlt⟩ := frameOf_aligned hframe
  obtain ⟨hmod, -⟩ := frameOf_aligned hsecond
  rw [BitVec.toNat_add, BitVec.toNat_ofNat] at hmod
  omega

/-- An access that runs into the next page has it at the next frame. -/
theorem nextFrameFollows_of_ownTranslations (haccess : access ≠ .execute)
    (hframe : frameOf cpu access va = some frame) (hsuper : ¬ InSuperpage va cpu.mSpe)
    (hcross : ¬ pageOffset va + size ≤ 0x2000)
    (h : ∀ i < size, translateData cpu (va + BitVec.ofNat 64 i) access =
      .success (frame + BitVec.ofNat 64 (keptOffset cpu va) + BitVec.ofNat 64 i)) :
    NextFrameFollows cpu access va size := by
  have hoffset := pageOffset_lt va
  rw [keptOffset_of_not_superpage hsuper] at h
  -- the first byte of the next page
  have hpage := vaToVpn_add_nextPage va (i := 0x2000 - pageOffset va) (by omega) (by omega)
  have hkept : keptOffset cpu (va + BitVec.ofNat 64 (0x2000 - pageOffset va)) = 0 := by
    refine keptOffset_of_offset ?_
    rw [pageOffset_add]
    omega
  have hnext := frameOf_of_translateData haccess (h _ (by omega)) hkept
  rw [BitVec.add_assoc, ← BitVec.ofNat_add, Nat.add_sub_cancel' hoffset.le,
    frameOf_congr hpage] at hnext
  refine ⟨?_, fun hnextSuper => ?_⟩
  · rw [hnext, hframe, Option.map_some]
    rfl
  · -- a second byte there would be at the first one's address
    by_contra hlast
    have hpage' := vaToVpn_add_nextPage va (i := 0x2000 - pageOffset va + 1) (by omega)
      (by omega)
    have hkept' := keptOffset_of_superpage ((inSuperpage_congr hpage' cpu.mSpe).mpr hnextSuper)
    have hsecond := frameOf_of_translateData haccess (h _ (by omega)) hkept'
    rw [BitVec.add_assoc, ← BitVec.ofNat_add, ← Nat.add_assoc, Nat.add_sub_cancel' hoffset.le,
      frameOf_congr hpage', hnext, Option.some_inj, BitVec.add_right_inj] at hsecond
    exact absurd hsecond (by decide)

/-- The bytes of an access follow the first one if the access is no superpage access and ends in its
page or has the next page mapped to the next frame. -/
theorem ownTranslations_of_frames (haccess : access ≠ .execute)
    (hframe : frameOf cpu access va = some frame) (hsize : size ≤ 8)
    (hsuper : ¬ InSuperpage va cpu.mSpe)
    (hpages : pageOffset va + size ≤ 0x2000 ∨ NextFrameFollows cpu access va size)
    {i : Nat} (hi : i < size) :
    translateData cpu (va + BitVec.ofNat 64 i) access =
      .success (frame + BitVec.ofNat 64 (keptOffset cpu va) + BitVec.ofNat 64 i) := by
  have hoffset := pageOffset_lt va
  rw [translateData_eq_success_iff haccess, keptOffset_of_not_superpage hsuper, BitVec.add_assoc,
    ← BitVec.ofNat_add]
  by_cases hsame : pageOffset va + i < 0x2000
  · have hpage := vaToVpn_add hsame
    refine ⟨frame, (frameOf_congr hpage).trans hframe, ?_⟩
    rw [keptOffset_of_not_superpage (mt (inSuperpage_congr hpage _).mp hsuper), pageOffset_add,
      Nat.mod_eq_of_lt hsame]
  · obtain ⟨hnext, hlast⟩ := hpages.resolve_left (by omega)
    have hpage := vaToVpn_add_nextPage va (i := i) (by omega) (by omega)
    refine ⟨frame + 0x2000, ?_, ?_⟩
    · rw [frameOf_congr hpage, hnext, hframe, Option.map_some]
    · have hin : pageOffset (va + BitVec.ofNat 64 i) = pageOffset va + i - 0x2000 := by
        rw [pageOffset_add]
        omega
      have hkept : keptOffset cpu (va + BitVec.ofNat 64 i) = pageOffset va + i - 0x2000 := by
        by_cases hnextSuper : InSuperpage (nextPage va) cpu.mSpe
        · have hone := hlast hnextSuper
          rw [keptOffset_of_offset (by omega)]
          omega
        · rw [keptOffset_of_not_superpage (mt (inSuperpage_congr hpage _).mp hnextSuper), hin]
      have hsum : BitVec.ofNat 64 (pageOffset va + i) =
          0x2000 + BitVec.ofNat 64 (pageOffset va + i - 0x2000) := by
        rw [show (0x2000 : Word) = BitVec.ofNat 64 0x2000 from rfl, ← BitVec.ofNat_add,
          Nat.add_sub_cancel' (by omega)]
      rw [hkept, hsum, BitVec.add_assoc]

/-- **Which accesses translate as a whole.** The bytes of an access follow the first one iff it is
the only one, or the access is no superpage access and ends in its page or has the next page mapped
to the next frame. -/
theorem ownTranslations_iff (haccess : access ≠ .execute)
    (hframe : frameOf cpu access va = some frame) (hsize : 0 < size ∧ size ≤ 8) :
    (∀ i < size, translateData cpu (va + BitVec.ofNat 64 i) access =
        .success (frame + BitVec.ofNat 64 (keptOffset cpu va) + BitVec.ofNat 64 i)) ↔
      size = 1 ∨ (¬ InSuperpage va cpu.mSpe ∧
        (pageOffset va + size ≤ 0x2000 ∨ NextFrameFollows cpu access va size)) := by
  constructor
  · intro h
    by_cases hone : size = 1
    · exact Or.inl hone
    · have hsuper := not_inSuperpage_of_ownTranslations haccess hframe (by omega) h
      refine Or.inr ⟨hsuper, ?_⟩
      by_cases hcross : pageOffset va + size ≤ 0x2000
      · exact Or.inl hcross
      · exact Or.inr (nextFrameFollows_of_ownTranslations haccess hframe hsuper hcross h)
  · rintro (rfl | ⟨hsuper, hpages⟩) i hi
    · -- the first byte
      obtain rfl : i = 0 := by omega
      rw [BitVec.add_zero, BitVec.add_zero]
      exact (translateData_eq_success_iff haccess _).mpr ⟨frame, hframe, rfl⟩
    · exact ownTranslations_of_frames haccess hframe hsize.2 hsuper hpages hi

end

end PageMap

end Ev6Translator

/-! ## The bytes of an access -/

namespace MemDrainer

open Ev6Translator TsunamiBus

/-- The physical addresses of an access that is performed: its bytes follow the first one. -/
def accessAddrs (cpu : CpuState) (r : BoxResult) : Option (Nat → Word) :=
  (translate cpu r).pa?.map fun pa i => pa + BitVec.ofNat 64 i

/-- The translation of a byte's own address. -/
def byteTranslation (cpu : CpuState) (r : BoxResult) (i : Nat) : TranslationResult :=
  translateData cpu (r.memAddr + BitVec.ofNat 64 i) (accessKind r)

/-- Store byte `i` of a value at `addrs i`, for the first `n` bytes. -/
def storeBytes (m : GuestMemory) (addrs : Nat → Word) (v : Word) : Nat → GuestMemory
  | 0 => m
  | n + 1 => ((storeBytes m addrs v n).write1 (addrs n) (byteOf v n)).1

/-- The access traps on its alignment. -/
def TrapsUnaligned (cpu : CpuState) (r : BoxResult) : Prop :=
  isAlignedFor r.memAddr r.memSize = false ∧ cpu.unalignTrapEnabled = true

/-- The access is not performed, is one byte, or runs through frames that follow each other outside
the superpages. -/
def Straight (cpu : CpuState) (r : BoxResult) : Prop :=
  TrapsUnaligned cpu r ∨ frameOf cpu (accessKind r) r.memAddr = none ∨ r.memSize = 1 ∨
    (¬ InSuperpage r.memAddr cpu.mSpe ∧
      (pageOffset r.memAddr + r.memSize ≤ 0x2000 ∨
        NextFrameFollows cpu (accessKind r) r.memAddr r.memSize))

section

variable {δ : Type} (D : Devices δ) (silicon : Bool) (g : InstructionGrain) (m : Machine δ)
  (r : BoxResult)

/-- Every byte of the access is where its own address translates to, and an access with a byte that
does not translate faults before it reaches the bus. -/
structure OwnBytes : Prop where
  /-- The bytes of an access that is performed. -/
  own : ∀ addrs, accessAddrs m.cpu r = some addrs →
    ∀ i < r.memSize, byteTranslation m.cpu r i = .success (addrs i)
  /-- An access that may not be performed. -/
  whole : (∃ i < r.memSize, (byteTranslation m.cpu r i).pa? = none) →
    (applyMemEffect D silicon g m r).2.faultCode ≠ .noFault ∧
      (applyMemEffect D silicon g m r).1.bus = m.bus

/-- In guest memory, a load composes the bytes at the addresses and a store puts its bytes there,
unless it is a store-conditional that has lost its reservation. -/
def PerformedAt (addrs : Nat → Word) : Prop :=
  (r.memIsStore = false → silicon = true ∨ addrs 0 ≠ 0xBFFC →
    (applyMemEffect D silicon g m r).2.regWriteValue =
      formatLoadValue (leWord (fun i => m.bus.memory.read1 (addrs i)) r.memSize) r.memSize
        r.regWriteIsFp (r.semFlags.contains .vaxFp)) ∧
  (r.memIsStore = true → (applyMemEffect D silicon g m r).1.bus.memory =
    if r.isLocked && !m.locks.check m.cpu.cpuSlot (addrs 0) then m.bus.memory
    else storeBytes m.bus.memory addrs r.memData r.memSize)

/-- A data access is not a fetch. -/
theorem accessKind_ne_execute : accessKind r ≠ .execute := by
  rw [accessKind]
  split <;> decide

variable {m r}

/-- An access that traps is not translated. -/
theorem translate_of_trapsUnaligned (hvirt : r.isPhysAddr = false)
    (h : TrapsUnaligned m.cpu r) : translate m.cpu r = .unaligned := by
  rw [translate, hvirt, if_neg Bool.false_ne_true, translateDataAligned, h.1, h.2]
  rfl

/-- An access that does not trap is translated at its first byte. -/
theorem translate_of_not_trapsUnaligned (hvirt : r.isPhysAddr = false)
    (h : ¬ TrapsUnaligned m.cpu r) :
    translate m.cpu r = translateData m.cpu r.memAddr (accessKind r) := by
  rw [translate, hvirt, if_neg Bool.false_ne_true, translateDataAligned, if_neg]
  rw [Bool.and_eq_true, Bool.not_eq_true']
  exact h

/-- An access that is not performed faults and leaves the bus alone. -/
theorem ownBytes_of_none (h : (translate m.cpu r).pa? = none) : OwnBytes D silicon g m r where
  own addrs haddrs := by
    rw [accessAddrs, h] at haddrs
    cases haddrs
  whole _ := by
    rw [applyMemEffect_of_none D silicon g h]
    exact ⟨dataFaultCode_ne_noFault g h, rfl⟩

/-- An access that is performed has its own bytes iff they follow the first one. -/
theorem ownBytes_iff_of_success {pa : Word} (h : translate m.cpu r = .success pa) :
    OwnBytes D silicon g m r ↔
      ∀ i < r.memSize, byteTranslation m.cpu r i = .success (pa + BitVec.ofNat 64 i) := by
  have haddrs : accessAddrs m.cpu r = some fun i => pa + BitVec.ofNat 64 i := by
    rw [accessAddrs, h]
    rfl
  constructor
  · intro hown
    exact hown.own _ haddrs
  · intro hbytes
    refine ⟨fun addrs h' i hi => ?_, fun ⟨i, hi, hnone⟩ => ?_⟩
    · rw [haddrs] at h'
      cases h'
      exact hbytes i hi
    · rw [hbytes i hi] at hnone
      cases hnone

/-- Bytes stored at addresses that follow each other are stored as one run. -/
theorem storeBytes_add (mem : GuestMemory) (pa v : Word) (n : Nat) :
    storeBytes mem (fun i => pa + BitVec.ofNat 64 i) v n = mem.writeEach pa v n := by
  induction n with
  | zero => rfl
  | succ n ih => rw [storeBytes, ih, writeEach]

/-- The bus half of a store to guest memory. -/
theorem memory_performStore {pa : Word} (hsize : LegalWidth r.memSize)
    (hdram : D.dramClaims m.bus.devices pa = true) :
    (performStore D m r pa).1.bus.memory = m.bus.memory.writeEach pa r.memData r.memSize := by
  have hle := hsize.pos.2
  have hwrite : m.bus.write D pa r.memData r.memSize =
      ({ m.bus with memory := m.bus.memory.writeEach pa r.memData r.memSize }, ⟨.ok, 0⟩) := by
    have hlegal : ¬ ¬ (r.memSize = 1 ∨ r.memSize = 2 ∨ r.memSize = 4 ∨ r.memSize = 8) :=
      not_not.mpr hsize
    rw [Chipset.write, if_neg hlegal, if_pos hdram, dramWrite_eq,
      write_eq_writeEach _ _ _ (by omega)]
  rw [performStore, hwrite]
  rfl

/-- In guest memory an access is performed at its addresses: the bus is given the first one. -/
theorem performedAt_of_accessAddrs (hsize : LegalWidth r.memSize) {addrs : Nat → Word}
    (haddrs : accessAddrs m.cpu r = some addrs)
    (hdram : D.dramClaims m.bus.devices (addrs 0) = true) :
    PerformedAt D silicon g m r addrs := by
  obtain ⟨pa, hpa, rfl⟩ := Option.map_eq_some_iff.mp haddrs
  have hle := hsize.pos.2
  have hzero : pa + BitVec.ofNat 64 0 = pa := BitVec.add_zero pa
  simp only [hzero] at hdram
  have happly := applyMemEffect_of_pa D silicon g hpa
  constructor
  · intro hload hpin
    simp only [hzero] at hpin
    have hread : m.bus.read D pa r.memSize =
        (m.bus,
          ⟨.ok, leWord (fun i => m.bus.memory.read1 (pa + BitVec.ofNat 64 i)) r.memSize⟩) := by
      rw [Chipset.read, if_pos hdram, dramRead_eq _ _ hsize, read_eq_leWord _ _ (by omega)]
    have hconst : (!silicon && pa == 0xBFFC) = false := by
      rcases hpin with h | h
      · rw [h]
        rfl
      · rw [beq_false_of_ne h, Bool.and_false]
    rw [happly, hload, if_neg Bool.false_ne_true, applyLoadEffect, hread, hconst]
    rfl
  · intro hstore
    simp only [hzero, storeBytes_add]
    rw [happly, hstore, if_pos rfl, applyStoreEffect]
    cases hlocked : r.isLocked with
    | false => exact memory_performStore D hsize hdram
    | true =>
      cases m.locks.check m.cpu.cpuSlot pa with
      -- the reservation is lost and nothing is stored
      | false => rfl
      | true =>
        have hm : LegalWidth r.memSize := hsize
        exact memory_performStore D (m := { m with locks := m.locks.clear m.cpu.cpuSlot }) hm hdram

/-- **When the bytes of an access are its own.** -/
theorem ownBytes_iff (hvirt : r.isPhysAddr = false) (hsize : LegalWidth r.memSize) :
    (OwnBytes D silicon g m r ↔ Straight m.cpu r) ∧
      ∀ addrs, accessAddrs m.cpu r = some addrs →
        D.dramClaims m.bus.devices (addrs 0) = true → PerformedAt D silicon g m r addrs := by
  refine ⟨?_, fun addrs => performedAt_of_accessAddrs D silicon g hsize⟩
  have haccess := accessKind_ne_execute r
  by_cases htrap : TrapsUnaligned m.cpu r
  · refine iff_of_true (ownBytes_of_none D silicon g ?_) (Or.inl htrap)
    rw [translate_of_trapsUnaligned hvirt htrap]
    rfl
  · have htr := translate_of_not_trapsUnaligned hvirt htrap
    cases hframe : frameOf m.cpu (accessKind r) r.memAddr with
    | none =>
      refine iff_of_true (ownBytes_of_none D silicon g ?_) (Or.inr (Or.inl hframe))
      rw [htr]
      cases hfirst : translateData m.cpu r.memAddr (accessKind r) with
      | success pa =>
        obtain ⟨frame, hsome, -⟩ := (translateData_eq_success_iff haccess pa).mp hfirst
        cases hframe.symm.trans hsome
      | _ => rfl
    | some frame =>
      have hfirst := (translateData_eq_success_iff haccess _).mpr ⟨frame, hframe, rfl⟩
      rw [ownBytes_iff_of_success D silicon g (htr.trans hfirst)]
      refine (ownTranslations_iff haccess hframe hsize.pos).trans ?_
      rw [Straight, hframe]
      simp only [htrap, false_or, reduceCtorEq]

end

/-! ## An access at the end of a page -/

/-- A machine that has one page mapped, at 0x10000, for the kernel to read and write. -/
def onePageMachine : Machine Unit :=
  ⟨{ dtbMgr := SPAMShardManager.clear.insert .dtb 0x10000 0 (canonicalFromDtbPte 0x1000001100) 0 },
    ⟨.empty 3, ()⟩, .empty⟩

/-- STQ R0, 0(R1). -/
def stqGrain : InstructionGrain :=
  ⟨0, [.memFormat, .readsRa, .readsRb, .readsInt, .store, .cacheable], 0xB4010000, 0x2D⟩

/-- What it asks for with an address in R1. -/
def storeAt (addr : Word) : BoxResult :=
  execStore 8 stqGrain { opA := 0x1122334455667788, opB := addr }

/-- The last quadword of the page has its own bytes. -/
theorem ownBytes_iff_last_quad :
    OwnBytes Devices.allDram true stqGrain onePageMachine (storeAt 0x11FF8) := by
  have hiff := ownBytes_iff Devices.allDram true stqGrain (m := onePageMachine)
    (r := storeAt 0x11FF8) rfl (by decide)
  refine hiff.1.mpr (Or.inr (Or.inr (Or.inr ⟨?_, Or.inl (by decide)⟩)))
  unfold InSuperpage
  decide

/-- **A store runs past its page.** With traps disabled, a quadword is stored four bytes before the
end of the one page that is mapped. No translation of the other four bytes exists, and they are
stored in the frame after the page's, without a fault. -/
theorem straddling_store_does_not_fault :
    (¬ ∀ (m : Machine Unit) (r : BoxResult), r.isPhysAddr = false → LegalWidth r.memSize →
      OwnBytes Devices.allDram true stqGrain m r) ∧
    byteTranslation onePageMachine.cpu (storeAt 0x11FFC) 4 = .dtbMiss ∧
    (applyMemEffect Devices.allDram true stqGrain onePageMachine (storeAt 0x11FFC)).2.faultCode =
      .noFault ∧
    (applyMemEffect Devices.allDram true stqGrain onePageMachine
      (storeAt 0x11FFC)).1.bus.memory.read1 0x22000 = 0x44 := by
  have hmiss : byteTranslation onePageMachine.cpu (storeAt 0x11FFC) 4 = .dtbMiss := by
    decide +kernel
  have hfault : (applyMemEffect Devices.allDram true stqGrain onePageMachine
      (storeAt 0x11FFC)).2.faultCode = .noFault := by
    decide +kernel
  refine ⟨fun h => ?_, hmiss, hfault, by decide +kernel⟩
  have hown := h onePageMachine (storeAt 0x11FFC) rfl (by decide)
  exact (hown.whole ⟨4, by decide, by rw [hmiss]; rfl⟩).1 hfault

end MemDrainer

end EmulatR
