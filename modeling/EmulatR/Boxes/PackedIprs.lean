import EmulatR.Library.BitFields
import EmulatR.Boxes.IprLaw
import EmulatR.Mmu.Translator

/-! # Registers put together from fields

Two registers are no fields of the CPU state of their own. IER_CM is IER and the current mode in one
word, with the mode in bits 4:3; CM alone takes the mode from bits 1:0 of the data, so that the two
selectors of one register read the same word differently. VA_FORM and IVA_FORM join the page table
base with the page number of an address by OR, through masks that keep bits 32:3 or 21:3 of the
entry's offset whatever the width of virtual addresses.

`ierCm_combined_iff` and `locatesPte_iff` are the exact conditions; `cm_takes_other_bits` and
`vaForm_of_wide_address` are where they fail. -/

namespace EmulatR

open Library

/-! ## IER_CM -/

/-- Writing CM and IER with one value, in either order, leaves IER and the mode as writing IER_CM
with it does. -/
def CombinedWrite (cpu : CpuState) (c : ExecCtx) : Prop :=
  ∀ gCm gIer gBoth : InstructionGrain, iprSelector gCm.encoded = .cm →
    iprSelector gIer.encoded = .ier → iprSelector gBoth.encoded = .ierCm →
    ∀ cpu' ∈ [(execHwMtpr gIer c (execHwMtpr gCm c cpu).1).1,
        (execHwMtpr gCm c (execHwMtpr gIer c cpu).1).1],
      cpu'.ier = (execHwMtpr gBoth c cpu).1.ier ∧ cpu'.mode = (execHwMtpr gBoth c cpu).1.mode

/-- IER_CM reads as IER with what CM reads in bits 4:3. -/
def CombinedRead (cpu : CpuState) : Prop :=
  ∀ gCm gIer gBoth : InstructionGrain, iprSelector gCm.encoded = .cm →
    iprSelector gIer.encoded = .ier → iprSelector gBoth.encoded = .ierCm →
    (execHwMfpr gBoth cpu).regWriteValue =
      ((execHwMfpr gIer cpu).regWriteValue &&& ~~~(0x18 : Word)) |||
        ((execHwMfpr gCm cpu).regWriteValue <<< 3)

/-- The mode is two bits. -/
theorem ModePrivilege.ofBits_inj {a b : BitVec 2} : ofBits a = ofBits b ↔ a = b := by
  constructor
  · intro h
    rw [← toBits_ofBits a, h, toBits_ofBits]
  · exact congrArg ofBits

/-- **IER_CM is one register for the words whose two mode fields agree.** For every CPU and value,
the writes of CM and IER together are the write of IER_CM iff bits 1:0 of the value are its
bits 4:3; reading the parts always gives the whole. -/
theorem ierCm_combined_iff (cpu : CpuState) (c : ExecCtx) :
    (CombinedWrite cpu c ∧ CombinedRead cpu) ↔
      c.opB.extractLsb' 0 2 = c.opB.extractLsb' 3 2 := by
  have hread : CombinedRead cpu := by
    intro gCm gIer gBoth hcm hier hboth
    have hc : readIpr cpu (iprSelector gCm.encoded) = some (cpu.mode.toBits.setWidth 64) := by
      rw [hcm]
      rfl
    have hi : readIpr cpu (iprSelector gIer.encoded) = some cpu.ier := by
      rw [hier]
      rfl
    have hb : readIpr cpu (iprSelector gBoth.encoded) =
        some (IprFields.ierCmCompose cpu.ier cpu.mode) := by
      rw [hboth]
      rfl
    rw [execHwMfpr_of_readIpr hc, execHwMfpr_of_readIpr hi, execHwMfpr_of_readIpr hb]
    rfl
  have hwrite : CombinedWrite cpu c ↔
      ModePrivilege.ofBits (c.opB.extractLsb' 0 2) = .ofBits (c.opB.extractLsb' 3 2) := by
    have hcm : ∀ {g : InstructionGrain} (cpu : CpuState), iprSelector g.encoded = .cm →
        (execHwMtpr g c cpu).1 = { cpu with mode := .ofBits (c.opB.extractLsb' 0 2) } :=
      fun cpu h => execHwMtpr_of_writeIpr (by rw [h]; rfl)
    have hier : ∀ {g : InstructionGrain} (cpu : CpuState), iprSelector g.encoded = .ier →
        (execHwMtpr g c cpu).1 = { cpu with ier := IprFields.ierCmIerPortion c.opB } :=
      fun cpu h => execHwMtpr_of_writeIpr (by rw [h]; rfl)
    have hboth : ∀ {g : InstructionGrain}, iprSelector g.encoded = .ierCm →
        (execHwMtpr g c cpu).1 = { cpu with
          ier := IprFields.ierCmIerPortion c.opB
          mode := .ofBits (c.opB.extractLsb' 3 2) } :=
      fun h => execHwMtpr_of_writeIpr (by rw [h]; rfl)
    constructor
    · intro h
      -- three instructions that select the registers
      have hmode := (h { pc := 0, semFlags := [], encoded := 0x900, primaryOp := 0x1D }
        { pc := 0, semFlags := [], encoded := 0xA00, primaryOp := 0x1D }
        { pc := 0, semFlags := [], encoded := 0xB00, primaryOp := 0x1D }
        (by decide) (by decide) (by decide) _ List.mem_cons_self).2
      rwa [hier _ (by decide), hcm _ (by decide), hboth (by decide)] at hmode
    · intro hmode gCm gIer gBoth sCm sIer sBoth cpu' hcpu'
      rw [hier _ sIer, hcm _ sCm, hcm _ sCm, hier _ sIer, List.mem_cons, List.mem_singleton]
        at hcpu'
      rw [hboth sBoth]
      -- both orders end in the same state
      rcases hcpu' with rfl | rfl
      · exact ⟨rfl, hmode⟩
      · exact ⟨rfl, hmode⟩
  rw [and_iff_left hread, hwrite, ModePrivilege.ofBits_inj]

/-- **CM and IER_CM read one word differently.** PALcode writes user mode into bits 4:3: through
IER_CM the CPU is in user mode, through CM and IER it stays in kernel mode. -/
theorem cm_takes_other_bits : ¬ ∀ (cpu : CpuState) (c : ExecCtx), CombinedWrite cpu c := by
  intro h
  have hmode := (h {} { opB := 0x18 }
    { pc := 0, semFlags := [], encoded := 0x900, primaryOp := 0x1D }
    { pc := 0, semFlags := [], encoded := 0xA00, primaryOp := 0x1D }
    { pc := 0, semFlags := [], encoded := 0xB00, primaryOp := 0x1D }
    (by decide) (by decide) (by decide) _ List.mem_cons_self).2
  exact absurd hmode (by decide)

/-! ## VA_FORM and IVA_FORM -/

/-- What HW_MFPR reads from VA_FORM with the address in VA, or from IVA_FORM with it in EXC_ADDR. -/
def readForm (realm : TlbRealm) (cpu : CpuState) (va : Word) : Option Word :=
  match realm with
  | .dtb => readIpr { cpu with va := va } .vaForm
  | .itb => readIpr { cpu with excAddr := va } .ivaForm

/-- The page table base of the stream, as VA_CTL or I_CTL holds it. -/
def formVptb (cpu : CpuState) : TlbRealm → Word
  | .dtb => cpu.vaCtl &&& 0xFFFFFFFFC0000000
  | .itb => IprFields.iCtlVptb cpu.iCtl

/-- The bits of an entry's offset that the form register of the stream takes over. -/
def formMask (cpu : CpuState) : TlbRealm → Word
  | .dtb => if cpu.vaCtl.getLsbD 2 then 0x3FFFF8 else 0x1FFFFFFF8
  | .itb => if cpu.iCtl.getLsbD 16 then 0x3FFFF8 else 0x1FFFFFFF8

/-- The width of a virtual page number: addresses have 48 bits with VA_CTL<1>, else 43. -/
def vpnWidth (cpu : CpuState) : Nat := if cpu.vaCtl.getLsbD 1 then 35 else 30

/-- The offset of the entry of a page in the page table: eight times the page number. -/
def pteOffset (cpu : CpuState) (va : Word) : Word :=
  ((va >>> 13).extractLsb' 0 (vpnWidth cpu)).setWidth 64 <<< 3

/-- The form registers read the addresses of the two pages' entries: different, aligned, and at the
base plus eight times the page number. -/
def LocatesPte (realm : TlbRealm) (cpu : CpuState) (va va' : Word) : Prop :=
  ∃ pte pte', readForm realm cpu va = some pte ∧ readForm realm cpu va' = some pte' ∧
    pte ≠ pte' ∧ pte.extractLsb' 0 3 = 0 ∧ pte'.extractLsb' 0 3 = 0 ∧
    pte = formVptb cpu realm + pteOffset cpu va ∧ pte' = formVptb cpu realm + pteOffset cpu va'

/-- The entry's offset lies in the bits that are taken over and shares none with the base. -/
def FitsForm (realm : TlbRealm) (cpu : CpuState) (va : Word) : Prop :=
  pteOffset cpu va &&& (~~~formMask cpu realm ||| formVptb cpu realm) = 0#64

instance (realm : TlbRealm) (cpu : CpuState) (va : Word) : Decidable (FitsForm realm cpu va) :=
  inferInstanceAs (Decidable (_ = _))

/-- A page number has 30 or 35 bits. -/
theorem vpnWidth_bounds (cpu : CpuState) : 30 ≤ vpnWidth cpu ∧ vpnWidth cpu ≤ 35 := by
  rw [vpnWidth]
  split <;> decide

/-- Bit `i + 3` of the offset is bit `i` of the page number. -/
theorem getLsbD_pteOffset (cpu : CpuState) (va : Word) {i : Nat} (hi : i < 64) :
    (pteOffset cpu va).getLsbD i =
      (decide (3 ≤ i) && decide (i - 3 < vpnWidth cpu) && va.getLsbD (i + 10)) := by
  rw [pteOffset, BitVec.getLsbD_shiftLeft, BitVec.getLsbD_setWidth, BitVec.getLsbD_extractLsb',
    BitVec.getLsbD_ushiftRight]
  by_cases h3 : 3 ≤ i
  · simp [hi, h3, show ¬ i < 3 by omega, show i - 3 < 64 by omega,
      show 13 + (i - 3) = i + 10 by omega]
  · simp [h3, show i < 3 by omega]

/-- The masks of the form registers lie in bits 32:3. -/
theorem of_getLsbD_formMask {cpu : CpuState} {realm : TlbRealm} {i : Nat}
    (h : (formMask cpu realm).getLsbD i = true) : 3 ≤ i ∧ i < 33 := by
  have hmask : ∀ i : Fin 64, ((0x3FFFF8 : Word).getLsbD i.val = true → 3 ≤ i.val ∧ i.val < 33) ∧
      ((0x1FFFFFFF8 : Word).getLsbD i.val = true → 3 ≤ i.val ∧ i.val < 33) := by decide
  have hi := BitVec.lt_of_getLsbD h
  cases realm with
  | dtb =>
    rw [formMask] at h
    split at h
    · exact (hmask ⟨i, hi⟩).1 h
    · exact (hmask ⟨i, hi⟩).2 h
  | itb =>
    rw [formMask] at h
    split at h
    · exact (hmask ⟨i, hi⟩).1 h
    · exact (hmask ⟨i, hi⟩).2 h

/-- The code shifts the whole address; under the mask that is the entry's offset. -/
theorem and_formMask (cpu : CpuState) (realm : TlbRealm) (va : Word) :
    (va >>> 10) &&& formMask cpu realm = pteOffset cpu va &&& formMask cpu realm := by
  have hbounds := vpnWidth_bounds cpu
  refine BitVec.eq_of_getLsbD_eq fun i hi => ?_
  rw [BitVec.getLsbD_and, BitVec.getLsbD_and, getLsbD_pteOffset cpu va hi,
    BitVec.getLsbD_ushiftRight]
  cases hbit : (formMask cpu realm).getLsbD i with
  | false => simp
  | true =>
    obtain ⟨h3, h33⟩ := of_getLsbD_formMask hbit
    simp [h3, show i - 3 < vpnWidth cpu by omega, Nat.add_comm]

/-- The form register reads the base joined to the masked offset. -/
theorem readForm_eq (realm : TlbRealm) (cpu : CpuState) (va : Word) :
    readForm realm cpu va =
      some (formVptb cpu realm ||| (pteOffset cpu va &&& formMask cpu realm)) := by
  rw [← and_formMask]
  cases realm with
  | dtb => rfl
  | itb => rfl

/-- The base that the VA form takes for either realm is a multiple of eight. -/
theorem extractLsb'_formVptb (cpu : CpuState) (realm : TlbRealm) :
    (formVptb cpu realm).extractLsb' 0 3 = 0 := by
  have hmask : ∀ i : Fin 3, (0xFFFFFFFFC0000000 : Word).getLsbD i.val = false ∧
      ((0x3FFFF : Word) <<< 30).getLsbD i.val = false ∧
      (0xFFFF000000000000 : Word).getLsbD i.val = false := by decide
  refine BitVec.eq_of_getLsbD_eq fun i hi => ?_
  obtain ⟨hdata, hfield, hsign⟩ := hmask ⟨i, hi⟩
  rw [BitVec.getLsbD_extractLsb', Nat.zero_add]
  cases realm with
  | dtb => rw [formVptb, BitVec.getLsbD_and, hdata]; simp
  | itb =>
    rw [formVptb, IprFields.iCtlVptb]
    split
    · rw [BitVec.getLsbD_or, BitVec.getLsbD_and, hfield, hsign]; simp
    · rw [BitVec.getLsbD_and, hfield]; simp

/-- In a canonical address the bits above the page number repeat its top bit. -/
theorem getLsbD_of_canonical {cpu : CpuState} {va : Word}
    (h : Ev6Translator.isCanonicalVA va cpu.vaCtl = true) {i : Nat}
    (hi : vpnWidth cpu + 12 ≤ i) (hi64 : i < 64) :
    va.getLsbD i = va.getLsbD (vpnWidth cpu + 12) := by
  have hmsb : (if cpu.vaCtl.getLsbD 1 then 47 else 42) = vpnWidth cpu + 12 := by
    rw [vpnWidth]
    split <;> rfl
  simp only [Ev6Translator.isCanonicalVA, hmsb, Bool.or_eq_true, beq_iff_eq] at h
  -- all of them are clear, or all of them are set
  have hbit : ∀ j, vpnWidth cpu + 12 ≤ j → j < 64 →
      va.getLsbD j = (va >>> (vpnWidth cpu + 12)).getLsbD (j - (vpnWidth cpu + 12)) := by
    intro j hj _
    rw [BitVec.getLsbD_ushiftRight, Nat.add_sub_cancel' hj]
  have hbounds := vpnWidth_bounds cpu
  rw [hbit i hi hi64, hbit (vpnWidth cpu + 12) le_rfl (by omega)]
  rcases h with h | h
  · rw [h]
    simp
  · rw [h, BitVec.getLsbD_ushiftRight, BitVec.getLsbD_ushiftRight, BitVec.getLsbD_allOnes,
      BitVec.getLsbD_allOnes]
    simp [hi64, Nat.add_sub_cancel' hi]
    omega

/-- Canonical addresses on different pages have different entries. -/
theorem pteOffset_ne {cpu : CpuState} {va va' : Word}
    (h : Ev6Translator.isCanonicalVA va cpu.vaCtl = true)
    (h' : Ev6Translator.isCanonicalVA va' cpu.vaCtl = true) (hne : vaToVpn va ≠ vaToVpn va') :
    pteOffset cpu va ≠ pteOffset cpu va' := by
  have hbounds := vpnWidth_bounds cpu
  intro heq
  have hfield : ∀ i, 13 ≤ i → i < vpnWidth cpu + 13 → va.getLsbD i = va'.getLsbD i := by
    intro i h13 hi
    have hbit := congrArg (BitVec.getLsbD · (i - 10)) heq
    simpa only [getLsbD_pteOffset cpu _ (show i - 10 < 64 by omega), show 3 ≤ i - 10 by omega,
      show i - 10 - 3 < vpnWidth cpu by omega, decide_true, Bool.true_and,
      show i - 10 + 10 = i by omega] using hbit
  refine hne (BitVec.eq_of_getLsbD_eq fun i hi => ?_)
  rw [vaToVpn, vaToVpn, BitVec.getLsbD_ushiftRight, BitVec.getLsbD_ushiftRight]
  by_cases hlow : 13 + i < vpnWidth cpu + 13
  · exact hfield _ (by omega) hlow
  · by_cases hhigh : 13 + i < 64
    -- above the page number both repeat its top bit
    · rw [getLsbD_of_canonical h (by omega) hhigh, getLsbD_of_canonical h' (by omega) hhigh]
      exact hfield _ (by omega) (by omega)
    · rw [BitVec.getLsbD_of_ge va _ (by omega), BitVec.getLsbD_of_ge va' _ (by omega)]

/-- **Which entries the form registers locate.** For both streams, every CPU, and so every base that
VA_CTL or I_CTL can hold, and any two canonical addresses on different pages, VA_FORM or IVA_FORM
reads the two entries' addresses iff both entries' offsets lie in the bits the register takes over
and share none with the base. -/
theorem locatesPte_iff (realm : TlbRealm) (cpu : CpuState) {va va' : Word}
    (h : Ev6Translator.isCanonicalVA va cpu.vaCtl = true)
    (h' : Ev6Translator.isCanonicalVA va' cpu.vaCtl = true) (hne : vaToVpn va ≠ vaToVpn va') :
    LocatesPte realm cpu va va' ↔ FitsForm realm cpu va ∧ FitsForm realm cpu va' := by
  rw [FitsForm, FitsForm, ← or_and_eq_add_iff, ← or_and_eq_add_iff]
  constructor
  · rintro ⟨pte, pte', hread, hread', -, -, -, hadd, hadd'⟩
    rw [readForm_eq, Option.some.injEq] at hread hread'
    exact ⟨hread.trans hadd, hread'.trans hadd'⟩
  · rintro ⟨hadd, hadd'⟩
    have haligned : ∀ va : Word, (formVptb cpu realm |||
        (pteOffset cpu va &&& formMask cpu realm)).extractLsb' 0 3 = 0 := by
      intro va
      refine BitVec.eq_of_getLsbD_eq fun i hi => ?_
      have hbase := congrArg (BitVec.getLsbD · i) (extractLsb'_formVptb cpu realm)
      simp only [BitVec.getLsbD_extractLsb', hi, decide_true, Bool.true_and, Nat.zero_add] at hbase ⊢
      rw [BitVec.getLsbD_or, hbase, BitVec.getLsbD_and, getLsbD_pteOffset cpu va (by omega)]
      simp [show ¬ 3 ≤ i by omega]
    refine ⟨_, _, readForm_eq realm cpu va, readForm_eq realm cpu va', ?_, haligned va,
      haligned va', hadd, hadd'⟩
    -- at base plus offset, different offsets are different entries
    rw [hadd, hadd']
    intro heq
    exact pteOffset_ne h h' hne ((BitVec.add_right_inj _).mp heq)

/-- Two kernel pages under a base with bit 33 set, in 43-bit mode. -/
theorem locatesPte_iff_kernel :
    LocatesPte .dtb { vaCtl := 0x200000000 } 0xFFFFFFFF80000000 0xFFFFFFFF80002000 :=
  (locatesPte_iff .dtb _ (by decide) (by decide) (by decide)).mpr ⟨by decide, by decide⟩

/-- **VA_FORM takes two pages for one.** With 48-bit addresses bit 43 is part of the page number but
not of the field that VA_FORM takes over. -/
theorem vaForm_of_wide_address :
    ¬ ∀ (realm : TlbRealm) (cpu : CpuState) (va va' : Word),
      Ev6Translator.isCanonicalVA va cpu.vaCtl = true →
      Ev6Translator.isCanonicalVA va' cpu.vaCtl = true → vaToVpn va ≠ vaToVpn va' →
      LocatesPte realm cpu va va' := by
  intro h
  obtain ⟨pte, pte', hread, hread', hne, -⟩ :=
    h .dtb { vaCtl := 2 } 0 0x80000000000 (by decide) (by decide) (by decide)
  have hsame : readForm .dtb { vaCtl := 2 } 0 = readForm .dtb { vaCtl := 2 } 0x80000000000 := by
    decide
  rw [hread, hread', Option.some.injEq] at hsame
  exact hne hsame

end EmulatR
