import EmulatR.Invariants.Translation
import EmulatR.Invariants.TbRefill
import EmulatR.Boxes.IprLaw
import EmulatR.Pte.NoStale

/-! # Blocks of several pages

A PTE with granularity hint `g` maps a block of `8^g` pages. The fill decodes the hint, and the tag
and the match drop the low `3g` bits of the page number. The physical address of a hit does not
follow: it joins the whole frame number to an 8 KiB page offset, so that every page of the block has
the same frame.

Both buffers hold what HW_MTPR filled and nothing else, over every run. So a translation that
succeeds is a PALmode fetch, a superpage, or comes from a fill whose block holds the address; and
then the address in the block is kept exactly on the page of the block that the low bits of the
frame number name.

`keepsBlock_machineRun_iff` is the condition over runs; `second_page_of_block_is_lost` is a block
that breaks it. -/

namespace EmulatR

open Library

/-- The PTE that a write of the PTE register decodes to. -/
def TlbRealm.decodePte : TlbRealm → Word → AlphaPte
  | itb => canonicalFromItbPte
  | dtb => canonicalFromDtbPte

/-- The mapping that HW_MTPR fills with the TAG register at `va` and `v` written to PTE. -/
def mtprFill (realm : TlbRealm) (va asn v : Word) : TbMapping :=
  ⟨va, asn, realm.decodePte v, pteGh v⟩

/-! ## What the buffers hold -/

/-- Every filled line was filled by HW_MTPR. -/
def FilledByMtpr (realm : TlbRealm) (tb : TbManager) : Prop :=
  ∀ i w, (tb.slot i w).valid = true →
    ∃ va asn v, (tb.slot i w).Holds realm (mtprFill realm va asn v)

namespace FilledByMtpr

variable {realm : TlbRealm} {tb : TbManager}

/-- A cleared translation buffer has no entry. -/
theorem clear : FilledByMtpr realm SPAMShardManager.clear := by
  intro i w hv
  exact absurd hv (by simp)

/-- An operation that fills, if at all, what HW_MTPR fills. -/
theorem apply (h : FilledByMtpr realm tb) (op : TbOp)
    (hop : ∀ x : TbMapping, op = .insert x.va x.asn x.pte x.gh →
      ∃ va asn v, x = mtprFill realm va asn v) :
    FilledByMtpr realm (op.apply realm tb) := by
  intro i w hv
  rcases op.slot_apply realm tb i w with he | he | ⟨x, hx, hhold⟩
  · rw [he] at hv ⊢
    exact h i w hv
  · exact absurd hv (by simp [he])
  · obtain ⟨va, asn, v, hfill⟩ := hop x hx
    exact ⟨va, asn, v, hfill ▸ hhold⟩

/-- One more entry. -/
theorem fill (h : FilledByMtpr realm tb) (va asn v : Word) :
    FilledByMtpr realm (tb.insert realm va asn (realm.decodePte v) (pteGh v)) := by
  refine h.apply (.insert va asn (realm.decodePte v) (pteGh v)) fun x hx => ?_
  obtain ⟨xva, xasn, xpte, xgh⟩ := x
  cases hx
  exact ⟨_, _, v, rfl⟩

end FilledByMtpr

/-- Both buffers hold only what HW_MTPR filled. -/
def TranslationContext.BuffersFilled (c : TranslationContext) : Prop :=
  FilledByMtpr .itb c.itbMgr ∧ FilledByMtpr .dtb c.dtbMgr

/-- **HW_MTPR fills the buffers from the PTE it writes.** -/
theorem buffersFilled_writeIpr {cpu cpu' : CpuState} {v : Word} {p : HwIpr}
    (h : cpu.translationContext.BuffersFilled) (hw : writeIpr cpu v p = some cpu') :
    cpu'.translationContext.BuffersFilled := by
  -- the registers of the two buffers by name; the others leave both alone
  cases p with
  | itbPte => cases hw; exact ⟨h.1.fill cpu.itbTag cpu.asn v, h.2⟩
  | itbIap => cases hw; exact ⟨h.1.apply .tbiap nofun, h.2⟩
  | itbIa => cases hw; exact ⟨h.1.apply .tbia nofun, h.2⟩
  | itbIs => cases hw; exact ⟨h.1.apply (.tbis v cpu.asn) nofun, h.2⟩
  | dtbPte0 => cases hw; exact ⟨h.1, h.2.fill cpu.dtbTag0 cpu.dtbAsn0 v⟩
  | dtbPte1 => cases hw; exact ⟨h.1, h.2.fill cpu.dtbTag1 cpu.dtbAsn1 v⟩
  | dtbIap => cases hw; exact ⟨h.1, h.2.apply .tbiap nofun⟩
  | dtbIa => cases hw; exact ⟨h.1, h.2.apply .tbia nofun⟩
  | dtbIs0 => cases hw; exact ⟨h.1, h.2.apply (.tbis v cpu.dtbAsn0) nofun⟩
  | dtbIs1 => cases hw; exact ⟨h.1, h.2.apply (.tbis v cpu.dtbAsn1) nofun⟩
  | iCtl =>
    obtain ⟨_, _, _, heq⟩ := writeICtl_eq cpu v
    cases hw
    rw [heq]
    exact h
  | unknown => cases hw
  | _ => cases hw; exact h

section Runs

variable {δ : Type} (cfg : Config δ) {m : Machine δ}

/-- **One leaf.** -/
theorem buffersFilled_exec (fp : FpBackend) (g : InstructionGrain) (c : ExecCtx) (cpu : CpuState)
    (mem : GuestMemory) (l : Leaf) (h : cpu.translationContext.BuffersFilled) :
    (l.exec fp g c cpu mem).cpu.translationContext.BuffersFilled := by
  by_cases hl : l = .pal .hwMtpr
  · subst hl
    change (execHwMtpr g c cpu).1.translationContext.BuffersFilled
    cases hw : writeIpr cpu c.opB (iprSelector g.encoded) with
    | none => rwa [execHwMtpr, hw]
    | some cpu' =>
      rw [execHwMtpr_of_writeIpr hw]
      exact buffersFilled_writeIpr h hw
  · rwa [translationContext_exec fp g c cpu mem hl]

/-- **One event.** -/
theorem buffersFilled_machineStep (ev : Event δ) (h : m.cpu.translationContext.BuffersFilled) :
    (machineStep cfg m ev).cpu.translationContext.BuffersFilled := by
  by_cases hev : ev = .step
  · subst hev
    change (stepCpu cfg m).cpu.translationContext.BuffersFilled
    rcases translationContext_stepCpu_cases cfg m with hstep | ⟨e, -, hstep⟩
    · rwa [hstep]
    · rw [hstep, leafOut_eq]
      exact buffersFilled_exec cfg.fp _ _ m.cpu _ _ h
  · rwa [translationContext_of_ne_step hev]

/-- **Over every run the buffers hold what HW_MTPR filled.** -/
theorem buffersFilled_machineRun (es : List (Event δ))
    (h : m.cpu.translationContext.BuffersFilled) :
    (machineRun cfg m es).cpu.translationContext.BuffersFilled :=
  runFrom_invariant (fun x : Machine δ => x.cpu.translationContext.BuffersFilled)
    (fun _ ev hx => buffersFilled_machineStep cfg ev hx) es h

end Runs

/-! ## The physical address of a hit -/

namespace Ev6Translator

/-- A physical address has 44 bits. -/
theorem getLsbD_paMask : ∀ i : Fin 64, paMask.getLsbD i.val = decide (i.val < 44) := by decide

/-- An offset has 13. -/
theorem getLsbD_pageMask : ∀ i : Fin 64, (0x1FFF : Word).getLsbD i.val = decide (i.val < 13) := by
  decide

/-- The page number mask drops the low `3g` bits. -/
theorem getLsbD_vpnMaskForGh : ∀ (gh : BitVec 2) (i : Fin 64),
    (vpnMaskForGh gh).getLsbD i.val = decide (3 * gh.toNat ≤ i.val) := by decide +kernel

/-- Bits 12:0 come from the address and bits 43:13 from the frame number. -/
theorem getLsbD_hitPa (pte : AlphaPte) (va : Word) {i : Nat} (hi : i < 44) :
    (hitPa pte va).getLsbD i = if i < 13 then va.getLsbD i else pte.pfn.getLsbD (i - 13) := by
  have hpa := getLsbD_paMask ⟨i, by omega⟩
  have hpage := getLsbD_pageMask ⟨i, by omega⟩
  rw [hitPa, BitVec.getLsbD_and, BitVec.getLsbD_or, BitVec.getLsbD_and, BitVec.getLsbD_shiftLeft,
    hpa, hpage]
  by_cases h : i < 13
  · simp [h, hi]
  · simp [h, hi, show i < 64 by omega]

/-- The physical address keeps bits `12 + 3g : 0` of the virtual one, with `g` the hint of the PTE,
and takes the bits above them from the frame number. -/
structure KeepsBlock (pte : AlphaPte) (va pa : Word) : Prop where
  /-- The offset in the block. -/
  offset : ∀ i, i < 13 + 3 * pte.gh.toNat → pa.getLsbD i = va.getLsbD i
  /-- The frame of the block. -/
  frame : ∀ i, 13 + 3 * pte.gh.toNat ≤ i → i < 44 → pa.getLsbD i = pte.pfn.getLsbD (i - 13)

/-- The low `3g` bits of the page number are those of the frame number. -/
def OnNamedPage (pte : AlphaPte) (va : Word) : Prop :=
  ∀ j, j < 3 * pte.gh.toNat → va.getLsbD (13 + j) = pte.pfn.getLsbD j

/-- A block has at most `8^3` pages. -/
theorem blockBits_lt (gh : BitVec 2) : 13 + 3 * gh.toNat < 44 := by
  have := gh.isLt
  omega

/-- **A hit keeps the block on one of its pages only.** -/
theorem keepsBlock_hitPa_iff (pte : AlphaPte) (va : Word) :
    KeepsBlock pte va (hitPa pte va) ↔ OnNamedPage pte va := by
  have hg := blockBits_lt pte.gh
  constructor
  · intro h j hj
    have hoffset := h.offset (13 + j) (by omega)
    rw [getLsbD_hitPa pte va (by omega), if_neg (by omega), Nat.add_sub_cancel_left] at hoffset
    exact hoffset.symm
  · intro h
    constructor
    · intro i hi
      rw [getLsbD_hitPa pte va (by omega)]
      split
      · rfl
      · rename_i h13
        -- a page bit inside the block
        have hpage := h (i - 13) (by omega)
        rw [Nat.add_sub_cancel' (not_lt.mp h13)] at hpage
        exact hpage.symm
    · intro i hi hi44
      rw [getLsbD_hitPa pte va hi44, if_neg (by omega)]

/-- Distinct pages of a block that are kept have distinct physical pages. -/
theorem KeepsBlock.page_ne {pte : AlphaPte} {va va' pa pa' : Word} (h : KeepsBlock pte va pa)
    (h' : KeepsBlock pte va' pa')
    (hblock : vaToVpn va &&& vpnMaskForGh pte.gh = vaToVpn va' &&& vpnMaskForGh pte.gh)
    (hne : vaToVpn va ≠ vaToVpn va') : vaToVpn pa ≠ vaToVpn pa' := by
  intro hpage
  refine hne (BitVec.eq_of_getLsbD_eq fun i hi => ?_)
  by_cases hlow : i < 3 * pte.gh.toNat
  -- inside the block the page bits are those of the physical addresses
  · have hbit := congrArg (BitVec.getLsbD · i) hpage
    simp only [vaToVpn, BitVec.getLsbD_ushiftRight] at hbit ⊢
    rwa [h.offset _ (by omega), h'.offset _ (by omega)] at hbit
  -- above it both belong to the block
  · have hmask : (vpnMaskForGh pte.gh).getLsbD i = true := by
      rw [getLsbD_vpnMaskForGh pte.gh ⟨i, hi⟩]
      exact decide_eq_true (not_lt.mp hlow)
    have hbit := congrArg (BitVec.getLsbD · i) hblock
    simp only [BitVec.getLsbD_and, hmask, Bool.and_true] at hbit
    exact hbit

/-! ## Translations through the buffers -/

/-- The hint that the tag is masked by is the one the PTE carries. -/
theorem gh_decodePte (realm : TlbRealm) (v : Word) : (realm.decodePte v).gh = pteGh v := by
  have hmask : ∀ i : Fin 2, (0xFF76 : Word).getLsbD (5 + i.val) = true ∧
      (0x0F70 : Word).getLsbD (5 + i.val) = true := by decide
  refine BitVec.eq_of_getLsbD_eq fun i hi => ?_
  obtain ⟨hdtb, hitb⟩ := hmask ⟨i, hi⟩
  -- both masks keep bits 6:5, and the frame number starts at bit 32
  cases realm with
  | itb =>
    simp [TlbRealm.decodePte, canonicalFromItbPte, AlphaPte.gh, pteGh, hi,
      show 5 + i < 32 by omega]
    exact fun _ => hitb
  | dtb =>
    simp [TlbRealm.decodePte, canonicalFromDtbPte, AlphaPte.gh, pteGh, hi,
      show 5 + i < 32 by omega]
    exact fun _ => hdtb

/-- The PTE was written through HW_MTPR with its hint, for a block that holds the address and in an
address space that it serves. -/
def FilledFor (realm : TlbRealm) (pte : AlphaPte) (va asn : Word) : Prop :=
  ∃ va₀ asn₀ v, pte = realm.decodePte v ∧ pte.gh = pteGh v ∧
    (mtprFill realm va₀ asn₀ v).Covers va ∧ (mtprFill realm va₀ asn₀ v).Serves asn

/-- A buffer that HW_MTPR filled answers with a PTE filled for the address. -/
theorem filledFor_of_lookup {realm : TlbRealm} {tb : TbManager} {va asn : Word} {pte : AlphaPte}
    (h : FilledByMtpr realm tb) (hl : tb.lookup realm va asn = some pte) :
    FilledFor realm pte va asn := by
  obtain ⟨i, w, hmatch, -, rfl⟩ := SPAMShardManager.exists_slot_of_lookup hl
  have hvalid := TlbEntry.valid_of_matches hmatch
  obtain ⟨va₀, asn₀, v, hhold⟩ := h i w hvalid
  obtain ⟨hcov, hserve⟩ := (hhold.matches_iff hvalid va asn).mp hmatch
  have hpte : (tb.slot i w).pte = realm.decodePte v := hhold.pte
  exact ⟨va₀, asn₀, v, hpte, by rw [hpte, gh_decodePte], hcov, hserve⟩

/-- **Which translations keep the block.** In every run from buffers that hold only what HW_MTPR
filled, such as empty ones, a translation that succeeds is a PALmode fetch or a superpage in kernel
mode, or the buffer answers it with a PTE filled for a block that holds the address; and then the
offset in the block is kept, under the frame of the block, iff the low bits of the page number,
three for each step of the hint, are those of the frame number. Where two pages of a block are kept,
they have two physical pages. -/
theorem keepsBlock_machineRun_iff {δ : Type} (cfg : Config δ) (m : Machine δ)
    (h : m.cpu.translationContext.BuffersFilled) (es : List (Event δ)) (va pa : Word) :
    (∀ access, translateData (machineRun cfg m es).cpu va access = .success pa →
      ((machineRun cfg m es).cpu.mode = .kernel ∧ InSuperpage va (machineRun cfg m es).cpu.mSpe) ∨
      ∃ pte, (machineRun cfg m es).cpu.dtbMgr.lookup .dtb va (machineRun cfg m es).cpu.asn =
          some pte ∧
        FilledFor .dtb pte va (machineRun cfg m es).cpu.asn ∧
        (KeepsBlock pte va pa ↔ OnNamedPage pte va)) ∧
    (translateInstruction (machineRun cfg m es).cpu va = .success pa →
      ((machineRun cfg m es).cpu.inPalMode = true ∨
        ((machineRun cfg m es).cpu.mode = .kernel ∧
          InSuperpage va (machineRun cfg m es).cpu.iSpe)) ∨
      ∃ pte, (machineRun cfg m es).cpu.itbMgr.lookup .itb va (machineRun cfg m es).cpu.asn =
          some pte ∧
        FilledFor .itb pte va (machineRun cfg m es).cpu.asn ∧
        (KeepsBlock pte va pa ↔ OnNamedPage pte va)) ∧
    ∀ pte va' pa', KeepsBlock pte va pa → KeepsBlock pte va' pa' →
      vaToVpn va &&& vpnMaskForGh pte.gh = vaToVpn va' &&& vpnMaskForGh pte.gh →
      vaToVpn va ≠ vaToVpn va' → vaToVpn pa ≠ vaToVpn pa' := by
  have hfilled := buffersFilled_machineRun cfg es h
  generalize (machineRun cfg m es).cpu = cpu at hfilled
  refine ⟨fun access htr => ?_, fun htr => ?_, fun _ _ _ hk hk' => hk.page_ne hk'⟩
  · rcases translateData_eq_success htr with ⟨-, hsuper⟩ | ⟨-, pte, hl, hhit⟩
    · exact Or.inl hsuper
    · refine Or.inr ⟨pte, hl, filledFor_of_lookup hfilled.2 hl, ?_⟩
      rw [(applyTlbHit_success hhit).2]
      exact keepsBlock_hitPa_iff pte va
  · rcases translateInstruction_eq_success htr with ⟨-, hphys⟩ | ⟨-, pte, hl, hhit⟩
    · exact Or.inl hphys
    · refine Or.inr ⟨pte, hl, filledFor_of_lookup hfilled.1 hl, ?_⟩
      rw [(applyTlbHit_success hhit).2]
      exact keepsBlock_hitPa_iff pte va

/-- A PTE of hint 1 and frame number 0x100, which is readable in kernel mode. -/
def blockPte : Word := 0x10000000120

/-- A machine that has filled a block of eight pages at 0x10000 through HW_MTPR. -/
def blockMachine : Machine Unit :=
  ⟨{ dtbTag0 := 0x10000, dtbPteTemp := blockPte,
     dtbMgr := SPAMShardManager.clear.insert .dtb 0x10000 0 (canonicalFromDtbPte blockPte)
      (pteGh blockPte) }, ⟨.empty 1, ()⟩, .empty⟩

/-- The two writes that fill the buffer. -/
theorem writeIprs_blockMachine :
    writeIprs {} [(.dtbTag0, 0x10000), (.dtbPte0, blockPte)] = some blockMachine.cpu := rfl

/-- The second page of the block, with the page of the first. -/
theorem keepsBlock_machineRun_iff_second_page :
    ∃ pte, FilledFor .dtb pte 0x12008 0 ∧
      (KeepsBlock pte 0x12008 0x200008 ↔ OnNamedPage pte 0x12008) := by
  have hfilled : blockMachine.cpu.translationContext.BuffersFilled :=
    ⟨FilledByMtpr.clear, FilledByMtpr.clear.fill 0x10000 0 blockPte⟩
  have htr : translateData blockMachine.cpu 0x12008 .dataRead = .success 0x200008 := by
    decide +kernel
  rcases (keepsBlock_machineRun_iff (fetchOnly 0).config blockMachine hfilled [] 0x12008
    0x200008).1 .dataRead htr with ⟨-, hsuper⟩ | ⟨pte, -, hfor, hiff⟩
  · exact absurd hsuper (by unfold InSuperpage; decide)
  · exact ⟨pte, hfor, hiff⟩

/-- **Two pages of a block have one frame.** PALcode fills a block of eight pages with HW_MTPR
DTB_TAG0 and DTB_PTE0; its first two pages translate to the same physical page, and the second is
not kept. -/
theorem second_page_of_block_is_lost :
    ¬ ∀ (cpu cpu' : CpuState) (va₀ v va pa : Word) (access : AccessKind),
      writeIprs cpu [(.dtbTag0, va₀), (.dtbPte0, v)] = some cpu' →
      (mtprFill .dtb va₀ cpu.dtbAsn0 v).Covers va →
      cpu'.dtbMgr.lookup .dtb va cpu'.asn = some (canonicalFromDtbPte v) →
      translateData cpu' va access = .success pa → KeepsBlock (canonicalFromDtbPte v) va pa := by
  intro h
  have hkeep := h {} blockMachine.cpu 0x10000 blockPte 0x12000 0x200000 .dataRead
    writeIprs_blockMachine rfl (by decide +kernel) (by decide +kernel)
  exact absurd (hkeep.offset 13 (by decide)) (by decide)

end Ev6Translator

end EmulatR
