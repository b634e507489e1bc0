import EmulatR.GrainFactory.GrainMaster
import EmulatR.System.Step

/-! # The machine with the repository's table

`Config` leaves the decoder open. A `Platform` is everything else a machine is built with, and
`Platform.config` is the machine whose decoder works on the tables emitted from the repository's
rows. The lemmas here say which opcodes a leaf can run under. -/

namespace EmulatR

/-- What a machine is built with besides the instruction table. -/
structure Platform (δ : Type) where
  /-- The devices on the bus. -/
  devices : Devices δ
  /-- The floating backend. -/
  fp : FpBackend
  /-- The platform is silicon. -/
  silicon : Bool
  /-- The firmware payload that overlays instruction fetch. -/
  tryFetch : δ → Word → Option Encoded

/-- The machine of a platform. -/
def Platform.config {δ : Type} (p : Platform δ) : Config δ :=
  { devices := p.devices
    fp := p.fp
    silicon := p.silicon
    tryFetch := p.tryFetch
    decode := fun e pp => (decode GrainMaster.tables e pp).entry }

/-- The opcodes a leaf runs under. -/
def Leaf.runsUnder : Leaf → Nat → Bool
  | .pal .hwMfpr, op => op == 0x19
  | .pal .hwMtpr, op => op == 0x1D
  | .pal .hwRei, op => op == 0x1E
  | .pal _, op => op == 0
  | .ordinary .opcDec, _ => true
  | .ordinary .hwLd, op => op == 0x1B
  | .ordinary .hwSt, op => op == 0x1F
  | .ordinary .jmp, op => op == 0x1A
  | .ordinary .br, op => op == 0x30 || op == 0x34
  | .ordinary (.bcond _), op => 0x38 ≤ op
  | .ordinary (.fbcond _), op => 0x31 ≤ op && op ≤ 0x37 && op != 0x34
  | .ordinary _, op => op < 0x30 && !([0x19, 0x1A, 0x1B, 0x1D, 0x1E, 0x1F].contains op)

namespace GrainMaster

/-- Every row's leaf runs under the opcode of the row. -/
theorem runsUnder_rows : ∀ r ∈ rows, r.leaf.runsUnder r.primaryOpcode.toNat := by
  decide +kernel

end GrainMaster

section Decode

variable {δ : Type} (p : Platform δ) (e : Encoded) (pp : BitVec 8)

/-- The entry of a word: that of a row of the word's opcode, OPCDEC, or the synthetic CALL_PAL. -/
theorem Platform.decode_cases :
    (∃ r ∈ GrainMaster.rows, p.config.decode e pp = r.entry ∧
        r.primaryOpcode = e.primaryOp.toNat) ∨
      p.config.decode e pp = Dispatch.opcDec.entry ∨
      (e.primaryOp = 0 ∧ p.config.decode e pp = (Dispatch.callPal (pp = 1)).entry) := by
  rcases GrainMaster.decode_cases e pp with ⟨r, hr, hdec, hop⟩ | hdec | ⟨hop, hdec⟩
  · exact Or.inl ⟨r, hr, congrArg Dispatch.entry hdec, hop⟩
  · exact Or.inr (Or.inl (congrArg Dispatch.entry hdec))
  · exact Or.inr (Or.inr ⟨hop, congrArg Dispatch.entry hdec⟩)

/-- A property of all rows and of the two entries without a row holds of every entry. -/
theorem Platform.decode_ind {P : GrainEntry → Prop} (hrows : ∀ r ∈ GrainMaster.rows, P r.entry)
    (hopc : P Dispatch.opcDec.entry) (hpal : ∀ vms, P (Dispatch.callPal vms).entry) :
    P (p.config.decode e pp) := by
  rcases p.decode_cases e pp with ⟨r, hr, hdec, -⟩ | hdec | ⟨-, hdec⟩
  · exact hdec ▸ hrows r hr
  · exact hdec ▸ hopc
  · exact hdec ▸ hpal _

/-- **A leaf only runs under its own opcodes.** -/
theorem Platform.runsUnder : (p.config.decode e pp).leaf.runsUnder e.primaryOp.toNat := by
  rcases p.decode_cases e pp with ⟨r, hr, hdec, hop⟩ | hdec | ⟨hop, hdec⟩
  · rw [hdec]
    have := GrainMaster.runsUnder_rows r hr
    rwa [hop, Int.toNat_natCast] at this
  · rw [hdec]
    rfl
  · rw [hdec, hop]
    rfl

/-- The entry of a word that decodes to a row. -/
theorem Platform.decodeEntry_of_decode {r : GrainRow} {cpu : CpuState}
    (h : decode GrainMaster.tables e cpu.palPersonality = .row r) :
    decodeEntry p.config cpu e = r.entry := congrArg Dispatch.entry h

/-- The entry of a word some row is selected for. -/
theorem Platform.decodeEntry_eq {r : GrainRow} (cpu : CpuState) (hr : r ∈ GrainMaster.rows)
    (hs : r.Selected e cpu.palPersonality) (hm : r.dispatchKind ≠ .misc) :
    decodeEntry p.config cpu e = r.entry :=
  p.decodeEntry_of_decode e (GrainMaster.decode_eq_row hr hs hm)

end Decode

/-- A platform without devices, every byte of it DRAM, that fetches one word wherever it is. -/
def fetchOnly (e : Encoded) : Platform Unit :=
  { devices := .allDram
    fp := { bin := fun _ _ _ _ _ => ⟨0, {}⟩, un := fun _ _ _ _ => ⟨0, {}⟩ }
    silicon := true
    tryFetch := fun _ _ => some e }

/-- A fetch that the firmware payload answers. -/
theorem fetched_of_tryFetch {δ : Type} {p : Platform δ} {e : Encoded} {m : Machine δ} {pa : Word}
    (h : (Ev6Translator.translateInstruction m.cpu m.cpu.pc).pa? = some pa)
    (ht : p.tryFetch m.bus.devices pa = some e) : fetched p.config m = some e := by
  have hcfg : p.config.tryFetch m.bus.devices pa = some e := ht
  rw [fetched_eq_some, fetchWord, h]
  simp only [hcfg]

/-- A platform that fetches one word fetches it wherever translation succeeds. -/
theorem fetched_fetchOnly {e : Encoded} {m : Machine Unit} {pa : Word}
    (h : (Ev6Translator.translateInstruction m.cpu m.cpu.pc).pa? = some pa) :
    fetched (fetchOnly e).config m = some e := fetched_of_tryFetch h rfl

/-- In PALmode an aligned fetch always translates. -/
theorem fetched_fetchOnly_of_pal {e : Encoded} {m : Machine Unit} {pc : Word} (hpc : m.cpu.pc = pc)
    (hp : pc.getLsbD 0 = true) (ha : Ev6Translator.isAlignedFor (pc &&& ~~~1) 4 = true) :
    fetched (fetchOnly e).config m = some e := by
  have htr : Ev6Translator.translateInstruction m.cpu m.cpu.pc =
      .success ((m.cpu.pc &&& ~~~1) &&& Ev6Translator.paMask) := by
    rw [Ev6Translator.translateInstruction, hpc, ha, if_neg (by decide), CpuState.inPalMode, hpc,
      if_pos hp]
  exact fetched_fetchOnly (congrArg TranslationResult.pa? htr)

end EmulatR
