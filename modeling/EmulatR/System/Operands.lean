import EmulatR.System.Platform

/-! # Operand routing

One function resolves the operands of every instruction from the flags of its row
(pipelineLib/PipelineDriver.h, buildCtx). An integer operate reads Ra, and either the literal or Rb
as bit 12 says; AMASK reads no Ra, and IMPLVER reads neither, so they get zero there. A floating
operate reads floating registers. The resolver takes bit 12 for the literal flag there too, although
it belongs to the rounding mode (`fpVariantFromEncoded`), so the routing of a floating operand B is
stated for words with bit 12 clear.

`operandRouting` is the result; `implver_gets_no_literal` has the words it leaves out. -/

namespace EmulatR

/-! ## The rows -/

namespace GrainMaster

/-- Opcodes 0x10 to 0x13. -/
def isIntOperate (r : GrainRow) : Bool := 0x10 ≤ r.primaryOpcode && r.primaryOpcode ≤ 0x13

/-- SQRTx of opcode 0x14, and opcodes 0x15 to 0x17. -/
def isFpOperate (r : GrainRow) : Bool :=
  (0x15 ≤ r.primaryOpcode && r.primaryOpcode ≤ 0x17) ||
    (r.primaryOpcode == 0x14 && [.ordinary (.fpUn .sqrtS), .ordinary (.fpUn .sqrtT),
      .ordinary (.fpUn .sqrtF), .ordinary (.fpUn .sqrtG)].contains r.leaf)

/-- One pass over the table: the operand flags of the integer and of the floating operates. -/
theorem operate_rows : ∀ r ∈ rows,
    (isIntOperate r → r.has .opFormat ∧ r.has .readsFp = false ∧
      (r.has .readsRa ∨ r.mnemonic = "AMASK" ∨ r.mnemonic = "IMPLVER") ∧
      (r.has .readsRb ∨ r.mnemonic = "IMPLVER")) ∧
    isFpOperate r = r.has .fpFormat ∧
      (isFpOperate r → r.has .opFormat = false ∧ r.has .memFormat = false ∧
        (r.has .readsRa ∨ r.has .readsRb → r.has .readsFp)) := by
  decide +kernel

/-- The integer operates of the table. -/
theorem isIntOperate_rows : ∀ r ∈ rows, isIntOperate r →
    r.has .opFormat ∧ r.has .readsFp = false ∧
      (r.has .readsRa ∨ r.mnemonic = "AMASK" ∨ r.mnemonic = "IMPLVER") ∧
      (r.has .readsRb ∨ r.mnemonic = "IMPLVER") := fun r hr => (operate_rows r hr).1

/-- The floating operates of the table are the rows with S_FpFormat. -/
theorem isFpOperate_rows : ∀ r ∈ rows,
    isFpOperate r = r.has .fpFormat ∧
      (isFpOperate r → r.has .opFormat = false ∧ r.has .memFormat = false ∧
        (r.has .readsRa ∨ r.has .readsRb → r.has .readsFp)) := fun r hr => (operate_rows r hr).2

end GrainMaster

/-! ## The operands a leaf receives -/

/-- The operands of an integer operate: the encoded ones where the row reads them, else zero. Only
AMASK and IMPLVER do not read Ra, and only IMPLVER reads no operand B. -/
structure IntRouting (r : GrainRow) (cpu : CpuState) (e : Encoded) (c : ExecCtx) : Prop where
  /-- Operand A is Ra. -/
  opA : c.opA = if r.has .readsRa then cpu.intReg e.ra else 0
  /-- Operand B is the literal or Rb. -/
  opB : c.opB = if r.has .readsRb then
    if e.litFlag then e.lit.setWidth 64 else cpu.intReg e.rb else 0
  /-- The rows that do not read Ra. -/
  readsRa : r.has .readsRa ∨ r.mnemonic = "AMASK" ∨ r.mnemonic = "IMPLVER"
  /-- The row that does not read operand B. -/
  readsRb : r.has .readsRb ∨ r.mnemonic = "IMPLVER"

/-- The operands of a floating operate are floating registers; operand B of a word with bit 12 set
is left open. -/
structure FpRouting (r : GrainRow) (cpu : CpuState) (e : Encoded) (c : ExecCtx) : Prop where
  /-- Operand A is Fa. -/
  opA : r.has .readsRa → c.opA = cpu.fpReg e.ra
  /-- Operand B is Fb. -/
  opB : r.has .readsRb → e.litFlag = false → c.opB = cpu.fpReg e.rb

section Routing

variable {δ : Type} (p : Platform δ) {m : Machine δ} {e : Encoded} {r : GrainRow}

/-- The integer operates. -/
theorem intRouting (hr : r ∈ GrainMaster.rows) (hi : GrainMaster.isIntOperate r)
    (g : InstructionGrain) (hf : g.semFlags = r.flags) (cpu : CpuState) :
    IntRouting r cpu g.encoded (buildCtx g cpu) := by
  obtain ⟨hop, hfp, hra, hrb⟩ := GrainMaster.isIntOperate_rows r hr hi
  obtain ⟨pc, flags, enc, op⟩ := g
  subst hf
  -- the row is in operate format and reads no floating register
  simp only [GrainRow.has] at hop hfp
  refine ⟨?_, ?_, hra, hrb⟩
  · simp only [buildCtx, hfp, GrainRow.has, Bool.false_eq_true, if_false]
    rfl
  · simp only [buildCtx, hop, hfp, GrainRow.has, Bool.true_or, Bool.true_and, Bool.false_and,
      Bool.false_eq_true, if_false]

/-- The floating-point operates. -/
theorem fpRouting (hr : r ∈ GrainMaster.rows) (hi : GrainMaster.isFpOperate r)
    (g : InstructionGrain) (hf : g.semFlags = r.flags) (cpu : CpuState) :
    FpRouting r cpu g.encoded (buildCtx g cpu) := by
  obtain ⟨-, hrow⟩ := GrainMaster.isFpOperate_rows r hr
  obtain ⟨hop, hmem, hfp⟩ := hrow hi
  -- the row is no memory one, so without bit 12 operand B comes from the floating file
  simp only [GrainRow.has] at hmem hfp
  refine ⟨fun ha => ?_, fun hb hlit => ?_⟩
  · simp only [GrainRow.has] at ha
    simp only [buildCtx, hf, ha, hfp (Or.inl ha), if_true]
  · simp only [GrainRow.has] at hb
    simp only [buildCtx, hf, hb, hfp (Or.inr hb), hmem, hlit, Bool.and_false, Bool.false_eq_true,
      if_false, if_true, Bool.not_false, Bool.and_true]

/-- **Operand routing.** Whatever the state and the word, if the word decodes to an operate row, the
leaf of the row runs on the operands the word encodes. -/
theorem operandRouting (hdec : decode GrainMaster.tables e m.cpu.palPersonality = .row r) :
    ∃ c, leafOut p.config m e =
        r.leaf.exec p.fp (leafGrain p.config m e) c m.cpu m.bus.memory ∧
      (GrainMaster.isIntOperate r → IntRouting r m.cpu e c) ∧
      (GrainMaster.isFpOperate r → FpRouting r m.cpu e c) := by
  have hrow := (GrainMaster.primaryOpcode_of_decode hdec).1
  have hentry := p.decodeEntry_of_decode e hdec
  refine ⟨leafCtx p.config m e, ?_, ?_, ?_⟩
  -- the leaf that runs is the decoded row's
  · rw [leafOut_eq, hentry]
    rfl
  · intro hi
    rw [leafCtx_eq, hentry]
    exact intRouting hrow hi
      { leafGrain p.config m e with semFlags := r.entry.semFlags } rfl m.cpu
  · intro hi
    rw [leafCtx_eq, hentry]
    exact fpRouting hrow hi
      { leafGrain p.config m e with semFlags := r.entry.semFlags } rfl m.cpu

end Routing

/-! ### ADDQ R1, 5, R2 and ADDT/C F1, F2, F3 -/

/-- ADDQ R1, 5, R2. -/
def addqLiteralWord : Encoded := 0x4020B402

/-- The ADDQ row of the table. -/
def addqRow : GrainRow :=
  ⟨"ADDQ", 0x10, some 0x20, .intArith, GrainMaster.intFlags, .ordinary (.int .addq)⟩

/-- ADDT/C F1, F2, F3, which has bit 12 clear. -/
def addtChoppedWord : Encoded := 0x58220403

/-- The ADDT/C row of the table. -/
def addtChoppedRow : GrainRow :=
  ⟨"ADDT_C", 0x16, some 0x020, .fltIeee, GrainMaster.fpBinFlags, .ordinary (.fpBin .addT)⟩

/-- The rows of ADDQ and of the chopped ADDT are rows of their families. -/
theorem mem_rows_adds :
    addqRow ∈ GrainMaster.intArithRows ∧ addtChoppedRow ∈ GrainMaster.fltIeeeRows := by
  decide +kernel

/-- The literal form of ADDQ decodes to the ADDQ row. -/
theorem decode_addqLiteral (pp : BitVec 8) :
    decode GrainMaster.tables addqLiteralWord pp = .row addqRow := by
  have hrow : addqRow ∈ GrainMaster.rows :=
    GrainMaster.mem_rows_of_family GrainMaster.intArithRows (by simp [GrainMaster.families])
      mem_rows_adds.1
  exact GrainMaster.decode_eq_row hrow
    (GrainRow.selected_of_sub (by decide) (by decide) (by decide) (by decide) (by decide))
    (by decide)

/-- ADDT/C decodes to its own row. -/
theorem decode_addtChopped (pp : BitVec 8) :
    decode GrainMaster.tables addtChoppedWord pp = .row addtChoppedRow := by
  have hrow : addtChoppedRow ∈ GrainMaster.rows :=
    GrainMaster.mem_rows_of_family GrainMaster.fltIeeeRows (by simp [GrainMaster.families])
      mem_rows_adds.2
  exact GrainMaster.decode_eq_row hrow
    (GrainRow.selected_of_sub (by decide) (by decide) (by decide) (by decide) (by decide))
    (by decide)

/-- A machine with 40 in R1, 1.0 in F1 and 2.0 in F2. -/
def addMachine : Machine Unit :=
  ⟨{ pc := 1
     intReg := Function.update (fun _ => 0) 1 40
     fpReg := Function.update (Function.update (fun _ => 0) 1 0x3FF0000000000000) 2
       0x4000000000000000 }, ⟨.empty 16, ()⟩, .empty⟩

/-- ADDQ runs on R1 and its literal, and ADDT/C on F1 and F2. -/
theorem operandRouting_adds :
    (∃ c, leafOut (fetchOnly addqLiteralWord).config addMachine addqLiteralWord =
        addqRow.leaf.exec (fetchOnly addqLiteralWord).fp
          (leafGrain (fetchOnly addqLiteralWord).config addMachine addqLiteralWord) c
          addMachine.cpu addMachine.bus.memory ∧ c.opA = 40 ∧ c.opB = 5) ∧
      ∃ c, leafOut (fetchOnly addtChoppedWord).config addMachine addtChoppedWord =
        addtChoppedRow.leaf.exec (fetchOnly addtChoppedWord).fp
          (leafGrain (fetchOnly addtChoppedWord).config addMachine addtChoppedWord) c
          addMachine.cpu addMachine.bus.memory ∧
          c.opA = 0x3FF0000000000000 ∧ c.opB = 0x4000000000000000 := by
  constructor
  · obtain ⟨c, hleaf, hint, -⟩ := operandRouting (fetchOnly addqLiteralWord)
      (m := addMachine) (decode_addqLiteral _)
    have hrouting := hint (by decide)
    refine ⟨c, hleaf, ?_, ?_⟩
    · rw [hrouting.opA, if_pos (by decide)]
      rfl
    · rw [hrouting.opB, if_pos (by decide), if_pos (by decide)]
      rfl
  · obtain ⟨c, hleaf, -, hfp⟩ := operandRouting (fetchOnly addtChoppedWord)
      (m := addMachine) (decode_addtChopped _)
    have hrouting := hfp (by decide)
    refine ⟨c, hleaf, ?_, ?_⟩
    · rw [hrouting.opA (by decide)]
      rfl
    · rw [hrouting.opB (by decide) (by decide)]
      rfl

/-! ### IMPLVER, and ADDT with bit 12 set -/

/-- IMPLVER R0, in its usual encoding with the literal 1. -/
def implverWord : Encoded := 0x47E03D80

/-- The IMPLVER row of the table. -/
def implverRow : GrainRow :=
  ⟨"IMPLVER", 0x11, some 0x6C, .intLogical, [.opFormat, .writesRc, .writesInt],
    .ordinary (.int .implver)⟩

/-- ADDT F1, F2, F3. -/
def addtWord : Encoded := 0x58221403

/-- The ADDT row of the table. -/
def addtRow : GrainRow :=
  ⟨"ADDT", 0x16, some 0x0A0, .fltIeee, GrainMaster.fpBinFlags, .ordinary (.fpBin .addT)⟩

/-- The rows of IMPLVER and of ADDT are rows of their families. -/
theorem mem_rows_implver_addt :
    implverRow ∈ GrainMaster.intLogicalRows ∧ addtRow ∈ GrainMaster.fltIeeeRows := by
  decide +kernel

/-- The word decodes to IMPLVER. -/
theorem decode_implver (pp : BitVec 8) :
    decode GrainMaster.tables implverWord pp = .row implverRow := by
  have hrow : implverRow ∈ GrainMaster.rows :=
    GrainMaster.mem_rows_of_family GrainMaster.intLogicalRows (by simp [GrainMaster.families])
      mem_rows_implver_addt.1
  exact GrainMaster.decode_eq_row hrow
    (GrainRow.selected_of_sub (by decide) (by decide) (by decide) (by decide) (by decide))
    (by decide)

/-- The word decodes to ADDT. -/
theorem decode_addt (pp : BitVec 8) :
    decode GrainMaster.tables addtWord pp = .row addtRow := by
  have hrow : addtRow ∈ GrainMaster.rows :=
    GrainMaster.mem_rows_of_family GrainMaster.fltIeeeRows (by simp [GrainMaster.families])
      mem_rows_implver_addt.2
  exact GrainMaster.decode_eq_row hrow
    (GrainRow.selected_of_sub (by decide) (by decide) (by decide) (by decide) (by decide))
    (by decide)

/-- A machine with 2.0 in F2. -/
def operandMachine : Machine Unit :=
  ⟨{ pc := 1, fpReg := Function.update (fun _ => 0) 2 0x4000000000000000 }, ⟨.empty 16, ()⟩, .empty⟩

/-- IMPLVER gets zero for its literal, which is 1; and ADDT F1, F2, F3, whose rounding mode sets bit
12, gets the literal 16 for F2. -/
theorem implver_gets_no_literal :
    (decode GrainMaster.tables implverWord operandMachine.cpu.palPersonality = .row implverRow ∧
        GrainMaster.isIntOperate implverRow ∧ implverWord.litFlag ∧ implverWord.lit = 1 ∧
        (leafCtx (fetchOnly implverWord).config operandMachine implverWord).opB = 0) ∧
      (decode GrainMaster.tables addtWord operandMachine.cpu.palPersonality = .row addtRow ∧
        GrainMaster.isFpOperate addtRow ∧ addtRow.has .readsRb ∧
        operandMachine.cpu.fpReg addtWord.rb = 0x4000000000000000 ∧
        (leafCtx (fetchOnly addtWord).config operandMachine addtWord).opB = 16) := by
  have himpl : decodeEntry (fetchOnly implverWord).config operandMachine.cpu implverWord =
      implverRow.entry := (fetchOnly implverWord).decodeEntry_of_decode _ (decode_implver _)
  have haddt : decodeEntry (fetchOnly addtWord).config operandMachine.cpu addtWord =
      addtRow.entry := (fetchOnly addtWord).decodeEntry_of_decode _ (decode_addt _)
  refine ⟨⟨decode_implver _, by decide, by decide, by decide, ?_⟩,
    ⟨decode_addt _, by decide, by decide, by decide, ?_⟩⟩
  · rw [leafCtx_eq, himpl]
    rfl
  · rw [leafCtx_eq, haddt]
    rfl

end EmulatR
