import EmulatR.GrainFactory.Lookup

/-! # The instruction table

The rows of grainFactoryLib/GrainMasterV4.tsv, family by family, with the leaf each row's name
resolves to (grainFactoryLib/codegen/handwritten.tsv; SWPCTX is the one row whose leaf is still a
stub). The last section emits the tables and states what the rows have in common.

`rows` is the table, `tables` what is emitted for it, and `decode_cases` and `decode_eq_row` are
what the decoder makes of a word. -/

namespace EmulatR

namespace GrainMaster

/-! ## Integer operates -/

/-- The flags of an integer operate. -/
def intFlags : GrainSem := [.opFormat, .readsRa, .readsRb, .readsInt, .writesRc, .writesInt]

/-- A family of operate rows of one opcode. -/
def operateRows (op : Int) (kind : DispatchKind) (flags : GrainSem)
    (rows : List (String × Int × OrdinaryLeaf)) : List GrainRow :=
  rows.map fun r => ⟨r.1, op, some r.2.1, kind, flags, .ordinary r.2.2⟩

/-- Opcode 0x10. -/
def intArithRows : List GrainRow :=
  operateRows 0x10 .intArith intFlags [
    ("ADDL", 0x00, .int .addl), ("S4ADDL", 0x02, .int .s4addl), ("SUBL", 0x09, .int .subl),
    ("S4SUBL", 0x0B, .int .s4subl), ("CMPBGE", 0x0F, .int .cmpbge), ("S8ADDL", 0x12, .int .s8addl),
    ("S8SUBL", 0x1B, .int .s8subl), ("CMPULT", 0x1D, .int .cmpult), ("ADDQ", 0x20, .int .addq),
    ("S4ADDQ", 0x22, .int .s4addq), ("SUBQ", 0x29, .int .subq), ("S4SUBQ", 0x2B, .int .s4subq),
    ("S8ADDQ", 0x32, .int .s8addq), ("S8SUBQ", 0x3B, .int .s8subq), ("CMPEQ", 0x2D, .int .cmpeq),
    ("CMPULE", 0x3D, .int .cmpule), ("CMPLT", 0x4D, .int .cmplt), ("CMPLE", 0x6D, .int .cmple)]

/-- Opcode 0x11. AMASK reads no Ra, and IMPLVER reads nothing. -/
def intLogicalRows : List GrainRow :=
  operateRows 0x11 .intLogical intFlags [
    ("AND", 0x00, .int .and), ("BIC", 0x08, .int .bic), ("CMOVLBS", 0x14, .cmov .lbs),
    ("CMOVLBC", 0x16, .cmov .lbc), ("BIS", 0x20, .int .bis), ("CMOVEQ", 0x24, .cmov .eq),
    ("CMOVNE", 0x26, .cmov .ne), ("ORNOT", 0x28, .int .ornot), ("XOR", 0x40, .int .xor),
    ("CMOVLT", 0x44, .cmov .lt), ("CMOVGE", 0x46, .cmov .ge), ("EQV", 0x48, .int .eqv),
    ("CMOVLE", 0x64, .cmov .le), ("CMOVGT", 0x66, .cmov .gt)] ++
  [⟨"AMASK", 0x11, some 0x61, .intLogical, [.opFormat, .readsRb, .readsInt, .writesRc, .writesInt],
    .ordinary (.int .amask)⟩] ++
  [⟨"IMPLVER", 0x11, some 0x6C, .intLogical, [.opFormat, .writesRc, .writesInt],
    .ordinary (.int .implver)⟩]

/-- Opcode 0x12. -/
def intShiftRows : List GrainRow :=
  operateRows 0x12 .intShift intFlags [
    ("SLL", 0x39, .int .sll), ("SRL", 0x34, .int .srl), ("SRA", 0x3C, .int .sra),
    ("ZAP", 0x30, .int .zap), ("ZAPNOT", 0x31, .int .zapnot), ("MSKBL", 0x02, .int .mskbl),
    ("MSKWL", 0x12, .int .mskwl), ("MSKLL", 0x22, .int .mskll), ("MSKQL", 0x32, .int .mskql),
    ("MSKWH", 0x52, .int .mskwh), ("MSKLH", 0x62, .int .msklh), ("MSKQH", 0x72, .int .mskqh),
    ("EXTBL", 0x06, .int .extbl), ("EXTWL", 0x16, .int .extwl), ("EXTLL", 0x26, .int .extll),
    ("EXTQL", 0x36, .int .extql), ("EXTWH", 0x5A, .int .extwh), ("EXTLH", 0x6A, .int .extlh),
    ("EXTQH", 0x7A, .int .extqh), ("INSBL", 0x0B, .int .insbl), ("INSWL", 0x1B, .int .inswl),
    ("INSLL", 0x2B, .int .insll), ("INSQL", 0x3B, .int .insql), ("INSWH", 0x57, .int .inswh),
    ("INSLH", 0x67, .int .inslh), ("INSQH", 0x77, .int .insqh)]

/-- Opcode 0x13. -/
def intMulRows : List GrainRow :=
  operateRows 0x13 .intMul intFlags [
    ("MULL", 0x00, .int .mull), ("MULQ", 0x20, .int .mulq), ("UMULH", 0x30, .int .umulh)]

/-- Opcode 0x1C: the byte, word and multimedia extensions, and FTOIT. -/
def fpTiExtRows : List GrainRow :=
  operateRows 0x1C .fpTiExt [.opFormat, .readsRb, .readsInt, .writesRc, .writesInt] [
    ("SEXTB", 0x00, .int .sextb), ("SEXTW", 0x01, .int .sextw), ("CTPOP", 0x30, .int .ctpop),
    ("CTLZ", 0x32, .int .ctlz), ("CTTZ", 0x33, .int .cttz), ("UNPKBW", 0x34, .int .unpkbw),
    ("UNPKBL", 0x35, .int .unpkbl), ("PKWB", 0x36, .int .pkwb), ("PKLB", 0x37, .int .pklb)] ++
  operateRows 0x1C .fpTiExt intFlags [
    ("PERR", 0x31, .int .perr), ("MINSB8", 0x38, .int .minsb8), ("MINSW4", 0x39, .int .minsw4),
    ("MINUB8", 0x3A, .int .minub8), ("MINUW4", 0x3B, .int .minuw4), ("MAXUB8", 0x3C, .int .maxub8),
    ("MAXUW4", 0x3D, .int .maxuw4), ("MAXSB8", 0x3E, .int .maxsb8), ("MAXSW4", 0x3F, .int .maxsw4)] ++
  operateRows 0x1C .fpTiExt [.opFormat, .readsRa, .readsFp, .writesRc, .writesInt]
    [("FTOIT", 0x70, .int .ftoit)]

/-! ## Floating operates -/

/-- The flags of a floating operate that reads both operands. -/
def fpBinFlags : GrainSem :=
  [.fpFormat, .readsRa, .readsRb, .readsFp, .writesRc, .writesFp, .fpTrap]

/-- The flags of a floating operate that reads operand B. -/
def fpUnFlags : GrainSem := [.fpFormat, .readsRb, .readsFp, .writesRc, .writesFp, .fpTrap]

/-- The rounding and trap qualifiers of the IEEE arithmetic: the suffix and the function bits. -/
def ieeeQualifiers : List (String × Int) :=
  [("_C", 0x000), ("_M", 0x040), ("", 0x080), ("_D", 0x0C0),
    ("_UC", 0x100), ("_UM", 0x140), ("_U", 0x180), ("_UD", 0x1C0),
    ("_SUC", 0x500), ("_SUM", 0x540), ("_SU", 0x580), ("_SUD", 0x5C0),
    ("_SUIC", 0x700), ("_SUIM", 0x740), ("_SUI", 0x780), ("_SUID", 0x7C0)]

/-- The qualifiers of a conversion to an integer, where overflow stands for underflow. -/
def ieeeIntQualifiers : List (String × Int) :=
  [("_C", 0x000), ("_M", 0x040), ("", 0x080), ("_D", 0x0C0),
    ("_VC", 0x100), ("_VM", 0x140), ("_V", 0x180), ("_VD", 0x1C0),
    ("_SVC", 0x500), ("_SVM", 0x540), ("_SV", 0x580), ("_SVD", 0x5C0),
    ("_SVIC", 0x700), ("_SVIM", 0x740), ("_SVI", 0x780), ("_SVID", 0x7C0)]

/-- The qualifiers of a conversion from an integer. -/
def fromIntQualifiers : List (String × Int) :=
  [("_C", 0x000), ("_M", 0x040), ("", 0x080), ("_D", 0x0C0),
    ("_SUIC", 0x700), ("_SUIM", 0x740), ("_SUI", 0x780), ("_SUID", 0x7C0)]

/-- The qualifiers of the VAX arithmetic. -/
def vaxQualifiers : List (String × Int) :=
  [("_C", 0x000), ("", 0x080), ("_UC", 0x100), ("_U", 0x180),
    ("_SC", 0x400), ("_S", 0x480), ("_SUC", 0x500), ("_SU", 0x580)]

/-- The qualifiers of the VAX conversion to an integer. -/
def vaxIntQualifiers : List (String × Int) :=
  [("_C", 0x000), ("", 0x080), ("_VC", 0x100), ("_V", 0x180),
    ("_SC", 0x400), ("_S", 0x480), ("_SVC", 0x500), ("_SV", 0x580)]

/-- The rows of one floating operation: a row for each qualifier, all with one leaf. -/
def fpVariants (op : Int) (kind : DispatchKind) (flags : GrainSem) (qualifiers : List (String × Int))
    (mnemonic : String) (base : Int) (leaf : OrdinaryLeaf) : List GrainRow :=
  qualifiers.map fun q =>
    ⟨mnemonic ++ q.1, op, some (base + q.2), kind, flags, .ordinary leaf⟩

/-- Opcode 0x14: the moves from an integer register and the square roots. -/
def itFpRows : List GrainRow :=
  operateRows 0x14 .itFp [.opFormat, .readsRa, .readsInt, .writesRc, .writesFp]
    [("ITOFS", 0x004, .fpMove .itofs), ("ITOFF", 0x014, .fpMove .itoff),
      ("ITOFT", 0x024, .fpMove .itoft)] ++
  fpVariants 0x14 .itFp fpUnFlags ieeeQualifiers "SQRTS" 0x00B (.fpUn .sqrtS) ++
  fpVariants 0x14 .itFp fpUnFlags ieeeQualifiers "SQRTT" 0x02B (.fpUn .sqrtT) ++
  fpVariants 0x14 .itFp fpUnFlags vaxQualifiers "SQRTF" 0x00A (.fpUn .sqrtF) ++
  fpVariants 0x14 .itFp fpUnFlags vaxQualifiers "SQRTG" 0x02A (.fpUn .sqrtG)

/-- A family of two-operand rows under one list of qualifiers. -/
def fpBinFamily (op : Int) (kind : DispatchKind) (qualifiers : List (String × Int))
    (ops : List (String × Int × FpBinOp)) : List GrainRow :=
  ops.flatMap fun o => fpVariants op kind fpBinFlags qualifiers o.1 o.2.1 (.fpBin o.2.2)

/-- A family of one-operand rows under one list of qualifiers. -/
def fpUnFamily (op : Int) (kind : DispatchKind) (qualifiers : List (String × Int))
    (ops : List (String × Int × FpUnOp)) : List GrainRow :=
  ops.flatMap fun o => fpVariants op kind fpUnFlags qualifiers o.1 o.2.1 (.fpUn o.2.2)

/-- Opcode 0x15: VAX floating point. -/
def fltVaxRows : List GrainRow :=
  fpBinFamily 0x15 .fltVax vaxQualifiers
    [("ADDF", 0x000, .addF), ("SUBF", 0x001, .subF), ("MULF", 0x002, .mulF), ("DIVF", 0x003, .divF),
      ("ADDG", 0x020, .addG), ("SUBG", 0x021, .subG), ("MULG", 0x022, .mulG),
      ("DIVG", 0x023, .divG)] ++
  fpBinFamily 0x15 .fltVax [("", 0x080), ("_S", 0x480)]
    [("CMPGEQ", 0x025, .cmpG .eq), ("CMPGLT", 0x026, .cmpG .lt), ("CMPGLE", 0x027, .cmpG .le)] ++
  fpUnFamily 0x15 .fltVax vaxQualifiers
    [("CVTDG", 0x01E, .cvtDG), ("CVTGF", 0x02C, .cvtGF), ("CVTGD", 0x02D, .cvtGD)] ++
  fpUnFamily 0x15 .fltVax vaxIntQualifiers [("CVTGQ", 0x02F, .cvtGQ)] ++
  fpUnFamily 0x15 .fltVax [("_C", 0x000), ("", 0x080)]
    [("CVTQF", 0x03C, .cvtQF), ("CVTQG", 0x03E, .cvtQG)]

/-- Opcode 0x16: IEEE floating point. -/
def fltIeeeRows : List GrainRow :=
  fpBinFamily 0x16 .fltIeee ieeeQualifiers
    [("ADDS", 0x000, .addS), ("ADDT", 0x020, .addT), ("SUBS", 0x001, .subS), ("SUBT", 0x021, .subT),
      ("MULS", 0x002, .mulS), ("MULT", 0x022, .mulT), ("DIVS", 0x003, .divS),
      ("DIVT", 0x023, .divT)] ++
  fpBinFamily 0x16 .fltIeee [("", 0x080), ("_SU", 0x580)]
    [("CMPTUN", 0x024, .cmpT .un), ("CMPTEQ", 0x025, .cmpT .eq), ("CMPTLT", 0x026, .cmpT .lt),
      ("CMPTLE", 0x027, .cmpT .le)] ++
  fpUnFamily 0x16 .fltIeee ieeeQualifiers [("CVTTS", 0x02C, .cvtTS)] ++
  fpUnFamily 0x16 .fltIeee ieeeIntQualifiers [("CVTTQ", 0x02F, .cvtTQ)] ++
  fpUnFamily 0x16 .fltIeee fromIntQualifiers
    [("CVTQS", 0x03C, .cvtQS), ("CVTQT", 0x03E, .cvtQT)] ++
  fpUnFamily 0x16 .fltIeee [("", 0x280), ("_S", 0x680)] [("CVTST", 0x02C, .cvtST)]

/-- The flags of a floating move of both operands. -/
def fpMoveFlags : GrainSem := [.fpFormat, .readsRa, .readsRb, .readsFp, .writesRc, .writesFp]

/-- Opcode 0x17: copies, conversions and moves, and the two FPCR rows. -/
def fltLogicalRows : List GrainRow :=
  operateRows 0x17 .fltLogical fpMoveFlags
    [("CPYS", 0x020, .fpMove .cpys), ("CPYSN", 0x021, .fpMove .cpysn),
      ("CPYSE", 0x022, .fpMove .cpyse), ("FCMOVEQ", 0x02A, .fcmov .eq),
      ("FCMOVNE", 0x02B, .fcmov .ne), ("FCMOVLT", 0x02C, .fcmov .lt), ("FCMOVGE", 0x02D, .fcmov .ge),
      ("FCMOVLE", 0x02E, .fcmov .le), ("FCMOVGT", 0x02F, .fcmov .gt)] ++
  operateRows 0x17 .fltLogical [.fpFormat, .readsRb, .readsFp, .writesRc, .writesFp]
    [("CVTLQ", 0x010, .fpMove .cvtlq), ("CVTQL", 0x030, .fpMove .cvtql)] ++
  operateRows 0x17 .fltLogical fpUnFlags
    [("CVTQL_V", 0x130, .fpMove .cvtql), ("CVTQL_SV", 0x530, .fpMove .cvtql)] ++
  operateRows 0x17 .fltLogical [.fpFormat, .readsRa, .readsFp, .fpcrWrite]
    [("MT_FPCR", 0x024, .mtFpcr)] ++
  operateRows 0x17 .fltLogical [.fpFormat, .writesRc, .writesFp, .fpcrRead]
    [("MF_FPCR", 0x025, .mfFpcr)]

/-! ## Memory, branches, jumps and miscellany -/

/-- A family of rows whose opcode is the operation. -/
def directRows (flags : GrainSem) (rows : List (String × Int × OrdinaryLeaf)) : List GrainRow :=
  rows.map fun r => ⟨r.1, r.2.1, some 0, .direct, flags, .ordinary r.2.2⟩

/-- Loads and stores. -/
def memoryRows : List GrainRow :=
  directRows [.memFormat, .readsRb, .writesRa, .readsInt, .writesInt]
    [("LDA", 0x08, .lda), ("LDAH", 0x09, .ldah)] ++
  directRows [.memFormat, .readsRb, .writesRa, .readsInt, .writesInt, .load, .cacheable]
    [("LDBU", 0x0A, .load 1), ("LDQ_U", 0x0B, .ldqU), ("LDWU", 0x0C, .load 2),
      ("LDL", 0x28, .load 4), ("LDQ", 0x29, .load 8)] ++
  directRows [.memFormat, .readsRa, .readsRb, .readsInt, .store, .cacheable]
    [("STW", 0x0D, .store 2), ("STB", 0x0E, .store 1), ("STQ_U", 0x0F, .stqU),
      ("STL", 0x2C, .store 4), ("STQ", 0x2D, .store 8)] ++
  directRows [.memFormat, .readsRb, .writesRa, .readsInt, .writesInt, .load, .locked, .cacheable]
    [("LDL_L", 0x2A, .load 4), ("LDQ_L", 0x2B, .load 8)] ++
  directRows [.memFormat, .readsRa, .readsRb, .readsInt, .writesRa, .writesInt, .store, .locked,
      .cacheable]
    [("STL_C", 0x2E, .storeC 4), ("STQ_C", 0x2F, .storeC 8)] ++
  directRows [.memFormat, .readsRb, .writesRa, .readsInt, .writesFp, .load, .vaxFp]
    [("LDF", 0x20, .fpLoad 4), ("LDG", 0x21, .fpLoad 8)] ++
  directRows [.memFormat, .readsRb, .writesRa, .readsInt, .writesFp, .load]
    [("LDS", 0x22, .fpLoad 4), ("LDT", 0x23, .fpLoad 8)] ++
  directRows [.memFormat, .readsRa, .readsRb, .readsFp, .readsInt, .store, .vaxFp]
    [("STF", 0x24, .fpStore .f), ("STG", 0x25, .fpStore .g)] ++
  directRows [.memFormat, .readsRa, .readsRb, .readsFp, .readsInt, .store]
    [("STS", 0x26, .fpStore .s), ("STT", 0x27, .fpStore .t)]

/-- Branches. -/
def branchRows : List GrainRow :=
  directRows [.braFormat, .writesRa, .writesInt, .changesPC, .uncond, .branch, .callBased]
    [("BR", 0x30, .br), ("BSR", 0x34, .br)] ++
  directRows [.braFormat, .readsRa, .readsFp, .changesPC, .branch]
    [("FBEQ", 0x31, .fbcond .eq), ("FBLT", 0x32, .fbcond .lt), ("FBLE", 0x33, .fbcond .le),
      ("FBNE", 0x35, .fbcond .ne), ("FBGE", 0x36, .fbcond .ge), ("FBGT", 0x37, .fbcond .gt)] ++
  directRows [.braFormat, .readsRa, .readsInt, .changesPC, .branch]
    [("BLBC", 0x38, .bcond .lbc), ("BEQ", 0x39, .bcond .eq), ("BLT", 0x3A, .bcond .lt),
      ("BLE", 0x3B, .bcond .le), ("BLBS", 0x3C, .bcond .lbs), ("BNE", 0x3D, .bcond .ne),
      ("BGE", 0x3E, .bcond .ge), ("BGT", 0x3F, .bcond .gt)]

/-- The flags of a jump. -/
def jumpFlags : GrainSem :=
  [.jmpFormat, .readsRb, .readsInt, .writesRa, .writesInt, .changesPC, .uncond, .indirect]

/-- Opcode 0x1A: jumps, told apart by hint bits only. -/
def jmpClassRows : List GrainRow :=
  operateRows 0x1A .jmpClass jumpFlags [("JMP", 0, .jmp)] ++
  operateRows 0x1A .jmpClass (jumpFlags ++ [.callBased]) [("JSR", 1, .jmp)] ++
  operateRows 0x1A .jmpClass (jumpFlags ++ [.retBased]) [("RET", 2, .jmp)] ++
  operateRows 0x1A .jmpClass (jumpFlags ++ [.callBased, .retBased]) [("JSR_COROUTINE", 3, .jmp)]

/-- Opcode 0x18: barriers, prefetches, RPCC, RC and RS. -/
def miscRows : List GrainRow :=
  operateRows 0x18 .misc [.miscFormat, .trapBarrier] [("TRAPB", 0x0000, .barrier)] ++
  operateRows 0x18 .misc [.miscFormat, .excBarrier] [("EXCB", 0x0400, .barrier)] ++
  operateRows 0x18 .misc [.miscFormat, .mb] [("MB", 0x4000, .barrier)] ++
  operateRows 0x18 .misc [.miscFormat, .wmb] [("WMB", 0x4400, .barrier)] ++
  operateRows 0x18 .misc [.miscFormat, .readsRb, .readsInt, .prefetchOnly]
    [("FETCH", 0x8000, .barrier), ("ECB", 0xE800, .barrier)] ++
  operateRows 0x18 .misc [.miscFormat, .writesRa, .writesInt, .rpccLike, .noTrace]
    [("RPCC", 0xC000, .rpcc)] ++
  operateRows 0x18 .misc [.miscFormat, .writesRa, .writesInt, .noTrace]
    [("RC", 0xE000, .rc), ("RS", 0xF000, .rs)]

/-! ## Hardware instructions and CALL_PAL -/

/-- The five hardware instructions, the privileged rows of the table. -/
def hwRows : List GrainRow :=
  [⟨"HW_MFPR", 0x19, some 0, .hwMfpr, [.hwFormat, .privileged, .iprRead, .writesRa, .writesInt],
      .pal .hwMfpr⟩,
    ⟨"HW_LD", 0x1B, some 0, .hwLd,
      [.hwFormat, .privileged, .load, .readsRb, .writesRa, .readsInt, .writesInt],
      .ordinary .hwLd⟩,
    ⟨"HW_MTPR", 0x1D, some 0, .hwMtpr, [.hwFormat, .privileged, .iprWrite, .readsRb, .readsInt],
      .pal .hwMtpr⟩,
    ⟨"HW_REI", 0x1E, some 0, .hwRei,
      [.hwFormat, .privileged, .palExit, .changesPC, .uncond, .noTrace], .pal .hwRei⟩,
    ⟨"HW_ST", 0x1F, some 0, .hwSt, [.hwFormat, .privileged, .store, .readsRa, .readsRb, .readsInt],
      .ordinary .hwSt⟩]

/-- A family of CALL_PAL rows. -/
def palRows (flags : GrainSem) (leaf : Leaf) (rows : List (String × Int)) : List GrainRow :=
  rows.map fun r => ⟨r.1, 0x00, some r.2, .pal, flags, leaf⟩

/-- The flags of a CALL_PAL row that enters PALcode. -/
def palEntryFlags : GrainSem := [.palFormat, .palEntry, .changesPC, .uncond]

/-- The flags of a CALL_PAL row the emulator executes itself, with a result in Ra. -/
def palIntrinsicFlags : GrainSem := [.palFormat, .palIntrinsic, .writesRa, .writesInt]

/-- The CALL_PAL rows whose leaf is the generic dispatcher. -/
def callPalRows : List GrainRow :=
  palRows (palEntryFlags ++ [.palTru64, .palVms, .palLinux]) (.pal .callPalDispatch) [
    ("BPT", 0x80), ("CHMK", 0x83), ("CFLUSH", 0x01), ("DRAINA", 0x02), ("SWPPAL", 0x0A),
    ("MTPR_IPIR", 0x0D), ("MFPR_MCES", 0x10), ("MTPR_MCES", 0x11), ("MTPR_PERFMON", 0x2B),
    ("MFPR_VIRBND", 0x30), ("MFPR_SYSPTBR", 0x32), ("IMB", 0x86), ("GENTRAP", 0xAA),
    ("CLRFEN", 0xAE), ("READ_UNQ", 0x9E), ("WRITE_UNQ", 0x9F)] ++
  palRows (palEntryFlags ++ [.palTru64, .palVms]) (.pal .callPalDispatch) [
    ("MTPR_DATFX", 0x2E), ("REI", 0x92)] ++
  palRows (palEntryFlags ++ [.palTru64, .palLinux]) (.pal .callPalDispatch) [
    ("WRVPTPTR", 0x2D), ("WRVAL", 0x31), ("TBI", 0x33), ("WRENT", 0x34), ("SWPIPL", 0x35),
    ("RDPS", 0x36), ("WRKGP", 0x37), ("WRUSP", 0x38), ("WRPERFMON", 0x39), ("RDUSP", 0x3A),
    ("WHAMI", 0x3C), ("RETSYS", 0x3D)] ++
  palRows (palEntryFlags ++ [.palVms]) (.pal .callPalDispatch) [
    ("CHME", 0x82), ("MFPR_ASN", 0x06), ("MTPR_ASTEN", 0x07), ("MTPR_ASTSR", 0x08),
    ("MFPR_FEN", 0x0B), ("MTPR_FEN", 0x0C), ("MFPR_IPL", 0x0E), ("MTPR_IPL", 0x0F),
    ("MFPR_PCBB", 0x12), ("MFPR_PRBR", 0x13), ("MTPR_PRBR", 0x14), ("MFPR_PTBR", 0x15),
    ("MTPR_SIRR", 0x18), ("MFPR_SISR", 0x19), ("MFPR_TBCHK", 0x1A), ("MTPR_TBIA", 0x1B),
    ("MTPR_TBIAP", 0x1C), ("MTPR_TBIS", 0x1D), ("MFPR_ESP", 0x1E), ("MTPR_ESP", 0x1F),
    ("MFPR_SSP", 0x20), ("MTPR_SSP", 0x21), ("MFPR_USP", 0x22), ("MTPR_USP", 0x23),
    ("MTPR_TBISD", 0x24), ("MTPR_TBISI", 0x25), ("MFPR_ASTEN", 0x26), ("MFPR_ASTSR", 0x27),
    ("BUGCHK", 0x81), ("CHMS", 0x84), ("CHMU", 0x85), ("INSQHIL", 0x87), ("INSQTIL", 0x88),
    ("INSQHIQ", 0x89), ("INSQTIQ", 0x8A), ("INSQUEL", 0x8B), ("INSQUEQ", 0x8C), ("INSQUEL_D", 0x8D),
    ("INSQUEQ_D", 0x8E), ("PROBER", 0x8F), ("PROBEW", 0x90), ("RD_PS", 0x91), ("REMQHIL", 0x93),
    ("REMQTIL", 0x94), ("REMQHIQ", 0x95), ("REMQTIQ", 0x96), ("REMQUEL", 0x97), ("REMQUEQ", 0x98),
    ("REMQUEL_D", 0x99), ("REMQUEQ_D", 0x9A), ("SWASTEN", 0x9B), ("WR_PS_SW", 0x9C), ("RSCC", 0x9D),
    ("AMOVRR", 0xA0), ("AMOVRM", 0xA1), ("INSQHILR", 0xA2), ("INSQTILR", 0xA3), ("INSQHIQR", 0xA4),
    ("INSQTIQR", 0xA5), ("REMQHILR", 0xA6), ("REMQTILR", 0xA7), ("REMQHIQR", 0xA8),
    ("REMQTIQR", 0xA9)] ++
  palRows [.palFormat, .palEntry, .writesRa, .writesInt, .palVms] (.pal .callPalDispatch) [
    ("MFPR_SCBB", 0x16)] ++
  palRows [.palFormat, .palEntry, .palVms] (.pal .callPalDispatch) [
    ("MTPR_SCBB", 0x17)]

/-- The CALL_PAL rows with a leaf of their own. -/
def palIntrinsicRows : List GrainRow :=
  palRows (palEntryFlags ++ [.palTru64, .palVms, .palLinux]) (.pal .halt) [("HALT", 0x00)] ++
  palRows (palEntryFlags ++ [.palTru64, .palVms, .palLinux]) (.pal .mfprWhami)
    [("MFPR_WHAMI", 0x3F)] ++
  palRows (palIntrinsicFlags ++ [.palTru64, .palVms, .palLinux]) (.pal .cserve)
    [("CSERVE", 0x09)] ++
  palRows (palIntrinsicFlags ++ [.palTru64, .palVms, .palLinux]) (.pal .wtint)
    [("WTINT", 0x3E)] ++
  palRows (palIntrinsicFlags ++ [.palVms]) (.pal .ldqpVms) [("LDQP", 0x03)] ++
  palRows (palIntrinsicFlags ++ [.palVms]) (.pal .mfprVptbVms) [("MFPR_VPTB", 0x29)] ++
  palRows (palIntrinsicFlags ++ [.palVms]) (.ordinary .unimplemented) [("SWPCTX", 0x05)] ++
  palRows [.palFormat, .palIntrinsic, .palVms] (.pal .stqpVms) [("STQP", 0x04)] ++
  palRows [.palFormat, .palIntrinsic, .palVms] (.pal .mtprVptbVms) [("MTPR_VPTB", 0x2A)]

/-- **The instruction table.** -/
def rows : List GrainRow :=
  memoryRows ++ branchRows ++ hwRows ++ intArithRows ++ intLogicalRows ++ intShiftRows ++
    intMulRows ++ fpTiExtRows ++ itFpRows ++ fltVaxRows ++ fltIeeeRows ++ fltLogicalRows ++
    jmpClassRows ++ miscRows ++ callPalRows ++ palIntrinsicRows

/-! ## The emitted tables -/

/-- A number for each bucket key; the keys of this table have different numbers. -/
def keyCode : BucketKey → Nat
  | .direct op => op.toNat
  | .sub kind s => 4096 * (kind.ctorIdx + 1) + s.toNat
  | .palTru64 s => 4096 * 30 + s.toNat
  | .palVms s => 4096 * 31 + s.toNat

/-- No two rows claim one slot. -/
theorem exists_index : ∃ d, Library.buildIndex bucketKeys rows = .ok d :=
  Library.buildIndex_isOk_of_distinct keyCode (by decide +kernel)

/-- The table passes its validation. -/
theorem validate_rows : validate rows = true := by decide +kernel

/-- The emitted tables. -/
def tables : DispatchTables := tablesOf true rows (Library.indexOf bucketKeys rows)

/-- The index of the rows. -/
theorem buildIndex_rows :
    Library.buildIndex bucketKeys rows = .ok (Library.indexOf bucketKeys rows) :=
  Library.buildIndex_eq_indexOf exists_index

/-- **The generator accepts the table.** -/
theorem genGrainsAccepts_rows : GenGrainsAccepts true rows tables :=
  ⟨validate_rows, emitDispatchTables_eq buildIndex_rows⟩

section Decode

variable {e : Encoded} {pp : BitVec 8} {r : GrainRow}

/-- Each row stands under the opcode of its kind. -/
theorem primaryOpcode_rows : ∀ r ∈ rows, ¬ r.dispatchKind.isDirect →
    r.primaryOpcode = r.dispatchKind.opcode := by
  decide +kernel

/-- The decoder only returns rows of the word's opcode. -/
theorem primaryOpcode_of_decode (h : decode tables e pp = .row r) :
    r ∈ rows ∧ r.primaryOpcode = e.primaryOp.toNat := by
  obtain ⟨hr, hs⟩ := decode_sound buildIndex_rows h
  refine ⟨hr, ?_⟩
  simp only [GrainRow.Selected] at hs
  split_ifs at hs with hdir
  · exact hs.2
  · rw [primaryOpcode_rows r hr (hs.2.1 ▸ hdir), hs.2.1, opcode_primaryKindMap hdir hs.1]

/-- What a word decodes to: a row of its opcode, the OPCDEC sentinel, or, for opcode 0 only, the
synthetic CALL_PAL dispatcher. -/
theorem decode_cases (e : Encoded) (pp : BitVec 8) :
    (∃ r ∈ rows, decode tables e pp = .row r ∧ r.primaryOpcode = e.primaryOp.toNat) ∨
      decode tables e pp = .opcDec ∨
      (e.primaryOp = 0 ∧ decode tables e pp = .callPal (pp = 1)) := by
  by_cases h : ∃ r, decode tables e pp = .row r
  · obtain ⟨r, hr⟩ := h
    obtain ⟨hmem, hop⟩ := primaryOpcode_of_decode hr
    exact Or.inl ⟨r, hmem, hr, hop⟩
  · rw [not_exists] at h
    have hdec := decode_of_no_row h
    split_ifs at hdec with hpal
    · exact Or.inr (Or.inr ⟨primaryKindMap_eq_pal.mp hpal, hdec⟩)
    · exact Or.inr (Or.inl hdec)

/-- A selected row that is not a Misc row is the one the decoder returns. -/
theorem decode_eq_row (hr : r ∈ rows) (hs : r.Selected e pp) (hm : r.dispatchKind ≠ .misc) :
    decode tables e pp = .row r := by
  obtain ⟨s, -, hdec, rfl | ⟨hmisc, -⟩⟩ := decode_complete true buildIndex_rows hr hs
  · exact hdec
  · exact absurd hmisc hm

/-- The families of rows, in the order of the table. -/
def families : List (List GrainRow) :=
  [memoryRows, branchRows, hwRows, intArithRows, intLogicalRows, intShiftRows, intMulRows,
    fpTiExtRows, itFpRows, fltVaxRows, fltIeeeRows, fltLogicalRows, jmpClassRows, miscRows,
    callPalRows, palIntrinsicRows]

/-- The rows of each family are rows. -/
theorem mem_rows_of_family (f : List GrainRow) (hf : f ∈ families) (h : r ∈ f) : r ∈ rows := by
  have hrows : families.flatten = rows := by
    simp only [families, rows, List.flatten_cons, List.flatten_nil, List.append_nil,
      List.append_assoc]
  rw [← hrows]
  exact List.mem_flatten.mpr ⟨f, hf, h⟩

end Decode

end GrainMaster

end EmulatR
