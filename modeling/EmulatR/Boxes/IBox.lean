import EmulatR.Boxes.EBox

/-! # The Ibox and the Mbox: control flow, loads and stores

Branches and jumps (iBoxLib/grains/ControlFlow.cpp) and the integer memory leaves
(mBoxLib/grains/LoadStore.cpp). A leaf only describes the transfer or the access; the drain and
retire stages perform it.

`execBr`, `execBcond` and `execJmp` transfer control, `execLoad`, `execStore` and their kin access
memory. -/

namespace EmulatR

/-! ## Control flow -/

/-- BR and BSR: link through Ra and branch. -/
def execBr (g : InstructionGrain) : BoxResult := linkResult g (g.pc + 4 + g.encoded.braDispSext)

/-- An integer conditional branch. -/
def execBcond (cond : RegCond) (g : InstructionGrain) (c : ExecCtx) : BoxResult :=
  branchResult g (cond.met c.opA)

/-- The target of a jump: Rb with bits 1:0 clear, PALmode kept. -/
def jumpTarget (g : InstructionGrain) (c : ExecCtx) : Word := (c.opB &&& ~~~3) ||| (g.pc &&& 1)

/-- JMP, JSR, RET and JSR_COROUTINE: link through Ra and jump. -/
def execJmp (g : InstructionGrain) (c : ExecCtx) : BoxResult := linkResult g (jumpTarget g c)

/-! ## Loads and stores -/

/-- The effective address of a memory instruction. -/
def memEa (g : InstructionGrain) (c : ExecCtx) : Word := c.opB + g.encoded.memDispSext

/-- The effective address of LDQ_U and STQ_U, with bits 2:0 clear. -/
def memEaU (g : InstructionGrain) (c : ExecCtx) : Word := memEa g c &&& ~~~7

/-- LDA. -/
def execLda (g : InstructionGrain) (c : ExecCtx) : BoxResult :=
  intWrite g g.encoded.ra (memEa g c)

/-- LDAH. -/
def execLdah (g : InstructionGrain) (c : ExecCtx) : BoxResult :=
  intWrite g g.encoded.ra (c.opB + (g.encoded.memDispSext <<< 16))

/-- LDBU, LDWU, LDL, LDQ, LDL_L and LDQ_L: load `size` bytes into Ra. -/
def execLoad (size : Nat) (g : InstructionGrain) (c : ExecCtx) : BoxResult :=
  loadResult g (memEa g c) size false

/-- LDQ_U. -/
def execLdqU (g : InstructionGrain) (c : ExecCtx) : BoxResult := loadResult g (memEaU g c) 8 false

/-- STB, STW, STL and STQ: store the low `size` bytes of Ra. -/
def execStore (size : Nat) (g : InstructionGrain) (c : ExecCtx) : BoxResult :=
  storeResult g (memEa g c) c.opA size

/-- STQ_U. -/
def execStqU (g : InstructionGrain) (c : ExecCtx) : BoxResult := storeResult g (memEaU g c) c.opA 8

/-- STL_C and STQ_C: a store that reports its success in Ra; failure until the drain says so. -/
def execStoreC (size : Nat) (g : InstructionGrain) (c : ExecCtx) : BoxResult :=
  { storeResult g (memEa g c) c.opA size with regWriteIdx := g.encoded.ra }

/-- The size of a HW_LD or HW_ST: bit 12 selects a quadword. -/
def hwQuadSize (g : InstructionGrain) : Nat := if g.encoded.litFlag then 8 else 4

/-- HW_LD. -/
def execHwLd (g : InstructionGrain) (c : ExecCtx) : BoxResult :=
  loadResult g (c.opB + g.encoded.hwDispSext) (hwQuadSize g) false

/-- HW_ST. -/
def execHwSt (g : InstructionGrain) (c : ExecCtx) : BoxResult :=
  storeResult g (c.opB + g.encoded.hwDispSext) c.opA (hwQuadSize g)

end EmulatR
