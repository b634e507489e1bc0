import EmulatR.Library.Run
import EmulatR.Pipeline.Driver

/-! # The machine and its runs

The run loop (systemLib/Machine.cpp) alternates instructions with a system tick that may divert the
CPU to the PAL interrupt entry. An event is one of these things: an instruction, an interrupt of one
of the four lines, the one-shot synthetic injection of the command line, or a change of the
devices and of the cycle counter by the rest of the system.

`canAcceptInterrupt` and `stageInterruptDivert` are the tick's part, `machineStep` is one event and
`machineRun` a run. -/

namespace EmulatR

/-- The interrupt lines the tick polls. -/
inductive IrqLine
  | timer | interprocessor | irq0 | irq1
  deriving DecidableEq, Repr

/-- The level a line is arbitrated at. -/
def IrqLine.level : IrqLine → Nat
  | timer => 22
  | interprocessor => 21
  | irq0 => 23
  | irq1 => 23

/-- The ISUM bit of a line. -/
def IrqLine.isumMask : IrqLine → Word
  | timer => 1 <<< 35
  | interprocessor => 1 <<< 36
  | irq0 => 1 <<< 33
  | irq1 => 1 <<< 34

/-- The CPU may take an interrupt: PALcode has been relocated, the CPU is native and the line's IER
bit is set. -/
def canAcceptInterrupt (palImageRelocated : Bool) (cpu : CpuState) (level : Nat) : Bool :=
  palImageRelocated && cpu.palBase != 0 && !cpu.inPalMode &&
    (!(19 ≤ level ∧ level ≤ 30) || cpu.ier.getLsbD (57 - level))

/-- Divert to the interrupt entry. The PC is written before PALmode is entered. -/
def stageInterruptDivert (cpu : CpuState) (isumMask : Word) : CpuState :=
  let cpu := ({ cpu with excAddr := cpu.pc, pc := cpu.palBase + 0x680 }).palModeEnter
  { cpu with isum := isumMask }

/-- What happens to the machine. -/
inductive Event (δ : Type)
  /-- One instruction. -/
  | step
  /-- The tick finds an interrupt line pending. -/
  | interrupt (line : IrqLine) (palImageRelocated : Bool)
  /-- The synthetic interrupt of the command line fires. -/
  | inject
  /-- The devices and the clock move on. -/
  | environment (devices : δ) (cycleCount : Word)

section

variable {δ : Type} (cfg : Config δ)

/-- One event. -/
def machineStep (m : Machine δ) : Event δ → Machine δ
  | .step => stepCpu cfg m
  | .interrupt line relocated =>
    if canAcceptInterrupt relocated m.cpu line.level then
      { m with cpu := stageInterruptDivert m.cpu line.isumMask }
    else m
  | .inject =>
    if m.cpu.palBase ≠ 0 then { m with cpu := stageInterruptDivert m.cpu (1 <<< 33) } else m
  | .environment devices cycleCount =>
    { m with bus := { m.bus with devices := devices }, cpu := { m.cpu with cycleCount := cycleCount } }

/-- The state after a run. -/
abbrev machineRun (m : Machine δ) (es : List (Event δ)) : Machine δ :=
  Library.runFrom (machineStep cfg) m es

/-- A run of one instruction. -/
theorem machineRun_step (m : Machine δ) : machineRun cfg m [.step] = stepCpu cfg m := rfl

/-- The CPU at reset: native registers and buffers empty, kernel mode, the OpenVMS personality, the
PC and PAL_BASE the loader chose. -/
def resetCpu (pc palBase : Word) : CpuState :=
  { pc := pc, palBase := palBase, palPersonality := 1 }

end

end EmulatR
