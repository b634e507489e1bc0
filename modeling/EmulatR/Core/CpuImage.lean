import Mathlib.Data.Finite.Prod
import Mathlib.Data.FinEnum
import EmulatR.Library.Codec
import EmulatR.Core.CpuState

/-! # The raw image of a CPU

`CpuState` is a flat record of machine words, small enumerations and the slots of two translation
buffers (coreLib/CpuState.h), and the source copies it as the bytes it is made of. Here it is shown
to have only finitely many values, so that such an image of a fixed size exists.

`cpuPod_nonempty` is that result. -/

namespace EmulatR

open Library.Codec

/-! ## Enumerations -/

instance : Finite FaultCode :=
  Finite.of_surjective (fun i : Fin 15 => FaultCode.ofNat i) fun f =>
    ⟨⟨f.ctorIdx, by cases f <;> decide⟩, FaultCode.ofNat_ctorIdx f⟩

instance : Finite TlbRealm :=
  Finite.of_surjective (fun i : Fin 2 => TlbRealm.ofNat i) fun f =>
    ⟨⟨f.ctorIdx, by cases f <;> decide⟩, TlbRealm.ofNat_ctorIdx f⟩

instance : Finite ModePrivilege :=
  Finite.of_surjective (fun i : Fin 4 => ModePrivilege.ofNat i) fun f =>
    ⟨⟨f.ctorIdx, by cases f <;> decide⟩, ModePrivilege.ofNat_ctorIdx f⟩

/-! ## Translation buffers -/

instance : Finite TlbTag :=
  Finite.of_injective (fun t : TlbTag => (t.vpn, t.asn, t.realm, t.gh)) <| by
    rintro ⟨⟩ ⟨⟩ h
    simpa using h

instance : Finite AlphaPte :=
  Finite.of_injective AlphaPte.raw <| by
    rintro ⟨⟩ ⟨⟩ h
    simpa using h

instance : Finite TlbEpochSnapshot :=
  Finite.of_injective (fun t : TlbEpochSnapshot => (t.globalEpoch, t.processEpoch)) <| by
    rintro ⟨⟩ ⟨⟩ h
    simpa using h

instance : Finite TlbEntry :=
  Finite.of_injective (fun t : TlbEntry => (t.tag, t.pte, t.epochs, t.valid, t.asmGlobal)) <| by
    rintro ⟨⟩ ⟨⟩ h
    simpa using h

instance (w : Nat) : Finite (SPAMBucket w) :=
  Finite.of_injective (fun t : SPAMBucket w => (t.slots, t.replaceCursor)) <| by
    rintro ⟨⟩ ⟨⟩ h
    simpa using h

instance (n w : Nat) : Finite (SPAMShardManager n w) :=
  Finite.of_injective
    (fun t : SPAMShardManager n w => (t.globalEpoch, t.processEpoch, t.buckets)) <| by
    rintro ⟨⟩ ⟨⟩ h
    simpa using h

/-! ## The record -/

instance : Finite CBoxState :=
  Finite.of_injective (fun c : CBoxState => (c.writeMany, c.errorReg, c.dataReg, c.shftCtrl)) <| by
    rintro ⟨⟩ ⟨⟩ h
    simpa using h

instance : Finite RegState :=
  Finite.of_injective
    (fun c : RegState => (c.intReg, c.fpReg, c.fpcr, c.intShadow, c.shadowLive)) <| by
    rintro ⟨⟩ ⟨⟩ h
    simpa using h

instance : Finite ControlState :=
  Finite.of_injective
    (fun c : ControlState => (c.pc, c.mode, c.excAddr, c.palBase, c.iCtl, c.palPersonality,
      c.cpuSlot, c.intrFlag, c.halted, c.unalignTrapEnabled, c.lastFaultCode)) <| by
    rintro ⟨⟩ ⟨⟩ h
    simpa using h

instance : Finite IprState :=
  Finite.of_injective
    (fun c : IprState => (c.vaCtl, c.mCtl, c.iSpe, c.mSpe, c.ier, c.isum, c.mmStat, c.va, c.vptb,
      c.scbb, c.palTemp, c.cBox)) <| by
    rintro ⟨⟩ ⟨⟩ h
    simpa using h

instance : Finite TbState :=
  Finite.of_injective
    (fun c : TbState => (c.ptbr, c.asn, c.itbMgr, c.dtbMgr, c.itbTag, c.dtbTag0, c.dtbTag1,
      c.dtbAsn0, c.dtbAsn1, c.itbPteTemp, c.dtbPteTemp)) <| by
    rintro ⟨⟩ ⟨⟩ h
    simpa using h

instance : Finite ProcessState :=
  Finite.of_injective
    (fun c : ProcessState => (c.ksp, c.esp, c.ssp, c.usp, c.fen, c.astenSr, c.pcbb, c.cycleCount,
      c.ccOffset)) <| by
    rintro ⟨⟩ ⟨⟩ h
    simpa using h

instance : Finite CpuState :=
  Finite.of_injective
    (fun c : CpuState => (c.toRegState, c.toControlState, c.toIprState, c.toTbState,
      c.toProcessState)) <| by
    rintro ⟨⟩ ⟨⟩ h
    simpa using h

/-- **The CPU record has a raw image**, together with its count of skipped cycles. -/
theorem cpuPod_nonempty : Nonempty (Pod (CpuState × Word)) :=
  haveI : Nonempty (CpuState × Word) := ⟨({}, 0)⟩
  Pod.nonempty (CpuState × Word)

end EmulatR
