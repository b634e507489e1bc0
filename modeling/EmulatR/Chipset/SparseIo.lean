import EmulatR.Chipset.BusLaw

/-! # Sparse and dense I/O space

A device port can be reached through two windows. In the dense one the offset is the port. In the
sparse one it carries an address, a byte lane and the length of the transfer in fields
(Tsunami21272_RegisterMap.h), and the Pchip decodes them (TsunamiPchip.h). Both end in the same
search of the registered port ranges.

The Pchip takes the address field alone for the port and ignores the lane, so the two windows are
tied by `sparseAddress`, which has the whole port in that field.

* `sparse_eq_dense`: an access at `sparseAddress` is the dense access of the port.
* `windowsAgree_iff`: where the port is spread over address and lane instead (`sparseOffset`), the
  windows agree on port 0 and on ports that nobody answers. -/

namespace EmulatR

open Library TsunamiBus

/-! ## Decoding a sparse offset -/

namespace SparseSpace

/-- The address field, bits 28 to 5. -/
def decodePciAddr (off : Word) : BitVec 32 := ((off >>> 5) &&& 0x00FFFFFF).setWidth 32

/-- The byte lane, bits 4 and 3. -/
def decodeByteLane (off : Word) : BitVec 8 := ((off >>> 3) &&& 0x3).setWidth 8

/-- The length code, bits 2 to 0. -/
def decodeXferLen (off : Word) : BitVec 8 := (off &&& 0x07).setWidth 8

/-- The length of a transfer in bytes. -/
def xferLenToBytes (xferLen : BitVec 8) : BitVec 8 := xferLen + 1

/-- The address as the fields make it up: the longword, and the byte in it. -/
def decodePciByteAddr (off : Word) : BitVec 32 :=
  (decodePciAddr off <<< 2) ||| (decodeByteLane off).setWidth 32

/-- The sparse offset of a port, for a transfer of `len + 1` bytes, with the port spread over
address and lane. -/
def encode (port : BitVec 16) (len : BitVec 2) : Word :=
  (port.extractLsb' 2 14 ++ port.extractLsb' 0 2 ++ 0#1 ++ len).setWidth 64

/-- The fields of the offset as a number. -/
theorem toNat_encode (port : BitVec 16) (len : BitVec 2) :
    (encode port len).toNat = port.toNat / 4 * 32 + port.toNat % 4 * 8 + len.toNat := by
  have hport := port.isLt
  have hlen := len.isLt
  rw [encode, BitVec.toNat_setWidth, toNat_append_eq_add, toNat_append_eq_add, toNat_append_eq_add,
    toNat_extract, toNat_extract, show (0#1).toNat = 0 from rfl]
  omega

end SparseSpace

/-! ## Ports -/

section Ports

variable {η σ : Type}

/-- A registered range of ports. -/
structure IoPortRange (η : Type) where
  /-- The first port. -/
  startPort : BitVec 16
  /-- The port after the last. -/
  endPort : BitVec 16
  /-- Who answers. -/
  handler : η

/-- What the handlers do, over a state of the devices. -/
structure IoPortHandlers (η σ : Type) where
  /-- A read of a port with a width. -/
  ioRead : η → BitVec 16 → BitVec 8 → σ → σ × Word
  /-- A write of a value. -/
  ioWrite : η → BitVec 16 → Word → BitVec 8 → σ → σ

/-- The handler of a port: the first range that holds it. -/
def findHandler (registry : List (IoPortRange η)) (port : BitVec 16) : Option η :=
  (registry.find? fun range => decide (range.startPort ≤ port) && decide (port < range.endPort)).map
    IoPortRange.handler

variable (registry : List (IoPortRange η)) (H : IoPortHandlers η σ)

/-- A read of a port; a port without a handler floats. -/
def readIoPort (port : BitVec 16) (width : BitVec 8) (st : σ) : σ × Word :=
  match findHandler registry port with
  | some h => H.ioRead h port width st
  | none => (st, 0xFF)

/-- A write of a port; without a handler it is dropped. -/
def writeIoPort (port : BitVec 16) (value : Word) (width : BitVec 8) (st : σ) : σ :=
  match findHandler registry port with
  | some h => H.ioWrite h port value width st
  | none => st

/-! ## The two windows -/

open SparseSpace

/-- `readSparseIO`: the port is the low half of the address field, and the lane is not used. -/
def readSparseIo (off : Word) (st : σ) : σ × Word :=
  readIoPort registry H ((decodePciAddr off).setWidth 16) (xferLenToBytes (decodeXferLen off)) st

/-- `writeSparseIO`, which decodes as the read does and passes the value on as it is. -/
def writeSparseIo (off value : Word) (st : σ) : σ :=
  writeIoPort registry H ((decodePciAddr off).setWidth 16) value
    (xferLenToBytes (decodeXferLen off)) st

/-- The start of the dense window. -/
def kIODenseOffset : Word := 0x1FC000000

/-- The offset is in the dense window. -/
def InDenseIo (off : Word) : Prop := kIODenseOffset ≤ off ∧ off < kIODenseOffset + 0x02000000

instance (off : Word) : Decidable (InDenseIo off) := inferInstanceAs (Decidable (_ ∧ _))

/-- The chipset with the ports behind both windows of the Pchip. -/
def withPorts (D : BusDevices σ) : BusDevices σ :=
  { D with
    pchipReadSparseIo := fun st off => readSparseIo registry H off st
    pchipWriteSparseIo := fun st off value => writeSparseIo registry H off value st
    pchipRead := fun st off width =>
      if InDenseIo off then
        readIoPort registry H ((off - kIODenseOffset).setWidth 16) (BitVec.ofNat 8 width) st
      else D.pchipRead st off width
    pchipWrite := fun st off value width =>
      if InDenseIo off then
        writeIoPort registry H ((off - kIODenseOffset).setWidth 16) value (BitVec.ofNat 8 width) st
      else D.pchipWrite st off value width }

/-- The offset of a port in the dense window. -/
def denseOffset (port : BitVec 16) : Word := kIODenseOffset + port.setWidth 64

/-- Its offset in the sparse window for a transfer of `len + 1` bytes, spread over address and
lane. -/
def sparseOffset (port : BitVec 16) (len : BitVec 2) : Word := kPchip0_SparseIo + encode port len

/-- The offsets in the sparse window with a port in the low half of the address field: with a lane,
a length code, and any bits above the port. Every offset of the window is one. -/
def sparseAddress (high : BitVec 9) (port : BitVec 16) (lane : BitVec 2) (len : BitVec 3) : Word :=
  kPchip0_SparseIo + (high ++ port ++ lane ++ len).setWidth 64

/-! ## Routing -/

/-- The dense window is within the first Pchip. -/
theorem toNat_denseOffset (port : BitVec 16) :
    (denseOffset port).toNat = 0x1FC000000 + port.toNat := by
  have hport := port.isLt
  rw [denseOffset, BitVec.toNat_add, BitVec.toNat_setWidth,
    show kIODenseOffset.toNat = 0x1FC000000 from rfl]
  omega

/-- Reads and writes of the sparse window reach the sparse port of the Pchip. -/
theorem route_sparse {off : Word} (h : off.toNat < 0x40000000) :
    routeRead (kPchip0_SparseIo + off) = .sparseIo off ∧
      routeWrite (kPchip0_SparseIo + off) = .sparseIo off := by
  have hn : (kPchip0_SparseIo + off).toNat = 0x140000000 + off.toNat := by
    rw [BitVec.toNat_add, show kPchip0_SparseIo.toNat = 0x140000000 from rfl]
    omega
  have hclaims : ChipClaims (kPchip0_SparseIo + off) (.sparseIo off) :=
    ⟨⟨by omega, by omega⟩, by omega⟩
  exact ⟨routeRead_of_claims hclaims, routeWrite_of_claims hclaims (by simp) (by simp)⟩

/-- Reads and writes of the dense window reach its generic port. -/
theorem route_denseOffset (port : BitVec 16) :
    routeRead (denseOffset port) = .pchip (denseOffset port) ∧
      routeWrite (denseOffset port) = .pchip (denseOffset port) := by
  have hport := port.isLt
  have hn := toNat_denseOffset port
  have hclaims : ChipClaims (denseOffset port) (.pchip (denseOffset port)) := by
    refine ⟨by omega, ?_, ?_, ?_, rfl⟩ <;> rintro ⟨_, _⟩ <;> omega
  exact ⟨routeRead_of_claims hclaims, routeWrite_of_claims hclaims (by simp) (by simp)⟩

/-- The dense offset of a port is in the dense window. -/
theorem inDenseIo_denseOffset (port : BitVec 16) : InDenseIo (denseOffset port) := by
  have hport := port.isLt
  have hn := toNat_denseOffset port
  rw [InDenseIo, BitVec.le_def, BitVec.lt_def, hn, show kIODenseOffset.toNat = 0x1FC000000 from rfl,
    show (kIODenseOffset + 0x02000000).toNat = 0x1FE000000 from rfl]
  omega

/-! ## What the Pchip takes from a sparse offset -/

/-- The port is bits 20 to 5 of the offset. -/
theorem toNat_sparsePort (off : Word) :
    ((decodePciAddr off).setWidth 16).toNat = off.toNat / 32 % 2 ^ 16 := by
  rw [BitVec.toNat_setWidth, decodePciAddr, BitVec.toNat_setWidth,
    toNat_and_lowMask 24 (by decide), BitVec.toNat_ushiftRight, Nat.shiftRight_eq_div_pow]
  omega

/-- The length code is the low bits of the offset. -/
theorem toNat_decodeXferLen (off : Word) : (decodeXferLen off).toNat = off.toNat % 8 := by
  rw [decodeXferLen, BitVec.toNat_setWidth, toNat_and_lowMask 3 (by decide)]
  omega

/-- The lane stands between them. -/
theorem toNat_decodeByteLane (off : Word) : (decodeByteLane off).toNat = off.toNat / 8 % 4 := by
  rw [decodeByteLane, BitVec.toNat_setWidth, toNat_and_lowMask 2 (by decide),
    BitVec.toNat_ushiftRight, Nat.shiftRight_eq_div_pow]
  omega

section Encode

variable (port : BitVec 16) (len : BitVec 2)

/-- The offset of a port is in the sparse window. -/
theorem encode_lt : (encode port len).toNat < 0x40000000 := by
  have hport := port.isLt
  have hlen := len.isLt
  have hn := toNat_encode port len
  omega

/-- The fields of the offset make up the port again. -/
theorem decodePciByteAddr_encode : decodePciByteAddr (encode port len) = port.setWidth 32 := by
  have hport := port.isLt
  have hlen := len.isLt
  have hn := toNat_encode port len
  have haddr : (decodePciAddr (encode port len)).toNat = port.toNat / 4 := by
    rw [decodePciAddr, BitVec.toNat_setWidth, toNat_and_lowMask 24 (by decide),
      BitVec.toNat_ushiftRight, Nat.shiftRight_eq_div_pow, hn]
    omega
  have hlane : (decodeByteLane (encode port len)).toNat = port.toNat % 4 := by
    rw [toNat_decodeByteLane, hn]
    omega
  have hshift : (decodePciAddr (encode port len) <<< 2).toNat = port.toNat / 4 * 2 ^ 2 := by
    rw [BitVec.toNat_shiftLeft, haddr, Nat.shiftLeft_eq]
    omega
  refine BitVec.eq_of_toNat_eq ?_
  rw [decodePciByteAddr, BitVec.toNat_or, hshift, BitVec.toNat_setWidth, hlane,
    Nat.mod_eq_of_lt (by omega), ← Nat.shiftLeft_eq, ← Nat.shiftLeft_add_eq_or_of_lt (by omega),
    Nat.shiftLeft_eq, BitVec.toNat_setWidth]
  omega

/-- The Pchip takes the number of the longword for the port. -/
theorem sparsePort_encode : (decodePciAddr (encode port len)).setWidth 16 = port >>> 2 := by
  have hport := port.isLt
  have hlen := len.isLt
  refine BitVec.eq_of_toNat_eq ?_
  rw [toNat_sparsePort, toNat_encode, BitVec.toNat_ushiftRight, Nat.shiftRight_eq_div_pow]
  omega

/-- The width comes from the length code. -/
theorem decodeXferLen_encode : decodeXferLen (encode port len) = len.setWidth 8 := by
  have hlen := len.isLt
  refine BitVec.eq_of_toNat_eq ?_
  rw [toNat_decodeXferLen, toNat_encode, BitVec.toNat_setWidth]
  omega

/-- A read through the offset reaches the port with the longword's number. -/
theorem readSparseIo_encode (st : σ) : readSparseIo registry H (encode port len) st =
    readIoPort registry H (port >>> 2) (len.setWidth 8 + 1) st := by
  rw [readSparseIo, sparsePort_encode, decodeXferLen_encode, xferLenToBytes]

/-- A sparse write at the encoded address reaches the port. -/
theorem writeSparseIo_encode (value : Word) (st : σ) :
    writeSparseIo registry H (encode port len) value st =
      writeIoPort registry H (port >>> 2) value (len.setWidth 8 + 1) st := by
  rw [writeSparseIo, sparsePort_encode, decodeXferLen_encode, xferLenToBytes]

end Encode

section Address

variable (high : BitVec 9) (port : BitVec 16) (lane : BitVec 2) (len : BitVec 3)

/-- The fields of a sparse offset as a number. -/
theorem toNat_fields : ((high ++ port ++ lane ++ len).setWidth 64 : Word).toNat =
    high.toNat * 0x200000 + port.toNat * 32 + lane.toNat * 8 + len.toNat := by
  have hhigh := high.isLt
  have hport := port.isLt
  have hlane := lane.isLt
  have hlen := len.isLt
  rw [BitVec.toNat_setWidth, toNat_append_eq_add, toNat_append_eq_add, toNat_append_eq_add]
  omega

/-- The fields fill the window. -/
theorem fields_lt : ((high ++ port ++ lane ++ len).setWidth 64 : Word).toNat < 0x40000000 := by
  have hhigh := high.isLt
  have hport := port.isLt
  have hlane := lane.isLt
  have hlen := len.isLt
  have hn := toNat_fields high port lane len
  omega

/-- The Pchip takes the low half of the address field for the port. -/
theorem sparsePort_fields :
    (decodePciAddr ((high ++ port ++ lane ++ len).setWidth 64)).setWidth 16 = port := by
  have hport := port.isLt
  have hlane := lane.isLt
  have hlen := len.isLt
  refine BitVec.eq_of_toNat_eq ?_
  rw [toNat_sparsePort, toNat_fields]
  omega

/-- The decode takes the length code for the width. -/
theorem decodeXferLen_fields :
    decodeXferLen ((high ++ port ++ lane ++ len).setWidth 64) = len.setWidth 8 := by
  have hlen := len.isLt
  refine BitVec.eq_of_toNat_eq ?_
  rw [toNat_decodeXferLen, toNat_fields, BitVec.toNat_setWidth]
  omega

end Address

/-! ## What reaches the handlers -/

section Access

variable (D : BusDevices σ) (port : BitVec 16) (st : σ)

/-- A read in the sparse window is the sparse read of the Pchip, whatever the width of the
access. -/
theorem mmioRead_sparse {off : Word} (h : off.toNat < 0x40000000) (width : Nat) :
    mmioRead (withPorts registry H D) st (kPchip0_SparseIo + off) width =
      readSparseIo registry H off st := by
  rw [mmioRead, (route_sparse h).1]
  rfl

/-- A write in the sparse window is its sparse write. -/
theorem mmioWrite_sparse {off : Word} (h : off.toNat < 0x40000000) (value : Word) (width : Nat) :
    mmioWrite (withPorts registry H D) st (kPchip0_SparseIo + off) value width =
      writeSparseIo registry H off value st := by
  rw [mmioWrite, (route_sparse h).2]
  rfl

/-- The dense offset gives the port back. -/
theorem densePort : (denseOffset port - kIODenseOffset).setWidth 16 = port := by
  rw [denseOffset, BitVec.add_comm, BitVec.add_sub_cancel,
    BitVec.setWidth_setWidth_of_le _ (by decide), BitVec.setWidth_eq]

/-- A read in the dense window is one of the port. -/
theorem mmioRead_dense (width : Nat) :
    mmioRead (withPorts registry H D) st (denseOffset port) width =
      readIoPort registry H port (BitVec.ofNat 8 width) st := by
  rw [mmioRead, (route_denseOffset port).1]
  refine (if_pos (inDenseIo_denseOffset port)).trans ?_
  rw [densePort]

/-- A write in the dense window is one of the port. -/
theorem mmioWrite_dense (value : Word) (width : Nat) :
    mmioWrite (withPorts registry H D) st (denseOffset port) value width =
      writeIoPort registry H port value (BitVec.ofNat 8 width) st := by
  rw [mmioWrite, (route_denseOffset port).2]
  refine (if_pos (inDenseIo_denseOffset port)).trans ?_
  rw [densePort]

end Access

/-! ## Agreement -/

/-- **An access through the sparse window is the dense access of its port.** The two leave the
devices in one state, so they call the same handler with the same port, width and data, and a read
has the same answer. -/
structure SparseIsDense (D : BusDevices σ) (st : σ) (high : BitVec 9) (port : BitVec 16)
    (lane : BitVec 2) (len : BitVec 3) : Prop where
  /-- The width of a sparse access comes from the length code, not from the access. -/
  read : ∀ width,
    mmioRead (withPorts registry H D) st (sparseAddress high port lane len) width =
      mmioRead (withPorts registry H D) st (denseOffset port) (len.toNat + 1)
  /-- The data of a write is not moved to its lane. -/
  write : ∀ value width,
    mmioWrite (withPorts registry H D) st (sparseAddress high port lane len) value width =
      mmioWrite (withPorts registry H D) st (denseOffset port) value (len.toNat + 1)

/-- A length code counts the bytes after the first. -/
theorem ofNat_width {w : Nat} (len : BitVec w) (hw : w < 8) :
    BitVec.ofNat 8 (len.toNat + 1) = len.setWidth 8 + 1 := by
  have hlen : len.toNat < 2 ^ 7 :=
    len.isLt.trans_le (Nat.pow_le_pow_right (by decide) (Nat.le_of_lt_succ hw))
  refine BitVec.eq_of_toNat_eq ?_
  rw [BitVec.toNat_ofNat, BitVec.toNat_add, BitVec.toNat_setWidth,
    show (1 : BitVec 8).toNat = 1 from rfl]
  omega

/-- **Sparse and dense I/O agree** on every port, length code, lane and the bits above the port, for
whatever devices are registered. -/
theorem sparse_eq_dense (D : BusDevices σ) (st : σ) (high : BitVec 9) (port : BitVec 16)
    (lane : BitVec 2) (len : BitVec 3) : SparseIsDense registry H D st high port lane len := by
  have hlt := fields_lt high port lane len
  have hwidth := ofNat_width len (by decide)
  constructor
  · intro width
    rw [sparseAddress, mmioRead_sparse registry H D st hlt, readSparseIo, sparsePort_fields,
      decodeXferLen_fields, xferLenToBytes, mmioRead_dense, hwidth]
  · intro value width
    rw [sparseAddress, mmioWrite_sparse registry H D st hlt, writeSparseIo, sparsePort_fields,
      decodeXferLen_fields, xferLenToBytes, mmioWrite_dense, hwidth]

/-- A call of a handler; a write has a value. -/
structure IoCall (η : Type) where
  /-- The handler called. -/
  handler : η
  /-- The port it is given. -/
  port : BitVec 16
  /-- The width it is given. -/
  width : BitVec 8
  /-- The value of a write. -/
  value : Option Word

/-- Handlers that keep a list of their calls. -/
def recorder : IoPortHandlers η (List (IoCall η)) where
  ioRead h port width calls := (calls ++ [⟨h, port, width, none⟩], 0)
  ioWrite h port value width calls := calls ++ [⟨h, port, width, some value⟩]

/-- The data of a port in its byte lane of the longword. -/
def laneValue (port : BitVec 16) (value : Word) : Word := value <<< (8 * (port.toNat % 4))

/-- The two windows agree on a port that is spread over address and lane: a read, and a write with
the data in its lane, reach the same handler with the same port, width and data. -/
structure WindowsAgree (registry : List (IoPortRange η)) (D : BusDevices (List (IoCall η)))
    (port : BitVec 16) (len : BitVec 2) : Prop where
  /-- The data of a read comes in the lane, whatever the handlers do. -/
  data : findHandler registry port ≠ none →
    ∀ {σ : Type} (H : IoPortHandlers η σ) (D : BusDevices σ) (st : σ),
      (mmioRead (withPorts registry H D) st (sparseOffset port len) (len.toNat + 1)).2 =
        laneValue port
          (mmioRead (withPorts registry H D) st (denseOffset port) (len.toNat + 1)).2
  /-- The calls of a read. -/
  read : (mmioRead (withPorts registry recorder D) [] (sparseOffset port len) (len.toNat + 1)).1 =
    (mmioRead (withPorts registry recorder D) [] (denseOffset port) (len.toNat + 1)).1
  /-- The calls of a write. -/
  write : ∀ value,
    mmioWrite (withPorts registry recorder D) [] (sparseOffset port len) (laneValue port value)
        (len.toNat + 1) =
      mmioWrite (withPorts registry recorder D) [] (denseOffset port) value (len.toNat + 1)

/-- The recorder keeps the call of a read. -/
theorem readIoPort_recorder (port : BitVec 16) (width : BitVec 8) :
    (readIoPort registry recorder port width []).1 =
      ((findHandler registry port).map fun h => IoCall.mk h port width none).toList := by
  unfold readIoPort
  cases findHandler registry port <;> rfl

/-- The recorder keeps the call of a write. -/
theorem writeIoPort_recorder (port : BitVec 16) (value : Word) (width : BitVec 8) :
    writeIoPort registry recorder port value width [] =
      ((findHandler registry port).map fun h => IoCall.mk h port width (some value)).toList := by
  unfold writeIoPort
  cases findHandler registry port <;> rfl

/-- Spread over address and lane, only port 0 is reached. The Pchip drops the lane and takes the
number of the longword for the port, so the windows agree on port 0 and on ports that nobody answers
in either window. -/
theorem windowsAgree_iff (registry : List (IoPortRange η)) (D : BusDevices (List (IoCall η)))
    (port : BitVec 16) (len : BitVec 2) :
    WindowsAgree registry D port len ↔
      port = 0 ∨ (findHandler registry port = none ∧ findHandler registry (port >>> 2) = none) := by
  have hwidth := ofNat_width len (by decide)
  constructor
  · intro h
    have hread := h.read
    rw [sparseOffset, mmioRead_sparse registry recorder D [] (encode_lt port len),
      readSparseIo_encode, mmioRead_dense, hwidth, readIoPort_recorder, readIoPort_recorder] at hread
    cases hsparse : findHandler registry (port >>> 2) <;>
      cases hdense : findHandler registry port <;>
      rw [hsparse, hdense] at hread
    · exact Or.inr ⟨rfl, rfl⟩
    · cases hread
    · cases hread
    · -- one handler is called for both, with the number of the longword for the port
      have hport : port >>> 2 = port := congrArg IoCall.port (List.cons.inj hread).1
      have hnat := congrArg BitVec.toNat hport
      rw [BitVec.toNat_ushiftRight, Nat.shiftRight_eq_div_pow] at hnat
      refine Or.inl (BitVec.eq_of_toNat_eq ?_)
      rw [show (0 : BitVec 16).toNat = 0 from rfl]
      omega
  · intro h
    have hlane (value : Word) : laneValue 0 value = value := BitVec.shiftLeft_zero value
    refine ⟨fun hsome σ H D st => ?_, ?_, fun value => ?_⟩
    · obtain rfl := h.resolve_right fun hnone => hsome hnone.1
      rw [sparseOffset, mmioRead_sparse registry H D st (encode_lt 0 len), readSparseIo_encode,
        mmioRead_dense, hwidth, hlane]
      rfl
    · rw [sparseOffset, mmioRead_sparse registry recorder D [] (encode_lt port len),
        readSparseIo_encode, mmioRead_dense, hwidth, readIoPort_recorder, readIoPort_recorder]
      obtain rfl | ⟨hdense, hsparse⟩ := h
      · rfl
      · rw [hdense, hsparse]
        rfl
    · rw [sparseOffset, mmioWrite_sparse registry recorder D [] (encode_lt port len),
        writeSparseIo_encode, mmioWrite_dense, hwidth, writeIoPort_recorder, writeIoPort_recorder]
      obtain rfl | ⟨hdense, hsparse⟩ := h
      · rw [hlane]
        rfl
      · rw [hdense, hsparse]
        rfl

/-- Devices that do nothing. -/
def idleDevices (σ : Type) : BusDevices σ where
  aar _ _ := {}
  flashRead st _ := (st, 0)
  flashWrite st _ _ := st
  setTraceWindowCountdown st _ := st
  tigRead st _ := (st, 0)
  tigWrite st _ _ := st
  iack st := (st, 0)
  cchipRead st _ := (st, 0)
  cchipWrite st _ _ := st
  dchipRead st _ := (st, 0)
  dchipWrite st _ _ := st
  pchipReadSparseMem st _ := (st, 0)
  pchipReadSparseIo st _ := (st, 0)
  pchipWriteSparseIo st _ _ := st
  pchipRead st _ _ := (st, 0)
  pchipWrite st _ _ _ := st
  reportNxm st _ := st

/-- The ports of COM1. -/
def com1 : List (IoPortRange Unit) := [{ startPort := 0x3F8, endPort := 0x400, handler := () }]

/-- A byte read of the line status register reaches COM1 through the dense window and nobody through
the sparse one. -/
theorem not_windowsAgree_com1 : ¬ WindowsAgree com1 (idleDevices (List (IoCall Unit))) 0x3FD 0 := by
  intro h
  have hread := h.read
  rw [sparseOffset, mmioRead_sparse com1 recorder _ [] (encode_lt 0x3FD 0), readSparseIo_encode,
    mmioRead_dense, readIoPort_recorder, readIoPort_recorder] at hread
  exact absurd (congrArg List.length hread) (by decide)

end Ports

end EmulatR
