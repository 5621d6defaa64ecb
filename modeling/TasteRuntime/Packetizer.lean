import TasteRuntime.PacketFormat

/-!
# TasteRuntime.Packetizer

The default packet format (`Packetizer.c`): the functions that write and read
a packet in place, as the source computes them, and what they compute in terms
of `SpacePacket.encodeDefault`.

`w` is the number of bits of `size_t`; the sums and differences of sizes wrap
around at `2 ^ w`.  The object behind `packetPointer` is a list of bytes, and
the arguments the source casts to `void` keep their place.
-/

namespace TasteRuntime

open CMemory BigEndian PacketFormat

namespace Packetizer

/-! ## the source's functions -/

/-- `Packetizer_init`: the packetizer and `*headerSize`. -/
def init (_self : Packetizer) (_busId : Bus) : Packetizer × Nat :=
  (⟨0⟩, spacePacketPrimaryHeaderSize)

/-- `writePacketId` -/
def writePacketId (packetPointer : List UInt8) (packetType : PacketType) (destination : UInt16) :
    Exec (List UInt8) := do
  -- packet type (1 bit)
  let p ← orByte packetPointer 0 (packetType.toUInt8 <<< spacePacketTypeOffset)
  -- secondary header flag, always set (1 bit)
  let p ← orByte p 0 (1 <<< spacePacketSecondaryHeaderFlagOffset)
  -- application process ID (11 bits)
  let p ← orByte p 0
    ((destination &&& packetizerDestinationHighBitsMask) >>>
      (8 - spacePacketApidHighBitsOffset)).toUInt8
  orByte p 1 (destination &&& 0xFF).toUInt8

/-- `writePacketSequenceControl` -/
def writePacketSequenceControl (packetPointer : List UInt8) (packetizer : Packetizer) :
    Exec (List UInt8) := do
  -- sequence flags, both bits always set (2 bits)
  let p ← orByte packetPointer 2 (1 <<< spacePacketSequenceFlagsFirstOffset)
  let p ← orByte p 2 (1 <<< spacePacketSequenceFlagsSecondOffset)
  -- packet sequence count (14 bits)
  let p ← orByte p 2
    ((packetizer.packetSequenceCount &&& packetizerPacketSequenceControlHighBitsMask) >>>
      (8 - spacePacketSequenceControlHighBitsOffset)).toUInt8
  orByte p 3 (packetizer.packetSequenceCount &&& 0xFF).toUInt8

/-- `writePacketDataLength`; a shift past the width of `size_t`, which C does
not define where it has 24 bits or fewer, yields 0. -/
def writePacketDataLength (packetPointer : List UInt8) (dataSize : Nat) : Exec (List UInt8) :=
  if 0 ≠ dataSize then do
    let p ← writeByte packetPointer 4 (UInt8.ofNat (((dataSize - 1) >>> 24) &&& 0xFF))
    let p ← writeByte p 5 (UInt8.ofNat (((dataSize - 1) >>> 16) &&& 0xFF))
    let p ← writeByte p 6 (UInt8.ofNat (((dataSize - 1) >>> 8) &&& 0xFF))
    writeByte p 7 (UInt8.ofNat ((dataSize - 1) &&& 0xFF))
  else do
    let p ← writeByte packetPointer 4 0xFF
    let p ← writeByte p 5 0xFF
    let p ← writeByte p 6 0xFF
    writeByte p 7 0xFF

/-- `writeCrc` -/
def writeCrc (w : Nat) (packetPointer : List UInt8) (dataSize : Nat) : Exec (List UInt8) := do
  let covered ← slice packetPointer 0 (toSize w (spacePacketPrimaryHeaderSize + dataSize))
  let crc := calculateCrc16 covered
  let p ← writeByte packetPointer
    (toSize w (spacePacketPrimaryHeaderSize + dataSize + spacePacketSenderPidSize))
    ((crc >>> 8).toUInt8 &&& 0xFF)
  writeByte p
    (toSize w (spacePacketPrimaryHeaderSize + dataSize + spacePacketSenderPidSize + 1))
    (crc &&& 0xFF).toUInt8

/-- `writeSenderPid` -/
def writeSenderPid (w : Nat) (packetPointer : List UInt8) (dataSize : Nat) (senderPid : UInt16) :
    Exec (List UInt8) := do
  let p ← writeByte packetPointer (toSize w (spacePacketPrimaryHeaderSize + dataSize))
    ((senderPid >>> 8).toUInt8 &&& 0xFF)
  writeByte p (toSize w (spacePacketPrimaryHeaderSize + dataSize + 1))
    (senderPid &&& 0xFF).toUInt8

/-- `readPacketDataLength` -/
def readPacketDataLength (w : Nat) (packetPointer : List UInt8) : Exec Nat := do
  let b4 ← readByte packetPointer 4
  let b5 ← readByte packetPointer 5
  let b6 ← readByte packetPointer 6
  let b7 ← readByte packetPointer 7
  let packetSize : UInt32 :=
    (b4.toUInt32 <<< 24) ||| (b5.toUInt32 <<< 16) ||| (b6.toUInt32 <<< 8) ||| b7.toUInt32
  -- the size of an empty payload is spelled as the largest value
  if packetSize = 0xFFFFFFFF then pure 0
  else pure (toSize w (packetSize.toNat + 1))

/-- `Packetizer_packetize` -/
def packetize (w : Nat) (self : Packetizer) (packetType : PacketType) (_busId : Bus)
    (source destination : UInt16) (packetPointer : List UInt8) (dataOffset dataSize : Nat) :
    Exec Packetized := do
  assert (self.packetSequenceCount ≤ spacePacketMaxPacketSequenceCount)
  assert (destination ≤ spacePacketMaxApid)
  assert (dataOffset = spacePacketPrimaryHeaderSize)
  assert (dataSize < spacePacketMaxPacketDataSize)
  let p ← memset packetPointer 0 spacePacketPrimaryHeaderSize
  let p ← writePacketId p packetType destination
  let p ← writePacketSequenceControl p self
  let p ← writePacketDataLength p dataSize
  let p ← writeSenderPid w p dataSize source
  let p ← writeCrc w p dataSize
  pure ⟨toSize w (spacePacketPrimaryHeaderSize + dataSize + spacePacketSenderPidSize +
    spacePacketErrorControlSize), self.countPacket, p⟩

/-- `Packetizer_depacketize`; `packetPointer` and `packetSize` are the bytes of
the packet. -/
def depacketize (w : Nat) (_self : Packetizer) (packetType : PacketType)
    (packet : List UInt8) (_busId : Bus) (out : DepacketizeOut) : Exec (Bool × DepacketizeOut) :=
  if packet.length < spacePacketPrimaryHeaderSize + spacePacketSenderPidSize +
      spacePacketErrorControlSize then
    pure (false, out.setErrorCode .packetTooSmall)
  else do
    let receivedDataSize ← readPacketDataLength w packet
    if packet.length ≠ toSize w (spacePacketPrimaryHeaderSize + receivedDataSize +
        spacePacketSenderPidSize + spacePacketErrorControlSize) then
      return (false, out.setErrorCode .incorrectPacketSize)
    let pidLow ← readByte packet
      (toSize w (spacePacketPrimaryHeaderSize + receivedDataSize + 1))
    let pidHigh ← readByte packet (toSize w (spacePacketPrimaryHeaderSize + receivedDataSize))
    let senderPid := pidLow.toUInt16 ||| (pidHigh.toUInt16 <<< 8)
    let crcLow ← readByte packet (toSize w (spacePacketPrimaryHeaderSize + receivedDataSize +
      spacePacketSenderPidSize + 1))
    let crcHigh ← readByte packet (toSize w (spacePacketPrimaryHeaderSize + receivedDataSize +
      spacePacketSenderPidSize))
    let receivedCrc := crcLow.toUInt16 ||| (crcHigh.toUInt16 <<< 8)
    let covered ← slice packet 0
      (subSize w (subSize w packet.length spacePacketSenderPidSize) spacePacketErrorControlSize)
    if receivedCrc ≠ calculateCrc16 covered then
      return (false, out.setErrorCode .incorrectCrc16)
    let b0 ← readByte packet 0
    if (b0 &&& spacePacketTypeMask) >>> spacePacketTypeOffset ≠ packetType.toUInt8 then
      return (false, out.setErrorCode .incorrectPacketType)
    let b1 ← readByte packet 1
    pure (true, { out with
      destination := b1.toUInt16 |||
        ((b0 &&& spacePacketApidHighBitsMask).toUInt16 <<< (8 - spacePacketApidHighBitsOffset))
      dataOffset := spacePacketPrimaryHeaderSize
      dataSize := receivedDataSize
      source := senderPid })

/-! ## what the writers write -/

theorem toUInt8_destinationHigh (h : destination ≤ 2047) :
    ((destination &&& packetizerDestinationHighBitsMask) >>>
      (8 - spacePacketApidHighBitsOffset)).toUInt8 = UInt8.ofNat (32 * (destination.toNat / 256)) :=
  toUInt8_and_shiftRight (k := 3) rfl rfl (by decide)
    (Nat.lt_succ_of_le (UInt16.le_iff_toNat_le.mp h))

theorem toUInt8_sequenceCountHigh (h : count ≤ 16383) :
    ((count &&& packetizerPacketSequenceControlHighBitsMask) >>>
      (8 - spacePacketSequenceControlHighBitsOffset)).toUInt8 =
      UInt8.ofNat (4 * (count.toNat / 256)) :=
  toUInt8_and_shiftRight (k := 6) rfl rfl (by decide)
    (Nat.lt_succ_of_le (UInt16.le_iff_toNat_le.mp h))

/-- The fields of byte 0 do not overlap. -/
theorem packetIdByte (packetType : PacketType) : ∀ high < 8,
    ((0 : UInt8) ||| packetType.toUInt8 <<< spacePacketTypeOffset |||
      1 <<< spacePacketSecondaryHeaderFlagOffset ||| UInt8.ofNat (32 * high)) =
      UInt8.ofNat (8 * packetType.toUInt8.toNat + 16 + 32 * high) := by
  cases packetType <;> decide

/-- The fields of byte 2 do not overlap. -/
theorem sequenceControlByte : ∀ high < 64,
    ((0 : UInt8) ||| 1 <<< spacePacketSequenceFlagsFirstOffset |||
      1 <<< spacePacketSequenceFlagsSecondOffset ||| UInt8.ofNat (4 * high)) =
      UInt8.ofNat (3 + 4 * high) := by
  decide

theorem writePacketId_eq (packetType : PacketType) (h : destination ≤ 2047) :
    writePacketId (0 :: 0 :: tail) packetType destination =
      .ok (UInt8.ofNat (8 * packetType.toUInt8.toNat + 16 + 32 * (destination.toNat / 256)) ::
        UInt8.ofNat destination.toNat :: tail) := by
  have hhigh : destination.toNat / 256 < 8 :=
    Nat.div_lt_of_lt_mul (Nat.lt_succ_of_le (UInt16.le_iff_toNat_le.mp h))
  simp only [writePacketId, toUInt8_destinationHigh h, toUInt8_and_mask]
  simp [orByte, readByte, writeByte, ← packetIdByte packetType _ hhigh]

theorem writePacketSequenceControl_eq {self : Packetizer} (h : self.packetSequenceCount ≤ 16383) :
    writePacketSequenceControl (b0 :: b1 :: 0 :: 0 :: tail) self =
      .ok (b0 :: b1 :: UInt8.ofNat (3 + 4 * (self.packetSequenceCount.toNat / 256)) ::
        UInt8.ofNat self.packetSequenceCount.toNat :: tail) := by
  have hhigh : self.packetSequenceCount.toNat / 256 < 64 :=
    Nat.div_lt_of_lt_mul (Nat.lt_succ_of_le (UInt16.le_iff_toNat_le.mp h))
  simp only [writePacketSequenceControl, toUInt8_sequenceCountHigh h, toUInt8_and_mask]
  simp [orByte, readByte, writeByte, ← sequenceControlByte _ hhigh]

theorem writePacketDataLength_eq (dataSize : Nat) :
    writePacketDataLength (b0 :: b1 :: b2 :: b3 :: b4 :: b5 :: b6 :: b7 :: tail) dataSize =
      .ok (b0 :: b1 :: b2 :: b3 ::
        (toBytes 4 (SpacePacket.defaultSizeField dataSize) ++ tail)) := by
  unfold writePacketDataLength SpacePacket.defaultSizeField
  by_cases hzero : dataSize = 0
  · subst hzero
    rfl
  · rw [if_pos (Ne.symm hzero), if_neg hzero, toBytes_four]
    simp only [ofNat_and_mask, Nat.shiftRight_eq_div_pow, Nat.div_div_eq_div_mul]
    rfl

theorem writeSenderPid_eq (hbody : body.length = 8 + dataSize) (hpid : pid.length = 2)
    (hw : 8 + dataSize + 1 < 2 ^ w) :
    writeSenderPid w (body ++ (pid ++ tail)) dataSize senderPid =
      .ok (body ++ (toBytes 2 senderPid.toNat ++ tail)) := by
  match pid, hpid with
  | [b0, b1], _ =>
      simp only [writeSenderPid, spacePacketPrimaryHeaderSize, toUInt8_shiftRight, toUInt8_and_mask]
      rw [toSize_of_lt (by omega), toSize_of_lt hw, writeByte_append (i := 0) (by simp) hbody.symm,
        ok_bind, writeByte_append (i := 1) (by simp) (by omega)]
      rfl

theorem writeCrc_eq (hbody : body.length = 8 + dataSize) (hpid : pid.length = 2)
    (hcrc : crc.length = 2) (hw : 8 + dataSize + 2 + 1 < 2 ^ w) :
    writeCrc w (body ++ (pid ++ (crc ++ tail))) dataSize =
      .ok (body ++ (pid ++ (toBytes 2 (calculateCrc16 body).toNat ++ tail))) := by
  match crc, hcrc with
  | [b0, b1], _ =>
      simp only [writeCrc, spacePacketPrimaryHeaderSize, spacePacketSenderPidSize,
        toUInt8_shiftRight, toUInt8_and_mask]
      rw [toSize_of_lt (by omega), toSize_of_lt (by omega), toSize_of_lt hw, slice_prefix hbody,
        ok_bind, ← List.append_assoc,
        writeByte_append (i := 0) (by simp) (by simp [hbody, hpid]), ok_bind,
        writeByte_append (i := 1) (by simp) (by simp [hbody, hpid])]
      simp [toBytes_two]

/-- **`Packetizer_packetize`**: whatever the header and trailer held, the
object holds the packet, and the rest of it is as it was. -/
theorem packetize_eq (self : Packetizer) (p : SpacePacket) (busId : Bus)
    (hdest : destination.toNat = p.destination.val)
    (hcount : self.packetSequenceCount.toNat = p.sequenceCount.val)
    (hdata : p.data.length < 4294967295)
    (hheader : header.length = 8) (htrailer : trailer.length = 4)
    (hw : p.data.length + 12 < 2 ^ w) :
    packetize w self p.packetType busId p.source destination
        (header ++ (p.data ++ (trailer ++ rest))) 8 p.data.length =
      .ok ⟨p.encodeDefault.length, self.countPacket, p.encodeDefault ++ rest⟩ := by
  have hdest' := SpacePacket.destination_le hdest
  have hcount' := SpacePacket.sequenceCount_le hcount
  obtain ⟨pid, crc, rfl, hpid, hcrc⟩ : ∃ pid crc, trailer = pid ++ crc ∧ pid.length = 2 ∧
      crc.length = 2 :=
    ⟨trailer.take 2, trailer.drop 2, by simp, by simp [htrailer], by simp [htrailer]⟩
  have hpacket :
      UInt8.ofNat (8 * p.packetType.toUInt8.toNat + 16 + 32 * (destination.toNat / 256)) ::
      UInt8.ofNat destination.toNat ::
      UInt8.ofNat (3 + 4 * (self.packetSequenceCount.toNat / 256)) ::
      UInt8.ofNat self.packetSequenceCount.toNat ::
      (toBytes 4 (SpacePacket.defaultSizeField p.data.length) ++
        (p.data ++ (pid ++ crc ++ rest))) = p.defaultBody ++ (pid ++ (crc ++ rest)) := by
    simp [SpacePacket.defaultBody, SpacePacket.defaultHeader, hdest, hcount]
  unfold packetize
  rw [assert_of hcount', assert_of hdest', assert_of rfl, assert_of hdata,
    memset_append hheader]
  simp only [ok_bind, spacePacketPrimaryHeaderSize, List.replicate, List.cons_append]
  rw [writePacketId_eq _ hdest', ok_bind, writePacketSequenceControl_eq hcount', ok_bind,
    List.nil_append, writePacketDataLength_eq, ok_bind, hpacket,
    writeSenderPid_eq (by simp [Nat.add_comm]) hpid (by omega), ok_bind,
    writeCrc_eq (by simp [Nat.add_comm]) (by simp) hcrc (by omega), ok_bind]
  rw [toSize_of_lt (show 8 + p.data.length + 2 + 2 < 2 ^ w by omega)]
  simp [SpacePacket.encodeDefault]
  omega

/-- The header of the telemetry packet in the tests of the source. -/
example : (SpacePacket.ofFields .telemetry 0 682 792 (List.replicate 514 0)).defaultHeader =
    [0b01010000, 0b10101010, 0b00001111, 0b00011000, 0, 0, 2, 1] := by
  decide +kernel

/-! ## what every call keeps -/

theorem ensures_writePacketId (h : p.length = n) :
    Ensures (writePacketId p packetType destination) (·.length = n) :=
  (ensures_orByte h).bind fun _ h => (ensures_orByte h).bind fun _ h =>
    (ensures_orByte h).bind fun _ h => ensures_orByte h

theorem ensures_writePacketSequenceControl (h : p.length = n) :
    Ensures (writePacketSequenceControl p self) (·.length = n) :=
  (ensures_orByte h).bind fun _ h => (ensures_orByte h).bind fun _ h =>
    (ensures_orByte h).bind fun _ h => ensures_orByte h

theorem ensures_writePacketDataLength (h : p.length = n) :
    Ensures (writePacketDataLength p dataSize) (·.length = n) := by
  unfold writePacketDataLength
  split <;>
    exact (ensures_writeByte h).bind fun _ h => (ensures_writeByte h).bind fun _ h =>
      (ensures_writeByte h).bind fun _ h => ensures_writeByte h

theorem ensures_writeSenderPid (h : p.length = n) :
    Ensures (writeSenderPid w p dataSize senderPid) (·.length = n) :=
  (ensures_writeByte h).bind fun _ h => ensures_writeByte h

theorem ensures_writeCrc (h : p.length = n) : Ensures (writeCrc w p dataSize) (·.length = n) :=
  (ensures_true _).bind fun _ _ => (ensures_writeByte h).bind fun _ h => ensures_writeByte h

/-- Whatever it is called with, `Packetizer_packetize` keeps object and
counter in their bounds if it returns. -/
theorem ensures_packetize (w : Nat) (self : Packetizer) (packetType : PacketType) (busId : Bus)
    (source destination : UInt16) (packetPointer : List UInt8) (dataOffset dataSize : Nat) :
    Ensures (packetize w self packetType busId source destination packetPointer dataOffset dataSize)
      (Packetized.Keeps self packetPointer) := by
  refine (ensures_true _).bind fun _ _ => (ensures_true _).bind fun _ _ =>
    (ensures_true _).bind fun _ _ => (ensures_true _).bind fun _ _ => ?_
  exact (ensures_memset rfl).bind fun _ h => (ensures_writePacketId h).bind fun _ h =>
    (ensures_writePacketSequenceControl h).bind fun _ h =>
    (ensures_writePacketDataLength h).bind fun _ h => (ensures_writeSenderPid h).bind fun _ h =>
    (ensures_writeCrc h).bind fun _ h => ensures_ok ⟨h, countPacket_le⟩

/-! ## past the end of the object -/

theorem writeSenderPid_overrun (hle : 8 + dataSize ≤ p.length) (hlt : p.length < 8 + dataSize + 2)
    (hw : p.length < 2 ^ w) :
    writeSenderPid w p dataSize senderPid = .error (.writeOutOfBounds p.length) := by
  simp only [writeSenderPid, spacePacketPrimaryHeaderSize]
  rw [toSize_of_lt (by omega)]
  exact writeByte_writeByte_of_lt hle hlt fun hin => toSize_of_lt (by omega)

theorem writeCrc_overrun (hle : 8 + dataSize + 2 ≤ p.length) (hlt : p.length < 8 + dataSize + 2 + 2)
    (hw : p.length < 2 ^ w) : writeCrc w p dataSize = .error (.writeOutOfBounds p.length) := by
  simp only [writeCrc, spacePacketPrimaryHeaderSize, spacePacketSenderPidSize]
  rw [toSize_of_lt (show 8 + dataSize < 2 ^ w by omega), slice_of_le (by omega), ok_bind,
    toSize_of_lt (show 8 + dataSize + 2 < 2 ^ w by omega)]
  exact writeByte_writeByte_of_lt hle hlt fun hin => toSize_of_lt (by omega)

/-- An object with room for the data but not for the trailer is written up to
its end. -/
theorem packetize_overrun (self : Packetizer) (packetType : PacketType) (busId : Bus)
    (source : UInt16) (hcount : self.packetSequenceCount ≤ 16383) (hdest : destination ≤ 2047)
    (hsize : dataSize < 4294967295) (hle : 8 + dataSize ≤ packet.length)
    (hlt : packet.length < 8 + dataSize + 4) (hw : packet.length < 2 ^ w) :
    packetize w self packetType busId source destination packet 8 dataSize =
      .error (.writeOutOfBounds packet.length) := by
  obtain ⟨header, rest, rfl, hheader⟩ := exists_append_of_le (Nat.le_of_add_right_le hle)
  unfold packetize
  rw [assert_of hcount, assert_of hdest, assert_of rfl, assert_of hsize, memset_append hheader]
  simp only [ok_bind, spacePacketPrimaryHeaderSize, List.replicate, List.cons_append]
  rw [writePacketId_eq _ hdest, ok_bind, writePacketSequenceControl_eq hcount, ok_bind,
    List.nil_append, writePacketDataLength_eq, ok_bind]
  generalize hp : UInt8.ofNat (8 * packetType.toUInt8.toNat + 16 + 32 * (destination.toNat / 256))
    :: _ = p
  have hlength : p.length = (header ++ rest).length := by
    simp [← hp, hheader]
    omega
  rw [← hlength] at hle hlt hw ⊢
  by_cases hpid : p.length < 8 + dataSize + 2
  · rw [writeSenderPid_overrun hle hpid hw]
    rfl
  · obtain ⟨p', hwrite⟩ : ∃ p', writeSenderPid w p dataSize source = .ok p' := by
      simp only [writeSenderPid, spacePacketPrimaryHeaderSize]
      rw [toSize_of_lt (by omega), toSize_of_lt (by omega), writeByte_of_lt (by omega), ok_bind,
        writeByte_of_lt (by rw [List.length_set]; omega)]
      exact ⟨_, rfl⟩
    have hlength' : p'.length = p.length := ensures_writeSenderPid rfl _ hwrite
    rw [hwrite, ok_bind, writeCrc_overrun (by omega) (by omega) (by omega), hlength']
    rfl

/-! ## what the readers read -/

theorem readPacketDataLength_eq (h : 8 ≤ packet.length) :
    readPacketDataLength w packet = .ok (toSize w (defaultSize packet)) := by
  match packet, h with
  | b0 :: b1 :: b2 :: b3 :: b4 :: b5 :: b6 :: b7 :: tail, _ =>
      have hfield : defaultSize (b0 :: b1 :: b2 :: b3 :: b4 :: b5 :: b6 :: b7 :: tail) =
        declaredSize (ofBytes [b4, b5, b6, b7]) := rfl
      simp only [readPacketDataLength, readByte, List.getElem?_cons_succ, List.getElem?_cons_zero,
        pure_eq_ok, ok_bind]
      rw [hfield, declaredSize, ← toNat_or_shiftLeft_four b4 b5 b6 b7]
      generalize ((b4.toUInt32 <<< 24) ||| (b5.toUInt32 <<< 16) ||| (b6.toUInt32 <<< 8) |||
        b7.toUInt32) = size
      by_cases hmax : size = 0xFFFFFFFF
      · rw [if_pos hmax, if_pos (show size.toNat = 2 ^ 32 - 1 from congrArg UInt32.toNat hmax),
          toSize_of_lt (Nat.two_pow_pos w)]
      · have hne : size.toNat ≠ 2 ^ 32 - 1 := fun h => hmax (UInt32.toNat_inj.mp h)
        rw [if_neg hmax, if_neg hne]

theorem typeBits_eq_iff (b0 : UInt8) (packetType : PacketType) :
    (b0 &&& spacePacketTypeMask) >>> spacePacketTypeOffset = packetType.toUInt8 ↔
      b0.toNat / 8 % 2 = packetType.toUInt8.toNat := by
  have hbits : ((b0 &&& spacePacketTypeMask) >>> spacePacketTypeOffset).toNat =
      b0.toNat / 8 % 2 := toNat_and_shiftRight (k := 1) (s := 3) b0 rfl rfl
  rw [← UInt8.toNat_inj, hbits]

theorem destinationBits_eq (b0 b1 : UInt8) :
    b1.toUInt16 ||| ((b0 &&& spacePacketApidHighBitsMask).toUInt16 <<<
      (8 - spacePacketApidHighBitsOffset)) = UInt16.ofNat (b0.toNat / 32 * 256 + b1.toNat) := by
  have h0 := b0.toNat_lt
  have h1 := b1.toNat_lt
  apply UInt16.toNat_inj.mp
  simp only [UInt16.toNat_or, UInt16.toNat_shiftLeft, UInt8.toNat_toUInt16, UInt8.toNat_and,
    UInt16.toNat_ofNat']
  rw [show spacePacketApidHighBitsMask.toNat = (2 ^ 3 - 1) * 2 ^ 5 from rfl, and_mask,
    show (8 - spacePacketApidHighBitsOffset).toNat % 16 = 3 from rfl, Nat.shiftLeft_eq,
    Nat.or_comm,
    show b0.toNat / 2 ^ 5 % 2 ^ 3 * 2 ^ 5 * 2 ^ 3 % 2 ^ 16 = b0.toNat / 32 * 2 ^ 8 by omega,
    mul_two_pow_or _ h1]
  omega

/-- The size check compares as if the sum did not wrap around: one that does
is below 12. -/
theorem length_eq_toSize_iff {received : Nat} (hreceived : received < 2 ^ w)
    (hlength : 12 ≤ length) (hw : length < 2 ^ w) :
    length = toSize w (8 + received + 2 + 2) ↔ received + 12 = length := by
  constructor
  · intro heq
    rw [show 8 + received + 2 + 2 = 12 + received by omega] at heq
    have hexact := toSize_add_eq heq.symm hreceived hlength
    omega
  · rintro rfl
    rw [toSize_of_lt (by omega)]
    omega

/-- **`Packetizer_depacketize`**: it never reads outside the packet, and it
decides as `defaultVerdict` does. -/
theorem depacketize_eq (self : Packetizer) (packetType : PacketType) (busId : Bus)
    (out : DepacketizeOut) (hw : packet.length < 2 ^ w) :
    depacketize w self packetType packet busId out =
      .ok ((defaultVerdict w packetType packet).outcome out
        { out with
          source := defaultSource packet
          destination := defaultDestination packet
          dataOffset := 8
          dataSize := packet.length - 12 }) := by
  simp only [depacketize, spacePacketPrimaryHeaderSize, spacePacketSenderPidSize,
    spacePacketErrorControlSize, Nat.reduceAdd]
  unfold defaultVerdict
  by_cases hsmall : packet.length < 12
  · rw [if_pos hsmall, if_pos hsmall]
    rfl
  rw [if_neg hsmall, if_neg hsmall, readPacketDataLength_eq (by omega), ok_bind]
  have hreceived := toSize_lt w (defaultSize packet)
  generalize toSize w (defaultSize packet) = received at hreceived ⊢
  have hcheck := length_eq_toSize_iff hreceived (Nat.le_of_not_lt hsmall) hw
  by_cases hsize : received + 12 = packet.length
  · have hcovered : subSize w (subSize w packet.length 2) 2 = packet.length - 4 := by
      rw [subSize_of_le (by omega) hw, subSize_of_le (by omega) (by omega)]
      omega
    rw [if_neg (not_not_intro (hcheck.mpr hsize)), if_neg (not_not_intro hsize), hcovered,
      toSize_of_lt (by omega), toSize_of_lt (by omega), toSize_of_lt (by omega),
      toSize_of_lt (by omega)]
    rw [readByte_eq (by omega), readByte_eq (by omega), readByte_eq (by omega),
      readByte_eq (by omega), readByte_eq (by omega), readByte_eq (by omega),
      slice_of_le (by omega)]
    simp only [ok_bind, or_shiftLeft_eq, destinationBits_eq]
    have hlen : packet.length = received + 12 := hsize.symm
    have hcrc : UInt16.ofNat (ofBytes [packet.getD (8 + received + 2) 0,
        packet.getD (8 + received + 2 + 1) 0]) = wordAt packet (packet.length - 2) := by
      rw [wordAt, hlen, show received + 12 - 2 = 8 + received + 2 by omega]
    have hpid : UInt16.ofNat (ofBytes [packet.getD (8 + received) 0,
        packet.getD (8 + received + 1) 0]) = defaultSource packet := by
      rw [defaultSource, wordAt, hlen, show received + 12 - 4 = 8 + received by omega]
    rw [hcrc, hpid, List.drop_zero]
    by_cases hmatch : wordAt packet (packet.length - 2) =
        calculateCrc16 (packet.take (packet.length - 4))
    · rw [if_neg (not_not_intro hmatch), if_neg (not_not_intro hmatch)]
      have hbits := typeBits_eq_iff (packet.getD 0 0) packetType
      by_cases htype : defaultType packet = packetType.toUInt8.toNat
      · rw [if_neg (not_not_intro (hbits.mpr htype)), if_neg (not_not_intro htype), hlen,
          Nat.add_sub_cancel]
        rfl
      · rw [if_pos (mt hbits.mp htype), if_pos htype]
        rfl
    · rw [if_pos hmatch, if_pos hmatch]
      rfl
  · rw [if_pos (mt hcheck.mp hsize), if_pos hsize]
    rfl

/-! ## round trip -/

/-- What `Packetizer_depacketize` makes of a packet. -/
theorem depacketize_encodeDefault (self : Packetizer) (p : SpacePacket) (packetType : PacketType)
    (busId : Bus) (out : DepacketizeOut) (hdata : p.data.length < 2 ^ 32 - 1)
    (hw : p.data.length + 12 < 2 ^ w) :
    depacketize w self packetType p.encodeDefault busId out =
      .ok (if p.packetType = packetType then
          (true, { out with
            source := p.source
            destination := UInt16.ofNat p.destination
            dataOffset := 8
            dataSize := p.data.length })
        else (false, out.setErrorCode .incorrectPacketType)) := by
  rw [depacketize_eq self packetType busId out (by simpa using hw),
    defaultVerdict_encodeDefault packetType hdata hw, defaultSource_encodeDefault,
    defaultDestination_encodeDefault]
  by_cases htype : p.packetType = packetType
  · simp [htype, Verdict.outcome]
  · simp [htype, Verdict.outcome, DepacketizeOut.reject]

/-- **Round trip**: whatever the header and trailer bytes held, a packet reads
back as what was packetized, and with the other packet type it is rejected for
its type.  The shifts that write the size field are defined from 25 bits on. -/
theorem depacketize_packetize (self receiver : Packetizer) (packetType : PacketType)
    (sendBus receiveBus : Bus) (source destination : UInt16)
    (header data trailer rest : List UInt8) (out : DepacketizeOut)
    (hcount : self.packetSequenceCount ≤ 16383) (hdest : destination ≤ 2047)
    (hdata : data.length < 2 ^ 32 - 1) (hheader : header.length = 8) (htrailer : trailer.length = 4)
    (_hshift : 24 < w) (hw : (header ++ (data ++ (trailer ++ rest))).length < 2 ^ w) :
    ∃ sent, packetize w self packetType sendBus source destination
        (header ++ (data ++ (trailer ++ rest))) 8 data.length = .ok sent ∧
      (sent.buffer.drop 8).take data.length = data ∧
      depacketize w receiver packetType (sent.buffer.take sent.packetSize) receiveBus out =
        .ok (true, { out with
          source := source
          destination := destination
          dataOffset := 8
          dataSize := data.length }) ∧
      ∀ other, other ≠ packetType →
        depacketize w receiver other (sent.buffer.take sent.packetSize) receiveBus out =
          .ok (false, out.setErrorCode .incorrectPacketType) := by
  obtain ⟨p, rfl, rfl, rfl, hdest', hcount'⟩ :=
    SpacePacket.exists_of_fields packetType source data hdest hcount
  have hlength : p.data.length + 12 < 2 ^ w := by
    simp only [List.length_append] at hw
    omega
  refine ⟨_, packetize_eq self p sendBus hdest' hcount' hdata hheader htrailer hlength,
    p.take_drop_encodeDefault rest, ?_, fun other hother => ?_⟩
  · rw [List.take_left' rfl,
      depacketize_encodeDefault receiver p p.packetType receiveBus out hdata hlength, if_pos rfl,
      ← hdest', UInt16.ofNat_toNat]
  · rw [List.take_left' rfl,
      depacketize_encodeDefault receiver p other receiveBus out hdata hlength,
      if_neg (Ne.symm hother)]

/-- Three bytes in a buffer of twenty, at the last value of the counter. -/
theorem depacketize_packetize_three :
    ∃ sent, packetize 32 ⟨16383⟩ .telecommand () 0xABCD 2047
        (List.replicate 8 0xFF ++ ([1, 2, 3] ++ ([9, 9, 9, 9] ++ [7, 7, 7, 7, 7]))) 8 3 =
          .ok sent ∧
      (sent.buffer.drop 8).take 3 = [1, 2, 3] ∧
      depacketize 32 ⟨0⟩ .telecommand (sent.buffer.take sent.packetSize) ()
          ⟨0, 0, 0, 0, some 0⟩ = .ok (true, ⟨0xABCD, 2047, 8, 3, some 0⟩) ∧
      ∀ other, other ≠ PacketType.telecommand →
        depacketize 32 ⟨0⟩ other (sent.buffer.take sent.packetSize) () ⟨0, 0, 0, 0, some 0⟩ =
          .ok (false, (⟨0, 0, 0, 0, some 0⟩ : DepacketizeOut).setErrorCode .incorrectPacketType) :=
  depacketize_packetize ⟨16383⟩ ⟨0⟩ .telecommand () () 0xABCD 2047 (List.replicate 8 0xFF)
    [1, 2, 3] [9, 9, 9, 9] [7, 7, 7, 7, 7] ⟨0, 0, 0, 0, some 0⟩ (by decide) (by decide)
    (by decide) rfl rfl (by decide) (by decide)

end Packetizer

end TasteRuntime
