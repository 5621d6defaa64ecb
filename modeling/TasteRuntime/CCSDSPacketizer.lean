import TasteRuntime.PacketFormat

/-!
# TasteRuntime.CCSDSPacketizer

The strict CCSDS packet format (`CCSDSPacketizer.c`): the functions that write
and read a packet in place, and what they compute in terms of
`SpacePacket.encodeStrict`.

The size field counts the data and the two bytes of the checksum, less one, in
16 bits, while the assertions bound the data alone by 2^16: the largest data
they admit does not read back (`depacketize_packetize_iff_le`).
-/

namespace TasteRuntime

open CMemory BigEndian PacketFormat

namespace CCSDSPacketizer

/-! ## the source's functions -/

/-- `CCSDS_Packetizer_init`: the packetizer and `*headerSize`. -/
def init (_self : Packetizer) (_busId : Bus) : Packetizer × Nat :=
  (⟨0⟩, ccsdsSpacePacketPrimaryHeaderSize)

/-- `writeCCSDSPacketId` -/
def writeCCSDSPacketId (packetPointer : List UInt8) (packetType : PacketType)
    (destination : UInt16) : Exec (List UInt8) := do
  -- packet type (1 bit)
  let p ← orByte packetPointer 0 (packetType.toUInt8 <<< ccsdsSpacePacketTypeOffset)
  -- secondary header flag, always set (1 bit)
  let p ← orByte p 0 (1 <<< ccsdsSpacePacketSecondaryHeaderFlagOffset)
  -- application process ID (11 bits)
  let p ← orByte p 0 ((destination &&& packetizerDestinationHighBitsMask) >>> 8).toUInt8
  orByte p 1 (destination &&& 0xFF).toUInt8

/-- `writeCCSDSPacketSequenceControl` -/
def writeCCSDSPacketSequenceControl (packetPointer : List UInt8) (packetizer : Packetizer) :
    Exec (List UInt8) := do
  -- sequence flags, both bits always set (2 bits)
  let p ← orByte packetPointer 2 (1 <<< ccsdsSpacePacketSequenceFlagsFirstOffset)
  let p ← orByte p 2 (1 <<< ccsdsSpacePacketSequenceFlagsSecondOffset)
  -- packet sequence count (14 bits)
  let p ← orByte p 2
    ((packetizer.packetSequenceCount &&& packetizerPacketSequenceControlHighBitsMask) >>> 8).toUInt8
  orByte p 3 (packetizer.packetSequenceCount &&& 0xFF).toUInt8

/-- `writeCCSDSPacketDataLength` -/
def writeCCSDSPacketDataLength (w : Nat) (packetPointer : List UInt8) (dataSize : Nat) :
    Exec (List UInt8) := do
  let p ← writeByte packetPointer 4 (UInt8.ofNat ((subSize w dataSize 1 >>> 8) % 2 ^ 16 &&& 0xFF))
  writeByte p 5 (UInt8.ofNat (subSize w dataSize 1 &&& 0xFF))

/-- `writeChecksum` -/
def writeChecksum (w : Nat) (packetPointer : List UInt8) (dataSize : Nat) :
    Exec (List UInt8) := do
  let checksumInputSize := toSize w (ccsdsSpacePacketPrimaryHeaderSize + dataSize)
  let covered ← slice packetPointer 0 checksumInputSize
  let checksum := IsoChecksum.calculate covered
  let p ← writeByte packetPointer checksumInputSize ((checksum >>> 8) &&& 0xFF).toUInt8
  writeByte p (toSize w (checksumInputSize + 1)) (checksum &&& 0xFF).toUInt8

/-- `readCCSDSPacketDataLength` -/
def readCCSDSPacketDataLength (w : Nat) (packetPointer : List UInt8) : Exec Nat := do
  let b4 ← readByte packetPointer 4
  let b5 ← readByte packetPointer 5
  pure (toSize w ((toSize w (b4.toNat <<< 8) ||| b5.toNat) + 1))

/-- `CCSDS_Packetizer_packetize` -/
def packetize (w : Nat) (self : Packetizer) (packetType : PacketType) (_busId : Bus)
    (_source destination : UInt16) (packetPointer : List UInt8) (dataOffset dataSize : Nat) :
    Exec Packetized := do
  assert (self.packetSequenceCount ≤ spacePacketMaxPacketSequenceCount)
  assert (destination ≤ spacePacketMaxApid)
  assert (dataOffset = ccsdsSpacePacketPrimaryHeaderSize)
  assert (dataSize ≥ 1)
  assert (dataSize < ccsdsSpacePacketMaxPacketDataSize)
  let rawDestination := destination
  assert (rawDestination ≤ spacePacketMaxApid)
  -- the checksum is a part of the payload
  let dataSizeWithErr := toSize w (dataSize + spacePacketErrorControlSize)
  let p ← memset packetPointer 0 ccsdsSpacePacketPrimaryHeaderSize
  let p ← writeCCSDSPacketId p packetType rawDestination
  let p ← writeCCSDSPacketSequenceControl p self
  let p ← writeCCSDSPacketDataLength w p dataSizeWithErr
  let p ← writeChecksum w p dataSize
  pure ⟨toSize w (ccsdsSpacePacketPrimaryHeaderSize + dataSizeWithErr), self.countPacket, p⟩

/-- `CCSDS_Packetizer_depacketize`; `packetPointer` and `packetSize` are the
bytes of the packet.  `*source` stays as it was. -/
def depacketize (w : Nat) (_self : Packetizer) (packetType : PacketType)
    (packet : List UInt8) (_busId : Bus) (out : DepacketizeOut) : Exec (Bool × DepacketizeOut) :=
  if packet.length ≤ ccsdsSpacePacketPrimaryHeaderSize + spacePacketErrorControlSize then
    pure (false, out)
  else do
    let receivedDataSize ← readCCSDSPacketDataLength w packet
    if packet.length ≠ toSize w (ccsdsSpacePacketPrimaryHeaderSize + receivedDataSize) then
      return (false, out.setErrorCode .incorrectPacketSize)
    let checksumLow ← readByte packet
      (subSize w (toSize w (ccsdsSpacePacketPrimaryHeaderSize + receivedDataSize)) 1)
    let checksumHigh ← readByte packet
      (subSize w (toSize w (ccsdsSpacePacketPrimaryHeaderSize + receivedDataSize)) 2)
    let receivedChecksum := checksumLow.toUInt16 ||| (checksumHigh.toUInt16 <<< 8)
    let covered ← slice packet 0 (subSize w packet.length spacePacketErrorControlSize)
    if receivedChecksum ≠ IsoChecksum.calculate covered then
      return (false, out.setErrorCode .incorrectCrc16)
    let b0 ← readByte packet 0
    if (b0 &&& ccsdsSpacePacketTypeMask) >>> ccsdsSpacePacketTypeOffset ≠ packetType.toUInt8 then
      return (false, out.setErrorCode .incorrectPacketType)
    let b1 ← readByte packet 1
    pure (true, { out with
      destination := b1.toUInt16 |||
        ((b0.toUInt16 &&& ccsdsSpacePacketApidHighBitsMask) <<< 8)
      dataOffset := ccsdsSpacePacketPrimaryHeaderSize
      dataSize := subSize w receivedDataSize spacePacketErrorControlSize })

/-! ## what the writers write -/

theorem toUInt8_destinationHigh (h : destination ≤ 2047) :
    ((destination &&& packetizerDestinationHighBitsMask) >>> 8).toUInt8 =
      UInt8.ofNat (destination.toNat / 256) := by
  rw [toUInt8_and_shiftRight (k := 3) (s := 8) rfl rfl (by decide)
    (Nat.lt_succ_of_le (UInt16.le_iff_toNat_le.mp h)), Nat.sub_self, Nat.pow_zero, Nat.one_mul]

theorem toUInt8_sequenceCountHigh (h : count ≤ 16383) :
    ((count &&& packetizerPacketSequenceControlHighBitsMask) >>> 8).toUInt8 =
      UInt8.ofNat (count.toNat / 256) := by
  rw [toUInt8_and_shiftRight (k := 6) (s := 8) rfl rfl (by decide)
    (Nat.lt_succ_of_le (UInt16.le_iff_toNat_le.mp h)), Nat.sub_self, Nat.pow_zero, Nat.one_mul]

/-- The fields of byte 0 do not overlap. -/
theorem packetIdByte (packetType : PacketType) : ∀ high < 8,
    ((0 : UInt8) ||| packetType.toUInt8 <<< ccsdsSpacePacketTypeOffset |||
      1 <<< ccsdsSpacePacketSecondaryHeaderFlagOffset ||| UInt8.ofNat high) =
      UInt8.ofNat (16 * packetType.toUInt8.toNat + 8 + high) := by
  cases packetType <;> decide

/-- The fields of byte 2 do not overlap. -/
theorem sequenceControlByte : ∀ high < 64,
    ((0 : UInt8) ||| 1 <<< ccsdsSpacePacketSequenceFlagsFirstOffset |||
      1 <<< ccsdsSpacePacketSequenceFlagsSecondOffset ||| UInt8.ofNat high) =
      UInt8.ofNat (192 + high) := by
  decide

theorem writeCCSDSPacketId_eq (packetType : PacketType) (h : destination ≤ 2047) :
    writeCCSDSPacketId (0 :: 0 :: tail) packetType destination =
      .ok (UInt8.ofNat (16 * packetType.toUInt8.toNat + 8 + destination.toNat / 256) ::
        UInt8.ofNat destination.toNat :: tail) := by
  have hhigh : destination.toNat / 256 < 8 :=
    Nat.div_lt_of_lt_mul (Nat.lt_succ_of_le (UInt16.le_iff_toNat_le.mp h))
  simp only [writeCCSDSPacketId, toUInt8_destinationHigh h, toUInt8_and_mask]
  simp [orByte, readByte, writeByte, ← packetIdByte packetType _ hhigh]

theorem writeCCSDSPacketSequenceControl_eq {self : Packetizer}
    (h : self.packetSequenceCount ≤ 16383) :
    writeCCSDSPacketSequenceControl (b0 :: b1 :: 0 :: 0 :: tail) self =
      .ok (b0 :: b1 :: UInt8.ofNat (192 + self.packetSequenceCount.toNat / 256) ::
        UInt8.ofNat self.packetSequenceCount.toNat :: tail) := by
  have hhigh : self.packetSequenceCount.toNat / 256 < 64 :=
    Nat.div_lt_of_lt_mul (Nat.lt_succ_of_le (UInt16.le_iff_toNat_le.mp h))
  simp only [writeCCSDSPacketSequenceControl, toUInt8_sequenceCountHigh h, toUInt8_and_mask]
  simp [orByte, readByte, writeByte, ← sequenceControlByte _ hhigh]

theorem writeCCSDSPacketDataLength_eq (hpos : 0 < dataSize) (hw : dataSize < 2 ^ w)
    (hsize : dataSize < 2 ^ 24) :
    writeCCSDSPacketDataLength w (b0 :: b1 :: b2 :: b3 :: b4 :: b5 :: tail) dataSize =
      .ok (b0 :: b1 :: b2 :: b3 :: (toBytes 2 (dataSize - 1) ++ tail)) := by
  have hhigh : (dataSize - 1) / 2 ^ 8 % 2 ^ 16 = (dataSize - 1) / 256 :=
    Nat.mod_eq_of_lt (by omega)
  unfold writeCCSDSPacketDataLength
  rw [subSize_of_le hpos hw, ofNat_and_mask, ofNat_and_mask, Nat.shiftRight_eq_div_pow, hhigh]
  rfl

theorem writeChecksum_eq (hbody : body.length = 6 + dataSize) (hsum : sum.length = 2)
    (hw : 6 + dataSize + 1 < 2 ^ w) :
    writeChecksum w (body ++ (sum ++ tail)) dataSize =
      .ok (body ++ (toBytes 2 (IsoChecksum.calculate body).toNat ++ tail)) := by
  match sum, hsum with
  | [b0, b1], _ =>
      simp only [writeChecksum, ccsdsSpacePacketPrimaryHeaderSize, toUInt8_and_mask]
      rw [toSize_of_lt (by omega), toSize_of_lt hw, slice_prefix hbody, ok_bind,
        writeByte_append (i := 0) (by simp) hbody.symm, ok_bind,
        writeByte_append (i := 1) (by simp) (by omega), UInt16.toNat_shiftRight,
        show (UInt16.toNat 8) % 16 = 8 from rfl, Nat.shiftRight_eq_div_pow]
      rfl

/-- **`CCSDS_Packetizer_packetize`**: whatever the header and trailer held,
the object holds the packet, and the rest of it is as it was. -/
theorem packetize_eq (self : Packetizer) (p : SpacePacket) (busId : Bus) (source : UInt16)
    (hdest : destination.toNat = p.destination.val)
    (hcount : self.packetSequenceCount.toNat = p.sequenceCount.val)
    (hpos : 1 ≤ p.data.length) (hdata : p.data.length < 65536)
    (hheader : header.length = 6) (htrailer : trailer.length = 2)
    (hw : p.data.length + 8 < 2 ^ w) :
    packetize w self p.packetType busId source destination
        (header ++ (p.data ++ (trailer ++ rest))) 6 p.data.length =
      .ok ⟨p.encodeStrict.length, self.countPacket, p.encodeStrict ++ rest⟩ := by
  have hdest' := SpacePacket.destination_le hdest
  have hcount' := SpacePacket.sequenceCount_le hcount
  have hpacket : UInt8.ofNat (16 * p.packetType.toUInt8.toNat + 8 + destination.toNat / 256) ::
      UInt8.ofNat destination.toNat ::
      UInt8.ofNat (192 + self.packetSequenceCount.toNat / 256) ::
      UInt8.ofNat self.packetSequenceCount.toNat ::
      (toBytes 2 (p.data.length + 2 - 1) ++ (p.data ++ (trailer ++ rest))) =
        p.strictBody ++ (trailer ++ rest) := by
    simp [SpacePacket.strictBody, SpacePacket.strictHeader, hdest, hcount]
  have herr : toSize w (p.data.length + spacePacketErrorControlSize) = p.data.length + 2 :=
    toSize_of_lt (show p.data.length + 2 < 2 ^ w by omega)
  unfold packetize
  rw [assert_of hcount', assert_of hdest', assert_of rfl, assert_of hpos, assert_of hdata,
    memset_append hheader, herr]
  simp only [ok_bind, ccsdsSpacePacketPrimaryHeaderSize, List.replicate, List.cons_append]
  rw [assert_of hdest', ok_bind, writeCCSDSPacketId_eq _ hdest', ok_bind,
    writeCCSDSPacketSequenceControl_eq hcount', ok_bind, List.nil_append,
    writeCCSDSPacketDataLength_eq (by omega) (by omega) (by omega), ok_bind, hpacket,
    writeChecksum_eq (by simp [Nat.add_comm]) htrailer (by omega), ok_bind,
    toSize_of_lt (show 6 + (p.data.length + 2) < 2 ^ w by omega)]
  simp [SpacePacket.encodeStrict]
  omega

/-- The header of the telemetry packet in the tests of the source. -/
example : (SpacePacket.ofFields .telemetry 0 682 792 (List.replicate 514 0)).strictHeader =
    [0b00001010, 0b10101010, 0b11000011, 0b00011000, 2, 3] := by
  decide +kernel

/-! ## what every call keeps -/

theorem ensures_writeCCSDSPacketId (h : p.length = n) :
    Ensures (writeCCSDSPacketId p packetType destination) (·.length = n) :=
  (ensures_orByte h).bind fun _ h => (ensures_orByte h).bind fun _ h =>
    (ensures_orByte h).bind fun _ h => ensures_orByte h

theorem ensures_writeCCSDSPacketSequenceControl (h : p.length = n) :
    Ensures (writeCCSDSPacketSequenceControl p self) (·.length = n) :=
  (ensures_orByte h).bind fun _ h => (ensures_orByte h).bind fun _ h =>
    (ensures_orByte h).bind fun _ h => ensures_orByte h

theorem ensures_writeCCSDSPacketDataLength (h : p.length = n) :
    Ensures (writeCCSDSPacketDataLength w p dataSize) (·.length = n) :=
  (ensures_writeByte h).bind fun _ h => ensures_writeByte h

theorem ensures_writeChecksum (h : p.length = n) :
    Ensures (writeChecksum w p dataSize) (·.length = n) :=
  (ensures_true _).bind fun _ _ => (ensures_writeByte h).bind fun _ h => ensures_writeByte h

/-- Whatever it is called with, `CCSDS_Packetizer_packetize` keeps object and
counter in their bounds if it returns. -/
theorem ensures_packetize (w : Nat) (self : Packetizer) (packetType : PacketType) (busId : Bus)
    (source destination : UInt16) (packetPointer : List UInt8) (dataOffset dataSize : Nat) :
    Ensures (packetize w self packetType busId source destination packetPointer dataOffset dataSize)
      (Packetized.Keeps self packetPointer) := by
  refine (ensures_true _).bind fun _ _ => (ensures_true _).bind fun _ _ =>
    (ensures_true _).bind fun _ _ => (ensures_true _).bind fun _ _ =>
    (ensures_true _).bind fun _ _ => (ensures_true _).bind fun _ _ => ?_
  exact (ensures_memset rfl).bind fun _ h => (ensures_writeCCSDSPacketId h).bind fun _ h =>
    (ensures_writeCCSDSPacketSequenceControl h).bind fun _ h =>
    (ensures_writeCCSDSPacketDataLength h).bind fun _ h => (ensures_writeChecksum h).bind fun _ h =>
    ensures_ok ⟨h, Packetizer.countPacket_le⟩

/-! ## past the end of the object -/

theorem writeChecksum_overrun (hle : 6 + dataSize ≤ p.length) (hlt : p.length < 6 + dataSize + 2)
    (hw : p.length < 2 ^ w) :
    writeChecksum w p dataSize = .error (.writeOutOfBounds p.length) := by
  simp only [writeChecksum, ccsdsSpacePacketPrimaryHeaderSize]
  rw [toSize_of_lt (show 6 + dataSize < 2 ^ w by omega), slice_of_le (by omega), ok_bind]
  exact writeByte_writeByte_of_lt hle hlt fun hin => toSize_of_lt (by omega)

/-- An object with room for the data but not for the checksum is written up
to its end. -/
theorem packetize_overrun (self : Packetizer) (packetType : PacketType) (busId : Bus)
    (source : UInt16) (hcount : self.packetSequenceCount ≤ 16383) (hdest : destination ≤ 2047)
    (hpos : 1 ≤ dataSize) (hsize : dataSize < 65536) (hle : 6 + dataSize ≤ packet.length)
    (hlt : packet.length < 6 + dataSize + 2) (hw : packet.length < 2 ^ w) :
    packetize w self packetType busId source destination packet 6 dataSize =
      .error (.writeOutOfBounds packet.length) := by
  obtain ⟨header, rest, rfl, hheader⟩ := exists_append_of_le (Nat.le_of_add_right_le hle)
  have herr : toSize w (dataSize + spacePacketErrorControlSize) = dataSize + 2 :=
    toSize_of_lt (show dataSize + 2 < 2 ^ w by omega)
  unfold packetize
  rw [assert_of hcount, assert_of hdest, assert_of rfl, assert_of hpos, assert_of hsize,
    memset_append hheader, herr]
  simp only [ok_bind, ccsdsSpacePacketPrimaryHeaderSize, List.replicate, List.cons_append]
  rw [assert_of hdest, ok_bind, writeCCSDSPacketId_eq _ hdest, ok_bind,
    writeCCSDSPacketSequenceControl_eq hcount, ok_bind, List.nil_append,
    writeCCSDSPacketDataLength_eq (by omega) (by omega) (by omega), ok_bind]
  generalize hp : UInt8.ofNat (16 * packetType.toUInt8.toNat + 8 + destination.toNat / 256) ::
    _ = p
  have hlength : p.length = (header ++ rest).length := by
    simp [← hp, hheader]
    omega
  rw [← hlength] at hle hlt hw ⊢
  rw [writeChecksum_overrun hle hlt hw]
  rfl

/-! ## what the readers read -/

theorem readCCSDSPacketDataLength_eq (h : 6 ≤ packet.length) (hw : 16 ≤ w) :
    readCCSDSPacketDataLength w packet = .ok (toSize w (strictSize packet)) := by
  have hpow : 2 ^ 16 ≤ 2 ^ w := Nat.pow_le_pow_right (by decide) hw
  have hhigh := (packet.getD 4 0).toNat_lt
  have hlow := (packet.getD 5 0).toNat_lt
  rw [readCCSDSPacketDataLength, readByte_eq (by omega), readByte_eq (by omega), ok_bind, ok_bind,
    pure_eq_ok, strictSize, toNat_wordAt, Nat.shiftLeft_eq,
    show toSize w ((packet.getD 4 0).toNat * 2 ^ 8) = (packet.getD 4 0).toNat * 2 ^ 8 from
      toSize_of_lt (by omega), mul_two_pow_or _ hlow]
  rfl

theorem typeBits_eq_iff (b0 : UInt8) (packetType : PacketType) :
    (b0 &&& ccsdsSpacePacketTypeMask) >>> ccsdsSpacePacketTypeOffset = packetType.toUInt8 ↔
      b0.toNat / 16 % 2 = packetType.toUInt8.toNat := by
  have hbits : ((b0 &&& ccsdsSpacePacketTypeMask) >>> ccsdsSpacePacketTypeOffset).toNat =
      b0.toNat / 16 % 2 := toNat_and_shiftRight (k := 1) (s := 4) b0 rfl rfl
  rw [← UInt8.toNat_inj, hbits]

theorem destinationBits_eq (b0 b1 : UInt8) :
    b1.toUInt16 ||| ((b0.toUInt16 &&& ccsdsSpacePacketApidHighBitsMask) <<< 8) =
      UInt16.ofNat (b0.toNat % 8 * 256 + b1.toNat) := by
  have h1 := b1.toNat_lt
  apply UInt16.toNat_inj.mp
  simp only [UInt16.toNat_or, UInt16.toNat_shiftLeft, UInt8.toNat_toUInt16, UInt16.toNat_and,
    UInt16.toNat_ofNat']
  rw [show ccsdsSpacePacketApidHighBitsMask.toNat = 2 ^ 3 - 1 from rfl,
    Nat.and_two_pow_sub_one_eq_mod, show (UInt16.toNat 8) % 16 = 8 from rfl, Nat.shiftLeft_eq,
    Nat.or_comm, Nat.mod_eq_of_lt (by omega), mul_two_pow_or _ h1]
  omega

/-- The size check compares as if nothing wrapped around: neither the declared
size nor the sum wraps around to more than 6. -/
theorem length_eq_toSize_iff {received : Nat} (hreceived : received ≤ 2 ^ 16) (hsize : 16 ≤ w)
    (hlength : 6 < length) (hw : length < 2 ^ w) :
    length = toSize w (6 + toSize w received) ↔ 6 + received = length := by
  have hpow : 2 ^ 16 ≤ 2 ^ w := Nat.pow_le_pow_right (by decide) hsize
  constructor
  · intro heq
    have hexact := toSize_add_eq heq.symm (toSize_lt w _) (Nat.le_of_lt hlength)
    by_cases hfull : received < 2 ^ w
    · rw [toSize_of_lt hfull] at hexact
      exact hexact
    · rw [show received = 2 ^ w by omega, toSize, Nat.mod_self] at hexact
      omega
  · rintro rfl
    rw [toSize_of_lt (show received < 2 ^ w by omega), toSize_of_lt hw]

/-- **`CCSDS_Packetizer_depacketize`**: it never reads outside the packet, and
it decides as `strictVerdict` does. -/
theorem depacketize_eq (self : Packetizer) (packetType : PacketType) (busId : Bus)
    (out : DepacketizeOut) (hsize : 16 ≤ w) (hw : packet.length < 2 ^ w) :
    depacketize w self packetType packet busId out =
      .ok ((strictVerdict packetType packet).outcome out
        { out with
          destination := strictDestination packet
          dataOffset := 6
          dataSize := packet.length - 8 }) := by
  simp only [depacketize, ccsdsSpacePacketPrimaryHeaderSize, spacePacketErrorControlSize,
    Nat.reduceAdd]
  unfold strictVerdict
  by_cases hsmall : packet.length ≤ 8
  · rw [if_pos hsmall, if_pos hsmall]
    rfl
  rw [if_neg hsmall, if_neg hsmall, readCCSDSPacketDataLength_eq (by omega) hsize, ok_bind]
  have hdeclared : strictSize packet ≤ 2 ^ 16 := (wordAt packet 4).toNat_lt
  have hcheck := length_eq_toSize_iff hdeclared hsize (show 6 < packet.length by omega) hw
  by_cases hlen : 6 + strictSize packet = packet.length
  · have hreceived : toSize w (strictSize packet) = packet.length - 6 := by
      rw [toSize_of_lt (by omega)]
      omega
    have htotal : toSize w (6 + (packet.length - 6)) = packet.length := by
      rw [toSize_of_lt (by omega)]
      omega
    rw [hreceived, htotal, if_neg (not_not_intro rfl), if_neg (not_not_intro hlen),
      subSize_of_le (by omega) hw, subSize_of_le (by omega) hw, subSize_of_le (by omega) (by omega),
      readByte_eq (by omega), readByte_eq (by omega), readByte_eq (by omega),
      readByte_eq (by omega), slice_of_le (by omega)]
    simp only [ok_bind, or_shiftLeft_eq, destinationBits_eq, List.drop_zero]
    have hsum : UInt16.ofNat (ofBytes [packet.getD (packet.length - 2) 0,
        packet.getD (packet.length - 1) 0]) = wordAt packet (packet.length - 2) := by
      rw [wordAt, show packet.length - 1 = packet.length - 2 + 1 by omega]
    rw [hsum]
    by_cases hmatch : wordAt packet (packet.length - 2) =
        IsoChecksum.calculate (packet.take (packet.length - 2))
    · rw [if_neg (not_not_intro hmatch), if_neg (not_not_intro hmatch)]
      have hbits := typeBits_eq_iff (packet.getD 0 0) packetType
      by_cases htype : strictType packet = packetType.toUInt8.toNat
      · rw [if_neg (not_not_intro (hbits.mpr htype)), if_neg (not_not_intro htype), Nat.sub_sub]
        rfl
      · rw [if_pos (mt hbits.mp htype), if_pos htype]
        rfl
    · rw [if_pos hmatch, if_pos hmatch]
      rfl
  · rw [if_pos (mt hcheck.mp hlen), if_pos hlen]
    rfl

/-! ## round trip -/

/-- What `CCSDS_Packetizer_depacketize` makes of a packet. -/
theorem depacketize_encodeStrict (self : Packetizer) (p : SpacePacket) (packetType : PacketType)
    (busId : Bus) (out : DepacketizeOut) (hpos : 0 < p.data.length) (hdata : p.data.length < 65536)
    (hsize : 16 ≤ w) (hw : p.data.length + 8 < 2 ^ w) :
    depacketize w self packetType p.encodeStrict busId out =
      .ok (if p.data.length = 65535 then (false, out.setErrorCode .incorrectPacketSize)
        else if p.packetType = packetType then
          (true, { out with
            destination := UInt16.ofNat p.destination
            dataOffset := 6
            dataSize := p.data.length })
        else (false, out.setErrorCode .incorrectPacketType)) := by
  rw [depacketize_eq self packetType busId out hsize (by simpa using hw),
    strictVerdict_encodeStrict packetType hpos hdata, strictDestination_encodeStrict]
  by_cases hmax : p.data.length = 65535
  · simp [hmax, Verdict.outcome, DepacketizeOut.reject]
  · by_cases htype : p.packetType = packetType
    · simp [hmax, htype, Verdict.outcome]
    · simp [hmax, htype, Verdict.outcome, DepacketizeOut.reject]

/-- **Round trip**: data of an admitted size reads back, whatever the header
and trailer bytes held, exactly if it is not 2^16 - 1 bytes long. -/
theorem depacketize_packetize_iff_le (self receiver : Packetizer) (packetType : PacketType)
    (sendBus receiveBus : Bus) (source destination : UInt16)
    (header data trailer rest : List UInt8) (out : DepacketizeOut) (hsize : 16 ≤ w)
    (hcount : self.packetSequenceCount ≤ 16383) (hdest : destination ≤ 2047)
    (hpos : 1 ≤ data.length) (hdata : data.length < 65536)
    (hheader : header.length = 6) (htrailer : trailer.length = 2)
    (hw : (header ++ (data ++ (trailer ++ rest))).length < 2 ^ w) :
    ∃ sent outcome, packetize w self packetType sendBus source destination
        (header ++ (data ++ (trailer ++ rest))) 6 data.length = .ok sent ∧
      depacketize w receiver packetType (sent.buffer.take sent.packetSize) receiveBus out =
        .ok outcome ∧
      ((outcome = (true, { out with
          destination := destination
          dataOffset := 6
          dataSize := data.length }) ∧
        (sent.buffer.drop 6).take data.length = data) ↔ data.length ≤ 65534) := by
  obtain ⟨p, rfl, rfl, rfl, hdest', hcount'⟩ :=
    SpacePacket.exists_of_fields packetType source data hdest hcount
  have hlength : p.data.length + 8 < 2 ^ w := by
    simp only [List.length_append] at hw
    omega
  have hread := depacketize_encodeStrict receiver p p.packetType receiveBus out hpos hdata hsize
    hlength
  have htake : (p.encodeStrict ++ rest).take p.encodeStrict.length = p.encodeStrict :=
    List.take_left
  rw [← htake, if_pos rfl, ← hdest', UInt16.ofNat_toNat] at hread
  refine ⟨_, _, packetize_eq self p sendBus p.source hdest' hcount' hpos hdata hheader htrailer
    hlength, hread, ?_⟩
  by_cases hmax : p.data.length = 65535
  · simp [hmax]
  · rw [if_neg hmax]
    exact ⟨fun _ => by omega, fun _ => ⟨rfl, p.take_drop_encodeStrict rest⟩⟩

/-- Three bytes in a buffer of sixteen. -/
theorem depacketize_packetize_iff_le_three :
    ∃ sent outcome, packetize 16 ⟨16383⟩ .telecommand () 0 2047
        (List.replicate 6 0xFF ++ ([1, 2, 3] ++ ([9, 9] ++ [7, 7, 7, 7, 7]))) 6 3 = .ok sent ∧
      depacketize 16 ⟨0⟩ .telecommand (sent.buffer.take sent.packetSize) () ⟨0, 0, 0, 0, some 0⟩ =
        .ok outcome ∧
      ((outcome = (true, ⟨0, 2047, 6, 3, some 0⟩) ∧ (sent.buffer.drop 6).take 3 = [1, 2, 3]) ↔
        3 ≤ 65534) :=
  depacketize_packetize_iff_le ⟨16383⟩ ⟨0⟩ .telecommand () () 0 2047 (List.replicate 6 0xFF)
    [1, 2, 3] [9, 9] [7, 7, 7, 7, 7] ⟨0, 0, 0, 0, some 0⟩ (by decide) (by decide) (by decide)
    (by decide) (by decide) rfl rfl (by decide)

/-- 65535 bytes of data pass the assertions, and the packet is rejected for
its size: the size field holds 0. -/
theorem depacketize_packetize_largest :
    ∃ sent, packetize 32 ⟨0⟩ .telecommand () 0 1
        (List.replicate 6 0 ++ (List.replicate 65535 0 ++ (List.replicate 2 0 ++ []))) 6 65535 =
          .ok sent ∧
      depacketize 32 ⟨0⟩ .telecommand (sent.buffer.take sent.packetSize) () ⟨0, 0, 0, 0, some 0⟩ =
        .ok (false, ⟨0, 0, 0, 0, some 3⟩) := by
  let p := SpacePacket.ofFields .telecommand 0 1 0 (List.replicate 65535 0)
  have hlength : p.data.length = 65535 := List.length_replicate
  have hsent : packetize 32 ⟨0⟩ .telecommand () 0 1
      (List.replicate 6 0 ++ (p.data ++ (List.replicate 2 0 ++ []))) 6 p.data.length =
        .ok ⟨p.encodeStrict.length, (⟨0⟩ : Packetizer).countPacket, p.encodeStrict ++ []⟩ :=
    packetize_eq ⟨0⟩ p () 0 rfl rfl (by omega) (by omega) List.length_replicate
      List.length_replicate (by omega)
  rw [hlength] at hsent
  refine ⟨_, hsent, ?_⟩
  rw [List.take_left' rfl,
    depacketize_encodeStrict ⟨0⟩ p .telecommand () _ (by omega) (by omega) (by decide) (by omega),
    if_pos hlength]
  rfl

end CCSDSPacketizer

end TasteRuntime
