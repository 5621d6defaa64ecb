import TasteRuntime.PacketFormat

/-!
# TasteRuntime.ThinPacketizer

The thin packet format (`ThinPacketizer.c`): no counter, no checksum, a
header of destination and size.

The reader adds one to the low byte of the size field before it puts the bytes
together with an or, so the carry out of the low byte is lost when the high
byte is odd (`depacketize_packetize_iff_mod`).  The writer admits the sizes of
the default format, whose size field is twice as wide, so sizes that agree
modulo 65536 get the same header (`packetSize_eq_of_header_eq_iff`).
-/

namespace TasteRuntime

open CMemory BigEndian PacketFormat

namespace ThinPacketizer

/-! ## the source's functions -/

/-- `ThinPacketizer_init`: the packetizer, left as it was, and `*headerSize`. -/
def init (self : Packetizer) (_busId : Bus) : Packetizer × Nat :=
  (self, thinSpacePacketPrimaryHeaderSize)

/-- `thinWritePacketId` -/
def thinWritePacketId (packetPointer : List UInt8) (_packetType : PacketType)
    (destination : UInt16) : Exec (List UInt8) := do
  let p ← orByte packetPointer 0 ((destination >>> 8).toUInt8 &&& 0xFF)
  orByte p 1 (destination &&& 0xFF).toUInt8

/-- `thinReadPacketId` -/
def thinReadPacketId (packetPointer : List UInt8) : Exec UInt16 := do
  let b0 ← readByte packetPointer 0
  let b1 ← readByte packetPointer 1
  pure ((b0.toUInt16 <<< 8) ||| b1.toUInt16)

/-- `thinWritePacketDataLength` -/
def thinWritePacketDataLength (w : Nat) (packetPointer : List UInt8) (dataSize : Nat) :
    Exec (List UInt8) := do
  let p ← writeByte packetPointer 2 (UInt8.ofNat ((subSize w dataSize 1 >>> 8) &&& 0xFF))
  writeByte p 3 (UInt8.ofNat (subSize w dataSize 1 &&& 0xFF))

/-- `thinReadPacketDataLength` -/
def thinReadPacketDataLength (w : Nat) (packetPointer : List UInt8) : Exec Nat := do
  let b2 ← readByte packetPointer 2
  let b3 ← readByte packetPointer 3
  pure (toSize w (b2.toNat <<< 8) ||| toSize w (b3.toNat + 1))

/-- `ThinPacketizer_packetize` -/
def packetize (w : Nat) (self : Packetizer) (packetType : PacketType) (_busId : Bus)
    (_source destination : UInt16) (packetPointer : List UInt8) (dataOffset dataSize : Nat) :
    Exec Packetized := do
  assert (destination ≤ spacePacketMaxApid)
  assert (dataOffset = thinSpacePacketPrimaryHeaderSize)
  assert (dataSize ≥ 1)
  assert (dataSize < spacePacketMaxPacketDataSize)
  let p ← memset packetPointer 0 thinSpacePacketPrimaryHeaderSize
  let p ← thinWritePacketId p packetType destination
  let p ← thinWritePacketDataLength w p dataSize
  pure ⟨toSize w (thinSpacePacketPrimaryHeaderSize + dataSize), self, p⟩

/-- `ThinPacketizer_depacketize`; `packetPointer` and `packetSize` are the
bytes of the packet.  `*source` stays as it was. -/
def depacketize (w : Nat) (_self : Packetizer) (_packetType : PacketType)
    (packet : List UInt8) (_busId : Bus) (out : DepacketizeOut) : Exec (Bool × DepacketizeOut) :=
  if packet.length < thinSpacePacketPrimaryHeaderSize then
    pure (false, out)
  else do
    let receivedDataSize ← thinReadPacketDataLength w packet
    if packet.length ≠ toSize w (thinSpacePacketPrimaryHeaderSize + receivedDataSize) then
      return (false, out.setErrorCode .incorrectPacketSize)
    let destination ← thinReadPacketId packet
    pure (true, { out with
      destination := destination
      dataOffset := thinSpacePacketPrimaryHeaderSize
      dataSize := receivedDataSize })

/-- Whatever it is called with, `ThinPacketizer_packetize` keeps object and
counter in their bounds if it returns. -/
theorem ensures_packetize (w : Nat) (self : Packetizer) (packetType : PacketType) (busId : Bus)
    (source destination : UInt16) (packetPointer : List UInt8) (dataOffset dataSize : Nat) :
    Ensures (packetize w self packetType busId source destination packetPointer dataOffset dataSize)
      (Packetized.Keeps self packetPointer) := by
  have hid {p : List UInt8} {n : Nat} (h : p.length = n) :
      Ensures (thinWritePacketId p packetType destination) (·.length = n) :=
    (ensures_orByte h).bind fun _ h => ensures_orByte h
  have hlength {p : List UInt8} {n : Nat} (h : p.length = n) :
      Ensures (thinWritePacketDataLength w p dataSize) (·.length = n) :=
    (ensures_writeByte h).bind fun _ h => ensures_writeByte h
  refine (ensures_true _).bind fun _ _ => (ensures_true _).bind fun _ _ =>
    (ensures_true _).bind fun _ _ => (ensures_true _).bind fun _ _ => ?_
  exact (ensures_memset rfl).bind fun _ h => (hid h).bind fun _ h => (hlength h).bind fun _ h =>
    ensures_ok ⟨h, id⟩

/-! ## what the functions compute -/

theorem thinWritePacketId_eq (packetType : PacketType) (destination : UInt16) :
    thinWritePacketId (0 :: 0 :: tail) packetType destination =
      .ok (toBytes 2 destination.toNat ++ tail) := by
  simp only [thinWritePacketId, toUInt8_shiftRight, toUInt8_and_mask]
  simp [orByte, readByte, writeByte, toBytes_two]

theorem thinWritePacketDataLength_eq (hpos : 0 < dataSize) (hw : dataSize < 2 ^ w) :
    thinWritePacketDataLength w (b0 :: b1 :: b2 :: b3 :: tail) dataSize =
      .ok (b0 :: b1 :: (toBytes 2 (dataSize - 1) ++ tail)) := by
  unfold thinWritePacketDataLength
  rw [subSize_of_le hpos hw, ofNat_and_mask, ofNat_and_mask, Nat.shiftRight_eq_div_pow]
  rfl

/-- Every admitted call writes the low 16 bits of the size into the header and
leaves the rest of the object alone. -/
theorem packetize_of_le (self : Packetizer) (packetType : PacketType) (busId : Bus)
    (source : UInt16) (hdest : destination ≤ 2047) (hpos : 1 ≤ dataSize)
    (hsize : dataSize < 4294967295) (hw : dataSize < 2 ^ w) (hbuffer : 4 ≤ packet.length) :
    packetize w self packetType busId source destination packet 4 dataSize =
      .ok ⟨toSize w (4 + dataSize), self,
        toBytes 2 destination.toNat ++ toBytes 2 (dataSize - 1) ++ packet.drop 4⟩ := by
  obtain ⟨header, rest, rfl, hheader⟩ := exists_append_of_le hbuffer
  unfold packetize
  rw [assert_of hdest, assert_of rfl, assert_of hpos, assert_of hsize, memset_append hheader,
    List.drop_left' hheader]
  simp only [ok_bind, thinSpacePacketPrimaryHeaderSize, List.replicate, List.cons_append]
  rw [thinWritePacketId_eq, ok_bind, List.nil_append, toBytes_two, List.cons_append,
    List.cons_append, List.nil_append, thinWritePacketDataLength_eq hpos hw]
  rfl

/-- **`ThinPacketizer_packetize`**: whatever the header held, the object holds
the packet, and the rest of it is as it was. -/
theorem packetize_eq (self : Packetizer) (p : SpacePacket) (packetType : PacketType) (busId : Bus)
    (source : UInt16) (hdest : destination.toNat = p.destination.val)
    (hpos : 1 ≤ p.data.length) (hdata : p.data.length < 4294967295)
    (hheader : header.length = 4) (hw : p.data.length + 4 < 2 ^ w) :
    packetize w self packetType busId source destination (header ++ (p.data ++ rest)) 4
        p.data.length =
      .ok ⟨p.encodeThin.length, self, p.encodeThin ++ rest⟩ := by
  have hpacket : toBytes 2 destination.toNat ++ toBytes 2 (p.data.length - 1) ++
      (p.data ++ rest) = p.encodeThin ++ rest := by
    simp [SpacePacket.encodeThin, SpacePacket.thinHeader, hdest]
  rw [packetize_of_le self packetType busId source (SpacePacket.destination_le hdest) hpos hdata
    (by omega) (by rw [List.length_append]; omega), List.drop_left' hheader, hpacket,
    toSize_of_lt (by omega), SpacePacket.length_encodeThin, Nat.add_comm 4]

theorem thinReadPacketId_eq (h : 2 ≤ packet.length) :
    thinReadPacketId packet = .ok (thinDestination packet) := by
  rw [thinReadPacketId, readByte_eq (by omega), readByte_eq (by omega), ok_bind, ok_bind,
    UInt16.or_comm, or_shiftLeft_eq]
  rfl

theorem thinReadPacketDataLength_eq (h : 4 ≤ packet.length) (hsize : 16 ≤ w) :
    thinReadPacketDataLength w packet = .ok (thinSize packet) := by
  have hpow : 2 ^ 16 ≤ 2 ^ w := Nat.pow_le_pow_right (by decide) hsize
  have hhigh := (packet.getD 2 0).toNat_lt
  have hlow := (packet.getD 3 0).toNat_lt
  rw [thinReadPacketDataLength, readByte_eq (by omega), readByte_eq (by omega), ok_bind, ok_bind,
    pure_eq_ok, Nat.shiftLeft_eq, toSize_of_lt (show _ < _ by omega), toSize_of_lt (by omega),
    thinSize]
  by_cases hcarry : (packet.getD 3 0).toNat = 255
  · rw [if_pos hcarry, hcarry]
    exact congrArg Except.ok (mul_two_pow_or_two_pow _ 8)
  · rw [if_neg hcarry]
    exact congrArg Except.ok (mul_two_pow_or _ (by omega))

/-- **`ThinPacketizer_depacketize`**: it never reads outside the packet, and
it decides as `thinVerdict` does. -/
theorem depacketize_eq (self : Packetizer) (packetType : PacketType) (busId : Bus)
    (out : DepacketizeOut) (hsize : 16 ≤ w) (hw : packet.length < 2 ^ w) :
    depacketize w self packetType packet busId out =
      .ok ((thinVerdict packet).outcome out
        { out with
          destination := thinDestination packet
          dataOffset := 4
          dataSize := packet.length - 4 }) := by
  have hpow : 2 ^ 16 ≤ 2 ^ w := Nat.pow_le_pow_right (by decide) hsize
  simp only [depacketize, thinSpacePacketPrimaryHeaderSize]
  unfold thinVerdict
  by_cases hsmall : packet.length < 4
  · rw [if_pos hsmall, if_pos hsmall]
    rfl
  rw [if_neg hsmall, if_neg hsmall, thinReadPacketDataLength_eq (by omega) hsize, ok_bind]
  have hdeclared : thinSize packet < 2 ^ w := Nat.lt_of_lt_of_le (thinSize_lt packet) hpow
  by_cases hlen : 4 + thinSize packet = packet.length
  · rw [toSize_of_lt (by omega), if_neg (not_not_intro hlen.symm), if_neg (not_not_intro hlen),
      thinReadPacketId_eq (by omega), ← hlen, Nat.add_sub_cancel_left]
    rfl
  · have hsum : packet.length ≠ toSize w (4 + thinSize packet) := fun heq =>
      hlen (toSize_add_eq heq.symm hdeclared (by omega))
    rw [if_pos hsum, if_pos hlen]
    rfl

/-! ## round trip -/

/-- What `ThinPacketizer_depacketize` makes of a packet. -/
theorem depacketize_encodeThin (self : Packetizer) (p : SpacePacket) (packetType : PacketType)
    (busId : Bus) (out : DepacketizeOut) (hpos : 0 < p.data.length) (hdata : p.data.length ≤ 65536)
    (hsize : 16 ≤ w) (hw : p.data.length + 4 < 2 ^ w) :
    depacketize w self packetType p.encodeThin busId out =
      .ok (if p.data.length % 512 = 0 then (false, out.setErrorCode .incorrectPacketSize)
        else (true, { out with
          destination := UInt16.ofNat p.destination
          dataOffset := 4
          dataSize := p.data.length })) := by
  rw [depacketize_eq self packetType busId out hsize (by simpa using hw),
    thinVerdict_encodeThin hpos hdata, thinDestination_encodeThin]
  by_cases hlost : p.data.length % 512 = 0
  · simp [hlost, Verdict.outcome, DepacketizeOut.reject]
  · simp [hlost, Verdict.outcome]

/-- **Round trip**: data of a size the size field can carry reads back,
whatever the header bytes held, exactly if its size is not a multiple of
512. -/
theorem depacketize_packetize_iff_mod (self receiver : Packetizer)
    (packetType expectedType : PacketType) (sendBus receiveBus : Bus)
    (source destination : UInt16) (header data rest : List UInt8) (out : DepacketizeOut)
    (hsize : 16 ≤ w) (hdest : destination ≤ 2047) (hpos : 1 ≤ data.length)
    (hdata : data.length ≤ 65536) (hheader : header.length = 4)
    (hw : (header ++ (data ++ rest)).length < 2 ^ w) :
    ∃ sent outcome, packetize w self packetType sendBus source destination
        (header ++ (data ++ rest)) 4 data.length = .ok sent ∧
      depacketize w receiver expectedType (sent.buffer.take sent.packetSize) receiveBus out =
        .ok outcome ∧
      ((outcome = (true, { out with
          destination := destination
          dataOffset := 4
          dataSize := data.length }) ∧
        (sent.buffer.drop 4).take data.length = data) ↔ data.length % 512 ≠ 0) := by
  obtain ⟨p, -, -, rfl, hdest', -⟩ := SpacePacket.exists_of_fields packetType source data hdest
    (show (0 : UInt16) ≤ spacePacketMaxPacketSequenceCount by decide)
  have hlength : p.data.length + 4 < 2 ^ w := by
    simp only [List.length_append] at hw
    omega
  have hread := depacketize_encodeThin receiver p expectedType receiveBus out hpos hdata hsize
    hlength
  have htake : (p.encodeThin ++ rest).take p.encodeThin.length = p.encodeThin := List.take_left
  rw [← htake, ← hdest', UInt16.ofNat_toNat] at hread
  refine ⟨_, _, packetize_eq self p packetType sendBus source hdest' hpos (by omega) hheader
    hlength, hread, ?_⟩
  by_cases hlost : p.data.length % 512 = 0
  · simp [hlost]
  · rw [if_neg hlost]
    exact ⟨fun _ => hlost, fun _ => ⟨rfl, p.take_drop_encodeThin rest⟩⟩

/-- Three bytes in a buffer of ten. -/
theorem depacketize_packetize_iff_mod_three :
    ∃ sent outcome, packetize 16 ⟨0⟩ .telecommand () 0 2047
        (List.replicate 4 0xFF ++ ([1, 2, 3] ++ [7, 7, 7])) 4 3 = .ok sent ∧
      depacketize 16 ⟨0⟩ .telemetry (sent.buffer.take sent.packetSize) () ⟨0, 0, 0, 0, some 0⟩ =
        .ok outcome ∧
      ((outcome = (true, ⟨0, 2047, 4, 3, some 0⟩) ∧ (sent.buffer.drop 4).take 3 = [1, 2, 3]) ↔
        3 % 512 ≠ 0) :=
  depacketize_packetize_iff_mod ⟨0⟩ ⟨0⟩ .telecommand .telemetry () () 0 2047
    (List.replicate 4 0xFF) [1, 2, 3] [7, 7, 7] ⟨0, 0, 0, 0, some 0⟩ (by decide) (by decide)
    (by decide) (by decide) rfl (by decide)

/-- 512 bytes of data are packetized, and the packet is rejected for its
size: the size bytes are 1 and 255, which read as 256. -/
theorem depacketize_packetize_carry :
    ∃ sent, packetize 32 ⟨0⟩ .telemetry () 0 1
        (List.replicate 4 0 ++ (List.replicate 512 0 ++ [])) 4 512 = .ok sent ∧
      depacketize 32 ⟨0⟩ .telemetry (sent.buffer.take sent.packetSize) () ⟨0, 0, 0, 0, some 0⟩ =
        .ok (false, ⟨0, 0, 0, 0, some 3⟩) := by
  let p := SpacePacket.ofFields .telemetry 0 1 0 (List.replicate 512 0)
  have hlength : p.data.length = 512 := List.length_replicate
  have hsent : packetize 32 ⟨0⟩ .telemetry () 0 1
      (List.replicate 4 0 ++ (p.data ++ [])) 4 p.data.length =
        .ok ⟨p.encodeThin.length, ⟨0⟩, p.encodeThin ++ []⟩ :=
    packetize_eq ⟨0⟩ p .telemetry () 0 rfl (by omega) (by omega) List.length_replicate (by omega)
  rw [hlength] at hsent
  refine ⟨_, hsent, ?_⟩
  rw [List.take_left' rfl,
    depacketize_encodeThin ⟨0⟩ p .telemetry () _ (by omega) (by omega) (by decide) (by omega),
    if_pos (by omega)]
  rfl

/-! ## what the header tells -/

/-- The header carries the destination and the low 16 bits of the size. -/
theorem header_eq_iff {destination destination' : UInt16} (hpos : 1 ≤ dataSize)
    (hpos' : 1 ≤ dataSize') :
    toBytes 2 destination.toNat ++ toBytes 2 (dataSize - 1) =
        toBytes 2 destination'.toNat ++ toBytes 2 (dataSize' - 1) ↔
      destination = destination' ∧ dataSize % 65536 = dataSize' % 65536 := by
  have hlength : toBytes 2 (dataSize - 1) = toBytes 2 (dataSize' - 1) ↔
      dataSize % 65536 = dataSize' % 65536 := by
    rw [toBytes_eq_iff]
    omega
  rw [← toBytes_two_inj, ← hlength]
  constructor
  · intro h
    exact List.append_inj h (by simp)
  · rintro ⟨hfront, hback⟩
    rw [hfront, hback]

/-- **Two calls**: of two admitted calls, equal headers mean equal sizes
exactly if the destinations differ, the sizes differ modulo 65536, or the
sizes are the same. -/
theorem packetSize_eq_of_header_eq_iff (self self' : Packetizer)
    (packetType packetType' : PacketType) (busId busId' : Bus) (source source' : UInt16)
    (hdest : destination ≤ 2047) (hdest' : destination' ≤ 2047)
    (hpos : 1 ≤ dataSize) (hsize : dataSize < 4294967295)
    (hpos' : 1 ≤ dataSize') (hsize' : dataSize' < 4294967295)
    (hw : dataSize < 2 ^ w) (hw' : dataSize' < 2 ^ w)
    (hbuffer : 4 ≤ packet.length) (hbuffer' : 4 ≤ packet'.length) :
    ∃ sent sent',
      packetize w self packetType busId source destination packet 4 dataSize = .ok sent ∧
      packetize w self' packetType' busId' source' destination' packet' 4 dataSize' = .ok sent' ∧
      ((sent.buffer.take 4 = sent'.buffer.take 4 → sent.packetSize = sent'.packetSize) ↔
        destination ≠ destination' ∨ dataSize % 65536 ≠ dataSize' % 65536 ∨
          dataSize = dataSize') := by
  refine ⟨_, _, packetize_of_le self packetType busId source hdest hpos hsize hw hbuffer,
    packetize_of_le self' packetType' busId' source' hdest' hpos' hsize' hw' hbuffer', ?_⟩
  rw [List.take_left' (by simp), List.take_left' (by simp), header_eq_iff hpos hpos',
    toSize_add_left_inj hw hw']
  by_cases hdest : destination = destination' <;> simp [hdest, imp_iff_not_or]

/-- Sizes 1 and 2. -/
theorem packetSize_eq_of_header_eq_iff_one_two :
    ∃ sent sent',
      packetize 32 ⟨0⟩ .telemetry () 0 1 (List.replicate 5 0) 4 1 = .ok sent ∧
      packetize 32 ⟨0⟩ .telemetry () 0 1 (List.replicate 6 0) 4 2 = .ok sent' ∧
      ((sent.buffer.take 4 = sent'.buffer.take 4 → sent.packetSize = sent'.packetSize) ↔
        (1 : UInt16) ≠ 1 ∨ 1 % 65536 ≠ 2 % 65536 ∨ 1 = 2) :=
  packetSize_eq_of_header_eq_iff ⟨0⟩ ⟨0⟩ .telemetry .telemetry () () 0 0 (by decide) (by decide)
    (by decide) (by decide) (by decide) (by decide) (by decide) (by decide) (by decide) (by decide)

/-- A packet of 1 byte of data and one of 65537 have the same header. -/
theorem packetize_truncated :
    ∃ sent sent',
      packetize 32 ⟨0⟩ .telemetry () 0 1 (List.replicate 5 0) 4 1 = .ok sent ∧
      packetize 32 ⟨0⟩ .telemetry () 0 1 (List.replicate 65541 0) 4 65537 = .ok sent' ∧
      sent.buffer.take 4 = sent'.buffer.take 4 ∧ sent.packetSize ≠ sent'.packetSize := by
  have hlength (n : Nat) (h : 4 ≤ n) : 4 ≤ (List.replicate n (0 : UInt8)).length := by
    rwa [List.length_replicate]
  refine ⟨_, _, packetize_of_le ⟨0⟩ .telemetry () 0 (by decide) (by decide) (by decide)
    (by decide) (hlength 5 (by decide)), packetize_of_le ⟨0⟩ .telemetry () 0 (by decide)
    (by decide) (by decide) (by decide) (hlength 65541 (by decide)), ?_, by decide⟩
  dsimp only
  rw [List.take_left' (by simp), List.take_left' (by simp)]
  decide

end ThinPacketizer

end TasteRuntime
