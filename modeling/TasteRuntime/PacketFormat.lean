import TasteRuntime.SpacePacket
import TasteRuntime.Crc16
import TasteRuntime.IsoChecksum

/-!
# TasteRuntime.PacketFormat

What the packet formats are: a space packet as a value whose fields have the
widths of the wire format, and one encoding of it per format, field by field
in plain arithmetic.

```
default:  header (8)  data  source (2)  CRC (2)
strict:   header (6)  data  checksum (2)
thin:     header (4)  data
```

The default header puts its fields in an order of its own, from the low bit up:

```
byte 0:  version (3)  type (1)  secondary header flag (1)  destination high (3)
byte 2:  sequence flags (2)  sequence count high (6)
```

and spells the empty payload as the largest size field; the strict header has
the fields of the first three bytes from the high bit down.

The other direction is what a received byte string says in each format: the
fields a depacketizer reads, and the checks it makes in the order it makes
them, as a `Verdict`.
-/

namespace TasteRuntime

open BigEndian

/-- A space packet. -/
structure SpacePacket where
  packetType : PacketType
  source : UInt16
  destination : Fin (2 ^ 11)
  sequenceCount : Fin (2 ^ 14)
  data : List UInt8
  deriving DecidableEq, Repr

namespace SpacePacket

/-- The packet with these fields, its numbers cut to the widths of the format. -/
def ofFields (packetType : PacketType) (source : UInt16) (destination sequenceCount : Nat)
    (data : List UInt8) : SpacePacket where
  packetType := packetType
  source := source
  destination := Fin.ofNat _ destination
  sequenceCount := Fin.ofNat _ sequenceCount
  data := data

/-- Fields inside their widths are those of a packet. -/
theorem exists_of_fields (packetType : PacketType) (source : UInt16) (data : List UInt8)
    {destination count : UInt16} (hdest : destination ≤ spacePacketMaxApid)
    (hcount : count ≤ spacePacketMaxPacketSequenceCount) :
    ∃ p : SpacePacket, p.packetType = packetType ∧ p.source = source ∧ p.data = data ∧
      destination.toNat = p.destination.val ∧ count.toNat = p.sequenceCount.val :=
  ⟨ofFields packetType source destination.toNat count.toNat data, rfl, rfl, rfl,
    (Nat.mod_eq_of_lt (Nat.lt_succ_of_le (UInt16.le_iff_toNat_le.mp hdest))).symm,
    (Nat.mod_eq_of_lt (Nat.lt_succ_of_le (UInt16.le_iff_toNat_le.mp hcount))).symm⟩

theorem destination_le {p : SpacePacket} {destination : UInt16}
    (h : destination.toNat = p.destination.val) : destination ≤ spacePacketMaxApid := by
  have hlt := p.destination.isLt
  rw [UInt16.le_iff_toNat_le, h]
  exact Nat.le_of_lt_succ hlt

theorem sequenceCount_le {p : SpacePacket} {count : UInt16}
    (h : count.toNat = p.sequenceCount.val) : count ≤ spacePacketMaxPacketSequenceCount := by
  have hlt := p.sequenceCount.isLt
  rw [UInt16.le_iff_toNat_le, h]
  exact Nat.le_of_lt_succ hlt

/-! ## default format -/

/-- The size field of the default format; zero is spelled out of band. -/
def defaultSizeField (n : Nat) : Nat := if n = 0 then 2 ^ 32 - 1 else n - 1

/-- The header of the default format. -/
def defaultHeader (p : SpacePacket) : List UInt8 :=
  UInt8.ofNat (8 * p.packetType.toUInt8.toNat + 16 + 32 * (p.destination / 256)) ::
  UInt8.ofNat p.destination ::
  UInt8.ofNat (3 + 4 * (p.sequenceCount / 256)) ::
  UInt8.ofNat p.sequenceCount ::
  toBytes 4 (defaultSizeField p.data.length)

/-- The part of a default packet its CRC covers. -/
def defaultBody (p : SpacePacket) : List UInt8 := p.defaultHeader ++ p.data

/-- The default format. -/
def encodeDefault (p : SpacePacket) : List UInt8 :=
  p.defaultBody ++ (toBytes 2 p.source.toNat ++ toBytes 2 (calculateCrc16 p.defaultBody).toNat)

@[simp] theorem length_defaultHeader (p : SpacePacket) : p.defaultHeader.length = 8 := by
  simp [defaultHeader]

@[simp] theorem length_defaultBody (p : SpacePacket) :
    p.defaultBody.length = p.data.length + 8 := by
  simp [defaultBody, Nat.add_comm]

@[simp] theorem length_encodeDefault (p : SpacePacket) :
    p.encodeDefault.length = p.data.length + 12 := by
  simp [encodeDefault]

/-- The data of a packet behind its header. -/
theorem take_drop_encodeDefault (p : SpacePacket) (rest : List UInt8) :
    ((p.encodeDefault ++ rest).drop 8).take p.data.length = p.data := by
  rw [encodeDefault, defaultBody, List.append_assoc, List.append_assoc,
    List.drop_left' p.length_defaultHeader, List.take_left' rfl]

/-! ## strict CCSDS format -/

/-- The header of the strict format; its size field counts data and checksum,
less one, in 16 bits. -/
def strictHeader (p : SpacePacket) : List UInt8 :=
  UInt8.ofNat (16 * p.packetType.toUInt8.toNat + 8 + p.destination / 256) ::
  UInt8.ofNat p.destination ::
  UInt8.ofNat (192 + p.sequenceCount / 256) ::
  UInt8.ofNat p.sequenceCount ::
  toBytes 2 (p.data.length + 1)

/-- The part of a strict packet its checksum covers. -/
def strictBody (p : SpacePacket) : List UInt8 := p.strictHeader ++ p.data

/-- The strict format. -/
def encodeStrict (p : SpacePacket) : List UInt8 :=
  p.strictBody ++ toBytes 2 (IsoChecksum.calculate p.strictBody).toNat

@[simp] theorem length_strictHeader (p : SpacePacket) : p.strictHeader.length = 6 := by
  simp [strictHeader]

@[simp] theorem length_strictBody (p : SpacePacket) :
    p.strictBody.length = p.data.length + 6 := by
  simp [strictBody, Nat.add_comm]

@[simp] theorem length_encodeStrict (p : SpacePacket) :
    p.encodeStrict.length = p.data.length + 8 := by
  simp [encodeStrict]

theorem take_drop_encodeStrict (p : SpacePacket) (rest : List UInt8) :
    ((p.encodeStrict ++ rest).drop 6).take p.data.length = p.data := by
  rw [encodeStrict, strictBody, List.append_assoc, List.append_assoc,
    List.drop_left' p.length_strictHeader, List.take_left' rfl]

/-! ## thin format -/

/-- The header of the thin format, destination and size less one in 16 bits
each. -/
def thinHeader (p : SpacePacket) : List UInt8 :=
  toBytes 2 p.destination ++ toBytes 2 (p.data.length - 1)

/-- The thin format. -/
def encodeThin (p : SpacePacket) : List UInt8 := p.thinHeader ++ p.data

@[simp] theorem length_thinHeader (p : SpacePacket) : p.thinHeader.length = 4 := by
  simp [thinHeader]

@[simp] theorem length_encodeThin (p : SpacePacket) :
    p.encodeThin.length = p.data.length + 4 := by
  simp [encodeThin, Nat.add_comm]

theorem take_drop_encodeThin (p : SpacePacket) (rest : List UInt8) :
    ((p.encodeThin ++ rest).drop 4).take p.data.length = p.data := by
  rw [encodeThin, List.append_assoc, List.drop_left' p.length_thinHeader, List.take_left' rfl]

end SpacePacket

/-! ## what a received default packet says -/

namespace PacketFormat

open CMemory SpacePacket

/-- The size a size field of the default format declares. -/
def declaredSize (field : Nat) : Nat := if field = 2 ^ 32 - 1 then 0 else field + 1

/-- The size declared by the header. -/
def defaultSize (packet : List UInt8) : Nat := declaredSize (ofBytes ((packet.drop 4).take 4))

/-- The packet type bit. -/
def defaultType (packet : List UInt8) : Nat := (packet.getD 0 0).toNat / 8 % 2

/-- The application process ID. -/
def defaultDestination (packet : List UInt8) : UInt16 :=
  UInt16.ofNat ((packet.getD 0 0).toNat / 32 * 256 + (packet.getD 1 0).toNat)

/-- The sender PID, right behind the data. -/
def defaultSource (packet : List UInt8) : UInt16 := wordAt packet (packet.length - 4)

theorem defaultSize_lt (packet : List UInt8) : defaultSize packet < 2 ^ 32 := by
  have hlength : ((packet.drop 4).take 4).length ≤ 4 := by
    rw [List.length_take]
    omega
  have hfield : ofBytes ((packet.drop 4).take 4) < 256 ^ 4 :=
    Nat.lt_of_lt_of_le (ofBytes_lt _) (Nat.pow_le_pow_right (by decide) hlength)
  unfold defaultSize declaredSize
  split <;> omega

/-- The size field is inside the header. -/
theorem defaultSize_take (h : 8 ≤ k) (packet : List UInt8) :
    defaultSize (packet.take k) = defaultSize packet := by
  rw [defaultSize, defaultSize, List.drop_take, List.take_take, Nat.min_eq_left (by omega)]

/-- The packet type is inside the first byte. -/
theorem defaultType_take (h : 0 < k) (packet : List UInt8) :
    defaultType (packet.take k) = defaultType packet := by
  simp only [defaultType, List.getD_eq_getElem?_getD, List.getElem?_take_of_lt h]

/-- The checks of `Packetizer_depacketize`; the declared size is read into a
`size_t` of `w` bits. -/
def defaultVerdict (w : Nat) (packetType : PacketType) (packet : List UInt8) : Verdict :=
  if packet.length < 12 then .reject (some .packetTooSmall)
  else if toSize w (defaultSize packet) + 12 ≠ packet.length then
    .reject (some .incorrectPacketSize)
  else if wordAt packet (packet.length - 2) ≠ calculateCrc16 (packet.take (packet.length - 4)) then
    .reject (some .incorrectCrc16)
  else if defaultType packet ≠ packetType.toUInt8.toNat then .reject (some .incorrectPacketType)
  else .accept

/-- The checks an accepted packet passes. -/
theorem defaultVerdict_eq_accept_iff {packetType : PacketType} :
    defaultVerdict w packetType packet = .accept ↔
      12 ≤ packet.length ∧ toSize w (defaultSize packet) + 12 = packet.length ∧
      wordAt packet (packet.length - 2) = calculateCrc16 (packet.take (packet.length - 4)) ∧
      defaultType packet = packetType.toUInt8.toNat := by
  unfold defaultVerdict
  split_ifs with hsmall hsize hcrc htype
  · simp [Nat.not_le.mpr hsmall]
  · simp [hsize]
  · simp [hcrc]
  · simp [htype]
  · simp_all

/-- An accepted packet has room for its header and trailer. -/
theorem le_length_of_defaultVerdict {packetType : PacketType}
    (h : defaultVerdict w packetType packet = .accept) :
    12 ≤ packet.length := by
  by_contra hsmall
  rw [defaultVerdict, if_pos (Nat.lt_of_not_le hsmall)] at h
  contradiction

theorem declaredSize_defaultSizeField (h : n < 2 ^ 32 - 1) :
    declaredSize (defaultSizeField n) = n := by
  unfold declaredSize defaultSizeField
  by_cases hzero : n = 0
  · simp [hzero]
  · rw [if_neg hzero, if_neg (by omega)]
    omega

theorem defaultSizeField_lt (h : n < 2 ^ 32 - 1) : defaultSizeField n < 2 ^ 32 := by
  unfold defaultSizeField
  split <;> omega

theorem defaultSize_encodeDefault {p : SpacePacket} (h : p.data.length < 2 ^ 32 - 1) :
    defaultSize p.encodeDefault = p.data.length := by
  have hfield : (p.encodeDefault.drop 4).take 4 = toBytes 4 (defaultSizeField p.data.length) := by
    simp [encodeDefault, defaultBody, defaultHeader]
  rw [defaultSize, hfield, ofBytes_toBytes_of_lt 4 (defaultSizeField_lt h),
    declaredSize_defaultSizeField h]

theorem defaultType_encodeDefault (p : SpacePacket) :
    defaultType p.encodeDefault = p.packetType.toUInt8.toNat := by
  have hbyte : p.encodeDefault.getD 0 0 =
    UInt8.ofNat (8 * p.packetType.toUInt8.toNat + 16 + 32 * (p.destination / 256)) := rfl
  have hdest := p.destination.isLt
  have htype := p.packetType.toNat_toUInt8_lt
  rw [defaultType, hbyte, UInt8.toNat_ofNat']
  omega

theorem defaultDestination_encodeDefault (p : SpacePacket) :
    defaultDestination p.encodeDefault = UInt16.ofNat p.destination := by
  have hbyte0 : p.encodeDefault.getD 0 0 =
    UInt8.ofNat (8 * p.packetType.toUInt8.toNat + 16 + 32 * (p.destination / 256)) := rfl
  have hbyte1 : p.encodeDefault.getD 1 0 = UInt8.ofNat p.destination := rfl
  have hdest := p.destination.isLt
  have htype := p.packetType.toNat_toUInt8_lt
  rw [defaultDestination, hbyte0, hbyte1, UInt8.toNat_ofNat', UInt8.toNat_ofNat']
  congr 1
  omega

theorem defaultSource_encodeDefault (p : SpacePacket) :
    defaultSource p.encodeDefault = p.source :=
  wordAt_append p.source (by simp)

/-- A packet with the type the receiver expects is accepted, and a packet with
the other type is rejected for its type. -/
theorem defaultVerdict_encodeDefault {p : SpacePacket} (packetType : PacketType)
    (h : p.data.length < 2 ^ 32 - 1) (hw : p.data.length + 12 < 2 ^ w) :
    defaultVerdict w packetType p.encodeDefault =
      if p.packetType = packetType then .accept else .reject (some .incorrectPacketType) := by
  have hcrc : wordAt p.encodeDefault (p.encodeDefault.length - 2) =
      calculateCrc16 (p.encodeDefault.take (p.encodeDefault.length - 4)) := by
    have htake : p.encodeDefault.take (p.encodeDefault.length - 4) = p.defaultBody := by
      rw [encodeDefault, List.take_left' (by simp)]
    rw [htake, encodeDefault, ← List.append_assoc, ← List.append_nil (toBytes 2 _)]
    exact wordAt_append _ (by simp)
  rw [defaultVerdict, if_neg (by simp), defaultSize_encodeDefault h, toSize_of_lt (by omega),
    if_neg (by simp), if_neg (not_not_intro hcrc), defaultType_encodeDefault]
  by_cases htype : p.packetType = packetType
  · simp [htype]
  · rw [if_pos (mt PacketType.toNat_toUInt8_inj.mp htype), if_neg htype]

/-! ## what a received strict packet says -/

/-- The size declared by the header, data and checksum together. -/
def strictSize (packet : List UInt8) : Nat := (wordAt packet 4).toNat + 1

/-- The packet type bit. -/
def strictType (packet : List UInt8) : Nat := (packet.getD 0 0).toNat / 16 % 2

/-- The application process ID. -/
def strictDestination (packet : List UInt8) : UInt16 :=
  UInt16.ofNat ((packet.getD 0 0).toNat % 8 * 256 + (packet.getD 1 0).toNat)

/-- The checks of `CCSDS_Packetizer_depacketize`; the first has no error code. -/
def strictVerdict (packetType : PacketType) (packet : List UInt8) : Verdict :=
  if packet.length ≤ 8 then .reject none
  else if 6 + strictSize packet ≠ packet.length then .reject (some .incorrectPacketSize)
  else if wordAt packet (packet.length - 2) ≠
      IsoChecksum.calculate (packet.take (packet.length - 2)) then
    .reject (some .incorrectCrc16)
  else if strictType packet ≠ packetType.toUInt8.toNat then .reject (some .incorrectPacketType)
  else .accept

/-- The checks an accepted packet passes. -/
theorem strictVerdict_eq_accept_iff {packetType : PacketType} :
    strictVerdict packetType packet = .accept ↔
      8 < packet.length ∧ 6 + strictSize packet = packet.length ∧
      wordAt packet (packet.length - 2) =
        IsoChecksum.calculate (packet.take (packet.length - 2)) ∧
      strictType packet = packetType.toUInt8.toNat := by
  unfold strictVerdict
  split_ifs with hsmall hsize hsum htype
  · simp [Nat.not_lt.mpr hsmall]
  · simp [hsize]
  · simp [hsum]
  · simp [htype]
  · simp_all

/-- An accepted packet has room for its header, some data and its trailer. -/
theorem lt_length_of_strictVerdict {packetType : PacketType}
    (h : strictVerdict packetType packet = .accept) :
    8 < packet.length := by
  by_contra hsmall
  rw [strictVerdict, if_pos (Nat.le_of_not_lt hsmall)] at h
  contradiction

theorem strictSize_encodeStrict (p : SpacePacket) :
    strictSize p.encodeStrict = (p.data.length + 1) % 65536 + 1 := by
  have hfield : (wordAt p.encodeStrict 4).toNat =
    (UInt8.ofNat ((p.data.length + 1) / 256)).toNat * 256 +
      (UInt8.ofNat (p.data.length + 1)).toNat := toNat_wordAt _ _
  rw [strictSize, hfield, UInt8.toNat_ofNat', UInt8.toNat_ofNat']
  omega

theorem strictType_encodeStrict (p : SpacePacket) :
    strictType p.encodeStrict = p.packetType.toUInt8.toNat := by
  have hbyte : p.encodeStrict.getD 0 0 =
    UInt8.ofNat (16 * p.packetType.toUInt8.toNat + 8 + p.destination / 256) := rfl
  have hdest := p.destination.isLt
  have htype := p.packetType.toNat_toUInt8_lt
  rw [strictType, hbyte, UInt8.toNat_ofNat']
  omega

theorem strictDestination_encodeStrict (p : SpacePacket) :
    strictDestination p.encodeStrict = UInt16.ofNat p.destination := by
  have hbyte0 : p.encodeStrict.getD 0 0 =
    UInt8.ofNat (16 * p.packetType.toUInt8.toNat + 8 + p.destination / 256) := rfl
  have hbyte1 : p.encodeStrict.getD 1 0 = UInt8.ofNat p.destination := rfl
  have hdest := p.destination.isLt
  have htype := p.packetType.toNat_toUInt8_lt
  rw [strictDestination, hbyte0, hbyte1, UInt8.toNat_ofNat', UInt8.toNat_ofNat']
  congr 1
  omega

/-- Data and checksum must not reach 2^16 + 1 bytes, since the size field then
starts over. -/
theorem strictVerdict_encodeStrict {p : SpacePacket} (packetType : PacketType)
    (hpos : 0 < p.data.length) (h : p.data.length < 65536) :
    strictVerdict packetType p.encodeStrict =
      if p.data.length = 65535 then .reject (some .incorrectPacketSize)
      else if p.packetType = packetType then .accept
      else .reject (some .incorrectPacketType) := by
  have hsum : wordAt p.encodeStrict (p.encodeStrict.length - 2) =
      IsoChecksum.calculate (p.encodeStrict.take (p.encodeStrict.length - 2)) := by
    have htake : p.encodeStrict.take (p.encodeStrict.length - 2) = p.strictBody := by
      rw [encodeStrict, List.take_left' (by simp)]
    rw [htake, encodeStrict, ← List.append_nil (toBytes 2 _)]
    exact wordAt_append _ (by simp)
  rw [strictVerdict, if_neg (by rw [length_encodeStrict]; omega), strictSize_encodeStrict,
    length_encodeStrict]
  by_cases hmax : p.data.length = 65535
  · rw [if_pos (by omega), if_pos hmax]
  · rw [if_neg (by omega), if_neg hmax, ← length_encodeStrict p, if_neg (not_not_intro hsum),
      strictType_encodeStrict]
    by_cases htype : p.packetType = packetType
    · simp [htype]
    · rw [if_pos (mt PacketType.toNat_toUInt8_inj.mp htype), if_neg htype]

/-! ## what a received thin packet says -/

/-- The size declared by the header, as the source puts it together: the
low byte plus one is or-ed to the high byte, so a carry out of the low byte is
lost when the high byte is odd. -/
def thinSize (packet : List UInt8) : Nat :=
  let high := (packet.getD 2 0).toNat
  let low := (packet.getD 3 0).toNat
  if low = 255 then (high / 2 * 2 + 1) * 256 else high * 256 + (low + 1)

theorem thinSize_lt (packet : List UInt8) : thinSize packet < 2 ^ 16 := by
  have hhigh := (packet.getD 2 0).toNat_lt
  have hlow := (packet.getD 3 0).toNat_lt
  rw [thinSize]
  by_cases hcarry : (packet.getD 3 0).toNat = 255
  · rw [if_pos hcarry]
    omega
  · rw [if_neg hcarry]
    omega

/-- The destination, 16 bits of it. -/
def thinDestination (packet : List UInt8) : UInt16 := wordAt packet 0

/-- The checks of `ThinPacketizer_depacketize`; the first has no error code. -/
def thinVerdict (packet : List UInt8) : Verdict :=
  if packet.length < 4 then .reject none
  else if 4 + thinSize packet ≠ packet.length then .reject (some .incorrectPacketSize)
  else .accept

/-- An accepted packet has room for its header. -/
theorem le_length_of_thinVerdict (h : thinVerdict packet = .accept) : 4 ≤ packet.length := by
  by_contra hsmall
  rw [thinVerdict, if_pos (Nat.lt_of_not_le hsmall)] at h
  contradiction

theorem thinDestination_encodeThin (p : SpacePacket) :
    thinDestination p.encodeThin = UInt16.ofNat p.destination := by
  have hdest := p.destination.isLt
  show UInt16.ofNat (ofBytes (toBytes 2 p.destination)) = UInt16.ofNat p.destination
  rw [ofBytes_toBytes_of_lt 2 (by omega)]

/-- The size of a packet reads back unless it is a multiple of 512. -/
theorem thinVerdict_encodeThin {p : SpacePacket} (hpos : 0 < p.data.length)
    (h : p.data.length ≤ 65536) :
    thinVerdict p.encodeThin =
      if p.data.length % 512 = 0 then .reject (some .incorrectPacketSize) else .accept := by
  have hhigh : p.encodeThin.getD 2 0 = UInt8.ofNat ((p.data.length - 1) / 256) := rfl
  have hlow : p.encodeThin.getD 3 0 = UInt8.ofNat (p.data.length - 1) := rfl
  rw [thinVerdict, if_neg (by simp), thinSize, hhigh, hlow, UInt8.toNat_ofNat',
    UInt8.toNat_ofNat', length_encodeThin]
  -- the low byte of the size field is 255 for the multiples of 256
  by_cases hcarry : (p.data.length - 1) % 2 ^ 8 = 255
  · by_cases hlost : p.data.length % 512 = 0
    · rw [if_pos hcarry, if_pos hlost, if_pos (by omega)]
    · rw [if_pos hcarry, if_neg hlost, if_neg (by omega)]
  · rw [if_neg hcarry, if_neg (by omega), if_neg (by omega)]

end PacketFormat

end TasteRuntime
