import TasteRuntime.Packetizer
import TasteRuntime.CCSDSPacketizer
import TasteRuntime.ThinPacketizer

/-!
# TasteRuntime.Accepted

What an accepted packet is.  Header, data and trailer of it fill the received
bytes exactly (`depacketize_fields`), and if the bits no field is read from
are the ones a packetizer writes, it *is* the encoding of its fields
(`encodeDefault_defaultPacket`, `encodeStrict_strictPacket`), so that
packetizing these again reproduces it, where `size_t` holds the size it
declares (`packetize_depacketize`).
-/

namespace TasteRuntime

open CMemory BigEndian PacketFormat

/-! ## fields and bytes -/

/-- **Bounds**: none of the three depacketize functions reads outside the
received bytes, and what one of them accepts consists of header, data and
trailer; a `size_t` of 32 bits or more holds the size the default header
declares. -/
theorem depacketize_fields (self : Packetizer) (packetType : PacketType) (busId : Bus)
    (out : DepacketizeOut) (packet : List UInt8) (hsize : 16 ≤ w) (hw : packet.length < 2 ^ w) :
    (∃ outcome, Packetizer.depacketize w self packetType packet busId out = .ok outcome ∧
      (outcome.1 = true → outcome.2.dataOffset + outcome.2.dataSize + 4 = packet.length ∧
        (32 ≤ w → outcome.2.dataSize = defaultSize packet))) ∧
    (∃ outcome, CCSDSPacketizer.depacketize w self packetType packet busId out = .ok outcome ∧
      (outcome.1 = true → outcome.2.dataOffset + outcome.2.dataSize + 2 = packet.length)) ∧
    (∃ outcome, ThinPacketizer.depacketize w self packetType packet busId out = .ok outcome ∧
      (outcome.1 = true → outcome.2.dataOffset + outcome.2.dataSize = packet.length)) := by
  refine ⟨⟨_, Packetizer.depacketize_eq self packetType busId out hw, fun haccept => ?_⟩,
    ⟨_, CCSDSPacketizer.depacketize_eq self packetType busId out hsize hw, fun haccept => ?_⟩,
    ⟨_, ThinPacketizer.depacketize_eq self packetType busId out hsize hw, fun haccept => ?_⟩⟩
  · rw [Verdict.outcome_fst_eq_true_iff] at haccept
    obtain ⟨hle, hdeclared, -, -⟩ := defaultVerdict_eq_accept_iff.mp haccept
    rw [haccept]
    simp only [Verdict.outcome]
    refine ⟨by omega, fun hwide => ?_⟩
    have hpow : 2 ^ 32 ≤ 2 ^ w := Nat.pow_le_pow_right (by decide) hwide
    rw [toSize_of_lt (Nat.lt_of_lt_of_le (defaultSize_lt packet) hpow)] at hdeclared
    omega
  · rw [Verdict.outcome_fst_eq_true_iff] at haccept
    have hlt := lt_length_of_strictVerdict haccept
    rw [haccept]
    simp only [Verdict.outcome]
    omega
  · rw [Verdict.outcome_fst_eq_true_iff] at haccept
    have hle := le_length_of_thinVerdict haccept
    rw [haccept]
    simp only [Verdict.outcome]
    omega

/-- Thirteen bytes whose size field declares 2^16 + 1 bytes of data, on a
target of 16 bits. -/
theorem depacketize_fields_wrapped :
    (∃ outcome, Packetizer.depacketize 16 ⟨0⟩ .telemetry
        [0x10, 1, 3, 5, 0, 1, 0, 0, 7, 0, 9, 0x91, 0x8F] () ⟨0, 0, 0, 0, some 0⟩ = .ok outcome ∧
      (outcome.1 = true → outcome.2.dataOffset + outcome.2.dataSize + 4 = 13 ∧
        (32 ≤ 16 → outcome.2.dataSize =
          defaultSize [0x10, 1, 3, 5, 0, 1, 0, 0, 7, 0, 9, 0x91, 0x8F]))) ∧
    (∃ outcome, CCSDSPacketizer.depacketize 16 ⟨0⟩ .telemetry
        [0x10, 1, 3, 5, 0, 1, 0, 0, 7, 0, 9, 0x91, 0x8F] () ⟨0, 0, 0, 0, some 0⟩ = .ok outcome ∧
      (outcome.1 = true → outcome.2.dataOffset + outcome.2.dataSize + 2 = 13)) ∧
    (∃ outcome, ThinPacketizer.depacketize 16 ⟨0⟩ .telemetry
        [0x10, 1, 3, 5, 0, 1, 0, 0, 7, 0, 9, 0x91, 0x8F] () ⟨0, 0, 0, 0, some 0⟩ = .ok outcome ∧
      (outcome.1 = true → outcome.2.dataOffset + outcome.2.dataSize = 13)) :=
  depacketize_fields ⟨0⟩ .telemetry () ⟨0, 0, 0, 0, some 0⟩
    [0x10, 1, 3, 5, 0, 1, 0, 0, 7, 0, 9, 0x91, 0x8F] (by decide) (by decide)

/-! ## bytes and what is read from them -/

namespace PacketFormat

/-- A byte is told by its number. -/
theorem ofNat_eq_byte {b : UInt8} (h : n % 256 = b.toNat) : UInt8.ofNat n = b := by
  apply UInt8.toNat_inj.mp
  rw [UInt8.toNat_ofNat', h]

theorem toNat_ofNat_two_bytes (h : high < 256) (low : UInt8) :
    (UInt16.ofNat (high * 256 + low.toNat)).toNat = high * 256 + low.toNat := by
  have hlow := low.toNat_lt
  rw [UInt16.toNat_ofNat', Nat.mod_eq_of_lt (by omega)]

/-- The four bytes in front of a byte string. -/
theorem take_add_four {bytes : List UInt8} (n : Nat) (h : 4 ≤ bytes.length) :
    bytes.take (4 + n) = bytes.getD 0 0 :: bytes.getD 1 0 :: bytes.getD 2 0 :: bytes.getD 3 0 ::
      (bytes.drop 4).take n := by
  match bytes, h with
  | b0 :: b1 :: b2 :: b3 :: tail, _ => rw [Nat.add_comm]; rfl

/-- A byte string is what stands in front, between and behind two places. -/
theorem take_append_take_append_drop (bytes : List UInt8) (n k : Nat) :
    bytes.take n ++ ((bytes.drop n).take k ++ bytes.drop (n + k)) = bytes := by
  rw [← List.drop_drop, List.take_append_drop, List.take_append_drop]

/-! ## default packets with the fixed bits of a packetizer -/

/-- The packet sequence count, behind the two sequence flags. -/
def defaultSequenceCount (packet : List UInt8) : UInt16 :=
  UInt16.ofNat ((packet.getD 2 0).toNat / 4 * 256 + (packet.getD 3 0).toNat)

/-- Version 0, the secondary header flag 1 and both sequence flags 1. -/
def DefaultCanonical (packet : List UInt8) : Prop :=
  (packet.getD 0 0).toNat % 8 = 0 ∧ (packet.getD 0 0).toNat / 16 % 2 = 1 ∧
    (packet.getD 2 0).toNat % 4 = 3

instance (packet : List UInt8) : Decidable (DefaultCanonical packet) :=
  inferInstanceAs (Decidable (_ ∧ _ ∧ _))

/-- What a default packet says. -/
def defaultPacket (packetType : PacketType) (packet : List UInt8) : SpacePacket :=
  .ofFields packetType (defaultSource packet) (defaultDestination packet).toNat
    (defaultSequenceCount packet).toNat ((packet.drop 8).take (packet.length - 12))

theorem length_data_defaultPacket (packetType : PacketType) (packet : List UInt8) :
    (defaultPacket packetType packet).data.length = packet.length - 12 := by
  rw [defaultPacket, SpacePacket.ofFields, List.length_take, List.length_drop]
  omega

theorem toNat_defaultDestination (packet : List UInt8) :
    (defaultDestination packet).toNat =
      (packet.getD 0 0).toNat / 32 * 256 + (packet.getD 1 0).toNat :=
  toNat_ofNat_two_bytes (Nat.lt_of_le_of_lt (Nat.div_le_self _ _) (UInt8.toNat_lt _)) _

theorem toNat_defaultSequenceCount (packet : List UInt8) :
    (defaultSequenceCount packet).toNat =
      (packet.getD 2 0).toNat / 4 * 256 + (packet.getD 3 0).toNat :=
  toNat_ofNat_two_bytes (Nat.lt_of_le_of_lt (Nat.div_le_self _ _) (UInt8.toNat_lt _)) _

theorem defaultPacket_destination (packetType : PacketType) (packet : List UInt8) :
    (defaultDestination packet).toNat = (defaultPacket packetType packet).destination.val := by
  have h0 := (packet.getD 0 0).toNat_lt
  have h1 := (packet.getD 1 0).toNat_lt
  refine (Nat.mod_eq_of_lt ?_).symm
  rw [toNat_defaultDestination]
  omega

theorem defaultPacket_sequenceCount (packetType : PacketType) (packet : List UInt8) :
    (defaultSequenceCount packet).toNat =
      (defaultPacket packetType packet).sequenceCount.val := by
  have h2 := (packet.getD 2 0).toNat_lt
  have h3 := (packet.getD 3 0).toNat_lt
  refine (Nat.mod_eq_of_lt ?_).symm
  rw [toNat_defaultSequenceCount]
  omega

/-- Every size field is the spelling of what it declares. -/
theorem defaultSizeField_declaredSize (field : Nat) :
    SpacePacket.defaultSizeField (declaredSize field) = field := by
  unfold declaredSize SpacePacket.defaultSizeField
  by_cases hempty : field = 2 ^ 32 - 1
  · rw [if_pos hempty, if_pos rfl, hempty]
  · rw [if_neg hempty, if_neg (Nat.succ_ne_zero _), Nat.add_sub_cancel]

/-- The header of what a canonical packet says is its header. -/
theorem defaultHeader_defaultPacket {packetType : PacketType} (hle : 12 ≤ packet.length)
    (hsize : defaultSize packet + 12 = packet.length)
    (htype : defaultType packet = packetType.toUInt8.toNat) (hcanonical : DefaultCanonical packet) :
    (defaultPacket packetType packet).defaultHeader = packet.take 8 := by
  obtain ⟨hversion, hflag, hsequence⟩ := hcanonical
  have hdest := toNat_defaultDestination packet
  have hcount := toNat_defaultSequenceCount packet
  rw [defaultPacket_destination packetType] at hdest
  rw [defaultPacket_sequenceCount packetType] at hcount
  have hdata : (defaultPacket packetType packet).data.length = defaultSize packet := by
    rw [length_data_defaultPacket]
    omega
  have hfield : toBytes 4 (SpacePacket.defaultSizeField (defaultSize packet)) =
      (packet.drop 4).take 4 := by
    have hspelled := toBytes_ofBytes ((packet.drop 4).take 4)
    rw [List.length_take_of_le (by rw [List.length_drop]; omega)] at hspelled
    rw [defaultSize, defaultSizeField_declaredSize, hspelled]
  have htype' : (defaultPacket packetType packet).packetType.toUInt8.toNat =
      (packet.getD 0 0).toNat / 8 % 2 := htype.symm
  rw [SpacePacket.defaultHeader, hdata, hfield, take_add_four 4 (by omega), htype', hdest, hcount]
  have h0 := (packet.getD 0 0).toNat_lt
  have h1 := (packet.getD 1 0).toNat_lt
  have h2 := (packet.getD 2 0).toNat_lt
  have h3 := (packet.getD 3 0).toNat_lt
  congr 1
  · exact ofNat_eq_byte (by omega)
  congr 1
  · exact ofNat_eq_byte (by omega)
  congr 1
  · exact ofNat_eq_byte (by omega)
  congr 1
  exact ofNat_eq_byte (by omega)

/-- **Soundness**: a canonical packet that is accepted is the encoding of what
it says, provided `size_t` holds the size it declares. -/
theorem encodeDefault_defaultPacket {packetType : PacketType}
    (haccept : defaultVerdict w packetType packet = .accept) (hcanonical : DefaultCanonical packet)
    (hdeclared : defaultSize packet < 2 ^ w) :
    (defaultPacket packetType packet).encodeDefault = packet := by
  obtain ⟨hle, hsize, hcrc, htype⟩ := defaultVerdict_eq_accept_iff.mp haccept
  rw [toSize_of_lt hdeclared] at hsize
  have hbody : (defaultPacket packetType packet).defaultBody = packet.take (packet.length - 4) := by
    rw [SpacePacket.defaultBody, defaultHeader_defaultPacket hle hsize htype hcanonical,
      show packet.length - 4 = 8 + (packet.length - 12) by omega, List.take_add]
    rfl
  have hsource : toBytes 2 (defaultSource packet).toNat =
      (packet.drop (packet.length - 4)).take 2 := toBytes_wordAt (by omega)
  have htrailer : toBytes 2 (calculateCrc16 (packet.take (packet.length - 4))).toNat =
      packet.drop (packet.length - 4 + 2) := by
    rw [← hcrc, toBytes_wordAt (by omega), List.take_of_length_le (by rw [List.length_drop]; omega),
      show packet.length - 4 + 2 = packet.length - 2 by omega]
  rw [SpacePacket.encodeDefault, hbody, htrailer]
  show _ ++ (toBytes 2 (defaultSource packet).toNat ++ _) = packet
  rw [hsource, take_append_take_append_drop]

/-! ## strict packets with the fixed bits of a packetizer -/

/-- The packet sequence count, behind the two sequence flags. -/
def strictSequenceCount (packet : List UInt8) : UInt16 :=
  UInt16.ofNat ((packet.getD 2 0).toNat % 64 * 256 + (packet.getD 3 0).toNat)

/-- Version 0, the secondary header flag 1 and both sequence flags 1. -/
def StrictCanonical (packet : List UInt8) : Prop :=
  (packet.getD 0 0).toNat / 32 = 0 ∧ (packet.getD 0 0).toNat / 8 % 2 = 1 ∧
    (packet.getD 2 0).toNat / 64 = 3

instance (packet : List UInt8) : Decidable (StrictCanonical packet) :=
  inferInstanceAs (Decidable (_ ∧ _ ∧ _))

/-- What a strict packet says; it names no source. -/
def strictPacket (packetType : PacketType) (source : UInt16) (packet : List UInt8) :
    SpacePacket :=
  .ofFields packetType source (strictDestination packet).toNat
    (strictSequenceCount packet).toNat ((packet.drop 6).take (packet.length - 8))

theorem length_data_strictPacket (packetType : PacketType) (source : UInt16)
    (packet : List UInt8) :
    (strictPacket packetType source packet).data.length = packet.length - 8 := by
  rw [strictPacket, SpacePacket.ofFields, List.length_take, List.length_drop]
  omega

theorem toNat_strictDestination (packet : List UInt8) :
    (strictDestination packet).toNat =
      (packet.getD 0 0).toNat % 8 * 256 + (packet.getD 1 0).toNat :=
  toNat_ofNat_two_bytes (Nat.lt_of_lt_of_le (Nat.mod_lt _ (by decide)) (by decide)) _

theorem toNat_strictSequenceCount (packet : List UInt8) :
    (strictSequenceCount packet).toNat =
      (packet.getD 2 0).toNat % 64 * 256 + (packet.getD 3 0).toNat :=
  toNat_ofNat_two_bytes (Nat.lt_of_lt_of_le (Nat.mod_lt _ (by decide)) (by decide)) _

theorem strictPacket_destination (packetType : PacketType) (source : UInt16)
    (packet : List UInt8) :
    (strictDestination packet).toNat = (strictPacket packetType source packet).destination.val := by
  have h1 := (packet.getD 1 0).toNat_lt
  refine (Nat.mod_eq_of_lt ?_).symm
  rw [toNat_strictDestination]
  omega

theorem strictPacket_sequenceCount (packetType : PacketType) (source : UInt16)
    (packet : List UInt8) :
    (strictSequenceCount packet).toNat =
      (strictPacket packetType source packet).sequenceCount.val := by
  have h3 := (packet.getD 3 0).toNat_lt
  refine (Nat.mod_eq_of_lt ?_).symm
  rw [toNat_strictSequenceCount]
  omega

/-- The header of what a canonical packet says is its header. -/
theorem strictHeader_strictPacket {packetType : PacketType} (source : UInt16)
    (hlt : 8 < packet.length) (hsize : 6 + strictSize packet = packet.length)
    (htype : strictType packet = packetType.toUInt8.toNat) (hcanonical : StrictCanonical packet) :
    (strictPacket packetType source packet).strictHeader = packet.take 6 := by
  obtain ⟨hversion, hflag, hsequence⟩ := hcanonical
  have hdest := toNat_strictDestination packet
  have hcount := toNat_strictSequenceCount packet
  rw [strictPacket_destination packetType source] at hdest
  rw [strictPacket_sequenceCount packetType source] at hcount
  have hdata : (strictPacket packetType source packet).data.length + 1 =
      (wordAt packet 4).toNat := by
    rw [strictSize] at hsize
    rw [length_data_strictPacket]
    omega
  have htype' : (strictPacket packetType source packet).packetType.toUInt8.toNat =
      (packet.getD 0 0).toNat / 16 % 2 := htype.symm
  rw [SpacePacket.strictHeader, hdata, toBytes_wordAt (by omega), take_add_four 2 (by omega),
    htype', hdest, hcount]
  have h0 := (packet.getD 0 0).toNat_lt
  have h1 := (packet.getD 1 0).toNat_lt
  have h2 := (packet.getD 2 0).toNat_lt
  have h3 := (packet.getD 3 0).toNat_lt
  congr 1
  · exact ofNat_eq_byte (by omega)
  congr 1
  · exact ofNat_eq_byte (by omega)
  congr 1
  · exact ofNat_eq_byte (by omega)
  congr 1
  exact ofNat_eq_byte (by omega)

/-- **Soundness**: a canonical packet that is accepted is the encoding of what
it says. -/
theorem encodeStrict_strictPacket {packetType : PacketType} (source : UInt16)
    (haccept : strictVerdict packetType packet = .accept) (hcanonical : StrictCanonical packet) :
    (strictPacket packetType source packet).encodeStrict = packet := by
  obtain ⟨hlt, hsize, hsum, htype⟩ := strictVerdict_eq_accept_iff.mp haccept
  have hbody : (strictPacket packetType source packet).strictBody =
      packet.take (packet.length - 2) := by
    rw [SpacePacket.strictBody, strictHeader_strictPacket source hlt hsize htype hcanonical,
      show packet.length - 2 = 6 + (packet.length - 8) by omega, List.take_add]
    rfl
  have htrailer : toBytes 2 (IsoChecksum.calculate (packet.take (packet.length - 2))).toNat =
      packet.drop (packet.length - 2) := by
    rw [← hsum, toBytes_wordAt (by omega), List.take_of_length_le (by rw [List.length_drop]; omega)]
  rw [SpacePacket.encodeStrict, hbody, htrailer, List.take_append_drop]

end PacketFormat

/-! ## packetizing what was accepted -/

/-- The data of an accepted packet. -/
def DepacketizeOut.payload (accepted : DepacketizeOut) (packet : List UInt8) : List UInt8 :=
  (packet.drop accepted.dataOffset).take accepted.dataSize

/-- A depacketize function accepted the packet, whose other bits are as a
packetizer writes them, and left these outputs. -/
structure AcceptedBy (Bus : Type) (depacketize : DepacketizeFunction Bus)
    (Canonical : List UInt8 → Prop) (w : Nat) (packetType : PacketType) (packet : List UInt8)
    (accepted : DepacketizeOut) : Prop where
  length_lt : packet.length < 2 ^ w
  accepts : ∃ self busId out, depacketize self packetType packet busId out = .ok (true, accepted)
  canonical : Canonical packet
  dataSize_lt : accepted.dataSize < 2 ^ 32 - 1

/-- A packetize function writes the packet again from its sequence count, its
type and the outputs it was accepted with, whatever the header and trailer
bytes around the data held. -/
def Reproduces (Bus : Type) (packetize : PacketizeFunction Bus) (headerSize trailerSize : Nat)
    (packetType : PacketType) (count source : UInt16) (accepted : DepacketizeOut)
    (packet : List UInt8) : Prop :=
  ∀ busId header trailer rest, header.length = headerSize → trailer.length = trailerSize →
    packetize ⟨count⟩ packetType busId source accepted.destination
        (header ++ (accepted.payload packet ++ (trailer ++ rest)))
        accepted.dataOffset accepted.dataSize =
      .ok ⟨packet.length, (⟨count⟩ : Packetizer).countPacket, packet ++ rest⟩

theorem DepacketizeOut.length_payload {accepted : DepacketizeOut}
    (h : accepted.dataOffset + accepted.dataSize ≤ packet.length) :
    (accepted.payload packet).length = accepted.dataSize := by
  rw [payload, List.length_take, List.length_drop]
  omega

/-- Packets that are written again from the same inputs are the same. -/
theorem eq_of_reproduces {packetize : PacketizeFunction Bus} {accepted accepted' : DepacketizeOut}
    (busId : Bus) (hsize : headerSize ≤ size)
    (h : accepted.dataOffset = headerSize ∧ accepted.dataSize + size = packet.length ∧
      Reproduces Bus packetize headerSize trailerSize packetType count source accepted packet)
    (h' : accepted'.dataOffset = headerSize ∧ accepted'.dataSize + size = packet'.length ∧
      Reproduces Bus packetize headerSize trailerSize packetType count source accepted' packet')
    (hdest : accepted'.destination = accepted.destination)
    (hpayload : accepted'.payload packet' = accepted.payload packet) : packet' = packet := by
  obtain ⟨hoffset, hlength, hreproduces⟩ := h
  obtain ⟨hoffset', hlength', hreproduces'⟩ := h'
  have hdata := congrArg List.length hpayload
  rw [DepacketizeOut.length_payload (by omega), DepacketizeOut.length_payload (by omega)] at hdata
  have hwritten := hreproduces busId (List.replicate headerSize 0) (List.replicate trailerSize 0)
    [] List.length_replicate List.length_replicate
  have hwritten' := hreproduces' busId (List.replicate headerSize 0) (List.replicate trailerSize 0)
    [] List.length_replicate List.length_replicate
  rw [hdest, hoffset'.trans hoffset.symm, hdata, hpayload, hwritten, Except.ok.injEq,
    Packetized.mk.injEq] at hwritten'
  simpa using hwritten'.2.2.symm

namespace Packetizer

/-- A canonical packet the default format accepts is written again exactly if
`size_t` holds the size it declares. -/
theorem reproduces_iff {packetType : PacketType}
    (h : AcceptedBy Bus (depacketize w) DefaultCanonical w packetType packet accepted) :
    accepted.dataOffset = 8 ∧ accepted.dataSize + 12 = packet.length ∧
      (Reproduces Bus (packetize w) 8 4 packetType (defaultSequenceCount packet)
        accepted.source accepted packet ↔ 32 ≤ w ∨ defaultSize packet < 2 ^ w) := by
  obtain ⟨hw, ⟨self, busId, out, haccepts⟩, hcanonical, hdata⟩ := h
  rw [depacketize_eq self packetType busId out hw, Except.ok.injEq,
    Verdict.outcome_eq_true_iff] at haccepts
  obtain ⟨haccept, rfl⟩ := haccepts
  have hle := le_length_of_defaultVerdict haccept
  have hlength := length_data_defaultPacket packetType packet
  have hwritten (busId' : Bus) (header trailer rest : List UInt8) (hheader : header.length = 8)
      (htrailer : trailer.length = 4) :
      packetize w _ _ _ _ _ (header ++ (_ ++ (trailer ++ rest))) _ _ = _ :=
    packetize_eq ⟨defaultSequenceCount packet⟩
      (defaultPacket packetType packet) busId' (defaultPacket_destination packetType packet)
      (defaultPacket_sequenceCount packetType packet) (hlength ▸ hdata) hheader htrailer
      (show _ < 2 ^ w by omega)
  rw [hlength] at hwritten
  refine ⟨rfl, Nat.sub_add_cancel hle, fun hreproduces => .inr ?_, fun hdeclared => ?_⟩
  · -- what is written declares the size of the data, which `size_t` holds
    have hagain := hreproduces busId (List.replicate 8 0) (List.replicate 4 0) []
      List.length_replicate List.length_replicate
    have hsame := (hwritten busId (List.replicate 8 0) (List.replicate 4 0) []
      List.length_replicate List.length_replicate).symm.trans hagain
    rw [Except.ok.injEq, Packetized.mk.injEq, List.append_nil, List.append_nil] at hsame
    have hsize := defaultSize_encodeDefault (p := defaultPacket packetType packet) (hlength ▸ hdata)
    rw [hsame.2.2, hlength] at hsize
    omega
  · have hsize : defaultSize packet < 2 ^ w := by
      refine hdeclared.elim (fun hwide => ?_) id
      exact Nat.lt_of_lt_of_le (defaultSize_lt packet) (Nat.pow_le_pow_right (by decide) hwide)
    rw [encodeDefault_defaultPacket haccept hcanonical hsize] at hwritten
    exact hwritten

end Packetizer

namespace CCSDSPacketizer

/-- A canonical packet the strict format accepts is written again, whatever
source is passed. -/
theorem reproduces_of_accepted {packetType : PacketType} (source : UInt16) (hsize : 16 ≤ w)
    (h : AcceptedBy Bus (depacketize w) StrictCanonical w packetType packet accepted) :
    accepted.dataOffset = 6 ∧ accepted.dataSize + 8 = packet.length ∧
      Reproduces Bus (packetize w) 6 2 packetType (strictSequenceCount packet)
        source accepted packet := by
  obtain ⟨hw, ⟨self, busId, out, haccepts⟩, hcanonical, -⟩ := h
  rw [depacketize_eq self packetType busId out hsize hw, Except.ok.injEq,
    Verdict.outcome_eq_true_iff] at haccepts
  obtain ⟨haccept, rfl⟩ := haccepts
  obtain ⟨hlt, hdeclared, -, -⟩ := strictVerdict_eq_accept_iff.mp haccept
  have hfield := (wordAt packet 4).toNat_lt
  rw [strictSize] at hdeclared
  have hencode := encodeStrict_strictPacket source haccept hcanonical
  have hlength := length_data_strictPacket packetType source packet
  refine ⟨rfl, Nat.sub_add_cancel (Nat.le_of_lt hlt),
    fun busId' header trailer rest hheader htrailer => ?_⟩
  have hwritten : packetize w _ _ _ _ _ (header ++ (_ ++ (trailer ++ rest))) _ _ = _ :=
    packetize_eq ⟨strictSequenceCount packet⟩ (strictPacket packetType source packet) busId'
      source (strictPacket_destination packetType source packet)
      (strictPacket_sequenceCount packetType source packet) (by omega) (by omega) hheader htrailer
      (show _ < 2 ^ w by omega)
  rw [hencode, hlength] at hwritten
  exact hwritten

end CCSDSPacketizer

/-- **Packetizing again**: a canonical packet that is accepted is written
again from its sequence count and what it was accepted with, so no two of them
say the same; in the default format exactly if `size_t` holds the size it
declares. -/
theorem packetize_depacketize (Bus : Type) (packetType : PacketType) (hsize : 16 ≤ w) :
    (∀ packet accepted,
      AcceptedBy Bus (Packetizer.depacketize w) DefaultCanonical w packetType packet accepted →
      (Reproduces Bus (Packetizer.packetize w) 8 4 packetType (defaultSequenceCount packet)
          accepted.source accepted packet ↔ 32 ≤ w ∨ defaultSize packet < 2 ^ w) ∧
      ∀ packet' accepted',
        AcceptedBy Bus (Packetizer.depacketize w) DefaultCanonical w packetType packet'
          accepted' →
        32 ≤ w ∨ defaultSize packet < 2 ^ w → 32 ≤ w ∨ defaultSize packet' < 2 ^ w →
        defaultSequenceCount packet' = defaultSequenceCount packet →
        accepted'.source = accepted.source → accepted'.destination = accepted.destination →
        accepted'.payload packet' = accepted.payload packet → packet' = packet) ∧
    (∀ packet accepted,
      AcceptedBy Bus (CCSDSPacketizer.depacketize w) StrictCanonical w packetType packet
        accepted →
      (∀ source, Reproduces Bus (CCSDSPacketizer.packetize w) 6 2 packetType
        (strictSequenceCount packet) source accepted packet) ∧
      ∀ packet' accepted',
        AcceptedBy Bus (CCSDSPacketizer.depacketize w) StrictCanonical w packetType packet'
          accepted' →
        strictSequenceCount packet' = strictSequenceCount packet →
        accepted'.destination = accepted.destination →
        accepted'.payload packet' = accepted.payload packet → packet' = packet) := by
  constructor
  · intro packet accepted h
    obtain ⟨hoffset, hlength, hiff⟩ := Packetizer.reproduces_iff h
    refine ⟨hiff, fun packet' accepted' h' hdeclared hdeclared' hcount hsource hdest => ?_⟩
    obtain ⟨hoffset', hlength', hiff'⟩ := Packetizer.reproduces_iff h'
    rw [hcount, hsource] at hiff'
    obtain ⟨-, busId, -⟩ := h.accepts
    exact eq_of_reproduces busId (by decide) ⟨hoffset, hlength, hiff.mpr hdeclared⟩
      ⟨hoffset', hlength', hiff'.mpr hdeclared'⟩ hdest
  · intro packet accepted h
    refine ⟨fun source => (CCSDSPacketizer.reproduces_of_accepted source hsize h).2.2,
      fun packet' accepted' h' hcount hdest => ?_⟩
    have hreproduces' := CCSDSPacketizer.reproduces_of_accepted 0 hsize h'
    rw [hcount] at hreproduces'
    obtain ⟨-, busId, -⟩ := h.accepts
    exact eq_of_reproduces busId (by decide)
      (CCSDSPacketizer.reproduces_of_accepted 0 hsize h) hreproduces' hdest

/-- A packet with one byte of data in either format. -/
theorem packetize_depacketize_byte :
    Reproduces Unit (Packetizer.packetize 32) 8 4 .telemetry 5 9 ⟨9, 1, 8, 1, some 0⟩
        [0x10, 1, 3, 5, 0, 0, 0, 0, 7, 0, 9, 0xE7, 0x3B] ∧
      Reproduces Unit (CCSDSPacketizer.packetize 32) 6 2 .telemetry 5 3 ⟨0, 1, 6, 1, some 0⟩
        [0x08, 1, 0xC0, 5, 0, 2, 7, 0x07, 0x21] :=
  ⟨((packetize_depacketize Unit .telemetry (by decide)).1
      [0x10, 1, 3, 5, 0, 0, 0, 0, 7, 0, 9, 0xE7, 0x3B] ⟨9, 1, 8, 1, some 0⟩
      ⟨by decide, ⟨⟨0⟩, (), ⟨0, 0, 0, 0, some 0⟩, by decide +kernel⟩, by decide,
        by decide⟩).1.mpr (.inl (by decide)),
    ((packetize_depacketize Unit .telemetry (by decide)).2
      [0x08, 1, 0xC0, 5, 0, 2, 7, 0x07, 0x21] ⟨0, 1, 6, 1, some 0⟩
      ⟨by decide, ⟨⟨0⟩, (), ⟨0, 0, 0, 0, some 0⟩, by decide +kernel⟩, by decide,
        by decide⟩).1 3⟩

/-- Where a `size_t` has 16 bits, a packet that declares 2^16 + 1 bytes is
accepted with one: it is not written again, and the packet that declares one
byte and differs in its CRC says the same. -/
theorem packetize_depacketize_wrapped :
    AcceptedBy Unit (Packetizer.depacketize 16) DefaultCanonical 16 .telemetry
        [0x10, 1, 3, 5, 0, 1, 0, 0, 7, 0, 9, 0x91, 0x8F] ⟨9, 1, 8, 1, some 0⟩ ∧
      ¬ Reproduces Unit (Packetizer.packetize 16) 8 4 .telemetry
        (defaultSequenceCount [0x10, 1, 3, 5, 0, 1, 0, 0, 7, 0, 9, 0x91, 0x8F]) 9
        ⟨9, 1, 8, 1, some 0⟩ [0x10, 1, 3, 5, 0, 1, 0, 0, 7, 0, 9, 0x91, 0x8F] ∧
      AcceptedBy Unit (Packetizer.depacketize 16) DefaultCanonical 16 .telemetry
        [0x10, 1, 3, 5, 0, 0, 0, 0, 7, 0, 9, 0xE7, 0x3B] ⟨9, 1, 8, 1, some 0⟩ ∧
      defaultSequenceCount [0x10, 1, 3, 5, 0, 0, 0, 0, 7, 0, 9, 0xE7, 0x3B] =
        defaultSequenceCount [0x10, 1, 3, 5, 0, 1, 0, 0, 7, 0, 9, 0x91, 0x8F] ∧
      (⟨9, 1, 8, 1, some 0⟩ : DepacketizeOut).payload
          [0x10, 1, 3, 5, 0, 0, 0, 0, 7, 0, 9, 0xE7, 0x3B] =
        (⟨9, 1, 8, 1, some 0⟩ : DepacketizeOut).payload
          [0x10, 1, 3, 5, 0, 1, 0, 0, 7, 0, 9, 0x91, 0x8F] ∧
      ([0x10, 1, 3, 5, 0, 0, 0, 0, 7, 0, 9, 0xE7, 0x3B] : List UInt8) ≠
        [0x10, 1, 3, 5, 0, 1, 0, 0, 7, 0, 9, 0x91, 0x8F] := by
  have hwrapped : AcceptedBy Unit (Packetizer.depacketize 16) DefaultCanonical 16 .telemetry
      [0x10, 1, 3, 5, 0, 1, 0, 0, 7, 0, 9, 0x91, 0x8F] ⟨9, 1, 8, 1, some 0⟩ :=
    ⟨by decide, ⟨⟨0⟩, (), ⟨0, 0, 0, 0, some 0⟩, by decide +kernel⟩, by decide, by decide⟩
  have hplain : AcceptedBy Unit (Packetizer.depacketize 16) DefaultCanonical 16 .telemetry
      [0x10, 1, 3, 5, 0, 0, 0, 0, 7, 0, 9, 0xE7, 0x3B] ⟨9, 1, 8, 1, some 0⟩ :=
    ⟨by decide, ⟨⟨0⟩, (), ⟨0, 0, 0, 0, some 0⟩, by decide +kernel⟩, by decide, by decide⟩
  exact ⟨hwrapped, mt (Packetizer.reproduces_iff hwrapped).2.2.mp (by decide), hplain,
    by decide, by decide, by decide⟩

end TasteRuntime
