import TasteRuntime.EndToEnd

/-!
# TasteRuntime.Broker.Arrival

What arrives of a packet that was sent: `Broker_receive_packet` on the encoding
of a space packet, in every format but a device's.  The type is checked where
the format carries it, and the destination is that of the packet or, on a bus
without packets, the one interface of the bus (`receivePacket_encode`).
-/

namespace TasteRuntime

open CMemory PacketFormat

namespace PacketizerCfg

/-! ## what a format carries -/

/-- The default and the CCSDS packetizer are one. -/
def canonical : PacketizerCfg → PacketizerCfg
  | .ccsds => .default
  | cfg => cfg

theorem encode_canonical (cfg : PacketizerCfg) : cfg.canonical.encode = cfg.encode := by
  cases cfg <;> rfl

theorem encode_eq_of_canonical_eq {cfg cfg' : PacketizerCfg} (h : cfg.canonical = cfg'.canonical) :
    cfg.encode = cfg'.encode := by
  rw [← encode_canonical cfg, h, encode_canonical]

/-- The formats with a type in their header. -/
def carriesType : PacketizerCfg → Bool
  | .default | .ccsds | .strictCcsds => true
  | _ => false

/-- The formats with the PID of the sender. -/
def carriesSource : PacketizerCfg → Bool
  | .default | .ccsds => true
  | _ => false

/-- The sizes of data that read back as they were written. -/
def CarriesSize (cfg : PacketizerCfg) (dataSize : Nat) : Prop :=
  match cfg with
  | .default | .ccsds => dataSize < 2 ^ 32 - 1
  | .strictCcsds => 1 ≤ dataSize ∧ dataSize ≤ 65534
  | .thin => 1 ≤ dataSize ∧ dataSize ≤ 65536 ∧ dataSize % 512 ≠ 0
  | .passthrough => 1 ≤ dataSize
  | .deviceProvided => False

instance (cfg : PacketizerCfg) (dataSize : Nat) : Decidable (cfg.CarriesSize dataSize) :=
  match cfg with
  | .default | .ccsds => inferInstanceAs (Decidable (dataSize < 2 ^ 32 - 1))
  | .strictCcsds => inferInstanceAs (Decidable (1 ≤ dataSize ∧ dataSize ≤ 65534))
  | .thin =>
      inferInstanceAs (Decidable (1 ≤ dataSize ∧ dataSize ≤ 65536 ∧ dataSize % 512 ≠ 0))
  | .passthrough => inferInstanceAs (Decidable (1 ≤ dataSize))
  | .deviceProvided => inferInstanceAs (Decidable False)

theorem CarriesSize.ne_deviceProvided {cfg : PacketizerCfg} (h : cfg.CarriesSize n) :
    cfg ≠ .deviceProvided := by
  rintro rfl
  exact h

end PacketizerCfg

namespace SystemSpec

variable {spec : SystemSpec} {bus : spec.Bus} {p : SpacePacket}

/-- The interface a packet is for, as the receiving end of a bus sees it. -/
def destinationOn (spec : SystemSpec) (bus : spec.Bus) (destination : Nat) : Nat :=
  if spec.busToPacketizerCfg bus = .passthrough then (spec.busToUniquePortMap bus).val
  else destination

/-- The sender PID a deliver function gets, on targets that pass one on. -/
def sourceOn (spec : SystemSpec) (bus : spec.Bus) (source : Nat) : Option Nat :=
  if spec.hasSenderPid then
    some (if (spec.busToPacketizerCfg bus).carriesSource then source else 0)
  else none

/-- A packet whose size reads back and is an object of the receiving target. -/
structure Carries (spec : SystemSpec) (bus : spec.Bus) (p : SpacePacket) : Prop where
  size : (spec.busToPacketizerCfg bus).CarriesSize p.data.length
  length_lt : ((spec.busToPacketizerCfg bus).encode p).length < 2 ^ spec.sizeBits

/-- The checks find nothing wrong with a packet but, where the format carries
it, its type. -/
theorem verdict_encode (h : spec.Carries bus p) :
    spec.verdict bus ((spec.busToPacketizerCfg bus).encode p) =
      if (spec.busToPacketizerCfg bus).carriesType ∧ p.packetType ≠ spec.expectPacketType then
        .reject (some .incorrectPacketType)
      else .accept := by
  obtain ⟨hsize, hlength⟩ := h
  unfold verdict
  cases hcfg : spec.busToPacketizerCfg bus with
  | default | ccsds =>
      rw [hcfg] at hsize hlength
      simp only [PacketizerCfg.encode, SpacePacket.length_encodeDefault] at hlength ⊢
      rw [defaultVerdict_encodeDefault spec.expectPacketType hsize hlength]
      by_cases htype : p.packetType = spec.expectPacketType <;>
        simp [PacketizerCfg.carriesType, htype]
  | strictCcsds =>
      rw [hcfg] at hsize
      obtain ⟨hpos, hle⟩ := hsize
      simp only [PacketizerCfg.encode]
      rw [strictVerdict_encodeStrict spec.expectPacketType hpos (by omega), if_neg (by omega)]
      by_cases htype : p.packetType = spec.expectPacketType <;>
        simp [PacketizerCfg.carriesType, htype]
  | thin =>
      rw [hcfg] at hsize
      obtain ⟨hpos, hle, hmod⟩ := hsize
      simp only [PacketizerCfg.encode]
      rw [thinVerdict_encodeThin hpos hle, if_neg hmod]
      rfl
  | passthrough => rfl
  | deviceProvided => exact absurd hcfg hsize.ne_deviceProvided

/-- A destination of a packet is a number of 16 bits. -/
theorem toNat_ofNat_destination (p : SpacePacket) :
    (UInt16.ofNat p.destination).toNat = p.destination.val := by
  have hlt := p.destination.isLt
  rw [UInt16.toNat_ofNat', Nat.mod_eq_of_lt (by omega)]

/-- The destination read from a packet. -/
theorem destination_fields_encode (h : spec.Carries bus p)
    (hdest : spec.destinationOn bus p.destination < 2 ^ 16) :
    (spec.fields bus ((spec.busToPacketizerCfg bus).encode p)).destination.toNat =
      spec.destinationOn bus p.destination := by
  unfold fields destinationOn at *
  cases hcfg : spec.busToPacketizerCfg bus with
  | default | ccsds =>
      simp only [PacketizerCfg.encode, defaultDestination_encodeDefault, reduceCtorEq, if_false]
      exact toNat_ofNat_destination p
  | strictCcsds =>
      simp only [PacketizerCfg.encode, strictDestination_encodeStrict, reduceCtorEq, if_false]
      exact toNat_ofNat_destination p
  | thin =>
      simp only [PacketizerCfg.encode, thinDestination_encodeThin, reduceCtorEq, if_false]
      exact toNat_ofNat_destination p
  | passthrough =>
      simp only [hcfg, if_true] at hdest ⊢
      rw [UInt16.toNat_ofNat', Nat.mod_eq_of_lt hdest]
  | deviceProvided => exact absurd hcfg h.size.ne_deviceProvided

/-- The source read from a packet. -/
theorem source_fields_encode :
    (spec.fields bus ((spec.busToPacketizerCfg bus).encode p)).source.toNat =
      if (spec.busToPacketizerCfg bus).carriesSource then p.source.toNat else 0 := by
  unfold fields
  cases spec.busToPacketizerCfg bus with
  | default | ccsds =>
      exact congrArg UInt16.toNat (defaultSource_encodeDefault p)
  | strictCcsds | thin | passthrough | deviceProvided => rfl

/-- The data read from a packet. -/
theorem data_fields_encode (h : spec.Carries bus p) :
    ((((spec.busToPacketizerCfg bus).encode p).drop
        (spec.fields bus ((spec.busToPacketizerCfg bus).encode p)).dataOffset).take
      (spec.fields bus ((spec.busToPacketizerCfg bus).encode p)).dataSize) = p.data := by
  unfold fields
  cases hcfg : spec.busToPacketizerCfg bus with
  | default | ccsds => simpa [PacketizerCfg.encode] using p.take_drop_encodeDefault []
  | strictCcsds => simpa [PacketizerCfg.encode] using p.take_drop_encodeStrict []
  | thin => simpa [PacketizerCfg.encode] using p.take_drop_encodeThin []
  | passthrough => simp [PacketizerCfg.encode]
  | deviceProvided => exact absurd hcfg h.size.ne_deviceProvided

end SystemSpec

namespace Broker

variable {spec : SystemSpec} {bus : spec.Bus} {p : SpacePacket}

/-! ## receiving what was sent -/

/-- **Arrival**: a packet of the expected type is handed to the interface it is
for, with its data and what the format carries of its source. -/
theorem receivePacket_encode (broker : Broker spec) (h : spec.Carries bus p)
    (htype : (spec.busToPacketizerCfg bus).carriesType → p.packetType = spec.expectPacketType)
    (hdest : spec.destinationOn bus p.destination < spec.interfaceMaxId)
    (hword : spec.destinationOn bus p.destination < 2 ^ 16) :
    receivePacket spec broker bus ((spec.busToPacketizerCfg bus).encode p) =
      .ok (broker, [.acquireLock,
        .deliver ⟨spec.destinationOn bus p.destination, hdest⟩
          (spec.sourceOn bus p.source.toNat) p.data,
        .releaseLock]) := by
  have hfield := SystemSpec.destination_fields_encode h hword
  have haccept : spec.verdict bus ((spec.busToPacketizerCfg bus).encode p) = .accept := by
    rw [SystemSpec.verdict_encode h, if_neg (fun hno => hno.2 (htype hno.1))]
  rw [receivePacket_eq broker h.size.ne_deviceProvided h.length_lt, haccept]
  simp only [delivery, hfield, hdest, dif_pos, SystemSpec.source_fields_encode,
    SystemSpec.data_fields_encode h, SystemSpec.sourceOn]

end Broker

/-! ## requests -/

namespace Request

variable {S R : SystemSpec}

/-- What a deliver function behind `bus` is to be called with for a request of
the other end: its interface, its sender PID as far as both targets and the
format carry it, and its data. -/
def arrivalOn (request : Request S) (R : SystemSpec) (bus : R.Bus) :
    Nat × Option Nat × List UInt8 :=
  (R.destinationOn bus request.interface,
    R.sourceOn bus (if S.hasSenderPid then request.senderPid else 0), request.data)

/-- The receiving end of a bus can take the packet of a request. -/
structure Suits (request : Request S) (R : SystemSpec) (bus : R.Bus) : Prop where
  interface_le : request.interface.val ≤ 2047
  senderPid_lt : request.senderPid < 2 ^ 16
  size : (R.busToPacketizerCfg bus).CarriesSize request.data.length
  length_lt : request.data.length + 12 < 2 ^ R.sizeBits
  destination_lt : R.destinationOn bus request.interface < R.interfaceMaxId
  destination_lt_word : R.destinationOn bus request.interface < 2 ^ 16

instance (request : Request S) (R : SystemSpec) (bus : R.Bus) :
    Decidable (request.Suits R bus) :=
  decidable_of_iff (request.interface.val ≤ 2047 ∧ request.senderPid < 2 ^ 16 ∧
      (R.busToPacketizerCfg bus).CarriesSize request.data.length ∧
      request.data.length + 12 < 2 ^ R.sizeBits ∧
      R.destinationOn bus request.interface < R.interfaceMaxId ∧
      R.destinationOn bus request.interface < 2 ^ 16)
    ⟨fun ⟨h1, h2, h3, h4, h5, h6⟩ => ⟨h1, h2, h3, h4, h5, h6⟩,
      fun ⟨h1, h2, h3, h4, h5, h6⟩ => ⟨h1, h2, h3, h4, h5, h6⟩⟩

theorem length_encode_le (cfg : PacketizerCfg) (p : SpacePacket) :
    (cfg.encode p).length ≤ p.data.length + 12 := by
  cases cfg <;> simp [PacketizerCfg.encode]

theorem Suits.carries {request : Request S} {bus : R.Bus} (h : request.Suits R bus) (count : Nat) :
    R.Carries bus (request.spacePacket count) :=
  ⟨h.size, Nat.lt_of_le_of_lt (length_encode_le _ _) h.length_lt⟩

/-- The packet of a request, received at the other end of a bus in the same
format, is delivered as the request says. -/
theorem Suits.receivePacket {request : Request S} {bus : R.Bus} (h : request.Suits R bus)
    (htype : (R.busToPacketizerCfg bus).carriesType → S.sendPacketType = R.expectPacketType)
    (receiver : Broker R) (count : Nat) :
    ∃ calls, Broker.receivePacket R receiver bus
        ((R.busToPacketizerCfg bus).encode (request.spacePacket count)) = .ok (receiver, calls) ∧
      Broker.deliveries calls = [request.arrivalOn R bus] ∧
      ∀ errorType packet, .errorDetected errorType packet ∉ calls := by
  have hdest : (request.spacePacket count).destination.val = request.interface.val :=
    Nat.mod_eq_of_lt (Nat.lt_succ_of_le h.interface_le)
  have hsource : (request.spacePacket count).source.toNat =
      if S.hasSenderPid then request.senderPid else 0 := by
    rw [spacePacket_source]
    split
    · rw [UInt16.toNat_ofNat', Nat.mod_eq_of_lt h.senderPid_lt]
    · rfl
  have hreceive := Broker.receivePacket_encode receiver (h.carries count) htype
    (by rw [hdest]; exact h.destination_lt) (by rw [hdest]; exact h.destination_lt_word)
  refine ⟨_, hreceive, ?_, by simp⟩
  simp only [Broker.deliveries, List.filterMap_cons, BrokerCall.delivered, List.filterMap_nil,
    arrivalOn, hdest, hsource, spacePacket_data]

end Request

end TasteRuntime
