import TasteRuntime.Broker

/-!
# TasteRuntime.Broker.Deliver

What `Broker_deliver_request` sends: the packet of the request in the format
of its bus, numbered by the counter of the bus, whatever the buffer held
before (`deliverRequest_eq`).
-/

namespace TasteRuntime

open CMemory

/-! ## the packet of a request -/

namespace PacketizerCfg

/-- The formats that number their packets. -/
def counts : PacketizerCfg → Bool
  | .default | .ccsds | .strictCcsds => true
  | _ => false

/-- The encoding of a packet in a format; a device's own is not known. -/
def encode (cfg : PacketizerCfg) (p : SpacePacket) : List UInt8 :=
  match cfg with
  | .default | .ccsds => p.encodeDefault
  | .strictCcsds => p.encodeStrict
  | .thin => p.encodeThin
  | .passthrough => p.data
  | .deviceProvided => []

/-- The bytes a format writes behind the data. -/
def trailerSize : PacketizerCfg → Nat
  | .default | .ccsds => spacePacketSenderPidSize + spacePacketErrorControlSize
  | .strictCcsds => spacePacketErrorControlSize
  | .thin | .passthrough | .deviceProvided => 0

/-- What the packetize function of a format asserts about a request. -/
def Asserts (cfg : PacketizerCfg) (destination : UInt16) (dataSize : Nat) : Prop :=
  match cfg with
  | .default | .ccsds =>
      destination ≤ spacePacketMaxApid ∧ dataSize < spacePacketMaxPacketDataSize
  | .strictCcsds =>
      destination ≤ spacePacketMaxApid ∧ 1 ≤ dataSize ∧ dataSize < ccsdsSpacePacketMaxPacketDataSize
  | .thin =>
      destination ≤ spacePacketMaxApid ∧ 1 ≤ dataSize ∧ dataSize < spacePacketMaxPacketDataSize
  | .passthrough => 1 ≤ dataSize
  | .deviceProvided => True

instance (cfg : PacketizerCfg) (destination : UInt16) (dataSize : Nat) :
    Decidable (cfg.Asserts destination dataSize) :=
  match cfg with
  | .default | .ccsds => inferInstanceAs (Decidable (_ ∧ _))
  | .strictCcsds | .thin => inferInstanceAs (Decidable (_ ∧ _ ∧ _))
  | .passthrough => inferInstanceAs (Decidable (_ ≤ _))
  | .deviceProvided => inferInstanceAs (Decidable True)

theorem trailerSize_le (cfg : PacketizerCfg) :
    cfg.trailerSize ≤ spacePacketSenderPidSize + spacePacketErrorControlSize := by
  cases cfg <;> decide

/-- The packetizer of a bus after a packet. -/
def next (cfg : PacketizerCfg) (self : Packetizer) : Packetizer :=
  if cfg.counts then self.countPacket else self

theorem next_count_le (cfg : PacketizerCfg) {self : Packetizer}
    (h : self.packetSequenceCount ≤ spacePacketMaxPacketSequenceCount) :
    (cfg.next self).packetSequenceCount ≤ spacePacketMaxPacketSequenceCount := by
  unfold next
  split
  · exact Packetizer.countPacket_le h
  · exact h

end PacketizerCfg

namespace Request

/-- The bus of a request. -/
abbrev bus (request : Request spec) : spec.Bus := spec.portToBusMap request.interface

/-- The packet of a request when the counter of its bus is `count`. -/
def spacePacket (request : Request spec) (count : Nat) : SpacePacket :=
  SpacePacket.ofFields spec.sendPacketType
    (if spec.hasSenderPid then UInt16.ofNat request.senderPid else 0)
    request.interface count request.data

@[simp] theorem spacePacket_packetType (request : Request spec) (count : Nat) :
    (request.spacePacket count).packetType = spec.sendPacketType := rfl

@[simp] theorem spacePacket_source (request : Request spec) (count : Nat) :
    (request.spacePacket count).source =
      if spec.hasSenderPid then UInt16.ofNat request.senderPid else 0 := rfl

@[simp] theorem spacePacket_data (request : Request spec) (count : Nat) :
    (request.spacePacket count).data = request.data := rfl

/-- The destination the broker passes on is that of the packet, if it is a
valid application process ID. -/
theorem spacePacket_destination (request : Request spec) (count : Nat)
    (h : UInt16.ofNat request.interface ≤ spacePacketMaxApid) :
    (UInt16.ofNat request.interface).toNat = (request.spacePacket count).destination.val := by
  have hle := UInt16.le_iff_toNat_le.mp h
  have hmax : UInt16.toNat spacePacketMaxApid = 2047 := rfl
  show (UInt16.ofNat request.interface).toNat = request.interface % 2 ^ 11
  rw [UInt16.toNat_ofNat'] at hle ⊢
  omega

/-- An interface that is a valid application process ID is passed on whole. -/
theorem destination_le {request : Request spec} (h : request.interface.val ≤ 2047) :
    UInt16.ofNat request.interface ≤ spacePacketMaxApid := by
  rw [UInt16.le_iff_toNat_le, UInt16.toNat_ofNat']
  exact Nat.le_trans (Nat.mod_le _ _) h

/-- The header and the data of a request in the buffer of the broker. -/
def bodySize (request : Request spec) : Nat :=
  (Broker.packetizersFunctions spec (spec.busToPacketizerCfg request.bus)).headerSize +
    request.data.length

/-- The request fits the buffer of the broker and meets the assertions of its
packetizer. -/
def Admitted (request : Request spec) : Prop :=
  request.data.length ≤ spec.genericPartitionBufferSize ∧
    (spec.busToPacketizerCfg request.bus).Asserts (UInt16.ofNat request.interface)
      request.data.length

instance (request : Request spec) : Decidable request.Admitted :=
  inferInstanceAs (Decidable (_ ∧ _))

end Request

namespace Broker

/-! ## packetizing in the buffer of the broker -/

/-- What stays true of the static variables: the buffer keeps its size and no
counter exceeds its maximum. -/
structure Inv (broker : Broker spec) : Prop where
  length_buffer : broker.packetizerBuffer.length = spec.brokerBufferSize
  count_le : ∀ bus,
    (broker.packetizersData bus).packetSequenceCount ≤ spacePacketMaxPacketSequenceCount

theorem inv_static (spec : SystemSpec) : Inv (static spec) :=
  ⟨List.length_replicate, fun _ => UInt16.le_iff_toNat_le.mpr (Nat.zero_le _)⟩

theorem headerSize_le (spec : SystemSpec) (cfg : PacketizerCfg) :
    (packetizersFunctions spec cfg).headerSize ≤ spacePacketPrimaryHeaderSize := by
  cases cfg <;> simp [packetizersFunctions]

/-- A packet is its header, the data and its trailer. -/
theorem length_encode (spec : SystemSpec) {cfg : PacketizerCfg} (hcfg : cfg ≠ .deviceProvided)
    (p : SpacePacket) :
    (cfg.encode p).length =
      (packetizersFunctions spec cfg).headerSize + p.data.length + cfg.trailerSize := by
  cases cfg with
  | deviceProvided => exact absurd rfl hcfg
  | default | ccsds | strictCcsds | thin | passthrough =>
      simp [PacketizerCfg.encode, packetizersFunctions, PacketizerCfg.trailerSize]
      try omega

/-- A packetizer but a device's puts the packet in front of an object that has
room for it, and leaves the bytes behind it as they were. -/
theorem packetize_eq {cfg : PacketizerCfg} (hcfg : cfg ≠ .deviceProvided) (self : Packetizer)
    (p : SpacePacket) (busId : spec.Bus) {destination : UInt16}
    (hdest : destination ≤ spacePacketMaxApid → destination.toNat = p.destination.val)
    (hcount : self.packetSequenceCount.toNat = p.sequenceCount.val)
    (hasserts : cfg.Asserts destination p.data.length)
    (hheader : header.length = (packetizersFunctions spec cfg).headerSize)
    (htail : cfg.trailerSize ≤ tail.length)
    (hw : header.length + p.data.length + cfg.trailerSize < 2 ^ spec.sizeBits) :
    ∃ rest, (packetizersFunctions spec cfg).packetize self p.packetType busId p.source destination
          (header ++ (p.data ++ tail)) (packetizersFunctions spec cfg).headerSize p.data.length =
        .ok ⟨(cfg.encode p).length, cfg.next self, cfg.encode p ++ rest⟩ ∧
      (cfg.encode p ++ rest).length = (header ++ (p.data ++ tail)).length := by
  obtain ⟨trailer, rest, rfl, htrailer⟩ := exists_append_of_le htail
  refine ⟨rest, ?_, ?_⟩
  · cases cfg with
    | deviceProvided => exact absurd rfl hcfg
    | passthrough =>
        have hnil : header = [] := List.length_eq_zero_iff.mp hheader
        have hnone : trailer = [] := List.length_eq_zero_iff.mp htrailer
        rw [hnil, hnone]
        exact congrArg (· >>= fun _ => _) (assert_of (show p.data.length ≥ 1 from hasserts))
    | thin =>
        have hnone : trailer = [] := List.length_eq_zero_iff.mp htrailer
        rw [hnone, List.nil_append]
        exact ThinPacketizer.packetize_eq self p p.packetType busId p.source (hdest hasserts.1)
          hasserts.2.1 hasserts.2.2 hheader (by rw [hheader] at hw; exact Nat.add_comm _ _ ▸ hw)
    | strictCcsds =>
        have hfits : p.data.length + 8 < 2 ^ spec.sizeBits := by
          simp only [hheader, packetizersFunctions, PacketizerCfg.trailerSize] at hw
          simp only [ccsdsSpacePacketPrimaryHeaderSize, spacePacketErrorControlSize] at hw
          omega
        exact CCSDSPacketizer.packetize_eq self p busId p.source (hdest hasserts.1) hcount
          hasserts.2.1 hasserts.2.2 hheader htrailer hfits
    | default | ccsds =>
        have hfits : p.data.length + 12 < 2 ^ spec.sizeBits := by
          simp only [hheader, packetizersFunctions, PacketizerCfg.trailerSize] at hw
          simp only [spacePacketPrimaryHeaderSize, spacePacketSenderPidSize,
            spacePacketErrorControlSize] at hw
          omega
        exact Packetizer.packetize_eq self p busId (hdest hasserts.1) hcount hasserts.2
          hheader htrailer hfits
  · simp only [List.length_append, length_encode spec hcfg p, hheader, htrailer]
    omega

/-- The counter of a bus. -/
def count (broker : Broker spec) (bus : spec.Bus) : Nat :=
  (broker.packetizersData bus).packetSequenceCount.toNat

/-- The broker after a request, with what is then in the buffer. -/
def afterRequest (broker : Broker spec) (bus : spec.Bus) (buffer : List UInt8) : Broker spec :=
  { broker with
    packetizersData := Function.update broker.packetizersData bus
      ((spec.busToPacketizerCfg bus).next (broker.packetizersData bus))
    packetizerBuffer := buffer }

/-! ## delivering a request -/

/-- The data of a request that fits is copied behind the room for a header. -/
theorem memcpy_of_le {broker : Broker spec}
    (hbuffer : broker.packetizerBuffer.length = spec.brokerBufferSize) (request : Request spec)
    (hfits : request.bodySize ≤ spec.brokerBufferSize) :
    ∃ header tail,
      memcpy broker.packetizerBuffer
          (packetizersFunctions spec (spec.busToPacketizerCfg request.bus)).headerSize
          request.data request.data.length = .ok (header ++ (request.data ++ tail)) ∧
        header.length =
          (packetizersFunctions spec (spec.busToPacketizerCfg request.bus)).headerSize ∧
        (header ++ (request.data ++ tail)).length = spec.brokerBufferSize := by
  obtain ⟨header, mid, tail, hsplit, hheader, hmid⟩ :=
    exists_around (packetizersFunctions spec (spec.busToPacketizerCfg request.bus)).headerSize
      request.data.length (show _ ≤ broker.packetizerBuffer.length from hbuffer ▸ hfits)
  refine ⟨header, tail, by rw [hsplit, memcpy_append hheader hmid], hheader, ?_⟩
  simpa [hsplit, hmid] using hbuffer

/-- The packet of a request within the bounds of the broker fits its buffer. -/
theorem bodySize_add_trailerSize_le (request : Request spec)
    (hlength : request.data.length ≤ spec.genericPartitionBufferSize) :
    request.bodySize + (spec.busToPacketizerCfg request.bus).trailerSize ≤
      spec.brokerBufferSize := by
  have hheader := headerSize_le spec (spec.busToPacketizerCfg request.bus)
  have htrailer := (spec.busToPacketizerCfg request.bus).trailerSize_le
  unfold Request.bodySize SystemSpec.brokerBufferSize
  omega

/-- A request whose packet fits the buffer is sent, if its packetizer admits
it. -/
theorem deliverRequest_of_le {broker : Broker spec}
    (hbuffer : broker.packetizerBuffer.length = spec.brokerBufferSize) (request : Request spec)
    (hcfg : spec.busToPacketizerCfg request.bus ≠ .deviceProvided)
    (hcount_le : (broker.packetizersData request.bus).packetSequenceCount ≤
      spacePacketMaxPacketSequenceCount)
    (hasserts : (spec.busToPacketizerCfg request.bus).Asserts (UInt16.ofNat request.interface)
      request.data.length)
    (hfits : request.bodySize + (spec.busToPacketizerCfg request.bus).trailerSize ≤
      spec.brokerBufferSize) :
    ∃ buffer, deliverRequest spec broker request =
        .ok (broker.afterRequest request.bus buffer,
          [.acquireLock,
            .send request.bus ((spec.busToPacketizerCfg request.bus).encode
              (request.spacePacket (broker.count request.bus))),
            .releaseLock]) ∧
      buffer.length = spec.brokerBufferSize := by
  have hw : spec.brokerBufferSize < 2 ^ spec.sizeBits := spec.bufferSize_lt
  obtain ⟨header, tail, hmemcpy, hheader, hlength⟩ :=
    memcpy_of_le hbuffer request (Nat.le_of_add_right_le hfits)
  have hsize : request.bodySize + tail.length = spec.brokerBufferSize := by
    rw [← hlength, Request.bodySize, ← hheader]
    simp [Nat.add_assoc]
  have hcount : (broker.packetizersData request.bus).packetSequenceCount.toNat =
      (request.spacePacket (broker.count request.bus)).sequenceCount.val :=
    (Nat.mod_eq_of_lt (Nat.lt_succ_of_le (UInt16.le_iff_toNat_le.mp hcount_le))).symm
  obtain ⟨rest, hpacketize, hrest⟩ := packetize_eq hcfg (broker.packetizersData request.bus)
    (request.spacePacket (broker.count request.bus)) request.bus
    (request.spacePacket_destination _) hcount hasserts hheader (show _ ≤ tail.length by omega)
    (show header.length + request.data.length + _ < _ by
      rw [hheader]
      exact Nat.lt_of_le_of_lt hfits hw)
  simp only [Request.spacePacket_packetType, Request.spacePacket_source,
    Request.spacePacket_data] at hpacketize
  refine ⟨_, ?_, hrest.trans hlength⟩
  unfold deliverRequest
  simp only [if_neg hcfg, hmemcpy, ok_bind, hpacketize, slice_prefix]
  rfl

/-- **`Broker_deliver_request`**: it sends the packet of the request on the
bus of the request, in the format of the bus and numbered by its counter. -/
theorem deliverRequest_eq {broker : Broker spec} (hinv : Inv broker) (request : Request spec)
    (hcfg : spec.busToPacketizerCfg request.bus ≠ .deviceProvided)
    (hadmitted : request.Admitted) :
    ∃ buffer, deliverRequest spec broker request =
        .ok (broker.afterRequest request.bus buffer,
          [.acquireLock,
            .send request.bus ((spec.busToPacketizerCfg request.bus).encode
              (request.spacePacket (broker.count request.bus))),
            .releaseLock]) ∧
      buffer.length = spec.brokerBufferSize :=
  deliverRequest_of_le hinv.length_buffer request hcfg (hinv.count_le _) hadmitted.2
    (bodySize_add_trailerSize_le request hadmitted.1)

/-- A request keeps the invariant. -/
theorem Inv.afterRequest {broker : Broker spec} (hinv : Inv broker) (bus : spec.Bus)
    (hbuffer : buffer.length = spec.brokerBufferSize) : Inv (broker.afterRequest bus buffer) := by
  refine ⟨hbuffer, fun other => ?_⟩
  by_cases hother : other = bus
  · subst hother
    simp only [Broker.afterRequest, Function.update_self]
    exact PacketizerCfg.next_count_le _ (hinv.count_le other)
  · simp only [Broker.afterRequest, Function.update_of_ne hother]
    exact hinv.count_le other

/-- A request counts on its own bus and on no other. -/
theorem count_afterRequest {broker : Broker spec} (hinv : Inv broker) (bus other : spec.Bus)
    (buffer : List UInt8) :
    (broker.afterRequest bus buffer).count other =
      if other = bus ∧ (spec.busToPacketizerCfg bus).counts then (broker.count other + 1) % 2 ^ 14
      else broker.count other := by
  by_cases hother : other = bus
  · subst hother
    by_cases hcounts : (spec.busToPacketizerCfg other).counts
    · rw [if_pos ⟨rfl, hcounts⟩]
      simp only [count, Broker.afterRequest, Function.update_self, PacketizerCfg.next,
        if_pos hcounts]
      exact Packetizer.toNat_countPacket (hinv.count_le other)
    · rw [if_neg (fun h => hcounts h.2)]
      simp only [count, Broker.afterRequest, Function.update_self, PacketizerCfg.next,
        if_neg hcounts]
  · rw [if_neg (fun h => hother h.1)]
    simp only [count, Broker.afterRequest, Function.update_of_ne hother]

end Broker

end TasteRuntime
