import TasteRuntime.Broker.Assertions

/-!
# TasteRuntime.Broker.Capacity

What becomes of a request of any size.  The broker does not look at the length
it is given: the data is copied into `packetizer_buffer`, the packetizer
asserts what it asserts, and then writes its trailer.  `Request.fault` says
which of these steps fails, if any, and `deliverRequest_outcome` that the
broker stops there, in every state it can reach, or else sends the packet.
-/

namespace TasteRuntime

open CMemory

namespace Request

/-- What goes wrong with a request: its data does not fit the buffer, it fails
an assertion of its packetizer, or its trailer does not fit. -/
def fault (request : Request spec) : Option Fault :=
  if spec.brokerBufferSize < request.bodySize then some (.writeOutOfBounds spec.brokerBufferSize)
  else if ¬ (spec.busToPacketizerCfg request.bus).Asserts (UInt16.ofNat request.interface)
      request.data.length then
    some .assertionFailed
  else if spec.brokerBufferSize <
      request.bodySize + (spec.busToPacketizerCfg request.bus).trailerSize then
    some (.writeOutOfBounds spec.brokerBufferSize)
  else none

end Request

namespace Broker

/-! ## the packetizers on an object that may be too small -/

/-- A packetizer that does not admit a request fails an assertion before it
writes anything. -/
theorem packetize_of_not_asserts {cfg : PacketizerCfg} {self : Packetizer}
    (hcount : self.packetSequenceCount ≤ spacePacketMaxPacketSequenceCount)
    (packetType : PacketType) (busId : spec.Bus) (source destination : UInt16)
    (buffer : List UInt8) (hasserts : ¬ cfg.Asserts destination dataSize) :
    (packetizersFunctions spec cfg).packetize self packetType busId source destination buffer
      (packetizersFunctions spec cfg).headerSize dataSize = .error .assertionFailed := by
  cases cfg with
  | deviceProvided => exact absurd trivial hasserts
  | passthrough =>
      simp only [packetizersFunctions, PassthroughPacketizer.packetize]
      rw [assert_of_not (show ¬ dataSize ≥ 1 from hasserts)]
      rfl
  | thin =>
      simp only [packetizersFunctions, ThinPacketizer.packetize]
      by_cases hdest : destination ≤ spacePacketMaxApid
      · rw [assert_of hdest, assert_of trivial]
        by_cases hpos : dataSize ≥ 1
        · rw [assert_of hpos, assert_of_not fun hsize => hasserts ⟨hdest, hpos, hsize⟩]
          rfl
        · rw [assert_of_not hpos]
          rfl
      · rw [assert_of_not hdest]
        rfl
  | strictCcsds =>
      simp only [packetizersFunctions, CCSDSPacketizer.packetize]
      rw [assert_of hcount]
      by_cases hdest : destination ≤ spacePacketMaxApid
      · rw [assert_of hdest, assert_of trivial]
        by_cases hpos : dataSize ≥ 1
        · rw [assert_of hpos, assert_of_not fun hsize => hasserts ⟨hdest, hpos, hsize⟩]
          rfl
        · rw [assert_of_not hpos]
          rfl
      · rw [assert_of_not hdest]
        rfl
  | default | ccsds =>
      simp only [packetizersFunctions, Packetizer.packetize]
      rw [assert_of hcount]
      by_cases hdest : destination ≤ spacePacketMaxApid
      · rw [assert_of hdest, assert_of trivial,
          assert_of_not fun hsize => hasserts ⟨hdest, hsize⟩]
        rfl
      · rw [assert_of_not hdest]
        rfl

/-- A packetizer with room for the data but not for its trailer writes up to
the end of the object. -/
theorem packetize_overrun {cfg : PacketizerCfg} {self : Packetizer}
    (hcount : self.packetSequenceCount ≤ spacePacketMaxPacketSequenceCount)
    (packetType : PacketType) (busId : spec.Bus) (source destination : UInt16)
    {buffer : List UInt8} (hasserts : cfg.Asserts destination dataSize)
    (hle : (packetizersFunctions spec cfg).headerSize + dataSize ≤ buffer.length)
    (hlt : buffer.length <
      (packetizersFunctions spec cfg).headerSize + dataSize + cfg.trailerSize)
    (hw : buffer.length < 2 ^ spec.sizeBits) :
    (packetizersFunctions spec cfg).packetize self packetType busId source destination buffer
      (packetizersFunctions spec cfg).headerSize dataSize =
      .error (.writeOutOfBounds buffer.length) := by
  cases cfg with
  | thin | passthrough | deviceProvided => exact absurd hlt (Nat.not_lt.mpr hle)
  | strictCcsds =>
      exact CCSDSPacketizer.packetize_overrun self packetType busId source hcount hasserts.1
        hasserts.2.1 hasserts.2.2 hle hlt hw
  | default | ccsds =>
      exact Packetizer.packetize_overrun self packetType busId source hcount hasserts.1
        hasserts.2 hle hlt hw

/-! ## requests of any size -/

/-- Data that does not fit is copied up to the end of the buffer. -/
theorem memcpy_of_lt {broker : Broker spec}
    (hbuffer : broker.packetizerBuffer.length = spec.brokerBufferSize) (request : Request spec)
    (hover : spec.brokerBufferSize < request.bodySize) :
    memcpy broker.packetizerBuffer
        (packetizersFunctions spec (spec.busToPacketizerCfg request.bus)).headerSize
        request.data request.data.length = .error (.writeOutOfBounds spec.brokerBufferSize) := by
  unfold Request.bodySize at hover
  have hheader := headerSize_le spec (spec.busToPacketizerCfg request.bus)
  have hmax : spacePacketPrimaryHeaderSize ≤ spec.brokerBufferSize := by
    unfold SystemSpec.brokerBufferSize
    omega
  rw [memcpy, slice_of_le (by simp), ok_bind, hbuffer,
    if_neg (Nat.not_le.mpr hover), Nat.max_eq_right (Nat.le_trans hheader hmax)]
  rfl

/-- **`Broker_deliver_request`**, for a request of any size: it stops at the
fault of the request, or sends its packet. -/
theorem deliverRequest_cases {broker : Broker spec}
    (hbuffer : broker.packetizerBuffer.length = spec.brokerBufferSize) (request : Request spec)
    (hcfg : spec.busToPacketizerCfg request.bus ≠ .deviceProvided)
    (hcount_le : (broker.packetizersData request.bus).packetSequenceCount ≤
      spacePacketMaxPacketSequenceCount) :
    (∀ fault, request.fault = some fault → deliverRequest spec broker request = .error fault) ∧
    (request.fault = none → ∃ buffer, deliverRequest spec broker request =
        .ok (broker.afterRequest request.bus buffer,
          [.acquireLock,
            .send request.bus ((spec.busToPacketizerCfg request.bus).encode
              (request.spacePacket (broker.count request.bus))),
            .releaseLock]) ∧
      buffer.length = spec.brokerBufferSize) := by
  have hw : spec.brokerBufferSize < 2 ^ spec.sizeBits := spec.bufferSize_lt
  unfold Request.fault
  by_cases hover : spec.brokerBufferSize < request.bodySize
  · rw [if_pos hover]
    refine ⟨fun fault hfault => ?_, fun hnone => by contradiction⟩
    rw [deliverRequest, if_neg hcfg, memcpy_of_lt hbuffer request hover, error_bind,
      Option.some.inj hfault]
  · rw [if_neg hover]
    obtain ⟨header, tail, hmemcpy, hheader, hlength⟩ :=
      memcpy_of_le hbuffer request (Nat.le_of_not_lt hover)
    by_cases hasserts : (spec.busToPacketizerCfg request.bus).Asserts
        (UInt16.ofNat request.interface) request.data.length
    · rw [if_neg (not_not_intro hasserts)]
      by_cases htrailer : spec.brokerBufferSize <
          request.bodySize + (spec.busToPacketizerCfg request.bus).trailerSize
      · rw [if_pos htrailer]
        refine ⟨fun fault hfault => ?_, fun hnone => by contradiction⟩
        have hpacketize (packetType : PacketType) (source : UInt16) :=
          packetize_overrun hcount_le packetType request.bus source
            (UInt16.ofNat request.interface) hasserts
            (hlength.symm ▸ Nat.le_of_not_lt hover) (hlength.symm ▸ htrailer) (hlength.symm ▸ hw)
        simp only [deliverRequest, if_neg hcfg, hmemcpy, ok_bind, hpacketize, error_bind, hlength]
        rw [Option.some.inj hfault]
      · rw [if_neg htrailer]
        exact ⟨fun fault hfault => by contradiction, fun _ => deliverRequest_of_le hbuffer request
          hcfg hcount_le hasserts (Nat.le_of_not_lt htrailer)⟩
    · rw [if_pos hasserts]
      refine ⟨fun fault hfault => ?_, fun hnone => by contradiction⟩
      have hpacketize (packetType : PacketType) (source : UInt16) (buffer : List UInt8) :=
        packetize_of_not_asserts hcount_le packetType request.bus source
          (UInt16.ofNat request.interface) buffer hasserts
      simp only [deliverRequest, if_neg hcfg, hmemcpy, ok_bind, hpacketize, error_bind]
      rw [Option.some.inj hfault]

/-- A request is sent exactly if its packetizer admits it and its packet fits
the buffer. -/
theorem fault_eq_none_iff {request : Request spec} :
    request.fault = none ↔
      (spec.busToPacketizerCfg request.bus).Asserts (UInt16.ofNat request.interface)
          request.data.length ∧
        request.bodySize + (spec.busToPacketizerCfg request.bus).trailerSize ≤
          spec.brokerBufferSize := by
  unfold Request.fault
  split
  · next hover => exact iff_of_false (by simp) fun h => by omega
  · split
    · next hasserts => exact iff_of_false (by simp) fun h => hasserts h.1
    · next hasserts =>
        split
        · next htrailer => exact iff_of_false (by simp) fun h => by omega
        · next htrailer => exact iff_of_true rfl ⟨not_not.mp hasserts, Nat.le_of_not_lt htrailer⟩

/-- **Capacity**: in every state reached after `Broker_initialize`, the first or
a later one, by operations of any kind, a request of any size is sent if its
packetizer admits it and its packet, header and trailer included, fits the
buffer of the broker.  Otherwise the broker stops, at a failed assertion or at
the first byte behind its buffer, as the fault of the request says. -/
theorem deliverRequest_outcome (hbuiltIn : spec.BuiltIn) {start : Broker spec}
    (hstart : Inv start) (validBuses : Fin spec.systemBusesNumber → Nat)
    (hinit : brokerInitialize spec start validBuses = .ok broker)
    (ops : List (BrokerOp spec)) (hrun : run spec broker ops = .ok (broker', calls))
    (request : Request spec) :
    (∀ fault, deliverRequest spec broker' request = .error fault ↔ request.fault = some fault) ∧
    ((∃ broker'', deliverRequest spec broker' request = .ok (broker'',
          [.acquireLock,
            .send request.bus ((spec.busToPacketizerCfg request.bus).encode
              (request.spacePacket (broker'.count request.bus))),
            .releaseLock])) ↔
      (spec.busToPacketizerCfg request.bus).Asserts (UInt16.ofNat request.interface)
          request.data.length ∧
        request.bodySize + (spec.busToPacketizerCfg request.bus).trailerSize ≤
          spec.brokerBufferSize) := by
  have hinv := (hstart.brokerInitialize hbuiltIn hinit).run hbuiltIn ops hrun
  obtain ⟨hstops, hsends⟩ := deliverRequest_cases hinv.length_buffer request (hbuiltIn request.bus)
    (hinv.count_le request.bus)
  rw [← fault_eq_none_iff]
  cases hfault : request.fault with
  | some fault =>
      rw [hstops fault hfault]
      simp
  | none =>
      obtain ⟨buffer, hdeliver, -⟩ := hsends hfault
      rw [hdeliver]
      simp

/-- A strict bus and a buffer of 32 bytes: 24 bytes of data go out with header
and checksum, of 25 the checksum does not fit, and 27 are copied past the end. -/
theorem deliverRequest_outcome_strict :
    ∃ broker broker' calls,
      brokerInitialize (.mock .strictCcsds) (static _) (fun i => i.val + 1) = .ok broker ∧
      run (.mock .strictCcsds) broker [.registerErrorCallback true] = .ok (broker', calls) ∧
      (∀ fault, deliverRequest (.mock .strictCcsds) broker'
            ⟨⟨0, by decide⟩, 3, List.replicate 25 7⟩ = .error fault ↔
          some (.writeOutOfBounds 32) = some fault) ∧
      (∀ fault, deliverRequest (.mock .strictCcsds) broker'
            ⟨⟨0, by decide⟩, 3, List.replicate 27 7⟩ = .error fault ↔
          some (.writeOutOfBounds 32) = some fault) ∧
      (∀ fault, deliverRequest (.mock .strictCcsds) broker'
            ⟨⟨0, by decide⟩, 3, List.replicate 24 7⟩ = .error fault ↔ none = some fault) := by
  have houtcome (request : Request (.mock .strictCcsds)) :=
    (deliverRequest_outcome (SystemSpec.builtIn_mock (by decide)) (inv_static (.mock .strictCcsds))
      (fun i => i.val + 1) rfl [.registerErrorCallback true] rfl
      request).1
  exact ⟨_, _, _, rfl, rfl, houtcome _, houtcome _, houtcome _⟩

end Broker

end TasteRuntime
