import TasteRuntime.Broker

/-!
# TasteRuntime.Broker.Receive

What `Broker_receive_packet` does with a byte string (`receivePacket_eq`): the
checks of the format of its bus decide, and an accepted packet is handed to
the deliver function its header names.

The thin format carries a destination of 16 bits and the others one of 11, and
none of the checks compares it with the number of interfaces: exactly when
they do not keep it below `INTERFACE_MAX_ID`, the table of deliver functions
is read outside (`receivePacket_deliver_iff`).
-/

namespace TasteRuntime

open CMemory PacketFormat

namespace SystemSpec

/-! ## what a received packet says on a bus -/

/-- The checks of the format of a bus. -/
def verdict (spec : SystemSpec) (bus : spec.Bus) (packet : List UInt8) : Verdict :=
  match spec.busToPacketizerCfg bus with
  | .default | .ccsds => defaultVerdict spec.sizeBits spec.expectPacketType packet
  | .strictCcsds => strictVerdict spec.expectPacketType packet
  | .thin => thinVerdict packet
  | .passthrough => .accept
  | .deviceProvided => .reject none

/-- The fields of a packet in the format of a bus, over outputs that are zero. -/
def fields (spec : SystemSpec) (bus : spec.Bus) (packet : List UInt8) : DepacketizeOut :=
  match spec.busToPacketizerCfg bus with
  | .default | .ccsds =>
      ⟨defaultSource packet, defaultDestination packet, 8, packet.length - 12, some 0⟩
  | .strictCcsds => ⟨0, strictDestination packet, 6, packet.length - 8, some 0⟩
  | .thin => ⟨0, thinDestination packet, 4, packet.length - 4, some 0⟩
  | .passthrough => ⟨0, UInt16.ofNat (spec.busToUniquePortMap bus), 0, packet.length, some 0⟩
  | .deviceProvided => ⟨0, 0, 0, 0, some 0⟩

/-- The data of an accepted packet lies inside it. -/
theorem fields_le (spec : SystemSpec) (bus : spec.Bus) (packet : List UInt8)
    (h : spec.verdict bus packet = .accept) :
    (spec.fields bus packet).dataOffset + (spec.fields bus packet).dataSize ≤ packet.length := by
  unfold verdict at h
  unfold fields
  cases hcfg : spec.busToPacketizerCfg bus <;> simp only [hcfg] at h ⊢
  case default | ccsds =>
    have hlength := le_length_of_defaultVerdict h
    omega
  case strictCcsds =>
    have hlength := lt_length_of_strictVerdict h
    omega
  case thin =>
    have hlength := le_length_of_thinVerdict h
    omega
  case passthrough => omega
  case deviceProvided => omega

end SystemSpec

namespace Broker

/-- The packetizers but a device's decide by `verdict`. -/
theorem depacketize_eq (self : Packetizer) {bus : spec.Bus}
    (hcfg : spec.busToPacketizerCfg bus ≠ .deviceProvided)
    (hw : packet.length < 2 ^ spec.sizeBits) :
    (packetizersFunctions spec (spec.busToPacketizerCfg bus)).depacketize self
        spec.expectPacketType packet bus ⟨0, 0, 0, 0, some 0⟩ =
      .ok ((spec.verdict bus packet).outcome ⟨0, 0, 0, 0, some 0⟩ (spec.fields bus packet)) := by
  unfold SystemSpec.verdict SystemSpec.fields
  cases hfmt : spec.busToPacketizerCfg bus with
  | default | ccsds => exact Packetizer.depacketize_eq self spec.expectPacketType bus _ hw
  | strictCcsds =>
      exact CCSDSPacketizer.depacketize_eq self spec.expectPacketType bus _ spec.sizeBits_ge hw
  | thin => exact ThinPacketizer.depacketize_eq self spec.expectPacketType bus _ spec.sizeBits_ge hw
  | passthrough => rfl
  | deviceProvided => exact absurd hfmt hcfg

/-- What the broker calls when a packet is rejected. -/
def rejection (broker : Broker spec) (code : Option ErrorCode) (packet : List UInt8) :
    List (BrokerCall spec) :=
  if broker.brokerErrorCallback then
    [.errorDetected (packetizerErrorToBrokerError ((code.map ErrorCode.toInt32).getD 0)) packet]
  else []

/-- What the broker calls when a packet is accepted and names an interface. -/
def delivery (spec : SystemSpec) (bus : spec.Bus) (packet : List UInt8)
    (interface : spec.Interface) : BrokerCall spec :=
  let fields := spec.fields bus packet
  .deliver interface (if spec.hasSenderPid then some fields.source.toNat else none)
    ((packet.drop fields.dataOffset).take fields.dataSize)

/-- **`Broker_receive_packet`**, on a bus whose packetizer is not a device's. -/
theorem receivePacket_eq (broker : Broker spec) {bus : spec.Bus}
    (hcfg : spec.busToPacketizerCfg bus ≠ .deviceProvided)
    (hw : packet.length < 2 ^ spec.sizeBits) :
    receivePacket spec broker bus packet =
      match spec.verdict bus packet with
      | .reject code =>
          .ok (broker, [.acquireLock] ++ broker.rejection code packet ++ [.releaseLock])
      | .accept =>
          if h : (spec.fields bus packet).destination.toNat < spec.interfaceMaxId then
            .ok (broker, [.acquireLock, delivery spec bus packet ⟨_, h⟩, .releaseLock])
          else .error (.readOutOfBounds (spec.fields bus packet).destination.toNat) := by
  have hfields := spec.fields_le bus packet
  simp only [receivePacket]
  rw [depacketize_eq _ hcfg hw, ok_bind]
  cases hverdict : spec.verdict bus packet with
  | reject code =>
      cases hcallback : broker.brokerErrorCallback <;> cases code <;>
        simp [Verdict.outcome, DepacketizeOut.reject, DepacketizeOut.setErrorCode, rejection,
          hcallback]
  | accept =>
      simp only [Verdict.outcome]
      by_cases hdest : (spec.fields bus packet).destination.toNat < spec.interfaceMaxId
      · simp [hdest, slice_of_le (hfields hverdict), delivery]
      · simp [hdest]

/-- Whatever the packetizer of the bus does, a packet from a driver does not
touch the static variables, and an error that is reported translates the code
of a rejection. -/
theorem ensures_receivePacket (broker : Broker spec) (bus : spec.Bus) (packet : List UInt8)
    {P : Bool × DepacketizeOut → Prop}
    (hdepacketize : Ensures ((packetizersFunctions spec (spec.busToPacketizerCfg bus)).depacketize
      (broker.packetizersData bus) spec.expectPacketType packet bus ⟨0, 0, 0, 0, some 0⟩) P) :
    Ensures (receivePacket spec broker bus packet) fun result => result.1 = broker ∧
      ∀ errorType data, .errorDetected errorType data ∈ result.2 → ∃ out, P (false, out) ∧
        errorType = packetizerErrorToBrokerError (out.errorCode.getD 0) := by
  refine hdepacketize.bind fun (success, out) hP => ?_
  cases success with
  | false =>
      by_cases hcallback : broker.brokerErrorCallback
      · simp only [hcallback]
        refine ensures_ok ⟨rfl, fun errorType data hmem => ⟨out, hP, ?_⟩⟩
        simp only [List.mem_cons, List.not_mem_nil, BrokerCall.errorDetected.injEq, reduceCtorEq,
          or_false, false_or] at hmem
        exact hmem.1
      · simp only [hcallback]
        exact ensures_ok ⟨rfl, by simp⟩
  | true =>
      by_cases hdest : out.destination.toNat < spec.interfaceMaxId
      · simp only [hdest]
        exact (ensures_true _).bind fun _ _ => ensures_ok ⟨rfl, by simp⟩
      · simp only [hdest]
        exact ensures_error _ _

/-! ## the table of deliver functions -/

/-- A packet is either rejected, which is reported if there is somebody to
report it to, or handed with data of its own to one deliver function of the
table, exactly if a packet that passes the checks of its format names an
interface below `INTERFACE_MAX_ID`. -/
theorem receivePacket_deliver_iff (broker : Broker spec) (bus : spec.Bus) (packet : List UInt8)
    (hcfg : spec.busToPacketizerCfg bus ≠ .deviceProvided)
    (hw : packet.length < 2 ^ spec.sizeBits) :
    ((∃ errors, receivePacket spec broker bus packet =
          .ok (broker, [.acquireLock] ++ errors ++ [.releaseLock]) ∧
        if broker.brokerErrorCallback then ∃ errorType, errors = [.errorDetected errorType packet]
        else errors = []) ∨
      ∃ interface senderPid offset size, offset + size ≤ packet.length ∧
        receivePacket spec broker bus packet =
          .ok (broker, [.acquireLock,
            .deliver interface senderPid ((packet.drop offset).take size), .releaseLock])) ↔
    (spec.verdict bus packet = .accept →
      (spec.fields bus packet).destination.toNat < spec.interfaceMaxId) := by
  rw [receivePacket_eq broker hcfg hw]
  have hfields := spec.fields_le bus packet
  cases hverdict : spec.verdict bus packet with
  | reject code =>
      refine ⟨fun _ h => by contradiction, fun _ => .inl ⟨_, rfl, ?_⟩⟩
      unfold rejection
      by_cases hcallback : broker.brokerErrorCallback
      · rw [if_pos hcallback, if_pos hcallback]
        exact ⟨_, rfl⟩
      · rw [if_neg hcallback, if_neg hcallback]
  | accept =>
      by_cases hdest : (spec.fields bus packet).destination.toNat < spec.interfaceMaxId
      · rw [dif_pos hdest]
        exact ⟨fun _ _ => hdest, fun _ => .inr ⟨_, _, _, _, hfields hverdict, rfl⟩⟩
      · rw [dif_neg hdest]
        constructor
        · rintro (⟨_, h, -⟩ | ⟨_, _, _, _, -, h⟩) <;> contradiction
        · exact fun h => absurd (h rfl) hdest

/-- An empty default packet for interface 0. -/
theorem receivePacket_deliver_iff_empty :
    let packet := [0, 0, 0, 0, 255, 255, 255, 255, 0, 0, 0xA8, 0xF1]
    let bus : (SystemSpec.mock .default).Bus := ⟨1, by decide⟩
    ((∃ errors, receivePacket (.mock .default) (static _) bus packet =
          .ok (static _, [.acquireLock] ++ errors ++ [.releaseLock]) ∧
        if (static (.mock .default)).brokerErrorCallback then
          ∃ errorType, errors = [.errorDetected errorType packet]
        else errors = []) ∨
      ∃ interface senderPid offset size, offset + size ≤ packet.length ∧
        receivePacket (.mock .default) (static _) bus packet =
          .ok (static _, [.acquireLock,
            .deliver interface senderPid ((packet.drop offset).take size), .releaseLock])) ↔
    ((SystemSpec.mock .default).verdict bus packet = .accept →
      ((SystemSpec.mock .default).fields bus packet).destination.toNat < 1) :=
  receivePacket_deliver_iff (static (.mock .default)) ⟨1, by decide⟩ _ (by decide) (by decide)

/-- A thin packet for interface 5 of a table of one: the table is read
outside. -/
theorem receivePacket_outside :
    receivePacket (.mock .thin) (static _) (⟨1, by decide⟩ : Fin 2) [0, 5, 0, 0, 7] =
      .error (.readOutOfBounds 5) := by
  rfl

end Broker

end TasteRuntime
