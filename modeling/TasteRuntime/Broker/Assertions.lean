import TasteRuntime.Broker.Stream

/-!
# TasteRuntime.Broker.Assertions

The assertions of the packetizers against what the broker passes them.
Whatever it is called with, an operation that returns keeps the buffer and the
counters in their bounds (`Inv.run`), so in every reached state a request trips
an assertion exactly if it has no data and its bus is strict, thin or without
packets: these packetizers ask for at least one byte, which the broker does
not check (`deliverRequest_assertionFailed_iff`).
-/

namespace TasteRuntime

open CMemory

namespace Broker

/-! ## any operation that returns -/

/-- The packetizers but a device's keep object and counter in their bounds. -/
theorem ensures_packetize {cfg : PacketizerCfg} (hcfg : cfg ≠ .deviceProvided)
    (self : Packetizer) (packetType : PacketType) (busId : spec.Bus)
    (source destination : UInt16) (buffer : List UInt8) (dataOffset dataSize : Nat) :
    Ensures ((packetizersFunctions spec cfg).packetize self packetType busId source destination
      buffer dataOffset dataSize) (Packetized.Keeps self buffer) := by
  cases cfg with
  | default | ccsds =>
      exact Packetizer.ensures_packetize spec.sizeBits self packetType busId source
        destination buffer dataOffset dataSize
  | strictCcsds =>
      exact CCSDSPacketizer.ensures_packetize spec.sizeBits self packetType busId source
        destination buffer dataOffset dataSize
  | thin =>
      exact ThinPacketizer.ensures_packetize spec.sizeBits self packetType busId source
        destination buffer dataOffset dataSize
  | passthrough => exact (ensures_true _).bind fun _ _ => ensures_ok ⟨rfl, id⟩
  | deviceProvided => exact absurd rfl hcfg

/-- A request keeps the invariant, whatever it asks for. -/
theorem Inv.deliverRequest {broker : Broker spec} (hinv : Inv broker) (hbuiltIn : spec.BuiltIn)
    (request : Request spec) :
    Ensures (Broker.deliverRequest spec broker request) fun result => Inv result.1 := by
  refine (ensures_memcpy hinv.length_buffer).bind fun buffer hbuffer =>
    (ensures_packetize (hbuiltIn request.bus) _ _ _ _ _ _ _ _).bind fun sent hsent =>
    (ensures_true _).bind fun _ _ => ensures_ok ⟨hsent.1.trans hbuffer, fun bus => ?_⟩
  by_cases hbus : bus = request.bus
  · subst hbus
    simp only [Function.update_self]
    exact hsent.2 (hinv.count_le _)
  · simp only [Function.update_of_ne hbus]
    exact hinv.count_le bus

/-- An operation keeps the invariant if it returns. -/
theorem Inv.step {broker : Broker spec} (hinv : Inv broker) (hbuiltIn : spec.BuiltIn)
    (op : BrokerOp spec) : Ensures (Broker.step spec broker op) fun result => Inv result.1 := by
  cases op with
  | deliverRequest request => exact hinv.deliverRequest hbuiltIn request
  | receivePacket bus packet =>
      exact (ensures_receivePacket broker bus packet (ensures_true _)).mono fun _ h => h.1 ▸ hinv
  | registerErrorCallback callback => exact ensures_ok ⟨hinv.length_buffer, hinv.count_le⟩

/-- Every broker that is reached has its buffer and counters in their bounds. -/
theorem Inv.run {broker : Broker spec} (hinv : Inv broker) (hbuiltIn : spec.BuiltIn)
    (ops : List (BrokerOp spec)) (hrun : Broker.run spec broker ops = .ok (broker', calls)) :
    Inv broker' :=
  Transducer.invariant_of_runCall (Broker.step spec) ops
    (fun _ op _ _ hinv _ hstep => hinv.step hbuiltIn op _ hstep) hinv hrun

/-! ## the assertions of a request -/

/-- A request within the bounds of the broker is admitted if it has data or
its bus is in the default format. -/
theorem admitted_of_bounds {request : Request spec} (hapid : request.interface.val ≤ 2047)
    (hlength : request.data.length ≤ min spec.genericPartitionBufferSize 65534)
    (h : 1 ≤ request.data.length ∨ spec.busToPacketizerCfg request.bus = .default ∨
      spec.busToPacketizerCfg request.bus = .ccsds) : request.Admitted := by
  have hdest := Request.destination_le hapid
  have hmax := Nat.le_trans hlength (Nat.min_le_right _ _)
  refine ⟨Nat.le_trans hlength (Nat.min_le_left _ _), ?_⟩
  cases hcfg : spec.busToPacketizerCfg request.bus <;>
    simp only [hcfg, reduceCtorEq, or_false] at h <;>
    simp only [PacketizerCfg.Asserts, spacePacketMaxPacketDataSize,
      ccsdsSpacePacketMaxPacketDataSize]
  case default | ccsds => exact ⟨hdest, by omega⟩
  case strictCcsds | thin => exact ⟨hdest, h, by omega⟩
  case passthrough => exact h

/-- Without data a strict, thin or passthrough packetizer fails its assertion,
after it passed those in front of it. -/
theorem packetize_empty {cfg : PacketizerCfg} (hdefault : cfg ≠ .default) (hccsds : cfg ≠ .ccsds)
    (hdevice : cfg ≠ .deviceProvided) {self : Packetizer}
    (hcount : self.packetSequenceCount ≤ spacePacketMaxPacketSequenceCount)
    (packetType : PacketType) (busId : spec.Bus) (source : UInt16) {destination : UInt16}
    (hdest : destination ≤ spacePacketMaxApid) (buffer : List UInt8) :
    (packetizersFunctions spec cfg).packetize self packetType busId source destination buffer
      (packetizersFunctions spec cfg).headerSize 0 = .error .assertionFailed := by
  cases cfg with
  | default => contradiction
  | ccsds => contradiction
  | deviceProvided => contradiction
  | strictCcsds =>
      simp only [packetizersFunctions, CCSDSPacketizer.packetize]
      rw [assert_of hcount, assert_of hdest, assert_of trivial, assert_of_not (by simp)]
      rfl
  | thin =>
      simp only [packetizersFunctions, ThinPacketizer.packetize]
      rw [assert_of hdest, assert_of trivial, assert_of_not (by simp)]
      rfl
  | passthrough =>
      simp only [packetizersFunctions, PassthroughPacketizer.packetize]
      rw [assert_of_not (by simp)]
      rfl

/-- So does a request without data on a bus of theirs. -/
theorem deliverRequest_empty {broker : Broker spec} (hinv : Inv broker) (hbuiltIn : spec.BuiltIn)
    {request : Request spec} (hempty : request.data = [])
    (hapid : request.interface.val ≤ 2047)
    (hcfg : spec.busToPacketizerCfg request.bus ≠ .default ∧
      spec.busToPacketizerCfg request.bus ≠ .ccsds) :
    deliverRequest spec broker request = .error .assertionFailed := by
  obtain ⟨header, tail, hmemcpy, -, -⟩ :=
    memcpy_of_le hinv.length_buffer request (Nat.le_of_add_right_le
      (bodySize_add_trailerSize_le request (by rw [hempty]; exact Nat.zero_le _)))
  have hpacketize (packetType : PacketType) (source : UInt16) (buffer : List UInt8) :=
    packetize_empty hcfg.1 hcfg.2 (hbuiltIn request.bus) (hinv.count_le request.bus) packetType
      request.bus source (Request.destination_le hapid) buffer
  rw [hempty, List.length_nil] at hmemcpy
  unfold deliverRequest
  simp only [if_neg (hbuiltIn request.bus), hempty, hmemcpy, ok_bind, List.length_nil, hpacketize,
    error_bind]

/-- **Assertions**: in every state reached after `Broker_initialize`, the first
or a later one, by operations of any kind, a request within the bounds of the
broker passes the assertions of its packetizer exactly if it has data or its
bus is in the default format. -/
theorem deliverRequest_assertionFailed_iff (hbuiltIn : spec.BuiltIn) {start : Broker spec}
    (hstart : Inv start) (validBuses : Fin spec.systemBusesNumber → Nat)
    (hinit : brokerInitialize spec start validBuses = .ok broker)
    (ops : List (BrokerOp spec)) (hrun : run spec broker ops = .ok (broker', calls))
    (request : Request spec) (hapid : request.interface.val ≤ 2047)
    (hlength : request.data.length ≤ min spec.genericPartitionBufferSize 65534) :
    deliverRequest spec broker' request ≠ .error .assertionFailed ↔
      1 ≤ request.data.length ∨ spec.busToPacketizerCfg request.bus = .default ∨
        spec.busToPacketizerCfg request.bus = .ccsds := by
  have hinv := (hstart.brokerInitialize hbuiltIn hinit).run hbuiltIn ops hrun
  constructor
  · intro hpasses
    by_contra hno
    rw [not_or, not_or, Nat.not_le, Nat.lt_one_iff] at hno
    exact hpasses (deliverRequest_empty hinv hbuiltIn (List.length_eq_zero_iff.mp hno.1) hapid
      hno.2)
  · intro h hfails
    obtain ⟨buffer, hdeliver, -⟩ :=
      deliverRequest_eq hinv request (hbuiltIn _) (admitted_of_bounds hapid hlength h)
    rw [hdeliver] at hfails
    contradiction

/-- A thin bus, after a request and a packet that is too small. -/
theorem deliverRequest_assertionFailed_iff_thin :
    ∃ broker broker' calls,
      brokerInitialize (.mock .thin) (static _) (fun i => i.val + 1) = .ok broker ∧
      run (.mock .thin) broker [.deliverRequest ⟨⟨0, by decide⟩, 3, [7]⟩,
        .receivePacket ⟨1, by decide⟩ [0]] = .ok (broker', calls) ∧
      (deliverRequest (.mock .thin) broker' ⟨⟨0, by decide⟩, 3, [1, 2]⟩ ≠
          .error .assertionFailed ↔
        1 ≤ 2 ∨ PacketizerCfg.thin = .default ∨ PacketizerCfg.thin = .ccsds) :=
  ⟨_, _, _, rfl, rfl, deliverRequest_assertionFailed_iff (SystemSpec.builtIn_mock (by decide))
    (inv_static (.mock .thin)) (fun i => i.val + 1) rfl
    [.deliverRequest ⟨⟨0, by decide⟩, 3, [7]⟩, .receivePacket ⟨1, by decide⟩ [0]] rfl
    ⟨⟨0, by decide⟩, 3, [1, 2]⟩ (by decide) (by decide)⟩

/-- The request of a sporadic interface without a parameter, right after the
start, on a strict, a thin and a passthrough bus. -/
theorem deliverRequest_parameterless :
    (∃ broker, brokerInitialize (.mock .strictCcsds) (static _) (fun i => i.val + 1) =
        .ok broker ∧
      deliverRequest (.mock .strictCcsds) broker ⟨⟨0, by decide⟩, 3, []⟩ =
        .error .assertionFailed) ∧
    (∃ broker, brokerInitialize (.mock .thin) (static _) (fun i => i.val + 1) = .ok broker ∧
      deliverRequest (.mock .thin) broker ⟨⟨0, by decide⟩, 3, []⟩ = .error .assertionFailed) ∧
    (∃ broker, brokerInitialize (.mock .passthrough) (static _) (fun i => i.val + 1) =
        .ok broker ∧
      deliverRequest (.mock .passthrough) broker ⟨⟨0, by decide⟩, 3, []⟩ =
        .error .assertionFailed) :=
  ⟨⟨_, rfl, rfl⟩, ⟨_, rfl, rfl⟩, ⟨_, rfl, rfl⟩⟩

end Broker

end TasteRuntime
