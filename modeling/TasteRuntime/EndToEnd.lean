import TasteRuntime.Broker.Stream
import TasteRuntime.Escaper.Stream

/-!
# TasteRuntime.EndToEnd

A request from one broker to another over a serial line: the sending broker
packetizes it, its driver frames the packet piece by piece, the receiving
driver takes the line apart in whatever portions it arrives, and the receiving
broker hands the data to the interface (`deliveries_run`).
-/

namespace TasteRuntime

open CMemory Stuffing Escaper

/-- The interface, sender PID and data of a call of a deliver function. -/
def BrokerCall.delivered : BrokerCall spec → Option (Nat × Option Nat × List UInt8)
  | .deliver interface senderPid data => some (interface, senderPid, data)
  | _ => none

/-- What a deliver function of the other end is to be called with: the
interface, the sender PID as far as both targets carry it, and the data. -/
def Request.arrival {S : SystemSpec} (R : SystemSpec) (request : Request S) :
    Nat × Option Nat × List UInt8 :=
  (request.interface,
    if R.hasSenderPid then some (if S.hasSenderPid then request.senderPid else 0) else none,
    request.data)

/-! ## the default format, under either of its names -/

namespace PacketizerCfg

theorem ne_deviceProvided_of_default {cfg : PacketizerCfg} (h : cfg = .default ∨ cfg = .ccsds) :
    cfg ≠ .deviceProvided := by
  obtain rfl | rfl := h <;> simp

theorem encode_of_default {cfg : PacketizerCfg} (h : cfg = .default ∨ cfg = .ccsds) :
    cfg.encode = SpacePacket.encodeDefault := by
  obtain rfl | rfl := h <;> rfl

end PacketizerCfg

/-- On a bus in the default format every request that fits is admitted. -/
theorem Request.admitted_of_default {request : Request spec}
    (hcfg : spec.busToPacketizerCfg request.bus = .default ∨
      spec.busToPacketizerCfg request.bus = .ccsds)
    (hapid : request.interface.val ≤ 2047)
    (hlength : request.data.length ≤ spec.genericPartitionBufferSize)
    (hsize : spec.genericPartitionBufferSize < 2 ^ 32 - 1) : request.Admitted := by
  have hasserts : UInt16.ofNat request.interface ≤ spacePacketMaxApid ∧
      request.data.length < spacePacketMaxPacketDataSize :=
    ⟨Request.destination_le hapid, Nat.lt_of_le_of_lt hlength hsize⟩
  refine ⟨hlength, ?_⟩
  obtain h | h := hcfg <;> rw [h] <;> exact hasserts

namespace Broker

/-- The calls of deliver functions, in order. -/
def deliveries (calls : List (BrokerCall spec)) : List (Nat × Option Nat × List UInt8) :=
  calls.filterMap BrokerCall.delivered

@[simp] theorem deliveries_append (calls calls' : List (BrokerCall spec)) :
    deliveries (calls ++ calls') = deliveries calls ++ deliveries calls' :=
  List.filterMap_append

/-! ## the sending broker -/

/-- A run of requests on one bus sends one packet for each, in order. -/
theorem run_deliverRequests {broker : Broker spec} (hinv : Inv broker) (bus : spec.Bus)
    (hcfg : spec.busToPacketizerCfg bus ≠ .deviceProvided) (requests : List (Request spec))
    (hrequests : ∀ r ∈ requests, r.bus = bus ∧ r.Admitted) :
    ∃ broker' calls, run spec broker (requests.map .deliverRequest) = .ok (broker', calls) ∧
      List.Forall₂ (fun request packet => ∃ count,
        packet = (spec.busToPacketizerCfg bus).encode (request.spacePacket count))
        requests (sentOn bus calls) := by
  induction requests generalizing broker with
  | nil => exact ⟨broker, [], rfl, .nil⟩
  | cons request rest ih =>
      obtain ⟨⟨rfl, hadmitted⟩, hrest⟩ := List.forall_mem_cons.mp hrequests
      obtain ⟨buffer, hdeliver, hbuffer⟩ := deliverRequest_eq hinv request hcfg hadmitted
      obtain ⟨broker', calls, hrun, hsent⟩ := ih (hinv.afterRequest _ hbuffer) hrest
      refine ⟨broker', _, Transducer.runCall_cons (step spec) hdeliver hrun, ?_⟩
      rw [sentOn_append, sentOn_send, if_pos rfl]
      exact .cons ⟨_, rfl⟩ hsent

/-! ## the receiving broker -/

/-- A default packet of the expected type for an interface of the table is
handed to that interface. -/
theorem receivePacket_encodeDefault (broker : Broker spec) {bus : spec.Bus}
    (hcfg : spec.busToPacketizerCfg bus = .default ∨ spec.busToPacketizerCfg bus = .ccsds)
    (p : SpacePacket) (htype : p.packetType = spec.expectPacketType)
    (hdata : p.data.length < 2 ^ 32 - 1) (hw : p.data.length + 12 < 2 ^ spec.sizeBits)
    (hdest : p.destination.val < spec.interfaceMaxId) :
    receivePacket spec broker bus p.encodeDefault =
      .ok (broker, [.acquireLock,
        .deliver ⟨p.destination.val, hdest⟩
          (if spec.hasSenderPid then some p.source.toNat else none) p.data,
        .releaseLock]) := by
  have hverdict : spec.verdict bus p.encodeDefault = .accept := by
    have haccept := PacketFormat.defaultVerdict_encodeDefault spec.expectPacketType hdata hw
    rw [if_pos htype] at haccept
    obtain h | h := hcfg <;> simp only [SystemSpec.verdict, h, haccept]
  have hfields : spec.fields bus p.encodeDefault =
      ⟨p.source, UInt16.ofNat p.destination, 8, p.data.length, some 0⟩ := by
    obtain h | h := hcfg <;>
      simp only [SystemSpec.fields, h, PacketFormat.defaultSource_encodeDefault,
        PacketFormat.defaultDestination_encodeDefault, SpacePacket.length_encodeDefault,
        Nat.add_sub_cancel]
  have hdevice := PacketizerCfg.ne_deviceProvided_of_default hcfg
  have hnat : (UInt16.ofNat p.destination).toNat = p.destination.val := by
    have hlt := p.destination.isLt
    rw [UInt16.toNat_ofNat', Nat.mod_eq_of_lt (by omega)]
  have hpayload : (p.encodeDefault.drop 8).take p.data.length = p.data := by
    simpa using p.take_drop_encodeDefault []
  rw [receivePacket_eq broker hdevice (by simpa using hw), hverdict]
  simp only [delivery, hfields, hpayload, hnat, hdest, dif_pos]

/-- What is paired has a partner. -/
theorem exists_mem_of_forall₂ (h : List.Forall₂ r as bs) : ∀ b ∈ bs, ∃ a ∈ as, r a b := by
  induction h with
  | nil => exact fun _ hb => absurd hb List.not_mem_nil
  | cons hab _ ih =>
      intro b hb
      obtain rfl | hb := List.mem_cons.mp hb
      · exact ⟨_, List.mem_cons_self, hab⟩
      · obtain ⟨a, ha, hab⟩ := ih b hb
        exact ⟨a, List.mem_cons_of_mem _ ha, hab⟩

/-- A run of default packets, each for the request at its place, delivers the
requests and reports no error. -/
theorem run_receivePackets {S R : SystemSpec} (receiver : Broker R) {bus : R.Bus}
    (hcfg : R.busToPacketizerCfg bus = .default ∨ R.busToPacketizerCfg bus = .ccsds)
    (htype : S.sendPacketType = R.expectPacketType)
    (requests : List (Request S)) (packets : List (List UInt8))
    (hpackets : List.Forall₂ (fun request packet => ∃ count,
      packet = (request.spacePacket count).encodeDefault) requests packets)
    (hrequests : ∀ r ∈ requests, r.interface.val ≤ 2047 ∧ r.interface.val < R.interfaceMaxId ∧
      r.senderPid < 2 ^ 16 ∧ r.data.length < 2 ^ 32 - 1 ∧
      r.data.length + 12 < 2 ^ R.sizeBits) :
    ∃ calls, run R receiver (packets.map (.receivePacket bus)) = .ok (receiver, calls) ∧
      deliveries calls = requests.map (Request.arrival R) ∧
      ∀ errorType packet, .errorDetected errorType packet ∉ calls := by
  induction hpackets with
  | nil => exact ⟨[], rfl, rfl, fun _ _ => List.not_mem_nil⟩
  | @cons request packet requests packets hpacket hpackets ih =>
      obtain ⟨count, rfl⟩ := hpacket
      obtain ⟨⟨hapid, htable, hpid, hdata, hw⟩, hrest⟩ := List.forall_mem_cons.mp hrequests
      obtain ⟨calls, hrun, hdelivered, herrors⟩ := ih hrest
      have hdest : (request.spacePacket count).destination.val = request.interface.val :=
        Nat.mod_eq_of_lt (Nat.lt_succ_of_le hapid)
      have hreceive := receivePacket_encodeDefault receiver hcfg (request.spacePacket count) htype
        hdata hw (hdest ▸ htable)
      refine ⟨_, Transducer.runCall_cons (step R) hreceive hrun, ?_, ?_⟩
      · have hsource : (request.spacePacket count).source.toNat =
            if S.hasSenderPid then request.senderPid else 0 := by
          rw [Request.spacePacket_source]
          split
          · rw [UInt16.toNat_ofNat', Nat.mod_eq_of_lt hpid]
          · rfl
        have harrival : request.arrival R = ((request.spacePacket count).destination.val,
            if R.hasSenderPid then some (request.spacePacket count).source.toNat else none,
            (request.spacePacket count).data) := by
          rw [Request.arrival, hdest, hsource]
          rfl
        rw [deliveries_append, hdelivered, List.map_cons, harrival]
        rfl
      · intro errorType packet hmem
        obtain hmem | hmem := List.mem_append.mp hmem
        · simp at hmem
        · exact herrors errorType packet hmem

/-! ## the whole way -/

/-- **End to end**: every request of a run on a bus in the default format
reaches its interface at the other end exactly once, in order, with its sender
PID and its data, and no error is reported.  The shifts that write the size
field are defined where the sender's `size_t` has 25 bits or more. -/
theorem deliveries_run {S R : SystemSpec} {sender : Broker S} (hinv : Inv sender)
    (receiver : Broker R) (sendBus : S.Bus) (receiveBus : R.Bus)
    (hsend : S.busToPacketizerCfg sendBus = .default ∨ S.busToPacketizerCfg sendBus = .ccsds)
    (hreceive : R.busToPacketizerCfg receiveBus = .default ∨
      R.busToPacketizerCfg receiveBus = .ccsds)
    (htype : S.sendPacketType = R.expectPacketType) (_hshift : 24 < S.sizeBits)
    (hsize : S.genericPartitionBufferSize < 2 ^ 32 - 1)
    (hencoder : CanEncode M encoder) (encodeBuffer decodeBuffer : List UInt8) (encodeSize : Nat)
    (hdecode : decodeBuffer.length < 2 ^ R.sizeBits) (requests : List (Request S))
    (hrequests : ∀ r ∈ requests, r.bus = sendBus ∧ r.interface.val ≤ 2047 ∧
      r.interface.val < R.interfaceMaxId ∧ r.senderPid < 2 ^ 16 ∧
      r.data.length ≤ S.genericPartitionBufferSize ∧
      r.data.length + 12 ≤ decodeBuffer.length) :
    ∃ sender' sent, run S sender (requests.map .deliverRequest) = .ok (sender', sent) ∧
      ∃ encoder' frames, sendPackets encoder (sentOn sendBus sent) = .ok (encoder', frames) ∧
        ∀ cuts : List (List UInt8), cuts.flatten = frames.flatten →
          ∃ decoder' packets, decodePackets
              (Escaper.init encodeBuffer encodeSize decodeBuffer decodeBuffer.length) receiveBus
              cuts = .ok (decoder', packets) ∧
            ∃ calls, run R receiver
                (packets.map fun call => .receivePacket call.busId call.packet) =
                  .ok (receiver, calls) ∧
              deliveries calls = requests.map (Request.arrival R) ∧
              ∀ errorType packet, .errorDetected errorType packet ∉ calls := by
  have hadmitted : ∀ r ∈ requests, r.bus = sendBus ∧ r.Admitted := by
    intro r hr
    obtain ⟨rfl, hapid, -, -, hlength, -⟩ := hrequests r hr
    exact ⟨rfl, Request.admitted_of_default hsend hapid hlength hsize⟩
  obtain ⟨sender', sent, hrun, hsent⟩ := run_deliverRequests hinv sendBus
    (PacketizerCfg.ne_deviceProvided_of_default hsend) requests hadmitted
  rw [PacketizerCfg.encode_of_default hsend] at hsent
  obtain ⟨encoder', hframes, -⟩ := sendPackets_eq hencoder (sentOn sendBus sent)
  refine ⟨sender', sent, hrun, encoder', _, hframes, fun cuts hcuts => ?_⟩
  have hfit : ∀ packet ∈ sentOn sendBus sent, packet.length ≤ decodeBuffer.length := by
    intro packet hpacket
    obtain ⟨r, hr, count, rfl⟩ := exists_mem_of_forall₂ hsent packet hpacket
    obtain ⟨-, -, -, -, -, hroom⟩ := hrequests r hr
    rw [SpacePacket.length_encodeDefault, Request.spacePacket_data]
    exact hroom
  obtain ⟨decoder', hdecoded, -, -⟩ := decodePackets_eq
    (decoderInv_init encodeBuffer decodeBuffer encodeSize) receiveBus cuts
  rw [abs_init, hcuts, ← List.flatMap_def, (output_frames alphabet _ hfit).1] at hdecoded
  refine ⟨decoder', _, hdecoded, ?_⟩
  rw [List.map_map]
  refine run_receivePackets receiver hreceive htype requests _ hsent fun r hr => ?_
  obtain ⟨-, hapid, htable, hpid, hlength, hroom⟩ := hrequests r hr
  exact ⟨hapid, htable, hpid, Nat.lt_of_le_of_lt hlength hsize, Nat.lt_of_le_of_lt hroom hdecode⟩

/-- Two requests over two runtime mocks, one with control bytes and one without
data, through an encode buffer of two bytes and a decode buffer of 14. -/
theorem deliveries_run_two :
    let requests : List (Request (.mock .default)) :=
      [⟨⟨0, by decide⟩, 3, [0x00, 0xFF]⟩, ⟨⟨0, by decide⟩, 65535, []⟩]
    let bus : (SystemSpec.mock .default).Bus := ⟨0, by decide⟩
    ∃ sender' sent, run (.mock .default) (static _) (requests.map .deliverRequest) =
        .ok (sender', sent) ∧
      ∃ encoder' frames, sendPackets (Escaper.init [0, 0] 2 [] 0) (sentOn bus sent) =
          .ok (encoder', frames) ∧
        ∀ cuts : List (List UInt8), cuts.flatten = frames.flatten →
          ∃ decoder' packets, decodePackets (Escaper.init [] 0 (List.replicate 14 0) 14) bus
              cuts = .ok (decoder', packets) ∧
            ∃ calls, run (.mock .ccsds) (static _)
                (packets.map fun call => .receivePacket call.busId call.packet) =
                  .ok (static _, calls) ∧
              deliveries calls = requests.map (Request.arrival (.mock .ccsds)) ∧
              ∀ errorType packet, .errorDetected errorType packet ∉ calls :=
  deliveries_run (inv_static _) (static (.mock .ccsds)) ⟨0, by decide⟩ ⟨0, by decide⟩ (.inl rfl)
    (.inr rfl) rfl (by decide) (by decide) canEncode_two [] (List.replicate 14 0) 0 (by decide)
    [⟨⟨0, by decide⟩, 3, [0x00, 0xFF]⟩, ⟨⟨0, by decide⟩, 65535, []⟩]
    (List.forall_mem_cons.mpr ⟨by decide, List.forall_mem_singleton.mpr (by decide)⟩)

end Broker

end TasteRuntime
