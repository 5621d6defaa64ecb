import TasteRuntime.Crc16.BitSerial
import TasteRuntime.IsoChecksum.Standard
import TasteRuntime.Broker.Initialize
import TasteRuntime.Broker.Receive

/-!
# TasteRuntime.Broker.Stream

The packets of one bus over a run of the broker: the k-th of them is the
reference encoding of the k-th request on that bus, numbered k modulo 2^14 in
the formats that number, whatever the other buses send and receive and
whatever the shared buffer held.  The reference encodings take their checksums
from the definitions of the standards and not from the code
(`PacketizerCfg.encode_eq_standardEncoding`).

A run does not get past a received packet that is accepted and names no
interface: it stops there at the table of deliver functions
(`sentOn_handled`), and it handles all its operations exactly if there is no
such packet among them (`sentOn_run`).
-/

namespace TasteRuntime

open CMemory BigEndian

/-! ## reference encodings -/

namespace PacketizerCfg

/-- The reference encoding of a packet in a format: a CRC is the remainder of
the bit-serial register and a checksum the two sums of the standard, each over
the bytes in front of the trailer's own fields.  That of a device is not
known. -/
def standardEncoding (cfg : PacketizerCfg) (p : SpacePacket) : List UInt8 :=
  match cfg with
  | .default | .ccsds =>
      p.defaultBody ++ (toBytes 2 p.source.toNat ++
        toBytes 2 (crc16BitSerial p.defaultBody).toNat)
  | .strictCcsds => p.strictBody ++ toBytes 2 (IsoChecksum.standard p.strictBody).toNat
  | .thin => p.encodeThin
  | .passthrough => p.data
  | .deviceProvided => []

/-- What the packetizers write is the reference encoding. -/
theorem encode_eq_standardEncoding (cfg : PacketizerCfg) (p : SpacePacket) :
    cfg.encode p = cfg.standardEncoding p := by
  cases cfg with
  | default | ccsds =>
      simp only [encode, standardEncoding, SpacePacket.encodeDefault, calculateCrc16_eq]
  | strictCcsds =>
      simp only [encode, standardEncoding, SpacePacket.encodeStrict,
        IsoChecksum.calculate_eq_standard]
  | thin | passthrough | deviceProvided => rfl

end PacketizerCfg

/-! ## what concerns one bus -/

/-- An operation is called as its callers promise: a request meets the
assertions of its packetizer, and what is received is an object of the
target. -/
def BrokerOp.Admitted : BrokerOp spec → Prop
  | .deliverRequest request => request.Admitted
  | .receivePacket _ data => data.length < 2 ^ spec.sizeBits
  | .registerErrorCallback _ => True

instance : (op : BrokerOp spec) → Decidable op.Admitted
  | .deliverRequest request => inferInstanceAs (Decidable request.Admitted)
  | .receivePacket _ _ => inferInstanceAs (Decidable (_ < _))
  | .registerErrorCallback _ => inferInstanceAs (Decidable True)

/-- A received packet that is accepted names an interface of the table of
deliver functions. -/
def BrokerOp.NamesInterface : BrokerOp spec → Prop
  | .receivePacket bus packet => spec.verdict bus packet = .accept →
      (spec.fields bus packet).destination.toNat < spec.interfaceMaxId
  | _ => True

instance : (op : BrokerOp spec) → Decidable op.NamesInterface
  | .receivePacket _ _ => inferInstanceAs (Decidable (_ → _))
  | .deliverRequest _ | .registerErrorCallback _ => inferInstanceAs (Decidable True)

/-- The request an operation makes on a bus. -/
def BrokerOp.requestOn (bus : spec.Bus) : BrokerOp spec → Option (Request spec)
  | .deliverRequest request => if request.bus = bus then some request else none
  | _ => none

theorem BrokerOp.eq_of_requestOn {op : BrokerOp spec} {bus : spec.Bus} {request : Request spec}
    (h : op.requestOn bus = some request) : op = .deliverRequest request ∧ request.bus = bus := by
  cases op with
  | receivePacket _ _ => contradiction
  | registerErrorCallback _ => contradiction
  | deliverRequest other =>
      simp only [BrokerOp.requestOn] at h
      split at h
      · next hbus =>
          obtain rfl := Option.some.inj h
          exact ⟨rfl, hbus⟩
      · contradiction

/-- The packet a call hands to the send function of a bus. -/
def BrokerCall.sentOn (bus : spec.Bus) : BrokerCall spec → Option (List UInt8)
  | .send busId packet => if busId = bus then some packet else none
  | _ => none

namespace Broker

/-- The requests on a bus, in order. -/
def requestsOn (bus : spec.Bus) (ops : List (BrokerOp spec)) : List (Request spec) :=
  ops.filterMap (BrokerOp.requestOn bus)

/-- The packets handed to the send function of a bus, in order. -/
def sentOn (bus : spec.Bus) (calls : List (BrokerCall spec)) : List (List UInt8) :=
  calls.filterMap (BrokerCall.sentOn bus)

/-- The reference encoding of the requests on a bus, the k-th numbered k. -/
def reference (bus : spec.Bus) (requests : List (Request spec)) : List (List UInt8) :=
  requests.zipIdx.map fun (request, k) =>
    (spec.busToPacketizerCfg bus).standardEncoding (request.spacePacket (k % 2 ^ 14))

@[simp] theorem requestsOn_append (bus : spec.Bus) (ops ops' : List (BrokerOp spec)) :
    requestsOn bus (ops ++ ops') = requestsOn bus ops ++ requestsOn bus ops' :=
  List.filterMap_append

@[simp] theorem sentOn_append (bus : spec.Bus) (calls calls' : List (BrokerCall spec)) :
    sentOn bus (calls ++ calls') = sentOn bus calls ++ sentOn bus calls' :=
  List.filterMap_append

theorem requestsOn_deliverRequest (bus : spec.Bus) (request : Request spec) :
    requestsOn bus [.deliverRequest request] = if request.bus = bus then [request] else [] := by
  by_cases hbus : request.bus = bus <;>
    simp [requestsOn, BrokerOp.requestOn, hbus]

theorem sentOn_send {spec : SystemSpec} (bus busId : spec.Bus) (packet : List UInt8) :
    sentOn bus [.acquireLock, .send busId packet, .releaseLock] =
      if busId = bus then [packet] else [] := by
  by_cases hbus : busId = bus <;>
    simp [sentOn, List.filterMap_cons, BrokerCall.sentOn, hbus]

theorem reference_append_singleton (bus : spec.Bus) (requests : List (Request spec))
    (request : Request spec) :
    reference bus (requests ++ [request]) = reference bus requests ++
      [(spec.busToPacketizerCfg bus).standardEncoding
        (request.spacePacket (requests.length % 2 ^ 14))] := by
  simp [reference, List.zipIdx_append]

end Broker

/-- Without a number in it, a packet does not depend on the counter. -/
theorem PacketizerCfg.encode_of_not_counts {cfg : PacketizerCfg} (h : ¬ cfg.counts)
    (request : Request spec) (count count' : Nat) :
    cfg.encode (request.spacePacket count) = cfg.encode (request.spacePacket count') := by
  cases cfg with
  | default | ccsds | strictCcsds => exact absurd rfl h
  | thin | passthrough | deviceProvided => rfl

namespace Broker

/-! ## the invariant of a run -/

/-- After the operations `done`, which made `calls`: each bus was sent the
reference encoding of its requests, and its counter says how many there were. -/
structure Numbered (done : List (BrokerOp spec)) (broker : Broker spec)
    (calls : List (BrokerCall spec)) : Prop where
  inv : Inv broker
  count : ∀ bus, (spec.busToPacketizerCfg bus).counts →
    broker.count bus = (requestsOn bus done).length % 2 ^ 14
  sent : ∀ bus, sentOn bus calls = reference bus (requestsOn bus done)

/-- The one way an admitted operation does not return: a packet is accepted
and names no interface, so that the table of deliver functions is read
outside. -/
def StopsOutside (op : BrokerOp spec) (fault : Fault) : Prop :=
  ∃ bus packet, op = .receivePacket bus packet ∧ spec.verdict bus packet = .accept ∧
    spec.interfaceMaxId ≤ (spec.fields bus packet).destination.toNat ∧
    fault = .readOutOfBounds (spec.fields bus packet).destination.toNat

theorem StopsOutside.not_namesInterface {op : BrokerOp spec} (h : StopsOutside op fault) :
    ¬ op.NamesInterface := by
  obtain ⟨bus, packet, rfl, haccept, hle, -⟩ := h
  exact fun hnames => absurd (hnames haccept) (Nat.not_lt.mpr hle)

/-- An operation that makes no request and sends nothing keeps the invariant. -/
theorem Numbered.other {broker : Broker spec} (h : Numbered done broker calls)
    (hinv : Inv broker') (hcount : ∀ bus, broker'.count bus = broker.count bus)
    (hrequest : ∀ bus, requestsOn bus [op] = []) (hsent : ∀ bus, sentOn bus out = []) :
    Numbered (done ++ [op]) broker' (calls ++ out) := by
  refine ⟨hinv, fun bus hcounts => ?_, fun bus => ?_⟩
  · rw [hcount, requestsOn_append, hrequest, List.append_nil, h.count bus hcounts]
  · rw [sentOn_append, requestsOn_append, hsent, hrequest, List.append_nil, List.append_nil,
      h.sent bus]

/-- A request is sent with the next number of its bus. -/
theorem Numbered.deliverRequest {broker : Broker spec} (h : Numbered done broker calls)
    (hbuiltIn : spec.BuiltIn) (request : Request spec) (hadmitted : request.Admitted) :
    ∃ broker' out, step spec broker (.deliverRequest request) = .ok (broker', out) ∧
      Numbered (done ++ [.deliverRequest request]) broker' (calls ++ out) := by
  obtain ⟨buffer, hdeliver, hbuffer⟩ :=
    deliverRequest_eq h.inv request (hbuiltIn request.bus) hadmitted
  refine ⟨_, _, hdeliver, h.inv.afterRequest _ hbuffer, fun bus hcounts => ?_, fun bus => ?_⟩
  · rw [count_afterRequest h.inv, requestsOn_append, requestsOn_deliverRequest, h.count bus hcounts]
    by_cases hbus : bus = request.bus
    · subst hbus
      rw [if_pos ⟨rfl, hcounts⟩, if_pos rfl, List.length_append, List.length_singleton]
      omega
    · rw [if_neg (fun h => hbus h.1), if_neg (Ne.symm hbus), List.append_nil]
  · rw [sentOn_append, requestsOn_append, requestsOn_deliverRequest, sentOn_send, h.sent bus]
    by_cases hbus : request.bus = bus
    · subst hbus
      have hnumber : (spec.busToPacketizerCfg request.bus).encode
            (request.spacePacket (broker.count request.bus)) =
          (spec.busToPacketizerCfg request.bus).encode
            (request.spacePacket ((requestsOn request.bus done).length % 2 ^ 14)) := by
        by_cases hcounts : (spec.busToPacketizerCfg request.bus).counts
        · rw [h.count request.bus hcounts]
        · exact PacketizerCfg.encode_of_not_counts hcounts request _ _
      rw [if_pos rfl, if_pos rfl, reference_append_singleton, hnumber,
        PacketizerCfg.encode_eq_standardEncoding]
    · rw [if_neg hbus, if_neg hbus, List.append_nil, List.append_nil]

/-- A packet from a driver is not sent anywhere. -/
theorem Numbered.receivePacket {broker : Broker spec} (h : Numbered done broker calls)
    (hbuiltIn : spec.BuiltIn) (bus : spec.Bus) (packet : List UInt8)
    (hw : packet.length < 2 ^ spec.sizeBits) :
    (∃ broker' out, step spec broker (.receivePacket bus packet) = .ok (broker', out) ∧
      Numbered (done ++ [.receivePacket bus packet]) broker' (calls ++ out)) ∨
    ∃ fault, step spec broker (.receivePacket bus packet) = .error fault ∧
      StopsOutside (.receivePacket bus packet) fault := by
  have hreceive := receivePacket_eq broker (hbuiltIn bus) hw
  cases hverdict : spec.verdict bus packet with
  | reject code =>
      rw [hverdict] at hreceive
      refine .inl ⟨_, _, hreceive, h.other h.inv (fun _ => rfl) (fun _ => rfl) fun other => ?_⟩
      unfold rejection
      split <;> rfl
  | accept =>
      rw [hverdict] at hreceive
      by_cases hdest : (spec.fields bus packet).destination.toNat < spec.interfaceMaxId
      · rw [dif_pos hdest] at hreceive
        exact .inl ⟨_, _, hreceive, h.other h.inv (fun _ => rfl) (fun _ => rfl) fun _ => rfl⟩
      · rw [dif_neg hdest] at hreceive
        exact .inr ⟨_, hreceive, bus, packet, rfl, hverdict, Nat.le_of_not_lt hdest, rfl⟩

/-- One admitted operation keeps the invariant, or stops at the table of
deliver functions. -/
theorem Numbered.step {broker : Broker spec} (h : Numbered done broker calls)
    (hbuiltIn : spec.BuiltIn) (op : BrokerOp spec) (hadmitted : op.Admitted) :
    (∃ broker' out, Broker.step spec broker op = .ok (broker', out) ∧
      Numbered (done ++ [op]) broker' (calls ++ out)) ∨
    ∃ fault, Broker.step spec broker op = .error fault ∧ StopsOutside op fault := by
  cases op with
  | deliverRequest request => exact .inl (h.deliverRequest hbuiltIn request hadmitted)
  | receivePacket bus packet => exact h.receivePacket hbuiltIn bus packet hadmitted
  | registerErrorCallback callback =>
      exact .inl ⟨_, _, rfl, h.other ⟨h.inv.length_buffer, h.inv.count_le⟩ (fun _ => rfl)
        (fun _ => rfl) fun _ => rfl⟩

/-- An operation that returns does not read the table outside. -/
theorem namesInterface_of_step {broker : Broker spec} (hbuiltIn : spec.BuiltIn)
    {op : BrokerOp spec} (hadmitted : op.Admitted)
    (hstep : Broker.step spec broker op = .ok (broker', out)) : op.NamesInterface := by
  cases op with
  | deliverRequest request => trivial
  | registerErrorCallback callback => trivial
  | receivePacket bus packet =>
      intro haccept
      have hreceive := receivePacket_eq broker (hbuiltIn bus) hadmitted
      rw [haccept] at hreceive
      by_contra hno
      rw [dif_neg hno] at hreceive
      rw [Broker.step, hreceive] at hstep
      contradiction

/-- Neither does a run. -/
theorem namesInterface_of_run {broker : Broker spec} (hbuiltIn : spec.BuiltIn)
    (ops : List (BrokerOp spec)) (hops : ∀ op ∈ ops, op.Admitted)
    (hrun : run spec broker ops = .ok (broker', calls)) : ∀ op ∈ ops, op.NamesInterface := by
  have hstep (done : List (BrokerOp spec)) (broker : Broker spec) (_ : List (BrokerCall spec))
      (op : BrokerOp spec) (hdone : ∀ op ∈ done, op.NamesInterface) (hop : op ∈ ops) :
      (∃ broker' out, Broker.step spec broker op = .ok (broker', out) ∧
        ∀ op' ∈ done ++ [op], op'.NamesInterface) ∨
      ∃ fault, Broker.step spec broker op = .error fault ∧ True := by
    cases hstep : Broker.step spec broker op with
    | error fault => exact .inr ⟨fault, rfl, trivial⟩
    | ok result =>
        obtain ⟨broker', out⟩ := result
        refine .inl ⟨broker', out, rfl, List.forall_mem_append.mpr ⟨hdone, ?_⟩⟩
        exact List.forall_mem_singleton.mpr (namesInterface_of_step hbuiltIn (hops op hop) hstep)
  exact Transducer.runCall_invariant_of_ok (Broker.step spec) ops hstep (by simp) hrun

/-! ## from `Broker_initialize` on -/

/-- `Broker_initialize` starts the numbering of every bus it is given, and of
those that have not sent anything yet. -/
theorem numbered_brokerInitialize (hbuiltIn : spec.BuiltIn) {start broker : Broker spec}
    (hinv : Inv start)
    (hlisted : ∀ bus, (spec.busToPacketizerCfg bus).counts →
      bus ∈ listed spec (List.ofFn validBuses) ∨ start.count bus = 0)
    (hinit : brokerInitialize spec start validBuses = .ok broker) : Numbered [] broker [] := by
  refine ⟨hinv.brokerInitialize hbuiltIn hinit, fun bus hcounts => ?_, fun _ => rfl⟩
  rw [brokerInitialize_eq hbuiltIn] at hinit
  split at hinit
  · contradiction
  · rw [← Except.ok.inj hinit]
    obtain hmem | hzero := hlisted bus hcounts
    · exact count_restart_of_mem start hcounts hmem
    · exact count_restart_of_zero hzero _

/-- A run handles its operations up to the first one that stops at the table of
deliver functions, and until then every bus is sent the reference encodings of
its requests. -/
theorem sentOn_handled {broker : Broker spec} (hbuiltIn : spec.BuiltIn)
    (hstart : Numbered [] broker []) (ops : List (BrokerOp spec))
    (hops : ∀ op ∈ ops, op.Admitted) :
    ∃ handled rest broker' calls, ops = handled ++ rest ∧
      run spec broker handled = .ok (broker', calls) ∧
      (∀ bus, sentOn bus calls = reference bus (requestsOn bus handled)) ∧
      (rest = [] ∨ ∃ op rest' fault, rest = op :: rest' ∧
        step spec broker' op = .error fault ∧ StopsOutside op fault) := by
  obtain ⟨handled, rest, broker', calls, hsplit, hrun, hnumbered, hrest⟩ :=
    Transducer.runCall_invariant (step spec) ops
      (fun _ _ _ op h hop => h.step hbuiltIn op (hops op hop)) [] broker [] hstart
  exact ⟨handled, rest, broker', calls, hsplit, hrun, hnumbered.sent, hrest⟩

/-- **Streams**: whatever is in the buffer and however often it is initialised,
from `Broker_initialize` on the k-th packet handed to the send function of a
bus is the reference encoding of the k-th request on that bus, over any
admitted operations on any buses, all of which are handled without leaving the
buffer or tripping an assertion: exactly if every received packet that is
accepted names an interface.  A bus that `Broker_initialize` is not given must
not have sent anything before. -/
theorem sentOn_run (hbuiltIn : spec.BuiltIn) {start : Broker spec} (hinv : Inv start)
    (validBuses : Fin spec.systemBusesNumber → Nat)
    (hlisted : ∀ bus, (spec.busToPacketizerCfg bus).counts →
      bus ∈ listed spec (List.ofFn validBuses) ∨ start.count bus = 0)
    (hinit : brokerInitialize spec start validBuses = .ok broker)
    (ops : List (BrokerOp spec)) (hops : ∀ op ∈ ops, op.Admitted) :
    (∃ broker' calls, run spec broker ops = .ok (broker', calls) ∧
      ∀ bus, sentOn bus calls = reference bus (requestsOn bus ops)) ↔
    ∀ op ∈ ops, op.NamesInterface := by
  constructor
  · rintro ⟨broker', calls, hrun, -⟩
    exact namesInterface_of_run hbuiltIn ops hops hrun
  · intro hnames
    obtain ⟨handled, rest, broker', calls, rfl, hrun, hsent, hrest⟩ :=
      sentOn_handled hbuiltIn (numbered_brokerInitialize hbuiltIn hinv hlisted hinit) ops hops
    obtain rfl | ⟨op, rest', fault, rfl, -, hstops⟩ := hrest
    · exact ⟨broker', calls, by rwa [List.append_nil], fun bus => by rw [hsent, List.append_nil]⟩
    · exact absurd (hnames op (by simp)) hstops.not_namesInterface

/-- Two buses behind the invalid one, a strict and a thin one, with an
interface each. -/
def twoBuses : SystemSpec where
  sizeBits := 32
  systemBusesNumber := 3
  interfaceMaxId := 3
  genericPartitionBufferSize := 8
  portToBusMap := id
  busToPacketizerCfg := fun bus => if bus.val = 2 then .thin else .strictCcsds
  busToUniquePortMap := id
  busHasAnyDestinationPort := fun _ => 1
  sendPacketType := .telecommand
  expectPacketType := .telemetry
  hasSenderPid := false
  deviceProvided := ⟨fun _ => none, fun _ => none, fun _ => none⟩
  sizeBits_ge := by decide
  bufferSize_lt := by decide

/-- A broker that has sent before, with bytes of its packets in the buffer, is
initialised again: requests on a strict and on a thin bus, with a packet for an
interface and one that is too small in between. -/
theorem sentOn_run_twoBuses :
    let start : Broker twoBuses := { static twoBuses with
      packetizersData := fun bus => if bus.val = 1 then ⟨16383⟩ else ⟨0⟩
      packetizerBuffer := List.replicate 20 0xFF }
    let strict : twoBuses.Interface := ⟨1, by decide⟩
    let thin : twoBuses.Interface := ⟨2, by decide⟩
    let ops : List (BrokerOp twoBuses) :=
      [.deliverRequest ⟨strict, 0, [1, 2]⟩, .deliverRequest ⟨thin, 0, [3]⟩,
        .receivePacket ⟨2, by decide⟩ [0, 1, 0, 0, 7], .deliverRequest ⟨strict, 0, [4]⟩,
        .receivePacket ⟨1, by decide⟩ [0], .deliverRequest ⟨thin, 0, [5, 6]⟩]
    ∃ broker broker' calls,
      brokerInitialize twoBuses start (fun i => (i.val + 1) % 3) = .ok broker ∧
      run twoBuses broker ops = .ok (broker', calls) ∧
      ∀ bus, sentOn bus calls = reference bus (requestsOn bus ops) := by
  intro start strict thin ops
  have hbuiltIn : twoBuses.BuiltIn := by decide +kernel
  have hinv : Inv start := ⟨rfl, by decide +kernel⟩
  obtain ⟨broker', calls, hrun⟩ := (sentOn_run hbuiltIn hinv (fun i => (i.val + 1) % 3)
    (by decide +kernel) rfl ops (by decide +kernel)).mpr (by decide +kernel)
  exact ⟨_, broker', calls, rfl, hrun⟩

/-- Right after the start, a thin packet for interface 5 of a table of one, and
then a request: all are admitted, and the run stops at the packet. -/
theorem sentOn_run_outside :
    ∃ broker, brokerInitialize (.mock .thin) (static _) (fun i => i.val + 1) = .ok broker ∧
      let ops : List (BrokerOp (.mock .thin)) :=
        [.receivePacket ⟨1, by decide⟩ [0, 5, 0, 0, 7], .deliverRequest ⟨⟨0, by decide⟩, 3, [7]⟩]
      (∀ op ∈ ops, op.Admitted) ∧
        run (.mock .thin) broker ops = .error (.readOutOfBounds 5) ∧
        ¬ ∃ broker' calls, run (.mock .thin) broker ops = .ok (broker', calls) ∧
          ∀ bus, sentOn bus calls = reference bus (requestsOn bus ops) := by
  refine ⟨_, rfl, by decide, rfl, ?_⟩
  rintro ⟨broker', calls, hrun, -⟩
  contradiction

end Broker

end TasteRuntime
