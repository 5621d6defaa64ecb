import TasteRuntime.Broker.Capacity
import TasteRuntime.RoutingHelper

/-!
# TasteRuntime.Broker.Startup

The broker from the start of the program on, with `Broker_initialize` among
its calls and with buses whose packetizer the device provides among its buses.

`Broker_initialize` restarts the numbering of the buses it is given and of no
other; it aborts if one of them has no packets and leads to several interfaces
(`brokerInitialize_aborted_iff`).  It may be called again at any time, and what
is called before it finds no packetizer.  Over any such calls a bus of the
runtime's own formats numbers its packets from zero after each
`Broker_initialize` that names it, whatever the packetizers of the devices do
in between with the buffer they share (`sentOn_runProgram`).
-/

namespace TasteRuntime

open CMemory

namespace Broker

/-! ## `Broker_initialize` on the tables of the routing helper -/

open RoutingHelper in
/-- The tables of the routing helper say that a bus is ambiguous exactly if it
leads to several interfaces. -/
theorem ambiguous_iff {routing : Routing spec} (hinvalid : InvalidOnInvalidBus routing)
    {bus : spec.Bus} (hbus : bus.val ≠ busInvalidId)
    (hunique : (spec.busToUniquePortMap bus).val = findUniqueDestination routing bus)
    (hport : spec.busHasAnyDestinationPort bus = checkBusHasAnyDestinationPort routing bus) :
    Ambiguous spec bus ↔ spec.busToPacketizerCfg bus = .passthrough ∧
      ∃ index other, index ≠ other ∧ Matches routing bus index ∧ Matches routing bus other := by
  have hvalid : ∀ index ∈ destinations routing bus, index.val ≠ interfaceInvalidId :=
    fun _ hmem => hinvalid.ne_of_matches hbus (mem_destinations.mp hmem)
  have hany : checkBusHasAnyDestinationPort routing bus ≠ 0 ↔ destinations routing bus ≠ [] := by
    rw [checkBusHasAnyDestinationPort_eq]
    split <;> simp_all
  rw [Ambiguous, hunique, hport, hany, findUniqueDestination_eq hinvalid hbus,
    soleInterface_eq_invalid_iff hvalid, two_le_length_destinations_iff]

open RoutingHelper in
/-- **Start-up**: on the tables of the routing helper, `Broker_initialize`
aborts exactly if a bus it is given has no packets and leads to several
interfaces.  Otherwise the buses it is given are restarted, and of the static
variables nothing else is touched. -/
theorem brokerInitialize_aborted_iff (hbuiltIn : spec.BuiltIn) (routing : Routing spec)
    (hinvalid : InvalidOnInvalidBus routing)
    (hunique : ∀ bus, (spec.busToUniquePortMap bus).val = findUniqueDestination routing bus)
    (hport : ∀ bus,
      spec.busHasAnyDestinationPort bus = checkBusHasAnyDestinationPort routing bus)
    (broker : Broker spec) (validBuses : Fin spec.systemBusesNumber → Nat) :
    (brokerInitialize spec broker validBuses = .error .aborted ↔
      ∃ bus ∈ listed spec (List.ofFn validBuses), spec.busToPacketizerCfg bus = .passthrough ∧
        ∃ index other, index ≠ other ∧ Matches routing bus index ∧ Matches routing bus other) ∧
    (brokerInitialize spec broker validBuses ≠ .error .aborted →
      brokerInitialize spec broker validBuses =
        .ok (broker.restart (listed spec (List.ofFn validBuses)))) := by
  have hambiguous : (∃ bus ∈ listed spec (List.ofFn validBuses), Ambiguous spec bus) ↔
      ∃ bus ∈ listed spec (List.ofFn validBuses), spec.busToPacketizerCfg bus = .passthrough ∧
        ∃ index other, index ≠ other ∧ Matches routing bus index ∧ Matches routing bus other :=
    exists_congr fun bus => and_congr_right fun hlisted =>
      ambiguous_iff hinvalid (val_ne_of_mem_listed hlisted) (hunique bus) (hport bus)
  rw [brokerInitialize_eq hbuiltIn, ← hambiguous]
  split
  · next h => exact ⟨iff_of_true rfl h, fun hne => absurd rfl hne⟩
  · next h => exact ⟨iff_of_false (by simp) h, fun _ => rfl⟩

open RoutingHelper in
/-- `Broker_initialize` aborts on a bus with two interfaces. -/
theorem brokerInitialize_aborted_iff_threePorts :
    brokerInitialize threePorts (static _) (fun i => 1 - i.val) = .error .aborted ↔
      ∃ bus ∈ listed threePorts [1, 0], threePorts.busToPacketizerCfg bus = .passthrough ∧
        ∃ index other : threePorts.Interface, index ≠ other ∧
          Matches threePortsRouting bus index ∧ Matches threePortsRouting bus other :=
  have hinvalid : InvalidOnInvalidBus threePortsRouting := fun index h => by
    simp [threePortsRouting, h]
  have hbuiltIn : threePorts.BuiltIn := fun _ => PacketizerCfg.noConfusion
  (brokerInitialize_aborted_iff hbuiltIn threePortsRouting hinvalid (by decide) (by decide)
    (static threePorts) (fun i => 1 - i.val)).1

end Broker

/-! ## the program -/

/-- The static variables with the table `packetizers_functions`, which is zero
until `Broker_initialize` fills it. -/
structure Program (spec : SystemSpec) where
  broker : Broker spec
  /-- `packetizers_functions` is filled. -/
  packetizersFunctions : Bool

/-- A call of one of the functions of the broker, `Broker_initialize` among
them. -/
inductive ProgramOp (spec : SystemSpec) where
  | brokerInitialize (validBuses : Fin spec.systemBusesNumber → Nat)
  | call (op : BrokerOp spec)

/-- What is received is an object of the target. -/
def ProgramOp.Receivable : ProgramOp spec → Prop
  | .call (.receivePacket _ data) => data.length < 2 ^ spec.sizeBits
  | _ => True

/-- A packetize function of a device gets an object of some size and leaves it
an object of that size. -/
def DeviceProvided.KeepsObject {Bus : Type} (devices : DeviceProvided Bus) : Prop :=
  ∀ bus packetize, devices.getPacketizeFunction bus = some packetize →
    ∀ self packetType busId source destination buffer dataOffset dataSize,
      Ensures (packetize self packetType busId source destination buffer dataOffset dataSize)
        fun sent => sent.buffer.length = buffer.length

namespace Program

open Broker

/-- The static variables as the program starts with them. -/
def static (spec : SystemSpec) : Program spec := ⟨Broker.static spec, false⟩

/-- An operation on the table as the program starts with it: a header size of
zero, and a null pointer for every function. -/
def unfilledStep (spec : SystemSpec) (broker : Broker spec) :
    BrokerOp spec → Exec (Broker spec × List (BrokerCall spec))
  | .deliverRequest request => do
      let busId := spec.portToBusMap request.interface
      let headerSize :=
        if spec.busToPacketizerCfg busId = .deviceProvided then broker.deviceHeaderSizes busId
        else 0
      let _buffer ← memcpy broker.packetizerBuffer headerSize request.data request.data.length
      throw .nullCall
  | .receivePacket _ _ => throw .nullCall
  | .registerErrorCallback callback => pure (broker.registerErrorCallback callback, [])

/-- An operation on the table as it is. -/
def callStep (spec : SystemSpec) (program : Program spec) (op : BrokerOp spec) :
    Exec (Broker spec × List (BrokerCall spec)) :=
  if program.packetizersFunctions then Broker.step spec program.broker op
  else unfilledStep spec program.broker op

/-- One call. -/
def step (spec : SystemSpec) (program : Program spec) :
    ProgramOp spec → Exec (Program spec × List (BrokerCall spec))
  | .brokerInitialize validBuses => do
      let broker ← brokerInitialize spec program.broker validBuses
      pure (⟨broker, true⟩, [])
  | .call op => do
      let (broker, calls) ← callStep spec program op
      pure ({ program with broker }, calls)

/-- A run: one call after the other, until one does not return. -/
def run (spec : SystemSpec) (program : Program spec) (ops : List (ProgramOp spec)) :
    Exec (Program spec × List (BrokerCall spec)) :=
  Transducer.runCall (step spec) program ops

/-! ## the numbering of a bus -/

/-- What a bus sends: the packets of its requests, numbered from zero after
each `Broker_initialize` that lists it. -/
def numbering (bus : spec.Bus) : Transducer Nat (ProgramOp spec) (List UInt8) where
  step number
    | .brokerInitialize validBuses =>
        (if bus ∈ listed spec (List.ofFn validBuses) then 0 else number, [])
    | .call (.deliverRequest request) =>
        if request.bus = bus then
          (number + 1,
            [(spec.busToPacketizerCfg bus).encode (request.spacePacket (number % 2 ^ 14))])
        else (number, [])
    | .call _ => (number, [])

/-- After the calls `done`, which made `calls`: the buffer has its size, and
each bus of the runtime's own formats was sent what its numbering says and has
its counter where the numbering is; the table is filled if there was a
`Broker_initialize`, and until then no device has told its header size. -/
structure Numbered (done : List (ProgramOp spec)) (program : Program spec)
    (calls : List (BrokerCall spec)) : Prop where
  length_buffer : program.broker.packetizerBuffer.length = spec.brokerBufferSize
  count_le : ∀ bus, spec.busToPacketizerCfg bus ≠ .deviceProvided →
    (program.broker.packetizersData bus).packetSequenceCount ≤ spacePacketMaxPacketSequenceCount
  count : ∀ bus, (spec.busToPacketizerCfg bus).counts →
    program.broker.count bus = (numbering bus).stateAfter 0 done % 2 ^ 14
  sent : ∀ bus, spec.busToPacketizerCfg bus ≠ .deviceProvided →
    sentOn bus calls = (numbering bus).output 0 done
  filled : program.packetizersFunctions = true ↔
    ∃ validBuses, ProgramOp.brokerInitialize validBuses ∈ done
  headerSizes : program.packetizersFunctions = false →
    ∀ bus, program.broker.deviceHeaderSizes bus = 0

/-- The calls that do not return.  `Broker_initialize` aborts at an ambiguous
bus.  On the filled table a request stops at its fault and a received packet
where the table of deliver functions is read outside; on the unfilled table
they call a null pointer, unless the data of the request does not even fit the
buffer.  What concerns the bus of a device may stop for a reason of the
device. -/
inductive Stops (program : Program spec) : ProgramOp spec → Fault → Prop where
  | ambiguous (h : ∃ bus ∈ listed spec (List.ofFn validBuses), Ambiguous spec bus) :
      Stops program (.brokerInitialize validBuses) .aborted
  | request (hfilled : program.packetizersFunctions = true) (h : request.fault = some fault) :
      Stops program (.call (.deliverRequest request)) fault
  | outside (hfilled : program.packetizersFunctions = true) (h : StopsOutside op fault) :
      Stops program (.call op) fault
  | unfilledRequest (hfilled : program.packetizersFunctions = false)
      (h : request.data.length ≤ spec.brokerBufferSize) :
      Stops program (.call (.deliverRequest request)) .nullCall
  | unfilledOverrun (hfilled : program.packetizersFunctions = false)
      (h : spec.brokerBufferSize < request.data.length) :
      Stops program (.call (.deliverRequest request)) (.writeOutOfBounds spec.brokerBufferSize)
  | unfilledReceive (hfilled : program.packetizersFunctions = false) :
      Stops program (.call (.receivePacket bus packet)) .nullCall
  | deviceInitialize (h : ∃ bus ∈ listed spec (List.ofFn validBuses),
        spec.busToPacketizerCfg bus = .deviceProvided) :
      Stops program (.brokerInitialize validBuses) fault
  | deviceRequest (h : spec.busToPacketizerCfg request.bus = .deviceProvided) :
      Stops program (.call (.deliverRequest request)) fault
  | deviceReceive (h : spec.busToPacketizerCfg bus = .deviceProvided) :
      Stops program (.call (.receivePacket bus packet)) fault

/-! ## one call -/

/-- An operation keeps what it must of the static variables. -/
structure Keeps (op : BrokerOp spec) (broker broker' : Broker spec)
    (out : List (BrokerCall spec)) : Prop where
  length_buffer : broker'.packetizerBuffer.length = broker.packetizerBuffer.length
  headerSizes : broker'.deviceHeaderSizes = broker.deviceHeaderSizes
  count_le : ∀ bus, spec.busToPacketizerCfg bus ≠ .deviceProvided →
    (broker.packetizersData bus).packetSequenceCount ≤ spacePacketMaxPacketSequenceCount →
    (broker'.packetizersData bus).packetSequenceCount ≤ spacePacketMaxPacketSequenceCount
  /-- Where the numbering of a bus agrees with its counter, both go one step
  further, and the bus is sent what the numbering says. -/
  follows : ∀ bus number, spec.busToPacketizerCfg bus ≠ .deviceProvided →
    (broker.packetizersData bus).packetSequenceCount ≤ spacePacketMaxPacketSequenceCount →
    ((spec.busToPacketizerCfg bus).counts → broker.count bus = number % 2 ^ 14) →
    ((spec.busToPacketizerCfg bus).counts →
        broker'.count bus = ((numbering bus).step number (.call op)).1 % 2 ^ 14) ∧
      sentOn bus out = ((numbering bus).step number (.call op)).2

/-- An operation that makes no request and sends nothing. -/
theorem Keeps.other {broker : Broker spec} (hlength : broker'.packetizerBuffer =
    broker.packetizerBuffer) (hdata : broker'.packetizersData = broker.packetizersData)
    (hheaderSizes : broker'.deviceHeaderSizes = broker.deviceHeaderSizes)
    (hop : ∀ bus number, (numbering bus).step number (.call op) = (number, []))
    (hsent : ∀ bus, sentOn bus out = []) : Keeps op broker broker' out := by
  refine ⟨by rw [hlength], hheaderSizes, fun bus _ h => hdata ▸ h,
    fun bus number _ _ hnumber => ?_⟩
  rw [hop, hsent]
  exact ⟨fun hcounts => by rw [← hnumber hcounts, Broker.count, Broker.count, hdata], rfl⟩

/-- A request on a bus of the runtime's own formats. -/
theorem Keeps.deliverRequest {broker : Broker spec} (request : Request spec)
    (hbuffer : buffer.length = broker.packetizerBuffer.length) :
    Keeps (.deliverRequest request) broker (broker.afterRequest request.bus buffer)
      [.acquireLock,
        .send request.bus ((spec.busToPacketizerCfg request.bus).encode
          (request.spacePacket (broker.count request.bus))),
        .releaseLock] := by
  have hself : (broker.afterRequest request.bus buffer).packetizersData request.bus =
      (spec.busToPacketizerCfg request.bus).next (broker.packetizersData request.bus) :=
    Function.update_self ..
  have hother {bus : spec.Bus} (hbus : request.bus ≠ bus) :
      (broker.afterRequest request.bus buffer).packetizersData bus = broker.packetizersData bus :=
    Function.update_of_ne (Ne.symm hbus) _ _
  refine ⟨hbuffer, rfl, fun bus _ hcount_le => ?_, fun bus number _ hcount_le hnumber => ?_⟩
  · by_cases hbus : request.bus = bus
    · subst hbus
      rw [hself]
      exact PacketizerCfg.next_count_le _ hcount_le
    · rw [hother hbus]
      exact hcount_le
  · rw [sentOn_send]
    by_cases hbus : request.bus = bus
    · subst hbus
      simp only [numbering, if_pos]
      constructor
      · intro hcounts
        rw [Broker.count, hself, PacketizerCfg.next, if_pos hcounts,
          Packetizer.toNat_countPacket hcount_le]
        have hcount : (broker.packetizersData request.bus).packetSequenceCount.toNat =
          number % 2 ^ 14 := hnumber hcounts
        omega
      · by_cases hcounts : (spec.busToPacketizerCfg request.bus).counts
        · rw [hnumber hcounts]
        · rw [PacketizerCfg.encode_of_not_counts hcounts request _ (number % 2 ^ 14)]
    · simp only [numbering, if_neg hbus, and_true]
      intro hcounts
      rw [Broker.count, hother hbus]
      exact hnumber hcounts

/-- A request on the bus of a device, whatever its packetizer does. -/
theorem ensures_deviceRequest (hdevices : spec.deviceProvided.KeepsObject) (broker : Broker spec)
    {request : Request spec} (hcfg : spec.busToPacketizerCfg request.bus = .deviceProvided) :
    Ensures (Broker.deliverRequest spec broker request) fun result =>
      Keeps (.deliverRequest request) broker result.1 result.2 := by
  have hpacketize (source destination : UInt16) (buffer : List UInt8) (dataOffset dataSize : Nat) :
      Ensures (DeviceProvidedPacketizer.packetize spec (broker.packetizersData request.bus)
        spec.sendPacketType request.bus source destination buffer dataOffset dataSize)
        fun sent => sent.buffer.length = buffer.length := by
    unfold DeviceProvidedPacketizer.packetize
    split
    · exact ensures_ok rfl
    · next h => exact hdevices _ _ h _ _ _ _ _ _ _ _
  unfold Broker.deliverRequest
  simp only [hcfg]
  refine (ensures_memcpy rfl).bind fun buffer hbuffer =>
    (hpacketize _ _ _ _ _).bind fun sent hsent => (ensures_true _).bind fun packet _ =>
    ensures_ok ⟨hsent.trans hbuffer, rfl, fun bus hbus hcount_le => ?_,
      fun bus number hbus hcount_le hnumber => ?_⟩
  · have hne : bus ≠ request.bus := fun h => hbus (h ▸ hcfg)
    simp only [Function.update_of_ne hne]
    exact hcount_le
  · have hne : bus ≠ request.bus := fun h => hbus (h ▸ hcfg)
    rw [sentOn_send, if_neg hne.symm]
    simp only [numbering, if_neg hne.symm, and_true]
    intro hcounts
    simp only [Broker.count, Function.update_of_ne hne]
    exact hnumber hcounts

/-- A packet from a driver, whatever the packetizer of its bus does. -/
theorem ensures_receivePacket_keeps (broker : Broker spec) (bus : spec.Bus)
    (packet : List UInt8) :
    Ensures (Broker.receivePacket spec broker bus packet) fun result =>
      Keeps (.receivePacket bus packet) broker result.1 result.2 := by
  have hkeeps {out : List (BrokerCall spec)} (hsent : ∀ other, sentOn other out = []) :
      Keeps (.receivePacket bus packet) broker broker out :=
    Keeps.other rfl rfl rfl (fun _ _ => rfl) hsent
  refine (ensures_true _).bind fun (success, out) _ => ?_
  cases success with
  | false =>
      by_cases hcallback : broker.brokerErrorCallback
      · simp only [hcallback]
        exact ensures_ok (hkeeps fun _ => rfl)
      · simp only [hcallback]
        exact ensures_ok (hkeeps fun _ => rfl)
  | true =>
      by_cases hdest : out.destination.toNat < spec.interfaceMaxId
      · simp only [hdest]
        exact (ensures_true _).bind fun _ _ => ensures_ok (hkeeps fun _ => rfl)
      · simp only [hdest]
        exact ensures_error _ _

/-- What an operation that returns ensures, or the reason why it stops. -/
theorem cases_of_ensures {broker : Broker spec} {x : Exec (Broker spec × List (BrokerCall spec))}
    (hx : Ensures x fun result => Keeps op broker result.1 result.2)
    (hstops : ∀ fault, x = .error fault → Stops program (.call op) fault) :
    (∃ broker' out, x = .ok (broker', out) ∧ Keeps op broker broker' out) ∨
      ∃ fault, x = .error fault ∧ Stops program (.call op) fault := by
  cases x with
  | error fault => exact .inr ⟨fault, rfl, hstops fault rfl⟩
  | ok result => exact .inl ⟨_, _, rfl, hx _ rfl⟩

/-- One operation on the filled table. -/
theorem step_cases (hdevices : spec.deviceProvided.KeepsObject) {program : Program spec}
    (h : Numbered done program calls) (hfilled : program.packetizersFunctions = true)
    (op : BrokerOp spec) (hop : (ProgramOp.call op).Receivable) :
    (∃ broker' out, Broker.step spec program.broker op = .ok (broker', out) ∧
      Keeps op program.broker broker' out) ∨
    ∃ fault, Broker.step spec program.broker op = .error fault ∧
      Stops program (.call op) fault := by
  cases op with
  | deliverRequest request =>
      by_cases hcfg : spec.busToPacketizerCfg request.bus = .deviceProvided
      · exact cases_of_ensures (ensures_deviceRequest hdevices _ hcfg)
          fun _ _ => .deviceRequest hcfg
      · obtain ⟨hstops, hsends⟩ :=
          deliverRequest_cases h.length_buffer request hcfg (h.count_le _ hcfg)
        cases hfault : request.fault with
        | some fault => exact .inr ⟨fault, hstops fault hfault, .request hfilled hfault⟩
        | none =>
            obtain ⟨buffer, hdeliver, hbuffer⟩ := hsends hfault
            exact .inl ⟨_, _, hdeliver,
              Keeps.deliverRequest request (hbuffer.trans h.length_buffer.symm)⟩
  | receivePacket bus packet =>
      refine cases_of_ensures (ensures_receivePacket_keeps _ bus packet)
        fun fault (hfault : receivePacket spec program.broker bus packet = .error fault) => ?_
      by_cases hcfg : spec.busToPacketizerCfg bus = .deviceProvided
      · exact .deviceReceive hcfg
      · rw [receivePacket_eq program.broker hcfg hop] at hfault
        cases hverdict : spec.verdict bus packet with
        | reject code => simp [hverdict] at hfault
        | accept =>
            by_cases hdest : (spec.fields bus packet).destination.toNat < spec.interfaceMaxId
            · simp [hverdict, hdest] at hfault
            · simp only [hverdict, dif_neg hdest, Except.error.injEq] at hfault
              exact .outside hfilled
                ⟨bus, packet, rfl, hverdict, Nat.le_of_not_lt hdest, hfault.symm⟩
  | registerErrorCallback callback =>
      exact .inl ⟨_, _, rfl, Keeps.other rfl rfl rfl (fun _ _ => rfl) fun _ => rfl⟩

/-- One operation on the unfilled table: only a callback can be registered. -/
theorem unfilledStep_cases {program : Program spec} (h : Numbered done program calls)
    (hfilled : program.packetizersFunctions = false) (op : BrokerOp spec) :
    (∃ broker' out, unfilledStep spec program.broker op = .ok (broker', out) ∧
      Keeps op program.broker broker' out) ∨
    ∃ fault, unfilledStep spec program.broker op = .error fault ∧
      Stops program (.call op) fault := by
  cases op with
  | registerErrorCallback callback =>
      exact .inl ⟨_, _, rfl, Keeps.other rfl rfl rfl (fun _ _ => rfl) fun _ => rfl⟩
  | receivePacket bus packet => exact .inr ⟨.nullCall, rfl, .unfilledReceive hfilled⟩
  | deliverRequest request =>
      have hbuffer := h.length_buffer
      have hheaderSize : (if spec.busToPacketizerCfg request.bus = .deviceProvided then
          program.broker.deviceHeaderSizes request.bus else 0) = 0 := by
        rw [h.headerSizes hfilled, ite_self]
      by_cases hfits : request.data.length ≤ spec.brokerBufferSize
      · obtain ⟨header, mid, tail, hsplit, hheader, hmid⟩ :=
          exists_around 0 request.data.length
            (show _ ≤ program.broker.packetizerBuffer.length by omega)
        refine .inr ⟨.nullCall, ?_, .unfilledRequest hfilled hfits⟩
        simp only [unfilledStep, hheaderSize]
        rw [hsplit, memcpy_append hheader hmid]
        rfl
      · refine .inr ⟨_, ?_, .unfilledOverrun hfilled (Nat.lt_of_not_le hfits)⟩
        simp only [unfilledStep, hheaderSize, memcpy, slice_of_le (Nat.le_of_eq
          (Nat.zero_add request.data.length)), ok_bind, hbuffer, Nat.zero_add, if_neg hfits,
          Nat.zero_max]
        rfl

/-- An operation that keeps what it must keeps the invariant. -/
theorem Numbered.call {program : Program spec} (h : Numbered done program calls)
    (hkeeps : Keeps op program.broker broker' out) :
    Numbered (done ++ [.call op]) { program with broker := broker' } (calls ++ out) := by
  refine ⟨hkeeps.length_buffer.trans h.length_buffer,
    fun bus hcfg => hkeeps.count_le bus hcfg (h.count_le bus hcfg), fun bus hcounts => ?_,
    fun bus hcfg => ?_, ?_, fun hfilled bus => ?_⟩
  · have hcfg : spec.busToPacketizerCfg bus ≠ .deviceProvided := fun h => by
      simp [h, PacketizerCfg.counts] at hcounts
    rw [Transducer.stateAfter_append]
    exact (hkeeps.follows bus _ hcfg (h.count_le bus hcfg) (h.count bus)).1 hcounts
  · rw [sentOn_append, Transducer.output_append, h.sent bus hcfg, Transducer.output_singleton]
    exact congrArg _ (hkeeps.follows bus _ hcfg (h.count_le bus hcfg) (h.count bus)).2
  · simpa using h.filled
  · rw [hkeeps.headerSizes]
    exact h.headerSizes hfilled bus

/-- So does `Broker_initialize`. -/
theorem Numbered.brokerInitialize {program : Program spec} (h : Numbered done program calls)
    (validBuses : Fin spec.systemBusesNumber → Nat)
    (hrestarted : Restarted program.broker (listed spec (List.ofFn validBuses)) broker') :
    Numbered (done ++ [.brokerInitialize validBuses]) ⟨broker', true⟩ (calls ++ []) := by
  refine ⟨hrestarted.buffer ▸ h.length_buffer, fun bus hcfg => ?_, fun bus hcounts => ?_,
    fun bus hcfg => ?_, by simp, fun hfilled => by contradiction⟩
  · simp only [hrestarted.data bus hcfg, Broker.restart, PacketizerCfg.restart]
    split
    · split
      · exact UInt16.le_iff_toNat_le.mpr (Nat.zero_le _)
      · exact h.count_le bus hcfg
    · exact h.count_le bus hcfg
  · have hcfg : spec.busToPacketizerCfg bus ≠ .deviceProvided := fun h => by
      simp [h, PacketizerCfg.counts] at hcounts
    have hnumber : (numbering bus).stateAfter 0 (done ++ [.brokerInitialize validBuses]) =
        if bus ∈ listed spec (List.ofFn validBuses) then 0
        else (numbering bus).stateAfter 0 done := by
      rw [Transducer.stateAfter_append]
      rfl
    have hcount : program.broker.count bus = _ := h.count bus hcounts
    rw [hnumber, Broker.count, hrestarted.data bus hcfg]
    by_cases hlisted : bus ∈ listed spec (List.ofFn validBuses)
    · simp [Broker.restart, PacketizerCfg.restart, hlisted, hcounts]
    · simpa [Broker.restart, Broker.count, hlisted] using hcount
  · rw [List.append_nil, Transducer.output_append, h.sent bus hcfg, Transducer.output_singleton]
    exact (List.append_nil _).symm

/-- One call keeps the invariant, or stops. -/
theorem Numbered.step {program : Program spec} (h : Numbered done program calls)
    (hdevices : spec.deviceProvided.KeepsObject) (op : ProgramOp spec) (hop : op.Receivable) :
    (∃ program' out, Program.step spec program op = .ok (program', out) ∧
      Numbered (done ++ [op]) program' (calls ++ out)) ∨
    ∃ fault, Program.step spec program op = .error fault ∧ Stops program op fault := by
  cases op with
  | brokerInitialize validBuses =>
      obtain ⟨broker', hinit, hrestarted, -⟩ | ⟨fault, hinit, hstops⟩ :=
        initializeBuses_cases program.broker (List.ofFn validBuses)
      · refine .inl ⟨_, _, ?_, h.brokerInitialize validBuses hrestarted⟩
        rw [Program.step, Broker.brokerInitialize, hinit]
        rfl
      · refine .inr ⟨fault, ?_, ?_⟩
        · rw [Program.step, Broker.brokerInitialize, hinit]
          rfl
        · obtain ⟨hambiguous, rfl⟩ | hdevice := hstops
          · exact .ambiguous hambiguous
          · exact .deviceInitialize hdevice
  | call op =>
      have hone : (∃ broker' out, callStep spec program op = .ok (broker', out) ∧
            Keeps op program.broker broker' out) ∨
          ∃ fault, callStep spec program op = .error fault ∧
            Stops program (.call op) fault := by
        unfold callStep
        cases hfilled : program.packetizersFunctions with
        | true => exact step_cases hdevices h hfilled op hop
        | false => exact unfilledStep_cases h hfilled op
      obtain ⟨broker', out, hstep, hkeeps⟩ | ⟨fault, hstep, hstops⟩ := hone
      · refine .inl ⟨_, _, ?_, h.call hkeeps⟩
        rw [Program.step, hstep]
        rfl
      · refine .inr ⟨fault, ?_, hstops⟩
        rw [Program.step, hstep]
        rfl

/-! ## whole runs -/

theorem numbered_static (spec : SystemSpec) : Numbered [] (static spec) [] where
  length_buffer := (inv_static spec).length_buffer
  count_le := fun bus _ => (inv_static spec).count_le bus
  count := fun _ _ => rfl
  sent := fun _ _ => rfl
  filled := by simp [static]
  headerSizes := fun _ _ => rfl

/-- **Restarts**: from the start of the program on, over any calls, requests of
any size and `Broker_initialize` among them, what a bus of the runtime's own
formats is sent is the reference encoding of its requests, numbered from zero
after each `Broker_initialize` that lists the bus, whatever the packetizers of
devices do on the other buses.  The run handles all of the calls, up to one
that stops: `Broker_initialize` aborts, a packetizer is called before it, a
request has a fault, the table of deliver functions is read outside, or a
device stops. -/
theorem sentOn_runProgram (hdevices : spec.deviceProvided.KeepsObject)
    (ops : List (ProgramOp spec)) (hops : ∀ op ∈ ops, op.Receivable) :
    ∃ handled rest program calls, ops = handled ++ rest ∧
      run spec (static spec) handled = .ok (program, calls) ∧
      (∀ bus, spec.busToPacketizerCfg bus ≠ .deviceProvided →
        sentOn bus calls = (numbering bus).output 0 handled) ∧
      (program.packetizersFunctions = true ↔
        ∃ validBuses, ProgramOp.brokerInitialize validBuses ∈ handled) ∧
      (rest = [] ∨ ∃ op rest' fault, rest = op :: rest' ∧
        step spec program op = .error fault ∧ Stops program op fault) := by
  obtain ⟨handled, rest, program, calls, hsplit, hrun, hnumbered, hrest⟩ :=
    Transducer.runCall_invariant (step spec) ops
      (fun _ _ _ op h hop => h.step hdevices op (hops op hop)) [] (static spec) []
      (numbered_static spec)
  exact ⟨handled, rest, program, calls, hsplit, hrun, hnumbered.sent, hnumbered.filled, hrest⟩

/-- A strict bus beside the bus of a device whose packetizer fills the whole
buffer. -/
def mixed : SystemSpec :=
  { SystemSpec.mock .strictCcsds with
    systemBusesNumber := 3
    interfaceMaxId := 2
    portToBusMap := fun interface => ⟨interface.val + 1, by omega⟩
    busToPacketizerCfg := fun bus => if bus.val = 2 then .deviceProvided else .strictCcsds
    busToUniquePortMap := fun _ => ⟨0, by decide⟩
    busHasAnyDestinationPort := fun _ => 0
    deviceProvided := {
      getInitFunction := fun _ => some fun self _ => .ok (self, 2)
      getPacketizeFunction := fun _ => some fun self _ _ _ _ buffer _ _ =>
        .ok ⟨3, self, buffer.map fun _ => 255⟩
      getDepacketizeFunction := fun _ => none } }

theorem keepsObject_mixed : mixed.deviceProvided.KeepsObject := by
  intro bus packetize hpacketize self packetType busId source destination buffer dataOffset
    dataSize
  obtain rfl := Option.some.inj hpacketize
  exact ensures_ok (List.length_map _)

/-- Two requests on the strict bus around one on the bus of the device, and one
more behind a second start. -/
theorem sentOn_runProgram_mixed :
    let request : Request mixed := ⟨⟨0, by decide⟩, 3, [1, 2]⟩
    let deviceRequest : Request mixed := ⟨⟨1, by decide⟩, 3, [1, 2]⟩
    let ops : List (ProgramOp mixed) := [.call (.registerErrorCallback true),
      .brokerInitialize fun i => (i.val + 1) % 3, .call (.deliverRequest request),
      .call (.deliverRequest deviceRequest), .call (.deliverRequest request),
      .brokerInitialize fun i => (i.val + 1) % 3, .call (.deliverRequest request)]
    ∃ handled rest program calls, ops = handled ++ rest ∧
      run mixed (static mixed) handled = .ok (program, calls) ∧
      (∀ bus, mixed.busToPacketizerCfg bus ≠ .deviceProvided →
        sentOn bus calls = (numbering bus).output 0 handled) ∧
      (program.packetizersFunctions = true ↔
        ∃ validBuses, ProgramOp.brokerInitialize validBuses ∈ handled) ∧
      (rest = [] ∨ ∃ op rest' fault, rest = op :: rest' ∧
        step mixed program op = .error fault ∧ Stops program op fault) := by
  refine sentOn_runProgram keepsObject_mixed _ ?_
  intro op hop
  simp only [List.mem_cons, List.not_mem_nil, or_false] at hop
  obtain rfl | rfl | rfl | rfl | rfl | rfl | rfl := hop <;> trivial

end Program

end TasteRuntime
