import TasteRuntime.Lib.Linearized
import TasteRuntime.Broker.Stream

/-!
# TasteRuntime.Broker.Concurrency

The functions of the broker called by several threads.  Requests and packets
are handled between `Broker_acquire_lock` and `Broker_release_lock`, which take
and free the lock where the source calls them;
`Broker_register_error_callback` takes no lock, and `Broker_receive_packet`
reads the callback twice, once to compare it with `NULL` and once to call it.
What the drivers, the interfaces and the callback do when they are called is a
parameter, `outside`.

If they return and keep to themselves, and no thread registers `NULL`, every
schedule does what some order of whole calls does (`serialized_runThreads`), so
that the numbers of each bus stay consecutive (`sentOn_runThreads`).  A thread
that registers `NULL` can make another call it (`nullCall_runThreads`).
-/

namespace TasteRuntime

open CMemory Locking

variable {spec : SystemSpec}

/-- The steps of a function of the broker. -/
abbrev BrokerBody (spec : SystemSpec) : Type 1 := Body (Broker spec) (BrokerCall spec) Fault

/-- What the functions outside the broker do when it calls them. -/
abbrev OutsideFunctions (spec : SystemSpec) : Type 1 := BrokerCall spec → BrokerBody spec

namespace Broker

/-! ## the functions step by step -/

/-- A function outside the broker is called, and then `Broker_release_lock`. -/
def leaveBody (outside : OutsideFunctions spec) (call : BrokerCall spec) : BrokerBody spec :=
  (outside call).andThen (.release .releaseLock .done)

/-- `Broker_deliver_request`, step by step. -/
def deliverRequestBody (spec : SystemSpec) (outside : OutsideFunctions spec)
    (request : Request spec) : BrokerBody spec :=
  let length := request.data.length
  let busId := spec.portToBusMap request.interface
  let packetizerType := spec.busToPacketizerCfg busId
  let source := if spec.hasSenderPid then UInt16.ofNat request.senderPid else 0
  .acquire .acquireLock <|
  .access (fun broker => pure
    (if packetizerType = .deviceProvided then broker.deviceHeaderSizes busId
      else (packetizersFunctions spec packetizerType).headerSize, broker, [])) fun headerSize =>
  .access (fun broker => do
    let buffer ← memcpy broker.packetizerBuffer headerSize request.data length
    pure ((), { broker with packetizerBuffer := buffer }, [])) fun _ =>
  .access (fun broker => do
    let sent ← (packetizersFunctions spec packetizerType).packetize
      (broker.packetizersData busId) spec.sendPacketType busId source
      (UInt16.ofNat request.interface) broker.packetizerBuffer headerSize length
    pure (sent.packetSize, { broker with
      packetizersData := Function.update broker.packetizersData busId sent.self
      packetizerBuffer := sent.buffer }, [])) fun packetSize =>
  .access (fun broker => do
    let packet ← slice broker.packetizerBuffer 0 packetSize
    pure (.send busId packet, broker, [.send busId packet])) (leaveBody outside)

/-- The call of the error callback, which reads the pointer again. -/
def errorCallbackBody (outside : OutsideFunctions spec) (errorCode : Option Int32)
    (data : List UInt8) : BrokerBody spec :=
  let call := .errorDetected (packetizerErrorToBrokerError (errorCode.getD 0)) data
  .access (fun broker =>
    if broker.brokerErrorCallback then pure (call, broker, [call]) else throw .nullCall)
    (leaveBody outside)

/-- What `Broker_receive_packet` does with a packet that was rejected. -/
def rejectedBody (outside : OutsideFunctions spec) (errorCode : Option Int32)
    (data : List UInt8) : BrokerBody spec :=
  .access (fun broker => pure (broker.brokerErrorCallback, broker, [])) fun callback =>
  if callback then errorCallbackBody outside errorCode data else .release .releaseLock .done

/-- What it does with a packet that was accepted. -/
def acceptedBody (outside : OutsideFunctions spec) (out : DepacketizeOut) (data : List UInt8) :
    BrokerBody spec :=
  .access (fun broker =>
    if h : out.destination.toNat < spec.interfaceMaxId then do
      let payload ← slice data out.dataOffset out.dataSize
      let call := .deliver ⟨out.destination.toNat, h⟩
        (if spec.hasSenderPid then some out.source.toNat else none) payload
      pure (call, broker, [call])
    else throw (.readOutOfBounds out.destination.toNat)) (leaveBody outside)

/-- The part of `Broker_receive_packet` behind `Broker_acquire_lock`. -/
def depacketizeBody (spec : SystemSpec) (outside : OutsideFunctions spec) (busId : spec.Bus)
    (data : List UInt8) : BrokerBody spec :=
  .access (fun broker => do
    let (success, out) ← (packetizersFunctions spec (spec.busToPacketizerCfg busId)).depacketize
      (broker.packetizersData busId) spec.expectPacketType data busId ⟨0, 0, 0, 0, some 0⟩
    pure ((success, out), broker, [])) fun result =>
  if ¬ result.1 then rejectedBody outside result.2.errorCode data
  else acceptedBody outside result.2 data

/-- `Broker_receive_packet`, step by step. -/
def receivePacketBody (spec : SystemSpec) (outside : OutsideFunctions spec) (busId : spec.Bus)
    (data : List UInt8) : BrokerBody spec :=
  .acquire .acquireLock (depacketizeBody spec outside busId data)

/-- What a thread does for a call of one of the functions. -/
def task (spec : SystemSpec) (outside : OutsideFunctions spec) : BrokerOp spec → BrokerBody spec
  | .deliverRequest request => deliverRequestBody spec outside request
  | .receivePacket busId data => receivePacketBody spec outside busId data
  | .registerErrorCallback callback =>
      .access (fun broker => .ok ((), broker.registerErrorCallback callback, [])) fun _ => .done

/-- The threads of a partition, under a schedule. -/
def runThreads [DecidableEq ι] (spec : SystemSpec) (outside : OutsideFunctions spec)
    (broker : Broker spec) (programs : ι → List (BrokerOp spec)) (schedule : List ι) :
    Exec (Config (Broker spec) (BrokerCall spec) Fault ι (BrokerOp spec) ×
      List (BrokerCall spec)) :=
  Transducer.runCall (Locking.step (task spec outside)) (initial broker programs) schedule

/-! ## calls nobody interrupts -/

section Quiet

variable {outside : OutsideFunctions spec} (hquiet : ∀ call, (outside call).Quiet)
include hquiet

theorem run_leaveBody (call : BrokerCall spec) (broker : Broker spec) :
    (leaveBody outside call).run broker = .ok (broker, [.releaseLock]) :=
  (hquiet call).run_andThen _ broker

theorem run_deliverRequestBody (request : Request spec) (broker : Broker spec) :
    (deliverRequestBody spec outside request).run broker =
      deliverRequest spec broker request := by
  simp only [deliverRequestBody, deliverRequest, Body.run, pure_eq_ok]
  cases hcopy : memcpy broker.packetizerBuffer
      (if spec.busToPacketizerCfg (spec.portToBusMap request.interface) = .deviceProvided then
        broker.deviceHeaderSizes (spec.portToBusMap request.interface)
      else (packetizersFunctions spec (spec.busToPacketizerCfg
        (spec.portToBusMap request.interface))).headerSize)
      request.data request.data.length with
  | error fault => simp only [error_bind, after]
  | ok buffer =>
      simp only [ok_bind]
      generalize (packetizersFunctions spec _).packetize _ _ _ _ _ _ _ _ = sent
      cases sent with
      | error fault => simp only [error_bind, after]
      | ok sent =>
          simp only [ok_bind]
          cases slice sent.buffer 0 sent.packetSize with
          | error fault => simp only [error_bind, after]
          | ok packet =>
              simp only [ok_bind, run_leaveBody hquiet, after, List.nil_append, List.cons_append]

theorem run_rejectedBody (errorCode : Option Int32) (data : List UInt8) (broker : Broker spec) :
    (rejectedBody outside errorCode data).run broker = .ok (broker,
      (if broker.brokerErrorCallback then
        [.errorDetected (packetizerErrorToBrokerError (errorCode.getD 0)) data] else []) ++
      [.releaseLock]) := by
  cases hcallback : broker.brokerErrorCallback with
  | false => simp [rejectedBody, Body.run, after, hcallback]
  | true =>
      simp [rejectedBody, errorCallbackBody, Body.run, run_leaveBody hquiet, after, hcallback]

theorem run_acceptedBody (out : DepacketizeOut) (data : List UInt8) (broker : Broker spec) :
    (acceptedBody outside out data).run broker =
      if h : out.destination.toNat < spec.interfaceMaxId then do
        let payload ← slice data out.dataOffset out.dataSize
        pure (broker, [.deliver ⟨out.destination.toNat, h⟩
          (if spec.hasSenderPid then some out.source.toNat else none) payload, .releaseLock])
      else throw (.readOutOfBounds out.destination.toNat) := by
  by_cases hdest : out.destination.toNat < spec.interfaceMaxId
  · cases hslice : slice data out.dataOffset out.dataSize with
    | error fault => simp [acceptedBody, Body.run, hdest, hslice]
    | ok payload => simp [acceptedBody, Body.run, run_leaveBody hquiet, after, hdest, hslice]
  · simp [acceptedBody, Body.run, hdest]

theorem run_receivePacketBody (busId : spec.Bus) (data : List UInt8) (broker : Broker spec) :
    (receivePacketBody spec outside busId data).run broker =
      receivePacket spec broker busId data := by
  simp only [receivePacketBody, depacketizeBody, receivePacket, Body.run, pure_eq_ok]
  generalize (packetizersFunctions spec _).depacketize _ _ _ _ _ = result
  cases result with
  | error fault => simp only [error_bind, after]
  | ok result =>
      obtain ⟨success, out⟩ := result
      simp only [ok_bind, after_after]
      cases success with
      | false =>
          simp only [Bool.false_eq_true, not_false_eq_true, if_true, run_rejectedBody hquiet, after]
          cases broker.brokerErrorCallback <;> rfl
      | true =>
          simp only [not_true, if_false, run_acceptedBody hquiet]
          split
          · cases slice data out.dataOffset out.dataSize <;> rfl
          · rfl

/-- Without interruption, a thread does what the function does. -/
theorem run_task (op : BrokerOp spec) (broker : Broker spec) :
    (task spec outside op).run broker = step spec broker op := by
  cases op with
  | deliverRequest request => exact run_deliverRequestBody hquiet request broker
  | receivePacket busId data => exact run_receivePacketBody hquiet busId data broker
  | registerErrorCallback callback => rfl

/-! ## interruptions -/

/-- The update a thread may make without the lock: it registers a callback that
is not null. -/
def Registers (update : Broker spec → Broker spec) : Prop :=
  update = fun broker => broker.registerErrorCallback true

omit hquiet in
theorem settled_releaseLock (P : Broker spec → Prop) :
    Settled Registers P (.release .releaseLock .done : BrokerBody spec) :=
  .release P BrokerCall.releaseLock

/-- Behind the last access of both functions. -/
theorem settled_leaveBody (call : BrokerCall spec) :
    Settled Registers (fun _ => True) (leaveBody outside call) :=
  Settled.quiet_andThen (hquiet call) (fun _ _ _ _ => trivial) (settled_releaseLock _)

/-- No access of `Broker_deliver_request` sees the callback. -/
theorem interruptible_deliverRequestBody (request : Request spec) :
    Interruptible Registers (deliverRequestBody spec outside request) := by
  refine .locked _ (.mover ?_ fun headerSize => .mover ?_ fun _ => .mover ?_ fun packetSize =>
    .mover ?_ fun call => .settled (settled_leaveBody hquiet call))
  · rintro broker _ rfl
    rfl
  · rintro broker _ rfl
    simp only [Commutes, registerErrorCallback]
    cases memcpy broker.packetizerBuffer headerSize request.data request.data.length <;> rfl
  · rintro broker _ rfl
    simp only [Commutes, registerErrorCallback]
    generalize (packetizersFunctions spec _).packetize _ _ _ _ _ _ _ _ = sent
    cases sent <;> rfl
  · rintro broker _ rfl
    simp only [Commutes, registerErrorCallback]
    cases slice broker.packetizerBuffer 0 packetSize <;> rfl

/-- `Broker_receive_packet` takes effect when it compares the callback with
`NULL`, or at its end where it does not. -/
theorem interruptible_receivePacketBody (busId : spec.Bus) (data : List UInt8) :
    Interruptible Registers (receivePacketBody spec outside busId data) := by
  refine .locked _ (.mover ?_ ?_)
  · rintro broker _ rfl
    simp only [Commutes, registerErrorCallback]
    generalize (packetizersFunctions spec _).depacketize _ _ _ _ _ = result
    cases result <;> rfl
  · rintro ⟨success, out⟩
    cases success with
    | false =>
        -- once the callback was seen not to be null, it stays so
        refine .point (fun callback broker => callback = true → broker.brokerErrorCallback = true)
          ?_ fun callback => ?_
        · rintro broker callback broker' calls hread hcallback
          obtain ⟨rfl, rfl, rfl⟩ : broker.brokerErrorCallback = callback ∧ broker = broker' ∧
              [] = calls := by simpa using hread
          exact hcallback
        · cases callback with
          | false => exact settled_releaseLock _
          | true =>
              refine .access (fun _ _ => True) ?_ ?_ ?_ fun call => settled_leaveBody hquiet call
              · rintro broker - _ rfl -
                rfl
              · rintro broker hcallback _ rfl
                simp only [Commutes, registerErrorCallback, hcallback rfl, if_true]
                rfl
              · intro broker hcallback
                exact ⟨_, broker, _, if_pos (hcallback rfl), trivial⟩
    | true =>
        refine .mover ?_ fun call => .settled (settled_leaveBody hquiet call)
        rintro broker _ rfl
        simp only [Commutes, registerErrorCallback]
        split
        · cases slice data out.dataOffset out.dataSize <;> rfl
        · rfl

/-- Calls that register no null pointer may be interrupted by each other. -/
theorem interruptible_task (op : BrokerOp spec) (hop : op ≠ .registerErrorCallback false) :
    Interruptible Registers (task spec outside op) := by
  cases op with
  | deliverRequest request => exact interruptible_deliverRequestBody hquiet request
  | receivePacket busId data => exact interruptible_receivePacketBody hquiet busId data
  | registerErrorCallback callback =>
      cases callback with
      | false => exact absurd rfl hop
      | true => exact .free rfl

/-! ## schedules -/

theorem runOps_task (broker : Broker spec) (ops : List (BrokerOp spec)) :
    runOps (task spec outside) broker ops = run spec broker ops := by
  have hstep : (fun broker op => (task spec outside op).run broker) = step spec :=
    funext fun broker => funext fun op => run_task hquiet op broker
  rw [runOps, hstep, run]

/-- **Serialization**: where no thread registers a null pointer, and the
functions the broker calls return and keep to themselves, any schedule of any
threads does what an order of whole calls does, in which the calls of each
thread stand as in its program: when nobody holds the lock, the static
variables and all that was called are those behind the calls, and at any time a
thread has at most one call in flight besides them, with the lock or in front
of its first step.  The schedule is carried out to its end, unless a call fails
that would fail behind the others as well. -/
theorem serialized_runThreads [DecidableEq ι] (start : Broker spec)
    (programs : ι → List (BrokerOp spec))
    (hnull : ∀ thread, .registerErrorCallback false ∉ programs thread) (schedule : List ι) :
    ∃ handled rest config calls order, schedule = handled ++ rest ∧
      runThreads spec outside start programs handled = .ok (config, calls) ∧
      (∃ broker effect, run spec start (order.map Prod.snd) = .ok (broker, effect) ∧
        (config.holder = none → config.shared = broker ∧ calls = effect)) ∧
      (∀ thread, ∃ flight, programs thread =
          opsOf thread order ++ (flight ++ config.programs thread) ∧
        (flight = [] ∨ ∃ op, flight = [op] ∧ (config.holder = some thread ∨
          config.running thread = task spec outside op))) ∧
      (rest = [] ∨ ∃ thread rest' fault op, rest = thread :: rest' ∧
        Locking.step (task spec outside) config thread = .error fault ∧ op ∈ programs thread ∧
        run spec start (order.map Prod.snd ++ [op]) = .error fault) := by
  have hops (thread : ι) (op : BrokerOp spec) (hop : op ∈ programs thread) :
      Interruptible Registers (task spec outside op) :=
    interruptible_task hquiet op fun h => hnull thread (h ▸ hop)
  obtain ⟨handled, rest, config, calls, order, broker, effect, flight, hsplit, hrun, hlinear,
    hrest⟩ := linearized_runCall hops start schedule
  refine ⟨handled, rest, config, calls, order, hsplit, hrun, ⟨broker, effect, ?_, fun hfree => ?_⟩,
    fun thread => ⟨flight thread, hlinear.programs_eq thread, hlinear.flight_cases thread⟩, ?_⟩
  · rw [← runOps_task hquiet, hlinear.run_eq]
  · obtain ⟨rfl, rfl⟩ :=
      Prod.mk.inj (Except.ok.inj (hlinear.run_eq.symm.trans (hlinear.quiet hfree)))
    exact ⟨rfl, rfl⟩
  · refine hrest.imp_right fun ⟨thread, rest', fault, op, hcons, hfault, hmem, hop⟩ =>
      ⟨thread, rest', fault, op, hcons, hfault, hmem, ?_⟩
    rw [← runOps_task hquiet, runOps_append_singleton hlinear.run_eq, hop, after]

end Quiet

/-- Two threads of a strict bus: one handles a packet that is too small and
then makes a request, the other makes a request and registers a callback. -/
def pairPrograms : Bool → List (BrokerOp (.mock .strictCcsds))
  | true => [.receivePacket ⟨1, by decide⟩ [0], .deliverRequest ⟨⟨0, by decide⟩, 4, [7]⟩]
  | false => [.deliverRequest ⟨⟨0, by decide⟩, 3, [1, 2]⟩, .registerErrorCallback true]

/-- Drivers, interfaces and a callback that make one step of their own. -/
def pairOutside : OutsideFunctions (.mock .strictCcsds) :=
  fun _ => .access (fun broker => .ok ((), broker, [])) fun _ => .done

theorem quiet_pairOutside (call : BrokerCall (.mock .strictCcsds)) : (pairOutside call).Quiet :=
  .access () (fun _ => rfl) fun _ => .done

theorem admitted_pairPrograms : ∀ thread, ∀ op ∈ pairPrograms thread,
    op.Admitted ∧ op.NamesInterface := by
  decide

theorem ne_registerErrorCallback_false_of_mem_pairPrograms (thread : Bool)
    (op : BrokerOp (.mock .strictCcsds)) (hop : op ∈ pairPrograms thread) :
    op ≠ .registerErrorCallback false := by
  rintro rfl
  cases thread <;> simp [pairPrograms] at hop

/-- The first thread takes the lock and handles its packet; in the meantime the
other one waits for the lock. -/
theorem serialized_runThreads_pair :
    let schedule := [true, true, false, false, true, false, true, true, false, false, true]
    ∃ handled rest config calls order, schedule = handled ++ rest ∧
      runThreads _ pairOutside (static _) pairPrograms handled = .ok (config, calls) ∧
      (∃ broker effect, run (.mock .strictCcsds) (static _) (order.map Prod.snd) =
          .ok (broker, effect) ∧
        (config.holder = none → config.shared = broker ∧ calls = effect)) ∧
      (∀ thread, ∃ flight, pairPrograms thread =
          opsOf thread order ++ (flight ++ config.programs thread) ∧
        (flight = [] ∨ ∃ op, flight = [op] ∧ (config.holder = some thread ∨
          config.running thread = task _ pairOutside op))) ∧
      (rest = [] ∨ ∃ thread rest' fault op, rest = thread :: rest' ∧
        Locking.step (task _ pairOutside) config thread = .error fault ∧
        op ∈ pairPrograms thread ∧
        run (.mock .strictCcsds) (static _) (order.map Prod.snd ++ [op]) = .error fault) :=
  serialized_runThreads quiet_pairOutside (static _) pairPrograms
    (fun thread h => ne_registerErrorCallback_false_of_mem_pairPrograms thread _ h rfl) _

/-! ## the numbers of the buses -/

/-- An order of operations of the threads keeps the numbers of all buses. -/
theorem numbered_run [DecidableEq ι] (hbuiltIn : spec.BuiltIn) (hstart : Numbered [] broker [])
    {programs : ι → List (BrokerOp spec)}
    (hops : ∀ thread, ∀ op ∈ programs thread, op.Admitted) {order : List (ι × BrokerOp spec)}
    (horder : ∀ thread, opsOf thread order <+: programs thread)
    (hrun : run spec broker (order.map Prod.snd) = .ok (broker', calls)) :
    Numbered (order.map Prod.snd) broker' calls := by
  have hadmitted (op : BrokerOp spec) (hop : op ∈ order.map Prod.snd) : op.Admitted := by
    obtain ⟨⟨thread, op⟩, hentry, rfl⟩ := List.mem_map.mp hop
    exact hops thread op ((horder thread).subset (mem_opsOf hentry))
  exact Transducer.runCall_invariant_of_ok (step spec) _
    (fun _ _ _ op h hop => h.step hbuiltIn op (hadmitted op hop)) hstart hrun

/-- **Numbers**: with any threads that make admitted calls and register no null
pointer, and functions outside that return and keep to themselves, under any
schedule, what was handed to the send function of a bus is, whenever nobody
holds the lock, the reference encoding of the requests on that bus, numbered
without a gap, in an order in which those of each thread stand as in its
program.  No schedule calls a null pointer or leaves a buffer; it only stops
where a received packet makes the broker read the table of deliver functions
outside. -/
theorem sentOn_runThreads [DecidableEq ι] {outside : OutsideFunctions spec}
    (hquiet : ∀ call, (outside call).Quiet) (hbuiltIn : spec.BuiltIn) {start : Broker spec}
    (hinv : Inv start) (validBuses : Fin spec.systemBusesNumber → Nat)
    (hlisted : ∀ bus, (spec.busToPacketizerCfg bus).counts →
      bus ∈ listed spec (List.ofFn validBuses) ∨ start.count bus = 0)
    (hinit : brokerInitialize spec start validBuses = .ok broker)
    (programs : ι → List (BrokerOp spec))
    (hops : ∀ thread, ∀ op ∈ programs thread, op.Admitted ∧ op ≠ .registerErrorCallback false)
    (schedule : List ι) :
    ∃ handled rest config calls order, schedule = handled ++ rest ∧
      runThreads spec outside broker programs handled = .ok (config, calls) ∧
      (∀ thread, opsOf thread order <+: programs thread) ∧
      (config.holder = none →
        (∀ thread, ∃ flight, programs thread =
            opsOf thread order ++ (flight ++ config.programs thread) ∧
          (flight = [] ∨ ∃ op, flight = [op] ∧ config.running thread = task spec outside op)) ∧
        ∀ bus, sentOn bus calls = reference bus (requestsOn bus (order.map Prod.snd))) ∧
      (rest = [] ∨ ∃ thread rest' fault op, rest = thread :: rest' ∧
        Locking.step (task spec outside) config thread = .error fault ∧ op ∈ programs thread ∧
        StopsOutside op fault) := by
  have hstart := numbered_brokerInitialize hbuiltIn hinv hlisted hinit
  obtain ⟨handled, rest, config, calls, order, broker', effect, flight, hsplit, hrun, hlinear,
    hrest⟩ := linearized_runCall
      (fun thread op hop => interruptible_task hquiet op (hops thread op hop).2) broker schedule
  have hfront (thread : ι) : opsOf thread order <+: programs thread := by
    rw [hlinear.programs_eq thread]
    exact List.prefix_append _ _
  have hnumbered : Numbered (order.map Prod.snd) broker' effect :=
    numbered_run hbuiltIn hstart (fun thread op hop => (hops thread op hop).1) hfront
      ((runOps_task hquiet _ _).symm.trans hlinear.run_eq)
  refine ⟨handled, rest, config, calls, order, hsplit, hrun, hfront, fun hfree => ?_, ?_⟩
  · obtain ⟨rfl, rfl⟩ :=
      Prod.mk.inj (Except.ok.inj (hlinear.run_eq.symm.trans (hlinear.quiet hfree)))
    refine ⟨fun thread => ⟨flight thread, hlinear.programs_eq thread, ?_⟩, hnumbered.sent⟩
    exact (hlinear.flight_cases thread).imp_right fun ⟨op, hflight, hwhere⟩ =>
      ⟨op, hflight, hwhere.resolve_left (by simp [hfree])⟩
  · refine hrest.imp_right fun ⟨thread, rest', fault, op, hcons, hfault, hmem, hop⟩ =>
      ⟨thread, rest', fault, op, hcons, hfault, hmem, ?_⟩
    rw [run_task hquiet] at hop
    obtain ⟨broker'', out, hok, -⟩ | ⟨fault', hfault', hstops⟩ :=
      hnumbered.step hbuiltIn op (hops thread op hmem).1
    · rw [hok] at hop
      contradiction
    · obtain rfl := Except.error.inj (hop.symm.trans hfault')
      exact hstops

/-- The same two threads, with a schedule in which each of them holds the lock
once while the other waits for it. -/
theorem sentOn_runThreads_pair :
    let schedule := [true, true, false, false, true, true, true, false, false, true, true, false,
      false, false, false, false, false, false]
    ∃ broker, brokerInitialize (.mock .strictCcsds) (static _) (fun i => i.val + 1) = .ok broker ∧
      ∃ handled rest config calls order, schedule = handled ++ rest ∧
        runThreads _ pairOutside broker pairPrograms handled = .ok (config, calls) ∧
        (∀ thread, opsOf thread order <+: pairPrograms thread) ∧
        (config.holder = none →
          (∀ thread, ∃ flight, pairPrograms thread =
              opsOf thread order ++ (flight ++ config.programs thread) ∧
            (flight = [] ∨ ∃ op, flight = [op] ∧
              config.running thread = task _ pairOutside op)) ∧
          ∀ bus, sentOn bus calls = reference bus (requestsOn bus (order.map Prod.snd))) ∧
        (rest = [] ∨ ∃ thread rest' fault op, rest = thread :: rest' ∧
          Locking.step (task _ pairOutside) config thread = .error fault ∧
          op ∈ pairPrograms thread ∧ StopsOutside op fault) :=
  ⟨_, rfl, sentOn_runThreads quiet_pairOutside (SystemSpec.builtIn_mock (by decide))
    (inv_static _) (fun i => i.val + 1) (fun _ _ => .inr rfl) rfl pairPrograms
    (fun thread op hop => ⟨(admitted_pairPrograms thread op hop).1,
      ne_registerErrorCallback_false_of_mem_pairPrograms thread op hop⟩) _⟩

/-- **Race**: whenever the broker rejects a packet with a callback registered,
a thread that registers a null pointer between the two reads of the callback
makes it call the null pointer, although both orders of the two calls return. -/
theorem nullCall_runThreads [DecidableEq ι] (outside : OutsideFunctions spec)
    (broker : Broker spec)
    (hcallback : broker.brokerErrorCallback = true) (bus : spec.Bus) (packet : List UInt8)
    (hreject : (packetizersFunctions spec (spec.busToPacketizerCfg bus)).depacketize
      (broker.packetizersData bus) spec.expectPacketType packet bus ⟨0, 0, 0, 0, some 0⟩ =
        .ok (false, out))
    (programs : ι → List (BrokerOp spec)) (hother : reader ≠ other)
    (hreader : programs reader = .receivePacket bus packet :: ops)
    (hregisters : programs other = .registerErrorCallback false :: ops') :
    (∃ schedule, runThreads spec outside broker programs schedule = .error .nullCall) ∧
      (∃ result, run spec broker [.receivePacket bus packet, .registerErrorCallback false] =
        .ok result) ∧
      ∃ result, run spec broker [.registerErrorCallback false, .receivePacket bus packet] =
        .ok result := by
  have hreceive (callback : Bool) : ∃ calls, receivePacket spec
      { broker with brokerErrorCallback := callback } bus packet =
        .ok ({ broker with brokerErrorCallback := callback }, calls) := by
    simp only [receivePacket, hreject, ok_bind]
    cases callback with
    | false => exact ⟨_, rfl⟩
    | true => exact ⟨_, rfl⟩
  refine ⟨⟨[reader, reader, reader, reader, other, other, reader], ?_⟩, ?_, ?_⟩
  · -- the configuration in which the reader holds the lock in front of a part of its call
    let before (broker : Broker spec) (programs : ι → List (BrokerOp spec)) (rest : BrokerBody spec)
        (others : ι → BrokerBody spec) : Config (Broker spec) (BrokerCall spec) Fault ι
          (BrokerOp spec) :=
      ⟨broker, programs, Function.update others reader rest, some reader⟩
    let idle : ι → BrokerBody spec := fun _ => .done
    let read := Function.update programs reader ops
    let registering : ι → BrokerBody spec :=
      Function.update idle other (task spec outside (.registerErrorCallback false))
    have hbegin : Locking.step (task spec outside) (initial broker programs) reader =
        .ok (⟨broker, read, Function.update idle reader
          (receivePacketBody spec outside bus packet), none⟩, []) :=
      (step_begin rfl hreader).trans rfl
    have hacquire : Locking.step (task spec outside) ⟨broker, read, Function.update idle reader
        (receivePacketBody spec outside bus packet), none⟩ reader =
          .ok (before broker read (depacketizeBody spec outside bus packet) idle,
            [.acquireLock]) := by
      simp [Locking.step, before, receivePacketBody]
    have hdepacketize : Locking.step (task spec outside)
        (before broker read (depacketizeBody spec outside bus packet) idle) reader =
          .ok (before broker read (rejectedBody outside out.errorCode packet) idle, []) := by
      simp [Locking.step, before, depacketizeBody, hreject]
    have hcompare : Locking.step (task spec outside)
        (before broker read (rejectedBody outside out.errorCode packet) idle) reader =
          .ok (before broker read (errorCallbackBody outside out.errorCode packet) idle, []) := by
      simp [Locking.step, before, rejectedBody, hcallback]
    have hread : read other = .registerErrorCallback false :: ops' :=
      (Function.update_of_ne (Ne.symm hother) _ _).trans hregisters
    have hothers : Locking.step (task spec outside)
        (before broker read (errorCallbackBody outside out.errorCode packet) idle) other =
          .ok (before broker (Function.update read other ops')
            (errorCallbackBody outside out.errorCode packet) registering, []) := by
      have hrunning : (before broker read (errorCallbackBody outside out.errorCode packet)
          idle).running other = .done :=
        Function.update_of_ne (Ne.symm hother) (errorCallbackBody outside _ packet) idle
      rw [step_begin hrunning hread]
      simp only [before, registering, Function.update_comm hother]
    have hregister : Locking.step (task spec outside)
        (before broker (Function.update read other ops')
          (errorCallbackBody outside out.errorCode packet) registering) other =
          .ok (before (broker.registerErrorCallback false) (Function.update read other ops')
            (errorCallbackBody outside out.errorCode packet) idle, []) := by
      have hrunning : (before broker (Function.update read other ops')
          (errorCallbackBody outside out.errorCode packet) registering).running other =
            .access (fun broker => .ok ((), broker.registerErrorCallback false, []))
              fun _ => .done :=
        (Function.update_of_ne (Ne.symm hother) _ _).trans (Function.update_self _ _ _)
      have hagain : Function.update registering other .done = idle := by
        rw [Function.update_idem, Function.update_eq_self_iff]
      rw [step_access hrunning rfl]
      simp only [before, Function.update_comm hother, hagain]
    have hcall : Locking.step (task spec outside)
        (before (broker.registerErrorCallback false) (Function.update read other ops')
          (errorCallbackBody outside out.errorCode packet) idle) reader = .error .nullCall := by
      simp [Locking.step, before, errorCallbackBody, registerErrorCallback]
    simp only [runThreads, Transducer.runCall, hbegin, hacquire, hdepacketize, hcompare, hothers,
      hregister, hcall]
  · obtain ⟨calls, hcalls⟩ := hreceive broker.brokerErrorCallback
    exact ⟨_, Transducer.runCall_cons _ hcalls (Transducer.runCall_cons _ rfl rfl)⟩
  · obtain ⟨calls, hcalls⟩ := hreceive false
    exact ⟨_, Transducer.runCall_cons _ rfl (Transducer.runCall_cons _ hcalls rfl)⟩

/-- One thread handles a packet that is too small, the other takes the callback
away. -/
theorem nullCall_runThreads_small :
    let broker : Broker (.mock .strictCcsds) := { static _ with brokerErrorCallback := true }
    let packet : BrokerOp (.mock .strictCcsds) := .receivePacket ⟨1, by decide⟩ [0]
    (∃ schedule, runThreads _ pairOutside broker (fun thread : Bool =>
        if thread then [packet] else [.registerErrorCallback false]) schedule =
          .error .nullCall) ∧
      (∃ result, run _ broker [packet, .registerErrorCallback false] = .ok result) ∧
      ∃ result, run _ broker [.registerErrorCallback false, packet] = .ok result :=
  nullCall_runThreads pairOutside _ rfl ⟨1, by decide⟩ [0] rfl _ (show true ≠ false by decide) rfl
    rfl

end Broker

end TasteRuntime
