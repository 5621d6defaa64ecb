import Mathlib.Data.List.Perm.Basic
import TasteRuntime.Lib.Channel
import TasteRuntime.Broker.Arrival
import TasteRuntime.Broker.Assertions
import TasteRuntime.Escaper.Duplex

/-!
# TasteRuntime.Link.Node

One end of a serial line: a partition with its broker, and the driver of the
line with its escaper.  Requests and packets of other buses call the broker at
any time, and wait in `Broker_acquire_lock` while another thread holds the
lock; the send function of the line, called by the broker under its lock,
repeats `Escaper_encode_packet`; the thread that reads the line hands each byte
to the decoder of the same escaper, which calls `Broker_receive_packet`.

`Ready.step` says what a move does: towards the line and from the line it is
one step of a `Stuffing.Channel`, or the broker reads its table of deliver
functions outside.  No move drops a call (`kept_step`).
-/

namespace TasteRuntime

open CMemory Stuffing Escaper

/-- The operations that take the lock. -/
def BrokerOp.locks : BrokerOp spec → Bool
  | .registerErrorCallback _ => false
  | _ => true

/-- A partition at a line; `sending` is the packet in the send function of the
line with the index of its next byte, and `waiting` are the calls of the
threads in `Broker_acquire_lock`. -/
structure Node (spec : SystemSpec) where
  broker : Broker spec
  escaper : Escaper
  sending : Option (List UInt8 × Nat)
  waiting : List (BrokerOp spec)

/-- What a node does next: a thread calls the broker, one of those that wait
gets the lock, or the driver of the line goes on. -/
inductive NodeMove (spec : SystemSpec) where
  | call (op : BrokerOp spec)
  | enter (i : Nat)
  | encode
  | arrive

/-- The calls of the broker that a move makes. -/
def NodeMove.calls : NodeMove spec → List (BrokerOp spec)
  | .call op => [op]
  | .enter _ | .encode | .arrive => []

/-- The operation of a move is called as its callers promise. -/
def NodeMove.Admitted (move : NodeMove spec) : Prop := ∀ op ∈ move.calls, op.Admitted

instance (move : NodeMove spec) : Decidable move.Admitted :=
  inferInstanceAs (Decidable (∀ op ∈ move.calls, op.Admitted))

/-- What a node did: a function of the broker was carried out, or the decoder
had a packet for the broker, as it was then, each with what the broker called. -/
inductive NodeEvent (spec : SystemSpec) where
  | called (op : BrokerOp spec) (calls : List (BrokerCall spec))
  | arrived (broker : Broker spec) (packet : List UInt8) (calls : List (BrokerCall spec))

namespace NodeEvent

variable {spec : SystemSpec}

/-- The call of the broker that was carried out. -/
def op : NodeEvent spec → Option (BrokerOp spec)
  | .called op _ => some op
  | .arrived _ _ _ => none

/-- The request an event made on a bus. -/
def requestOver (bus : spec.Bus) : NodeEvent spec → Option (Request spec)
  | .called op _ => op.requestOn bus
  | .arrived _ _ _ => none

/-- The packets an event handed to the send function of a bus. -/
def sentOver (bus : spec.Bus) : NodeEvent spec → List (List UInt8)
  | .called _ calls => Broker.sentOn bus calls
  | .arrived _ _ _ => []

/-- The packet an event took from the line. -/
def received : NodeEvent spec → Option (List UInt8)
  | .called _ _ => none
  | .arrived _ packet _ => some packet

/-- The packet handed to the send function is that of the request, and what
was called for a packet is what `Broker_receive_packet` calls. -/
def Sound (bus : spec.Bus) : NodeEvent spec → Prop
  | .called op calls => List.Forall₂ (fun request packet => ∃ count,
      packet = (spec.busToPacketizerCfg bus).encode (request.spacePacket count))
      (Broker.requestsOn bus [op]) (Broker.sentOn bus calls)
  | .arrived broker packet calls =>
      Broker.receivePacket spec broker bus packet = .ok (broker, calls)

end NodeEvent

namespace Node

variable {spec : SystemSpec}

/-- A move leaves the node, what is left of the incoming bytes, the bytes it
put on the line, and what happened. -/
structure Result (spec : SystemSpec) where
  node : Node spec
  incoming : List UInt8
  sent : List UInt8
  events : List (NodeEvent spec)

/-- The send function of the line is called with a packet: it starts the
encoder, and keeps the lock until it has sent the packet. -/
def startSending (node : Node spec) : List (List UInt8) → Node spec
  | [] => node
  | packet :: _ =>
      { node with escaper := node.escaper.startEncoder, sending := some (packet, 0) }

/-- The decoder hands its packets to `Broker_receive_packet`. -/
def receive (spec : SystemSpec) (broker : Broker spec) (call : ReceiveCall spec.Bus) :
    Exec (Broker spec × List (NodeEvent spec)) := do
  let (broker', calls) ← Broker.receivePacket spec broker call.busId call.packet
  pure (broker', [.arrived broker call.packet calls])

/-- A call is carried out; a request over the line enters the send function. -/
def carryOut (bus : spec.Bus) (node : Node spec) (incoming : List UInt8) (op : BrokerOp spec) :
    Exec (Result spec) := do
  let (broker, calls) ← Broker.step spec node.broker op
  pure ⟨{ node with broker := broker }.startSending (Broker.sentOn bus calls), incoming, [],
    [.called op calls]⟩

/-- One move.  A thread that needs the lock waits for the send function; which
of those that wait gets it next is up to the mutex. -/
def step (spec : SystemSpec) (bus : spec.Bus) (node : Node spec) (incoming : List UInt8) :
    NodeMove spec → Exec (Result spec)
  | .call op =>
      if op.locks then pure ⟨{ node with waiting := node.waiting ++ [op] }, incoming, [], []⟩
      else node.carryOut bus incoming op
  | .enter i =>
      match node.sending, node.waiting[i]? with
      | none, some op =>
          { node with waiting := node.waiting.eraseIdx i }.carryOut bus incoming op
      | _, _ => pure ⟨node, incoming, [], []⟩
  | .encode =>
      match node.sending with
      | none => pure ⟨node, incoming, [], []⟩
      | some (packet, index) => do
          let ((escaper, index), piece) ← encodeAndSend packet (node.escaper, index)
          -- the send function returns when there is nothing left to send
          if piece.length = 0 then
            pure ⟨{ node with escaper := escaper, sending := none }, incoming, [], []⟩
          else
            pure ⟨{ node with escaper := escaper, sending := some (packet, index) }, incoming,
              piece, []⟩
  | .arrive =>
      match incoming with
      | [] => pure ⟨node, incoming, [], []⟩
      | byte :: rest => do
          let (escaper, received) ← decodeByte bus node.escaper byte
          -- the reader waits in `Broker_receive_packet`
          if node.sending.isSome ∧ received ≠ [] then pure ⟨node, incoming, [], []⟩
          else do
            let (broker, events) ← Transducer.runCall (receive spec) node.broker received
            pure ⟨{ node with broker := broker, escaper := escaper }, rest, [], events⟩

/-! ## what the line sees of a node -/

/-- The bytes the send function still puts on the line. -/
def pending (node : Node spec) : List UInt8 :=
  match node.sending with
  | none => []
  | some (packet, index) => Escaper.pending packet (node.escaper, index)

/-- What stays true of a node: its static variables and both buffers keep
their bounds, and so does the index of a packet that is being sent; the calls
that wait are admitted. -/
structure Ready (M D : Nat) (node : Node spec) : Prop where
  broker : Broker.Inv node.broker
  escaper : Sized M D node.escaper
  index_le : ∀ packet index, node.sending = some (packet, index) → index ≤ packet.length
  waiting : ∀ op ∈ node.waiting, op.Admitted

/-- A thread that gets the lock reads the table of deliver functions outside:
the packet it received, from another bus, names no interface. -/
def StopsEntered (node : Node spec) (move : NodeMove spec) (fault : Fault) : Prop :=
  ∃ i op, move = .enter i ∧ node.waiting[i]? = some op ∧ Broker.StopsOutside op fault

/-- The one way a move does not return: a packet that names no interface
passes the checks of its format.  It came from another bus, or the decoder
took it from the line. -/
def Stops (bus : spec.Bus) (D : Nat) (node : Node spec) (incoming : List UInt8)
    (move : NodeMove spec) (fault : Fault) : Prop :=
  node.StopsEntered move fault ∨
    ∃ byte rest packet, move = .arrive ∧ incoming = byte :: rest ∧
      packet ∈ (Receiver.step alphabet (Escaper.abs D node.escaper) byte).2 ∧
      Broker.StopsOutside (.receivePacket bus packet) fault

/-- What a move did, seen from the line. -/
structure Moved (bus : spec.Bus) (M D : Nat) (node : Node spec) (incoming : List UInt8)
    (result : Result spec) : Prop where
  ready : result.node.Ready M D
  outward : ∀ {D' : Nat} (line : List UInt8) (reader : Receiver UInt8 D'),
    Channel.Step alphabet ⟨node.pending, line, reader⟩
      (result.events.flatMap (NodeEvent.sentOver bus)) []
      ⟨result.node.pending, line ++ result.sent, reader⟩
  inward : ∀ pending : List UInt8,
    Channel.Step alphabet ⟨pending, incoming, Escaper.abs D node.escaper⟩ []
      (result.events.filterMap NodeEvent.received)
      ⟨pending, result.incoming, Escaper.abs D result.node.escaper⟩
  sound : ∀ event ∈ result.events, event.Sound bus

/-- A move that waits. -/
theorem moved_same {bus : spec.Bus} {node : Node spec} (h : node.Ready M D)
    (incoming : List UInt8) : Moved bus M D node incoming ⟨node, incoming, [], []⟩ where
  ready := h
  outward line reader := by simpa using Channel.Step.stay _
  inward pending := Channel.Step.stay _
  sound _ h := absurd h List.not_mem_nil

/-! ## no call is lost -/

/-- The calls that were carried out, in order. -/
def carriedOut (events : List (NodeEvent spec)) : List (BrokerOp spec) :=
  events.filterMap NodeEvent.op

@[simp] theorem carriedOut_append (events events' : List (NodeEvent spec)) :
    carriedOut (events ++ events') = carriedOut events ++ carriedOut events' :=
  List.filterMap_append

@[simp] theorem waiting_startSending (node : Node spec) (packets : List (List UInt8)) :
    (node.startSending packets).waiting = node.waiting := by
  cases packets <;> rfl

theorem kept_carryOut (bus : spec.Bus) (node : Node spec) (incoming : List UInt8)
    (op : BrokerOp spec) : Ensures (node.carryOut bus incoming op) fun result =>
      carriedOut result.events = [op] ∧ result.node.waiting = node.waiting :=
  (ensures_true _).bind fun _ _ => ensures_ok ⟨rfl, waiting_startSending _ _⟩

/-- What the decoder hands to the broker is no call of another thread. -/
theorem carriedOut_receive (broker : Broker spec) (received : List (ReceiveCall spec.Bus)) :
    Ensures (Transducer.runCall (receive spec) broker received) fun r =>
      carriedOut r.2 = [] := by
  induction received generalizing broker with
  | nil => exact ensures_ok rfl
  | cons call received ih =>
      rw [Transducer.runCall]
      cases hreceive : receive spec broker call with
      | error fault => exact ensures_error fault _
      | ok r =>
          have hone : carriedOut r.2 = [] := by
            have hevents : Ensures (receive spec broker call) fun r => carriedOut r.2 = [] :=
              (ensures_true _).bind fun _ _ => ensures_ok rfl
            exact hevents r hreceive
          cases hrest : Transducer.runCall (receive spec) r.1 received with
          | error fault => simpa only [hrest] using ensures_error fault _
          | ok r' =>
              have htail : carriedOut r'.2 = [] := ih r.1 r' hrest
              simp only [hrest]
              exact ensures_ok (by rw [carriedOut_append, hone, htail]; rfl)

/-- **No call is lost**: what waited and what a move calls is carried out in
the move, once, or waits behind it. -/
theorem kept_step (bus : spec.Bus) (node : Node spec) (incoming : List UInt8)
    (move : NodeMove spec) : Ensures (step spec bus node incoming move) fun result =>
      (node.waiting ++ move.calls).Perm (carriedOut result.events ++ result.node.waiting) := by
  have hsame : (node.waiting ++ []).Perm (carriedOut [] ++ node.waiting) := by
    rw [List.append_nil]
    exact .refl _
  cases move with
  | call op =>
      rw [step]
      split
      · exact ensures_ok (.refl _)
      · refine (kept_carryOut bus node incoming op).mono fun result h => ?_
        rw [h.1, h.2]
        exact List.perm_append_comm
  | enter i =>
      rw [step]
      split
      · next op hfree hop =>
          refine (kept_carryOut bus _ incoming op).mono fun result h => ?_
          obtain ⟨hi, rfl⟩ := List.getElem?_eq_some_iff.mp hop
          rw [h.1, h.2, NodeMove.calls, List.append_nil]
          exact (List.getElem_cons_eraseIdx_perm hi).symm
      · exact ensures_ok hsame
  | encode =>
      simp only [step]
      split
      · exact ensures_ok hsame
      · refine (ensures_true _).bind fun _ _ => ?_
        split <;> exact ensures_ok hsame
  | arrive =>
      simp only [step]
      split
      · exact ensures_ok hsame
      · refine (ensures_true _).bind fun _ _ => ?_
        split
        · exact ensures_ok hsame
        · refine (carriedOut_receive _ _).bind fun r hr => ensures_ok ?_
          rw [hr]
          exact hsame

/-! ## the two halves of the escaper -/

/-- The decoder's half of an escaper determines what it keeps. -/
theorem abs_of_sameDecoder (h : SameDecoder e e') (D : Nat) :
    Escaper.abs D e' = Escaper.abs D e := by
  simp only [Escaper.abs, h.parseState, h.buffer, h.index]

theorem decoderInv_of_sameDecoder (h : SameDecoder e e') (hinv : DecoderInv D e) :
    DecoderInv D e' where
  maxSize := h.maxSize.trans hinv.maxSize
  length_buffer := (congrArg List.length h.buffer).trans hinv.length_buffer
  index_le := Nat.le_trans (Nat.le_of_eq h.index) hinv.index_le

/-- The encoder's half determines what it still sends. -/
theorem pending_of_encoderHalf_eq (h : e'.encoderHalf = e.encoderHalf) (data : List UInt8)
    (index : Nat) : Escaper.pending data (e', index) = Escaper.pending data (e, index) := by
  obtain ⟨hstarted, hescape, hfinished, -, -⟩ := EncoderHalf.mk.inj h
  simp only [Escaper.pending, hstarted, hescape, hfinished]

theorem sameDecoder_encodeAndSend (data : List UInt8) (state : Escaper × Nat) :
    Ensures (encodeAndSend data state) fun r => SameDecoder state.1 r.1.1 :=
  (sameDecoder_encodePacket state.1 data state.2).bind fun _ hcall =>
    (ensures_true _).bind fun _ _ => ensures_ok hcall

/-! ## the moves -/

/-- A packet is received without anything being sent, or it names no interface
and passes the checks of its format. -/
theorem receivePacket_or_stops (hbuiltIn : spec.BuiltIn) (broker : Broker spec) (bus : spec.Bus)
    (hw : packet.length < 2 ^ spec.sizeBits) :
    (∃ calls, Broker.receivePacket spec broker bus packet = .ok (broker, calls) ∧
      ∀ other, Broker.sentOn other calls = []) ∨
    ∃ fault, Broker.receivePacket spec broker bus packet = .error fault ∧
      Broker.StopsOutside (.receivePacket bus packet) fault := by
  rw [Broker.receivePacket_eq broker (hbuiltIn bus) hw]
  cases hverdict : spec.verdict bus packet with
  | reject code =>
      refine .inl ⟨_, rfl, fun other => ?_⟩
      unfold Broker.rejection
      split <;> rfl
  | accept =>
      by_cases hdest : (spec.fields bus packet).destination.toNat < spec.interfaceMaxId
      · simp only [dif_pos hdest]
        exact .inl ⟨_, rfl, fun _ => rfl⟩
      · simp only [dif_neg hdest]
        exact .inr ⟨_, rfl, bus, packet, rfl, hverdict, Nat.le_of_not_lt hdest, rfl⟩

variable {bus : spec.Bus} {node : Node spec} {broker : Broker spec}

/-- A call that sends nothing on the line leaves it alone. -/
theorem moved_quiet (h : node.Ready M D) (hinv : Broker.Inv broker) (incoming : List UInt8)
    (op : BrokerOp spec) (hrequest : Broker.requestsOn bus [op] = [])
    (hsent : Broker.sentOn bus calls = []) :
    Moved bus M D node incoming ⟨{ node with broker := broker }.startSending
      (Broker.sentOn bus calls), incoming, [], [.called op calls]⟩ where
  ready := by
    rw [hsent]
    exact ⟨hinv, h.escaper, h.index_le, h.waiting⟩
  outward line reader := by
    simp only [List.flatMap_cons, NodeEvent.sentOver, hsent, List.flatMap_nil, List.append_nil,
      startSending]
    exact Channel.Step.stay _
  inward pending := by
    rw [hsent]
    exact Channel.Step.stay _
  sound event hevent := by
    rw [List.mem_singleton] at hevent
    subst hevent
    simp only [NodeEvent.Sound, hrequest, hsent]
    exact .nil

/-- A request on the line starts the frame of its packet. -/
theorem moved_request (h : node.Ready M D) (hfree : node.sending = none)
    (hinv : Broker.Inv broker) (incoming : List UInt8) (request : Request spec)
    (hbus : request.bus = bus) (count : Nat) (packet : List UInt8)
    (hpacket : packet = (spec.busToPacketizerCfg bus).encode (request.spacePacket count))
    (hsent : Broker.sentOn bus calls = [packet]) :
    Moved bus M D node incoming ⟨{ node with broker := broker }.startSending
      (Broker.sentOn bus calls), incoming, [], [.called (.deliverRequest request) calls]⟩ where
  ready := by
    rw [hsent]
    refine ⟨hinv, ⟨h.escaper.1, h.escaper.2, h.escaper.3.1, h.escaper.3.2, h.escaper.3.3⟩, ?_,
      h.waiting⟩
    rintro _ _ ⟨⟩
    exact Nat.zero_le _
  outward line reader := by
    have hnil : node.pending = [] := by rw [pending, hfree]
    have hframe : (({ node with broker := broker } : Node spec).startSending [packet]).pending =
        alphabet.frame packet := pending_startEncoder node.escaper packet
    simp only [List.flatMap_cons, NodeEvent.sentOver, hsent, List.flatMap_nil, List.append_nil,
      hnil, hframe]
    exact Channel.Step.accept packet line reader
  inward pending := by
    rw [hsent]
    exact Channel.Step.stay _
  sound event hevent := by
    rw [List.mem_singleton] at hevent
    subst hevent
    simp only [NodeEvent.Sound, Broker.requestsOn_deliverRequest, if_pos hbus, hsent]
    exact .cons ⟨count, hpacket⟩ .nil

/-- A request over the line while nothing is being sent there. -/
theorem Ready.request (h : node.Ready M D) (hfree : node.sending = none) (hbuiltIn : spec.BuiltIn)
    (incoming : List UInt8) (request : Request spec)
    (hop : (BrokerOp.deliverRequest request).Admitted) (hbus : request.bus = bus) :
    ∃ broker calls packet, packet.length ≤ request.data.length + 12 ∧
      node.carryOut bus incoming (.deliverRequest request) =
        .ok ⟨{ node with broker := broker }.startSending [packet], incoming, [],
          [.called (.deliverRequest request) calls]⟩ ∧
      Moved bus M D node incoming
        ⟨{ node with broker := broker }.startSending [packet], incoming, [],
          [.called (.deliverRequest request) calls]⟩ := by
  obtain ⟨buffer, hdeliver, hbuffer⟩ :=
    Broker.deliverRequest_eq h.broker request (hbuiltIn request.bus) hop
  have hsend := Broker.sentOn_send bus request.bus ((spec.busToPacketizerCfg request.bus).encode
    (request.spacePacket (node.broker.count request.bus)))
  rw [if_pos hbus] at hsend
  have hmoved := moved_request h hfree (h.broker.afterRequest request.bus hbuffer) incoming request
    hbus _ _ (by rw [hbus]) hsend
  rw [hsend] at hmoved
  refine ⟨_, _, _, Request.length_encode_le _ _, ?_, hmoved⟩
  simp only [carryOut, Broker.step, hdeliver, ok_bind, pure_eq_ok, hsend]

/-- A request over another bus. -/
theorem Ready.request_of_ne (h : node.Ready M D) (hbuiltIn : spec.BuiltIn)
    (incoming : List UInt8) (request : Request spec)
    (hop : (BrokerOp.deliverRequest request).Admitted) (hbus : request.bus ≠ bus) :
    ∃ result, node.carryOut bus incoming (.deliverRequest request) = .ok result ∧
      Moved bus M D node incoming result := by
  obtain ⟨buffer, hdeliver, hbuffer⟩ :=
    Broker.deliverRequest_eq h.broker request (hbuiltIn request.bus) hop
  have hsend := Broker.sentOn_send bus request.bus ((spec.busToPacketizerCfg request.bus).encode
    (request.spacePacket (node.broker.count request.bus)))
  rw [if_neg hbus] at hsend
  exact ⟨_, by simp only [carryOut, Broker.step, hdeliver, ok_bind, pure_eq_ok],
    moved_quiet h (h.broker.afterRequest request.bus hbuffer) incoming (.deliverRequest request)
      (by rw [Broker.requestsOn_deliverRequest, if_neg hbus]) hsend⟩

/-- A callback is registered, with or without the lock. -/
theorem Ready.registerErrorCallback (h : node.Ready M D) (incoming : List UInt8)
    (callback : Bool) :
    ∃ result, node.carryOut bus incoming (.registerErrorCallback callback) = .ok result ∧
      Moved bus M D node incoming result := by
  have hinv : Broker.Inv (node.broker.registerErrorCallback callback) :=
    ⟨h.broker.length_buffer, h.broker.count_le⟩
  exact ⟨_, rfl, moved_quiet h hinv incoming (.registerErrorCallback callback) rfl rfl⟩

/-- A call of a function of the broker, once its thread has the lock. -/
theorem Ready.carryOut (h : node.Ready M D) (hfree : node.sending = none)
    (hbuiltIn : spec.BuiltIn) (incoming : List UInt8) (op : BrokerOp spec) (hop : op.Admitted) :
    (∃ result, node.carryOut bus incoming op = .ok result ∧
      Moved bus M D node incoming result) ∨
    ∃ fault, node.carryOut bus incoming op = .error fault ∧ Broker.StopsOutside op fault := by
  cases op with
  | registerErrorCallback callback =>
      exact .inl (h.registerErrorCallback incoming callback)
  | receivePacket other packet =>
      obtain ⟨calls, hreceive, hsent⟩ | ⟨fault, hreceive, hstops⟩ :=
        receivePacket_or_stops hbuiltIn node.broker other hop
      · exact .inl ⟨_, by simp only [Node.carryOut, Broker.step, hreceive, ok_bind, pure_eq_ok],
          moved_quiet h h.broker incoming (.receivePacket other packet) rfl (hsent bus)⟩
      · exact .inr ⟨fault, by simp only [Node.carryOut, Broker.step, hreceive, error_bind], hstops⟩
  | deliverRequest request =>
      by_cases hbus : request.bus = bus
      · obtain ⟨broker, calls, packet, -, hcarry, hmoved⟩ :=
          h.request hfree hbuiltIn incoming request hop hbus
        exact .inl ⟨_, hcarry, hmoved⟩
      · exact .inl (h.request_of_ne hbuiltIn incoming request hop hbus)

/-- A thread calls the broker. -/
theorem Ready.call (h : node.Ready M D) (incoming : List UInt8) (op : BrokerOp spec)
    (hop : op.Admitted) :
    ∃ result, step spec bus node incoming (.call op) = .ok result ∧
      Moved bus M D node incoming result := by
  have hwait (hlocks : op.locks = true) : ∃ result,
      step spec bus node incoming (.call op) = .ok result ∧
        Moved bus M D node incoming result := by
    have hmoved : Moved bus M D node incoming ⟨node, incoming, [], []⟩ := moved_same h incoming
    refine ⟨⟨{ node with waiting := node.waiting ++ [op] }, incoming, [], []⟩,
      by simp only [step, hlocks, if_true, pure_eq_ok],
      ⟨h.broker, h.escaper, h.index_le, List.forall_mem_append.mpr ⟨h.waiting, ?_⟩⟩,
      hmoved.outward, hmoved.inward, hmoved.sound⟩
    exact List.forall_mem_singleton.mpr hop
  cases op with
  | deliverRequest request => exact hwait rfl
  | receivePacket other packet => exact hwait rfl
  | registerErrorCallback callback =>
      exact h.registerErrorCallback incoming callback

/-- What a node without one of the calls that wait does, it does with it. -/
theorem Ready.eraseIdx (h : node.Ready M D) (i : Nat) :
    ({ node with waiting := node.waiting.eraseIdx i } : Node spec).Ready M D :=
  ⟨h.broker, h.escaper, h.index_le, fun op hop => h.waiting op (List.mem_of_mem_eraseIdx hop)⟩

/-- A thread that waits gets the lock, or goes on waiting. -/
theorem Ready.enter (h : node.Ready M D) (hbuiltIn : spec.BuiltIn) (incoming : List UInt8)
    (i : Nat) :
    (∃ result, step spec bus node incoming (.enter i) = .ok result ∧
      Moved bus M D node incoming result) ∨
    ∃ fault, step spec bus node incoming (.enter i) = .error fault ∧
      node.StopsEntered (.enter i) fault := by
  cases hfree : node.sending with
  | some sending => exact .inl ⟨_, by simp only [step, hfree, pure_eq_ok], moved_same h incoming⟩
  | none =>
      cases hop : node.waiting[i]? with
      | none =>
          exact .inl ⟨_, by simp only [step, hfree, hop, pure_eq_ok], moved_same h incoming⟩
      | some op =>
          have hstep : step spec bus node incoming (.enter i) =
              ({ node with waiting := node.waiting.eraseIdx i } : Node spec).carryOut bus incoming
                op := by
            simp only [step, hfree, hop]
          rw [hstep]
          obtain ⟨result, hcarry, hmoved⟩ | ⟨fault, hcarry, hstops⟩ :=
            (h.eraseIdx i).carryOut hfree hbuiltIn incoming op
              (h.waiting op (List.mem_of_getElem? hop))
          · exact .inl ⟨result, hcarry, hmoved.ready, hmoved.outward, hmoved.inward, hmoved.sound⟩
          · exact .inr ⟨fault, hcarry, i, op, rfl, hop, hstops⟩

/-- A call of `Escaper_encode_packet` by the send function sends the next piece
of what is pending; the send function returns when there is nothing left. -/
theorem Ready.step_encode (bus : spec.Bus) (h : node.Ready M D) (hM : 2 ≤ M) (incoming : List UInt8)
    (hsending : node.sending = some (packet, index)) :
    ∃ escaper' index', step spec bus node incoming .encode =
        .ok ⟨{ node with
            escaper := escaper'
            sending := if node.pending = [] then none else some (packet, index') }, incoming,
          node.pending.take M, []⟩ ∧
      Sized M D escaper' ∧ SameDecoder node.escaper escaper' ∧ index' ≤ packet.length ∧
      Escaper.pending packet (escaper', index') = node.pending.drop M := by
  have hpending : node.pending = Escaper.pending packet (node.escaper, index) := by
    rw [pending, hsending]
  obtain ⟨⟨escaper', index'⟩, hcall, hinv, hrest⟩ := encodeAndSend_emits hM packet
    (node.escaper, index) ⟨h.escaper.maxSize, h.escaper.length_buffer,
      h.index_le packet index hsending⟩
  have hsame : SameDecoder node.escaper escaper' := sameDecoder_encodeAndSend packet _ _ hcall
  rw [← hpending] at hcall hrest
  refine ⟨escaper', index', ?_, ⟨hinv.maxSize, hinv.length_buffer,
    decoderInv_of_sameDecoder hsame h.escaper.decoder⟩, hsame, hinv.index_le, hrest⟩
  simp only [step, hsending, hcall, ok_bind, pure_eq_ok]
  by_cases hnil : node.pending = []
  · simp only [hnil, List.take_nil, List.length_nil, if_true]
  · have hpos : (node.pending.take M).length ≠ 0 := by
      have hlength := List.length_pos_iff.mpr hnil
      rw [List.length_take]
      omega
    simp only [if_neg hpos, if_neg hnil]

/-- What such a call does to the line. -/
theorem Ready.encode (h : node.Ready M D) (hM : 2 ≤ M) (incoming : List UInt8) :
    ∃ result, step spec bus node incoming .encode = .ok result ∧
      Moved bus M D node incoming result := by
  cases hsending : node.sending with
  | none => exact ⟨_, by simp only [step, hsending, pure_eq_ok], moved_same h incoming⟩
  | some sending =>
      obtain ⟨packet, index⟩ := sending
      obtain ⟨escaper', index', hstep, hsized, hsame, hindex, hrest⟩ :=
        h.step_encode bus hM incoming hsending
      refine ⟨_, hstep, ⟨h.broker, hsized, fun packet' index'' hsome => ?_, h.waiting⟩,
        fun line reader => ?_, fun pending => ?_, fun _ h => absurd h List.not_mem_nil⟩
      · by_cases hnil : node.pending = []
        · rw [if_pos hnil] at hsome
          contradiction
        · rw [if_neg hnil, Option.some.injEq, Prod.mk.injEq] at hsome
          obtain ⟨rfl, rfl⟩ := hsome
          exact hindex
      · by_cases hnil : node.pending = []
        · simp only [hnil, if_true, List.take_nil, List.append_nil, List.flatMap_nil]
          exact Channel.Step.stay _
        · have hwrite := Channel.Step.write (A := alphabet) (node.pending.take M)
            (node.pending.drop M) line reader
          rw [List.take_append_drop, ← hrest] at hwrite
          simp only [if_neg hnil]
          exact hwrite
      · simp only [abs_of_sameDecoder hsame]
        exact Channel.Step.stay _

/-- A byte completes at most one packet. -/
theorem step_output_cases (A : Alphabet UInt8) (r : Receiver UInt8 D) (byte : UInt8) :
    (Receiver.step A r byte).2 = [] ∨ (Receiver.step A r byte).2 = [r.kept] := by
  obtain ⟨phase, kept, hk⟩ := r
  cases phase with
  | idle =>
      refine .inl ?_
      simp only [Receiver.step]
      split <;> rfl
  | collecting =>
      simp only [Receiver.step]
      split
      · exact .inr rfl
      · refine .inl ?_
        split
        · rfl
        · split <;> rfl
  | escaped => exact .inl rfl

/-- A byte from the line. -/
theorem Ready.arrive (h : node.Ready M D) (hbuiltIn : spec.BuiltIn) (hD : D < 2 ^ spec.sizeBits)
    (incoming : List UInt8) :
    (∃ result, step spec bus node incoming .arrive = .ok result ∧
      Moved bus M D node incoming result) ∨
    ∃ fault, step spec bus node incoming .arrive = .error fault ∧
      Stops bus D node incoming .arrive fault := by
  cases incoming with
  | nil => exact .inl ⟨_, rfl, moved_same h []⟩
  | cons byte rest =>
      obtain ⟨escaper', hdecode, hinv, habs⟩ :=
        decodeByte_simulates D bus node.escaper byte h.escaper.decoder
      have hout : ((receiveCalls D bus).step (Escaper.abs D node.escaper) byte).2 =
          (Receiver.step alphabet (Escaper.abs D node.escaper) byte).2.map (ReceiveCall.mk bus) :=
        rfl
      have habs' : Escaper.abs D escaper' =
          (Receiver.step alphabet (Escaper.abs D node.escaper) byte).1 := habs
      rw [hout] at hdecode
      have hsame : escaper'.encoderHalf = node.escaper.encoderHalf :=
        (onRight_decodeByte bus).left_eq hdecode
      obtain ⟨-, -, -, hbuffer, hmax⟩ := EncoderHalf.mk.inj hsame
      -- what the node is after the byte, whatever was received
      have hready : ({ node with escaper := escaper' } : Node spec).Ready M D :=
        ⟨h.broker, ⟨hmax.trans h.escaper.maxSize,
          (congrArg List.length hbuffer).trans h.escaper.length_buffer, hinv⟩, h.index_le,
          h.waiting⟩
      have hpending : ({ node with escaper := escaper' } : Node spec).pending = node.pending := by
        simp only [pending]
        cases node.sending with
        | none => rfl
        | some sending => exact pending_of_encoderHalf_eq hsame sending.1 sending.2
      have hread (pending : List UInt8) := Channel.Step.read (A := alphabet) byte pending rest
        (Escaper.abs D node.escaper)
      rw [← habs'] at hread
      simp only [step, hdecode, ok_bind]
      by_cases hwait : node.sending.isSome ∧
          (Receiver.step alphabet (Escaper.abs D node.escaper) byte).2.map (ReceiveCall.mk bus) ≠ []
      · exact .inl ⟨_, if_pos hwait, moved_same h _⟩
      · simp only [if_neg hwait]
        obtain hnone | hone := step_output_cases alphabet (Escaper.abs D node.escaper) byte
        · simp only [hnone] at hread ⊢
          refine .inl ⟨_, rfl, hready, fun line reader => ?_, hread,
            fun _ h => absurd h List.not_mem_nil⟩
          simp only [hpending, List.append_nil, List.flatMap_nil]
          exact Channel.Step.stay _
        · have hlength : (Escaper.abs D node.escaper).kept.length < 2 ^ spec.sizeBits :=
            Nat.lt_of_le_of_lt (Escaper.abs D node.escaper).kept_le hD
          simp only [hone] at hread
          obtain ⟨calls, hreceive, -⟩ | ⟨fault, hreceive, hstops⟩ :=
            receivePacket_or_stops hbuiltIn node.broker bus hlength
          · refine .inl ⟨⟨{ node with escaper := escaper' }, rest, [],
              [.arrived node.broker (Escaper.abs D node.escaper).kept calls]⟩, ?_, hready,
              fun line reader => ?_, hread, fun event hevent => ?_⟩
            · simp only [hone, List.map_cons, List.map_nil, Transducer.runCall, receive, hreceive,
                ok_bind, pure_eq_ok, List.append_nil]
            · simp only [hpending, List.append_nil, List.flatMap_cons, List.flatMap_nil,
                NodeEvent.sentOver]
              exact Channel.Step.stay _
            · rw [List.mem_singleton] at hevent
              subst hevent
              exact hreceive
          · refine .inr ⟨fault, ?_, .inr ⟨byte, rest, _, rfl, rfl, ?_, hstops⟩⟩
            · simp only [hone, List.map_cons, List.map_nil, Transducer.runCall, receive, hreceive,
                error_bind]
            · rw [hone]
              exact List.mem_singleton_self _

/-- **Moves**: what a move can do. -/
theorem Ready.step (bus : spec.Bus) (h : node.Ready M D) (hM : 2 ≤ M) (hbuiltIn : spec.BuiltIn)
    (hD : D < 2 ^ spec.sizeBits) (incoming : List UInt8) (move : NodeMove spec)
    (hmove : move.Admitted) :
    (∃ result, Node.step spec bus node incoming move = .ok result ∧
      Moved bus M D node incoming result) ∨
    ∃ fault, Node.step spec bus node incoming move = .error fault ∧
      Stops bus D node incoming move fault := by
  cases move with
  | call op => exact .inl (h.call incoming op (List.forall_mem_singleton.mp hmove))
  | enter i =>
      exact (h.enter hbuiltIn incoming i).imp_right fun ⟨fault, hstep, hstops⟩ =>
        ⟨fault, hstep, .inl hstops⟩
  | encode => exact .inl (h.encode hM incoming)
  | arrive => exact h.arrive hbuiltIn hD incoming

end Node

end TasteRuntime
