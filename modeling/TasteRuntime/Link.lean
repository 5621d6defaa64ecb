import Mathlib.Data.List.Forall2
import Mathlib.Data.List.Infix
import TasteRuntime.Link.Node

/-!
# TasteRuntime.Link

Two partitions and the serial line between them, in both directions at once:
any calls of either broker, each waiting for the lock as long as it must, the
sending loops of both drivers call by call, the arrival of single bytes, and
noise between frames, in any order.

Whatever the order, what was delivered over the line is at any time a front of
the requests that got the lock, and all of it once the line has been read; a
call that was made got the lock or waits for it (`deliveries_link`).
-/

namespace TasteRuntime

open CMemory Stuffing Escaper

/-- Two nodes and the bytes on their way between them. -/
structure Link (S R : SystemSpec) where
  left : Node S
  right : Node R
  toRight : List UInt8
  toLeft : List UInt8

/-- A move of one of the nodes, or a byte of noise behind what a node sent. -/
inductive LinkMove (S R : SystemSpec) where
  | left (move : NodeMove S)
  | right (move : NodeMove R)
  | noiseToRight (byte : UInt8)
  | noiseToLeft (byte : UInt8)

/-- Operations are called as their callers promise, and noise has no start
byte. -/
def LinkMove.Admitted : LinkMove S R → Prop
  | .left move => move.Admitted
  | .right move => move.Admitted
  | .noiseToRight byte | .noiseToLeft byte => byte ≠ startByte

instance : (move : LinkMove S R) → Decidable move.Admitted
  | .left move => inferInstanceAs (Decidable move.Admitted)
  | .right move => inferInstanceAs (Decidable move.Admitted)
  | .noiseToRight _ | .noiseToLeft _ => inferInstanceAs (Decidable (_ ≠ _))

/-- The calls that a move makes at the left end. -/
def LinkMove.callsLeft : LinkMove S R → List (BrokerOp S)
  | .left move => move.calls
  | _ => []

/-- And at the right end. -/
def LinkMove.callsRight : LinkMove S R → List (BrokerOp R)
  | .right move => move.calls
  | _ => []

/-- A request over the line suits the other end, and its packet fits the decode
buffer there. -/
def BrokerOp.Suits {S R : SystemSpec} (bus : S.Bus) (farBus : R.Bus) (decodeSize : Nat) :
    BrokerOp S → Prop
  | .deliverRequest request =>
      request.bus = bus → request.Suits R farBus ∧ request.data.length + 12 ≤ decodeSize
  | _ => True

instance {S R : SystemSpec} (bus : S.Bus) (farBus : R.Bus) (decodeSize : Nat) :
    (op : BrokerOp S) → Decidable (op.Suits bus farBus decodeSize)
  | .deliverRequest _ => inferInstanceAs (Decidable (_ → _))
  | .receivePacket _ _ | .registerErrorCallback _ => inferInstanceAs (Decidable True)

/-- The sizes of the encode and decode buffers of the two drivers. -/
structure Link.Sizes where
  encodeL : Nat
  decodeL : Nat
  encodeR : Nat
  decodeR : Nat

/-- What a move requests over the line suits the end it is for. -/
structure LinkMove.Suits {S R : SystemSpec} (busL : S.Bus) (busR : R.Bus) (sizes : Link.Sizes)
    (move : LinkMove S R) : Prop where
  left : ∀ op ∈ move.callsLeft, op.Suits busL busR sizes.decodeR
  right : ∀ op ∈ move.callsRight, op.Suits busR busL sizes.decodeL

instance {S R : SystemSpec} (busL : S.Bus) (busR : R.Bus) (sizes : Link.Sizes)
    (move : LinkMove S R) : Decidable (move.Suits busL busR sizes) :=
  decidable_of_iff ((∀ op ∈ move.callsLeft, op.Suits busL busR sizes.decodeR) ∧
      ∀ op ∈ move.callsRight, op.Suits busR busL sizes.decodeL)
    ⟨fun ⟨hleft, hright⟩ => ⟨hleft, hright⟩, fun ⟨hleft, hright⟩ => ⟨hleft, hright⟩⟩

namespace Link

variable {S R : SystemSpec}

/-- What the left node did, and the right one. -/
abbrev Event (S R : SystemSpec) := NodeEvent S ⊕ NodeEvent R

/-- One move; noise waits for the end of a frame. -/
def step (busL : S.Bus) (busR : R.Bus) (link : Link S R) :
    LinkMove S R → Exec (Link S R × List (Event S R))
  | .left move => do
      let result ← Node.step S busL link.left link.toLeft move
      pure ({ link with
          left := result.node
          toLeft := result.incoming
          toRight := link.toRight ++ result.sent }, result.events.map .inl)
  | .right move => do
      let result ← Node.step R busR link.right link.toRight move
      pure ({ link with
          right := result.node
          toRight := result.incoming
          toLeft := link.toLeft ++ result.sent }, result.events.map .inr)
  | .noiseToRight byte =>
      if link.left.sending.isSome then pure (link, [])
      else pure ({ link with toRight := link.toRight ++ [byte] }, [])
  | .noiseToLeft byte =>
      if link.right.sending.isSome then pure (link, [])
      else pure ({ link with toLeft := link.toLeft ++ [byte] }, [])

/-- A run: one move after the other, until one does not return. -/
def run (busL : S.Bus) (busR : R.Bus) (link : Link S R) (moves : List (LinkMove S R)) :
    Exec (Link S R × List (Event S R)) :=
  Transducer.runCall (step busL busR) link moves

/-! ## no call is lost -/

/-- The calls made at the left end, in order. -/
def callsLeft (moves : List (LinkMove S R)) : List (BrokerOp S) :=
  moves.flatMap LinkMove.callsLeft

/-- And at the right end. -/
def callsRight (moves : List (LinkMove S R)) : List (BrokerOp R) :=
  moves.flatMap LinkMove.callsRight

/-- What waited at first and what was called since was carried out once, or
waits. -/
structure Kept (start : Link S R) (moves : List (LinkMove S R)) (link : Link S R)
    (events : List (Event S R)) : Prop where
  left : (start.left.waiting ++ callsLeft moves).Perm
    (Node.carriedOut (Halves.lefts events) ++ link.left.waiting)
  right : (start.right.waiting ++ callsRight moves).Perm
    (Node.carriedOut (Halves.rights events) ++ link.right.waiting)

/-- **Step**: no move drops a call. -/
theorem kept_step (busL : S.Bus) (busR : R.Bus) (link : Link S R) (move : LinkMove S R) :
    Ensures (step busL busR link move) fun r => Kept link [move] r.1 r.2 := by
  have hcalls (move : NodeMove S) : callsLeft [(.left move : LinkMove S R)] = move.calls :=
    List.append_nil _
  have hcalls' (move : NodeMove R) : callsRight [(.right move : LinkMove S R)] = move.calls :=
    List.append_nil _
  cases move with
  | left move =>
      refine (Node.kept_step busL link.left link.toLeft move).bind fun result h =>
        ensures_ok ⟨?_, ?_⟩
      · rw [hcalls, Halves.lefts_map_inl]
        exact h
      · rw [Halves.rights_map_inl]
        exact .of_eq (List.append_nil _)
  | right move =>
      refine (Node.kept_step busR link.right link.toRight move).bind fun result h =>
        ensures_ok ⟨?_, ?_⟩
      · rw [Halves.lefts_map_inr]
        exact .of_eq (List.append_nil _)
      · rw [hcalls', Halves.rights_map_inr]
        exact h
  | noiseToRight byte =>
      rw [step]
      split <;> exact ensures_ok ⟨.of_eq (List.append_nil _), .of_eq (List.append_nil _)⟩
  | noiseToLeft byte =>
      rw [step]
      split <;> exact ensures_ok ⟨.of_eq (List.append_nil _), .of_eq (List.append_nil _)⟩

/-- What holds of the calls that wait and of those that are made holds of those
that are carried out and of those that wait then. -/
theorem forall_of_perm {P : α → Prop} {waiting calls done waiting' : List α}
    (h : (waiting ++ calls).Perm (done ++ waiting')) (hwaiting : ∀ op ∈ waiting, P op)
    (hcalls : ∀ op ∈ calls, P op) : (∀ op ∈ done, P op) ∧ ∀ op ∈ waiting', P op :=
  List.forall_mem_append.mp fun op hop =>
    List.forall_mem_append.mpr ⟨hwaiting, hcalls⟩ op (h.mem_iff.mpr hop)

/-! ## the two directions -/

/-- The line to the right as a channel. -/
def rightward (D : Nat) (link : Link S R) : Channel UInt8 D :=
  ⟨link.left.pending, link.toRight, Escaper.abs D link.right.escaper⟩

/-- The line to the left. -/
def leftward (D : Nat) (link : Link S R) : Channel UInt8 D :=
  ⟨link.right.pending, link.toLeft, Escaper.abs D link.left.escaper⟩

/-- Both nodes are ready, with room for two bytes in their encode buffers. -/
structure Ready (sizes : Sizes) (link : Link S R) : Prop where
  left : link.left.Ready sizes.encodeL sizes.decodeL
  right : link.right.Ready sizes.encodeR sizes.decodeR
  encodeL : 2 ≤ sizes.encodeL
  encodeR : 2 ≤ sizes.encodeR
  decodeL : sizes.decodeL < 2 ^ S.sizeBits
  decodeR : sizes.decodeR < 2 ^ R.sizeBits

/-- A move does not return only where a move of a node does not. -/
def Stops (busL : S.Bus) (busR : R.Bus) (sizes : Sizes) (link : Link S R) (move : LinkMove S R)
    (fault : Fault) : Prop :=
  (∃ m, move = .left m ∧ link.left.Stops busL sizes.decodeL link.toLeft m fault) ∨
    ∃ m, move = .right m ∧ link.right.Stops busR sizes.decodeR link.toRight m fault

/-- What a move did: one step of each channel. -/
structure Moved (busL : S.Bus) (busR : R.Bus) (sizes : Sizes) (link link' : Link S R)
    (events : List (Event S R)) : Prop where
  ready : link'.Ready sizes
  rightward : Channel.Step alphabet (link.rightward sizes.decodeR)
    ((Halves.lefts events).flatMap (NodeEvent.sentOver busL))
    ((Halves.rights events).filterMap NodeEvent.received) (link'.rightward sizes.decodeR)
  leftward : Channel.Step alphabet (link.leftward sizes.decodeL)
    ((Halves.rights events).flatMap (NodeEvent.sentOver busR))
    ((Halves.lefts events).filterMap NodeEvent.received) (link'.leftward sizes.decodeL)
  soundL : ∀ event ∈ Halves.lefts events, event.Sound busL
  soundR : ∀ event ∈ Halves.rights events, event.Sound busR

variable {busL : S.Bus} {busR : R.Bus} {sizes : Sizes} {link : Link S R}

/-- A move in which no node takes part. -/
theorem moved_line (h : link.Ready sizes) (toRight toLeft : List UInt8)
    (hright : Channel.Step alphabet (link.rightward sizes.decodeR) [] []
      ⟨link.left.pending, toRight, Escaper.abs sizes.decodeR link.right.escaper⟩)
    (hleft : Channel.Step alphabet (link.leftward sizes.decodeL) [] []
      ⟨link.right.pending, toLeft, Escaper.abs sizes.decodeL link.left.escaper⟩) :
    Moved busL busR sizes link { link with toRight := toRight, toLeft := toLeft } [] where
  ready := ⟨h.left, h.right, h.encodeL, h.encodeR, h.decodeL, h.decodeR⟩
  rightward := hright
  leftward := hleft
  soundL _ h := absurd h List.not_mem_nil
  soundR _ h := absurd h List.not_mem_nil

/-- Noise gets onto a line that is between frames. -/
theorem noise_step (D : Nat) {node : Node S} (hfree : node.sending = none) (line : List UInt8)
    (reader : Receiver UInt8 D) (hbyte : byte ≠ startByte) :
    Channel.Step alphabet ⟨node.pending, line, reader⟩ [] []
      ⟨node.pending, line ++ [byte], reader⟩ := by
  rw [Node.pending, hfree]
  exact Channel.Step.noise byte line reader hbyte

/-- **Moves**: what a move of the link can do. -/
theorem Ready.step (busL : S.Bus) (busR : R.Bus) (h : link.Ready sizes) (hS : S.BuiltIn)
    (hR : R.BuiltIn) (move : LinkMove S R) (hmove : move.Admitted) :
    (∃ link' events, Link.step busL busR link move = .ok (link', events) ∧
      Moved busL busR sizes link link' events) ∨
    ∃ fault, Link.step busL busR link move = .error fault ∧
      Stops busL busR sizes link move fault := by
  cases move with
  | left m =>
      obtain ⟨result, hstep, hmoved⟩ | ⟨fault, hstep, hstops⟩ :=
        h.left.step busL h.encodeL hS h.decodeL link.toLeft m hmove
      · refine .inl ⟨{ link with
            left := result.node
            toLeft := result.incoming
            toRight := link.toRight ++ result.sent }, result.events.map .inl,
          by simp only [Link.step, hstep, ok_bind, pure_eq_ok],
          ⟨hmoved.ready, h.right, h.encodeL, h.encodeR, h.decodeL, h.decodeR⟩, ?_, ?_, ?_, ?_⟩
        all_goals simp only [Halves.lefts_map_inl, Halves.rights_map_inl]
        · exact hmoved.outward link.toRight _
        · exact hmoved.inward link.right.pending
        · exact hmoved.sound
        · exact fun _ h => absurd h List.not_mem_nil
      · exact .inr ⟨fault, by simp only [Link.step, hstep, error_bind], .inl ⟨m, rfl, hstops⟩⟩
  | right m =>
      obtain ⟨result, hstep, hmoved⟩ | ⟨fault, hstep, hstops⟩ :=
        h.right.step busR h.encodeR hR h.decodeR link.toRight m hmove
      · refine .inl ⟨{ link with
            right := result.node
            toRight := result.incoming
            toLeft := link.toLeft ++ result.sent }, result.events.map .inr,
          by simp only [Link.step, hstep, ok_bind, pure_eq_ok],
          ⟨h.left, hmoved.ready, h.encodeL, h.encodeR, h.decodeL, h.decodeR⟩, ?_, ?_, ?_, ?_⟩
        all_goals simp only [Halves.lefts_map_inr, Halves.rights_map_inr]
        · exact hmoved.inward link.left.pending
        · exact hmoved.outward link.toLeft _
        · exact fun _ h => absurd h List.not_mem_nil
        · exact hmoved.sound
      · exact .inr ⟨fault, by simp only [Link.step, hstep, error_bind], .inr ⟨m, rfl, hstops⟩⟩
  | noiseToRight byte =>
      cases hsending : link.left.sending with
      | some sending =>
          exact .inl ⟨link, [], by simp only [Link.step, hsending]; rfl,
            moved_line h link.toRight link.toLeft (.stay _) (.stay _)⟩
      | none =>
          exact .inl ⟨_, [], by simp only [Link.step, hsending]; rfl,
            moved_line h (link.toRight ++ [byte]) link.toLeft
              (noise_step _ hsending _ _ hmove) (.stay _)⟩
  | noiseToLeft byte =>
      cases hsending : link.right.sending with
      | some sending =>
          exact .inl ⟨link, [], by simp only [Link.step, hsending]; rfl,
            moved_line h link.toRight link.toLeft (.stay _) (.stay _)⟩
      | none =>
          exact .inl ⟨_, [], by simp only [Link.step, hsending]; rfl,
            moved_line h link.toRight (link.toLeft ++ [byte]) (.stay _)
              (noise_step _ hsending _ _ hmove)⟩

/-! ## one direction -/

/-- The requests a node made over a bus. -/
def requestsOver (bus : S.Bus) (events : List (NodeEvent S)) : List (Request S) :=
  events.filterMap (NodeEvent.requestOver bus)

theorem requestsOver_eq (bus : S.Bus) (events : List (NodeEvent S)) :
    requestsOver bus events = Broker.requestsOn bus (Node.carriedOut events) := by
  rw [Broker.requestsOn, Node.carriedOut, List.filterMap_filterMap]
  refine List.filterMap_congr fun event _ => ?_
  cases event <;> rfl

/-- The packets a node took from its line. -/
def received (events : List (NodeEvent S)) : List (List UInt8) :=
  events.filterMap NodeEvent.received

/-- A direction of the link: `near` is what its sending end did and `far` what
its receiving end did. -/
structure Conveys (bus : S.Bus) (farBus : R.Bus) {D : Nat} (start : Receiver UInt8 D)
    (junk : List (List UInt8)) (near : List (NodeEvent S)) (far : List (NodeEvent R))
    (channel : Channel UInt8 D) : Prop where
  traffic : ∃ consumed, Channel.Traffic alphabet start junk
    (near.flatMap (NodeEvent.sentOver bus)) (received far) channel consumed
  soundNear : ∀ event ∈ near, event.Sound bus
  soundFar : ∀ event ∈ far, event.Sound farBus

/-- The packets a node handed to the send function are those of its requests. -/
theorem forall₂_sentOver {bus : S.Bus} {events : List (NodeEvent S)}
    (hsound : ∀ event ∈ events, event.Sound bus) :
    List.Forall₂ (fun request packet => ∃ count,
      packet = (S.busToPacketizerCfg bus).encode (request.spacePacket count))
      (requestsOver bus events) (events.flatMap (NodeEvent.sentOver bus)) := by
  induction events with
  | nil => exact .nil
  | cons event events ih =>
      obtain ⟨hevent, hevents⟩ := List.forall_mem_cons.mp hsound
      have hrest := ih hevents
      cases event with
      | arrived broker packet calls => exact hrest
      | called op calls =>
          have happend := List.rel_append hevent hrest
          have hsplit : requestsOver bus (.called op calls :: events) =
              Broker.requestsOn bus [op] ++ requestsOver bus events := by
            simp only [requestsOver, Broker.requestsOn, List.filterMap_cons, List.filterMap_nil,
              NodeEvent.requestOver]
            cases op.requestOn bus <;> rfl
          rw [hsplit]
          exact happend

/-- A step of the channel is one of the direction. -/
theorem Conveys.step {bus : S.Bus} {farBus : R.Bus} {D : Nat} {start : Receiver UInt8 D}
    {channel channel' : Channel UInt8 D} (h : Conveys bus farBus start junk near far channel)
    (hstep : Channel.Step alphabet channel (near'.flatMap (NodeEvent.sentOver bus))
      (received far') channel')
    (hnear : ∀ event ∈ near', event.Sound bus) (hfar : ∀ event ∈ far', event.Sound farBus)
    (hfit : ∀ r ∈ requestsOver bus near', r.data.length + 12 ≤ D) :
    Conveys bus farBus start junk (near ++ near') (far ++ far') channel' := by
  obtain ⟨⟨consumed, htraffic⟩, hsoundNear, hsoundFar⟩ := h
  have hroom : ∀ packet ∈ near'.flatMap (NodeEvent.sentOver bus), packet.length ≤ D := by
    intro packet hpacket
    obtain ⟨r, hr, count, rfl⟩ :=
      Broker.exists_mem_of_forall₂ (forall₂_sentOver hnear) packet hpacket
    exact Nat.le_trans (Request.length_encode_le _ _) (hfit r hr)
  obtain ⟨consumed', htraffic'⟩ := htraffic.step hstep hroom
  refine ⟨⟨consumed', ?_⟩, List.forall_mem_append.mpr ⟨hsoundNear, hnear⟩,
    List.forall_mem_append.mpr ⟨hsoundFar, hfar⟩⟩
  rw [List.flatMap_append, received, List.filterMap_append]
  exact htraffic'

/-- The packet of a request that suits the receiving end names an interface. -/
theorem not_stopsOutside {bus : S.Bus} {farBus : R.Bus}
    (hformat : (S.busToPacketizerCfg bus).canonical = (R.busToPacketizerCfg farBus).canonical)
    {request : Request S} (h : request.Suits R farBus) (count : Nat) :
    ¬ Broker.StopsOutside (.receivePacket farBus
      ((S.busToPacketizerCfg bus).encode (request.spacePacket count))) fault := by
  rintro ⟨other, packet, hop, -, hdest, -⟩
  obtain ⟨rfl, rfl⟩ := BrokerOp.receivePacket.inj hop
  have hinterface : (request.spacePacket count).destination.val = request.interface.val :=
    Nat.mod_eq_of_lt (Nat.lt_succ_of_le h.interface_le)
  rw [PacketizerCfg.encode_eq_of_canonical_eq hformat, SystemSpec.destination_fields_encode
    (h.carries count) (by rw [hinterface]; exact h.destination_lt_word), hinterface] at hdest
  exact absurd h.destination_lt (Nat.not_lt.mpr hdest)

/-- Neither line has been used, no thread waits, and both decoders wait for a
frame. -/
structure Started (sizes : Sizes) (link : Link S R) : Prop where
  ready : link.Ready sizes
  leftFree : link.left.sending = none
  rightFree : link.right.sending = none
  leftWaiting : link.left.waiting = []
  rightWaiting : link.right.waiting = []
  toRight : link.toRight = []
  toLeft : link.toLeft = []
  leftIdle : Escaper.abs sizes.decodeL link.left.escaper = Receiver.idle
  rightIdle : Escaper.abs sizes.decodeR link.right.escaper = Receiver.idle

/-- The requests among calls suit the end they are for. -/
theorem suits_of_carriedOut {bus : S.Bus} {farBus : R.Bus} {D : Nat} {events : List (NodeEvent S)}
    (hsuits : ∀ op ∈ Node.carriedOut events, op.Suits bus farBus D) :
    ∀ r ∈ requestsOver bus events, r.Suits R farBus ∧ r.data.length + 12 ≤ D := by
  intro r hr
  rw [requestsOver_eq] at hr
  obtain ⟨op, hop, hrequest⟩ := List.mem_filterMap.mp hr
  obtain ⟨rfl, hbus⟩ := BrokerOp.eq_of_requestOn hrequest
  exact hsuits _ hop hbus

theorem requestsOver_append (bus : S.Bus) (events events' : List (NodeEvent S)) :
    requestsOver bus (events ++ events') = requestsOver bus events ++ requestsOver bus events' :=
  List.filterMap_append

/-- **Step**: a direction whose requests suit its end, those that wait among
them, goes on like that, whatever is called and carried out. -/
theorem Conveys.step_suits {bus : S.Bus} {farBus : R.Bus} {D : Nat} {start : Receiver UInt8 D}
    {channel channel' : Channel UInt8 D} (h : Conveys bus farBus start junk near far channel)
    (hsuits : ∀ r ∈ requestsOver bus near, r.Suits R farBus)
    (hstep : Channel.Step alphabet channel (near'.flatMap (NodeEvent.sentOver bus))
      (received far') channel')
    (hnear : ∀ event ∈ near', event.Sound bus) (hfar : ∀ event ∈ far', event.Sound farBus)
    {waiting waiting' calls : List (BrokerOp S)}
    (hkept : (waiting ++ calls).Perm (Node.carriedOut near' ++ waiting'))
    (hwaiting : ∀ op ∈ waiting, op.Suits bus farBus D)
    (hcalls : ∀ op ∈ calls, op.Suits bus farBus D) :
    Conveys bus farBus start junk (near ++ near') (far ++ far') channel' ∧
      (∀ r ∈ requestsOver bus (near ++ near'), r.Suits R farBus) ∧
      ∀ op ∈ waiting', op.Suits bus farBus D := by
  obtain ⟨hdone, hwaiting'⟩ := forall_of_perm hkept hwaiting hcalls
  have hnew := suits_of_carriedOut hdone
  refine ⟨h.step hstep hnear hfar fun r hr => (hnew r hr).2, ?_, hwaiting'⟩
  rw [requestsOver_append]
  exact List.forall_mem_append.mpr ⟨hsuits, fun r hr => (hnew r hr).1⟩

/-- A packet the decoder takes from a line behind the junk is that of a
request, and names an interface. -/
theorem Conveys.not_stops {bus : S.Bus} {farBus : R.Bus} {D : Nat} {node : Node R}
    {start : Receiver UInt8 D} {pending line : List UInt8}
    (h : Conveys bus farBus start junk near far
      (⟨pending, line, Escaper.abs D node.escaper⟩ : Channel UInt8 D))
    (hformat : (S.busToPacketizerCfg bus).canonical = (R.busToPacketizerCfg farBus).canonical)
    (hsuits : ∀ r ∈ requestsOver bus near, r.Suits R farBus)
    (hbehind : junk.length ≤ (received far).length)
    (hstops : node.Stops farBus D line move fault) : node.StopsEntered move fault := by
  obtain hentered | ⟨byte, rest, packet, -, rfl, hpacket, houtside⟩ := hstops
  · exact hentered
  · obtain ⟨consumed, htraffic⟩ := h.traffic
    obtain ⟨consumed', htraffic'⟩ := htraffic.step
      (Channel.Step.read byte pending rest (Escaper.abs D node.escaper))
      (fun _ h => absurd h List.not_mem_nil)
    have hfront := htraffic'.delivered_prefix
    rw [List.append_nil] at hfront
    -- all of the junk has been received, so what comes now is of a request
    obtain ⟨others, hothers⟩ : junk <+: received far :=
      List.prefix_of_prefix_length_le (List.prefix_append _ _)
        ((List.prefix_append _ _).trans hfront) hbehind
    rw [← hothers, List.append_assoc, List.prefix_append_right_inj] at hfront
    have hmem : packet ∈ near.flatMap (NodeEvent.sentOver bus) :=
      hfront.subset (List.mem_append_right _ hpacket)
    obtain ⟨r, hr, count, rfl⟩ :=
      Broker.exists_mem_of_forall₂ (forall₂_sentOver h.soundNear) packet hmem
    exact absurd houtside (not_stopsOutside hformat (hsuits r hr) count)

/-- After the events of a run: both nodes are ready, and both directions convey
requests that suit their ends, as do those that wait. -/
structure InStep (busL : S.Bus) (busR : R.Bus) (sizes : Sizes) (link : Link S R)
    (events : List (Event S R)) : Prop where
  ready : link.Ready sizes
  rightward : Conveys busL busR Receiver.idle [] (Halves.lefts events) (Halves.rights events)
    (link.rightward sizes.decodeR)
  leftward : Conveys busR busL Receiver.idle [] (Halves.rights events) (Halves.lefts events)
    (link.leftward sizes.decodeL)
  suitsR : ∀ r ∈ requestsOver busL (Halves.lefts events), r.Suits R busR
  suitsL : ∀ r ∈ requestsOver busR (Halves.rights events), r.Suits S busL
  waitingL : ∀ op ∈ link.left.waiting, op.Suits busL busR sizes.decodeR
  waitingR : ∀ op ∈ link.right.waiting, op.Suits busR busL sizes.decodeL

theorem Started.inStep {link : Link S R} (h : link.Started sizes) :
    InStep busL busR sizes link [] := by
  have hright : link.rightward sizes.decodeR = ⟨[], [], Receiver.idle⟩ := by
    simp only [rightward, Node.pending, h.leftFree, h.toRight, h.rightIdle]
  have hleft : link.leftward sizes.decodeL = ⟨[], [], Receiver.idle⟩ := by
    simp only [leftward, Node.pending, h.rightFree, h.toLeft, h.leftIdle]
  refine ⟨h.ready, ⟨⟨[], ?_⟩, fun _ h => absurd h List.not_mem_nil,
    fun _ h => absurd h List.not_mem_nil⟩, ⟨⟨[], ?_⟩, fun _ h => absurd h List.not_mem_nil,
    fun _ h => absurd h List.not_mem_nil⟩, fun _ h => absurd h List.not_mem_nil,
    fun _ h => absurd h List.not_mem_nil, by simp [h.leftWaiting], by simp [h.rightWaiting]⟩
  · rw [hright]
    exact Channel.traffic_empty
  · rw [hleft]
    exact Channel.traffic_empty

/-- The only way a run of a link in step stops: a packet of another bus that
names no interface passes the checks of its format. -/
def StopsElsewhere (link : Link S R) (move : LinkMove S R) (fault : Fault) : Prop :=
  (∃ m, move = .left m ∧ link.left.StopsEntered m fault) ∨
    ∃ m, move = .right m ∧ link.right.StopsEntered m fault

/-- **Step**: a link in step stays in step. -/
theorem InStep.step {link : Link S R} (h : InStep busL busR sizes link events) (hS : S.BuiltIn)
    (hR : R.BuiltIn)
    (hformat : (S.busToPacketizerCfg busL).canonical = (R.busToPacketizerCfg busR).canonical)
    (move : LinkMove S R) (hmove : move.Admitted) (hsuits : move.Suits busL busR sizes) :
    (∃ link' out, Link.step busL busR link move = .ok (link', out) ∧
      InStep busL busR sizes link' (events ++ out)) ∨
    ∃ fault, Link.step busL busR link move = .error fault ∧ StopsElsewhere link move fault := by
  obtain ⟨link', out, hstep, hmoved⟩ | ⟨fault, hstep, hstops⟩ :=
    h.ready.step busL busR hS hR move hmove
  · have hkept : Kept link [move] link' out := kept_step busL busR link move _ hstep
    obtain ⟨hrightward, hsuitsR, hwaitingL⟩ := h.rightward.step_suits h.suitsR hmoved.rightward
      hmoved.soundL hmoved.soundR hkept.left h.waitingL (by simpa [callsLeft] using hsuits.left)
    obtain ⟨hleftward, hsuitsL, hwaitingR⟩ := h.leftward.step_suits h.suitsL hmoved.leftward
      hmoved.soundR hmoved.soundL hkept.right h.waitingR (by simpa [callsRight] using hsuits.right)
    rw [← Halves.lefts_append] at hrightward hleftward hsuitsR
    rw [← Halves.rights_append] at hrightward hleftward hsuitsL
    exact .inl ⟨link', out, hstep, hmoved.ready, hrightward, hleftward, hsuitsR, hsuitsL,
      hwaitingL, hwaitingR⟩
  · refine .inr ⟨fault, hstep, ?_⟩
    obtain ⟨m, rfl, hstops⟩ | ⟨m, rfl, hstops⟩ := hstops
    · exact .inl ⟨m, rfl, h.leftward.not_stops hformat.symm h.suitsL (Nat.zero_le _) hstops⟩
    · exact .inr ⟨m, rfl, h.rightward.not_stops hformat h.suitsR (Nat.zero_le _) hstops⟩

/-- **Run**: and over any moves, until one makes a broker read its table of
deliver functions outside. -/
theorem InStep.run {link : Link S R} (h : InStep busL busR sizes link []) (hS : S.BuiltIn)
    (hR : R.BuiltIn)
    (hformat : (S.busToPacketizerCfg busL).canonical = (R.busToPacketizerCfg busR).canonical)
    (moves : List (LinkMove S R))
    (hmoves : ∀ move ∈ moves, move.Admitted ∧ move.Suits busL busR sizes) :
    ∃ handled rest link' events, moves = handled ++ rest ∧
      Link.run busL busR link handled = .ok (link', events) ∧
      InStep busL busR sizes link' events ∧
      (rest = [] ∨ ∃ move rest' fault, rest = move :: rest' ∧
        Link.step busL busR link' move = .error fault ∧ StopsElsewhere link' move fault) := by
  have hstep (_ : List (LinkMove S R)) (link : Link S R) (events : List (Event S R))
      (move : LinkMove S R) (h : InStep busL busR sizes link events) (hmem : move ∈ moves) :
      (∃ link' out, Link.step busL busR link move = .ok (link', out) ∧
        InStep busL busR sizes link' (events ++ out)) ∨
      ∃ fault, Link.step busL busR link move = .error fault ∧ StopsElsewhere link move fault :=
    h.step hS hR hformat move (hmoves move hmem).1 (hmoves move hmem).2
  exact Transducer.runCall_invariant (Link.step busL busR) moves hstep [] link [] h

end Link

end TasteRuntime
