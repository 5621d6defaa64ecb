import TasteRuntime.Lib.Fair
import TasteRuntime.Link

/-!
# TasteRuntime.Link.Progress

Nothing that was requested over a link stays on the way.  The threads of both
ends, those that wait for the lock, the sending loops and the readers, never
block each other for good: a thread waits for the send function that holds the
lock, a reader for its broker, but the send function waits for nobody.  So any
schedule in which each of them gets its turn again and again carries out all
calls and delivers all requests, in a number of rounds that what is on the way
bounds (`delivered_of_rounds`).
-/

namespace TasteRuntime

open CMemory Stuffing Escaper

/-- What a call that waits still has to do at most: one to get the lock, and for
a request what its frame takes, see `Node.load`. -/
def BrokerOp.load : BrokerOp spec → Nat
  | .deliverRequest request => 4 * (request.data.length + 13) + 2
  | .receivePacket _ _ | .registerErrorCallback _ => 1

/-- The moves of threads that have called, of the send function and of the
reader. -/
def NodeMove.Serves : NodeMove spec → Prop
  | .call _ => False
  | .enter _ | .encode | .arrive => True

theorem NodeMove.Serves.calls_eq {move : NodeMove spec} (h : move.Serves) : move.calls = [] := by
  cases move with
  | call op => exact absurd h id
  | enter i => rfl
  | encode => rfl
  | arrive => rfl

namespace Node

variable {spec : SystemSpec} {bus : spec.Bus} {node : Node spec}

/-- What the calls that wait have to do. -/
def waitingLoad (node : Node spec) : Nat := (node.waiting.map BrokerOp.load).sum

/-- What the threads of a node still have to do.  For the send function it is
two for a byte, which is on the line afterwards, and one for the call that
finds nothing left. -/
def load (node : Node spec) : Nat :=
  2 * node.pending.length + (if node.sending.isSome then 1 else 0) + node.waitingLoad

/-- The same behind a move, with what it sent and what it left on the line. -/
def Result.load (result : Result spec) : Nat :=
  result.node.load + result.sent.length + result.incoming.length

theorem load_of_free (h : node.sending = none) : node.load = node.waitingLoad := by
  simp [load, pending, h]

theorem load_of_sending (h : node.sending = some (packet, index)) :
    node.load = 2 * (Escaper.pending packet (node.escaper, index)).length + 1 +
      node.waitingLoad := by
  simp [load, pending, h]

theorem one_le_load (op : BrokerOp spec) : 1 ≤ op.load := by
  cases op <;> simp [BrokerOp.load]

/-- The moves each of which occurs in a round. -/
def services : List (NodeMove spec) := [.encode, .arrive, .enter 0]

/-- A call of the send function, while there is a packet, has less to do
afterwards. -/
theorem Ready.load_encode (h : node.Ready M D) (hM : 2 ≤ M) (incoming : List UInt8)
    (hsending : node.sending = some (packet, index))
    (hstep : Node.step spec bus node incoming .encode = .ok result) :
    result.load < node.load + incoming.length := by
  obtain ⟨escaper', index', hencode, -, -, -, hrest⟩ :=
    h.step_encode bus hM incoming hsending
  obtain rfl := Except.ok.inj (hstep.symm.trans hencode)
  have hpending : node.pending = Escaper.pending packet (node.escaper, index) := by
    rw [pending, hsending]
  have hload := load_of_sending hsending
  rw [← hpending] at hload
  simp only [Result.load, List.length_take]
  by_cases hnil : node.pending = []
  · rw [load_of_free (if_pos hnil), hload, hnil]
    simp [waitingLoad]
  · have hpos := List.length_pos_iff.mpr hnil
    rw [load_of_sending (if_neg hnil), hload, hrest, List.length_drop]
    simp only [waitingLoad]
    omega

/-- A byte is taken from the line, or the reader waits. -/
theorem load_arrive (h : step spec bus node incoming .arrive = .ok result) :
    result = ⟨node, incoming, [], []⟩ ∧ (node.sending.isSome ∨ incoming = []) ∨
      result.load < node.load + incoming.length := by
  cases incoming with
  | nil => exact .inl ⟨(Except.ok.inj h).symm, .inr rfl⟩
  | cons byte rest =>
      cases hdecode : decodeByte bus node.escaper byte with
      | error fault =>
          simp only [step, hdecode, error_bind] at h
          contradiction
      | ok r =>
          obtain ⟨escaper', received⟩ := r
          simp only [step, hdecode, ok_bind] at h
          by_cases hwait : node.sending.isSome ∧ received ≠ []
          · rw [if_pos hwait] at h
            exact .inl ⟨(Except.ok.inj h).symm, .inl hwait.1⟩
          · rw [if_neg hwait] at h
            cases hreceive : Transducer.runCall (receive spec) node.broker received with
            | error fault =>
                simp only [hreceive, error_bind] at h
                contradiction
            | ok r =>
                simp only [hreceive, ok_bind, pure_eq_ok, Except.ok.injEq] at h
                subst h
                -- the encoder's half, and with it the load, is the same
                have hsame : escaper'.encoderHalf = node.escaper.encoderHalf :=
                  (onRight_decodeByte bus).left_eq hdecode
                have hload : ({ node with broker := r.1, escaper := escaper' } : Node spec).load =
                    node.load := by
                  simp only [load, pending, waitingLoad]
                  cases node.sending with
                  | none => rfl
                  | some sending =>
                      simp only [pending_of_encoderHalf_eq hsame sending.1 sending.2]
                refine .inr ?_
                simp only [Result.load, hload, List.length_nil, List.length_cons]
                omega

/-- The packets that a call hands to the send function are accounted for. -/
theorem length_le_load (h : (NodeEvent.called op calls).Sound bus)
    (hpacket : packet ∈ Broker.sentOn bus calls) : 4 * packet.length + 6 ≤ op.load := by
  obtain ⟨request, hrequest, count, rfl⟩ := Broker.exists_mem_of_forall₂ h packet hpacket
  obtain ⟨op', hop', hrequestOn⟩ := List.mem_filterMap.mp hrequest
  obtain rfl := List.mem_singleton.mp hop'
  obtain ⟨rfl, -⟩ := BrokerOp.eq_of_requestOn hrequestOn
  have hlength := Request.length_encode_le (spec.busToPacketizerCfg bus)
    (request.spacePacket count)
  rw [Request.spacePacket_data] at hlength
  simp only [BrokerOp.load]
  omega

/-- What a call does once it has the lock is less than what it had to do. -/
theorem load_carryOut (hfree : node.sending = none)
    (hcarry : node.carryOut bus incoming op = .ok result)
    (hsound : ∀ event ∈ result.events, event.Sound bus) :
    result.load < op.load + node.waitingLoad + incoming.length := by
  cases hop : Broker.step spec node.broker op with
  | error fault =>
      simp only [carryOut, hop, error_bind] at hcarry
      contradiction
  | ok r =>
      obtain ⟨broker, calls⟩ := r
      simp only [carryOut, hop, ok_bind, pure_eq_ok, Except.ok.injEq] at hcarry
      subst hcarry
      have hpos := one_le_load op
      have hcalled : (NodeEvent.called op calls).Sound bus := hsound _ (List.mem_singleton_self _)
      cases hsent : Broker.sentOn bus calls with
      | nil =>
          have hload : ({ node with broker := broker } : Node spec).load = node.waitingLoad :=
            load_of_free hfree
          simp only [Result.load, startSending, hload, List.length_nil]
          omega
      | cons packet packets =>
          have hpacket : 4 * packet.length + 6 ≤ op.load :=
            length_le_load hcalled (by rw [hsent]; exact List.mem_cons_self)
          have hframe := alphabet.length_frame_le packet
          have hload : (({ node with broker := broker } : Node spec).startSending
              (packet :: packets)).load = 2 * (alphabet.frame packet).length + 1 +
                node.waitingLoad := by
            have hpending : (({ node with broker := broker } : Node spec).startSending
                (packet :: packets)).pending = alphabet.frame packet :=
              pending_startEncoder node.escaper packet
            rw [load, hpending]
            rfl
          simp only [Result.load, hload, List.length_nil]
          omega

/-- A thread gets the lock, or goes on waiting. -/
theorem Ready.load_enter (h : node.Ready M D) (hbuiltIn : spec.BuiltIn)
    (hstep : Node.step spec bus node incoming (.enter i) = .ok result) :
    result = ⟨node, incoming, [], []⟩ ∧ (node.sending.isSome ∨ node.waiting[i]? = none) ∨
      result.load < node.load + incoming.length := by
  cases hfree : node.sending with
  | some sending =>
      simp only [Node.step, hfree, pure_eq_ok, Except.ok.injEq] at hstep
      exact .inl ⟨hstep.symm, .inl rfl⟩
  | none =>
      cases hop : node.waiting[i]? with
      | none =>
          simp only [Node.step, hfree, hop, pure_eq_ok, Except.ok.injEq] at hstep
          exact .inl ⟨hstep.symm, .inr rfl⟩
      | some op =>
          obtain ⟨hi, hget⟩ := List.getElem?_eq_some_iff.mp hop
          have hsum : node.waitingLoad = op.load +
              ({ node with waiting := node.waiting.eraseIdx i } : Node spec).waitingLoad := by
            have hperm := (List.getElem_cons_eraseIdx_perm hi).map BrokerOp.load
            rw [hget, List.map_cons] at hperm
            simpa only [waitingLoad, List.sum_cons] using hperm.sum_eq.symm
          have hsound : ∀ event ∈ result.events, event.Sound bus := by
            obtain ⟨result', hstep', hmoved⟩ | ⟨fault, hstep', -⟩ :=
              h.enter hbuiltIn incoming i
            · obtain rfl := Except.ok.inj (hstep.symm.trans hstep')
              exact hmoved.sound
            · rw [hstep] at hstep'
              contradiction
          have hcarry : ({ node with waiting := node.waiting.eraseIdx i } : Node spec).carryOut bus
              incoming op = .ok result := by
            rw [← hstep]
            simp only [Node.step, hfree, hop]
          refine .inr ?_
          rw [load_of_free hfree, hsum]
          exact load_carryOut hfree hcarry hsound

/-- A service move leaves all alone, or less is on the way behind it. -/
theorem Ready.load_serves (h : node.Ready M D) (hM : 2 ≤ M) (hbuiltIn : spec.BuiltIn)
    (incoming : List UInt8) (hmove : move.Serves)
    (hstep : Node.step spec bus node incoming move = .ok result) :
    result = ⟨node, incoming, [], []⟩ ∨ result.load < node.load + incoming.length := by
  cases move with
  | call op => exact absurd hmove id
  | enter i => exact (h.load_enter hbuiltIn hstep).imp_left And.left
  | encode =>
      cases hsending : node.sending with
      | none =>
          simp only [Node.step, hsending, pure_eq_ok, Except.ok.injEq] at hstep
          exact .inl hstep.symm
      | some sending => exact .inr (h.load_encode hM incoming hsending hstep)
  | arrive => exact (load_arrive hstep).imp_left And.left

end Node

namespace Link

variable {S R : SystemSpec} {busL : S.Bus} {busR : R.Bus} {sizes : Sizes} {link : Link S R}

/-- All that is on the way between two nodes. -/
def load (link : Link S R) : Nat :=
  (link.left.load + link.toLeft.length) + (link.right.load + link.toRight.length)

/-- The moves of the threads of both ends. -/
def Serves : LinkMove S R → Prop
  | .left move => move.Serves
  | .right move => move.Serves
  | .noiseToRight _ | .noiseToLeft _ => False

theorem Serves.callsLeft_eq {move : LinkMove S R} (h : Serves move) : move.callsLeft = [] := by
  cases move with
  | left move => exact NodeMove.Serves.calls_eq h
  | right move => rfl
  | noiseToRight byte => rfl
  | noiseToLeft byte => rfl

theorem Serves.callsRight_eq {move : LinkMove S R} (h : Serves move) : move.callsRight = [] := by
  cases move with
  | left move => rfl
  | right move => exact NodeMove.Serves.calls_eq h
  | noiseToRight byte => rfl
  | noiseToLeft byte => rfl

/-- A service move calls nothing. -/
theorem Serves.admitted {move : LinkMove S R} (h : Serves move) : move.Admitted := by
  cases move with
  | left m =>
      intro op hop
      rw [NodeMove.Serves.calls_eq h] at hop
      contradiction
  | right m =>
      intro op hop
      rw [NodeMove.Serves.calls_eq h] at hop
      contradiction
  | noiseToRight byte => exact absurd h id
  | noiseToLeft byte => exact absurd h id

theorem Serves.suits {move : LinkMove S R} (h : Serves move) (busL : S.Bus) (busR : R.Bus)
    (sizes : Sizes) : move.Suits busL busR sizes where
  left := by simp [h.callsLeft_eq]
  right := by simp [h.callsRight_eq]

/-- The moves each of which occurs in a round. -/
def services : List (LinkMove S R) :=
  Node.services.map LinkMove.left ++ Node.services.map LinkMove.right

/-- A move of the left node. -/
theorem load_step_left (h : step busL busR link (.left m) = .ok (link', out)) :
    ∃ result, Node.step S busL link.left link.toLeft m = .ok result ∧
      (result = ⟨link.left, link.toLeft, [], []⟩ → link' = link ∧ out = []) ∧
      link'.load = result.load + (link.right.load + link.toRight.length) := by
  cases hresult : Node.step S busL link.left link.toLeft m with
  | error fault =>
      simp only [step, hresult, error_bind] at h
      contradiction
  | ok result =>
      simp only [step, hresult, ok_bind, pure_eq_ok, Except.ok.injEq, Prod.mk.injEq] at h
      obtain ⟨rfl, rfl⟩ := h
      refine ⟨result, rfl, ?_, ?_⟩
      · rintro rfl
        exact ⟨by rw [List.append_nil], rfl⟩
      · simp only [load, Node.Result.load, List.length_append]
        omega

/-- A move of the right node. -/
theorem load_step_right (h : step busL busR link (.right m) = .ok (link', out)) :
    ∃ result, Node.step R busR link.right link.toRight m = .ok result ∧
      (result = ⟨link.right, link.toRight, [], []⟩ → link' = link ∧ out = []) ∧
      link'.load = (link.left.load + link.toLeft.length) + result.load := by
  cases hresult : Node.step R busR link.right link.toRight m with
  | error fault =>
      simp only [step, hresult, error_bind] at h
      contradiction
  | ok result =>
      simp only [step, hresult, ok_bind, pure_eq_ok, Except.ok.injEq, Prod.mk.injEq] at h
      obtain ⟨rfl, rfl⟩ := h
      refine ⟨result, rfl, ?_, ?_⟩
      · rintro rfl
        exact ⟨by rw [List.append_nil], rfl⟩
      · simp only [load, Node.Result.load, List.length_append]
        omega

/-- A service move leaves the link alone, or less is on the way behind it. -/
theorem Ready.load_serves (h : link.Ready sizes) (hS : S.BuiltIn) (hR : R.BuiltIn)
    (hmove : Serves move) (hstep : Link.step busL busR link move = .ok (link', out)) :
    (link' = link ∧ out = []) ∨ link'.load < link.load := by
  cases move with
  | left m =>
      obtain ⟨result, hresult, hsame, hload⟩ := load_step_left hstep
      refine (h.left.load_serves h.encodeL hS link.toLeft hmove hresult).imp hsame fun hlt => ?_
      rw [hload, load]
      omega
  | right m =>
      obtain ⟨result, hresult, hsame, hload⟩ := load_step_right hstep
      refine (h.right.load_serves h.encodeR hR link.toRight hmove hresult).imp hsame fun hlt => ?_
      rw [hload, load]
      omega
  | noiseToRight byte => exact absurd hmove id
  | noiseToLeft byte => exact absurd hmove id

/-- A service move returns where the calls that wait name interfaces. -/
structure Served (busL : S.Bus) (busR : R.Bus) (sizes : Sizes) (link : Link S R)
    (events : List (Event S R)) : Prop where
  inStep : InStep busL busR sizes link events
  namesL : ∀ op ∈ link.left.waiting, op.NamesInterface
  namesR : ∀ op ∈ link.right.waiting, op.NamesInterface

/-- **Step**: a service move returns. -/
theorem Served.step (h : Served busL busR sizes link events) (hS : S.BuiltIn) (hR : R.BuiltIn)
    (hformat : (S.busToPacketizerCfg busL).canonical = (R.busToPacketizerCfg busR).canonical)
    (hmove : Serves move) :
    ∃ link' out, Link.step busL busR link move = .ok (link', out) ∧
      Served busL busR sizes link' (events ++ out) ∧
      ((link' = link ∧ out = []) ∨ link'.load < link.load) := by
  obtain ⟨link', out, hstep, hinStep⟩ | ⟨fault, -, hstops⟩ :=
    h.inStep.step hS hR hformat move hmove.admitted (hmove.suits busL busR sizes)
  · have hkept : Kept link [move] link' out := kept_step busL busR link move _ hstep
    refine ⟨link', out, hstep, ⟨hinStep, ?_, ?_⟩,
      h.inStep.ready.load_serves hS hR hmove hstep⟩
    · exact (forall_of_perm hkept.left h.namesL (by simp [callsLeft, hmove.callsLeft_eq])).2
    · exact (forall_of_perm hkept.right h.namesR (by simp [callsRight, hmove.callsRight_eq])).2
  · obtain ⟨m, -, i, op, -, hop, houtside⟩ | ⟨m, -, i, op, -, hop, houtside⟩ := hstops
    · exact absurd (h.namesL op (List.mem_of_getElem? hop)) houtside.not_namesInterface
    · exact absurd (h.namesR op (List.mem_of_getElem? hop)) houtside.not_namesInterface

end Link

end TasteRuntime
