import TasteRuntime.Link

/-!
# TasteRuntime.Link.Recovery

A link that is not in step.  From any state of the line and of the decoder
behind it, the first frame that is sent brings the receiving end back in step:
what it receives before that is at most one packet more than there are stop
bytes on the line (`deliveries_link_after`).  Only such a packet, or one that
the other line or another bus had, can make a broker read its table of deliver
functions outside.
-/

namespace TasteRuntime

open CMemory Stuffing Escaper

namespace Link

variable {S R : SystemSpec} {busL : S.Bus} {busR : R.Bus} {sizes : Sizes}

/-- After the events of a run: both nodes are ready, and the direction to the
right conveys, behind some junk, requests that suit the right end, as do those
that wait. -/
structure Rightward (busL : S.Bus) (busR : R.Bus) (sizes : Sizes)
    (start : Receiver UInt8 sizes.decodeR) (junk : List (List UInt8)) (link : Link S R)
    (events : List (Event S R)) : Prop where
  ready : link.Ready sizes
  conveys : Conveys busL busR start junk (Halves.lefts events) (Halves.rights events)
    (link.rightward sizes.decodeR)
  suits : ∀ r ∈ requestsOver busL (Halves.lefts events), r.Suits R busR
  waiting : ∀ op ∈ link.left.waiting, op.Suits busL busR sizes.decodeR

/-- A run of a link with junk in front of the right decoder stops where a broker
reads its table of deliver functions outside: for a packet of another bus, for
one that the left end takes from its line, or for one of the junk. -/
structure StopsBehind (busL : S.Bus) (busR : R.Bus) (sizes : Sizes) (skipped : Nat)
    (link : Link S R) (events : List (Event S R)) (move : LinkMove S R) (fault : Fault) :
    Prop where
  stops : Stops busL busR sizes link move fault
  skips : move = .right .arrive → (received (Halves.rights events)).length < skipped

/-- **Step**: whatever the right end does, and whatever is on the line to the
left. -/
theorem Rightward.step {start : Receiver UInt8 sizes.decodeR} {link : Link S R}
    (h : Rightward busL busR sizes start junk link events) (hS : S.BuiltIn) (hR : R.BuiltIn)
    (hformat : (S.busToPacketizerCfg busL).canonical = (R.busToPacketizerCfg busR).canonical)
    (move : LinkMove S R) (hmove : move.Admitted)
    (hsuits : ∀ op ∈ move.callsLeft, op.Suits busL busR sizes.decodeR) :
    (∃ link' out, Link.step busL busR link move = .ok (link', out) ∧
      Rightward busL busR sizes start junk link' (events ++ out)) ∨
    ∃ fault, Link.step busL busR link move = .error fault ∧
      StopsBehind busL busR sizes junk.length link events move fault := by
  obtain ⟨link', out, hstep, hmoved⟩ | ⟨fault, hstep, hstops⟩ :=
    h.ready.step busL busR hS hR move hmove
  · have hkept : Kept link [move] link' out := kept_step busL busR link move _ hstep
    obtain ⟨hconveys, hsuits', hwaiting⟩ := h.conveys.step_suits h.suits hmoved.rightward
      hmoved.soundL hmoved.soundR hkept.left h.waiting (by simpa [callsLeft] using hsuits)
    rw [← Halves.lefts_append] at hconveys hsuits'
    rw [← Halves.rights_append] at hconveys
    exact .inl ⟨link', out, hstep, hmoved.ready, hconveys, hsuits', hwaiting⟩
  · refine .inr ⟨fault, hstep, hstops, ?_⟩
    rintro rfl
    refine Nat.lt_of_not_le fun hbehind => ?_
    obtain ⟨m, hm, -⟩ | ⟨m, hm, hstops⟩ := hstops
    · contradiction
    · obtain rfl := LinkMove.right.inj hm
      obtain ⟨i, op, hmove, -⟩ := h.conveys.not_stops hformat h.suits hbehind hstops
      contradiction

/-- A request that gets the lock leaves its frame behind whatever is on the
line. -/
theorem Ready.request {link : Link S R} (busR : R.Bus) (h : link.Ready sizes)
    (hfree : link.left.sending = none) (hS : S.BuiltIn) (request : Request S)
    (hwaiting : link.left.waiting[i]? = some (.deliverRequest request))
    (hbus : request.bus = busL)
    (hsuits : ∀ op ∈ link.left.waiting.eraseIdx i, op.Suits busL busR sizes.decodeR) :
    ∃ link₁ calls junk, Link.step busL busR link (.left (.enter i)) =
        .ok (link₁, [.inl (.called (.deliverRequest request) calls)]) ∧
      link₁.left.waiting = link.left.waiting.eraseIdx i ∧
      junk.length ≤ link.toRight.count stopByte + 1 ∧
      Rightward busL busR sizes (Escaper.abs sizes.decodeR link.right.escaper) junk link₁ [] := by
  obtain ⟨broker, calls, packet, -, hcarry, hmoved⟩ :=
    (h.left.eraseIdx i).request hfree hS link.toLeft request
      (h.left.waiting _ (List.mem_of_getElem? hwaiting)) hbus
  have htraffic := Channel.traffic_frame (A := alphabet) packet link.toRight
    (Escaper.abs sizes.decodeR link.right.escaper)
  have hstep : Node.step S busL link.left link.toLeft (.enter i) =
      Node.carryOut busL { link.left with waiting := link.left.waiting.eraseIdx i } link.toLeft
        (.deliverRequest request) := by
    simp only [Node.step, hfree, hwaiting]
  rw [hcarry] at hstep
  refine ⟨{ link with left := { link.left with
      broker := broker
      waiting := link.left.waiting.eraseIdx i }.startSending [packet] }, calls,
    (receiver alphabet sizes.decodeR).output (Escaper.abs sizes.decodeR link.right.escaper)
      (link.toRight ++ alphabet.frame packet), ?_, rfl,
    Channel.length_junk_le packet link.toRight _,
    ⟨hmoved.ready, h.right, h.encodeL, h.encodeR, h.decodeL, h.decodeR⟩,
    ⟨⟨[], ?_⟩, fun _ h => absurd h List.not_mem_nil, fun _ h => absurd h List.not_mem_nil⟩,
    fun _ h => absurd h List.not_mem_nil, hsuits⟩
  · simp only [Link.step, hstep, ok_bind, pure_eq_ok, List.append_nil, List.map_cons, List.map_nil]
  · have hframe : ({ link.left with
        broker := broker
        waiting := link.left.waiting.eraseIdx i }.startSending [packet]).pending =
        alphabet.frame packet := pending_startEncoder link.left.escaper packet
    simp only [rightward, hframe]
    exact htraffic

end Link

end TasteRuntime
