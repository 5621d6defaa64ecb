import TasteRuntime.Lib.Origin
import TasteRuntime.Escaper.Stream

/-!
# TasteRuntime.Escaper.Origin

Where the packets of a decoder come from, for any bytes at all in any calls:
`decodePackets_origin` carries the theorem of `TasteRuntime.Lib.Origin` about
deliveries over to the receive calls of `Escaper_decode_packet`.
-/

namespace TasteRuntime.Escaper

open CMemory Stuffing

/-- The receive calls a decoder makes on consuming the byte at position `j` of
a stream. -/
def callsAt (self : Escaper) (busId : Bus) (stream : List UInt8) (j : Nat) :
    Exec (List (ReceiveCall Bus)) := do
  let before ← decodePacket self busId (stream.take j)
  let consumed ← decodePacket before.1 busId ((stream.drop j).take 1)
  pure consumed.2

/-- They are the deliveries of the receiver at that position. -/
theorem callsAt_eq (h : DecoderInv D e) (busId : Bus) (stream : List UInt8) (j : Nat) :
    callsAt e busId stream j =
      .ok (((receiver alphabet D).outputAt (abs D e) stream j).map (ReceiveCall.mk busId)) := by
  have hsim := decodeByte_simulates D busId
  obtain ⟨e1, hbefore, h1, habs⟩ := hsim.runCall e h (stream.take j)
  obtain ⟨e2, hconsumed, -, -⟩ := hsim.runCall e1 h1 ((stream.drop j).take 1)
  rw [habs] at hconsumed
  simp only [receiveCalls, Transducer.output_mapOutput, Transducer.stateAfter_mapOutput]
    at hbefore hconsumed
  simp only [callsAt, decodePacket, hbefore, hconsumed, ok_bind, pure_eq_ok, Transducer.outputAt]

/-- **Nothing is fabricated**: the receive calls of an initialized decoder on
any stream in any calls are those made on consuming its bytes, one after the
other.  A call made on the byte at position `j`, a stop byte, has the packet
that the bytes between a start byte and this one stand for, and no other call
was made from that start byte on. -/
theorem decodePackets_origin (encodeBuffer decodeBuffer : List UInt8) (encodeSize : Nat)
    (busId : Bus) (cuts : List (List UInt8)) :
    ∃ e' calls,
      decodePackets (init encodeBuffer encodeSize decodeBuffer decodeBuffer.length) busId cuts =
        .ok (e', (List.range cuts.flatten.length).flatMap calls) ∧
      ∀ j < cuts.flatten.length,
        callsAt (init encodeBuffer encodeSize decodeBuffer decodeBuffer.length) busId
          cuts.flatten j = .ok (calls j) ∧
        ∀ call ∈ calls j, call.busId = busId ∧ call.packet.length ≤ decodeBuffer.length ∧
          ∃ i < j, FramedAt alphabet cuts.flatten i j call.packet ∧
            ∀ k, i ≤ k → k < j → calls k = [] := by
  have hinv := decoderInv_init encodeBuffer decodeBuffer encodeSize
  have habs := abs_init encodeBuffer decodeBuffer encodeSize
  obtain ⟨e', hrun, -, -⟩ := decodePackets_eq hinv busId cuts
  rw [habs, Transducer.output_eq_flatMap_outputAt, List.map_flatMap] at hrun
  refine ⟨e', _, hrun, fun j hj => ⟨by rw [callsAt_eq hinv, habs], fun call hcall => ?_⟩⟩
  obtain ⟨m, hm, rfl⟩ := List.mem_map.mp hcall
  obtain ⟨hle, i, hij, hframed, hquiet⟩ := outputAt_origin cuts.flatten hj hm
  refine ⟨rfl, hle, i, hij, hframed, fun k hge hlt => ?_⟩
  rw [hquiet k hge hlt]
  rfl

end TasteRuntime.Escaper
