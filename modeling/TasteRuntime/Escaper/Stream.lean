import TasteRuntime.Escaper.Encoder

/-!
# TasteRuntime.Escaper.Stream

What a decoder makes of the bytes an encoder sent, cut into calls in any way:

* `decodePackets_sendPackets` — packets that fit, with noise between their
  frames, are received exactly;
* `decodePackets_sendPackets_of_overflow_iff` — when a packet that does not fit is
  dropped whole;
* `decodePackets_startDecoder_iff` — when `Escaper_start_decoder` makes the
  decoder forget the bytes it had;
* `decodePackets_resynchronises` — one frame brings any decoder back in step.

Each is the corresponding theorem about the receiver, carried over by
`decodePackets_eq`.
-/

namespace TasteRuntime.Escaper

open CMemory Stuffing

/-! ## from the receiver to the decoder -/

/-- **Refinement**: a series of calls makes the receive calls of the receiver
on the concatenated bytes, and never leaves the decode buffer. -/
theorem decodePackets_eq (h : DecoderInv D e) (busId : Bus) (buffers : List (List UInt8)) :
    ∃ e', decodePackets e busId buffers =
        .ok (e', ((receiver alphabet D).output (abs D e) buffers.flatten).map
          (ReceiveCall.mk busId)) ∧
      DecoderInv D e' ∧ abs D e' = (receiver alphabet D).stateAfter (abs D e) buffers.flatten := by
  obtain ⟨e', hrun, hinv, habs⟩ := (decodeByte_simulates D busId).runCalls e h buffers
  simp only [receiveCalls, Transducer.output_mapOutput] at hrun
  simp only [receiveCalls, Transducer.stateAfter_mapOutput] at habs
  exact ⟨e', hrun, hinv, habs⟩

theorem decoderInv_init (encodeBuffer decodeBuffer : List UInt8) (size : Nat) :
    DecoderInv decodeBuffer.length (init encodeBuffer size decodeBuffer decodeBuffer.length) :=
  ⟨rfl, rfl, Nat.zero_le _⟩

theorem abs_init (encodeBuffer decodeBuffer : List UInt8) (size : Nat) :
    abs decodeBuffer.length (init encodeBuffer size decodeBuffer decodeBuffer.length) =
      Receiver.idle := by
  simp [abs, init, phase, Receiver.idle]

theorem abs_startDecoder (D : Nat) (e : Escaper) : abs D e.startDecoder = (abs D e).restart := rfl

theorem decoderInv_startDecoder (h : DecoderInv D e) : DecoderInv D e.startDecoder :=
  ⟨h.1, h.2, h.3⟩

/-- An idle receiver that keeps nothing is a decoder in the wait state with
index 0. -/
theorem wait_of_abs_eq_idle (h : DecoderInv D e) (hidle : abs D e = Receiver.idle) :
    e.parseState = .wait ∧ e.decodedPacketBufferIndex = 0 := by
  constructor
  · have hphase : phase e.parseState = .idle := congrArg Receiver.phase hidle
    cases hs : e.parseState <;> simp [hs, phase] at hphase ⊢
  · have hkept := length_kept_abs h
    rw [hidle] at hkept
    exact hkept.symm

/-- Every operation keeps the decoder's index inside its buffer. -/
theorem Reachable.decoderInv (h : DecoderInv D start) (hr : Reachable start e) :
    DecoderInv D e := by
  induction hr with
  | refl => exact h
  | startDecoder _ ih => exact decoderInv_startDecoder ih
  | decodePacket _ hcall ih =>
      obtain ⟨e', hrun, hinv, -⟩ := (decodeByte_simulates D _).runCall _ ih _
      rw [Escaper.decodePacket, hrun, Except.ok.injEq, Prod.mk.injEq] at hcall
      rw [← hcall.1]
      exact hinv
  | startEncoder _ ih => exact ⟨ih.1, ih.2, ih.3⟩
  | encodePacket _ hcall ih =>
      have hsame := sameDecoder_encodePacket _ _ _ _ hcall
      exact ⟨by rw [hsame.maxSize]; exact ih.1, by rw [hsame.buffer]; exact ih.2,
        by rw [hsame.index]; exact ih.3⟩

/-! ## streams -/

/-- What is on the line: noise, then each frame with the noise behind it. -/
def line (noise : List UInt8) (frames gaps : List (List UInt8)) : List UInt8 :=
  noise ++ (List.zipWith (· ++ ·) frames gaps).flatten

/-- **Stream round trip**: packets that fit the decode buffer, sent through an
encode buffer of any size from 2 on and put on a line among noise without
start bytes, are received exactly and in order, however the line is cut into
calls. -/
theorem decodePackets_sendPackets (hsender : CanEncode M sender)
    (encodeBuffer decodeBuffer : List UInt8) (encodeSize : Nat) (busId : Bus)
    (noise : List UInt8) (messages : List (List UInt8 × List UInt8))
    (hnoise : startByte ∉ noise)
    (hmessages : ∀ m ∈ messages, m.1.length ≤ decodeBuffer.length ∧ startByte ∉ m.2) :
    ∃ sender' frames, sendPackets sender (messages.map Prod.fst) = .ok (sender', frames) ∧
      ∀ cuts : List (List UInt8), cuts.flatten = line noise frames (messages.map Prod.snd) →
        ∃ decoder', decodePackets
            (init encodeBuffer encodeSize decodeBuffer decodeBuffer.length) busId cuts =
          .ok (decoder', messages.map fun m => ⟨busId, m.1⟩) := by
  obtain ⟨sender', hsend, -⟩ := sendPackets_eq hsender (messages.map Prod.fst)
  refine ⟨sender', _, hsend, fun cuts hcuts => ?_⟩
  have hline : line noise ((messages.map Prod.fst).map alphabet.frame) (messages.map Prod.snd) =
      stream alphabet noise messages := by
    simp [line, stream, List.zipWith_map, List.zipWith_self, List.flatMap_def]
  obtain ⟨decoder', hrun, -, -⟩ := decodePackets_eq
    (decoderInv_init encodeBuffer decodeBuffer encodeSize) busId cuts
  refine ⟨decoder', ?_⟩
  rw [hrun, hcuts, hline, abs_init, (output_stream alphabet noise messages hnoise hmessages).1,
    List.map_map]
  rfl

theorem canEncode_two : CanEncode 2 (init [0, 0] 2 [] 0) := ⟨by decide, rfl, rfl⟩

/-- Two packets, one of control bytes and one empty, through an encode buffer
of two bytes. -/
theorem decodePackets_sendPackets_two :
    ∃ sender' frames, sendPackets (init [0, 0] 2 [] 0) [[0x00, 0xFF], []] = .ok (sender', frames) ∧
      ∀ cuts : List (List UInt8), cuts.flatten = line [1] frames [[9], []] →
        ∃ decoder', decodePackets (init [] 0 [0, 0] 2) () cuts =
          .ok (decoder', [⟨(), [0x00, 0xFF]⟩, ⟨(), []⟩]) :=
  decodePackets_sendPackets canEncode_two [] [0, 0] 0 () [1] [([0x00, 0xFF], [9]), ([], [])]
    (by decide) (by decide)

/-! ## packets that do not fit -/

/-- A packet `d` that does not fit, followed by a packet `d'` that does: the
second alone is received exactly if `d` is dropped whole, that is, if looking
for a start byte from the first byte without room on never ends behind one
with room for the rest. -/
theorem decodePackets_sendPackets_of_overflow_iff (hsender : CanEncode M sender)
    (encodeBuffer decodeBuffer : List UInt8) (encodeSize : Nat) (busId : Bus)
    (d d' : List UInt8) (hover : decodeBuffer.length < d.length)
    (hfit : d'.length ≤ decodeBuffer.length) :
    ∃ sender' frames, sendPackets sender [d, d'] = .ok (sender', frames) ∧
      ∀ cuts : List (List UInt8), cuts.flatten = frames.flatten →
        ∃ decoder' calls, decodePackets
            (init encodeBuffer encodeSize decodeBuffer decodeBuffer.length) busId cuts =
          .ok (decoder', calls) ∧
        (calls = [⟨busId, d'⟩] ↔ droppedWhole alphabet decodeBuffer.length d = true) := by
  obtain ⟨sender', hsend, -⟩ := sendPackets_eq hsender [d, d']
  refine ⟨sender', _, hsend, fun cuts hcuts => ?_⟩
  obtain ⟨decoder', hrun, -, -⟩ := decodePackets_eq
    (decoderInv_init encodeBuffer decodeBuffer encodeSize) busId cuts
  refine ⟨decoder', _, hrun, ?_⟩
  have hsplit : cuts.flatten = alphabet.frame d ++ alphabet.frame d' := by
    simpa using hcuts
  rw [abs_init, hsplit, Transducer.output_append, stateAfter_frame,
    output_frame_of_fits alphabet d' hfit, ← output_frame_eq_nil_iff alphabet d hover]
  constructor
  · intro h
    have hlen := congrArg List.length h
    simp only [List.length_map, List.length_append, List.length_singleton] at hlen
    exact List.length_eq_zero_iff.mp (by omega)
  · intro h
    simp [h]

/-- Two bytes of room and no start byte behind the third: nothing is left. -/
theorem decodePackets_sendPackets_of_overflow_iff_two :
    ∃ sender' frames, sendPackets (init [0, 0] 2 [] 0) [[1, 2, 3, 4], [7]] = .ok (sender', frames) ∧
      ∀ cuts : List (List UInt8), cuts.flatten = frames.flatten →
        ∃ decoder' calls, decodePackets (init [] 0 [0, 0] 2) () cuts = .ok (decoder', calls) ∧
          (calls = [⟨(), [7]⟩] ↔ droppedWhole alphabet 2 [1, 2, 3, 4] = true) :=
  decodePackets_sendPackets_of_overflow_iff canEncode_two [] [0, 0] 0 () [1, 2, 3, 4] [7]
    (by decide) (by decide)

/-- With one byte of room, the byte behind the start byte in `1 1 0 5` is
received as a packet of its own. -/
theorem decodePackets_sendPackets_fragment :
    (do
      let sent ← sendPackets (init [0, 0] 2 [] 0) [[1, 1, 0, 5], [7]]
      let received ← decodePackets (init [] 0 [0] 1) () [sent.2.flatten]
      pure received.2) = (.ok [⟨(), [5]⟩, ⟨(), [7]⟩] : Exec (List (ReceiveCall Unit))) := by
  decide +kernel

/-! ## restarting the decoder -/

/-- After `Escaper_start_decoder` in any reachable state, a packet that fits
is received exactly if the decoder's index was 0. -/
theorem decodePackets_startDecoder_iff {decoder : Escaper} (hsender : CanEncode M sender)
    (encodeBuffer decodeBuffer : List UInt8) (encodeSize : Nat) (busId : Bus)
    (hr : Reachable (init encodeBuffer encodeSize decodeBuffer decodeBuffer.length) decoder)
    (d : List UInt8) (hfit : d.length ≤ decodeBuffer.length) :
    ∃ sender' frames, sendPackets sender [d] = .ok (sender', frames) ∧
      ∀ cuts : List (List UInt8), cuts.flatten = frames.flatten →
        ∃ decoder' calls, decodePackets decoder.startDecoder busId cuts =
          .ok (decoder', calls) ∧
        (calls = [⟨busId, d⟩] ↔ decoder.decodedPacketBufferIndex = 0) := by
  obtain ⟨sender', hsend, -⟩ := sendPackets_eq hsender [d]
  refine ⟨sender', _, hsend, fun cuts hcuts => ?_⟩
  have hinv := hr.decoderInv (decoderInv_init encodeBuffer decodeBuffer encodeSize)
  obtain ⟨decoder', hrun, -, -⟩ := decodePackets_eq (decoderInv_startDecoder hinv) busId cuts
  refine ⟨decoder', _, hrun, ?_⟩
  have hsplit : cuts.flatten = alphabet.frame d := by simpa using hcuts
  have hmap (l : List (List UInt8)) : l.map (ReceiveCall.mk busId) = [⟨busId, d⟩] ↔ l = [d] := by
    constructor
    · intro h
      have hback := congrArg (List.map ReceiveCall.packet) h
      simpa [Function.comp_def] using hback
    · rintro rfl
      rfl
  rw [abs_startDecoder, hsplit, hmap, output_frame_restart_iff alphabet _ d hfit,
    ← length_kept_abs hinv, List.length_eq_zero_iff]

/-- A decoder restarted inside a packet, of which it has stored a byte. -/
theorem decodePackets_startDecoder_iff_inside :
    ∃ sender' frames, sendPackets (init [0, 0] 2 [] 0) [[7]] = .ok (sender', frames) ∧
      ∀ cuts : List (List UInt8), cuts.flatten = frames.flatten →
        ∃ decoder' calls, decodePackets
            { init [] 0 [5, 0] 2 with
              decodedPacketBufferIndex := 1, parseState := .dataByte }.startDecoder () cuts =
          .ok (decoder', calls) ∧
        (calls = [⟨(), [7]⟩] ↔ { init [] 0 [5, 0] 2 with
          decodedPacketBufferIndex := 1,
          parseState := .dataByte }.decodedPacketBufferIndex = 0) :=
  decodePackets_startDecoder_iff canEncode_two [] [0, 0] 0 ()
    (.decodePacket .refl (rfl : decodePacket (init [] 0 [0, 0] 2) () [0x00, 5] =
      .ok ({ init [] 0 [5, 0] 2 with
        decodedPacketBufferIndex := 1, parseState := .dataByte }, []))) [7] (by decide)

/-- A decoder that was restarted after `START_BYTE 5` puts the 5 in front of
the next packet. -/
theorem decodePackets_startDecoder_leftover :
    (do
      let sent ← sendPackets (init [0, 0] 2 [] 0) [[7]]
      let partly ← decodePacket (init [] 0 [0, 0] 2) () [0x00, 5]
      let received ← decodePackets partly.1.startDecoder () [sent.2.flatten]
      pure received.2) = (.ok [⟨(), [5, 7]⟩] : Exec (List (ReceiveCall Unit))) := by
  decide +kernel

/-! ## resynchronisation -/

/-- **Self-stabilisation**: in any reachable state, one frame of any packet
brings the decoder to the wait state with index 0 and is received at most
once; packets that fit and come after it are received exactly. -/
theorem decodePackets_resynchronises {decoder : Escaper} (hsender : CanEncode M sender)
    (encodeBuffer decodeBuffer : List UInt8) (encodeSize : Nat) (busId : Bus)
    (hr : Reachable (init encodeBuffer encodeSize decodeBuffer decodeBuffer.length) decoder)
    (d : List UInt8) :
    ∃ sender' frames, sendPackets sender [d] = .ok (sender', frames) ∧
      ∀ cuts : List (List UInt8), cuts.flatten = frames.flatten →
        ∃ decoder' calls, decodePackets decoder busId cuts = .ok (decoder', calls) ∧
          decoder'.parseState = .wait ∧ decoder'.decodedPacketBufferIndex = 0 ∧
          calls.length ≤ 1 ∧
          ∀ later : List (List UInt8), (∀ p ∈ later, p.length ≤ decodeBuffer.length) →
            ∃ sender'' frames', sendPackets sender' later = .ok (sender'', frames') ∧
              ∀ cuts' : List (List UInt8), cuts'.flatten = frames'.flatten →
                ∃ decoder'', decodePackets decoder' busId cuts' =
                  .ok (decoder'', later.map (ReceiveCall.mk busId)) := by
  obtain ⟨sender', hsend, hsender'⟩ := sendPackets_eq hsender [d]
  refine ⟨sender', _, hsend, fun cuts hcuts => ?_⟩
  have hinv := hr.decoderInv (decoderInv_init encodeBuffer decodeBuffer encodeSize)
  obtain ⟨decoder', hrun, hinv', habs⟩ := decodePackets_eq hinv busId cuts
  have hsplit : cuts.flatten = alphabet.frame d := by simpa using hcuts
  rw [hsplit, stateAfter_frame] at habs
  obtain ⟨hwait, hzero⟩ := wait_of_abs_eq_idle hinv' habs
  refine ⟨decoder', _, hrun, hwait, hzero, ?_, fun later hlater => ?_⟩
  · rw [List.length_map, hsplit]
    exact length_output_frame alphabet _ d
  · obtain ⟨sender'', hsend', -⟩ := sendPackets_eq hsender' later
    refine ⟨sender'', _, hsend', fun cuts' hcuts' => ?_⟩
    obtain ⟨decoder'', hrun', -, -⟩ := decodePackets_eq hinv' busId cuts'
    refine ⟨decoder'', ?_⟩
    rw [hrun', habs, hcuts', ← List.flatMap_def, (output_frames alphabet later hlater).1]

/-- A decoder stopped in the middle of an escape. -/
theorem decodePackets_resynchronises_escape :
    ∃ sender' frames, sendPackets (init [0, 0] 2 [] 0) [[7, 8, 9]] = .ok (sender', frames) ∧
      ∀ cuts : List (List UInt8), cuts.flatten = frames.flatten →
        ∃ decoder' calls, decodePackets
            { init [] 0 [0, 0] 2 with parseState := .escapeByte } () cuts =
          .ok (decoder', calls) ∧
          decoder'.parseState = .wait ∧ decoder'.decodedPacketBufferIndex = 0 ∧
          calls.length ≤ 1 ∧
          ∀ later : List (List UInt8), (∀ p ∈ later, p.length ≤ 2) →
            ∃ sender'' frames', sendPackets sender' later = .ok (sender'', frames') ∧
              ∀ cuts' : List (List UInt8), cuts'.flatten = frames'.flatten →
                ∃ decoder'', decodePackets decoder' () cuts' =
                  .ok (decoder'', later.map (ReceiveCall.mk ())) :=
  decodePackets_resynchronises canEncode_two [] [0, 0] 0 ()
    (.decodePacket .refl (rfl : decodePacket (init [] 0 [0, 0] 2) () [0x00, 0xFE] =
      .ok ({ init [] 0 [0, 0] 2 with parseState := .escapeByte }, []))) [7, 8, 9]

end TasteRuntime.Escaper
