import TasteRuntime.Lib.Interleave
import TasteRuntime.Escaper.Bounds

/-!
# TasteRuntime.Escaper.Duplex

One escaper used in both directions at once: a thread that sends packets and a
thread that takes the line apart, without a lock between them.  The encoder
and the decoder have no field in common, so whatever the order of their single
loop iterations, each does what it does alone (`run_duplex`).

The iterations of `Escaper_encode_packet` are `encoderStep`, which keeps the
local variables of the call next to the escaper (`runCall_encoderStep_call`);
those of `Escaper_decode_packet` are `decodeByte`.
-/

namespace TasteRuntime.Escaper

open CMemory Stuffing

/-! ## the two halves -/

/-- The fields the encoder uses. -/
structure EncoderHalf where
  encodeStarted : Bool
  escape : Bool
  encodeFinished : Bool
  encodedPacketBuffer : List UInt8
  encodedPacketMaxSize : Nat

/-- The fields the decoder uses. -/
structure DecoderHalf where
  parseState : PacketParseState
  decodedPacketBuffer : List UInt8
  decodedPacketMaxSize : Nat
  decodedPacketBufferIndex : Nat

def encoderHalf (e : Escaper) : EncoderHalf where
  encodeStarted := e.encodeStarted
  escape := e.escape
  encodeFinished := e.encodeFinished
  encodedPacketBuffer := e.encodedPacketBuffer
  encodedPacketMaxSize := e.encodedPacketMaxSize

def decoderHalf (e : Escaper) : DecoderHalf where
  parseState := e.parseState
  decodedPacketBuffer := e.decodedPacketBuffer
  decodedPacketMaxSize := e.decodedPacketMaxSize
  decodedPacketBufferIndex := e.decodedPacketBufferIndex

/-- An escaper from its halves. -/
def ofHalves (a : EncoderHalf) (b : DecoderHalf) : Escaper where
  parseState := b.parseState
  encodeStarted := a.encodeStarted
  escape := a.escape
  encodeFinished := a.encodeFinished
  encodedPacketBuffer := a.encodedPacketBuffer
  encodedPacketMaxSize := a.encodedPacketMaxSize
  decodedPacketBuffer := b.decodedPacketBuffer
  decodedPacketMaxSize := b.decodedPacketMaxSize
  decodedPacketBufferIndex := b.decodedPacketBufferIndex

/-- Every escaper is made of them. -/
def halves : Halves Escaper EncoderHalf DecoderHalf where
  left := encoderHalf
  right := decoderHalf
  join := ofHalves
  join_left_right _ := rfl
  left_join _ _ := rfl
  right_join _ _ := rfl

/-! ## the encoding thread -/

/-- The local variables of a call of `Escaper_encode_packet`; `filled` is
`encoded_packet_buffer_index`. -/
structure EncodeRun where
  data : List UInt8
  index : Nat
  filled : Nat

/-- What a call leaves for its caller: `*index` and the bytes it may send. -/
structure EncodeReturn where
  index : Nat
  bytes : List UInt8
  deriving DecidableEq

/-- An escaper and the call the encoding thread is in, if it is in one. -/
structure Threads where
  escaper : Escaper
  running : Option EncodeRun

/-- The call belongs to the encoder's half. -/
def threadHalves : Halves Threads (EncoderHalf × Option EncodeRun) DecoderHalf where
  left s := (s.escaper.encoderHalf, s.running)
  right s := s.escaper.decoderHalf
  join a b := ⟨ofHalves a.1 b, a.2⟩
  join_left_right _ := rfl
  left_join _ _ := rfl
  right_join _ _ := rfl

/-- What the encoding thread does next. -/
inductive EncoderMove where
  | startEncoder
  | encodePacket (data : List UInt8) (index : Nat)
  | iterate

/-- A call returns. -/
def EncodeCall.finish (call : EncodeCall) : Threads × List EncodeReturn :=
  (⟨call.self, none⟩, [⟨call.index, call.self.encodedPacketBuffer.take call.length⟩])

/-- One step of the encoding thread: `Escaper_start_encoder`, the part of
`Escaper_encode_packet` in front of its loop, or an iteration of that loop,
with what follows it when there is none left.  A thread that is in a call
starts no other, and has nothing to iterate outside one. -/
def encoderStep (s : Threads) : EncoderMove → Exec (Threads × List EncodeReturn)
  | .startEncoder =>
      match s.running with
      | some _ => pure (s, [])
      | none => pure (⟨s.escaper.startEncoder, none⟩, [])
  | .encodePacket data index =>
      match s.running with
      | some _ => pure (s, [])
      | none =>
          if ¬ s.escaper.encodeStarted then do
            let buffer ← writeByte s.escaper.encodedPacketBuffer 0 startByte
            pure (⟨{ s.escaper with encodedPacketBuffer := buffer, encodeStarted := true },
              some ⟨data, index, 1⟩⟩, [])
          else pure (⟨s.escaper, some ⟨data, index, 0⟩⟩, [])
  | .iterate =>
      match s.running with
      | none => pure (s, [])
      | some r =>
          if h : r.index < r.data.length then do
            let next := encodeByte s.escaper.escape r.data[r.index] r.index
            let buffer ← writeByte s.escaper.encodedPacketBuffer r.filled next.byte
            let self' := { s.escaper with encodedPacketBuffer := buffer, escape := next.escape }
            if r.filled + 1 = s.escaper.encodedPacketMaxSize then
              pure (EncodeCall.finish ⟨self', next.index, r.filled + 1⟩)
            else pure (⟨self', some ⟨r.data, next.index, r.filled + 1⟩⟩, [])
          else do
            let call ← encodeStop s.escaper r.data r.index r.filled
            pure call.finish

/-- What the decoding thread does next. -/
inductive DecoderMove (Bus : Type) where
  | startDecoder
  | decodeByte (busId : Bus) (byte : UInt8)

/-- One step of the decoding thread. -/
def decoderStep (s : Threads) : DecoderMove Bus → Exec (Threads × List (ReceiveCall Bus))
  | .startDecoder => pure (⟨s.escaper.startDecoder, s.running⟩, [])
  | .decodeByte busId byte => do
      let (escaper, calls) ← Escaper.decodeByte busId s.escaper byte
      pure (⟨escaper, s.running⟩, calls)

/-! ### the iterations are those of `Escaper_encode_packet` -/

/-- Iterating until the call returns does what the loop does. -/
theorem runCall_encoderStep_iterate (e : Escaper) (data : List UInt8) (index filled : Nat) :
    ∃ n, Transducer.runCall encoderStep ⟨e, some ⟨data, index, filled⟩⟩
        (List.replicate n .iterate) = (encodeLoop e data index filled).map EncodeCall.finish := by
  induction hm : encodeMeasure e.escape data.length index using Nat.strongRecOn
    generalizing e index filled with
  | ind n ih =>
      subst hm
      by_cases h : index < data.length
      · rw [encodeLoop, dif_pos h]
        cases hwrite : writeByte e.encodedPacketBuffer filled
            (encodeByte e.escape data[index] index).byte with
        | error fault =>
            refine ⟨1, ?_⟩
            simp [Transducer.runCall, encoderStep, h, hwrite, Except.map]
        | ok buffer =>
            by_cases hfull : filled + 1 = e.encodedPacketMaxSize
            · refine ⟨1, ?_⟩
              simp [Transducer.runCall, encoderStep, h, hwrite, hfull, Except.map,
                EncodeCall.finish]
            · obtain ⟨n, hrest⟩ := ih _ (encodeMeasure_lt e.escape data[index] h) { e with
                encodedPacketBuffer := buffer
                escape := (encodeByte e.escape data[index] index).escape } _ (filled + 1) rfl
              refine ⟨n + 1, ?_⟩
              rw [List.replicate_succ, Transducer.runCall]
              simp only [encoderStep, h, hwrite, hfull, dif_pos, ok_bind, if_false, pure_eq_ok,
                hrest]
              cases encodeLoop _ data _ (filled + 1) <;> rfl
      · refine ⟨1, ?_⟩
        rw [encodeLoop, dif_neg h]
        cases hstop : encodeStop e data index filled <;>
          simp [Transducer.runCall, encoderStep, h, hstop, Except.map]

/-- A call taken apart into its iterations is the call. -/
theorem runCall_encoderStep_call (e : Escaper) (data : List UInt8) (index : Nat) :
    ∃ n, Transducer.runCall encoderStep ⟨e, none⟩
        (.encodePacket data index :: List.replicate n .iterate) =
      (encodePacket e data index).map EncodeCall.finish := by
  unfold encodePacket
  cases hstarted : e.encodeStarted with
  | true =>
      obtain ⟨n, hrest⟩ := runCall_encoderStep_iterate e data index 0
      refine ⟨n, ?_⟩
      simp only [Transducer.runCall, encoderStep, hstarted, not_true_eq_false, if_false,
        pure_eq_ok, hrest]
      cases encodeLoop e data index 0 <;> rfl
  | false =>
      cases hwrite : writeByte e.encodedPacketBuffer 0 startByte with
      | error fault => exact ⟨0, by simp [Transducer.runCall, encoderStep, hstarted, hwrite,
          Except.map]⟩
      | ok buffer =>
          obtain ⟨n, hrest⟩ := runCall_encoderStep_iterate
            { e with encodedPacketBuffer := buffer, encodeStarted := true } data index 1
          refine ⟨n, ?_⟩
          simp only [Transducer.runCall, encoderStep, hstarted, hwrite, Bool.false_eq_true,
            not_false_eq_true, if_true, ok_bind, pure_eq_ok, hrest]
          cases encodeLoop _ data index 1 <;> rfl

/-! ## frames -/

/-- The decoder does not see the encoder's half, and leaves it alone. -/
theorem onRight_decodeByte (busId : Bus) : halves.OnRight (decodeByte busId) := by
  intro e byte a
  obtain ⟨parseState, _, _, _, _, _, buffer, maxSize, index⟩ := e
  simp only [Halves.swap, halves, ofHalves, decoderHalf, decodeByte]
  cases parseState with
  | wait => by_cases h : byte = startByte <;> simp only [h, if_true, if_false] <;> rfl
  | dataByte =>
      by_cases hstop : byte = stopByte
      · simp only [hstop, if_true]
        cases slice buffer 0 index <;> rfl
      by_cases hescape : byte = TasteRuntime.escapeByte
      · simp only [hescape, if_true]
        rfl
      by_cases hstart : byte = startByte
      · simp only [hstart, if_true]
        rfl
      simp only [hstop, hescape, hstart, if_false]
      by_cases hfull : index ≥ maxSize
      · simp only [hfull, if_true]
        rfl
      · simp only [hfull, if_false]
        cases writeByte buffer index byte <;> rfl
  | escapeByte =>
      by_cases hfull : index ≥ maxSize
      · simp only [hfull, if_true]
        rfl
      · simp only [hfull, if_false]
        cases writeByte buffer index byte <;> rfl

theorem onRight_decoderStep : threadHalves.OnRight (@decoderStep Bus) := by
  intro s move a
  cases move with
  | startDecoder => rfl
  | decodeByte busId byte =>
      have hframe := onRight_decodeByte busId s.escaper byte a.1
      simp only [Halves.swap, halves] at hframe
      simp only [Halves.swap, threadHalves, decoderStep, hframe]
      cases decodeByte busId s.escaper byte <;> rfl

/-- Neither does the encoder see the decoder's. -/
theorem onLeft_encoderStep : threadHalves.OnLeft encoderStep := by
  rintro ⟨e, running⟩ move b
  obtain ⟨_, started, escape, finished, buffer, maxSize, _, _, _⟩ := e
  simp only [threadHalves, ofHalves, encoderHalf]
  cases move with
  | startEncoder => cases running <;> rfl
  | encodePacket data index =>
      cases running with
      | some r => rfl
      | none =>
          cases started with
          | true => rfl
          | false =>
              simp only [encoderStep, Bool.false_eq_true, not_false_eq_true, if_true]
              cases writeByte buffer 0 startByte <;> rfl
  | iterate =>
      cases running with
      | none => rfl
      | some r =>
          simp only [encoderStep]
          by_cases h : r.index < r.data.length
          · simp only [h, dif_pos]
            cases writeByte buffer r.filled (encodeByte escape r.data[r.index] r.index).byte with
            | error fault => rfl
            | ok buffer' =>
                simp only [ok_bind]
                by_cases hfull : r.filled + 1 = maxSize
                · simp only [hfull, if_true]
                  rfl
                · simp only [hfull, if_false]
                  rfl
          · simp only [h, dif_neg, not_false_eq_true, encodeStop]
            by_cases hstop : r.index = r.data.length ∧ ¬ finished
            · simp only [if_pos hstop]
              cases writeByte buffer r.filled stopByte <;> rfl
            · simp only [if_neg hstop]
              rfl

/-! ## the encoder stays inside its buffer -/

/-- The encoder's buffer has the announced size, and a call that is running has
not filled it. -/
structure EncoderSized (M : Nat) (s : Threads) : Prop where
  maxSize : s.escaper.encodedPacketMaxSize = M
  length_buffer : s.escaper.encodedPacketBuffer.length = M
  filled_lt : ∀ r, s.running = some r → r.filled < M

/-- With room for two bytes every step of the encoding thread returns. -/
theorem EncoderSized.step (hM : 2 ≤ M) {s : Threads} (h : EncoderSized M s) (move : EncoderMove) :
    ∃ s' out, encoderStep s move = .ok (s', out) ∧ EncoderSized M s' := by
  obtain ⟨e, running⟩ := s
  obtain ⟨hmax, hlen, hfilled⟩ := h
  simp only at hmax hlen hfilled
  cases move with
  | startEncoder =>
      cases running with
      | some r => exact ⟨_, _, rfl, hmax, hlen, hfilled⟩
      | none => exact ⟨_, _, rfl, hmax, hlen, hfilled⟩
  | encodePacket data index =>
      cases running with
      | some r => exact ⟨_, _, rfl, hmax, hlen, hfilled⟩
      | none =>
          cases hstarted : e.encodeStarted with
          | true =>
              refine ⟨⟨e, some ⟨data, index, 0⟩⟩, [], by simp [encoderStep, hstarted], hmax, hlen,
                ?_⟩
              rintro r ⟨⟩
              show 0 < M
              omega
          | false =>
              have hroom : 0 < e.encodedPacketBuffer.length := by omega
              refine ⟨⟨{ e with
                  encodedPacketBuffer := e.encodedPacketBuffer.set 0 startByte
                  encodeStarted := true }, some ⟨data, index, 1⟩⟩, [],
                by simp [encoderStep, hstarted, writeByte_of_lt hroom], hmax, by simpa using hlen,
                ?_⟩
              rintro r ⟨⟩
              exact hM
  | iterate =>
      cases running with
      | none => exact ⟨_, _, rfl, hmax, hlen, hfilled⟩
      | some r =>
          have hlt := hfilled r rfl
          have hroom : r.filled < e.encodedPacketBuffer.length := by omega
          by_cases h : r.index < r.data.length
          · by_cases hfull : r.filled + 1 = e.encodedPacketMaxSize
            · refine ⟨_, _, by
                simp only [encoderStep, h, dif_pos, writeByte_of_lt hroom, ok_bind, hfull, if_true,
                  EncodeCall.finish, pure_eq_ok]
                rfl, hmax, by simpa using hlen, ?_⟩
              rintro r' ⟨⟩
            · refine ⟨_, _, by
                simp only [encoderStep, h, dif_pos, writeByte_of_lt hroom, ok_bind, hfull, if_false,
                  pure_eq_ok]
                rfl, hmax, by simpa using hlen, ?_⟩
              rintro r' ⟨⟩
              show r.filled + 1 < M
              omega
          · by_cases hstop : r.index = r.data.length ∧ ¬ e.encodeFinished
            · refine ⟨_, _, by
                simp only [encoderStep, h, encodeStop, dif_neg, not_false_eq_true, if_pos hstop,
                  writeByte_of_lt hroom, ok_bind, EncodeCall.finish, pure_eq_ok]
                rfl, hmax, by simpa using hlen, ?_⟩
              rintro r' ⟨⟩
            · refine ⟨_, _, by
                simp only [encoderStep, h, encodeStop, dif_neg, not_false_eq_true, if_neg hstop,
                  ok_bind, EncodeCall.finish, pure_eq_ok]
                rfl, hmax, hlen, ?_⟩
              rintro r' ⟨⟩

/-- So does every run of it. -/
theorem EncoderSized.run (hM : 2 ≤ M) {s : Threads} (h : EncoderSized M s)
    (moves : List EncoderMove) :
    ∃ s' out, Transducer.runCall encoderStep s moves = .ok (s', out) ∧ EncoderSized M s' := by
  induction moves generalizing s with
  | nil => exact ⟨s, [], rfl, h⟩
  | cons move moves ih =>
      obtain ⟨s1, out1, hstep, h1⟩ := h.step hM move
      obtain ⟨s2, out2, hrest, h2⟩ := ih h1
      exact ⟨s2, _, Transducer.runCall_cons encoderStep hstep hrest, h2⟩

/-! ## the decoding thread -/

/-- Every run of the decoding thread returns, whatever it reads. -/
theorem DecoderInv.run {s : Threads} (h : DecoderInv D s.escaper)
    (moves : List (DecoderMove Bus)) :
    ∃ s' out, Transducer.runCall decoderStep s moves = .ok (s', out) ∧
      DecoderInv D s'.escaper := by
  induction moves generalizing s with
  | nil => exact ⟨s, [], rfl, h⟩
  | cons move moves ih =>
      cases move with
      | startDecoder =>
          obtain ⟨s2, out2, hrest, h2⟩ :=
            ih (s := ⟨s.escaper.startDecoder, s.running⟩) (decoderInv_startDecoder h)
          exact ⟨s2, _, Transducer.runCall_cons decoderStep rfl hrest, h2⟩
      | decodeByte busId byte =>
          obtain ⟨e1, hone, h1, -⟩ := decodeByte_simulates D busId s.escaper byte h
          obtain ⟨s2, out2, hrest, h2⟩ := ih (s := ⟨e1, s.running⟩) h1
          have hstep : decoderStep s (.decodeByte busId byte) = .ok (⟨e1, s.running⟩,
              ((receiveCalls D busId).step (abs D s.escaper) byte).2) := by
            rw [decoderStep, hone]
            rfl
          exact ⟨s2, _, Transducer.runCall_cons decoderStep hstep hrest, h2⟩

/-- Reading a stream byte by byte is `Escaper_decode_packet`. -/
theorem runCall_decoderStep (s : Threads) (busId : Bus) (stream : List UInt8) :
    Transducer.runCall decoderStep s (stream.map (.decodeByte busId)) =
      (decodePacket s.escaper busId stream).map fun r => (⟨r.1, s.running⟩, r.2) := by
  unfold decodePacket
  induction stream generalizing s with
  | nil => rfl
  | cons byte stream ih =>
      simp only [List.map_cons, Transducer.runCall, decoderStep]
      cases hone : decodeByte busId s.escaper byte with
      | error fault => rfl
      | ok r =>
          simp only [ok_bind, pure_eq_ok, ih]
          cases Transducer.runCall (decodeByte busId) r.1 stream <;> rfl

/-! ## both at once -/

/-- **Full duplex**: on an initialized escaper with room for two bytes in its
encode buffer, a thread that makes any calls of the encoder and a thread that
makes any of the decoder may be interleaved between any two iterations of
their loops.  No access leaves a buffer, each thread gets what it gets alone,
and the escaper ends as the two leave their halves. -/
theorem run_duplex (encodeBuffer decodeBuffer : List UInt8) (hM : 2 ≤ encodeBuffer.length)
    (moves : List (EncoderMove ⊕ DecoderMove Bus)) :
    ∃ s events encoded decoded,
      Transducer.runCall (Halves.either encoderStep decoderStep)
        ⟨initialized encodeBuffer decodeBuffer, none⟩ moves = .ok (s, events) ∧
      Transducer.runCall encoderStep ⟨initialized encodeBuffer decodeBuffer, none⟩
        (Halves.lefts moves) = .ok (encoded, Halves.lefts events) ∧
      Transducer.runCall decoderStep ⟨initialized encodeBuffer decodeBuffer, none⟩
        (Halves.rights moves) = .ok (decoded, Halves.rights events) ∧
      s = ⟨ofHalves encoded.escaper.encoderHalf decoded.escaper.decoderHalf, encoded.running⟩ := by
  have hsized : EncoderSized encodeBuffer.length
      ⟨initialized encodeBuffer decodeBuffer, none⟩ := ⟨rfl, rfl, fun _ h => by contradiction⟩
  obtain ⟨encoded, outs₁, hencoded, -⟩ := hsized.run hM (Halves.lefts moves)
  obtain ⟨decoded, outs₂, hdecoded, -⟩ := DecoderInv.run
    (s := ⟨initialized encodeBuffer decodeBuffer, none⟩)
    (decoderInv_init encodeBuffer decodeBuffer encodeBuffer.length) (Halves.rights moves)
  obtain ⟨events, hboth⟩ := Halves.exists_runCall_either onLeft_encoderStep onRight_decoderStep
    moves hencoded hdecoded
  obtain ⟨hleft, hright⟩ := Halves.runCall_of_runCall_either onLeft_encoderStep
    onRight_decoderStep moves hboth
  rw [hencoded, Except.ok.injEq, Prod.mk.injEq] at hleft
  rw [hdecoded, Except.ok.injEq, Prod.mk.injEq] at hright
  refine ⟨_, events, encoded, decoded, hboth, ?_, ?_, rfl⟩
  · rw [hencoded, hleft.2]
  · rw [hdecoded, hright.2]

/-- A packet of one byte encoded while another is decoded, with a byte that is
read in the middle of the encoder's loop. -/
theorem run_duplex_one :
    ∃ s events encoded decoded,
      Transducer.runCall (Halves.either encoderStep decoderStep)
        ⟨initialized [0, 0] [0], none⟩
        [.inl .startEncoder, .inr (.decodeByte () 0x00), .inl (.encodePacket [0xFE] 0),
          .inr (.decodeByte () 7), .inl .iterate, .inr (.decodeByte () 0xFF)] =
          .ok (s, events) ∧
      Transducer.runCall encoderStep ⟨initialized [0, 0] [0], none⟩
        [.startEncoder, .encodePacket [0xFE] 0, .iterate] = .ok (encoded, Halves.lefts events) ∧
      Transducer.runCall decoderStep ⟨initialized [0, 0] [0], none⟩
        [.decodeByte () 0x00, .decodeByte () 7, .decodeByte () 0xFF] =
          .ok (decoded, Halves.rights events) ∧
      s = ⟨ofHalves encoded.escaper.encoderHalf decoded.escaper.decoderHalf, encoded.running⟩ :=
  run_duplex [0, 0] [0] (by decide) [.inl .startEncoder, .inr (.decodeByte () 0x00),
    .inl (.encodePacket [0xFE] 0), .inr (.decodeByte () 7), .inl .iterate,
    .inr (.decodeByte () 0xFF)]

end TasteRuntime.Escaper
