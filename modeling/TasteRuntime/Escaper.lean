import TasteRuntime.Lib.CMemory
import TasteRuntime.Lib.Framing
import TasteRuntime.Lib.Emitter

/-!
# TasteRuntime.Escaper

The escaping mode (`Escaper.c`): an encoder that puts a packet between
`START_BYTE` and `STOP_BYTE` with `ESCAPE_BYTE` in front of each control byte,
and a decoder that takes packets back out of a byte stream.

Both are resumable.  The encoder fills a buffer of `encodedPacketMaxSize`
bytes per call and keeps three flags between calls, next to the caller's index
into the data.  The decoder reads whatever bytes a driver hands it and keeps
its parse state, its buffer and an index into it.

A pointer passed together with a length is the list of the bytes it spans;
`busId` is passed on to the receive function and not looked at.
-/

namespace TasteRuntime

open CMemory

/-- `START_BYTE` -/
def startByte : UInt8 := 0x00

/-- `STOP_BYTE` -/
def stopByte : UInt8 := 0xFF

/-- `ESCAPE_BYTE` -/
def escapeByte : UInt8 := 0xFE

@[simp] theorem startByte_ne_stopByte : startByte ≠ stopByte := by decide

@[simp] theorem startByte_ne_escapeByte : startByte ≠ escapeByte := by decide

@[simp] theorem escapeByte_ne_stopByte : escapeByte ≠ stopByte := by decide

/-- `Escaper_PacketParseState` -/
inductive PacketParseState where
  | wait
  | dataByte
  | escapeByte
  deriving DecidableEq, Repr

/-- The structure `Escaper`; the two buffer pointers are the buffers. -/
structure Escaper where
  parseState : PacketParseState
  encodeStarted : Bool
  escape : Bool
  encodeFinished : Bool
  encodedPacketBuffer : List UInt8
  encodedPacketMaxSize : Nat
  decodedPacketBuffer : List UInt8
  decodedPacketMaxSize : Nat
  decodedPacketBufferIndex : Nat
  deriving DecidableEq, Repr

namespace Escaper

/-- `Escaper_init` -/
def init (encodedPacketBuffer : List UInt8) (encodedPacketBufferSize : Nat)
    (decodedPacketBuffer : List UInt8) (decodedPacketBufferSize : Nat) : Escaper where
  parseState := .wait
  encodeStarted := false
  escape := false
  encodeFinished := false
  encodedPacketBuffer := encodedPacketBuffer
  encodedPacketMaxSize := encodedPacketBufferSize
  decodedPacketBuffer := decodedPacketBuffer
  decodedPacketMaxSize := decodedPacketBufferSize
  decodedPacketBufferIndex := 0

/-! ## decoder -/

/-- A call of the receive function: the bus and the bytes of the packet. -/
structure ReceiveCall (Bus : Type) where
  busId : Bus
  packet : List UInt8
  deriving DecidableEq, Repr

/-- `Escaper_start_decoder` -/
def startDecoder (self : Escaper) : Escaper := { self with parseState := .wait }

/-- One iteration of the loop of `Escaper_decode_packet`. -/
def decodeByte (busId : Bus) (self : Escaper) (byte : UInt8) :
    Exec (Escaper × List (ReceiveCall Bus)) :=
  match self.parseState with
  | .wait =>
      if byte = startByte then pure ({ self with parseState := .dataByte }, [])
      else pure (self, [])
  | .dataByte =>
      if byte = stopByte then do
        let packet ← slice self.decodedPacketBuffer 0 self.decodedPacketBufferIndex
        pure ({ self with decodedPacketBufferIndex := 0, parseState := .wait }, [⟨busId, packet⟩])
      else if byte = TasteRuntime.escapeByte then
        pure ({ self with parseState := .escapeByte }, [])
      else if byte = startByte then
        pure ({ self with decodedPacketBufferIndex := 0, parseState := .dataByte }, [])
      else if self.decodedPacketBufferIndex ≥ self.decodedPacketMaxSize then
        -- buffer overflow prevented: back to searching for a start byte
        pure ({ self with decodedPacketBufferIndex := 0, parseState := .wait }, [])
      else do
        let buffer ← writeByte self.decodedPacketBuffer self.decodedPacketBufferIndex byte
        pure ({ self with
          decodedPacketBuffer := buffer
          decodedPacketBufferIndex := self.decodedPacketBufferIndex + 1 }, [])
  | .escapeByte =>
      if self.decodedPacketBufferIndex ≥ self.decodedPacketMaxSize then
        -- buffer overflow prevented: back to searching for a start byte
        pure ({ self with decodedPacketBufferIndex := 0, parseState := .wait }, [])
      else do
        let buffer ← writeByte self.decodedPacketBuffer self.decodedPacketBufferIndex byte
        pure ({ self with
          decodedPacketBuffer := buffer
          decodedPacketBufferIndex := self.decodedPacketBufferIndex + 1
          parseState := .dataByte }, [])

/-- `Escaper_decode_packet`: the bytes of `buffer` in order. -/
def decodePacket (self : Escaper) (busId : Bus) (buffer : List UInt8) :
    Exec (Escaper × List (ReceiveCall Bus)) :=
  Transducer.runCall (decodeByte busId) self buffer

/-- A series of `Escaper_decode_packet` calls. -/
def decodePackets (self : Escaper) (busId : Bus) (buffers : List (List UInt8)) :
    Exec (Escaper × List (ReceiveCall Bus)) :=
  Transducer.runCalls (decodeByte busId) self buffers

/-! ## encoder -/

/-- `Escaper_start_encoder` -/
def startEncoder (self : Escaper) : Escaper :=
  { self with encodeFinished := false, escape := false, encodeStarted := false }

/-- What one iteration of the loop of `Escaper_encode_packet` does: the byte
it writes, `m_escape` and `*index` after it. -/
structure EncodedByte where
  byte : UInt8
  escape : Bool
  index : Nat

/-- The branches of that loop for the data byte at `index`; the three branches
for control bytes have one body. -/
def encodeByte (escape : Bool) (byte : UInt8) (index : Nat) : EncodedByte :=
  if escape then ⟨byte, false, index + 1⟩
  else if byte = startByte ∨ byte = TasteRuntime.escapeByte ∨ byte = stopByte then
    ⟨TasteRuntime.escapeByte, true, index⟩
  else ⟨byte, escape, index + 1⟩

theorem encodeByte_index_le (escape : Bool) (byte : UInt8) {length index : Nat}
    (h : index < length) : (encodeByte escape byte index).index ≤ length := by
  simp only [encodeByte]
  split
  · exact h
  · split
    · exact Nat.le_of_lt h
    · exact h

/-- Iterations left: two for a byte that may still need its escape. -/
def encodeMeasure (escape : Bool) (length index : Nat) : Nat :=
  2 * (length - index) + if escape then 0 else 1

theorem encodeMeasure_lt (escape : Bool) (byte : UInt8) {length index : Nat}
    (h : index < length) :
    encodeMeasure (encodeByte escape byte index).escape length
        (encodeByte escape byte index).index < encodeMeasure escape length index := by
  cases escape with
  | true => simp [encodeByte, encodeMeasure]; omega
  | false =>
      by_cases hc : byte = startByte ∨ byte = TasteRuntime.escapeByte ∨ byte = stopByte
      · simp [encodeByte, encodeMeasure, hc]
      · simp [encodeByte, encodeMeasure, hc]; omega

/-- The result of a call of `Escaper_encode_packet`: the escaper, `*index` and
the returned length. -/
structure EncodeCall where
  self : Escaper
  index : Nat
  length : Nat

/-- The part of `Escaper_encode_packet` after its loop; `filled` is
`encoded_packet_buffer_index`. -/
def encodeStop (self : Escaper) (data : List UInt8) (index filled : Nat) : Exec EncodeCall :=
  if index = data.length ∧ ¬ self.encodeFinished then do
    let buffer ← writeByte self.encodedPacketBuffer filled stopByte
    pure ⟨{ self with encodedPacketBuffer := buffer, encodeFinished := true }, index, filled + 1⟩
  else pure ⟨self, index, filled⟩

/-- The loop of `Escaper_encode_packet` and what follows it. -/
def encodeLoop (self : Escaper) (data : List UInt8) (index filled : Nat) : Exec EncodeCall :=
  if h : index < data.length then do
    let next := encodeByte self.escape data[index] index
    let buffer ← writeByte self.encodedPacketBuffer filled next.byte
    let self' := { self with encodedPacketBuffer := buffer, escape := next.escape }
    if filled + 1 = self.encodedPacketMaxSize then pure ⟨self', next.index, filled + 1⟩
    else encodeLoop self' data next.index (filled + 1)
  else encodeStop self data index filled
termination_by encodeMeasure self.escape data.length index
decreasing_by exact encodeMeasure_lt self.escape data[index] h

/-- `Escaper_encode_packet` -/
def encodePacket (self : Escaper) (data : List UInt8) (index : Nat) : Exec EncodeCall :=
  if ¬ self.encodeStarted then do
    let buffer ← writeByte self.encodedPacketBuffer 0 startByte
    encodeLoop { self with encodedPacketBuffer := buffer, encodeStarted := true } data index 1
  else encodeLoop self data index 0

/-- A call of `Escaper_encode_packet` and the bytes its caller then sends, the
first ones of the buffer, as many as were returned. -/
def encodeAndSend (data : List UInt8) (state : Escaper × Nat) :
    Exec ((Escaper × Nat) × List UInt8) := do
  let call ← encodePacket state.1 data state.2
  let piece ← slice call.self.encodedPacketBuffer 0 call.length
  pure ((call.self, call.index), piece)

/-- A driver's sending loop: `Escaper_start_encoder`, then
`Escaper_encode_packet` until it returns 0.  A frame has at most
`2 * data.length + 2` bytes and each call but the last sends one of them. -/
def sendPacket (self : Escaper) (data : List UInt8) : Exec (Escaper × List (List UInt8)) := do
  let sent ← Emitter.untilEmpty (encodeAndSend data) (2 * data.length + 3) (self.startEncoder, 0)
  match sent with
  | some (state, pieces) => pure (state.1, pieces)
  | none => throw .diverged

/-- The frames a driver sends for a series of packets, the pieces of each put
together again. -/
def sendPackets (self : Escaper) : List (List UInt8) → Exec (Escaper × List (List UInt8))
  | [] => pure (self, [])
  | data :: rest => do
      let (self', pieces) ← sendPacket self data
      let (self'', frames) ← sendPackets self' rest
      pure (self'', pieces.flatten :: frames)

/-- The states reached from `start` by the operations of an escaper. -/
inductive Reachable (start : Escaper) : Escaper → Prop where
  | refl : Reachable start start
  | startDecoder : Reachable start e → Reachable start e.startDecoder
  | decodePacket : Reachable start e → e.decodePacket busId buffer = .ok (e', calls) →
      Reachable start e'
  | startEncoder : Reachable start e → Reachable start e.startEncoder
  | encodePacket : Reachable start e → e.encodePacket data index = .ok call →
      Reachable start call.self

end Escaper

end TasteRuntime
