import TasteRuntime.Escaper

/-!
# TasteRuntime.Escaper.Decoder

`Escaper_decode_packet` refines the receiver of `TasteRuntime.Lib.Stuffing`:
the bytes of the decode buffer below its index are what the receiver keeps.

`decodeByte_simulates` says so for one byte.  From it follow, in
`TasteRuntime.Escaper.Stream`, that any series of calls from any state that
meets `DecoderInv` makes exactly the receive calls of the receiver on the
concatenated bytes (`decodePackets_eq`), and that `DecoderInv` holds in every
state reached from `Escaper_init` (`Reachable.decoderInv`).
-/

namespace TasteRuntime.Escaper

open CMemory Stuffing

/-- The escaper's control bytes. -/
def alphabet : Alphabet UInt8 where
  start := startByte
  stop := stopByte
  escape := TasteRuntime.escapeByte
  start_ne_stop := startByte_ne_stopByte
  start_ne_escape := startByte_ne_escapeByte
  stop_ne_escape := escapeByte_ne_stopByte.symm

/-- The decoder's buffer has the announced size, and its index is inside. -/
structure DecoderInv (D : Nat) (e : Escaper) : Prop where
  maxSize : e.decodedPacketMaxSize = D
  length_buffer : e.decodedPacketBuffer.length = D
  index_le : e.decodedPacketBufferIndex ≤ D

/-- The receiver's name for a parse state. -/
def phase : PacketParseState → Phase
  | .wait => .idle
  | .dataByte => .collecting
  | .escapeByte => .escaped

/-- The decoder as a receiver: what it keeps is the buffer below the index. -/
def abs (D : Nat) (self : Escaper) : Receiver UInt8 D where
  phase := phase self.parseState
  kept := (self.decodedPacketBuffer.take self.decodedPacketBufferIndex).take D
  kept_le := by rw [List.length_take]; exact Nat.min_le_left _ _

/-- The receiver on one bus. -/
def receiveCalls (D : Nat) (busId : Bus) :
    Transducer (Receiver UInt8 D) UInt8 (ReceiveCall Bus) :=
  (receiver alphabet D).mapOutput (ReceiveCall.mk busId)

theorem kept_abs (h : DecoderInv D e) :
    (abs D e).kept = e.decodedPacketBuffer.take e.decodedPacketBufferIndex := by
  have hle := h.index_le
  simp only [abs]
  rw [List.take_of_length_le]
  rw [List.length_take]
  omega

theorem length_kept_abs (h : DecoderInv D e) :
    (abs D e).kept.length = e.decodedPacketBufferIndex := by
  rw [kept_abs h, List.length_take, h.length_buffer]
  exact Nat.min_eq_left h.index_le

/-! ## one byte -/

/-- The escaper after a byte was stored or, without room, given up. -/
def afterStore (e : Escaper) (byte : UInt8) : Escaper :=
  if e.decodedPacketBufferIndex < e.decodedPacketMaxSize then
    { e with
      decodedPacketBuffer := e.decodedPacketBuffer.set e.decodedPacketBufferIndex byte
      decodedPacketBufferIndex := e.decodedPacketBufferIndex + 1
      parseState := .dataByte }
  else { e with decodedPacketBufferIndex := 0, parseState := .wait }

theorem decoderInv_afterStore (h : DecoderInv D e) (byte : UInt8) :
    DecoderInv D (afterStore e byte) := by
  obtain ⟨hmax, hlen, hidx⟩ := h
  unfold afterStore
  split
  · exact ⟨hmax, by simpa using hlen, by simp only; omega⟩
  · exact ⟨hmax, hlen, Nat.zero_le D⟩

/-- Storing a byte is what the receiver calls keeping it. -/
theorem abs_afterStore (h : DecoderInv D e) (byte : UInt8) :
    abs D (afterStore e byte) = (abs D e).keep byte := by
  have hlen := length_kept_abs h
  have hkept := kept_abs h
  have hinv := decoderInv_afterStore h byte
  by_cases hroom : e.decodedPacketBufferIndex < D
  · rw [Receiver.keep_of_lt (by omega)]
    have hafter : afterStore e byte = { e with
        decodedPacketBuffer := e.decodedPacketBuffer.set e.decodedPacketBufferIndex byte
        decodedPacketBufferIndex := e.decodedPacketBufferIndex + 1
        parseState := .dataByte } := if_pos (by rw [h.maxSize]; exact hroom)
    apply Receiver.ext
    · simp [hafter, abs, phase]
    · have hset := take_set_succ byte
        (show e.decodedPacketBufferIndex < e.decodedPacketBuffer.length by
          rw [h.length_buffer]; exact hroom)
      rw [kept_abs hinv, hafter]
      simp only [hkept, hset]
  · rw [Receiver.keep_of_le (by omega)]
    have hafter : afterStore e byte = { e with
        decodedPacketBufferIndex := 0, parseState := .wait } :=
      if_neg (by rw [h.maxSize]; exact hroom)
    simp [hafter, abs, phase, Receiver.idle]

/-- The store of the data-byte state never leaves the buffer. -/
theorem decodeByte_dataByte (h : DecoderInv D e) (hs : e.parseState = .dataByte)
    (h1 : byte ≠ stopByte) (h2 : byte ≠ TasteRuntime.escapeByte) (h3 : byte ≠ startByte) :
    decodeByte busId e byte = .ok (afterStore e byte, []) := by
  by_cases hroom : e.decodedPacketBufferIndex < e.decodedPacketMaxSize
  · have hwrite : writeByte e.decodedPacketBuffer e.decodedPacketBufferIndex byte =
        .ok (e.decodedPacketBuffer.set e.decodedPacketBufferIndex byte) :=
      writeByte_of_lt (by rw [h.length_buffer, ← h.maxSize]; exact hroom)
    simp [decodeByte, afterStore, hs, h1, h2, h3, hroom, hwrite]
  · simp [decodeByte, afterStore, hs, h1, h2, h3, hroom]

/-- The store of the escape state never leaves the buffer. -/
theorem decodeByte_escapeByte (h : DecoderInv D e) (hs : e.parseState = .escapeByte) :
    decodeByte busId e byte = .ok (afterStore e byte, []) := by
  by_cases hroom : e.decodedPacketBufferIndex < e.decodedPacketMaxSize
  · have hwrite : writeByte e.decodedPacketBuffer e.decodedPacketBufferIndex byte =
        .ok (e.decodedPacketBuffer.set e.decodedPacketBufferIndex byte) :=
      writeByte_of_lt (by rw [h.length_buffer, ← h.maxSize]; exact hroom)
    simp [decodeByte, afterStore, hs, hroom, hwrite]
  · simp [decodeByte, afterStore, hs, hroom]

/-- One iteration of the decoder's loop is one step of the receiver. -/
theorem decodeByte_simulates (D : Nat) (busId : Bus) :
    Transducer.Simulates (decodeByte busId) (receiveCalls D busId) (abs D) (DecoderInv D) := by
  intro e byte h
  have hstep : (receiveCalls D busId).step (abs D e) byte =
      ((Receiver.step alphabet (abs D e) byte).1,
        (Receiver.step alphabet (abs D e) byte).2.map (ReceiveCall.mk busId)) := rfl
  rw [hstep]
  have hphase : (abs D e).phase = phase e.parseState := rfl
  cases hs : e.parseState with
  | wait =>
      by_cases hb : byte = startByte
      · refine ⟨{ e with parseState := .dataByte }, ?_, ⟨h.1, h.2, h.3⟩, ?_⟩
        · simp [decodeByte, Receiver.step, hphase, hs, phase, hb, alphabet]
        · simp [Receiver.step, hs, phase, hb, alphabet, abs]
      · refine ⟨e, ?_, h, ?_⟩
        · simp [decodeByte, Receiver.step, hphase, hs, phase, hb, alphabet]
        · simp [Receiver.step, hphase, hs, phase, hb, alphabet]
  | dataByte =>
      by_cases h1 : byte = stopByte
      · have hread : slice e.decodedPacketBuffer 0 e.decodedPacketBufferIndex =
            .ok (abs D e).kept := by
          rw [slice_of_le (by rw [Nat.zero_add, h.length_buffer]; exact h.index_le), kept_abs h,
            List.drop_zero]
        refine ⟨{ e with decodedPacketBufferIndex := 0, parseState := .wait }, ?_,
          ⟨h.1, h.2, Nat.zero_le D⟩, ?_⟩
        · simp [decodeByte, Receiver.step, hphase, hs, phase, h1, hread, alphabet]
        · simp [Receiver.step, hs, phase, h1, alphabet, abs, Receiver.idle]
      by_cases h2 : byte = TasteRuntime.escapeByte
      · refine ⟨{ e with parseState := .escapeByte }, ?_, ⟨h.1, h.2, h.3⟩, ?_⟩
        · simp [decodeByte, Receiver.step, hphase, hs, phase, h2, alphabet]
        · simp [Receiver.step, hs, phase, h2, alphabet, abs]
      by_cases h3 : byte = startByte
      · refine ⟨{ e with decodedPacketBufferIndex := 0, parseState := .dataByte }, ?_,
          ⟨h.1, h.2, Nat.zero_le D⟩, ?_⟩
        · simp [decodeByte, Receiver.step, hphase, hs, phase, h3, alphabet]
        · simp [Receiver.step, hs, phase, h3, alphabet, abs, Receiver.opened]
      refine ⟨afterStore e byte, ?_, decoderInv_afterStore h byte, ?_⟩
      · simp [decodeByte_dataByte h hs h1 h2 h3, Receiver.step, hphase, hs, phase, h1, h2, h3,
          alphabet]
      · simp [abs_afterStore h, Receiver.step, hphase, hs, phase, h1, h2, h3, alphabet]
  | escapeByte =>
      refine ⟨afterStore e byte, ?_, decoderInv_afterStore h byte, ?_⟩
      · simp [decodeByte_escapeByte h hs, Receiver.step, hphase, hs, phase]
      · simp [abs_afterStore h, Receiver.step, hphase, hs, phase]

end TasteRuntime.Escaper
