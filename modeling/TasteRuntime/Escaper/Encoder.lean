import TasteRuntime.Escaper.Decoder

/-!
# TasteRuntime.Escaper.Encoder

`Escaper_encode_packet` is an emitter in the sense of
`TasteRuntime.Lib.Emitter`: `pending` lists the bytes still to come, each byte
the encoder writes is the first of them, and a call stops when its buffer is
full or nothing is left.  A sender that starts the encoder and calls it until
it returns 0 therefore sends exactly the frame of its data (`sendPacket_eq`),
for every buffer of at least two bytes.

Two bytes are needed by the first call only, which writes `START_BYTE` before
it looks at the buffer's size.
-/

namespace TasteRuntime.Escaper

open CMemory Stuffing

/-- The encoder's buffer has the announced size, and the caller's index is
inside the data. -/
structure EncoderInv (M : Nat) (data : List UInt8) (state : Escaper × Nat) : Prop where
  maxSize : state.1.encodedPacketMaxSize = M
  length_buffer : state.1.encodedPacketBuffer.length = M
  index_le : state.2 ≤ data.length

/-- What the loop still writes for the data from the index on. -/
def pendingBytes (escape : Bool) : List UInt8 → List UInt8
  | [] => []
  | b :: rest => if escape then b :: alphabet.stuff rest else alphabet.stuff (b :: rest)

/-- What the encoder still writes. -/
def pending (data : List UInt8) (state : Escaper × Nat) : List UInt8 :=
  (if state.1.encodeStarted then [] else [startByte]) ++
    (pendingBytes state.1.escape (data.drop state.2) ++
      if state.1.encodeFinished then [] else [stopByte])

@[simp] theorem pendingBytes_false (rest : List UInt8) :
    pendingBytes false rest = alphabet.stuff rest := by
  cases rest <;> rfl

@[simp] theorem pendingBytes_true_cons (b : UInt8) (rest : List UInt8) :
    pendingBytes true (b :: rest) = b :: alphabet.stuff rest := rfl

theorem encodeByte_of_control (hb : alphabet.IsControl b) (index : Nat) :
    encodeByte false b index = ⟨TasteRuntime.escapeByte, true, index⟩ := by
  have hc : b = startByte ∨ b = TasteRuntime.escapeByte ∨ b = stopByte := by
    simp only [Alphabet.IsControl, alphabet] at hb
    tauto
  simp [encodeByte, hc]

theorem encodeByte_of_not_control (hb : ¬ alphabet.IsControl b) (index : Nat) :
    encodeByte false b index = ⟨b, false, index + 1⟩ := by
  have hc : ¬ (b = startByte ∨ b = TasteRuntime.escapeByte ∨ b = stopByte) := by
    simp only [Alphabet.IsControl, alphabet] at hb
    tauto
  simp [encodeByte, hc]

/-- One iteration writes the first byte still to come. -/
theorem pendingBytes_drop (escape : Bool) {data : List UInt8} {index : Nat}
    (h : index < data.length) :
    pendingBytes escape (data.drop index) =
      (encodeByte escape data[index] index).byte ::
        pendingBytes (encodeByte escape data[index] index).escape
          (data.drop (encodeByte escape data[index] index).index) := by
  have hcons : data.drop index = data[index] :: data.drop (index + 1) :=
    List.drop_eq_getElem_cons h
  cases escape with
  | true =>
      rw [hcons, pendingBytes_true_cons]
      simp only [encodeByte, if_true, pendingBytes_false]
  | false =>
      by_cases hb : alphabet.IsControl data[index]
      · rw [encodeByte_of_control hb, hcons]
        simp only [pendingBytes_false, pendingBytes_true_cons, Alphabet.stuff_cons,
          alphabet.unit_of_control hb]
        rfl
      · rw [encodeByte_of_not_control hb, hcons]
        simp only [pendingBytes_false, Alphabet.stuff_cons, alphabet.unit_of_not_control hb]
        rfl

/-- The first byte still to come of a started encoder with data left. -/
theorem pending_of_lt {e : Escaper} (hstarted : e.encodeStarted = true) {data : List UInt8}
    {index : Nat} (h : index < data.length) (buffer : List UInt8) :
    pending data (e, index) =
      (encodeByte e.escape data[index] index).byte ::
        pending data ({ e with
            encodedPacketBuffer := buffer
            escape := (encodeByte e.escape data[index] index).escape },
          (encodeByte e.escape data[index] index).index) := by
  simp [pending, hstarted, pendingBytes_drop e.escape h]

/-! ## one call -/

/-- Behind the last data byte there is at most the stop byte to write. -/
theorem encodeStop_eq {M : Nat} {data : List UInt8} (e : Escaper) (filled : Nat)
    (hinv : EncoderInv M data (e, data.length)) (hstarted : e.encodeStarted = true)
    (hfilled : filled < M) :
    ∃ call, encodeStop e data data.length filled = .ok call ∧
      EncoderInv M data (call.self, call.index) ∧ call.length ≤ M ∧
      call.self.encodedPacketBuffer.take call.length =
        e.encodedPacketBuffer.take filled ++ pending data (e, data.length) ∧
      pending data (call.self, call.index) = [] := by
  obtain ⟨hmax, hlen, hidx⟩ := hinv
  simp only at hmax hlen hidx
  have hroom : filled < e.encodedPacketBuffer.length := by omega
  cases hfin : e.encodeFinished with
  | true =>
      refine ⟨⟨e, data.length, filled⟩, ?_, ⟨hmax, hlen, hidx⟩, Nat.le_of_lt hfilled, ?_, ?_⟩
      · simp [encodeStop, hfin]
      · simp [pending, hstarted, hfin, pendingBytes]
      · simp [pending, hstarted, hfin, pendingBytes]
  | false =>
      refine ⟨⟨{ e with
          encodedPacketBuffer := e.encodedPacketBuffer.set filled stopByte
          encodeFinished := true }, data.length, filled + 1⟩, ?_,
        ⟨hmax, by simpa using hlen, hidx⟩, hfilled, ?_, ?_⟩
      · simp [encodeStop, hfin, writeByte_of_lt hroom]
      · simp [pending, hstarted, hfin, pendingBytes, take_set_succ stopByte hroom]
      · simp [pending, hstarted, pendingBytes]

theorem length_pending_le_one {e : Escaper} (hstarted : e.encodeStarted = true)
    (data : List UInt8) : (pending data (e, data.length)).length ≤ 1 := by
  cases hfin : e.encodeFinished <;> simp [pending, hstarted, hfin, pendingBytes]

/-- From `filled` bytes on, the loop and what follows it fill the buffer with
the bytes still to come, as far as there is room. -/
theorem encodeLoop_eq {M : Nat} {data : List UInt8} (e : Escaper) (index filled : Nat)
    (hinv : EncoderInv M data (e, index)) (hstarted : e.encodeStarted = true)
    (hfilled : filled < M) :
    ∃ call, encodeLoop e data index filled = .ok call ∧
      EncoderInv M data (call.self, call.index) ∧ call.length ≤ M ∧
      call.self.encodedPacketBuffer.take call.length =
        e.encodedPacketBuffer.take filled ++ (pending data (e, index)).take (M - filled) ∧
      pending data (call.self, call.index) = (pending data (e, index)).drop (M - filled) := by
  induction hm : encodeMeasure e.escape data.length index using Nat.strongRecOn
    generalizing e index filled with
  | ind n ih =>
      subst hm
      obtain ⟨hmax, hlen, hidx⟩ := hinv
      simp only at hmax hlen hidx
      have hroom : filled < e.encodedPacketBuffer.length := by omega
      by_cases h : index < data.length
      · have hless := encodeMeasure_lt e.escape data[index] h
        have hpend := pending_of_lt hstarted h
        have hnext := encodeByte_index_le e.escape data[index] h
        rw [encodeLoop, dif_pos h]
        generalize encodeByte e.escape data[index] index = next at hless hpend hnext
        simp only [writeByte_of_lt hroom, ok_bind]
        have hinv' : EncoderInv M data ({ e with
            encodedPacketBuffer := e.encodedPacketBuffer.set filled next.byte
            escape := next.escape }, next.index) := ⟨hmax, by simpa using hlen, hnext⟩
        by_cases hfull : filled + 1 = e.encodedPacketMaxSize
        · rw [if_pos hfull]
          have hone : M - filled = 1 := by omega
          refine ⟨_, rfl, hinv', by simp only; omega, ?_, ?_⟩
          · rw [hone, hpend (e.encodedPacketBuffer.set filled next.byte)]
            simp [take_set_succ next.byte hroom]
          · rw [hone, hpend (e.encodedPacketBuffer.set filled next.byte)]
            rfl
        · rw [if_neg hfull]
          obtain ⟨call, hcall, hinv'', hle, htake, hdrop⟩ :=
            ih _ hless _ next.index (filled + 1) hinv' hstarted (by omega) rfl
          have hsucc : M - filled = (M - (filled + 1)) + 1 := by omega
          refine ⟨call, hcall, hinv'', hle, ?_, ?_⟩
          · rw [htake, hsucc, hpend (e.encodedPacketBuffer.set filled next.byte)]
            simp [take_set_succ next.byte hroom]
          · rw [hdrop, hsucc, hpend (e.encodedPacketBuffer.set filled next.byte)]
            rfl
      · have hend : index = data.length := by omega
        subst hend
        obtain ⟨call, hcall, hinv', hle, htake, hnil⟩ :=
          encodeStop_eq e filled ⟨hmax, hlen, hidx⟩ hstarted hfilled
        have hshort : (pending data (e, data.length)).length ≤ M - filled :=
          Nat.le_trans (length_pending_le_one hstarted data) (by omega)
        refine ⟨call, ?_, hinv', hle, ?_, ?_⟩
        · rw [encodeLoop, dif_neg h]
          exact hcall
        · rw [htake, List.take_of_length_le hshort]
        · rw [hnil, List.drop_of_length_le hshort]

/-- A call of `Escaper_encode_packet` fills the buffer with the first `M` bytes
still to come. -/
theorem encodePacket_eq {M : Nat} (hM : 2 ≤ M) {data : List UInt8} (e : Escaper) (index : Nat)
    (hinv : EncoderInv M data (e, index)) :
    ∃ call, encodePacket e data index = .ok call ∧
      EncoderInv M data (call.self, call.index) ∧ call.length ≤ M ∧
      call.self.encodedPacketBuffer.take call.length = (pending data (e, index)).take M ∧
      pending data (call.self, call.index) = (pending data (e, index)).drop M := by
  obtain ⟨hmax, hlen, hidx⟩ := hinv
  simp only at hmax hlen hidx
  cases hstarted : e.encodeStarted with
  | true =>
      obtain ⟨call, hcall, hinv', hle, htake, hdrop⟩ :=
        encodeLoop_eq e index 0 ⟨hmax, hlen, hidx⟩ hstarted (by omega)
      exact ⟨call, by simpa [encodePacket, hstarted] using hcall, hinv', hle,
        by simpa using htake, by simpa using hdrop⟩
  | false =>
      have hroom : 0 < e.encodedPacketBuffer.length := by omega
      -- the start byte goes first, and leaves room for the loop
      obtain ⟨call, hcall, hinv', hle, htake, hdrop⟩ :=
        encodeLoop_eq { e with
            encodedPacketBuffer := e.encodedPacketBuffer.set 0 startByte
            encodeStarted := true } index 1
          ⟨hmax, by simpa using hlen, hidx⟩ rfl (by omega)
      have hfirst : pending data (e, index) = startByte ::
          pending data ({ e with
            encodedPacketBuffer := e.encodedPacketBuffer.set 0 startByte
            encodeStarted := true }, index) := by
        simp [pending, hstarted]
      have hsucc : M = (M - 1) + 1 := by omega
      refine ⟨call, by simpa [encodePacket, hstarted, writeByte_of_lt hroom] using hcall,
        hinv', hle, ?_, ?_⟩
      · rw [htake, hfirst, hsucc, take_set_succ startByte hroom]
        simp
      · rw [hdrop, hfirst, hsucc]
        simp

/-- A call and the bytes its caller sends are a call of an emitter. -/
theorem encodeAndSend_emits {M : Nat} (hM : 2 ≤ M) (data : List UInt8) :
    Emitter.Emits (encodeAndSend data) (pending data) M (EncoderInv M data) := by
  rintro ⟨e, index⟩ hinv
  obtain ⟨call, hcall, hinv', hle, htake, hdrop⟩ := encodePacket_eq hM e index hinv
  have hslice : slice call.self.encodedPacketBuffer 0 call.length =
      .ok ((pending data (e, index)).take M) := by
    have hbuf : call.self.encodedPacketBuffer.length = M := hinv'.length_buffer
    rw [slice_of_le (by omega), List.drop_zero, htake]
  exact ⟨(call.self, call.index), by simp [encodeAndSend, hcall, hslice], hinv', hdrop⟩

/-! ## whole packets -/

theorem length_stuff_le (data : List UInt8) : (alphabet.stuff data).length ≤ 2 * data.length := by
  induction data with
  | nil => simp
  | cons b data ih =>
      have hunit : (alphabet.unit b).length ≤ 2 := by
        unfold Alphabet.unit
        split <;> simp
      simp only [Alphabet.stuff_cons, List.length_append, List.length_cons]
      omega

theorem length_frame_le (data : List UInt8) :
    (alphabet.frame data).length ≤ 2 * data.length + 2 := by
  have h := length_stuff_le data
  simp only [Alphabet.frame, List.length_cons, List.length_append, List.length_nil]
  omega

/-- The encode buffer has the announced size `M`, and `M` is enough. -/
structure CanEncode (M : Nat) (e : Escaper) : Prop where
  two_le : 2 ≤ M
  maxSize : e.encodedPacketMaxSize = M
  length_buffer : e.encodedPacketBuffer.length = M

/-- A started encoder still writes the whole frame. -/
theorem pending_startEncoder (e : Escaper) (data : List UInt8) :
    pending data (e.startEncoder, 0) = alphabet.frame data := by
  simp [pending, startEncoder, Alphabet.frame, alphabet]

theorem CanEncode.startEncoder (h : CanEncode M e) (data : List UInt8) :
    EncoderInv M data (e.startEncoder, 0) := ⟨h.maxSize, h.length_buffer, Nat.zero_le _⟩

/-- A sender's loop returns, and has sent the frame of its data in pieces of
`M` bytes. -/
theorem sendPacket_eq (h : CanEncode M e) (data : List UInt8) :
    ∃ e', sendPacket e data = .ok (e', Emitter.pieces M (alphabet.frame data)) ∧
      CanEncode M e' := by
  have hpend := pending_startEncoder e data
  have hinv := h.startEncoder data
  have hlen := length_frame_le data
  have hpos : 0 < M := Nat.lt_of_lt_of_le (by decide) h.two_le
  obtain ⟨s', hrun, hinv', -⟩ := Emitter.untilEmpty_eq (encodeAndSend_emits h.two_le data) hpos
    (2 * data.length + 3) (e.startEncoder, 0) hinv (by rw [hpend]; omega)
  refine ⟨s'.1, ?_, h.two_le, hinv'.maxSize, hinv'.length_buffer⟩
  simp [sendPacket, hrun, hpend]

/-- A series of packets is sent as the series of their frames. -/
theorem sendPackets_eq (h : CanEncode M e) (packets : List (List UInt8)) :
    ∃ e', sendPackets e packets = .ok (e', packets.map alphabet.frame) ∧ CanEncode M e' := by
  have hpos : 0 < M := Nat.lt_of_lt_of_le (by decide) h.two_le
  induction packets generalizing e with
  | nil => exact ⟨e, rfl, h⟩
  | cons data rest ih =>
      obtain ⟨e1, hsend, h1⟩ := sendPacket_eq h data
      obtain ⟨e2, hrest, h2⟩ := ih h1
      refine ⟨e2, ?_, h2⟩
      simp [sendPackets, hsend, hrest, Emitter.flatten_pieces hpos]

/-! ## what a call keeps -/

section

variable {data : List UInt8} {P : Escaper → Nat → Prop}

/-- **Loop rule**: what one iteration and the stop byte keep, the loop and what
follows it keep, if it returns. -/
theorem ensures_encodeLoop
    (hbyte : ∀ e index buffer, (h : index < data.length) →
      buffer.length = e.encodedPacketBuffer.length → P e index →
      P { e with
          encodedPacketBuffer := buffer
          escape := (encodeByte e.escape data[index] index).escape }
        (encodeByte e.escape data[index] index).index)
    (hstop : ∀ e buffer, buffer.length = e.encodedPacketBuffer.length → P e data.length →
      P { e with encodedPacketBuffer := buffer, encodeFinished := true } data.length)
    (e : Escaper) (index filled : Nat) (h : P e index) :
    Ensures (encodeLoop e data index filled) fun call => P call.self call.index := by
  induction hm : encodeMeasure e.escape data.length index using Nat.strongRecOn
    generalizing e index filled with
  | ind n ih =>
      subst hm
      rw [encodeLoop]
      by_cases hlt : index < data.length
      · rw [dif_pos hlt]
        refine (ensures_writeByte rfl).bind fun buffer hbuffer => ?_
        have hnext := hbyte e index buffer hlt hbuffer h
        split
        · exact ensures_ok hnext
        · exact ih _ (encodeMeasure_lt e.escape data[index] hlt) _ _ _ hnext rfl
      · rw [dif_neg hlt]
        unfold encodeStop
        by_cases hend : index = data.length ∧ ¬ e.encodeFinished
        · rw [if_pos hend]
          obtain ⟨rfl, -⟩ := hend
          exact (ensures_writeByte rfl).bind fun buffer hbuffer =>
            ensures_ok (hstop e buffer hbuffer h)
        · rw [if_neg hend]
          exact ensures_ok h

/-- The same for a whole call, which may write the start byte first. -/
theorem ensures_encodePacket
    (hstart : ∀ e index buffer, buffer.length = e.encodedPacketBuffer.length → P e index →
      P { e with encodedPacketBuffer := buffer, encodeStarted := true } index)
    (hbyte : ∀ e index buffer, (h : index < data.length) →
      buffer.length = e.encodedPacketBuffer.length → P e index →
      P { e with
          encodedPacketBuffer := buffer
          escape := (encodeByte e.escape data[index] index).escape }
        (encodeByte e.escape data[index] index).index)
    (hstop : ∀ e buffer, buffer.length = e.encodedPacketBuffer.length → P e data.length →
      P { e with encodedPacketBuffer := buffer, encodeFinished := true } data.length)
    (e : Escaper) (index : Nat) (h : P e index) :
    Ensures (encodePacket e data index) fun call => P call.self call.index := by
  unfold encodePacket
  split
  · exact (ensures_writeByte rfl).bind fun buffer hbuffer =>
      ensures_encodeLoop hbyte hstop _ _ _ (hstart e index buffer hbuffer h)
  · exact ensures_encodeLoop hbyte hstop _ _ _ h

end

/-! ## the decoder's half is left alone -/

/-- The fields the decoder uses are the same. -/
structure SameDecoder (e e' : Escaper) : Prop where
  parseState : e'.parseState = e.parseState
  buffer : e'.decodedPacketBuffer = e.decodedPacketBuffer
  maxSize : e'.decodedPacketMaxSize = e.decodedPacketMaxSize
  index : e'.decodedPacketBufferIndex = e.decodedPacketBufferIndex

/-- A call of `Escaper_encode_packet` does not touch them. -/
theorem sameDecoder_encodePacket (e : Escaper) (data : List UInt8) (index : Nat) :
    Ensures (encodePacket e data index) fun call => SameDecoder e call.self :=
  ensures_encodePacket (P := fun e' _ => SameDecoder e e') (fun _ _ _ _ h => ⟨h.1, h.2, h.3, h.4⟩)
    (fun _ _ _ _ _ h => ⟨h.1, h.2, h.3, h.4⟩) (fun _ _ _ h => ⟨h.1, h.2, h.3, h.4⟩) e index
    ⟨rfl, rfl, rfl, rfl⟩

end TasteRuntime.Escaper
