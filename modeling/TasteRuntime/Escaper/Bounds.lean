import TasteRuntime.Escaper.Stream

/-!
# TasteRuntime.Escaper.Bounds

The buffers of an escaper under any calls of its functions in any order.  The
decoder never leaves its buffer, whatever its size, and the encoder never
leaves its own exactly if it has room for two bytes: the start byte is written
before the size is looked at, and the stop byte may follow it (`run_bounds`).
-/

namespace TasteRuntime.Escaper

open CMemory

/-! ## runs -/

/-- A call of one of the functions of an escaper; data or a buffer and its
length are a list. -/
inductive Op (Bus : Type) where
  | startEncoder
  | encodePacket (data : List UInt8) (index : Nat)
  | startDecoder
  | decodePacket (busId : Bus) (buffer : List UInt8)

/-- One call. -/
def step (self : Escaper) : Op Bus → Exec (Escaper × List (ReceiveCall Bus))
  | .startEncoder => pure (self.startEncoder, [])
  | .encodePacket data index => do
      let call ← encodePacket self data index
      pure (call.self, [])
  | .startDecoder => pure (self.startDecoder, [])
  | .decodePacket busId buffer => decodePacket self busId buffer

/-- One call after the other, until one leaves a buffer. -/
def run (self : Escaper) (ops : List (Op Bus)) : Exec (Escaper × List (ReceiveCall Bus)) :=
  Transducer.runCall step self ops

/-! ## the invariant -/

/-- Both buffers have their announced sizes, and the decoder's index is inside
its own. -/
structure Sized (M D : Nat) (e : Escaper) : Prop where
  maxSize : e.encodedPacketMaxSize = M
  length_buffer : e.encodedPacketBuffer.length = M
  decoder : DecoderInv D e

/-- An escaper after `Escaper_init` with two buffers and their sizes. -/
def initialized (encodeBuffer decodeBuffer : List UInt8) : Escaper :=
  init encodeBuffer encodeBuffer.length decodeBuffer decodeBuffer.length

theorem sized_initialized (encodeBuffer decodeBuffer : List UInt8) :
    Sized encodeBuffer.length decodeBuffer.length (initialized encodeBuffer decodeBuffer) :=
  ⟨rfl, rfl, decoderInv_init encodeBuffer decodeBuffer _⟩

/-- The encoder's buffer and its size are the same. -/
structure SameEncodeBuffer (e e' : Escaper) : Prop where
  maxSize : e'.encodedPacketMaxSize = e.encodedPacketMaxSize
  buffer : e'.encodedPacketBuffer = e.encodedPacketBuffer

/-- The decoder's loop does not touch them. -/
theorem sameEncodeBuffer_decodeByte (busId : Bus) (e : Escaper) (byte : UInt8) :
    Ensures (decodeByte busId e byte) fun r => SameEncodeBuffer e r.1 := by
  unfold decodeByte
  split
  · split <;> exact ensures_ok ⟨rfl, rfl⟩
  · -- only the first and the last branch read or write the decode buffer
    repeat' split
    · exact (ensures_true _).bind fun _ _ => ensures_ok ⟨rfl, rfl⟩
    · exact ensures_ok ⟨rfl, rfl⟩
    · exact ensures_ok ⟨rfl, rfl⟩
    · exact ensures_ok ⟨rfl, rfl⟩
    · exact (ensures_true _).bind fun _ _ => ensures_ok ⟨rfl, rfl⟩
  · split
    · exact ensures_ok ⟨rfl, rfl⟩
    · exact (ensures_true _).bind fun _ _ => ensures_ok ⟨rfl, rfl⟩

theorem sameEncodeBuffer_decodePacket (e : Escaper) (busId : Bus) (buffer : List UInt8) :
    Ensures (decodePacket e busId buffer) fun r => SameEncodeBuffer e r.1 := by
  have hstep (e1 : Escaper) (byte : UInt8) (e2 : Escaper) (out : List (ReceiveCall Bus))
      (h : SameEncodeBuffer e e1) (_ : byte ∈ buffer)
      (hone : decodeByte busId e1 byte = .ok (e2, out)) : SameEncodeBuffer e e2 := by
    obtain ⟨hmax, hbuffer⟩ := sameEncodeBuffer_decodeByte busId e1 byte (e2, out) hone
    exact ⟨hmax.trans h.maxSize, hbuffer.trans h.buffer⟩
  rintro ⟨e', calls⟩ hrun
  exact Transducer.invariant_of_runCall (decodeByte busId) buffer hstep ⟨rfl, rfl⟩ hrun

/-- An encoder call keeps the sizes if it returns. -/
theorem ensures_encodePacket_sized (h : Sized M D e) (data : List UInt8) (index : Nat) :
    Ensures (encodePacket e data index) fun call => Sized M D call.self := by
  have hkeep {e' : Escaper} {buffer : List UInt8} (h : Sized M D e')
      (hbuffer : buffer.length = e'.encodedPacketBuffer.length) : buffer.length = M :=
    hbuffer.trans h.length_buffer
  exact ensures_encodePacket (P := fun e' _ => Sized M D e')
    (fun _ _ _ hbuffer h => ⟨h.1, hkeep h hbuffer, h.3.1, h.3.2, h.3.3⟩)
    (fun _ _ _ _ hbuffer h => ⟨h.1, hkeep h hbuffer, h.3.1, h.3.2, h.3.3⟩)
    (fun _ _ hbuffer h => ⟨h.1, hkeep h hbuffer, h.3.1, h.3.2, h.3.3⟩) e index h

/-- With room for two bytes an encoder call returns, for any data and index. -/
theorem exists_encodePacket (hM : 2 ≤ M) (h : Sized M D e) (data : List UInt8) (index : Nat) :
    ∃ call, encodePacket e data index = .ok call := by
  by_cases hidx : index ≤ data.length
  · obtain ⟨call, hcall, -⟩ := encodePacket_eq hM e index ⟨h.maxSize, h.length_buffer, hidx⟩
    exact ⟨call, hcall⟩
  · -- behind the data there is no byte to encode and no stop byte to write
    have hloop (e' : Escaper) (filled : Nat) :
        encodeLoop e' data index filled = .ok ⟨e', index, filled⟩ := by
      rw [encodeLoop, dif_neg (by omega), encodeStop, if_neg (fun hstop => hidx (by omega))]
      rfl
    have hroom : 0 < e.encodedPacketBuffer.length := by rw [h.length_buffer]; omega
    unfold encodePacket
    split
    · exact ⟨_, by rw [writeByte_of_lt hroom, ok_bind, hloop]⟩
    · exact ⟨_, hloop e 0⟩

/-- A call of the encoder. -/
def Op.IsEncode : Op Bus → Prop
  | .encodePacket _ _ => True
  | _ => False

/-- One call keeps the sizes, or it is an encoder call without room for two
bytes. -/
theorem Sized.step {e : Escaper} (h : Sized M D e) (op : Op Bus) :
    (∃ e' calls, Escaper.step e op = .ok (e', calls) ∧ Sized M D e') ∨
      ∃ fault, Escaper.step e op = .error fault ∧ op.IsEncode ∧ M < 2 := by
  cases op with
  | startEncoder => exact .inl ⟨_, _, rfl, h.1, h.2, h.3.1, h.3.2, h.3.3⟩
  | startDecoder => exact .inl ⟨_, _, rfl, h.1, h.2, decoderInv_startDecoder h.3⟩
  | decodePacket busId buffer =>
      obtain ⟨e', hrun, hinv, -⟩ := (decodeByte_simulates D busId).runCall e h.decoder buffer
      obtain ⟨hmax, hbuffer⟩ := sameEncodeBuffer_decodePacket e busId buffer _ hrun
      exact .inl ⟨e', _, hrun, hmax.trans h.maxSize,
        (congrArg List.length hbuffer).trans h.length_buffer, hinv⟩
  | encodePacket data index =>
      cases hcall : encodePacket e data index with
      | ok call =>
          refine .inl ⟨call.self, [], ?_, ensures_encodePacket_sized h data index call hcall⟩
          rw [Escaper.step, hcall]
          rfl
      | error fault =>
          refine .inr ⟨fault, by rw [Escaper.step, hcall]; rfl, trivial, ?_⟩
          by_contra hM
          obtain ⟨call, hok⟩ := exists_encodePacket (Nat.not_lt.mp hM) h data index
          rw [hcall] at hok
          contradiction

/-! ## runs of an initialized escaper -/

/-- With less than two bytes, encoding an empty packet writes behind the
buffer. -/
theorem encodePacket_writeOutOfBounds (h : encodeBuffer.length < 2) (decodeBuffer : List UInt8) :
    encodePacket (initialized encodeBuffer decodeBuffer) [] 0 =
      .error (.writeOutOfBounds encodeBuffer.length) := by
  unfold encodePacket
  rw [if_pos (by simp [initialized, init])]
  cases encodeBuffer with
  | nil => rw [writeByte_of_le (Nat.le_refl 0)]; rfl
  | cons byte rest =>
      -- the start byte takes the only place there is
      have hrest : rest = [] := by
        rw [List.length_cons] at h
        exact List.eq_nil_of_length_eq_zero (by omega)
      subst hrest
      rw [writeByte_of_lt (by simp [initialized, init]), ok_bind, encodeLoop, dif_neg (by simp),
        encodeStop, if_pos ⟨rfl, by simp [initialized, init]⟩,
        writeByte_of_le (by simp [initialized, init])]
      rfl

/-- Any sequence of calls is handled up to an encoder call without room for
two bytes. -/
theorem Sized.run {e : Escaper} (h : Sized M D e) (ops : List (Op Bus)) :
    ∃ handled rest e' calls, ops = handled ++ rest ∧ Escaper.run e handled = .ok (e', calls) ∧
      Sized M D e' ∧ (rest = [] ∨ ∃ op rest' fault, rest = op :: rest' ∧
        Escaper.step e' op = .error fault ∧ op.IsEncode ∧ M < 2) := by
  have hstep (_ : List (Op Bus)) (e : Escaper) (_ : List (ReceiveCall Bus)) (op : Op Bus)
      (h : Sized M D e) (_ : op ∈ ops) :
      (∃ e' calls, Escaper.step e op = .ok (e', calls) ∧ Sized M D e') ∨
        ∃ fault, Escaper.step e op = .error fault ∧ op.IsEncode ∧ M < 2 := h.step op
  exact Transducer.runCall_invariant Escaper.step ops hstep [] e [] h

/-- **Buffer bounds**: in any sequence of calls on an initialized escaper, no
access leaves a buffer and the decoder's index stays inside its own, up to an
encoder call that leaves a buffer of less than two bytes.  So no sequence
leaves a buffer exactly if the encode buffer has room for two. -/
theorem run_bounds (Bus : Type) (encodeBuffer decodeBuffer : List UInt8) :
    (∀ ops : List (Op Bus), ∃ handled rest e' calls, ops = handled ++ rest ∧
      run (initialized encodeBuffer decodeBuffer) handled = .ok (e', calls) ∧
      e'.decodedPacketBufferIndex ≤ decodeBuffer.length ∧
      (rest = [] ∨ ∃ op rest' fault, rest = op :: rest' ∧ step e' op = .error fault ∧
        op.IsEncode ∧ encodeBuffer.length < 2)) ∧
    ((∀ ops : List (Op Bus), ∃ r, run (initialized encodeBuffer decodeBuffer) ops = .ok r) ↔
      2 ≤ encodeBuffer.length) ∧
    (encodeBuffer.length < 2 →
      run (initialized encodeBuffer decodeBuffer) [(.encodePacket [] 0 : Op Bus)] =
        .error (.writeOutOfBounds encodeBuffer.length)) := by
  have hsized := sized_initialized encodeBuffer decodeBuffer
  have hfault (h : encodeBuffer.length < 2) :
      run (initialized encodeBuffer decodeBuffer) [(.encodePacket [] 0 : Op Bus)] =
        .error (.writeOutOfBounds encodeBuffer.length) := by
    simp only [run, Transducer.runCall, step, encodePacket_writeOutOfBounds h, error_bind]
  refine ⟨fun ops => ?_, ⟨fun hall => ?_, fun hM ops => ?_⟩, hfault⟩
  · obtain ⟨handled, rest, e', calls, hsplit, hrun, h, hrest⟩ := hsized.run ops
    exact ⟨handled, rest, e', calls, hsplit, hrun, h.decoder.index_le, hrest⟩
  · by_contra hM
    obtain ⟨r, hr⟩ := hall [.encodePacket [] 0]
    rw [hfault (by omega)] at hr
    contradiction
  · obtain ⟨handled, rest, e', calls, hsplit, hrun, -, hrest⟩ := hsized.run ops
    obtain rfl | ⟨-, -, -, -, -, -, hsmall⟩ := hrest
    · rw [List.append_nil] at hsplit
      exact ⟨(e', calls), by rw [hsplit]; exact hrun⟩
    · omega

end TasteRuntime.Escaper
