import Mathlib.Data.List.TakeDrop
import TasteRuntime.Escaper.Encoder

/-!
# TasteRuntime.Escaper.Chunks

The calls of `Escaper_encode_packet` one by one.  They return the frame of the
data in slices of the buffer size and nothing after its end
(`encodeCalls_eq`).

A caller is told the end in two ways, by `*index == length` and by a returned
length of 0.  The first may come one call early: if a slice ends right before
the stop byte, the data is encoded and the stop byte is not
(`sendUntilIndex_iff`).
-/

namespace TasteRuntime.Escaper

open CMemory Stuffing

/-! ## slices of the frame -/

/-- A number of successive calls of `Escaper_encode_packet`, with the bytes
each of them returned. -/
def encodeCalls (data : List UInt8) (calls : Nat) (state : Escaper × Nat) :
    Exec ((Escaper × Nat) × List (List UInt8)) :=
  Emitter.repeatCall (encodeAndSend data) calls state

/-- An encoder that has written everything is finished, and behind the data. -/
theorem finished_of_pending_nil {M : Nat} {data : List UInt8} (hinv : EncoderInv M data (e, index))
    (h : pending data (e, index) = []) :
    e.encodeStarted = true ∧ e.encodeFinished = true ∧ index = data.length := by
  simp only [pending, List.append_eq_nil_iff] at h
  obtain ⟨hstart, hbytes, hstop⟩ := h
  refine ⟨by simpa using hstart, by simpa using hstop, ?_⟩
  have hidx : index ≤ data.length := hinv.index_le
  by_contra hne
  have hlt : index < data.length := by omega
  rw [pendingBytes_drop e.escape hlt] at hbytes
  contradiction

/-- Behind the frame a call returns 0 and changes nothing. -/
theorem encodePacket_of_pending_nil {M : Nat} {data : List UInt8}
    (hinv : EncoderInv M data (e, index)) (h : pending data (e, index) = []) :
    encodePacket e data index = .ok ⟨e, index, 0⟩ := by
  obtain ⟨hstarted, hfinished, rfl⟩ := finished_of_pending_nil hinv h
  rw [encodePacket, if_neg (not_not_intro hstarted), encodeLoop, dif_neg (Nat.lt_irrefl _),
    encodeStop, if_neg (fun hstop => hstop.2 hfinished)]
  rfl

/-- **Slices**: after `Escaper_start_encoder` the k-th call returns the k-th
slice of the frame; as many calls as the frame has slices return a length
other than 0, and every later call returns 0 and changes neither the index nor
the escaper. -/
theorem encodeCalls_eq (h : CanEncode M e) (data : List UInt8) (calls : Nat) :
    ∃ state pieces, encodeCalls data calls (e.startEncoder, 0) = .ok (state, pieces) ∧
      (pieces = (List.range calls).map fun k => ((alphabet.frame data).drop (k * M)).take M) ∧
      (pieces.filter (·.length ≠ 0)).length =
        min calls (((alphabet.frame data).length + M - 1) / M) ∧
      (((alphabet.frame data).length + M - 1) / M ≤ calls →
        encodePacket state.1 data state.2 = .ok ⟨state.1, state.2, 0⟩) := by
  have hpos : 0 < M := Nat.lt_of_lt_of_le (by decide) h.two_le
  obtain ⟨state, hrun, hinv, hrest⟩ := Emitter.repeatCall_eq (encodeAndSend_emits h.two_le data)
    calls (e.startEncoder, 0) (h.startEncoder data)
  rw [pending_startEncoder] at hrun hrest
  refine ⟨state, _, hrun, rfl, Emitter.length_filter_pieces hpos _ calls, fun hcalls => ?_⟩
  refine encodePacket_of_pending_nil hinv (hrest.trans (List.drop_of_length_le ?_))
  have hdiv := (Nat.div_le_iff_le_mul_add_pred hpos).mp hcalls
  rw [Nat.mul_comm] at hdiv
  omega

/-- Five bytes in three slices of two, then nothing. -/
theorem encodeCalls_eq_three :
    ∃ state pieces, encodeCalls [0xFE, 7] 4 ((init [0, 0] 2 [] 0).startEncoder, 0) =
        .ok (state, pieces) ∧
      (pieces = (List.range 4).map fun k => ((alphabet.frame [0xFE, 7]).drop (k * 2)).take 2) ∧
      (pieces.filter (·.length ≠ 0)).length =
        min 4 (((alphabet.frame [0xFE, 7]).length + 2 - 1) / 2) ∧
      (((alphabet.frame [0xFE, 7]).length + 2 - 1) / 2 ≤ 4 →
        encodePacket state.1 [0xFE, 7] state.2 = .ok ⟨state.1, state.2, 0⟩) :=
  encodeCalls_eq (M := 2) ⟨by decide, rfl, rfl⟩ [0xFE, 7] 4

/-! ## the two signals of the end -/

/-- A sender's loop that takes `*index == length` for the end:
`Escaper_start_encoder`, then `Escaper_encode_packet` up to the first call
that leaves the index behind the data. -/
def sendUntilIndex (self : Escaper) (data : List UInt8) :
    Exec (Escaper × List (List UInt8)) := do
  let sent ← Emitter.untilDone (encodeAndSend data) (fun state => state.2 = data.length)
    (2 * data.length + 3) (self.startEncoder, 0)
  match sent with
  | some (state, pieces) => pure (state.1, pieces)
  | none => throw .diverged

/-- The bytes of the data that need an escape. -/
def controlBytes (data : List UInt8) : Nat := data.countP fun b => alphabet.IsControl b

theorem length_stuff (data : List UInt8) :
    (alphabet.stuff data).length = data.length + controlBytes data := by
  induction data with
  | nil => rfl
  | cons b data ih =>
      rw [Alphabet.stuff_cons, List.length_append, ih, controlBytes, controlBytes, List.countP_cons,
        List.length_cons]
      by_cases hb : alphabet.IsControl b
      · rw [alphabet.unit_of_control hb, if_pos (by simpa using hb)]
        simp only [List.length_cons, List.length_nil]
        omega
      · rw [alphabet.unit_of_not_control hb, if_neg (by simpa using hb)]
        simp only [List.length_cons, List.length_nil]
        omega

theorem length_frame (data : List UInt8) :
    (alphabet.frame data).length = data.length + controlBytes data + 2 := by
  rw [Alphabet.frame, List.length_cons, List.length_append, length_stuff, List.length_singleton]

/-- A finished encoder is behind the data. -/
def FinishedBehind (data : List UInt8) (state : Escaper × Nat) : Prop :=
  state.1.encodeFinished = true → state.2 = data.length

/-- A call leaves the encoder started and, if finished, behind the data. -/
theorem ensures_finishedBehind (data : List UInt8) (state : Escaper × Nat)
    (h : FinishedBehind data state) :
    Ensures (encodeAndSend data state) fun result =>
      result.1.1.encodeStarted = true ∧ FinishedBehind data result.1 := by
  have hbyte (e : Escaper) (index : Nat) (buffer : List UInt8) (hlt : index < data.length)
      (_ : buffer.length = e.encodedPacketBuffer.length)
      (he : e.encodeStarted = true ∧ FinishedBehind data (e, index)) :
      e.encodeStarted = true ∧ FinishedBehind data ({ e with
          encodedPacketBuffer := buffer
          escape := (encodeByte e.escape data[index] index).escape },
        (encodeByte e.escape data[index] index).index) :=
    ⟨he.1, fun hfinished => absurd (he.2 hfinished) (Nat.ne_of_lt hlt)⟩
  have hloop (e : Escaper) (filled : Nat) (hstarted : e.encodeStarted = true)
      (he : FinishedBehind data (e, state.2)) :
      Ensures (encodeLoop e data state.2 filled) fun call =>
        call.self.encodeStarted = true ∧ FinishedBehind data (call.self, call.index) :=
    ensures_encodeLoop hbyte (fun _ _ _ he => ⟨he.1, fun _ => rfl⟩) e state.2 filled ⟨hstarted, he⟩
  refine Ensures.bind (P := fun call =>
      call.self.encodeStarted = true ∧ FinishedBehind data (call.self, call.index)) ?_
    fun call hcall => (ensures_true _).bind fun _ _ => ensures_ok hcall
  unfold encodePacket
  by_cases hstarted : state.1.encodeStarted
  · rw [if_neg (not_not_intro hstarted)]
    exact hloop _ 0 hstarted h
  · rw [if_pos hstarted]
    exact (ensures_true _).bind fun buffer _ => hloop _ 1 rfl h

/-- A started encoder is behind the data exactly if at most the stop byte is
left. -/
theorem length_pending_le_one_iff {M : Nat} {data : List UInt8}
    (hinv : EncoderInv M data (e, index)) (hstarted : e.encodeStarted = true)
    (hbehind : FinishedBehind data (e, index)) :
    index = data.length ↔ (pending data (e, index)).length ≤ 1 := by
  constructor
  · rintro rfl
    exact length_pending_le_one hstarted data
  · intro hle
    have hidx : index ≤ data.length := hinv.index_le
    by_contra hne
    have hlt : index < data.length := by omega
    have hfinished : e.encodeFinished = false := by
      cases hfin : e.encodeFinished with
      | false => rfl
      | true => exact absurd (hbehind hfin) hne
    simp only [pending, hfinished, pendingBytes_drop e.escape hlt, List.length_append,
      List.length_cons] at hle
    simp at hle
    omega

/-- A sender that stops at `*index == length` has sent whole slices of the
frame, up to the last byte before the stop byte. -/
theorem sendUntilIndex_eq (h : CanEncode M e) (data : List UInt8) :
    ∃ e' pieces, sendUntilIndex e data = .ok (e', pieces) ∧
      pieces.flatten = (alphabet.frame data).take
        (((alphabet.frame data).length - 1 + M - 1) / M * M) := by
  have hpos : 0 < M := Nat.lt_of_lt_of_le (by decide) h.two_le
  have hpend := pending_startEncoder e data
  have hlen := length_frame_le data
  have hframe := length_frame data
  have hemits : Emitter.Emits (encodeAndSend data) (pending data) M fun state =>
      EncoderInv M data state ∧ FinishedBehind data state := by
    intro state hinv
    obtain ⟨state', hcall, hinv', hrest⟩ := encodeAndSend_emits h.two_le data state hinv.1
    exact ⟨state', hcall, ⟨hinv', (ensures_finishedBehind data state hinv.2 _ hcall).2⟩, hrest⟩
  have hdone (state state' : Escaper × Nat) (piece : List UInt8)
      (hinv : EncoderInv M data state ∧ FinishedBehind data state)
      (hcall : encodeAndSend data state = .ok (state', piece)) :
      decide (state'.2 = data.length) = true ↔ (pending data state').length ≤ 1 := by
    obtain ⟨hstarted, hbehind⟩ := ensures_finishedBehind data state hinv.2 _ hcall
    obtain ⟨state'', hcall', hinv', -⟩ := hemits state hinv
    obtain ⟨rfl, -⟩ := Prod.mk.inj (Except.ok.inj (hcall.symm.trans hcall'))
    rw [decide_eq_true_iff]
    exact length_pending_le_one_iff hinv'.1 hstarted hbehind
  obtain ⟨state', pieces, hrun, hflatten⟩ := Emitter.untilDone_eq hemits hpos hdone
    (2 * data.length + 3) (e.startEncoder, 0)
    ⟨h.startEncoder data, fun hfinished => by simp [startEncoder] at hfinished⟩
    (by rw [hpend]; omega) (by rw [hpend]; omega)
  rw [hpend] at hflatten
  exact ⟨state'.1, pieces, by simp [sendUntilIndex, hrun], hflatten⟩

/-- **Signals**: a sender that stops at `*index == length` has sent what a
sender that stops at a returned 0 has sent, exactly if no slice of the frame
ends right before its stop byte. -/
theorem sendUntilIndex_iff (h : CanEncode M e) (data : List UInt8) :
    (∃ e₁ pieces₁ e₂ pieces₂, sendUntilIndex e data = .ok (e₁, pieces₁) ∧
      sendPacket e data = .ok (e₂, pieces₂) ∧ pieces₁.flatten = pieces₂.flatten) ↔
    ¬ M ∣ data.length + controlBytes data + 1 := by
  have hpos : 0 < M := Nat.lt_of_lt_of_le (by decide) h.two_le
  have hframe : (alphabet.frame data).length = data.length + controlBytes data + 1 + 1 :=
    length_frame data
  obtain ⟨e₁, pieces₁, hindex, hflatten₁⟩ := sendUntilIndex_eq h data
  obtain ⟨e₂, hzero, -⟩ := sendPacket_eq h data
  have hflatten₂ := Emitter.flatten_pieces hpos (alphabet.frame data)
  have hwhole : pieces₁.flatten = alphabet.frame data ↔
      ¬ M ∣ data.length + controlBytes data + 1 := by
    rw [hflatten₁, hframe, Nat.add_sub_cancel, List.take_eq_self_iff, hframe]
    exact Emitter.lt_ceil_mul_iff hpos _
  constructor
  · rintro ⟨_, _, _, _, h₁, h₂, heq⟩
    obtain ⟨-, rfl⟩ := Prod.mk.inj (Except.ok.inj (hindex.symm.trans h₁))
    obtain ⟨-, rfl⟩ := Prod.mk.inj (Except.ok.inj (hzero.symm.trans h₂))
    exact hwhole.mp (heq.trans hflatten₂)
  · intro hno
    exact ⟨e₁, pieces₁, e₂, _, hindex, hzero, (hwhole.mpr hno).trans hflatten₂.symm⟩

/-- Two data bytes in a buffer of two: the second call ends with the stop
byte, and both senders take two calls. -/
theorem sendUntilIndex_iff_two :
    (∃ e₁ pieces₁ e₂ pieces₂, sendUntilIndex (init [0, 0] 2 [] 0) [1, 2] = .ok (e₁, pieces₁) ∧
      sendPacket (init [0, 0] 2 [] 0) [1, 2] = .ok (e₂, pieces₂) ∧
      pieces₁.flatten = pieces₂.flatten) ↔ ¬ 2 ∣ 2 + controlBytes [1, 2] + 1 :=
  sendUntilIndex_iff (M := 2) ⟨by decide, rfl, rfl⟩ [1, 2]

/-- A data byte in a buffer of two: the first call fills it with start and
byte and leaves the index behind the data, and the stop byte is still to come. -/
theorem sendUntilIndex_two :
    (∃ e', sendUntilIndex (init [0, 0] 2 [] 0) [1] = .ok (e', [[0x00, 1]])) ∧
      (∃ e', sendPacket (init [0, 0] 2 [] 0) [1] = .ok (e', [[0x00, 1], [0xFF]])) ∧
      ([[0x00, 1]] : List (List UInt8)).flatten ≠ [[0x00, 1], [0xFF]].flatten := by
  refine ⟨⟨{ init [0, 0] 2 [] 0 with encodedPacketBuffer := [0x00, 1], encodeStarted := true }, ?_⟩,
    ⟨{ init [0, 0] 2 [] 0 with
      encodedPacketBuffer := [0xFF, 1], encodeStarted := true, encodeFinished := true }, ?_⟩, ?_⟩
  · decide +kernel
  · decide +kernel
  · decide

end TasteRuntime.Escaper
