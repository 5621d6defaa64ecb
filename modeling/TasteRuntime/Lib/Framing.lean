import TasteRuntime.Lib.Stuffing

/-!
# TasteRuntime.Lib.Framing

Whole frames in front of a `Stuffing.receiver`, built on the unit lemmas of
`TasteRuntime.Lib.Stuffing`:

* `stateAfter_frame`, `length_output_frame` — from *any* state, one frame
  leaves the receiver idle with nothing kept, and delivers at most once;
* `output_frame_restart_iff` — a restarted receiver puts what it still keeps
  in front of the message;
* `output_stream` — frames among noise without a `start` are delivered
  exactly, in order;
* `output_frame_eq_nil_iff` — when a message that does not fit leaves
  nothing behind, and `length_lt_of_mem_output_body` — what it leaves is
  shorter than it.
-/

namespace Stuffing

variable {α : Type*} [DecidableEq α] (A : Alphabet α) {cap : Nat}

open Receiver

/-! ## delimiters -/

/-- A `start` delivers nothing and leaves the receiver between units, even
when it is swallowed by an escape. -/
theorem step_start (r : Receiver α cap) :
    Aligned (step A r A.start).1 ∧ (step A r A.start).2 = [] := by
  obtain ⟨phase, kept, hk⟩ := r
  cases phase with
  | idle => simpa [step] using aligned_collecting kept hk
  | collecting =>
      simpa [step, A.start_ne_stop, A.start_ne_escape, opened] using
        aligned_collecting [] (Nat.zero_le cap)
  | escaped => simpa [step] using aligned_keep _ _

/-- A `stop` between units leaves the receiver idle. -/
theorem step_stop {r : Receiver α cap} (h : Aligned r) :
    (step A r A.stop).1 = idle ∧ (step A r A.stop).2.length ≤ 1 := by
  rcases h.cases with rfl | ⟨kept, hk, rfl⟩
  · simp [step, idle, A.start_ne_stop.symm]
  · simp [step]

/-! ## the part of a frame after its start -/

/-- A message and the `stop` behind it. -/
def body (d : List α) : List α := A.stuff d ++ [A.stop]

theorem frame_eq (d : List α) : A.frame d = A.start :: body A d := rfl

theorem stateAfter_body {r : Receiver α cap} (h : Aligned r) (d : List α) :
    (receiver A cap).stateAfter r (body A d) = idle := by
  rw [body, Transducer.stateAfter_append]
  exact (step_stop A (aligned_stuff A h d)).1

theorem output_body {r : Receiver α cap} (h : Aligned r) (d : List α) :
    (receiver A cap).output r (body A d) =
      (step A ((receiver A cap).stateAfter r (A.stuff d)) A.stop).2 := by
  rw [body, Transducer.output_append, output_stuff A h]
  simp [receiver]

/-- The body of a message that fits behind what is kept. -/
theorem output_body_of_fits (kept : List α) (hk : kept.length ≤ cap) (d : List α)
    (hfit : kept.length + d.length ≤ cap) :
    (receiver A cap).output ⟨.collecting, kept, hk⟩ (body A d) = [kept ++ d] := by
  rw [output_body A (aligned_collecting _ _), stateAfter_stuff_of_fits A kept hk d hfit]
  simp [step]

/-- The body of a message that does not fit behind what is kept. -/
theorem output_body_of_overflow (kept : List α) (hk : kept.length ≤ cap) (d : List α)
    (hover : cap < kept.length + d.length) :
    (receiver A cap).output ⟨.collecting, kept, hk⟩ (body A d) =
      (receiver A cap).output idle (body A (d.drop (cap - kept.length + 1))) := by
  rw [output_body A (aligned_collecting _ _), output_body A aligned_idle,
    stateAfter_stuff_of_overflow A kept hk d hover]

/-- The body of a message in front of an idle receiver. -/
theorem output_body_idle (d : List α) :
    (receiver A cap).output idle (body A d) =
      match A.afterStart d with
      | none => []
      | some rest => (receiver A cap).output opened (body A rest) := by
  rw [output_body A aligned_idle, stateAfter_stuff_idle]
  cases A.afterStart d with
  | none => simp [step, idle, A.start_ne_stop.symm]
  | some rest => simp only [output_body A (aligned_collecting [] (Nat.zero_le cap)), opened]

/-- An idle receiver never delivers a message whole. -/
theorem length_lt_of_mem_output_body (d : List α) :
    ∀ m ∈ (receiver A cap).output idle (body A d), m.length < d.length := by
  induction hn : d.length using Nat.strongRecOn generalizing d with
  | ind n ih =>
      subst hn
      intro m hm
      rw [output_body_idle] at hm
      cases hrest : A.afterStart d with
      | none => simp [hrest] at hm
      | some rest =>
          have hlt := A.length_lt_of_afterStart hrest
          simp only [hrest, opened] at hm
          by_cases hfit : rest.length ≤ cap
          · rw [output_body_of_fits A [] _ rest (by simpa using hfit)] at hm
            simp only [List.nil_append, List.mem_singleton] at hm
            rw [hm]
            exact hlt
          · rw [output_body_of_overflow A [] _ rest (by simp; omega)] at hm
            have hdrop : (rest.drop (cap + 1)).length < d.length := by
              rw [List.length_drop]; omega
            exact Nat.lt_trans (ih _ hdrop _ rfl m hm) hdrop

/-! ## whole frames -/

/-- **Resynchronisation**: whatever came before, one frame leaves the
receiver idle with nothing kept. -/
theorem stateAfter_frame (r : Receiver α cap) (d : List α) :
    (receiver A cap).stateAfter r (A.frame d) = idle := by
  rw [frame_eq, Transducer.stateAfter_cons]
  exact stateAfter_body A (step_start A r).1 d

/-- Whatever came before, one frame delivers at most once. -/
theorem length_output_frame (r : Receiver α cap) (d : List α) :
    ((receiver A cap).output r (A.frame d)).length ≤ 1 := by
  rw [frame_eq, Transducer.output_cons]
  have hstart := step_start A r
  simp only [receiver, hstart.2, List.nil_append]
  change ((receiver A cap).output (step A r A.start).1 (body A d)).length ≤ 1
  rw [output_body A hstart.1]
  exact (step_stop A (aligned_stuff A hstart.1 d)).2

/-- A restarted receiver reads a frame behind what it still keeps. -/
theorem output_frame_restart (r : Receiver α cap) (d : List α) :
    (receiver A cap).output r.restart (A.frame d) =
      (receiver A cap).output ⟨.collecting, r.kept, r.kept_le⟩ (body A d) := by
  rw [frame_eq, Transducer.output_cons]
  simp [receiver, step, restart]

theorem output_frame_idle (d : List α) :
    (receiver A cap).output idle (A.frame d) = (receiver A cap).output opened (body A d) :=
  output_frame_restart A idle d

/-- A message that fits is delivered exactly. -/
theorem output_frame_of_fits (d : List α) (hfit : d.length ≤ cap) :
    (receiver A cap).output idle (A.frame d) = [d] := by
  rw [output_frame_idle, opened, output_body_of_fits A [] _ d (by simpa using hfit)]
  rfl

/-- A restarted receiver delivers a frame exactly if and only if it keeps
nothing. -/
theorem output_frame_restart_iff (r : Receiver α cap) (d : List α) (hfit : d.length ≤ cap) :
    (receiver A cap).output r.restart (A.frame d) = [d] ↔ r.kept = [] := by
  constructor
  · intro h
    rw [output_frame_restart] at h
    by_cases hroom : r.kept.length + d.length ≤ cap
    · rw [output_body_of_fits A r.kept r.kept_le d hroom] at h
      simpa using h
    · rw [output_body_of_overflow A r.kept r.kept_le d (by omega)] at h
      -- what comes out now is a proper suffix of the message
      have hlt := length_lt_of_mem_output_body A _ d (by rw [h]; exact List.mem_singleton_self d)
      rw [List.length_drop] at hlt
      omega
  · intro h
    have hidle : r.restart = idle := by
      obtain ⟨phase, kept, hk⟩ := r
      cases h
      rfl
    rw [hidle]
    exact output_frame_of_fits A d hfit

/-! ## streams of frames -/

/-- Noise, then each message's frame with the noise behind it. -/
def stream (noise : List α) (messages : List (List α × List α)) : List α :=
  noise ++ messages.flatMap fun m => A.frame m.1 ++ m.2

/-- Symbols other than `start` do not wake an idle receiver. -/
theorem noise_idle (noise : List α) (h : A.start ∉ noise) :
    (receiver A cap).stateAfter idle noise = idle ∧ (receiver A cap).output idle noise = [] := by
  induction noise with
  | nil => exact ⟨rfl, rfl⟩
  | cons b noise ih =>
      simp only [List.mem_cons, not_or] at h
      have hb : step A (idle : Receiver α cap) b = (idle, []) := by
        simp [step, idle, Ne.symm h.1]
      simpa [receiver, hb] using ih h.2

/-- **Stream round trip**: messages that fit, framed and put among noise
without a `start`, come out exactly and in order. -/
theorem output_stream (noise : List α) (messages : List (List α × List α))
    (hnoise : A.start ∉ noise) (hmessages : ∀ m ∈ messages, m.1.length ≤ cap ∧ A.start ∉ m.2) :
    (receiver A cap).output idle (stream A noise messages) = messages.map Prod.fst ∧
      (receiver A cap).stateAfter idle (stream A noise messages) = idle := by
  induction messages generalizing noise with
  | nil => simpa [stream] using (noise_idle A noise hnoise).symm
  | cons m messages ih =>
      obtain ⟨hfit, hm⟩ := hmessages m List.mem_cons_self
      obtain ⟨hout, hstate⟩ := ih m.2 hm fun m' h' => hmessages m' (List.mem_cons_of_mem m h')
      obtain ⟨hidle, hsilent⟩ :
          (receiver A cap).stateAfter idle noise = idle ∧
            (receiver A cap).output idle noise = [] := noise_idle A noise hnoise
      have hsplit : stream A noise (m :: messages) =
          noise ++ (A.frame m.1 ++ stream A m.2 messages) := by
        simp [stream]
      rw [hsplit, Transducer.output_append, Transducer.output_append, hidle, hsilent,
        Transducer.stateAfter_append, Transducer.stateAfter_append, hidle, stateAfter_frame,
        output_frame_of_fits A m.1 hfit, hout, hstate]
      simp

/-- Consecutive frames without noise. -/
theorem output_frames (messages : List (List α)) (hfit : ∀ d ∈ messages, d.length ≤ cap) :
    (receiver A cap).output idle (messages.flatMap A.frame) = messages ∧
      (receiver A cap).stateAfter idle (messages.flatMap A.frame) = idle := by
  have hfit' : ∀ m ∈ messages.map fun d => (d, ([] : List α)),
      m.1.length ≤ cap ∧ A.start ∉ m.2 := by simpa using hfit
  have h := output_stream A [] (messages.map fun d => (d, [])) (by simp) hfit'
  simpa [stream, List.flatMap_map, Function.comp_def] using h

/-! ## messages that do not fit -/

/-- From the first symbol a message has no room for, the receiver looks for a
`start`; it finds none, or one behind which there is again no room. -/
def droppedWhole (cap : Nat) (d : List α) : Bool :=
  match _hrest : A.afterStart (d.drop (cap + 1)) with
  | none => true
  | some rest => decide (cap < rest.length) && droppedWhole cap rest
termination_by d.length
decreasing_by
  have hlt := A.length_lt_of_afterStart _hrest
  rw [List.length_drop] at hlt
  omega

theorem droppedWhole_of_none {d : List α} (h : A.afterStart (d.drop (cap + 1)) = none) :
    droppedWhole A cap d = true := by
  rw [droppedWhole]
  split
  · rfl
  · next rest hrest => rw [h] at hrest; contradiction

theorem droppedWhole_of_some {d rest : List α}
    (h : A.afterStart (d.drop (cap + 1)) = some rest) :
    droppedWhole A cap d = (decide (cap < rest.length) && droppedWhole A cap rest) := by
  rw [droppedWhole]
  split
  · next hnone => rw [h] at hnone; contradiction
  · next rest' hrest =>
      rw [h, Option.some.injEq] at hrest
      rw [hrest]

/-- A message that does not fit leaves nothing behind exactly when it is
dropped whole. -/
theorem output_frame_eq_nil_iff (d : List α) (hover : cap < d.length) :
    (receiver A cap).output idle (A.frame d) = [] ↔ droppedWhole A cap d = true := by
  rw [output_frame_idle]
  induction hn : d.length using Nat.strongRecOn generalizing d with
  | ind n ih =>
      subst hn
      rw [opened, output_body_of_overflow A [] _ d (by simpa using hover), output_body_idle,
        List.length_nil, Nat.sub_zero]
      cases hrest : A.afterStart (d.drop (cap + 1)) with
      | none => simp [droppedWhole_of_none A hrest]
      | some rest =>
          have hlt := A.length_lt_of_afterStart hrest
          rw [List.length_drop] at hlt
          rw [droppedWhole_of_some A hrest]
          by_cases hfit : rest.length ≤ cap
          · have hnot : ¬ cap < rest.length := by omega
            simp [opened, output_body_of_fits A [] _ rest (by simpa using hfit), hnot]
          · have hover' : cap < rest.length := by omega
            simp [ih rest.length (by omega) rest hover' rfl, hover']

end Stuffing
