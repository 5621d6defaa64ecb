import TasteRuntime.Lib.Transducer

/-!
# TasteRuntime.Lib.Stuffing

Byte stuffing over an arbitrary alphabet with three distinct control symbols:

```
frame d = start ++ stuff d ++ stop
```

where `stuff` puts an `escape` in front of each data symbol that is itself a
control symbol, and a receiver that takes frames back out of a stream with
room for `cap` symbols.

The receiver is a `Transducer`.  It is never told where a frame begins, keeps
at most `cap` symbols (a field of its state), and gives up a message that does
not fit by going back to looking for a `start`.  The facts everything else is
assembled from are about one *unit*, the one or two symbols that stand for a
data symbol:

* `stateAfter_stuff_of_fits` — a message that fits is kept as it is;
* `stateAfter_stuff_of_overflow` — one symbol too many, and the rest of the
  message is read by a receiver that waits for a `start`;
* `aligned_stuff` — between units the receiver is never in the middle of an
  escape, whatever it did before.
-/

namespace Stuffing

/-- Three distinct control symbols. -/
structure Alphabet (α : Type*) where
  start : α
  stop : α
  escape : α
  start_ne_stop : start ≠ stop
  start_ne_escape : start ≠ escape
  stop_ne_escape : stop ≠ escape

namespace Alphabet

variable {α : Type*} (A : Alphabet α)

/-- The symbols that need an escape in front of them. -/
def IsControl (b : α) : Prop := b = A.start ∨ b = A.stop ∨ b = A.escape

theorem ne_of_not_control {b : α} (h : ¬ A.IsControl b) :
    b ≠ A.start ∧ b ≠ A.stop ∧ b ≠ A.escape := by
  simp only [IsControl, not_or] at h
  exact h

variable [DecidableEq α]

instance (b : α) : Decidable (A.IsControl b) :=
  inferInstanceAs (Decidable (b = A.start ∨ b = A.stop ∨ b = A.escape))

/-- The symbols that stand for one data symbol. -/
def unit (b : α) : List α := if A.IsControl b then [A.escape, b] else [b]

/-- The symbols that stand for a message. -/
def stuff (d : List α) : List α := d.flatMap A.unit

/-- A message between its delimiters. -/
def frame (d : List α) : List α := A.start :: (A.stuff d ++ [A.stop])

@[simp] theorem stuff_nil : A.stuff [] = [] := rfl

@[simp] theorem stuff_cons (b : α) (d : List α) : A.stuff (b :: d) = A.unit b ++ A.stuff d := rfl

theorem unit_of_control {b : α} (h : A.IsControl b) : A.unit b = [A.escape, b] := if_pos h

theorem unit_of_not_control {b : α} (h : ¬ A.IsControl b) : A.unit b = [b] := if_neg h

theorem length_unit_le (b : α) : (A.unit b).length ≤ 2 := by
  unfold unit
  split <;> simp

theorem length_stuff_le (d : List α) : (A.stuff d).length ≤ 2 * d.length := by
  induction d with
  | nil => exact Nat.le_refl 0
  | cons b d ih =>
      have hunit := A.length_unit_le b
      rw [stuff_cons, List.length_append, List.length_cons]
      omega

/-- A frame is at most twice as long as its message, apart from the two
delimiters. -/
theorem length_frame_le (d : List α) : (A.frame d).length ≤ 2 * d.length + 2 := by
  have hstuff := A.length_stuff_le d
  simp only [frame, List.length_cons, List.length_append, List.length_nil]
  omega

/-- What follows the first `start` of a message, if it has one. -/
def afterStart : List α → Option (List α)
  | [] => none
  | b :: d => if b = A.start then some d else afterStart d

theorem length_lt_of_afterStart {d rest : List α} (h : A.afterStart d = some rest) :
    rest.length < d.length := by
  induction d with
  | nil => simp [afterStart] at h
  | cons b d ih =>
      by_cases hb : b = A.start
      · simp only [afterStart, if_pos hb, Option.some.injEq] at h
        simp [h]
      · simp only [afterStart, if_neg hb] at h
        have hlt := ih h
        simp only [List.length_cons]
        omega

end Alphabet

/-! ## the receiver -/

/-- Where a receiver is in its stream. -/
inductive Phase where
  | idle
  | collecting
  | escaped
  deriving DecidableEq, Repr

/-- A receiver with room for `cap` symbols. -/
@[ext] structure Receiver (α : Type*) (cap : Nat) where
  phase : Phase
  kept : List α
  kept_le : kept.length ≤ cap

namespace Receiver

variable {α : Type*} {cap : Nat}

/-- Looking for a `start`, with nothing kept. -/
def idle : Receiver α cap := ⟨.idle, [], Nat.zero_le _⟩

/-- Just past a `start`. -/
def opened : Receiver α cap := ⟨.collecting, [], Nat.zero_le _⟩

/-- Looking for a `start` again, what was kept being left where it is. -/
def restart (r : Receiver α cap) : Receiver α cap := ⟨.idle, r.kept, r.kept_le⟩

/-- Keep one more symbol, or give the message up when there is no room. -/
def keep (r : Receiver α cap) (b : α) : Receiver α cap :=
  if h : r.kept.length < cap then
    ⟨.collecting, r.kept ++ [b], by rw [List.length_append]; exact h⟩
  else idle

theorem keep_of_lt {r : Receiver α cap} {b : α} (h : r.kept.length < cap) :
    r.keep b = ⟨.collecting, r.kept ++ [b], by rw [List.length_append]; exact h⟩ := dif_pos h

theorem keep_of_le {r : Receiver α cap} {b : α} (h : cap ≤ r.kept.length) : r.keep b = idle :=
  dif_neg (Nat.not_lt.mpr h)

/-- A receiver between units: not in an escape, and idle with nothing kept. -/
def Aligned (r : Receiver α cap) : Prop := r.phase ≠ .escaped ∧ (r.phase = .idle → r.kept = [])

/-- An aligned receiver is the idle one or a collecting one. -/
theorem Aligned.cases {r : Receiver α cap} (h : Aligned r) :
    r = idle ∨ ∃ kept hk, r = ⟨.collecting, kept, hk⟩ := by
  obtain ⟨phase, kept, hk⟩ := r
  obtain ⟨hne, hidle⟩ := h
  cases phase with
  | idle =>
      have hkept : kept = [] := hidle rfl
      subst hkept
      exact .inl rfl
  | collecting => exact .inr ⟨kept, hk, rfl⟩
  | escaped => exact absurd rfl hne

theorem aligned_idle : Aligned (idle : Receiver α cap) := ⟨by simp [idle], fun _ => rfl⟩

theorem aligned_collecting (kept : List α) (hk : kept.length ≤ cap) :
    Aligned (⟨.collecting, kept, hk⟩ : Receiver α cap) :=
  ⟨by simp, fun h => by simp at h⟩

theorem aligned_keep (r : Receiver α cap) (b : α) : Aligned (r.keep b) := by
  by_cases h : r.kept.length < cap
  · rw [keep_of_lt h]
    exact aligned_collecting _ _
  · rw [keep_of_le (Nat.not_lt.mp h)]
    exact aligned_idle

/-- Read one symbol; a `stop` hands over what was kept. -/
def step [DecidableEq α] (A : Alphabet α) (r : Receiver α cap) (b : α) :
    Receiver α cap × List (List α) :=
  match r.phase with
  | .idle => if b = A.start then (⟨.collecting, r.kept, r.kept_le⟩, []) else (r, [])
  | .collecting =>
      if b = A.stop then (idle, [r.kept])
      else if b = A.escape then (⟨.escaped, r.kept, r.kept_le⟩, [])
      else if b = A.start then (opened, [])
      else (r.keep b, [])
  | .escaped => (r.keep b, [])

end Receiver

/-- The receiver as a machine. -/
def receiver {α : Type*} [DecidableEq α] (A : Alphabet α) (cap : Nat) :
    Transducer (Receiver α cap) α (List α) := ⟨Receiver.step A⟩

section

variable {α : Type*} [DecidableEq α] (A : Alphabet α) {cap : Nat}

open Receiver

/-! ## one unit -/

/-- While collecting, a unit keeps its symbol or gives the message up. -/
theorem stateAfter_unit_collecting (kept : List α) (hk : kept.length ≤ cap) (b : α) :
    (receiver A cap).stateAfter ⟨.collecting, kept, hk⟩ (A.unit b) =
      keep ⟨.collecting, kept, hk⟩ b := by
  by_cases hb : A.IsControl b
  · rw [A.unit_of_control hb]
    simp [receiver, step, A.stop_ne_escape.symm, keep]
  · obtain ⟨h1, h2, h3⟩ := A.ne_of_not_control hb
    rw [A.unit_of_not_control hb]
    simp [receiver, step, h1, h2, h3]

/-- While idle, a unit is passed over unless its symbol is `start`. -/
theorem stateAfter_unit_idle (b : α) :
    (receiver A cap).stateAfter idle (A.unit b) = if b = A.start then opened else idle := by
  by_cases hb : A.IsControl b
  · rw [A.unit_of_control hb]
    by_cases hs : b = A.start <;>
      simp [receiver, step, idle, opened, A.start_ne_escape.symm, hs]
  · obtain ⟨h1, -, -⟩ := A.ne_of_not_control hb
    rw [A.unit_of_not_control hb]
    simp [receiver, step, idle, h1]

/-- Units leave an aligned receiver aligned. -/
theorem aligned_unit {r : Receiver α cap} (h : Aligned r) (b : α) :
    Aligned ((receiver A cap).stateAfter r (A.unit b)) := by
  rcases h.cases with rfl | ⟨kept, hk, rfl⟩
  · rw [stateAfter_unit_idle]
    split
    · exact aligned_collecting _ _
    · exact aligned_idle
  · rw [stateAfter_unit_collecting]
    exact aligned_keep _ _

/-- An aligned receiver delivers nothing in the middle of a unit. -/
theorem output_unit {r : Receiver α cap} (h : Aligned r) (b : α) :
    (receiver A cap).output r (A.unit b) = [] := by
  by_cases hb : A.IsControl b
  · rw [A.unit_of_control hb]
    rcases h.cases with rfl | ⟨kept, hk, rfl⟩
    · by_cases hs : b = A.start <;>
        simp [receiver, step, idle, A.start_ne_escape.symm, hs]
    · simp [receiver, step, A.stop_ne_escape.symm]
  · obtain ⟨h1, h2, h3⟩ := A.ne_of_not_control hb
    rw [A.unit_of_not_control hb]
    rcases h.cases with rfl | ⟨kept, hk, rfl⟩
    · simp [receiver, step, idle, h1]
    · simp [receiver, step, h1, h2, h3]

/-! ## a stuffed message -/

/-- Between units the receiver is never in the middle of an escape. -/
theorem aligned_stuff {r : Receiver α cap} (h : Aligned r) (d : List α) :
    Aligned ((receiver A cap).stateAfter r (A.stuff d)) := by
  induction d generalizing r with
  | nil => exact h
  | cons b d ih =>
      rw [A.stuff_cons, Transducer.stateAfter_append]
      exact ih (aligned_unit A h b)

/-- A stuffed message delivers nothing by itself. -/
theorem output_stuff {r : Receiver α cap} (h : Aligned r) (d : List α) :
    (receiver A cap).output r (A.stuff d) = [] := by
  induction d generalizing r with
  | nil => rfl
  | cons b d ih =>
      rw [A.stuff_cons, Transducer.output_append, output_unit A h, ih (aligned_unit A h b)]
      rfl

/-- A message that fits is kept as it is. -/
theorem stateAfter_stuff_of_fits (kept : List α) (hk : kept.length ≤ cap) (d : List α)
    (hfit : kept.length + d.length ≤ cap) :
    (receiver A cap).stateAfter ⟨.collecting, kept, hk⟩ (A.stuff d) =
      ⟨.collecting, kept ++ d, by simpa using hfit⟩ := by
  induction d generalizing kept with
  | nil => simp
  | cons b d ih =>
      simp only [List.length_cons] at hfit
      rw [A.stuff_cons, Transducer.stateAfter_append, stateAfter_unit_collecting,
        keep_of_lt (by simp only; omega)]
      rw [ih (kept ++ [b]) (by simp; omega) (by simp; omega)]
      simp

/-- One symbol too many, and the rest of the message is read by an idle
receiver. -/
theorem stateAfter_stuff_of_overflow (kept : List α) (hk : kept.length ≤ cap) (d : List α)
    (hover : cap < kept.length + d.length) :
    (receiver A cap).stateAfter ⟨.collecting, kept, hk⟩ (A.stuff d) =
      (receiver A cap).stateAfter idle (A.stuff (d.drop (cap - kept.length + 1))) := by
  induction d generalizing kept with
  | nil => simp at hover; omega
  | cons b d ih =>
      simp only [List.length_cons] at hover
      rw [A.stuff_cons, Transducer.stateAfter_append, stateAfter_unit_collecting]
      by_cases hlt : kept.length < cap
      · rw [keep_of_lt hlt, ih (kept ++ [b]) (by simp; omega) (by simp; omega)]
        have hdrop : cap - kept.length = (cap - (kept ++ [b]).length) + 1 := by simp; omega
        rw [hdrop, List.drop_succ_cons]
      · have hzero : cap - kept.length = 0 := by omega
        rw [keep_of_le (Nat.not_lt.mp hlt), hzero, List.drop_succ_cons, List.drop_zero]

/-- An idle receiver looks for a `start` among the symbols of a message. -/
theorem stateAfter_stuff_idle (d : List α) :
    (receiver A cap).stateAfter idle (A.stuff d) =
      match A.afterStart d with
      | none => idle
      | some rest => (receiver A cap).stateAfter opened (A.stuff rest) := by
  induction d with
  | nil => rfl
  | cons b d ih =>
      rw [A.stuff_cons, Transducer.stateAfter_append, stateAfter_unit_idle]
      by_cases hb : b = A.start
      · simp [hb, Alphabet.afterStart]
      · simp only [if_neg hb, Alphabet.afterStart, ih]

end

end Stuffing
