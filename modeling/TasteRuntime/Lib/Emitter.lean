import Mathlib.Data.List.Basic

/-!
# TasteRuntime.Lib.Emitter

Producers that hand over what they have to say a few symbols at a time.

A producer is a function `call` that returns one piece and the state to call
it in again.  `Emits call pending M` says that there is a list `pending s` of
symbols still to come and that a call returns the first `M` of them.  A caller
that repeats the call until the piece is empty then gets the pieces
`pieces M (pending s)`, whose concatenation is `pending s`
(`untilEmpty_eq`, `flatten_pieces`).  A number of calls gets as many pieces of
the same cut (`repeatCall_eq`), and a caller that stops as soon as few symbols
are left gets the whole pieces up to there (`untilDone_eq`).
-/

namespace Emitter

/-- A list cut into pieces of `M` symbols, the last one possibly shorter. -/
def pieces (M : Nat) (l : List α) : List (List α) :=
  if _stop : l = [] ∨ M = 0 then [] else l.take M :: pieces M (l.drop M)
termination_by l.length
decreasing_by
  obtain ⟨hl, hM⟩ := not_or.mp _stop
  have hpos : 0 < l.length := List.length_pos_iff.mpr hl
  rw [List.length_drop]
  omega

@[simp] theorem pieces_nil (M : Nat) : pieces M ([] : List α) = [] := by
  rw [pieces, dif_pos (.inl rfl)]

theorem pieces_of_ne_nil {M : Nat} {l : List α} (hl : l ≠ []) (hM : 0 < M) :
    pieces M l = l.take M :: pieces M (l.drop M) := by
  rw [pieces, dif_neg (by simp only [hl, false_or]; omega)]

/-- The pieces make up the list. -/
theorem flatten_pieces {M : Nat} (hM : 0 < M) (l : List α) : (pieces M l).flatten = l := by
  induction l using pieces.induct (M := M) with
  | case1 l h =>
      have hl : l = [] := h.resolve_right (by omega)
      simp [hl]
  | case2 l h ih =>
      have hl : l ≠ [] := fun h' => h (.inl h')
      rw [pieces_of_ne_nil hl hM, List.flatten_cons, ih, List.take_append_drop]

variable {S : Type u} {α : Type v} {ε : Type w}

/-- From every state that meets `Inv`, a call returns the first `M` symbols
still to come, and the rest are still to come after it. -/
def Emits (call : S → Except ε (S × List α)) (pending : S → List α) (M : Nat)
    (Inv : S → Prop) : Prop :=
  ∀ s, Inv s → ∃ s', call s = .ok (s', (pending s).take M) ∧ Inv s' ∧
    pending s' = (pending s).drop M

/-- Call until a piece is empty, at most `calls` times; `none` when the last
piece was not. -/
def untilEmpty (call : S → Except ε (S × List α)) :
    Nat → S → Except ε (Option (S × List (List α)))
  | 0, _ => .ok none
  | calls + 1, s =>
      match call s with
      | .error e => .error e
      | .ok (s', piece) =>
          if piece.length = 0 then .ok (some (s', []))
          else
            match untilEmpty call calls s' with
            | .error e => .error e
            | .ok rest => .ok (rest.map fun r => (r.1, piece :: r.2))

/-- One call more than there are symbols to come is enough to see them all. -/
theorem untilEmpty_eq {call : S → Except ε (S × List α)} {pending : S → List α} {M : Nat}
    {Inv : S → Prop} (h : Emits call pending M Inv) (hM : 0 < M) (calls : Nat) (s : S)
    (hs : Inv s) (hcalls : (pending s).length < calls) :
    ∃ s', untilEmpty call calls s = .ok (some (s', pieces M (pending s))) ∧ Inv s' ∧
      pending s' = [] := by
  induction calls generalizing s with
  | zero => omega
  | succ calls ih =>
      obtain ⟨s1, hcall, hs1, hrest⟩ := h s hs
      by_cases hnil : pending s = []
      · refine ⟨s1, ?_, hs1, by simp [hrest, hnil]⟩
        simp [untilEmpty, hcall, hnil]
      · have hpos : 0 < (pending s).length := List.length_pos_iff.mpr hnil
        have hne : ((pending s).take M).length ≠ 0 := by rw [List.length_take]; omega
        obtain ⟨s2, hrun, hs2, hdone⟩ := ih s1 hs1 (by rw [hrest, List.length_drop]; omega)
        refine ⟨s2, ?_, hs2, hdone⟩
        simp only [untilEmpty, hcall, if_neg hne, hrun, Option.map_some, hrest,
          pieces_of_ne_nil hnil hM]

/-! ## a number of calls -/

/-- Call a number of times, whatever comes. -/
def repeatCall (call : S → Except ε (S × List α)) : Nat → S → Except ε (S × List (List α))
  | 0, s => .ok (s, [])
  | calls + 1, s =>
      match call s with
      | .error e => .error e
      | .ok (s', piece) =>
          match repeatCall call calls s' with
          | .error e => .error e
          | .ok (s'', pieces) => .ok (s'', piece :: pieces)

/-- The k-th call returns the k-th piece. -/
theorem repeatCall_eq {call : S → Except ε (S × List α)} {pending : S → List α} {M : Nat}
    {Inv : S → Prop} (h : Emits call pending M Inv) (calls : Nat) (s : S) (hs : Inv s) :
    ∃ s', repeatCall call calls s = .ok (s', (List.range calls).map fun k =>
        ((pending s).drop (k * M)).take M) ∧ Inv s' ∧
      pending s' = (pending s).drop (calls * M) := by
  induction calls generalizing s with
  | zero => exact ⟨s, rfl, hs, by simp⟩
  | succ calls ih =>
      obtain ⟨s1, hcall, hs1, hrest⟩ := h s hs
      obtain ⟨s2, hrun, hs2, hrest2⟩ := ih s1 hs1
      refine ⟨s2, ?_, hs2, ?_⟩
      · simp only [repeatCall, hcall, hrun, hrest, List.drop_drop, List.range_succ_eq_map,
          List.map_cons, List.map_map]
        simp [Function.comp_def, Nat.succ_mul, Nat.add_comm]
      · rw [hrest2, hrest, List.drop_drop, Nat.succ_mul, Nat.add_comm]

/-- A cut into pieces of `M` symbols has `⌈length / M⌉` that are not empty. -/
theorem length_filter_pieces {M : Nat} (hM : 0 < M) (l : List α) (calls : Nat) :
    (((List.range calls).map fun k => (l.drop (k * M)).take M).filter (·.length ≠ 0)).length =
      min calls ((l.length + M - 1) / M) := by
  induction calls with
  | zero => simp
  | succ calls ih =>
      have hlast : ((l.drop (calls * M)).take M).length ≠ 0 ↔ calls < (l.length + M - 1) / M := by
        rw [List.length_take, List.length_drop, Nat.lt_iff_add_one_le, Nat.le_div_iff_mul_le hM,
          Nat.succ_mul]
        omega
      rw [List.range_succ, List.map_append, List.filter_append, List.length_append, ih,
        List.map_singleton, List.filter_singleton]
      by_cases h : calls < (l.length + M - 1) / M
      · rw [decide_eq_true (hlast.mpr h), cond_true, List.length_singleton]
        omega
      · rw [decide_eq_false (mt hlast.mp h), cond_false, List.length_nil]
        omega

/-- Whole pieces of `n` symbols reach beyond them unless the last is full. -/
theorem lt_ceil_mul_iff {M : Nat} (hM : 0 < M) (n : Nat) : n < (n + M - 1) / M * M ↔ ¬ M ∣ n := by
  have hsplit := Nat.div_add_mod' n M
  have hmod := Nat.mod_lt n hM
  rw [Nat.dvd_iff_mod_eq_zero]
  by_cases hfull : n % M = 0
  · have hceil : (n + M - 1) / M = n / M := by
      rw [Nat.div_eq_iff hM]
      omega
    rw [hceil]
    omega
  · have hceil : (n + M - 1) / M = n / M + 1 := by
      rw [Nat.div_eq_iff hM, Nat.succ_mul]
      omega
    rw [hceil, Nat.succ_mul]
    omega

/-! ## until a condition holds -/

/-- Call until the state after a call meets `done`, at most `calls` times;
`none` when the last one did not. -/
def untilDone (call : S → Except ε (S × List α)) (done : S → Bool) :
    Nat → S → Except ε (Option (S × List (List α)))
  | 0, _ => .ok none
  | calls + 1, s =>
      match call s with
      | .error e => .error e
      | .ok (s', piece) =>
          if done s' then .ok (some (s', [piece]))
          else
            match untilDone call done calls s' with
            | .error e => .error e
            | .ok rest => .ok (rest.map fun r => (r.1, piece :: r.2))

/-- A caller that stops after the first call that leaves at most `r` symbols
to come has got whole pieces of all but `r`. -/
theorem untilDone_eq {call : S → Except ε (S × List α)} {pending : S → List α} {M r : Nat}
    {Inv : S → Prop} {done : S → Bool} (h : Emits call pending M Inv) (hM : 0 < M)
    (hdone : ∀ s s' piece, Inv s → call s = .ok (s', piece) →
      (done s' = true ↔ (pending s').length ≤ r))
    (calls : Nat) (s : S) (hs : Inv s) (hr : r < (pending s).length)
    (hcalls : (pending s).length < calls) :
    ∃ s' pieces, untilDone call done calls s = .ok (some (s', pieces)) ∧
      pieces.flatten = (pending s).take (((pending s).length - r + M - 1) / M * M) := by
  induction calls generalizing s with
  | zero => omega
  | succ calls ih =>
      obtain ⟨s1, hcall, hs1, hrest⟩ := h s hs
      have hlength : (pending s1).length = (pending s).length - M := by
        rw [hrest, List.length_drop]
      have hiff := hdone s s1 _ hs hcall
      by_cases hshort : (pending s1).length ≤ r
      · have hone : ((pending s).length - r + M - 1) / M = 1 := by
          rw [Nat.div_eq_iff hM]
          omega
        refine ⟨s1, [(pending s).take M], ?_, ?_⟩
        · simp only [untilDone, hcall, if_pos (hiff.mpr hshort)]
        · rw [List.flatten_singleton, hone, Nat.one_mul]
      · obtain ⟨s2, pieces, hrun, hflatten⟩ := ih s1 hs1 (by omega) (by omega)
        have hnext : ((pending s).length - r + M - 1) / M =
            ((pending s1).length - r + M - 1) / M + 1 := by
          rw [← Nat.add_div_right _ hM, hlength]
          congr 1
          omega
        refine ⟨s2, (pending s).take M :: pieces, ?_, ?_⟩
        · simp only [untilDone, hcall, if_neg (mt hiff.mp hshort), hrun, Option.map_some]
        · rw [List.flatten_cons, hflatten, hrest, hnext, Nat.succ_mul, Nat.add_comm (_ * M),
            List.take_add, ← hrest]

end Emitter
