import Mathlib.Data.List.Basic

/-!
# TasteRuntime.Lib.Transducer

Deterministic transducers: a machine that reads one symbol at a time and
emits a list of outputs for each.

* `Transducer` is the pure machine, with `stateAfter` and `output` over a
  whole input; both compose over `++`.  `outputAt` is the part of the output
  that one symbol of the input causes.
* `runCall` is the loop of a program that handles one symbol in `Except`;
  `runCalls` is a series of such loops, one per chunk of the input.
  `runCalls_eq` says that only the concatenation of the chunks matters, and
  `runCall_invariant` is the rule for what holds along a run that may stop.
* `Simulates` relates the two: a program whose step follows the machine's
  step under an abstraction follows the machine over any input.
-/

/-- A deterministic machine with a list of outputs for each input symbol. -/
structure Transducer (σ α β : Type*) where
  step : σ → α → σ × List β

namespace Transducer

variable (T : Transducer σ α β)

/-- The state after a whole input. -/
def stateAfter (s : σ) : List α → σ
  | [] => s
  | a :: as => stateAfter (T.step s a).1 as

/-- The outputs over a whole input, in order. -/
def output (s : σ) : List α → List β
  | [] => []
  | a :: as => (T.step s a).2 ++ output (T.step s a).1 as

@[simp] theorem stateAfter_nil (s : σ) : T.stateAfter s [] = s := rfl

@[simp] theorem stateAfter_cons (s : σ) (a : α) (as : List α) :
    T.stateAfter s (a :: as) = T.stateAfter (T.step s a).1 as := rfl

@[simp] theorem output_nil (s : σ) : T.output s [] = [] := rfl

@[simp] theorem output_cons (s : σ) (a : α) (as : List α) :
    T.output s (a :: as) = (T.step s a).2 ++ T.output (T.step s a).1 as := rfl

theorem output_singleton (s : σ) (a : α) : T.output s [a] = (T.step s a).2 :=
  List.append_nil _

theorem stateAfter_append (s : σ) (as bs : List α) :
    T.stateAfter s (as ++ bs) = T.stateAfter (T.stateAfter s as) bs := by
  induction as generalizing s with
  | nil => rfl
  | cons a as ih => simp [ih]

theorem output_append (s : σ) (as bs : List α) :
    T.output s (as ++ bs) = T.output s as ++ T.output (T.stateAfter s as) bs := by
  induction as generalizing s with
  | nil => rfl
  | cons a as ih => simp [ih]

/-- The outputs for the symbol at position `j` of an input. -/
def outputAt (s : σ) (w : List α) (j : Nat) : List β :=
  T.output (T.stateAfter s (w.take j)) ((w.drop j).take 1)

/-- The outputs over an input are those for its symbols, one after the other. -/
theorem output_eq_flatMap_outputAt (s : σ) (w : List α) :
    T.output s w = (List.range w.length).flatMap (T.outputAt s w) := by
  induction w generalizing s with
  | nil => rfl
  | cons a w ih =>
      have hfirst : T.outputAt s (a :: w) 0 = (T.step s a).2 := List.append_nil _
      rw [List.length_cons, List.range_succ_eq_map, List.flatMap_cons, List.flatMap_map, hfirst,
        output_cons, ih]
      rfl

/-- Where a part of the input has no outputs, none of its symbols has. -/
theorem outputAt_eq_nil {s : σ} {front mid rest : List α} {k : Nat}
    (h : T.output (T.stateAfter s front) mid = []) (hge : front.length ≤ k)
    (hlt : k < front.length + mid.length) : T.outputAt s (front ++ (mid ++ rest)) k = [] := by
  have hpos : k - front.length < mid.length := by omega
  obtain ⟨before, a, behind, rfl, hlen⟩ :
      ∃ before a behind, mid = before ++ a :: behind ∧ before.length = k - front.length :=
    ⟨mid.take (k - front.length), mid[k - front.length], mid.drop (k - front.length + 1),
      by simp, by rw [List.length_take]; omega⟩
  have hsplit : front ++ (before ++ a :: behind ++ rest) =
      (front ++ before) ++ a :: (behind ++ rest) := by simp
  have hk : (front ++ before).length = k := by rw [List.length_append]; omega
  rw [output_append, List.append_eq_nil_iff, output_cons, List.append_eq_nil_iff] at h
  rw [outputAt, hsplit, List.take_left' hk, List.drop_left' hk, stateAfter_append,
    List.take_succ_cons, List.take_zero, output_cons, h.2.1]
  rfl

/-- The same machine with its outputs renamed. -/
def mapOutput (g : β → γ) : Transducer σ α γ :=
  ⟨fun s a => ((T.step s a).1, (T.step s a).2.map g)⟩

@[simp] theorem stateAfter_mapOutput (g : β → γ) (s : σ) (as : List α) :
    (T.mapOutput g).stateAfter s as = T.stateAfter s as := by
  induction as generalizing s with
  | nil => rfl
  | cons a as ih => exact ih _

@[simp] theorem output_mapOutput (g : β → γ) (s : σ) (as : List α) :
    (T.mapOutput g).output s as = (T.output s as).map g := by
  induction as generalizing s with
  | nil => rfl
  | cons a as ih => simp [mapOutput, ← ih]

/-! ## programs that handle one symbol in `Except` -/

section Program

variable {S : Type u} {ε : Type v} (f : S → α → Except ε (S × List β))

/-- One call: the symbols of one chunk in order, stopping at the first error. -/
def runCall (s : S) : List α → Except ε (S × List β)
  | [] => .ok (s, [])
  | a :: as =>
      match f s a with
      | .error e => .error e
      | .ok (s', out) =>
          match runCall s' as with
          | .error e => .error e
          | .ok (s'', outs) => .ok (s'', out ++ outs)

/-- A series of calls, one for each chunk. -/
def runCalls (s : S) : List (List α) → Except ε (S × List β)
  | [] => .ok (s, [])
  | chunk :: chunks =>
      match runCall f s chunk with
      | .error e => .error e
      | .ok (s', out) =>
          match runCalls s' chunks with
          | .error e => .error e
          | .ok (s'', outs) => .ok (s'', out ++ outs)

/-- A run whose first step and whose rest return. -/
theorem runCall_cons (hstep : f s a = .ok (s', out)) (hrest : runCall f s' as = .ok (s'', outs)) :
    runCall f s (a :: as) = .ok (s'', out ++ outs) := by
  simp only [runCall, hstep, hrest]

theorem runCall_append (s : S) (as bs : List α) :
    runCall f s (as ++ bs) =
      match runCall f s as with
      | .error e => .error e
      | .ok (s', out) =>
          match runCall f s' bs with
          | .error e => .error e
          | .ok (s'', outs) => .ok (s'', out ++ outs) := by
  induction as generalizing s with
  | nil =>
      simp only [List.nil_append, runCall]
      cases runCall f s bs <;> rfl
  | cons a as ih =>
      simp only [List.cons_append, runCall, ih]
      cases f s a with
      | error e => rfl
      | ok r =>
          obtain ⟨s1, out1⟩ := r
          cases has : runCall f s1 as with
          | error e => simp [has]
          | ok r2 =>
              obtain ⟨s2, out2⟩ := r2
              cases hbs : runCall f s2 bs <;> simp [has, hbs]

/-- **Cut independence**: a series of calls depends on the concatenation of
its chunks only. -/
theorem runCalls_eq (s : S) (chunks : List (List α)) :
    runCalls f s chunks = runCall f s chunks.flatten := by
  induction chunks generalizing s with
  | nil => rfl
  | cons chunk chunks ih =>
      rw [List.flatten_cons, runCall_append, runCalls]
      cases runCall f s chunk with
      | error e => rfl
      | ok r => simp only [ih]

/-- **Run rule**: if `Inv` relates the inputs handled so far, the state and
the outputs so far, and each further input either keeps it or stops the
program for a reason `Stops`, then a run over any inputs handles a front of
them under `Inv`, all of them unless it stops. -/
theorem runCall_invariant {Inv : List α → S → List β → Prop} {Stops : S → List β → α → ε → Prop}
    (inputs : List α)
    (hstep : ∀ done s outs a, Inv done s outs → a ∈ inputs →
      (∃ s' out, f s a = .ok (s', out) ∧ Inv (done ++ [a]) s' (outs ++ out)) ∨
      ∃ e, f s a = .error e ∧ Stops s outs a e)
    (done : List α) (s : S) (outs : List β) (h : Inv done s outs) :
    ∃ handled rest s' out, inputs = handled ++ rest ∧ runCall f s handled = .ok (s', out) ∧
      Inv (done ++ handled) s' (outs ++ out) ∧
      (rest = [] ∨ ∃ a rest' e, rest = a :: rest' ∧ f s' a = .error e ∧
        Stops s' (outs ++ out) a e) := by
  induction inputs generalizing done s outs with
  | nil => exact ⟨[], [], s, [], rfl, rfl, by simpa using h, .inl rfl⟩
  | cons a inputs ih =>
      obtain ⟨s1, out1, hone, h1⟩ | ⟨e, herror, hstops⟩ := hstep done s outs a h (by simp)
      · obtain ⟨handled, rest, s2, out2, hsplit, hrun, h2, hrest⟩ :=
          ih (fun done s outs b hinv hb => hstep done s outs b hinv (List.mem_cons_of_mem a hb))
            (done ++ [a]) s1 (outs ++ out1) h1
        refine ⟨a :: handled, rest, s2, out1 ++ out2, by rw [hsplit]; rfl,
          runCall_cons f hone hrun, ?_, ?_⟩
        · simpa using h2
        · simpa using hrest
      · exact ⟨[], a :: inputs, s, [], rfl, rfl, by simpa using h,
          .inr ⟨a, inputs, e, rfl, herror, by rwa [List.append_nil]⟩⟩

/-- The run rule for a run that returns. -/
theorem runCall_invariant_of_ok {Inv : List α → S → List β → Prop}
    {Stops : S → List β → α → ε → Prop} (inputs : List α)
    (hstep : ∀ done s outs a, Inv done s outs → a ∈ inputs →
      (∃ s' out, f s a = .ok (s', out) ∧ Inv (done ++ [a]) s' (outs ++ out)) ∨
      ∃ e, f s a = .error e ∧ Stops s outs a e)
    (h : Inv [] s []) (hrun : runCall f s inputs = .ok (s', outs)) : Inv inputs s' outs := by
  obtain ⟨handled, rest, s1, out, rfl, hhandled, hinv, hrest⟩ :=
    runCall_invariant f inputs hstep [] s [] h
  rw [runCall_append, hhandled] at hrun
  obtain rfl | ⟨a, rest', e, rfl, herror, -⟩ := hrest
  · simp only [runCall, List.append_nil, Except.ok.injEq, Prod.mk.injEq] at hrun
    obtain ⟨rfl, rfl⟩ := hrun
    simpa using hinv
  · simp only [runCall, herror] at hrun
    contradiction

/-- What each step that returns preserves holds after every run that returns. -/
theorem invariant_of_runCall {Inv : S → Prop} (inputs : List α)
    (hstep : ∀ s a s' out, Inv s → a ∈ inputs → f s a = .ok (s', out) → Inv s') (h : Inv s)
    (hrun : runCall f s inputs = .ok (s', outs)) : Inv s' := by
  induction inputs generalizing s outs with
  | nil =>
      obtain ⟨rfl, -⟩ := Prod.mk.inj (Except.ok.inj hrun)
      exact h
  | cons a inputs ih =>
      cases hone : f s a with
      | error e => simp [runCall, hone] at hrun
      | ok r =>
          obtain ⟨s1, out1⟩ := r
          cases hrest : runCall f s1 inputs with
          | error e => simp [runCall, hone, hrest] at hrun
          | ok r2 =>
              obtain ⟨s2, out2⟩ := r2
              simp only [runCall, hone, hrest, Except.ok.injEq, Prod.mk.injEq] at hrun
              obtain ⟨rfl, -⟩ := hrun
              exact ih (fun s b s' out hs hb => hstep s b s' out hs (List.mem_cons_of_mem a hb))
                (hstep s a s1 out1 h List.mem_cons_self hone) hrest

end Program

/-! ## simulation -/

/-- From every state that meets `Inv`, one step of the program `f` returns,
keeps `Inv`, and does what the machine `T` does to its abstraction `abs`. -/
def Simulates {S : Type u} {ε : Type v} (f : S → α → Except ε (S × List β))
    (T : Transducer σ α β) (abs : S → σ) (Inv : S → Prop) : Prop :=
  ∀ s a, Inv s → ∃ s', f s a = .ok (s', (T.step (abs s) a).2) ∧ Inv s' ∧
    abs s' = (T.step (abs s) a).1

/-- A simulating program follows the machine over any input. -/
theorem Simulates.runCall {S : Type u} {ε : Type v} {f : S → α → Except ε (S × List β)}
    {T : Transducer σ α β} {abs : S → σ} {Inv : S → Prop} (h : Simulates f T abs Inv)
    (s : S) (hs : Inv s) (as : List α) :
    ∃ s', Transducer.runCall f s as = .ok (s', T.output (abs s) as) ∧ Inv s' ∧
      abs s' = T.stateAfter (abs s) as := by
  induction as generalizing s with
  | nil => exact ⟨s, rfl, hs, rfl⟩
  | cons a as ih =>
      obtain ⟨s1, hstep, hs1, habs1⟩ := h s a hs
      obtain ⟨s2, hrun, hs2, habs2⟩ := ih s1 hs1
      refine ⟨s2, ?_, hs2, ?_⟩
      · simp only [Transducer.runCall, hstep, hrun, output_cons, habs1]
      · rw [habs2, habs1, stateAfter_cons]

/-- A simulating program follows the machine over any series of calls. -/
theorem Simulates.runCalls {S : Type u} {ε : Type v} {f : S → α → Except ε (S × List β)}
    {T : Transducer σ α β} {abs : S → σ} {Inv : S → Prop} (h : Simulates f T abs Inv)
    (s : S) (hs : Inv s) (chunks : List (List α)) :
    ∃ s', Transducer.runCalls f s chunks = .ok (s', T.output (abs s) chunks.flatten) ∧ Inv s' ∧
      abs s' = T.stateAfter (abs s) chunks.flatten := by
  rw [runCalls_eq]
  exact h.runCall s hs chunks.flatten

end Transducer
