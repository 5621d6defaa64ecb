import Mathlib.Data.List.Induction
import TasteRuntime.Lib.Stuffing

/-!
# TasteRuntime.Lib.Origin

Where the symbols a `Stuffing.receiver` delivers come from, for any input at
all: `Unstuffs s d` says that the symbols `s` split into units with the
payload `d`, and `Origin w r` describes the receiver after the input `w` from
that input alone.  One step keeps it (`Origin.step`), so it holds after every
input (`origin_stateAfter`), and a delivery is read off it
(`outputAt_origin`).
-/

namespace Stuffing

open Receiver

variable {α : Type*} (A : Alphabet α)

/-! ## units as they are read -/

/-- One unit: a symbol that is no control symbol, or an escape and any symbol. -/
inductive ReadUnit (A : Alphabet α) where
  | plain (b : α) (h : ¬ A.IsControl b)
  | escaped (b : α)

namespace ReadUnit

variable {A}

/-- The symbols of a unit. -/
def symbols : ReadUnit A → List α
  | .plain b _ => [b]
  | .escaped b => [A.escape, b]

/-- The symbol a unit stands for. -/
def payload : ReadUnit A → α
  | .plain b _ => b
  | .escaped b => b

end ReadUnit

/-- `s` splits into units that stand for the symbols of `d`. -/
def Unstuffs (s d : List α) : Prop :=
  ∃ units : List (ReadUnit A), s = units.flatMap ReadUnit.symbols ∧ d = units.map ReadUnit.payload

theorem unstuffs_nil : Unstuffs A [] [] := ⟨[], rfl, rfl⟩

variable {A}

theorem Unstuffs.snoc {s d : List α} (h : Unstuffs A s d) (unit : ReadUnit A) :
    Unstuffs A (s ++ unit.symbols) (d ++ [unit.payload]) := by
  obtain ⟨units, rfl, rfl⟩ := h
  exact ⟨units ++ [unit], by simp, by simp⟩

/-! ## the receiver after an input -/

variable [DecidableEq α] (A) (cap : Nat)

/-- The last of `w` is a `start` and then `s`, and nothing was delivered from
that `start` on. -/
def OpenedBy (w s : List α) : Prop :=
  ∃ front, w = front ++ A.start :: s ∧
    (receiver A cap).output ((receiver A cap).stateAfter idle front) (A.start :: s) = []

variable {A cap}

/-- A `start` that delivers nothing opens a message. -/
theorem openedBy_start {w : List α}
    (h : (step A ((receiver A cap).stateAfter idle w) A.start).2 = []) :
    OpenedBy A cap (w ++ [A.start]) [] :=
  ⟨w, rfl, (Transducer.output_singleton _ _ _).trans h⟩

/-- A symbol that delivers nothing keeps a message open. -/
theorem OpenedBy.snoc {w s : List α} (hopen : OpenedBy A cap w s) {b : α}
    (h : (step A ((receiver A cap).stateAfter idle w) b).2 = []) :
    OpenedBy A cap (w ++ [b]) (s ++ [b]) := by
  obtain ⟨front, rfl, hquiet⟩ := hopen
  refine ⟨front, by simp, ?_⟩
  have hlast : (receiver A cap).output ((receiver A cap).stateAfter idle
      (front ++ A.start :: s)) [b] = [] := (Transducer.output_singleton _ _ _).trans h
  rw [Transducer.stateAfter_append] at hlast
  rw [← List.cons_append, Transducer.output_append, hquiet, hlast]
  rfl

/-- What the receiver keeps after the input `w`: nothing while idle, else what
the symbols since a `start` stand for. -/
def Origin (A : Alphabet α) (w : List α) (r : Receiver α cap) : Prop :=
  match r.phase with
  | .idle => r.kept = []
  | .collecting => ∃ s, OpenedBy A cap w s ∧ Unstuffs A s r.kept
  | .escaped => ∃ s, OpenedBy A cap w (s ++ [A.escape]) ∧ Unstuffs A s r.kept

theorem origin_idle (w : List α) : Origin A w (idle : Receiver α cap) :=
  (rfl : (idle : Receiver α cap).kept = [])

/-- Keeping a symbol, once the unit it ends is read. -/
theorem origin_keep {w s : List α} {r : Receiver α cap} (unit : ReadUnit A)
    (hopen : OpenedBy A cap w (s ++ unit.symbols)) (hs : Unstuffs A s r.kept) :
    Origin A w (r.keep unit.payload) := by
  by_cases hroom : r.kept.length < cap
  · rw [keep_of_lt hroom]
    exact ⟨_, hopen, hs.snoc unit⟩
  · rw [keep_of_le (Nat.not_lt.mp hroom)]
    exact origin_idle w

/-- **Step**: one more symbol. -/
theorem Origin.step {w : List α} {r : Receiver α cap}
    (hr : (receiver A cap).stateAfter idle w = r) (h : Origin A w r) (b : α) :
    Origin A (w ++ [b]) (step A r b).1 := by
  have hstart (hquiet : (Receiver.step A r A.start).2 = []) :
      OpenedBy A cap (w ++ [A.start]) [] := openedBy_start (by rw [hr]; exact hquiet)
  have hsnoc {s : List α} (hopen : OpenedBy A cap w s) (hquiet : (Receiver.step A r b).2 = []) :
      OpenedBy A cap (w ++ [b]) (s ++ [b]) := hopen.snoc (by rw [hr]; exact hquiet)
  obtain ⟨phase, kept, hk⟩ := r
  cases phase with
  | idle =>
      have hkept : kept = [] := h
      subst hkept
      by_cases h1 : b = A.start
      · subst h1
        simp only [Receiver.step, if_true] at hstart ⊢
        exact ⟨[], hstart trivial, unstuffs_nil A⟩
      · simp only [Receiver.step, if_neg h1]
        exact h
  | collecting =>
      obtain ⟨s, hopen, hs⟩ := h
      by_cases h1 : b = A.stop
      · simp only [Receiver.step, if_pos h1]
        exact origin_idle _
      by_cases h2 : b = A.escape
      · subst h2
        simp only [Receiver.step, if_neg h1, if_true] at hsnoc ⊢
        exact ⟨s, hsnoc hopen trivial, hs⟩
      by_cases h3 : b = A.start
      · -- a `start` inside a message opens another, and what was kept is dropped
        subst h3
        simp only [Receiver.step, if_neg h1, if_neg h2, if_true] at hstart ⊢
        exact ⟨[], hstart trivial, unstuffs_nil A⟩
      · simp only [Receiver.step, if_neg h1, if_neg h2, if_neg h3] at hsnoc ⊢
        have hplain : ¬ A.IsControl b := by grind [Alphabet.IsControl]
        exact origin_keep (.plain b hplain) (hsnoc hopen trivial) hs
  | escaped =>
      obtain ⟨s, hopen, hs⟩ := h
      have hopen' := hsnoc hopen rfl
      rw [List.append_assoc] at hopen'
      exact origin_keep (.escaped b) hopen' hs

/-- **Run**: any input, from the idle receiver. -/
theorem origin_stateAfter (w : List α) : Origin A w ((receiver A cap).stateAfter idle w) := by
  induction w using List.reverseRecOn with
  | nil => exact origin_idle []
  | append_singleton w b ih =>
      rw [Transducer.stateAfter_append]
      exact Origin.step rfl ih b

/-! ## deliveries -/

/-- Only a `stop` delivers, and what it delivers is what the symbols since a
`start` stand for. -/
theorem Origin.of_mem_step {w : List α} {r : Receiver α cap} (h : Origin A w r) {b : α}
    {m : List α} (hm : m ∈ (Receiver.step A r b).2) :
    b = A.stop ∧ m.length ≤ cap ∧ ∃ s, OpenedBy A cap w s ∧ Unstuffs A s m := by
  obtain ⟨phase, kept, hk⟩ := r
  cases phase with
  | idle => grind [Receiver.step]
  | collecting =>
      by_cases h1 : b = A.stop
      · simp only [Receiver.step, if_pos h1, List.mem_singleton] at hm
        subst hm
        exact ⟨h1, hk, h⟩
      · grind [Receiver.step]
  | escaped => grind [Receiver.step]

/-- The symbols at the positions `i` and `j` of `w` are a `start` and a `stop`,
and what lies between them stands for `d`. -/
structure FramedAt (A : Alphabet α) (w : List α) (i j : Nat) (d : List α) : Prop where
  start_at : w[i]? = some A.start
  stop_at : w[j]? = some A.stop
  between : Unstuffs A ((w.take j).drop (i + 1)) d

/-- **Origin of a delivery**: a message that the symbol at position `j` of any
input makes an idle receiver deliver was between a `start` and this symbol, a
`stop`, and nothing else was delivered in between. -/
theorem outputAt_origin (w : List α) {j : Nat} (hj : j < w.length) {m : List α}
    (hm : m ∈ (receiver A cap).outputAt idle w j) :
    m.length ≤ cap ∧ ∃ i < j, FramedAt A w i j m ∧
      ∀ k, i ≤ k → k < j → (receiver A cap).outputAt idle w k = [] := by
  have hone : (w.drop j).take 1 = [w[j]] := by
    rw [List.drop_eq_getElem_cons hj]
    rfl
  rw [Transducer.outputAt, hone, Transducer.output_singleton] at hm
  obtain ⟨hstop, hle, s, ⟨front, hfront, hquiet⟩, hs⟩ :=
    (origin_stateAfter (w.take j)).of_mem_step hm
  have hw : w = front ++ (A.start :: s ++ w.drop j) := by
    rw [← List.append_assoc, ← hfront, List.take_append_drop]
  have hlen : front.length + (s.length + 1) = j := by
    have hlen := congrArg List.length hfront
    simp only [List.length_take, List.length_append, List.length_cons] at hlen
    omega
  refine ⟨hle, front.length, by omega, ⟨?_, ?_, ?_⟩, fun k hge hlt => ?_⟩
  · rw [hw]
    simp
  · rw [List.getElem?_eq_getElem hj, hstop]
  · have hdrop : (w.take j).drop (front.length + 1) = s := by
      rw [hfront, ← List.drop_drop, List.drop_left, List.drop_succ_cons, List.drop_zero]
    rw [hdrop]
    exact hs
  · rw [hw]
    exact (receiver A cap).outputAt_eq_nil hquiet hge (by rw [List.length_cons]; omega)

end Stuffing
