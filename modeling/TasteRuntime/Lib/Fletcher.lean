import Mathlib.Algebra.Group.Basic
import Mathlib.Tactic.Abel
import Mathlib.Tactic.Ring

/-!
# TasteRuntime.Lib.Fletcher

Fletcher's two sums over a message, in any additive structure: the plain sum
`c0`, and the sum `c1` of all values `c0` takes.

The second tells where in a message something changed.  In a group, a symbol
that is replaced changes `c0` (`c0_replace_iff`), and two neighbours that
change places change `c1` (`c1_swap_iff`), wherever they are.

Over the natural numbers both sums only grow (`le_sums`), and a bound on the
symbols bounds them (`c0_le`, `two_mul_c1_le`).
-/

namespace Fletcher

/-- The two sums. -/
@[ext] structure Sums (G : Type*) where
  c0 : G
  c1 : G

/-- One more symbol. -/
def Sums.add [Add G] (s : Sums G) (b : G) : Sums G := ⟨s.c0 + b, s.c1 + (s.c0 + b)⟩

/-- The sums after a message. -/
def sums [Add G] (s : Sums G) (message : List G) : Sums G := message.foldl Sums.add s

section

variable [Add G]

@[simp] theorem c0_add (s : Sums G) (b : G) : (s.add b).c0 = s.c0 + b := rfl

@[simp] theorem c1_add (s : Sums G) (b : G) : (s.add b).c1 = s.c1 + (s.c0 + b) := rfl

@[simp] theorem sums_nil (s : Sums G) : sums s [] = s := rfl

@[simp] theorem sums_cons (s : Sums G) (b : G) (message : List G) :
    sums s (b :: message) = sums (s.add b) message := rfl

theorem sums_append (s : Sums G) (message message' : List G) :
    sums s (message ++ message') = sums (sums s message) message' :=
  List.foldl_append

/-- The sums under a map. -/
def Sums.map (f : G → H) (s : Sums G) : Sums H := ⟨f s.c0, f s.c1⟩

/-- A map that keeps sums keeps both sums. -/
theorem map_sums [Add H] (f : G → H) (hf : ∀ a b, f (a + b) = f a + f b) (s : Sums G)
    (message : List G) : (sums s message).map f = sums (s.map f) (message.map f) := by
  induction message generalizing s with
  | nil => rfl
  | cons b message ih =>
      have hstep : (s.add b).map f = (s.map f).add (f b) := by
        simp only [Sums.map, Sums.add, hf]
      rw [sums_cons, ih, List.map_cons, sums_cons, hstep]

end

/-! ## changes of a message -/

section

variable [AddCommGroup G]

theorem c0_sums (s : Sums G) (message : List G) :
    (sums s message).c0 = s.c0 + message.sum := by
  induction message generalizing s with
  | nil => simp
  | cons b message ih => rw [sums_cons, ih, List.sum_cons, Sums.add, add_assoc]

/-- A difference in the second sum alone stays as it is. -/
theorem c1_sums_add (c0 c1 d : G) (message : List G) :
    (sums ⟨c0, c1 + d⟩ message).c1 = (sums ⟨c0, c1⟩ message).c1 + d := by
  induction message generalizing c1 c0 with
  | nil => rfl
  | cons b message ih =>
      rw [sums_cons, sums_cons, Sums.add, Sums.add, add_right_comm c1 d, ih]

/-- **Replacement**: a symbol shows in the first sum. -/
theorem c0_replace_iff (s : Sums G) (front rest : List G) (a b : G) :
    (sums s (front ++ a :: rest)).c0 = (sums s (front ++ b :: rest)).c0 ↔ a = b := by
  simp [c0_sums]

/-- **Transposition**: the order of two neighbours shows in the second sum. -/
theorem c1_swap_iff (s : Sums G) (front rest : List G) (a b : G) :
    (sums s (front ++ a :: b :: rest)).c1 = (sums s (front ++ b :: a :: rest)).c1 ↔ a = b := by
  rw [sums_append, sums_append]
  obtain ⟨c0, c1⟩ := sums s front
  have hswap : (Sums.add (Sums.add ⟨c0, c1⟩ a) b) =
      ⟨c0 + b + a, c1 + (c0 + b) + (c0 + b + a) + (a - b)⟩ := by
    ext
    · exact add_right_comm c0 a b
    · simp only [c1_add, c0_add]
      abel
  rw [sums_cons, sums_cons, sums_cons, sums_cons, hswap, c1_sums_add]
  simp [Sums.add, sub_eq_zero]

/-- A difference in the first sum counts once for every symbol behind it. -/
theorem c1_sums_c0_add (c0 c1 e : G) (message : List G) :
    (sums ⟨c0 + e, c1⟩ message).c1 = (sums ⟨c0, c1⟩ message).c1 + message.length • e := by
  induction message generalizing c0 c1 with
  | nil => simp
  | cons b message ih =>
      have hone : Sums.add ⟨c0 + e, c1⟩ b = ⟨c0 + b + e, c1 + (c0 + b) + e⟩ := by
        ext
        · exact add_right_comm c0 e b
        · simp only [c1_add]
          abel
      rw [sums_cons, sums_cons, hone, c1_sums_add, ih, List.length_cons, succ_nsmul, Sums.add]
      exact add_assoc _ _ _

/-- **Two symbols**: two replaced symbols go unnoticed exactly if their sum and
the product of the first with their distance stay the same. -/
theorem sums_replace_two_iff (s : Sums G) (front middle rest : List G) (a a' b b' : G) :
    sums s (front ++ a :: (middle ++ b :: rest)) = sums s (front ++ a' :: (middle ++ b' :: rest)) ↔
      a + b = a' + b' ∧ (middle.length + 1) • a = (middle.length + 1) • a' := by
  have hfirst : (sums s (front ++ a :: (middle ++ b :: rest))).c0 =
      (sums s (front ++ a' :: (middle ++ b' :: rest))).c0 ↔ a + b = a' + b' := by
    have hdiff : (sums s (front ++ a :: (middle ++ b :: rest))).c0 -
        (sums s (front ++ a' :: (middle ++ b' :: rest))).c0 = a + b - (a' + b') := by
      simp only [c0_sums, List.sum_append, List.sum_cons]
      abel
    rw [← sub_eq_zero, hdiff, sub_eq_zero]
  by_cases hsum : a + b = a' + b'
  · -- the second symbol makes up for the first in the first sum
    have hsecond : (sums s (front ++ a' :: (middle ++ b' :: rest))).c1 =
        (sums s (front ++ a :: (middle ++ b :: rest))).c1 +
          (middle.length + 1) • (a' - a) := by
      obtain ⟨c0, c1, hfront⟩ : ∃ c0 c1, sums s front = ⟨c0, c1⟩ := ⟨_, _, rfl⟩
      have hone : Sums.add ⟨c0, c1⟩ a' = ⟨c0 + a + (a' - a), c1 + (c0 + a) + (a' - a)⟩ := by
        ext
        · simp only [c0_add]
          abel
        · simp only [c1_add]
          abel
      have hmiddle : sums (Sums.add ⟨c0, c1⟩ a') middle =
          ⟨(sums (Sums.add ⟨c0, c1⟩ a) middle).c0 + (a' - a),
            (sums (Sums.add ⟨c0, c1⟩ a) middle).c1 + (middle.length + 1) • (a' - a)⟩ := by
        rw [hone]
        ext
        · simp only [c0_sums, Sums.add]
          abel
        · rw [c1_sums_add, c1_sums_c0_add, add_assoc, ← succ_nsmul]
          rfl
      have htwo (c : Sums G) (e x : G) :
          Sums.add ⟨c.c0 + e, c.c1 + x⟩ b' = ⟨c.c0 + (e + b'), c.c1 + (c.c0 + (e + b')) + x⟩ := by
        ext
        · exact add_assoc _ _ _
        · simp only [c1_add]
          abel
      have hb : a' - a + b' = b := by
        rw [sub_add_eq_add_sub, ← hsum, add_sub_cancel_left]
      rw [sums_append, sums_append, hfront, sums_cons, sums_cons, sums_append, sums_append,
        sums_cons, sums_cons, hmiddle, htwo, hb, c1_sums_add]
      rfl
    have hc0 := hfirst.mpr hsum
    constructor
    · intro h
      refine ⟨hsum, ?_⟩
      have hc1 := congrArg Sums.c1 h
      rw [hsecond, left_eq_add, nsmul_sub, sub_eq_zero] at hc1
      exact hc1.symm
    · rintro ⟨-, hdistance⟩
      refine Sums.ext hc0 ?_
      rw [hsecond, nsmul_sub, hdistance, sub_self, add_zero]
  · exact ⟨fun h => absurd (hfirst.mp (congrArg Sums.c0 h)) hsum, fun h => absurd h.1 hsum⟩

end

/-! ## bounds -/

/-- Both sums only grow. -/
theorem le_sums (s : Sums ℕ) (message : List ℕ) :
    s.c0 ≤ (sums s message).c0 ∧ s.c1 ≤ (sums s message).c1 := by
  induction message generalizing s with
  | nil => exact ⟨Nat.le_refl _, Nat.le_refl _⟩
  | cons b message ih =>
      obtain ⟨h0, h1⟩ := ih (s.add b)
      simp only [c0_add, c1_add] at h0 h1
      rw [sums_cons]
      omega

variable {B : ℕ}

theorem c0_le (s : Sums ℕ) (message : List ℕ) (h : ∀ b ∈ message, b ≤ B) :
    (sums s message).c0 ≤ s.c0 + B * message.length := by
  induction message generalizing s with
  | nil => exact Nat.le_refl _
  | cons b message ih =>
      obtain ⟨hb, hrest⟩ := List.forall_mem_cons.mp h
      have hle := ih (s.add b) hrest
      rw [c0_add] at hle
      rw [sums_cons, List.length_cons, Nat.mul_succ]
      omega

/-- The second sum grows by the first with each symbol, so by the numbers up
to the length of the message, times the bound. -/
theorem two_mul_c1_le (s : Sums ℕ) (message : List ℕ) (h : ∀ b ∈ message, b ≤ B) :
    2 * (sums s message).c1 ≤ 2 * s.c1 + 2 * message.length * s.c0 +
      B * (message.length * (message.length + 1)) := by
  induction message generalizing s with
  | nil => simp
  | cons b message ih =>
      obtain ⟨hb, hrest⟩ := List.forall_mem_cons.mp h
      have hle := ih (s.add b) hrest
      have hfirst : 2 * (message.length + 1) * b ≤ 2 * (message.length + 1) * B :=
        Nat.mul_le_mul_left _ hb
      rw [sums_cons, List.length_cons]
      calc 2 * (sums (s.add b) message).c1
          ≤ 2 * (s.c1 + (s.c0 + b)) + 2 * message.length * (s.c0 + b) +
              B * (message.length * (message.length + 1)) := hle
        _ = 2 * s.c1 + 2 * (message.length + 1) * s.c0 + 2 * (message.length + 1) * b +
              B * (message.length * (message.length + 1)) := by ring
        _ ≤ 2 * s.c1 + 2 * (message.length + 1) * s.c0 + 2 * (message.length + 1) * B +
              B * (message.length * (message.length + 1)) := by omega
        _ = 2 * s.c1 + 2 * (message.length + 1) * s.c0 +
              B * ((message.length + 1) * (message.length + 1 + 1)) := by ring

end Fletcher
