import TasteRuntime.Lib.Transducer

/-!
# TasteRuntime.Lib.Fair

Progress of a program that is given moves by a scheduler.  A service move
either leaves the state alone or makes it smaller; as long as there is work,
one of a list of them makes it smaller.  A round is any sequence of service
moves in which each of the list occurs.  Then every round makes the state
smaller, in whatever order it takes its moves, and as many rounds as the state
is large finish the work (`exists_runCall_rounds`).
-/

namespace Transducer

variable {S : Type u} {ε : Type v} {f : S → α → Except ε (S × List β)}

/-- A sequence of service moves in which each of a list of them occurs. -/
structure IsRound (Serves : α → Prop) (services round : List α) : Prop where
  only : ∀ a ∈ round, Serves a
  each : services ⊆ round

variable {Serves : α → Prop} {services : List α} {size : S → Nat} {Inv : S → List β → Prop}

/-- Service moves never make the state larger, and leave it alone unless they
make it smaller. -/
theorem exists_runCall_services
    (hstep : ∀ s outs a, Inv s outs → Serves a → ∃ s' out, f s a = .ok (s', out) ∧
      Inv s' (outs ++ out) ∧ ((s' = s ∧ out = []) ∨ size s' < size s))
    (moves : List α) (honly : ∀ a ∈ moves, Serves a) (s : S) (outs : List β) (h : Inv s outs) :
    ∃ s' out, runCall f s moves = .ok (s', out) ∧ Inv s' (outs ++ out) ∧ size s' ≤ size s := by
  induction moves generalizing s outs with
  | nil => exact ⟨s, [], rfl, by rwa [List.append_nil], Nat.le_refl _⟩
  | cons a moves ih =>
      obtain ⟨ha, hmoves⟩ := List.forall_mem_cons.mp honly
      obtain ⟨s1, out1, hone, h1, hsmaller⟩ := hstep s outs a h ha
      have hle : size s1 ≤ size s := by
        obtain ⟨rfl, -⟩ | hlt := hsmaller
        · exact Nat.le_refl _
        · exact Nat.le_of_lt hlt
      obtain ⟨s2, out2, hrun, h2, hle2⟩ := ih hmoves s1 _ h1
      exact ⟨s2, out1 ++ out2, runCall_cons f hone hrun, by rwa [← List.append_assoc],
        Nat.le_trans hle2 hle⟩

/-- **Round**: while there is work, a round makes the state smaller. -/
theorem exists_runCall_round
    (hstep : ∀ s outs a, Inv s outs → Serves a → ∃ s' out, f s a = .ok (s', out) ∧
      Inv s' (outs ++ out) ∧ ((s' = s ∧ out = []) ∨ size s' < size s))
    (a : α) (moves : List α) (honly : ∀ a ∈ moves, Serves a) (heach : a ∈ moves) (s : S)
    (outs : List β) (h : Inv s outs)
    (hwork : ∀ s' out, f s a = .ok (s', out) → size s' < size s) :
    ∃ s' out, runCall f s moves = .ok (s', out) ∧ Inv s' (outs ++ out) ∧ size s' < size s := by
  induction moves with
  | nil => contradiction
  | cons b moves ih =>
      obtain ⟨hb, hmoves⟩ := List.forall_mem_cons.mp honly
      obtain ⟨s1, out1, hone, h1, hsmaller⟩ := hstep s outs b h hb
      -- either the state is smaller already, or the move that works is still to come
      obtain ⟨rfl, rfl⟩ | hlt := hsmaller
      · have heach' : a ∈ moves := by
          obtain rfl | hmem := List.mem_cons.mp heach
          · exact absurd (hwork _ _ hone) (Nat.lt_irrefl _)
          · exact hmem
        obtain ⟨s2, out2, hrun, h2, hlt⟩ := ih hmoves heach'
        exact ⟨s2, out2, runCall_cons f hone hrun, h2, hlt⟩
      · obtain ⟨s2, out2, hrun, h2, hle⟩ := exists_runCall_services hstep moves hmoves s1 _ h1
        exact ⟨s2, out1 ++ out2, runCall_cons f hone hrun, by rwa [← List.append_assoc],
          Nat.lt_of_le_of_lt hle hlt⟩

/-- **Progress**: as many rounds as the state is large finish the work. -/
theorem exists_runCall_rounds
    (hstep : ∀ s outs a, Inv s outs → Serves a → ∃ s' out, f s a = .ok (s', out) ∧
      Inv s' (outs ++ out) ∧ ((s' = s ∧ out = []) ∨ size s' < size s))
    (hwork : ∀ s outs, Inv s outs → size s ≠ 0 →
      ∃ a ∈ services, ∀ s' out, f s a = .ok (s', out) → size s' < size s)
    (rounds : List (List α)) (hrounds : ∀ round ∈ rounds, IsRound Serves services round) (s : S)
    (outs : List β) (h : Inv s outs) (hsize : size s ≤ rounds.length) :
    ∃ s' out, runCall f s rounds.flatten = .ok (s', out) ∧ Inv s' (outs ++ out) ∧
      size s' = 0 := by
  induction rounds generalizing s outs with
  | nil => exact ⟨s, [], rfl, by rwa [List.append_nil], Nat.le_zero.mp hsize⟩
  | cons round rounds ih =>
      obtain ⟨hround, hothers⟩ := List.forall_mem_cons.mp hrounds
      have hone : ∃ s1 out1, runCall f s round = .ok (s1, out1) ∧ Inv s1 (outs ++ out1) ∧
          size s1 ≤ rounds.length := by
        by_cases hzero : size s = 0
        · obtain ⟨s1, out1, hrun, h1, hle⟩ :=
            exists_runCall_services hstep round hround.only s outs h
          exact ⟨s1, out1, hrun, h1, by omega⟩
        · obtain ⟨a, ha, hsmaller⟩ := hwork s outs h hzero
          obtain ⟨s1, out1, hrun, h1, hlt⟩ :=
            exists_runCall_round hstep a round hround.only (hround.each ha) s outs h hsmaller
          rw [List.length_cons] at hsize
          exact ⟨s1, out1, hrun, h1, by omega⟩
      obtain ⟨s1, out1, hrun, h1, hle⟩ := hone
      obtain ⟨s2, out2, hrest, h2, hzero⟩ := ih hothers s1 _ h1 hle
      refine ⟨s2, out1 ++ out2, ?_, by rwa [← List.append_assoc], hzero⟩
      simp only [List.flatten_cons, runCall_append, hrun, hrest]

end Transducer
