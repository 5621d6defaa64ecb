import TasteRuntime.Lib.Transducer

/-!
# TasteRuntime.Lib.Interleave

Two programs that share a state of two halves and each work on their own half.

`OnLeft` is the frame condition: whatever the right half is, the program does
the same to the left half, and leaves the right one alone.  It passes from a
step to a run (`OnLeft.runCall`).  Under it the steps of two programs may be
put in any order: each run is what it would be without the other
(`runCall_of_runCall_either`), and together they return if each alone does
(`exists_runCall_either`).
-/

/-- A state `S` that consists of an `A` and a `B`. -/
structure Halves (S A B : Type*) where
  left : S → A
  right : S → B
  join : A → B → S
  join_left_right : ∀ s, join (left s) (right s) = s
  left_join : ∀ a b, left (join a b) = a
  right_join : ∀ a b, right (join a b) = b

namespace Halves

variable {S : Type u} {A : Type u₁} {B : Type u₂} {ε : Type v}

attribute [simp] join_left_right left_join right_join

/-- The halves the other way round. -/
def swap (H : Halves S A B) : Halves S B A where
  left := H.right
  right := H.left
  join b a := H.join a b
  join_left_right := H.join_left_right
  left_join b a := H.right_join a b
  right_join b a := H.left_join a b

/-- The program works on the left half. -/
def OnLeft (H : Halves S A B) (f : S → α → Except ε (S × List γ)) : Prop :=
  ∀ s x b, f (H.join (H.left s) b) x = (f s x).map fun r => (H.join (H.left r.1) b, r.2)

/-- The program works on the right half. -/
def OnRight (H : Halves S A B) (g : S → β → Except ε (S × List δ)) : Prop := H.swap.OnLeft g

variable {H : Halves S A B} {f : S → α → Except ε (S × List γ)}
  {g : S → β → Except ε (S × List δ)}

/-- A program that works on the left half leaves the right one alone. -/
theorem OnLeft.right_eq (hf : H.OnLeft f) (h : f s x = .ok (s', out)) : H.right s' = H.right s := by
  have hself := hf s x (H.right s)
  rw [join_left_right, h] at hself
  have hstate := congrArg (Except.map Prod.fst) hself
  have heq : s' = H.join (H.left s') (H.right s) := Except.ok.inj hstate
  rw [heq, right_join]

theorem OnRight.left_eq (hg : H.OnRight g) (h : g s y = .ok (s', out)) : H.left s' = H.left s :=
  OnLeft.right_eq (H := H.swap) hg h

/-- On states with the same left half a program does the same. -/
theorem OnLeft.eq_map (hf : H.OnLeft f) (h : H.left s' = H.left s) (x : α) :
    f s' x = (f s x).map fun r => (H.join (H.left r.1) (H.right s'), r.2) := by
  have hframe := hf s x (H.right s')
  rwa [← h, join_left_right] at hframe

theorem OnRight.eq_map (hg : H.OnRight g) (h : H.right s' = H.right s) (y : β) :
    g s' y = (g s y).map fun r => (H.join (H.left s') (H.right r.1), r.2) :=
  OnLeft.eq_map (H := H.swap) hg h y

/-- **Frame**: what holds of a step holds of a run. -/
theorem OnLeft.runCall (hf : H.OnLeft f) : H.OnLeft (Transducer.runCall f) := by
  intro s xs b
  induction xs generalizing s with
  | nil => rfl
  | cons x xs ih =>
      simp only [Transducer.runCall]
      rw [hf s x b]
      cases f s x with
      | error e => rfl
      | ok r =>
          obtain ⟨s1, out1⟩ := r
          simp only [Except.map, ih s1]
          cases Transducer.runCall f s1 xs <;> rfl

theorem OnRight.runCall (hg : H.OnRight g) : H.OnRight (Transducer.runCall g) :=
  OnLeft.runCall (H := H.swap) hg

/-! ## interleaved runs -/

/-- The steps of one list. -/
def lefts (ops : List (α ⊕ β)) : List α := ops.filterMap Sum.getLeft?

/-- The steps of the other. -/
def rights (ops : List (α ⊕ β)) : List β := ops.filterMap Sum.getRight?

@[simp] theorem lefts_inl (x : α) (ops : List (α ⊕ β)) : lefts (.inl x :: ops) = x :: lefts ops :=
  rfl

@[simp] theorem lefts_inr (y : β) (ops : List (α ⊕ β)) : lefts (.inr y :: ops) = lefts ops := rfl

@[simp] theorem rights_inl (x : α) (ops : List (α ⊕ β)) : rights (.inl x :: ops) = rights ops :=
  rfl

@[simp] theorem rights_inr (y : β) (ops : List (α ⊕ β)) :
    rights (.inr y :: ops) = y :: rights ops := rfl

/-- A step of one of two programs. -/
def either (f : S → α → Except ε (S × List γ)) (g : S → β → Except ε (S × List δ)) (s : S) :
    α ⊕ β → Except ε (S × List (γ ⊕ δ))
  | .inl x => (f s x).map fun r => (r.1, r.2.map .inl)
  | .inr y => (g s y).map fun r => (r.1, r.2.map .inr)

theorem lefts_append (ops ops' : List (α ⊕ β)) : lefts (ops ++ ops') = lefts ops ++ lefts ops' :=
  List.filterMap_append

theorem rights_append (ops ops' : List (α ⊕ β)) :
    rights (ops ++ ops') = rights ops ++ rights ops' := List.filterMap_append

theorem lefts_map_inl (xs : List α) : lefts (xs.map Sum.inl : List (α ⊕ β)) = xs := by
  simp [lefts, List.filterMap_map, Function.comp_def]

theorem lefts_map_inr (ys : List β) : lefts (ys.map Sum.inr : List (α ⊕ β)) = [] := by
  simp [lefts, List.filterMap_map, Function.comp_def]

theorem rights_map_inl (xs : List α) : rights (xs.map Sum.inl : List (α ⊕ β)) = [] := by
  simp [rights, List.filterMap_map, Function.comp_def]

theorem rights_map_inr (ys : List β) : rights (ys.map Sum.inr : List (α ⊕ β)) = ys := by
  simp [rights, List.filterMap_map, Function.comp_def]

/-- **Projection**: in an interleaved run each program does what it does
alone. -/
theorem runCall_of_runCall_either (hf : H.OnLeft f) (hg : H.OnRight g) (ops : List (α ⊕ β))
    (h : Transducer.runCall (either f g) s ops = .ok (s', outs)) :
    Transducer.runCall f s (lefts ops) = .ok (H.join (H.left s') (H.right s), lefts outs) ∧
      Transducer.runCall g s (rights ops) = .ok (H.join (H.left s) (H.right s'), rights outs) := by
  induction ops generalizing s outs with
  | nil =>
      obtain ⟨rfl, rfl⟩ := Prod.mk.inj (Except.ok.inj h)
      rw [join_left_right]
      exact ⟨rfl, rfl⟩
  | cons op ops ih =>
      cases hstep : either f g s op with
      | error e => simp [Transducer.runCall, hstep] at h
      | ok r =>
          obtain ⟨s1, out1⟩ := r
          cases hrest : Transducer.runCall (either f g) s1 ops with
          | error e => simp [Transducer.runCall, hstep, hrest] at h
          | ok r2 =>
              obtain ⟨s2, out2⟩ := r2
              rw [Transducer.runCall_cons _ hstep hrest, Except.ok.injEq, Prod.mk.injEq] at h
              obtain ⟨rfl, rfl⟩ := h
              obtain ⟨hleft, hright⟩ := ih hrest
              cases op with
              | inl x =>
                  cases hone : f s x with
                  | error e => simp [either, hone, Except.map] at hstep
                  | ok r =>
                      simp only [either, hone, Except.map, Except.ok.injEq, Prod.mk.injEq] at hstep
                      obtain ⟨rfl, rfl⟩ := hstep
                      have hsame := hf.right_eq hone
                      rw [lefts_inl, rights_inl, lefts_append, rights_append, lefts_map_inl,
                        rights_map_inl, List.nil_append]
                      rw [hsame] at hleft
                      refine ⟨Transducer.runCall_cons f hone hleft, ?_⟩
                      -- the other program does not see this step
                      rw [hg.runCall.eq_map hsame.symm, hright]
                      simp [Except.map]
              | inr y =>
                  cases hone : g s y with
                  | error e => simp [either, hone, Except.map] at hstep
                  | ok r =>
                      simp only [either, hone, Except.map, Except.ok.injEq, Prod.mk.injEq] at hstep
                      obtain ⟨rfl, rfl⟩ := hstep
                      have hsame := hg.left_eq hone
                      rw [lefts_inr, rights_inr, lefts_append, rights_append, lefts_map_inr,
                        rights_map_inr, List.nil_append]
                      rw [hsame] at hright
                      refine ⟨?_, Transducer.runCall_cons g hone hright⟩
                      rw [hf.runCall.eq_map hsame.symm, hleft]
                      simp [Except.map]

/-- **Composition**: if each program alone returns, so do both together, each
leaving its half as it does alone. -/
theorem exists_runCall_either (hf : H.OnLeft f) (hg : H.OnRight g) (ops : List (α ⊕ β))
    (hleft : Transducer.runCall f s (lefts ops) = .ok (s₁, outs₁))
    (hright : Transducer.runCall g s (rights ops) = .ok (s₂, outs₂)) :
    ∃ outs, Transducer.runCall (either f g) s ops =
      .ok (H.join (H.left s₁) (H.right s₂), outs) := by
  induction ops generalizing s s₁ s₂ outs₁ outs₂ with
  | nil =>
      obtain ⟨rfl, -⟩ := Prod.mk.inj (Except.ok.inj hleft)
      obtain ⟨rfl, -⟩ := Prod.mk.inj (Except.ok.inj hright)
      rw [join_left_right]
      exact ⟨[], rfl⟩
  | cons op ops ih =>
      cases op with
      | inl x =>
          rw [lefts_inl] at hleft
          rw [rights_inl] at hright
          cases hone : f s x with
          | error e => simp [Transducer.runCall, hone] at hleft
          | ok r =>
              obtain ⟨s1, out1⟩ := r
              cases hrest : Transducer.runCall f s1 (lefts ops) with
              | error e => simp [Transducer.runCall, hone, hrest] at hleft
              | ok r2 =>
                  rw [Transducer.runCall_cons f hone hrest, Except.ok.injEq, Prod.mk.injEq] at hleft
                  obtain ⟨rfl, -⟩ := hleft
                  have hlater := hg.runCall.eq_map (hf.right_eq hone) (rights ops)
                  rw [hright] at hlater
                  obtain ⟨outs, hboth⟩ := ih hrest hlater
                  have hstep : either f g s (.inl x) = .ok (s1, out1.map .inl) := by
                    rw [either, hone]
                    rfl
                  refine ⟨out1.map .inl ++ outs, ?_⟩
                  rw [Transducer.runCall_cons _ hstep hboth]
                  simp
      | inr y =>
          rw [lefts_inr] at hleft
          rw [rights_inr] at hright
          cases hone : g s y with
          | error e => simp [Transducer.runCall, hone] at hright
          | ok r =>
              obtain ⟨s1, out1⟩ := r
              cases hrest : Transducer.runCall g s1 (rights ops) with
              | error e => simp [Transducer.runCall, hone, hrest] at hright
              | ok r2 =>
                  rw [Transducer.runCall_cons g hone hrest, Except.ok.injEq, Prod.mk.injEq]
                    at hright
                  obtain ⟨rfl, -⟩ := hright
                  have hlater := hf.runCall.eq_map (hg.left_eq hone) (lefts ops)
                  rw [hleft] at hlater
                  obtain ⟨outs, hboth⟩ := ih hlater hrest
                  have hstep : either f g s (.inr y) = .ok (s1, out1.map .inr) := by
                    rw [either, hone]
                    rfl
                  refine ⟨out1.map .inr ++ outs, ?_⟩
                  rw [Transducer.runCall_cons _ hstep hboth]
                  simp

end Halves
