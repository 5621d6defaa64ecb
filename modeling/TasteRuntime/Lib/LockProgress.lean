import Mathlib.Algebra.BigOperators.Ring.Finset
import Mathlib.Algebra.Order.BigOperators.Group.Finset
import Mathlib.Order.Lattice.Nat
import TasteRuntime.Lib.Fair
import TasteRuntime.Lib.Linearized

/-!
# TasteRuntime.Lib.LockProgress

Threads that share a lock (`TasteRuntime.Lib.Locking`) come to their end.  Every
step a thread makes leaves it less to do, so only a thread that waits for the
lock, or has nothing to do, stands still (`Bounded.turn`).  The thread that
holds the lock is inside a section that does not take the lock again and ends by
freeing it, so there is always a thread that can move (`Linearized.exists_canMove`).
Under a schedule of enough rounds all operations are done, if none of them
fails (`completed_of_rounds`).  A thread that would take the lock it holds waits
forever, and with it all others that need the lock (`Stuck.runCall`).
-/

namespace Locking

open Transducer

variable {S β ε ι Op : Type}

/-! ## the length of a body -/

namespace Body

/-- What is left of a body behind its first step, for some value that was
read. -/
inductive Then : Body S β ε → Body S β ε → Prop where
  | access {V : Type} (f : S → Except ε (V × S × List β)) (rest : V → Body S β ε) (v : V) :
      Then (.access f rest) (rest v)
  | acquire (call : β) (rest : Body S β ε) : Then (.acquire call rest) rest
  | release (call : β) (rest : Body S β ε) : Then (.release call rest) rest

/-- A body makes at most `n` steps. -/
inductive Within : Nat → Body S β ε → Prop where
  | done (n : Nat) : Within n .done
  | access {V : Type} {f : S → Except ε (V × S × List β)} {rest : V → Body S β ε} {n : Nat}
      (hrest : ∀ v, Within n (rest v)) : Within (n + 1) (.access f rest)
  | acquire {rest : Body S β ε} {n : Nat} (call : β) (hrest : Within n rest) :
      Within (n + 1) (.acquire call rest)
  | release {rest : Body S β ε} {n : Nat} (call : β) (hrest : Within n rest) :
      Within (n + 1) (.release call rest)

variable {body rest next : Body S β ε}

theorem Within.mono (h : body.Within n) (hle : n ≤ m) : body.Within m := by
  induction h generalizing m with
  | done n => exact .done m
  | access _ ih =>
      obtain ⟨m, rfl⟩ := Nat.exists_eq_add_of_le' (Nat.le_trans (Nat.le_add_left 1 _) hle)
      exact .access fun v => ih v (Nat.le_of_succ_le_succ hle)
  | acquire call _ ih =>
      obtain ⟨m, rfl⟩ := Nat.exists_eq_add_of_le' (Nat.le_trans (Nat.le_add_left 1 _) hle)
      exact .acquire call (ih (Nat.le_of_succ_le_succ hle))
  | release call _ ih =>
      obtain ⟨m, rfl⟩ := Nat.exists_eq_add_of_le' (Nat.le_trans (Nat.le_add_left 1 _) hle)
      exact .release call (ih (Nat.le_of_succ_le_succ hle))

/-- One body after the other makes as many steps as both. -/
theorem Within.andThen (h : body.Within n) (hnext : next.Within m) :
    (body.andThen next).Within (n + m) := by
  induction h with
  | done n => exact hnext.mono (Nat.le_add_left m n)
  | access _ ih =>
      rw [Nat.add_right_comm]
      exact .access ih
  | acquire call _ ih =>
      rw [Nat.add_right_comm]
      exact .acquire call ih
  | release call _ ih =>
      rw [Nat.add_right_comm]
      exact .release call ih

theorem Within.of_then (h : body.Within (n + 1)) (hthen : body.Then rest) : rest.Within n := by
  cases hthen with
  | access f rest v => cases h with | access hrest => exact hrest v
  | acquire call rest => cases h with | acquire _ hrest => exact hrest
  | release call rest => cases h with | release _ hrest => exact hrest

theorem Within.pos_of_then (h : body.Within n) (hthen : body.Then rest) : 0 < n := by
  cases hthen <;> cases h <;> exact Nat.succ_pos _

/-- The steps a body makes at most. -/
noncomputable def depth (body : Body S β ε) : Nat := sInf {n | body.Within n}

theorem depth_le (h : body.Within n) : body.depth ≤ n := Nat.sInf_le h

theorem depth_done : (.done : Body S β ε).depth = 0 := Nat.le_zero.mp (depth_le (.done 0))

theorem Within.depth (h : body.Within n) : body.Within body.depth :=
  Nat.sInf_mem (s := {n | body.Within n}) ⟨n, h⟩

/-- Behind a step there are fewer. -/
theorem depth_lt_of_then (h : body.Within n) (hthen : body.Then rest) :
    rest.depth < body.depth := by
  have hdepth := h.depth
  have hpos := hdepth.pos_of_then hthen
  obtain ⟨m, hm⟩ := Nat.exists_eq_add_of_le' hpos
  rw [hm] at hdepth
  have hle := depth_le (hdepth.of_then hthen)
  omega

/-- A body that makes no step is at its end. -/
theorem eq_done_of_depth_eq_zero (h : body.Within n) (hzero : body.depth = 0) : body = .done := by
  have hdepth := h.depth
  rw [hzero] at hdepth
  cases hdepth
  rfl

end Body

/-! ## what a turn does -/

variable [DecidableEq ι] {task : Op → Body S β ε} {config config' : Config S β ε ι Op}

/-- The thread has a step to make, and need not wait for the lock. -/
def CanMove (config : Config S β ε ι Op) (thread : ι) : Prop :=
  match config.running thread with
  | .done => config.programs thread ≠ []
  | .acquire _ _ => config.holder = none
  | .access _ _ | .release _ _ => True

/-- A turn changes nothing, or a thread begins its next operation, or makes the
next step of the one it has begun. -/
theorem step_cases (h : step task config thread = .ok (config', out)) :
    (config' = config ∧ out = [] ∧ ¬ CanMove config thread) ∨
    (∃ op ops, config.running thread = .done ∧ config.programs thread = op :: ops ∧
      config'.programs = Function.update config.programs thread ops ∧
      config'.running = Function.update config.running thread (task op)) ∨
    ∃ rest, (config.running thread).Then rest ∧ config'.programs = config.programs ∧
      config'.running = Function.update config.running thread rest := by
  cases hrunning : config.running thread with
  | done =>
      cases hprogram : config.programs thread with
      | nil =>
          rw [step_end hrunning hprogram] at h
          obtain ⟨rfl, rfl⟩ := Prod.mk.inj (Except.ok.inj h)
          exact .inl ⟨rfl, rfl, by simp [CanMove, hrunning, hprogram]⟩
      | cons op ops =>
          rw [step_begin hrunning hprogram] at h
          obtain ⟨rfl, -⟩ := Prod.mk.inj (Except.ok.inj h)
          exact .inr (.inl ⟨op, ops, rfl, rfl, rfl, rfl⟩)
  | access f rest =>
      cases hf : f config.shared with
      | error e =>
          rw [step_access_error hrunning hf] at h
          contradiction
      | ok r =>
          obtain ⟨v, s, out'⟩ := r
          rw [step_access hrunning hf] at h
          obtain ⟨rfl, -⟩ := Prod.mk.inj (Except.ok.inj h)
          exact .inr (.inr ⟨rest v, .access f rest v, rfl, rfl⟩)
  | acquire call rest =>
      by_cases hholder : config.holder = none
      · rw [step_acquire hrunning hholder] at h
        obtain ⟨rfl, -⟩ := Prod.mk.inj (Except.ok.inj h)
        exact .inr (.inr ⟨rest, .acquire call rest, rfl, rfl⟩)
      · rw [step_wait hrunning hholder] at h
        obtain ⟨rfl, rfl⟩ := Prod.mk.inj (Except.ok.inj h)
        exact .inl ⟨rfl, rfl, by simp [CanMove, hrunning, hholder]⟩
  | release call rest =>
      rw [step_release hrunning] at h
      obtain ⟨rfl, -⟩ := Prod.mk.inj (Except.ok.inj h)
      exact .inr (.inr ⟨rest, .release call rest, rfl, rfl⟩)

/-! ## a lock that is taken again -/

/-- An operation starts with taking the lock, or is one update without it. -/
inductive Opens : Body S β ε → Prop where
  | locked (call : β) (rest : Body S β ε) : Opens (.acquire call rest)
  | free (g : S → S) : Opens (.access (fun s => .ok ((), g s, [])) fun _ => .done)

/-- A thread would take the lock that it holds, and no other thread is inside
an operation. -/
structure Stuck (task : Op → Body S β ε) (config : Config S β ε ι Op) (thread : ι) : Prop where
  holder : config.holder = some thread
  running : ∃ call rest, config.running thread = .acquire call rest
  others : ∀ t, t ≠ thread → ∃ flight, Outside task (config.running t) flight

/-- No turn changes that, and none puts anything out. -/
theorem Stuck.step {thread : ι} (h : Stuck task config thread) (hops : ∀ op, Opens (task op))
    (t : ι) :
    ∃ config', Locking.step task config t = .ok (config', []) ∧ Stuck task config' thread := by
  have hheld : config.holder ≠ none := by simp [h.holder]
  by_cases ht : t = thread
  · subst ht
    obtain ⟨call, rest, hrunning⟩ := h.running
    exact ⟨config, step_wait hrunning hheld, h⟩
  have hself (body : Body S β ε) :
      ∃ call rest, Function.update config.running t body thread = .acquire call rest := by
    rw [Function.update_of_ne (Ne.symm ht)]
    exact h.running
  have hothers (body : Body S β ε) (hbody : ∃ flight, Outside task body flight) (t' : ι)
      (ht' : t' ≠ thread) : ∃ flight, Outside task (Function.update config.running t body t')
        flight := by
    by_cases heq : t' = t
    · subst heq
      rwa [Function.update_self]
    · rw [Function.update_of_ne heq]
      exact h.others t' ht'
  obtain ⟨flight, houtside⟩ := h.others t ht
  generalize hrunning : config.running t = body at houtside
  cases houtside with
  | idle =>
      cases hprogram : config.programs t with
      | nil => exact ⟨config, step_end hrunning hprogram, h⟩
      | cons op ops =>
          exact ⟨_, step_begin hrunning hprogram, h.holder, hself _,
            hothers _ ⟨_, .begun op⟩⟩
  | begun op =>
      have hop := hops op
      generalize task op = body at hop hrunning
      cases hop with
      | locked call rest => exact ⟨config, step_wait hrunning hheld, h⟩
      | free g =>
          exact ⟨_, step_access hrunning rfl, h.holder, hself _, hothers _ ⟨_, .idle⟩⟩

/-- **Deadlock**: under any schedule the thread keeps the lock and waits for
it, and nothing is put out any more. -/
theorem Stuck.runCall {thread : ι} (h : Stuck task config thread) (hops : ∀ op, Opens (task op))
    (schedule : List ι) :
    ∃ config', Transducer.runCall (Locking.step task) config schedule = .ok (config', []) ∧
      Stuck task config' thread := by
  induction schedule generalizing config with
  | nil => exact ⟨config, rfl, h⟩
  | cons t schedule ih =>
      obtain ⟨config', hstep, h'⟩ := h.step hops t
      obtain ⟨config'', hrun, h''⟩ := ih h'
      exact ⟨config'', runCall_cons _ hstep hrun, h''⟩

/-! ## what is left to do -/

/-- All there is to do is within `n` steps an operation. -/
structure Bounded (task : Op → Body S β ε) (n : Nat) (config : Config S β ε ι Op) : Prop where
  programs : ∀ t, ∀ op ∈ config.programs t, (task op).Within n
  running : ∀ t, (config.running t).Within n

/-- What a thread has left to do: an operation not begun counts as its steps
and its begin. -/
noncomputable def Config.loadOf (n : Nat) (config : Config S β ε ι Op) (thread : ι) : Nat :=
  (n + 1) * (config.programs thread).length + (config.running thread).depth

variable [Fintype ι]

/-- What is left to do. -/
noncomputable def Config.load (n : Nat) (config : Config S β ε ι Op) : Nat :=
  ∑ t, config.loadOf n t

/-- What one thread does leaves less to do for all of them. -/
theorem load_lt (thread : ι)
    (hother : ∀ t, t ≠ thread → config'.loadOf n t = config.loadOf n t)
    (hthread : config'.loadOf n thread < config.loadOf n thread) :
    config'.load n < config.load n := by
  refine Finset.sum_lt_sum (fun t _ => ?_) ⟨thread, Finset.mem_univ thread, hthread⟩
  by_cases ht : t = thread
  · exact ht ▸ Nat.le_of_lt hthread
  · exact Nat.le_of_eq (hother t ht)

/-- **Turn**: a turn leaves all as it was, or less to do; less if the thread
can move. -/
theorem Bounded.turn (h : Bounded task n config)
    (hstep : step task config thread = .ok (config', out)) :
    Bounded task n config' ∧
      ((config' = config ∧ out = [] ∧ ¬ CanMove config thread) ∨
        config'.load n < config.load n) := by
  obtain ⟨rfl, rfl, hstuck⟩ | ⟨op, ops, hrunning, hprogram, hprograms', hrunning'⟩ |
    ⟨rest, hthen, hprograms', hrunning'⟩ := step_cases hstep
  · exact ⟨h, .inl ⟨rfl, rfl, hstuck⟩⟩
  · have hop : (task op).Within n := h.programs thread op (by simp [hprogram])
    refine ⟨⟨fun t op' hop' => ?_, fun t => ?_⟩, .inr (load_lt thread (fun t ht => ?_) ?_)⟩
    · by_cases ht : t = thread
      · subst ht
        rw [hprograms', Function.update_self] at hop'
        exact h.programs t op' (by simp [hprogram, hop'])
      · rw [hprograms', Function.update_of_ne ht] at hop'
        exact h.programs t op' hop'
    · by_cases ht : t = thread
      · subst ht
        rwa [hrunning', Function.update_self]
      · rw [hrunning', Function.update_of_ne ht]
        exact h.running t
    · simp only [Config.loadOf, hprograms', hrunning', Function.update_of_ne ht]
    · have hdepth := Body.depth_le hop
      simp only [Config.loadOf, hprograms', hrunning', Function.update_self, hprogram,
        List.length_cons, Nat.mul_add]
      omega
  · refine ⟨⟨hprograms' ▸ h.programs, fun t => ?_⟩, .inr (load_lt thread (fun t ht => ?_) ?_)⟩
    · by_cases ht : t = thread
      · subst ht
        rw [hrunning', Function.update_self]
        have hwithin := h.running t
        obtain ⟨m, rfl⟩ := Nat.exists_eq_add_of_le' (hwithin.pos_of_then hthen)
        exact (hwithin.of_then hthen).mono (Nat.le_succ m)
      · rw [hrunning', Function.update_of_ne ht]
        exact h.running t
    · simp only [Config.loadOf, hprograms', hrunning', Function.update_of_ne ht]
    · have hdepth := Body.depth_lt_of_then (h.running thread) hthen
      simp only [Config.loadOf, hprograms', hrunning', Function.update_self]
      omega

variable {G : (S → S) → Prop} {programs : ι → List Op} {start : S}

/-- **No deadlock**: while there is something to do, a thread can do it. -/
theorem Linearized.exists_canMove
    (h : Linearized task G start programs config outs order a effect flight)
    (hload : config.load n ≠ 0) : ∃ thread, CanMove config thread := by
  cases hholder : config.holder with
  | some thread =>
      refine ⟨thread, ?_⟩
      have hinside := h.inside hholder
      unfold CanMove
      generalize config.running thread = body at hinside
      cases hinside <;> trivial
  | none =>
      obtain ⟨thread, -, hthread⟩ := Finset.exists_ne_zero_of_sum_ne_zero hload
      refine ⟨thread, ?_⟩
      unfold CanMove
      split
      · next hrunning =>
          intro hprogram
          exact hthread (by simp [Config.loadOf, hrunning, hprogram, Body.depth_done])
      · exact hholder
      · trivial
      · trivial

/-- Nothing is left to do. -/
theorem Linearized.eq_initial
    (h : Linearized task G start programs config outs order a effect flight)
    (hbounded : Bounded task n config) (hload : config.load n = 0) :
    config = initial config.shared fun _ => [] := by
  have hzero (t : ι) : (n + 1) * (config.programs t).length + (config.running t).depth = 0 :=
    Finset.sum_eq_zero_iff.mp hload t (Finset.mem_univ t)
  have hprograms : config.programs = fun _ => [] := funext fun t =>
    List.length_eq_zero_iff.mp
      ((Nat.mul_eq_zero.mp (Nat.add_eq_zero_iff.mp (hzero t)).1).resolve_left (Nat.succ_ne_zero n))
  have hrunning : config.running = fun _ => .done := funext fun t =>
    Body.eq_done_of_depth_eq_zero (hbounded.running t) (Nat.add_eq_zero_iff.mp (hzero t)).2
  have hholder : config.holder = none := by
    cases hheld : config.holder with
    | none => rfl
    | some thread =>
        have hinside := h.inside hheld
        rw [hrunning] at hinside
        nomatch hinside
  obtain ⟨shared, rest, running, holder⟩ := config
  obtain rfl : rest = _ := hprograms
  obtain rfl : running = _ := hrunning
  obtain rfl : holder = none := hholder
  rfl

/-! ## rounds -/

/-- **Completion**: operations of at most `n` steps that do not fail are all
done under any schedule with `n + 1` rounds for each of them, and what they did
is what some order of them does, in which those of each thread stand as in its
program. -/
theorem completed_of_rounds (hops : ∀ t, ∀ op ∈ programs t, Interruptible G (task op))
    (hbound : ∀ t, ∀ op ∈ programs t, (task op).Within n)
    (hok : ∀ order a effect, (∀ t, opsOf t order <+: programs t) →
      runOps task start (order.map Prod.snd) = .ok (a, effect) →
      ∀ t, ∀ op ∈ programs t, ∀ e, (task op).run a ≠ .error e)
    (rounds : List (List ι)) (hrounds : ∀ round ∈ rounds, ∀ t, t ∈ round)
    (hlength : (n + 1) * ∑ t, (programs t).length ≤ rounds.length) :
    ∃ shared outs order,
      runCall (step task) (initial start programs) rounds.flatten =
        .ok (initial shared fun _ => [], outs) ∧
      (∀ t, opsOf t order = programs t) ∧
      runOps task start (order.map Prod.snd) = .ok (shared, outs) := by
  let Inv (config : Config S β ε ι Op) (outs : List β) : Prop :=
    Bounded task n config ∧ ∃ order a effect flight,
      Linearized task G start programs config outs order a effect flight
  have hstep (config : Config S β ε ι Op) (outs : List β) (thread : ι) (h : Inv config outs)
      (_ : True) :
      ∃ config' out, step task config thread = .ok (config', out) ∧ Inv config' (outs ++ out) ∧
        ((config' = config ∧ out = []) ∨ config'.load n < config.load n) := by
    obtain ⟨hbounded, order, a, effect, flight, hlinear⟩ := h
    obtain ⟨config', out, hone, hlinear'⟩ | ⟨e, op, -, hmem, hfail⟩ := hlinear.step hops thread
    · obtain ⟨hbounded', hturn⟩ := hbounded.turn hone
      exact ⟨config', out, hone, ⟨hbounded', hlinear'⟩,
        hturn.imp_left fun ⟨hsame, hout, _⟩ => ⟨hsame, hout⟩⟩
    · have hfront (t : ι) : opsOf t order <+: programs t := by
        rw [hlinear.programs_eq t]
        exact List.prefix_append _ _
      exact absurd hfail (hok order a effect hfront hlinear.run_eq thread op hmem e)
  have hwork (config : Config S β ε ι Op) (outs : List β) (h : Inv config outs)
      (hload : config.load n ≠ 0) :
      ∃ thread ∈ (Finset.univ : Finset ι).toList, ∀ config' out,
        step task config thread = .ok (config', out) → config'.load n < config.load n := by
    obtain ⟨hbounded, order, a, effect, flight, hlinear⟩ := h
    obtain ⟨thread, hmoves⟩ := hlinear.exists_canMove hload
    refine ⟨thread, Finset.mem_toList.mpr (Finset.mem_univ thread), fun config' out hone => ?_⟩
    obtain ⟨-, -, hstuck⟩ | hlt := (hbounded.turn hone).2
    · exact absurd hmoves hstuck
    · exact hlt
  have hround : ∀ round ∈ rounds,
      IsRound (fun _ => True) (Finset.univ : Finset ι).toList round :=
    fun round hmem => ⟨fun _ _ => trivial, fun t _ => hrounds round hmem t⟩
  have hload : (initial start programs : Config S β ε ι Op).load n ≤ rounds.length := by
    simpa [Config.load, Config.loadOf, initial, Body.depth_done, ← Finset.mul_sum] using hlength
  obtain ⟨config, outs, hrun, ⟨hbounded, order, a, effect, flight, hlinear⟩, hzero⟩ :=
    exists_runCall_rounds hstep hwork rounds hround (initial start programs) []
      ⟨⟨hbound, fun _ => .done n⟩, _, _, _, _, linearized_initial G start programs⟩ hload
  have hinitial := hlinear.eq_initial hbounded hzero
  have hfree : config.holder = none := by rw [hinitial, initial]
  refine ⟨config.shared, outs, order, by rw [hrun, ← hinitial], fun t => ?_,
    hlinear.quiet hfree⟩
  have hidle : flight t = [] := hlinear.flight_eq_nil hops (by rw [hinitial, initial])
  rw [hlinear.programs_eq t, hidle, hinitial, initial]
  simp

end Locking
