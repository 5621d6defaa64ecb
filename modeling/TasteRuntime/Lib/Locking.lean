import TasteRuntime.Lib.Transducer

/-!
# TasteRuntime.Lib.Locking

Threads that share a state and a lock.  What a thread does is a program of
single steps (`Body`): accesses to the state, and taking and freeing the lock,
which are steps of their own and stand where the program has them.  The
scheduler may switch between any two of them; a thread that would take the lock
while it is held waits.

A body is `Interruptible` if it takes the lock with its first step and frees it
with its last, and between them its accesses commute with the updates other
threads make without the lock, up to one of them, the point where it takes
effect, and do again behind it, without failing there; or if it is such an
update itself.  The section of the thread with the lock is then `Pending` or
`Taken`, and each of its steps keeps that (`Pending.access`, `Taken.access`).
-/

namespace Locking

/-- Steps of a thread, one after the other.  An access reads a value, changes
the shared state and puts something out, and what follows depends on the value
it read; the lock is taken and freed with an output of its own. -/
inductive Body (S β ε : Type) : Type 1 where
  | done
  | access {V : Type} (f : S → Except ε (V × S × List β)) (rest : V → Body S β ε)
  | acquire (call : β) (rest : Body S β ε)
  | release (call : β) (rest : Body S β ε)

variable {S β ε ι Op : Type}

/-- What follows something that has put out `front`. -/
def after (front : List β) : Except ε (S × List β) → Except ε (S × List β)
  | .error e => .error e
  | .ok (s, out) => .ok (s, front ++ out)

theorem after_nil (r : Except ε (S × List β)) : after [] r = r := by
  cases r <;> rfl

theorem after_after (front back : List β) (r : Except ε (S × List β)) :
    after front (after back r) = after (front ++ back) r := by
  cases r with
  | error e => rfl
  | ok r => simp only [after, List.append_assoc]

namespace Body

/-- All steps of a body in a row, by a thread that nobody keeps from the
lock. -/
def run : Body S β ε → S → Except ε (S × List β)
  | .done, s => .ok (s, [])
  | .access f rest, s =>
      match f s with
      | .error e => .error e
      | .ok (v, s', out) => after out ((rest v).run s')
  | .acquire call rest, s => after [call] (rest.run s)
  | .release call rest, s => after [call] (rest.run s)

theorem run_access {V : Type} {f : S → Except ε (V × S × List β)} {v : V}
    (rest : V → Body S β ε) (h : f s = .ok (v, s', out)) :
    (Body.access f rest).run s = after out ((rest v).run s') := by
  simp only [run, h]

/-- One body after the other. -/
def andThen : Body S β ε → Body S β ε → Body S β ε
  | .done, next => next
  | .access f rest, next => .access f fun v => (rest v).andThen next
  | .acquire call rest, next => .acquire call (rest.andThen next)
  | .release call rest, next => .release call (rest.andThen next)

/-- The body comes to its end, does without the lock, and keeps off the shared
state: it does not read it, does not change it and puts nothing out. -/
inductive Quiet : Body S β ε → Prop where
  | done : Quiet .done
  | access {V : Type} {f : S → Except ε (V × S × List β)} {rest : V → Body S β ε} (v : V)
      (hf : ∀ s, f s = .ok (v, s, [])) (hrest : ∀ v, Quiet (rest v)) : Quiet (.access f rest)

/-- A quiet body in front of another changes nothing. -/
theorem Quiet.run_andThen {body : Body S β ε} (h : body.Quiet) (next : Body S β ε) (s : S) :
    (body.andThen next).run s = next.run s := by
  induction h with
  | done => rfl
  | access v hf _ ih =>
      rw [andThen, run_access _ (hf s), after_nil]
      exact ih v

end Body

/-! ## schedules -/

/-- The shared state, the operations each thread has still to begin, what it
has still to do for the one it has begun, and the thread that holds the lock. -/
structure Config (S β ε ι Op : Type) where
  shared : S
  programs : ι → List Op
  running : ι → Body S β ε
  holder : Option ι

variable [DecidableEq ι] (task : Op → Body S β ε)

/-- The threads before they begin. -/
def initial (start : S) (programs : ι → List Op) : Config S β ε ι Op :=
  ⟨start, programs, fun _ => .done, none⟩

/-- The scheduler gives a thread its turn: it begins its next operation, or
makes the next step of the one it has begun.  A thread that would take the lock
while it is held waits. -/
def step (config : Config S β ε ι Op) (thread : ι) :
    Except ε (Config S β ε ι Op × List β) :=
  match config.running thread with
  | .done =>
      match config.programs thread with
      | [] => .ok (config, [])
      | op :: ops =>
          .ok ({ config with
            programs := Function.update config.programs thread ops
            running := Function.update config.running thread (task op) }, [])
  | .access f rest =>
      match f config.shared with
      | .error e => .error e
      | .ok (v, s, out) =>
          .ok ({ config with
            shared := s
            running := Function.update config.running thread (rest v) }, out)
  | .acquire call rest =>
      match config.holder with
      | some _ => .ok (config, [])
      | none =>
          .ok ({ config with
            running := Function.update config.running thread rest
            holder := some thread }, [call])
  | .release call rest =>
      .ok ({ config with
        running := Function.update config.running thread rest
        holder := none }, [call])

section Turns

variable {task} {config : Config S β ε ι Op}

theorem step_begin (hrunning : config.running thread = .done)
    (hprogram : config.programs thread = op :: ops) :
    step task config thread = .ok ({ config with
      programs := Function.update config.programs thread ops
      running := Function.update config.running thread (task op) }, []) := by
  simp only [step, hrunning, hprogram]

theorem step_end (hrunning : config.running thread = .done)
    (hprogram : config.programs thread = []) : step task config thread = .ok (config, []) := by
  simp only [step, hrunning, hprogram]

theorem step_access {V : Type} {f : S → Except ε (V × S × List β)} {rest : V → Body S β ε}
    {v : V} (hrunning : config.running thread = .access f rest)
    (hf : f config.shared = .ok (v, s, out)) :
    step task config thread = .ok ({ config with
      shared := s
      running := Function.update config.running thread (rest v) }, out) := by
  simp only [step, hrunning, hf]

theorem step_access_error {V : Type} {f : S → Except ε (V × S × List β)} {rest : V → Body S β ε}
    (hrunning : config.running thread = .access f rest) (hf : f config.shared = .error e) :
    step task config thread = .error e := by
  simp only [step, hrunning, hf]

theorem step_acquire (hrunning : config.running thread = .acquire call rest)
    (hholder : config.holder = none) :
    step task config thread = .ok ({ config with
      running := Function.update config.running thread rest
      holder := some thread }, [call]) := by
  simp only [step, hrunning, hholder]

theorem step_wait (hrunning : config.running thread = .acquire call rest)
    (hholder : config.holder ≠ none) : step task config thread = .ok (config, []) := by
  obtain ⟨holder, hsome⟩ := Option.ne_none_iff_exists'.mp hholder
  simp only [step, hrunning, hsome]

theorem step_release (hrunning : config.running thread = .release call rest) :
    step task config thread = .ok ({ config with
      running := Function.update config.running thread rest
      holder := none }, [call]) := by
  simp only [step, hrunning]

end Turns

/-! ## what may be interrupted -/

/-- An access that a free update may just as well follow or precede. -/
def Commutes (update : S → S) {V : Type} (f : S → Except ε (V × S × List β)) (s : S) : Prop :=
  f (update s) = (f s).map fun r => (r.1, update r.2.1, r.2.2)

/-- A section that has taken effect: from states that meet `P`, each access
succeeds and commutes with the free updates `G`, which keep `P`, and the last
step frees the lock. -/
inductive Settled (G : (S → S) → Prop) : (S → Prop) → Body S β ε → Prop where
  | release (P : S → Prop) (call : β) : Settled G P (.release call .done)
  | access {V : Type} {f : S → Except ε (V × S × List β)} {rest : V → Body S β ε}
      {P : S → Prop} (Q : V → S → Prop) (hkeep : ∀ s, P s → ∀ g, G g → P (g s))
      (hcommutes : ∀ s, P s → ∀ g, G g → Commutes g f s)
      (hok : ∀ s, P s → ∃ v s' out, f s = .ok (v, s', out) ∧ Q v s')
      (hrest : ∀ v, Settled G (Q v) (rest v)) : Settled G P (.access f rest)

/-- A section that is still to take effect: after accesses that commute with
the free updates, there is one behind which it is settled. -/
inductive Reducible (G : (S → S) → Prop) : Body S β ε → Prop where
  | settled (h : Settled G (fun _ => True) body) : Reducible G body
  | mover {V : Type} {f : S → Except ε (V × S × List β)} {rest : V → Body S β ε}
      (hcommutes : ∀ s g, G g → Commutes g f s) (hrest : ∀ v, Reducible G (rest v)) :
      Reducible G (.access f rest)
  | point {V : Type} {f : S → Except ε (V × S × List β)} {rest : V → Body S β ε}
      (Q : V → S → Prop) (hQ : ∀ s v s' out, f s = .ok (v, s', out) → Q v s')
      (hrest : ∀ v, Settled G (Q v) (rest v)) : Reducible G (.access f rest)

/-- An operation is a section under the lock, or one free update. -/
inductive Interruptible (G : (S → S) → Prop) : Body S β ε → Prop where
  | locked (call : β) (h : Reducible G body) : Interruptible G (.acquire call body)
  | free (hg : G g) : Interruptible G (.access (fun s => .ok ((), g s, [])) fun _ => .done)

variable {G : (S → S) → Prop} {P : S → Prop} {body : Body S β ε}

theorem Commutes.of_quiet {V : Type} {f : S → Except ε (V × S × List β)} {v : V}
    (hf : ∀ s, f s = .ok (v, s, [])) (g : S → S) (s : S) : Commutes g f s := by
  rw [Commutes, hf, hf]
  rfl

/-- A quiet body in front of a settled one. -/
theorem Settled.quiet_andThen {quiet : Body S β ε} (hquiet : quiet.Quiet)
    (hkeep : ∀ s, P s → ∀ g, G g → P (g s)) (h : Settled G P body) :
    Settled G P (quiet.andThen body) := by
  induction hquiet with
  | done => exact h
  | access v hf _ ih =>
      exact .access (fun _ => P) hkeep (fun s _ g _ => .of_quiet hf g s)
        (fun s hs => ⟨v, s, [], hf s, hs⟩) ih

/-- A settled body ends, wherever it is. -/
theorem Settled.run (h : Settled G P body) (hs : P s) : ∃ s' out, body.run s = .ok (s', out) := by
  induction h generalizing s with
  | release P call => exact ⟨s, [call], rfl⟩
  | access Q hkeep hcommutes hok hrest ih =>
      obtain ⟨v, s', out, hf, hQ⟩ := hok s hs
      obtain ⟨s'', outs, hrun⟩ := ih v hQ
      exact ⟨s'', out ++ outs, by rw [Body.run_access _ hf, hrun]; rfl⟩

/-- And a free update may as well follow it. -/
theorem Settled.run_update (h : Settled G P body) (hs : P s) (hg : G g)
    (hrun : body.run s = .ok (s', out)) : body.run (g s) = .ok (g s', out) := by
  induction h generalizing s s' out with
  | release P call =>
      obtain ⟨rfl, rfl⟩ := Prod.mk.inj (Except.ok.inj hrun)
      rfl
  | access Q hkeep hcommutes hok hrest ih =>
      obtain ⟨v, s1, out1, hf, hQ⟩ := hok s hs
      have hfg := hcommutes s hs g hg
      rw [Commutes, hf] at hfg
      obtain ⟨s2, out2, hrest'⟩ := (hrest v).run hQ
      rw [Body.run_access _ hf, hrest', after, Except.ok.injEq, Prod.mk.injEq] at hrun
      obtain ⟨rfl, rfl⟩ := hrun
      rw [Body.run_access _ hfg, ih v hQ hrest']
      rfl

/-! ## the section of the thread with the lock -/

/-- A number of free updates. -/
inductive Updates (G : (S → S) → Prop) : (S → S) → Prop where
  | none : Updates G id
  | update (hg : G g) (h : Updates G u) : Updates G (u ∘ g)

theorem Commutes.updates {V : Type} {f : S → Except ε (V × S × List β)}
    (h : ∀ s g, G g → Commutes g f s) (hu : Updates G u) (s : S) : Commutes u f s := by
  induction hu generalizing s with
  | none =>
      rw [Commutes, id]
      cases f s <;> rfl
  | update hg _ ih =>
      rw [Commutes, Function.comp_apply, ih, h s _ hg]
      cases f s <;> rfl

/-- The operation of a section that is open and has not taken effect yet: from
the state after the operations before it, it would end as the section ends from
here, and free updates do not change that. -/
structure Pending (G : (S → S) → Prop) (op : Body S β ε) (a s : S) (front : List β)
    (body : Body S β ε) : Prop where
  reducible : Reducible G body
  run_eq : ∀ u, Updates G u → op.run (u a) = after front (body.run (u s))

/-- A section that is open and has taken effect: what is left of it leads to
the state after its operation. -/
structure Taken (G : (S → S) → Prop) (a s : S) (back : List β) (body : Body S β ε) : Prop where
  settled : ∃ P, Settled G P body ∧ P s
  run_eq : body.run s = .ok (a, back)

theorem Pending.update {op : Body S β ε} (h : Pending G op a s front body) (hg : G g) :
    Pending G op (g a) (g s) front body :=
  ⟨h.reducible, fun _ hu => h.run_eq _ (.update hg hu)⟩

theorem Taken.update (h : Taken G a s back body) (hg : G g) :
    Taken G (g a) (g s) back body := by
  obtain ⟨⟨P, hsettled, hs⟩, hrun⟩ := h
  refine ⟨?_, hsettled.run_update hs hg hrun⟩
  cases hsettled with
  | release P call => exact ⟨fun _ => True, .release _ call, trivial⟩
  | access Q hkeep hcommutes hok hrest =>
      exact ⟨P, .access Q hkeep hcommutes hok hrest, hkeep s hs g hg⟩

/-- The next access of a section that has taken effect. -/
theorem Taken.access {V : Type} {f : S → Except ε (V × S × List β)} {rest : V → Body S β ε}
    (h : Taken G a s back (.access f rest)) :
    ∃ v s' out back', f s = .ok (v, s', out) ∧ back = out ++ back' ∧
      Taken G a s' back' (rest v) := by
  obtain ⟨⟨P, hsettled, hs⟩, hrun⟩ := h
  cases hsettled with
  | access Q hkeep hcommutes hok hrest =>
      obtain ⟨v, s', out, hf, hQ⟩ := hok s hs
      obtain ⟨a', back', hrest'⟩ := (hrest v).run hQ
      rw [Body.run_access _ hf, hrest', after, Except.ok.injEq, Prod.mk.injEq] at hrun
      obtain ⟨rfl, rfl⟩ := hrun
      exact ⟨v, s', out, back', hf, rfl, ⟨Q v, hrest v, hQ⟩, hrest'⟩

/-- A section that frees the lock has come to the state behind its operation. -/
theorem Taken.release {back : List β} {rest : Body S β ε}
    (h : Taken G a s back (.release call rest)) : s = a ∧ back = [call] ∧ rest = .done := by
  obtain ⟨⟨P, hsettled, hs⟩, hrun⟩ := h
  cases hsettled with
  | release P call =>
      obtain ⟨rfl, rfl⟩ := Prod.mk.inj (Except.ok.inj hrun)
      exact ⟨rfl, rfl, rfl⟩

/-- A pending section whose body is settled may take effect at once. -/
theorem Pending.take {op : Body S β ε} (h : Pending G op a s front body)
    (hsettled : ∃ P, Settled G P body ∧ P s) :
    ∃ a' back, op.run a = .ok (a', front ++ back) ∧ Taken G a' s back body := by
  obtain ⟨P, hbody, hs⟩ := hsettled
  obtain ⟨a', back, hrun⟩ := hbody.run hs
  refine ⟨a', back, ?_, ⟨P, hbody, hs⟩, hrun⟩
  have heq := h.run_eq id .none
  rwa [id, id, hrun] at heq

/-- The next access of a pending section: it fails as the operation fails, it
leaves it pending, or the operation takes effect. -/
theorem Pending.access {op : Body S β ε} {V : Type} {f : S → Except ε (V × S × List β)}
    {rest : V → Body S β ε} (h : Pending G op a s front (.access f rest)) :
    (∃ e, f s = .error e ∧ op.run a = .error e) ∨
    ∃ v s' out, f s = .ok (v, s', out) ∧
      (Pending G op a s' (front ++ out) (rest v) ∨
        ∃ a' back, op.run a = .ok (a', front ++ out ++ back) ∧ Taken G a' s' back (rest v)) := by
  have heq := h.run_eq id .none
  rw [id, id] at heq
  cases hf : f s with
  | error e =>
      refine .inl ⟨e, rfl, ?_⟩
      rw [heq]
      simp only [Body.run, hf, after]
  | ok r =>
      obtain ⟨v, s', out⟩ := r
      refine .inr ⟨v, s', out, rfl, ?_⟩
      cases h.reducible with
      | settled hsettled =>
          obtain ⟨a', back, hrun, htaken⟩ := h.take ⟨_, hsettled, trivial⟩
          obtain ⟨v', s'', out', back', hf', rfl, htaken'⟩ := htaken.access
          obtain ⟨rfl, rfl, rfl⟩ : v = v' ∧ s' = s'' ∧ out = out' := by
            simpa using hf.symm.trans hf'
          exact .inr ⟨a', back', by rw [hrun, List.append_assoc], htaken'⟩
      | mover hcommutes hrest =>
          refine .inl ⟨hrest v, fun u hu => ?_⟩
          have hfu := Commutes.updates hcommutes hu s
          rw [Commutes, hf] at hfu
          rw [h.run_eq u hu, Body.run_access _ hfu, after_after]
      | point Q hQ hrest =>
          obtain ⟨a', back, hrun⟩ := (hrest v).run (hQ s v s' out hf)
          refine .inr ⟨a', back, ?_, ⟨Q v, hrest v, hQ s v s' out hf⟩, hrun⟩
          rw [heq, Body.run_access _ hf, hrun, after_after]
          rfl

/-- A pending section that frees the lock takes effect with that. -/
theorem Pending.release {op rest : Body S β ε}
    (h : Pending G op a s front (.release call rest)) :
    op.run a = .ok (s, front ++ [call]) ∧ rest = .done := by
  cases h.reducible with
  | settled hsettled =>
      obtain ⟨a', back, hrun, htaken⟩ := h.take ⟨_, hsettled, trivial⟩
      obtain ⟨rfl, rfl, rfl⟩ := htaken.release
      exact ⟨hrun, rfl⟩

/-- Inside a section the lock is not taken again, and it does not end before
the lock is free. -/
inductive Body.Inside : Body S β ε → Prop where
  | access {V : Type} (f : S → Except ε (V × S × List β)) (rest : V → Body S β ε) :
      Inside (.access f rest)
  | release (call : β) : Inside (.release call .done)

theorem Reducible.inside (h : Reducible G body) : body.Inside := by
  cases h with
  | settled h => cases h with
    | release P call => exact .release call
    | access => exact .access _ _
  | mover => exact .access _ _
  | point => exact .access _ _

theorem Taken.inside (h : Taken G a s back body) : body.Inside := by
  obtain ⟨⟨P, hsettled, -⟩, -⟩ := h
  cases hsettled with
  | release P call => exact .release call
  | access => exact .access _ _

end Locking
