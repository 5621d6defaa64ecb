import TasteRuntime.Lib.Locking

/-!
# TasteRuntime.Lib.Linearized

What threads that share a lock (`TasteRuntime.Lib.Locking`) did, explained by an
order of whole operations: over any schedule, if the operations may be
interrupted by each other, the shared state and the output are those of some
order in which each thread's operations stand as in its program, but for the
section of the thread that holds the lock (`linearized_runCall`).
-/

namespace Locking

variable {S β ε ι Op : Type} [DecidableEq ι] (task : Op → Body S β ε) {G : (S → S) → Prop}
  {body : Body S β ε}

/-! ## the order of the operations -/

/-- Whole operations, one after the other. -/
def runOps (s : S) (ops : List Op) : Except ε (S × List β) :=
  Transducer.runCall (fun s op => (task op).run s) s ops

/-- The operations of one thread. -/
def opsOf (thread : ι) (order : List (ι × Op)) : List Op :=
  (order.filter fun entry => entry.1 = thread).map Prod.snd

theorem opsOf_append_self (thread : ι) (order : List (ι × Op)) (op : Op) :
    opsOf thread (order ++ [(thread, op)]) = opsOf thread order ++ [op] := by
  simp [opsOf]

theorem opsOf_append_of_ne (h : other ≠ thread) (order : List (ι × Op)) (op : Op) :
    opsOf thread (order ++ [(other, op)]) = opsOf thread order := by
  simp [opsOf, h]

theorem mem_opsOf {order : List (ι × Op)} (h : (thread, op) ∈ order) : op ∈ opsOf thread order :=
  List.mem_map.mpr ⟨_, List.mem_filter.mpr ⟨h, by simp⟩, rfl⟩

/-- A thread without the lock, with what it has still to do and what it has in
flight: it is between two operations, or in front of the first step of one. -/
inductive Outside : Body S β ε → List Op → Prop where
  | idle : Outside .done []
  | begun (op : Op) : Outside (task op) [op]

/-- How the shared state and what was put out stand to those behind the
operations that have taken effect, by who holds the lock. -/
inductive Holds (G : (S → S) → Prop) (a s : S) (effect outs : List β)
    (running : ι → Body S β ε) (flight : ι → List Op) : Option ι → Prop where
  | none (hs : a = s) (hout : effect = outs) : Holds G a s effect outs running flight none
  | pending {thread : ι} (op : Op) {front : List β}
      (h : Pending G (task op) a s front (running thread)) (hout : outs = effect ++ front)
      (hflight : flight thread = [op]) : Holds G a s effect outs running flight (some thread)
  | taken {thread : ι} {back : List β} (h : Taken G a s back (running thread))
      (hout : effect = outs ++ back) (hflight : flight thread = []) :
      Holds G a s effect outs running flight (some thread)

/-- Behind a schedule: the operations that have taken effect, in the order of
that, lead from the start to `a`, and those of each thread are a front of its
program, in front of what it has in flight and what it has still to begin; at
most the thread with the lock is inside an operation. -/
structure Linearized (G : (S → S) → Prop) (start : S) (programs : ι → List Op)
    (config : Config S β ε ι Op) (outs : List β) (order : List (ι × Op)) (a : S)
    (effect : List β) (flight : ι → List Op) : Prop where
  run_eq : runOps task start (order.map Prod.snd) = .ok (a, effect)
  holds : Holds task G a config.shared effect outs config.running flight config.holder
  outside : ∀ t, config.holder ≠ some t → Outside task (config.running t) (flight t)
  programs_eq : ∀ t, programs t = opsOf t order ++ (flight t ++ config.programs t)

variable {task} {start a : S} {programs : ι → List Op} {config : Config S β ε ι Op}
  {outs effect : List β} {order : List (ι × Op)} {flight : ι → List Op}

theorem linearized_initial (G : (S → S) → Prop) (start : S) (programs : ι → List Op) :
    Linearized task G start programs (initial start programs) [] [] start [] fun _ => [] :=
  ⟨rfl, .none rfl rfl, fun _ _ => .idle, fun _ => rfl⟩

theorem runOps_append_singleton (h : runOps task start ops = .ok (a, effect)) (op : Op) :
    runOps task start (ops ++ [op]) = after effect ((task op).run a) := by
  rw [runOps] at h ⊢
  rw [Transducer.runCall_append, h]
  cases hop : (task op).run a with
  | error e => simp only [Transducer.runCall, hop, after]
  | ok r => simp only [Transducer.runCall, hop, after, List.append_nil]

omit [DecidableEq ι] in
/-- What other threads are about does not concern the section that is open. -/
theorem Holds.congr {running running' : ι → Body S β ε} {flight' : ι → List Op}
    (h : Holds task G a s effect outs running flight holder)
    (hrunning : ∀ t, holder = some t → running' t = running t)
    (hflight : ∀ t, holder = some t → flight' t = flight t) :
    Holds task G a s effect outs running' flight' holder := by
  cases h with
  | none hs hout => exact .none hs hout
  | pending op h hout hop =>
      exact .pending op (hrunning _ rfl ▸ h) hout ((hflight _ rfl).trans hop)
  | taken h hout hnil => exact .taken (hrunning _ rfl ▸ h) hout ((hflight _ rfl).trans hnil)

omit [DecidableEq ι] in
/-- Neither does a free update. -/
theorem Holds.update {running : ι → Body S β ε}
    (h : Holds task G a s effect outs running flight holder) (hg : G g) :
    Holds task G (g a) (g s) effect outs running flight holder := by
  cases h with
  | none hs hout => exact .none (congrArg g hs) hout
  | pending op h hout hop => exact .pending op (h.update hg) hout hop
  | taken h hout hnil => exact .taken (h.update hg) hout hnil

/-- The thread that holds the lock is inside a section. -/
theorem Linearized.inside
    (h : Linearized task G start programs config outs order a effect flight)
    (hholder : config.holder = some thread) : (config.running thread).Inside := by
  have hholds := h.holds
  rw [hholder] at hholds
  cases hholds with
  | pending op h => exact h.reducible.inside
  | taken h => exact h.inside

/-- A thread that is not between two operations and does not hold the lock is
in front of an operation of its program. -/
theorem Linearized.begun
    (h : Linearized task G start programs config outs order a effect flight)
    (hholder : config.holder ≠ some thread) (hrunning : config.running thread ≠ .done) :
    ∃ op ∈ programs thread, config.running thread = task op ∧ flight thread = [op] := by
  have hprogram := h.programs_eq thread
  have houtside := h.outside thread hholder
  generalize config.running thread = body at houtside hrunning ⊢
  generalize flight thread = front at houtside hprogram ⊢
  cases houtside with
  | idle => exact absurd rfl hrunning
  | begun op => exact ⟨op, by simp [hprogram], rfl, rfl⟩

theorem Outside.update {running : ι → Body S β ε} (ops : List Op) (body : Body S β ε)
    (h : ∀ t, t ≠ thread → holder ≠ some t → Outside task (running t) (flight t))
    (hthread : holder ≠ some thread → Outside task body ops) (t : ι) (ht : holder ≠ some t) :
    Outside task (Function.update running thread body t) (Function.update flight thread ops t) := by
  by_cases heq : t = thread
  · subst heq
    rw [Function.update_self, Function.update_self]
    exact hthread ht
  · rw [Function.update_of_ne heq, Function.update_of_ne heq]
    exact h t heq ht

omit [DecidableEq ι] in
theorem ne_of_holder {holder : Option ι} (h : holder ≠ some thread) (ht : holder = some t) :
    t ≠ thread :=
  fun heq => h (heq ▸ ht)

/-- An operation in flight takes effect. -/
theorem programs_eq_effect {rest : ι → List Op}
    (h : ∀ t, programs t = opsOf t order ++ (flight t ++ rest t)) (hflight : flight thread = [op])
    (t : ι) :
    programs t = opsOf t (order ++ [(thread, op)]) ++
      (Function.update flight thread [] t ++ rest t) := by
  by_cases ht : t = thread
  · subst ht
    rw [h, hflight, opsOf_append_self, Function.update_self]
    simp
  · rw [h, opsOf_append_of_ne (Ne.symm ht), Function.update_of_ne ht]

/-- A thread begins its next operation. -/
theorem Linearized.begin
    (h : Linearized task G start programs config outs order a effect flight)
    (hholder : config.holder ≠ some thread) (hidle : flight thread = [])
    (hprogram : config.programs thread = op :: ops) :
    Linearized task G start programs
      { config with
        programs := Function.update config.programs thread ops
        running := Function.update config.running thread (task op) } outs
      order a effect (Function.update flight thread [op]) where
  run_eq := h.run_eq
  holds := h.holds.congr (fun _ ht => Function.update_of_ne (ne_of_holder hholder ht) _ _)
    fun _ ht => Function.update_of_ne (ne_of_holder hholder ht) _ _
  outside := Outside.update [op] (task op) (fun t _ ht => h.outside t ht) fun _ => .begun op
  programs_eq t := by
    by_cases ht : t = thread
    · subst ht
      simp [h.programs_eq, hidle, hprogram]
    · simp [h.programs_eq t, ht]

/-- A free update takes effect at once. -/
theorem Linearized.free
    (h : Linearized task G start programs config outs order a effect flight)
    (hholder : config.holder ≠ some thread) (hflight : flight thread = [op])
    (htask : task op = .access (fun s => .ok ((), g s, [])) fun _ => .done) (hg : G g) :
    Linearized task G start programs
      { config with
        shared := g config.shared
        running := Function.update config.running thread .done } outs
      (order ++ [(thread, op)]) (g a) effect (Function.update flight thread []) where
  run_eq := by
    rw [List.map_append, List.map_singleton, runOps_append_singleton h.run_eq, htask]
    simp only [Body.run, after, List.append_nil]
  holds := (h.holds.update hg).congr
    (fun _ ht => Function.update_of_ne (ne_of_holder hholder ht) _ _)
    fun _ ht => Function.update_of_ne (ne_of_holder hholder ht) _ _
  outside := Outside.update [] .done (fun t _ ht => h.outside t ht) fun _ => .idle
  programs_eq := programs_eq_effect h.programs_eq hflight

/-- A thread takes the lock: its operation is pending. -/
theorem Linearized.acquire
    (h : Linearized task G start programs config outs order a effect flight)
    (hfree : config.holder = none) (hflight : flight thread = [op])
    (htask : task op = .acquire call body) (hbody : Reducible G body) :
    Linearized task G start programs
      { config with
        running := Function.update config.running thread body
        holder := some thread } (outs ++ [call]) order a effect flight where
  run_eq := h.run_eq
  holds := by
    have hholds := h.holds
    rw [hfree] at hholds
    cases hholds with
    | none hs hout =>
        refine .pending op ⟨?_, fun u _ => ?_⟩ (congrArg (· ++ [call]) hout.symm) hflight
        · simpa only [Function.update_self] using hbody
        · simp only [Function.update_self]
          rw [htask, hs]
          rfl
  outside t ht := by
    have hne : t ≠ thread := fun heq => ht (heq ▸ rfl)
    simp only [Function.update_of_ne hne]
    exact h.outside t (by simp [hfree])
  programs_eq := h.programs_eq

/-- The thread with the lock makes its next access. -/
theorem Linearized.access {V : Type} {f : S → Except ε (V × S × List β)}
    {rest : V → Body S β ε}
    (h : Linearized task G start programs config outs order a effect flight)
    (hholder : config.holder = some thread) (hrunning : config.running thread = .access f rest) :
    (∃ v s out, f config.shared = .ok (v, s, out) ∧
      ∃ order' a' effect' flight', Linearized task G start programs
        { config with
          shared := s
          running := Function.update config.running thread (rest v) } (outs ++ out)
        order' a' effect' flight') ∨
    ∃ e op, f config.shared = .error e ∧ op ∈ programs thread ∧ (task op).run a = .error e := by
  obtain ⟨hrun, hholds, houtside, hprograms⟩ := h
  have hothers (flight' : ι → List Op) (body : Body S β ε)
      (hflight' : ∀ t, t ≠ thread → flight' t = flight t) (t : ι) (ht : config.holder ≠ some t) :
      Outside task (Function.update config.running thread body t) (flight' t) := by
    have hne : t ≠ thread := fun heq => ht (heq ▸ hholder)
    rw [Function.update_of_ne hne, hflight' t hne]
    exact houtside t ht
  rw [hholder] at hholds
  cases hholds with
  | @pending _ op front hpending hout hflight =>
      rw [hrunning] at hpending
      obtain ⟨e, hf, hop⟩ | ⟨v, s, out, hf, hpending' | ⟨a', back, hop, htaken⟩⟩ := hpending.access
      · refine .inr ⟨e, op, hf, ?_, hop⟩
        simp [hprograms thread, hflight]
      · refine .inl ⟨v, s, out, hf, order, a, effect, flight, hrun, ?_,
          hothers flight (rest v) fun _ _ => rfl, hprograms⟩
        simp only [hholder]
        exact .pending op (by rwa [Function.update_self]) (by rw [hout, List.append_assoc]) hflight
      · refine .inl ⟨v, s, out, hf, order ++ [(thread, op)], a', effect ++ (front ++ out ++ back),
          Function.update flight thread [], ?_, ?_,
          hothers _ (rest v) fun t ht => Function.update_of_ne ht _ _,
          programs_eq_effect hprograms hflight⟩
        · rw [List.map_append, List.map_singleton, runOps_append_singleton hrun, hop, after]
        · simp only [hholder]
          exact .taken (by rwa [Function.update_self]) (by rw [hout]; simp only [List.append_assoc])
            (Function.update_self _ _ _)
  | taken htaken hout hflight =>
      rw [hrunning] at htaken
      obtain ⟨v, s, out, back', hf, rfl, htaken'⟩ := htaken.access
      refine .inl ⟨v, s, out, hf, order, a, effect, flight, hrun, ?_,
        hothers flight (rest v) fun _ _ => rfl, hprograms⟩
      simp only [hholder]
      exact .taken (by rwa [Function.update_self]) (by rw [hout, List.append_assoc]) hflight

/-- The thread with the lock frees it: its operation has taken effect. -/
theorem Linearized.release
    (h : Linearized task G start programs config outs order a effect flight)
    (hholder : config.holder = some thread)
    (hrunning : config.running thread = .release call rest) :
    ∃ order' a' effect' flight', Linearized task G start programs
      { config with
        running := Function.update config.running thread rest
        holder := none } (outs ++ [call]) order' a' effect' flight' := by
  obtain ⟨hrun, hholds, houtside, hprograms⟩ := h
  have hothers (t : ι) (ht : t ≠ thread) : Outside task (config.running t) (flight t) :=
    houtside t (by simp [hholder, Ne.symm ht])
  rw [hholder] at hholds
  cases hholds with
  | pending op hpending hout hflight =>
      rw [hrunning] at hpending
      obtain ⟨hop, rfl⟩ := hpending.release
      refine ⟨order ++ [(thread, op)], config.shared, outs ++ [call],
        Function.update flight thread [], ?_, .none rfl rfl,
        Outside.update [] .done (fun t ht _ => hothers t ht) fun _ => .idle,
        programs_eq_effect hprograms hflight⟩
      rw [List.map_append, List.map_singleton, runOps_append_singleton hrun, hop, after, hout,
        List.append_assoc]
  | taken htaken hout hflight =>
      rw [hrunning] at htaken
      obtain ⟨hs, rfl, rfl⟩ := htaken.release
      refine ⟨order, a, effect, Function.update flight thread [], hrun, .none hs.symm hout,
        Outside.update [] .done (fun t ht _ => hothers t ht) fun _ => .idle, ?_⟩
      rwa [← hflight, Function.update_eq_self]

/-- While nobody holds the lock, the operations that have taken effect explain
all there is. -/
theorem Linearized.quiet
    (h : Linearized task G start programs config outs order a effect flight)
    (hfree : config.holder = none) :
    runOps task start (order.map Prod.snd) = .ok (config.shared, outs) := by
  have hholds := h.holds
  rw [hfree] at hholds
  cases hholds with
  | none hs hout => rw [h.run_eq, hs, hout]

/-- A thread has at most one operation in flight: it holds the lock, or is in
front of the first step of the operation. -/
theorem Linearized.flight_cases
    (h : Linearized task G start programs config outs order a effect flight) (t : ι) :
    flight t = [] ∨ ∃ op, flight t = [op] ∧
      (config.holder = some t ∨ config.running t = task op) := by
  by_cases hholder : config.holder = some t
  · have hholds := h.holds
    rw [hholder] at hholds
    cases hholds with
    | pending op _ _ hflight => exact .inr ⟨op, hflight, .inl hholder⟩
    | taken _ _ hflight => exact .inl hflight
  · have houtside := h.outside t hholder
    generalize config.running t = body at houtside ⊢
    generalize flight t = front at houtside ⊢
    cases houtside with
    | idle => exact .inl rfl
    | begun op => exact .inr ⟨op, rfl, .inr rfl⟩

/-- A thread between two operations has nothing in flight. -/
theorem Linearized.flight_eq_nil
    (h : Linearized task G start programs config outs order a effect flight)
    (hops : ∀ t, ∀ op ∈ programs t, Interruptible G (task op))
    (hdone : config.running thread = .done) : flight thread = [] := by
  obtain hnil | ⟨op, hflight, hheld | hrunning⟩ := h.flight_cases thread
  · exact hnil
  · exact absurd (hdone ▸ h.inside hheld) nofun
  · have hmem : op ∈ programs thread := by simp [h.programs_eq thread, hflight]
    exact absurd (hdone ▸ hrunning ▸ hops thread op hmem) nofun

/-- **Step**: whoever gets the turn, what has happened is still explained by an
order of whole operations; an access that fails is one of an operation that
fails behind them. -/
theorem Linearized.step
    (h : Linearized task G start programs config outs order a effect flight)
    (hops : ∀ t, ∀ op ∈ programs t, Interruptible G (task op)) (thread : ι) :
    (∃ config' out, Locking.step task config thread = .ok (config', out) ∧
      ∃ order' a' effect' flight',
        Linearized task G start programs config' (outs ++ out) order' a' effect' flight') ∨
    ∃ e op, Locking.step task config thread = .error e ∧ op ∈ programs thread ∧
      (task op).run a = .error e := by
  have hstay : ∃ order' a' effect' flight', Linearized task G start programs config
      (outs ++ []) order' a' effect' flight' :=
    ⟨order, a, effect, flight, by rwa [List.append_nil]⟩
  by_cases hholder : config.holder = some thread
  · -- the thread is inside its section: it goes on there, or frees the lock
    cases hrunning : config.running thread with
    | done => exact absurd (hrunning ▸ h.inside hholder) nofun
    | acquire call rest => exact absurd (hrunning ▸ h.inside hholder) nofun
    | access f rest =>
        obtain ⟨v, s, out, hf, h'⟩ | ⟨e, op, hf, hmem, hop⟩ := h.access hholder hrunning
        · exact .inl ⟨_, out, step_access hrunning hf, h'⟩
        · exact .inr ⟨e, op, step_access_error hrunning hf, hmem, hop⟩
    | release call rest =>
        exact .inl ⟨_, [call], step_release hrunning, h.release hholder hrunning⟩
  by_cases hdone : config.running thread = .done
  · cases hprogram : config.programs thread with
    | nil => exact .inl ⟨config, [], step_end hdone hprogram, hstay⟩
    | cons op ops =>
        refine .inl ⟨_, [], step_begin hdone hprogram, order, a, effect,
          Function.update flight thread [op], ?_⟩
        rw [List.append_nil]
        exact h.begin hholder (h.flight_eq_nil hops hdone) hprogram
  · -- it is in front of an operation, whose first step tells its kind
    obtain ⟨op, hmem, hrunning, hflight⟩ := h.begun hholder hdone
    have hop := hops thread op hmem
    generalize hbody : task op = body at hop
    rw [hbody] at hrunning
    cases hop with
    | @free g hg =>
        refine .inl ⟨_, [], step_access hrunning rfl, order ++ [(thread, op)], g a, effect,
          Function.update flight thread [], ?_⟩
        rw [List.append_nil]
        exact h.free hholder hflight hbody hg
    | locked call hreducible =>
        by_cases hfree : config.holder = none
        · exact .inl ⟨_, [call], step_acquire hrunning hfree, order, a, effect, flight,
            h.acquire hfree hflight hbody hreducible⟩
        · exact .inl ⟨config, [], step_wait hrunning hfree, hstay⟩

/-- **Linearization**: over any schedule, what the threads did is what an order
of their operations does one after the other, with at most one of a thread in
flight.  The schedule is carried out to its end unless an access fails, and
then its operation fails behind the others. -/
theorem linearized_runCall (hops : ∀ t, ∀ op ∈ programs t, Interruptible G (task op)) (start : S)
    (schedule : List ι) :
    ∃ handled rest config outs order a effect flight, schedule = handled ++ rest ∧
      Transducer.runCall (Locking.step task) (initial start programs) handled =
        .ok (config, outs) ∧
      Linearized task G start programs config outs order a effect flight ∧
      (rest = [] ∨ ∃ thread rest' e op, rest = thread :: rest' ∧
        Locking.step task config thread = .error e ∧ op ∈ programs thread ∧
        (task op).run a = .error e) := by
  have hstep (_ : List ι) (config : Config S β ε ι Op) (outs : List β) (thread : ι)
      (h : ∃ order a effect flight,
        Linearized task G start programs config outs order a effect flight)
      (_ : thread ∈ schedule) :
      (∃ config' out, Locking.step task config thread = .ok (config', out) ∧
        ∃ order a effect flight,
          Linearized task G start programs config' (outs ++ out) order a effect flight) ∨
      ∃ e, Locking.step task config thread = .error e ∧ True := by
    obtain ⟨order, a, effect, flight, h⟩ := h
    exact (h.step hops thread).imp_right fun ⟨e, _, he, _⟩ => ⟨e, he, trivial⟩
  obtain ⟨handled, rest, config, outs, hsplit, hrun, ⟨order, a, effect, flight, h⟩, hrest⟩ :=
    Transducer.runCall_invariant (Locking.step task) schedule hstep [] _ []
      ⟨[], start, [], fun _ => [], linearized_initial G start programs⟩
  refine ⟨handled, rest, config, outs, order, a, effect, flight, hsplit, hrun, h, ?_⟩
  refine hrest.imp_right fun ⟨thread, rest', e, hcons, he, _⟩ => ?_
  obtain ⟨config', out, hok, -⟩ | ⟨e', op, he', hmem, hop⟩ := h.step hops thread
  · rw [hok] at he
    contradiction
  · obtain rfl := Except.error.inj (he.symm.trans he')
    exact ⟨thread, rest', e, op, hcons, he, hmem, hop⟩

end Locking
