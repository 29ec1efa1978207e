import Mathlib.Data.List.Induction

/-!
Transition systems with a guarded step function, and their finite runs. A step
is `some t` when the event is enabled in the state, so one definition is both
replayed on a concrete list of events and reasoned about for every list. A run
is its list of events, the oldest first: what happened before a step is a fact
about that list.
-/
namespace TransitionRuns
variable {State Event : Type}

structure System (State Event : Type) where
  init : State
  step : State → Event → Option State

def System.replay (sys : System State Event) (events : List Event) : Option State :=
  events.foldlM sys.step sys.init

def System.Reachable (sys : System State Event) (t : State) : Prop :=
  ∃ events, sys.replay events = some t

theorem replay_nil (sys : System State Event) : sys.replay [] = some sys.init := rfl

theorem replay_snoc (sys : System State Event) (events : List Event) (e : Event) :
    sys.replay (events ++ [e]) = (sys.replay events).bind fun s => sys.step s e := by
  simp [System.replay, List.foldlM_append]

theorem replay_append (sys : System State Event) (events more : List Event) :
    sys.replay (events ++ more) = (sys.replay events).bind fun s => more.foldlM sys.step s := by
  simp [System.replay, List.foldlM_append]

theorem replay_step {sys : System State Event} {events : List Event} {s t : State} {e : Event}
    (run : sys.replay events = some s) (last : sys.step s e = some t) :
    sys.replay (events ++ [e]) = some t := by
  rw [replay_snoc, run, Option.bind_some, last]

theorem reachable_step {sys : System State Event} {s t : State} {e : Event}
    (reached : sys.Reachable s) (last : sys.step s e = some t) : sys.Reachable t := by
  obtain ⟨events, run⟩ := reached
  exact ⟨events ++ [e], replay_step run last⟩

/-- Induction over runs: a relation between the events so far and the state
    that holds at the start and survives every step holds of every run. -/
theorem run_invariant {sys : System State Event} (I : List Event → State → Prop)
    (start : I [] sys.init)
    (next : ∀ events s e t, I events s → sys.step s e = some t → I (events ++ [e]) t) :
    ∀ events t, sys.replay events = some t → I events t := by
  intro events
  induction events using List.reverseRecOn with
  | nil =>
    intro t run
    rw [replay_nil, Option.some.injEq] at run
    exact run ▸ start
  | append_singleton events e ih =>
    intro t run
    rw [replay_snoc, Option.bind_eq_some_iff] at run
    obtain ⟨s, before, last⟩ := run
    exact next events s e t (ih s before) last

theorem state_invariant {sys : System State Event} (I : State → Prop) (start : I sys.init)
    (next : ∀ s e t, I s → sys.step s e = some t → I t) :
    ∀ t, sys.Reachable t → I t := by
  intro t reached
  obtain ⟨events, run⟩ := reached
  exact run_invariant (fun _ s => I s) start (fun _ s e t held last => next s e t held last)
    events t run

/-- The same with what is known of every state on the way. -/
theorem reachable_invariant {sys : System State Event} (I : State → Prop) (start : I sys.init)
    (next : ∀ s e t, sys.Reachable s → I s → sys.step s e = some t → I t) :
    ∀ t, sys.Reachable t → I t := by
  intro t reached
  have both : sys.Reachable t ∧ I t := by
    apply state_invariant (fun s => sys.Reachable s ∧ I s) _ _ t reached
    · exact ⟨⟨[], rfl⟩, start⟩
    · intro s e t held last
      exact ⟨reachable_step held.1 last, next s e t held.1 held.2 last⟩
  exact both.2

/-- A run with what is noted along it, from each event and the state before it. -/
def System.follow {Note : Type} (sys : System State Event) (note : State → Event → Note → Note)
    (start : Note) (events : List Event) : Option State × Note :=
  events.foldl (fun now e =>
    (now.1.bind fun s => sys.step s e, now.1.elim now.2 fun s => note s e now.2))
    (some sys.init, start)

def System.noted {Note : Type} (sys : System State Event) (note : State → Event → Note → Note)
    (start : Note) (events : List Event) : Note := (sys.follow note start events).2

theorem follow_replay {Note : Type} (sys : System State Event)
    (note : State → Event → Note → Note) (start : Note) (events : List Event) :
    (sys.follow note start events).1 = sys.replay events := by
  induction events using List.reverseRecOn with
  | nil => rfl
  | append_singleton events e ih =>
    rw [replay_snoc, ← ih, System.follow, List.foldl_append]
    rfl

theorem noted_snoc {Note : Type} {sys : System State Event}
    (note : State → Event → Note → Note) (start : Note) {events : List Event} {s : State}
    (run : sys.replay events = some s) (e : Event) :
    sys.noted note start (events ++ [e]) = note s e (sys.noted note start events) := by
  have now := follow_replay sys note start events
  rw [run] at now
  have last : sys.noted note start (events ++ [e]) =
      (sys.follow note start events).1.elim (sys.noted note start events)
        fun s => note s e (sys.noted note start events) := by
    rw [System.noted, System.follow, List.foldl_append]
    rfl
  rw [last, now]
  rfl

theorem run_bounded {sys : System State Event} (measure : State → Nat)
    (lower : ∀ s e t, sys.step s e = some t → measure t < measure s) {events : List Event}
    {t : State} (run : sys.replay events = some t) :
    events.length + measure t ≤ measure sys.init := by
  apply run_invariant (fun events t => events.length + measure t ≤ measure sys.init) _ _ events t run
  · simp
  · intro events s e t held last
    have := lower s e t last
    rw [List.length_append, List.length_singleton]
    omega

/-- The system whose steps all meet a condition on the state before the step. -/
def System.restrict (sys : System State Event) (guard : State → Event → Bool) :
    System State Event where
  init := sys.init
  step s e := if guard s e then sys.step s e else none

theorem restrict_step {sys : System State Event} {guard : State → Event → Bool} {s t : State}
    {e : Event} : (sys.restrict guard).step s e = some t ↔
      guard s e = true ∧ sys.step s e = some t := by
  simp only [System.restrict]
  split <;> simp_all

theorem restrict_reachable {sys : System State Event} {guard : State → Event → Bool}
    {t : State} (reached : (sys.restrict guard).Reachable t) : sys.Reachable t := by
  apply state_invariant sys.Reachable _ _ t reached
  · exact ⟨[], rfl⟩
  · intro s e t held last
    exact reachable_step held (restrict_step.mp last).2

theorem restrict_mono {sys : System State Event} {guard guard' : State → Event → Bool}
    (weaker : ∀ s e, (sys.restrict guard).Reachable s → guard s e = true → guard' s e = true)
    {t : State} (reached : (sys.restrict guard).Reachable t) :
    (sys.restrict guard').Reachable t := by
  apply reachable_invariant (sys.restrict guard').Reachable _ _ t reached
  · exact ⟨[], rfl⟩
  · intro s e t before held last
    obtain ⟨allowed, moved⟩ := restrict_step.mp last
    exact reachable_step held (restrict_step.mpr ⟨weaker s e before allowed, moved⟩)

def Lawful {Entry : Type} (allowed : List Entry → Entry → Prop) (log : List Entry) : Prop :=
  ∀ before e after, log = before ++ e :: after → allowed before e

theorem lawful_nil {Entry : Type} (allowed : List Entry → Entry → Prop) : Lawful allowed [] := by
  intro before e after shape
  simp at shape

theorem lawful_snoc {Entry : Type} {allowed : List Entry → Entry → Prop} {log : List Entry}
    {e : Entry} : Lawful allowed (log ++ [e]) ↔ Lawful allowed log ∧ allowed log e := by
  constructor
  · intro lawful
    constructor
    · intro before e' after shape
      exact lawful before e' (after ++ [e]) (by simp [shape])
    · exact lawful log e [] rfl
  · intro both before e' after shape
    obtain ⟨lawful, last⟩ := both
    rcases List.eq_nil_or_concat after with rfl | ⟨more, final, rfl⟩
    · obtain ⟨rfl, same⟩ := List.append_inj' shape rfl
      rw [List.cons.injEq] at same
      exact same.1 ▸ last
    · have split : log ++ [e] = (before ++ e' :: more) ++ [final] := by simpa using shape
      exact lawful before e' more (List.append_inj' split rfl).1

end TransitionRuns
