import TunnelAI.ReconnectBudget

/-!
Progress of the shared connection: no call of `open_bi_with_reconnect` waits for ever on
the mutex, whoever is dropped at whichever await, and every call ends after a number of
steps that its reconnect attempts bound. A connection that has died costs the next call
one open.
-/
namespace ManagerProgress
open TransitionRuns TaskPools ConnectionManager
open ReconnectBudget (budgets budgets_spawn budgets_task)

theorem moves_lock {manager manager' : OpenAiConnectionManager} {t : Nat} {task task' : Task}
    {action : Action} {entries : List Entry}
    (moves : Moves manager t task action manager' task' entries) :
    manager'.lock = manager.lock ∧ task.phase ≠ .dialing ∧ task'.phase ≠ .dialing ∨
      manager.lock = none ∧ manager'.lock = some t ∧ task'.phase = .dialing ∨
      task.phase = .dialing ∧ manager'.lock = none ∧ task'.phase ≠ .dialing := by
  cases moves with
  | shared managed waits free stored =>
    exact Or.inl ⟨rfl, by rcases waits with here | here <;> simp [here], by simp⟩
  | vacant waits free empty => exact Or.inl ⟨rfl, by simp [waits], by simp⟩
  | dial waits free empty => exact Or.inr (Or.inl ⟨free, rfl, rfl⟩)
  | connected dials => exact Or.inr (Or.inr ⟨dials, rfl, by simp⟩)
  | released action phase dials ends =>
    refine Or.inr (Or.inr ⟨dials, rfl, ?_⟩)
    rcases ends with ⟨_, rfl⟩ | ⟨_, rfl⟩ <;> simp
  | opened managed opens => exact Or.inl ⟨rfl, by simp [opens], by simp⟩
  | openFailed managed opens => exact Or.inl ⟨rfl, by simp [opens], by simp⟩
  | cleared managed stored blames free current same =>
    exact Or.inl ⟨rfl, by simp [blames], (retry_phase task).2⟩
  | kept managed blames free other =>
    exact Or.inl ⟨rfl, by simp [blames], (retry_phase task).2⟩
  | cancelled runs idle => exact Or.inl ⟨rfl, idle, by simp⟩

/-- The mutex is held exactly by the task that dials. -/
def Guarded (s : State) : Prop :=
  ∀ t, s.manager.lock = some t ↔ ∃ task, s.tasks[t]? = some task ∧ task.phase = .dialing

theorem guarded_step {s s' : State} {e : Event} (guarded : Guarded s)
    (h : step s e = some s') : Guarded s' := by
  cases e with
  | spawn attempts =>
    rw [step, Option.some.injEq] at h
    subst h
    intro t
    rw [guarded t]
    constructor
    · intro dials
      obtain ⟨task, found, phase⟩ := dials
      exact ⟨task, lookup_snoc found, phase⟩
    · intro dials
      obtain ⟨task, found, phase⟩ := dials
      rcases snoc_cases found with ⟨_, rfl⟩ | found
      · contradiction
      · exact ⟨task, found, phase⟩
  | task t action =>
    obtain ⟨task, manager', task', entries, found, moved, rfl⟩ := step_task h
    have mine : ∀ other, (s.tasks.set t task')[t]? = some other ↔ other = task' := by
      intro other
      rw [lookup_set found, Option.some.injEq, eq_comm]
    have theirs : ∀ k, k ≠ t → (s.tasks.set t task')[k]? = s.tasks[k]? := by
      intro k apart
      exact List.getElem?_set_ne (Ne.symm apart)
    intro k
    change manager'.lock = some k ↔ ∃ other, (s.tasks.set t task')[k]? = some other ∧ _
    rcases moves_lock (act_moves moved) with ⟨same, before, after⟩ | ⟨free, taken, dials⟩ | ⟨dialed, free, after⟩
    · rw [same, guarded k]
      by_cases here : k = t
      · subst here
        simp only [mine, found, Option.some.injEq, exists_eq_left', exists_eq_left]
        exact ⟨fun dials => absurd dials before, fun dials => absurd dials after⟩
      · rw [theirs k here]
    · rw [taken, Option.some.injEq]
      constructor
      · rintro rfl
        exact ⟨task', (mine task').mpr rfl, dials⟩
      · intro dialing
        obtain ⟨other, lookup, phase⟩ := dialing
        by_cases here : k = t
        · exact here.symm
        · rw [theirs k here] at lookup
          have held := (guarded k).mpr ⟨other, lookup, phase⟩
          rw [free] at held
          contradiction
    · rw [free]
      have held := (guarded t).mpr ⟨task, found, dialed⟩
      refine ⟨fun impossible => by contradiction, ?_⟩
      intro dialing
      obtain ⟨other, lookup, phase⟩ := dialing
      by_cases here : k = t
      · subst here
        rw [mine] at lookup
        exact absurd (lookup ▸ phase) after
      · rw [theirs k here] at lookup
        have also := (guarded k).mpr ⟨other, lookup, phase⟩
        rw [held, Option.some.injEq] at also
        exact absurd also.symm here

theorem guarded_run {s : State} (reached : connections.Reachable s) : Guarded s := by
  apply state_invariant Guarded _ _ s reached
  · intro t
    exact ⟨fun locked => by contradiction, fun dials => by simp [connections, connect] at dials⟩
  · intro s e s' guarded h
    exact guarded_step guarded h

def Phase.rank : Phase → Nat
  | .connection => 5
  | .dial => 4
  | .dialing => 3
  | .opening _ => 2
  | .invalidate _ => 1
  | .returned _ => 0
  | .failed => 0
  | .cancelled => 0

/-- How many steps a call has left at most: five for every round. -/
def stepsLeft (task : Task) : Nat :=
  if task.phase.running then 5 * task.remainingReconnects + Phase.rank task.phase else 0

theorem retry_steps_left (task : Task) :
    stepsLeft task.retry ≤ 5 * task.remainingReconnects := by
  unfold Task.retry
  split
  · exact Nat.zero_le _
  · rename_i some
    simp only [stepsLeft, Phase.running, Phase.rank, if_true]
    omega

theorem moves_steps_left {manager manager' : OpenAiConnectionManager} {t : Nat} {task task' : Task}
    {action : Action} {entries : List Entry}
    (moves : Moves manager t task action manager' task' entries) :
    stepsLeft task' < stepsLeft task := by
  have retried := retry_steps_left task
  obtain ⟨phase, remaining⟩ := task
  have ended : ∀ phase : Phase, phase.running = true →
      0 < stepsLeft ⟨phase, remaining⟩ := by
    intro phase runs
    cases phase <;> simp_all [stepsLeft, Phase.running, Phase.rank]
  cases moves with
  | shared managed waits free stored =>
    rcases waits with rfl | rfl <;> simp [stepsLeft, Phase.running, Phase.rank]
  | vacant waits free empty =>
    simp only at waits
    simp [stepsLeft, Phase.running, Phase.rank, waits]
  | dial waits free empty =>
    simp only at waits
    simp [stepsLeft, Phase.running, Phase.rank, waits]
  | connected dials =>
    simp only at dials
    simp [stepsLeft, Phase.running, Phase.rank, dials]
  | released action phase dials ends =>
    simp only at dials
    rcases ends with ⟨_, rfl⟩ | ⟨_, rfl⟩ <;> exact ended _ (by rw [dials]; rfl)
  | opened managed opens =>
    simp only at opens
    exact ended _ (by rw [opens]; rfl)
  | openFailed managed opens =>
    simp only at opens
    simp [stepsLeft, Phase.running, Phase.rank, opens]
  | cleared managed stored blames | kept managed blames =>
    simp only at blames
    subst blames
    simp only [stepsLeft, Phase.running, Phase.rank, if_true] at retried ⊢
    omega
  | cancelled runs idle => exact ended _ runs

def taskSteps (events : List Event) : Nat :=
  events.countP fun
    | .task _ _ => true
    | .spawn _ => false

def allowance (budget : Nat) : Nat := 5 * budget + 5

theorem steps_bounded {events : List Event} {s : State}
    (run : connections.replay events = some s) :
    taskSteps events + total stepsLeft s.tasks ≤ total allowance (budgets events) := by
  refine run_invariant (fun events s =>
    taskSteps events + total stepsLeft s.tasks ≤ total allowance (budgets events)) ?_ ?_ events s run
  · exact Nat.le_refl 0
  · intro events s e s' held h
    cases e with
    | spawn n =>
      have spawned : step s (.spawn n) = some s' := h
      rw [step, Option.some.injEq] at spawned
      subst spawned
      have new : stepsLeft ⟨.connection, n⟩ = allowance n := rfl
      have none : taskSteps (events ++ [.spawn n]) = taskSteps events := by
        simp [taskSteps]
      rw [budgets_spawn, none]
      simp only [total_snoc, new]
      omega
    | task t action =>
      obtain ⟨task, manager', task', entries, found, moved, rfl⟩ := step_task h
      have change := total_set stepsLeft task' found
      have less := moves_steps_left (act_moves moved)
      have one : taskSteps (events ++ [.task t action]) = taskSteps events + 1 := by
        simp [taskSteps]
      rw [budgets_task, one]
      simp only
      omega

def CanMove (s : State) (t : Nat) : Prop :=
  ∃ action s', action ≠ .cancel ∧ step s (.task t action) = some s'

theorem can_move {s : State} {t : Nat} {task : Task} {action : Action}
    (found : s.tasks[t]? = some task) (plain : action ≠ .cancel)
    (moves : (act s.manager t task action).isSome) : CanMove s t := by
  obtain ⟨moved, acted⟩ := Option.isSome_iff_exists.mp moves
  refine ⟨action, ⟨moved.1, s.tasks.set t moved.2.1, s.log ++ moved.2.2⟩, plain, ?_⟩
  rw [step, found, Option.bind_some, acted]
  rfl

/-- A running call waits for nothing but the mutex. -/
theorem moves_unlocked {s : State} {t : Nat} {task : Task} (found : s.tasks[t]? = some task)
    (runs : task.phase.running = true) (free : s.manager.lock = none ∨ task.phase = .dialing) :
    CanMove s t := by
  obtain ⟨phase, remaining⟩ := task
  have unlocked : phase ≠ .dialing → s.manager.lock = none := by
    intro other
    rcases free with free | dials
    · exact free
    · exact absurd dials other
  cases phase with
  | connection =>
    refine can_move found (show Action.lock ≠ .cancel by simp) ?_
    simp only [act, unlocked (by simp), Option.isSome_none, Bool.false_eq_true, if_false]
    split <;> rfl
  | dial =>
    refine can_move found (show Action.lock ≠ .cancel by simp) ?_
    simp only [act, unlocked (by simp), Option.isSome_none, Bool.false_eq_true, if_false]
    split <;> rfl
  | dialing => exact can_move found (show Action.connected ≠ .cancel by simp) rfl
  | opening managed => exact can_move found (show Action.opened ≠ .cancel by simp) rfl
  | invalidate managed =>
    refine can_move found (show Action.lock ≠ .cancel by simp) ?_
    simp [act, unlocked]
  | returned managed => simp [Phase.running] at runs
  | failed => simp [Phase.running] at runs
  | cancelled => simp [Phase.running] at runs

/-- In every run, with any calls and any of them dropped anywhere: the mutex is held
    exactly by a call that dials, a call that cannot move waits for that dial and the
    dialling call can move, a run that cannot go on has ended every call and left the
    mutex free, and the steps of all calls are bounded by their reconnect attempts. -/
theorem manager_live {events : List Event} {s : State}
    (run : connections.replay events = some s) :
    (∀ t, s.manager.lock = some t ↔ ∃ task, s.tasks[t]? = some task ∧ task.phase = .dialing) ∧
      (∀ t task, s.tasks[t]? = some task → task.phase.running = true →
        CanMove s t ∨ ∃ k, k ≠ t ∧ s.manager.lock = some k ∧ CanMove s k) ∧
      ((∀ t, ¬ CanMove s t) →
        s.manager.lock = none ∧ ∀ task ∈ s.tasks, task.phase.running = false) ∧
      taskSteps events ≤ total allowance (budgets events) := by
  have guarded := guarded_run ⟨events, run⟩
  have waits : ∀ t task, s.tasks[t]? = some task → task.phase.running = true →
      CanMove s t ∨ ∃ k, k ≠ t ∧ s.manager.lock = some k ∧ CanMove s k := by
    intro t task found runs
    cases locked : s.manager.lock with
    | none => exact Or.inl (moves_unlocked found runs (Or.inl locked))
    | some k =>
      obtain ⟨dialer, lookup, dials⟩ := (guarded k).mp locked
      have going := moves_unlocked lookup (by rw [dials]; rfl) (Or.inr dials)
      by_cases same : k = t
      · exact Or.inl (same ▸ going)
      · exact Or.inr ⟨k, same, rfl, going⟩
  refine ⟨guarded, waits, ?_, ?_⟩
  · intro stuck
    constructor
    · cases locked : s.manager.lock with
      | none => rfl
      | some k =>
        obtain ⟨dialer, lookup, dials⟩ := (guarded k).mp locked
        exact absurd (moves_unlocked lookup (by rw [dials]; rfl) (Or.inr dials)) (stuck k)
    · intro task member
      obtain ⟨t, found⟩ := List.getElem?_of_mem member
      cases runs : task.phase.running with
      | false => rfl
      | true =>
        rcases waits t task found runs with moves | ⟨k, _, _, moves⟩
        · exact absurd moves (stuck t)
        · exact absurd moves (stuck k)
  · have bound := steps_bounded run
    omega

def steps (t : Nat) (actions : List Action) : List Event := actions.map (.task t)

def alone (t : Nat) : OpenAiConnectionManager × Task × List Entry → List Action →
    Option (OpenAiConnectionManager × Task × List Entry)
  | now, [] => some now
  | (manager, task, log), action :: actions =>
    (act manager t task action).bind fun (manager, task, entries) =>
      alone t (manager, task, log ++ entries) actions

theorem alone_steps {t : Nat} {actions : List Action} {manager manager' : OpenAiConnectionManager}
    {task task' : Task} {log log' : List Entry}
    (moves : alone t (manager, task, log) actions = some (manager', task', log')) :
    ∀ tasks : List Task, tasks[t]? = some task →
      (steps t actions).foldlM step ⟨manager, tasks, log⟩ =
        some ⟨manager', tasks.set t task', log'⟩ := by
  induction actions generalizing manager task log with
  | nil =>
    intro tasks found
    simp only [alone, Option.some.injEq, Prod.mk.injEq] at moves
    obtain ⟨rfl, rfl, rfl⟩ := moves
    obtain ⟨below, here⟩ := List.getElem?_eq_some_iff.mp found
    rw [← here, List.set_getElem_self]
    rfl
  | cons action actions ih =>
    intro tasks found
    rw [alone, Option.bind_eq_some_iff] at moves
    obtain ⟨⟨next, moved, entries⟩, acted, rest⟩ := moves
    have once : step ⟨manager, tasks, log⟩ (.task t action) =
        some ⟨next, tasks.set t moved, log ++ entries⟩ := by
      simp only [step, found, Option.bind_some, acted, Option.map_some]
    have later := ih rest (tasks.set t moved) (lookup_set found)
    rw [List.set_set] at later
    rw [steps, List.map_cons, List.foldlM_cons, once]
    exact later

def call (s : State) (attempts : Nat) (actions : List Action) : List Event :=
  .spawn attempts :: steps s.tasks.length actions

theorem call_run {s : State} {attempts : Nat} {actions : List Action}
    {manager' : OpenAiConnectionManager} {task' : Task} {log' : List Entry}
    (moves : alone s.tasks.length (s.manager, ⟨.connection, attempts⟩, s.log) actions =
      some (manager', task', log')) :
    (call s attempts actions).foldlM step s = some ⟨manager', s.tasks ++ [task'], log'⟩ := by
  have found : (s.tasks ++ [(⟨.connection, attempts⟩ : Task)])[s.tasks.length]? =
      some ⟨.connection, attempts⟩ := List.getElem?_concat_length
  have run := alone_steps moves _ found
  rw [List.set_append_right _ _ (Nat.le_refl _), Nat.sub_self] at run
  exact run

def onStored : List Action := [.lock, .opened]

def onDialled : List Action := [.lock, .lock, .connected, .opened]

def onDead : List Action := [.lock, .openFailed, .lock, .lock, .lock, .connected, .opened]

/-- From every state of every run in which no call is dialling, whatever has been dropped
    before, for a call that runs alone: it gets a stream of the stored connection if that
    is alive, and else, with one reconnect, a stream of a connection that is stored from
    then on and is none of those that were handed out before. A failed dial leaves the
    manager free for the next call. -/
theorem self_healing {s : State} (reached : connections.Reachable s)
    (idle : ∀ task ∈ s.tasks, task.phase ≠ .dialing) (attempts : Nat) :
    (∀ managed, s.manager.current = some managed →
      (∃ log, (call s attempts onStored).foldlM step s =
        some ⟨s.manager, s.tasks ++ [⟨.returned managed, attempts⟩], log⟩) ∧
      ∃ log, (call s (attempts + 1) onDead).foldlM step s =
        some ⟨s.manager.store, s.tasks ++ [⟨.returned s.manager.next, attempts⟩], log⟩) ∧
      (s.manager.current = none →
        (∃ log, (call s attempts onDialled).foldlM step s =
          some ⟨s.manager.store, s.tasks ++ [⟨.returned s.manager.next, attempts⟩], log⟩) ∧
        ∃ log, (call s attempts [.lock, .lock, .connectFailed]).foldlM step s =
          some ⟨s.manager, s.tasks ++ [⟨.failed, attempts⟩], log⟩) ∧
      s.manager.store.current = some s.manager.next ∧
      ∀ other ∈ handedOut s.log, other ≠ s.manager.next := by
  have guarded := guarded_run reached
  have consistent := consistent_run reached
  have free : s.manager.lock = none := by
    cases locked : s.manager.lock with
    | none => rfl
    | some k =>
      obtain ⟨task, found, dials⟩ := (guarded k).mp locked
      exact absurd dials (idle task (List.mem_of_getElem? found))
  obtain ⟨⟨current, nextId, lock, established⟩, tasks, log⟩ := s
  simp only at free
  subst free
  refine ⟨?_, ?_, rfl, ?_⟩
  · rintro managed rfl
    refine ⟨⟨_, call_run rfl⟩, ?_⟩
    have own : (some managed).filter (fun connection => connection.id == managed.id) =
        some managed := by
      simp [Option.filter]
    refine ⟨log ++ [.openFailed tasks.length managed, .cleared tasks.length managed,
      .dialed ⟨nextId, established⟩], call_run ?_⟩
    simp [alone, onDead, act, OpenAiConnectionManager.invalidate, OpenAiConnectionManager.stale,
      OpenAiConnectionManager.store, OpenAiConnectionManager.next, Task.retry, own]
  · rintro rfl
    exact ⟨⟨_, call_run rfl⟩, ⟨_, call_run rfl⟩⟩
  · rintro other known rfl
    rw [consistent.numbered, List.mem_map] at known
    obtain ⟨k, below, same⟩ := known
    have number : k = established := congrArg ManagedOpenAiConnection.connection same
    have := List.mem_range.mp below
    simp only at this
    omega

def droppedDial : List Event :=
  [.spawn 0, .task 0 .lock, .task 0 .openFailed, .task 0 .lock, .spawn 1, .task 1 .lock,
    .task 1 .lock, .task 1 .cancel]

theorem manager_live_example : ∃ s, connections.replay droppedDial = some s ∧
    s.manager.lock = none ∧ taskSteps droppedDial ≤ total allowance (budgets droppedDial) := by
  refine ⟨_, rfl, rfl, ?_⟩
  exact (@manager_live droppedDial _ rfl).2.2.2

theorem self_healing_example : ∃ s s', connections.replay droppedDial = some s ∧
    s.manager.current = none ∧ (call s 0 onDialled).foldlM step s = some s' ∧
    s'.manager.current = some (nth 1) := by
  have finished : (connections.replay droppedDial).map
      (fun s => (s.manager, s.tasks.map Task.phase)) =
        some (⟨none, 2, none, 1⟩, [.failed, .cancelled]) := by decide
  obtain ⟨s, run, seen⟩ := Option.map_eq_some_iff.mp finished
  rw [Prod.mk.injEq] at seen
  obtain ⟨manager, phases⟩ := seen
  have idle : ∀ task ∈ s.tasks, task.phase ≠ .dialing := by
    intro task member dials
    have phase := List.mem_map_of_mem (f := Task.phase) member
    rw [phases, dials] at phase
    simp at phase
  have none : s.manager.current = none := by rw [manager]
  obtain ⟨⟨log, healed⟩, _⟩ := (self_healing ⟨droppedDial, run⟩ idle 0).2.1 none
  refine ⟨s, _, run, none, healed, ?_⟩
  rw [manager]
  rfl

end ManagerProgress
