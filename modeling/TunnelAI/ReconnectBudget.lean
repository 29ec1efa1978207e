import TunnelAI.ConnectionManager

/-!
What one call of `open_bi_with_reconnect` does with its reconnect attempts, in any
run of all tasks. The rounds of a call are noted along the run: a round takes the
connection that it sees in the slot or the one that it has dialled, and ends when its
dial fails, when its open fails, or when its open succeeds. The other tasks may fill
and empty the slot at any moment in between.
-/
namespace ReconnectBudget
open TransitionRuns TaskPools ConnectionManager

inductive Round where
  | dialFailed
  | openFailed : ManagedOpenAiConnection → Round
  | opened : ManagedOpenAiConnection → Round
  deriving DecidableEq

/-- A call as the manager sees it: what it has last seen in the slot or dialled, and the
    rounds that are over. -/
structure Call where
  obtained : Option ManagedOpenAiConnection
  rounds : List Round

/-- An open is on the connection that was obtained last. -/
def Call.act (manager : OpenAiConnectionManager) (call : Call) : Action → Call
  | .lock => { call with obtained := manager.current }
  | .connected => { call with obtained := some manager.next }
  | .connectFailed => { call with rounds := call.rounds ++ [.dialFailed] }
  | .openFailed => { call with rounds := call.rounds ++ call.obtained.toList.map .openFailed }
  | .opened => { call with rounds := call.rounds ++ call.obtained.toList.map .opened }
  | .cancel => call

def Call.note (t : Nat) (s : State) (e : Event) (call : Call) : Call :=
  match e with
  | .task k action => if k = t then call.act s.manager action else call
  | .spawn _ => call

def callOf (t : Nat) (events : List Event) : Call :=
  connections.noted (Call.note t) ⟨none, []⟩ events

def rounds (t : Nat) (events : List Event) : List Round := (callOf t events).rounds

def budgets (events : List Event) : List Nat :=
  events.filterMap fun
    | .spawn reconnectAttempts => some reconnectAttempts
    | .task _ _ => none

def opens (rounds : List Round) : Nat := rounds.countP (· ≠ .dialFailed)

def Phase.opens : Phase → Nat
  | .opening _ => 1
  | _ => 0

/-- What `reconnect_attempts = n` promises: at most `n + 1` opens, a stream of the
    connection of the first round that succeeds among the first `n + 1`, and an error
    only when all of them have failed. -/
structure WithinBudget (n : Nat) (rounds : List Round) (phase : Phase) : Prop where
  bounded : opens rounds + Phase.opens phase ≤ n + 1
  first : ∀ managed, phase = .returned managed → ∃ failures, rounds = failures ++ [.opened managed] ∧
    (∀ other, .opened other ∉ failures) ∧ failures.length ≤ n
  returns : ∀ managed, .opened managed ∈ rounds → phase = .returned managed
  exhausted : phase = .failed → rounds.length = n + 1 ∧ ∀ managed, .opened managed ∉ rounds

/-- Where a call is in its budget, when its opens on the connections `tried` have failed. -/
def Progress (n : Nat) (call : Call) (task : Task) : Prop :=
  ∃ tried : List ManagedOpenAiConnection, tried.length ≤ n ∧ match task.phase with
    | .opening managed => call.obtained = some managed ∧
      call.rounds = tried.map .openFailed ∧ tried.length + task.remainingReconnects = n
    | .invalidate managed => call.rounds = (tried ++ [managed]).map .openFailed ∧
      tried.length + task.remainingReconnects = n
    | .returned managed => call.rounds = tried.map .openFailed ++ [.opened managed]
    | .failed =>
      (∃ last, call.rounds = (tried ++ [last]).map .openFailed ∧ tried.length = n) ∨
        call.rounds = tried.map .openFailed ++ [.dialFailed]
    | .cancelled => call.rounds = tried.map .openFailed ∨
        ∃ last, call.rounds = (tried ++ [last]).map .openFailed
    | _ => call.rounds = tried.map .openFailed ∧ tried.length + task.remainingReconnects = n

theorem call_spawn {t n : Nat} {events : List Event} {s : State}
    (run : connections.replay events = some s) :
    callOf t (events ++ [.spawn n]) = callOf t events :=
  noted_snoc (Call.note t) ⟨none, []⟩ run (.spawn n)

theorem call_task {t k : Nat} {action : Action} {events : List Event} {s : State}
    (run : connections.replay events = some s) :
    callOf t (events ++ [.task k action]) =
      if k = t then (callOf t events).act s.manager action else callOf t events :=
  noted_snoc (Call.note t) ⟨none, []⟩ run (.task k action)

theorem budgets_spawn (n : Nat) (events : List Event) :
    budgets (events ++ [.spawn n]) = budgets events ++ [n] := by
  simp [budgets]

theorem budgets_task (t : Nat) (action : Action) (events : List Event) :
    budgets (events ++ [.task t action]) = budgets events := by
  simp [budgets]

theorem progress_retry {n : Nat} {call : Call} {task : Task} {managed : ManagedOpenAiConnection}
    (blames : task.phase = .invalidate managed) (held : Progress n call task)
    (obtained : Option ManagedOpenAiConnection) :
    Progress n { call with obtained := obtained } task.retry := by
  obtain ⟨phase, remaining⟩ := task
  obtain ⟨tried, small, held⟩ := held
  simp only at blames
  subst blames
  obtain ⟨shape, left⟩ := held
  simp only at left
  unfold Task.retry
  by_cases last : remaining = 0
  · rw [if_pos last]
    exact ⟨tried, small, Or.inl ⟨managed, shape, by omega⟩⟩
  · rw [if_neg last]
    have longer : (tried ++ [managed]).length = tried.length + 1 := by simp
    refine ⟨tried ++ [managed], by omega, shape, ?_⟩
    simp only
    omega

theorem progress_moves {manager manager' : OpenAiConnectionManager} {t n : Nat}
    {task task' : Task} {action : Action} {entries : List Entry} {call : Call}
    (moves : Moves manager t task action manager' task' entries) (held : Progress n call task) :
    Progress n (call.act manager action) task' := by
  have before := held
  obtain ⟨phase, remaining⟩ := task
  obtain ⟨tried, small, held⟩ := held
  cases moves with
  | shared managed waits free stored =>
    rcases waits with rfl | rfl
    · exact ⟨tried, small, stored, held⟩
    · exact ⟨tried, small, stored, held⟩
  | vacant waits free empty =>
    simp only at waits
    subst waits
    exact ⟨tried, small, held⟩
  | dial waits free empty =>
    simp only at waits
    subst waits
    exact ⟨tried, small, held⟩
  | connected dials =>
    simp only at dials
    subst dials
    exact ⟨tried, small, rfl, held⟩
  | released action phase dials ends =>
    simp only at dials
    subst dials
    rcases ends with ⟨rfl, rfl⟩ | ⟨rfl, rfl⟩
    · refine ⟨tried, small, Or.inr ?_⟩
      rw [Call.act, held.1]
    · exact ⟨tried, small, Or.inl held.1⟩
  | opened managed opens =>
    simp only at opens
    subst opens
    obtain ⟨obtained, shape, _⟩ := held
    refine ⟨tried, small, ?_⟩
    simp only [Call.act, obtained, shape]
    rfl
  | openFailed managed opens =>
    simp only at opens
    subst opens
    obtain ⟨obtained, shape, left⟩ := held
    refine ⟨tried, small, ?_, left⟩
    rw [Call.act, obtained, shape, List.map_append]
    rfl
  | cleared managed stored blames free current same =>
    exact progress_retry blames before manager.current
  | kept managed blames free other =>
    exact progress_retry blames before manager.current
  | cancelled runs idle =>
    cases phase with
    | connection | dial => exact ⟨tried, small, Or.inl held.1⟩
    | dialing => exact absurd rfl idle
    | opening managed => exact ⟨tried, small, Or.inl held.2.1⟩
    | invalidate managed => exact ⟨tried, small, Or.inr ⟨managed, held.1⟩⟩
    | returned managed => simp [Phase.running] at runs
    | failed | cancelled => simp [Phase.running] at runs

structure Accounted (events : List Event) (s : State) : Prop where
  run : connections.replay events = some s
  spawned : s.tasks.length = (budgets events).length
  progress : Every (fun t task => ∃ n, (budgets events)[t]? = some n ∧
    Progress n (callOf t events) task) s.tasks
  unborn : ∀ t, s.tasks.length ≤ t → rounds t events = []

theorem accounted_step {events : List Event} {s s' : State} {e : Event}
    (held : Accounted events s) (h : step s e = some s') : Accounted (events ++ [e]) s' := by
  have run' := replay_step held.run h
  cases e with
  | spawn n =>
    rw [step, Option.some.injEq] at h
    subst h
    refine ⟨run', ?_, ?_, ?_⟩
    · simp [budgets_spawn, held.spawned]
    · refine (held.progress.imp ?_).snoc ?_
      · intro t task found
        obtain ⟨n', budget, progress⟩ := found
        rw [budgets_spawn, call_spawn held.run]
        exact ⟨n', lookup_snoc budget, progress⟩
      · refine ⟨n, ?_, [], Nat.zero_le n, ?_, ?_⟩
        · rw [budgets_spawn, held.spawned, List.getElem?_concat_length]
        · rw [call_spawn held.run]
          exact held.unborn _ (Nat.le_refl _)
        · exact Nat.zero_add n
    · intro t later
      rw [rounds, call_spawn held.run]
      refine held.unborn t ?_
      simp only [List.length_append, List.length_singleton] at later
      omega
  | task t action =>
    obtain ⟨task, manager', task', entries, found, moved, rfl⟩ := step_task h
    refine ⟨run', ?_, ?_, ?_⟩
    · rw [budgets_task, List.length_set, held.spawned]
    · refine every_set ?_ ?_
      · intro k other apart lookup
        rw [budgets_task, call_task held.run, if_neg (Ne.symm apart)]
        exact held.progress k other lookup
      · obtain ⟨n, budget, progress⟩ := held.progress t task found
        rw [budgets_task, call_task held.run, if_pos rfl]
        exact ⟨n, budget, progress_moves (act_moves moved) progress⟩
    · intro k later
      rw [List.length_set] at later
      have below := (List.getElem?_eq_some_iff.mp found).1
      rw [rounds, call_task held.run, if_neg (by omega)]
      exact held.unborn k later

theorem accounted_run {events : List Event} {s : State}
    (run : connections.replay events = some s) : Accounted events s := by
  refine run_invariant Accounted ?_ ?_ events s run
  · exact ⟨rfl, rfl, every_nil _, fun t _ => rfl⟩
  · intro events s e t held h
    exact accounted_step held h

theorem opens_failures (tried : List ManagedOpenAiConnection) :
    opens (tried.map .openFailed) = tried.length := by
  rw [opens, List.countP_eq_length.mpr]
  · exact List.length_map _
  · intro round member
    obtain ⟨managed, _, rfl⟩ := List.mem_map.mp member
    rfl

theorem failures_unopened (tried : List ManagedOpenAiConnection)
    (managed : ManagedOpenAiConnection) : Round.opened managed ∉ tried.map Round.openFailed := by
  simp

theorem no_dial_failed (tried : List ManagedOpenAiConnection) :
    Round.dialFailed ∉ tried.map Round.openFailed := by
  simp

theorem failures_within {n : Nat} {tried : List ManagedOpenAiConnection} {phase : Phase}
    (small : tried.length + Phase.opens phase ≤ n + 1)
    (unreturned : ∀ managed, phase ≠ .returned managed)
    (last : phase = .failed → tried.length = n + 1) :
    WithinBudget n (tried.map .openFailed) phase where
  bounded := by
    rw [opens_failures]
    exact small
  first managed returned := absurd returned (unreturned managed)
  returns managed member := absurd member (failures_unopened tried managed)
  exhausted failed := ⟨by rw [List.length_map, last failed], failures_unopened tried⟩

theorem within_budget_iff {n : Nat} {call : Call} {task : Task} (held : Progress n call task) :
    WithinBudget n call.rounds task.phase ↔
      (.dialFailed ∈ call.rounds → call.rounds.length = n + 1) := by
  obtain ⟨phase, remaining⟩ := task
  obtain ⟨obtained, rounds⟩ := call
  obtain ⟨tried, small, held⟩ := held
  have quiet : ∀ {done : List ManagedOpenAiConnection},
      done.length + Phase.opens phase ≤ n + 1 → (∀ managed, phase ≠ .returned managed) →
      (phase = .failed → done.length = n + 1) → rounds = done.map .openFailed →
      (WithinBudget n rounds phase ↔ (.dialFailed ∈ rounds → rounds.length = n + 1)) := by
    intro done within unreturned last shape
    subst shape
    constructor
    · intro _ member
      exact absurd member (no_dial_failed done)
    · intro _
      exact failures_within within unreturned last
  cases phase with
  | connection => exact quiet (by simp [Phase.opens]; omega) (by simp) (by simp) held.1
  | dial => exact quiet (by simp [Phase.opens]; omega) (by simp) (by simp) held.1
  | dialing => exact quiet (by simp [Phase.opens]; omega) (by simp) (by simp) held.1
  | opening managed => exact quiet (by simp [Phase.opens]; omega) (by simp) (by simp) held.2.1
  | invalidate managed => exact quiet (by simp [Phase.opens]; omega) (by simp) (by simp) held.1
  | cancelled =>
    rcases held with shape | ⟨last, shape⟩
    · exact quiet (by simp [Phase.opens]; omega) (by simp) (by simp) shape
    · exact quiet (by simp [Phase.opens]; omega) (by simp) (by simp) shape
  | returned managed =>
    simp only at held
    subst held
    constructor
    · intro _ member
      rcases List.mem_append.mp member with early | late
      · exact absurd early (no_dial_failed tried)
      · simp at late
    · intro _
      refine ⟨?_, ?_, ?_, by simp⟩
      · simp only [opens, List.countP_append]
        rw [← opens, opens_failures]
        simp [Phase.opens, small]
      · intro other same
        obtain rfl := Phase.returned.inj same
        exact ⟨_, rfl, failures_unopened tried, by simpa using small⟩
      · intro other member
        rcases List.mem_append.mp member with early | late
        · exact absurd early (failures_unopened tried other)
        · rw [List.mem_singleton, Round.opened.injEq] at late
          rw [late]
  | failed =>
    rcases held with ⟨last, shape, spent⟩ | shape
    · exact quiet (by simp [Phase.opens, spent]) (by simp) (by simp [spent]) shape
    · simp only at shape
      subst shape
      constructor
      · intro within _
        exact (within.exhausted rfl).1
      · intro last
        have length := last (by simp)
        have unopened : ∀ managed,
            Round.opened managed ∉ tried.map Round.openFailed ++ [.dialFailed] := by simp
        refine ⟨?_, by simp, fun managed member => absurd member (unopened managed),
          fun _ => ⟨length, unopened⟩⟩
        simp only [opens, List.countP_append]
        rw [← opens, opens_failures]
        simp [Phase.opens]
        omega

/-- In every run of all tasks, each call keeps to its budget exactly when none of its
    dials fails before its last round. -/
theorem reconnect_budget_iff {events : List Event} {s : State}
    (run : connections.replay events = some s) {t n : Nat} {task : Task}
    (found : s.tasks[t]? = some task) (budget : (budgets events)[t]? = some n) :
    WithinBudget n (rounds t events) task.phase ↔
      (.dialFailed ∈ rounds t events → (rounds t events).length = n + 1) := by
  obtain ⟨n', budget', progress⟩ := (accounted_run run).progress t task found
  rw [budget, Option.some.injEq] at budget'
  subst budget'
  exact within_budget_iff progress

def reconnects : List Event :=
  [.spawn 1, .spawn 1, .task 0 .lock, .task 0 .openFailed, .task 0 .lock, .task 0 .lock,
    .task 0 .lock, .task 0 .connected, .task 1 .lock, .task 0 .opened, .task 1 .opened]

theorem reconnect_budget_example : ∃ s task, connections.replay reconnects = some s ∧
    s.tasks[0]? = some task ∧ rounds 0 reconnects = [.openFailed (nth 0), .opened (nth 1)] ∧
    WithinBudget 1 (rounds 0 reconnects) task.phase := by
  refine ⟨_, _, rfl, rfl, by decide, (reconnect_budget_iff rfl rfl rfl).mpr ?_⟩
  decide

/-- A call with three reconnects fails after one of them: its open has failed, and so
    has its first dial. -/
def givesUp : List Event :=
  [.spawn 3, .task 0 .lock, .task 0 .openFailed, .task 0 .lock, .task 0 .lock, .task 0 .lock,
    .task 0 .connectFailed]

theorem reconnects_left : ∃ s task, connections.replay givesUp = some s ∧
    s.tasks[0]? = some task ∧ task.phase = .failed ∧
    rounds 0 givesUp = [.openFailed (nth 0), .dialFailed] ∧
    ¬ WithinBudget 3 (rounds 0 givesUp) task.phase := by
  refine ⟨_, _, rfl, rfl, rfl, by decide, ?_⟩
  intro within
  have length := (within.exhausted rfl).1
  exact absurd length (by decide)

end ReconnectBudget
