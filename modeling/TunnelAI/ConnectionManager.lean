import Mathlib.Data.List.Basic
import TunnelAI.Library.Runs
import TunnelAI.Library.TaskPools

/-!
The shared connection of the OpenAI client: a slot behind a mutex, and any
number of tasks that open streams on what it holds. A task moves from one await
to the next in one step and may be dropped at any of them. A task that dials
holds the mutex until the dial is over, and every other task waits.
-/
namespace ConnectionManager
open TransitionRuns TaskPools

/-- A connection is its place among those that the endpoint has established. -/
structure ManagedOpenAiConnection where
  id : UInt64
  connection : Nat
  deriving DecidableEq

/-- `lock` is the task that holds the mutex across an await. -/
structure OpenAiConnectionManager where
  current : Option ManagedOpenAiConnection
  nextId : UInt64
  lock : Option Nat
  established : Nat
  deriving DecidableEq

inductive Phase where
  | connection
  | dial
  | dialing
  | opening : ManagedOpenAiConnection → Phase
  | invalidate : ManagedOpenAiConnection → Phase
  | returned : ManagedOpenAiConnection → Phase
  | failed
  | cancelled
  deriving DecidableEq

def Phase.running : Phase → Bool
  | .returned _ => false
  | .failed => false
  | .cancelled => false
  | _ => true

structure Task where
  phase : Phase
  remainingReconnects : Nat
  deriving DecidableEq

inductive Action where
  | lock
  | connected
  | connectFailed
  | opened
  | openFailed
  | cancel

inductive Entry where
  | dialed : ManagedOpenAiConnection → Entry
  | openFailed : Nat → ManagedOpenAiConnection → Entry
  | cleared : Nat → ManagedOpenAiConnection → Entry
  deriving DecidableEq

def OpenAiConnectionManager.fresh : OpenAiConnectionManager :=
  ⟨none, 1, none, 0⟩

def OpenAiConnectionManager.next (manager : OpenAiConnectionManager) : ManagedOpenAiConnection :=
  ⟨manager.nextId, manager.established⟩

def OpenAiConnectionManager.store (manager : OpenAiConnectionManager) :
    OpenAiConnectionManager where
  current := some manager.next
  nextId := manager.nextId + 1
  lock := none
  established := manager.established + 1

def OpenAiConnectionManager.stale (manager : OpenAiConnectionManager) (id : UInt64) :
    Option ManagedOpenAiConnection :=
  manager.current.filter fun connection => connection.id == id

def OpenAiConnectionManager.invalidate (manager : OpenAiConnectionManager) (id : UInt64) :
    OpenAiConnectionManager :=
  if (manager.stale id).isSome then { manager with current := none } else manager

def Task.retry (task : Task) : Task :=
  if task.remainingReconnects = 0 then { task with phase := .failed }
  else ⟨.connection, task.remainingReconnects - 1⟩

def act (manager : OpenAiConnectionManager) (t : Nat) (task : Task) (action : Action) :
    Option (OpenAiConnectionManager × Task × List Entry) :=
  match task.phase, action with
  | .connection, .lock =>
    if manager.lock.isSome then none
    else match manager.current with
      | some managed => some (manager, { task with phase := .opening managed }, [])
      | none => some (manager, { task with phase := .dial }, [])
  | .dial, .lock =>
    if manager.lock.isSome then none
    else match manager.current with
      | some managed => some (manager, { task with phase := .opening managed }, [])
      | none => some ({ manager with lock := some t }, { task with phase := .dialing }, [])
  | .dialing, .connected =>
    some (manager.store, { task with phase := .opening manager.next }, [.dialed manager.next])
  | .dialing, .connectFailed =>
    some ({ manager with lock := none }, { task with phase := .failed }, [])
  | .opening managed, .opened => some (manager, { task with phase := .returned managed }, [])
  | .opening managed, .openFailed =>
    some (manager, { task with phase := .invalidate managed }, [.openFailed t managed])
  | .invalidate managed, .lock =>
    if manager.lock.isSome then none
    else some (manager.invalidate managed.id, task.retry,
      (manager.stale managed.id).toList.map (.cleared t))
  | .dialing, .cancel =>
    some ({ manager with lock := none }, { task with phase := .cancelled }, [])
  | .connection, .cancel => some (manager, { task with phase := .cancelled }, [])
  | .dial, .cancel => some (manager, { task with phase := .cancelled }, [])
  | .opening _, .cancel => some (manager, { task with phase := .cancelled }, [])
  | .invalidate _, .cancel => some (manager, { task with phase := .cancelled }, [])
  | _, _ => none

structure State where
  manager : OpenAiConnectionManager
  tasks : List Task
  log : List Entry
  deriving DecidableEq

inductive Event where
  | spawn : Nat → Event
  | task : Nat → Action → Event

def step (s : State) : Event → Option State
  | .spawn reconnectAttempts =>
    some { s with tasks := s.tasks ++ [⟨.connection, reconnectAttempts⟩] }
  | .task t action =>
    s.tasks[t]?.bind fun task =>
      (act s.manager t task action).map fun (manager, task, entries) =>
        ⟨manager, s.tasks.set t task, s.log ++ entries⟩

/-- What `connect` returns: the manager whose first dial has succeeded. -/
def connect : State where
  manager := OpenAiConnectionManager.fresh.store
  tasks := []
  log := [.dialed OpenAiConnectionManager.fresh.next]

def connections : System State Event where
  init := connect
  step := step

/-- One atomic section of a task, with what it leaves behind. -/
inductive Moves (manager : OpenAiConnectionManager) (t : Nat) (task : Task) :
    Action → OpenAiConnectionManager → Task → List Entry → Prop where
  | shared (managed) (waits : task.phase = .connection ∨ task.phase = .dial)
      (free : manager.lock = none) (stored : manager.current = some managed) :
      Moves manager t task .lock manager { task with phase := .opening managed } []
  | vacant (waits : task.phase = .connection) (free : manager.lock = none)
      (empty : manager.current = none) :
      Moves manager t task .lock manager { task with phase := .dial } []
  | dial (waits : task.phase = .dial) (free : manager.lock = none)
      (empty : manager.current = none) :
      Moves manager t task .lock { manager with lock := some t } { task with phase := .dialing } []
  | connected (dials : task.phase = .dialing) :
      Moves manager t task .connected manager.store { task with phase := .opening manager.next }
        [.dialed manager.next]
  | released (action phase) (dials : task.phase = .dialing)
      (ends : action = .connectFailed ∧ phase = .failed ∨
        action = .cancel ∧ phase = .cancelled) :
      Moves manager t task action { manager with lock := none } { task with phase := phase } []
  | opened (managed) (opens : task.phase = .opening managed) :
      Moves manager t task .opened manager { task with phase := .returned managed } []
  | openFailed (managed) (opens : task.phase = .opening managed) :
      Moves manager t task .openFailed manager { task with phase := .invalidate managed }
        [.openFailed t managed]
  | cleared (managed stored) (blames : task.phase = .invalidate managed)
      (free : manager.lock = none) (current : manager.current = some stored)
      (same : stored.id = managed.id) :
      Moves manager t task .lock { manager with current := none } task.retry [.cleared t stored]
  | kept (managed) (blames : task.phase = .invalidate managed) (free : manager.lock = none)
      (other : manager.stale managed.id = none) : Moves manager t task .lock manager task.retry []
  | cancelled (runs : task.phase.running = true) (idle : task.phase ≠ .dialing) :
      Moves manager t task .cancel manager { task with phase := .cancelled } []

theorem stale_some {manager : OpenAiConnectionManager} {id : UInt64}
    {stored : ManagedOpenAiConnection} (h : manager.stale id = some stored) :
    manager.current = some stored ∧ stored.id = id := by
  unfold OpenAiConnectionManager.stale at h
  rw [Option.filter_eq_some_iff] at h
  exact ⟨h.1, beq_iff_eq.mp h.2⟩

theorem invalidate_moves {manager : OpenAiConnectionManager} {t : Nat} {task : Task}
    {managed : ManagedOpenAiConnection} (blames : task.phase = .invalidate managed)
    (free : manager.lock = none) :
    Moves manager t task .lock (manager.invalidate managed.id) task.retry
      ((manager.stale managed.id).toList.map (.cleared t)) := by
  cases found : manager.stale managed.id with
  | none =>
    have same : manager.invalidate managed.id = manager := by
      simp [OpenAiConnectionManager.invalidate, found]
    rw [same]
    exact Moves.kept managed blames free found
  | some stored =>
    have clears : manager.invalidate managed.id = { manager with current := none } := by
      simp [OpenAiConnectionManager.invalidate, found]
    obtain ⟨current, same⟩ := stale_some found
    rw [clears]
    exact Moves.cleared managed stored blames free current same

theorem act_moves {manager manager' : OpenAiConnectionManager} {t : Nat} {task task' : Task}
    {action : Action} {entries : List Entry}
    (h : act manager t task action = some (manager', task', entries)) :
    Moves manager t task action manager' task' entries := by
  obtain ⟨phase, remaining⟩ := task
  cases phase with
  | connection =>
    cases action <;> simp only [act, reduceCtorEq, Option.ite_none_left_eq_some] at h
    · obtain ⟨free, h⟩ := h
      split at h
      · rename_i stored
        obtain ⟨rfl, rfl, rfl⟩ := h
        exact Moves.shared _ (Or.inl rfl) (by simpa using free) stored
      · rename_i empty
        obtain ⟨rfl, rfl, rfl⟩ := h
        exact Moves.vacant rfl (by simpa using free) empty
    · obtain ⟨rfl, rfl, rfl⟩ := h
      exact Moves.cancelled rfl (by simp)
  | dial =>
    cases action <;> simp only [act, reduceCtorEq, Option.ite_none_left_eq_some] at h
    · obtain ⟨free, h⟩ := h
      split at h
      · rename_i stored
        obtain ⟨rfl, rfl, rfl⟩ := h
        exact Moves.shared _ (Or.inr rfl) (by simpa using free) stored
      · rename_i empty
        obtain ⟨rfl, rfl, rfl⟩ := h
        exact Moves.dial rfl (by simpa using free) empty
    · obtain ⟨rfl, rfl, rfl⟩ := h
      exact Moves.cancelled rfl (by simp)
  | dialing =>
    cases action <;> simp only [act, reduceCtorEq] at h
    · obtain ⟨rfl, rfl, rfl⟩ := h
      exact Moves.connected rfl
    · obtain ⟨rfl, rfl, rfl⟩ := h
      exact Moves.released .connectFailed .failed rfl (Or.inl ⟨rfl, rfl⟩)
    · obtain ⟨rfl, rfl, rfl⟩ := h
      exact Moves.released .cancel .cancelled rfl (Or.inr ⟨rfl, rfl⟩)
  | opening managed =>
    cases action <;> simp only [act, reduceCtorEq] at h
    · obtain ⟨rfl, rfl, rfl⟩ := h
      exact Moves.opened managed rfl
    · obtain ⟨rfl, rfl, rfl⟩ := h
      exact Moves.openFailed managed rfl
    · obtain ⟨rfl, rfl, rfl⟩ := h
      exact Moves.cancelled rfl (by simp)
  | invalidate managed =>
    cases action <;> simp only [act, reduceCtorEq, Option.ite_none_left_eq_some] at h
    · obtain ⟨free, h⟩ := h
      obtain ⟨rfl, rfl, rfl⟩ := h
      exact invalidate_moves rfl (by simpa using free)
    · obtain ⟨rfl, rfl, rfl⟩ := h
      exact Moves.cancelled rfl (by simp)
  | returned managed => cases action <;> simp [act] at h
  | failed => cases action <;> simp [act] at h
  | cancelled => cases action <;> simp [act] at h

def handedOut (log : List Entry) : List ManagedOpenAiConnection :=
  log.filterMap fun
    | .dialed managed => some managed
    | _ => none

def isClear : Entry → Bool
  | .cleared _ _ => true
  | _ => false

def clears (log : List Entry) : Nat := log.countP isClear

def slot : List Entry → Option ManagedOpenAiConnection :=
  List.foldl (fun current entry => match entry with
    | .dialed managed => some managed
    | .openFailed _ _ => current
    | .cleared _ _ => none) none

/-- What a slot allows: it is filled when it is empty, and emptied by a task
    that has failed on a connection with the id of the one that is stored. -/
def Allowed (before : List Entry) : Entry → Prop
  | .dialed _ => slot before = none
  | .openFailed _ managed => managed ∈ handedOut before
  | .cleared t stored => slot before = some stored ∧
      ∃ managed, .openFailed t managed ∈ before ∧ managed.id = stored.id

@[simp] theorem handed_out_snoc (log : List Entry) (entry : Entry) :
    handedOut (log ++ [entry]) = handedOut log ++ handedOut [entry] := by
  simp [handedOut]

@[simp] theorem handed_out_dialed (managed : ManagedOpenAiConnection) :
    handedOut [.dialed managed] = [managed] := rfl

@[simp] theorem handed_out_failed (t : Nat) (managed : ManagedOpenAiConnection) :
    handedOut [.openFailed t managed] = [] := rfl

@[simp] theorem handed_out_cleared (t : Nat) (managed : ManagedOpenAiConnection) :
    handedOut [.cleared t managed] = [] := rfl

theorem slot_snoc (log : List Entry) (entry : Entry) :
    slot (log ++ [entry]) = match entry with
      | .dialed managed => some managed
      | .openFailed _ _ => slot log
      | .cleared _ _ => none := by
  simp only [slot, List.foldl_append, List.foldl_cons, List.foldl_nil]

theorem slot_handed_out {log : List Entry} {managed : ManagedOpenAiConnection}
    (stored : slot log = some managed) :
    (handedOut log).getLast? = some managed := by
  induction log using List.reverseRecOn with
  | nil => simp [slot] at stored
  | append_singleton log entry ih =>
    rw [slot_snoc] at stored
    cases entry with
    | dialed other =>
      rw [Option.some.injEq] at stored
      simp [stored]
    | openFailed t other => simpa using ih stored
    | cleared t other => contradiction

theorem slot_known {log : List Entry} {managed : ManagedOpenAiConnection}
    (stored : slot log = some managed) : managed ∈ handedOut log :=
  List.mem_of_getLast? (slot_handed_out stored)

theorem slot_balance {log : List Entry} (lawful : Lawful Allowed log) :
    (handedOut log).length = clears log + if (slot log).isSome then 1 else 0 := by
  induction log using List.reverseRecOn with
  | nil => rfl
  | append_singleton log entry ih =>
    obtain ⟨lawful, allowed⟩ := lawful_snoc.mp lawful
    have balance := ih lawful
    rw [slot_snoc]
    cases entry with
    | dialed managed =>
      have empty : slot log = none := allowed
      simp [empty, clears, isClear] at balance ⊢
      omega
    | openFailed t managed => simpa [clears, isClear] using balance
    | cleared t stored =>
      obtain ⟨full, _⟩ := allowed
      simp [full, clears, isClear] at balance ⊢
      omega

theorem slot_kept {before between : List Entry} (full : (slot before).isSome)
    (uncleared : ∀ t stored, .cleared t stored ∉ between) :
    (slot (before ++ between)).isSome := by
  induction between using List.reverseRecOn with
  | nil => simpa using full
  | append_singleton between entry ih =>
    have still := ih fun t stored member => uncleared t stored (List.mem_append_left _ member)
    rw [← List.append_assoc, slot_snoc]
    cases entry with
    | dialed managed => rfl
    | openFailed t managed => exact still
    | cleared t stored =>
      exact absurd (List.mem_append_right between List.mem_cons_self) (uncleared t stored)

theorem dials_apart {before between after : List Entry} {first second : ManagedOpenAiConnection}
    (lawful : Lawful Allowed (before ++ .dialed first :: between ++ .dialed second :: after)) :
    ∃ t stored, .cleared t stored ∈ between := by
  apply Classical.byContradiction
  intro uncleared
  have empty : slot (before ++ .dialed first :: between) = none := lawful _ _ after rfl
  have full : (slot (before ++ [.dialed first])).isSome := by rw [slot_snoc]; rfl
  have kept := slot_kept full fun t stored member => uncleared ⟨t, stored, member⟩
  rw [List.append_assoc, List.singleton_append, empty] at kept
  contradiction

def nth (k : Nat) : ManagedOpenAiConnection := ⟨UInt64.ofNat (k + 1), k⟩

theorem nth_id {k : Nat} (small : k + 1 < 2 ^ 64) : (nth k).id.toNat = k + 1 :=
  UInt64.toNat_ofNat_of_lt' small

theorem nth_injective {j k : Nat} (left : j < 2 ^ 64) (right : k < 2 ^ 64)
    (same : (nth j).id = (nth k).id) : j = k := by
  have equal : (j + 1) % 2 ^ 64 = (k + 1) % 2 ^ 64 := by
    have := congrArg UInt64.toNat same
    simpa [nth, UInt64.toNat_ofNat'] using this
  omega

def Phase.held : Phase → Option ManagedOpenAiConnection
  | .opening managed => some managed
  | .invalidate managed => some managed
  | .returned managed => some managed
  | _ => none

def Dials (lock : Option Nat) (t : Nat) (task : Task) : Prop :=
  task.phase = .dialing → lock = some t

def Known (log : List Entry) (_ : Nat) (task : Task) : Prop :=
  ∀ managed, task.phase.held = some managed → managed ∈ handedOut log

def Blamed (log : List Entry) (t : Nat) (task : Task) : Prop :=
  ∀ managed, task.phase = .invalidate managed → .openFailed t managed ∈ log

structure Consistent (s : State) : Prop where
  numbered : handedOut s.log = (List.range s.manager.established).map nth
  counter : s.manager.nextId = UInt64.ofNat (s.manager.established + 1)
  lawful : Lawful Allowed s.log
  stored : s.manager.current = slot s.log
  vacant : s.manager.lock.isSome → s.manager.current = none
  dialers : Every (Dials s.manager.lock) s.tasks
  known : Every (Known s.log) s.tasks
  blamed : Every (Blamed s.log) s.tasks

theorem next_nth {s : State} (held : Consistent s) :
    s.manager.next = nth s.manager.established := by
  simp only [OpenAiConnectionManager.next, nth, held.counter]

theorem consistent_connect : Consistent connect where
  numbered := rfl
  counter := rfl
  lawful := by
    change Lawful Allowed ([] ++ [_])
    exact lawful_snoc.mpr ⟨lawful_nil Allowed, rfl⟩
  stored := rfl
  vacant locked := by contradiction
  dialers := every_nil _
  known := every_nil _
  blamed := every_nil _

theorem consistent_spawn {s : State} (held : Consistent s) (attempts : Nat) :
    Consistent { s with tasks := s.tasks ++ [⟨.connection, attempts⟩] } where
  numbered := held.numbered
  counter := held.counter
  lawful := held.lawful
  stored := held.stored
  vacant := held.vacant
  dialers := held.dialers.snoc fun dials => by contradiction
  known := held.known.snoc fun m holds => by contradiction
  blamed := held.blamed.snoc fun m blames => by contradiction

theorem consistent_quiet {s : State} {t : Nat} {task : Task} {lock : Option Nat}
    (held : Consistent s) (vacant : lock.isSome → s.manager.current = none)
    (others : ∀ k other, k ≠ t → s.tasks[k]? = some other → Dials lock k other)
    (self : Dials lock t task) (known : Known s.log t task)
    (blamed : ∀ m, task.phase ≠ .invalidate m) :
    Consistent ⟨{ s.manager with lock := lock }, s.tasks.set t task, s.log ++ []⟩ := by
  rw [List.append_nil]
  exact {
    numbered := held.numbered
    counter := held.counter
    lawful := held.lawful
    stored := held.stored
    vacant := vacant
    dialers := every_set others self
    known := held.known.set known
    blamed := held.blamed.set fun m blames => absurd blames (blamed m) }

theorem retry_phase (task : Task) : task.retry.phase.held = none ∧ task.retry.phase ≠ .dialing := by
  unfold Task.retry
  split
  · exact ⟨rfl, by simp⟩
  · exact ⟨rfl, by simp⟩

theorem Known.longer {log : List Entry} {t : Nat} {task : Task} (known : Known log t task)
    (entry : Entry) : Known (log ++ [entry]) t task := by
  intro managed holds
  rw [handed_out_snoc]
  exact List.mem_append_left _ (known managed holds)

theorem Blamed.longer {log : List Entry} {t : Nat} {task : Task} (blamed : Blamed log t task)
    (entry : Entry) : Blamed (log ++ [entry]) t task := by
  intro managed blames
  exact List.mem_append_left _ (blamed managed blames)

theorem retry_known (log : List Entry) (t : Nat) (task : Task) : Known log t task.retry := by
  intro managed holds
  rw [(retry_phase task).1] at holds
  contradiction

theorem retry_blames_none (task : Task) (managed : ManagedOpenAiConnection) :
    task.retry.phase ≠ .invalidate managed := by
  intro blames
  have none := (retry_phase task).1
  rw [blames] at none
  contradiction

theorem consistent_task {s : State} {t : Nat} {task task' : Task} {action : Action}
    {manager' : OpenAiConnectionManager} {entries : List Entry} (held : Consistent s)
    (found : s.tasks[t]? = some task)
    (moves : Moves s.manager t task action manager' task' entries) :
    Consistent ⟨manager', s.tasks.set t task', s.log ++ entries⟩ := by
  have dialers : ∀ k other, k ≠ t → s.tasks[k]? = some other → Dials s.manager.lock k other :=
    fun k other _ => held.dialers k other
  have released : task.phase = .dialing → ∀ k other, k ≠ t → s.tasks[k]? = some other →
      other.phase ≠ .dialing := by
    intro dials k other apart lookup waits
    have mine := held.dialers t task found dials
    rw [held.dialers k other lookup waits, Option.some.injEq] at mine
    exact apart mine
  cases moves with
  | shared managed waits free stored =>
    apply consistent_quiet held held.vacant dialers (fun dials => by contradiction)
    · intro m holds
      rw [Phase.held, Option.some.injEq] at holds
      rw [held.stored] at stored
      exact holds ▸ slot_known stored
    · simp
  | vacant waits free empty =>
    exact consistent_quiet held held.vacant dialers (fun dials => by contradiction)
      (fun m holds => by contradiction) (by simp)
  | dial waits free empty =>
    apply consistent_quiet held (fun _ => empty) _ (fun _ => rfl)
      (fun m holds => by contradiction) (by simp)
    intro k other apart lookup dials
    rw [held.dialers k other lookup dials] at free
    contradiction
  | connected dials =>
    have mine := held.dialers t task found dials
    have empty : slot s.log = none := by
      rw [← held.stored]
      exact held.vacant (by rw [mine]; rfl)
    exact {
      numbered := by
        rw [handed_out_snoc, handed_out_dialed, held.numbered, next_nth held]
        simp [OpenAiConnectionManager.store, List.range_succ]
      counter := by
        simp only [OpenAiConnectionManager.store, held.counter]
        exact (UInt64.ofNat_add _ 1).symm
      lawful := lawful_snoc.mpr ⟨held.lawful, empty⟩
      stored := by rw [slot_snoc]; rfl
      vacant := fun locked => by contradiction
      dialers := every_set
        (fun k other apart lookup waits => absurd waits (released dials k other apart lookup))
        (fun waits => by contradiction)
      known := by
        apply (held.known.imp fun k other known => known.longer _).set
        intro m holds
        rw [Phase.held, Option.some.injEq] at holds
        simp [holds]
      blamed := (held.blamed.imp fun k other blamed => blamed.longer _).set
        fun m blames => by contradiction }
  | released _ phase dials ends =>
    have final : phase ≠ .dialing ∧ phase.held = none ∧ ∀ m, phase ≠ .invalidate m := by
      rcases ends with ⟨_, rfl⟩ | ⟨_, rfl⟩ <;> simp [Phase.held]
    apply consistent_quiet held (fun locked => by contradiction) _
      (fun waits => absurd waits final.1) _ final.2.2
    · intro k other apart lookup waits
      exact absurd waits (released dials k other apart lookup)
    · intro m holds
      rw [final.2.1] at holds
      contradiction
  | opened managed opens =>
    apply consistent_quiet held held.vacant dialers (fun waits => by contradiction) _ (by simp)
    intro m holds
    exact held.known t task found m (by rw [opens]; exact holds)
  | openFailed managed opens =>
    have known : managed ∈ handedOut s.log :=
      held.known t task found managed (by rw [opens]; rfl)
    exact {
      numbered := by simp [held.numbered]
      counter := held.counter
      lawful := lawful_snoc.mpr ⟨held.lawful, known⟩
      stored := by rw [slot_snoc]; exact held.stored
      vacant := held.vacant
      dialers := every_set dialers fun waits => by contradiction
      known := by
        apply (held.known.imp fun k other known => known.longer _).set
        intro m holds
        rw [Phase.held, Option.some.injEq] at holds
        rw [handed_out_snoc, ← holds]
        exact List.mem_append_left _ known
      blamed := by
        apply (held.blamed.imp fun k other blamed => blamed.longer _).set
        intro m blames
        rw [Phase.invalidate.injEq] at blames
        simp [blames] }
  | cleared managed stored blames free current same =>
    have blamed := held.blamed t task found managed blames
    rw [held.stored] at current
    exact {
      numbered := by simp [held.numbered]
      counter := held.counter
      lawful := lawful_snoc.mpr ⟨held.lawful, current, managed, blamed, same.symm⟩
      stored := by rw [slot_snoc]
      vacant := fun _ => rfl
      dialers := every_set dialers fun waits => absurd waits (retry_phase task).2
      known := (held.known.imp fun k other known => known.longer _).set (retry_known _ t task)
      blamed := (held.blamed.imp fun k other blamed => blamed.longer _).set
        fun m blames => absurd blames (retry_blames_none task m) }
  | kept managed blames free other =>
    exact consistent_quiet held held.vacant dialers
      (fun waits => absurd waits (retry_phase task).2) (retry_known _ t task)
      (retry_blames_none task)
  | cancelled runs idle =>
    exact consistent_quiet held held.vacant dialers (fun waits => by contradiction)
      (fun m holds => by contradiction) (by simp)

theorem step_task {s s' : State} {t : Nat} {action : Action}
    (h : step s (.task t action) = some s') :
    ∃ task manager' task' entries, s.tasks[t]? = some task ∧
      act s.manager t task action = some (manager', task', entries) ∧
      s' = ⟨manager', s.tasks.set t task', s.log ++ entries⟩ := by
  rw [step, Option.bind_eq_some_iff] at h
  obtain ⟨task, found, h⟩ := h
  rw [Option.map_eq_some_iff] at h
  obtain ⟨⟨manager', task', entries⟩, moved, rfl⟩ := h
  exact ⟨task, manager', task', entries, found, moved, rfl⟩

theorem consistent_step {s s' : State} {e : Event} (held : Consistent s)
    (h : step s e = some s') : Consistent s' := by
  cases e with
  | spawn attempts =>
    rw [step, Option.some.injEq] at h
    exact h ▸ consistent_spawn held attempts
  | task t action =>
    obtain ⟨task, manager', task', entries, found, moved, rfl⟩ := step_task h
    exact consistent_task held found (act_moves moved)

theorem consistent_run {s : State} (reached : connections.Reachable s) : Consistent s :=
  state_invariant Consistent consistent_connect (fun _ _ _ held h => consistent_step held h) s
    reached

theorem handed_out_length {s : State} (held : Consistent s) :
    (handedOut s.log).length = s.manager.established := by
  rw [held.numbered, List.length_map, List.length_range]

theorem ids_increase {n : Nat} (small : n < 2 ^ 64) :
    (((List.range n).map nth).map (·.id)).Pairwise (· < ·) := by
  rw [List.map_map, List.pairwise_map]
  apply List.pairwise_lt_range.imp_of_mem
  intro j k left right below
  have := List.mem_range.mp left
  have := List.mem_range.mp right
  change (nth j).id < (nth k).id
  rw [UInt64.lt_iff_toNat_lt, nth_id (by omega), nth_id (by omega)]
  omega

theorem handed_out_largest {n : Nat} {managed : ManagedOpenAiConnection} (small : n < 2 ^ 64)
    (last : ((List.range n).map nth).getLast? = some managed) :
    ∀ other ∈ (List.range n).map nth, other.id ≤ managed.id := by
  intro other member
  rw [List.mem_map] at member
  obtain ⟨k, below, rfl⟩ := member
  have := List.mem_range.mp below
  cases n with
  | zero => contradiction
  | succ n =>
    rw [List.range_succ, List.map_append, List.map_singleton, List.getLast?_concat,
      Option.some.injEq] at last
    rw [← last, UInt64.le_iff_toNat_le, nth_id (by omega), nth_id (by omega)]
    omega

theorem handed_out_same {s : State} {m m' : ManagedOpenAiConnection} (held : Consistent s)
    (small : s.manager.established ≤ 2 ^ 64) (left : m ∈ handedOut s.log)
    (right : m' ∈ handedOut s.log) (same : m.id = m'.id) : m = m' := by
  rw [held.numbered, List.mem_map] at left right
  obtain ⟨j, first, rfl⟩ := left
  obtain ⟨k, second, rfl⟩ := right
  have := List.mem_range.mp first
  have := List.mem_range.mp second
  rw [nth_injective (by omega) (by omega) same]

/-- Dials and clears alternate in every run. As long as the counter of the ids
    has not come round, ids grow with every dial, the last one is stored, and
    whoever clears it has itself failed on it. -/
theorem connection_history {s : State} (reached : connections.Reachable s) :
    (handedOut s.log).length = clears s.log + (if s.manager.current.isSome then 1 else 0) ∧
      (∀ before first between second after,
        s.log = before ++ .dialed first :: between ++ .dialed second :: after →
          ∃ t stored, .cleared t stored ∈ between) ∧
      ((handedOut s.log).length < 2 ^ 64 →
        ((handedOut s.log).map (·.id)).Pairwise (· < ·) ∧
          ∀ managed, s.manager.current = some managed → managed ∈ handedOut s.log ∧
            ∀ other ∈ handedOut s.log, other.id ≤ managed.id) ∧
      ((handedOut s.log).length ≤ 2 ^ 64 →
        ∀ before t stored after, s.log = before ++ .cleared t stored :: after →
          slot before = some stored ∧ .openFailed t stored ∈ before) := by
  have held := consistent_run reached
  have length := handed_out_length held
  refine ⟨?_, ?_, ?_, ?_⟩
  · rw [held.stored]
    exact slot_balance held.lawful
  · intro before first between second after shape
    exact dials_apart (shape ▸ held.lawful)
  · intro small
    rw [length] at small
    constructor
    · rw [held.numbered]
      exact ids_increase small
    · intro managed stored
      rw [held.stored] at stored
      have last := slot_handed_out stored
      refine ⟨slot_known stored, ?_⟩
      rw [held.numbered] at last ⊢
      exact handed_out_largest small last
  · intro small before t stored after shape
    rw [length] at small
    obtain ⟨full, managed, failed, same⟩ := held.lawful before _ after shape
    have known : ∀ m, m ∈ handedOut before → m ∈ handedOut s.log := by
      intro m member
      rw [shape, handedOut, List.filterMap_append]
      exact List.mem_append_left _ member
    obtain ⟨prior, later, place⟩ := List.append_of_mem failed
    have earlier : managed ∈ handedOut prior :=
      held.lawful prior (.openFailed t managed) (later ++ .cleared t stored :: after)
        (by simp [shape, place])
    have handed : managed ∈ handedOut before := by
      rw [place, handedOut, List.filterMap_append]
      exact List.mem_append_left _ earlier
    have one := handed_out_same held small (known managed handed)
      (known stored (slot_known full)) same
    exact ⟨full, one ▸ failed⟩

/-- Two tasks fail on the first connection. The first one clears it and dials
    again; the second one comes late and leaves the new connection alone. -/
def lateInvalidate : List Event :=
  [.spawn 1, .spawn 0, .task 0 .lock, .task 1 .lock, .task 0 .openFailed, .task 1 .openFailed,
    .task 0 .lock, .task 0 .lock, .task 0 .lock, .task 0 .connected, .task 1 .lock,
    .task 0 .opened]

theorem connection_history_example : ∃ s, connections.replay lateInvalidate = some s ∧
    s.manager.current = some (nth 1) ∧ (handedOut s.log).length = clears s.log + 1 ∧
    ((handedOut s.log).map (·.id)).Pairwise (· < ·) := by
  refine ⟨_, rfl, by decide, ?_, ?_⟩
  · exact (connection_history ⟨lateInvalidate, rfl⟩).1
  · exact ((connection_history ⟨lateInvalidate, rfl⟩).2.2.1 (by decide)).1

def round : List Event :=
  [.task 0 .openFailed, .task 0 .lock, .task 0 .lock, .task 0 .lock, .task 0 .connected]

def churn (attempts : Nat) : Nat → List Event
  | 0 => [.spawn attempts, .task 0 .lock]
  | n + 1 => churn attempts n ++ round

theorem round_run (manager : OpenAiConnectionManager) (managed : ManagedOpenAiConnection)
    (attempts : Nat) (log : List Entry) :
    round.foldlM step ⟨{ manager with current := some managed, lock := none },
        [⟨.opening managed, attempts + 1⟩], log⟩ =
      some ⟨manager.store, [⟨.opening manager.next, attempts⟩],
        log ++ [.openFailed 0 managed, .cleared 0 managed, .dialed manager.next]⟩ := by
  have own : (some managed).filter (fun connection => connection.id == managed.id) =
      some managed := by
    simp [Option.filter]
  simp [round, step, act, OpenAiConnectionManager.invalidate, OpenAiConnectionManager.stale,
    OpenAiConnectionManager.store, OpenAiConnectionManager.next, Task.retry, own]

theorem churn_run (n attempts : Nat) : ∃ log, connections.replay (churn (attempts + n) n) =
    some ⟨⟨some (nth n), UInt64.ofNat (n + 2), none, n + 1⟩, [⟨.opening (nth n), attempts⟩], log⟩ := by
  induction n generalizing attempts with
  | zero => exact ⟨_, rfl⟩
  | succ n ih =>
    obtain ⟨log, run⟩ := ih (attempts + 1)
    have counter : UInt64.ofNat (n + 2) + 1 = UInt64.ofNat (n + 1 + 2) :=
      (UInt64.ofNat_add (n + 2) 1).symm
    have once := round_run ⟨none, UInt64.ofNat (n + 2), none, n + 1⟩ (nth n) attempts log
    rw [Nat.add_right_comm, Nat.add_assoc] at run
    rw [OpenAiConnectionManager.store, OpenAiConnectionManager.next, counter] at once
    refine ⟨log ++ [.openFailed 0 (nth n), .cleared 0 (nth n), .dialed (nth (n + 1))], ?_⟩
    rw [churn, replay_append, run]
    exact once

/-- When the counter comes round, the id of a new connection is smaller than
    the ids before it: here one call with the largest number of reconnects. -/
theorem ids_wrap : ∃ s, connections.replay (churn (2 ^ 64 - 1) (2 ^ 64 - 1)) = some s ∧
    s.manager.current = some ⟨0, 2 ^ 64 - 1⟩ ∧
    ¬ ((handedOut s.log).map (·.id)).Pairwise (· < ·) := by
  obtain ⟨log, run⟩ := churn_run (2 ^ 64 - 1) 0
  rw [Nat.zero_add] at run
  refine ⟨_, run, rfl, ?_⟩
  intro increasing
  have held := consistent_run ⟨_, run⟩
  rw [held.numbered, List.map_map, List.pairwise_map, List.pairwise_iff_getElem] at increasing
  have order := increasing (2 ^ 64 - 2) (2 ^ 64 - 1) (by simp) (by simp) (by decide)
  simp only [List.getElem_range] at order
  exact absurd order (by decide)

end ConnectionManager
