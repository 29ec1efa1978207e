import TunnelAI.Library.Runs
import TunnelAI.Library.TaskPools

/-!
Semaphores whose permits are taken without waiting, and a loop that accepts jobs
under one. A job that gets a permit becomes a task of its own; a job that gets none
is turned away by the loop itself, which accepts nothing before it is done with it.
What a job does is a list of effects, one to a step. The permit goes back when its
task ends.
-/
namespace AcceptLoops
open TransitionRuns TaskPools

section semaphore
variable {α : Type}

def PermitsKept (holds : α → Nat) (limit permits : Nat) (tasks : List α) : Prop :=
  permits + total holds tasks = limit

variable {holds : α → Nat} {limit permits : Nat} {tasks : List α}

theorem balanced_start : PermitsKept holds limit limit [] := rfl

theorem PermitsKept.spawn {task : α} (balanced : PermitsKept holds limit permits tasks)
    (free : permits ≠ 0) (one : holds task = 1) :
    PermitsKept holds limit (permits - 1) (tasks ++ [task]) := by
  unfold PermitsKept at balanced ⊢
  rw [total_snoc, one]
  omega

theorem PermitsKept.without {task : α} (balanced : PermitsKept holds limit permits tasks)
    (none : holds task = 0) : PermitsKept holds limit permits (tasks ++ [task]) := by
  unfold PermitsKept at balanced ⊢
  rw [total_snoc, none]
  exact balanced

theorem PermitsKept.set {t : Nat} {old next : α} (balanced : PermitsKept holds limit permits tasks)
    (found : tasks[t]? = some old) (less : holds next ≤ holds old) :
    PermitsKept holds limit (permits + (holds old - holds next)) (tasks.set t next) := by
  have change := total_set holds next found
  unfold PermitsKept at balanced ⊢
  omega

theorem PermitsKept.full_iff (balanced : PermitsKept holds limit permits tasks) :
    permits = 0 ↔ total holds tasks = limit := by
  unfold PermitsKept at balanced
  constructor
  · intro none
    omega
  · intro full
    omega

theorem total_idle (idle : ∀ task ∈ tasks, holds task = 0) : total holds tasks = 0 := by
  have bound : total holds tasks ≤ _ * 0 :=
    total_le fun task member => Nat.le_of_eq (idle task member)
  rw [Nat.mul_zero] at bound
  exact Nat.le_zero.mp bound

theorem PermitsKept.idle (balanced : PermitsKept holds limit permits tasks)
    (idle : ∀ task ∈ tasks, holds task = 0) : permits = limit := by
  have none := total_idle idle
  unfold PermitsKept at balanced
  omega

end semaphore

variable {Job Effect : Type}

structure Spawned (Job : Type) where
  job : Job
  permitted : Bool
  performed : Nat
  running : Bool
  deriving DecidableEq

structure Loop (Job Effect : Type) where
  listening : Bool
  permits : Nat
  tasks : List (Spawned Job)
  log : List (Nat × Effect)
  deriving DecidableEq

def Loop.start (limit : Nat) : Loop Job Effect := ⟨true, limit, [], []⟩

def Loop.refusing (loop : Loop Job Effect) : Bool :=
  loop.tasks.any fun task => !task.permitted && task.running

inductive Event (Job : Type) where
  | arrive (job : Job)
  | closed
  | perform (t : Nat)
  | finish (t : Nat)

def Spawned.holds (task : Spawned Job) : Nat := if task.permitted && task.running then 1 else 0

variable (program : Bool → Job → List Effect)

/-- What a task is to do, with its permit or without one. -/
def Spawned.effects (task : Spawned Job) : List Effect := program task.permitted task.job

def Loop.takeOn (loop : Loop Job Effect) (job : Job) : Loop Job Effect :=
  if loop.permits = 0 then { loop with tasks := loop.tasks ++ [⟨job, false, 0, true⟩] }
  else { loop with permits := loop.permits - 1, tasks := loop.tasks ++ [⟨job, true, 0, true⟩] }

def step (loop : Loop Job Effect) : Event Job → Option (Loop Job Effect)
  | .arrive job =>
    if loop.listening = true ∧ loop.refusing = false then some (loop.takeOn job) else none
  | .closed =>
    if loop.listening = true ∧ loop.refusing = false then some { loop with listening := false }
    else none
  | .perform t =>
    loop.tasks[t]?.bind fun task =>
      if task.running then
        ((task.effects program)[task.performed]?).map fun effect =>
          { loop with
            tasks := loop.tasks.set t { task with performed := task.performed + 1 }
            log := loop.log ++ [(t, effect)] }
      else none
  | .finish t =>
    loop.tasks[t]?.bind fun task =>
      if task.running = true ∧ task.performed = (task.effects program).length then
        some { loop with
          permits := loop.permits + task.holds
          tasks := loop.tasks.set t { task with running := false } }
      else none

def accepts (limit : Nat) : System (Loop Job Effect) (Event Job) where
  init := Loop.start limit
  step := step program

def effectsOf (t : Nat) (log : List (Nat × Effect)) : List Effect :=
  log.filterMap fun entry => if entry.1 = t then some entry.2 else none

@[simp] theorem effects_of_snoc (t k : Nat) (log : List (Nat × Effect)) (effect : Effect) :
    effectsOf t (log ++ [(k, effect)]) = effectsOf t log ++ if k = t then [effect] else [] := by
  by_cases same : k = t
  · simp [effectsOf, same]
  · simp [effectsOf, same]

theorem mem_effects_of {t : Nat} {log : List (Nat × Effect)} {effect : Effect} :
    effect ∈ effectsOf t log ↔ (t, effect) ∈ log := by
  simp only [effectsOf, List.mem_filterMap, Option.ite_none_right_eq_some, Option.some.injEq]
  constructor
  · intro found
    obtain ⟨entry, member, rfl, rfl⟩ := found
    exact member
  · intro member
    exact ⟨(t, effect), member, rfl, rfl⟩

/-- A task has done the beginning of what it is to do, and all of it when it has ended. -/
structure OnCourse (log : List (Nat × Effect)) (t : Nat) (task : Spawned Job) : Prop where
  within : task.performed ≤ (task.effects program).length
  ended : task.running = false → task.performed = (task.effects program).length
  traced : effectsOf t log = (task.effects program).take task.performed

structure Accounted (limit : Nat) (loop : Loop Job Effect) : Prop where
  balanced : PermitsKept Spawned.holds limit loop.permits loop.tasks
  onCourse : Every (OnCourse program loop.log) loop.tasks
  unborn : ∀ t, loop.tasks.length ≤ t → effectsOf t loop.log = []

variable {program} {limit : Nat} {loop next : Loop Job Effect}

theorem OnCourse.part {log : List (Nat × Effect)} {t : Nat} {task : Spawned Job}
    (course : OnCourse program log t task) : effectsOf t log <+: program task.permitted task.job := by
  rw [course.traced]
  exact List.take_prefix _ _

theorem OnCourse.whole {log : List (Nat × Effect)} {t : Nat} {task : Spawned Job}
    (course : OnCourse program log t task) (ended : task.running = false) :
    effectsOf t log = program task.permitted task.job := by
  rw [course.traced, course.ended ended, List.take_length]
  rfl

theorem accounted_start : Accounted program limit (Loop.start limit : Loop Job Effect) :=
  ⟨balanced_start, every_nil _, fun _ _ => rfl⟩

theorem Accounted.spawn {permits : Nat} {job : Job} {permitted : Bool}
    (accounted : Accounted program limit loop)
    (balanced : PermitsKept Spawned.holds limit permits
      (loop.tasks ++ [(⟨job, permitted, 0, true⟩ : Spawned Job)])) :
    Accounted program limit
      { loop with permits := permits, tasks := loop.tasks ++ [⟨job, permitted, 0, true⟩] } where
  balanced := balanced
  onCourse := by
    refine accounted.onCourse.snoc ⟨Nat.zero_le _, fun ended => by contradiction, ?_⟩
    rw [accounted.unborn _ (Nat.le_refl _)]
    rfl
  unborn t later := by
    apply accounted.unborn t
    rw [List.length_append] at later
    omega

theorem accounted_take_on {job : Job} (accounted : Accounted program limit loop) :
    Accounted program limit (loop.takeOn job) := by
  unfold Loop.takeOn
  split
  · exact accounted.spawn (accounted.balanced.without rfl)
  · rename_i free
    exact accounted.spawn (accounted.balanced.spawn free rfl)

theorem step_perform {t : Nat} (h : step program loop (.perform t) = some next) :
    ∃ task effect, loop.tasks[t]? = some task ∧ task.running = true ∧
      (task.effects program)[task.performed]? = some effect ∧
      next = { loop with
        tasks := loop.tasks.set t { task with performed := task.performed + 1 }
        log := loop.log ++ [(t, effect)] } := by
  rw [step, Option.bind_eq_some_iff] at h
  obtain ⟨task, found, h⟩ := h
  rw [Option.ite_none_right_eq_some, Option.map_eq_some_iff] at h
  obtain ⟨running, effect, here, rfl⟩ := h
  exact ⟨task, effect, found, running, here, rfl⟩

theorem step_finish {t : Nat} (h : step program loop (.finish t) = some next) :
    ∃ task, loop.tasks[t]? = some task ∧ task.running = true ∧
      task.performed = (task.effects program).length ∧
      next = { loop with
        permits := loop.permits + task.holds
        tasks := loop.tasks.set t { task with running := false } } := by
  rw [step, Option.bind_eq_some_iff] at h
  obtain ⟨task, found, h⟩ := h
  rw [Option.ite_none_right_eq_some] at h
  obtain ⟨⟨running, last⟩, h⟩ := h
  exact ⟨task, found, running, last, (Option.some.inj h).symm⟩

theorem listening_kept {e : Event Job} (h : step program loop e = some next)
    (listens : next.listening = true) : loop.listening = true := by
  cases e with
  | arrive job =>
    rw [step, Option.ite_none_right_eq_some] at h
    exact h.1.1
  | closed =>
    rw [step, Option.ite_none_right_eq_some] at h
    exact h.1.1
  | perform t =>
    obtain ⟨_, _, _, _, _, rfl⟩ := step_perform h
    exact listens
  | finish t =>
    obtain ⟨_, _, _, _, rfl⟩ := step_finish h
    exact listens

theorem accounted_perform {t : Nat} (accounted : Accounted program limit loop)
    (h : step program loop (.perform t) = some next) : Accounted program limit next := by
  obtain ⟨task, effect, found, running, here, rfl⟩ := step_perform h
  have course := accounted.onCourse t task found
  obtain ⟨below, value⟩ := List.getElem?_eq_some_iff.mp here
  refine ⟨?_, every_set ?_ ?_, ?_⟩
  · have same : Spawned.holds { task with performed := task.performed + 1 } = task.holds := rfl
    have kept := accounted.balanced.set found (Nat.le_of_eq same)
    rwa [same, Nat.sub_self, Nat.add_zero] at kept
  · intro k other apart lookup
    have before := accounted.onCourse k other lookup
    refine ⟨before.within, before.ended, ?_⟩
    rw [effects_of_snoc, if_neg (Ne.symm apart), List.append_nil]
    exact before.traced
  · refine ⟨below, fun ended => ?_, ?_⟩
    · exact absurd running (by simp only at ended; simp [ended])
    · rw [effects_of_snoc, if_pos rfl, course.traced]
      change _ = (task.effects program).take (task.performed + 1)
      rw [List.take_add_one, here]
      rfl
  · intro k later
    rw [List.length_set] at later
    have born := (List.getElem?_eq_some_iff.mp found).1
    rw [effects_of_snoc, if_neg (by omega), List.append_nil]
    exact accounted.unborn k later

theorem accounted_finish {t : Nat} (accounted : Accounted program limit loop)
    (h : step program loop (.finish t) = some next) : Accounted program limit next := by
  obtain ⟨task, found, running, last, rfl⟩ := step_finish h
  have course := accounted.onCourse t task found
  refine ⟨?_, accounted.onCourse.set ⟨course.within, fun _ => last, course.traced⟩, ?_⟩
  · have none : Spawned.holds { task with running := false } = 0 := by simp [Spawned.holds]
    have less : Spawned.holds { task with running := false } ≤ task.holds := by
      rw [none]
      exact Nat.zero_le _
    have back := accounted.balanced.set found less
    rwa [none, Nat.sub_zero] at back
  · intro k later
    rw [List.length_set] at later
    exact accounted.unborn k later

theorem accounted_step {e : Event Job} (accounted : Accounted program limit loop)
    (h : step program loop e = some next) : Accounted program limit next := by
  cases e with
  | arrive job =>
    rw [step, Option.ite_none_right_eq_some] at h
    obtain ⟨_, h⟩ := h
    exact Option.some.inj h ▸ accounted_take_on accounted
  | closed =>
    rw [step, Option.ite_none_right_eq_some] at h
    obtain ⟨_, h⟩ := h
    rw [← Option.some.inj h]
    exact ⟨accounted.balanced, accounted.onCourse, accounted.unborn⟩
  | perform t => exact accounted_perform accounted h
  | finish t => exact accounted_finish accounted h

/-- In every run each task does what its own job says, whatever the others do. -/
theorem accounted_run (reached : (accepts program limit).Reachable loop) :
    Accounted program limit loop := by
  apply state_invariant (Accounted program limit) _ _ loop reached
  · exact accounted_start
  · intro s e t accounted h
    exact accounted_step accounted h

/-- A job is turned away exactly when as many tasks as there are permits hold one. -/
theorem turned_away_iff {job : Job} (accounted : Accounted program limit loop) :
    (loop.takeOn job).tasks = loop.tasks ++ [⟨job, false, 0, true⟩] ↔
      total Spawned.holds loop.tasks = limit := by
  rw [← accounted.balanced.full_iff]
  unfold Loop.takeOn
  by_cases none : loop.permits = 0
  · simp [none]
  · simp [none]

theorem holds_ended {task : Spawned Job} (ended : task.running = false) : task.holds = 0 := by
  simp [Spawned.holds, ended]

end AcceptLoops
