import Mathlib.Data.List.Basic
import TunnelAI.Library.Runs
import TunnelAI.Library.TaskPools

/-!
The two semaphores of the OpenAI server. The task of a connection holds a permit
of the accept loop until it ends; a stream handler holds a permit of its own
connection until it ends, which may be long after its connection's task. A
permit goes back when the task that holds it ends.
-/
namespace ServerLimits
open TransitionRuns TaskPools
variable {Peer : Type}

/-- The await of `handle_openai_stream`: the request, an answer of the server's
    own, the provider's response head, or its body. -/
inductive HandlerPhase where
  | reading
  | answering
  | requesting
  | copying
  | done
  deriving DecidableEq

def HandlerPhase.successors : HandlerPhase → List HandlerPhase
  | .reading => [.answering, .requesting]
  | .answering => [.done]
  | .requesting => [.answering, .copying]
  | .copying => [.answering, .done]
  | .done => []

/-- The await of a connection's task; `refusing` is the answer to a stream over
    the limit. -/
inductive ConnectionPhase where
  | handshaking
  | accepting
  | refusing
  | ended
  deriving DecidableEq

structure ServerConnection (Peer : Type) where
  phase : ConnectionPhase
  remote : Option Peer
  streamPermits : Nat
  handlers : List HandlerPhase
  deriving DecidableEq

def ServerConnection.incoming : ServerConnection Peer :=
  ⟨.handshaking, none, 0, []⟩

def ServerConnection.acceptBi (conn : ServerConnection Peer) : ServerConnection Peer :=
  if conn.streamPermits = 0 then { conn with phase := .refusing }
  else { conn with
    streamPermits := conn.streamPermits - 1
    handlers := conn.handlers ++ [.reading] }

def ServerConnection.advance (conn : ServerConnection Peer) (h : Nat) (next : HandlerPhase) :
    ServerConnection Peer :=
  { conn with
    streamPermits := conn.streamPermits + if next = .done then 1 else 0
    handlers := conn.handlers.set h next }

def runs (phase : HandlerPhase) : Nat := if phase = .done then 0 else 1

def running (conn : ServerConnection Peer) : Nat := total runs conn.handlers

def requests (phase : HandlerPhase) : Nat :=
  if phase = .requesting ∨ phase = .copying then 1 else 0

def inFlight (conn : ServerConnection Peer) : Nat := total requests conn.handlers

variable {conn next : ServerConnection Peer}

theorem running_none (none : conn.handlers = []) : running conn = 0 := by
  rw [running, none, total_nil]

theorem advance_running {h : Nat} {phase following : HandlerPhase}
    (found : conn.handlers[h]? = some phase) (follows : following ∈ phase.successors) :
    running (conn.advance h following) + (if following = .done then 1 else 0) = running conn := by
  have change : total runs (conn.handlers.set h following) + runs phase =
      running conn + runs following := total_set runs following found
  have before : runs phase = 1 := by
    cases phase with
    | done => simp [HandlerPhase.successors] at follows
    | reading | answering | requesting | copying => rfl
  have after : runs following + (if following = .done then 1 else 0) = 1 := by
    unfold runs
    split <;> rfl
  rw [running, ServerConnection.advance]
  simp only
  omega

theorem in_flight_running (connections : List (ServerConnection Peer)) :
    total inFlight connections ≤ total running connections := by
  apply total_mono
  intro conn _
  apply total_mono
  intro phase _
  cases phase with
  | reading | answering | requesting | copying | done => decide

def holds (conn : ServerConnection Peer) : Nat := if conn.phase = .ended then 0 else 1

def outliving (conn : ServerConnection Peer) : Nat :=
  if conn.phase = .ended then running conn else 0

theorem running_split (connections : List (ServerConnection Peer)) :
    total running connections =
      total (fun conn => holds conn * running conn) connections + total outliving connections := by
  rw [← total_add]
  congr 1
  funext conn
  unfold holds outliving
  split <;> omega

theorem accept_bi_outliving (accepts : conn.phase = .accepting) :
    outliving conn.acceptBi = 0 ∧ outliving conn = 0 := by
  unfold outliving ServerConnection.acceptBi
  constructor
  · split <;> simp [accepts]
  · simp [accepts]

variable [DecidableEq Peer]

def peerAllowed (peer : Peer) (allowPeers : List Peer) : Bool :=
  allowPeers.isEmpty || allowPeers.any (· == peer)

structure OpenAiServerConfig (Peer : Type) where
  allowPeers : List Peer
  maxConnections : Nat
  maxStreamsPerConnection : Nat

inductive ConnectionEvent (Peer : Type) where
  | handshaken : Peer → ConnectionEvent Peer
  | handshakeFailed
  | acceptFailed
  | stream
  | refused
  | handler : Nat → HandlerPhase → ConnectionEvent Peer

def ServerConnection.handshaken (config : OpenAiServerConfig Peer) (peer : Peer) :
    ServerConnection Peer :=
  if peerAllowed peer config.allowPeers then
    ⟨.accepting, some peer, config.maxStreamsPerConnection, []⟩
  else ⟨.ended, some peer, 0, []⟩

def connectionStep (config : OpenAiServerConfig Peer) (conn : ServerConnection Peer) :
    ConnectionEvent Peer → Option (ServerConnection Peer)
  | .handshaken peer =>
    if conn.phase = .handshaking then some (ServerConnection.handshaken config peer) else none
  | .handshakeFailed =>
    if conn.phase = .handshaking then some { conn with phase := .ended } else none
  | .acceptFailed => if conn.phase = .accepting then some { conn with phase := .ended } else none
  | .stream => if conn.phase = .accepting then some conn.acceptBi else none
  | .refused => if conn.phase = .refusing then some { conn with phase := .accepting } else none
  | .handler h next =>
    conn.handlers[h]?.bind fun phase =>
      if next ∈ phase.successors then some (conn.advance h next) else none

structure State (Peer : Type) where
  connectionPermits : Nat
  connections : List (ServerConnection Peer)
  deriving DecidableEq

inductive Event (Peer : Type) where
  | incoming
  | connection : Nat → ConnectionEvent Peer → Event Peer

def step (config : OpenAiServerConfig Peer) (s : State Peer) : Event Peer → Option (State Peer)
  | .incoming =>
    if s.connectionPermits = 0 then some s
    else some ⟨s.connectionPermits - 1, s.connections ++ [ServerConnection.incoming]⟩
  | .connection c e =>
    s.connections[c]?.bind fun conn =>
      (connectionStep config conn e).map fun next =>
        ⟨s.connectionPermits + (holds conn - holds next), s.connections.set c next⟩

def server (config : OpenAiServerConfig Peer) : System (State Peer) (Event Peer) where
  init := ⟨config.maxConnections, []⟩
  step := step config

def Serving (conn : ServerConnection Peer) : Prop :=
  conn.phase = .accepting ∨ conn.phase = .refusing ∨ conn.handlers ≠ []

/-- A connection serves only a peer that was let in, within its own semaphore. -/
structure Admitted (config : OpenAiServerConfig Peer) (conn : ServerConnection Peer) : Prop where
  peer : Serving conn → ∃ peer, conn.remote = some peer ∧ peerAllowed peer config.allowPeers = true
  permits : Serving conn → conn.streamPermits + running conn = config.maxStreamsPerConnection

variable {config : OpenAiServerConfig Peer}

theorem admitted_running (admitted : Admitted config conn) :
    running conn ≤ config.maxStreamsPerConnection := by
  by_cases none : conn.handlers = []
  · rw [running_none none]
    exact Nat.zero_le _
  · have := admitted.permits (Or.inr (Or.inr none))
    omega

theorem Admitted.phase (admitted : Admitted config conn) (phase : ConnectionPhase)
    (serving : Serving { conn with phase := phase } → Serving conn) :
    Admitted config { conn with phase := phase } where
  peer serves := admitted.peer (serving serves)
  permits serves := admitted.permits (serving serves)

theorem admitted_incoming : Admitted config ServerConnection.incoming where
  peer serves := by simp [Serving, ServerConnection.incoming] at serves
  permits serves := by simp [Serving, ServerConnection.incoming] at serves

theorem admitted_handshaken (peer : Peer) :
    Admitted config (ServerConnection.handshaken config peer) := by
  unfold ServerConnection.handshaken
  split
  · rename_i allowed
    exact ⟨fun _ => ⟨peer, rfl, allowed⟩, fun _ => rfl⟩
  · exact ⟨fun serves => by simp [Serving] at serves, fun serves => by simp [Serving] at serves⟩

theorem admitted_accept_bi (admitted : Admitted config conn) (accepts : conn.phase = .accepting) :
    Admitted config conn.acceptBi := by
  have before := admitted.permits (Or.inl accepts)
  have allowed := admitted.peer (Or.inl accepts)
  unfold ServerConnection.acceptBi
  split
  · exact ⟨fun _ => allowed, fun _ => before⟩
  · refine ⟨fun _ => allowed, fun _ => ?_⟩
    have more : total runs (conn.handlers ++ [.reading]) = running conn + 1 :=
      total_snoc runs conn.handlers .reading
    rw [running, more]
    simp only
    omega

theorem admitted_advance {h : Nat} {phase following : HandlerPhase}
    (admitted : Admitted config conn) (found : conn.handlers[h]? = some phase)
    (follows : following ∈ phase.successors) : Admitted config (conn.advance h following) := by
  have serves : Serving conn := by
    refine Or.inr (Or.inr ?_)
    rintro none
    simp [none] at found
  refine ⟨fun _ => admitted.peer serves, fun _ => ?_⟩
  have before := admitted.permits serves
  have change := advance_running found follows
  rw [ServerConnection.advance] at change ⊢
  simp only at change ⊢
  omega

theorem connection_step_handler {k : Nat} {following : HandlerPhase}
    (h : connectionStep config conn (.handler k following) = some next) :
    ∃ phase, conn.handlers[k]? = some phase ∧ following ∈ phase.successors ∧
      next = conn.advance k following := by
  rw [connectionStep, Option.bind_eq_some_iff] at h
  obtain ⟨phase, found, h⟩ := h
  rw [Option.ite_none_right_eq_some] at h
  obtain ⟨follows, h⟩ := h
  exact ⟨phase, found, follows, (Option.some.inj h).symm⟩

theorem connection_step_admitted {e : ConnectionEvent Peer} (admitted : Admitted config conn)
    (h : connectionStep config conn e = some next) : Admitted config next := by
  cases e with
  | handshaken peer =>
    rw [connectionStep, Option.ite_none_right_eq_some] at h
    obtain ⟨_, h⟩ := h
    exact Option.some.inj h ▸ admitted_handshaken peer
  | handshakeFailed =>
    rw [connectionStep, Option.ite_none_right_eq_some] at h
    obtain ⟨_, h⟩ := h
    rw [← Option.some.inj h]
    exact admitted.phase .ended fun serves =>
      Or.inr (Or.inr (by simpa [Serving] using serves))
  | acceptFailed =>
    rw [connectionStep, Option.ite_none_right_eq_some] at h
    obtain ⟨accepts, h⟩ := h
    rw [← Option.some.inj h]
    exact admitted.phase .ended fun _ => Or.inl accepts
  | stream =>
    rw [connectionStep, Option.ite_none_right_eq_some] at h
    obtain ⟨accepts, h⟩ := h
    exact Option.some.inj h ▸ admitted_accept_bi admitted accepts
  | refused =>
    rw [connectionStep, Option.ite_none_right_eq_some] at h
    obtain ⟨refuses, h⟩ := h
    rw [← Option.some.inj h]
    exact admitted.phase .accepting fun _ => Or.inr (Or.inl refuses)
  | handler k following =>
    obtain ⟨phase, found, follows, rfl⟩ := connection_step_handler h
    exact admitted_advance admitted found follows

theorem connection_step_running {e : ConnectionEvent Peer}
    (h : connectionStep config conn e = some next) (other : e ≠ .stream) :
    running next ≤ running conn := by
  cases e with
  | handshaken peer =>
    rw [connectionStep, Option.ite_none_right_eq_some] at h
    obtain ⟨_, h⟩ := h
    rw [← Option.some.inj h, ServerConnection.handshaken]
    split
    · exact Nat.zero_le _
    · exact Nat.zero_le _
  | handshakeFailed | acceptFailed | refused =>
    rw [connectionStep, Option.ite_none_right_eq_some] at h
    obtain ⟨_, h⟩ := h
    exact Option.some.inj h ▸ Nat.le_refl _
  | stream => contradiction
  | handler k following =>
    obtain ⟨phase, found, follows, rfl⟩ := connection_step_handler h
    have := advance_running found follows
    omega

/-- Every permit of the accept loop is either free or held by a connection's task. -/
structure Limited (config : OpenAiServerConfig Peer) (s : State Peer) : Prop where
  permits : s.connectionPermits + total holds s.connections = config.maxConnections
  admitted : Every (fun _ => Admitted config) s.connections

theorem step_connection {s t : State Peer} {c : Nat} {e : ConnectionEvent Peer}
    (h : step config s (.connection c e) = some t) :
    ∃ conn next, s.connections[c]? = some conn ∧ connectionStep config conn e = some next ∧
      t = ⟨s.connectionPermits + (holds conn - holds next), s.connections.set c next⟩ := by
  rw [step, Option.bind_eq_some_iff] at h
  obtain ⟨conn, found, h⟩ := h
  rw [Option.map_eq_some_iff] at h
  obtain ⟨next, moved, rfl⟩ := h
  exact ⟨conn, next, found, moved, rfl⟩

theorem connection_step_holds {e : ConnectionEvent Peer}
    (h : connectionStep config conn e = some next) : holds next ≤ holds conn := by
  unfold holds
  by_cases ended : conn.phase = .ended
  · cases e with
    | handler k following =>
      obtain ⟨phase, _, _, rfl⟩ := connection_step_handler h
      exact Nat.le_refl _
    | handshaken | handshakeFailed | acceptFailed | stream | refused =>
      simp [connectionStep, ended] at h
  · rw [if_neg ended]
    split
    · exact Nat.zero_le 1
    · exact Nat.le_refl 1

theorem limited_step {s t : State Peer} {e : Event Peer} (limited : Limited config s)
    (h : step config s e = some t) : Limited config t := by
  have count := limited.permits
  cases e with
  | incoming =>
    rw [step] at h
    split at h
    · exact Option.some.inj h ▸ limited
    · rename_i free
      rw [← Option.some.inj h]
      refine ⟨?_, limited.admitted.snoc admitted_incoming⟩
      have one : holds (ServerConnection.incoming : ServerConnection Peer) = 1 := rfl
      rw [total_snoc, one]
      simp only
      omega
  | connection c e =>
    obtain ⟨conn, next, found, moved, rfl⟩ := step_connection h
    have change := total_set holds next found
    have less := connection_step_holds moved
    refine ⟨?_, limited.admitted.set
      (connection_step_admitted (limited.admitted c conn found) moved)⟩
    simp only
    omega

theorem limited_run {s : State Peer} (reached : (server config).Reachable s) : Limited config s := by
  apply state_invariant (Limited config) _ _ s reached
  · exact ⟨rfl, every_nil _⟩
  · intro s e t limited h
    exact limited_step limited h

theorem handlers_accepted {s : State Peer} (limited : Limited config s) :
    ∀ conn ∈ s.connections, running conn ≠ 0 →
      ∃ peer, conn.remote = some peer ∧ peerAllowed peer config.allowPeers = true := by
  intro conn member some
  obtain ⟨c, found⟩ := List.getElem?_of_mem member
  exact (limited.admitted c conn found).peer (Or.inr (Or.inr fun none => some (running_none none)))

theorem handlers_each {s : State Peer} (limited : Limited config s) :
    ∀ conn ∈ s.connections, running conn ≤ config.maxStreamsPerConnection := by
  intro conn member
  obtain ⟨c, found⟩ := List.getElem?_of_mem member
  exact admitted_running (limited.admitted c conn found)

/-- What the two semaphores do bound: the handlers of connections whose task has
    not ended. -/
theorem open_handlers_bounded {s : State Peer} (reached : (server config).Reachable s) :
    total (fun conn => holds conn * running conn) s.connections ≤
      config.maxConnections * config.maxStreamsPerConnection := by
  have limited := limited_run reached
  have each : ∀ conn ∈ s.connections,
      holds conn * running conn ≤ config.maxStreamsPerConnection := by
    intro conn member
    have := handlers_each limited conn member
    unfold holds
    split
    · rw [Nat.zero_mul]
      exact Nat.zero_le _
    · rwa [Nat.one_mul]
  have permitted : total (fun conn => if holds conn * running conn = 0 then 0 else 1)
      s.connections ≤ total holds s.connections := by
    apply total_mono
    intro conn _
    unfold holds
    split <;> split <;> simp_all
  have count := limited.permits
  exact Nat.le_trans (total_le each) (Nat.mul_le_mul_right _ (by omega))

/-- No stream is taken on while a handler of a closed connection is still running. -/
def startsSettled (s : State Peer) : Event Peer → Bool
  | .connection _ .stream => total outliving s.connections == 0
  | _ => true

theorem connection_step_stream (h : connectionStep config conn .stream = some next) :
    conn.phase = .accepting ∧ next = conn.acceptBi := by
  rw [connectionStep, Option.ite_none_right_eq_some, Option.some.injEq] at h
  exact ⟨h.1, h.2.symm⟩

/-- A stream that is taken on leaves all running handlers with connections that are
    open, where the semaphores bound them; every other step only lets handlers end. -/
theorem settled_step {s t : State Peer} {e : Event Peer} (reached : (server config).Reachable s)
    (bounded : total running s.connections ≤
      config.maxConnections * config.maxStreamsPerConnection)
    (guard : startsSettled s e = true) (h : step config s e = some t) :
    total running t.connections ≤ config.maxConnections * config.maxStreamsPerConnection := by
  have opened := open_handlers_bounded (reachable_step reached h)
  cases e with
  | incoming =>
    rw [step] at h
    split at h
    · exact Option.some.inj h ▸ bounded
    · have idle : running (ServerConnection.incoming : ServerConnection Peer) = 0 := rfl
      rw [← Option.some.inj h]
      simp only [total_snoc, idle]
      exact bounded
  | connection c e =>
    obtain ⟨conn, next, found, moved, rfl⟩ := step_connection h
    by_cases stream : e = .stream
    · subst stream
      have none : total outliving s.connections = 0 := beq_iff_eq.mp guard
      obtain ⟨accepts, rfl⟩ := connection_step_stream moved
      obtain ⟨after, before⟩ := accept_bi_outliving accepts
      have change := total_set outliving conn.acceptBi found
      have split := running_split (s.connections.set c conn.acceptBi)
      simp only at opened ⊢
      omega
    · have change := total_set running next found
      have less := connection_step_running moved stream
      simp only
      omega

/-- The bound over all connections, open or closed, in the runs that take on no stream
    while a handler of a closed connection is still running. -/
theorem handlers_bounded {s : State Peer}
    (reached : ((server config).restrict startsSettled).Reachable s) :
    total running s.connections ≤ config.maxConnections * config.maxStreamsPerConnection ∧
      total inFlight s.connections ≤ config.maxConnections * config.maxStreamsPerConnection ∧
      ∀ conn ∈ s.connections, running conn ≠ 0 →
        ∃ peer, conn.remote = some peer ∧ peerAllowed peer config.allowPeers = true := by
  have bound : total running s.connections ≤
      config.maxConnections * config.maxStreamsPerConnection := by
    apply reachable_invariant (fun s => total running s.connections ≤
      config.maxConnections * config.maxStreamsPerConnection) _ _ s reached
    · exact Nat.zero_le _
    · intro s e t before bounded h
      obtain ⟨guard, h⟩ := restrict_step.mp h
      exact settled_step (restrict_reachable before) bounded guard h
  have requested := Nat.le_trans (in_flight_running s.connections) bound
  exact ⟨bound, requested, handlers_accepted (limited_run (restrict_reachable reached))⟩

def closesSettled (s : State Peer) : Event Peer → Bool
  | .connection c .acceptFailed => s.connections[c]?.all fun conn => running conn == 0
  | .connection c .handshakeFailed => s.connections[c]?.all fun conn => running conn == 0
  | _ => true

theorem closes_step {s t : State Peer} {e : Event Peer}
    (none : total outliving s.connections = 0) (guard : closesSettled s e = true)
    (h : step config s e = some t) : total outliving t.connections = 0 := by
  cases e with
  | incoming =>
    rw [step] at h
    split at h
    · exact Option.some.inj h ▸ none
    · have idle : outliving (ServerConnection.incoming : ServerConnection Peer) = 0 := rfl
      rw [← Option.some.inj h]
      simp only [total_snoc, idle]
      exact none
  | connection c e =>
    obtain ⟨conn, next, found, moved, rfl⟩ := step_connection h
    have change := total_set outliving next found
    have quiet : outliving next ≤ outliving conn := by
      cases e with
      | handshaken peer =>
        rw [connectionStep, Option.ite_none_right_eq_some] at moved
        have empty : running (ServerConnection.handshaken config peer) = 0 := by
          unfold ServerConnection.handshaken
          split <;> rfl
        rw [← Option.some.inj moved.2]
        simp [outliving, empty]
      | handshakeFailed | acceptFailed =>
        rw [connectionStep, Option.ite_none_right_eq_some] at moved
        rw [closesSettled, found, Option.all_some, beq_iff_eq] at guard
        have same : running { conn with phase := .ended } = running conn := rfl
        rw [← Option.some.inj moved.2]
        simp [outliving, same, guard]
      | stream =>
        obtain ⟨accepts, rfl⟩ := connection_step_stream moved
        have := accept_bi_outliving accepts
        omega
      | refused =>
        rw [connectionStep, Option.ite_none_right_eq_some] at moved
        rw [← Option.some.inj moved.2]
        simp [outliving]
      | handler k following =>
        have less := connection_step_running moved (by simp)
        obtain ⟨phase, _, _, rfl⟩ := connection_step_handler moved
        have same : (conn.advance k following).phase = conn.phase := rfl
        unfold outliving
        rw [same]
        split <;> omega
    simp only
    omega

/-- Among these runs are those in which each connection waits for its handlers. -/
theorem closes_starts {s : State Peer}
    (reached : ((server config).restrict closesSettled).Reachable s) :
    ((server config).restrict startsSettled).Reachable s := by
  apply restrict_mono _ reached
  intro s e waits _
  have none : total outliving s.connections = 0 := by
    apply state_invariant (fun s => total outliving s.connections = 0) _ _ s waits
    · rfl
    · intro s e t none h
      obtain ⟨guard, h⟩ := restrict_step.mp h
      exact closes_step none guard h
  cases e with
  | incoming => rfl
  | connection c e =>
    cases e with
    | stream => simp [startsSettled, none]
    | handshaken | handshakeFailed | acceptFailed | refused | handler => rfl

def leftBehind (config : OpenAiServerConfig Peer) (peer : Peer) : ServerConnection Peer :=
  ⟨.ended, some peer, config.maxStreamsPerConnection - 1, [.reading]⟩

def visit (peer : Peer) (c : Nat) : List (Event Peer) :=
  [.incoming, .connection c (.handshaken peer), .connection c .stream,
    .connection c .acceptFailed]

theorem visit_run {peer : Peer} (allowed : peerAllowed peer config.allowPeers = true)
    (some : 0 < config.maxConnections) (streams : 0 < config.maxStreamsPerConnection)
    (connections : List (ServerConnection Peer)) :
    (visit peer connections.length).foldlM (step config) ⟨config.maxConnections, connections⟩ =
      .some ⟨config.maxConnections, connections ++ [leftBehind config peer]⟩ := by
  have permit : config.maxConnections ≠ 0 := by omega
  have stream : config.maxStreamsPerConnection ≠ 0 := by omega
  have back : config.maxConnections - 1 + 1 = config.maxConnections := by omega
  simp [visit, step, connectionStep, ServerConnection.incoming, ServerConnection.handshaken,
    ServerConnection.acceptBi, leftBehind, holds, allowed, permit, stream, back]

/-- Peers that come and go leave any number of handlers behind. -/
theorem handlers_unbounded {peer : Peer} (allowed : peerAllowed peer config.allowPeers = true)
    (some : 0 < config.maxConnections) (streams : 0 < config.maxStreamsPerConnection) (n : Nat) :
    ∃ s, (server config).Reachable s ∧ total running s.connections = n := by
  have visits : ∃ events, (server config).replay events =
      .some ⟨config.maxConnections, List.replicate n (leftBehind config peer)⟩ := by
    induction n with
    | zero => exact ⟨[], rfl⟩
    | succ n ih =>
      obtain ⟨events, run⟩ := ih
      refine ⟨events ++ visit peer n, ?_⟩
      have once := visit_run allowed some streams (List.replicate n (leftBehind config peer))
      rw [List.length_replicate] at once
      rw [replay_append, run, List.replicate_succ']
      exact once
  obtain ⟨events, run⟩ := visits
  refine ⟨_, ⟨events, run⟩, ?_⟩
  simp only [total, List.map_replicate, List.sum_replicate_nat]
  exact Nat.mul_one n

def smallest : OpenAiServerConfig Nat := ⟨[], 1, 1⟩

/-- A peer that reconnects while the handler of its first stream still waits for
    the provider. -/
def reconnecting : List (Event Nat) :=
  [.incoming, .connection 0 (.handshaken 7), .connection 0 .stream,
    .connection 0 (.handler 0 .requesting), .connection 0 .acceptFailed, .incoming,
    .connection 1 (.handshaken 7), .connection 1 .stream, .connection 1 (.handler 0 .requesting)]

theorem handlers_outrun : ∃ s, (server smallest).replay reconnecting = some s ∧
    smallest.maxConnections * smallest.maxStreamsPerConnection < total running s.connections ∧
    smallest.maxConnections * smallest.maxStreamsPerConnection < total inFlight s.connections := by
  refine ⟨_, rfl, ?_, ?_⟩ <;> decide

def patient : List (Event Nat) :=
  [.incoming, .connection 0 (.handshaken 7), .connection 0 .stream,
    .connection 0 (.handler 0 .requesting), .connection 0 .acceptFailed, .incoming,
    .connection 1 (.handshaken 7), .connection 0 (.handler 0 .answering),
    .connection 0 (.handler 0 .done), .connection 1 .stream]

theorem handlers_bounded_example :
    ∃ s, ((server smallest).restrict startsSettled).replay patient = some s ∧
      total running s.connections = 1 ∧
      total running s.connections ≤
        smallest.maxConnections * smallest.maxStreamsPerConnection := by
  refine ⟨_, rfl, by decide, ?_⟩
  exact (handlers_bounded ⟨patient, rfl⟩).1

end ServerLimits
