import TunnelAI.Library.AcceptLoops

/-!
A server with two kinds of limits. Its connections come and go under one semaphore,
and a connection that gets no permit is dropped; each connection of a peer that is let
in takes on streams in a loop with a semaphore of its own. The task of a connection
gives its permit back when the loop stops listening, while the streams that the loop
has taken on may still be at work.
-/
namespace PeerServers
open TransitionRuns TaskPools AcceptLoops
variable {Peer Job Effect : Type}

structure Service (Peer Job Effect : Type) where
  admits : Peer → Bool
  maxConnections : Nat
  maxStreams : Nat
  program : Bool → Job → List Effect

inductive PeerConnection (Peer Job Effect : Type) where
  | handshaking
  | failed
  | rejected (peer : Peer)
  | serving (peer : Peer) (streams : Loop Job Effect)

inductive ConnectionEvent (Peer Job : Type) where
  | handshaken (peer : Peer)
  | handshakeFailed
  | streams (e : AcceptLoops.Event Job)

def PeerConnection.holds : PeerConnection Peer Job Effect → Nat
  | .handshaking => 1
  | .failed => 0
  | .rejected _ => 0
  | .serving _ streams => if streams.listening then 1 else 0

def PeerConnection.handlers : PeerConnection Peer Job Effect → Nat
  | .serving _ streams => total Spawned.holds streams.tasks
  | _ => 0

structure State (Peer Job Effect : Type) where
  connectionPermits : Nat
  connections : List (PeerConnection Peer Job Effect)

inductive Event (Peer Job : Type) where
  | incoming
  | connection (c : Nat) (e : ConnectionEvent Peer Job)

def State.incoming (s : State Peer Job Effect) : State Peer Job Effect :=
  if s.connectionPermits = 0 then s
  else ⟨s.connectionPermits - 1, s.connections ++ [.handshaking]⟩

variable (service : Service Peer Job Effect)

def Service.handshaken (peer : Peer) : PeerConnection Peer Job Effect :=
  if service.admits peer then .serving peer (Loop.start service.maxStreams) else .rejected peer

def connectionStep : PeerConnection Peer Job Effect → ConnectionEvent Peer Job →
    Option (PeerConnection Peer Job Effect)
  | .handshaking, .handshaken peer => some (service.handshaken peer)
  | .handshaking, .handshakeFailed => some .failed
  | .serving peer streams, .streams e =>
    (AcceptLoops.step service.program streams e).map (.serving peer)
  | _, _ => none

def step (s : State Peer Job Effect) : Event Peer Job → Option (State Peer Job Effect)
  | .incoming => some s.incoming
  | .connection c e =>
    s.connections[c]?.bind fun conn =>
      (connectionStep service conn e).map fun next =>
        ⟨s.connectionPermits + (conn.holds - next.holds), s.connections.set c next⟩

def serves : System (State Peer Job Effect) (Event Peer Job) where
  init := ⟨service.maxConnections, []⟩
  step := step service

variable {service} {s t : State Peer Job Effect} {conn next : PeerConnection Peer Job Effect}

theorem incoming_dropped_iff : s.incoming.connections = s.connections ↔ s.connectionPermits = 0 := by
  unfold State.incoming
  by_cases none : s.connectionPermits = 0
  · simp [none]
  · simp [none]

theorem connection_step_cases {e : ConnectionEvent Peer Job}
    (h : connectionStep service conn e = some next) :
    (conn = .handshaking ∧ ∃ peer, e = .handshaken peer ∧ next = service.handshaken peer) ∨
    (conn = .handshaking ∧ e = .handshakeFailed ∧ next = .failed) ∨
    ∃ peer streams e' moved, conn = .serving peer streams ∧ e = .streams e' ∧
      AcceptLoops.step service.program streams e' = some moved ∧ next = .serving peer moved := by
  cases conn with
  | handshaking =>
    cases e with
    | handshaken peer => exact Or.inl ⟨rfl, peer, rfl, (Option.some.inj h).symm⟩
    | handshakeFailed => exact Or.inr (Or.inl ⟨rfl, rfl, (Option.some.inj h).symm⟩)
    | streams e' => simp [connectionStep] at h
  | failed => cases e <;> simp [connectionStep] at h
  | rejected peer => cases e <;> simp [connectionStep] at h
  | serving peer streams =>
    cases e with
    | handshaken other => simp [connectionStep] at h
    | handshakeFailed => simp [connectionStep] at h
    | streams e' =>
      rw [connectionStep, Option.map_eq_some_iff] at h
      obtain ⟨moved, stepped, rfl⟩ := h
      exact Or.inr (Or.inr ⟨peer, streams, e', moved, rfl, rfl, stepped, rfl⟩)

theorem step_connection {c : Nat} {e : ConnectionEvent Peer Job}
    (h : step service s (.connection c e) = some t) :
    ∃ conn next, s.connections[c]? = some conn ∧ connectionStep service conn e = some next ∧
      t = ⟨s.connectionPermits + (conn.holds - next.holds), s.connections.set c next⟩ := by
  rw [step, Option.bind_eq_some_iff] at h
  obtain ⟨conn, found, h⟩ := h
  rw [Option.map_eq_some_iff] at h
  obtain ⟨next, moved, rfl⟩ := h
  exact ⟨conn, next, found, moved, rfl⟩

def Admitted (service : Service Peer Job Effect) : PeerConnection Peer Job Effect → Prop
  | .serving peer streams => service.admits peer = true ∧
      Accounted service.program service.maxStreams streams
  | _ => True

structure Governed (service : Service Peer Job Effect) (s : State Peer Job Effect) : Prop where
  balanced : PermitsKept PeerConnection.holds service.maxConnections s.connectionPermits
    s.connections
  admitted : Every (fun _ => Admitted service) s.connections

theorem holds_le (conn : PeerConnection Peer Job Effect) : conn.holds ≤ 1 := by
  cases conn with
  | handshaking => exact Nat.le_refl 1
  | failed | rejected peer => exact Nat.zero_le 1
  | serving peer streams =>
    change (if streams.listening then 1 else 0) ≤ 1
    split
    · exact Nat.le_refl 1
    · exact Nat.zero_le 1

theorem connection_step_admitted {e : ConnectionEvent Peer Job} (admitted : Admitted service conn)
    (h : connectionStep service conn e = some next) :
    Admitted service next ∧ next.holds ≤ conn.holds := by
  rcases connection_step_cases h with
    ⟨rfl, peer, rfl, rfl⟩ | ⟨rfl, rfl, rfl⟩ | ⟨peer, streams, e', moved, rfl, rfl, stepped, rfl⟩
  · refine ⟨?_, holds_le _⟩
    unfold Service.handshaken
    split
    · rename_i allowed
      exact ⟨allowed, accounted_start⟩
    · trivial
  · exact ⟨trivial, Nat.zero_le 1⟩
  · refine ⟨⟨admitted.1, accounted_step admitted.2 stepped⟩, ?_⟩
    unfold PeerConnection.holds
    by_cases listens : moved.listening = true
    · simp [listens, listening_kept stepped listens]
    · simp [listens]

theorem governed_step {e : Event Peer Job} (governed : Governed service s)
    (h : step service s e = some t) : Governed service t := by
  cases e with
  | incoming =>
    rw [step, Option.some.injEq] at h
    subst h
    unfold State.incoming
    split
    · exact governed
    · rename_i free
      exact ⟨governed.balanced.spawn free rfl, governed.admitted.snoc trivial⟩
  | connection c e =>
    obtain ⟨conn, next, found, moved, rfl⟩ := step_connection h
    obtain ⟨admitted, less⟩ := connection_step_admitted (governed.admitted c conn found) moved
    exact ⟨governed.balanced.set found less, governed.admitted.set admitted⟩

theorem governed_run (reached : (serves service).Reachable s) : Governed service s := by
  apply state_invariant (Governed service) _ _ s reached
  · exact ⟨balanced_start, every_nil _⟩
  · intro s e t governed h
    exact governed_step governed h

/-- A serving connection belongs to a peer that was let in, and whatever its streams have
    done, each of them has done the beginning of what it is to do. -/
theorem streams_on_course (reached : (serves service).Reachable s) {c : Nat} {peer : Peer}
    {streams : Loop Job Effect} (found : s.connections[c]? = some (.serving peer streams)) :
    service.admits peer = true ∧
      (∀ t task, streams.tasks[t]? = some task → OnCourse service.program streams.log t task) ∧
      ∀ t effect, (t, effect) ∈ streams.log → ∃ task, streams.tasks[t]? = some task := by
  obtain ⟨allowed, accounted⟩ := (governed_run reached).admitted c _ found
  refine ⟨allowed, accounted.onCourse, ?_⟩
  intro t effect member
  by_cases born : t < streams.tasks.length
  · exact ⟨_, List.getElem?_eq_getElem born⟩
  · have none := accounted.unborn t (Nat.le_of_not_lt born)
    rw [← mem_effects_of, none] at member
    contradiction

theorem handlers_limited (governed : Governed service s) :
    ∀ conn ∈ s.connections, conn.handlers ≤ service.maxStreams := by
  intro conn member
  obtain ⟨c, found⟩ := List.getElem?_of_mem member
  cases conn with
  | serving peer streams =>
    have balanced := (governed.admitted c _ found).2.balanced
    unfold PermitsKept at balanced
    change total Spawned.holds streams.tasks ≤ _
    omega
  | handshaking | failed | rejected peer => exact Nat.zero_le _

/-- A connection or a stream is turned away exactly when all permits are held, and the
    permits of the tasks that have ended are back. -/
theorem limits_kept (reached : (serves service).Reachable s) :
    (s.incoming.connections = s.connections ↔
        total PeerConnection.holds s.connections = service.maxConnections) ∧
      ((∀ conn ∈ s.connections, conn.holds = 0) → s.connectionPermits = service.maxConnections) ∧
      ∀ (c : Nat) peer streams, s.connections[c]? = some (.serving peer streams) →
        (∀ job, (streams.takeOn job).tasks = streams.tasks ++ [⟨job, false, 0, true⟩] ↔
          total Spawned.holds streams.tasks = service.maxStreams) ∧
        ((∀ task ∈ streams.tasks, task.running = false) → streams.permits = service.maxStreams) := by
  have governed := governed_run reached
  refine ⟨?_, governed.balanced.idle, ?_⟩
  · rw [incoming_dropped_iff]
    exact governed.balanced.full_iff
  · intro c peer streams found
    have accounted := (governed.admitted c _ found).2
    refine ⟨fun job => turned_away_iff accounted, ?_⟩
    intro ended
    exact accounted.balanced.idle fun task member => holds_ended (ended task member)

theorem open_streams_bounded (reached : (serves service).Reachable s) :
    total (fun conn => conn.holds * conn.handlers) s.connections ≤
      service.maxConnections * service.maxStreams := by
  have governed := governed_run reached
  have each : ∀ conn ∈ s.connections, conn.holds * conn.handlers ≤ service.maxStreams := by
    intro conn member
    calc conn.holds * conn.handlers ≤ 1 * conn.handlers := Nat.mul_le_mul_right _ (holds_le conn)
      _ = conn.handlers := Nat.one_mul _
      _ ≤ service.maxStreams := handlers_limited governed conn member
  have open_ : total (fun conn : PeerConnection Peer Job Effect =>
      if conn.holds * conn.handlers = 0 then 0 else 1) s.connections ≤
        total PeerConnection.holds s.connections := by
    apply total_mono
    intro conn _
    split
    · exact Nat.zero_le _
    · rename_i some
      exact Nat.one_le_iff_ne_zero.mpr fun none => some (by rw [none, Nat.zero_mul])
  have balanced := governed.balanced
  unfold PermitsKept at balanced
  exact Nat.le_trans (total_le each) (Nat.mul_le_mul_right _ (by omega))

end PeerServers
