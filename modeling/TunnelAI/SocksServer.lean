import TunnelAI.Library.PeerServers
import TunnelAI.SocksClient
import TunnelAI.ServerLimits

/-!
The SOCKS server with all its peers: connections come and go under one semaphore, and
every connection takes on streams under a semaphore of its own. A stream over the
limit is answered by the connection's task itself. The handlers of all streams move
one event at a time, in any order.
-/
namespace SocksServer
open StreamReader TransitionRuns TaskPools TracedEffects StdNet Socks5 TunnelCodec
open AcceptLoops hiding Event step
open PeerServers hiding Event step
open ExitPolicy hiding World Event ServerConfig
open ServerLimits (peerAllowed)
open SocksClient (serverRun)
variable {Peer : Type}

structure ServerConfig (Peer : Type) extends ExitPolicy.ServerConfig where
  allowPeers : List Peer
  maxConnections : Nat
  maxStreamsPerConnection : Nat

structure TunnelStream where
  world : ExitPolicy.World
  arrived : Bytes
  inTime : Bool

def acquireTunnelStreamPermit (permitted : Bool) : Stream Bool :=
  if permitted then return true
  else do
    emit (.response .generalFailure)
    emit .finish
    return false

def serveStream (config : ExitPolicy.ServerConfig) (permitted : Bool) (stream : TunnelStream) :
    Stream Unit := do
  if ← acquireTunnelStreamPermit permitted then
    serverRun stream.world config stream.arrived stream.inTime

def streamEvents (config : ExitPolicy.ServerConfig) (permitted : Bool) (stream : TunnelStream) :
    List ExitPolicy.Event := (serveStream config permitted stream).events

variable [DecidableEq Peer]

def ServerConfig.service (config : ServerConfig Peer) :
    Service Peer TunnelStream ExitPolicy.Event where
  admits peer := peerAllowed peer config.allowPeers
  maxConnections := config.maxConnections
  maxStreams := config.maxStreamsPerConnection
  program := streamEvents config.toServerConfig

def spawnAcceptLoop (config : ServerConfig Peer) :
    System (State Peer TunnelStream ExitPolicy.Event) (PeerServers.Event Peer TunnelStream) :=
  serves config.service

def responses (events : List ExitPolicy.Event) : List ReplyCode :=
  events.filterMap fun event => match event with
    | .response code => some code
    | _ => none

/-- What a stream does from beginning to end, where `open_` are the targets that it may
    connect to. -/
inductive Course (open_ : SocketAddr → Prop) : List ExitPolicy.Event → Prop where
  | silent (finishes : List ExitPolicy.Event) (ends : ∀ event ∈ finishes, event = .finish) :
      Course open_ finishes
  | refused (code : ReplyCode) (finishes : List ExitPolicy.Event) (failure : code ≠ .succeeded)
      (ends : ∀ event ∈ finishes, event = .finish) : Course open_ (.response code :: finishes)
  | unreachable (target : SocketAddr) (code : ReplyCode) (finishes : List ExitPolicy.Event)
      (allowed : open_ target) (failure : code ≠ .succeeded)
      (ends : ∀ event ∈ finishes, event = .finish) :
      Course open_ (.connect target :: .response code :: finishes)
  | unwritten (target : SocketAddr) (allowed : open_ target) :
      Course open_ [.connect target, .response .succeeded]
  | relayed (target : SocketAddr) (allowed : open_ target) :
      Course open_ [.connect target, .response .succeeded, .relay target]

def TunnelStream.Brings (stream : TunnelStream) (request : ConnectRequest) : Prop :=
  stream.inTime = true ∧ ∃ rest, readRequest.run .io stream.arrived = .ok (request, rest)

/-- The targets that a stream may connect to: what its request names or resolves to,
    within the policy. -/
def Exit (config : ExitPolicy.ServerConfig) (stream : TunnelStream) (target : SocketAddr) : Prop :=
  ∃ request, stream.Brings request ∧
    verdict stream.world config request = .finished (.ok target) ∧
    (config.allowPrivateTargets = false → ¬ DeniedIp target.ip)

theorem selected_allowed {addrs : List SocketAddr} {target : SocketAddr} {allowPrivateTargets : Bool}
    (selected : selectAllowedResolvedAddr addrs allowPrivateTargets = .ok target) :
    targetIpAllowed target.ip allowPrivateTargets = true := by
  rw [selectAllowedResolvedAddr, select_loop_find] at selected
  split at selected
  · rename_i addr found
    cases selected
    have allowed := List.find?_some found
    exact allowed
  · split at selected
    · contradiction
    · contradiction

theorem verdict_allowed {world : ExitPolicy.World} {config : ExitPolicy.ServerConfig}
    {request : ConnectRequest} {target : SocketAddr}
    (passed : verdict world config request = .finished (.ok target)) :
    targetIpAllowed target.ip config.allowPrivateTargets = true := by
  unfold verdict at passed
  split at passed
  · unfold resolveTarget at passed
    split at passed
    · unfold resolveIpTarget at passed
      split at passed
      · rename_i allowed
        cases passed
        exact allowed
      · cases passed
    · unfold resolveDomainTarget at passed
      split at passed
      · contradiction
      · cases passed
      · rw [Timed.finished.injEq] at passed
        exact selected_allowed passed
  · cases passed

theorem verdict_open {world : ExitPolicy.World} {config : ExitPolicy.ServerConfig}
    {request : ConnectRequest} {target : SocketAddr}
    (passed : verdict world config request = .finished (.ok target))
    (closed : config.allowPrivateTargets = false) : ¬ DeniedIp target.ip := by
  have allowed := verdict_allowed passed
  rw [closed, targetIpAllowed, Bool.false_or] at allowed
  exact (public_ip_iff target.ip).mp allowed

theorem refused_course (open_ : SocketAddr → Prop) (world : ExitPolicy.World) {code : ReplyCode}
    (failure : code ≠ .succeeded) : Course open_ (writeResponseAndFinish world code).events := by
  obtain ⟨rest, events, finishes⟩ := refused_events world code
  rw [events]
  exact .refused code rest failure finishes

theorem success_course {open_ : SocketAddr → Prop} (world : ExitPolicy.World) {target : SocketAddr}
    (allowed : open_ target) :
    Course open_ (.connect target :: (do
      streamResponse world .succeeded
      emit (.relay target) : Stream Unit).events) := by
  unfold streamResponse emit raise
  cases world.write .succeeded with
  | true => exact .relayed target allowed
  | false => exact .unwritten target allowed

theorem request_course (config : ExitPolicy.ServerConfig) {stream : TunnelStream}
    {request : ConnectRequest} (brings : stream.Brings request) :
    Course (Exit config stream)
      (handleTunnelStream stream.world config (.finished (.ok request))).events := by
  rw [handle_tunnel_stream_events]
  match settled : verdict stream.world config request with
  | .elapsed => exact refused_course _ stream.world (by simp)
  | .finished (.error code) =>
    exact refused_course _ stream.world (SocksClient.verdict_error_code settled)
  | .finished (.ok target) =>
    have allowed : Exit config stream target :=
      ⟨request, brings, settled, verdict_open settled⟩
    by_cases reached : connectAnswer (stream.world.connect target) = .succeeded
    · simp only [reached, if_true]
      exact success_course stream.world allowed
    · simp only [reached, if_false]
      obtain ⟨rest, events, finishes⟩ :=
        refused_events stream.world (connectAnswer (stream.world.connect target))
      rw [events]
      exact .unreachable target _ rest allowed reached finishes

theorem handler_course (config : ExitPolicy.ServerConfig) (stream : TunnelStream) :
    Course (Exit config stream)
      (serverRun stream.world config stream.arrived stream.inTime).events := by
  unfold serverRun
  by_cases inTime : stream.inTime = true
  · rw [if_pos inTime]
    cases read : readRequest.run .io stream.arrived with
    | error e => exact .silent [] (by simp)
    | ok found => exact request_course config ⟨inTime, found.2, read⟩
  · rw [if_neg inTime]
    unfold handleTunnelStream readTunnelRequest streamFinish emit raise
    cases stream.world.finish with
    | true => exact .silent [.finish] (by simp)
    | false => exact .silent [.finish] (by simp)

theorem turned_away_events (config : ExitPolicy.ServerConfig) (stream : TunnelStream) :
    streamEvents config false stream = [.response .generalFailure, .finish] := rfl

theorem permitted_events (config : ExitPolicy.ServerConfig) (stream : TunnelStream) :
    streamEvents config true stream =
      (serverRun stream.world config stream.arrived stream.inTime).events := rfl

theorem stream_course (config : ExitPolicy.ServerConfig) (permitted : Bool)
    (stream : TunnelStream) :
    Course (fun target => permitted = true ∧ Exit config stream target)
      (streamEvents config permitted stream) := by
  cases permitted with
  | true =>
    rw [permitted_events]
    simpa using handler_course config stream
  | false =>
    rw [turned_away_events]
    exact .refused .generalFailure [.finish] (by simp) (by simp)

/-- What holds of a stream at every moment of its course. -/
structure Authorised (open_ : SocketAddr → Prop) (events : List ExitPolicy.Event) : Prop where
  connected : ∀ target, .connect target ∈ events → open_ target
  once : (connects events).length ≤ 1
  answered : (responses events).length ≤ 1
  succeeded : .response .succeeded ∈ events → ∃ target, connects events = [target]
  relayed : ∀ target, .relay target ∈ events →
    connects events = [target] ∧ responses events = [.succeeded]

theorem finishes_only {finishes : List ExitPolicy.Event}
    (ends : ∀ event ∈ finishes, event = .finish) :
    connects finishes = [] ∧ responses finishes = [] := by
  constructor
  · rw [connects, List.filterMap_eq_nil_iff]
    intro event member
    rw [ends event member]
  · rw [responses, List.filterMap_eq_nil_iff]
    intro event member
    rw [ends event member]

theorem authorised_silent (open_ : SocketAddr → Prop) {finishes : List ExitPolicy.Event}
    (ends : ∀ event ∈ finishes, event = .finish) : Authorised open_ finishes := by
  obtain ⟨none, quiet⟩ := finishes_only ends
  refine ⟨?_, by simp [none], by simp [quiet], ?_, ?_⟩
  · intro target member
    exact absurd (ends _ member) (by simp)
  · intro member
    exact absurd (ends _ member) (by simp)
  · intro target member
    exact absurd (ends _ member) (by simp)

theorem authorised_refused (open_ : SocketAddr → Prop) {finishes : List ExitPolicy.Event}
    {code : ReplyCode} (failure : code ≠ .succeeded)
    (ends : ∀ event ∈ finishes, event = .finish) :
    Authorised open_ (.response code :: finishes) := by
  obtain ⟨none, quiet⟩ := finishes_only ends
  have before := authorised_silent open_ ends
  refine ⟨?_, ?_, ?_, ?_, ?_⟩
  · intro target member
    exact before.connected target (by simpa using member)
  · simpa [connects] using before.once
  · change (code :: responses finishes).length ≤ 1
    rw [quiet]
    exact Nat.le_refl 1
  · intro member
    rcases List.mem_cons.mp member with same | later
    · exact absurd (ExitPolicy.Event.response.inj same).symm failure
    · exact absurd (ends _ later) (by simp)
  · intro target member
    rcases List.mem_cons.mp member with same | later
    · contradiction
    · exact absurd (ends _ later) (by simp)

theorem authorised_connected {open_ : SocketAddr → Prop} {events : List ExitPolicy.Event}
    {target : SocketAddr} (allowed : open_ target) (rest : Authorised open_ events)
    (none : connects events = []) : Authorised open_ (.connect target :: events) := by
  refine ⟨?_, ?_, rest.answered, ?_, ?_⟩
  · intro other member
    rcases List.mem_cons.mp member with same | later
    · exact ExitPolicy.Event.connect.inj same ▸ allowed
    · exact rest.connected other later
  · change (target :: connects events).length ≤ 1
    rw [none]
    exact Nat.le_refl 1
  · intro _
    refine ⟨target, ?_⟩
    change target :: connects events = [target]
    rw [none]
  · intro other member
    have later : .relay other ∈ events := by simpa using member
    obtain ⟨impossible, _⟩ := rest.relayed other later
    rw [none] at impossible
    contradiction

theorem finishes_part {finishes part : List ExitPolicy.Event} (begins : part <+: finishes)
    (ends : ∀ event ∈ finishes, event = .finish) : ∀ event ∈ part, event = .finish :=
  fun event member => ends event (begins.subset member)

/-- A stream keeps within its policy at every moment, not only when it has ended. -/
theorem course_authorised {open_ : SocketAddr → Prop} {events part : List ExitPolicy.Event}
    (course : Course open_ events) (begins : part <+: events) : Authorised open_ part := by
  have nothing : Authorised open_ [] := authorised_silent open_ (by simp)
  have succeeding : ∀ target, open_ target → ∀ more : List ExitPolicy.Event,
      more <+: [.response .succeeded, .relay target] → Authorised open_ (.connect target :: more) := by
    intro target allowed more behind
    rcases List.prefix_cons_iff.mp behind with rfl | ⟨last, rfl, after⟩
    · exact authorised_connected allowed nothing rfl
    · rcases List.prefix_cons_iff.mp after with rfl | ⟨none, rfl, ends⟩
      · exact ⟨by simpa using allowed, by simp [connects], by simp [responses],
          fun _ => ⟨target, rfl⟩, by simp⟩
      · rw [List.prefix_nil] at ends
        subst ends
        exact ⟨by simpa using allowed, by simp [connects], by simp [responses],
          fun _ => ⟨target, rfl⟩, by simp [connects, responses]⟩
  cases course with
  | silent _ ends => exact authorised_silent open_ (finishes_part begins ends)
  | refused code finishes failure ends =>
    rcases List.prefix_cons_iff.mp begins with rfl | ⟨more, rfl, behind⟩
    · exact nothing
    · exact authorised_refused open_ failure (finishes_part behind ends)
  | unreachable target code finishes allowed failure ends =>
    rcases List.prefix_cons_iff.mp begins with rfl | ⟨more, rfl, behind⟩
    · exact nothing
    · rcases List.prefix_cons_iff.mp behind with rfl | ⟨last, rfl, after⟩
      · exact authorised_connected allowed nothing rfl
      · have ends := finishes_part after ends
        exact authorised_connected allowed (authorised_refused open_ failure ends)
          (finishes_only ends).1
  | unwritten target allowed =>
    rcases List.prefix_cons_iff.mp begins with rfl | ⟨more, rfl, behind⟩
    · exact nothing
    · exact succeeding target allowed more (behind.trans ⟨[.relay target], rfl⟩)
  | relayed target allowed =>
    rcases List.prefix_cons_iff.mp begins with rfl | ⟨more, rfl, behind⟩
    · exact nothing
    · exact succeeding target allowed more behind

variable {config : ServerConfig Peer}

structure Kept (config : ExitPolicy.ServerConfig) (log : List (Nat × ExitPolicy.Event)) (t : Nat)
    (task : Spawned TunnelStream) : Prop where
  part : effectsOf t log <+: streamEvents config task.permitted task.job
  whole : task.running = false → effectsOf t log = streamEvents config task.permitted task.job
  authorised : Authorised (fun target => task.permitted = true ∧ Exit config task.job target)
    (effectsOf t log)
  turnedAway : task.permitted = false → ∀ code, .response code ∈ effectsOf t log →
    code = .generalFailure

theorem course_kept {config : ExitPolicy.ServerConfig} {log : List (Nat × ExitPolicy.Event)}
    {t : Nat} {task : Spawned TunnelStream} (course : OnCourse (streamEvents config) log t task) :
    Kept config log t task := by
  refine ⟨course.part, course.whole,
    course_authorised (stream_course config task.permitted task.job) course.part, ?_⟩
  intro without code member
  have answer := course.part.subset member
  rw [without, turned_away_events] at answer
  simpa using answer

/-- In every run of the server, with any peers and streams: a stream belongs to a peer
    that was let in; with a permit it connects at most once, to a target of its own
    request within the policy, and relays only behind the success that it reports;
    without one it connects to nothing. -/
theorem exits_authorised {s : State Peer TunnelStream ExitPolicy.Event}
    (reached : (spawnAcceptLoop config).Reachable s) {c : Nat} {peer : Peer}
    {streams : Loop TunnelStream ExitPolicy.Event}
    (found : s.connections[c]? = some (.serving peer streams)) :
    peerAllowed peer config.allowPeers = true ∧
      (∀ t task, streams.tasks[t]? = some task →
        Kept config.toServerConfig streams.log t task) ∧
      ∀ t event, (t, event) ∈ streams.log → ∃ task, streams.tasks[t]? = some task := by
  obtain ⟨allowed, courses, born⟩ := streams_on_course reached found
  exact ⟨allowed, fun t task stream => course_kept (courses t task stream), born⟩

/-- Both semaphores keep their accounts in every run: a connection or a stream is
    turned away exactly when all permits are held, no permit is lost, and the open
    connections never have more handlers than both limits allow. -/
theorem permits_accounted {s : State Peer TunnelStream ExitPolicy.Event}
    (reached : (spawnAcceptLoop config).Reachable s) :
    (s.incoming.connections = s.connections ↔
        total PeerConnection.holds s.connections = config.maxConnections) ∧
      ((∀ conn ∈ s.connections, conn.holds = 0) → s.connectionPermits = config.maxConnections) ∧
      (∀ (c : Nat) peer streams, s.connections[c]? = some (.serving peer streams) →
        (∀ stream, (streams.takeOn stream).tasks = streams.tasks ++ [⟨stream, false, 0, true⟩] ↔
          total Spawned.holds streams.tasks = config.maxStreamsPerConnection) ∧
        ((∀ task ∈ streams.tasks, task.running = false) →
          streams.permits = config.maxStreamsPerConnection)) ∧
      total (fun conn => conn.holds * conn.handlers) s.connections ≤
        config.maxConnections * config.maxStreamsPerConnection := by
  obtain ⟨dropped, back, each⟩ := limits_kept reached
  exact ⟨dropped, back, each, open_streams_bounded reached⟩

def exampleStream : TunnelStream where
  world := SocksClient.exampleSession.server
  arrived := requestFrame SocksClient.exampleRequest
  inTime := true

def exampleConfig : ServerConfig Nat := ⟨⟨false⟩, [7], 1, 1⟩

def exampleRun : List (PeerServers.Event Nat TunnelStream) :=
  [.incoming, .connection 0 (.handshaken 7), .connection 0 (.streams (.arrive exampleStream)),
    .connection 0 (.streams (.perform 0)), .connection 0 (.streams (.arrive exampleStream)),
    .connection 0 (.streams (.perform 1)), .connection 0 (.streams (.perform 0)),
    .connection 0 (.streams (.perform 1)), .connection 0 (.streams (.finish 1)), .incoming,
    .connection 0 (.streams .closed), .incoming, .connection 1 (.handshaken 8)]

def exampleView : PeerConnection Nat TunnelStream ExitPolicy.Event →
    Option (Nat × List SocketAddr × List ExitPolicy.Event)
  | .serving peer streams =>
    some (peer, connects (effectsOf 0 streams.log), effectsOf 1 streams.log)
  | _ => none

theorem exits_authorised_example : ∃ s peer streams,
    (spawnAcceptLoop exampleConfig).replay exampleRun = some s ∧
      s.connections[0]? = some (.serving peer streams) ∧
      connects (effectsOf 0 streams.log) = [⟨.v4 ⟨⟨[93, 184, 216, 34], rfl⟩⟩, 80⟩] ∧
      effectsOf 1 streams.log = [.response .generalFailure, .finish] ∧
      peerAllowed peer exampleConfig.allowPeers = true ∧
      ∀ t task, streams.tasks[t]? = some task →
        Kept exampleConfig.toServerConfig streams.log t task := by
  have finished : ((spawnAcceptLoop exampleConfig).replay exampleRun).map
      (fun s => s.connections[0]?.map exampleView) =
        some (some (some (7, [⟨.v4 ⟨⟨[93, 184, 216, 34], rfl⟩⟩, 80⟩],
          [.response .generalFailure, .finish]))) := by decide
  obtain ⟨s, run, seen⟩ := Option.map_eq_some_iff.mp finished
  obtain ⟨conn, found, view⟩ := Option.map_eq_some_iff.mp seen
  cases conn with
  | handshaking | failed | rejected peer => simp [exampleView] at view
  | serving peer streams =>
    simp only [exampleView, Option.some.injEq, Prod.mk.injEq] at view
    obtain ⟨allowed, kept, _⟩ := exits_authorised ⟨exampleRun, run⟩ found
    exact ⟨s, peer, streams, run, found, view.2.1, view.2.2, allowed, kept⟩

theorem permits_accounted_example : ∃ s, (spawnAcceptLoop exampleConfig).replay exampleRun = some s ∧
    s.connectionPermits = 1 ∧
    total (fun conn => conn.holds * conn.handlers) s.connections ≤ 1 := by
  have finished : ((spawnAcceptLoop exampleConfig).replay exampleRun).map State.connectionPermits =
      some 1 := by decide
  obtain ⟨s, run, free⟩ := Option.map_eq_some_iff.mp finished
  exact ⟨s, run, free, (permits_accounted ⟨exampleRun, run⟩).2.2.2⟩

end SocksServer
