import TunnelAI.Library.PeerServers
import TunnelAI.OpenAiPath
import TunnelAI.ServerLimits

/-!
The OpenAI server with all its peers. A stream is served by its handler or, over the
limit, by the task of its connection; the streams of all connections move one event at
a time, in any order. Seen from the semaphores alone, this is the server of
`ServerLimits`: what a handler has done so far is the await at which it is.
-/
namespace OpenAiServer
open StreamReader BufferedReader TransitionRuns TaskPools TracedEffects UrlReference HttpHead
  HttpReaders ProviderUrl ResponseWriter ServerStream OpenAiPath
open AcceptLoops hiding Event step
open PeerServers hiding Event step Admitted State
open ServerLimits (peerAllowed OpenAiServerConfig HandlerPhase ConnectionPhase ServerConnection)
open RequestDelivery (isHealthRequest)
open ProviderConfinement (exampleBase)

variable (crates : HttpCrates) (urls : UrlCrate) (base : Url)

def streamEvents (permitted : Bool) (stream : World) : List ServerEvent :=
  (serveStream crates urls base (if permitted then 1 else 0) stream).events

def asked (events : List ServerEvent) : List ProviderRequest :=
  providerSends (⟨events, .ok ()⟩ : Serving Unit)

def wrote (events : List ServerEvent) : Bytes := tunnelBytes (⟨events, .ok ()⟩ : Serving Unit)

section handlers
variable {crates urls base}

theorem asked_tunnel (events : List SendEvent) : asked (events.map .tunnel) = [] :=
  (on_tunnel_bytes (⟨events, .ok ()⟩ : Send Unit)).2

def Quiet {α : Type} (run : Serving α) : Prop :=
  ∃ events : List SendEvent, run.events = events.map .tunnel

theorem quiet_tunnel {α : Type} (s : Send α) : Quiet (onTunnel s) := ⟨s.events, rfl⟩

theorem quiet_pure {α : Type} (a : α) : Quiet (pure a : Serving α) := ⟨[], rfl⟩

theorem quiet_bind {α β : Type} {run : Serving α} {next : α → Serving β} (first : Quiet run)
    (rest : ∀ a, run.result = .ok a → Quiet (next a)) : Quiet (run >>= next) := by
  obtain ⟨events, result⟩ := run
  obtain ⟨before, rfl⟩ := first
  cases result with
  | error e => exact ⟨before, rfl⟩
  | ok a =>
    obtain ⟨after, same⟩ := rest a rfl
    refine ⟨before ++ after, ?_⟩
    rw [bind_ok, same, List.map_append]

/-- A program that asks the provider at most once, and before it writes anything. -/
def AsksFirst {α : Type} (run : Serving α) : Prop :=
  Quiet run ∨ ∃ (request : ProviderRequest) (events : List SendEvent),
    run.events = .send request :: events.map .tunnel

theorem asks_emit {β : Type} (request : ProviderRequest) {next : Unit → Serving β}
    (rest : Quiet (next ())) : AsksFirst (emit (.send request) >>= next) := by
  obtain ⟨events, same⟩ := rest
  exact Or.inr ⟨request, events, by rw [events_emit_bind, same]⟩

theorem asks_bind {α β : Type} {run : Serving α} {next : α → Serving β} (first : AsksFirst run)
    (rest : ∀ a, Quiet (next a)) : AsksFirst (run >>= next) := by
  rcases first with quiet | ⟨request, events, same⟩
  · exact Or.inl (quiet_bind quiet fun a _ => rest a)
  · obtain ⟨all, result⟩ := run
    simp only at same
    subst same
    cases result with
    | error e => exact Or.inr ⟨request, events, rfl⟩
    | ok a =>
      obtain ⟨after, same⟩ := rest a
      refine Or.inr ⟨request, events ++ after, ?_⟩
      rw [bind_ok, same, List.cons_append, List.map_append]

theorem quiet_error (status : Nat) (reason body : String) (α : Type) : Quiet (do
    onTunnel (writeErrorAndFinish status reason body)
    pure (none : Option α)) :=
  quiet_bind (quiet_tunnel _) fun _ _ => quiet_pure none

theorem forward_asks (send : ProviderRequest → Timed (Except Unit ProviderResponse))
    (request : OpenAiHttpRequest) :
    AsksFirst (forwardRequestToProvider urls base send request) := by
  unfold forwardRequestToProvider
  split
  · exact Or.inl (quiet_error _ _ _ _)
  · apply asks_emit
    split
    · exact quiet_pure _
    · exact quiet_error _ _ _ _
    · exact quiet_error _ _ _ _

theorem health_quiet (request : OpenAiHttpRequest) : Quiet (respondToHealthCheck request) := by
  unfold respondToHealthCheck
  split
  · exact quiet_bind (quiet_tunnel _) fun _ _ => quiet_bind (quiet_tunnel _) fun _ _ => quiet_pure _
  · exact quiet_pure false

theorem answer_asks (send : ProviderRequest → Timed (Except Unit ProviderResponse))
    (request : OpenAiHttpRequest) : AsksFirst (answer crates urls base send request) := by
  rcases serves_health_check request with ⟨other, _⟩ | ⟨_, _, _, checked⟩
  · unfold answer respondToHealthCheck
    rw [other]
    apply asks_bind (forward_asks send request)
    intro response
    cases response with
    | none => exact quiet_pure ()
    | some response => exact quiet_tunnel _
  · refine Or.inl (quiet_bind (health_quiet request) fun answered result => ?_)
    rw [checked.returns, Except.ok.injEq] at result
    subst result
    exact quiet_pure ()

theorem read_quiet (delivery : Timed (List Piece)) :
    Quiet (readAndValidateRequest crates delivery) := by
  unfold readAndValidateRequest
  split
  · split
    · exact quiet_pure _
    · exact quiet_error _ _ _ _
  · exact quiet_error _ _ _ _

theorem handle_asks (world : World) : AsksFirst (handleOpenAiStream crates urls base world) := by
  rw [handle_eq]
  rcases serves_read crates world.delivery with
    ⟨pieces, received, delivered, complete, _⟩ | ⟨_, _, _, read⟩
  · rw [delivered]
    simp only [readAndValidateRequest, complete_read.mp complete]
    exact answer_asks world.send received
  · refine Or.inl (quiet_bind (read_quiet world.delivery) fun request result => ?_)
    rw [read.returns, Except.ok.injEq] at result
    subst result
    exact quiet_pure ()

theorem serve_asks (permits : Nat) (world : World) :
    AsksFirst (serveStream crates urls base permits world) := by
  by_cases full : permits = 0
  · subst full
    refine Or.inl (quiet_bind (quiet_tunnel _) fun goes result => ?_)
    rw [serves_refusal.returns, Except.ok.injEq] at result
    subst result
    exact quiet_pure ()
  · unfold serveStream acquireStreamPermit
    rw [if_neg full]
    exact handle_asks world

theorem asks_part {run : Serving Unit} (asks : AsksFirst run) {part : List ServerEvent}
    (begins : part <+: run.events) :
    (part = [] ∨ asked part = providerSends run) ∧
      ∃ events : List SendEvent, part = (asked part).map .send ++ events.map .tunnel := by
  have quiet_part : ∀ {events : List SendEvent} {part : List ServerEvent},
      part <+: events.map .tunnel → ∃ less : List SendEvent, part = less.map .tunnel := by
    intro events part begins
    refine ⟨events.take part.length, ?_⟩
    rw [List.map_take]
    exact List.prefix_iff_eq_take.mp begins
  rcases asks with ⟨events, same⟩ | ⟨request, events, same⟩
  · have sends : providerSends run = asked (events.map .tunnel) := by
      rw [providerSends, observe, same]
      rfl
    rw [same] at begins
    obtain ⟨less, rfl⟩ := quiet_part begins
    rw [sends, asked_tunnel, asked_tunnel]
    exact ⟨Or.inr rfl, less, rfl⟩
  · have sends : providerSends run = request :: asked (events.map .tunnel) := by
      rw [providerSends, observe, same]
      rfl
    rw [same, List.prefix_cons_iff] at begins
    rcases begins with rfl | ⟨more, rfl, behind⟩
    · exact ⟨Or.inl rfl, [], rfl⟩
    · obtain ⟨less, rfl⟩ := quiet_part behind
      have once : asked (.send request :: less.map .tunnel) = [request] := by
        change request :: asked (less.map .tunnel) = [request]
        rw [asked_tunnel]
      rw [sends, once, asked_tunnel]
      exact ⟨Or.inr rfl, less, rfl⟩

end handlers

/-- What holds of one stream of the server, whatever all others do. -/
structure Kept (log : List (Nat × ServerEvent)) (t : Nat) (task : Spawned World) : Prop where
  part : effectsOf t log <+: streamEvents crates urls base task.permitted task.job
  whole : task.running = false →
    effectsOf t log = streamEvents crates urls base task.permitted task.job
  order : ∃ events : List SendEvent,
    effectsOf t log = (asked (effectsOf t log)).map .send ++ events.map .tunnel
  asks : asked (effectsOf t log) = [] ∨ ∃ request, asked (effectsOf t log) = [request] ∧
    task.permitted = true ∧ Sendable crates urls base task.job request
  answers : ∃ response, wrote (effectsOf t log) <+: response ∧ (Replies response ∨
    ∃ request provided, asked (effectsOf t log) = [request] ∧
      task.job.send request = .finished (.ok provided) ∧ Forwarded crates provided response)
  turnedAway : task.permitted = false →
    wrote (effectsOf t log) <+: plainResponse 503 "Service Unavailable" "too many open streams"

variable {crates urls base}

theorem course_kept {log : List (Nat × ServerEvent)} {t : Nat} {task : Spawned World}
    (course : OnCourse (streamEvents crates urls base) log t task) :
    Kept crates urls base log t task := by
  obtain ⟨sent, order⟩ := asks_part (serve_asks _ task.job) course.part
  have seen : wrote (effectsOf t log) <+:
      tunnelBytes (serveStream crates urls base (if task.permitted then 1 else 0) task.job) :=
    observe_part _ course.part
  refine ⟨course.part, course.whole, order, ?_, ?_, ?_⟩
  · rcases sent with empty | same
    · exact Or.inl (by rw [empty]; rfl)
    rcases @serve_cases crates urls base (if task.permitted then 1 else 0) task.job with
      ⟨none, _⟩ | ⟨pieces, received, request, delivered, read, other, built, sends, _⟩
    · exact Or.inl (same.trans none)
    · refine Or.inr ⟨request, same.trans sends, ?_, pieces, received, delivered,
        complete_read.mpr read, other, built⟩
      cases permit : task.permitted with
      | true => rfl
      | false =>
        rw [permit] at sends
        have refused := (@serve_refused crates urls base task.job).2
        exact absurd (refused.symm.trans sends) (List.cons_ne_nil _ _).symm
  · rcases sent with empty | same
    · rw [empty]
      exact ⟨_, List.nil_prefix, Or.inl ⟨_, List.mem_cons_self, rfl⟩⟩
    refine ⟨_, seen, ?_⟩
    rcases @serve_cases crates urls base (if task.permitted then 1 else 0) task.job with
      ⟨_, own⟩ | ⟨_, _, request, _, _, _, _, sends, own | ⟨response, outcome, forwarded⟩⟩
    · exact Or.inl own
    · exact Or.inl own
    · exact Or.inr ⟨request, response, same.trans sends, outcome, forwarded⟩
  · intro without
    rw [without, if_neg Bool.false_ne_true, (serve_refused task.job).1] at seen
    exact seen

def behind : Timed (Except Unit ProviderResponse) → HandlerPhase
  | .finished (.ok _) => .copying
  | _ => .answering

/-- The await at which a handler is that has done this so far. -/
def phaseOf (stream : World) : List ServerEvent → HandlerPhase
  | [] => .reading
  | .tunnel _ :: _ => .answering
  | [.send _] => .requesting
  | .send request :: _ => behind (stream.send request)

theorem phase_next (stream : World) (events : List ServerEvent) (event : ServerEvent) :
    phaseOf stream (events ++ [event]) = phaseOf stream events ∨
      phaseOf stream (events ++ [event]) ∈ (phaseOf stream events).successors := by
  match events with
  | [] =>
    right
    cases event with
    | tunnel e => exact List.mem_cons_self
    | send request => exact List.mem_cons_of_mem _ List.mem_cons_self
  | .tunnel _ :: _ => exact Or.inl rfl
  | [.send request] =>
    right
    change behind (stream.send request) ∈ HandlerPhase.successors .requesting
    unfold behind
    split
    · exact List.mem_cons_of_mem _ List.mem_cons_self
    · exact List.mem_cons_self
  | .send _ :: _ :: _ => exact Or.inl rfl

theorem phase_last (stream : World) {events : List ServerEvent} (some : wrote events ≠ []) :
    .done ∈ (phaseOf stream events).successors := by
  match events with
  | [] => exact absurd rfl some
  | .tunnel _ :: _ => exact List.mem_cons_self
  | [.send request] => exact absurd rfl some
  | .send request :: _ :: _ =>
    change .done ∈ (behind (stream.send request)).successors
    unfold behind
    split
    · exact List.mem_cons_of_mem _ List.mem_cons_self
    · exact List.mem_cons_self

variable (crates urls base) {Peer : Type}

def handlerPhase (task : Spawned World) : Option HandlerPhase :=
  if task.permitted then
    some (if task.running then
      phaseOf task.job ((task.effects (streamEvents crates urls base)).take task.performed)
    else .done)
  else none

def connectionPhase (streams : Loop World ServerEvent) : ConnectionPhase :=
  if streams.listening then if streams.refusing then .refusing else .accepting else .ended

/-- A connection as its semaphores see it. -/
def view : PeerConnection Peer World ServerEvent → ServerConnection Peer
  | .handshaking => .incoming
  | .failed => ⟨.ended, none, 0, []⟩
  | .rejected peer => ⟨.ended, some peer, 0, []⟩
  | .serving peer streams => ⟨connectionPhase streams, some peer, streams.permits,
      streams.tasks.filterMap (handlerPhase crates urls base)⟩

def viewAll (s : PeerServers.State Peer World ServerEvent) : ServerLimits.State Peer :=
  ⟨s.connectionPermits, s.connections.map (view crates urls base)⟩

variable {crates urls base} {peer : Peer} {streams next : Loop World ServerEvent}

theorem holds_view (conn : PeerConnection Peer World ServerEvent) :
    ServerLimits.holds (view crates urls base conn) = conn.holds := by
  cases conn with
  | handshaking | failed | rejected peer => rfl
  | serving peer streams =>
    change (if connectionPhase streams = .ended then 0 else 1) = if streams.listening then 1 else 0
    unfold connectionPhase
    cases streams.listening with
    | false => rfl
    | true => cases streams.refusing <;> rfl

theorem phase_runs (stream : World) (events : List ServerEvent) :
    ServerLimits.runs (phaseOf stream events) = 1 := by
  match events with
  | [] | .tunnel _ :: _ | [.send _] => rfl
  | .send request :: _ :: _ =>
    change ServerLimits.runs (behind (stream.send request)) = 1
    unfold behind
    split <;> rfl

theorem handler_phase_running {task : Spawned World} (permit : task.permitted = true)
    (running : task.running = true) : handlerPhase crates urls base task = some (phaseOf task.job
      ((task.effects (streamEvents crates urls base)).take task.performed)) := by
  rw [handlerPhase, if_pos permit, if_pos running]

theorem handler_phase_none {task moved : Spawned World} (without : task.permitted = false)
    (same : moved.permitted = task.permitted) :
    handlerPhase crates urls base moved = handlerPhase crates urls base task := by
  rw [handlerPhase, handlerPhase, same, without]
  rfl

theorem running_view (conn : PeerConnection Peer World ServerEvent) :
    ServerLimits.running (view crates urls base conn) = conn.handlers := by
  cases conn with
  | handshaking | failed | rejected peer => rfl
  | serving peer streams =>
    change total _ (streams.tasks.filterMap _) = total Spawned.holds streams.tasks
    rw [total_filter_map]
    congr 1
    funext task
    unfold handlerPhase Spawned.holds
    cases task.permitted with
    | false => rfl
    | true =>
      cases task.running with
      | false => rfl
      | true => exact phase_runs _ _

theorem refusing_set {t : Nat} {task moved : Spawned World} (found : streams.tasks[t]? = some task)
    (same : (!moved.permitted && moved.running) = (!task.permitted && task.running)) :
    (streams.tasks.set t moved).any (fun task => !task.permitted && task.running) =
      streams.refusing := by
  have one : ∀ tasks : List (Spawned World),
      tasks.any (fun task => !task.permitted && task.running) =
        (tasks.map fun task => !task.permitted && task.running).any id := by
    intro tasks
    rw [List.any_map]
    rfl
  rw [Loop.refusing, one, one, map_set _ found same]

theorem view_accepting (listens : streams.listening = true) (idle : streams.refusing = false) :
    (view crates urls base (.serving peer streams)).phase = .accepting := by
  change connectionPhase streams = .accepting
  rw [connectionPhase, listens, idle]
  rfl

theorem connection_phase_same (listens : next.listening = streams.listening)
    (refuses : next.refusing = streams.refusing) :
    connectionPhase next = connectionPhase streams := by
  rw [connectionPhase, listens, refuses]
  rfl

theorem view_same (phase : connectionPhase next = connectionPhase streams)
    (permits : next.permits = streams.permits)
    (handlers : next.tasks.filterMap (handlerPhase crates urls base) =
      streams.tasks.filterMap (handlerPhase crates urls base)) :
    view crates urls base (.serving peer next) = view crates urls base (.serving peer streams) := by
  rw [view, phase, permits, handlers]
  rfl

variable (crates urls base) [DecidableEq Peer]

def service (config : OpenAiServerConfig Peer) : Service Peer World ServerEvent where
  admits peer := peerAllowed peer config.allowPeers
  maxConnections := config.maxConnections
  maxStreams := config.maxStreamsPerConnection
  program := streamEvents crates urls base

def spawnOpenAiAcceptLoop (config : OpenAiServerConfig Peer) :
    System (PeerServers.State Peer World ServerEvent) (PeerServers.Event Peer World) :=
  serves (service crates urls base config)

variable {crates urls base} {config : OpenAiServerConfig Peer}
  {s t : PeerServers.State Peer World ServerEvent}

/-- In every run of the server, with any peers and streams: a stream belongs to a peer
    that was let in; it asks the provider at most once, with a permit and before it
    writes anything, for the request that stands complete on it; what it writes is a
    beginning of one response, the server's own or the provider's to that request. -/
theorem streams_confined (reached : (spawnOpenAiAcceptLoop crates urls base config).Reachable s)
    {c : Nat} {peer : Peer} {streams : Loop World ServerEvent}
    (found : s.connections[c]? = some (.serving peer streams)) :
    peerAllowed peer config.allowPeers = true ∧
      (∀ t task, streams.tasks[t]? = some task → Kept crates urls base streams.log t task) ∧
      ∀ t event, (t, event) ∈ streams.log → ∃ task, streams.tasks[t]? = some task := by
  obtain ⟨allowed, courses, born⟩ := streams_on_course reached found
  exact ⟨allowed, fun t task stream => course_kept (courses t task stream), born⟩

def exampleConfig : OpenAiServerConfig Nat := ⟨[7], 1, 1⟩

def exampleRun : List (PeerServers.Event Nat World) :=
  [.incoming, .connection 0 (.handshaken 7), .connection 0 (.streams (.arrive exampleServer)),
    .connection 0 (.streams (.perform 0))]

theorem example_asks : ∃ request rest, request.body = text "payload" ∧
    streamEvents exampleCrates exampleUrlCrate exampleBase true exampleServer =
      .send request :: rest := by
  obtain ⟨received, request, read, other, _, built, body⟩ := example_request
  obtain ⟨_, sends⟩ := lossless_handled example_lossless rfl read
  rw [answer_sends other built] at sends
  obtain ⟨sent, events, order⟩ := asks_part
    (@serve_asks exampleCrates exampleUrlCrate exampleBase 1 exampleServer) (List.prefix_refl _)
  have once : asked (streamEvents exampleCrates exampleUrlCrate exampleBase true exampleServer) =
      [request] := by
    rcases sent with empty | same
    · rw [Exchange.serve, providerSends, observe] at sends
      change (serveStream _ _ _ 1 exampleServer).events.flatMap _ = _ at sends
      rw [empty] at sends
      contradiction
    · exact same.trans sends
  refine ⟨request, events.map .tunnel, body, ?_⟩
  change streamEvents _ _ _ true exampleServer = (asked (streamEvents _ _ _ true exampleServer)).map _ ++
    _ at order
  rw [order, once]
  rfl

def exampleEnd (request : ProviderRequest) : PeerServers.State Nat World ServerEvent :=
  ⟨0, [.serving 7 ⟨true, 0, [⟨exampleServer, true, 1, true⟩], [(0, .send request)]⟩]⟩

theorem example_run : ∃ request, request.body = text "payload" ∧
    (spawnOpenAiAcceptLoop exampleCrates exampleUrlCrate exampleBase exampleConfig).replay
      exampleRun = some (exampleEnd request) := by
  obtain ⟨request, rest, body, events⟩ := example_asks
  refine ⟨request, body, ?_⟩
  have arrived : (spawnOpenAiAcceptLoop exampleCrates exampleUrlCrate exampleBase
      exampleConfig).replay [.incoming, .connection 0 (.handshaken 7),
        .connection 0 (.streams (.arrive exampleServer))] =
      some ⟨0, [.serving 7 ⟨true, 0, [⟨exampleServer, true, 0, true⟩], []⟩]⟩ := by rfl
  refine replay_step arrived ?_
  change PeerServers.step (service exampleCrates exampleUrlCrate exampleBase exampleConfig)
    ⟨0, [.serving 7 ⟨true, 0, [⟨exampleServer, true, 0, true⟩], []⟩]⟩
    (.connection 0 (.streams (.perform 0))) = _
  simp [PeerServers.step, connectionStep, AcceptLoops.step, service, Spawned.effects, events,
    exampleEnd, PeerConnection.holds]

theorem streams_confined_example : ∃ s request,
    (spawnOpenAiAcceptLoop exampleCrates exampleUrlCrate exampleBase exampleConfig).replay
        exampleRun = some s ∧
      request.body = text "payload" ∧ s = exampleEnd request ∧
      Kept exampleCrates exampleUrlCrate exampleBase [(0, .send request)] 0
        ⟨exampleServer, true, 1, true⟩ := by
  obtain ⟨request, body, run⟩ := example_run
  have confined := streams_confined ⟨exampleRun, run⟩
    (show (exampleEnd request).connections[0]? = some _ from rfl)
  exact ⟨_, request, run, body, rfl, confined.2.1 0 _ rfl⟩

/-- A step of the real server is at most one step of its view. -/
def Follows (config : OpenAiServerConfig Peer) (conn next : ServerConnection Peer) : Prop :=
  next = conn ∨ ∃ e, ServerLimits.connectionStep config conn e = some next

theorem arrive_follows {job : World} (listens : streams.listening = true)
    (idle : streams.refusing = false) :
    Follows config (view crates urls base (.serving peer streams))
      (view crates urls base (.serving peer (streams.takeOn job))) := by
  refine Or.inr ⟨.stream, ?_⟩
  rw [ServerLimits.connectionStep, if_pos (view_accepting listens idle), Option.some.injEq]
  unfold Loop.refusing at idle
  by_cases full : streams.permits = 0
  · simp [view, ServerConnection.acceptBi, Loop.takeOn, connectionPhase, Loop.refusing,
      handlerPhase, full, listens, idle]
  · simp [view, ServerConnection.acceptBi, Loop.takeOn, connectionPhase, Loop.refusing,
      handlerPhase, phaseOf, full, listens, idle]

theorem handler_follows {h : Nat} {phase following : HandlerPhase}
    (listens : next.listening = streams.listening) (refuses : next.refusing = streams.refusing)
    (permits : next.permits = streams.permits + if following = .done then 1 else 0)
    (found : (streams.tasks.filterMap (handlerPhase crates urls base))[h]? = some phase)
    (handlers : next.tasks.filterMap (handlerPhase crates urls base) =
      (streams.tasks.filterMap (handlerPhase crates urls base)).set h following)
    (follows : following ∈ phase.successors) :
    Follows config (view crates urls base (.serving peer streams))
      (view crates urls base (.serving peer next)) := by
  refine Or.inr ⟨.handler h following, ?_⟩
  have here : (view crates urls base (.serving peer streams)).handlers[h]? = some phase := found
  rw [ServerLimits.connectionStep, here, Option.bind_some, if_pos follows, Option.some.injEq]
  rw [ServerConnection.advance, view, view, connection_phase_same listens refuses, permits, handlers]

theorem perform_follows {t : Nat}
    (h : AcceptLoops.step (streamEvents crates urls base) streams (.perform t) = some next) :
    Follows config (view crates urls base (.serving peer streams))
      (view crates urls base (.serving peer next)) := by
  obtain ⟨task, effect, found, running, here, rfl⟩ := step_perform h
  have refuses := @refusing_set streams t task { task with performed := task.performed + 1 } found rfl
  rcases Bool.eq_false_or_eq_true task.permitted with permit | without
  · have before := @handler_phase_running crates urls base task permit running
    have after : handlerPhase crates urls base { task with performed := task.performed + 1 } =
        some (phaseOf task.job ((task.effects (streamEvents crates urls base)).take task.performed ++
          [effect])) := by
      have more : (task.effects (streamEvents crates urls base)).take (task.performed + 1) =
          (task.effects (streamEvents crates urls base)).take task.performed ++ [effect] := by
        rw [List.take_add_one, here]
        rfl
      rw [← more]
      exact handler_phase_running permit running
    rcases phase_next task.job
      ((task.effects (streamEvents crates urls base)).take task.performed) effect with same | follows
    · exact Or.inl (view_same (connection_phase_same rfl refuses) rfl
        (filter_map_set_same _ found (by rw [after, before, same])))
    · obtain ⟨h, place, handlers⟩ := filter_map_set found before after
      refine handler_follows rfl refuses ?_ place handlers follows
      have one := phase_runs task.job
        ((task.effects (streamEvents crates urls base)).take task.performed ++ [effect])
      rw [if_neg fun ended => by rw [ended] at one; contradiction]
      rfl
  · refine Or.inl (view_same (connection_phase_same rfl refuses) rfl (filter_map_set_same _ found ?_))
    exact handler_phase_none without rfl

theorem finish_follows {t : Nat}
    (h : AcceptLoops.step (streamEvents crates urls base) streams (.finish t) = some next) :
    Follows config (view crates urls base (.serving peer streams))
      (view crates urls base (.serving peer next)) := by
  obtain ⟨task, found, running, last, rfl⟩ := step_finish h
  rcases Bool.eq_false_or_eq_true task.permitted with permit | without
  · have before : handlerPhase crates urls base task =
        some (phaseOf task.job (task.effects (streamEvents crates urls base))) := by
      rw [handler_phase_running permit running, last, List.take_length]
    have after : handlerPhase crates urls base { task with running := false } = some .done := by
      rw [handlerPhase, if_pos permit]
      rfl
    obtain ⟨h, place, handlers⟩ := filter_map_set found before after
    refine handler_follows rfl ?_ ?_ place handlers ?_
    · exact refusing_set found (by simp [permit])
    · simp [Spawned.holds, permit, running]
    · exact phase_last task.job (serve_some _ task.job)
  · have quiet : (streams.tasks.set t { task with running := false }).filterMap
        (handlerPhase crates urls base) = streams.tasks.filterMap (handlerPhase crates urls base) :=
      filter_map_set_same _ found (handler_phase_none without rfl)
    have permits : streams.permits + task.holds = streams.permits := by
      simp [Spawned.holds, without]
    have refusing : streams.refusing = true := by
      rw [Loop.refusing, List.any_eq_true]
      exact ⟨task, List.mem_of_getElem? found, by simp [without, running]⟩
    rcases Bool.eq_false_or_eq_true streams.listening with listens | stopped
    · rcases Bool.eq_false_or_eq_true ((streams.tasks.set t { task with running := false }).any
        fun task => !task.permitted && task.running) with others | last
      · exact Or.inl (view_same (connection_phase_same rfl (others.trans refusing.symm)) permits quiet)
      · -- the last stream that was turned away: the connection listens again
        refine Or.inr ⟨.refused, ?_⟩
        have phase : (view crates urls base (.serving peer streams)).phase = .refusing := by
          change connectionPhase streams = .refusing
          rw [connectionPhase, listens, refusing]
          rfl
        rw [ServerLimits.connectionStep, if_pos phase, Option.some.injEq, view, view, permits, quiet]
        simp [connectionPhase, Loop.refusing, listens, last]
    · refine Or.inl (view_same ?_ permits quiet)
      rw [connectionPhase, connectionPhase, stopped]
      rfl

theorem streams_follow {e : AcceptLoops.Event World}
    (h : AcceptLoops.step (streamEvents crates urls base) streams e = some next) :
    Follows config (view crates urls base (.serving peer streams))
      (view crates urls base (.serving peer next)) := by
  cases e with
  | arrive job =>
    rw [AcceptLoops.step, Option.ite_none_right_eq_some] at h
    obtain ⟨⟨listens, idle⟩, h⟩ := h
    exact Option.some.inj h ▸ arrive_follows listens idle
  | closed =>
    rw [AcceptLoops.step, Option.ite_none_right_eq_some] at h
    obtain ⟨⟨listens, idle⟩, h⟩ := h
    rw [← Option.some.inj h]
    refine Or.inr ⟨.acceptFailed, ?_⟩
    rw [ServerLimits.connectionStep, if_pos (view_accepting listens idle)]
    rfl
  | perform t => exact perform_follows h
  | finish t => exact finish_follows h

theorem connection_follows {conn after : PeerConnection Peer World ServerEvent}
    {e : PeerServers.ConnectionEvent Peer World}
    (h : PeerServers.connectionStep (service crates urls base config) conn e = some after) :
    Follows config (view crates urls base conn) (view crates urls base after) := by
  rcases connection_step_cases h with
    ⟨rfl, peer, rfl, rfl⟩ | ⟨rfl, rfl, rfl⟩ | ⟨peer, streams, e', moved, rfl, rfl, stepped, rfl⟩
  · refine Or.inr ⟨.handshaken peer, ?_⟩
    change some (ServerConnection.handshaken config peer) =
      some (view crates urls base (if peerAllowed peer config.allowPeers then
        .serving peer (Loop.start config.maxStreamsPerConnection) else .rejected peer))
    rw [ServerConnection.handshaken]
    split
    · rfl
    · rfl
  · exact Or.inr ⟨.handshakeFailed, rfl⟩
  · exact streams_follow stepped

/-- Every state that the server reaches with its handlers at work is, seen from the
    semaphores, a state that they reach, with as many handlers on each connection. -/
theorem server_refines_limits
    (reached : (spawnOpenAiAcceptLoop crates urls base config).Reachable s) :
    (ServerLimits.server config).Reachable (viewAll crates urls base s) ∧
      ∀ conn ∈ s.connections, ServerLimits.running (view crates urls base conn) = conn.handlers := by
  refine ⟨?_, fun conn _ => running_view conn⟩
  apply state_invariant
    (fun s => (ServerLimits.server config).Reachable (viewAll crates urls base s)) _ _ s reached
  · exact ⟨[], rfl⟩
  · intro s e t before h
    cases e with
    | incoming =>
      have arrives : (ServerLimits.server config).step (viewAll crates urls base s) .incoming =
          some (viewAll crates urls base t) := by
        rw [← Option.some.inj h, PeerServers.State.incoming]
        change (if s.connectionPermits = 0 then _ else _) = _
        split
        · rfl
        · simp [viewAll, view]
      exact reachable_step before arrives
    | connection c e =>
      obtain ⟨conn, after, found, moved, rfl⟩ := step_connection h
      have place : (viewAll crates urls base s).connections[c]? = some (view crates urls base conn) := by
        rw [viewAll, List.getElem?_map, found]
        rfl
      rcases connection_follows moved with same | ⟨e', followed⟩
      · have holds : after.holds = conn.holds := by
          rw [← @holds_view crates urls base, same, holds_view]
        have stays : viewAll crates urls base ⟨s.connectionPermits + (conn.holds - after.holds),
            s.connections.set c after⟩ = viewAll crates urls base s := by
          rw [viewAll, viewAll, map_set _ found same, holds, Nat.sub_self, Nat.add_zero]
        rw [stays]
        exact before
      · have steps : (ServerLimits.server config).step (viewAll crates urls base s)
            (.connection c e') =
            some (viewAll crates urls base ⟨s.connectionPermits + (conn.holds - after.holds),
              s.connections.set c after⟩) := by
          change ServerLimits.step config (viewAll crates urls base s) (.connection c e') = _
          rw [ServerLimits.step, place, Option.bind_some, followed, Option.map_some, holds_view,
            holds_view, viewAll, viewAll, List.map_set]
        exact reachable_step before steps

theorem server_refines_limits_example : ∃ request,
    viewAll exampleCrates exampleUrlCrate exampleBase (exampleEnd request) =
        ⟨0, [⟨.accepting, some 7, 0, [.requesting]⟩]⟩ ∧
      (ServerLimits.server exampleConfig).Reachable
        (viewAll exampleCrates exampleUrlCrate exampleBase (exampleEnd request)) := by
  obtain ⟨request, _, run⟩ := example_run
  obtain ⟨_, rest, _, events⟩ := example_asks
  refine ⟨request, ?_, (server_refines_limits ⟨exampleRun, run⟩).1⟩
  simp [viewAll, view, exampleEnd, handlerPhase, Spawned.effects, events, phaseOf,
    connectionPhase, Loop.refusing]

end OpenAiServer
