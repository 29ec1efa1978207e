import TunnelAI.Library.Channels
import TunnelAI.ConnectionManager
import TunnelAI.HttpReaders
import TunnelAI.ProviderConfinement

/-!
The way of the requests: local sessions and health checks that share one
connection manager, the streams that they open through it, and the server's
handler of each stream up to its request to the provider. Everything interleaves:
streams are opened, fail and are opened again, and a request may be written in
parts or not to its end. A stream delivers what was written to it in order.
-/
namespace RequestDelivery
open StreamReader BufferedReader Channels TransitionRuns TaskPools UrlReference StdText HttpHead
  HttpReaders ProviderUrl ProviderConfinement

inductive Origin where
  | session
  | healthCheck
  deriving DecidableEq

structure LocalRequest where
  origin : Origin
  bytes : Bytes
  deriving DecidableEq

def healthCheckBytes : Bytes := text "GET /__tunnelAI/healthz HTTP/1.1\r\nHost: tunnelAI\r\n\r\n"

/-- Where a session or a health check is. While it is opening a stream it is a
    task of the connection manager. -/
inductive CallerPhase where
  | opening
  | writing : Nat → Bytes → CallerPhase
  | copying : Nat → CallerPhase
  | ended
  deriving DecidableEq

structure Caller where
  request : LocalRequest
  phase : CallerPhase

/-- Where `handle_openai_stream` is; the pieces are what its reads have brought. -/
inductive Handler where
  | unaccepted
  | reading : List Piece → Handler
  | forwarding : OpenAiHttpRequest → Url → Handler
  | sent
  | closed

structure TunnelStream where
  opener : Nat
  managed : ConnectionManager.ManagedOpenAiConnection
  send : Channel
  handler : Handler

structure Write where
  caller : Nat
  stream : Nat
  bytes : Bytes

structure ProviderSend where
  stream : Nat
  request : OpenAiHttpRequest
  url : Url

structure State where
  manager : ConnectionManager.State
  callers : List Caller
  streams : List TunnelStream
  wrote : List Write
  sent : List ProviderSend

inductive ServerEvent where
  | accept
  | reject
  | receive : Nat → ServerEvent
  | read
  | timeout
  | send

inductive Event where
  | session : List Piece → Event
  | healthCheck
  | manager : Nat → ConnectionManager.Action → Event
  | write : Nat → Nat → Event
  | finish : Nat → Event
  | abandon : Nat → Event
  | server : Nat → ServerEvent → Event

variable (crates : HttpCrates) (urls : UrlCrate) (base : Url) (reconnectAttempts : Nat)

def isHealthRequest (request : OpenAiHttpRequest) : Bool :=
  request.method == ⟨text "GET"⟩ && request.target == text "/__tunnelAI/healthz"

def Handler.validated : Except HttpRequestError OpenAiHttpRequest → Handler
  | .error _ => .closed
  | .ok request =>
    if isHealthRequest request then .closed
    else match providerRequestUrlFromBase urls base request.target with
      | .error _ => .closed
      | .ok url => .forwarding request url

/-- The handler of a stream. Its read may return at any moment: it has what it
    needs, or the stream has ended or broken off. -/
def handle (stream : TunnelStream) : ServerEvent → Option TunnelStream
  | .accept =>
    match stream.handler with
    | .unaccepted => some { stream with handler := .reading [] }
    | _ => none
  | .reject =>
    match stream.handler with
    | .unaccepted => some { stream with handler := .closed }
    | _ => none
  | .receive n =>
    match stream.handler with
    | .reading pieces =>
      if some_left : stream.send.flight.take n ≠ [] then
        some { stream with
          send := stream.send.take n
          handler := .reading (pieces ++ [⟨stream.send.flight.take n, some_left⟩]) }
      else none
    | _ => none
  | .read =>
    match stream.handler with
    | .reading pieces =>
      some { stream with
        handler := Handler.validated urls base (readHttpRequest crates (BufReader.new pieces)) }
    | _ => none
  | .timeout =>
    match stream.handler with
    | .reading _ => some { stream with handler := .closed }
    | _ => none
  | .send =>
    match stream.handler with
    | .forwarding _ _ => some { stream with handler := .sent }
    | _ => none

def sends (k : Nat) (stream : TunnelStream) : ServerEvent → List ProviderSend
  | .send =>
    match stream.handler with
    | .forwarding request url => [⟨k, request, url⟩]
    | _ => []
  | _ => []

/-- A new caller, which is the task of the same number in the connection manager. -/
def begin (s : State) (request : LocalRequest) : Option State :=
  (ConnectionManager.step s.manager (.spawn reconnectAttempts)).map fun manager =>
    { s with manager := manager, callers := s.callers ++ [⟨request, .opening⟩] }

def settle (s : State) (t : Nat) (request : LocalRequest) (manager : ConnectionManager.State) :
    ConnectionManager.Phase → State
  | .returned managed =>
    { s with
      manager := manager
      callers := s.callers.set t ⟨request, .writing s.streams.length request.bytes⟩
      streams := s.streams ++ [⟨t, managed, Channel.fresh, .unaccepted⟩] }
  | .failed => { s with manager := manager, callers := s.callers.set t ⟨request, .ended⟩ }
  | .cancelled => { s with manager := manager, callers := s.callers.set t ⟨request, .ended⟩ }
  | _ => { s with manager := manager }

def step (s : State) : Event → Option State
  | .session pieces =>
    match readOneLocalHttpRequest crates (BufReader.new pieces) with
    | .ok (raw, _) => begin reconnectAttempts s ⟨.session, raw⟩
    | .error _ => none
  | .healthCheck => begin reconnectAttempts s ⟨.healthCheck, healthCheckBytes⟩
  | .manager t action =>
    match s.callers[t]? with
    | some ⟨request, .opening⟩ =>
      (ConnectionManager.step s.manager (.task t action)).bind fun manager =>
        manager.tasks[t]?.map fun task => settle s t request manager task.phase
    | _ => none
  | .write t n =>
    match s.callers[t]? with
    | some ⟨request, .writing k todo⟩ =>
      s.streams[k]?.bind fun stream =>
        (writePart n todo stream.send).map fun (left, send) =>
          { s with
            callers := s.callers.set t ⟨request, .writing k left⟩
            streams := s.streams.set k { stream with send := send }
            wrote := s.wrote ++ [⟨t, k, todo.take n⟩] }
    | _ => none
  | .finish t =>
    match s.callers[t]? with
    | some ⟨request, .writing k []⟩ =>
      s.streams[k]?.map fun stream =>
        { s with
          callers := s.callers.set t ⟨request, .copying k⟩
          streams := s.streams.set k { stream with send := stream.send.finish } }
    | _ => none
  | .abandon t =>
    match s.callers[t]? with
    | some ⟨request, .writing k _⟩ =>
      s.streams[k]?.map fun stream =>
        { s with
          callers := s.callers.set t ⟨request, .ended⟩
          streams := s.streams.set k { stream with send := stream.send.finish } }
    | some ⟨request, .copying _⟩ =>
      some { s with callers := s.callers.set t ⟨request, .ended⟩ }
    | _ => none
  | .server k e =>
    s.streams[k]?.bind fun stream =>
      (handle crates urls base stream e).map fun next =>
        { s with
          streams := s.streams.set k next
          sent := s.sent ++ sends k stream e }

def delivery : System State Event where
  init := ⟨ConnectionManager.connect, [], [], [], []⟩
  step := step crates urls base reconnectAttempts

def State.requests (s : State) : List LocalRequest := s.callers.map (·.request)

def openers (streams : List TunnelStream) : List Nat := streams.map (·.opener)

def bytesOn (wrote : List Write) (k : Nat) : Bytes :=
  (wrote.filter (·.stream = k)).flatMap (·.bytes)

def Accepted (raw : Bytes) : Prop :=
  ∃ reader rest, readOneLocalHttpRequest crates reader = .ok (raw, rest)

/-- What a caller knows of the streams. -/
def Holding (streams : List TunnelStream) (t : Nat) (caller : Caller) : Prop :=
  match caller.phase with
  | .opening => t ∉ openers streams
  | .writing k todo => ∃ stream, streams[k]? = some stream ∧ stream.opener = t ∧
      Writing stream.send todo caller.request.bytes
  | _ => True

def HandlerHolds (stream : TunnelStream) : Prop :=
  match stream.handler with
  | .unaccepted => stream.send.consumed = []
  | .reading pieces => pieceBytes pieces = stream.send.consumed
  | .forwarding request _ => ∃ pieces, pieceBytes pieces <+: stream.send.written ∧
      readHttpRequest crates (BufReader.new pieces) = .ok request
  | _ => True

structure Carrying (requests : List LocalRequest) (wrote : List Write) (k : Nat)
    (stream : TunnelStream) : Prop where
  opener : ∃ request, requests[stream.opener]? = some request ∧
    stream.send.written <+: request.bytes
  content : stream.send.written = bytesOn wrote k
  handler : HandlerHolds crates stream

def Sent (streams : List TunnelStream) (e : ProviderSend) : Prop :=
  ∃ stream, streams[e.stream]? = some stream ∧ stream.handler = .sent ∧
    ∃ pieces, pieceBytes pieces <+: stream.send.written ∧
      readHttpRequest crates (BufReader.new pieces) = .ok e.request

structure Delivering (s : State) : Prop where
  accepted : ∀ request ∈ s.requests, request.origin = .session → Accepted crates request.bytes
  holding : Every (Holding s.streams) s.callers
  carrying : Every (Carrying crates s.requests s.wrote) s.streams
  apart : (openers s.streams).Nodup
  wrote : ∀ w ∈ s.wrote, (openers s.streams)[w.stream]? = some w.caller
  sent : ∀ e ∈ s.sent, Sent crates s.streams e
  once : (s.sent.map (·.stream)).Nodup

variable {crates : HttpCrates} {urls : UrlCrate} {base : Url} {reconnectAttempts : Nat}

theorem openers_set {streams : List TunnelStream} {k : Nat} {old new : TunnelStream}
    (found : streams[k]? = some old) (same : new.opener = old.opener) :
    openers (streams.set k new) = openers streams :=
  map_set TunnelStream.opener found same

theorem requests_set {s : State} {t : Nat} {request : LocalRequest} {phase next : CallerPhase}
    (found : s.callers[t]? = some ⟨request, phase⟩) :
    (s.callers.set t ⟨request, next⟩).map (·.request) = s.requests :=
  map_set Caller.request found (by rfl)

theorem bytes_on_append (wrote more : List Write) (k : Nat) :
    bytesOn (wrote ++ more) k = bytesOn wrote k ++ bytesOn more k := by
  simp [bytesOn, List.filter_append, List.flatMap_append]

theorem bytes_on_elsewhere {writes : List Write} {k : Nat} (apart : ∀ w ∈ writes, w.stream ≠ k) :
    bytesOn writes k = [] := by
  rw [bytesOn, List.flatMap_eq_nil_iff]
  intro w member
  obtain ⟨among, last⟩ := List.mem_filter.mp member
  exact absurd (of_decide_eq_true last) (apart w among)

theorem bytes_on_all {writes : List Write} {k : Nat} (here : ∀ w ∈ writes, w.stream = k) :
    bytesOn writes k = writes.flatMap (·.bytes) := by
  rw [bytesOn, List.filter_eq_self.mpr fun w member => decide_eq_true (here w member)]

theorem holding_frame {streams : List TunnelStream} {t k : Nat} {caller : Caller}
    {old new : TunnelStream} (holding : Holding streams t caller)
    (found : streams[k]? = some old) (same : new.opener = old.opener)
    (keeps : t = old.opener → ∀ todo goal, Writing old.send todo goal →
      Writing new.send todo goal) : Holding (streams.set k new) t caller := by
  obtain ⟨request, phase⟩ := caller
  cases phase with
  | opening =>
    change t ∉ openers (streams.set k new)
    rw [openers_set found same]
    exact holding
  | writing j todo =>
    obtain ⟨stream, lookup, opener, writing⟩ := holding
    by_cases here : k = j
    · subst here
      rw [found, Option.some.injEq] at lookup
      subst lookup
      exact ⟨new, lookup_set found, same.trans opener, keeps opener.symm _ _ writing⟩
    · exact ⟨stream, by rw [List.getElem?_set_ne here, lookup], opener, writing⟩
  | copying j => trivial
  | ended => trivial

theorem holding_opened {streams : List TunnelStream} {k : Nat} {caller : Caller}
    {new : TunnelStream} (holding : Holding streams k caller) (apart : k ≠ new.opener) :
    Holding (streams ++ [new]) k caller := by
  obtain ⟨request, phase⟩ := caller
  cases phase with
  | opening =>
    intro member
    rw [openers, List.map_append, List.mem_append] at member
    rcases member with earlier | last
    · exact holding earlier
    · exact apart (by simpa using last)
  | writing j todo =>
    obtain ⟨stream, lookup, rest⟩ := holding
    exact ⟨stream, lookup_snoc lookup, rest⟩
  | copying j => trivial
  | ended => trivial

theorem handler_fed {stream : TunnelStream} {send : Channel} (holds : HandlerHolds crates stream)
    (fed : stream.send.Fed send) (grows : stream.send.written <+: send.written) :
    HandlerHolds crates { stream with send := send } := by
  obtain ⟨opener, managed, before, handler⟩ := stream
  cases handler with
  | unaccepted => exact fed.consumed.trans holds
  | reading pieces => exact holds.trans fed.consumed.symm
  | forwarding request url =>
    obtain ⟨pieces, begins, read⟩ := holds
    exact ⟨pieces, begins.trans grows, read⟩
  | sent | closed => trivial

theorem sent_frame {streams : List TunnelStream} {k : Nat} {old new : TunnelStream}
    {e : ProviderSend} (sent : Sent crates streams e) (found : streams[k]? = some old)
    (stays : old.handler = .sent → new.handler = .sent)
    (grows : old.send.written <+: new.send.written) : Sent crates (streams.set k new) e := by
  obtain ⟨stream, lookup, handler, pieces, begins, read⟩ := sent
  by_cases here : k = e.stream
  · subst here
    rw [found, Option.some.injEq] at lookup
    subst lookup
    exact ⟨new, lookup_set found, stays handler, pieces, begins.trans grows, read⟩
  · exact ⟨stream, by rw [List.getElem?_set_ne here, lookup], handler, pieces, begins, read⟩

theorem delivering_begin {s : State} {request : LocalRequest} {manager : ConnectionManager.State}
    (delivering : Delivering crates s)
    (accepted : request.origin = .session → Accepted crates request.bytes) :
    Delivering crates
      { s with manager := manager, callers := s.callers ++ [⟨request, .opening⟩] } := by
  have new : s.callers.length ∉ openers s.streams := by
    intro member
    obtain ⟨stream, among, opener⟩ := List.mem_map.mp member
    obtain ⟨k, found⟩ := List.getElem?_of_mem among
    obtain ⟨request, lookup, _⟩ := (delivering.carrying k stream found).opener
    obtain ⟨below, _⟩ := List.getElem?_eq_some_iff.mp lookup
    rw [State.requests, List.length_map] at below
    omega
  have requests : State.requests
      { s with manager := manager, callers := s.callers ++ [⟨request, .opening⟩] } =
        s.requests ++ [request] := by
    simp [State.requests]
  have carrying : Every (Carrying crates (s.requests ++ [request]) s.wrote) s.streams := by
    refine delivering.carrying.imp ?_
    intro k stream carrying
    obtain ⟨found, lookup, begins⟩ := carrying.opener
    exact ⟨⟨found, lookup_snoc lookup, begins⟩, carrying.content, carrying.handler⟩
  exact {
    accepted := by
      intro other member session
      rw [requests, List.mem_append, List.mem_singleton] at member
      rcases member with earlier | rfl
      · exact delivering.accepted other earlier session
      · exact accepted session
    holding := delivering.holding.snoc new
    carrying := requests ▸ carrying
    apart := delivering.apart
    wrote := delivering.wrote
    sent := delivering.sent
    once := delivering.once }

theorem delivering_returned {s : State} {t : Nat} {request : LocalRequest}
    {manager : ConnectionManager.State} {managed : ConnectionManager.ManagedOpenAiConnection}
    (delivering : Delivering crates s) (found : s.callers[t]? = some ⟨request, .opening⟩) :
    Delivering crates (settle s t request manager (.returned managed)) := by
  have fresh : t ∉ openers s.streams := delivering.holding t _ found
  have requests : State.requests (settle s t request manager (.returned managed)) = s.requests :=
    requests_set found
  have within : s.requests[t]? = some request := by
    rw [State.requests, List.getElem?_map, found, Option.map_some]
  have appended : openers (s.streams ++ [⟨t, managed, Channel.fresh, .unaccepted⟩]) =
      openers s.streams ++ [t] := by
    simp [openers]
  have unwritten : bytesOn s.wrote s.streams.length = [] := by
    apply bytes_on_elsewhere
    intro w member last
    obtain ⟨below, _⟩ := List.getElem?_eq_some_iff.mp (delivering.wrote w member)
    rw [openers, List.length_map, last] at below
    omega
  exact {
    accepted := by
      rw [requests]
      exact delivering.accepted
    holding := by
      apply every_set
      · intro k other apart lookup
        exact holding_opened (delivering.holding k other lookup) apart
      · exact ⟨_, List.getElem?_concat_length, rfl, rfl, rfl⟩
    carrying := by
      rw [requests]
      exact delivering.carrying.snoc
        ⟨⟨request, within, List.nil_prefix⟩, unwritten.symm, rfl⟩
    apart := by
      change (openers (s.streams ++ _)).Nodup
      rw [appended, List.nodup_append]
      refine ⟨delivering.apart, by simp, ?_⟩
      intro a among b last
      rw [List.mem_singleton] at last
      rintro rfl
      exact fresh (last ▸ among)
    wrote := by
      intro w member
      change (openers (s.streams ++ _))[w.stream]? = _
      rw [appended]
      exact lookup_snoc (delivering.wrote w member)
    sent := by
      intro e member
      obtain ⟨stream, lookup, rest⟩ := delivering.sent e member
      exact ⟨stream, lookup_snoc lookup, rest⟩
    once := delivering.once }

theorem ended_delivering {s : State} {t : Nat} {request : LocalRequest} {phase : CallerPhase}
    (manager : ConnectionManager.State) (delivering : Delivering crates s)
    (found : s.callers[t]? = some ⟨request, phase⟩) :
    Delivering crates
      { s with manager := manager, callers := s.callers.set t ⟨request, .ended⟩ } := by
  have requests : State.requests
      { s with manager := manager, callers := s.callers.set t ⟨request, .ended⟩ } =
        s.requests := requests_set found
  exact {
    accepted := requests ▸ delivering.accepted
    holding := delivering.holding.set trivial
    carrying := requests ▸ delivering.carrying
    apart := delivering.apart
    wrote := delivering.wrote
    sent := delivering.sent
    once := delivering.once }

theorem settle_delivering {s : State} {t : Nat} {request : LocalRequest}
    {manager : ConnectionManager.State} (phase : ConnectionManager.Phase)
    (delivering : Delivering crates s) (found : s.callers[t]? = some ⟨request, .opening⟩) :
    Delivering crates (settle s t request manager phase) := by
  have ended := ended_delivering manager delivering found
  have waiting : Delivering crates { s with manager := manager } := {
    accepted := delivering.accepted
    holding := delivering.holding
    carrying := delivering.carrying
    apart := delivering.apart
    wrote := delivering.wrote
    sent := delivering.sent
    once := delivering.once }
  cases phase with
  | returned managed => exact delivering_returned delivering found
  | failed => exact ended
  | cancelled => exact ended
  | connection | dial | dialing => exact waiting
  | opening managed => exact waiting
  | invalidate managed => exact waiting

theorem delivering_client {s : State} {t k : Nat} {request : LocalRequest} {todo : Bytes}
    {next : CallerPhase} {stream : TunnelStream} {send : Channel} {writes : List Write}
    (delivering : Delivering crates s) (found : s.callers[t]? = some ⟨request, .writing k todo⟩)
    (lookup : s.streams[k]? = some stream) (fed : stream.send.Fed send)
    (own : ∀ w ∈ writes, w.caller = t ∧ w.stream = k)
    (written : send.written = stream.send.written ++ writes.flatMap (·.bytes))
    (begins : send.written <+: request.bytes)
    (holds : stream.opener = t →
      Holding (s.streams.set k { stream with send := send }) t ⟨request, next⟩) :
    Delivering crates
      { s with
        callers := s.callers.set t ⟨request, next⟩
        streams := s.streams.set k { stream with send := send }
        wrote := s.wrote ++ writes } := by
  have opener : stream.opener = t := by
    obtain ⟨other, there, opener, _⟩ := delivering.holding t _ found
    rw [lookup, Option.some.injEq] at there
    rw [there, opener]
  have requests : (s.callers.set t ⟨request, next⟩).map (·.request) = s.requests :=
    requests_set found
  have same : openers (s.streams.set k { stream with send := send }) = openers s.streams :=
    openers_set lookup rfl
  have grows : stream.send.written <+: send.written := by
    rw [written]
    exact List.prefix_append _ _
  have carrying : Every (Carrying crates s.requests (s.wrote ++ writes))
      (s.streams.set k { stream with send := send }) := by
    refine every_set ?_ ?_
    · intro j other apart there
      have before := delivering.carrying j other there
      have elsewhere : bytesOn writes j = [] :=
        bytes_on_elsewhere fun w member => (own w member).2 ▸ Ne.symm apart
      refine ⟨before.opener, ?_, before.handler⟩
      rw [bytes_on_append, elsewhere, List.append_nil, before.content]
    · have before := delivering.carrying k stream lookup
      have whose : s.requests[stream.opener]? = some request := by
        rw [opener, State.requests, List.getElem?_map, found, Option.map_some]
      refine ⟨⟨request, whose, begins⟩, ?_, handler_fed before.handler fed grows⟩
      rw [bytes_on_append, bytes_on_all fun w member => (own w member).2, ← before.content]
      exact written
  exact {
    accepted := by
      intro other member
      rw [State.requests, requests] at member
      exact delivering.accepted other member
    holding := by
      refine every_set ?_ (holds opener)
      intro j other apart there
      exact holding_frame (delivering.holding j other there) lookup rfl
        fun mine => absurd (mine.trans opener) apart
    carrying := by
      rw [State.requests, requests]
      exact carrying
    apart := by
      simp only [same]
      exact delivering.apart
    wrote := by
      intro w member
      simp only [same]
      rw [List.mem_append] at member
      rcases member with earlier | new
      · exact delivering.wrote w earlier
      · obtain ⟨caller, place⟩ := own w new
        rw [place, caller, openers, List.getElem?_map, lookup, Option.map_some, opener]
    sent := by
      intro e member
      exact sent_frame (delivering.sent e member) lookup id grows
    once := delivering.once }

theorem write_delivering {s : State} {t k n : Nat} {request : LocalRequest} {todo left : Bytes}
    {stream : TunnelStream} {send : Channel} (delivering : Delivering crates s)
    (found : s.callers[t]? = some ⟨request, .writing k todo⟩)
    (lookup : s.streams[k]? = some stream)
    (part : writePart n todo stream.send = some (left, send)) :
    Delivering crates
      { s with
        callers := s.callers.set t ⟨request, .writing k left⟩
        streams := s.streams.set k { stream with send := send }
        wrote := s.wrote ++ [⟨t, k, todo.take n⟩] } := by
  obtain ⟨other, there, _, writing⟩ := delivering.holding t _ found
  rw [lookup, Option.some.injEq] at there
  subst there
  obtain ⟨after, fed⟩ := writing_part writing part
  obtain ⟨_, _, rfl⟩ := write_part_iff.mp part
  apply delivering_client delivering found lookup fed
  · intro w member
    rw [List.mem_singleton] at member
    subst member
    exact ⟨rfl, rfl⟩
  · simp
  · rw [← after.split]
    exact List.prefix_append _ _
  · intro opener
    exact ⟨_, lookup_set lookup, opener, after⟩

theorem finish_delivering {s : State} {t k : Nat} {request : LocalRequest} {todo : Bytes}
    {stream : TunnelStream} {next : CallerPhase} (delivering : Delivering crates s)
    (found : s.callers[t]? = some ⟨request, .writing k todo⟩)
    (lookup : s.streams[k]? = some stream) (stops : next = .ended ∨ ∃ j, next = .copying j) :
    Delivering crates
      { s with
        callers := s.callers.set t ⟨request, next⟩
        streams := s.streams.set k { stream with send := stream.send.finish } } := by
  obtain ⟨other, there, _, writing⟩ := delivering.holding t _ found
  rw [lookup, Option.some.injEq] at there
  subst there
  have client : Delivering crates
      { s with
        callers := s.callers.set t ⟨request, next⟩
        streams := s.streams.set k { stream with send := stream.send.finish }
        wrote := s.wrote ++ [] } := by
    apply delivering_client delivering found lookup (fed_finish writing.opened)
    · simp
    · simp
    · rw [finish_written, ← writing.split]
      exact List.prefix_append _ _
    · intro _
      rcases stops with rfl | ⟨j, rfl⟩ <;> trivial
  rwa [List.append_nil] at client

theorem validated_cases (urls : UrlCrate) (base : Url)
    (result : Except HttpRequestError OpenAiHttpRequest) :
    Handler.validated urls base result = .closed ∨
      ∃ request url, result = .ok request ∧
        Handler.validated urls base result = .forwarding request url := by
  cases result with
  | error e => exact Or.inl rfl
  | ok request =>
    unfold Handler.validated
    simp only
    split
    · exact Or.inl rfl
    · split
      · exact Or.inl rfl
      · rename_i url _
        exact Or.inr ⟨request, url, rfl, rfl⟩

theorem handle_moves {stream next : TunnelStream} {e : ServerEvent}
    (h : handle crates urls base stream e = some next) :
    next.opener = stream.opener ∧ stream.send.Drawn next.send ∧ stream.handler ≠ .sent ∧
      (HandlerHolds crates stream → HandlerHolds crates next) := by
  obtain ⟨opener, managed, send, handler⟩ := stream
  cases e with
  | accept =>
    cases handler <;> simp only [handle, reduceCtorEq, Option.some.injEq] at h
    subst h
    exact ⟨rfl, drawn_refl _, by simp, fun holds => holds.symm⟩
  | reject =>
    cases handler <;> simp only [handle, reduceCtorEq, Option.some.injEq] at h
    subst h
    exact ⟨rfl, drawn_refl _, by simp, fun _ => trivial⟩
  | receive n =>
    cases handler <;> simp only [handle, reduceCtorEq] at h
    rw [Option.dite_none_right_eq_some] at h
    obtain ⟨some_left, h⟩ := h
    rw [← Option.some.inj h]
    refine ⟨rfl, drawn_take _ n, by simp, fun holds => ?_⟩
    have taken : pieceBytes _ = send.consumed := holds
    simp only [HandlerHolds, Channel.take, pieceBytes, List.flatMap_append, List.flatMap_singleton]
    rw [← taken]
    rfl
  | read =>
    cases handler <;> simp only [handle, reduceCtorEq, Option.some.injEq] at h
    rename_i pieces
    subst h
    refine ⟨rfl, drawn_refl _, by simp, fun holds => ?_⟩
    have taken : pieceBytes pieces = send.consumed := holds
    have found := validated_cases urls base (readHttpRequest crates (BufReader.new pieces))
    rcases found with closed | ⟨request, url, read, forwarding⟩
    · rw [closed]
      trivial
    · rw [forwarding]
      exact ⟨pieces, taken ▸ List.prefix_append _ _, read⟩
  | timeout =>
    cases handler <;> simp only [handle, reduceCtorEq, Option.some.injEq] at h
    subst h
    exact ⟨rfl, drawn_refl _, by simp, fun _ => trivial⟩
  | send =>
    cases handler <;> simp only [handle, reduceCtorEq, Option.some.injEq] at h
    subst h
    exact ⟨rfl, drawn_refl _, by simp, fun _ => trivial⟩

theorem handle_sends {stream next : TunnelStream} {e : ServerEvent} (k : Nat)
    (h : handle crates urls base stream e = some next) :
    sends k stream e = [] ∨ ∃ request url, stream.handler = .forwarding request url ∧
      sends k stream e = [⟨k, request, url⟩] ∧ next.handler = .sent := by
  cases e with
  | send =>
    obtain ⟨opener, managed, send, handler⟩ := stream
    cases handler <;> simp only [handle, reduceCtorEq, Option.some.injEq] at h
    subst h
    exact Or.inr ⟨_, _, rfl, rfl, rfl⟩
  | accept | reject | read | timeout => exact Or.inl rfl
  | receive n => exact Or.inl rfl

theorem server_delivering {s : State} {k : Nat} {stream next : TunnelStream} {e : ServerEvent}
    (delivering : Delivering crates s) (lookup : s.streams[k]? = some stream)
    (h : handle crates urls base stream e = some next) :
    Delivering crates
      { s with streams := s.streams.set k next, sent := s.sent ++ sends k stream e } := by
  obtain ⟨opener, drawn, unsent, keeps⟩ := handle_moves h
  have same : openers (s.streams.set k next) = openers s.streams := openers_set lookup opener
  have before := delivering.carrying k stream lookup
  have kept : ∀ e' ∈ s.sent, Sent crates (s.streams.set k next) e' := by
    intro e' member
    exact sent_frame (delivering.sent e' member) lookup (fun sent => absurd sent unsent)
      (drawn.written ▸ List.prefix_rfl)
  have carrying : Every (Carrying crates s.requests s.wrote) (s.streams.set k next) := by
    refine delivering.carrying.set ⟨?_, ?_, keeps before.handler⟩
    · rw [opener, drawn.written]
      exact before.opener
    · rw [drawn.written]
      exact before.content
  have sentAll : (∀ e' ∈ s.sent ++ sends k stream e, Sent crates (s.streams.set k next) e') ∧
      ((s.sent ++ sends k stream e).map (·.stream)).Nodup := by
    rcases handle_sends k h with none | ⟨request, url, forwarding, one, sent⟩
    · rw [none, List.append_nil]
      exact ⟨kept, delivering.once⟩
    · have read := before.handler
      rw [HandlerHolds, forwarding] at read
      obtain ⟨pieces, begins, read⟩ := read
      rw [one]
      constructor
      · intro e' member
        rw [List.mem_append, List.mem_singleton] at member
        rcases member with earlier | rfl
        · exact kept e' earlier
        · exact ⟨next, lookup_set lookup, sent, pieces, drawn.written ▸ begins, read⟩
      · rw [List.map_append, List.map_singleton, List.nodup_append]
        refine ⟨delivering.once, by simp, ?_⟩
        intro j among k' last
        rw [List.mem_singleton] at last
        rintro rfl
        obtain ⟨e', member, place⟩ := List.mem_map.mp among
        obtain ⟨other, there, handler, _⟩ := delivering.sent e' member
        rw [place, last, lookup, Option.some.injEq] at there
        exact unsent (there ▸ handler)
  exact {
    accepted := delivering.accepted
    holding := delivering.holding.imp fun t caller holding =>
      holding_frame holding lookup opener fun _ _ _ writing => writing_same writing drawn
    carrying := carrying
    apart := by
      simp only [same]
      exact delivering.apart
    wrote := by
      simp only [same]
      exact delivering.wrote
    sent := sentAll.1
    once := sentAll.2 }

theorem begin_delivering {s t : State} {request : LocalRequest} (delivering : Delivering crates s)
    (accepted : request.origin = .session → Accepted crates request.bytes)
    (h : begin reconnectAttempts s request = some t) : Delivering crates t := by
  rw [begin, Option.map_eq_some_iff] at h
  obtain ⟨manager, _, rfl⟩ := h
  exact delivering_begin delivering accepted

theorem delivering_step {s t : State} {e : Event} (delivering : Delivering crates s)
    (h : step crates urls base reconnectAttempts s e = some t) : Delivering crates t := by
  cases e with
  | session pieces =>
    simp only [step] at h
    split at h
    · rename_i raw rest read
      exact begin_delivering delivering (fun _ => ⟨_, rest, read⟩) h
    · contradiction
  | healthCheck => exact begin_delivering delivering (fun session => by contradiction) h
  | manager t action =>
    simp only [step] at h
    split at h
    · rename_i request found
      rw [Option.bind_eq_some_iff] at h
      obtain ⟨manager, _, h⟩ := h
      rw [Option.map_eq_some_iff] at h
      obtain ⟨task, _, rfl⟩ := h
      exact settle_delivering task.phase delivering found
    · contradiction
  | write t n =>
    simp only [step] at h
    split at h
    · rename_i request k todo found
      rw [Option.bind_eq_some_iff] at h
      obtain ⟨stream, lookup, h⟩ := h
      rw [Option.map_eq_some_iff] at h
      obtain ⟨⟨left, send⟩, part, rfl⟩ := h
      exact write_delivering delivering found lookup part
    · contradiction
  | finish t =>
    simp only [step] at h
    split at h
    · rename_i request k found
      rw [Option.map_eq_some_iff] at h
      obtain ⟨stream, lookup, rfl⟩ := h
      exact finish_delivering delivering found lookup (Or.inr ⟨k, rfl⟩)
    · contradiction
  | abandon t =>
    simp only [step] at h
    split at h
    · rename_i request k todo found
      rw [Option.map_eq_some_iff] at h
      obtain ⟨stream, lookup, rfl⟩ := h
      exact finish_delivering delivering found lookup (Or.inl rfl)
    · rename_i request k found
      exact Option.some.inj h ▸ ended_delivering s.manager delivering found
    · contradiction
  | server k e =>
    simp only [step] at h
    rw [Option.bind_eq_some_iff] at h
    obtain ⟨stream, lookup, h⟩ := h
    rw [Option.map_eq_some_iff] at h
    obtain ⟨next, moved, rfl⟩ := h
    exact server_delivering delivering lookup moved

theorem delivering_run {s : State}
    (reached : (delivery crates urls base reconnectAttempts).Reachable s) :
    Delivering crates s := by
  apply state_invariant (Delivering crates) _ _ s reached
  · exact {
      accepted := by simp [State.requests, delivery]
      holding := every_nil _
      carrying := every_nil _
      apart := List.nodup_nil
      wrote := by simp [delivery]
      sent := by simp [delivery]
      once := List.nodup_nil }
  · intro s e t delivering h
    exact delivering_step delivering h

theorem opener_injective {streams : List TunnelStream} {j k t : Nat}
    (apart : (openers streams).Nodup) (left : (openers streams)[j]? = some t)
    (right : (openers streams)[k]? = some t) : j = k := by
  obtain ⟨below, _⟩ := List.getElem?_eq_some_iff.mp left
  exact (List.getElem?_inj below apart).mp (left.trans right.symm)

/-- What the server's reader makes a request of is all that the client's reader
    has accepted. -/
theorem read_whole {raw : Bytes} {pieces : List Piece} {request : OpenAiHttpRequest}
    (accepted : Accepted crates raw) (begins : pieceBytes pieces <+: raw)
    (read : readHttpRequest crates (BufReader.new pieces) = .ok request) :
    pieceBytes pieces = raw := by
  obtain ⟨reader, rest, local_read⟩ := accepted
  obtain ⟨head, body, parsed, rfl, _, whole, parses, length⟩ := read_local_ok local_read
  apply Classical.byContradiction
  intro proper
  rw [← new_contents pieces] at begins proper
  obtain ⟨e, cut⟩ := read_request_cut whole parses length begins proper
  rw [cut] at read
  contradiction

/-- In every run a stream carries bytes of one caller's request only, a caller's
    bytes go to one stream only, and the server sends at most one request to the
    provider for each caller: for a session, the whole of what it has read. -/
theorem delivered_at_most_once {s : State}
    (reached : (delivery crates urls base reconnectAttempts).Reachable s) :
    (∀ w ∈ s.wrote, ∀ w' ∈ s.wrote, w.stream = w'.stream ↔ w.caller = w'.caller) ∧
      (∀ k stream, s.streams[k]? = some stream → stream.send.written = bytesOn s.wrote k ∧
        (∀ w ∈ s.wrote, w.stream = k → w.caller = stream.opener) ∧
        ∃ request, s.requests[stream.opener]? = some request ∧
          stream.send.written <+: request.bytes) ∧
      (s.sent.map fun e => (openers s.streams)[e.stream]?).Nodup ∧
      ∀ e ∈ s.sent, ∃ stream request, s.streams[e.stream]? = some stream ∧
        s.requests[stream.opener]? = some request ∧
        (request.origin = .session → stream.send.written = request.bytes ∧
          ∃ pieces, pieceBytes pieces = request.bytes ∧
            readHttpRequest crates (BufReader.new pieces) = .ok e.request) := by
  have delivering := delivering_run reached
  refine ⟨?_, ?_, ?_, ?_⟩
  · intro w member w' member'
    have mine := delivering.wrote w member
    have other := delivering.wrote w' member'
    constructor
    · intro same
      rw [same, other, Option.some.injEq] at mine
      exact mine.symm
    · intro same
      exact opener_injective delivering.apart mine (same ▸ other)
  · intro k stream lookup
    have carrying := delivering.carrying k stream lookup
    refine ⟨carrying.content, ?_, carrying.opener⟩
    intro w member place
    have mine := delivering.wrote w member
    rw [place, openers, List.getElem?_map, lookup, Option.map_some, Option.some.injEq] at mine
    exact mine.symm
  · have once := delivering.once
    rw [List.Nodup, List.pairwise_map] at once ⊢
    refine once.imp_of_mem ?_
    intro e e' member _ apart same
    obtain ⟨stream, lookup, _⟩ := delivering.sent e member
    have mine : (openers s.streams)[e.stream]? = some stream.opener := by
      rw [openers, List.getElem?_map, lookup, Option.map_some]
    exact apart (opener_injective delivering.apart mine (same ▸ mine))
  · intro e member
    obtain ⟨stream, lookup, _, pieces, begins, read⟩ := delivering.sent e member
    obtain ⟨request, within, carried⟩ := (delivering.carrying e.stream stream lookup).opener
    refine ⟨stream, request, lookup, within, ?_⟩
    intro session
    have accepted := delivering.accepted request (List.mem_of_getElem? within) session
    have whole := read_whole accepted (begins.trans carried) read
    have all : request.bytes <+: stream.send.written := whole ▸ begins
    exact ⟨carried.eq_of_length_le all.length_le, pieces, whole, read⟩

def exampleHead : Bytes :=
  text "POST /chat/completions HTTP/1.1\r\nContent-Length: 7\r\n\r\n"

def exampleBytes : Bytes := exampleHead ++ text "payload"

def examplePiece : Piece := ⟨exampleBytes, by decide⟩

def exampleClient : List Event :=
  [.manager 0 .lock, .manager 0 .openFailed, .manager 0 .lock, .manager 0 .lock,
    .manager 0 .lock, .manager 0 .connected, .manager 0 .opened, .write 0 20,
    .write 0 (exampleBytes.length - 20), .finish 0, .server 0 .accept,
    .server 0 (.receive exampleBytes.length)]

def exampleRun : List Event :=
  [.session [examplePiece]] ++ exampleClient ++ [.server 0 .read] ++ [.server 0 .send]

def exampleDelivered (handler : Handler) (sent : List ProviderSend) : State where
  manager :=
    ⟨⟨some ⟨2, 1⟩, 3, none, 2⟩, [⟨.returned ⟨2, 1⟩, 0⟩],
      [.dialed ⟨1, 0⟩, .openFailed 0 ⟨1, 0⟩, .cleared 0 ⟨1, 0⟩, .dialed ⟨2, 1⟩]⟩
  callers := [⟨⟨.session, exampleBytes⟩, .copying 0⟩]
  streams := [⟨0, ⟨2, 1⟩, ⟨exampleBytes, [], true⟩, handler⟩]
  wrote := [⟨0, 0, exampleBytes.take 20⟩, ⟨0, 0, exampleBytes.drop 20⟩]
  sent := sent

theorem example_client_run :
    exampleClient.foldlM (step exampleCrates exampleUrlCrate exampleBase 1)
      ⟨⟨ConnectionManager.connect.manager, [⟨.connection, 1⟩], [.dialed ⟨1, 0⟩]⟩,
        [⟨⟨.session, exampleBytes⟩, .opening⟩], [], [], []⟩ =
      some (exampleDelivered (.reading [examplePiece]) []) := by
  rfl

theorem example_reads :
    (∃ rest, readOneLocalHttpRequest exampleCrates (BufReader.new [examplePiece]) =
        .ok (exampleBytes, rest)) ∧
      ∃ request url, Handler.validated exampleUrlCrate exampleBase
        (readHttpRequest exampleCrates (BufReader.new [examplePiece])) =
          .forwarding request url := by
  have whole : flatHead exampleHead = .ok (exampleHead, []) := by decide
  have parses : ∃ parsed, parseHttpHead exampleCrates exampleHead = .ok parsed ∧
      parsed.hasChunkedBody = false ∧ parsed.contentLength = some 7 ∧
      parsed.method = ⟨text "POST"⟩ ∧ parsed.target = text "/chat/completions" := by
    refine ⟨_, rfl, ?_, ?_, ?_, ?_⟩ <;> decide
  obtain ⟨parsed, parses, plain, seven, method, target⟩ := parses
  have length : (text "payload").length =
      if parsed.hasChunkedBody then 0 else parsed.contentLength.getD 0 := by
    rw [plain, seven]
    rfl
  have delivers : (BufReader.new [examplePiece]).contents = exampleHead ++ text "payload" := by
    decide
  have read := read_request_whole whole parses length delivers
  obtain ⟨url, found, _⟩ := example_url
  refine ⟨read_local_whole whole parses length delivers,
    ⟨parsed.method, parsed.target, parsed.headers, text "payload"⟩, url, ?_⟩
  rw [read, plain, if_neg (by simp)]
  have other : isHealthRequest ⟨parsed.method, parsed.target, parsed.headers, text "payload"⟩ =
      false := by
    rw [isHealthRequest, method]
    rfl
  rw [← target] at found
  simp only [Handler.validated, other, found]
  rfl

theorem delivered_at_most_once_example :
    ∃ s, (delivery exampleCrates exampleUrlCrate exampleBase 1).replay exampleRun = some s ∧
      s.sent.length = 1 ∧ (s.sent.map fun e => (openers s.streams)[e.stream]?).Nodup := by
  obtain ⟨⟨rest, accepted⟩, request, url, validated⟩ := example_reads
  let sys := delivery exampleCrates exampleUrlCrate exampleBase 1
  have session : sys.step sys.init (.session [examplePiece]) =
      some ⟨⟨ConnectionManager.connect.manager, [⟨.connection, 1⟩], [.dialed ⟨1, 0⟩]⟩,
        [⟨⟨.session, exampleBytes⟩, .opening⟩], [], [], []⟩ := by
    simp only [sys, delivery, step, accepted]
    rfl
  have written : sys.replay ([.session [examplePiece]] ++ exampleClient) =
      some (exampleDelivered (.reading [examplePiece]) []) := by
    have begun : sys.replay [.session [examplePiece]] = _ := replay_step (replay_nil sys) session
    rw [replay_append, begun]
    exact example_client_run
  have read : sys.step (exampleDelivered (.reading [examplePiece]) []) (.server 0 .read) =
      some (exampleDelivered (.forwarding request url) []) := by
    rw [← validated]
    rfl
  have run : sys.replay exampleRun = some (exampleDelivered .sent [⟨0, request, url⟩]) :=
    replay_step (replay_step written read) rfl
  exact ⟨_, run, rfl, (delivered_at_most_once ⟨exampleRun, run⟩).2.2.1⟩

end RequestDelivery
