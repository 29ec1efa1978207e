import Mathlib.Data.List.Nodup
import TunnelAI.HealthCheck
import TunnelAI.OpenAiPath

/-!
The way of the responses, on top of the way of the requests: every stream also carries
what its handler answers, in parts and as far as it gets, and every caller reads the
stream that was opened for it. The run of a handler is known once its read has ended;
what a session has written to its application, and the verdict of a health check, are
functions of what the caller has met so far. Streams of all callers interleave, and any
of them may break off at any moment.
-/
namespace ResponseDelivery
open StreamReader BufferedReader Channels TransitionRuns TaskPools TracedEffects Fallible
  UrlReference ResponseMessages MessageBoundaries HttpHead HttpReaders ProviderUrl
  ProviderConfinement ResponseWriter HeaderForwarding PlainResponses OpenAiPath HealthCheck
open ServerStream hiding ServerEvent World
open ClientSession (TunnelRead handleOpenAiClientStream localBytes chunks)
open RequestDelivery (LocalRequest Caller CallerPhase Handler TunnelStream ProviderSend
  Delivering HandlerHolds openers isHealthRequest healthCheckBytes delivery handle sends
  exampleBytes examplePiece exampleClient)

/-- The server's side of a stream: the permits that were free and what its read has
    brought, once that is over, and the stream towards the client. -/
structure Answer where
  outcome : Option (Nat × Timed (List Piece))
  down : Channel

def Answer.fresh : Answer := ⟨none, Channel.fresh⟩

structure Session where
  pieces : List Piece
  opened : Option (Except Unit Unit)
  request : Option (Timed (Except Unit Unit))
  reads : List (Timed TunnelRead)

def Session.start (pieces : List Piece) : Session := ⟨pieces, none, none, []⟩

def Session.met (session : Session) :
    Option (Except Unit Unit × Timed (Except Unit Unit) × List (Timed TunnelRead)) :=
  match session.opened, session.request with
  | some (.error _), _ => some (.error (), .elapsed, [])
  | some (.ok _), some request => some (.ok (), request, session.reads)
  | _, _ => none

def Session.world (session : Session) : Option ClientSession.World :=
  session.met.map fun (opened, request, reads) => ⟨.finished session.pieces, opened, request, reads⟩

def Session.check (session : Session) : Option CheckWorld :=
  session.met.map fun (opened, request, reads) => ⟨opened, request, reads⟩

structure State where
  way : RequestDelivery.State
  answers : List Answer
  sessions : List Session

inductive ReadEvent where
  | data : Nat → ReadEvent
  | ended
  | failed
  | elapsed

/-- `expire` is the timer on the write of a request, `respond` a write of a handler and
    `close` the end of its stream, at its finish or before. -/
inductive Event where
  | way : RequestDelivery.Event → Event
  | expire : Nat → Event
  | respond : Nat → Nat → Event
  | close : Nat → Event
  | read : Nat → ReadEvent → Event

variable (crates : HttpCrates) (urls : UrlCrate) (base : Url) (reconnectAttempts : Nat)
  (provider : Nat → ProviderRequest → Timed (Except Unit ProviderResponse))

def served (k : Nat) (outcome : Nat × Timed (List Piece)) : Serving Unit :=
  serveStream crates urls base outcome.1 ⟨outcome.2, provider k⟩

def Answer.bytes (k : Nat) (answer : Answer) : Bytes :=
  match answer.outcome with
  | some outcome => tunnelBytes (served crates urls base provider k outcome)
  | none => []

def outcomeOf (handler : Handler) :
    RequestDelivery.ServerEvent → Option (Nat × Timed (List Piece))
  | .reject => some (0, .elapsed)
  | .timeout => some (1, .elapsed)
  | .read =>
    match handler with
    | .reading pieces => some (1, .finished pieces)
    | _ => none
  | _ => none

def hasAnswer : Handler → Bool
  | .closed => true
  | .sent => true
  | _ => false

def Answer.settle (answer : Answer) : Option (Nat × Timed (List Piece)) → Answer
  | some outcome => { answer with outcome := some outcome }
  | none => answer

/-- The answers behind a step of the requests: a stream that is new has none yet. -/
def answersAfter (s : State) (way : RequestDelivery.State) : RequestDelivery.Event → List Answer
  | .server k e =>
    match s.way.streams[k]? with
    | some stream => s.answers.modify k (·.settle (outcomeOf stream.handler e))
    | none => s.answers
  | .manager _ _ =>
    if way.streams.length = s.way.streams.length then s.answers
    else s.answers ++ [Answer.fresh]
  | _ => s.answers

def Session.settle (session : Session) : ConnectionManager.Phase → Session
  | .returned _ => { session with opened := some (.ok ()) }
  | .failed => { session with opened := some (.error ()) }
  | _ => session

def Session.wrote (session : Session) (request : Timed (Except Unit Unit)) : Session :=
  { session with request := some request }

def isWriting (s : State) (t : Nat) : Bool :=
  match s.way.callers[t]? with
  | some ⟨_, .writing _ _⟩ => true
  | _ => false

def sessionsAfter (s : State) (way : RequestDelivery.State) : RequestDelivery.Event → List Session
  | .session pieces => s.sessions ++ [Session.start pieces]
  | .healthCheck => s.sessions ++ [Session.start []]
  | .manager t _ =>
    match way.manager.tasks[t]? with
    | some task => s.sessions.modify t (·.settle task.phase)
    | none => s.sessions
  | .finish t => s.sessions.modify t (·.wrote (.finished (.ok ())))
  | .abandon t =>
    if isWriting s t then s.sessions.modify t (·.wrote (.finished (.error ()))) else s.sessions
  | _ => s.sessions

def carries : Timed TunnelRead → Bool
  | .finished (.data bytes) => bytes ≠ []
  | _ => false

def readOf (down : Channel) : ReadEvent → Option (Timed TunnelRead × Channel)
  | .data n =>
    if down.flight.take n = [] then none
    else some (.finished (.data (down.flight.take n)), down.take n)
  | .ended => if down.flight = [] ∧ down.ended = true then some (.finished .ended, down) else none
  | .failed => some (.finished .failed, down)
  | .elapsed => some (.elapsed, down)

def step (s : State) : Event → Option State
  | .way e =>
    (RequestDelivery.step crates urls base reconnectAttempts s.way e).map fun way =>
      ⟨way, answersAfter s way e, sessionsAfter s way e⟩
  | .expire t =>
    if isWriting s t then
      (RequestDelivery.step crates urls base reconnectAttempts s.way (.abandon t)).map fun way =>
        ⟨way, s.answers, s.sessions.modify t (·.wrote .elapsed)⟩
    else none
  | .respond k n =>
    match s.way.streams[k]?, s.answers[k]? with
    | some stream, some answer =>
      if answer.down.ended = false ∧ hasAnswer stream.handler = true then
        (writePart n ((answer.bytes crates urls base provider k).drop answer.down.written.length)
          answer.down).map fun (_, down) =>
            { s with answers := s.answers.set k { answer with down := down } }
      else none
    | _, _ => none
  | .close k =>
    match s.way.streams[k]?, s.answers[k]? with
    | some _, some answer =>
      if answer.down.ended = false then
        some { s with answers := s.answers.set k { answer with down := answer.down.finish } }
      else none
    | _, _ => none
  | .read t e =>
    match s.way.callers[t]?, s.sessions[t]? with
    | some ⟨_, .copying k⟩, some session =>
      s.answers[k]?.bind fun answer =>
        if session.reads.all carries then
          (readOf answer.down e).map fun (read, down) =>
            { s with
              answers := s.answers.set k { answer with down := down }
              sessions := s.sessions.set t { session with reads := session.reads ++ [read] } }
        else none
    | _, _ => none

def system : System State Event where
  init := ⟨(delivery crates urls base reconnectAttempts).init, [], []⟩
  step := step crates urls base reconnectAttempts provider

def Forwards (outcome : Option (Nat × Timed (List Piece))) (request : OpenAiHttpRequest)
    (url : Url) : Prop :=
  ∃ permits pieces, outcome = some (permits, .finished pieces) ∧
    Handler.validated urls base (readHttpRequest crates (BufReader.new pieces)) =
      .forwarding request url

def Idle (stream : TunnelStream) : Prop :=
  stream.handler = .unaccepted ∨ ∃ pieces, stream.handler = .reading pieces

/-- Nothing but the answer goes down the stream, and no part of it before the provider
    has been asked, if it is to be asked. -/
structure Answering (sent : List ProviderSend) (k : Nat) (stream : TunnelStream)
    (answer : Answer) : Prop where
  early : Idle stream → answer.outcome = none
  arrived : ∀ permits pieces, answer.outcome = some (permits, .finished pieces) →
    pieceBytes pieces <+: stream.send.written
  asks : ∀ request url, (stream.handler = .forwarding request url ∨ ⟨k, request, url⟩ ∈ sent) ↔
    Forwards crates urls base answer.outcome request url
  begins : answer.down.written <+: answer.bytes crates urls base provider k
  waits : hasAnswer stream.handler = false → answer.down.written = []

/-- A caller has read what its own stream has brought. -/
structure Reads (streams : List TunnelStream) (answers : List Answer) (t : Nat)
    (session : Session) (k : Nat) : Prop where
  opened : session.opened = some (.ok ())
  own : (openers streams)[k]? = some t
  copied : ∃ answer, answers[k]? = some answer ∧
    (chunks session.reads).flatten = answer.down.consumed
  full : .finished (.data []) ∉ session.reads

/-- What a caller has met, by where it is. -/
def Met (streams : List TunnelStream) (answers : List Answer) (t : Nat) (session : Session) :
    CallerPhase → Prop
  | .opening => session = Session.start session.pieces
  | .writing k _ => Reads streams answers t session k ∧ session.request = none ∧ session.reads = []
  | .copying k => Reads streams answers t session k ∧
      session.request = some (.finished (.ok ()))
  | .ended => (session.request ≠ some (.finished (.ok ())) ∧ session.reads = []) ∨
      ∃ k, Reads streams answers t session k ∧ session.request = some (.finished (.ok ()))

structure Waiting (streams : List TunnelStream) (answers : List Answer) (t : Nat)
    (caller : Caller) (session : Session) : Prop where
  accepted : caller.request.origin = .session → ∃ rest,
    readOneLocalHttpRequest crates (BufReader.new session.pieces) =
      .ok (caller.request.bytes, rest)
  checks : caller.request.origin = .healthCheck → caller.request.bytes = healthCheckBytes
  met : Met streams answers t session caller.phase

/-- Every stream has its answer and every caller its session. -/
structure Inv (s : State) : Prop where
  delivering : Delivering crates s.way
  answers : Paired (Answering crates urls base provider s.way.sent) s.way.streams s.answers
  sessions : Paired (Waiting crates s.way.streams s.answers) s.way.callers s.sessions

variable {crates urls base reconnectAttempts provider}

theorem forwards_none {request : OpenAiHttpRequest} {url : Url} :
    ¬ Forwards crates urls base none request url := by
  intro forwards
  obtain ⟨_, _, outcome, _⟩ := forwards
  contradiction

theorem forwards_elapsed {permits : Nat} {request : OpenAiHttpRequest} {url : Url} :
    ¬ Forwards crates urls base (some (permits, .elapsed)) request url := by
  intro forwards
  obtain ⟨_, _, outcome, _⟩ := forwards
  simp at outcome

theorem forwards_finished {pieces : List Piece} {request : OpenAiHttpRequest} {url : Url} :
    Forwards crates urls base (some (1, .finished pieces)) request url ↔
      Handler.validated urls base (readHttpRequest crates (BufReader.new pieces)) =
        .forwarding request url := by
  constructor
  · intro forwards
    obtain ⟨_, pieces', outcome, validated⟩ := forwards
    cases outcome
    exact validated
  · intro validated
    exact ⟨1, pieces, rfl, validated⟩

theorem unanswered {sent : List ProviderSend} {k : Nat} {stream : TunnelStream} {answer : Answer}
    (before : Answering crates urls base provider sent k stream answer)
    (none : answer.outcome = none) :
    answer.down.written = [] ∧ ∀ request url, ⟨k, request, url⟩ ∉ sent := by
  constructor
  · have begins := before.begins
    rw [Answer.bytes, none] at begins
    exact List.prefix_nil.mp begins
  · intro request url member
    have forwards := (before.asks request url).mp (Or.inr member)
    rw [none] at forwards
    exact forwards_none forwards

theorem answering_idle {sent : List ProviderSend} {k : Nat} {stream : TunnelStream}
    {answer : Answer} (none : answer.outcome = none) (nothing : answer.down.written = [])
    (unsent : ∀ request url, ⟨k, request, url⟩ ∉ sent)
    (idle : Idle stream) : Answering crates urls base provider sent k stream answer where
  early := fun _ => none
  arrived := by simp [none]
  asks := by
    intro request url
    rw [none]
    refine ⟨fun asked => ?_, fun forwards => absurd forwards forwards_none⟩
    rcases asked with forwarding | member
    · rcases idle with waiting | ⟨pieces, reading⟩
      · rw [waiting] at forwarding
        contradiction
      · rw [reading] at forwarding
        contradiction
    · exact absurd member (unsent request url)
  begins := nothing ▸ List.nil_prefix
  waits := fun _ => nothing

theorem answering_closed {sent : List ProviderSend} {k permits : Nat} {stream : TunnelStream}
    {answer : Answer} (before : Answering crates urls base provider sent k stream answer)
    (none : answer.outcome = none) :
    Answering crates urls base provider sent k { stream with handler := .closed }
      (answer.settle (some (permits, .elapsed))) := by
  obtain ⟨nothing, unsent⟩ := unanswered before none
  exact {
    early := by simp [Idle]
    arrived := by simp [Answer.settle]
    asks := by
      intro request url
      refine ⟨fun asked => ?_, fun forwards => absurd forwards forwards_elapsed⟩
      rcases asked with forwarding | member
      · contradiction
      · exact absurd member (unsent request url)
    begins := by
      rw [Answer.settle, nothing]
      exact List.nil_prefix
    waits := fun _ => nothing }

theorem answering_read {sent : List ProviderSend} {k : Nat} {stream : TunnelStream}
    {answer : Answer} {pieces : List Piece}
    (before : Answering crates urls base provider sent k stream answer)
    (none : answer.outcome = none) (taken : pieceBytes pieces = stream.send.consumed) :
    Answering crates urls base provider sent k
      { stream with
        handler := Handler.validated urls base (readHttpRequest crates (BufReader.new pieces)) }
      (answer.settle (some (1, .finished pieces))) := by
  obtain ⟨nothing, unsent⟩ := unanswered before none
  exact {
    early := by
      intro idle
      simp only [Idle] at idle
      rcases RequestDelivery.validated_cases urls base
        (readHttpRequest crates (BufReader.new pieces)) with closed | ⟨_, _, _, forwarding⟩
      · simp [closed] at idle
      · simp [forwarding] at idle
    arrived := by
      intro permits pieces' outcome
      cases outcome
      exact taken ▸ List.prefix_append _ _
    asks := by
      intro request url
      rw [Answer.settle, forwards_finished]
      exact or_iff_left (unsent request url)
    begins := by
      rw [Answer.settle, nothing]
      exact List.nil_prefix
    waits := fun _ => nothing }

theorem answering_sent {sent : List ProviderSend} {k : Nat} {stream : TunnelStream}
    {answer : Answer} {request : OpenAiHttpRequest} {url : Url}
    (before : Answering crates urls base provider sent k stream answer)
    (forwarding : stream.handler = .forwarding request url) :
    Answering crates urls base provider (sent ++ [⟨k, request, url⟩]) k
      { stream with handler := .sent } answer where
  early := by simp [Idle]
  arrived := before.arrived
  asks := by
    intro request' url'
    rw [← before.asks request' url', forwarding]
    simp [or_comm, eq_comm]
  begins := before.begins
  waits := by simp [hasAnswer]

theorem handle_cases {stream next : TunnelStream} {e : RequestDelivery.ServerEvent} (k : Nat)
    (h : handle crates urls base stream e = some next) :
    (sends k stream e = [] ∧ Idle stream ∧
      (outcomeOf stream.handler e = none ∧ Idle next ∨
        ∃ permits, outcomeOf stream.handler e = some (permits, .elapsed) ∧
          next = { stream with handler := .closed })) ∨
    (∃ pieces, stream.handler = .reading pieces ∧ sends k stream e = [] ∧
      outcomeOf stream.handler e = some (1, .finished pieces) ∧
      next = { stream with
        handler := Handler.validated urls base (readHttpRequest crates (BufReader.new pieces)) }) ∨
    ∃ request url, stream.handler = .forwarding request url ∧
      sends k stream e = [⟨k, request, url⟩] ∧ outcomeOf stream.handler e = none ∧
      next = { stream with handler := .sent } := by
  obtain ⟨opener, managed, send, handler⟩ := stream
  cases e with
  | accept =>
    cases handler <;> simp only [handle, reduceCtorEq, Option.some.injEq] at h
    subst h
    exact Or.inl ⟨rfl, Or.inl rfl, Or.inl ⟨rfl, Or.inr ⟨[], rfl⟩⟩⟩
  | reject =>
    cases handler <;> simp only [handle, reduceCtorEq, Option.some.injEq] at h
    subst h
    exact Or.inl ⟨rfl, Or.inl rfl, Or.inr ⟨0, rfl, rfl⟩⟩
  | receive n =>
    cases handler <;> simp only [handle, reduceCtorEq] at h
    rename_i pieces
    rw [Option.dite_none_right_eq_some] at h
    obtain ⟨_, h⟩ := h
    rw [← Option.some.inj h]
    exact Or.inl ⟨rfl, Or.inr ⟨pieces, rfl⟩, Or.inl ⟨rfl, Or.inr ⟨_, rfl⟩⟩⟩
  | read =>
    cases handler <;> simp only [handle, reduceCtorEq, Option.some.injEq] at h
    rename_i pieces
    subst h
    exact Or.inr (Or.inl ⟨pieces, rfl, rfl, rfl, rfl⟩)
  | timeout =>
    cases handler <;> simp only [handle, reduceCtorEq, Option.some.injEq] at h
    rename_i pieces
    subst h
    exact Or.inl ⟨rfl, Or.inr ⟨pieces, rfl⟩, Or.inr ⟨1, rfl, rfl⟩⟩
  | send =>
    cases handler <;> simp only [handle, reduceCtorEq, Option.some.injEq] at h
    rename_i request url
    subst h
    exact Or.inr (Or.inr ⟨request, url, rfl, rfl, rfl, rfl⟩)

theorem answering_server {sent : List ProviderSend} {k : Nat} {stream next : TunnelStream}
    {answer : Answer} {e : RequestDelivery.ServerEvent}
    (before : Answering crates urls base provider sent k stream answer)
    (holds : HandlerHolds crates stream) (h : handle crates urls base stream e = some next) :
    Answering crates urls base provider (sent ++ sends k stream e) k next
      (answer.settle (outcomeOf stream.handler e)) := by
  rcases handle_cases k h with
    ⟨silent, idle, ⟨open_, later⟩ | ⟨permits, ends, rfl⟩⟩ |
    ⟨pieces, reading, silent, ends, rfl⟩ | ⟨request, url, forwarding, asked, ends, rfl⟩
  · obtain ⟨nothing, unsent⟩ := unanswered before (before.early idle)
    rw [silent, List.append_nil, open_]
    exact answering_idle (before.early idle) nothing unsent later
  · rw [silent, List.append_nil, ends]
    exact answering_closed before (before.early idle)
  · rw [silent, List.append_nil, ends]
    rw [HandlerHolds, reading] at holds
    exact answering_read before (before.early (Or.inr ⟨pieces, reading⟩)) holds
  · rw [asked, ends]
    exact answering_sent before forwarding

theorem Answering.elsewhere {sent more : List ProviderSend} {k : Nat} {stream : TunnelStream}
    {answer : Answer} (before : Answering crates urls base provider sent k stream answer)
    (others : ∀ e ∈ more, e.stream ≠ k) :
    Answering crates urls base provider (sent ++ more) k stream answer where
  early := before.early
  arrived := before.arrived
  asks := by
    intro request url
    have apart : ⟨k, request, url⟩ ∉ more := fun member => others _ member rfl
    rw [← before.asks request url, List.mem_append, or_iff_left apart]
  begins := before.begins
  waits := before.waits

theorem Answering.fed {sent : List ProviderSend} {k : Nat} {stream : TunnelStream}
    {answer : Answer} (before : Answering crates urls base provider sent k stream answer)
    {send : Channel} (grows : stream.send.written <+: send.written) :
    Answering crates urls base provider sent k { stream with send := send } answer where
  early := before.early
  arrived := fun permits pieces outcome => (before.arrived permits pieces outcome).trans grows
  asks := before.asks
  begins := before.begins
  waits := before.waits

theorem Answering.down {sent : List ProviderSend} {k : Nat} {stream : TunnelStream}
    {answer : Answer} (before : Answering crates urls base provider sent k stream answer)
    {down : Channel} (same : down.written = answer.down.written) :
    Answering crates urls base provider sent k stream { answer with down := down } where
  early := before.early
  arrived := before.arrived
  asks := before.asks
  begins := by
    rw [same]
    exact before.begins
  waits := fun waiting => same.trans (before.waits waiting)

theorem answering_respond {sent : List ProviderSend} {k n : Nat} {stream : TunnelStream}
    {answer : Answer} {left : Bytes} {down : Channel}
    (before : Answering crates urls base provider sent k stream answer)
    (ready : hasAnswer stream.handler = true)
    (part : writePart n ((answer.bytes crates urls base provider k).drop
      answer.down.written.length) answer.down = some (left, down)) :
    Answering crates urls base provider sent k stream { answer with down := down } where
  early := before.early
  arrived := before.arrived
  asks := before.asks
  begins := by
    obtain ⟨rest, whole⟩ := before.begins
    obtain ⟨_, _, rfl⟩ := write_part_iff.mp part
    change (answer.down.put _).written <+: answer.bytes crates urls base provider k
    rw [put_written, ← whole, List.drop_left, List.prefix_append_right_inj]
    exact List.take_prefix n rest
  waits := by simp [ready]

structure Untouched (streams streams' : List TunnelStream) (answers answers' : List Answer)
    (t : Nat) : Prop where
  own : ∀ k : Nat, (openers streams)[k]? = some t → (openers streams')[k]? = some t
  unread : ∀ (k : Nat) answer, (openers streams)[k]? = some t → answers[k]? = some answer →
    ∃ answer' : Answer, answers'[k]? = some answer' ∧
      answer'.down.consumed = answer.down.consumed

theorem Reads.frame {streams streams' : List TunnelStream} {answers answers' : List Answer}
    {t k : Nat} {session : Session} (reads : Reads streams answers t session k)
    (untouched : Untouched streams streams' answers answers' t) :
    Reads streams' answers' t session k := by
  obtain ⟨answer, found, copied⟩ := reads.copied
  obtain ⟨answer', found', same⟩ := untouched.unread k answer reads.own found
  exact ⟨reads.opened, untouched.own k reads.own, ⟨answer', found', copied.trans same.symm⟩,
    reads.full⟩

theorem Waiting.frame {streams streams' : List TunnelStream} {answers answers' : List Answer}
    {t : Nat} {caller : Caller} {session : Session}
    (waiting : Waiting crates streams answers t caller session)
    (untouched : Untouched streams streams' answers answers' t) :
    Waiting crates streams' answers' t caller session where
  accepted := waiting.accepted
  checks := waiting.checks
  met := by
    obtain ⟨request, phase⟩ := caller
    have met := waiting.met
    cases phase with
    | opening => exact met
    | writing k todo => exact ⟨met.1.frame untouched, met.2⟩
    | copying k => exact ⟨met.1.frame untouched, met.2⟩
    | ended =>
      rcases met with silent | ⟨k, reads, wrote⟩
      · exact Or.inl silent
      · exact Or.inr ⟨k, reads.frame untouched, wrote⟩

theorem begin_kept {s : State} {way : RequestDelivery.State} {request : LocalRequest}
    {session : Session} (inv : Inv crates urls base provider s)
    (started : session = Session.start session.pieces)
    (accepted : request.origin = .session → ∃ rest,
      readOneLocalHttpRequest crates (BufReader.new session.pieces) = .ok (request.bytes, rest))
    (checks : request.origin = .healthCheck → request.bytes = healthCheckBytes)
    (h : RequestDelivery.begin reconnectAttempts s.way request = some way) :
    Paired (Answering crates urls base provider way.sent) way.streams s.answers ∧
      Paired (Waiting crates way.streams s.answers) way.callers (s.sessions ++ [session]) := by
  rw [RequestDelivery.begin, Option.map_eq_some_iff] at h
  obtain ⟨manager, _, rfl⟩ := h
  exact ⟨inv.answers, inv.sessions.snoc ⟨accepted, checks, started⟩⟩

theorem untouched_refl (streams : List TunnelStream) (answers : List Answer) (t : Nat) :
    Untouched streams streams answers answers t :=
  ⟨fun _ own => own, fun _ answer _ found => ⟨answer, found, rfl⟩⟩

theorem untouched_opened {streams : List TunnelStream} {answers : List Answer} {t : Nat}
    (new : TunnelStream) (answer : Answer) :
    Untouched streams (streams ++ [new]) answers (answers ++ [answer]) t where
  own := by
    intro k own
    have appended : openers (streams ++ [new]) = openers streams ++ [new.opener] := by
      simp [openers]
    rw [appended]
    exact lookup_snoc own
  unread := fun _ answer _ found => ⟨answer, lookup_snoc found, rfl⟩

theorem untouched_stream {streams : List TunnelStream} {answers : List Answer} {k : Nat}
    {old new : TunnelStream} (found : streams[k]? = some old) (same : new.opener = old.opener)
    (t : Nat) : Untouched streams (streams.set k new) answers answers t where
  own := by
    intro j own
    rw [RequestDelivery.openers_set found same]
    exact own
  unread := fun _ answer _ found => ⟨answer, found, rfl⟩

theorem untouched_answer {streams : List TunnelStream} {answers : List Answer} {k t : Nat}
    {old new : Answer} (found : answers[k]? = some old)
    (unread : (openers streams)[k]? = some t → new.down.consumed = old.down.consumed) :
    Untouched streams streams answers (answers.set k new) t where
  own := fun _ own => own
  unread := by
    intro j answer own lookup
    by_cases here : k = j
    · subst here
      rw [found, Option.some.injEq] at lookup
      subst lookup
      exact ⟨new, lookup_set found, unread own⟩
    · exact ⟨answer, by rw [List.getElem?_set_ne here, lookup], rfl⟩

theorem Untouched.trans {first second third : List TunnelStream}
    {answers answers' answers'' : List Answer} {t : Nat}
    (before : Untouched first second answers answers' t)
    (after : Untouched second third answers' answers'' t) :
    Untouched first third answers answers'' t where
  own := fun k own => after.own k (before.own k own)
  unread := by
    intro k answer own found
    obtain ⟨answer', found', same⟩ := before.unread k answer own found
    obtain ⟨answer'', found'', again⟩ := after.unread k answer' (before.own k own) found'
    exact ⟨answer'', found'', again.trans same⟩

theorem caller_kept {s : State} {t : Nat} {request : LocalRequest} {phase : CallerPhase}
    (next : CallerPhase) {session session' : Session} {streams : List TunnelStream}
    {answers : List Answer}
    (inv : Inv crates urls base provider s)
    (waiting : Waiting crates s.way.streams s.answers t ⟨request, phase⟩ session)
    (others : ∀ k, k ≠ t → Untouched s.way.streams streams s.answers answers k)
    (same : session'.pieces = session.pieces) (met : Met streams answers t session' next) :
    Paired (Waiting crates streams answers) (s.way.callers.set t ⟨request, next⟩)
      (s.sessions.set t session') := by
  refine inv.sessions.set (fun k _ _ apart waiting => waiting.frame (others k apart)) ?_
  refine ⟨?_, waiting.checks, met⟩
  rw [same]
  exact waiting.accepted

theorem returned_kept {s : State} {t : Nat} {request : LocalRequest} {session : Session}
    {managed : ConnectionManager.ManagedOpenAiConnection} {manager : ConnectionManager.State}
    (inv : Inv crates urls base provider s)
    (waiting : Waiting crates s.way.streams s.answers t ⟨request, .opening⟩ session) :
    Paired (Answering crates urls base provider s.way.sent)
        (s.way.streams ++ [⟨t, managed, Channel.fresh, .unaccepted⟩])
        (s.answers ++ [Answer.fresh]) ∧
      Paired
        (Waiting crates (RequestDelivery.settle s.way t request manager (.returned managed)).streams
          (s.answers ++ [Answer.fresh]))
        (s.way.callers.set t ⟨request, .writing s.way.streams.length request.bytes⟩)
        (s.sessions.set t (session.settle (.returned managed))) := by
  have unsent : ∀ request url, ⟨s.way.streams.length, request, url⟩ ∉ s.way.sent := by
    intro request url member
    obtain ⟨_, found, _⟩ := inv.delivering.sent _ member
    obtain ⟨below, _⟩ := List.getElem?_eq_some_iff.mp found
    exact absurd below (Nat.lt_irrefl _)
  have last : (openers (s.way.streams ++ [⟨t, managed, Channel.fresh, .unaccepted⟩]))[
      s.way.streams.length]? = some t := by
    rw [openers, List.getElem?_map, List.getElem?_concat_length, Option.map_some]
  refine ⟨inv.answers.snoc (answering_idle rfl rfl unsent (Or.inl rfl)), ?_⟩
  have met : session = Session.start session.pieces := waiting.met
  refine caller_kept _ inv waiting (fun k _ => untouched_opened _ _) (by rfl)
    ⟨⟨rfl, last, ?_, ?_⟩, ?_, ?_⟩
  · refine ⟨Answer.fresh, ?_, ?_⟩
    · rw [inv.answers.length, List.getElem?_concat_length]
    · rw [met]
      rfl
  · rw [met]
    exact List.not_mem_nil
  · rw [met]
    rfl
  · rw [met]
    rfl

theorem settle_kept {s : State} {t : Nat} {action : ConnectionManager.Action}
    {request : LocalRequest} {manager : ConnectionManager.State} (phase : ConnectionManager.Phase)
    (inv : Inv crates urls base provider s)
    (found : s.way.callers[t]? = some ⟨request, .opening⟩) {way : RequestDelivery.State}
    (settled : way = RequestDelivery.settle s.way t request manager phase) :
    Paired (Answering crates urls base provider way.sent) way.streams
        (answersAfter s way (.manager t action)) ∧
      Paired (Waiting crates way.streams (answersAfter s way (.manager t action))) way.callers
        (s.sessions.modify t (·.settle phase)) := by
  obtain ⟨session, mine, waiting⟩ := inv.sessions.partner found
  have met : session = Session.start session.pieces := waiting.met
  rw [modify_set mine]
  have still : way.streams = s.way.streams →
      answersAfter s way (.manager t action) = s.answers :=
    fun same => if_pos (congrArg List.length same)
  have ends : ∀ session' : Session, session'.pieces = session.pieces → session'.request = none →
      session'.reads = [] → Paired (Waiting crates s.way.streams s.answers)
        (s.way.callers.set t ⟨request, .ended⟩) (s.sessions.set t session') := by
    intro session' same unwritten unread
    refine caller_kept _ inv waiting (fun k _ => untouched_refl _ _ k) same (Or.inl ⟨?_, unread⟩)
    simp [unwritten]
  subst settled
  cases phase with
  | returned managed =>
    have grown : answersAfter s (RequestDelivery.settle s.way t request manager (.returned managed))
        (.manager t action) = s.answers ++ [Answer.fresh] := by
      simp [answersAfter, RequestDelivery.settle]
    rw [grown]
    exact returned_kept inv waiting
  | failed | cancelled =>
    rw [still rfl]
    refine ⟨inv.answers, ends _ rfl ?_ ?_⟩
    · rw [met]
      rfl
    · rw [met]
      rfl
  | connection | dial | dialing =>
    rw [still rfl]
    simp only [Session.settle, set_same mine]
    exact ⟨inv.answers, inv.sessions⟩
  | opening managed | invalidate managed =>
    rw [still rfl]
    simp only [Session.settle, set_same mine]
    exact ⟨inv.answers, inv.sessions⟩

theorem client_kept {s : State} {t k : Nat} {request : LocalRequest} {todo : Bytes}
    (next : CallerPhase) {stream : TunnelStream} {send : Channel} {session session' : Session}
    (inv : Inv crates urls base provider s)
    (waiting : Waiting crates s.way.streams s.answers t ⟨request, .writing k todo⟩ session)
    (lookup : s.way.streams[k]? = some stream) (grows : stream.send.written <+: send.written)
    (same : session'.pieces = session.pieces)
    (met : Reads (s.way.streams.set k { stream with send := send }) s.answers t session k →
      Met (s.way.streams.set k { stream with send := send }) s.answers t session' next) :
    Paired (Answering crates urls base provider s.way.sent)
        (s.way.streams.set k { stream with send := send }) s.answers ∧
      Paired (Waiting crates (s.way.streams.set k { stream with send := send }) s.answers)
        (s.way.callers.set t ⟨request, next⟩) (s.sessions.set t session') := by
  have untouched : ∀ t, Untouched s.way.streams (s.way.streams.set k { stream with send := send })
      s.answers s.answers t := untouched_stream lookup rfl
  obtain ⟨answer, found, before⟩ := inv.answers.partner lookup
  have reads : Reads s.way.streams s.answers t session k := waiting.met.1
  exact ⟨inv.answers.set_left found (before.fed grows), caller_kept _ inv waiting (fun k _ => untouched k) same
    (met (reads.frame (untouched t)))⟩

theorem server_kept {s : State} {k : Nat} {stream next : TunnelStream}
    {e : RequestDelivery.ServerEvent} (inv : Inv crates urls base provider s)
    (lookup : s.way.streams[k]? = some stream)
    (moved : handle crates urls base stream e = some next) :
    Paired (Answering crates urls base provider (s.way.sent ++ sends k stream e))
        (s.way.streams.set k next) (s.answers.modify k (·.settle (outcomeOf stream.handler e))) ∧
      Paired (Waiting crates (s.way.streams.set k next)
        (s.answers.modify k (·.settle (outcomeOf stream.handler e)))) s.way.callers s.sessions := by
  obtain ⟨answer, found, before⟩ := inv.answers.partner lookup
  obtain ⟨opener, _, _, _⟩ := RequestDelivery.handle_moves moved
  rw [modify_set found]
  constructor
  · refine inv.answers.set ?_ ?_
    · intro j other answer' apart answering
      refine answering.elsewhere ?_
      intro e' member
      rcases RequestDelivery.handle_sends k moved with silent | ⟨_, _, _, asked, _⟩
      · simp [silent] at member
      · rw [asked, List.mem_singleton] at member
        exact member ▸ Ne.symm apart
    · exact answering_server before (inv.delivering.carrying k stream lookup).handler moved
  · refine inv.sessions.imp fun t _ _ _ _ waiting => waiting.frame ?_
    apply (untouched_stream lookup opener t).trans
    apply untouched_answer found
    intro _
    cases outcomeOf stream.handler e <;> rfl

theorem wrote_kept {s : State} {t k : Nat} {request : LocalRequest} {todo : Bytes}
    {next : CallerPhase} {stream : TunnelStream} {outcome : Timed (Except Unit Unit)}
    (inv : Inv crates urls base provider s)
    (found : s.way.callers[t]? = some ⟨request, .writing k todo⟩)
    (lookup : s.way.streams[k]? = some stream)
    (ends : outcome = .finished (.ok ()) ∧ next = .copying k ∨
      outcome ≠ .finished (.ok ()) ∧ next = .ended) :
    Paired (Answering crates urls base provider s.way.sent)
        (s.way.streams.set k { stream with send := stream.send.finish }) s.answers ∧
      Paired (Waiting crates (s.way.streams.set k { stream with send := stream.send.finish })
          s.answers)
        (s.way.callers.set t ⟨request, next⟩) (s.sessions.modify t (·.wrote outcome)) := by
  obtain ⟨session, mine, waiting⟩ := inv.sessions.partner found
  rw [modify_set mine]
  refine client_kept _ inv waiting lookup List.prefix_rfl rfl ?_
  intro reads
  rcases ends with ⟨rfl, rfl⟩ | ⟨failed, rfl⟩
  · exact ⟨⟨reads.opened, reads.own, reads.copied, reads.full⟩, rfl⟩
  · refine Or.inl ⟨?_, waiting.met.2.2⟩
    intro same
    exact failed (Option.some.inj same)

theorem way_kept {s : State} {e : RequestDelivery.Event} {way : RequestDelivery.State}
    (inv : Inv crates urls base provider s)
    (h : RequestDelivery.step crates urls base reconnectAttempts s.way e = some way) :
    Paired (Answering crates urls base provider way.sent) way.streams (answersAfter s way e) ∧
      Paired (Waiting crates way.streams (answersAfter s way e)) way.callers
        (sessionsAfter s way e) := by
  cases e with
  | session pieces =>
    simp only [RequestDelivery.step] at h
    split at h
    · rename_i raw rest read
      refine begin_kept inv rfl ?_ (by simp) h
      exact fun _ => ⟨rest, read⟩
    · contradiction
  | healthCheck => exact begin_kept inv rfl (by simp) (fun _ => rfl) h
  | manager t action =>
    simp only [RequestDelivery.step] at h
    split at h
    · rename_i request found
      rw [Option.bind_eq_some_iff] at h
      obtain ⟨manager, _, h⟩ := h
      rw [Option.map_eq_some_iff] at h
      obtain ⟨task, lookup, settled⟩ := h
      have same : way.manager.tasks[t]? = some task := by
        rw [← settled]
        cases task.phase <;> exact lookup
      have kept := @settle_kept _ _ _ _ s t action request manager task.phase inv found way
        settled.symm
      simpa only [sessionsAfter, same] using kept
    · contradiction
  | write t n =>
    simp only [RequestDelivery.step] at h
    split at h
    · rename_i request k todo found
      rw [Option.bind_eq_some_iff] at h
      obtain ⟨stream, lookup, h⟩ := h
      rw [Option.map_eq_some_iff] at h
      obtain ⟨⟨left, send⟩, part, rfl⟩ := h
      obtain ⟨session, mine, waiting⟩ := inv.sessions.partner found
      obtain ⟨_, _, rfl⟩ := write_part_iff.mp part
      have grows : stream.send.written <+: (stream.send.put (todo.take n)).written := by
        rw [put_written]
        exact List.prefix_append _ _
      have kept := client_kept (.writing k left) inv waiting lookup grows rfl
        fun reads => ⟨reads, waiting.met.2⟩
      rw [set_same mine] at kept
      exact kept
    · contradiction
  | finish t =>
    simp only [RequestDelivery.step] at h
    split at h
    · rename_i request k found
      rw [Option.map_eq_some_iff] at h
      obtain ⟨stream, lookup, rfl⟩ := h
      exact wrote_kept inv found lookup (Or.inl ⟨rfl, rfl⟩)
    · contradiction
  | abandon t =>
    simp only [RequestDelivery.step] at h
    split at h
    · rename_i request k todo found
      rw [Option.map_eq_some_iff] at h
      obtain ⟨stream, lookup, rfl⟩ := h
      have writing : isWriting s t = true := by simp [isWriting, found]
      simp only [sessionsAfter, writing, if_true]
      exact wrote_kept inv found lookup (Or.inr ⟨by simp, rfl⟩)
    · rename_i request k found
      obtain ⟨session, mine, waiting⟩ := inv.sessions.partner found
      have writing : isWriting s t = false := by simp [isWriting, found]
      rw [← Option.some.inj h]
      simp only [sessionsAfter, writing, Bool.false_eq_true, if_false]
      have kept := caller_kept .ended inv waiting (fun k _ => untouched_refl _ _ k) rfl
        (Or.inr ⟨k, waiting.met⟩)
      rw [set_same mine] at kept
      exact ⟨inv.answers, kept⟩
    · contradiction
  | server k e =>
    simp only [RequestDelivery.step] at h
    rw [Option.bind_eq_some_iff] at h
    obtain ⟨stream, lookup, h⟩ := h
    rw [Option.map_eq_some_iff] at h
    obtain ⟨next, moved, rfl⟩ := h
    simp only [answersAfter, lookup]
    exact server_kept inv lookup moved

theorem chunks_snoc {reads : List (Timed TunnelRead)} (carried : reads.all carries = true)
    (read : Timed TunnelRead) : chunks (reads ++ [read]) = chunks reads ++ chunks [read] := by
  induction reads with
  | nil => rfl
  | cons first reads ih =>
    rw [List.all_cons, Bool.and_eq_true] at carried
    obtain ⟨here, rest⟩ := carried
    cases first with
    | elapsed => simp [carries] at here
    | finished first =>
      cases first with
      | data bytes =>
        have some_left : bytes ≠ [] := by simpa [carries] using here
        simp only [List.cons_append, chunks, if_neg some_left, ih rest]
      | ended => simp [carries] at here
      | failed => simp [carries] at here

theorem read_of_takes {down down' : Channel} {e : ReadEvent} {read : Timed TunnelRead}
    (h : readOf down e = some (read, down')) :
    down'.written = down.written ∧ down'.consumed = down.consumed ++ (chunks [read]).flatten ∧
      read ≠ .finished (.data []) := by
  cases e with
  | data n =>
    simp only [readOf] at h
    split at h
    · contradiction
    · rename_i some_left
      cases h
      refine ⟨take_written _ n, ?_, by simpa using some_left⟩
      simp [chunks, some_left, Channel.take]
  | ended =>
    simp only [readOf, Option.ite_none_right_eq_some] at h
    cases h.2
    simp [chunks]
  | failed =>
    cases h
    simp [chunks]
  | elapsed =>
    cases h
    simp [chunks]

theorem answer_kept {s : State} {k : Nat} {stream : TunnelStream} {answer : Answer}
    {down : Channel} (inv : Inv crates urls base provider s)
    (lookup : s.way.streams[k]? = some stream) (found : s.answers[k]? = some answer)
    (kept : Answering crates urls base provider s.way.sent k stream { answer with down := down })
    (unread : down.consumed = answer.down.consumed) :
    Inv crates urls base provider
      { s with answers := s.answers.set k { answer with down := down } } where
  delivering := inv.delivering
  answers := inv.answers.set_right lookup kept
  sessions := inv.sessions.imp fun _ _ _ _ _ waiting =>
    waiting.frame (untouched_answer found fun _ => unread)

theorem opened_for {streams : List TunnelStream} {t k : Nat}
    (own : (openers streams)[k]? = some t) :
    ∃ stream, streams[k]? = some stream ∧ stream.opener = t := by
  rw [openers, List.getElem?_map, Option.map_eq_some_iff] at own
  exact own

theorem read_kept {s : State} {t k : Nat} {request : LocalRequest} {session : Session}
    {answer : Answer} {down : Channel} {e : ReadEvent} {read : Timed TunnelRead}
    (inv : Inv crates urls base provider s)
    (found : s.way.callers[t]? = some ⟨request, .copying k⟩) (mine : s.sessions[t]? = some session)
    (there : s.answers[k]? = some answer) (carried : session.reads.all carries = true)
    (h : readOf answer.down e = some (read, down)) :
    Inv crates urls base provider
      { s with
        answers := s.answers.set k { answer with down := down }
        sessions := s.sessions.set t { session with reads := session.reads ++ [read] } } := by
  obtain ⟨same, taken, some_left⟩ := read_of_takes h
  have waiting := inv.sessions.each t _ _ found mine
  obtain ⟨reads, wrote⟩ : Reads s.way.streams s.answers t session k ∧ _ := waiting.met
  obtain ⟨stream, lookup, _⟩ := opened_for reads.own
  have others : ∀ j, j ≠ t → Untouched s.way.streams s.way.streams s.answers
      (s.answers.set k { answer with down := down }) j := by
    intro j apart
    apply untouched_answer there
    intro own
    rw [reads.own, Option.some.injEq] at own
    exact absurd own.symm apart
  have copied : (chunks session.reads).flatten = answer.down.consumed := by
    obtain ⟨answer', there', copied⟩ := reads.copied
    rw [there, Option.some.injEq] at there'
    exact there' ▸ copied
  constructor
  · exact inv.delivering
  · exact inv.answers.set_right lookup ((inv.answers.each k _ _ lookup there).down same)
  · have later : Reads s.way.streams (s.answers.set k { answer with down := down }) t
        { session with reads := session.reads ++ [read] } k := by
      refine ⟨reads.opened, reads.own, ⟨_, lookup_set there, ?_⟩, ?_⟩
      · rw [chunks_snoc carried, List.flatten_append, copied, taken]
      · simp only [List.mem_append, List.mem_singleton, not_or]
        exact ⟨reads.full, Ne.symm some_left⟩
    have kept := caller_kept (.copying k) inv waiting others (by rfl) ⟨later, wrote⟩
    rwa [set_same found] at kept

theorem inv_step {s t : State} {e : Event} (inv : Inv crates urls base provider s)
    (h : step crates urls base reconnectAttempts provider s e = some t) :
    Inv crates urls base provider t := by
  cases e with
  | way e =>
    rw [step, Option.map_eq_some_iff] at h
    obtain ⟨way, moved, rfl⟩ := h
    obtain ⟨answers, sessions⟩ := way_kept inv moved
    exact ⟨RequestDelivery.delivering_step inv.delivering moved, answers, sessions⟩
  | expire t =>
    simp only [step, Option.ite_none_right_eq_some] at h
    obtain ⟨writing, h⟩ := h
    rw [Option.map_eq_some_iff] at h
    obtain ⟨way, moved, rfl⟩ := h
    have delivering := RequestDelivery.delivering_step inv.delivering moved
    unfold isWriting at writing
    split at writing
    · rename_i request k todo found
      simp only [RequestDelivery.step, found] at moved
      rw [Option.map_eq_some_iff] at moved
      obtain ⟨stream, lookup, rfl⟩ := moved
      have failed : (Timed.elapsed : Timed (Except Unit Unit)) ≠ .finished (.ok ()) := by simp
      obtain ⟨answers, sessions⟩ := wrote_kept inv found lookup (Or.inr ⟨failed, rfl⟩)
      exact ⟨delivering, answers, sessions⟩
    · contradiction
  | respond k n =>
    simp only [step] at h
    split at h
    · rename_i stream answer lookup found
      simp only [Option.ite_none_right_eq_some] at h
      obtain ⟨⟨_, ready⟩, h⟩ := h
      rw [Option.map_eq_some_iff] at h
      obtain ⟨⟨left, down⟩, part, rfl⟩ := h
      have before := inv.answers.each k stream answer lookup found
      refine answer_kept inv lookup found (answering_respond before ready part) ?_
      obtain ⟨_, _, rfl⟩ := write_part_iff.mp part
      exact put_consumed _ _
    · contradiction
  | close k =>
    simp only [step] at h
    split at h
    · rename_i stream answer lookup found
      simp only [Option.ite_none_right_eq_some, Option.some.injEq] at h
      obtain ⟨_, rfl⟩ := h
      have before := inv.answers.each k stream answer lookup found
      exact answer_kept inv lookup found (before.down (finish_written _)) (finish_consumed _)
    · contradiction
  | read t e =>
    simp only [step] at h
    split at h
    · rename_i request k session found mine
      rw [Option.bind_eq_some_iff] at h
      obtain ⟨answer, there, h⟩ := h
      simp only [Option.ite_none_right_eq_some] at h
      obtain ⟨carried, h⟩ := h
      rw [Option.map_eq_some_iff] at h
      obtain ⟨⟨read, down⟩, brought, rfl⟩ := h
      exact read_kept inv found mine there carried brought
    · contradiction

theorem inv_run {s : State}
    (reached : (system crates urls base reconnectAttempts provider).Reachable s) :
    Inv crates urls base provider s := by
  apply state_invariant (Inv crates urls base provider) _ _ s reached
  · have start := @RequestDelivery.delivering_run crates urls base reconnectAttempts _ ⟨[], rfl⟩
    exact ⟨start, paired_nil _, paired_nil _⟩
  · intro s e t inv h
    exact inv_step inv h

theorem validated_iff {result : Except HttpRequestError OpenAiHttpRequest}
    {request : OpenAiHttpRequest} {url : Url} :
    Handler.validated urls base result = .forwarding request url ↔
      result = .ok request ∧ isHealthRequest request = false ∧
        providerRequestUrlFromBase urls base request.target = .ok url := by
  constructor
  · intro forwarding
    unfold Handler.validated at forwarding
    split at forwarding
    · contradiction
    · split at forwarding
      · contradiction
      · rename_i other
        split at forwarding
        · contradiction
        · rename_i built
          cases forwarding
          exact ⟨rfl, by simpa using other, built⟩
  · intro h
    obtain ⟨rfl, other, built⟩ := h
    simp [Handler.validated, other, built]

theorem met_cases {streams : List TunnelStream} {answers : List Answer} {t : Nat}
    {caller : Caller} {session : Session} {opened : Except Unit Unit}
    {request : Timed (Except Unit Unit)} {reads : List (Timed TunnelRead)}
    (waiting : Waiting crates streams answers t caller session)
    (begun : session.met = some (opened, request, reads)) :
    reads = [] ∨ ∃ k, Reads streams answers t session k ∧ opened = .ok () ∧
      request = .finished (.ok ()) ∧ reads = session.reads := by
  have copies : ∀ k, Reads streams answers t session k →
      session.request = some (.finished (.ok ())) → opened = .ok () ∧
        request = .finished (.ok ()) ∧ reads = session.reads := by
    intro k own wrote
    simp only [Session.met, own.opened, wrote, Option.some.injEq, Prod.mk.injEq] at begun
    exact ⟨begun.1.symm, begun.2.1.symm, begun.2.2.symm⟩
  obtain ⟨local_, phase⟩ := caller
  have met := waiting.met
  cases phase with
  | opening =>
    have start : session = Session.start session.pieces := met
    rw [start] at begun
    contradiction
  | writing k todo =>
    obtain ⟨own, unwritten, _⟩ : Reads streams answers t session k ∧ _ := met
    simp [Session.met, own.opened, unwritten] at begun
  | copying k => exact Or.inr ⟨k, met.1, copies k met.1 met.2⟩
  | ended =>
    rcases met with ⟨_, silent⟩ | ⟨k, own, wrote⟩
    · left
      unfold Session.met at begun
      split at begun
      · cases begun
        rfl
      · cases begun
        exact silent
      · contradiction
    · exact Or.inr ⟨k, own, copies k own wrote⟩

/-- The stream that a caller has read something from: its answer is known, it was made for
    this caller's bytes, and it began after the provider was asked. -/
theorem reads_answer {s : State} {t k : Nat} {caller : Caller} {session : Session}
    (inv : Inv crates urls base provider s) (found : s.way.callers[t]? = some caller)
    (own : Reads s.way.streams s.answers t session k)
    (some_read : (chunks session.reads).flatten ≠ []) :
    ∃ stream answer outcome, s.way.streams[k]? = some stream ∧ s.answers[k]? = some answer ∧
      answer.outcome = some outcome ∧
      Answering crates urls base provider s.way.sent k stream answer ∧
      hasAnswer stream.handler = true ∧ stream.send.written <+: caller.request.bytes ∧
      (chunks session.reads).flatten <+:
        tunnelBytes (served crates urls base provider k outcome) := by
  obtain ⟨answer, there, copied⟩ := own.copied
  obtain ⟨stream, lookup, rfl⟩ := opened_for own.own
  have answering := inv.answers.each k stream answer lookup there
  have begins : (chunks session.reads).flatten <+: answer.down.written :=
    copied ▸ List.prefix_append _ _
  have some_written : answer.down.written ≠ [] := by
    intro nothing
    rw [nothing, List.prefix_nil] at begins
    exact some_read begins
  have ready : hasAnswer stream.handler = true := by
    by_contra waiting
    exact some_written (answering.waits (by simpa using waiting))
  obtain ⟨request, within, carried⟩ := (inv.delivering.carrying k stream lookup).opener
  rw [RequestDelivery.State.requests, List.getElem?_map, found, Option.map_some,
    Option.some.injEq] at within
  cases known : answer.outcome with
  | none => exact absurd (unanswered answering known).1 some_written
  | some outcome =>
    have bytes := answering.begins
    rw [Answer.bytes, known] at bytes
    exact ⟨stream, answer, outcome, lookup, there, known, answering, ready, within ▸ carried,
      begins.trans bytes⟩

def asked (e : ProviderSend) : ProviderRequest :=
  ⟨e.request.method, e.url, attachedHeaders e.request.headers, e.request.body⟩

theorem answer_asked {sent : List ProviderSend} {k : Nat} {stream : TunnelStream}
    {answer : Answer} {outcome : Nat × Timed (List Piece)} {request : ProviderRequest}
    (answering : Answering crates urls base provider sent k stream answer)
    (ready : hasAnswer stream.handler = true) (known : answer.outcome = some outcome)
    (asks : providerSends (served crates urls base provider k outcome) = [request]) :
    ∃ e ∈ sent, e.stream = k ∧ asked e = request ∧ ∃ pieces,
      pieceBytes pieces <+: stream.send.written ∧
      readHttpRequest crates (BufReader.new pieces) = .ok e.request := by
  obtain ⟨permits, delivery⟩ := outcome
  rcases @serve_cases crates urls base permits ⟨delivery, provider k⟩ with
    ⟨none, _⟩ | ⟨pieces, received, request', delivered, read, other, built, sends, _⟩
  · rw [served, none] at asks
    contradiction
  · rw [served, sends, List.cons.injEq] at asks
    obtain ⟨rfl, _⟩ := asks
    obtain ⟨url, found, built⟩ := bind_ok built
    cases built
    have delivered : delivery = .finished pieces := delivered
    rw [delivered] at known
    have forwards : Forwards crates urls base answer.outcome received url :=
      ⟨permits, pieces, known, validated_iff.mpr ⟨read, other, found⟩⟩
    rcases (answering.asks received url).mpr forwards with forwarding | member
    · rw [forwarding] at ready
      contradiction
    · exact ⟨_, member, rfl, rfl, pieces, answering.arrived permits pieces known, read⟩

theorem sent_once {s : State} {t : Nat} {e : ProviderSend}
    (inv : Inv crates urls base provider s) (member : e ∈ s.way.sent)
    (own : (openers s.way.streams)[e.stream]? = some t) :
    ∀ e' ∈ s.way.sent, (openers s.way.streams)[e'.stream]? = some t ↔ e' = e := by
  intro e' member'
  constructor
  · intro mine
    have same := RequestDelivery.opener_injective inv.delivering.apart mine own
    exact List.inj_on_of_nodup_map inv.delivering.once member' member same
  · intro same
    exact same ▸ own

/-- Who has made a response that a caller reads: one of the two processes, or the
    provider, in full, in answer to this caller's request, which has gone out for it once. -/
inductive AnswerTo (crates : HttpCrates)
    (provider : Nat → ProviderRequest → Timed (Except Unit ProviderResponse)) (s : State)
    (t : Nat) (raw : Bytes) : Message → Prop where
  | reply (reply : Nat × String × String) (own : reply ∈ serverReplies ++ ClientSession.ownErrors) :
      AnswerTo crates provider s t raw (plainMessage reply)
  | provider (e : ProviderSend) (pieces : List Piece) (response : ProviderResponse)
      (member : e ∈ s.way.sent)
      (once : ∀ e' ∈ s.way.sent, (openers s.way.streams)[e'.stream]? = some t ↔ e' = e)
      (whole : pieceBytes pieces = raw)
      (read : readHttpRequest crates (BufReader.new pieces) = .ok e.request)
      (answered : provider e.stream (asked e) = .finished (.ok response))
      (ended : response.failed = false) : AnswerTo crates provider s t raw (wholeMessage response)

/-- Whatever the other callers do, and wherever streams break off, an application that
    reads a complete response has the answer to the request that it has sent itself. -/
theorem answers_not_crossed (reasons : PlainReasons crates) {s : State}
    (reached : (system crates urls base reconnectAttempts provider).Reachable s) {t : Nat}
    {caller : Caller} {session : Session} (found : s.way.callers[t]? = some caller)
    (mine : s.sessions[t]? = some session) (local_ : caller.request.origin = .session)
    {world : ClientSession.World} (begun : session.world = some world) {method : Bytes}
    (other : method ≠ text "HEAD")
    (regular : ∀ e ∈ s.way.sent, ∀ response,
      provider e.stream (asked e) = .finished (.ok response) → Regular method response)
    {message : Message}
    (parsed : parseMessage method (localBytes (handleOpenAiClientStream crates world)) =
      some message) :
    ClientSession.Accepted crates world caller.request.bytes ∧
      AnswerTo crates provider s t caller.request.bytes message := by
  have inv := inv_run reached
  have waiting := inv.sessions.each t caller session found mine
  rw [Session.world, Option.map_eq_some_iff] at begun
  obtain ⟨⟨opened, request, reads⟩, met, rfl⟩ := begun
  obtain ⟨rest, accepted⟩ := waiting.accepted local_
  refine ⟨⟨session.pieces, rest, rfl, accepted⟩, ?_⟩
  rcases ClientSession.session_bytes crates ⟨.finished session.pieces, opened, request, reads⟩ with
    answered | begins
  · obtain ⟨reply, member, _, rfl⟩ := own_error_message answered other parsed
    exact AnswerTo.reply reply (List.mem_append_right _ member)
  have some_read : (chunks reads).flatten ≠ [] := by
    intro nothing
    have bytes : localBytes _ <+: (chunks reads).flatten := begins
    rw [nothing, List.prefix_nil] at bytes
    rw [bytes, parse_message_nil] at parsed
    contradiction
  rcases met_cases waiting met with nothing | ⟨k, own, _, _, rfl⟩
  · rw [nothing] at some_read
    exact absurd rfl some_read
  obtain ⟨stream, answer, outcome, lookup, _, known, answering, ready, carried, answer_begins⟩ :=
    reads_answer inv found own some_read
  let x : Exchange :=
    ⟨⟨.finished session.pieces, opened, request, session.reads⟩, outcome.1, outcome.2, provider k⟩
  have regular' : ∀ request response, providerSends (x.serve crates urls base) = [request] →
      x.server.send request = .finished (.ok response) → Regular method response := by
    intro request response asks outcome
    obtain ⟨e, member, rfl, rfl, _⟩ := answer_asked answering ready known asks
    exact regular e member response outcome
  cases answer_origin reasons other regular' (begins.trans answer_begins) parsed with
  | client reply member _ => exact AnswerTo.reply reply (List.mem_append_right _ member)
  | server reply member _ => exact AnswerTo.reply reply (List.mem_append_left _ member)
  | provider request response asks outcome ended =>
    obtain ⟨e, member, rfl, rfl, pieces, arrived, read⟩ :=
      answer_asked answering ready known asks
    have whole := RequestDelivery.read_whole ⟨_, _, accepted⟩ (arrived.trans carried) read
    exact AnswerTo.provider e pieces response member (sent_once inv member own.own) whole read
      outcome ended

theorem answer_passes {s : State} {k t : Nat} {stream : TunnelStream} {request : LocalRequest}
    {outcome : Nat × Timed (List Piece)} {pieces : List Piece} {opened : Option (Except Unit Unit)}
    {wrote : Option (Timed (Except Unit Unit))}
    (lookup : s.way.streams[k]? = some stream) (ready : hasAnswer stream.handler = true)
    (fresh : s.answers[k]? = some ⟨some outcome, Channel.fresh⟩)
    (found : s.way.callers[t]? = some ⟨request, .copying k⟩)
    (mine : s.sessions[t]? = some ⟨pieces, opened, wrote, []⟩) {bytes : Bytes}
    (answer : tunnelBytes (served crates urls base provider k outcome) = bytes) :
    [.respond k bytes.length, .read t (.data bytes.length)].foldlM
        (step crates urls base reconnectAttempts provider) s =
      some { s with
        answers := s.answers.set k ⟨some outcome, ⟨bytes, [], false⟩⟩
        sessions := s.sessions.set t ⟨pieces, opened, wrote, [.finished (.data bytes)]⟩ } := by
  have some_bytes : bytes ≠ [] := answer ▸ serve_some _ _
  have part : writePart bytes.length bytes Channel.fresh = some ([], ⟨[], bytes, false⟩) := by
    rw [write_part_iff]
    have := List.length_pos_iff.mpr some_bytes
    simp [Channel.put, Channel.fresh, this]
  have responded : step crates urls base reconnectAttempts provider s (.respond k bytes.length) =
      some { s with answers := s.answers.set k ⟨some outcome, ⟨[], bytes, false⟩⟩ } := by
    simp only [step, lookup, fresh, Answer.bytes, answer, ready]
    change (writePart bytes.length bytes Channel.fresh).map _ = _
    rw [part]
    rfl
  have brought : readOf ⟨[], bytes, false⟩ (.data bytes.length) =
      some (.finished (.data bytes), ⟨bytes, [], false⟩) := by
    simp [readOf, Channel.take, some_bytes]
  rw [List.foldlM_cons, responded]
  simp only [Option.bind_eq_bind, Option.bind_some, List.foldlM_cons, List.foldlM_nil, step, found,
    mine, lookup_set fresh, List.all_nil, if_true, brought, Option.map_some, List.set_set]
  rfl

def exampleProvider : Nat → ProviderRequest → Timed (Except Unit ProviderResponse) :=
  fun _ _ => .finished (.ok exampleAnswer)

def exampleSystem : System State Event :=
  system exampleCrates exampleUrlCrate exampleBase 1 exampleProvider

def exampleOutcome : Nat × Timed (List Piece) := (1, .finished [examplePiece])

def exampleAnswerBytes : Bytes :=
  tunnelBytes (served exampleCrates exampleUrlCrate exampleBase exampleProvider 0 exampleOutcome)

def exampleRun : List Event :=
  [.way (.session [examplePiece])] ++ exampleClient.map .way ++ [.way (.server 0 .read)] ++
    [.way (.server 0 .send)] ++
    [.respond 0 exampleAnswerBytes.length, .read 0 (.data exampleAnswerBytes.length)]

def exampleState (handler : Handler) (sent : List ProviderSend) (answer : Answer)
    (reads : List (Timed TunnelRead)) : State :=
  ⟨RequestDelivery.exampleDelivered handler sent, [answer],
    [⟨[examplePiece], some (.ok ()), some (.finished (.ok ())), reads⟩]⟩

def exampleEnd (request : OpenAiHttpRequest) (url : Url) : State :=
  exampleState .sent [⟨0, request, url⟩] ⟨some exampleOutcome, ⟨exampleAnswerBytes, [], false⟩⟩
    [.finished (.data exampleAnswerBytes)]

theorem example_client_run :
    (exampleClient.map .way).foldlM exampleSystem.step
      ⟨⟨⟨ConnectionManager.connect.manager, [⟨.connection, 1⟩], [.dialed ⟨1, 0⟩]⟩,
        [⟨⟨.session, exampleBytes⟩, .opening⟩], [], [], []⟩, [], [Session.start [examplePiece]]⟩ =
      some (exampleState (.reading [examplePiece]) [] Answer.fresh []) := by
  rfl

theorem example_run : ∃ request url, exampleSystem.replay exampleRun =
    some (exampleEnd request url) := by
  obtain ⟨⟨rest, accepted⟩, request, url, validated⟩ := RequestDelivery.example_reads
  have session : exampleSystem.step exampleSystem.init (.way (.session [examplePiece])) =
      some ⟨⟨⟨ConnectionManager.connect.manager, [⟨.connection, 1⟩], [.dialed ⟨1, 0⟩]⟩,
        [⟨⟨.session, exampleBytes⟩, .opening⟩], [], [], []⟩, [],
        [Session.start [examplePiece]]⟩ := by
    simp only [exampleSystem, system, delivery, step, RequestDelivery.step, accepted]
    rfl
  have written : exampleSystem.replay
      ([.way (.session [examplePiece])] ++ exampleClient.map .way) =
      some (exampleState (.reading [examplePiece]) [] Answer.fresh []) := by
    have begun : exampleSystem.replay [.way (.session [examplePiece])] = _ :=
      replay_step (replay_nil exampleSystem) session
    rw [replay_append, begun, Option.bind_some]
    exact example_client_run
  have read : exampleSystem.step (exampleState (.reading [examplePiece]) [] Answer.fresh [])
      (.way (.server 0 .read)) =
      some (exampleState (.forwarding request url) [] ⟨some exampleOutcome, Channel.fresh⟩ []) := by
    rw [← validated]
    rfl
  have sent : exampleSystem.replay ([.way (.session [examplePiece])] ++ exampleClient.map .way ++
      [.way (.server 0 .read)] ++ [.way (.server 0 .send)]) =
      some (exampleState .sent [⟨0, request, url⟩] ⟨some exampleOutcome, Channel.fresh⟩ []) :=
    replay_step (replay_step written read) rfl
  refine ⟨request, url, ?_⟩
  rw [exampleRun, replay_append, sent, Option.bind_some]
  exact answer_passes rfl rfl rfl rfl rfl rfl

def exampleWorld : ClientSession.World :=
  ⟨.finished [examplePiece], .ok (), .finished (.ok ()), [.finished (.data exampleAnswerBytes)]⟩

theorem example_message :
    parseMessage (text "POST") (localBytes (handleOpenAiClientStream exampleCrates exampleWorld)) =
      some (wholeMessage exampleAnswer) := by
  obtain ⟨⟨rest, accepted⟩, request, url, validated⟩ := RequestDelivery.example_reads
  obtain ⟨read, other, found⟩ := validated_iff.mp validated
  have some_answer : exampleAnswerBytes ≠ [] := serve_some _ _
  have built : providerRequestBuilder exampleUrlCrate exampleBase request =
      .ok ⟨request.method, url, attachedHeaders request.headers, request.body⟩ := by
    rw [providerRequestBuilder, found]
    rfl
  have lossless : Lossless exampleCrates exampleUrlCrate exampleBase
      ⟨exampleWorld, 1, ⟨.finished [examplePiece], exampleProvider 0⟩⟩ := {
    opened := rfl
    request := rfl
    free := by decide
    up := ⟨_, _, ⟨_, rest, rfl, accepted⟩, rfl, by simp [pieceBytes, examplePiece]⟩
    down := by
      simp only [exampleWorld, chunks, if_neg some_answer, List.flatten_cons, List.flatten_nil,
        List.append_nil]
      rfl }
  rw [(lossless_handled lossless rfl read).1]
  exact answered_message example_reasons other built rfl example_regular (Or.inl (by decide))

theorem answers_not_crossed_example :
    ∃ s, exampleSystem.replay exampleRun = some s ∧
      AnswerTo exampleCrates exampleProvider s 0 exampleBytes (wholeMessage exampleAnswer) := by
  obtain ⟨request, url, run⟩ := example_run
  have regular : ∀ e ∈ (exampleEnd request url).way.sent, ∀ response,
      exampleProvider e.stream (asked e) = .finished (.ok response) →
        Regular (text "POST") response := by
    intro e _ response answered
    cases answered
    exact example_regular
  have found : (exampleEnd request url).way.callers[0]? =
      some ⟨⟨.session, exampleBytes⟩, .copying 0⟩ := rfl
  have mine : (exampleEnd request url).sessions[0]? = some ⟨[examplePiece], some (.ok ()),
      some (.finished (.ok ())), [.finished (.data exampleAnswerBytes)]⟩ := rfl
  have answer := answers_not_crossed example_reasons ⟨exampleRun, run⟩ found mine rfl
    (show Session.world _ = some exampleWorld from rfl)
    (show text "POST" ≠ text "HEAD" by decide) regular example_message
  exact ⟨_, run, answer.2⟩

theorem arrived_chunks {reads : List (Timed TunnelRead)} (full : .finished (.data []) ∉ reads) :
    arrived reads = (chunks reads).flatten := by
  induction reads with
  | nil => rfl
  | cons read reads ih =>
    rw [List.mem_cons, not_or] at full
    cases read with
    | elapsed => rfl
    | finished read =>
      cases read with
      | data bytes =>
        have some_left : bytes ≠ [] := by
          rintro rfl
          exact full.1 rfl
        rw [arrived, ih full.2, chunks, if_neg some_left, List.flatten_cons]
      | ended => rfl
      | failed => rfl

theorem checks_unsent (health : ReadsHealth crates) {s : State} {t : Nat} {caller : Caller}
    (inv : Inv crates urls base provider s) (found : s.way.callers[t]? = some caller)
    (request : caller.request.bytes = healthCheckBytes) :
    ∀ e ∈ s.way.sent, (openers s.way.streams)[e.stream]? ≠ some t := by
  intro e member own
  obtain ⟨stream, lookup, _⟩ := inv.delivering.sent e member
  obtain ⟨answer, _, answering⟩ := inv.answers.partner lookup
  obtain ⟨permits, pieces, known, validated⟩ :=
    (answering.asks e.request e.url).mp (Or.inr member)
  obtain ⟨read, other, _⟩ := validated_iff.mp validated
  obtain ⟨mine, within, carried⟩ := (inv.delivering.carrying e.stream stream lookup).opener
  rw [openers, List.getElem?_map, lookup, Option.map_some, Option.some.injEq] at own
  rw [own, RequestDelivery.State.requests, List.getElem?_map, found, Option.map_some,
    Option.some.injEq] at within
  rw [← within, request] at carried
  by_cases whole : pieceBytes pieces = healthCheckBytes
  · obtain ⟨received, again, yes⟩ := health_read health whole
    rw [read, Except.ok.injEq] at again
    rw [again, yes] at other
    contradiction
  · obtain ⟨err, cut⟩ := health_cut health
      ((answering.arrived permits pieces known).trans carried) whole
    rw [read] at cut
    contradiction

/-- Among any other traffic, a health check that passes has got its answer from a handler
    that has read its request, and no health check costs a request to the provider. -/
theorem health_checks_apart (health : ReadsHealth crates) {s : State}
    (reached : (system crates urls base reconnectAttempts provider).Reachable s) {t : Nat}
    {caller : Caller} {session : Session} (found : s.way.callers[t]? = some caller)
    (mine : s.sessions[t]? = some session) (checks : caller.request.origin = .healthCheck) :
    (∀ e ∈ s.way.sent, (openers s.way.streams)[e.stream]? ≠ some t) ∧
      ∀ check, session.check = some check → runOpenAiHealthCheck check = .ok () →
        ∃ (k : Nat) (answer : Answer) (permits : Nat) (pieces : List Piece),
          (openers s.way.streams)[k]? = some t ∧ s.answers[k]? = some answer ∧
          answer.outcome = some (permits, .finished pieces) ∧ permits ≠ 0 ∧
          pieceBytes pieces = healthCheckBytes := by
  have inv := inv_run reached
  have waiting := inv.sessions.each t caller session found mine
  have request := waiting.checks checks
  refine ⟨checks_unsent health inv found request, ?_⟩
  intro check begun passed
  rw [Session.check, Option.map_eq_some_iff] at begun
  obtain ⟨⟨opened, wrote, reads⟩, met, rfl⟩ := begun
  obtain ⟨_, _, gathered⟩ := (check_ok_iff _).mp passed
  obtain ⟨status, _⟩ := (gathered_status_iff reads).mp gathered
  have some_arrived : arrived reads ≠ [] := by
    intro nothing
    rw [nothing, List.prefix_nil] at status
    exact absurd status (by decide)
  rcases met_cases waiting met with nothing | ⟨k, own, _, _, rfl⟩
  · rw [nothing] at some_arrived
    exact absurd rfl some_arrived
  rw [arrived_chunks own.full] at some_arrived
  obtain ⟨_, answer, ⟨permits, delivery⟩, _, there, known, answering, _, carried, begins⟩ :=
    reads_answer inv found own some_arrived
  have linked : Linked crates urls base
      ⟨⟨opened, wrote, session.reads⟩, permits, ⟨delivery, provider k⟩⟩ := by
    constructor
    · intro pieces delivered
      have delivered : delivery = .finished pieces := delivered
      rw [delivered] at known
      exact request ▸ (answering.arrived permits pieces known).trans carried
    · change arrived session.reads <+: _
      rw [arrived_chunks own.full]
      exact begins
  obtain ⟨free, pieces, delivered, whole⟩ := check_reached health linked passed
  have delivered : delivery = .finished pieces := delivered
  exact ⟨k, answer, permits, pieces, own.own, there, delivered ▸ known, free, whole⟩

theorem example_check_some : healthCheckBytes ≠ [] := by decide

def examplePieceOfCheck : Piece := ⟨healthCheckBytes, example_check_some⟩

def exampleCheckClient : List Event :=
  [.way .healthCheck, .way (.manager 0 .lock), .way (.manager 0 .opened),
    .way (.write 0 healthCheckBytes.length), .way (.finish 0), .way (.server 0 .accept),
    .way (.server 0 (.receive healthCheckBytes.length))]

def exampleChecking (handler : Handler) (answer : Answer) (reads : List (Timed TunnelRead)) :
    State :=
  ⟨⟨⟨ConnectionManager.connect.manager, [⟨.returned ⟨1, 0⟩, 1⟩], [.dialed ⟨1, 0⟩]⟩,
      [⟨⟨.healthCheck, healthCheckBytes⟩, .copying 0⟩],
      [⟨0, ⟨1, 0⟩, ⟨healthCheckBytes, [], true⟩, handler⟩], [⟨0, 0, healthCheckBytes⟩], []⟩,
    [answer], [⟨[], some (.ok ()), some (.finished (.ok ())), reads⟩]⟩

def exampleReply : Bytes := plainResponse 200 "OK" "ok\n"

theorem health_checks_apart_example :
    ∃ s, exampleSystem.replay (exampleCheckClient ++ [.way (.server 0 .read)] ++
        [.respond 0 exampleReply.length, .read 0 (.data exampleReply.length)]) = some s ∧
      ∃ (k : Nat) (answer : Answer) (permits : Nat) (pieces : List Piece),
        (openers s.way.streams)[k]? = some 0 ∧ s.answers[k]? = some answer ∧
        answer.outcome = some (permits, .finished pieces) ∧ permits ≠ 0 ∧
        pieceBytes pieces = healthCheckBytes := by
  have whole : pieceBytes [examplePieceOfCheck] = healthCheckBytes := by
    simp [pieceBytes, examplePieceOfCheck]
  obtain ⟨received, again, yes⟩ := health_read example_reads_health whole
  have closed : Handler.validated exampleUrlCrate exampleBase
      (readHttpRequest exampleCrates (BufReader.new [examplePieceOfCheck])) = .closed := by
    simp [Handler.validated, again, yes]
  have answer : tunnelBytes (served exampleCrates exampleUrlCrate exampleBase exampleProvider 0
      (1, .finished [examplePieceOfCheck])) = exampleReply := by
    rw [served, (serve_permitted (by decide) _).1]
    exact (health_served rfl again yes).2
  have read : exampleSystem.replay (exampleCheckClient ++ [.way (.server 0 .read)]) =
      some (exampleChecking .closed
        ⟨some (1, .finished [examplePieceOfCheck]), Channel.fresh⟩ []) := by
    have written : exampleSystem.replay exampleCheckClient =
        some (exampleChecking (.reading [examplePieceOfCheck]) Answer.fresh []) := rfl
    apply replay_step written
    rw [← closed]
    rfl
  have run : exampleSystem.replay (exampleCheckClient ++ [.way (.server 0 .read)] ++
      [.respond 0 exampleReply.length, .read 0 (.data exampleReply.length)]) =
      some (exampleChecking .closed
        ⟨some (1, .finished [examplePieceOfCheck]), ⟨exampleReply, [], false⟩⟩
        [.finished (.data exampleReply)]) := by
    rw [replay_append, read, Option.bind_some]
    exact answer_passes rfl rfl rfl rfl rfl answer
  have passed : runOpenAiHealthCheck
      ⟨.ok (), .finished (.ok ()), [.finished (.data exampleReply)]⟩ = .ok () := by
    rw [check_ok_iff, gathered_status_iff]
    have all : arrived [.finished (.data exampleReply)] = exampleReply := by simp [arrived]
    rw [all]
    exact ⟨rfl, rfl, ok_bytes.1, Or.inl ok_bytes.2⟩
  exact ⟨_, run, (health_checks_apart example_reads_health ⟨_, run⟩ rfl rfl rfl).2 _ rfl passed⟩

end ResponseDelivery
