import TunnelAI.ExitPolicy

/-!
The client's side of one SOCKS connection, up to the relay, and the reply that it
gives to the application. What the application sends, what the timers do and what
the tunnel returns is an argument of the program. A session puts the program
together with the server's handler of the same stream: each side gets a beginning
of what the other has written.
-/
namespace SocksClient
open StreamReader TracedEffects StdNet Socks5 TunnelCodec
open ExitPolicy hiding World Event

/-- What happens to one connection: the bytes that the application sends before its
    end, which timers expire, which writes succeed, and what the tunnel returns. -/
structure World where
  application : Bytes
  handshakeInTime : Bool
  selectionWritten : Bool
  requestInTime : Bool
  opened : Timed (Except Unit Unit)
  sending : Timed (Except Unit Unit)
  /-- How much of the frame is on the tunnel when its write is broken off. -/
  sentPart : Nat
  response : Timed Bytes
  replyWritten : ReplyCode → Bool

inductive ClientEvent where
  | selection : Bytes → ClientEvent
  | tunnel : Bytes → ClientEvent
  | reply : ReplyCode → Bool → ClientEvent
  | finish
  | relay

abbrev Client := Traced ClientEvent String

variable (world : World)

def tryReply (code : ReplyCode) : Client Unit := emit (.reply code (world.replyWritten code))

def performSocksHandshake : Client (Option Bytes) :=
  if world.handshakeInTime then
    match negotiateNoAuth.run .io world.application with
    | .error _ => raise "SOCKS method negotiation failed"
    | .ok ((selection, result), rest) => do
      emit (.selection selection.1)
      if world.selectionWritten then
        match result with
        | .ok _ => return some rest
        | .error _ => raise "SOCKS method negotiation failed"
      else raise "SOCKS method negotiation failed"
  else return none

def readSocksConnectRequest (application : Bytes) : Client (Option ConnectRequest) :=
  if world.requestInTime then
    match readConnectRequest.run .io application with
    | .ok (request, _) => return some request
    | .error err => do
      tryReply world err.replyCode
      raise "read SOCKS request"
  else return none

def openTunnelStream : Client Bool :=
  match world.opened with
  | .finished (.ok _) => return true
  | .finished (.error _) => do
    tryReply world .generalFailure
    raise "open tunnel stream"
  | .elapsed => do
    tryReply world .ttlExpired
    return false

def sendTunnelRequest (request : ConnectRequest) : Client Bool :=
  match world.sending with
  | .finished (.ok _) => do
    emit (.tunnel (writeRequest request).1)
    match (writeRequest request).2 with
    | .ok _ => return true
    | .error _ =>
      tryReply world .generalFailure
      raise "write tunnel request"
  | .finished (.error _) => do
    emit (.tunnel ((writeRequest request).1.take world.sentPart))
    tryReply world .generalFailure
    raise "write tunnel request"
  | .elapsed => do
    emit (.tunnel ((writeRequest request).1.take world.sentPart))
    emit .finish
    tryReply world .ttlExpired
    return false

def readTunnelStatus : Client (Option ReplyCode) :=
  match world.response with
  | .finished bytes =>
    match readResponse.run .io bytes with
    | .ok (status, _) => return some status
    | .error _ => do
      tryReply world .generalFailure
      raise "read tunnel response"
  | .elapsed => do
    tryReply world .ttlExpired
    return none

def reportStatus (status : ReplyCode) : Client Unit := do
  tryReply world status
  if world.replyWritten status then
    if status ≠ .succeeded then emit .finish else emit .relay
  else raise "write SOCKS reply"

def handleSocksConnection : Client Unit := do
  let some application ← performSocksHandshake world | return ()
  let some request ← readSocksConnectRequest world application | return ()
  if ← openTunnelStream world then
    if ← sendTunnelRequest world request then
      let some status ← readTunnelStatus world | return ()
      reportStatus world status

variable {world}

def replies {α : Type} (run : Client α) : List (ReplyCode × Bool) :=
  observe (fun
    | .reply code written => [(code, written)]
    | _ => []) run

def relays {α : Type} (run : Client α) : List Unit :=
  observe (fun
    | .relay => [()]
    | _ => []) run

def sentBytes {α : Type} (run : Client α) : Bytes :=
  observe (fun
    | .tunnel bytes => bytes
    | _ => []) run

structure Continues {α : Type} (run : Client α) (a : α) (sent : Bytes) : Prop where
  returns : run.result = .ok a
  replies : replies run = []
  relays : relays run = []
  sent : sentBytes run = sent

/-- A part of a run after which it does not, with at most one reply, a failure. -/
structure Refuses {α : Type} (stops : α → Prop) (run : Client α) : Prop where
  returns : ∀ a, run.result = .ok a → stops a
  replies : replies run = [] ∨
    ∃ code written, code ≠ .succeeded ∧ replies run = [(code, written)]
  relays : relays run = []

theorem continues_pure {α : Type} (a : α) : Continues (pure a) a [] := ⟨rfl, rfl, rfl, rfl⟩

theorem continues_replies {α β : Type} {run : Client α} {a : α} {sent : Bytes}
    (first : Continues run a sent) (next : α → Client β) :
    replies (run >>= next) = replies (next a) :=
  observe_after first.returns first.replies next

theorem continues_relays {α β : Type} {run : Client α} {a : α} {sent : Bytes}
    (first : Continues run a sent) (next : α → Client β) :
    relays (run >>= next) = relays (next a) :=
  observe_after first.returns first.relays next

theorem refuses_later {α β : Type} {run : Client α} {a : α} {sent : Bytes} {next : α → Client β}
    {stops : β → Prop} (first : Continues run a sent) (rest : Refuses stops (next a)) :
    Refuses stops (run >>= next) := by
  refine ⟨?_, ?_, ?_⟩
  · rw [result_bind first.returns]
    exact rest.returns
  · rw [continues_replies first]
    exact rest.replies
  · rw [continues_relays first, rest.relays]

theorem refuses_first {α : Type} {run : Client α} {next : α → Client Unit} {stops : α → Prop}
    (first : Refuses stops run) (ends : ∀ a, stops a → next a = pure ()) :
    Refuses (fun _ => True) (run >>= next) := by
  cases result : run.result with
  | error e =>
    have same : replies (run >>= next) = replies run := observe_bind_error result next
    have quiet : relays (run >>= next) = relays run := observe_bind_error result next
    refine ⟨fun _ _ => trivial, ?_, by rw [quiet, first.relays]⟩
    rw [same]
    exact first.replies
  | ok a =>
    have last := ends a (first.returns a result)
    have same : replies (run >>= next) = replies run ++ replies (next a) := observe_bind result next
    have quiet : relays (run >>= next) = relays run ++ relays (next a) := observe_bind result next
    rw [last] at same quiet
    refine ⟨fun _ _ => trivial, ?_, ?_⟩
    · rw [same]
      simpa [replies, observe] using first.replies
    · rw [quiet, first.relays]
      rfl

theorem socks_error_reply (err : SocksError) : err.replyCode ≠ .succeeded := by
  cases err <;> simp [SocksError.replyCode]

def Handshaken (world : World) (application : Bytes) : Prop :=
  world.handshakeInTime = true ∧ world.selectionWritten = true ∧
    ∃ selection, negotiateNoAuth.run .io world.application = .ok ((selection, .ok ()), application)

def Requested (world : World) (request : ConnectRequest) : Prop :=
  world.requestInTime = true ∧ ∃ application rest, Handshaken world application ∧
    readConnectRequest.run .io application = .ok (request, rest)

def Sent (world : World) (request : ConnectRequest) : Prop :=
  Requested world request ∧ world.opened = .finished (.ok ()) ∧ world.sending = .finished (.ok ())

def Reached (world : World) (request : ConnectRequest) (status : ReplyCode) : Prop :=
  Sent world request ∧ ∃ bytes rest, world.response = .finished bytes ∧
    readResponse.run .io bytes = .ok (status, rest)

theorem refuses_raise {α : Type} (stops : α → Prop) (e : String) :
    Refuses stops (raise e : Client α) := by
  refine ⟨?_, Or.inl rfl, rfl⟩
  intro a impossible
  cases impossible

theorem refuses_pure {α : Type} {stops : α → Prop} {a : α} (stop : stops a) :
    Refuses stops (pure a : Client α) := by
  refine ⟨?_, Or.inl rfl, rfl⟩
  intro b same
  cases same
  exact stop

theorem refuses_reply {α : Type} {stops : α → Prop} (world : World) {code : ReplyCode}
    {next : Client α} (failure : code ≠ .succeeded) (rest : Refuses stops next)
    (silent : replies next = []) :
    Refuses stops (do
      tryReply world code
      next) := by
  have first : (tryReply world code).result = .ok () := rfl
  refine ⟨?_, Or.inr ⟨code, world.replyWritten code, failure, ?_⟩, ?_⟩
  · rw [result_bind first]
    exact rest.returns
  · have both : replies (do
        tryReply world code
        next) = [(code, world.replyWritten code)] ++ replies next := observe_bind first _
    rw [both, silent]
    rfl
  · have both : relays (do
        tryReply world code
        next) = [] ++ relays next := observe_bind first _
    rw [both, rest.relays]
    rfl

variable (world)

theorem handshake_cases :
    (∃ application, Handshaken world application ∧
      Continues (performSocksHandshake world) (some application) []) ∨
      (∀ application, ¬ Handshaken world application) ∧
        Refuses (· = none) (performSocksHandshake world) := by
  unfold Handshaken performSocksHandshake
  cases inTime : world.handshakeInTime with
  | false => exact Or.inr ⟨by simp, refuses_pure rfl⟩
  | true =>
    cases read : negotiateNoAuth.run .io world.application with
    | error e => exact Or.inr ⟨by simp, refuses_raise _ _⟩
    | ok found =>
      obtain ⟨⟨selection, result⟩, rest⟩ := found
      have answered : Continues (emit (.selection selection.1)) () [] := ⟨rfl, rfl, rfl, rfl⟩
      cases written : world.selectionWritten with
      | false => exact Or.inr ⟨by simp, refuses_later answered (refuses_raise _ _)⟩
      | true =>
        cases result with
        | error e =>
          refine Or.inr ⟨by simp, refuses_later answered (refuses_raise _ _)⟩
        | ok done =>
          refine Or.inl ⟨rest, ⟨rfl, rfl, selection, rfl⟩, ?_⟩
          exact ⟨rfl, rfl, rfl, rfl⟩

theorem connect_request_cases (application : Bytes) :
    (∃ request rest, world.requestInTime = true ∧
      readConnectRequest.run .io application = .ok (request, rest) ∧
      Continues (readSocksConnectRequest world application) (some request) []) ∨
      (world.requestInTime = false ∨ ∃ e, readConnectRequest.run .io application = .error e) ∧
        Refuses (· = none) (readSocksConnectRequest world application) := by
  unfold readSocksConnectRequest
  cases world.requestInTime with
  | false => exact Or.inr ⟨Or.inl rfl, refuses_pure rfl⟩
  | true =>
    cases readConnectRequest.run .io application with
    | error err =>
      exact Or.inr ⟨Or.inr ⟨err, rfl⟩,
        refuses_reply world (socks_error_reply err) (refuses_raise _ _) rfl⟩
    | ok found =>
      obtain ⟨request, rest⟩ := found
      exact Or.inl ⟨request, rest, rfl, rfl, continues_pure (some request)⟩

theorem open_cases :
    (world.opened = .finished (.ok ()) ∧ Continues (openTunnelStream world) true []) ∨
      world.opened ≠ .finished (.ok ()) ∧ Refuses (· = false) (openTunnelStream world) := by
  unfold openTunnelStream
  match world.opened with
  | .finished (.ok _) => exact Or.inl ⟨rfl, continues_pure true⟩
  | .finished (.error _) =>
    exact Or.inr ⟨by simp, refuses_reply world (by simp) (refuses_raise _ _) rfl⟩
  | .elapsed => exact Or.inr ⟨by simp, refuses_reply world (by simp) (refuses_pure rfl) rfl⟩

theorem send_cases {request : ConnectRequest} (fits : request.target.Encodable) :
    (world.sending = .finished (.ok ()) ∧
      Continues (sendTunnelRequest world request) true (requestFrame request)) ∨
      world.sending ≠ .finished (.ok ()) ∧ Refuses (· = false) (sendTunnelRequest world request) := by
  have part : Continues (emit (.tunnel ((requestFrame request).take world.sentPart))) () _ :=
    ⟨rfl, rfl, rfl, rfl⟩
  unfold sendTunnelRequest
  rw [write_request_encodable fits]
  match world.sending with
  | .finished (.ok _) =>
    refine Or.inl ⟨rfl, rfl, rfl, rfl, ?_⟩
    simp [sentBytes, observe, emit]
  | .finished (.error _) =>
    refine Or.inr ⟨by simp, refuses_later part ?_⟩
    exact refuses_reply world (by simp) (refuses_raise _ _) rfl
  | .elapsed =>
    have finished : Continues (emit .finish) () [] := ⟨rfl, rfl, rfl, rfl⟩
    refine Or.inr ⟨by simp, refuses_later part (refuses_later finished ?_)⟩
    exact refuses_reply world (by simp) (refuses_pure rfl) rfl

theorem status_cases :
    (∃ bytes status rest, world.response = .finished bytes ∧
      readResponse.run .io bytes = .ok (status, rest) ∧
      Continues (readTunnelStatus world) (some status) []) ∨
      (¬ ∃ bytes status rest, world.response = .finished bytes ∧
        readResponse.run .io bytes = .ok (status, rest)) ∧
        Refuses (· = none) (readTunnelStatus world) := by
  unfold readTunnelStatus
  cases response : world.response with
  | elapsed =>
    exact Or.inr ⟨by simp, refuses_reply world (by simp) (refuses_pure rfl) rfl⟩
  | finished bytes =>
    cases read : readResponse.run .io bytes with
    | error e =>
      refine Or.inr ⟨?_, ?_⟩
      · intro impossible
        obtain ⟨bytes', status, rest, same, accepted⟩ := impossible
        cases same
        rw [read] at accepted
        contradiction
      · simp only [read]
        exact refuses_reply world (by simp) (refuses_raise _ _) rfl
    | ok found =>
      obtain ⟨status, rest⟩ := found
      refine Or.inl ⟨bytes, status, rest, rfl, read, ?_⟩
      simp only [read]
      exact continues_pure (some status)

theorem report_status (status : ReplyCode) :
    replies (reportStatus world status) = [(status, world.replyWritten status)] ∧
      relays (reportStatus world status) =
        if status = .succeeded ∧ world.replyWritten status = true then [()] else [] := by
  unfold reportStatus
  cases written : world.replyWritten status with
  | false =>
    rw [if_neg (by simp)]
    simp [replies, relays, observe, tryReply, emit, raise, written]
  | true =>
    rw [if_pos rfl]
    by_cases succeeded : status = .succeeded
    · subst succeeded
      simp [replies, relays, observe, tryReply, emit, written]
    · simp [replies, relays, observe, tryReply, emit, written, succeeded]

variable {world}

theorem handshaken_unique {application other : Bytes} (handshaken : Handshaken world application)
    (handshaken' : Handshaken world other) : application = other := by
  obtain ⟨_, _, selection, negotiated⟩ := handshaken
  obtain ⟨_, _, selection', negotiated'⟩ := handshaken'
  rw [negotiated, Except.ok.injEq, Prod.mk.injEq] at negotiated'
  exact negotiated'.2

variable (world)

theorem connection_cases :
    (∃ request status, Reached world request status ∧
      replies (handleSocksConnection world) = [(status, world.replyWritten status)] ∧
      relays (handleSocksConnection world) =
        if status = .succeeded ∧ world.replyWritten status = true then [()] else []) ∨
      (∀ request status, ¬ Reached world request status) ∧
        Refuses (fun _ => True) (handleSocksConnection world) := by
  unfold handleSocksConnection
  rcases handshake_cases world with ⟨application, handshaken, greeted⟩ | ⟨none, refused⟩
  · rcases connect_request_cases world application with
      ⟨request, rest, inTime, read, requested⟩ | ⟨failed, refused⟩
    · have asked : Requested world request := ⟨inTime, application, rest, handshaken, read⟩
      rcases open_cases world with ⟨opened, going⟩ | ⟨closed, refused⟩
      · rcases send_cases world (read_connect_request_encodable read) with
          ⟨written, sent⟩ | ⟨unsent, refused⟩
        · rcases status_cases world with ⟨bytes, status, rest, response, found, reported⟩ | ⟨failed, refused⟩
          · obtain ⟨told, relayed⟩ := report_status world status
            refine Or.inl ⟨request, status, ⟨⟨asked, opened, written⟩, bytes, rest, response, found⟩,
              ?_, ?_⟩
            · rw [continues_replies greeted, continues_replies requested, continues_replies going]
              simp only [if_true]
              rw [continues_replies sent, if_pos rfl, continues_replies reported, told]
            · rw [continues_relays greeted, continues_relays requested, continues_relays going]
              simp only [if_true]
              rw [continues_relays sent, if_pos rfl, continues_relays reported, relayed]
          · refine Or.inr ⟨?_, refuses_later greeted (refuses_later requested (refuses_later going
              (refuses_later sent (refuses_first refused ?_))))⟩
            · intro request' status reached
              obtain ⟨bytes, rest, response, found⟩ := reached.2
              exact failed ⟨bytes, status, rest, response, found⟩
            · rintro _ rfl
              rfl
        · refine Or.inr ⟨?_, refuses_later greeted (refuses_later requested (refuses_later going
            (refuses_first refused ?_)))⟩
          · intro request' status reached
            exact unsent reached.1.2.2
          · rintro _ rfl
            rfl
      · refine Or.inr ⟨?_, refuses_later greeted (refuses_later requested (refuses_first refused ?_))⟩
        · intro request' status reached
          exact closed reached.1.2.1
        · rintro _ rfl
          rfl
    · refine Or.inr ⟨?_, refuses_later greeted (refuses_first refused ?_)⟩
      · intro request status reached
        obtain ⟨inTime, application', rest, handshaken', read⟩ := reached.1.1
        rw [handshaken_unique handshaken' handshaken] at read
        rcases failed with late | ⟨e, failed⟩
        · rw [late] at inTime
          contradiction
        · rw [failed] at read
          contradiction
      · rintro _ rfl
        rfl
  · refine Or.inr ⟨?_, refuses_first refused ?_⟩
    · intro request status reached
      obtain ⟨application, _, handshaken, _⟩ := reached.1.1.2
      exact none application handshaken
    · rintro _ rfl
      rfl

variable {world}

def serverRun (server : ExitPolicy.World) (config : ServerConfig) (arrived : Bytes)
    (inTime : Bool) : Stream Unit :=
  handleTunnelStream server config
    (if inTime then .finished ((readRequest.run .io arrived).map Prod.fst) else .elapsed)

def answers (events : List ExitPolicy.Event) : Bytes :=
  events.flatMap fun event => match event with
    | .response code => writeResponse code
    | _ => []

def decision (server : ExitPolicy.World) (config : ServerConfig) (request : ConnectRequest) :
    ReplyCode :=
  match verdict server config request with
  | .finished (.ok target) => connectAnswer (server.connect target)
  | .finished (.error code) => code
  | .elapsed => .ttlExpired

/-- A connection of the client and the server's handler of its stream. Each has got a
    beginning of what the other has written; behind the server's answer the target's
    bytes may follow. -/
structure Session where
  client : World
  server : ExitPolicy.World
  config : ServerConfig
  arrived : Bytes
  inTime : Bool
  relayed : Bytes
  arrived_sent : arrived <+: sentBytes (handleSocksConnection client)
  relayed_behind : relayed ≠ [] →
    ∃ target, .relay target ∈ (serverRun server config arrived inTime).events
  returned : ∀ bytes, client.response = .finished bytes →
    bytes <+: answers (serverRun server config arrived inTime).events ++ relayed

theorem refused_answers (server : ExitPolicy.World) (code : ReplyCode) :
    answers (writeResponseAndFinish server code).events = writeResponse code := by
  obtain ⟨rest, events, finishes⟩ := refused_events server code
  have none : answers rest = [] := by
    rw [answers, List.flatMap_eq_nil_iff]
    intro event member
    rw [finishes event member]
  rw [events]
  change writeResponse code ++ answers rest = _
  rw [none, List.append_nil]

theorem stream_answers (server : ExitPolicy.World) (config : ServerConfig)
    (request : ConnectRequest) :
    answers (handleTunnelStream server config (.finished (.ok request))).events =
      writeResponse (decision server config request) := by
  rw [handle_tunnel_stream_events, decision]
  match verdict server config request with
  | .elapsed => exact refused_answers server .ttlExpired
  | .finished (.error code) => exact refused_answers server code
  | .finished (.ok target) =>
    by_cases reached : connectAnswer (server.connect target) = .succeeded
    · simp only [reached, if_true]
      unfold streamResponse emit raise
      cases server.write .succeeded <;> simp [answers]
    · simp only [reached, if_false]
      exact refused_answers server _

variable {session : Session} {request : ConnectRequest}

theorem select_error_code {allowPrivateTargets : Bool} {addrs : List SocketAddr} {code : ReplyCode}
    (refused : selectAllowedResolvedAddr addrs allowPrivateTargets = .error code) :
    code ≠ .succeeded := by
  rw [selectAllowedResolvedAddr, select_loop_find] at refused
  split at refused
  · contradiction
  · split at refused
    · cases refused
      simp
    · cases refused
      simp

theorem verdict_error_code {server : ExitPolicy.World} {config : ServerConfig}
    {request : ConnectRequest} {code : ReplyCode}
    (refused : verdict server config request = .finished (.error code)) : code ≠ .succeeded := by
  unfold verdict at refused
  split at refused
  · unfold resolveTarget at refused
    split at refused
    · unfold resolveIpTarget at refused
      split at refused
      · cases refused
      · cases refused
        simp
    · unfold resolveDomainTarget at refused
      split at refused
      · contradiction
      · cases refused
        simp
      · rw [Timed.finished.injEq] at refused
        exact select_error_code refused
  · cases refused
    simp

theorem decision_succeeded {server : ExitPolicy.World} {config : ServerConfig}
    {request : ConnectRequest} (succeeded : decision server config request = .succeeded) :
    ∃ target, verdict server config request = .finished (.ok target) ∧
      server.connect target = .finished (.ok ()) := by
  unfold decision at succeeded
  split at succeeded
  · rename_i target found
    refine ⟨target, found, ?_⟩
    match attempt : server.connect target with
    | .elapsed => simp [attempt, connectAnswer] at succeeded
    | .finished (.ok _) => rfl
    | .finished (.error err) =>
      rw [attempt] at succeeded
      cases err <;> simp [connectAnswer, mapConnectError] at succeeded
  · rename_i code refused
    exact absurd succeeded (verdict_error_code refused)
  · contradiction

theorem refuses_once {α : Type} {stops : α → Prop} {run : Client α} (refused : Refuses stops run) :
    (replies run).length ≤ 1 ∧ ∀ written, (.succeeded, written) ∉ replies run := by
  rcases refused.replies with none | ⟨code, done, failed, told⟩
  · rw [none]
    exact ⟨Nat.zero_le 1, fun written member => by contradiction⟩
  · rw [told]
    refine ⟨Nat.le_refl 1, ?_⟩
    intro written member
    rw [List.mem_singleton, Prod.mk.injEq] at member
    exact failed member.1.symm

def exampleRequest : ConnectRequest := ⟨.ip (.v4 ⟨⟨[93, 184, 216, 34], rfl⟩⟩), 80⟩

def exampleSession : Session where
  client := {
    application := [5, 1, 0, 5, 1, 0, 1, 93, 184, 216, 34, 0, 80]
    handshakeInTime := true
    selectionWritten := true
    requestInTime := true
    opened := .finished (.ok ())
    sending := .finished (.ok ())
    sentPart := 0
    response := .finished (writeResponse .succeeded)
    replyWritten := fun _ => true }
  server := ⟨fun _ _ => .elapsed, fun _ => .finished (.ok ()), fun _ => true, true⟩
  config := ⟨false⟩
  arrived := requestFrame exampleRequest
  inTime := true
  relayed := []
  arrived_sent := by decide
  relayed_behind := by simp
  returned := by
    intro bytes response
    cases response
    decide

end SocksClient
