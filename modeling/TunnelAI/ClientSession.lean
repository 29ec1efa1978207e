import TunnelAI.ResponseWriter
import TunnelAI.HeadLimits

/-!
One local HTTP connection of the client, from the request to the end of the
response. What the timers, the application and the tunnel do is an argument of
the program; what the program writes, and what it has read from the tunnel, is
its trace. Writes to the application succeed.
-/
namespace ClientSession
open StreamReader BufferedReader TracedEffects Fallible HttpHead HttpReaders HeadLimits
  ResponseWriter

inductive TunnelRead where
  | data : Bytes → TunnelRead
  | ended
  | failed
  deriving DecidableEq

/-- The pieces that the request's reads bring in time, whether a stream can be
    opened, the write of the request, and the reads of the response till now. -/
structure World where
  delivery : Timed (List Piece)
  opened : Except Unit Unit
  request : Timed (Except Unit Unit)
  reads : List (Timed TunnelRead)

inductive SessionEvent where
  | application : SendEvent → SessionEvent
  | tunnel : SendEvent → SessionEvent
  | received : Bytes → SessionEvent

inductive Stop where
  | failed : String → Stop
  | waiting
  deriving DecidableEq

abbrev Session := Traced SessionEvent Stop

def toApplication {α : Type} (s : Send α) : Session α :=
  ⟨s.events.map .application, s.result.mapError .failed⟩

def toTunnel {α : Type} (s : Send α) : Session α :=
  ⟨s.events.map .tunnel, s.result.mapError .failed⟩

def shutdown : Send Unit := finish

def writeErrorAndShutdown (status : Nat) (reason body : String) : Send Unit := do
  writePlainError status reason body
  shutdown

inductive TunnelResponseCopyState where
  | waitingForFirstByte
  | streaming
  deriving DecidableEq

inductive TunnelResponseReadOutcome where
  | chunk : Bytes → TunnelResponseReadOutcome
  | timeoutBeforeFirstByte
  | complete

def readTunnelResponseChunk (state : TunnelResponseCopyState) :
    Timed TunnelRead → Session TunnelResponseReadOutcome
  | .finished (.data bytes) =>
    if bytes = [] then pure .complete
    else do
      emit (.received bytes)
      pure (.chunk bytes)
  | .finished .ended => pure .complete
  | .finished .failed => raise (.failed "read tunnel response")
  | .elapsed =>
    if state = .waitingForFirstByte then pure .timeoutBeforeFirstByte else pure .complete

/-- The loop over the tunnel's response; a read that has not returned is waited for. -/
def copyTunnelResponse (state : TunnelResponseCopyState) : List (Timed TunnelRead) → Session Unit
  | [] => raise .waiting
  | read :: reads => do
    match ← readTunnelResponseChunk state read with
    | .chunk bytes => do
      toApplication (writeAll bytes)
      copyTunnelResponse .streaming reads
    | .timeoutBeforeFirstByte =>
      toApplication (writePlainError 504 "Gateway Timeout" "gateway timeout")
    | .complete => pure ()

def copyTunnelResponseWithIdleTimeout (reads : List (Timed TunnelRead)) : Session Unit :=
  copyTunnelResponse .waitingForFirstByte reads

variable (crates : HttpCrates)

def readLocalOpenAiRequest : Timed (List Piece) → Session (Option Bytes)
  | .finished pieces =>
    match readOneLocalHttpRequest crates (BufReader.new pieces) with
    | .ok (request, _) => pure (some request)
    | .error err => do
      toApplication
        (writeErrorAndShutdown err.response.status err.response.reason err.response.body)
      pure none
  | .elapsed => do
    toApplication (writeErrorAndShutdown 408 "Request Timeout" "request timeout")
    pure none

def openTunnelStream : Except Unit Unit → Session Bool
  | .ok _ => pure true
  | .error _ => do
    toApplication (writeErrorAndShutdown 504 "Gateway Timeout" "gateway timeout")
    pure false

def sendRequestToTunnel (request : Bytes) : Timed (Except Unit Unit) → Session Bool
  | .finished (.ok _) => do
    toTunnel (writeAll request)
    toTunnel finish
    pure true
  | .finished (.error _) => raise (.failed "write request to tunnel")
  | .elapsed => do
    toTunnel finish
    toApplication (writeErrorAndShutdown 504 "Gateway Timeout" "gateway timeout")
    pure false

def handleOpenAiClientStream (world : World) : Session Unit := do
  match ← readLocalOpenAiRequest crates world.delivery with
  | none => pure ()
  | some request =>
    if ← openTunnelStream world.opened then
      if ← sendRequestToTunnel request world.request then
        copyTunnelResponseWithIdleTimeout world.reads
        toApplication shutdown

def localBytes {α : Type} (run : Session α) : Bytes :=
  observe (fun
    | .application (.write bytes) => bytes
    | _ => []) run

def received {α : Type} (run : Session α) : List Bytes :=
  observe (fun
    | .received bytes => [bytes]
    | _ => []) run

def ownErrors : List (Nat × String × String) :=
  [(400, "Bad Request", "bad request"), (408, "Request Timeout", "request timeout"),
    (413, "Payload Too Large", "payload too large"),
    (431, "Request Header Fields Too Large", "request headers too large"),
    (504, "Gateway Timeout", "gateway timeout")]

def OwnError (bytes : Bytes) : Prop :=
  ∃ status reason body, (status, reason, body) ∈ ownErrors ∧
    bytes = plainResponse status reason body

def chunks : List (Timed TunnelRead) → List Bytes
  | .finished (.data bytes) :: reads => if bytes = [] then [] else bytes :: chunks reads
  | _ => []

structure Passes {α : Type} (run : Session α) (a : α) (bytes : Bytes) : Prop where
  returns : run.result = .ok a
  bytes : localBytes run = bytes
  silent : received run = []

theorem to_application_bytes {s : Send Unit} {bytes : Bytes} (writes : Writes s bytes) :
    Passes (toApplication s) () bytes := by
  obtain ⟨events, result⟩ := s
  obtain ⟨ok, rfl⟩ := writes
  simp only at ok
  subst ok
  refine ⟨rfl, ?_, ?_⟩
  · simp only [localBytes, observe, toApplication, written, List.flatMap_map]
    congr
    funext event
    cases event <;> rfl
  · simp [received, observe, toApplication, List.flatMap_map]

theorem to_tunnel_bytes {s : Send Unit} {bytes : Bytes} (writes : Writes s bytes) :
    Passes (toTunnel s) () [] := by
  obtain ⟨events, result⟩ := s
  obtain ⟨ok, rfl⟩ := writes
  simp only at ok
  subst ok
  refine ⟨rfl, ?_, ?_⟩
  · simp [localBytes, observe, toTunnel, List.flatMap_map]
  · simp [received, observe, toTunnel, List.flatMap_map]

theorem passes_pure {α : Type} (a : α) : Passes (pure a) a [] := ⟨rfl, rfl, rfl⟩

theorem local_bytes_bind {α β : Type} {run : Session α} {next : α → Session β} {a : α}
    {bytes : Bytes} (first : Passes run a bytes) :
    localBytes (run >>= next) = bytes ++ localBytes (next a) :=
  observe_after first.returns first.bytes next

theorem received_bind {α β : Type} {run : Session α} {next : α → Session β} {a : α}
    {bytes : Bytes} (first : Passes run a bytes) :
    received (run >>= next) = received (next a) :=
  observe_after first.returns first.silent next

theorem passes_bind {α β : Type} {run : Session α} {next : α → Session β} {a : α} {b : β}
    {bytes more : Bytes} (first : Passes run a bytes) (rest : Passes (next a) b more) :
    Passes (run >>= next) b (bytes ++ more) :=
  ⟨by rw [result_bind first.returns, rest.returns], by rw [local_bytes_bind first, rest.bytes],
    by rw [received_bind first, rest.silent]⟩

theorem writes_error_and_shutdown (status : Nat) (reason body : String) :
    Writes (writeErrorAndShutdown status reason body) (plainResponse status reason body) :=
  writes_error_and_finish status reason body

theorem passes_error {α : Type} {status : Nat} {reason body : String}
    (own : (status, reason, body) ∈ ownErrors) (a : α) :
    ∃ bytes, OwnError bytes ∧ Passes (do
      toApplication (writeErrorAndShutdown status reason body)
      pure a) a bytes := by
  refine ⟨plainResponse status reason body, ⟨status, reason, body, own, rfl⟩, ?_⟩
  have both : Passes (do
      toApplication (writeErrorAndShutdown status reason body)
      pure a) a (plainResponse status reason body ++ []) :=
    passes_bind (to_application_bytes (writes_error_and_shutdown status reason body))
      (passes_pure a)
  rwa [List.append_nil] at both

theorem copy_chunk (state : TunnelResponseCopyState) {bytes : Bytes} (some : bytes ≠ [])
    (reads : List (Timed TunnelRead)) :
    localBytes (copyTunnelResponse state (.finished (.data bytes) :: reads)) =
        bytes ++ localBytes (copyTunnelResponse .streaming reads) ∧
      received (copyTunnelResponse state (.finished (.data bytes) :: reads)) =
        bytes :: received (copyTunnelResponse .streaming reads) := by
  simp only [copyTunnelResponse, readTunnelResponseChunk, if_neg some, bind_assoc_eq]
  exact ⟨rfl, rfl⟩

theorem copy_streaming (reads : List (Timed TunnelRead)) :
    localBytes (copyTunnelResponse .streaming reads) = (chunks reads).flatten ∧
      received (copyTunnelResponse .streaming reads) = chunks reads := by
  induction reads with
  | nil => exact ⟨rfl, rfl⟩
  | cons read reads ih =>
    cases read with
    | elapsed => exact ⟨rfl, rfl⟩
    | finished read =>
      cases read with
      | ended => exact ⟨rfl, rfl⟩
      | failed => exact ⟨rfl, rfl⟩
      | data bytes =>
        by_cases empty : bytes = []
        · subst empty
          exact ⟨rfl, rfl⟩
        · obtain ⟨wrote, got⟩ := copy_chunk .streaming empty reads
          rw [chunks, if_neg empty, wrote, got, ih.1, ih.2]
          exact ⟨rfl, rfl⟩

theorem copy_waiting (reads : List (Timed TunnelRead)) :
    received (copyTunnelResponse .waitingForFirstByte reads) = chunks reads ∧
      (localBytes (copyTunnelResponse .waitingForFirstByte reads) = (chunks reads).flatten ∨
        chunks reads = [] ∧ OwnError (localBytes (copyTunnelResponse .waitingForFirstByte reads))) := by
  cases reads with
  | nil => exact ⟨rfl, Or.inl rfl⟩
  | cons read reads =>
    cases read with
    | elapsed =>
      have answered := to_application_bytes
        (writes_plain_response 504 "Gateway Timeout" "gateway timeout")
      exact ⟨answered.silent, Or.inr ⟨rfl, 504, _, _, by simp [ownErrors], answered.bytes⟩⟩
    | finished read =>
      cases read with
      | ended => exact ⟨rfl, Or.inl rfl⟩
      | failed => exact ⟨rfl, Or.inl rfl⟩
      | data bytes =>
        by_cases empty : bytes = []
        · subst empty
          exact ⟨rfl, Or.inl rfl⟩
        · obtain ⟨wrote, got⟩ := copy_chunk .waitingForFirstByte empty reads
          obtain ⟨wrote', got'⟩ := copy_streaming reads
          rw [chunks, if_neg empty, wrote, got, wrote', got']
          exact ⟨rfl, Or.inl rfl⟩

theorem behind_shutdown (run : Session Unit) :
    localBytes (run >>= fun _ => toApplication shutdown) = localBytes run ∧
      received (run >>= fun _ => toApplication shutdown) = received run ∧
      ((run >>= fun _ => toApplication shutdown).result = .error .waiting ↔
        run.result = .error .waiting) := by
  have last := to_application_bytes writes_finish
  cases ended : run.result with
  | error e =>
    refine ⟨observe_bind_error ended _, observe_bind_error ended _, ?_⟩
    obtain ⟨events, result⟩ := run
    simp only at ended
    rw [ended]
    rfl
  | ok done =>
    refine ⟨?_, ?_, ?_⟩
    · have both : localBytes (run >>= fun _ => toApplication shutdown) =
          localBytes run ++ localBytes (toApplication shutdown) := observe_bind ended _
      rw [both]
      exact (congrArg _ last.bytes).trans (List.append_nil _)
    · have both : received (run >>= fun _ => toApplication shutdown) =
          received run ++ received (toApplication shutdown) := observe_bind ended _
      rw [both]
      exact (congrArg _ last.silent).trans (List.append_nil _)
    · rw [result_bind ended]
      exact ⟨fun impossible => (by cases impossible), fun impossible => (by cases impossible)⟩

theorem or_bad_request_fails {α : Type} (value : Option α) (message : String) :
    FailsWith (· ≠ HttpRequestError.unsupportedChunked) (orBadRequest value message) := by
  cases value with
  | some a => exact fails_with_ok a
  | none => exact fails_with_error (by simp)

theorem header_step_fails (fields : HeaderFields) (header : RawHeader) :
    FailsWith (· ≠ HttpRequestError.unsupportedChunked) (headerStep crates fields header) := by
  refine fails_with_bind (or_bad_request_fails _ _) fun name _ =>
    fails_with_bind (or_bad_request_fails _ _) fun value _ =>
      fails_with_bind ?_ fun length _ => fails_with_bind ?_ fun chunked _ => fails_with_ok _
  · unfold headerContentLength
    split
    · refine fails_with_bind ?_ fun parsed _ =>
        fails_with_bind (fails_with_require (by simp)) fun _ _ => fails_with_ok _
      exact fails_with_bind (or_bad_request_fails _ _) fun s _ =>
        fails_with_bind (or_bad_request_fails _ _) fun parsed _ =>
          fails_with_bind (fails_with_require (by simp)) fun _ _ => fails_with_ok _
    · exact fails_with_ok _
  · unfold headerChunked
    split
    · exact fails_with_bind (or_bad_request_fails _ _) fun s _ => fails_with_ok _
    · exact fails_with_ok _

theorem parse_http_head_fails (head : Bytes) :
    FailsWith (· ≠ HttpRequestError.unsupportedChunked) (parseHttpHead crates head) := by
  refine fails_with_bind ?_ fun request _ => fails_with_bind ?_ fun line _ =>
    fails_with_bind (fails_with_fold (header_step_fails crates) _ _) fun fields _ => fails_with_ok _
  · unfold completeRequest
    split
    · exact fails_with_error (by simp)
    · exact fails_with_error (by simp)
    · exact fails_with_error (by simp)
    · exact fails_with_ok _
  · exact fails_with_bind (or_bad_request_fails _ _) fun name _ =>
      fails_with_bind (or_bad_request_fails _ _) fun method _ =>
        fails_with_bind (or_bad_request_fails _ _) fun target _ =>
          fails_with_bind (or_bad_request_fails _ _) fun version _ =>
            fails_with_bind (fails_with_require (by simp)) fun _ _ =>
              fails_with_bind (fails_with_require (by simp)) fun _ _ => fails_with_ok _

theorem local_request_fails (reader : BufReader) :
    FailsWith (· ≠ HttpRequestError.unsupportedChunked) (readOneLocalHttpRequest crates reader) := by
  refine fails_with_bind ?_ fun head _ => fails_with_bind (parse_http_head_fails crates _) fun parsed _ => ?_
  · intro e failed
    cases read_head_no_head failed <;> simp [endedEarly]
  · split
    · exact fails_with_ok _
    · refine fails_with_bind ?_ fun body _ =>
        fails_with_bind (fails_with_require (by simp)) fun _ _ => fails_with_ok _
      unfold readBody
      split
      · exact or_bad_request_fails _ _
      · exact fails_with_ok _

def Accepted (crates : HttpCrates) (world : World) (request : Bytes) : Prop :=
  ∃ pieces reader, world.delivery = .finished pieces ∧
    readOneLocalHttpRequest crates (BufReader.new pieces) = .ok (request, reader)

def Copying (crates : HttpCrates) (world : World) : Prop :=
  (∃ request, Accepted crates world request) ∧ world.opened = .ok () ∧
    world.request = .finished (.ok ())

def WriteFailed (crates : HttpCrates) (world : World) : Prop :=
  (∃ request, Accepted crates world request) ∧ world.opened = .ok () ∧
    world.request = .finished (.error ())

theorem read_cases (world : World) :
    (∃ request, Accepted crates world request) ∨
      ((∀ request, ¬ Accepted crates world request) ∧
        ∃ bytes, OwnError bytes ∧
          Passes (readLocalOpenAiRequest crates world.delivery) none bytes) := by
  cases delivered : world.delivery with
  | elapsed =>
    refine Or.inr ⟨?_, passes_error (by simp [ownErrors]) none⟩
    intro request accepted
    obtain ⟨pieces, reader, delivered', _⟩ := accepted
    rw [delivered] at delivered'
    contradiction
  | finished pieces =>
    cases read : readOneLocalHttpRequest crates (BufReader.new pieces) with
    | ok found =>
      obtain ⟨request, reader⟩ := found
      exact Or.inl ⟨request, pieces, reader, delivered, read⟩
    | error err =>
      have own : (err.response.status, err.response.reason, err.response.body) ∈ ownErrors := by
        have possible := local_request_fails crates (BufReader.new pieces) err read
        cases err <;> simp_all [HttpRequestError.response, ownErrors]
      simp only [readLocalOpenAiRequest, read]
      refine Or.inr ⟨?_, passes_error own none⟩
      intro request accepted
      obtain ⟨pieces', reader, delivered', accepted⟩ := accepted
      rw [delivered, Timed.finished.injEq] at delivered'
      subst delivered'
      rw [read] at accepted
      contradiction

def passRequest (world : World) (request : Bytes) : Session Unit := do
  if ← openTunnelStream world.opened then
    if ← sendRequestToTunnel request world.request then
      copyTunnelResponseWithIdleTimeout world.reads
      toApplication shutdown

theorem handle_accepted {world : World} {request : Bytes}
    (accepted : Accepted crates world request) :
    handleOpenAiClientStream crates world = passRequest world request := by
  obtain ⟨pieces, reader, delivered, read⟩ := accepted
  have passed : readLocalOpenAiRequest crates world.delivery = pure (some request) := by
    simp only [readLocalOpenAiRequest, delivered, read]
  rw [handleOpenAiClientStream, passed]
  rfl

/-- A session has answered by itself, has failed at the request's write, or has come
    to the response. -/
theorem session_cases (world : World) :
    (¬ Copying crates world ∧ ¬ WriteFailed crates world ∧
      ∃ bytes, OwnError bytes ∧ Passes (handleOpenAiClientStream crates world) () bytes) ∨
    (WriteFailed crates world ∧
      handleOpenAiClientStream crates world = raise (.failed "write request to tunnel")) ∨
    (Copying crates world ∧
      localBytes (handleOpenAiClientStream crates world) =
        localBytes (copyTunnelResponse .waitingForFirstByte world.reads) ∧
      received (handleOpenAiClientStream crates world) =
        received (copyTunnelResponse .waitingForFirstByte world.reads) ∧
      ((handleOpenAiClientStream crates world).result = .error .waiting ↔
        (copyTunnelResponse .waitingForFirstByte world.reads).result = .error .waiting)) := by
  rcases read_cases crates world with ⟨request, accepted⟩ | ⟨refused, bytes, own, passes⟩
  · rw [handle_accepted crates accepted, passRequest]
    cases opened : world.opened with
    | error e =>
      obtain ⟨bytes, own, passes⟩ := passes_error
        (show (504, "Gateway Timeout", "gateway timeout") ∈ ownErrors by simp [ownErrors]) false
      refine Or.inl ⟨fun copying => ?_, fun failed => ?_, bytes ++ [], ?_, ?_⟩
      · exact absurd copying.2.1 (by simp [opened])
      · exact absurd failed.2.1 (by simp [opened])
      · rwa [List.append_nil]
      · exact passes_bind passes (passes_pure ())
    | ok done =>
      cases sent : world.request with
      | elapsed =>
        obtain ⟨bytes, own, passes⟩ := passes_error
          (show (504, "Gateway Timeout", "gateway timeout") ∈ ownErrors by simp [ownErrors]) false
        have written : Passes (sendRequestToTunnel request .elapsed) false ([] ++ bytes) :=
          passes_bind (to_tunnel_bytes writes_finish) passes
        refine Or.inl ⟨fun copying => ?_, fun failed => ?_, [] ++ ([] ++ bytes ++ []), ?_, ?_⟩
        · exact absurd copying.2.2 (by simp [sent])
        · exact absurd failed.2.2 (by simp [sent])
        · simpa using own
        · exact passes_bind (passes_pure true) (passes_bind written (passes_pure ()))
      | finished outcome =>
        cases outcome with
        | error e => exact Or.inr (Or.inl ⟨⟨⟨request, accepted⟩, opened, sent⟩, rfl⟩)
        | ok done =>
          right
          right
          refine ⟨⟨⟨request, accepted⟩, opened, sent⟩, ?_⟩
          exact behind_shutdown (copyTunnelResponse .waitingForFirstByte world.reads)
  · left
    refine ⟨fun copying => ?_, fun failed => ?_, bytes ++ [], ?_, ?_⟩
    · obtain ⟨request, accepted⟩ := copying.1
      exact refused request accepted
    · obtain ⟨request, accepted⟩ := failed.1
      exact refused request accepted
    · rwa [List.append_nil]
    · exact passes_bind passes (passes_pure ())

theorem session_bytes (world : World) :
    OwnError (localBytes (handleOpenAiClientStream crates world)) ∨
      localBytes (handleOpenAiClientStream crates world) <+: (chunks world.reads).flatten := by
  rcases session_cases crates world with
    ⟨_, _, bytes, own, passes⟩ | ⟨_, run⟩ | ⟨_, wrote, _, _⟩
  · exact Or.inl (by rwa [passes.bytes])
  · right
    rw [run]
    exact List.nil_prefix
  · rw [wrote]
    rcases (copy_waiting world.reads).2 with copied | ⟨_, own⟩
    · exact Or.inr (copied ▸ List.prefix_refl _)
    · exact Or.inl own

variable {crates}

/-- What a session writes is one response of its own, when it has read nothing from
    the tunnel, or what it has read from the tunnel. -/
theorem responses_never_mixed (world : World) :
    (localBytes (handleOpenAiClientStream crates world) =
        (received (handleOpenAiClientStream crates world)).flatten ∨
      received (handleOpenAiClientStream crates world) = [] ∧
        OwnError (localBytes (handleOpenAiClientStream crates world))) ∧
      (Copying crates world →
        received (handleOpenAiClientStream crates world) = chunks world.reads) ∧
      (¬ Copying crates world → received (handleOpenAiClientStream crates world) = []) := by
  rcases session_cases crates world with
    ⟨other, _, bytes, own, passes⟩ | ⟨failed, run⟩ | ⟨copying, wrote, got, _⟩
  · refine ⟨Or.inr ⟨passes.silent, ?_⟩, fun copying => absurd copying other,
      fun _ => passes.silent⟩
    rwa [passes.bytes]
  · rw [run]
    refine ⟨Or.inl rfl, fun copying => ?_, fun _ => rfl⟩
    have impossible := copying.2.2.symm.trans failed.2.2
    cases impossible
  · obtain ⟨chunked, bytes⟩ := copy_waiting world.reads
    rw [wrote, got, chunked]
    exact ⟨bytes, fun _ => rfl, fun other => absurd copying other⟩

/-- If the connection is closed, the application has got an answer, and one of the
    client's own when the tunnel has delivered nothing. -/
def Answered (crates : HttpCrates) (world : World) : Prop :=
  (handleOpenAiClientStream crates world).result ≠ .error .waiting →
    localBytes (handleOpenAiClientStream crates world) ≠ [] ∧
      (received (handleOpenAiClientStream crates world) = [] →
        OwnError (localBytes (handleOpenAiClientStream crates world)))

def EndsSilently (reads : List (Timed TunnelRead)) : Prop :=
  ∃ read rest, reads = read :: rest ∧ (read = .finished (.data []) ∨ read = .finished .ended ∨
    read = .finished .failed)

/-- The ways to lose the tunnel that no stage of the session answers. -/
def LostQuietly (world : World) : Prop :=
  world.opened = .ok () ∧ (world.request = .finished (.error ()) ∨
    world.request = .finished (.ok ()) ∧ EndsSilently world.reads)

theorem own_error_some {bytes : Bytes} (own : OwnError bytes) : bytes ≠ [] := by
  obtain ⟨status, reason, body, _, rfl⟩ := own
  have begins : text "HTTP/1.1 " ≠ [] := by decide
  simp [plainResponse, statusLine, begins]

theorem copy_first_read (reads : List (Timed TunnelRead)) :
    EndsSilently reads ∧ localBytes (copyTunnelResponse .waitingForFirstByte reads) = [] ∧
        (copyTunnelResponse .waitingForFirstByte reads).result ≠ .error .waiting ∨
      ¬ EndsSilently reads ∧
        ((copyTunnelResponse .waitingForFirstByte reads).result = .error .waiting ∨
          localBytes (copyTunnelResponse .waitingForFirstByte reads) ≠ [] ∧
          (chunks reads = [] → OwnError (localBytes (copyTunnelResponse .waitingForFirstByte reads)))) := by
  cases reads with
  | nil => exact Or.inr ⟨by simp [EndsSilently], Or.inl rfl⟩
  | cons read reads =>
    cases read with
    | elapsed =>
      have answered := to_application_bytes
        (writes_plain_response 504 "Gateway Timeout" "gateway timeout")
      have own : OwnError (localBytes (copyTunnelResponse .waitingForFirstByte (.elapsed :: reads))) :=
        ⟨504, _, _, by simp [ownErrors], answered.bytes⟩
      exact Or.inr ⟨by simp [EndsSilently], Or.inr ⟨own_error_some own, fun _ => own⟩⟩
    | finished read =>
      cases read with
      | ended => exact Or.inl ⟨⟨_, _, rfl, by simp⟩, rfl, by intro h; cases h⟩
      | failed => exact Or.inl ⟨⟨_, _, rfl, by simp⟩, rfl, by intro h; cases h⟩
      | data bytes =>
        by_cases empty : bytes = []
        · subst empty
          exact Or.inl ⟨⟨_, _, rfl, by simp⟩, rfl, by intro h; cases h⟩
        · obtain ⟨wrote, _⟩ := copy_chunk .waitingForFirstByte empty reads
          refine Or.inr ⟨by simp [EndsSilently, empty], Or.inr ⟨by simp [wrote, empty], ?_⟩⟩
          intro none
          rw [chunks, if_neg empty] at none
          contradiction

/-- Exactly the requests whose tunnel is not lost quietly get an answer. -/
theorem request_answered_iff {world : World} {request : Bytes}
    (accepted : Accepted crates world request) :
    Answered crates world ↔ ¬ LostQuietly world := by
  rcases session_cases crates world with
    ⟨notCopying, notFailed, bytes, own, passes⟩ | ⟨failed, run⟩ | ⟨copying, wrote, got, waits⟩
  · constructor
    · intro _ lost
      rcases lost.2 with failed | ⟨sent, _⟩
      · exact notFailed ⟨⟨request, accepted⟩, lost.1, failed⟩
      · exact notCopying ⟨⟨request, accepted⟩, lost.1, sent⟩
    · intro _ _
      rw [passes.bytes]
      exact ⟨own_error_some own, fun _ => own⟩
  · constructor
    · intro answered
      rw [Answered, run] at answered
      have ended := (answered (by intro h; cases h)).1
      exact absurd rfl ended
    · intro quiet
      exact absurd ⟨failed.2.1, Or.inl failed.2.2⟩ quiet
  · obtain ⟨chunked, _⟩ := copy_waiting world.reads
    rw [Answered, wrote, got, chunked]
    have lost : LostQuietly world ↔ EndsSilently world.reads := by
      simp [LostQuietly, copying.2.1, copying.2.2]
    rw [lost]
    rcases copy_first_read world.reads with ⟨silent, none, closed⟩ | ⟨heard, waiting | answer⟩
    · constructor
      · intro answered
        exact absurd none (answered fun waiting => closed (waits.mp waiting)).1
      · intro other
        exact absurd silent other
    · exact ⟨fun _ => heard, fun _ closed => absurd (waits.mpr waiting) closed⟩
    · exact ⟨fun _ => heard, fun _ _ => answer⟩

def exampleRequest : Bytes := text "GET /v1/models HTTP/1.1\r\n\r\n"

def exampleWorld (request : Timed (Except Unit Unit)) (reads : List (Timed TunnelRead)) : World :=
  ⟨.finished [⟨exampleRequest, by decide⟩], .ok (), request, reads⟩

theorem example_accepted (request : Timed (Except Unit Unit)) (reads : List (Timed TunnelRead)) :
    Accepted exampleCrates (exampleWorld request reads) exampleRequest := by
  have whole : flatHead exampleRequest = .ok (exampleRequest, []) := by decide
  have parses : ∃ parsed, parseHttpHead exampleCrates exampleRequest = .ok parsed ∧
      parsed.hasChunkedBody = false ∧ parsed.contentLength = none := by
    refine ⟨_, rfl, ?_, ?_⟩ <;> decide
  obtain ⟨parsed, parses, plain, none⟩ := parses
  have delivers : (BufReader.new [⟨exampleRequest, by decide⟩]).contents = exampleRequest ++ [] := by
    decide
  obtain ⟨reader, accepted⟩ :=
    read_local_whole whole parses (by rw [plain, none]; rfl) delivers
  rw [List.append_nil] at accepted
  exact ⟨_, reader, rfl, accepted⟩

def exampleResponse : Bytes := text "HTTP/1.1 200 OK\r\n\r\n"

theorem request_answered_example :
    Answered exampleCrates
      (exampleWorld (.finished (.ok ())) [.finished (.data exampleResponse), .finished .ended]) := by
  refine (request_answered_iff (example_accepted _ _)).mpr ?_
  have some : exampleResponse ≠ [] := by decide
  simp [LostQuietly, EndsSilently, exampleWorld, some]

def Unanswered (world : World) (request : Bytes) : Prop :=
  Accepted exampleCrates world request ∧
    (handleOpenAiClientStream exampleCrates world).result ≠ .error .waiting ∧
    localBytes (handleOpenAiClientStream exampleCrates world) = [] ∧
    ¬ Answered exampleCrates world

theorem example_unanswered {outcome : Timed (Except Unit Unit)} {reads : List (Timed TunnelRead)}
    (closed : (passRequest (exampleWorld outcome reads) exampleRequest).result ≠ .error .waiting)
    (silent : localBytes (passRequest (exampleWorld outcome reads) exampleRequest) = []) :
    Unanswered (exampleWorld outcome reads) exampleRequest := by
  have accepted := example_accepted outcome reads
  rw [← handle_accepted exampleCrates accepted] at closed silent
  exact ⟨accepted, closed, silent, fun answered => (answered closed).1 silent⟩

/-- The request's write fails, or the tunnel ends or fails before a byte of the response:
    the connection is closed and the application has got nothing. -/
theorem request_unanswered :
    Unanswered (exampleWorld (.finished (.error ())) []) exampleRequest ∧
      Unanswered (exampleWorld (.finished (.ok ())) [.finished .ended]) exampleRequest ∧
      Unanswered (exampleWorld (.finished (.ok ())) [.finished .failed]) exampleRequest := by
  refine ⟨example_unanswered ?_ rfl, example_unanswered ?_ rfl, example_unanswered ?_ rfl⟩
  · intro waiting
    cases waiting
  · intro waiting
    cases waiting
  · intro waiting
    cases waiting

end ClientSession
