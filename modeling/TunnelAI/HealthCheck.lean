import TunnelAI.Library.Windows
import TunnelAI.OpenAiPath

/-!
The client's health check: one request on a tunnel stream of its own, whose answer
is gathered up to the end of its head. What the tunnel does is an argument of the
program. The verdict is compared with what the server at the other end has done.
-/
namespace HealthCheck
open StreamReader BufferedReader TracedEffects Fallible Windows ResponseMessages UrlReference
  HttpHead HttpReaders ProviderUrl ProviderConfinement ResponseWriter ServerStream PlainResponses
  OpenAiPath
open RequestDelivery (isHealthRequest healthCheckBytes)
open ClientSession (TunnelRead Stop)

/-- What becomes of the check's stream: whether it is opened, the write of the
    request, and the reads of the response till now. -/
structure CheckWorld where
  opened : Except Unit Unit
  request : Timed (Except Unit Unit)
  reads : List (Timed TunnelRead)

def headEnd : Bytes := text "\r\n\r\n"

def openBiWithReconnect : Except Unit Unit → Except Stop Unit
  | .ok _ => .ok ()
  | .error _ => .error (.failed "open tunnel stream")

def writeHealthRequest : Timed (Except Unit Unit) → Except Stop Unit
  | .finished (.ok _) => .ok ()
  | .finished (.error _) => .error (.failed "write OpenAI proxy health check")
  | .elapsed => .error (.failed "timed out writing OpenAI proxy health check")

def readHealthResponse (response : Bytes) : List (Timed TunnelRead) → Except Stop Bytes
  | [] => .error .waiting
  | .elapsed :: _ => .error (.failed "timed out reading OpenAI proxy health check response")
  | .finished .failed :: _ => .error (.failed "read OpenAI proxy health check response")
  | .finished .ended :: _ => .ok response
  | .finished (.data bytes) :: reads =>
    if (windows headEnd.length (response ++ bytes)).any (fun window => window == headEnd) then
      .ok (response ++ bytes)
    else readHealthResponse (response ++ bytes) reads

def runOpenAiHealthCheck (world : CheckWorld) : Except Stop Unit := do
  openBiWithReconnect world.opened
  writeHealthRequest world.request
  let response ← readHealthResponse [] world.reads
  require (text "HTTP/1.1 200" <+: response)
    (.failed "OpenAI proxy health check returned non-200 response")

def arrived : List (Timed TunnelRead) → Bytes
  | .finished (.data bytes) :: reads => bytes ++ arrived reads
  | _ => []

def endsNormally : List (Timed TunnelRead) → Bool
  | .finished (.data _) :: reads => endsNormally reads
  | .finished .ended :: _ => true
  | _ => false

theorem head_end_found {s : Bytes} :
    (windows headEnd.length s).any (fun window => window == headEnd) = true ↔ headEnd <:+: s :=
  windows_any_iff (by decide)

theorem read_health_ok {response found : Bytes} {reads : List (Timed TunnelRead)}
    (h : readHealthResponse response reads = .ok found) :
    found <+: response ++ arrived reads ∧
      (headEnd <:+: found ∨ endsNormally reads = true ∧ found = response ++ arrived reads) := by
  induction reads generalizing response with
  | nil => simp [readHealthResponse] at h
  | cons read reads ih =>
    cases read with
    | elapsed => simp [readHealthResponse] at h
    | finished read =>
      cases read with
      | failed => simp [readHealthResponse] at h
      | ended =>
        rw [readHealthResponse, Except.ok.injEq] at h
        subst h
        exact ⟨by simp [arrived], Or.inr ⟨rfl, by simp [arrived]⟩⟩
      | data bytes =>
        rw [readHealthResponse] at h
        split at h
        · rename_i ends
          rw [Except.ok.injEq] at h
          subst h
          exact ⟨by simp [arrived], Or.inl (head_end_found.mp ends)⟩
        · have rest := ih h
          rw [List.append_assoc] at rest
          exact rest

theorem read_health_returns {response : Bytes} {reads : List (Timed TunnelRead)}
    (ends : headEnd <:+: response ++ arrived reads ∧ ¬ headEnd <:+: response ∨
      endsNormally reads = true) :
    ∃ found, readHealthResponse response reads = .ok found := by
  induction reads generalizing response with
  | nil =>
    rcases ends with ⟨inside, outside⟩ | ended
    · simp only [arrived, List.append_nil] at inside
      exact absurd inside outside
    · simp [endsNormally] at ended
  | cons read reads ih =>
    have silent : ∀ read, arrived (read :: reads) = [] →
        endsNormally (read :: reads) = false →
        ¬ (headEnd <:+: response ++ arrived (read :: reads) ∧ ¬ headEnd <:+: response ∨
          endsNormally (read :: reads) = true) := by
      intro read none open_ ends
      rw [none, List.append_nil, open_] at ends
      rcases ends with ⟨inside, outside⟩ | ended
      · exact outside inside
      · contradiction
    cases read with
    | elapsed => exact absurd ends (silent _ rfl rfl)
    | finished read =>
      cases read with
      | failed => exact absurd ends (silent _ rfl rfl)
      | ended => exact ⟨response, rfl⟩
      | data bytes =>
        rw [readHealthResponse]
        split
        · exact ⟨_, rfl⟩
        · rename_i further
          rw [head_end_found] at further
          apply ih
          rcases ends with ⟨inside, _⟩ | ended
          · rw [arrived, ← List.append_assoc] at inside
            exact Or.inl ⟨inside, further⟩
          · exact Or.inr ended

theorem status_inside {found all : Bytes} (begins : found <+: all) (ends : headEnd <:+: found) :
    text "HTTP/1.1 200" <+: found ↔ text "HTTP/1.1 200" <+: all := by
  constructor
  · intro inside
    exact inside.trans begins
  · intro inside
    rcases List.prefix_or_prefix_of_prefix inside begins with within | short
    · exact within
    · exfalso
      have status : ChunkedCoding.cr ∈ text "HTTP/1.1 200" :=
        short.subset (ends.subset (by decide))
      exact absurd status (by decide)

theorem open_ok_iff {opened : Except Unit Unit} :
    openBiWithReconnect opened = .ok () ↔ opened = .ok () := by
  cases opened with
  | ok done => simp [openBiWithReconnect]
  | error e => simp [openBiWithReconnect]

theorem write_ok_iff {request : Timed (Except Unit Unit)} :
    writeHealthRequest request = .ok () ↔ request = .finished (.ok ()) := by
  cases request with
  | elapsed => simp [writeHealthRequest]
  | finished outcome =>
    cases outcome with
    | ok done => simp [writeHealthRequest]
    | error e => simp [writeHealthRequest]

theorem gathered_status_iff (reads : List (Timed TunnelRead)) :
    (∃ response, readHealthResponse [] reads = .ok response ∧
        text "HTTP/1.1 200" <+: response) ↔
      text "HTTP/1.1 200" <+: arrived reads ∧
        (headEnd <:+: arrived reads ∨ endsNormally reads = true) := by
  constructor
  · intro gathered
    obtain ⟨response, read, status⟩ := gathered
    obtain ⟨begins, ends⟩ := read_health_ok read
    rw [List.nil_append] at begins
    refine ⟨status.trans begins, ?_⟩
    rcases ends with found | ⟨ended, _⟩
    · exact Or.inl (found.trans begins.isInfix)
    · exact Or.inr ended
  · intro condition
    obtain ⟨status, ends⟩ := condition
    have none : ¬ headEnd <:+: ([] : Bytes) := by decide
    obtain ⟨response, read⟩ := @read_health_returns [] reads (ends.imp_left fun found => ⟨found, none⟩)
    refine ⟨response, read, ?_⟩
    obtain ⟨begins, found | ⟨_, whole⟩⟩ := read_health_ok read
    · exact (status_inside begins found).mpr status
    · rw [whole]
      exact status

theorem check_ok_iff (world : CheckWorld) :
    runOpenAiHealthCheck world = .ok () ↔
      world.opened = .ok () ∧ world.request = .finished (.ok ()) ∧
        ∃ response, readHealthResponse [] world.reads = .ok response ∧
          text "HTTP/1.1 200" <+: response := by
  unfold runOpenAiHealthCheck
  constructor
  · intro h
    obtain ⟨_, opened, h⟩ := bind_ok h
    obtain ⟨_, written, h⟩ := bind_ok h
    obtain ⟨response, read, h⟩ := bind_ok h
    exact ⟨open_ok_iff.mp opened, write_ok_iff.mp written, response, read, require_ok_iff.mp h⟩
  · intro h
    obtain ⟨opened, written, response, read, status⟩ := h
    rw [open_ok_iff.mpr opened, write_ok_iff.mpr written, ok_bind, ok_bind, read, ok_bind]
    exact require_met status _

/-- The check passes exactly when the bytes that arrive begin with a status of 200 and
    bring the end of a head or the end of the stream, however they are cut. -/
theorem health_verdict_iff (world : CheckWorld) :
    runOpenAiHealthCheck world = .ok () ↔
      world.opened = .ok () ∧ world.request = .finished (.ok ()) ∧
        text "HTTP/1.1 200" <+: arrived world.reads ∧
        (headEnd <:+: arrived world.reads ∨ endsNormally world.reads = true) := by
  rw [check_ok_iff, gathered_status_iff]

def ReadsHealth (crates : HttpCrates) : Prop :=
  ∃ parsed, parseHttpHead crates healthCheckBytes = .ok parsed ∧ parsed.method = ⟨text "GET"⟩ ∧
    parsed.target = text "/__tunnelAI/healthz" ∧ parsed.hasChunkedBody = false ∧
    parsed.contentLength = none

/-- A check and the stream of the server that it ends on. -/
structure CheckedStream where
  check : CheckWorld
  permits : Nat
  server : World

variable (crates : HttpCrates) (urls : UrlCrate) (base : Url)

def CheckedStream.serve (x : CheckedStream) : Serving Unit :=
  serveStream crates urls base x.permits x.server

/-- Each end gets a beginning of what the other end writes. -/
structure Linked (x : CheckedStream) : Prop where
  up : ∀ pieces, x.server.delivery = .finished pieces → pieceBytes pieces <+: healthCheckBytes
  down : arrived x.check.reads <+: tunnelBytes (x.serve crates urls base)

def Reached (x : CheckedStream) : Prop :=
  x.permits ≠ 0 ∧ ∃ pieces, x.server.delivery = .finished pieces ∧
    pieceBytes pieces = healthCheckBytes

variable {crates urls base}

theorem health_head : flatHead healthCheckBytes = .ok (healthCheckBytes, []) := by decide

theorem health_read {pieces : List Piece} (reads : ReadsHealth crates)
    (whole : pieceBytes pieces = healthCheckBytes) :
    ∃ received, readHttpRequest crates (BufReader.new pieces) = .ok received ∧
      isHealthRequest received = true := by
  obtain ⟨parsed, parses, get, target, plain, none⟩ := reads
  have length : ([] : Bytes).length =
      if parsed.hasChunkedBody then 0 else parsed.contentLength.getD 0 := by
    rw [plain, none]
    rfl
  have read := read_request_whole health_head parses length
    ((new_contents pieces).trans (whole.trans (List.append_nil _).symm))
  rw [plain, if_neg Bool.false_ne_true] at read
  refine ⟨_, read, ?_⟩
  rw [isHealthRequest, get, target]
  rfl

theorem health_cut {pieces : List Piece} (reads : ReadsHealth crates)
    (begins : pieceBytes pieces <+: healthCheckBytes)
    (proper : pieceBytes pieces ≠ healthCheckBytes) :
    ∃ e, readHttpRequest crates (BufReader.new pieces) = .error e := by
  obtain ⟨parsed, parses, _, _, plain, none⟩ := reads
  have length : ([] : Bytes).length =
      if parsed.hasChunkedBody then 0 else parsed.contentLength.getD 0 := by
    rw [plain, none]
    rfl
  rw [← new_contents pieces] at begins proper
  exact read_request_cut health_head parses length (by rw [List.append_nil]; exact begins)
    (by rw [List.append_nil]; exact proper)

def refusals : List (Nat × String × String) :=
  [(400, "Bad Request", "bad request"), (408, "Request Timeout", "request timeout"),
    (413, "Payload Too Large", "payload too large"),
    (431, "Request Header Fields Too Large", "request headers too large"),
    (501, "Not Implemented", "chunked request bodies are not supported"),
    (503, "Service Unavailable", "too many open streams")]

theorem serves_refused {status : Nat} (reason body : String) :
    Serves (do
      onTunnel (writeErrorAndFinish status reason body)
      pure (none : Option OpenAiHttpRequest)) none (plainResponse status reason body) [] := by
  have both : Serves (do
      onTunnel (writeErrorAndFinish status reason body)
      pure (none : Option OpenAiHttpRequest)) none (plainResponse status reason body ++ []) [] :=
    serves_bind (serves_on_tunnel (writes_error_and_finish status reason body)) (serves_pure none)
  rwa [List.append_nil] at both

theorem unread_refused {world : World}
    (unread : ∀ pieces, world.delivery = .finished pieces →
      ∃ e, readHttpRequest crates (BufReader.new pieces) = .error e) :
    providerSends (handleOpenAiStream crates urls base world) = [] ∧
      ∃ reply ∈ refusals, tunnelBytes (handleOpenAiStream crates urls base world) =
        plainResponse reply.1 reply.2.1 reply.2.2 := by
  have refused : ∃ reply ∈ refusals, Serves (readAndValidateRequest crates world.delivery) none
      (plainResponse reply.1 reply.2.1 reply.2.2) [] := by
    cases delivered : world.delivery with
    | elapsed => exact ⟨(408, _, _), by simp [refusals], serves_refused _ _⟩
    | finished pieces =>
      obtain ⟨e, failed⟩ := unread pieces delivered
      simp only [readAndValidateRequest, failed]
      refine ⟨(e.response.status, e.response.reason, e.response.body), ?_, serves_refused _ _⟩
      cases e <;> simp [refusals, HttpRequestError.response]
  obtain ⟨reply, member, serves⟩ := refused
  rw [handle_eq, tunnel_bytes_bind serves, provider_sends_bind serves]
  exact ⟨rfl, reply, member, List.append_nil _⟩

theorem health_served {world : World} {pieces : List Piece} {received : OpenAiHttpRequest}
    (delivered : world.delivery = .finished pieces)
    (read : readHttpRequest crates (BufReader.new pieces) = .ok received)
    (health : isHealthRequest received = true) :
    providerSends (handleOpenAiStream crates urls base world) = [] ∧
      tunnelBytes (handleOpenAiStream crates urls base world) = plainResponse 200 "OK" "ok\n" := by
  have checked : Serves (respondToHealthCheck received) true
      (plainResponse 200 "OK" "ok\n" ++ ([] ++ [])) [] := by
    rw [respondToHealthCheck, health, if_pos rfl]
    exact serves_bind (serves_on_tunnel (writes_plain_response 200 "OK" "ok\n"))
      (serves_bind (serves_on_tunnel writes_finish) (serves_pure true))
  rw [read_handled delivered read, answer, tunnel_bytes_bind checked, provider_sends_bind checked]
  exact ⟨rfl, by simp [tunnelBytes, observe]⟩

theorem check_served (reads : ReadsHealth crates) {x : CheckedStream}
    (up : ∀ pieces, x.server.delivery = .finished pieces → pieceBytes pieces <+: healthCheckBytes) :
    providerSends (x.serve crates urls base) = [] ∧
      (Reached x ∧ tunnelBytes (x.serve crates urls base) = plainResponse 200 "OK" "ok\n" ∨
        ¬ Reached x ∧ ∃ reply ∈ refusals, tunnelBytes (x.serve crates urls base) =
          plainResponse reply.1 reply.2.1 reply.2.2) := by
  by_cases full : x.permits = 0
  · obtain ⟨bytes, sends⟩ := @serve_refused crates urls base x.server
    rw [CheckedStream.serve, full]
    exact ⟨sends, Or.inr ⟨fun reached => reached.1 full, (503, _, _), by simp [refusals], bytes⟩⟩
  obtain ⟨bytes, sends⟩ := @serve_permitted crates urls base _ full x.server
  rw [CheckedStream.serve, bytes, sends]
  by_cases reached : Reached x
  · obtain ⟨_, pieces, delivered, whole⟩ := reached
    obtain ⟨received, read, health⟩ := health_read reads whole
    obtain ⟨none, ok⟩ := @health_served crates urls base x.server _ _ delivered read health
    exact ⟨none, Or.inl ⟨⟨full, pieces, delivered, whole⟩, ok⟩⟩
  · have unread : ∀ pieces, x.server.delivery = .finished pieces →
        ∃ e, readHttpRequest crates (BufReader.new pieces) = .error e := by
      intro pieces delivered
      apply health_cut reads (up pieces delivered)
      intro whole
      exact reached ⟨full, pieces, delivered, whole⟩
    obtain ⟨none, refused⟩ := @unread_refused crates urls base x.server unread
    exact ⟨none, Or.inr ⟨reached, refused⟩⟩

theorem plain_status {status : Nat} (three : 100 ≤ status ∧ status < 1000) {reason body : String}
    (begins : text "HTTP/1.1 200" <+: plainResponse status reason body) :
    statusDigits status = statusDigits 200 := by
  have ok : text "HTTP/1.1 200" = text "HTTP/1.1 " ++ statusDigits 200 := by decide
  rw [plain_response_bytes three, headBytes, ok] at begins
  simp only [List.append_assoc, List.prefix_append_right_inj] at begins
  obtain ⟨rest, same⟩ := begins
  exact (List.append_inj_left same rfl).symm

theorem refusal_status {reply : Nat × String × String} (member : reply ∈ refusals) :
    ¬ text "HTTP/1.1 200" <+: plainResponse reply.1 reply.2.1 reply.2.2 := by
  have all : ∀ reply ∈ refusals, (100 ≤ reply.1 ∧ reply.1 < 1000) ∧
      statusDigits reply.1 ≠ statusDigits 200 := by decide
  intro begins
  exact (all reply member).2 (plain_status (all reply member).1 begins)

theorem ok_bytes : text "HTTP/1.1 200" <+: plainResponse 200 "OK" "ok\n" ∧
    headEnd <:+: plainResponse 200 "OK" "ok\n" := by
  have ok : text "HTTP/1.1 200" = text "HTTP/1.1 " ++ statusDigits 200 := by decide
  constructor
  · rw [plain_response_bytes (by decide), headBytes, ok]
    simp only [List.append_assoc, List.prefix_append_right_inj]
    exact List.prefix_append _ _
  · have last : headEnd = [ChunkedCoding.cr, ChunkedCoding.lf] ++
        [ChunkedCoding.cr, ChunkedCoding.lf] := by decide
    refine ⟨statusLine 200 (text "OK") ++ text "content-type: text/plain\r\n" ++
      text "connection: close\r\n" ++ (text "content-length: " ++ decimal (text "ok\n").length),
      text "ok\n", ?_⟩
    simp only [plainResponse, last, List.append_assoc]

theorem check_reached (reads : ReadsHealth crates) {x : CheckedStream}
    (linked : Linked crates urls base x) (passed : runOpenAiHealthCheck x.check = .ok ()) :
    Reached x := by
  obtain ⟨_, _, gathered⟩ := (check_ok_iff x.check).mp passed
  obtain ⟨status, _⟩ := (gathered_status_iff x.check.reads).mp gathered
  obtain ⟨_, served⟩ := @check_served crates urls base reads x linked.up
  rcases served with ⟨reached, _⟩ | ⟨_, reply, member, bytes⟩
  · exact reached
  · have begins := status.trans linked.down
    rw [bytes] at begins
    exact absurd begins (refusal_status member)

/-- A health check never reaches the provider. It passes only if the server has taken
    the stream on and read the whole request in time; and then it does pass, if the
    answer gets through. -/
theorem health_check_faithful (reads : ReadsHealth crates) {x : CheckedStream}
    (linked : Linked crates urls base x) :
    providerSends (x.serve crates urls base) = [] ∧
      (runOpenAiHealthCheck x.check = .ok () → Reached x) ∧
      (x.check.opened = .ok () → x.check.request = .finished (.ok ()) → Reached x →
        arrived x.check.reads = tunnelBytes (x.serve crates urls base) →
        runOpenAiHealthCheck x.check = .ok ()) := by
  obtain ⟨none, served⟩ := @check_served crates urls base reads x linked.up
  refine ⟨none, check_reached reads linked, ?_⟩
  intro opened written reached whole
  rcases served with ⟨_, bytes⟩ | ⟨unreached, _⟩
  · rw [check_ok_iff, gathered_status_iff, whole, bytes]
    exact ⟨opened, written, ok_bytes.1, Or.inl ok_bytes.2⟩
  · exact absurd reached unreached

theorem example_reads_health : ReadsHealth exampleCrates := by
  refine ⟨_, rfl, ?_, ?_, ?_, ?_⟩ <;> decide

def exampleStream : CheckedStream where
  check := ⟨.ok (), .finished (.ok ()),
    [.finished (.data (plainResponse 200 "OK" "ok\n")), .finished .ended]⟩
  permits := 1
  server := ⟨.finished [⟨text "GET /__tunnelAI/healthz HTTP/1.1\r\nHo", by decide⟩,
    ⟨text "st: tunnelAI\r\n\r\n", by decide⟩], fun _ => .elapsed⟩

theorem example_reached : Reached exampleStream := ⟨by decide, _, rfl, by decide⟩

theorem example_answer :
    tunnelBytes (exampleStream.serve exampleCrates exampleUrlCrate
      exampleBase) = plainResponse 200 "OK" "ok\n" := by
  have up : ∀ pieces, exampleStream.server.delivery = .finished pieces →
      pieceBytes pieces <+: healthCheckBytes := by
    intro pieces delivered
    cases delivered
    decide
  rcases (@check_served _ exampleUrlCrate exampleBase
    example_reads_health _ up).2 with ⟨_, bytes⟩ | ⟨unreached, _⟩
  · exact bytes
  · exact absurd example_reached unreached

theorem health_check_faithful_example :
    providerSends (exampleStream.serve exampleCrates exampleUrlCrate
        exampleBase) = [] ∧
      runOpenAiHealthCheck exampleStream.check = .ok () := by
  have linked : Linked exampleCrates exampleUrlCrate
      exampleBase exampleStream := by
    constructor
    · intro pieces delivered
      cases delivered
      decide
    · rw [example_answer]
      simp [arrived, exampleStream]
  obtain ⟨none, _, passes⟩ := health_check_faithful example_reads_health linked
  refine ⟨none, passes rfl rfl example_reached ?_⟩
  rw [example_answer]
  simp [arrived, exampleStream]

end HealthCheck
