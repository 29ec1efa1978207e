import TunnelAI.ResponseWriter
import TunnelAI.RequestDelivery
import TunnelAI.HeaderLists
import TunnelAI.HeadLimits

/-!
One tunnel stream on the server, from the request to the response. What the
timers, the peer and the provider do is an argument of the program; what the
program does, on the stream and to the provider, is its trace. Writes to the
stream succeed.
-/
namespace ServerStream
open StreamReader BufferedReader ChunkedCoding TracedEffects Fallible UrlReference HttpHead
  HeaderLists HttpReaders HeadLimits ProviderUrl ResponseWriter
open RequestDelivery (isHealthRequest Handler)

structure ProviderRequest where
  method : Method
  url : Url
  headers : HeaderMap
  body : Bytes

inductive ServerEvent where
  | tunnel : SendEvent → ServerEvent
  | send : ProviderRequest → ServerEvent

abbrev Serving := Traced ServerEvent String

/-- The pieces that the request's reads bring before the time is up, and what comes
    of a request to the provider. -/
structure World where
  delivery : Timed (List Piece)
  send : ProviderRequest → Timed (Except Unit ProviderResponse)

def onTunnel {α : Type} (s : Send α) : Serving α := ⟨s.events.map .tunnel, s.result⟩

def shouldForwardRequestHeader (name : Bytes) : Bool :=
  !([text "host", text "content-length", text "connection", text "transfer-encoding",
    text "keep-alive", text "proxy-authenticate", text "proxy-authorization", text "te",
    text "trailer", text "upgrade"].contains name)

def keys (headers : HeaderMap) : List HeaderName := (headers.map Prod.fst).eraseDups

def attachedHeaders (headers : HeaderMap) : HeaderMap :=
  (keys headers).flatMap fun name =>
    if shouldForwardRequestHeader name.name then
      (valuesOf name headers).map fun value => (name, value)
    else []

variable (crates : HttpCrates) (urls : UrlCrate) (base : Url)

def readAndValidateRequest : Timed (List Piece) → Serving (Option OpenAiHttpRequest)
  | .finished recv =>
    match readHttpRequest crates (BufReader.new recv) with
    | .ok request => pure (some request)
    | .error err => do
      onTunnel (writeErrorAndFinish err.response.status err.response.reason err.response.body)
      pure none
  | .elapsed => do
    onTunnel (writeErrorAndFinish 408 "Request Timeout" "request timeout")
    pure none

def respondToHealthCheck (request : OpenAiHttpRequest) : Serving Bool :=
  if isHealthRequest request then do
    onTunnel (writePlainResponse 200 "OK" "ok\n")
    onTunnel finish
    pure true
  else pure false

def providerRequestBuilder (request : OpenAiHttpRequest) : Except String ProviderRequest := do
  let url ← providerRequestUrlFromBase urls base request.target
  return ⟨request.method, url, attachedHeaders request.headers, request.body⟩

def forwardRequestToProvider (send : ProviderRequest → Timed (Except Unit ProviderResponse))
    (request : OpenAiHttpRequest) : Serving (Option ProviderResponse) :=
  match providerRequestBuilder urls base request with
  | .error _ => do
    onTunnel (writeErrorAndFinish 400 "Bad Request" "bad request")
    pure none
  | .ok request => do
    emit (.send request)
    match send request with
    | .finished (.ok response) => pure (some response)
    | .finished (.error _) => do
      onTunnel (writeErrorAndFinish 502 "Bad Gateway" "provider request failed")
      pure none
    | .elapsed => do
      onTunnel (writeErrorAndFinish 504 "Gateway Timeout" "provider request timed out")
      pure none

def handleOpenAiStream (world : World) : Serving Unit := do
  match ← readAndValidateRequest crates world.delivery with
  | none => pure ()
  | some request =>
    if ← respondToHealthCheck request then pure ()
    else
      match ← forwardRequestToProvider urls base world.send request with
      | none => pure ()
      | some response => onTunnel (copyProviderResponseAndFinish crates response)

def tunnelBytes {α : Type} (run : Serving α) : Bytes :=
  observe (fun
    | .tunnel (.write bytes) => bytes
    | _ => []) run

def providerSends {α : Type} (run : Serving α) : List ProviderRequest :=
  observe (fun
    | .send request => [request]
    | _ => []) run

structure Serves {α : Type} (run : Serving α) (a : α) (bytes : Bytes)
    (sends : List ProviderRequest) : Prop where
  returns : run.result = .ok a
  bytes : tunnelBytes run = bytes
  sends : providerSends run = sends

variable {crates urls base}

theorem serves_pure {α : Type} (a : α) : Serves (pure a) a [] [] := ⟨rfl, rfl, rfl⟩

theorem serves_send (request : ProviderRequest) : Serves (emit (.send request)) () [] [request] :=
  ⟨rfl, rfl, rfl⟩

theorem tunnel_bytes_bind {α β : Type} {run : Serving α} {next : α → Serving β} {a : α}
    {bytes : Bytes} {sends : List ProviderRequest} (first : Serves run a bytes sends) :
    tunnelBytes (run >>= next) = bytes ++ tunnelBytes (next a) :=
  observe_after first.returns first.bytes next

theorem provider_sends_bind {α β : Type} {run : Serving α} {next : α → Serving β} {a : α}
    {bytes : Bytes} {sends : List ProviderRequest} (first : Serves run a bytes sends) :
    providerSends (run >>= next) = sends ++ providerSends (next a) :=
  observe_after first.returns first.sends next

theorem serves_bind {α β : Type} {run : Serving α} {next : α → Serving β} {a : α} {b : β}
    {bytes more : Bytes} {sends others : List ProviderRequest} (first : Serves run a bytes sends)
    (rest : Serves (next a) b more others) :
    Serves (run >>= next) b (bytes ++ more) (sends ++ others) :=
  ⟨by rw [result_bind first.returns, rest.returns], by rw [tunnel_bytes_bind first, rest.bytes],
    by rw [provider_sends_bind first, rest.sends]⟩

theorem on_tunnel_bytes {α : Type} (s : Send α) :
    tunnelBytes (onTunnel s) = written s ∧ providerSends (onTunnel s) = [] := by
  obtain ⟨events, result⟩ := s
  constructor
  · simp only [tunnelBytes, observe, onTunnel, written, List.flatMap_map]
    congr
    funext event
    cases event <;> rfl
  · simp [providerSends, observe, onTunnel, List.flatMap_map]

theorem serves_on_tunnel {s : Send Unit} {bytes : Bytes} (writes : Writes s bytes) :
    Serves (onTunnel s) () bytes [] := by
  obtain ⟨written, sent⟩ := on_tunnel_bytes s
  exact ⟨writes.1, written.trans writes.2, sent⟩

def ownReplies : List (Nat × String × String) :=
  [(200, "OK", "ok\n"), (400, "Bad Request", "bad request"),
    (408, "Request Timeout", "request timeout"), (413, "Payload Too Large", "payload too large"),
    (431, "Request Header Fields Too Large", "request headers too large"),
    (501, "Not Implemented", "chunked request bodies are not supported"),
    (502, "Bad Gateway", "provider request failed"),
    (502, "Bad Gateway", "provider response failed"),
    (504, "Gateway Timeout", "provider request timed out")]

def OwnResponse (bytes : Bytes) : Prop :=
  ∃ status reason body, (status, reason, body) ∈ ownReplies ∧
    bytes = plainResponse status reason body

theorem error_response_own (err : HttpRequestError) :
    (err.response.status, err.response.reason, err.response.body) ∈ ownReplies := by
  cases err <;> simp [HttpRequestError.response, ownReplies]

theorem serves_error {status : Nat} {reason body : String}
    (own : (status, reason, body) ∈ ownReplies) (α : Type) :
    ∃ bytes, OwnResponse bytes ∧ Serves (do
      onTunnel (writeErrorAndFinish status reason body)
      pure (none : Option α)) none bytes [] := by
  refine ⟨plainResponse status reason body, ⟨status, reason, body, own, rfl⟩, ?_⟩
  have both : Serves (do
      onTunnel (writeErrorAndFinish status reason body)
      pure (none : Option α)) none (plainResponse status reason body ++ []) [] :=
    serves_bind (serves_on_tunnel (writes_error_and_finish status reason body)) (serves_pure none)
  rwa [List.append_nil] at both

variable (crates)

/-- The stream begins with a complete request that is not marked chunked. -/
def Complete (s : Bytes) (request : OpenAiHttpRequest) : Prop :=
  ∃ head rest parsed, IsHead s head rest ∧ parseHttpHead crates head = .ok parsed ∧
    parsed.hasChunkedBody = false ∧ parsed.contentLength.getD 0 ≤ rest.length ∧
    request = ⟨parsed.method, parsed.target, parsed.headers,
      rest.take (parsed.contentLength.getD 0)⟩

variable (urls base)

/-- What the provider's client is to send for the request on the stream. -/
def Sendable (world : World) (request : ProviderRequest) : Prop :=
  ∃ pieces received, world.delivery = .finished pieces ∧
    Complete crates (pieceBytes pieces) received ∧ isHealthRequest received = false ∧
    providerRequestBuilder urls base received = .ok request

/-- A response of the provider that has begun, as far as it has come. -/
def Forwarded (response : ProviderResponse) (bytes : Bytes) : Prop :=
  (response.chunks ≠ [] ∨ response.failed = false) ∧
    bytes = responseHead crates response ++ (response.chunks.flatMap encodeChunk ++
      if response.failed then [] else terminator)

variable {crates urls base}

theorem read_body_prefix {r r' : BufReader} {n : Nat} {body : Bytes}
    (h : readBody r n = .ok (body, r')) : n ≤ r.contents.length ∧ body = r.contents.take n := by
  obtain ⟨rfl, split⟩ := read_body_ok h
  rw [split]
  simp

theorem read_request_ok_iff {recv : BufReader} {request : OpenAiHttpRequest} :
    readHttpRequest crates recv = .ok request ↔ Complete crates recv.contents request := by
  constructor
  · intro h
    unfold readHttpRequest at h
    obtain ⟨⟨head, reader⟩, found, h⟩ := bind_ok h
    obtain ⟨parsed, accepted, h⟩ := bind_ok h
    obtain ⟨_, plain, h⟩ := bind_ok h
    obtain ⟨⟨body, last⟩, taken, h⟩ := bind_ok h
    obtain ⟨enough, rfl⟩ := read_body_prefix taken
    cases h
    exact ⟨head, reader.contents, parsed, flat_is_head (read_head_ok found), accepted,
      require_ok_iff.mp plain, enough, rfl⟩
  · intro complete
    obtain ⟨head, rest, parsed, isHead, accepted, plain, enough, rfl⟩ := complete
    obtain ⟨reader, read, rfl⟩ := read_head_of_flat (is_head_flat isHead)
    have split := (List.take_append_drop (parsed.contentLength.getD 0) reader.contents).symm
    have length : (reader.contents.take (parsed.contentLength.getD 0)).length =
        parsed.contentLength.getD 0 := by
      rw [List.length_take]
      omega
    obtain ⟨last, taken, _⟩ := read_body_enough split
    rw [length] at taken
    simp only [readHttpRequest, read, accepted, ok_bind, require_met plain, taken]
    rfl

theorem complete_read {pieces : List Piece} {request : OpenAiHttpRequest} :
    Complete crates (pieceBytes pieces) request ↔
      readHttpRequest crates (BufReader.new pieces) = .ok request := by
  rw [read_request_ok_iff, new_contents]

variable (crates urls base)

theorem serves_read (delivery : Timed (List Piece)) :
    (∃ pieces request, delivery = .finished pieces ∧ Complete crates (pieceBytes pieces) request ∧
      Serves (readAndValidateRequest crates delivery) (some request) [] []) ∨
      ((∀ pieces request, delivery = .finished pieces →
          ¬ Complete crates (pieceBytes pieces) request) ∧
        ∃ bytes, OwnResponse bytes ∧
          Serves (readAndValidateRequest crates delivery) none bytes []) := by
  cases delivery with
  | elapsed =>
    refine Or.inr ⟨fun _ _ impossible => by contradiction, ?_⟩
    exact serves_error (by simp [ownReplies]) OpenAiHttpRequest
  | finished pieces =>
    cases read : readHttpRequest crates (BufReader.new pieces) with
    | ok request =>
      refine Or.inl ⟨pieces, request, rfl, complete_read.mpr read, ?_⟩
      simp only [readAndValidateRequest, read]
      exact serves_pure (some request)
    | error err =>
      simp only [readAndValidateRequest, read]
      refine Or.inr ⟨?_, serves_error (error_response_own err) OpenAiHttpRequest⟩
      intro pieces' request same complete
      cases same
      rw [complete_read.mp complete] at read
      contradiction

theorem serves_health_check (request : OpenAiHttpRequest) :
    (isHealthRequest request = false ∧ Serves (respondToHealthCheck request) false [] []) ∨
      isHealthRequest request = true ∧
        ∃ bytes, OwnResponse bytes ∧ Serves (respondToHealthCheck request) true bytes [] := by
  unfold respondToHealthCheck
  cases isHealthRequest request with
  | false => exact Or.inl ⟨rfl, serves_pure false⟩
  | true =>
    refine Or.inr ⟨rfl, plainResponse 200 "OK" "ok\n", ⟨_, _, _, by simp [ownReplies], rfl⟩, ?_⟩
    have all : Serves (do
        onTunnel (writePlainResponse 200 "OK" "ok\n")
        onTunnel finish
        pure true) true (plainResponse 200 "OK" "ok\n" ++ ([] ++ [])) [] :=
      serves_bind (serves_on_tunnel (writes_plain_response 200 "OK" "ok\n"))
        (serves_bind (serves_on_tunnel writes_finish) (serves_pure true))
    rwa [List.append_nil, List.append_nil] at all

theorem serves_forward (send : ProviderRequest → Timed (Except Unit ProviderResponse))
    (received : OpenAiHttpRequest) :
    (∃ request response, providerRequestBuilder urls base received = .ok request ∧
      send request = .finished (.ok response) ∧
      Serves (forwardRequestToProvider urls base send received) (some response) [] [request]) ∨
    (∃ request bytes, providerRequestBuilder urls base received = .ok request ∧
      OwnResponse bytes ∧
      Serves (forwardRequestToProvider urls base send received) none bytes [request]) ∨
    (∃ e bytes, providerRequestBuilder urls base received = .error e ∧ OwnResponse bytes ∧
      Serves (forwardRequestToProvider urls base send received) none bytes []) := by
  cases built : providerRequestBuilder urls base received with
  | error e =>
    obtain ⟨bytes, own, serves⟩ := serves_error
      (show (400, "Bad Request", "bad request") ∈ ownReplies by simp [ownReplies]) ProviderResponse
    refine Or.inr (Or.inr ⟨e, bytes, rfl, own, ?_⟩)
    simp only [forwardRequestToProvider, built]
    exact serves
  | ok request =>
    cases outcome : send request with
    | elapsed =>
      obtain ⟨bytes, own, serves⟩ := serves_error
        (show (504, "Gateway Timeout", "provider request timed out") ∈ ownReplies by
          simp [ownReplies]) ProviderResponse
      refine Or.inr (Or.inl ⟨request, bytes, rfl, own, ?_⟩)
      simp only [forwardRequestToProvider, built, outcome]
      exact serves_bind (serves_send request) serves
    | finished result =>
      cases result with
      | ok response =>
        refine Or.inl ⟨request, response, rfl, outcome, ?_⟩
        simp only [forwardRequestToProvider, built, outcome]
        exact serves_bind (serves_send request) (serves_pure (some response))
      | error e =>
        obtain ⟨bytes, own, serves⟩ := serves_error
          (show (502, "Bad Gateway", "provider request failed") ∈ ownReplies by
            simp [ownReplies]) ProviderResponse
        refine Or.inr (Or.inl ⟨request, bytes, rfl, own, ?_⟩)
        simp only [forwardRequestToProvider, built, outcome]
        exact serves_bind (serves_send request) serves

theorem serves_copy (response : ProviderResponse) :
    (OwnResponse (tunnelBytes (onTunnel (copyProviderResponseAndFinish crates response))) ∨
      Forwarded crates response
        (tunnelBytes (onTunnel (copyProviderResponseAndFinish crates response)))) ∧
      providerSends (onTunnel (copyProviderResponseAndFinish crates response)) = [] := by
  obtain ⟨bytes, sends⟩ := on_tunnel_bytes (copyProviderResponseAndFinish crates response)
  refine ⟨?_, sends⟩
  rw [bytes]
  by_cases begun : response.chunks ≠ [] ∨ response.failed = false
  · exact Or.inr ⟨begun, by rw [written_response begun, (writes_head_bytes response).2]⟩
  · have none : response.chunks = [] := by simpa using fun some => begun (Or.inl some)
    have failed : response.failed = true := by simpa using fun normal => begun (Or.inr normal)
    left
    refine ⟨502, "Bad Gateway", "provider response failed", by simp [ownReplies], ?_⟩
    simp only [copyProviderResponseAndFinish, ProviderResponse.chunk, none, failed, if_true]
    exact (writes_error_and_finish 502 "Bad Gateway" "provider response failed").2

def answer (send : ProviderRequest → Timed (Except Unit ProviderResponse))
    (request : OpenAiHttpRequest) : Serving Unit := do
  if ← respondToHealthCheck request then pure ()
  else
    match ← forwardRequestToProvider urls base send request with
    | none => pure ()
    | some response => onTunnel (copyProviderResponseAndFinish crates response)

theorem handle_eq (world : World) :
    handleOpenAiStream crates urls base world =
      (readAndValidateRequest crates world.delivery >>= fun read =>
        match read with
        | none => pure ()
        | some request => answer crates urls base world.send request) := rfl

theorem answer_cases (send : ProviderRequest → Timed (Except Unit ProviderResponse))
    (received : OpenAiHttpRequest) :
    (∃ request, isHealthRequest received = false ∧
      providerRequestBuilder urls base received = .ok request ∧
      providerSends (answer crates urls base send received) = [request] ∧
      (OwnResponse (tunnelBytes (answer crates urls base send received)) ∨
        ∃ response, send request = .finished (.ok response) ∧
          Forwarded crates response (tunnelBytes (answer crates urls base send received)))) ∨
    (¬ ∃ request, isHealthRequest received = false ∧
      providerRequestBuilder urls base received = .ok request) ∧
      providerSends (answer crates urls base send received) = [] ∧
      OwnResponse (tunnelBytes (answer crates urls base send received)) := by
  have silent : tunnelBytes (pure () : Serving Unit) = [] ∧
      providerSends (pure () : Serving Unit) = [] := ⟨rfl, rfl⟩
  rcases serves_health_check received with ⟨other, checked⟩ | ⟨health, bytes, own, checked⟩
  · rw [answer, tunnel_bytes_bind checked, provider_sends_bind checked]
    simp only [Bool.false_eq_true, if_false, List.nil_append, other, true_and]
    rcases serves_forward urls base send received with
      ⟨request, response, built, outcome, serves⟩ | ⟨request, bytes, built, own, serves⟩ |
      ⟨e, bytes, built, own, serves⟩
    · rw [tunnel_bytes_bind serves, provider_sends_bind serves]
      obtain ⟨wrote, none⟩ := serves_copy crates response
      refine Or.inl ⟨request, built, by simp only [none, List.append_nil], ?_⟩
      rcases wrote with own | forwarded
      · exact Or.inl own
      · exact Or.inr ⟨response, outcome, forwarded⟩
    · rw [tunnel_bytes_bind serves, provider_sends_bind serves]
      refine Or.inl ⟨request, built, by simp only [silent.2, List.append_nil], Or.inl ?_⟩
      simpa only [silent.1, List.append_nil] using own
    · rw [tunnel_bytes_bind serves, provider_sends_bind serves]
      refine Or.inr ⟨by simp [built], silent.2, ?_⟩
      simpa only [silent.1, List.append_nil] using own
  · rw [answer, tunnel_bytes_bind checked, provider_sends_bind checked]
    refine Or.inr ⟨by simp [health], silent.2, ?_⟩
    simpa only [if_true, silent.1, List.append_nil] using own

/-- Whatever the peer sends and whatever happens, the stream gets one response: one
    of the server's own, or the provider's as far as it has come. The provider gets
    a request exactly when there is a complete one that is for it, and gets it once. -/
theorem one_response_per_stream (world : World) :
    (OwnResponse (tunnelBytes (handleOpenAiStream crates urls base world)) ∨
      ∃ request response, Sendable crates urls base world request ∧
        world.send request = .finished (.ok response) ∧
        Forwarded crates response (tunnelBytes (handleOpenAiStream crates urls base world))) ∧
      ((∃ request, Sendable crates urls base world request ∧
          providerSends (handleOpenAiStream crates urls base world) = [request]) ∨
        (∀ request, ¬ Sendable crates urls base world request) ∧
          providerSends (handleOpenAiStream crates urls base world) = []) := by
  rw [handle_eq]
  rcases serves_read crates world.delivery with
    ⟨pieces, received, delivered, complete, read⟩ | ⟨incomplete, bytes, own, read⟩
  · rw [tunnel_bytes_bind read, provider_sends_bind read]
    rcases answer_cases crates urls base world.send received with
      ⟨request, other, built, sends, bytes⟩ | ⟨none, sends, own⟩
    · have sendable : Sendable crates urls base world request :=
        ⟨pieces, received, delivered, complete, other, built⟩
      refine ⟨?_, Or.inl ⟨request, sendable, sends⟩⟩
      rcases bytes with own | ⟨response, outcome, forwarded⟩
      · exact Or.inl own
      · exact Or.inr ⟨request, response, sendable, outcome, forwarded⟩
    · refine ⟨Or.inl own, Or.inr ⟨?_, sends⟩⟩
      intro request sendable
      obtain ⟨pieces', received', delivered', complete', other, built⟩ := sendable
      rw [delivered, Timed.finished.injEq] at delivered'
      subst delivered'
      rw [complete_read, complete_read.mp complete, Except.ok.injEq] at complete'
      subst complete'
      exact none ⟨request, other, built⟩
  · rw [tunnel_bytes_bind read, provider_sends_bind read]
    refine ⟨Or.inl ?_, Or.inr ⟨?_, rfl⟩⟩
    · simpa [tunnelBytes, observe] using own
    · intro request sendable
      obtain ⟨pieces, received, delivered, complete, _, _⟩ := sendable
      exact incomplete pieces received delivered complete

theorem sendable_iff_forwarding {world : World} {pieces : List Piece} {request : ProviderRequest}
    (delivered : world.delivery = .finished pieces) :
    Sendable crates urls base world request ↔ ∃ received url,
      Handler.validated urls base (readHttpRequest crates (BufReader.new pieces)) =
        .forwarding received url ∧
      request = ⟨received.method, url, attachedHeaders received.headers, received.body⟩ := by
  constructor
  · intro sendable
    obtain ⟨pieces', received, delivered', complete, other, built⟩ := sendable
    rw [delivered, Timed.finished.injEq] at delivered'
    subst delivered'
    obtain ⟨url, found, built⟩ := bind_ok built
    cases built
    refine ⟨received, url, ?_, rfl⟩
    simp [complete_read.mp complete, Handler.validated, other, found]
  · intro forwarding
    obtain ⟨received, url, validated, rfl⟩ := forwarding
    cases read : readHttpRequest crates (BufReader.new pieces) with
    | error e => simp [read, Handler.validated] at validated
    | ok other =>
      rw [read, Handler.validated] at validated
      split at validated
      · contradiction
      · rename_i forProvider
        split at validated
        · contradiction
        · rename_i url' found
          cases validated
          refine ⟨pieces, received, delivered, complete_read.mpr read, by simpa using forProvider, ?_⟩
          rw [providerRequestBuilder, found]
          rfl

end ServerStream
