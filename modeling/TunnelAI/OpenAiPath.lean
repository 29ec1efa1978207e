import TunnelAI.PlainResponses
import TunnelAI.ResponseFraming

/-!
A request's way from the application to the provider and the response's way back,
through the client's session, a tunnel stream and the server's handler. What the
two ends of the stream see of each other is a beginning of what was written, cut
in any way; whole, if nothing is lost. Timers, the tunnel and the provider are
arguments of the two programs.
-/
namespace OpenAiPath
open StreamReader BufferedReader TracedEffects Fallible ChunkedCoding ResponseMessages
  MessageBoundaries UrlReference HttpHead HttpReaders ProviderUrl ProviderConfinement
  ResponseWriter HeaderForwarding ServerStream ResponseFraming PlainResponses
open RequestDelivery (isHealthRequest)
open ClientSession (handleOpenAiClientStream localBytes chunks Accepted Copying)

/-- `acquire_stream_permit` with this many permits free; whether the stream goes on. -/
def acquireStreamPermit (permits : Nat) : Send Bool :=
  if permits = 0 then do
    writePlainError 503 "Service Unavailable" "too many open streams"
    finish
    pure false
  else pure true

def serveStream (crates : HttpCrates) (urls : UrlCrate) (base : Url) (permits : Nat)
    (world : World) : Serving Unit := do
  if ← onTunnel (acquireStreamPermit permits) then handleOpenAiStream crates urls base world

/-- The two ends of one stream. -/
structure Exchange where
  client : ClientSession.World
  permits : Nat
  server : World

variable (crates : HttpCrates) (urls : UrlCrate) (base : Url)

def Exchange.serve (x : Exchange) : Serving Unit :=
  serveStream crates urls base x.permits x.server

/-- Each end gets a beginning of what the other end writes. -/
structure Joined (x : Exchange) : Prop where
  up : ∀ pieces, x.server.delivery = .finished pieces →
    ∃ request, Accepted crates x.client request ∧ pieceBytes pieces <+: request
  down : (chunks x.client.reads).flatten <+: tunnelBytes (x.serve crates urls base)

def OfApplication (x : Exchange) (sent : ProviderRequest) : Prop :=
  ∃ pieces head rest parsed url, x.client.delivery = .finished pieces ∧
    pieceBytes pieces = head ++ sent.body ++ rest ∧ parseHttpHead crates head = .ok parsed ∧
    parsed.hasChunkedBody = false ∧ sent.body.length = parsed.contentLength.getD 0 ∧
    providerRequestUrlFromBase urls base parsed.target = .ok url ∧ sent.method = parsed.method ∧
    sent.url = url ∧ sent.headers = attachedHeaders parsed.headers

def serverReplies : List (Nat × String × String) :=
  (503, "Service Unavailable", "too many open streams") :: ownReplies

variable {crates urls base}

theorem serves_refusal : Serves (onTunnel (acquireStreamPermit 0)) false
    (plainResponse 503 "Service Unavailable" "too many open streams") [] := by
  have written : Serves (do
      onTunnel (writePlainError 503 "Service Unavailable" "too many open streams")
      onTunnel finish
      pure false) false
        (plainResponse 503 "Service Unavailable" "too many open streams" ++ ([] ++ [])) [] :=
    serves_bind (serves_on_tunnel (writes_plain_response 503 _ _))
      (serves_bind (serves_on_tunnel writes_finish) (serves_pure false))
  rw [List.append_nil, List.append_nil] at written
  exact written

theorem serve_refused (world : World) :
    tunnelBytes (serveStream crates urls base 0 world) =
        plainResponse 503 "Service Unavailable" "too many open streams" ∧
      providerSends (serveStream crates urls base 0 world) = [] := by
  rw [serveStream, tunnel_bytes_bind serves_refusal, provider_sends_bind serves_refusal]
  exact ⟨List.append_nil _, rfl⟩

theorem serve_permitted {permits : Nat} (free : permits ≠ 0) (world : World) :
    tunnelBytes (serveStream crates urls base permits world) =
        tunnelBytes (handleOpenAiStream crates urls base world) ∧
      providerSends (serveStream crates urls base permits world) =
        providerSends (handleOpenAiStream crates urls base world) := by
  have passed : Serves (onTunnel (acquireStreamPermit permits)) true [] [] := by
    rw [acquireStreamPermit, if_neg free]
    exact ⟨rfl, rfl, rfl⟩
  rw [serveStream, tunnel_bytes_bind passed, provider_sends_bind passed]
  exact ⟨rfl, rfl⟩

theorem handle_cases (world : World) :
    ((∃ bytes, OwnResponse bytes ∧
        tunnelBytes (handleOpenAiStream crates urls base world) = bytes) ∧
      providerSends (handleOpenAiStream crates urls base world) = []) ∨
    ∃ pieces received, world.delivery = .finished pieces ∧
      readHttpRequest crates (BufReader.new pieces) = .ok received ∧
      tunnelBytes (handleOpenAiStream crates urls base world) =
        tunnelBytes (answer crates urls base world.send received) ∧
      providerSends (handleOpenAiStream crates urls base world) =
        providerSends (answer crates urls base world.send received) := by
  rw [handle_eq]
  rcases serves_read crates world.delivery with
    ⟨pieces, received, delivered, complete, read⟩ | ⟨_, bytes, own, read⟩
  · rw [tunnel_bytes_bind read, provider_sends_bind read]
    exact Or.inr ⟨pieces, received, delivered, complete_read.mp complete, rfl, rfl⟩
  · rw [tunnel_bytes_bind read, provider_sends_bind read]
    exact Or.inl ⟨⟨bytes, own, List.append_nil bytes⟩, rfl⟩

def Replies (bytes : Bytes) : Prop :=
  ∃ reply ∈ serverReplies, bytes = plainResponse reply.1 reply.2.1 reply.2.2

theorem own_replies {bytes : Bytes} (own : OwnResponse bytes) : Replies bytes := by
  obtain ⟨status, reason, body, member, rfl⟩ := own
  exact ⟨(status, reason, body), List.mem_cons_of_mem _ member, rfl⟩

theorem serve_cases (permits : Nat) (world : World) :
    (providerSends (serveStream crates urls base permits world) = [] ∧
      Replies (tunnelBytes (serveStream crates urls base permits world))) ∨
    ∃ pieces received request, world.delivery = .finished pieces ∧
      readHttpRequest crates (BufReader.new pieces) = .ok received ∧
      isHealthRequest received = false ∧
      providerRequestBuilder urls base received = .ok request ∧
      providerSends (serveStream crates urls base permits world) = [request] ∧
      (Replies (tunnelBytes (serveStream crates urls base permits world)) ∨
        ∃ response, world.send request = .finished (.ok response) ∧
          Forwarded crates response (tunnelBytes (serveStream crates urls base permits world))) := by
  by_cases full : permits = 0
  · obtain ⟨bytes, sends⟩ := @serve_refused crates urls base world
    rw [full]
    exact Or.inl ⟨sends, _, List.mem_cons_self, bytes⟩
  obtain ⟨bytes, sends⟩ := @serve_permitted crates urls base _ full world
  rw [bytes, sends]
  rcases @handle_cases crates urls base world with
    ⟨⟨own, response, bytes⟩, sends⟩ | ⟨pieces, received, delivered, read, bytes, sends⟩
  · rw [bytes]
    exact Or.inl ⟨sends, own_replies response⟩
  · rw [bytes, sends]
    rcases answer_cases crates urls base world.send received with
      ⟨request, other, built, sends, wrote⟩ | ⟨_, sends, own⟩
    · refine Or.inr ⟨pieces, received, request, delivered, read, other, built, sends, ?_⟩
      rcases wrote with own | ⟨response, outcome, forwarded⟩
      · exact Or.inl (own_replies own)
      · exact Or.inr ⟨response, outcome, forwarded⟩
    · exact Or.inl ⟨sends, own_replies own⟩

theorem received_whole {world : ClientSession.World} {request : Bytes} {pieces : List Piece}
    {received : OpenAiHttpRequest} (accepted : Accepted crates world request)
    (begins : pieceBytes pieces <+: request)
    (read : readHttpRequest crates (BufReader.new pieces) = .ok received) :
    pieceBytes pieces = request ∧ ∃ local_ head rest parsed, world.delivery = .finished local_ ∧
      pieceBytes local_ = head ++ received.body ++ rest ∧ parseHttpHead crates head = .ok parsed ∧
      parsed.hasChunkedBody = false ∧ received.body.length = parsed.contentLength.getD 0 ∧
      received = ⟨parsed.method, parsed.target, parsed.headers, received.body⟩ := by
  obtain ⟨local_, reader, delivered, accepted⟩ := accepted
  obtain ⟨head, body, parsed, rfl, split, whole, parses, length⟩ := read_local_ok accepted
  have complete : pieceBytes pieces = head ++ body := by
    by_contra proper
    rw [← new_contents pieces] at begins proper
    obtain ⟨e, failed⟩ := read_request_cut whole parses length begins proper
    rw [read] at failed
    contradiction
  have found := read_request_whole whole parses length ((new_contents pieces).trans complete)
  rw [read] at found
  cases chunked : parsed.hasChunkedBody with
  | true =>
    rw [chunked, if_pos rfl] at found
    contradiction
  | false =>
    rw [chunked] at found length
    rw [if_neg Bool.false_ne_true, Except.ok.injEq] at found
    rw [if_neg Bool.false_ne_true] at length
    subst found
    rw [new_contents] at split
    exact ⟨complete, local_, head, reader.contents, parsed, delivered, split, parses, chunked,
      length, rfl⟩

/-- Whatever the tunnel loses, the provider gets nothing or one request, and that
    one is the application's, whole: its method, its target under the base URL, its
    headers but those that are not forwarded, and its body. -/
theorem provider_gets_own_request {x : Exchange} (joined : Joined crates urls base x) :
    providerSends (x.serve crates urls base) = [] ∨
      ∃ sent, providerSends (x.serve crates urls base) = [sent] ∧
        OfApplication crates urls base x sent := by
  rcases @serve_cases crates urls base x.permits x.server with
    ⟨none, _⟩ | ⟨pieces, received, request, delivered, read, _, built, sends, _⟩
  · exact Or.inl none
  · obtain ⟨raw, accepted, begins⟩ := joined.up pieces delivered
    obtain ⟨_, local_, head, rest, parsed, localDelivered, split, parses, plain, length, shape⟩ :=
      received_whole accepted begins read
    obtain ⟨url, found, built⟩ := bind_ok built
    cases built
    refine Or.inr ⟨_, sends, local_, head, rest, parsed, url, localDelivered, split, parses, plain,
      length, ?_, ?_, rfl, ?_⟩
    · rw [shape] at found
      exact found
    · exact congrArg OpenAiHttpRequest.method shape
    · exact congrArg (fun request => attachedHeaders request.headers) shape

/-- A response of the provider that a client with this method can take in full. -/
structure Regular (method : Bytes) (response : ProviderResponse) : Prop where
  valid : FromProvider response
  expects : ¬ Bodyless method response.status
  full : ∀ chunk ∈ response.chunks, chunk ≠ []

def wholeMessage (response : ProviderResponse) : Message :=
  ⟨⟨response.status, passedFields response.headers ++ ownFields⟩, response.chunks.flatten, []⟩

def plainMessage (reply : Nat × String × String) : Message :=
  ⟨⟨reply.1, plainFields reply.2.2⟩, text reply.2.2, []⟩

def wholeBytes (crates : HttpCrates) (response : ProviderResponse) : Bytes :=
  responseHead crates response ++ (response.chunks.flatMap encodeChunk ++ terminator)

theorem whole_bytes_message (reasons : PlainReasons crates) {method : Bytes}
    {response : ProviderResponse} (regular : Regular method response) :
    parseMessage method (wholeBytes crates response) = some (wholeMessage response) ∧
      framing method (wholeMessage response).head ≠ .untilClose := by
  have chunked : framing method (wholeMessage response).head = .chunked :=
    @writer_framing ⟨method⟩ response regular.expects
  obtain ⟨complete, body, left⟩ :=
    (@behind_decodes_iff ⟨response.status, response.headers, response.chunks, false⟩ rfl).mpr
      regular.full
  constructor
  · rw [parse_message_iff]
    refine ⟨_, head_parses reasons regular.valid _, ?_⟩
    simp only [MessageBoundaries.body, chunked, complete, body, left, if_true]
    rfl
  · rw [chunked]
    intro impossible
    cases impossible

theorem forwarded_message (reasons : PlainReasons crates) {method : Bytes}
    {response : ProviderResponse} (regular : Regular method response) {bytes got : Bytes}
    (forwarded : Forwarded crates response bytes) (begins : got <+: bytes) {message : Message}
    (parsed : parseMessage method got = some message) :
    response.failed = false ∧ message = wholeMessage response := by
  obtain ⟨whole, bounded⟩ := whole_bytes_message reasons regular
  have inside : bytes <+: wholeBytes crates response ∧
      (response.failed = true → bytes ≠ wholeBytes crates response) := by
    rw [forwarded.2, wholeBytes]
    cases response.failed with
    | false => simp
    | true => simp [terminator]
  by_cases all : got = wholeBytes crates response
  · rw [all, whole, Option.some.injEq] at parsed
    refine ⟨?_, parsed.symm⟩
    rw [Bool.eq_false_iff]
    intro failed
    subst all
    exact inside.2 failed (inside.1.eq_of_length_le begins.length_le)
  · have none := cut_message_none whole bounded rfl (begins.trans inside.1) all
    rw [none] at parsed
    contradiction

theorem reply_regular {reply : Nat × String × String}
    (own : reply ∈ serverReplies ++ ClientSession.ownErrors) {method : Bytes}
    (other : method ≠ text "HEAD") :
    (100 ≤ reply.1 ∧ reply.1 < 1000) ∧ lf ∉ text reply.2.1 ∧ ¬ Bodyless method reply.1 := by
  have all : ∀ reply ∈ serverReplies ++ ClientSession.ownErrors,
      (100 ≤ reply.1 ∧ reply.1 < 1000) ∧ lf ∉ text reply.2.1 ∧
        ¬ (reply.1 / 100 = 1 ∨ reply.1 = 204 ∨ reply.1 = 304) := by decide
  obtain ⟨three, unbroken, status⟩ := all reply own
  refine ⟨three, unbroken, ?_⟩
  intro bodyless
  exact status (bodyless.resolve_left other)

theorem reply_message {reply : Nat × String × String}
    (own : reply ∈ serverReplies ++ ClientSession.ownErrors) {method : Bytes}
    (other : method ≠ text "HEAD") {got : Bytes}
    (begins : got <+: plainResponse reply.1 reply.2.1 reply.2.2) {message : Message}
    (parsed : parseMessage method got = some message) : message = plainMessage reply := by
  obtain ⟨three, unbroken, expects⟩ := reply_regular own other
  by_cases all : got = plainResponse reply.1 reply.2.1 reply.2.2
  · rw [all, plain_message three unbroken, if_neg expects, Option.some.injEq] at parsed
    exact parsed.symm
  · rw [plain_cut_none three unbroken expects begins all] at parsed
    contradiction

/-- Who has made a message: the client or the server, which have written nothing else
    here, or the provider, in full, as the answer to the one request that it got. -/
inductive Origin (crates : HttpCrates) (urls : UrlCrate) (base : Url) (x : Exchange) :
    Message → Prop where
  | client (reply : Nat × String × String) (own : reply ∈ ClientSession.ownErrors)
      (written : localBytes (handleOpenAiClientStream crates x.client) =
        plainResponse reply.1 reply.2.1 reply.2.2) :
      Origin crates urls base x (plainMessage reply)
  | server (reply : Nat × String × String) (own : reply ∈ serverReplies)
      (written : tunnelBytes (x.serve crates urls base) =
        plainResponse reply.1 reply.2.1 reply.2.2) :
      Origin crates urls base x (plainMessage reply)
  | provider (request : ProviderRequest) (response : ProviderResponse)
      (sends : providerSends (x.serve crates urls base) = [request])
      (answered : x.server.send request = .finished (.ok response))
      (ended : response.failed = false) : Origin crates urls base x (wholeMessage response)

theorem answer_origin (reasons : PlainReasons crates) {x : Exchange} {method : Bytes}
    (other : method ≠ text "HEAD")
    (regular : ∀ request response, providerSends (x.serve crates urls base) = [request] →
      x.server.send request = .finished (.ok response) → Regular method response)
    {got : Bytes} (begins : got <+: tunnelBytes (x.serve crates urls base)) {message : Message}
    (parsed : parseMessage method got = some message) : Origin crates urls base x message := by
  have replied : Replies (tunnelBytes (x.serve crates urls base)) →
      Origin crates urls base x message := by
    intro replies
    obtain ⟨reply, member, bytes⟩ := replies
    rw [bytes] at begins
    exact reply_message (List.mem_append_left _ member) other begins parsed ▸
      Origin.server reply member bytes
  rcases @serve_cases crates urls base x.permits x.server with
    ⟨_, replies⟩ | ⟨_, _, request, _, _, _, _, sends, replies | ⟨response, answered, forwarded⟩⟩
  · exact replied replies
  · exact replied replies
  · obtain ⟨ended, same⟩ :=
      forwarded_message reasons (regular request response sends answered) forwarded begins parsed
    exact same ▸ Origin.provider request response sends answered ended

theorem own_error_message {bytes : Bytes} (own : ClientSession.OwnError bytes) {method : Bytes}
    (other : method ≠ text "HEAD") {message : Message}
    (parsed : parseMessage method bytes = some message) :
    ∃ reply ∈ ClientSession.ownErrors, bytes = plainResponse reply.1 reply.2.1 reply.2.2 ∧
      message = plainMessage reply := by
  obtain ⟨status, reason, body, member, rfl⟩ := own
  exact ⟨_, member, rfl,
    reply_message (List.mem_append_right _ member) other List.prefix_rfl parsed⟩

/-- Whatever is lost, and wherever the streams are cut, an application that reads a
    complete response has one that was made, in full, by one of the three. -/
theorem answers_have_origin (reasons : PlainReasons crates) {x : Exchange}
    (joined : Joined crates urls base x) {method : Bytes} (other : method ≠ text "HEAD")
    (regular : ∀ request response, providerSends (x.serve crates urls base) = [request] →
      x.server.send request = .finished (.ok response) → Regular method response)
    {message : Message}
    (parsed : parseMessage method (localBytes (handleOpenAiClientStream crates x.client)) =
      some message) : Origin crates urls base x message := by
  rcases ClientSession.session_bytes crates x.client with own | begins
  · obtain ⟨reply, member, written, rfl⟩ := own_error_message own other parsed
    exact Origin.client reply member written
  · exact answer_origin reasons other regular (begins.trans joined.down) parsed

/-- The request and the response have come through in full, in any pieces. -/
structure Lossless (crates : HttpCrates) (urls : UrlCrate) (base : Url) (x : Exchange) : Prop where
  opened : x.client.opened = .ok ()
  request : x.client.request = .finished (.ok ())
  free : x.permits ≠ 0
  up : ∃ request pieces, Accepted crates x.client request ∧
    x.server.delivery = .finished pieces ∧ pieceBytes pieces = request
  down : (chunks x.client.reads).flatten = tunnelBytes (x.serve crates urls base)

theorem lossless_joined {x : Exchange} (lossless : Lossless crates urls base x) :
    Joined crates urls base x where
  up := by
    intro pieces delivered
    obtain ⟨request, pieces', accepted, delivered', whole⟩ := lossless.up
    rw [delivered, Timed.finished.injEq] at delivered'
    subst delivered'
    exact ⟨request, accepted, whole ▸ List.prefix_rfl⟩
  down := lossless.down ▸ List.prefix_rfl

theorem reply_some {bytes : Bytes} (replies : Replies bytes) : bytes ≠ [] := by
  obtain ⟨reply, _, rfl⟩ := replies
  have begins : text "HTTP/1.1 " ≠ [] := by decide
  simp [plainResponse, statusLine, begins]

theorem serve_some (permits : Nat) (world : World) :
    tunnelBytes (serveStream crates urls base permits world) ≠ [] := by
  rcases @serve_cases crates urls base permits world with
    ⟨_, replies⟩ | ⟨_, _, _, _, _, _, _, _, replies | ⟨response, _, forwarded⟩⟩
  · exact reply_some replies
  · exact reply_some replies
  · have begins : text "HTTP/1.1 " ≠ [] := by decide
    rw [forwarded.2]
    simp [responseHead, statusLine, begins]

theorem lossless_bytes {x : Exchange} (lossless : Lossless crates urls base x) :
    localBytes (handleOpenAiClientStream crates x.client) =
      tunnelBytes (x.serve crates urls base) := by
  obtain ⟨request, pieces, accepted, _, _⟩ := lossless.up
  have copying : Copying crates x.client := ⟨⟨request, accepted⟩, lossless.opened, lossless.request⟩
  rcases ClientSession.session_cases crates x.client with
    ⟨none, _⟩ | ⟨failed, _⟩ | ⟨_, wrote, _, _⟩
  · exact absurd copying none
  · have impossible := lossless.request.symm.trans failed.2.2
    cases impossible
  · rw [wrote]
    rcases (ClientSession.copy_waiting x.client.reads).2 with copied | ⟨none, _⟩
    · rw [copied, lossless.down]
    · have silent := lossless.down
      rw [none, List.flatten_nil] at silent
      exact absurd silent.symm (serve_some x.permits x.server)

theorem direct_read {world : ClientSession.World} {request : Bytes} {pieces : List Piece}
    (accepted : Accepted crates world request) (whole : pieceBytes pieces = request) :
    ∃ local_, world.delivery = .finished local_ ∧
      readHttpRequest crates (BufReader.new local_) =
        readHttpRequest crates (BufReader.new pieces) := by
  obtain ⟨local_, reader, delivered, accepted⟩ := accepted
  obtain ⟨head, body, parsed, rfl, split, headed, parses, length⟩ := read_local_ok accepted
  refine ⟨local_, delivered, ?_⟩
  rw [read_request_whole headed parses length ((new_contents pieces).trans whole)]
  have found : flatHead (BufReader.new local_).contents = .ok (head, body ++ reader.contents) := by
    rw [split, List.append_assoc]
    exact (flat_head_ok headed).2 _
  obtain ⟨behind, read, left⟩ := read_head_of_flat found
  cases chunked : parsed.hasChunkedBody with
  | true =>
    simp only [readHttpRequest, read, parses, ok_bind, chunked]
    rfl
  | false =>
    rw [chunked, if_neg Bool.false_ne_true] at length
    obtain ⟨last, taken, _⟩ := read_body_enough left
    rw [length] at taken
    simp only [readHttpRequest, read, parses, ok_bind, require_met chunked, taken]
    rfl

/-- A stream that loses nothing makes the two processes one server: the application
    and the provider see what they would see if the application's connection ended
    at the server's handler. -/
theorem tunnel_refines_direct {x : Exchange} (lossless : Lossless crates urls base x) :
    localBytes (handleOpenAiClientStream crates x.client) =
        tunnelBytes (handleOpenAiStream crates urls base ⟨x.client.delivery, x.server.send⟩) ∧
      providerSends (x.serve crates urls base) =
        providerSends (handleOpenAiStream crates urls base ⟨x.client.delivery, x.server.send⟩) := by
  obtain ⟨request, pieces, accepted, delivered, whole⟩ := lossless.up
  obtain ⟨local_, localDelivered, same⟩ := direct_read accepted whole
  have read : readAndValidateRequest crates x.client.delivery =
      readAndValidateRequest crates x.server.delivery := by
    rw [delivered, localDelivered, readAndValidateRequest, readAndValidateRequest, same]
  have handled : handleOpenAiStream crates urls base ⟨x.client.delivery, x.server.send⟩ =
      handleOpenAiStream crates urls base x.server := by
    rw [handle_eq, handle_eq, read]
  obtain ⟨bytes, sends⟩ := @serve_permitted crates urls base _ lossless.free x.server
  rw [lossless_bytes lossless, handled]
  exact ⟨bytes, sends⟩

theorem answered_bytes {send : ProviderRequest → Timed (Except Unit ProviderResponse)}
    {received : OpenAiHttpRequest} {request : ProviderRequest} {response : ProviderResponse}
    (other : isHealthRequest received = false)
    (built : providerRequestBuilder urls base received = .ok request)
    (answered : send request = .finished (.ok response))
    (begun : response.chunks ≠ [] ∨ response.failed = false) :
    tunnelBytes (answer crates urls base send received) =
      responseHead crates response ++ (response.chunks.flatMap encodeChunk ++
        if response.failed then [] else terminator) := by
  have checked : Serves (respondToHealthCheck received) false [] [] := by
    rw [respondToHealthCheck, other, if_neg Bool.false_ne_true]
    exact serves_pure false
  have forwarded : Serves (forwardRequestToProvider urls base send received) (some response) []
      [request] := by
    simp only [forwardRequestToProvider, built, answered]
    exact serves_bind (serves_send request) (serves_pure (some response))
  rw [answer, tunnel_bytes_bind checked]
  simp only [Bool.false_eq_true, if_false, List.nil_append]
  rw [tunnel_bytes_bind forwarded, List.nil_append, (on_tunnel_bytes _).1, written_response begun,
    (writes_head_bytes response).2]

theorem read_handled {world : World} {pieces : List Piece} {received : OpenAiHttpRequest}
    (delivered : world.delivery = .finished pieces)
    (read : readHttpRequest crates (BufReader.new pieces) = .ok received) :
    handleOpenAiStream crates urls base world =
      answer crates urls base world.send received := by
  have validated : readAndValidateRequest crates world.delivery = pure (some received) := by
    simp only [delivered, readAndValidateRequest, read]
  rw [handle_eq, validated]
  rfl

theorem answer_sends {send : ProviderRequest → Timed (Except Unit ProviderResponse)}
    {received : OpenAiHttpRequest} {request : ProviderRequest}
    (other : isHealthRequest received = false)
    (built : providerRequestBuilder urls base received = .ok request) :
    providerSends (answer crates urls base send received) = [request] := by
  rcases answer_cases crates urls base send received with
    ⟨request', _, built', sends, _⟩ | ⟨none, _, _⟩
  · rw [built, Except.ok.injEq] at built'
    rw [sends, built']
  · exact absurd ⟨request, other, built⟩ none

theorem lossless_handled {x : Exchange} (lossless : Lossless crates urls base x)
    {local_ : List Piece} {received : OpenAiHttpRequest}
    (delivered : x.client.delivery = .finished local_)
    (read : readHttpRequest crates (BufReader.new local_) = .ok received) :
    localBytes (handleOpenAiClientStream crates x.client) =
        tunnelBytes (answer crates urls base x.server.send received) ∧
      providerSends (x.serve crates urls base) =
        providerSends (answer crates urls base x.server.send received) := by
  obtain ⟨raw, pieces, accepted, arrived, whole⟩ := lossless.up
  obtain ⟨local', delivered', same⟩ := direct_read accepted whole
  rw [delivered, Timed.finished.injEq] at delivered'
  subst delivered'
  have handled : handleOpenAiStream crates urls base x.server =
      answer crates urls base x.server.send received := read_handled arrived (same ▸ read)
  obtain ⟨bytes, sends⟩ := @serve_permitted crates urls base _ lossless.free x.server
  rw [lossless_bytes lossless, ← handled]
  exact ⟨bytes, sends⟩

theorem answered_message (reasons : PlainReasons crates) {method : Bytes}
    {send : ProviderRequest → Timed (Except Unit ProviderResponse)}
    {received : OpenAiHttpRequest} {request : ProviderRequest} {response : ProviderResponse}
    (other : isHealthRequest received = false)
    (built : providerRequestBuilder urls base received = .ok request)
    (answered : send request = .finished (.ok response)) (regular : Regular method response)
    (begun : response.chunks ≠ [] ∨ response.failed = false) :
    parseMessage method (tunnelBytes (answer crates urls base send received)) =
      if response.failed then none else some (wholeMessage response) := by
  obtain ⟨message, bounded⟩ := whole_bytes_message reasons regular
  rw [answered_bytes other built answered begun]
  cases response.failed with
  | false => exact message
  | true =>
    apply cut_message_none message bounded rfl
    · simp [wholeBytes]
    · simp [wholeBytes, terminator]

/-- When nothing is lost, a request that the application has sent in full goes to the
    provider once, and its answer is what the application reads; if the answer breaks
    off, that is no complete response. -/
theorem lossless_round_trip (reasons : PlainReasons crates) {x : Exchange}
    (lossless : Lossless crates urls base x) {local_ : List Piece} {received : OpenAiHttpRequest}
    {request : ProviderRequest} {response : ProviderResponse}
    (delivered : x.client.delivery = .finished local_)
    (read : readHttpRequest crates (BufReader.new local_) = .ok received)
    (other : isHealthRequest received = false)
    (built : providerRequestBuilder urls base received = .ok request)
    (answered : x.server.send request = .finished (.ok response))
    (regular : Regular received.method.name response)
    (begun : response.chunks ≠ [] ∨ response.failed = false) :
    providerSends (x.serve crates urls base) = [request] ∧
      parseMessage received.method.name (localBytes (handleOpenAiClientStream crates x.client)) =
        if response.failed then none else some (wholeMessage response) := by
  obtain ⟨bytes, sends⟩ := lossless_handled lossless delivered read
  rw [bytes, sends]
  exact ⟨answer_sends other built, answered_message reasons other built answered regular begun⟩

def exampleHead : Bytes := text "POST /chat/completions HTTP/1.1\r\nContent-Length: 7\r\n\r\n"

def exampleAnswer : ProviderResponse := ⟨200, [], [text "data: 1", text "data: 2"], false⟩

def exampleServer : World :=
  ⟨.finished [⟨exampleHead, by decide⟩, ⟨text "payload", by decide⟩],
    fun _ => .finished (.ok exampleAnswer)⟩

theorem example_first : exampleHead ++ text "pay" ≠ [] := by decide

theorem example_second : text "load" ≠ [] := by decide

def exampleLocal : List Piece :=
  [⟨exampleHead ++ text "pay", example_first⟩, ⟨text "load", example_second⟩]

def exampleExchange : Exchange :=
  ⟨⟨.finished exampleLocal, .ok (), .finished (.ok ()),
    [.finished (.data (tunnelBytes
      (serveStream exampleCrates exampleUrlCrate exampleBase 1 exampleServer))),
      .finished .ended]⟩, 1, exampleServer⟩

theorem one_read_chunks (bytes : Bytes) :
    (chunks [.finished (.data bytes), .finished .ended]).flatten = bytes := by
  rw [chunks]
  split
  · rename_i empty
    rw [empty, List.flatten_nil]
  · simp [chunks]

theorem example_parses : ∃ parsed, parseHttpHead exampleCrates exampleHead = .ok parsed ∧
    parsed.hasChunkedBody = false ∧ parsed.contentLength = some 7 ∧
    parsed.method = ⟨text "POST"⟩ ∧ parsed.target = text "/chat/completions" := by
  refine ⟨_, rfl, ?_, ?_, ?_, ?_⟩ <;> decide

theorem example_accepted :
    Accepted exampleCrates exampleExchange.client (exampleHead ++ text "payload") := by
  have whole : flatHead exampleHead = .ok (exampleHead, []) := by decide
  obtain ⟨parsed, parses, plain, seven, _, _⟩ := example_parses
  have delivers : (BufReader.new exampleLocal).contents = exampleHead ++ text "payload" := by decide
  obtain ⟨reader, accepted⟩ :=
    read_local_whole whole parses (by rw [plain, seven]; rfl) delivers
  exact ⟨exampleLocal, reader, rfl, accepted⟩

theorem example_lossless :
    Lossless exampleCrates exampleUrlCrate exampleBase exampleExchange where
  opened := rfl
  request := rfl
  free := by decide
  up := ⟨_, _, example_accepted, rfl, by decide⟩
  down := one_read_chunks (tunnelBytes
    (serveStream exampleCrates exampleUrlCrate exampleBase 1 exampleServer))

theorem example_regular : Regular (text "POST") exampleAnswer where
  valid := framed_response 200 _ (by decide)
  expects := by decide
  full := by decide

theorem example_request : ∃ received request,
    readHttpRequest exampleCrates (BufReader.new exampleLocal) = .ok received ∧
      isHealthRequest received = false ∧ received.method.name = text "POST" ∧
      providerRequestBuilder exampleUrlCrate exampleBase received = .ok request ∧
      request.body = text "payload" := by
  have whole : flatHead exampleHead = .ok (exampleHead, []) := by decide
  obtain ⟨parsed, parses, plain, seven, post, target⟩ := example_parses
  have delivers : (BufReader.new exampleLocal).contents = exampleHead ++ text "payload" := by decide
  have read := read_request_whole whole parses (by rw [plain, seven]; rfl) delivers
  rw [plain, if_neg Bool.false_ne_true] at read
  obtain ⟨url, found, _⟩ := example_url
  refine ⟨_, ⟨parsed.method, url, attachedHeaders parsed.headers, text "payload"⟩, read, ?_, ?_,
    ?_, rfl⟩
  · rw [post, target]
    rfl
  · rw [post]
  · rw [providerRequestBuilder, target, found]
    rfl

theorem lossless_round_trip_example :
    ∃ request, providerSends (exampleExchange.serve exampleCrates exampleUrlCrate exampleBase) =
        [request] ∧ request.body = text "payload" ∧
      parseMessage (text "POST")
        (localBytes (handleOpenAiClientStream exampleCrates exampleExchange.client)) =
        some (wholeMessage exampleAnswer) := by
  obtain ⟨received, request, read, other, post, built, body⟩ := example_request
  obtain ⟨sends, message⟩ := lossless_round_trip example_reasons example_lossless rfl read other
    built rfl (by rw [post]; exact example_regular) (Or.inl (by decide))
  rw [post] at message
  exact ⟨request, sends, body, message⟩

theorem tunnel_refines_direct_example :
    localBytes (handleOpenAiClientStream exampleCrates exampleExchange.client) =
      tunnelBytes (handleOpenAiStream exampleCrates exampleUrlCrate exampleBase
        ⟨.finished exampleLocal, exampleServer.send⟩) :=
  (tunnel_refines_direct example_lossless).1

theorem provider_gets_own_request_example :
    ∃ sent, providerSends (exampleExchange.serve exampleCrates exampleUrlCrate exampleBase) =
        [sent] ∧ OfApplication exampleCrates exampleUrlCrate exampleBase exampleExchange sent := by
  obtain ⟨received, request, read, other, _, built, _⟩ := example_request
  obtain ⟨_, sends⟩ := lossless_handled example_lossless rfl read
  rw [answer_sends other built] at sends
  rcases provider_gets_own_request (lossless_joined example_lossless) with none | found
  · rw [sends] at none
    contradiction
  · exact found

theorem answers_have_origin_example :
    Origin exampleCrates exampleUrlCrate exampleBase exampleExchange
      (wholeMessage exampleAnswer) := by
  obtain ⟨received, request, read, other, _, built, _⟩ := example_request
  obtain ⟨bytes, _⟩ := lossless_handled example_lossless rfl read
  have regular : ∀ request response,
      providerSends (exampleExchange.serve exampleCrates exampleUrlCrate exampleBase) = [request] →
      exampleExchange.server.send request = .finished (.ok response) →
      Regular (text "POST") response := by
    intro request response _ answered
    cases answered
    exact example_regular
  apply answers_have_origin example_reasons (lossless_joined example_lossless)
    (show text "POST" ≠ text "HEAD" by decide) regular
  rw [bytes]
  exact answered_message example_reasons other built rfl example_regular (Or.inl (by decide))

end OpenAiPath
