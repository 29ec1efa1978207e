import TunnelAI.Library.ChunkedCoding
import TunnelAI.Library.TracedEffects
import TunnelAI.HttpHead

/-!
What the server writes to a tunnel stream: its own plain responses, and the
provider's response with its body in the chunked coding. The provider's body is
the list of the chunks that its client still yields, which ends normally or with
an error. Writes to the tunnel succeed.
-/
namespace ResponseWriter
open StreamReader ChunkedCoding TracedEffects HttpHead

inductive SendEvent where
  | write : Bytes → SendEvent
  | finish
  deriving DecidableEq

abbrev Send := Traced SendEvent String

structure ProviderResponse where
  status : Nat
  headers : HeaderMap
  chunks : List Bytes
  failed : Bool

def ProviderResponse.chunk (response : ProviderResponse) :
    Except Unit (Option Bytes × ProviderResponse) :=
  match response.chunks with
  | chunk :: chunks => .ok (some chunk, { response with chunks })
  | [] => if response.failed then .error () else .ok (none, response)

def shouldForwardResponseHeader (name : Bytes) : Bool :=
  !([text "content-length", text "connection", text "transfer-encoding", text "keep-alive",
    text "proxy-authenticate", text "proxy-authorization", text "te", text "trailer",
    text "upgrade"].contains name)

def writeAll (bytes : Bytes) : Send Unit := emit (.write bytes)

def finish : Send Unit := emit .finish

def decimal (n : Nat) : Bytes := text (toString n)

def statusLine (status : Nat) (reason : Bytes) : Bytes :=
  text "HTTP/1.1 " ++ decimal status ++ text " " ++ reason ++ [cr, lf]

def writePlainResponse (status : Nat) (reason body : String) : Send Unit := do
  writeAll (statusLine status (text reason))
  writeAll (text "content-type: text/plain\r\n")
  writeAll (text "connection: close\r\n")
  writeAll (text "content-length: " ++ decimal (text body).length ++ [cr, lf])
  writeAll [cr, lf]
  writeAll (text body)

def writePlainError (status : Nat) (reason body : String) : Send Unit :=
  writePlainResponse status reason body

def writeErrorAndFinish (status : Nat) (reason body : String) : Send Unit := do
  writePlainError status reason body
  finish

def writeResponseChunk (chunk : Bytes) : Send Unit := do
  writeAll (lowerHex chunk.length ++ [cr, lf])
  writeAll chunk
  writeAll [cr, lf]

def writeResponseHeaders : HeaderMap → Send Unit
  | [] => pure ()
  | (name, value) :: headers => do
    if shouldForwardResponseHeader name.name then
      writeAll (name.name.map toAsciiLowercase)
      writeAll (text ": ")
      writeAll value.bytes
      writeAll [cr, lf]
      writeResponseHeaders headers
    else writeResponseHeaders headers

def writeResponseChunks (failed : Bool) : List Bytes → Send Unit
  | [] => if failed then raise "read provider response body chunk" else pure ()
  | chunk :: chunks => do
    writeResponseChunk chunk
    writeResponseChunks failed chunks

variable (crates : HttpCrates)

def writeResponseHead (response : ProviderResponse) : Send Unit := do
  writeAll (statusLine response.status ((crates.canonicalReason response.status).getD []))
  writeResponseHeaders response.headers
  writeAll (text "connection: close\r\n")
  writeAll (text "transfer-encoding: chunked\r\n")
  writeAll [cr, lf]

def writeHttpResponse (response : ProviderResponse) (firstChunk : Option Bytes) : Send Unit := do
  writeResponseHead crates response
  match firstChunk with
  | some chunk => writeResponseChunk chunk
  | none => pure ()
  writeResponseChunks response.failed response.chunks
  writeAll (text "0\r\n\r\n")

def copyProviderResponseAndFinish (response : ProviderResponse) : Send Unit :=
  match response.chunk with
  | .error _ => writeErrorAndFinish 502 "Bad Gateway" "provider response failed"
  | .ok (firstChunk, response) => do
    writeHttpResponse crates response firstChunk
    finish

def written {α : Type} (s : Send α) : Bytes :=
  s.events.flatMap fun
    | .write bytes => bytes
    | .finish => []

/-- A run that succeeds and writes these bytes. -/
def Writes (s : Send Unit) (bytes : Bytes) : Prop := s.result = .ok () ∧ written s = bytes

variable {crates}

theorem written_bind {s : Send Unit} {next : Unit → Send Unit} {bytes : Bytes}
    (first : Writes s bytes) : written (s >>= next) = bytes ++ written (next ()) := by
  obtain ⟨events, result⟩ := s
  obtain ⟨ok, rfl⟩ := first
  simp only at ok
  subst ok
  simp [written]

theorem writes_bind {s : Send Unit} {next : Unit → Send Unit} {bytes more : Bytes}
    (first : Writes s bytes) (rest : Writes (next ()) more) :
    Writes (s >>= next) (bytes ++ more) := by
  refine ⟨?_, by rw [written_bind first, rest.2]⟩
  obtain ⟨events, result⟩ := s
  obtain ⟨ok, _⟩ := first
  simp only at ok
  subst ok
  exact rest.1

theorem writes_all (bytes : Bytes) : Writes (writeAll bytes) bytes := by
  simp [Writes, writeAll, emit, written]

theorem writes_finish : Writes finish [] := by
  simp [Writes, finish, emit, written]

theorem writes_pure : Writes (pure ()) [] := by
  simp [Writes, written]

theorem writes_response_chunk (chunk : Bytes) :
    Writes (writeResponseChunk chunk) (encodeChunk chunk) := by
  have all : Writes (writeResponseChunk chunk)
      (lowerHex chunk.length ++ [cr, lf] ++ (chunk ++ [cr, lf])) :=
    writes_bind (writes_all _) (writes_bind (writes_all _) (writes_all _))
  simpa [encodeChunk] using all

def plainResponse (status : Nat) (reason body : String) : Bytes :=
  statusLine status (text reason) ++ text "content-type: text/plain\r\n" ++
    text "connection: close\r\n" ++
    (text "content-length: " ++ decimal (text body).length ++ [cr, lf]) ++ [cr, lf] ++ text body

theorem writes_plain_response (status : Nat) (reason body : String) :
    Writes (writePlainResponse status reason body) (plainResponse status reason body) := by
  have all : Writes (writePlainResponse status reason body)
      (statusLine status (text reason) ++ (text "content-type: text/plain\r\n" ++
        (text "connection: close\r\n" ++
          ((text "content-length: " ++ decimal (text body).length ++ [cr, lf]) ++
            ([cr, lf] ++ text body))))) :=
    writes_bind (writes_all _) (writes_bind (writes_all _) (writes_bind (writes_all _)
      (writes_bind (writes_all _) (writes_bind (writes_all _) (writes_all _)))))
  simpa only [plainResponse, List.append_assoc] using all

theorem writes_error_and_finish (status : Nat) (reason body : String) :
    Writes (writeErrorAndFinish status reason body) (plainResponse status reason body) := by
  have both : Writes (writeErrorAndFinish status reason body)
      (plainResponse status reason body ++ []) :=
    writes_bind (writes_plain_response status reason body) writes_finish
  rwa [List.append_nil] at both

def headerLine (header : HeaderName × HeaderValue) : Bytes :=
  if shouldForwardResponseHeader header.1.name then
    header.1.name.map toAsciiLowercase ++ text ": " ++ header.2.bytes ++ [cr, lf]
  else []

theorem writes_response_headers (headers : HeaderMap) :
    Writes (writeResponseHeaders headers) (headers.flatMap headerLine) := by
  induction headers with
  | nil => exact writes_pure
  | cons header headers ih =>
    obtain ⟨name, value⟩ := header
    rw [List.flatMap_cons, headerLine, writeResponseHeaders]
    split
    · simp only [List.append_assoc]
      exact writes_bind (writes_all _) (writes_bind (writes_all _)
        (writes_bind (writes_all _) (writes_bind (writes_all _) ih)))
    · exact ih

def responseHead (crates : HttpCrates) (response : ProviderResponse) : Bytes :=
  statusLine response.status ((crates.canonicalReason response.status).getD []) ++
    response.headers.flatMap headerLine ++
    text "connection: close\r\n" ++ text "transfer-encoding: chunked\r\n" ++ [cr, lf]

theorem writes_head_bytes (response : ProviderResponse) :
    Writes (writeResponseHead crates response) (responseHead crates response) := by
  simp only [responseHead, List.append_assoc]
  exact writes_bind (writes_all _) (writes_bind (writes_response_headers response.headers)
    (writes_bind (writes_all _) (writes_bind (writes_all _) (writes_all _))))

theorem writes_response_head (response : ProviderResponse) :
    Writes (writeResponseHead crates response) (written (writeResponseHead crates response)) :=
  ⟨(writes_head_bytes response).1, rfl⟩

theorem written_response_chunks (failed : Bool) (chunks : List Bytes) (next : Unit → Send Unit) :
    written (writeResponseChunks failed chunks >>= next) =
      chunks.flatMap encodeChunk ++ if failed then [] else written (next ()) := by
  induction chunks with
  | nil =>
    cases failed with
    | true => simp [writeResponseChunks, raise, written]
    | false =>
      rw [writeResponseChunks, if_neg (by simp), written_bind writes_pure]
      rfl
  | cons chunk chunks ih =>
    rw [writeResponseChunks, bind_assoc_eq, written_bind (writes_response_chunk chunk), ih,
      List.flatMap_cons, List.append_assoc]

theorem written_response {response : ProviderResponse}
    (begun : response.chunks ≠ [] ∨ response.failed = false) :
    written (copyProviderResponseAndFinish crates response) =
      written (writeResponseHead crates response) ++
        (response.chunks.flatMap encodeChunk ++ if response.failed then [] else terminator) := by
  obtain ⟨status, headers, chunks, failed⟩ := response
  have last : written (writeAll (text "0\r\n\r\n") >>= fun _ => finish) = terminator := by
    rw [written_bind (writes_all _), writes_finish.2]
    rfl
  cases chunks with
  | nil =>
    have normal : failed = false := by simpa using begun
    subst normal
    simp only [copyProviderResponseAndFinish, ProviderResponse.chunk, writeHttpResponse,
      bind_assoc_eq, Bool.false_eq_true, if_false]
    rw [written_bind (writes_response_head _)]
    change _ ++ written (writeResponseChunks false [] >>= _) = _
    rw [written_response_chunks, if_neg (by simp), last]
  | cons chunk chunks =>
    simp only [copyProviderResponseAndFinish, ProviderResponse.chunk, writeHttpResponse,
      bind_assoc_eq]
    rw [written_bind (writes_response_head _), written_bind (writes_response_chunk _),
      written_response_chunks, last, List.flatMap_cons, List.append_assoc]
    rfl

/-- A decoder gets the provider's body back, knows whether it ended, and has
    nothing left over. -/
def Survives (crates : HttpCrates) (response : ProviderResponse) : Prop :=
  ∃ body, written (copyProviderResponseAndFinish crates response) =
      written (writeResponseHead crates response) ++ body ∧
    (decode body).body = response.chunks.flatten ∧
    (decode body).complete = !response.failed ∧ (decode body).left = []

theorem full_chunks_survive {response : ProviderResponse}
    (begun : response.chunks ≠ [] ∨ response.failed = false)
    (full : ∀ chunk ∈ response.chunks, chunk ≠ []) : Survives crates response := by
  refine ⟨_, written_response begun, ?_⟩
  unfold decode
  rw [feed_append, Decoder.start, feed_chunks full]
  cases response.failed with
  | true => simp [Decoder.feedAll, Decoder.complete]
  | false => simp [feed_terminator, Decoder.complete]

theorem empty_chunk_lost {response : ProviderResponse} (lost : [] ∈ response.chunks) :
    ¬ Survives crates response := by
  intro survives
  obtain ⟨body, shape, _, complete, left⟩ := survives
  have begun : response.chunks ≠ [] := List.ne_nil_of_mem lost
  rw [written_response (Or.inl begun), List.append_cancel_left_eq] at shape
  obtain ⟨before, after, split, first⟩ := List.eq_append_cons_of_mem lost
  have full : ∀ chunk ∈ before, chunk ≠ [] := by
    intro chunk member empty
    exact first (empty ▸ member)
  have decoded : decode body = ⟨.over, before.flatten, after.flatMap encodeChunk ++
      if response.failed then [] else terminator⟩ := by
    rw [← shape, split, List.flatMap_append, List.flatMap_cons, List.append_assoc,
      List.append_assoc, encode_empty_chunk]
    unfold decode
    rw [feed_append, Decoder.start, feed_chunks full, feed_append, feed_terminator, feed_over]
    simp
  rw [decoded] at complete left
  have normal : response.failed = false := by simpa [Decoder.complete] using complete
  rw [normal] at left
  simp [terminator] at left

/-- The body of a response that has begun survives exactly when no chunk is empty. -/
theorem chunked_body_survives_iff {response : ProviderResponse}
    (begun : response.chunks ≠ [] ∨ response.failed = false) :
    Survives crates response ↔ ∀ chunk ∈ response.chunks, chunk ≠ [] := by
  constructor
  · intro survives chunk member empty
    exact empty_chunk_lost (empty ▸ member) survives
  · exact full_chunks_survive begun

theorem chunked_body_survives_example :
    Survives exampleCrates ⟨200, [], [text "data: 1", text "data: 2"], false⟩ :=
  (chunked_body_survives_iff (Or.inl (by decide))).mpr (by decide)

/-- An empty chunk between two others is taken for the end of the body. -/
theorem chunked_body_cut_short :
    ¬ Survives exampleCrates ⟨200, [], [text "data: 1", [], text "data: 2"], false⟩ :=
  empty_chunk_lost (by decide)

end ResponseWriter
