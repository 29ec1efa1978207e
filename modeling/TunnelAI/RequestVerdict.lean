import TunnelAI.ServerStream

/-!
What the server makes of a request, decided from the bytes of the stream alone: when it
is read, with which body, and which error stands for which stream, where no read of
the stream fails. The limits settle the verdict: whatever follows behind a certain
number of bytes changes nothing.
-/
namespace RequestVerdict
open StreamReader BufferedReader Lines Fallible HttpHead HttpReaders HeadLimits
open ServerStream (Complete read_request_ok_iff)

variable (crates : HttpCrates)

/-- Why a stream is refused, with the error that it is refused with. -/
inductive Rejected (s : Bytes) : HttpRequestError → Prop where
  | head (e : HttpRequestError) (none : NoHead s e) : Rejected s e
  | parse (head rest : Bytes) (e : HttpRequestError) (isHead : IsHead s head rest)
      (failed : parseHttpHead crates head = .error e) : Rejected s e
  | chunked (head rest : Bytes) (parsed : ParsedHttpHead) (isHead : IsHead s head rest)
      (accepted : parseHttpHead crates head = .ok parsed) (marked : parsed.hasChunkedBody = true) :
      Rejected s .unsupportedChunked
  | body (head rest : Bytes) (parsed : ParsedHttpHead) (isHead : IsHead s head rest)
      (accepted : parseHttpHead crates head = .ok parsed) (plain : parsed.hasChunkedBody = false)
      (short : rest.length < parsed.contentLength.getD 0) :
      Rejected s (.badRequest "read request body")

variable {crates}

theorem read_rejected {recv : BufReader} {e : HttpRequestError}
    (rejected : Rejected crates recv.contents e) : readHttpRequest crates recv = .error e := by
  unfold readHttpRequest
  cases rejected with
  | head _ none =>
    rw [read_head_error (no_head_flat none)]
    rfl
  | parse head rest _ isHead failed =>
    obtain ⟨reader, read, _⟩ := read_head_of_flat (is_head_flat isHead)
    simp only [read, failed, ok_bind]
    rfl
  | chunked head rest parsed isHead accepted marked =>
    obtain ⟨reader, read, _⟩ := read_head_of_flat (is_head_flat isHead)
    simp only [read, accepted, ok_bind, marked]
    rfl
  | body head rest parsed isHead accepted plain short =>
    obtain ⟨reader, read, left⟩ := read_head_of_flat (is_head_flat isHead)
    rw [← left] at short
    simp only [read, accepted, ok_bind, require_met plain, read_body_short short]
    rfl

/-- A stream holds a request or is refused, and nothing in between. -/
theorem complete_or_rejected (s : Bytes) :
    (∃ request, Complete crates s request) ∨ ∃ e, Rejected crates s e := by
  rcases flat_head_cases s with ⟨head, rest, _, isHead⟩ | ⟨e, _, none⟩
  · cases parses : parseHttpHead crates head with
    | error e => exact Or.inr ⟨e, .parse head rest e isHead parses⟩
    | ok parsed =>
      cases marked : parsed.hasChunkedBody with
      | true => exact Or.inr ⟨_, .chunked head rest parsed isHead parses marked⟩
      | false =>
        by_cases enough : parsed.contentLength.getD 0 ≤ rest.length
        · exact Or.inl ⟨_, head, rest, parsed, isHead, parses, marked, enough, rfl⟩
        · exact Or.inr ⟨_, .body head rest parsed isHead parses marked (by omega)⟩
  · exact Or.inr ⟨e, .head e none⟩

/-- However the stream is cut, the server reads its request or refuses it with the
    error that the bytes call for. -/
theorem request_verdict_iff (recv : BufReader) :
    (∀ request, readHttpRequest crates recv = .ok request ↔
      Complete crates recv.contents request) ∧
      ∀ e, readHttpRequest crates recv = .error e ↔ Rejected crates recv.contents e := by
  refine ⟨fun request => read_request_ok_iff, fun e => ⟨?_, read_rejected⟩⟩
  intro failed
  rcases complete_or_rejected recv.contents with ⟨request, complete⟩ | ⟨e', rejected⟩
  · rw [read_request_ok_iff.mpr complete] at failed
    contradiction
  · have other := read_rejected rejected
    rw [failed, Except.error.injEq] at other
    exact other ▸ rejected

theorem first_line_cases {s first : Bytes} {ls : List Bytes} (shape : lines s = first :: ls)
    (more : Bytes) :
    (∃ rest, ls = lines rest ∧ lines (s ++ more) = first :: lines (rest ++ more)) ∨
      ls = [] ∧ ∃ longer others, lines (s ++ more) = (first ++ longer) :: others := by
  have join := lines_join s
  rw [shape] at join
  rcases lines_cons shape with ⟨before, rest, rfl, whole, rfl⟩ | ⟨whole, rfl⟩
  · rw [List.flatten_cons, lines_join, List.append_assoc, List.singleton_append] at join
    refine Or.inl ⟨rest, rfl, ?_⟩
    rw [← join, List.append_assoc, List.cons_append, lines_terminated whole]
  · have same : first = s := by simpa using join
    subst same
    have some : first ≠ [] := line_nonempty (s := first) (by rw [shape]; exact List.mem_cons_self)
    refine Or.inr ⟨rfl, ?_⟩
    rw [lines_unfinished some whole]
    cases lines more with
    | nil => exact ⟨[], [], by rw [List.append_nil]⟩
    | cons line others => exact ⟨line, others, rfl⟩

theorem up_to_blank_front (line : Bytes) (rest : List Bytes) :
    line <+: (upToBlank (line :: rest)).flatten := by
  cases blank : isEnd line with
  | true =>
    rw [(up_to_blank_end blank rest).1]
    exact ⟨[], by simp⟩
  | false =>
    rw [(up_to_blank_cons blank rest).1]
    exact List.prefix_append line _

theorem up_to_blank_grows (s more : Bytes) :
    (upToBlank (lines s)).flatten <+: (upToBlank (lines (s ++ more))).flatten := by
  induction shape : lines s generalizing s with
  | nil => exact List.nil_prefix
  | cons first ls ih =>
    rcases first_line_cases shape more with ⟨rest, rfl, longer⟩ | ⟨rfl, tail, others, longer⟩
    · rw [longer]
      cases blank : isEnd first with
      | true =>
        refine ⟨[], ?_⟩
        rw [(up_to_blank_end blank _).1, (up_to_blank_end blank _).1, List.append_nil]
      | false =>
        rw [(up_to_blank_cons blank _).1, (up_to_blank_cons blank _).1, List.flatten_cons,
          List.flatten_cons]
        exact (List.prefix_append_right_inj first).mpr (ih rest rfl)
    · have one : (upToBlank [first]).flatten = first := by
        cases blank : isEnd first with
        | true => simp [upToBlank, blank]
        | false => simp [upToBlank, blank]
      rw [longer, one]
      exact (List.prefix_append first tail).trans (up_to_blank_front _ others)

/-- What a request can take of its stream at most. -/
def requestLimit : Nat := maxRequestLineBytes + maxHeaderBytes + maxBodyBytes

theorem is_head_length {s head rest : Bytes} (isHead : IsHead s head rest) :
    s = head ++ rest ∧ head.length ≤ maxRequestLineBytes + maxHeaderBytes := by
  refine ⟨(flat_head_ok (is_head_flat isHead)).1, ?_⟩
  obtain ⟨first, headers, last, after, _, _, _, short, fits, rfl, _⟩ := isHead
  rw [List.length_append]
  omega

theorem is_head_more {s head rest : Bytes} (isHead : IsHead s head rest) (more : Bytes) :
    IsHead (s ++ more) head (rest ++ more) := by
  obtain ⟨split, again⟩ := flat_head_ok (is_head_flat isHead)
  rw [split, List.append_assoc]
  exact flat_is_head (again (rest ++ more))

theorem no_head_more {s : Bytes} {e : HttpRequestError} (none : NoHead s e)
    (long : requestLimit ≤ s.length) (more : Bytes) : NoHead (s ++ more) e := by
  cases none with
  | empty nothing =>
    rw [nothing] at long
    simp [requestLimit, maxRequestLineBytes, maxHeaderBytes, maxBodyBytes] at long
  | longRequestLine first ls shape large =>
    rcases first_line_cases shape more with ⟨rest, _, longer⟩ | ⟨_, tail, others, longer⟩
    · exact .longRequestLine first _ longer large
    · refine .longRequestLine _ others longer ?_
      rw [List.length_append]
      omega
  | longHeaders first ls shape short large =>
    rcases first_line_cases shape more with ⟨rest, rfl, longer⟩ | ⟨rfl, _⟩
    · have grows := (up_to_blank_grows rest more).length_le
      exact .longHeaders first _ longer short (by omega)
    · simp [upToBlank] at large
  | unfinished first ls shape short others fits =>
    have join := congrArg List.length (lines_join s)
    rw [shape, List.flatten_cons, List.length_append] at join
    simp only [requestLimit, maxBodyBytes] at long
    omega

theorem content_length_limit {value : HeaderValue} {n : Nat}
    (parsed : parseContentLength crates value = .ok n) : n ≤ maxBodyBytes := by
  unfold parseContentLength at parsed
  obtain ⟨s, _, parsed⟩ := bind_ok parsed
  obtain ⟨m, _, parsed⟩ := bind_ok parsed
  obtain ⟨_, fits, parsed⟩ := bind_ok parsed
  cases parsed
  exact require_ok_iff.mp fits

theorem header_step_limit {fields next : HeaderFields} {header : RawHeader}
    (limited : ∀ n ∈ fields.contentLength, n ≤ maxBodyBytes)
    (h : headerStep crates fields header = .ok next) :
    ∀ n ∈ next.contentLength, n ≤ maxBodyBytes := by
  unfold headerStep at h
  obtain ⟨name, _, h⟩ := bind_ok h
  obtain ⟨value, _, h⟩ := bind_ok h
  obtain ⟨contentLength, found, h⟩ := bind_ok h
  obtain ⟨_, _, h⟩ := bind_ok h
  cases h
  unfold headerContentLength at found
  split at found
  · obtain ⟨n, parsed, found⟩ := bind_ok found
    obtain ⟨_, _, found⟩ := bind_ok found
    cases found
    intro m member
    cases member
    exact content_length_limit parsed
  · cases found
    exact limited

theorem header_fields_limit {headers : List RawHeader} {fields next : HeaderFields}
    (limited : ∀ n ∈ fields.contentLength, n ≤ maxBodyBytes)
    (h : headers.foldlM (headerStep crates) fields = .ok next) :
    ∀ n ∈ next.contentLength, n ≤ maxBodyBytes := by
  induction headers generalizing fields with
  | nil =>
    cases h
    exact limited
  | cons header headers ih =>
    rw [List.foldlM_cons] at h
    obtain ⟨moved, first, rest⟩ := bind_ok h
    exact ih (header_step_limit limited first) rest

theorem declared_limit {head : Bytes} {parsed : ParsedHttpHead}
    (accepted : parseHttpHead crates head = .ok parsed) :
    parsed.contentLength.getD 0 ≤ maxBodyBytes := by
  unfold parseHttpHead at accepted
  obtain ⟨request, _, accepted⟩ := bind_ok accepted
  obtain ⟨line, _, accepted⟩ := bind_ok accepted
  obtain ⟨fields, folded, accepted⟩ := bind_ok accepted
  cases accepted
  have none : ∀ n ∈ HeaderFields.empty.contentLength, n ≤ maxBodyBytes :=
    fun n member => by contradiction
  have limited := header_fields_limit none folded
  simp only
  cases declared : fields.contentLength with
  | none => exact Nat.zero_le _
  | some n => exact limited n declared

theorem complete_more {s : Bytes} {request : OpenAiHttpRequest} (complete : Complete crates s request)
    (more : Bytes) : Complete crates (s ++ more) request := by
  obtain ⟨head, rest, parsed, isHead, accepted, plain, enough, rfl⟩ := complete
  refine ⟨head, rest ++ more, parsed, is_head_more isHead more, accepted, plain, ?_, ?_⟩
  · rw [List.length_append]
    omega
  · rw [List.take_append_of_le_length enough]

theorem rejected_more {s : Bytes} {e : HttpRequestError} (rejected : Rejected crates s e)
    (long : requestLimit ≤ s.length) (more : Bytes) : Rejected crates (s ++ more) e := by
  cases rejected with
  | head _ none => exact .head e (no_head_more none long more)
  | parse head rest _ isHead failed =>
    exact .parse head (rest ++ more) e (is_head_more isHead more) failed
  | chunked head rest parsed isHead accepted marked =>
    exact .chunked head (rest ++ more) parsed (is_head_more isHead more) accepted marked
  | body head rest parsed isHead accepted plain short =>
    obtain ⟨split, limited⟩ := is_head_length isHead
    have declared := declared_limit accepted
    rw [split, List.length_append] at long
    unfold requestLimit at long
    omega

/-- Behind the limit nothing counts any more: streams that begin with the same bytes, as
    many as the limits add up to, get the same verdict, whatever follows and however
    it is cut. -/
theorem verdict_settled {recv recv' : BufReader} (long : requestLimit ≤ recv.contents.length)
    (begins : recv.contents <+: recv'.contents) :
    readHttpRequest crates recv' = readHttpRequest crates recv := by
  obtain ⟨more, whole⟩ := begins
  rcases @complete_or_rejected crates recv.contents with ⟨request, complete⟩ | ⟨e, rejected⟩
  · rw [read_request_ok_iff.mpr complete, read_request_ok_iff, ← whole]
    exact complete_more complete more
  · rw [read_rejected rejected]
    apply read_rejected
    rw [← whole]
    exact rejected_more rejected long more

def flood : Piece :=
  ⟨List.replicate requestLimit 0x41, by simp [requestLimit, maxRequestLineBytes]⟩

theorem verdict_settled_example :
    readHttpRequest exampleCrates (BufReader.new [flood, ⟨HttpReaders.exampleHead, by decide⟩]) =
      readHttpRequest exampleCrates (BufReader.new [flood]) := by
  apply verdict_settled
  · simp [new_contents, pieceBytes, flood]
  · rw [new_contents, new_contents]
    exact ⟨HttpReaders.exampleHead, by simp [pieceBytes]⟩

theorem request_bounded {recv : BufReader} {request : OpenAiHttpRequest}
    (read : readHttpRequest crates recv = .ok request) :
    request.body.length ≤ maxBodyBytes ∧
      ∃ raw rest, recv.contents = raw ++ rest ∧ raw.length ≤ requestLimit ∧
        ∀ recv' : BufReader, raw <+: recv'.contents →
          readHttpRequest crates recv' = .ok request := by
  obtain ⟨head, rest, parsed, isHead, accepted, plain, enough, rfl⟩ := read_request_ok_iff.mp read
  obtain ⟨split, limited⟩ := is_head_length isHead
  have declared := declared_limit accepted
  have length : (rest.take (parsed.contentLength.getD 0)).length = parsed.contentLength.getD 0 := by
    rw [List.length_take]
    omega
  refine ⟨by simp only; omega, head ++ rest.take (parsed.contentLength.getD 0),
    rest.drop (parsed.contentLength.getD 0), ?_, ?_, ?_⟩
  · rw [List.append_assoc, List.take_append_drop]
    exact split
  · rw [List.length_append]
    unfold requestLimit
    omega
  · intro recv' begins
    obtain ⟨more, whole⟩ := begins
    rw [read_request_ok_iff, ← whole]
    have alone : IsHead (head ++ rest.take (parsed.contentLength.getD 0)) head
        (rest.take (parsed.contentLength.getD 0)) :=
      flat_is_head ((flat_head_ok (is_head_flat isHead)).2 _)
    apply complete_more
    refine ⟨head, _, parsed, alone, accepted, plain, by omega, ?_⟩
    rw [List.take_of_length_le (Nat.le_of_eq length)]

end RequestVerdict
