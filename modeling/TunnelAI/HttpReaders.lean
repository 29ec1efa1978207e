import TunnelAI.Library.BufferedReader
import TunnelAI.Library.Fallible
import TunnelAI.Library.Lines
import TunnelAI.HttpHead

/-!
The two readers of a request: the server's, which takes a body, and the client's,
which keeps the raw bytes and looks for a second request. Both read the head
line by line from a buffered stream. The head that they find depends on the
bytes of the stream only, and it is described on its lines. The stream ends, but
no read of it fails.
-/
namespace HttpReaders
open StreamReader BufferedReader Lines Fallible HttpHead

def endedEarly : HttpRequestError := .badRequest "HTTP request ended early"

def lineRound (r : BufReader) : Bytes × BufReader :=
  (r.fillBuf.buffer.take (lineLength r.fillBuf.buffer),
    r.fillBuf.consume (lineLength r.fillBuf.buffer))

theorem line_round_contents (r : BufReader) :
    r.contents = (lineRound r).1 ++ (lineRound r).2.contents := by
  rw [← fill_buf_contents r]
  exact consume_contents r.fillBuf (lineLength r.fillBuf.buffer)

theorem line_round_cases (r : BufReader) :
    (lineRound r).1 = [] ∧ r.contents = [] ∨
      (∃ before, (lineRound r).1 = before ++ [newline] ∧ newline ∉ before) ∨
      ((lineRound r).1 ≠ [] ∧ newline ∉ (lineRound r).1) := by
  unfold lineRound
  rcases line_length_cases r.fillBuf.buffer with ⟨before, rest, shape, whole, length⟩ | ⟨whole, length⟩
  · refine Or.inr (Or.inl ⟨before, ?_, whole⟩)
    rw [length, shape, List.take_append]
    simp [List.take_of_length_le]
  · rw [length, List.take_length]
    by_cases empty : r.fillBuf.buffer = []
    · exact Or.inl ⟨empty, (fill_buf_empty r).mp empty⟩
    · exact Or.inr (Or.inr ⟨empty, whole⟩)

def readLimitedLine (maxLen : Nat) (bytes : Bytes) (r : BufReader) :
    Except HttpRequestError (Bytes × BufReader) :=
  if (lineRound r).1 = [] then
    if bytes = [] then .error endedEarly else .ok (bytes, (lineRound r).2)
  else if bytes.length + (lineRound r).1.length > maxLen then .error .headersTooLarge
  else if (bytes ++ (lineRound r).1).getLast? = some newline then
    .ok (bytes ++ (lineRound r).1, (lineRound r).2)
  else readLimitedLine maxLen (bytes ++ (lineRound r).1) (lineRound r).2
termination_by r.contents.length
decreasing_by
  rename_i more _ _
  have taken := List.length_pos_iff.mpr more
  rw [line_round_contents r, List.length_append]
  omega

def readLimitedLineBytes (maxLen : Nat) (r : BufReader) :
    Except HttpRequestError (Bytes × BufReader) :=
  readLimitedLine maxLen [] r

/-- A result with the bytes that are left instead of the reader that holds them. -/
def flat {ε α : Type} (result : Except ε (α × BufReader)) : Except ε (α × Bytes) :=
  result.map fun found => (found.1, found.2.contents)

@[simp] theorem flat_ok {ε α : Type} (a : α) (r : BufReader) :
    flat (.ok (a, r) : Except ε (α × BufReader)) = .ok (a, r.contents) := rfl

@[simp] theorem flat_error {ε α : Type} (e : ε) :
    flat (.error e : Except ε (α × BufReader)) = .error e := rfl

def flatLine (maxLen : Nat) (bytes : Bytes) : List Bytes → Except HttpRequestError (Bytes × Bytes)
  | [] => if bytes = [] then .error endedEarly else .ok (bytes, [])
  | line :: rest =>
    if bytes.length + line.length > maxLen then .error .headersTooLarge
    else .ok (bytes ++ line, rest.flatten)

theorem read_limited_line_flat {maxLen : Nat} {bytes : Bytes} (r : BufReader) :
    flat (readLimitedLine maxLen bytes r) = flatLine maxLen bytes (lines r.contents) := by
  induction size : r.contents.length using Nat.strongRecOn generalizing r bytes with
  | ind n ih =>
    have split := line_round_contents r
    unfold readLimitedLine
    rcases line_round_cases r with ⟨empty, none⟩ | ⟨before, shape, whole⟩ | ⟨some, whole⟩
    · have rest : (lineRound r).2.contents = [] := by
        rw [none, empty] at split
        exact split.symm
      rw [if_pos empty, none]
      by_cases start : bytes = []
      · simp [start, lines, flatLine]
      · simp [start, lines, flatLine, rest]
    · have found : lines r.contents = (before ++ [newline]) :: lines (lineRound r).2.contents := by
        rw [split, shape, List.append_assoc, List.singleton_append, lines_terminated whole]
      rw [found, flatLine, shape, if_neg (by simp)]
      split
      · rfl
      · rw [if_pos (by simp), flat_ok, lines_join]
    · rw [if_neg some]
      have last : (bytes ++ (lineRound r).1).getLast? ≠ Option.some newline := by
        intro ends
        rw [List.getLast?_append_of_ne_nil _ some] at ends
        exact whole (List.mem_of_getLast? ends)
      have shorter : (lineRound r).2.contents.length < n := by
        have taken := List.length_pos_iff.mpr some
        rw [← size, split, List.length_append]
        omega
      rw [split, lines_unfinished some whole, if_neg last]
      by_cases long : bytes.length + (lineRound r).1.length > maxLen
      · rw [if_pos long]
        cases lines (lineRound r).2.contents with
        | nil => simp [flatLine, long]
        | cons line more =>
          simp only [flatLine, List.length_append]
          rw [if_pos (by omega), flat_error]
      · rw [if_neg long, ih _ shorter _ rfl]
        cases lines (lineRound r).2.contents with
        | nil => simp [flatLine, some, long]
        | cons line more =>
          simp only [flatLine, List.length_append, List.append_assoc, Nat.add_assoc]

theorem read_line_flat (maxLen : Nat) (r : BufReader) :
    flat (readLimitedLineBytes maxLen r) = flatLine maxLen [] (lines r.contents) :=
  read_limited_line_flat r

theorem read_line_ok {maxLen : Nat} {r r' : BufReader} {line : Bytes}
    (h : readLimitedLineBytes maxLen r = .ok (line, r')) :
    ∃ more, lines r.contents = line :: more ∧ lines r'.contents = more ∧ line.length ≤ maxLen := by
  have found := read_line_flat maxLen r
  rw [h, flat_ok] at found
  cases shape : lines r.contents with
  | nil => simp [shape, flatLine] at found
  | cons first more =>
    rw [shape, flatLine] at found
    split at found
    · contradiction
    · rename_i short
      simp only [List.nil_append, Except.ok.injEq, Prod.mk.injEq] at found
      obtain ⟨rfl, left⟩ := found
      have tail : lines r'.contents = more := by
        rw [left]
        exact lines_drop (show lines r.contents = [line] ++ more from shape)
      exact ⟨more, rfl, tail, by simpa using short⟩

theorem read_line_error {maxLen : Nat} {r : BufReader} {e : HttpRequestError}
    (h : readLimitedLineBytes maxLen r = .error e) :
    (lines r.contents = [] ∧ e = endedEarly) ∨
      (∃ line more, lines r.contents = line :: more ∧ line.length > maxLen ∧
        e = .headersTooLarge) := by
  have found := read_line_flat maxLen r
  rw [h, flat_error] at found
  cases shape : lines r.contents with
  | nil =>
    simp only [shape, flatLine, if_true, Except.error.injEq] at found
    exact Or.inl ⟨rfl, found⟩
  | cons first more =>
    rw [shape, flatLine] at found
    split at found
    · rename_i long
      rw [Except.error.injEq] at found
      exact Or.inr ⟨first, more, rfl, by simpa using long, found⟩
    · contradiction

theorem read_line_shorter {maxLen : Nat} {r r' : BufReader} {line : Bytes}
    (h : readLimitedLineBytes maxLen r = .ok (line, r')) :
    r'.contents.length < r.contents.length := by
  obtain ⟨more, before, after, _⟩ := read_line_ok h
  have some : line ≠ [] := line_nonempty (s := r.contents) (by simp [before])
  have taken := List.length_pos_iff.mpr some
  rw [← lines_join r.contents, ← lines_join r'.contents, before, after, List.flatten_cons,
    List.length_append]
  omega

def crlf : Bytes := [0x0d, newline]

def isEnd (line : Bytes) : Bool := line == crlf || line == [newline]

def readHeaderLines (head : Bytes) (headerBytes : Nat) (r : BufReader) :
    Except HttpRequestError (Bytes × BufReader) :=
  match _found : readLimitedLineBytes maxHeaderBytes r with
  | .error e => .error e
  | .ok (line, rest) =>
    if headerBytes + line.length > maxHeaderBytes then .error .headersTooLarge
    else if isEnd line then .ok (head ++ line, rest)
    else readHeaderLines (head ++ line) (headerBytes + line.length) rest
termination_by r.contents.length
decreasing_by exact read_line_shorter _found

def requestLineError : HttpRequestError → HttpRequestError
  | .headersTooLarge => .badRequest "request line too large"
  | err => err

def readHttpHead (r : BufReader) : Except HttpRequestError (Bytes × BufReader) :=
  match readLimitedLineBytes maxRequestLineBytes r with
  | .error e => .error (requestLineError e)
  | .ok (line, rest) => readHeaderLines line 0 rest

def flatHeaderLines (head : Bytes) (headerBytes : Nat) :
    List Bytes → Except HttpRequestError (Bytes × Bytes)
  | [] => .error endedEarly
  | line :: rest =>
    if headerBytes + line.length > maxHeaderBytes then .error .headersTooLarge
    else if isEnd line then .ok (head ++ line, rest.flatten)
    else flatHeaderLines (head ++ line) (headerBytes + line.length) rest

def flatHead (s : Bytes) : Except HttpRequestError (Bytes × Bytes) :=
  match lines s with
  | [] => .error endedEarly
  | line :: rest =>
    if line.length > maxRequestLineBytes then .error (.badRequest "request line too large")
    else flatHeaderLines line 0 rest

theorem read_header_lines_flat {head : Bytes} {headerBytes : Nat} (r : BufReader) :
    flat (readHeaderLines head headerBytes r) =
      flatHeaderLines head headerBytes (lines r.contents) := by
  induction size : r.contents.length using Nat.strongRecOn generalizing r head headerBytes with
  | ind n ih =>
    unfold readHeaderLines
    split
    · rename_i e found
      rcases read_line_error found with ⟨empty, rfl⟩ | ⟨line, more, shape, long, rfl⟩
      · rw [empty, flatHeaderLines, flat_error]
      · rw [shape, flatHeaderLines, if_pos (by omega), flat_error]
    · rename_i line rest found
      obtain ⟨more, shape, after, _⟩ := read_line_ok found
      have shorter := read_line_shorter found
      rw [shape, flatHeaderLines]
      split
      · rfl
      · split
        · rw [flat_ok, ← after, lines_join]
        · rw [ih _ (by omega) _ rfl, after]

/-- The head that is found, and what is left behind it, do not depend on how the
    stream is cut. -/
theorem read_http_head_flat (r : BufReader) : flat (readHttpHead r) = flatHead r.contents := by
  unfold readHttpHead flatHead
  cases found : readLimitedLineBytes maxRequestLineBytes r with
  | error e =>
    rcases read_line_error found with ⟨empty, rfl⟩ | ⟨line, more, shape, long, rfl⟩
    · simp [empty, requestLineError, endedEarly]
    · simp [shape, long, requestLineError]
  | ok read =>
    obtain ⟨line, rest⟩ := read
    obtain ⟨more, shape, after, short⟩ := read_line_ok found
    simp only [shape]
    rw [if_neg (by omega), read_header_lines_flat, after]

theorem flat_header_lines_ok {head found rest : Bytes} {headerBytes : Nat} {ls : List Bytes}
    (h : flatHeaderLines head headerBytes ls = .ok (found, rest)) :
    ∃ used last more, ls = used ++ [last] ++ more ∧ found = head ++ (used ++ [last]).flatten ∧
      rest = more.flatten ∧ isEnd last = true ∧
      ∀ other, flatHeaderLines head headerBytes (used ++ [last] ++ other) =
        .ok (found, other.flatten) := by
  induction ls generalizing head headerBytes with
  | nil => simp [flatHeaderLines] at h
  | cons line ls ih =>
    unfold flatHeaderLines at h
    split at h
    · contradiction
    · rename_i fits
      split at h
      · rename_i final
        simp only [Except.ok.injEq, Prod.mk.injEq] at h
        obtain ⟨rfl, rfl⟩ := h
        refine ⟨[], line, ls, rfl, by simp, rfl, final, ?_⟩
        intro other
        simp [flatHeaderLines, fits, final]
      · rename_i further
        obtain ⟨used, last, more, rfl, rfl, rfl, final, again⟩ := ih h
        refine ⟨line :: used, last, more, rfl, by simp, rfl, final, ?_⟩
        intro other
        rw [List.cons_append, List.cons_append, flatHeaderLines, if_neg fits, if_neg further]
        exact again other

theorem flat_head_ok {s head rest : Bytes} (h : flatHead s = .ok (head, rest)) :
    s = head ++ rest ∧ ∀ other, flatHead (head ++ other) = .ok (head, other) := by
  unfold flatHead at h
  cases shape : lines s with
  | nil => simp [shape] at h
  | cons line ls =>
    simp only [shape] at h
    split at h
    · contradiction
    · rename_i short
      obtain ⟨used, last, more, rfl, rfl, rfl, final, again⟩ := flat_header_lines_ok h
      have whole : lines s = (line :: (used ++ [last])) ++ more := shape
      have heads : line ++ (used ++ [last]).flatten = (line :: (used ++ [last])).flatten := rfl
      constructor
      · rw [← lines_join s, whole, List.flatten_append, heads]
      · intro other
        have ends : (line ++ (used ++ [last]).flatten).getLast? = some newline := by
          unfold isEnd at final
          rw [Bool.or_eq_true, beq_iff_eq, beq_iff_eq] at final
          rcases final with rfl | rfl <;> simp [crlf]
        unfold flatHead
        rw [lines_append (Or.inr ends), heads, lines_take whole]
        simp only [List.cons_append]
        rw [if_neg short, again, lines_join, heads]

theorem flat_head_cut {head cut : Bytes} (h : flatHead head = .ok (head, []))
    (begins : cut <+: head) (proper : cut ≠ head) : ∃ e, flatHead cut = .error e := by
  cases found : flatHead cut with
  | error e => exact ⟨e, rfl⟩
  | ok read =>
    exfalso
    obtain ⟨short, rest⟩ := read
    obtain ⟨missing, rfl⟩ := begins
    obtain ⟨rfl, again⟩ := flat_head_ok found
    have other := again (rest ++ missing)
    rw [← List.append_assoc, h, Except.ok.injEq, Prod.mk.injEq] at other
    have empty := List.append_eq_nil_iff.mp other.2.symm
    exact proper (by rw [empty.2, List.append_nil])

structure OpenAiHttpRequest where
  method : Method
  target : Bytes
  headers : HeaderMap
  body : Bytes
  deriving DecidableEq

def readBody (reader : BufReader) (contentLength : Nat) :
    Except HttpRequestError (Bytes × BufReader) :=
  if contentLength > 0 then orBadRequest (reader.readExact contentLength) "read request body"
  else .ok ([], reader)

variable (crates : HttpCrates)

def readHttpRequest (recv : BufReader) : Except HttpRequestError OpenAiHttpRequest := do
  let (head, reader) ← readHttpHead recv
  let parsed ← parseHttpHead crates head
  require (parsed.hasChunkedBody = false) HttpRequestError.unsupportedChunked
  let (body, _) ← readBody reader (parsed.contentLength.getD 0)
  return ⟨parsed.method, parsed.target, parsed.headers, body⟩

def readOneLocalHttpRequest (reader : BufReader) : Except HttpRequestError (Bytes × BufReader) := do
  let (raw, reader) ← readHttpHead reader
  let parsed ← parseHttpHead crates raw
  if parsed.hasChunkedBody then return (raw, reader)
  else
    let (body, reader) ← readBody reader (parsed.contentLength.getD 0)
    require (reader.buffer = [])
      (.badRequest "local connection contains more than one HTTP request")
    return (raw ++ body, reader)

variable {crates}

theorem read_body_cases {r r' : BufReader} {n : Nat} {body : Bytes}
    (h : readBody r n = .ok (body, r')) :
    r.readExact n = some (body, r') ∨ (n = 0 ∧ body = [] ∧ r' = r) := by
  unfold readBody at h
  split at h
  · cases found : r.readExact n with
    | none => simp [found, orBadRequest] at h
    | some read =>
      rw [found, orBadRequest, Except.ok.injEq] at h
      exact Or.inl (congrArg some h)
  · simp only [Except.ok.injEq, Prod.mk.injEq] at h
    exact Or.inr ⟨by omega, h.1.symm, h.2.symm⟩

theorem read_body_ok {r r' : BufReader} {n : Nat} {body : Bytes}
    (h : readBody r n = .ok (body, r')) : body.length = n ∧ r.contents = body ++ r'.contents := by
  rcases read_body_cases h with found | ⟨rfl, rfl, rfl⟩
  · exact read_exact_some found
  · exact ⟨rfl, rfl⟩

theorem read_body_enough {r : BufReader} {body rest : Bytes} (holding : r.contents = body ++ rest) :
    ∃ r', readBody r body.length = .ok (body, r') ∧ r'.contents = rest := by
  unfold readBody
  split
  · obtain ⟨r', found, left⟩ := read_exact_prefix (r := r) (n := body.length) (by simp [holding])
    rw [holding, List.take_left] at found
    rw [holding, List.drop_left] at left
    exact ⟨r', by rw [found]; rfl, left⟩
  · rename_i none
    have empty : body = [] := List.length_eq_zero_iff.mp (by omega)
    subst empty
    exact ⟨r, rfl, holding⟩

theorem read_body_whole (r : BufReader) :
    ∃ r', readBody r r.contents.length = .ok (r.contents, r') := by
  obtain ⟨r', found, _⟩ := read_body_enough (List.append_nil r.contents).symm
  exact ⟨r', found⟩

theorem read_body_short {r : BufReader} {n : Nat} (short : r.contents.length < n) :
    readBody r n = .error (.badRequest "read request body") := by
  unfold readBody
  rw [if_pos (by omega), read_exact_none.mpr short]
  rfl

theorem read_body_cut {r : BufReader} {n : Nat} (short : r.contents.length < n) :
    ∃ e, readBody r n = .error e :=
  ⟨_, read_body_short short⟩

theorem read_head_of_flat {r : BufReader} {head rest : Bytes}
    (h : flatHead r.contents = .ok (head, rest)) :
    ∃ r', readHttpHead r = .ok (head, r') ∧ r'.contents = rest := by
  rw [← read_http_head_flat r] at h
  cases found : readHttpHead r with
  | error e => simp [found] at h
  | ok read =>
    obtain ⟨raw, r'⟩ := read
    rw [found, flat_ok, Except.ok.injEq, Prod.mk.injEq] at h
    exact ⟨r', by rw [h.1], h.2⟩

theorem read_head_error {r : BufReader} {e : HttpRequestError} (h : flatHead r.contents = .error e) :
    readHttpHead r = .error e := by
  rw [← read_http_head_flat r] at h
  cases found : readHttpHead r with
  | error e' =>
    rw [found, flat_error, Except.error.injEq] at h
    rw [h]
  | ok read => simp [found, flat, Except.map] at h

theorem read_head_ok {r r' : BufReader} {head : Bytes} (h : readHttpHead r = .ok (head, r')) :
    flatHead r.contents = .ok (head, r'.contents) := by
  rw [← read_http_head_flat r, h, flat_ok]

theorem read_local_ok {reader reader' : BufReader} {raw : Bytes}
    (h : readOneLocalHttpRequest crates reader = .ok (raw, reader')) :
    ∃ head body parsed, raw = head ++ body ∧ reader.contents = raw ++ reader'.contents ∧
      flatHead head = .ok (head, []) ∧ parseHttpHead crates head = .ok parsed ∧
      body.length = if parsed.hasChunkedBody then 0 else parsed.contentLength.getD 0 := by
  unfold readOneLocalHttpRequest at h
  obtain ⟨⟨head, behind⟩, found, h⟩ := bind_ok h
  obtain ⟨parsed, accepted, h⟩ := bind_ok h
  obtain ⟨split, again⟩ := flat_head_ok (read_head_ok found)
  have whole : flatHead head = .ok (head, []) := by simpa using again []
  cases chunked : parsed.hasChunkedBody with
  | true =>
    simp only [chunked, if_true] at h
    cases h
    exact ⟨raw, [], parsed, by simp, split, whole, accepted, by simp [chunked]⟩
  | false =>
    simp only [chunked, Bool.false_eq_true, if_false] at h
    obtain ⟨⟨body, last⟩, taken, h⟩ := bind_ok h
    obtain ⟨length, rest⟩ := read_body_ok taken
    obtain ⟨_, _, h⟩ := bind_ok h
    cases h
    exact ⟨head, body, parsed, rfl, by rw [split, rest, List.append_assoc], whole, accepted,
      by simp [chunked, length]⟩

theorem read_request_whole {head body : Bytes} {parsed : ParsedHttpHead} {recv : BufReader}
    (whole : flatHead head = .ok (head, [])) (accepted : parseHttpHead crates head = .ok parsed)
    (length : body.length = if parsed.hasChunkedBody then 0 else parsed.contentLength.getD 0)
    (delivers : recv.contents = head ++ body) :
    readHttpRequest crates recv =
      if parsed.hasChunkedBody then .error .unsupportedChunked
      else .ok ⟨parsed.method, parsed.target, parsed.headers, body⟩ := by
  have found : flatHead recv.contents = .ok (head, body) := by
    rw [delivers]
    exact (flat_head_ok whole).2 body
  obtain ⟨reader, read, left⟩ := read_head_of_flat found
  simp only [readHttpRequest, read, accepted, ok_bind]
  cases chunked : parsed.hasChunkedBody with
  | true => rfl
  | false =>
    obtain ⟨last, taken⟩ := read_body_whole reader
    have declared : parsed.contentLength.getD 0 = reader.contents.length := by
      rw [left, length, chunked]
      simp
    rw [require_met rfl, ok_bind, declared, taken, left]
    rfl

theorem read_request_cut {head body : Bytes} {parsed : ParsedHttpHead} {recv : BufReader}
    (whole : flatHead head = .ok (head, [])) (accepted : parseHttpHead crates head = .ok parsed)
    (length : body.length = if parsed.hasChunkedBody then 0 else parsed.contentLength.getD 0)
    (begins : recv.contents <+: head ++ body) (proper : recv.contents ≠ head ++ body) :
    ∃ e, readHttpRequest crates recv = .error e := by
  unfold readHttpRequest
  by_cases inBody : head <+: recv.contents
  · obtain ⟨got, delivers⟩ := inBody
    have found : flatHead recv.contents = .ok (head, got) := by
      rw [← delivers]
      exact (flat_head_ok whole).2 got
    obtain ⟨reader, read, left⟩ := read_head_of_flat found
    rw [← delivers] at begins proper
    have short : got.length < body.length := by
      have part := (List.prefix_append_right_inj head).mp begins
      have other : got ≠ body := fun same => proper (by rw [same])
      exact Nat.lt_of_le_of_ne part.length_le fun same => other (part.eq_of_length same)
    simp only [read, accepted, ok_bind]
    cases chunked : parsed.hasChunkedBody with
    | true => exact ⟨.unsupportedChunked, rfl⟩
    | false =>
      rw [chunked, if_neg (by simp)] at length
      obtain ⟨e, cut⟩ := read_body_cut (r := reader) (n := parsed.contentLength.getD 0)
        (by rw [left]; omega)
      rw [require_met rfl, ok_bind, cut]
      exact ⟨e, rfl⟩
  · have inHead : recv.contents <+: head :=
      (List.prefix_or_prefix_of_prefix begins (List.prefix_append head body)).resolve_right inBody
    have other : recv.contents ≠ head := fun same => inBody (same ▸ List.prefix_rfl)
    obtain ⟨e, cut⟩ := flat_head_cut whole inHead other
    rw [read_head_error cut]
    exact ⟨e, rfl⟩

theorem read_local_whole {head body : Bytes} {parsed : ParsedHttpHead} {reader : BufReader}
    (whole : flatHead head = .ok (head, [])) (accepted : parseHttpHead crates head = .ok parsed)
    (length : body.length = if parsed.hasChunkedBody then 0 else parsed.contentLength.getD 0)
    (delivers : reader.contents = head ++ body) :
    ∃ reader', readOneLocalHttpRequest crates reader = .ok (head ++ body, reader') := by
  have found : flatHead reader.contents = .ok (head, body) := by
    rw [delivers]
    exact (flat_head_ok whole).2 body
  obtain ⟨behind, read, left⟩ := read_head_of_flat found
  simp only [readOneLocalHttpRequest, read, accepted, ok_bind]
  cases chunked : parsed.hasChunkedBody with
  | true =>
    have empty : body = [] := List.length_eq_zero_iff.mp (by rw [length, chunked]; rfl)
    exact ⟨behind, by rw [if_pos rfl, empty, List.append_nil]; rfl⟩
  | false =>
    obtain ⟨last, taken⟩ := read_body_whole behind
    have declared : parsed.contentLength.getD 0 = behind.contents.length := by
      rw [left, length, chunked]
      simp
    have rest := (read_body_ok taken).2
    have drained : last.buffer = [] := by
      have none : last.contents = [] := by simpa using rest
      exact (List.append_eq_nil_iff.mp none).1
    refine ⟨last, ?_⟩
    rw [if_neg (by simp), declared, taken, ← left]
    simp only [ok_bind, require_met drained]
    rfl

/-- The two readers agree: the server reads back, however the tunnel cuts the
    request, what the client has accepted, and nothing from a part of it. -/
theorem http_readers_agree {reader reader' : BufReader} {raw : Bytes}
    (accepted : readOneLocalHttpRequest crates reader = .ok (raw, reader')) :
    ∃ head body parsed, raw = head ++ body ∧ reader.contents = raw ++ reader'.contents ∧
      (∃ behind, readHttpHead reader = .ok (head, behind)) ∧
      parseHttpHead crates head = .ok parsed ∧
      body.length = (if parsed.hasChunkedBody then 0 else parsed.contentLength.getD 0) ∧
      (∀ pieces, pieceBytes pieces = raw →
        readHttpRequest crates (BufReader.new pieces) =
          if parsed.hasChunkedBody then .error .unsupportedChunked
          else .ok ⟨parsed.method, parsed.target, parsed.headers, body⟩) ∧
      ∀ pieces, pieceBytes pieces <+: raw → pieceBytes pieces ≠ raw →
        ∃ e, readHttpRequest crates (BufReader.new pieces) = .error e := by
  obtain ⟨head, body, parsed, rfl, split, whole, parses, length⟩ := read_local_ok accepted
  have found : flatHead reader.contents = .ok (head, body ++ reader'.contents) := by
    rw [split, List.append_assoc]
    exact (flat_head_ok whole).2 _
  obtain ⟨behind, read, _⟩ := read_head_of_flat found
  refine ⟨head, body, parsed, rfl, split, ⟨behind, read⟩, parses, length, ?_, ?_⟩
  · intro pieces delivers
    exact read_request_whole whole parses length delivers
  · intro pieces begins proper
    exact read_request_cut whole parses length begins proper

def exampleHead : Bytes := text "POST /v1/chat HTTP/1.1\r\nContent-Length: 7\r\n\r\n"

def examplePieces : List Piece :=
  [⟨text "POST /v1/chat HT", by decide⟩,
   ⟨text "TP/1.1\r\nContent-Length: 7\r\n\r\npay", by decide⟩, ⟨text "load", by decide⟩]

theorem http_readers_agree_example :
    (∃ reader, readOneLocalHttpRequest exampleCrates (BufReader.new examplePieces) =
        .ok (exampleHead ++ text "payload", reader)) ∧
      ∃ e, readHttpRequest exampleCrates (BufReader.new (examplePieces.take 2)) = .error e := by
  have whole : flatHead exampleHead = .ok (exampleHead, []) := by decide
  have parses : ∃ parsed, parseHttpHead exampleCrates exampleHead = .ok parsed ∧
      parsed.hasChunkedBody = false ∧ parsed.contentLength = some 7 := by
    refine ⟨_, rfl, ?_, ?_⟩ <;> decide
  obtain ⟨parsed, parses, plain, seven⟩ := parses
  have delivers : (BufReader.new examplePieces).contents = exampleHead ++ text "payload" := by
    decide
  obtain ⟨reader, accepted⟩ :=
    read_local_whole whole parses (by rw [plain, seven]; rfl) delivers
  obtain ⟨_, _, _, _, _, _, _, _, _, cut⟩ := http_readers_agree accepted
  exact ⟨⟨reader, accepted⟩, cut (examplePieces.take 2) (by decide) (by decide)⟩

end HttpReaders
