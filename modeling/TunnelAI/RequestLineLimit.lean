import TunnelAI.HeadLimits

/-!
The two notions of a request line. The reader of a head limits the first line of
the stream; the parser takes the method, the target and the version from the first
line that is not empty.
-/
namespace RequestLineLimit
open StreamReader BufferedReader Lines HttpHead HttpReaders HeadLimits

/-- `httparse` skips empty lines in front of the request line, and finds nothing in
    nothing. -/
structure SkipsEmptyLines (crates : HttpCrates) : Prop where
  skips : ∀ slots line head, isEnd line = true →
    crates.parseRequest slots (line ++ head) = crates.parseRequest slots head
  nothing : ∀ slots, crates.parseRequest slots [] = .ok none

def parsedLine (head : Bytes) : Option Bytes := (lines head).find? fun line => !isEnd line

/-- A stream with an empty line first and a line behind it that is over the limit. -/
def LongBehindEmpty (s : Bytes) : Prop :=
  match lines s with
  | first :: second :: _ => isEnd first = true ∧ maxRequestLineBytes < second.length
  | _ => False

instance (s : Bytes) : Decidable (LongBehindEmpty s) := by
  unfold LongBehindEmpty
  split <;> infer_instance

variable {crates : HttpCrates}

theorem parse_skips (skips : SkipsEmptyLines crates) {line : Bytes} (empty : isEnd line = true)
    (head : Bytes) : parseHttpHead crates (line ++ head) = parseHttpHead crates head := by
  unfold parseHttpHead completeRequest
  rw [skips.skips _ line head empty]

theorem empty_lines_rejected (skips : SkipsEmptyLines crates) {first last : Bytes}
    (empty : isEnd first = true) (blank : isEnd last = true) (parsed : ParsedHttpHead) :
    parseHttpHead crates (first ++ last) ≠ .ok parsed := by
  rw [parse_skips skips empty, ← List.append_nil last, parse_skips skips blank]
  unfold parseHttpHead completeRequest
  rw [skips.nothing]
  intro impossible
  cases impossible

theorem head_lines {first last : Bytes} {headers after : List Bytes} {s : Bytes}
    (shape : lines s = first :: (headers ++ last :: after)) :
    lines (first ++ (headers ++ [last]).flatten) = first :: (headers ++ [last]) := by
  have split : lines s = (first :: (headers ++ [last])) ++ after := by simp [shape]
  exact lines_take split

/-- In a head that is accepted, the line that is parsed is at its place in a head
    that parses to the same request, and it keeps to the limit exactly when no long
    line stands behind an empty first one. -/
theorem request_line_limit_iff (skips : SkipsEmptyLines crates) {r r' : BufReader} {head : Bytes}
    {parsed : ParsedHttpHead} (read : readHttpHead r = .ok (head, r'))
    (parses : parseHttpHead crates head = .ok parsed) :
    ∃ line rest, parsedLine head = some line ∧ parseHttpHead crates (line ++ rest) = .ok parsed ∧
      (line.length ≤ maxRequestLineBytes ↔ ¬ LongBehindEmpty r.contents) := by
  obtain ⟨first, headers, last, after, shape, others, blank, short, _, rfl, _⟩ :=
    flat_is_head (read_head_ok read)
  have split := head_lines shape
  unfold parsedLine
  rw [split]
  by_cases empty : isEnd first = true
  · cases headers with
    | nil =>
      rw [List.nil_append, List.flatten_singleton] at parses
      exact absurd parses (empty_lines_rejected skips empty blank parsed)
    | cons second more =>
      have header := others second List.mem_cons_self
      rw [parse_skips skips empty, List.cons_append, List.flatten_cons] at parses
      refine ⟨second, _, by simp [empty, header], parses, ?_⟩
      rw [← Nat.not_lt, not_iff_not, LongBehindEmpty, shape]
      constructor
      · intro long
        exact ⟨empty, long⟩
      · intro behind
        exact behind.2
  · rw [Bool.not_eq_true] at empty
    refine ⟨first, _, by simp [empty], parses, ?_⟩
    constructor
    · intro _ behind
      rw [LongBehindEmpty, shape] at behind
      split at behind
      · rename_i same
        rw [← (List.cons.inj same).1, empty] at behind
        exact absurd behind.1 (by decide)
      · exact behind
    · intro _
      exact short

def withoutEmptyLines (head : Bytes) : Bytes := ((lines head).dropWhile isEnd).flatten

def skippingCrates : HttpCrates :=
  { exampleCrates with
    parseRequest := fun slots head =>
      if withoutEmptyLines head = [] then .ok none
      else exampleCrates.parseRequest slots (withoutEmptyLines head) }

theorem empty_line_ends {line : Bytes} (empty : isEnd line = true) :
    line.getLast? = some newline ∧ lines line = [line] := by
  rw [isEnd, Bool.or_eq_true, beq_iff_eq, beq_iff_eq] at empty
  rcases empty with rfl | rfl
  · exact ⟨by decide, by decide⟩
  · exact ⟨by decide, by decide⟩

theorem without_empty_line {line : Bytes} (empty : isEnd line = true) (head : Bytes) :
    withoutEmptyLines (line ++ head) = withoutEmptyLines head := by
  obtain ⟨ends, single⟩ := empty_line_ends empty
  rw [withoutEmptyLines, lines_append (Or.inr ends), single, List.singleton_append,
    List.dropWhile_cons_of_pos empty, withoutEmptyLines]

theorem skipping_skips : SkipsEmptyLines skippingCrates where
  skips := by
    intro slots line head empty
    simp only [skippingCrates, without_empty_line empty]
  nothing := fun _ => rfl

def emptyLineFirst : Bytes := text "\r\nGET /v1/models HTTP/1.1\r\nHost: a\r\n\r\n"

theorem request_line_limit_example :
    ∃ line, parsedLine emptyLineFirst = some line ∧ line.length ≤ maxRequestLineBytes := by
  have whole : flatHead emptyLineFirst = .ok (emptyLineFirst, []) := by decide
  have delivers : (BufReader.new [⟨emptyLineFirst, by decide⟩]).contents = emptyLineFirst := by
    decide
  obtain ⟨r', read, _⟩ := read_head_of_flat (delivers ▸ whole)
  have parses : ∃ parsed, parseHttpHead skippingCrates emptyLineFirst = .ok parsed := ⟨_, rfl⟩
  obtain ⟨parsed, parses⟩ := parses
  obtain ⟨line, _, found, _, limit⟩ := request_line_limit_iff skipping_skips read parses
  exact ⟨line, found, limit.mpr (by rw [delivers]; decide)⟩

structure PlainTarget (target : Bytes) : Prop where
  rooted : text "/" <+: target ∧ ¬ text "//" <+: target
  oneWord : (0x0a : UInt8) ∉ target ∧ (0x0d : UInt8) ∉ target ∧ (0x20 : UInt8) ∉ target
  fits : target.length ≤ maxHeaderBytes - 100

def getLine (target : Bytes) : Bytes := text "GET " ++ target ++ text " HTTP/1.1\r\n"

def getHead (target : Bytes) : Bytes := crlf ++ getLine target ++ crlf

theorem get_line_shape (target : Bytes) :
    getLine target = text "GET" ++ 0x20 :: (target ++ 0x20 :: text "HTTP/1.1") ++ [0x0d] ++
      [newline] := by
  have start : text "GET " = text "GET" ++ [0x20] := by decide
  have finish : text " HTTP/1.1\r\n" = 0x20 :: text "HTTP/1.1" ++ [0x0d] ++ [newline] := by decide
  rw [getLine, start, finish]
  simp

theorem get_line_length (target : Bytes) : (getLine target).length = target.length + 15 := by
  rw [getLine, List.length_append, List.length_append,
    show (text "GET ").length = 4 by decide, show (text " HTTP/1.1\r\n").length = 11 by decide]
  omega

theorem get_line_free {target : Bytes} (plain : PlainTarget target) :
    newline ∉ text "GET" ++ 0x20 :: (target ++ 0x20 :: text "HTTP/1.1") ++ [0x0d] := by
  simp only [List.mem_append, List.mem_cons, not_or, List.not_mem_nil, not_false_eq_true, and_true]
  exact ⟨⟨by decide, by decide, plain.oneWord.1, by decide, by decide⟩, by decide⟩

theorem get_head_lines {target : Bytes} (plain : PlainTarget target) :
    lines (getHead target) = [crlf, getLine target, crlf] := by
  have shape : getHead target = [0x0d] ++ newline ::
      (text "GET" ++ 0x20 :: (target ++ 0x20 :: text "HTTP/1.1") ++ [0x0d] ++ newline :: crlf) := by
    rw [getHead, get_line_shape]
    simp [crlf]
  rw [shape, lines_terminated (by decide), lines_terminated (get_line_free plain),
    ← get_line_shape]
  rfl

theorem get_line_header (target : Bytes) : isEnd (getLine target) = false := by
  have long := get_line_length target
  cases found : isEnd (getLine target) with
  | false => rfl
  | true =>
    rw [isEnd, Bool.or_eq_true, beq_iff_eq, beq_iff_eq] at found
    rcases found with same | same
    · rw [same, show crlf.length = 2 from rfl] at long
      omega
    · rw [same, List.length_singleton] at long
      omega

theorem get_head_is_head {target : Bytes} (plain : PlainTarget target) :
    IsHead (getHead target) (getHead target) [] := by
  have fits := plain.fits
  refine ⟨crlf, [getLine target], crlf, [], get_head_lines plain, ?_, by decide, by decide, ?_, ?_,
    rfl⟩
  · simp [get_line_header]
  · simp only [List.singleton_append, List.flatten_cons, List.flatten_nil, List.append_nil,
      List.length_append, get_line_length, show crlf.length = 2 from rfl, maxHeaderBytes] at fits ⊢
    omega
  · simp [getHead]

theorem get_line_parses {target : Bytes} (plain : PlainTarget target) :
    exampleCrates.parseRequest maxHeaderCount (getLine target ++ crlf) =
      .ok (some ⟨some (text "GET"), some target, some 1, []⟩) := by
  have noCr : target.filter (fun byte => byte != 0x0d) = target := by
    rw [List.filter_eq_self]
    intro byte member
    simpa using fun same : byte = 0x0d => plain.oneWord.2.1 (same ▸ member)
  have words : (text "GET" ++ 0x20 :: (target ++ 0x20 :: text "HTTP/1.1")).splitOn 0x20 =
      [text "GET", target, text "HTTP/1.1"] := by
    rw [List.splitOn_append_cons_self, List.splitOn_append_cons_self,
      List.splitOn_eq_singleton plain.oneWord.2.2]
    rfl
  have free : (0x0a : UInt8) ∉ text "GET" ++ 0x20 :: (target ++ 0x20 :: text "HTTP/1.1") ++ [0x0d] :=
    get_line_free plain
  have split : (getLine target ++ crlf).splitOn 0x0a =
      [text "GET" ++ 0x20 :: (target ++ 0x20 :: text "HTTP/1.1") ++ [0x0d], [0x0d], []] := by
    rw [get_line_shape, List.append_assoc _ [newline] crlf, List.singleton_append,
      show newline = (0x0a : UInt8) from rfl, List.splitOn_append_cons_self,
      List.splitOn_eq_singleton free]
    rfl
  have method : (text "GET").filter (fun byte => byte != 0x0d) = text "GET" := by decide
  have version : (text "HTTP/1.1").filter (fun byte => byte != 0x0d) = text "HTTP/1.1" := by
    decide
  have clean : (text "GET" ++ 0x20 :: (target ++ 0x20 :: text "HTTP/1.1") ++ [0x0d]).filter
      (fun byte => byte != 0x0d) = text "GET" ++ 0x20 :: (target ++ 0x20 :: text "HTTP/1.1") := by
    rw [List.filter_append, List.filter_append, method, List.filter_cons_of_pos (by decide),
      List.filter_append, noCr, List.filter_cons_of_pos (by decide), version,
      List.filter_cons_of_neg (by decide), List.filter_nil, List.append_nil]
  simp only [exampleCrates, split, List.map_cons, List.map_nil, clean, words]
  rfl

theorem get_head_parses {target : Bytes} (plain : PlainTarget target) :
    ∃ parsed, parseHttpHead skippingCrates (getHead target) = .ok parsed := by
  have skipped : withoutEmptyLines (getHead target) = getLine target ++ crlf := by
    rw [withoutEmptyLines, get_head_lines plain, List.dropWhile_cons_of_pos (by decide),
      List.dropWhile_cons_of_neg (by simp [get_line_header])]
    simp
  have received : completeRequest skippingCrates (getHead target) =
      .ok ⟨some (text "GET"), some target, some 1, []⟩ := by
    have nonempty : getLine target ++ crlf ≠ [] := by simp [crlf]
    have found : skippingCrates.parseRequest maxHeaderCount (getHead target) =
        .ok (some ⟨some (text "GET"), some target, some 1, []⟩) := by
      simp only [skippingCrates, skipped, if_neg nonempty]
      exact get_line_parses plain
    rw [completeRequest, found]
  have line : requestLine skippingCrates ⟨some (text "GET"), some target, some 1, []⟩ =
      .ok (⟨text "GET"⟩, target) := by
    simp only [requestLine, orBadRequest, Fallible.ok_bind, skippingCrates, exampleCrates]
    rw [Fallible.require_met (by decide), Fallible.ok_bind, Fallible.require_met plain.rooted,
      Fallible.ok_bind]
    rfl
  unfold parseHttpHead
  rw [received, Fallible.ok_bind, line, Fallible.ok_bind]
  exact ⟨_, rfl⟩

theorem long_target : ∃ target, PlainTarget target ∧ maxRequestLineBytes < target.length := by
  have bytes : ∀ byte, byte ∈ (0x2f :: List.replicate 8192 0x61 : Bytes) →
      byte = 0x2f ∨ byte = 0x61 := by
    intro byte member
    rcases List.mem_cons.mp member with same | member
    · exact Or.inl same
    · exact Or.inr (List.eq_of_mem_replicate member)
  have length : (0x2f :: List.replicate 8192 0x61 : Bytes).length = 8193 := by
    rw [List.length_cons, List.length_replicate]
  have one : text "/" = [0x2f] := by decide
  have two : text "//" = [0x2f, 0x2f] := by decide
  refine ⟨0x2f :: List.replicate 8192 0x61, ⟨?_, ?_, ?_⟩, ?_⟩
  · rw [one, two]
    refine ⟨List.prefix_append [0x2f] _, ?_⟩
    intro twice
    rw [List.cons_prefix_cons] at twice
    have second := twice.2.subset (List.mem_singleton.mpr rfl)
    exact absurd (List.eq_of_mem_replicate second) (by decide)
  · refine ⟨?_, ?_, ?_⟩
    · intro member
      exact absurd (bytes _ member) (by decide)
    · intro member
      exact absurd (bytes _ member) (by decide)
    · intro member
      exact absurd (bytes _ member) (by decide)
  · rw [length]
    decide
  · rw [length]
    decide

/-- A request line over the limit is read and parsed behind an empty line. -/
theorem long_request_line_accepted :
    ∃ r head r' parsed line, readHttpHead r = .ok (head, r') ∧
      parseHttpHead skippingCrates head = .ok parsed ∧ parsedLine head = some line ∧
      maxRequestLineBytes < line.length := by
  obtain ⟨target, plain, long⟩ := long_target
  obtain ⟨parsed, parses⟩ := get_head_parses plain
  have delivers : (BufReader.new [⟨getHead target, by simp [getHead, crlf]⟩]).contents =
      getHead target := by simp [new_contents, pieceBytes]
  have whole := is_head_flat (get_head_is_head plain)
  rw [← delivers] at whole
  obtain ⟨r', read, _⟩ := read_head_of_flat whole
  rw [delivers] at read
  refine ⟨_, getHead target, r', parsed, getLine target, read, parses, ?_, ?_⟩
  · rw [parsedLine, get_head_lines plain]
    simp [get_line_header, show isEnd crlf = true by decide]
  · rw [get_line_length]
    omega

end RequestLineLimit
