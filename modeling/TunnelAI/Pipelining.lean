import TunnelAI.HeadLimits

/-!
The verdict on a local connection, and what it owes to the way the stream is cut
into reads. The reader looks for a second request in its buffer only: bytes
behind the request are noticed when a read has brought them along with the end
of the request, and not when they come later.
-/
namespace Pipelining
open StreamReader BufferedReader Lines Fallible HttpHead HttpReaders HeadLimits

theorem kept_line_round {holds : BufReader → Prop} (kept : Kept holds) {r : BufReader}
    (before : holds r) : holds (lineRound r).2 := by
  by_cases none : r.contents = []
  · have split := line_round_contents r
    rw [none] at split
    exact kept.ended r _ before (fill_buf_capacity r) (List.append_eq_nil_iff.mp split.symm).2
  · refine kept.filled r _ before (consume_filled_shorter ?_ none)
    have some : r.fillBuf.buffer ≠ [] := fun empty => none ((fill_buf_empty r).mp empty)
    exact line_length_pos some

theorem kept_limited_line {holds : BufReader → Prop} (kept : Kept holds) {maxLen : Nat}
    {r r' : BufReader} {bytes line : Bytes} (before : holds r)
    (h : readLimitedLine maxLen bytes r = .ok (line, r')) : holds r' := by
  have round := kept_line_round kept before
  induction size : r.contents.length using Nat.strongRecOn generalizing r bytes with
  | ind n ih =>
    unfold readLimitedLine at h
    split at h
    · split at h
      · contradiction
      · simp only [Except.ok.injEq, Prod.mk.injEq] at h
        exact h.2 ▸ round
    · rename_i more
      have taken := List.length_pos_iff.mpr more
      have split := congrArg List.length (line_round_contents r)
      rw [List.length_append] at split
      split at h
      · contradiction
      · split at h
        · simp only [Except.ok.injEq, Prod.mk.injEq] at h
          exact h.2 ▸ round
        · exact ih _ (by omega) round h (kept_line_round kept round) rfl

theorem kept_header_lines {holds : BufReader → Prop} (kept : Kept holds) {r r' : BufReader}
    {head found : Bytes} {headerBytes : Nat} (before : holds r)
    (h : readHeaderLines head headerBytes r = .ok (found, r')) : holds r' := by
  induction size : r.contents.length using Nat.strongRecOn generalizing r head headerBytes with
  | ind n ih =>
    unfold readHeaderLines at h
    split at h
    · contradiction
    · rename_i line rest read
      have after := kept_limited_line kept before read
      have shorter := read_line_shorter read
      split at h
      · contradiction
      · split at h
        · simp only [Except.ok.injEq, Prod.mk.injEq] at h
          exact h.2 ▸ after
        · exact ih _ (by omega) after h rfl

theorem kept_http_head {holds : BufReader → Prop} (kept : Kept holds) {r r' : BufReader}
    {head : Bytes} (before : holds r) (h : readHttpHead r = .ok (head, r')) : holds r' := by
  unfold readHttpHead at h
  split at h
  · contradiction
  · rename_i line rest read
    exact kept_header_lines kept (kept_limited_line kept before read) h

theorem kept_read_body {holds : BufReader → Prop} (kept : Kept holds) {r r' : BufReader} {n : Nat}
    {body : Bytes} (before : holds r) (h : readBody r n = .ok (body, r')) : holds r' := by
  rcases read_body_cases h with found | ⟨_, _, same⟩
  · exact kept_read_exact kept before found
  · exact same ▸ before

variable (crates : HttpCrates)

def verdict (pieces : List Piece) : Except HttpRequestError Bytes :=
  (readOneLocalHttpRequest crates (BufReader.new pieces)).map Prod.fst

/-- The stream holds bytes behind a first complete request that is not chunked. -/
def Trailing (s : Bytes) : Prop :=
  ∃ head rest parsed, IsHead s head rest ∧ parseHttpHead crates head = .ok parsed ∧
    parsed.hasChunkedBody = false ∧ parsed.contentLength.getD 0 < rest.length

/-- The verdict does not depend on how the stream is cut. -/
def Timeless (s : Bytes) : Prop :=
  ∀ pieces pieces', pieceBytes pieces = s → pieceBytes pieces' = s →
    verdict crates pieces = verdict crates pieces'

def AlwaysRejected (s : Bytes) : Prop :=
  ∀ pieces, pieceBytes pieces = s → ∃ e, verdict crates pieces = .error e

variable {crates}

theorem read_local_ends {head body rest : Bytes} {parsed : ParsedHttpHead} {reader : BufReader}
    (whole : flatHead head = .ok (head, [])) (accepted : parseHttpHead crates head = .ok parsed)
    (plain : parsed.hasChunkedBody = false) (length : body.length = parsed.contentLength.getD 0)
    (delivers : reader.contents = head ++ (body ++ rest)) :
    ∃ last, last.contents = rest ∧ (∀ holds, Kept holds → holds reader → holds last) ∧
      readOneLocalHttpRequest crates reader =
        if last.buffer = [] then .ok (head ++ body, last)
        else .error (.badRequest "local connection contains more than one HTTP request") := by
  have found : flatHead reader.contents = .ok (head, body ++ rest) := by
    rw [delivers]
    exact (flat_head_ok whole).2 (body ++ rest)
  obtain ⟨behind, read, holding⟩ := read_head_of_flat found
  obtain ⟨last, taken, left⟩ := read_body_enough holding
  refine ⟨last, left, ?_, ?_⟩
  · intro holds kept start
    exact kept_read_body kept (kept_http_head kept start read) taken
  · simp only [readOneLocalHttpRequest, read, accepted, ok_bind]
    rw [if_neg (by simp [plain]), ← length, taken, ok_bind]
    by_cases drained : last.buffer = []
    · rw [if_pos drained, require_met drained]
      rfl
    · rw [if_neg drained, require_unmet drained]
      rfl

theorem verdict_aligned {head body : Bytes} {parsed : ParsedHttpHead} {front : List Piece}
    (whole : flatHead head = .ok (head, [])) (accepted : parseHttpHead crates head = .ok parsed)
    (plain : parsed.hasChunkedBody = false) (length : body.length = parsed.contentLength.getD 0)
    (request : pieceBytes front = head ++ body) (back : List Piece) :
    verdict crates (front ++ back) = .ok (head ++ body) := by
  have delivers : (BufReader.new (front ++ back)).contents = head ++ (body ++ pieceBytes back) := by
    rw [new_contents, piece_bytes_append, request, List.append_assoc]
  obtain ⟨last, left, keeps, result⟩ := read_local_ends whole accepted plain length delivers
  have start : Aligned back (BufReader.new (front ++ back)) := fun _ => List.suffix_append front back
  have drained := aligned_drained (keeps (Aligned back) (aligned_kept back) start) left
  rw [verdict, result, if_pos drained]
  rfl

/-- A stream with a read, small enough for the buffer, that brings the end of the
    request and more. -/
theorem verdict_overlapping {head body end_ rest : Bytes} {parsed : ParsedHttpHead}
    {front : List Piece} {piece : Piece}
    (whole : flatHead head = .ok (head, [])) (accepted : parseHttpHead crates head = .ok parsed)
    (plain : parsed.hasChunkedBody = false) (length : body.length = parsed.contentLength.getD 0)
    (request : pieceBytes front ++ end_ = head ++ body) (both : piece.1 = end_ ++ rest)
    (some : end_ ≠ []) (more : rest ≠ []) (small : piece.1.length ≤ defaultCapacity)
    (back : List Piece) :
    verdict crates (front ++ piece :: back) =
      .error (.badRequest "local connection contains more than one HTTP request") := by
  have delivers : (BufReader.new (front ++ piece :: back)).contents =
      head ++ (body ++ (rest ++ pieceBytes back)) := by
    have cut : pieceBytes (piece :: back) = piece.1 ++ pieceBytes back := rfl
    rw [new_contents, piece_bytes_append, cut, both, ← List.append_assoc head, ← request]
    simp only [List.append_assoc]
  obtain ⟨last, left, keeps, result⟩ := read_local_ends whole accepted plain length delivers
  have start : Overlapping piece rest.length back (BufReader.new (front ++ piece :: back)) :=
    ⟨small, fun _ => Or.inl (List.suffix_append front (piece :: back))⟩
  have begun : rest.length < piece.1.length := by
    have positive := List.length_pos_iff.mpr some
    rw [both, List.length_append]
    omega
  have held := overlapping_held
    (keeps _ (overlapping_kept piece (List.length_pos_iff.mpr more) back) start) begun left
  rw [verdict, result, if_neg held]
  rfl

theorem trailing_split {s : Bytes} (trailing : Trailing crates s) :
    ∃ head body rest parsed, s = head ++ body ++ rest ∧ flatHead head = .ok (head, []) ∧
      parseHttpHead crates head = .ok parsed ∧ parsed.hasChunkedBody = false ∧
      body.length = parsed.contentLength.getD 0 ∧ head ≠ [] ∧ rest ≠ [] := by
  obtain ⟨head, behind, parsed, isHead, accepted, plain, more⟩ := trailing
  obtain ⟨split, again⟩ := flat_head_ok (is_head_flat isHead)
  have whole : flatHead head = .ok (head, []) := by simpa using again []
  refine ⟨head, behind.take (parsed.contentLength.getD 0),
    behind.drop (parsed.contentLength.getD 0), parsed, ?_, whole, accepted, plain, ?_, ?_, ?_⟩
  · rw [List.append_assoc, List.take_append_drop]
    exact split
  · rw [List.length_take]
    omega
  · intro empty
    rw [empty] at whole
    cases whole
  · intro empty
    have none := congrArg List.length empty
    rw [List.length_drop, List.length_nil] at none
    omega

theorem trailing_accepted {s : Bytes} (trailing : Trailing crates s) :
    ∃ pieces raw, pieceBytes pieces = s ∧ verdict crates pieces = .ok raw := by
  obtain ⟨head, body, rest, parsed, rfl, whole, accepted, plain, length, _, _⟩ :=
    trailing_split trailing
  refine ⟨bytewise (head ++ body) ++ bytewise rest, head ++ body, ?_, ?_⟩
  · rw [piece_bytes_append, bytewise_bytes, bytewise_bytes]
  · exact verdict_aligned whole accepted plain length (bytewise_bytes (head ++ body)) _

theorem trailing_rejected {s : Bytes} (trailing : Trailing crates s) :
    ∃ pieces e, pieceBytes pieces = s ∧ verdict crates pieces = .error e := by
  obtain ⟨head, body, rest, parsed, rfl, whole, accepted, plain, length, some, more⟩ :=
    trailing_split trailing
  have nonempty : head ++ body ≠ [] := fun none => some (List.append_eq_nil_iff.mp none).1
  have ends := List.dropLast_concat_getLast nonempty
  obtain ⟨extra, others, rfl⟩ := List.exists_cons_of_ne_nil more
  let ending := [(head ++ body).getLast nonempty]
  let both : Piece := ⟨ending ++ [extra], List.cons_ne_nil _ _⟩
  have request : pieceBytes (bytewise (head ++ body).dropLast) ++ ending = head ++ body := by
    rw [bytewise_bytes]
    exact ends
  have pair : both.1 = ending ++ [extra] := rfl
  have small : both.1.length ≤ defaultCapacity := show 2 ≤ defaultCapacity by decide
  refine ⟨bytewise (head ++ body).dropLast ++ both :: bytewise others, _, ?_,
    verdict_overlapping whole accepted plain length request pair (List.cons_ne_nil _ _)
      (List.cons_ne_nil _ _) small (bytewise others)⟩
  have cut : pieceBytes (both :: bytewise others) = both.1 ++ pieceBytes (bytewise others) := rfl
  rw [piece_bytes_append, cut, pair, bytewise_bytes others, ← List.append_assoc,
    ← List.append_assoc, request, List.append_assoc]
  rfl

variable (crates)

def flatVerdict (s : Bytes) : Except HttpRequestError Bytes := do
  let (head, rest) ← flatHead s
  let parsed ← parseHttpHead crates head
  if parsed.hasChunkedBody then return head
  else if rest.length < parsed.contentLength.getD 0 then throw (.badRequest "read request body")
  else return head ++ rest

variable {crates}

theorem verdict_flat {pieces : List Piece} (alone : ¬ Trailing crates (pieceBytes pieces)) :
    verdict crates pieces = flatVerdict crates (pieceBytes pieces) := by
  rcases flat_head_cases (pieceBytes pieces) with ⟨head, rest, found, isHead⟩ | ⟨e, found, _⟩
  · obtain ⟨split, again⟩ := flat_head_ok found
    have whole : flatHead head = .ok (head, []) := by simpa using again []
    obtain ⟨behind, read, holding⟩ := read_head_of_flat (r := BufReader.new pieces) found
    cases accepted : parseHttpHead crates head with
    | error e =>
      simp only [verdict, readOneLocalHttpRequest, read, flatVerdict, found, accepted, ok_bind]
      rfl
    | ok parsed =>
      cases plain : parsed.hasChunkedBody with
      | true =>
        simp only [verdict, readOneLocalHttpRequest, read, flatVerdict, found, accepted, ok_bind,
          plain, if_true]
        rfl
      | false =>
        have all : rest.length ≤ parsed.contentLength.getD 0 := by
          rw [← Nat.not_lt]
          intro more
          exact alone ⟨head, rest, parsed, isHead, accepted, plain, more⟩
        have flat : flatVerdict crates (pieceBytes pieces) =
            if rest.length < parsed.contentLength.getD 0 then
              .error (.badRequest "read request body")
            else .ok (head ++ rest) := by
          simp only [flatVerdict, found, accepted, ok_bind, plain]
          rfl
        by_cases short : rest.length < parsed.contentLength.getD 0
        · have cut := read_body_short (holding ▸ short)
          simp only [flat, if_pos short, verdict, readOneLocalHttpRequest, read, accepted, ok_bind,
            plain, cut]
          rfl
        · have delivers : (BufReader.new pieces).contents = head ++ (rest ++ []) := by
            rw [List.append_nil]
            exact split
          obtain ⟨last, left, _, result⟩ :=
            read_local_ends whole accepted plain (Nat.le_antisymm all (Nat.le_of_not_lt short)) delivers
          rw [flat, if_neg short, verdict, result, if_pos (List.append_eq_nil_iff.mp left).1]
          rfl
  · simp only [verdict, readOneLocalHttpRequest, read_head_error (r := BufReader.new pieces) found,
      flatVerdict, found]
    rfl

/-- Exactly the streams with nothing behind a first complete request get the same
    verdict however they are cut; with something behind it, whether they are refused
    is a matter of timing. -/
theorem verdict_timeless_iff (s : Bytes) :
    (Timeless crates s ∧ (Trailing crates s → AlwaysRejected crates s) ↔ ¬ Trailing crates s) ∧
      (Timeless crates s ↔ ¬ Trailing crates s) := by
  have settled : ¬ Trailing crates s → Timeless crates s := by
    intro alone pieces pieces' delivers delivers'
    subst delivers
    rw [verdict_flat alone, verdict_flat (delivers' ▸ alone), delivers']
  have timed : Timeless crates s → ¬ Trailing crates s := by
    intro timeless trailing
    obtain ⟨pieces, raw, delivers, accepted⟩ := trailing_accepted trailing
    obtain ⟨pieces', e, delivers', refused⟩ := trailing_rejected trailing
    have same := timeless pieces pieces' delivers delivers'
    rw [accepted, refused] at same
    contradiction
  refine ⟨⟨fun both => timed both.1, ?_⟩, timed, settled⟩
  intro alone
  exact ⟨settled alone, fun trailing => absurd trailing alone⟩

def exampleRequest : Bytes := text "GET /v1/models HTTP/1.1\r\n\r\n"

def secondLate : List Piece :=
  [⟨exampleRequest, by decide⟩, ⟨exampleRequest, by decide⟩]

def secondAtOnce : List Piece := [⟨exampleRequest ++ exampleRequest, by decide⟩]

/-- A second request is noticed only when it comes in time. -/
theorem second_request_missed :
    pieceBytes secondLate = pieceBytes secondAtOnce ∧
      Trailing exampleCrates (pieceBytes secondLate) ∧
      verdict exampleCrates secondLate = .ok exampleRequest ∧
      verdict exampleCrates secondAtOnce =
        .error (.badRequest "local connection contains more than one HTTP request") ∧
      ¬ Timeless exampleCrates (pieceBytes secondLate) := by
  have whole : flatHead exampleRequest = .ok (exampleRequest, []) := by decide
  have parses : ∃ parsed, parseHttpHead exampleCrates exampleRequest = .ok parsed ∧
      parsed.hasChunkedBody = false ∧ parsed.contentLength = none := by
    refine ⟨_, rfl, ?_, ?_⟩ <;> decide
  obtain ⟨parsed, accepted, plain, none⟩ := parses
  have bodiless : ([] : Bytes).length = parsed.contentLength.getD 0 := by rw [none]; rfl
  have late : verdict exampleCrates secondLate = .ok exampleRequest := by
    have request : pieceBytes (secondLate.take 1) = exampleRequest ++ [] := by decide
    have aligned := verdict_aligned whole accepted plain bodiless request (secondLate.drop 1)
    rwa [List.append_nil] at aligned
  have atOnce : verdict exampleCrates secondAtOnce =
      .error (.badRequest "local connection contains more than one HTTP request") := by
    have request : pieceBytes [] ++ exampleRequest = exampleRequest ++ [] := by decide
    have both : (⟨exampleRequest ++ exampleRequest, by decide⟩ : Piece).1 =
      exampleRequest ++ exampleRequest := rfl
    exact verdict_overlapping whole accepted plain bodiless request both (by decide) (by decide)
      (by decide) []
  have delivers : pieceBytes secondLate = pieceBytes secondAtOnce := by decide
  refine ⟨delivers, ?_, late, atOnce, ?_⟩
  · have found : flatHead (exampleRequest ++ exampleRequest) = .ok (exampleRequest, exampleRequest) :=
      (flat_head_ok whole).2 exampleRequest
    have isHead := flat_is_head found
    exact ⟨exampleRequest, exampleRequest, parsed, isHead, accepted, plain, by rw [none]; decide⟩
  · intro timeless
    have same := timeless secondLate secondAtOnce rfl delivers.symm
    rw [late, atOnce] at same
    contradiction

end Pipelining
