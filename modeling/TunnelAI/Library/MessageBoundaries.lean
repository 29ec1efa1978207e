import TunnelAI.Library.ResponseMessages

/-!
Where a response ends. A response whose framing says where its body stops is read
in the same way whatever comes behind it, so no proper beginning of it is a
response: one that is cut short is noticed.
-/
namespace MessageBoundaries
open StreamReader Lines ChunkedCoding ResponseMessages

theorem content_blank {line : Bytes} (blank : content line = some []) : line = [cr, lf] := by
  unfold content at blank
  split at blank
  · rename_i ends
    obtain ⟨front, rfl⟩ := ends
    simp only [List.length_append, List.length_cons, List.length_nil, Nat.add_sub_cancel,
      List.take_left, Option.some.injEq] at blank
    rw [blank, List.nil_append]
  · contradiction

theorem parse_fields_used {ls : List Bytes} {fields : List (Bytes × Bytes)} {behind : Bytes}
    (h : parseFields ls = some (fields, behind)) :
    ∃ used more, ls = used ++ more ∧ behind = more.flatten ∧ used.getLast? = some [cr, lf] ∧
      ∀ other, parseFields (used ++ other) = some (fields, other.flatten) := by
  induction ls generalizing fields with
  | nil => simp [parseFields] at h
  | cons line rest ih =>
    cases shape : content line with
    | none => simp [parseFields, shape] at h
    | some bytes =>
      cases bytes with
      | nil =>
        simp only [parseFields, shape, Option.some.injEq, Prod.mk.injEq] at h
        obtain ⟨rfl, rfl⟩ := h
        refine ⟨[line], rest, rfl, rfl, by rw [content_blank shape]; rfl, ?_⟩
        intro other
        simp [parseFields, shape]
      | cons byte bytes =>
        simp only [parseFields, shape, Option.bind_eq_bind, Option.bind_eq_some_iff,
          Option.pure_def, Option.some.injEq, Prod.mk.injEq] at h
        obtain ⟨field, read, ⟨fields', behind'⟩, tail, rfl, rfl⟩ := h
        obtain ⟨used, more, rfl, rfl, last, again⟩ := ih tail
        refine ⟨line :: used, more, rfl, rfl, ?_, ?_⟩
        · rw [List.getLast?_cons, last]
          rfl
        · intro other
          rw [List.cons_append, parseFields, shape]
          simp only [read, again other]
          rfl

/-- A head is a beginning of the stream, and is the head of all that begins so. -/
theorem parse_head_used {s rest : Bytes} {head : Head} (h : parseHead s = some (head, rest)) :
    ∃ front, s = front ++ rest ∧ ∀ other, parseHead (front ++ other) = some (head, other) := by
  unfold parseHead at h
  cases shape : lines s with
  | nil => simp [shape] at h
  | cons first ls =>
    simp only [shape, Option.bind_eq_bind, Option.bind_eq_some_iff, Option.pure_def,
      Option.some.injEq, Prod.mk.injEq] at h
    obtain ⟨line, cut, status, read, ⟨fields, behind⟩, parsed, rfl, rfl⟩ := h
    obtain ⟨used, more, rfl, rfl, last, again⟩ := parse_fields_used parsed
    have whole : lines s = (first :: used) ++ more := shape
    have ends : (first :: used).flatten.getLast? = some newline := by
      obtain ⟨before, rfl⟩ := List.getLast?_eq_some_iff.mp last
      have tail : (first :: (before ++ [[cr, lf]])).flatten =
          (first :: before).flatten ++ [cr, lf] := by simp
      rw [tail, List.getLast?_append_of_ne_nil _ (by simp)]
      rfl
    refine ⟨(first :: used).flatten, ?_, ?_⟩
    · rw [← lines_join s, whole, List.flatten_append]
    · intro other
      unfold parseHead
      rw [lines_append (Or.inr ends), lines_take whole, List.cons_append]
      simp only [cut, again, lines_join, Option.bind_eq_bind, Option.bind_some, read]
      rfl

theorem decode_past_end {s : Bytes} (complete : (decode s).complete = true) (more : Bytes) :
    decode (s ++ more) = ⟨.over, (decode s).body, (decode s).left ++ more⟩ := by
  have shape : decode s = ⟨.over, (decode s).body, (decode s).left⟩ := by
    rw [Decoder.complete, beq_iff_eq] at complete
    rw [← complete]
  have split : decode (s ++ more) = (decode s).feedAll more := feed_append _ s more
  rw [split, shape, feed_over]

def body (method : Bytes) (head : Head) (behind : Bytes) : Option (Bytes × Bytes) :=
  match framing method head with
  | .bodyless => some ([], behind)
  | .chunked =>
    if (decode behind).complete = true then some ((decode behind).body, (decode behind).left)
    else none
  | .length n => if n ≤ behind.length then some (behind.take n, behind.drop n) else none
  | .untilClose => some (behind, [])
  | .invalid => none

theorem parse_message_body (method s : Bytes) :
    parseMessage method s = (parseHead s).bind fun found =>
      (body method found.1 found.2).map fun read => ⟨found.1, read.1, read.2⟩ := by
  unfold parseMessage
  cases parseHead s with
  | none => rfl
  | some found =>
    obtain ⟨head, behind⟩ := found
    simp only [Option.bind_eq_bind, Option.bind_some, body]
    cases framing method head with
    | bodyless => rfl
    | chunked =>
      simp only
      split
      · rfl
      · rfl
    | length n =>
      simp only
      split
      · rfl
      · rfl
    | untilClose => rfl
    | invalid => rfl

theorem body_past_end {method : Bytes} {head : Head} {behind content left : Bytes}
    (bounded : framing method head ≠ .untilClose)
    (read : body method head behind = some (content, left)) (more : Bytes) :
    body method head (behind ++ more) = some (content, left ++ more) := by
  unfold body at read ⊢
  cases frame : framing method head with
  | bodyless =>
    simp only [frame, Option.some.injEq, Prod.mk.injEq] at read ⊢
    exact ⟨read.1, by rw [read.2]⟩
  | chunked =>
    simp only [frame, Option.ite_none_right_eq_some, Option.some.injEq, Prod.mk.injEq] at read ⊢
    obtain ⟨complete, rfl, rfl⟩ := read
    rw [decode_past_end complete more]
    exact ⟨rfl, rfl, rfl⟩
  | length n =>
    simp only [frame, Option.ite_none_right_eq_some, Option.some.injEq, Prod.mk.injEq] at read ⊢
    obtain ⟨enough, rfl, rfl⟩ := read
    refine ⟨by rw [List.length_append]; omega, ?_, ?_⟩
    · rw [List.take_append_of_le_length enough]
    · rw [List.drop_append_of_le_length enough]
  | untilClose => exact absurd frame bounded
  | invalid => simp [frame] at read

theorem parse_message_iff {method s : Bytes} {message : Message} :
    parseMessage method s = some message ↔ ∃ behind, parseHead s = some (message.head, behind) ∧
      body method message.head behind = some (message.body, message.left) := by
  rw [parse_message_body, Option.bind_eq_some_iff]
  constructor
  · intro h
    obtain ⟨⟨head, behind⟩, found, read⟩ := h
    rw [Option.map_eq_some_iff] at read
    obtain ⟨⟨content, left⟩, inside, rfl⟩ := read
    exact ⟨behind, found, inside⟩
  · intro h
    obtain ⟨behind, found, read⟩ := h
    exact ⟨(message.head, behind), found, by rw [read]; rfl⟩

theorem parse_message_nil (method : Bytes) : parseMessage method [] = none := rfl

/-- A response that is bounded is read in the same way with more behind it. -/
theorem message_past_end {method s : Bytes} {message : Message}
    (parsed : parseMessage method s = some message)
    (bounded : framing method message.head ≠ .untilClose) (more : Bytes) :
    parseMessage method (s ++ more) = some { message with left := message.left ++ more } := by
  obtain ⟨behind, found, read⟩ := parse_message_iff.mp parsed
  obtain ⟨front, rfl, again⟩ := parse_head_used found
  rw [List.append_assoc, parse_message_iff]
  exact ⟨behind ++ more, again _, body_past_end bounded read more⟩

/-- Nothing that stops before the end of a bounded response is a response. -/
theorem cut_message_none {method s cut : Bytes} {message : Message}
    (parsed : parseMessage method s = some message)
    (bounded : framing method message.head ≠ .untilClose) (whole : message.left = [])
    (begins : cut <+: s) (proper : cut ≠ s) : parseMessage method cut = none := by
  obtain ⟨missing, rfl⟩ := begins
  cases early : parseMessage method cut with
  | none => rfl
  | some short =>
    exfalso
    obtain ⟨behind, found, read⟩ := parse_message_iff.mp early
    obtain ⟨front, rfl, again⟩ := parse_head_used found
    obtain ⟨behind', found', _⟩ := parse_message_iff.mp parsed
    rw [List.append_assoc, again, Option.some.injEq, Prod.mk.injEq] at found'
    have extended := message_past_end early (found'.1 ▸ bounded) missing
    rw [parsed, Option.some.injEq] at extended
    rw [extended] at whole
    have empty := (List.append_eq_nil_iff.mp whole).2
    exact proper (by rw [empty, List.append_nil])

end MessageBoundaries
