import TunnelAI.Library.ChunkedCoding
import TunnelAI.Library.Lines

/-!
Responses of HTTP/1.1 as a client reads them: a status line, field lines up to an
empty one, and then a body. The method of the request, the status and the framing
fields decide together how much of what follows is the body.
-/
namespace ResponseMessages
open StreamReader Lines ChunkedCoding

def colon : UInt8 := 0x3a

def space : UInt8 := 0x20

def comma : UInt8 := 0x2c

def isBlank (byte : UInt8) : Bool := byte == space || byte == 0x09

def isLetter (byte : UInt8) : Bool := (0x41 ≤ byte && byte ≤ 0x5a) || (0x61 ≤ byte && byte ≤ 0x7a)

def isDigit (byte : UInt8) : Bool := 0x30 ≤ byte && byte ≤ 0x39

def isTokenByte (byte : UInt8) : Bool :=
  isLetter byte || isDigit byte || (text "!#$%&'*+-.^_|~").contains byte || byte == 0x60

def toLower (byte : UInt8) : UInt8 := if 0x41 ≤ byte ∧ byte ≤ 0x5a then byte + 0x20 else byte

def trimBlanks (value : Bytes) : Bytes :=
  ((value.dropWhile isBlank).reverse.dropWhile isBlank).reverse

structure Head where
  status : Nat
  fields : List (Bytes × Bytes)
  deriving DecidableEq

structure Message where
  head : Head
  body : Bytes
  left : Bytes
  deriving DecidableEq

def content (line : Bytes) : Option Bytes :=
  if [cr, lf] <:+ line then some (line.take (line.length - 2)) else none

def number (digits : Bytes) : Option Nat :=
  if digits ≠ [] ∧ digits.all isDigit = true then
    some (digits.foldl (fun value digit => value * 10 + (digit.toNat - 0x30)) 0)
  else none

def statusOf (line : Bytes) : Option Nat :=
  if text "HTTP/1.1 " <+: line then
    match line.drop (text "HTTP/1.1 ").length with
    | a :: b :: c :: 0x20 :: _ => number [a, b, c]
    | _ => none
  else none

def fieldOf (line : Bytes) : Option (Bytes × Bytes) :=
  let name := line.takeWhile (· != colon)
  match line.dropWhile (· != colon) with
  | [] => none
  | _ :: value =>
    if name ≠ [] ∧ name.all isTokenByte = true then some (name.map toLower, trimBlanks value)
    else none

def parseFields : List Bytes → Option (List (Bytes × Bytes) × Bytes)
  | [] => none
  | line :: rest =>
    match content line with
    | none => none
    | some [] => some ([], rest.flatten)
    | some (byte :: bytes) => do
      let field ← fieldOf (byte :: bytes)
      let (fields, behind) ← parseFields rest
      return (field :: fields, behind)

def parseHead (s : Bytes) : Option (Head × Bytes) :=
  match lines s with
  | [] => none
  | first :: rest => do
    let line ← content first
    let status ← statusOf line
    let (fields, behind) ← parseFields rest
    return (⟨status, fields⟩, behind)

def fieldValues (name : Bytes) (fields : List (Bytes × Bytes)) : List Bytes :=
  (fields.filter fun field => field.1 == name).map (·.2)

def codings (fields : List (Bytes × Bytes)) : List Bytes :=
  (fieldValues (text "transfer-encoding") fields).flatMap fun value =>
    (value.splitOn comma).map fun coding => (trimBlanks coding).map toLower

inductive Framing where
  | bodyless
  | chunked
  | length : Nat → Framing
  | untilClose
  | invalid
  deriving DecidableEq

/-- A response that has no body whatever its fields say. Left out is the answer to CONNECT
    that opens a tunnel: behind it the connection carries no more messages. -/
def Bodyless (method : Bytes) (status : Nat) : Prop :=
  method = text "HEAD" ∨ status / 100 = 1 ∨ status = 204 ∨ status = 304

instance (method : Bytes) (status : Nat) : Decidable (Bodyless method status) :=
  inferInstanceAs (Decidable (_ ∨ _ ∨ _ ∨ _))

def framing (method : Bytes) (head : Head) : Framing :=
  if Bodyless method head.status then .bodyless
  else
    match (codings head.fields).getLast?, fieldValues (text "content-length") head.fields with
    | some coding, _ => if coding = text "chunked" then .chunked else .untilClose
    | none, [] => .untilClose
    | none, value :: _ =>
      match number value with
      | some n => .length n
      | none => .invalid

/-- The first response of a stream that then ends. -/
def parseMessage (method s : Bytes) : Option Message := do
  let (head, behind) ← parseHead s
  match framing method head with
  | .bodyless => some ⟨head, [], behind⟩
  | .chunked =>
    if (decode behind).complete = true then
      some ⟨head, (decode behind).body, (decode behind).left⟩
    else none
  | .length n => if n ≤ behind.length then some ⟨head, behind.take n, behind.drop n⟩ else none
  | .untilClose => some ⟨head, behind, []⟩
  | .invalid => none

def fieldLine (name value : Bytes) : Bytes := name ++ [colon, space] ++ value ++ [cr, lf]

structure Field (name value : Bytes) : Prop where
  nonempty : name ≠ []
  token : name.all isTokenByte = true
  unbroken : cr ∉ value ∧ lf ∉ value

def headBytes (status reason : Bytes) (fields : List (Bytes × Bytes)) : Bytes :=
  text "HTTP/1.1 " ++ status ++ [space] ++ reason ++ [cr, lf] ++
    (fields.flatMap fun field => fieldLine field.1 field.2) ++ [cr, lf]

def readField (field : Bytes × Bytes) : Bytes × Bytes := (field.1.map toLower, trimBlanks field.2)

theorem content_line (s : Bytes) : content (s ++ [cr, lf]) = some s := by
  rw [content, if_pos (List.suffix_append s [cr, lf])]
  simp

theorem lines_crlf {s : Bytes} (whole : lf ∉ s) (rest : Bytes) :
    lines (s ++ [cr, lf] ++ rest) = (s ++ [cr, lf]) :: lines rest := by
  have unbroken : newline ∉ s ++ [cr] := by
    rw [List.mem_append, List.mem_singleton, not_or]
    exact ⟨whole, by decide⟩
  have split := lines_terminated unbroken rest
  have shape : s ++ [cr, lf] ++ rest = s ++ [cr] ++ newline :: rest := by simp [newline, lf]
  have line : s ++ [cr] ++ [newline] = s ++ [cr, lf] := by simp [newline, lf]
  rw [shape, split, line]

theorem token_no_colon {name : Bytes} (token : name.all isTokenByte = true) :
    ∀ byte ∈ name, (byte != colon) = true ∧ byte ≠ lf := by
  intro byte member
  have valid := List.all_eq_true.mp token byte member
  constructor
  · rw [bne_iff_ne]
    intro same
    rw [same] at valid
    exact absurd valid (by decide)
  · intro same
    rw [same] at valid
    exact absurd valid (by decide)

theorem trim_blanks_space (value : Bytes) : trimBlanks (space :: value) = trimBlanks value := rfl

theorem field_of_line {name value : Bytes} (field : Field name value) :
    fieldOf (name ++ [colon, space] ++ value) = some (readField (name, value)) := by
  have shape : name ++ [colon, space] ++ value = name ++ colon :: space :: value := by simp
  have noColon : ∀ byte ∈ name, (byte != colon) = true := fun byte member =>
    (token_no_colon field.token byte member).1
  unfold fieldOf
  rw [shape, List.takeWhile_append_of_pos noColon, List.dropWhile_append_of_pos noColon,
    List.takeWhile_cons_of_neg (by simp), List.dropWhile_cons_of_neg (by simp), List.append_nil]
  simp only
  rw [if_pos ⟨field.nonempty, field.token⟩, trim_blanks_space]
  rfl

theorem parse_fields_cons {line : Bytes} {field : Bytes × Bytes} (nonempty : line ≠ [])
    (read : fieldOf line = some field) (rest : List Bytes) :
    parseFields ((line ++ [cr, lf]) :: rest) =
      (parseFields rest).map fun parsed => (field :: parsed.1, parsed.2) := by
  obtain ⟨byte, bytes, rfl⟩ := List.exists_cons_of_ne_nil nonempty
  rw [parseFields, content_line]
  simp only
  rw [read]
  cases parseFields rest <;> rfl

theorem parse_fields_lines {fields : List (Bytes × Bytes)}
    (valid : ∀ field ∈ fields, Field field.1 field.2) (rest : Bytes) :
    parseFields (lines ((fields.flatMap fun field => fieldLine field.1 field.2) ++ [cr, lf] ++ rest)) =
      some (fields.map readField, rest) := by
  induction fields with
  | nil =>
    have blank := lines_crlf (s := []) (by simp) rest
    rw [List.nil_append] at blank
    rw [List.flatMap_nil, List.nil_append, blank, parseFields, ← List.nil_append [cr, lf],
      content_line]
    simp only
    rw [lines_join]
    rfl
  | cons first fields ih =>
    obtain ⟨name, value⟩ := first
    have field : Field name value := valid (name, value) List.mem_cons_self
    have whole : lf ∉ name ++ [colon, space] ++ value := by
      simp only [List.mem_append, not_or]
      exact ⟨⟨fun member => (token_no_colon field.token lf member).2 rfl, by decide⟩,
        field.unbroken.2⟩
    have split := lines_crlf whole
      ((fields.flatMap fun field => fieldLine field.1 field.2) ++ [cr, lf] ++ rest)
    have shape : ((name, value) :: fields).flatMap (fun field => fieldLine field.1 field.2) ++
        [cr, lf] ++ rest = name ++ [colon, space] ++ value ++ [cr, lf] ++
          ((fields.flatMap fun field => fieldLine field.1 field.2) ++ [cr, lf] ++ rest) := by
      simp [fieldLine]
    rw [shape, split, parse_fields_cons (by simp [field.nonempty]) (field_of_line field),
      ih fun other member => valid other (List.mem_cons_of_mem _ member)]
    rfl

theorem digit_value {d : Nat} (small : d < 10) :
    isDigit (UInt8.ofNat (0x30 + d)) = true ∧ (UInt8.ofNat (0x30 + d)).toNat - 0x30 = d := by
  have value : (UInt8.ofNat (0x30 + d)).toNat = 0x30 + d := by
    rw [UInt8.toNat_ofNat']
    omega
  constructor
  · simp only [isDigit, UInt8.le_iff_toNat_le, value, Bool.and_eq_true, decide_eq_true_eq,
      UInt8.reduceToNat]
    omega
  · omega

def statusDigits (status : Nat) : Bytes :=
  [UInt8.ofNat (0x30 + status / 100), UInt8.ofNat (0x30 + status / 10 % 10),
    UInt8.ofNat (0x30 + status % 10)]

theorem status_of_line {status : Nat} (three : status < 1000) (reason : Bytes) :
    statusOf (text "HTTP/1.1 " ++ statusDigits status ++ [space] ++ reason) = some status := by
  obtain ⟨d1, v1⟩ := digit_value (show status / 100 < 10 by omega)
  obtain ⟨d2, v2⟩ := digit_value (show status / 10 % 10 < 10 by omega)
  obtain ⟨d3, v3⟩ := digit_value (show status % 10 < 10 by omega)
  have after : (text "HTTP/1.1 " ++ statusDigits status ++ [space] ++ reason).drop
      (text "HTTP/1.1 ").length = statusDigits status ++ space :: reason := by
    rw [List.append_assoc, List.append_assoc, List.drop_left]
    rfl
  rw [statusOf, if_pos (by rw [List.append_assoc, List.append_assoc]; exact List.prefix_append _ _),
    after]
  change number (statusDigits status) = some status
  rw [number, if_pos ⟨List.cons_ne_nil _ _, by
    simp only [statusDigits, List.all_cons, List.all_nil, d1, d2, d3, Bool.and_true]⟩]
  simp only [statusDigits, List.foldl_cons, List.foldl_nil, v1, v2, v3, Option.some.injEq]
  omega

/-- A head is read back from its bytes, whatever is behind it. -/
theorem parse_head_bytes {status : Nat} {reason : Bytes} {fields : List (Bytes × Bytes)}
    (three : status < 1000) (unbroken : lf ∉ reason)
    (valid : ∀ field ∈ fields, Field field.1 field.2) (rest : Bytes) :
    parseHead (headBytes (statusDigits status) reason fields ++ rest) =
      some (⟨status, fields.map readField⟩, rest) := by
  have digits : lf ∉ statusDigits status := by
    intro member
    have small : ∀ d, d < 10 → UInt8.ofNat (0x30 + d) ≠ lf := by
      intro d small same
      have digit := (digit_value small).1
      rw [same] at digit
      exact absurd digit (by decide)
    simp only [statusDigits, List.mem_cons, List.not_mem_nil, or_false] at member
    rcases member with same | same | same
    · exact small _ (by omega) same.symm
    · exact small _ (by omega) same.symm
    · exact small _ (by omega) same.symm
  have whole : lf ∉ text "HTTP/1.1 " ++ statusDigits status ++ [space] ++ reason := by
    simp only [List.mem_append, not_or]
    exact ⟨⟨⟨by decide, digits⟩, by decide⟩, unbroken⟩
  have shape : headBytes (statusDigits status) reason fields ++ rest =
      text "HTTP/1.1 " ++ statusDigits status ++ [space] ++ reason ++ [cr, lf] ++
        ((fields.flatMap fun field => fieldLine field.1 field.2) ++ [cr, lf] ++ rest) := by
    simp [headBytes]
  rw [parseHead, shape, lines_crlf whole]
  simp only
  rw [content_line, Option.bind_eq_bind, Option.bind_some, status_of_line three,
    parse_fields_lines valid]
  rfl

end ResponseMessages
