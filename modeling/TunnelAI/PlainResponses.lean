import TunnelAI.Library.MessageBoundaries
import TunnelAI.ClientSession
import TunnelAI.HeaderForwarding

/-!
The responses that the two processes make themselves, as the application reads
them. Each of them has the length of its body in its head, so a client that
expects a body gets exactly this one and notices when it is cut short.
-/
namespace PlainResponses
open StreamReader ChunkedCoding ResponseMessages MessageBoundaries HttpHead ResponseWriter
  HeaderForwarding ServerStream StdText

def digitsValue (digits : Bytes) : Nat :=
  digits.foldl (fun value digit => value * 10 + (digit.toNat - 0x30)) 0

theorem digits_value_snoc (digits : Bytes) (digit : UInt8) :
    digitsValue (digits ++ [digit]) = digitsValue digits * 10 + (digit.toNat - 0x30) := by
  simp [digitsValue]

def digitByte (c : Char) : UInt8 := UInt8.ofNat c.toNat

theorem digit_char_byte {d : Nat} (small : d < 10) :
    digitByte (Nat.digitChar d) = UInt8.ofNat (0x30 + d) ∧ (Nat.digitChar d).toNat < 128 := by
  have all : ∀ d : Fin 10, digitByte (Nat.digitChar d.val) = UInt8.ofNat (0x30 + d.val) ∧
      (Nat.digitChar d.val).toNat < 128 := by decide
  exact all ⟨d, small⟩

theorem to_digits_bytes (n : Nat) :
    (Nat.toDigits 10 n).map digitByte ≠ [] ∧
      ((Nat.toDigits 10 n).map digitByte).all isDigit = true ∧
      digitsValue ((Nat.toDigits 10 n).map digitByte) = n ∧
      ∀ c ∈ Nat.toDigits 10 n, c.toNat < 128 := by
  induction n using Nat.strongRecOn with
  | ind n ih =>
    by_cases small : n < 10
    · obtain ⟨digit, value⟩ := digit_value small
      obtain ⟨byte, ascii⟩ := digit_char_byte small
      rw [Nat.toDigits_of_lt_base small]
      refine ⟨by simp, ?_, ?_, by simpa using ascii⟩
      · simp only [List.map_cons, List.map_nil, List.all_cons, List.all_nil, byte, digit,
          Bool.and_self]
      · simp only [List.map_cons, List.map_nil, byte, digitsValue, List.foldl_cons, List.foldl_nil]
        omega
    · obtain ⟨some, digits, value, ascii⟩ := ih (n / 10) (by omega)
      have last : n % 10 < 10 := Nat.mod_lt n (by decide)
      obtain ⟨digit, unit⟩ := digit_value last
      obtain ⟨byte, lastAscii⟩ := digit_char_byte last
      rw [Nat.toDigits_of_base_le (by decide) (by omega)]
      refine ⟨by simp, ?_, ?_, ?_⟩
      · rw [List.map_append, List.all_append, digits]
        simp only [List.map_cons, List.map_nil, List.all_cons, List.all_nil, byte, digit,
          Bool.and_self]
      · rw [List.map_append, List.map_singleton, digits_value_snoc, value, byte, unit]
        omega
      · intro c member
        rcases List.mem_append.mp member with front | back
        · exact ascii c front
        · rw [List.mem_singleton.mp back]
          exact lastAscii

theorem decimal_digits (n : Nat) : decimal n = (Nat.toDigits 10 n).map digitByte := by
  have ascii := (to_digits_bytes n).2.2.2
  have shape : toString n = String.ofList (Nat.toDigits 10 n) := Nat.toString_eq_ofList_toDigits
  rw [decimal, shape, text_ascii ascii]
  rfl

theorem number_decimal (n : Nat) : number (decimal n) = some n := by
  obtain ⟨some, digits, value, _⟩ := to_digits_bytes n
  rw [decimal_digits, number, if_pos ⟨some, digits⟩]
  exact congrArg _ value

theorem decimal_plain (n : Nat) : ∀ byte ∈ decimal n, isDigit byte = true := by
  rw [decimal_digits]
  exact List.all_eq_true.mp (to_digits_bytes n).2.1

theorem trim_blanks_none {value : Bytes} (none : ∀ byte ∈ value, isBlank byte = false) :
    trimBlanks value = value := by
  have kept : ∀ bytes : Bytes, (∀ byte ∈ bytes, isBlank byte = false) →
      bytes.dropWhile isBlank = bytes := by
    intro bytes none
    cases bytes with
    | nil => rfl
    | cons byte bytes =>
      rw [List.dropWhile_cons_of_neg]
      rw [none byte List.mem_cons_self]
      decide
  have reversed : ∀ byte ∈ value.reverse, isBlank byte = false := by
    intro byte member
    exact none byte (List.mem_reverse.mp member)
  rw [trimBlanks, kept value none, kept value.reverse reversed, List.reverse_reverse]

def plainFields (body : String) : List (Bytes × Bytes) :=
  [(text "content-type", text "text/plain"), (text "connection", text "close"),
    (text "content-length", decimal (text body).length)]

theorem digit_byte_plain {byte : UInt8} (digit : isDigit byte = true) :
    isBlank byte = false ∧ byte ≠ cr ∧ byte ≠ lf := by
  refine ⟨?_, ?_, ?_⟩
  · rw [Bool.eq_false_iff]
    intro blank
    simp only [isBlank, Bool.or_eq_true, beq_iff_eq] at blank
    rcases blank with rfl | rfl
    · exact absurd digit (by decide)
    · exact absurd digit (by decide)
  · rintro rfl
    exact absurd digit (by decide)
  · rintro rfl
    exact absurd digit (by decide)

theorem plain_fields_valid (body : String) :
    (∀ field ∈ plainFields body, Field field.1 field.2) ∧
      (plainFields body).map readField = plainFields body := by
  have plain := fun byte member => digit_byte_plain (decimal_plain (text body).length byte member)
  have length : Field (text "content-length") (decimal (text body).length) :=
    ⟨by decide, by decide, fun member => (plain cr member).2.1 rfl,
      fun member => (plain lf member).2.2 rfl⟩
  have type : Field (text "content-type") (text "text/plain") := ⟨by decide, by decide, by decide⟩
  have connection : Field (text "connection") (text "close") := ⟨by decide, by decide, by decide⟩
  constructor
  · intro field member
    simp only [plainFields, List.mem_cons, List.not_mem_nil, or_false] at member
    rcases member with rfl | rfl | rfl
    · exact type
    · exact connection
    · exact length
  · have read : readField (text "content-length", decimal (text body).length) =
        (text "content-length", decimal (text body).length) := by
      rw [readField, trim_blanks_none fun byte member => (plain byte member).1]
      rfl
    have others : readField (text "content-type", text "text/plain") =
        (text "content-type", text "text/plain") ∧
        readField (text "connection", text "close") = (text "connection", text "close") := by
      decide
    rw [plainFields, List.map_cons, List.map_cons, List.map_cons, List.map_nil, read, others.1,
      others.2]

theorem plain_response_bytes {status : Nat} (three : 100 ≤ status ∧ status < 1000)
    (reason body : String) :
    plainResponse status reason body =
      headBytes (statusDigits status) (text reason) (plainFields body) ++ text body := by
  have gap : text " " = [space] := by decide
  have type : text "content-type: text/plain\r\n" =
      fieldLine (text "content-type") (text "text/plain") := by decide
  have connection : text "connection: close\r\n" =
      fieldLine (text "connection") (text "close") := by decide
  have length : text "content-length: " = text "content-length" ++ [colon, space] := by decide
  rw [plainResponse, statusLine, decimal_three three.1 three.2, gap, type, connection, length,
    headBytes, plainFields]
  simp only [List.flatMap_cons, List.flatMap_nil, fieldLine, List.append_assoc, List.append_nil]

theorem plain_head_parses {status : Nat} (three : 100 ≤ status ∧ status < 1000) {reason : String}
    (unbroken : lf ∉ text reason) (body : String) :
    parseHead (plainResponse status reason body) =
      some (⟨status, plainFields body⟩, text body) := by
  obtain ⟨valid, read⟩ := plain_fields_valid body
  rw [plain_response_bytes three, parse_head_bytes three.2 unbroken valid, read]

theorem plain_framing {method : Bytes} {status : Nat} (expects : ¬ Bodyless method status)
    (body : String) :
    framing method ⟨status, plainFields body⟩ = .length (text body).length := by
  have coding : codings (plainFields body) = [] := by
    rw [codings]
    have none : fieldValues (text "transfer-encoding") (plainFields body) = [] := rfl
    rw [none]
    rfl
  have length : fieldValues (text "content-length") (plainFields body) =
      [decimal (text body).length] := rfl
  simp only [framing, if_neg expects, coding, List.getLast?_nil, length, number_decimal]

theorem plain_message {status : Nat} (three : 100 ≤ status ∧ status < 1000) {reason : String}
    (unbroken : lf ∉ text reason) (body : String) (method : Bytes) :
    parseMessage method (plainResponse status reason body) =
      some (if Bodyless method status then ⟨⟨status, plainFields body⟩, [], text body⟩
        else ⟨⟨status, plainFields body⟩, text body, []⟩) := by
  rw [parse_message_iff]
  refine ⟨text body, ?_, ?_⟩
  · rw [plain_head_parses three unbroken]
    split <;> rfl
  · split
    · rename_i bodyless
      have frame : framing method ⟨status, plainFields body⟩ = .bodyless := if_pos bodyless
      simp only [MessageBoundaries.body, frame]
    · rename_i expects
      simp only [MessageBoundaries.body, plain_framing expects, Nat.le_refl, if_true,
        List.take_length, List.drop_length]

/-- The bytes are one response with this status and this body, and nothing behind it. -/
def OneResponse (method bytes : Bytes) (status : Nat) (body : Bytes) : Prop :=
  ∃ message, parseMessage method bytes = some message ∧ message.head.status = status ∧
    message.body = body ∧ message.left = []

theorem plain_one_response_iff {status : Nat} (three : 100 ≤ status ∧ status < 1000)
    {reason : String} (unbroken : lf ∉ text reason) (body : String) (method : Bytes) :
    OneResponse method (plainResponse status reason body) status (text body) ↔
      ¬ Bodyless method status ∨ text body = [] := by
  unfold OneResponse
  rw [plain_message three unbroken]
  by_cases bodyless : Bodyless method status
  · rw [if_pos bodyless]
    constructor
    · intro one
      obtain ⟨message, same, _, _, left⟩ := one
      cases same
      exact Or.inr left
    · intro condition
      have empty := condition.resolve_left fun expects => expects bodyless
      exact ⟨_, rfl, rfl, empty.symm, empty⟩
  · rw [if_neg bodyless]
    constructor
    · intro _
      exact Or.inl bodyless
    · intro _
      exact ⟨_, rfl, rfl, rfl, rfl⟩

theorem plain_cut_none {status : Nat} (three : 100 ≤ status ∧ status < 1000) {reason : String}
    (unbroken : lf ∉ text reason) {body : String} {method cut : Bytes}
    (expects : ¬ Bodyless method status) (begins : cut <+: plainResponse status reason body)
    (proper : cut ≠ plainResponse status reason body) : parseMessage method cut = none := by
  have parsed := plain_message three unbroken body method
  rw [if_neg expects] at parsed
  have bounded : framing method ⟨status, plainFields body⟩ ≠ .untilClose := by
    rw [plain_framing expects]
    intro impossible
    cases impossible
  exact cut_message_none parsed bounded rfl begins proper

/-- What `write_plain_response` writes is one response with that status and that
    body, unless the client does not expect a body that is there; and a client that
    expects one takes no part of it for the whole. -/
theorem plain_response_delimited {status : Nat} (three : 100 ≤ status ∧ status < 1000)
    {reason : String} (unbroken : lf ∉ text reason) (body : String) (method : Bytes) :
    (OneResponse method (written (writePlainResponse status reason body)) status (text body) ↔
        ¬ Bodyless method status ∨ text body = []) ∧
      (¬ Bodyless method status → ∀ cut, cut <+: written (writePlainResponse status reason body) →
        cut ≠ written (writePlainResponse status reason body) →
        parseMessage method cut = none) := by
  rw [(writes_plain_response status reason body).2]
  exact ⟨plain_one_response_iff three unbroken body method, fun expects cut =>
    plain_cut_none three unbroken expects⟩

theorem plain_response_delimited_example :
    OneResponse (text "POST") (written (writePlainResponse 413 "Payload Too Large"
      "payload too large")) 413 (text "payload too large") :=
  (plain_response_delimited (by decide) (by decide) "payload too large" (text "POST")).1.mpr
    (Or.inl (by decide))

end PlainResponses
