import TunnelAI.Library.ResponseMessages
import TunnelAI.HeaderLists

/-!
Which Content-Length values the parser of a request head accepts, beside the ones
that the grammar has: strings of digits. The parser takes a plus sign in front of
the digits as well.
-/
namespace ContentLength
open StreamReader Fallible StdText ResponseMessages HttpHead HeaderLists

def plus : UInt8 := 0x2b

/-- What the `http` crate does with the header names and values of the proxy. -/
structure ReadsHeaders (crates : HttpCrates) : Prop extends KeepsHeaders crates where
  content_length_named : ∀ raw, raw.map toAsciiLowercase = HeaderName.contentLength.name →
    crates.headerName raw = some .contentLength
  value_visible : ∀ raw, raw.all isVisible = true → crates.headerValue raw = some ⟨raw⟩
  to_str_text : ∀ raw value s, crates.headerValue raw = some value →
    crates.toStr value = some s → text s = raw
  to_str_visible : ∀ raw value, crates.headerValue raw = some value → raw.all isVisible = true →
    (crates.toStr value).isSome = true

def IsLength (header : RawHeader) : Prop :=
  header.name.map toAsciiLowercase = HeaderName.contentLength.name

instance (header : RawHeader) : Decidable (IsLength header) := inferInstanceAs (Decidable (_ = _))

def lengthValues (raws : List RawHeader) : List Bytes :=
  (raws.filter fun header => IsLength header).map fun header =>
    trimOptionalWhitespace header.value

def Parses (crates : HttpCrates) (header : RawHeader) : Prop :=
  ∃ name value, parsedHeader crates header = some (name, value) ∧
    (name = .transferEncoding → (crates.toStr value).isSome = true)

/-- The grammar: there is a length, and every value is a string of digits for it. -/
def LengthIs (raws : List RawHeader) (n : Nat) : Prop :=
  lengthValues raws ≠ [] ∧ n ≤ maxBodyBytes ∧ ∀ value ∈ lengthValues raws, number value = some n

def Declared (raws : List RawHeader) : Option Nat → Prop
  | none => lengthValues raws = []
  | some n => LengthIs raws n

def dropPlus (value : Bytes) : Bytes :=
  if value.head? = some plus then value.drop 1 else value

/-- The length of a head when a plus sign in front of a value does not count. -/
def LenientLength (raws : List RawHeader) (n : Nat) : Prop :=
  lengthValues raws ≠ [] ∧ n ≤ maxBodyBytes ∧
    ∀ value ∈ lengthValues raws, number (dropPlus value) = some n

def LenientlyDeclared (raws : List RawHeader) : Option Nat → Prop
  | none => lengthValues raws = []
  | some n => LenientLength raws n

def toByte (c : Char) : UInt8 := UInt8.ofNat c.toNat

theorem to_byte_value {c : Char} (ascii : c.toNat < 128) : (toByte c).toNat = c.toNat := by
  rw [toByte, UInt8.toNat_ofNat']
  omega

theorem digit_byte {c : Char} (ascii : c.toNat < 128) :
    digit c = if isDigit (toByte c) then some ((toByte c).toNat - 0x30) else none := by
  have value := to_byte_value ascii
  have same : isDigit (toByte c) = true ↔ '0'.toNat ≤ c.toNat ∧ c.toNat ≤ '9'.toNat := by
    simp [isDigit, UInt8.le_iff_toNat_le, value]
  unfold digit
  by_cases inside : '0'.toNat ≤ c.toNat ∧ c.toNat ≤ '9'.toNat
  · rw [if_pos inside, if_pos (same.mpr inside), value]
    rfl
  · rw [if_neg inside, if_neg (mt same.mp inside)]

theorem digits_bytes {cs : List Char} (ascii : ∀ c ∈ cs, c.toNat < 128) (start : Nat) :
    cs.foldlM (fun value c => (digit c).map fun d => value * 10 + d) start =
      if (cs.map toByte).all isDigit = true then
        some ((cs.map toByte).foldl (fun value digit => value * 10 + (digit.toNat - 0x30)) start)
      else none := by
  induction cs generalizing start with
  | nil => rfl
  | cons c cs ih =>
    have first := digit_byte (ascii c List.mem_cons_self)
    have later := fun start => ih (fun other member => ascii other (List.mem_cons_of_mem c member)) start
    rw [List.foldlM_cons, first]
    by_cases inside : isDigit (toByte c) = true
    · rw [if_pos inside, Option.map_some, Option.bind_eq_bind, Option.bind_some, later]
      simp [inside]
    · rw [if_neg inside]
      simp [inside]

theorem digits_number {cs : List Char} (ascii : ∀ c ∈ cs, c.toNat < 128) (some : cs ≠ []) :
    digits cs = number (cs.map toByte) := by
  have nonempty : cs.map toByte ≠ [] := by simpa using some
  rw [digits, digits_bytes ascii, number]
  simp [nonempty]

theorem parse_usize_other {cs : List Char} (other : cs.head? ≠ some '+') :
    parseUsize cs =
      if cs = [] then none else (digits cs).filter fun value => value < 2 ^ 64 := by
  simp only [parseUsize]
  split
  · simp at other
  · rfl

theorem parse_usize_bytes {cs : List Char} (ascii : ∀ c ∈ cs, c.toNat < 128) :
    parseUsize cs = (number (dropPlus (cs.map toByte))).filter fun value => value < 2 ^ 64 := by
  have body : ∀ rest : List Char, (∀ c ∈ rest, c.toNat < 128) →
      (if rest = [] then none else (digits rest).filter fun value => value < 2 ^ 64) =
        (number (rest.map toByte)).filter fun value => value < 2 ^ 64 := by
    intro rest ascii
    by_cases empty : rest = []
    · subst empty
      rfl
    · rw [if_neg empty, digits_number ascii empty]
  by_cases signed : cs.head? = some '+'
  · obtain ⟨rest, rfl⟩ := List.head?_eq_some_iff.mp signed
    exact body rest fun c member => ascii c (List.mem_cons_of_mem '+' member)
  · have same : dropPlus (cs.map toByte) = cs.map toByte := by
      apply if_neg
      intro first
      rw [List.head?_map, Option.map_eq_some_iff] at first
      obtain ⟨c, front, sign⟩ := first
      have value := to_byte_value (ascii c (List.mem_of_head? front))
      rw [sign] at value
      have shown : c = '+' := Char.toNat_inj.mp value.symm
      exact signed (by rw [front, shown])
    rw [parse_usize_other signed, same]
    exact body cs ascii

theorem digit_ascii {c : Char} {d : Nat} (h : digit c = some d) : c.toNat < 128 := by
  unfold digit at h
  split at h
  · rename_i range
    have high : c.toNat ≤ 0x39 := range.2
    omega
  · contradiction

theorem digits_ascii {cs : List Char} {n : Nat} (h : digits cs = some n) :
    ∀ c ∈ cs, c.toNat < 128 := by
  unfold digits at h
  generalize 0 = start at h
  induction cs generalizing start with
  | nil => simp
  | cons c cs ih =>
    rw [List.foldlM_cons, Option.bind_eq_bind, Option.bind_eq_some_iff] at h
    obtain ⟨next, first, later⟩ := h
    obtain ⟨d, known, _⟩ := Option.map_eq_some_iff.mp first
    intro other member
    rcases List.mem_cons.mp member with rfl | member
    · exact digit_ascii known
    · exact ih next later other member

theorem parse_usize_ascii {cs : List Char} {n : Nat} (h : parseUsize cs = some n) :
    ∀ c ∈ cs, c.toNat < 128 := by
  have body : ∀ rest : List Char,
      (if rest = [] then none else (digits rest).filter fun value => value < 2 ^ 64) = some n →
        ∀ c ∈ rest, c.toNat < 128 := by
    intro rest read
    split at read
    · contradiction
    · exact digits_ascii (Option.filter_eq_some_iff.mp read).1
  by_cases signed : cs.head? = some '+'
  · obtain ⟨rest, rfl⟩ := List.head?_eq_some_iff.mp signed
    intro c member
    rcases List.mem_cons.mp member with rfl | member
    · decide
    · exact body rest h c member
  · rw [parse_usize_other signed] at h
    exact body cs h

theorem text_bytes {cs : List Char} (ascii : ∀ c ∈ cs, c.toNat < 128) :
    text (String.ofList cs) = cs.map toByte := text_ascii ascii

def visibleChars (bytes : Bytes) : List Char := bytes.map fun byte => Char.ofNat byte.toNat

theorem visible_chars {bytes : Bytes} (visible : bytes.all isVisible = true) :
    (∀ c ∈ visibleChars bytes, c.toNat < 128) ∧ (visibleChars bytes).map toByte = bytes := by
  have small : ∀ byte ∈ bytes, byte.toNat < 128 ∧ (Char.ofNat byte.toNat).toNat = byte.toNat := by
    intro byte member
    have seen := List.all_eq_true.mp visible byte member
    have range : byte.toNat < 128 := by
      simp only [isVisible, Bool.or_eq_true, Bool.and_eq_true, decide_eq_true_eq, beq_iff_eq,
        UInt8.le_iff_toNat_le, UInt8.lt_iff_toNat_lt, ← UInt8.toNat_inj, UInt8.reduceToNat] at seen
      omega
    have valid : byte.toNat.isValidChar := Or.inl (by omega)
    exact ⟨range, by rw [Char.ofNat, dif_pos valid]; rfl⟩
  constructor
  · intro c member
    obtain ⟨byte, inside, rfl⟩ := List.mem_map.mp member
    obtain ⟨low, same⟩ := small byte inside
    rwa [same]
  · rw [visibleChars, List.map_map]
    conv_rhs => rw [← List.map_id bytes]
    apply List.map_congr_left
    intro byte member
    rw [Function.comp_apply, toByte, (small byte member).2, UInt8.ofNat_toNat]
    rfl

theorem drop_plus_visible {bytes : Bytes} {n : Nat} (read : number (dropPlus bytes) = some n) :
    bytes.all isVisible = true := by
  have digits : (dropPlus bytes).all isVisible = true := by
    unfold number at read
    split at read
    · rename_i condition
      rw [List.all_eq_true] at condition ⊢
      intro byte member
      have digit := condition.2 byte member
      simp only [isDigit, isVisible, Bool.or_eq_true, Bool.and_eq_true, decide_eq_true_eq,
        UInt8.le_iff_toNat_le, UInt8.lt_iff_toNat_lt, UInt8.reduceToNat] at digit ⊢
      left
      omega
    · contradiction
  unfold dropPlus at digits
  split at digits
  · rename_i signed
    obtain ⟨rest, rfl⟩ := List.head?_eq_some_iff.mp signed
    rw [List.all_cons, show isVisible plus = true by decide, Bool.true_and]
    exact digits
  · exact digits

variable {crates : HttpCrates}

/-- A value is taken for a length exactly when it is one behind an optional plus sign. -/
theorem length_value_iff (reads : ReadsHeaders crates) {bytes : Bytes} {n : Nat} :
    (∃ value, crates.headerValue bytes = some value ∧ parseContentLength crates value = .ok n) ↔
      number (dropPlus bytes) = some n ∧ n ≤ maxBodyBytes := by
  constructor
  · intro taken
    obtain ⟨value, valued, parsed⟩ := taken
    simp only [parseContentLength, bind_ok_iff, or_bad_request_ok_iff, require_ok_iff] at parsed
    obtain ⟨s, shown, m, read, _, fits, same⟩ := parsed
    cases same
    have ascii := parse_usize_ascii read
    have bytes' : s.toList.map toByte = bytes := by
      rw [← text_bytes ascii, String.ofList_toList]
      exact reads.to_str_text _ value s valued shown
    rw [parse_usize_bytes ascii, bytes'] at read
    exact ⟨(Option.filter_eq_some_iff.mp read).1, fits⟩
  · intro length
    obtain ⟨read, fits⟩ := length
    have visible := drop_plus_visible read
    have valued := reads.value_visible bytes visible
    obtain ⟨s, shown⟩ := Option.isSome_iff_exists.mp (reads.to_str_visible _ _ valued visible)
    obtain ⟨ascii, back⟩ := visible_chars visible
    have same : s = String.ofList (visibleChars bytes) := by
      apply text_injective
      rw [text_bytes ascii, back]
      exact reads.to_str_text _ _ s valued shown
    have bound : n < 2 ^ 64 := by
      have limit : maxBodyBytes < 2 ^ 64 := by decide
      omega
    have parsed : parseUsize s.toList = some n := by
      rw [same, String.toList_ofList, parse_usize_bytes ascii, back, read, Option.filter_some]
      simpa using bound
    refine ⟨⟨bytes⟩, valued, ?_⟩
    simp only [parseContentLength, bind_ok_iff, or_bad_request_ok_iff, require_ok_iff]
    exact ⟨s, shown, n, parsed, (), fits, rfl⟩

theorem map_lengths (keeps : KeepsHeaders crates) {raws : List RawHeader} {headers : HeaderMap}
    (named : raws.mapM (parsedHeader crates) = some headers) :
    valuesOf .contentLength headers = (lengthValues raws).map HeaderValue.mk := by
  rw [values_received keeps named, receivedValues, lengthValues, List.map_map]
  rfl

theorem length_valued (keeps : KeepsHeaders crates) {raws : List RawHeader} {headers : HeaderMap}
    (named : raws.mapM (parsedHeader crates) = some headers) {bytes : Bytes}
    (member : bytes ∈ lengthValues raws) : crates.headerValue bytes = some ⟨bytes⟩ := by
  obtain ⟨raw, found, rfl⟩ := List.mem_map.mp member
  obtain ⟨entry, _, parsed⟩ := (map_m_source named).1 raw (List.mem_filter.mp found).1
  simp only [parsedHeader, Option.bind_eq_some_iff, Option.map_eq_some_iff] at parsed
  obtain ⟨_, _, value, valued, _⟩ := parsed
  have bytes := keeps.value_bytes _ value valued
  rw [valued, ← bytes]

theorem declares_lenient (reads : ReadsHeaders crates) {raws : List RawHeader}
    {headers : HeaderMap} (named : raws.mapM (parsedHeader crates) = some headers)
    {length : Option Nat} :
    Declares crates (valuesOf .contentLength headers) length ↔ LenientlyDeclared raws length := by
  rw [map_lengths reads.toKeepsHeaders named]
  cases length with
  | none => simp [Declares, LenientlyDeclared]
  | some n =>
    have each : ∀ bytes ∈ lengthValues raws, (parseContentLength crates ⟨bytes⟩ = .ok n ↔
        number (dropPlus bytes) = some n ∧ n ≤ maxBodyBytes) := by
      intro bytes member
      have valued := length_valued reads.toKeepsHeaders named member
      rw [← length_value_iff reads, valued]
      simp
    simp only [Declares, LenientlyDeclared, LenientLength, ne_eq, List.map_eq_nil_iff,
      List.forall_mem_map]
    constructor
    · intro declares
      obtain ⟨some, parsed⟩ := declares
      obtain ⟨first, rest, shape⟩ := List.exists_cons_of_ne_nil some
      have member : first ∈ lengthValues raws := by simp [shape]
      exact ⟨some, ((each first member).mp (parsed first member)).2,
        fun bytes member => ((each bytes member).mp (parsed bytes member)).1⟩
    · intro lenient
      obtain ⟨some, fits, read⟩ := lenient
      exact ⟨some, fun bytes member => (each bytes member).mpr ⟨read bytes member, fits⟩⟩

theorem headers_parse (reads : ReadsHeaders crates) {raws : List RawHeader}
    (others : ∀ header ∈ raws, ¬ IsLength header → Parses crates header) {length : Option Nat}
    (lenient : LenientlyDeclared raws length) :
    ∃ headers, raws.mapM (parsedHeader crates) = some headers := by
  apply map_m_some
  intro header member
  by_cases isLength : IsLength header
  · have inside : trimOptionalWhitespace header.value ∈ lengthValues raws :=
      List.mem_map.mpr ⟨header, List.mem_filter.mpr ⟨member, by simpa using isLength⟩, rfl⟩
    cases length with
    | none =>
      rw [lenient] at inside
      contradiction
    | some n =>
      obtain ⟨value, valued, _⟩ :=
        (length_value_iff reads).mpr ⟨lenient.2.2 _ inside, lenient.2.1⟩
      have named := reads.content_length_named header.name isLength
      exact ⟨(.contentLength, value), by simp [parsedHeader, named, valued]⟩
  · obtain ⟨name, value, parsed, _⟩ := others header member isLength
    exact ⟨_, parsed⟩

theorem codings_text (reads : ReadsHeaders crates) {raws : List RawHeader}
    (others : ∀ header ∈ raws, ¬ IsLength header → Parses crates header) {headers : HeaderMap}
    (named : raws.mapM (parsedHeader crates) = some headers) :
    ∀ value ∈ valuesOf .transferEncoding headers, (crates.toStr value).isSome = true := by
  intro value member
  obtain ⟨⟨name, _⟩, found, rfl⟩ := List.mem_map.mp member
  obtain ⟨inside, isCoding⟩ := List.mem_filter.mp found
  have coding : name = .transferEncoding := by simpa using isCoding
  obtain ⟨header, source, parsed⟩ := (map_m_source named).2 _ inside
  have lower := (parsed_header_received reads.toKeepsHeaders parsed).1
  have other : ¬ IsLength header := by
    intro isLength
    rw [IsLength, ← lower, coding] at isLength
    exact absurd isLength
      (show ¬ HeaderName.transferEncoding.name = HeaderName.contentLength.name by decide)
  obtain ⟨name', value', parsed', isText⟩ := others header source other
  rw [parsed, Option.some.injEq, Prod.mk.injEq] at parsed'
  obtain ⟨rfl, rfl⟩ := parsed'
  exact isText coding

theorem declares_unique {values : List HeaderValue} {a b : Option Nat}
    (one : Declares crates values a) (other : Declares crates values b) : a = b := by
  cases a with
  | none =>
    cases b with
    | none => rfl
    | some n => exact absurd one other.1
  | some m =>
    obtain ⟨first, rest, shape⟩ := List.exists_cons_of_ne_nil one.1
    have parsed := one.2 first (by simp [shape])
    cases b with
    | none => exact absurd other one.1
    | some n =>
      have parsed' := other.2 first (by simp [shape])
      rw [parsed, Except.ok.injEq] at parsed'
      rw [parsed']

theorem loop_length_iff (reads : ReadsHeaders crates) {raws : List RawHeader}
    (others : ∀ header ∈ raws, ¬ IsLength header → Parses crates header) (length : Option Nat) :
    (∃ fields, raws.foldlM (headerStep crates) HeaderFields.empty = .ok fields ∧
      fields.contentLength = length) ↔ LenientlyDeclared raws length := by
  constructor
  · intro found
    obtain ⟨fields, loop, rfl⟩ := found
    have collected := header_loop_collected loop
    exact (declares_lenient reads collected.accepted.named).mp collected.length
  · intro lenient
    obtain ⟨headers, named⟩ := headers_parse reads others lenient
    have declares := (declares_lenient reads named).mpr lenient
    obtain ⟨fields, loop⟩ := header_loop_accepts
      ⟨named, ⟨length, declares⟩, codings_text reads others named⟩
    have collected := header_loop_collected loop
    have same : fields.headers = headers :=
      Option.some.inj (collected.accepted.named.symm.trans named)
    exact ⟨fields, loop, declares_unique (same ▸ collected.length) declares⟩

theorem head_length_iff (reads : ReadsHeaders crates) {head : Bytes} {raw : RawRequest}
    {line : Method × Bytes} (received : completeRequest crates head = .ok raw)
    (valid : requestLine crates raw = .ok line)
    (others : ∀ header ∈ raw.headers, ¬ IsLength header → Parses crates header)
    (length : Option Nat) :
    (∃ parsed, parseHttpHead crates head = .ok parsed ∧ parsed.contentLength = length) ↔
      LenientlyDeclared raw.headers length := by
  rw [← loop_length_iff reads others]
  unfold parseHttpHead
  rw [received, ok_bind, valid, ok_bind]
  simp only [bind_ok_iff]
  constructor
  · intro found
    obtain ⟨parsed, ⟨fields, loop, built⟩, same⟩ := found
    cases built
    exact ⟨fields, loop, same⟩
  · intro found
    obtain ⟨fields, loop, same⟩ := found
    exact ⟨_, ⟨fields, loop, rfl⟩, same⟩

/-- The parser finds the length that the grammar declares for a head, or that there
    is none, and fails where the grammar declares nothing. -/
def MeetsGrammar (crates : HttpCrates) (head : Bytes) (raws : List RawHeader) : Prop :=
  (∀ length, (∃ parsed, parseHttpHead crates head = .ok parsed ∧ parsed.contentLength = length) ↔
    Declared raws length) ∧
  ((∃ e, parseHttpHead crates head = .error e) ↔ ∀ length, ¬ Declared raws length)

def SignsHarmless (raws : List RawHeader) : Prop :=
  (∀ value ∈ lengthValues raws, value.head? ≠ some plus) ∨ ∀ n, ¬ LenientLength raws n

theorem plus_no_number {value : Bytes} (signed : value.head? = some plus) :
    number value = none := by
  obtain ⟨rest, rfl⟩ := List.head?_eq_some_iff.mp signed
  apply if_neg
  intro digits
  rw [List.all_cons, show isDigit plus = false by decide] at digits
  simp at digits

theorem length_lenient {raws : List RawHeader} {n : Nat} (length : LengthIs raws n) :
    LenientLength raws n ∧ ∀ value ∈ lengthValues raws, value.head? ≠ some plus := by
  obtain ⟨some, fits, read⟩ := length
  have unsigned : ∀ value ∈ lengthValues raws, value.head? ≠ Option.some plus := by
    intro value member signed
    have digits := read value member
    rw [plus_no_number signed] at digits
    contradiction
  refine ⟨⟨some, fits, ?_⟩, unsigned⟩
  intro value member
  rw [dropPlus, if_neg (unsigned value member)]
  exact read value member

theorem lenient_length {raws : List RawHeader} {n : Nat} (lenient : LenientLength raws n)
    (unsigned : ∀ value ∈ lengthValues raws, value.head? ≠ some plus) : LengthIs raws n := by
  obtain ⟨some, fits, read⟩ := lenient
  refine ⟨some, fits, ?_⟩
  intro value member
  have digits := read value member
  rwa [dropPlus, if_neg (unsigned value member)] at digits

theorem declared_iff {raws : List RawHeader} :
    (∀ length, LenientlyDeclared raws length ↔ Declared raws length) ↔ SignsHarmless raws := by
  constructor
  · intro same
    by_cases lenient : ∃ n, LenientLength raws n
    · obtain ⟨n, lenient⟩ := lenient
      have declared : LengthIs raws n := (same (some n)).mp lenient
      exact Or.inl (length_lenient declared).2
    · exact Or.inr fun n found => lenient ⟨n, found⟩
  · intro harmless length
    cases length with
    | none => exact Iff.rfl
    | some n =>
      constructor
      · intro lenient
        rcases harmless with unsigned | never
        · exact lenient_length lenient unsigned
        · exact absurd lenient (never n)
      · intro declared
        exact (length_lenient declared).1

/-- The parser's lengths are those of the grammar exactly when no plus sign stands
    in front of a value of a head that it accepts. -/
theorem content_length_iff (reads : ReadsHeaders crates) {head : Bytes} {raw : RawRequest}
    {line : Method × Bytes} (received : completeRequest crates head = .ok raw)
    (valid : requestLine crates raw = .ok line)
    (others : ∀ header ∈ raw.headers, ¬ IsLength header → Parses crates header) :
    MeetsGrammar crates head raw.headers ↔ SignsHarmless raw.headers := by
  have lengths := head_length_iff reads received valid others
  rw [← declared_iff]
  constructor
  · intro meets length
    rw [← lengths length, meets.1 length]
  · intro same
    have agree : ∀ length, (∃ parsed, parseHttpHead crates head = .ok parsed ∧
        parsed.contentLength = length) ↔ Declared raw.headers length := by
      intro length
      rw [lengths length, same length]
    refine ⟨agree, ?_⟩
    cases parses : parseHttpHead crates head with
    | error e =>
      simp only [Except.error.injEq, exists_eq', true_iff]
      intro length declared
      obtain ⟨parsed, found, _⟩ := (agree length).mpr declared
      rw [parses] at found
      contradiction
    | ok parsed =>
      simp only [reduceCtorEq, exists_false, false_iff, not_forall, not_not]
      exact ⟨parsed.contentLength, (agree _).mp ⟨parsed, parses, rfl⟩⟩

theorem example_reads : ReadsHeaders exampleCrates where
  toKeepsHeaders := example_keeps
  content_length_named := by
    intro raw isLength
    rw [show exampleCrates.headerName raw = some ⟨raw.map toAsciiLowercase⟩ from rfl, isLength]
  value_visible := fun _ visible => if_pos visible
  to_str_text := by
    intro raw value s valued shown
    simp only [exampleCrates] at valued shown
    split at valued
    · rename_i visible
      cases valued
      cases shown
      obtain ⟨ascii, back⟩ := visible_chars visible
      exact (text_bytes ascii).trans back
    · contradiction
  to_str_visible := fun _ _ _ _ => rfl

def plainHead : Bytes :=
  text "POST /v1/chat HTTP/1.1\r\nContent-Length: 7\r\nX-A: b\r\ncontent-length:\t07\r\n\r\n"

def signedHead : Bytes := text "POST /v1/chat HTTP/1.1\r\nContent-Length: +5\r\n\r\n"

theorem content_length_example :
    ∃ raw, completeRequest exampleCrates plainHead = .ok raw ∧
      MeetsGrammar exampleCrates plainHead raw.headers := by
  have received : ∃ raw, completeRequest exampleCrates plainHead = .ok raw ∧
      raw.headers = [⟨text "Content-Length", text " 7"⟩, ⟨text "X-A", text " b"⟩,
        ⟨text "content-length", text "\t07"⟩] ∧
      ∃ line, requestLine exampleCrates raw = .ok line := by
    refine ⟨_, rfl, ?_, _, rfl⟩
    decide
  obtain ⟨raw, received, headers, line, valid⟩ := received
  refine ⟨raw, received, (content_length_iff example_reads received valid ?_).mpr (Or.inl ?_)⟩
  · rw [headers]
    intro header member other
    simp only [List.mem_cons, List.not_mem_nil, or_false] at member
    rcases member with rfl | rfl | rfl
    · exact absurd (show IsLength _ by decide) other
    · exact ⟨⟨text "x-a"⟩, ⟨text "b"⟩, by decide, by decide⟩
    · exact absurd (show IsLength _ by decide) other
  · rw [headers]
    decide

/-- A length with a plus sign in front is taken, and is none in the grammar. -/
theorem signed_length_taken :
    ∃ raw parsed, completeRequest exampleCrates signedHead = .ok raw ∧
      parseHttpHead exampleCrates signedHead = .ok parsed ∧ parsed.contentLength = some 5 ∧
      ¬ MeetsGrammar exampleCrates signedHead raw.headers := by
  have taken : ∃ raw parsed, completeRequest exampleCrates signedHead = .ok raw ∧
      parseHttpHead exampleCrates signedHead = .ok parsed ∧ parsed.contentLength = some 5 ∧
      lengthValues raw.headers = [text "+5"] := by
    refine ⟨_, _, rfl, rfl, ?_, ?_⟩ <;> decide
  obtain ⟨raw, parsed, received, parses, five, values⟩ := taken
  refine ⟨raw, parsed, received, parses, five, ?_⟩
  intro meets
  have declared : LengthIs raw.headers 5 := (meets.1 (some 5)).mp ⟨parsed, parses, five⟩
  have read := declared.2.2 (text "+5") (by simp [values])
  exact absurd read (by decide)

end ContentLength
