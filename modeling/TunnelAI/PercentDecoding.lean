import TunnelAI.IdentityCodec
import TunnelAI.ProviderUrl

/-!
What the percent-decoder accepts and computes: the loop with every read of its
slice checked and its rounds counted, the segments that it accepts, and the two
kinds of segment that it decodes to dots.
-/
namespace PercentDecoding
open StreamReader Fallible UrlReference ProviderUrl
open IdentityCodec (Nibble highNibble lowNibble nibbles_join)

inductive Fault where
  | invalid : String → Fault
  | outOfBounds
  | outOfRounds
  deriving DecidableEq

def orInvalid {α : Type} : Except String α → Except Fault α
  | .ok a => .ok a
  | .error message => .error (.invalid message)

def byteAt (bytes : Bytes) (index : Nat) : Except Fault UInt8 :=
  match bytes[index]? with
  | some byte => .ok byte
  | none => .error .outOfBounds

/-- The loop of `percent_decode_path_segment` with so many rounds to go. -/
def checkedLoop (bytes : Bytes) : Nat → Nat → Bytes → Except Fault Bytes
  | 0, _, _ => .error .outOfRounds
  | rounds + 1, index, decoded =>
    if index < bytes.length then do
      let byte ← byteAt bytes index
      if byte = percent then
        if bytes.length ≤ index + 2 then .error (.invalid invalidPercentEncoding)
        else do
          let first ← byteAt bytes (index + 1)
          let high ← orInvalid (hexValue first)
          let second ← byteAt bytes (index + 2)
          let low ← orInvalid (hexValue second)
          checkedLoop bytes rounds (index + 3) (decoded ++ [(high <<< 4) ||| low])
      else checkedLoop bytes rounds (index + 1) (decoded ++ [byte])
    else .ok decoded

def HexByte (byte : UInt8) : Prop := ∃ value, hexValue byte = .ok value

/-- Every percent sign has two hexadecimal digits behind it. -/
def EscapesComplete (segment : Bytes) : Prop :=
  ∀ before after, segment = before ++ percent :: after →
    ∃ high low rest, after = high :: low :: rest ∧ HexByte high ∧ HexByte low

def hexDigit (upper : Bool) (nibble : Nibble) : UInt8 :=
  UInt8.ofNat (if nibble.val < 10 then 0x30 + nibble.val
    else if upper then 0x37 + nibble.val else 0x57 + nibble.val)

inductive Spelling where
  | literal
  | escaped (upperHigh upperLow : Bool)

/-- A byte and how it is written; a percent sign is never written as itself. -/
structure Spelled where
  byte : UInt8
  spelling : Spelling
  percentEscaped : byte = percent → spelling ≠ .literal

def Spelled.bytes (spelled : Spelled) : Bytes :=
  match spelled.spelling with
  | .literal => [spelled.byte]
  | .escaped upperHigh upperLow =>
    [percent, hexDigit upperHigh (highNibble spelled.byte),
      hexDigit upperLow (lowNibble spelled.byte)]

def escape (spelled : List Spelled) : Bytes := spelled.flatMap Spelled.bytes

theorem byte_at_inside {bytes : Bytes} {index : Nat} (inside : index < bytes.length) :
    byteAt bytes index = .ok bytes[index] := by
  rw [byteAt, List.getElem?_eq_getElem inside]

theorem checked_loop (bytes : Bytes) (rounds index : Nat) (decoded : Bytes)
    (enough : bytes.length - index < rounds) :
    checkedLoop bytes rounds index decoded = orInvalid (percentDecodeLoop bytes index decoded) := by
  induction rounds generalizing index decoded with
  | zero => omega
  | succ rounds ih =>
    unfold checkedLoop percentDecodeLoop
    by_cases inside : index < bytes.length
    · rw [if_pos inside, dif_pos inside, byte_at_inside inside, ok_bind]
      by_cases escape : bytes[index] = percent
      · rw [if_pos escape, if_pos escape]
        by_cases room : index + 2 < bytes.length
        · rw [if_neg (Nat.not_le_of_lt room), dif_pos room,
            byte_at_inside (show index + 1 < bytes.length by omega), ok_bind]
          cases hexValue bytes[index + 1] with
          | error message => rfl
          | ok high =>
            rw [orInvalid, ok_bind, ok_bind, byte_at_inside room, ok_bind]
            cases hexValue bytes[index + 2] with
            | error message => rfl
            | ok low =>
              rw [orInvalid, ok_bind, ok_bind]
              exact ih (index + 3) _ (by omega)
        · rw [if_pos (Nat.le_of_not_lt room), dif_neg room]
          rfl
      · rw [if_neg escape, if_neg escape]
        exact ih (index + 1) _ (by omega)
    · rw [if_neg inside, dif_neg inside]
      rfl

theorem percent_not_hex : ¬ HexByte percent := by
  intro hex
  obtain ⟨value, h⟩ := hex
  simp [hexValue, percent] at h

theorem percent_decode_begins {first : UInt8} {rest decoded : Bytes}
    (decodes : percentDecode (first :: rest) = .ok decoded) :
    ∃ byte tail, decoded = byte :: tail ∧
      ((byte ≠ percent ∧ first = byte ∧ percentDecode rest = .ok tail) ∨
        ∃ high low h l more, first :: rest = percent :: high :: low :: more ∧
          hexValue high = .ok h ∧ hexValue low = .ok l ∧ (h <<< 4) ||| l = byte ∧
          percentDecode more = .ok tail) := by
  by_cases escape : first = percent
  · subst escape
    match rest, decodes with
    | [], decodes => cases decodes
    | [_], decodes => cases decodes
    | high :: low :: more, decodes =>
      rw [percent_decode_escape] at decodes
      obtain ⟨h, one, decodes⟩ := bind_ok decodes
      obtain ⟨l, two, decodes⟩ := bind_ok decodes
      obtain ⟨tail, remaining, decodes⟩ := bind_ok decodes
      cases decodes
      exact ⟨_, tail, rfl, Or.inr ⟨high, low, h, l, more, rfl, one, two, rfl, remaining⟩⟩
  · rw [percent_decode_plain escape] at decodes
    obtain ⟨tail, remaining, decodes⟩ := bind_ok decodes
    cases decodes
    exact ⟨first, tail, rfl, Or.inl ⟨escape, rfl, remaining⟩⟩

theorem percent_decode_cons_iff {segment decoded : Bytes} {byte : UInt8} :
    percentDecode segment = .ok (byte :: decoded) ↔
      (∃ rest, byte ≠ percent ∧ segment = byte :: rest ∧ percentDecode rest = .ok decoded) ∨
      ∃ high low h l rest, segment = percent :: high :: low :: rest ∧ hexValue high = .ok h ∧
        hexValue low = .ok l ∧ (h <<< 4) ||| l = byte ∧ percentDecode rest = .ok decoded := by
  constructor
  · intro decodes
    cases segment with
    | nil => cases decodes
    | cons first rest =>
      obtain ⟨_, _, same, begins⟩ := percent_decode_begins decodes
      cases same
      rcases begins with ⟨plain, rfl, remaining⟩ | escaped
      · exact Or.inl ⟨rest, plain, rfl, remaining⟩
      · exact Or.inr escaped
  · intro shape
    rcases shape with ⟨rest, plain, rfl, remaining⟩ |
      ⟨high, low, h, l, rest, rfl, first, second, rfl, remaining⟩
    · rw [percent_decode_plain plain, remaining]
      rfl
    · rw [percent_decode_escape, first, second, remaining]
      rfl

theorem percent_decode_nil_iff {segment : Bytes} :
    percentDecode segment = .ok [] ↔ segment = [] := by
  constructor
  · intro decodes
    cases segment with
    | nil => rfl
    | cons first rest =>
      obtain ⟨_, _, impossible, _⟩ := percent_decode_begins decodes
      cases impossible
  · intro empty
    subst empty
    rfl

theorem complete_plain {byte : UInt8} (plain : byte ≠ percent) {rest : Bytes} :
    EscapesComplete (byte :: rest) ↔ EscapesComplete rest := by
  constructor
  · intro complete before after split
    exact complete (byte :: before) after (by rw [split, List.cons_append])
  · intro complete before after split
    cases before with
    | nil =>
      rw [List.nil_append, List.cons.injEq] at split
      exact absurd split.1 plain
    | cons first before =>
      rw [List.cons_append, List.cons.injEq] at split
      exact complete before after split.2

theorem hex_byte_plain {byte : UInt8} (hex : HexByte byte) : byte ≠ percent := by
  intro same
  subst same
  exact percent_not_hex hex

theorem complete_escape {rest : Bytes} :
    EscapesComplete (percent :: rest) ↔
      ∃ high low more, rest = high :: low :: more ∧ HexByte high ∧ HexByte low ∧
        EscapesComplete more := by
  constructor
  · intro complete
    obtain ⟨high, low, more, rfl, first, second⟩ := complete [] rest rfl
    refine ⟨high, low, more, rfl, first, second, ?_⟩
    intro before after split
    exact complete (percent :: high :: low :: before) after (by simp [split])
  · intro escaped before after split
    obtain ⟨high, low, more, rfl, first, second, complete⟩ := escaped
    have digits : EscapesComplete (high :: low :: more) :=
      (complete_plain (hex_byte_plain first)).mpr
        ((complete_plain (hex_byte_plain second)).mpr complete)
    cases before with
    | nil =>
      rw [List.nil_append, List.cons.injEq] at split
      exact ⟨high, low, more, split.2.symm, first, second⟩
    | cons byte before =>
      rw [List.cons_append, List.cons.injEq] at split
      exact digits before after split.2

theorem percent_decode_ok_iff (segment : Bytes) :
    (∃ decoded, percentDecode segment = .ok decoded) ↔ EscapesComplete segment := by
  induction size : segment.length using Nat.strongRecOn generalizing segment with
  | ind n ih =>
    cases segment with
    | nil =>
      constructor
      · intro _ before after split
        simp at split
      · intro _
        exact ⟨[], rfl⟩
    | cons byte rest =>
      rw [List.length_cons] at size
      by_cases escape : byte = percent
      · subst escape
        rw [complete_escape]
        constructor
        · intro accepted
          obtain ⟨decoded, decodes⟩ := accepted
          cases decoded with
          | nil => exact absurd (percent_decode_nil_iff.mp decodes) (by simp)
          | cons value decoded =>
            rcases percent_decode_cons_iff.mp decodes with ⟨_, plain, shape, _⟩ |
              ⟨high, low, h, l, more, shape, first, second, _, remaining⟩
            · exact absurd (List.cons.inj shape).1.symm plain
            · obtain ⟨_, rfl⟩ := List.cons.inj shape
              simp only [List.length_cons] at size
              exact ⟨high, low, more, rfl, ⟨h, first⟩, ⟨l, second⟩,
                (ih more.length (by omega) more rfl).mp ⟨decoded, remaining⟩⟩
        · intro escaped
          obtain ⟨high, low, more, rfl, ⟨h, first⟩, ⟨l, second⟩, complete⟩ := escaped
          simp only [List.length_cons] at size
          obtain ⟨decoded, remaining⟩ := (ih more.length (by omega) more rfl).mpr complete
          exact ⟨_, percent_decode_cons_iff.mpr
            (Or.inr ⟨high, low, h, l, more, rfl, first, second, rfl, remaining⟩)⟩
      · rw [complete_plain escape, ← ih rest.length (by omega) rest rfl]
        constructor
        · intro accepted
          obtain ⟨decoded, decodes⟩ := accepted
          rw [percent_decode_plain escape] at decodes
          obtain ⟨tail, remaining, _⟩ := bind_ok decodes
          exact ⟨tail, remaining⟩
        · intro accepted
          obtain ⟨decoded, remaining⟩ := accepted
          exact ⟨byte :: decoded, percent_decode_cons_iff.mpr
            (Or.inl ⟨rest, escape, rfl, remaining⟩)⟩

theorem hex_value_digit : ∀ (upper : Bool) (nibble : Nibble),
    hexValue (hexDigit upper nibble) = .ok (UInt8.ofNat nibble.val) := by decide

theorem percent_decode_spelled (spelled : Spelled) (rest : Bytes) :
    percentDecode (spelled.bytes ++ rest) =
      (percentDecode rest >>= fun decoded => pure (spelled.byte :: decoded)) := by
  obtain ⟨byte, spelling, percentEscaped⟩ := spelled
  cases spelling with
  | literal =>
    have plain : byte ≠ percent := fun same => percentEscaped same rfl
    exact percent_decode_plain plain rest
  | escaped upperHigh upperLow =>
    change percentDecode (percent :: hexDigit upperHigh (highNibble byte) ::
      hexDigit upperLow (lowNibble byte) :: rest) = _
    rw [percent_decode_escape, hex_value_digit, hex_value_digit, ok_bind, ok_bind, nibbles_join]

theorem percent_decode_escaped (spelled : List Spelled) :
    percentDecode (escape spelled) = .ok (spelled.map Spelled.byte) := by
  induction spelled with
  | nil => rfl
  | cons first spelled ih =>
    rw [escape, List.flatMap_cons, ← escape, percent_decode_spelled, ih]
    rfl

def dot : UInt8 := 0x2e

def DotForm (s : Bytes) : Prop := s = [dot] ∨ s = [percent, 0x32, 0x65] ∨ s = [percent, 0x32, 0x45]

theorem hex_value_cases {byte value : UInt8} (h : hexValue byte = .ok value) :
    (0x30 ≤ byte.toNat ∧ byte.toNat ≤ 0x39 ∧ value.toNat = byte.toNat - 0x30) ∨
      (0x61 ≤ byte.toNat ∧ byte.toNat ≤ 0x66 ∧ value.toNat = byte.toNat - 0x57) ∨
      (0x41 ≤ byte.toNat ∧ byte.toNat ≤ 0x46 ∧ value.toNat = byte.toNat - 0x37) := by
  unfold hexValue at h
  simp only [UInt8.le_iff_toNat_le, UInt8.reduceToNat] at h
  split at h
  · cases h
    simp only [UInt8.toNat_sub, UInt8.reduceToNat]
    omega
  · split at h
    · cases h
      simp only [UInt8.toNat_add, UInt8.toNat_sub, UInt8.reduceToNat]
      omega
    · split at h
      · cases h
        simp only [UInt8.toNat_add, UInt8.toNat_sub, UInt8.reduceToNat]
        omega
      · contradiction

theorem hex_value_lt {byte value : UInt8} (h : hexValue byte = .ok value) : value.toNat < 16 := by
  have range := hex_value_cases h
  omega

theorem nibbles_value {h l : UInt8} (high : h.toNat < 16) (low : l.toNat < 16) :
    ((h <<< 4) ||| l).toNat = h.toNat * 16 + l.toNat := by
  have fits : h.toNat <<< 4 < 2 ^ 8 := by
    rw [Nat.shiftLeft_eq]
    omega
  rw [UInt8.toNat_or, UInt8.toNat_shiftLeft, show (4 : UInt8).toNat % 8 = 4 from rfl,
    Nat.mod_eq_of_lt fits, ← Nat.shiftLeft_add_eq_or_of_lt (by omega), Nat.shiftLeft_eq]

theorem dot_escape_iff {high low h l : UInt8} (first : hexValue high = .ok h)
    (second : hexValue low = .ok l) :
    (h <<< 4) ||| l = dot ↔ high = 0x32 ∧ (low = 0x65 ∨ low = 0x45) := by
  have value := nibbles_value (hex_value_lt first) (hex_value_lt second)
  have highRange := hex_value_cases first
  have lowRange := hex_value_cases second
  simp only [← UInt8.toNat_inj, value, dot, UInt8.reduceToNat]
  omega

theorem dot_form_iff {s : Bytes} : DotForm s ↔ percentDecode s = .ok [dot] := by
  rw [percent_decode_cons_iff]
  constructor
  · intro form
    rcases form with rfl | rfl | rfl
    · exact Or.inl ⟨[], by decide, rfl, rfl⟩
    · exact Or.inr ⟨0x32, 0x65, 2, 14, [], rfl, rfl, rfl, rfl, rfl⟩
    · exact Or.inr ⟨0x32, 0x45, 2, 14, [], rfl, rfl, rfl, rfl, rfl⟩
  · intro decodes
    rcases decodes with ⟨rest, _, rfl, remaining⟩ |
      ⟨high, low, h, l, rest, rfl, first, second, joined, remaining⟩
    · rw [percent_decode_nil_iff.mp remaining]
      exact Or.inl rfl
    · rw [percent_decode_nil_iff.mp remaining]
      obtain ⟨rfl, rfl | rfl⟩ := (dot_escape_iff first second).mp joined
      · exact Or.inr (Or.inl rfl)
      · exact Or.inr (Or.inr rfl)

theorem percent_decode_dot_iff {s decoded : Bytes} :
    percentDecode s = .ok (dot :: decoded) ↔
      ∃ first rest, s = first ++ rest ∧ DotForm first ∧ percentDecode rest = .ok decoded := by
  constructor
  · intro decodes
    rcases percent_decode_cons_iff.mp decodes with ⟨rest, _, rfl, remaining⟩ |
      ⟨high, low, h, l, rest, rfl, first, second, joined, remaining⟩
    · exact ⟨[dot], rest, rfl, Or.inl rfl, remaining⟩
    · refine ⟨[percent, high, low], rest, rfl, ?_, remaining⟩
      obtain ⟨rfl, rfl | rfl⟩ := (dot_escape_iff first second).mp joined
      · exact Or.inr (Or.inl rfl)
      · exact Or.inr (Or.inr rfl)
  · intro split
    obtain ⟨first, rest, rfl, form, remaining⟩ := split
    rw [percent_decode_cons_iff]
    rcases form with rfl | rfl | rfl
    · exact Or.inl ⟨rest, by decide, rfl, remaining⟩
    · exact Or.inr ⟨0x32, 0x65, 2, 14, rest, rfl, rfl, rfl, rfl, remaining⟩
    · exact Or.inr ⟨0x32, 0x45, 2, 14, rest, rfl, rfl, rfl, rfl, remaining⟩

theorem lower_value (byte : UInt8) :
    (lower byte).toNat = if 0x41 ≤ byte.toNat ∧ byte.toNat ≤ 0x5a then byte.toNat + 0x20
      else byte.toNat := by
  unfold lower
  simp only [UInt8.le_iff_toNat_le, UInt8.reduceToNat]
  split
  · rw [UInt8.toNat_add, show (0x20 : UInt8).toNat = 0x20 from rfl]
    omega
  · rfl

theorem lower_sign_iff {byte sign : UInt8} (low : sign.toNat < 0x41) :
    lower byte = sign ↔ byte = sign := by
  have value := lower_value byte
  rw [← UInt8.toNat_inj, ← UInt8.toNat_inj, value]
  split <;> omega

theorem lower_e_iff {byte : UInt8} : lower byte = 0x65 ↔ byte = 0x65 ∨ byte = 0x45 := by
  have value := lower_value byte
  simp only [← UInt8.toNat_inj, value, UInt8.reduceToNat]
  split <;> omega

theorem dot_form_lower {s : Bytes} :
    DotForm s ↔ s.map lower = text "." ∨ s.map lower = text "%2e" := by
  have plain : text "." = [dot] := by decide
  have escaped : text "%2e" = [percent, 0x32, 0x65] := by decide
  have isDot : ∀ byte, lower byte = dot ↔ byte = dot := fun _ => lower_sign_iff (by decide)
  have isPercent : ∀ byte, lower byte = percent ↔ byte = percent :=
    fun _ => lower_sign_iff (by decide)
  have isTwo : ∀ byte, lower byte = 0x32 ↔ byte = 0x32 := fun _ => lower_sign_iff (by decide)
  rw [plain, escaped]
  simp only [DotForm, List.map_eq_cons_iff, List.map_eq_nil_iff, isDot, isPercent, isTwo,
    lower_e_iff]
  constructor
  · intro form
    rcases form with rfl | rfl | rfl
    · exact Or.inl ⟨dot, [], rfl, rfl, rfl⟩
    · exact Or.inr ⟨percent, _, rfl, rfl, 0x32, _, rfl, rfl, 0x65, [], rfl, Or.inl rfl, rfl⟩
    · exact Or.inr ⟨percent, _, rfl, rfl, 0x32, _, rfl, rfl, 0x45, [], rfl, Or.inr rfl, rfl⟩
  · intro spelled
    rcases spelled with ⟨_, _, rfl, rfl, rfl⟩ |
      ⟨_, _, rfl, rfl, _, _, rfl, rfl, _, _, rfl, rfl | rfl, rfl⟩
    · exact Or.inl rfl
    · exact Or.inr (Or.inl rfl)
    · exact Or.inr (Or.inr rfl)

theorem is_dot_iff {segment : Bytes} : isDot segment = true ↔ DotForm segment := by
  rw [dot_form_lower]
  simp [isDot]

theorem is_dot_dot_iff {segment : Bytes} :
    isDotDot segment = true ↔
      ∃ first second, segment = first ++ second ∧ DotForm first ∧ DotForm second := by
  have joined : isDotDot segment = true ↔
      ∃ a b, segment.map lower = a ++ b ∧ (a = text "." ∨ a = text "%2e") ∧
        (b = text "." ∨ b = text "%2e") := by
    have pairs : text ".." = text "." ++ text "." ∧ text ".%2e" = text "." ++ text "%2e" ∧
        text "%2e." = text "%2e" ++ text "." ∧ text "%2e%2e" = text "%2e" ++ text "%2e" := by
      decide
    obtain ⟨one, two, three, four⟩ := pairs
    simp only [isDotDot, List.contains_cons, List.contains_nil, Bool.or_false, Bool.or_eq_true,
      beq_iff_eq, one, two, three, four]
    constructor
    · intro spelled
      rcases spelled with same | same | same | same
      · exact ⟨_, _, same, Or.inl rfl, Or.inl rfl⟩
      · exact ⟨_, _, same, Or.inl rfl, Or.inr rfl⟩
      · exact ⟨_, _, same, Or.inr rfl, Or.inl rfl⟩
      · exact ⟨_, _, same, Or.inr rfl, Or.inr rfl⟩
    · intro split
      obtain ⟨_, _, same, rfl | rfl, rfl | rfl⟩ := split
      · exact Or.inl same
      · exact Or.inr (Or.inl same)
      · exact Or.inr (Or.inr (Or.inl same))
      · exact Or.inr (Or.inr (Or.inr same))
  rw [joined]
  constructor
  · intro split
    obtain ⟨a, b, same, left, right⟩ := split
    obtain ⟨first, second, rfl, rfl, rfl⟩ := List.map_eq_append_iff.mp same
    exact ⟨first, second, rfl, dot_form_lower.mpr left, dot_form_lower.mpr right⟩
  · intro split
    obtain ⟨first, second, rfl, left, right⟩ := split
    exact ⟨_, _, List.map_append, dot_form_lower.mp left, dot_form_lower.mp right⟩

theorem decodes_to_dot_iff (segment : Bytes) :
    percentDecode segment = .ok (text ".") ↔ isDot segment = true := by
  have one : text "." = [dot] := by decide
  rw [one, ← dot_form_iff, is_dot_iff]

theorem decodes_to_dot_dot_iff (segment : Bytes) :
    percentDecode segment = .ok (text "..") ↔ isDotDot segment = true := by
  have two : text ".." = [dot, dot] := by decide
  rw [two, percent_decode_dot_iff, is_dot_dot_iff]
  simp only [dot_form_iff]

/-- What passes the check on a segment is no dot segment for the resolver. -/
theorem safe_segment_solid {segment : Bytes} (safe : SafeSegment segment) :
    isDot segment = false ∧ isDotDot segment = false := by
  unfold SafeSegment at safe
  constructor
  · apply Bool.eq_false_iff.mpr
    intro dot
    rw [(decodes_to_dot_iff segment).mpr dot] at safe
    exact safe.1.1 rfl
  · apply Bool.eq_false_iff.mpr
    intro dots
    rw [(decodes_to_dot_dot_iff segment).mpr dots] at safe
    exact safe.1.2 rfl

/-- The decoder comes to its end without a read outside its slice, accepts the
    segments whose escapes are complete, undoes every way of writing a byte
    string, and decodes to dots just what the URL standard takes for them. -/
theorem percent_decoding_exact :
    (∀ segment : Bytes, checkedLoop segment (segment.length + 1) 0 [] =
      orInvalid (percentDecodePathSegment segment)) ∧
    (∀ segment, (∃ decoded, percentDecodePathSegment segment = .ok decoded) ↔
      EscapesComplete segment) ∧
    (∀ spelled : List Spelled,
      percentDecodePathSegment (escape spelled) = .ok (spelled.map Spelled.byte)) ∧
    (∀ segment, percentDecodePathSegment segment = .ok (text ".") ↔ isDot segment = true) ∧
    ∀ segment, percentDecodePathSegment segment = .ok (text "..") ↔ isDotDot segment = true := by
  simp only [percent_decode_segment]
  refine ⟨?_, percent_decode_ok_iff, percent_decode_escaped, decodes_to_dot_iff,
    decodes_to_dot_dot_iff⟩
  intro segment
  rw [checked_loop segment _ 0 [] (by omega), ← percentDecodePathSegment, percent_decode_segment]

end PercentDecoding
