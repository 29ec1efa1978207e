import TunnelAI.Library.Fallible
import TunnelAI.StdText

/-!
The text form of a secret key: a prefix, two hexadecimal digits for each of the
32 bytes, and a newline. The decoder takes white space off both ends and counts
the length that is left in bytes.
-/
namespace IdentityCodec
open StreamReader StdText Fallible

abbrev SecretKey := Octets 32

def secretKeyPrefix : List Char := "iroh-secret-key-v1:".toList

def secretKeyHexLen : Nat := 64

inductive DecodeError where
  | invalid (message : String)
  | outOfBounds
  deriving DecidableEq

abbrev Nibble := Fin 16

def highNibble (byte : UInt8) : Nibble := ⟨(byte >>> 4).toNat, by
  have bound := byte.toNat_lt
  rw [UInt8.toNat_shiftRight, Nat.shiftRight_eq_div_pow]
  simp only [UInt8.reduceToNat, Nat.reduceMod, Nat.reducePow]
  omega⟩

def lowNibble (byte : UInt8) : Nibble := ⟨(byte &&& 0x0f).toNat, by
  rw [UInt8.toNat_and]
  exact Nat.lt_succ_of_le Nat.and_le_right⟩

def hexChar (nibble : Nibble) : Char :=
  if nibble.val ≤ 9 then Char.ofNat ('0'.toNat + nibble.val)
  else Char.ofNat ('a'.toNat + (nibble.val - 10))

def encodeHex (bytes : Bytes) : List Char :=
  bytes.flatMap fun byte => [hexChar (highNibble byte), hexChar (lowNibble byte)]

def encodeSecretKey (secretKey : SecretKey) : List Char :=
  secretKeyPrefix ++ encodeHex secretKey.1 ++ ['\n']

def encoded (secretKey : SecretKey) : Bytes := text (String.ofList (encodeSecretKey secretKey))

def decodeHexNibble (byte : UInt8) : Except DecodeError UInt8 :=
  if 0x30 ≤ byte ∧ byte ≤ 0x39 then .ok (byte - 0x30)
  else if 0x61 ≤ byte ∧ byte ≤ 0x66 then .ok (byte - 0x61 + 10)
  else .error (.invalid "invalid iroh identity secret hex")

/-- `bytes[index] = value` on the array of the decoder. -/
def store (bytes : SecretKey) (index : Nat) (value : UInt8) : Except DecodeError SecretKey :=
  if index < 32 then .ok ⟨bytes.1.set index value, by rw [List.length_set, bytes.2]⟩
  else .error .outOfBounds

def decodeChunks (index : Nat) (bytes : SecretKey) : Bytes → Except DecodeError SecretKey
  | first :: second :: rest => do
    let high ← decodeHexNibble first
    let low ← decodeHexNibble second
    let bytes ← store bytes index ((high <<< 4) ||| low)
    decodeChunks (index + 1) bytes rest
  | _ => .ok bytes

def stripPrefix (start : List Char) (s : List Char) : Option (List Char) :=
  if start <+: s then some (s.drop start.length) else none

def decodeSecretKey (contents : List Char) : Except DecodeError SecretKey :=
  match stripPrefix secretKeyPrefix (trim contents) with
  | none => .error (.invalid "invalid iroh identity secret prefix")
  | some hex =>
    if (text (String.ofList hex)).length ≠ secretKeyHexLen then
      .error (.invalid "invalid iroh identity secret length")
    else decodeChunks 0 ⟨List.replicate 32 0, List.length_replicate⟩ (text (String.ofList hex))

theorem hex_char_ascii : ∀ nibble : Nibble, (hexChar nibble).toNat < 128 := by decide

theorem hex_char_solid : ∀ nibble : Nibble, isWhitespace (hexChar nibble) = false := by decide

theorem decode_hex_char : ∀ nibble : Nibble,
    decodeHexNibble (UInt8.ofNat (hexChar nibble).toNat) = .ok (UInt8.ofNat nibble.val) := by
  decide

theorem nibbles_join (byte : UInt8) :
    (UInt8.ofNat (highNibble byte).val <<< 4) ||| UInt8.ofNat (lowNibble byte).val = byte := by
  have bound := byte.toNat_lt
  have high : (byte >>> 4).toNat = byte.toNat / 16 := by
    rw [UInt8.toNat_shiftRight, Nat.shiftRight_eq_div_pow]
    rfl
  have low : (byte &&& 0x0f).toNat = byte.toNat % 16 := by
    rw [UInt8.toNat_and]
    exact Nat.and_two_pow_sub_one_eq_mod byte.toNat 4
  have fits : (byte.toNat / 16) <<< 4 < 2 ^ 8 := by
    rw [Nat.shiftLeft_eq]
    omega
  have joined : (byte.toNat / 16) <<< 4 ||| byte.toNat % 16 = byte.toNat := by
    rw [← Nat.shiftLeft_add_eq_or_of_lt (by omega), Nat.shiftLeft_eq]
    omega
  apply UInt8.toNat_inj.mp
  rw [highNibble, lowNibble, UInt8.ofNat_toNat, UInt8.ofNat_toNat, UInt8.toNat_or,
    UInt8.toNat_shiftLeft, high, low, show (4 : UInt8).toNat % 8 = 4 from rfl,
    Nat.mod_eq_of_lt fits, joined]

def hexBytes (bytes : Bytes) : Bytes := (encodeHex bytes).map fun c => UInt8.ofNat c.toNat

theorem hex_bytes_length (bytes : Bytes) : (hexBytes bytes).length = 2 * bytes.length := by
  induction bytes with
  | nil => rfl
  | cons byte bytes ih =>
    rw [hexBytes, List.length_map] at ih ⊢
    rw [encodeHex, List.flatMap_cons, List.length_append, ← encodeHex, ih]
    simp only [List.length_cons, List.length_nil]
    omega

theorem store_inside {array : SecretKey} {index : Nat} (inside : index < 32) (value : UInt8) :
    store array index value =
      .ok ⟨array.1.set index value, by rw [List.length_set, array.2]⟩ := if_pos inside

theorem hex_bytes_cons (byte : UInt8) (bytes : Bytes) : hexBytes (byte :: bytes) =
    UInt8.ofNat (hexChar (highNibble byte)).toNat ::
      UInt8.ofNat (hexChar (lowNibble byte)).toNat :: hexBytes bytes := rfl

theorem fill_next {done : Bytes} {left : Nat} {array : SecretKey}
    (shape : array.1 = done ++ List.replicate (left + 1) 0) (byte : UInt8) :
    array.1.set done.length byte = (done ++ [byte]) ++ List.replicate left 0 := by
  rw [shape, List.replicate_succ, List.set_append_right _ _ (Nat.le_refl _), Nat.sub_self]
  simp

theorem decode_chunks_hex (bytes : Bytes) : ∀ (done : Bytes) (array : SecretKey)
    (whole : (done ++ bytes).length = 32),
    array.1 = done ++ List.replicate bytes.length 0 →
    decodeChunks done.length array (hexBytes bytes) = .ok ⟨done ++ bytes, whole⟩ := by
  induction bytes with
  | nil =>
    intro done array whole shape
    obtain ⟨content, filled⟩ := array
    simp only [List.length_nil, List.replicate_zero, List.append_nil] at shape
    subst shape
    simp [hexBytes, encodeHex, decodeChunks]
  | cons byte bytes ih =>
    intro done array whole shape
    have inside : done.length < 32 := by
      rw [List.length_append, List.length_cons] at whole
      omega
    have next := ih (done ++ [byte]) ⟨array.1.set done.length byte, by
      rw [List.length_set, array.2]⟩ (by simpa using whole) (fill_next shape byte)
    rw [List.length_append, List.length_singleton] at next
    rw [hex_bytes_cons, decodeChunks, decode_hex_char, ok_bind, decode_hex_char, ok_bind,
      nibbles_join, store_inside inside, ok_bind, next]
    simp

theorem encode_hex_chars {bytes : Bytes} {c : Char} (member : c ∈ encodeHex bytes) :
    ∃ nibble, c = hexChar nibble := by
  rw [encodeHex, List.mem_flatMap] at member
  obtain ⟨byte, _, digit⟩ := member
  simp only [List.mem_cons, List.not_mem_nil, or_false] at digit
  rcases digit with rfl | rfl
  · exact ⟨highNibble byte, rfl⟩
  · exact ⟨lowNibble byte, rfl⟩

theorem hex_text (bytes : Bytes) : text (String.ofList (encodeHex bytes)) = hexBytes bytes := by
  apply text_ascii
  intro c member
  obtain ⟨nibble, rfl⟩ := encode_hex_chars member
  exact hex_char_ascii nibble

theorem prefix_solid : ∀ c ∈ secretKeyPrefix, isWhitespace c = false := by
  have all : secretKeyPrefix.all (fun c => !isWhitespace c) = true := rfl
  intro c member
  simpa using List.all_eq_true.mp all c member

theorem encoded_solid (bytes : Bytes) :
    ∀ c ∈ secretKeyPrefix ++ encodeHex bytes, isWhitespace c = false := by
  intro c member
  rcases List.mem_append.mp member with early | late
  · exact prefix_solid c early
  · obtain ⟨nibble, rfl⟩ := encode_hex_chars late
    exact hex_char_solid nibble

theorem strip_prefix_append (start rest : List Char) :
    stripPrefix start (start ++ rest) = some rest := by
  rw [stripPrefix, if_pos (List.prefix_append start rest), List.drop_left]

theorem decode_trimmed {contents : List Char} {secretKey : SecretKey}
    (trimmed : trim contents = secretKeyPrefix ++ encodeHex secretKey.1) :
    decodeSecretKey contents = .ok secretKey := by
  have length : (hexBytes secretKey.1).length = secretKeyHexLen := by
    rw [hex_bytes_length, secretKey.2]
    rfl
  have loop := decode_chunks_hex secretKey.1 []
    ⟨List.replicate 32 0, List.length_replicate⟩ secretKey.2 (by rw [secretKey.2]; rfl)
  simp only [decodeSecretKey, trimmed, strip_prefix_append, hex_text, length, ne_eq,
    not_true_eq_false, if_false]
  exact loop

/-- A stored key is read back, whatever white space is around it. -/
theorem decode_encode {u v : List Char} (before : ∀ c ∈ u, isWhitespace c = true)
    (after : ∀ c ∈ v, isWhitespace c = true) (secretKey : SecretKey) :
    decodeSecretKey (u ++ encodeSecretKey secretKey ++ v) = .ok secretKey := by
  apply decode_trimmed
  have split : u ++ encodeSecretKey secretKey ++ v =
      u ++ (secretKeyPrefix ++ encodeHex secretKey.1) ++ ('\n' :: v) := by
    simp [encodeSecretKey]
  rw [split]
  apply trim_padded before (encoded_solid secretKey.1)
  intro c member
  rcases List.mem_cons.mp member with rfl | member
  · decide
  · exact after c member

theorem hex_char_code : ∀ nibble : Nibble, (UInt8.ofNat (hexChar nibble).toNat).toNat =
    if nibble.val ≤ 9 then 48 + nibble.val else 87 + nibble.val := by decide

theorem decode_nibble_ok {byte value : UInt8} (h : decodeHexNibble byte = .ok value) :
    ∃ nibble : Nibble, byte = UInt8.ofNat (hexChar nibble).toNat ∧
      value = UInt8.ofNat nibble.val := by
  have digit : ∃ nibble : Nibble, byte = UInt8.ofNat (hexChar nibble).toNat := by
    unfold decodeHexNibble at h
    simp only [UInt8.le_iff_toNat_le, UInt8.reduceToNat] at h
    split at h
    · rename_i decimal
      refine ⟨⟨byte.toNat - 48, by omega⟩, UInt8.toNat_inj.mp ?_⟩
      rw [hex_char_code, if_pos (by dsimp only; omega)]
      dsimp only
      omega
    · split at h
      · rename_i letter
        refine ⟨⟨byte.toNat - 87, by omega⟩, UInt8.toNat_inj.mp ?_⟩
        rw [hex_char_code, if_neg (by dsimp only; omega)]
        dsimp only
        omega
      · contradiction
  obtain ⟨nibble, rfl⟩ := digit
  rw [decode_hex_char, Except.ok.injEq] at h
  exact ⟨nibble, rfl, h.symm⟩

theorem nibbles_apart : ∀ high low : Nibble,
    highNibble ((UInt8.ofNat high.val <<< 4) ||| UInt8.ofNat low.val) = high ∧
      lowNibble ((UInt8.ofNat high.val <<< 4) ||| UInt8.ofNat low.val) = low := by
  decide

theorem decode_chunks_ok (left : Nat) : ∀ (done hex : Bytes) (array result : SecretKey),
    hex.length = 2 * left → array.1 = done ++ List.replicate left 0 →
    decodeChunks done.length array hex = .ok result →
    ∃ bytes, hex = hexBytes bytes ∧ result.1 = done ++ bytes := by
  induction left with
  | zero =>
    intro done hex array result size shape decoded
    have empty : hex = [] := List.length_eq_zero_iff.mp (by omega)
    subst empty
    rw [decodeChunks, Except.ok.injEq] at decoded
    · exact ⟨[], rfl, by rw [← decoded, shape, List.replicate_zero]⟩
    · intro first second rest impossible
      cases impossible
  | succ left ih =>
    intro done hex array result size shape decoded
    match hex, size with
    | first :: second :: rest, size =>
      rw [decodeChunks] at decoded
      obtain ⟨high, read, decoded⟩ := bind_ok decoded
      obtain ⟨low, read', decoded⟩ := bind_ok decoded
      obtain ⟨stored, put, decoded⟩ := bind_ok decoded
      obtain ⟨top, rfl, rfl⟩ := decode_nibble_ok read
      obtain ⟨bottom, rfl, rfl⟩ := decode_nibble_ok read'
      have inside : done.length < 32 := by
        have whole := array.2
        rw [shape, List.length_append, List.length_replicate] at whole
        omega
      rw [store_inside inside, Except.ok.injEq] at put
      subst put
      let byte := (UInt8.ofNat top.val <<< 4) ||| UInt8.ofNat bottom.val
      have next := ih (done ++ [byte]) rest _ result
        (by rw [List.length_cons, List.length_cons] at size; omega) (fill_next shape _)
        (by rw [List.length_append, List.length_singleton]; exact decoded)
      obtain ⟨bytes, digits, filled⟩ := next
      refine ⟨byte :: bytes, ?_, by rw [filled, List.append_assoc, List.singleton_append]⟩
      rw [hex_bytes_cons, (nibbles_apart top bottom).1, (nibbles_apart top bottom).2, digits]

theorem invalid_inside {α : Type} (message : String) :
    FailsWith (fun e => e ≠ .outOfBounds) (.error (.invalid message) : Except DecodeError α) := by
  apply fails_with_error
  intro impossible
  cases impossible

theorem decode_nibble_inside (byte : UInt8) :
    FailsWith (fun e => e ≠ .outOfBounds) (decodeHexNibble byte) := by
  unfold decodeHexNibble
  split
  · exact fails_with_ok _
  · split
    · exact fails_with_ok _
    · exact invalid_inside _

theorem decode_chunks_inside (hex : Bytes) (index : Nat) (array : SecretKey)
    (room : hex.length + 2 * index ≤ secretKeyHexLen) :
    FailsWith (fun e => e ≠ .outOfBounds) (decodeChunks index array hex) := by
  induction index, array, hex using decodeChunks.induct with
  | case1 index array first second rest ih =>
    rw [List.length_cons, List.length_cons, secretKeyHexLen] at room
    have inside : index < 32 := by omega
    rw [decodeChunks]
    apply fails_with_bind (decode_nibble_inside first)
    intro high _
    apply fails_with_bind (decode_nibble_inside second)
    intro low _
    rw [store_inside inside, ok_bind]
    exact ih _ (by rw [secretKeyHexLen]; omega)
  | case2 hex index array short =>
    rw [decodeChunks.eq_2 _ _ _ short]
    exact fails_with_ok array

theorem strip_prefix_some {start s rest : List Char} (h : stripPrefix start s = some rest) :
    s = start ++ rest := by
  unfold stripPrefix at h
  split at h
  · rename_i first
    rw [Option.some.injEq] at h
    obtain ⟨rest', rfl⟩ := first
    rw [← h, List.drop_left]
  · contradiction

theorem decode_ok {contents : List Char} {secretKey : SecretKey}
    (decoded : decodeSecretKey contents = .ok secretKey) :
    trim contents ++ ['\n'] = encodeSecretKey secretKey := by
  unfold decodeSecretKey at decoded
  split at decoded
  · contradiction
  · rename_i hex stripped
    split at decoded
    · contradiction
    · rename_i length
      obtain ⟨bytes, digits, filled⟩ := decode_chunks_ok 32 [] _ _ secretKey
        (Decidable.not_not.mp length) rfl decoded
      rw [← hex_text] at digits
      have spelled := String.ofList_injective (text_injective digits)
      rw [strip_prefix_some stripped, spelled, encodeSecretKey, filled, List.nil_append]

theorem decode_inside (contents : List Char) :
    FailsWith (fun e => e ≠ .outOfBounds) (decodeSecretKey contents) := by
  unfold decodeSecretKey
  split
  · exact invalid_inside _
  · split
    · exact invalid_inside _
    · rename_i length
      exact decode_chunks_inside _ 0 _ (Nat.le_of_eq (Decidable.not_not.mp length))

/-- A key is read back from its spelling with white space around it, from no other
    spelling, and no text makes the decoder leave its array. -/
theorem one_spelling :
    (∀ (secretKey : SecretKey) (u v : List Char), (∀ c ∈ u, isWhitespace c = true) →
      (∀ c ∈ v, isWhitespace c = true) →
      decodeSecretKey (u ++ encodeSecretKey secretKey ++ v) = .ok secretKey) ∧
    (∀ (contents : List Char) (secretKey : SecretKey),
      decodeSecretKey contents = .ok secretKey ↔
        trim contents ++ ['\n'] = encodeSecretKey secretKey) ∧
    ∀ contents : List Char, decodeSecretKey contents ≠ .error .outOfBounds := by
  refine ⟨?_, ?_, ?_⟩
  · intro secretKey u v before after
    exact decode_encode before after secretKey
  · intro contents secretKey
    constructor
    · exact decode_ok
    · intro spelled
      exact decode_trimmed (List.append_cancel_right spelled)
  · intro contents failed
    exact decode_inside contents _ failed rfl

end IdentityCodec
