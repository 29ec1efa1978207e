import TunnelAI.Library.Fallible
import TunnelAI.Library.UrlReference

/-!
The provider URL of a request target: the checks on the base URL and on the
target, the reference that is left of the target, and its resolution. A `str` is
the list of its bytes. The `url` crate is given by its functions, and the laws
are what the URL standard says about them.
-/
namespace ProviderUrl
open StreamReader Fallible UrlReference

structure UrlCrate where
  parse : Bytes → Option Url
  join : Url → Bytes → Option Url
  setPath : Url → Bytes → Url
  setQuery : Url → Option Bytes → Url
  encode : UInt8 → Bytes

def http : Bytes := text "http"

def https : Bytes := text "https"

def backslash : UInt8 := 0x5c

def percent : UInt8 := 0x25

def questionMark : UInt8 := 0x3f

/-- What the standard says about a base with one of the two schemes and a
    reference that has neither a backslash nor a query. -/
structure Standard (crate : UrlCrate) : Prop where
  parsed_path : ∀ s u, crate.parse s = some u → u.scheme = http ∨ u.scheme = https →
    u.path.head? = some slash
  set_path : ∀ s u, crate.parse s = some u → u.scheme = http ∨ u.scheme = https →
    crate.setPath u (u.path ++ [slash]) = { u with path := u.path ++ [slash] }
  set_query : ∀ u query, ∃ q, crate.setQuery u query = { u with query := q }
  join_absolute : ∀ base reference url, base.scheme = http ∨ base.scheme = https →
    backslash ∉ reference → questionMark ∉ reference →
    meaning base.scheme reference = .absolute url → crate.join base reference = crate.parse url
  join_relative : ∀ base reference relative, base.scheme = http ∨ base.scheme = https →
    backslash ∉ reference → questionMark ∉ reference →
    meaning base.scheme reference = .relative relative →
    ∃ u, crate.join base reference = some u ∧ SameAuthority u base ∧
      u.path = pathBytes (resolveSegments crate.encode base.path relative)
  encode_plain : ∀ byte, byte ≠ slash → slash ∉ crate.encode byte

def validateProviderUrlPolicy (url : Url) : Except String Unit := do
  let scheme := String.ofList (url.scheme.map fun byte => Char.ofNat byte.toNat)
  require (url.scheme = http ∨ url.scheme = https)
    s!"provider base URL must use http or https, got {scheme}"
  require (url.host.isSome = true) "provider base URL must include a host"
  require (url.username = [] ∧ url.password = none)
    "provider base URL must not include credentials"

def validateProviderBaseUrl (crate : UrlCrate) (baseUrl : Bytes) : Except String Url :=
  match crate.parse baseUrl with
  | none => .error "parse provider base URL"
  | some url => do
    validateProviderUrlPolicy url
    return url

def invalidPercentEncoding : String := "request target contains invalid percent encoding"

def hexValue (byte : UInt8) : Except String UInt8 :=
  if 0x30 ≤ byte ∧ byte ≤ 0x39 then .ok (byte - 0x30)
  else if 0x61 ≤ byte ∧ byte ≤ 0x66 then .ok (byte - 0x61 + 10)
  else if 0x41 ≤ byte ∧ byte ≤ 0x46 then .ok (byte - 0x41 + 10)
  else .error invalidPercentEncoding

def percentDecodeLoop (bytes : Bytes) (index : Nat) (decoded : Bytes) : Except String Bytes :=
  if inside : index < bytes.length then
    if bytes[index] = percent then
      if room : index + 2 < bytes.length then do
        let high ← hexValue bytes[index + 1]
        let low ← hexValue bytes[index + 2]
        percentDecodeLoop bytes (index + 3) (decoded ++ [(high <<< 4) ||| low])
      else .error invalidPercentEncoding
    else percentDecodeLoop bytes (index + 1) (decoded ++ [bytes[index]])
  else .ok decoded
termination_by bytes.length - index

def percentDecodePathSegment (segment : Bytes) : Except String Bytes :=
  percentDecodeLoop segment 0 []

def checkSegment (segment : Bytes) : Except String Unit := do
  let decoded ← percentDecodePathSegment segment
  require (decoded ≠ text "." ∧ decoded ≠ text "..") "request target contains unsafe dot segment"
  require (slash ∉ decoded ∧ backslash ∉ decoded)
    "request target contains encoded path separator"

def checkSegments : List Bytes → Except String Unit
  | [] => .ok ()
  | segment :: segments => do
    checkSegment segment
    checkSegments segments

def rejectUnsafeRequestPath (path : Bytes) : Except String Unit :=
  checkSegments (path.splitOn slash)

def trimStart (s : Bytes) : Bytes := s.dropWhile (· == slash)

def trimEnd (s : Bytes) : Bytes := (s.reverse.dropWhile (· == slash)).reverse

def OriginForm (target : Bytes) : Prop := text "/" <+: target ∧ ¬ text "//" <+: target

instance (target : Bytes) : Decidable (OriginForm target) := inferInstanceAs (Decidable (_ ∧ _))

def splitQuery (target : Bytes) : Bytes × Option Bytes :=
  (target.takeWhile (· != questionMark),
    match target.dropWhile (· != questionMark) with
    | [] => none
    | _ :: query => some query)

/-- The path of a target without its leading slashes, and without the base path
    where it is in front of them. -/
def relativePath (basePath path : Bytes) : Bytes :=
  let relative := trimStart path
  if basePath ≠ [] ∧ (relative = basePath ∨ basePath ++ [slash] <+: relative) then
    trimStart (relative.drop basePath.length)
  else relative

def withTrailingSlash (crate : UrlCrate) (base : Url) : Url :=
  if base.path.getLast? = some slash then base else crate.setPath base (base.path ++ [slash])

def providerRequestUrlFromBase (crate : UrlCrate) (base : Url) (target : Bytes) :
    Except String Url := do
  require (OriginForm target)
    "OpenAI proxy requires origin-form request targets starting with /"
  let (path, query) := splitQuery target
  rejectUnsafeRequestPath path
  match crate.join (withTrailingSlash crate base)
      (relativePath (trimStart (trimEnd base.path)) path) with
  | none => .error "join provider request path"
  | some url => return crate.setQuery url query

def percentDecode : Bytes → Except String Bytes
  | [] => .ok []
  | 0x25 :: high :: low :: rest => do
    let high ← hexValue high
    let low ← hexValue low
    let decoded ← percentDecode rest
    return ((high <<< 4) ||| low) :: decoded
  | byte :: rest => do
    require (byte ≠ percent) invalidPercentEncoding
    let decoded ← percentDecode rest
    return byte :: decoded

theorem percent_decode_escape (high low : UInt8) (rest : Bytes) :
    percentDecode (percent :: high :: low :: rest) =
      (hexValue high >>= fun high => hexValue low >>= fun low =>
        percentDecode rest >>= fun decoded => pure (((high <<< 4) ||| low) :: decoded)) := rfl

theorem percent_decode_plain {byte : UInt8} (plain : byte ≠ percent) (rest : Bytes) :
    percentDecode (byte :: rest) = percentDecode rest >>= fun decoded => pure (byte :: decoded) := by
  conv_lhs => unfold percentDecode
  split
  · contradiction
  · rename_i same
    exact absurd (List.cons.inj same).1 plain
  · rename_i same
    obtain ⟨rfl, rfl⟩ := List.cons.inj same
    rw [require_met plain, ok_bind]

theorem percent_decode_short {rest : Bytes} (short : rest.length < 2) :
    percentDecode (percent :: rest) = .error invalidPercentEncoding := by
  match rest with
  | [] => rfl
  | [_] => rfl
  | _ :: _ :: _ =>
    simp only [List.length_cons] at short
    omega

theorem percent_decode_loop (bytes : Bytes) (index : Nat) (decoded : Bytes) :
    percentDecodeLoop bytes index decoded =
      (percentDecode (bytes.drop index)).map (decoded ++ ·) := by
  induction left : bytes.length - index using Nat.strongRecOn generalizing index decoded with
  | ind n ih =>
    unfold percentDecodeLoop
    split
    · rename_i inside
      rw [List.drop_eq_getElem_cons inside]
      split
      · rename_i escape
        rw [escape]
        split
        · rename_i room
          rw [List.drop_eq_getElem_cons (by omega : index + 1 < bytes.length),
            List.drop_eq_getElem_cons (by omega : index + 1 + 1 < bytes.length),
            percent_decode_escape]
          cases hexValue bytes[index + 1] with
          | error e => rfl
          | ok high =>
            cases hexValue bytes[index + 2] with
            | error e => rfl
            | ok low =>
              simp only [ok_bind]
              rw [ih (bytes.length - (index + 3)) (by omega) (index + 3) _ rfl]
              cases percentDecode (bytes.drop (index + 3)) with
              | error e => rfl
              | ok rest => simp [Except.map, pure, Except.pure]
        · rw [percent_decode_short (by rw [List.length_drop]; omega)]
          rfl
      · rename_i plain
        rw [percent_decode_plain plain,
          ih (bytes.length - (index + 1)) (by omega) (index + 1) _ rfl]
        cases percentDecode (bytes.drop (index + 1)) with
        | error e => rfl
        | ok rest => simp [Except.map, pure, Except.pure]
    · rename_i outside
      rw [List.drop_eq_nil_of_le (by omega)]
      simp [percentDecode, Except.map]

theorem percent_decode_segment (segment : Bytes) :
    percentDecodePathSegment segment = percentDecode segment := by
  unfold percentDecodePathSegment
  rw [percent_decode_loop, List.drop_zero]
  cases percentDecode segment <;> rfl

theorem percent_decode_keeps {byte : UInt8} {segment decoded : Bytes}
    (literal : byte ≠ percent ∧ ∃ e, hexValue byte = .error e)
    (h : percentDecode segment = .ok decoded) (member : byte ∈ segment) : byte ∈ decoded := by
  obtain ⟨plain, e, notHex⟩ := literal
  induction size : segment.length using Nat.strongRecOn generalizing segment decoded with
  | ind n ih =>
    cases segment with
    | nil => contradiction
    | cons first rest =>
      by_cases escape : first = percent
      · subst escape
        match rest, h, member, size with
        | [], h, _, _ => cases h
        | [_], h, _, _ => cases h
        | high :: low :: rest, h, member, size =>
          rw [percent_decode_escape] at h
          obtain ⟨h1, first, h⟩ := bind_ok h
          obtain ⟨h2, second, h⟩ := bind_ok h
          obtain ⟨tail, decodes, h⟩ := bind_ok h
          cases h
          have notHigh : byte ≠ high := by
            intro same
            rw [same, first] at notHex
            contradiction
          have notLow : byte ≠ low := by
            intro same
            rw [same, second] at notHex
            contradiction
          simp only [List.mem_cons, plain, notHigh, notLow, false_or] at member
          simp only [List.length_cons] at size
          exact List.mem_cons_of_mem _ (ih rest.length (by omega) decodes member rfl)
      · rw [percent_decode_plain escape] at h
        obtain ⟨tail, decodes, h⟩ := bind_ok h
        cases h
        rcases List.mem_cons.mp member with rfl | member
        · exact List.mem_cons_self
        · simp only [List.length_cons] at size
          exact List.mem_cons_of_mem _ (ih rest.length (by omega) decodes member rfl)

theorem check_segments_ok_iff {segments : List Bytes} :
    checkSegments segments = .ok () ↔ ∀ segment ∈ segments, checkSegment segment = .ok () := by
  induction segments with
  | nil => simp [checkSegments]
  | cons segment segments ih =>
    simp only [checkSegments, bind_ok_iff, ih, List.mem_cons, forall_eq_or_imp]
    constructor
    · intro h
      obtain ⟨_, first, rest⟩ := h
      exact ⟨first, rest⟩
    · intro h
      exact ⟨(), h.1, h.2⟩

/-- A segment that decodes to something that is no dot segment and has no separator. -/
def SafeSegment (segment : Bytes) : Prop :=
  match percentDecode segment with
  | .ok decoded =>
    (decoded ≠ text "." ∧ decoded ≠ text "..") ∧ slash ∉ decoded ∧ backslash ∉ decoded
  | .error _ => False

instance (segment : Bytes) : Decidable (SafeSegment segment) := by
  unfold SafeSegment
  split <;> infer_instance

theorem check_segment_ok_iff {segment : Bytes} :
    checkSegment segment = .ok () ↔ SafeSegment segment := by
  unfold checkSegment SafeSegment
  rw [percent_decode_segment]
  cases percentDecode segment with
  | error e => simp
  | ok decoded =>
    simp only [ok_bind, bind_ok_iff, require_ok_iff]
    constructor
    · intro h
      obtain ⟨_, dots, separators⟩ := h
      exact ⟨dots, separators⟩
    · intro h
      exact ⟨(), h⟩

theorem safe_path_iff {path : Bytes} :
    rejectUnsafeRequestPath path = .ok () ↔ ∀ segment ∈ path.splitOn slash, SafeSegment segment := by
  unfold rejectUnsafeRequestPath
  rw [check_segments_ok_iff]
  simp only [check_segment_ok_iff]

theorem safe_path_no_backslash {path : Bytes} (safe : rejectUnsafeRequestPath path = .ok ()) :
    backslash ∉ path := by
  intro member
  have joined := path_bytes_split path
  have inside : backslash ∈ pathBytes (path.splitOn slash) := by
    rw [joined]
    exact List.mem_cons_of_mem slash member
  rw [pathBytes, List.mem_flatMap] at inside
  obtain ⟨segment, found, here⟩ := inside
  have other : backslash ≠ slash := by decide
  simp only [List.mem_cons, other, false_or] at here
  have checked := safe_path_iff.mp safe segment found
  unfold SafeSegment at checked
  split at checked
  · rename_i decoded decodes
    exact checked.2.2 (percent_decode_keeps ⟨by decide, _, rfl⟩ decodes here)
  · exact checked

theorem trim_start_sub {s : Bytes} {byte : UInt8} (member : byte ∈ trimStart s) : byte ∈ s :=
  (List.dropWhile_sublist _).subset member

theorem relative_path_sub {basePath path : Bytes} {byte : UInt8}
    (member : byte ∈ relativePath basePath path) : byte ∈ path := by
  unfold relativePath at member
  simp only at member
  split at member
  · exact trim_start_sub (List.mem_of_mem_drop (trim_start_sub member))
  · exact trim_start_sub member

theorem split_query_path (target : Bytes) : questionMark ∉ (splitQuery target).1 := by
  intro member
  have before := List.all_eq_true.mp List.all_takeWhile questionMark member
  simp at before

def upperHex (n : Nat) : UInt8 := UInt8.ofNat (if n < 10 then 0x30 + n else 0x37 + n)

def exampleEncode (byte : UInt8) : Bytes :=
  if byte ≤ 0x20 ∨ 0x7f ≤ byte ∨ byte ∈ text "\"<>`#?\x7b\x7d" then
    [percent, upperHex (byte.toNat / 16), upperHex (byte.toNat % 16)]
  else [byte]

def endsAuthority (byte : UInt8) : Bool := byte == slash || byte == questionMark || byte == hash

def examplePath (part : Bytes) : Bytes :=
  if part = [] then [slash] else pathBytes (walk exampleEncode [] (segmentsOf part))

/-- Enough of the `url` crate for http and https URLs with a plain host name. -/
def exampleParse (s : Bytes) : Option Url :=
  match splitScheme (clean s) with
  | none => none
  | some (scheme, rest) =>
    let host := (trimStart rest).takeWhile fun byte => !endsAuthority byte
    let tail := (trimStart rest).dropWhile fun byte => !endsAuthority byte
    let path := tail.takeWhile fun byte => byte != questionMark && byte != hash
    let query := (tail.takeWhile (· != hash)).dropWhile (· != questionMark)
    let fragment := tail.dropWhile (· != hash)
    if (scheme = http ∨ scheme = https) ∧ host ≠ [] ∧ 0x3a ∉ host ∧ 0x40 ∉ host then
      some ⟨scheme, [], none, some (host.map lower), none, examplePath path,
        if query = [] then none else some (query.drop 1),
        if fragment = [] then none else some (fragment.drop 1)⟩
    else none

def exampleUrlCrate : UrlCrate where
  parse := exampleParse
  join base reference :=
    match meaning base.scheme reference with
    | .absolute url => exampleParse url
    | .relative relative =>
      let fragment := relative.dropWhile (· != hash)
      some { base with
        path := pathBytes (resolveSegments exampleEncode base.path relative)
        query := if relative.takeWhile (· != hash) = [] then base.query else none
        fragment := if fragment = [] then none else some (fragment.drop 1) }
  setPath base path := { base with path := path }
  setQuery url query := { url with query := query }
  encode := exampleEncode

theorem example_path_rooted (part : Bytes) : (examplePath part).head? = some slash := by
  unfold examplePath
  split
  · rfl
  · have some := walk_nonempty exampleEncode [] (List.splitOn_ne_nil slash (part.drop 1))
    obtain ⟨first, rest, shape⟩ := List.exists_cons_of_ne_nil some
    rw [segmentsOf, shape]
    rfl

theorem upper_hex_plain {n : Nat} (digit : n < 16) : upperHex n ≠ slash := by
  intro same
  have value := congrArg UInt8.toNat same
  rw [upperHex, UInt8.toNat_ofNat'] at value
  have other : slash.toNat = 47 := rfl
  rw [other] at value
  split at value <;> omega

theorem example_encode_plain {byte : UInt8} (plain : byte ≠ slash) : slash ∉ exampleEncode byte := by
  have small := byte.toNat_lt
  have high := upper_hex_plain (show byte.toNat / 16 < 16 by omega)
  have low := upper_hex_plain (show byte.toNat % 16 < 16 by omega)
  have sign : percent ≠ slash := by decide
  unfold exampleEncode
  split
  · simp [high.symm, low.symm, sign.symm]
  · simp [plain.symm]

theorem example_standard : Standard exampleUrlCrate where
  parsed_path := by
    intro s u parsed _
    simp only [exampleUrlCrate, exampleParse] at parsed
    split at parsed
    · contradiction
    · split at parsed
      · rw [Option.some.injEq] at parsed
        subst parsed
        exact example_path_rooted _
      · contradiction
  set_path := fun _ _ _ _ => rfl
  set_query := fun _ query => ⟨query, rfl⟩
  join_absolute := by
    intro base reference url _ _ _ means
    simp only [exampleUrlCrate, means]
  join_relative := by
    intro base reference relative _ _ _ means
    simp only [exampleUrlCrate, means]
    exact ⟨_, rfl, ⟨rfl, rfl, rfl, rfl, rfl⟩, rfl⟩
  encode_plain := fun _ plain => example_encode_plain plain

end ProviderUrl
