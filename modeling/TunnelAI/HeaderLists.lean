import TunnelAI.Library.Fallible
import TunnelAI.HttpHead

/-!
What the loop over the headers of a request comes to: which header lists it
accepts, and the length and the chunked flag that it finds, in terms of the
values under each name in their order.
-/
namespace HeaderLists
open StreamReader Fallible HttpHead

variable (crates : HttpCrates)

def parsedHeader (header : RawHeader) : Option (HeaderName × HeaderValue) :=
  (crates.headerName header.name).bind fun name =>
    (crates.headerValue (trimOptionalWhitespace header.value)).map fun value => (name, value)

def valuesOf (name : HeaderName) (headers : HeaderMap) : List HeaderValue :=
  (headers.filter fun entry => entry.1 = name).map (·.2)

def listed (value : HeaderValue) : Bool := (crates.toStr value).any listsChunked

/-- The length that these Content-Length values agree on. -/
def Declares (values : List HeaderValue) : Option Nat → Prop
  | none => values = []
  | some n => values ≠ [] ∧ ∀ value ∈ values, parseContentLength crates value = .ok n

/-- A header list that the loop gets through: every header is one, the lengths are
    the same number, and the codings are text. -/
structure Accepted (raws : List RawHeader) (headers : HeaderMap) : Prop where
  named : raws.mapM (parsedHeader crates) = some headers
  lengths : ∃ length, Declares crates (valuesOf .contentLength headers) length
  codings : ∀ value ∈ valuesOf .transferEncoding headers, (crates.toStr value).isSome = true

structure Collected (raws : List RawHeader) (fields : HeaderFields) : Prop where
  accepted : Accepted crates raws fields.headers
  length : Declares crates (valuesOf .contentLength fields.headers) fields.contentLength
  chunked : fields.hasChunkedBody =
    (valuesOf .transferEncoding fields.headers).getLast?.any (listed crates)

/-- What the `http` crate keeps of a name and of a value. -/
structure KeepsHeaders (crates : HttpCrates) : Prop where
  name_lower : ∀ raw name, crates.headerName raw = some name →
    name.name = raw.map toAsciiLowercase
  value_bytes : ∀ raw value, crates.headerValue raw = some value → value.bytes = raw

def receivedValues (name : HeaderName) (raws : List RawHeader) : List HeaderValue :=
  (raws.filter fun raw => raw.name.map toAsciiLowercase = name.name).map fun raw =>
    ⟨trimOptionalWhitespace raw.value⟩

variable {crates}

theorem or_bad_request_ok_iff {α : Type} {value : Option α} {message : String} {a : α} :
    orBadRequest value message = .ok a ↔ value = some a := by
  cases value <;> simp [orBadRequest]

theorem values_of_snoc (wanted name : HeaderName) (headers : HeaderMap) (value : HeaderValue) :
    valuesOf wanted (headers ++ [(name, value)]) =
      valuesOf wanted headers ++ if name = wanted then [value] else [] := by
  by_cases same : name = wanted <;> simp [valuesOf, same]

theorem header_step_ok_iff {fields fields' : HeaderFields} {header : RawHeader} :
    headerStep crates fields header = .ok fields' ↔
      ∃ name value, parsedHeader crates header = some (name, value) ∧
        fields'.headers = fields.headers ++ [(name, value)] ∧
        headerContentLength crates fields name value = .ok fields'.contentLength ∧
        headerChunked crates fields name value = .ok fields'.hasChunkedBody := by
  unfold headerStep parsedHeader
  simp only [bind_ok_iff, or_bad_request_ok_iff, Option.bind_eq_some_iff, Option.map_eq_some_iff]
  constructor
  · intro h
    obtain ⟨name, named, value, valued, length, lengthed, chunked, coded, built⟩ := h
    cases built
    exact ⟨name, value, ⟨name, named, value, valued, rfl⟩, rfl, lengthed, coded⟩
  · intro h
    obtain ⟨name, value, ⟨_, named, _, valued, same⟩, headers, lengthed, coded⟩ := h
    cases same
    refine ⟨name, named, value, valued, _, lengthed, _, coded, ?_⟩
    obtain ⟨_, _, _⟩ := fields'
    simp only at headers
    rw [headers]
    rfl

theorem header_content_length_ok_iff {fields : HeaderFields} {name : HeaderName}
    {value : HeaderValue} {length : Option Nat} :
    headerContentLength crates fields name value = .ok length ↔
      if name = .contentLength then
        ∃ n, length = some n ∧ parseContentLength crates value = .ok n ∧
          ∀ existing, fields.contentLength = some existing → existing = n
      else length = fields.contentLength := by
  unfold headerContentLength
  split
  · simp only [bind_ok_iff, require_ok_iff, Option.mem_def]
    constructor
    · intro h
      obtain ⟨n, parsed, _, agree, h⟩ := h
      cases h
      exact ⟨n, rfl, parsed, agree⟩
    · intro h
      obtain ⟨n, rfl, parsed, agree⟩ := h
      exact ⟨n, parsed, (), agree, rfl⟩
  · simp [pure, Except.pure, eq_comm]

theorem header_chunked_ok_iff {fields : HeaderFields} {name : HeaderName}
    {value : HeaderValue} {chunked : Bool} :
    headerChunked crates fields name value = .ok chunked ↔
      if name = .transferEncoding then
        (crates.toStr value).isSome = true ∧ chunked = listed crates value
      else chunked = fields.hasChunkedBody := by
  unfold headerChunked
  split
  · simp only [bind_ok_iff, or_bad_request_ok_iff, listed]
    cases crates.toStr value with
    | none => simp
    | some s => simp [pure, Except.pure, eq_comm]
  · simp [pure, Except.pure, eq_comm]

theorem declares_snoc {values : List HeaderValue} {value : HeaderValue} {before : Option Nat}
    {n : Nat} (declares : Declares crates values before)
    (parsed : parseContentLength crates value = .ok n)
    (agree : ∀ existing, before = some existing → existing = n) :
    Declares crates (values ++ [value]) (some n) := by
  refine ⟨by simp, ?_⟩
  intro other member
  rcases List.mem_append.mp member with earlier | last
  · cases before with
    | none =>
      have empty : values = [] := declares
      rw [empty] at earlier
      contradiction
    | some existing =>
      rw [← agree existing rfl]
      exact declares.2 other earlier
  · rw [List.mem_singleton.mp last, parsed]

theorem collected_snoc {raws : List RawHeader} {header : RawHeader}
    {fields fields' : HeaderFields} (collected : Collected crates raws fields)
    (round : headerStep crates fields header = .ok fields') :
    Collected crates (raws ++ [header]) fields' := by
  obtain ⟨name, value, named, headers, lengthed, coded⟩ := header_step_ok_iff.mp round
  rw [header_content_length_ok_iff] at lengthed
  rw [header_chunked_ok_iff] at coded
  have length : Declares crates (valuesOf .contentLength fields'.headers)
      fields'.contentLength := by
    rw [headers, values_of_snoc]
    split at lengthed
    · rename_i isLength
      obtain ⟨n, found, parsed, agree⟩ := lengthed
      rw [if_pos isLength, found]
      exact declares_snoc collected.length parsed agree
    · rename_i other
      rw [if_neg other, List.append_nil, lengthed]
      exact collected.length
  constructor
  · constructor
    · rw [List.mapM_append, collected.accepted.named, headers]
      simp [named]
    · exact ⟨_, length⟩
    · rw [headers, values_of_snoc]
      intro coding member
      split at coded
      · rename_i isCoding
        rw [if_pos isCoding] at member
        rcases List.mem_append.mp member with earlier | last
        · exact collected.accepted.codings coding earlier
        · rw [List.mem_singleton.mp last]
          exact coded.1
      · rename_i other
        rw [if_neg other, List.append_nil] at member
        exact collected.accepted.codings coding member
  · exact length
  · rw [headers, values_of_snoc]
    split at coded
    · rename_i isCoding
      rw [if_pos isCoding, coded.2]
      simp
    · rename_i other
      rw [if_neg other, List.append_nil, coded]
      exact collected.chunked

theorem header_loop_collected {raws : List RawHeader} {fields : HeaderFields}
    (h : raws.foldlM (headerStep crates) HeaderFields.empty = .ok fields) :
    Collected crates raws fields := by
  induction raws using List.reverseRecOn generalizing fields with
  | nil =>
    cases h
    exact ⟨⟨rfl, ⟨none, rfl⟩, by simp [valuesOf, HeaderFields.empty]⟩, rfl, rfl⟩
  | append_singleton raws header ih =>
    obtain ⟨before, earlier, round⟩ := fold_snoc_ok_iff.mp h
    exact collected_snoc (ih earlier) round

theorem declares_before {values later : List HeaderValue} {length : Option Nat}
    (declares : Declares crates (values ++ later) length) : ∃ before, Declares crates values before := by
  cases length with
  | none => exact ⟨none, (List.append_eq_nil_iff.mp declares).1⟩
  | some n =>
    by_cases empty : values = []
    · exact ⟨none, empty⟩
    · exact ⟨some n, empty, fun value member => declares.2 value (List.mem_append_left later member)⟩

theorem declares_last {values : List HeaderValue} {value : HeaderValue} {before length : Option Nat}
    (earlier : Declares crates values before)
    (declares : Declares crates (values ++ [value]) length) :
    ∃ n, parseContentLength crates value = .ok n ∧
      ∀ existing, before = some existing → existing = n := by
  cases length with
  | none => simp [Declares] at declares
  | some n =>
    refine ⟨n, declares.2 value (by simp), ?_⟩
    intro existing same
    subst same
    obtain ⟨first, more, shape⟩ := List.exists_cons_of_ne_nil earlier.1
    have one := earlier.2 first (by simp [shape])
    have two := declares.2 first (by simp [shape])
    rw [one] at two
    exact Except.ok.inj two

theorem parsed_snoc {raws : List RawHeader} {header : RawHeader} {headers : HeaderMap}
    (named : (raws ++ [header]).mapM (parsedHeader crates) = some headers) :
    ∃ earlier name value, headers = earlier ++ [(name, value)] ∧
      raws.mapM (parsedHeader crates) = some earlier ∧
      parsedHeader crates header = some (name, value) := by
  rw [List.mapM_append] at named
  simp only [List.mapM_cons, List.mapM_nil, Option.bind_eq_bind, Option.bind_eq_some_iff,
    Option.pure_def, Option.some.injEq] at named
  obtain ⟨earlier, before, _, ⟨entry, last, _, rfl, rfl⟩, rfl⟩ := named
  exact ⟨earlier, entry.1, entry.2, rfl, before, last⟩

theorem accepted_snoc {raws : List RawHeader} {header : RawHeader} {headers : HeaderMap}
    (accepted : Accepted crates (raws ++ [header]) headers) :
    ∃ earlier name value, headers = earlier ++ [(name, value)] ∧ Accepted crates raws earlier ∧
      parsedHeader crates header = some (name, value) := by
  obtain ⟨named, ⟨length, declares⟩, codings⟩ := accepted
  obtain ⟨earlier, name, value, rfl, before, last⟩ := parsed_snoc named
  rw [values_of_snoc] at declares
  refine ⟨earlier, name, value, rfl, ⟨before, declares_before declares, ?_⟩, last⟩
  intro coding member
  apply codings coding
  rw [values_of_snoc]
  exact List.mem_append_left _ member

theorem header_loop_accepts {raws : List RawHeader} {headers : HeaderMap}
    (accepted : Accepted crates raws headers) :
    ∃ fields, raws.foldlM (headerStep crates) HeaderFields.empty = .ok fields := by
  induction raws using List.reverseRecOn generalizing headers with
  | nil => exact ⟨_, rfl⟩
  | append_singleton raws header ih =>
    obtain ⟨earlier, name, value, rfl, before, named⟩ := accepted_snoc accepted
    obtain ⟨fields, loop⟩ := ih before
    have collected := header_loop_collected loop
    have same : fields.headers = earlier :=
      Option.some.inj (collected.accepted.named.symm.trans before.named)
    obtain ⟨_, ⟨length, declares⟩, codings⟩ := accepted
    have lengthed : ∃ found, headerContentLength crates fields name value = .ok found := by
      by_cases isLength : name = .contentLength
      · rw [values_of_snoc, if_pos isLength] at declares
        obtain ⟨n, parsed, agree⟩ := declares_last (same ▸ collected.length) declares
        exact ⟨some n, header_content_length_ok_iff.mpr
          (by rw [if_pos isLength]; exact ⟨n, rfl, parsed, agree⟩)⟩
      · exact ⟨_, header_content_length_ok_iff.mpr (by rw [if_neg isLength])⟩
    have coded : ∃ found, headerChunked crates fields name value = .ok found := by
      by_cases isCoding : name = .transferEncoding
      · have isText := codings value (by rw [values_of_snoc, if_pos isCoding]; simp)
        exact ⟨_, header_chunked_ok_iff.mpr (by rw [if_pos isCoding]; exact ⟨isText, rfl⟩)⟩
      · exact ⟨_, header_chunked_ok_iff.mpr (by rw [if_neg isCoding])⟩
    obtain ⟨length', lengthed⟩ := lengthed
    obtain ⟨chunked, coded⟩ := coded
    exact ⟨⟨fields.headers ++ [(name, value)], length', chunked⟩,
      fold_snoc_ok_iff.mpr ⟨fields, loop,
        header_step_ok_iff.mpr ⟨name, value, named, rfl, lengthed, coded⟩⟩⟩

theorem parsed_header_received (keeps : KeepsHeaders crates) {raw : RawHeader}
    {entry : HeaderName × HeaderValue} (parsed : parsedHeader crates raw = some entry) :
    entry.1.name = raw.name.map toAsciiLowercase ∧
      entry.2 = ⟨trimOptionalWhitespace raw.value⟩ := by
  simp only [parsedHeader, Option.bind_eq_some_iff, Option.map_eq_some_iff] at parsed
  obtain ⟨name, named, value, valued, rfl⟩ := parsed
  have bytes := keeps.value_bytes _ value valued
  exact ⟨keeps.name_lower _ name named, by rw [← bytes]⟩

theorem values_received (keeps : KeepsHeaders crates) {raws : List RawHeader}
    {headers : HeaderMap} (named : raws.mapM (parsedHeader crates) = some headers)
    (name : HeaderName) : valuesOf name headers = receivedValues name raws := by
  induction raws generalizing headers with
  | nil =>
    simp only [List.mapM_nil, Option.pure_def, Option.some.injEq] at named
    subst named
    rfl
  | cons raw raws ih =>
    simp only [List.mapM_cons, Option.bind_eq_bind, Option.bind_eq_some_iff, Option.pure_def,
      Option.some.injEq] at named
    obtain ⟨entry, first, later, rest, rfl⟩ := named
    obtain ⟨lower, value⟩ := parsed_header_received keeps first
    have tail := ih rest
    have same : entry.1 = name ↔ raw.name.map toAsciiLowercase = name.name := by
      rw [← lower]
      obtain ⟨⟨_⟩, _⟩ := entry
      obtain ⟨_⟩ := name
      simp
    unfold valuesOf receivedValues at tail ⊢
    by_cases here : entry.1 = name
    · rw [List.filter_cons_of_pos (by simpa using here),
        List.filter_cons_of_pos (by simpa using same.mp here), List.map_cons, List.map_cons,
        tail, value]
    · rw [List.filter_cons_of_neg (by simpa using here),
        List.filter_cons_of_neg (by simpa using mt same.mpr here), tail]

theorem example_keeps : KeepsHeaders exampleCrates where
  name_lower := by
    intro raw name named
    cases named
    rfl
  value_bytes := by
    intro raw value valued
    simp only [exampleCrates] at valued
    split at valued
    · cases valued
      rfl
    · contradiction

end HeaderLists
