import TunnelAI.Library.ResponseMessages
import TunnelAI.ProviderConfinement
import TunnelAI.ServerStream

/-!
Which headers are passed on, to the provider and back to the client: by name, all
the values received under it in their order, or none. Each direction has its own
fixed list of names that are kept back.
-/
namespace HeaderForwarding
open StreamReader Fallible StdText UrlReference ChunkedCoding ResponseMessages HttpHead HeaderLists
  HttpReaders ProviderUrl ProviderConfinement ResponseWriter ServerStream

/-- What the provider's client makes sure of: a status of three digits, header names
    and values that can stand on a line, and no blanks around a value. -/
structure FromProvider (response : ProviderResponse) : Prop where
  status : 100 ≤ response.status ∧ response.status < 1000
  fields : ∀ entry ∈ response.headers, Field entry.1.name entry.2.bytes
  lower : ∀ entry ∈ response.headers, entry.1.name.map toAsciiLowercase = entry.1.name
  trimmed : ∀ entry ∈ response.headers, trimBlanks entry.2.bytes = entry.2.bytes

def PlainReasons (crates : HttpCrates) : Prop :=
  ∀ status reason, crates.canonicalReason status = some reason → lf ∉ reason

def ownFields : List (Bytes × Bytes) :=
  [(text "connection", text "close"), (text "transfer-encoding", text "chunked")]

def passedFields (headers : HeaderMap) : List (Bytes × Bytes) :=
  (headers.filter fun entry => shouldForwardResponseHeader entry.1.name).map fun entry =>
    (entry.1.name, entry.2.bytes)

theorem erase_dups_nodup (names : List HeaderName) : names.eraseDups.Nodup := by
  induction size : names.length using Nat.strongRecOn generalizing names with
  | ind n ih =>
    cases names with
    | nil => simp
    | cons name names =>
      have smaller : (names.filter fun other => !other == name).length < n := by
        have bound := List.length_filter_le (fun other => !other == name) names
        rw [List.length_cons] at size
        omega
      rw [List.eraseDups_cons, List.nodup_cons, List.mem_eraseDups]
      exact ⟨by simp, ih _ smaller _ rfl⟩

theorem keys_nodup (headers : HeaderMap) : (keys headers).Nodup := erase_dups_nodup _

theorem values_of_append (name : HeaderName) (front back : HeaderMap) :
    valuesOf name (front ++ back) = valuesOf name front ++ valuesOf name back := by
  simp [valuesOf]

theorem values_of_one_name (wanted name : HeaderName) (values : List HeaderValue) :
    valuesOf wanted (values.map fun value => (name, value)) =
      if name = wanted then values else [] := by
  by_cases same : name = wanted
  · simp [valuesOf, same, List.filter_map, Function.comp_def]
  · simp [valuesOf, same, List.filter_map, Function.comp_def]

theorem values_of_attached {names : List HeaderName} (once : names.Nodup)
    (values : HeaderName → List HeaderValue) (wanted : HeaderName) :
    valuesOf wanted (names.flatMap fun name => (values name).map fun value => (name, value)) =
      if wanted ∈ names then values wanted else [] := by
  induction names with
  | nil => rfl
  | cons name names ih =>
    obtain ⟨absent, rest⟩ := List.nodup_cons.mp once
    rw [List.flatMap_cons, values_of_append, values_of_one_name, ih rest]
    by_cases same : name = wanted
    · subst same
      simp [absent]
    · simp [same, Ne.symm same]

theorem attached_values (name : HeaderName) (headers : HeaderMap) :
    valuesOf name (attachedHeaders headers) =
      if shouldForwardRequestHeader name.name then valuesOf name headers else [] := by
  have shape : attachedHeaders headers = (keys headers).flatMap fun name =>
      (if shouldForwardRequestHeader name.name then valuesOf name headers else []).map
        fun value => (name, value) := by
    unfold attachedHeaders
    congr
    funext name
    split <;> rfl
  rw [shape, values_of_attached (keys_nodup headers)]
  by_cases known : name ∈ keys headers
  · rw [if_pos known]
  · have absent : valuesOf name headers = [] := by
      rw [valuesOf, List.map_eq_nil_iff, List.filter_eq_nil_iff]
      intro entry member same
      apply known
      rw [keys, List.mem_eraseDups]
      exact List.mem_map.mpr ⟨entry, member, by simpa using same⟩
    rw [if_neg known, absent, ite_self]

variable {crates : HttpCrates} {urls : UrlCrate} {base : Url}

theorem request_values (keeps : KeepsHeaders crates) {head body : Bytes} {raw : RawRequest}
    {parsed : ParsedHttpHead} {sent : ProviderRequest}
    (received : completeRequest crates head = .ok raw)
    (parses : parseHttpHead crates head = .ok parsed)
    (builds : providerRequestBuilder urls base
      ⟨parsed.method, parsed.target, parsed.headers, body⟩ = .ok sent) (name : HeaderName) :
    valuesOf name sent.headers =
      if shouldForwardRequestHeader name.name then receivedValues name raw.headers else [] := by
  unfold parseHttpHead at parses
  rw [received, ok_bind] at parses
  obtain ⟨⟨method, target⟩, _, parses⟩ := bind_ok parses
  obtain ⟨fields, loop, parses⟩ := bind_ok parses
  cases parses
  obtain ⟨url, _, builds⟩ := bind_ok builds
  cases builds
  have collected := header_loop_collected loop
  rw [attached_values, values_received keeps collected.accepted.named]

theorem decimal_three {status : Nat} (low : 100 ≤ status) (high : status < 1000) :
    decimal status = statusDigits status := by
  have repr : toString status = String.ofList [Nat.digitChar (status / 10 / 10),
      Nat.digitChar (status / 10 % 10), Nat.digitChar (status % 10)] := by
    rw [Nat.toString_eq_ofList_toDigits, Nat.toDigits_of_base_le (by decide) (by omega),
      Nat.toDigits_of_base_le (by decide) (by omega), Nat.toDigits_of_lt_base (by omega)]
    rfl
  have digits : ∀ d : Fin 10, (Nat.digitChar d.val).toNat = 0x30 + d.val := by decide
  have digit : ∀ d, d < 10 → (Nat.digitChar d).toNat = 0x30 + d := fun d small =>
    digits ⟨d, small⟩
  have first := digit (status / 10 / 10) (by omega)
  have second := digit (status / 10 % 10) (by omega)
  have third := digit (status % 10) (by omega)
  have hundreds : status / 10 / 10 = status / 100 := Nat.div_div_eq_div_mul status 10 10
  rw [decimal, repr, text_ascii, statusDigits, ← hundreds]
  · simp only [List.map_cons, List.map_nil, first, second, third]
  · intro c member
    simp only [List.mem_cons, List.not_mem_nil, or_false] at member
    rcases member with rfl | rfl | rfl
    · omega
    · omega
    · omega

theorem passed_lines {response : ProviderResponse} (valid : FromProvider response) :
    response.headers.flatMap headerLine =
      (passedFields response.headers).flatMap fun field => fieldLine field.1 field.2 := by
  have separator : text ": " = [colon, space] := by decide
  have lower := valid.lower
  generalize response.headers = headers at lower
  induction headers with
  | nil => rfl
  | cons entry headers ih =>
    have tail := ih fun other member => lower other (List.mem_cons_of_mem entry member)
    rw [List.flatMap_cons, tail, headerLine, lower entry List.mem_cons_self, separator]
    unfold passedFields
    by_cases forwarded : shouldForwardResponseHeader entry.1.name = true
    · rw [if_pos forwarded, List.filter_cons, if_pos forwarded]
      rfl
    · rw [if_neg forwarded, List.filter_cons, if_neg forwarded]
      rfl

theorem response_head_bytes {response : ProviderResponse} (valid : FromProvider response) :
    responseHead crates response =
      headBytes (statusDigits response.status) ((crates.canonicalReason response.status).getD [])
        (passedFields response.headers ++ ownFields) := by
  have own : ownFields.flatMap (fun field => fieldLine field.1 field.2) =
      text "connection: close\r\n" ++ text "transfer-encoding: chunked\r\n" := by decide
  have gap : text " " = [space] := by decide
  rw [responseHead, passed_lines valid, statusLine, decimal_three valid.status.1 valid.status.2,
    headBytes, List.flatMap_append, own, gap]
  simp only [List.append_assoc]

theorem fields_read {response : ProviderResponse} (valid : FromProvider response) :
    (passedFields response.headers ++ ownFields).map readField =
      passedFields response.headers ++ ownFields := by
  have own : ownFields.map readField = ownFields := by decide
  rw [List.map_append, own, List.append_cancel_right_eq]
  conv_rhs => rw [← List.map_id (passedFields response.headers)]
  apply List.map_congr_left
  intro field member
  obtain ⟨entry, kept, rfl⟩ := List.mem_map.mp member
  have received := (List.mem_filter.mp kept).1
  exact Prod.ext (valid.lower entry received) (valid.trimmed entry received)

theorem head_parses (reasons : PlainReasons crates) {response : ProviderResponse}
    (valid : FromProvider response) (rest : Bytes) :
    parseHead (responseHead crates response ++ rest) =
      some (⟨response.status, passedFields response.headers ++ ownFields⟩, rest) := by
  have unbroken : lf ∉ (crates.canonicalReason response.status).getD [] := by
    cases known : crates.canonicalReason response.status with
    | none => simp
    | some reason => exact reasons _ reason known
  have fields : ∀ field ∈ passedFields response.headers ++ ownFields, Field field.1 field.2 := by
    intro field member
    rcases List.mem_append.mp member with passed | own
    · obtain ⟨entry, kept, rfl⟩ := List.mem_map.mp passed
      exact valid.fields entry (List.mem_filter.mp kept).1
    · simp only [ownFields, List.mem_cons, List.not_mem_nil, or_false] at own
      rcases own with rfl | rfl
      · exact ⟨by decide, by decide, by decide⟩
      · exact ⟨by decide, by decide, by decide⟩
  rw [response_head_bytes valid, parse_head_bytes valid.status.2 unbroken fields,
    fields_read valid]

theorem field_values_append (name : Bytes) (front back : List (Bytes × Bytes)) :
    fieldValues name (front ++ back) = fieldValues name front ++ fieldValues name back := by
  simp [fieldValues]

theorem values_of_cons (name : HeaderName) (entry : HeaderName × HeaderValue)
    (headers : HeaderMap) :
    valuesOf name (entry :: headers) =
      (if entry.1 = name then [entry.2] else []) ++ valuesOf name headers := by
  by_cases same : entry.1 = name <;> simp [valuesOf, same]

theorem passed_fields_cons (entry : HeaderName × HeaderValue) (headers : HeaderMap) :
    passedFields (entry :: headers) =
      (if shouldForwardResponseHeader entry.1.name then [(entry.1.name, entry.2.bytes)] else []) ++
        passedFields headers := by
  by_cases forwarded : shouldForwardResponseHeader entry.1.name = true <;>
    simp [passedFields, forwarded]

theorem passed_values (name : Bytes) (headers : HeaderMap) :
    fieldValues name (passedFields headers) =
      if shouldForwardResponseHeader name then (valuesOf ⟨name⟩ headers).map HeaderValue.bytes
      else [] := by
  induction headers with
  | nil => simp [fieldValues, passedFields, valuesOf]
  | cons entry headers ih =>
    obtain ⟨⟨other⟩, value⟩ := entry
    rw [passed_fields_cons, field_values_append, ih, values_of_cons]
    by_cases same : other = name
    · subst same
      by_cases forwarded : shouldForwardResponseHeader other = true
      · simp [forwarded, fieldValues]
      · simp [forwarded, fieldValues]
    · by_cases forwarded : shouldForwardResponseHeader other = true
      · simp [forwarded, fieldValues, same]
      · simp [forwarded, fieldValues, same]

theorem response_values (name : Bytes) (headers : HeaderMap) :
    fieldValues name (passedFields headers ++ ownFields) =
      if shouldForwardResponseHeader name then (valuesOf ⟨name⟩ headers).map HeaderValue.bytes
      else fieldValues name ownFields := by
  rw [field_values_append, passed_values]
  split
  · rename_i forwarded
    have other : fieldValues name ownFields = [] := by
      have connection : text "connection" ≠ name := by
        intro same
        rw [← same] at forwarded
        exact absurd forwarded (by decide)
      have coding : text "transfer-encoding" ≠ name := by
        intro same
        rw [← same] at forwarded
        exact absurd forwarded (by decide)
      simp [fieldValues, ownFields, connection, coding]
    rw [other, List.append_nil]
  · rfl

theorem response_begins (response : ProviderResponse) (firstChunk : Option Bytes) :
    ∃ rest, written (writeHttpResponse crates response firstChunk) =
      responseHead crates response ++ rest :=
  ⟨_, written_bind (writes_head_bytes response)⟩

/-- Both directions keep every value of the names outside their fixed lists, in
    order, and none of the names on them; a response gets the writer's own
    Connection and Transfer-Encoding and nothing else. -/
theorem headers_preserved (keeps : KeepsHeaders crates) (reasons : PlainReasons crates) :
    (∀ head body raw parsed sent, completeRequest crates head = .ok raw →
      parseHttpHead crates head = .ok parsed →
      providerRequestBuilder urls base ⟨parsed.method, parsed.target, parsed.headers, body⟩ =
        .ok sent →
      ∀ name, valuesOf name sent.headers =
        if shouldForwardRequestHeader name.name then receivedValues name raw.headers else []) ∧
    ∀ response firstChunk, FromProvider response →
      ∃ fields rest, parseHead (written (writeHttpResponse crates response firstChunk)) =
          some (⟨response.status, fields⟩, rest) ∧
        (∀ name, shouldForwardResponseHeader name = true →
          fieldValues name fields = (valuesOf ⟨name⟩ response.headers).map HeaderValue.bytes) ∧
        (∀ name, shouldForwardResponseHeader name = false → name ≠ text "connection" →
          name ≠ text "transfer-encoding" → fieldValues name fields = []) ∧
        fieldValues (text "connection") fields = [text "close"] ∧
        fieldValues (text "transfer-encoding") fields = [text "chunked"] ∧
        fieldValues (text "content-length") fields = [] := by
  constructor
  · intro head body raw parsed sent received parses builds name
    exact request_values keeps received parses builds name
  · intro response firstChunk valid
    obtain ⟨rest, whole⟩ := @response_begins crates response firstChunk
    refine ⟨_, rest, by rw [whole, head_parses reasons valid], ?_, ?_, ?_, ?_, ?_⟩
    · intro name forwarded
      rw [response_values, if_pos forwarded]
    · intro name kept connection coding
      rw [response_values, kept, if_neg (by simp)]
      simp [fieldValues, ownFields, Ne.symm connection, Ne.symm coding]
    · rw [response_values]
      rfl
    · rw [response_values]
      rfl
    · rw [response_values]
      rfl

theorem example_reasons : PlainReasons exampleCrates := by
  intro status reason known
  simp only [exampleCrates] at known
  split at known
  · cases known
    decide
  · contradiction

def repeatedHead : Bytes :=
  text "GET /chat/completions HTTP/1.1\r\nX-Trace: a\r\nConnection: close\r\nx-trace: b\r\n\r\n"

def repeatedResponse : ProviderResponse :=
  ⟨200, [(⟨text "x-trace"⟩, ⟨text "a"⟩), (⟨text "connection"⟩, ⟨text "close"⟩),
    (⟨text "x-trace"⟩, ⟨text "b"⟩)], [text "data"], false⟩

theorem example_from_provider : FromProvider repeatedResponse where
  status := by decide
  fields := by
    intro entry member
    simp only [repeatedResponse, List.mem_cons, List.not_mem_nil, or_false] at member
    rcases member with rfl | rfl | rfl
    · exact ⟨by decide, by decide, by decide⟩
    · exact ⟨by decide, by decide, by decide⟩
    · exact ⟨by decide, by decide, by decide⟩
  lower := by decide
  trimmed := by decide

theorem headers_preserved_example :
    (∃ parsed sent, parseHttpHead exampleCrates repeatedHead = .ok parsed ∧
      providerRequestBuilder exampleUrlCrate exampleBase
        ⟨parsed.method, parsed.target, parsed.headers, []⟩ = .ok sent ∧
      valuesOf ⟨text "x-trace"⟩ sent.headers = [⟨text "a"⟩, ⟨text "b"⟩] ∧
      valuesOf ⟨text "connection"⟩ sent.headers = []) ∧
    ∃ fields rest,
      parseHead (written (writeHttpResponse exampleCrates repeatedResponse none)) =
        some (⟨200, fields⟩, rest) ∧
      fieldValues (text "x-trace") fields = [text "a", text "b"] := by
  obtain ⟨requests, responses⟩ := @headers_preserved exampleCrates exampleUrlCrate exampleBase
    example_keeps example_reasons
  constructor
  · have parses : ∃ raw parsed, completeRequest exampleCrates repeatedHead = .ok raw ∧
        parseHttpHead exampleCrates repeatedHead = .ok parsed ∧
        parsed.target = text "/chat/completions" ∧
        receivedValues ⟨text "x-trace"⟩ raw.headers = [⟨text "a"⟩, ⟨text "b"⟩] := by
      refine ⟨_, _, rfl, rfl, ?_, ?_⟩ <;> decide
    obtain ⟨raw, parsed, received, parses, target, trace⟩ := parses
    obtain ⟨url, found, _⟩ := example_url
    have builds : providerRequestBuilder exampleUrlCrate exampleBase
        ⟨parsed.method, parsed.target, parsed.headers, []⟩ =
          .ok ⟨parsed.method, url, attachedHeaders parsed.headers, []⟩ := by
      rw [providerRequestBuilder, target, found]
      rfl
    have values := requests repeatedHead [] raw parsed _ received parses builds
    exact ⟨parsed, _, parses, builds, (values ⟨text "x-trace"⟩).trans trace,
      values ⟨text "connection"⟩⟩
  · obtain ⟨fields, rest, parses, passed, _⟩ :=
      responses repeatedResponse none example_from_provider
    exact ⟨fields, rest, parses, passed (text "x-trace") (by decide)⟩

/-- The header names in the list of one Connection value. -/
def nominatedNames (value : Bytes) : List Bytes :=
  (value.splitOn comma).map fun token => (trimBlanks token).map toLower

def Nominates (headers : HeaderMap) (name : HeaderName) : Prop :=
  ∃ value ∈ valuesOf ⟨text "connection"⟩ headers, name.name ∈ nominatedNames value.bytes

/-- Every header that a message nominates and has is on a fixed list. -/
def NominatesListed (shouldForward : Bytes → Bool) (headers : HeaderMap) : Prop :=
  ∀ name, Nominates headers name → valuesOf name headers ≠ [] → shouldForward name.name = false

theorem nominated_iff {β : Type} {headers : HeaderMap} {shouldForward : Bytes → Bool}
    {sent : HeaderName → List β} {write : HeaderValue → β}
    (values : ∀ name, sent name =
      if shouldForward name.name then (valuesOf name headers).map write else []) :
    (∀ name, Nominates headers name → sent name = []) ↔ NominatesListed shouldForward headers := by
  constructor
  · intro kept name nominated present
    have none := kept name nominated
    rw [values] at none
    cases forwarded : shouldForward name.name with
    | false => rfl
    | true =>
      rw [if_pos forwarded, List.map_eq_nil_iff] at none
      exact absurd none present
  · intro listed name nominated
    rw [values]
    split
    · rename_i forwarded
      by_cases present : valuesOf name headers = []
      · rw [present, List.map_nil]
      · rw [listed name nominated present] at forwarded
        contradiction
    · rfl

theorem request_nominated_iff (headers : HeaderMap) :
    (∀ name, Nominates headers name → valuesOf name (attachedHeaders headers) = []) ↔
      NominatesListed shouldForwardRequestHeader headers := by
  have values : ∀ name, valuesOf name (attachedHeaders headers) =
      if shouldForwardRequestHeader name.name then (valuesOf name headers).map id else [] := by
    intro name
    rw [attached_values, List.map_id]
  exact nominated_iff values

theorem response_nominated_iff (headers : HeaderMap) :
    (∀ name, Nominates headers name → fieldValues name.name (passedFields headers) = []) ↔
      NominatesListed shouldForwardResponseHeader headers :=
  nominated_iff fun name => passed_values name.name headers

/-- In both directions the nominated headers are kept back exactly when the fixed
    list has the names of all that the message has; the fields of a response's head
    are those passed on and then the writer's own. -/
theorem nominated_headers_iff (reasons : PlainReasons crates) :
    (∀ request sent, providerRequestBuilder urls base request = .ok sent →
      ((∀ name, Nominates request.headers name → valuesOf name sent.headers = []) ↔
        NominatesListed shouldForwardRequestHeader request.headers)) ∧
    ∀ response firstChunk, FromProvider response →
      ∃ fields rest, parseHead (written (writeHttpResponse crates response firstChunk)) =
          some (⟨response.status, fields ++ ownFields⟩, rest) ∧
        ((∀ name, Nominates response.headers name → fieldValues name.name fields = []) ↔
          NominatesListed shouldForwardResponseHeader response.headers) := by
  constructor
  · intro request sent builds
    obtain ⟨url, _, builds⟩ := bind_ok builds
    cases builds
    exact request_nominated_iff request.headers
  · intro response firstChunk valid
    obtain ⟨rest, whole⟩ := @response_begins crates response firstChunk
    exact ⟨passedFields response.headers, rest, by rw [whole, head_parses reasons valid],
      response_nominated_iff response.headers⟩

def nominatingHeaders : HeaderMap :=
  [(⟨text "connection"⟩, ⟨text "close, X-Session"⟩), (⟨text "x-session"⟩, ⟨text "1"⟩)]

theorem nominating : Nominates nominatingHeaders ⟨text "x-session"⟩ :=
  ⟨⟨text "close, X-Session"⟩, by decide, by decide⟩

def nominatingRequest : OpenAiHttpRequest :=
  ⟨⟨text "GET"⟩, text "/chat/completions", nominatingHeaders, []⟩

def nominatingResponse : ProviderResponse := ⟨200, nominatingHeaders, [text "data"], false⟩

theorem nominating_from_provider : FromProvider nominatingResponse where
  status := by decide
  fields := by
    intro entry member
    simp only [nominatingResponse, nominatingHeaders, List.mem_cons, List.not_mem_nil,
      or_false] at member
    rcases member with rfl | rfl
    · exact ⟨by decide, by decide, by decide⟩
    · exact ⟨by decide, by decide, by decide⟩
  lower := by decide
  trimmed := by decide

theorem nominating_builds : ∃ url,
    providerRequestBuilder exampleUrlCrate exampleBase nominatingRequest =
      .ok ⟨⟨text "GET"⟩, url, attachedHeaders nominatingHeaders, []⟩ := by
  obtain ⟨url, found, _⟩ := example_url
  refine ⟨url, ?_⟩
  rw [providerRequestBuilder, nominatingRequest, found]
  rfl

theorem nominated_headers_example :
    ∃ sent, providerRequestBuilder exampleUrlCrate exampleBase nominatingRequest = .ok sent ∧
      ((∀ name, Nominates nominatingHeaders name → valuesOf name sent.headers = []) ↔
        NominatesListed shouldForwardRequestHeader nominatingHeaders) := by
  obtain ⟨url, builds⟩ := nominating_builds
  exact ⟨_, builds, (@nominated_headers_iff exampleCrates exampleUrlCrate exampleBase
    example_reasons).1 nominatingRequest _ builds⟩

/-- A nominated header is sent on to the provider, and one to the client. -/
theorem nominated_sent :
    (∃ sent, providerRequestBuilder exampleUrlCrate exampleBase nominatingRequest = .ok sent ∧
      Nominates nominatingHeaders ⟨text "x-session"⟩ ∧
      valuesOf ⟨text "x-session"⟩ sent.headers = [⟨text "1"⟩]) ∧
    ∃ fields rest,
      parseHead (written (writeHttpResponse exampleCrates nominatingResponse none)) =
        some (⟨200, fields⟩, rest) ∧
      Nominates nominatingResponse.headers ⟨text "x-session"⟩ ∧
      fieldValues (text "x-session") fields = [text "1"] := by
  constructor
  · obtain ⟨url, builds⟩ := nominating_builds
    exact ⟨_, builds, nominating, by rw [attached_values]; decide⟩
  · obtain ⟨rest, whole⟩ := @response_begins exampleCrates nominatingResponse none
    exact ⟨_, rest, by rw [whole, head_parses example_reasons nominating_from_provider]; rfl,
      nominating, by rw [response_values]; decide⟩

end HeaderForwarding
