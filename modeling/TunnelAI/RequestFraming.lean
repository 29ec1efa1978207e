import TunnelAI.HeaderLists
import TunnelAI.HttpReaders

/-!
Which requests the server takes for chunked. Every Transfer-Encoding field sets
the flag anew, so the last one decides.
-/
namespace RequestFraming
open StreamReader BufferedReader Fallible HttpHead HeaderLists HttpReaders

variable (crates : HttpCrates)

def isTransferEncoding (header : RawHeader) : Bool :=
  crates.headerName header.name == some .transferEncoding

def fieldListsChunked (header : RawHeader) : Bool :=
  (crates.headerValue (trimOptionalWhitespace header.value)).any (listed crates)

structure GoodRequestLine (raw : RawRequest) : Prop where
  method : ∃ name, raw.method = some name ∧ (crates.parseMethod name).isSome = true
  target : ∃ path, raw.path = some path ∧ text "/" <+: path ∧ ¬ text "//" <+: path
  version : raw.version = some 0 ∨ raw.version = some 1

/-- A request that nothing but its framing can be refused for. -/
def WellFormed (raw : RawRequest) : Prop :=
  GoodRequestLine crates raw ∧ ∃ headers, Accepted crates raw.headers headers

def lastListsChunked (headers : List RawHeader) : Bool :=
  (headers.filter (isTransferEncoding crates)).getLast?.any (fieldListsChunked crates)

variable {crates}

theorem request_line_ok_iff {raw : RawRequest} :
    (∃ line, requestLine crates raw = .ok line) ↔ GoodRequestLine crates raw := by
  unfold requestLine
  simp only [bind_ok_iff, or_bad_request_ok_iff, require_ok_iff]
  constructor
  · intro h
    obtain ⟨line, name, named, method, parsed, target, targeted, version, versioned, _, supported,
      _, origin, _⟩ := h
    refine ⟨⟨name, named, by rw [parsed]; rfl⟩, ⟨target, targeted, origin⟩, ?_⟩
    rw [versioned, Option.some.injEq, Option.some.injEq]
    exact supported
  · intro good
    obtain ⟨⟨name, named, valid⟩, ⟨target, targeted, origin⟩, versioned⟩ := good
    obtain ⟨method, parsed⟩ := Option.isSome_iff_exists.mp valid
    rcases versioned with versioned | versioned
    · exact ⟨(method, target), name, named, method, parsed, target, targeted, 0, versioned, (),
        Or.inl rfl, (), origin, rfl⟩
    · exact ⟨(method, target), name, named, method, parsed, target, targeted, 1, versioned, (),
        Or.inr rfl, (), origin, rfl⟩

theorem last_lists_chunked {raws : List RawHeader} {headers : HeaderMap}
    (named : raws.mapM (parsedHeader crates) = some headers) :
    (valuesOf .transferEncoding headers).getLast?.any (listed crates) =
      lastListsChunked crates raws := by
  induction raws using List.reverseRecOn generalizing headers with
  | nil =>
    cases named
    rfl
  | append_singleton raws header ih =>
    obtain ⟨earlier, name, value, rfl, before, last⟩ := parsed_snoc named
    simp only [parsedHeader, Option.bind_eq_some_iff, Option.map_eq_some_iff, Prod.mk.injEq] at last
    obtain ⟨field, found, value, valued, rfl, rfl⟩ := last
    rw [values_of_snoc, lastListsChunked, List.filter_append]
    by_cases coding : field = .transferEncoding
    · subst coding
      simp [isTransferEncoding, fieldListsChunked, found, valued]
    · have other : isTransferEncoding crates header = false := by
        simp [isTransferEncoding, found, coding]
      rw [if_neg coding, List.append_nil, ih before, List.filter_singleton, other]
      simp [lastListsChunked]

theorem parse_http_head_ok_iff {head : Bytes} {raw : RawRequest}
    (complete : crates.parseRequest maxHeaderCount head = .ok (some raw)) :
    (∃ parsed, parseHttpHead crates head = .ok parsed) ↔ WellFormed crates raw := by
  have request : completeRequest crates head = .ok raw := by
    unfold completeRequest
    rw [complete]
  simp only [parseHttpHead, request, ok_bind, bind_ok_iff]
  constructor
  · intro h
    obtain ⟨_, line, named, fields, loop, _⟩ := h
    exact ⟨request_line_ok_iff.mp ⟨line, named⟩, _, (header_loop_collected loop).accepted⟩
  · intro good
    obtain ⟨⟨line, named⟩, headers, accepted⟩ := And.imp_left request_line_ok_iff.mpr good
    obtain ⟨fields, loop⟩ := header_loop_accepts accepted
    exact ⟨_, line, named, fields, loop, rfl⟩

theorem parse_http_head_chunked {head : Bytes} {raw : RawRequest} {parsed : ParsedHttpHead}
    (complete : crates.parseRequest maxHeaderCount head = .ok (some raw))
    (h : parseHttpHead crates head = .ok parsed) :
    parsed.hasChunkedBody = lastListsChunked crates raw.headers := by
  have request : completeRequest crates head = .ok raw := by
    unfold completeRequest
    rw [complete]
  simp only [parseHttpHead, request, ok_bind] at h
  obtain ⟨line, named, h⟩ := bind_ok h
  obtain ⟨fields, loop, h⟩ := bind_ok h
  cases h
  have collected := header_loop_collected loop
  rw [collected.chunked, last_lists_chunked collected.accepted.named]

/-- No request of this head gets through with a body that is not framed by its chunks. -/
def NeverSlips (crates : HttpCrates) (head : Bytes) : Prop :=
  (∀ parsed, parseHttpHead crates head = .ok parsed → parsed.hasChunkedBody = true) ∧
    ∀ recv reader, readHttpHead recv = .ok (head, reader) →
      ∀ request, readHttpRequest crates recv ≠ .ok request

theorem flagged_never_slips {head : Bytes}
    (flagged : ∀ parsed, parseHttpHead crates head = .ok parsed → parsed.hasChunkedBody = true) :
    NeverSlips crates head := by
  refine ⟨flagged, ?_⟩
  intro recv reader read request accepted
  simp only [readHttpRequest, read, ok_bind] at accepted
  obtain ⟨parsed, parses, accepted⟩ := bind_ok accepted
  obtain ⟨_, plain, _⟩ := bind_ok accepted
  rw [require_ok_iff, flagged parsed parses] at plain
  contradiction

def ListsSomewhere (crates : HttpCrates) (raw : RawRequest) : Prop :=
  ∃ header ∈ raw.headers, isTransferEncoding crates header = true ∧
    fieldListsChunked crates header = true

def Finds (crates : HttpCrates) (head : Bytes) (raw : RawRequest) : Prop :=
  crates.parseRequest maxHeaderCount head = .ok (some raw)

/-- A head that lists `chunked` somewhere is held back exactly when the last
    Transfer-Encoding field lists it, or when the head is refused anyway. -/
theorem chunked_never_slips_iff (head : Bytes) :
    (∀ raw, Finds crates head raw → ListsSomewhere crates raw → NeverSlips crates head) ↔
      ∀ raw, Finds crates head raw → ListsSomewhere crates raw → WellFormed crates raw →
        lastListsChunked crates raw.headers = true := by
  constructor
  · intro never raw complete lists good
    obtain ⟨parsed, parses⟩ := (parse_http_head_ok_iff complete).mpr good
    rw [← parse_http_head_chunked complete parses]
    exact (never raw complete lists).1 parsed parses
  · intro decided raw complete lists
    apply flagged_never_slips
    intro parsed parses
    rw [parse_http_head_chunked complete parses]
    exact decided raw complete lists ((parse_http_head_ok_iff complete).mp ⟨parsed, parses⟩)

/-- A second Transfer-Encoding field takes the flag back. -/
def slippingHead : Bytes :=
  text "POST /v1 HTTP/1.1\r\nTransfer-Encoding: chunked\r\nTransfer-Encoding: gzip\r\n\r\n"

theorem chunked_slips :
    ∃ raw, Finds exampleCrates slippingHead raw ∧ ListsSomewhere exampleCrates raw ∧
      ∃ recv request, recv.contents = slippingHead ∧
        readHttpRequest exampleCrates recv = .ok request ∧ request.body = [] := by
  have lists : ∃ raw, Finds exampleCrates slippingHead raw ∧
      ListsSomewhere exampleCrates raw := ⟨_, rfl, by unfold ListsSomewhere; decide⟩
  obtain ⟨raw, found, lists⟩ := lists
  have parses : ∃ parsed, parseHttpHead exampleCrates slippingHead = .ok parsed ∧
      parsed.hasChunkedBody = false ∧ parsed.contentLength = none := by
    refine ⟨_, rfl, ?_, ?_⟩ <;> decide
  obtain ⟨parsed, parses, plain, none⟩ := parses
  have whole : flatHead slippingHead = .ok (slippingHead, []) := by decide
  have delivers : (BufReader.new [⟨slippingHead, by decide⟩]).contents = slippingHead ++ [] := by
    decide
  have read := read_request_whole whole parses (by rw [plain, none]; rfl) delivers
  rw [plain, if_neg (by simp)] at read
  exact ⟨raw, found, lists, _, _, by decide, read, rfl⟩

end RequestFraming
