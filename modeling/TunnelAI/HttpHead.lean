import TunnelAI.Library.Fallible
import TunnelAI.StdText

/-!
The HTTP/1 request head: the limits, the errors with the responses they are
answered with, and the parser. What the `httparse` and `http` crates do with the
bytes of a head, a method, a header name and a header value is given by a record
of functions; the loop over the headers is the proxy's own. A `str` whose
characters do not matter is the list of its bytes.
-/
namespace HttpHead
open StreamReader Fallible StdText

def maxRequestLineBytes : Nat := 8 * 1024

def maxHeaderBytes : Nat := 64 * 1024

def maxHeaderCount : Nat := 100

def maxBodyBytes : Nat := 1024 * 1024

inductive HttpRequestError where
  | badRequest : String → HttpRequestError
  | headersTooLarge
  | payloadTooLarge
  | unsupportedChunked
  deriving DecidableEq

structure HttpErrorResponse where
  status : Nat
  reason : String
  body : String
  deriving DecidableEq

def HttpRequestError.response : HttpRequestError → HttpErrorResponse
  | .badRequest _ => ⟨400, "Bad Request", "bad request"⟩
  | .headersTooLarge =>
    ⟨431, "Request Header Fields Too Large", "request headers too large"⟩
  | .payloadTooLarge => ⟨413, "Payload Too Large", "payload too large"⟩
  | .unsupportedChunked =>
    ⟨501, "Not Implemented", "chunked request bodies are not supported"⟩

def toAsciiLowercase (byte : UInt8) : UInt8 :=
  if 0x41 ≤ byte ∧ byte ≤ 0x5a then byte + 0x20 else byte

structure Method where
  name : Bytes
  deriving DecidableEq

structure HeaderName where
  name : Bytes
  deriving DecidableEq

structure HeaderValue where
  bytes : Bytes
  deriving DecidableEq

def HeaderName.contentLength : HeaderName := ⟨text "content-length"⟩

def HeaderName.transferEncoding : HeaderName := ⟨text "transfer-encoding"⟩

/-- The entries as they were appended. The map itself keeps the values of one name
    together: its order between two names may be another one. -/
abbrev HeaderMap := List (HeaderName × HeaderValue)

structure RawHeader where
  name : Bytes
  value : Bytes
  deriving DecidableEq

structure RawRequest where
  method : Option Bytes
  path : Option Bytes
  version : Option UInt8
  headers : List RawHeader

inductive ParseFailure where
  | tooManyHeaders
  | other

structure HttpCrates where
  /-- `httparse::Request::parse` with this many header slots; `none` for a partial head. -/
  parseRequest : Nat → Bytes → Except ParseFailure (Option RawRequest)
  parseMethod : Bytes → Option Method
  headerName : Bytes → Option HeaderName
  headerValue : Bytes → Option HeaderValue
  toStr : HeaderValue → Option String
  canonicalReason : Nat → Option Bytes

structure ParsedHttpHead where
  method : Method
  target : Bytes
  headers : HeaderMap
  contentLength : Option Nat
  hasChunkedBody : Bool
  deriving DecidableEq

def trimOptionalWhitespace (value : Bytes) : Bytes :=
  ((value.dropWhile fun byte => byte == 0x20 || byte == 0x09).reverse.dropWhile
    fun byte => byte == 0x20 || byte == 0x09).reverse

def orBadRequest {α : Type} (value : Option α) (message : String) : Except HttpRequestError α :=
  match value with
  | some a => .ok a
  | none => .error (.badRequest message)

structure HeaderFields where
  headers : HeaderMap
  contentLength : Option Nat
  hasChunkedBody : Bool

def HeaderFields.empty : HeaderFields := ⟨[], none, false⟩

variable (crates : HttpCrates)

def completeRequest (head : Bytes) : Except HttpRequestError RawRequest :=
  match crates.parseRequest maxHeaderCount head with
  | .error .tooManyHeaders => .error .headersTooLarge
  | .error .other => .error (.badRequest "parse HTTP request head")
  | .ok none => .error (.badRequest "HTTP request ended early")
  | .ok (some request) => .ok request

def requestLine (request : RawRequest) : Except HttpRequestError (Method × Bytes) := do
  let name ← orBadRequest request.method "HTTP request line is missing method"
  let method ← orBadRequest (crates.parseMethod name) "parse HTTP method"
  let target ← orBadRequest request.path "HTTP request line is missing target"
  let version ← orBadRequest request.version "HTTP request line is missing version"
  require (version = 0 ∨ version = 1)
    (.badRequest s!"unsupported HTTP request version: HTTP/1.{version}")
  require (text "/" <+: target ∧ ¬ text "//" <+: target)
    (.badRequest "OpenAI proxy requires origin-form request target")
  return (method, target)

def parseContentLength (value : HeaderValue) : Except HttpRequestError Nat := do
  let s ← orBadRequest (crates.toStr value) "content-length is not valid text"
  let parsed ← orBadRequest (parseUsize s.toList) "parse content-length"
  require (parsed ≤ maxBodyBytes) HttpRequestError.payloadTooLarge
  return parsed

def listsChunked (value : String) : Bool :=
  (value.toList.splitOn ',').any fun encoding =>
    eqIgnoreAsciiCase (trim encoding) "chunked".toList

def headerContentLength (fields : HeaderFields) (name : HeaderName) (value : HeaderValue) :
    Except HttpRequestError (Option Nat) :=
  if name = .contentLength then do
    let parsed ← parseContentLength crates value
    require (∀ existing ∈ fields.contentLength, existing = parsed)
      (.badRequest "conflicting content-length headers")
    return some parsed
  else return fields.contentLength

def headerChunked (fields : HeaderFields) (name : HeaderName) (value : HeaderValue) :
    Except HttpRequestError Bool :=
  if name = .transferEncoding then do
    let s ← orBadRequest (crates.toStr value) "transfer-encoding is not valid text"
    return listsChunked s
  else return fields.hasChunkedBody

def headerStep (fields : HeaderFields) (header : RawHeader) :
    Except HttpRequestError HeaderFields := do
  let name ← orBadRequest (crates.headerName header.name) "parse HTTP header name"
  let value ← orBadRequest (crates.headerValue (trimOptionalWhitespace header.value))
    "parse HTTP header value"
  let contentLength ← headerContentLength crates fields name value
  let hasChunkedBody ← headerChunked crates fields name value
  return ⟨fields.headers ++ [(name, value)], contentLength, hasChunkedBody⟩

def parseHttpHead (head : Bytes) : Except HttpRequestError ParsedHttpHead := do
  let request ← completeRequest crates head
  let (method, target) ← requestLine crates request
  let fields ← request.headers.foldlM (headerStep crates) HeaderFields.empty
  return ⟨method, target, fields.headers, fields.contentLength, fields.hasChunkedBody⟩

def exampleHeader (line : Bytes) : RawHeader :=
  ⟨line.takeWhile (· != 0x3a), (line.dropWhile (· != 0x3a)).drop 1⟩

def isVisible (byte : UInt8) : Bool := (0x20 ≤ byte && byte < 0x7f) || byte == 0x09

/-- Enough of the crates for the plain heads of the examples, whose lines end in CRLF. -/
def exampleCrates : HttpCrates where
  parseRequest slots head :=
    match (head.splitOn 0x0a).map fun line => line.filter (· != 0x0d) with
    | line :: headers =>
      match line.splitOn 0x20 with
      | [method, path, version] =>
        let headers := (headers.takeWhile (· != [])).map exampleHeader
        if headers.length > slots then .error .tooManyHeaders
        else .ok (some ⟨some method, some path, version.getLast?.map (· - 0x30), headers⟩)
      | _ => .error .other
    | [] => .ok none
  parseMethod name := some ⟨name⟩
  headerName name := some ⟨name.map toAsciiLowercase⟩
  headerValue value := if value.all isVisible then some ⟨value⟩ else none
  toStr value := some (String.ofList (value.bytes.map fun byte => Char.ofNat byte.toNat))
  canonicalReason status := if status = 200 then some (text "OK") else none

end HttpHead
