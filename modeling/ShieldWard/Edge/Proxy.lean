import ShieldWard.Edge.Bundle
import ShieldWard.Edge.Headers
import ShieldWard.Edge.Transport

/-!
# The upstream request

`edge/src/proxy.ts`: what is sent to an upstream for a request and its route, and what is
passed on of the answer. An error is the text of the exception.
-/

namespace ShieldWard.Edge

open Ecma Bytes

/-- A request to the edge. -/
structure IncomingRequest where
  method : String
  url : Url
  headers : Headers
  hasBody : Bool

structure UpstreamRequest where
  method : String
  url : Url
  headers : Headers
  body : Option Bytes

structure UpstreamResponse where
  status : ℕ
  statusText : String
  headers : Headers
  hasBody : Bool

def HOP_BY_HOP_HEADERS : List String :=
  ["connection", "keep-alive", "proxy-authenticate", "proxy-authorization", "te", "trailer",
    "transfer-encoding", "upgrade"]

def DEFAULT_UPSTREAM_TIMEOUT_MS : Number := 10000

/-- `HEADER_NAME_PATTERN`. -/
def isHeaderName (name : String) : Bool :=
  name.toList ≠ [] && name.toList.all fun c =>
    c.isDigit || ('A' ≤ c && c ≤ 'Z') || ('a' ≤ c && c ≤ 'z') || c ∈ "!#$%&'*+-.^_`|~".toList

/-- A header value without white space at its ends, as `headers.set` stores it. -/
def normalizeHeaderValue (value : String) : String :=
  let isHttpSpace := fun c : Char => c = '\t' || c = '\n' || c = '\r' || c = ' '
  String.ofList ((value.toList.dropWhile isHttpSpace).rdropWhile isHttpSpace)

/-- What `headers.set` accepts as a value. -/
def isHeaderValue (value : String) : Bool :=
  value.toList.all fun c => c.toNat ≤ 0xff && c ≠ '\x00' && c ≠ '\r' && c ≠ '\n'

/-- `headers.set` with a value that is not known to be valid. -/
def setHeader (name value : String) (headers : Headers) : Except String Headers :=
  let value := normalizeHeaderValue value
  if isHeaderValue value then .ok (headers.set name value) else .error "invalid header value"

/-- Methods that `new Request` refuses. -/
def isForbiddenMethod (method : String) : Bool :=
  method.toList.map Char.toUpper ∈ ["CONNECT".toList, "TRACE".toList, "TRACK".toList]

def buildUpstreamUrl (P : Platform) (upstream : String) (incomingUrl : Url) :
    Except String Url :=
  match P.parseUrl upstream with
  | none => .error "Invalid URL"
  | some targetUrl =>
    if targetUrl.protocol ≠ "http:" ∧ targetUrl.protocol ≠ "https:" then
      .error "upstream must use HTTP or HTTPS"
    else if targetUrl.username ≠ "" ∨ targetUrl.password ≠ "" then
      .error "upstream must not contain credentials"
    else if !usesSecureTransport targetUrl then
      .error "upstream must use HTTPS unless it targets loopback"
    else
      let upstreamPath :=
        if targetUrl.pathname = "/" then ""
        else String.ofList (targetUrl.pathname.toList.rdropWhile (· = '/'))
      let joined := upstreamPath ++ incomingUrl.pathname
      let pathname := P.pathnameOf (if joined = "" then "/" else joined)
      .ok { targetUrl with
            pathname := pathname.1
            search := P.searchOf incomingUrl.search
            hash := ""
            pathname_printable := pathname.2 }

def sanitizeHeaders (source : Headers) : Headers :=
  let nominated :=
    match source.get "connection" with
    | none => []
    | some connection =>
      ((connection.toList.splitOn ',').map fun value => trim (String.ofList value)).filter
        isHeaderName
  (nominated ++ HOP_BY_HOP_HEADERS).foldl Headers.delete source

/-- Headers that the edge sets itself, or that must not reach an upstream. -/
def REPLACED_HEADERS : List String :=
  ["host", "content-length", "accept-encoding", "forwarded", "x-forwarded-for",
    "x-forwarded-host", "x-forwarded-proto", "x-real-ip", "x-request-id"]

def createUpstreamHeaders (source : Headers) (incomingUrl : Url) (clientIp : Option String)
    (requestId : String) : Except String Headers := do
  let headers := REPLACED_HEADERS.foldl Headers.delete (sanitizeHeaders source)
  let headers := headers.set "x-forwarded-host" incomingUrl.host
  let headers :=
    headers.set "x-forwarded-proto" (String.ofList incomingUrl.protocol.toList.dropLast)
  let headers ←
    match clientIp with
    | none => .ok headers
    | some clientIp =>
      if isBlank clientIp then .ok headers
      else setHeader "x-forwarded-for" clientIp headers >>= setHeader "x-real-ip" clientIp
  setHeader "x-request-id" requestId headers

/-- `proxyToUpstream` up to the call of the fetcher. -/
def createUpstreamRequest (P : Platform) (request : IncomingRequest) (route : CompiledRoute)
    (body : Option Bytes) (clientIp : Option String) (requestId : String) (timeoutMs : Number) :
    Except String UpstreamRequest := do
  let url ← buildUpstreamUrl P route.upstream request.url
  let headers ← createUpstreamHeaders request.headers request.url clientIp requestId
  if !isSafeInteger timeoutMs || timeoutMs ≤ 0 then
    .error "upstream timeout must be a positive integer"
  else if isForbiddenMethod request.method then .error "forbidden method"
  else
    let sent := if request.method ≠ "GET" ∧ request.method ≠ "HEAD" then body else none
    .ok { method := request.method, url, headers, body := sent }

/-- What `new Response` accepts as a status text: tabs, and the characters of ISO 8859-1 that are
not controls. -/
def isReasonPhrase (statusText : String) : Bool :=
  statusText.toList.all fun c => c = '\t' || (0x20 ≤ c.toNat && c.toNat ≤ 0x7e) ||
    (0x80 ≤ c.toNat && c.toNat ≤ 0xff)

/-- `createClientResponse`. A response cannot be made with another status than 200 to 599, with a
status text that is no reason phrase, or with a body for a status that has none. -/
def createClientResponse (upstreamResponse : UpstreamResponse) :
    Except String UpstreamResponse :=
  let headers := sanitizeHeaders upstreamResponse.headers
  let headers :=
    if headers.has "content-encoding" then
      (headers.delete "content-encoding").delete "content-length"
    else headers
  if upstreamResponse.status < 200 ∨ 599 < upstreamResponse.status then
    .error "status is out of range"
  else if !isReasonPhrase upstreamResponse.statusText then .error "status text is invalid"
  else if upstreamResponse.hasBody ∧ upstreamResponse.status ∈ [204, 205, 304] then
    .error "status has no body"
  else .ok { upstreamResponse with headers }

end ShieldWard.Edge
