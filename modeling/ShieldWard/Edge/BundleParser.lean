import ShieldWard.Edge.Bundle
import ShieldWard.Edge.Transport

/-!
# Parsing a signed bundle

The checks of `edge/src/bundle.ts`, in the order in which they are made, with the texts of
their errors. A value is an optional JSON value: `none` is the `undefined` of a property that
the object does not have.
-/

namespace ShieldWard.Edge

open Ecma

/-- `BundleValidationError` and `BundleVerificationError`, with their messages. -/
inductive BundleError
  | validation (message : String)
  | verification (message : String)
deriving DecidableEq, Repr

/-- The results of the checks. -/
abbrev Checked := Except BundleError

/-- An error names the field that it is about by its path. -/
def fail {α : Type} (path message : String) : Checked α :=
  .error (.validation (path ++ " " ++ message))

/-! ## Checks of one value -/

def expectObject (value : Option Json) (path : String) : Checked Json.Fields :=
  match value with
  | some (.object fields) => .ok fields
  | _ => fail path "must be an object"

def expectArray (value : Option Json) (path : String) : Checked (List Json) :=
  match value with
  | some (.array items) => .ok items
  | _ => fail path "must be an array"

def expectNonEmptyArray (value : Option Json) (path : String) : Checked (List Json) := do
  let array ← expectArray value path
  if array = [] then fail path "must not be empty" else .ok array

/-- A text of white space counts as empty. -/
def expectNonEmptyString (value : Option Json) (path : String) : Checked String :=
  match value with
  | some (.string s) => if isBlank s then fail path "must be a non-empty string" else .ok s
  | _ => fail path "must be a non-empty string"

/-- `array.map` with a parser of items and their paths, from an index on. -/
def parseEach {α : Type} (parse : Option Json → String → Checked α) (path : String) :
    ℕ → List Json → Checked (List α)
  | _, [] => .ok []
  | index, item :: items => do
    let parsed ← parse (some item) s!"{path}[{index}]"
    let rest ← parseEach parse path (index + 1) items
    .ok (parsed :: rest)

def expectNonEmptyStringArray (value : Option Json) (path : String) : Checked (List String) := do
  let array ← expectNonEmptyArray value path
  parseEach expectNonEmptyString path 0 array

def expectPositiveInteger (value : Option Json) (path : String) : Checked Number :=
  match value with
  | some (.number n) =>
    if !isSafeInteger n || n ≤ 0 then fail path "must be a positive integer" else .ok n
  | _ => fail path "must be a positive integer"

def expectPattern (value : Option Json) (pattern : String → Bool) (path : String) :
    Checked String := do
  let text ← expectNonEmptyString value path
  if pattern text then .ok text else fail path "has an invalid format"

/-- The allowed texts, each with the value of the enumeration that it stands for. -/
def expectEnum {α : Type} (value : Option Json) (allowed : List (String × α)) (path : String) :
    Checked α :=
  match value with
  | some (.string s) =>
    match allowed.lookup s with
    | some a => .ok a
    | none => fail path ("must be one of: " ++ ", ".intercalate (allowed.map Prod.fst))
  | _ => fail path ("must be one of: " ++ ", ".intercalate (allowed.map Prod.fst))

/-- The scheme is checked on the parsed URL, and the text is kept. -/
def expectHttpUrl (P : Platform) (value : Option Json) (path : String) (requireHttps : Bool) :
    Checked String := do
  let text ← expectNonEmptyString value path
  match P.parseUrl text with
  | none => fail path "must be a valid URL"
  | some url =>
    if url.protocol ≠ "http:" ∧ url.protocol ≠ "https:" then fail path "must use HTTP or HTTPS"
    else if url.username ≠ "" ∨ url.password ≠ "" then
      fail path "must not contain embedded credentials"
    else if requireHttps ∧ url.protocol ≠ "https:" then fail path "must use HTTPS"
    else if !requireHttps ∧ !usesSecureTransport url then
      fail path "must use HTTPS unless it targets loopback"
    else .ok text

/-- The first key that is not allowed is reported. -/
def assertExactKeys (object : Json.Fields) (allowed : List String) (path : String) :
    Checked Unit :=
  match object.find? fun field => field.1 ∉ allowed with
  | some field => fail (path ++ "." ++ field.1) "is not supported"
  | none => .ok ()

/-! ## The patterns -/

def isLowerHexDigit (c : Char) : Bool := ('0' ≤ c && c ≤ '9') || ('a' ≤ c && c ≤ 'f')

/-- `/^sha256:[0-9a-f]{64}$/`. -/
def isSha256Text (s : String) : Bool :=
  "sha256:".toList.isPrefixOf s.toList &&
    (s.toList.drop 7).length = 64 && (s.toList.drop 7).all isLowerHexDigit

def isBase64UrlCharacter (c : Char) : Bool :=
  ('A' ≤ c && c ≤ 'Z') || ('a' ≤ c && c ≤ 'z') || ('0' ≤ c && c ≤ '9') || c = '_' || c = '-'

/-- `/^[A-Za-z0-9_-]{86}$/`. -/
def isSignatureText (s : String) : Bool :=
  s.toList.length = 86 && s.toList.all isBase64UrlCharacter

/-- `/^[A-Z]+$/`. -/
def isMethodText (s : String) : Bool :=
  s.toList ≠ [] && s.toList.all fun c => 'A' ≤ c && c ≤ 'Z'

/-! ## The parts of a bundle -/

def parseMatcher (P : Platform) (value : Option Json) (path : String) :
    Checked MethodMatcher := do
  let object ← expectObject value path
  assertExactKeys object ["method", "regex", "routeIds"] path
  let method ← expectPattern (object.lookup "method") isMethodText s!"{path}.method"
  let regex ← expectNonEmptyString (object.lookup "regex") s!"{path}.regex"
  if (P.regExp.construct regex "").isNone then
    fail s!"{path}.regex" "must be a valid regular expression"
  else
    let routeIds ← expectNonEmptyStringArray (object.lookup "routeIds") s!"{path}.routeIds"
    .ok { method, regex, routeIds }

/-- The loop over the methods of a route. -/
def checkMethods (path : String) : ℕ → List String → Checked Unit
  | _, [] => .ok ()
  | index, method :: methods =>
    if isMethodText method then checkMethods path (index + 1) methods
    else fail s!"{path}.methods[{index}]" "must be an uppercase HTTP method"

def parseRouteMatch (value : Option Json) (path : String) : Checked RouteMatch := do
  let object ← expectObject value path
  assertExactKeys object ["methods", "path"] path
  let routePath ← expectNonEmptyString (object.lookup "path") s!"{path}.path"
  if routePath.toList.head? ≠ some '/' then fail s!"{path}.path" "must begin with \"/\""
  else
    let methods ← expectNonEmptyStringArray (object.lookup "methods") s!"{path}.methods"
    checkMethods path 0 methods
    .ok { methods, path := routePath }

def parseJwtPolicy (P : Platform) (value : Option Json) (path : String) : Checked JwtPolicy := do
  let object ← expectObject value path
  assertExactKeys object ["required", "issuer", "audience", "jwksUrl"] path
  match object.lookup "required" with
  | some (.bool true) =>
    let issuer ← expectHttpUrl P (object.lookup "issuer") s!"{path}.issuer" true
    let audience ← expectNonEmptyStringArray (object.lookup "audience") s!"{path}.audience"
    let jwksUrl ← expectHttpUrl P (object.lookup "jwksUrl") s!"{path}.jwksUrl" true
    .ok { issuer, audience, jwksUrl }
  | _ => fail s!"{path}.required" "must be true"

def parseRateLimit (value : Option Json) (path : String) : Checked RateLimitPolicy := do
  let object ← expectObject value path
  assertExactKeys object ["requests", "window", "key"] path
  let requests ← expectPositiveInteger (object.lookup "requests") s!"{path}.requests"
  let window ← expectNonEmptyString (object.lookup "window") s!"{path}.window"
  let key ← expectEnum (object.lookup "key")
    [("client-ip", RateLimitKey.clientIp), ("jwt.sub", RateLimitKey.jwtSub)] s!"{path}.key"
  .ok { requests, window, key }

/-- A property that is parsed only when the object has it. -/
def parseOptional {α : Type} (object : Json.Fields) (key : String)
    (parse : Option Json → String → Checked α) (path : String) : Checked (Option α) :=
  match object.lookup key with
  | none => .ok none
  | some value => do
    let parsed ← parse (some value) s!"{path}.{key}"
    .ok (some parsed)

def parseWafRule (value : Option Json) (path : String) : Checked WafRule := do
  let object ← expectObject value path
  assertExactKeys object ["id", "target", "pattern", "flags", "action"] path
  let id ← expectNonEmptyString (object.lookup "id") s!"{path}.id"
  let target ← expectEnum (object.lookup "target")
    [("path", WafTarget.path), ("query", WafTarget.query), ("headers", WafTarget.headers),
      ("body", WafTarget.body)] s!"{path}.target"
  let pattern ← expectNonEmptyString (object.lookup "pattern") s!"{path}.pattern"
  let action ← expectEnum (object.lookup "action")
    [("block", WafAction.block), ("log", WafAction.log)] s!"{path}.action"
  let flags ← parseOptional object "flags" (fun v p => expectEnum v [("i", WafFlags.i)] p) path
  .ok { id, target, pattern, flags, action }

def parseWafRules (value : Option Json) (path : String) : Checked (List WafRule) := do
  let rules ← expectArray value path
  parseEach parseWafRule path 0 rules

/-- The parts are parsed in the order of the source, so the first error is the one reported. -/
def parseRoute (P : Platform) (value : Option Json) (path : String) : Checked CompiledRoute := do
  let object ← expectObject value path
  assertExactKeys object ["id", "match", "upstream", "jwt", "rateLimit", "waf"] path
  let id ← expectNonEmptyString (object.lookup "id") s!"{path}.id"
  let routeMatch ← parseRouteMatch (object.lookup "match") s!"{path}.match"
  let upstream ← expectHttpUrl P (object.lookup "upstream") s!"{path}.upstream" false
  let jwt ← parseOptional object "jwt" (parseJwtPolicy P) path
  let rateLimit ← parseOptional object "rateLimit" parseRateLimit path
  let waf ← parseOptional object "waf" parseWafRules path
  .ok { id, routeMatch, upstream, jwt, rateLimit, waf }

def parseBundle (P : Platform) (value : Option Json) : Checked Bundle := do
  let object ← expectObject value "envelope.bundle"
  assertExactKeys object
    ["schemaVersion", "policyName", "defaultDecision", "matchers", "routes", "version"]
    "envelope.bundle"
  expectEnum (object.lookup "schemaVersion") [(BUNDLE_SCHEMA_VERSION, ())]
    "envelope.bundle.schemaVersion"
  let defaultDecision ← expectEnum (object.lookup "defaultDecision")
    [("allow", DefaultDecision.allow), ("deny", DefaultDecision.deny)]
    "envelope.bundle.defaultDecision"
  let matcherItems ← expectNonEmptyArray (object.lookup "matchers") "envelope.bundle.matchers"
  let matchers ← parseEach (parseMatcher P) "envelope.bundle.matchers" 0 matcherItems
  let routeItems ← expectNonEmptyArray (object.lookup "routes") "envelope.bundle.routes"
  let routes ← parseEach (parseRoute P) "envelope.bundle.routes" 0 routeItems
  let policyName ← expectNonEmptyString (object.lookup "policyName") "envelope.bundle.policyName"
  let version ← expectPattern (object.lookup "version") isSha256Text "envelope.bundle.version"
  .ok { policyName, defaultDecision, matchers, routes, version }

/-- The whole of what the edge accepts before it verifies. -/
def parseBundleEnvelope (P : Platform) (value : Json) : Checked SignedBundleEnvelope := do
  let object ← expectObject (some value) "envelope"
  assertExactKeys object ["algorithm", "keyId", "bundle", "signature"] "envelope"
  expectEnum (object.lookup "algorithm") [(SIGNATURE_ALGORITHM, ())] "envelope.algorithm"
  let keyId ← expectPattern (object.lookup "keyId") isSha256Text "envelope.keyId"
  let signature ← expectPattern (object.lookup "signature") isSignatureText "envelope.signature"
  let bundle ← parseBundle P (object.lookup "bundle")
  .ok { keyId, bundle, signature }

end ShieldWard.Edge
