import ShieldWard.Control.Policy
import ShieldWard.Lib.Json
import ShieldWard.Lib.OrderedMap

/-!
# The compiler from documents to bundles

`internal/compiler/compiler.go` and `internal/canonicaljson`. Path templates become regular
expressions, the routes of one method are joined into one expression with a group for each
route, and the version of the bundle is the hash of its canonical form.
-/

namespace ShieldWard.Control

def BundleSchemaVersion : String := "shieldward.bundle/v1alpha1"

structure MethodMatcher where
  method : String
  regex : String
  routeIDs : List String
deriving DecidableEq, Repr

structure CompiledRoute where
  id : String
  routeMatch : RouteMatch
  upstream : String
  jwt : Option JWTPolicy
  rateLimit : Option RateLimitPolicy
  waf : List WAFRule
deriving DecidableEq, Repr

structure Bundle where
  schemaVersion : String
  policyName : String
  defaultDecision : String
  matchers : List MethodMatcher
  routes : List CompiledRoute
  version : String
deriving DecidableEq, Repr

/-! ## The JSON encoding -/

section Encoding

open Json

def encodeStrings (texts : List String) : Json := .array (texts.map .string)

/-- A field with `omitempty`: left out when the encoder finds it empty. -/
def omitEmpty (isEmpty : Bool) (key : String) (value : Json) : Fields :=
  if isEmpty then [] else [(key, value)]

/-- A pointer with `omitempty`. -/
def omitNil {α : Type} (key : String) (toJson : α → Json) : Option α → Fields
  | none => []
  | some a => [(key, toJson a)]

def MethodMatcher.toJson (matcher : MethodMatcher) : Json :=
  .object [("method", .string matcher.method), ("regex", .string matcher.regex),
    ("routeIds", encodeStrings matcher.routeIDs)]

def RouteMatch.toJson (routeMatch : RouteMatch) : Json :=
  .object [("methods", encodeStrings routeMatch.methods), ("path", .string routeMatch.path)]

def JWTPolicy.toJson (jwt : JWTPolicy) : Json :=
  .object [("required", .bool jwt.required), ("issuer", .string jwt.issuer),
    ("audience", encodeStrings jwt.audience), ("jwksUrl", .string jwt.jwksURL)]

def RateLimitPolicy.toJson (rateLimit : RateLimitPolicy) : Json :=
  .object [("requests", .number rateLimit.requests), ("window", .string rateLimit.window),
    ("key", .string rateLimit.key)]

def WAFRule.toJson (rule : WAFRule) : Json :=
  .object ([("id", .string rule.id), ("target", .string rule.target),
    ("pattern", .string rule.pattern)] ++
    omitEmpty (rule.flags = "") "flags" (.string rule.flags) ++
    [("action", .string rule.action)])

def CompiledRoute.toJson (route : CompiledRoute) : Json :=
  .object ([("id", .string route.id), ("match", route.routeMatch.toJson),
    ("upstream", .string route.upstream)] ++
    omitNil "jwt" JWTPolicy.toJson route.jwt ++
    omitNil "rateLimit" RateLimitPolicy.toJson route.rateLimit ++
    omitEmpty (route.waf = []) "waf" (.array (route.waf.map WAFRule.toJson)))

def Bundle.toJson (bundle : Bundle) : Json :=
  .object ([("schemaVersion", .string bundle.schemaVersion),
    ("policyName", .string bundle.policyName),
    ("defaultDecision", .string bundle.defaultDecision),
    ("matchers", .array (bundle.matchers.map MethodMatcher.toJson)),
    ("routes", .array (bundle.routes.map CompiledRoute.toJson))] ++
    omitEmpty (bundle.version = "") "version" (.string bundle.version))

/-! An encoded value holds no key twice. -/

theorem MethodMatcher.wellFormed_toJson (matcher : MethodMatcher) : WellFormed matcher.toJson := by
  refine .object (by simp) ?_
  simp [WellFormed.string, encodeStrings, wellFormed_strings]

theorem JWTPolicy.wellFormed_toJson (jwt : JWTPolicy) : WellFormed jwt.toJson := by
  refine .object (by simp) ?_
  simp [WellFormed.string, WellFormed.bool, encodeStrings, wellFormed_strings]

theorem RateLimitPolicy.wellFormed_toJson (rateLimit : RateLimitPolicy) : WellFormed rateLimit.toJson := by
  refine .object (by simp) ?_
  simp [WellFormed.string, WellFormed.number]

theorem WAFRule.wellFormed_toJson (rule : WAFRule) : WellFormed rule.toJson := by
  refine .object ?_ ?_
  · by_cases h : rule.flags = "" <;> simp [omitEmpty, h]
  · by_cases h : rule.flags = "" <;> simp [omitEmpty, h, WellFormed.string]

theorem CompiledRoute.wellFormed_toJson (route : CompiledRoute) : WellFormed route.toJson := by
  have hmatch : WellFormed route.routeMatch.toJson := by
    refine .object (by simp) ?_
    simp [WellFormed.string, encodeStrings, wellFormed_strings]
  have hwaf := wellFormed_array WAFRule.wellFormed_toJson route.waf
  refine .object ?_ ?_
  · by_cases h : route.waf = [] <;> cases route.jwt <;> cases route.rateLimit <;>
      simp [omitEmpty, omitNil, h]
  · by_cases h : route.waf = [] <;> cases route.jwt <;> cases route.rateLimit <;>
      simp [omitEmpty, omitNil, h, WellFormed.string, hmatch, JWTPolicy.wellFormed_toJson,
        RateLimitPolicy.wellFormed_toJson, hwaf]

theorem Bundle.wellFormed_toJson (bundle : Bundle) : WellFormed bundle.toJson := by
  have hmatchers := wellFormed_array MethodMatcher.wellFormed_toJson bundle.matchers
  have hroutes := wellFormed_array CompiledRoute.wellFormed_toJson bundle.routes
  refine .object ?_ ?_
  · by_cases h : bundle.version = "" <;> simp [omitEmpty, h]
  · by_cases h : bundle.version = "" <;>
      simp [omitEmpty, h, WellFormed.string, hmatchers, hroutes]

end Encoding

/-- `canonicaljson.Marshal`. -/
def canonicalMarshal (G : GoPlatform) (value : Json) : Bytes :=
  Bytes.utf8 (value.canonicalize G.numberText)

/-- `fmt.Sprintf("sha256:%x", sha256.Sum256(bytes))`. -/
def sha256Text (G : GoPlatform) (bytes : Bytes) : String :=
  "sha256:" ++ Bytes.hex (G.sha256 bytes)

/-! ## Path templates -/

/-- The characters that `regexp.QuoteMeta` escapes. -/
def isMeta (c : Char) : Bool := c ∈ "\\.+*?()|[]\x7b\x7d^$".toList

/-- `regexp.QuoteMeta`. -/
def quoteMeta (text : List Char) : List Char :=
  text.flatMap fun c => if isMeta c then ['\\', c] else [c]

/-- `^[A-Za-z_][A-Za-z0-9_]*$`. -/
def isParameterName : List Char → Bool
  | [] => false
  | c :: cs =>
    (c.isAlpha || c = '_') && cs.all fun d => d.isAlpha || d.isDigit || d = '_'

/-- The expression of one segment. -/
def compileSegment (G : GoPlatform) (isFinal : Bool) (segment : List Char) :
    Except String (List Char) :=
  match segment with
  | ':' :: name =>
    if isParameterName name then .ok "[^/]+".toList
    else .error ("invalid path parameter " ++ quote G (String.ofList segment))
  | _ =>
    if segment = ['*'] then
      if isFinal then .ok ".*".toList else .error "wildcard must be the final path segment"
    else if '*' ∈ segment then .error "wildcards must occupy an entire path segment"
    else .ok (quoteMeta segment)

/-- The loop over the segments. -/
def compileSegments (G : GoPlatform) : List (List Char) → Except String (List Char)
  | [] => .ok []
  | segment :: segments => do
    let compiled ← compileSegment G (segments = []) segment
    let rest ← compileSegments G segments
    .ok ('/' :: compiled ++ rest)

/-- The segments of a path that begins with a slash. -/
def pathSegments (path : List Char) : List (List Char) :=
  (if path.head? = some '/' then path.tail else path).splitOn '/'

def compilePathTemplate (G : GoPlatform) (path : String) : Except String String :=
  if path = "/" then .ok "/"
  else (compileSegments G (pathSegments path.toList)).map String.ofList

/-! ## Matchers -/

structure RoutePattern where
  routeID : String
  pattern : String
deriving DecidableEq, Repr

/-- The maps that `compileMatchers` fills. -/
structure MatcherTable where
  byMethod : OrderedMap String (List RoutePattern)
  seen : OrderedMap String String

/-- One method of a route. -/
def addMethod (G : GoPlatform) (route : Route) (pattern : String) (table : MatcherTable)
    (method : String) : Except String MatcherTable :=
  let key := method ++ "\x00" ++ route.routeMatch.path
  match table.seen.get key with
  | some existingID =>
    let existing := quote G existingID
    let current := quote G route.id
    .error s!"routes {existing} and {current} use the same method and path"
  | none =>
    let patterns := (table.byMethod.get method).getD []
    .ok { seen := table.seen.set key route.id
          byMethod := table.byMethod.set method (patterns ++ [⟨route.id, pattern⟩]) }

def addRoute (G : GoPlatform) (table : MatcherTable) (route : Route) :
    Except String MatcherTable :=
  let quotedId := quote G route.id
  match compilePathTemplate G route.routeMatch.path with
  | .error e => .error s!"compile route {quotedId} path: {e}"
  | .ok pattern => route.routeMatch.methods.foldlM (addMethod G route pattern) table

/-- The expression of a method: the patterns as alternatives, each in a group of its own. -/
def combine (patterns : List RoutePattern) : String :=
  "^(?:" ++ "|".intercalate (patterns.map fun p => "(" ++ p.pattern ++ ")") ++ ")$"

def compileMatcher (G : GoPlatform) (method : String) (patterns : List RoutePattern) :
    Except String MethodMatcher :=
  let combined := combine patterns
  match G.compileRegexp combined with
  | .error e => .error s!"compile {method} matcher: {e}"
  | .ok () => .ok { method, regex := combined, routeIDs := patterns.map RoutePattern.routeID }

/-- The entries of the table by method, sorted by method. -/
def sortedMethods (table : MatcherTable) : List (String × List RoutePattern) :=
  table.byMethod.entries.insertionSort fun e f => e.1 ≤ f.1

def compileMatchers (G : GoPlatform) (routes : List Route) :
    Except String (List MethodMatcher) := do
  let table ← routes.foldlM (addRoute G) ⟨.empty, .empty⟩
  (sortedMethods table).mapM fun e => compileMatcher G e.1 e.2

/-! ## Bundles -/

def cloneRoute (route : Route) : CompiledRoute where
  id := route.id
  routeMatch := route.routeMatch
  upstream := route.upstream
  jwt := route.jwt
  rateLimit := route.rateLimit
  waf := route.waf

/-- The bundle before it has a version. -/
def assemble (document : Document) (matchers : List MethodMatcher) : Bundle where
  schemaVersion := BundleSchemaVersion
  policyName := document.metadata.name
  defaultDecision := document.spec.defaultDecision
  matchers := matchers
  routes := document.spec.routes.map cloneRoute
  version := ""

def compile (G : GoPlatform) (document : Document) : Except String Bundle := do
  match validate G document with
  | .error e => .error s!"validate source policy: {e}"
  | .ok () =>
    let matchers ← compileMatchers G document.spec.routes
    let bundle := assemble document matchers
    .ok { bundle with version := sha256Text G (canonicalMarshal G bundle.toJson) }

end ShieldWard.Control
