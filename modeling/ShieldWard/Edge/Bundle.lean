import ShieldWard.Lib.Canonical

/-!
# The bundle as the edge holds it

The interfaces of `edge/src/bundle.ts`. Optional properties are options, string unions are
enumerations, and `required: true` is a constant of the type, so it has no field. As a JSON
value an object lists its properties in the order in which the parser sets them, and an
optional property that is not set is absent.
-/

namespace ShieldWard.Edge

open Ecma

/-- The constants of the schema, which the parser compares with. -/
def BUNDLE_SCHEMA_VERSION : String := "shieldward.bundle/v1alpha1"

def SIGNATURE_ALGORITHM : String := "Ed25519"

/-- What happens to a request that no route matches. -/
inductive DefaultDecision
  | allow | deny
deriving DecidableEq, Repr

/-- Whose requests share a quota. -/
inductive RateLimitKey
  | clientIp | jwtSub
deriving DecidableEq, Repr

/-- The part of a request that a WAF rule looks at. -/
inductive WafTarget
  | path | query | headers | body
deriving DecidableEq, Repr

/-- What a rule that fires does. -/
inductive WafAction
  | block | log
deriving DecidableEq, Repr

/-- The only value of the optional `flags` of a WAF rule. -/
inductive WafFlags
  | i
deriving DecidableEq, Repr

/-- The routes that take a method; each has an alternative of its own in the pattern. -/
structure MethodMatcher where
  method : String
  regex : String
  routeIds : List String
deriving DecidableEq, Repr

/-- The methods and the path template that a route was compiled from. -/
structure RouteMatch where
  methods : List String
  path : String
deriving DecidableEq, Repr

/-- What a token of the route must have been issued by and for, and where its keys are. -/
structure JwtPolicy where
  issuer : String
  audience : List String
  jwksUrl : String
deriving DecidableEq, Repr

/-- `window` is the text of a duration; the limiter parses it at each check. -/
structure RateLimitPolicy where
  requests : Number
  window : String
  key : RateLimitKey
deriving DecidableEq, Repr

/-- A rule fires when its pattern is found in its target. -/
structure WafRule where
  id : String
  target : WafTarget
  pattern : String
  flags : Option WafFlags
  action : WafAction
deriving DecidableEq, Repr

/-- A route with the controls that its requests pass, each of them optional. -/
structure CompiledRoute where
  id : String
  routeMatch : RouteMatch
  upstream : String
  jwt : Option JwtPolicy
  rateLimit : Option RateLimitPolicy
  waf : Option (List WafRule)
deriving DecidableEq, Repr

/-- A bundle without its version: what the version is the hash of. -/
structure UnversionedBundle where
  policyName : String
  defaultDecision : DefaultDecision
  matchers : List MethodMatcher
  routes : List CompiledRoute
deriving DecidableEq, Repr

structure Bundle extends UnversionedBundle where
  version : String
deriving DecidableEq, Repr

/-- What the control plane serves and the edge verifies. -/
structure SignedBundleEnvelope where
  keyId : String
  bundle : Bundle
  signature : String
deriving DecidableEq, Repr

/-! ## As JSON values -/

/-- The texts of the enumerations, as they stand in a bundle. -/
def DefaultDecision.text : DefaultDecision → String
  | .allow => "allow"
  | .deny => "deny"

def RateLimitKey.text : RateLimitKey → String
  | .clientIp => "client-ip"
  | .jwtSub => "jwt.sub"

def WafTarget.text : WafTarget → String
  | .path => "path"
  | .query => "query"
  | .headers => "headers"
  | .body => "body"

def WafAction.text : WafAction → String
  | .block => "block"
  | .log => "log"

/-- Rules without flags distinguish the cases of letters. -/
def WafFlags.text : WafFlags → String
  | .i => "i"

/-- An array of strings. -/
def strings (texts : List String) : Json := .array (texts.map .string)

/-- An optional property: absent when there is no value. -/
def optionalField {α : Type} (key : String) (toJson : α → Json) : Option α → Json.Fields
  | none => []
  | some a => [(key, toJson a)]

/-- The object of each part, with the members in the order in which the compiler writes them. -/
def MethodMatcher.toJson (matcher : MethodMatcher) : Json :=
  .object [("method", .string matcher.method), ("regex", .string matcher.regex),
    ("routeIds", strings matcher.routeIds)]

def RouteMatch.toJson (routeMatch : RouteMatch) : Json :=
  .object [("methods", strings routeMatch.methods), ("path", .string routeMatch.path)]

def JwtPolicy.toJson (jwt : JwtPolicy) : Json :=
  .object [("required", .bool true), ("issuer", .string jwt.issuer),
    ("audience", strings jwt.audience), ("jwksUrl", .string jwt.jwksUrl)]

def RateLimitPolicy.toJson (rateLimit : RateLimitPolicy) : Json :=
  .object [("requests", .number rateLimit.requests), ("window", .string rateLimit.window),
    ("key", .string rateLimit.key.text)]

def WafRule.toJson (rule : WafRule) : Json :=
  .object ([("id", .string rule.id), ("target", .string rule.target.text),
    ("pattern", .string rule.pattern), ("action", .string rule.action.text)] ++
    optionalField "flags" (fun flags => .string flags.text) rule.flags)

/-- A control that the route does not have is no member. -/
def CompiledRoute.toJson (route : CompiledRoute) : Json :=
  .object ([("id", .string route.id), ("match", route.routeMatch.toJson),
    ("upstream", .string route.upstream)] ++
    optionalField "jwt" JwtPolicy.toJson route.jwt ++
    optionalField "rateLimit" RateLimitPolicy.toJson route.rateLimit ++
    optionalField "waf" (fun rules => .array (rules.map WafRule.toJson)) route.waf)

/-- The members of a bundle without its version, which is the hash of their text. -/
def UnversionedBundle.fields (bundle : UnversionedBundle) : Json.Fields :=
  [("schemaVersion", .string BUNDLE_SCHEMA_VERSION), ("policyName", .string bundle.policyName),
    ("defaultDecision", .string bundle.defaultDecision.text),
    ("matchers", .array (bundle.matchers.map MethodMatcher.toJson)),
    ("routes", .array (bundle.routes.map CompiledRoute.toJson))]

def UnversionedBundle.toJson (bundle : UnversionedBundle) : Json := .object bundle.fields

/-- The version comes with the other members, as the edge receives it. -/
def Bundle.toJson (bundle : Bundle) : Json :=
  .object (bundle.toUnversionedBundle.fields ++ [("version", .string bundle.version)])

def SignedBundleEnvelope.toJson (envelope : SignedBundleEnvelope) : Json :=
  .object [("algorithm", .string SIGNATURE_ALGORITHM), ("keyId", .string envelope.keyId),
    ("bundle", envelope.bundle.toJson), ("signature", .string envelope.signature)]

/-! The encoded forms can be read back where the numbers of the limits can. -/

section Legible

open Json

variable {p : Number → Prop}

/-- Texts are always legible, so only numbers have to be looked at. -/
theorem MethodMatcher.legible_toJson (matcher : MethodMatcher) : Legible p matcher.toJson := by
  refine .object (by simp) ?_
  simp [Legible.string, strings, legible_strings]

theorem JwtPolicy.legible_toJson (jwt : JwtPolicy) : Legible p jwt.toJson := by
  refine .object (by simp) ?_
  simp [Legible.string, Legible.bool, strings, legible_strings]

theorem RateLimitPolicy.legible_toJson {rateLimit : RateLimitPolicy}
    (h : p rateLimit.requests) : Legible p rateLimit.toJson := by
  refine .object (by simp) ?_
  simp [Legible.string, Legible.number h]

theorem WafRule.legible_toJson (rule : WafRule) : Legible p rule.toJson := by
  refine .object ?_ ?_
  · cases rule.flags <;> simp [optionalField]
  · cases rule.flags <;> simp [optionalField, Legible.string]

/-- Only a rate limit brings a number into the text of a route. -/
theorem CompiledRoute.legible_toJson {route : CompiledRoute}
    (h : ∀ rateLimit, route.rateLimit = some rateLimit → p rateLimit.requests) :
    Legible p route.toJson := by
  have hmatch : Legible p route.routeMatch.toJson := by
    refine .object (by simp) ?_
    simp [Legible.string, strings, legible_strings]
  have hwaf : ∀ rules : List WafRule, Legible p (.array (rules.map WafRule.toJson)) :=
    fun rules => legible_array fun rule _ => rule.legible_toJson
  refine .object ?_ ?_
  · cases route.jwt <;> cases route.rateLimit <;> cases route.waf <;> simp [optionalField]
  · cases hlimit : route.rateLimit with
    | none =>
      cases route.jwt <;> cases route.waf <;>
        simp [optionalField, Legible.string, hmatch, JwtPolicy.legible_toJson, hwaf]
    | some rateLimit =>
      have hrequests := RateLimitPolicy.legible_toJson (h rateLimit hlimit)
      cases route.jwt <;> cases route.waf <;>
        simp [optionalField, Legible.string, hmatch, JwtPolicy.legible_toJson, hrequests, hwaf]

/-- A bundle is legible when the request counts of its limits are. -/
theorem UnversionedBundle.legible_toJson {bundle : UnversionedBundle}
    (h : ∀ route ∈ bundle.routes, ∀ rateLimit, route.rateLimit = some rateLimit →
      p rateLimit.requests) : Legible p bundle.toJson := by
  have hmatchers : Legible p (.array (bundle.matchers.map MethodMatcher.toJson)) :=
    legible_array fun matcher _ => matcher.legible_toJson
  have hroutes : Legible p (.array (bundle.routes.map CompiledRoute.toJson)) :=
    legible_array fun route hroute => CompiledRoute.legible_toJson (h route hroute)
  refine .object (by simp [UnversionedBundle.fields]) ?_
  simp [UnversionedBundle.fields, Legible.string, hmatchers, hroutes]

/-- An encoded value holds no key twice. -/
theorem UnversionedBundle.wellFormed_toJson (bundle : UnversionedBundle) :
    WellFormed bundle.toJson :=
  (legible_toJson (p := fun _ => True) fun _ _ _ _ => trivial).wellFormed

/-- No object of a bundle has a key twice. -/
theorem Bundle.wellFormed_toJson (bundle : Bundle) : WellFormed bundle.toJson := by
  cases bundle.toUnversionedBundle.wellFormed_toJson with | object hkeys hfields =>
  refine .object (by simp [UnversionedBundle.fields]) fun f hf => ?_
  rcases List.mem_append.mp hf with hmem | hmem
  · exact hfields f hmem
  · rw [List.mem_singleton.mp hmem]
    exact .string _

end Legible
end ShieldWard.Edge
