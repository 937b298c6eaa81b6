import ShieldWard.Control.Compiler
import ShieldWard.Lib.Canonical
import ShieldWard.Lib.Double
import ShieldWard.Lib.Fallible

/-!
# What the version of a bundle is computed from

The version is the hash of the canonical form of the bundle without its version. That form holds
every field of the bundle, but a request count stands in it as the text of a double: two counts
that are read as one double are written alike. So the version determines the bundle with each
count replaced by its double (`rounded`), and nothing less.
-/

namespace ShieldWard.Control

open Json

/-! ## Each encoded value is the form of one value -/

section Encoding

/-- Objects that are equal up to the order of their members come from equal values, part by part. -/
theorem encodeStrings_injective {xs ys : List String}
    (h : Equiv (encodeStrings xs) (encodeStrings ys)) : xs = ys := by
  apply Equiv.eq_of_array _ h
  intro s t hst
  rw [equiv_string_iff] at hst
  exact (Json.string.inj hst).symm

theorem MethodMatcher.toJson_injective {x y : MethodMatcher} (h : Equiv x.toJson y.toJson) :
    x = y := by
  have hmethod := Equiv.sameField h "method"
  have hregex := Equiv.sameField h "regex"
  have hrouteIDs := Equiv.sameField h "routeIds"
  simp [List.lookup_cons] at hmethod hregex hrouteIDs
  cases x with | mk method regex routeIDs =>
  cases y with | mk method' regex' routeIDs' =>
  rw [MethodMatcher.mk.injEq]
  exact ⟨hmethod.symm, hregex.symm, encodeStrings_injective hrouteIDs⟩

theorem RouteMatch.toJson_injective {x y : RouteMatch} (h : Equiv x.toJson y.toJson) : x = y := by
  have hmethods := Equiv.sameField h "methods"
  have hpath := Equiv.sameField h "path"
  simp [List.lookup_cons] at hmethods hpath
  cases x with | mk methods path =>
  cases y with | mk methods' path' =>
  rw [RouteMatch.mk.injEq]
  exact ⟨encodeStrings_injective hmethods, hpath.symm⟩

theorem JWTPolicy.toJson_injective {x y : JWTPolicy} (h : Equiv x.toJson y.toJson) : x = y := by
  have hrequired := Equiv.sameField h "required"
  have hissuer := Equiv.sameField h "issuer"
  have haudience := Equiv.sameField h "audience"
  have hjwksURL := Equiv.sameField h "jwksUrl"
  simp [List.lookup_cons] at hrequired hissuer haudience hjwksURL
  cases x with | mk required issuer audience jwksURL =>
  cases y with | mk required' issuer' audience' jwksURL' =>
  rw [JWTPolicy.mk.injEq]
  exact ⟨hrequired.symm, hissuer.symm, encodeStrings_injective haudience, hjwksURL.symm⟩

theorem RateLimitPolicy.toJson_injective {x y : RateLimitPolicy} (h : Equiv x.toJson y.toJson) :
    x = y := by
  have hrequests := Equiv.sameField h "requests"
  have hwindow := Equiv.sameField h "window"
  have hkey := Equiv.sameField h "key"
  simp [List.lookup_cons] at hrequests hwindow hkey
  cases x with | mk requests window key =>
  cases y with | mk requests' window' key' =>
  rw [RateLimitPolicy.mk.injEq]
  exact ⟨hrequests.symm, hwindow.symm, hkey.symm⟩

/-- `omitempty` leaves a member out, and another key is never affected. -/
theorem lookup_omitEmpty (isEmpty : Bool) (key other : String) (value : Json) :
    (omitEmpty isEmpty key value).lookup other =
      if other = key then (if isEmpty then none else some value) else none := by
  unfold omitEmpty
  by_cases hkey : other = key
  · cases isEmpty <;> simp [hkey]
  · have hbeq : (other == key) = false := by simpa using hkey
    cases isEmpty <;> simp [List.lookup_cons, hkey, hbeq]

theorem lookup_omitNil {α : Type} (key other : String) (toJson : α → Json) (pointer : Option α) :
    (omitNil key toJson pointer).lookup other =
      if other = key then pointer.map toJson else none := by
  by_cases hkey : other = key
  · cases pointer <;> simp [omitNil, hkey]
  · have hbeq : (other == key) = false := by simpa using hkey
    cases pointer <;> simp [omitNil, List.lookup_cons, hkey, hbeq]

/-- A field that is left out when it is empty. -/
theorem eq_of_omitEmpty {α : Type} [DecidableEq α] {x y empty : α} {v w : Json}
    (hinj : Equiv v w → x = y)
    (h : SameField (if x = empty then none else some v) (if y = empty then none else some w)) :
    x = y := by
  split_ifs at h with hx hy hy
  · rw [hx, hy]
  · exact absurd h (not_sameField_none_some _)
  · exact absurd h (not_sameField_some_none _)
  · exact hinj (sameField_some_some.mp h)

/-- A pointer is recovered from the member that it leaves behind, or that it does not. -/
theorem eq_of_omitNil {α : Type} {toJson : α → Json} {x y : Option α}
    (hinj : ∀ a b, Equiv (toJson a) (toJson b) → a = b)
    (h : SameField (x.map toJson) (y.map toJson)) : x = y := by
  cases x with
  | none =>
    cases y with
    | none => rfl
    | some b => exact absurd h (not_sameField_none_some _)
  | some a =>
    cases y with
    | none => exact absurd h (not_sameField_some_none _)
    | some b => rw [hinj a b (sameField_some_some.mp h)]

/-- A rule with an empty flag text has no member for it. -/
theorem WAFRule.toJson_injective {x y : WAFRule} (h : Equiv x.toJson y.toJson) : x = y := by
  have hid := Equiv.sameField h "id"
  have htarget := Equiv.sameField h "target"
  have hpattern := Equiv.sameField h "pattern"
  have hflags := Equiv.sameField h "flags"
  have haction := Equiv.sameField h "action"
  simp [List.lookup_append, List.lookup_cons, lookup_omitEmpty]
    at hid htarget hpattern hflags haction
  have hsame : x.flags = y.flags := by
    apply eq_of_omitEmpty _ hflags
    intro hstring
    rw [equiv_string_iff] at hstring
    exact (Json.string.inj hstring).symm
  cases x with | mk id target pattern flags action =>
  cases y with | mk id' target' pattern' flags' action' =>
  rw [WAFRule.mk.injEq]
  exact ⟨hid.symm, htarget.symm, hpattern.symm, hsame, haction.symm⟩

/-- A route without a policy has no member for it, so that no two routes share an object. -/
theorem CompiledRoute.toJson_injective {x y : CompiledRoute} (h : Equiv x.toJson y.toJson) :
    x = y := by
  have hid := Equiv.sameField h "id"
  have hmatch := Equiv.sameField h "match"
  have hupstream := Equiv.sameField h "upstream"
  have hjwt := Equiv.sameField h "jwt"
  have hrateLimit := Equiv.sameField h "rateLimit"
  have hwaf := Equiv.sameField h "waf"
  simp [List.lookup_append, List.lookup_cons, lookup_omitEmpty, lookup_omitNil]
    at hid hmatch hupstream hjwt hrateLimit hwaf
  have hsameJwt := eq_of_omitNil (fun _ _ => JWTPolicy.toJson_injective) hjwt
  have hsameRateLimit := eq_of_omitNil (fun _ _ => RateLimitPolicy.toJson_injective) hrateLimit
  have hsameWaf : x.waf = y.waf := by
    apply eq_of_omitEmpty _ hwaf
    exact Equiv.eq_of_array fun _ _ => WAFRule.toJson_injective
  cases x with | mk id routeMatch upstream jwt rateLimit waf =>
  cases y with | mk id' routeMatch' upstream' jwt' rateLimit' waf' =>
  rw [CompiledRoute.mk.injEq]
  exact ⟨hid.symm, RouteMatch.toJson_injective hmatch, hupstream.symm, hsameJwt, hsameRateLimit,
    hsameWaf⟩

theorem Bundle.toJson_injective {x y : Bundle} (h : Equiv x.toJson y.toJson) : x = y := by
  have hschemaVersion := Equiv.sameField h "schemaVersion"
  have hpolicyName := Equiv.sameField h "policyName"
  have hdefaultDecision := Equiv.sameField h "defaultDecision"
  have hmatchers := Equiv.sameField h "matchers"
  have hroutes := Equiv.sameField h "routes"
  have hversion := Equiv.sameField h "version"
  simp [List.lookup_cons, lookup_omitEmpty]
    at hschemaVersion hpolicyName hdefaultDecision hmatchers hroutes hversion
  have hsameMatchers := Equiv.eq_of_array (fun _ _ => MethodMatcher.toJson_injective) hmatchers
  have hsameRoutes := Equiv.eq_of_array (fun _ _ => CompiledRoute.toJson_injective) hroutes
  have hsameVersion : x.version = y.version := by
    apply eq_of_omitEmpty _ hversion
    intro hstring
    rw [equiv_string_iff] at hstring
    exact (Json.string.inj hstring).symm
  cases x with | mk schemaVersion policyName defaultDecision matchers routes version =>
  cases y with | mk schemaVersion' policyName' defaultDecision' matchers' routes' version' =>
  rw [Bundle.mk.injEq]
  exact ⟨hschemaVersion.symm, hpolicyName.symm, hdefaultDecision.symm, hsameMatchers, hsameRoutes,
    hsameVersion⟩

end Encoding

/-! ## Request counts as doubles -/

/-- The texts of the Go integers in an RFC 8785 form: an integer is written as the double that it
is read as, without an exponent, and each double has its own text. -/
structure Rfc8785 (numberText : Ecma.Number → String) : Prop where
  rounds : ∀ n : ℕ, n < 2 ^ 63 →
    numberText (n : Ecma.Number) = numberText (Double.nearest n : Ecma.Number)
  nonempty : ∀ n : ℕ, n < 2 ^ 63 → numberText (n : Ecma.Number) ≠ ""
  digits : ∀ n : ℕ, n < 2 ^ 63 → ∀ c ∈ (numberText (n : Ecma.Number)).toList, c.isDigit = true
  injective : ∀ m n : ℕ, m < 2 ^ 63 → n < 2 ^ 63 →
    numberText (m : Ecma.Number) = numberText (n : Ecma.Number) → Double.nearest m = Double.nearest n

/-- The request count as the canonical text has it, a double. -/
def RateLimitPolicy.rounded (rateLimit : RateLimitPolicy) : RateLimitPolicy :=
  { rateLimit with requests := (Double.nearest rateLimit.requests.toNat : ℤ) }

def Route.rounded (route : Route) : Route :=
  { route with rateLimit := route.rateLimit.map RateLimitPolicy.rounded }

/-- The document with each request count replaced by the double nearest to it. -/
def Document.rounded (document : Document) : Document :=
  { document with
    spec := { document.spec with routes := document.spec.routes.map Route.rounded } }

def CompiledRoute.rounded (route : CompiledRoute) : CompiledRoute :=
  { route with rateLimit := route.rateLimit.map RateLimitPolicy.rounded }

def Bundle.rounded (bundle : Bundle) : Bundle :=
  { bundle with routes := bundle.routes.map CompiledRoute.rounded }

/-- A count that validation accepts and that a Go `int` holds. -/
def RateLimitPolicy.InRange (rateLimit : RateLimitPolicy) : Prop :=
  0 < rateLimit.requests ∧ rateLimit.requests < 2 ^ 63

/-- The request counts fit the 64 bits of a Go integer. -/
def CompiledRoute.InRange (route : CompiledRoute) : Prop :=
  ∀ rateLimit ∈ route.rateLimit, rateLimit.InRange

def Bundle.InRange (bundle : Bundle) : Prop := ∀ route ∈ bundle.routes, route.InRange

section Canonical

variable {numberText : Ecma.Number → String}

/-- The canonical text does not tell a count from its double, so rounding a policy keeps its
version. -/
theorem RateLimitPolicy.canonicalize_rounded (hjcs : Rfc8785 numberText)
    {rateLimit : RateLimitPolicy} (hrange : rateLimit.InRange) :
    rateLimit.rounded.toJson.canonicalize numberText =
      rateLimit.toJson.canonicalize numberText := by
  have hcast : (rateLimit.requests : Ecma.Number) = (rateLimit.requests.toNat : ℕ) := by
    rw [← Int.cast_natCast, Int.toNat_of_nonneg hrange.1.le]
  have hlt : rateLimit.requests.toNat < 2 ^ 63 := by
    have hupper := hrange.2
    omega
  have htext : numberText (rateLimit.rounded.requests : Ecma.Number) =
      numberText (rateLimit.requests : Ecma.Number) := by
    rw [hcast, hjcs.rounds _ hlt]
    show numberText (((Double.nearest rateLimit.requests.toNat : ℕ) : ℤ) : Ecma.Number) = _
    rw [Int.cast_natCast]
  unfold RateLimitPolicy.toJson
  rw [canonicalize, canonicalize, canonicalFields_eq, canonicalFields_eq]
  simp only [List.map_cons, canonicalize, htext]
  rfl

theorem CompiledRoute.canonicalize_rounded (hjcs : Rfc8785 numberText) {route : CompiledRoute}
    (hrange : route.InRange) :
    route.rounded.toJson.canonicalize numberText = route.toJson.canonicalize numberText := by
  have hfield : (omitNil "rateLimit" RateLimitPolicy.toJson route.rounded.rateLimit).map
        (fun f => (f.1, f.2.canonicalize numberText)) =
      (omitNil "rateLimit" RateLimitPolicy.toJson route.rateLimit).map
        fun f => (f.1, f.2.canonicalize numberText) := by
    unfold rounded
    rcases hlimit : route.rateLimit with _ | rateLimit
    · rfl
    · have htext := RateLimitPolicy.canonicalize_rounded hjcs (hrange _ hlimit)
      simp only [omitNil, Option.map_some, List.map_cons, List.map_nil, htext]
  unfold CompiledRoute.toJson
  rw [canonicalize, canonicalize, canonicalFields_eq, canonicalFields_eq]
  simp only [List.map_append, hfield]
  rfl

theorem Bundle.canonicalize_rounded (hjcs : Rfc8785 numberText) {bundle : Bundle}
    (hrange : bundle.InRange) :
    bundle.rounded.toJson.canonicalize numberText = bundle.toJson.canonicalize numberText := by
  have hroutes : (Json.array (bundle.rounded.routes.map CompiledRoute.toJson)).canonicalize
        numberText =
      (Json.array (bundle.routes.map CompiledRoute.toJson)).canonicalize numberText := by
    unfold rounded
    rw [canonicalize, canonicalize, canonicalItems_eq, canonicalItems_eq]
    congr 1
    rw [List.map_map, List.map_map, List.map_map]
    apply List.map_congr_left
    intro route hroute
    exact CompiledRoute.canonicalize_rounded hjcs (hrange route hroute)
  unfold Bundle.toJson
  rw [canonicalize, canonicalize, canonicalFields_eq, canonicalFields_eq]
  simp only [List.map_append, List.map_cons, hroutes]
  rfl

/-- The counts in a rounded bundle. -/
def IsRounded (x : Ecma.Number) : Prop := ∃ n : ℕ, n < 2 ^ 63 ∧ x = (Double.nearest n : Ecma.Number)

/-- The canonical texts of doubles are numerals, and differ where the doubles do. -/
theorem Rfc8785.numerals (hjcs : Rfc8785 numberText) : Numerals numberText IsRounded where
  nonempty := by
    rintro _ ⟨n, hn, rfl⟩
    rw [← hjcs.rounds n hn]
    exact hjcs.nonempty n hn
  digits := by
    rintro _ ⟨n, hn, rfl⟩
    rw [← hjcs.rounds n hn]
    exact hjcs.digits n hn
  injective := by
    rintro _ _ ⟨m, hm, rfl⟩ ⟨n, hn, rfl⟩ htext
    rw [← hjcs.rounds m hm, ← hjcs.rounds n hn] at htext
    rw [hjcs.injective m n hm hn htext]

end Canonical

section Legible

variable {p : Ecma.Number → Prop}

theorem MethodMatcher.legible_toJson (matcher : MethodMatcher) : Legible p matcher.toJson := by
  refine .object (by simp) ?_
  simp [Legible.string, encodeStrings, legible_strings]

theorem JWTPolicy.legible_toJson (jwt : JWTPolicy) : Legible p jwt.toJson := by
  refine .object (by simp) ?_
  simp [Legible.string, Legible.bool, encodeStrings, legible_strings]

/-- Every number of a bundle is the request count of a rate limit. -/
theorem RateLimitPolicy.legible_toJson {rateLimit : RateLimitPolicy} (h : p rateLimit.requests) :
    Legible p rateLimit.toJson := by
  refine .object (by simp) ?_
  simp [Legible.string, Legible.number h]

theorem WAFRule.legible_toJson (rule : WAFRule) : Legible p rule.toJson := by
  refine .object ?_ ?_
  · by_cases h : rule.flags = "" <;> simp [omitEmpty, h]
  · by_cases h : rule.flags = "" <;> simp [omitEmpty, h, Legible.string]

theorem CompiledRoute.legible_toJson {route : CompiledRoute}
    (h : ∀ rateLimit ∈ route.rateLimit, p rateLimit.requests) : Legible p route.toJson := by
  have hmatch : Legible p route.routeMatch.toJson := by
    refine .object (by simp) ?_
    simp [Legible.string, encodeStrings, legible_strings]
  have hjwt : ∀ f ∈ omitNil "jwt" JWTPolicy.toJson route.jwt, Legible p f.2 := by
    cases route.jwt <;> simp [omitNil, JWTPolicy.legible_toJson]
  have hrateLimit : ∀ f ∈ omitNil "rateLimit" RateLimitPolicy.toJson route.rateLimit,
      Legible p f.2 := by
    rcases hlimit : route.rateLimit with _ | rateLimit
    · simp [omitNil]
    · simp [omitNil, RateLimitPolicy.legible_toJson (h rateLimit hlimit)]
  have hwaf : Legible p (.array (route.waf.map WAFRule.toJson)) :=
    legible_array fun rule _ => rule.legible_toJson
  cases route.wellFormed_toJson with | object hkeys _ =>
  refine .object hkeys ?_
  intro f hf
  simp only [List.mem_append] at hf
  rcases hf with ((hf | hf) | hf) | hf
  · simp only [List.mem_cons, List.not_mem_nil, or_false] at hf
    rcases hf with rfl | rfl | rfl
    · exact .string _
    · exact hmatch
    · exact .string _
  · exact hjwt f hf
  · exact hrateLimit f hf
  · unfold omitEmpty at hf
    split_ifs at hf
    · cases hf
    · rw [List.mem_singleton.mp hf]
      exact hwaf

theorem Bundle.legible_toJson {bundle : Bundle}
    (h : ∀ route ∈ bundle.routes, ∀ rateLimit ∈ route.rateLimit, p rateLimit.requests) :
    Legible p bundle.toJson := by
  have hmatchers : Legible p (.array (bundle.matchers.map MethodMatcher.toJson)) :=
    legible_array fun matcher _ => matcher.legible_toJson
  have hroutes : Legible p (.array (bundle.routes.map CompiledRoute.toJson)) :=
    legible_array fun route hroute => CompiledRoute.legible_toJson (h route hroute)
  refine .object ?_ ?_
  · by_cases h : bundle.version = "" <;> simp [omitEmpty, h]
  · by_cases h : bundle.version = "" <;>
      simp [omitEmpty, h, Legible.string, hmatchers, hroutes]

end Legible

/-- A rounded bundle is what its canonical form says. -/
theorem Bundle.rounded_eq_of_canonicalize {numberText : Ecma.Number → String}
    (hjcs : Rfc8785 numberText) {x y : Bundle} (hx : x.InRange) (hy : y.InRange)
    (h : x.toJson.canonicalize numberText = y.toJson.canonicalize numberText) :
    x.rounded = y.rounded := by
  have hlegible : ∀ z : Bundle, z.InRange → Legible IsRounded z.rounded.toJson := by
    intro z hz
    apply Bundle.legible_toJson
    intro route hroute rateLimit hlimit
    obtain ⟨original, horiginal, rfl⟩ := List.mem_map.mp hroute
    obtain ⟨counted, hcounted, rfl⟩ := Option.map_eq_some_iff.mp hlimit
    have hrange := hz original horiginal counted hcounted
    refine ⟨counted.requests.toNat, ?_, ?_⟩
    · have hupper := hrange.2
      omega
    · exact Int.cast_natCast _
  apply Bundle.toJson_injective
  apply Equiv.of_canonicalize_eq hjcs.numerals (hlegible x hx) (hlegible y hy)
  rw [Bundle.canonicalize_rounded hjcs hx, Bundle.canonicalize_rounded hjcs hy, h]

/-! ## What is compiled -/

section Compiled

variable {G : GoPlatform}

/-- A validated limit admits at least one request. -/
theorem validateRateLimit_ok {location : String} {hasJWT : Bool} {rateLimit : RateLimitPolicy}
    (h : validateRateLimit location hasJWT rateLimit = .ok ()) : 0 < rateLimit.requests := by
  unfold validateRateLimit at h
  split at h
  · cases h
  · omega

theorem validateRoute_ok {location : String} {route : Route}
    (h : validateRoute G location route = .ok ()) :
    ∀ rateLimit ∈ route.rateLimit, 0 < rateLimit.requests := by
  intro rateLimit hlimit
  unfold validateRoute at h
  split_ifs at h
  · obtain ⟨_, _, herror⟩ := Except.bind_eq_ok_iff.mp h
    cases herror
  obtain ⟨_, _, h⟩ := Except.bind_eq_ok_iff.mp h
  obtain ⟨_, _, h⟩ := Except.bind_eq_ok_iff.mp h
  simp only [Option.mem_def.mp hlimit] at h
  rcases hjwt : route.jwt with _ | jwt <;> simp only [hjwt] at h
  · obtain ⟨_, _, h⟩ := Except.bind_eq_ok_iff.mp h
    obtain ⟨_, hvalid, _⟩ := Except.bind_eq_ok_iff.mp h
    exact validateRateLimit_ok hvalid
  · obtain ⟨_, _, h⟩ := Except.bind_eq_ok_iff.mp h
    obtain ⟨_, hvalid, _⟩ := Except.bind_eq_ok_iff.mp h
    exact validateRateLimit_ok hvalid

/-- The loop over the routes has validated each of them. -/
theorem validateRoutes_ok {seen : List String} {index : ℕ} {routes : List Route}
    (h : validateRoutes G seen index routes = .ok ()) :
    ∀ route ∈ routes, ∀ rateLimit ∈ route.rateLimit, 0 < rateLimit.requests := by
  induction routes generalizing seen index with
  | nil => simp
  | cons head routes ih =>
    unfold validateRoutes at h
    split_ifs at h
    obtain ⟨_, hhead, hrest⟩ := Except.bind_eq_ok_iff.mp h
    intro route hroute
    rcases List.mem_cons.mp hroute with rfl | hroute
    · exact validateRoute_ok hhead
    · exact ih hrest route hroute

theorem validate_ok {document : Document} (h : validate G document = .ok ()) :
    document.apiVersion = APIVersionV1Alpha1 ∧ document.kind = KindSecurityPolicy ∧
      ∀ route ∈ document.spec.routes, ∀ rateLimit ∈ route.rateLimit, 0 < rateLimit.requests := by
  unfold validate at h
  split_ifs at h with hversion hkind
  exact ⟨not_not.mp hversion, not_not.mp hkind, validateRoutes_ok h⟩

/-- A bundle is assembled from a valid document and the matchers of its routes; its version is
the hash of what was assembled. -/
theorem compile_ok {document : Document} {bundle : Bundle} (h : compile G document = .ok bundle) :
    validate G document = .ok () ∧ ∃ matchers,
      compileMatchers G document.spec.routes = .ok matchers ∧
      bundle = { assemble document matchers with
        version := sha256Text G (canonicalMarshal G (assemble document matchers).toJson) } := by
  unfold compile at h
  split at h
  · cases h
  · next hvalid =>
    obtain ⟨matchers, hmatchers, h⟩ := Except.bind_eq_ok_iff.mp h
    exact ⟨hvalid, matchers, hmatchers, (Except.ok.inj h).symm⟩

/-- The matchers do not depend on the rate limits. -/
theorem compileMatchers_rounded (routes : List Route) :
    compileMatchers G (routes.map Route.rounded) = compileMatchers G routes := by
  unfold compileMatchers
  rw [List.foldlM_map]
  rfl

/-! ## The version as a content address -/

/-- Every request count fits into a Go `int`. -/
def Document.FitsGoInt (document : Document) : Prop :=
  ∀ route ∈ document.spec.routes, ∀ rateLimit ∈ route.rateLimit,
    -2 ^ 63 ≤ rateLimit.requests ∧ rateLimit.requests < 2 ^ 63

/-- What the version of a bundle is the hash of. -/
def versionedContent (G : GoPlatform) (bundle : Bundle) : Bytes :=
  canonicalMarshal G { bundle with version := "" }.toJson

/-- The contents of two bundles do not collide. -/
def CollisionFree (G : GoPlatform) (x y : Bundle) : Prop :=
  G.sha256 (versionedContent G x) = G.sha256 (versionedContent G y) →
    versionedContent G x = versionedContent G y

theorem sha256Text_ne_empty (G : GoPlatform) (bytes : Bytes) : sha256Text G bytes ≠ "" := by
  intro h
  have hlist := congrArg String.toList h
  simp [sha256Text] at hlist

/-- The hexadecimal text of a digest determines it. -/
theorem sha256Text_inj {x y : Bytes} (h : sha256Text G x = sha256Text G y) :
    G.sha256 x = G.sha256 y := by
  unfold sha256Text at h
  exact Bytes.hex_injective ((String.append_right_inj _).mp h)

/-- Assembly copies the counts, so a policy that fits Go integers gives a bundle that does. -/
theorem assemble_inRange {document : Document} (hvalid : validate G document = .ok ())
    (hint : document.FitsGoInt) (matchers : List MethodMatcher) :
    (assemble document matchers).InRange := by
  obtain ⟨_, _, hpositive⟩ := validate_ok hvalid
  intro route hroute rateLimit hlimit
  obtain ⟨original, horiginal, rfl⟩ := List.mem_map.mp hroute
  exact ⟨hpositive original horiginal rateLimit hlimit,
    (hint original horiginal rateLimit hlimit).2⟩

/-- A clone keeps every field. -/
theorem cloneRoute_injective {x y : Route} (h : cloneRoute x = cloneRoute y) : x = y := by
  cases x
  cases y
  simpa [cloneRoute] using h

theorem cloneRoute_rounded (route : Route) :
    cloneRoute route.rounded = (cloneRoute route).rounded := rfl

/-- Valid documents that are assembled alike are the same document. -/
theorem eq_of_assemble_eq {x y : Document} {matchers matchers' : List MethodMatcher}
    (hversion : x.apiVersion = y.apiVersion) (hkind : x.kind = y.kind)
    (h : assemble x matchers = assemble y matchers') : x = y := by
  obtain ⟨apiVersion, kind, ⟨name⟩, ⟨defaultDecision, routes⟩⟩ := x
  obtain ⟨apiVersion', kind', ⟨name'⟩, ⟨defaultDecision', routes'⟩⟩ := y
  simp only [assemble, Bundle.mk.injEq] at h
  obtain ⟨_, hname, hdecision, _, hroutes, _⟩ := h
  have hsame : routes = routes' :=
    List.map_injective_iff.mpr (fun _ _ => cloneRoute_injective) hroutes
  simp only at hversion hkind
  rw [hversion, hkind, hname, hdecision, hsame]

/-- Rounding before assembly or after it is the same. -/
theorem assemble_rounded (document : Document) (matchers : List MethodMatcher) :
    assemble document.rounded matchers = (assemble document matchers).rounded := by
  simp [assemble, Document.rounded, Bundle.rounded, cloneRoute_rounded, Function.comp_def]

variable {x y : Document} {bundle bundle' : Bundle}

/-- Two accepted documents compile to the same bundle only if they are the same. -/
theorem bundle_eq_iff (hx : compile G x = .ok bundle) (hy : compile G y = .ok bundle') :
    bundle = bundle' ↔ x = y := by
  constructor
  · intro h
    obtain ⟨hvalid, matchers, _, hbundle⟩ := compile_ok hx
    obtain ⟨hvalid', matchers', _, hbundle'⟩ := compile_ok hy
    obtain ⟨hversion, hkind, _⟩ := validate_ok hvalid
    obtain ⟨hversion', hkind', _⟩ := validate_ok hvalid'
    apply eq_of_assemble_eq (hversion.trans hversion'.symm) (hkind.trans hkind'.symm)
    have hunversioned := congrArg (fun b : Bundle => { b with version := "" }) h
    rw [hbundle, hbundle'] at hunversioned
    exact hunversioned
  · intro h
    rw [h, hy] at hx
    exact (Except.ok.inj hx).symm

/-- Two accepted documents get one version when they are the same up to the rounding of request
counts, and only then. -/
theorem version_eq_iff (hjcs : Rfc8785 G.numberText) (hx : compile G x = .ok bundle)
    (hy : compile G y = .ok bundle') (hintx : x.FitsGoInt) (hinty : y.FitsGoInt)
    (hcollision : CollisionFree G bundle bundle') :
    bundle.version = bundle'.version ↔ x.rounded = y.rounded := by
  obtain ⟨hvalid, matchers, hmatchers, hbundle⟩ := compile_ok hx
  obtain ⟨hvalid', matchers', hmatchers', hbundle'⟩ := compile_ok hy
  obtain ⟨hversion, hkind, _⟩ := validate_ok hvalid
  obtain ⟨hversion', hkind', _⟩ := validate_ok hvalid'
  have hrange := assemble_inRange hvalid hintx matchers
  have hrange' := assemble_inRange hvalid' hinty matchers'
  have hcontent : versionedContent G bundle =
      canonicalMarshal G (assemble x matchers).toJson := by
    rw [hbundle]
    rfl
  have hcontent' : versionedContent G bundle' =
      canonicalMarshal G (assemble y matchers').toJson := by
    rw [hbundle']
    rfl
  have htext : bundle.version = sha256Text G (versionedContent G bundle) := by
    rw [hcontent, hbundle]
  have htext' : bundle'.version = sha256Text G (versionedContent G bundle') := by
    rw [hcontent', hbundle']
  constructor
  · intro h
    rw [htext, htext'] at h
    have hsame := hcollision (sha256Text_inj h)
    rw [hcontent, hcontent'] at hsame
    have hrounded := Bundle.rounded_eq_of_canonicalize hjcs hrange hrange'
      (Bytes.utf8_injective hsame)
    rw [← assemble_rounded, ← assemble_rounded] at hrounded
    exact eq_of_assemble_eq (hversion.trans hversion'.symm) (hkind.trans hkind'.symm) hrounded
  · intro h
    -- the matchers are those of the rounded routes, and so is what is hashed
    have hroutes : x.spec.routes.map Route.rounded = y.spec.routes.map Route.rounded :=
      congrArg (fun d : Document => d.spec.routes) h
    have hmatch : matchers = matchers' := by
      rw [← compileMatchers_rounded, hroutes, compileMatchers_rounded, hmatchers'] at hmatchers
      exact (Except.ok.inj hmatchers).symm
    have hrounded : (assemble x matchers).rounded = (assemble y matchers').rounded := by
      rw [← assemble_rounded, ← assemble_rounded, h, hmatch]
    have hsame : versionedContent G bundle = versionedContent G bundle' := by
      rw [hcontent, hcontent']
      unfold canonicalMarshal
      rw [← Bundle.canonicalize_rounded hjcs hrange, ← Bundle.canonicalize_rounded hjcs hrange',
        hrounded]
    rw [htext, htext', hsame]

end Compiled

end ShieldWard.Control
