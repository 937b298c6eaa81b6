import ShieldWard.Delivery.Signed
import ShieldWard.Edge.PolicyEngineTheorems
import ShieldWard.Edge.Proxy

/-!
# Which installed bundles can be enforced

The configuration client installs every bundle that verifies; an engine is built from it when
the next request comes. The checks of the parser do not cover those of the constructors, so
what is left of these is a condition on the bundle. The verifier adds one of its own: nothing
checks that the subject of a token is a string, and a limit by subject trims it.
-/

namespace ShieldWard.Delivery

open Edge PolicyEngine

/-- A request that a client can make: the platform has parsed its URL, of the scheme of HTTP, its
method is a token, its headers are valid, and it has a body only where requests have one. -/
structure Requested (P : Platform) (input : PolicyRequest) : Prop where
  url : ∃ text, P.parseUrl text = some input.url
  scheme : input.url.protocol = "http:" ∨ input.url.protocol = "https:"
  method : isHeaderName input.method = true
  headers : ∀ header ∈ input.headers, isHeaderName header.1 = true ∧ isHeaderValue header.2 = true
  body : input.method = "GET" ∨ input.method = "HEAD" → input.body = none

/-- What the parser leaves open: the IDs and methods differ, the matchers are anchored and name
known routes, each of their matches on a request takes part in one of the named groups, and the
rules of each route have different IDs and patterns that construct. -/
structure Enforceable (P : Platform) (bundle : Bundle) : Prop where
  routeIds : (bundle.routes.map (·.id)).Nodup
  methods : (bundle.matchers.map (·.method)).Nodup
  anchored : ∀ matcher ∈ bundle.matchers, RouteMatcher.isAnchored matcher.regex = true
  known : ∀ matcher ∈ bundle.matchers, ∀ routeId ∈ matcher.routeIds,
    ∃ route ∈ bundle.routes, route.id = routeId
  identifies : ∀ input, Requested P input → ∀ matcher ∈ bundle.matchers,
    matcher.method = P.toUpperCase input.method → ∀ regex found,
    P.regExp.construct matcher.regex "" = some regex →
    P.regExp.exec regex input.url.pathname = some found →
    ∃ i < matcher.routeIds.length, ∃ span, found[i + 1]? = some (some span)
  ruleIds : ∀ route ∈ bundle.routes, ((route.waf.getD []).map (·.id)).Nodup
  patterns : ∀ route ∈ bundle.routes, ∀ rule ∈ route.waf.getD [],
    (P.regExp.construct rule.pattern rule.flagText).isSome = true

/-- No request gets past the firewall of a route that verifies a token and counts by its subject. -/
def NeedsNoSubject (P : Platform) (bundle : Bundle) : Prop :=
  ∀ input, Requested P input → ∀ route, Resolves P bundle input route →
    route.jwt.isSome = true → ¬LimitsSubject route

abbrev Verifier := Option String → JwtPolicy → Option VerifiedJwt

/-- An engine is built from the bundle, and with each of these verifiers all its calls return a
decision. -/
def IsEnforced (P : Platform) (bundle : Bundle) (verifiers : Verifier → Prop) : Prop :=
  ∃ engine, PolicyEngine.new P bundle = .ok engine ∧
    ∀ verifyAuthorization, verifiers verifyAuthorization → ∀ check input, Requested P input →
      ∃ decision, engine.outcome verifyAuthorization check input = .ok (.decided decision)

/-- A verifier of tokens whose subjects are strings. -/
def ReturnsText (verifyAuthorization : Verifier) : Prop :=
  ∀ authorization policy jwt, verifyAuthorization authorization policy = some jwt →
    TextSubject jwt

/-- What an engine needs to be built, from an engine that decides whenever the verifier rejects. -/
theorem enforceable_of_isEnforced {P : Platform} {bundle : Bundle} {verifiers : Verifier → Prop}
    (hrejects : verifiers fun _ _ => none) (h : IsEnforced P bundle verifiers) :
    Enforceable P bundle := by
  have ⟨engine, hnew, hdecides⟩ := h
  have ⟨hmatcher, _⟩ := parts_of_new hnew
  have ⟨hconstructible, hwaf⟩ := new_ok_iff.mp ⟨engine, hnew⟩
  refine ⟨hconstructible.routeIds, hconstructible.methods, hconstructible.anchored,
    hconstructible.known, ?_, ?_, ?_⟩
  · intro input hrequested matcher hmem hmethod regex found hregex hfound
    have ⟨hresolves, _⟩ := outcome_ok_iff.mp
      (hdecides _ hrejects (fun _ _ _ => none) input hrequested)
    exact (RouteMatcher.resolve_ok_iff hmatcher).mp hresolves matcher hmem hmethod regex found
      hregex hfound
  · exact fun route hroute => (WafEvaluator.new_ok_iff.mp (hwaf route hroute)).1
  · exact fun route hroute => (WafEvaluator.new_ok_iff.mp (hwaf route hroute)).2

/-- The engine of an enforceable bundle, whose calls decide unless a subject stands in the way. -/
theorem engine_of_enforceable {P : Platform} {bundle : Bundle} (hvalid : bundle.Valid P)
    (h : Enforceable P bundle) :
    ∃ engine, PolicyEngine.new P bundle = .ok engine ∧ ∀ input, Requested P input →
      ∃ resolution, engine.matcher.resolve input.method input.url.pathname = .ok resolution := by
  have hconstructible : RouteMatcher.Constructible P bundle :=
    ⟨h.routeIds, h.methods, h.anchored, h.known,
      fun matcher hmem => (hvalid.matchers.2 matcher hmem).constructs⟩
  have hwaf : ∀ route ∈ bundle.routes, ∃ waf, WafEvaluator.new P route = .ok waf :=
    fun route hroute => WafEvaluator.new_ok_iff.mpr ⟨h.ruleIds route hroute, h.patterns route hroute⟩
  have ⟨engine, hnew⟩ := new_ok_iff.mpr ⟨hconstructible, hwaf⟩
  have ⟨hmatcher, _⟩ := parts_of_new hnew
  exact ⟨engine, hnew, fun input hrequested =>
    (RouteMatcher.resolve_ok_iff hmatcher).mpr (h.identifies input hrequested)⟩

/-- A verifier that gives every token the same number as its subject. -/
def numbered : Verifier := fun _ _ =>
  some { subject := some (.number 12345), payload := .null, protectedHeader := .null }

/-- An engine that decides whatever the verifier returns needs no subject. -/
theorem needsNoSubject_of_isEnforced {P : Platform} {bundle : Bundle}
    (h : IsEnforced P bundle fun _ => True) : NeedsNoSubject P bundle := by
  have ⟨engine, hnew, hdecides⟩ := h
  intro input hrequested route hresolves hjwt hlimits
  obtain ⟨policy, hpolicy⟩ := Option.isSome_iff_exists.mp hjwt
  obtain ⟨wafMatches, hevaluate⟩ := evaluate_of_resolves hnew hresolves hpolicy
  have ⟨_, hsubjects⟩ := outcome_ok_iff.mp
    (hdecides numbered trivial (fun _ _ _ => none) input hrequested)
  obtain ⟨identity, heq⟩ := hsubjects route wafMatches _ policy _ hevaluate hlimits rfl _ rfl
  cases heq

/-- **Enforcement.** A bundle that verifies can be enforced whatever the verifier returns exactly
when it meets the rest of the conditions and needs no subject; with verifiers that return texts for
subjects, exactly when it meets the rest of the conditions. -/
theorem installed_is_enforced_iff (P : Platform) (trustedKeys : TrustedKeyring) (value : Json)
    (envelope : SignedBundleEnvelope)
    (h : verifyBundleEnvelope P value trustedKeys = .ok envelope) :
    (IsEnforced P envelope.bundle (fun _ => True) ↔
      Enforceable P envelope.bundle ∧ NeedsNoSubject P envelope.bundle) ∧
    (IsEnforced P envelope.bundle ReturnsText ↔ Enforceable P envelope.bundle) := by
  have hvalid := (verifyBundleEnvelope_valid h).bundle
  refine ⟨⟨fun henforced => ?_, fun hfits => ?_⟩, fun henforced => ?_, fun hfits => ?_⟩
  · exact ⟨enforceable_of_isEnforced trivial henforced, needsNoSubject_of_isEnforced henforced⟩
  · have ⟨engine, hnew, hresolves⟩ := engine_of_enforceable hvalid hfits.1
    refine ⟨engine, hnew, fun verifyAuthorization _ check input hrequested => ?_⟩
    refine outcome_ok_iff.mpr ⟨hresolves input hrequested, ?_⟩
    intro route wafMatches authorization policy jwt hevaluate hlimits _
    rcases evaluate_cases hnew hevaluate with
      ⟨_, heq⟩ | heq | ⟨route', _, hroute, ⟨policy', hpolicy, heq⟩ | ⟨_, heq⟩⟩
    · cases heq
    · cases heq
    · cases heq
      exact absurd hlimits (hfits.2 input hrequested route hroute (by rw [hpolicy]; rfl))
    · exact absurd heq.symm (limitRate_ne_verifyingJwt _ _ _ _)
  · refine enforceable_of_isEnforced ?_ henforced
    intro _ _ _ hnone
    cases hnone
  · have ⟨engine, hnew, hresolves⟩ := engine_of_enforceable hvalid hfits
    refine ⟨engine, hnew, fun verifyAuthorization htext check input hrequested => ?_⟩
    refine outcome_ok_iff.mpr ⟨hresolves input hrequested, ?_⟩
    intro route wafMatches authorization policy jwt _ _ hjwt
    exact htext authorization policy jwt hjwt

open Orders in
theorem installed_is_enforced_iff_orders :
    (IsEnforced edgePlatform received.bundle (fun _ => True) ↔
      Enforceable edgePlatform received.bundle ∧ NeedsNoSubject edgePlatform received.bundle) ∧
    (IsEnforced edgePlatform received.bundle ReturnsText ↔
      Enforceable edgePlatform received.bundle) :=
  installed_is_enforced_iff edgePlatform keyring envelope.toJson received verify_envelope

namespace Orders

def repeatedReceived : Edge.SignedBundleEnvelope :=
  { received with
    bundle := { received.bundle with
      routes := received.bundle.routes.map fun route =>
        { route with waf := route.waf.map fun rules =>
            rules.modify 0 fun rule => { rule with pattern := "^*" } }
      version := repeated.version }
    signature := repeatedEnvelope.signature }

theorem evaluated_repeated :
    Control.compile goPlatform repeatedDocument = .ok repeated ∧
      Control.sign goPlatform repeated privateKey = .ok repeatedEnvelope ∧
      Edge.parseBundleEnvelope edgePlatform repeatedEnvelope.toJson = .ok repeatedReceived := by
  refine ⟨?_, ?_, ?_⟩ <;> decide +kernel

theorem compile_repeated : Control.compile goPlatform repeatedDocument = .ok repeated :=
  evaluated_repeated.1

theorem sign_repeated : Control.sign goPlatform repeated privateKey = .ok repeatedEnvelope :=
  evaluated_repeated.2.1

theorem verify_repeated :
    Edge.verifyBundleEnvelope edgePlatform repeatedEnvelope.toJson keyring =
      .ok repeatedReceived := by
  have hparsed := evaluated_repeated.2.2
  have hequiv := (Edge.parseBundleEnvelope_ok_iff.mp hparsed).1
  exact Edge.verifyBundleEnvelope_ok_iff.mpr
    ⟨hparsed, trusted_of_sign agree sign_repeated trusts_key hequiv⟩

end Orders

open Orders in
/-- A policy that compiles, is signed and verifies, and from which no engine is built. -/
theorem installed_not_enforced :
    Control.compile goPlatform repeatedDocument = .ok repeated ∧
      Control.sign goPlatform repeated privateKey = .ok repeatedEnvelope ∧
      ¬ ∀ (P : Platform) (trustedKeys : TrustedKeyring) (value : Json)
          (envelope : SignedBundleEnvelope),
        verifyBundleEnvelope P value trustedKeys = .ok envelope →
          IsEnforced P envelope.bundle fun _ => True := by
  refine ⟨compile_repeated, sign_repeated, fun hall => ?_⟩
  have ⟨engine, hnew, _⟩ := hall edgePlatform keyring _ _ verify_repeated
  have hwaf := (PolicyEngine.new_ok_iff.mp ⟨engine, hnew⟩).2 _ List.mem_cons_self
  have hpattern := (WafEvaluator.new_ok_iff.mp hwaf).2 _ List.mem_cons_self
  exact absurd hpattern (by decide)

end ShieldWard.Delivery
