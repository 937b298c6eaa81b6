import ShieldWard.Edge.BundleParser
import ShieldWard.Lib.Fallible

/-!
# What the bundle parser accepts

The parser accepts exactly the JSON forms of valid envelopes: an accepted value is the JSON
form of the envelope that is returned, up to the order of fields, and every valid envelope is
read back from its JSON form (`parseBundleEnvelope_ok_iff`). Validity is stated part by part,
with the checks of the source.
-/

namespace ShieldWard.Edge

open Ecma Json

/-- A reported failure is no result, so an accepted value has passed every check. -/
@[simp] theorem fail_ne_ok {α : Type} {path message : String} {a : α} :
    (fail path message : Checked α) = .ok a ↔ False := by
  simp [fail]

/-! ## Checks of one value -/

/-- Arrays and null are no objects here, although `typeof` calls them so. -/
theorem expectObject_ok_iff {value : Option Json} {path : String} {fields : Fields} :
    expectObject value path = .ok fields ↔ value = some (.object fields) := by
  unfold expectObject
  split <;> simp_all

theorem expectArray_ok_iff {value : Option Json} {path : String} {items : List Json} :
    expectArray value path = .ok items ↔ value = some (.array items) := by
  unfold expectArray
  split <;> simp_all

theorem expectNonEmptyArray_ok_iff {value : Option Json} {path : String} {items : List Json} :
    expectNonEmptyArray value path = .ok items ↔ value = some (.array items) ∧ items ≠ [] := by
  unfold expectNonEmptyArray
  rw [Except.bind_eq_ok_iff]
  constructor
  · intro h
    rcases h with ⟨array, harray, h⟩
    split at h
    · exact absurd h (by simp)
    · next hne =>
      cases h
      exact ⟨expectArray_ok_iff.mp harray, hne⟩
  · intro h
    exact ⟨items, expectArray_ok_iff.mpr h.1, if_neg h.2⟩

/-- A text of spaces is taken for an empty one. -/
theorem expectNonEmptyString_ok_iff {value : Option Json} {path s : String} :
    expectNonEmptyString value path = .ok s ↔
      SameField (some (.string s)) value ∧ isBlank s = false := by
  unfold expectNonEmptyString
  rw [sameField_some_iff]
  split
  · next t =>
    by_cases ht : isBlank t = true
    · rw [if_pos ht]
      simp only [fail_ne_ok, false_iff]
      intro h
      rcases h with ⟨⟨y, hy, heq⟩, hs⟩
      cases hy
      rw [equiv_string_iff] at heq
      cases heq
      rw [ht] at hs
      cases hs
    · rw [if_neg ht]
      constructor
      · intro h
        cases h
        exact ⟨⟨_, rfl, Equiv.string _⟩, by simpa using ht⟩
      · intro h
        rcases h with ⟨⟨y, hy, heq⟩, _⟩
        cases hy
        rw [equiv_string_iff] at heq
        cases heq
        rfl
  · next hne =>
    simp only [fail_ne_ok, false_iff]
    intro h
    rcases h with ⟨⟨y, hy, heq⟩, _⟩
    rw [equiv_string_iff] at heq
    exact hne s (hy.trans (congrArg some heq))

/-- The items that are parsed are the JSON forms of the results. -/
theorem parseEach_ok_iff {α : Type} {parse : Option Json → String → Checked α}
    {toJson : α → Json} {Valid : α → Prop}
    (hparse : ∀ value path a,
      parse value path = .ok a ↔ SameField (some (toJson a)) value ∧ Valid a)
    {path : String} {index : ℕ} {items : List Json} {results : List α} :
    parseEach parse path index items = .ok results ↔
      List.Forall₂ Equiv (results.map toJson) items ∧ ∀ a ∈ results, Valid a := by
  induction items generalizing index results with
  | nil =>
    cases results <;> simp [parseEach]
  | cons item items ih =>
    rw [parseEach, Except.bind_eq_ok_iff]
    constructor
    · intro h
      rcases h with ⟨parsed, hparsed, h⟩
      rw [Except.bind_eq_ok_iff] at h
      rcases h with ⟨rest, hrest, h⟩
      cases h
      have hitem := (hparse _ _ _).mp hparsed
      have hitems := ih.mp hrest
      rw [sameField_some_some] at hitem
      exact ⟨.cons hitem.1 hitems.1, List.forall_mem_cons.mpr ⟨hitem.2, hitems.2⟩⟩
    · intro h
      cases results with
      | nil => exact absurd h.1 (by simp)
      | cons a results =>
        have hforall := List.forall₂_cons.mp h.1
        have hvalid := List.forall_mem_cons.mp h.2
        refine ⟨a, (hparse _ _ _).mpr ⟨sameField_some_some.mpr hforall.1, hvalid.1⟩, ?_⟩
        rw [Except.bind_eq_ok_iff]
        exact ⟨results, ih.mpr ⟨hforall.2, hvalid.2⟩, rfl⟩

theorem sameField_array_iff {xs : List Json} {value : Option Json} :
    SameField (some (.array xs)) value ↔
      ∃ items, value = some (.array items) ∧ List.Forall₂ Equiv xs items := by
  rw [sameField_some_iff]
  constructor
  · intro h
    rcases h with ⟨y, hy, heq⟩
    rcases equiv_array_iff.mp heq with ⟨items, rfl, hitems⟩
    exact ⟨items, hy, hitems⟩
  · intro h
    rcases h with ⟨items, hvalue, hitems⟩
    exact ⟨_, hvalue, equiv_array_iff.mpr ⟨items, rfl, hitems⟩⟩

/-- A non-empty array that is parsed item by item. -/
theorem nonEmptyArray_parseEach_ok_iff {α : Type} {parse : Option Json → String → Checked α}
    {toJson : α → Json} {Valid : α → Prop}
    (hparse : ∀ value path a,
      parse value path = .ok a ↔ SameField (some (toJson a)) value ∧ Valid a)
    {value : Option Json} {path path' : String} {results : List α} :
    (∃ items, expectNonEmptyArray value path = .ok items ∧
        parseEach parse path' 0 items = .ok results) ↔
      SameField (some (.array (results.map toJson))) value ∧ results ≠ [] ∧
        ∀ a ∈ results, Valid a := by
  rw [sameField_array_iff]
  constructor
  · intro h
    rcases h with ⟨items, hitems, h⟩
    have harray := expectNonEmptyArray_ok_iff.mp hitems
    have heach := (parseEach_ok_iff hparse).mp h
    refine ⟨⟨items, harray.1, heach.1⟩, ?_, heach.2⟩
    intro hnil
    apply harray.2
    rw [hnil] at heach
    exact List.forall₂_nil_left_iff.mp heach.1
  · intro h
    rcases h with ⟨⟨items, hvalue, hforall⟩, hne, hvalid⟩
    refine ⟨items, expectNonEmptyArray_ok_iff.mpr ⟨hvalue, ?_⟩,
      (parseEach_ok_iff hparse).mpr ⟨hforall, hvalid⟩⟩
    intro hnil
    apply hne
    rw [hnil] at hforall
    exact List.map_eq_nil_iff.mp (List.forall₂_nil_right_iff.mp hforall)

theorem expectNonEmptyStringArray_ok_iff {value : Option Json} {path : String}
    {texts : List String} :
    expectNonEmptyStringArray value path = .ok texts ↔
      SameField (some (strings texts)) value ∧ texts ≠ [] ∧
        ∀ s ∈ texts, isBlank s = false := by
  unfold expectNonEmptyStringArray
  rw [Except.bind_eq_ok_iff]
  exact nonEmptyArray_parseEach_ok_iff fun _ _ _ => expectNonEmptyString_ok_iff

theorem expectPositiveInteger_ok_iff {value : Option Json} {path : String} {n : Number} :
    expectPositiveInteger value path = .ok n ↔
      SameField (some (.number n)) value ∧ isSafeInteger n = true ∧ 0 < n := by
  unfold expectPositiveInteger
  rw [sameField_some_iff]
  split
  · next m =>
    have hcond : (!isSafeInteger m || m ≤ 0) = true ↔ ¬ (isSafeInteger m = true ∧ 0 < m) := by
      simp only [Bool.or_eq_true, Bool.not_eq_true', decide_eq_true_eq, not_and, not_lt]
      cases isSafeInteger m <;> simp
    simp only [hcond, ite_not]
    constructor
    · intro h
      split at h
      · next hm =>
        cases h
        exact ⟨⟨_, rfl, Equiv.number _⟩, hm⟩
      · exact absurd h (by simp)
    · intro h
      rcases h with ⟨⟨y, hy, heq⟩, hn⟩
      cases hy
      rw [equiv_number_iff] at heq
      cases heq
      rw [if_pos hn]
  · next hne =>
    simp only [fail_ne_ok, false_iff]
    intro h
    rcases h with ⟨⟨y, hy, heq⟩, _⟩
    rw [equiv_number_iff] at heq
    exact hne n (hy.trans (congrArg some heq))

/-- The pattern is tested only after the text has been found not to be blank. -/
theorem expectPattern_ok_iff {value : Option Json} {pattern : String → Bool} {path s : String} :
    expectPattern value pattern path = .ok s ↔
      SameField (some (.string s)) value ∧ isBlank s = false ∧ pattern s = true := by
  unfold expectPattern
  simp only [Except.bind_eq_ok_iff, expectNonEmptyString_ok_iff]
  constructor
  · intro h
    rcases h with ⟨t, ht, h⟩
    split at h
    · next hp =>
      cases h
      exact ⟨ht.1, ht.2, hp⟩
    · exact absurd h (by simp)
  · intro h
    exact ⟨s, ⟨h.1, h.2.1⟩, if_pos h.2.2⟩

/-- An enumeration whose table gives each value its own text. -/
theorem expectEnum_ok_iff {α : Type} {text : α → String} {allowed : List (String × α)}
    (htext : ∀ s a, allowed.lookup s = some a ↔ s = text a) {value : Option Json}
    {path : String} {a : α} :
    expectEnum value allowed path = .ok a ↔ SameField (some (.string (text a))) value := by
  unfold expectEnum
  rw [sameField_some_iff]
  split
  · next s =>
    constructor
    · intro h
      split at h
      · next b hb =>
        cases h
        exact ⟨_, rfl, equiv_string_iff.mpr (congrArg Json.string ((htext _ _).mp hb))⟩
      · exact absurd h (by simp)
    · intro h
      rcases h with ⟨y, hy, heq⟩
      cases hy
      rw [equiv_string_iff] at heq
      cases heq
      rw [(htext _ _).mpr rfl]
  · next hne =>
    simp only [fail_ne_ok, false_iff]
    intro h
    rcases h with ⟨y, hy, heq⟩
    rw [equiv_string_iff] at heq
    exact hne _ (hy.trans (congrArg some heq))

/-- The conditions on a URL of a bundle. -/
def AcceptsUrl (P : Platform) (requireHttps : Bool) (text : String) : Prop :=
  isBlank text = false ∧ ∃ url, P.parseUrl text = some url ∧
    (url.protocol = "http:" ∨ url.protocol = "https:") ∧
    url.username = "" ∧ url.password = "" ∧
    (if requireHttps then url.protocol = "https:" else usesSecureTransport url = true)

/-- A URL is accepted as it is written: the parsed form is only looked at. -/
theorem expectHttpUrl_ok_iff {P : Platform} {value : Option Json} {path : String}
    {requireHttps : Bool} {s : String} :
    expectHttpUrl P value path requireHttps = .ok s ↔
      SameField (some (.string s)) value ∧ AcceptsUrl P requireHttps s := by
  unfold expectHttpUrl AcceptsUrl
  simp only [Except.bind_eq_ok_iff, expectNonEmptyString_ok_iff]
  constructor
  · intro h
    rcases h with ⟨t, ht, h⟩
    split at h
    · exact absurd h (by simp)
    · next url hurl =>
      split_ifs at h with h₁ h₂ h₃ h₄
      · exact absurd h (by simp)
      · exact absurd h (by simp)
      · exact absurd h (by simp)
      · exact absurd h (by simp)
      · cases h
        refine ⟨ht.1, ht.2, url, hurl, ?_, ?_, ?_, ?_⟩
        · by_contra hne
          push Not at hne
          exact h₁ hne
        · by_contra hne
          exact h₂ (.inl hne)
        · by_contra hne
          exact h₂ (.inr hne)
        · cases requireHttps with
          | false => simpa using h₄
          | true => simpa using h₃
  · intro h
    rcases h with ⟨hsame, hblank, url, hurl, hscheme, huser, hpass, hsecure⟩
    refine ⟨s, ⟨hsame, hblank⟩, ?_⟩
    have h₁ : ¬ (url.protocol ≠ "http:" ∧ url.protocol ≠ "https:") := fun hne =>
      hscheme.elim hne.1 hne.2
    have h₂ : ¬ (url.username ≠ "" ∨ url.password ≠ "") := fun hne =>
      hne.elim (fun h => h huser) (fun h => h hpass)
    simp only [hurl, if_neg h₁, if_neg h₂]
    cases requireHttps with
    | false => simpa using hsecure
    | true => simpa using hsecure

/-- Nothing but the known keys; that they are there is checked where they are read. -/
theorem assertExactKeys_ok_iff {object : Fields} {allowed : List String} {path : String} :
    assertExactKeys object allowed path = .ok () ↔ ∀ f ∈ object, f.1 ∈ allowed := by
  unfold assertExactKeys
  split
  · next field hfind =>
    have hmem := List.mem_of_find?_eq_some hfind
    have hnot : field.1 ∉ allowed := by simpa using List.find?_some hfind
    simp only [fail_ne_ok, false_iff]
    intro h
    exact hnot (h field hmem)
  · next hfind =>
    simp only [true_iff]
    intro f hf
    simpa using List.find?_eq_none.mp hfind f hf

/-- An absent member parses to nothing, and a present one must parse. -/
theorem parseOptional_ok_iff {α : Type} {parse : Option Json → String → Checked α}
    {toJson : α → Json} {Valid : α → Prop}
    (hparse : ∀ value path a,
      parse value path = .ok a ↔ SameField (some (toJson a)) value ∧ Valid a)
    {object : Fields} {key path : String} {result : Option α} :
    parseOptional object key parse path = .ok result ↔
      SameField (result.map toJson) (object.lookup key) ∧ ∀ a ∈ result, Valid a := by
  unfold parseOptional
  split
  · next hnone =>
    cases result <;> simp [hnone]
  · next value hsome =>
    rw [Except.bind_eq_ok_iff, hsome]
    cases result with
    | none => simp
    | some a => simp [hparse]

/-- The member is written exactly where there is a value. -/
theorem lookup_optionalField {α : Type} (toJson : α → Json) (o : Option α) (key key' : String) :
    (optionalField key toJson o).lookup key' = if key' = key then o.map toJson else none := by
  cases o with
  | none => simp [optionalField]
  | some a =>
    rw [optionalField, List.lookup_cons]
    by_cases h : key' = key
    · simp [h]
    · have hbeq : (key' == key) = false := by simpa using h
      simp [hbeq, h]

/-! ## The parts of a bundle -/

/-- The conditions on a matcher. -/
structure MethodMatcher.Valid (P : Platform) (matcher : MethodMatcher) : Prop where
  method : isBlank matcher.method = false ∧ isMethodText matcher.method = true
  regex : isBlank matcher.regex = false
  constructs : (P.regExp.construct matcher.regex "").isSome = true
  routeIds : matcher.routeIds ≠ [] ∧ ∀ s ∈ matcher.routeIds, isBlank s = false

/-- The conditions on the match of a route. -/
structure RouteMatch.Valid (routeMatch : RouteMatch) : Prop where
  path : isBlank routeMatch.path = false ∧ routeMatch.path.toList.head? = some '/'
  methods : routeMatch.methods ≠ [] ∧ ∀ s ∈ routeMatch.methods, isBlank s = false
  methodTexts : ∀ s ∈ routeMatch.methods, isMethodText s = true

/-- What the parser demands of a JWT policy beyond the shape of its object. -/
structure JwtPolicy.Valid (P : Platform) (jwt : JwtPolicy) : Prop where
  issuer : AcceptsUrl P true jwt.issuer
  audience : jwt.audience ≠ [] ∧ ∀ s ∈ jwt.audience, isBlank s = false
  jwksUrl : AcceptsUrl P true jwt.jwksUrl

structure RateLimitPolicy.Valid (rateLimit : RateLimitPolicy) : Prop where
  requests : isSafeInteger rateLimit.requests = true ∧ 0 < rateLimit.requests
  window : isBlank rateLimit.window = false

structure WafRule.Valid (rule : WafRule) : Prop where
  id : isBlank rule.id = false
  pattern : isBlank rule.pattern = false

/-- A route is valid when its parts are. -/
structure CompiledRoute.Valid (P : Platform) (route : CompiledRoute) : Prop where
  id : isBlank route.id = false
  routeMatch : route.routeMatch.Valid
  upstream : AcceptsUrl P false route.upstream
  jwt : ∀ jwt ∈ route.jwt, jwt.Valid P
  rateLimit : ∀ rateLimit ∈ route.rateLimit, rateLimit.Valid
  waf : ∀ rules ∈ route.waf, ∀ rule ∈ rules, rule.Valid

/-- What an accepted bundle is: its parts are valid, and its version has the form of a hash. -/
structure Bundle.Valid (P : Platform) (bundle : Bundle) : Prop where
  policyName : isBlank bundle.policyName = false
  matchers : bundle.matchers ≠ [] ∧ ∀ matcher ∈ bundle.matchers, matcher.Valid P
  routes : bundle.routes ≠ [] ∧ ∀ route ∈ bundle.routes, route.Valid P
  version : isBlank bundle.version = false ∧ isSha256Text bundle.version = true

structure SignedBundleEnvelope.Valid (P : Platform) (envelope : SignedBundleEnvelope) :
    Prop where
  keyId : isBlank envelope.keyId = false ∧ isSha256Text envelope.keyId = true
  signature : isBlank envelope.signature = false ∧ isSignatureText envelope.signature = true
  bundle : envelope.bundle.Valid P

/-- An object that is read property by property, with the properties it may have. -/
theorem sameField_object_iff {xs : Fields} (allowed : List String)
    (hxs : ∀ f ∈ xs, f.1 ∈ allowed) {value : Option Json} :
    SameField (some (.object xs)) value ↔
      ∃ object, value = some (.object object) ∧ (∀ f ∈ object, f.1 ∈ allowed) ∧
        ∀ key ∈ allowed, SameField (xs.lookup key) (object.lookup key) := by
  rw [sameField_some_iff]
  constructor
  · intro h
    rcases h with ⟨y, hy, heq⟩
    rcases (equiv_object_iff_of_keys allowed hxs).mp heq with ⟨object, rfl, h⟩
    exact ⟨object, hy, h⟩
  · intro h
    rcases h with ⟨object, hvalue, h⟩
    exact ⟨_, hvalue, (equiv_object_iff_of_keys allowed hxs).mpr ⟨object, rfl, h⟩⟩

/-- The parser accepts exactly the objects of valid values, part by part up to the envelope. -/
theorem parseMatcher_ok_iff {P : Platform} {value : Option Json} {path : String}
    {matcher : MethodMatcher} :
    parseMatcher P value path = .ok matcher ↔
      SameField (some matcher.toJson) value ∧ matcher.Valid P := by
  unfold parseMatcher MethodMatcher.toJson
  rw [sameField_object_iff ["method", "regex", "routeIds"] (by simp)]
  simp only [Except.bind_eq_ok_iff, expectObject_ok_iff, expectPattern_ok_iff,
    expectNonEmptyString_ok_iff]
  constructor
  · intro h
    rcases h with ⟨object, hobject, _, hkeys, method, hmethod, regex, hregex, h⟩
    split at h
    · exact absurd h (by simp)
    · next hconstruct =>
      rw [Except.bind_eq_ok_iff] at h
      rcases h with ⟨routeIds, hids, h⟩
      cases h
      have hids := expectNonEmptyStringArray_ok_iff.mp hids
      refine ⟨⟨object, hobject, assertExactKeys_ok_iff.mp hkeys, ?_⟩,
        ⟨hmethod.2, hregex.2, Option.isSome_iff_ne_none.mpr (by simpa using hconstruct),
          hids.2⟩⟩
      simpa [List.lookup_cons] using ⟨hmethod.1, hregex.1, hids.1⟩
  · intro h
    rcases h with ⟨⟨object, hobject, hkeys, hsame⟩, hvalid⟩
    simp only [List.forall_mem_cons, List.lookup_cons] at hsame
    simp at hsame
    refine ⟨object, hobject, (), assertExactKeys_ok_iff.mpr hkeys, matcher.method,
      ⟨hsame.1, hvalid.method⟩, matcher.regex, ⟨hsame.2.1, hvalid.regex⟩, ?_⟩
    rw [if_neg (by simpa using Option.isSome_iff_ne_none.mp hvalid.constructs), Except.bind_eq_ok_iff]
    exact ⟨matcher.routeIds, expectNonEmptyStringArray_ok_iff.mpr ⟨hsame.2.2, hvalid.routeIds⟩,
      rfl⟩

/-- The loop over the methods goes on to its end when none of them is refused. -/
theorem checkMethods_ok_iff {path : String} {index : ℕ} {methods : List String} :
    checkMethods path index methods = .ok () ↔ ∀ s ∈ methods, isMethodText s = true := by
  induction methods generalizing index with
  | nil => simp [checkMethods]
  | cons method methods ih =>
    rw [checkMethods, List.forall_mem_cons]
    by_cases h : isMethodText method = true
    · rw [if_pos h, ih]
      simp [h]
    · rw [if_neg h]
      simp [h]

theorem parseRouteMatch_ok_iff {value : Option Json} {path : String} {routeMatch : RouteMatch} :
    parseRouteMatch value path = .ok routeMatch ↔
      SameField (some routeMatch.toJson) value ∧ routeMatch.Valid := by
  unfold parseRouteMatch RouteMatch.toJson
  rw [sameField_object_iff ["methods", "path"] (by simp)]
  simp only [Except.bind_eq_ok_iff, expectObject_ok_iff, expectNonEmptyString_ok_iff]
  constructor
  · intro h
    rcases h with ⟨object, hobject, _, hkeys, routePath, hpath, h⟩
    split at h
    · exact absurd h (by simp)
    · next hslash =>
      simp only [Except.bind_eq_ok_iff, expectNonEmptyStringArray_ok_iff] at h
      rcases h with ⟨methods, hmethods, _, hcheck, h⟩
      cases h
      refine ⟨⟨object, hobject, assertExactKeys_ok_iff.mp hkeys, ?_⟩,
        ⟨⟨hpath.2, by simpa using hslash⟩, hmethods.2, checkMethods_ok_iff.mp hcheck⟩⟩
      simpa [List.lookup_cons] using ⟨hmethods.1, hpath.1⟩
  · intro h
    rcases h with ⟨⟨object, hobject, hkeys, hsame⟩, hvalid⟩
    simp [List.lookup_cons] at hsame
    refine ⟨object, hobject, (), assertExactKeys_ok_iff.mpr hkeys, routeMatch.path,
      ⟨hsame.2, hvalid.path.1⟩, ?_⟩
    rw [if_neg (by simpa using hvalid.path.2)]
    simp only [Except.bind_eq_ok_iff, expectNonEmptyStringArray_ok_iff]
    exact ⟨routeMatch.methods, ⟨hsame.1, hvalid.methods⟩, (),
      checkMethods_ok_iff.mpr hvalid.methodTexts, rfl⟩

theorem parseJwtPolicy_ok_iff {P : Platform} {value : Option Json} {path : String}
    {jwt : JwtPolicy} :
    parseJwtPolicy P value path = .ok jwt ↔
      SameField (some jwt.toJson) value ∧ jwt.Valid P := by
  unfold parseJwtPolicy JwtPolicy.toJson
  rw [sameField_object_iff ["required", "issuer", "audience", "jwksUrl"] (by simp)]
  simp only [Except.bind_eq_ok_iff, expectObject_ok_iff]
  constructor
  · intro h
    rcases h with ⟨object, hobject, _, hkeys, h⟩
    split at h
    · next hrequired =>
      simp only [Except.bind_eq_ok_iff, expectHttpUrl_ok_iff, expectNonEmptyStringArray_ok_iff] at h
      rcases h with ⟨issuer, hissuer, audience, haudience, jwksUrl, hjwks, h⟩
      cases h
      refine ⟨⟨object, hobject, assertExactKeys_ok_iff.mp hkeys, ?_⟩,
        ⟨hissuer.2, haudience.2, hjwks.2⟩⟩
      simpa [List.lookup_cons, hrequired] using ⟨hissuer.1, haudience.1, hjwks.1⟩
    · exact absurd h (by simp)
  · intro h
    rcases h with ⟨⟨object, hobject, hkeys, hsame⟩, hvalid⟩
    simp [List.lookup_cons] at hsame
    have hrequired : object.lookup "required" = some (.bool true) := by
      rcases sameField_some_iff.mp hsame.1 with ⟨y, hy, heq⟩
      rw [hy, equiv_bool_iff.mp heq]
    refine ⟨object, hobject, (), assertExactKeys_ok_iff.mpr hkeys, ?_⟩
    simp only [hrequired, Except.bind_eq_ok_iff, expectHttpUrl_ok_iff,
      expectNonEmptyStringArray_ok_iff]
    exact ⟨jwt.issuer, ⟨hsame.2.1, hvalid.issuer⟩, jwt.audience,
      ⟨hsame.2.2.1, hvalid.audience⟩, jwt.jwksUrl, ⟨hsame.2.2.2, hvalid.jwksUrl⟩, rfl⟩

/-- The tables of the enumerations are injective: a text stands for one value. -/
theorem rateLimitKey_lookup (s : String) (key : RateLimitKey) :
    List.lookup s [("client-ip", RateLimitKey.clientIp), ("jwt.sub", RateLimitKey.jwtSub)] =
      some key ↔ s = key.text := by
  simp only [List.lookup_cons, List.lookup_nil]
  cases key <;> grind [RateLimitKey.text]

theorem parseRateLimit_ok_iff {value : Option Json} {path : String}
    {rateLimit : RateLimitPolicy} :
    parseRateLimit value path = .ok rateLimit ↔
      SameField (some rateLimit.toJson) value ∧ rateLimit.Valid := by
  unfold parseRateLimit RateLimitPolicy.toJson
  rw [sameField_object_iff ["requests", "window", "key"] (by simp)]
  simp only [Except.bind_eq_ok_iff, expectObject_ok_iff, expectPositiveInteger_ok_iff,
    expectNonEmptyString_ok_iff, expectEnum_ok_iff rateLimitKey_lookup]
  constructor
  · intro h
    rcases h with ⟨object, hobject, _, hkeys, requests, hrequests, window, hwindow, key, hkey, h⟩
    cases h
    refine ⟨⟨object, hobject, assertExactKeys_ok_iff.mp hkeys, ?_⟩, ⟨hrequests.2, hwindow.2⟩⟩
    simpa [List.lookup_cons] using ⟨hrequests.1, hwindow.1, hkey⟩
  · intro h
    rcases h with ⟨⟨object, hobject, hkeys, hsame⟩, hvalid⟩
    simp [List.lookup_cons] at hsame
    exact ⟨object, hobject, (), assertExactKeys_ok_iff.mpr hkeys, rateLimit.requests,
      ⟨hsame.1, hvalid.requests⟩, rateLimit.window, ⟨hsame.2.1, hvalid.window⟩, rateLimit.key,
      hsame.2.2, rfl⟩

theorem wafTarget_lookup (s : String) (target : WafTarget) :
    List.lookup s [("path", WafTarget.path), ("query", WafTarget.query),
        ("headers", WafTarget.headers), ("body", WafTarget.body)] = some target ↔
      s = target.text := by
  simp only [List.lookup_cons, List.lookup_nil]
  cases target <;> grind [WafTarget.text]

theorem wafAction_lookup (s : String) (action : WafAction) :
    List.lookup s [("block", WafAction.block), ("log", WafAction.log)] = some action ↔
      s = action.text := by
  simp only [List.lookup_cons, List.lookup_nil]
  cases action <;> grind [WafAction.text]

theorem wafFlags_lookup (s : String) (flags : WafFlags) :
    List.lookup s [("i", WafFlags.i)] = some flags ↔ s = flags.text := by
  simp only [List.lookup_cons, List.lookup_nil]
  cases flags
  grind [WafFlags.text]

theorem parseWafRule_ok_iff {value : Option Json} {path : String} {rule : WafRule} :
    parseWafRule value path = .ok rule ↔ SameField (some rule.toJson) value ∧ rule.Valid := by
  unfold parseWafRule WafRule.toJson
  rw [sameField_object_iff ["id", "target", "pattern", "flags", "action"]
    (by cases rule.flags <;> simp [optionalField])]
  simp only [Except.bind_eq_ok_iff, expectObject_ok_iff, expectNonEmptyString_ok_iff,
    expectEnum_ok_iff wafTarget_lookup, expectEnum_ok_iff wafAction_lookup]
  have hflags : ∀ (value : Option Json) (path : String) (flags : WafFlags),
      expectEnum value [("i", WafFlags.i)] path = .ok flags ↔
        SameField (some (.string flags.text)) value ∧ True := by
    intro value path flags
    rw [expectEnum_ok_iff wafFlags_lookup, and_true]
  constructor
  · intro h
    rcases h with ⟨object, hobject, _, hkeys, id, hid, target, htarget, pattern, hpattern, action,
      haction, flags, hf, h⟩
    cases h
    have hf := ((parseOptional_ok_iff hflags).mp hf).1
    refine ⟨⟨object, hobject, assertExactKeys_ok_iff.mp hkeys, ?_⟩, ⟨hid.2, hpattern.2⟩⟩
    simpa [List.lookup_cons, lookup_optionalField] using
      ⟨hid.1, htarget, hpattern.1, hf, haction⟩
  · intro h
    rcases h with ⟨⟨object, hobject, hkeys, hsame⟩, hvalid⟩
    simp [List.lookup_cons, lookup_optionalField] at hsame
    exact ⟨object, hobject, (), assertExactKeys_ok_iff.mpr hkeys, rule.id, ⟨hsame.1, hvalid.id⟩,
      rule.target, hsame.2.1, rule.pattern, ⟨hsame.2.2.1, hvalid.pattern⟩, rule.action,
      hsame.2.2.2.2, rule.flags,
      (parseOptional_ok_iff hflags).mpr ⟨hsame.2.2.2.1, fun _ _ => trivial⟩, rfl⟩

theorem parseWafRules_ok_iff {value : Option Json} {path : String} {rules : List WafRule} :
    parseWafRules value path = .ok rules ↔
      SameField (some (.array (rules.map WafRule.toJson))) value ∧
        ∀ rule ∈ rules, rule.Valid := by
  unfold parseWafRules
  rw [Except.bind_eq_ok_iff, sameField_array_iff]
  constructor
  · intro h
    rcases h with ⟨items, hitems, h⟩
    have heach := (parseEach_ok_iff fun _ _ _ => parseWafRule_ok_iff).mp h
    exact ⟨⟨items, expectArray_ok_iff.mp hitems, heach.1⟩, heach.2⟩
  · intro h
    rcases h with ⟨⟨items, hvalue, hforall⟩, hvalid⟩
    exact ⟨items, expectArray_ok_iff.mpr hvalue,
      (parseEach_ok_iff fun _ _ _ => parseWafRule_ok_iff).mpr ⟨hforall, hvalid⟩⟩

theorem parseRoute_ok_iff {P : Platform} {value : Option Json} {path : String}
    {route : CompiledRoute} :
    parseRoute P value path = .ok route ↔
      SameField (some route.toJson) value ∧ route.Valid P := by
  unfold parseRoute CompiledRoute.toJson
  rw [sameField_object_iff ["id", "match", "upstream", "jwt", "rateLimit", "waf"]
    (by cases route.jwt <;> cases route.rateLimit <;> cases route.waf <;> simp [optionalField])]
  simp only [Except.bind_eq_ok_iff, expectObject_ok_iff, expectNonEmptyString_ok_iff,
    parseRouteMatch_ok_iff, expectHttpUrl_ok_iff,
    parseOptional_ok_iff fun _ _ _ => parseJwtPolicy_ok_iff,
    parseOptional_ok_iff fun _ _ _ => parseRateLimit_ok_iff,
    parseOptional_ok_iff fun _ _ _ => parseWafRules_ok_iff]
  constructor
  · intro h
    rcases h with ⟨object, hobject, _, hkeys, id, hid, routeMatch, hmatch, upstream, hupstream,
      jwt, hjwt, rateLimit, hrateLimit, waf, hwaf, h⟩
    cases h
    refine ⟨⟨object, hobject, assertExactKeys_ok_iff.mp hkeys, ?_⟩,
      ⟨hid.2, hmatch.2, hupstream.2, hjwt.2, hrateLimit.2, hwaf.2⟩⟩
    simpa [List.lookup_cons, List.lookup_append, lookup_optionalField] using
      ⟨hid.1, hmatch.1, hupstream.1, hjwt.1, hrateLimit.1, hwaf.1⟩
  · intro h
    rcases h with ⟨⟨object, hobject, hkeys, hsame⟩, hvalid⟩
    simp [List.lookup_cons, List.lookup_append, lookup_optionalField] at hsame
    exact ⟨object, hobject, (), assertExactKeys_ok_iff.mpr hkeys, route.id,
      ⟨hsame.1, hvalid.id⟩, route.routeMatch, ⟨hsame.2.1, hvalid.routeMatch⟩, route.upstream,
      ⟨hsame.2.2.1, hvalid.upstream⟩, route.jwt, ⟨hsame.2.2.2.1, hvalid.jwt⟩, route.rateLimit,
      ⟨hsame.2.2.2.2.1, hvalid.rateLimit⟩, route.waf, ⟨hsame.2.2.2.2.2, hvalid.waf⟩, rfl⟩

/-! ## The envelope -/

theorem defaultDecision_lookup (s : String) (decision : DefaultDecision) :
    List.lookup s [("allow", DefaultDecision.allow), ("deny", DefaultDecision.deny)] =
      some decision ↔ s = decision.text := by
  simp only [List.lookup_cons, List.lookup_nil]
  cases decision <;> grind [DefaultDecision.text]

/-- The table of an enumeration with one text. -/
theorem constant_lookup (text s : String) (u : Unit) :
    List.lookup s [(text, ())] = some u ↔ s = text := by
  simp only [List.lookup_cons, List.lookup_nil]
  grind

/-- A bundle is accepted exactly when it is the object of a valid bundle, whatever the order of
its members. -/
theorem parseBundle_ok_iff {P : Platform} {value : Option Json} {bundle : Bundle} :
    parseBundle P value = .ok bundle ↔
      SameField (some bundle.toJson) value ∧ bundle.Valid P := by
  unfold parseBundle Bundle.toJson UnversionedBundle.fields
  rw [sameField_object_iff
    ["schemaVersion", "policyName", "defaultDecision", "matchers", "routes", "version"]
    (by simp)]
  simp only [Except.bind_eq_ok_iff, expectObject_ok_iff, expectNonEmptyString_ok_iff,
    expectPattern_ok_iff, expectEnum_ok_iff defaultDecision_lookup,
    expectEnum_ok_iff (constant_lookup BUNDLE_SCHEMA_VERSION)]
  constructor
  · intro h
    rcases h with ⟨object, hobject, _, hkeys, _, hschema, decision, hdecision, matcherItems,
      hmatcherItems, matchers, hmatchers, routeItems, hrouteItems, routes, hroutes, policyName,
      hname, version, hversion, h⟩
    cases h
    have hmatchers := (nonEmptyArray_parseEach_ok_iff fun _ _ _ => parseMatcher_ok_iff).mp
      ⟨matcherItems, hmatcherItems, hmatchers⟩
    have hroutes := (nonEmptyArray_parseEach_ok_iff fun _ _ _ => parseRoute_ok_iff).mp
      ⟨routeItems, hrouteItems, hroutes⟩
    refine ⟨⟨object, hobject, assertExactKeys_ok_iff.mp hkeys, ?_⟩,
      ⟨hname.2, hmatchers.2, hroutes.2, hversion.2⟩⟩
    simpa [List.lookup_cons] using
      ⟨hschema, hname.1, hdecision, hmatchers.1, hroutes.1, hversion.1⟩
  · intro h
    rcases h with ⟨⟨object, hobject, hkeys, hsame⟩, hvalid⟩
    simp [List.lookup_cons] at hsame
    obtain ⟨matcherItems, hmatcherItems, hmatchers⟩ :
        ∃ items, expectNonEmptyArray (object.lookup "matchers") "envelope.bundle.matchers" =
            .ok items ∧
          parseEach (parseMatcher P) "envelope.bundle.matchers" 0 items = .ok bundle.matchers :=
      (nonEmptyArray_parseEach_ok_iff fun _ _ _ => parseMatcher_ok_iff).mpr
        ⟨hsame.2.2.2.1, hvalid.matchers⟩
    obtain ⟨routeItems, hrouteItems, hroutes⟩ :
        ∃ items, expectNonEmptyArray (object.lookup "routes") "envelope.bundle.routes" =
            .ok items ∧
          parseEach (parseRoute P) "envelope.bundle.routes" 0 items = .ok bundle.routes :=
      (nonEmptyArray_parseEach_ok_iff fun _ _ _ => parseRoute_ok_iff).mpr
        ⟨hsame.2.2.2.2.1, hvalid.routes⟩
    exact ⟨object, hobject, (), assertExactKeys_ok_iff.mpr hkeys, (), hsame.1,
      bundle.defaultDecision, hsame.2.2.1, matcherItems, hmatcherItems, bundle.matchers, hmatchers,
      routeItems, hrouteItems, bundle.routes, hroutes, bundle.policyName,
      ⟨hsame.2.1, hvalid.policyName⟩, bundle.version, ⟨hsame.2.2.2.2.2, hvalid.version⟩, rfl⟩

/-- The parser accepts exactly the JSON forms of valid envelopes. -/
theorem parseBundleEnvelope_ok_iff {P : Platform} {value : Json}
    {envelope : SignedBundleEnvelope} :
    parseBundleEnvelope P value = .ok envelope ↔
      Equiv envelope.toJson value ∧ envelope.Valid P := by
  unfold parseBundleEnvelope SignedBundleEnvelope.toJson
  rw [← sameField_some_some, sameField_object_iff ["algorithm", "keyId", "bundle", "signature"]
    (by simp)]
  simp only [Except.bind_eq_ok_iff, expectObject_ok_iff, expectPattern_ok_iff, parseBundle_ok_iff,
    expectEnum_ok_iff (constant_lookup SIGNATURE_ALGORITHM)]
  constructor
  · intro h
    rcases h with ⟨object, hobject, _, hkeys, _, halgorithm, keyId, hkeyId, signature, hsignature,
      bundle, hbundle, h⟩
    cases h
    refine ⟨⟨object, hobject, assertExactKeys_ok_iff.mp hkeys, ?_⟩,
      ⟨hkeyId.2, hsignature.2, hbundle.2⟩⟩
    simpa [List.lookup_cons] using ⟨halgorithm, hkeyId.1, hbundle.1, hsignature.1⟩
  · intro h
    rcases h with ⟨⟨object, hobject, hkeys, hsame⟩, hvalid⟩
    simp [List.lookup_cons] at hsame
    exact ⟨object, hobject, (), assertExactKeys_ok_iff.mpr hkeys, (), hsame.1, envelope.keyId,
      ⟨hsame.2.1, hvalid.keyId⟩, envelope.signature, ⟨hsame.2.2.2, hvalid.signature⟩,
      envelope.bundle, ⟨hsame.2.2.1, hvalid.bundle⟩, rfl⟩

end ShieldWard.Edge
