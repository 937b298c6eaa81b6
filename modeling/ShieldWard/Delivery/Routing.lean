import ShieldWard.Control.Matchers
import ShieldWard.Delivery.Signed
import ShieldWard.Edge.PolicyEngineTheorems

/-!
# Routing across the two sides

The control plane joins the path templates of a method into one expression, with a group for each
route, and the edge tells the route from the first group that is defined. With the engine of
ECMAScript this is the first route of the document that lists the method and whose template stands
for the path.
-/

namespace ShieldWard.Delivery

open Json Regex Control

/-! ## The engine of the edge -/

/-- The text of an expression with an alternative in a group of its own for each path. -/
def alternationSource (alternatives : List (List Token)) : String :=
  "^(?:" ++ "|".intercalate (alternatives.map fun tokens =>
    "(" ++ String.ofList (pathSource tokens) ++ ")") ++ ")$"

/-- A path as a parsed URL holds it. -/
def Printable (path : String) : Prop := ∀ c ∈ path.toList, 0x20 ≤ c.toNat ∧ c.toNat ≤ 0x7e

/-- The expressions of paths run as ECMAScript says: the alternatives are tried from left to right,
repetitions are greedy and backtrack, and a group is defined if it took part in the match. -/
structure EcmaScript (R : Edge.RegExpApi) : Prop where
  runs : ∀ alternatives : List (List Token), alternatives ≠ [] →
    ∃ regex, R.construct (alternationSource alternatives) "" = some regex ∧
      ∀ path, Printable path →
        (R.exec regex path).map List.tail =
          (exec pathEngine path.toList (anchored (alternatives.map pathExpr))).map fun found =>
            (List.range alternatives.length).map fun i => found.caps (i + 1)

theorem Printable.free {path : String} (h : Printable path) :
    ∀ c ∈ path.toList, isLineTerminator c = false := by
  intro c hc
  have hbounds := h c hc
  simp only [isLineTerminator, List.mem_cons, List.not_mem_nil, or_false, decide_eq_false_iff_not,
    not_or]
  refine ⟨?_, ?_, ?_, ?_⟩ <;> rintro rfl <;> revert hbounds <;> decide

/-- The expression of a route matches the whole path when the route stands for it. -/
theorem matches_route_iff {path : String} (h : Printable path) (route : Route) :
    Matches pathEngine.toDialect path.toList (pathExpr (routeTokens route)) 0 path.toList.length ↔
      MatchesPath route.routeMatch.path path := by
  rw [matches_pathExpr_iff (Nat.zero_le _), List.drop_zero]
  exact spells_templateTokens_iff h.free

/-! ## What the edge receives -/

/-- The received bundle has the matchers and the routes of the compiled one. -/
structure Received (bundle : Control.Bundle) (received : Edge.Bundle) : Prop where
  defaultDecision : received.defaultDecision.text = bundle.defaultDecision
  matchers : List.Forall₂ (fun (x : Edge.MethodMatcher) (y : Control.MethodMatcher) =>
    x.method = y.method ∧ x.regex = y.regex ∧ x.routeIds = y.routeIDs)
    received.matchers bundle.matchers
  routes : List.Forall₂ (fun (x : Edge.CompiledRoute) (y : Control.CompiledRoute) =>
    Equiv x.toJson y.toJson) received.routes bundle.routes

theorem eq_of_equiv_strings {xs ys : List String}
    (h : Equiv (Edge.strings xs) (encodeStrings ys)) : xs = ys :=
  encodeStrings_injective h

theorem received_of_equiv {bundle : Control.Bundle} {received : Edge.Bundle}
    (h : Equiv received.toJson bundle.toJson) : Received bundle received := by
  have hdecision := Equiv.sameField h "defaultDecision"
  have hmatchers := Equiv.sameField h "matchers"
  have hroutes := Equiv.sameField h "routes"
  simp [Edge.UnversionedBundle.fields, List.lookup_cons] at hdecision hmatchers hroutes
  obtain ⟨_, heq, hmatchers⟩ := equiv_array_iff.mp hmatchers
  rw [← Json.array.inj heq, List.forall₂_map_left_iff, List.forall₂_map_right_iff] at hmatchers
  obtain ⟨_, heq, hroutes⟩ := equiv_array_iff.mp hroutes
  rw [← Json.array.inj heq, List.forall₂_map_left_iff, List.forall₂_map_right_iff] at hroutes
  refine ⟨hdecision.symm, hmatchers.imp fun x y hxy => ?_, hroutes⟩
  have hmethod := Equiv.sameField hxy "method"
  have hregex := Equiv.sameField hxy "regex"
  have hrouteIds := Equiv.sameField hxy "routeIds"
  simp [List.lookup_cons] at hmethod hregex hrouteIds
  exact ⟨hmethod.symm, hregex.symm, eq_of_equiv_strings hrouteIds⟩

theorem id_of_equiv {x : Edge.CompiledRoute} {y : Control.CompiledRoute}
    (h : Equiv x.toJson y.toJson) : x.id = y.id := by
  have hid := Equiv.sameField h "id"
  simp at hid
  exact hid.symm

/-! ## The matcher of the edge -/

variable {P : Edge.Platform} {G : GoPlatform}

/-- The IDs of the routes of a valid document differ. -/
theorem nodup_of_validateRoutes {routes : List Route} :
    ∀ {seen : List String} {index : ℕ}, validateRoutes G seen index routes = .ok () →
      (routes.map (·.id)).Nodup ∧ ∀ route ∈ routes, route.id ∉ seen := by
  induction routes with
  | nil => simp
  | cons route routes ih =>
    intro seen index h
    unfold validateRoutes at h
    split_ifs at h with _ hseen
    obtain ⟨_, _, hrest⟩ := Except.bind_eq_ok_iff.mp h
    obtain ⟨hnodup, hfresh⟩ := ih hrest
    refine ⟨List.nodup_cons.mpr ⟨fun hmem => ?_, hnodup⟩, List.forall_mem_cons.mpr ⟨hseen, ?_⟩⟩
    · obtain ⟨other, hother, hid⟩ := List.mem_map.mp hmem
      exact hfresh other hother (hid ▸ List.mem_cons_self)
    · exact fun other hother hmem => hfresh other hother (List.mem_cons_of_mem _ hmem)

/-- The joined expression of the routes of a method. -/
theorem combine_eq (routes : List Route) :
    combine (routes.map routePattern) = alternationSource (routes.map routeTokens) := by
  rw [combine, alternationSource, List.map_map, List.map_map]
  rfl

theorem isAnchored_alternationSource (alternatives : List (List Token)) :
    Edge.RouteMatcher.isAnchored (alternationSource alternatives) = true := by
  obtain ⟨middle, hends⟩ : ∃ middle,
      (alternationSource alternatives).toList = '^' :: middle ++ ['$'] :=
    ⟨'(' :: '?' :: ':' :: (("|".intercalate (alternatives.map fun tokens =>
      "(" ++ String.ofList (pathSource tokens) ++ ")")).toList ++ [')']), by
        simp [alternationSource, String.toList_append]⟩
  rw [Edge.RouteMatcher.isAnchored, hends, List.getLast?_concat]
  simp

/-- What a compiled document says of its parts. -/
structure Compiled (document : Document) (bundle : Control.Bundle) : Prop where
  ids : (document.spec.routes.map (·.id)).Nodup
  defaultDecision : bundle.defaultDecision = document.spec.defaultDecision
  routes : bundle.routes = document.spec.routes.map cloneRoute
  matched : Matched document.spec.routes bundle.matchers

theorem compiled_of_compile {document : Document} {bundle : Control.Bundle}
    (h : compile G document = .ok bundle) : Compiled document bundle := by
  obtain ⟨hvalid, matchers, hmatchers, rfl⟩ := compile_ok h
  unfold validate at hvalid
  split_ifs at hvalid
  exact ⟨(nodup_of_validateRoutes hvalid).1, rfl, rfl, matched_of_compileMatchers hmatchers⟩

variable {document : Document} {bundle : Control.Bundle} {received : Edge.Bundle}

theorem Received.ids (h : Received bundle received) (hcompiled : Compiled document bundle) :
    received.routes.map (·.id) = document.spec.routes.map (·.id) := by
  have hids : List.Forall₂ (fun (x : Edge.CompiledRoute) (y : Control.CompiledRoute) =>
      x.id = y.id) received.routes bundle.routes := h.routes.imp fun _ _ => id_of_equiv
  rw [← List.forall₂_eq_eq_eq, List.forall₂_map_left_iff, List.forall₂_map_right_iff]
  rw [hcompiled.routes, List.forall₂_map_right_iff] at hids
  exact hids

/-- A received matcher is that of its method. -/
theorem Received.matcher (h : Received bundle received) (hcompiled : Compiled document bundle)
    {matcher : Edge.MethodMatcher} (hmem : matcher ∈ received.matchers) :
    routesFor document.spec.routes matcher.method ≠ [] ∧
      matcher.regex =
        alternationSource ((routesFor document.spec.routes matcher.method).map routeTokens) ∧
      matcher.routeIds = (routesFor document.spec.routes matcher.method).map (·.id) := by
  obtain ⟨i, hi, rfl⟩ := List.mem_iff_getElem.mp hmem
  obtain ⟨hmethod, hregex, hrouteIds⟩ :=
    h.matchers.get hi (h.matchers.length_eq ▸ hi)
  simp only [List.get_eq_getElem] at hmethod hregex hrouteIds
  have hcontrol := List.getElem_mem (h.matchers.length_eq ▸ hi : i < bundle.matchers.length)
  rw [hmethod, hregex, hrouteIds, ← combine_eq]
  exact ⟨hcompiled.matched.listed _ hcontrol, hcompiled.matched.regex _ hcontrol,
    hcompiled.matched.routeIDs _ hcontrol⟩

/-- Every route of the document is received. -/
theorem Received.route (h : Received bundle received) (hcompiled : Compiled document bundle)
    {route : Route} (hroute : route ∈ document.spec.routes) :
    ∃ found ∈ received.routes, Equiv found.toJson (cloneRoute route).toJson := by
  have hroutes := h.routes
  rw [hcompiled.routes, List.forall₂_map_right_iff] at hroutes
  obtain ⟨i, hi, rfl⟩ := List.mem_iff_getElem.mp hroute
  have hlength := hroutes.length_eq
  exact ⟨received.routes[i], List.getElem_mem _, hroutes.get (hlength ▸ hi) hi⟩

theorem Received.methods (h : Received bundle received) :
    received.matchers.map (·.method) = bundle.matchers.map (·.method) := by
  rw [← List.forall₂_eq_eq_eq, List.forall₂_map_left_iff, List.forall₂_map_right_iff]
  exact h.matchers.imp fun _ _ hxy => hxy.1

/-- The matcher of a received bundle can be built. -/
theorem Received.constructible (hR : EcmaScript P.regExp) (h : Received bundle received)
    (hcompiled : Compiled document bundle) :
    Edge.RouteMatcher.Constructible P received := by
  constructor
  case routeIds =>
    rw [h.ids hcompiled]
    exact hcompiled.ids
  case methods =>
    rw [h.methods]
    exact hcompiled.matched.methods
  case anchored =>
    intro matcher hmem
    rw [(h.matcher hcompiled hmem).2.1]
    exact isAnchored_alternationSource _
  case known =>
    intro matcher hmem routeId hid
    rw [(h.matcher hcompiled hmem).2.2] at hid
    obtain ⟨route, hroute, rfl⟩ := List.mem_map.mp hid
    have hlisted : route.id ∈ received.routes.map (·.id) := by
      rw [h.ids hcompiled]
      exact List.mem_map_of_mem (List.mem_of_mem_filter hroute)
    obtain ⟨found, hfound, hsame⟩ := List.mem_map.mp hlisted
    exact ⟨found, hfound, hsame⟩
  case constructs =>
    intro matcher hmem
    obtain ⟨hlisted, hregex, _⟩ := h.matcher hcompiled hmem
    obtain ⟨regex, hregex', _⟩ := hR.runs ((routesFor document.spec.routes matcher.method).map
      routeTokens) (by simpa using hlisted)
    rw [hregex, hregex']
    rfl

/-! ## The route of a request -/

/-- The route lists the method and its template stands for the path. -/
def Serves (P : Edge.Platform) (method path : String) (route : Route) : Prop :=
  P.toUpperCase method ∈ route.routeMatch.methods ∧ MatchesPath route.routeMatch.path path

/-- The first of the routes that serves the request. -/
def FirstServing (P : Edge.Platform) (routes : List Route) (method path : String)
    (route : Route) : Prop :=
  ∃ before after, routes = before ++ route :: after ∧
    (∀ earlier ∈ before, ¬Serves P method path earlier) ∧ Serves P method path route

/-- The loop over the groups stops at the first one that is defined. -/
theorem identify_eq {matcher : Edge.RouteMatcher P} {normalizedMethod routeId : String}
    {route : Edge.CompiledRoute} (hroute : matcher.routesById.get routeId = some route)
    (after : List String) {before : List String} :
    ∀ {groups : List (Option Edge.Span)}, (∀ i < before.length, groups[i]? = some none) →
      (∃ span, groups[before.length]? = some (some span)) →
      matcher.identify normalizedMethod (before ++ routeId :: after) groups =
        .ok (.matched route) := by
  induction before with
  | nil =>
    rintro groups _ ⟨span, hspan⟩
    cases groups with
    | nil => cases hspan
    | cons group groups =>
      cases hspan
      rw [List.nil_append, Edge.RouteMatcher.identify]
      simp only [hroute]
  | cons first before ih =>
    rintro groups hnone ⟨span, hspan⟩
    cases groups with
    | nil => cases hspan
    | cons group groups =>
      have hgroup : group = none := Option.some.inj (hnone 0 (Nat.zero_lt_succ _))
      rw [hgroup, List.cons_append, Edge.RouteMatcher.identify]
      exact ih (fun i hi => hnone (i + 1) (Nat.succ_lt_succ hi)) ⟨span, hspan⟩

/-- The matcher of the request's method, and what its expression finds in the path. -/
theorem exec_of_received (hR : EcmaScript P.regExp) (h : Received bundle received)
    (hcompiled : Compiled document bundle) {matcher : Edge.RouteMatcher P}
    (hnew : Edge.RouteMatcher.new P received = .ok matcher) {method : String}
    {runtime : Edge.RuntimeMatcher P} (hget : matcher.matchersByMethod.get method = some runtime)
    {path : String} (hpath : Printable path) :
    runtime.routeIds = (routesFor document.spec.routes method).map (·.id) ∧
      (P.regExp.exec runtime.regex path).map List.tail =
        (exec pathEngine path.toList
          (anchored ((routesFor document.spec.routes method).map (pathExpr ∘ routeTokens)))).map
          fun found => (List.range (routesFor document.spec.routes method).length).map fun i =>
            found.caps (i + 1) := by
  have hbuilt := Edge.RouteMatcher.built_of_new hnew
  obtain ⟨entry, hentry, rfl, hregex, hids⟩ := (hbuilt.matchers _ _).mp hget
  obtain ⟨hlisted, hsource, hrouteIds⟩ := h.matcher hcompiled hentry
  obtain ⟨regex, hconstruct, hexec⟩ := hR.runs
    ((routesFor document.spec.routes entry.method).map routeTokens) (by simpa using hlisted)
  rw [hsource, hconstruct] at hregex
  rw [hids, hrouteIds, ← Option.some.inj hregex]
  refine ⟨rfl, (hexec path hpath).trans ?_⟩
  rw [List.map_map, List.length_map]

/-- The method of a route has a matcher. -/
theorem get_matchersByMethod (hR : EcmaScript P.regExp) (h : Received bundle received)
    (hcompiled : Compiled document bundle) {matcher : Edge.RouteMatcher P}
    (hnew : Edge.RouteMatcher.new P received = .ok matcher) {method : String}
    (hlisted : routesFor document.spec.routes method ≠ []) :
    ∃ runtime, matcher.matchersByMethod.get method = some runtime := by
  have hmethods : method ∈ received.matchers.map (·.method) := by
    obtain ⟨found, hfound, rfl⟩ := hcompiled.matched.complete method hlisted
    rw [h.methods]
    exact List.mem_map_of_mem hfound
  obtain ⟨entry, hentry, hmethod⟩ := List.mem_map.mp hmethods
  obtain ⟨regex, hregex⟩ := Option.isSome_iff_exists.mp
    ((h.constructible hR hcompiled).constructs entry hentry)
  exact ⟨⟨regex, entry.routeIds⟩, ((Edge.RouteMatcher.built_of_new hnew).matchers _ _).mpr
    ⟨entry, hentry, hmethod, hregex, rfl⟩⟩

theorem plain_of_mem_map {routes : List Route} :
    ∀ r ∈ routes.map (pathExpr ∘ routeTokens), r.Regular ∧ r.Bounded ∧ r.groups = [] := by
  intro r hr
  obtain ⟨_, _, rfl⟩ := List.mem_map.mp hr
  exact pathExpr_plain _

/-- The expressions of routes that do not stand for the path. -/
theorem not_matches_of_mem_map {routes : List Route} {path : String} (hpath : Printable path)
    (h : ∀ route ∈ routes, ¬MatchesPath route.routeMatch.path path) :
    ∀ r ∈ routes.map (pathExpr ∘ routeTokens),
      ¬Matches pathEngine.toDialect path.toList r 0 path.toList.length := by
  intro r hr
  obtain ⟨route, hroute, rfl⟩ := List.mem_map.mp hr
  exact (matches_route_iff hpath route).not.mpr (h route hroute)

/-- The first route that serves a request is found. -/
theorem resolve_of_firstServing (hR : EcmaScript P.regExp) (h : Received bundle received)
    (hcompiled : Compiled document bundle) {matcher : Edge.RouteMatcher P}
    (hnew : Edge.RouteMatcher.new P received = .ok matcher) {method path : String}
    (hpath : Printable path) {route : Route}
    (hfirst : FirstServing P document.spec.routes method path route) :
    ∃ found ∈ received.routes, Equiv found.toJson (cloneRoute route).toJson ∧
      matcher.resolve method path = .ok (.matched found) := by
  have hbuilt := Edge.RouteMatcher.built_of_new hnew
  obtain ⟨before, after, hroutes, hearlier, hlists, hmatches⟩ := hfirst
  -- the routes of the method, with the route after those that do not stand for the path
  have hserved : routesFor document.spec.routes (P.toUpperCase method) =
      routesFor before (P.toUpperCase method) ++ route ::
        routesFor after (P.toUpperCase method) := by
    rw [routesFor, hroutes, List.filter_append, List.filter_cons, if_pos (decide_eq_true hlists)]
    rfl
  have hpassed : ∀ earlier ∈ routesFor before (P.toUpperCase method),
      ¬MatchesPath earlier.routeMatch.path path := by
    intro earlier hmem hserves
    obtain ⟨hbefore, hlisted⟩ := List.mem_filter.mp hmem
    exact hearlier earlier hbefore ⟨of_decide_eq_true hlisted, hserves⟩
  have hlisted : routesFor document.spec.routes (P.toUpperCase method) ≠ [] := by
    rw [hserved]
    simp
  obtain ⟨runtime, hget⟩ := get_matchersByMethod hR h hcompiled hnew hlisted
  obtain ⟨hids, hexec⟩ := exec_of_received hR h hcompiled hnew hget hpath
  have hexprs : (routesFor document.spec.routes (P.toUpperCase method)).map
      (pathExpr ∘ routeTokens) =
        (routesFor before (P.toUpperCase method)).map (pathExpr ∘ routeTokens) ++
          pathExpr (routeTokens route) ::
            (routesFor after (P.toUpperCase method)).map (pathExpr ∘ routeTokens) := by
    rw [hserved, List.map_append, List.map_cons]
    rfl
  obtain ⟨y, hy, hcaps⟩ := exec_anchored_eq_some (E := pathEngine)
    (hexprs ▸ plain_of_mem_map) (not_matches_of_mem_map hpath hpassed)
    ((matches_route_iff hpath route).mpr hmatches)
  rw [hexprs, hy] at hexec
  obtain ⟨groups, hgroups, htail⟩ := Option.map_eq_some_iff.mp hexec
  obtain ⟨found, hfound, hequiv⟩ := h.route hcompiled
    (hroutes ▸ List.mem_append_right before List.mem_cons_self)
  have hid : matcher.routesById.get route.id = some found :=
    (hbuilt.routes _ _).mpr ⟨hfound, id_of_equiv hequiv⟩
  refine ⟨found, hfound, hequiv, ?_⟩
  unfold Edge.RouteMatcher.resolve
  simp only [hget, hgroups, hids, hserved, htail, List.map_append, List.map_cons]
  have hgroup : ∀ i ≤ (routesFor before (P.toUpperCase method)).length,
      ((List.range (routesFor before (P.toUpperCase method) ++ route ::
        routesFor after (P.toUpperCase method)).length).map fun i => y.caps (i + 1))[i]? =
          some (y.caps (i + 1)) := by
    intro i hi
    rw [List.getElem?_map, List.getElem?_range (by simp; omega)]
    rfl
  apply identify_eq hid
  · intro i hi
    rw [List.length_map] at hi
    rw [hgroup i (Nat.le_of_lt hi), congrFun hcaps, List.length_map, if_neg (by omega)]
  · refine ⟨(0, path.toList.length), ?_⟩
    rw [List.length_map, hgroup _ (Nat.le_refl _), congrFun hcaps, List.length_map, if_pos rfl]

/-- Without a route that serves a request the default decision is taken. -/
theorem resolve_of_none (hR : EcmaScript P.regExp) (h : Received bundle received)
    (hcompiled : Compiled document bundle) {matcher : Edge.RouteMatcher P}
    (hnew : Edge.RouteMatcher.new P received = .ok matcher) {method path : String}
    (hpath : Printable path)
    (hnone : ∀ route ∈ document.spec.routes, ¬Serves P method path route) :
    matcher.resolve method path = .ok (.default received.defaultDecision) := by
  have hbuilt := Edge.RouteMatcher.built_of_new hnew
  unfold Edge.RouteMatcher.resolve
  cases hget : matcher.matchersByMethod.get (P.toUpperCase method) with
  | none => simp only [hget, hbuilt.defaultDecision]
  | some runtime =>
    obtain ⟨hids, hexec⟩ := exec_of_received hR h hcompiled hnew hget hpath
    have hpassed : ∀ route ∈ routesFor document.spec.routes (P.toUpperCase method),
        ¬MatchesPath route.routeMatch.path path := by
      intro route hmem hmatches
      obtain ⟨hroute, hlists⟩ := List.mem_filter.mp hmem
      exact hnone route hroute ⟨of_decide_eq_true hlists, hmatches⟩
    have hlisted : routesFor document.spec.routes (P.toUpperCase method) ≠ [] := by
      obtain ⟨entry, hentry, hmethod, _⟩ := (hbuilt.matchers _ _).mp hget
      rw [← hmethod]
      exact (h.matcher hcompiled hentry).1
    rw [exec_anchored_eq_none (E := pathEngine) (by simpa using hlisted) plain_of_mem_map
      (not_matches_of_mem_map hpath hpassed), Option.map_none, Option.map_eq_none_iff] at hexec
    simp only [hget, hexec, hbuilt.defaultDecision]

/-- Some route serves the request first, or none serves it. -/
theorem firstServing_or_none (P : Edge.Platform) (routes : List Route) (method path : String) :
    (∃ route, FirstServing P routes method path route) ∨
      ∀ route ∈ routes, ¬Serves P method path route := by
  classical
  by_cases hserved : ∃ route ∈ routes, Serves P method path route
  · obtain ⟨route, hroute, hserves⟩ := hserved
    left
    cases hfind : routes.find? fun route => decide (Serves P method path route) with
    | none => exact absurd hserves (by simpa using List.find?_eq_none.mp hfind route hroute)
    | some first =>
      obtain ⟨hfirst, before, after, hroutes, hbefore⟩ := List.find?_eq_some_iff_append.mp hfind
      exact ⟨first, before, after, hroutes, fun earlier hmem => by simpa using hbefore earlier hmem,
        of_decide_eq_true hfirst⟩
  · right
    push Not at hserved
    exact hserved

/-- A request takes the first route of the document that lists its method and whose template
stands for its path, and the default decision of the document if there is none. -/
theorem routed_as_written (P : Edge.Platform) (G : GoPlatform) (document : Document)
    (bundle : Control.Bundle) (key : Bytes) (envelope : Control.Envelope)
    (parsed : Edge.SignedBundleEnvelope) (hR : EcmaScript P.regExp)
    (hcompile : compile G document = .ok bundle) (hsign : sign G bundle key = .ok envelope)
    (hparse : Edge.parseBundleEnvelope P envelope.toJson = .ok parsed) :
    ∃ matcher, Edge.RouteMatcher.new P parsed.bundle = .ok matcher ∧
      ∀ method path, Printable path →
        (∃ route found, FirstServing P document.spec.routes method path route ∧
          Equiv found.toJson (cloneRoute route).toJson ∧
          matcher.resolve method path = .ok (.matched found)) ∨
        (∀ route ∈ document.spec.routes, ¬Serves P method path route) ∧
          ∃ decision : Edge.DefaultDecision, decision.text = document.spec.defaultDecision ∧
            matcher.resolve method path = .ok (.default decision) := by
  obtain ⟨_, _, rfl⟩ := sign_ok hsign
  obtain ⟨fields, bundleFields, hobject, hlookup, hbundle⟩ :=
    lookup_bundle (Edge.parseBundleEnvelope_ok_iff.mp hparse).1
  have hsame : bundle.toJson = .object bundleFields := by
    rw [← Json.object.inj hobject] at hlookup
    simpa [List.lookup_cons] using hlookup
  have hreceived : Received bundle parsed.bundle := received_of_equiv (hsame ▸ hbundle)
  have hcompiled := compiled_of_compile hcompile
  obtain ⟨matcher, hnew⟩ :=
    Edge.RouteMatcher.new_ok_iff.mpr (hreceived.constructible hR hcompiled)
  refine ⟨matcher, hnew, fun method path hpath => ?_⟩
  rcases firstServing_or_none P document.spec.routes method path with ⟨route, hfirst⟩ | hnone
  · obtain ⟨found, _, hfound, hresolve⟩ :=
      resolve_of_firstServing hR hreceived hcompiled hnew hpath hfirst
    exact .inl ⟨route, found, hfirst, hfound, hresolve⟩
  · exact .inr ⟨hnone, _, hreceived.defaultDecision.trans hcompiled.defaultDecision,
      resolve_of_none hR hreceived hcompiled hnew hpath hnone⟩

/-! ## A platform with the engine -/

namespace Orders

/-- The tokens before the parenthesis that closes their group, and what follows. -/
def readTokens : List Char → Option (List Token × List Char)
  | ')' :: text => some ([], text)
  | '\\' :: c :: text => (readTokens text).map fun (tokens, rest) => (.char c :: tokens, rest)
  | '[' :: '^' :: '/' :: ']' :: '+' :: text =>
    (readTokens text).map fun (tokens, rest) => (.segment :: tokens, rest)
  | '.' :: '*' :: text => (readTokens text).map fun (tokens, rest) => (.rest :: tokens, rest)
  | c :: text => (readTokens text).map fun (tokens, rest) => (.char c :: tokens, rest)
  | [] => none

/-- The groups, one after the other. -/
def readGroups : ℕ → List Char → Option (List (List Token))
  | fuel + 1, '(' :: text =>
    match readTokens text with
    | some (tokens, '|' :: rest) => (readGroups fuel rest).map (tokens :: ·)
    | some (tokens, [')', '$']) => some [tokens]
    | _ => none
  | _, _ => none

/-- The alternatives of a joined expression. -/
def readAlternatives (pattern : String) : Option (List (List Token)) :=
  if "^(?:".toList.isPrefixOf pattern.toList then
    readGroups pattern.length (pattern.toList.drop 4)
  else none

theorem readTokens_plain {c : Char} (hc : isMeta c = false) (text : List Char) :
    readTokens (c :: text) =
      (readTokens text).map fun (tokens, rest) => (.char c :: tokens, rest) := by
  have hmetas : isMeta ')' = true ∧ isMeta '\\' = true ∧ isMeta '[' = true ∧
      isMeta '.' = true := by decide
  rw [readTokens.eq_def]
  split <;> simp_all

theorem readTokens_pathSource (tokens : List Token) (rest : List Char) :
    readTokens (pathSource tokens ++ ')' :: rest) = some (tokens, rest) := by
  induction tokens with
  | nil => rfl
  | cons token tokens ih =>
    have hcons : pathSource (token :: tokens) = token.source ++ pathSource tokens := rfl
    rw [hcons, List.append_assoc]
    cases token with
    | char c =>
      cases hmeta : isMeta c with
      | true =>
        have hsource : Token.source (.char c) = ['\\', c] := if_pos hmeta
        rw [hsource]
        show Option.map _ (readTokens (pathSource tokens ++ ')' :: rest)) = _
        rw [ih]
        rfl
      | false =>
        have hsource : Token.source (.char c) = [c] := if_neg (by simp [hmeta])
        rw [hsource, List.singleton_append, readTokens_plain hmeta, ih]
        rfl
    | segment =>
      show Option.map _ (readTokens (pathSource tokens ++ ')' :: rest)) = _
      rw [ih]
      rfl
    | rest =>
      show Option.map _ (readTokens (pathSource tokens ++ ')' :: rest)) = _
      rw [ih]
      rfl

/-- The groups of the alternatives and what closes the expression. -/
def groupsText : List (List Token) → List Char
  | [] => [')', '$']
  | [tokens] => '(' :: (pathSource tokens ++ [')', ')', '$'])
  | tokens :: alternatives => '(' :: (pathSource tokens ++ ')' :: '|' :: groupsText alternatives)

theorem toList_alternationSource (alternatives : List (List Token)) :
    (alternationSource alternatives).toList = "^(?:".toList ++ groupsText alternatives := by
  rw [alternationSource, String.append_assoc, String.toList_append]
  congr 1
  induction alternatives with
  | nil => decide
  | cons tokens alternatives ih =>
    cases alternatives with
    | nil => simp [groupsText]
    | cons next alternatives =>
      simp only [List.map_cons, String.intercalate_cons_cons, String.append_assoc] at ih ⊢
      simp only [String.toList_append, groupsText] at ih ⊢
      rw [ih]
      simp

theorem readGroups_groupsText {alternatives : List (List Token)} (hne : alternatives ≠ []) :
    ∀ {fuel : ℕ}, (groupsText alternatives).length ≤ fuel →
      readGroups fuel (groupsText alternatives) = some alternatives := by
  induction alternatives with
  | nil => exact absurd rfl hne
  | cons tokens alternatives ih =>
    intro fuel hfuel
    cases alternatives with
    | nil =>
      cases fuel with
      | zero => cases hfuel
      | succ fuel =>
        rw [groupsText, readGroups, readTokens_pathSource]
        rfl
    | cons next alternatives =>
      cases fuel with
      | zero => cases hfuel
      | succ fuel =>
        rw [groupsText, readGroups, readTokens_pathSource]
        · show Option.map _ _ = _
          rw [ih (List.cons_ne_nil _ _)]
          · rfl
          · rw [groupsText] at hfuel
            · simp only [List.length_cons, List.length_append] at hfuel
              omega
            · simp
        · simp

theorem readAlternatives_alternationSource {alternatives : List (List Token)}
    (hne : alternatives ≠ []) :
    readAlternatives (alternationSource alternatives) = some alternatives := by
  have hlength := congrArg List.length (toList_alternationSource alternatives)
  rw [String.length_toList, List.length_append] at hlength
  have hdrop : (alternationSource alternatives).toList.drop 4 = groupsText alternatives := by
    rw [toList_alternationSource]
    rfl
  rw [readAlternatives, hdrop, if_pos, readGroups_groupsText hne (by omega)]
  rw [toList_alternationSource, List.isPrefixOf_iff_prefix]
  exact List.prefix_append _ _

/-- Expressions of paths run as ECMAScript says; the others stay as they are written. -/
def routingRegExp : Edge.RegExpApi where
  RegExp := List (List Token) ⊕ String
  construct pattern _ :=
    match readAlternatives pattern with
    | some alternatives => some (.inl alternatives)
    | none => some (.inr pattern)
  exec
    | .inl alternatives, path =>
      (exec pathEngine path.toList (anchored (alternatives.map pathExpr))).map fun found =>
        some (0, path.length) ::
          (List.range alternatives.length).map fun i => found.caps (i + 1)
    | .inr _, _ => none

theorem ecmaScript_routingRegExp : EcmaScript routingRegExp where
  runs alternatives hne := by
    refine ⟨.inl alternatives, ?_, fun path _ => ?_⟩
    · simp only [routingRegExp, readAlternatives_alternationSource hne]
    · show Option.map List.tail (Option.map _ _) = _
      rw [Option.map_map]
      rfl

def routingPlatform : Edge.Platform := { edgePlatform with regExp := routingRegExp }

theorem parse_envelope_routing :
    Edge.parseBundleEnvelope routingPlatform envelope.toJson = .ok Orders.received := by
  decide +kernel

theorem ordersRead_serves :
    ∀ route ∈ Orders.document.spec.routes, Serves routingPlatform "GET" "/v1/orders/7" route := by
  intro route hroute
  rw [List.mem_singleton.mp hroute]
  have htemplate : template "/v1/orders/:id" =
      [.literal "v1".toList, .literal "orders".toList, .parameter] := by decide
  refine ⟨List.mem_singleton_self _, ?_⟩
  show Template.Denotes '/' (template "/v1/orders/:id") "/v1/orders/7".toList
  rw [htemplate]
  exact ⟨_, _, rfl, rfl, _, _, rfl, rfl, ['7'], [], rfl, ⟨by simp, by simp⟩, rfl⟩

end Orders

theorem routed_as_written_orders :
    ∃ matcher, Edge.RouteMatcher.new Orders.routingPlatform Orders.received.bundle = .ok matcher ∧
      ∃ route ∈ Orders.document.spec.routes, ∃ found,
        Equiv found.toJson (cloneRoute route).toJson ∧
          matcher.resolve "GET" "/v1/orders/7" = .ok (.matched found) := by
  obtain ⟨matcher, hnew, hresolve⟩ := routed_as_written Orders.routingPlatform Orders.goPlatform
    Orders.document Orders.bundle Orders.privateKey Orders.envelope Orders.received
    Orders.ecmaScript_routingRegExp Orders.compile_document Orders.sign_bundle
    Orders.parse_envelope_routing
  refine ⟨matcher, hnew, ?_⟩
  have hpath : Printable "/v1/orders/7" := Edge.printable_of_all (by decide)
  rcases hresolve "GET" "/v1/orders/7" hpath with ⟨route, found, hfirst, hfound⟩ | ⟨hnone, _⟩
  · obtain ⟨before, after, hroutes, _⟩ := hfirst
    exact ⟨route, hroutes ▸ List.mem_append_right before List.mem_cons_self, found, hfound⟩
  · exact absurd (Orders.ordersRead_serves _ List.mem_cons_self) (hnone _ List.mem_cons_self)

end ShieldWard.Delivery
