import ShieldWard.Control.PathPatterns

/-!
# The matchers of a document

Every method of a document gets one matcher, with the routes that list the method in the order of
the document.
-/

namespace ShieldWard.Control

variable {G : GoPlatform}

/-- The routes that list the method, in order. -/
def routesFor (routes : List Route) (method : String) : List Route :=
  routes.filter fun route => method ∈ route.routeMatch.methods

def routeTokens (route : Route) : List Token :=
  templateTokens (template route.routeMatch.path)

/-- The route with the text that its path compiles to. -/
def routePattern (route : Route) : RoutePattern :=
  ⟨route.id, String.ofList (pathSource (routeTokens route))⟩

/-- The patterns in the table are those of the routes so far. -/
def Collects (table : MatcherTable) (routes : List Route) : Prop :=
  ∀ method, table.byMethod.get method =
    if routesFor routes method = [] then none
    else some ((routesFor routes method).map routePattern)

theorem byMethod_of_addMethod {route : Route} {pattern method : String}
    {table table' : MatcherTable} (h : addMethod G route pattern table method = .ok table') :
    table'.byMethod = table.byMethod.set method
      ((table.byMethod.get method).getD [] ++ [⟨route.id, pattern⟩]) := by
  unfold addMethod at h
  dsimp only at h
  split at h
  · cases h
  · cases h
    rfl

/-- Every method of a route gets its pattern once. -/
theorem get_addMethods {route : Route} {pattern : String} {methods : List String}
    (hnodup : methods.Nodup) :
    ∀ {table table' : MatcherTable},
      methods.foldlM (addMethod G route pattern) table = .ok table' →
      ∀ method, table'.byMethod.get method =
        if method ∈ methods then
          some ((table.byMethod.get method).getD [] ++ [⟨route.id, pattern⟩])
        else table.byMethod.get method := by
  induction methods with
  | nil =>
    intro table table' h method
    cases h
    rfl
  | cons first methods ih =>
    intro table table' h method
    obtain ⟨hfirst, hmethods⟩ := List.nodup_cons.mp hnodup
    rw [List.foldlM_cons] at h
    obtain ⟨middle, hmiddle, hrest⟩ := Except.bind_eq_ok_iff.mp h
    rw [ih hmethods hrest method, byMethod_of_addMethod hmiddle, OrderedMap.get_set]
    by_cases hsame : method = first
    · subst hsame
      simp [hfirst]
    · simp [hsame]

theorem routesFor_concat (routes : List Route) (route : Route) (method : String) :
    routesFor (routes ++ [route]) method =
      routesFor routes method ++ if method ∈ route.routeMatch.methods then [route] else [] := by
  rw [routesFor, List.filter_append, List.filter_cons, List.filter_nil]
  simp [routesFor]

/-- One more route. -/
theorem Collects.addRoute {table table' : MatcherTable} {routes : List Route} {route : Route}
    (h : Collects table routes) (hadd : addRoute G table route = .ok table') :
    Collects table' (routes ++ [route]) := by
  unfold Control.addRoute at hadd
  dsimp only at hadd
  split at hadd
  · cases hadd
  · next pattern hpattern =>
    intro method
    have hnodup := (addMethods_fresh hadd).nodup.of_map
    have hroute : (⟨route.id, pattern⟩ : RoutePattern) = routePattern route := by
      rw [compilePathTemplate_eq hpattern]
      rfl
    rw [get_addMethods hnodup hadd method, routesFor_concat, h method, hroute]
    by_cases hlists : method ∈ route.routeMatch.methods
    · by_cases hnone : routesFor routes method = [] <;> simp [hlists, hnone]
    · simp [hlists]

/-- What the matchers of the routes are. -/
structure Matched (routes : List Route) (matchers : List MethodMatcher) : Prop where
  methods : (matchers.map (·.method)).Nodup
  listed : ∀ matcher ∈ matchers, routesFor routes matcher.method ≠ []
  regex : ∀ matcher ∈ matchers,
    matcher.regex = combine ((routesFor routes matcher.method).map routePattern)
  routeIDs : ∀ matcher ∈ matchers,
    matcher.routeIDs = (routesFor routes matcher.method).map (·.id)
  complete : ∀ method, routesFor routes method ≠ [] →
    ∃ matcher ∈ matchers, matcher.method = method

/-- The matcher of an entry of the table. -/
def matcherOf (entry : String × List RoutePattern) : MethodMatcher where
  method := entry.1
  regex := combine entry.2
  routeIDs := entry.2.map (·.routeID)

theorem compileMatcher_ok {method : String} {patterns : List RoutePattern}
    {matcher : MethodMatcher} (h : compileMatcher G method patterns = .ok matcher) :
    matcher = matcherOf (method, patterns) := by
  unfold compileMatcher at h
  dsimp only at h
  split at h
  · cases h
  · cases h
    rfl

theorem matched_of_compileMatchers {routes : List Route} {matchers : List MethodMatcher}
    (h : compileMatchers G routes = .ok matchers) : Matched routes matchers := by
  obtain ⟨table, htable, hmatchers⟩ := Except.bind_eq_ok_iff.mp h
  -- the table after the loop has the routes of each method in their order
  have hcollects : Collects table routes := by
    refine Except.foldlM_invariant (I := fun routes table => Collects table routes) htable
      (fun _ => rfl) ?_
    intro before route after middle next _ hbefore hnext
    exact hbefore.addRoute hnext
  -- sorting the methods loses none
  have hperm : (sortedMethods table).Perm table.byMethod.entries := List.perm_insertionSort _ _
  have hpairs := Except.mapM_eq_ok_iff.mp hmatchers
  have hentry : ∀ e ∈ sortedMethods table, routesFor routes e.1 ≠ [] ∧
      e.2 = (routesFor routes e.1).map routePattern := by
    intro e he
    have hget := OrderedMap.get_eq_some_iff.mpr (hperm.mem_iff.mp he)
    rw [hcollects e.1] at hget
    split at hget
    · cases hget
    · next hne => exact ⟨hne, (Option.some.inj hget).symm⟩
  have hmap : (sortedMethods table).map matcherOf = matchers := by
    have hpairs : List.Forall₂ (fun e matcher => matcherOf e = matcher) (sortedMethods table)
        matchers := by
      refine List.Forall₂.imp ?_ (Except.mapM_eq_ok_iff.mp hmatchers)
      intro e matcher he
      exact (compileMatcher_ok he).symm
    rw [← List.forall₂_eq_eq_eq]
    exact List.forall₂_map_left_iff.mpr hpairs
  rw [← hmap]
  constructor
  case methods =>
    rw [List.map_map]
    exact (hperm.map Prod.fst).nodup_iff.mpr table.byMethod.nodup
  case listed =>
    intro matcher hmatcher
    obtain ⟨e, he, rfl⟩ := List.mem_map.mp hmatcher
    exact (hentry e he).1
  case regex =>
    intro matcher hmatcher
    obtain ⟨e, he, rfl⟩ := List.mem_map.mp hmatcher
    rw [matcherOf, (hentry e he).2]
  case routeIDs =>
    intro matcher hmatcher
    obtain ⟨e, he, rfl⟩ := List.mem_map.mp hmatcher
    rw [matcherOf, (hentry e he).2, List.map_map]
    rfl
  case complete =>
    intro method hmethod
    have hget := hcollects method
    rw [if_neg hmethod] at hget
    exact ⟨_, List.mem_map_of_mem (hperm.mem_iff.mpr (OrderedMap.get_eq_some_iff.mp hget)), rfl⟩

end ShieldWard.Control
