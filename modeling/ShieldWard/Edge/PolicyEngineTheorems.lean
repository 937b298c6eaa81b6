import ShieldWard.Edge.PolicyEngine

/-!
# What a policy engine is built from

The tables of the matcher and the firewall hold what the bundle lists, so an engine exists
exactly when the parts of its bundle fit together, and each of its decisions is about the
route that the bundle's matcher resolves.
-/

namespace ShieldWard.Edge

variable {P : Platform}

/-! ## The tables of the matcher -/

namespace RouteMatcher

theorem addRoute_ok_iff {routesById routesById' : OrderedMap String CompiledRoute}
    {route : CompiledRoute} :
    addRoute routesById route = .ok routesById' ↔
      routesById.get route.id = none ∧ routesById' = routesById.set route.id route := by
  unfold addRoute OrderedMap.has
  cases routesById.get route.id <;> simp [eq_comm]

/-- What the constructor makes of a matcher once the routes are known. -/
def runtime (P : Platform) (routesById : OrderedMap String CompiledRoute)
    (matcher : MethodMatcher) : Option (RuntimeMatcher P) :=
  if isAnchored matcher.regex ∧ ∀ routeId ∈ matcher.routeIds, routesById.has routeId = true then
    (P.regExp.construct matcher.regex "").map fun regex =>
      { regex, routeIds := matcher.routeIds }
  else none

theorem addMatcher_ok_iff {routesById : OrderedMap String CompiledRoute}
    {matchersByMethod matchersByMethod' : OrderedMap String (RuntimeMatcher P)}
    {matcher : MethodMatcher} :
    addMatcher P routesById matchersByMethod matcher = .ok matchersByMethod' ↔
      matchersByMethod.get matcher.method = none ∧
        ∃ found, runtime P routesById matcher = some found ∧
          matchersByMethod' = matchersByMethod.set matcher.method found := by
  have hknown : (matcher.routeIds.find? fun routeId => !routesById.has routeId) = none ↔
      ∀ routeId ∈ matcher.routeIds, routesById.has routeId = true := by
    rw [List.find?_eq_none]
    simp
  unfold addMatcher
  cases hget : matchersByMethod.get matcher.method with
  | some found => simp [OrderedMap.has, hget]
  | none =>
    have hnew : matchersByMethod.has matcher.method = false := by
      rw [OrderedMap.has, hget]
      rfl
    by_cases hfits : isAnchored matcher.regex = true ∧
        ∀ routeId ∈ matcher.routeIds, routesById.has routeId = true
    · have hruntime : runtime P routesById matcher =
          (P.regExp.construct matcher.regex "").map fun regex =>
            { regex, routeIds := matcher.routeIds } := by
        unfold runtime
        rw [if_pos hfits]
      rw [hruntime, hknown.mpr hfits.2]
      cases P.regExp.construct matcher.regex "" with
      | none => simp [hnew, hfits.1]
      | some regex =>
        simp only [hnew, hfits.1, Bool.false_eq_true, if_false, Bool.not_true,
          Except.ok.injEq, Option.map_some, Option.some.injEq, exists_eq_left', true_and]
        exact eq_comm
    · have hruntime : runtime P routesById matcher = none := by
        unfold runtime
        rw [if_neg hfits]
      rw [hruntime, hnew]
      by_cases hanchored : isAnchored matcher.regex = true
      · cases hfind : matcher.routeIds.find? fun routeId => !routesById.has routeId with
        | none => exact absurd ⟨hanchored, hknown.mp hfind⟩ hfits
        | some routeId => simp [hanchored]
      · simp [hanchored]

/-- What the bundle must satisfy for its matcher to be built. -/
structure Constructible (P : Platform) (bundle : Bundle) : Prop where
  routeIds : (bundle.routes.map (·.id)).Nodup
  methods : (bundle.matchers.map (·.method)).Nodup
  anchored : ∀ matcher ∈ bundle.matchers, isAnchored matcher.regex = true
  known : ∀ matcher ∈ bundle.matchers, ∀ routeId ∈ matcher.routeIds,
    ∃ route ∈ bundle.routes, route.id = routeId
  constructs : ∀ matcher ∈ bundle.matchers,
    (P.regExp.construct matcher.regex "").isSome = true

/-- The tables of a matcher that was built. -/
structure Built (P : Platform) (bundle : Bundle) (matcher : RouteMatcher P) : Prop where
  defaultDecision : matcher.defaultDecision = bundle.defaultDecision
  routes : ∀ routeId route, matcher.routesById.get routeId = some route ↔
    route ∈ bundle.routes ∧ route.id = routeId
  matchers : ∀ method found, matcher.matchersByMethod.get method = some found ↔
    ∃ entry ∈ bundle.matchers, entry.method = method ∧
      P.regExp.construct entry.regex "" = some found.regex ∧ found.routeIds = entry.routeIds

/-- The table of the routes, from routes whose IDs differ. -/
theorem get_routesById {routes : List CompiledRoute} (hnodup : (routes.map (·.id)).Nodup)
    {routesById : OrderedMap String CompiledRoute}
    (h : routes.foldlM addRoute .empty = .ok routesById) (routeId : String)
    (route : CompiledRoute) :
    routesById.get routeId = some route ↔ route ∈ routes ∧ route.id = routeId := by
  have hstep : ∀ (m : OrderedMap String CompiledRoute) (x : CompiledRoute), m.get x.id = none →
      ∀ m', addRoute m x = .ok m' ↔ ∃ v, some x = some v ∧ m' = m.set x.id v := by
    intro m x hx m'
    simp [addRoute_ok_iff, hx]
  rw [OrderedMap.get_foldlM CompiledRoute.id some hstep hnodup (by simp) h]
  simp only [OrderedMap.get_empty, reduceCtorEq, Option.some.injEq, false_or]
  refine ⟨fun h => ?_, fun h => ⟨route, h.1, h.2, rfl⟩⟩
  rcases h with ⟨x, hx, hid, rfl⟩
  exact ⟨hx, hid⟩

theorem has_routesById {routes : List CompiledRoute} (hnodup : (routes.map (·.id)).Nodup)
    {routesById : OrderedMap String CompiledRoute}
    (h : routes.foldlM addRoute .empty = .ok routesById) (routeId : String) :
    routesById.has routeId = true ↔ ∃ route ∈ routes, route.id = routeId := by
  simp only [OrderedMap.has_iff, get_routesById hnodup h]

/-- The constructor succeeds on exactly the bundles whose parts fit together. -/
theorem new_ok_iff {bundle : Bundle} :
    (∃ matcher, new P bundle = .ok matcher) ↔ Constructible P bundle := by
  -- each loop fills a table under keys that must be new
  have hroutes : ∀ (m : OrderedMap String CompiledRoute) (x : CompiledRoute), m.get x.id = none →
      ∀ m', addRoute m x = .ok m' ↔ ∃ v, some x = some v ∧ m' = m.set x.id v := by
    intro m x hx m'
    simp [addRoute_ok_iff, hx]
  have hmatchers : ∀ routesById (m : OrderedMap String (RuntimeMatcher P)) (x : MethodMatcher),
      m.get x.method = none → ∀ m', addMatcher P routesById m x = .ok m' ↔
        ∃ v, runtime P routesById x = some v ∧ m' = m.set x.method v := by
    intro routesById m x hx m'
    simp [addMatcher_ok_iff, hx]
  have hruntime : ∀ routesById (x : MethodMatcher), (runtime P routesById x).isSome = true ↔
      isAnchored x.regex = true ∧ (∀ routeId ∈ x.routeIds, routesById.has routeId = true) ∧
        (P.regExp.construct x.regex "").isSome = true := by
    intro routesById x
    unfold runtime
    split
    · next h => simp [h.1]; exact fun _ => h.2
    · next h =>
      simp only [Option.isSome_none, Bool.false_eq_true, false_iff]
      exact fun hall => h ⟨hall.1, hall.2.1⟩
  unfold new
  refine ⟨fun h => ?_, fun h => ?_⟩
  -- both loops have gone to their end
  · obtain ⟨matcher, h⟩ := h
    simp only [Except.bind_eq_ok_iff] at h
    rcases h with ⟨routesById, hbyId, matchersByMethod, hbyMethod, _⟩
    have hids := (OrderedMap.keys_of_foldlM CompiledRoute.id
      (fun m x m' hm => ⟨(addRoute_ok_iff.mp hm).1, x, (addRoute_ok_iff.mp hm).2⟩) hbyId).1
    have hmethods := (OrderedMap.keys_of_foldlM MethodMatcher.method (fun m x m' hm => by
      obtain ⟨hnew, v, _, hset⟩ := addMatcher_ok_iff.mp hm
      exact ⟨hnew, v, hset⟩) hbyMethod).1
    have hall := (OrderedMap.foldlM_ok_iff MethodMatcher.method (runtime P routesById) (hmatchers routesById) hmethods
      (by simp)).mp
      ⟨_, hbyMethod⟩
    simp only [hruntime, has_routesById hids hbyId] at hall
    exact ⟨hids, hmethods, fun x hx => (hall x hx).1, fun x hx => (hall x hx).2.1,
      fun x hx => (hall x hx).2.2⟩
  · obtain ⟨routesById, hbyId⟩ := (OrderedMap.foldlM_ok_iff (m := .empty) CompiledRoute.id some hroutes
      h.routeIds (by simp)).mpr (by simp)
    have hall : ∀ x ∈ bundle.matchers, (runtime P routesById x).isSome = true := by
      intro x hx
      rw [hruntime]
      refine ⟨h.anchored x hx, fun routeId hid => ?_, h.constructs x hx⟩
      exact (has_routesById h.routeIds hbyId routeId).mpr (h.known x hx routeId hid)
    obtain ⟨matchersByMethod, hbyMethod⟩ :=
      (OrderedMap.foldlM_ok_iff (m := .empty) MethodMatcher.method (runtime P routesById)
        (hmatchers routesById) h.methods (by simp)).mpr hall
    exact ⟨_, by simp only [Except.bind_eq_ok_iff]; exact ⟨_, hbyId, _, hbyMethod, rfl⟩⟩

/-- The tables of a matcher hold what its bundle lists. -/
theorem built_of_new {bundle : Bundle} {matcher : RouteMatcher P}
    (h : new P bundle = .ok matcher) : Built P bundle matcher := by
  have hfits := new_ok_iff.mp ⟨matcher, h⟩
  unfold new at h
  simp only [Except.bind_eq_ok_iff] at h
  rcases h with ⟨routesById, hbyId, matchersByMethod, hbyMethod, hmatcher⟩
  rw [← Except.ok.inj hmatcher]
  refine ⟨rfl, get_routesById hfits.routeIds hbyId, fun method found => ?_⟩
  have hstep : ∀ (m : OrderedMap String (RuntimeMatcher P)) (x : MethodMatcher),
      m.get x.method = none → ∀ m', addMatcher P routesById m x = .ok m' ↔
        ∃ v, runtime P routesById x = some v ∧ m' = m.set x.method v := by
    intro m x hx m'
    simp [addMatcher_ok_iff, hx]
  rw [OrderedMap.get_foldlM MethodMatcher.method (runtime P routesById) hstep hfits.methods (by simp)
    hbyMethod]
  simp only [OrderedMap.get_empty, reduceCtorEq, false_or]
  refine exists_congr fun entry => and_congr_right fun hentry => and_congr_right fun _ => ?_
  have hknown : ∀ routeId ∈ entry.routeIds, routesById.has routeId = true := fun routeId hid =>
    (has_routesById hfits.routeIds hbyId routeId).mpr (hfits.known entry hentry routeId hid)
  unfold runtime
  rw [if_pos ⟨hfits.anchored entry hentry, hknown⟩, Option.map_eq_some_iff]
  refine ⟨fun h => ?_, fun h => ⟨found.regex, h.1, ?_⟩⟩
  · rcases h with ⟨regex, hregex, rfl⟩
    exact ⟨hregex, rfl⟩
  · rw [← h.2]

/-- The loop over known routes ends with one when one of their groups took part in the match. -/
theorem identify_ok_iff {matcher : RouteMatcher P} {normalizedMethod : String}
    {routeIds : List String} (hknown : ∀ routeId ∈ routeIds, matcher.routesById.has routeId = true)
    {groups : List (Option Span)} :
    (∃ resolution, matcher.identify normalizedMethod routeIds groups = .ok resolution) ↔
      ∃ i < routeIds.length, ∃ span, groups[i]? = some (some span) := by
  induction routeIds generalizing groups with
  | nil => simp [identify]
  | cons routeId routeIds ih =>
    have ⟨hfirst, hrest⟩ := List.forall_mem_cons.mp hknown
    rcases groups with _ | ⟨group, groups⟩
    · simp [identify]
    · cases group with
      | none =>
        unfold identify
        rw [ih hrest]
        refine ⟨fun h => ?_, fun h => ?_⟩
        · rcases h with ⟨i, hi, span, hspan⟩
          exact ⟨i + 1, by simp only [List.length_cons]; omega, span, hspan⟩
        · rcases h with ⟨i, hi, span, hspan⟩
          rcases i with _ | i
          · simp at hspan
          · simp only [List.length_cons] at hi
            exact ⟨i, by omega, span, hspan⟩
      | some span =>
        have ⟨route, hroute⟩ := OrderedMap.has_iff.mp hfirst
        refine ⟨fun _ => ⟨0, by simp, span, rfl⟩, fun _ => ⟨.matched route, ?_⟩⟩
        unfold identify
        rw [hroute]

/-- The route that the loop ends with is one of those listed. -/
theorem mem_of_identify {matcher : RouteMatcher P} {normalizedMethod : String}
    {routeIds : List String} {groups : List (Option Span)} {route : CompiledRoute}
    (h : matcher.identify normalizedMethod routeIds groups = .ok (.matched route)) :
    ∃ routeId ∈ routeIds, matcher.routesById.get routeId = some route := by
  induction routeIds generalizing groups with
  | nil => cases h
  | cons routeId routeIds ih =>
    rcases groups with _ | ⟨group, groups⟩
    · cases h
    · unfold identify at h
      cases group with
      | none =>
        have ⟨found, hmem, hroute⟩ := ih h
        exact ⟨found, List.mem_cons_of_mem _ hmem, hroute⟩
      | some span =>
        simp only at h
        split at h
        · cases h
        · next found hfound =>
          have heq : found = route := RouteResolution.matched.inj (Except.ok.inj h)
          exact ⟨routeId, List.mem_cons_self, heq ▸ hfound⟩

/-- A request is resolved unless its matcher matches without one of its first groups. -/
theorem resolve_ok_iff {bundle : Bundle} {matcher : RouteMatcher P}
    (hnew : new P bundle = .ok matcher) {method path : String} :
    (∃ resolution, matcher.resolve method path = .ok resolution) ↔
      ∀ entry ∈ bundle.matchers, entry.method = P.toUpperCase method → ∀ regex found,
        P.regExp.construct entry.regex "" = some regex →
        P.regExp.exec regex path = some found →
        ∃ i < entry.routeIds.length, ∃ span, found[i + 1]? = some (some span) := by
  have hbuilt := built_of_new hnew
  have hfits := new_ok_iff.mp ⟨matcher, hnew⟩
  have hknown : ∀ entry ∈ bundle.matchers, ∀ routeId ∈ entry.routeIds,
      matcher.routesById.has routeId = true := by
    intro entry hentry routeId hid
    obtain ⟨route, hroute, heq⟩ := hfits.known entry hentry routeId hid
    exact OrderedMap.has_iff.mpr ⟨route, (hbuilt.routes routeId route).mpr ⟨hroute, heq⟩⟩
  unfold resolve
  cases hget : matcher.matchersByMethod.get (P.toUpperCase method) with
  | none =>
    simp only [hget]
    refine ⟨fun _ entry hentry hmethod regex found hregex _ => ?_, fun _ => ⟨_, rfl⟩⟩
    have hsome := (hbuilt.matchers entry.method ⟨regex, entry.routeIds⟩).mpr
      ⟨entry, hentry, rfl, hregex, rfl⟩
    rw [hmethod, hget] at hsome
    cases hsome
  | some runtime =>
    obtain ⟨entry, hentry, hmethod, hregex, hids⟩ := (hbuilt.matchers _ _).mp hget
    have honly : ∀ entry' ∈ bundle.matchers, entry'.method = P.toUpperCase method →
        entry' = entry := fun entry' hentry' hmethod' =>
      List.inj_on_of_nodup_map hfits.methods hentry' hentry (hmethod'.trans hmethod.symm)
    simp only [hget]
    cases hexec : P.regExp.exec runtime.regex path with
    | none =>
      simp only
      refine ⟨fun _ entry' hentry' hmethod' regex found hregex' hfound => ?_, fun _ => ⟨_, rfl⟩⟩
      rw [honly entry' hentry' hmethod', hregex] at hregex'
      rw [← Option.some.inj hregex', hexec] at hfound
      cases hfound
    | some found =>
      have htail : ∀ i, found.tail[i]? = found[i + 1]? := fun i => List.getElem?_tail
      simp only
      rw [identify_ok_iff (hids ▸ hknown entry hentry), hids]
      simp only [htail]
      refine ⟨fun h entry' hentry' hmethod' regex found' hregex' hfound => ?_, fun h => ?_⟩
      · rw [honly entry' hentry' hmethod'] at hregex' ⊢
        rw [hregex] at hregex'
        rw [← Option.some.inj hregex', hexec] at hfound
        rw [← Option.some.inj hfound]
        exact h
      · exact h entry hentry hmethod runtime.regex found hregex hexec

end RouteMatcher

/-! ## The rules of a route -/

namespace WafEvaluator

/-- The fold over the rules succeeds on different IDs and patterns that construct. -/
theorem foldlM_addRule_ok_iff (rules : List WafRule)
    (state : List String × List (CompiledWafRule P)) :
    (∃ state', rules.foldlM (addRule P) state = .ok state') ↔
      (rules.map (·.id)).Nodup ∧ (∀ rule ∈ rules, rule.id ∉ state.1) ∧
        ∀ rule ∈ rules, (P.regExp.construct rule.pattern rule.flagText).isSome = true := by
  induction rules generalizing state with
  | nil => simp [pure, Except.pure]
  | cons rule rules ih =>
    simp only [List.foldlM_cons, Except.bind_eq_ok_iff, List.map_cons, List.nodup_cons,
      List.forall_mem_cons]
    refine ⟨fun h => ?_, fun h => ?_⟩
    · rcases h with ⟨state', next, hnext, hrest⟩
      unfold addRule at hnext
      split at hnext
      · cases hnext
      · next hnew =>
        split at hnext
        · cases hnext
        · next expression hexpression =>
          rw [← Except.ok.inj hnext] at hrest
          obtain ⟨hnodup, hfresh, hconstructs⟩ := (ih _).mp ⟨state', hrest⟩
          simp only [List.mem_append, List.mem_singleton, not_or] at hfresh
          refine ⟨⟨?_, hnodup⟩, ⟨hnew, fun other hother => (hfresh other hother).1⟩,
            by rw [hexpression]; rfl, hconstructs⟩
          intro hmem
          rcases List.mem_map.mp hmem with ⟨other, hother, heq⟩
          exact (hfresh other hother).2 heq
    · obtain ⟨⟨hnotin, hnodup⟩, ⟨hnew, hfresh⟩, hconstruct, hconstructs⟩ := h
      obtain ⟨expression, hexpression⟩ := Option.isSome_iff_exists.mp hconstruct
      have hnext : addRule P state rule =
          .ok (state.1 ++ [rule.id], state.2 ++ [⟨rule, expression⟩]) := by
        unfold addRule
        rw [if_neg hnew, hexpression]
      have hfresh' : ∀ other ∈ rules, other.id ∉ state.1 ++ [rule.id] := by
        intro other hother hmem
        rcases List.mem_append.mp hmem with hmem | hmem
        · exact hfresh other hother hmem
        · rw [List.mem_singleton] at hmem
          exact hnotin (hmem ▸ List.mem_map_of_mem hother)
      obtain ⟨state', hrest⟩ := (ih (state.1 ++ [rule.id], state.2 ++ [⟨rule, expression⟩])).mpr
        ⟨hnodup, hfresh', hconstructs⟩
      exact ⟨state', _, hnext, hrest⟩

theorem new_ok_iff {route : CompiledRoute} :
    (∃ waf, new P route = .ok waf) ↔
      ((route.waf.getD []).map (·.id)).Nodup ∧ ∀ rule ∈ route.waf.getD [],
        (P.regExp.construct rule.pattern rule.flagText).isSome = true := by
  have hfold := foldlM_addRule_ok_iff (P := P) (route.waf.getD []) ([], [])
  simp only [List.not_mem_nil, not_false_eq_true, implies_true, true_and] at hfold
  rw [← hfold]
  unfold new
  simp only [Except.map_eq_ok_iff]
  refine ⟨fun h => ?_, fun h => ?_⟩
  · rcases h with ⟨waf, state, hstate, _⟩
    exact ⟨state, hstate⟩
  · rcases h with ⟨state, hstate⟩
    exact ⟨_, state, hstate, rfl⟩

/-- The rules of an evaluator are those of the route, in their order, each with its
expression. -/
theorem rules_of_new {route : CompiledRoute} {waf : WafEvaluator P}
    (h : new P route = .ok waf) :
    waf.rules.map (·.rule) = route.waf.getD [] ∧ ∀ compiled ∈ waf.rules,
      P.regExp.construct compiled.rule.pattern compiled.rule.flagText =
        some compiled.expression := by
  have ⟨state, hfold, hwaf⟩ := Except.map_eq_ok_iff.mp h
  rw [← hwaf]
  refine Except.foldlM_invariant (I := fun taken state =>
    state.2.map (·.rule) = taken ∧ ∀ compiled ∈ state.2,
      P.regExp.construct compiled.rule.pattern compiled.rule.flagText =
        some compiled.expression) hfold (by simp) ?_
  intro before rule after current next _ hcurrent hnext
  unfold addRule at hnext
  split at hnext
  · cases hnext
  · split at hnext
    · cases hnext
    · next expression hexpression =>
      rw [← Except.ok.inj hnext]
      refine ⟨by simp [hcurrent.1], fun compiled hcompiled => ?_⟩
      rcases List.mem_append.mp hcompiled with hcompiled | hcompiled
      · exact hcurrent.2 compiled hcompiled
      · rw [List.mem_singleton.mp hcompiled]
        exact hexpression

end WafEvaluator

/-! ## The engine -/

namespace PolicyEngine

theorem addWaf_ok_iff {wafByRoute wafByRoute' : OrderedMap String (WafEvaluator P)}
    {route : CompiledRoute} :
    addWaf P wafByRoute route = .ok wafByRoute' ↔
      ∃ waf, (WafEvaluator.new P route).toOption = some waf ∧
        wafByRoute' = wafByRoute.set route.id waf := by
  unfold addWaf
  cases WafEvaluator.new P route with
  | error e => simp [bind, Except.bind, Except.toOption]
  | ok waf => simp [bind, Except.bind, Except.toOption, eq_comm]

/-- An engine exists exactly when its matcher does and the rules of every route compile. -/
theorem new_ok_iff {bundle : Bundle} :
    (∃ engine, new P bundle = .ok engine) ↔
      RouteMatcher.Constructible P bundle ∧
        ∀ route ∈ bundle.routes, ∃ waf, WafEvaluator.new P route = .ok waf := by
  have hsome : ∀ route, (WafEvaluator.new P route).toOption.isSome = true ↔
      ∃ waf, WafEvaluator.new P route = .ok waf := by
    intro route
    cases WafEvaluator.new P route <;> simp [Except.toOption]
  have hwafs : (bundle.routes.map (·.id)).Nodup →
      ((∃ wafByRoute, bundle.routes.foldlM (addWaf P) .empty = .ok wafByRoute) ↔
        ∀ route ∈ bundle.routes, ∃ waf, WafEvaluator.new P route = .ok waf) := by
    intro hnodup
    rw [OrderedMap.foldlM_ok_iff CompiledRoute.id (fun route => (WafEvaluator.new P route).toOption)
      (fun m x _ m' => addWaf_ok_iff) hnodup (by simp)]
    simp only [hsome]
  unfold new
  simp only [Except.bind_eq_ok_iff]
  refine ⟨fun h => ?_, fun h => ?_⟩
  · rcases h with ⟨engine, matcher, hmatcher, wafByRoute, hfold, _⟩
    have hfits := RouteMatcher.new_ok_iff.mp ⟨matcher, hmatcher⟩
    exact ⟨hfits, (hwafs hfits.routeIds).mp ⟨wafByRoute, hfold⟩⟩
  · have ⟨matcher, hmatcher⟩ := RouteMatcher.new_ok_iff.mpr h.1
    have ⟨wafByRoute, hfold⟩ := (hwafs h.1.routeIds).mpr h.2
    exact ⟨_, matcher, hmatcher, wafByRoute, hfold, rfl⟩

/-- The parts of an engine that was built. -/
theorem parts_of_new {bundle : Bundle} {engine : PolicyEngine P} (h : new P bundle = .ok engine) :
    RouteMatcher.new P bundle = .ok engine.matcher ∧
      ∀ route ∈ bundle.routes, ∃ waf, WafEvaluator.new P route = .ok waf ∧
        engine.wafByRoute.get route.id = some waf := by
  have hfits := new_ok_iff.mp ⟨engine, h⟩
  unfold new at h
  simp only [Except.bind_eq_ok_iff] at h
  rcases h with ⟨matcher, hmatcher, wafByRoute, hfold, hengine⟩
  rw [← Except.ok.inj hengine]
  refine ⟨hmatcher, fun route hroute => ?_⟩
  obtain ⟨waf, hwaf⟩ := hfits.2 route hroute
  refine ⟨waf, hwaf, ?_⟩
  rw [OrderedMap.get_foldlM CompiledRoute.id (fun route => (WafEvaluator.new P route).toOption)
    (fun m x _ m' => addWaf_ok_iff) hfits.1.routeIds (by simp) hfold]
  exact .inr ⟨route, hroute, rfl, by rw [hwaf]; rfl⟩

/-- After the matcher nothing throws. -/
theorem evaluate_ok_iff {engine : PolicyEngine P} {input : PolicyRequest} :
    (∃ evaluation, engine.evaluate input = .ok evaluation) ↔
      ∃ resolution, engine.matcher.resolve input.method input.url.pathname = .ok resolution := by
  unfold evaluate
  simp only [Except.bind_eq_ok_iff]
  refine ⟨fun h => ?_, fun h => ?_⟩
  · rcases h with ⟨_, resolution, hresolution, _⟩
    exact ⟨resolution, hresolution⟩
  · rcases h with ⟨resolution, hresolution⟩
    refine exists_comm.mp ⟨resolution, ?_⟩
    simp only [hresolution, true_and]
    split
    · exact ⟨_, rfl⟩
    · exact ⟨_, rfl⟩
    · split
      · exact ⟨_, rfl⟩
      · split
        · exact ⟨_, rfl⟩
        · split <;> exact ⟨_, rfl⟩

/-- The identity that the limiter is asked about. -/
def Identifies (clientIp : Option String) (jwt : Option VerifiedJwt) (policy : RateLimitPolicy)
    (identity : String) : Prop :=
  Ecma.isBlank identity = false ∧
    (policy.key = .jwtSub → jwt.bind (·.subject) = some (.string identity)) ∧
    (policy.key = .clientIp → clientIp = some identity)

/-- The route counts requests by the subject of the token. -/
def LimitsSubject (route : CompiledRoute) : Prop :=
  ∃ policy, route.rateLimit = some policy ∧ policy.key = .jwtSub

/-- A subject that is there is a string. -/
def TextSubject (jwt : VerifiedJwt) : Prop :=
  ∀ subject, jwt.subject = some subject → ∃ identity, subject = .string identity

/-- The request is refused, the call is rejected, the route has no limit, or the identity is known
and the limiter is the only thing left to wait for. -/
theorem limitRate_cases (clientIp : Option String) (route : CompiledRoute)
    (wafMatches : List WafRuleMatch) (jwt : Option VerifiedJwt) :
    (∃ denial, limitRate clientIp route wafMatches jwt = .decided (.denied denial)) ∨
      limitRate clientIp route wafMatches jwt = .rejected ∨
      (route.rateLimit = none ∧
        limitRate clientIp route wafMatches jwt = allow (some route) jwt none wafMatches) ∨
      ∃ identity policy, route.rateLimit = some policy ∧
        Identifies clientIp jwt policy identity ∧
        limitRate clientIp route wafMatches jwt =
          .checkingRateLimit route wafMatches jwt identity policy := by
  unfold limitRate
  split
  · next hnone => exact .inr (.inr (.inl ⟨hnone, rfl⟩))
  · next policy hpolicy =>
    split
    · next hkey =>
      split
      · exact .inl ⟨_, rfl⟩
      · next identity hidentity =>
        split
        · exact .inl ⟨_, rfl⟩
        · next hblank =>
          rw [Bool.not_eq_true] at hblank
          refine .inr (.inr (.inr ⟨identity, policy, hpolicy, ⟨hblank, fun _ => hidentity, ?_⟩, rfl⟩))
          intro hother
          rw [hkey] at hother
          cases hother
      -- `trim` throws on a subject that is no string
      · exact .inr (.inl rfl)
    · next hkey =>
      rcases clientIp with _ | identity
      · exact .inl ⟨_, rfl⟩
      · simp only
        split
        · exact .inl ⟨_, rfl⟩
        · next hblank =>
          rw [Bool.not_eq_true] at hblank
          refine .inr (.inr (.inr ⟨identity, policy, hpolicy, ⟨hblank, ?_, fun _ => rfl⟩, rfl⟩))
          intro hother
          rw [hkey] at hother
          cases hother

/-- A call is rejected for a subject that is no string, where the subject is needed. -/
theorem limitRate_eq_rejected_iff (clientIp : Option String) (route : CompiledRoute)
    (wafMatches : List WafRuleMatch) (jwt : Option VerifiedJwt) :
    limitRate clientIp route wafMatches jwt = .rejected ↔
      LimitsSubject route ∧ ∃ verified, jwt = some verified ∧ ¬TextSubject verified := by
  have hdeny : ∀ status code found denied seconds,
      deny status code found denied seconds ≠ .rejected := fun _ _ _ _ _ h => nomatch h
  unfold limitRate LimitsSubject
  cases hlimit : route.rateLimit with
  | none =>
    refine ⟨(fun h => nomatch h), ?_⟩
    rintro ⟨⟨_, hpolicy, _⟩, _⟩
    cases hpolicy
  | some policy =>
    simp only [Option.some.injEq, exists_eq_left']
    cases hkey : policy.key with
    | clientIp =>
      -- the address of the client is always a text
      refine ⟨fun h => ?_, fun h => nomatch h.1⟩
      cases clientIp with
      | none => exact absurd h (hdeny _ _ _ _ _)
      | some identity =>
        simp only at h
        split at h
        · exact absurd h (hdeny _ _ _ _ _)
        · cases h
    | jwtSub =>
      rcases jwt with _ | verified
      · refine ⟨fun h => absurd h (hdeny _ _ _ _ _), ?_⟩
        rintro ⟨_, _, hsome, _⟩
        cases hsome
      · simp only [Option.bind_some, true_and, Option.some.injEq, exists_eq_left', TextSubject]
        cases hsubject : verified.subject with
        | none => simp [deny]
        | some subject =>
          cases subject with
          | string identity =>
            simp only [Option.some.injEq, forall_eq', Json.string.injEq, exists_eq',
              not_true_eq_false, iff_false]
            split
            · exact hdeny _ _ _ _ _
            · exact fun h => nomatch h
          | null | bool | number | array | object => simp

/-- Once the limiter has settled the call has decided, unless it was rejected. -/
theorem settleRateLimit_decided {evaluation : Evaluation}
    (h : ∀ route wafMatches authorization policy,
      evaluation ≠ .verifyingJwt route wafMatches authorization policy)
    (hrejected : evaluation ≠ .rejected)
    (check : String → String → RateLimitPolicy → Option RateLimitResult) :
    ∃ decision, settleRateLimit check evaluation = .decided decision := by
  cases evaluation with
  | decided decision => exact ⟨decision, rfl⟩
  | rejected => exact absurd rfl hrejected
  | verifyingJwt route wafMatches authorization policy => exact absurd rfl (h _ _ _ _)
  | checkingRateLimit route wafMatches jwt identity policy =>
    simp only [settleRateLimit, afterRateLimit]
    split
    · exact ⟨_, rfl⟩
    · split <;> exact ⟨_, rfl⟩

/-- From the verified token on no call awaits the verifier. -/
theorem limitRate_ne_verifyingJwt (clientIp : Option String) (route : CompiledRoute)
    (wafMatches : List WafRuleMatch) (jwt : Option VerifiedJwt) {route' : CompiledRoute}
    {wafMatches' : List WafRuleMatch} {authorization : Option String} {policy : JwtPolicy} :
    limitRate clientIp route wafMatches jwt ≠
      .verifyingJwt route' wafMatches' authorization policy := by
  rcases limitRate_cases clientIp route wafMatches jwt with
    ⟨_, h⟩ | h | ⟨_, h⟩ | ⟨_, _, _, _, h⟩ <;> rw [h] <;> simp [allow]

/-- Once the verifier has settled the call no longer awaits it. -/
theorem settleJwt_ne_verifyingJwt
    (verifyAuthorization : Option String → JwtPolicy → Option VerifiedJwt)
    (clientIp : Option String) (evaluation : Evaluation) (route : CompiledRoute)
    (wafMatches : List WafRuleMatch) (authorization : Option String) (policy : JwtPolicy) :
    settleJwt verifyAuthorization clientIp evaluation ≠
      .verifyingJwt route wafMatches authorization policy := by
  cases evaluation with
  | decided decision => simp [settleJwt]
  | rejected => simp [settleJwt]
  | checkingRateLimit route wafMatches jwt identity policy => simp [settleJwt]
  | verifyingJwt route' wafMatches' authorization' policy' =>
    simp only [settleJwt, afterJwt]
    split
    · simp [deny]
    · exact limitRate_ne_verifyingJwt clientIp route' wafMatches' (some _)

/-- The verifier settles a call with a rejection exactly when it returns a subject that the limit of
the route cannot use. -/
theorem settleJwt_eq_rejected_iff
    (verifyAuthorization : Option String → JwtPolicy → Option VerifiedJwt)
    (clientIp : Option String) {evaluation : Evaluation} (h : evaluation ≠ .rejected) :
    settleJwt verifyAuthorization clientIp evaluation = .rejected ↔
      ∃ route wafMatches authorization policy jwt,
        evaluation = .verifyingJwt route wafMatches authorization policy ∧
        LimitsSubject route ∧ verifyAuthorization authorization policy = some jwt ∧
        ¬TextSubject jwt := by
  cases evaluation with
  | rejected => exact absurd rfl h
  | decided | checkingRateLimit => simp [settleJwt]
  | verifyingJwt route wafMatches authorization policy =>
    simp only [settleJwt, Evaluation.verifyingJwt.injEq]
    unfold afterJwt
    cases houtcome : verifyAuthorization authorization policy with
    | none =>
      refine ⟨(fun h => nomatch h), ?_⟩
      rintro ⟨_, _, _, _, jwt, ⟨rfl, rfl, rfl, rfl⟩, _, hsome, _⟩
      rw [houtcome] at hsome
      cases hsome
    | some jwt =>
      simp only [limitRate_eq_rejected_iff, Option.some.injEq, exists_eq_left']
      constructor
      · rintro ⟨hlimits, hsubject⟩
        exact ⟨_, _, _, _, jwt, ⟨rfl, rfl, rfl, rfl⟩, hlimits, houtcome, hsubject⟩
      · rintro ⟨_, _, _, _, jwt', ⟨rfl, rfl, rfl, rfl⟩, hlimits, hsome, hsubject⟩
        rw [houtcome] at hsome
        rw [Option.some.inj hsome]
        exact ⟨hlimits, hsubject⟩

/-- Before the verifier has settled a call is not rejected any more. -/
theorem evaluate_ne_rejected {engine : PolicyEngine P} {input : PolicyRequest}
    {evaluation : Evaluation} (h : engine.evaluate input = .ok evaluation) :
    evaluation ≠ .rejected := by
  unfold evaluate at h
  obtain ⟨resolution, _, h⟩ := Except.bind_eq_ok_iff.mp h
  rintro rfl
  split at h
  · cases h
  · cases h
  · next route =>
    split at h
    · cases h
    · simp only at h
      split at h
      · cases h
      · split at h
        · cases h
        · have hrejected := (limitRate_eq_rejected_iff _ _ _ _).mp (Except.ok.inj h)
          obtain ⟨_, _, hsome, _⟩ := hrejected
          cases hsome

/-- A call returns a decision exactly when the matcher resolves the request and the verifier, where
a limit waits for the subject, does not return one that is no string. -/
theorem outcome_ok_iff {engine : PolicyEngine P}
    {verifyAuthorization : Option String → JwtPolicy → Option VerifiedJwt}
    {check : String → String → RateLimitPolicy → Option RateLimitResult}
    {input : PolicyRequest} :
    (∃ decision, engine.outcome verifyAuthorization check input = .ok (.decided decision)) ↔
      (∃ resolution, engine.matcher.resolve input.method input.url.pathname = .ok resolution) ∧
        ∀ route wafMatches authorization policy jwt,
          engine.evaluate input = .ok (.verifyingJwt route wafMatches authorization policy) →
          LimitsSubject route → verifyAuthorization authorization policy = some jwt →
          TextSubject jwt := by
  rw [← evaluate_ok_iff]
  unfold outcome
  simp only [Except.map_eq_ok_iff]
  constructor
  · rintro ⟨decision, evaluation, hevaluation, hdecided⟩
    refine ⟨⟨evaluation, hevaluation⟩, ?_⟩
    intro route wafMatches authorization policy jwt hverifying hlimits hjwt
    by_contra hsubject
    rw [hevaluation, Except.ok.injEq] at hverifying
    have hrejected := (settleJwt_eq_rejected_iff verifyAuthorization input.clientIp
      (evaluate_ne_rejected hevaluation)).mpr
      ⟨route, wafMatches, authorization, policy, jwt, hverifying, hlimits, hjwt, hsubject⟩
    rw [hrejected] at hdecided
    cases hdecided
  · rintro ⟨⟨evaluation, hevaluation⟩, hsubjects⟩
    have hkept : settleJwt verifyAuthorization input.clientIp evaluation ≠ .rejected := by
      intro hrejected
      obtain ⟨route, wafMatches, authorization, policy, jwt, heq, hlimits, hjwt, hsubject⟩ :=
        (settleJwt_eq_rejected_iff verifyAuthorization input.clientIp
          (evaluate_ne_rejected hevaluation)).mp hrejected
      rw [heq] at hevaluation
      exact hsubject (hsubjects _ _ _ _ _ hevaluation hlimits hjwt)
    have ⟨decision, hdecision⟩ := settleRateLimit_decided
      (settleJwt_ne_verifyingJwt verifyAuthorization input.clientIp evaluation) hkept check
    exact ⟨decision, evaluation, hevaluation, hdecision⟩

/-! ## What a call has passed -/

/-- A rule whose expression does not match its target value. -/
def Spares (P : Platform) (input : WafRequestInput) (rule : WafRule) : Prop :=
  ∃ expression, P.regExp.construct rule.pattern rule.flagText = some expression ∧
    P.regExp.test expression
      (targetValue rule.target input (serializeHeaders input.headers)) = false

/-- The bundle resolves a request to a route, and no blocking rule of it matches. -/
structure Resolves (P : Platform) (bundle : Bundle) (input : PolicyRequest)
    (route : CompiledRoute) : Prop where
  resolved : ∃ matcher, RouteMatcher.new P bundle = .ok matcher ∧
    matcher.resolve input.method input.url.pathname = .ok (.matched route)
  firewall : ∀ rule ∈ route.waf.getD [], rule.action = .block → Spares P (wafInput input) rule

/-- A firewall that does not block spares the request from every blocking rule. -/
theorem spares_of_not_blocked {route : CompiledRoute} {waf : WafEvaluator P}
    (hnew : WafEvaluator.new P route = .ok waf) {input : WafRequestInput}
    (h : (waf.evaluate input).blocked = false) :
    ∀ rule ∈ route.waf.getD [], rule.action = .block → Spares P input rule := by
  intro rule hrule hblock
  have ⟨hrules, hexpressions⟩ := WafEvaluator.rules_of_new hnew
  rw [← hrules] at hrule
  rcases List.mem_map.mp hrule with ⟨compiled, hcompiled, rfl⟩
  refine ⟨compiled.expression, hexpressions compiled hcompiled, ?_⟩
  by_contra hfires
  rw [Bool.not_eq_false] at hfires
  have hmatched : compiled ∈ waf.rules.filter (WafEvaluator.fires input) :=
    List.mem_filter.mpr ⟨hcompiled, hfires⟩
  have hblocked : (waf.evaluate input).blocked = true := by
    unfold WafEvaluator.evaluate
    simp only [List.any_map, List.any_eq_true]
    exact ⟨compiled, hmatched, by simpa using hblock⟩
  rw [h] at hblocked
  cases hblocked

/-- The route that a matcher resolves is one of its bundle. -/
theorem mem_of_resolve {bundle : Bundle} {matcher : RouteMatcher P}
    (hnew : RouteMatcher.new P bundle = .ok matcher) {method path : String}
    {route : CompiledRoute} (h : matcher.resolve method path = .ok (.matched route)) :
    route ∈ bundle.routes := by
  unfold RouteMatcher.resolve at h
  simp only at h
  split at h
  · cases h
  · split at h
    · cases h
    · obtain ⟨routeId, _, hget⟩ := RouteMatcher.mem_of_identify h
      exact (((RouteMatcher.built_of_new hnew).routes routeId route).mp hget).1

/-- How far a call of an engine gets at once: it denies, it allows a request without a route,
or it has passed the firewall of a route and goes on to the token or to the limit. -/
theorem evaluate_cases {bundle : Bundle} {engine : PolicyEngine P} (hnew : new P bundle = .ok engine)
    {input : PolicyRequest} {evaluation : Evaluation}
    (h : engine.evaluate input = .ok evaluation) :
    (∃ denial, evaluation = .decided (.denied denial)) ∨
      evaluation = allow none none none [] ∨
      ∃ route wafMatches, Resolves P bundle input route ∧
        ((∃ policy, route.jwt = some policy ∧ evaluation =
            .verifyingJwt route wafMatches (input.headers.get "authorization") policy) ∨
          (route.jwt = none ∧ evaluation = limitRate input.clientIp route wafMatches none)) := by
  have ⟨hmatcher, hwafs⟩ := parts_of_new hnew
  unfold evaluate at h
  rw [Except.bind_eq_ok_iff] at h
  rcases h with ⟨resolution, hresolution, h⟩
  split at h
  · exact .inr (.inl (Except.ok.inj h).symm)
  · exact .inl ⟨_, (Except.ok.inj h).symm⟩
  · next route =>
    split at h
    · exact .inl ⟨_, (Except.ok.inj h).symm⟩
    · next waf hwaf =>
      have ⟨waf', hwaf', hget⟩ := hwafs route (mem_of_resolve hmatcher hresolution)
      have hsame : waf' = waf := Option.some.inj (hget.symm.trans hwaf)
      rw [hsame] at hwaf'
      simp only at h
      split at h
      · exact .inl ⟨_, (Except.ok.inj h).symm⟩
      · next hpassed =>
        rw [Bool.not_eq_true] at hpassed
        have hresolves : Resolves P bundle input route :=
          ⟨⟨engine.matcher, hmatcher, hresolution⟩, spares_of_not_blocked hwaf' hpassed⟩
        refine .inr (.inr ⟨route, (waf.evaluate (wafInput input)).matched, hresolves, ?_⟩)
        split at h
        · next policy hpolicy => exact .inl ⟨policy, hpolicy, (Except.ok.inj h).symm⟩
        · next hnone => exact .inr ⟨hnone, (Except.ok.inj h).symm⟩

/-- A firewall does not block what every blocking rule spares. -/
theorem not_blocked_of_spares {route : CompiledRoute} {waf : WafEvaluator P}
    (hnew : WafEvaluator.new P route = .ok waf) {input : WafRequestInput}
    (h : ∀ rule ∈ route.waf.getD [], rule.action = .block → Spares P input rule) :
    (waf.evaluate input).blocked = false := by
  have ⟨hrules, hexpressions⟩ := WafEvaluator.rules_of_new hnew
  unfold WafEvaluator.evaluate
  simp only [List.any_map, List.any_eq_false]
  intro compiled hcompiled
  have ⟨hmem, hfires⟩ := List.mem_filter.mp hcompiled
  simp only [Function.comp_apply, decide_eq_true_eq]
  intro hblock
  have hrule : compiled.rule ∈ route.waf.getD [] := hrules ▸ List.mem_map_of_mem hmem
  obtain ⟨expression, hexpression, hspared⟩ := h compiled.rule hrule hblock
  rw [hexpressions compiled hmem] at hexpression
  rw [← Option.some.inj hexpression] at hspared
  unfold WafEvaluator.fires at hfires
  rw [hspared] at hfires
  cases hfires

/-- A request that its bundle resolves to a route with a token policy has its call wait for the
verifier. -/
theorem evaluate_of_resolves {bundle : Bundle} {engine : PolicyEngine P}
    (hnew : new P bundle = .ok engine) {input : PolicyRequest} {route : CompiledRoute}
    (h : Resolves P bundle input route) {policy : JwtPolicy} (hpolicy : route.jwt = some policy) :
    ∃ wafMatches, engine.evaluate input =
      .ok (.verifyingJwt route wafMatches (input.headers.get "authorization") policy) := by
  have ⟨hmatcher, hwafs⟩ := parts_of_new hnew
  obtain ⟨matcher, hmatcher', hresolved⟩ := h.resolved
  rw [hmatcher] at hmatcher'
  rw [← Except.ok.inj hmatcher'] at hresolved
  obtain ⟨waf, hwaf, hget⟩ := hwafs route (mem_of_resolve hmatcher hresolved)
  have hpassed := not_blocked_of_spares hwaf h.firewall
  refine ⟨(waf.evaluate (wafInput input)).matched, ?_⟩
  unfold evaluate
  rw [hresolved]
  simp [hget, hpassed, hpolicy, bind, Except.bind]

end PolicyEngine
end ShieldWard.Edge
