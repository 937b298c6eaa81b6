import ShieldWard.Control.CompilerTheorems
import ShieldWard.Lib.Sha256
import ShieldWard.Lib.Template
import Mathlib.Data.List.Forall2

/-!
# Routes with the same paths

The compiler refuses two routes with the same method and the same path text. What a request
meets is the set of paths that a text stands for, and two texts stand for the same set exactly
when they differ in the names of parameters only. The compiler does not look through the names.
-/

namespace ShieldWard.Control

open Template

variable {G : GoPlatform}

/-! ## What a path template stands for -/

/-- The piece that a segment stands for. -/
def readSegment : List Char → Piece Char
  | ':' :: _ => .parameter
  | segment => if segment = ['*'] then .wildcard else .literal segment

/-- The template that a path text spells. -/
def template (path : String) : List (Piece Char) := (pathSegments path.toList).map readSegment

/-- The path is one of those that the path text of a route stands for. -/
def MatchesPath (template' path : String) : Prop := Denotes '/' (template template') path.toList

/-- Segment by segment the same, or a parameter in both. -/
def SameButNames (path path' : String) : Prop :=
  List.Forall₂ (fun s t => s = t ∨ (s.head? = some ':' ∧ t.head? = some ':'))
    (pathSegments path.toList) (pathSegments path'.toList)

instance (path path' : String) : Decidable (SameButNames path path') :=
  inferInstanceAs (Decidable (List.Forall₂ _ _ _))

/-- Different texts that differ in the names of parameters only. -/
def Renamed (path path' : String) : Prop := path ≠ path' ∧ SameButNames path path'

instance (path path' : String) : Decidable (Renamed path path') :=
  inferInstanceAs (Decidable (_ ∧ _))

theorem readSegment_cases (segment : List Char) :
    (segment.head? = some ':' ∧ readSegment segment = .parameter) ∨
      (segment.head? ≠ some ':' ∧ segment = ['*'] ∧ readSegment segment = .wildcard) ∨
      (segment.head? ≠ some ':' ∧ segment ≠ ['*'] ∧ readSegment segment = .literal segment) := by
  unfold readSegment
  split
  · exact .inl ⟨rfl, rfl⟩
  · next hname =>
    have hhead : segment.head? ≠ some ':' := by
      intro h
      cases segment with
      | nil => cases h
      | cons c name => exact hname name (by rw [Option.some.inj h])
    by_cases hstar : segment = ['*']
    · rw [if_pos hstar]
      exact .inr (.inl ⟨hhead, hstar, rfl⟩)
    · rw [if_neg hstar]
      exact .inr (.inr ⟨hhead, hstar, rfl⟩)

theorem readSegment_eq_iff (segment segment' : List Char) :
    readSegment segment = readSegment segment' ↔
      segment = segment' ∨ (segment.head? = some ':' ∧ segment'.head? = some ':') := by
  rcases readSegment_cases segment with ⟨hs, heq⟩ | ⟨hs, hstar, heq⟩ | ⟨hs, hstar, heq⟩ <;>
    rcases readSegment_cases segment' with ⟨ht, heq'⟩ | ⟨ht, hstar', heq'⟩ | ⟨ht, hstar', heq'⟩ <;>
    rw [heq, heq'] <;> grind

theorem template_eq_iff (path path' : String) :
    template path = template path' ↔ SameButNames path path' := by
  have hpieces : ∀ segments segments' : List (List Char),
      segments.map readSegment = segments'.map readSegment ↔
        List.Forall₂ (fun s t => s = t ∨ (s.head? = some ':' ∧ t.head? = some ':'))
          segments segments' := by
    intro segments segments'
    rw [← List.forall₂_eq_eq_eq, List.forall₂_map_left_iff, List.forall₂_map_right_iff]
    simp only [readSegment_eq_iff]
  exact hpieces _ _

/-! ## Templates that compile -/

theorem not_mem_of_mem_splitOn {sep : Char} (text : List Char) :
    ∀ part ∈ text.splitOn sep, sep ∉ part := by
  induction text with
  | nil => simp
  | cons c text ih =>
    obtain ⟨first, others, hsplit⟩ := List.exists_cons_of_ne_nil (List.splitOn_ne_nil sep text)
    rw [hsplit] at ih
    rw [List.splitOn_cons_eq_if_modifyHead, hsplit]
    split
    · intro part hpart
      rcases List.mem_cons.mp hpart with rfl | hpart
      · exact List.not_mem_nil
      · exact ih part hpart
    · next hc =>
      intro part hpart
      rcases List.mem_cons.mp hpart with rfl | hpart
      · intro hsep
        rcases List.mem_cons.mp hsep with heq | hsep
        · exact hc (by simp [heq])
        · exact ih first List.mem_cons_self hsep
      · exact ih part (List.mem_cons_of_mem _ hpart)

/-- Only the last segment may be a wildcard. -/
theorem compileSegment_wildcard {isFinal : Bool} {segment compiled : List Char}
    (h : compileSegment G isFinal segment = .ok compiled)
    (hpiece : readSegment segment = .wildcard) : isFinal = true := by
  rcases readSegment_cases segment with ⟨_, heq⟩ | ⟨_, rfl, _⟩ | ⟨_, _, heq⟩
  · rw [heq] at hpiece
    cases hpiece
  · unfold compileSegment at h
    simp only [if_true] at h
    by_contra hfinal
    rw [Bool.not_eq_true] at hfinal
    simp [hfinal] at h
  · rw [heq] at hpiece
    cases hpiece

theorem wellFormed_of_compileSegments {segments : List (List Char)} {compiled : List Char}
    (hfree : ∀ segment ∈ segments, '/' ∉ segment)
    (h : compileSegments G segments = .ok compiled) :
    WellFormed '/' (segments.map readSegment) := by
  induction segments generalizing compiled with
  | nil => trivial
  | cons segment segments ih =>
    unfold compileSegments at h
    obtain ⟨_, hsegment, h⟩ := Except.bind_eq_ok_iff.mp h
    obtain ⟨_, hrest, _⟩ := Except.bind_eq_ok_iff.mp h
    refine ⟨fun hpiece => ?_, fun text htext => ?_,
      ih (fun s hs => hfree s (List.mem_cons_of_mem _ hs)) hrest⟩
    · have hfinal := compileSegment_wildcard hsegment hpiece
      have hnil : segments = [] := by simpa using hfinal
      rw [hnil]
      rfl
    · rcases readSegment_cases segment with ⟨_, heq⟩ | ⟨_, _, heq⟩ | ⟨_, _, heq⟩
      · rw [heq] at htext
        cases htext
      · rw [heq] at htext
        cases htext
      · rw [heq] at htext
        obtain rfl := Piece.literal.inj htext
        exact hfree segment List.mem_cons_self

theorem wellFormed_of_compilePathTemplate {path pattern : String}
    (h : compilePathTemplate G path = .ok pattern) : WellFormed '/' (template path) := by
  unfold compilePathTemplate at h
  split at h
  · next hroot =>
    rw [hroot]
    refine ⟨fun hpiece => ?_, fun text htext => ?_, trivial⟩
    · cases hpiece
    · obtain rfl := Piece.literal.inj htext
      exact List.not_mem_nil
  · obtain ⟨compiled, hcompiled, _⟩ := Except.map_eq_ok_iff.mp h
    exact wellFormed_of_compileSegments (not_mem_of_mem_splitOn _) hcompiled

/-- Compiled path texts stand for the same paths when they differ in names of parameters
only. -/
theorem same_paths_iff {path path' pattern pattern' : String}
    (h : compilePathTemplate G path = .ok pattern)
    (h' : compilePathTemplate G path' = .ok pattern') :
    (∀ p, MatchesPath path p ↔ MatchesPath path' p) ↔ SameButNames path path' := by
  rw [← template_eq_iff]
  constructor
  · intro hsame
    have hletter : 'a' ≠ '/' := by decide
    refine eq_of_denotes hletter (wellFormed_of_compilePathTemplate h)
      (wellFormed_of_compilePathTemplate h') fun text => ?_
    have htext := hsame (String.ofList text)
    simpa only [MatchesPath, String.toList_ofList] using htext
  · intro heq p
    rw [MatchesPath, MatchesPath, heq]

/-! ## The table of methods and paths -/

/-- The key of one method of a route. -/
def routeKey (route : Route) (method : String) : String :=
  method ++ "\x00" ++ route.routeMatch.path

/-- One method of a route takes a key that was not taken. -/
theorem addMethod_ok {route : Route} {pattern method : String} {table table' : MatcherTable}
    (h : addMethod G route pattern table method = .ok table') :
    table.seen.get (routeKey route method) = none ∧
      table'.seen = table.seen.set (routeKey route method) route.id := by
  unfold addMethod at h
  simp only at h
  split at h
  · cases h
  · next hnone =>
    cases h
    exact ⟨hnone, rfl⟩

/-- The keys of a list of routes, once each, none of them taken before. -/
structure Fresh (keys : List String) (table table' : MatcherTable) : Prop where
  nodup : keys.Nodup
  free : ∀ key ∈ keys, table.seen.get key = none
  taken : ∀ key, table'.seen.get key = none ↔ table.seen.get key = none ∧ key ∉ keys

theorem Fresh.append {keys keys' : List String} {table middle table' : MatcherTable}
    (h : Fresh keys table middle) (h' : Fresh keys' middle table') :
    Fresh (keys ++ keys') table table' := by
  refine ⟨List.nodup_append.mpr ⟨h.nodup, h'.nodup, ?_⟩, ?_, ?_⟩
  · rintro key hkey _ hkey' rfl
    exact ((h.taken key).mp (h'.free key hkey')).2 hkey
  · intro key hkey
    rcases List.mem_append.mp hkey with hkey | hkey
    · exact h.free key hkey
    · exact ((h.taken key).mp (h'.free key hkey)).1
  · intro key
    rw [h'.taken, h.taken, List.mem_append, not_or, and_assoc]

theorem addMethods_fresh {route : Route} {pattern : String} {methods : List String} :
    ∀ {table table' : MatcherTable},
      methods.foldlM (addMethod G route pattern) table = .ok table' →
      Fresh (methods.map (routeKey route)) table table' := by
  induction methods with
  | nil =>
    intro table table' h
    obtain rfl : table = table' := Except.ok.inj h
    exact ⟨List.nodup_nil, by simp, by simp⟩
  | cons method methods ih =>
    intro table table' h
    rw [List.foldlM_cons] at h
    obtain ⟨middle, hmiddle, hrest⟩ := Except.bind_eq_ok_iff.mp h
    obtain ⟨hnone, hset⟩ := addMethod_ok hmiddle
    have hfirst : Fresh [routeKey route method] table middle := by
      refine ⟨List.nodup_singleton _, by simpa using hnone, fun key => ?_⟩
      rw [hset, OrderedMap.get_set]
      by_cases hkey : key = routeKey route method <;> simp [hkey]
    exact hfirst.append (ih hrest)

theorem addRoute_ok {table table' : MatcherTable} {route : Route}
    (h : addRoute G table route = .ok table') :
    (∃ pattern, compilePathTemplate G route.routeMatch.path = .ok pattern) ∧
      Fresh (route.routeMatch.methods.map (routeKey route)) table table' := by
  unfold addRoute at h
  simp only at h
  split at h
  · cases h
  · next pattern hpattern => exact ⟨⟨pattern, hpattern⟩, addMethods_fresh h⟩

theorem addRoutes_ok {routes : List Route} :
    ∀ {table table' : MatcherTable}, routes.foldlM (addRoute G) table = .ok table' →
      (∀ route ∈ routes, ∃ pattern, compilePathTemplate G route.routeMatch.path = .ok pattern) ∧
        Fresh (routes.flatMap fun route => route.routeMatch.methods.map (routeKey route))
          table table' := by
  induction routes with
  | nil =>
    intro table table' h
    obtain rfl : table = table' := Except.ok.inj h
    exact ⟨by simp, List.nodup_nil, by simp, by simp⟩
  | cons route routes ih =>
    intro table table' h
    rw [List.foldlM_cons] at h
    obtain ⟨middle, hmiddle, hrest⟩ := Except.bind_eq_ok_iff.mp h
    obtain ⟨hcompiles, hfirst⟩ := addRoute_ok hmiddle
    obtain ⟨hothers, hfresh⟩ := ih hrest
    exact ⟨List.forall_mem_cons.mpr ⟨hcompiles, hothers⟩, hfirst.append hfresh⟩

/-- Two routes of a compiled document share no method unless their path texts differ. -/
theorem compileMatchers_ok {routes : List Route} {matchers : List MethodMatcher}
    (h : compileMatchers G routes = .ok matchers) :
    (∀ route ∈ routes, ∃ pattern, compilePathTemplate G route.routeMatch.path = .ok pattern) ∧
      routes.Pairwise fun r s => ∀ method ∈ r.routeMatch.methods,
        method ∈ s.routeMatch.methods → r.routeMatch.path ≠ s.routeMatch.path := by
  unfold compileMatchers at h
  obtain ⟨table, htable, _⟩ := Except.bind_eq_ok_iff.mp h
  obtain ⟨hcompiles, hfresh⟩ := addRoutes_ok htable
  refine ⟨hcompiles, (List.nodup_flatMap.mp hfresh.nodup).2.imp ?_⟩
  intro r s hdisjoint method hr hs heq
  refine hdisjoint (List.mem_map_of_mem hr) (List.mem_map.mpr ⟨method, hs, ?_⟩)
  rw [routeKey, routeKey, heq]

/-! ## Routes that can be told apart -/

/-- Two routes that share a method stand for different sets of paths under it. -/
def Distinguished (routes : List Route) : Prop :=
  routes.Pairwise fun r s => ∀ method ∈ r.routeMatch.methods, method ∈ s.routeMatch.methods →
    ¬∀ path : String, MatchesPath r.routeMatch.path path ↔ MatchesPath s.routeMatch.path path

/-- The paths of two routes that share a method do not differ in names of parameters only. -/
def NoRenaming (routes : List Route) : Prop :=
  routes.Pairwise fun r s => ∀ method ∈ r.routeMatch.methods, method ∈ s.routeMatch.methods →
    ¬Renamed r.routeMatch.path s.routeMatch.path

instance (routes : List Route) : Decidable (NoRenaming routes) :=
  inferInstanceAs (Decidable (routes.Pairwise _))

/-- **Duplicate routes.** In a document that compiles, any two routes that share a method can
be told apart by some path, if and only if no two of them differ in the names of path parameters
only. -/
theorem distinguished_iff {document : Document} {bundle : Bundle}
    (h : compile G document = .ok bundle) :
    Distinguished document.spec.routes ↔ NoRenaming document.spec.routes := by
  obtain ⟨_, matchers, hmatchers, _⟩ := compile_ok h
  obtain ⟨hcompiles, htexts⟩ := compileMatchers_ok hmatchers
  have hall : document.spec.routes.Pairwise fun r s : Route =>
      (∀ path : String, MatchesPath r.routeMatch.path path ↔ MatchesPath s.routeMatch.path path) ↔
        SameButNames r.routeMatch.path s.routeMatch.path := by
    apply List.pairwise_of_forall_mem_list
    intro r hr s hs
    obtain ⟨_, hpattern⟩ := hcompiles r hr
    obtain ⟨_, hpattern'⟩ := hcompiles s hs
    exact same_paths_iff hpattern hpattern'
  constructor
  · intro hdistinguished
    refine (hdistinguished.and hall).imp ?_
    rintro r s ⟨hpair, hsame⟩ method hr hs ⟨_, hnames⟩
    exact hpair method hr hs (hsame.mpr hnames)
  · intro hnames
    refine ((hnames.and hall).and htexts).imp ?_
    rintro r s ⟨⟨hpair, hsame⟩, htext⟩ method hr hs hpaths
    exact hpair method hr hs ⟨htext method hr hs, hsame.mp hpaths⟩

/-! ## A route that no request reaches -/

namespace Duplicates

/-- What Go's library answers for the documents below. -/
def goPlatform : GoPlatform where
  parseUrl text := List.lookup text
    [("https://orders.internal", ⟨"https", "orders.internal", "orders.internal", false⟩)]
  isLoopbackAddress _ := false
  compileRegexp _ := .ok ()
  isPrint _ := false
  toUpper text := text.map Char.toUpper
  sha256 := Sha256.hash
  sign _ _ := []
  numberText n := toString n.num

def route (id path : String) : Route where
  id := id
  routeMatch := ⟨["GET"], path⟩
  upstream := "https://orders.internal"
  jwt := none
  rateLimit := none
  waf := []

def document (routes : List Route) : Document where
  apiVersion := APIVersionV1Alpha1
  kind := KindSecurityPolicy
  metadata := ⟨"orders"⟩
  spec := ⟨DecisionDeny, routes⟩

/-- A matcher for the routes of one method. -/
def matcher (routes : List Route) (regex : String) : MethodMatcher :=
  ⟨"GET", regex, routes.map Route.id⟩

theorem compile_document {routes : List Route} {matchers : List MethodMatcher}
    (hvalid : validate goPlatform (document routes) = .ok ())
    (hmatchers : compileMatchers goPlatform routes = .ok matchers) :
    ∃ bundle, compile goPlatform (document routes) = .ok bundle := by
  unfold compile
  rw [hvalid]
  exact ⟨_, by rw [show (document routes).spec.routes = routes from rfl, hmatchers]; rfl⟩

/-- One path under two names of its parameter. -/
def renamed : List Route :=
  [route "orders-read" "/v1/orders/:id", route "orders-audited" "/v1/orders/:order"]

/-- The second route is accepted, and its alternative is the text of the first. -/
theorem renamed_accepted :
    ¬∀ (G : GoPlatform) (document : Document) (bundle : Bundle),
      compile G document = .ok bundle → Distinguished document.spec.routes := by
  intro hall
  have hvalid : validate goPlatform (document renamed) = .ok () := by decide +kernel
  have hmatchers : compileMatchers goPlatform renamed = .ok
      [matcher renamed "^(?:(/v1/orders/[^/]+)|(/v1/orders/[^/]+))$"] := by decide +kernel
  obtain ⟨bundle, hbundle⟩ := compile_document hvalid hmatchers
  have hpairs := hall goPlatform (document renamed) bundle hbundle
  have hnames : template "/v1/orders/:id" = template "/v1/orders/:order" := by decide +kernel
  refine (List.pairwise_cons.mp hpairs).1 _ List.mem_cons_self "GET" List.mem_cons_self
    List.mem_cons_self fun path => ?_
  show Denotes '/' (template "/v1/orders/:id") _ ↔ Denotes '/' (template "/v1/orders/:order") _
  rw [hnames]

/-- A collection and its members. -/
def nested : List Route :=
  [route "orders-list" "/v1/orders", route "orders-read" "/v1/orders/:id"]

theorem distinguished_iff_nested : Distinguished nested ↔ NoRenaming nested := by
  have hvalid : validate goPlatform (document nested) = .ok () := by decide +kernel
  have hmatchers : compileMatchers goPlatform nested = .ok
      [matcher nested "^(?:(/v1/orders)|(/v1/orders/[^/]+))$"] := by decide +kernel
  obtain ⟨bundle, hbundle⟩ := compile_document hvalid hmatchers
  exact distinguished_iff hbundle

end Duplicates
end ShieldWard.Control
