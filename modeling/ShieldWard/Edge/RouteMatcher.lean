import ShieldWard.Edge.Bundle
import ShieldWard.Edge.Platform
import ShieldWard.Lib.Fallible
import ShieldWard.Lib.OrderedMap

/-!
# The route matcher

`edge/src/route-matcher.ts`: the tables that the constructor builds from a bundle, and the
resolution of a method and a path.
-/

namespace ShieldWard.Edge

/-- What the policy evaluation throws. -/
inductive PolicyError
  | routeMatcher (message : String)
  | wafEvaluator (message : String)
  /-- `new RegExp` in the constructor of the matcher. -/
  | regExpSyntax
deriving DecidableEq

inductive RouteResolution
  | matched (route : CompiledRoute)
  | default (decision : DefaultDecision)
deriving DecidableEq

structure RuntimeMatcher (P : Platform) where
  regex : P.regExp.RegExp
  routeIds : List String

structure RouteMatcher (P : Platform) where
  defaultDecision : DefaultDecision
  routesById : OrderedMap String CompiledRoute
  matchersByMethod : OrderedMap String (RuntimeMatcher P)

namespace RouteMatcher

def addRoute (routesById : OrderedMap String CompiledRoute) (route : CompiledRoute) :
    Except PolicyError (OrderedMap String CompiledRoute) :=
  if routesById.has route.id then
    .error (.routeMatcher ("duplicate route ID: " ++ route.id))
  else .ok (routesById.set route.id route)

/-- `startsWith('^')` and `endsWith('$')`. -/
def isAnchored (regex : String) : Bool :=
  regex.toList.head? = some '^' && regex.toList.getLast? = some '$'

def addMatcher (P : Platform) (routesById : OrderedMap String CompiledRoute)
    (matchersByMethod : OrderedMap String (RuntimeMatcher P)) (matcher : MethodMatcher) :
    Except PolicyError (OrderedMap String (RuntimeMatcher P)) :=
  if matchersByMethod.has matcher.method then
    .error (.routeMatcher ("duplicate matcher method: " ++ matcher.method))
  else if !isAnchored matcher.regex then
    .error (.routeMatcher ("matcher for " ++ matcher.method ++ " must be anchored"))
  else
    match matcher.routeIds.find? fun routeId => !routesById.has routeId with
    | some routeId =>
      .error (.routeMatcher ("matcher references unknown route: " ++ routeId))
    | none =>
      match P.regExp.construct matcher.regex "" with
      | none => .error .regExpSyntax
      | some regex =>
        .ok (matchersByMethod.set matcher.method { regex, routeIds := matcher.routeIds })

/-- The constructor. -/
def new (P : Platform) (bundle : Bundle) : Except PolicyError (RouteMatcher P) := do
  let routesById ← bundle.routes.foldlM addRoute .empty
  let matchersByMethod ← bundle.matchers.foldlM (addMatcher P routesById) .empty
  .ok { defaultDecision := bundle.defaultDecision, routesById, matchersByMethod }

variable {P : Platform}

/-- The loop over the route IDs; `groups` are the groups of the match from the first on. -/
def identify (matcher : RouteMatcher P) (normalizedMethod : String) :
    List String → List (Option Span) → Except PolicyError RouteResolution
  | routeId :: routeIds, group :: groups =>
    match group with
    | none => matcher.identify normalizedMethod routeIds groups
    | some _ =>
      match matcher.routesById.get routeId with
      | none => .error (.routeMatcher ("matched route is unavailable: " ++ routeId))
      | some route => .ok (.matched route)
  | _, _ =>
    .error (.routeMatcher
      ("matcher for " ++ normalizedMethod ++ " matched without identifying a route"))

def resolve (matcher : RouteMatcher P) (method path : String) :
    Except PolicyError RouteResolution :=
  let normalizedMethod := P.toUpperCase method
  match matcher.matchersByMethod.get normalizedMethod with
  | none => .ok (.default matcher.defaultDecision)
  | some runtime =>
    match P.regExp.exec runtime.regex path with
    | none => .ok (.default matcher.defaultDecision)
    | some found => matcher.identify normalizedMethod runtime.routeIds found.tail

end RouteMatcher
end ShieldWard.Edge
