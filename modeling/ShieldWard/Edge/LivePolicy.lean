import ShieldWard.Edge.PolicyEngine

/-!
# The live policy evaluator

`edge/src/live-policy.ts`: the engine of the current bundle, built again when the version of
the bundle is not the one that it was built for. The bundle that the active engine was built
from is kept as history.
-/

namespace ShieldWard.Edge

structure LivePolicyEvaluator (P : Platform) where
  activeVersion : Option String
  activeEvaluator : Option (PolicyEngine P)
  activeBundle : Option Bundle

namespace LivePolicyEvaluator

variable {P : Platform}

def new : LivePolicyEvaluator P :=
  { activeVersion := none, activeEvaluator := none, activeBundle := none }

/-- A new engine for a bundle becomes the active one. -/
def build (bundle : Bundle) : Except PolicyError (LivePolicyEvaluator P × PolicyEngine P) :=
  (PolicyEngine.new P bundle).map fun engine =>
    ({ activeVersion := some bundle.version
       activeEvaluator := some engine
       activeBundle := some bundle }, engine)

/-- The evaluator after the engine of a bundle has been asked for, and the engine. -/
def evaluatorFor (live : LivePolicyEvaluator P) (bundle : Bundle) :
    Except PolicyError (LivePolicyEvaluator P × PolicyEngine P) :=
  match live.activeEvaluator with
  | some engine => if live.activeVersion = some bundle.version then .ok (live, engine) else build bundle
  | none => build bundle

/-- `evaluate` up to its first await. An error is a rejected call: there is no current bundle,
no engine for it, or the engine throws. -/
def evaluate (live : LivePolicyEvaluator P) (current : Option Bundle) (request : PolicyRequest) :
    LivePolicyEvaluator P × Option Evaluation :=
  match current with
  | none => (live, none)
  | some bundle =>
    match live.evaluatorFor bundle with
    | .error _ => (live, none)
    | .ok (live, engine) => (live, (engine.evaluate request).toOption)

end LivePolicyEvaluator
end ShieldWard.Edge
