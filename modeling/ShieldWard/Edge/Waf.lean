import ShieldWard.Edge.Headers
import ShieldWard.Edge.RouteMatcher

/-!
# The web application firewall

`edge/src/waf.ts`: the rules of a route are compiled when the evaluator is built and tested
against the parts of a request.
-/

namespace ShieldWard.Edge

structure WafRequestInput where
  path : String
  query : String
  headers : Headers
  body : Option String

structure WafRuleMatch where
  ruleId : String
  target : WafTarget
  action : WafAction
deriving DecidableEq

structure WafEvaluation where
  blocked : Bool
  matched : List WafRuleMatch
deriving DecidableEq

structure CompiledWafRule (P : Platform) where
  rule : WafRule
  expression : P.regExp.RegExp

/-- `rule.flags ?? ''`. -/
def WafRule.flagText (rule : WafRule) : String :=
  match rule.flags with
  | none => ""
  | some .i => "i"

def serializeHeaders (headers : Headers) : String :=
  String.intercalate "\n" (headers.sortAndCombine.map fun header => header.1 ++ ": " ++ header.2)

def targetValue (target : WafTarget) (input : WafRequestInput) (headerText : String) : String :=
  match target with
  | .path => input.path
  | .query => input.query
  | .headers => headerText
  | .body => input.body.getD ""

structure WafEvaluator (P : Platform) where
  rules : List (CompiledWafRule P)

namespace WafEvaluator

/-- The callback of the map: the IDs seen so far, and the rules compiled so far. -/
def addRule (P : Platform) (state : List String × List (CompiledWafRule P)) (rule : WafRule) :
    Except PolicyError (List String × List (CompiledWafRule P)) :=
  if rule.id ∈ state.1 then
    .error (.wafEvaluator ("duplicate WAF rule ID: " ++ rule.id))
  else
    match P.regExp.construct rule.pattern rule.flagText with
    | none => .error (.wafEvaluator ("WAF rule " ++ rule.id ++ " has an invalid pattern"))
    | some expression => .ok (state.1 ++ [rule.id], state.2 ++ [{ rule, expression }])

/-- The constructor. -/
def new (P : Platform) (route : CompiledRoute) : Except PolicyError (WafEvaluator P) :=
  ((route.waf.getD []).foldlM (addRule P) ([], [])).map fun state => { rules := state.2 }

variable {P : Platform}

/-- Whether a rule's expression matches its target value. -/
def fires (input : WafRequestInput) (compiled : CompiledWafRule P) : Bool :=
  P.regExp.test compiled.expression
    (targetValue compiled.rule.target input (serializeHeaders input.headers))

def evaluate (waf : WafEvaluator P) (input : WafRequestInput) : WafEvaluation :=
  let matched := (waf.rules.filter (fires input)).map fun compiled =>
    { ruleId := compiled.rule.id, target := compiled.rule.target,
      action := compiled.rule.action }
  { blocked := matched.any fun found => found.action = .block, matched }

end WafEvaluator
end ShieldWard.Edge
