import ShieldWard.Edge.FleetQuota
import ShieldWard.Edge.Jwt

/-!
# Routes with a token policy

A gateway with its verifier of tokens. A call that awaits the verifier calls it once; the verifier
may reject it at once, or else calls `jwtVerify`, which settles at any time after that. The other
calls go on meanwhile, and policies are installed.
-/

namespace ShieldWard.Edge

open Ecma
open Turn (Keeps Writes Moves)

variable {P : Platform}

/-! ## The machine -/

/-- A call of `verifyAuthorization`: whose it is, and what `jwtVerify` was called with. -/
structure Question where
  index : ℕ
  authorization : Option String
  policy : JwtPolicy
  call : Option JwtVerifyCall

/-- How a call of `verifyAuthorization` has settled. -/
structure Answer where
  question : Question
  result : Option JwtVerifyResult

structure TokenGateway (P : Platform) where
  state : GatewayState P
  verifier : JwtVerifier
  asked : List Question
  answered : List Answer

inductive TokenAction
  | gateway (action : GatewayAction)
  | ask (index : ℕ)
  | answer (index : ℕ) (result : Option JwtVerifyResult)

/-- What the call awaits of the verifier. -/
def Call.awaitsJwt (call : Call) : Option (Option String × JwtPolicy) :=
  match call.stage with
  | .evaluating _ (.verifyingJwt _ _ authorization policy) => some (authorization, policy)
  | _ => none

/-- The gateway gets the answers of the verifier from the verifier. -/
def GatewayAction.isVerified : GatewayAction → Bool
  | .turn _ (.verified _) => true
  | _ => false

namespace TokenGateway

def step (trustedKeys : TrustedKeyring) (s : TokenGateway P) :
    TokenAction → Option (TokenGateway P)
  | .gateway action => do
    if action.isVerified then none
    else
      let state ← Gateway.step trustedKeys s.state action
      some { s with state }
  | .ask index => do
    let call ← s.state.calls[index]?
    let (authorization, policy) ← call.awaitsJwt
    if s.asked.any (·.index = index) then none
    else
      let (verifier, jwtVerifyCall) := s.verifier.verifyAuthorization P authorization policy
      let question : Question := { index, authorization, policy, call := jwtVerifyCall }
      some { s with verifier, asked := s.asked ++ [question] }
  | .answer index result => do
    let question ← s.asked.find? (·.index = index)
    -- a call of the verifier that was rejected at once has no result
    let result := question.call.bind fun _ => result
    let outcome := (JwtVerifier.afterJwtVerify result).toOption
    let state ← Gateway.step trustedKeys s.state (.turn index (.verified outcome))
    some { s with state, answered := s.answered ++ [{ question, result }] }

def machine (P : Platform) (options : GatewayOptions) (jwtOptions : JwtVerifierOptions)
    (trustedKeys : TrustedKeyring) : System.Machine (TokenGateway P) TokenAction where
  init s := (Gateway.machine P options trustedKeys).init s.state ∧
    JwtVerifier.new jwtOptions = .ok s.verifier ∧ s.asked = [] ∧ s.answered = []
  step := step trustedKeys

end TokenGateway

/-! ## What an evaluation is about -/

theorem evaluated_ne_readingBody (body : BufferedBody) (evaluation : Evaluation) :
    Turn.evaluated body evaluation ≠ .readingBody := by
  cases evaluation <;> exact fun h => nomatch h

theorem ended_ne_readingBody {t t' : Turn P} (h : Writes t t' ∨ t' = t.reject) :
    t'.call.stage ≠ .readingBody := by
  rcases h with hwrites | hreject
  · obtain ⟨_, _, _, hstage, _⟩ := hwrites.written
    rw [hstage]
    exact fun h => nomatch h
  · rw [hreject, t.reject_spec.2.stage]
    exact fun h => nomatch h

/-- After the body a call keeps its request, the bundle that evaluates it and its body. -/
structure Evaluates (call call' : Call) : Prop where
  stage : call'.stage ≠ .readingBody
  arrival : call'.arrival = call.arrival
  asked : ∃ verifications checks permits fetches, call'.history.asked =
    { call.history.asked with verifications, checks, permits, fetches }

theorem Evaluates.ended {t t' : Turn P} (hkeeps : Keeps t t')
    (hends : Writes t t' ∨ t' = t.reject) : Evaluates t.call t'.call :=
  ⟨ended_ne_readingBody hends, hkeeps.arrival, ⟨_, _, _, _, hkeeps.asked⟩⟩

theorem Turn.Moves.evaluates_of_ne {t t' : Turn P} {a : CallAction} (horderly : Orderly t.call)
    (hstage : t.call.stage ≠ .readingBody) (h : Moves t a t') : Evaluates t.call t'.call := by
  cases h with
  | evaluates hreading => exact absurd hreading hstage
  | verified | checked => exact ⟨evaluated_ne_readingBody _ _, rfl, ⟨_, _, _, _, rfl⟩⟩
  | ends hprepares hkeeps hends =>
    obtain ⟨hne, harrival, hasked⟩ := Evaluates.ended hkeeps (hends.imp_right And.left)
    cases hprepares <;> exact ⟨hne, harrival, hasked⟩
  | sends => exact ⟨(fun h => nomatch h), rfl, ⟨_, _, _, _, rfl⟩⟩
  | unsendable _ _ _ hends =>
    obtain ⟨hne, harrival, verifications, checks, permits, fetches, hasked⟩ :=
      Evaluates.ended hends.keeps (hends.ends.imp_right And.left)
    exact ⟨hne, harrival, verifications, checks, permits, fetches, hasked⟩
  | @fetched _ route permit outcome now hfetching =>
    obtain ⟨settlement, hends⟩ := horderly.afterFetch hfetching outcome now
    obtain ⟨hne, harrival, hasked⟩ :=
      Evaluates.ended hends.keeps (hends.ends.imp_right And.left)
    exact ⟨hne, harrival, hasked⟩
  | aborted | streams => exact ⟨hstage, rfl, ⟨_, _, _, _, rfl⟩⟩

/-! ## What a call has verified -/

theorem Turn.Moves.verifications {t t' : Turn P} {a : CallAction} (horderly : Orderly t.call)
    (h : Moves t a t') :
    t'.call.history.verifications = t.call.history.verifications ∨
      ∃ body route wafMatches authorization policy, t.call.stage = .evaluating body
        (.verifyingJwt route wafMatches authorization policy) := by
  cases h with
  | verified hstage => exact .inr ⟨_, _, _, _, _, hstage⟩
  | ends hprepares hkeeps =>
    have hsame := congrArg Asked.verifications hkeeps.asked
    cases hprepares <;> exact .inl hsame
  | unsendable _ _ _ hends => exact .inl (congrArg Asked.verifications hends.keeps.asked)
  | @fetched _ route permit outcome now hstage =>
    obtain ⟨settlement, hends⟩ := horderly.afterFetch hstage outcome now
    exact .inl (congrArg Asked.verifications hends.keeps.asked)
  | evaluates | checked | sends | aborted | streams => exact .inl rfl

theorem verifications_of_arrives {gateway : Gateway P} {arrival : Arrival} {t : Turn P}
    (h : Arrives gateway arrival t) : t.call.history.verifications = [] := by
  cases h with
  | admitted _ _ hnew =>
    rw [hnew]
    rfl
  | turnedAway _ hnew hkeeps =>
    refine (congrArg Asked.verifications hkeeps.asked).trans ?_
    show CallHistory.verifications _ = []
    rw [hnew]
    rfl

/-- A call that awaits the verifier goes on with its answer, and no other step answers it. -/
theorem Turn.verified_of_step {t t' : Turn P} {a : CallAction} (h : t.step a = some t')
    {body : BufferedBody} {route : CompiledRoute} {wafMatches : List WafRuleMatch}
    {authorization : Option String} {policy : JwtPolicy}
    (hstage : t.call.stage = .evaluating body
      (.verifyingJwt route wafMatches authorization policy)) :
    t'.call.history.verifications = t.call.history.verifications ∨
      ∃ outcome, a = .verified outcome ∧
        t' = t.afterVerification body route wafMatches authorization policy outcome := by
  rcases Turn.evaluating_of_step h hstage with ⟨_, hasked⟩ |
    ⟨_, _, _, _, outcome, heq, haction, hnext⟩ | ⟨_, _, _, _, _, _, heq, _⟩
  · exact .inl (congrArg Asked.verifications hasked)
  · cases heq
    exact .inr ⟨outcome, haction, hnext⟩
  · cases heq

section

variable {options : GatewayOptions} {trustedKeys : TrustedKeyring} {s s' : GatewayState P}

/-- What a call has verified it had verified before, or the verifier has just answered it. -/
theorem Gateway.verifications_of_step {a : GatewayAction}
    (hreachable : (Gateway.machine P options trustedKeys).Reachable s)
    (h : Gateway.step trustedKeys s a = some s') {index : ℕ} {call' : Call}
    (hcall' : s'.calls[index]? = some call') {verification : Verification}
    (hmem : verification ∈ call'.history.verifications) :
    (∃ call, s.calls[index]? = some call ∧ verification ∈ call.history.verifications) ∨
      a = .turn index (.verified verification.outcome) ∧
      ∃ call, s.calls[index]? = some call ∧
        call.awaitsJwt = some (verification.authorization, verification.policy) := by
  rcases Gateway.call_of_step h hcall' with hsame | ⟨_, arrival, t, harrives, rfl⟩ |
    ⟨action, call, t, rfl, hcall, ht, rfl⟩
  · exact .inl ⟨call', hsame, hmem⟩
  · rw [verifications_of_arrives harrives] at hmem
    cases hmem
  · have horderly := orderly_of_reachable hreachable call (List.mem_of_getElem? hcall)
    rcases (Turn.moves_of_step ht).verifications horderly with hverifications |
      ⟨body, route, wafMatches, authorization, policy, hstage⟩
    · rw [hverifications] at hmem
      exact .inl ⟨call, hcall, hmem⟩
    · rcases Turn.verified_of_step ht hstage with hsame | ⟨outcome, rfl, rfl⟩
      · rw [hsame] at hmem
        exact .inl ⟨call, hcall, hmem⟩
      · rcases List.mem_append.mp hmem with hmem | hmem
        · exact .inl ⟨call, hcall, hmem⟩
        · rw [List.mem_singleton.mp hmem]
          refine .inr ⟨rfl, call, hcall, ?_⟩
          unfold Call.awaitsJwt
          rw [hstage]

/-- A call whose body has been read keeps what its evaluation is about. -/
theorem Gateway.evaluates_of_step {a : GatewayAction}
    (hreachable : (Gateway.machine P options trustedKeys).Reachable s)
    (h : Gateway.step trustedKeys s a = some s') {index : ℕ} {call : Call}
    (hcall : s.calls[index]? = some call) (hstage : call.stage ≠ .readingBody) :
    ∃ call', s'.calls[index]? = some call' ∧ Evaluates call call' := by
  have hlt := (List.getElem?_eq_some_iff.mp hcall).1
  have hget := List.getElem?_eq_getElem (hlt.trans_le (Gateway.length_of_step h))
  refine ⟨_, hget, ?_⟩
  rcases Gateway.call_of_step h hget with hsame | ⟨hnone, _⟩ |
    ⟨action, before, t, _, hbefore, ht, heq⟩
  · rw [hcall] at hsame
    rw [← Option.some.inj hsame]
    exact ⟨hstage, rfl, ⟨_, _, _, _, rfl⟩⟩
  · rw [hcall] at hnone
    cases hnone
  · rw [hcall] at hbefore
    obtain rfl := Option.some.inj hbefore
    rw [heq]
    exact (Turn.moves_of_step ht).evaluates_of_ne
      (orderly_of_reachable hreachable call (List.mem_of_getElem? hcall)) hstage

end

/-! ## What the verifier is asked -/

/-- The bundle that evaluates the call has resolved it to a route with this token policy, and its
firewall has let it pass. -/
def Call.OnRoute (P : Platform) (call : Call) (policy : JwtPolicy) : Prop :=
  ∃ bundle body route, call.history.asked.Routed P call.arrival bundle body route ∧
    route.jwt = some policy

/-- A call is on a route with one token policy at most. -/
theorem Call.OnRoute.unique {call : Call} {policy policy' : JwtPolicy}
    (h : call.OnRoute P policy) (h' : call.OnRoute P policy') : policy = policy' := by
  obtain ⟨bundle, body, route, ⟨⟨hbundle, _⟩, hbody, hresolves⟩, hpolicy⟩ := h
  obtain ⟨bundle', body', route', ⟨⟨hbundle', _⟩, hbody', hresolves'⟩, hpolicy'⟩ := h'
  obtain rfl := Option.some.inj (hbundle.symm.trans hbundle')
  obtain rfl := Option.some.inj (hbody.symm.trans hbody')
  obtain ⟨matcher, hmatcher, hroute⟩ := hresolves.resolved
  obtain ⟨matcher', hmatcher', hroute'⟩ := hresolves'.resolved
  obtain rfl := Except.ok.inj (hmatcher.symm.trans hmatcher')
  have hsame := Except.ok.inj (hroute.symm.trans hroute')
  have hroutes : route = route' := by injection hsame
  rw [hroutes, hpolicy'] at hpolicy
  exact (Option.some.inj hpolicy).symm

theorem Call.OnRoute.keeps {call call' : Call} {policy : JwtPolicy} (h : call.OnRoute P policy)
    (hevaluates : Evaluates call call') : call'.OnRoute P policy := by
  obtain ⟨bundle, body, route, hrouted, hpolicy⟩ := h
  obtain ⟨_, harrival, verifications, checks, permits, fetches, hasked⟩ := hevaluates
  refine ⟨bundle, body, route, ?_, hpolicy⟩
  rw [harrival, hasked]
  exact hrouted

/-- A call that awaits the verifier is on a route with the policy, and the header is its own. -/
theorem CallPassed.onRoute {call : Call} (h : CallPassed P call) {authorization : Option String}
    {policy : JwtPolicy} (hawaits : call.awaitsJwt = some (authorization, policy)) :
    call.stage ≠ .readingBody ∧ call.OnRoute P policy ∧
      authorization = call.arrival.request.headers.get "authorization" := by
  have hpassed := h.stage
  unfold Call.awaitsJwt at hawaits
  split at hawaits
  · next body route wafMatches authorization' policy' hstage =>
    obtain ⟨rfl, rfl⟩ := Prod.mk.inj (Option.some.inj hawaits)
    rw [hstage] at hpassed
    obtain ⟨_, _, bundle, hrouted, hpolicy, hauthorization, _⟩ := hpassed
    refine ⟨?_, ⟨bundle, body, route, hrouted, hpolicy⟩, hauthorization⟩
    rw [hstage]
    exact fun h => nomatch h
  · cases hawaits

namespace TokenGateway

variable {options : GatewayOptions} {jwtOptions : JwtVerifierOptions}
  {trustedKeys : TrustedKeyring} {s s' : TokenGateway P}

/-- The call is on the route of the policy, and the verifier got its header and the policy. -/
structure Asked (s : TokenGateway P) (question : Question) (call : Call) : Prop where
  found : s.state.calls[question.index]? = some call
  stage : call.stage ≠ .readingBody
  onRoute : call.OnRoute P question.policy
  header : question.authorization = call.arrival.request.headers.get "authorization"

/-- `jwtVerify` was called for the token of the header under the policy. -/
def Asks (P : Platform) (jwtOptions : JwtVerifierOptions) (question : Question) : Prop :=
  ∀ call, question.call = some call → ∃ header token, question.authorization = some header ∧
    BearerToken header token ∧
    JwtVerifier.Asks P (jwtOptions.timeoutDurationMs.getD 5000)
      (jwtOptions.clockToleranceSeconds.getD 5) token question.policy call

/-- The verifier has given the call this answer. -/
def Answers (s : TokenGateway P) (index : ℕ) (verification : Verification) : Prop :=
  ∀ jwt, verification.outcome = some jwt → ∃ answer ∈ s.answered, ∃ call result,
    answer.question ∈ s.asked ∧ answer.question.index = index ∧
    answer.question.authorization = verification.authorization ∧
    answer.question.policy = verification.policy ∧
    answer.question.call = some call ∧ answer.result = some result ∧
    JwtVerifier.afterJwtVerify (some result) = .ok jwt

/-- What holds between the steps. -/
structure Sound (options : GatewayOptions) (jwtOptions : JwtVerifierOptions)
    (trustedKeys : TrustedKeyring) (s : TokenGateway P) : Prop where
  reachable : (Gateway.machine P options trustedKeys).Reachable s.state
  verifier : s.verifier.Sound P
  timeoutDurationMs : s.verifier.timeoutDurationMs = jwtOptions.timeoutDurationMs.getD 5000
  clockToleranceSeconds :
    s.verifier.clockToleranceSeconds = jwtOptions.clockToleranceSeconds.getD 5
  asked : ∀ question ∈ s.asked, (∃ call, s.Asked question call) ∧ Asks P jwtOptions question
  answered : ∀ index call, s.state.calls[index]? = some call →
    ∀ verification ∈ call.history.verifications, s.Answers index verification

theorem Sound.init (h : (machine P options jwtOptions trustedKeys).init s) :
    Sound options jwtOptions trustedKeys s := by
  obtain ⟨hinit, hnew, hasked, hanswered⟩ := h
  obtain ⟨htimeout, htolerance, _⟩ := JwtVerifier.new_ok hnew
  refine ⟨.init hinit, JwtVerifier.sound_new hnew, htimeout, htolerance, ?_, ?_⟩
  · rw [hasked]
    exact fun _ hmem => nomatch hmem
  · obtain ⟨_, _, heq⟩ := hinit
    rw [heq]
    exact fun _ _ hcall => nomatch hcall

/-- A step of the gateway keeps what the verifier was asked. -/
theorem Asked.keeps (hreachable : (Gateway.machine P options trustedKeys).Reachable s.state)
    {state : GatewayState P} {action : GatewayAction}
    (hstep : Gateway.step trustedKeys s.state action = some state) (hstate : s'.state = state)
    {question : Question} {call : Call} (h : s.Asked question call) :
    ∃ call', s'.Asked question call' := by
  obtain ⟨call', hcall', hevaluates⟩ :=
    Gateway.evaluates_of_step hreachable hstep h.found h.stage
  refine ⟨call', ?_, hevaluates.stage, h.onRoute.keeps hevaluates, ?_⟩
  · rw [hstate]
    exact hcall'
  · rw [h.header, hevaluates.arrival]

theorem Answers.later {index : ℕ} {verification : Verification} (h : s.Answers index verification)
    (hasked : ∀ question ∈ s.asked, question ∈ s'.asked)
    (hanswered : ∀ answer ∈ s.answered, answer ∈ s'.answered) :
    s'.Answers index verification := by
  intro jwt hjwt
  obtain ⟨answer, hmem, call, result, hquestion, hrest⟩ := h jwt hjwt
  exact ⟨answer, hanswered answer hmem, call, result, hasked _ hquestion, hrest⟩

theorem step_gateway {action : GatewayAction} {state : GatewayState P}
    (hother : action.isVerified = false)
    (h : Gateway.step trustedKeys s.state action = some state) :
    step trustedKeys s (.gateway action) = some { s with state } := by
  simp only [step, hother]
  exact Option.bind_eq_some_iff.mpr ⟨state, h, rfl⟩

theorem Sound.gateway (h : Sound options jwtOptions trustedKeys s) {action : GatewayAction}
    (hstep : step trustedKeys s (.gateway action) = some s') :
    Sound options jwtOptions trustedKeys s' := by
  simp only [step] at hstep
  split at hstep
  · cases hstep
  · next hother =>
    obtain ⟨state, hstate, heq⟩ := Option.bind_eq_some_iff.mp hstep
    obtain rfl := Option.some.inj heq
    refine ⟨h.reachable.next hstate, h.verifier, h.timeoutDurationMs, h.clockToleranceSeconds,
      fun question hmem => ?_, fun index call hcall verification hmem => ?_⟩
    · obtain ⟨⟨call, hasked⟩, hasks⟩ := h.asked question hmem
      exact ⟨hasked.keeps h.reachable hstate rfl, hasks⟩
    · rcases Gateway.verifications_of_step h.reachable hstate hcall hmem with
        ⟨before, hbefore, hold⟩ | ⟨rfl, _⟩
      · exact (h.answered index before hbefore verification hold).later (fun _ h => h)
          fun _ h => h
      · exact absurd rfl hother

theorem Sound.ask (h : Sound options jwtOptions trustedKeys s) {index : ℕ}
    (hstep : step trustedKeys s (.ask index) = some s') :
    Sound options jwtOptions trustedKeys s' := by
  obtain ⟨call, hcall, hnext⟩ := Option.bind_eq_some_iff.mp hstep
  obtain ⟨⟨authorization, policy⟩, hawaits, hnext⟩ := Option.bind_eq_some_iff.mp hnext
  dsimp only at hnext
  split at hnext
  · cases hnext
  · cases hverify : s.verifier.verifyAuthorization P authorization policy with
    | mk verifier jwtVerifyCall =>
      rw [hverify] at hnext
      obtain rfl := Option.some.inj hnext
      obtain ⟨hsound, hextends, hasks⟩ := JwtVerifier.verifyAuthorization_spec h.verifier hverify
      have hpassed := callPassed_of_reachable h.reachable call (List.mem_of_getElem? hcall)
      obtain ⟨hstage, honRoute, hheader⟩ := hpassed.onRoute hawaits
      refine ⟨h.reachable, hsound, hextends.timeoutDurationMs.trans h.timeoutDurationMs,
        hextends.clockToleranceSeconds.trans h.clockToleranceSeconds,
        fun question hmem => ?_, fun index call hcall verification hmem => ?_⟩
      · rcases List.mem_append.mp hmem with hold | hnew
        · obtain ⟨⟨call, hasked⟩, hold⟩ := h.asked question hold
          exact ⟨⟨call, hasked.found, hasked.stage, hasked.onRoute, hasked.header⟩, hold⟩
        · obtain rfl := List.mem_singleton.mp hnew
          refine ⟨⟨call, hcall, hstage, honRoute, hheader⟩, fun asked hasked => ?_⟩
          rw [← h.timeoutDurationMs, ← h.clockToleranceSeconds]
          exact hasks asked hasked
      · exact (h.answered index call hcall verification hmem).later
          (fun _ h => List.mem_append_left _ h) fun _ h => h

theorem Sound.answer (h : Sound options jwtOptions trustedKeys s) {index : ℕ}
    {result : Option JwtVerifyResult}
    (hstep : step trustedKeys s (.answer index result) = some s') :
    Sound options jwtOptions trustedKeys s' := by
  obtain ⟨question, hfind, hnext⟩ := Option.bind_eq_some_iff.mp hstep
  obtain ⟨state, hstate, heq⟩ := Option.bind_eq_some_iff.mp hnext
  obtain rfl := Option.some.inj heq
  have hquestion := List.mem_of_find?_eq_some hfind
  have hindex : question.index = index := by simpa using List.find?_some hfind
  generalize haction : GatewayAction.turn index (.verified (JwtVerifier.afterJwtVerify
    (question.call.bind fun _ => result)).toOption) = action at hstate
  refine ⟨h.reachable.next hstate, h.verifier, h.timeoutDurationMs, h.clockToleranceSeconds,
    fun other hmem => ?_, fun other call hcall verification hmem => ?_⟩
  · obtain ⟨⟨call, hasked⟩, hasks⟩ := h.asked other hmem
    exact ⟨hasked.keeps h.reachable hstate rfl, hasks⟩
  · rcases Gateway.verifications_of_step h.reachable hstate hcall hmem with
      ⟨before, hbefore, hold⟩ | ⟨heq, before, hbefore, hawaits⟩
    · exact (h.answered other before hbefore verification hold).later (fun _ h => h)
        fun _ h => List.mem_append_left _ h
    · -- the question is the one of this call, under the policy of its route
      injection haction.trans heq with hsame hturn
      injection hturn with houtcome
      obtain ⟨⟨asking, hasked⟩, _⟩ := h.asked question hquestion
      have hcalls := hasked.found
      rw [hindex, hsame, hbefore] at hcalls
      obtain rfl := Option.some.inj hcalls
      have hpassed := callPassed_of_reachable h.reachable before (List.mem_of_getElem? hbefore)
      obtain ⟨_, honRoute, hheader⟩ := hpassed.onRoute hawaits
      intro jwt hjwt
      rw [← houtcome] at hjwt
      cases hverify : question.call with
      | none =>
        rw [hverify] at hjwt
        cases hjwt
      | some asked =>
        cases result with
        | none =>
          rw [hverify] at hjwt
          cases hjwt
        | some result =>
          rw [hverify] at hjwt
          refine ⟨_, List.mem_append_right _ (List.mem_singleton.mpr rfl), asked, result,
            hquestion, hindex.trans hsame, hasked.header.trans hheader.symm,
            hasked.onRoute.unique honRoute, hverify, ?_, ?_⟩
          · simp only [Option.bind_some]
          · exact congrArg Except.ok (Option.some.inj hjwt)

theorem sound_of_reachable (h : (machine P options jwtOptions trustedKeys).Reachable s) :
    Sound options jwtOptions trustedKeys s := by
  refine h.invariant (fun _ hinit => .init hinit) fun s a s' hsound hstep => ?_
  cases a with
  | gateway action => exact hsound.gateway hstep
  | ask index => exact hsound.ask hstep
  | answer index result => exact hsound.answer hstep

/-- `jwtVerify` has accepted the token of the call's header under the policy. -/
def Accepted (s : TokenGateway P) (jwtOptions : JwtVerifierOptions) (index : ℕ) (call : Call)
    (policy : JwtPolicy) (jwt : VerifiedJwt) : Prop :=
  ∃ answer ∈ s.answered, ∃ header token asked result,
    call.arrival.request.headers.get "authorization" = some header ∧
    BearerToken header token ∧
    JwtVerifier.Asks P (jwtOptions.timeoutDurationMs.getD 5000)
      (jwtOptions.clockToleranceSeconds.getD 5) token policy asked ∧
    answer.question.index = index ∧ answer.question.call = some asked ∧
    answer.result = some result ∧ JwtVerifier.afterJwtVerify (some result) = .ok jwt

theorem Sound.accepted (h : Sound options jwtOptions trustedKeys s) {index : ℕ} {call : Call}
    (hcall : s.state.calls[index]? = some call) {policy : JwtPolicy} {jwt : VerifiedJwt}
    (hmem : { authorization := call.arrival.request.headers.get "authorization", policy,
              outcome := some jwt } ∈ call.history.verifications) :
    s.Accepted jwtOptions index call policy jwt := by
  obtain ⟨answer, hanswer, asked, result, hquestion, hindex, hauthorization, hpolicy, hasked,
    hresult, hjwt⟩ := h.answered index call hcall _ hmem jwt rfl
  obtain ⟨_, hasks⟩ := h.asked _ hquestion
  obtain ⟨header, token, hheader, hbearer, hasks⟩ := hasks asked hasked
  rw [hpolicy] at hasks
  exact ⟨answer, hanswer, header, token, asked, result, hauthorization.symm.trans hheader, hbearer,
    hasks, hindex, hasked, hresult, hjwt⟩

/-- `jwtVerify` is called only for a call that its bundle has resolved to a route with a token
policy, with the token of the call's header, the keys of that policy's URL and its issuer and
audience. What is sent on a route with a token policy was accepted so, and is limited by the
subject of what was accepted. -/
theorem token_routes (h : (machine P options jwtOptions trustedKeys).Reachable s) :
    (∀ question ∈ s.asked, ∀ asked, question.call = some asked → ∃ call header token,
      s.state.calls[question.index]? = some call ∧ call.OnRoute P question.policy ∧
      call.arrival.request.headers.get "authorization" = some header ∧
      BearerToken header token ∧
      JwtVerifier.Asks P (jwtOptions.timeoutDurationMs.getD 5000)
        (jwtOptions.clockToleranceSeconds.getD 5) token question.policy asked) ∧
    ∀ index call, s.state.calls[index]? = some call → ∀ sent ∈ call.history.fetches,
      ∃ bundle route, Mediated P call.arrival call.history.asked bundle route sent ∧
        ∀ policy, route.jwt = some policy → ∃ jwt,
          s.Accepted jwtOptions index call policy jwt ∧
          call.history.asked.WithinLimit call.arrival route (some jwt) := by
  have hsound := sound_of_reachable h
  refine ⟨fun question hmem asked hasked => ?_, fun index call hcall sent hsent => ?_⟩
  · obtain ⟨⟨call, hcall⟩, hasks⟩ := hsound.asked question hmem
    obtain ⟨header, token, hheader, hbearer, hasks⟩ := hasks asked hasked
    exact ⟨call, header, token, hcall.found, hcall.onRoute, hcall.header.symm.trans hheader,
      hbearer, hasks⟩
  · have hpassed := callPassed_of_reachable hsound.reachable call (List.mem_of_getElem? hcall)
    obtain ⟨bundle, route, hmediated⟩ := hpassed.passed.fetched sent hsent
    refine ⟨bundle, route, hmediated, fun policy hpolicy => ?_⟩
    obtain ⟨jwt, hauthenticated, hlimit⟩ := hmediated.controls
    unfold Edge.Asked.Authenticated at hauthenticated
    rw [hpolicy] at hauthenticated
    obtain ⟨verified, rfl, hverifications⟩ := hauthenticated
    refine ⟨verified, hsound.accepted hcall ?_, hlimit⟩
    have hverifications : call.history.verifications = _ := hverifications
    rw [hverifications]
    exact List.mem_singleton.mpr rfl

end TokenGateway

/-! ## A request with a token and one without -/

namespace Orders

open Delivery.Orders

def jwtOptions : JwtVerifierOptions := { timeoutDurationMs := none, clockToleranceSeconds := none }

def jwtVerifier : JwtVerifier where
  timeoutDurationMs := 5000
  clockToleranceSeconds := 5
  resolvers := .empty

theorem jwtVerifier_new : JwtVerifier.new jwtOptions = .ok jwtVerifier := by
  have htimeout : ¬(!isSafeInteger (jwtOptions.timeoutDurationMs.getD 5000) ||
      decide (jwtOptions.timeoutDurationMs.getD 5000 ≤ 0)) = true := by decide +kernel
  have htolerance : ¬jwtOptions.clockToleranceSeconds.getD 5 < 0 := by decide +kernel
  unfold JwtVerifier.new
  dsimp only
  rw [if_neg htimeout, if_neg htolerance]
  rfl

/-- A gateway that has installed the policy. -/
def tokenGateway : TokenGateway platform where
  state := serving
  verifier := jwtVerifier
  asked := []
  answered := []

theorem tokenGateway_reachable :
    (TokenGateway.machine platform options jwtOptions keyring).Reachable tokenGateway := by
  let fresh : TokenGateway platform := { tokenGateway with state := Gateway.initial gateway }
  have hinit : (TokenGateway.machine platform options jwtOptions keyring).init fresh :=
    ⟨⟨gateway, gateway_new, rfl⟩, jwtVerifier_new, rfl, rfl⟩
  have hinstall : Gateway.step keyring fresh.state (.install envelope.toJson) = some serving := by
    unfold serving
    exact Gateway.step_install (verify_signed sign_bundle trusts_key parse_received) _
  have hother : (GatewayAction.install envelope.toJson).isVerified = false := rfl
  have hnext := TokenGateway.step_gateway hother hinstall
  have hstep : (TokenGateway.machine platform options jwtOptions keyring).step fresh
      (.gateway (.install envelope.toJson)) = some tokenGateway := hnext
  exact .step (.init hinit) trivial hstep

def accepted : JwtVerifyResult where
  payload := [("sub", .string "alice")]
  protectedHeader := .object []

/-- One request has a token, the other one has none with three parts. -/
def tokens : List TokenAction :=
  [.gateway (.handle { request "/v1/orders/42" printable_order with
      headers := [("authorization", "bearer \t aa.bb.cc")] } none "request-1" 0),
    .gateway (.handle (request "/v1/orders/42" printable_order) none "request-2" 0),
    .gateway (.turn 1 (.bodyRead body 0)), .gateway (.turn 0 (.bodyRead body 0)),
    .ask 0, .ask 1, .answer 1 (some accepted), .answer 0 (some accepted),
    .gateway (.turn 0 (.checked (some limit))),
    .gateway (.turn 0 (.proceed { performance := 5, date := 1000 })),
    .gateway (.turn 1 (.proceed { performance := 5, date := 1000 }))]

/-- The request with the token is sent, and `jwtVerify` is called for no other. -/
theorem token_routes_orders :
    ∃ s, (TokenGateway.machine platform options jwtOptions keyring).run tokenGateway tokens =
        some s ∧
      s.state.calls.map (·.history.fetches.length) = [1, 0] ∧
      s.asked.map (·.call.isSome) = [true, false] ∧
      ∀ index call, s.state.calls[index]? = some call → ∀ sent ∈ call.history.fetches,
        ∃ bundle route, Mediated platform call.arrival call.history.asked bundle route sent ∧
          ∀ policy, route.jwt = some policy → ∃ jwt,
            s.Accepted jwtOptions index call policy jwt ∧
            call.history.asked.WithinLimit call.arrival route (some jwt) := by
  have hrun : ((TokenGateway.machine platform options jwtOptions keyring).run tokenGateway
      tokens).map (fun s => (s.state.calls.map (·.history.fetches.length),
        s.asked.map (·.call.isSome))) = some ([1, 0], [true, false]) := by
    decide +kernel
  obtain ⟨s, hs, heq⟩ := Option.map_eq_some_iff.mp hrun
  obtain ⟨hfetches, hasked⟩ := Prod.mk.inj heq
  have hreachable := tokenGateway_reachable.of_run tokens hs
  exact ⟨s, hs, hfetches, hasked, (TokenGateway.token_routes hreachable).2⟩

end Orders

end ShieldWard.Edge
