import ShieldWard.Edge.Mediation
import ShieldWard.Edge.RateLimitSwitching

/-!
# The quota of a fleet

Gateways that share a limiter. When an evaluation gets to its limit the gateway calls the limiter;
the limiter may charge that call at any time after that, also when the gateway has given up, and an
answer of the limiter that the gateway takes is one that it has given. What reaches an upstream keeps
to the quota, over all gateways together.
-/

namespace ShieldWard.Edge

open Ecma
open FixedWindowRateLimiter (Entry InWindow)

/-! ## Limiters -/

/-- A limiter by how it moves its live buckets. -/
structure QuotaStore where
  State : Type
  /-- What the clock of the limiter tells. -/
  Time : Type
  nowMs : Time → Number
  keyOf : FixedWindowRateLimiter.Call → String
  check : State → Time → String → String → RateLimitPolicy →
    State × Except RateLimiterError RateLimitResult
  view : State → Number → View
  initial : State → Prop
  /-- What holds between the calls, at the time of the last one. -/
  Sound : State → Number → Prop
  /-- The times of every window are exact. -/
  Fits : Time → Prop
  sound_initial : ∀ {state}, initial state → Sound state 0 ∧ view state 0 = fun _ => none
  nonneg : ∀ time, 0 ≤ nowMs time
  later : ∀ {state t now}, Sound state t → t ≤ now →
    view state now = fun key => liveBucket (view state t key) now
  charges : ∀ {state t} time routeId identity policy, Sound state t → t ≤ nowMs time →
    Fits time → Sound (check state time routeId identity policy).1 (nowMs time) ∧
      Charges (view state (nowMs time))
        (view (check state time routeId identity policy).1 (nowMs time))
        (keyOf ⟨nowMs time, routeId, identity, policy⟩) ⟨nowMs time, routeId, identity, policy⟩
        (check state time routeId identity policy).2

/-- The limiter in the memory of one gateway. Its clock never tells a time before 1970. -/
def FixedWindowRateLimiter.quotaStore : QuotaStore where
  State := FixedWindowRateLimiter
  Time := { now : Number // 0 ≤ now }
  nowMs now := now.1
  keyOf := FixedWindowRateLimiter.keyOf
  check limiter now := limiter.check now.1
  view limiter t key := liveBucket (limiter.buckets.get key) t
  initial limiter := ∃ maxBuckets, FixedWindowRateLimiter.create maxBuckets = .ok limiter
  Sound _ _ := True
  Fits _ := True
  sound_initial := by
    rintro limiter ⟨maxBuckets, hnew⟩
    refine ⟨trivial, ?_⟩
    unfold FixedWindowRateLimiter.create at hnew
    split at hnew <;> cases hnew
    rfl
  nonneg now := now.2
  later := by
    intro limiter t now _ ht
    funext key
    exact (liveBucket_liveBucket ht).symm
  charges := by
    intro limiter _ now routeId identity policy _ _ _
    exact ⟨trivial, limiter.check_charges ⟨now.1, routeId, identity, policy⟩⟩

/-- A window that is a safe integer ends below the largest one as long as the time is not beyond
half of it. -/
theorem RedisFixedWindowRateLimiter.representable_of_le {c : TimedCall}
    (h : 2 * c.time.nowMs ≤ maxSafeInteger) : Representable c := by
  intro window hparse hsafe
  have hpos := FixedWindowRateLimiter.parseDurationMilliseconds_pos hparse
  unfold windowEnd
  by_cases hshort : c.time.nowMs < window
  · have hzero : ⌊c.time.nowMs / window⌋ = 0 := by
      obtain ⟨n, hn⟩ := nowMs_nat c.time
      apply Int.floor_eq_zero_iff.mpr
      refine ⟨div_nonneg ?_ hpos.le, (div_lt_one hpos).mpr hshort⟩
      rw [hn]
      exact Nat.cast_nonneg n
    have hnum := num_of_isSafeInteger hsafe
    simp only [isSafeInteger, Bool.and_eq_true, decide_eq_true_eq] at hsafe
    have hle : (window.num : ℚ) ≤ maxSafeInteger := by exact_mod_cast hsafe.2
    rw [hzero, Int.cast_zero, zero_mul, zero_add, ← hnum]
    exact hle
  · have hbegun := (FixedWindowRateLimiter.inWindow_floor c.time.nowMs hpos).1
    calc (⌊c.time.nowMs / window⌋ : ℚ) * window + window ≤ c.time.nowMs + c.time.nowMs :=
          add_le_add hbegun (not_lt.mp hshort)
      _ = 2 * c.time.nowMs := (two_mul _).symm
      _ ≤ maxSafeInteger := h

/-- The limiter whose buckets are on a server. -/
def RedisFixedWindowRateLimiter.quotaStore (limiter : RedisFixedWindowRateLimiter) :
    QuotaStore where
  State := RedisServer
  Time := RedisTime
  nowMs := RedisTime.nowMs
  keyOf := limiter.keyOf
  check := limiter.check
  view server t key := liveHash server key t
  initial server := server = .empty
  Sound := Aligned
  Fits time := 2 * time.nowMs ≤ maxSafeInteger
  sound_initial := by
    rintro server rfl
    exact ⟨fun _ _ h => (by cases h), rfl⟩
  nonneg time := by
    obtain ⟨n, hn⟩ := nowMs_nat time
    rw [hn]
    exact Nat.cast_nonneg n
  later := by
    intro server t now haligned ht
    funext key
    rw [liveHash_eq haligned, liveHash_eq haligned, liveBucket_liveBucket ht]
  charges := by
    intro server t time routeId identity policy haligned ht hfits
    apply limiter.check_charges (c := ⟨time, routeId, identity, policy⟩) haligned ht
    exact representable_of_le hfits

/-! ## The fleet -/

/-- What a call awaits of the limiter. -/
def Call.awaitsLimiter (call : Call) : Option (String × String × RateLimitPolicy) :=
  match call.stage with
  | .evaluating _ (.checkingRateLimit route _ _ identity policy) =>
    some (route.id, identity, policy)
  | _ => none

/-- What a call asks the limiter, or has asked. -/
def Call.asks (call : Call) : Option (String × String × RateLimitPolicy) :=
  match call.stage with
  | .evaluating _ (.checkingRateLimit route _ _ identity policy) =>
    some (route.id, identity, policy)
  | _ => call.history.checks.head?.map fun check => (check.routeId, check.identity, check.policy)

/-- A call by its gateway and its place there. -/
abbrev Place := ℕ × ℕ

/-- A call of the limiter that it has not executed yet. -/
structure PendingCheck where
  place : Place
  routeId : String
  identity : String
  policy : RateLimitPolicy

structure Fleet (P : Platform) (Q : QuotaStore) where
  gateways : List (GatewayState P)
  store : Q.State
  pending : List PendingCheck
  /-- The time of the last charge. -/
  clock : Number
  /-- The calls that the limiter has charged, and what it has answered. -/
  charged : List (Place × Entry)

inductive FleetAction (Q : QuotaStore)
  | gateway (edge : ℕ) (action : GatewayAction)
  /-- The limiter executes one of the calls that wait for it. -/
  | charge (index : ℕ) (time : Q.Time)

namespace Fleet

variable {P : Platform} {Q : QuotaStore}

def call? (s : Fleet P Q) (place : Place) : Option Call :=
  s.gateways[place.1]?.bind fun gateway => gateway.calls[place.2]?

/-- The limiter has given the call this answer. A call of the limiter may also fail. -/
def answers (s : Fleet P Q) (place : Place) : Option RateLimitResult → Bool
  | none => true
  | some result => s.charged.any fun charge =>
      charge.1 = place && match charge.2.2 with
        | .ok answer => answer = result
        | .error _ => false

/-- What a gateway takes for an answer of the limiter is one. -/
def truthful (s : Fleet P Q) (edge : ℕ) : GatewayAction → Bool
  | .turn index (.checked outcome) => s.answers (edge, index) outcome
  | _ => true

/-- The call of the limiter that an action makes: an evaluation has got to its limit. -/
def calls (edge : ℕ) (before after : GatewayState P) : GatewayAction → List PendingCheck
  | .turn index _ =>
    match before.calls[index]?.bind Call.awaitsLimiter,
        after.calls[index]?.bind Call.awaitsLimiter with
    | none, some (routeId, identity, policy) =>
      [{ place := (edge, index), routeId, identity, policy }]
    | _, _ => []
  | _ => []

/-- The limiter executes a call. -/
def charge (s : Fleet P Q) (index : ℕ) (check : PendingCheck) (time : Q.Time) : Fleet P Q :=
  let (store, result) := Q.check s.store time check.routeId check.identity check.policy
  { s with
    store
    pending := s.pending.eraseIdx index
    clock := Q.nowMs time
    charged := s.charged ++
      [(check.place, ⟨Q.nowMs time, check.routeId, check.identity, check.policy⟩, result)] }

def step (trustedKeys : TrustedKeyring) (s : Fleet P Q) : FleetAction Q → Option (Fleet P Q)
  | .gateway edge action => do
    let gateway ← s.gateways[edge]?
    if s.truthful edge action then
      let gateway' ← Gateway.step trustedKeys gateway action
      some { s with
        gateways := s.gateways.set edge gateway'
        pending := s.pending ++ calls edge gateway gateway' action }
    else none
  | .charge index time => do
    let check ← s.pending[index]?
    some (s.charge index check time)

/-- Any number of gateways with one limiter. -/
def machine (P : Platform) (Q : QuotaStore) (options : GatewayOptions)
    (trustedKeys : TrustedKeyring) : System.Machine (Fleet P Q) (FleetAction Q) where
  init s := (∀ gateway ∈ s.gateways, (Gateway.machine P options trustedKeys).init gateway) ∧
    Q.initial s.store ∧ s.pending = [] ∧ s.clock = 0 ∧ s.charged = []
  step := step trustedKeys

/-- The clock of the limiter does not go back, and tells a time at which windows are exact. -/
def Fits (s : Fleet P Q) : FleetAction Q → Prop
  | .charge _ time => s.clock ≤ Q.nowMs time ∧ Q.Fits time
  | .gateway _ _ => True

/-- The calls charged for a key under a policy in a window that have reached an upstream. -/
def forwardedUnder (s : Fleet P Q) (key : String) (limit w : Number) (k : ℤ) : ℕ :=
  s.charged.countP fun charge => servedUnder Q.keyOf key limit w k charge.2 &&
    (s.call? charge.1).any fun call => !call.history.fetches.isEmpty

end Fleet

/-! ## What a call asks -/

section

variable {P : Platform}

theorem Call.asks_of_checking {call : Call} {body : BufferedBody} {route : CompiledRoute}
    {wafMatches : List WafRuleMatch} {jwt : Option VerifiedJwt} {identity : String}
    {policy : RateLimitPolicy}
    (hstage : call.stage = .evaluating body
      (.checkingRateLimit route wafMatches jwt identity policy)) :
    call.asks = some (route.id, identity, policy) := by
  unfold Call.asks
  rw [hstage]

/-- What a call awaits it asks. -/
theorem Call.asks_of_awaits {call : Call} {asked : String × String × RateLimitPolicy}
    (h : call.awaitsLimiter = some asked) : call.asks = some asked := by
  unfold Call.awaitsLimiter at h
  split at h
  · next hstage =>
    rw [Call.asks_of_checking hstage]
    exact h
  · cases h

/-- A call that awaits nothing of the limiter and has had no answer has not asked. -/
theorem Call.asks_eq_none {call : Call} (hawaits : call.awaitsLimiter = none)
    (hchecks : call.history.checks = []) : call.asks = none := by
  unfold Call.awaitsLimiter at hawaits
  unfold Call.asks
  split at hawaits
  · cases hawaits
  · rw [hchecks]
    rfl

/-- A call that has passed everything before the limiter, and awaits it, has had no answer. -/
theorem CallPassed.checks_of_awaits {call : Call} (hpassed : CallPassed P call)
    {asked : String × String × RateLimitPolicy} (h : call.awaitsLimiter = some asked) :
    call.history.checks = [] := by
  have hstage := hpassed.stage
  unfold Call.awaitsLimiter at h
  split at h
  · next heq =>
    rw [heq] at hstage
    exact hstage.2.1
  · cases h

/-- Only the answer of the limiter changes what has been checked, and a call that awaits it
stays where it is meanwhile. -/
theorem Turn.Moves.checks {t t' : Turn P} {a : CallAction} (horderly : Orderly t.call)
    (h : Moves t a t') :
    (t'.call.history.checks = t.call.history.checks ∧
      ∀ body route wafMatches jwt identity policy, t.call.stage = .evaluating body
        (.checkingRateLimit route wafMatches jwt identity policy) →
        t'.call.stage = t.call.stage) ∨
      ∃ body route wafMatches jwt identity policy outcome, t.call.stage = .evaluating body
        (.checkingRateLimit route wafMatches jwt identity policy) ∧
        t' = t.afterCheck body route wafMatches jwt identity policy outcome := by
  have helse : ∀ {stage : CallStage}, t.call.stage = stage →
      (∀ body route wafMatches jwt identity policy, stage ≠ .evaluating body
        (.checkingRateLimit route wafMatches jwt identity policy)) →
      ∀ body route wafMatches jwt identity policy, t.call.stage = .evaluating body
        (.checkingRateLimit route wafMatches jwt identity policy) →
        t'.call.stage = t.call.stage := by
    intro stage hstage hne body route wafMatches jwt identity policy heq
    exact absurd (hstage.symm.trans heq) (hne _ _ _ _ _ _)
  have hasked : t'.call.history.asked = t.call.history.asked →
      t'.call.history.checks = t.call.history.checks := congrArg Asked.checks
  cases h with
  | evaluates hstage => exact .inl ⟨rfl, helse hstage fun _ _ _ _ _ _ h => nomatch h⟩
  | verified hstage => exact .inl ⟨rfl, helse hstage fun _ _ _ _ _ _ h => nomatch h⟩
  | checked hstage => exact .inr ⟨_, _, _, _, _, _, _, hstage, rfl⟩
  | ends hprepares hkeeps =>
    have hsame := congrArg Asked.checks hkeeps.asked
    cases hprepares with
    | reading hstage => exact .inl ⟨hsame, helse hstage fun _ _ _ _ _ _ h => nomatch h⟩
    | undecided hstage => exact .inl ⟨hsame, helse hstage fun _ _ _ _ _ _ h => nomatch h⟩
    | decided hstage => exact .inl ⟨hsame, helse hstage fun _ _ _ _ _ _ h => nomatch h⟩
    | refused hstage => exact .inl ⟨hsame, helse hstage fun _ _ _ _ _ _ h => nomatch h⟩
  | sends hstage => exact .inl ⟨rfl, helse hstage fun _ _ _ _ _ _ h => nomatch h⟩
  | unsendable hstage _ _ hends =>
    exact .inl ⟨congrArg Asked.checks hends.keeps.asked,
      helse hstage fun _ _ _ _ _ _ h => nomatch h⟩
  | @fetched _ route permit outcome now hstage =>
    obtain ⟨settlement, hends⟩ := horderly.afterFetch hstage outcome now
    exact .inl ⟨congrArg Asked.checks hends.keeps.asked,
      helse hstage fun _ _ _ _ _ _ h => nomatch h⟩
  | aborted => exact .inl ⟨rfl, fun _ _ _ _ _ _ _ => rfl⟩
  | streams => exact .inl ⟨rfl, fun _ _ _ _ _ _ _ => rfl⟩

/-- A call whose evaluation awaits an answer goes on with that answer, and with no other step. -/
theorem Turn.evaluating_of_step {t t' : Turn P} {a : CallAction} (h : t.step a = some t')
    {body : BufferedBody} {evaluation : Evaluation}
    (hstage : t.call.stage = .evaluating body evaluation) :
    t'.call.stage = t.call.stage ∧ t'.call.history.asked = t.call.history.asked ∨
      (∃ route wafMatches authorization policy outcome,
        evaluation = .verifyingJwt route wafMatches authorization policy ∧
        a = .verified outcome ∧
        t' = t.afterVerification body route wafMatches authorization policy outcome) ∨
      ∃ route wafMatches jwt identity policy outcome,
        evaluation = .checkingRateLimit route wafMatches jwt identity policy ∧
        a = .checked outcome ∧
        t' = t.afterCheck body route wafMatches jwt identity policy outcome := by
  cases a with
  | verified outcome =>
    simp only [step, hstage] at h
    split at h
    · next heq =>
      obtain ⟨rfl, rfl⟩ := CallStage.evaluating.inj heq
      exact .inr (.inl ⟨_, _, _, _, _, rfl, rfl, (Option.some.inj h).symm⟩)
    · cases h
  | checked outcome =>
    simp only [step, hstage] at h
    split at h
    · next heq =>
      obtain ⟨rfl, rfl⟩ := CallStage.evaluating.inj heq
      exact .inr (.inr ⟨_, _, _, _, _, _, rfl, rfl, (Option.some.inj h).symm⟩)
    · cases h
  -- these actions need another stage
  | bodyRead | proceed | fetched =>
    simp only [step, hstage] at h
    cases h
  | abort =>
    rw [← Option.some.inj h]
    exact .inl ⟨rfl, rfl⟩
  -- the body of the response is read and canceled beside the evaluation, if at all
  | pull =>
    obtain ⟨wrapped, _, hnext⟩ := Option.bind_eq_some_iff.mp h
    split at hnext
    · rw [← Option.some.inj hnext]
      exact .inl ⟨rfl, rfl⟩
    · cases hnext
  | cancel =>
    obtain ⟨wrapped, _, hnext⟩ := Option.bind_eq_some_iff.mp h
    split at hnext
    · rw [← Option.some.inj hnext]
      exact .inl ⟨rfl, rfl⟩
    · cases hnext
  | pulled outcome =>
    obtain ⟨wrapped, _, hnext⟩ := Option.bind_eq_some_iff.mp h
    obtain ⟨_, _, _, _, _, heq⟩ := t.releaseRequest_eq
    obtain ⟨_, _, _, _, _, hagain⟩ := t.releaseRequest.releaseRequest_eq
    split at hnext
    · rw [← Option.some.inj hnext]
      left
      unfold pulled
      cases outcome with
      | done =>
        simp only
        split
        · rw [heq]
          exact ⟨rfl, rfl⟩
        · rw [hagain, heq]
          exact ⟨rfl, rfl⟩
      | failed =>
        simp only [heq]
        trivial
      | chunk =>
        simp only
        split
        · exact ⟨rfl, rfl⟩
        · rw [heq]
          exact ⟨rfl, rfl⟩
    · cases hnext
  | canceled =>
    obtain ⟨wrapped, _, hnext⟩ := Option.bind_eq_some_iff.mp h
    obtain ⟨_, _, _, _, _, heq⟩ := t.releaseRequest_eq
    split at hnext
    · rw [← Option.some.inj hnext]
      left
      unfold canceled
      simp only [heq]
      trivial
    · cases hnext

/-- A call that awaits the limiter goes on with its answer, and no other step answers it. -/
theorem Turn.checked_of_step {t t' : Turn P} {a : CallAction} (h : t.step a = some t')
    {body : BufferedBody} {route : CompiledRoute} {wafMatches : List WafRuleMatch}
    {jwt : Option VerifiedJwt} {identity : String} {policy : RateLimitPolicy}
    (hstage : t.call.stage = .evaluating body
      (.checkingRateLimit route wafMatches jwt identity policy)) :
    t'.call.stage = t.call.stage ∧ t'.call.history.checks = t.call.history.checks ∨
      ∃ outcome, a = .checked outcome ∧
        t' = t.afterCheck body route wafMatches jwt identity policy outcome := by
  rcases Turn.evaluating_of_step h hstage with ⟨hsame, hasked⟩ | ⟨_, _, _, _, _, heq, _⟩ |
    ⟨_, _, _, _, _, outcome, heq, haction, hnext⟩
  · exact .inl ⟨hsame, congrArg Asked.checks hasked⟩
  · cases heq
  · cases heq
    exact .inr ⟨outcome, haction, hnext⟩

theorem Call.asks_of_checked {call : Call} (hpassed : CallPassed P call) {check : LimiterCheck}
    (h : call.history.checks.head? = some check) :
    call.asks = some (check.routeId, check.identity, check.policy) := by
  have hstage := hpassed.stage
  unfold Call.asks
  split
  · next heq =>
    rw [heq] at hstage
    have hnone : call.history.checks = [] := hstage.2.1
    rw [hnone] at h
    cases h
  · rw [h]
    rfl

/-- A call that asks the limiter has passed everything that comes before it. -/
theorem CallPassed.consulted_of_asks {call : Call} (hpassed : CallPassed P call)
    {routeId identity : String} {policy : RateLimitPolicy}
    (hasks : call.asks = some (routeId, identity, policy)) :
    ∃ bundle route outcome, Consulted P call.arrival call.history.asked bundle route
      { routeId, identity, policy, outcome } := by
  have hstage := hpassed.stage
  unfold Call.asks at hasks
  split at hasks
  · next body route wafMatches jwt identity' policy' heq =>
    rw [heq] at hstage
    obtain ⟨_, _, bundle, hrouted, hauthenticated, hlimit, hidentifies⟩ := hstage
    obtain ⟨rfl, hrest⟩ := Prod.mk.inj (Option.some.inj hasks)
    obtain ⟨rfl, rfl⟩ := Prod.mk.inj hrest
    exact ⟨bundle, route, none, ⟨body, hrouted⟩, ⟨jwt, hauthenticated, hidentifies⟩, rfl, hlimit⟩
  · obtain ⟨check, hcheck, hsame⟩ := Option.map_eq_some_iff.mp hasks
    obtain ⟨rfl, hrest⟩ := Prod.mk.inj hsame
    obtain ⟨rfl, rfl⟩ := Prod.mk.inj hrest
    obtain ⟨bundle, route, hconsulted⟩ :=
      hpassed.passed.consulted check (List.mem_of_head? hcheck)
    exact ⟨bundle, route, check.outcome, hconsulted⟩

/-- What a call has once asked it has asked ever after. -/
theorem asks_of_step {t t' : Turn P} {a : CallAction} (hpassed : CallPassed P t.call)
    (hpassed' : CallPassed P t'.call) (horderly : Orderly t.call) (h : t.step a = some t')
    {asked : String × String × RateLimitPolicy} (hasks : t.call.asks = some asked) :
    t'.call.asks = some asked := by
  have hstage := hpassed.stage
  unfold Call.asks at hasks
  split at hasks
  · next body route wafMatches jwt identity policy heq =>
    rcases Turn.checked_of_step h heq with ⟨hsame, _⟩ | ⟨outcome, _, rfl⟩
    · rw [Call.asks_of_checking (hsame.trans heq), ← hasks]
    · rw [heq] at hstage
      have hnone : t.call.history.checks = [] := hstage.2.1
      rw [← hasks]
      have hcheck : t.call.history.checks ++ [{ routeId := route.id, identity, policy, outcome }] =
          [{ routeId := route.id, identity, policy, outcome }] := by
        rw [hnone]
        rfl
      exact Call.asks_of_checked hpassed' (congrArg List.head? hcheck)
  · next hother =>
    obtain ⟨check, hcheck, hsame⟩ := Option.map_eq_some_iff.mp hasks
    rcases (Turn.moves_of_step h).checks horderly with ⟨hchecks, _⟩ |
      ⟨_, _, _, _, _, _, _, heq, _⟩
    · rw [← hsame]
      apply Call.asks_of_checked hpassed'
      rw [hchecks, hcheck]
    · exact absurd heq (hother _ _ _ _ _ _)

/-- A call that gets to its limit has not asked before. -/
theorem asks_of_entered {t t' : Turn P} {a : CallAction} (horderly : Orderly t.call)
    (hpassed' : CallPassed P t'.call) (h : t.step a = some t')
    (hbefore : t.call.awaitsLimiter = none) {asked : String × String × RateLimitPolicy}
    (hafter : t'.call.awaitsLimiter = some asked) : t.call.asks = none := by
  rcases (Turn.moves_of_step h).checks horderly with ⟨hchecks, _⟩ | ⟨_, _, _, _, _, _, _, heq, _⟩
  · apply Call.asks_eq_none hbefore
    rw [← hchecks]
    exact hpassed'.checks_of_awaits hafter
  · -- only a call that awaits the limiter is answered
    unfold Call.awaitsLimiter at hbefore
    rw [heq] at hbefore
    cases hbefore

/-! ## Steps of a gateway -/

variable {options : GatewayOptions} {trustedKeys : TrustedKeyring} {s s' : GatewayState P}

theorem checks_of_arrives {gateway : Gateway P} {arrival : Arrival} {t : Turn P}
    (h : Arrives gateway arrival t) : t.call.history.checks = [] := by
  cases h with
  | admitted _ _ hnew =>
    rw [hnew]
    rfl
  | turnedAway _ hnew hkeeps =>
    refine (congrArg Asked.checks hkeeps.asked).trans ?_
    show CallHistory.checks _ = []
    rw [hnew]
    rfl

/-- A call of a gateway after a step: it is as before, it is new, or it has gone on. -/
theorem Gateway.call_of_step {a : GatewayAction} (h : Gateway.step trustedKeys s a = some s')
    {index : ℕ} {call' : Call} (hcall' : s'.calls[index]? = some call') :
    s.calls[index]? = some call' ∨
      (s.calls[index]? = none ∧ ∃ arrival t, Arrives s.gateway arrival t ∧ call' = t.call) ∨
      ∃ action call t, a = .turn index action ∧ s.calls[index]? = some call ∧
        Turn.step { gateway := s.gateway, call } action = some t ∧ call' = t.call := by
  cases a with
  | handle request clientIp requestId now =>
    have hnew := Gateway.arrives_handle s.gateway request clientIp requestId now s.drained
    rw [← Option.some.inj h] at hcall'
    rw [List.getElem?_append] at hcall'
    split at hcall'
    · exact .inl hcall'
    · next hindex =>
      have hmem := List.mem_of_getElem? hcall'
      rw [List.mem_singleton.mp hmem]
      exact .inr (.inl ⟨List.getElem?_eq_none (not_lt.mp hindex), _, _, hnew, rfl⟩)
  | turn i action =>
    obtain ⟨call, hcall, hnext⟩ := Option.bind_eq_some_iff.mp h
    obtain ⟨t, ht, heq⟩ := Option.bind_eq_some_iff.mp hnext
    rw [← Option.some.inj heq] at hcall'
    by_cases hindex : i = index
    · subst hindex
      have hlt := (List.getElem?_eq_some_iff.mp hcall).1
      rw [List.getElem?_set_self hlt] at hcall'
      exact .inr (.inr ⟨action, call, t, rfl, hcall, ht, (Option.some.inj hcall').symm⟩)
    · rw [List.getElem?_set_ne hindex] at hcall'
      exact .inl hcall'
  | beginDrain =>
    rw [← Option.some.inj h] at hcall'
    exact .inl hcall'
  | waitForIdle =>
    rw [← Option.some.inj h] at hcall'
    exact .inl hcall'
  | install value =>
    simp only [Gateway.step] at h
    split at h
    · cases h
    · rw [← Option.some.inj h] at hcall'
      exact .inl hcall'

/-- Calls do not go away. -/
theorem Gateway.length_of_step {a : GatewayAction} (h : Gateway.step trustedKeys s a = some s') :
    s.calls.length ≤ s'.calls.length := by
  cases Gateway.steps_of_step h with
  | arrives => simp
  | moves => simp
  | gate => exact le_refl _
  | installs => exact le_refl _

/-- A call after a step of its gateway still asks what it has asked before. -/
theorem Gateway.asks_of_step {a : GatewayAction}
    (hreachable : (Gateway.machine P options trustedKeys).Reachable s)
    (h : Gateway.step trustedKeys s a = some s') {index : ℕ} {call : Call}
    (hcall : s.calls[index]? = some call) {asked : String × String × RateLimitPolicy}
    (hasks : call.asks = some asked) :
    ∃ call', s'.calls[index]? = some call' ∧ call'.asks = some asked := by
  have hlt := (List.getElem?_eq_some_iff.mp hcall).1
  have hget := List.getElem?_eq_getElem (hlt.trans_le (Gateway.length_of_step h))
  refine ⟨_, hget, ?_⟩
  rcases Gateway.call_of_step h hget with hsame | ⟨hnone, _⟩ |
    ⟨action, before, t, _, hbefore, ht, heq⟩
  · rw [hcall] at hsame
    rw [← Option.some.inj hsame]
    exact hasks
  · rw [hcall] at hnone
    cases hnone
  · rw [hcall] at hbefore
    have hsame : before = call := (Option.some.inj hbefore).symm
    have hmem := List.mem_of_getElem? hcall
    have hpassed' := callPassed_of_reachable (hreachable.next h) _ (List.mem_of_getElem? hget)
    rw [heq] at hpassed' ⊢
    rw [hsame] at ht
    exact ShieldWard.Edge.asks_of_step (callPassed_of_reachable hreachable call hmem) hpassed'
      (orderly_of_reachable hreachable call hmem) ht hasks

/-- The limiter is called for a call that has not asked before, and that asks from then on. -/
theorem Gateway.calls_of_step {a : GatewayAction}
    (hreachable : (Gateway.machine P options trustedKeys).Reachable s)
    (h : Gateway.step trustedKeys s a = some s') (edge : ℕ) {check : PendingCheck}
    (hmem : check ∈ Fleet.calls edge s s' a) :
    ∃ index call call', check.place = (edge, index) ∧ s.calls[index]? = some call ∧
      call.asks = none ∧ s'.calls[index]? = some call' ∧
      call'.asks = some (check.routeId, check.identity, check.policy) := by
  unfold Fleet.calls at hmem
  split at hmem
  · next index action =>
    split at hmem
    · next hbefore hafter =>
      rw [List.mem_singleton.mp hmem]
      obtain ⟨call', hcall', hawaits⟩ := Option.bind_eq_some_iff.mp hafter
      obtain ⟨call, hcall, hnext⟩ := Option.bind_eq_some_iff.mp h
      obtain ⟨t, ht, heq⟩ := Option.bind_eq_some_iff.mp hnext
      have hnone : call.awaitsLimiter = none := by
        rw [hcall] at hbefore
        exact hbefore
      have hlt := (List.getElem?_eq_some_iff.mp hcall).1
      have hsame : t.call = call' := by
        rw [← Option.some.inj heq, List.getElem?_set_self hlt] at hcall'
        exact Option.some.inj hcall'
      have hstep : (Gateway.machine P options trustedKeys).step s (.turn index action) = some s' := h
      have hpassed' := callPassed_of_reachable (hreachable.next hstep) call'
        (List.mem_of_getElem? hcall')
      rw [← hsame] at hpassed' hawaits
      refine ⟨index, call, call', rfl, hcall, ?_, hcall', ?_⟩
      · exact asks_of_entered (orderly_of_reachable hreachable call (List.mem_of_getElem? hcall))
          hpassed' ht hnone hawaits
      · rw [← hsame]
        exact Call.asks_of_awaits hawaits
    · cases hmem
  · cases hmem

/-- An action calls the limiter once at most. -/
theorem Fleet.nodup_calls (edge : ℕ) (before after : GatewayState P) (a : GatewayAction) :
    ((Fleet.calls edge before after a).map (·.place)).Nodup := by
  unfold Fleet.calls
  split
  · split
    · exact List.nodup_singleton _
    · exact List.nodup_nil
  · exact List.nodup_nil

/-- What a call has checked it had checked before, or the limiter has just answered. -/
theorem Gateway.checks_of_step {a : GatewayAction}
    (hreachable : (Gateway.machine P options trustedKeys).Reachable s)
    (h : Gateway.step trustedKeys s a = some s') {index : ℕ} {call' : Call}
    (hcall' : s'.calls[index]? = some call') {check : LimiterCheck}
    (hcheck : check ∈ call'.history.checks) :
    (∃ call, s.calls[index]? = some call ∧ check ∈ call.history.checks) ∨
      a = .turn index (.checked check.outcome) := by
  rcases Gateway.call_of_step h hcall' with hsame | ⟨_, arrival, t, harrives, rfl⟩ |
    ⟨action, call, t, rfl, hcall, ht, rfl⟩
  · exact .inl ⟨call', hsame, hcheck⟩
  · rw [checks_of_arrives harrives] at hcheck
    cases hcheck
  · have horderly := orderly_of_reachable hreachable call (List.mem_of_getElem? hcall)
    rcases (Turn.moves_of_step ht).checks horderly with ⟨hchecks, _⟩ |
      ⟨body, route, wafMatches, jwt, identity, policy, _, hstage, _⟩
    · rw [hchecks] at hcheck
      exact .inl ⟨call, hcall, hcheck⟩
    · rcases Turn.checked_of_step ht hstage with ⟨_, hchecks⟩ | ⟨outcome, rfl, rfl⟩
      · rw [hchecks] at hcheck
        exact .inl ⟨call, hcall, hcheck⟩
      · rcases List.mem_append.mp hcheck with hcheck | hcheck
        · exact .inl ⟨call, hcall, hcheck⟩
        · rw [List.mem_singleton.mp hcheck]
          exact .inr rfl

end

/-! ## Steps of the fleet -/

namespace Fleet

variable {P : Platform} {Q : QuotaStore} {options : GatewayOptions} {trustedKeys : TrustedKeyring}
  {s s' : Fleet P Q}

theorem call?_eq_some {place : Place} {call : Call} (h : s.call? place = some call) :
    ∃ gateway, s.gateways[place.1]? = some gateway ∧ gateway.calls[place.2]? = some call :=
  Option.bind_eq_some_iff.mp h

/-- The places of the calls of the limiter, those that wait for it and those that it has executed. -/
def places (s : Fleet P Q) : List Place := s.pending.map (·.place) ++ s.charged.map Prod.fst

/-- The calls of the limiter are of calls that have asked, each at most once; the answers that the
gateways have taken are among them, and the limiter has made their history. -/
structure Charged (options : GatewayOptions) (trustedKeys : TrustedKeyring) (s : Fleet P Q) :
    Prop where
  gateways : ∀ gateway ∈ s.gateways, (Gateway.machine P options trustedKeys).Reachable gateway
  once : s.places.Nodup
  waiting : ∀ check ∈ s.pending, ∃ call, s.call? check.place = some call ∧
    call.asks = some (check.routeId, check.identity, check.policy)
  asked : ∀ place c result, (place, c, result) ∈ s.charged →
    ∃ call, s.call? place = some call ∧ call.asks = some (c.routeId, c.identity, c.policy)
  answered : ∀ place call, s.call? place = some call → ∀ check ∈ call.history.checks,
    ∀ result, check.outcome = some result → ∃ c, (place, c, .ok result) ∈ s.charged
  sound : Q.Sound s.store s.clock
  traced : Traced Q.keyOf s.clock (Q.view s.store s.clock) (s.charged.map Prod.snd)

theorem step_gateway {edge : ℕ} {action : GatewayAction} {gateway gateway' : GatewayState P}
    (hgateway : s.gateways[edge]? = some gateway) (htruthful : s.truthful edge action = true)
    (hstep : Gateway.step trustedKeys gateway action = some gateway') :
    step trustedKeys s (.gateway edge action) = some { s with
      gateways := s.gateways.set edge gateway'
      pending := s.pending ++ calls edge gateway gateway' action } := by
  simp only [step, hgateway, Option.bind_eq_bind, Option.bind_some, htruthful, if_true, hstep]

theorem Charged.init (h : (machine P Q options trustedKeys).init s) :
    Charged options trustedKeys s := by
  obtain ⟨hgateways, hstore, hpending, hclock, hcharged⟩ := h
  obtain ⟨hsound, hview⟩ := Q.sound_initial hstore
  refine ⟨fun gateway hgateway => .init (hgateways gateway hgateway), ?_, ?_, ?_, ?_, ?_, ?_⟩
  · unfold places
    rw [hpending, hcharged]
    exact List.nodup_nil
  · rw [hpending]
    intro check hmem
    cases hmem
  · rw [hcharged]
    intro place c result hmem
    cases hmem
  · intro place call hcall
    obtain ⟨gateway, hgateway, hcall⟩ := call?_eq_some hcall
    obtain ⟨_, _, heq⟩ := hgateways gateway (List.mem_of_getElem? hgateway)
    rw [heq] at hcall
    cases hcall
  · rw [hclock]
    exact hsound
  · rw [hclock, hview, hcharged]
    exact .nil 0

theorem answers_some {place : Place} {result : RateLimitResult}
    (h : s.answers place (some result) = true) : ∃ c, (place, c, .ok result) ∈ s.charged := by
  obtain ⟨⟨place', c, answer⟩, hmem, hsame⟩ := List.any_eq_true.mp h
  cases answer with
  | error error => simp at hsame
  | ok answer =>
    simp only [Bool.and_eq_true, decide_eq_true_eq] at hsame
    obtain ⟨rfl, rfl⟩ := hsame
    exact ⟨c, hmem⟩

/-- A step of a gateway leaves what calls have asked. -/
theorem asks_of_gateway {edge : ℕ} {action : GatewayAction} {gateway gateway' : GatewayState P}
    (hreachable : (Gateway.machine P options trustedKeys).Reachable gateway)
    (hgateway : s.gateways[edge]? = some gateway)
    (hstep : Gateway.step trustedKeys gateway action = some gateway') {place : Place} {call : Call}
    (hcall : s.call? place = some call) {asked : String × String × RateLimitPolicy}
    (hasks : call.asks = some asked) (pending : List PendingCheck) :
    ∃ call', call? { s with gateways := s.gateways.set edge gateway', pending } place = some call' ∧
      call'.asks = some asked := by
  have hlt := (List.getElem?_eq_some_iff.mp hgateway).1
  obtain ⟨before, hbefore, hcall⟩ := call?_eq_some hcall
  by_cases hedge : edge = place.1
  · rw [hedge] at hgateway hlt
    rw [hbefore] at hgateway
    rw [← Option.some.inj hgateway] at hstep hreachable
    obtain ⟨call', hcall', hasks'⟩ := Gateway.asks_of_step hreachable hstep hcall hasks
    refine ⟨call', ?_, hasks'⟩
    unfold call?
    rw [hedge, List.getElem?_set_self hlt]
    exact hcall'
  · refine ⟨call, ?_, hasks⟩
    unfold call?
    rw [List.getElem?_set_ne hedge, hbefore]
    exact hcall

/-- A call of the limiter is of a call that has asked. -/
theorem Charged.of_mem_places (h : Charged options trustedKeys s) {place : Place}
    (hmem : place ∈ s.places) :
    ∃ call asked, s.call? place = some call ∧ call.asks = some asked := by
  rcases List.mem_append.mp hmem with hmem | hmem
  · obtain ⟨check, hcheck, rfl⟩ := List.mem_map.mp hmem
    obtain ⟨call, hcall, hasks⟩ := h.waiting check hcheck
    exact ⟨call, _, hcall, hasks⟩
  · obtain ⟨⟨place, c, result⟩, hcharge, rfl⟩ := List.mem_map.mp hmem
    obtain ⟨call, hcall, hasks⟩ := h.asked place c result hcharge
    exact ⟨call, _, hcall, hasks⟩

/-- No call calls the limiter again. -/
theorem Charged.once_gateway (h : Charged options trustedKeys s) {edge : ℕ} {action : GatewayAction}
    {gateway gateway' : GatewayState P} (hgateway : s.gateways[edge]? = some gateway)
    (hstep : Gateway.step trustedKeys gateway action = some gateway') :
    places { s with
      gateways := s.gateways.set edge gateway'
      pending := s.pending ++ calls edge gateway gateway' action }|>.Nodup := by
  have hreachable := h.gateways gateway (List.mem_of_getElem? hgateway)
  have hperm : (places { s with
      gateways := s.gateways.set edge gateway'
      pending := s.pending ++ calls edge gateway gateway' action }).Perm
      ((calls edge gateway gateway' action).map (·.place) ++ s.places) := by
    unfold places
    rw [List.map_append, ← List.append_assoc]
    exact List.perm_append_comm.append_right _
  rw [hperm.nodup_iff]
  apply List.Nodup.append (nodup_calls edge gateway gateway' action) h.once
  · intro place hnew hold
    obtain ⟨check, hcheck, rfl⟩ := List.mem_map.mp hnew
    obtain ⟨index, call, _, hplace, hcall, hnone, _⟩ :=
      Gateway.calls_of_step hreachable hstep edge hcheck
    obtain ⟨asking, asked, hasking, hasks⟩ := h.of_mem_places hold
    have hfound : s.call? check.place = some call := by
      unfold call?
      rw [hplace, hgateway]
      exact hcall
    rw [hfound] at hasking
    rw [← Option.some.inj hasking, hnone] at hasks
    cases hasks

theorem Charged.gateway (h : Charged options trustedKeys s) {edge : ℕ} {action : GatewayAction}
    {gateway gateway' : GatewayState P} (hgateway : s.gateways[edge]? = some gateway)
    (htruthful : s.truthful edge action = true)
    (hstep : Gateway.step trustedKeys gateway action = some gateway') :
    Charged options trustedKeys { s with
      gateways := s.gateways.set edge gateway'
      pending := s.pending ++ calls edge gateway gateway' action } := by
  have hreachable := h.gateways gateway (List.mem_of_getElem? hgateway)
  have hlt := (List.getElem?_eq_some_iff.mp hgateway).1
  refine ⟨?_, h.once_gateway hgateway hstep, ?_, ?_, ?_, h.sound, h.traced⟩
  · intro other hother
    rcases List.mem_or_eq_of_mem_set hother with hother | rfl
    · exact h.gateways other hother
    · exact hreachable.next hstep
  · intro check hcheck
    rcases List.mem_append.mp hcheck with hcheck | hcheck
    · obtain ⟨call, hcall, hasks⟩ := h.waiting check hcheck
      exact asks_of_gateway hreachable hgateway hstep hcall hasks _
    -- a call of the limiter that this step has made
    · obtain ⟨index, _, call', hplace, _, _, hcall', hasks⟩ :=
        Gateway.calls_of_step hreachable hstep edge hcheck
      refine ⟨call', ?_, hasks⟩
      unfold call?
      rw [hplace, List.getElem?_set_self hlt]
      exact hcall'
  · intro place c result hmem
    obtain ⟨call, hcall, hasks⟩ := h.asked place c result hmem
    exact asks_of_gateway hreachable hgateway hstep hcall hasks _
  · intro place call' hcall' check hcheck result hresult
    obtain ⟨after, hafter, hcall'⟩ := call?_eq_some hcall'
    by_cases hedge : edge = place.1
    · rw [hedge] at hafter hgateway hlt
      rw [List.getElem?_set_self hlt] at hafter
      rw [← Option.some.inj hafter] at hcall'
      rcases Gateway.checks_of_step hreachable hstep hcall' hcheck with ⟨call, hcall, hbefore⟩ | rfl
      · refine h.answered place call ?_ check hbefore result hresult
        unfold call?
        rw [hgateway]
        exact hcall
      -- the answer that arrives is one that the limiter has given
      · rw [hresult, hedge] at htruthful
        exact answers_some htruthful
    · rw [List.getElem?_set_ne hedge] at hafter
      refine h.answered place call' ?_ check hcheck result hresult
      unfold call?
      rw [hafter]
      exact hcall'

/-- A call of the limiter that is executed waits no more. -/
theorem perm_places_charge {index : ℕ} {check : PendingCheck}
    (hcheck : s.pending[index]? = some check) (time : Q.Time) :
    (s.charge index check time).places.Perm s.places := by
  obtain ⟨hlt, hget⟩ := List.getElem?_eq_some_iff.mp hcheck
  have herase : (check :: s.pending.eraseIdx index).Perm s.pending := by
    rw [← hget]
    exact List.getElem_cons_eraseIdx_perm hlt
  calc (s.charge index check time).places
      = (s.pending.eraseIdx index).map (·.place) ++ (s.charged.map Prod.fst ++ [check.place]) := by
        unfold places charge
        rw [List.map_append]
        rfl
    _ = ((s.pending.eraseIdx index).map (·.place) ++ s.charged.map Prod.fst) ++ [check.place] :=
        (List.append_assoc _ _ _).symm
    List.Perm _ (check.place ::
        ((s.pending.eraseIdx index).map (·.place) ++ s.charged.map Prod.fst)) :=
        List.perm_append_singleton _ _
    _ = (check :: s.pending.eraseIdx index).map (·.place) ++ s.charged.map Prod.fst := rfl
    List.Perm _ s.places := (herase.map _).append_right _

theorem Charged.charge (h : Charged options trustedKeys s) {index : ℕ} {check : PendingCheck}
    (hcheck : s.pending[index]? = some check) {time : Q.Time} (hclock : s.clock ≤ Q.nowMs time)
    (hfits : Q.Fits time) : Charged options trustedKeys (s.charge index check time) := by
  obtain ⟨place, routeId, identity, policy⟩ := check
  obtain ⟨hsound, hcharges⟩ := Q.charges time routeId identity policy h.sound hclock hfits
  rw [Q.later h.sound hclock] at hcharges
  obtain ⟨call, hcall, hasks⟩ := h.waiting _ (List.mem_of_getElem? hcheck)
  have hcharged : (s.charge index ⟨place, routeId, identity, policy⟩ time).charged = s.charged ++
      [(place, ⟨Q.nowMs time, routeId, identity, policy⟩,
        (Q.check s.store time routeId identity policy).2)] := rfl
  refine ⟨h.gateways, (perm_places_charge hcheck time).nodup_iff.mpr h.once, ?_, ?_, ?_, hsound, ?_⟩
  · intro other hother
    exact h.waiting other (List.mem_of_mem_eraseIdx hother)
  · intro other c result hmem
    rw [hcharged] at hmem
    rcases List.mem_append.mp hmem with hmem | hmem
    · exact h.asked other c result hmem
    · have heq := List.mem_singleton.mp hmem
      have hplace : other = place := congrArg Prod.fst heq
      have hc : c = ⟨Q.nowMs time, routeId, identity, policy⟩ := congrArg (fun e => e.2.1) heq
      rw [hplace, hc]
      exact ⟨call, hcall, hasks⟩
  · intro other call' hcall' check hcheck result hresult
    obtain ⟨c, hmem⟩ := h.answered other call' hcall' check hcheck result hresult
    rw [hcharged]
    exact ⟨c, List.mem_append_left _ hmem⟩
  · rw [hcharged, List.map_append]
    exact Traced.snoc (c := ⟨Q.nowMs time, routeId, identity, policy⟩) h.traced hclock hcharges

theorem charged_of_reachable (h : (machine P Q options trustedKeys).ReachableBy Fits s) :
    Charged options trustedKeys s := by
  refine h.invariant (I := Charged options trustedKeys) (fun s => Charged.init) ?_
  intro s action s' hI hok hstep
  cases action with
  | gateway edge action =>
    obtain ⟨gateway, hgateway, hnext⟩ := Option.bind_eq_some_iff.mp hstep
    split at hnext
    · next htruthful =>
      obtain ⟨gateway', hgateway', heq⟩ := Option.bind_eq_some_iff.mp hnext
      rw [← Option.some.inj heq]
      exact hI.gateway hgateway htruthful hgateway'
    · cases hnext
  | charge index time =>
    obtain ⟨check, hcheck, hnext⟩ := Option.bind_eq_some_iff.mp hstep
    rw [← Option.some.inj hnext]
    exact hI.charge hcheck hok.1 hok.2

/-! ## What reaches an upstream -/

theorem Charged.passed (h : Charged options trustedKeys s) {place : Place} {call : Call}
    (hcall : s.call? place = some call) : CallPassed P call := by
  obtain ⟨gateway, hgateway, hget⟩ := call?_eq_some hcall
  exact callPassed_of_reachable (h.gateways gateway (List.mem_of_getElem? hgateway)) call
    (List.mem_of_getElem? hget)

/-- A call that has been sent and was charged was allowed. -/
theorem Charged.admitted (h : Charged options trustedKeys s) {place : Place} {entry : Entry}
    (hmem : (place, entry) ∈ s.charged) {call : Call} (hcall : s.call? place = some call)
    (hsent : call.history.fetches ≠ []) :
    FixedWindowRateLimiter.admitted entry.2 = true := by
  have hpassed := h.passed hcall
  obtain ⟨sent, hfetch⟩ := List.exists_mem_of_ne_nil _ hsent
  obtain ⟨bundle, route, hmediated⟩ := hpassed.passed.fetched sent hfetch
  obtain ⟨jwt, _, hlimit⟩ := hmediated.controls
  obtain ⟨c, result⟩ := entry
  obtain ⟨asking, hasking, hasks⟩ := h.asked place c result hmem
  rw [hcall] at hasking
  rw [← Option.some.inj hasking] at hasks
  cases hroute : route.rateLimit with
  | none =>
    -- such a call has not asked
    simp only [Asked.WithinLimit, hroute] at hlimit
    have hnone : call.history.checks = [] := hlimit
    have hstage := hpassed.stage
    unfold Call.asks at hasks
    split at hasks
    · next heq =>
      rw [heq] at hstage
      exact absurd hstage.1.2 hsent
    · rw [hnone] at hasks
      cases hasks
  | some policy =>
    simp only [Asked.WithinLimit, hroute] at hlimit
    obtain ⟨identity, answer, _, hallowed, hchecks⟩ := hlimit
    have hcheck : (⟨route.id, identity, policy, some answer⟩ : LimiterCheck) ∈
        call.history.checks := by
      show _ ∈ call.history.asked.checks
      rw [hchecks]
      exact List.mem_singleton.mpr rfl
    obtain ⟨c', hmem'⟩ := h.answered place call hcall _ hcheck answer rfl
    have hsame := List.inj_on_of_nodup_map (List.Nodup.of_append_right h.once) hmem hmem' rfl
    have hresult : result = .ok answer := congrArg (fun e => e.2.2) hsame
    rw [hresult]
    exact hallowed

/-- **Quota of a fleet.** Over all gateways that share a limiter whose clock never goes back, in every
order of their requests, charges, failures, policy changes and late charges: a call calls the limiter
once at most, and so is charged once at most, for a route and
a limit of the bundle that has evaluated it, and only after it has passed the firewall and the
verifier; a request that was sent although its route has a limit was charged and allowed; and the
requests sent for a key under a policy in a window are no more than its limit allows. -/
theorem forwarded_within_quota (h : (machine P Q options trustedKeys).ReachableBy Fits s) :
    s.places.Nodup ∧
    (∀ place c result, (place, c, result) ∈ s.charged → ∃ call bundle route outcome,
      s.call? place = some call ∧ Consulted P call.arrival call.history.asked bundle route
        { routeId := c.routeId, identity := c.identity, policy := c.policy, outcome }) ∧
    (∀ place call, s.call? place = some call → ∀ sent ∈ call.history.fetches, ∃ bundle route,
      Mediated P call.arrival call.history.asked bundle route sent ∧
      ∀ policy, route.rateLimit = some policy → ∃ c result,
        (place, c, .ok result) ∈ s.charged ∧ result.allowed = true ∧ c.routeId = route.id ∧
          c.policy = policy) ∧
    ∀ key limit w k, (s.forwardedUnder key limit w k : ℚ) ≤
      limit * (stretches Q.keyOf (s.charged.map Prod.snd) key limit w k).2 := by
  have hcharged := charged_of_reachable h
  refine ⟨hcharged.once, ?_, ?_, ?_⟩
  · intro place c result hmem
    obtain ⟨call, hcall, hasks⟩ := hcharged.asked place c result hmem
    obtain ⟨bundle, route, outcome, hconsulted⟩ :=
      (hcharged.passed hcall).consulted_of_asks hasks
    exact ⟨call, bundle, route, outcome, hcall, hconsulted⟩
  -- what is sent has passed the limit of its route, so its check was charged and allowed
  · intro place call hcall sent hsent
    obtain ⟨bundle, route, hmediated⟩ := (hcharged.passed hcall).passed.fetched sent hsent
    refine ⟨bundle, route, hmediated, ?_⟩
    intro policy hpolicy
    obtain ⟨jwt, _, hlimit⟩ := hmediated.controls
    simp only [Asked.WithinLimit, hpolicy] at hlimit
    obtain ⟨identity, answer, _, hallowed, hchecks⟩ := hlimit
    have hcheck : call.history.checks = [⟨route.id, identity, policy, some answer⟩] := hchecks
    obtain ⟨c, hmem⟩ := hcharged.answered place call hcall _
      (hcheck ▸ List.mem_singleton.mpr rfl) answer rfl
    obtain ⟨asking, hasking, hasks⟩ := hcharged.asked place c _ hmem
    rw [hcall] at hasking
    rw [← Option.some.inj hasking, Call.asks_of_checked (hcharged.passed hcall)
      (congrArg List.head? hcheck)] at hasks
    obtain ⟨hroute, hrest⟩ := Prod.mk.inj (Option.some.inj hasks)
    exact ⟨c, answer, hmem, hallowed, hroute.symm, (Prod.mk.inj hrest).2.symm⟩
  · intro key limit w k
    -- every call that was forwarded was allowed by its own charge
    have hle : s.forwardedUnder key limit w k ≤
        allowedUnder Q.keyOf (s.charged.map Prod.snd) key limit w k := by
      unfold forwardedUnder allowedUnder
      rw [List.countP_map]
      apply List.countP_mono_left
      intro charge hmem hcounted
      obtain ⟨hserved, hforwarded⟩ := Bool.and_eq_true_iff.mp hcounted
      apply Bool.and_eq_true_iff.mpr
      cases hcall : s.call? charge.1 with
      | none =>
        rw [hcall] at hforwarded
        cases hforwarded
      | some call =>
        rw [hcall] at hforwarded
        exact ⟨hserved, hcharged.admitted hmem hcall (by simpa using hforwarded)⟩
    calc (s.forwardedUnder key limit w k : ℚ)
        ≤ (allowedUnder Q.keyOf (s.charged.map Prod.snd) key limit w k : ℚ) := by exact_mod_cast hle
      _ ≤ _ := hcharged.traced.quota key limit w k

end Fleet

/-! ## Two gateways with a server -/

namespace Orders

open Delivery.Orders

abbrev shared : QuotaStore := RedisFixedWindowRateLimiter.Orders.distributed.quotaStore

/-- Two gateways that have installed the policy. -/
def pair : Fleet platform shared where
  gateways := [serving, serving]
  store := .empty
  pending := []
  clock := 0
  charged := []

/-- A request up to the limiter. -/
def asking : List GatewayAction :=
  [.handle (request "/v1/orders/42" printable_order) none "request-1" 0,
    .turn 0 (.bodyRead body 0), .turn 0 (.verified (some jwt))]

/-- Both gateways ask the limiter for the same client, and the server charges the second first. -/
def sharing : List (FleetAction shared) :=
  asking.map (.gateway 0) ++ asking.map (.gateway 1) ++
  [.charge 1 ⟨0, 0⟩, .charge 0 ⟨1, 500000⟩,
    .gateway 0 (.turn 0 (.checked (some { limit with remaining := 98, retryAfterSeconds := 59 }))),
    .gateway 1 (.turn 0 (.checked (some limit))),
    .gateway 0 (.turn 0 (.proceed { performance := 5, date := 1600 })),
    .gateway 1 (.turn 0 (.proceed { performance := 5, date := 1600 }))]

instance (s : Fleet platform shared) : (a : FleetAction shared) → Decidable (Fleet.Fits s a)
  | .charge _ time => inferInstanceAs
      (Decidable (s.clock ≤ RedisTime.nowMs time ∧ 2 * RedisTime.nowMs time ≤ maxSafeInteger))
  | .gateway _ _ => inferInstanceAs (Decidable True)

/-- A gateway of the fleet installs the policy. -/
theorem step_install (s : Fleet platform shared) {edge : ℕ} {g : GatewayState platform}
    (h : s.gateways[edge]? = some g) :
    let installed : GatewayState platform := { g with
      gateway := { g.gateway with configuration := some received.bundle }
      installed := g.installed ++ [received.bundle] }
    Fleet.step keyring s (.gateway edge (.install envelope.toJson)) =
      some { s with gateways := s.gateways.set edge installed } := by
  have hinstall := Gateway.step_install (verify_signed sign_bundle trusts_key parse_received) g
  have hstep := Fleet.step_gateway h rfl hinstall
  have hnone : s.pending ++ ([] : List PendingCheck) = s.pending := List.append_nil _
  intro installed
  calc Fleet.step keyring s (.gateway edge (.install envelope.toJson))
      = some { s with
          gateways := s.gateways.set edge installed, pending := s.pending ++ [] } := hstep
    _ = some { s with gateways := s.gateways.set edge installed } := by rw [hnone]

theorem pair_reachable :
    (Fleet.machine platform shared options keyring).ReachableBy Fleet.Fits pair := by
  let fresh : Fleet platform shared :=
    { pair with gateways := [Gateway.initial gateway, Gateway.initial gateway] }
  let first : Fleet platform shared :=
    { pair with gateways := [serving, Gateway.initial gateway] }
  have hinit : (Fleet.machine platform shared options keyring).init fresh := by
    refine ⟨?_, rfl, rfl, rfl, rfl⟩
    intro g hg
    rcases List.mem_pair.mp hg with rfl | rfl
    · exact ⟨gateway, gateway_new, rfl⟩
    · exact ⟨gateway, gateway_new, rfl⟩
  have hfirst : (Fleet.machine platform shared options keyring).step fresh
      (.gateway 0 (.install envelope.toJson)) = some first :=
    step_install fresh (rfl : fresh.gateways[0]? = some (Gateway.initial gateway))
  have hsecond : (Fleet.machine platform shared options keyring).step first
      (.gateway 1 (.install envelope.toJson)) = some pair :=
    step_install first (rfl : first.gateways[1]? = some (Gateway.initial gateway))
  have hfits : ∀ s : Fleet platform shared, ∀ edge action,
      Fleet.Fits s (.gateway edge action) := fun _ _ _ => trivial
  have hreachable := System.Machine.ReachableBy.step (.init hinit) (hfits _ _ _) hfirst
  exact .step hreachable (hfits _ _ _) hsecond

/-- Both requests are sent: they are the only ones of the client in the first minute. -/
theorem forwarded_within_quota_sharing :
    ∃ s, (Fleet.machine platform shared options keyring).runBy Fleet.Fits pair sharing = some s ∧
      s.forwardedUnder "shieldward:rate-limit:v1:" 100 60000 0 = 2 ∧
      ∀ key limit w k, (s.forwardedUnder key limit w k : ℚ) ≤
        limit * (stretches shared.keyOf (s.charged.map Prod.snd) key limit w k).2 := by
  have hrun : ((Fleet.machine platform shared options keyring).runBy Fleet.Fits pair sharing).map
      (·.forwardedUnder "shieldward:rate-limit:v1:" 100 60000 0) = some 2 := by
    decide +kernel
  obtain ⟨s, hs, hforwarded⟩ := Option.map_eq_some_iff.mp hrun
  have hreachable := pair_reachable.of_runBy sharing hs
  exact ⟨s, hs, hforwarded, (Fleet.forwarded_within_quota hreachable).2.2.2⟩

end Orders

end ShieldWard.Edge
