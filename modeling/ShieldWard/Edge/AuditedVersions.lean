import ShieldWard.Edge.LivePolicyTheorems
import ShieldWard.Edge.SettledCalls

/-!
# The versions in the audit log

A record takes its policy version from the evaluator when the call completes. Until then the
evaluations of other calls may make another engine the active one. Where none of them does while
a call is between its evaluation and its end, the record has the version of the bundle whose
engine has evaluated the call.
-/

namespace ShieldWard.Edge

open Ecma Turn

variable {P : Platform}

/-! ## The condition -/

/-- The call is between the start of its evaluation and its end. -/
def CallStage.underway : CallStage → Bool
  | .evaluating _ _ | .decided _ _ | .fetching _ _ => true
  | _ => false

/-- The body of a call has been read, and the evaluation of the call makes the engine of a bundle
of another version the active one. -/
def Switches (s : GatewayState P) (a : GatewayAction) : Prop :=
  ∃ index stream now call body bundle engine, a = .turn index (.bodyRead stream now) ∧
    s.calls[index]? = some call ∧ call.stage = .readingBody ∧
    readRequestBody P call.arrival.request s.gateway.maxRequestBodyBytes stream = .ok body ∧
    s.gateway.configuration = some bundle ∧ PolicyEngine.new P bundle = .ok engine ∧
    s.gateway.policyEvaluator.activeVersion ≠ some bundle.version

/-- The active engine is not switched while a call is underway. -/
def Steady (s : GatewayState P) (a : GatewayAction) : Prop :=
  Switches s a → ∀ call ∈ s.calls, call.stage.underway = false

theorem steady_of_idle {s : GatewayState P} (h : ∀ call ∈ s.calls, call.stage.underway = false)
    (a : GatewayAction) : Steady s a :=
  fun _ => h

/-! ## The invariant of a call -/

/-- The engine of a bundle of the version has evaluated the call. -/
def EvaluatedUnder (P : Platform) (arrival : Arrival) (history : CallHistory)
    (version : Option String) : Prop :=
  ∃ bundle engine body evaluation, history.evaluatedBy = some bundle ∧
    version = some bundle.version ∧ PolicyEngine.new P bundle = .ok engine ∧
    history.body = some body ∧
    engine.evaluate (arrival.policyRequest body) = .ok evaluation

/-- What a stage says about the active version and about those in the records. -/
def NamedStage (P : Platform) (active : Option String) (arrival : Arrival)
    (history : CallHistory) : CallStage → Prop
  | .readingBody | .undecided => history.decision = none
  | .evaluating _ _ | .decided _ _ =>
    history.decision = none ∧ EvaluatedUnder P arrival history active
  | .fetching _ _ => EvaluatedUnder P arrival history active
  | .responded _ | .rejected => history.decision ≠ none → ∀ record ∈ history.records,
    EvaluatedUnder P arrival history record.policyVersion

def Named (P : Platform) (active : Option String) (call : Call) : Prop :=
  NamedStage P active call.arrival call.history call.stage

/-- The active version matters to the calls that are underway only. -/
theorem Named.of_not_underway {active : Option String} {call : Call} (h : Named P active call)
    (hidle : call.stage.underway = false) (active' : Option String) : Named P active' call := by
  unfold Named at h ⊢
  revert h hidle
  cases call.stage with
  | readingBody | undecided | responded | rejected => exact fun h _ => h
  | evaluating | decided | fetching => exact fun _ hidle => by cases hidle

/-! ## Endings -/

/-- What was evaluated under a version is so after an ending. -/
theorem Turn.Keeps.evaluatedUnder {t t' : Turn P} (hkeeps : Keeps t t') {version : Option String}
    (h : EvaluatedUnder P t.call.arrival t.call.history version) :
    EvaluatedUnder P t'.call.arrival t'.call.history version := by
  have ⟨records, measurements, releases, hhistory⟩ := hkeeps.history
  rw [hkeeps.arrival, hhistory]
  exact h

/-- A call ends, and its record names the active version. -/
theorem named_ends {t t' : Turn P} (hrecords : t.call.history.records = [])
    (hnamed : t.call.history.decision ≠ none →
      EvaluatedUnder P t.call.arrival t.call.history t.gateway.policyEvaluator.activeVersion)
    (hkeeps : Keeps t t') (hends : Writes t t' ∨ t' = t.reject) (active : Option String) :
    Named P active t'.call := by
  have hdecision : t'.call.history.decision = t.call.history.decision := by
    have ⟨_, _, _, hhistory⟩ := hkeeps.history
    rw [hhistory]
  unfold Named
  rcases hends with hwrites | hreject
  · have ⟨_, record, _, hstage, hr, _, _, _, _, hversion⟩ := hwrites.written
    rw [hstage]
    intro hdecided other hother
    rw [hr, hrecords, List.nil_append, List.mem_singleton] at hother
    rw [hother, hversion]
    rw [hdecision] at hdecided
    exact hkeeps.evaluatedUnder (hnamed hdecided)
  · have ⟨_, hstage, hr, _⟩ := t.reject_spec
    rw [← hreject] at hstage hr
    rw [hstage]
    intro _ other hother
    rw [hr, hrecords] at hother
    cases hother

/-- An upstream call ends its request. -/
theorem named_endsUpstream {t t' : Turn P} {permit : CircuitBreakerPermit} {now : Number}
    {settlement : UpstreamSettlement} (hblank : Blank t.call.history)
    (hopen : permit.completed = false)
    (hnamed : EvaluatedUnder P t.call.arrival t.call.history
      t.gateway.policyEvaluator.activeVersion)
    (h : EndsUpstream t permit now settlement t') (active : Option String) :
    Named P active t'.call := by
  have heq := afterUpstream_eq hopen hblank.settlement settlement now
  have hrecords : (t.afterUpstream permit settlement now).call.history.records = [] := by
    rw [heq]
    exact hblank.records
  apply named_ends hrecords _ h.keeps
  · exact h.ends.imp_right And.left
  · intro _
    rw [heq]
    exact hnamed

/-! ## Steps -/

/-- The evaluation of a call starts. -/
theorem named_evaluate {t : Turn P} (hconsistent : t.gateway.policyEvaluator.Consistent)
    (hnew : t.call.history.decision = none) (body : BufferedBody) :
    Named P (t.evaluate body).gateway.policyEvaluator.activeVersion (t.evaluate body).call := by
  have ⟨_, _, hstarts⟩ := LivePolicyEvaluator.evaluate_cases hconsistent t.gateway.configuration
    (t.call.arrival.policyRequest body)
  unfold Named evaluate
  simp only
  split
  · exact hnew
  · next evaluation hevaluation =>
    have ⟨_, active, engine, _, _, hengine, hrunning, hevaluate⟩ := hstarts evaluation hevaluation
    rw [hrunning]
    have hunder : ∀ history : CallHistory, history.evaluatedBy = some active →
        history.body = some body →
        EvaluatedUnder P t.call.arrival history (some active.version) :=
      fun history hby hbody =>
        ⟨active, engine, body, evaluation, hby, rfl, hengine, hbody, hevaluate⟩
    unfold evaluated
    split
    · exact ⟨hnew, hunder _ rfl rfl⟩
    · exact hnew
    · exact ⟨hnew, hunder _ rfl rfl⟩

/-- A later await of the evaluation. -/
theorem named_evaluated {active : Option String} {arrival : Arrival} {history : CallHistory}
    (h : history.decision = none ∧ EvaluatedUnder P arrival history active) (body : BufferedBody)
    (evaluation : Evaluation) :
    NamedStage P active arrival history (evaluated body evaluation) := by
  unfold evaluated
  split
  · exact h
  · exact h.1
  · exact h

theorem Named.moves {t t' : Turn P} {a : CallAction}
    (hconsistent : t.gateway.policyEvaluator.Consistent) (horderly : Orderly t.call)
    (h : Named P t.gateway.policyEvaluator.activeVersion t.call) (hmoves : Moves t a t') :
    Named P t'.gateway.policyEvaluator.activeVersion t'.call := by
  have hstanding := h
  unfold Named at hstanding
  cases hmoves with
  | @evaluates _ _ body hstage =>
    rw [hstage] at hstanding
    exact named_evaluate hconsistent hstanding body
  | verified hstage | checked hstage =>
    rw [hstage] at hstanding
    exact named_evaluated hstanding _ _
  | ends hprepares hkeeps hends =>
    have ⟨hblank, _⟩ := horderly.prepares hprepares
    apply named_ends hblank.records _ hkeeps (hends.imp_right And.left)
    cases hprepares with
    | reading hstage | undecided hstage =>
      rw [hstage] at hstanding
      exact fun hdecided => absurd hstanding hdecided
    | decided hstage | refused hstage =>
      rw [hstage] at hstanding
      exact fun _ => hstanding.2
  | sends hstage =>
    rw [hstage] at hstanding
    exact hstanding.2
  | @unsendable _ body decision route circuitBreaker permit now settlement t' hstage hroute hacquire
      hends =>
    rw [hstage] at hstanding
    have ⟨hblank, _⟩ := horderly.grant hstage (.allowed decision) circuitBreaker route.upstream
      permit
    exact named_endsUpstream hblank (UpstreamCircuitBreaker.acquire_permit hacquire).2
      hstanding.2 hends _
  | @fetched _ route permit outcome now hstage =>
    unfold Orderly at horderly
    rw [hstage] at hstanding horderly
    have ⟨hblank, hopen, _⟩ := horderly
    have ⟨settlement, hends⟩ := afterFetch_spec hopen hblank.settlement route outcome now
    exact named_endsUpstream hblank hopen hstanding hends _
  | aborted => exact h
  | streams =>
    show NamedStage P _ _ _ t.call.stage
    revert hstanding
    cases t.call.stage <;> exact fun h => h

/-- The evaluator and the configuration, and what the call has kept of them, are as before. -/
structure Turn.SameEvaluation (t t' : Turn P) : Prop where
  configuration : t'.gateway.configuration = t.gateway.configuration
  policyEvaluator : t'.gateway.policyEvaluator = t.gateway.policyEvaluator
  snapshot : t'.call.history.snapshot = t.call.history.snapshot
  evaluatedBy : t'.call.history.evaluatedBy = t.call.history.evaluatedBy

theorem Turn.Keeps.sameEvaluation {t t' : Turn P} (h : Keeps t t') : SameEvaluation t t' := by
  have ⟨_, _, _, hhistory⟩ := h.history
  refine ⟨h.configuration, h.policyEvaluator, ?_, ?_⟩
  · rw [hhistory]
  · rw [hhistory]

theorem Turn.EndsUpstream.sameEvaluation {t t' : Turn P} {permit : CircuitBreakerPermit}
    {now : Number} {settlement : UpstreamSettlement}
    (h : EndsUpstream t permit now settlement t') : SameEvaluation t t' :=
  have hkeeps := h.keeps.sameEvaluation
  ⟨hkeeps.configuration, hkeeps.policyEvaluator, hkeeps.snapshot, hkeeps.evaluatedBy⟩

/-- Only the start of an evaluation touches the evaluator. -/
theorem Turn.Moves.sameEvaluation {t t' : Turn P} {a : CallAction} (horderly : Orderly t.call)
    (hmoves : Moves t a t') :
    SameEvaluation t t' ∨
      ∃ stream now body, a = .bodyRead stream now ∧ t.call.stage = .readingBody ∧
        readRequestBody P t.call.arrival.request t.gateway.maxRequestBodyBytes stream =
          .ok body ∧ t' = t.evaluate body := by
  cases hmoves with
  | @evaluates stream now body hstage hread =>
    exact .inr ⟨stream, now, body, rfl, hstage, hread, rfl⟩
  | verified | checked | sends | aborted | streams => exact .inl ⟨rfl, rfl, rfl, rfl⟩
  | ends hprepares hkeeps =>
    have hsame := hkeeps.sameEvaluation
    left
    cases hprepares <;>
      exact ⟨hsame.configuration, hsame.policyEvaluator, hsame.snapshot, hsame.evaluatedBy⟩
  | unsendable _ _ _ hends =>
    have hsame := hends.sameEvaluation
    exact .inl ⟨hsame.configuration, hsame.policyEvaluator, hsame.snapshot, hsame.evaluatedBy⟩
  | @fetched _ route permit outcome now hstage =>
    have ⟨settlement, hends⟩ := horderly.afterFetch hstage outcome now
    exact .inl hends.sameEvaluation

/-! ## Runs -/

section

variable {options : GatewayOptions} {trustedKeys : TrustedKeyring} {s : GatewayState P}

/-- The evaluator, and what the calls have recorded. -/
structure NamedCalls (s : GatewayState P) : Prop where
  consistent : s.gateway.policyEvaluator.Consistent
  calls : ∀ call ∈ s.calls, Named P s.gateway.policyEvaluator.activeVersion call

theorem NamedCalls.arrives (h : NamedCalls s) {arrival : Arrival} {t : Turn P}
    (harrives : Arrives s.gateway arrival t) :
    NamedCalls { s with gateway := t.gateway, calls := s.calls ++ [t.call] } := by
  have hevaluator : t.gateway.policyEvaluator = s.gateway.policyEvaluator := by
    cases harrives with
    | admitted => rfl
    | turnedAway _ _ hkeeps _ => exact hkeeps.policyEvaluator
  refine ⟨hevaluator ▸ h.consistent, fun call hcall => ?_⟩
  show Named P t.gateway.policyEvaluator.activeVersion call
  rcases List.mem_append.mp hcall with hmem | hmem
  · rw [hevaluator]
    exact h.calls call hmem
  · rw [List.mem_singleton.mp hmem]
    cases harrives with
    | admitted _ hstage hnew =>
      unfold Named
      rw [hstage, hnew]
      rfl
    | turnedAway _ hnew hkeeps hends =>
      apply named_ends _ _ hkeeps (hends.imp_right And.left)
      · rw [hnew]
        rfl
      · rw [hnew]
        exact fun hdecided => absurd rfl hdecided

theorem NamedCalls.moves (h : NamedCalls s) (horderly : ∀ call ∈ s.calls, Orderly call)
    {index : ℕ} {action : CallAction} {call : Call} {t : Turn P}
    (hsteady : Steady s (.turn index action)) (hcall : s.calls[index]? = some call)
    (hmoves : Moves { gateway := s.gateway, call } action t) :
    NamedCalls { s with gateway := t.gateway, calls := s.calls.set index t.call } := by
  have hmem := List.mem_of_getElem? hcall
  have hmoved := (h.calls call hmem).moves h.consistent (horderly call hmem) hmoves
  rcases hmoves.sameEvaluation (horderly call hmem) with
    ⟨_, hsame, _, _⟩ | ⟨stream, now, body, haction, hstage, hread, heq⟩
  · refine ⟨hsame ▸ h.consistent, fun other hother => ?_⟩
    show Named P t.gateway.policyEvaluator.activeVersion other
    rcases List.mem_or_eq_of_mem_set hother with hold | hnew
    · rw [hsame]
      exact h.calls other hold
    · rw [hnew]
      exact hmoved
  · have ⟨hconsistent, hversion, _⟩ := LivePolicyEvaluator.evaluate_cases h.consistent
      s.gateway.configuration (call.arrival.policyRequest body)
    rw [heq] at hmoved ⊢
    refine ⟨hconsistent, fun other hother => ?_⟩
    show Named P (evaluate _ body).gateway.policyEvaluator.activeVersion other
    rcases List.mem_or_eq_of_mem_set hother with hold | hnew
    · rcases hversion with hkept | ⟨bundle, engine, hbundle, hengine, hother⟩
      · exact hkept ▸ h.calls other hold
      · -- The active engine is switched, and then the others are not underway.
        have hidle := hsteady ⟨index, stream, now, call, body, bundle, engine,
          congrArg _ haction, hcall, hstage, hread, hbundle, hengine, hother⟩ other hold
        exact (h.calls other hold).of_not_underway hidle _
    · rw [hnew]
      exact hmoved

theorem namedCalls_of_reachable
    (h : (Gateway.machine P options trustedKeys).ReachableBy Steady s) : NamedCalls s := by
  induction h with
  | @init s hinit =>
    have ⟨gateway, hnew, heq⟩ := hinit
    rw [heq]
    refine ⟨.inl (Gateway.new_ok hnew).policyEvaluator, fun call hcall => ?_⟩
    cases hcall
  | step hreachable hsteady hstep ih =>
    cases Gateway.steps_of_step hstep with
    | arrives harrives => exact ih.arrives harrives
    | moves hcall hmoves =>
      exact ih.moves (orderly_of_reachable hreachable) hsteady hcall hmoves
    | gate => exact ⟨ih.consistent, ih.calls⟩
    | installs => exact ⟨ih.consistent, ih.calls⟩

/-- Where the active engine is not switched while a call is underway, each record about a call
with a decision has the version of the bundle whose engine has evaluated the call. -/
theorem records_name_evaluator
    (h : (Gateway.machine P options trustedKeys).ReachableBy Steady s) :
    ∀ call ∈ s.calls, call.history.decision ≠ none → ∀ record ∈ call.history.records,
      EvaluatedUnder P call.arrival call.history record.policyVersion := by
  intro call hcall hdecided record hrecord
  have hnamed := (namedCalls_of_reachable h).calls call hcall
  have horderly := orderly_of_reachable h call hcall
  unfold Named at hnamed
  unfold Orderly at horderly
  revert hnamed horderly
  -- A call that has not settled has no records.
  have hnone : Blank call.history → EvaluatedUnder P call.arrival call.history
      record.policyVersion := by
    intro hblank
    rw [hblank.records] at hrecord
    cases hrecord
  cases call.stage with
  | responded response => exact fun hnamed _ => hnamed hdecided record hrecord
  | rejected => exact fun hnamed _ => hnamed hdecided record hrecord
  | readingBody | evaluating | decided | undecided | fetching =>
    exact fun _ horderly => hnone horderly.1

end

/-! ## A switch between the decision and the record -/

namespace Orders

open Delivery.Orders

/-- What the records of a call name, and the bundle whose engine has evaluated it. -/
def names (call : Call) : Bool × Option String × List (Option String) :=
  (call.history.decision.isSome, call.history.evaluatedBy.map (·.version),
    call.history.records.map (·.policyVersion))

/-- What the edge reads of the revised policy. -/
def revisedReceived : SignedBundleEnvelope :=
  { received with
    bundle := { received.bundle with policyName := "orders-api-v2", version := revised.version }
    signature := revisedEnvelope.signature }

theorem parse_revised :
    parseBundleEnvelope platform revisedEnvelope.toJson = .ok revisedReceived := by
  decide +kernel

/-- While a request awaits its upstream, another policy is installed and evaluates the next
request. -/
def overtaking : List GatewayAction :=
  [.handle (request "/health" (printable_of_all (by decide))) none "request-2" 0,
    .turn 1 (.bodyRead body 0)] ++ answering

theorem record_names_other :
    ¬∀ s, (Gateway.machine platform options keyring).Reachable s → ∀ call ∈ s.calls,
      call.history.decision ≠ none → ∀ record ∈ call.history.records,
        EvaluatedUnder platform call.arrival call.history record.policyVersion := by
  let M := Gateway.machine platform options keyring
  have hruns : ((M.run serving (sending 0 1000)).bind fun s => (M.run { s with
      gateway := { s.gateway with configuration := some revisedReceived.bundle }
      installed := s.installed ++ [revisedReceived.bundle] } overtaking).map
        fun s => s.calls.head?.map names) =
      some (some (true, some bundle.version, [some revised.version])) := by
    decide +kernel
  have ⟨before, hbefore, hrest⟩ := Option.bind_eq_some_iff.mp hruns
  have ⟨s, hs, hnames⟩ := Option.map_eq_some_iff.mp hrest
  have hverified := verify_signed sign_revised trusts_key parse_revised
  have hinstalled := Gateway.reachable_install hverified trivial
    (serving_reachable.of_run _ hbefore)
  have hreachable : M.Reachable s := hinstalled.of_run _ (fun _ _ _ => trivial) hs
  have ⟨call, hhead, heq⟩ := Option.map_eq_some_iff.mp hnames
  intro h
  have hdecided : call.history.decision ≠ none := by
    have hsome : call.history.decision.isSome = true := congrArg (·.1) heq
    exact Option.isSome_iff_ne_none.mp hsome
  have hversions : call.history.records.map (·.policyVersion) = [some revised.version] :=
    congrArg (·.2.2) heq
  have ⟨record, hrecords, hversion⟩ := List.map_eq_singleton_iff.mp hversions
  have ⟨evaluated, _, _, _, hby, hnamed, _⟩ := h s hreachable call
    (List.mem_of_mem_head? hhead) hdecided record (hrecords ▸ List.mem_singleton.mpr rfl)
  have hevaluated : call.history.evaluatedBy.map (·.version) = some bundle.version :=
    congrArg (·.2.1) heq
  rw [hby, Option.map_some, ← hnamed, hversion] at hevaluated
  exact absurd hevaluated (by decide +kernel)

/-- The steps that do not start an evaluation. -/
def startsNone : GatewayAction → Bool
  | .turn _ (.bodyRead _ _) => false
  | _ => true

theorem steady_of_startsNone {a : GatewayAction} (h : startsNone a = true)
    (s : GatewayState platform) : Steady s a := by
  intro ⟨_, _, _, _, _, _, _, haction, _⟩
  rw [haction] at h
  cases h

/-- The step starts no evaluation, no call is underway, or the engine of the installed bundle is
the active one. -/
def Keeps (s : GatewayState platform) (a : GatewayAction) : Prop :=
  startsNone a = true ∨ s.calls.all (fun call => !call.stage.underway) = true ∨
    s.gateway.configuration.map (·.version) = s.gateway.policyEvaluator.activeVersion

instance (s : GatewayState platform) (a : GatewayAction) : Decidable (Keeps s a) :=
  inferInstanceAs (Decidable (_ ∨ _ ∨ _))

theorem steady_of_keeps (s : GatewayState platform) (a : GatewayAction) (h : Keeps s a) :
    Steady s a := by
  rcases h with hnone | hidle | hactive
  · exact steady_of_startsNone hnone s
  · refine steady_of_idle (fun call hcall => ?_) a
    simpa using List.all_eq_true.mp hidle call hcall
  · intro ⟨_, _, _, _, _, bundle, _, _, _, _, _, hbundle, _, hdiffers⟩
    rw [hbundle] at hactive
    exact absurd hactive.symm hdiffers

/-- Two requests are underway at the same time. -/
def beside : List GatewayAction :=
  (sending 0 1000).take 2 ++
    [.handle (request "/health" (printable_of_all (by decide))) none "request-2" 0,
      .turn 1 (.bodyRead body 0)] ++
    (sending 0 1000).drop 2 ++ answering ++ [.turn 1 (.proceed { performance := 7, date := 1002 })]

/-- The next request is evaluated and answered. -/
def following : List GatewayAction :=
  sending 2 1000 ++
    [.turn 2 (.fetched (.response upstreamResponse) { performance := 6, date := 1001 })]

/-- Two requests are answered under one policy, and after them one under the next policy. -/
theorem records_name_evaluator_orders :
    ∃ s, (Gateway.machine platform options keyring).ReachableBy Steady s ∧
      s.calls.map names = [(true, some bundle.version, [some bundle.version]),
        (true, some bundle.version, [some bundle.version]),
        (true, some revised.version, [some revised.version])] ∧
      ∀ call ∈ s.calls, call.history.decision ≠ none → ∀ record ∈ call.history.records,
        EvaluatedUnder platform call.arrival call.history record.policyVersion := by
  let M := Gateway.machine platform options keyring
  have hruns : ((M.runBy Keeps serving beside).bind fun s => (M.runBy Keeps { s with
      gateway := { s.gateway with configuration := some revisedReceived.bundle }
      installed := s.installed ++ [revisedReceived.bundle] } following).map
        fun s => s.calls.map names) =
      some [(true, some bundle.version, [some bundle.version]),
        (true, some bundle.version, [some bundle.version]),
        (true, some revised.version, [some revised.version])] := by
    decide +kernel
  have ⟨before, hbefore, hrest⟩ := Option.bind_eq_some_iff.mp hruns
  have ⟨s, hs, hnames⟩ := Option.map_eq_some_iff.mp hrest
  have hbeside : M.ReachableBy Keeps before :=
    .of_runBy _ (serving_reachableBy fun _ _ => .inl rfl) hbefore
  have hverified := verify_signed sign_revised trusts_key parse_revised
  have hinstalled := Gateway.reachable_install hverified (.inl rfl) hbeside
  have hkeeps : M.ReachableBy Keeps s := .of_runBy _ hinstalled hs
  have hreachable : M.ReachableBy Steady s := hkeeps.mono steady_of_keeps
  exact ⟨s, hreachable, hnames, records_name_evaluator hreachable⟩

end Orders

end ShieldWard.Edge
