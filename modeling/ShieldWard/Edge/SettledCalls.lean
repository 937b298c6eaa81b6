import ShieldWard.Delivery.Signed
import ShieldWard.Edge.TurnTheorems

/-!
# What is left of a settled call

A call that has settled has one record and one metric about its response, or none when `handle`
has thrown, and the permit that it was granted has been completed once, by how the upstream
call went. Every step of the call keeps this, and no other step touches it.
-/

namespace ShieldWard.Edge

open Ecma Turn

variable {P : Platform}

/-! ## The invariant of a call -/

/-- One record and one metric, with the outcome and the status of the response. -/
def Recorded (history : CallHistory) (response : ClientResponse) : Prop :=
  ∃ record measurement, history.records = [record] ∧ history.measurements = [measurement] ∧
    record.outcome = measurement.outcome ∧ record.status = measurement.status ∧
    record.status = response.status

/-- Nothing was written: the upstream call failed after the client had aborted, or the request
ID is not a header value. -/
def Unrecorded (arrival : Arrival) (history : CallHistory) : Prop :=
  history.records = [] ∧ history.measurements = [] ∧
    (history.settlement = some (.failed true) ∨ arrival.hasHeaderId = false)

/-- The permits of a settled call, each completed by how the upstream call went. -/
def PermitsCompleted (history : CallHistory) : Prop :=
  history.permits = [] ∧ history.completions = [] ∨
    ∃ upstream permit settlement, history.permits = [(upstream, permit)] ∧
      history.settlement = some settlement ∧ history.completions = [settlement.completion]

/-- Nothing has been written or completed yet. -/
structure Blank (history : CallHistory) : Prop where
  records : history.records = []
  measurements : history.measurements = []
  settlement : history.settlement = none
  completions : history.completions = []

def OrderlyStage (arrival : Arrival) (history : CallHistory) : CallStage → Prop
  | .responded response => Recorded history response ∧ PermitsCompleted history
  | .rejected => Unrecorded arrival history ∧ PermitsCompleted history
  | .fetching _ permit => Blank history ∧ permit.completed = false ∧
      ∃ upstream, history.permits = [(upstream, permit)]
  | _ => Blank history ∧ history.permits = []

def Orderly (call : Call) : Prop := OrderlyStage call.arrival call.history call.stage

/-! ## Endings -/

/-- A call that ends in a response or an exception. -/
theorem orderly_ends {t t' : Turn P} (hrecords : t.call.history.records = [])
    (hmeasurements : t.call.history.measurements = [])
    (hcompleted : PermitsCompleted t.call.history) (hkeeps : Keeps t t')
    (hends : Writes t t' ∨ t' = t.reject ∧
      (t.call.history.settlement = some (.failed true) ∨ t.call.arrival.hasHeaderId = false)) :
    Orderly t'.call := by
  have ⟨records, measurements, releases, hhistory⟩ := hkeeps.history
  have hpermits : PermitsCompleted t'.call.history := by
    rw [hhistory]
    exact hcompleted
  unfold Orderly
  rcases hends with hwrites | ⟨hreject, hwhy⟩
  · have ⟨response, record, measurement, hstage, hr, hm, hout, hsame, hstatus, _⟩ :=
      hwrites.written
    rw [hrecords] at hr
    rw [hmeasurements] at hm
    rw [hstage]
    exact ⟨⟨record, measurement, hr, hm, hout, hsame, hstatus⟩, hpermits⟩
  · have ⟨_, hstage, hr, hm⟩ := t.reject_spec
    rw [← hreject] at hstage hr hm
    have hsettlement : t'.call.history.settlement = t.call.history.settlement := by
      rw [hhistory]
    rw [hstage]
    refine ⟨⟨hr.trans hrecords, hm.trans hmeasurements, ?_⟩, hpermits⟩
    rw [hsettlement, hkeeps.arrival]
    exact hwhy

/-- An upstream call that ends its request. -/
theorem orderly_endsUpstream {t t' : Turn P} {permit : CircuitBreakerPermit} {now : Number}
    {settlement : UpstreamSettlement} (hblank : Blank t.call.history)
    (hopen : permit.completed = false) {upstream : String}
    (hpermits : t.call.history.permits = [(upstream, permit)])
    (h : EndsUpstream t permit now settlement t') : Orderly t'.call := by
  have heq := afterUpstream_eq hopen hblank.settlement settlement now
  have hsettled : (t.afterUpstream permit settlement now).call.history.settlement =
      some settlement := by rw [heq]
  have hcompleted : PermitsCompleted (t.afterUpstream permit settlement now).call.history := by
    rw [heq]
    refine .inr ⟨upstream, permit, settlement, hpermits, rfl, ?_⟩
    rw [hblank.completions, List.nil_append]
  have hrecords : (t.afterUpstream permit settlement now).call.history.records = [] := by
    rw [heq]
    exact hblank.records
  have hmeasurements : (t.afterUpstream permit settlement now).call.history.measurements = [] := by
    rw [heq]
    exact hblank.measurements
  apply orderly_ends hrecords hmeasurements hcompleted h.keeps
  rcases h.ends with hwrites | ⟨hreject, hwhy⟩
  · exact .inl hwrites
  · refine .inr ⟨hreject, ?_⟩
    rw [hsettled]
    rcases hwhy with hfailed | hid
    · exact .inl (congrArg some hfailed)
    · exact .inr hid

/-! ## Steps -/

/-- A call that is evaluated has neither permits nor records. -/
theorem orderly_evaluated {arrival : Arrival} {history : CallHistory} (hblank : Blank history)
    (hpermits : history.permits = []) (body : BufferedBody) (evaluation : Evaluation) :
    OrderlyStage arrival history (evaluated body evaluation) := by
  cases evaluation with
  | decided | rejected | verifyingJwt | checkingRateLimit => exact ⟨hblank, hpermits⟩

/-- Before it has asked for a permit, a call has neither permits nor records. -/
theorem Orderly.prepares {t t₁ : Turn P} (h : Orderly t.call) (hprepares : Prepares t t₁) :
    Blank t₁.call.history ∧ t₁.call.history.permits = [] := by
  unfold Orderly at h
  cases hprepares with
  | reading hstage | undecided hstage =>
    rw [hstage] at h
    exact h
  | decided hstage | refused hstage =>
    rw [hstage] at h
    exact ⟨⟨h.1.records, h.1.measurements, h.1.settlement, h.1.completions⟩, h.2⟩

/-- The only permit of a call. -/
theorem Orderly.grant {t : Turn P} (h : Orderly t.call) {body : BufferedBody}
    {decision : PolicyDecision} (hstage : t.call.stage = .decided body decision)
    (decided : PolicyDecision) (circuitBreaker : UpstreamCircuitBreaker) (upstream : String)
    (permit : CircuitBreakerPermit) :
    Blank ((t.decide decided).grant circuitBreaker upstream permit).call.history ∧
      ((t.decide decided).grant circuitBreaker upstream permit).call.history.permits =
        [(upstream, permit)] := by
  unfold Orderly at h
  rw [hstage] at h
  have ⟨hblank, hpermits⟩ := h
  refine ⟨⟨hblank.records, hblank.measurements, hblank.settlement, hblank.completions⟩, ?_⟩
  show t.call.history.permits ++ [(upstream, permit)] = [(upstream, permit)]
  rw [hpermits, List.nil_append]

/-- A release changes nothing of this. -/
theorem orderlyStage_releases {arrival : Arrival} {history : CallHistory} {stage : CallStage}
    (h : OrderlyStage arrival history stage) (releases : ℕ) :
    OrderlyStage arrival { history with releases } stage := by
  have hblank : Blank history → Blank { history with releases } :=
    fun hblank => ⟨hblank.records, hblank.measurements, hblank.settlement, hblank.completions⟩
  cases stage with
  | responded response => exact h
  | rejected => exact h
  | fetching route permit => exact ⟨hblank h.1, h.2⟩
  | readingBody | evaluating | decided | undecided => exact ⟨hblank h.1, h.2⟩

/-- A call that fetches has not settled yet, so the answer of its upstream settles it. -/
theorem Orderly.afterFetch {t : Turn P} (h : Orderly t.call) {route : CompiledRoute}
    {permit : CircuitBreakerPermit} (hstage : t.call.stage = .fetching route permit)
    (outcome : UpstreamOutcome) (now : Clocks) :
    ∃ settlement, EndsUpstream t permit now.date settlement
      (t.afterFetch route permit outcome now) := by
  unfold Orderly at h
  rw [hstage] at h
  have ⟨hblank, hopen, _⟩ := h
  exact afterFetch_spec hopen hblank.settlement route outcome now

theorem Orderly.moves {t t' : Turn P} {a : CallAction} (h : Orderly t.call)
    (hmoves : Moves t a t') :
    Orderly t'.call := by
  have hstanding := h
  unfold Orderly at hstanding
  cases hmoves with
  | evaluates hstage =>
    rw [hstage] at hstanding
    have ⟨hblank, hpermits⟩ := hstanding
    unfold Orderly evaluate
    simp only
    split
    · exact ⟨⟨hblank.records, hblank.measurements, hblank.settlement, hblank.completions⟩,
        hpermits⟩
    · apply orderly_evaluated
      · exact ⟨hblank.records, hblank.measurements, hblank.settlement, hblank.completions⟩
      · exact hpermits
  | verified hstage | checked hstage =>
    rw [hstage] at hstanding
    have ⟨hblank, hpermits⟩ := hstanding
    apply orderly_evaluated
    · exact ⟨hblank.records, hblank.measurements, hblank.settlement, hblank.completions⟩
    · exact hpermits
  | ends hprepares hkeeps hends =>
    have ⟨hblank, hpermits⟩ := h.prepares hprepares
    apply orderly_ends hblank.records hblank.measurements (.inl ⟨hpermits, hblank.completions⟩)
      hkeeps
    rcases hends with hwrites | ⟨hreject, hid⟩
    · exact .inl hwrites
    · exact .inr ⟨hreject, .inr hid⟩
  | @sends _ body decision route circuitBreaker permit sent now hstage hroute hacquire hsent =>
    have ⟨hblank, hpermits⟩ := h.grant hstage (.allowed decision) circuitBreaker route.upstream
      permit
    exact ⟨⟨hblank.records, hblank.measurements, hblank.settlement, hblank.completions⟩,
      (UpstreamCircuitBreaker.acquire_permit hacquire).2, _, hpermits⟩
  -- the permit is completed although nothing was sent
  | @unsendable _ body decision route circuitBreaker permit now settlement t' hstage hroute hacquire
      hends =>
    have ⟨hblank, hpermits⟩ := h.grant hstage (.allowed decision) circuitBreaker route.upstream
      permit
    exact orderly_endsUpstream hblank (UpstreamCircuitBreaker.acquire_permit hacquire).2 hpermits
      hends
  | @fetched _ route permit outcome now hstage =>
    rw [hstage] at hstanding
    have ⟨hblank, hopen, upstream, hpermits⟩ := hstanding
    have ⟨settlement, hends⟩ := afterFetch_spec hopen hblank.settlement route outcome now
    exact orderly_endsUpstream hblank hopen hpermits hends
  | aborted => exact h
  | streams hwrapped => exact orderlyStage_releases hstanding _

/-! ## Runs -/

section

variable {options : GatewayOptions} {trustedKeys : TrustedKeyring} {s : GatewayState P}

theorem Orderly.arrives {gateway : Gateway P} {arrival : Arrival} {t : Turn P}
    (h : Arrives gateway arrival t) : Orderly t.call := by
  cases h with
  | admitted harrival hstage hnew =>
    unfold Orderly
    rw [hstage, hnew]
    exact ⟨⟨rfl, rfl, rfl, rfl⟩, rfl⟩
  | @turnedAway metrics call _ harrival hnew hkeeps hends =>
    have hrecords : call.history.records = [] := by rw [hnew]; rfl
    have hmeasurements : call.history.measurements = [] := by rw [hnew]; rfl
    have hpermits : PermitsCompleted call.history := by
      rw [hnew]
      exact .inl ⟨rfl, rfl⟩
    apply orderly_ends hrecords hmeasurements hpermits hkeeps
    rcases hends with hwrites | ⟨hreject, hid⟩
    · exact .inl hwrites
    · exact .inr ⟨hreject, .inr (harrival ▸ hid)⟩

theorem orderly_of_reachable {ok : GatewayState P → GatewayAction → Prop}
    (h : (Gateway.machine P options trustedKeys).ReachableBy ok s) :
    ∀ call ∈ s.calls, Orderly call :=
  Gateway.calls_invariant (fun _ _ _ => Orderly.arrives) (fun _ _ _ => Orderly.moves) h

/-- A call that has resolved has exactly one record and one metric, with the status of its
response; a call that has rejected has none, and its client had aborted a failed upstream call
or its request ID is not a header value. -/
theorem recorded_when_resolved (h : (Gateway.machine P options trustedKeys).Reachable s) :
    ∀ call ∈ s.calls,
      (∀ response, call.stage = .responded response → Recorded call.history response) ∧
        (call.stage = .rejected → Unrecorded call.arrival call.history) := by
  intro call hcall
  have horderly := orderly_of_reachable h call hcall
  unfold Orderly at horderly
  constructor
  · intro response hstage
    rw [hstage] at horderly
    exact horderly.1
  · intro hstage
    rw [hstage] at horderly
    exact horderly.1

end

/-! ## A request that is sent -/

namespace Orders

open Delivery.Orders

/-- A platform on which the path of one request matches its route. -/
def platform : Platform :=
  { edgePlatform with
    regExp :=
      { RegExp := String
        construct := fun pattern _ => some pattern
        exec := fun regex text =>
          if regex = "^(?:(/v1/orders/[^/]+))$" ∧ text = "/v1/orders/42" then
            some [some (0, 13), some (0, 13)]
          else none } }

/-- The options of a gateway with the defaults. -/
def options : GatewayOptions where
  maxRequestBodyBytes := none
  upstreamTimeoutMs := none
  maxInFlightRequests := none
  circuitFailureThreshold := none
  circuitOpenDurationMs := none
  circuitMaximumUpstreams := none

def gateway : Gateway platform where
  configuration := none
  policyEvaluator := .new
  maxRequestBodyBytes := 1048576
  upstreamTimeoutMs := 10000
  admissionGate := { maximum := 1024, active := 0, accepting := true, idleWaiters := [],
                     promises := [] }
  circuitBreaker := .create 5 30000 1024
  metrics := .new

theorem gateway_new : Gateway.new platform options = .ok gateway := by
  have hbody : (Gateway.DEFAULT_MAX_REQUEST_BODY_BYTES).num.toNat = 1048576 := by decide +kernel
  have hbounds : ¬(!isSafeInteger Gateway.DEFAULT_MAX_REQUEST_BODY_BYTES ||
      decide (Gateway.DEFAULT_MAX_REQUEST_BODY_BYTES ≤ 0)) = true := by decide +kernel
  refine Except.bind_eq_ok_iff.mpr ⟨gateway.admissionGate, rfl, Except.bind_eq_ok_iff.mpr
    ⟨gateway.circuitBreaker, rfl, ?_⟩⟩
  show (if (!isSafeInteger Gateway.DEFAULT_MAX_REQUEST_BODY_BYTES ||
    decide (Gateway.DEFAULT_MAX_REQUEST_BODY_BYTES ≤ 0)) = true then _ else _) = _
  rw [if_neg hbounds]
  show Except.ok { gateway with
    maxRequestBodyBytes := Gateway.DEFAULT_MAX_REQUEST_BODY_BYTES.num.toNat } = Except.ok gateway
  rw [hbody]
  rfl

/-- A gateway with the bundle of the policy. -/
def serving : GatewayState platform :=
  let s := Gateway.initial gateway
  { s with
    gateway := { s.gateway with configuration := some received.bundle }
    installed := s.installed ++ [received.bundle] }

theorem parse_received : parseBundleEnvelope platform envelope.toJson = .ok received := by
  decide +kernel

/-- An envelope that the control plane has signed verifies when it parses. -/
theorem verify_signed {bundle : Control.Bundle} {envelope : Control.Envelope}
    {verified : SignedBundleEnvelope}
    (hsign : Control.sign goPlatform bundle privateKey = .ok envelope)
    (hkey : keyring.get envelope.keyID =
      some (Control.encodePublicKeyPEM (Control.publicKey privateKey)))
    (hparse : parseBundleEnvelope platform envelope.toJson = .ok verified) :
    verifyBundleEnvelope platform envelope.toJson keyring = .ok verified := by
  have hagree : Delivery.Agree platform goPlatform privateKey :=
    ⟨agree.numberText, agree.sha256, agree.signature_length, agree.verifies⟩
  have hequiv := (parseBundleEnvelope_ok_iff.mp hparse).1
  exact verifyBundleEnvelope_ok_iff.mpr
    ⟨hparse, Delivery.trusted_of_sign hagree hsign hkey hequiv⟩

theorem serving_reachableBy {ok : GatewayState platform → GatewayAction → Prop}
    (hok : ∀ s value, ok s (.install value)) :
    (Gateway.machine platform options keyring).ReachableBy ok serving := by
  have hinitial : (Gateway.machine platform options keyring).ReachableBy ok
      (Gateway.initial gateway) :=
    .init ⟨gateway, gateway_new, rfl⟩
  unfold serving
  exact Gateway.reachable_install (verify_signed sign_bundle trusts_key parse_received) (hok _ _)
    hinitial

theorem serving_reachable : (Gateway.machine platform options keyring).Reachable serving :=
  serving_reachableBy fun _ _ => trivial

def request (path : String) (hpath : ∀ c ∈ path.toList, 0x20 ≤ c.toNat ∧ c.toNat ≤ 0x7e) :
    IncomingRequest where
  method := "GET"
  url := { protocol := "https:", username := "", password := "", hostname := "edge.example",
           port := "", pathname := path, search := "", hash := "", pathname_printable := hpath }
  headers := [("authorization", "Bearer token")]
  hasBody := false

theorem printable_order : ∀ c ∈ "/v1/orders/42".toList, 0x20 ≤ c.toNat ∧ c.toNat ≤ 0x7e :=
  printable_of_all (by decide)

def jwt : VerifiedJwt where
  subject := some (.string "alice")
  payload := .object [("sub", .string "alice")]
  protectedHeader := .object []

def limit : RateLimitResult where
  allowed := true
  limit := 100
  remaining := 99
  resetAt := 60000
  retryAfterSeconds := 60

def body : BodyStream := { chunks := [], fails := false }

/-- A request passes all controls, and the fetcher is called for it. -/
def sending (index : ℕ) (date : Number) : List GatewayAction :=
  [.handle (request "/v1/orders/42" printable_order) none "request-1" 0,
    .turn index (.bodyRead body 0), .turn index (.verified (some jwt)),
    .turn index (.checked (some limit)), .turn index (.proceed { performance := 5, date })]

/-- The client aborts, and the fetcher rejects. -/
def aborting : List GatewayAction :=
  [.turn 0 .abort, .turn 0 (.fetched (.rejection false) { performance := 6, date := 1001 })]

def upstreamResponse : UpstreamResponse where
  status := 200
  statusText := "OK"
  headers := []
  hasBody := true

def answering : List GatewayAction :=
  [.turn 0 (.fetched (.response upstreamResponse) { performance := 6, date := 1001 })]

/-- A request whose ID cannot be set as a header is denied. -/
def denying : List GatewayAction :=
  [.handle (request "/v1/orders/42" printable_order) none "request\n1" 0,
    .turn 0 (.bodyRead body 0), .turn 0 (.verified none),
    .turn 0 (.proceed { performance := 5, date := 1000 })]

/-- What a settled call leaves behind: whether its client aborted and its request ID can be set
as a header, and the statuses of its records and metrics. -/
structure Outcome where
  settled : Bool
  aborted : Bool
  hasHeaderId : Bool
  records : List ℕ
  measurements : List ℕ
deriving DecidableEq

def outcome (call : Call) : Outcome where
  settled := call.stage.settled
  aborted := call.aborted
  hasHeaderId := call.arrival.hasHeaderId
  records := call.history.records.map (·.status)
  measurements := call.history.measurements.map (·.status)

theorem recorded_when_answered :
    ∃ s, (Gateway.machine platform options keyring).run serving
        (sending 0 1000 ++ answering) = some s ∧
      s.calls.map outcome = [{ settled := true, aborted := false, hasHeaderId := true,
                               records := [200], measurements := [200] }] ∧
      ∀ call ∈ s.calls,
        (∀ response, call.stage = .responded response → Recorded call.history response) ∧
          (call.stage = .rejected → Unrecorded call.arrival call.history) := by
  have hrun : ((Gateway.machine platform options keyring).run serving
      (sending 0 1000 ++ answering)).map (·.calls.map outcome) =
        some [{ settled := true, aborted := false, hasHeaderId := true, records := [200],
                measurements := [200] }] := by
    decide +kernel
  have ⟨s, hs, houtcomes⟩ := Option.map_eq_some_iff.mp hrun
  exact ⟨s, hs, houtcomes, recorded_when_resolved (serving_reachable.of_run _ hs)⟩

theorem not_recorded_of_run {actions : List GatewayAction} {aborted hasHeaderId : Bool}
    (hrun : ((Gateway.machine platform options keyring).run serving actions).map
      (·.calls.map outcome) =
        some [{ settled := true, aborted, hasHeaderId, records := [], measurements := [] }]) :
    ¬∀ s, (Gateway.machine platform options keyring).Reachable s → ∀ call ∈ s.calls,
      call.aborted = aborted → call.arrival.hasHeaderId = hasHeaderId →
      call.stage.settled = true →
      call.history.records.length = 1 ∧ call.history.measurements.length = 1 := by
  intro h
  have ⟨s, hs, houtcomes⟩ := Option.map_eq_some_iff.mp hrun
  have ⟨call, hcalls, heq⟩ := List.map_eq_singleton_iff.mp houtcomes
  have hcall : call ∈ s.calls := hcalls ▸ List.mem_singleton.mpr rfl
  have hlength := (h s (serving_reachable.of_run _ hs) call hcall (congrArg (·.aborted) heq)
    (congrArg (·.hasHeaderId) heq) (congrArg (·.settled) heq)).1
  have hrecords : call.history.records.map (·.status) = [] := congrArg (·.records) heq
  rw [List.map_eq_nil_iff.mp hrecords] at hlength
  cases hlength

/-- A call settles without a record when its client has aborted, though its request ID can be
set as a header, and when the request ID cannot, though nobody has aborted. -/
theorem settled_unrecorded :
    (¬∀ s, (Gateway.machine platform options keyring).Reachable s → ∀ call ∈ s.calls,
      call.aborted = true → call.arrival.hasHeaderId = true → call.stage.settled = true →
      call.history.records.length = 1 ∧ call.history.measurements.length = 1) ∧
    ¬∀ s, (Gateway.machine platform options keyring).Reachable s → ∀ call ∈ s.calls,
      call.aborted = false → call.arrival.hasHeaderId = false → call.stage.settled = true →
      call.history.records.length = 1 ∧ call.history.measurements.length = 1 := by
  have haborting : ((Gateway.machine platform options keyring).run serving
      (sending 0 1000 ++ aborting)).map (·.calls.map outcome) =
        some [{ settled := true, aborted := true, hasHeaderId := true, records := [],
                measurements := [] }] := by
    decide +kernel
  have hdenying : ((Gateway.machine platform options keyring).run serving denying).map
      (·.calls.map outcome) =
        some [{ settled := true, aborted := false, hasHeaderId := false, records := [],
                measurements := [] }] := by
    decide +kernel
  exact ⟨not_recorded_of_run haborting, not_recorded_of_run hdenying⟩

end Orders

end ShieldWard.Edge
