import ShieldWard.Edge.SettledCalls

/-!
# Places at the admission gate

The gate counts places. A call that was admitted occupies its place until `handle` throws or the
body of its response is over, and gives it back with the step that ends this. So the count is the
number of calls that occupy a place, whatever the order of the steps.
-/

namespace ShieldWard.Edge

open Ecma

/-! ## The gate -/

namespace AdmissionGate

/-- The promises after some have been resolved. -/
theorem getElem?_resolve (waiters : List ℕ) (promises : List IdlePromise) (place : ℕ) :
    (waiters.foldl resolve promises)[place]? = promises[place]?.map fun promise =>
      if place ∈ waiters then { promise with resolved := true } else promise := by
  induction waiters generalizing promises with
  | nil =>
    show promises[place]? = _
    simp only [List.not_mem_nil, if_false, Option.map_id']
  | cons waiter waiters ih =>
    rw [List.foldl_cons, ih]
    unfold resolve
    rw [List.getElem?_modify, Option.map_eq_map, Option.map_map]
    congr 1
    funext promise
    simp only [Function.comp_apply, List.mem_cons]
    by_cases hwaiter : waiter = place
    · simp only [hwaiter, if_true, true_or, ite_self]
    · simp only [if_neg hwaiter, Ne.symm hwaiter, false_or]

/-- A promise is an old one or the one that joins the others. -/
theorem getElem?_joined {promises : List IdlePromise} {joined promise : IdlePromise} {place : ℕ}
    (h : (promises ++ [joined])[place]? = some promise) :
    promises[place]? = some promise ∨ place = promises.length ∧ promise = joined := by
  rw [List.getElem?_append] at h
  split at h
  · exact .inl h
  · next hlength =>
    have ⟨hplace, heq⟩ := List.getElem?_eq_some_iff.mp h
    rw [List.length_singleton] at hplace
    right
    refine ⟨by omega, ?_⟩
    rw [← heq]
    exact List.getElem_singleton hplace

/-- The count is within its bounds, and the promises of `waitForIdle` that were asked for after
the drain are resolved when it is zero only. -/
structure Sound (gate : AdmissionGate) (drained : Bool) : Prop where
  nonneg : 0 ≤ gate.active
  bounded : gate.active ≤ gate.maximum
  accepting : gate.accepting = !drained
  waiting : ∀ place promise, gate.promises[place]? = some promise → promise.resolved = false →
    place ∈ gate.idleWaiters
  idle : gate.active = 0 → ∀ promise ∈ gate.promises, promise.resolved = true
  before : drained = false → ∀ promise ∈ gate.promises, promise.sinceDrain = false
  kept : gate.active ≠ 0 → ∀ promise ∈ gate.promises, promise.sinceDrain = true →
    promise.resolved = false

variable {gate gate' : AdmissionGate} {drained : Bool}

/-- Nobody is admitted once the drain has begun. -/
theorem Sound.tryAcquire (h : gate.Sound drained) (haccepted : gate.tryAcquire = .accepted gate') :
    gate'.Sound drained ∧ gate'.active = gate.active + 1 ∧ gate'.maximum = gate.maximum ∧
      drained = false := by
  unfold AdmissionGate.tryAcquire at haccepted
  have hnonneg := h.nonneg
  split at haccepted
  · cases haccepted
  · next hopen =>
    split at haccepted
    · cases haccepted
    · next hroom =>
      rw [← AdmissionResult.accepted.inj haccepted]
      have hundrained : drained = false := by
        rw [h.accepting, Bool.not_not] at hopen
        exact Bool.not_eq_true _ ▸ hopen
      have hactive : gate.active + 1 ≠ 0 := by omega
      refine ⟨⟨?_, ?_, h.accepting, h.waiting, ?_, h.before, ?_⟩, rfl, rfl, hundrained⟩
      · show 0 ≤ gate.active + 1
        omega
      · show gate.active + 1 ≤ gate.maximum
        omega
      · exact fun hzero => absurd hzero hactive
      · intro _ promise hpromise hsince
        rw [h.before hundrained promise hpromise] at hsince
        cases hsince

/-- A place is given back. The last one resolves every promise. -/
theorem Sound.release (h : gate.Sound drained) (hactive : 0 < gate.active) :
    gate.release.Sound drained ∧ gate.release.active = gate.active - 1 ∧
      gate.release.maximum = gate.maximum := by
  have hbounded := h.bounded
  unfold AdmissionGate.release
  simp only
  split
  · next hlast =>
    -- the last release resolves every promise that still waits
    have hget : ∀ (place : ℕ) (promise : IdlePromise),
        (gate.idleWaiters.foldl resolve gate.promises)[place]? = some promise →
          promise.resolved = true ∧ ∃ old ∈ gate.promises, old.sinceDrain = promise.sinceDrain := by
      intro place promise hpromise
      rw [getElem?_resolve] at hpromise
      have ⟨old, hold, heq⟩ := Option.map_eq_some_iff.mp hpromise
      have hmem := List.mem_of_getElem? hold
      rw [← heq]
      by_cases hwaits : place ∈ gate.idleWaiters
      · rw [if_pos hwaits]
        exact ⟨rfl, old, hmem, rfl⟩
      · rw [if_neg hwaits]
        refine ⟨?_, old, hmem, rfl⟩
        by_contra hunresolved
        exact hwaits (h.waiting place old hold (Bool.not_eq_true _ ▸ hunresolved))
    refine ⟨⟨?_, ?_, h.accepting, ?_, ?_, ?_, ?_⟩, rfl, rfl⟩
    · show 0 ≤ gate.active - 1
      omega
    · show gate.active - 1 ≤ gate.maximum
      omega
    · intro place promise hpromise hunresolved
      rw [(hget place promise hpromise).1] at hunresolved
      cases hunresolved
    · intro _ promise hpromise
      have ⟨place, hplace⟩ := List.mem_iff_getElem?.mp hpromise
      exact (hget place promise hplace).1
    · intro hundrained promise hpromise
      have ⟨place, hplace⟩ := List.mem_iff_getElem?.mp hpromise
      have ⟨_, old, hold, hsince⟩ := hget place promise hplace
      rw [← hsince]
      exact h.before hundrained old hold
    · exact fun hnonzero => absurd hlast hnonzero
  · next hmore =>
    refine ⟨⟨?_, ?_, h.accepting, h.waiting, ?_, h.before, ?_⟩, rfl, rfl⟩
    · show 0 ≤ gate.active - 1
      omega
    · show gate.active - 1 ≤ gate.maximum
      omega
    · exact fun hzero => absurd hzero hmore
    · exact fun _ => h.kept (by omega)

theorem Sound.beginDrain (h : gate.Sound drained) :
    gate.beginDrain.2.Sound true ∧ gate.beginDrain.2.active = gate.active ∧
      gate.beginDrain.2.maximum = gate.maximum := by
  unfold AdmissionGate.beginDrain
  split
  · next hclosed =>
    refine ⟨⟨h.nonneg, h.bounded, ?_, h.waiting, h.idle, ?_, h.kept⟩, rfl, rfl⟩
    · simpa using hclosed
    · exact fun hfalse => by cases hfalse
  · refine ⟨⟨h.nonneg, h.bounded, rfl, h.waiting, h.idle, ?_, h.kept⟩, rfl, rfl⟩
    exact fun hfalse => by cases hfalse

theorem Sound.waitForIdle (h : gate.Sound drained) :
    (gate.waitForIdle drained).Sound drained ∧
      (gate.waitForIdle drained).active = gate.active ∧
      (gate.waitForIdle drained).maximum = gate.maximum := by
  unfold AdmissionGate.waitForIdle
  -- A promise that joins at zero is resolved, and any other one waits.
  split
  · next hidle =>
    refine ⟨⟨h.nonneg, h.bounded, h.accepting, ?_, ?_, ?_, ?_⟩, rfl, rfl⟩
    · intro place promise hpromise hunresolved
      rcases getElem?_joined hpromise with hold | ⟨_, hnew⟩
      · exact h.waiting place promise hold hunresolved
      · rw [hnew] at hunresolved
        cases hunresolved
    · intro _ promise hpromise
      rcases List.mem_append.mp hpromise with hold | hnew
      · exact h.idle hidle promise hold
      · rw [List.mem_singleton.mp hnew]
    · intro hundrained promise hpromise
      rcases List.mem_append.mp hpromise with hold | hnew
      · exact h.before hundrained promise hold
      · rw [List.mem_singleton.mp hnew]
        exact hundrained
    · exact fun hnonzero => absurd hidle hnonzero
  · next hbusy =>
    refine ⟨⟨h.nonneg, h.bounded, h.accepting, ?_, ?_, ?_, ?_⟩, rfl, rfl⟩
    · intro place promise hpromise hunresolved
      rcases getElem?_joined hpromise with hold | ⟨hplace, _⟩
      · exact List.mem_append_left _ (h.waiting place promise hold hunresolved)
      · rw [hplace]
        exact List.mem_append_right _ (List.mem_singleton.mpr rfl)
    · exact fun hzero => absurd hzero hbusy
    · intro hundrained promise hpromise
      rcases List.mem_append.mp hpromise with hold | hnew
      · exact h.before hundrained promise hold
      · rw [List.mem_singleton.mp hnew]
        exact hundrained
    · intro _ promise hpromise hsince
      rcases List.mem_append.mp hpromise with hold | hnew
      · exact h.kept hbusy promise hold hsince
      · rw [List.mem_singleton.mp hnew]

/-- Once the drain has begun, a promise is resolved exactly when the count is zero. -/
theorem Sound.resolved_iff (h : gate.Sound drained) {promise : IdlePromise}
    (hpromise : promise ∈ gate.promises) (hsince : promise.sinceDrain = true) :
    promise.resolved = true ↔ gate.active = 0 := by
  constructor
  · intro hresolved
    by_contra hbusy
    rw [h.kept hbusy promise hpromise hsince] at hresolved
    cases hresolved
  · exact fun hidle => h.idle hidle promise hpromise

end AdmissionGate

/-! ## The place of a call -/

/-- The call was admitted, `handle` has not thrown, and the body of its response, if it has
responded, is not over. -/
def Call.occupies (call : Call) : Bool :=
  call.admitted &&
    match call.stage, call.wrapped with
    | .rejected, _ => false
    | .responded _, none => false
    | .responded _, some wrapped => !wrapped.finished
    | _, _ => true

/-- The call was admitted and does not occupy its place any more. -/
def Call.left (call : Call) : Bool := call.admitted && !call.occupies

/-- The flags and the count of releases say whether the call has left its place. -/
structure Tidy (call : Call) : Prop where
  requestReleased : call.requestReleased = call.left
  released : call.released = call.left
  releases : call.history.releases = call.left.toNat
  wrapped : ∀ wrapped, call.wrapped = some wrapped →
    call.admitted = true ∧ ∃ response, call.stage = .responded response

theorem Call.occupies_of_unsettled {call : Call} (h : call.stage.settled = false) :
    call.occupies = call.admitted := by
  unfold Call.occupies
  split <;> simp_all [CallStage.settled]

namespace Turn

variable {P : Platform} {t t₁ t' : Turn P}

/-- The turn gives no place back, or it gives back that of its call. -/
structure Frees (t t' : Turn P) : Prop where
  admitted : t'.call.admitted = t.call.admitted
  sinceDrain : t'.call.sinceDrain = t.call.sinceDrain
  tidy : Tidy t'.call
  gate : t'.call.occupies = t.call.occupies ∧
      t'.gateway.admissionGate = t.gateway.admissionGate ∧
      t'.gateway.metrics.activeGatewayRequests = t.gateway.metrics.activeGatewayRequests ∨
    t.call.occupies = true ∧ t'.call.occupies = false ∧
      t'.gateway.admissionGate = t.gateway.admissionGate.release ∧
      t'.gateway.metrics.activeGatewayRequests =
        max 0 (t.gateway.metrics.activeGatewayRequests - 1)

/-- The turn has not touched the gate, the gauge or what its call knows of them. -/
structure Quiet (t t' : Turn P) : Prop where
  admissionGate : t'.gateway.admissionGate = t.gateway.admissionGate
  gauge : t'.gateway.metrics.activeGatewayRequests = t.gateway.metrics.activeGatewayRequests
  admitted : t'.call.admitted = t.call.admitted
  sinceDrain : t'.call.sinceDrain = t.call.sinceDrain
  requestReleased : t'.call.requestReleased = t.call.requestReleased
  released : t'.call.released = t.call.released
  releases : t'.call.history.releases = t.call.history.releases
  wrapped : t'.call.wrapped = t.call.wrapped

/-- The call of a turn that has not settled, with its place, if it has one, to be given back. -/
structure Running (t : Turn P) : Prop where
  unsettled : t.call.stage.settled = false
  tidy : Tidy t.call

theorem Running.occupies (h : Running t) : t.call.occupies = t.call.admitted :=
  Call.occupies_of_unsettled h.unsettled

theorem Running.left (h : Running t) : t.call.left = false := by
  unfold Call.left
  rw [h.occupies]
  exact Bool.and_not_self _

theorem Running.wrapped (h : Running t) : t.call.wrapped = none := by
  by_contra hsome
  have ⟨wrapped, hwrapped⟩ := Option.ne_none_iff_exists'.mp hsome
  have ⟨_, response, hstage⟩ := h.tidy.wrapped wrapped hwrapped
  have hunsettled := h.unsettled
  rw [hstage] at hunsettled
  cases hunsettled

/-- A quiet turn to another stage that is not the end. -/
theorem Running.quiet (h : Running t) (hquiet : Quiet t t')
    (hunsettled : t'.call.stage.settled = false) : Running t' := by
  have hoccupies : t'.call.occupies = t'.call.admitted := Call.occupies_of_unsettled hunsettled
  have hleft : t'.call.left = t.call.left := by
    rw [h.left]
    unfold Call.left
    rw [hoccupies]
    exact Bool.and_not_self _
  refine ⟨hunsettled, ?_, ?_, ?_, ?_⟩
  · rw [hquiet.requestReleased, hleft, h.tidy.requestReleased]
  · rw [hquiet.released, hleft, h.tidy.released]
  · rw [hquiet.releases, hleft, h.tidy.releases]
  · intro wrapped hwrapped
    rw [hquiet.wrapped, h.wrapped] at hwrapped
    cases hwrapped

theorem Frees.of_quiet (h : Running t) (hquiet : Quiet t t')
    (hunsettled : t'.call.stage.settled = false) : Frees t t' where
  admitted := hquiet.admitted
  sinceDrain := hquiet.sinceDrain
  tidy := (h.quiet hquiet hunsettled).tidy
  gate := by
    left
    rw [h.occupies, (h.quiet hquiet hunsettled).occupies]
    exact ⟨hquiet.admitted, hquiet.admissionGate, hquiet.gauge⟩

/-- What happens quietly before. -/
theorem Frees.after_quiet (h : Running t) (hquiet : Quiet t t₁)
    (hunsettled : t₁.call.stage.settled = false) (hfrees : Frees t₁ t') : Frees t t' where
  admitted := hfrees.admitted.trans hquiet.admitted
  sinceDrain := hfrees.sinceDrain.trans hquiet.sinceDrain
  tidy := hfrees.tidy
  gate := by
    have hoccupies : t₁.call.occupies = t.call.occupies := by
      rw [h.occupies, (h.quiet hquiet hunsettled).occupies, hquiet.admitted]
    rw [← hoccupies, ← hquiet.admissionGate, ← hquiet.gauge]
    exact hfrees.gate

/-! ## Endings -/

/-- `releaseRequest` of a call that has its place still. -/
theorem releaseRequest_of_left (hrequest : t.call.requestReleased = false)
    (hreleased : t.call.released = false) :
    t.releaseRequest =
      { gateway := { t.gateway with
          admissionGate := t.gateway.admissionGate.release
          metrics := t.gateway.metrics.recordGatewayRequestFinished }
        call := { t.call with
          requestReleased := true
          released := true
          history := { t.call.history with releases := t.call.history.releases + 1 } } } := by
  unfold releaseRequest
  simp only [hrequest, hreleased, Bool.false_eq_true, if_false]

/-- A second `releaseRequest` does nothing. -/
theorem releaseRequest_of_released (h : t.call.requestReleased = true) : t.releaseRequest = t := by
  unfold releaseRequest
  rw [if_pos h]

theorem releaseRequest_wrapped (t : Turn P) : t.releaseRequest.call.wrapped = t.call.wrapped := by
  have ⟨_, _, _, _, _, heq⟩ := t.releaseRequest_eq
  rw [heq]

/-- A call gives its place back and comes to a stage in which it has none. -/
theorem Frees.of_release (h : t.call.occupies = true) (htidy : Tidy t.call) {call : Call}
    (hcall : call = { t.releaseRequest.call with stage := call.stage, wrapped := call.wrapped })
    (hover : call.occupies = false)
    (hwrapped : ∀ wrapped, call.wrapped = some wrapped →
      ∃ response, call.stage = .responded response) :
    Frees t { t.releaseRequest with call } := by
  have hadmitted : t.call.admitted = true := by
    unfold Call.occupies at h
    exact (Bool.and_eq_true_iff.mp h).1
  have hleft : t.call.left = false := by
    unfold Call.left
    rw [h, hadmitted]
    rfl
  have hrequest := htidy.requestReleased.trans hleft
  have hreleased := htidy.released.trans hleft
  have hreleases := htidy.releases
  rw [hleft] at hreleases
  rw [releaseRequest_of_left hrequest hreleased] at hcall ⊢
  have hcalladmitted : call.admitted = true := by
    rw [hcall]
    exact hadmitted
  have hcallleft : call.left = true := by
    unfold Call.left
    rw [hover, hcalladmitted]
    rfl
  refine ⟨hcalladmitted.trans hadmitted.symm, by rw [hcall], ⟨?_, ?_, ?_, ?_⟩, ?_⟩
  · show call.requestReleased = call.left
    rw [hcallleft, hcall]
  · show call.released = call.left
    rw [hcallleft, hcall]
  · show call.history.releases = call.left.toNat
    rw [hcallleft, hcall]
    show t.call.history.releases + 1 = 1
    rw [hreleases]
    rfl
  · exact fun wrapped hsome => ⟨hcalladmitted, hwrapped wrapped hsome⟩
  · exact .inr ⟨h, hover, rfl, rfl⟩

/-- The end of a call that was not admitted. -/
theorem Frees.of_not_admitted (h : Running t) (hadmitted : t.call.admitted = false)
    (stage : CallStage) : Frees t (t.goTo stage) := by
  have hoccupies : t.call.occupies = false := h.occupies.trans hadmitted
  have hover : (t.goTo stage).call.occupies = false := by
    show (t.call.admitted && _) = false
    rw [hadmitted, Bool.false_and]
  have hleft : (t.goTo stage).call.left = t.call.left := by
    rw [h.left]
    show (t.call.admitted && _) = false
    rw [hadmitted, Bool.false_and]
  refine ⟨rfl, rfl, ⟨?_, ?_, ?_, ?_⟩, ?_⟩
  · exact h.tidy.requestReleased.trans hleft.symm
  · exact h.tidy.released.trans hleft.symm
  · rw [hleft]
    exact h.tidy.releases
  · intro wrapped hwrapped
    rw [show (t.goTo stage).call.wrapped = t.call.wrapped from rfl, h.wrapped] at hwrapped
    cases hwrapped
  · exact .inl ⟨hover.trans hoccupies.symm, rfl, rfl⟩

theorem reject_frees (h : Running t) : Frees t t.reject := by
  unfold reject
  by_cases hadmitted : t.call.admitted = true
  · rw [if_pos hadmitted]
    apply Frees.of_release (h.occupies.trans hadmitted) h.tidy rfl
    · exact Bool.and_false _
    · intro wrapped hwrapped
      have hwrapped : t.releaseRequest.call.wrapped = some wrapped := hwrapped
      rw [releaseRequest_wrapped, h.wrapped] at hwrapped
      cases hwrapped
  · rw [if_neg hadmitted]
    exact .of_not_admitted h (Bool.not_eq_true _ ▸ hadmitted) _

theorem respond_frees (h : Running t) (response : ClientResponse) :
    Frees t (t.respond response) := by
  unfold respond
  by_cases hadmitted : t.call.admitted = true
  · have hoccupies : t.call.occupies = true := h.occupies.trans hadmitted
    rw [hadmitted, Bool.not_true, if_neg Bool.false_ne_true]
    -- Only a response without a body gives the place back at once.
    have hstays : Frees t { t with
        call := { t.call with stage := .responded response, wrapped := some .new } } := by
      have hnew : Call.occupies
          { t.call with stage := .responded response, wrapped := some .new } = true := by
        show (t.call.admitted && true) = true
        rw [hadmitted]
        rfl
      have hleft : Call.left
          { t.call with stage := .responded response, wrapped := some .new } = t.call.left := by
        rw [h.left]
        show (t.call.admitted && !Call.occupies _) = false
        rw [hnew, Bool.not_true, Bool.and_false]
      refine ⟨rfl, rfl, ⟨?_, ?_, ?_, ?_⟩, .inl ⟨hnew.trans hoccupies.symm, rfl, rfl⟩⟩
      · exact h.tidy.requestReleased.trans hleft.symm
      · exact h.tidy.released.trans hleft.symm
      · rw [hleft]
        exact h.tidy.releases
      · exact fun _ _ => ⟨hadmitted, response, rfl⟩
    split
    · apply Frees.of_release hoccupies h.tidy rfl
      · have hnone : t.releaseRequest.call.wrapped = none := by
          rw [releaseRequest_wrapped, h.wrapped]
        simp only [Call.occupies, hnone, Bool.and_false]
      · exact fun _ _ => ⟨response, rfl⟩
    · exact hstays
  · have hnot : t.call.admitted = false := Bool.not_eq_true _ ▸ hadmitted
    rw [hnot, Bool.not_false, if_pos rfl]
    exact .of_not_admitted h hnot _

theorem complete_quiet {now : Number} {response response' : ClientResponse}
    {completion : AuditCompletion} (h : t.complete now response completion = some (t₁, response')) :
    Quiet t t₁ ∧ t₁.call.stage = t.call.stage := by
  have ⟨hgateway, _, record, measurement, hcall, _⟩ := complete_some h
  refine ⟨⟨?_, ?_, ?_, ?_, ?_, ?_, ?_, ?_⟩, ?_⟩ <;> simp only [hgateway, hcall]

theorem finish_frees (h : Running t) (now : Number) (response : ClientResponse)
    (completion : AuditCompletion) : Frees t (t.finish now response completion) := by
  unfold finish
  split
  · exact reject_frees h
  · next t₁ response' hcomplete =>
    have ⟨hquiet, hstage⟩ := complete_quiet hcomplete
    have hunsettled : t₁.call.stage.settled = false := by
      rw [hstage]
      exact h.unsettled
    exact .after_quiet h hquiet hunsettled (respond_frees (h.quiet hquiet hunsettled) response')

/-! ## The upstream call -/

theorem settle_quiet (t : Turn P) (settlement : UpstreamSettlement) :
    Quiet t (t.settle settlement) :=
  ⟨rfl, rfl, rfl, rfl, rfl, rfl, rfl, rfl⟩

theorem completePermit_quiet (t : Turn P) (permit : CircuitBreakerPermit)
    (completion : Completion) (now : Number) :
    Quiet t (t.completePermit permit completion now).1 :=
  ⟨rfl, rfl, rfl, rfl, rfl, rfl, rfl, rfl⟩

theorem Running.settle (h : Running t) (settlement : UpstreamSettlement) :
    Running (t.settle settlement) :=
  h.quiet (settle_quiet t settlement) h.unsettled

theorem Running.completePermit (h : Running t) (permit : CircuitBreakerPermit)
    (completion : Completion) (now : Number) :
    Running (t.completePermit permit completion now).1 :=
  h.quiet (completePermit_quiet t permit completion now) h.unsettled

theorem catchUpstream_frees (h : Running t) (route : CompiledRoute)
    (permit : CircuitBreakerPermit) (timedOut : Bool) (now : Clocks) :
    Frees t (t.catchUpstream route permit timedOut now) := by
  unfold catchUpstream
  have hsettled := h.settle (.failed t.call.aborted)
  apply Frees.after_quiet h (settle_quiet t (.failed t.call.aborted)) hsettled.unsettled
  simp only
  split
  · exact .after_quiet hsettled (completePermit_quiet _ permit .abandonment now.date)
      hsettled.unsettled (reject_frees (hsettled.completePermit permit .abandonment now.date))
  · have hcompleted := hsettled.completePermit permit .failure now.date
    apply Frees.after_quiet hsettled (completePermit_quiet _ permit .failure now.date)
      hsettled.unsettled
    split
    · exact finish_frees hcompleted _ _ _
    · exact finish_frees hcompleted _ _ _

theorem respondUpstream_frees (h : Running t) (route : CompiledRoute)
    (permit : CircuitBreakerPermit) (response : UpstreamResponse) (now : Clocks) :
    Frees t (t.respondUpstream route permit response now) := by
  unfold respondUpstream
  simp only
  split
  · next t₁ response' hcomplete =>
    have ⟨hquiet, hstage⟩ := complete_quiet hcomplete
    have hunsettled : t₁.call.stage.settled = false := by
      rw [hstage]
      exact h.unsettled
    exact .after_quiet h hquiet hunsettled (respond_frees (h.quiet hquiet hunsettled) response')
  · exact catchUpstream_frees h route permit false now

theorem afterFetch_frees (h : Running t) (route : CompiledRoute) (permit : CircuitBreakerPermit)
    (outcome : UpstreamOutcome) (now : Clocks) :
    Frees t (t.afterFetch route permit outcome now) := by
  unfold afterFetch
  split
  · exact catchUpstream_frees h route permit _ now
  · split
    · exact catchUpstream_frees h route permit false now
    · next response _ =>
      have hsettled := h.settle (.answered response.status)
      apply Frees.after_quiet h (settle_quiet t (.answered response.status)) hsettled.unsettled
      apply Frees.after_quiet hsettled (completePermit_quiet _ permit _ now.date)
        hsettled.unsettled
      exact respondUpstream_frees (hsettled.completePermit permit _ now.date) route _ response now

/-! ## The evaluation -/

theorem evaluated_unsettled (body : BufferedBody) (evaluation : Evaluation) :
    (evaluated body evaluation).settled = false := by
  unfold evaluated
  split <;> rfl

theorem evaluate_frees (h : Running t) (body : BufferedBody) : Frees t (t.evaluate body) := by
  have hquiet : Quiet t (t.evaluate body) := ⟨rfl, rfl, rfl, rfl, rfl, rfl, rfl, rfl⟩
  apply Frees.of_quiet h hquiet
  unfold evaluate
  simp only
  split
  · rfl
  · exact evaluated_unsettled _ _

theorem startEvaluation_frees (h : Running t) (stream : BodyStream) (now : Number) :
    Frees t (t.startEvaluation stream now) := by
  unfold startEvaluation
  split
  · exact finish_frees h _ _ _
  · exact finish_frees h _ _ _
  · exact evaluate_frees h _

theorem afterEvaluation_frees (h : Running t) (body : BufferedBody) (decision : PolicyDecision)
    (now : Clocks) : Frees t (t.afterEvaluation body decision now) := by
  unfold afterEvaluation
  split
  · exact finish_frees h _ _ _
  · split
    · exact finish_frees h _ _ _
    · next route _ =>
      split
      · next circuitBreaker seconds _ =>
        have hquiet : Quiet t (t.refuse circuitBreaker) :=
          ⟨rfl, rfl, rfl, rfl, rfl, rfl, rfl, rfl⟩
        exact .after_quiet h hquiet h.unsettled (finish_frees (h.quiet hquiet h.unsettled) _ _ _)
      · next circuitBreaker permit _ =>
        have hquiet : Quiet t (t.grant circuitBreaker route.upstream permit) :=
          ⟨rfl, rfl, rfl, rfl, rfl, rfl, rfl, rfl⟩
        have hgranted := h.quiet hquiet h.unsettled
        apply Frees.after_quiet h hquiet h.unsettled
        unfold sendUpstream
        simp only
        split
        · exact catchUpstream_frees hgranted route permit false now
        · exact .of_quiet hgranted ⟨rfl, rfl, rfl, rfl, rfl, rfl, rfl, rfl⟩ rfl

/-! ## The stream of the response -/

/-- A call whose response has a stream around its body. -/
theorem occupies_of_wrapped (h : Tidy t.call) {wrapped : WrappedBody}
    (hwrapped : t.call.wrapped = some wrapped) : t.call.occupies = !wrapped.finished := by
  have ⟨hadmitted, response, hstage⟩ := h.wrapped wrapped hwrapped
  simp only [Call.occupies, hadmitted, hstage, hwrapped, Bool.true_and]

/-- The stream goes on, or it was over before. -/
theorem rewrap_frees (h : Tidy t.call) {wrapped : WrappedBody}
    (hwrapped : t.call.wrapped = some wrapped) {next : WrappedBody}
    (hover : next.finished = wrapped.finished) :
    Frees t { t with call := { t.call with wrapped := some next } } := by
  have ⟨hadmitted, response, hstage⟩ := h.wrapped wrapped hwrapped
  have hoccupies : Call.occupies { t.call with wrapped := some next } = t.call.occupies := by
    rw [occupies_of_wrapped h hwrapped, ← hover]
    simp only [Call.occupies, hadmitted, hstage, Bool.true_and]
  have hleft : Call.left { t.call with wrapped := some next } = t.call.left := by
    unfold Call.left
    rw [hoccupies]
  refine ⟨rfl, rfl, ⟨?_, ?_, ?_, ?_⟩, .inl ⟨hoccupies, rfl, rfl⟩⟩
  · exact h.requestReleased.trans hleft.symm
  · exact h.released.trans hleft.symm
  · exact h.releases.trans (congrArg Bool.toNat hleft.symm)
  · exact fun _ _ => ⟨hadmitted, response, hstage⟩

/-- A callback has seen the body end. -/
theorem over_frees (h : Tidy t.call) {wrapped : WrappedBody}
    (hwrapped : t.call.wrapped = some wrapped) {next : WrappedBody} (hover : next.finished = true) :
    Frees t { t.releaseRequest with
      call := { t.releaseRequest.call with wrapped := some next } } := by
  have ⟨hadmitted, response, hstage⟩ := h.wrapped wrapped hwrapped
  have hoccupies := occupies_of_wrapped h hwrapped
  by_cases hbefore : wrapped.finished = true
  · -- The place was given back by the callback that saw it first.
    have hreleased : t.call.requestReleased = true := by
      rw [h.requestReleased]
      unfold Call.left
      rw [hoccupies, hbefore, hadmitted]
      rfl
    rw [releaseRequest_of_released hreleased]
    exact rewrap_frees h hwrapped (hover.trans hbefore.symm)
  · have hhas : t.call.occupies = true := by
      have hnot : wrapped.finished = false := Bool.not_eq_true _ ▸ hbefore
      rw [hoccupies, hnot]
      rfl
    have hstays : t.releaseRequest.call.stage = .responded response := by
      have ⟨_, _, _, _, _, heq⟩ := t.releaseRequest_eq
      rw [heq]
      exact hstage
    apply Frees.of_release hhas h rfl
    · simp only [Call.occupies, hstays, hover, Bool.not_true, Bool.and_false]
    · exact fun _ _ => ⟨response, hstays⟩

theorem releaseRequest_releaseRequest (t : Turn P) :
    t.releaseRequest.releaseRequest = t.releaseRequest := by
  apply releaseRequest_of_released
  unfold releaseRequest
  split
  · next h => exact h
  · rfl

theorem pulled_frees (h : Tidy t.call) {wrapped : WrappedBody}
    (hwrapped : t.call.wrapped = some wrapped) (outcome : ReadOutcome) :
    Frees t (t.pulled wrapped outcome) := by
  unfold pulled
  simp only
  split
  · rw [releaseRequest_releaseRequest, ite_self]
    exact over_frees h hwrapped rfl
  · exact over_frees h hwrapped rfl
  · split
    · exact rewrap_frees h hwrapped rfl
    · exact over_frees h hwrapped rfl

theorem frees_of_step {a : CallAction} (htidy : Tidy t.call) (h : t.step a = some t') :
    Frees t t' := by
  -- a call that has not settled runs, so that what it holds is still held
  have hrunning : ∀ {stage : CallStage}, t.call.stage = stage → stage.settled = false →
      Running t :=
    fun hstage hunsettled => ⟨hstage ▸ hunsettled, htidy⟩
  cases a with
  | bodyRead stream now =>
    simp only [step] at h
    split at h
    · next hstage =>
      rw [← Option.some.inj h]
      exact startEvaluation_frees (hrunning hstage rfl) stream now
    · cases h
  | verified outcome =>
    simp only [step] at h
    split at h
    · next hstage =>
      rw [← Option.some.inj h]
      exact .of_quiet (hrunning hstage rfl) ⟨rfl, rfl, rfl, rfl, rfl, rfl, rfl, rfl⟩
        (evaluated_unsettled _ _)
    · cases h
  | checked outcome =>
    simp only [step] at h
    split at h
    · next hstage =>
      rw [← Option.some.inj h]
      exact .of_quiet (hrunning hstage rfl) ⟨rfl, rfl, rfl, rfl, rfl, rfl, rfl, rfl⟩
        (evaluated_unsettled _ _)
    · cases h
  | proceed now =>
    simp only [step] at h
    split at h
    · next body decision hstage =>
      rw [← Option.some.inj h]
      have hrun := hrunning hstage rfl
      have hquiet : Quiet t (t.decide decision) := ⟨rfl, rfl, rfl, rfl, rfl, rfl, rfl, rfl⟩
      exact .after_quiet hrun hquiet hrun.unsettled
        (afterEvaluation_frees (hrun.quiet hquiet hrun.unsettled) body decision now)
    · next hstage =>
      rw [← Option.some.inj h]
      exact finish_frees (hrunning hstage rfl) _ _ _
    · cases h
  | fetched outcome now =>
    simp only [step] at h
    split at h
    · next hstage =>
      rw [← Option.some.inj h]
      exact afterFetch_frees (hrunning hstage rfl) _ _ outcome now
    · cases h
  | abort =>
    simp only [step] at h
    rw [← Option.some.inj h]
    exact ⟨rfl, rfl, ⟨htidy.requestReleased, htidy.released, htidy.releases, htidy.wrapped⟩,
      .inl ⟨rfl, rfl, rfl⟩⟩
  -- after the response only the wrapped body is left
  | pull =>
    obtain ⟨wrapped, hwrapped, hnext⟩ := Option.bind_eq_some_iff.mp h
    split at hnext
    · rw [← Option.some.inj hnext]
      exact rewrap_frees htidy hwrapped rfl
    · cases hnext
  | pulled outcome =>
    obtain ⟨wrapped, hwrapped, hnext⟩ := Option.bind_eq_some_iff.mp h
    split at hnext
    · rw [← Option.some.inj hnext]
      exact pulled_frees htidy hwrapped outcome
    · cases hnext
  | cancel =>
    obtain ⟨wrapped, hwrapped, hnext⟩ := Option.bind_eq_some_iff.mp h
    split at hnext
    · rw [← Option.some.inj hnext]
      exact rewrap_frees htidy hwrapped rfl
    · cases hnext
  | canceled =>
    obtain ⟨wrapped, hwrapped, hnext⟩ := Option.bind_eq_some_iff.mp h
    split at hnext
    · rw [← Option.some.inj hnext]
      exact over_frees htidy hwrapped rfl
    · cases hnext

end Turn

/-! ## Runs -/

section

variable {P : Platform} {options : GatewayOptions} {trustedKeys : TrustedKeyring}
  {s s' : GatewayState P}

/-- A call has arrived: it is admitted to a place, or it never has one. -/
structure Joins (gateway : Gateway P) (drained : Bool) (t : Turn P) : Prop where
  tidy : Tidy t.call
  sound : t.gateway.admissionGate.Sound drained
  maximum : t.gateway.admissionGate.maximum = gateway.admissionGate.maximum
  since : t.call.sinceDrain = true → t.call.admitted = false
  active : t.gateway.admissionGate.active =
    gateway.admissionGate.active + (if t.call.occupies then 1 else 0)
  gauge : t.gateway.metrics.activeGatewayRequests =
    gateway.metrics.activeGatewayRequests + (if t.call.occupies then 1 else 0)

theorem joins_handle {gateway : Gateway P} {drained : Bool}
    (h : gateway.admissionGate.Sound drained) (request : IncomingRequest)
    (clientIp : Option String) (requestId : String) (now : Number) :
    Joins gateway drained (gateway.handle request clientIp requestId now drained) := by
  have hfail : ∀ (t : Turn P) status code headers, t.call.stage = .readingBody →
      t.call.admitted = false → Tidy t.call →
      t.gateway.admissionGate = gateway.admissionGate →
      t.gateway.metrics.activeGatewayRequests = gateway.metrics.activeGatewayRequests →
      Joins gateway drained (t.fail now status code headers .error none) := by
    intro t status code headers hstage hadmitted htidy hgate hgauge
    have hrunning : Turn.Running t := ⟨by rw [hstage]; rfl, htidy⟩
    have hfrees : Turn.Frees t (t.fail now status code headers .error none) :=
      Turn.finish_frees hrunning _ _ _
    have hnone : t.call.occupies = false := hrunning.occupies.trans hadmitted
    rcases hfrees.gate with ⟨hsame, hkept, hgauged⟩ | ⟨hoccupies, _⟩
    · have hplace := hsame.trans hnone
      refine ⟨hfrees.tidy, ?_, ?_, fun _ => hfrees.admitted.trans hadmitted, ?_, ?_⟩
      · rw [hkept, hgate]
        exact h
      · rw [hkept, hgate]
      · rw [hplace, hkept, hgate]
        exact (add_zero _).symm
      · rw [hplace, hgauged, hgauge]
        exact (add_zero _).symm
    · rw [hnone] at hoccupies
      cases hoccupies
  have hnone : ∀ wrapped : WrappedBody, none = some wrapped →
      false = true ∧ ∃ response, CallStage.readingBody = .responded response :=
    fun _ hsome => by cases hsome
  unfold Gateway.handle
  simp only
  split
  · exact hfail _ 503 "gateway_draining" _ rfl rfl ⟨rfl, rfl, rfl, hnone⟩ rfl rfl
  · exact hfail _ 503 "gateway_overloaded" _ rfl rfl ⟨rfl, rfl, rfl, hnone⟩ rfl rfl
  · next admissionGate haccepted =>
    have ⟨hsound, hactive, hmaximum, hundrained⟩ := h.tryAcquire haccepted
    refine ⟨⟨rfl, rfl, rfl, (fun _ hsome => by cases hsome)⟩, hsound, hmaximum, ?_, hactive, rfl⟩
    intro hsince
    exact absurd (hundrained.symm.trans hsince) Bool.false_ne_true

/-- The count of the gate and the gauge are the number of calls that occupy a place. -/
structure Placed (options : GatewayOptions) (s : GatewayState P) : Prop where
  gate : s.gateway.admissionGate.Sound s.drained
  maximum : (s.gateway.admissionGate.maximum : Number) =
    options.maxInFlightRequests.getD Gateway.DEFAULT_MAX_IN_FLIGHT_REQUESTS
  active : s.gateway.admissionGate.active = s.calls.countP Call.occupies
  gauge : s.gateway.metrics.activeGatewayRequests = s.gateway.admissionGate.active
  tidy : ∀ call ∈ s.calls, Tidy call
  since : ∀ call ∈ s.calls, call.sinceDrain = true → call.admitted = false

theorem placed_initial {gateway : Gateway P} (h : Gateway.new P options = .ok gateway) :
    Placed options (Gateway.initial gateway) := by
  have hfresh := Gateway.new_ok h
  have hgate := hfresh.admissionGate
  refine ⟨?_, hfresh.maximum, ?_, ?_, ?_, ?_⟩
  · show gateway.admissionGate.Sound false
    rw [hgate]
    refine ⟨le_refl _, Int.natCast_nonneg _, rfl, ?_, ?_, ?_, ?_⟩
    · intro place promise hpromise
      cases hpromise
    · exact fun _ promise hpromise => by cases hpromise
    · exact fun _ promise hpromise => by cases hpromise
    · exact fun _ promise hpromise => by cases hpromise
  · show gateway.admissionGate.active = _
    rw [hgate]
    rfl
  · show gateway.metrics.activeGatewayRequests = gateway.admissionGate.active
    rw [hfresh.metrics, hgate]
    rfl
  · exact fun call hcall => by cases hcall
  · exact fun call hcall => by cases hcall

theorem Placed.joins (h : Placed options s) {t : Turn P}
    (hjoins : Joins s.gateway s.drained t) :
    Placed options { s with gateway := t.gateway, calls := s.calls ++ [t.call] } := by
  refine ⟨hjoins.sound, ?_, ?_, ?_, ?_, ?_⟩
  · show (t.gateway.admissionGate.maximum : Number) = _
    rw [hjoins.maximum]
    exact h.maximum
  · show t.gateway.admissionGate.active = ((s.calls ++ [t.call]).countP Call.occupies : ℕ)
    rw [hjoins.active, h.active, List.countP_append, List.countP_singleton]
    split <;> rfl
  · show t.gateway.metrics.activeGatewayRequests = t.gateway.admissionGate.active
    rw [hjoins.gauge, hjoins.active, h.gauge]
  · intro call hcall
    rcases List.mem_append.mp hcall with hold | hnew
    · exact h.tidy call hold
    · rw [List.mem_singleton.mp hnew]
      exact hjoins.tidy
  · intro call hcall
    rcases List.mem_append.mp hcall with hold | hnew
    · exact h.since call hold
    · rw [List.mem_singleton.mp hnew]
      exact hjoins.since

theorem Placed.turn (h : Placed options s) {index : ℕ} {call : Call} {t : Turn P}
    (hcall : s.calls[index]? = some call)
    (hfrees : Turn.Frees { gateway := s.gateway, call } t) :
    Placed options { s with gateway := t.gateway, calls := s.calls.set index t.call } := by
  have hmem := List.mem_of_getElem? hcall
  have ⟨hindex, hget⟩ := List.getElem?_eq_some_iff.mp hcall
  have hcount := List.countP_set (p := Call.occupies) (a := t.call) hindex
  rw [hget] at hcount
  have htidy : ∀ other ∈ s.calls.set index t.call, Tidy other := by
    intro other hother
    rcases List.mem_or_eq_of_mem_set hother with hold | hnew
    · exact h.tidy other hold
    · rw [hnew]
      exact hfrees.tidy
  have hsince : ∀ other ∈ s.calls.set index t.call, other.sinceDrain = true →
      other.admitted = false := by
    intro other hother
    rcases List.mem_or_eq_of_mem_set hother with hold | hnew
    · exact h.since other hold
    · rw [hnew, hfrees.sinceDrain, hfrees.admitted]
      exact h.since call hmem
  have hactive := h.active
  have hgauge := h.gauge
  -- the call keeps its place, or it gives it back and the gauge goes down by one
  rcases hfrees.gate with ⟨hsame, hkept, hgauged⟩ | ⟨hbefore, hafter, hreleased, hgauged⟩
  · have hsame : t.call.occupies = call.occupies := hsame
    have hkept : t.gateway.admissionGate = s.gateway.admissionGate := hkept
    have hgauged : t.gateway.metrics.activeGatewayRequests =
      s.gateway.metrics.activeGatewayRequests := hgauged
    refine ⟨?_, ?_, ?_, ?_, htidy, hsince⟩
    · show t.gateway.admissionGate.Sound s.drained
      rw [hkept]
      exact h.gate
    · show (t.gateway.admissionGate.maximum : Number) = _
      rw [hkept]
      exact h.maximum
    · show t.gateway.admissionGate.active = ((s.calls.set index t.call).countP Call.occupies : ℕ)
      have hpositive : call.occupies = true → 0 < s.calls.countP Call.occupies :=
        fun hoccupies => List.countP_pos_iff.mpr ⟨call, hmem, hoccupies⟩
      rw [hkept, hactive, hcount, hsame]
      by_cases hoccupies : call.occupies = true
      · have hpos := hpositive hoccupies
        rw [if_pos hoccupies]
        omega
      · rw [if_neg hoccupies]
        omega
    · show t.gateway.metrics.activeGatewayRequests = t.gateway.admissionGate.active
      rw [hgauged, hkept, hgauge]
  · have hbefore : call.occupies = true := hbefore
    have hreleased : t.gateway.admissionGate = s.gateway.admissionGate.release := hreleased
    have hgauged : t.gateway.metrics.activeGatewayRequests =
      max 0 (s.gateway.metrics.activeGatewayRequests - 1) := hgauged
    have hpos : 0 < s.calls.countP Call.occupies := List.countP_pos_iff.mpr ⟨call, hmem, hbefore⟩
    have ⟨hsound, hless, hmaximum⟩ := h.gate.release (by omega)
    refine ⟨?_, ?_, ?_, ?_, htidy, hsince⟩
    · show t.gateway.admissionGate.Sound s.drained
      rw [hreleased]
      exact hsound
    · show (t.gateway.admissionGate.maximum : Number) = _
      rw [hreleased, hmaximum]
      exact h.maximum
    · show t.gateway.admissionGate.active = ((s.calls.set index t.call).countP Call.occupies : ℕ)
      rw [hreleased, hless, hactive, hcount, hafter, if_pos hbefore, if_neg Bool.false_ne_true]
      omega
    · show t.gateway.metrics.activeGatewayRequests = t.gateway.admissionGate.active
      rw [hgauged, hreleased, hless, hgauge]
      omega

theorem beginDrain_eq (gateway : Gateway P) :
    gateway.beginDrain.admissionGate = gateway.admissionGate.beginDrain.2 ∧
      gateway.beginDrain.metrics.activeGatewayRequests =
        gateway.metrics.activeGatewayRequests := by
  unfold Gateway.beginDrain
  split
  · next h => exact ⟨by rw [h], rfl⟩
  · next h => exact ⟨by rw [h], rfl⟩

theorem Placed.step (h : Placed options s) {a : GatewayAction}
    (hstep : Gateway.step trustedKeys s a = some s') : Placed options s' := by
  cases a with
  | handle request clientIp requestId now =>
    rw [← Option.some.inj hstep]
    exact h.joins (joins_handle h.gate request clientIp requestId now)
  | turn index action =>
    have ⟨call, hcall, hnext⟩ := Option.bind_eq_some_iff.mp hstep
    have ⟨t, ht, heq⟩ := Option.bind_eq_some_iff.mp hnext
    rw [← Option.some.inj heq]
    exact h.turn hcall (Turn.frees_of_step (h.tidy call (List.mem_of_getElem? hcall)) ht)
  | beginDrain =>
    rw [← Option.some.inj hstep]
    have ⟨hsound, hactive, hmaximum⟩ := h.gate.beginDrain
    have ⟨hgate, hgauge⟩ := beginDrain_eq s.gateway
    refine ⟨?_, ?_, ?_, ?_, h.tidy, h.since⟩
    · show s.gateway.beginDrain.admissionGate.Sound true
      rw [hgate]
      exact hsound
    · show (s.gateway.beginDrain.admissionGate.maximum : Number) = _
      rw [hgate, hmaximum]
      exact h.maximum
    · show s.gateway.beginDrain.admissionGate.active = _
      rw [hgate, hactive]
      exact h.active
    · show s.gateway.beginDrain.metrics.activeGatewayRequests =
        s.gateway.beginDrain.admissionGate.active
      rw [hgauge, hgate, hactive]
      exact h.gauge
  | waitForIdle =>
    rw [← Option.some.inj hstep]
    have ⟨hsound, hactive, hmaximum⟩ := h.gate.waitForIdle
    refine ⟨hsound, ?_, ?_, ?_, h.tidy, h.since⟩
    · show (AdmissionGate.maximum _ : Number) = _
      rw [hmaximum]
      exact h.maximum
    · exact hactive.trans h.active
    · exact h.gauge.trans hactive.symm
  | install value =>
    simp only [Gateway.step] at hstep
    split at hstep
    · cases hstep
    · rw [← Option.some.inj hstep]
      exact ⟨h.gate, h.maximum, h.active, h.gauge, h.tidy, h.since⟩

theorem placed_of_reachable (h : (Gateway.machine P options trustedKeys).Reachable s) :
    Placed options s := by
  refine h.invariant (I := Placed options) (fun s hinit => ?_) fun s a s' hI hstep => ?_
  · have ⟨gateway, hnew, heq⟩ := hinit
    rw [heq]
    exact placed_initial hnew
  · exact hI.step hstep

/-- The count of the admission gate is the number of calls that occupy a place, and so is the
gauge; it is between zero and the configured maximum. A call has given its place back once when
it does not occupy it any more, and never before. Nobody is admitted after the drain has begun,
and the promises of `waitForIdle` from then on are resolved exactly when the count is zero. -/
theorem admission_exact (h : (Gateway.machine P options trustedKeys).Reachable s) :
    s.gateway.admissionGate.active = (s.calls.filter (·.occupies)).length ∧
      0 ≤ s.gateway.admissionGate.active ∧
      (s.gateway.admissionGate.active : Number) ≤
        options.maxInFlightRequests.getD Gateway.DEFAULT_MAX_IN_FLIGHT_REQUESTS ∧
      s.gateway.metrics.activeGatewayRequests = s.gateway.admissionGate.active ∧
      (∀ call ∈ s.calls, call.history.releases = if call.admitted && !call.occupies then 1 else 0) ∧
      (∀ call ∈ s.calls, call.sinceDrain = true → call.admitted = false) ∧
      ∀ promise ∈ s.gateway.admissionGate.promises, promise.sinceDrain = true →
        (promise.resolved = true ↔ s.gateway.admissionGate.active = 0) := by
  have hplaced := placed_of_reachable h
  refine ⟨?_, hplaced.gate.nonneg, ?_, hplaced.gauge, ?_, hplaced.since, ?_⟩
  · rw [hplaced.active, List.countP_eq_length_filter]
  · rw [← hplaced.maximum]
    exact_mod_cast hplaced.gate.bounded
  · intro call hcall
    rw [(hplaced.tidy call hcall).releases]
    unfold Call.left
    cases call.admitted && !call.occupies <;> rfl
  · exact fun promise hpromise hsince => hplaced.gate.resolved_iff hpromise hsince

end

/-! ## A drain -/

namespace Orders

open Delivery.Orders

/-- The drain begins while a client reads its response, and the next request is turned away. The
client cancels while a read is pending, and both callbacks release the request. -/
def draining : List GatewayAction :=
  sending 0 1000 ++ answering ++
    [.turn 0 .pull, .beginDrain, .waitForIdle,
      .handle (request "/v1/orders/42" printable_order) none "request-2" 10,
      .turn 0 .cancel, .turn 0 (.pulled .chunk), .turn 0 .canceled]

/-- The count, the promises and the calls with their releases. -/
def standing (s : GatewayState platform) : ℤ × List IdlePromise × List (Bool × Bool × ℕ) :=
  (s.gateway.admissionGate.active, s.gateway.admissionGate.promises,
    s.calls.map fun call => (call.admitted, call.occupies, call.history.releases))

theorem admission_exact_orders :
    ∃ s, (Gateway.machine platform options keyring).run serving draining = some s ∧
      standing s = (0, [{ resolved := true, sinceDrain := true }],
        [(true, false, 1), (false, false, 0)]) ∧
      s.gateway.admissionGate.active = (s.calls.filter (·.occupies)).length ∧
      0 ≤ s.gateway.admissionGate.active ∧
      (s.gateway.admissionGate.active : Number) ≤
        options.maxInFlightRequests.getD Gateway.DEFAULT_MAX_IN_FLIGHT_REQUESTS ∧
      s.gateway.metrics.activeGatewayRequests = s.gateway.admissionGate.active ∧
      (∀ call ∈ s.calls,
        call.history.releases = if call.admitted && !call.occupies then 1 else 0) ∧
      (∀ call ∈ s.calls, call.sinceDrain = true → call.admitted = false) ∧
      ∀ promise ∈ s.gateway.admissionGate.promises, promise.sinceDrain = true →
        (promise.resolved = true ↔ s.gateway.admissionGate.active = 0) := by
  have hrun : ((Gateway.machine platform options keyring).run serving draining).map standing =
      some (0, [{ resolved := true, sinceDrain := true }],
        [(true, false, 1), (false, false, 0)]) := by
    decide +kernel
  have ⟨s, hs, hstanding⟩ := Option.map_eq_some_iff.mp hrun
  exact ⟨s, hs, hstanding, admission_exact (serving_reachable.of_run _ hs)⟩

end Orders

end ShieldWard.Edge
