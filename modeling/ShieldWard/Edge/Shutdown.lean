import ShieldWard.Edge.AdmissionTheorems

/-!
# Graceful shutdown

`edge/src/shutdown.ts` over the gateway that it drains, with the handlers of `edge/src/index.ts`
that call it and the readiness of `edge/src/app.ts`. The signal, the callback of the server, the
timer and the requests still in flight come in any order.
-/

namespace ShieldWard.Edge

open Ecma

/-! ## The shutdown -/

/-- What the race of `performGracefulShutdown` settles with. -/
inductive ShutdownRaceResult
  | completed (serverError : Option String)
  | failed (error : String)
  | timedOut
deriving DecidableEq

def ShutdownRaceResult.forced : ShutdownRaceResult → Bool
  | .timedOut => true
  | _ => false

/-- The errors up to the call of `stopDependencies`; the timer may find that
`closeAllConnections` throws. -/
def ShutdownRaceResult.errors (result : ShutdownRaceResult) (closeError : Option String) :
    List String :=
  match result with
  | .completed serverError => serverError.toList
  | .failed error => [error]
  | .timedOut => closeError.toList

def validateGracePeriod (value : Number) : Except String Unit :=
  if !isSafeInteger value || value ≤ 0 then
    .error "shutdown grace period must be a positive integer"
  else .ok ()

/-- Where the call of `performGracefulShutdown` stands. -/
inductive ShutdownStage
  /-- No signal has come. -/
  | running
  /-- The grace period is refused. -/
  | refused
  /-- Awaits the race. The promise of `waitForIdle` is named by its place, and the server may
  have closed. -/
  | draining (idle : ℕ) (serverClosed : Option (Option String))
  /-- Awaits `stopDependencies`. -/
  | stopping (result : ShutdownRaceResult) (errors : List String)
  /-- It has returned whether the shutdown was forced, or thrown its errors. -/
  | settled (result : ShutdownRaceResult) (outcome : Except (List String) Bool)

/-- Who has called `stopDependencies`. -/
inductive StopCause
  | shutdown (result : ShutdownRaceResult)
  | serverError
deriving DecidableEq

structure ShutdownState (P : Platform) where
  gateway : GatewayState P
  gracePeriodMs : Number
  stage : ShutdownStage
  stops : List StopCause

inductive ShutdownAction
  | gateway (action : GatewayAction)
  /-- A signal; what `server.close` throws. -/
  | signal (thrown : Option String)
  /-- The callback of `server.close`. -/
  | serverClosed (error : Option String)
  /-- The gateway is idle and the server closed. -/
  | raceCompleted
  /-- The timer fires; what `closeAllConnections` throws. -/
  | timeout (closeError : Option String)
  /-- `stopDependencies` settles. -/
  | dependenciesStopped (error : Option String)
  /-- The server emits an error. -/
  | serverError

namespace ShutdownState

variable {P : Platform}

/-- The gateway after `beginDrain`. -/
def drained (s : ShutdownState P) : GatewayState P :=
  { s.gateway with gateway := s.gateway.gateway.beginDrain, drained := true }

/-- The gateway after `beginDrain` and `waitForIdle`. -/
def awaited (s : ShutdownState P) : GatewayState P :=
  let admissionGate := s.drained.gateway.admissionGate.waitForIdle true
  { s.drained with gateway := { s.drained.gateway with admissionGate } }

/-- The promise that the shutdown awaits is resolved. -/
def idle (s : ShutdownState P) (place : ℕ) : Bool :=
  (s.gateway.gateway.admissionGate.promises[place]?).any (·.resolved)

/-- After the race, up to the await of `stopDependencies`. -/
def stop (s : ShutdownState P) (result : ShutdownRaceResult) (closeError : Option String) :
    ShutdownState P :=
  { s with
    stage := .stopping result (result.errors closeError)
    stops := s.stops ++ [.shutdown result] }

/-- After `stopDependencies`. -/
def settle (s : ShutdownState P) (result : ShutdownRaceResult) (errors : List String) :
    ShutdownState P :=
  { s with stage := .settled result (if errors = [] then .ok result.forced else .error errors) }

def step (trustedKeys : TrustedKeyring) (s : ShutdownState P) :
    ShutdownAction → Option (ShutdownState P)
  | .gateway action =>
    (Gateway.step trustedKeys s.gateway action).map fun gateway => { s with gateway }
  | .signal thrown =>
    match s.stage with
    | .running =>
      match validateGracePeriod s.gracePeriodMs with
      | .error _ => some { s with stage := .refused }
      | .ok () =>
        let place := s.drained.gateway.admissionGate.promises.length
        some { s with gateway := s.awaited, stage := .draining place (thrown.map some) }
    -- `shuttingDown` is set
    | _ => some s
  | .serverClosed error =>
    match s.stage with
    | .running | .refused => none
    | .draining place none => some { s with stage := .draining place (some error) }
    -- the promise is resolved already, or nobody awaits it any more
    | _ => some s
  | .raceCompleted =>
    match s.stage with
    | .draining place (some error) =>
      if s.idle place then some (s.stop (.completed error) none) else none
    | _ => none
  | .timeout closeError =>
    match s.stage with
    | .draining _ _ => some (s.stop .timedOut closeError)
    | _ => none
  | .dependenciesStopped error =>
    match s.stage with
    | .stopping result errors => some (s.settle result (errors ++ error.toList))
    | _ => none
  | .serverError =>
    if .serverError ∈ s.stops then none
    else some { s with gateway := s.drained, stops := s.stops ++ [.serverError] }

/-- `/readyz` of the application answers that the edge is ready. -/
def readyz (s : ShutdownState P) (rateLimiterReady : Bool) : Bool :=
  s.gateway.gateway.configuration.isSome && rateLimiterReady &&
    s.gateway.gateway.admissionGate.accepting

def machine (P : Platform) (options : GatewayOptions) (trustedKeys : TrustedKeyring)
    (gracePeriodMs : Number) : System.Machine (ShutdownState P) ShutdownAction where
  init s := (Gateway.machine P options trustedKeys).init s.gateway ∧
    s.gracePeriodMs = gracePeriodMs ∧ s.stage = .running ∧ s.stops = []
  step := step trustedKeys

end ShutdownState

/-! ## Promises of `waitForIdle` -/

/-- The promises of a gate remain, in their places, and the resolved ones stay resolved. -/
def AdmissionGate.Carries (gate gate' : AdmissionGate) : Prop :=
  ∀ (place : ℕ) (promise : IdlePromise), gate.promises[place]? = some promise →
    ∃ promise' : IdlePromise, gate'.promises[place]? = some promise' ∧
      promise'.sinceDrain = promise.sinceDrain ∧
      (promise.resolved = true → promise'.resolved = true)

namespace AdmissionGate

variable {gate gate' : AdmissionGate}

theorem Carries.of_eq (h : gate'.promises = gate.promises) : gate.Carries gate' := by
  intro place promise hpromise
  exact ⟨promise, by rw [h, hpromise], rfl, id⟩

theorem carries_release (gate : AdmissionGate) : gate.Carries gate.release := by
  unfold AdmissionGate.release
  simp only
  split
  · intro place promise hpromise
    -- the waiters are resolved, the others stay as they are
    refine ⟨if place ∈ gate.idleWaiters then { promise with resolved := true } else promise,
      ?_, ?_, ?_⟩
    · show (gate.idleWaiters.foldl resolve gate.promises)[place]? = _
      rw [getElem?_resolve, hpromise]
      rfl
    · split <;> rfl
    · intro hresolved
      split
      · rfl
      · exact hresolved
  · exact Carries.of_eq rfl

theorem carries_beginDrain (gate : AdmissionGate) : gate.Carries gate.beginDrain.2 := by
  apply Carries.of_eq
  unfold AdmissionGate.beginDrain
  split <;> rfl

theorem carries_waitForIdle (gate : AdmissionGate) (sinceDrain : Bool) :
    gate.Carries (gate.waitForIdle sinceDrain) := by
  intro place promise hpromise
  have hplace : place < gate.promises.length := (List.getElem?_eq_some_iff.mp hpromise).1
  refine ⟨promise, ?_, rfl, id⟩
  unfold AdmissionGate.waitForIdle
  split
  · show (gate.promises ++ _)[place]? = _
    rw [List.getElem?_append_left hplace, hpromise]
  · show (gate.promises ++ _)[place]? = _
    rw [List.getElem?_append_left hplace, hpromise]

/-- The promise that is asked for has the next place. -/
theorem waitForIdle_place (gate : AdmissionGate) :
    ∃ promise, (gate.waitForIdle true).promises[gate.promises.length]? = some promise ∧
      promise.sinceDrain = true := by
  unfold AdmissionGate.waitForIdle
  split
  · exact ⟨_, List.getElem?_concat_length, rfl⟩
  · exact ⟨_, List.getElem?_concat_length, rfl⟩

end AdmissionGate

section

variable {P : Platform} {options : GatewayOptions} {trustedKeys : TrustedKeyring}

/-- A turn carries the promises. -/
theorem Turn.Frees.carries {t t' : Turn P} (h : Frees t t') :
    t.gateway.admissionGate.Carries t'.gateway.admissionGate := by
  rcases h.gate with ⟨_, hkept, _⟩ | ⟨_, _, hreleased, _⟩
  · rw [hkept]
    exact AdmissionGate.Carries.of_eq rfl
  · rw [hreleased]
    exact AdmissionGate.carries_release _

theorem carries_handle (gateway : Gateway P) (request : IncomingRequest)
    (clientIp : Option String) (requestId : String) (now : Number) (sinceDrain : Bool) :
    gateway.admissionGate.Carries
      (gateway.handle request clientIp requestId now sinceDrain).gateway.admissionGate := by
  have hfail : ∀ (t : Turn P) status code headers, t.call.stage = .readingBody → Tidy t.call →
      t.gateway.admissionGate = gateway.admissionGate →
      gateway.admissionGate.Carries
        (t.fail now status code headers .error none).gateway.admissionGate := by
    intro t status code headers hstage htidy hgate
    have hrunning : Turn.Running t := ⟨by rw [hstage]; rfl, htidy⟩
    have hfrees : Turn.Frees t (t.fail now status code headers .error none) :=
      Turn.finish_frees hrunning _ _ _
    rw [← hgate]
    exact hfrees.carries
  have hnone : ∀ wrapped : WrappedBody, none = some wrapped →
      false = true ∧ ∃ response, CallStage.readingBody = .responded response :=
    fun _ hsome => by cases hsome
  unfold Gateway.handle
  simp only
  split
  · exact hfail _ 503 "gateway_draining" _ rfl ⟨rfl, rfl, rfl, hnone⟩ rfl
  · exact hfail _ 503 "gateway_overloaded" _ rfl ⟨rfl, rfl, rfl, hnone⟩ rfl
  · next admissionGate haccepted =>
    apply AdmissionGate.Carries.of_eq
    show admissionGate.promises = gateway.admissionGate.promises
    unfold AdmissionGate.tryAcquire at haccepted
    split at haccepted
    · cases haccepted
    · split at haccepted
      · cases haccepted
      · rw [← AdmissionResult.accepted.inj haccepted]

/-- A step of the gateway carries the promises, and a drain goes on. -/
theorem carries_of_step {s s' : GatewayState P} (hplaced : Placed options s) {a : GatewayAction}
    (h : Gateway.step trustedKeys s a = some s') :
    s.gateway.admissionGate.Carries s'.gateway.admissionGate ∧
      (s.drained = true → s'.drained = true) := by
  cases a with
  | handle request clientIp requestId now =>
    rw [← Option.some.inj h]
    exact ⟨carries_handle _ _ _ _ _ _, id⟩
  | turn index action =>
    obtain ⟨call, hcall, hnext⟩ := Option.bind_eq_some_iff.mp h
    obtain ⟨t, ht, heq⟩ := Option.bind_eq_some_iff.mp hnext
    rw [← Option.some.inj heq]
    exact ⟨(Turn.frees_of_step (hplaced.tidy call (List.mem_of_getElem? hcall)) ht).carries, id⟩
  | beginDrain =>
    rw [← Option.some.inj h]
    refine ⟨?_, fun _ => rfl⟩
    show s.gateway.admissionGate.Carries s.gateway.beginDrain.admissionGate
    rw [(beginDrain_eq s.gateway).1]
    exact AdmissionGate.carries_beginDrain _
  | waitForIdle =>
    rw [← Option.some.inj h]
    exact ⟨AdmissionGate.carries_waitForIdle _ _, id⟩
  | install value =>
    simp only [Gateway.step] at h
    split at h
    · cases h
    · rw [← Option.some.inj h]
      exact ⟨AdmissionGate.Carries.of_eq rfl, id⟩

/-- A promise since the drain is resolved. -/
def Emptied (s : GatewayState P) : Prop :=
  ∃ promise ∈ s.gateway.admissionGate.promises,
    promise.sinceDrain = true ∧ promise.resolved = true

theorem Emptied.carries {s s' : GatewayState P} (h : Emptied s)
    (hcarries : s.gateway.admissionGate.Carries s'.gateway.admissionGate) : Emptied s' := by
  obtain ⟨promise, hpromise, hsince, hresolved⟩ := h
  obtain ⟨place, hplace⟩ := List.mem_iff_getElem?.mp hpromise
  obtain ⟨promise', hplace', hsince', hresolved'⟩ := hcarries place promise hplace
  exact ⟨promise', List.mem_of_getElem? hplace', hsince'.trans hsince, hresolved' hresolved⟩

/-- No call occupies a place any more. -/
theorem Emptied.left {s : GatewayState P} (h : Emptied s) (hplaced : Placed options s) :
    s.gateway.admissionGate.active = 0 ∧
      ∀ call ∈ s.calls, call.occupies = false ∧
        (call.admitted = true → call.history.releases = 1) := by
  obtain ⟨promise, hpromise, hsince, hresolved⟩ := h
  have hidle := (hplaced.gate.resolved_iff hpromise hsince).mp hresolved
  refine ⟨hidle, ?_⟩
  have hcount : s.calls.countP Call.occupies = 0 := by
    have hactive := hplaced.active
    omega
  intro call hcall
  have hvacant := Bool.not_eq_true _ ▸ List.countP_eq_zero.mp hcount call hcall
  refine ⟨hvacant, fun hadmitted => ?_⟩
  rw [(hplaced.tidy call hcall).releases, Call.left, hadmitted, hvacant]
  rfl

end

/-! ## The stages -/

/-- The race of the shutdown that has called `stopDependencies`. -/
def StopCause.result : StopCause → Option ShutdownRaceResult
  | .shutdown result => some result
  | .serverError => none

namespace ShutdownState

variable {P : Platform} {options : GatewayOptions} {trustedKeys : TrustedKeyring}
  {gracePeriodMs : Number} {s s' : ShutdownState P}

/-- `stopDependencies` has been called after the race with this result. -/
structure Stopped (gateway : GatewayState P) (stops : List StopCause)
    (result : ShutdownRaceResult) : Prop where
  drained : gateway.drained = true
  once : stops.filterMap StopCause.result = [result]
  emptied : ∀ error, result = .completed error → Emptied gateway

/-- What holds at a stage. -/
def StageHolds (gateway : GatewayState P) (stops : List StopCause) : ShutdownStage → Prop
  | .running | .refused => stops.filterMap StopCause.result = []
  | .draining place _ =>
    gateway.drained = true ∧ stops.filterMap StopCause.result = [] ∧
      ∃ promise : IdlePromise, gateway.gateway.admissionGate.promises[place]? = some promise ∧
        promise.sinceDrain = true
  | .stopping result errors =>
    Stopped gateway stops result ∧
      (errors = [] → result = .completed none ∨ result = .timedOut)
  | .settled result outcome =>
    Stopped gateway stops result ∧ ∀ forced, outcome = .ok forced →
      forced = false ∧ result = .completed none ∨ forced = true ∧ result = .timedOut

structure Sound (options : GatewayOptions) (s : ShutdownState P) : Prop where
  placed : Placed options s.gateway
  stage : StageHolds s.gateway s.stops s.stage

theorem Stopped.carries {gateway gateway' : GatewayState P} {stops : List StopCause}
    {result : ShutdownRaceResult} (h : Stopped gateway stops result)
    (hcarries : gateway.gateway.admissionGate.Carries gateway'.gateway.admissionGate)
    (hdrained : gateway.drained = true → gateway'.drained = true) :
    Stopped gateway' stops result where
  drained := hdrained h.drained
  once := h.once
  emptied error heq := (h.emptied error heq).carries hcarries

/-- What the gateway does leaves the stage as it is. -/
theorem StageHolds.carries {gateway gateway' : GatewayState P} {stops stops' : List StopCause}
    {stage : ShutdownStage} (h : StageHolds gateway stops stage)
    (hcarries : gateway.gateway.admissionGate.Carries gateway'.gateway.admissionGate)
    (hdrained : gateway.drained = true → gateway'.drained = true)
    (hstops : stops'.filterMap StopCause.result = stops.filterMap StopCause.result) :
    StageHolds gateway' stops' stage := by
  have hstopped : ∀ result, Stopped gateway stops result → Stopped gateway' stops' result := by
    intro result hresult
    have hnext := hresult.carries hcarries hdrained
    exact ⟨hnext.drained, hstops.trans hnext.once, hnext.emptied⟩
  cases stage with
  | running => exact hstops.trans h
  | refused => exact hstops.trans h
  | draining place serverClosed =>
    obtain ⟨hbefore, hnone, promise, hpromise, hsince⟩ := h
    obtain ⟨promise', hpromise', hsince', _⟩ := hcarries place promise hpromise
    exact ⟨hdrained hbefore, hstops.trans hnone, promise', hpromise', hsince'.trans hsince⟩
  | stopping result errors => exact ⟨hstopped result h.1, h.2⟩
  | settled result outcome => exact ⟨hstopped result h.1, h.2⟩

theorem step_beginDrain (trustedKeys : TrustedKeyring) (s : ShutdownState P) :
    Gateway.step trustedKeys s.gateway .beginDrain = some s.drained := rfl

theorem step_waitForIdle (trustedKeys : TrustedKeyring) (s : ShutdownState P) :
    Gateway.step trustedKeys s.drained .waitForIdle = some s.awaited := rfl

theorem Sound.signal (h : Sound options s) (thrown : Option String)
    (hstep : step trustedKeys s (.signal thrown) = some s') : Sound options s' := by
  have hstage := h.stage
  unfold step at hstep
  simp only at hstep
  split at hstep
  · next hrunning =>
    rw [hrunning] at hstage
    split at hstep
    · rw [← Option.some.inj hstep]
      exact ⟨h.placed, hstage⟩
    · rw [← Option.some.inj hstep]
      have hdrained := h.placed.step (step_beginDrain trustedKeys s)
      have hawaited := hdrained.step (step_waitForIdle trustedKeys s)
      exact ⟨hawaited, rfl, hstage, AdmissionGate.waitForIdle_place _⟩
  · rw [← Option.some.inj hstep]
    exact h

theorem Sound.stop (h : Sound options s) {place : ℕ} {serverClosed : Option (Option String)}
    (hstage : s.stage = .draining place serverClosed) (result : ShutdownRaceResult)
    (closeError : Option String)
    (hidle : ∀ error, result = .completed error → s.idle place = true)
    (herrors : result.errors closeError = [] → result = .completed none ∨ result = .timedOut) :
    Sound options (s.stop result closeError) := by
  have hholds := h.stage
  rw [hstage] at hholds
  obtain ⟨hdrained, hnone, promise, hpromise, hsince⟩ := hholds
  refine ⟨h.placed, ⟨hdrained, ?_, ?_⟩, herrors⟩
  · show (s.stops ++ [StopCause.shutdown result]).filterMap StopCause.result = [result]
    rw [List.filterMap_append, hnone]
    rfl
  · intro error heq
    have hresolved := hidle error heq
    unfold idle at hresolved
    rw [hpromise] at hresolved
    exact ⟨promise, List.mem_of_getElem? hpromise, hsince, hresolved⟩

/-- Every step keeps what holds at the stages. -/
theorem Sound.step (h : Sound options s) {a : ShutdownAction}
    (hstep : step trustedKeys s a = some s') : Sound options s' := by
  have hstage := h.stage
  cases a with
  | gateway action =>
    obtain ⟨gateway, hgateway, heq⟩ := Option.map_eq_some_iff.mp hstep
    obtain ⟨hcarries, hdrained⟩ := carries_of_step h.placed hgateway
    rw [← heq]
    exact ⟨h.placed.step hgateway, hstage.carries hcarries hdrained rfl⟩
  | signal thrown => exact h.signal thrown hstep
  | serverClosed error =>
    unfold ShutdownState.step at hstep
    simp only at hstep
    split at hstep
    · cases hstep
    · cases hstep
    · next place hdraining =>
      rw [hdraining] at hstage
      rw [← Option.some.inj hstep]
      exact ⟨h.placed, hstage⟩
    · rw [← Option.some.inj hstep]
      exact h
  | raceCompleted =>
    unfold ShutdownState.step at hstep
    simp only at hstep
    split at hstep
    · next place error hdraining =>
      split at hstep
      · next hidle =>
        rw [← Option.some.inj hstep]
        apply h.stop hdraining
        · exact fun _ _ => hidle
        · intro hnone
          left
          rw [Option.toList_eq_nil_iff.mp hnone]
      · cases hstep
    · cases hstep
  | timeout closeError =>
    unfold ShutdownState.step at hstep
    simp only at hstep
    split at hstep
    · next place serverClosed hdraining =>
      rw [← Option.some.inj hstep]
      exact h.stop hdraining _ _ (fun _ heq => by cases heq) fun _ => .inr rfl
    · cases hstep
  | dependenciesStopped error =>
    unfold ShutdownState.step at hstep
    simp only at hstep
    split at hstep
    · next result errors hstopping =>
      rw [hstopping] at hstage
      rw [← Option.some.inj hstep]
      refine ⟨h.placed, hstage.1, ?_⟩
      intro forced hforced
      -- without errors the race has completed or the timer has fired
      split at hforced
      · next hnone =>
        rw [← Except.ok.inj hforced]
        rcases hstage.2 (List.append_eq_nil_iff.mp hnone).1 with hresult | hresult
        · exact .inl ⟨by rw [hresult]; rfl, hresult⟩
        · exact .inr ⟨by rw [hresult]; rfl, hresult⟩
      · cases hforced
    · cases hstep
  | serverError =>
    unfold ShutdownState.step at hstep
    simp only at hstep
    split at hstep
    · cases hstep
    · rw [← Option.some.inj hstep]
      obtain ⟨hcarries, hdrained⟩ :=
        carries_of_step h.placed (step_beginDrain trustedKeys s)
      refine ⟨h.placed.step (step_beginDrain trustedKeys s),
        hstage.carries hcarries hdrained ?_⟩
      rw [List.filterMap_append]
      exact List.append_nil _

theorem sound_of_reachable
    (h : (machine P options trustedKeys gracePeriodMs).Reachable s) : Sound options s := by
  refine h.invariant (I := Sound options) (fun s hinit => ?_) fun s a s' hI hstep => ?_
  · obtain ⟨⟨gateway, hnew, heq⟩, _, hstage, hstops⟩ := hinit
    refine ⟨?_, ?_⟩
    · rw [heq]
      exact placed_initial hnew
    · rw [hstage, hstops]
      rfl
  · exact hI.step hstep

/-- What the gateway can do before the signal. -/
theorem reachable_running {gateway : GatewayState P}
    (h : (Gateway.machine P options trustedKeys).Reachable gateway) :
    (machine P options trustedKeys gracePeriodMs).Reachable
      { gateway, gracePeriodMs, stage := .running, stops := [] } := by
  induction h with
  | init hinit => exact .init ⟨hinit, rfl, rfl, rfl⟩
  | @step _ _ a _ _ hstep ih =>
    apply ih.next (a := .gateway a)
    show Option.map _ (Gateway.step trustedKeys _ a) = _
    have hgateway : Gateway.step trustedKeys _ a = some _ := hstep
    rw [hgateway]
    rfl

/-- The race of a shutdown can complete exactly when the server has closed and the gate is empty,
however the requests in flight end. -/
theorem race_completes_iff (h : Sound options s) {place : ℕ}
    {serverClosed : Option (Option String)} (hstage : s.stage = .draining place serverClosed) :
    (ShutdownState.step trustedKeys s .raceCompleted).isSome = true ↔
      serverClosed.isSome = true ∧ s.gateway.gateway.admissionGate.active = 0 := by
  have hholds := h.stage
  rw [hstage] at hholds
  obtain ⟨_, _, promise, hpromise, hsince⟩ := hholds
  have hresolved := h.placed.gate.resolved_iff (List.mem_of_getElem? hpromise) hsince
  have hidle : s.idle place = promise.resolved := by
    unfold idle
    rw [hpromise]
    rfl
  unfold ShutdownState.step
  simp only [hstage]
  cases serverClosed with
  | none => simp
  | some error =>
    rw [← hresolved, ← hidle]
    cases hcase : s.idle place
    · simp [hcase]
    · simp [hcase]

/-- The results for which `stopDependencies` has been called. -/
theorem StageHolds.results {gateway : GatewayState P} {stops : List StopCause}
    {stage : ShutdownStage} (h : StageHolds gateway stops stage) :
    stops.filterMap StopCause.result = [] ∨ ∃ result, Stopped gateway stops result := by
  cases stage with
  | running => exact .inl h
  | refused => exact .inl h
  | draining place serverClosed => exact .inl h.2.1
  | stopping result errors => exact .inr ⟨result, h.1⟩
  | settled result outcome => exact .inr ⟨result, h.1⟩

/-- A graceful shutdown. Once the drain has begun the edge is not ready, and no call that has
come since is admitted. The race completes as soon as the server has closed and the gate is empty.
`stopDependencies` is called for the shutdown at most once, and unless the grace period is over,
every request that was admitted has left by then, for good. The shutdown reports success only if
the server closed without an error in time, and that it was forced only if the timer fired. -/
theorem graceful_shutdown (h : (machine P options trustedKeys gracePeriodMs).Reachable s) :
    (s.gateway.drained = true → ∀ rateLimiterReady, s.readyz rateLimiterReady = false) ∧
      (∀ call ∈ s.gateway.calls, call.sinceDrain = true → call.admitted = false) ∧
      (∀ place serverClosed, s.stage = .draining place serverClosed →
        ((ShutdownState.step trustedKeys s .raceCompleted).isSome = true ↔
          serverClosed.isSome = true ∧ s.gateway.gateway.admissionGate.active = 0)) ∧
      (s.stops.filterMap StopCause.result).length ≤ 1 ∧
      (∀ error, .shutdown (.completed error) ∈ s.stops →
        s.gateway.gateway.admissionGate.active = 0 ∧
          ∀ call ∈ s.gateway.calls, call.occupies = false ∧
            (call.admitted = true → call.history.releases = 1)) ∧
      ∀ result forced, s.stage = .settled result (.ok forced) →
        forced = false ∧ result = .completed none ∨ forced = true ∧ result = .timedOut := by
  have hsound := sound_of_reachable h
  have hstage := hsound.stage
  refine ⟨?_, hsound.placed.since, fun _ _ => race_completes_iff hsound, ?_, ?_, ?_⟩
  · intro hdrained rateLimiterReady
    unfold readyz
    rw [hsound.placed.gate.accepting, hdrained]
    exact Bool.and_false _
  · rcases hstage.results with hnone | ⟨result, hstopped⟩
    · rw [hnone]
      exact Nat.zero_le 1
    · rw [hstopped.once]
      exact Nat.le_refl 1
  · intro error hmem
    -- a stop by completion is the result of the race, of which there is one
    have hresult : ShutdownRaceResult.completed error ∈ s.stops.filterMap StopCause.result :=
      List.mem_filterMap.mpr ⟨_, hmem, rfl⟩
    rcases hstage.results with hnone | ⟨result, hstopped⟩
    · rw [hnone] at hresult
      cases hresult
    · rw [hstopped.once, List.mem_singleton] at hresult
      exact (hstopped.emptied error hresult.symm).left hsound.placed
  · intro result forced hsettled
    rw [hsettled] at hstage
    exact hstage.2 forced rfl

end ShutdownState

/-! ## A shutdown -/

namespace Orders

open Delivery.Orders

/-- A client reads its response when the signal comes, the next request is turned away, the server
closes, and the client cancels. -/
def stopping : List ShutdownAction :=
  (sending 0 1000 ++ answering ++ [GatewayAction.turn 0 .pull]).map .gateway ++
    [.signal none,
      .gateway (.handle (request "/v1/orders/42" printable_order) none "request-2" 10),
      .serverClosed none, .gateway (.turn 0 .cancel), .gateway (.turn 0 .canceled),
      .raceCompleted, .dependenciesStopped none]

/-- The shutdown before its signal. -/
def started : ShutdownState platform where
  gateway := serving
  gracePeriodMs := 10000
  stage := .running
  stops := []

/-- Whether the shutdown has settled and was forced, who has stopped the dependencies, and which
calls were admitted. -/
def settlement (s : ShutdownState platform) : Option Bool × List StopCause × List Bool :=
  let forced :=
    match s.stage with
    | .settled _ (.ok forced) => some forced
    | _ => none
  (forced, s.stops, s.gateway.calls.map (·.admitted))

theorem graceful_shutdown_orders :
    ∃ s, (ShutdownState.machine platform options keyring 10000).run started stopping = some s ∧
      settlement s = (some false, [.shutdown (.completed none)], [true, false]) ∧
      s.gateway.gateway.admissionGate.active = 0 ∧
      ∀ call ∈ s.gateway.calls, call.occupies = false ∧
        (call.admitted = true → call.history.releases = 1) := by
  have hrun : ((ShutdownState.machine platform options keyring 10000).run started stopping).map
      settlement = some (some false, [.shutdown (.completed none)], [true, false]) := by
    decide +kernel
  obtain ⟨s, hs, hsettlement⟩ := Option.map_eq_some_iff.mp hrun
  have hstarted : (ShutdownState.machine platform options keyring 10000).Reachable started :=
    ShutdownState.reachable_running serving_reachable
  have hstops : s.stops = [.shutdown (.completed none)] :=
    congrArg (·.2.1) hsettlement
  obtain ⟨_, _, _, _, hleft, _⟩ := ShutdownState.graceful_shutdown (hstarted.of_run _ hs)
  refine ⟨s, hs, hsettlement, hleft none ?_⟩
  rw [hstops]
  exact List.mem_singleton_self _

end Orders

end ShieldWard.Edge
