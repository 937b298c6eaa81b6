import ShieldWard.Edge.SettledCalls

/-!
# Who can leave a half-open circuit

A half-open circuit refuses everybody, so somebody who holds a permit of it has to close or
reopen it. While a circuit is half open, one call awaits the fetcher with a probe of it. Every
completion of a probe leaves the half-open phase, and so does every other completion but the
abandonment of a permit that is no probe.
-/

namespace ShieldWard.Edge

open Ecma

namespace UpstreamCircuitBreaker

variable {P : Platform} {breaker breaker' : UpstreamCircuitBreaker} {key : String}

/-- A circuit does not become half open by operations on other keys. -/
theorem Retains.halfOpen (h : Retains breaker breaker' key)
    (hphase : breaker'.phase key = .halfOpen) : breaker.phase key = .halfOpen := by
  rcases h with heq | ⟨_, hclosed⟩
  · rw [← heq]
    exact hphase
  · rw [hclosed] at hphase
    cases hphase

/-- A rejection makes no circuit half open. -/
theorem acquire_rejection_halfOpen {upstream : String} {now seconds : Number}
    (h : breaker.acquire P upstream now = (breaker', .rejection seconds)) {origin : String}
    (hphase : breaker'.phase origin = .halfOpen) : breaker.phase origin = .halfOpen := by
  have ⟨hacquires, _, hothers, _⟩ := breaker.acquire_spec (P := P) upstream now
  rw [h] at hacquires hothers
  by_cases horigin : origin = upstreamOrigin P upstream
  · rw [horigin] at hphase ⊢
    simp only [hphase] at hacquires
    generalize breaker.phase (upstreamOrigin P upstream) = phase at hacquires ⊢
    cases hacquires with
    | probing => rfl
  · exact (hothers origin horigin).halfOpen hphase

/-- A circuit that is half open after a permit was granted has become so for that permit, or it
was half open before and is another. -/
theorem acquire_permit_halfOpen {upstream : String} {now : Number}
    {permit : CircuitBreakerPermit}
    (h : breaker.acquire P upstream now = (breaker', .permit permit)) {origin : String}
    (hphase : breaker'.phase origin = .halfOpen) :
    permit.key = origin ∧ permit.halfOpenProbe = true ∨
      permit.key ≠ origin ∧ breaker.phase origin = .halfOpen := by
  have ⟨hacquires, _, hothers, _⟩ := breaker.acquire_spec (P := P) upstream now
  have hkey := (acquire_permit h).1
  rw [h] at hacquires hothers
  by_cases horigin : origin = upstreamOrigin P upstream
  · rw [horigin] at hphase ⊢
    simp only [hphase] at hacquires
    generalize breaker.phase (upstreamOrigin P upstream) = phase at hacquires
    cases hacquires with
    | probe => exact .inl ⟨rfl, rfl⟩
  · right
    rw [hkey]
    exact ⟨Ne.symm horigin, (hothers origin horigin).halfOpen hphase⟩

/-- Only the abandonment of a permit that is no probe leaves a circuit half open. -/
theorem Completes.of_halfOpen {permit : CircuitBreakerPermit} {now : Number}
    {completion : Completion} {phase : Phase} (h : Completes breaker permit now completion phase)
    (hphase : phase = .halfOpen) :
    breaker.phase permit.key = .halfOpen ∧ permit.halfOpenProbe = false := by
  cases h with
  | success => cases hphase
  | failure =>
    unfold Phase.fail at hphase
    split at hphase
    · split at hphase <;> cases hphase
    · cases hphase
    · cases hphase
  | uncounted => cases hphase
  | abandonment =>
    unfold Phase.abandon at hphase
    split at hphase
    · next hbefore =>
      refine ⟨hbefore, ?_⟩
      split at hphase
      · cases hphase
      · next hprobe => exact Bool.not_eq_true _ ▸ hprobe
    · next hnot => exact absurd hphase hnot

/-- A circuit that is half open after a completion was so before, and the permit was not a probe
of it. -/
theorem complete_halfOpen {permit : CircuitBreakerPermit} (hopen : permit.completed = false)
    {completion : Completion} {now : Number} {origin : String}
    (hphase : (permit.complete completion breaker now).2.phase origin = .halfOpen) :
    breaker.phase origin = .halfOpen ∧ ¬(permit.key = origin ∧ permit.halfOpenProbe = true) := by
  have ⟨_, hcompletes, _, hothers, _⟩ := complete_spec hopen completion breaker now
  by_cases horigin : origin = permit.key
  · rw [horigin] at hphase ⊢
    have ⟨hbefore, hprobe⟩ := hcompletes.of_halfOpen hphase
    refine ⟨hbefore, fun h => ?_⟩
    rw [hprobe] at h
    exact Bool.false_ne_true h.2
  · exact ⟨(hothers origin horigin).halfOpen hphase, fun h => horigin h.1.symm⟩

end UpstreamCircuitBreaker

/-! ## Calls with a probe -/

/-- The call awaits the fetcher and holds a probe of the origin. -/
def Call.Probes (call : Call) (origin : String) : Prop :=
  ∃ route permit, call.stage = .fetching route permit ∧ permit.key = origin ∧
    permit.halfOpenProbe = true ∧ permit.completed = false

theorem Call.not_probes {call : Call} (h : ∀ route permit, call.stage ≠ .fetching route permit)
    (origin : String) : ¬call.Probes origin :=
  fun ⟨route, permit, hstage, _⟩ => h route permit hstage

namespace Turn

variable {P : Platform} {t t' : Turn P}

/-- A circuit that is half open after the turn is so for a probe of its call, or it was so
before and not for one of its call. -/
def Probed (t t' : Turn P) : Prop :=
  ∀ origin, t'.gateway.circuitBreaker.phase origin = .halfOpen →
    t'.call.Probes origin ∨
      t.gateway.circuitBreaker.phase origin = .halfOpen ∧ ¬t.call.Probes origin

/-- A turn that leaves the breaker alone and does not end a probe. -/
theorem Probed.of_same (hbreaker : t'.gateway.circuitBreaker = t.gateway.circuitBreaker)
    (hprobes : ∀ origin, t.call.Probes origin → t'.call.Probes origin) : Probed t t' := by
  intro origin hphase
  by_cases h : t.call.Probes origin
  · exact .inl (hprobes origin h)
  · rw [hbreaker] at hphase
    exact .inr ⟨hphase, h⟩

theorem Probed.of_prepares {t₁ : Turn P} (hprepares : Prepares t t₁) (hkeeps : Keeps t₁ t') :
    Probed t t' := by
  intro origin hphase
  rw [hkeeps.circuitBreaker] at hphase
  right
  cases hprepares with
  | reading hstage | undecided hstage | decided hstage =>
    refine ⟨hphase, Call.not_probes (fun route permit h => ?_) origin⟩
    rw [hstage] at h
    cases h
  | refused hstage hroute hacquire =>
    refine ⟨UpstreamCircuitBreaker.acquire_rejection_halfOpen hacquire hphase,
      Call.not_probes (fun route permit h => ?_) origin⟩
    rw [hstage] at h
    cases h

/-- The breaker at the end of an upstream call. -/
theorem EndsUpstream.halfOpen {permit : CircuitBreakerPermit} {now : Number}
    {settlement : UpstreamSettlement} (hopen : permit.completed = false)
    (h : EndsUpstream t permit now settlement t') {origin : String}
    (hphase : t'.gateway.circuitBreaker.phase origin = .halfOpen) :
    t.gateway.circuitBreaker.phase origin = .halfOpen ∧
      ¬(permit.key = origin ∧ permit.halfOpenProbe = true) := by
  rw [h.keeps.circuitBreaker] at hphase
  unfold afterUpstream at hphase
  rw [completePermit_eq _ hopen] at hphase
  exact UpstreamCircuitBreaker.complete_halfOpen hopen hphase

theorem Moves.probed {a : CallAction} (hmoves : Moves t a t') (horderly : Orderly t.call) : Probed t t' := by
  cases hmoves with
  | evaluates hstage | verified hstage | checked hstage =>
    intro origin hphase
    refine .inr ⟨hphase, Call.not_probes (fun route permit h => ?_) origin⟩
    rw [hstage] at h
    cases h
  | ends hprepares hkeeps hends => exact .of_prepares hprepares hkeeps
  | @sends _ body decision route circuitBreaker permit sent now hstage hroute hacquire hsent =>
    intro origin hphase
    rcases UpstreamCircuitBreaker.acquire_permit_halfOpen hacquire hphase with
      ⟨hkey, hprobe⟩ | ⟨_, hbefore⟩
    · exact .inl ⟨route, permit, rfl, hkey, hprobe,
        (UpstreamCircuitBreaker.acquire_permit hacquire).2⟩
    · refine .inr ⟨hbefore, Call.not_probes (fun route permit h => ?_) origin⟩
      rw [hstage] at h
      cases h
  | @unsendable _ body decision route circuitBreaker permit now settlement t' hstage hroute hacquire
      hends =>
    intro origin hphase
    have hopen := (UpstreamCircuitBreaker.acquire_permit hacquire).2
    have ⟨hgranted, hnot⟩ := hends.halfOpen hopen hphase
    rcases UpstreamCircuitBreaker.acquire_permit_halfOpen hacquire hgranted with
      hprobe | ⟨_, hbefore⟩
    · exact absurd hprobe hnot
    · refine .inr ⟨hbefore, Call.not_probes (fun route permit h => ?_) origin⟩
      rw [hstage] at h
      cases h
  | @fetched _ route permit outcome now hstage =>
    unfold Orderly at horderly
    rw [hstage] at horderly
    have ⟨hblank, hopen, _⟩ := horderly
    have ⟨settlement, hends⟩ := afterFetch_spec hopen hblank.settlement route outcome now
    intro origin hphase
    have ⟨hbefore, hnot⟩ := hends.halfOpen hopen hphase
    refine .inr ⟨hbefore, fun ⟨_, _, hheld, hkey, hprobe, _⟩ => hnot ?_⟩
    rw [hstage] at hheld
    have heq := (CallStage.fetching.inj hheld).2
    rw [heq]
    exact ⟨hkey, hprobe⟩
  | aborted => exact .of_same rfl fun _ h => h
  | streams _ => exact .of_same rfl fun _ h => h

end Turn

/-! ## Runs -/

section

variable {P : Platform} {options : GatewayOptions} {trustedKeys : TrustedKeyring}
  {s : GatewayState P}

/-- Each half-open circuit has a probe in flight. -/
def Recoverable (s : GatewayState P) : Prop :=
  ∀ origin, s.gateway.circuitBreaker.phase origin = .halfOpen →
    ∃ call ∈ s.calls, call.Probes origin

theorem Recoverable.arrives (h : Recoverable s) {arrival : Arrival} {t : Turn P}
    (harrives : Arrives s.gateway arrival t) :
    Recoverable { s with gateway := t.gateway, calls := s.calls ++ [t.call] } := by
  have hbreaker : t.gateway.circuitBreaker = s.gateway.circuitBreaker := by
    cases harrives with
    | admitted => rfl
    | turnedAway _ _ hkeeps _ => exact hkeeps.circuitBreaker
  intro origin hphase
  rw [hbreaker] at hphase
  have ⟨call, hcall, hprobes⟩ := h origin hphase
  exact ⟨call, List.mem_append_left _ hcall, hprobes⟩

theorem Recoverable.moves (h : Recoverable s) {index : ℕ} {call : Call} {t : Turn P}
    (hcall : s.calls[index]? = some call)
    (hprobed : Turn.Probed { gateway := s.gateway, call } t) :
    Recoverable { s with gateway := t.gateway, calls := s.calls.set index t.call } := by
  intro origin hphase
  have hindex := (List.getElem?_eq_some_iff.mp hcall).1
  rcases hprobed origin hphase with hprobes | ⟨hbefore, hnot⟩
  · exact ⟨t.call, List.mem_set hindex t.call, hprobes⟩
  · have ⟨other, hother, hprobes⟩ := h origin hbefore
    have ⟨place, hplace⟩ := List.mem_iff_getElem?.mp hother
    -- The call that has moved is another one.
    have hne : index ≠ place := by
      intro heq
      rw [heq, hplace] at hcall
      rw [Option.some.inj hcall] at hprobes
      exact hnot hprobes
    refine ⟨other, List.mem_iff_getElem?.mpr ⟨place, ?_⟩, hprobes⟩
    rw [List.getElem?_set_ne hne]
    exact hplace

theorem recoverable_of_reachable (h : (Gateway.machine P options trustedKeys).Reachable s) :
    Recoverable s := by
  induction h with
  | @init s hinit =>
    have ⟨gateway, hnew, heq⟩ := hinit
    intro origin hphase
    rw [heq] at hphase
    have hclosed : gateway.circuitBreaker.phase origin = .closed 0 :=
      UpstreamCircuitBreaker.phase_of_get_none (by rw [(Gateway.new_ok hnew).circuits]; rfl)
    rw [show (Gateway.initial gateway).gateway = gateway from rfl, hclosed] at hphase
    cases hphase
  | step hreachable _ hstep ih =>
    cases Gateway.steps_of_step hstep with
    | arrives harrives => exact ih.arrives harrives
    | moves hcall hmoves =>
      have horderly := orderly_of_reachable hreachable _ (List.mem_of_getElem? hcall)
      exact ih.moves hcall (hmoves.probed horderly)
    | gate => exact ih
    | installs => exact ih

/-- When a call has settled, its permits have been completed once, by how the upstream call
went, and each origin whose circuit is half open has a request in flight with a probe of it that
is not completed. -/
theorem no_wedged_origin (h : (Gateway.machine P options trustedKeys).Reachable s) :
    (∀ call ∈ s.calls, call.stage.settled = true → PermitsCompleted call.history) ∧
      ∀ origin circuit, s.gateway.circuitBreaker.circuits.get origin = some circuit →
        circuit.state = .halfOpen → ∃ call ∈ s.calls, call.Probes origin := by
  constructor
  · intro call hcall hsettled
    have horderly := orderly_of_reachable h call hcall
    unfold Orderly at horderly
    revert hsettled horderly
    cases call.stage with
    | responded response => exact fun _ horderly => horderly.2
    | rejected => exact fun _ horderly => horderly.2
    | readingBody | evaluating | decided | undecided | fetching =>
      exact fun hsettled => absurd hsettled Bool.false_ne_true
  · intro origin circuit hget hstate
    apply recoverable_of_reachable h
    rw [UpstreamCircuitBreaker.phase_of_get hget]
    unfold Circuit.phase
    rw [hstate]

end

/-! ## A probe -/

namespace Orders

open Delivery.Orders

/-- The upstream call of a request fails. -/
def failing (index : ℕ) : List GatewayAction :=
  sending index 1000 ++
    [.turn index (.fetched (.rejection false) { performance := 6, date := 1000 })]

/-- Five calls in turn open the circuit, and after the period a sixth is sent. -/
def probing : List GatewayAction := (List.range 5).flatMap failing ++ sending 5 31000

theorem probe_in_flight :
    ∃ s, (Gateway.machine platform options keyring).run serving probing = some s ∧
      (∃ circuit, s.gateway.circuitBreaker.circuits.get "https://orders.internal" = some circuit ∧
        circuit.state = .halfOpen) ∧
      (∀ call ∈ s.calls, call.stage.settled = true → PermitsCompleted call.history) ∧
      ∀ origin circuit, s.gateway.circuitBreaker.circuits.get origin = some circuit →
        circuit.state = .halfOpen → ∃ call ∈ s.calls, call.Probes origin := by
  have hrun : ((Gateway.machine platform options keyring).run serving probing).map
      (fun s => (s.gateway.circuitBreaker.circuits.get "https://orders.internal").map (·.state)) =
        some (some .halfOpen) := by
    decide +kernel
  have ⟨s, hs, hcircuit⟩ := Option.map_eq_some_iff.mp hrun
  exact ⟨s, hs, Option.map_eq_some_iff.mp hcircuit,
    no_wedged_origin (serving_reachable.of_run _ hs)⟩

end Orders
end ShieldWard.Edge
