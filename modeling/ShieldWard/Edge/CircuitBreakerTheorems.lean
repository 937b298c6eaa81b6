import ShieldWard.Edge.CircuitBreaker

/-!
# The phase of a circuit

What a circuit does to requests depends on its phase only: closed with the failures counted so
far, open until a time, or half open. A key without an entry is closed without failures. Each
operation of the breaker moves the phase of its own key by a rule of four lines and leaves the
phases of the other keys, up to the eviction of a closed circuit.
-/

namespace ShieldWard.Edge

open Ecma

inductive Phase
  | closed (failures : ℕ)
  | opened (deadline : Number)
  | halfOpen
deriving DecidableEq

namespace Phase

/-- Whether a phase is closed, with whatever count. -/
def isClosed : Phase → Bool
  | .closed _ => true
  | _ => false

/-- A failure at a time. -/
def fail (threshold : ℕ) (duration now : Number) : Phase → Phase
  | .closed failures =>
    if threshold ≤ failures + 1 then .opened (now + duration) else .closed (failures + 1)
  | .opened deadline => .opened (max deadline (now + duration))
  | .halfOpen => .opened (now + duration)

/-- The abandonment of a permit at a time. -/
def abandon (halfOpenProbe : Bool) (now : Number) : Phase → Phase
  | .halfOpen => if halfOpenProbe then .opened now else .halfOpen
  | phase => phase

theorem isClosed_iff {phase : Phase} :
    phase.isClosed = true ↔ ∃ failures, phase = .closed failures := by
  cases phase <;> simp [isClosed]

end Phase

def Circuit.phase (circuit : Circuit) : Phase :=
  match circuit.state with
  | .closed => .closed circuit.consecutiveFailures
  | .opened => .opened circuit.openedUntil
  | .halfOpen => .halfOpen

namespace UpstreamCircuitBreaker

variable {P : Platform} {breaker breaker' : UpstreamCircuitBreaker} {key : String}

/-- The phase of a key. -/
def phase (breaker : UpstreamCircuitBreaker) (key : String) : Phase :=
  match breaker.circuits.get key with
  | none => .closed 0
  | some circuit => circuit.phase

theorem phase_of_get {circuit : Circuit} (h : breaker.circuits.get key = some circuit) :
    breaker.phase key = circuit.phase := by
  unfold phase
  rw [h]

theorem phase_of_get_none (h : breaker.circuits.get key = none) :
    breaker.phase key = .closed 0 := by
  unfold phase
  rw [h]

theorem phase_congr (h : breaker'.circuits.get key = breaker.circuits.get key) :
    breaker'.phase key = breaker.phase key := by
  unfold phase
  rw [h]

/-- A circuit is closed, or there is none, exactly when its phase is closed. -/
theorem isClosed_phase_iff :
    (breaker.phase key).isClosed = true ↔
      ∀ circuit, breaker.circuits.get key = some circuit → circuit.state = .closed := by
  unfold phase
  cases breaker.circuits.get key with
  | none => simp [Phase.isClosed]
  | some circuit =>
    simp only [Option.some.injEq, forall_eq', Circuit.phase]
    cases circuit.state <;> simp [Phase.isClosed]

/-- The settings of a breaker never change. -/
structure SameSettings (breaker breaker' : UpstreamCircuitBreaker) : Prop where
  failureThreshold : breaker'.failureThreshold = breaker.failureThreshold
  openDurationMs : breaker'.openDurationMs = breaker.openDurationMs
  maximumUpstreams : breaker'.maximumUpstreams = breaker.maximumUpstreams

/-- What an operation on another key does to a key: nothing, or the eviction of a closed
circuit. -/
def Retains (breaker breaker' : UpstreamCircuitBreaker) (key : String) : Prop :=
  breaker'.phase key = breaker.phase key ∨
    (breaker.phase key).isClosed = true ∧ breaker'.phase key = .closed 0

/-- The key has a circuit or there is room for one, so none is evicted for it. -/
def HasRoom (breaker : UpstreamCircuitBreaker) (key : String) : Prop :=
  breaker.circuits.size < breaker.maximumUpstreams ∨ breaker.circuits.get key ≠ none

/-- An operation on a key does not touch the circuits of the others. -/
def Isolates (breaker breaker' : UpstreamCircuitBreaker) (key : String) : Prop :=
  ∀ other, other ≠ key → breaker'.circuits.get other = breaker.circuits.get other

theorem Isolates.retains (h : Isolates breaker breaker' key) {other : String}
    (hne : other ≠ key) : Retains breaker breaker' other :=
  .inl (phase_congr (h other hne))

/-- A circuit that is open or half open is kept. -/
theorem Retains.eq_of_not_closed (h : Retains breaker breaker' key)
    (hclosed : (breaker.phase key).isClosed = false) :
    breaker'.phase key = breaker.phase key := by
  rcases h with heq | ⟨hevicted, _⟩
  · exact heq
  · rw [hclosed] at hevicted
    cases hevicted

/-! ## Entries -/

/-- The phases after an entry has been stored. -/
theorem phase_set (circuit : Circuit) (transitions) (key' : String) :
    ({ breaker with circuits := breaker.circuits.set key circuit, transitions } :
        UpstreamCircuitBreaker).phase key' =
      if key' = key then circuit.phase else breaker.phase key' := by
  unfold phase
  simp only [OrderedMap.get_set]
  by_cases h : key' = key
  · simp only [if_pos h]
  · simp only [if_neg h]

/-- The phases after an entry has been deleted. -/
theorem phase_delete (key' : String) :
    ({ breaker with circuits := breaker.circuits.delete key } :
        UpstreamCircuitBreaker).phase key' =
      if key' = key then .closed 0 else breaker.phase key' := by
  unfold phase
  simp only [OrderedMap.get_delete]
  by_cases h : key' = key
  · simp only [if_pos h]
  · simp only [if_neg h]

theorem phase_transition (circuit : Circuit) (next : UpstreamCircuitState) (key' : String) :
    (breaker.transition key circuit next).phase key' =
      if key' = key then ({ circuit with state := next } : Circuit).phase
      else breaker.phase key' :=
  phase_set _ _ key'

/-! ## Room for a circuit -/

/-- The candidate for eviction is an entry whose circuit is closed. -/
theorem evictionCandidate_mem {entry : String × Circuit}
    (h : breaker.evictionCandidate = some entry) :
    entry ∈ breaker.circuits.entries ∧ entry.2.state = .closed := by
  unfold evictionCandidate at h
  -- the candidate so far is one of the entries that the fold has met
  refine List.foldlRecOn (motive := fun candidate => ∀ e, candidate = some e →
    e ∈ breaker.circuits.entries ∧ e.2.state = .closed) breaker.circuits.entries _ ?_ ?_ entry h
  · intro e he
    cases he
  · intro candidate hcandidate next hnext e he
    by_cases hstate : next.2.state = .closed
    · rw [if_neg (not_not.mpr hstate)] at he
      split at he
      · rw [← Option.some.inj he]
        exact ⟨hnext, hstate⟩
      · split at he
        · rw [← Option.some.inj he]
          exact ⟨hnext, hstate⟩
        · exact hcandidate e he
    · rw [if_pos hstate] at he
      exact hcandidate e he

/-- An eviction makes one closed circuit disappear. -/
theorem retains_of_evict (h : breaker.evictClosedCircuit = some breaker') :
    SameSettings breaker breaker' ∧ (∀ key, Retains breaker breaker' key) ∧
      ∀ key, breaker.circuits.get key = none → breaker'.circuits.get key = none := by
  have ⟨entry, hentry, heq⟩ := Option.map_eq_some_iff.mp h
  have ⟨hmem, hstate⟩ := evictionCandidate_mem hentry
  have hget := OrderedMap.get_eq_some_iff.mpr hmem
  rw [← heq]
  refine ⟨⟨rfl, rfl, rfl⟩, fun key => ?_, fun key hnone => ?_⟩
  · unfold Retains
    rw [phase_delete]
    split
    · next hkey =>
      refine .inr ⟨?_, rfl⟩
      rw [hkey, phase_of_get hget, Circuit.phase, hstate]
      rfl
    · exact .inl rfl
  · show (breaker.circuits.delete entry.1).get key = none
    rw [OrderedMap.get_delete, hnone]
    split <;> rfl

/-- The circuit of a key is found or made, or there is no room for one. -/
theorem findOrCreate_cases (breaker : UpstreamCircuitBreaker) (key : String) (now : Number) :
    (breaker.findOrCreate key now = (breaker, none) ∧ breaker.circuits.get key = none ∧
        breaker.maximumUpstreams ≤ breaker.circuits.size) ∨
      ∃ breaker' circuit, breaker.findOrCreate key now = (breaker', some circuit) ∧
        circuit.phase = breaker.phase key ∧ SameSettings breaker breaker' ∧
        (∀ other, other ≠ key → Retains breaker breaker' other) ∧
        (HasRoom breaker key → Isolates breaker breaker' key) := by
  cases hget : breaker.circuits.get key with
  | some circuit =>
    refine .inr ⟨breaker, circuit, ?_, (phase_of_get hget).symm, ⟨rfl, rfl, rfl⟩,
      fun _ _ => .inl rfl, fun _ _ _ => rfl⟩
    unfold findOrCreate
    rw [hget]
  | none =>
    unfold findOrCreate
    rw [hget]
    simp only
    -- the closed circuit that is made for the key
    have hmade : ∀ (b : UpstreamCircuitBreaker) (circuit : Circuit) (other : String),
        other ≠ key → ({ b with circuits := b.circuits.set key circuit } :
          UpstreamCircuitBreaker).phase other = b.phase other := by
      intro b circuit other hother
      rw [phase_set, if_neg hother]
    by_cases hfull : breaker.maximumUpstreams ≤ breaker.circuits.size
    · rw [if_pos hfull]
      cases hevict : breaker.evictClosedCircuit with
      | none => exact .inl ⟨rfl, trivial, hfull⟩
      | some evicted =>
        have ⟨hsame, hretains, _⟩ := retains_of_evict hevict
        refine .inr ⟨_, _, rfl, (phase_of_get_none hget).symm, ?_, ?_, ?_⟩
        · exact ⟨hsame.failureThreshold, hsame.openDurationMs, hsame.maximumUpstreams⟩
        · intro other hother
          unfold Retains
          rw [hmade evicted _ other hother]
          exact hretains other
        · rintro (hroom | hpresent)
          · omega
          · exact absurd hget hpresent
    · rw [if_neg hfull]
      refine .inr ⟨_, _, rfl, (phase_of_get_none hget).symm, ⟨rfl, rfl, rfl⟩, ?_, ?_⟩
      · intro other hother
        exact .inl (hmade breaker _ other hother)
      · intro _ other hother
        exact OrderedMap.get_set_of_ne _ _ hother

/-! ## Operations -/

/-- A key that is found at its circuit and stored again with another touch. -/
theorem phase_touch {breaker breaker' : UpstreamCircuitBreaker} {key : String} (circuit : Circuit) (now : Number)
    (hother : ∀ other, other ≠ key → Retains breaker breaker' other) (other : String)
    (hne : other ≠ key) :
    Retains breaker { breaker' with
      circuits := breaker'.circuits.set key { circuit with lastTouched := now } } other := by
  unfold Retains
  rw [phase_set, if_neg hne]
  exact hother other hne

/-- What is stored for a key leaves the other keys. -/
theorem Isolates.set (h : Isolates breaker breaker' key) (circuit : Circuit) (transitions) :
    Isolates breaker
      { breaker' with circuits := breaker'.circuits.set key circuit, transitions } key := by
  intro other hother
  rw [← h other hother]
  exact OrderedMap.get_set_of_ne _ _ hother

theorem Isolates.delete (h : Isolates breaker breaker' key) :
    Isolates breaker { breaker' with circuits := breaker'.circuits.delete key } key := by
  intro other hother
  rw [← h other hother]
  show (breaker'.circuits.delete key).get other = _
  rw [OrderedMap.get_delete, if_neg hother]

/-- What an acquisition answers and how it moves the phase of its key. -/
inductive Acquires (threshold : ℕ) (key : String) (now : Number) :
    Phase → Phase → CircuitBreakerAcquisition → Prop
  /-- There is no room for the circuit of the key. -/
  | full : Acquires threshold key now (.closed 0) (.closed 0) (.rejection 1)
  | closed (failures : ℕ) : Acquires threshold key now (.closed failures) (.closed failures)
      (.permit { key, halfOpenProbe := false, completed := false })
  | early {deadline : Number} : now < deadline →
      Acquires threshold key now (.opened deadline) (.opened deadline)
        (.rejection (max 1 ⌈(deadline - now) / 1000⌉))
  | probe {deadline : Number} : deadline ≤ now →
      Acquires threshold key now (.opened deadline) .halfOpen
        (.permit { key, halfOpenProbe := true, completed := false })
  | probing : Acquires threshold key now .halfOpen .halfOpen (.rejection 1)

/-- A half-open circuit refuses everybody. -/
theorem Acquires.of_halfOpen {threshold : ℕ} {now : Number} {phase : Phase}
    {acquisition : CircuitBreakerAcquisition}
    (h : Acquires threshold key now .halfOpen phase acquisition) :
    phase = .halfOpen ∧ acquisition = .rejection 1 := by
  cases h with
  | probing => exact ⟨rfl, rfl⟩

theorem acquire_spec (breaker : UpstreamCircuitBreaker) (upstream : String) (now : Number) :
    Acquires breaker.failureThreshold (upstreamOrigin P upstream) now
        (breaker.phase (upstreamOrigin P upstream))
        ((breaker.acquire P upstream now).1.phase (upstreamOrigin P upstream))
        (breaker.acquire P upstream now).2 ∧
      SameSettings breaker (breaker.acquire P upstream now).1 ∧
      (∀ other, other ≠ upstreamOrigin P upstream →
        Retains breaker (breaker.acquire P upstream now).1 other) ∧
      (HasRoom breaker (upstreamOrigin P upstream) →
        Isolates breaker (breaker.acquire P upstream now).1 (upstreamOrigin P upstream)) := by
  unfold acquire
  generalize upstreamOrigin P upstream = key
  simp only
  rcases breaker.findOrCreate_cases key now with
    ⟨heq, hget, _⟩ | ⟨found, circuit, heq, hphase, hsame, hothers, hroom⟩
  · rw [heq, phase_of_get_none hget]
    exact ⟨.full, ⟨rfl, rfl, rfl⟩, fun _ _ => .inl rfl, fun _ _ _ => rfl⟩
  · rw [heq, ← hphase]
    simp only
    have htouch := phase_touch circuit now hothers
    rcases circuit with ⟨state, failures, deadline, touched⟩
    cases state with
    | closed =>
      simp only [phase_set, if_true, Circuit.phase]
      exact ⟨.closed _, ⟨hsame.1, hsame.2, hsame.3⟩, htouch, fun h => (hroom h).set _ _⟩
    | halfOpen =>
      simp only [phase_set, if_true, Circuit.phase]
      exact ⟨.probing, ⟨hsame.1, hsame.2, hsame.3⟩, htouch, fun h => (hroom h).set _ _⟩
    | opened =>
      simp only
      -- the open period is over when the time has reached the deadline
      by_cases hearly : now < deadline
      · simp only [if_pos hearly, phase_set, if_true, Circuit.phase, rejection]
        exact ⟨.early hearly, ⟨hsame.1, hsame.2, hsame.3⟩, htouch, fun h => (hroom h).set _ _⟩
      · simp only [if_neg hearly, phase_transition, if_true, Circuit.phase]
        refine ⟨.probe (not_lt.mp hearly), ⟨hsame.1, hsame.2, hsame.3⟩, fun other hother => ?_,
          fun h => ((hroom h).set _ _).set _ _⟩
        unfold Retains
        rw [phase_transition, if_neg hother]
        exact htouch other hother

theorem Acquires.permit {threshold : ℕ} {now : Number} {phase phase' : Phase}
    {permit : CircuitBreakerPermit}
    (h : Acquires threshold key now phase phase' (.permit permit)) :
    permit.key = key ∧ permit.completed = false := by
  cases h with
  | closed => exact ⟨rfl, rfl⟩
  | probe => exact ⟨rfl, rfl⟩

/-- A permit is granted for the origin of the upstream, and has not been completed. -/
theorem acquire_permit {upstream : String} {now : Number} {permit : CircuitBreakerPermit}
    (h : breaker.acquire P upstream now = (breaker', .permit permit)) :
    permit.key = upstreamOrigin P upstream ∧ permit.completed = false := by
  have ⟨hacquires, _⟩ := breaker.acquire_spec (P := P) upstream now
  rw [h] at hacquires
  exact hacquires.permit

/-- A success closes the circuit of its key. -/
theorem success_spec (breaker : UpstreamCircuitBreaker) (key : String) :
    (breaker.success key).phase key = .closed 0 ∧ SameSettings breaker (breaker.success key) ∧
      Isolates breaker (breaker.success key) key := by
  have hself : Isolates breaker breaker key := fun _ _ => rfl
  unfold success
  cases hget : breaker.circuits.get key with
  | none => exact ⟨phase_of_get_none hget, ⟨rfl, rfl, rfl⟩, hself⟩
  | some circuit =>
    simp only [phase_delete, if_true, true_and]
    exact ⟨⟨rfl, rfl, rfl⟩, (hself.set _ _).delete⟩

/-- A failure counts, or there is no room for the circuit of its key. -/
theorem failure_spec (breaker : UpstreamCircuitBreaker) (key : String) (now : Number) :
    ((breaker.failure key now).phase key =
          (breaker.phase key).fail breaker.failureThreshold breaker.openDurationMs now ∨
        breaker.failure key now = breaker ∧ breaker.circuits.get key = none ∧
          breaker.maximumUpstreams ≤ breaker.circuits.size) ∧
      SameSettings breaker (breaker.failure key now) ∧
      (∀ other, other ≠ key → Retains breaker (breaker.failure key now) other) ∧
      (HasRoom breaker key → Isolates breaker (breaker.failure key now) key) := by
  unfold failure
  rcases breaker.findOrCreate_cases key now with
    ⟨heq, hget, hfull⟩ | ⟨found, circuit, heq, hphase, hsame, hothers, hroom⟩
  · rw [heq]
    exact ⟨.inr ⟨rfl, hget, hfull⟩, ⟨rfl, rfl, rfl⟩, fun _ _ => .inl rfl, fun _ _ _ => rfl⟩
  · rw [heq, ← hphase, ← hsame.failureThreshold, ← hsame.openDurationMs]
    simp only
    have hretains : ∀ (stored : Circuit) (transitions) (other : String), other ≠ key →
        Retains breaker { found with circuits := found.circuits.set key stored, transitions }
          other := by
      intro stored transitions other hother
      unfold Retains
      rw [phase_set, if_neg hother]
      exact hothers other hother
    rcases circuit with ⟨state, failures, deadline, touched⟩
    cases state with
    | closed =>
      simp only
      -- this failure may be the one that opens the circuit
      by_cases hthreshold : found.failureThreshold ≤ failures + 1
      · simp only [if_pos hthreshold, phase_transition, if_true, Circuit.phase, Phase.fail,
          true_or, true_and]
        exact ⟨⟨hsame.1, hsame.2, hsame.3⟩, hretains _ _, fun h => (hroom h).set _ _⟩
      · simp only [if_neg hthreshold, phase_set, if_true, Circuit.phase, Phase.fail, true_or,
          true_and]
        exact ⟨⟨hsame.1, hsame.2, hsame.3⟩, hretains _ _, fun h => (hroom h).set _ _⟩
    | halfOpen =>
      simp only [phase_transition, if_true, Circuit.phase, Phase.fail, true_or, true_and]
      exact ⟨⟨hsame.1, hsame.2, hsame.3⟩, hretains _ _, fun h => (hroom h).set _ _⟩
    | opened =>
      simp only [phase_transition, if_true, Circuit.phase, Phase.fail, true_or, true_and]
      exact ⟨⟨hsame.1, hsame.2, hsame.3⟩, hretains _ _, fun h => (hroom h).set _ _⟩

/-- An abandonment matters to the half-open circuit of a probe only. -/
theorem abandonment_spec (breaker : UpstreamCircuitBreaker) (key : String)
    (halfOpenProbe : Bool) (now : Number) :
    (breaker.abandonment key halfOpenProbe now).phase key =
        (breaker.phase key).abandon halfOpenProbe now ∧
      SameSettings breaker (breaker.abandonment key halfOpenProbe now) ∧
      Isolates breaker (breaker.abandonment key halfOpenProbe now) key := by
  have hself : Isolates breaker breaker key := fun _ _ => rfl
  unfold abandonment
  cases hget : breaker.circuits.get key with
  | none =>
    rw [phase_of_get_none hget]
    exact ⟨rfl, ⟨rfl, rfl, rfl⟩, hself⟩
  | some circuit =>
    rw [phase_of_get hget]
    simp only
    rcases circuit with ⟨state, failures, deadline, touched⟩
    cases state with
    | closed =>
      -- a closed circuit without failures is forgotten
      by_cases hnone : failures = 0
      · simp only [hnone, phase_delete, reduceCtorEq, decide_false, decide_true, Bool.and_false,
          Bool.false_eq_true, Bool.and_self, if_false, if_true, Circuit.phase, Phase.abandon,
          true_and]
        exact ⟨⟨rfl, rfl, rfl⟩, hself.delete⟩
      · simp only [hnone, reduceCtorEq, decide_false, decide_true, Bool.and_false,
          Bool.false_eq_true, if_false, phase_of_get hget, Circuit.phase, Phase.abandon, true_and]
        exact ⟨⟨rfl, rfl, rfl⟩, hself⟩
    | opened =>
      simp only [reduceCtorEq, decide_false, Bool.and_false, Bool.false_and, Bool.false_eq_true,
        if_false, phase_of_get hget, Circuit.phase, Phase.abandon, true_and]
      exact ⟨⟨rfl, rfl, rfl⟩, hself⟩
    | halfOpen =>
      cases halfOpenProbe with
      | true =>
        simp only [decide_true, Bool.and_self, if_true, phase_transition, Circuit.phase,
          Phase.abandon, true_and]
        exact ⟨⟨rfl, rfl, rfl⟩, hself.set _ _⟩
      | false =>
        simp only [reduceCtorEq, decide_false, decide_true, Bool.false_and, Bool.false_eq_true,
          if_false, phase_of_get hget, Circuit.phase, Phase.abandon, true_and]
        exact ⟨⟨rfl, rfl, rfl⟩, hself⟩

/-! ## Completions -/

/-- How a completion that acts moves the phase of its key. -/
inductive Completes (breaker : UpstreamCircuitBreaker) (permit : CircuitBreakerPermit)
    (now : Number) : Completion → Phase → Prop
  | success : Completes breaker permit now .success (.closed 0)
  | failure : Completes breaker permit now .failure
      ((breaker.phase permit.key).fail breaker.failureThreshold breaker.openDurationMs now)
  /-- There is no room for the circuit of the key. -/
  | uncounted : breaker.circuits.get permit.key = none →
      breaker.maximumUpstreams ≤ breaker.circuits.size →
      Completes breaker permit now .failure (.closed 0)
  | abandonment : Completes breaker permit now .abandonment
      ((breaker.phase permit.key).abandon permit.halfOpenProbe now)

/-- The first completion of a permit. -/
theorem complete_spec {permit : CircuitBreakerPermit} (hopen : permit.completed = false)
    (completion : Completion) (breaker : UpstreamCircuitBreaker) (now : Number) :
    (permit.complete completion breaker now).1 = { permit with completed := true } ∧
      Completes breaker permit now completion
        ((permit.complete completion breaker now).2.phase permit.key) ∧
      SameSettings breaker (permit.complete completion breaker now).2 ∧
      (∀ other, other ≠ permit.key →
        Retains breaker (permit.complete completion breaker now).2 other) ∧
      (HasRoom breaker permit.key →
        Isolates breaker (permit.complete completion breaker now).2 permit.key) := by
  unfold CircuitBreakerPermit.complete CircuitBreakerPermit.recordSuccess
    CircuitBreakerPermit.recordFailure CircuitBreakerPermit.abandon CircuitBreakerPermit.finish
  simp only [hopen, Bool.false_eq_true, if_false]
  cases completion with
  | success =>
    have ⟨hphase, hsame, hothers⟩ := breaker.success_spec permit.key
    simp only [hphase, true_and]
    exact ⟨.success, hsame, fun _ hother => hothers.retains hother, fun _ => hothers⟩
  | failure =>
    have ⟨hphase, hsame, hothers⟩ := breaker.failure_spec permit.key now
    simp only [true_and]
    refine ⟨?_, hsame, hothers⟩
    rcases hphase with hphase | ⟨heq, hnone, hfull⟩
    · rw [hphase]
      exact .failure
    · rw [heq, phase_of_get_none hnone]
      exact .uncounted hnone hfull
  | abandonment =>
    have ⟨hphase, hsame, hothers⟩ :=
      breaker.abandonment_spec permit.key permit.halfOpenProbe now
    simp only [hphase, true_and]
    exact ⟨.abandonment, hsame, fun _ hother => hothers.retains hother, fun _ => hothers⟩

/-! ## The constructor -/

theorem validatePositiveInteger_ok {value result : Number} {name : String}
    (h : validatePositiveInteger value name = .ok result) : 1 ≤ result.num.toNat := by
  unfold validatePositiveInteger at h
  split at h
  · cases h
  · next hvalue =>
    rw [← Except.ok.inj h]
    exact one_le_toNat_num hvalue

/-- A breaker that has been made opens after some failures and has no circuits. -/
theorem new_ok {failureThreshold openDurationMs maximumUpstreams : Option Number}
    (h : new failureThreshold openDurationMs maximumUpstreams = .ok breaker) :
    1 ≤ breaker.failureThreshold ∧ breaker.circuits = .empty := by
  unfold new at h
  have ⟨threshold, hthreshold, hduration⟩ := Except.bind_eq_ok_iff.mp h
  have ⟨_, _, hmaximum⟩ := Except.bind_eq_ok_iff.mp hduration
  have ⟨_, _, heq⟩ := Except.bind_eq_ok_iff.mp hmaximum
  rw [← Except.ok.inj heq]
  exact ⟨validatePositiveInteger_ok hthreshold, rfl⟩

end UpstreamCircuitBreaker
end ShieldWard.Edge
