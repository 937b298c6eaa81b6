import ShieldWard.Edge.CircuitRuns
import ShieldWard.Edge.ProbesInFlight

/-!
# The table of circuits

The breaker keeps one circuit for each origin, and at most `maximumUpstreams` of them.
`recordUpstreamCircuitTransition` of `edge/src/metrics.ts` keeps the number of circuits that are
open or half open by what it is told of their transitions; circuits are also made, deleted and
evicted without one. What the counters are at a time is the fold over the transitions that the
breaker has reported until then.
-/

namespace ShieldWard.Edge

open Ecma

/-! ## The counters of the transitions -/

structure CircuitMetrics where
  circuitTransitions : OrderedMap UpstreamCircuitState ℕ
  unavailableUpstreamCircuits : ℤ

namespace CircuitMetrics

def CIRCUIT_STATES : List UpstreamCircuitState := [.closed, .opened, .halfOpen]

def new : CircuitMetrics where
  circuitTransitions := CIRCUIT_STATES.foldl (fun counts state => counts.set state 0) .empty
  unavailableUpstreamCircuits := 0

def recordUpstreamCircuitTransition (metrics : CircuitMetrics)
    (previous next : UpstreamCircuitState) : CircuitMetrics :=
  if previous ∉ CIRCUIT_STATES ∨ next ∉ CIRCUIT_STATES ∨ previous = next then metrics
  else
    { circuitTransitions := metrics.circuitTransitions.set next
        ((metrics.circuitTransitions.get next).getD 0 + 1)
      unavailableUpstreamCircuits :=
        if previous = .closed ∧ next ≠ .closed then metrics.unavailableUpstreamCircuits + 1
        else if previous ≠ .closed ∧ next = .closed then
          max 0 (metrics.unavailableUpstreamCircuits - 1)
        else metrics.unavailableUpstreamCircuits }

/-- The counters after the transitions have been reported. -/
def told (transitions : List (UpstreamCircuitState × UpstreamCircuitState)) : CircuitMetrics :=
  transitions.foldl (fun metrics transition =>
    metrics.recordUpstreamCircuitTransition transition.1 transition.2) new

theorem told_append (transitions : List (UpstreamCircuitState × UpstreamCircuitState))
    (previous next : UpstreamCircuitState) :
    told (transitions ++ [(previous, next)]) =
      (told transitions).recordUpstreamCircuitTransition previous next := by
  unfold told
  rw [List.foldl_append]
  rfl

/-- Every state is one of `CIRCUIT_STATES`. -/
theorem mem_states (state : UpstreamCircuitState) : state ∈ CIRCUIT_STATES := by
  cases state <;> decide

/-- What a change of state does to the gauge. -/
theorem unavailable_record (metrics : CircuitMetrics) {previous next : UpstreamCircuitState}
    (hne : previous ≠ next) :
    (metrics.recordUpstreamCircuitTransition previous next).unavailableUpstreamCircuits =
      if previous = .closed then metrics.unavailableUpstreamCircuits + 1
      else if next = .closed then max 0 (metrics.unavailableUpstreamCircuits - 1)
      else metrics.unavailableUpstreamCircuits := by
  unfold recordUpstreamCircuitTransition
  have hnone : ¬(previous ∉ CIRCUIT_STATES ∨ next ∉ CIRCUIT_STATES ∨ previous = next) := by
    simp [mem_states, hne]
  rw [if_neg hnone]
  dsimp only
  by_cases hprevious : previous = .closed
  · have hnext : next ≠ .closed := fun h => hne (hprevious.trans h.symm)
    rw [if_pos ⟨hprevious, hnext⟩, if_pos hprevious]
  · simp only [hprevious, false_and, if_false, ne_eq, not_false_iff, true_and]

end CircuitMetrics

/-- The counters of the gateway, whose breaker reports each transition to them. -/
def Gateway.circuitMetrics {P : Platform} (gateway : Gateway P) : CircuitMetrics :=
  .told gateway.circuitBreaker.transitions

namespace UpstreamCircuitBreaker

variable {P : Platform} {breaker breaker' : UpstreamCircuitBreaker} {key : String}

/-! ## What the table holds -/

/-- How many origins have a circuit that is open or half open. -/
def unavailable (breaker : UpstreamCircuitBreaker) : ℕ :=
  breaker.circuits.entries.countP fun entry => entry.2.state ≠ .closed

/-- The table is within its bound, the gauge counts its unavailable circuits, and no circuit has
closed when the gauge was zero. -/
structure Balanced (breaker : UpstreamCircuitBreaker) : Prop where
  bounded : breaker.circuits.size ≤ breaker.maximumUpstreams
  gauge : (CircuitMetrics.told breaker.transitions).unavailableUpstreamCircuits =
    breaker.unavailable
  unclamped : ∀ told previous later, breaker.transitions = told ++ (previous, .closed) :: later →
    previous ≠ .closed → 0 < (CircuitMetrics.told told).unavailableUpstreamCircuits

/-- An entry that is found counts by its state. -/
theorem unavailable_eq {circuit : Circuit} (h : breaker.circuits.get key = some circuit) :
    breaker.unavailable =
      { breaker with circuits := breaker.circuits.delete key }.unavailable +
        if circuit.state = .closed then 0 else 1 := by
  unfold unavailable
  rw [OrderedMap.countP_eq _ _ key, h]
  by_cases hclosed : circuit.state = .closed <;> simp [hclosed]

theorem unavailable_set (key : String) (circuit : Circuit) (transitions) :
    ({ breaker with circuits := breaker.circuits.set key circuit, transitions } :
        UpstreamCircuitBreaker).unavailable =
      { breaker with circuits := breaker.circuits.delete key }.unavailable +
        if circuit.state = .closed then 0 else 1 := by
  rw [unavailable_eq (OrderedMap.get_set_self breaker.circuits key circuit)]
  unfold unavailable
  dsimp only
  rw [OrderedMap.delete_set]

theorem size_delete {circuit : Circuit} (h : breaker.circuits.get key = some circuit) :
    (breaker.circuits.delete key).size + 1 = breaker.circuits.size := by
  have hcount := OrderedMap.countP_eq breaker.circuits (fun _ => true) key
  rw [h, List.countP_true] at hcount
  exact hcount.symm

theorem size_set_of_get {circuit found : Circuit} (h : breaker.circuits.get key = some found) :
    (breaker.circuits.set key circuit).size = breaker.circuits.size := by
  rw [OrderedMap.size_set, if_pos (OrderedMap.has_iff.mpr ⟨found, h⟩)]

/-- A transition of a circuit that is found in its state. -/
theorem Balanced.transition (h : Balanced breaker) {found circuit : Circuit}
    (hget : breaker.circuits.get key = some found) (hstate : found.state = circuit.state)
    (next : UpstreamCircuitState) : Balanced (breaker.transition key circuit next) := by
  have hbefore := unavailable_eq hget
  have hafter := breaker.unavailable_set key { circuit with state := next }
    (breaker.transition key circuit next).transitions
  have hbounded : (breaker.transition key circuit next).circuits.size ≤
      breaker.maximumUpstreams := by
    rw [show (breaker.transition key circuit next).circuits.size = _ from size_set_of_get hget]
    exact h.bounded
  have hgauge := h.gauge
  rw [hstate] at hbefore
  dsimp only at hafter
  by_cases hsame : circuit.state = next
  · have htransitions : (breaker.transition key circuit next).transitions =
        breaker.transitions := if_pos hsame
    refine ⟨hbounded, ?_, ?_⟩
    · rw [htransitions, hgauge, hbefore, hsame]
      exact congrArg _ hafter.symm
    · rw [htransitions]
      exact h.unclamped
  · have htransitions : (breaker.transition key circuit next).transitions =
        breaker.transitions ++ [(circuit.state, next)] := if_neg hsame
    -- a circuit that closes is one of those that the gauge counts
    have hpositive : circuit.state ≠ .closed →
        0 < (CircuitMetrics.told breaker.transitions).unavailableUpstreamCircuits := by
      intro hopen
      rw [if_neg hopen] at hbefore
      omega
    refine ⟨hbounded, ?_, ?_⟩
    · rw [htransitions, CircuitMetrics.told_append, CircuitMetrics.unavailable_record _ hsame]
      show _ = ((breaker.transition key circuit next).unavailable : ℤ)
      rw [show (breaker.transition key circuit next).unavailable = _ from hafter]
      by_cases hclosed : circuit.state = .closed
      · have hnext : next ≠ .closed := fun hnext => hsame (hclosed.trans hnext.symm)
        rw [if_pos hclosed, hgauge, hbefore, if_pos hclosed, if_neg hnext]
        omega
      · have hsome := hpositive hclosed
        rw [if_neg hclosed] at hbefore ⊢
        by_cases hnext : next = .closed
        · rw [if_pos hnext, if_pos hnext]
          omega
        · rw [if_neg hnext, if_neg hnext]
          omega
    · intro told previous later heq hopen
      rw [htransitions] at heq
      rcases List.eq_nil_or_concat later with hnil | ⟨rest, last, hlast⟩
      · rw [hnil] at heq
        obtain ⟨htold, hlast⟩ := List.append_inj' heq rfl
        have hpair := List.head_eq_of_cons_eq hlast
        rw [← htold]
        exact hpositive ((Prod.mk.inj hpair).1 ▸ hopen)
      · rw [hlast, List.concat_eq_append, ← List.cons_append, ← List.append_assoc] at heq
        exact h.unclamped told previous rest (List.append_inj' heq rfl).1 hopen

theorem transition_self (circuit : Circuit) :
    breaker.transition key circuit circuit.state =
      { breaker with circuits := breaker.circuits.set key circuit } := by
  unfold UpstreamCircuitBreaker.transition
  rw [if_pos rfl]

/-- A circuit that is stored again in its state. -/
theorem Balanced.set (h : Balanced breaker) {found circuit : Circuit}
    (hget : breaker.circuits.get key = some found) (hstate : found.state = circuit.state) :
    Balanced { breaker with circuits := breaker.circuits.set key circuit } := by
  rw [← transition_self]
  exact h.transition hget hstate circuit.state

/-- A closed circuit that is made where there is room. -/
theorem Balanced.insert (h : Balanced breaker) {circuit : Circuit}
    (hget : breaker.circuits.get key = none)
    (hroom : breaker.circuits.size < breaker.maximumUpstreams)
    (hclosed : circuit.state = .closed) :
    Balanced { breaker with circuits := breaker.circuits.set key circuit } where
  bounded := by
    have hhas : ¬breaker.circuits.has key = true := by
      rw [OrderedMap.has_iff, hget]
      simp
    show (breaker.circuits.set key circuit).size ≤ breaker.maximumUpstreams
    rw [OrderedMap.size_set, if_neg hhas]
    omega
  gauge := by
    have hset := breaker.unavailable_set key circuit breaker.transitions
    have hnone : breaker.unavailable =
        { breaker with circuits := breaker.circuits.delete key }.unavailable := by
      unfold unavailable
      rw [OrderedMap.countP_eq _ _ key, hget]
      rfl
    rw [if_pos hclosed, ← hnone] at hset
    rw [hset]
    exact h.gauge
  unclamped := h.unclamped

/-- A closed circuit that is deleted. -/
theorem Balanced.delete (h : Balanced breaker) {circuit : Circuit}
    (hget : breaker.circuits.get key = some circuit) (hclosed : circuit.state = .closed) :
    Balanced { breaker with circuits := breaker.circuits.delete key } where
  bounded := by
    have hsize := size_delete hget
    have hbounded := h.bounded
    dsimp only
    omega
  gauge := by
    have heq := unavailable_eq hget
    rw [if_pos hclosed] at heq
    rw [← Nat.add_zero (unavailable _), ← heq]
    exact h.gauge
  unclamped := h.unclamped

/-! ## Room for a circuit -/

/-- A circuit is found in the table, or made where there is room or a closed circuit to evict. -/
theorem Balanced.findOrCreate (h : Balanced breaker) (key : String) (now : Number) :
    breaker.findOrCreate key now = (breaker, none) ∨
      ∃ found circuit, breaker.findOrCreate key now = (found, some circuit) ∧ Balanced found ∧
        found.circuits.get key = some circuit := by
  unfold UpstreamCircuitBreaker.findOrCreate
  cases hget : breaker.circuits.get key with
  | some circuit => exact .inr ⟨breaker, circuit, rfl, h, hget⟩
  | none =>
    by_cases hfull : breaker.maximumUpstreams ≤ breaker.circuits.size
    · simp only [if_pos hfull]
      cases hevict : breaker.evictClosedCircuit with
      | none => exact .inl rfl
      | some evicted =>
        obtain ⟨candidate, hcandidate, rfl⟩ := Option.map_eq_some_iff.mp hevict
        obtain ⟨hmem, hclosed⟩ := evictionCandidate_mem hcandidate
        have hfound : breaker.circuits.get candidate.1 = some candidate.2 :=
          OrderedMap.get_eq_some_iff.mpr hmem
        have hsize := size_delete hfound
        have hbounded := h.bounded
        refine .inr ⟨_, _, rfl, (h.delete hfound hclosed).insert ?_ ?_ rfl,
          OrderedMap.get_set_self _ _ _⟩
        · show (breaker.circuits.delete candidate.1).get key = none
          rw [OrderedMap.get_delete, hget, ite_self]
        · show (breaker.circuits.delete candidate.1).size < breaker.maximumUpstreams
          omega
    · simp only [if_neg hfull]
      exact .inr ⟨_, _, rfl, h.insert hget (not_le.mp hfull) rfl, OrderedMap.get_set_self _ _ _⟩

/-! ## Operations -/

theorem Balanced.acquire (h : Balanced breaker) (upstream : String) (now : Number) :
    Balanced (breaker.acquire P upstream now).1 := by
  unfold UpstreamCircuitBreaker.acquire
  generalize upstreamOrigin P upstream = key
  rcases h.findOrCreate key now with hnone | ⟨found, circuit, hfound, hbalanced, hget⟩
  · simp only [hnone]
    exact h
  · simp only [hfound]
    have htouched : Balanced { found with
        circuits := found.circuits.set key { circuit with lastTouched := now } } :=
      hbalanced.set hget rfl
    split
    · next hopened =>
      split
      · exact htouched
      · exact htouched.transition (OrderedMap.get_set_self _ _ _) rfl .halfOpen
    · exact htouched
    · exact htouched

theorem Balanced.success (h : Balanced breaker) (key : String) :
    Balanced (breaker.success key) := by
  unfold UpstreamCircuitBreaker.success
  split
  · exact h
  · next circuit hget =>
    exact (h.transition hget rfl .closed).delete (OrderedMap.get_set_self _ _ _) rfl

theorem Balanced.failure (h : Balanced breaker) (key : String) (now : Number) :
    Balanced (breaker.failure key now) := by
  unfold UpstreamCircuitBreaker.failure
  rcases h.findOrCreate key now with hnone | ⟨found, circuit, hfound, hbalanced, hget⟩
  · simp only [hnone]
    exact h
  · simp only [hfound]
    split
    · exact hbalanced.transition hget (by rfl) .opened
    · exact hbalanced.transition hget (by rfl) .opened
    · split
      · exact hbalanced.transition hget (by rfl) .opened
      · exact hbalanced.set hget rfl

theorem Balanced.abandonment (h : Balanced breaker) (key : String) (halfOpenProbe : Bool)
    (now : Number) : Balanced (breaker.abandonment key halfOpenProbe now) := by
  unfold UpstreamCircuitBreaker.abandonment
  split
  · exact h
  · next circuit hget =>
    split
    · exact h.transition hget (by rfl) .opened
    · split
      · next hclosed =>
        rw [Bool.and_eq_true, decide_eq_true_iff] at hclosed
        exact h.delete hget hclosed.1
      · exact h

theorem Balanced.complete (h : Balanced breaker) (permit : CircuitBreakerPermit)
    (completion : Completion) (now : Number) :
    Balanced (permit.complete completion breaker now).2 := by
  have hfinish : ∀ action : UpstreamCircuitBreaker → UpstreamCircuitBreaker,
      Balanced (action breaker) → Balanced (permit.finish breaker action).2 := by
    intro action haction
    unfold CircuitBreakerPermit.finish
    split
    · exact h
    · exact haction
  cases completion with
  | success => exact hfinish _ (h.success permit.key)
  | failure => exact hfinish _ (h.failure permit.key now)
  | abandonment => exact hfinish _ (h.abandonment permit.key permit.halfOpenProbe now)

theorem balanced_of_new {failureThreshold openDurationMs maximumUpstreams : Option Number}
    (h : new failureThreshold openDurationMs maximumUpstreams = .ok breaker) :
    Balanced breaker := by
  unfold new at h
  obtain ⟨threshold, _, hduration⟩ := Except.bind_eq_ok_iff.mp h
  obtain ⟨duration, _, hmaximum⟩ := Except.bind_eq_ok_iff.mp hduration
  obtain ⟨maximum, _, heq⟩ := Except.bind_eq_ok_iff.mp hmaximum
  rw [← Except.ok.inj heq]
  refine ⟨Nat.zero_le _, rfl, fun told previous later hnone => ?_⟩
  exact absurd hnone (List.append_ne_nil_of_right_ne_nil told (List.cons_ne_nil _ _)).symm

/-! ## Refusals for lack of room -/

/-- What a fold has to have met when it ends with nothing. -/
theorem foldl_eq_none {α β : Type} {f : Option β → α → Option β} {p : α → Prop}
    (hf : ∀ found next, f found next = none → found = none ∧ p next) {found : Option β}
    {entries : List α} (h : entries.foldl f found = none) :
    found = none ∧ ∀ entry ∈ entries, p entry := by
  induction entries generalizing found with
  | nil => exact ⟨h, fun _ hmem => absurd hmem List.not_mem_nil⟩
  | cons entry entries ih =>
    obtain ⟨hnext, hrest⟩ := ih h
    obtain ⟨hnone, hentry⟩ := hf found entry hnext
    exact ⟨hnone, List.forall_mem_cons.mpr ⟨hentry, hrest⟩⟩

/-- The search finds a candidate as soon as it has met a closed circuit. -/
theorem unavailable_of_evictionCandidate (h : breaker.evictionCandidate = none) :
    ∀ entry ∈ breaker.circuits.entries, entry.2.state ≠ .closed := by
  refine (foldl_eq_none (fun candidate entry hnext => ?_) h).2
  split at hnext
  · next hopen => exact ⟨hnext, hopen⟩
  · split at hnext
    · cases hnext
    · split at hnext <;> cases hnext

/-- There is no room for a new origin when the table is full of unavailable circuits. -/
theorem findOrCreate_none {now : Number} (h : breaker.findOrCreate key now = (breaker', none)) :
    breaker.circuits.get key = none ∧
      breaker.maximumUpstreams ≤ breaker.circuits.size ∧
      ∀ entry ∈ breaker.circuits.entries, entry.2.state ≠ .closed := by
  unfold UpstreamCircuitBreaker.findOrCreate at h
  cases hget : breaker.circuits.get key with
  | some circuit =>
    rw [hget] at h
    cases (Prod.mk.inj h).2
  | none =>
    rw [hget] at h
    by_cases hfull : breaker.maximumUpstreams ≤ breaker.circuits.size
    · simp only [if_pos hfull] at h
      cases hevict : breaker.evictClosedCircuit with
      | none =>
        exact ⟨rfl, hfull, unavailable_of_evictionCandidate (Option.map_eq_none_iff.mp hevict)⟩
      | some evicted =>
        rw [hevict] at h
        cases (Prod.mk.inj h).2
    · simp only [if_neg hfull] at h
      cases (Prod.mk.inj h).2

/-- A new origin that is refused has found the table full of unavailable circuits. -/
theorem unavailable_of_refused {upstream : String} {now seconds : Number}
    (hnew : breaker.circuits.get (upstreamOrigin P upstream) = none)
    (h : (breaker.acquire P upstream now).2 = .rejection seconds) :
    breaker.maximumUpstreams ≤ breaker.circuits.size ∧
      ∀ entry ∈ breaker.circuits.entries, entry.2.state ≠ .closed := by
  rcases hfound : breaker.findOrCreate (upstreamOrigin P upstream) now with ⟨found, circuit⟩
  cases circuit with
  | none => exact (findOrCreate_none hfound).2
  | some circuit =>
    -- a circuit that is made is closed
    rcases breaker.findOrCreate_cases (upstreamOrigin P upstream) now with
      ⟨heq, _⟩ | ⟨made, circuit', heq, hphase, _⟩
    · rw [heq] at hfound
      cases (Prod.mk.inj hfound).2
    · rw [heq] at hfound
      rw [phase_of_get_none hnew] at hphase
      have hclosed : circuit'.state = .closed := by
        unfold Circuit.phase at hphase
        split at hphase
        · assumption
        · cases hphase
        · cases hphase
      unfold UpstreamCircuitBreaker.acquire at h
      simp only [heq, hclosed] at h
      cases h

theorem not_isClosed_phase_iff :
    (breaker.phase key).isClosed = false ↔
      ∃ circuit, breaker.circuits.get key = some circuit ∧ circuit.state ≠ .closed := by
  rw [← Bool.not_eq_true, isClosed_phase_iff]
  simp only [not_forall, exists_prop]

/-- A circuit that is not closed is not closed after its own acquisition either. -/
theorem Acquires.isClosed {threshold : ℕ} {now : Number} {phase phase' : Phase}
    {acquisition : CircuitBreakerAcquisition}
    (h : Acquires threshold key now phase phase' acquisition) (hopen : phase.isClosed = false) :
    phase'.isClosed = false := by
  cases h with
  | full => cases hopen
  | closed => cases hopen
  | early => rfl
  | probe => rfl
  | probing => rfl

/-- Only a success closes a circuit that is not closed. -/
theorem Completes.isClosed {permit : CircuitBreakerPermit} {now : Number}
    {completion : Completion} {phase : Phase} (h : Completes breaker permit now completion phase)
    (hopen : (breaker.phase permit.key).isClosed = false) :
    phase.isClosed = false ∨ completion = .success := by
  cases h with
  | success => exact .inr rfl
  | uncounted hnone =>
    rw [phase_of_get_none hnone] at hopen
    cases hopen
  | failure =>
    left
    generalize breaker.phase permit.key = before at hopen ⊢
    cases before with
    | closed => cases hopen
    | opened => rfl
    | halfOpen => rfl
  | abandonment =>
    left
    generalize breaker.phase permit.key = before at hopen ⊢
    cases before with
    | closed => cases hopen
    | opened => rfl
    | halfOpen =>
      show (if permit.halfOpenProbe then Phase.opened now else .halfOpen).isClosed = false
      split
      · rfl
      · rfl

theorem maximumUpstreams_of_new {failureThreshold openDurationMs maximumUpstreams : Option Number}
    (h : new failureThreshold openDurationMs maximumUpstreams = .ok breaker) :
    (breaker.maximumUpstreams : Number) = maximumUpstreams.getD DEFAULT_MAXIMUM_UPSTREAMS := by
  unfold new at h
  obtain ⟨threshold, _, hduration⟩ := Except.bind_eq_ok_iff.mp h
  obtain ⟨duration, _, hmaximum⟩ := Except.bind_eq_ok_iff.mp hduration
  obtain ⟨maximum, hvalid, heq⟩ := Except.bind_eq_ok_iff.mp hmaximum
  unfold validatePositiveInteger at hvalid
  split at hvalid
  · cases hvalid
  · next hpositive =>
    rw [← Except.ok.inj heq, ← Except.ok.inj hvalid]
    exact natCast_toNat_num hpositive

end UpstreamCircuitBreaker

namespace CircuitRun

open UpstreamCircuitBreaker

variable {P : Platform} {failureThreshold openDurationMs maximumUpstreams : Option Number}
  {s s' : CircuitRun}

/-- The step completes a permit of the key with a success. -/
def Succeeds (s : CircuitRun) (a : CircuitAction) (key : String) : Prop :=
  ∃ index permit now, a = .complete index .success now ∧ s.permits[index]? = some permit ∧
    permit.key = key ∧ permit.completed = false

/-- An unavailable circuit is not evicted: it leaves the table by a success of its own. -/
theorem retained_of_step {a : CircuitAction} (h : step P s a = some s') {key : String}
    (hopen : (s.breaker.phase key).isClosed = false) :
    (s'.breaker.phase key).isClosed = false ∨ Succeeds s a key := by
  cases a with
  | acquire upstream now =>
    obtain ⟨_, rfl⟩ := step_acquire h
    obtain ⟨hacquires, _, hothers, _⟩ := s.breaker.acquire_spec (P := P) upstream now
    left
    by_cases heq : key = upstreamOrigin P upstream
    · rw [heq] at hopen ⊢
      exact hacquires.isClosed hopen
    · show ((s.breaker.acquire P upstream now).1.phase key).isClosed = false
      rw [(hothers key heq).eq_of_not_closed hopen]
      exact hopen
  | complete index completion now =>
    obtain ⟨_, permit, hget, rfl⟩ := step_complete h
    cases hdone : permit.completed with
    | true =>
      left
      rw [complete_of_completed hget hdone]
      exact hopen
    | false =>
      obtain ⟨_, hcompletes, _, hothers, _⟩ := complete_spec hdone completion s.breaker now
      by_cases heq : key = permit.key
      · rw [heq] at hopen
        rcases hcompletes.isClosed hopen with hstays | hsuccess
        · exact .inl (heq ▸ hstays)
        · exact .inr ⟨index, permit, now, by rw [hsuccess], hget, heq.symm, hdone⟩
      · left
        show ((permit.complete completion s.breaker now).2.phase key).isClosed = false
        rw [(hothers key heq).eq_of_not_closed hopen]
        exact hopen

/-- The table of a run is balanced, and its bound is the one that was asked for. -/
def Bounded (maximum : Number) (s : CircuitRun) : Prop :=
  Balanced s.breaker ∧ (s.breaker.maximumUpstreams : Number) = maximum

theorem bounded_of_reachable
    (h : (machine P failureThreshold openDurationMs maximumUpstreams).Reachable s) :
    Bounded (maximumUpstreams.getD DEFAULT_MAXIMUM_UPSTREAMS) s := by
  refine h.invariant (fun s hinit => ?_) fun s a s' hI hstep => ?_
  · obtain ⟨breaker, now, hnew, rfl⟩ := hinit
    exact ⟨balanced_of_new hnew, maximumUpstreams_of_new hnew⟩
  · refine step_rule (fun _ _ => True) (fun s now hI _ => hI) (fun s upstream now hI _ _ => ?_)
      (fun s index permit completion now hI _ _ _ hopen => ?_) hI trivial hstep
    · obtain ⟨_, hsame, _⟩ := s.breaker.acquire_spec (P := P) upstream now
      refine ⟨hI.1.acquire upstream now, ?_⟩
      show ((s.breaker.acquire P upstream now).1.maximumUpstreams : Number) = _
      rw [hsame.maximumUpstreams]
      exact hI.2
    · obtain ⟨_, _, hsame, _⟩ := complete_spec hopen completion s.breaker now
      refine ⟨hI.1.complete permit completion now, ?_⟩
      show ((permit.complete completion s.breaker now).2.maximumUpstreams : Number) = _
      rw [hsame.maximumUpstreams]
      exact hI.2

/-- The table never holds more origins than it may, an origin whose circuit is open or half open
leaves it by a success of its own only, and a new origin is refused only when every origin of the
table has such a circuit: none of them is granted more than the probe of a period that is over. -/
theorem refused_when_unavailable
    (h : (machine P failureThreshold openDurationMs maximumUpstreams).Reachable s) :
    (s.breaker.circuits.size : Number) ≤ maximumUpstreams.getD DEFAULT_MAXIMUM_UPSTREAMS ∧
      (∀ a s' key circuit, step P s a = some s' → s.breaker.circuits.get key = some circuit →
        circuit.state ≠ .closed → Succeeds s a key ∨
          ∃ circuit', s'.breaker.circuits.get key = some circuit' ∧ circuit'.state ≠ .closed) ∧
      ∀ upstream now seconds, s.breaker.circuits.get (upstreamOrigin P upstream) = none →
        (s.breaker.acquire P upstream now).2 = .rejection seconds →
        ∀ key circuit, s.breaker.circuits.get key = some circuit → circuit.state ≠ .closed ∧
          ∀ other permit, upstreamOrigin P other = key →
            (s.breaker.acquire P other now).2 = .permit permit →
            circuit.state = .opened ∧ circuit.openedUntil ≤ now ∧
              permit.halfOpenProbe = true := by
  obtain ⟨hbalanced, hmaximum⟩ := bounded_of_reachable h
  refine ⟨?_, ?_, ?_⟩
  · rw [← hmaximum]
    exact_mod_cast hbalanced.bounded
  · intro a s' key circuit hstep hget hopen
    rcases retained_of_step hstep (not_isClosed_phase_iff.mpr ⟨circuit, hget, hopen⟩) with
      hstays | hsuccess
    · exact .inr (not_isClosed_phase_iff.mp hstays)
    · exact .inl hsuccess
  · intro upstream now seconds hnew hrefused key circuit hget
    -- a refusal means that no circuit could be evicted, so none is closed
    have hopen := (unavailable_of_refused hnew hrefused).2 (key, circuit)
      (OrderedMap.get_eq_some_iff.mp hget)
    refine ⟨hopen, fun other permit horigin hgranted => ?_⟩
    obtain ⟨hacquires, _⟩ := s.breaker.acquire_spec (P := P) other now
    rw [horigin, phase_of_get hget, hgranted] at hacquires
    generalize (s.breaker.acquire P other now).1.phase key = after at hacquires
    obtain ⟨state, failures, deadline, touched⟩ := circuit
    cases state with
    | closed => exact absurd rfl hopen
    | halfOpen => cases hacquires
    | opened =>
      cases hacquires with
      | probe hlate => exact ⟨rfl, hlate, rfl⟩

namespace Orders

def billing : String := "https://billing.internal/api"

/-- A platform that knows the URLs of two upstreams. -/
def crowdedPlatform : Platform :=
  { platform with
    parseUrl := fun text =>
      if text = billing then
        (platform.parseUrl upstream).map fun url => { url with hostname := "billing.internal" }
      else platform.parseUrl text }

/-- A breaker with room for one origin. -/
def crowded : System.Machine CircuitRun CircuitAction :=
  machine crowdedPlatform (some 1) (some 1000) (some 1)

theorem crowded_reachable : crowded.Reachable (initial (.create 1 1000 1) 0) :=
  .init ⟨.create 1 1000 1, 0, rfl, rfl⟩

/-- The failure that opens the circuit of the orders. -/
def crowding : List CircuitAction := [.acquire upstream 0, .complete 0 .failure 0]

/-- What the table holds of two origins, and whether an acquisition at the end of the open period
grants them a permit. -/
def atRecovery (s : CircuitRun) : List (Option UpstreamCircuitState × Bool) :=
  [upstream, billing].map fun text =>
    ((s.breaker.circuits.get (upstreamOrigin crowdedPlatform text)).map (·.state),
      (s.breaker.acquire crowdedPlatform text 1000).2.granted.isSome)

end Orders

/-- When the open period of the only origin of the table is over, a new origin is still refused,
while that origin would be granted its probe. -/
theorem refused_beside_recoverable : ∃ s, Orders.crowded.Reachable s ∧ s.clock ≤ 1000 ∧
    s.breaker.circuits.get (upstreamOrigin Orders.crowdedPlatform Orders.billing) = none ∧
    (s.breaker.acquire Orders.crowdedPlatform Orders.billing 1000).2.granted = none ∧
    s.breaker.circuits.get (upstreamOrigin Orders.crowdedPlatform Orders.upstream) ≠ none ∧
    (s.breaker.acquire Orders.crowdedPlatform Orders.upstream 1000).2.granted ≠ none := by
  have hrun : ((Orders.crowded.run (initial (.create 1 1000 1) 0) Orders.crowding).map fun s =>
      (decide (s.clock ≤ 1000), Orders.atRecovery s)) =
      some (true, [(some .opened, true), (none, false)]) := by decide +kernel
  obtain ⟨s, hs, heq⟩ := Option.map_eq_some_iff.mp hrun
  obtain ⟨hclock, hobserved⟩ := Prod.mk.inj heq
  simp only [Orders.atRecovery, List.map_cons, List.map_nil, List.cons.injEq, Prod.mk.injEq,
    Option.map_eq_none_iff, Option.isSome_eq_false_iff, Option.isNone_iff_eq_none] at hobserved
  obtain ⟨⟨hopened, hgranted⟩, ⟨hnone, hrefused⟩, _⟩ := hobserved
  refine ⟨s, Orders.crowded_reachable.of_run _ hs, of_decide_eq_true hclock, hnone, hrefused,
    ?_, ?_⟩
  · intro habsent
    rw [habsent] at hopened
    cases hopened
  · intro habsent
    rw [habsent] at hgranted
    cases hgranted

/-- The origin beside which a new one is refused has a circuit that is not closed. -/
theorem refused_when_unavailable_orders : ∃ s circuit,
    Orders.crowded.run (initial (.create 1 1000 1) 0) Orders.crowding = some s ∧
    s.breaker.circuits.get (upstreamOrigin Orders.crowdedPlatform Orders.upstream) =
      some circuit ∧ circuit.state ≠ .closed := by
  have hrun : ((Orders.crowded.run (initial (.create 1 1000 1) 0) Orders.crowding).map fun s =>
      Orders.atRecovery s) = some [(some .opened, true), (none, false)] := by decide +kernel
  obtain ⟨s, hs, hobserved⟩ := Option.map_eq_some_iff.mp hrun
  simp only [Orders.atRecovery, List.map_cons, List.map_nil, List.cons.injEq, Prod.mk.injEq,
    Option.map_eq_none_iff, Option.isSome_eq_false_iff, Option.isNone_iff_eq_none] at hobserved
  obtain ⟨⟨hopened, _⟩, ⟨hnone, hrefused⟩, _⟩ := hobserved
  obtain ⟨circuit, hget, _⟩ := Option.map_eq_some_iff.mp hopened
  have hreachable := Orders.crowded_reachable.of_run _ hs
  obtain ⟨seconds, hseconds⟩ : ∃ seconds, (s.breaker.acquire Orders.crowdedPlatform Orders.billing
      1000).2 = .rejection seconds := by
    cases hacquired : (s.breaker.acquire Orders.crowdedPlatform Orders.billing 1000).2 with
    | permit permit =>
      rw [hacquired] at hrefused
      cases hrefused
    | rejection seconds => exact ⟨seconds, rfl⟩
  exact ⟨s, circuit, hs, hget, ((refused_when_unavailable hreachable).2.2 Orders.billing 1000
    seconds hnone hseconds _ circuit hget).1⟩

end CircuitRun

/-! ## Runs of the gateway -/

section

variable {P : Platform} {options : GatewayOptions} {trustedKeys : TrustedKeyring}
  {s : GatewayState P}

open UpstreamCircuitBreaker

/-- The breaker of a gateway is made of its options. -/
theorem Gateway.new_circuitBreaker {gateway : Gateway P}
    (h : Gateway.new P options = .ok gateway) :
    UpstreamCircuitBreaker.new options.circuitFailureThreshold options.circuitOpenDurationMs
      options.circuitMaximumUpstreams = .ok gateway.circuitBreaker := by
  unfold Gateway.new at h
  obtain ⟨admissionGate, _, hbreaker⟩ := Except.bind_eq_ok_iff.mp h
  obtain ⟨circuitBreaker, hnew, hrest⟩ := Except.bind_eq_ok_iff.mp hbreaker
  split at hrest
  · cases hrest
  · split at hrest
    · cases hrest
    · rw [← Except.ok.inj hrest]
      exact hnew

theorem Turn.balanced_afterUpstream {t : Turn P} (h : Balanced t.gateway.circuitBreaker)
    (permit : CircuitBreakerPermit) (settlement : UpstreamSettlement) (now : Number) :
    Balanced (t.afterUpstream permit settlement now).gateway.circuitBreaker :=
  h.complete permit settlement.completion now

/-- A step of a call is an operation on the breaker, or two, or none. -/
theorem Turn.Moves.balanced {t t' : Turn P} {a : CallAction} (hmoves : Turn.Moves t a t')
    (horderly : Orderly t.call) (h : Balanced t.gateway.circuitBreaker) :
    Balanced t'.gateway.circuitBreaker := by
  cases hmoves with
  | evaluates => exact h
  | verified => exact h
  | checked => exact h
  | aborted => exact h
  | streams => exact h
  | @ends _ t₁ _ hprepares hkeeps =>
    rw [hkeeps.circuitBreaker]
    cases hprepares with
    | reading => exact h
    | undecided => exact h
    | decided => exact h
    | @refused _ _ route circuitBreaker seconds now _ _ hacquire =>
      have hrefused := h.acquire (P := P) route.upstream now
      rw [hacquire] at hrefused
      exact hrefused
  | @sends _ _ _ route circuitBreaker permit sent now _ _ hacquire =>
    have hgranted := h.acquire (P := P) route.upstream now.date
    rw [hacquire] at hgranted
    exact hgranted
  | @unsendable _ _ _ route circuitBreaker permit now settlement _ _ _ hacquire hends =>
    have hgranted := h.acquire (P := P) route.upstream now.date
    rw [hacquire] at hgranted
    rw [hends.keeps.circuitBreaker]
    exact balanced_afterUpstream hgranted permit settlement now.date
  | @fetched _ route permit outcome now hstage =>
    obtain ⟨settlement, hends⟩ := horderly.afterFetch hstage outcome now
    rw [hends.keeps.circuitBreaker]
    exact balanced_afterUpstream h permit settlement now.date

theorem balanced_of_reachable (h : (Gateway.machine P options trustedKeys).Reachable s) :
    Balanced s.gateway.circuitBreaker := by
  induction h with
  | @init s hinit =>
    obtain ⟨gateway, hnew, heq⟩ := hinit
    rw [heq]
    exact balanced_of_new (Gateway.new_circuitBreaker hnew)
  | @step s s' a hreachable _ hstep ih =>
    cases Gateway.steps_of_step hstep with
    | arrives harrives =>
      cases harrives with
      | admitted => exact ih
      | turnedAway _ _ hkeeps _ =>
        rw [hkeeps.circuitBreaker]
        exact ih
    | moves hcall hmoves =>
      have horderly := orderly_of_reachable hreachable _ (List.mem_of_getElem? hcall)
      exact hmoves.balanced horderly ih
    | gate => exact ih
    | installs => exact ih

/-- The gauge is the number of origins whose circuit is open or half open, and whenever a circuit
closes the gauge is positive, so the clamp at zero never changes it. -/
theorem gauge_exact (h : (Gateway.machine P options trustedKeys).Reachable s) :
    s.gateway.circuitMetrics.unavailableUpstreamCircuits =
        (s.gateway.circuitBreaker.circuits.entries.countP fun entry =>
          entry.2.state = .opened ∨ entry.2.state = .halfOpen : ℕ) ∧
      ∀ told previous later,
        s.gateway.circuitBreaker.transitions = told ++ (previous, .closed) :: later →
        previous ≠ .closed → 0 < (CircuitMetrics.told told).unavailableUpstreamCircuits := by
  have hbalanced := balanced_of_reachable h
  refine ⟨hbalanced.gauge.trans (congrArg _ ?_), hbalanced.unclamped⟩
  apply List.countP_congr
  intro entry _
  cases entry.2.state <;> simp

end

namespace Orders

open Delivery.Orders

/-- The gauge while the probe of a circuit that has opened is in flight. -/
theorem gauge_probing :
    ∃ s, (Gateway.machine platform options keyring).run serving probing = some s ∧
      s.gateway.circuitMetrics.unavailableUpstreamCircuits = 1 ∧
      s.gateway.circuitMetrics.unavailableUpstreamCircuits =
        (s.gateway.circuitBreaker.circuits.entries.countP fun entry =>
          entry.2.state = .opened ∨ entry.2.state = .halfOpen : ℕ) := by
  have hrun : ((Gateway.machine platform options keyring).run serving probing).map
      (fun s => s.gateway.circuitMetrics.unavailableUpstreamCircuits) = some 1 := by
    decide +kernel
  obtain ⟨s, hs, hgauge⟩ := Option.map_eq_some_iff.mp hrun
  exact ⟨s, hs, hgauge, (gauge_exact (serving_reachable.of_run _ hs)).1⟩

end Orders
end ShieldWard.Edge
