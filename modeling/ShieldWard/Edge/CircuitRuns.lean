import ShieldWard.Edge.CircuitBreakerTheorems
import ShieldWard.Lib.System
import Mathlib.Data.Finset.Card

/-!
# Runs of the circuit breaker

Acquisitions and completions of permits in any order, with a clock that never goes backwards.
Permits are numbered by the order in which they were granted, and any of them may be completed
at any time and more than once. The completions that acted and the times at which a failure
has opened a circuit are kept as history.
-/

namespace ShieldWard.Edge

open Ecma UpstreamCircuitBreaker

/-- The permit of an acquisition, if it grants one. -/
def CircuitBreakerAcquisition.granted : CircuitBreakerAcquisition → Option CircuitBreakerPermit
  | .permit granted => some granted
  | .rejection _ => none

def Phase.isOpened : Phase → Bool
  | .opened _ => true
  | _ => false

structure CircuitRun where
  breaker : UpstreamCircuitBreaker
  /-- The permits granted so far. -/
  permits : List CircuitBreakerPermit
  /-- The last reading of the clock. -/
  clock : Number
  /-- The completions that acted, oldest first. -/
  recorded : List (String × Completion)
  /-- The keys and the times at which a failure made a circuit open. -/
  openings : List (String × Number)

inductive CircuitAction
  | acquire (upstream : String) (now : Number)
  | complete (index : ℕ) (completion : Completion) (now : Number)

namespace CircuitRun

/-- A completion of a permit. -/
def complete (s : CircuitRun) (index : ℕ) (permit : CircuitBreakerPermit)
    (completion : Completion) (now : Number) : CircuitRun :=
  let (permit', breaker) := permit.complete completion s.breaker now
  let opens := completion = .failure ∧ (s.breaker.phase permit.key).isOpened = false ∧
    (breaker.phase permit.key).isOpened = true
  { breaker
    permits := s.permits.set index permit'
    clock := now
    recorded :=
      if permit.completed then s.recorded else s.recorded ++ [(permit.key, completion)]
    openings := if opens then s.openings ++ [(permit.key, now)] else s.openings }

def step (P : Platform) (s : CircuitRun) : CircuitAction → Option CircuitRun
  | .acquire upstream now =>
    if now < s.clock then none
    else
      let (breaker, acquisition) := s.breaker.acquire P upstream now
      some { s with
        breaker
        permits := s.permits ++ acquisition.granted.toList
        clock := now }
  | .complete index completion now =>
    if now < s.clock then none
    else (s.permits[index]?).map fun permit => s.complete index permit completion now

def initial (breaker : UpstreamCircuitBreaker) (now : Number) : CircuitRun where
  breaker := breaker
  permits := []
  clock := now
  recorded := []
  openings := []

/-- The runs of a breaker with the given options. -/
def machine (P : Platform) (failureThreshold openDurationMs maximumUpstreams : Option Number) :
    System.Machine CircuitRun CircuitAction where
  init s := ∃ breaker now,
    UpstreamCircuitBreaker.new failureThreshold openDurationMs maximumUpstreams = .ok breaker ∧
      s = initial breaker now
  step := step P

/-! ## What a step does -/

variable {P : Platform} {failureThreshold openDurationMs maximumUpstreams : Option Number}
  {s s' : CircuitRun}

/-- A completion of a completed permit does nothing. -/
theorem complete_of_completed {index : ℕ} {permit : CircuitBreakerPermit}
    (hget : s.permits[index]? = some permit) (hdone : permit.completed = true)
    (completion : Completion) (now : Number) :
    s.complete index permit completion now = { s with clock := now } := by
  have hfinish : permit.complete completion s.breaker now = (permit, s.breaker) := by
    unfold CircuitBreakerPermit.complete CircuitBreakerPermit.recordSuccess
      CircuitBreakerPermit.recordFailure CircuitBreakerPermit.abandon CircuitBreakerPermit.finish
    cases completion <;> simp only [hdone, if_true]
  have hset : s.permits.set index permit = s.permits := by
    have ⟨hindex, hpermit⟩ := List.getElem?_eq_some_iff.mp hget
    rw [← hpermit, List.set_getElem_self]
  have hphase : ¬((s.breaker.phase permit.key).isOpened = false ∧
      (s.breaker.phase permit.key).isOpened = true) := by
    intro ⟨hno, hyes⟩
    rw [hno] at hyes
    cases hyes
  unfold complete
  simp only [hfinish, hset, hdone, hphase, and_false, if_true, if_false]

theorem step_acquire {upstream : String} {now : Number}
    (h : step P s (.acquire upstream now) = some s') :
    s.clock ≤ now ∧ s' = { s with
      breaker := (s.breaker.acquire P upstream now).1
      permits := s.permits ++ (s.breaker.acquire P upstream now).2.granted.toList
      clock := now } := by
  simp only [step] at h
  split at h
  · cases h
  · next hclock => exact ⟨not_lt.mp hclock, (Option.some.inj h).symm⟩

theorem step_complete {index : ℕ} {completion : Completion} {now : Number}
    (h : step P s (.complete index completion now) = some s') :
    s.clock ≤ now ∧ ∃ permit, s.permits[index]? = some permit ∧
      s' = s.complete index permit completion now := by
  simp only [step] at h
  split at h
  · cases h
  · next hclock =>
    have ⟨permit, hget, heq⟩ := Option.map_eq_some_iff.mp h
    exact ⟨not_lt.mp hclock, permit, hget, heq.symm⟩

/-- A property of runs that a later clock keeps is kept by the completions that act and by the
acquisitions, so it is kept by every step. -/
theorem step_rule {I : CircuitRun → Prop} (ok : CircuitRun → CircuitAction → Prop)
    (hclock : ∀ s now, I s → s.clock ≤ now → I { s with clock := now })
    (hacquire : ∀ s upstream now, I s → s.clock ≤ now → ok s (.acquire upstream now) → I { s with
      breaker := (s.breaker.acquire P upstream now).1
      permits := s.permits ++ (s.breaker.acquire P upstream now).2.granted.toList
      clock := now })
    (hcomplete : ∀ s index permit completion now, I s → s.clock ≤ now →
      ok s (.complete index completion now) → s.permits[index]? = some permit →
      permit.completed = false → I (s.complete index permit completion now))
    {a : CircuitAction} (hI : I s) (hok : ok s a) (h : step P s a = some s') : I s' := by
  cases a with
  | acquire upstream now =>
    have ⟨hnow, heq⟩ := step_acquire h
    rw [heq]
    exact hacquire s upstream now hI hnow hok
  | complete index completion now =>
    have ⟨hnow, permit, hget, heq⟩ := step_complete h
    rw [heq]
    cases hdone : permit.completed with
    | true =>
      rw [complete_of_completed hget hdone]
      exact hclock s now hI hnow
    | false => exact hcomplete s index permit completion now hI hnow hok hget hdone

/-! ## A worked example -/

namespace Orders

/-- A platform that knows the URL of one upstream. -/
def platform : Platform where
  parseUrl text := List.lookup text
    [("https://orders.internal/api",
      ⟨"https:", "", "", "orders.internal", "", "/api", "", "", printable_of_all (by decide)⟩)]
  pathnameOf _ := ⟨"/", printable_root⟩
  searchOf text := text
  decodeText _ := ""
  regExp := { RegExp := Unit, construct := fun _ _ => none, exec := fun _ _ => none }
  crypto :=
    { CryptoKey := Unit, importSpki := fun _ => none, exportRaw := fun _ => none,
      sha256 := fun bytes => bytes, verify := fun _ _ _ => none }
  toUpperCase text := text
  numberText _ := ""

def upstream : String := "https://orders.internal/api"

/-- A breaker that opens after one failure, for a second. -/
def breaker : UpstreamCircuitBreaker := .create 1 1000 1024

theorem breaker_new :
    UpstreamCircuitBreaker.new (some 1) (some 1000) none = .ok breaker := by
  rfl

def circuits : System.Machine CircuitRun CircuitAction :=
  machine platform (some 1) (some 1000) none

theorem initial_reachable {ok : CircuitRun → CircuitAction → Prop} :
    circuits.ReachableBy ok (initial breaker 0) :=
  .init ⟨breaker, 0, breaker_new, rfl⟩

/-- Two requests admitted while the circuit is closed, and the failure of the first. -/
def opening : List CircuitAction :=
  [.acquire upstream 0, .acquire upstream 0, .complete 0 .failure 0]

end Orders

/-! ## Recovery -/

/-- A permit that is a probe and has not been completed. -/
def Outstanding (s : CircuitRun) (index : ℕ) (probe : CircuitBreakerPermit) : Prop :=
  s.permits[index]? = some probe ∧ probe.halfOpenProbe = true ∧ probe.completed = false

/-- Outstanding probes hold their circuits half open, one probe for each circuit. -/
structure Recovering (s : CircuitRun) : Prop where
  halfOpen : ∀ index probe, Outstanding s index probe → s.breaker.phase probe.key = .halfOpen
  unique : ∀ index index' probe probe', Outstanding s index probe →
    Outstanding s index' probe' → probe.key = probe'.key → index = index'

/-- While a circuit is half open no other permit than a probe records a success or a
failure for it. -/
def Undisturbed (s : CircuitRun) : CircuitAction → Prop
  | .acquire _ _ => True
  | .complete index completion _ => ∀ permit ∈ s.permits[index]?,
      permit.completed = false → completion ≠ .abandonment →
      s.breaker.phase permit.key = .halfOpen → permit.halfOpenProbe = true

instance (s : CircuitRun) (a : CircuitAction) : Decidable (Undisturbed s a) :=
  match a with
  | .acquire _ _ => inferInstanceAs (Decidable True)
  | .complete index completion _ =>
    inferInstanceAs (Decidable (∀ permit ∈ s.permits[index]?,
      permit.completed = false → completion ≠ .abandonment →
      s.breaker.phase permit.key = .halfOpen → permit.halfOpenProbe = true))

/-- The outstanding probes after a permit has been granted. -/
theorem outstanding_append {granted : Option CircuitBreakerPermit} {breaker now} {index : ℕ}
    {probe : CircuitBreakerPermit}
    (h : Outstanding { s with
      breaker := breaker, permits := s.permits ++ granted.toList, clock := now } index probe) :
    Outstanding s index probe ∨ index = s.permits.length ∧ granted = some probe := by
  have ⟨hget, hprobe, hopen⟩ := h
  dsimp only at hget
  by_cases hindex : index < s.permits.length
  · rw [List.getElem?_append_left hindex] at hget
    exact .inl ⟨hget, hprobe, hopen⟩
  · rw [List.getElem?_append_right (not_lt.mp hindex)] at hget
    cases granted with
    | none => simp at hget
    | some permit =>
      have ⟨hlength, heq⟩ := List.getElem?_eq_some_iff.mp hget
      simp only [Option.toList_some, List.length_singleton] at hlength
      have hzero : index - s.permits.length = 0 := by omega
      simp only [hzero, Option.toList_some, List.getElem_singleton] at heq
      exact .inr ⟨by omega, congrArg some heq⟩

/-- The outstanding probes after a permit has been completed. -/
theorem outstanding_complete {index : ℕ} {permit : CircuitBreakerPermit}
    (hopen : permit.completed = false) {completion : Completion} {now : Number}
    {other : ℕ} {probe : CircuitBreakerPermit}
    (h : Outstanding (s.complete index permit completion now) other probe) :
    other ≠ index ∧ Outstanding s other probe := by
  have ⟨hget, hprobe, hdone⟩ := h
  have hcompleted := (complete_spec hopen completion s.breaker now).1
  simp only [complete, hcompleted] at hget
  by_cases heq : index = other
  · rw [heq] at hget
    have ⟨hlength, hpermit⟩ := List.getElem?_eq_some_iff.mp hget
    rw [List.getElem_set_self] at hpermit
    rw [← hpermit] at hdone
    cases hdone
  · rw [List.getElem?_set_ne heq] at hget
    exact ⟨fun h => heq h.symm, hget, hprobe, hdone⟩

theorem recovering_initial (breaker : UpstreamCircuitBreaker) (now : Number) :
    Recovering (initial breaker now) where
  halfOpen index probe h := by simp [Outstanding, initial] at h
  unique index index' probe probe' h := by simp [Outstanding, initial] at h

theorem Recovering.acquire (hI : Recovering s) (upstream : String) (now : Number) :
    Recovering { s with
      breaker := (s.breaker.acquire P upstream now).1
      permits := s.permits ++ (s.breaker.acquire P upstream now).2.granted.toList
      clock := now } := by
  have ⟨hacquires, _, hothers, _⟩ := s.breaker.acquire_spec (P := P) upstream now
  generalize hkey : upstreamOrigin P upstream = key at hacquires hothers
  -- a probe that was outstanding keeps its circuit half open
  have hkept : ∀ index probe, Outstanding s index probe →
      (s.breaker.acquire P upstream now).1.phase probe.key = .halfOpen := by
    intro index probe houtstanding
    have hphase := hI.halfOpen index probe houtstanding
    by_cases heq : probe.key = key
    · rw [heq] at hphase ⊢
      rw [hphase] at hacquires
      exact hacquires.of_halfOpen.1
    · rw [(hothers probe.key heq).eq_of_not_closed (by rw [hphase]; rfl)]
      exact hphase
  -- a probe that is granted finds its circuit open
  have hgranted : ∀ probe, (s.breaker.acquire P upstream now).2.granted = some probe →
      probe.halfOpenProbe = true → probe.key = key ∧
        (s.breaker.acquire P upstream now).1.phase key = .halfOpen ∧
        (s.breaker.phase key).isOpened = true := by
    intro probe hgrant hprobe
    generalize (s.breaker.acquire P upstream now).2 = acquisition at hacquires hgrant
    generalize (s.breaker.acquire P upstream now).1.phase key = after at hacquires ⊢
    generalize s.breaker.phase key = before at hacquires ⊢
    cases hacquires with
    | full => cases hgrant
    | early => cases hgrant
    | probing => cases hgrant
    | closed failures =>
      rw [← Option.some.inj hgrant] at hprobe
      cases hprobe
    | probe =>
      rw [← Option.some.inj hgrant]
      exact ⟨rfl, rfl, rfl⟩
  have hnone : ∀ index probe, Outstanding s index probe → probe.key = key →
      (s.breaker.phase key).isOpened = false := by
    intro index probe houtstanding heq
    rw [← heq, hI.halfOpen index probe houtstanding]
    rfl
  refine ⟨fun index probe h => ?_, fun index index' probe probe' h h' hsame => ?_⟩
  · rcases outstanding_append h with hold | ⟨_, hnew⟩
    · exact hkept index probe hold
    · have ⟨hprobe, hhalf, _⟩ := hgranted probe hnew h.2.1
      rw [hprobe]
      exact hhalf
  · rcases outstanding_append h with hold | ⟨hindex, hnew⟩ <;>
      rcases outstanding_append h' with hold' | ⟨hindex', hnew'⟩
    · exact hI.unique index index' probe probe' hold hold' hsame
    · have ⟨hprobe, _, hopened⟩ := hgranted probe' hnew' h'.2.1
      have hclosed := hnone index probe hold (hsame.trans hprobe)
      rw [hopened] at hclosed
      cases hclosed
    · have ⟨hprobe, _, hopened⟩ := hgranted probe hnew h.2.1
      have hclosed := hnone index' probe' hold' (hsame.symm.trans hprobe)
      rw [hopened] at hclosed
      cases hclosed
    · rw [hindex, hindex']

theorem Recovering.complete (hI : Recovering s) {index : ℕ} {permit : CircuitBreakerPermit}
    (hget : s.permits[index]? = some permit) (hopen : permit.completed = false)
    {completion : Completion} {now : Number}
    (hok : Undisturbed s (.complete index completion now)) :
    Recovering (s.complete index permit completion now) := by
  have ⟨_, hcompletes, _, hothers, _⟩ := complete_spec hopen completion s.breaker now
  refine ⟨fun other probe h => ?_, fun other other' probe probe' h h' hsame => ?_⟩
  · have ⟨hne, hold⟩ := outstanding_complete hopen h
    have hphase := hI.halfOpen other probe hold
    show (permit.complete completion s.breaker now).2.phase probe.key = .halfOpen
    by_cases heq : probe.key = permit.key
    · -- the completed permit is no probe: there is one probe for the circuit
      have hplain : permit.halfOpenProbe = false := by
        by_contra hprobe
        rw [Bool.not_eq_false] at hprobe
        exact hne (hI.unique other index probe permit hold ⟨hget, hprobe, hopen⟩ heq)
      rw [heq] at hphase ⊢
      have hneutral : completion = .abandonment := by
        by_contra hacts
        have hprobe := hok permit hget hopen hacts hphase
        rw [hplain] at hprobe
        cases hprobe
      rw [hneutral] at hcompletes ⊢
      generalize (permit.complete .abandonment s.breaker now).2.phase permit.key = after
        at hcompletes ⊢
      cases hcompletes with
      | abandonment =>
        rw [hphase, hplain]
        rfl
    · rw [(hothers probe.key heq).eq_of_not_closed (by rw [hphase]; rfl)]
      exact hphase
  · exact hI.unique other other' probe probe' (outstanding_complete hopen h).2
      (outstanding_complete hopen h').2 hsame

theorem recovering_of_reachable
    (h : (machine P failureThreshold openDurationMs maximumUpstreams).ReachableBy Undisturbed s) :
    Recovering s := by
  refine h.invariant (fun s hinit => ?_) fun s a s' hI hok hstep => ?_
  · have ⟨breaker, now, _, heq⟩ := hinit
    rw [heq]
    exact recovering_initial breaker now
  · exact step_rule Undisturbed (fun s now hI _ => ⟨hI.halfOpen, hI.unique⟩)
      (fun s upstream now hI _ _ => hI.acquire upstream now)
      (fun s index permit completion now hI _ hok hget hopen => hI.complete hget hopen hok)
      hI hok hstep

/-- While a probe is outstanding its origin is refused, and no other probe of it is
outstanding. -/
theorem one_recovery_probe
    (h : (machine P failureThreshold openDurationMs maximumUpstreams).ReachableBy Undisturbed s) :
    (∀ index probe, Outstanding s index probe → ∀ upstream now,
        upstreamOrigin P upstream = probe.key →
        (s.breaker.acquire P upstream now).2 = .rejection 1) ∧
      ∀ index index' probe probe', Outstanding s index probe → Outstanding s index' probe' →
        probe.key = probe'.key → index = index' := by
  have hI := recovering_of_reachable h
  refine ⟨fun index probe houtstanding upstream now horigin => ?_, hI.unique⟩
  have ⟨hacquires, _⟩ := s.breaker.acquire_spec (P := P) upstream now
  rw [horigin, hI.halfOpen index probe houtstanding] at hacquires
  exact hacquires.of_halfOpen.2

/-- While a probe is outstanding another request of the origin is refused. -/
theorem one_recovery_probe_orders :
    ∃ s probe, Outstanding s 2 probe ∧
      (s.breaker.acquire Orders.platform Orders.upstream 1500).2 = .rejection 1 := by
  have hrun : ((Orders.circuits.runBy Undisturbed (initial Orders.breaker 0)
      (Orders.opening ++ [.acquire Orders.upstream 1000])).map (·.permits[2]?)) =
      some (some ⟨"https://orders.internal", true, false⟩) := by decide +kernel
  have ⟨s, hs, hprobe⟩ := Option.map_eq_some_iff.mp hrun
  have hreachable := Orders.initial_reachable.of_runBy _ hs
  have houtstanding : Outstanding s 2 ⟨"https://orders.internal", true, false⟩ :=
    ⟨hprobe, rfl, rfl⟩
  exact ⟨s, _, houtstanding,
    (one_recovery_probe hreachable).1 2 _ houtstanding Orders.upstream 1500 (by decide +kernel)⟩

/-- The late failure of a request that was admitted while the circuit was closed ends the first
recovery, and after the next period a second probe is granted beside the first. -/
theorem second_probe : ∃ s, Orders.circuits.Reachable s ∧
    ∃ probe probe', Outstanding s 2 probe ∧ Outstanding s 3 probe' ∧ probe.key = probe'.key := by
  have hrun : ((Orders.circuits.run (initial Orders.breaker 0) (Orders.opening ++
      [.acquire Orders.upstream 1000, .complete 1 .failure 1000,
        .acquire Orders.upstream 2000])).map fun s => (s.permits[2]?, s.permits[3]?)) =
      some (some ⟨"https://orders.internal", true, false⟩,
        some ⟨"https://orders.internal", true, false⟩) := by decide +kernel
  have ⟨s, hs, hpermits⟩ := Option.map_eq_some_iff.mp hrun
  have ⟨hfirst, hsecond⟩ := Prod.mk.inj hpermits
  exact ⟨s, System.Machine.Reachable.of_run _ Orders.initial_reachable hs, _, _, ⟨hfirst, rfl, rfl⟩,
    ⟨hsecond, rfl, rfl⟩, rfl⟩

/-! ## Open periods -/

/-- No success is recorded for an origin before the period of its last openings is over. -/
def Unhurried (s : CircuitRun) : CircuitAction → Prop
  | .complete index completion now => completion = .success →
      ∀ permit ∈ s.permits[index]?, permit.completed = false →
      ∀ opening ∈ s.openings, opening.1 = permit.key →
      opening.2 + s.breaker.openDurationMs ≤ now
  | .acquire _ _ => True

instance (s : CircuitRun) (a : CircuitAction) : Decidable (Unhurried s a) :=
  match a with
  | .acquire _ _ => inferInstanceAs (Decidable True)
  | .complete index completion now =>
    inferInstanceAs (Decidable (completion = .success →
      ∀ permit ∈ s.permits[index]?, permit.completed = false →
      ∀ opening ∈ s.openings, opening.1 = permit.key →
      opening.2 + s.breaker.openDurationMs ≤ now))

/-- A circuit that a failure has opened is open until its period is over. -/
def KeepsOpen (s : CircuitRun) : Prop :=
  ∀ key since, (key, since) ∈ s.openings → since ≤ s.clock ∧
    (s.clock < since + s.breaker.openDurationMs →
      ∃ deadline, s.breaker.phase key = .opened deadline ∧
        since + s.breaker.openDurationMs ≤ deadline)

/-- A phase that is open until a time at least stays so before that time. -/
theorem Acquires.opened {threshold : ℕ} {key : String} {now deadline : Number} {phase : Phase}
    {acquisition : CircuitBreakerAcquisition} (hnow : now < deadline)
    (h : Acquires threshold key now (.opened deadline) phase acquisition) :
    phase = .opened deadline ∧
      acquisition = .rejection (max 1 ⌈(deadline - now) / 1000⌉) := by
  cases h with
  | early => exact ⟨rfl, rfl⟩
  | probe hlate => exact absurd hnow (not_lt.mpr hlate)

theorem KeepsOpen.acquire (hI : KeepsOpen s) {now : Number} (hclock : s.clock ≤ now)
    (upstream : String) : KeepsOpen { s with
      breaker := (s.breaker.acquire P upstream now).1
      permits := s.permits ++ (s.breaker.acquire P upstream now).2.granted.toList
      clock := now } := by
  have ⟨hacquires, hsame, hothers, _⟩ := s.breaker.acquire_spec (P := P) upstream now
  generalize upstreamOrigin P upstream = key' at hacquires hothers
  intro key since hmem
  have ⟨hsince, hopen⟩ := hI key since hmem
  refine ⟨hsince.trans hclock, fun hperiod => ?_⟩
  simp only [hsame.openDurationMs] at hperiod ⊢
  have ⟨deadline, hphase, hdeadline⟩ := hopen (lt_of_le_of_lt hclock hperiod)
  refine ⟨deadline, ?_, hdeadline⟩
  by_cases heq : key = key'
  · rw [← heq] at hacquires
    rw [hphase] at hacquires
    exact (Acquires.opened (lt_of_lt_of_le hperiod hdeadline) hacquires).1
  · rw [(hothers key heq).eq_of_not_closed (by rw [hphase]; rfl)]
    exact hphase

theorem KeepsOpen.complete (hI : KeepsOpen s) {index : ℕ} {permit : CircuitBreakerPermit}
    (hget : s.permits[index]? = some permit) (hopen : permit.completed = false)
    {completion : Completion} {now : Number} (hclock : s.clock ≤ now)
    (hok : Unhurried s (.complete index completion now)) :
    KeepsOpen (s.complete index permit completion now) := by
  have ⟨_, hcompletes, hsame, hothers, _⟩ := complete_spec hopen completion s.breaker now
  -- the openings before the step
  have hold : ∀ key since, (key, since) ∈ s.openings → since ≤ now ∧
      (now < since + s.breaker.openDurationMs → ∃ deadline,
        (permit.complete completion s.breaker now).2.phase key = .opened deadline ∧
          since + s.breaker.openDurationMs ≤ deadline) := by
    intro key since hmem
    have ⟨hsince, hkeeps⟩ := hI key since hmem
    refine ⟨hsince.trans hclock, fun hperiod => ?_⟩
    have ⟨deadline, hphase, hdeadline⟩ := hkeeps (lt_of_le_of_lt hclock hperiod)
    by_cases heq : key = permit.key
    · rw [heq] at hphase hmem ⊢
      generalize (permit.complete completion s.breaker now).2.phase permit.key = after
        at hcompletes ⊢
      cases hcompletes with
      | success =>
        have hlate := hok rfl permit hget hopen (permit.key, since) hmem rfl
        exact absurd hperiod (not_lt.mpr hlate)
      | failure =>
        rw [hphase]
        exact ⟨_, rfl, hdeadline.trans (le_max_left _ _)⟩
      | uncounted hnone =>
        rw [phase_of_get_none hnone] at hphase
        cases hphase
      | abandonment =>
        rw [hphase]
        exact ⟨deadline, rfl, hdeadline⟩
    · rw [(hothers key heq).eq_of_not_closed (by rw [hphase]; rfl)]
      exact ⟨deadline, hphase, hdeadline⟩
  intro key since hmem
  simp only [CircuitRun.complete] at hmem ⊢
  rw [hsame.openDurationMs]
  split at hmem
  · next hopens =>
    rcases List.mem_append.mp hmem with hmem | hnew
    · exact hold key since hmem
    · have ⟨hkey, hsince⟩ := Prod.mk.inj (List.mem_singleton.mp hnew)
      rw [hkey, hsince]
      refine ⟨le_refl now, fun _ => ?_⟩
      have ⟨hfailure, hbefore, hafter⟩ := hopens
      rw [hfailure] at hcompletes hafter ⊢
      generalize (permit.complete .failure s.breaker now).2.phase permit.key = after
        at hcompletes hafter ⊢
      cases hcompletes with
      | uncounted => cases hafter
      | failure =>
        -- the phase was closed or half open, and the failure has opened it
        generalize s.breaker.phase permit.key = before at hbefore hafter ⊢
        cases before with
        | opened deadline => cases hbefore
        | halfOpen => exact ⟨_, rfl, le_refl _⟩
        | closed failures =>
          simp only [Phase.fail] at hafter ⊢
          split at hafter
          · next hthreshold =>
            rw [if_pos hthreshold]
            exact ⟨_, rfl, le_refl _⟩
          · cases hafter
  · exact hold key since hmem

theorem keepsOpen_of_reachable
    (h : (machine P failureThreshold openDurationMs maximumUpstreams).ReachableBy Unhurried s) :
    KeepsOpen s := by
  refine h.invariant (fun s hinit => ?_) fun s a s' hI hok hstep => ?_
  · have ⟨breaker, now, _, heq⟩ := hinit
    rw [heq]
    intro key since hmem
    cases hmem
  · refine step_rule Unhurried (fun s now hI hclock => ?_)
      (fun s upstream now hI hclock _ => hI.acquire hclock upstream)
      (fun s index permit completion now hI hclock hok hget hopen =>
        hI.complete hget hopen hclock hok) hI hok hstep
    intro key since hmem
    have ⟨hsince, hopen⟩ := hI key since hmem
    exact ⟨hsince.trans hclock, fun hperiod => hopen (lt_of_le_of_lt hclock hperiod)⟩

/-- An origin whose circuit a failure has opened is refused for the whole period, and is told
to come back no earlier than the circuit lets it. -/
theorem open_for_full_period
    (h : (machine P failureThreshold openDurationMs maximumUpstreams).ReachableBy Unhurried s)
    {key : String} {since : Number} (hmem : (key, since) ∈ s.openings) {upstream : String}
    (hkey : upstreamOrigin P upstream = key) {now : Number} (hclock : s.clock ≤ now)
    (hperiod : now < since + s.breaker.openDurationMs) :
    ∃ deadline seconds, s.breaker.phase key = .opened deadline ∧
      since + s.breaker.openDurationMs ≤ deadline ∧
      (s.breaker.acquire P upstream now).2 = .rejection seconds ∧
      1 ≤ seconds ∧ (deadline - now) / 1000 ≤ seconds := by
  have ⟨_, hopen⟩ := keepsOpen_of_reachable h key since hmem
  have ⟨deadline, hphase, hdeadline⟩ := hopen (lt_of_le_of_lt hclock hperiod)
  have ⟨hacquires, _⟩ := s.breaker.acquire_spec (P := P) upstream now
  rw [hkey, hphase] at hacquires
  have ⟨_, hrefused⟩ := Acquires.opened (lt_of_lt_of_le hperiod hdeadline) hacquires
  refine ⟨deadline, _, hphase, hdeadline, hrefused, le_max_left _ _, ?_⟩
  exact (Int.le_ceil _).trans (le_max_right _ _)

/-- Half a period after the failure a request is refused. -/
theorem open_for_full_period_orders :
    ∃ (s : CircuitRun) (seconds : Number), (s.breaker.acquire Orders.platform Orders.upstream 500).2 =
      .rejection seconds ∧ 1 ≤ seconds := by
  have hrun : ((Orders.circuits.runBy Unhurried (initial Orders.breaker 0) Orders.opening).map
      fun s => (s.openings, s.clock, s.breaker.openDurationMs)) =
      some ([("https://orders.internal", 0)], 0, 1000) := by decide +kernel
  have ⟨s, hs, hdata⟩ := Option.map_eq_some_iff.mp hrun
  have ⟨hopenings, hdata⟩ := Prod.mk.inj hdata
  have ⟨hclock, hduration⟩ := Prod.mk.inj hdata
  have hmem : ("https://orders.internal", 0) ∈ s.openings := by
    rw [hopenings]
    exact List.mem_singleton.mpr rfl
  have hkey : upstreamOrigin Orders.platform Orders.upstream = "https://orders.internal" := by
    decide +kernel
  have hperiod : 500 < 0 + s.breaker.openDurationMs := by
    rw [hduration]
    decide +kernel
  have ⟨_, seconds, _, _, hrefused, hone, _⟩ := open_for_full_period
    (Orders.initial_reachable.of_runBy _ hs) hmem hkey (by rw [hclock]; decide +kernel) hperiod
  exact ⟨s, seconds, hrefused, hone⟩

/-- The late success of a request that was admitted while the circuit was closed closes the
open circuit, and the next request is admitted at once. -/
theorem closed_within_period : ∃ s, Orders.circuits.Reachable s ∧
    ("https://orders.internal", 0) ∈ s.openings ∧ s.clock = 0 ∧
    s.breaker.openDurationMs = 1000 ∧
    (s.breaker.acquire Orders.platform Orders.upstream 0).2.granted =
      some ⟨"https://orders.internal", false, false⟩ := by
  have hrun : ((Orders.circuits.run (initial Orders.breaker 0)
      (Orders.opening ++ [.complete 1 .success 0])).map fun s =>
        (s.openings, s.clock, s.breaker.openDurationMs,
          (s.breaker.acquire Orders.platform Orders.upstream 0).2.granted)) =
      some ([("https://orders.internal", 0)], 0, 1000,
        some ⟨"https://orders.internal", false, false⟩) := by decide +kernel
  have ⟨s, hs, hdata⟩ := Option.map_eq_some_iff.mp hrun
  have ⟨hopenings, hdata⟩ := Prod.mk.inj hdata
  have ⟨hclock, hdata⟩ := Prod.mk.inj hdata
  have ⟨hduration, hgranted⟩ := Prod.mk.inj hdata
  refine ⟨s, System.Machine.Reachable.of_run _ Orders.initial_reachable hs, ?_, hclock, hduration, hgranted⟩
  rw [hopenings]
  exact List.mem_singleton.mpr rfl

/-! ## Counting -/

/-- The consecutive failures after a completion. -/
def consecutive (failures : ℕ) : Completion → ℕ
  | .success => 0
  | .failure => failures + 1
  | .abandonment => failures

/-- The failures recorded for a key since the last success recorded for it. -/
def failuresSinceSuccess (recorded : List (String × Completion)) (key : String) : ℕ :=
  recorded.foldl
    (fun failures event => if event.1 = key then consecutive failures event.2 else failures) 0

theorem failuresSinceSuccess_append (recorded : List (String × Completion)) (key : String)
    (completion : Completion) (other : String) :
    failuresSinceSuccess (recorded ++ [(key, completion)]) other =
      if key = other then consecutive (failuresSinceSuccess recorded other) completion
      else failuresSinceSuccess recorded other := by
  unfold failuresSinceSuccess
  rw [List.foldl_append, List.foldl_cons, List.foldl_nil]

/-- All requests go to some given origins. -/
def Within (P : Platform) (origins : Finset String) (_ : CircuitRun) : CircuitAction → Prop
  | .acquire upstream _ => upstreamOrigin P upstream ∈ origins
  | .complete _ _ _ => True

instance (P : Platform) (origins : Finset String) (s : CircuitRun) (a : CircuitAction) :
    Decidable (Within P origins s a) :=
  match a with
  | .acquire upstream _ => inferInstanceAs (Decidable (upstreamOrigin P upstream ∈ origins))
  | .complete _ _ _ => inferInstanceAs (Decidable True)

/-- What a phase says of the failures since the last success. -/
def Counts (threshold failures : ℕ) : Phase → Prop
  | .closed counted => counted = failures ∧ failures < threshold
  | _ => threshold ≤ failures

theorem Counts.isClosed_iff {threshold failures : ℕ} {phase : Phase}
    (h : Counts threshold failures phase) : phase.isClosed = true ↔ failures < threshold := by
  cases phase with
  | closed counted => simp [Phase.isClosed, h.2]
  | opened deadline =>
    have hcount : threshold ≤ failures := h
    simp [Phase.isClosed, hcount]
  | halfOpen =>
    have hcount : threshold ≤ failures := h
    simp [Phase.isClosed, hcount]

/-- Every circuit is of one of the origins and counts its own failures. -/
structure Counting (origins : Finset String) (s : CircuitRun) : Prop where
  threshold : 1 ≤ s.breaker.failureThreshold
  circuits : ∀ key, s.breaker.circuits.get key ≠ none → key ∈ origins
  permits : ∀ permit ∈ s.permits, permit.key ∈ origins
  counts : ∀ key, Counts s.breaker.failureThreshold (failuresSinceSuccess s.recorded key)
    (s.breaker.phase key)

/-- A map whose keys are among the origins has room for one more of them. -/
theorem hasRoom {breaker : UpstreamCircuitBreaker} {origins : Finset String}
    (hcircuits : ∀ key, breaker.circuits.get key ≠ none → key ∈ origins)
    (hcard : origins.card ≤ breaker.maximumUpstreams) {key : String} (hkey : key ∈ origins) :
    HasRoom breaker key := by
  by_cases hget : breaker.circuits.get key = none
  · left
    have hnodup := breaker.circuits.nodup
    have hsub : (breaker.circuits.entries.map Prod.fst).toFinset ⊆ origins.erase key := by
      intro other hother
      rcases List.mem_map.mp (List.mem_toFinset.mp hother) with ⟨entry, hentry, rfl⟩
      have hsome : breaker.circuits.get entry.1 = some entry.2 :=
        OrderedMap.get_eq_some_iff.mpr hentry
      refine Finset.mem_erase.mpr ⟨fun heq => ?_, hcircuits _ (by rw [hsome]; simp)⟩
      rw [heq, hget] at hsome
      cases hsome
    have hle := Finset.card_le_card hsub
    rw [List.toFinset_card_of_nodup hnodup, List.length_map, Finset.card_erase_of_mem hkey] at hle
    have hpos : 0 < origins.card := Finset.card_pos.mpr ⟨key, hkey⟩
    show breaker.circuits.entries.length < breaker.maximumUpstreams
    omega
  · exact .inr hget

/-- An operation on one of the origins makes no circuit of another key. -/
theorem circuits_of_isolates {breaker breaker' : UpstreamCircuitBreaker}
    {origins : Finset String}
    (hcircuits : ∀ key, breaker.circuits.get key ≠ none → key ∈ origins) {key : String}
    (hkey : key ∈ origins) (h : Isolates breaker breaker' key) (other : String)
    (hother : breaker'.circuits.get other ≠ none) : other ∈ origins := by
  by_cases heq : other = key
  · exact heq ▸ hkey
  · rw [h other heq] at hother
    exact hcircuits other hother

theorem Counts.acquire {threshold failures : ℕ} {key : String} {now : Number}
    {phase phase' : Phase} {acquisition : CircuitBreakerAcquisition}
    (hcounts : Counts threshold failures phase)
    (h : Acquires threshold key now phase phase' acquisition) :
    Counts threshold failures phase' := by
  cases h <;> exact hcounts

theorem Counting.acquire {origins : Finset String} (hI : Counting origins s)
    (hcard : origins.card ≤ s.breaker.maximumUpstreams) {upstream : String}
    (hkey : upstreamOrigin P upstream ∈ origins) (now : Number) : Counting origins { s with
      breaker := (s.breaker.acquire P upstream now).1
      permits := s.permits ++ (s.breaker.acquire P upstream now).2.granted.toList
      clock := now } := by
  have ⟨hacquires, hsame, _, hisolates⟩ := s.breaker.acquire_spec (P := P) upstream now
  have hisolates := hisolates (hasRoom hI.circuits hcard hkey)
  generalize upstreamOrigin P upstream = key' at hacquires hisolates hkey
  refine ⟨?_, circuits_of_isolates hI.circuits hkey hisolates, ?_, ?_⟩
  · show 1 ≤ (s.breaker.acquire P upstream now).1.failureThreshold
    rw [hsame.failureThreshold]
    exact hI.threshold
  · intro permit hpermit
    rcases List.mem_append.mp hpermit with hmem | hmem
    · exact hI.permits permit hmem
    · generalize (s.breaker.acquire P upstream now).2 = acquisition at hacquires hmem
      generalize (s.breaker.acquire P upstream now).1.phase key' = after at hacquires
      generalize s.breaker.phase key' = before at hacquires
      cases hacquires <;> simp only [CircuitBreakerAcquisition.granted, Option.toList,
        List.mem_singleton, List.not_mem_nil] at hmem <;> rw [hmem] <;> exact hkey
  · intro key
    have hcounts := hI.counts key
    show Counts (s.breaker.acquire P upstream now).1.failureThreshold _ _
    rw [hsame.failureThreshold]
    by_cases heq : key = key'
    · rw [heq] at hcounts ⊢
      exact hcounts.acquire hacquires
    · rw [phase_congr (hisolates key heq)]
      exact hcounts

/-- How a completion that acts moves the count with the phase. -/
theorem Counts.complete {permit : CircuitBreakerPermit} {now : Number} {completion : Completion}
    {phase : Phase} {failures : ℕ} {breaker : UpstreamCircuitBreaker}
    (hthreshold : 1 ≤ breaker.failureThreshold) (hroom : HasRoom breaker permit.key)
    (hcounts : Counts breaker.failureThreshold failures (breaker.phase permit.key))
    (h : Completes breaker permit now completion phase) :
    Counts breaker.failureThreshold (consecutive failures completion) phase := by
  cases h with
  | success => exact ⟨rfl, hthreshold⟩
  | failure =>
    generalize breaker.phase permit.key = before at hcounts
    cases before with
    | closed counted =>
      have ⟨heq, hlt⟩ := hcounts
      unfold Phase.fail consecutive
      simp only
      split
      · show breaker.failureThreshold ≤ failures + 1
        omega
      · exact ⟨by omega, by omega⟩
    | opened deadline =>
      have hcount : breaker.failureThreshold ≤ failures := hcounts
      exact hcount.trans (Nat.le_succ failures)
    | halfOpen =>
      have hcount : breaker.failureThreshold ≤ failures := hcounts
      exact hcount.trans (Nat.le_succ failures)
  | uncounted hnone hfull =>
    rcases hroom with hroom | hpresent
    · omega
    · exact absurd hnone hpresent
  | abandonment =>
    generalize breaker.phase permit.key = before at hcounts
    cases before with
    | closed counted => exact hcounts
    | opened deadline => exact hcounts
    | halfOpen =>
      unfold Phase.abandon
      simp only
      split <;> exact hcounts

theorem Counting.complete {origins : Finset String} (hI : Counting origins s)
    (hcard : origins.card ≤ s.breaker.maximumUpstreams) {index : ℕ}
    {permit : CircuitBreakerPermit} (hget : s.permits[index]? = some permit)
    (hopen : permit.completed = false) (completion : Completion) (now : Number) :
    Counting origins (s.complete index permit completion now) := by
  have ⟨hdone, hcompletes, hsame, _, hisolates⟩ := complete_spec hopen completion s.breaker now
  have hkey := hI.permits permit (List.mem_of_getElem? hget)
  have hroom := hasRoom hI.circuits hcard hkey
  have hisolates := hisolates hroom
  refine ⟨?_, circuits_of_isolates hI.circuits hkey hisolates, ?_, ?_⟩
  · show 1 ≤ (permit.complete completion s.breaker now).2.failureThreshold
    rw [hsame.failureThreshold]
    exact hI.threshold
  · intro other hother
    rcases List.mem_or_eq_of_mem_set hother with hmem | heq
    · exact hI.permits other hmem
    · have heq : other = (permit.complete completion s.breaker now).1 := heq
      rw [heq, hdone]
      exact hkey
  · intro key
    show Counts (permit.complete completion s.breaker now).2.failureThreshold
      (failuresSinceSuccess
        (if permit.completed then s.recorded else s.recorded ++ [(permit.key, completion)]) key)
      ((permit.complete completion s.breaker now).2.phase key)
    rw [hsame.failureThreshold, hopen, if_neg Bool.false_ne_true, failuresSinceSuccess_append]
    by_cases heq : permit.key = key
    · rw [if_pos heq, ← heq]
      exact Counts.complete hI.threshold hroom (hI.counts permit.key) hcompletes
    · rw [if_neg heq, phase_congr (hisolates key (Ne.symm heq))]
      exact hI.counts key

theorem counting_of_reachable {origins : Finset String}
    (h : (machine P failureThreshold openDurationMs maximumUpstreams).ReachableBy
      (Within P origins) s) (hcard : origins.card ≤ s.breaker.maximumUpstreams) :
    Counting origins s := by
  refine h.invariant
    (I := fun s => origins.card ≤ s.breaker.maximumUpstreams → Counting origins s)
    (fun s hinit hcard => ?_) (fun s a s' hI hok hstep => ?_) hcard
  · have ⟨breaker, now, hnew, heq⟩ := hinit
    have ⟨hthreshold, hempty⟩ := UpstreamCircuitBreaker.new_ok hnew
    have hnone : ∀ key, breaker.circuits.get key = none := by
      intro key
      rw [hempty]
      rfl
    rw [heq]
    refine ⟨hthreshold, fun key h => absurd (hnone key) h, fun permit h => (by cases h), ?_⟩
    intro key
    show Counts breaker.failureThreshold 0 (breaker.phase key)
    rw [phase_of_get_none (hnone key)]
    exact ⟨rfl, hthreshold⟩
  · refine step_rule (Within P origins)
      (I := fun s => origins.card ≤ s.breaker.maximumUpstreams → Counting origins s)
      (fun s now hI _ hcard => ⟨(hI hcard).1, (hI hcard).2, (hI hcard).3, (hI hcard).4⟩)
      (fun s upstream now hI _ hok hcard => ?_)
      (fun s index permit completion now hI _ _ hget hopen hcard => ?_) hI hok hstep
    · have ⟨_, hsame, _⟩ := s.breaker.acquire_spec (P := P) upstream now
      rw [hsame.maximumUpstreams] at hcard
      exact (hI hcard).acquire hcard hok now
    · have ⟨_, _, hsame, _⟩ := complete_spec hopen completion s.breaker now
      have hcard : origins.card ≤ s.breaker.maximumUpstreams := by
        rw [← hsame.maximumUpstreams]
        exact hcard
      exact (hI hcard).complete hcard hget hopen completion now

/-- The circuit of an origin is closed, or there is none, exactly when fewer failures than the
threshold have been recorded for that origin since its last success. -/
theorem failures_counted_exactly {origins : Finset String}
    (h : (machine P failureThreshold openDurationMs maximumUpstreams).ReachableBy
      (Within P origins) s) (hcard : origins.card ≤ s.breaker.maximumUpstreams) (key : String) :
    (∀ circuit, s.breaker.circuits.get key = some circuit → circuit.state = .closed) ↔
      failuresSinceSuccess s.recorded key < s.breaker.failureThreshold := by
  rw [← isClosed_phase_iff]
  exact (((counting_of_reachable h hcard).counts key)).isClosed_iff

/-- One failure opens a circuit whose threshold is one. -/
theorem failures_counted_exactly_orders :
    ∃ s : CircuitRun, failuresSinceSuccess s.recorded "https://orders.internal" = 1 ∧
      ¬∀ circuit, s.breaker.circuits.get "https://orders.internal" = some circuit →
        circuit.state = .closed := by
  have hrun : ((Orders.circuits.runBy (Within Orders.platform {"https://orders.internal"})
      (initial Orders.breaker 0) Orders.opening).map fun s =>
        (failuresSinceSuccess s.recorded "https://orders.internal", s.breaker.failureThreshold,
          s.breaker.maximumUpstreams)) = some (1, 1, 1024) := by decide +kernel
  have ⟨s, hs, hdata⟩ := Option.map_eq_some_iff.mp hrun
  have ⟨hfailures, hdata⟩ := Prod.mk.inj hdata
  have ⟨hthreshold, hmaximum⟩ := Prod.mk.inj hdata
  refine ⟨s, hfailures, ?_⟩
  rw [failures_counted_exactly (Orders.initial_reachable.of_runBy _ hs)
    (by rw [hmaximum]; decide) "https://orders.internal", hfailures, hthreshold]
  exact lt_irrefl 1

end CircuitRun
end ShieldWard.Edge
