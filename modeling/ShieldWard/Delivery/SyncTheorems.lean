import ShieldWard.Delivery.ExchangeTheorems
import ShieldWard.Delivery.Sync

/-!
# When an announced update arrives

A refresh that succeeds leaves a version that was current when the handler answered it. An
event whose refresh was answered after the publication therefore leaves that publication or a
later one; an event that joins a refresh answered before the publication need not.
-/

namespace ShieldWard.Delivery

open Edge

namespace Sync

variable {P : Platform} {G : Control.GoPlatform} {trustedKeys : TrustedKeyring} {s s' : State}

/-! ## What the exchange keeps -/

/-- Publications and calls are added at the end, and a new answer is the handler's, with what
is current. -/
structure Grows (e e' : Exchange.State) : Prop where
  published : e.published <+: e'.published
  refreshes : e.client.refreshes.length ≤ e'.client.refreshes.length
  answers : ∀ operation a, e'.answers operation = some a →
    e.answers operation = some a ∨ a = .handler e.published.length

theorem Grows.of_client {e : Exchange.State} {client : ConfigurationClient}
    (h : e.client.refreshes.length ≤ client.refreshes.length) : Grows e { e with client } where
  published := List.prefix_rfl
  refreshes := h
  answers _ _ ha := .inl ha

theorem length_refresh (client : ConfigurationClient) (signal : Option ℕ) :
    client.refreshes.length ≤ (client.refresh signal).2.refreshes.length := by
  unfold ConfigurationClient.refresh
  split
  · exact Nat.le_refl _
  · simp only [List.length_append]
    omega

theorem length_advance (client : ConfigurationClient) (operation : ℕ) (refresh : Refresh)
    (stage : Stage) :
    (client.advance operation refresh stage).refreshes.length = client.refreshes.length := by
  simp only [ConfigurationClient.advance, List.length_set]

theorem grows_of_step {e e' : Exchange.State} {action : Exchange.Action}
    (h : Exchange.step P G trustedKeys e action = some e') (hi : isIntercept action = false) :
    Grows e e' := by
  cases action with
  | publish envelope =>
    obtain ⟨snapshot, _, he'⟩ := Exchange.publish_some h
    rw [he']
    exact ⟨List.prefix_append _ _, Nat.le_refl _, fun _ _ ha => .inl ha⟩
  | refresh signal =>
    rw [← Option.some.inj h]
    exact .of_client (length_refresh e.client signal)
  | handle operation =>
    obtain ⟨_, _, _, _, he'⟩ := Exchange.answer_some h
    rw [he']
    refine ⟨List.prefix_rfl, Nat.le_refl _, fun other a ha => ?_⟩
    dsimp only at ha
    by_cases heq : other = operation
    · rw [heq, Function.update_self] at ha
      exact .inr (Option.some.inj ha).symm
    · rw [Function.update_of_ne heq] at ha
      exact .inl ha
  | intercept operation response => cases hi
  | fetched operation =>
    obtain ⟨_, _, _, _, _, he'⟩ := Exchange.fetched_some h
    rw [he']
    exact .of_client (length_advance ..).ge
  | fetchFailed operation message =>
    obtain ⟨_, _, _, he'⟩ := Exchange.fetchFailed_some h
    rw [he']
    exact .of_client (length_advance ..).ge
  | bodyRead operation received =>
    obtain ⟨_, _, _, _, he'⟩ := Exchange.bodyRead_some h
    rw [he']
    exact .of_client (length_advance ..).ge
  | verified operation now =>
    obtain ⟨_, _, _, _, _, he'⟩ := Exchange.verified_some h
    rw [he']
    refine .of_client (Nat.le_of_eq ?_)
    unfold ConfigurationClient.afterVerify
    split
    · exact (length_advance ..).symm
    · simp only [ConfigurationClient.advance, List.length_set]
  | clearInFlight operation =>
    obtain ⟨_, _, _, _, he'⟩ := Exchange.clearInFlight_some h
    rw [he']
    refine .of_client (Nat.le_of_eq ?_)
    unfold ConfigurationClient.clearInFlight
    split <;> rfl

/-- What was current after so many publications is one of them. -/
theorem currentAt_some {e : Exchange.State} {publications : ℕ} {snapshot : Control.Snapshot}
    (hle : publications ≤ e.published.length) (h : e.currentAt publications = some snapshot) :
    e.published[publications - 1]? = some snapshot := by
  unfold Exchange.State.currentAt at h
  rw [List.getLast?_eq_getElem?, List.length_take, Nat.min_eq_left hle] at h
  rcases Nat.eq_zero_or_pos publications with hzero | hpos
  · rw [hzero] at h
    simp at h
  · rw [List.getElem?_take_of_lt (by omega)] at h
    exact h

/-! ## The invariant -/

/-- The store held the version as the publication or as a later one. -/
def ArrivedAt (published : List Control.Snapshot) (publication : ℕ) (version : Option String) :
    Prop :=
  ∃ later snapshot, publication ≤ later ∧ published[later]? = some snapshot ∧
    version = some snapshot.version

theorem ArrivedAt.mono {published published' : List Control.Snapshot} {publication : ℕ}
    {version : Option String} (h : ArrivedAt published publication version)
    (hextends : published <+: published') : ArrivedAt published' publication version := by
  have ⟨later, snapshot, hle, hsnapshot, hversion⟩ := h
  have ⟨added, hadded⟩ := hextends
  have hlt := (List.getElem?_eq_some_iff.mp hsnapshot).1
  refine ⟨later, snapshot, hle, ?_, hversion⟩
  rw [← hadded, List.getElem?_append_left hlt, hsnapshot]

structure Invariant (G : Control.GoPlatform) (s : State) : Prop where
  exchange : Exchange.Invariant G s.exchange
  genuine : ∀ operation a, s.exchange.answers operation = some a →
    ∃ publications, a = .handler publications
  /-- The refresh that an event awaits is answered after the publication. -/
  awaited : ∀ handling, s.handling = some handling →
    handling.publication < s.exchange.published.length ∧
    ∀ publications, s.exchange.answers handling.operation = some (.handler publications) →
      handling.publication < publications
  handled : ∀ handled ∈ s.handled,
    ArrivedAt s.exchange.published handled.publication handled.version

theorem invariant_initial : Invariant G initial where
  exchange := Exchange.invariant_initial
  genuine := by simp [initial, Exchange.initial]
  awaited := by simp [initial]
  handled := by simp [initial]

/-- The exchange may go on beside the loop. -/
theorem Invariant.grows (hI : Invariant G s) {exchange : Exchange.State}
    (hexchange : Exchange.Invariant G exchange) (hgrows : Grows s.exchange exchange) :
    Invariant G { s with exchange } where
  exchange := hexchange
  genuine := by
    intro operation a ha
    rcases hgrows.answers operation a ha with hold | hnew
    · exact hI.genuine operation a hold
    · exact ⟨_, hnew⟩
  awaited := by
    intro handling hhandling
    have ⟨hpublished, hanswers⟩ := hI.awaited handling hhandling
    have hlength := hgrows.published.length_le
    refine ⟨by dsimp only; omega, fun publications ha => ?_⟩
    rcases hgrows.answers _ _ ha with hold | hnew
    · exact hanswers publications hold
    · have heq := Exchange.Answer.handler.inj hnew
      omega
  handled := fun handled hmem => (hI.handled handled hmem).mono hgrows.published

/-- The loop is done with an event. -/
theorem Invariant.reach (hI : Invariant G s) {publication : ℕ} {stage : EventStage}
    (hawaiting : ∀ operation, stage ≠ .awaiting operation)
    (hfinished : stage = .finished →
      ArrivedAt s.exchange.published publication s.currentVersion) :
    Invariant G (s.reach publication stage) := by
  cases stage with
  | skipped => exact ⟨hI.exchange, hI.genuine, (fun _ h => by cases h), hI.handled⟩
  | awaiting operation => exact absurd rfl (hawaiting operation)
  | finished =>
    refine ⟨hI.exchange, hI.genuine, (fun _ h => by cases h), fun handled hmem => ?_⟩
    rcases List.mem_append.mp hmem with hmem | hmem
    · exact hI.handled handled hmem
    · rw [List.mem_singleton.mp hmem]
      exact hfinished rfl
  | reported error => exact ⟨hI.exchange, hI.genuine, (fun _ h => by cases h), hI.handled⟩

/-! ## Steps that keep it -/

/-- When a step cannot lose the announced update: an event of a running session finds its version
already there, or no registered refresh that was answered before the publication; and an event
does not find its refresh failed in a stopped session. -/
def Timely (s : State) : Action → Prop
  | .event publication =>
    s.aborted = false → ∀ snapshot, s.exchange.published[publication]? = some snapshot →
      s.currentVersion = some snapshot.version ∨
        ∀ operation publications, s.exchange.client.refreshInFlight = some operation →
          s.exchange.answers operation = some (.handler publications) →
          publication < publications
  | .resume =>
    s.aborted = true → ∀ handling refresh error, s.handling = some handling →
      s.exchange.refresh handling.operation = some refresh →
      refresh.stage ≠ .settled (.error error)
  | _ => True

/-- A successful refresh leaves what was current at its answer, or something newer. -/
theorem Invariant.arrived (hI : Invariant G s) {operation publication : ℕ} {refresh : Refresh}
    {result : RefreshResult} (hrefresh : s.exchange.refresh operation = some refresh)
    (hstage : refresh.stage = .settled (.ok result))
    (hanswered : ∀ publications, s.exchange.answers operation = some (.handler publications) →
      publication < publications) :
    ArrivedAt s.exchange.published publication s.currentVersion := by
  have ⟨a, ha⟩ := hI.exchange.succeeded operation refresh result hrefresh hstage
  have ⟨publications, hpublications⟩ := hI.genuine operation a ha
  rw [hpublications] at ha
  have ⟨newest, refresh', result', hle, hrefresh', hstage', hsnapshot⟩ :=
    hI.exchange.latest operation refresh result hrefresh hstage
  have ⟨a', ha'⟩ := hI.exchange.succeeded newest refresh' result' hrefresh' hstage'
  have ⟨newer, hnewer⟩ := hI.genuine newest a' ha'
  rw [hnewer] at ha'
  have hordered : publications ≤ newer := by
    rcases Nat.eq_or_lt_of_le hle with heq | hlt
    · rw [heq, ha'] at ha
      have hsame := Exchange.Answer.handler.inj (Option.some.inj ha)
      omega
    · exact hI.exchange.ordered operation newest publications newer hlt ha ha'
  have hlt := hanswered publications ha
  have ⟨current, hcurrent, hversion⟩ :=
    hI.exchange.current newest refresh' result' newer hrefresh' hstage' ha'
  have hbound := hI.exchange.answered newest newer ha'
  refine ⟨newer - 1, current, by omega, currentAt_some hbound hcurrent, ?_⟩
  rw [State.currentVersion, hsnapshot, Option.map_some, hversion]

/-- What the loop does with an announcement: it drops or reports it, finds its version already
there, or awaits a refresh. -/
theorem processEvent_announcement (aborted : Bool) (signal : ℕ) (client : ConfigurationClient)
    (snapshot : Control.Snapshot) :
    (∃ stage, processEvent aborted signal client (announcement snapshot) = (stage, client) ∧
        (∀ operation, stage ≠ .awaiting operation) ∧ stage ≠ .finished) ∨
      (processEvent aborted signal client (announcement snapshot) = (.finished, client) ∧
        client.snapshot.map (·.value.bundle.version) = some snapshot.version) ∨
      (processEvent aborted signal client (announcement snapshot) =
          (.awaiting (client.refresh (some signal)).1, (client.refresh (some signal)).2) ∧
        aborted = false ∧ client.snapshot.map (·.value.bundle.version) ≠ some snapshot.version) := by
  have hevent : announcement snapshot =
      { event := "bundle", data := some (.object [("version", .string snapshot.version)]) } := rfl
  rw [hevent]
  unfold processEvent
  by_cases haborted : aborted = true
  · rw [if_pos (by simp [haborted])]
    exact .inl ⟨_, rfl, fun _ => by simp, by simp⟩
  · rw [if_neg (by simp [haborted])]
    simp only
    split
    · rw [Bool.not_eq_true] at haborted
      rw [haborted]
      exact .inl ⟨_, rfl, fun _ => by simp [caught], by simp [caught]⟩
    · next announced hannounced =>
      rw [parseBundleEventVersion_ok hannounced]
      split
      · next hdiffers =>
        exact .inr (.inr ⟨rfl, Bool.eq_false_iff.mpr haborted, fun hequal => hdiffers hequal.symm⟩)
      · next hequal => exact .inr (.inl ⟨rfl, (not_not.mp hequal).symm⟩)

theorem event_some {publication : ℕ}
    (h : step P G trustedKeys s (.event publication) = some s') :
    ∃ snapshot, s.exchange.published[publication]? = some snapshot ∧
      s' = State.reach
        { s with exchange := { s.exchange with
            client := (processEvent s.aborted s.session s.exchange.client
              (announcement snapshot)).2 } }
        publication
        (processEvent s.aborted s.session s.exchange.client (announcement snapshot)).1 := by
  simp only [step] at h
  split at h
  · next snapshot _ hsnapshot => exact ⟨snapshot, hsnapshot, (Option.some.inj h).symm⟩
  · cases h

theorem resume_some (h : step P G trustedKeys s .resume = some s') :
    ∃ handling refresh result, s.handling = some handling ∧
      s.exchange.refresh handling.operation = some refresh ∧ refresh.stage = .settled result ∧
      s' = s.reach handling.publication (afterRefresh s.aborted result) := by
  simp only [step] at h
  split at h
  · cases h
  · next handling hhandling =>
    split at h
    · next hrefresh =>
      exact ⟨handling, _, _, hhandling, hrefresh, rfl, (Option.some.inj h).symm⟩
    · cases h

/-- An event reaches the loop. -/
theorem Invariant.event (hI : Invariant G s) {publication : ℕ}
    (htimely : Timely s (.event publication))
    (h : step P G trustedKeys s (.event publication) = some s') : Invariant G s' := by
  have ⟨snapshot, hsnapshot, hs'⟩ := event_some h
  have hlt := (List.getElem?_eq_some_iff.mp hsnapshot).1
  rw [hs']
  rcases processEvent_announcement s.aborted s.session s.exchange.client snapshot with
    ⟨stage, heq, hawaiting, hfinished⟩ | ⟨heq, hcurrent⟩ | ⟨heq, hrunning, hdiffers⟩
  · rw [heq]
    exact hI.reach hawaiting fun h => absurd h hfinished
  · rw [heq]
    refine hI.reach (fun _ => by simp) fun _ => ?_
    exact ⟨publication, snapshot, Nat.le_refl _, hsnapshot, hcurrent⟩
  · rw [heq]
    -- the event awaits a refresh that was running or that starts here
    have hexchange := hI.exchange.refresh (some s.session)
    have hgrown := hI.grows hexchange (Grows.of_client (length_refresh _ _))
    have hstale := (htimely hrunning snapshot hsnapshot).resolve_left hdiffers
    refine ⟨hexchange, hgrown.genuine, ?_, hgrown.handled⟩
    intro handling hhandling
    rw [← Option.some.inj hhandling]
    refine ⟨hlt, fun publications ha => ?_⟩
    unfold ConfigurationClient.refresh at ha
    split at ha
    · next operation hoperation => exact hstale operation publications hoperation ha
    · have hasked := hI.exchange.asked _ _ ha
      exact absurd hasked (Nat.lt_irrefl _)

/-- The loop goes on after its await. -/
theorem Invariant.resume (hI : Invariant G s) (htimely : Timely s .resume)
    (h : step P G trustedKeys s .resume = some s') : Invariant G s' := by
  have ⟨handling, refresh, result, hhandling, hrefresh, hstage, hs'⟩ := resume_some h
  have ⟨_, hanswered⟩ := hI.awaited handling hhandling
  rw [hs']
  rcases result with error | result
  · refine hI.reach (fun _ => ?_) fun hfinished => ?_
    · simp only [afterRefresh, caught]
      split <;> simp
    · have haborted : s.aborted = true := by
        by_contra hrunning
        simp [afterRefresh, caught, hrunning] at hfinished
      exact absurd hstage (htimely haborted handling refresh error hhandling hrefresh)
  · refine hI.reach (fun _ => by simp [afterRefresh]) fun _ => ?_
    exact hI.arrived hrefresh hstage hanswered

theorem Invariant.step (hI : Invariant G s) {action : Action} (htimely : Timely s action)
    (h : step P G trustedKeys s action = some s') : Invariant G s' := by
  cases action with
  | exchange action =>
    simp only [Sync.step] at h
    split at h
    · cases h
    · next hgenuine =>
      have ⟨exchange, hexchange, hs'⟩ := Option.map_eq_some_iff.mp h
      rw [← hs']
      exact hI.grows (hI.exchange.step hexchange)
        (grows_of_step hexchange (Bool.eq_false_iff.mpr hgenuine))
  | start =>
    simp only [Sync.step] at h
    split at h
    · rw [← Option.some.inj h]
      exact ⟨hI.exchange, hI.genuine, hI.awaited, hI.handled⟩
    · cases h
  | stop =>
    rw [← Option.some.inj h]
    exact ⟨hI.exchange, hI.genuine, hI.awaited, hI.handled⟩
  | event publication => exact hI.event htimely h
  | resume => exact hI.resume htimely h

theorem invariant_of_reachable (h : (machine P G trustedKeys).ReachableBy Timely s) :
    Invariant G s :=
  h.invariant (fun _ hs => hs ▸ invariant_initial) fun _ _ _ hI htimely hs => hI.step htimely hs

/-! ## The first verification -/

namespace Orders

open Delivery.Orders

def snapshot : Control.Snapshot where
  body := envelope.toJson
  etag := Control.quote goPlatform envelope.bundle.version
  version := envelope.bundle.version

/-- What the handler answers a first request. -/
def served : Response := Exchange.State.fromHandler (Control.bundle (some snapshot) none)

def object : SnapshotObject where
  createdBy := 0
  value :=
    { bundle := received.bundle
      etag := "\"" ++ received.bundle.version ++ "\""
      loadedAt := 0 }

/-- The first session has started after the first publication. -/
def announced (handling : Option Handling) (client : ConfigurationClient) : State where
  exchange := { published := [snapshot], client, answers := fun _ => none }
  session := 1
  aborted := false
  handling := handling
  handled := []

/-- The handler has answered the client's first refresh. -/
def answered (handling : Option Handling) : State :=
  let s := announced handling (ConfigurationClient.new.refresh (some 1)).2
  { s with exchange := { s.exchange with
      answers := Function.update s.exchange.answers 0 (some (.handler 1)) } }

/-- The first publication has reached the client, whose refresh is at a stage. -/
def fetched (handling : Option Handling) (held : Option SnapshotObject) (stage : Stage) : State where
  exchange :=
    { published := [snapshot]
      client :=
        { snapshot := held
          refreshInFlight := some 0
          refreshes := [{
            request := { ifNoneMatch := none, signal := some 1 }
            stage
            before := none
            after := held }] }
      answers := Function.update (fun _ => none) 0 (some (.handler 1)) }
  session := 1
  aborted := false
  handling := handling
  handled := []

theorem served_etag : served.etag = some ("\"" ++ received.bundle.version ++ "\"") := by
  decide +kernel

theorem verifySnapshot_served :
    verifySnapshot edgePlatform keyring served envelope.toJson 0 = .ok object.value :=
  verifySnapshot_ok_iff.mpr ⟨received, verify_envelope, served_etag, rfl⟩

theorem afterVerify_served (client : ConfigurationClient) (refresh : Refresh) :
    client.afterVerify edgePlatform keyring 0 refresh served envelope.toJson 0 =
      { client with snapshot := some object }.advance 0 refresh
        (.settled (.ok { status := .updated, snapshot := object })) := by
  rw [ConfigurationClient.afterVerify, verifySnapshot_served]
  rfl

theorem step_verified (handling : Option Handling) :
    (machine edgePlatform goPlatform keyring).step
      (fetched handling none (.verifying served envelope.toJson)) (.exchange (.verified 0 0)) =
        some (fetched handling (some object)
          (.settled (.ok { status := .updated, snapshot := object }))) := by
  have hexchange : Exchange.step edgePlatform goPlatform keyring
      (fetched handling none (.verifying served envelope.toJson)).exchange (.verified 0 0) =
      some { (fetched handling none (.verifying served envelope.toJson)).exchange with
        client := (fetched handling none
          (.verifying served envelope.toJson)).exchange.client.afterVerify edgePlatform keyring 0
            { request := { ifNoneMatch := none, signal := some 1 }
              stage := .verifying served envelope.toJson, before := none, after := none }
            served envelope.toJson 0 } := rfl
  have hstep (s : State) :
      (machine edgePlatform goPlatform keyring).step s (.exchange (.verified 0 0)) =
        (Exchange.step edgePlatform goPlatform keyring s.exchange (.verified 0 0)).map
          fun exchange => { s with exchange } := rfl
  rw [hstep, hexchange, afterVerify_served]
  rfl

/-- The answer of the handler is read. -/
theorem run_fetched (handling : Option Handling) :
    (machine edgePlatform goPlatform keyring).run (answered handling)
      [.exchange (.fetched 0), .exchange (.bodyRead 0 true)] =
        some (fetched handling none (.verifying served envelope.toJson)) := by
  have htype : served.contentType.map mediaType = some "application/json" := by
    decide +kernel
  have hread : afterFetch none served = .reading served := by
    unfold afterFetch
    rw [if_neg (by decide +kernel), if_neg (by decide +kernel), if_neg (by rw [htype]; simp)]
  have hanswer (answers : ℕ → Option Exchange.Answer) (client : ConfigurationClient) :
      Exchange.State.response { published := [snapshot], client, answers }
        { ifNoneMatch := none, signal := some 1 } (.handler 1) = served := rfl
  simp [System.Machine.run, machine, step, isIntercept, Exchange.step, answered, announced,
    Exchange.State.refresh, ConfigurationClient.refresh, ConfigurationClient.new,
    ConfigurationClient.refreshOnce, ConfigurationClient.advance, afterBody, hread, hanswer, fetched]
  rfl

end Orders

/-! ## Announced updates -/

/-- In a run whose steps are timely every event that is handled without an error report leaves
the announced version, or one that the store held later. -/
theorem announced_update_arrives (P : Platform) (G : Control.GoPlatform)
    (trustedKeys : TrustedKeyring) (s : State)
    (h : (machine P G trustedKeys).ReachableBy Timely s) :
    ∀ handled ∈ s.handled, ArrivedAt s.exchange.published handled.publication handled.version :=
  (invariant_of_reachable h).handled

open Delivery.Orders in
/-- The first publication is announced while a poll is in flight that the handler has answered
after it; its event joins the poll, which installs it. -/
theorem announced_update_arrives_orders :
    ∃ s, (machine edgePlatform goPlatform keyring).Reachable s ∧
      s.handled = [{ publication := 0, version := some bundle.version }] ∧
      ArrivedAt s.exchange.published 0 (some bundle.version) := by
  let M := machine edgePlatform goPlatform keyring
  let handling : Option Handling := some { publication := 0, operation := 0 }
  have hbefore : M.run initial
      [.start, .exchange (.publish envelope), .exchange (.refresh (some 1)),
        .exchange (.handle 0)] = some (Orders.answered none) := rfl
  have hevent : M.step (Orders.answered none) (.event 0) = some (Orders.answered handling) := rfl
  have hrest : ((M.run (Orders.fetched handling (some Orders.object)
      (.settled (.ok { status := .updated, snapshot := Orders.object })))
      [.exchange (.clearInFlight 0)]).bind fun u => (M.step u .resume).map fun v =>
        (u.aborted, v.handled)) =
      some (false, [{ publication := 0, version := some bundle.version }]) := by
    decide +kernel
  simp only [Option.bind_eq_some_iff, Option.map_eq_some_iff, Prod.mk.injEq] at hrest
  obtain ⟨u, hu, v, hv, hrunning, hhandled⟩ := hrest
  have hreach : M.ReachableBy Timely v := by
    have hanswered : M.ReachableBy Timely (Orders.answered none) :=
      .of_run _ (by simp [Timely]) (.init rfl) hbefore
    have htimely : Timely (Orders.answered none) (.event 0) := by
      refine fun _ _ _ => .inr fun operation publications hoperation hanswer => ?_
      obtain rfl := Option.some.inj hoperation
      rw [← Exchange.Answer.handler.inj (Option.some.inj hanswer)]
      exact Nat.one_pos
    have hfetched := System.Machine.ReachableBy.of_run _ (by simp [Timely])
      (.step hanswered htimely hevent) (Orders.run_fetched handling)
    have hverified := hfetched.step (by simp [Timely]) (Orders.step_verified handling)
    have hcleared := System.Machine.ReachableBy.of_run _ (by simp [Timely]) hverified hu
    have htimely' : Timely u .resume := by
      intro haborted
      rw [hrunning] at haborted
      cases haborted
    exact .step hcleared htimely' hv
  have harrived := announced_update_arrives _ _ _ v hreach _ (hhandled ▸ List.mem_singleton_self _)
  exact ⟨v, hreach.reachable, hhandled, harrived⟩

open Delivery.Orders in
/-- A poll is answered with a 304 just before the revised policy is published; its event joins
the poll and leaves the old version. -/
theorem announced_update_lost :
    ¬ ∀ (P : Platform) (G : Control.GoPlatform) (trustedKeys : TrustedKeyring) (s : State),
      (machine P G trustedKeys).Reachable s →
      ∀ handled ∈ s.handled,
        ArrivedAt s.exchange.published handled.publication handled.version := by
  intro hall
  let M := machine edgePlatform goPlatform keyring
  have hbefore : M.run initial
      [.start, .exchange (.publish envelope), .exchange (.refresh (some 1)),
        .exchange (.handle 0)] = some (Orders.answered none) := rfl
  have hrun : (M.run (Orders.fetched none (some Orders.object)
      (.settled (.ok { status := .updated, snapshot := Orders.object })))
      [.exchange (.clearInFlight 0), .exchange (.refresh (some 1)), .exchange (.handle 1),
        .exchange (.publish revisedEnvelope), .event 1,
        .exchange (.fetched 1), .exchange (.clearInFlight 1), .resume]).map
      (fun s => (s.handled, s.exchange.published.map (·.version))) =
      some ([{ publication := 1, version := some bundle.version }],
        [bundle.version, revised.version]) := by
    decide +kernel
  obtain ⟨s, hs, hend⟩ := Option.map_eq_some_iff.mp hrun
  obtain ⟨hhandled, hversions⟩ := Prod.mk.inj hend
  have hfetched := System.Machine.Reachable.of_run _ (System.Machine.Reachable.of_run _ (.init rfl) hbefore)
    (Orders.run_fetched none)
  have hverified := hfetched.next (Orders.step_verified none)
  have hreach := System.Machine.Reachable.of_run _ hverified hs
  have ⟨later, snapshot, hle, hsnapshot, hversion⟩ :=
    hall _ _ _ s hreach _ (hhandled ▸ List.mem_singleton_self _)
  have hlater : (s.exchange.published.map (·.version))[later]? = some snapshot.version := by
    rw [List.getElem?_map, hsnapshot, Option.map_some]
  rw [hversions] at hlater
  have hone : later = 1 := by
    have hlt := (List.getElem?_eq_some_iff.mp hlater).1
    have hle' : 1 ≤ later := hle
    simp only [List.length_cons, List.length_nil] at hlt
    omega
  rw [hone, ← hversion] at hlater
  exact absurd hlater (by decide)

end Sync
end ShieldWard.Delivery
