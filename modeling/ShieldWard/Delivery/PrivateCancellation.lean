import ShieldWard.Delivery.Signed
import ShieldWard.Edge.SyncLifecycleTheorems

/-!
# Whose signal ends a refresh

The client hands the promise of a refresh in flight to every caller, and the fetch behind it has
the signal of the first one. When that signal is aborted before the body has been read, every
caller fails, with whatever signal of its own. As long as no refresh that is shared is cut off in
this way, a caller fails only when its own signal has been aborted.
-/

namespace ShieldWard.Delivery

open Edge Edge.Lifecycle

namespace Cancellation

/-! ## A control plane that answers -/

/-- The body of the response is a signed bundle that the client accepts. -/
def ServesBundle (P : Platform) (trustedKeys : TrustedKeyring) (response : Response) : Prop :=
  ∃ body, response.body = some body ∧
    ∀ now, ∃ value, verifySnapshot P trustedKeys response body now = .ok value

/-- What the control plane answers: a valid signed bundle, or, to a request with an entity tag,
that it has not changed. -/
def ValidAnswer (P : Platform) (trustedKeys : TrustedKeyring) (request : Request)
    (response : Response) : Prop :=
  response.status = 304 ∧ request.ifNoneMatch.isSome = true ∨
    response.status ≠ 304 ∧ response.ok = true ∧
      response.contentType.map mediaType = some "application/json" ∧
      ServesBundle P trustedKeys response

/-- The signal that the fetch of a refresh was given has been aborted. -/
def isAborted (s : State) (refresh : Refresh) : Bool :=
  refresh.request.signal.any s.sessions.aborted

/-- A fetch, or the reading of its body, fails exactly when its signal is aborted, and every other
request is answered. -/
def Answers (P : Platform) (trustedKeys : TrustedKeyring) (s : State) : Action → Prop
  | .network (.fetched operation response) =>
    ∀ refresh, s.client.refreshes[operation]? = some refresh →
      isAborted s refresh = false ∧ ValidAnswer P trustedKeys refresh.request response
  | .network (.fetchFailed operation _) =>
    ∀ refresh, s.client.refreshes[operation]? = some refresh → isAborted s refresh = true
  | .network (.bodyRead operation received) =>
    ∀ refresh, s.client.refreshes[operation]? = some refresh →
      received = false → isAborted s refresh = true
  | _ => True

/-! ## Shared refreshes -/

/-- The signal of the refresh still decides how it ends, or has decided it. -/
def atRisk : Stage → Bool
  | .fetching => true
  | .reading _ => true
  | .verifying _ _ => false
  | .settled (.error _) => true
  | .settled (.ok _) => false

/-- The signal with which a step calls `refresh` on the client. -/
def callsRefresh (s : State) : Action → Option (Option ℕ)
  | .refresh signal => some signal
  | .start =>
    if s.sessions.fields.controller = none then some (some s.sessions.controllers) else none
  | .streamStep session .next =>
    match (s.sessions.session session).bind (·.stream) with
    | some (.processing (event :: _) _) =>
      match (processEvent (s.sessions.aborted session) session s.client event).1 with
      | .awaiting _ => some (some session)
      | _ => none
    | _ => none
  | .pollStep session =>
    match (s.sessions.session session).bind (·.poll) with
    | some .delaying => if s.sessions.aborted session then none else some (some session)
    | _ => none
  | _ => none

/-- The controller that a step aborts, with a `start` that fails left aside: it aborts what a
`stop` has aborted before. -/
def aborts (s : State) : Action → Option ℕ
  | .abort controller => some controller
  | .stop => s.sessions.fields.controller
  | _ => none

/-- The refresh in flight is not one that another caller's signal is about to end. -/
def JoinsSafely (s : State) (signal : Option ℕ) : Prop :=
  ∀ operation refresh, s.client.refreshInFlight = some operation →
    s.client.refreshes[operation]? = some refresh → refresh.request.signal ≠ signal →
      isAborted s refresh = true → atRisk refresh.stage = false

/-- No refresh with the signal of this controller is awaited with another signal, unless its body
has been read. -/
def AbortsSafely (s : State) (controller : ℕ) : Prop :=
  ∀ call ∈ s.calls, ∀ refresh, s.client.refreshes[call.operation]? = some refresh →
    refresh.request.signal = some controller → call.signal ≠ some controller →
      atRisk refresh.stage = false

/-- No refresh that is shared is cut off by the signal that it was started with. -/
def Unshared (s : State) (a : Action) : Prop :=
  (∀ signal, callsRefresh s a = some signal → JoinsSafely s signal) ∧
    ∀ controller, aborts s a = some controller → AbortsSafely s controller

/-! ## What every refresh is -/

structure Sound (P : Platform) (trustedKeys : TrustedKeyring) (s : State) (refresh : Refresh) :
    Prop where
  failed : ∀ error, refresh.stage = .settled (.error error) → isAborted s refresh = true
  reading : ∀ response, refresh.stage = .reading response → ServesBundle P trustedKeys response
  verifying : ∀ response body, refresh.stage = .verifying response body →
    ∀ now, ∃ value, verifySnapshot P trustedKeys response body now = .ok value
  conditional : refresh.request.ifNoneMatch.isSome = true → s.client.snapshot.isSome = true

/-- The caller waits for a refresh of its own signal, or for one that its signal does not end. -/
def Undisturbed (s : State) (call : Lifecycle.Call) : Prop :=
  ∃ refresh, s.client.refreshes[call.operation]? = some refresh ∧
    (refresh.request.signal ≠ call.signal → isAborted s refresh = true →
      atRisk refresh.stage = false)

/-- What the client and its callers are. -/
structure Awaited (P : Platform) (trustedKeys : TrustedKeyring) (s : State) : Prop where
  refreshes : ∀ (operation : ℕ) (refresh : Refresh),
    s.client.refreshes[operation]? = some refresh → Sound P trustedKeys s refresh
  inFlight : ∀ operation, s.client.refreshInFlight = some operation →
    operation < s.client.refreshes.length
  calls : ∀ call ∈ s.calls, Undisturbed s call

/-- What the sessions are. -/
structure Started (s : State) : Prop where
  /-- A session that has been aborted has been stopped. -/
  stopped : ∀ k session, s.sessions.session k = some session → s.sessions.aborted k = true →
    ∃ call ∈ s.sessions.stops, call.session = k
  refreshing : ∀ k session operation, s.sessions.session k = some session →
    session.start = .refreshing operation → { signal := some k, operation } ∈ s.calls
  failed : ∀ k session error, s.sessions.session k = some session →
    session.start = .observed (.error error) ∨ session.start = .rejected error →
      s.sessions.aborted k = true

/-! ## Callers fail by their own signal -/

section Steps

variable {P : Platform} {trustedKeys : TrustedKeyring} {s s' : State}

theorem settled_eq_some_iff {operation : ℕ} {result : Except RefreshError RefreshResult} :
    s.settled operation = some result ↔
      ∃ refresh, s.client.refreshes[operation]? = some refresh ∧
        refresh.stage = .settled result := by
  unfold State.settled
  constructor
  · intro h
    split at h
    · next hrefresh =>
      cases h
      exact ⟨_, hrefresh, rfl⟩
    · cases h
  · rintro ⟨⟨request, stage, before, after⟩, hrefresh, hstage⟩
    simp only at hstage
    rw [hrefresh, hstage]

theorem Awaited.own (h : Awaited P trustedKeys s) {call : Lifecycle.Call} (hcall : call ∈ s.calls)
    {error : RefreshError} (hsettled : s.settled call.operation = some (.error error)) :
    call.signal.any s.sessions.aborted = true := by
  obtain ⟨refresh, hrefresh, hstage⟩ := settled_eq_some_iff.mp hsettled
  obtain ⟨same, hsame, hsafe⟩ := h.calls call hcall
  rw [hrefresh] at hsame
  rw [← Option.some.inj hsame] at hsafe
  have haborted := (h.refreshes _ _ hrefresh).failed error hstage
  by_contra hown
  have hne : refresh.request.signal ≠ call.signal := by
    intro heq
    rw [← heq] at hown
    exact hown haborted
  have hrisk := hsafe hne haborted
  rw [hstage] at hrisk
  cases hrisk

/-! ## Steps that leave the client alone -/

theorem Sound.mono {refresh : Refresh} (h : Sound P trustedKeys s refresh)
    (haborted : ∀ k, s.sessions.aborted k = true → s'.sessions.aborted k = true)
    (hsnapshot : s.client.snapshot.isSome = true → s'.client.snapshot.isSome = true) :
    Sound P trustedKeys s' refresh := by
  refine ⟨?_, h.reading, h.verifying, fun htag => hsnapshot (h.conditional htag)⟩
  intro error hstage
  have hbefore := h.failed error hstage
  unfold isAborted at hbefore ⊢
  rw [Option.any_eq_true] at hbefore ⊢
  obtain ⟨k, hk, hk'⟩ := hbefore
  exact ⟨k, hk, haborted k hk'⟩

theorem Awaited.congr (h : Awaited P trustedKeys s) (hclient : s'.client = s.client)
    (hcalls : s'.calls = s.calls) (haborted : s'.sessions.aborted = s.sessions.aborted) :
    Awaited P trustedKeys s' := by
  refine ⟨?_, ?_, ?_⟩
  · intro operation refresh hrefresh
    rw [hclient] at hrefresh
    apply (h.refreshes operation refresh hrefresh).mono
    · rw [haborted]
      exact fun _ => id
    · rw [hclient]
      exact id
  · rw [hclient]
    exact h.inFlight
  · intro call hcall
    rw [hcalls] at hcall
    obtain ⟨refresh, hrefresh, hsafe⟩ := h.calls call hcall
    refine ⟨refresh, by rw [hclient]; exact hrefresh, ?_⟩
    unfold isAborted at hsafe ⊢
    rw [haborted]
    exact hsafe

/-- A controller is aborted. -/
theorem Awaited.abort (h : Awaited P trustedKeys s) {controller : ℕ}
    (hsafe : AbortsSafely s controller) (hclient : s'.client = s.client)
    (hcalls : s'.calls = s.calls)
    (haborted : ∀ k, s'.sessions.aborted k = if k = controller then true else s.sessions.aborted k) :
    Awaited P trustedKeys s' := by
  have hmono : ∀ k, s.sessions.aborted k = true → s'.sessions.aborted k = true := by
    intro k hk
    rw [haborted]
    split
    · rfl
    · exact hk
  refine ⟨?_, ?_, ?_⟩
  · intro operation refresh hrefresh
    rw [hclient] at hrefresh
    apply (h.refreshes operation refresh hrefresh).mono hmono
    rw [hclient]
    exact id
  · rw [hclient]
    exact h.inFlight
  · intro call hcall
    rw [hcalls] at hcall
    obtain ⟨refresh, hrefresh, hundisturbed⟩ := h.calls call hcall
    refine ⟨refresh, by rw [hclient]; exact hrefresh, ?_⟩
    intro hne hnow
    obtain ⟨k, hk, hk'⟩ := (Option.any_eq_true _ _).mp hnow
    rw [haborted] at hk'
    split at hk'
    · next heq =>
      -- the signal of the refresh is the one that is aborted now
      rw [heq] at hk
      have hown : call.signal ≠ some controller := by
        intro hsignal
        rw [hk, hsignal] at hne
        exact hne rfl
      exact hsafe call hcall refresh hrefresh hk hown
    · exact hundisturbed hne ((Option.any_eq_true _ _).mpr ⟨k, hk, hk'⟩)

/-! ## Calls of `refresh` -/

theorem Awaited.called (h : Awaited P trustedKeys s) {signal : Option ℕ}
    (hsafe : JoinsSafely s signal) (hclient : s'.client = (s.client.refresh signal).2)
    (hcalls : s'.calls = s.calls ++
      [{ signal, operation := (s.client.refresh signal).1 }])
    (haborted : s'.sessions.aborted = s.sessions.aborted) : Awaited P trustedKeys s' := by
  -- the step aborts nothing, so what protected a caller before protects it now
  have hundisturbed : ∀ (call : Lifecycle.Call) (refresh : Refresh),
      s'.client.refreshes[call.operation]? = some refresh →
        (refresh.request.signal ≠ call.signal → isAborted s refresh = true →
          atRisk refresh.stage = false) → Undisturbed s' call := by
    intro call refresh hrefresh hsame
    refine ⟨refresh, hrefresh, ?_⟩
    unfold isAborted at hsame ⊢
    rw [haborted]
    exact hsame
  rcases hinFlight : s.client.refreshInFlight with _ | operation
  -- no refresh is in flight: the call starts one with its own signal
  · simp only [ConfigurationClient.refresh, hinFlight] at hclient hcalls
    have hold : ∀ (operation : ℕ) (refresh : Refresh),
        s.client.refreshes[operation]? = some refresh →
          s'.client.refreshes[operation]? = some refresh := by
      intro operation refresh hrefresh
      have hlt := (List.getElem?_eq_some_iff.mp hrefresh).1
      rw [hclient, List.getElem?_append_left hlt]
      exact hrefresh
    have hnew : s'.client.refreshes[s.client.refreshes.length]? =
        some (s.client.refreshOnce signal) := by
      rw [hclient, List.getElem?_append_right (le_refl _), Nat.sub_self]
      rfl
    refine ⟨?_, ?_, ?_⟩
    · intro operation refresh hrefresh
      rw [hclient, List.getElem?_append] at hrefresh
      split at hrefresh
      · apply (h.refreshes operation refresh hrefresh).mono
        · rw [haborted]
          exact fun _ => id
        · rw [hclient]
          exact id
      · have hlast := List.mem_singleton.mp (List.mem_of_getElem? hrefresh)
        rw [hlast]
        refine ⟨?_, ?_, ?_, ?_⟩
        · intro error hstage
          cases hstage
        · intro response hstage
          cases hstage
        · intro response body hstage
          cases hstage
        · intro htag
          rw [hclient]
          simpa [ConfigurationClient.refreshOnce] using htag
    · intro operation hoperation
      rw [hclient] at hoperation ⊢
      have heq : s.client.refreshes.length = operation := Option.some.inj hoperation
      rw [List.length_append, ← heq]
      exact Nat.lt_succ_self _
    · intro call hcall
      rw [hcalls] at hcall
      rcases List.mem_append.mp hcall with hbefore | hlast
      · obtain ⟨refresh, hrefresh, hsame⟩ := h.calls call hbefore
        exact hundisturbed call refresh (hold _ _ hrefresh) hsame
      · rw [List.mem_singleton.mp hlast]
        exact hundisturbed _ _ hnew fun hne => absurd rfl hne
  · -- the caller joins the refresh in flight
    simp only [ConfigurationClient.refresh, hinFlight] at hclient hcalls
    have hlt := h.inFlight operation hinFlight
    refine ⟨?_, ?_, ?_⟩
    · intro other refresh hrefresh
      rw [hclient] at hrefresh
      apply (h.refreshes other refresh hrefresh).mono
      · rw [haborted]
        exact fun _ => id
      · rw [hclient]
        exact id
    · rw [hclient]
      exact h.inFlight
    · intro call hcall
      rw [hcalls] at hcall
      rcases List.mem_append.mp hcall with hbefore | hlast
      · obtain ⟨refresh, hrefresh, hsame⟩ := h.calls call hbefore
        exact hundisturbed call refresh (by rw [hclient]; exact hrefresh) hsame
      · rw [List.mem_singleton.mp hlast]
        have hrefresh := List.getElem?_eq_getElem hlt
        apply hundisturbed { signal, operation } _ (by rw [hclient]; exact hrefresh)
        exact fun hne hnow => hsafe operation _ hinFlight hrefresh hne hnow

/-! ## Answers -/

/-- A refresh moves on. -/
theorem Awaited.advance (h : Awaited P trustedKeys s) {operation : ℕ} {refresh : Refresh}
    {stage : Stage} {client : ConfigurationClient}
    (hrefresh : s.client.refreshes[operation]? = some refresh)
    (hclient : client.refreshes = s.client.refreshes)
    (hinFlight : client.refreshInFlight = s.client.refreshInFlight)
    (hsnapshot : s.client.snapshot.isSome = true → client.snapshot.isSome = true)
    (hsound : Sound P trustedKeys { s with client := client.advance operation refresh stage }
      { refresh with stage, after := client.snapshot })
    (hrisk : atRisk refresh.stage = false → atRisk stage = false) :
    Awaited P trustedKeys { s with client := client.advance operation refresh stage } := by
  have hlt := (List.getElem?_eq_some_iff.mp hrefresh).1
  have hget : ∀ other, (client.advance operation refresh stage).refreshes[other]? =
      if operation = other then some { refresh with stage, after := client.snapshot }
      else s.client.refreshes[other]? := by
    intro other
    show (client.refreshes.set operation _)[other]? = _
    rw [hclient, List.getElem?_set, if_pos hlt]
  refine ⟨?_, ?_, ?_⟩
  · intro other found hfound
    rw [hget] at hfound
    split at hfound
    · rw [← Option.some.inj hfound]
      exact hsound
    · exact (h.refreshes other found hfound).mono (fun _ => id) hsnapshot
  · intro other hother
    have hlength : (client.advance operation refresh stage).refreshes.length =
        s.client.refreshes.length := by
      show (client.refreshes.set operation _).length = _
      rw [List.length_set, hclient]
    show other < (client.advance operation refresh stage).refreshes.length
    rw [hlength]
    exact h.inFlight other (hinFlight ▸ hother)
  · intro call hcall
    obtain ⟨found, hfound, hsafe⟩ := h.calls call hcall
    by_cases heq : operation = call.operation
    · rw [← heq, hrefresh] at hfound
      rw [← Option.some.inj hfound] at hsafe
      exact ⟨_, (hget call.operation).trans (if_pos heq), fun hne hnow => hrisk (hsafe hne hnow)⟩
    · exact ⟨found, (hget call.operation).trans ((if_neg heq).trans hfound), hsafe⟩

/-- Right after a valid answer the refresh has succeeded, or reads a bundle. -/
theorem afterFetch_of_validAnswer {request : Request} {response : Response}
    {snapshot : Option SnapshotObject} (h : ValidAnswer P trustedKeys request response)
    (hsnapshot : request.ifNoneMatch.isSome = true → snapshot.isSome = true) :
    (∃ result, afterFetch snapshot response = .settled (.ok result)) ∨
      afterFetch snapshot response = .reading response ∧ ServesBundle P trustedKeys response := by
  rcases h with ⟨hstatus, htag⟩ | ⟨hstatus, hok, htype, hserves⟩
  · obtain ⟨current, hcurrent⟩ := Option.isSome_iff_exists.mp (hsnapshot htag)
    left
    refine ⟨{ status := .unchanged, snapshot := current }, ?_⟩
    unfold afterFetch
    rw [if_pos hstatus, hcurrent]
  · right
    refine ⟨?_, hserves⟩
    unfold afterFetch
    rw [if_neg hstatus, if_neg (by rw [hok]; decide), if_neg (not_not.mpr htype)]

theorem Sound.of_ok {refresh : Refresh} {result : RefreshResult}
    (hstage : refresh.stage = .settled (.ok result))
    (hconditional : refresh.request.ifNoneMatch.isSome = true → s.client.snapshot.isSome = true) :
    Sound P trustedKeys s refresh := by
  refine ⟨?_, ?_, ?_, hconditional⟩
  · intro error hother
    rw [hstage] at hother
    cases hother
  · intro response hother
    rw [hstage] at hother
    cases hother
  · intro response body hother
    rw [hstage] at hother
    cases hother

theorem Sound.of_error {refresh : Refresh} {error : RefreshError}
    (hstage : refresh.stage = .settled (.error error)) (haborted : isAborted s refresh = true)
    (hconditional : refresh.request.ifNoneMatch.isSome = true → s.client.snapshot.isSome = true) :
    Sound P trustedKeys s refresh := by
  refine ⟨fun _ _ => haborted, ?_, ?_, hconditional⟩
  · intro response hother
    rw [hstage] at hother
    cases hother
  · intro response body hother
    rw [hstage] at hother
    cases hother

theorem Awaited.fetched (h : Awaited P trustedKeys s) {operation : ℕ} {refresh : Refresh}
    {response : Response} (hrefresh : s.client.refreshes[operation]? = some refresh)
    (hanswer : ValidAnswer P trustedKeys refresh.request response)
    (hfetching : refresh.stage = .fetching) :
    Awaited P trustedKeys { s with
      client := s.client.advance operation refresh (afterFetch s.client.snapshot response) } := by
  have hconditional := (h.refreshes operation refresh hrefresh).conditional
  apply h.advance hrefresh rfl rfl id
  · rcases afterFetch_of_validAnswer hanswer hconditional with ⟨result, hok⟩ | ⟨hreading, hserves⟩
    · exact .of_ok hok hconditional
    · refine ⟨?_, ?_, ?_, hconditional⟩
      · intro error hstage
        rw [hreading] at hstage
        cases hstage
      · intro other hstage
        rw [hreading] at hstage
        rw [← Stage.reading.inj hstage]
        exact hserves
      · intro other body hstage
        rw [hreading] at hstage
        cases hstage
  · intro hrisk
    rw [hfetching] at hrisk
    cases hrisk

theorem Awaited.fetchFailed (h : Awaited P trustedKeys s) {operation : ℕ} {refresh : Refresh}
    {message : String} (hrefresh : s.client.refreshes[operation]? = some refresh)
    (haborted : isAborted s refresh = true) (hfetching : refresh.stage = .fetching) :
    Awaited P trustedKeys { s with
      client := s.client.advance operation refresh (afterFetchError message) } := by
  have hconditional := (h.refreshes operation refresh hrefresh).conditional
  apply h.advance hrefresh rfl rfl id
  · exact .of_error rfl haborted hconditional
  · intro hrisk
    rw [hfetching] at hrisk
    cases hrisk

theorem Awaited.bodyRead (h : Awaited P trustedKeys s) {operation : ℕ} {refresh : Refresh}
    {response : Response} {received : Bool}
    (hrefresh : s.client.refreshes[operation]? = some refresh)
    (haborted : received = false → isAborted s refresh = true)
    (hreading : refresh.stage = .reading response) :
    Awaited P trustedKeys { s with
      client := s.client.advance operation refresh
        (afterBody response (if received then response.body else none)) } := by
  have hsound := h.refreshes operation refresh hrefresh
  obtain ⟨body, hbody, hvalid⟩ := hsound.reading response hreading
  apply h.advance hrefresh rfl rfl id
  · cases received with
    | false => exact .of_error rfl (haborted rfl) hsound.conditional
    | true =>
      simp only [if_true, hbody]
      refine ⟨?_, ?_, ?_, hsound.conditional⟩
      · intro error hstage
        cases hstage
      · intro other hstage
        cases hstage
      · intro other body' hstage
        cases hstage
        exact hvalid
  · intro hrisk
    rw [hreading] at hrisk
    cases hrisk

theorem Awaited.verified (h : Awaited P trustedKeys s) {operation : ℕ} {refresh : Refresh}
    {response : Response} {body : Json} {now : Ecma.Number}
    (hrefresh : s.client.refreshes[operation]? = some refresh)
    (hverifying : refresh.stage = .verifying response body) :
    Awaited P trustedKeys { s with
      client := s.client.afterVerify P trustedKeys operation refresh response body now } := by
  have hsound := h.refreshes operation refresh hrefresh
  obtain ⟨value, hvalue⟩ := hsound.verifying response body hverifying now
  have hsnapshot : s.client.afterVerify P trustedKeys operation refresh response body now =
      ConfigurationClient.advance
        { s.client with snapshot := some { createdBy := operation, value } } operation refresh
        (.settled (.ok { status := .updated, snapshot := { createdBy := operation, value } })) := by
    unfold ConfigurationClient.afterVerify
    rw [hvalue]
  rw [hsnapshot]
  refine h.advance hrefresh ?_ ?_ ?_ ?_ ?_
  · rfl
  · rfl
  · exact fun _ => rfl
  · exact .of_ok rfl fun _ => rfl
  · exact fun _ => rfl

theorem Awaited.clearInFlight (h : Awaited P trustedKeys s) (operation : ℕ) :
    Awaited P trustedKeys { s with client := s.client.clearInFlight operation } := by
  unfold ConfigurationClient.clearInFlight
  split
  · refine ⟨?_, ?_, ?_⟩
    · intro other refresh hrefresh
      exact (h.refreshes other refresh hrefresh).mono (fun _ => id) id
    · intro other hother
      cases hother
    · exact h.calls
  · exact h

theorem Awaited.network (h : Awaited P trustedKeys s) {settles : Network}
    {client : ConfigurationClient} (hanswers : Answers P trustedKeys s (.network settles))
    (hstep : networkStep P trustedKeys s.client settles = some client) :
    Awaited P trustedKeys { s with client } := by
  cases settles with
  | fetched operation response =>
    simp only [networkStep] at hstep
    split at hstep
    · next hrefresh =>
      cases hstep
      exact h.fetched hrefresh (hanswers _ hrefresh).2 rfl
    · cases hstep
  | fetchFailed operation message =>
    simp only [networkStep] at hstep
    split at hstep
    · next hrefresh =>
      cases hstep
      exact h.fetchFailed hrefresh (hanswers _ hrefresh) rfl
    · cases hstep
  | bodyRead operation received =>
    simp only [networkStep] at hstep
    split at hstep
    · next hrefresh =>
      cases hstep
      exact h.bodyRead hrefresh (hanswers _ hrefresh) rfl
    · cases hstep
  | verified operation now =>
    simp only [networkStep] at hstep
    split at hstep
    · next hrefresh =>
      cases hstep
      exact h.verified hrefresh rfl
    · cases hstep
  | clearInFlight operation =>
    simp only [networkStep] at hstep
    split at hstep
    · cases hstep
      exact h.clearInFlight operation
    · cases hstep

/-! ## The loops -/

theorem calls_reportRefresh (s : State) (k : ℕ) (result : Except RefreshError RefreshResult) :
    (s.reportRefresh k result).calls = s.calls := by
  unfold State.reportRefresh
  split <;> rfl

/-- A stream loop that has called `refresh` has done so for an event. -/
theorem callsRefresh_of_stream {k : ℕ} {found : Session} {stage stage' : StreamStage}
    {input : StreamInput} (hfound : s.sessions.session k = some found)
    (hstage : found.stream = some stage)
    (hloop : streamStep s k stage input = some (stage', s')) (hcalls : s'.calls ≠ s.calls) :
    callsRefresh s (.streamStep k input) = some (some k) := by
  unfold streamStep at hloop
  split at hloop
  · split at hloop <;> cases hloop <;> exact absurd rfl hcalls
  · cases hloop
    exact absurd rfl hcalls
  · cases hloop
    exact absurd rfl hcalls
  · cases hloop
    exact absurd rfl hcalls
  · cases hloop
    exact absurd rfl hcalls
  · cases hloop
    exact absurd rfl hcalls
  · cases hloop
    exact absurd rfl hcalls
  · split at hloop
    · next hawaiting =>
      unfold callsRefresh
      simp only [hfound, Option.bind_some, hstage, hawaiting]
    · cases hloop
      exact absurd rfl hcalls
    · cases hloop
      exact absurd rfl hcalls
  · obtain ⟨result, _, heq⟩ := Option.map_eq_some_iff.mp hloop
    cases heq
    exact absurd rfl hcalls
  · cases hloop
    exact absurd (calls_reportRefresh s k _) hcalls
  · cases hloop
    exact absurd rfl hcalls
  · cases hloop
    apply absurd _ hcalls
    split <;> rfl
  · cases hloop
    exact absurd rfl hcalls
  · cases hloop
    exact absurd rfl hcalls
  · cases hloop

theorem callsRefresh_of_poll {k : ℕ} {found : Session} {stage stage' : PollStage}
    (hfound : s.sessions.session k = some found) (hstage : found.poll = some stage)
    (hloop : pollStep s k stage = some (stage', s')) (hcalls : s'.calls ≠ s.calls) :
    callsRefresh s (.pollStep k) = some (some k) := by
  unfold pollStep at hloop
  split at hloop
  · split at hloop
    · cases hloop
      exact absurd rfl hcalls
    · next hlive =>
      unfold callsRefresh
      simp only [hfound, Option.bind_some, hstage, if_neg hlive]
  · obtain ⟨result, _, heq⟩ := Option.map_eq_some_iff.mp hloop
    cases heq
    exact absurd rfl hcalls
  · cases hloop
    exact absurd (calls_reportRefresh s k _) hcalls
  · cases hloop
    exact absurd rfl hcalls
  · cases hloop

theorem Awaited.loop (h : Awaited P trustedKeys s) {k : ℕ} (heffect : LoopEffect k s s')
    (hsafe : s'.calls ≠ s.calls → JoinsSafely s (some k)) : Awaited P trustedKeys s' := by
  have haborted : s'.sessions.aborted = s.sessions.aborted := by
    rw [heffect.sessions]
  rcases heffect.calls with ⟨hclient, hcalls⟩ | ⟨_, hclient, hcalls⟩
  · exact h.congr hclient hcalls haborted
  · refine h.called (hsafe ?_) hclient hcalls haborted
    rw [hcalls]
    simp

/-- What the client and its callers are is kept by every step that cuts off no shared refresh. -/
theorem Awaited.step (h : Awaited P trustedKeys s) (hstarted : Started s) {a : Action} (hanswers : Answers P trustedKeys s a)
    (hunshared : Unshared s a) (hstep : step P trustedKeys s a = some s') :
    Awaited P trustedKeys s' := by
  cases a with
  | create =>
    cases hstep
    exact h.congr rfl rfl rfl
  | abort controller =>
    simp only [Lifecycle.step] at hstep
    split at hstep
    · cases hstep
      exact h.abort (hunshared.2 controller rfl) rfl rfl fun k => Sessions.aborted_abort k
    · cases hstep
  | refresh signal =>
    simp only [Lifecycle.step] at hstep
    split at hstep
    · cases hstep
      exact h.called (hunshared.1 signal rfl) rfl rfl rfl
    · cases hstep
  | start =>
    cases hstep
    unfold State.start
    split
    · exact h
    · next hnone =>
      refine h.called (hunshared.1 (some s.sessions.controllers) ?_) rfl rfl rfl
      exact if_pos hnone
  | startStep controller =>
    simp only [Lifecycle.step] at hstep
    split at hstep
    · next session hfound =>
      unfold startStep at hstep
      split at hstep
      · obtain ⟨result, _, rfl⟩ := Option.map_eq_some_iff.mp hstep
        exact h.congr rfl rfl rfl
      · next result hobserved =>
        cases hstep
        -- a `start` that fails aborts what has been aborted before
        refine h.congr rfl rfl ?_
        cases result with
        | error error =>
          funext k
          show (s.sessions.startFailed controller).aborted k = _
          rw [Sessions.aborted_startFailed]
          split
          · next heq =>
            rw [heq]
            exact (hstarted.failed controller session error hfound (.inl hobserved)).symm
          · rfl
        | ok result =>
          unfold Sessions.afterStart
          dsimp only
          split <;> rfl
      · cases hstep
    · cases hstep
  | stop =>
    cases hstep
    show Awaited P trustedKeys { s with sessions := s.sessions.stop }
    rcases hcurrent : s.sessions.fields.controller with _ | controller
    · have hsame : s.sessions.stop = s.sessions := by
        unfold Sessions.stop
        rw [hcurrent]
      rw [hsame]
      exact h
    · refine h.abort (hunshared.2 controller hcurrent) rfl rfl fun k => ?_
      unfold Sessions.stop
      rw [hcurrent]
      exact Sessions.aborted_abort k
  | stopStep index =>
    simp only [Lifecycle.step] at hstep
    split at hstep
    · next call _ =>
      split at hstep
      · cases hstep
        refine h.congr rfl rfl ?_
        show (s.sessions.clear call.session).aborted = _
        unfold Sessions.clear
        split <;> rfl
      · cases hstep
    · cases hstep
  | streamStep k input =>
    simp only [Lifecycle.step] at hstep
    split at hstep
    · next hfound =>
      obtain ⟨⟨_, t⟩, hloop, rfl⟩ := Option.map_eq_some_iff.mp hstep
      have hnext := h.loop (streamStep_spec hloop).2 fun hcalls =>
        hunshared.1 (some k) (callsRefresh_of_stream hfound rfl hloop hcalls)
      exact hnext.congr rfl rfl rfl
    · cases hstep
  | pollStep k =>
    simp only [Lifecycle.step] at hstep
    split at hstep
    · next hfound =>
      obtain ⟨⟨_, t⟩, hloop, rfl⟩ := Option.map_eq_some_iff.mp hstep
      have hnext := h.loop (pollStep_spec hloop).2 fun hcalls =>
        hunshared.1 (some k) (callsRefresh_of_poll hfound rfl hloop hcalls)
      exact hnext.congr rfl rfl rfl
    · cases hstep
  | network settles =>
    obtain ⟨client, hnetwork, rfl⟩ := Option.map_eq_some_iff.mp hstep
    exact h.network hanswers hnetwork

/-! ## The sessions -/

/-- A step that starts no session and aborts none. -/
theorem Started.congr (h : Started s)
    (hsession : ∀ k session, s'.sessions.session k = some session →
      ∃ found, s.sessions.session k = some found ∧ found.start = session.start)
    (haborted : s'.sessions.aborted = s.sessions.aborted)
    (hstops : ∀ call ∈ s.sessions.stops, ∃ later ∈ s'.sessions.stops, later.session = call.session)
    (hcalls : ∀ call ∈ s.calls, call ∈ s'.calls) : Started s' := by
  refine ⟨?_, ?_, ?_⟩
  · intro k session hfound hnow
    obtain ⟨found, hbefore, _⟩ := hsession k session hfound
    rw [haborted] at hnow
    obtain ⟨call, hcall, hsame⟩ := h.stopped k found hbefore hnow
    obtain ⟨later, hlater, heq⟩ := hstops call hcall
    exact ⟨later, hlater, heq.trans hsame⟩
  · intro k session operation hfound hstart
    obtain ⟨found, hbefore, hsame⟩ := hsession k session hfound
    exact hcalls _ (h.refreshing k found operation hbefore (hsame.trans hstart))
  · intro k session error hfound hstart
    obtain ⟨found, hbefore, hsame⟩ := hsession k session hfound
    rw [haborted]
    rw [← hsame] at hstart
    exact h.failed k found error hbefore hstart

/-- The `start` of a session moves on. -/
theorem Started.setSession (h : Started s) {k : ℕ} {found next : Session}
    (hfound : s.sessions.session k = some found)
    (hrefreshing : ∀ operation, next.start ≠ .refreshing operation)
    (hfailed : ∀ error, next.start = .observed (.error error) ∨ next.start = .rejected error →
      s.sessions.aborted k = true) :
    Started { s with sessions := s.sessions.setSession k next } := by
  refine ⟨?_, ?_, ?_⟩
  · intro j session hsession hnow
    have hsession : (s.sessions.setSession k next).session j = some session := hsession
    rw [Sessions.session_setSession] at hsession
    split at hsession
    · next heq =>
      rw [heq] at hnow ⊢
      exact h.stopped k found hfound hnow
    · exact h.stopped j session hsession hnow
  · intro j session operation hsession hstart
    have hsession : (s.sessions.setSession k next).session j = some session := hsession
    rw [Sessions.session_setSession] at hsession
    split at hsession
    · cases hsession
      exact absurd hstart (hrefreshing operation)
    · exact h.refreshing j session operation hsession hstart
  · intro j session error hsession hstart
    have hsession : (s.sessions.setSession k next).session j = some session := hsession
    rw [Sessions.session_setSession] at hsession
    split at hsession
    · next heq =>
      cases hsession
      rw [heq]
      exact hfailed error hstart
    · exact h.failed j session error hsession hstart

/-- A loop of a session moves on. -/
theorem Started.loop (h : Started s) {k : ℕ} {found : Session} (next : Session) {t : State}
    (hfound : s.sessions.session k = some found) (heffect : LoopEffect k s t)
    (hstart : next.start = found.start) :
    Started { t with sessions := t.sessions.setSession k next } := by
  apply h.congr
  · intro j session hsession
    have hsession : (t.sessions.setSession k next).session j = some session := hsession
    rw [Sessions.session_setSession] at hsession
    split at hsession
    · next heq =>
      cases hsession
      rw [heq]
      exact ⟨found, hfound, hstart.symm⟩
    · rw [heffect.sessions] at hsession
      exact ⟨session, hsession, rfl⟩
  · show t.sessions.aborted = _
    rw [heffect.sessions]
  · intro call hcall
    refine ⟨call, ?_, rfl⟩
    show call ∈ t.sessions.stops
    rw [heffect.sessions]
    exact hcall
  · intro call hcall
    show call ∈ t.calls
    rcases heffect.calls with ⟨_, hcalls⟩ | ⟨_, _, hcalls⟩
    · rw [hcalls]
      exact hcall
    · rw [hcalls]
      exact List.mem_append_left _ hcall

theorem Started.startFailed (h : Started s) {k : ℕ} (haborted : s.sessions.aborted k = true) :
    Started { s with sessions := s.sessions.startFailed k } := by
  apply h.congr
  · intro j session hsession
    have hsession : (s.sessions.startFailed k).session j = some session := hsession
    rw [Sessions.session_startFailed] at hsession
    exact ⟨session, hsession, rfl⟩
  · funext j
    show (s.sessions.startFailed k).aborted j = _
    rw [Sessions.aborted_startFailed]
    split
    · next heq => rw [heq, haborted]
    · rfl
  · intro call hcall
    refine ⟨call, ?_, rfl⟩
    show call ∈ (s.sessions.startFailed k).stops
    rw [stops_startFailed]
    exact hcall
  · exact fun _ => id

theorem Started.afterStart (h : Started s) {k : ℕ} {session : Session}
    {result : Except RefreshError RefreshResult} (hfound : s.sessions.session k = some session)
    (hobserved : session.start = .observed result) :
    Started { s with sessions := s.sessions.afterStart k session result } := by
  unfold Sessions.afterStart
  cases result with
  | error error =>
    have haborted := h.failed k session error hfound (.inl hobserved)
    have hsession : (s.sessions.startFailed k).session k = some session := by
      rw [Sessions.session_startFailed]
      exact hfound
    refine (h.startFailed haborted).setSession hsession ?_ ?_
    · intro operation hstart
      cases hstart
    · intro _ _
      show (s.sessions.startFailed k).aborted k = true
      rw [Sessions.aborted_startFailed, if_pos rfl]
  | ok result =>
    have hresolved : ∀ error : RefreshError,
        StartStage.resolved result = .observed (.error error) ∨
          StartStage.resolved result = .rejected error → s.sessions.aborted k = true := by
      intro error herror
      rcases herror with herror | herror <;> cases herror
    dsimp only
    split
    · refine h.setSession hfound ?_ hresolved
      intro operation hstart
      cases hstart
    · have hfields : Started { s with sessions := { s.sessions with
          fields := { s.sessions.fields with streamTask := some k, pollTask := some k } } } :=
        ⟨h.stopped, h.refreshing, h.failed⟩
      refine hfields.setSession hfound ?_ hresolved
      intro operation hstart
      cases hstart

/-- A session begins. -/
theorem Started.start (h : Started s) (hconsistent : s.sessions.Consistent) :
    Started s.start.2 := by
  unfold State.start
  split
  · exact h
  · have hfresh := hconsistent.fresh s.sessions.controllers (le_refl _)
    refine ⟨?_, ?_, ?_⟩
    · intro k session hsession hnow
      have hsession : (if k = s.sessions.controllers then _ else s.sessions.session k) =
        some session := (Sessions.session_setSession k).symm.trans hsession
      split at hsession
      · next heq =>
        have hlive : s.sessions.aborted k = true := hnow
        rw [heq, hfresh.2] at hlive
        cases hlive
      · exact h.stopped k session hsession hnow
    · intro k session operation hsession hstart
      have hsession : (if k = s.sessions.controllers then _ else s.sessions.session k) =
        some session := (Sessions.session_setSession k).symm.trans hsession
      split at hsession
      · next heq =>
        cases hsession
        cases hstart
        rw [heq]
        exact List.mem_append_right _ (List.mem_singleton.mpr rfl)
      · exact List.mem_append_left _ (h.refreshing k session operation hsession hstart)
    · intro k session error hsession hstart
      have hsession : (if k = s.sessions.controllers then _ else s.sessions.session k) =
        some session := (Sessions.session_setSession k).symm.trans hsession
      split at hsession
      · cases hsession
        rcases hstart with hstart | hstart <;> cases hstart
      · exact h.failed k session error hsession hstart

theorem Started.stop (h : Started s) : Started { s with sessions := s.sessions.stop } := by
  unfold Sessions.stop
  split
  · exact h
  · next controller hcurrent =>
    refine ⟨?_, h.refreshing, ?_⟩
    · intro k session hsession hnow
      have hnow : (s.sessions.abort controller).aborted k = true := hnow
      rw [Sessions.aborted_abort] at hnow
      split at hnow
      · next heq =>
        exact ⟨_, List.mem_append_right _ (List.mem_singleton.mpr rfl), heq.symm⟩
      · obtain ⟨call, hcall, hsame⟩ := h.stopped k session hsession hnow
        exact ⟨call, List.mem_append_left _ hcall, hsame⟩
    · intro k session error hsession hstart
      exact Sessions.aborted_abort_of_aborted (h.failed k session error hsession hstart)

theorem Started.afterStop (h : Started s) {index : ℕ} {call : StopCall}
    (hcall : s.sessions.stops[index]? = some call) :
    Started { s with sessions := s.sessions.afterStop index call } := by
  apply h.congr
  · intro k session hsession
    refine ⟨session, ?_, rfl⟩
    have hsession : (s.sessions.clear call.session).session k = some session := hsession
    unfold Sessions.clear at hsession
    split at hsession <;> exact hsession
  · show (s.sessions.clear call.session).aborted = _
    unfold Sessions.clear
    split <;> rfl
  · intro other hother
    obtain ⟨position, hposition, hget⟩ := List.mem_iff_getElem.mp hother
    have hafter : position < (s.sessions.stops.set index { call with resolved := true }).length := by
      rw [List.length_set]
      exact hposition
    refine ⟨_, List.getElem_mem hafter, ?_⟩
    rw [List.getElem_set]
    split
    · next heq =>
      rw [heq, List.getElem?_eq_getElem hposition, hget] at hcall
      rw [Option.some.inj hcall]
    · rw [hget]
  · exact fun _ => id

theorem Started.step (h : Started s) (hconsistent : s.sessions.Consistent)
    (hawaited : Awaited P trustedKeys s) {a : Action}
    (hstep : Lifecycle.step P trustedKeys s a = some s') : Started s' := by
  cases a with
  | create =>
    cases hstep
    exact ⟨h.stopped, h.refreshing, h.failed⟩
  | abort controller =>
    simp only [Lifecycle.step] at hstep
    split at hstep
    · next hforeign =>
      cases hstep
      unfold Sessions.isForeign at hforeign
      rw [Bool.and_eq_true, Option.isNone_iff_eq_none] at hforeign
      -- a foreign controller is the signal of no session
      refine ⟨?_, h.refreshing, ?_⟩
      · intro k session hsession hnow
        have hnow : (s.sessions.abort controller).aborted k = true := hnow
        have hne : k ≠ controller := by
          intro heq
          have hsession : s.sessions.session k = some session := hsession
          rw [heq, hforeign.2] at hsession
          cases hsession
        rw [Sessions.aborted_abort, if_neg hne] at hnow
        exact h.stopped k session hsession hnow
      · intro k session error hsession hstart
        exact Sessions.aborted_abort_of_aborted (h.failed k session error hsession hstart)
    · cases hstep
  | refresh signal =>
    simp only [Lifecycle.step] at hstep
    split at hstep
    · cases hstep
      refine ⟨h.stopped, ?_, h.failed⟩
      intro k session operation hsession hstart
      exact List.mem_append_left _ (h.refreshing k session operation hsession hstart)
    · cases hstep
  | start =>
    cases hstep
    exact h.start hconsistent
  | startStep controller =>
    simp only [Lifecycle.step] at hstep
    split at hstep
    · next session hfound =>
      unfold startStep at hstep
      split at hstep
      · next operation hstart =>
        obtain ⟨result, hsettled, rfl⟩ := Option.map_eq_some_iff.mp hstep
        refine h.setSession hfound ?_ ?_
        · intro other hother
          cases hother
        · intro error herror
          -- the refresh of this `start` has failed, so by its own signal
          have hresult : result = .error error := by
            rcases herror with herror | herror
            · exact StartStage.observed.inj herror
            · cases herror
          rw [hresult] at hsettled
          exact hawaited.own (h.refreshing controller session operation hfound hstart) hsettled
      · next result hobserved =>
        cases hstep
        exact h.afterStart hfound hobserved
      · cases hstep
    · cases hstep
  | stop =>
    cases hstep
    exact h.stop
  | stopStep index =>
    simp only [Lifecycle.step] at hstep
    split at hstep
    · next call hcall =>
      split at hstep
      · cases hstep
        exact h.afterStop hcall
      · cases hstep
    · cases hstep
  | streamStep k input =>
    simp only [Lifecycle.step] at hstep
    split at hstep
    · next hfound =>
      obtain ⟨⟨_, t⟩, hloop, rfl⟩ := Option.map_eq_some_iff.mp hstep
      exact h.loop _ hfound (streamStep_spec hloop).2 rfl
    · cases hstep
  | pollStep k =>
    simp only [Lifecycle.step] at hstep
    split at hstep
    · next hfound =>
      obtain ⟨⟨_, t⟩, hloop, rfl⟩ := Option.map_eq_some_iff.mp hstep
      exact h.loop _ hfound (pollStep_spec hloop).2 rfl
    · cases hstep
  | network settles =>
    obtain ⟨client, hnetwork, rfl⟩ := Option.map_eq_some_iff.mp hstep
    exact ⟨h.stopped, h.refreshing, h.failed⟩

/-! ## Progress -/

/-- How many awaits a refresh has before it. -/
def remaining : Stage → ℕ
  | .fetching => 3
  | .reading _ => 2
  | .verifying _ _ => 1
  | .settled _ => 0

/-- How many awaits the refresh with this promise has before it. -/
def remainingOf (s : State) (operation : ℕ) : ℕ :=
  (s.client.refreshes[operation]?).elim 0 fun refresh => remaining refresh.stage

theorem remainingOf_advance {operation : ℕ} {refresh : Refresh} {client : ConfigurationClient}
    {stage : Stage} (hrefresh : s.client.refreshes[operation]? = some refresh)
    (hclient : client.refreshes = s.client.refreshes) (other : ℕ) :
    remainingOf { s with client := client.advance operation refresh stage } other =
      if operation = other then remaining stage else remainingOf s other := by
  have hlt := (List.getElem?_eq_some_iff.mp hrefresh).1
  unfold remainingOf
  show ((client.refreshes.set operation _)[other]?).elim 0 _ = _
  rw [hclient, List.getElem?_set, if_pos hlt]
  split <;> rfl

theorem remaining_afterFetch (snapshot : Option SnapshotObject) (response : Response) :
    remaining (afterFetch snapshot response) ≤ 2 := by
  unfold afterFetch failed
  split
  · split <;> exact Nat.zero_le _
  · split
    · exact Nat.zero_le _
    · split
      · exact Nat.zero_le _
      · exact le_refl 2

theorem remaining_afterBody (response : Response) (body : Option Json) :
    remaining (afterBody response body) ≤ 1 := by
  cases body with
  | none => exact Nat.zero_le _
  | some body => exact le_refl 1

/-- The verification is the last await. -/
theorem remainingOf_afterVerify {operation : ℕ} {refresh : Refresh} {response : Response}
    {body : Json} {now : Ecma.Number}
    (hrefresh : s.client.refreshes[operation]? = some refresh) (other : ℕ) :
    remainingOf { s with
        client := s.client.afterVerify P trustedKeys operation refresh response body now } other =
      if operation = other then 0 else remainingOf s other := by
  unfold ConfigurationClient.afterVerify
  split
  · exact remainingOf_advance hrefresh rfl other
  · refine remainingOf_advance hrefresh ?_ other
    rfl

/-- A settled await brings its refresh on. -/
theorem remainingOf_network {settles : Network} {client : ConfigurationClient}
    (hstep : networkStep P trustedKeys s.client settles = some client) (other : ℕ) :
    remainingOf { s with client } other ≤ remainingOf s other := by
  have hadvance : ∀ {operation : ℕ} {refresh : Refresh} {stage : Stage},
      s.client.refreshes[operation]? = some refresh → remaining stage ≤ remaining refresh.stage →
        remainingOf { s with client := s.client.advance operation refresh stage } other ≤
          remainingOf s other := by
    intro operation refresh stage hrefresh hle
    rw [remainingOf_advance hrefresh rfl]
    split
    · next heq =>
      rw [← heq]
      unfold remainingOf
      rw [hrefresh]
      exact hle
    · exact le_refl _
  cases settles with
  | fetched operation response =>
    simp only [networkStep] at hstep
    split at hstep
    · next hrefresh =>
      cases hstep
      exact hadvance hrefresh ((remaining_afterFetch _ _).trans (Nat.le_succ 2))
    · cases hstep
  | fetchFailed operation message =>
    simp only [networkStep] at hstep
    split at hstep
    · next hrefresh =>
      cases hstep
      exact hadvance hrefresh (Nat.zero_le _)
    · cases hstep
  | bodyRead operation received =>
    simp only [networkStep] at hstep
    split at hstep
    · next hrefresh =>
      cases hstep
      exact hadvance hrefresh ((remaining_afterBody _ _).trans (by simp [remaining]))
    · cases hstep
  | verified operation now =>
    simp only [networkStep] at hstep
    split at hstep
    · next hrefresh =>
      cases hstep
      rw [remainingOf_afterVerify hrefresh]
      split
      · exact Nat.zero_le _
      · exact le_refl _
    · cases hstep
  | clearInFlight operation =>
    simp only [networkStep] at hstep
    split at hstep
    · cases hstep
      unfold ConfigurationClient.clearInFlight
      split <;> exact le_refl _
    · cases hstep

/-- A call of `refresh` sets no other refresh back. -/
theorem remainingOf_called {signal : Option ℕ} {operation : ℕ}
    (hlt : operation < s.client.refreshes.length)
    (hclient : s'.client = (s.client.refresh signal).2) :
    remainingOf s' operation = remainingOf s operation := by
  unfold remainingOf
  rw [hclient]
  unfold ConfigurationClient.refresh
  split
  · rfl
  · rw [List.getElem?_append_left hlt]

/-- No step sets a refresh back. -/
theorem remainingOf_step {a : Action} {operation : ℕ}
    (hlt : operation < s.client.refreshes.length)
    (hstep : Lifecycle.step P trustedKeys s a = some s') :
    remainingOf s' operation ≤ remainingOf s operation := by
  have hloop : ∀ {k : ℕ} {t : State}, LoopEffect k s t →
      remainingOf t operation = remainingOf s operation := by
    intro k t heffect
    rcases heffect.calls with ⟨hclient, _⟩ | ⟨_, hclient, _⟩
    · unfold remainingOf
      rw [hclient]
    · exact remainingOf_called hlt hclient
  cases a with
  | create =>
    cases hstep
    exact le_refl _
  | abort controller =>
    simp only [Lifecycle.step] at hstep
    split at hstep <;> cases hstep
    exact le_refl _
  | refresh signal =>
    simp only [Lifecycle.step] at hstep
    split at hstep <;> cases hstep
    exact (remainingOf_called hlt rfl).le
  | start =>
    cases hstep
    unfold State.start
    split
    · exact le_refl _
    · exact (remainingOf_called hlt rfl).le
  | startStep controller =>
    simp only [Lifecycle.step] at hstep
    split at hstep
    · unfold startStep at hstep
      split at hstep
      · obtain ⟨_, _, rfl⟩ := Option.map_eq_some_iff.mp hstep
        exact le_refl _
      · cases hstep
        exact le_refl _
      · cases hstep
    · cases hstep
  | stop =>
    cases hstep
    exact le_refl _
  | stopStep index =>
    simp only [Lifecycle.step] at hstep
    split at hstep
    · split at hstep <;> cases hstep
      exact le_refl _
    · cases hstep
  | streamStep k input =>
    simp only [Lifecycle.step] at hstep
    split at hstep
    · obtain ⟨⟨_, t⟩, hstream, rfl⟩ := Option.map_eq_some_iff.mp hstep
      exact (hloop (streamStep_spec hstream).2).le
    · cases hstep
  | pollStep k =>
    simp only [Lifecycle.step] at hstep
    split at hstep
    · obtain ⟨⟨_, t⟩, hpoll, rfl⟩ := Option.map_eq_some_iff.mp hstep
      exact (hloop (pollStep_spec hpoll).2).le
    · cases hstep
  | network settles =>
    obtain ⟨client, hnetwork, rfl⟩ := Option.map_eq_some_iff.mp hstep
    exact remainingOf_network hnetwork operation

/-- An answer with a signed bundle, to any request. -/
def Serves (P : Platform) (trustedKeys : TrustedKeyring) (response : Response) : Prop :=
  response.status ≠ 304 ∧ response.ok = true ∧
    response.contentType.map mediaType = some "application/json" ∧
    ServesBundle P trustedKeys response

/-- A refresh that has not settled has a next await, and the network settles it. -/
theorem exists_network_of_pending {response : Response}
    (hserves : Serves P trustedKeys response) {operation : ℕ} {refresh : Refresh}
    (hrefresh : s.client.refreshes[operation]? = some refresh)
    (hpending : s.settled operation = none) :
    ∃ settles s', Answers P trustedKeys s (.network settles) ∧
      Lifecycle.step P trustedKeys s (.network settles) = some s' ∧
      remainingOf s' operation < remainingOf s operation := by
  have hbefore : remainingOf s operation = remaining refresh.stage := by
    unfold remainingOf
    rw [hrefresh]
    rfl
  have hafter : ∀ stage, remainingOf
      { s with client := s.client.advance operation refresh stage } operation =
        remaining stage := by
    intro stage
    rw [remainingOf_advance hrefresh rfl, if_pos rfl]
  have hsame : ∀ {other : Refresh}, s.client.refreshes[operation]? = some other →
      other = refresh := by
    intro other hother
    rw [hrefresh] at hother
    exact (Option.some.inj hother).symm
  obtain ⟨request, stage, before, after⟩ := refresh
  -- the network settles what the refresh awaits
  have hbrings : ∀ settles client, Answers P trustedKeys s (.network settles) →
      networkStep P trustedKeys s.client settles = some client →
        remainingOf { s with client } operation < remainingOf s operation →
          ∃ settles s', Answers P trustedKeys s (.network settles) ∧
            Lifecycle.step P trustedKeys s (.network settles) = some s' ∧
            remainingOf s' operation < remainingOf s operation := by
    intro settles client hanswers hnetwork hless
    refine ⟨settles, { s with client }, hanswers, ?_, hless⟩
    simp only [Lifecycle.step, hnetwork, Option.map_some]
  cases stage with
  | fetching =>
    by_cases haborted : isAborted s ⟨request, .fetching, before, after⟩ = true
    · apply hbrings (.fetchFailed operation "This operation was aborted")
        (s.client.advance operation ⟨request, .fetching, before, after⟩
          (afterFetchError "This operation was aborted"))
      · intro other hother
        rw [hsame hother]
        exact haborted
      · simp only [networkStep, hrefresh]
      · rw [hafter, hbefore]
        exact Nat.zero_lt_succ _
    · apply hbrings (.fetched operation response)
        (s.client.advance operation ⟨request, .fetching, before, after⟩
          (afterFetch s.client.snapshot response))
      · intro other hother
        rw [hsame hother]
        exact ⟨Bool.not_eq_true _ ▸ haborted, .inr hserves⟩
      · simp only [networkStep, hrefresh]
      · rw [hafter, hbefore]
        exact Nat.lt_succ_of_le (remaining_afterFetch _ _)
  | reading response =>
    apply hbrings (.bodyRead operation true)
      (s.client.advance operation ⟨request, .reading response, before, after⟩
        (afterBody response response.body))
    · intro other hother hreceived
      cases hreceived
    · simp only [networkStep, hrefresh, if_true]
    · rw [hafter, hbefore]
      exact Nat.lt_succ_of_le (remaining_afterBody _ _)
  | verifying response body =>
    apply hbrings (.verified operation 0)
      (s.client.afterVerify P trustedKeys operation ⟨request, .verifying response body, before, after⟩
        response body 0)
    · trivial
    · simp only [networkStep, hrefresh]
    · rw [remainingOf_afterVerify hrefresh, if_pos rfl, hbefore]
      exact Nat.zero_lt_one
  | settled result =>
    rw [settled_eq_some_iff.mpr ⟨_, hrefresh, rfl⟩] at hpending
    cases hpending

end Steps

/-! ## Cancellation is private -/

/-- A caller fails only by its own signal, and a `start` only by a `stop` of its session. -/
structure Private (P : Platform) (trustedKeys : TrustedKeyring) (s : State) : Prop where
  resolves : ∀ call ∈ s.calls, call.signal.any s.sessions.aborted = false →
    ∀ result, s.settled call.operation = some result → ∃ refreshed, result = .ok refreshed
  /-- A `start` has called `refresh` with the signal of its session, and goes on with that. -/
  starts : ∀ k session operation, s.sessions.session k = some session →
    session.start = .refreshing operation → { signal := some k, operation } ∈ s.calls
  startResolves : ∀ k session error, s.sessions.session k = some session →
    session.start = .observed (.error error) ∨ session.start = .rejected error →
      ∃ call ∈ s.sessions.stops, call.session = k
  /-- What a caller waits for is not stuck. -/
  progress : ∀ call ∈ s.calls, s.settled call.operation = none →
    ∃ settles s', Answers P trustedKeys s (.network settles) ∧
      Lifecycle.step P trustedKeys s (.network settles) = some s' ∧
      remainingOf s' call.operation < remainingOf s call.operation
  /-- And no step sets it back. -/
  advances : ∀ call ∈ s.calls, ∀ a s', Lifecycle.step P trustedKeys s a = some s' →
    remainingOf s' call.operation ≤ remainingOf s call.operation

theorem cancellation_is_private (P : Platform) (trustedKeys : TrustedKeyring)
    (response : Response) (hserves : Serves P trustedKeys response) (s : State)
    (h : (Lifecycle.machine P trustedKeys).ReachableBy
      (fun s a => Answers P trustedKeys s a ∧ Unshared s a) s) :
    Private P trustedKeys s := by
  have hinvariant : s.sessions.Consistent ∧ Awaited P trustedKeys s ∧ Started s := by
    refine h.invariant (I := fun s =>
      s.sessions.Consistent ∧ Awaited P trustedKeys s ∧ Started s) ?_ ?_
    · rintro _ rfl
      refine ⟨consistent_initial, ⟨?_, ?_, ?_⟩, ?_, ?_, ?_⟩
      all_goals simp [initial, ConfigurationClient.new]
    · rintro s a s' ⟨hconsistent, hawaited, hstarted⟩ ⟨hanswers, hunshared⟩ hstep
      exact ⟨consistent_step hconsistent hstep, hawaited.step hstarted hanswers hunshared hstep,
        hstarted.step hconsistent hawaited hstep⟩
  obtain ⟨_, hawaited, hstarted⟩ := hinvariant
  refine ⟨?_, hstarted.refreshing, ?_, ?_, ?_⟩
  · intro call hcall hlive result hsettled
    cases result with
    | ok refreshed => exact ⟨refreshed, rfl⟩
    | error error =>
      rw [hawaited.own hcall hsettled] at hlive
      cases hlive
  · intro k session error hsession hstart
    exact hstarted.stopped k session hsession (hstarted.failed k session error hsession hstart)
  · intro call hcall hpending
    obtain ⟨refresh, hrefresh, _⟩ := hawaited.calls call hcall
    exact exists_network_of_pending hserves hrefresh hpending
  · intro call hcall a s' hstep
    obtain ⟨refresh, hrefresh, _⟩ := hawaited.calls call hcall
    exact remainingOf_step (List.getElem?_eq_some_iff.mp hrefresh).1 hstep

/-! ## A session that fails by the signal of the one before it -/

namespace Orders

open Delivery.Orders

/-- The response with the signed bundle. -/
def served : Response where
  status := 200
  contentType := some "application/json; charset=utf-8"
  etag := some ("\"" ++ bundle.version ++ "\"")
  body := some envelope.toJson

theorem serves : Serves edgePlatform keyring served := by
  refine ⟨by decide, by decide, by decide +kernel, envelope.toJson, rfl, fun now => ?_⟩
  refine ⟨{ bundle := received.bundle, etag := "\"" ++ received.bundle.version ++ "\"",
            loadedAt := now }, ?_⟩
  exact verifySnapshot_ok_iff.mpr ⟨received, verify_envelope, rfl, rfl⟩

theorem afterFetch_served : afterFetch none served = .reading served := by
  have htype : served.contentType.map mediaType = some "application/json" := by
    decide +kernel
  unfold afterFetch
  rw [if_neg (by decide), if_neg (by decide), if_neg (by rw [htype]; simp)]

def object : SnapshotObject where
  createdBy := 0
  value :=
    { bundle := received.bundle
      etag := "\"" ++ received.bundle.version ++ "\""
      loadedAt := 0 }

/-- What the first refresh resolves to. -/
def updated : RefreshResult := { status := .updated, snapshot := object }

/-- Another caller, without a signal, has joined the first refresh of a session. -/
def joined (sessions : Sessions → Sessions) (held : Option SnapshotObject) (stage : Stage) :
    State :=
  let s := (initial.start.2.refresh none).2
  { s with
    client :=
      { snapshot := held
        refreshInFlight := some 0
        refreshes := [{
          request := { ifNoneMatch := none, signal := some 0 }
          stage
          before := none
          after := held }] }
    sessions := sessions s.sessions }

theorem step_fetched : step edgePlatform keyring (joined id none .fetching)
    (.network (.fetched 0 served)) = some (joined id none (.reading served)) := by
  have hstep : step edgePlatform keyring (joined id none .fetching)
      (.network (.fetched 0 served)) = some { joined id none .fetching with
        client := (joined id none .fetching).client.advance 0
          { request := { ifNoneMatch := none, signal := some 0 }
            stage := .fetching, before := none, after := none } (afterFetch none served) } := rfl
  rw [hstep, afterFetch_served]
  rfl

theorem step_verified : step edgePlatform keyring
    (joined Sessions.stop none (.verifying served envelope.toJson)) (.network (.verified 0 0)) =
      some (joined Sessions.stop (some object) (.settled (.ok updated))) := by
  have hverified : verifySnapshot edgePlatform keyring served envelope.toJson 0 =
      .ok object.value :=
    verifySnapshot_ok_iff.mpr ⟨received, verify_envelope, rfl, rfl⟩
  have hstep : step edgePlatform keyring
      (joined Sessions.stop none (.verifying served envelope.toJson)) (.network (.verified 0 0)) =
        some { joined Sessions.stop none (.verifying served envelope.toJson) with
          client := (joined Sessions.stop none
            (.verifying served envelope.toJson)).client.afterVerify edgePlatform keyring 0
              { request := { ifNoneMatch := none, signal := some 0 }
                stage := .verifying served envelope.toJson, before := none, after := none }
              served envelope.toJson 0 } := rfl
  rw [hstep, ConfigurationClient.afterVerify, hverified]
  rfl

/-- A session is stopped during its first refresh, and the next one begins before that refresh has
failed. -/
def restarting : List Action := [.start, .stop, .stopStep 0, .start]

/-- Then the fetch of the first session fails. -/
def failing : List Action :=
  restarting ++ [.network (.fetchFailed 0 "This operation was aborted")]

/-- The state after a list of actions that can happen. -/
def after (as : List Action) : State :=
  ((Lifecycle.machine edgePlatform keyring).run initial as).getD initial

theorem reachable_failing :
    (Lifecycle.machine edgePlatform keyring).ReachableBy (Answers edgePlatform keyring)
      (after failing) := by
  have hrestarting : (Lifecycle.machine edgePlatform keyring).ReachableBy
      (Answers edgePlatform keyring) (after restarting) := by
    refine .of_run restarting ?_ (.init rfl) rfl
    intro a ha _
    simp only [restarting, List.mem_cons, List.not_mem_nil, or_false] at ha
    rcases ha with rfl | rfl | rfl | rfl <;> trivial
  refine .step (a := .network (.fetchFailed 0 "This operation was aborted")) hrestarting ?_ rfl
  intro refresh hrefresh
  cases hrefresh
  rfl

end Orders

/-- A session is stopped when the body of its first refresh has been read; the caller that has
joined the refresh gets the bundle. -/
theorem cancellation_is_private_joining :
    ∃ s, (Lifecycle.machine Orders.edgePlatform Orders.keyring).Reachable s ∧
      { signal := none, operation := 0 } ∈ s.calls ∧ s.sessions.aborted 0 = true ∧
      s.settled 0 = some (.ok Orders.updated) ∧ Private Orders.edgePlatform Orders.keyring s := by
  let M := Lifecycle.machine Orders.edgePlatform Orders.keyring
  let ok := fun s a => Answers Orders.edgePlatform Orders.keyring s a ∧ Unshared s a
  have hbegun : M.ReachableBy ok initial.start.2 := by
    refine .step (a := .start) (.init rfl) ⟨trivial, ?_, ?_⟩ rfl
    · intro signal _ operation refresh hinFlight
      cases hinFlight
    · intro controller haborts
      cases haborts
  have hjoined : M.ReachableBy ok
      (Orders.joined id none .fetching) := by
    refine .step (a := .refresh none) hbegun ⟨trivial, ?_, ?_⟩ rfl
    · intro signal _ operation refresh hinFlight hrefresh _ haborted
      cases hinFlight
      cases hrefresh
      cases haborted
    · intro controller haborts
      cases haborts
  have hfetched : M.ReachableBy ok
      (Orders.joined id none (.reading Orders.served)) := by
    refine .step (a := .network (.fetched 0 Orders.served)) hjoined ⟨?_, ?_, ?_⟩
      Orders.step_fetched
    · intro refresh hrefresh
      cases hrefresh
      exact ⟨rfl, .inr Orders.serves⟩
    · intro signal hcalls
      cases hcalls
    · intro controller haborts
      cases haborts
  have hread : M.ReachableBy ok
      (Orders.joined id none (.verifying Orders.served Orders.envelope.toJson)) := by
    refine .step (a := .network (.bodyRead 0 true)) hfetched ⟨?_, ?_, ?_⟩ rfl
    · intro refresh _ hlost
      cases hlost
    · intro signal hcalls
      cases hcalls
    · intro controller haborts
      cases haborts
  have hstopped : M.ReachableBy ok
      (Orders.joined Sessions.stop none (.verifying Orders.served Orders.envelope.toJson)) := by
    refine .step (a := .stop) hread ⟨trivial, ?_, ?_⟩ rfl
    · intro signal hcalls
      cases hcalls
    · intro controller _ call hcall refresh hrefresh _ _
      -- both calls await the one refresh, whose body has been read
      have hoperation : call.operation = 0 := by
        rcases List.mem_cons.mp hcall with rfl | hcall
        · rfl
        · rw [List.mem_singleton.mp hcall]
          rfl
      rw [hoperation] at hrefresh
      cases hrefresh
      rfl
  have hsettled : M.ReachableBy ok
      (Orders.joined Sessions.stop (some Orders.object) (.settled (.ok Orders.updated))) := by
    refine .step (a := .network (.verified 0 0)) hstopped ⟨trivial, ?_, ?_⟩ Orders.step_verified
    · intro signal hcalls
      cases hcalls
    · intro controller haborts
      cases haborts
  refine ⟨_, hsettled.reachable, ?_, rfl, rfl, ?_⟩
  · exact List.mem_cons_of_mem _ (List.mem_singleton_self _)
  · exact cancellation_is_private Orders.edgePlatform Orders.keyring Orders.served Orders.serves _
      hsettled

/-- The second session fails by the signal of the first one, and nothing has stopped it. -/
theorem cancellation_is_not_private :
    ∃ s s', (Lifecycle.machine Orders.edgePlatform Orders.keyring).ReachableBy
        (Answers Orders.edgePlatform Orders.keyring) s ∧
      { signal := some 1, operation := 0 } ∈ s.calls ∧ s.sessions.aborted 1 = false ∧
      s.settled 0 = some (.error (.client "fetch bundle: This operation was aborted")) ∧
      (Lifecycle.machine Orders.edgePlatform Orders.keyring).run s [.startStep 1, .startStep 1] =
        some s' ∧
      (∃ session, s'.sessions.session 1 = some session ∧
        session.start = .rejected (.client "fetch bundle: This operation was aborted")) ∧
      ∀ call ∈ s'.sessions.stops, call.session ≠ 1 := by
  refine ⟨Orders.after Orders.failing,
    Orders.after (Orders.failing ++ [.startStep 1, .startStep 1]), Orders.reachable_failing,
    ?_, rfl, rfl, rfl, ⟨_, rfl, rfl⟩, ?_⟩
  · exact List.mem_cons_of_mem _ (List.mem_singleton.mpr rfl)
  · intro call hcall
    rw [List.mem_singleton.mp hcall]
    exact Nat.zero_ne_one

end Cancellation

end ShieldWard.Delivery
