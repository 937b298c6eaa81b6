import ShieldWard.Edge.CircuitRuns
import ShieldWard.Edge.SyncLifecycle

/-!
# One session at a time

A session that has not been aborted is the one in the fields of the synchronizer, and its loops are
the promises there. Every other session has been aborted by a `stop`, or by the `start` that
failed; its loops only run out.
-/

namespace ShieldWard.Edge

namespace Lifecycle

/-! ## What the loops do to the rest -/

/-- A loop of a session leaves the sessions alone. It leaves the client alone as well, or calls
`refresh` once, and it does so only while its session has not been aborted. -/
structure LoopEffect (controller : ℕ) (s s' : State) : Prop where
  sessions : s'.sessions = s.sessions
  calls : s'.client = s.client ∧ s'.calls = s.calls ∨
    s.sessions.aborted controller = false ∧
      s'.client = (s.client.refresh (some controller)).2 ∧
      s'.calls = s.calls ++
        [{ signal := some controller, operation := (s.client.refresh (some controller)).1 }]

theorem LoopEffect.refl (controller : ℕ) (s : State) : LoopEffect controller s s :=
  ⟨rfl, .inl ⟨rfl, rfl⟩⟩

theorem LoopEffect.report (controller : ℕ) (s : State) (report : Report) :
    LoopEffect controller s (s.report report) :=
  ⟨rfl, .inl ⟨rfl, rfl⟩⟩

theorem LoopEffect.reportRefresh (controller session : ℕ) (s : State)
    (result : Except RefreshError RefreshResult) :
    LoopEffect controller s (s.reportRefresh session result) := by
  unfold State.reportRefresh
  split
  · exact .report controller s _
  · exact .refl controller s

theorem LoopEffect.refresh {controller : ℕ} {s : State}
    (h : s.sessions.aborted controller = false) :
    LoopEffect controller s (s.refresh (some controller)).2 :=
  ⟨rfl, .inr ⟨h, rfl, rfl⟩⟩

/-- An event awaits a refresh only in a session that has not been aborted. -/
theorem processEvent_awaiting {aborted : Bool} {signal operation : ℕ}
    {client client' : ConfigurationClient} {event : ServerSentEvent}
    (h : processEvent aborted signal client event = (.awaiting operation, client')) :
    aborted = false ∧ (operation, client') = client.refresh (some signal) := by
  unfold processEvent at h
  split at h
  · cases h
  · next hlive =>
    have haborted : aborted = false := by
      cases aborted
      · rfl
      · simp at hlive
    split at h
    · unfold caught at h
      split at h <;> cases h
    · dsimp only at h
      split at h
      · obtain ⟨hoperation, hclient⟩ := Prod.mk.inj h
        refine ⟨haborted, ?_⟩
        rw [← EventStage.awaiting.inj hoperation, ← hclient]
      · cases h

/-- A stream loop that goes on has not ended. -/
theorem streamStep_spec {s s' : State} {controller : ℕ} {stage stage' : StreamStage}
    {input : StreamInput} (h : streamStep s controller stage input = some (stage', s')) :
    stage.isEnded = false ∧ LoopEffect controller s s' := by
  unfold streamStep at h
  split at h
  · split at h <;> cases h <;> exact ⟨rfl, .refl controller s⟩
  · cases h
    exact ⟨rfl, .refl controller s⟩
  · cases h
    exact ⟨rfl, .refl controller s⟩
  · cases h
    exact ⟨rfl, .refl controller s⟩
  · cases h
    exact ⟨rfl, .refl controller s⟩
  · cases h
    exact ⟨rfl, .refl controller s⟩
  · cases h
    exact ⟨rfl, .refl controller s⟩
  · split at h
    · next hawaiting =>
      obtain ⟨hlive, hrefresh⟩ := processEvent_awaiting hawaiting
      cases h
      refine ⟨rfl, rfl, .inr ⟨hlive, ?_, ?_⟩⟩
      · rw [← hrefresh]
      · rw [← hrefresh]
    · cases h
      exact ⟨rfl, .report controller s _⟩
    · cases h
      exact ⟨rfl, .refl controller s⟩
  · obtain ⟨result, _, heq⟩ := Option.map_eq_some_iff.mp h
    cases heq
    exact ⟨rfl, .refl controller s⟩
  · cases h
    exact ⟨rfl, .reportRefresh controller controller s _⟩
  · cases h
    exact ⟨rfl, .refl controller s⟩
  · cases h
    refine ⟨rfl, ?_⟩
    split
    · exact .refl controller s
    · exact .report controller s _
  · cases h
    exact ⟨rfl, .refl controller s⟩
  · cases h
    exact ⟨rfl, .refl controller s⟩
  · cases h

theorem pollStep_spec {s s' : State} {controller : ℕ} {stage stage' : PollStage}
    (h : pollStep s controller stage = some (stage', s')) :
    stage.isEnded = false ∧ LoopEffect controller s s' := by
  unfold pollStep at h
  split at h
  · split at h
    · cases h
      exact ⟨rfl, .refl controller s⟩
    · next hlive =>
      cases h
      exact ⟨rfl, .refresh (by simpa using hlive)⟩
  · obtain ⟨result, _, heq⟩ := Option.map_eq_some_iff.mp h
    cases heq
    exact ⟨rfl, .refl controller s⟩
  · cases h
    exact ⟨rfl, .reportRefresh controller controller s _⟩
  · cases h
    exact ⟨rfl, .refl controller s⟩
  · cases h

/-! ## The sessions agree with the fields -/

namespace Sessions

/-- A stream loop of the session exists: it has begun and not ended. -/
def StreamRuns (s : Sessions) (k : ℕ) : Prop :=
  ∃ session, s.session k = some session ∧ ∃ stage ∈ session.stream, stage.isEnded = false

def PollRuns (s : Sessions) (k : ℕ) : Prop :=
  ∃ session, s.session k = some session ∧ ∃ stage ∈ session.poll, stage.isEnded = false

/-- The `start` of the session has not returned a result. -/
def Starting (s : Sessions) (k : ℕ) : Prop :=
  ∃ session, s.session k = some session ∧ ∀ result, session.start ≠ .resolved result

/-- What a call of `stop` knows of the session that it has found. -/
structure StopKnows (s : Sessions) (call : StopCall) : Prop where
  found : ∃ session, s.session call.session = some session
  aborted : s.aborted call.session = true
  streamTask : s.StreamRuns call.session → call.streamTask = some call.session
  pollTask : s.PollRuns call.session → call.pollTask = some call.session
  resolved : call.resolved = true → ¬s.StreamRuns call.session ∧ ¬s.PollRuns call.session

structure Consistent (s : Sessions) : Prop where
  fresh : ∀ k, s.controllers ≤ k → s.session k = none ∧ s.aborted k = false
  /-- A session that has not been aborted is the current one. -/
  live : ∀ k session, s.session k = some session → s.aborted k = false →
    s.fields.controller = some k
  current : ∀ k, s.fields.controller = some k → ∃ session, s.session k = some session
  streamTask : ∀ k, s.fields.streamTask = some k →
    s.fields.controller = some k ∧ ¬s.Starting k
  pollTask : ∀ k, s.fields.pollTask = some k → s.fields.controller = some k ∧ ¬s.Starting k
  streamRuns : ∀ k, s.StreamRuns k → s.fields.streamTask = some k
  pollRuns : ∀ k, s.PollRuns k → s.fields.pollTask = some k
  /-- The loops begin when `start` returns. -/
  starting : ∀ k session, s.session k = some session → s.Starting k →
    session.stream = none ∧ session.poll = none
  rejected : ∀ k session error, s.session k = some session → session.start = .rejected error →
    s.fields.controller ≠ some k
  stops : ∀ call ∈ s.stops, s.StopKnows call

variable {s : Sessions} {k : ℕ} {session found next : Session}

@[simp] theorem session_setSession (j : ℕ) :
    (s.setSession k session).session j = if j = k then some session else s.session j :=
  Function.update_apply s.session k (some session) j

@[simp] theorem aborted_abort (j : ℕ) :
    (s.abort k).aborted j = if j = k then true else s.aborted j :=
  Function.update_apply s.aborted k true j

theorem aborted_abort_of_aborted {j : ℕ} (h : s.aborted j = true) : (s.abort k).aborted j = true := by
  rw [aborted_abort]
  split
  · rfl
  · exact h

/-- The controller of a session has been created. -/
theorem Consistent.lt_controllers (h : s.Consistent) (hfound : s.session k = some found) :
    k < s.controllers := by
  by_contra hk
  have hnone := (h.fresh k (by omega)).1
  rw [hfound] at hnone
  cases hnone

theorem StopKnows.congr {s' : Sessions} {call : StopCall} (h : s.StopKnows call)
    (hsession : s'.session call.session = s.session call.session)
    (haborted : s'.aborted call.session = true) : s'.StopKnows call := by
  have hstream : s'.StreamRuns call.session ↔ s.StreamRuns call.session := by
    unfold StreamRuns
    rw [hsession]
  have hpoll : s'.PollRuns call.session ↔ s.PollRuns call.session := by
    unfold PollRuns
    rw [hsession]
  refine ⟨?_, haborted, ?_, ?_, ?_⟩
  · rw [hsession]
    exact h.found
  · rw [hstream]
    exact h.streamTask
  · rw [hpoll]
    exact h.pollTask
  · rw [hstream, hpoll]
    exact h.resolved

/-- A session moves on: no loop begins, and its `start` does not begin again. -/
theorem Consistent.setSession (h : s.Consistent) (hfound : s.session k = some found)
    (hstream : ∀ stage ∈ next.stream, stage.isEnded = false →
      ∃ stage ∈ found.stream, stage.isEnded = false)
    (hpoll : ∀ stage ∈ next.poll, stage.isEnded = false →
      ∃ stage ∈ found.poll, stage.isEnded = false)
    (hstart : (∀ result, next.start ≠ .resolved result) →
      (∀ result, found.start ≠ .resolved result) ∧ next.stream = none ∧ next.poll = none)
    (hrejected : ∀ error, next.start = .rejected error → s.fields.controller ≠ some k) :
    (s.setSession k next).Consistent := by
  -- what runs after the change of session `k` ran before it
  have hstreamRuns : ∀ j, (s.setSession k next).StreamRuns j → s.StreamRuns j := by
    rintro j ⟨session, hsession, stage, hstage, hrunning⟩
    rw [session_setSession] at hsession
    split at hsession
    · next heq =>
      cases hsession
      rw [heq]
      exact ⟨found, hfound, hstream stage hstage hrunning⟩
    · exact ⟨session, hsession, stage, hstage, hrunning⟩
  have hpollRuns : ∀ j, (s.setSession k next).PollRuns j → s.PollRuns j := by
    rintro j ⟨session, hsession, stage, hstage, hrunning⟩
    rw [session_setSession] at hsession
    split at hsession
    · next heq =>
      cases hsession
      rw [heq]
      exact ⟨found, hfound, hpoll stage hstage hrunning⟩
    · exact ⟨session, hsession, stage, hstage, hrunning⟩
  have hstarting : ∀ j, (s.setSession k next).Starting j → s.Starting j := by
    rintro j ⟨session, hsession, hstage⟩
    rw [session_setSession] at hsession
    split at hsession
    · next heq =>
      cases hsession
      rw [heq]
      exact ⟨found, hfound, (hstart hstage).1⟩
    · exact ⟨session, hsession, hstage⟩
  constructor
  -- a session that exists is none of the fresh ones
  · intro j hj
    have hne : j ≠ k := by
      have hk := h.lt_controllers hfound
      change s.controllers ≤ j at hj
      omega
    rw [session_setSession, if_neg hne]
    exact h.fresh j hj
  · intro j session hsession haborted
    rw [session_setSession] at hsession
    split at hsession
    · next heq =>
      rw [heq] at haborted ⊢
      exact h.live k found hfound haborted
    · exact h.live j session hsession haborted
  · intro j hj
    rw [session_setSession]
    split
    · exact ⟨next, rfl⟩
    · exact h.current j hj
  · intro j hj
    exact ⟨(h.streamTask j hj).1, fun hs => (h.streamTask j hj).2 (hstarting j hs)⟩
  · intro j hj
    exact ⟨(h.pollTask j hj).1, fun hs => (h.pollTask j hj).2 (hstarting j hs)⟩
  · intro j hj
    exact h.streamRuns j (hstreamRuns j hj)
  · intro j hj
    exact h.pollRuns j (hpollRuns j hj)
  · intro j session hsession hs
    rw [session_setSession] at hsession
    split at hsession
    · next heq =>
      cases hsession
      obtain ⟨other, hother, hstage⟩ := hs
      rw [session_setSession, if_pos heq] at hother
      cases hother
      exact (hstart hstage).2
    · exact h.starting j session hsession (hstarting j hs)
  · intro j session error hsession herror
    rw [session_setSession] at hsession
    split at hsession
    · next heq =>
      cases hsession
      rw [heq]
      exact hrejected error herror
    · exact h.rejected j session error hsession herror
  -- a `stop` knows its session by what still runs of it, which has not grown
  · intro call hcall
    have hknows := h.stops call hcall
    refine ⟨?_, hknows.aborted, ?_, ?_, ?_⟩
    · rw [session_setSession]
      split
      · exact ⟨next, rfl⟩
      · exact hknows.found
    · exact fun hruns => hknows.streamTask (hstreamRuns _ hruns)
    · exact fun hruns => hknows.pollTask (hpollRuns _ hruns)
    · intro hresolved
      have hended := hknows.resolved hresolved
      exact ⟨fun hruns => hended.1 (hstreamRuns _ hruns), fun hruns => hended.2 (hpollRuns _ hruns)⟩

theorem Consistent.abort (h : s.Consistent) (hk : k < s.controllers) : (s.abort k).Consistent := by
  constructor
  · intro j hj
    have hne : j ≠ k := by
      change s.controllers ≤ j at hj
      omega
    rw [aborted_abort, if_neg hne]
    exact h.fresh j hj
  · intro j session hsession haborted
    rw [aborted_abort] at haborted
    split at haborted
    · cases haborted
    · exact h.live j session hsession haborted
  · exact h.current
  · exact h.streamTask
  · exact h.pollTask
  · exact h.streamRuns
  · exact h.pollRuns
  · exact h.starting
  · exact h.rejected
  · intro call hcall
    have hknows := h.stops call hcall
    exact hknows.congr rfl (aborted_abort_of_aborted hknows.aborted)

/-- What a failed `start` leaves in the fields. -/
theorem fields_startFailed (h : s.Consistent) (hstarting : s.Starting k) :
    (s.startFailed k).fields =
      if s.fields.controller = some k then
        { controller := none, streamTask := none, pollTask := none }
      else s.fields := by
  unfold startFailed
  by_cases hcurrent : s.fields.controller = some k
  · -- the fields hold no loop of another session, and this one has none
    have hstream : s.fields.streamTask = none := by
      rw [Option.eq_none_iff_forall_ne_some]
      intro j hj
      obtain ⟨hsame, hnot⟩ := h.streamTask j hj
      rw [hcurrent] at hsame
      rw [← Option.some.inj hsame] at hnot
      exact hnot hstarting
    have hpoll : s.fields.pollTask = none := by
      rw [Option.eq_none_iff_forall_ne_some]
      intro j hj
      obtain ⟨hsame, hnot⟩ := h.pollTask j hj
      rw [hcurrent] at hsame
      rw [← Option.some.inj hsame] at hnot
      exact hnot hstarting
    have habort : (s.abort k).fields = s.fields := rfl
    simp only [habort, hcurrent, if_true, hstream, hpoll]
  · have habort : (s.abort k).fields = s.fields := rfl
    simp only [habort, if_neg hcurrent]

theorem session_startFailed (s : Sessions) (k : ℕ) : (s.startFailed k).session = s.session := by
  unfold Sessions.startFailed
  dsimp only
  split <;> rfl

theorem aborted_startFailed (s : Sessions) (k j : ℕ) :
    (s.startFailed k).aborted j = if j = k then true else s.aborted j := by
  have hsame : (s.startFailed k).aborted = (s.abort k).aborted := by
    unfold Sessions.startFailed
    dsimp only
    split <;> rfl
  rw [hsame, aborted_abort]

/-- The fields of a session that has been aborted and has no loop can be cleared. -/
theorem Consistent.cleared (h : s.Consistent) (haborted : s.aborted k = true)
    (hstream : ¬s.StreamRuns k) (hpoll : ¬s.PollRuns k) (hcurrent : s.fields.controller = some k) :
    { s with fields := { controller := none, streamTask := none, pollTask := none } }.Consistent := by
  constructor
  · exact h.fresh
  · intro j session hsession hlive
    have hj := h.live j session hsession hlive
    rw [hcurrent] at hj
    rw [Option.some.inj hj] at haborted
    rw [haborted] at hlive
    cases hlive
  · intro j hj
    cases hj
  · intro j hj
    cases hj
  · intro j hj
    cases hj
  · intro j hruns
    have htask := h.streamRuns j hruns
    have hj := (h.streamTask j htask).1
    rw [hcurrent] at hj
    rw [Option.some.inj hj] at hstream
    exact absurd hruns hstream
  · intro j hruns
    have htask := h.pollRuns j hruns
    have hj := (h.pollTask j htask).1
    rw [hcurrent] at hj
    rw [Option.some.inj hj] at hpoll
    exact absurd hruns hpoll
  · exact h.starting
  · intro j session error _ _ hj
    cases hj
  · intro call hcall
    exact (h.stops call hcall).congr rfl (h.stops call hcall).aborted

theorem not_streamRuns_of_starting (h : s.Consistent) (hstarting : s.Starting k) :
    ¬s.StreamRuns k := by
  rintro ⟨session, hsession, stage, hstage, _⟩
  rw [(h.starting k session hsession hstarting).1] at hstage
  cases hstage

theorem not_pollRuns_of_starting (h : s.Consistent) (hstarting : s.Starting k) :
    ¬s.PollRuns k := by
  rintro ⟨session, hsession, stage, hstage, _⟩
  rw [(h.starting k session hsession hstarting).2] at hstage
  cases hstage

theorem Consistent.startFailed (h : s.Consistent) (hfound : s.session k = some found)
    (hstarting : s.Starting k) : (s.startFailed k).Consistent := by
  have habort := h.abort (h.lt_controllers hfound)
  unfold Sessions.startFailed
  by_cases hcurrent : s.fields.controller = some k
  · have hfields := fields_startFailed h hstarting
    rw [if_pos hcurrent] at hfields
    have haborted : (s.abort k).aborted k = true := by
      rw [aborted_abort, if_pos rfl]
    have hcleared := habort.cleared haborted (not_streamRuns_of_starting habort hstarting)
      (not_pollRuns_of_starting habort hstarting) hcurrent
    unfold Sessions.startFailed at hfields
    have hsame : (s.abort k).fields = s.fields := rfl
    simp only [hsame, hcurrent, if_true] at hfields ⊢
    rw [hfields]
    exact hcleared
  · have hsame : (s.abort k).fields = s.fields := rfl
    simp only [hsame, if_neg hcurrent]
    exact habort

/-- The loops of the current session begin when its `start` returns. -/
theorem Consistent.startLoops (h : s.Consistent) (hfound : s.session k = some found)
    (hlive : s.aborted k = false) (hcurrent : s.fields.controller = some k)
    (hresolved : ∃ result, next.start = .resolved result) :
    (s.startLoops k next).Consistent := by
  have hsession : ∀ j, (s.startLoops k next).session j =
      if j = k then some { next with stream := some .connecting, poll := some .delaying }
      else s.session j :=
    fun j => session_setSession j
  -- only session `k` changes, and it is no longer starting
  have hstarting : ∀ j, (s.startLoops k next).Starting j → j ≠ k ∧ s.Starting j := by
    rintro j ⟨session, hother, hstage⟩
    rw [hsession] at hother
    split at hother
    · cases hother
      obtain ⟨result, hresult⟩ := hresolved
      exact absurd hresult (hstage result)
    · next hne => exact ⟨hne, session, hother, hstage⟩
  have hnot : ¬(s.startLoops k next).Starting k := fun hs => (hstarting k hs).1 rfl
  constructor
  · intro j hj
    have hne : j ≠ k := by
      have hk := h.lt_controllers hfound
      change s.controllers ≤ j at hj
      omega
    rw [hsession, if_neg hne]
    exact h.fresh j hj
  · intro j session hother haborted
    rw [hsession] at hother
    split at hother
    · next heq =>
      rw [heq]
      exact hcurrent
    · exact h.live j session hother haborted
  · intro j hj
    rw [hsession]
    split
    · exact ⟨_, rfl⟩
    · exact h.current j hj
  · intro j hj
    have heq : j = k := (Option.some.inj hj).symm
    rw [heq]
    exact ⟨hcurrent, hnot⟩
  · intro j hj
    have heq : j = k := (Option.some.inj hj).symm
    rw [heq]
    exact ⟨hcurrent, hnot⟩
  · rintro j ⟨session, hother, stage, hstage, hrunning⟩
    rw [hsession] at hother
    split at hother
    · next heq =>
      rw [heq]
      rfl
    · -- a loop that ran before would be one of the current session
      next hne =>
      have htask := h.streamRuns j ⟨session, hother, stage, hstage, hrunning⟩
      have hj := (h.streamTask j htask).1
      rw [hcurrent] at hj
      exact absurd (Option.some.inj hj).symm hne
  · rintro j ⟨session, hother, stage, hstage, hrunning⟩
    rw [hsession] at hother
    split at hother
    · next heq =>
      rw [heq]
      rfl
    · next hne =>
      have htask := h.pollRuns j ⟨session, hother, stage, hstage, hrunning⟩
      have hj := (h.pollTask j htask).1
      rw [hcurrent] at hj
      exact absurd (Option.some.inj hj).symm hne
  · intro j session hother hs
    obtain ⟨hne, hs⟩ := hstarting j hs
    rw [hsession, if_neg hne] at hother
    exact h.starting j session hother hs
  · intro j session error hother herror
    rw [hsession] at hother
    split at hother
    · cases hother
      obtain ⟨result, hresult⟩ := hresolved
      rw [hresult] at herror
      cases herror
    · exact h.rejected j session error hother herror
  -- the session is live, so no `stop` is about it
  · intro call hcall
    have hknows := h.stops call hcall
    have hne : call.session ≠ k := by
      intro heq
      have haborted := hknows.aborted
      rw [heq, hlive] at haborted
      cases haborted
    exact hknows.congr (by rw [hsession, if_neg hne]) hknows.aborted

theorem Consistent.afterStart (h : s.Consistent) {result : Except RefreshError RefreshResult}
    (hfound : s.session k = some found) (hobserved : found.start = .observed result) :
    (s.afterStart k found result).Consistent := by
  have hstarting : s.Starting k := by
    refine ⟨found, hfound, fun other hother => ?_⟩
    rw [hobserved] at hother
    cases hother
  obtain ⟨hstream, hpoll⟩ := h.starting k found hfound hstarting
  unfold Sessions.afterStart
  split
  -- the first refresh has failed: the field is cleared if it is still this session's
  · have hfailed := h.startFailed hfound hstarting
    have hsession : (s.startFailed k).session k = some found := by
      rw [session_startFailed]
      exact hfound
    apply hfailed.setSession hsession
    · intro stage hstage _
      rw [hstream] at hstage
      cases hstage
    · intro stage hstage _
      rw [hpoll] at hstage
      cases hstage
    · intro _
      refine ⟨fun other hother => ?_, hstream, hpoll⟩
      rw [hobserved] at hother
      cases hother
    · intro _ _ hcurrent
      rw [fields_startFailed h hstarting] at hcurrent
      split at hcurrent
      · cases hcurrent
      · next hne => exact hne hcurrent
  · next result =>
    dsimp only
    -- a session that was stopped in the meantime starts no loops
    split
    · apply h.setSession hfound
      · intro stage hstage hrunning
        exact ⟨stage, hstage, hrunning⟩
      · intro stage hstage hrunning
        exact ⟨stage, hstage, hrunning⟩
      · intro hstart
        exact absurd rfl (hstart result)
      · intro _ herror
        cases herror
    · next hcurrent =>
      rw [not_or, Bool.not_eq_true, not_not] at hcurrent
      exact h.startLoops hfound hcurrent.1 hcurrent.2 ⟨result, rfl⟩

/-! ## `stop` -/

theorem Consistent.stop (h : s.Consistent) : s.stop.Consistent := by
  unfold Sessions.stop
  split
  · exact h
  · next controller hcurrent =>
    obtain ⟨found, hfound⟩ := h.current controller hcurrent
    have habort := h.abort (h.lt_controllers hfound)
    refine ⟨habort.fresh, habort.live, habort.current, habort.streamTask, habort.pollTask,
      habort.streamRuns, habort.pollRuns, habort.starting, habort.rejected, ?_⟩
    intro call hcall
    rcases List.mem_append.mp hcall with hold | hnew
    · exact (habort.stops call hold).congr rfl (habort.stops call hold).aborted
    · rw [List.mem_singleton.mp hnew]
      refine ⟨⟨found, hfound⟩, ?_, ?_, ?_, ?_⟩
      · show (s.abort controller).aborted controller = true
        rw [aborted_abort, if_pos rfl]
      · exact h.streamRuns controller
      · exact h.pollRuns controller
      · intro hresolved
        cases hresolved

/-- A promise of a loop that has settled is one of a loop that does not run. -/
theorem not_streamRuns_of_ended (h : s.streamEnded k = true) : ¬s.StreamRuns k := by
  rintro ⟨session, hsession, stage, hstage, hrunning⟩
  unfold streamEnded at h
  rw [hsession] at h
  obtain ⟨start, stream, poll⟩ := session
  simp only [Option.mem_def] at hstage
  rw [hstage] at h
  exact absurd (h.symm.trans hrunning) (by decide)

theorem not_pollRuns_of_ended (h : s.pollEnded k = true) : ¬s.PollRuns k := by
  rintro ⟨session, hsession, stage, hstage, hrunning⟩
  unfold pollEnded at h
  rw [hsession] at h
  obtain ⟨start, stream, poll⟩ := session
  simp only [Option.mem_def] at hstage
  rw [hstage] at h
  exact absurd (h.symm.trans hrunning) (by decide)

/-- When everything that a `stop` awaits has settled, the loops of its session have ended. -/
theorem StopKnows.ended {call : StopCall} (h : s.StopKnows call)
    (hsettled : s.allSettled call = true) :
    ¬s.StreamRuns call.session ∧ ¬s.PollRuns call.session := by
  unfold allSettled at hsettled
  rw [Bool.and_eq_true] at hsettled
  constructor
  · intro hruns
    rw [h.streamTask hruns] at hsettled
    exact not_streamRuns_of_ended hsettled.1 hruns
  · intro hruns
    rw [h.pollTask hruns] at hsettled
    exact not_pollRuns_of_ended hsettled.2 hruns

theorem Consistent.afterStop (h : s.Consistent) {index : ℕ} {call : StopCall}
    (hcall : s.stops[index]? = some call) (hsettled : s.allSettled call = true) :
    (s.afterStop index call).Consistent := by
  have hknows := h.stops call (List.mem_of_getElem? hcall)
  have hended := hknows.ended hsettled
  have hcleared : (s.clear call.session).Consistent := by
    unfold Sessions.clear
    split
    · next hcurrent => exact h.cleared hknows.aborted hended.1 hended.2 hcurrent
    · exact h
  have hsession : (s.clear call.session).session = s.session := by
    unfold Sessions.clear
    split <;> rfl
  have haborted : (s.clear call.session).aborted = s.aborted := by
    unfold Sessions.clear
    split <;> rfl
  refine ⟨hcleared.fresh, hcleared.live, hcleared.current, hcleared.streamTask,
    hcleared.pollTask, hcleared.streamRuns, hcleared.pollRuns, hcleared.starting,
    hcleared.rejected, ?_⟩
  intro other hother
  -- clearing the fields touches no session
  have hsame : ∀ c : StopCall, s.StopKnows c → (s.afterStop index call).StopKnows c := by
    intro c hc
    apply hc.congr
    · show (s.clear call.session).session c.session = s.session c.session
      rw [hsession]
    · show (s.clear call.session).aborted c.session = true
      rw [haborted]
      exact hc.aborted
  rcases List.mem_or_eq_of_mem_set hother with hold | hnew
  · exact hsame other (h.stops other hold)
  -- the call itself has resolved after its loops have ended
  · rw [hnew]
    have hthis := hsame call hknows
    refine ⟨hthis.found, hthis.aborted, hthis.streamTask, hthis.pollTask, fun _ => ?_⟩
    have hstream : (s.afterStop index call).StreamRuns call.session ↔
        s.StreamRuns call.session := by
      show (∃ session, (s.clear call.session).session call.session = some session ∧ _) ↔ _
      rw [hsession]
      rfl
    have hpoll : (s.afterStop index call).PollRuns call.session ↔ s.PollRuns call.session := by
      show (∃ session, (s.clear call.session).session call.session = some session ∧ _) ↔ _
      rw [hsession]
      rfl
    rw [hstream, hpoll]
    exact hended

/-! ## `start` -/

theorem Consistent.create (h : s.Consistent) :
    { s with controllers := s.controllers + 1 }.Consistent := by
  refine ⟨?_, h.live, h.current, h.streamTask, h.pollTask, h.streamRuns, h.pollRuns, h.starting,
    h.rejected, ?_⟩
  · intro j hj
    change s.controllers + 1 ≤ j at hj
    exact h.fresh j (by omega)
  · intro call hcall
    exact (h.stops call hcall).congr rfl (h.stops call hcall).aborted

/-- Without a session every task is cleared. -/
theorem Consistent.fields_eq (h : s.Consistent) (hnone : s.fields.controller = none) :
    s.fields = { controller := none, streamTask := none, pollTask := none } := by
  have hstream : s.fields.streamTask = none := by
    rw [Option.eq_none_iff_forall_ne_some]
    intro j hj
    have hcurrent := (h.streamTask j hj).1
    rw [hnone] at hcurrent
    cases hcurrent
  have hpoll : s.fields.pollTask = none := by
    rw [Option.eq_none_iff_forall_ne_some]
    intro j hj
    have hcurrent := (h.pollTask j hj).1
    rw [hnone] at hcurrent
    cases hcurrent
  have hcleared : ∀ fields : Fields, fields.controller = none → fields.streamTask = none →
      fields.pollTask = none →
        fields = { controller := none, streamTask := none, pollTask := none } := by
    rintro ⟨_, _, _⟩ rfl rfl rfl
    rfl
  exact hcleared s.fields hnone hstream hpoll

/-- A session begins, without loops. -/
theorem Consistent.begin (h : s.Consistent) (hnone : s.fields.controller = none)
    (hnext : next.stream = none ∧ next.poll = none)
    (hpending : ∀ error, next.start ≠ .rejected error) :
    ({ s with
        controllers := s.controllers + 1
        fields := { s.fields with controller := some s.controllers }
      }.setSession s.controllers next).Consistent := by
  have hfields := h.fields_eq hnone
  have hfresh := h.fresh s.controllers (le_refl _)
  -- the number of the new session has not been used
  have hother : ∀ j session, s.session j = some session → j ≠ s.controllers := by
    intro j session hsession heq
    rw [heq, hfresh.1] at hsession
    cases hsession
  constructor
  · intro j hj
    change s.controllers + 1 ≤ j at hj
    have hne : j ≠ s.controllers := by omega
    rw [session_setSession, if_neg hne]
    exact h.fresh j (by omega)
  · intro j session hsession haborted
    rw [session_setSession] at hsession
    split at hsession
    · next heq =>
      rw [heq]
      rfl
    · -- a session before this one has been aborted
      have hcurrent := h.live j session hsession haborted
      rw [hnone] at hcurrent
      cases hcurrent
  · intro j hj
    have heq : s.controllers = j := Option.some.inj hj
    rw [session_setSession, if_pos heq.symm]
    exact ⟨next, rfl⟩
  · intro j hj
    change s.fields.streamTask = some j at hj
    rw [hfields] at hj
    cases hj
  · intro j hj
    change s.fields.pollTask = some j at hj
    rw [hfields] at hj
    cases hj
  · rintro j ⟨session, hsession, stage, hstage, hrunning⟩
    rw [session_setSession] at hsession
    split at hsession
    · cases hsession
      rw [hnext.1] at hstage
      cases hstage
    · exact h.streamRuns j ⟨session, hsession, stage, hstage, hrunning⟩
  · rintro j ⟨session, hsession, stage, hstage, hrunning⟩
    rw [session_setSession] at hsession
    split at hsession
    · cases hsession
      rw [hnext.2] at hstage
      cases hstage
    · exact h.pollRuns j ⟨session, hsession, stage, hstage, hrunning⟩
  · rintro j session hsession ⟨same, hsame, hstage⟩
    rw [session_setSession] at hsession hsame
    split at hsession
    · cases hsession
      exact hnext
    · next hne =>
      rw [if_neg hne] at hsame
      exact h.starting j session hsession ⟨same, hsame, hstage⟩
  · intro j session error hsession herror hj
    rw [session_setSession, if_pos (Option.some.inj hj).symm] at hsession
    cases hsession
    exact hpending error herror
  -- every `stop` is about an older session
  · intro call hcall
    have hknows := h.stops call hcall
    obtain ⟨session, hsession⟩ := hknows.found
    apply hknows.congr
    · rw [session_setSession, if_neg (hother _ _ hsession)]
    · exact hknows.aborted

end Sessions

/-! ## Every run -/

section Runs

variable {P : Platform} {trustedKeys : TrustedKeyring} {s s' : State}

theorem consistent_start (h : s.sessions.Consistent) : s.start.2.sessions.Consistent := by
  unfold State.start
  split
  · exact h
  · next hnone => exact h.begin hnone ⟨rfl, rfl⟩ fun _ herror => by cases herror

theorem consistent_startStep {controller : ℕ} {session : Session} (h : s.sessions.Consistent)
    (hfound : s.sessions.session controller = some session)
    (hstep : startStep s controller session session.start = some s') : s'.sessions.Consistent := by
  unfold startStep at hstep
  split at hstep
  · next operation hstart =>
    obtain ⟨result, _, rfl⟩ := Option.map_eq_some_iff.mp hstep
    apply h.setSession hfound
    · intro stage hstage hrunning
      exact ⟨stage, hstage, hrunning⟩
    · intro stage hstage hrunning
      exact ⟨stage, hstage, hrunning⟩
    · intro _
      have hpending : ∀ other, session.start ≠ .resolved other := by
        intro other hother
        rw [hstart] at hother
        cases hother
      exact ⟨hpending, h.starting controller session hfound ⟨session, hfound, hpending⟩⟩
    · intro _ herror
      cases herror
  · next result hstart =>
    cases hstep
    exact h.afterStart hfound hstart
  · cases hstep

/-- A loop that goes on. -/
theorem consistent_loopStep {controller : ℕ} {session : Session} (next : Session) {t : State}
    (h : s.sessions.Consistent) (hfound : s.sessions.session controller = some session)
    (heffect : LoopEffect controller s t) (hstart : next.start = session.start)
    (hstream : ∀ stage ∈ next.stream, stage.isEnded = false →
      ∃ stage ∈ session.stream, stage.isEnded = false)
    (hpoll : ∀ stage ∈ next.poll, stage.isEnded = false →
      ∃ stage ∈ session.poll, stage.isEnded = false)
    (hlooped : session.stream ≠ none ∨ session.poll ≠ none) :
    (t.sessions.setSession controller next).Consistent := by
  rw [heffect.sessions]
  apply h.setSession hfound hstream hpoll
  · intro hpending
    rw [hstart] at hpending
    obtain ⟨hnoStream, hnoPoll⟩ :=
      h.starting controller session hfound ⟨session, hfound, hpending⟩
    rcases hlooped with hlooped | hlooped
    · exact absurd hnoStream hlooped
    · exact absurd hnoPoll hlooped
  · intro error herror
    rw [hstart] at herror
    exact h.rejected controller session error hfound herror

theorem consistent_step {a : Action} (h : s.sessions.Consistent)
    (hstep : step P trustedKeys s a = some s') : s'.sessions.Consistent := by
  cases a with
  | create =>
    cases hstep
    exact h.create
  | abort controller =>
    simp only [step] at hstep
    split at hstep
    · next hforeign =>
      cases hstep
      unfold Sessions.isForeign at hforeign
      rw [Bool.and_eq_true, decide_eq_true_eq] at hforeign
      exact h.abort hforeign.1
    · cases hstep
  | refresh signal =>
    simp only [step] at hstep
    split at hstep
    · cases hstep
      exact h
    · cases hstep
  | start =>
    cases hstep
    exact consistent_start h
  | startStep controller =>
    simp only [step] at hstep
    split at hstep
    · next session hfound => exact consistent_startStep h hfound hstep
    · cases hstep
  | stop =>
    cases hstep
    exact h.stop
  | stopStep index =>
    simp only [step] at hstep
    split at hstep
    · next call hcall =>
      split at hstep
      · next hready =>
        cases hstep
        rw [Bool.and_eq_true] at hready
        exact h.afterStop hcall hready.2
      · cases hstep
    · cases hstep
  | streamStep controller input =>
    simp only [step] at hstep
    split at hstep
    · next start stage poll hfound =>
      obtain ⟨⟨stage', t⟩, hloop, rfl⟩ := Option.map_eq_some_iff.mp hstep
      obtain ⟨hrunning, heffect⟩ := streamStep_spec hloop
      apply consistent_loopStep ⟨start, some stage', poll⟩ h hfound heffect rfl
      · intro _ _ _
        exact ⟨stage, rfl, hrunning⟩
      · intro other hother hruns
        exact ⟨other, hother, hruns⟩
      · exact .inl (by simp)
    · cases hstep
  | pollStep controller =>
    simp only [step] at hstep
    split at hstep
    · next start stream stage hfound =>
      obtain ⟨⟨stage', t⟩, hloop, rfl⟩ := Option.map_eq_some_iff.mp hstep
      obtain ⟨hrunning, heffect⟩ := pollStep_spec hloop
      apply consistent_loopStep ⟨start, stream, some stage'⟩ h hfound heffect rfl
      · intro other hother hruns
        exact ⟨other, hother, hruns⟩
      · intro _ _ _
        exact ⟨stage, rfl, hrunning⟩
      · exact .inr (by simp)
    · cases hstep
  | network settles =>
    obtain ⟨client, _, rfl⟩ := Option.map_eq_some_iff.mp hstep
    exact h

theorem consistent_initial : initial.sessions.Consistent := by
  constructor
  · intro k _
    exact ⟨rfl, rfl⟩
  all_goals simp [initial, Sessions.StreamRuns, Sessions.PollRuns]

theorem consistent_of_reachable (h : (machine P trustedKeys).Reachable s) :
    s.sessions.Consistent := by
  apply h.invariant
  · rintro _ rfl
    exact consistent_initial
  · exact fun _ _ _ hI hstep => consistent_step hI hstep

/-! ## After a stop -/

/-- The refreshes that a session has started. -/
def State.callsOf (s : State) (controller : ℕ) : List Call :=
  s.calls.filter fun call => call.signal = some controller

theorem callsOf_append {controller : ℕ} {call : Call} (hcalls : s'.calls = s.calls ++ [call])
    (hne : call.signal ≠ some controller) : s'.callsOf controller = s.callsOf controller := by
  unfold State.callsOf
  rw [hcalls, List.filter_append]
  simp [hne]

/-- A loop starts no refresh in another session. -/
theorem callsOf_loopEffect {controller k : ℕ} {t : State} (heffect : LoopEffect controller s t)
    (haborted : s.sessions.aborted k = true) : t.callsOf k = s.callsOf k := by
  rcases heffect.calls with ⟨_, hcalls⟩ | ⟨hlive, _, hcalls⟩
  · unfold State.callsOf
    rw [hcalls]
  · apply callsOf_append hcalls
    intro heq
    rw [Option.some.inj heq, haborted] at hlive
    cases hlive

/-- A session that a `stop` has found starts no refresh. -/
theorem callsOf_step {a : Action} {call : StopCall} (h : s.sessions.Consistent)
    (hcall : call ∈ s.sessions.stops) (hstep : step P trustedKeys s a = some s') :
    s'.callsOf call.session = s.callsOf call.session := by
  have hknows := h.stops call hcall
  obtain ⟨found, hfound⟩ := hknows.found
  cases a with
  | create =>
    cases hstep
    rfl
  | abort controller =>
    simp only [step] at hstep
    split at hstep <;> cases hstep
    rfl
  | refresh signal =>
    simp only [step] at hstep
    split at hstep
    · next hforeign =>
      cases hstep
      refine callsOf_append rfl ?_
      intro heq
      -- the session is no controller of another caller
      have heq : signal = some call.session := heq
      rw [heq] at hforeign
      simp only [Option.all_some, Sessions.isForeign, hfound, Option.isNone_some, Bool.and_false]
        at hforeign
      cases hforeign
    · cases hstep
  | start =>
    cases hstep
    unfold State.start
    split
    · rfl
    · refine callsOf_append rfl ?_
      intro heq
      have hlt := h.lt_controllers hfound
      have heq : s.sessions.controllers = call.session := Option.some.inj heq
      omega
  | startStep controller =>
    simp only [step] at hstep
    split at hstep
    · unfold startStep at hstep
      split at hstep
      · obtain ⟨_, _, rfl⟩ := Option.map_eq_some_iff.mp hstep
        rfl
      · cases hstep
        rfl
      · cases hstep
    · cases hstep
  | stop =>
    cases hstep
    rfl
  | stopStep index =>
    simp only [step] at hstep
    split at hstep
    · split at hstep <;> cases hstep
      rfl
    · cases hstep
  | streamStep controller input =>
    simp only [step] at hstep
    split at hstep
    · obtain ⟨⟨_, t⟩, hloop, rfl⟩ := Option.map_eq_some_iff.mp hstep
      show t.callsOf call.session = _
      exact callsOf_loopEffect (streamStep_spec hloop).2 hknows.aborted
    · cases hstep
  | pollStep controller =>
    simp only [step] at hstep
    split at hstep
    · obtain ⟨⟨_, t⟩, hloop, rfl⟩ := Option.map_eq_some_iff.mp hstep
      show t.callsOf call.session = _
      exact callsOf_loopEffect (pollStep_spec hloop).2 hknows.aborted
    · cases hstep
  | network settles =>
    obtain ⟨_, _, rfl⟩ := Option.map_eq_some_iff.mp hstep
    rfl

theorem stops_startFailed (s : Sessions) (controller : ℕ) :
    (s.startFailed controller).stops = s.stops := by
  unfold Sessions.startFailed
  dsimp only
  split <;> rfl

theorem stops_afterStart (s : Sessions) (controller : ℕ) (session : Session)
    (result : Except RefreshError RefreshResult) :
    (s.afterStart controller session result).stops = s.stops := by
  unfold Sessions.afterStart
  split
  · exact stops_startFailed s controller
  · dsimp only
    split <;> rfl

/-- A `stop` that has resolved stays so. -/
theorem mem_stops_step {a : Action} {call : StopCall} (hcall : call ∈ s.sessions.stops)
    (hresolved : call.resolved = true) (hstep : step P trustedKeys s a = some s') :
    call ∈ s'.sessions.stops := by
  cases a with
  | create =>
    cases hstep
    exact hcall
  | abort controller =>
    simp only [step] at hstep
    split at hstep <;> cases hstep
    exact hcall
  | refresh signal =>
    simp only [step] at hstep
    split at hstep <;> cases hstep
    exact hcall
  | start =>
    cases hstep
    unfold State.start
    split <;> exact hcall
  | startStep controller =>
    simp only [step] at hstep
    split at hstep
    · unfold startStep at hstep
      split at hstep
      · obtain ⟨_, _, rfl⟩ := Option.map_eq_some_iff.mp hstep
        exact hcall
      · cases hstep
        rw [stops_afterStart]
        exact hcall
      · cases hstep
    · cases hstep
  | stop =>
    cases hstep
    unfold Sessions.stop
    split
    · exact hcall
    · exact List.mem_append_left _ hcall
  | stopStep index =>
    simp only [step] at hstep
    split at hstep
    · next other hother =>
      split at hstep
      · next hready =>
        cases hstep
        obtain ⟨position, hposition, hget⟩ := List.mem_iff_getElem.mp hcall
        have hne : index ≠ position := by
          intro heq
          rw [heq, List.getElem?_eq_getElem hposition, hget] at hother
          rw [← Option.some.inj hother, hresolved] at hready
          cases hready
        have hkept : (s.sessions.stops.set index { other with resolved := true })[position]? =
            some call := by
          rw [List.getElem?_set_ne hne, List.getElem?_eq_getElem hposition, hget]
        exact List.mem_of_getElem? hkept
      · cases hstep
    · cases hstep
  | streamStep controller input =>
    simp only [step] at hstep
    split at hstep
    · obtain ⟨⟨_, t⟩, hloop, rfl⟩ := Option.map_eq_some_iff.mp hstep
      show call ∈ t.sessions.stops
      rw [(streamStep_spec hloop).2.sessions]
      exact hcall
    · cases hstep
  | pollStep controller =>
    simp only [step] at hstep
    split at hstep
    · obtain ⟨⟨_, t⟩, hloop, rfl⟩ := Option.map_eq_some_iff.mp hstep
      show call ∈ t.sessions.stops
      rw [(pollStep_spec hloop).2.sessions]
      exact hcall
    · cases hstep
  | network settles =>
    obtain ⟨_, _, rfl⟩ := Option.map_eq_some_iff.mp hstep
    exact hcall

/-- However a run goes on after a `stop` has resolved, its session has no loop and starts no
refresh. -/
theorem silent_of_run {as : List Action} {call : StopCall} (h : s.sessions.Consistent)
    (hcall : call ∈ s.sessions.stops) (hresolved : call.resolved = true)
    (hrun : (machine P trustedKeys).run s as = some s') :
    ¬s'.sessions.StreamRuns call.session ∧ ¬s'.sessions.PollRuns call.session ∧
      s'.callsOf call.session = s.callsOf call.session := by
  induction as generalizing s with
  | nil =>
    cases hrun
    obtain ⟨hstream, hpoll⟩ := (h.stops call hcall).resolved hresolved
    exact ⟨hstream, hpoll, rfl⟩
  | cons a as ih =>
    obtain ⟨t, hstep, hrest⟩ := Option.bind_eq_some_iff.mp hrun
    have hstays := mem_stops_step hcall hresolved hstep
    obtain ⟨hstream, hpoll, hcalls⟩ := ih (consistent_step h hstep) hstays hrest
    exact ⟨hstream, hpoll, hcalls.trans (callsOf_step h hcall hstep)⟩

/-! ## The lifecycle -/

/-- A `start` that fails: the fields are what they were before it was called, or what a session
after it has made of them, and nothing else has changed but its own session. -/
structure FailedStart (s s' : Sessions) (controller : ℕ) : Prop where
  fields : s'.fields = if s.fields.controller = some controller then
    { controller := none, streamTask := none, pollTask := none } else s.fields
  others : ∀ other, other ≠ controller →
    s'.session other = s.session other ∧ s'.aborted other = s.aborted other
  stops : s'.stops = s.stops
  loops : ¬s'.StreamRuns controller ∧ ¬s'.PollRuns controller

/-- What holds of the synchronizer in a state of any run. -/
structure SessionLifecycle (P : Platform) (trustedKeys : TrustedKeyring) (s : State) : Prop where
  oneStream : ∀ i j, s.sessions.aborted i = false → s.sessions.aborted j = false →
    s.sessions.StreamRuns i → s.sessions.StreamRuns j → i = j
  onePoll : ∀ i j, s.sessions.aborted i = false → s.sessions.aborted j = false →
    s.sessions.PollRuns i → s.sessions.PollRuns j → i = j
  /-- A `start` while a session is active. -/
  startRefused : s.sessions.running = true →
    s.start = (.error (.sync "configuration synchronization is already running"), s)
  /-- A `start` that creates a session finds the fields cleared. -/
  startBegins : ∀ controller, s.start.1 = .ok controller →
    s.sessions.fields = { controller := none, streamTask := none, pollTask := none }
  startFails : ∀ controller session error s', s.sessions.session controller = some session →
    session.start = .observed (.error error) →
      step P trustedKeys s (.startStep controller) = some s' →
        FailedStart s.sessions s'.sessions controller
  /-- Nothing is left of a `start` that has failed. -/
  startFailed : ∀ controller session error, s.sessions.session controller = some session →
    session.start = .rejected error →
      s.sessions.fields.controller ≠ some controller ∧
        s.sessions.fields.streamTask ≠ some controller ∧
        s.sessions.fields.pollTask ≠ some controller ∧
        ¬s.sessions.StreamRuns controller ∧ ¬s.sessions.PollRuns controller
  /-- From the time that a `stop` has resolved, its session has no loop and starts no refresh. -/
  stopped : ∀ call ∈ s.sessions.stops, call.resolved = true → ∀ as s',
    (machine P trustedKeys).run s as = some s' →
      ¬s'.sessions.StreamRuns call.session ∧ ¬s'.sessions.PollRuns call.session ∧
        s'.callsOf call.session = s.callsOf call.session
  /-- A call of `stop` aborts the current session only. -/
  stopAborts : ∀ s', step P trustedKeys s .stop = some s' →
    s'.sessions.fields = s.sessions.fields ∧
      ∀ other, s.sessions.fields.controller ≠ some other →
        s'.sessions.aborted other = s.sessions.aborted other
  /-- A `stop` that resolves leaves the fields to a session after its own, and aborts nothing. -/
  stopResolves : ∀ index call s', s.sessions.stops[index]? = some call →
    step P trustedKeys s (.stopStep index) = some s' →
      s'.sessions.aborted = s.sessions.aborted ∧
        (s.sessions.fields.controller ≠ some call.session →
          s'.sessions.fields = s.sessions.fields)

theorem sessions_lifecycle (P : Platform) (trustedKeys : TrustedKeyring) (s : State)
    (h : (machine P trustedKeys).Reachable s) : SessionLifecycle P trustedKeys s := by
  have hconsistent := consistent_of_reachable h
  have hcurrent : ∀ i j, s.sessions.aborted i = false → s.sessions.aborted j = false →
      (∃ session, s.sessions.session i = some session) →
      (∃ session, s.sessions.session j = some session) → i = j := by
    rintro i j hi hj ⟨session, hsession⟩ ⟨session', hsession'⟩
    have hsame := hconsistent.live i session hsession hi
    rw [hconsistent.live j session' hsession' hj] at hsame
    exact (Option.some.inj hsame).symm
  constructor
  · rintro i j hi hj ⟨session, hsession, _⟩ ⟨session', hsession', _⟩
    exact hcurrent i j hi hj ⟨session, hsession⟩ ⟨session', hsession'⟩
  · rintro i j hi hj ⟨session, hsession, _⟩ ⟨session', hsession', _⟩
    exact hcurrent i j hi hj ⟨session, hsession⟩ ⟨session', hsession'⟩
  · intro hrunning
    obtain ⟨controller, hcontroller⟩ := Option.isSome_iff_exists.mp hrunning
    unfold State.start
    rw [hcontroller]
  · intro controller hstart
    unfold State.start at hstart
    split at hstart
    · cases hstart
    · next hnone => exact hconsistent.fields_eq hnone
  · intro controller session error s' hfound hobserved hstep
    have hstarting : s.sessions.Starting controller := by
      refine ⟨session, hfound, fun result hresult => ?_⟩
      rw [hobserved] at hresult
      cases hresult
    simp only [step, hfound, startStep, hobserved, Option.some.injEq] at hstep
    rw [← hstep]
    have hfields := Sessions.fields_startFailed hconsistent hstarting
    obtain ⟨hstream, hpoll⟩ := hconsistent.starting controller session hfound hstarting
    have hsession : ∀ other, (s.sessions.afterStart controller session (.error error)).session
        other = if other = controller then some { session with start := .rejected error }
          else s.sessions.session other := by
      intro other
      unfold Sessions.afterStart
      rw [Sessions.session_setSession, Sessions.session_startFailed]
    refine ⟨hfields, ?_, stops_startFailed _ _, ?_, ?_⟩
    · intro other hne
      refine ⟨?_, ?_⟩
      · rw [hsession, if_neg hne]
      · show (s.sessions.startFailed controller).aborted other = _
        rw [Sessions.aborted_startFailed, if_neg hne]
    · rintro ⟨session', hsession', stage, hstage, _⟩
      rw [hsession, if_pos rfl] at hsession'
      cases hsession'
      rw [hstream] at hstage
      cases hstage
    · rintro ⟨session', hsession', stage, hstage, _⟩
      rw [hsession, if_pos rfl] at hsession'
      cases hsession'
      rw [hpoll] at hstage
      cases hstage
  · intro controller session error hfound hrejected
    have hnot := hconsistent.rejected controller session error hfound hrejected
    have hstarting : s.sessions.Starting controller := by
      refine ⟨session, hfound, fun result hresult => ?_⟩
      rw [hrejected] at hresult
      cases hresult
    refine ⟨hnot, ?_, ?_, Sessions.not_streamRuns_of_starting hconsistent hstarting,
      Sessions.not_pollRuns_of_starting hconsistent hstarting⟩
    · exact fun htask => hnot (hconsistent.streamTask controller htask).1
    · exact fun htask => hnot (hconsistent.pollTask controller htask).1
  · intro call hcall hresolved as s' hrun
    exact silent_of_run hconsistent hcall hresolved hrun
  · intro s' hstep
    cases hstep
    show s.sessions.stop.fields = _ ∧ ∀ other, _ → s.sessions.stop.aborted other = _
    unfold Sessions.stop
    split
    · exact ⟨rfl, fun _ _ => rfl⟩
    · next controller hcontroller =>
      refine ⟨rfl, fun other hother => ?_⟩
      show (s.sessions.abort controller).aborted other = _
      rw [Sessions.aborted_abort, if_neg]
      intro heq
      rw [heq] at hother
      exact hother hcontroller
  · intro index call s' hcall hstep
    simp only [step, hcall] at hstep
    split at hstep
    · cases hstep
      show (s.sessions.clear call.session).aborted = _ ∧
        (_ → (s.sessions.clear call.session).fields = _)
      unfold Sessions.clear
      split
      · next hsame => exact ⟨rfl, fun hne => absurd hsame hne⟩
      · exact ⟨rfl, fun _ => rfl⟩
    · cases hstep

end Runs

/-- A session is stopped during its first refresh, and the next one begins before that refresh
has failed. -/
def restarting : List Action :=
  [.start, .stop, .stopStep 0, .start, .network (.fetchFailed 0 "This operation was aborted"),
    .startStep 0, .startStep 0]

theorem sessions_lifecycle_restarting :
    ∃ s, (machine CircuitRun.Orders.platform .empty).run initial restarting = some s ∧
      s.sessions.fields.controller = some 1 ∧
      SessionLifecycle CircuitRun.Orders.platform .empty s := by
  have hend : ((machine CircuitRun.Orders.platform .empty).run initial restarting).map
      (·.sessions.fields.controller) = some (some 1) := rfl
  obtain ⟨s, hrun, hcontroller⟩ := Option.map_eq_some_iff.mp hend
  refine ⟨s, hrun, hcontroller, sessions_lifecycle CircuitRun.Orders.platform .empty s ?_⟩
  exact .of_run restarting (.init rfl) hrun

end Lifecycle
end ShieldWard.Edge
