import ShieldWard.Delivery.Exchange
import ShieldWard.Delivery.Signed

/-!
# The last known good configuration

A call that awaits anything is the one that is registered, and the registered one is the
newest, so while it runs nothing else touches the snapshot. The invariant says this, and what
each settled call has left behind.
-/

namespace ShieldWard.Delivery

open Edge

namespace Exchange

variable {P : Platform} {G : Control.GoPlatform} {trustedKeys : TrustedKeyring} {s s' : State}
  {operation : ℕ}

/-- The entity tag of a bundle. -/
def entityTag (bundle : Bundle) : String := "\"" ++ bundle.version ++ "\""

/-! ## What a step does -/

/-- What each action needs and what it leaves, one lemma for each. -/
theorem answer_some {a : Answer} (h : answer s operation a = some s') :
    ∃ refresh, s.refresh operation = some refresh ∧ refresh.stage = .fetching ∧
      s.answers operation = none ∧
      s' = { s with answers := Function.update s.answers operation (some a) } := by
  unfold answer at h
  split at h
  · next hrefresh hnone => exact ⟨_, hrefresh, rfl, hnone, (Option.some.inj h).symm⟩
  · cases h

theorem publish_some {envelope : Control.Envelope}
    (h : step P G trustedKeys s (.publish envelope) = some s') :
    ∃ snapshot, Control.newSnapshot G envelope = .ok snapshot ∧
      s' = { s with published := s.published ++ [snapshot] } := by
  simp only [step] at h
  split at h
  · cases h
  · next snapshot hsnapshot => exact ⟨snapshot, hsnapshot, (Option.some.inj h).symm⟩

theorem fetched_some (h : step P G trustedKeys s (.fetched operation) = some s') :
    ∃ refresh a, s.refresh operation = some refresh ∧ refresh.stage = .fetching ∧
      s.answers operation = some a ∧
      s' = { s with client := s.client.advance operation refresh
                      (afterFetch s.client.snapshot (s.response refresh.request a)) } := by
  simp only [step] at h
  split at h
  · next hrefresh ha => exact ⟨_, _, hrefresh, rfl, ha, (Option.some.inj h).symm⟩
  · cases h

theorem fetchFailed_some {message : String}
    (h : step P G trustedKeys s (.fetchFailed operation message) = some s') :
    ∃ refresh, s.refresh operation = some refresh ∧ refresh.stage = .fetching ∧
      s' = { s with
        client := s.client.advance operation refresh (afterFetchError message) } := by
  simp only [step] at h
  split at h
  · next hrefresh => exact ⟨_, hrefresh, rfl, (Option.some.inj h).symm⟩
  · cases h

/-- A body that was not received leaves nothing to verify. -/
theorem bodyRead_some {received : Bool}
    (h : step P G trustedKeys s (.bodyRead operation received) = some s') :
    ∃ refresh response, s.refresh operation = some refresh ∧ refresh.stage = .reading response ∧
      s' = { s with client := s.client.advance operation refresh
                      (afterBody response (if received then response.body else none)) } := by
  simp only [step] at h
  split at h
  · next hrefresh => exact ⟨_, _, hrefresh, rfl, (Option.some.inj h).symm⟩
  · cases h

/-- The stage holds the response and the body that are verified. -/
theorem verified_some {now : Ecma.Number}
    (h : step P G trustedKeys s (.verified operation now) = some s') :
    ∃ refresh response body, s.refresh operation = some refresh ∧
      refresh.stage = .verifying response body ∧
      s' = { s with
        client := s.client.afterVerify P trustedKeys operation refresh response body now } := by
  simp only [step] at h
  split at h
  · next hrefresh => exact ⟨_, _, _, hrefresh, rfl, (Option.some.inj h).symm⟩
  · cases h

theorem clearInFlight_some (h : step P G trustedKeys s (.clearInFlight operation) = some s') :
    ∃ refresh result, s.refresh operation = some refresh ∧ refresh.stage = .settled result ∧
      s' = { s with client := s.client.clearInFlight operation } := by
  simp only [step] at h
  split at h
  · next hrefresh => exact ⟨_, _, hrefresh, rfl, (Option.some.inj h).symm⟩
  · cases h

/-! ## Entity tags across the languages -/

theorem mem_of_isSha256Text {version : String} (h : isSha256Text version = true) {c : Char}
    (hc : c ∈ version.toList) : c ∈ "sha256:".toList ∨ isLowerHexDigit c = true := by
  unfold isSha256Text at h
  rw [Bool.and_eq_true, Bool.and_eq_true, List.isPrefixOf_iff_prefix, List.all_eq_true] at h
  have ⟨⟨⟨rest, hrest⟩, _⟩, hdigits⟩ := h
  rw [← hrest] at hc hdigits
  rcases List.mem_append.mp hc with hc | hc
  · exact .inl hc
  · exact .inr (hdigits c hc)

/-- No character of a version is one that stands for something else in a header. -/
theorem not_mem_of_isSha256Text {version : String} (h : isSha256Text version = true) :
    '\\' ∉ version.toList ∧ ',' ∉ version.toList := by
  refine ⟨fun hc => ?_, fun hc => ?_⟩ <;>
    exact absurd (mem_of_isSha256Text h hc) (by decide)

/-- An entity tag is one candidate of an `If-None-Match` header. -/
theorem etagMatches_entityTag {bundle : Bundle} (h : isSha256Text bundle.version = true)
    {etag : String} :
    Control.etagMatches (entityTag bundle) etag = true ↔ etag = entityTag bundle := by
  have hlist : (entityTag bundle).toList = '"' :: bundle.version.toList ++ ['"'] := by
    simp [entityTag]
  have hcomma : ',' ∉ (entityTag bundle).toList := by
    rw [hlist]
    simpa using (not_mem_of_isSha256Text h).2
  have htrim : Control.trimSpace (entityTag bundle).toList = (entityTag bundle).toList := by
    have hquote : Control.isSpace '"' = false := by decide
    have hdrop : List.dropWhile Control.isSpace ('"' :: bundle.version.toList ++ ['"']) =
        '"' :: bundle.version.toList ++ ['"'] := by
      rw [List.cons_append, List.dropWhile_cons_of_neg (by simp [hquote])]
    unfold Control.trimSpace
    rw [hlist, hdrop, List.rdropWhile_concat_neg _ _ _ (by simp [hquote])]
  have hstar : entityTag bundle ≠ "*" := by
    intro heq
    rw [heq] at hlist
    simp at hlist
  rw [Control.etagMatches_iff hcomma htrim]
  refine ⟨fun h => ?_, fun h => .inr h.symm⟩
  rcases h with h | h
  · exact absurd h hstar
  · exact h.symm

/-- The tag of a served snapshot names its version. -/
theorem version_of_etag {snapshot : Control.Snapshot} {bundle : Bundle}
    (hquoted : snapshot.etag = Control.quote G snapshot.version)
    (hversion : isSha256Text bundle.version = true) (h : snapshot.etag = entityTag bundle) :
    snapshot.version = bundle.version :=
  Control.eq_of_quote_eq (not_mem_of_isSha256Text hversion).1 (hquoted.symm.trans h)

/-- The store quotes the version of what it publishes. -/
theorem newSnapshot_etag {envelope : Control.Envelope} {snapshot : Control.Snapshot}
    (h : Control.newSnapshot G envelope = .ok snapshot) :
    snapshot.etag = Control.quote G snapshot.version := by
  unfold Control.newSnapshot at h
  split_ifs at h
  rw [← Except.ok.inj h]

/-! ## The invariant -/

/-- What holds of every state of the exchange. -/
structure Invariant (G : Control.GoPlatform) (s : State) : Prop where
  quoted : ∀ snapshot ∈ s.published, snapshot.etag = Control.quote G snapshot.version
  /-- Only the registered call awaits anything. -/
  registered : ∀ operation refresh, s.refresh operation = some refresh →
    refresh.stage.isSettled = false → s.client.refreshInFlight = some operation
  /-- The registered call is the newest. -/
  newest : ∀ operation, s.client.refreshInFlight = some operation →
    s.client.refreshes.length = operation + 1
  /-- A call that awaits anything finds the snapshot that it started with. -/
  untouched : ∀ operation refresh, s.refresh operation = some refresh →
    refresh.stage.isSettled = false → refresh.before = s.client.snapshot
  header : ∀ operation refresh, s.refresh operation = some refresh →
    refresh.request.ifNoneMatch = refresh.before.map (·.value.etag)
  tagged : ∀ snapshot, s.client.snapshot = some snapshot →
    snapshot.value.etag = entityTag snapshot.value.bundle ∧
      isSha256Text snapshot.value.bundle.version = true
  /-- The response that a call reads is the successful answer to its request. -/
  read : ∀ operation refresh response, s.refresh operation = some refresh →
    (refresh.stage = .reading response ∨ ∃ body, refresh.stage = .verifying response body) →
    response.ok = true ∧
      (∀ body, refresh.stage = .verifying response body → response.body = some body) ∧
      ∃ a, s.answers operation = some a ∧ response = s.response refresh.request a
  answered : ∀ operation publications, s.answers operation = some (.handler publications) →
    publications ≤ s.published.length
  asked : ∀ operation a, s.answers operation = some a → operation < s.client.refreshes.length
  /-- The handler answers the calls in their order. -/
  ordered : ∀ operation operation' publications publications', operation < operation' →
    s.answers operation = some (.handler publications) →
    s.answers operation' = some (.handler publications') → publications ≤ publications'
  succeeded : ∀ operation refresh result, s.refresh operation = some refresh →
    refresh.stage = .settled (.ok result) → ∃ a, s.answers operation = some a
  /-- The snapshot is what the newest successful call has resolved to. -/
  latest : ∀ operation refresh result, s.refresh operation = some refresh →
    refresh.stage = .settled (.ok result) →
    ∃ operation' refresh' result', operation ≤ operation' ∧
      s.refresh operation' = some refresh' ∧ refresh'.stage = .settled (.ok result') ∧
      s.client.snapshot = some result'.snapshot
  /-- A failed call has changed nothing. -/
  failed : ∀ operation refresh error, s.refresh operation = some refresh →
    refresh.stage = .settled (.error error) → refresh.after = refresh.before
  /-- A call that the handler has answered succeeds with the version that was current then. -/
  current : ∀ operation refresh result publications, s.refresh operation = some refresh →
    refresh.stage = .settled (.ok result) →
    s.answers operation = some (.handler publications) →
    ∃ snapshot, s.currentAt publications = some snapshot ∧
      snapshot.version = result.snapshot.value.bundle.version

theorem invariant_initial : Invariant G initial where
  quoted := by simp [initial]
  registered := by simp [initial, State.refresh, ConfigurationClient.new]
  newest := by simp [initial, ConfigurationClient.new]
  untouched := by simp [initial, State.refresh, ConfigurationClient.new]
  header := by simp [initial, State.refresh, ConfigurationClient.new]
  tagged := by simp [initial, ConfigurationClient.new]
  read := by simp [initial, State.refresh, ConfigurationClient.new]
  answered := by simp [initial]
  asked := by simp [initial]
  ordered := by simp [initial]
  succeeded := by simp [initial, State.refresh, ConfigurationClient.new]
  latest := by simp [initial, State.refresh, ConfigurationClient.new]
  failed := by simp [initial, State.refresh, ConfigurationClient.new]
  current := by simp [initial]

/-! ## Each step keeps it -/

/-- What was current after so many publications stays so. -/
theorem currentAt_append {snapshot : Control.Snapshot} {publications : ℕ}
    (h : publications ≤ s.published.length) :
    State.currentAt { s with published := s.published ++ [snapshot] } publications =
      s.currentAt publications := by
  unfold State.currentAt
  rw [List.take_append_of_le_length h]

/-- A publication does not change what an earlier answer was. -/
theorem response_append {snapshot : Control.Snapshot} {request : Request} {a : Answer}
    (h : ∀ publications, a = .handler publications → publications ≤ s.published.length) :
    State.response { s with published := s.published ++ [snapshot] } request a =
      s.response request a := by
  cases a with
  | handler publications => simp only [State.response, currentAt_append (h _ rfl)]
  | other response => rfl

/-- A publication touches neither the client nor the answers. -/
theorem Invariant.publish (hI : Invariant G s) {snapshot : Control.Snapshot}
    (hquoted : snapshot.etag = Control.quote G snapshot.version) :
    Invariant G { s with published := s.published ++ [snapshot] } where
  quoted := by
    intro other hother
    rcases List.mem_append.mp hother with hother | hother
    · exact hI.quoted other hother
    · rw [List.mem_singleton.mp hother]
      exact hquoted
  registered := hI.registered
  newest := hI.newest
  untouched := hI.untouched
  header := hI.header
  tagged := hI.tagged
  read := by
    intro operation refresh response hrefresh hstage
    have ⟨hok, hbody, a, ha, hresponse⟩ := hI.read operation refresh response hrefresh hstage
    refine ⟨hok, hbody, a, ha, ?_⟩
    rw [response_append fun n hn => hI.answered operation n (hn ▸ ha)]
    exact hresponse
  answered := by
    intro operation publications ha
    have hle := hI.answered operation publications ha
    simp only [List.length_append]
    omega
  asked := hI.asked
  ordered := hI.ordered
  succeeded := hI.succeeded
  latest := hI.latest
  failed := hI.failed
  current := by
    intro operation refresh result publications hrefresh hstage ha
    rw [currentAt_append (hI.answered operation publications ha)]
    exact hI.current operation refresh result publications hrefresh hstage ha

/-- Joining changes nothing, and a new call is registered when nothing else is. -/
theorem Invariant.refresh (hI : Invariant G s) (signal : Option ℕ) :
    Invariant G { s with client := (s.client.refresh signal).2 } := by
  unfold ConfigurationClient.refresh
  split
  · exact hI
  · next hnone =>
    -- nothing is in flight, so every older call has settled
    have hsettled : ∀ operation refresh, s.refresh operation = some refresh →
        refresh.stage.isSettled = true := by
      intro operation refresh hrefresh
      by_contra hstage
      have hsome := hI.registered operation refresh hrefresh (by simpa using hstage)
      rw [hnone] at hsome
      cases hsome
    -- a call is one of the older ones or the new one
    have hcases : ∀ operation refresh,
        (s.client.refreshes ++ [s.client.refreshOnce signal])[operation]? = some refresh →
        s.refresh operation = some refresh ∨
          operation = s.client.refreshes.length ∧ refresh = s.client.refreshOnce signal := by
      intro operation refresh hrefresh
      rcases Nat.lt_or_ge operation s.client.refreshes.length with hlt | hge
      · rw [List.getElem?_append_left hlt] at hrefresh
        exact .inl hrefresh
      · rw [List.getElem?_append_right hge] at hrefresh
        have hzero : operation - s.client.refreshes.length = 0 := by
          have hlt := (List.getElem?_eq_some_iff.mp hrefresh).1
          simp only [List.length_singleton] at hlt
          omega
        rw [hzero] at hrefresh
        exact .inr ⟨by omega, (Option.some.inj hrefresh).symm⟩
    have hkeep : ∀ operation refresh, s.refresh operation = some refresh →
        (s.client.refreshes ++ [s.client.refreshOnce signal])[operation]? = some refresh := by
      intro operation refresh hrefresh
      have hlt := (List.getElem?_eq_some_iff.mp hrefresh).1
      rw [List.getElem?_append_left hlt]
      exact hrefresh
    refine ⟨hI.quoted, ?_, ?_, ?_, ?_, hI.tagged, ?_, hI.answered, ?_, hI.ordered, ?_, ?_, ?_, ?_⟩
    · intro operation refresh hrefresh hstage
      rcases hcases operation refresh hrefresh with hold | ⟨hnew, _⟩
      · rw [hsettled operation refresh hold] at hstage
        cases hstage
      · exact congrArg some hnew.symm
    · intro operation hoperation
      have heq : s.client.refreshes.length = operation := Option.some.inj hoperation
      simp only [List.length_append, List.length_singleton]
      omega
    · intro operation refresh hrefresh hstage
      rcases hcases operation refresh hrefresh with hold | ⟨_, hnew⟩
      · rw [hsettled operation refresh hold] at hstage
        cases hstage
      · rw [hnew]
        rfl
    · intro operation refresh hrefresh
      rcases hcases operation refresh hrefresh with hold | ⟨_, hnew⟩
      · exact hI.header operation refresh hold
      · rw [hnew]
        rfl
    · intro operation refresh response hrefresh hstage
      rcases hcases operation refresh hrefresh with hold | ⟨_, hnew⟩
      · exact hI.read operation refresh response hold hstage
      · rw [hnew] at hstage
        rcases hstage with hstage | ⟨_, hstage⟩ <;> cases hstage
    · intro operation a ha
      have hlt := hI.asked operation a ha
      simp only [List.length_append]
      omega
    · intro operation refresh result hrefresh hstage
      rcases hcases operation refresh hrefresh with hold | ⟨_, hnew⟩
      · exact hI.succeeded operation refresh result hold hstage
      · rw [hnew] at hstage
        cases hstage
    · intro operation refresh result hrefresh hstage
      rcases hcases operation refresh hrefresh with hold | ⟨_, hnew⟩
      · have ⟨operation', refresh', result', hle, hrefresh', hstage', hsnapshot⟩ :=
          hI.latest operation refresh result hold hstage
        exact ⟨operation', refresh', result', hle, hkeep operation' refresh' hrefresh', hstage',
          hsnapshot⟩
      · rw [hnew] at hstage
        cases hstage
    · intro operation refresh error hrefresh hstage
      rcases hcases operation refresh hrefresh with hold | ⟨_, hnew⟩
      · exact hI.failed operation refresh error hold hstage
      · rw [hnew] at hstage
        cases hstage
    · intro operation refresh result publications hrefresh hstage
      rcases hcases operation refresh hrefresh with hold | ⟨_, hnew⟩
      · exact hI.current operation refresh result publications hold hstage
      · rw [hnew] at hstage
        cases hstage

/-- The answer to a request that waits for one. -/
theorem Invariant.answer (hI : Invariant G s) {a : Answer}
    (ha : ∀ publications, a = .handler publications → publications = s.published.length)
    (h : answer s operation a = some s') : Invariant G s' := by
  have ⟨asked, hasked, hfetching, hnone, hs'⟩ := answer_some h
  -- an answer never replaces another one
  have hanswers : ∀ other b, s.answers other = some b →
      Function.update s.answers operation (some a) other = some b := by
    intro other b hb
    rw [Function.update_of_ne (by rintro rfl; simp [hnone] at hb), hb]
  -- only the newest call waits for an answer
  have hlast : s.client.refreshes.length = operation + 1 := by
    refine hI.newest operation (hI.registered operation asked hasked ?_)
    rw [hfetching]
    rfl
  rw [hs']
  refine ⟨hI.quoted, hI.registered, hI.newest, hI.untouched, hI.header, hI.tagged, ?_, ?_, ?_,
    ?_, ?_, hI.latest, hI.failed, ?_⟩
  · intro other refresh response hrefresh hstage
    have ⟨hok, hbody, b, hb, hresponse⟩ := hI.read other refresh response hrefresh hstage
    exact ⟨hok, hbody, b, hanswers other b hb, hresponse⟩
  · intro other publications hother
    dsimp only at hother
    by_cases heq : other = operation
    · subst heq
      rw [Function.update_self] at hother
      exact Nat.le_of_eq (ha publications (Option.some.inj hother))
    · rw [Function.update_of_ne heq] at hother
      exact hI.answered other publications hother
  · intro other b hother
    dsimp only at hother ⊢
    by_cases heq : other = operation
    · omega
    · rw [Function.update_of_ne heq] at hother
      exact hI.asked other b hother
  · intro first second n m hlt hfirst hsecond
    dsimp only at hfirst hsecond
    by_cases heq : second = operation
    · -- the answer is the newest, so nothing has been published after it
      rw [heq, Function.update_self] at hsecond
      rw [Function.update_of_ne (by omega)] at hfirst
      have hn := hI.answered first n hfirst
      have hm := ha m (Option.some.inj hsecond)
      omega
    · rw [Function.update_of_ne heq] at hsecond
      have hbound := hI.asked second _ hsecond
      rw [Function.update_of_ne (by omega)] at hfirst
      exact hI.ordered first second n m hlt hfirst hsecond
  · intro other refresh result hrefresh hstage
    have ⟨b, hb⟩ := hI.succeeded other refresh result hrefresh hstage
    exact ⟨b, hanswers other b hb⟩
  · intro other refresh result publications hrefresh hstage hother
    dsimp only at hother
    by_cases heq : other = operation
    · subst heq
      have hsame : refresh = asked := Option.some.inj (hrefresh.symm.trans hasked)
      rw [hsame, hfetching] at hstage
      cases hstage
    · rw [Function.update_of_ne heq] at hother
      exact hI.current other refresh result publications hrefresh hstage hother

/-- The calls after one of them has moved on. -/
theorem refresh_advance (client : ConfigurationClient) {refresh : Refresh} (stage : Stage)
    (hrefresh : s.refresh operation = some refresh)
    (hclient : client.refreshes = s.client.refreshes) (other : ℕ) :
    State.refresh { s with client := client.advance operation refresh stage } other =
      if other = operation then
        some { refresh with stage := stage, after := client.snapshot }
      else s.refresh other := by
  unfold State.refresh at hrefresh ⊢
  have hlt := (List.getElem?_eq_some_iff.mp hrefresh).1
  simp only [ConfigurationClient.advance, hclient, List.getElem?_set, hlt, if_true]
  exact if_congr eq_comm rfl rfl

/-- The newest successful call after one call has moved on. -/
theorem latest_advance (hI : Invariant G s) {refresh : Refresh}
    (hrefresh : s.refresh operation = some refresh) (hawaits : refresh.stage.isSettled = false)
    {stage : Stage} {snapshot : Option SnapshotObject} {moved : Refresh} {lookup : ℕ → Option Refresh}
    (hmoved : moved.stage = stage)
    (hlookup : ∀ other, lookup other = if other = operation then some moved else s.refresh other)
    (hsnapshot : (∀ result, stage ≠ .settled (.ok result)) → snapshot = s.client.snapshot)
    (hsucceeded : ∀ result, stage = .settled (.ok result) → snapshot = some result.snapshot)
    {other : ℕ} {r : Refresh} {result : RefreshResult} (hr : lookup other = some r)
    (hstage : r.stage = .settled (.ok result)) :
    ∃ operation' refresh' result', other ≤ operation' ∧ lookup operation' = some refresh' ∧
      refresh'.stage = .settled (.ok result') ∧ snapshot = some result'.snapshot := by
  have hregistered := hI.registered operation refresh hrefresh hawaits
  have hlast := hI.newest operation hregistered
  by_cases hok : ∃ result', stage = .settled (.ok result')
  · -- the call itself has succeeded, and it is the newest
    rcases hok with ⟨result', hresult'⟩
    refine ⟨operation, moved, result', ?_, by rw [hlookup, if_pos rfl], hmoved.trans hresult',
      hsucceeded result' hresult'⟩
    rw [hlookup] at hr
    split_ifs at hr with heq
    · omega
    · have hlt := (List.getElem?_eq_some_iff.mp hr).1
      omega
  · have hfails : ∀ result', stage ≠ .settled (.ok result') :=
      fun result' hresult' => hok ⟨result', hresult'⟩
    rw [hlookup] at hr
    split_ifs at hr with heq
    · rw [← Option.some.inj hr, hmoved] at hstage
      exact absurd hstage (hfails result)
    · have ⟨operation', refresh', result', hle, hrefresh', hstage', hcurrent⟩ :=
        hI.latest other r result hr hstage
      -- the newest success is of another call, which stays as it is
      have hne : operation' ≠ operation := by
        intro heq'
        rw [heq', hrefresh] at hrefresh'
        rw [Option.some.inj hrefresh', hstage'] at hawaits
        cases hawaits
      refine ⟨operation', refresh', result', hle, ?_, hstage', ?_⟩
      · rw [hlookup, if_neg hne, hrefresh']
      · rw [hsnapshot hfails, hcurrent]

/-- One call moves on, with the snapshot it leaves. Its next stage must be sound: what it reads
is the successful answer, a failure leaves the snapshot, and a result that the handler has
answered is the version that was current then. -/
theorem Invariant.advance (hI : Invariant G s) {refresh : Refresh}
    (hrefresh : s.refresh operation = some refresh) (hawaits : refresh.stage.isSettled = false)
    {stage : Stage} {snapshot : Option SnapshotObject}
    (hsnapshot : stage.isSettled = false → snapshot = s.client.snapshot)
    (htagged : ∀ object, snapshot = some object →
      object.value.etag = entityTag object.value.bundle ∧
        isSha256Text object.value.bundle.version = true)
    (hread : ∀ response,
      (stage = .reading response ∨ ∃ body, stage = .verifying response body) →
      response.ok = true ∧ (∀ body, stage = .verifying response body → response.body = some body) ∧
        ∃ a, s.answers operation = some a ∧ response = s.response refresh.request a)
    (hfailed : ∀ error, stage = .settled (.error error) → snapshot = s.client.snapshot)
    (hsucceeded : ∀ result, stage = .settled (.ok result) →
      (∃ a, s.answers operation = some a) ∧ snapshot = some result.snapshot)
    (hcurrent : ∀ result publications, stage = .settled (.ok result) →
      s.answers operation = some (.handler publications) →
      ∃ current, s.currentAt publications = some current ∧
        current.version = result.snapshot.value.bundle.version) :
    Invariant G { s with
      client := { s.client with snapshot }.advance operation refresh stage } := by
  have hlookup := refresh_advance { s.client with snapshot } stage hrefresh rfl
  have hregistered := hI.registered operation refresh hrefresh hawaits
  refine ⟨hI.quoted, ?_, ?_, ?_, ?_, htagged, ?_, hI.answered, ?_, hI.ordered, ?_, ?_, ?_, ?_⟩
  · intro other r hr hstage
    rw [hlookup] at hr
    split_ifs at hr with heq
    · rw [heq]
      exact hregistered
    · exact hI.registered other r hr hstage
  · intro other hother
    have hlength := hI.newest other hother
    simpa only [ConfigurationClient.advance, List.length_set] using hlength
  · intro other r hr hstage
    rw [hlookup] at hr
    split_ifs at hr with heq
    · have hnew := Option.some.inj hr
      rw [← hnew] at hstage ⊢
      exact (hI.untouched operation refresh hrefresh hawaits).trans (hsnapshot hstage).symm
    · -- no other call awaits anything
      have hother := hI.registered other r hr hstage
      exact absurd (Option.some.inj (hother.symm.trans hregistered)) heq
  · intro other r hr
    rw [hlookup] at hr
    split_ifs at hr with heq
    · rw [← Option.some.inj hr]
      exact hI.header operation refresh hrefresh
    · exact hI.header other r hr
  · intro other r response hr hstage
    rw [hlookup] at hr
    split_ifs at hr with heq
    · rw [← Option.some.inj hr] at hstage ⊢
      rw [heq]
      exact hread response hstage
    · exact hI.read other r response hr hstage
  · intro other a ha
    have hlt := hI.asked other a ha
    simpa only [ConfigurationClient.advance, List.length_set] using hlt
  · intro other r result hr hstage
    rw [hlookup] at hr
    split_ifs at hr with heq
    · rw [← Option.some.inj hr] at hstage
      rw [heq]
      exact (hsucceeded result hstage).1
    · exact hI.succeeded other r result hr hstage
  · intro other r result hr hstage
    refine latest_advance hI hrefresh hawaits rfl hlookup ?_
      (fun result hstage => (hsucceeded result hstage).2) hr hstage
    intro hfails
    rcases stage with _ | _ | _ | result
    · exact hsnapshot rfl
    · exact hsnapshot rfl
    · exact hsnapshot rfl
    · cases result with
      | error error => exact hfailed error rfl
      | ok result => exact absurd rfl (hfails result)
  · intro other r error hr hstage
    rw [hlookup] at hr
    split_ifs at hr with heq
    · rw [← Option.some.inj hr] at hstage ⊢
      exact (hfailed error hstage).trans (hI.untouched operation refresh hrefresh hawaits).symm
    · exact hI.failed other r error hr hstage
  · intro other r result publications hr hstage ha
    rw [hlookup] at hr
    split_ifs at hr with heq
    · rw [← Option.some.inj hr] at hstage
      rw [heq] at ha
      exact hcurrent result publications hstage ha
    · exact hI.current other r result publications hr hstage ha

/-- The registration of a settled call is removed. -/
theorem Invariant.clearInFlight (hI : Invariant G s) {refresh : Refresh}
    (hrefresh : s.refresh operation = some refresh) (hsettled : refresh.stage.isSettled = true) :
    Invariant G { s with client := s.client.clearInFlight operation } := by
  unfold ConfigurationClient.clearInFlight
  split
  · next hregistered =>
    refine ⟨hI.quoted, ?_, ?_, hI.untouched, hI.header, hI.tagged, hI.read, hI.answered,
      hI.asked, hI.ordered, hI.succeeded, hI.latest, hI.failed, hI.current⟩
    · intro other r hr hstage
      have hother := hI.registered other r hr hstage
      have heq : operation = other := Option.some.inj (hregistered.symm.trans hother)
      subst heq
      have hsame : r = refresh := Option.some.inj (hr.symm.trans hrefresh)
      rw [hsame, hsettled] at hstage
      cases hstage
    · intro other hother
      cases hother
  · exact hI

/-- What was current once has been published. -/
theorem mem_of_currentAt {publications : ℕ} {snapshot : Control.Snapshot}
    (h : s.currentAt publications = some snapshot) : snapshot ∈ s.published :=
  List.mem_of_mem_take (List.mem_of_getLast? h)

/-- The handler answers 304 only while the version of the client is current. -/
theorem Invariant.notModified (hI : Invariant G s) {refresh : Refresh}
    (hrefresh : s.refresh operation = some refresh) (hawaits : refresh.stage.isSettled = false)
    {publications : ℕ} {object : SnapshotObject} (hobject : s.client.snapshot = some object)
    (h : (s.response refresh.request (.handler publications)).status = 304) :
    ∃ current, s.currentAt publications = some current ∧
      current.version = object.value.bundle.version := by
  have ⟨htag, hversion⟩ := hI.tagged object hobject
  have hheader : refresh.request.ifNoneMatch = some (entityTag object.value.bundle) := by
    rw [hI.header operation refresh hrefresh, hI.untouched operation refresh hrefresh hawaits,
      hobject, Option.map_some, htag]
  have ⟨current, hcurrent, hmatch⟩ := Control.bundle_notModified h
  rw [hheader, Option.getD_some, etagMatches_entityTag hversion] at hmatch
  have hquoted := hI.quoted current (mem_of_currentAt hcurrent)
  exact ⟨current, hcurrent, version_of_etag hquoted hversion hmatch⟩

/-- The handler answers with success and the tag of a bundle only while its version is
current. -/
theorem Invariant.success (hI : Invariant G s) {request : Request} {publications : ℕ}
    {bundle : Bundle} (hversion : isSha256Text bundle.version = true)
    (hok : (s.response request (.handler publications)).ok = true)
    (htag : (s.response request (.handler publications)).etag = some (entityTag bundle)) :
    ∃ current, s.currentAt publications = some current ∧ current.version = bundle.version := by
  have hstatus : 200 ≤ (Control.bundle (s.currentAt publications) request.ifNoneMatch).status ∧
      (Control.bundle (s.currentAt publications) request.ifNoneMatch).status ≤ 299 := by
    unfold Response.ok at hok
    rw [Bool.and_eq_true] at hok
    exact ⟨of_decide_eq_true hok.1, of_decide_eq_true hok.2⟩
  have ⟨current, hcurrent, hetag⟩ := Control.bundle_success hstatus
  have hsame : some current.etag = some (entityTag bundle) := hetag.symm.trans htag
  have hquoted := hI.quoted current (mem_of_currentAt hcurrent)
  exact ⟨current, hcurrent, version_of_etag hquoted hversion (Option.some.inj hsame)⟩

/-- The answer decides between reading, an unchanged bundle and a failure. -/
theorem Invariant.fetched (hI : Invariant G s)
    (h : step P G trustedKeys s (.fetched operation) = some s') : Invariant G s' := by
  have ⟨refresh, a, hrefresh, hfetching, ha, hs'⟩ := fetched_some h
  have hawaits : refresh.stage.isSettled = false := by rw [hfetching]; rfl
  rw [hs']
  refine hI.advance hrefresh hawaits (fun _ => rfl) hI.tagged
    ?_ (fun _ _ => rfl) ?_ ?_
  · intro response hstage
    rcases hstage with hstage | ⟨body, hstage⟩
    · have ⟨hresponse, hok⟩ := afterFetch_reading hstage
      rw [hresponse]
      exact ⟨hok, fun _ hstage => absurd hstage afterFetch_ne_verifying, a, ha, rfl⟩
    · exact absurd hstage afterFetch_ne_verifying
  · intro result hstage
    exact ⟨⟨a, ha⟩, (afterFetch_settled_ok hstage).2.2⟩
  · intro result publications hstage hanswer
    have ⟨hstatus, _, hsnapshot⟩ := afterFetch_settled_ok hstage
    have hhandler : a = .handler publications := Option.some.inj (ha.symm.trans hanswer)
    rw [hhandler] at hstatus
    exact hI.notModified hrefresh hawaits hsnapshot hstatus

/-- A fetch that fails settles its call and changes nothing. -/
theorem Invariant.fetchFailed (hI : Invariant G s) {message : String}
    (h : step P G trustedKeys s (.fetchFailed operation message) = some s') :
    Invariant G s' := by
  have ⟨refresh, hrefresh, hfetching, hs'⟩ := fetchFailed_some h
  have hawaits : refresh.stage.isSettled = false := by rw [hfetching]; rfl
  rw [hs']
  refine hI.advance hrefresh hawaits (fun _ => rfl) hI.tagged ?_ (fun _ _ => rfl) ?_ ?_
  · intro response hstage
    rcases hstage with hstage | ⟨body, hstage⟩ <;> cases hstage
  · intro result hstage
    cases hstage
  · intro result publications hstage
    cases hstage

/-- The body that is verified is the one of the response. -/
theorem Invariant.bodyRead (hI : Invariant G s) {received : Bool}
    (h : step P G trustedKeys s (.bodyRead operation received) = some s') : Invariant G s' := by
  have ⟨refresh, response, hrefresh, hreading, hs'⟩ := bodyRead_some h
  have hawaits : refresh.stage.isSettled = false := by rw [hreading]; rfl
  rw [hs']
  generalize hreceived : (if received then response.body else none) = body
  refine hI.advance hrefresh hawaits (fun _ => rfl) hI.tagged ?_ (fun _ _ => rfl) ?_ ?_
  · intro response' hstage
    cases body with
    | none => rcases hstage with hstage | ⟨body, hstage⟩ <;> cases hstage
    | some body =>
      rcases hstage with hstage | ⟨_, hstage⟩
      · cases hstage
      · have ⟨hok, _, a, ha, hresponse⟩ :=
          hI.read operation refresh response hrefresh (.inl hreading)
        rw [← (Stage.verifying.inj hstage).1]
        refine ⟨hok, fun parsed hparsed => ?_, a, ha, hresponse⟩
        rw [← (Stage.verifying.inj hparsed).2]
        split_ifs at hreceived
        exact hreceived
  · intro result hstage
    cases body <;> cases hstage
  · intro result publications hstage
    cases body <;> cases hstage

/-- A bundle that verifies becomes the snapshot, and its call succeeds with it. -/
theorem Invariant.verified (hI : Invariant G s) {now : Ecma.Number}
    (h : step P G trustedKeys s (.verified operation now) = some s') : Invariant G s' := by
  have ⟨refresh, response, body, hrefresh, hverifying, hs'⟩ := verified_some h
  have hawaits : refresh.stage.isSettled = false := by rw [hverifying]; rfl
  rw [hs']
  unfold ConfigurationClient.afterVerify
  split
  · refine hI.advance hrefresh hawaits (fun _ => rfl) hI.tagged ?_ (fun _ _ => rfl) ?_ ?_
    · intro response' hstage
      rcases hstage with hstage | ⟨body, hstage⟩ <;> cases hstage
    · intro result hstage
      cases hstage
    · intro result publications hstage
      cases hstage
  · next value hvalue =>
    have ⟨envelope, hverified, htag, hsnapshot⟩ := verifySnapshot_ok_iff.mp hvalue
    have hversion : isSha256Text envelope.bundle.version = true :=
      (verifyBundleEnvelope_valid hverified).bundle.version.2
    have ⟨hok, _, a, ha, hresponse⟩ :=
      hI.read operation refresh response hrefresh (.inr ⟨body, hverifying⟩)
    refine hI.advance hrefresh hawaits (fun hstage => by cases hstage) ?_ ?_
      (fun error hstage => by cases hstage) ?_ ?_
    · intro object hobject
      rw [← Option.some.inj hobject, hsnapshot]
      exact ⟨rfl, hversion⟩
    · intro response' hstage
      rcases hstage with hstage | ⟨body, hstage⟩ <;> cases hstage
    · intro result hstage
      rw [← Except.ok.inj (Stage.settled.inj hstage)]
      exact ⟨⟨a, ha⟩, rfl⟩
    · intro result publications hstage hanswer
      have hhandler : a = .handler publications := Option.some.inj (ha.symm.trans hanswer)
      rw [hresponse, hhandler] at hok htag
      rw [← Except.ok.inj (Stage.settled.inj hstage), hsnapshot]
      exact hI.success hversion hok htag

theorem Invariant.step (hI : Invariant G s) {action : Action}
    (h : step P G trustedKeys s action = some s') : Invariant G s' := by
  cases action with
  | publish envelope =>
    have ⟨snapshot, hsnapshot, hs'⟩ := publish_some h
    rw [hs']
    exact hI.publish (newSnapshot_etag hsnapshot)
  | refresh signal =>
    rw [← Option.some.inj h]
    exact hI.refresh signal
  | handle operation =>
    exact hI.answer (fun publications hn => (Answer.handler.inj hn).symm) h
  | intercept operation response => exact hI.answer (fun _ hn => by cases hn) h
  | fetched operation => exact hI.fetched h
  | fetchFailed operation message => exact hI.fetchFailed h
  | bodyRead operation received => exact hI.bodyRead h
  | verified operation now => exact hI.verified h
  | clearInFlight operation =>
    have ⟨refresh, result, hrefresh, hsettled, hs'⟩ := clearInFlight_some h
    rw [hs']
    exact hI.clearInFlight hrefresh (by rw [hsettled]; rfl)

theorem invariant_of_reachable (h : (machine P G trustedKeys).Reachable s) : Invariant G s :=
  h.invariant (fun _ hs => hs ▸ invariant_initial) fun _ _ _ hI hs => hI.step hs

/-! ## What changes the snapshot -/

/-- The snapshot changes in one statement only. -/
theorem snapshot_changed {action : Action} (h : step P G trustedKeys s action = some s')
    (hchanged : s'.client.snapshot ≠ s.client.snapshot) :
    ∃ operation now refresh response body value, action = .verified operation now ∧
      s.refresh operation = some refresh ∧ refresh.stage = .verifying response body ∧
      verifySnapshot P trustedKeys response body now = .ok value ∧
      s'.client.snapshot = some { createdBy := operation, value } := by
  cases action with
  | publish envelope =>
    have ⟨_, _, hs'⟩ := publish_some h
    rw [hs'] at hchanged
    exact absurd rfl hchanged
  | refresh signal =>
    rw [← Option.some.inj h] at hchanged
    unfold ConfigurationClient.refresh at hchanged
    split at hchanged <;> exact absurd rfl hchanged
  | handle operation =>
    have ⟨_, _, _, _, hs'⟩ := answer_some h
    rw [hs'] at hchanged
    exact absurd rfl hchanged
  | intercept operation response =>
    have ⟨_, _, _, _, hs'⟩ := answer_some h
    rw [hs'] at hchanged
    exact absurd rfl hchanged
  | fetched operation =>
    have ⟨_, _, _, _, _, hs'⟩ := fetched_some h
    rw [hs'] at hchanged
    exact absurd rfl hchanged
  | fetchFailed operation message =>
    have ⟨_, _, _, hs'⟩ := fetchFailed_some h
    rw [hs'] at hchanged
    exact absurd rfl hchanged
  | bodyRead operation received =>
    have ⟨_, _, _, _, hs'⟩ := bodyRead_some h
    rw [hs'] at hchanged
    exact absurd rfl hchanged
  | verified operation now =>
    have ⟨refresh, response, body, hrefresh, hverifying, hs'⟩ := verified_some h
    rw [hs'] at hchanged ⊢
    unfold ConfigurationClient.afterVerify at hchanged ⊢
    split at hchanged
    · exact absurd rfl hchanged
    · next value hvalue =>
      exact ⟨operation, now, refresh, response, body, value, rfl, hrefresh, hverifying, hvalue,
        rfl⟩
  | clearInFlight operation =>
    have ⟨_, _, _, _, hs'⟩ := clearInFlight_some h
    rw [hs'] at hchanged
    unfold ConfigurationClient.clearInFlight at hchanged
    split at hchanged <;> exact absurd rfl hchanged

/-! ## The last known good configuration -/

/-- At most one fetch is in flight, failures change nothing, each snapshot carries the tag of
its bundle, a 304 of the handler confirms the snapshot, and the snapshot changes only to a
verified bundle, which is the body of a successful response with its tag. -/
structure LastKnownGood (P : Platform) (G : Control.GoPlatform) (trustedKeys : TrustedKeyring)
    (s : State) : Prop where
  single : ∀ operation operation' refresh refresh', s.refresh operation = some refresh →
    s.refresh operation' = some refresh' → refresh.stage.isSettled = false →
    refresh'.stage.isSettled = false → operation = operation'
  failed : ∀ operation refresh error, s.refresh operation = some refresh →
    refresh.stage = .settled (.error error) → refresh.after = refresh.before
  tagged : ∀ object, s.client.snapshot = some object →
    object.value.etag = "\"" ++ object.value.bundle.version ++ "\""
  unchanged : ∀ operation refresh object publications, s.refresh operation = some refresh →
    refresh.stage = .settled (.ok { status := .unchanged, snapshot := object }) →
    s.answers operation = some (.handler publications) →
    ∃ current, s.currentAt publications = some current ∧
      current.version = object.value.bundle.version
  changed : ∀ action s', step P G trustedKeys s action = some s' →
    s'.client.snapshot ≠ s.client.snapshot →
    ∃ operation now refresh a body envelope, action = .verified operation now ∧
      s.refresh operation = some refresh ∧ s.answers operation = some a ∧
      refresh.stage = .verifying (s.response refresh.request a) body ∧
      (s.response refresh.request a).body = some body ∧
      (s.response refresh.request a).ok = true ∧
      verifyBundleEnvelope P body trustedKeys = .ok envelope ∧
      (s.response refresh.request a).etag = some ("\"" ++ envelope.bundle.version ++ "\"") ∧
      s'.client.snapshot = some {
        createdBy := operation
        value := {
          bundle := envelope.bundle
          etag := "\"" ++ envelope.bundle.version ++ "\""
          loadedAt := now } }

/-- Every reachable state, whatever overlaps and whatever the network does. -/
theorem last_known_good (P : Platform) (G : Control.GoPlatform) (trustedKeys : TrustedKeyring)
    (s : State) (h : (machine P G trustedKeys).Reachable s) :
    LastKnownGood P G trustedKeys s := by
  have hI := invariant_of_reachable h
  refine ⟨?_, hI.failed, fun object hobject => (hI.tagged object hobject).1, ?_, ?_⟩
  · intro operation operation' refresh refresh' hrefresh hrefresh' hawaits hawaits'
    have hfirst := hI.registered operation refresh hrefresh hawaits
    have hsecond := hI.registered operation' refresh' hrefresh' hawaits'
    exact Option.some.inj (hfirst.symm.trans hsecond)
  · intro operation refresh object publications hrefresh hstage ha
    exact hI.current operation refresh _ publications hrefresh hstage ha
  · intro action s' hs' hchanged
    have ⟨operation, now, refresh, response, body, value, haction, hrefresh, hverifying, hvalue,
      hsnapshot⟩ := snapshot_changed hs' hchanged
    have ⟨hok, hread, a, ha, hresponse⟩ :=
      hI.read operation refresh response hrefresh (.inr ⟨body, hverifying⟩)
    have hbody := hread body hverifying
    have ⟨envelope, hverified, htag, hvalue'⟩ := verifySnapshot_ok_iff.mp hvalue
    rw [hresponse] at hok hbody htag hverifying
    rw [hvalue'] at hsnapshot
    exact ⟨operation, now, refresh, a, body, envelope, haction, hrefresh, ha, hverifying, hbody,
      hok, hverified, htag, hsnapshot⟩

/-! ## A run with another success status -/

namespace Orders

open Delivery.Orders

def request : Request := { ifNoneMatch := none, signal := none }

/-- The signed bundle with the status 203, which a proxy may answer with. -/
def transformed : Response where
  status := 203
  contentType := some "application/json; charset=utf-8"
  etag := some "\"sha256:b998f44b04da1a4a7c3edf69a06de4873b1c19b01b15c3a5929b7cb6eaacfce8\""
  body := some envelope.toJson

/-- The body of the 203 has been read. -/
def verifying : State where
  published := []
  client :=
    { snapshot := none
      refreshInFlight := some 0
      refreshes := [{
        request
        stage := .verifying transformed envelope.toJson
        before := none
        after := none }] }
  answers := Function.update (fun _ => none) 0 (some (.other transformed))

theorem afterFetch_transformed : afterFetch none transformed = .reading transformed := by
  have htype : transformed.contentType.map mediaType = some "application/json" := by
    decide +kernel
  unfold afterFetch
  rw [if_neg (by decide), if_neg (by decide), if_neg (by rw [htype]; simp)]

theorem verifySnapshot_transformed :
    verifySnapshot edgePlatform keyring transformed envelope.toJson 0 = .ok {
      bundle := received.bundle
      etag := "\"sha256:b998f44b04da1a4a7c3edf69a06de4873b1c19b01b15c3a5929b7cb6eaacfce8\""
      loadedAt := 0 } := by
  have htag : "\"sha256:b998f44b04da1a4a7c3edf69a06de4873b1c19b01b15c3a5929b7cb6eaacfce8\"" =
      "\"" ++ received.bundle.version ++ "\"" := by decide
  rw [verifySnapshot_ok_iff, htag]
  exact ⟨received, verify_envelope, congrArg some htag, rfl⟩

theorem reachable_verifying :
    (machine edgePlatform goPlatform keyring).Reachable verifying := by
  refine System.Machine.Reachable.of_run
    [.refresh none, .intercept 0 transformed, .fetched 0, .bodyRead 0 true] (.init rfl) ?_
  have hfetch := afterFetch_transformed
  simp [System.Machine.run, machine, step, answer, initial, State.refresh, State.response,
    ConfigurationClient.refresh, ConfigurationClient.new, ConfigurationClient.refreshOnce,
    ConfigurationClient.advance, afterBody, hfetch, verifying, request]
  rfl

def awaitingVerification : Refresh where
  request
  stage := .verifying transformed envelope.toJson
  before := none
  after := none

theorem step_verified : step edgePlatform goPlatform keyring verifying (.verified 0 0) =
    some { verifying with
      client := verifying.client.afterVerify edgePlatform keyring 0 awaitingVerification
        transformed envelope.toJson 0 } := rfl

theorem snapshot_afterVerify (client : ConfigurationClient) (refresh : Refresh) :
    (client.afterVerify edgePlatform keyring 0 refresh transformed envelope.toJson 0).snapshot =
      some {
        createdBy := 0
        value := {
          bundle := received.bundle
          etag := "\"sha256:b998f44b04da1a4a7c3edf69a06de4873b1c19b01b15c3a5929b7cb6eaacfce8\""
          loadedAt := 0 } } := by
  rw [ConfigurationClient.afterVerify, verifySnapshot_transformed]
  rfl

end Orders

/-- The snapshot also changes on a successful response whose status is not 200. -/
theorem changed_without_200 :
    ¬ ∀ (P : Platform) (G : Control.GoPlatform) (trustedKeys : TrustedKeyring) (s s' : State)
        (action : Action), (machine P G trustedKeys).Reachable s →
      step P G trustedKeys s action = some s' → s'.client.snapshot ≠ s.client.snapshot →
      ∃ operation now refresh a, action = .verified operation now ∧
        s.refresh operation = some refresh ∧ s.answers operation = some a ∧
        (s.response refresh.request a).status = 200 := by
  intro hall
  obtain ⟨operation, now, refresh, a, haction, hrefresh, ha, hstatus⟩ :=
    hall Orders.edgePlatform Orders.goPlatform Orders.keyring Orders.verifying _
      (.verified 0 0) Orders.reachable_verifying Orders.step_verified (by
        rw [Orders.snapshot_afterVerify]
        exact nofun)
  have hoperation : 0 = operation := (Action.verified.inj haction).1
  subst hoperation
  have hother : a = .other Orders.transformed := (Option.some.inj ha).symm
  rw [hother] at hstatus
  have hwrong : 203 = 200 := hstatus
  exact absurd hwrong (by decide)

/-- The bundle of a 203 is about to be installed. -/
theorem last_known_good_orders :
    LastKnownGood Orders.edgePlatform Orders.goPlatform Orders.keyring Orders.verifying :=
  last_known_good _ _ _ _ Orders.reachable_verifying

end Exchange
end ShieldWard.Delivery
