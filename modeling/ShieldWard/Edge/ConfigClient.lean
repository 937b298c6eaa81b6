import ShieldWard.Edge.Verify

/-!
# The configuration client

`edge/src/config-client.ts`. A call of `#refreshOnce` is a record with the stage that it has
reached: each stage but the last ends at an await, and the functions below are the statements
from one await to the next. A promise of the source is the place of its call in the list of
calls, so the calls that share a promise share the place.
-/

namespace ShieldWard.Edge

open Ecma

structure ConfigurationSnapshot where
  bundle : Bundle
  etag : String
  loadedAt : Number

/-- A frozen snapshot. Each refresh creates at most one, so the refresh that created it is its
identity. -/
structure SnapshotObject where
  createdBy : ℕ
  value : ConfigurationSnapshot

inductive RefreshStatus
  | updated
  | unchanged
deriving DecidableEq

structure RefreshResult where
  status : RefreshStatus
  snapshot : SnapshotObject

/-- What a refresh rejects with: a `ConfigurationClientError`, or an error of the
verification. -/
inductive RefreshError
  | client (message : String)
  | bundle (error : BundleError)

/-- What varies in the request: its `If-None-Match` header and its signal. -/
structure Request where
  ifNoneMatch : Option String
  signal : Option ℕ

/-- What the client reads of a response; `body` is `none` when it is not JSON. -/
structure Response where
  status : ℕ
  contentType : Option String
  etag : Option String
  body : Option Json

/-- `response.ok`. -/
def Response.ok (response : Response) : Bool := 200 ≤ response.status && response.status ≤ 299

/-- Where a call of `#refreshOnce` stands. -/
inductive Stage
  /-- Awaits the fetch. -/
  | fetching
  /-- Awaits `response.json()`. -/
  | reading (response : Response)
  /-- Awaits `verifyBundleEnvelope(body, ..)`. -/
  | verifying (response : Response) (body : Json)
  | settled (result : Except RefreshError RefreshResult)

def Stage.isSettled : Stage → Bool
  | .settled _ => true
  | _ => false

/-- A call of `#refreshOnce`, with the snapshots at its start and at its last statement as
history. -/
structure Refresh where
  request : Request
  stage : Stage
  before : Option SnapshotObject
  after : Option SnapshotObject

structure ConfigurationClient where
  snapshot : Option SnapshotObject
  /-- The promise of `#refreshInFlight`. -/
  refreshInFlight : Option ℕ
  /-- The calls so far, oldest first. -/
  refreshes : List Refresh

namespace ConfigurationClient

/-- The check of the constructor on the base URL. The constructor of `ConfigurationSynchronizer`
makes the same. -/
def checkBaseUrl (P : Platform) (baseUrl : String) : Except String Url :=
  match P.parseUrl baseUrl with
  | none => .error "control-plane base URL is invalid"
  | some url =>
    if url.protocol ≠ "http:" ∧ url.protocol ≠ "https:" then
      .error "control-plane base URL must use HTTP or HTTPS"
    else .ok url

/-- A client whose options have passed the constructor. -/
def new : ConfigurationClient := { snapshot := none, refreshInFlight := none, refreshes := [] }

/-- `#refreshOnce` up to its fetch. -/
def refreshOnce (client : ConfigurationClient) (signal : Option ℕ) : Refresh :=
  { request := { ifNoneMatch := client.snapshot.map (·.value.etag), signal }
    stage := .fetching
    before := client.snapshot
    after := client.snapshot }

/-- `refresh`: the promise that it returns, and the client after the call. -/
def refresh (client : ConfigurationClient) (signal : Option ℕ) : ℕ × ConfigurationClient :=
  match client.refreshInFlight with
  | some operation => (operation, client)
  | none =>
    let operation := client.refreshes.length
    (operation, { client with
      refreshInFlight := some operation
      refreshes := client.refreshes ++ [client.refreshOnce signal] })

/-- The reaction to the settled promise. -/
def clearInFlight (client : ConfigurationClient) (operation : ℕ) : ConfigurationClient :=
  if client.refreshInFlight = some operation then { client with refreshInFlight := none }
  else client

end ConfigurationClient

def failed (message : String) : Stage := .settled (.error (.client message))

/-- The media type of a content type. A header value is a byte string and is compared with an
ASCII text, so only ASCII letters need to change case. -/
def mediaType (contentType : String) : String :=
  let first := String.ofList (contentType.toList.takeWhile (· ≠ ';'))
  String.ofList ((trim first).toList.map Char.toLower)

/-- After a rejected fetch. -/
def afterFetchError (message : String) : Stage := failed ("fetch bundle: " ++ message)

/-- From the fetch to `response.json()`. -/
def afterFetch (snapshot : Option SnapshotObject) (response : Response) : Stage :=
  if response.status = 304 then
    match snapshot with
    | none => failed "control plane returned 304 before a bundle was loaded"
    | some snapshot => .settled (.ok { status := .unchanged, snapshot })
  else if !response.ok then
    failed ("control plane returned HTTP " ++ toString response.status)
  else if response.contentType.map mediaType ≠ some "application/json" then
    failed "control plane returned a non-JSON bundle"
  else .reading response

/-- From `response.json()` to the verification; `body` is `none` when it rejects. -/
def afterBody (response : Response) (body : Option Json) : Stage :=
  match body with
  | none => failed "control plane returned invalid JSON"
  | some body => .verifying response body

/-- The verification and the checks of the entity tag. -/
def verifySnapshot (P : Platform) (trustedKeys : TrustedKeyring) (response : Response)
    (body : Json) (now : Number) : Except RefreshError ConfigurationSnapshot :=
  match verifyBundleEnvelope P body trustedKeys with
  | .error error => .error (.bundle error)
  | .ok verified =>
    let missing := RefreshError.client "control plane response is missing an ETag"
    match response.etag with
    | none => .error missing
    | some etag =>
      if isBlank etag then .error missing
      else if etag ≠ "\"" ++ verified.bundle.version ++ "\"" then
        .error (.client "control-plane ETag does not match the bundle version")
      else .ok { bundle := verified.bundle, etag, loadedAt := now }

namespace ConfigurationClient

/-- Moves a call to its next stage. -/
def advance (client : ConfigurationClient) (operation : ℕ) (refresh : Refresh) (stage : Stage) :
    ConfigurationClient :=
  { client with
    refreshes := client.refreshes.set operation { refresh with stage, after := client.snapshot } }

/-- The verification and what follows it: the assignment of the snapshot, or the rejection. -/
def afterVerify (P : Platform) (trustedKeys : TrustedKeyring) (client : ConfigurationClient)
    (operation : ℕ) (refresh : Refresh) (response : Response) (body : Json) (now : Number) :
    ConfigurationClient :=
  match verifySnapshot P trustedKeys response body now with
  | .error error => client.advance operation refresh (.settled (.error error))
  | .ok value =>
    let snapshot := { createdBy := operation, value }
    { client with snapshot := some snapshot }.advance operation refresh
      (.settled (.ok { status := .updated, snapshot }))

end ConfigurationClient

/-- A snapshot is taken exactly from a verified envelope whose quoted version is the entity
tag. -/
theorem verifySnapshot_ok_iff {P : Platform} {trustedKeys : TrustedKeyring} {response : Response}
    {body : Json} {now : Number} {value : ConfigurationSnapshot} :
    verifySnapshot P trustedKeys response body now = .ok value ↔
      ∃ envelope, verifyBundleEnvelope P body trustedKeys = .ok envelope ∧
        response.etag = some ("\"" ++ envelope.bundle.version ++ "\"") ∧
        value = {
          bundle := envelope.bundle
          etag := "\"" ++ envelope.bundle.version ++ "\""
          loadedAt := now } := by
  unfold verifySnapshot
  refine ⟨fun h => ?_, fun h => ?_⟩
  · split at h
    · cases h
    · next verified hverified =>
      simp only at h
      split at h
      · cases h
      · next etag hetag =>
        split_ifs at h with hblank hdiffers
        have hsame := not_not.mp hdiffers
        have hvalue := (Except.ok.inj h).symm
        rw [hsame] at hvalue
        exact ⟨verified, hverified, hetag.trans (congrArg some hsame), hvalue⟩
  · rcases h with ⟨envelope, hverified, hetag, hvalue⟩
    have hblank : isBlank ("\"" ++ envelope.bundle.version ++ "\"") = false := by
      rw [Bool.eq_false_iff]
      intro hblank
      have hquote := isBlank_iff.mp hblank '"' (by simp)
      exact absurd hquote (by decide)
    simp only [hverified, hetag, hblank, Bool.false_eq_true, if_false, ne_eq, not_true_eq_false,
      hvalue]

/-- Only a successful response is read further. -/
theorem afterFetch_reading {snapshot : Option SnapshotObject} {response response' : Response}
    (h : afterFetch snapshot response = .reading response') :
    response' = response ∧ response.ok = true := by
  unfold afterFetch failed at h
  split_ifs at h with h₁ h₂ h₃
  · split at h <;> cases h
  · refine ⟨(Stage.reading.inj h).symm, ?_⟩
    simpa using h₂

/-- Nothing is verified before it is read. -/
theorem afterFetch_ne_verifying {snapshot : Option SnapshotObject} {response response' : Response}
    {body : Json} : afterFetch snapshot response ≠ .verifying response' body := by
  intro h
  unfold afterFetch failed at h
  split_ifs at h
  split at h <;> cases h

/-- Right after the fetch a refresh succeeds only with the snapshot that is current, on a
304. -/
theorem afterFetch_settled_ok {snapshot : Option SnapshotObject} {response : Response}
    {result : RefreshResult} (h : afterFetch snapshot response = .settled (.ok result)) :
    response.status = 304 ∧ result.status = .unchanged ∧ snapshot = some result.snapshot := by
  unfold afterFetch failed at h
  split_ifs at h with h₁ h₂ h₃
  · split at h
    · cases h
    · next current =>
      have hresult := Except.ok.inj (Stage.settled.inj h)
      subst hresult
      exact ⟨h₁, rfl, rfl⟩
  all_goals cases h

end ShieldWard.Edge
