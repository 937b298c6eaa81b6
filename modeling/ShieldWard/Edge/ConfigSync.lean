import ShieldWard.Edge.ConfigClient

/-!
# The synchronizer's event loop

`#processEvents` of `edge/src/config-sync.ts`, one event at a time: the statements up to the
await of the refresh, and those after it.
-/

namespace ShieldWard.Edge

/-- What the observer of errors is given. -/
inductive SyncError
  | sync (message : String)
  | refresh (error : RefreshError)

/-- A decoded event; `data` is `none` when it is not JSON. -/
structure ServerSentEvent where
  event : String
  data : Option Json

def parseBundleEventVersion (data : Option Json) : Except SyncError String :=
  match data with
  | none => .error (.sync "bundle event contains invalid JSON")
  | some (.object [("version", version)]) =>
    match version with
    | .string version =>
      if isSha256Text version then .ok version
      else .error (.sync "bundle event version has an invalid format")
    | _ => .error (.sync "bundle event version has an invalid format")
  | some (.object _) => .error (.sync "bundle event payload has unsupported fields")
  | some _ => .error (.sync "bundle event payload must be an object")

/-- Where the loop stands with an event. -/
inductive EventStage
  | skipped
  /-- Awaits the refresh. -/
  | awaiting (operation : ℕ)
  /-- Handled; no error was reported. -/
  | finished
  | reported (error : SyncError)

/-- The `catch` of the loop: an error is reported unless the session has been stopped. -/
def caught (aborted : Bool) (error : SyncError) : EventStage :=
  if aborted then .finished else .reported error

/-- An iteration up to its await, and the client after it. -/
def processEvent (aborted : Bool) (signal : ℕ) (client : ConfigurationClient)
    (event : ServerSentEvent) : EventStage × ConfigurationClient :=
  if aborted || event.event ≠ "bundle" then (.skipped, client)
  else
    match parseBundleEventVersion event.data with
    | .error error => (caught aborted error, client)
    | .ok announcedVersion =>
      let currentVersion := client.snapshot.map (·.value.bundle.version)
      if some announcedVersion ≠ currentVersion then
        let (operation, client) := client.refresh (some signal)
        (.awaiting operation, client)
      else (.finished, client)

/-- An iteration after its await. -/
def afterRefresh (aborted : Bool) : Except RefreshError RefreshResult → EventStage
  | .ok _ => .finished
  | .error error => caught aborted (.refresh error)

/-- A version is accepted as it was announced. -/
theorem parseBundleEventVersion_ok {version announced : String}
    (h : parseBundleEventVersion (some (.object [("version", .string version)])) = .ok announced) :
    announced = version := by
  unfold parseBundleEventVersion at h
  simp only at h
  split_ifs at h
  exact (Except.ok.inj h).symm

end ShieldWard.Edge
