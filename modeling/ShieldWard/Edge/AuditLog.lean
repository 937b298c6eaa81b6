import ShieldWard.Edge.SettledCalls
import ShieldWard.Lib.JsonStringify

/-!
# The audit log

`edge/src/audit.ts`: one line of JSON for each event. The calls of the gateway write their records
and the application its system events, in the order in which the steps of a run come. Whoever reads
the log finds the records of the calls, and each answered call among them.
-/

namespace ShieldWard.Edge

open Ecma Json

/-! ## Lines -/

def SecurityAuditOutcome.text : SecurityAuditOutcome → String
  | .allowed => "allowed"
  | .denied => "denied"
  | .error => "error"

inductive TlsAuditOutcome
  | updated
  | error

def TlsAuditOutcome.text : TlsAuditOutcome → String
  | .updated => "updated"
  | .error => "error"

/-- The texts of the reasons are the only free part of a record about TLS. -/
inductive TlsAuditReason
  | listenerTlsReloaded
  | listenerTlsReloadFailed
  | controlPlaneClientTlsReloaded
  | controlPlaneClientTlsReloadFailed

def TlsAuditReason.text : TlsAuditReason → String
  | .listenerTlsReloaded => "listener_tls_reloaded"
  | .listenerTlsReloadFailed => "listener_tls_reload_failed"
  | .controlPlaneClientTlsReloaded => "control_plane_client_tls_reloaded"
  | .controlPlaneClientTlsReloadFailed => "control_plane_client_tls_reload_failed"

/-- The two kinds of events that belong to no request. -/
inductive SecuritySystemAuditRecord
  | configurationSync
  | tls (outcome : TlsAuditOutcome) (reason : TlsAuditReason)

def SecuritySystemAuditRecord.component : SecuritySystemAuditRecord → String
  | .configurationSync => "configuration_sync"
  | .tls _ _ => "tls"

def SecuritySystemAuditRecord.outcome : SecuritySystemAuditRecord → String
  | .configurationSync => "error"
  | .tls outcome _ => outcome.text

def SecuritySystemAuditRecord.reason : SecuritySystemAuditRecord → String
  | .configurationSync => "configuration_sync_failed"
  | .tls _ reason => reason.text

/-- The numbers of a record. -/
def SecurityAuditRecord.numbers (event : SecurityAuditRecord) : List Number :=
  (event.status : Number) :: event.durationMs :: event.upstreamStatus.toList.map (↑)

/-- An event with the text of its time. -/
inductive AuditEntry
  | request (timestamp : String) (event : SecurityAuditRecord)
  | system (timestamp : String) (event : SecuritySystemAuditRecord)

namespace AuditEntry

/-- The members of a record about a request after the common ones; a field without a value is left
out. -/
def requestFields (event : SecurityAuditRecord) : Fields :=
  [("requestId", .string event.requestId), ("method", .string event.method),
    ("path", .string event.path), ("outcome", .string event.outcome.text),
    ("status", .number event.status), ("durationMs", .number event.durationMs)] ++
  optionalField "policyVersion" Json.string event.policyVersion ++
  optionalField "routeId" Json.string event.routeId ++
  optionalField "reason" Json.string event.reason ++
  optionalField "upstreamStatus" (fun status : ℕ => .number status) event.upstreamStatus

def systemFields (event : SecuritySystemAuditRecord) : Fields :=
  [("component", .string event.component), ("outcome", .string event.outcome),
    ("reason", .string event.reason)]

/-- The object of `record` and of `recordSystem`. -/
def toJson : AuditEntry → Json
  | .request timestamp event =>
    .object ([("type", .string "security_request"), ("schemaVersion", .number 1),
      ("timestamp", .string timestamp)] ++ requestFields event)
  | .system timestamp event =>
    .object ([("type", .string "security_system"), ("schemaVersion", .number 1),
      ("timestamp", .string timestamp)] ++ systemFields event)

/-- A line of the log: the text of the entry and a line feed. -/
def line (numberText : Number → String) (entry : AuditEntry) : Text :=
  stringify numberText entry.toJson

/-- The numbers of an entry, its schema version apart. -/
def numbers : AuditEntry → List Number
  | .request _ event => event.numbers
  | .system _ _ => []

/-- The event of a request. -/
def record? : AuditEntry → Option SecurityAuditRecord
  | .request _ event => some event
  | .system _ _ => none

theorem legible_toJson {p : Number → Prop} {entry : AuditEntry} (hversion : p 1)
    (hnumbers : ∀ n ∈ entry.numbers, p n) : Legible p entry.toJson := by
  cases entry with
  | request timestamp event =>
    obtain ⟨requestId, method, path, outcome, status, durationMs, policyVersion, routeId, reason,
      upstreamStatus⟩ := event
    simp only [numbers, SecurityAuditRecord.numbers, List.forall_mem_cons] at hnumbers
    obtain ⟨hstatus, hduration, hupstream⟩ := hnumbers
    refine .object ?_ ?_
    · cases policyVersion <;> cases routeId <;> cases reason <;> cases upstreamStatus <;>
        simp [requestFields, optionalField]
    · have hoptional : ∀ key (text : Option String), ∀ field ∈ optionalField key Json.string text,
          Legible p field.2 := by
        intro key text field hfield
        cases text with
        | none => cases hfield
        | some text =>
          rw [List.mem_singleton.mp hfield]
          exact .string text
      intro field hfield
      simp only [requestFields, List.mem_append] at hfield
      rcases hfield with hhead | ((((hfields | hfield) | hfield) | hfield) | hfield)
      · simp only [List.mem_cons, List.not_mem_nil, or_false] at hhead
        rcases hhead with rfl | rfl | rfl
        · exact .string _
        · exact .number hversion
        · exact .string _
      · simp only [List.mem_cons, List.not_mem_nil, or_false] at hfields
        rcases hfields with rfl | rfl | rfl | rfl | rfl | rfl
        · exact .string _
        · exact .string _
        · exact .string _
        · exact .string _
        · exact .number hstatus
        · exact .number hduration
      · exact hoptional _ _ field hfield
      · exact hoptional _ _ field hfield
      · exact hoptional _ _ field hfield
      · cases upstreamStatus with
        | none => cases hfield
        | some upstreamStatus =>
          rw [List.mem_singleton.mp hfield]
          exact .number (hupstream _ (by simp))
  | system timestamp event =>
    refine .object (by simp [systemFields]) ?_
    intro field hfield
    simp only [systemFields, List.cons_append, List.nil_append, List.mem_cons, List.not_mem_nil,
      or_false] at hfield
    rcases hfield with rfl | rfl | rfl | rfl | rfl | rfl
    · exact .string _
    · exact .number hversion
    all_goals exact .string _

/-! ## Reading the log -/

/-- The reader of the log, the inverse of the writer member by member. -/
def asString : Json → Option String
  | .string s => some s
  | _ => none

def asNumber : Json → Option Number
  | .number n => some n
  | _ => none

/-- A status is read back from its number. -/
def asStatus (value : Json) : Option ℕ :=
  (asNumber value).bind fun n => if (n.num.toNat : Number) = n then some n.num.toNat else none

def asOutcome : Json → Option SecurityAuditOutcome
  | .string "allowed" => some .allowed
  | .string "denied" => some .denied
  | .string "error" => some .error
  | _ => none

/-- The event of a line of type `security_request`. -/
def readRequest (fields : Fields) : Option SecurityAuditRecord := do
  let requestId ← (fields.lookup "requestId").bind asString
  let method ← (fields.lookup "method").bind asString
  let path ← (fields.lookup "path").bind asString
  let outcome ← (fields.lookup "outcome").bind asOutcome
  let status ← (fields.lookup "status").bind asStatus
  let durationMs ← (fields.lookup "durationMs").bind asNumber
  return { requestId, method, path, outcome, status, durationMs
           policyVersion := (fields.lookup "policyVersion").bind asString
           routeId := (fields.lookup "routeId").bind asString
           reason := (fields.lookup "reason").bind asString
           upstreamStatus := (fields.lookup "upstreamStatus").bind asStatus }

def asTlsOutcome : Json → Option TlsAuditOutcome
  | .string "updated" => some .updated
  | .string "error" => some .error
  | _ => none

def asTlsReason : Json → Option TlsAuditReason
  | .string "listener_tls_reloaded" => some .listenerTlsReloaded
  | .string "listener_tls_reload_failed" => some .listenerTlsReloadFailed
  | .string "control_plane_client_tls_reloaded" => some .controlPlaneClientTlsReloaded
  | .string "control_plane_client_tls_reload_failed" => some .controlPlaneClientTlsReloadFailed
  | _ => none

/-- The event of a line of type `security_system`. -/
def readSystem (fields : Fields) : Option SecuritySystemAuditRecord := do
  let component ← (fields.lookup "component").bind asString
  if component = "configuration_sync" then some .configurationSync
  else if component = "tls" then
    let outcome ← (fields.lookup "outcome").bind asTlsOutcome
    let reason ← (fields.lookup "reason").bind asTlsReason
    return .tls outcome reason
  else none

/-- The type of a line decides which members it has. -/
def ofJson : Json → Option AuditEntry
  | .object fields => do
    let type ← (fields.lookup "type").bind asString
    let timestamp ← (fields.lookup "timestamp").bind asString
    if type = "security_request" then (readRequest fields).map (.request timestamp)
    else if type = "security_system" then (readSystem fields).map (.system timestamp)
    else none
  | _ => none

/-- A natural number survives the way through the JSON number. -/
theorem asStatus_natCast (status : ℕ) : asStatus (.number status) = some status := by
  simp [asStatus, asNumber]

theorem lookup_optionalField {α : Type} (key key' : String) (toJson : α → Json) (a : Option α) :
    (optionalField key toJson a).lookup key' = if key' = key then a.map toJson else none := by
  cases a with
  | none => simp [optionalField]
  | some a => by_cases h : key' = key <;> simp [optionalField, h]

theorem bind_asString (text : Option String) : (text.map Json.string).bind asString = text := by
  cases text <;> rfl

theorem bind_asStatus (status : Option ℕ) :
    (status.map fun status : ℕ => Json.number status).bind asStatus = status := by
  cases status with
  | none => rfl
  | some status => exact asStatus_natCast status

/-- What is read of a record about a request is the record, with the members that were left out. -/
theorem readRequest_requestFields (timestamp : String) (event : SecurityAuditRecord) :
    readRequest ([("type", .string "security_request"), ("schemaVersion", .number 1),
      ("timestamp", .string timestamp)] ++ requestFields event) = some event := by
  have houtcome : asOutcome (.string event.outcome.text) = some event.outcome := by
    cases event.outcome <;> rfl
  simp [requestFields, readRequest, List.lookup_append, List.lookup_cons, lookup_optionalField,
    asString, asNumber, houtcome, asStatus_natCast, bind_asString, bind_asStatus]

/-- Reading an entry back gives the entry. -/
theorem ofJson_toJson (entry : AuditEntry) : ofJson entry.toJson = some entry := by
  cases entry with
  | request timestamp event =>
    have hread := readRequest_requestFields timestamp event
    show (readRequest _).map _ = _
    rw [hread]
    rfl
  | system timestamp event =>
    cases event with
    | configurationSync => rfl
    | tls outcome reason => cases outcome <;> cases reason <;> rfl

/-- `JSON.parse` of a line, its numbers rounded to doubles. -/
def readLine (round : Number → Number) (line : Text) : Option AuditEntry :=
  ((Json.parse line).map (mapNumbers round)).bind ofJson

/-- The text of a line is parsed to its entry, whatever the texts in the record contain. -/
theorem readLine_line {numberText : Number → String} {round : Number → Number}
    {entry : AuditEntry} (hversion : ReadsBack numberText round 1)
    (hnumbers : ∀ n ∈ entry.numbers, ReadsBack numberText round n) :
    readLine round (entry.line numberText) = some entry := by
  have hlegible := legible_toJson hversion hnumbers
  rw [readLine, line, parse_stringify hlegible]
  exact ofJson_toJson entry

end AuditEntry

/-- The log of some entries: `console.log` ends each line. -/
def auditLog (numberText : Number → String) (entries : List AuditEntry) : Text :=
  joinLines (entries.map (AuditEntry.line numberText))

/-- The entries of the lines of a log. -/
def readLog (round : Number → Number) (log : Text) : Option (List AuditEntry) :=
  ((log.splitOn 0x0a).dropLast).mapM (AuditEntry.readLine round)

/-- A log is read back entry by entry. -/
theorem readLog_auditLog {numberText : Number → String} {round : Number → Number}
    {entries : List AuditEntry} (hversion : ReadsBack numberText round 1)
    (hnumbers : ∀ entry ∈ entries, ∀ n ∈ entry.numbers, ReadsBack numberText round n) :
    readLog round (auditLog numberText entries) = some entries := by
  have hlines : ∀ line ∈ entries.map (AuditEntry.line numberText), OneLine line := by
    intro line hline
    obtain ⟨entry, hentry, rfl⟩ := List.mem_map.mp hline
    exact oneLine_stringify (AuditEntry.legible_toJson hversion (hnumbers entry hentry))
  rw [readLog, auditLog, splitOn_joinLines hlines, List.dropLast_concat]
  clear hlines
  induction entries with
  | nil => rfl
  | cons entry entries ih =>
    obtain ⟨hentry, hothers⟩ := List.forall_mem_cons.mp hnumbers
    rw [List.map_cons, List.mapM_cons, AuditEntry.readLine_line hversion hentry, ih hothers]
    rfl

/-! ## The log of a run -/

variable {P : Platform}

/-- The gateway with the log, and the calls of `record` and `recordSystem` so far. -/
structure AuditedState (P : Platform) where
  gateway : GatewayState P
  entries : List AuditEntry
  log : Text

/-- A step of the gateway, or an event of the system that is recorded. -/
inductive AuditedAction
  | gateway (timestamp : String) (action : GatewayAction)
  | system (timestamp : String) (event : SecuritySystemAuditRecord)

/-- The records of a call of the gateway. -/
def GatewayState.recordsOf (s : GatewayState P) (index : ℕ) : List SecurityAuditRecord :=
  (s.calls[index]?).elim [] (·.history.records)

/-- The records of all calls. -/
def GatewayState.records (s : GatewayState P) : List SecurityAuditRecord :=
  s.calls.flatMap (·.history.records)

/-- What the logger has been called with in a step. -/
def recordsWritten (s s' : GatewayState P) : GatewayAction → List SecurityAuditRecord
  | .handle _ _ _ _ => s'.recordsOf s.calls.length
  | .turn index _ => (s'.recordsOf index).drop (s.recordsOf index).length
  | .beginDrain | .waitForIdle | .install _ => []

namespace AuditedState

/-- The lines of some calls of the logger. -/
def write (s : AuditedState P) (gateway : GatewayState P) (entries : List AuditEntry) :
    AuditedState P where
  gateway := gateway
  entries := s.entries ++ entries
  log := s.log ++ auditLog P.numberText entries

/-- A step of the gateway appends the records that the step has added. -/
def step (trustedKeys : TrustedKeyring) (s : AuditedState P) :
    AuditedAction → Option (AuditedState P)
  | .gateway timestamp action =>
    (Gateway.step trustedKeys s.gateway action).map fun gateway =>
      s.write gateway ((recordsWritten s.gateway gateway action).map (.request timestamp))
  | .system timestamp event => some (s.write s.gateway [.system timestamp event])

def machine (P : Platform) (options : GatewayOptions) (trustedKeys : TrustedKeyring) :
    System.Machine (AuditedState P) AuditedAction where
  init s := (Gateway.machine P options trustedKeys).init s.gateway ∧ s.entries = [] ∧ s.log = []
  step := step trustedKeys

end AuditedState

/-! ## Whose record it is -/

theorem Headers.get_set_self (headers : Headers) (name value : String) :
    (headers.set name value).get name = some value := by
  have hbefore : (headers.takeWhile fun header => !hasName name header).filter (hasName name) =
      [] := by
    apply List.filter_eq_nil_iff.mpr
    intro header hheader
    simpa using List.mem_takeWhile_imp hheader
  have hdelete : ∀ after : Headers, (after.delete name).filter (hasName name) = [] := by
    intro after
    apply List.filter_eq_nil_iff.mpr
    intro header hheader
    simpa using (List.mem_filter.mp hheader).2
  have hvalues : (headers.set name value).values name = [value] := by
    unfold set values
    rw [List.span_eq_takeWhile_dropWhile]
    cases hafter : headers.dropWhile fun header => !hasName name header with
    | nil =>
      have hset : hasName name (name, value) = true := by simp [hasName]
      simp [hbefore, hset]
    | cons header after =>
      have hname : hasName name header = true := by
        have hnot := List.head?_dropWhile_not (fun header => !hasName name header) headers
        rw [hafter] at hnot
        simpa using hnot
      have hset : hasName name (header.1, value) = true := hname
      simp [hbefore, hset, hdelete]
  rw [get, hvalues]
  rfl

/-- What a record says of the request. -/
structure Names (P : Platform) (arrival : Arrival) (record : SecurityAuditRecord) : Prop where
  requestId : record.requestId = arrival.requestId
  method : record.method = P.toUpperCase arrival.request.method
  path : record.path = arrival.request.url.pathname

/-- The response carries the request ID. -/
def Carries (arrival : Arrival) (response : ClientResponse) : Prop :=
  response.headers.get "x-request-id" = some (normalizeHeaderValue arrival.requestId)

/-- Part of a call adds records of its own, and when it answers, the answer has its request ID. -/
structure Adds (t t' : Turn P) : Prop where
  arrival : t'.call.arrival = t.call.arrival
  records : ∃ new, t'.call.history.records = t.call.history.records ++ new ∧
    ∀ record ∈ new, Names P t.call.arrival record
  response : ∀ response, t'.call.stage = .responded response →
    t.call.stage = .responded response ∨ Carries t.call.arrival response

namespace Adds

variable {t t' t'' : Turn P}

/-- A step that leaves the records alone and does not respond adds nothing. -/
theorem of_same (harrival : t'.call.arrival = t.call.arrival)
    (hrecords : t'.call.history.records = t.call.history.records)
    (hstage : ∀ response, t'.call.stage = .responded response →
      t.call.stage = .responded response) : Adds t t' :=
  ⟨harrival, ⟨[], by rw [hrecords, List.append_nil], by simp⟩, fun response h =>
    .inl (hstage response h)⟩

/-- Parts of a call in a row add their records in a row. -/
theorem trans (h : Adds t t') (h' : Adds t' t'') : Adds t t'' := by
  obtain ⟨new, hnew, hnames⟩ := h.records
  obtain ⟨new', hnew', hnames'⟩ := h'.records
  refine ⟨h'.arrival.trans h.arrival, ⟨new ++ new', ?_, ?_⟩, ?_⟩
  · rw [hnew', hnew, List.append_assoc]
  · intro record hrecord
    rcases List.mem_append.mp hrecord with hrecord | hrecord
    · exact hnames record hrecord
    · exact h.arrival ▸ hnames' record hrecord
  · intro response hresponse
    rcases h'.response response hresponse with hbefore | hcarries
    · exact h.response response hbefore
    · exact .inr (h.arrival ▸ hcarries)

end Adds

namespace Turn

variable (t : Turn P)

theorem adds_releaseRequest : Adds t t.releaseRequest := by
  obtain ⟨_, _, _, _, _, heq⟩ := t.releaseRequest_eq
  rw [heq]
  exact .of_same rfl rfl fun _ h => h

theorem adds_reject : Adds t t.reject := by
  obtain ⟨_, _, _, _, _, heq⟩ := t.reject_eq
  rw [heq]
  refine .of_same rfl rfl fun response h => ?_
  cases h

/-- What `#complete` gives is answered. -/
theorem adds_complete {t₁ : Turn P} {now : Number} {response response' : ClientResponse}
    {completion : AuditCompletion} (h : t.complete now response completion = some (t₁, response')) :
    Adds t (t₁.respond response') := by
  obtain ⟨_, _, _, _, _, _, heq⟩ := t₁.respond_eq response'
  rw [heq]
  simp only [complete] at h
  split at h
  · cases h
  · obtain ⟨rfl, rfl⟩ := Prod.mk.inj (Option.some.inj h)
    refine ⟨rfl, ⟨[_], rfl, ?_⟩, ?_⟩
    · intro record hrecord
      rw [List.mem_singleton.mp hrecord]
      exact ⟨rfl, rfl, rfl⟩
    · intro answered hanswered
      rw [← CallStage.responded.inj hanswered]
      exact .inr (Headers.get_set_self _ _ _)

/-- The one place where a record is written: the end of a call with a response. -/
theorem adds_finish (now : Number) (response : ClientResponse) (completion : AuditCompletion) :
    Adds t (t.finish now response completion) := by
  unfold finish
  split
  · exact t.adds_reject
  · next h => exact t.adds_complete h

theorem adds_settle (settlement : UpstreamSettlement) : Adds t (t.settle settlement) :=
  .of_same rfl rfl fun _ h => h

theorem adds_completePermit (permit : CircuitBreakerPermit) (completion : Completion)
    (now : Number) : Adds t (t.completePermit permit completion now).1 :=
  .of_same rfl rfl fun _ h => h

theorem adds_catchUpstream (route : CompiledRoute) (permit : CircuitBreakerPermit)
    (timedOut : Bool) (now : Clocks) : Adds t (t.catchUpstream route permit timedOut now) := by
  unfold catchUpstream
  apply (t.adds_settle (.failed t.call.aborted)).trans
  simp only
  split
  · exact (adds_completePermit _ _ _ _).trans (adds_reject _)
  · apply (adds_completePermit _ permit .failure now.date).trans
    split
    · exact adds_finish _ _ _ _
    · exact adds_finish _ _ _ _

theorem adds_respondUpstream (route : CompiledRoute) (permit : CircuitBreakerPermit)
    (response : UpstreamResponse) (now : Clocks) :
    Adds t (t.respondUpstream route permit response now) := by
  unfold respondUpstream
  simp only
  split
  · next h => exact t.adds_complete h
  · exact t.adds_catchUpstream route permit false now

theorem adds_afterFetch (route : CompiledRoute) (permit : CircuitBreakerPermit)
    (outcome : UpstreamOutcome) (now : Clocks) :
    Adds t (t.afterFetch route permit outcome now) := by
  unfold afterFetch
  split
  · exact t.adds_catchUpstream route permit _ now
  · split
    · exact t.adds_catchUpstream route permit _ now
    · next response _ =>
      apply (t.adds_settle (.answered response.status)).trans
      exact (adds_completePermit _ _ _ _).trans (adds_respondUpstream _ _ _ _ _)

theorem adds_sendUpstream (route : CompiledRoute) (permit : CircuitBreakerPermit)
    (body : BufferedBody) (now : Clocks) : Adds t (t.sendUpstream route permit body now) := by
  unfold sendUpstream
  simp only
  split
  · exact t.adds_catchUpstream route permit _ now
  · refine .of_same rfl rfl fun response h => ?_
    cases h

theorem adds_refuse (circuitBreaker : UpstreamCircuitBreaker) : Adds t (t.refuse circuitBreaker) :=
  .of_same rfl rfl fun _ h => h

theorem adds_grant (circuitBreaker : UpstreamCircuitBreaker) (upstream : String)
    (permit : CircuitBreakerPermit) : Adds t (t.grant circuitBreaker upstream permit) :=
  .of_same rfl rfl fun _ h => h

theorem adds_afterEvaluation (body : BufferedBody) (decision : PolicyDecision) (now : Clocks) :
    Adds t (t.afterEvaluation body decision now) := by
  unfold afterEvaluation
  split
  · exact t.adds_finish _ _ _
  · split
    · exact t.adds_finish _ _ _
    · split
      · exact (t.adds_refuse _).trans (adds_finish _ _ _ _)
      · exact (t.adds_grant _ _ _).trans (adds_sendUpstream _ _ _ _ _)

/-- An evaluation does not end a call by itself. -/
theorem evaluated_ne_responded (body : BufferedBody) (evaluation : Evaluation)
    (response : ClientResponse) : evaluated body evaluation ≠ .responded response := by
  unfold evaluated
  split <;> exact fun h => nomatch h

theorem adds_evaluate (body : BufferedBody) : Adds t (t.evaluate body) := by
  unfold evaluate
  refine .of_same rfl rfl fun response h => ?_
  simp only at h
  split at h
  · cases h
  · exact absurd h (evaluated_ne_responded _ _ _)

theorem adds_startEvaluation (stream : BodyStream) (now : Number) :
    Adds t (t.startEvaluation stream now) := by
  unfold startEvaluation
  split
  · exact t.adds_finish _ _ _
  · exact t.adds_finish _ _ _
  · exact t.adds_evaluate _

theorem adds_pulled (wrapped : WrappedBody) (outcome : ReadOutcome) :
    Adds t (t.pulled wrapped outcome) := by
  have hended : ∀ t' : Turn P, Adds t t' → ∀ wrapped,
      Adds t { t' with call := { t'.call with wrapped } } :=
    fun t' h wrapped => h.trans (.of_same rfl rfl fun _ h => h)
  unfold pulled
  simp only
  split
  · apply hended
    split
    · exact t.adds_releaseRequest
    · exact t.adds_releaseRequest.trans (adds_releaseRequest _)
  · exact hended _ t.adds_releaseRequest _
  · split
    · exact .of_same rfl rfl fun _ h => h
    · exact hended _ t.adds_releaseRequest _

/-- Every step of a call. -/
theorem adds_step {t' : Turn P} {action : CallAction} (h : t.step action = some t') :
    Adds t t' := by
  cases action with
  | bodyRead stream now =>
    simp only [step] at h
    split at h
    · rw [← Option.some.inj h]
      exact t.adds_startEvaluation stream now
    · cases h
  | verified outcome =>
    simp only [step] at h
    split at h
    · rw [← Option.some.inj h]
      exact .of_same rfl rfl fun _ h => absurd h (evaluated_ne_responded _ _ _)
    · cases h
  | checked outcome =>
    simp only [step] at h
    split at h
    · rw [← Option.some.inj h]
      exact .of_same rfl rfl fun _ h => absurd h (evaluated_ne_responded _ _ _)
    · cases h
  | proceed now =>
    simp only [step] at h
    split at h
    · rw [← Option.some.inj h]
      have hdecide : ∀ decision, Adds t (t.decide decision) := fun decision =>
        .of_same rfl rfl fun _ h => h
      exact (hdecide _).trans (adds_afterEvaluation _ _ _ _)
    · rw [← Option.some.inj h]
      exact t.adds_finish _ _ _
    · cases h
  | fetched outcome now =>
    simp only [step] at h
    split at h
    · rw [← Option.some.inj h]
      exact t.adds_afterFetch _ _ outcome now
    · cases h
  | abort =>
    rw [← Option.some.inj h]
    exact .of_same rfl rfl fun _ h => h
  | pull =>
    obtain ⟨wrapped, _, hnext⟩ := Option.bind_eq_some_iff.mp h
    split at hnext
    · rw [← Option.some.inj hnext]
      exact .of_same rfl rfl fun _ h => h
    · cases hnext
  | pulled outcome =>
    obtain ⟨wrapped, _, hnext⟩ := Option.bind_eq_some_iff.mp h
    split at hnext
    · rw [← Option.some.inj hnext]
      exact t.adds_pulled wrapped outcome
    · cases hnext
  | cancel =>
    obtain ⟨wrapped, _, hnext⟩ := Option.bind_eq_some_iff.mp h
    split at hnext
    · rw [← Option.some.inj hnext]
      exact .of_same rfl rfl fun _ h => h
    · cases hnext
  | canceled =>
    obtain ⟨wrapped, _, hnext⟩ := Option.bind_eq_some_iff.mp h
    split at hnext
    · rw [← Option.some.inj hnext]
      have hrelease := t.adds_releaseRequest
      exact hrelease.trans (.of_same rfl rfl fun _ h => h)
    · cases hnext

end Turn

/-- The records of a call are about its request, and its response carries the request ID. -/
structure Attributed (P : Platform) (call : Call) : Prop where
  records : ∀ record ∈ call.history.records, Names P call.arrival record
  response : ∀ response, call.stage = .responded response → Carries call.arrival response

theorem Attributed.adds {t t' : Turn P} (h : Attributed P t.call) (hadds : Adds t t') :
    Attributed P t'.call := by
  obtain ⟨new, hnew, hnames⟩ := hadds.records
  refine ⟨?_, ?_⟩
  · intro record hrecord
    rw [hnew] at hrecord
    rw [hadds.arrival]
    rcases List.mem_append.mp hrecord with hrecord | hrecord
    · exact h.records record hrecord
    · exact hnames record hrecord
  · intro response hresponse
    rw [hadds.arrival]
    rcases hadds.response response hresponse with hbefore | hcarries
    · exact h.response response hbefore
    · exact hcarries

/-- A call that has just arrived has no record to attribute. -/
theorem attributed_new {call : Call} (hhistory : call.history = .new)
    (hstage : call.stage = .readingBody) : Attributed P call := by
  refine ⟨?_, ?_⟩
  · rw [hhistory]
    intro record hrecord
    cases hrecord
  · rw [hstage]
    intro response hresponse
    cases hresponse

theorem attributed_handle (gateway : Gateway P) (request : IncomingRequest)
    (clientIp : Option String) (requestId : String) (now : Number) (sinceDrain : Bool) :
    Attributed P (gateway.handle request clientIp requestId now sinceDrain).call := by
  unfold Gateway.handle
  simp only
  split
  · apply Attributed.adds _ (Turn.adds_finish _ _ _ _)
    exact attributed_new rfl rfl
  · apply Attributed.adds _ (Turn.adds_finish _ _ _ _)
    exact attributed_new rfl rfl
  · exact attributed_new rfl rfl

/-! ## Steps -/

/-- An item of a list that gains something of its own. -/
theorem perm_flatMap_set {α β : Type} {f : α → List β} {xs : List α} {index : ℕ} {x y : α}
    {new : List β} (hx : xs[index]? = some x) (hy : f y = f x ++ new) :
    ((xs.set index y).flatMap f).Perm (xs.flatMap f ++ new) := by
  induction xs generalizing index with
  | nil => cases hx
  | cons head xs ih =>
    cases index with
    | zero =>
      rw [← Option.some.inj hx] at hy
      rw [List.set_cons_zero, List.flatMap_cons, List.flatMap_cons, hy, List.append_assoc,
        List.append_assoc]
      exact List.perm_append_comm.append_left (f head)
    | succ index =>
      rw [List.set_cons_succ, List.flatMap_cons, List.flatMap_cons, List.append_assoc]
      exact (ih hx).append_left (f head)

section

variable {options : GatewayOptions} {trustedKeys : TrustedKeyring}

/-- The records of the calls after a step are those before it and those that it has written. -/
theorem perm_records_of_step {s s' : GatewayState P} {action : GatewayAction}
    (h : Gateway.step trustedKeys s action = some s') :
    s'.records.Perm (s.records ++ recordsWritten s s' action) := by
  cases action with
  | handle request clientIp requestId now =>
    rw [← Option.some.inj h]
    simp [GatewayState.records, recordsWritten, GatewayState.recordsOf]
  | turn index action =>
    obtain ⟨call, hcall, hnext⟩ := Option.bind_eq_some_iff.mp h
    obtain ⟨t, ht, heq⟩ := Option.bind_eq_some_iff.mp hnext
    obtain ⟨new, hnew, _⟩ := (Turn.adds_step _ ht).records
    have hindex : index < s.calls.length := (List.getElem?_eq_some_iff.mp hcall).1
    have hwritten : recordsWritten s s' (.turn index action) = new := by
      rw [← Option.some.inj heq]
      simp only [recordsWritten, GatewayState.recordsOf, hcall, List.getElem?_set_self hindex]
      show t.call.history.records.drop call.history.records.length = new
      rw [hnew, List.drop_left]
    rw [hwritten, ← Option.some.inj heq]
    exact perm_flatMap_set hcall hnew
  | beginDrain =>
    rw [← Option.some.inj h]
    exact .of_eq (List.append_nil _).symm
  | waitForIdle =>
    rw [← Option.some.inj h]
    exact .of_eq (List.append_nil _).symm
  | install value =>
    simp only [Gateway.step] at h
    split at h
    · cases h
    · rw [← Option.some.inj h]
      exact .of_eq (List.append_nil _).symm

/-- In every reachable state each record is attributed to its call. -/
theorem attributed_of_reachable {s : GatewayState P}
    (h : (Gateway.machine P options trustedKeys).Reachable s) :
    ∀ call ∈ s.calls, Attributed P call := by
  refine h.invariant (I := fun s => ∀ call ∈ s.calls, Attributed P call) ?_ ?_
  · rintro s ⟨gateway, _, rfl⟩ call hcall
    cases hcall
  · intro s action s' hI hstep
    cases action with
    | handle request clientIp requestId now =>
      rw [← Option.some.inj hstep]
      intro call hcall
      rcases List.mem_append.mp hcall with hcall | hcall
      · exact hI call hcall
      · rw [List.mem_singleton.mp hcall]
        exact attributed_handle _ _ _ _ _ _
    | turn index action =>
      obtain ⟨call, hcall, hnext⟩ := Option.bind_eq_some_iff.mp hstep
      obtain ⟨t, ht, heq⟩ := Option.bind_eq_some_iff.mp hnext
      rw [← Option.some.inj heq]
      intro other hother
      rcases List.mem_or_eq_of_mem_set hother with hother | rfl
      · exact hI other hother
      · have hbefore := hI call (List.mem_of_getElem? hcall)
        exact Attributed.adds hbefore (Turn.adds_step _ ht)
    | beginDrain =>
      rw [← Option.some.inj hstep]
      exact hI
    | waitForIdle =>
      rw [← Option.some.inj hstep]
      exact hI
    | install value =>
      simp only [Gateway.machine, Gateway.step] at hstep
      split at hstep
      · cases hstep
      · rw [← Option.some.inj hstep]
        exact hI

/-! ## Runs -/

/-- The log grows at its end. -/
theorem auditLog_append (numberText : Number → String) (entries entries' : List AuditEntry) :
    auditLog numberText (entries ++ entries') =
      auditLog numberText entries ++ auditLog numberText entries' := by
  rw [auditLog, auditLog, auditLog, List.map_append]
  exact List.flatMap_append

/-- The log has the lines of the entries, whose requests are the records of the calls. -/
structure Accounted (options : GatewayOptions) (trustedKeys : TrustedKeyring)
    (s : AuditedState P) : Prop where
  gateway : (Gateway.machine P options trustedKeys).Reachable s.gateway
  log : s.log = auditLog P.numberText s.entries
  requests : (s.entries.filterMap AuditEntry.record?).Perm s.gateway.records

theorem filterMap_record?_request (timestamp : String) (events : List SecurityAuditRecord) :
    (events.map (AuditEntry.request timestamp)).filterMap AuditEntry.record? = events := by
  rw [List.filterMap_map]
  exact List.filterMap_some

/-- A step appends to the log what it adds to the records of the calls, in the same order. -/
theorem Accounted.step {s s' : AuditedState P} {action : AuditedAction}
    (h : Accounted options trustedKeys s)
    (hstep : AuditedState.step trustedKeys s action = some s') :
    Accounted options trustedKeys s' := by
  have hlog : ∀ gateway entries, (s.write gateway entries).log =
      auditLog P.numberText (s.write gateway entries).entries := by
    intro gateway entries
    show s.log ++ _ = auditLog P.numberText (s.entries ++ entries)
    rw [auditLog_append, h.log]
  cases action with
  | gateway timestamp action =>
    obtain ⟨gateway, hgateway, rfl⟩ := Option.map_eq_some_iff.mp hstep
    refine ⟨h.gateway.next hgateway, hlog _ _, ?_⟩
    show (List.filterMap _ (s.entries ++ _)).Perm gateway.records
    rw [List.filterMap_append, filterMap_record?_request]
    exact (h.requests.append_right _).trans (perm_records_of_step hgateway).symm
  | system timestamp event =>
    rw [← Option.some.inj hstep]
    refine ⟨h.gateway, hlog _ _, ?_⟩
    show (List.filterMap _ (s.entries ++ [.system timestamp event])).Perm s.gateway.records
    rw [List.filterMap_append]
    exact (List.append_nil _).symm ▸ h.requests

theorem accounted_of_reachable {s : AuditedState P}
    (h : (AuditedState.machine P options trustedKeys).Reachable s) :
    Accounted options trustedKeys s := by
  refine h.invariant (I := Accounted options trustedKeys) ?_ ?_
  · rintro s ⟨hgateway, hentries, hlog⟩
    refine ⟨.init hgateway, ?_, ?_⟩
    · rw [hlog, hentries]
      rfl
    · obtain ⟨gateway, _, heq⟩ := hgateway
      rw [heq, hentries]
      exact .nil
  · intro s action s' hI hstep
    exact hI.step hstep

/-- Whoever reads the log of a run finds what the logger has been called with, in this order, and
of the requests exactly the records of the calls. An answered call has one: its request ID is also
in the response, and its method, its path and its status are those of the call. Any other call has
none. -/
theorem log_accounts {s : AuditedState P} {round : Number → Number}
    (h : (AuditedState.machine P options trustedKeys).Reachable s)
    (hversion : ReadsBack P.numberText round 1)
    (hnumbers : ∀ event ∈ s.gateway.records, ∀ n ∈ event.numbers,
      ReadsBack P.numberText round n) :
    readLog round s.log = some s.entries ∧
    (s.entries.filterMap AuditEntry.record?).Perm s.gateway.records ∧
    ∀ call ∈ s.gateway.calls,
      (∀ response, call.stage = .responded response → Carries call.arrival response ∧
        ∃ record, call.history.records = [record] ∧ Names P call.arrival record ∧
          record.status = response.status) ∧
      ((∀ response, call.stage ≠ .responded response) → call.history.records = []) := by
  have haccounted := accounted_of_reachable h
  refine ⟨?_, haccounted.requests, ?_⟩
  · rw [haccounted.log]
    apply readLog_auditLog hversion
    intro entry hentry n hn
    cases entry with
    | request timestamp event =>
      have hevent : event ∈ s.entries.filterMap AuditEntry.record? :=
        List.mem_filterMap.mpr ⟨_, hentry, rfl⟩
      exact hnumbers event (haccounted.requests.mem_iff.mp hevent) n hn
    | system timestamp event => cases hn
  · intro call hcall
    have hattributed := attributed_of_reachable haccounted.gateway call hcall
    have horderly := orderly_of_reachable haccounted.gateway call hcall
    unfold Orderly at horderly
    refine ⟨?_, ?_⟩
    · intro response hstage
      rw [hstage] at horderly
      obtain ⟨record, _, hrecords, _, _, _, hstatus⟩ := horderly.1
      refine ⟨hattributed.response response hstage, record, hrecords, ?_, hstatus⟩
      exact hattributed.records record (hrecords ▸ List.mem_singleton.mpr rfl)
    · intro hnone
      cases hstage : call.stage with
      | responded response => exact absurd hstage (hnone response)
      | rejected =>
        rw [hstage] at horderly
        exact horderly.1.1
      | readingBody | evaluating | decided | undecided | fetching =>
        rw [hstage] at horderly
        exact horderly.1.records

end

/-! ## The log of two requests -/

namespace Orders

open Delivery.Orders

/-- A platform that writes whole numbers. -/
def logging : Platform := { platform with numberText := fun n => toString n.num.toNat }

/-- An edge that has no bundle yet and writes its log. -/
def unconfigured : AuditedState logging where
  gateway := Gateway.initial {
    configuration := none
    policyEvaluator := .new
    maxRequestBodyBytes := 1048576
    upstreamTimeoutMs := 10000
    admissionGate := { maximum := 1024, active := 0, accepting := true, idleWaiters := [],
                       promises := [] }
    circuitBreaker := .create 5 30000 1024
    metrics := .new }
  entries := []
  log := []

/-- Two requests overlap before there is a policy, while its retrieval fails. -/
def overlapping : List AuditedAction :=
  [.system "2026-01-01T00:00:00.000Z" .configurationSync,
    .gateway "" (.handle (request "/v1/orders/42" printable_order) none "request-1" 0),
    .gateway "" (.handle (request "/v1/orders/42" printable_order) none "request-2" 1),
    .gateway "" (.turn 0 (.bodyRead body 3)), .gateway "" (.turn 1 (.bodyRead body 3)),
    .gateway "2026-01-01T00:00:01.000Z" (.turn 1 (.proceed { performance := 5, date := 5 })),
    .gateway "2026-01-01T00:00:02.000Z" (.turn 0 (.proceed { performance := 6, date := 6 }))]

theorem init_unconfigured :
    (AuditedState.machine logging options keyring).init unconfigured := by
  have hbody : (Gateway.DEFAULT_MAX_REQUEST_BODY_BYTES).num.toNat = 1048576 := by decide +kernel
  have hbounds : ¬(!isSafeInteger Gateway.DEFAULT_MAX_REQUEST_BODY_BYTES ||
      decide (Gateway.DEFAULT_MAX_REQUEST_BODY_BYTES ≤ 0)) = true := by decide +kernel
  refine ⟨⟨unconfigured.gateway.gateway, ?_, rfl⟩, rfl, rfl⟩
  refine Except.bind_eq_ok_iff.mpr ⟨unconfigured.gateway.gateway.admissionGate, rfl,
    Except.bind_eq_ok_iff.mpr ⟨unconfigured.gateway.gateway.circuitBreaker, rfl, ?_⟩⟩
  show (if (!isSafeInteger Gateway.DEFAULT_MAX_REQUEST_BODY_BYTES ||
    decide (Gateway.DEFAULT_MAX_REQUEST_BODY_BYTES ≤ 0)) = true then _ else _) = _
  rw [if_neg hbounds]
  show Except.ok { unconfigured.gateway.gateway with
    maxRequestBodyBytes := Gateway.DEFAULT_MAX_REQUEST_BODY_BYTES.num.toNat } = _
  rw [hbody]
  rfl

/-- A decimal numeral without a leading zero is read back as its value. -/
theorem reads_digits {n first : ℕ} {digits : Text}
    (htext : utf16 (toString n) = first :: digits) (hfirst : first ≠ 0x30)
    (hdigits : ∀ unit ∈ first :: digits, isDigitUnit unit = true)
    (hvalue : natOfDigits (first :: digits) = n) : ReadsBack logging.numberText id (n : Number) :=
  readsBack_natCast htext hfirst hdigits hvalue rfl

theorem reads_one : ReadsBack logging.numberText id 1 := by
  exact_mod_cast reads_digits (n := 1) rfl (by decide) (by decide) rfl

theorem reads_unavailable : ReadsBack logging.numberText id 503 := by
  exact_mod_cast reads_digits (n := 503) rfl (by decide) (by decide) rfl

theorem reads_six : ReadsBack logging.numberText id 6 := by
  exact_mod_cast reads_digits (n := 6) rfl (by decide) (by decide) rfl

theorem reads_four : ReadsBack logging.numberText id 4 := by
  exact_mod_cast reads_digits (n := 4) rfl (by decide) (by decide) rfl

theorem log_accounts_overlapping :
    ∃ s, (AuditedState.machine logging options keyring).run unconfigured overlapping = some s ∧
      s.entries.length = 3 ∧ readLog id s.log = some s.entries := by
  have hrun : ((AuditedState.machine logging options keyring).run unconfigured overlapping).map
      (fun s => (s.entries.length, s.gateway.records.map (·.numbers))) =
        some (3, [[503, 6], [503, 4]]) := by
    decide +kernel
  obtain ⟨s, hs, hvalues⟩ := Option.map_eq_some_iff.mp hrun
  obtain ⟨hlength, hrecords⟩ := Prod.mk.inj hvalues
  refine ⟨s, hs, hlength, ?_⟩
  have hreachable := System.Machine.Reachable.of_run overlapping (.init init_unconfigured) hs
  apply (log_accounts hreachable reads_one _).1
  intro event hevent n hn
  have hmem : event.numbers ∈ [[503, 6], [503, 4]] := hrecords ▸ List.mem_map_of_mem hevent
  simp only [List.mem_cons, List.not_mem_nil, or_false] at hmem
  rcases hmem with heq | heq
  · rw [heq] at hn
    rcases List.mem_pair.mp hn with rfl | rfl
    · exact reads_unavailable
    · exact reads_six
  · rw [heq] at hn
    rcases List.mem_pair.mp hn with rfl | rfl
    · exact reads_unavailable
    · exact reads_four

end Orders

end ShieldWard.Edge
