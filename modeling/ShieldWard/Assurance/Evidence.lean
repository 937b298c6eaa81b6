import ShieldWard.Lib.Json
import ShieldWard.Lib.Fallible
import Mathlib.Data.List.Infix

/-!
# Evidence of recurring production assurance

The artifacts that `scripts/new-production-assurance-recurring-evidence.ps1` writes and
`scripts/test-production-assurance-recurring-evidence.ps1` reads, and what both scripts derive
from a review and its predecessor: whether the review was on time, its outcome, the action that
follows, and the text whose digest is recorded. The two scripts derive these with the same
statements, from what an operator enters in one and from what an artifact records in the other.
-/

namespace ShieldWard.Assurance

/-- An instant, in ticks of 100 nanoseconds. -/
abbrev Time := ℤ

def minutes (n : ℤ) : ℤ := n * 600000000

def hours (n : ℤ) : ℤ := n * 36000000000

/-! ## The artifact

A property is what its cast in the scripts makes of it: nothing where it is missing or cannot be
cast, in which case reading it throws. -/

structure PreviousContinuityEvidence where
  evidenceType : Option String
  relativePath : Option String
  sha256 : Option String
  integrityDigest : Option String
  collectedAtUtc : Option Time
  reviewSequence : Option ℤ
  outcome : Option String
  continuityProven : Option Bool

structure Candidate where
  version : Option String
  sourceTag : Option String
  controlPlaneImage : Option String
  edgeImage : Option String
  policyVersion : Option String

structure Review where
  sequence : Option ℤ
  previousSequence : Option ℤ
  executionStatus : Option String
  expectedDueAtUtc : Option Time
  completedAtUtc : Option Time
  completionGraceMinutes : Option ℤ
  onTime : Option Bool
  maxPreviousEvidenceAgeHours : Option ℤ
  maxReviewAgeMinutes : Option ℤ

structure Schedule where
  status : Option String
  monitoringCoverage : Option String
  reviewIntervalMinutes : Option ℤ
  nextReviewDueAtUtc : Option Time

structure Traffic where
  expectedPercent : Option ℤ
  observedPercent : Option ℤ
  matchesPrevious : Option Bool
  enforcementStatus : Option String
  externallyEnforced : Option Bool
  mutationPercentagePoints : Option ℤ

structure Signals where
  errorBudget : Option String
  alerts : Option String
  functional : Option String
  dependencies : Option String
  operations : Option String
  capacity : Option String
  security : Option String

structure Drift where
  images : Option String
  policy : Option String
  configuration : Option String
  identity : Option String
  certificates : Option String
  routing : Option String

structure Rollback where
  targetPercent : Option ℤ
  emergencyTargetPercent : Option ℤ
  authority : Option String
  procedureReference : Option String
  retentionStatus : Option String

structure ExternalEvidence where
  previousContinuityGateReference : Option String
  scheduledReviewReference : Option String
  trafficStateReference : Option String
  monitoringEvidenceReference : Option String
  driftEvidenceReference : Option String
  rollbackRetentionReference : Option String
  reviewedBy : Option String

structure Decision where
  monitoringContinues : Option Bool
  continuityLinkValid : Option Bool
  continuityProven : Option Bool
  nextAction : Option String

structure Evidence where
  schemaVersion : Option ℤ
  environment : Option String
  evidenceType : Option String
  outcome : Option String
  collectedAtUtc : Option Time
  productionContext : Option String
  namespaceName : Option String
  incidentId : Option String
  closureChangeId : Option String
  previousContinuityEvidence : PreviousContinuityEvidence
  candidate : Candidate
  review : Review
  schedule : Schedule
  traffic : Traffic
  signals : Signals
  drift : Drift
  rollback : Rollback
  externalEvidence : ExternalEvidence
  decision : Decision
  integrityDigest : Option String

/-! ## What the scripts run on -/

/-- The arguments that a validation hands to the validation of the predecessor. -/
structure ValidationArguments where
  expectedProductionContext : String
  checkCluster : Bool
  referenceTimeUtc : String

/-- PowerShell, .NET, and the validator of scheduled artifacts. -/
structure Shell where
  /-- A text up to the case of its letters: the comparisons of PowerShell do not see it. -/
  ignoreCase : String → String
  /-- For printable ASCII; cultural comparisons pass over some control characters. -/
  ignoreCase_ascii : ∀ s : String, (∀ c ∈ s.toList, 32 ≤ c.toNat ∧ c.toNat < 127) →
    ignoreCase s = String.ofList (s.toList.map Char.toLower)
  /-- `GetFullPath` of a rooted path, or of the path joined to the root of the repository. -/
  getFullPath : String → Option String
  getFullPath_full : ∀ {path full : String}, getFullPath path = some full →
    getFullPath full = some full
  localStatePrefix : String
  /-- `GetRelativePath` from the root of the repository, with forward slashes. -/
  getRelativePath : String → String
  /-- The path of a review's artifact in a directory. -/
  evidencePath : String → Time → ℤ → String
  /-- `ConvertFrom-Json` and the casts of the properties. -/
  convertFromJson : Bytes → Option Evidence
  /-- The content of the file that an artifact is written to. -/
  convertToJson : Evidence → Bytes
  /-- The compressed JSON text that the digest is taken of, in UTF-8. -/
  integrityText : List (String × Json) → Bytes
  sha256 : Bytes → Bytes
  /-- `ToString('o')`: it writes every tick. -/
  roundTrip : Time → String
  /-- The cast to `[DateTimeOffset]`. -/
  parseTime : String → Option Time
  /-- `test-production-assurance-continuity-evidence.ps1`. -/
  testScheduledEvidence : ValidationArguments → String → Except String Unit

/-- The files by their full paths. -/
abbrev Files := String → Option Bytes

namespace Shell

variable (S : Shell)

/-- `-eq` on texts. -/
def same (a b : String) : Bool := S.ignoreCase a == S.ignoreCase b

/-- A recorded text is the expected one. -/
def records (recorded : Option String) (expected : String) : Bool := recorded.any (S.same · expected)

/-- `-contains`. -/
def contains (texts : List String) (text : String) : Bool := texts.any (S.same · text)

/-- `Get-FileHash`, and `Get-Sha256Text` on the bytes of its text. -/
def hash (bytes : Bytes) : String := Bytes.hex (S.sha256 bytes)

@[simp] theorem same_refl (a : String) : S.same a a = true := beq_self_eq_true _

@[simp] theorem records_some (a b : String) : S.records (some a) b = S.same a b := rfl

variable {S}

theorem same_iff {a b : String} : S.same a b = true ↔ S.ignoreCase a = S.ignoreCase b := beq_iff_eq

theorem same_symm {a b : String} (h : S.same a b = true) : S.same b a = true :=
  same_iff.mpr (same_iff.mp h).symm

theorem same_trans {a b c : String} (h : S.same a b = true) (h' : S.same b c = true) :
    S.same a c = true :=
  same_iff.mpr ((same_iff.mp h).trans (same_iff.mp h'))

theorem records_iff {recorded : Option String} {expected : String} :
    S.records recorded expected = true ↔ ∃ text, recorded = some text ∧ S.same text expected = true := by
  cases recorded <;> simp [records]

theorem ascii_of_all {s : String}
    (h : s.toList.all (fun c => 32 ≤ c.toNat ∧ c.toNat < 127) = true) :
    ∀ c ∈ s.toList, 32 ≤ c.toNat ∧ c.toNat < 127 :=
  fun c hc => of_decide_eq_true (List.all_eq_true.mp h c hc)

/-- Texts of printable ASCII characters are the same when their lower-case forms are. -/
theorem same_ascii {a b : String} (ha : ∀ c ∈ a.toList, 32 ≤ c.toNat ∧ c.toNat < 127)
    (hb : ∀ c ∈ b.toList, 32 ≤ c.toNat ∧ c.toNat < 127) :
    S.same a b = true ↔ a.toList.map Char.toLower = b.toList.map Char.toLower := by
  rw [same_iff, S.ignoreCase_ascii a ha, S.ignoreCase_ascii b hb, String.ofList_inj]

end Shell

/-! ## Checks -/

/-- A statement that throws unless a condition holds. -/
def require (condition : Bool) (message : String) : Except String Unit :=
  if condition then .ok () else .error message

/-- A property read: it throws where there is nothing. -/
def property {α : Type} : Option α → Except String α
  | some value => .ok value
  | none => .error "The property cannot be found on this object."

@[simp] theorem require_eq_ok {condition : Bool} {message : String} {done : Unit} :
    require condition message = .ok done ↔ condition = true := by
  unfold require
  split <;> simp [*]

@[simp] theorem property_eq_ok {α : Type} {value : Option α} {a : α} :
    property value = .ok a ↔ value = some a := by
  cases value <;> simp [property]

/-- `[string]::IsNullOrWhiteSpace`. -/
def isBlank (s : String) : Bool :=
  s.toList.all fun c =>
    let n := c.toNat
    (0x09 ≤ n && n ≤ 0x0d) || n = 0x20 || n = 0x85 || n = 0xa0 || n = 0x1680 ||
      (0x2000 ≤ n && n ≤ 0x200a) || n = 0x2028 || n = 0x2029 || n = 0x202f || n = 0x205f ||
      n = 0x3000

def resolveLocalStatePath (S : Shell) (path description : String) : Except String String := do
  require (!isBlank path) (description ++ " must not be empty.")
  let resolved ← property (S.getFullPath path)
  require ((S.ignoreCase S.localStatePrefix).toList.isPrefixOf (S.ignoreCase resolved).toList)
    (description ++ " must be beneath the ignored .shieldward directory.")
  return resolved

theorem resolveLocalStatePath_eq_ok {S : Shell} {path description resolved : String} :
    resolveLocalStatePath S path description = .ok resolved ↔
      isBlank path = false ∧ S.getFullPath path = some resolved ∧
        (S.ignoreCase S.localStatePrefix).toList.isPrefixOf (S.ignoreCase resolved).toList =
          true := by
  simp only [resolveLocalStatePath, Except.bind_eq_ok_iff, property_eq_ok, require_eq_ok,
    Bool.not_eq_true']
  constructor
  · rintro ⟨_, hblank, full, hfull, _, hprefix, h⟩
    obtain rfl := Except.ok.inj h
    exact ⟨hblank, hfull, hprefix⟩
  · rintro ⟨hblank, hfull, hprefix⟩
    exact ⟨(), hblank, resolved, hfull, (), hprefix, rfl⟩

/-- A resolved path resolves to itself or not at all. -/
theorem resolveLocalStatePath_resolved {S : Shell} {path description resolved resolved' : String}
    {description' : String} (h : resolveLocalStatePath S path description = .ok resolved)
    (h' : resolveLocalStatePath S resolved description' = .ok resolved') : resolved' = resolved := by
  have hfull := S.getFullPath_full (resolveLocalStatePath_eq_ok.mp h).2.1
  rw [(resolveLocalStatePath_eq_ok.mp h').2.1] at hfull
  exact Option.some.inj hfull

def assertEvidenceReference (value description : String) : Except String Unit :=
  require (!(isBlank value || 256 < Ecma.length value || value.toList.any (·.toNat < 0x20) ||
      decide ("REPLACE".toList <:+: value.toList.map Char.toUpper)))
    (description ++ " must be a non-placeholder value of at most 256 characters without " ++
      "control characters.")

/-- The reference time of a run that starts at a time of the clock. -/
def referenceTime (S : Shell) (arguments : ValidationArguments) (utcNow : Time) :
    Except String Time :=
  if isBlank arguments.referenceTimeUtc then .ok utcNow
  else do
    require (S.same arguments.expectedProductionContext "production-contract")
      "ReferenceTimeUtc is available only to the synthetic production-contract test context."
    property (S.parseTime arguments.referenceTimeUtc)

/-! ## What both scripts derive -/

/-- The properties of a predecessor that both scripts read. -/
structure Predecessor where
  integrityDigest : String
  collectedAt : Time
  sequence : ℤ
  completedAt : Time
  outcome : String
  monitoringContinues : Bool
  continuityProven : Bool
  nextAction : String
  incidentId : String
  closureChangeId : String
  version : String
  sourceTag : String
  controlPlaneImage : String
  edgeImage : String
  policyVersion : String
  observedPercent : ℤ
  targetPercent : ℤ
  emergencyTargetPercent : ℤ
  authority : String
  procedureReference : String
  reviewIntervalMinutes : ℤ
  nextReviewDueAt : Time

def Evidence.predecessor (previous : Evidence) : Except String Predecessor := do
  return {
    integrityDigest := ← property previous.integrityDigest
    collectedAt := ← property previous.collectedAtUtc
    sequence := ← property previous.review.sequence
    completedAt := ← property previous.review.completedAtUtc
    outcome := ← property previous.outcome
    monitoringContinues := ← property previous.decision.monitoringContinues
    continuityProven := ← property previous.decision.continuityProven
    nextAction := ← property previous.decision.nextAction
    incidentId := ← property previous.incidentId
    closureChangeId := ← property previous.closureChangeId
    version := ← property previous.candidate.version
    sourceTag := ← property previous.candidate.sourceTag
    controlPlaneImage := ← property previous.candidate.controlPlaneImage
    edgeImage := ← property previous.candidate.edgeImage
    policyVersion := ← property previous.candidate.policyVersion
    observedPercent := ← property previous.traffic.observedPercent
    targetPercent := ← property previous.rollback.targetPercent
    emergencyTargetPercent := ← property previous.rollback.emergencyTargetPercent
    authority := ← property previous.rollback.authority
    procedureReference := ← property previous.rollback.procedureReference
    reviewIntervalMinutes := ← property previous.schedule.reviewIntervalMinutes
    nextReviewDueAt := ← property previous.schedule.nextReviewDueAtUtc }

/-- The properties of a predecessor stand in its artifact. -/
structure Predecessor.RecordedIn (p : Predecessor) (e : Evidence) : Prop where
  integrityDigest : e.integrityDigest = some p.integrityDigest
  collectedAt : e.collectedAtUtc = some p.collectedAt
  sequence : e.review.sequence = some p.sequence
  completedAt : e.review.completedAtUtc = some p.completedAt
  outcome : e.outcome = some p.outcome
  monitoringContinues : e.decision.monitoringContinues = some p.monitoringContinues
  continuityProven : e.decision.continuityProven = some p.continuityProven
  nextAction : e.decision.nextAction = some p.nextAction
  incidentId : e.incidentId = some p.incidentId
  closureChangeId : e.closureChangeId = some p.closureChangeId
  version : e.candidate.version = some p.version
  sourceTag : e.candidate.sourceTag = some p.sourceTag
  controlPlaneImage : e.candidate.controlPlaneImage = some p.controlPlaneImage
  edgeImage : e.candidate.edgeImage = some p.edgeImage
  policyVersion : e.candidate.policyVersion = some p.policyVersion
  observedPercent : e.traffic.observedPercent = some p.observedPercent
  targetPercent : e.rollback.targetPercent = some p.targetPercent
  emergencyTargetPercent : e.rollback.emergencyTargetPercent = some p.emergencyTargetPercent
  authority : e.rollback.authority = some p.authority
  procedureReference : e.rollback.procedureReference = some p.procedureReference
  reviewIntervalMinutes : e.schedule.reviewIntervalMinutes = some p.reviewIntervalMinutes
  nextReviewDueAt : e.schedule.nextReviewDueAtUtc = some p.nextReviewDueAt

theorem Evidence.predecessor_ok {e : Evidence} {p : Predecessor} (h : e.predecessor = .ok p) :
    p.RecordedIn e := by
  simp only [Evidence.predecessor, Except.bind_eq_ok_iff, property_eq_ok] at h
  obtain ⟨_, h₁, _, h₂, _, h₃, _, h₄, _, h₅, _, h₆, _, h₇, _, h₈, _, h₉, _, h₁₀, _, h₁₁, _, h₁₂,
    _, h₁₃, _, h₁₄, _, h₁₅, _, h₁₆, _, h₁₇, _, h₁₈, _, h₁₉, _, h₂₀, _, h₂₁, _, h₂₂, h⟩ := h
  obtain rfl := Except.ok.inj h
  exact ⟨h₁, h₂, h₃, h₄, h₅, h₆, h₇, h₈, h₉, h₁₀, h₁₁, h₁₂, h₁₃, h₁₄, h₁₅, h₁₆, h₁₇, h₁₈, h₁₉,
    h₂₀, h₂₁, h₂₂⟩

structure Statuses where
  reviewExecution : String
  trafficEnforcement : String
  assuranceSchedule : String
  monitoringCoverage : String
  errorBudget : String
  alerts : String
  functional : String
  dependencies : String
  operations : String
  capacity : String
  security : String
  images : String
  policy : String
  configuration : String
  identity : String
  certificates : String
  routing : String
  rollbackRetention : String

structure References where
  previousContinuityGate : String
  scheduledReview : String
  trafficState : String
  monitoringEvidence : String
  driftEvidence : String
  rollbackRetention : String
  reviewedBy : String

/-- What a review found: the collector has it from its arguments, the validator from the
artifact. -/
structure Findings where
  completedAt : Time
  completionGraceMinutes : ℤ
  observedPercent : ℤ
  statuses : Statuses
  references : References
  maxPreviousEvidenceAgeHours : ℤ
  maxReviewAgeMinutes : ℤ
  collectedAt : Time

structure StatusContract where
  name : String
  actual : String
  allowed : List String

def Statuses.contracts (s : Statuses) : List StatusContract :=
  [⟨"review execution", s.reviewExecution, ["completed", "missed", "unknown"]⟩,
    ⟨"traffic enforcement", s.trafficEnforcement, ["confirmed", "failed", "unknown"]⟩,
    ⟨"assurance schedule", s.assuranceSchedule, ["active", "inactive", "unknown"]⟩,
    ⟨"monitoring coverage", s.monitoringCoverage, ["complete", "incomplete", "unknown"]⟩,
    ⟨"error budget", s.errorBudget, ["within-budget", "exhausted", "unknown"]⟩,
    ⟨"alerts", s.alerts, ["clear", "firing", "unknown"]⟩,
    ⟨"functional checks", s.functional, ["passed", "failed", "unknown"]⟩,
    ⟨"dependencies", s.dependencies, ["healthy", "degraded", "unknown"]⟩,
    ⟨"operations", s.operations, ["healthy", "degraded", "unknown"]⟩,
    ⟨"capacity", s.capacity, ["healthy", "degraded", "unknown"]⟩,
    ⟨"security", s.security, ["clear", "incident", "unknown"]⟩,
    ⟨"image drift", s.images, ["clear", "detected", "unknown"]⟩,
    ⟨"policy drift", s.policy, ["clear", "detected", "unknown"]⟩,
    ⟨"configuration drift", s.configuration, ["clear", "detected", "unknown"]⟩,
    ⟨"identity drift", s.identity, ["clear", "detected", "unknown"]⟩,
    ⟨"certificates", s.certificates, ["healthy", "expiring", "invalid", "unknown"]⟩,
    ⟨"routing drift", s.routing, ["clear", "detected", "unknown"]⟩,
    ⟨"rollback retention", s.rollbackRetention, ["retained", "missing", "unknown"]⟩]

/-- The values of the references, with what a message calls them. -/
def References.described (r : References) (descriptions : List String) : List (String × String) :=
  [r.previousContinuityGate, r.scheduledReview, r.trafficState, r.monitoringEvidence,
    r.driftEvidence, r.rollbackRetention, r.reviewedBy].zip descriptions

section Derivation

variable (S : Shell) (previous : Predecessor) (found : Findings)

def reviewSequence : ℤ := previous.sequence + 1

def nextReviewDueAt : Time := found.completedAt + minutes previous.reviewIntervalMinutes

def reviewOnTime : Bool :=
  previous.nextReviewDueAt - minutes 5 ≤ found.completedAt &&
    found.completedAt ≤ previous.nextReviewDueAt + minutes found.completionGraceMinutes

def trafficMatchesPrevious : Bool := found.observedPercent = previous.observedPercent

def materialDriftDetected : Bool :=
  let s := found.statuses
  S.contains [s.images, s.policy, s.configuration, s.identity, s.routing] "detected"

def hasFailure : Bool :=
  let s := found.statuses
  S.same s.reviewExecution "missed" ||
    !reviewOnTime previous found ||
    S.same s.trafficEnforcement "failed" ||
    S.same s.assuranceSchedule "inactive" ||
    S.same s.monitoringCoverage "incomplete" ||
    S.same s.errorBudget "exhausted" ||
    S.same s.alerts "firing" ||
    S.same s.functional "failed" ||
    S.same s.dependencies "degraded" ||
    S.same s.operations "degraded" ||
    S.same s.capacity "degraded" ||
    S.same s.security "incident" ||
    materialDriftDetected S found ||
    S.contains ["expiring", "invalid"] s.certificates ||
    S.same s.rollbackRetention "missing" ||
    !trafficMatchesPrevious previous found

def hasUnknown : Bool := S.contains (found.statuses.contracts.map (·.actual)) "unknown"

def reviewOutcome : String :=
  if hasFailure S previous found then "failed"
  else if hasUnknown S found then "unknown"
  else "passed"

def monitoringContinues : Bool :=
  S.same found.statuses.assuranceSchedule "active" &&
    S.same found.statuses.monitoringCoverage "complete"

def continuityProven : Bool := S.same (reviewOutcome S previous found) "passed"

def nextAction : String :=
  let s := found.statuses
  if S.same s.security "incident" || S.same s.certificates "invalid" then
    "disable-and-investigate"
  else if materialDriftDetected S found then "reaccept-before-continuing"
  else if S.same s.certificates "expiring" then "rotate-certificates-and-refresh-evidence"
  else if S.same s.reviewExecution "missed" || !reviewOnTime previous found ||
      S.same s.assuranceSchedule "inactive" then
    "escalate-missed-assurance-review"
  else if S.same (reviewOutcome S previous found) "failed" then
    "rollback-or-disable-and-investigate"
  else if S.same (reviewOutcome S previous found) "unknown" then
    "investigate-and-refresh-evidence"
  else "continue-scheduled-production-assurance"

/-- The ordered fields whose compressed JSON text is hashed. -/
def integrity (previousType previousHash productionContext : String) : List (String × Json) :=
  let s := found.statuses
  let r := found.references
  let time (t : Time) : Json := .string (S.roundTrip t)
  let number (n : ℤ) : Json := .number n
  [("previousContinuityEvidenceType", .string previousType),
    ("previousContinuityEvidenceSha256", .string previousHash),
    ("previousContinuityEvidenceIntegrityDigest", .string previous.integrityDigest),
    ("previousReviewSequence", number previous.sequence),
    ("productionContext", .string productionContext),
    ("namespace", .string "shieldward"),
    ("incidentId", .string previous.incidentId),
    ("closureChangeId", .string previous.closureChangeId),
    ("releaseVersion", .string previous.version),
    ("sourceTag", .string previous.sourceTag),
    ("controlPlaneImage", .string previous.controlPlaneImage),
    ("edgeImage", .string previous.edgeImage),
    ("policyVersion", .string previous.policyVersion),
    ("previousCollectedAtUtc", time previous.collectedAt),
    ("reviewSequence", number (reviewSequence previous)),
    ("expectedDueAtUtc", time previous.nextReviewDueAt),
    ("completedAtUtc", time found.completedAt),
    ("completionGraceMinutes", number found.completionGraceMinutes),
    ("reviewOnTime", .bool (reviewOnTime previous found)),
    ("reviewExecutionStatus", .string s.reviewExecution),
    ("collectedAtUtc", time found.collectedAt),
    ("nextReviewDueAtUtc", time (nextReviewDueAt previous found)),
    ("reviewIntervalMinutes", number previous.reviewIntervalMinutes),
    ("maxPreviousEvidenceAgeHours", number found.maxPreviousEvidenceAgeHours),
    ("maxReviewAgeMinutes", number found.maxReviewAgeMinutes),
    ("expectedTrafficPercent", number 100),
    ("observedTrafficPercent", number found.observedPercent),
    ("trafficMatchesPrevious", .bool (trafficMatchesPrevious previous found)),
    ("trafficEnforcementStatus", .string s.trafficEnforcement),
    ("assuranceScheduleStatus", .string s.assuranceSchedule),
    ("monitoringCoverageStatus", .string s.monitoringCoverage),
    ("errorBudgetStatus", .string s.errorBudget),
    ("alertStatus", .string s.alerts),
    ("functionalStatus", .string s.functional),
    ("dependencyStatus", .string s.dependencies),
    ("operationalStatus", .string s.operations),
    ("capacityStatus", .string s.capacity),
    ("securityStatus", .string s.security),
    ("imageDriftStatus", .string s.images),
    ("policyDriftStatus", .string s.policy),
    ("configurationDriftStatus", .string s.configuration),
    ("identityDriftStatus", .string s.identity),
    ("certificateStatus", .string s.certificates),
    ("routingDriftStatus", .string s.routing),
    ("rollbackRetentionStatus", .string s.rollbackRetention),
    ("rollbackTargetPercent", number previous.targetPercent),
    ("rollbackEmergencyTargetPercent", number previous.emergencyTargetPercent),
    ("previousContinuityGateReference", .string r.previousContinuityGate),
    ("scheduledReviewReference", .string r.scheduledReview),
    ("trafficStateReference", .string r.trafficState),
    ("monitoringEvidenceReference", .string r.monitoringEvidence),
    ("driftEvidenceReference", .string r.driftEvidence),
    ("rollbackRetentionReference", .string r.rollbackRetention),
    ("reviewedBy", .string r.reviewedBy),
    ("monitoringContinues", .bool (monitoringContinues S found)),
    ("continuityProven", .bool (continuityProven S previous found)),
    ("outcome", .string (reviewOutcome S previous found)),
    ("nextAction", .string (nextAction S previous found))]

def integrityDigest (previousType previousHash productionContext : String) : String :=
  S.hash (S.integrityText (integrity S previous found previousType previousHash productionContext))

end Derivation

end ShieldWard.Assurance
