import ShieldWard.Assurance.Recurring
import ShieldWard.Lib.Canonical
import ShieldWard.Lib.Sha256

/-!
# What the collector records passes the checks

Each check of the validator passes on the artifact that the collector writes, since it compares
a recorded value with the one that the collector recorded. What remains is that the collector's
own checks of its arguments and of the predecessor say what the validator asks of the values
that are not derived (`Admissible`).
-/

namespace ShieldWard.Assurance

variable {S : Shell}

/-- What the validator asks of a review and its predecessor beyond what is derived. -/
structure Admissible (S : Shell) (previous : Predecessor) (found : Findings) : Prop where
  passed : S.same previous.outcome "passed" = true
  monitoringContinues : previous.monitoringContinues = true
  continuityProven : previous.continuityProven = true
  nextAction : S.same previous.nextAction continueAction = true
  observedPercent : previous.observedPercent = 100
  statuses : ∀ contract ∈ found.statuses.contracts,
    S.contains contract.allowed contract.actual = true
  references : ∀ reference ∈ found.references.described recordedReferences,
    checkReference reference = .ok ()
  completed : previous.completedAt ≤ found.completedAt
  grace : 0 ≤ found.completionGraceMinutes ∧ found.completionGraceMinutes ≤ 120
  maxPreviousAge : 1 ≤ found.maxPreviousEvidenceAgeHours ∧
    found.maxPreviousEvidenceAgeHours ≤ 2160
  previousAge : -hours 1 ≤ found.collectedAt - previous.collectedAt ∧
    found.collectedAt - previous.collectedAt ≤ hours found.maxPreviousEvidenceAgeHours
  maxReviewAge : 5 ≤ found.maxReviewAgeMinutes ∧ found.maxReviewAgeMinutes ≤ 1440
  reviewAge : -minutes 5 ≤ found.collectedAt - found.completedAt ∧
    found.collectedAt - found.completedAt ≤ minutes found.maxReviewAgeMinutes

/-! ## The checks of the validator -/

section Checks

variable {previous : Predecessor} {found : Findings} {file : PreviousFile}
  {previousType : String} {arguments : ValidationArguments} {referenceNow : Time}

theorem checkHeader_recurringEvidence :
    checkHeader S arguments (recurringEvidence S previous found file previousType
      arguments.expectedProductionContext) = .ok () := by
  simp [checkHeader, recurringEvidence, Except.bind_eq_ok_iff]

theorem checkLink_recurringEvidence (h : Admissible S previous found) (context : String) :
    checkLink S (recurringEvidence S previous found file previousType context) file previousType
      previous = .ok () := by
  simp [checkLink, recurringEvidence, h.passed, h.continuityProven]

theorem checkTiming_recurringEvidence (h : Admissible S previous found) (context : String)
    (hnow : found.collectedAt - minutes 5 ≤ referenceNow) :
    checkTiming (recurringEvidence S previous found file previousType context) previous found
      referenceNow = .ok () := by
  simp only [checkTiming, recurringEvidence, require_eq_ok, Bool.and_eq_true, decide_eq_true_eq,
    true_and, and_true]
  have hgrace := h.grace
  have hmaxPrevious := h.maxPreviousAge
  have hprevious := h.previousAge
  have hmaxReview := h.maxReviewAge
  have hreview := h.reviewAge
  simp [h.completed, hgrace, hmaxPrevious, hprevious, hmaxReview, hreview, hnow]

/-- The validator's checks pass on what the collector records. -/
theorem checkReview_recurringEvidence (hread : file.evidence.predecessor = .ok previous)
    (h : Admissible S previous found) (hnow : found.collectedAt - minutes 5 ≤ referenceNow) :
    checkReview S arguments (recurringEvidence S previous found file previousType
      arguments.expectedProductionContext) file previousType referenceNow = .ok () := by
  have hstatuses : found.statuses.contracts.forM (checkStatus S) = .ok () :=
    Except.forM_eq_ok_iff.mpr fun contract hmem => require_eq_ok.mpr (h.statuses contract hmem)
  have hreferences : (found.references.described recordedReferences).forM checkReference =
      .ok () := Except.forM_eq_ok_iff.mpr h.references
  simp only [checkReview, Except.bind_eq_ok_iff]
  refine ⟨previous, hread, found, rfl, (), checkLink_recurringEvidence h _, (), ?_, (), ?_, (), ?_,
    (), hstatuses, (), hreferences, (), ?_, (), ?_, (), checkTiming_recurringEvidence h _ hnow,
    (), ?_, ?_⟩
  · simp [checkPassed, h.passed, h.monitoringContinues, h.continuityProven, h.nextAction]
  · simp [checkIdentity, recurringEvidence]
  · simp [checkCandidate, recurringEvidence]
  · simp [checkTraffic, recurringEvidence, h.observedPercent]
  · simp [checkRollback, recurringEvidence]
  · simp [checkOutcome, recurringEvidence]
  · simp [checkDigest, recurringEvidence]

end Checks

/-! ## The checks of the collector -/

/-- A reference is refused for its value, whatever a message calls it. -/
theorem checkReference_described {references : References} (descriptions : List String)
    (h : (references.described enteredReferences).forM checkReference = .ok ()) :
    ∀ reference ∈ references.described descriptions, checkReference reference = .ok () := by
  intro reference hmem
  have hvalues : (references.described enteredReferences).map Prod.fst =
      [references.previousContinuityGate, references.scheduledReview, references.trafficState,
        references.monitoringEvidence, references.driftEvidence, references.rollbackRetention,
        references.reviewedBy] := rfl
  have hvalue := (List.of_mem_zip hmem).1
  rw [← hvalues, List.mem_map] at hvalue
  obtain ⟨entered, hentered, hsame⟩ := hvalue
  have hchecked := Except.forM_eq_ok_iff.mp h entered hentered
  simp only [checkReference, assertEvidenceReference, require_eq_ok] at hchecked ⊢
  rwa [hsame] at hchecked

theorem admissible_of_checks {a : CollectorArguments} {previous : Predecessor}
    {file : PreviousFile} {now : Time} (hbind : a.bind S = .ok ())
    (hreferences : (a.references.described enteredReferences).forM checkReference = .ok ())
    (hboundary : checkBoundary S previous file = .ok ())
    (hfresh : checkFreshness previous (a.findings now) = .ok ()) :
    Admissible S previous (a.findings now) := by
  simp only [CollectorArguments.bind, require_eq_ok, Bool.and_eq_true, decide_eq_true_eq,
    List.all_eq_true] at hbind
  simp only [checkBoundary, require_eq_ok, Bool.and_eq_true, decide_eq_true_eq] at hboundary
  simp only [checkFreshness, require_eq_ok, Bool.and_eq_true, decide_eq_true_eq] at hfresh
  obtain ⟨⟨⟨⟨⟨⟨⟨⟨⟨⟨_, _⟩, hgrace⟩, hgrace'⟩, _⟩, hstatuses⟩, _⟩, hmaxPrevious⟩, hmaxPrevious'⟩,
    hmaxReview⟩, hmaxReview'⟩ := hbind
  obtain ⟨⟨⟨⟨⟨⟨⟨⟨hpassed, hmonitoring⟩, hproven⟩, _⟩, _⟩, hobserved⟩, _⟩, _⟩, haction⟩ := hboundary
  obtain ⟨⟨⟨⟨hcompleted, hprevious⟩, hprevious'⟩, hreview⟩, hreview'⟩ := hfresh
  exact {
    passed := hpassed
    monitoringContinues := hmonitoring
    continuityProven := hproven
    nextAction := haction
    observedPercent := hobserved
    statuses := hstatuses
    references := checkReference_described _ hreferences
    completed := hcompleted
    grace := ⟨hgrace, hgrace'⟩
    maxPreviousAge := ⟨hmaxPrevious, hmaxPrevious'⟩
    previousAge := ⟨hprevious, hprevious'⟩
    maxReviewAge := ⟨hmaxReview, hmaxReview'⟩
    reviewAge := ⟨hreview, hreview'⟩ }

/-! ## Weekly reviews

A service that is reviewed every week: review by review the collector extends the chain that
starts with a scheduled artifact. -/

/-- What a recorded review is to its successor. -/
def successor (S : Shell) (previous : Predecessor) (found : Findings) (digest : String) :
    Predecessor :=
  { previous with
    integrityDigest := digest
    collectedAt := found.collectedAt
    sequence := reviewSequence previous
    completedAt := found.completedAt
    outcome := reviewOutcome S previous found
    monitoringContinues := monitoringContinues S found
    continuityProven := continuityProven S previous found
    nextAction := nextAction S previous found
    observedPercent := found.observedPercent
    nextReviewDueAt := nextReviewDueAt previous found }

theorem predecessor_recurringEvidence (previous : Predecessor) (found : Findings)
    (file : PreviousFile) (previousType context : String) :
    (recurringEvidence S previous found file previousType context).predecessor =
      .ok (successor S previous found
        (integrityDigest S previous found previousType (S.hash file.bytes) context)) := rfl

namespace Weekly

def lowerCase (s : String) : String := String.ofList (s.toList.map Char.toLower)

/-- The last decimal digits of a number. -/
def digits : ℕ → ℕ → List Char
  | 0, _ => []
  | width + 1, n => digits width (n / 10) ++ [Char.ofNat (48 + n % 10)]

/-- The year, the month and the day of an instant. -/
def date (t : Time) : ℕ × ℕ × ℕ :=
  -- years that start in March, in eras of four centuries
  let day := (t / 864000000000).toNat + 306
  let era := day / 146097
  let dayOfEra := day % 146097
  let yearOfEra := (dayOfEra - dayOfEra / 1460 + dayOfEra / 36524 - dayOfEra / 146096) / 365
  let dayOfYear := dayOfEra - (365 * yearOfEra + yearOfEra / 4 - yearOfEra / 100)
  let monthFromMarch := (5 * dayOfYear + 2) / 153
  let month := if monthFromMarch < 10 then monthFromMarch + 3 else monthFromMarch - 9
  (yearOfEra + era * 400 + if month ≤ 2 then 1 else 0, month,
    dayOfYear - (153 * monthFromMarch + 2) / 5 + 1)

/-- The hours, minutes, seconds and ticks of an instant. -/
def timeOfDay (t : Time) : ℕ × ℕ × ℕ × ℕ :=
  let ticks := t.toNat
  (ticks / 36000000000 % 24, ticks / 600000000 % 60, ticks / 10000000 % 60, ticks % 10000000)

/-- `yyyyMMddTHHmmssZ`. -/
def stamp (t : Time) : String :=
  let (year, month, day) := date t
  let (hours, minutes, seconds, _) := timeOfDay t
  String.ofList (digits 4 year ++ digits 2 month ++ digits 2 day ++ ['T'] ++ digits 2 hours ++
    digits 2 minutes ++ digits 2 seconds ++ ['Z'])

/-- `yyyy-MM-ddTHH:mm:ss.fffffffzzz`, in UTC. -/
def roundTripChars (t : Time) : List Char :=
  let (year, month, day) := date t
  let (hours, minutes, seconds, ticks) := timeOfDay t
  digits 4 year ++ ['-'] ++ digits 2 month ++ ['-'] ++ digits 2 day ++ ['T'] ++
    digits 2 hours ++ [':'] ++ digits 2 minutes ++ [':'] ++ digits 2 seconds ++ ['.'] ++
    digits 7 ticks ++ ['+', '0', '0', ':', '0', '0']

def roundTrip (t : Time) : String := String.ofList (roundTripChars t)

/-! ### The text of an artifact -/

/-- The properties that are there. -/
def recorded (properties : List (String × Option Json)) : List (String × Json) :=
  properties.filterMap fun property => property.2.map fun value => (property.1, value)

def line (indent : String) (property : String × Json) : String :=
  indent ++ Json.quote property.1 ++ ": " ++ property.2.canonicalize toString

/-- Lines with commas between them. -/
def join : List String → String
  | [] => ""
  | first :: rest => first ++ rest.foldr (fun text after => ",\n" ++ text ++ after) ""

/-- An object of its own, unless nothing of it is there. -/
def nested (name : String) (properties : List (String × Option Json)) : List String :=
  match recorded properties with
  | [] => []
  | present => ["  " ++ Json.quote name ++ ": \x7b\n" ++ join (present.map (line "    ")) ++ "\n  \x7d"]

/-- The lines of `ConvertTo-Json`, in the order of the collector. -/
def lines (e : Evidence) : List String :=
  let text (value : Option String) : Option Json := value.map .string
  let flag (value : Option Bool) : Option Json := value.map .bool
  let number (value : Option ℤ) : Option Json := value.map fun n => .number n
  let time (value : Option Time) : Option Json := value.map fun t => .string (roundTrip t)
  (recorded
    [("schemaVersion", number e.schemaVersion),
      ("environment", text e.environment),
      ("evidenceType", text e.evidenceType),
      ("outcome", text e.outcome),
      ("collectedAtUtc", time e.collectedAtUtc),
      ("productionContext", text e.productionContext),
      ("namespace", text e.namespaceName),
      ("incidentId", text e.incidentId),
      ("closureChangeId", text e.closureChangeId)]).map (line "  ") ++
  nested "previousContinuityEvidence"
    [("evidenceType", text e.previousContinuityEvidence.evidenceType),
      ("relativePath", text e.previousContinuityEvidence.relativePath),
      ("sha256", text e.previousContinuityEvidence.sha256),
      ("integrityDigest", text e.previousContinuityEvidence.integrityDigest),
      ("collectedAtUtc", time e.previousContinuityEvidence.collectedAtUtc),
      ("reviewSequence", number e.previousContinuityEvidence.reviewSequence),
      ("outcome", text e.previousContinuityEvidence.outcome),
      ("continuityProven", flag e.previousContinuityEvidence.continuityProven)] ++
  nested "candidate"
    [("version", text e.candidate.version),
      ("sourceTag", text e.candidate.sourceTag),
      ("controlPlaneImage", text e.candidate.controlPlaneImage),
      ("edgeImage", text e.candidate.edgeImage),
      ("policyVersion", text e.candidate.policyVersion)] ++
  nested "review"
    [("sequence", number e.review.sequence),
      ("previousSequence", number e.review.previousSequence),
      ("executionStatus", text e.review.executionStatus),
      ("expectedDueAtUtc", time e.review.expectedDueAtUtc),
      ("completedAtUtc", time e.review.completedAtUtc),
      ("completionGraceMinutes", number e.review.completionGraceMinutes),
      ("onTime", flag e.review.onTime),
      ("maxPreviousEvidenceAgeHours", number e.review.maxPreviousEvidenceAgeHours),
      ("maxReviewAgeMinutes", number e.review.maxReviewAgeMinutes)] ++
  nested "schedule"
    [("status", text e.schedule.status),
      ("monitoringCoverage", text e.schedule.monitoringCoverage),
      ("reviewIntervalMinutes", number e.schedule.reviewIntervalMinutes),
      ("nextReviewDueAtUtc", time e.schedule.nextReviewDueAtUtc)] ++
  nested "traffic"
    [("expectedPercent", number e.traffic.expectedPercent),
      ("observedPercent", number e.traffic.observedPercent),
      ("matchesPrevious", flag e.traffic.matchesPrevious),
      ("enforcementStatus", text e.traffic.enforcementStatus),
      ("externallyEnforced", flag e.traffic.externallyEnforced),
      ("mutationPercentagePoints", number e.traffic.mutationPercentagePoints)] ++
  nested "signals"
    [("errorBudget", text e.signals.errorBudget),
      ("alerts", text e.signals.alerts),
      ("functional", text e.signals.functional),
      ("dependencies", text e.signals.dependencies),
      ("operations", text e.signals.operations),
      ("capacity", text e.signals.capacity),
      ("security", text e.signals.security)] ++
  nested "drift"
    [("images", text e.drift.images),
      ("policy", text e.drift.policy),
      ("configuration", text e.drift.configuration),
      ("identity", text e.drift.identity),
      ("certificates", text e.drift.certificates),
      ("routing", text e.drift.routing)] ++
  nested "rollback"
    [("targetPercent", number e.rollback.targetPercent),
      ("emergencyTargetPercent", number e.rollback.emergencyTargetPercent),
      ("authority", text e.rollback.authority),
      ("procedureReference", text e.rollback.procedureReference),
      ("retentionStatus", text e.rollback.retentionStatus)] ++
  nested "externalEvidence"
    [("previousContinuityGateReference", text e.externalEvidence.previousContinuityGateReference),
      ("scheduledReviewReference", text e.externalEvidence.scheduledReviewReference),
      ("trafficStateReference", text e.externalEvidence.trafficStateReference),
      ("monitoringEvidenceReference", text e.externalEvidence.monitoringEvidenceReference),
      ("driftEvidenceReference", text e.externalEvidence.driftEvidenceReference),
      ("rollbackRetentionReference", text e.externalEvidence.rollbackRetentionReference),
      ("reviewedBy", text e.externalEvidence.reviewedBy)] ++
  nested "decision"
    [("monitoringContinues", flag e.decision.monitoringContinues),
      ("continuityLinkValid", flag e.decision.continuityLinkValid),
      ("continuityProven", flag e.decision.continuityProven),
      ("nextAction", text e.decision.nextAction)] ++
  (recorded [("integrityDigest", text e.integrityDigest)]).map (line "  ")

def convertToJson (e : Evidence) : Bytes :=
  Bytes.utf8 ("\x7b\n" ++ join (lines e) ++ "\n\x7d\n")

/-! ### The shell -/

def localState : String := "/repo/.shieldward/"

def rootPath : String := localState ++ "production-assurance-continuity/continuity.json"

/-- A shell on a system with a root directory `/repo`. -/
def shell (convertFromJson : Bytes → Option Evidence) : Shell where
  ignoreCase := lowerCase
  ignoreCase_ascii _ _ := rfl
  getFullPath path := some (if path.toList.head? = some '/' then path else "/repo/" ++ path)
  getFullPath_full := by
    intro path full h
    obtain rfl := Option.some.inj h
    split
    · next hrooted => rfl
    · exact congrArg some (if_pos (by simp))
  localStatePrefix := localState
  getRelativePath path := String.ofList (path.toList.drop 6)
  evidencePath directory t n :=
    directory ++ "/review-" ++ stamp t ++ "-sequence-" ++ toString n ++ ".json"
  convertFromJson := convertFromJson
  convertToJson := convertToJson
  integrityText fields := Bytes.utf8 ("\x7b" ++ ",".intercalate (fields.map fun field =>
    Json.quote field.1 ++ ":" ++ field.2.canonicalize toString) ++ "\x7d")
  sha256 := Sha256.hash
  roundTrip := roundTrip
  parseTime _ := none
  testScheduledEvidence _ path := require (path = rootPath) "The supplied evidence is unsupported."

/-- The shell that cannot read artifacts yet is enough to record them. -/
def writer : Shell := shell fun _ => none

def week : ℤ := minutes 10080

/-- The weeks from the first of January 2026 on. -/
def time (n : ℕ) : Time := 639028224000000000 + n * week

def directory : String := localState ++ "production-assurance-recurring"

def path : ℕ → String
  | 0 => rootPath
  | n + 1 => writer.evidencePath directory (time (n + 1)) (n + 2)

def previousType : ℕ → String
  | 0 => scheduledType
  | _ + 1 => recurringType

def healthy : Statuses where
  reviewExecution := "completed"
  trafficEnforcement := "confirmed"
  assuranceSchedule := "active"
  monitoringCoverage := "complete"
  errorBudget := "within-budget"
  alerts := "clear"
  functional := "passed"
  dependencies := "healthy"
  operations := "healthy"
  capacity := "healthy"
  security := "clear"
  images := "clear"
  policy := "clear"
  configuration := "clear"
  identity := "clear"
  certificates := "healthy"
  routing := "clear"
  rollbackRetention := "retained"

/-- The arguments with which the review after the `n`-th is collected. -/
def arguments (n : ℕ) : CollectorArguments where
  previousContinuityEvidencePath := path n
  expectedProductionContext := "production-eu"
  reviewCompletedAtUtc := time (n + 1)
  completionGraceMinutes := 15
  observedTrafficPercent := 100
  statuses := healthy
  references := ⟨"GATE-1", "REVIEW-1", "TRAFFIC-1", "MONITORING-1", "DRIFT-1", "ROLLBACK-1",
    "Assurance Reviewer"⟩
  maxPreviousEvidenceAgeHours := 168
  maxReviewAgeMinutes := 60
  outputDirectory := directory
  checkCluster := false
  force := true
  referenceTimeUtc := ""

def found (n : ℕ) : Findings := (arguments n).findings (time (n + 1))

/-- What the first review follows. -/
def rootPredecessor : Predecessor where
  integrityDigest := "00"
  collectedAt := time 0
  sequence := 1
  completedAt := time 0
  outcome := "passed"
  monitoringContinues := true
  continuityProven := true
  nextAction := continueAction
  incidentId := "INC-1"
  closureChangeId := "CHG-1"
  version := "1.0.0"
  sourceTag := "v1.0.0"
  controlPlaneImage := "control-plane@sha256:00"
  edgeImage := "edge@sha256:00"
  policyVersion := "sha256:00"
  observedPercent := 100
  targetPercent := 75
  emergencyTargetPercent := 0
  authority := "release-authority"
  procedureReference := "ROLLBACK-PROCEDURE-1"
  reviewIntervalMinutes := 10080
  nextReviewDueAt := time 1

/-- The scheduled artifact that the chain starts with. -/
def rootEvidence : Evidence where
  schemaVersion := some 1
  environment := some "production"
  evidenceType := some scheduledType
  outcome := some "passed"
  collectedAtUtc := some (time 0)
  productionContext := some "production-eu"
  namespaceName := some "shieldward"
  incidentId := some "INC-1"
  closureChangeId := some "CHG-1"
  previousContinuityEvidence := ⟨none, none, none, none, none, none, none, none⟩
  candidate := ⟨some "1.0.0", some "v1.0.0", some "control-plane@sha256:00",
    some "edge@sha256:00", some "sha256:00"⟩
  review := ⟨some 1, none, some "completed", some (time 0), some (time 0), some 15, some true,
    none, some 60⟩
  schedule := ⟨some "active", some "complete", some 10080, some (time 1)⟩
  traffic := ⟨some 100, some 100, none, some "confirmed", some true, some 0⟩
  signals := ⟨some "within-budget", some "clear", some "passed", some "healthy", some "healthy",
    some "healthy", some "clear"⟩
  drift := ⟨some "clear", some "clear", some "clear", some "clear", some "healthy", some "clear"⟩
  rollback := ⟨some 75, some 0, some "release-authority", some "ROLLBACK-PROCEDURE-1",
    some "retained"⟩
  externalEvidence := ⟨none, some "REVIEW-0", some "TRAFFIC-0", some "MONITORING-0",
    some "DRIFT-0", some "ROLLBACK-0", some "Assurance Reviewer"⟩
  decision := ⟨some true, none, some true, some continueAction⟩
  integrityDigest := some "00"

/-- The artifacts, with what they are to their successors: each review is recorded on top of the
one before it. -/
def review : ℕ → Predecessor × Evidence
  | 0 => (rootPredecessor, rootEvidence)
  | n + 1 =>
    let (previous, artifact) := review n
    let bytes := convertToJson artifact
    let evidence := recurringEvidence writer previous (found n) ⟨path n, bytes, artifact⟩
      (previousType n) "production-eu"
    (successor writer previous (found n) (integrityDigest writer previous (found n)
      (previousType n) (writer.hash bytes) "production-eu"), evidence)

def predecessor (n : ℕ) : Predecessor := (review n).1

def artifact (n : ℕ) : Evidence := (review n).2

def content (n : ℕ) : Bytes := convertToJson (artifact n)

/-- The texts of the first artifacts are read back. -/
def convertFromJson (bytes : Bytes) : Option Evidence :=
  ((List.range 66).find? fun n => content n == bytes).map artifact

def reader : Shell := shell convertFromJson

/-- The files after a number of reviews. -/
def files (reviews : ℕ) : Files :=
  fun p => ((List.range (reviews + 1)).map fun n => (path n, content n)).lookup p

/-! ### The artifacts -/

theorem predecessor_artifact (n : ℕ) : (artifact n).predecessor = .ok (predecessor n) := by
  cases n with
  | zero => rfl
  | succ n => exact predecessor_recurringEvidence _ _ _ _ _

theorem evidenceType_artifact (n : ℕ) : (artifact n).evidenceType = some (previousType n) := by
  cases n <;> rfl

theorem predecessor_succ (n : ℕ) : predecessor (n + 1) =
    successor writer (predecessor n) (found n) (integrityDigest writer (predecessor n) (found n)
      (previousType n) (writer.hash (content n)) "production-eu") := rfl

theorem artifact_succ (n : ℕ) : artifact (n + 1) =
    recurringEvidence writer (predecessor n) (found n) ⟨path n, content n, artifact n⟩
      (previousType n) "production-eu" := rfl

/-- What stays the same and what moves on by a week. -/
structure Passed (n : ℕ) : Prop where
  sequence : (predecessor n).sequence = n + 1
  collectedAt : (predecessor n).collectedAt = time n
  completedAt : (predecessor n).completedAt = time n
  nextReviewDueAt : (predecessor n).nextReviewDueAt = time (n + 1)
  reviewIntervalMinutes : (predecessor n).reviewIntervalMinutes = 10080
  outcome : (predecessor n).outcome = "passed"
  monitoringContinues : (predecessor n).monitoringContinues = true
  continuityProven : (predecessor n).continuityProven = true
  nextAction : (predecessor n).nextAction = continueAction
  observedPercent : (predecessor n).observedPercent = 100

theorem time_succ (n : ℕ) : time (n + 1) = time n + week := by
  unfold time
  push_cast
  ring

theorem reviewOnTime_of_passed {n : ℕ} (h : Passed n) :
    reviewOnTime (predecessor n) (found n) = true := by
  have hcompleted : (found n).completedAt = time (n + 1) := rfl
  have hgrace : minutes (found n).completionGraceMinutes = 9000000000 := rfl
  rw [reviewOnTime, h.nextReviewDueAt, hcompleted, hgrace]
  simp [minutes]

theorem statuses_found (n : ℕ) : (found n).statuses = healthy := rfl

theorem materialDriftDetected_found (n : ℕ) : materialDriftDetected writer (found n) = false := by
  rw [materialDriftDetected, statuses_found]
  decide

theorem reviewOutcome_of_passed {n : ℕ} (h : Passed n) :
    reviewOutcome writer (predecessor n) (found n) = "passed" := by
  have hmatches : trafficMatchesPrevious (predecessor n) (found n) = true := by
    rw [trafficMatchesPrevious, h.observedPercent]
    rfl
  have hfailure : hasFailure writer (predecessor n) (found n) = false := by
    rw [hasFailure, reviewOnTime_of_passed h, hmatches, materialDriftDetected_found, statuses_found]
    decide
  have hunknown : hasUnknown writer (found n) = false := by
    rw [hasUnknown, statuses_found]
    decide
  rw [reviewOutcome, hfailure, hunknown]
  rfl

theorem nextAction_of_passed {n : ℕ} (h : Passed n) :
    nextAction writer (predecessor n) (found n) = continueAction := by
  rw [nextAction, reviewOutcome_of_passed h, reviewOnTime_of_passed h, materialDriftDetected_found,
    statuses_found]
  decide

theorem passed (n : ℕ) : Passed n := by
  induction n with
  | zero => exact ⟨rfl, rfl, rfl, rfl, rfl, rfl, rfl, rfl, rfl, rfl⟩
  | succ n ih =>
    have houtcome := reviewOutcome_of_passed ih
    have hmonitoring : monitoringContinues writer (found n) = true := by
      rw [monitoringContinues, statuses_found]
      decide
    have hproven : continuityProven writer (predecessor n) (found n) = true := by
      rw [continuityProven, houtcome]
      exact writer.same_refl _
    have hdue : nextReviewDueAt (predecessor n) (found n) = time (n + 2) := by
      rw [nextReviewDueAt, ih.reviewIntervalMinutes, time_succ (n + 1)]
      rfl
    have hsequence : reviewSequence (predecessor n) = (n + 1 : ℕ) + 1 := by
      rw [reviewSequence, ih.sequence]
      push_cast
      ring
    have hinterval : (predecessor (n + 1)).reviewIntervalMinutes = 10080 := by
      rw [predecessor_succ, successor, ih.reviewIntervalMinutes]
    have hsucc := predecessor_succ n
    exact {
      sequence := by rw [hsucc]; exact hsequence
      collectedAt := by rw [hsucc]; rfl
      completedAt := by rw [hsucc]; rfl
      nextReviewDueAt := by rw [hsucc]; exact hdue
      reviewIntervalMinutes := hinterval
      outcome := by rw [hsucc]; exact houtcome
      monitoringContinues := by rw [hsucc]; exact hmonitoring
      continuityProven := by rw [hsucc]; exact hproven
      nextAction := by rw [hsucc]; exact nextAction_of_passed ih
      observedPercent := by rw [hsucc]; rfl }

/-! ### Reading back -/

/-- The text of an artifact up to its type. -/
def beforeType : String :=
  "\x7b\n" ++ line "  " ("schemaVersion", .number 1) ++ ",\n" ++
    line "  " ("environment", .string "production") ++ ",\n" ++ "  " ++
    Json.quote "evidenceType" ++ ": "

/-- The text between the type of an artifact that has passed and its time. -/
def beforeTime : String :=
  ",\n" ++ line "  " ("outcome", .string "passed") ++ ",\n" ++ "  " ++
    Json.quote "collectedAtUtc" ++ ": "

/-- The type and the time of an artifact that has passed stand at its beginning. -/
theorem convertToJson_eq {e : Evidence} {type : String} {t : Time}
    (hschema : e.schemaVersion = some 1) (henvironment : e.environment = some "production")
    (htype : e.evidenceType = some type) (houtcome : e.outcome = some "passed")
    (htime : e.collectedAtUtc = some t) :
    ∃ rest : String, convertToJson e = Bytes.utf8 (beforeType ++ (Json.quote type ++
      (beforeTime ++ (Json.quote (roundTrip t) ++ rest)))) := by
  have hlines : ∃ more, lines e =
      line "  " ("schemaVersion", .number 1) :: line "  " ("environment", .string "production") ::
        line "  " ("evidenceType", .string type) :: line "  " ("outcome", .string "passed") ::
        line "  " ("collectedAtUtc", .string (roundTrip t)) :: more := by
    unfold lines
    rw [hschema, henvironment, htype, houtcome, htime]
    exact ⟨_, rfl⟩
  obtain ⟨more, hlines⟩ := hlines
  have htext (name value : String) :
      line "  " (name, .string value) = "  " ++ Json.quote name ++ ": " ++ Json.quote value := by
    rw [line, Json.canonicalize]
  use more.foldr (fun text after => ",\n" ++ text ++ after) "" ++ "\n\x7d\n"
  rw [convertToJson, hlines, join, htext "evidenceType", htext "collectedAtUtc"]
  apply congrArg Bytes.utf8
  simp only [List.foldr_cons, beforeType, beforeTime, String.append_assoc]

/-- The text of a time is that of a later day. -/
theorem roundTripChars_lt_succ :
    ∀ n < 65, roundTripChars (time n) < roundTripChars (time (n + 1)) := by
  decide +kernel

theorem roundTripChars_lt {m n : ℕ} (hmn : m < n) (hn : n < 66) :
    roundTripChars (time m) < roundTripChars (time n) := by
  induction n, hmn using Nat.le_induction with
  | base => exact roundTripChars_lt_succ m (by omega)
  | succ n _ ih => exact List.lt_trans (ih (by omega)) (roundTripChars_lt_succ n (by omega))

theorem roundTrip_inj {m n : ℕ} (hm : m < 66) (hn : n < 66)
    (h : roundTrip (time m) = roundTrip (time n)) : m = n := by
  have hchars : roundTripChars (time m) = roundTripChars (time n) := String.ofList_inj.mp h
  rcases Nat.lt_trichotomy m n with hlt | heq | hlt
  · have hless := roundTripChars_lt hlt hn
    rw [hchars] at hless
    exact absurd hless (List.lt_irrefl _)
  · exact heq
  · have hless := roundTripChars_lt hlt hm
    rw [hchars] at hless
    exact absurd hless (List.lt_irrefl _)

/-- The texts of the first artifacts differ in their times. -/
theorem content_inj {m n : ℕ} (hm : m < 66) (hn : n < 66) (h : content m = content n) : m = n := by
  have hpassed (k : ℕ) : (artifact k).schemaVersion = some 1 ∧
      (artifact k).environment = some "production" ∧ (artifact k).outcome = some "passed" ∧
      (artifact k).collectedAtUtc = some (time k) := by
    cases k with
    | zero => exact ⟨rfl, rfl, rfl, rfl⟩
    | succ k => exact ⟨rfl, rfl, congrArg some (reviewOutcome_of_passed (passed k)), rfl⟩
  obtain ⟨hschema, henvironment, houtcome, htime⟩ := hpassed m
  obtain ⟨hschema', henvironment', houtcome', htime'⟩ := hpassed n
  obtain ⟨rest, htext⟩ :=
    convertToJson_eq hschema henvironment (evidenceType_artifact m) houtcome htime
  obtain ⟨rest', htext'⟩ :=
    convertToJson_eq hschema' henvironment' (evidenceType_artifact n) houtcome' htime'
  rw [content, content, htext, htext'] at h
  have hlist := congrArg String.toList ((String.append_right_inj _).mp (Bytes.utf8_injective h))
  simp only [String.toList_append] at hlist
  have hafter := (Json.quote_split hlist).2
  exact roundTrip_inj hm hn (Json.quote_split (List.append_cancel_left hafter)).1

theorem reader_convertFromJson : reader.convertFromJson = convertFromJson := rfl

theorem convertFromJson_content {n : ℕ} (h : n < 66) :
    reader.convertFromJson (content n) = some (artifact n) := by
  rw [reader_convertFromJson, convertFromJson]
  cases hfind : (List.range 66).find? fun m => content m == content n with
  | none =>
    have hnone := List.find?_eq_none.mp hfind n (List.mem_range.mpr h)
    exact absurd (beq_self_eq_true _) hnone
  | some m =>
    have hm := List.mem_range.mp (List.mem_of_find?_eq_some hfind)
    have hsame : (content m == content n) = true :=
      @List.find?_some ℕ (fun m => content m == content n) m _ hfind
    rw [Option.map_some, content_inj hm h (eq_of_beq hsame)]

/-! ### The files -/

theorem isBlank_append (a b : String) : isBlank (a ++ b) = (isBlank a && isBlank b) := by
  simp [isBlank, List.all_append]

/-- What lies beneath the local state resolves to itself. -/
theorem resolve_local (rest description : String) :
    resolveLocalStatePath reader (localState ++ rest) description = .ok (localState ++ rest) := by
  have hblank : isBlank (localState ++ rest) = false := by
    rw [isBlank_append, show isBlank localState = false from by decide, Bool.false_and]
  have hfull : reader.getFullPath (localState ++ rest) =
      some (localState ++ rest) := by
    apply congrArg some
    rw [if_pos (by simp [localState])]
  have hprefix : (reader.ignoreCase
      reader.localStatePrefix).toList.isPrefixOf
      (reader.ignoreCase (localState ++ rest)).toList = true := by
    show (lowerCase localState).toList.isPrefixOf (lowerCase (localState ++ rest)).toList = true
    simp [lowerCase]
  exact resolveLocalStatePath_eq_ok.mpr ⟨hblank, hfull, hprefix⟩

/-- The end of a path: the time of a review and its sequence number. -/
def fileName (t : Time) (n : ℤ) : String :=
  "/review-" ++ stamp t ++ "-sequence-" ++ toString n ++ ".json"

theorem path_succ (n : ℕ) : path (n + 1) = directory ++ fileName (time (n + 1)) (n + 2) := by
  simp only [path, writer, shell, fileName, String.append_assoc]

theorem path_local (n : ℕ) : ∃ rest, path n = localState ++ rest := by
  cases n with
  | zero => exact ⟨_, rfl⟩
  | succ n => exact ⟨_, (path_succ n).trans (String.append_assoc ..)⟩

theorem path_ne_empty (n : ℕ) : path n ≠ "" := by
  obtain ⟨rest, hrest⟩ := path_local n
  rw [hrest]
  intro h
  have hlist := congrArg String.toList h
  simp [localState] at hlist

theorem resolve_path (n : ℕ) (description : String) :
    resolveLocalStatePath reader (path n) description = .ok (path n) := by
  obtain ⟨rest, hrest⟩ := path_local n
  rw [hrest]
  exact resolve_local rest description

/-- The recorded path of an artifact leads back to it. -/
theorem resolve_relative (n : ℕ) (description : String) :
    resolveLocalStatePath reader (reader.getRelativePath (path n)) description = .ok (path n) := by
  obtain ⟨rest, hrest⟩ := path_local n
  have hrelative : reader.getRelativePath (path n) = ".shieldward/" ++ rest := by
    rw [hrest, ← String.toList_inj]
    simp [reader, shell, localState]
  have hfull : reader.getFullPath (".shieldward/" ++ rest) = some (path n) := by
    rw [hrest]
    apply congrArg some
    rw [if_neg (by simp), ← String.toList_inj]
    simp [localState]
  have hblank : isBlank (".shieldward/" ++ rest) = false := by
    rw [isBlank_append, show isBlank ".shieldward/" = false from by decide, Bool.false_and]
  have hbeneath := resolveLocalStatePath_eq_ok.mp (resolve_path n description)
  rw [hrelative]
  exact resolveLocalStatePath_eq_ok.mpr ⟨hblank, hfull, hbeneath.2.2⟩

theorem length_digits (width n : ℕ) : (digits width n).length = width := by
  induction width generalizing n with
  | zero => rfl
  | succ width ih => rw [digits, List.length_append, ih]; rfl

theorem length_stamp (t : Time) : (stamp t).toList.length = 16 := by
  simp [stamp, length_digits]

theorem toLower_digit {c : Char} (h : c.isDigit = true) : c.toLower = c := by
  simp only [Char.isDigit, Bool.and_eq_true, decide_eq_true_eq] at h
  have hupper : ¬(c.val ≥ 'A'.val ∧ c.val ≤ 'Z'.val) := fun hupper =>
    absurd (UInt32.le_trans hupper.1 h.2) (by decide)
  exact dif_neg hupper

theorem lowerCase_repr (n : ℕ) : (n.repr.toList.map Char.toLower) = n.repr.toList := by
  have hdigits : ∀ c ∈ n.repr.toList, c.toLower = id c := fun c hc =>
    toLower_digit (Nat.isDigit_of_mem_toDigits (by decide) (by decide) (Nat.toList_repr ▸ hc))
  rw [List.map_congr_left hdigits, List.map_id]

/-- File names that differ in the case of letters only have the same sequence number. -/
theorem eq_of_same_fileName {t t' : Time} {m n : ℕ}
    (h : (fileName t m).toList.map Char.toLower = (fileName t' n).toList.map Char.toLower) :
    m = n := by
  simp only [fileName, String.toList_append, List.map_append, List.append_assoc,
    List.append_cancel_left_eq] at h
  have hnumber := (List.append_inj h (by simp [length_stamp])).2
  rw [List.append_cancel_left_eq, List.append_cancel_right_eq] at hnumber
  have hrepr : m.repr.toList.map Char.toLower = n.repr.toList.map Char.toLower := hnumber
  rw [lowerCase_repr, lowerCase_repr, String.toList_inj] at hrepr
  exact Json.eq_of_repr_eq hrepr

theorem same_path_iff {m n : ℕ} : reader.same (path m) (path n) = true ↔
    (path m).toList.map Char.toLower = (path n).toList.map Char.toLower := by
  rw [Shell.same_iff]
  exact String.ofList_inj

/-- The scheduled artifact lies in a directory of its own. -/
theorem same_root_path (n : ℕ) :
    rootPath.toList.map Char.toLower ≠ (path (n + 1)).toList.map Char.toLower := by
  intro h
  have hroot : (rootPath.toList.map Char.toLower)[39]? = some 'c' := by decide
  have hreview : ((path (n + 1)).toList.map Char.toLower)[39]? = some 'r' := by
    rw [path_succ, String.toList_append, List.map_append, List.getElem?_append_left (by decide)]
    decide
  rw [← h, hroot] at hreview
  exact absurd (Option.some.inj hreview) (by decide)

/-- Two reviews lie in different files. -/
theorem eq_of_same_path {m n : ℕ} (h : reader.same (path m) (path n) = true) : m = n := by
  rw [same_path_iff] at h
  cases m with
  | zero =>
    cases n with
    | zero => rfl
    | succ n => exact absurd h (same_root_path n)
  | succ m =>
    cases n with
    | zero => exact absurd h.symm (same_root_path m)
    | succ n =>
      rw [path_succ, path_succ] at h
      simp only [String.toList_append, List.map_append, List.append_cancel_left_eq] at h
      have hsequence : m + 2 = n + 2 := eq_of_same_fileName h
      omega

theorem path_injective : Function.Injective path := by
  intro m n h
  apply eq_of_same_path
  rw [h]
  exact reader.same_refl _

theorem files_path {n reviews : ℕ} (h : n ≤ reviews) : files reviews (path n) = some (content n) := by
  have hkeys : (((List.range (reviews + 1)).map fun n => (path n, content n)).map
      Prod.fst).Nodup := by
    rw [List.map_map]
    exact List.Nodup.map path_injective List.nodup_range
  rw [files, Json.lookup_eq_some_iff hkeys]
  exact List.mem_map.mpr ⟨n, List.mem_range.mpr (by omega), rfl⟩

/-! ### The reviews -/

/-- Recording does not depend on how artifacts are read. -/
theorem recurringEvidence_shell (convertFromJson : Bytes → Option Evidence)
    (previous : Predecessor) (found : Findings) (file : PreviousFile)
    (previousType context : String) :
    recurringEvidence (shell convertFromJson) previous found file previousType context =
      recurringEvidence writer previous found file previousType context := rfl

theorem admissible (n : ℕ) : Admissible reader (predecessor n) (found n) := by
  have h := passed n
  have hmove : (found n).collectedAt - (predecessor n).collectedAt = week := by
    rw [h.collectedAt]
    show time (n + 1) - time n = week
    rw [time_succ]
    ring
  have hreview : (found n).collectedAt - (found n).completedAt = 0 := sub_self _
  exact {
    passed := by rw [h.outcome]; exact reader.same_refl _
    monitoringContinues := h.monitoringContinues
    continuityProven := h.continuityProven
    nextAction := by rw [h.nextAction]; exact reader.same_refl _
    observedPercent := h.observedPercent
    statuses := by
      rw [statuses_found]
      decide
    references := by
      show ∀ reference ∈ (arguments 0).references.described recordedReferences, _
      simp only [checkReference, assertEvidenceReference, require_eq_ok]
      decide +kernel
    completed := by
      rw [h.completedAt]
      show time n ≤ time (n + 1)
      rw [time_succ]
      exact Int.le_add_of_nonneg_right (by decide)
    grace := by
      show 0 ≤ (15 : ℤ) ∧ (15 : ℤ) ≤ 120
      decide
    maxPreviousAge := by
      show 1 ≤ (168 : ℤ) ∧ (168 : ℤ) ≤ 2160
      decide
    previousAge := by
      rw [hmove]
      show -hours 1 ≤ week ∧ week ≤ hours 168
      decide
    maxReviewAge := by
      show 5 ≤ (60 : ℤ) ∧ (60 : ℤ) ≤ 1440
      decide
    reviewAge := by
      rw [hreview]
      show -minutes 5 ≤ (0 : ℤ) ∧ (0 : ℤ) ≤ minutes 60
      decide }

theorem artifact_succ_reader (n : ℕ) : artifact (n + 1) =
    recurringEvidence reader (predecessor n) (found n) ⟨path n, content n, artifact n⟩
      (previousType n) (arguments n).validation.expectedProductionContext :=
  (artifact_succ n).trans (recurringEvidence_shell convertFromJson _ _ _ _ _).symm

theorem time_mono {m n : ℕ} (h : m ≤ n) : time m ≤ time n := by
  induction n, h using Nat.le_induction with
  | base => exact le_refl _
  | succ n _ ih =>
    rw [time_succ]
    exact ih.trans (Int.le_add_of_nonneg_right (by decide))

/-- A review passes its own checks at every later time. -/
theorem checkReview_artifact {n later : ℕ} (h : n + 1 ≤ later) :
    checkReview reader (arguments n).validation (artifact (n + 1))
      ⟨path n, content n, artifact n⟩ (previousType n) (time later) = .ok () := by
  have hnow : (found n).collectedAt - minutes 5 ≤ time later := by
    have hlater := time_mono h
    have hfive : (0 : ℤ) ≤ minutes 5 := by decide
    exact (Int.sub_le_self _ hfive).trans hlater
  let file : PreviousFile := ⟨path n, content n, artifact n⟩
  have hread : file.evidence.predecessor = .ok (predecessor n) := predecessor_artifact n
  rw [artifact_succ_reader]
  exact checkReview_recurringEvidence hread (admissible n) hnow

theorem checkHeader_artifact (n : ℕ) :
    checkHeader reader (arguments n).validation (artifact (n + 1)) = .ok () := by
  rw [artifact_succ_reader]
  exact checkHeader_recurringEvidence

theorem relativePath_artifact (n : ℕ) :
    (artifact (n + 1)).previousContinuityEvidence.relativePath =
      some (reader.getRelativePath (path n)) := rfl

theorem resolvedPreviousPath_artifact (n : ℕ) :
    resolvedPreviousPath reader (artifact (n + 1)) "" = .ok (path n) := by
  have hblank : isBlank "" = true := by decide
  rw [resolvedPreviousPath, if_pos hblank, relativePath_artifact, Except.bind_eq_ok_iff]
  exact ⟨_, property_eq_ok.mpr rfl, resolve_relative n _⟩

theorem same_path_succ (n : ℕ) : reader.same (path n) (path (n + 1)) = false := by
  rw [Bool.eq_false_iff]
  intro h
  have hsame := eq_of_same_path h
  omega

/-- An artifact is accepted where its predecessor is accepted one level deeper. -/
theorem accepted_succ {reviews n depth later : ℕ} (hn : n + 1 ≤ reviews) (hread : n + 1 < 66)
    (hlater : n + 1 ≤ later) (hdepth : depth < 64)
    (hprevious : testPrevious reader (arguments n).validation
      (fun path => testRecurringEvidence reader (files reviews) (arguments n).validation
        (fun _ => time later) (depth + 1) path "") (path n) (previousType n)
      "Recorded previous continuity evidence type" = .ok ()) :
    testRecurringEvidence reader (files reviews) (arguments n).validation (fun _ => time later)
      depth (path (n + 1)) "" = .ok () := by
  rw [testRecurringEvidence, dif_neg (by omega), testAtDepth_ok]
  exact ⟨time later, path (n + 1), content (n + 1), artifact (n + 1),
    ⟨path n, content n, artifact n⟩, previousType n, rfl, resolve_path _ _, files_path hn,
    convertFromJson_content hread, checkHeader_artifact n, resolvedPreviousPath_artifact n,
    files_path (by omega), convertFromJson_content (by omega), same_path_succ n,
    evidenceType_artifact n, hprevious, checkReview_artifact hlater⟩

/-- An artifact is accepted at each depth that leaves a level for each of its reviews. -/
theorem accepted {reviews n depth later : ℕ} (hn : n + 1 ≤ reviews) (hlater : n + 1 ≤ later)
    (hdepth : depth + (n + 1) ≤ 64) :
    testRecurringEvidence reader (files reviews) (arguments n).validation (fun _ => time later)
      depth (path (n + 1)) "" = .ok () := by
  induction n generalizing depth with
  | zero => exact accepted_succ hn (by omega) hlater (by omega) rfl
  | succ n ih =>
    have hdeeper := @ih (depth + 1) (by omega) (by omega) (by omega)
    apply accepted_succ hn (by omega) hlater (by omega)
    rw [show previousType (n + 1) = recurringType from rfl,
      testPrevious_of_recurring (reader.same_refl _)]
    exact hdeeper

/-- The collector records the next review wherever the last one is accepted. -/
theorem collected {reviews n : ℕ} (hn : n ≤ reviews) (hread : n < 66)
    (hprevious : testPrevious reader (arguments n).validation
      (fun path => testRecurringEvidence reader (files reviews) (arguments n).validation
        (fun _ => time (n + 1)) 0 path "") (path n) (previousType n)
      "Previous continuity evidence type" = .ok ()) :
    newRecurringEvidence reader (files reviews) (fun _ => time (n + 1)) (time (n + 1))
      (arguments n) = .ok (path (n + 1), artifact (n + 1)) := by
  rw [newRecurringEvidence_eq_ok]
  refine ⟨time (n + 1), ⟨path n, content n, artifact n⟩, previousType n, predecessor n, directory,
    ?_, rfl, ?_, resolve_path _ _, files_path hn, convertFromJson_content hread,
    evidenceType_artifact n, hprevious, predecessor_artifact n, ?_, ?_, resolve_local _ _, ?_,
    Bool.or_true _, rfl⟩
  · simp only [CollectorArguments.bind, require_eq_ok, Bool.and_eq_true]
    have hstatuses : (arguments n).statuses = healthy := rfl
    refine ⟨⟨⟨⟨⟨⟨⟨⟨⟨⟨decide_eq_true (path_ne_empty n), ?_⟩, rfl⟩, rfl⟩, rfl⟩, ?_⟩, ?_⟩, rfl⟩, rfl⟩,
      rfl⟩, rfl⟩
    · show decide ("production-eu" ≠ "") = true
      decide
    · rw [hstatuses]
      decide
    · show ((arguments 0).references.described enteredReferences).all _ = true
      decide
  · show ((arguments 0).references.described enteredReferences).forM checkReference = .ok ()
    rw [Except.forM_eq_ok_iff]
    simp only [checkReference, assertEvidenceReference, require_eq_ok]
    decide +kernel
  · have h := passed n
    have hactive : (artifact n).schedule.status = some "active" := by cases n <;> rfl
    have hcomplete : (artifact n).schedule.monitoringCoverage = some "complete" := by
      cases n <;> rfl
    have hmutation : (artifact n).traffic.mutationPercentagePoints = some 0 := by cases n <;> rfl
    have hretained : (artifact n).rollback.retentionStatus = some "retained" := by cases n <;> rfl
    rw [checkBoundary, require_eq_ok, h.outcome, h.monitoringContinues, h.continuityProven,
      h.observedPercent, h.nextAction, hactive, hcomplete, hmutation, hretained]
    decide
  · have h := admissible n
    rw [checkFreshness, require_eq_ok]
    simp only [Bool.and_eq_true, decide_eq_true_eq]
    exact ⟨⟨⟨⟨h.completed, h.previousAge.1⟩, h.previousAge.2⟩, h.reviewAge.1⟩, h.reviewAge.2⟩
  · rw [reviewSequence, (passed n).sequence]
    show path (n + 1) = reader.evidencePath directory (time (n + 1)) ((n : ℤ) + 1 + 1)
    rw [add_assoc]
    rfl

end Weekly

end ShieldWard.Assurance
