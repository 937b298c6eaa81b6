import ShieldWard.Assurance.Evidence

/-!
# The validator and the collector of recurring artifacts

`test-production-assurance-recurring-evidence.ps1` validates an artifact against its
predecessor, after the predecessor's own validation one level deeper, and refuses to go deeper
than 64 levels. `new-production-assurance-recurring-evidence.ps1` validates the predecessor in
the same way before it writes an artifact. What the validator checks is split as its `throw`
statements are.
-/

namespace ShieldWard.Assurance

def scheduledType : String := "scheduled-production-assurance-continuity"

def recurringType : String := "recurring-production-assurance-continuity"

def continueAction : String := "continue-scheduled-production-assurance"

/-- What a script knows of the predecessor: where it lies, its bytes and what they hold. -/
structure PreviousFile where
  path : String
  bytes : Bytes
  evidence : Evidence

/-- The descriptions of the references in the validator. -/
def recordedReferences : List String :=
  ["Previous continuity gate reference", "Scheduled review reference",
    "Traffic state reference", "Monitoring evidence reference", "Drift evidence reference",
    "Rollback retention reference", "ReviewedBy"]

/-- The descriptions of the references in the collector. -/
def enteredReferences : List String :=
  ["PreviousContinuityGateReference", "ScheduledReviewReference", "TrafficStateReference",
    "MonitoringEvidenceReference", "DriftEvidenceReference", "RollbackRetentionReference",
    "ReviewedBy"]

/-- A file that must be there, as `Get-Content` and `ConvertFrom-Json` read it. -/
def openEvidence (S : Shell) (files : Files) (path missing : String) :
    Except String (Bytes × Evidence) :=
  match files path with
  | none => .error (missing ++ path)
  | some bytes => do
    let evidence ← property (S.convertFromJson bytes)
    return (bytes, evidence)

/-- The validation of a predecessor, by its type. -/
def testPrevious (S : Shell) (arguments : ValidationArguments)
    (testRecurring : String → Except String Unit) (path previousType unsupported : String) :
    Except String Unit :=
  if S.same previousType scheduledType then S.testScheduledEvidence arguments path
  else if S.same previousType recurringType then testRecurring path
  else .error (unsupported ++ " '" ++ previousType ++ "' is unsupported.")

/-! ## The validator -/

section Validator

variable (S : Shell) (arguments : ValidationArguments) (evidence : Evidence)

def checkHeader : Except String Unit := do
  require (evidence.schemaVersion = some 1 && S.records evidence.environment "production" &&
      S.records evidence.evidenceType recurringType)
    "The supplied recurring production assurance evidence is unsupported."
  require (S.records evidence.productionContext arguments.expectedProductionContext)
    ("The recurring assurance evidence targets '" ++ evidence.productionContext.getD "" ++
      "'; expected '" ++ arguments.expectedProductionContext ++ "'.")
  require (S.records evidence.namespaceName "shieldward")
    ("The recurring assurance evidence uses unsupported namespace '" ++
      evidence.namespaceName.getD "" ++ "'.")

/-- The predecessor that the call names, or else the one that the artifact records. -/
def resolvedPreviousPath (previousContinuityEvidencePath : String) : Except String String :=
  if isBlank previousContinuityEvidencePath then do
    let recorded ← property evidence.previousContinuityEvidence.relativePath
    resolveLocalStatePath S recorded "Recorded previous continuity evidence path"
  else resolveLocalStatePath S previousContinuityEvidencePath "PreviousContinuityEvidencePath"

def Evidence.statuses : Except String Statuses := do
  return {
    reviewExecution := ← property evidence.review.executionStatus
    trafficEnforcement := ← property evidence.traffic.enforcementStatus
    assuranceSchedule := ← property evidence.schedule.status
    monitoringCoverage := ← property evidence.schedule.monitoringCoverage
    errorBudget := ← property evidence.signals.errorBudget
    alerts := ← property evidence.signals.alerts
    functional := ← property evidence.signals.functional
    dependencies := ← property evidence.signals.dependencies
    operations := ← property evidence.signals.operations
    capacity := ← property evidence.signals.capacity
    security := ← property evidence.signals.security
    images := ← property evidence.drift.images
    policy := ← property evidence.drift.policy
    configuration := ← property evidence.drift.configuration
    identity := ← property evidence.drift.identity
    certificates := ← property evidence.drift.certificates
    routing := ← property evidence.drift.routing
    rollbackRetention := ← property evidence.rollback.retentionStatus }

def Evidence.references : Except String References := do
  return {
    previousContinuityGate := ← property evidence.externalEvidence.previousContinuityGateReference
    scheduledReview := ← property evidence.externalEvidence.scheduledReviewReference
    trafficState := ← property evidence.externalEvidence.trafficStateReference
    monitoringEvidence := ← property evidence.externalEvidence.monitoringEvidenceReference
    driftEvidence := ← property evidence.externalEvidence.driftEvidenceReference
    rollbackRetention := ← property evidence.externalEvidence.rollbackRetentionReference
    reviewedBy := ← property evidence.externalEvidence.reviewedBy }

def Evidence.findings : Except String Findings := do
  return {
    completedAt := ← property evidence.review.completedAtUtc
    completionGraceMinutes := ← property evidence.review.completionGraceMinutes
    observedPercent := ← property evidence.traffic.observedPercent
    statuses := ← evidence.statuses
    references := ← evidence.references
    maxPreviousEvidenceAgeHours := ← property evidence.review.maxPreviousEvidenceAgeHours
    maxReviewAgeMinutes := ← property evidence.review.maxReviewAgeMinutes
    collectedAt := ← property evidence.collectedAtUtc }

variable {evidence} in
/-- The times and bounds of a review stand in its artifact. -/
theorem Evidence.findings_ok {found : Findings} (h : evidence.findings = .ok found) :
    evidence.review.completedAtUtc = some found.completedAt ∧
      evidence.review.completionGraceMinutes = some found.completionGraceMinutes ∧
      evidence.collectedAtUtc = some found.collectedAt := by
  simp only [Evidence.findings, Except.bind_eq_ok_iff, property_eq_ok] at h
  obtain ⟨_, hcompleted, _, hgrace, _, _, _, _, _, _, _, _, _, _, _, hcollected, h⟩ := h
  obtain rfl := Except.ok.inj h
  exact ⟨hcompleted, hgrace, hcollected⟩

variable (file : PreviousFile) (previousType : String) (previous : Predecessor)
  (found : Findings)

def checkLink : Except String Unit :=
  let link := evidence.previousContinuityEvidence
  require (S.records link.evidenceType previousType &&
      S.records link.relativePath (S.getRelativePath file.path) &&
      S.records link.sha256 (S.hash file.bytes) &&
      S.records link.integrityDigest previous.integrityDigest &&
      link.collectedAtUtc = some previous.collectedAt &&
      link.reviewSequence = some previous.sequence &&
      S.records link.outcome "passed" &&
      link.continuityProven = some true)
    ("The exact passed previous continuity evidence no longer matches the recurring " ++
      "assurance link.")

def checkPassed : Except String Unit :=
  require (S.same previous.outcome "passed" && previous.monitoringContinues &&
      previous.continuityProven && S.same previous.nextAction continueAction)
    "Recurring assurance requires a passed previous continuity review."

def checkIdentity : Except String Unit :=
  require (S.records evidence.incidentId previous.incidentId &&
      S.records evidence.closureChangeId previous.closureChangeId)
    "The recurring assurance identity does not match previous continuity evidence."

def checkCandidate : Except String Unit :=
  let candidate := evidence.candidate
  require (S.records candidate.version previous.version &&
      S.records candidate.sourceTag previous.sourceTag &&
      S.records candidate.controlPlaneImage previous.controlPlaneImage &&
      S.records candidate.edgeImage previous.edgeImage &&
      S.records candidate.policyVersion previous.policyVersion)
    "The recurring assurance candidate does not match previous continuity evidence."

def checkStatus (contract : StatusContract) : Except String Unit :=
  require (S.contains contract.allowed contract.actual)
    ("The recurring assurance evidence contains unsupported " ++ contract.name ++ " status '" ++
      contract.actual ++ "'.")

def checkReference (reference : String × String) : Except String Unit :=
  assertEvidenceReference reference.1 reference.2

def checkTraffic : Except String Unit :=
  let traffic := evidence.traffic
  require (previous.observedPercent = 100 && traffic.expectedPercent = some 100 &&
      traffic.matchesPrevious = some (trafficMatchesPrevious previous found) &&
      traffic.externallyEnforced = some (S.same found.statuses.trafficEnforcement "confirmed") &&
      traffic.mutationPercentagePoints = some 0)
    ("The recurring assurance traffic evidence is inconsistent with the previous 100-percent " ++
      "boundary.")

def checkRollback : Except String Unit :=
  let rollback := evidence.rollback
  require (rollback.targetPercent = some previous.targetPercent &&
      rollback.emergencyTargetPercent = some previous.emergencyTargetPercent &&
      S.records rollback.authority previous.authority &&
      S.records rollback.procedureReference previous.procedureReference)
    "The recurring assurance rollback evidence is inconsistent with previous continuity evidence."

def checkTiming (referenceNow : Time) : Except String Unit :=
  let review := evidence.review
  let previousAge := found.collectedAt - previous.collectedAt
  let reviewAge := found.collectedAt - found.completedAt
  require (review.sequence = some (reviewSequence previous) &&
      review.previousSequence = some previous.sequence &&
      review.expectedDueAtUtc = some previous.nextReviewDueAt &&
      previous.completedAt ≤ found.completedAt &&
      0 ≤ found.completionGraceMinutes && found.completionGraceMinutes ≤ 120 &&
      review.onTime = some (reviewOnTime previous found) &&
      evidence.schedule.reviewIntervalMinutes = some previous.reviewIntervalMinutes &&
      evidence.schedule.nextReviewDueAtUtc = some (nextReviewDueAt previous found) &&
      1 ≤ found.maxPreviousEvidenceAgeHours && found.maxPreviousEvidenceAgeHours ≤ 2160 &&
      -hours 1 ≤ previousAge && previousAge ≤ hours found.maxPreviousEvidenceAgeHours &&
      5 ≤ found.maxReviewAgeMinutes && found.maxReviewAgeMinutes ≤ 1440 &&
      -minutes 5 ≤ reviewAge && reviewAge ≤ minutes found.maxReviewAgeMinutes &&
      found.collectedAt - minutes 5 ≤ referenceNow)
    "The recurring assurance review timing, sequence, or freshness boundary is invalid."

def checkOutcome : Except String Unit :=
  let decision := evidence.decision
  require (S.records evidence.outcome (reviewOutcome S previous found) &&
      decision.monitoringContinues = some (monitoringContinues S found) &&
      decision.continuityLinkValid = some true &&
      decision.continuityProven = some (continuityProven S previous found) &&
      S.records decision.nextAction (nextAction S previous found))
    ("The recurring assurance continuity outcome or action is inconsistent with recorded " ++
      "evidence.")

def checkDigest : Except String Unit :=
  require (S.records evidence.integrityDigest
      (integrityDigest S previous found previousType (S.hash file.bytes)
        arguments.expectedProductionContext))
    "The recurring production assurance evidence integrity digest is invalid."

/-- The checks of an artifact against its predecessor, once the predecessor is valid. -/
def checkReview (referenceNow : Time) : Except String Unit := do
  let previous ← file.evidence.predecessor
  let found ← evidence.findings
  checkLink S evidence file previousType previous
  checkPassed S previous
  checkIdentity S evidence previous
  checkCandidate S evidence previous
  found.statuses.contracts.forM (checkStatus S)
  (found.references.described recordedReferences).forM checkReference
  checkTraffic S evidence previous found
  checkRollback S evidence previous
  checkTiming evidence previous found referenceNow
  checkOutcome S evidence previous found
  checkDigest S arguments evidence file previousType previous found

end Validator

/-- The script up to the depth of the chain: `testRecurring` is the script one level deeper. -/
def testAtDepth (S : Shell) (files : Files) (arguments : ValidationArguments) (utcNow : Time)
    (testRecurring : String → Except String Unit)
    (evidencePath previousContinuityEvidencePath : String) : Except String Unit := do
  let referenceNow ← referenceTime S arguments utcNow
  let resolvedEvidencePath ← resolveLocalStatePath S evidencePath "EvidencePath"
  let (_, evidence) ← openEvidence S files resolvedEvidencePath
    "Recurring production assurance evidence is missing: "
  checkHeader S arguments evidence
  let previousPath ← resolvedPreviousPath S evidence previousContinuityEvidencePath
  let (previousBytes, previousEvidence) ← openEvidence S files previousPath
    "Recorded previous production assurance continuity evidence is missing: "
  require (!S.same previousPath resolvedEvidencePath)
    "Recurring assurance evidence cannot reference itself as its previous review."
  let previousType ← property previousEvidence.evidenceType
  testPrevious S arguments testRecurring previousPath previousType
    "Recorded previous continuity evidence type"
  checkReview S arguments evidence ⟨previousPath, previousBytes, previousEvidence⟩ previousType
    referenceNow

/-- `test-production-assurance-recurring-evidence.ps1` at a depth of the chain; the clock gives
the time at which the script starts at each depth. -/
def testRecurringEvidence (S : Shell) (files : Files) (arguments : ValidationArguments)
    (clock : ℕ → Time) (chainDepth : ℕ) (evidencePath previousContinuityEvidencePath : String) :
    Except String Unit :=
  if _hdepth : 64 ≤ chainDepth then
    .error "The recurring assurance chain exceeds the supported validation depth."
  else
    testAtDepth S files arguments (clock chainDepth)
      (fun path => testRecurringEvidence S files arguments clock (chainDepth + 1) path "")
      evidencePath previousContinuityEvidencePath
termination_by 64 - chainDepth
decreasing_by omega

section Rules

variable {S : Shell} {files : Files} {arguments : ValidationArguments}

theorem openEvidence_ok {path missing : String} {bytes : Bytes} {evidence : Evidence} :
    openEvidence S files path missing = .ok (bytes, evidence) ↔
      files path = some bytes ∧ S.convertFromJson bytes = some evidence := by
  unfold openEvidence
  split
  · next hnone => simp [hnone]
  · next bytes' hsome =>
    rw [Except.bind_eq_ok_iff, hsome]
    constructor
    · rintro ⟨evidence', hread, hpair⟩
      obtain ⟨rfl, rfl⟩ := Prod.mk.inj (Except.ok.inj hpair)
      exact ⟨rfl, property_eq_ok.mp hread⟩
    · rintro ⟨hbytes, hread⟩
      obtain rfl := Option.some.inj hbytes
      exact ⟨evidence, property_eq_ok.mpr hread, rfl⟩

/-- What the script does at a depth, statement by statement. -/
theorem testAtDepth_ok {utcNow : Time} {testRecurring : String → Except String Unit}
    {path named : String} :
    testAtDepth S files arguments utcNow testRecurring path named = .ok () ↔
      ∃ referenceNow resolved bytes evidence file previousType,
        referenceTime S arguments utcNow = .ok referenceNow ∧
        resolveLocalStatePath S path "EvidencePath" = .ok resolved ∧
        files resolved = some bytes ∧ S.convertFromJson bytes = some evidence ∧
        checkHeader S arguments evidence = .ok () ∧
        resolvedPreviousPath S evidence named = .ok file.path ∧
        files file.path = some file.bytes ∧
        S.convertFromJson file.bytes = some file.evidence ∧
        S.same file.path resolved = false ∧
        file.evidence.evidenceType = some previousType ∧
        testPrevious S arguments testRecurring file.path previousType
          "Recorded previous continuity evidence type" = .ok () ∧
        checkReview S arguments evidence file previousType referenceNow = .ok () := by
  simp only [testAtDepth, Except.bind_eq_ok_iff]
  constructor
  · rintro ⟨referenceNow, hnow, resolved, hresolved, ⟨bytes, evidence⟩, hopen, _, hheader,
      previousPath, hpath, ⟨previousBytes, previousEvidence⟩, hopenPrevious, _, hself,
      previousType, htype, _, hprevious, hreview⟩
    obtain ⟨hfile, hread⟩ := openEvidence_ok.mp hopen
    obtain ⟨hfile', hread'⟩ := openEvidence_ok.mp hopenPrevious
    rw [require_eq_ok, Bool.not_eq_true'] at hself
    exact ⟨referenceNow, resolved, bytes, evidence, ⟨previousPath, previousBytes, previousEvidence⟩,
      previousType, hnow, hresolved, hfile, hread, hheader, hpath, hfile', hread', hself,
      property_eq_ok.mp htype, hprevious, hreview⟩
  · rintro ⟨referenceNow, resolved, bytes, evidence, file, previousType, hnow, hresolved, hfile,
      hread, hheader, hpath, hfile', hread', hself, htype, hprevious, hreview⟩
    refine ⟨referenceNow, hnow, resolved, hresolved, (bytes, evidence),
      openEvidence_ok.mpr ⟨hfile, hread⟩, (), hheader, file.path, hpath,
      (file.bytes, file.evidence), openEvidence_ok.mpr ⟨hfile', hread'⟩, (), ?_,
      previousType, property_eq_ok.mpr htype, (), hprevious, hreview⟩
    rw [require_eq_ok, hself]
    rfl

/-- No artifact is of both types. -/
theorem same_scheduledType_of_recurring {previousType : String}
    (h : S.same previousType recurringType = true) : S.same previousType scheduledType = false := by
  by_contra hscheduled
  rw [Bool.not_eq_false] at hscheduled
  have hsame := Shell.same_trans (Shell.same_symm h) hscheduled
  rw [Shell.same_ascii (Shell.ascii_of_all (by decide)) (Shell.ascii_of_all (by decide))] at hsame
  exact absurd hsame (by decide)

theorem testPrevious_of_recurring {testRecurring : String → Except String Unit}
    {path previousType unsupported : String} (h : S.same previousType recurringType = true) :
    testPrevious S arguments testRecurring path previousType unsupported = testRecurring path := by
  rw [testPrevious, same_scheduledType_of_recurring h, h]
  rfl

theorem testPrevious_of_scheduled {testRecurring : String → Except String Unit}
    {path previousType unsupported : String} (h : S.same previousType scheduledType = true) :
    testPrevious S arguments testRecurring path previousType unsupported =
      S.testScheduledEvidence arguments path := by
  rw [testPrevious, h]
  rfl

end Rules

/-! ## The collector -/

/-- The arguments of the collector. -/
structure CollectorArguments where
  previousContinuityEvidencePath : String
  expectedProductionContext : String
  reviewCompletedAtUtc : Time
  completionGraceMinutes : ℤ
  observedTrafficPercent : ℤ
  statuses : Statuses
  references : References
  maxPreviousEvidenceAgeHours : ℤ
  maxReviewAgeMinutes : ℤ
  outputDirectory : String
  checkCluster : Bool
  force : Bool
  referenceTimeUtc : String

namespace CollectorArguments

variable (a : CollectorArguments)

/-- What the collector hands to the validation of the predecessor. -/
def validation : ValidationArguments where
  expectedProductionContext := a.expectedProductionContext
  checkCluster := a.checkCluster
  referenceTimeUtc := a.referenceTimeUtc

/-- The validation attributes of the parameters. -/
def bind (S : Shell) : Except String Unit :=
  require (a.previousContinuityEvidencePath ≠ "" && a.expectedProductionContext ≠ "" &&
      0 ≤ a.completionGraceMinutes && a.completionGraceMinutes ≤ 120 &&
      a.observedTrafficPercent = 100 &&
      a.statuses.contracts.all (fun contract => S.contains contract.allowed contract.actual) &&
      (a.references.described enteredReferences).all (fun reference => reference.1 ≠ "") &&
      1 ≤ a.maxPreviousEvidenceAgeHours && a.maxPreviousEvidenceAgeHours ≤ 2160 &&
      5 ≤ a.maxReviewAgeMinutes && a.maxReviewAgeMinutes ≤ 1440)
    "Cannot validate argument on parameter."

/-- What the review found, collected at a time. -/
def findings (collectedAt : Time) : Findings where
  completedAt := a.reviewCompletedAtUtc
  completionGraceMinutes := a.completionGraceMinutes
  observedPercent := a.observedTrafficPercent
  statuses := a.statuses
  references := a.references
  maxPreviousEvidenceAgeHours := a.maxPreviousEvidenceAgeHours
  maxReviewAgeMinutes := a.maxReviewAgeMinutes
  collectedAt := collectedAt

end CollectorArguments

section Collector

variable (S : Shell) (previous : Predecessor) (found : Findings)

/-- The predecessor must have passed, with everything that keeps assurance going. -/
def checkBoundary (file : PreviousFile) : Except String Unit :=
  require (S.same previous.outcome "passed" && previous.monitoringContinues &&
      previous.continuityProven && S.records file.evidence.schedule.status "active" &&
      S.records file.evidence.schedule.monitoringCoverage "complete" &&
      previous.observedPercent = 100 &&
      file.evidence.traffic.mutationPercentagePoints = some 0 &&
      S.records file.evidence.rollback.retentionStatus "retained" &&
      S.same previous.nextAction continueAction)
    "Recurring assurance requires exact passed previous continuity evidence."

def checkFreshness : Except String Unit :=
  let previousAge := found.collectedAt - previous.collectedAt
  let reviewAge := found.collectedAt - found.completedAt
  require (previous.completedAt ≤ found.completedAt && -hours 1 ≤ previousAge &&
      previousAge ≤ hours found.maxPreviousEvidenceAgeHours && -minutes 5 ≤ reviewAge &&
      reviewAge ≤ minutes found.maxReviewAgeMinutes)
    ("Recurring assurance review evidence must follow the previous review and use current " ++
      "freshness-bounded observations.")

/-- The artifact that the collector writes. -/
def recurringEvidence (file : PreviousFile) (previousType productionContext : String) :
    Evidence where
  schemaVersion := some 1
  environment := some "production"
  evidenceType := some recurringType
  outcome := some (reviewOutcome S previous found)
  collectedAtUtc := some found.collectedAt
  productionContext := some productionContext
  namespaceName := some "shieldward"
  incidentId := some previous.incidentId
  closureChangeId := some previous.closureChangeId
  previousContinuityEvidence :=
    { evidenceType := some previousType
      relativePath := some (S.getRelativePath file.path)
      sha256 := some (S.hash file.bytes)
      integrityDigest := some previous.integrityDigest
      collectedAtUtc := some previous.collectedAt
      reviewSequence := some previous.sequence
      outcome := some previous.outcome
      continuityProven := some previous.continuityProven }
  candidate :=
    { version := some previous.version
      sourceTag := some previous.sourceTag
      controlPlaneImage := some previous.controlPlaneImage
      edgeImage := some previous.edgeImage
      policyVersion := some previous.policyVersion }
  review :=
    { sequence := some (reviewSequence previous)
      previousSequence := some previous.sequence
      executionStatus := some found.statuses.reviewExecution
      expectedDueAtUtc := some previous.nextReviewDueAt
      completedAtUtc := some found.completedAt
      completionGraceMinutes := some found.completionGraceMinutes
      onTime := some (reviewOnTime previous found)
      maxPreviousEvidenceAgeHours := some found.maxPreviousEvidenceAgeHours
      maxReviewAgeMinutes := some found.maxReviewAgeMinutes }
  schedule :=
    { status := some found.statuses.assuranceSchedule
      monitoringCoverage := some found.statuses.monitoringCoverage
      reviewIntervalMinutes := some previous.reviewIntervalMinutes
      nextReviewDueAtUtc := some (nextReviewDueAt previous found) }
  traffic :=
    { expectedPercent := some 100
      observedPercent := some found.observedPercent
      matchesPrevious := some (trafficMatchesPrevious previous found)
      enforcementStatus := some found.statuses.trafficEnforcement
      externallyEnforced := some (S.same found.statuses.trafficEnforcement "confirmed")
      mutationPercentagePoints := some 0 }
  signals :=
    { errorBudget := some found.statuses.errorBudget
      alerts := some found.statuses.alerts
      functional := some found.statuses.functional
      dependencies := some found.statuses.dependencies
      operations := some found.statuses.operations
      capacity := some found.statuses.capacity
      security := some found.statuses.security }
  drift :=
    { images := some found.statuses.images
      policy := some found.statuses.policy
      configuration := some found.statuses.configuration
      identity := some found.statuses.identity
      certificates := some found.statuses.certificates
      routing := some found.statuses.routing }
  rollback :=
    { targetPercent := some previous.targetPercent
      emergencyTargetPercent := some previous.emergencyTargetPercent
      authority := some previous.authority
      procedureReference := some previous.procedureReference
      retentionStatus := some found.statuses.rollbackRetention }
  externalEvidence :=
    { previousContinuityGateReference := some found.references.previousContinuityGate
      scheduledReviewReference := some found.references.scheduledReview
      trafficStateReference := some found.references.trafficState
      monitoringEvidenceReference := some found.references.monitoringEvidence
      driftEvidenceReference := some found.references.driftEvidence
      rollbackRetentionReference := some found.references.rollbackRetention
      reviewedBy := some found.references.reviewedBy }
  decision :=
    { monitoringContinues := some (monitoringContinues S found)
      continuityLinkValid := some true
      continuityProven := some (continuityProven S previous found)
      nextAction := some (nextAction S previous found) }
  integrityDigest := some
    (integrityDigest S previous found previousType (S.hash file.bytes) productionContext)

end Collector

/-- `new-production-assurance-recurring-evidence.ps1`: the path and the artifact that it
writes. -/
def newRecurringEvidence (S : Shell) (files : Files) (clock : ℕ → Time) (utcNow : Time)
    (a : CollectorArguments) : Except String (String × Evidence) := do
  a.bind S
  let referenceNow ← referenceTime S a.validation utcNow
  (a.references.described enteredReferences).forM checkReference
  let previousPath ← resolveLocalStatePath S a.previousContinuityEvidencePath
    "PreviousContinuityEvidencePath"
  let (previousBytes, previousEvidence) ← openEvidence S files previousPath
    "Previous production assurance continuity evidence is missing: "
  let previousType ← property previousEvidence.evidenceType
  testPrevious S a.validation
    (fun path => testRecurringEvidence S files a.validation clock 0 path "") previousPath
    previousType "Previous continuity evidence type"
  let previous ← previousEvidence.predecessor
  let file : PreviousFile := ⟨previousPath, previousBytes, previousEvidence⟩
  let found := a.findings referenceNow
  checkBoundary S previous file
  checkFreshness previous found
  let outputDirectory ← resolveLocalStatePath S a.outputDirectory "OutputDirectory"
  let path := S.evidencePath outputDirectory referenceNow (reviewSequence previous)
  require ((files path).isNone || a.force)
    ("Recurring production assurance evidence already exists: " ++ path ++
      ". Use -Force only to replace this generated record.")
  return (path, recurringEvidence S previous found file previousType a.expectedProductionContext)

/-- What the collector does, statement by statement. -/
theorem newRecurringEvidence_eq_ok {S : Shell} {files : Files} {clock : ℕ → Time} {utcNow : Time}
    {a : CollectorArguments} {path : String} {evidence : Evidence} :
    newRecurringEvidence S files clock utcNow a = .ok (path, evidence) ↔
      ∃ referenceNow file previousType previous outputDirectory,
        a.bind S = .ok () ∧ referenceTime S a.validation utcNow = .ok referenceNow ∧
        (a.references.described enteredReferences).forM checkReference = .ok () ∧
        resolveLocalStatePath S a.previousContinuityEvidencePath
          "PreviousContinuityEvidencePath" = .ok file.path ∧
        files file.path = some file.bytes ∧
        S.convertFromJson file.bytes = some file.evidence ∧
        file.evidence.evidenceType = some previousType ∧
        testPrevious S a.validation
          (fun path => testRecurringEvidence S files a.validation clock 0 path "") file.path
          previousType "Previous continuity evidence type" = .ok () ∧
        file.evidence.predecessor = .ok previous ∧
        checkBoundary S previous file = .ok () ∧
        checkFreshness previous (a.findings referenceNow) = .ok () ∧
        resolveLocalStatePath S a.outputDirectory "OutputDirectory" = .ok outputDirectory ∧
        path = S.evidencePath outputDirectory referenceNow (reviewSequence previous) ∧
        ((files path).isNone || a.force) = true ∧
        evidence = recurringEvidence S previous (a.findings referenceNow) file previousType
          a.expectedProductionContext := by
  simp only [newRecurringEvidence, Except.bind_eq_ok_iff]
  constructor
  · rintro ⟨_, hbind, referenceNow, hnow, _, hreferences, previousPath, hpath,
      ⟨previousBytes, previousEvidence⟩, hopen, previousType, htype, _, htest, previous, hprevious,
      _, hboundary, _, hfresh, outputDirectory, houtput, _, hforce, hresult⟩
    obtain ⟨hfile, hread⟩ := openEvidence_ok.mp hopen
    obtain ⟨rfl, rfl⟩ := Prod.mk.inj (Except.ok.inj hresult)
    exact ⟨referenceNow, ⟨previousPath, previousBytes, previousEvidence⟩, previousType, previous,
      outputDirectory, hbind, hnow, hreferences, hpath, hfile, hread, property_eq_ok.mp htype,
      htest, hprevious, hboundary, hfresh, houtput, rfl, require_eq_ok.mp hforce, rfl⟩
  · rintro ⟨referenceNow, file, previousType, previous, outputDirectory, hbind, hnow, hreferences,
      hpath, hfile, hread, htype, htest, hprevious, hboundary, hfresh, houtput, rfl, hforce, rfl⟩
    exact ⟨(), hbind, referenceNow, hnow, (), hreferences, file.path, hpath,
      (file.bytes, file.evidence), openEvidence_ok.mpr ⟨hfile, hread⟩, previousType,
      property_eq_ok.mpr htype, (), htest, previous, hprevious, (), hboundary, (), hfresh,
      outputDirectory, houtput, (), require_eq_ok.mpr hforce, rfl⟩

end ShieldWard.Assurance
