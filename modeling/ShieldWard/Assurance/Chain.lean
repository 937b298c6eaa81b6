import ShieldWard.Assurance.Collected

/-!
# What an accepted chain of reviews guarantees

The validator accepts an artifact only at the end of a chain: recurring artifacts, each linked
to the bytes and the sequence number of its predecessor, down to a scheduled artifact that its
own validator accepts. The chain is found by induction on the levels that the depth guard
leaves, whatever the files are, also when artifacts refer to each other in cycles.
-/

namespace ShieldWard.Assurance

/-! ## Links -/

/-- Two recorded texts are there and the same. -/
def SameText (S : Shell) (a b : Option String) : Prop :=
  ∃ s t, a = some s ∧ b = some t ∧ S.same s t = true

variable {S : Shell}

theorem SameText.symm {a b : Option String} (h : SameText S a b) : SameText S b a := by
  obtain ⟨s, t, ha, hb, hst⟩ := h
  exact ⟨t, s, hb, ha, Shell.same_symm hst⟩

theorem SameText.trans {a b c : Option String} (h : SameText S a b) (h' : SameText S b c) :
    SameText S a c := by
  obtain ⟨s, t, ha, hb, hst⟩ := h
  obtain ⟨t', u, hb', hc, htu⟩ := h'
  rw [hb] at hb'
  obtain rfl := Option.some.inj hb'
  exact ⟨s, u, ha, hc, Shell.same_trans hst htu⟩

theorem SameText.of_records {a b : Option String} {expected : String}
    (ha : S.records a expected = true) (hb : b = some expected) : SameText S a b := by
  obtain ⟨s, hs, hsame⟩ := Shell.records_iff.mp ha
  exact ⟨s, expected, hs, hb, hsame⟩

/-- What no review of a chain changes: the incident, the change, the candidate and the review
interval. -/
structure SameRelease (S : Shell) (a b : Evidence) : Prop where
  incidentId : SameText S a.incidentId b.incidentId
  closureChangeId : SameText S a.closureChangeId b.closureChangeId
  version : SameText S a.candidate.version b.candidate.version
  sourceTag : SameText S a.candidate.sourceTag b.candidate.sourceTag
  controlPlaneImage : SameText S a.candidate.controlPlaneImage b.candidate.controlPlaneImage
  edgeImage : SameText S a.candidate.edgeImage b.candidate.edgeImage
  policyVersion : SameText S a.candidate.policyVersion b.candidate.policyVersion
  interval : ∃ n, a.schedule.reviewIntervalMinutes = some n ∧
    b.schedule.reviewIntervalMinutes = some n

theorem SameRelease.trans {a b c : Evidence} (h : SameRelease S a b) (h' : SameRelease S b c) :
    SameRelease S a c where
  incidentId := h.incidentId.trans h'.incidentId
  closureChangeId := h.closureChangeId.trans h'.closureChangeId
  version := h.version.trans h'.version
  sourceTag := h.sourceTag.trans h'.sourceTag
  controlPlaneImage := h.controlPlaneImage.trans h'.controlPlaneImage
  edgeImage := h.edgeImage.trans h'.edgeImage
  policyVersion := h.policyVersion.trans h'.policyVersion
  interval := by
    obtain ⟨n, ha, hb⟩ := h.interval
    obtain ⟨m, hb', hc⟩ := h'.interval
    rw [hb] at hb'
    obtain rfl := Option.some.inj hb'
    exact ⟨n, ha, hc⟩

/-- A review that passed was completed from five minutes before to two hours after the due time
that its predecessor recorded. -/
def CompletedInTime (S : Shell) (evidence previous : Evidence) : Prop :=
  S.records evidence.outcome "passed" = true →
    ∃ due completed, previous.schedule.nextReviewDueAtUtc = some due ∧
      evidence.review.completedAtUtc = some completed ∧
      due - minutes 5 ≤ completed ∧ completed ≤ due + minutes 120

/-- An artifact and its predecessor. -/
structure Link (S : Shell) (evidence : Evidence) (file : PreviousFile) : Prop where
  path : S.records evidence.previousContinuityEvidence.relativePath
    (S.getRelativePath file.path) = true
  sha256 : S.records evidence.previousContinuityEvidence.sha256 (S.hash file.bytes) = true
  sequence : ∃ n, file.evidence.review.sequence = some n ∧
    evidence.review.sequence = some (n + 1)
  release : SameRelease S evidence file.evidence
  passed : S.records file.evidence.outcome "passed" = true
  inTime : CompletedInTime S evidence file.evidence

/-- The due time that a recurring artifact records is its completion and the interval later. -/
def DueAfterInterval (evidence : Evidence) : Prop :=
  ∃ completed n, evidence.review.completedAtUtc = some completed ∧
    evidence.schedule.reviewIntervalMinutes = some n ∧
    evidence.schedule.nextReviewDueAtUtc = some (completed + minutes n)

/-- The recorded predecessors of the artifact at a path: the recurring artifacts from it on and
the scheduled artifact that they end in. The first predecessor may be named by the call. -/
inductive Chain (S : Shell) (files : Files) (arguments : ValidationArguments) :
    String → String → List Evidence → Evidence → Prop
  | root {path named : String} {bytes : Bytes} {root : Evidence}
      (hfile : files path = some bytes) (hroot : S.convertFromJson bytes = some root)
      (htype : S.records root.evidenceType scheduledType = true)
      (hvalid : S.testScheduledEvidence arguments path = .ok ()) :
      Chain S files arguments path named [] root
  | review {path named : String} {bytes : Bytes} {evidence : Evidence} {file : PreviousFile}
      {entries : List Evidence} {root : Evidence}
      (hfile : files path = some bytes) (hevidence : S.convertFromJson bytes = some evidence)
      (htype : S.records evidence.evidenceType recurringType = true)
      (hpath : resolvedPreviousPath S evidence named = .ok file.path)
      (hprevious : files file.path = some file.bytes)
      (hread : S.convertFromJson file.bytes = some file.evidence)
      (hlink : Link S evidence file) (hdue : DueAfterInterval evidence)
      (hrest : Chain S files arguments file.path "" entries root) :
      Chain S files arguments path named (evidence :: entries) root

variable {files : Files} {arguments : ValidationArguments}

/-- A chain starts with the artifact at its path. -/
theorem Chain.head {path named : String} {entries : List Evidence} {root : Evidence}
    (h : Chain S files arguments path named entries root) :
    ∃ bytes, files path = some bytes ∧
      S.convertFromJson bytes = some ((entries ++ [root]).head (by simp)) := by
  cases h with
  | root hfile hroot _ _ => exact ⟨_, hfile, hroot⟩
  | review hfile hevidence _ _ _ _ _ _ _ => exact ⟨_, hfile, hevidence⟩

/-- The release is the same throughout. -/
theorem Chain.sameRelease {path named : String} {entries : List Evidence} {root : Evidence}
    (h : Chain S files arguments path named entries root) :
    ∀ evidence ∈ entries, SameRelease S evidence root := by
  induction h with
  | root _ _ _ _ =>
    intro _ hmem
    cases hmem
  | @review _ _ _ evidence file entries root _ _ _ _ hprevious hread hlink _ hrest ih =>
    have hhead : SameRelease S evidence root := by
      obtain ⟨bytes, hbytes, hfirst⟩ := hrest.head
      rw [hprevious] at hbytes
      rw [← Option.some.inj hbytes, hread] at hfirst
      have hrelease := hlink.release
      rw [Option.some.inj hfirst] at hrelease
      cases entries with
      | nil => exact hrelease
      | cons next entries => exact hrelease.trans (ih next List.mem_cons_self)
    intro e hmem
    rcases List.mem_cons.mp hmem with rfl | hmem
    · exact hhead
    · exact ih e hmem

/-! ## The checks -/

theorem not_hasFailure_of_passed {previous : Predecessor} {found : Findings} {recorded : String}
    (hrecorded : S.same recorded (reviewOutcome S previous found) = true)
    (hpassed : S.same recorded "passed" = true) : hasFailure S previous found = false := by
  by_contra hfailure
  have houtcome : reviewOutcome S previous found = "failed" := by
    rw [reviewOutcome, if_pos (Bool.not_eq_false _ ▸ hfailure)]
  rw [houtcome] at hrecorded
  have hsame := Shell.same_trans (Shell.same_symm hrecorded) hpassed
  rw [Shell.same_ascii (Shell.ascii_of_all (by decide)) (Shell.ascii_of_all (by decide))] at hsame
  exact absurd hsame (by decide)

/-- A late review has failed. -/
theorem reviewOnTime_of_not_hasFailure {previous : Predecessor} {found : Findings}
    (h : hasFailure S previous found = false) : reviewOnTime previous found = true := by
  by_contra hlate
  rw [Bool.not_eq_true] at hlate
  rw [hasFailure, hlate] at h
  simp at h

variable {evidence : Evidence} {file : PreviousFile} {previousType : String}
  {referenceNow : Time}

theorem sameRelease_of_checks {previous : Predecessor} (hrecorded : previous.RecordedIn file.evidence)
    (hidentity : checkIdentity S evidence previous = .ok ())
    (hcandidate : checkCandidate S evidence previous = .ok ())
    (hinterval : evidence.schedule.reviewIntervalMinutes = some previous.reviewIntervalMinutes) :
    SameRelease S evidence file.evidence := by
  simp only [checkIdentity, checkCandidate, require_eq_ok, Bool.and_eq_true] at hidentity hcandidate
  obtain ⟨hincident, hchange⟩ := hidentity
  obtain ⟨⟨⟨⟨hversion, htag⟩, hcontrol⟩, hedge⟩, hpolicy⟩ := hcandidate
  exact {
    incidentId := .of_records hincident hrecorded.incidentId
    closureChangeId := .of_records hchange hrecorded.closureChangeId
    version := .of_records hversion hrecorded.version
    sourceTag := .of_records htag hrecorded.sourceTag
    controlPlaneImage := .of_records hcontrol hrecorded.controlPlaneImage
    edgeImage := .of_records hedge hrecorded.edgeImage
    policyVersion := .of_records hpolicy hrecorded.policyVersion
    interval := ⟨_, hinterval, hrecorded.reviewIntervalMinutes⟩ }

/-- What the timing check says of a review. -/
structure Timed (evidence : Evidence) (previous : Predecessor) (found : Findings) : Prop where
  sequence : evidence.review.sequence = some (reviewSequence previous)
  grace : found.completionGraceMinutes ≤ 120
  interval : evidence.schedule.reviewIntervalMinutes = some previous.reviewIntervalMinutes
  nextDue : evidence.schedule.nextReviewDueAtUtc = some (nextReviewDueAt previous found)

theorem timed_of_checkTiming {previous : Predecessor} {found : Findings}
    (h : checkTiming evidence previous found referenceNow = .ok ()) :
    Timed evidence previous found := by
  simp only [checkTiming, require_eq_ok, Bool.and_eq_true, decide_eq_true_eq] at h
  obtain ⟨⟨⟨⟨⟨⟨⟨⟨⟨⟨⟨⟨⟨⟨⟨⟨⟨hsequence, _⟩, _⟩, _⟩, _⟩, hgrace⟩, _⟩, hinterval⟩, hnext⟩, _⟩, _⟩, _⟩, _⟩,
    _⟩, _⟩, _⟩, _⟩, _⟩ := h
  exact ⟨hsequence, hgrace, hinterval, hnext⟩

/-- A review whose outcome is derived and passed was completed in time. -/
theorem completedInTime_of_checks {previous : Predecessor} {found : Findings}
    (hrecorded : previous.RecordedIn file.evidence) (hfound : evidence.findings = .ok found)
    (htimed : Timed evidence previous found)
    (houtcome : S.records evidence.outcome (reviewOutcome S previous found) = true) :
    CompletedInTime S evidence file.evidence := by
  intro hpassed
  obtain ⟨recorded, hsome, hderived⟩ := Shell.records_iff.mp houtcome
  rw [hsome, Shell.records_some] at hpassed
  have honTime := reviewOnTime_of_not_hasFailure (not_hasFailure_of_passed hderived hpassed)
  simp only [reviewOnTime, Bool.and_eq_true, decide_eq_true_eq] at honTime
  have hgrace : minutes found.completionGraceMinutes ≤ minutes 120 := by
    have hle := htimed.grace
    unfold minutes
    omega
  exact ⟨_, _, hrecorded.nextReviewDueAt, (Evidence.findings_ok hfound).1, honTime.1,
    honTime.2.trans (Int.add_le_add_left hgrace _)⟩

/-- The checks of an artifact make it the successor of its predecessor. -/
theorem link_of_checkReview
    (h : checkReview S arguments evidence file previousType referenceNow = .ok ()) :
    Link S evidence file ∧ DueAfterInterval evidence := by
  simp only [checkReview, Except.bind_eq_ok_iff] at h
  obtain ⟨previous, hprevious, found, hfound, _, hlink, _, hpassed, _, hidentity, _, hcandidate,
    _, _, _, _, _, _, _, _, _, htiming, _, houtcome, _⟩ := h
  have hrecorded := Evidence.predecessor_ok hprevious
  have htimed := timed_of_checkTiming htiming
  simp only [checkLink, checkPassed, checkOutcome, require_eq_ok, Bool.and_eq_true]
    at hlink hpassed houtcome
  have hdue : DueAfterInterval evidence :=
    ⟨_, _, (Evidence.findings_ok hfound).1, htimed.interval, htimed.nextDue⟩
  refine ⟨?_, hdue⟩
  exact {
    path := hlink.1.1.1.1.1.1.2
    sha256 := hlink.1.1.1.1.1.2
    sequence := ⟨_, hrecorded.sequence, htimed.sequence⟩
    release := sameRelease_of_checks hrecorded hidentity hcandidate htimed.interval
    passed := by rw [hrecorded.outcome]; exact hpassed.1.1.1
    inTime := completedInTime_of_checks hrecorded hfound htimed houtcome.1.1.1.1 }

/-! ## The recursion -/

theorem recurring_of_checkHeader (h : checkHeader S arguments evidence = .ok ()) :
    S.records evidence.evidenceType recurringType = true := by
  simp only [checkHeader, Except.bind_eq_ok_iff, require_eq_ok, Bool.and_eq_true] at h
  obtain ⟨_, hkind, _⟩ := h
  exact hkind.2

/-- The predecessor of an accepted artifact has been accepted as what it is. -/
theorem testPrevious_ok {testRecurring : String → Except String Unit}
    {path unsupported : String}
    (h : testPrevious S arguments testRecurring path previousType unsupported = .ok ()) :
    S.same previousType scheduledType = true ∧ S.testScheduledEvidence arguments path = .ok () ∨
      S.same previousType recurringType = true ∧ testRecurring path = .ok () := by
  unfold testPrevious at h
  split at h
  · next hscheduled => exact .inl ⟨hscheduled, h⟩
  · split at h
    · next hrecurring => exact .inr ⟨hrecurring, h⟩
    · cases h

theorem resolved_of_accepted {clock : ℕ → Time} {depth : ℕ} {path named : String}
    (h : testRecurringEvidence S files arguments clock depth path named = .ok ()) :
    ∃ resolved, resolveLocalStatePath S path "EvidencePath" = .ok resolved := by
  rw [testRecurringEvidence] at h
  split at h
  · cases h
  · obtain ⟨_, resolved, _, _, _, _, _, hresolved, _⟩ := testAtDepth_ok.mp h
    exact ⟨resolved, hresolved⟩

theorem resolve_of_resolvedPreviousPath {named resolved : String}
    (h : resolvedPreviousPath S evidence named = .ok resolved) :
    ∃ path description, resolveLocalStatePath S path description = .ok resolved := by
  unfold resolvedPreviousPath at h
  split at h
  · obtain ⟨recorded, _, hrecorded⟩ := Except.bind_eq_ok_iff.mp h
    exact ⟨recorded, _, hrecorded⟩
  · exact ⟨named, _, h⟩

/-- An artifact accepted at a depth ends a chain that is no longer than the levels left. -/
theorem chain_of_accepted {clock : ℕ → Time} {depth : ℕ} {path named resolved : String}
    (hresolved : resolveLocalStatePath S path "EvidencePath" = .ok resolved)
    (h : testRecurringEvidence S files arguments clock depth path named = .ok ()) :
    ∃ entries root, Chain S files arguments resolved named entries root ∧
      entries ≠ [] ∧ depth + entries.length ≤ 64 := by
  induction hlevels : 64 - depth generalizing depth path named resolved with
  | zero =>
    rw [testRecurringEvidence, dif_pos (by omega)] at h
    cases h
  | succ levels ih =>
    rw [testRecurringEvidence, dif_neg (by omega), testAtDepth_ok] at h
    obtain ⟨_, resolved', bytes, evidence, file, previousType, _, hresolved', hfile, hread,
      hheader, hpath, hfile', hread', _, htype, hprevious, hreview⟩ := h
    rw [hresolved] at hresolved'
    obtain rfl := Except.ok.inj hresolved'
    obtain ⟨hlink, hdue⟩ := link_of_checkReview hreview
    rcases testPrevious_ok hprevious with ⟨hscheduled, hvalid⟩ | ⟨_, haccepted⟩
    · -- the predecessor is the scheduled artifact
      have hroot : S.records file.evidence.evidenceType scheduledType = true := by
        rw [htype]
        exact hscheduled
      refine ⟨[evidence], file.evidence, ?_, by simp, by simp; omega⟩
      exact .review hfile hread (recurring_of_checkHeader hheader) hpath hfile' hread' hlink hdue
        (.root hfile' hread' hroot hvalid)
    · -- the predecessor is accepted one level deeper
      have hsame : resolveLocalStatePath S file.path "EvidencePath" = .ok file.path := by
        obtain ⟨_, hagain⟩ := resolved_of_accepted haccepted
        obtain ⟨_, _, hfirst⟩ := resolve_of_resolvedPreviousPath hpath
        rw [hagain, resolveLocalStatePath_resolved hfirst hagain]
      obtain ⟨entries, root, hchain, _, hlength⟩ := ih hsame haccepted (by omega)
      refine ⟨evidence :: entries, root, ?_, by simp, by simp; omega⟩
      exact .review hfile hread (recurring_of_checkHeader hheader) hpath hfile' hread' hlink hdue
        hchain


/-- Whatever the files are, an accepted artifact ends a chain of at most 64 recurring artifacts
that starts with an accepted scheduled one. -/
theorem accepted_chain (S : Shell) (files : Files) (arguments : ValidationArguments)
    (clock : ℕ → Time) (path named : String)
    (h : testRecurringEvidence S files arguments clock 0 path named = .ok ()) :
    ∃ resolved entries root,
      resolveLocalStatePath S path "EvidencePath" = .ok resolved ∧
      Chain S files arguments resolved named entries root ∧
      entries ≠ [] ∧ entries.length ≤ 64 ∧
      ∀ evidence ∈ entries, SameRelease S evidence root := by
  obtain ⟨resolved, hresolved⟩ := resolved_of_accepted h
  obtain ⟨entries, root, hchain, hne, hlength⟩ := chain_of_accepted hresolved h
  exact ⟨resolved, entries, root, hresolved, hchain, hne, by omega, hchain.sameRelease⟩

/-- The chain of two weekly reviews. -/
theorem accepted_chain_weekly :
    ∃ resolved entries root,
      resolveLocalStatePath Weekly.reader (Weekly.path 2) "EvidencePath" = .ok resolved ∧
      Chain Weekly.reader (Weekly.files 2) (Weekly.arguments 1).validation resolved "" entries
        root ∧
      entries ≠ [] ∧ entries.length ≤ 64 ∧
      ∀ evidence ∈ entries, SameRelease Weekly.reader evidence root :=
  accepted_chain Weekly.reader (Weekly.files 2) (Weekly.arguments 1).validation
    (fun _ => Weekly.time 2) (Weekly.path 2) ""
    (Weekly.accepted (by decide) (by decide) (by decide))

end ShieldWard.Assurance
