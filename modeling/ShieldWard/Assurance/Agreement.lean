import ShieldWard.Assurance.Chain

/-!
# Where the collector and the validator agree

The validator accepts what the collector writes up to one check: the collector validates the
predecessor at the depth at which the validator starts, the validator one level deeper. So a
chain that fills the supported depth is extended by an artifact that is never accepted. The
levels that an artifact needs are those of its recorded predecessors (`reachesScheduled`).
-/

namespace ShieldWard.Assurance

/-- The artifact at a path. -/
def readEvidence (S : Shell) (files : Files) (path : String) : Option Evidence :=
  (files path).bind S.convertFromJson

/-- The recorded predecessors lead to a scheduled artifact after at most a number of recurring
ones. -/
def reachesScheduled (S : Shell) (files : Files) : ℕ → String → Bool
  | 0, path =>
    (readEvidence S files path).any fun evidence => S.records evidence.evidenceType scheduledType
  | levels + 1, path =>
    (readEvidence S files path).any fun evidence =>
      S.records evidence.evidenceType scheduledType ||
        match resolvedPreviousPath S evidence "" with
        | .ok previous => reachesScheduled S files levels previous
        | .error _ => false

/-- The artifacts that the recorded predecessors lead to. -/
inductive Precedes (S : Shell) (files : Files) : String → String → Prop
  | refl (path : String) : Precedes S files path path
  | step {path previous target : String} {bytes : Bytes} {evidence : Evidence}
      (hfile : files path = some bytes) (hread : S.convertFromJson bytes = some evidence)
      (hprevious : resolvedPreviousPath S evidence "" = .ok previous)
      (hrest : Precedes S files previous target) : Precedes S files path target

section Agreement

variable {S : Shell} {files files' : Files} {arguments : ValidationArguments}

theorem reachesScheduled_of_scheduled {path : String} {evidence : Evidence}
    (hread : readEvidence S files path = some evidence)
    (htype : S.records evidence.evidenceType scheduledType = true) (levels : ℕ) :
    reachesScheduled S files levels path = true := by
  cases levels <;> simp [reachesScheduled, hread, htype]

theorem reachesScheduled_of_recurring {path previous : String} {evidence : Evidence}
    (hread : readEvidence S files path = some evidence)
    (htype : S.records evidence.evidenceType recurringType = true)
    (hprevious : resolvedPreviousPath S evidence "" = .ok previous) (levels : ℕ) :
    reachesScheduled S files (levels + 1) path = reachesScheduled S files levels previous := by
  obtain ⟨text, htext, hsame⟩ := Shell.records_iff.mp htype
  have hscheduled : S.records evidence.evidenceType scheduledType = false := by
    rw [htext, Shell.records_some]
    exact same_scheduledType_of_recurring hsame
  rw [reachesScheduled, hread, Option.any_some, hscheduled, hprevious]
  rfl

/-- An artifact and its predecessor with every check passed but those of the predecessor: that it
is another artifact, and its own test. -/
structure Opened (S : Shell) (files : Files) (arguments : ValidationArguments) (utcNow : Time)
    (path named : String) where
  resolved : String
  bytes : Bytes
  evidence : Evidence
  file : PreviousFile
  previousType : String
  resolved_eq : resolveLocalStatePath S path "EvidencePath" = .ok resolved
  opened : openEvidence S files resolved "Recurring production assurance evidence is missing: " =
    .ok (bytes, evidence)
  header : checkHeader S arguments evidence = .ok ()
  previousPath : resolvedPreviousPath S evidence named = .ok file.path
  openedPrevious : openEvidence S files file.path
    "Recorded previous production assurance continuity evidence is missing: " =
      .ok (file.bytes, file.evidence)
  type : file.evidence.evidenceType = some previousType
  review : ∃ referenceNow, referenceTime S arguments utcNow = .ok referenceNow ∧
    checkReview S arguments evidence file previousType referenceNow = .ok ()

namespace Opened

variable {utcNow : Time} {path named : String}

/-- What is left is that the predecessor is another artifact and valid. -/
theorem testAtDepth_eq (o : Opened S files arguments utcNow path named)
    (testRecurring : String → Except String Unit) :
    testAtDepth S files arguments utcNow testRecurring path named =
      (require (!S.same o.file.path o.resolved)
        "Recurring assurance evidence cannot reference itself as its previous review.").bind
        fun _ => testPrevious S arguments testRecurring o.file.path o.previousType
          "Recorded previous continuity evidence type" := by
  have hok {α β : Type} (a : α) (f : α → Except String β) : (Except.ok a >>= f) = f a := rfl
  have hdone (done : Except String Unit) : (done >>= fun _ => .ok ()) = done := by
    cases done <;> rfl
  have htype : property o.file.evidence.evidenceType = .ok o.previousType :=
    property_eq_ok.mpr o.type
  obtain ⟨referenceNow, hnow, hreview⟩ := o.review
  simp only [testAtDepth, hnow, o.resolved_eq, o.opened, o.header, o.previousPath,
    o.openedPrevious, htype, hreview, hok, hdone]
  rfl

theorem testAtDepth_eq_ok (o : Opened S files arguments utcNow path named)
    (testRecurring : String → Except String Unit) :
    testAtDepth S files arguments utcNow testRecurring path named = .ok () ↔
      S.same o.file.path o.resolved = false ∧
        testPrevious S arguments testRecurring o.file.path o.previousType
          "Recorded previous continuity evidence type" = .ok () := by
  rw [o.testAtDepth_eq]
  cases S.same o.file.path o.resolved with
  | false => exact ⟨fun h => ⟨rfl, h⟩, fun h => h.2⟩
  | true =>
    constructor
    · intro h
      cases h
    · intro h
      exact absurd h.1 (by decide)

theorem of_testAtDepth {testRecurring : String → Except String Unit}
    (h : testAtDepth S files arguments utcNow testRecurring path named = .ok ()) :
    Nonempty (Opened S files arguments utcNow path named) := by
  obtain ⟨referenceNow, resolved, bytes, evidence, file, previousType, hnow, hresolved, hfile,
    hread, hheader, hpath, hfile', hread', _, htype, _, hreview⟩ := testAtDepth_ok.mp h
  exact ⟨{
    resolved := resolved
    bytes := bytes
    evidence := evidence
    file := file
    previousType := previousType
    resolved_eq := hresolved
    opened := openEvidence_ok.mpr ⟨hfile, hread⟩
    header := hheader
    previousPath := hpath
    openedPrevious := openEvidence_ok.mpr ⟨hfile', hread'⟩
    type := htype
    review := ⟨referenceNow, hnow, hreview⟩ }⟩

theorem readEvidence_eq (o : Opened S files arguments utcNow path named) :
    readEvidence S files o.resolved = some o.evidence ∧
      readEvidence S files o.file.path = some o.file.evidence := by
  obtain ⟨hfile, hread⟩ := openEvidence_ok.mp o.opened
  obtain ⟨hfile', hread'⟩ := openEvidence_ok.mp o.openedPrevious
  rw [readEvidence, readEvidence, hfile, hfile', Option.bind_some, Option.bind_some]
  exact ⟨hread, hread'⟩

/-- What precedes the predecessor precedes the artifact. -/
theorem precedes (o : Opened S files arguments utcNow path "") {target : String}
    (h : Precedes S files o.file.path target) : Precedes S files o.resolved target := by
  obtain ⟨hfile, hread⟩ := openEvidence_ok.mp o.opened
  exact .step hfile hread o.previousPath h

end Opened

/-! ## Later and with the same files -/

/-- A review that has passed its checks passes them at every later time. -/
theorem checkReview_later {evidence : Evidence} {file : PreviousFile} {previousType : String}
    {referenceNow later : Time} (hlater : referenceNow ≤ later)
    (h : checkReview S arguments evidence file previousType referenceNow = .ok ()) :
    checkReview S arguments evidence file previousType later = .ok () := by
  simp only [checkReview, Except.bind_eq_ok_iff] at h ⊢
  obtain ⟨previous, hprevious, found, hfound, _, hlink, _, hpassed, _, hidentity, _, hcandidate,
    _, hstatuses, _, hreferences, _, htraffic, _, hrollback, _, htiming, hrest⟩ := h
  have htiming' : checkTiming evidence previous found later = .ok () := by
    simp only [checkTiming, require_eq_ok, Bool.and_eq_true, decide_eq_true_eq] at htiming ⊢
    exact ⟨htiming.1, htiming.2.trans hlater⟩
  exact ⟨previous, hprevious, found, hfound, (), hlink, (), hpassed, (), hidentity, (), hcandidate,
    (), hstatuses, (), hreferences, (), htraffic, (), hrollback, (), htiming', hrest⟩

theorem referenceTime_later {utcNow later referenceNow : Time} (hlater : utcNow ≤ later)
    (h : referenceTime S arguments utcNow = .ok referenceNow) :
    ∃ referenceNow', referenceTime S arguments later = .ok referenceNow' ∧
      referenceNow ≤ referenceNow' := by
  unfold referenceTime at h ⊢
  split
  · next hblank =>
    rw [if_pos hblank] at h
    obtain rfl := Except.ok.inj h
    exact ⟨later, rfl, hlater⟩
  · next hgiven =>
    -- a given reference time does not move with the clock
    rw [if_neg hgiven] at h
    exact ⟨referenceNow, h, le_refl _⟩

namespace Opened

variable {utcNow later : Time} {path : String}

/-- What has passed passes later, while the artifacts that it leads to are unchanged. -/
def unchanged (o : Opened S files arguments utcNow path "") (hlater : utcNow ≤ later)
    (h : ∀ target, Precedes S files o.resolved target → files' target = files target) :
    Opened S files' arguments later path "" :=
  { o with
    opened := by
      obtain ⟨hfile, hread⟩ := openEvidence_ok.mp o.opened
      exact openEvidence_ok.mpr ⟨(h _ (.refl _)).trans hfile, hread⟩
    openedPrevious := by
      obtain ⟨hfile, hread⟩ := openEvidence_ok.mp o.openedPrevious
      exact openEvidence_ok.mpr ⟨(h _ (o.precedes (.refl _))).trans hfile, hread⟩
    review := by
      obtain ⟨referenceNow, hnow, hreview⟩ := o.review
      obtain ⟨referenceNow', hnow', hle⟩ := referenceTime_later hlater hnow
      exact ⟨referenceNow', hnow', checkReview_later hle hreview⟩ }

end Opened

/-! ## The levels of a chain -/

/-- The path of an accepted predecessor resolves to itself. -/
theorem resolved_predecessor {clock : ℕ → Time} {depth : ℕ} {given description path : String}
    (hpath : resolveLocalStatePath S given description = .ok path)
    (h : testRecurringEvidence S files arguments clock depth path "" = .ok ()) :
    resolveLocalStatePath S path "EvidencePath" = .ok path := by
  obtain ⟨_, hagain⟩ := resolved_of_accepted h
  rw [hagain, resolveLocalStatePath_resolved hpath hagain]

/-- An artifact accepted at one depth is accepted at those that leave enough levels for its
recorded predecessors. -/
theorem accepted_iff_reachesScheduled {clock clock' : ℕ → Time} {depth depth' : ℕ} {path : String}
    (hresolved : resolveLocalStatePath S path "EvidencePath" = .ok path)
    (hunchanged : ∀ target, Precedes S files path target → files' target = files target)
    (hclock : ∀ k, clock (depth + k) ≤ clock' (depth' + k))
    (h : testRecurringEvidence S files arguments clock depth path "" = .ok ()) :
    testRecurringEvidence S files' arguments clock' depth' path "" = .ok () ↔
      depth' < 64 ∧ reachesScheduled S files (64 - depth') path = true := by
  induction hlevels : 64 - depth generalizing depth depth' path with
  | zero =>
    rw [testRecurringEvidence, dif_pos (by omega)] at h
    cases h
  | succ levels ih =>
    rw [testRecurringEvidence, dif_neg (by omega)] at h
    obtain ⟨o⟩ := Opened.of_testAtDepth h
    obtain ⟨hother, htest⟩ := (o.testAtDepth_eq_ok _).mp h
    obtain ⟨hown, hprevious⟩ := o.readEvidence_eq
    have hpath : o.resolved = path := by
      have hsame := o.resolved_eq
      rw [hresolved] at hsame
      exact (Except.ok.inj hsame).symm
    rw [hpath] at hown
    by_cases hdepth : 64 ≤ depth'
    · rw [testRecurringEvidence, dif_pos hdepth]
      constructor
      · intro haccepted
        cases haccepted
      · intro hreaches
        exact absurd hreaches.1 (by omega)
    · -- at another depth only the test of the predecessor may come out differently
      let o' : Opened S files' arguments (clock' depth') path "" :=
        o.unchanged (hclock 0) (by rwa [hpath])
      have hremaining : 64 - depth' = 63 - depth' + 1 := by omega
      rw [testRecurringEvidence, dif_neg hdepth, o'.testAtDepth_eq_ok, hremaining,
        reachesScheduled_of_recurring hown (recurring_of_checkHeader o.header) o.previousPath]
      have hother' : S.same o'.file.path o'.resolved = false := hother
      rw [hother', eq_self_iff_true, true_and]
      show testPrevious S arguments _ o.file.path o.previousType _ = .ok () ↔ _
      rcases testPrevious_ok htest with ⟨hscheduled, hvalid⟩ | ⟨hrecurring, haccepted⟩
      · have hroot : S.records o.file.evidence.evidenceType scheduledType = true := by
          rw [o.type]
          exact hscheduled
        rw [testPrevious_of_scheduled hscheduled, reachesScheduled_of_scheduled hprevious hroot]
        exact ⟨fun _ => ⟨by omega, rfl⟩, fun _ => hvalid⟩
      · obtain ⟨_, _, hfirst⟩ := resolve_of_resolvedPreviousPath o.previousPath
        have hdeeper := @ih (depth + 1) (depth' + 1) o.file.path
          (resolved_predecessor hfirst haccepted)
          (fun target htarget => hunchanged target (hpath ▸ o.precedes htarget))
          (fun k => by simpa only [Nat.add_assoc, Nat.add_comm 1 k] using hclock (k + 1))
          haccepted (by omega)
        have hsame : 64 - (depth' + 1) = 63 - depth' := by omega
        rw [testPrevious_of_recurring hrecurring, hdeeper, hsame]
        have hnotScheduled : S.records o.file.evidence.evidenceType scheduledType = false := by
          rw [o.type]
          exact same_scheduledType_of_recurring hrecurring
        constructor
        · rintro ⟨hlevel, hreaches⟩
          exact ⟨by omega, hreaches⟩
        · rintro ⟨hlevel, hreaches⟩
          refine ⟨?_, hreaches⟩
          by_contra hlast
          -- no level is left for a recurring artifact
          have hnone : 63 - depth' = 0 := by omega
          rw [hnone, reachesScheduled, hprevious, Option.any_some, hnotScheduled] at hreaches
          cases hreaches

/-! ## What the collector writes -/

/-- The path that the collector records for the predecessor leads back to it. A backslash in the
name of a directory or file does not outlive the recording where it is no separator. -/
def LeadsBack (S : Shell) (previousPath : String) : Prop :=
  resolveLocalStatePath S (S.getRelativePath previousPath)
    "Recorded previous continuity evidence path" = .ok previousPath

/-- An artifact as the collector leaves it: its file is read as what was written, its path
resolves, and the predecessors are unchanged. -/
structure Stored (S : Shell) (files files' : Files) (previousPath path : String)
    (evidence : Evidence) : Prop where
  written : files' path = some (S.convertToJson evidence)
  readBack : S.convertFromJson (S.convertToJson evidence) = some evidence
  unchanged : ∀ target, Precedes S files previousPath target → files' target = files target
  resolved : resolveLocalStatePath S path "EvidencePath" = .ok path

/-- The call may leave the predecessor to the record, or name what the collector was given. -/
theorem resolvedPreviousPath_recurringEvidence {a : CollectorArguments} {previous : Predecessor}
    {found : Findings} {file : PreviousFile} {previousType context named : String}
    (hgiven : resolveLocalStatePath S a.previousContinuityEvidencePath
      "PreviousContinuityEvidencePath" = .ok file.path)
    (hnamed : isBlank named = true ∧ LeadsBack S file.path ∨
      named = a.previousContinuityEvidencePath) :
    resolvedPreviousPath S (recurringEvidence S previous found file previousType context) named =
      .ok file.path := by
  rcases hnamed with ⟨hblank, hback⟩ | rfl
  · rw [resolvedPreviousPath, if_pos hblank]
    exact hback
  · have hnotBlank := (resolveLocalStatePath_eq_ok.mp hgiven).1
    rw [resolvedPreviousPath, if_neg (Bool.eq_false_iff.mp hnotBlank)]
    exact hgiven

/-- The validator accepts what the collector writes, at the same time or later, unless the levels
do not reach down to the scheduled artifact or the paths of the artifact and its predecessor
differ in the case of letters only. -/
theorem accepted_iff_of_collected (S : Shell) (files files' : Files) (a : CollectorArguments)
    (clock clock' : ℕ → Time) (now : Time) (previousPath path named : String)
    (evidence : Evidence) (_hcluster : a.checkCluster = false)
    (hcollected : newRecurringEvidence S files clock now a = .ok (path, evidence))
    (hgiven : resolveLocalStatePath S a.previousContinuityEvidencePath
      "PreviousContinuityEvidencePath" = .ok previousPath)
    (hstored : Stored S files files' previousPath path evidence)
    (hnamed : isBlank named = true ∧ LeadsBack S previousPath ∨
      named = a.previousContinuityEvidencePath)
    (hnow : now ≤ clock' 0) (hclock : ∀ depth, clock depth ≤ clock' (depth + 1)) :
    testRecurringEvidence S files' a.validation clock' 0 path named = .ok () ↔
      S.same previousPath path = false ∧ reachesScheduled S files 63 previousPath = true := by
  obtain ⟨referenceNow, file, previousType, previous, _, hbind, hreference, hreferences, hpath,
    hfile, hread, htype, htest, hpredecessor, hboundary, hfresh, _, _, _, hevidence⟩ :=
    newRecurringEvidence_eq_ok.mp hcollected
  rw [hpath] at hgiven
  obtain rfl := Except.ok.inj hgiven
  obtain ⟨referenceNow', hreference', hle⟩ := referenceTime_later hnow hreference
  have hadmissible := admissible_of_checks hbind hreferences hboundary hfresh
  have hcurrent : (a.findings referenceNow).collectedAt - minutes 5 ≤ referenceNow' :=
    (Int.sub_le_self _ (by decide)).trans hle
  let o : Opened S files' a.validation (clock' 0) path named :=
    { resolved := path
      bytes := S.convertToJson evidence
      evidence := evidence
      file := file
      previousType := previousType
      resolved_eq := hstored.resolved
      opened := openEvidence_ok.mpr ⟨hstored.written, hstored.readBack⟩
      header := by
        rw [hevidence]
        exact checkHeader_recurringEvidence
      previousPath := by
        rw [hevidence]
        exact resolvedPreviousPath_recurringEvidence hpath hnamed
      openedPrevious := openEvidence_ok.mpr ⟨(hstored.unchanged _ (.refl _)).trans hfile, hread⟩
      type := htype
      review := by
        refine ⟨referenceNow', hreference', ?_⟩
        rw [hevidence]
        exact checkReview_recurringEvidence hpredecessor hadmissible hcurrent }
  have hprevious : readEvidence S files file.path = some file.evidence := by
    rw [readEvidence, hfile, Option.bind_some, hread]
  rw [testRecurringEvidence, dif_neg (by omega), o.testAtDepth_eq_ok]
  apply and_congr_right
  intro _
  show testPrevious S a.validation _ file.path previousType _ = .ok () ↔ _
  rcases testPrevious_ok htest with ⟨hscheduled, hvalid⟩ | ⟨hrecurring, haccepted⟩
  · have hroot : S.records file.evidence.evidenceType scheduledType = true := by
      rw [htype]
      exact hscheduled
    rw [testPrevious_of_scheduled hscheduled, reachesScheduled_of_scheduled hprevious hroot]
    exact ⟨fun _ => rfl, fun _ => hvalid⟩
  · have hdeeper := @accepted_iff_reachesScheduled S files files' a.validation clock clock' 0 1
      file.path (resolved_predecessor hpath haccepted) hstored.unchanged
      (fun k => by simpa only [Nat.zero_add, Nat.add_comm 1 k] using hclock k) haccepted
    rw [testPrevious_of_recurring hrecurring, hdeeper]
    exact ⟨fun h => h.2, fun h => ⟨by decide, h⟩⟩

end Agreement

namespace Weekly

/-- The artifacts before a review are those of the reviews before it. -/
theorem path_of_precedes {reviews n : ℕ} (hn : n ≤ reviews) (hread : n < 66) {target : String}
    (h : Precedes reader (files reviews) (path n) target) : ∃ k ≤ n, target = path k := by
  generalize hpath : path n = p at h
  induction h generalizing n with
  | refl p => exact ⟨n, le_refl n, hpath.symm⟩
  | @step p previous target bytes evidence hfile hfrom hprevious hrest ih =>
    rw [← hpath, files_path hn] at hfile
    rw [← Option.some.inj hfile, convertFromJson_content hread] at hfrom
    rw [← Option.some.inj hfrom] at hprevious
    cases n with
    | zero => cases hprevious
    | succ n =>
      rw [resolvedPreviousPath_artifact] at hprevious
      obtain ⟨k, hk, htarget⟩ := @ih n (by omega) (by omega) (Except.ok.inj hprevious)
      exact ⟨k, by omega, htarget⟩

theorem convertToJson_artifact (n : ℕ) : reader.convertToJson (artifact n) = content n := rfl

/-- The next review leaves the earlier artifacts unchanged. -/
theorem stored {n : ℕ} (hread : n + 1 < 66) :
    Stored reader (files n) (files (n + 1)) (path n) (path (n + 1)) (artifact (n + 1)) where
  written := by
    rw [convertToJson_artifact]
    exact files_path (le_refl _)
  readBack := by
    rw [convertToJson_artifact]
    exact convertFromJson_content hread
  unchanged := by
    intro target h
    obtain ⟨k, hk, rfl⟩ := path_of_precedes (le_refl n) (by omega) h
    rw [files_path hk, files_path (by omega)]
  resolved := resolve_path _ _

theorem reachesScheduled_path {reviews levels n : ℕ} (hn : n ≤ reviews) (hread : n < 66)
    (hlevels : n ≤ levels) : reachesScheduled reader (files reviews) levels (path n) = true := by
  have hfile : readEvidence reader (files reviews) (path n) = some (artifact n) := by
    rw [readEvidence, files_path hn, Option.bind_some, convertFromJson_content hread]
  induction n generalizing levels with
  | zero => exact reachesScheduled_of_scheduled hfile (reader.same_refl _) levels
  | succ n ih =>
    obtain ⟨levels, rfl⟩ : ∃ k, levels = k + 1 := ⟨levels - 1, by omega⟩
    rw [reachesScheduled_of_recurring hfile (reader.same_refl _) (resolvedPreviousPath_artifact n)]
    apply ih (by omega) (by omega) (by omega)
    rw [readEvidence, files_path (by omega), Option.bind_some, convertFromJson_content (by omega)]

/-- A review with everything checked but its predecessor. -/
def opened {reviews n later : ℕ} (hn : n + 1 ≤ reviews) (hread : n + 1 < 66)
    (hlater : n + 1 ≤ later) :
    Opened reader (files reviews) (arguments n).validation (time later) (path (n + 1)) "" where
  resolved := path (n + 1)
  bytes := content (n + 1)
  evidence := artifact (n + 1)
  file := ⟨path n, content n, artifact n⟩
  previousType := previousType n
  resolved_eq := resolve_path _ _
  opened := openEvidence_ok.mpr ⟨files_path hn, convertFromJson_content hread⟩
  header := checkHeader_artifact n
  previousPath := resolvedPreviousPath_artifact n
  openedPrevious := openEvidence_ok.mpr
    ⟨files_path (Nat.le_of_succ_le hn), convertFromJson_content (Nat.lt_of_succ_lt hread)⟩
  type := evidenceType_artifact n
  review := ⟨time later, rfl, checkReview_artifact hlater⟩

/-- A chain that is longer than the levels left is refused at its bottom. -/
theorem refused {reviews n depth later : ℕ} (hn : n + 1 ≤ reviews) (hread : n + 1 < 66)
    (hlater : n + 1 ≤ later) (hdepth : depth ≤ 64) (hlong : 64 < depth + (n + 1)) :
    testRecurringEvidence reader (files reviews) (arguments n).validation (fun _ => time later)
      depth (path (n + 1)) "" =
        .error "The recurring assurance chain exceeds the supported validation depth." := by
  induction n generalizing depth with
  | zero => rw [testRecurringEvidence, dif_pos (by omega)]
  | succ n ih =>
    by_cases hlast : 64 ≤ depth
    · rw [testRecurringEvidence, dif_pos hlast]
    · have hdeeper := @ih (depth + 1) (by omega) (by omega) (by omega) (by omega) (by omega)
      have hother : (require (!reader.same (path (n + 1)) (path (n + 2)))
          "Recurring assurance evidence cannot reference itself as its previous review.") =
            .ok () := by
        rw [same_path_succ]
        rfl
      rw [testRecurringEvidence, dif_neg hlast, (opened hn hread hlater).testAtDepth_eq,
        show (opened hn hread hlater).file.path = path (n + 1) from rfl,
        show (opened hn hread hlater).resolved = path (n + 2) from rfl,
        show (opened hn hread hlater).previousType = recurringType from rfl, hother, Except.bind,
        testPrevious_of_recurring (reader.same_refl _)]
      exact hdeeper

/-- The collector goes on as long as it can validate the last review from the first level on. -/
theorem collected_succ {reviews n : ℕ} (hn : n + 1 ≤ reviews) (hlevels : n + 1 ≤ 64) :
    newRecurringEvidence reader (files reviews) (fun _ => time (n + 1 + 1)) (time (n + 1 + 1))
      (arguments (n + 1)) = .ok (path (n + 1 + 1), artifact (n + 1 + 1)) := by
  have hprevious := @accepted reviews n 0 (n + 1 + 1) hn (by omega) (by omega)
  apply collected hn (by omega)
  rw [show previousType (n + 1) = recurringType from rfl,
    testPrevious_of_recurring (reader.same_refl _)]
  exact hprevious

end Weekly

/-- The second weekly review is accepted. -/
theorem accepted_iff_of_collected_weekly :
    testRecurringEvidence Weekly.reader (Weekly.files 2) (Weekly.arguments 1).validation
      (fun _ => Weekly.time 2) 0 (Weekly.path 2) "" = .ok () :=
  (accepted_iff_of_collected Weekly.reader (Weekly.files 1) (Weekly.files 2) (Weekly.arguments 1)
    (fun _ => Weekly.time 2) (fun _ => Weekly.time 2) (Weekly.time 2) (Weekly.path 1)
    (Weekly.path 2) "" (Weekly.artifact 2) rfl
    (@Weekly.collected_succ 1 0 (le_refl 1) (by decide))
    (Weekly.resolve_path 1 _) (@Weekly.stored 1 (by decide))
    (.inl ⟨by decide, Weekly.resolve_relative 1 _⟩) (le_refl _) (fun _ => le_refl _)).mpr
  ⟨Weekly.same_path_succ 1, Weekly.reachesScheduled_path (le_refl 1) (by decide) (by decide)⟩

/-- The collector records a sixty-fifth recurring review, which the validator refuses: it
validates the sixty-fourth one level deeper than the collector does. -/
theorem collected_refused :
    (Weekly.arguments 64).checkCluster = false ∧
    newRecurringEvidence Weekly.reader (Weekly.files 64) (fun _ => Weekly.time 65)
      (Weekly.time 65) (Weekly.arguments 64) = .ok (Weekly.path 65, Weekly.artifact 65) ∧
    Stored Weekly.reader (Weekly.files 64) (Weekly.files 65) (Weekly.path 64) (Weekly.path 65)
      (Weekly.artifact 65) ∧
    LeadsBack Weekly.reader (Weekly.path 64) ∧
    testRecurringEvidence Weekly.reader (Weekly.files 65) (Weekly.arguments 64).validation
      (fun _ => Weekly.time 65) 0 (Weekly.path 65) "" =
        .error "The recurring assurance chain exceeds the supported validation depth." := by
  have hcollected := @Weekly.collected_succ 64 63 (le_refl 64) (le_refl 64)
  have hrefused := @Weekly.refused 65 64 0 65 (le_refl 65) (by decide) (le_refl 65) (by decide)
    (by decide)
  exact ⟨rfl, hcollected, @Weekly.stored 64 (by decide), Weekly.resolve_relative 64 _, hrefused⟩

end ShieldWard.Assurance
