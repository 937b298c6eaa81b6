import ShieldWard.Edge.RateLimitRefinement

/-!
# Quotas across changes of policy

A bucket belongs to one limit and one window, and a call under another policy starts it anew.
So the calls of a key fall into stretches under one policy, and the quota holds for each
stretch. What is used of a limiter is how it moves its live buckets, which is said once and
shown for both limiters.
-/

namespace ShieldWard.Edge

open Ecma FixedWindowRateLimiter

/-! ## Live buckets -/

/-- The live buckets of a limiter by their keys. -/
abbrev View := String → Option RateLimitBucket

/-- One call of a limiter, by the live buckets before and after it. -/
structure Charges (view view' : View) (key : String) (c : Call)
    (result : Except RateLimiterError RateLimitResult) : Prop where
  others : ∀ other, other ≠ key → view' other = view other
  self : ((∃ e, result = .error e) ∧ view' key = view key) ∨
    ∃ window bucket, parseDurationMilliseconds c.policy.window = .ok window ∧
      isSafeInteger c.policy.requests = true ∧ 0 < c.policy.requests ∧
      bucket = currentBucket (view key) c.now c.policy.requests window ∧
      result = .ok (bucketResult bucket c.now) ∧ view' key = some (chargedBucket bucket)

/-- A history that a limiter has made, with its live buckets at the time of the last call. -/
inductive Traced (keyOf : Call → String) : Number → View → List Entry → Prop
  | nil (t : Number) : Traced keyOf t (fun _ => none) []
  | snoc {t : Number} {view view' : View} {history : List Entry} {c : Call}
      {result : Except RateLimiterError RateLimitResult} : Traced keyOf t view history →
      t ≤ c.now → Charges (fun key => liveBucket (view key) c.now) view' (keyOf c) c result →
      Traced keyOf c.now view' (history ++ [(c, result)])

/-! ## Stretches -/

section

variable {κ : Type} [DecidableEq κ]

/-- The entry is of the key and the policy, in the window, and did not throw. -/
def servedUnder (keyOf : Call → κ) (key : κ) (limit w : Number) (k : ℤ) (e : Entry) : Bool :=
  keyOf e.1 = key && returned e.2 && e.1.policy.requests = limit &&
    parseDurationMilliseconds e.1.policy.window = .ok w && InWindow e.1.now w k

/-- The calls allowed for a key under a policy in a window. -/
def allowedUnder (keyOf : Call → κ) (history : List Entry) (key : κ) (limit w : Number) (k : ℤ) :
    ℕ :=
  history.countP fun e => servedUnder keyOf key limit w k e && admitted e.2

/-- One more entry: whether a stretch is going on, and the stretches so far. -/
def stretchStep (keyOf : Call → κ) (key : κ) (limit w : Number) (k : ℤ) (stretches : Bool × ℕ)
    (e : Entry) : Bool × ℕ :=
  if !(keyOf e.1 = key && returned e.2) then stretches
  else if servedUnder keyOf key limit w k e then
    (true, if stretches.1 then stretches.2 else stretches.2 + 1)
  else (false, stretches.2)

/-- The uninterrupted stretches of calls of a key under a policy in a window: a stretch ends
with a call of the key under another policy or in another window. Calls that throw and calls
of other keys do not matter. -/
def stretches (keyOf : Call → κ) (history : List Entry) (key : κ) (limit w : Number) (k : ℤ) :
    Bool × ℕ :=
  history.foldl (stretchStep keyOf key limit w k) (false, 0)

/-- The route and the identity of a call. -/
def pairOf (c : Call) : String × String := (c.routeId, c.identity)

/-- Entries that are of the key exactly when they are of the pair are served alike. -/
theorem servedUnder_congr {keyOf : Call → κ} {key : κ} {pair : String × String} {e : Entry}
    (h : keyOf e.1 = key ↔ pairOf e.1 = pair) (limit w : Number) (k : ℤ) :
    servedUnder pairOf pair limit w k e = servedUnder keyOf key limit w k e := by
  simp only [servedUnder, h]

theorem allowedUnder_congr {keyOf : Call → κ} {key : κ} {pair : String × String}
    {history : List Entry} (h : ∀ e ∈ history, keyOf e.1 = key ↔ pairOf e.1 = pair)
    (limit w : Number) (k : ℤ) :
    allowedUnder pairOf history pair limit w k = allowedUnder keyOf history key limit w k := by
  apply List.countP_congr
  intro e he
  rw [servedUnder_congr (h e he)]

theorem stretches_congr {keyOf : Call → κ} {key : κ} {pair : String × String}
    {history : List Entry} (h : ∀ e ∈ history, keyOf e.1 = key ↔ pairOf e.1 = pair)
    (limit w : Number) (k : ℤ) :
    stretches pairOf history pair limit w k = stretches keyOf history key limit w k := by
  apply List.foldl_ext
  intro state e he
  unfold stretchStep
  simp only [servedUnder_congr (h e he), h e he]

/-- A pair without a call has none that is allowed. -/
theorem allowedUnder_eq_zero {keyOf : Call → κ} {key : κ} {history : List Entry}
    (h : ∀ e ∈ history, keyOf e.1 ≠ key) (limit w : Number) (k : ℤ) :
    allowedUnder keyOf history key limit w k = 0 := by
  apply List.countP_eq_zero.mpr
  intro e he
  simp [servedUnder, h e he]

theorem stretches_eq_zero {keyOf : Call → κ} {key : κ} {history : List Entry}
    (h : ∀ e ∈ history, keyOf e.1 ≠ key) (limit w : Number) (k : ℤ) :
    stretches keyOf history key limit w k = (false, 0) := by
  unfold stretches
  induction history with
  | nil => rfl
  | cons e rest ih =>
    have ⟨hfirst, hrest⟩ := List.forall_mem_cons.mp h
    rw [List.foldl_cons, show stretchStep keyOf key limit w k (false, 0) e = (false, 0) by
      simp [stretchStep, hfirst]]
    exact ih hrest

/-- The bound of every key is the bound of every pair, when the calls of different pairs have
different keys. -/
theorem quota_of_keys {keyOf : Call → κ} {history : List Entry}
    (hquota : ∀ key limit w k, (allowedUnder keyOf history key limit w k : ℚ) ≤
      limit * (stretches keyOf history key limit w k).2)
    (hkeys : ∀ e ∈ history, ∀ e' ∈ history, keyOf e.1 = keyOf e'.1 ↔ pairOf e.1 = pairOf e'.1)
    (pair : String × String) (limit w : Number) (k : ℤ) :
    (allowedUnder pairOf history pair limit w k : ℚ) ≤
      limit * (stretches pairOf history pair limit w k).2 := by
  by_cases hcalled : ∃ e ∈ history, pairOf e.1 = pair
  · obtain ⟨e', he', rfl⟩ := hcalled
    have hsame : ∀ e ∈ history, keyOf e.1 = keyOf e'.1 ↔ pairOf e.1 = pairOf e'.1 :=
      fun e he => hkeys e he e' he'
    rw [allowedUnder_congr hsame, stretches_congr hsame]
    exact hquota (keyOf e'.1) limit w k
  · have hnone : ∀ e ∈ history, pairOf e.1 ≠ pair := fun e he heq => hcalled ⟨e, he, heq⟩
    rw [allowedUnder_eq_zero hnone, stretches_eq_zero hnone]
    simp

end

/-! ## The invariant -/

/-- A live bucket is of an aligned window that has begun, and counts no more than its limit. -/
structure Sound (now : Number) (bucket : RateLimitBucket) : Prop where
  window : 0 < bucket.windowMs
  aligned : ∃ j : ℤ, bucket.resetAt = (j + 1) * bucket.windowMs ∧ j * bucket.windowMs ≤ now
  live : now < bucket.resetAt
  limit : isSafeInteger bucket.limit = true
  count : (bucket.count : ℚ) ≤ bucket.limit

theorem Sound.later {t now : Number} {bucket : RateLimitBucket} (h : Sound t bucket)
    (ht : t ≤ now) (hlive : now < bucket.resetAt) : Sound now bucket := by
  have ⟨j, hreset, hbegun⟩ := h.aligned
  exact ⟨h.window, ⟨j, hreset, hbegun.trans ht⟩, hlive, h.limit, h.count⟩

/-- A sound bucket is of the window that the time lies in. -/
theorem Sound.resetAt {now w : Number} {k : ℤ} {bucket : RateLimitBucket}
    (h : Sound now bucket) (hw : bucket.windowMs = w) (hk : InWindow now w k) :
    bucket.resetAt = (k + 1) * w := by
  have ⟨j, hreset, hbegun⟩ := h.aligned
  have hpos := h.window
  have hlive := h.live
  rw [hw] at hreset hbegun hpos
  rw [hreset] at hlive ⊢
  rw [InWindow.unique hpos ⟨hbegun, hlive⟩ hk]

/-- The bucket that a call uses is sound. -/
theorem sound_currentBucket {now limit window : Number} {stored : Option RateLimitBucket}
    (hstored : ∀ bucket, stored = some bucket → Sound now bucket) (hwindow : 0 < window)
    (hlimit : isSafeInteger limit = true) (hpos : 0 < limit) :
    Sound now (currentBucket stored now limit window) := by
  have hfresh : Sound now (freshBucket now limit window) := by
    have ⟨hbegun, hend⟩ := inWindow_floor now hwindow
    refine ⟨hwindow, ⟨⌊now / window⌋, ?_, hbegun⟩, ?_, hlimit, ?_⟩
    · simp only [freshBucket]
      ring
    · simp only [freshBucket]
      linarith
    · simp only [freshBucket, Nat.cast_zero]
      exact hpos.le
  unfold currentBucket
  split
  · exact hfresh
  · next bucket =>
    split
    · exact hfresh
    · exact hstored bucket rfl

theorem Sound.charged {now : Number} {bucket : RateLimitBucket} (h : Sound now bucket) :
    Sound now (chargedBucket bucket) := by
  unfold chargedBucket
  split
  · exact h
  · next hroom =>
    refine ⟨h.window, h.aligned, h.live, h.limit, ?_⟩
    push_cast
    exact cast_succ_le_of_lt h.limit (not_le.mp hroom)

/-- The count of a call that has been charged. -/
theorem count_charged (now : Number) (bucket : RateLimitBucket) :
    ((chargedBucket bucket).count : ℚ) =
      bucket.count + if (bucketResult bucket now).allowed then 1 else 0 := by
  unfold chargedBucket bucketResult
  split
  · simp [refusal]
  · simp [admission]

/-- What the history of a key under a policy in a window has to do with its live bucket. -/
structure Bounded (view : View) (now : Number) (key : String) (limit w : Number) (k : ℤ)
    (allowed : ℕ) (stretches : Bool × ℕ) : Prop where
  total : (allowed : ℚ) ≤ limit * stretches.2
  /-- While a stretch goes on its bucket is live until the window ends. -/
  current : stretches.1 = true → now < (k + 1) * w → ∃ bucket, view key = some bucket ∧
    bucket.limit = limit ∧ bucket.windowMs = w ∧ bucket.resetAt = (k + 1) * w ∧
    1 ≤ stretches.2 ∧ (allowed : ℚ) ≤ limit * (stretches.2 - 1) + bucket.count

theorem Bounded.later {view : View} {t now : Number} {key : String} {limit w : Number} {k : ℤ}
    {allowed : ℕ} {stretches : Bool × ℕ} (h : Bounded view t key limit w k allowed stretches)
    (ht : t ≤ now) :
    Bounded (fun key => liveBucket (view key) now) now key limit w k allowed stretches where
  total := h.total
  current hgoing hend := by
    have ⟨bucket, hview, hlimit, hwindow, hreset, hone, hallowed⟩ :=
      h.current hgoing (lt_of_le_of_lt ht hend)
    refine ⟨bucket, ?_, hlimit, hwindow, hreset, hone, hallowed⟩
    rw [hview]
    exact liveBucket_of_live (by rw [hreset]; exact hend)

theorem allowedUnder_append_singleton (keyOf : Call → String) (history : List Entry) (e : Entry)
    (key : String) (limit w : Number) (k : ℤ) :
    allowedUnder keyOf (history ++ [e]) key limit w k = allowedUnder keyOf history key limit w k +
      if servedUnder keyOf key limit w k e && admitted e.2 then 1 else 0 := by
  simp only [allowedUnder, List.countP_append, List.countP_singleton]

theorem stretches_append_singleton (keyOf : Call → String) (history : List Entry) (e : Entry)
    (key : String) (limit w : Number) (k : ℤ) :
    stretches keyOf (history ++ [e]) key limit w k =
      stretchStep keyOf key limit w k (stretches keyOf history key limit w k) e := by
  simp only [stretches, List.foldl_append, List.foldl_cons, List.foldl_nil]

/-- A call under the policy goes on with the stretch or starts one. -/
theorem Bounded.serve {view view' : View} {now : Number} {key : String} {limit w : Number}
    {k : ℤ} {allowed : ℕ} {stretches : Bool × ℕ}
    (h : Bounded view now key limit w k allowed stretches)
    (hsound : ∀ bucket, view key = some bucket → Sound now bucket) (hw : 0 < w)
    (hk : InWindow now w k) (hlimit : isSafeInteger limit = true) (hpos : 0 < limit)
    (hview : view' key = some (chargedBucket (currentBucket (view key) now limit w))) :
    Bounded view' now key limit w k
      (allowed + if (bucketResult (currentBucket (view key) now limit w) now).allowed
        then 1 else 0)
      (true, if stretches.1 then stretches.2 else stretches.2 + 1) := by
  have hcurrent := sound_currentBucket hsound hw hlimit hpos
  have ⟨hcurrentLimit, hcurrentWindow⟩ := currentBucket_limit (view key) now limit w
  have hend := hcurrent.resetAt hcurrentWindow hk
  have hcharged := hcurrent.charged.count
  have ⟨hlimit', hwindow', hreset'⟩ := chargedBucket_parts (currentBucket (view key) now limit w)
  have hcount := count_charged now (currentBucket (view key) now limit w)
  rw [hlimit', hcurrentLimit] at hcharged
  -- the calls allowed before the stretch, and those of the stretch
  have hallowed : ((allowed + if (bucketResult (currentBucket (view key) now limit w) now).allowed
        then 1 else 0 : ℕ) : ℚ) ≤
      limit * (((if stretches.1 then stretches.2 else stretches.2 + 1) : ℕ) - 1) +
        (chargedBucket (currentBucket (view key) now limit w)).count ∧
      1 ≤ (if stretches.1 then stretches.2 else stretches.2 + 1) := by
    by_cases hgoing : stretches.1 = true
    · have ⟨bucket, hget, hbucketLimit, hbucketWindow, hreset, hone, hle⟩ :=
        h.current hgoing hk.2
      have hsame : currentBucket (view key) now limit w = bucket := by
        rw [hget]
        have hlive : ¬ bucket.resetAt ≤ now := by
          rw [hreset]
          exact not_le.mpr hk.2
        simp [currentBucket, isStale, hlive, hbucketLimit, hbucketWindow]
      rw [hsame] at hcount ⊢
      rw [if_pos hgoing, hcount]
      refine ⟨?_, hone⟩
      push_cast
      linarith
    · have htotal := h.total
      have hnonneg : (0 : ℚ) ≤ (currentBucket (view key) now limit w).count := Nat.cast_nonneg _
      rw [if_neg hgoing, hcount]
      refine ⟨?_, Nat.le_add_left 1 _⟩
      push_cast
      linarith
  generalize (if stretches.1 then stretches.2 else stretches.2 + 1) = m at hallowed ⊢
  refine ⟨?_, fun _ _ => ⟨_, hview, hlimit'.trans hcurrentLimit, hwindow'.trans hcurrentWindow,
    hreset'.trans hend, hallowed.2, hallowed.1⟩⟩
  calc ((_ : ℕ) : ℚ) ≤ limit * ((m : ℚ) - 1) +
        (chargedBucket (currentBucket (view key) now limit w)).count := hallowed.1
    _ ≤ limit * ((m : ℚ) - 1) + limit := by linarith
    _ = limit * m := by ring

/-- The bound of every key, policy and window along a history. -/
theorem Traced.bounded {keyOf : Call → String} {t : Number} {view : View} {history : List Entry}
    (h : Traced keyOf t view history) :
    (∀ key bucket, view key = some bucket → Sound t bucket) ∧
      ∀ key limit w k, Bounded view t key limit w k (allowedUnder keyOf history key limit w k)
        (stretches keyOf history key limit w k) := by
  induction h with
  | nil t =>
    refine ⟨fun key bucket h => (by cases h), fun key limit w k => ⟨?_, fun h => (by cases h)⟩⟩
    simp [allowedUnder, stretches]
  | @snoc t view view' history c result _ ht hcharges ih =>
    -- time goes on first: buckets that have ended are gone
    obtain ⟨hsound, hbounded⟩ := ih
    have hlive : ∀ key bucket, liveBucket (view key) c.now = some bucket →
        Sound c.now bucket := by
      intro key bucket hget
      obtain ⟨hstored, hend⟩ := Option.filter_eq_some_iff.mp hget
      exact (hsound key bucket hstored).later ht (by simpa using hend)
    have hlater := fun key limit w k => (hbounded key limit w k).later ht
    -- a call of another key, or one that throws
    have hkept : ∀ key limit w k, view' key = liveBucket (view key) c.now →
        (keyOf c ≠ key ∨ ∃ e, result = .error e) →
        Bounded view' c.now key limit w k
          (allowedUnder keyOf (history ++ [(c, result)]) key limit w k)
          (stretches keyOf (history ++ [(c, result)]) key limit w k) := by
      intro key limit w k hview hother
      have hignored : (keyOf c = key && returned result) = false := by
        rcases hother with hne | ⟨e, he⟩
        · simp [hne]
        · simp [he, returned]
      rw [allowedUnder_append_singleton, stretches_append_singleton]
      simp only [servedUnder, stretchStep, hignored, Bool.false_and, Bool.false_eq_true, if_false,
        Bool.not_false, if_true, Nat.add_zero]
      refine ⟨(hlater key limit w k).total, fun hgoing hend => ?_⟩
      rw [hview]
      exact (hlater key limit w k).current hgoing hend
    -- the call throws, or its key's bucket is charged or begun
    rcases hcharges.self with
      ⟨⟨e, he⟩, hview⟩ | ⟨window, bucket, hparse, hsafe, hpos, hbucket, hresult, hview⟩
    · refine ⟨fun key bucket hget => ?_, fun key limit w k => ?_⟩
      · by_cases heq : key = keyOf c
        · rw [heq, hview] at hget
          exact hlive _ bucket hget
        · rw [hcharges.others key heq] at hget
          exact hlive _ bucket hget
      · refine hkept key limit w k ?_ (.inr ⟨e, he⟩)
        by_cases heq : key = keyOf c
        · rw [heq]
          exact hview
        · exact hcharges.others key heq
    · have hwindow := parseDurationMilliseconds_pos hparse
      have hcurrent := sound_currentBucket (hlive (keyOf c)) hwindow hsafe hpos
      refine ⟨fun key b hget => ?_, fun key limit w k => ?_⟩
      · by_cases heq : key = keyOf c
        · rw [heq, hview] at hget
          rw [← Option.some.inj hget, hbucket]
          exact hcurrent.charged
        · rw [hcharges.others key heq] at hget
          exact hlive _ b hget
      · by_cases heq : key = keyOf c
        · rw [allowedUnder_append_singleton, stretches_append_singleton]
          have hmine : (keyOf c = key && returned result) = true := by
            simp [heq, hresult, returned]
          by_cases hserved : servedUnder keyOf key limit w k (c, result) = true
          · have hparts := hserved
            simp only [servedUnder, hmine, Bool.true_and, Bool.and_eq_true, decide_eq_true_eq]
              at hparts
            obtain ⟨⟨hrequests, hparse'⟩, hk⟩ := hparts
            have hw : window = w := Except.ok.inj (hparse.symm.trans hparse')
            rw [hrequests] at hbucket hsafe hpos
            rw [hw] at hbucket hwindow
            rw [hbucket, ← heq] at hview
            have hadmitted : admitted result =
                (bucketResult (currentBucket (liveBucket (view key) c.now) c.now limit w)
                  c.now).allowed := by
              rw [hresult, hbucket, heq]
              rfl
            simp only [stretchStep, hmine, hserved, Bool.not_true, Bool.false_eq_true, if_false,
              if_true, Bool.true_and, hadmitted]
            exact (hlater key limit w k).serve (hlive key) hwindow hk hsafe hpos hview
          · rw [Bool.not_eq_true] at hserved
            simp only [stretchStep, hmine, hserved, Bool.not_true, Bool.false_eq_true, if_false,
              Bool.false_and, Nat.add_zero]
            exact ⟨(hlater key limit w k).total, fun h => by cases h⟩
        · exact hkept key limit w k (hcharges.others key heq) (.inl fun h => heq h.symm)

/-- No key has more calls allowed in a window than its stretches under the policy earn it. -/
theorem Traced.quota {keyOf : Call → String} {t : Number} {view : View} {history : List Entry}
    (h : Traced keyOf t view history) (key : String) (limit w : Number) (k : ℤ) :
    (allowedUnder keyOf history key limit w k : ℚ) ≤
      limit * (stretches keyOf history key limit w k).2 :=
  (h.bounded.2 key limit w k).total

/-! ## Both limiters -/

/-- The bucket of a call has not expired. -/
theorem currentBucket_live (stored : Option RateLimitBucket) (now limit : Number)
    {window : Number} (hwindow : 0 < window) :
    now < (currentBucket stored now limit window).resetAt := by
  have hfresh : now < (freshBucket now limit window).resetAt := by
    have hend := (inWindow_floor now hwindow).2
    simp only [freshBucket]
    linarith
  unfold currentBucket
  split
  · exact hfresh
  · split
    · exact hfresh
    · next hfits =>
      simp only [isStale, Bool.or_eq_true, decide_eq_true_eq, not_or, not_le] at hfits
      exact hfits.1.1

namespace FixedWindowRateLimiter

/-- The key of a call's bucket. -/
def keyOf (c : Call) : String := bucketKey c.routeId c.identity

theorem check_charges (limiter : FixedWindowRateLimiter) (c : Call) :
    Charges (fun key => liveBucket (limiter.buckets.get key) c.now)
      (fun key => liveBucket
        ((limiter.check c.now c.routeId c.identity c.policy).1.buckets.get key) c.now)
      (keyOf c) c (limiter.check c.now c.routeId c.identity c.policy).2 := by
  have ⟨limiter', hkeeps, hcheck⟩ := limiter.check_cases c.now c.routeId c.identity c.policy
  rcases hcheck with
    ⟨e, heq, hkept, _⟩ | ⟨window, bucket, hvalid, _, hbucket, heq, hget⟩
  · rw [heq]
    exact ⟨hkeeps, .inl ⟨⟨e, rfl⟩, hkept⟩⟩
  · have ⟨hsafe, hpos, hparse⟩ := validateRateLimitInput_ok hvalid
    have hlive : c.now < (chargedBucket bucket).resetAt := by
      rw [(chargedBucket_parts bucket).2.2, hbucket]
      exact currentBucket_live _ _ _ (parseDurationMilliseconds_pos hparse)
    rw [heq]
    refine ⟨hkeeps, .inr ⟨window, bucket, hparse, hsafe, hpos, hbucket, rfl, ?_⟩⟩
    show liveBucket (limiter'.buckets.get (bucketKey c.routeId c.identity)) c.now = _
    rw [hget]
    exact liveBucket_of_live hlive

theorem traced_checkAll {calls : List Call} :
    ∀ {limiter : FixedWindowRateLimiter} {t : Number} {history : List Entry},
      Traced keyOf t (fun key => liveBucket (limiter.buckets.get key) t) history →
      (∀ c ∈ calls, t ≤ c.now) → calls.Pairwise (·.now ≤ ·.now) →
      ∃ t' view, Traced keyOf t' view (history ++ (limiter.checkAll calls).2) := by
  induction calls with
  | nil =>
    intro limiter t history h _ _
    exact ⟨t, _, by simpa [checkAll] using h⟩
  | cons c cs ih =>
    intro limiter t history h ht hsorted
    obtain ⟨hhead, htail⟩ := List.pairwise_cons.mp hsorted
    have hc := ht c List.mem_cons_self
    have hcharges := limiter.check_charges c
    have hview : (fun key => liveBucket (limiter.buckets.get key) c.now) =
        fun key => liveBucket (liveBucket (limiter.buckets.get key) t) c.now := by
      funext key
      rw [liveBucket_liveBucket hc]
    rw [hview] at hcharges
    obtain ⟨t', view, htraced⟩ := ih (h.snoc hc hcharges) hhead htail
    refine ⟨t', view, ?_⟩
    simpa [checkAll, List.append_assoc] using htraced

end FixedWindowRateLimiter

/-- An entry of a run is of one of its calls. -/
theorem FixedWindowRateLimiter.call_of_checkAll {calls : List Call} :
    ∀ {limiter : FixedWindowRateLimiter} {e : Entry}, e ∈ (limiter.checkAll calls).2 →
      e.1 ∈ calls := by
  induction calls with
  | nil =>
    intro limiter e h
    cases h
  | cons c cs ih =>
    intro limiter e h
    rcases List.mem_cons.mp h with rfl | hrest
    · exact List.mem_cons_self
    · exact List.mem_cons_of_mem _ (ih hrest)

namespace RedisFixedWindowRateLimiter

/-- An entry of a run is of one of its calls. -/
theorem call_of_checkAll {limiter : RedisFixedWindowRateLimiter} {calls : List TimedCall} :
    ∀ {server : RedisServer} {e : Entry}, e ∈ (limiter.checkAll server calls).2 →
      ∃ c ∈ calls, e.1 = c.local := by
  induction calls with
  | nil =>
    intro server e h
    cases h
  | cons c cs ih =>
    intro server e h
    rcases List.mem_cons.mp h with rfl | hrest
    · exact ⟨c, List.mem_cons_self, rfl⟩
    · obtain ⟨d, hd, heq⟩ := ih hrest
      exact ⟨d, List.mem_cons_of_mem _ hd, heq⟩

/-- The key of a call's hash. -/
def keyOf (limiter : RedisFixedWindowRateLimiter) (c : Call) : String :=
  limiter.redisKey c.routeId c.identity

/-- Whole windows of the call end below the largest safe integer. -/
def Representable (c : TimedCall) : Prop :=
  ∀ window, parseDurationMilliseconds c.policy.window = .ok window →
    isSafeInteger window = true → windowEnd c.time.nowMs window ≤ maxSafeInteger

/-- A safe integer that is positive is a whole number. -/
theorem nat_of_isSafeInteger {x : Number} (hsafe : isSafeInteger x = true) (hpos : 0 < x) :
    ∃ n : ℕ, x = n ∧ 0 < n := by
  have hnum := num_of_isSafeInteger hsafe
  have hnumPos : 0 < x.num := Rat.num_pos.mpr hpos
  refine ⟨x.num.toNat, ?_, by omega⟩
  have hcast : ((x.num.toNat : ℤ) : ℚ) = x := by
    rw [Int.toNat_of_nonneg hnumPos.le, hnum]
  rw [← hcast]
  push_cast
  rfl

theorem check_charges (limiter : RedisFixedWindowRateLimiter) {server : RedisServer} {t : Number}
    {c : TimedCall} (haligned : Aligned server t) (ht : t ≤ c.time.nowMs)
    (hrep : Representable c) :
    Aligned (limiter.check server c.time c.routeId c.identity c.policy).1 c.time.nowMs ∧
      Charges (fun key => liveHash server key c.time.nowMs)
        (fun key => liveHash (limiter.check server c.time c.routeId c.identity c.policy).1 key
          c.time.nowMs)
        (limiter.keyOf c.local) c.local
        (limiter.check server c.time c.routeId c.identity c.policy).2 := by
  have ⟨server', haligned', hothers, hcheck⟩ := limiter.check_cases haligned ht c.routeId
    c.identity c.policy fun window hvalid hsafe => by
      have ⟨hrequests, hpos, hparse⟩ := validateRateLimitInput_ok hvalid
      exact ⟨nowMs_nat c.time, nat_of_isSafeInteger hsafe (parseDurationMilliseconds_pos hparse),
        hpos, hrequests, hrep window hparse hsafe⟩
  have hkept : ∀ other, other ≠ limiter.redisKey c.routeId c.identity →
      liveHash server' other c.time.nowMs = liveHash server other c.time.nowMs := by
    intro other hother
    rw [liveHash_eq haligned', liveHash_eq haligned, hothers other hother]
  rcases hcheck with ⟨e, heq, hserver, _⟩ | ⟨window, bucket, hvalid, hbucket, heq, hlive⟩
  · rw [heq]
    refine ⟨haligned', hkept, .inl ⟨⟨e, rfl⟩, ?_⟩⟩
    rw [hserver]
  · have ⟨hsafe, hpos, hparse⟩ := validateRateLimitInput_ok hvalid
    rw [heq]
    exact ⟨haligned', hkept, .inr ⟨window, bucket, hparse, hsafe, hpos, hbucket, rfl, hlive⟩⟩

theorem traced_checkAll (limiter : RedisFixedWindowRateLimiter) {calls : List TimedCall} :
    ∀ {server : RedisServer} {t : Number} {history : List Entry}, Aligned server t →
      Traced limiter.keyOf t (fun key => liveHash server key t) history →
      (∀ c ∈ calls, t ≤ c.time.nowMs) → calls.Pairwise (·.time.nowMs ≤ ·.time.nowMs) →
      (∀ c ∈ calls, Representable c) →
      ∃ t' view, Traced limiter.keyOf t' view (history ++ (limiter.checkAll server calls).2) := by
  induction calls with
  | nil =>
    intro server t history _ h _ _ _
    exact ⟨t, _, by simpa [checkAll] using h⟩
  | cons c cs ih =>
    intro server t history haligned h ht hsorted hrep
    obtain ⟨hhead, htail⟩ := List.pairwise_cons.mp hsorted
    obtain ⟨hfirst, hrest⟩ := List.forall_mem_cons.mp hrep
    have hc := ht c List.mem_cons_self
    obtain ⟨haligned', hcharges⟩ := limiter.check_charges haligned hc hfirst
    have hview : (fun key => liveHash server key c.time.nowMs) =
        fun key => liveBucket (liveHash server key t) c.local.now := by
      funext key
      show _ = liveBucket (liveHash server key t) c.time.nowMs
      rw [liveHash_eq haligned, liveHash_eq haligned, liveBucket_liveBucket hc]
    rw [hview] at hcharges
    obtain ⟨t', view, htraced⟩ := ih haligned' (h.snoc hc hcharges) hhead htail hrest
    refine ⟨t', view, ?_⟩
    simpa [checkAll, List.append_assoc] using htraced

end RedisFixedWindowRateLimiter

/-- The quota of every key of the in-memory limiter. -/
theorem FixedWindowRateLimiter.quota_per_key {maxBuckets : Number}
    {memory : FixedWindowRateLimiter} (hnew : FixedWindowRateLimiter.create maxBuckets = .ok memory)
    {calls : List Call} (hclock : calls.Pairwise (·.now ≤ ·.now)) (key : String)
    (limit w : Number) (k : ℤ) :
    (allowedUnder FixedWindowRateLimiter.keyOf (memory.checkAll calls).2 key limit w k : ℚ) ≤
      limit * (stretches FixedWindowRateLimiter.keyOf (memory.checkAll calls).2 key limit w k).2 := by
  have hempty : memory.buckets = .empty := by
    unfold FixedWindowRateLimiter.create at hnew
    split at hnew <;> cases hnew
    rfl
  cases calls with
  | nil => simp [FixedWindowRateLimiter.checkAll, allowedUnder, stretches]
  | cons c cs =>
    have hinitial : Traced FixedWindowRateLimiter.keyOf c.now
        (fun key => liveBucket (memory.buckets.get key) c.now) [] := by
      rw [hempty]
      exact .nil c.now
    have hlater : ∀ d ∈ c :: cs, c.now ≤ d.now :=
      List.forall_mem_cons.mpr ⟨le_refl _, (List.pairwise_cons.mp hclock).1⟩
    obtain ⟨t, view, htraced⟩ := FixedWindowRateLimiter.traced_checkAll hinitial hlater hclock
    exact htraced.quota key limit w k

/-- The quota of every key of the Redis server. -/
theorem RedisFixedWindowRateLimiter.quota_per_key (limiter : RedisFixedWindowRateLimiter)
    {calls : List RedisFixedWindowRateLimiter.TimedCall}
    (hclock : calls.Pairwise (·.time.nowMs ≤ ·.time.nowMs))
    (hrep : ∀ c ∈ calls, RedisFixedWindowRateLimiter.Representable c) (key : String)
    (limit w : Number) (k : ℤ) :
    (allowedUnder limiter.keyOf (limiter.checkAll .empty calls).2 key limit w k : ℚ) ≤
      limit * (stretches limiter.keyOf (limiter.checkAll .empty calls).2 key limit w k).2 := by
  have hnonneg : ∀ c ∈ calls, 0 ≤ c.time.nowMs := by
    intro c _
    obtain ⟨n, hn⟩ := RedisFixedWindowRateLimiter.nowMs_nat c.time
    rw [hn]
    exact Nat.cast_nonneg n
  have haligned : RedisFixedWindowRateLimiter.Aligned .empty 0 := fun key entry h => by cases h
  obtain ⟨t, view, htraced⟩ := limiter.traced_checkAll haligned (.nil 0) hnonneg hclock hrep
  exact htraced.quota key limit w k

/-- Route IDs without the separator keep the bucket keys of different pairs apart. -/
theorem bucketKey_eq_iff {c d : Call} (hc : '\x00' ∉ c.routeId.toList)
    (hd : '\x00' ∉ d.routeId.toList) :
    bucketKey c.routeId c.identity = bucketKey d.routeId d.identity ↔ pairOf c = pairOf d := by
  constructor
  · intro h
    obtain ⟨hroute, hidentity⟩ := bucketKey_injective hc hd h
    exact Prod.ext hroute hidentity
  · intro h
    obtain ⟨hroute, hidentity⟩ := Prod.mk.inj h
    rw [hroute, hidentity]

/-- **Quota across policy switches.** For either limiter, every run with a clock that never goes
backwards and route IDs without the separator of the keys, and every pair, policy and aligned
window, the calls allowed are at most the limit times the stretches of calls under the policy in
that window. -/
theorem quota_per_stretch :
    (∀ maxBuckets memory, FixedWindowRateLimiter.create maxBuckets = .ok memory →
      ∀ calls : List Call, calls.Pairwise (·.now ≤ ·.now) →
        (∀ c ∈ calls, '\x00' ∉ c.routeId.toList) → ∀ pair limit w k,
        (allowedUnder pairOf (memory.checkAll calls).2 pair limit w k : ℚ) ≤
          limit * (stretches pairOf (memory.checkAll calls).2 pair limit w k).2) ∧
      ∀ (limiter : RedisFixedWindowRateLimiter) (calls : List RedisFixedWindowRateLimiter.TimedCall),
        calls.Pairwise (·.time.nowMs ≤ ·.time.nowMs) →
        (∀ c ∈ calls, RedisFixedWindowRateLimiter.Representable c) →
        (∀ c ∈ calls, '\x00' ∉ c.routeId.toList) →
        (∀ c ∈ calls, ∀ d ∈ calls, limiter.sha256 c.identityBytes = limiter.sha256 d.identityBytes →
          c.identityBytes = d.identityBytes) → ∀ pair limit w k,
          (allowedUnder pairOf (limiter.checkAll .empty calls).2 pair limit w k : ℚ) ≤
            limit * (stretches pairOf (limiter.checkAll .empty calls).2 pair limit w k).2 := by
  refine ⟨fun maxBuckets memory hnew calls hclock hnul => ?_,
    fun limiter calls hclock hrep hnul hcollision => ?_⟩
  · refine quota_of_keys (FixedWindowRateLimiter.quota_per_key hnew hclock) fun e he e' he' => ?_
    exact bucketKey_eq_iff (hnul _ (FixedWindowRateLimiter.call_of_checkAll he))
      (hnul _ (FixedWindowRateLimiter.call_of_checkAll he'))
  · refine quota_of_keys (limiter.quota_per_key hclock hrep) fun e he e' he' => ?_
    obtain ⟨c, hc, heq⟩ := RedisFixedWindowRateLimiter.call_of_checkAll he
    obtain ⟨d, hd, heq'⟩ := RedisFixedWindowRateLimiter.call_of_checkAll he'
    rw [heq, heq']
    have hkeys : limiter.keyOf c.local = limiter.keyOf d.local ↔
        bucketKey c.routeId c.identity = bucketKey d.routeId d.identity :=
      RedisFixedWindowRateLimiter.redisKey_eq_iff (hcollision d hd c hc)
    exact hkeys.trans (bucketKey_eq_iff (c := c.local) (d := d.local) (hnul c hc) (hnul d hd))

namespace Orders

/-- A limit of one, raised to two and lowered again within a second. -/
def switching : List RedisFixedWindowRateLimiter.TimedCall :=
  [RedisFixedWindowRateLimiter.Orders.call 1 200 "10.0.0.1" 1,
    RedisFixedWindowRateLimiter.Orders.call 1 300 "10.0.0.1" 2,
    RedisFixedWindowRateLimiter.Orders.call 1 400 "10.0.0.1" 1]

/-- What the in-memory limiter and the Redis limiter make of these calls. -/
def inMemory : List Entry :=
  ((FixedWindowRateLimiter.mk 2 .empty 0).checkAll (switching.map (·.local))).2

def onRedis : List Entry :=
  (RedisFixedWindowRateLimiter.Orders.distributed.checkAll .empty switching).2

def switched : String × String := ("orders", "10.0.0.1")

end Orders

open Orders in
/-- The calls fall into two stretches under a limit of one, and no more than two are allowed. -/
theorem quota_per_stretch_orders :
    (stretches pairOf inMemory switched 1 1000 1).2 = 2 ∧
      (allowedUnder pairOf inMemory switched 1 1000 1 : ℚ) ≤
        (1 : Number) * (stretches pairOf inMemory switched 1 1000 1).2 ∧
      (allowedUnder pairOf onRedis switched 1 1000 1 : ℚ) ≤
        (1 : Number) * (stretches pairOf onRedis switched 1 1000 1).2 := by
  have hclock : (switching.map (·.local)).Pairwise (·.now ≤ ·.now) := by decide +kernel
  have hserver : switching.Pairwise (·.time.nowMs ≤ ·.time.nowMs) := by decide +kernel
  have hwindow : parseDurationMilliseconds "1s" = .ok 1000 := by decide +kernel
  have hends : ∀ c ∈ switching, c.policy.window = "1s" ∧
      RedisFixedWindowRateLimiter.windowEnd c.time.nowMs 1000 ≤ maxSafeInteger := by
    decide +kernel
  have hrep : ∀ c ∈ switching, RedisFixedWindowRateLimiter.Representable c := by
    intro c hc window hparse _
    have ⟨hpolicy, hend⟩ := hends c hc
    rw [hpolicy, hwindow] at hparse
    rw [← Except.ok.inj hparse]
    exact hend
  refine ⟨by decide +kernel, ?_, ?_⟩
  · exact quota_per_stretch.1 2 (FixedWindowRateLimiter.mk 2 .empty 0) rfl _ hclock (by decide) _ 1
      1000 1
  · exact quota_per_stretch.2 _ _ hserver hrep (by decide) (by decide +kernel) _ 1 1000 1

open Orders in
/-- Both limiters allow two calls under a limit of one within one window, when a call under
another limit comes between them. -/
theorem switching_exceeds_quota :
    allowedUnder pairOf inMemory switched 1 1000 1 = 2 ∧
      allowedUnder pairOf onRedis switched 1 1000 1 = 2 := by
  constructor
  · decide +kernel
  · decide +kernel

end ShieldWard.Edge
