import ShieldWard.Edge.RateLimit
import Mathlib.Tactic.Ring
import Mathlib.Tactic.FieldSimp

/-!
# The quota of the in-memory limiter

The limiter keeps a window count in a map that two sweeps prune and that is keyed by a
concatenated string. What a caller is promised is about the history of calls instead: among
the calls of one pair in one aligned window that do not throw, the first `requests` are
allowed. The two meet in `Tracks`, which says of every bucket that it counts its window, and
of every unfinished window without a bucket that no call was served in it.
-/

namespace ShieldWard.Edge
namespace FixedWindowRateLimiter

open Ecma

/-! ## Bucket keys -/

/-- A route ID without NUL is recovered from the key, and the identity with it. -/
theorem bucketKey_injective {r r' i i' : String} (hr : '\x00' ∉ r.toList)
    (hr' : '\x00' ∉ r'.toList) (h : bucketKey r i = bucketKey r' i') : r = r' ∧ i = i' := by
  have hsplit : ∀ (s t : List Char), '\x00' ∉ s →
      (s ++ '\x00' :: t).takeWhile (· ≠ '\x00') = s := by
    intro s t hs
    rw [List.takeWhile_append_of_pos (by
      intro c hc
      have hne : c ≠ '\x00' := fun hcz => hs (hcz ▸ hc)
      simpa using hne)]
    simp
  have hlist : r.toList ++ '\x00' :: i.toList = r'.toList ++ '\x00' :: i'.toList := by
    simpa [bucketKey] using congrArg String.toList h
  have hroute : r.toList = r'.toList := by
    rw [← hsplit r.toList i.toList hr, hlist, hsplit r'.toList i'.toList hr']
  refine ⟨String.toList_inj.mp hroute, String.toList_inj.mp ?_⟩
  rw [hroute] at hlist
  simpa using hlist

/-! ## What validation gives -/

theorem parseDurationMilliseconds_pos {value : String} {w : Number}
    (h : parseDurationMilliseconds value = .ok w) : 0 < w := by
  unfold parseDurationMilliseconds at h
  simp only at h
  split_ifs at h
  split at h
  · cases h
  · split_ifs at h with hbad
    cases h
    push Not at hbad
    exact hbad.1

theorem validateRateLimitInput_ok {routeId identity : String} {policy : RateLimitPolicy}
    {w : Number} (h : validateRateLimitInput routeId identity policy = .ok w) :
    isSafeInteger policy.requests = true ∧ 0 < policy.requests ∧
      parseDurationMilliseconds policy.window = .ok w := by
  unfold validateRateLimitInput at h
  split_ifs at h with _ _ hreq
  simp only [Bool.or_eq_true, Bool.not_eq_true', decide_eq_true_eq, not_or, not_le,
    Bool.not_eq_false] at hreq
  exact ⟨hreq.1, hreq.2, h⟩

/-! ## Histories -/

/-- One call: the clock reading, the pair and the policy. -/
structure Call where
  now : Number
  routeId : String
  identity : String
  policy : RateLimitPolicy
deriving DecidableEq, Repr

/-- A call and what it returned or threw. -/
abbrev Entry := Call × Except RateLimiterError RateLimitResult

/-- Run a sequence of calls; the state after it and the history, oldest entry first. -/
def checkAll (limiter : FixedWindowRateLimiter) : List Call → FixedWindowRateLimiter × List Entry
  | [] => (limiter, [])
  | c :: cs =>
    let (limiter', result) := limiter.check c.now c.routeId c.identity c.policy
    let (final, history) := checkAll limiter' cs
    (final, (c, result) :: history)

/-- `now` lies in the aligned window `[k * w, (k + 1) * w)`. -/
def InWindow (now w : Number) (k : ℤ) : Prop := k * w ≤ now ∧ now < (k + 1) * w

instance (now w : Number) (k : ℤ) : Decidable (InWindow now w k) :=
  inferInstanceAs (Decidable (_ ∧ _))

/-- The call returned a result. -/
def returned : Except RateLimiterError RateLimitResult → Bool
  | .ok _ => true
  | .error _ => false

/-- The call returned a result that allows the request. -/
def admitted : Except RateLimiterError RateLimitResult → Bool
  | .ok r => r.allowed
  | .error _ => false

/-- The entry is a call of the pair in the window. -/
def concerns (pair : String × String) (w : Number) (k : ℤ) (e : Entry) : Bool :=
  (e.1.routeId, e.1.identity) = pair && InWindow e.1.now w k

/-- The number of calls of the pair in the window that did not throw. -/
def served (history : List Entry) (pair : String × String) (w : Number) (k : ℤ) : ℕ :=
  history.countP fun e => concerns pair w k e && returned e.2

/-- The number of calls of the pair in the window that were allowed. -/
def allowedCount (history : List Entry) (pair : String × String) (w : Number) (k : ℤ) : ℕ :=
  history.countP fun e => concerns pair w k e && admitted e.2

theorem served_append_singleton (history : List Entry) (e : Entry) (pair : String × String)
    (w : Number) (k : ℤ) :
    served (history ++ [e]) pair w k =
      served history pair w k + if concerns pair w k e && returned e.2 then 1 else 0 := by
  simp only [served, List.countP_append, List.countP_singleton]

theorem allowedCount_append_singleton (history : List Entry) (e : Entry)
    (pair : String × String) (w : Number) (k : ℤ) :
    allowedCount (history ++ [e]) pair w k =
      allowedCount history pair w k + if concerns pair w k e && admitted e.2 then 1 else 0 := by
  simp only [allowedCount, List.countP_append, List.countP_singleton]

/-! ## Aligned windows -/

theorem inWindow_floor (now : Number) {w : Number} (hw : 0 < w) : InWindow now w ⌊now / w⌋ := by
  have hlo := Int.floor_le (now / w)
  have hhi := Int.lt_floor_add_one (now / w)
  constructor
  · calc (⌊now / w⌋ : ℚ) * w ≤ now / w * w := by gcongr
      _ = now := div_mul_cancel₀ now hw.ne'
  · calc now = now / w * w := (div_mul_cancel₀ now hw.ne').symm
      _ < (⌊now / w⌋ + 1) * w := by gcongr

/-- A window begun at `now` is not after one unfinished at `now`. -/
theorem InWindow.le_of_le {now w : Number} {j k : ℤ} (hw : 0 < w) (hj : j * w ≤ now)
    (hk : now < (k + 1) * w) : j ≤ k := by
  have hlt : (j : ℚ) * w < (k + 1) * w := lt_of_le_of_lt hj hk
  have hjk : (j : ℚ) < k + 1 := lt_of_mul_lt_mul_right hlt hw.le
  exact Int.lt_add_one_iff.mp (by exact_mod_cast hjk)

/-- A reading lies in one window only. -/
theorem InWindow.unique {now w : Number} {j k : ℤ} (hw : 0 < w) (hj : InWindow now w j)
    (hk : InWindow now w k) : j = k :=
  le_antisymm (InWindow.le_of_le hw hj.1 hk.2) (InWindow.le_of_le hw hk.1 hj.2)

/-- Windows that end together are the same window. -/
theorem window_eq_of_end_eq {w : Number} {j k : ℤ} (hw : 0 < w)
    (h : ((j : ℚ) + 1) * w = (k + 1) * w) : j = k := by
  have hjk : (j : ℚ) + 1 = k + 1 := mul_right_cancel₀ hw.ne' h
  exact_mod_cast add_right_cancel hjk

/-! ## What a history has to do with the buckets -/

/-- The policies of the pairs: every pair is always checked under one policy. -/
abbrev Policies := String × String → RateLimitPolicy

/-- The pair has a NUL-free route and a policy whose window lasts `w`. -/
structure Timed (policyOf : Policies) (pair : String × String) (w : Number) : Prop where
  nulFree : '\x00' ∉ pair.1.toList
  window : parseDurationMilliseconds (policyOf pair).window = .ok w

theorem Timed.pos {policyOf : Policies} {pair : String × String} {w : Number}
    (h : Timed policyOf pair w) : 0 < w := parseDurationMilliseconds_pos h.window

theorem Timed.unique {policyOf : Policies} {pair : String × String} {w w' : Number}
    (h : Timed policyOf pair w) (h' : Timed policyOf pair w') : w = w' := by
  have := h.window.symm.trans h'.window
  cases this
  rfl

/-- The bucket counts the calls of the pair in the window `k`, which has begun. -/
structure Counts (policyOf : Policies) (history : List Entry) (t : Number)
    (pair : String × String) (w : Number) (k : ℤ) (b : RateLimitBucket) : Prop where
  limit : b.limit = (policyOf pair).requests
  windowMs : b.windowMs = w
  resetAt : b.resetAt = (k + 1) * w
  begun : k * w ≤ t
  count : (b.count : ℚ) = min (served history pair w k : ℚ) (policyOf pair).requests

/-- The invariant of the limiter at time `t` after a history. -/
structure Tracks (policyOf : Policies) (limiter : FixedWindowRateLimiter)
    (history : List Entry) (t : Number) : Prop where
  /-- Every bucket counts a window of some pair. -/
  bucket : ∀ key b, limiter.buckets.get key = some b →
    ∃ pair w k, Timed policyOf pair w ∧ key = bucketKey pair.1 pair.2 ∧
      Counts policyOf history t pair w k b
  /-- In a window that has not ended and has no bucket, no call was served. -/
  idle : ∀ pair w (k : ℤ), Timed policyOf pair w → t < (k + 1) * w →
    (∀ b, limiter.buckets.get (bucketKey pair.1 pair.2) = some b → b.resetAt ≠ (k + 1) * w) →
    served history pair w k = 0

variable {policyOf : Policies} {limiter : FixedWindowRateLimiter} {history : List Entry}
  {t now : Number}

/-- The bucket found under the key of a pair counts a window of that pair. -/
theorem Tracks.bucket_of_pair (h : Tracks policyOf limiter history t) {pair : String × String}
    {w : Number} (hp : Timed policyOf pair w) {b : RateLimitBucket}
    (hb : limiter.buckets.get (bucketKey pair.1 pair.2) = some b) :
    ∃ k, Counts policyOf history t pair w k b := by
  obtain ⟨pair', w', k, hp', hkey, hc⟩ := h.bucket _ _ hb
  obtain ⟨hr, hi⟩ := bucketKey_injective hp.nulFree hp'.nulFree hkey
  obtain rfl : pair = pair' := Prod.ext hr hi
  obtain rfl := hp.unique hp'
  exact ⟨k, hc⟩

theorem Tracks.later (h : Tracks policyOf limiter history t) (ht : t ≤ now) :
    Tracks policyOf limiter history now where
  bucket key b hb := by
    obtain ⟨pair, w, k, hp, hkey, hc⟩ := h.bucket key b hb
    exact ⟨pair, w, k, hp, hkey, { hc with begun := hc.begun.trans ht }⟩
  idle pair w k hp hk := h.idle pair w k hp (lt_of_le_of_lt ht hk)

/-- Sweeping the buckets that have expired at `now` loses no unfinished window. -/
theorem Tracks.removeExpired (h : Tracks policyOf limiter history now) :
    Tracks policyOf (limiter.removeExpired now) history now where
  bucket key b hb := by
    rw [FixedWindowRateLimiter.removeExpired, OrderedMap.get_filter,
      Option.filter_eq_some_iff] at hb
    exact h.bucket key b hb.1
  idle pair w k hp hk hno := by
    refine h.idle pair w k hp hk fun b hb hreset => ?_
    refine hno b ?_ hreset
    rw [FixedWindowRateLimiter.removeExpired, OrderedMap.get_filter,
      Option.filter_eq_some_iff]
    exact ⟨hb, by simpa [hreset] using hk⟩

theorem Tracks.cleanup (h : Tracks policyOf limiter history now) :
    Tracks policyOf (limiter.cleanup now) history now := by
  unfold FixedWindowRateLimiter.cleanup
  split
  · exact ⟨h.removeExpired.bucket, h.removeExpired.idle⟩
  · exact h

/-- Making room sweeps the expired buckets or does nothing. -/
theorem makeRoom_fst (limiter : FixedWindowRateLimiter) (now : Number) :
    (limiter.makeRoom now).1 = limiter ∨ (limiter.makeRoom now).1 = limiter.removeExpired now := by
  unfold FixedWindowRateLimiter.makeRoom
  split
  · right
    simp only
    split <;> rfl
  · left
    rfl

theorem Tracks.makeRoom (h : Tracks policyOf limiter history now) :
    Tracks policyOf (limiter.makeRoom now).1 history now := by
  rcases makeRoom_fst limiter now with heq | heq <;> rw [heq]
  · exact h
  · exact h.removeExpired

theorem makeRoom_get_none (now : Number) {key : String} (h : limiter.buckets.get key = none) :
    (limiter.makeRoom now).1.buckets.get key = none := by
  rcases makeRoom_fst limiter now with heq | heq <;> rw [heq]
  · exact h
  · rw [FixedWindowRateLimiter.removeExpired, OrderedMap.get_filter, h]
    rfl

/-- Writing the bucket of the running window of a pair, with a history that agrees with the
old one on every other window, keeps the invariant. -/
theorem Tracks.setBucket (h : Tracks policyOf limiter history now) (history' : List Entry)
    {pair : String × String} {w : Number} {k : ℤ} {b : RateLimitBucket}
    (hp : Timed policyOf pair w) (hk : InWindow now w k)
    (hc : Counts policyOf history' now pair w k b)
    (hsame : ∀ pair' w' k', Timed policyOf pair' w' → ¬(pair' = pair ∧ k' = k) →
      served history' pair' w' k' = served history pair' w' k') :
    Tracks policyOf
      { limiter with buckets := limiter.buckets.set (bucketKey pair.1 pair.2) b } history' now := by
  have hkey : ∀ pair' w', Timed policyOf pair' w' → pair' ≠ pair →
      bucketKey pair'.1 pair'.2 ≠ bucketKey pair.1 pair.2 := by
    intro pair' w' hp' hne heq
    obtain ⟨h1, h2⟩ := bucketKey_injective hp'.nulFree hp.nulFree heq
    exact hne (Prod.ext h1 h2)
  constructor
  · intro key b' hb'
    rw [OrderedMap.get_set] at hb'
    split at hb'
    · next hkeq =>
      cases hb'
      exact ⟨pair, w, k, hp, hkeq, hc⟩
    · next hkne =>
      obtain ⟨pair', w', k', hp', hkey', hc'⟩ := h.bucket key b' hb'
      have hne : pair' ≠ pair := fun hpp => hkne (hpp ▸ hkey')
      refine ⟨pair', w', k', hp', hkey', { hc' with count := ?_ }⟩
      rw [hsame pair' w' k' hp' fun hpk => hne hpk.1]
      exact hc'.count
  · intro pair' w' k' hp' hk' hno
    by_cases hpp : pair' = pair
    · subst hpp
      obtain rfl := hp.unique hp'
      have hreset := hno b (OrderedMap.get_set_self _ _ _)
      have hne : k' ≠ k := fun hkk => hreset (hkk ▸ hc.resetAt)
      have hlt : k < k' := lt_of_le_of_ne (InWindow.le_of_le hp.pos hk.1 hk') hne.symm
      rw [hsame pair' w k' hp' fun hpk => hne hpk.2]
      -- the bucket that was there, if any, is of a window begun at `now`, so not of `k'`
      refine h.idle pair' w k' hp' hk' fun b' hb' hend => ?_
      obtain ⟨j, hj⟩ := h.bucket_of_pair hp' hb'
      have hjk' : j = k' := window_eq_of_end_eq hp.pos (hj.resetAt.symm.trans hend)
      have hjk : j ≤ k := InWindow.le_of_le hp.pos hj.begun hk.2
      omega
    · rw [hsame pair' w' k' hp' fun hpk => hpp hpk.1]
      refine h.idle pair' w' k' hp' hk' fun b' hb' => hno b' ?_
      rwa [OrderedMap.get_set_of_ne _ _ (hkey pair' w' hp' hpp)]

/-- A fresh bucket counts the running window, if no bucket of that window is there. -/
theorem Tracks.counts_fresh (h : Tracks policyOf limiter history now)
    {pair : String × String} {w : Number} (hp : Timed policyOf pair w)
    (hreq : 0 < (policyOf pair).requests)
    (hno : ∀ b, limiter.buckets.get (bucketKey pair.1 pair.2) = some b → b.resetAt ≤ now) :
    Counts policyOf history now pair w ⌊now / w⌋
      (freshBucket now (policyOf pair).requests w) := by
  have hk := inWindow_floor now hp.pos
  have hidle : served history pair w ⌊now / w⌋ = 0 := by
    refine h.idle pair w _ hp hk.2 fun b hb hend => ?_
    have hle := hno b hb
    rw [hend] at hle
    exact absurd hk.2 (not_lt.mpr hle)
  refine ⟨rfl, rfl, ?_, hk.1, ?_⟩
  · simp only [freshBucket]
    ring
  · rw [hidle]
    simp only [freshBucket, Nat.cast_zero]
    exact (min_eq_left hreq.le).symm

/-- What `openBucket` leaves and returns for a call of a pair. -/
theorem openBucket_spec (h : Tracks policyOf limiter history now)
    {pair : String × String} {w : Number} (hp : Timed policyOf pair w)
    (hreq : 0 < (policyOf pair).requests) {limiter' : FixedWindowRateLimiter}
    {result : Except RateLimiterError RateLimitBucket}
    (hopen : limiter.openBucket (bucketKey pair.1 pair.2) now (policyOf pair).requests w =
      (limiter', result)) :
    Tracks policyOf limiter' history now ∧
      ∀ b, result = .ok b → limiter'.buckets.get (bucketKey pair.1 pair.2) = some b ∧
        Counts policyOf history now pair w ⌊now / w⌋ b := by
  have hk := inWindow_floor now hp.pos
  unfold openBucket at hopen
  simp only at hopen
  split at hopen
  · next b hb =>
    obtain ⟨j, hj⟩ := h.bucket_of_pair hp hb
    split at hopen
    · next hstale =>
      cases hopen
      -- limit and window agree, so the bucket is stale because it has expired
      have hexp : b.resetAt ≤ now := by
        simpa [isStale, hj.limit, hj.windowMs] using hstale
      have hc := h.counts_fresh hp hreq fun b' hb' => by
        rw [hb] at hb'
        cases hb'
        exact hexp
      refine ⟨h.setBucket history hp hk hc fun _ _ _ _ _ => rfl, ?_⟩
      rintro b' hb'
      cases hb'
      exact ⟨OrderedMap.get_set_self _ _ _, hc⟩
    · next hlive =>
      cases hopen
      refine ⟨h, ?_⟩
      rintro b' hb'
      cases hb'
      have hlt : now < (j + 1) * w := by
        rw [← hj.resetAt]
        simp only [isStale, Bool.or_eq_true, decide_eq_true_eq, not_or, not_le] at hlive
        exact hlive.1.1
      obtain rfl : j = ⌊now / w⌋ := InWindow.unique hp.pos ⟨hj.begun, hlt⟩ hk
      exact ⟨hb, hj⟩
  · next hnone =>
    have hroom := h.makeRoom
    split at hopen
    · next hm =>
      cases hopen
      rw [hm] at hroom
      exact ⟨hroom, by rintro b ⟨⟩⟩
    · next swept hm =>
      cases hopen
      rw [hm] at hroom
      have hgone : swept.buckets.get (bucketKey pair.1 pair.2) = none := by
        have hget := makeRoom_get_none now hnone
        rwa [hm] at hget
      have hc := hroom.counts_fresh hp hreq fun b hb => by
        rw [hgone] at hb
        cases hb
      refine ⟨hroom.setBucket history hp hk hc fun _ _ _ _ _ => rfl, ?_⟩
      rintro b hb
      cases hb
      exact ⟨OrderedMap.get_set_self _ _ _, hc⟩

/-! ## One call -/

/-- What the claimant of a quota is promised about a call that does not throw: `before` is the
history before the call, `k` the aligned window it falls in. -/
structure Promised (policy : RateLimitPolicy) (before : List Entry) (c : Call)
    (r : RateLimitResult) (w : Number) (k : ℤ) : Prop where
  allowed : r.allowed = true ↔
    (served before (c.routeId, c.identity) w k : ℚ) < policy.requests
  limit : r.limit = policy.requests
  remaining : r.remaining =
    policy.requests - allowedCount (before ++ [(c, .ok r)]) (c.routeId, c.identity) w k
  resetAt : r.resetAt = (k + 1) * w
  retry_pos : 1 ≤ r.retryAfterSeconds
  retry_ge : (r.resetAt - c.now) / 1000 ≤ r.retryAfterSeconds

/-- The history allows as many calls of every window as were served, up to the quota. -/
def Exact (policyOf : Policies) (history : List Entry) : Prop :=
  ∀ pair w k, Timed policyOf pair w → 0 < (policyOf pair).requests →
    (allowedCount history pair w k : ℚ) = min (served history pair w k : ℚ) (policyOf pair).requests

/-- A count below an integral bound stays within it when it grows by one. -/
theorem cast_succ_le_of_lt {n : ℕ} {q : Number} (hq : isSafeInteger q = true)
    (h : (n : ℚ) < q) : (n : ℚ) + 1 ≤ q := by
  rw [← num_of_isSafeInteger hq] at h ⊢
  have hn : (n : ℤ) < q.num := by exact_mod_cast h
  exact_mod_cast hn

theorem retryAfterSeconds_pos (b : RateLimitBucket) (now : Number) :
    1 ≤ retryAfterSeconds b now := le_max_left _ _

theorem retryAfterSeconds_ge (b : RateLimitBucket) (now : Number) :
    (b.resetAt - now) / 1000 ≤ retryAfterSeconds b now :=
  (Int.le_ceil _).trans (le_max_right _ _)

/-- `served` and `allowedCount` after one more call concern only its own window. -/
theorem concerns_of_window {c : Call} {pair pair' : String × String} {w w' : Number} {k k' : ℤ}
    {result : Except RateLimiterError RateLimitResult}
    (hp : Timed policyOf pair w) (hp' : Timed policyOf pair' w')
    (hpair : (c.routeId, c.identity) = pair) (hk : InWindow c.now w k) :
    concerns pair' w' k' (c, result) = decide (pair' = pair ∧ k' = k) := by
  rw [Bool.eq_iff_iff]
  simp only [concerns, hpair, Bool.and_eq_true, decide_eq_true_eq]
  constructor
  · rintro ⟨rfl, hin⟩
    obtain rfl := hp.unique hp'
    exact ⟨rfl, InWindow.unique hp.pos hin hk⟩
  · rintro ⟨rfl, rfl⟩
    obtain rfl := hp.unique hp'
    exact ⟨rfl, hk⟩

/-- One more call that was allowed exactly below the quota keeps the counts exact. -/
theorem Exact.append {c : Call} {r : RateLimitResult} {pair : String × String} {w : Number}
    {k : ℤ} (h : Exact policyOf history) (hp : Timed policyOf pair w)
    (hsafe : isSafeInteger (policyOf pair).requests = true)
    (hpair : (c.routeId, c.identity) = pair) (hk : InWindow c.now w k)
    (hr : r.allowed = true ↔ (served history pair w k : ℚ) < (policyOf pair).requests) :
    Exact policyOf (history ++ [(c, .ok r)]) := by
  intro pair' w' k' hp' hreq'
  have hold := h pair' w' k' hp' hreq'
  rw [served_append_singleton, allowedCount_append_singleton,
    concerns_of_window hp hp' hpair hk]
  simp only [returned, admitted, Bool.and_true]
  by_cases hsame : pair' = pair ∧ k' = k
  · obtain ⟨rfl, rfl⟩ := hsame
    obtain rfl := hp.unique hp'
    simp only [and_self, decide_true, if_true, Bool.true_and, Nat.cast_add, Nat.cast_one]
    by_cases hlt : (served history pair' w k' : ℚ) < (policyOf pair').requests
    · rw [if_pos (hr.mpr hlt), Nat.cast_one, hold, min_eq_left hlt.le,
        min_eq_left (cast_succ_le_of_lt hsafe hlt)]
    · rw [if_neg (hr.not.mpr hlt), Nat.cast_zero, hold, min_eq_right (not_lt.mp hlt),
        min_eq_right (by linarith [not_lt.mp hlt]), add_zero]
  · simpa [hsame] using hold

/-- Serving a call adds one in its own window and nowhere else. -/
theorem served_record {c : Call} {r : RateLimitResult} {pair pair' : String × String}
    {w w' : Number} {k k' : ℤ} (hp : Timed policyOf pair w) (hp' : Timed policyOf pair' w')
    (hpair : (c.routeId, c.identity) = pair) (hk : InWindow c.now w k) :
    served (history ++ [(c, .ok r)]) pair' w' k' =
      served history pair' w' k' + if pair' = pair ∧ k' = k then 1 else 0 := by
  rw [served_append_singleton, concerns_of_window hp hp' hpair hk]
  simp [returned]

/-- The result of a refused call. -/
def refusal (b : RateLimitBucket) (now : Number) : RateLimitResult where
  allowed := false
  limit := b.limit
  remaining := 0
  resetAt := b.resetAt
  retryAfterSeconds := retryAfterSeconds b now

/-- The result of a call that is counted. -/
def admission (b : RateLimitBucket) (now : Number) : RateLimitResult where
  allowed := true
  limit := b.limit
  remaining := b.limit - (b.count + 1)
  resetAt := b.resetAt
  retryAfterSeconds := retryAfterSeconds b now

theorem charge_of_le {key : String} {b : RateLimitBucket} (h : b.limit ≤ b.count) :
    limiter.charge key b now = (limiter, refusal b now) := by
  rw [charge, if_pos h]
  rfl

theorem charge_of_lt {key : String} {b : RateLimitBucket} (h : (b.count : ℚ) < b.limit) :
    limiter.charge key b now =
      ({ limiter with buckets := limiter.buckets.set key { b with count := b.count + 1 } },
        admission b now) := by
  rw [charge, if_neg (not_le.mpr h)]
  simp [admission, retryAfterSeconds]

/-- What `charge` leaves and returns for the bucket of the running window of a pair. -/
theorem charge_spec (h : Tracks policyOf limiter history now) (hex : Exact policyOf history)
    {w : Number} {k : ℤ} {b : RateLimitBucket} {c : Call} (hnow : c.now = now)
    (hp : Timed policyOf (c.routeId, c.identity) w)
    (hsafe : isSafeInteger (policyOf (c.routeId, c.identity)).requests = true)
    (hreq : 0 < (policyOf (c.routeId, c.identity)).requests)
    (hget : limiter.buckets.get (bucketKey c.routeId c.identity) = some b)
    (hc : Counts policyOf history now (c.routeId, c.identity) w k b) (hk : InWindow now w k) :
    ∃ limiter' r, limiter.charge (bucketKey c.routeId c.identity) b now = (limiter', r) ∧
      Tracks policyOf limiter' (history ++ [(c, .ok r)]) now ∧
      Exact policyOf (history ++ [(c, .ok r)]) ∧
      Promised (policyOf (c.routeId, c.identity)) history c r w k := by
  subst hnow
  -- the call is served in this window of its pair, and in no other one
  have hserved : ∀ r, served (history ++ [(c, .ok r)]) (c.routeId, c.identity) w k =
      served history (c.routeId, c.identity) w k + 1 := by
    intro r
    rw [served_record hp hp rfl hk, if_pos ⟨rfl, rfl⟩]
  have hother : ∀ r pair' w' k', Timed policyOf pair' w' →
      ¬(pair' = (c.routeId, c.identity) ∧ k' = k) →
      served (history ++ [(c, .ok r)]) pair' w' k' = served history pair' w' k' := by
    intro r pair' w' k' hp' hne
    rw [served_record hp hp' rfl hk, if_neg hne, Nat.add_zero]
  set n := (policyOf (c.routeId, c.identity)).requests with hn
  set m := served history (c.routeId, c.identity) w k with hm
  rcases le_or_gt n m with hmn | hmn
  · -- the quota is used up: nothing changes but the history
    have hcount : (b.count : ℚ) = n := hc.count.trans (min_eq_right hmn)
    have hmn' : n ≤ (m + 1 : ℕ) := hmn.trans (by exact_mod_cast Nat.le_succ m)
    have hdenied : (refusal b c.now).allowed = true ↔ (m : ℚ) < n := by
      simp [refusal, hmn]
    have hexact := hex.append hp hsafe rfl hk hdenied
    refine ⟨_, _, charge_of_le (by rw [hc.limit, hcount]), ?_, hexact, hdenied, hc.limit, ?_,
      hc.resetAt, retryAfterSeconds_pos _ _, retryAfterSeconds_ge _ _⟩
    · have hset := h.setBucket (history ++ [(c, .ok (refusal b c.now))]) hp hk
        { hc with count := by rw [hserved, ← hn, hcount, min_eq_right hmn'] } (hother _)
      rwa [OrderedMap.set_eq_self hget] at hset
    · rw [hexact _ w k hp hreq, hserved, ← hn, min_eq_right hmn', sub_self]
      rfl
  · -- one more call is counted
    have hcount : (b.count : ℚ) = m := hc.count.trans (min_eq_left hmn.le)
    have hmn' : ((m + 1 : ℕ) : ℚ) ≤ n := by
      push_cast
      exact cast_succ_le_of_lt hsafe hmn
    have hallowed : (admission b c.now).allowed = true ↔ (m : ℚ) < n := by
      simp [admission, hmn]
    have hexact := hex.append hp hsafe rfl hk hallowed
    refine ⟨_, _, charge_of_lt (by rw [hc.limit, hcount]; exact hmn), ?_, hexact, hallowed,
      hc.limit, ?_, hc.resetAt, retryAfterSeconds_pos _ _, retryAfterSeconds_ge _ _⟩
    · refine h.setBucket _ hp hk { hc with count := ?_ } (hother _)
      rw [hserved, ← hn, min_eq_left hmn']
      push_cast
      rw [hcount]
    · rw [hexact _ w k hp hreq, hserved, ← hn, min_eq_left hmn']
      simp only [admission, hc.limit, hcount]
      push_cast
      rfl

/-! ## Runs -/

/-- A call that throws leaves the counts as they were. -/
theorem served_append_error {c : Call} {e : RateLimiterError} {pair : String × String}
    {w : Number} {k : ℤ} :
    served (history ++ [(c, .error e)]) pair w k = served history pair w k := by
  simp [served_append_singleton, returned]

theorem Tracks.append_error (h : Tracks policyOf limiter history now) (c : Call)
    (e : RateLimiterError) : Tracks policyOf limiter (history ++ [(c, .error e)]) now where
  bucket key b hb := by
    obtain ⟨pair, w, k, hp, hkey, hc⟩ := h.bucket key b hb
    exact ⟨pair, w, k, hp, hkey, { hc with count := by rw [served_append_error, hc.count] }⟩
  idle pair w k hp hk hno := by
    rw [served_append_error]
    exact h.idle pair w k hp hk hno

theorem Exact.append_error (h : Exact policyOf history) (c : Call) (e : RateLimiterError) :
    Exact policyOf (history ++ [(c, .error e)]) := by
  intro pair w k hp hreq
  rw [served_append_error, allowedCount_append_singleton]
  simpa [admitted] using h pair w k hp hreq

/-- One call keeps the invariant, and its result is the promised one. -/
theorem check_spec (h : Tracks policyOf limiter history t) (hex : Exact policyOf history)
    {c : Call} (ht : t ≤ c.now) (hnul : '\x00' ∉ c.routeId.toList)
    (hpol : c.policy = policyOf (c.routeId, c.identity))
    {limiter' : FixedWindowRateLimiter} {result : Except RateLimiterError RateLimitResult}
    (hcheck : limiter.check c.now c.routeId c.identity c.policy = (limiter', result)) :
    Tracks policyOf limiter' (history ++ [(c, result)]) c.now ∧
      Exact policyOf (history ++ [(c, result)]) ∧
      ∀ r, result = .ok r → ∃ w k, parseDurationMilliseconds c.policy.window = .ok w ∧
        InWindow c.now w k ∧ Promised c.policy history c r w k := by
  have hnow := h.later ht
  unfold check at hcheck
  split at hcheck
  · next e _ =>
    cases hcheck
    exact ⟨hnow.append_error c e, hex.append_error c e, by rintro r ⟨⟩⟩
  · next w hvalid =>
    obtain ⟨hsafe, hreq, hparse⟩ := validateRateLimitInput_ok hvalid
    rw [hpol] at hsafe hreq hparse
    have hp : Timed policyOf (c.routeId, c.identity) w := ⟨hnul, hparse⟩
    have hk := inWindow_floor c.now hp.pos
    split at hcheck
    · next hneg =>
      cases hcheck
      exact ⟨hnow.append_error c _, hex.append_error c _, by rintro r ⟨⟩⟩
    · simp only at hcheck
      rw [hpol] at hcheck
      split at hcheck
      · next e hopen =>
        cases hcheck
        have htracks := (openBucket_spec hnow.cleanup hp hreq hopen).1
        exact ⟨htracks.append_error c e, hex.append_error c e, by rintro r ⟨⟩⟩
      · next b hopen =>
        obtain ⟨htracks, hb⟩ := openBucket_spec hnow.cleanup hp hreq hopen
        obtain ⟨hget, hc⟩ := hb b rfl
        obtain ⟨_, r, hch, htracks', hexact, hprom⟩ :=
          charge_spec htracks hex rfl hp hsafe hreq hget hc hk
        rw [hch] at hcheck
        cases hcheck
        refine ⟨htracks', hexact, ?_⟩
        rintro r' hr'
        cases hr'
        rw [hpol]
        exact ⟨w, _, hparse, hk, hprom⟩

/-- From a state that satisfies the invariant, every call of a run that does not throw
returns what was promised for the history before it. -/
theorem checkAll_promised (calls : List Call) :
    ∀ {limiter : FixedWindowRateLimiter} {history : List Entry} {t : Number},
      Tracks policyOf limiter history t → Exact policyOf history →
      (∀ c ∈ calls, t ≤ c.now) → calls.Pairwise (·.now ≤ ·.now) →
      (∀ c ∈ calls, '\x00' ∉ c.routeId.toList) →
      (∀ c ∈ calls, c.policy = policyOf (c.routeId, c.identity)) →
      ∀ before c r after, (limiter.checkAll calls).2 = before ++ (c, .ok r) :: after →
        ∃ w k, parseDurationMilliseconds c.policy.window = .ok w ∧ InWindow c.now w k ∧
          Promised c.policy (history ++ before) c r w k := by
  induction calls with
  | nil =>
    intro _ _ _ _ _ _ _ _ _ before c r after h
    simp [checkAll] at h
  | cons c₀ cs ih =>
    intro limiter history t htracks hex ht hsorted hnul hpol before c r after h
    obtain ⟨hhead, htail⟩ := List.pairwise_cons.mp hsorted
    obtain ⟨limiter', result, hcheck⟩ : ∃ limiter' result,
        limiter.check c₀.now c₀.routeId c₀.identity c₀.policy = (limiter', result) := ⟨_, _, rfl⟩
    obtain ⟨htracks', hex', hprom⟩ := check_spec htracks hex (ht c₀ (by simp))
      (hnul c₀ (by simp)) (hpol c₀ (by simp)) hcheck
    simp only [checkAll, hcheck] at h
    cases before with
    | nil =>
      obtain ⟨hentry, -⟩ := List.cons.inj (h.trans (List.nil_append _))
      obtain ⟨rfl, hres⟩ := Prod.mk.inj hentry
      simpa using hprom r hres
    | cons e before =>
      obtain ⟨rfl, hrest⟩ := List.cons.inj (h.trans (List.cons_append ..))
      obtain hfound := ih htracks' hex' hhead htail (fun d hd => hnul d (by simp [hd]))
        (fun d hd => hpol d (by simp [hd])) before c r after hrest
      simpa using hfound

/-- **Exact fixed-window quota.** In every run of a new limiter with a clock that never goes
backwards, every call that does not throw falls in an aligned window of its pair's policy and
is allowed exactly while fewer than `requests` calls of the pair were served in that window;
its result reports the limit, the allowed calls left, the end of the window and a sufficient
waiting time. Calls for other pairs, both sweeps and capacity errors do not matter. -/
theorem check_exact_quota (policyOf : Policies) (maxBuckets : Number)
    (limiter : FixedWindowRateLimiter) (hnew : create maxBuckets = .ok limiter)
    (calls : List Call) (hclock : calls.Pairwise (·.now ≤ ·.now))
    (hnul : ∀ c ∈ calls, '\x00' ∉ c.routeId.toList)
    (hpol : ∀ c ∈ calls, c.policy = policyOf (c.routeId, c.identity))
    (before after : List Entry) (c : Call) (r : RateLimitResult)
    (hhistory : (limiter.checkAll calls).2 = before ++ (c, .ok r) :: after) :
    ∃ w, parseDurationMilliseconds c.policy.window = .ok w ∧ (∃ k, InWindow c.now w k) ∧
      ∀ k, InWindow c.now w k → Promised c.policy before c r w k := by
  have hempty : limiter.buckets = .empty := by
    unfold create at hnew
    split at hnew <;> cases hnew
    rfl
  cases calls with
  | nil => simp [checkAll] at hhistory
  | cons c₀ cs =>
    have htracks : Tracks policyOf limiter [] c₀.now := by
      refine ⟨fun key b hb => ?_, fun _ _ _ _ _ _ => rfl⟩
      rw [hempty] at hb
      cases hb
    have hexact : Exact policyOf [] := by
      intro pair w k _ hreq
      simpa [allowedCount, served] using (min_eq_left hreq.le).symm
    have hlater : ∀ d ∈ c₀ :: cs, c₀.now ≤ d.now := by
      intro d hd
      rcases List.mem_cons.mp hd with rfl | hd
      · exact le_rfl
      · exact (List.pairwise_cons.mp hclock).1 d hd
    obtain ⟨w, k, hw, hk, hprom⟩ := checkAll_promised (c₀ :: cs) htracks hexact hlater hclock
      hnul hpol before c r after hhistory
    refine ⟨w, hw, ⟨k, hk⟩, fun k' hk' => ?_⟩
    rw [InWindow.unique (parseDurationMilliseconds_pos hw) hk' hk]
    exact hprom

/-- The call of one client at a time, under one request per second. -/
def oncePerSecond (now : Number) : Call := ⟨now, "orders", "10.0.0.1", ⟨1, "1s", .clientIp⟩⟩

/-- The second of two calls within a second is refused. -/
theorem check_exact_quota_second_call :
    ∃ w, parseDurationMilliseconds "1s" = .ok w ∧ (∃ k, InWindow 1500 w k) ∧
      ∀ k, InWindow 1500 w k →
        Promised ⟨1, "1s", .clientIp⟩ [(oncePerSecond 1200, .ok ⟨true, 1, 0, 2000, 1⟩)]
          (oncePerSecond 1500) ⟨false, 1, 0, 2000, 1⟩ w k :=
  check_exact_quota (fun _ => ⟨1, "1s", .clientIp⟩) 1 ⟨1, .empty, 0⟩ rfl
    [oncePerSecond 1200, oncePerSecond 1500] (by decide +kernel) (by decide +kernel)
    (by decide +kernel) _ [] (oncePerSecond 1500) _ (by decide +kernel)

end FixedWindowRateLimiter
end ShieldWard.Edge
