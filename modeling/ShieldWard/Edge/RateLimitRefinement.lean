import ShieldWard.Edge.RateLimitTheorems
import ShieldWard.Edge.RedisRateLimit

/-!
# The distributed limiter refines the in-memory one

Both limiters keep one bucket for each key and answer a call from the bucket that is live for
it: the stored one, or a fresh one when that has expired or belongs to another limit or window.
The in-memory limiter stores the end of the window and sweeps, the script stores its start and
lets the key expire; at every time the two hold the same live buckets.
-/

namespace ShieldWard.Edge

open Ecma Bytes FixedWindowRateLimiter

/-! ## One bucket -/

/-- The bucket that a call uses. -/
def currentBucket (stored : Option RateLimitBucket) (now limit windowMs : Number) :
    RateLimitBucket :=
  match stored with
  | none => freshBucket now limit windowMs
  | some bucket =>
    if isStale bucket now limit windowMs then freshBucket now limit windowMs else bucket

/-- The bucket after a call. -/
def chargedBucket (bucket : RateLimitBucket) : RateLimitBucket :=
  if bucket.limit ≤ bucket.count then bucket else { bucket with count := bucket.count + 1 }

/-- What a call answers. -/
def bucketResult (bucket : RateLimitBucket) (now : Number) : RateLimitResult :=
  if bucket.limit ≤ bucket.count then refusal bucket now else admission bucket now

/-- The bucket that is stored, if it has not expired. -/
def liveBucket (stored : Option RateLimitBucket) (now : Number) : Option RateLimitBucket :=
  stored.filter fun bucket => now < bucket.resetAt

theorem liveBucket_of_live {bucket : RateLimitBucket} {now : Number}
    (h : now < bucket.resetAt) : liveBucket (some bucket) now = some bucket := by
  rw [liveBucket, Option.filter_some, if_pos (decide_eq_true h)]

theorem liveBucket_of_expired {bucket : RateLimitBucket} {now : Number}
    (h : bucket.resetAt ≤ now) : liveBucket (some bucket) now = none := by
  rw [liveBucket, Option.filter_some, if_neg (by simpa using h)]

/-- An expired bucket is as good as none. -/
theorem currentBucket_liveBucket (stored : Option RateLimitBucket) (now limit windowMs : Number) :
    currentBucket (liveBucket stored now) now limit windowMs =
      currentBucket stored now limit windowMs := by
  cases stored with
  | none => rfl
  | some bucket =>
    by_cases hlive : now < bucket.resetAt
    · rw [liveBucket_of_live hlive]
    · have hexpired : bucket.resetAt ≤ now := not_lt.mp hlive
      have hstale : isStale bucket now limit windowMs = true := by
        simp [isStale, hexpired]
      rw [liveBucket_of_expired hexpired]
      simp only [currentBucket, hstale, if_true]

theorem liveBucket_liveBucket {stored : Option RateLimitBucket} {t now : Number} (h : t ≤ now) :
    liveBucket (liveBucket stored t) now = liveBucket stored now := by
  unfold liveBucket
  rw [Option.filter_filter]
  congr 1
  funext bucket
  by_cases hnow : now < bucket.resetAt
  · simp [hnow, lt_of_le_of_lt h hnow]
  · simp [hnow]

/-- The parts of a bucket that a call uses. -/
theorem currentBucket_limit (stored : Option RateLimitBucket) (now limit windowMs : Number) :
    (currentBucket stored now limit windowMs).limit = limit ∧
      (currentBucket stored now limit windowMs).windowMs = windowMs := by
  unfold currentBucket
  split
  · exact ⟨rfl, rfl⟩
  · split
    · exact ⟨rfl, rfl⟩
    · next hfits =>
      simp only [isStale, Bool.or_eq_true, decide_eq_true_eq, not_or, not_not] at hfits
      exact ⟨hfits.1.2, hfits.2⟩

theorem chargedBucket_parts (bucket : RateLimitBucket) :
    (chargedBucket bucket).limit = bucket.limit ∧
      (chargedBucket bucket).windowMs = bucket.windowMs ∧
      (chargedBucket bucket).resetAt = bucket.resetAt := by
  unfold chargedBucket
  split <;> exact ⟨rfl, rfl, rfl⟩

/-! ## The in-memory limiter -/

namespace FixedWindowRateLimiter

variable {limiter limiter' : FixedWindowRateLimiter} {now : Number}

/-- The error of a call that finds no room for its bucket. -/
def capacityError : RateLimiterError := ⟨"rate limiter capacity is exhausted"⟩

/-- The buckets of other keys are kept or expired. -/
def KeepsLive (limiter limiter' : FixedWindowRateLimiter) (now : Number) (key : String) : Prop :=
  liveBucket (limiter'.buckets.get key) now = liveBucket (limiter.buckets.get key) now

theorem keepsLive_removeExpired (limiter : FixedWindowRateLimiter) (now : Number)
    (key : String) : KeepsLive limiter (limiter.removeExpired now) now key := by
  unfold KeepsLive removeExpired liveBucket
  rw [OrderedMap.get_filter, Option.filter_filter]
  congr 1
  funext bucket
  by_cases hexpired : bucket.resetAt ≤ now
  · simp [hexpired, not_lt.mpr hexpired]
  · simp [hexpired, not_le.mp hexpired]

theorem keepsLive_cleanup (limiter : FixedWindowRateLimiter) (now : Number) (key : String) :
    KeepsLive limiter (limiter.cleanup now) now key := by
  unfold cleanup
  split
  · exact keepsLive_removeExpired limiter now key
  · rfl

theorem keepsLive_makeRoom (limiter : FixedWindowRateLimiter) (now : Number) (key : String) :
    KeepsLive limiter (limiter.makeRoom now).1 now key := by
  rcases makeRoom_fst limiter now with heq | heq
  · rw [heq]
    rfl
  · rw [heq]
    exact keepsLive_removeExpired limiter now key

/-- What `openBucket` leaves: the bucket of the call, unless there is no room for it. -/
theorem openBucket_cases (limiter : FixedWindowRateLimiter) (key : String)
    (now limit windowMs : Number) :
    ∃ limiter', (∀ other, other ≠ key → KeepsLive limiter limiter' now other) ∧
      (limiter.openBucket key now limit windowMs = (limiter', .error capacityError) ∧
          limiter.buckets.get key = none ∧ limiter'.buckets.get key = none ∨
        limiter.openBucket key now limit windowMs =
            (limiter', .ok (currentBucket (limiter.buckets.get key) now limit windowMs)) ∧
          limiter'.buckets.get key =
            some (currentBucket (limiter.buckets.get key) now limit windowMs)) := by
  unfold openBucket
  simp only
  cases hget : limiter.buckets.get key with
  | some bucket =>
    simp only [currentBucket]
    -- a bucket that has ended or of another policy is begun again in its place
    by_cases hstale : isStale bucket now limit windowMs = true
    · simp only [hstale, if_true]
      refine ⟨_, fun other hother => ?_, .inr ⟨rfl, OrderedMap.get_set_self _ _ _⟩⟩
      unfold KeepsLive
      rw [OrderedMap.get_set_of_ne _ _ hother]
    · rw [Bool.not_eq_true] at hstale
      simp only [hstale, Bool.false_eq_true, if_false]
      exact ⟨limiter, fun _ _ => rfl, .inr ⟨rfl, hget⟩⟩
  | none =>
    -- a new key needs room, and making it removes only buckets that have ended
    have hroom := keepsLive_makeRoom limiter now
    have hgone := makeRoom_get_none now hget
    have hresult : (limiter.makeRoom now).2 = .error capacityError ∨
        (limiter.makeRoom now).2 = .ok () := by
      unfold makeRoom
      split
      · simp only
        split
        · exact .inl rfl
        · exact .inr rfl
      · exact .inr rfl
    generalize limiter.makeRoom now = made at hroom hgone hresult
    rcases made with ⟨swept, result⟩
    rcases hresult with rfl | rfl
    · exact ⟨swept, fun other _ => hroom other, .inl ⟨rfl, rfl, hgone⟩⟩
    · refine ⟨_, fun other hother => ?_, .inr ⟨rfl, OrderedMap.get_set_self _ _ _⟩⟩
      unfold KeepsLive
      rw [OrderedMap.get_set_of_ne _ _ hother]
      exact hroom other

theorem charge_eq (limiter : FixedWindowRateLimiter) {key : String} {bucket : RateLimitBucket}
    (hget : limiter.buckets.get key = some bucket) (now : Number) :
    limiter.charge key bucket now =
      ({ limiter with buckets := limiter.buckets.set key (chargedBucket bucket) },
        bucketResult bucket now) := by
  unfold chargedBucket bucketResult
  by_cases hfull : bucket.limit ≤ bucket.count
  · rw [if_pos hfull, if_pos hfull, charge_of_le hfull, OrderedMap.set_eq_self hget]
  · rw [if_neg hfull, if_neg hfull, charge_of_lt (not_le.mp hfull)]

/-- A call: it throws and no live bucket changes, or its bucket is charged. -/
theorem check_cases (limiter : FixedWindowRateLimiter) (now : Number) (routeId identity : String)
    (policy : RateLimitPolicy) :
    ∃ limiter', (∀ other, other ≠ bucketKey routeId identity →
        KeepsLive limiter limiter' now other) ∧
      ((∃ e, limiter.check now routeId identity policy = (limiter', .error e) ∧
          KeepsLive limiter limiter' now (bucketKey routeId identity) ∧
          (validateRateLimitInput routeId identity policy = .error e ∨
            e = capacityError ∨ now < 0)) ∨
        ∃ windowMs bucket, validateRateLimitInput routeId identity policy = .ok windowMs ∧
          0 ≤ now ∧ bucket = currentBucket
            (liveBucket (limiter.buckets.get (bucketKey routeId identity)) now) now
            policy.requests windowMs ∧
          limiter.check now routeId identity policy =
            (limiter', .ok (bucketResult bucket now)) ∧
          limiter'.buckets.get (bucketKey routeId identity) = some (chargedBucket bucket)) := by
  unfold check
  cases hvalid : validateRateLimitInput routeId identity policy with
  | error e =>
    exact ⟨limiter, fun _ _ => rfl, .inl ⟨e, rfl, rfl, .inl rfl⟩⟩
  | ok windowMs =>
    simp only
    by_cases hnegative : now < 0
    · rw [if_pos hnegative]
      exact ⟨limiter, fun _ _ => rfl, .inl ⟨_, rfl, rfl, .inr (.inr hnegative)⟩⟩
    · rw [if_neg hnegative]
      have hclean := keepsLive_cleanup limiter now
      rcases (limiter.cleanup now).openBucket_cases (bucketKey routeId identity) now
        policy.requests windowMs with ⟨opened, hothers, ⟨heq, hnone, hgone⟩ | ⟨heq, hget⟩⟩
      · rw [heq]
        refine ⟨opened, fun other hother => (hothers other hother).trans (hclean other),
          .inl ⟨_, rfl, ?_, .inr (.inl rfl)⟩⟩
        unfold KeepsLive
        rw [hgone, ← hclean, hnone]
      · have hcurrent : currentBucket ((limiter.cleanup now).buckets.get
              (bucketKey routeId identity)) now policy.requests windowMs =
            currentBucket (liveBucket (limiter.buckets.get (bucketKey routeId identity)) now) now
              policy.requests windowMs := by
          rw [← hclean, currentBucket_liveBucket]
        rw [heq]
        simp only [charge_eq opened hget]
        rw [hcurrent]
        refine ⟨{ opened with buckets := opened.buckets.set (bucketKey routeId identity) _ },
          fun other hother => ?_, .inr ⟨windowMs, _, rfl, not_lt.mp hnegative, rfl, rfl,
            OrderedMap.get_set_self _ _ _⟩⟩
        unfold KeepsLive
        rw [OrderedMap.get_set_of_ne _ _ hother]
        exact (hothers other hother).trans (hclean other)

end FixedWindowRateLimiter

/-! ## The distributed limiter -/

namespace RedisFixedWindowRateLimiter

variable {limiter : RedisFixedWindowRateLimiter} {server server' : RedisServer}

/-- The bucket that a hash stands for. -/
def bucketOf (hash : RedisHash) : RateLimitBucket where
  count := hash.count
  limit := hash.limit
  windowMs := hash.window
  resetAt := hash.start + hash.window

/-- The bucket of a key, if the key has not disappeared. -/
def liveHash (server : RedisServer) (key : String) (now : Number) : Option RateLimitBucket :=
  (server.hmget key now).map bucketOf

/-- Every stored hash is of an aligned window that has begun, and disappears at its end. -/
def Aligned (server : RedisServer) (t : Number) : Prop :=
  ∀ key entry, server.get key = some entry → 0 < entry.hash.window ∧ entry.hash.start ≤ t ∧
    (∃ k : ℤ, entry.hash.start = k * entry.hash.window) ∧
    entry.deadline = entry.hash.start + entry.hash.window

theorem Aligned.later {t now : Number} (h : Aligned server t) (ht : t ≤ now) :
    Aligned server now := by
  intro key entry hget
  have ⟨hpos, hbegun, haligned, hdeadline⟩ := h key entry hget
  exact ⟨hpos, hbegun.trans ht, haligned, hdeadline⟩

/-- The start of a live hash is that of the running window exactly when the windows agree. -/
theorem start_eq_iff {t now window start : Number} {k : ℤ} (hpos : 0 < window)
    (hstart : start = k * window) (hbegun : start ≤ t) (ht : t ≤ now)
    (hlive : now < start + window) : ⌊now / window⌋ * window = start := by
  have hfloor : ⌊now / window⌋ = k := by
    refine InWindow.unique hpos (inWindow_floor now hpos) ⟨?_, ?_⟩
    · rw [← hstart]
      exact hbegun.trans ht
    · calc now < start + window := hlive
        _ = (k + 1) * window := by rw [hstart]; ring
  rw [hfloor, hstart]

theorem hmget_of_live {key : String} {entry : RedisEntry} (hget : server.get key = some entry)
    {now : Number} (hlive : now < entry.deadline) : server.hmget key now = some entry.hash := by
  unfold RedisServer.hmget
  rw [hget, Option.filter_some, if_pos (decide_eq_true hlive)]
  rfl

theorem hmget_of_gone {key : String} {entry : RedisEntry} (hget : server.get key = some entry)
    {now : Number} (hgone : entry.deadline ≤ now) : server.hmget key now = none := by
  unfold RedisServer.hmget
  rw [hget, Option.filter_some, if_neg (by simpa using hgone)]
  rfl

theorem hmget_of_none {key : String} (hget : server.get key = none) (now : Number) :
    server.hmget key now = none := by
  unfold RedisServer.hmget
  rw [hget]
  rfl

/-- The bucket that the script uses. -/
theorem bucketOf_script {t now : Number} (h : Aligned server t) (ht : t ≤ now)
    (key : String) (limit window : Number) :
    bucketOf (if RedisServer.isOther (server.hmget key now) (⌊now / window⌋ * window) limit window
        then { start := ⌊now / window⌋ * window, count := 0, limit, window }
        else (server.hmget key now).getD
          { start := ⌊now / window⌋ * window, count := 0, limit, window }) =
      currentBucket (liveHash server key now) now limit window := by
  unfold liveHash
  cases hget : server.get key with
  | none =>
    rw [hmget_of_none hget]
    rfl
  | some entry =>
    have ⟨hpos, hbegun, ⟨k, hk⟩, hdeadline⟩ := h key entry hget
    by_cases hlive : now < entry.deadline
    · rw [hmget_of_live hget hlive]
      rw [hdeadline] at hlive
      -- a hash with the limit and the window of the call is of the running window
      have hfits : entry.hash.window = window → ⌊now / window⌋ * window = entry.hash.start := by
        intro heq
        rw [← heq]
        exact start_eq_iff hpos hk hbegun ht hlive
      have hsame : RedisServer.isOther (some entry.hash) (⌊now / window⌋ * window) limit window =
          isStale (bucketOf entry.hash) now limit window := by
        have hnotyet : ¬ entry.hash.start + entry.hash.window ≤ now := not_le.mpr hlive
        unfold RedisServer.isOther isStale bucketOf
        by_cases hwindow : entry.hash.window = window
        · rw [hwindow] at hnotyet
          simp [hfits hwindow, hnotyet, hwindow]
        · simp [hwindow]
      rw [hsame]
      simp only [Option.map_some, Option.getD_some, currentBucket]
      split <;> rfl
    · rw [hmget_of_gone hget (not_lt.mp hlive)]
      rfl

/-- A safe integer survives the way through a Lua number and the reply. -/
theorem parseInteger_luaInteger {value : Number} (h : isSafeInteger value = true) :
    limiter.parseInteger (luaInteger value) = some value := by
  have hfloor : ((⌊value⌋ : ℤ) : ℚ) = value := by
    rw [← num_of_isSafeInteger h, Int.floor_intCast]
  unfold parseInteger luaInteger
  simp only [hfloor]
  rw [Option.filter_some, if_pos h]

theorem isSafeInteger_of_le {z : ℤ} (hpos : 0 ≤ z) (hle : z ≤ maxSafeInteger) :
    isSafeInteger (z : ℚ) = true := by
  unfold isSafeInteger
  simp only [Rat.den_intCast, Rat.num_intCast, decide_true, Bool.true_and, Bool.and_eq_true]
  have hmax : 0 ≤ maxSafeInteger := by decide
  exact ⟨decide_eq_true (by omega), decide_eq_true hle⟩

/-- The end of the window that a call at `now` falls in. -/
def windowEnd (now window : Number) : Number := ⌊now / window⌋ * window + window

/-- What the script needs of its call: a whole time, a whole window, a request count that has
been checked, and a window that ends at a safe integer. -/
structure Whole (now limit window : Number) : Prop where
  time : ∃ n : ℕ, now = n
  duration : ∃ w : ℕ, window = w ∧ 0 < w
  requests : 0 < limit
  safe : isSafeInteger limit = true
  representable : windowEnd now window ≤ maxSafeInteger

theorem nowMs_nat (time : RedisTime) : ∃ n : ℕ, time.nowMs = n := by
  have hfloor : (0 : ℤ) ≤ ⌊(time.microseconds : Number) / 1000⌋ := by
    apply Int.floor_nonneg.mpr
    positivity
  refine ⟨time.seconds * 1000 + ⌊(time.microseconds : Number) / 1000⌋.toNat, ?_⟩
  have hcast : ((⌊(time.microseconds : Number) / 1000⌋.toNat : ℤ) : ℚ) =
      (⌊(time.microseconds : Number) / 1000⌋ : ℤ) := by
    rw [Int.toNat_of_nonneg hfloor]
  unfold RedisTime.nowMs
  rw [← hcast]
  push_cast
  ring

namespace Whole

variable {now limit window : Number}

theorem pos (h : Whole now limit window) : 0 < window := by
  have ⟨w, hw, hpos⟩ := h.duration
  rw [hw]
  exact_mod_cast hpos

theorem nonneg (h : Whole now limit window) : 0 ≤ now := by
  have ⟨n, hn⟩ := h.time
  rw [hn]
  exact Nat.cast_nonneg n

theorem begun (h : Whole now limit window) : ⌊now / window⌋ * window ≤ now :=
  (inWindow_floor now h.pos).1

/-- The window ends at a whole time after `now`. -/
theorem end_nat (h : Whole now limit window) :
    ∃ e : ℕ, windowEnd now window = e ∧ now + 1 ≤ windowEnd now window := by
  have ⟨n, hn⟩ := h.time
  have ⟨w, hw, _⟩ := h.duration
  have hlater : now < windowEnd now window := by
    have hin := (inWindow_floor now h.pos).2
    unfold windowEnd
    linarith
  have hint : windowEnd now window = ((⌊now / window⌋ * w + w : ℤ) : ℚ) := by
    unfold windowEnd
    rw [hw]
    push_cast
    ring
  have hlt : (n : ℤ) < ⌊now / window⌋ * w + w := by
    have hcast : (n : ℚ) < ((⌊now / window⌋ * w + w : ℤ) : ℚ) := by
      rw [← hint, ← hn]
      exact hlater
    exact_mod_cast hcast
  refine ⟨(⌊now / window⌋ * w + w).toNat, ?_, ?_⟩
  · rw [hint]
    have hcast : (((⌊now / window⌋ * w + w).toNat : ℤ) : ℚ) =
        ((⌊now / window⌋ * w + w : ℤ) : ℚ) := by
      rw [Int.toNat_of_nonneg (by omega)]
    rw [← hcast]
    push_cast
    rfl
  · rw [hint]
    have hle : (n : ℤ) + 1 ≤ ⌊now / window⌋ * w + w := hlt
    calc now + 1 = ((n + 1 : ℤ) : ℚ) := by rw [hn]; push_cast; rfl
      _ ≤ ((⌊now / window⌋ * w + w : ℤ) : ℚ) := Int.cast_le.mpr hle

end Whole

/-- The hash that the script uses is of the running window. -/
theorem usedHash_parts (existing : Option RedisHash) (start limit window : Number) :
    (if RedisServer.isOther existing start limit window then
        RedisHash.mk start 0 limit window
      else existing.getD (RedisHash.mk start 0 limit window)).start = start ∧
      (if RedisServer.isOther existing start limit window then
        RedisHash.mk start 0 limit window
      else existing.getD (RedisHash.mk start 0 limit window)).limit = limit ∧
      (if RedisServer.isOther existing start limit window then
        RedisHash.mk start 0 limit window
      else existing.getD (RedisHash.mk start 0 limit window)).window = window := by
  cases existing with
  | none => exact ⟨rfl, rfl, rfl⟩
  | some hash =>
    by_cases hother : RedisServer.isOther (some hash) start limit window = true
    · rw [if_pos hother]
      exact ⟨rfl, rfl, rfl⟩
    · rw [if_neg hother]
      simp only [RedisServer.isOther, Bool.or_eq_true, decide_eq_true_eq, not_or, not_not]
        at hother
      exact ⟨hother.1.1, hother.1.2, hother.2⟩

/-- The hash after a call. -/
def chargedHash (hash : RedisHash) : RedisHash :=
  if hash.count < hash.limit then { hash with count := hash.count + 1 } else hash

theorem bucketOf_chargedHash (hash : RedisHash) :
    bucketOf (chargedHash hash) = chargedBucket (bucketOf hash) := by
  unfold chargedHash chargedBucket bucketOf
  by_cases hfull : hash.limit ≤ hash.count
  · rw [if_neg (not_lt.mpr hfull), if_pos hfull]
  · rw [if_pos (not_le.mp hfull), if_neg hfull]

/-- A reply of safe integers that fit together is accepted. -/
theorem parseReply_ok {allowed : Bool} {limit remaining resetAt retryAfterSeconds : Number}
    (hlimit : isSafeInteger limit = true) (hpositive : 0 < limit)
    (hremaining : isSafeInteger remaining = true) (hnonneg : 0 ≤ remaining)
    (hle : remaining ≤ limit) (hresetAt : isSafeInteger resetAt = true) (hreset : 0 ≤ resetAt)
    (hretry : isSafeInteger retryAfterSeconds = true) (hwait : 0 < retryAfterSeconds) :
    limiter.parseReply (.array
      [luaInteger (if allowed then 1 else 0), luaInteger limit, luaInteger remaining,
        luaInteger resetAt, luaInteger retryAfterSeconds]) =
      .ok { allowed, limit, remaining, resetAt, retryAfterSeconds } := by
  have hbit : isSafeInteger (if allowed then 1 else 0) = true := by
    cases allowed <;> decide +kernel
  have hallowed : ((if allowed then 1 else 0 : Number) ≠ 0 ∧
      (if allowed then 1 else 0 : Number) ≠ 1) = False := by
    cases allowed <;> simp
  have hdecision : decide ((if allowed then 1 else 0 : Number) = 1) = allowed := by
    cases allowed <;> simp
  unfold parseReply
  simp only [List.map_cons, List.map_nil, parseInteger_luaInteger hbit,
    parseInteger_luaInteger hlimit, parseInteger_luaInteger hremaining,
    parseInteger_luaInteger hresetAt, parseInteger_luaInteger hretry]
  rw [if_neg, hdecision]
  rintro (h | h | h | h | h | h)
  · rwa [hallowed] at h
  · linarith
  · linarith
  · linarith
  · linarith
  · linarith

/-- The numbers of the reply for a hash are those of its bucket's result. -/
theorem parseReply_script (limiter : RedisFixedWindowRateLimiter) {now limit window : Number}
    (h : Whole now limit window) {hash : RedisHash} (hstart : hash.start = ⌊now / window⌋ * window)
    (hlimit : hash.limit = limit) (hwindow : hash.window = window) :
    limiter.parseReply (.array
      [luaInteger (if decide (hash.count < limit) = true then 1 else 0), luaInteger limit,
        luaInteger (max 0 (limit - (chargedHash hash).count)),
        luaInteger (windowEnd now window),
        luaInteger ((max 1 ⌈(windowEnd now window - now) / 1000⌉ : ℤ) : ℚ)]) =
      .ok (bucketResult (bucketOf hash) now) := by
  have ⟨e, he, hlater⟩ := h.end_nat
  have hnow := h.nonneg
  have hrequests := h.requests
  have hnum := num_of_isSafeInteger h.safe
  have hresetAt : (bucketOf hash).resetAt = windowEnd now window := by
    unfold bucketOf windowEnd
    rw [hstart, hwindow]
  have hbucketLimit : (bucketOf hash).limit = limit := hlimit
  have hesafe : (e : ℤ) ≤ maxSafeInteger := by
    have hrep := h.representable
    rw [he] at hrep
    exact_mod_cast hrep
  have hepos : (1 : ℤ) ≤ e := by
    rw [he] at hlater
    have hone : (1 : ℚ) ≤ e := by linarith
    exact_mod_cast hone
  -- the waiting time is between one second and the end of the window
  have hretry : max 1 ⌈(windowEnd now window - now) / 1000⌉ ≤ (e : ℤ) := by
    refine max_le hepos (Int.ceil_le.mpr ?_)
    rw [he] at hlater ⊢
    have hcast : ((e : ℤ) : ℚ) = (e : ℚ) := by push_cast; rfl
    rw [hcast, div_le_iff₀ (by norm_num)]
    have hepos' : (1 : ℚ) ≤ e := by exact_mod_cast hepos
    linarith
  have hone : 1 ≤ max 1 ⌈(windowEnd now window - now) / 1000⌉ := le_max_left _ _
  have hretrySafe := isSafeInteger_of_le (z := max 1 ⌈(windowEnd now window - now) / 1000⌉)
    (by omega) (hretry.trans hesafe)
  have hwait : (0 : ℚ) < ((max 1 ⌈(windowEnd now window - now) / 1000⌉ : ℤ) : ℚ) := by
    exact_mod_cast hone
  have hendSafe : isSafeInteger (windowEnd now window) = true := by
    rw [he]
    exact_mod_cast isSafeInteger_of_le (z := e) (by omega) hesafe
  have hendNonneg : 0 ≤ windowEnd now window := by linarith
  have hretryEq : ((max 1 ⌈(windowEnd now window - now) / 1000⌉ : ℤ) : ℚ) =
      retryAfterSeconds (bucketOf hash) now := by
    unfold retryAfterSeconds
    rw [hresetAt]
    push_cast
    rfl
  by_cases hfull : limit ≤ hash.count
  · have hcharged : chargedHash hash = hash := by
      unfold chargedHash
      rw [hlimit, if_neg (not_lt.mpr hfull)]
    have hzero : max 0 (limit - (hash.count : ℚ)) = 0 := max_eq_left (by linarith)
    have hresult : bucketResult (bucketOf hash) now = refusal (bucketOf hash) now := by
      unfold bucketResult
      rw [hbucketLimit, if_pos (show limit ≤ (bucketOf hash).count from hfull)]
    rw [hcharged, hzero, hresult, decide_eq_false (not_lt.mpr hfull),
      parseReply_ok h.safe hrequests (by decide +kernel) le_rfl hrequests.le hendSafe hendNonneg
        hretrySafe hwait]
    unfold refusal
    rw [hretryEq, hresetAt, hbucketLimit]
  · have hroom : (hash.count : ℚ) < limit := not_le.mp hfull
    have hcount : ((chargedHash hash).count : ℚ) = hash.count + 1 := by
      unfold chargedHash
      rw [hlimit, if_pos hroom]
      push_cast
      rfl
    have hleft : (hash.count : ℚ) + 1 ≤ limit := cast_succ_le_of_lt h.safe hroom
    have hmax : max 0 (limit - ((hash.count : ℚ) + 1)) = limit - (hash.count + 1) :=
      max_eq_right (by linarith)
    have hremaining : isSafeInteger (limit - ((hash.count : ℚ) + 1)) = true := by
      rw [← hnum] at hleft ⊢
      have hint : ((limit.num : ℚ) - ((hash.count : ℚ) + 1)) =
          ((limit.num - (hash.count + 1) : ℤ) : ℚ) := by push_cast; rfl
      have hleft' : (hash.count : ℤ) + 1 ≤ limit.num := by exact_mod_cast hleft
      have hsafe := h.safe
      simp only [isSafeInteger, Bool.and_eq_true, decide_eq_true_eq] at hsafe
      rw [hint]
      exact isSafeInteger_of_le (by omega) (by omega)
    have hcountNonneg : (0 : ℚ) ≤ hash.count := Nat.cast_nonneg _
    have hresult : bucketResult (bucketOf hash) now = admission (bucketOf hash) now := by
      unfold bucketResult
      rw [hbucketLimit, if_neg (show ¬ limit ≤ (bucketOf hash).count from hfull)]
    rw [hcount, hmax, hresult, decide_eq_true hroom,
      parseReply_ok h.safe hrequests hremaining (by linarith) (by linarith) hendSafe hendNonneg
        hretrySafe hwait]
    unfold admission
    rw [hretryEq, hresetAt, hbucketLimit]
    rfl

/-- What the script stores and answers for a call. -/
theorem fixedWindowScript_spec (limiter : RedisFixedWindowRateLimiter) {t : Number} {time : RedisTime} {limit window : Number}
    (h : Aligned server t) (ht : t ≤ time.nowMs) (hw : Whole time.nowMs limit window)
    (key : String) :
    ∃ hash, (server.fixedWindowScript time key limit window).1 =
        server.set key { hash, deadline := windowEnd time.nowMs window } ∧
      hash.start = ⌊time.nowMs / window⌋ * window ∧ hash.window = window ∧
      bucketOf hash =
        chargedBucket (currentBucket (liveHash server key time.nowMs) time.nowMs limit window) ∧
      limiter.parseReply (server.fixedWindowScript time key limit window).2 =
        .ok (bucketResult (currentBucket (liveHash server key time.nowMs) time.nowMs limit window)
          time.nowMs) := by
  have hbucket := bucketOf_script h ht key limit window
  have ⟨hstart, hlimit, hwindow⟩ := usedHash_parts (server.hmget key time.nowMs)
    (⌊time.nowMs / window⌋ * window) limit window
  have ⟨_, _, hlater⟩ := hw.end_nat
  have hdeadline : time.nowMs + max 1 (windowEnd time.nowMs window - time.nowMs) =
      windowEnd time.nowMs window := by
    rw [max_eq_right (by linarith)]
    ring
  unfold windowEnd at hdeadline
  unfold RedisServer.fixedWindowScript windowEnd
  simp only [sub_sub_cancel]
  rw [hdeadline]
  rw [← hbucket]
  generalize (if RedisServer.isOther (server.hmget key time.nowMs)
      (⌊time.nowMs / window⌋ * window) limit window then
      RedisHash.mk (⌊time.nowMs / window⌋ * window) 0 limit window
    else (server.hmget key time.nowMs).getD
      (RedisHash.mk (⌊time.nowMs / window⌋ * window) 0 limit window)) = hash
    at hstart hlimit hwindow
  have hcharged : (if decide ((hash.count : ℚ) < limit) = true then
      { hash with count := hash.count + 1 } else hash) = chargedHash hash := by
    unfold chargedHash
    rw [hlimit]
    simp only [decide_eq_true_eq]
  rw [hcharged]
  have hparts : (chargedHash hash).start = hash.start ∧
      (chargedHash hash).window = hash.window := by
    unfold chargedHash
    split <;> exact ⟨rfl, rfl⟩
  exact ⟨chargedHash hash, rfl, hparts.1.trans hstart, hparts.2.trans hwindow,
    bucketOf_chargedHash hash, parseReply_script limiter hw hstart hlimit hwindow⟩

/-- A call changes the entry of its key only, and its bucket as a limiter should. -/
theorem check_cases (limiter : RedisFixedWindowRateLimiter) {t : Number} {time : RedisTime} (h : Aligned server t)
    (ht : t ≤ time.nowMs) (routeId identity : String) (policy : RateLimitPolicy)
    (hw : ∀ window, validateRateLimitInput routeId identity policy = .ok window →
      isSafeInteger window = true → Whole time.nowMs policy.requests window) :
    ∃ server', Aligned server' time.nowMs ∧
      (∀ other, other ≠ limiter.redisKey routeId identity →
        server'.get other = server.get other) ∧
      ((∃ e, limiter.check server time routeId identity policy = (server', .error e) ∧
          server' = server ∧ (validateRateLimitInput routeId identity policy = .error e ∨
            ∃ window, validateRateLimitInput routeId identity policy = .ok window ∧
              isSafeInteger window = false)) ∨
        ∃ window bucket, validateRateLimitInput routeId identity policy = .ok window ∧
          bucket = currentBucket
            (liveHash server (limiter.redisKey routeId identity) time.nowMs) time.nowMs
            policy.requests window ∧
          limiter.check server time routeId identity policy =
            (server', .ok (bucketResult bucket time.nowMs)) ∧
          liveHash server' (limiter.redisKey routeId identity) time.nowMs =
            some (chargedBucket bucket)) := by
  unfold check
  cases hvalid : validateRateLimitInput routeId identity policy with
  | error e =>
    exact ⟨server, h.later ht, fun _ _ => rfl, .inl ⟨e, rfl, rfl, .inl rfl⟩⟩
  | ok window =>
    simp only
    by_cases hsafe : isSafeInteger window = true
    · have hw := hw window hvalid hsafe
      obtain ⟨hash, hset, hstart, hwindow, hbucket, hparse⟩ :=
        fixedWindowScript_spec limiter h ht hw (limiter.redisKey routeId identity)
      generalize server.fixedWindowScript time (limiter.redisKey routeId identity)
        policy.requests window = ran at hset hparse
      rcases ran with ⟨server', reply⟩
      simp only at hset hparse
      simp only [hsafe, Bool.not_true, Bool.false_eq_true, if_false, afterEval, hparse]
      obtain ⟨_, _, hlater⟩ := hw.end_nat
      rw [hset]
      refine ⟨_, ?_, fun other hother => OrderedMap.get_set_of_ne _ _ hother,
        .inr ⟨window, _, rfl, rfl, rfl, ?_⟩⟩
      · intro key entry hget
        rw [OrderedMap.get_set] at hget
        split at hget
        · rw [← Option.some.inj hget]
          refine ⟨by rw [hwindow]; exact hw.pos, by rw [hstart]; exact hw.begun,
            ⟨⌊time.nowMs / window⌋, by rw [hwindow]; exact hstart⟩, ?_⟩
          rw [hstart, hwindow]
          rfl
        · exact h.later ht key entry hget
      · unfold liveHash
        rw [hmget_of_live (OrderedMap.get_set_self _ _ _) (by simp only; linarith)]
        exact congrArg some hbucket
    · rw [Bool.not_eq_true] at hsafe
      simp only [hsafe, Bool.not_false, if_true]
      exact ⟨server, h.later ht, fun _ _ => rfl,
        .inl ⟨_, rfl, rfl, .inr ⟨window, rfl, hsafe⟩⟩⟩

/-! ## Refinement -/

/-- A call with the time that the server tells. -/
structure TimedCall where
  time : RedisTime
  routeId : String
  identity : String
  policy : RateLimitPolicy
deriving DecidableEq, Repr

/-- The call as the in-memory limiter sees it, with the same clock. -/
def TimedCall.local (c : TimedCall) : FixedWindowRateLimiter.Call where
  now := c.time.nowMs
  routeId := c.routeId
  identity := c.identity
  policy := c.policy

def TimedCall.identityBytes (c : TimedCall) : Bytes :=
  RedisFixedWindowRateLimiter.identityBytes c.routeId c.identity

/-- Run a sequence of calls; the server after it and the history, oldest entry first. -/
def checkAll (limiter : RedisFixedWindowRateLimiter) (server : RedisServer) :
    List TimedCall → RedisServer × List FixedWindowRateLimiter.Entry
  | [] => (server, [])
  | c :: cs =>
    let (server', result) := limiter.check server c.time c.routeId c.identity c.policy
    let (final, history) := checkAll limiter server' cs
    (final, (c.local, result) :: history)

/-- The server and the in-memory limiter hold the same live bucket for the keys of a call. -/
def Agrees (limiter : RedisFixedWindowRateLimiter) (server : RedisServer)
    (memory : FixedWindowRateLimiter) (t : Number) (c : TimedCall) : Prop :=
  liveHash server (limiter.redisKey c.routeId c.identity) t =
    liveBucket (memory.buckets.get (bucketKey c.routeId c.identity)) t

/-- The live bucket of a key of the server, by the end of its window. -/
theorem liveHash_eq {t now : Number} (h : Aligned server t) (key : String) :
    liveHash server key now =
      liveBucket ((server.get key).map fun entry => bucketOf entry.hash) now := by
  unfold liveHash
  cases hget : server.get key with
  | none =>
    rw [hmget_of_none hget]
    rfl
  | some entry =>
    have ⟨_, _, _, hdeadline⟩ := h key entry hget
    by_cases hlive : now < entry.deadline
    · rw [hmget_of_live hget hlive]
      rw [hdeadline] at hlive
      have hsome : liveBucket (some (bucketOf entry.hash)) now = some (bucketOf entry.hash) :=
        liveBucket_of_live hlive
      exact hsome.symm
    · rw [hmget_of_gone hget (not_lt.mp hlive)]
      rw [hdeadline, not_lt] at hlive
      have hnone : liveBucket (some (bucketOf entry.hash)) now = none :=
        liveBucket_of_expired hlive
      exact hnone.symm

theorem Agrees.later {memory : FixedWindowRateLimiter} {t now : Number} {c : TimedCall}
    (h : Agrees limiter server memory t c) (haligned : Aligned server t) (ht : t ≤ now) :
    Agrees limiter server memory now c := by
  unfold Agrees at h ⊢
  rw [liveHash_eq haligned] at h ⊢
  rw [← liveBucket_liveBucket ht, h, liveBucket_liveBucket ht]

/-- The bytes of a pair are those of its bucket key. -/
theorem identityBytes_eq (routeId identity : String) :
    identityBytes routeId identity = utf8 (bucketKey routeId identity) := by
  unfold identityBytes bucketKey
  rw [utf8_append, utf8_append]

/-- Without collisions of the digest, calls share a key of the server exactly when they share a
bucket key. -/
theorem redisKey_eq_iff {c d : TimedCall}
    (hcollision : limiter.sha256 c.identityBytes = limiter.sha256 d.identityBytes →
      c.identityBytes = d.identityBytes) :
    limiter.redisKey d.routeId d.identity = limiter.redisKey c.routeId c.identity ↔
      bucketKey d.routeId d.identity = bucketKey c.routeId c.identity := by
  unfold redisKey hashIdentity
  constructor
  · intro h
    have hhex : hex (limiter.sha256 d.identityBytes) = hex (limiter.sha256 c.identityBytes) := by
      have hlist := congrArg String.toList h
      simp only [String.toList_append, List.append_cancel_left_eq] at hlist
      exact String.toList_inj.mp hlist
    have hbytes := hcollision (hex_injective hhex).symm
    unfold TimedCall.identityBytes at hbytes
    rw [identityBytes_eq, identityBytes_eq] at hbytes
    exact (utf8_injective hbytes).symm
  · intro h
    rw [identityBytes_eq, identityBytes_eq, h]

/-- The windows of a call are whole and end below the largest safe integer. -/
def WholeWindow (c : TimedCall) : Prop :=
  ∀ window, parseDurationMilliseconds c.policy.window = .ok window →
    window.den = 1 ∧ windowEnd c.time.nowMs window ≤ maxSafeInteger

theorem parseDurationMilliseconds_le {value : String} {w : Number}
    (h : parseDurationMilliseconds value = .ok w) : w ≤ maxSafeInteger := by
  unfold parseDurationMilliseconds at h
  simp only at h
  split_ifs at h
  split at h
  · cases h
  · split_ifs at h with hbad
    cases h
    push Not at hbad
    exact hbad.2

/-- A whole window that has been parsed is a safe integer, and its call fits the script. -/
theorem WholeWindow.whole {c : TimedCall} (h : WholeWindow c) {window : Number}
    (hvalid : validateRateLimitInput c.routeId c.identity c.policy = .ok window) :
    isSafeInteger window = true ∧ Whole c.time.nowMs c.policy.requests window := by
  have ⟨hsafe, hpositive, hparse⟩ := validateRateLimitInput_ok hvalid
  have ⟨hden, hend⟩ := h window hparse
  have hpos := parseDurationMilliseconds_pos hparse
  have hle := parseDurationMilliseconds_le hparse
  have hnum : (window.num : ℚ) = window := Rat.coe_int_num_of_den_eq_one hden
  have hnumPos : 0 < window.num := Rat.num_pos.mpr hpos
  have hnumLe : window.num ≤ maxSafeInteger := by
    rw [← hnum] at hle
    exact_mod_cast hle
  refine ⟨?_, nowMs_nat c.time, ⟨window.num.toNat, ?_, by omega⟩, hpositive, hsafe, hend⟩
  · rw [← hnum]
    exact isSafeInteger_of_le hnumPos.le hnumLe
  · have hcast : ((window.num.toNat : ℤ) : ℚ) = window := by
      rw [Int.toNat_of_nonneg hnumPos.le, hnum]
    rw [← hcast]
    push_cast
    rfl

/-- One call: the limiters answer alike and still agree. -/
theorem check_agrees {memory : FixedWindowRateLimiter} {t : Number} {c : TimedCall}
    (haligned : Aligned server t) (ht : t ≤ c.time.nowMs) (hwhole : WholeWindow c)
    {calls : List TimedCall} (hc : c ∈ calls)
    (hcollision : ∀ c ∈ calls, ∀ d ∈ calls,
      limiter.sha256 c.identityBytes = limiter.sha256 d.identityBytes →
        c.identityBytes = d.identityBytes)
    (hagrees : ∀ d ∈ calls, Agrees limiter server memory t d)
    (hcapacity : (memory.check c.time.nowMs c.routeId c.identity c.policy).2 ≠
      .error capacityError) :
    (limiter.check server c.time c.routeId c.identity c.policy).2 =
        (memory.check c.time.nowMs c.routeId c.identity c.policy).2 ∧
      Aligned (limiter.check server c.time c.routeId c.identity c.policy).1 c.time.nowMs ∧
      ∀ d ∈ calls, Agrees limiter
        (limiter.check server c.time c.routeId c.identity c.policy).1
        (memory.check c.time.nowMs c.routeId c.identity c.policy).1 c.time.nowMs d := by
  have hnow := (hagrees c hc).later haligned ht
  have ⟨server', haligned', hothers, hserver⟩ := limiter.check_cases haligned ht
    c.routeId c.identity c.policy fun window hvalid _ => (hwhole.whole hvalid).2
  have ⟨memory', hkeeps, hmemory⟩ :=
    memory.check_cases c.time.nowMs c.routeId c.identity c.policy
  -- the other keys are kept on both sides
  have hrest : ∀ d ∈ calls, bucketKey d.routeId d.identity ≠ bucketKey c.routeId c.identity →
      Agrees limiter server' memory' c.time.nowMs d := by
    intro d hd hne
    have hkey := (redisKey_eq_iff (hcollision c hc d hd)).not.mpr hne
    have hd' := (hagrees d hd).later haligned ht
    unfold Agrees at hd' ⊢
    rw [hkeeps _ hne, ← hd', liveHash_eq haligned', liveHash_eq haligned, hothers _ hkey]
  have hself : ∀ d ∈ calls, bucketKey d.routeId d.identity = bucketKey c.routeId c.identity →
      Agrees limiter server' memory' c.time.nowMs c →
      Agrees limiter server' memory' c.time.nowMs d := by
    intro d hd heq hagree
    unfold Agrees
    rw [(redisKey_eq_iff (hcollision c hc d hd)).mpr heq, heq]
    exact hagree
  have hall : Agrees limiter server' memory' c.time.nowMs c →
      ∀ d ∈ calls, Agrees limiter server' memory' c.time.nowMs d := by
    intro hagree d hd
    by_cases heq : bucketKey d.routeId d.identity = bucketKey c.routeId c.identity
    · exact hself d hd heq hagree
    · exact hrest d hd heq
  rcases hmemory with ⟨e, hm, hkept, hreason⟩ | ⟨window, bucket, hvalid, _, hbucket, hm, hget⟩
  · rw [hm] at hcapacity
    have hinvalid : validateRateLimitInput c.routeId c.identity c.policy = .error e := by
      rcases hreason with h | h | h
      · exact h
      · exact absurd (congrArg Except.error h) hcapacity
      · have ⟨n, hn⟩ := nowMs_nat c.time
        rw [hn] at h
        exact absurd h (not_lt.mpr (Nat.cast_nonneg n))
    rcases hserver with ⟨e', hs, heq, hreason'⟩ | ⟨window, _, hvalid, _⟩
    · have hsame : e' = e := by
        rcases hreason' with h | ⟨window, h, _⟩
        · exact Except.error.inj (h.symm.trans hinvalid)
        · rw [hinvalid] at h
          cases h
      rw [hs, hm, hsame]
      refine ⟨rfl, haligned', hall ?_⟩
      unfold Agrees at hnow ⊢
      rw [hkept, heq]
      exact hnow
    · rw [hinvalid] at hvalid
      cases hvalid
  · rcases hserver with ⟨e', _, _, hreason'⟩ | ⟨window', bucket', hvalid', hbucket', hs, hlive⟩
    · rcases hreason' with h | ⟨window', h, hunsafe⟩
      · rw [hvalid] at h
        cases h
      · rw [(hwhole.whole h).1] at hunsafe
        cases hunsafe
    · have hsame : window' = window := Except.ok.inj (hvalid'.symm.trans hvalid)
      have hbuckets : bucket' = bucket := by
        rw [hbucket', hbucket, hsame]
        unfold Agrees at hnow
        rw [hnow]
      rw [hs, hm, hbuckets]
      refine ⟨rfl, haligned', hall ?_⟩
      unfold Agrees
      rw [hlive, hget, hbuckets]
      -- the bucket in use ends after the call
      have hend : c.time.nowMs < (chargedBucket bucket).resetAt := by
        have hcharged := hlive
        rw [hbuckets, liveHash_eq haligned'] at hcharged
        unfold liveBucket at hcharged
        simpa using (Option.filter_eq_some_iff.mp hcharged).2
      exact (liveBucket_of_live hend).symm

/-- From agreeing states the histories are equal. -/
theorem checkAll_agrees (calls : List TimedCall)
    (hcollision : ∀ c ∈ calls, ∀ d ∈ calls,
      limiter.sha256 c.identityBytes = limiter.sha256 d.identityBytes →
        c.identityBytes = d.identityBytes) :
    ∀ {rest : List TimedCall} {server : RedisServer} {memory : FixedWindowRateLimiter}
      {t : Number}, (∀ c ∈ rest, c ∈ calls) → Aligned server t →
      (∀ d ∈ calls, Agrees limiter server memory t d) → (∀ c ∈ rest, t ≤ c.time.nowMs) →
      rest.Pairwise (·.time.nowMs ≤ ·.time.nowMs) → (∀ c ∈ rest, WholeWindow c) →
      (∀ e ∈ (memory.checkAll (rest.map TimedCall.local)).2, e.2 ≠ .error capacityError) →
      (limiter.checkAll server rest).2 = (memory.checkAll (rest.map TimedCall.local)).2 := by
  intro rest
  induction rest with
  | nil =>
    intro _ _ _ _ _ _ _ _ _ _
    rfl
  | cons c cs ih =>
    intro server memory t hmem haligned hagrees ht hsorted hwhole hcapacity
    obtain ⟨hhead, htail⟩ := List.pairwise_cons.mp hsorted
    simp only [List.map_cons, FixedWindowRateLimiter.checkAll] at hcapacity ⊢
    obtain ⟨hfirst, hrest⟩ := List.forall_mem_cons.mp hcapacity
    obtain ⟨hresult, haligned', hagrees'⟩ := check_agrees haligned (ht c List.mem_cons_self)
      (hwhole c List.mem_cons_self) (hmem c List.mem_cons_self) hcollision hagrees hfirst
    have hih := ih (fun d hd => hmem d (List.mem_cons_of_mem c hd)) haligned' hagrees' hhead htail
      (fun d hd => hwhole d (List.mem_cons_of_mem c hd)) hrest
    simp only [checkAll]
    exact congrArg₂ List.cons (Prod.ext rfl hresult) hih

/-- **The distributed limiter refines the in-memory one.** With one clock that never goes
backwards, whole windows, no collision of the digest and an in-memory limiter that never runs
out of room, the limiters return the same for every call of a run, whatever the keys and the
policies of the calls. -/
theorem distributed_refines_local (maxBuckets : Number) {memory : FixedWindowRateLimiter}
    (hnew : FixedWindowRateLimiter.create maxBuckets = .ok memory)
    (limiter : RedisFixedWindowRateLimiter) (calls : List TimedCall)
    (hclock : calls.Pairwise (·.time.nowMs ≤ ·.time.nowMs))
    (hwhole : ∀ c ∈ calls, WholeWindow c)
    (hcollision : ∀ c ∈ calls, ∀ d ∈ calls,
      limiter.sha256 c.identityBytes = limiter.sha256 d.identityBytes →
        c.identityBytes = d.identityBytes)
    (hcapacity : ∀ e ∈ (memory.checkAll (calls.map TimedCall.local)).2,
      e.2 ≠ .error capacityError) :
    (limiter.checkAll .empty calls).2 = (memory.checkAll (calls.map TimedCall.local)).2 := by
  have hempty : memory.buckets = .empty := by
    unfold FixedWindowRateLimiter.create at hnew
    split at hnew <;> cases hnew
    rfl
  refine checkAll_agrees calls hcollision (t := 0) (fun _ h => h) (fun key entry h => ?_)
    (fun d _ => ?_) (fun c _ => ?_) hclock hwhole hcapacity
  · cases h
  · unfold Agrees
    rw [hempty]
    rfl
  · have ⟨n, hn⟩ := nowMs_nat c.time
    rw [hn]
    exact Nat.cast_nonneg n

namespace Orders

def firstDigest : Bytes :=
  [134, 38, 18, 154, 20, 235, 132, 173, 31, 10, 227, 126, 134, 174, 122, 162, 137, 66, 219, 148,
   204, 230, 222, 62, 183, 189, 53, 6, 250, 46, 242, 220]

def secondDigest : Bytes :=
  [138, 46, 178, 70, 108, 139, 251, 49, 248, 84, 8, 128, 107, 200, 193, 47, 160, 5, 252, 142, 76,
   90, 34, 86, 78, 132, 15, 126, 196, 45, 123, 72]

/-- A limiter whose digest knows the pairs of two clients. -/
def distributed : RedisFixedWindowRateLimiter where
  keyPrefix := "shieldward:rate-limit:v1"
  sha256 bytes :=
    if bytes = identityBytes "orders" "10.0.0.1" then firstDigest
    else if bytes = identityBytes "orders" "10.0.0.2" then secondDigest
    else []
  numberOfText _ := none

def call (seconds milliseconds : ℕ) (identity : String) (requests : Number) : TimedCall where
  time := { seconds, microseconds := milliseconds * 1000 }
  routeId := "orders"
  identity := identity
  policy := { requests, window := "1s", key := .clientIp }

/-- Two clients, the limit of one of them raised and lowered again within a second. -/
def calls : List TimedCall :=
  [call 1 200 "10.0.0.1" 1, call 1 300 "10.0.0.1" 1, call 1 500 "10.0.0.1" 2,
    call 1 700 "10.0.0.2" 1, call 1 900 "10.0.0.1" 1, call 2 0 "10.0.0.1" 1]

end Orders

/-- Both limiters let the calls of the example through, but for the second. -/
theorem distributed_refines_local_orders :
    (Orders.distributed.checkAll .empty Orders.calls).2 =
      ((FixedWindowRateLimiter.mk 2 .empty 0).checkAll (Orders.calls.map TimedCall.local)).2 := by
  have hwindow : parseDurationMilliseconds "1s" = .ok 1000 := by decide +kernel
  have hwhole : ∀ c ∈ Orders.calls, c.policy.window = "1s" ∧
      windowEnd c.time.nowMs 1000 ≤ maxSafeInteger := by decide +kernel
  refine distributed_refines_local 2 rfl Orders.distributed Orders.calls
    (by decide +kernel) (fun c hc window hparse => ?_) (by decide +kernel) (by decide +kernel)
  have ⟨hpolicy, hend⟩ := hwhole c hc
  rw [hpolicy, hwindow] at hparse
  rw [← Except.ok.inj hparse]
  exact ⟨rfl, hend⟩

end RedisFixedWindowRateLimiter
end ShieldWard.Edge
