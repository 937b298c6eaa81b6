import ShieldWard.Edge.RateLimitSwitching

/-!
# Capacity of the in-memory limiter

The limiter holds at most `maxBuckets` buckets and refuses a new key only when that many
other keys are live. Expired buckets linger until a sweep, so what decides is not the number
of stored buckets but `liveOthers`, which no sweep changes; after the capacity sweep the two
are the same number.
-/

namespace ShieldWard.Edge
namespace FixedWindowRateLimiter

open Ecma

variable {limiter : FixedWindowRateLimiter} {key : String} {now : Number}

/-! ## Live buckets of other keys -/

/-- The number of keys other than `key` that hold a live bucket. -/
def liveOthers (limiter : FixedWindowRateLimiter) (key : String) (now : Number) : ℕ :=
  limiter.buckets.entries.countP fun e => e.1 ≠ key && now < e.2.resetAt

theorem liveOthers_le_size (limiter : FixedWindowRateLimiter) (key : String) (now : Number) :
    limiter.liveOthers key now ≤ limiter.buckets.size := List.countP_le_length

/-- A key with a bucket of its own takes a place from the others. -/
theorem liveOthers_lt_size {bucket : RateLimitBucket}
    (h : limiter.buckets.get key = some bucket) (now : Number) :
    limiter.liveOthers key now < limiter.buckets.size := by
  apply lt_of_le_of_ne (limiter.liveOthers_le_size key now)
  intro hall
  have hother := List.countP_eq_length.mp hall _ (OrderedMap.get_eq_some_iff.mp h)
  simp at hother

theorem liveOthers_removeExpired (limiter : FixedWindowRateLimiter) (key : String)
    (now : Number) :
    (limiter.removeExpired now).liveOthers key now = limiter.liveOthers key now := by
  unfold liveOthers removeExpired
  show List.countP _ (List.filter _ limiter.buckets.entries) = _
  rw [List.countP_filter]
  apply List.countP_congr
  intro e _
  -- a live bucket survives the sweep
  by_cases hexpired : e.2.resetAt ≤ now
  · simp [hexpired, not_lt.mpr hexpired]
  · simp [hexpired, not_le.mp hexpired]

theorem liveOthers_cleanup (limiter : FixedWindowRateLimiter) (key : String) (now : Number) :
    (limiter.cleanup now).liveOthers key now = limiter.liveOthers key now := by
  unfold cleanup
  split
  · exact limiter.liveOthers_removeExpired key now
  · rfl

/-- After a sweep every stored bucket is live. -/
theorem size_removeExpired (now : Number) (h : limiter.buckets.get key = none) :
    (limiter.removeExpired now).buckets.size = limiter.liveOthers key now := by
  rw [← liveOthers_removeExpired, liveOthers, OrderedMap.size, eq_comm, List.countP_eq_length]
  intro e he
  obtain ⟨hmem, hlive⟩ := OrderedMap.mem_filter.mp he
  have hne : e.1 ≠ key := by
    intro heq
    exact OrderedMap.get_eq_none_iff.mp h e.2 (heq ▸ hmem)
  have hlive : now < e.2.resetAt := by simpa using hlive
  simp [hne, hlive]

/-! ## The bound on the storage -/

/-- No more buckets than the maximum, which is a whole number. -/
structure Bounded (limiter : FixedWindowRateLimiter) : Prop where
  whole : isSafeInteger limiter.maxBuckets = true
  within : (limiter.buckets.size : Number) ≤ limiter.maxBuckets

theorem Bounded.removeExpired (h : Bounded limiter) (now : Number) :
    Bounded (limiter.removeExpired now) := by
  refine ⟨h.whole, le_trans ?_ h.within⟩
  exact_mod_cast OrderedMap.size_filter_le limiter.buckets _

theorem Bounded.cleanup (h : Bounded limiter) (now : Number) : Bounded (limiter.cleanup now) := by
  unfold FixedWindowRateLimiter.cleanup
  split
  · exact ⟨(h.removeExpired now).whole, (h.removeExpired now).within⟩
  · exact h

/-- Replacing a bucket takes no room. -/
theorem Bounded.replace (h : Bounded limiter) {old : RateLimitBucket}
    (hget : limiter.buckets.get key = some old) (bucket : RateLimitBucket) :
    Bounded { limiter with buckets := limiter.buckets.set key bucket } := by
  refine ⟨h.whole, ?_⟩
  show ((limiter.buckets.set key bucket).size : Number) ≤ limiter.maxBuckets
  rw [OrderedMap.size_set, if_pos (OrderedMap.has_iff.mpr ⟨old, hget⟩)]
  exact h.within

/-- Adding a bucket where there is room for one. -/
theorem Bounded.add (h : Bounded limiter)
    (hroom : (limiter.buckets.size : Number) < limiter.maxBuckets) (key : String)
    (bucket : RateLimitBucket) :
    Bounded { limiter with buckets := limiter.buckets.set key bucket } := by
  refine ⟨h.whole, ?_⟩
  show ((limiter.buckets.set key bucket).size : Number) ≤ limiter.maxBuckets
  rw [OrderedMap.size_set]
  split
  · exact h.within
  · push_cast
    exact cast_succ_le_of_lt h.whole hroom

/-- Making room for a key without a bucket fails when the other keys fill the storage, and
otherwise leaves a place. -/
theorem makeRoom_cases (h : Bounded limiter) (hnone : limiter.buckets.get key = none)
    (now : Number) :
    ∃ swept, Bounded swept ∧
      (limiter.makeRoom now = (swept, .error capacityError) ∧
          limiter.maxBuckets ≤ limiter.liveOthers key now ∨
        limiter.makeRoom now = (swept, .ok ()) ∧
          (limiter.liveOthers key now : Number) < limiter.maxBuckets ∧
          (swept.buckets.size : Number) < swept.maxBuckets) := by
  unfold makeRoom
  by_cases hfull : limiter.maxBuckets ≤ limiter.buckets.size
  · rw [if_pos hfull]
    refine ⟨limiter.removeExpired now, h.removeExpired now, ?_⟩
    have hsize := size_removeExpired now hnone
    by_cases hstill : limiter.maxBuckets ≤ ((limiter.removeExpired now).buckets.size : Number)
    · left
      exact ⟨if_pos hstill, hsize ▸ hstill⟩
    · right
      exact ⟨if_neg hstill, hsize ▸ not_le.mp hstill, not_le.mp hstill⟩
  · rw [if_neg hfull]
    have hroom := not_le.mp hfull
    refine ⟨limiter, h, .inr ⟨rfl, lt_of_le_of_lt ?_ hroom, hroom⟩⟩
    exact_mod_cast limiter.liveOthers_le_size key now

/-- Opening a bucket keeps the bound, and fails exactly when the other keys fill the
storage. -/
theorem openBucket_bounded (h : Bounded limiter) (key : String) (now limit windowMs : Number) :
    Bounded (limiter.openBucket key now limit windowMs).1 ∧
      ((limiter.openBucket key now limit windowMs).2 = .error capacityError ↔
        limiter.maxBuckets ≤ limiter.liveOthers key now) := by
  unfold openBucket
  simp only
  cases hget : limiter.buckets.get key with
  | some bucket =>
    -- the key's own bucket takes a place, so the others cannot fill the storage
    have hfree : ¬limiter.maxBuckets ≤ (limiter.liveOthers key now : Number) := by
      rw [not_le]
      refine lt_of_lt_of_le ?_ h.within
      exact_mod_cast liveOthers_lt_size hget now
    simp only
    split
    · exact ⟨h.replace hget _, by simp [hfree]⟩
    · exact ⟨h, by simp [hfree]⟩
  | none =>
    obtain ⟨swept, hswept, hcases⟩ := makeRoom_cases h hget now
    rcases hcases with ⟨heq, hfilled⟩ | ⟨heq, hfree, hroom⟩
    · simp only [heq]
      exact ⟨hswept, by simp [hfilled]⟩
    · simp only [heq]
      exact ⟨hswept.add hroom _ _, by simp [hfree]⟩

/-! ## Calls -/

/-- A call whose input passes validation, at a time that the clock may return. -/
structure Valid (c : Call) : Prop where
  input : ∃ windowMs, validateRateLimitInput c.routeId c.identity c.policy = .ok windowMs
  time : 0 ≤ c.now

/-- The call made on a limiter. -/
abbrev make (limiter : FixedWindowRateLimiter) (c : Call) :
    FixedWindowRateLimiter × Except RateLimiterError RateLimitResult :=
  limiter.check c.now c.routeId c.identity c.policy

theorem maxBuckets_cleanup (limiter : FixedWindowRateLimiter) (now : Number) :
    (limiter.cleanup now).maxBuckets = limiter.maxBuckets := by
  unfold cleanup
  split <;> rfl

theorem maxBuckets_openBucket (limiter : FixedWindowRateLimiter) (key : String)
    (now limit windowMs : Number) :
    (limiter.openBucket key now limit windowMs).1.maxBuckets = limiter.maxBuckets := by
  have hroom : (limiter.makeRoom now).1.maxBuckets = limiter.maxBuckets := by
    rcases makeRoom_fst limiter now with heq | heq <;> rw [heq]
    rfl
  unfold openBucket
  simp only
  split
  · split <;> rfl
  · split
    · next heq => rw [← hroom, heq]
    · next heq => rw [← hroom, heq]

/-- A valid call keeps the bound and the maximum, and is refused for capacity exactly when
the other keys fill the storage. -/
theorem check_bounded (h : Bounded limiter) {c : Call} (hvalid : Valid c) :
    Bounded (limiter.make c).1 ∧ (limiter.make c).1.maxBuckets = limiter.maxBuckets ∧
      ((limiter.make c).2 = .error capacityError ↔
        limiter.maxBuckets ≤ limiter.liveOthers (keyOf c) c.now) := by
  have ⟨windowMs, hwindow⟩ := hvalid.input
  have hopen := openBucket_bounded (h.cleanup c.now) (keyOf c) c.now c.policy.requests windowMs
  have hmax := maxBuckets_openBucket (limiter.cleanup c.now) (keyOf c) c.now c.policy.requests
    windowMs
  rw [maxBuckets_cleanup] at hmax
  rw [maxBuckets_cleanup, liveOthers_cleanup] at hopen
  have ⟨opened, _, hcases⟩ := (limiter.cleanup c.now).openBucket_cases (keyOf c) c.now
    c.policy.requests windowMs
  unfold make check
  simp only [hwindow, if_neg (not_lt.mpr hvalid.time)]
  rcases hcases with ⟨heq, _, _⟩ | ⟨heq, hget⟩
  · rw [heq] at hopen hmax
    rw [← keyOf, heq]
    simp only
    exact ⟨hopen.1, hmax, by simpa using hopen.2⟩
  · rw [heq] at hopen hmax
    rw [← keyOf, heq]
    simp only [charge_eq opened hget]
    refine ⟨hopen.1.replace hget _, hmax, ?_⟩
    rw [← hopen.2]
    simp

/-- A call that is not valid changes nothing. -/
theorem check_of_not_valid (limiter : FixedWindowRateLimiter) {c : Call} (h : ¬Valid c) :
    (limiter.make c).1 = limiter := by
  unfold make check
  cases hinput : validateRateLimitInput c.routeId c.identity c.policy with
  | error e => rfl
  | ok windowMs =>
    have hnegative : c.now < 0 := by
      by_contra htime
      exact h ⟨⟨windowMs, hinput⟩, not_lt.mp htime⟩
    simp only [if_pos hnegative]

theorem Bounded.make (h : Bounded limiter) (c : Call) :
    Bounded (limiter.make c).1 ∧ (limiter.make c).1.maxBuckets = limiter.maxBuckets := by
  by_cases hvalid : Valid c
  · exact ⟨(check_bounded h hvalid).1, (check_bounded h hvalid).2.1⟩
  · rw [check_of_not_valid limiter hvalid]
    exact ⟨h, rfl⟩

/-- Every call of a run keeps the bound and the maximum. -/
theorem Bounded.checkAll (calls : List Call) :
    ∀ {limiter : FixedWindowRateLimiter}, Bounded limiter →
      Bounded (limiter.checkAll calls).1 ∧
        (limiter.checkAll calls).1.maxBuckets = limiter.maxBuckets := by
  induction calls with
  | nil => exact fun h => ⟨h, rfl⟩
  | cons c cs ih =>
    intro limiter h
    have hstep := h.make c
    have hrest := ih hstep.1
    exact ⟨hrest.1, hrest.2.trans hstep.2⟩

theorem Bounded.create {maxBuckets : Number}
    (h : FixedWindowRateLimiter.create maxBuckets = .ok limiter) :
    Bounded limiter ∧ limiter.maxBuckets = maxBuckets := by
  unfold FixedWindowRateLimiter.create at h
  split_ifs at h with hinvalid
  cases h
  simp only [Bool.or_eq_true, Bool.not_eq_true', decide_eq_true_eq, not_or, Bool.not_eq_false,
    not_le] at hinvalid
  exact ⟨⟨hinvalid.1, hinvalid.2.le⟩, rfl⟩

/-- The live buckets are the same before and after. -/
theorem KeepsLive.get_iff {limiter' : FixedWindowRateLimiter}
    (h : KeepsLive limiter limiter' now key) {bucket : RateLimitBucket} (hlive : now < bucket.resetAt) :
    limiter'.buckets.get key = some bucket ↔ limiter.buckets.get key = some bucket := by
  have hlive' : ∀ stored : Option RateLimitBucket,
      stored = some bucket ↔ liveBucket stored now = some bucket := by
    intro stored
    rw [liveBucket, Option.filter_eq_some_iff]
    simp [hlive]
  rw [hlive', hlive' (limiter.buckets.get key), h]

/-- A call that throws, for whatever reason, keeps every live bucket. -/
theorem check_error_keeps (limiter : FixedWindowRateLimiter) (c : Call) {e : RateLimiterError}
    (h : (limiter.make c).2 = .error e) (key : String) :
    KeepsLive limiter (limiter.make c).1 c.now key := by
  have ⟨limiter', hothers, hcases⟩ := limiter.check_cases c.now c.routeId c.identity c.policy
  rcases hcases with ⟨_, heq, hself, _⟩ | ⟨_, _, _, _, _, heq, _⟩
  · unfold make
    rw [heq]
    by_cases hkey : key = keyOf c
    · exact hkey ▸ hself
    · exact hothers key hkey
  · rw [make, heq] at h
    cases h

/-! ## Runs -/

/-- What a call does to a limiter with at most `maxBuckets` buckets. -/
structure RespectsCapacity (maxBuckets : Number) (limiter : FixedWindowRateLimiter) (c : Call) :
    Prop where
  before : (limiter.buckets.size : Number) ≤ maxBuckets
  after : ((limiter.make c).1.buckets.size : Number) ≤ maxBuckets
  refused : (limiter.make c).2 = .error capacityError ↔
    maxBuckets ≤ limiter.liveOthers (keyOf c) c.now
  kept : ∀ e, (limiter.make c).2 = .error e → ∀ key bucket, c.now < bucket.resetAt →
    ((limiter.make c).1.buckets.get key = some bucket ↔ limiter.buckets.get key = some bucket)
  served : ∀ bucket, limiter.buckets.get (keyOf c) = some bucket → c.now < bucket.resetAt →
    (limiter.make c).2 ≠ .error capacityError

theorem Bounded.respectsCapacity (h : Bounded limiter) {c : Call} (hvalid : Valid c) :
    RespectsCapacity limiter.maxBuckets limiter c := by
  have ⟨hafter, hmax, hrefused⟩ := check_bounded h hvalid
  refine ⟨h.within, hmax ▸ hafter.within, hrefused,
    fun e he key bucket hlive => (check_error_keeps limiter c he key).get_iff hlive, ?_⟩
  intro bucket hget _ herror
  have hothers : (limiter.liveOthers (keyOf c) c.now : Number) < limiter.buckets.size := by
    exact_mod_cast liveOthers_lt_size hget c.now
  exact absurd ((hrefused.mp herror).trans_lt hothers) (not_lt.mpr h.within)

/-- **Capacity.** In every run of a new limiter, over any keys and policies, every valid call
finds and leaves at most `maxBuckets` buckets, is refused for capacity if and only if that many
other keys hold live buckets, and keeps every live bucket when it throws. The clock may even
go backwards, and the calls before it need not be valid. -/
theorem capacity_respected (maxBuckets : Number) (limiter : FixedWindowRateLimiter)
    (hnew : create maxBuckets = .ok limiter) (calls : List Call) (c : Call) (hvalid : Valid c) :
    RespectsCapacity maxBuckets (limiter.checkAll calls).1 c := by
  have ⟨hbounded, hmax⟩ := Bounded.create hnew
  have ⟨hrun, hrunMax⟩ := hbounded.checkAll calls
  have hrespects := hrun.respectsCapacity hvalid
  rwa [hrunMax, hmax] at hrespects

/-- Two clients fill a limiter for two buckets, and a third is refused. -/
theorem capacity_respected_third_client :
    let policy : RateLimitPolicy := ⟨1, "1m", .clientIp⟩
    RespectsCapacity 2 ((FixedWindowRateLimiter.mk 2 .empty 0).checkAll
      [⟨0, "orders-read", "client-a", policy⟩, ⟨0, "orders-read", "client-b", policy⟩]).1
      ⟨0, "orders-read", "client-c", policy⟩ :=
  capacity_respected 2 ⟨2, .empty, 0⟩ rfl _ _ ⟨⟨60000, by decide +kernel⟩, le_refl _⟩

end FixedWindowRateLimiter
end ShieldWard.Edge
