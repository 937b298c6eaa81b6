import ShieldWard.Edge.Bundle
import ShieldWard.Lib.OrderedMap

/-!
# The in-memory rate limiter

`edge/src/rate-limit.ts`: window durations, and the fixed-window limiter with its periodic
sweep and its capacity sweep. A call of `check` reads the clock once; the reading is an
argument. Clock readings are rational, so the branch for a non-finite reading is empty and
only that for a negative one is left.
-/

namespace ShieldWard.Edge

open Ecma

structure RateLimiterError where
  message : String
deriving DecidableEq, Repr

/-! ## Durations -/

/-- The characters of `\d`. -/
def isDigit (c : Char) : Bool := '0' ≤ c && c ≤ '9'

/-- The number that a digit string denotes. -/
def digitsValue (ds : List Char) : ℕ := ds.foldl (fun n c => 10 * n + (c.toNat - '0'.toNat)) 0

/-- `Number(amountText)` for the digits before and after the point. -/
def amountValue (whole fraction : List Char) : Number :=
  digitsValue whole + digitsValue fraction / 10 ^ fraction.length

/-- The amount of one part: `\d+(?:\.\d*)?` or `\.\d+`, and what follows it. No unit starts
with a digit or a point, so the pattern never gives back a character of the amount. -/
def scanAmount (cs : List Char) : Option (Number × List Char) :=
  let whole := cs.takeWhile isDigit
  match cs.dropWhile isDigit with
  | '.' :: rest =>
    let fraction := rest.takeWhile isDigit
    if whole = [] ∧ fraction = [] then none
    else some (amountValue whole fraction, rest.dropWhile isDigit)
  | rest => if whole = [] then none else some (amountValue whole [], rest)

/-- The unit of one part, tried in the order of the pattern `ns|us|µs|μs|ms|s|m|h`, with
`durationUnitMilliseconds` of it. -/
def scanUnit : List Char → Option (Number × List Char)
  | 'n' :: 's' :: rest => some (1 / 1000000, rest)
  | 'u' :: 's' :: rest => some (1 / 1000, rest)
  | 'µ' :: 's' :: rest => some (1 / 1000, rest)
  | 'μ' :: 's' :: rest => some (1 / 1000, rest)
  | 'm' :: 's' :: rest => some (1, rest)
  | 's' :: rest => some (1000, rest)
  | 'm' :: rest => some (60000, rest)
  | 'h' :: rest => some (3600000, rest)
  | _ => none

/-- The loop over the parts. Every part consumes a character, so `fuel` may be the number of
characters. -/
def sumParts : ℕ → Number → List Char → Option Number
  | _, totalMs, [] => some totalMs
  | 0, _, _ :: _ => none
  | fuel + 1, totalMs, cs => do
    let (amount, rest) ← scanAmount cs
    let (unit, rest) ← scanUnit rest
    sumParts fuel (totalMs + amount * unit) rest

def parseDurationMilliseconds (value : String) : Except RateLimiterError Number :=
  let failure := ⟨"rate-limit window must be a positive duration"⟩
  if value = "" then .error failure
  else
    match sumParts value.toList.length 0 value.toList with
    | none => .error failure
    | some totalMs =>
      if totalMs ≤ 0 ∨ (maxSafeInteger : Number) < totalMs then .error failure
      else .ok totalMs

def validateRateLimitInput (routeId identity : String) (policy : RateLimitPolicy) :
    Except RateLimiterError Number :=
  if isBlank routeId then .error ⟨"route ID must not be empty"⟩
  else if isBlank identity || 512 < Ecma.length identity then
    .error ⟨"rate-limit identity must contain 1 to 512 characters"⟩
  else if !isSafeInteger policy.requests || policy.requests ≤ 0 then
    .error ⟨"rate-limit request count must be a positive integer"⟩
  else parseDurationMilliseconds policy.window

/-! ## The limiter -/

structure RateLimitBucket where
  count : ℕ
  limit : Number
  windowMs : Number
  resetAt : Number
deriving DecidableEq, Repr

structure RateLimitResult where
  allowed : Bool
  limit : Number
  remaining : Number
  resetAt : Number
  retryAfterSeconds : Number
deriving DecidableEq, Repr

def CLEANUP_INTERVAL_MS : Number := 60000

structure FixedWindowRateLimiter where
  maxBuckets : Number
  buckets : OrderedMap String RateLimitBucket
  nextCleanupAt : Number

namespace FixedWindowRateLimiter

def create (maxBuckets : Number) : Except RateLimiterError FixedWindowRateLimiter :=
  if !isSafeInteger maxBuckets || maxBuckets ≤ 0 then
    .error ⟨"maximum bucket count must be a positive integer"⟩
  else .ok { maxBuckets, buckets := .empty, nextCleanupAt := 0 }

def removeExpired (limiter : FixedWindowRateLimiter) (now : Number) : FixedWindowRateLimiter :=
  { limiter with buckets := limiter.buckets.filter fun e => !(e.2.resetAt ≤ now) }

/-- The sweep at the head of `check`. -/
def cleanup (limiter : FixedWindowRateLimiter) (now : Number) : FixedWindowRateLimiter :=
  if limiter.nextCleanupAt ≤ now then
    { limiter.removeExpired now with nextCleanupAt := now + CLEANUP_INTERVAL_MS }
  else limiter

/-- The key of a bucket: route and identity joined by a NUL. -/
def bucketKey (routeId identity : String) : String := routeId ++ "\x00" ++ identity

/-- The condition under which a stored bucket is not used for the call. -/
def isStale (bucket : RateLimitBucket) (now limit windowMs : Number) : Bool :=
  bucket.resetAt ≤ now || bucket.limit ≠ limit || bucket.windowMs ≠ windowMs

/-- The bucket that a call at `now` starts. -/
def freshBucket (now limit windowMs : Number) : RateLimitBucket where
  count := 0
  limit := limit
  windowMs := windowMs
  resetAt := ⌊now / windowMs⌋ * windowMs + windowMs

/-- The capacity sweep, made only for a key without a bucket. -/
def makeRoom (limiter : FixedWindowRateLimiter) (now : Number) :
    FixedWindowRateLimiter × Except RateLimiterError Unit :=
  if limiter.maxBuckets ≤ limiter.buckets.size then
    let swept := limiter.removeExpired now
    if swept.maxBuckets ≤ swept.buckets.size then
      (swept, .error ⟨"rate limiter capacity is exhausted"⟩)
    else (swept, .ok ())
  else (limiter, .ok ())

/-- Find the bucket of a call, replacing a stale one and making room for a new one. -/
def openBucket (limiter : FixedWindowRateLimiter) (key : String) (now limit windowMs : Number) :
    FixedWindowRateLimiter × Except RateLimiterError RateLimitBucket :=
  let fresh := freshBucket now limit windowMs
  match limiter.buckets.get key with
  | some bucket =>
    if isStale bucket now limit windowMs then
      ({ limiter with buckets := limiter.buckets.set key fresh }, .ok fresh)
    else (limiter, .ok bucket)
  | none =>
    match limiter.makeRoom now with
    | (limiter, .error e) => (limiter, .error e)
    | (limiter, .ok ()) =>
      ({ limiter with buckets := limiter.buckets.set key fresh }, .ok fresh)

/-- `Math.max(1, Math.ceil((resetAt - now) / 1000))`. -/
def retryAfterSeconds (bucket : RateLimitBucket) (now : Number) : Number :=
  max 1 ⌈(bucket.resetAt - now) / 1000⌉

/-- The end of `check`: refuse, or count the call. -/
def charge (limiter : FixedWindowRateLimiter) (key : String) (bucket : RateLimitBucket)
    (now : Number) : FixedWindowRateLimiter × RateLimitResult :=
  if bucket.limit ≤ bucket.count then
    (limiter,
      { allowed := false, limit := bucket.limit, remaining := 0, resetAt := bucket.resetAt,
        retryAfterSeconds := retryAfterSeconds bucket now })
  else
    let bucket := { bucket with count := bucket.count + 1 }
    ({ limiter with buckets := limiter.buckets.set key bucket },
      { allowed := true, limit := bucket.limit, remaining := bucket.limit - bucket.count,
        resetAt := bucket.resetAt, retryAfterSeconds := retryAfterSeconds bucket now })

def check (limiter : FixedWindowRateLimiter) (now : Number) (routeId identity : String)
    (policy : RateLimitPolicy) :
    FixedWindowRateLimiter × Except RateLimiterError RateLimitResult :=
  match validateRateLimitInput routeId identity policy with
  | .error e => (limiter, .error e)
  | .ok windowMs =>
    if now < 0 then
      (limiter, .error ⟨"rate-limiter clock returned an invalid time"⟩)
    else
      let key := bucketKey routeId identity
      match (limiter.cleanup now).openBucket key now policy.requests windowMs with
      | (limiter, .error e) => (limiter, .error e)
      | (limiter, .ok bucket) =>
        let (limiter, result) := limiter.charge key bucket now
        (limiter, .ok result)

end FixedWindowRateLimiter
end ShieldWard.Edge
