import ShieldWard.Control.Store
import Mathlib.Data.List.DropRight

/-!
# The bundle endpoint

`GET /v1/bundle` of `internal/server/handler.go`: the status and the headers that the edge
reads, and the body. An event of `GET /v1/events` is its name and its payload.
-/

namespace ShieldWard.Control

structure HttpAnswer where
  status : ℕ
  contentType : String
  etag : Option String
  body : Option Json

/-- `unicode.IsSpace`. -/
def isSpace (c : Char) : Bool :=
  let n := c.toNat
  (0x09 ≤ n && n ≤ 0x0d) || n = 0x20 || n = 0x85 || n = 0xa0 || n = 0x1680 ||
    (0x2000 ≤ n && n ≤ 0x200a) || n = 0x2028 || n = 0x2029 || n = 0x202f || n = 0x205f ||
    n = 0x3000

/-- `strings.TrimSpace`. -/
def trimSpace (text : List Char) : List Char := (text.dropWhile isSpace).rdropWhile isSpace

def etagMatches (headerValue currentETag : String) : Bool :=
  (headerValue.toList.splitOn ',').any fun candidate =>
    let candidate := trimSpace candidate
    candidate = ['*'] || candidate = currentETag.toList

/-- The handler; an absent header reads as the empty string. -/
def bundle (current : Option Snapshot) (ifNoneMatch : Option String) : HttpAnswer :=
  match current with
  | none =>
    { status := 503, contentType := "application/json", etag := none,
      body := some (.object [("error", .string "configuration_unavailable")]) }
  | some snapshot =>
    if etagMatches (ifNoneMatch.getD "") snapshot.etag then
      { status := 304, contentType := "application/json", etag := some snapshot.etag,
        body := none }
    else
      { status := 200, contentType := "application/json", etag := some snapshot.etag,
        body := some snapshot.body }

/-- The event of `writeBundleEvent`: its name and its payload. -/
def bundleEvent (version : String) : String × Json :=
  ("bundle", .object [("version", .string version)])

/-- A text without commas and without white space at its ends is its only candidate. -/
theorem etagMatches_iff {headerValue currentETag : String} (hcomma : ',' ∉ headerValue.toList)
    (htrim : trimSpace headerValue.toList = headerValue.toList) :
    etagMatches headerValue currentETag = true ↔
      headerValue = "*" ∨ headerValue = currentETag := by
  have hsplit : headerValue.toList.splitOn ',' = [headerValue.toList] :=
    List.splitOn_eq_singleton hcomma
  unfold etagMatches
  rw [hsplit]
  simp only [List.any_cons, List.any_nil, Bool.or_false, htrim, Bool.or_eq_true,
    decide_eq_true_eq]
  rw [String.toList_inj]
  refine or_congr_left ?_
  constructor
  · intro h
    exact String.toList_inj.mp h
  · intro h
    rw [h]
    rfl

/-- The handler answers 304 only to a request with a matching header. -/
theorem bundle_notModified {current : Option Snapshot} {ifNoneMatch : Option String}
    (h : (bundle current ifNoneMatch).status = 304) :
    ∃ snapshot, current = some snapshot ∧
      etagMatches (ifNoneMatch.getD "") snapshot.etag = true := by
  unfold bundle at h
  split at h
  · cases h
  · next snapshot =>
    split at h
    · next hmatch => exact ⟨snapshot, rfl, hmatch⟩
    · cases h

/-- A successful answer carries the entity tag of the snapshot that was current. -/
theorem bundle_success {current : Option Snapshot} {ifNoneMatch : Option String}
    (h : 200 ≤ (bundle current ifNoneMatch).status ∧ (bundle current ifNoneMatch).status ≤ 299) :
    ∃ snapshot, current = some snapshot ∧
      (bundle current ifNoneMatch).etag = some snapshot.etag := by
  unfold bundle at h ⊢
  split at h
  · simp at h
  · next snapshot =>
    split at h
    · simp at h
    · next hmatch => exact ⟨snapshot, rfl, by rw [if_neg hmatch]⟩

end ShieldWard.Control
