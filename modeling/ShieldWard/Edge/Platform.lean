import ShieldWard.Lib.Ecma
import ShieldWard.Lib.Bytes

/-!
# The platform that the edge runs on

What `edge/src` uses of Node and of the web platform. The URL parser, the regular expression
engine, letter case and cryptography are operations of a `Platform`, so a statement about the
edge holds for every behaviour of them unless it names one.
-/

namespace ShieldWard.Edge

open Ecma Bytes

/-! ## URLs -/

/-- A parsed URL. The parser percent-encodes every control character and every character that
is not ASCII in a path, so a path is printable. -/
structure Url where
  /-- The scheme with its colon. -/
  protocol : String
  username : String
  password : String
  hostname : String
  port : String
  pathname : String
  search : String
  hash : String
  pathname_printable : ∀ c ∈ pathname.toList, 0x20 ≤ c.toNat ∧ c.toNat ≤ 0x7e

/-- The characters of a pathname, tested one by one. -/
theorem printable_of_all {pathname : String}
    (h : (pathname.toList.all fun c => 0x20 ≤ c.toNat && c.toNat ≤ 0x7e) = true) :
    ∀ c ∈ pathname.toList, 0x20 ≤ c.toNat ∧ c.toNat ≤ 0x7e := by
  intro c hc
  have hboth := List.all_eq_true.mp h c hc
  simpa only [Bool.and_eq_true, decide_eq_true_eq] using hboth

theorem printable_root : ∀ c ∈ "/".toList, 0x20 ≤ c.toNat ∧ c.toNat ≤ 0x7e :=
  printable_of_all (by decide)

namespace Url

def host (url : Url) : String :=
  if url.port = "" then url.hostname else url.hostname ++ ":" ++ url.port

/-- The schemes whose origin is a tuple origin. -/
def hasTupleOrigin (url : Url) : Bool :=
  url.protocol ∈ ["http:", "https:", "ws:", "wss:", "ftp:"]

def origin (url : Url) : String :=
  if url.hasTupleOrigin then url.protocol ++ "//" ++ url.host else "null"

end Url

/-! ## Regular expressions -/

/-- Where a group of a match lies: its first code unit and the one after its last. -/
abbrev Span := ℕ × ℕ

/-- The regular expressions of the platform. The edge passes them no flag but `i`, so they
keep no position between calls. -/
structure RegExpApi where
  RegExp : Type
  /-- `new RegExp(pattern, flags)`; `none` when the constructor throws. -/
  construct : (pattern flags : String) → Option RegExp
  /-- `regex.exec(text)`: the whole match and the groups, `none` for `undefined`. -/
  exec : RegExp → String → Option (List (Option Span))

namespace RegExpApi

/-- `regex.test(text)`. -/
def test (R : RegExpApi) (regex : R.RegExp) (text : String) : Bool := (R.exec regex text).isSome

end RegExpApi

/-! ## Cryptography -/

/-- What the edge uses of `crypto.subtle`; `none` stands for a rejected promise. -/
structure WebCrypto where
  CryptoKey : Type
  importSpki : Bytes → Option CryptoKey
  exportRaw : CryptoKey → Option Bytes
  sha256 : Bytes → Bytes
  /-- `verify` with the key, the signature and the signed data. -/
  verify : CryptoKey → Bytes → Bytes → Option Bool

structure Platform where
  parseUrl : String → Option Url
  /-- What the setter of `pathname` makes of a text, on a URL with a host. -/
  pathnameOf : String → { path : String // ∀ c ∈ path.toList, 0x20 ≤ c.toNat ∧ c.toNat ≤ 0x7e }
  /-- What the setter of `search` makes of a text. -/
  searchOf : String → String
  /-- `new TextDecoder().decode(bytes)`. -/
  decodeText : Bytes → String
  regExp : RegExpApi
  crypto : WebCrypto
  toUpperCase : String → String
  /-- The text of a number, `Number.prototype.toString`. -/
  numberText : Number → String

/-! ## Comparing texts -/

/-- The comparison of two texts by their bytes, without an early exit. -/
def constantTimeEqual (left right : String) : Bool :=
  let leftBytes := utf8 left
  let rightBytes := utf8 right
  if leftBytes.length ≠ rightBytes.length then false
  else
    let difference := (leftBytes.zip rightBytes).foldl (fun d p => d ||| (p.1 ^^^ p.2)) 0
    difference = 0

/-- The accumulated difference is zero exactly when every pair of bytes is equal. -/
theorem foldl_difference_eq_zero (pairs : List (UInt8 × UInt8)) (d : UInt8) :
    pairs.foldl (fun d p => d ||| (p.1 ^^^ p.2)) d = 0 ↔ d = 0 ∧ ∀ p ∈ pairs, p.1 = p.2 := by
  induction pairs generalizing d with
  | nil => simp
  | cons p pairs ih =>
    rw [List.foldl_cons, ih, UInt8.or_eq_zero_iff, UInt8.xor_eq_zero_iff, List.forall_mem_cons,
      and_assoc]

theorem constantTimeEqual_iff {left right : String} :
    constantTimeEqual left right = true ↔ left = right := by
  unfold constantTimeEqual
  constructor
  · intro h
    simp only at h
    split at h
    · cases h
    · next hlen =>
      have hlength : (utf8 left).length = (utf8 right).length := by omega
      have hpairs := ((foldl_difference_eq_zero _ _).mp (of_decide_eq_true h)).2
      apply utf8_injective
      apply List.ext_getElem hlength
      intro i hi hi'
      have hmem : ((utf8 left)[i], (utf8 right)[i]) ∈
          (utf8 left).zip (utf8 right) := by
        rw [← List.getElem_zip (h := by simpa using ⟨hi, hi'⟩)]
        exact List.getElem_mem _
      exact hpairs _ hmem
  · intro h
    rw [h, if_neg (by omega)]
    apply decide_eq_true
    apply (foldl_difference_eq_zero _ _).mpr
    refine ⟨rfl, fun p hp => ?_⟩
    rcases List.mem_iff_getElem.mp hp with ⟨i, hi, rfl⟩
    rw [List.getElem_zip]

end ShieldWard.Edge
