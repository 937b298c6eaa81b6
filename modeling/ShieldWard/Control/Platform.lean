import ShieldWard.Lib.Bytes
import ShieldWard.Lib.Ecma

/-!
# The platform that the control plane runs on

What `internal` uses of Go's standard library and of the canonicalizer. URL parsing, address
parsing, the regular expression compiler, the tables of Unicode and cryptography are
operations of a `GoPlatform`; quoting and durations are definitions.
-/

namespace ShieldWard.Control

/-- What the validator reads of a `url.URL`. -/
structure GoUrl where
  scheme : String
  host : String
  /-- The host without its port and without brackets. -/
  hostname : String
  /-- Whether the URL has a user part, possibly an empty one. -/
  hasUser : Bool
deriving DecidableEq, Repr

structure GoPlatform where
  /-- `url.Parse`. -/
  parseUrl : String → Option GoUrl
  /-- `net.ParseIP` gives an address, and it is a loopback address. -/
  isLoopbackAddress : String → Bool
  /-- `regexp.Compile`, with the text of its error. -/
  compileRegexp : String → Except String Unit
  /-- `unicode.IsPrint` beyond ASCII. -/
  isPrint : Char → Bool
  /-- `strings.ToUpper`. -/
  toUpper : String → String
  sha256 : Bytes → Bytes
  /-- `ed25519.Sign` with a private key of 64 bytes. -/
  sign : Bytes → Bytes → Bytes
  /-- The text of a number in the canonical form. -/
  numberText : Ecma.Number → String

/-! ## Quoted text -/

/-- The characters that `strconv.Quote` leaves alone. -/
def isPrint (G : GoPlatform) (c : Char) : Bool :=
  if c.toNat < 0x80 then 0x20 ≤ c.toNat && c.toNat ≤ 0x7e else G.isPrint c

/-- A number in hexadecimal with a fixed number of digits. -/
def hexDigits : ℕ → ℕ → List Char
  | 0, _ => []
  | width + 1, n => hexDigits width (n / 16) ++ [Bytes.hexDigit (n % 16)]

/-- What follows the backslash for a character that is not printable. -/
def escapeTail (n : ℕ) : List Char :=
  if n = 7 then ['a']
  else if n = 8 then ['b']
  else if n = 12 then ['f']
  else if n = 10 then ['n']
  else if n = 13 then ['r']
  else if n = 9 then ['t']
  else if n = 11 then ['v']
  else if n < 32 ∨ n = 0x7f then 'x' :: hexDigits 2 n
  else if n < 0x10000 then 'u' :: hexDigits 4 n
  else 'U' :: hexDigits 8 n

def quoteChar (G : GoPlatform) (c : Char) : List Char :=
  if c = '"' ∨ c = '\\' then ['\\', c]
  else if isPrint G c then [c]
  else '\\' :: escapeTail c.toNat

/-- A character is copied, or a backslash starts its escape. -/
theorem quoteChar_eq_of_not_mem {G : GoPlatform} {c : Char} (h : '\\' ∉ quoteChar G c) :
    quoteChar G c = [c] := by
  unfold quoteChar at h ⊢
  split_ifs at h ⊢ with h₁ h₂
  · exact absurd (List.mem_cons_self ..) h
  · rfl
  · exact absurd (List.mem_cons_self ..) h

/-- `fmt.Sprintf("%q", text)`. -/
def quote (G : GoPlatform) (text : String) : String :=
  String.ofList ('"' :: text.toList.flatMap (quoteChar G) ++ ['"'])

/-- A quoted text that is a plain text between quotes quotes that text. -/
theorem eq_of_quote_eq {G : GoPlatform} {text plain : String} (hplain : '\\' ∉ plain.toList)
    (h : quote G text = "\"" ++ plain ++ "\"") : text = plain := by
  have hlist : text.toList.flatMap (quoteChar G) = plain.toList := by
    have htoList := congrArg String.toList h
    simpa [quote] using htoList
  rw [← hlist] at hplain
  have hself : ∀ cs : List Char, '\\' ∉ cs.flatMap (quoteChar G) →
      cs.flatMap (quoteChar G) = cs := by
    intro cs
    induction cs with
    | nil => intro _; rfl
    | cons c cs ih =>
      intro hcs
      rw [List.flatMap_cons, List.mem_append, not_or] at hcs
      rw [List.flatMap_cons, quoteChar_eq_of_not_mem hcs.1, ih hcs.2]
      rfl
  apply String.toList_inj.mp
  rw [← hlist, hself _ hplain]

/-! ## Durations -/

def digitsValue (ds : List Char) : ℕ := ds.foldl (fun n c => 10 * n + (c.toNat - '0'.toNat)) 0

/-- `unitMap`: nanoseconds of a unit. -/
def unitNanoseconds (unit : List Char) : Option ℕ :=
  List.lookup (String.ofList unit)
    [("ns", 1), ("us", 1000), ("µs", 1000), ("μs", 1000), ("ms", 1000000), ("s", 1000000000),
      ("m", 60000000000), ("h", 3600000000000)]

/-- The loop of `time.ParseDuration`: the sum of the parts, in exact arithmetic, each rounded
down to a whole number of nanoseconds. Every part consumes a character, so `fuel` may be the
number of characters. -/
def sumDuration : ℕ → ℕ → List Char → Option ℕ
  | _, total, [] => some total
  | 0, _, _ :: _ => none
  | fuel + 1, total, text =>
    let whole := text.takeWhile (·.isDigit)
    let afterWhole := text.dropWhile (·.isDigit)
    let hasPoint := afterWhole.head? = some '.'
    let fraction := if hasPoint then afterWhole.tail.takeWhile (·.isDigit) else []
    let rest := if hasPoint then afterWhole.tail.dropWhile (·.isDigit) else afterWhole
    let isUnit := fun c : Char => !(c.isDigit || c = '.')
    if whole = [] ∧ fraction = [] then none
    else
      match unitNanoseconds (rest.takeWhile isUnit) with
      | none => none
      | some unit =>
        let value := digitsValue whole * unit +
          digitsValue fraction * unit / 10 ^ fraction.length
        if 2 ^ 63 < value ∨ 2 ^ 63 < total + value then none
        else sumDuration fuel (total + value) (rest.dropWhile isUnit)

/-- `time.ParseDuration`, in nanoseconds. -/
def parseDuration (text : String) : Option ℤ :=
  let unsigned := fun cs : List Char =>
    if cs = ['0'] then some 0 else if cs = [] then none else sumDuration cs.length 0 cs
  match text.toList with
  | '-' :: cs => (unsigned cs).map fun d => -(d : ℤ)
  | '+' :: cs => (unsigned cs).bind fun d => if 2 ^ 63 ≤ d then none else some (d : ℤ)
  | cs => (unsigned cs).bind fun d => if 2 ^ 63 ≤ d then none else some (d : ℤ)

end ShieldWard.Control
