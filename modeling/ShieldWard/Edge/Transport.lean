import ShieldWard.Edge.Platform

/-!
# Secure transport

`edge/src/transport.ts`. A host name is ASCII once a URL is parsed, so lower case is that of
ASCII letters.
-/

namespace ShieldWard.Edge

open Ecma

/-- A decimal octet without leading zeros. -/
def isIPv4Octet (cs : List Char) : Bool :=
  cs.all (·.isDigit) && cs ≠ [] && (cs.head? ≠ some '0' || cs = ['0']) &&
    cs.foldl (fun n c => 10 * n + (c.toNat - '0'.toNat)) 0 ≤ 255

/-- `isIP(address) === 4`. -/
def isIPv4 (cs : List Char) : Bool :=
  let parts := cs.splitOn '.'
  parts.length = 4 && parts.all isIPv4Octet

/-- `text.replace(/^\[|\]$/g, '')`. -/
def stripBrackets (cs : List Char) : List Char :=
  let cs := if cs.head? = some '[' then cs.tail else cs
  if cs.getLast? = some ']' then cs.dropLast else cs

/-- `text.replace(/\.$/, '')`. -/
def stripFinalDot (cs : List Char) : List Char :=
  if cs.getLast? = some '.' then cs.dropLast else cs

def mappedPrefix : List Char := "::ffff:".toList

/-- `isLoopbackHostname` on the characters of the name. Every call of itself is on a shorter
name, so `fuel` may be the length of the first one. -/
def isLoopbackCharacters : ℕ → List Char → Bool
  | 0, _ => false
  | fuel + 1, hostname =>
    let normalized := stripFinalDot <| stripBrackets <|
      (trim (String.ofList hostname)).toList.map (·.toLower)
    if mappedPrefix.isPrefixOf normalized then
      isLoopbackCharacters fuel (normalized.drop mappedPrefix.length)
    else
      normalized = "localhost".toList ||
        (isIPv4 normalized && "127.".toList.isPrefixOf normalized) ||
        normalized = "::1".toList

def isLoopbackHostname (hostname : String) : Bool :=
  isLoopbackCharacters (hostname.toList.length + 1) hostname.toList

def usesSecureTransport (url : Url) : Bool :=
  url.protocol = "https:" || (url.protocol = "http:" && isLoopbackHostname url.hostname)

end ShieldWard.Edge
