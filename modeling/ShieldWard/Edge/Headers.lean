import Mathlib.Data.List.Basic
import Mathlib.Data.String.Basic

/-!
# Header lists

The operations of the web platform's `Headers` that edge code uses. Names are compared without
regard to the case of ASCII letters; a name may have several values.
-/

namespace ShieldWard.Edge

/-- A header list: names and values in order. -/
abbrev Headers := List (String × String)

namespace Headers

def byteLowercase (name : String) : String := String.ofList (name.toList.map Char.toLower)

def hasName (name : String) (header : String × String) : Bool :=
  byteLowercase header.1 = byteLowercase name

def values (headers : Headers) (name : String) : List String :=
  (headers.filter (hasName name)).map (·.2)

/-- The values of a name as one text. Several `cookie` fields are one list of pairs. -/
def combine (name : String) (values : List String) : String :=
  String.intercalate (if byteLowercase name = "cookie" then "; " else ", ") values

theorem combine_of_ne {name : String} (h : byteLowercase name ≠ "cookie") (values : List String) :
    combine name values = String.intercalate ", " values := by
  unfold combine
  rw [if_neg h]

/-- `headers.get(name)`; `none` stands for `null`. -/
def get (headers : Headers) (name : String) : Option String :=
  match headers.values name with
  | [] => none
  | values => some (combine name values)

def has (headers : Headers) (name : String) : Bool := headers.any (hasName name)

def delete (headers : Headers) (name : String) : Headers :=
  headers.filter fun header => !hasName name header

/-- `headers.set(name, value)`: the first header of the name takes the value, the others go. -/
def set (headers : Headers) (name value : String) : Headers :=
  match headers.span fun header => !hasName name header with
  | (before, []) => before ++ [(name, value)]
  | (before, header :: after) => before ++ (header.1, value) :: delete after name

/-- What `headers.forEach` goes through: names in order, the values of a name joined, save
those of `set-cookie`. -/
def sortAndCombine (headers : Headers) : List (String × String) :=
  let names := ((headers.map fun header => byteLowercase header.1).dedup).mergeSort (· ≤ ·)
  names.flatMap fun name =>
    if name = "set-cookie" then (headers.values name).map (name, ·)
    else [(name, combine name (headers.values name))]

end Headers
end ShieldWard.Edge
