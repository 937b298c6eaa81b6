import ShieldWard.Lib.Canonical

/-!
# Reading JSON text

`JSON.parse` on the UTF-16 code units of a text: the grammar of JSON, with the last of
repeated fields in the place of the first. Numbers are exact; a surrogate without its partner,
which no string of this development holds, becomes U+FFFD. Each nested call comes after a unit
that has been read, so that as many nested calls as the text has units are enough.
-/

namespace Ecma

/-- A text in memory: its UTF-16 code units. -/
abbrev Text := List ℕ

def isHighSurrogate (unit : ℕ) : Bool := 0xd800 ≤ unit && unit < 0xdc00

def isLowSurrogate (unit : ℕ) : Bool := 0xdc00 ≤ unit && unit < 0xe000

/-- The character of a unit that is not half of a pair. -/
def unitChar (unit : ℕ) : Char :=
  if isHighSurrogate unit || isLowSurrogate unit then Char.ofNat 0xfffd else Char.ofNat unit

/-- The characters that code units encode. -/
def decodeUtf16 : Text → List Char
  | [] => []
  | [unit] => [unitChar unit]
  | unit :: next :: rest =>
    if isHighSurrogate unit && isLowSurrogate next then
      Char.ofNat (0x10000 + (unit - 0xd800) * 0x400 + (next - 0xdc00)) :: decodeUtf16 rest
    else unitChar unit :: decodeUtf16 (next :: rest)

def ofUtf16 (units : Text) : String := String.ofList (decodeUtf16 units)

theorem decodeUtf16_codeUnits (c : Char) (rest : Text) :
    decodeUtf16 (codeUnits c ++ rest) = c :: decodeUtf16 rest := by
  have hc : c.toNat < 0xd800 ∨ 0xdfff < c.toNat ∧ c.toNat < 0x110000 := c.valid
  simp only [codeUnits]
  split
  · next hplane =>
    have hhigh : isHighSurrogate c.toNat = false := by simp [isHighSurrogate]; omega
    have hlow : isLowSurrogate c.toNat = false := by simp [isLowSurrogate]; omega
    have hchar : unitChar c.toNat = c := by simp [unitChar, hhigh, hlow]
    cases rest with
    | nil =>
      show [unitChar c.toNat] = [c]
      rw [hchar]
    | cons next rest =>
      rw [List.singleton_append, decodeUtf16, hhigh, hchar]
      rfl
  · next hplane =>
    have hhigh : isHighSurrogate (0xd800 + (c.toNat - 0x10000) / 0x400) = true := by
      simp [isHighSurrogate]; omega
    have hlow : isLowSurrogate (0xdc00 + (c.toNat - 0x10000) % 0x400) = true := by
      simp [isLowSurrogate]; omega
    have hnat : 0x10000 + (0xd800 + (c.toNat - 0x10000) / 0x400 - 0xd800) * 0x400 +
        (0xdc00 + (c.toNat - 0x10000) % 0x400 - 0xdc00) = c.toNat := by omega
    rw [List.cons_append, List.singleton_append, decodeUtf16, hhigh, hlow, hnat,
      Char.ofNat_toNat]
    rfl

theorem ofUtf16_utf16 (s : String) : ofUtf16 (utf16 s) = s := by
  rw [ofUtf16, utf16, ← String.toList_inj, String.toList_ofList]
  induction s.toList with
  | nil => rfl
  | cons c cs ih => rw [List.flatMap_cons, decodeUtf16_codeUnits, ih]

theorem utf16_append (s t : String) : utf16 (s ++ t) = utf16 s ++ utf16 t := by
  simp [utf16]

end Ecma

open Ecma

namespace Json

def isSpaceUnit (unit : ℕ) : Bool := unit = 0x20 || unit = 0x09 || unit = 0x0a || unit = 0x0d

def skipSpace (s : Text) : Text := s.dropWhile isSpaceUnit

/-! ## Strings -/

def hexValue (unit : ℕ) : Option ℕ :=
  if 48 ≤ unit ∧ unit ≤ 57 then some (unit - 48)
  else if 97 ≤ unit ∧ unit ≤ 102 then some (unit - 87)
  else if 65 ≤ unit ∧ unit ≤ 70 then some (unit - 55)
  else none

/-- The unit that a backslash and a letter stand for. -/
def escapedUnit : ℕ → Option ℕ
  | 0x22 => some 0x22
  | 0x5c => some 0x5c
  | 0x2f => some 0x2f
  | 0x62 => some 0x08
  | 0x66 => some 0x0c
  | 0x6e => some 0x0a
  | 0x72 => some 0x0d
  | 0x74 => some 0x09
  | _ => none

/-- The unit of four hexadecimal digits. -/
def hexUnit (a b c d : ℕ) : Option ℕ := do
  let a ← hexValue a
  let b ← hexValue b
  let c ← hexValue c
  let d ← hexValue d
  return 0x1000 * a + 0x100 * b + 0x10 * c + d

/-- The units of a string from a place in it up to its closing quote, and what is left of the
text. -/
def readString : Text → Option (Text × Text)
  | [] => none
  | unit :: rest =>
    if unit = 0x22 then some ([], rest)
    else if unit = 0x5c then
      match rest with
      | 0x75 :: a :: b :: c :: d :: rest => do
        let unit ← hexUnit a b c d
        (readString rest).map fun r => (unit :: r.1, r.2)
      | letter :: rest => do
        let unit ← escapedUnit letter
        (readString rest).map fun r => (unit :: r.1, r.2)
      | [] => none
    else if unit < 0x20 then none
    else (readString rest).map fun r => (unit :: r.1, r.2)

/-- Part of a string that reads as some units, whatever follows it. -/
def Reads (text units : Text) : Prop :=
  ∀ rest, readString (text ++ rest) = (readString rest).map fun r => (units ++ r.1, r.2)

theorem Reads.nil : Reads [] [] := by
  intro rest
  cases h : readString rest <;> simp [h]

theorem Reads.append {text text' units units' : Text} (h : Reads text units)
    (h' : Reads text' units') : Reads (text ++ text') (units ++ units') := by
  intro rest
  rw [List.append_assoc, h, h', Option.map_map]
  congr 1
  funext r
  simp

/-- A unit that needs no escape reads as itself. -/
theorem reads_plain {unit : ℕ} (hquote : unit ≠ 0x22) (hback : unit ≠ 0x5c)
    (hcontrol : 0x20 ≤ unit) : Reads [unit] [unit] := by
  intro rest
  have hcontrol' : ¬unit < 0x20 := by omega
  rw [List.singleton_append, readString.eq_def]
  dsimp only
  rw [if_neg hquote, if_neg hback, if_neg hcontrol']
  rfl

theorem reads_plains {units : Text}
    (h : ∀ unit ∈ units, unit ≠ 0x22 ∧ unit ≠ 0x5c ∧ 0x20 ≤ unit) : Reads units units := by
  induction units with
  | nil => exact .nil
  | cons unit units ih =>
    obtain ⟨hquote, hback, hcontrol⟩ := h unit List.mem_cons_self
    exact (reads_plain hquote hback hcontrol).append (ih fun u hu => h u (List.mem_cons_of_mem _ hu))

theorem reads_escape {letter unit : ℕ} (h : escapedUnit letter = some unit) :
    Reads [0x5c, letter] [unit] := by
  intro rest
  have hletter : letter ≠ 0x75 := by
    intro heq
    rw [heq] at h
    cases h
  rw [List.cons_append, List.singleton_append, readString]
  · rw [if_neg (by decide), if_pos rfl, h]
    rfl
  · intro _ _ _ _ _ heq
    exact absurd heq hletter

theorem reads_hex {a b c d unit : ℕ} (h : hexUnit a b c d = some unit) :
    Reads [0x5c, 0x75, a, b, c, d] [unit] := by
  intro rest
  simp only [List.cons_append, List.nil_append]
  rw [readString, if_neg (by decide), if_pos rfl]
  simp only [h]
  rfl

theorem readString_quote (rest : Text) : readString (0x22 :: rest) = some ([], rest) := by
  rw [readString.eq_def]
  rfl

/-- What reads as some units reads so up to the closing quote. -/
theorem Reads.readString_eq {text units : Text} (h : Reads text units) (rest : Text) :
    readString (text ++ 0x22 :: rest) = some (units, rest) := by
  rw [h, readString_quote, Option.map_some, List.append_nil]

/-! ## Numbers -/

def isDigitUnit (unit : ℕ) : Bool := 48 ≤ unit && unit ≤ 57

def natOfDigits (digits : Text) : ℕ := digits.foldl (fun n unit => 10 * n + (unit - 48)) 0

/-- One digit or more. -/
def readDigits (s : Text) : Option (Text × Text) :=
  let (digits, rest) := s.span isDigitUnit
  if digits = [] then none else some (digits, rest)

/-- The integer part: no digit follows a leading zero. -/
def readInteger : Text → Option (Text × Text)
  | 0x30 :: rest => some ([0x30], rest)
  | s => readDigits s

def readFraction : Text → Option (Text × Text)
  | 0x2e :: rest => readDigits rest
  | s => some ([], s)

def readExponent (s : Text) : Option (ℤ × Text) :=
  match s with
  | [] => some (0, s)
  | unit :: rest =>
    if unit = 0x65 ∨ unit = 0x45 then
      match rest with
      | 0x2d :: rest => (readDigits rest).map fun r => (-(natOfDigits r.1 : ℤ), r.2)
      | 0x2b :: rest => (readDigits rest).map fun r => ((natOfDigits r.1 : ℤ), r.2)
      | rest => (readDigits rest).map fun r => ((natOfDigits r.1 : ℤ), r.2)
    else some (0, s)

def readMagnitude (s : Text) : Option (Number × Text) := do
  let (integer, s) ← readInteger s
  let (fraction, s) ← readFraction s
  let (exponent, s) ← readExponent s
  return ((natOfDigits (integer ++ fraction) : Number) * 10 ^ (exponent - fraction.length), s)

def readNumber : Text → Option (Number × Text)
  | 0x2d :: rest => (readMagnitude rest).map fun r => (-r.1, r.2)
  | s => readMagnitude s

/-! ## Values -/

/-- The rest of a text that starts with a word. -/
def readWord (word : String) (s : Text) : Option Text :=
  if (utf16 word).isPrefixOf s then some (s.drop (utf16 word).length) else none

/-- A field set in an object that is being read. -/
def setField (fields : Fields) (key : String) (value : Json) : Fields :=
  if key ∈ fields.map Prod.fst then
    fields.map fun field => if field.1 = key then (key, value) else field
  else fields ++ [(key, value)]

mutual

def readValue : ℕ → Text → Option (Json × Text)
  | 0, _ => none
  | fuel + 1, s =>
    match skipSpace s with
    | 0x7b :: rest =>
      match skipSpace rest with
      | 0x7d :: rest => some (.object [], rest)
      | rest => readFields fuel [] rest
    | 0x5b :: rest =>
      match skipSpace rest with
      | 0x5d :: rest => some (.array [], rest)
      | rest => readItems fuel [] rest
    | 0x22 :: rest => (readString rest).map fun r => (.string (ofUtf16 r.1), r.2)
    | 0x74 :: rest => (readWord "rue" rest).map fun rest => (.bool true, rest)
    | 0x66 :: rest => (readWord "alse" rest).map fun rest => (.bool false, rest)
    | 0x6e :: rest => (readWord "ull" rest).map fun rest => (.null, rest)
    | s => (readNumber s).map fun r => (.number r.1, r.2)

/-- The fields of an object from a key on, after those already read. -/
def readFields : ℕ → Fields → Text → Option (Json × Text)
  | 0, _, _ => none
  | fuel + 1, fields, s =>
    match skipSpace s with
    | 0x22 :: rest => do
      let (key, s) ← readString rest
      match skipSpace s with
      | 0x3a :: rest => do
        let (value, s) ← readValue fuel rest
        let fields := setField fields (ofUtf16 key) value
        match skipSpace s with
        | 0x2c :: rest => readFields fuel fields rest
        | 0x7d :: rest => some (.object fields, rest)
        | _ => none
      | _ => none
    | _ => none

/-- The items of an array from one on, after those already read. -/
def readItems : ℕ → List Json → Text → Option (Json × Text)
  | 0, _, _ => none
  | fuel + 1, items, s => do
    let (item, s) ← readValue fuel s
    match skipSpace s with
    | 0x2c :: rest => readItems fuel (items ++ [item]) rest
    | 0x5d :: rest => some (.array (items ++ [item]), rest)
    | _ => none

end

/-- `JSON.parse`; nothing for a text that is not JSON. -/
def parse (s : Text) : Option Json := do
  let (value, rest) ← readValue (s.length + 1) s
  if skipSpace rest = [] then some value else none

theorem readValue_string {text units : Text} (h : Reads text units) (fuel : ℕ) (rest : Text) :
    readValue (fuel + 1) (0x22 :: (text ++ 0x22 :: rest)) =
      some (.string (ofUtf16 units), rest) := by
  show (readString (text ++ 0x22 :: rest)).map (fun r => (Json.string (ofUtf16 r.1), r.2)) = _
  rw [h.readString_eq]
  rfl

/-- An object of one field, a string. -/
theorem parse_object_string {key keyUnits text units : Text} (hkey : Reads key keyUnits)
    (htext : Reads text units) :
    parse (0x7b :: 0x22 :: (key ++ 0x22 :: 0x3a :: 0x22 :: (text ++ 0x22 :: [0x7d]))) =
      some (.object [(ofUtf16 keyUnits, .string (ofUtf16 units))]) := by
  have hfields (fuel : ℕ) :
      readFields (fuel + 2) []
        (0x22 :: (key ++ 0x22 :: 0x3a :: 0x22 :: (text ++ 0x22 :: [0x7d]))) =
      some (.object [(ofUtf16 keyUnits, .string (ofUtf16 units))], []) := by
    rw [readFields.eq_def]
    show (readString (key ++ 0x22 :: 0x3a :: 0x22 :: (text ++ 0x22 :: [0x7d]))).bind _ = _
    rw [hkey.readString_eq]
    show (readValue (fuel + 1) (0x22 :: (text ++ 0x22 :: [0x7d]))).bind _ = _
    rw [readValue_string htext]
    rfl
  obtain ⟨fuel, hfuel⟩ : ∃ fuel, (0x7b :: 0x22 :: (key ++ 0x22 :: 0x3a :: 0x22 ::
      (text ++ 0x22 :: [0x7d]))).length = fuel + 2 := ⟨_, rfl⟩
  rw [parse, hfuel, readValue.eq_def]
  show (readFields (fuel + 2) [] _).bind _ = _
  rw [hfields]
  rfl

end Json
