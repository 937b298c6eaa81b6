import ShieldWard.Lib.JsonText

/-!
# Writing JSON text

`JSON.stringify` without indentation, in UTF-16 code units: the fields of an object stand in their
order. The text is a single line, and `JSON.parse` gives the value back. The text of a number need
not be its exact value, only a decimal that is rounded to it.
-/

namespace Ecma

/-- A unit of a character is the character or one of a pair of surrogates. -/
theorem eq_toNat_or_surrogate {c : Char} {unit : ℕ} (h : unit ∈ codeUnits c) :
    unit = c.toNat ∨ 0xd800 ≤ unit := by
  simp only [codeUnits] at h
  split at h
  · exact .inl (List.mem_singleton.mp h)
  · simp only [List.mem_cons, List.not_mem_nil, or_false] at h
    omega

end Ecma

namespace Json

open Ecma

/-! ## Texts -/

/-- A string between its quotes. -/
def stringifyString (s : String) : Text :=
  0x22 :: ((s.toList.flatMap escapeChar).flatMap codeUnits ++ [0x22])

mutual

/-- `JSON.stringify`. `numberText` is the text of a number. -/
def stringify (numberText : Number → String) : Json → Text
  | .null => utf16 "null"
  | .bool b => utf16 (if b then "true" else "false")
  | .number n => utf16 (numberText n)
  | .string s => stringifyString s
  | .array items => 0x5b :: stringifyItems numberText items
  | .object fields => 0x7b :: stringifyFields numberText fields

/-- The items with commas between them, up to the closing bracket. -/
def stringifyItems (numberText : Number → String) : List Json → Text
  | [] => [0x5d]
  | [item] => stringify numberText item ++ [0x5d]
  | item :: next :: items =>
    stringify numberText item ++ 0x2c :: stringifyItems numberText (next :: items)

/-- The fields with commas between them, up to the closing brace. -/
def stringifyFields (numberText : Number → String) : Fields → Text
  | [] => [0x7d]
  | [(key, value)] => stringifyString key ++ 0x3a :: (stringify numberText value ++ [0x7d])
  | (key, value) :: next :: fields =>
    stringifyString key ++ 0x3a ::
      (stringify numberText value ++ 0x2c :: stringifyFields numberText (next :: fields))

end

/-! ## Strings -/

/-- The reader undoes every escape that the writer makes. -/
theorem reads_escapeChar (c : Char) :
    Reads ((escapeChar c).flatMap codeUnits) (codeUnits c) := by
  have heq : ∀ {n : ℕ}, c.toNat = n → c = Char.ofNat n := by
    intro n hn
    rw [← hn, Char.ofNat_toNat]
  unfold escapeChar
  split
  · next h => rw [h]; exact reads_escape rfl
  split
  · next h => rw [h]; exact reads_escape rfl
  split
  · next h => rw [heq h]; exact reads_escape rfl
  split
  · next h => rw [heq h]; exact reads_escape rfl
  split
  · next h => rw [heq h]; exact reads_escape rfl
  split
  · next h => rw [heq h]; exact reads_escape rfl
  split
  · next h => rw [heq h]; exact reads_escape rfl
  split
  · next hcontrol =>
    -- a control character is one of 32
    rw [← Char.ofNat_toNat c]
    generalize c.toNat = n at hcontrol
    interval_cases n <;> exact reads_hex rfl
  · next hquote hback _ _ _ _ _ hplain =>
    rw [List.flatMap_singleton]
    apply reads_plains
    intro unit hunit
    rcases eq_toNat_or_surrogate hunit with rfl | hpair
    · exact ⟨fun h => hquote (heq h), fun h => hback (heq h), by omega⟩
    · omega

/-- Escaping character by character loses nothing. -/
theorem reads_escaped (s : String) :
    Reads ((s.toList.flatMap escapeChar).flatMap codeUnits) (utf16 s) := by
  rw [utf16]
  induction s.toList with
  | nil => exact .nil
  | cons c cs ih =>
    rw [List.flatMap_cons, List.flatMap_append, List.flatMap_cons]
    exact (reads_escapeChar c).append ih

/-- A written text begins and ends with its quotation marks. -/
theorem stringifyString_append (s : String) (rest : Text) :
    stringifyString s ++ rest =
      0x22 :: ((s.toList.flatMap escapeChar).flatMap codeUnits ++ 0x22 :: rest) := by
  show 0x22 :: ((_ ++ [0x22]) ++ rest) = _
  rw [List.append_assoc]
  rfl

/-! ## Reading back -/

/-- What follows a value in a text. -/
def Ends (rest : Text) : Prop := ∀ unit ∈ rest.head?, unit = 0x2c ∨ unit = 0x5d ∨ unit = 0x7d

theorem ends_nil : Ends [] := by
  intro unit h
  cases h

/-- What may follow a value inside an array or an object. -/
theorem ends_cons {unit : ℕ} (h : unit = 0x2c ∨ unit = 0x5d ∨ unit = 0x7d) (rest : Text) :
    Ends (unit :: rest) := by
  intro next hnext
  rw [← Option.some.inj hnext]
  exact h

/-- The exact value of the text of a number. -/
def written (numberText : Number → String) (n : Number) : Number :=
  ((readNumber (utf16 (numberText n))).map Prod.fst).getD 0

/-- The text of a number is read, and its value is rounded to the number. -/
structure ReadsBack (numberText : Number → String) (round : Number → Number) (n : Number) :
    Prop where
  starts : ∃ unit units, utf16 (numberText n) = unit :: units ∧
    (unit = 0x2d ∨ isDigitUnit unit = true)
  reads : ∀ rest, Ends rest →
    readNumber (utf16 (numberText n) ++ rest) = some (written numberText n, rest)
  rounds : round (written numberText n) = n
  visible : ∀ unit ∈ utf16 (numberText n), 0x20 ≤ unit

mutual

/-- A value with each number changed. -/
def mapNumbers (f : Number → Number) : Json → Json
  | .null => .null
  | .bool b => .bool b
  | .number n => .number (f n)
  | .string s => .string s
  | .array items => .array (mapItems f items)
  | .object fields => .object (mapFields f fields)

def mapItems (f : Number → Number) : List Json → List Json
  | [] => []
  | item :: items => mapNumbers f item :: mapItems f items

def mapFields (f : Number → Number) : Fields → Fields
  | [] => []
  | (key, value) :: fields => (key, mapNumbers f value) :: mapFields f fields

end

theorem mapItems_eq (f : Number → Number) (items : List Json) :
    mapItems f items = items.map (mapNumbers f) := by
  induction items with
  | nil => rfl
  | cons item items ih => exact congrArg (mapNumbers f item :: ·) ih

theorem mapFields_eq (f : Number → Number) (fields : Fields) :
    mapFields f fields = fields.map fun field => (field.1, mapNumbers f field.2) := by
  induction fields with
  | nil => rfl
  | cons field fields ih => exact congrArg ((field.1, mapNumbers f field.2) :: ·) ih

variable {numberText : Number → String} {round : Number → Number}

/-- What is read is rounded to what was written. -/
theorem mapNumbers_written {a : Json} (ha : Legible (ReadsBack numberText round) a) :
    mapNumbers round (mapNumbers (written numberText) a) = a := by
  induction ha with
  | null | bool | string => rfl
  | number hn => exact congrArg Json.number hn.rounds
  | array _ ih =>
    apply congrArg Json.array
    rw [mapItems_eq, mapItems_eq, List.map_map]
    exact (List.map_congr_left ih).trans (List.map_id _)
  | object _ _ ih =>
    apply congrArg Json.object
    rw [mapFields_eq, mapFields_eq, List.map_map]
    refine (List.map_congr_left fun field hfield => ?_).trans (List.map_id _)
    show (field.1, mapNumbers round (mapNumbers (written numberText) field.2)) = field
    rw [ih field hfield]

/-- A text that starts with a unit that is neither white space nor a closing bracket. -/
def Opens (text : Text) : Prop :=
  ∃ unit units, text = unit :: units ∧ isSpaceUnit unit = false ∧ unit ≠ 0x5d ∧ unit ≠ 0x7d

/-- No value begins with white space or with the end of the text. -/
theorem opens_stringify {a : Json} (ha : Legible (ReadsBack numberText round) a) :
    Opens (stringify numberText a) := by
  cases ha with
  | null => exact ⟨_, _, rfl, rfl, by decide, by decide⟩
  | bool b => cases b <;> exact ⟨_, _, rfl, rfl, by decide, by decide⟩
  | number hn =>
    obtain ⟨unit, units, heq, hstart⟩ := hn.starts
    refine ⟨unit, units, heq, ?_, ?_, ?_⟩
    all_goals
      simp only [isDigitUnit, Bool.and_eq_true, decide_eq_true_eq] at hstart
      simp [isSpaceUnit]
      omega
  | string s => exact ⟨_, _, rfl, rfl, by decide, by decide⟩
  | array h => exact ⟨_, _, rfl, rfl, by decide, by decide⟩
  | object hkeys h => exact ⟨_, _, rfl, rfl, by decide, by decide⟩

/-- So there is no space to skip before a value. -/
theorem Opens.skipSpace_append {text : Text} (h : Opens text) (rest : Text) :
    skipSpace (text ++ rest) = text ++ rest := by
  obtain ⟨unit, units, rfl, hspace, _⟩ := h
  unfold skipSpace
  rw [List.cons_append, List.dropWhile_cons_of_neg (by simp [hspace])]

/-- A value is read back from its text, whatever ends it. -/
def ReadsValue (numberText : Number → String) (a : Json) : Prop :=
  ∀ fuel rest, Ends rest → (stringify numberText a).length < fuel →
    readValue fuel (stringify numberText a ++ rest) = some (mapNumbers (written numberText) a, rest)

/-- A number that its text stands for is read back. -/
theorem readsValue_number {n : Number} (h : ReadsBack numberText round n) :
    ReadsValue numberText (.number n) := by
  intro fuel rest hends hfuel
  obtain ⟨unit, units, heq, hstart⟩ := h.starts
  have hread := h.reads rest hends
  cases fuel with
  | zero => cases hfuel
  | succ fuel =>
    have hskip := (opens_stringify (.number h)).skipSpace_append rest
    rw [stringify, heq] at hskip ⊢
    rw [heq] at hread
    rw [List.cons_append] at hskip hread ⊢
    rw [readValue.eq_def]
    simp only [hskip]
    split <;> simp_all [isDigitUnit, mapNumbers]

theorem readsValue_string (s : String) : ReadsValue numberText (.string s) := by
  intro fuel rest _ hfuel
  cases fuel with
  | zero => cases hfuel
  | succ fuel =>
    rw [stringify, stringifyString_append, readValue_string (reads_escaped s), ofUtf16_utf16]
    rfl

theorem readsValue_null : ReadsValue numberText .null := by
  intro fuel rest _ hfuel
  cases fuel with
  | zero => cases hfuel
  | succ fuel => rfl

theorem readsValue_bool (b : Bool) : ReadsValue numberText (.bool b) := by
  intro fuel rest _ hfuel
  cases fuel with
  | zero => cases hfuel
  | succ fuel => cases b <;> rfl

/-! ## Arrays and objects -/

/-- By induction on the items; the fuel is spent on the length of the text. -/
theorem readItems_stringify {items : List Json} (hne : items ≠ [])
    (hitems : ∀ item ∈ items, ReadsValue numberText item) :
    ∀ done fuel rest, (stringifyItems numberText items).length < fuel →
      readItems fuel done (stringifyItems numberText items ++ rest) =
        some (.array (done ++ mapItems (written numberText) items), rest) := by
  induction items with
  | nil => exact absurd rfl hne
  | cons item items ih =>
    intro done fuel rest hfuel
    obtain ⟨hitem, hothers⟩ := List.forall_mem_cons.mp hitems
    cases fuel with
    | zero => cases hfuel
    | succ fuel =>
      cases items with
      | nil =>
        rw [stringifyItems, List.length_append, List.length_singleton] at hfuel
        rw [stringifyItems, List.append_assoc, List.singleton_append, readItems,
          hitem fuel _ (ends_cons (by decide) rest) (by omega)]
        rfl
      | cons next items =>
        rw [stringifyItems, List.length_append, List.length_cons] at hfuel
        · have hrest := ih (List.cons_ne_nil _ _) hothers
            (done ++ [mapNumbers (written numberText) item]) fuel rest (by omega)
          rw [stringifyItems, List.append_assoc, List.cons_append, readItems,
            hitem fuel _ (ends_cons (by decide) _) (by omega)]
          · show readItems fuel (done ++ [mapNumbers (written numberText) item]) _ = _
            rw [hrest, List.append_assoc]
            rfl

/-- A key that is new goes to the end. -/
theorem setField_new {fields : Fields} {key : String} (h : key ∉ fields.map Prod.fst)
    (value : Json) : setField fields key value = fields ++ [(key, value)] := if_neg h

/-- By induction on the members; as no key comes twice, each of them goes to the end. -/
theorem readFields_stringify {fields : Fields} (hne : fields ≠ [])
    (hfields : ∀ field ∈ fields, ReadsValue numberText field.2) :
    ∀ done fuel rest, ((done ++ fields).map Prod.fst).Nodup →
      (stringifyFields numberText fields).length < fuel →
      readFields fuel done (stringifyFields numberText fields ++ rest) =
        some (.object (done ++ mapFields (written numberText) fields), rest) := by
  induction fields with
  | nil => exact absurd rfl hne
  | cons field fields ih =>
    intro done fuel rest hkeys hfuel
    obtain ⟨key, value⟩ := field
    obtain ⟨hvalue : ReadsValue numberText value, hothers⟩ := List.forall_mem_cons.mp hfields
    have hnew : key ∉ done.map Prod.fst := by
      rw [List.map_append, List.map_cons] at hkeys
      intro hmem
      exact (List.nodup_append.mp hkeys).2.2 key hmem key List.mem_cons_self rfl
    cases fuel with
    | zero => cases hfuel
    | succ fuel =>
      cases fields with
      | nil =>
        rw [stringifyFields, List.length_append, List.length_cons, List.length_append] at hfuel
        rw [stringifyFields, List.append_assoc, stringifyString_append, readFields.eq_def]
        show (readString _).bind _ = _
        rw [(reads_escaped key).readString_eq]
        show (readValue fuel ((stringify numberText value ++ [0x7d]) ++ rest)).bind _ = _
        rw [List.append_assoc, List.singleton_append,
          hvalue fuel _ (ends_cons (by decide) rest) (by omega)]
        show some (Json.object (setField done (ofUtf16 (utf16 key)) _), rest) = _
        rw [ofUtf16_utf16, setField_new hnew]
        rfl
      | cons next fields =>
        rw [stringifyFields, List.length_append, List.length_cons, List.length_append,
          List.length_cons] at hfuel
        · have hrest := ih (List.cons_ne_nil _ _) hothers
            (done ++ [(key, mapNumbers (written numberText) value)]) fuel rest
            (by simpa using hkeys) (by omega)
          rw [stringifyFields, List.append_assoc, stringifyString_append, readFields.eq_def]
          · show (readString _).bind _ = _
            rw [(reads_escaped key).readString_eq]
            show (readValue fuel ((stringify numberText value ++ 0x2c :: _) ++ rest)).bind _ = _
            rw [List.append_assoc, List.cons_append,
              hvalue fuel _ (ends_cons (by decide) _) (by omega)]
            show readFields fuel (setField done (ofUtf16 (utf16 key)) _) _ = _
            rw [ofUtf16_utf16, setField_new hnew, hrest, List.append_assoc]
            rfl

theorem opens_stringifyItems {item : Json} {items : List Json}
    (h : Legible (ReadsBack numberText round) item) :
    Opens (stringifyItems numberText (item :: items)) := by
  obtain ⟨unit, units, heq, hopens⟩ := opens_stringify h
  cases items with
  | nil => exact ⟨unit, _, by rw [stringifyItems, heq]; rfl, hopens⟩
  | cons next items =>
    refine ⟨unit, units ++ 0x2c :: stringifyItems numberText (next :: items), ?_, hopens⟩
    rw [stringifyItems, heq]
    · rfl

theorem opens_stringifyFields (field : String × Json) (fields : Fields) :
    Opens (stringifyFields numberText (field :: fields)) := by
  cases fields with
  | nil => exact ⟨0x22, _, rfl, rfl, by decide, by decide⟩
  | cons next fields => exact ⟨0x22, _, rfl, rfl, by decide, by decide⟩

/-- An array that is not empty is read item by item. -/
theorem readValue_array {text : Text} {unit : ℕ} {units : Text}
    (hskip : skipSpace text = unit :: units) (hunit : unit ≠ 0x5d) (fuel : ℕ) :
    readValue (fuel + 1) (0x5b :: text) = readItems fuel [] (unit :: units) := by
  have hself : skipSpace (0x5b :: text) = 0x5b :: text := rfl
  rw [readValue.eq_def]
  simp only [hself, hskip]
  split
  · next h => exact absurd (List.cons.inj h).1 hunit
  · rfl

/-- An object that is not empty is read field by field. -/
theorem readValue_object {text : Text} {unit : ℕ} {units : Text}
    (hskip : skipSpace text = unit :: units) (hunit : unit ≠ 0x7d) (fuel : ℕ) :
    readValue (fuel + 1) (0x7b :: text) = readFields fuel [] (unit :: units) := by
  have hself : skipSpace (0x7b :: text) = 0x7b :: text := rfl
  rw [readValue.eq_def]
  simp only [hself, hskip]
  split
  · next h => exact absurd (List.cons.inj h).1 hunit
  · rfl

/-- An array is read back when its items are. -/
theorem readsValue_array {items : List Json}
    (hlegible : ∀ item ∈ items, Legible (ReadsBack numberText round) item)
    (h : ∀ item ∈ items, ReadsValue numberText item) :
    ReadsValue numberText (.array items) := by
  intro fuel rest _ hfuel
  cases fuel with
  | zero => cases hfuel
  | succ fuel =>
    cases items with
    | nil => rfl
    | cons item items =>
      have hopens : Opens (stringifyItems numberText (item :: items)) :=
        opens_stringifyItems (hlegible item List.mem_cons_self)
      have hskip := hopens.skipSpace_append rest
      have hread := readItems_stringify (List.cons_ne_nil _ _) h [] fuel rest
        (by rw [stringify, List.length_cons] at hfuel; omega)
      obtain ⟨unit, units, heq, _, hbracket, _⟩ := hopens
      rw [stringify, List.cons_append]
      rw [heq] at hskip hread ⊢
      rw [readValue_array hskip hbracket]
      exact hread

/-- An object is read back when its values are and no key comes twice. -/
theorem readsValue_object {fields : Fields} (hkeys : (fields.map Prod.fst).Nodup)
    (h : ∀ field ∈ fields, ReadsValue numberText field.2) :
    ReadsValue numberText (.object fields) := by
  intro fuel rest _ hfuel
  cases fuel with
  | zero => cases hfuel
  | succ fuel =>
    cases fields with
    | nil => rfl
    | cons field fields =>
      have hopens : Opens (stringifyFields numberText (field :: fields)) :=
        opens_stringifyFields field fields
      have hskip := hopens.skipSpace_append rest
      have hread := readFields_stringify (List.cons_ne_nil _ _) h [] fuel rest hkeys
        (by rw [stringify, List.length_cons] at hfuel; omega)
      obtain ⟨unit, units, heq, _, _, hbrace⟩ := hopens
      rw [stringify, List.cons_append]
      rw [heq] at hskip hread ⊢
      rw [readValue_object hskip hbrace]
      exact hread

/-- Every legible value is read back from its text. -/
theorem readsValue_stringify {a : Json} (ha : Legible (ReadsBack numberText round) a) :
    ReadsValue numberText a := by
  induction ha with
  | null => exact readsValue_null
  | bool b => exact readsValue_bool b
  | number hn => exact readsValue_number hn
  | string s => exact readsValue_string s
  | array hlegible ih => exact readsValue_array hlegible ih
  | object hkeys _ ih => exact readsValue_object hkeys ih

/-- `JSON.parse` gives back what `JSON.stringify` wrote. -/
theorem parse_stringify {a : Json} (ha : Legible (ReadsBack numberText round) a) :
    (parse (stringify numberText a)).map (mapNumbers round) = some a := by
  have hread := readsValue_stringify ha ((stringify numberText a).length + 1) [] ends_nil
    (Nat.lt_succ_self _)
  rw [List.append_nil] at hread
  have hparse : parse (stringify numberText a) = some (mapNumbers (written numberText) a) := by
    rw [parse, hread]
    rfl
  rw [hparse, Option.map_some, mapNumbers_written ha]

/-! ## One line -/

/-- No unit of a text is a control character, of which line feed is one. -/
def OneLine (text : Text) : Prop := ∀ unit ∈ text, 0x20 ≤ unit

theorem OneLine.append {text text' : Text} (h : OneLine text) (h' : OneLine text') :
    OneLine (text ++ text') :=
  List.forall_mem_append.mpr ⟨h, h'⟩

theorem OneLine.cons {unit : ℕ} {text : Text} (hunit : 0x20 ≤ unit) (h : OneLine text) :
    OneLine (unit :: text) :=
  List.forall_mem_cons.mpr ⟨hunit, h⟩

theorem oneLine_nil : OneLine [] := by
  intro unit hunit
  cases hunit

/-- No control character is written as it is. -/
theorem visible_escapeChar (c : Char) : ∀ written ∈ escapeChar c, 0x20 ≤ written.toNat := by
  unfold escapeChar
  split
  · simp
  split
  · simp
  split
  · simp
  split
  · simp
  split
  · simp
  split
  · simp
  split
  · simp
  split
  · next hcontrol =>
    generalize c.toNat = n at hcontrol
    interval_cases n <;> simp [Bytes.hexDigit]
  · next hplain =>
    intro written hwritten
    rw [List.mem_singleton.mp hwritten]
    omega

theorem oneLine_stringifyString (s : String) : OneLine (stringifyString s) := by
  apply OneLine.cons (by decide)
  apply OneLine.append
  · intro unit hunit
    obtain ⟨written, hwritten, hunit⟩ := List.mem_flatMap.mp hunit
    obtain ⟨c, _, hwritten⟩ := List.mem_flatMap.mp hwritten
    have hvisible := visible_escapeChar c written hwritten
    rcases eq_toNat_or_surrogate hunit with rfl | hpair
    · exact hvisible
    · omega
  · exact .cons (by decide) oneLine_nil

theorem oneLine_stringifyItems {items : List Json}
    (h : ∀ item ∈ items, OneLine (stringify numberText item)) :
    OneLine (stringifyItems numberText items) := by
  induction items with
  | nil => exact .cons (by decide) oneLine_nil
  | cons item items ih =>
    obtain ⟨hitem, hothers⟩ := List.forall_mem_cons.mp h
    cases items with
    | nil => exact hitem.append (.cons (by decide) oneLine_nil)
    | cons next items => exact hitem.append (.cons (by decide) (ih hothers))

theorem oneLine_stringifyFields {fields : Fields}
    (h : ∀ field ∈ fields, OneLine (stringify numberText field.2)) :
    OneLine (stringifyFields numberText fields) := by
  induction fields with
  | nil => exact .cons (by decide) oneLine_nil
  | cons field fields ih =>
    obtain ⟨key, value⟩ := field
    obtain ⟨hvalue, hothers⟩ := List.forall_mem_cons.mp h
    have hkey := oneLine_stringifyString key
    cases fields with
    | nil =>
      exact hkey.append (.cons (by decide) (OneLine.append hvalue (.cons (by decide) oneLine_nil)))
    | cons next fields =>
      exact hkey.append (.cons (by decide) (OneLine.append hvalue (.cons (by decide) (ih hothers))))

/-- The text of a value is on one line, so a log of such texts splits into them again. -/
theorem oneLine_stringify {a : Json} (ha : Legible (ReadsBack numberText round) a) :
    OneLine (stringify numberText a) := by
  induction ha with
  | null => exact (by decide : ∀ unit ∈ utf16 "null", 0x20 ≤ unit)
  | bool b =>
    cases b with
    | true => exact (by decide : ∀ unit ∈ utf16 "true", 0x20 ≤ unit)
    | false => exact (by decide : ∀ unit ∈ utf16 "false", 0x20 ≤ unit)
  | number hn => exact hn.visible
  | string s => exact oneLine_stringifyString s
  | array _ ih => exact .cons (by decide) (oneLine_stringifyItems ih)
  | object _ _ ih => exact .cons (by decide) (oneLine_stringifyFields ih)

/-- Lines that each end with a line feed. -/
def joinLines (lines : List Text) : Text := lines.flatMap fun line => line ++ [0x0a]

/-- Splitting at the line feeds undoes joining. -/
theorem splitOn_joinLines {lines : List Text} (h : ∀ line ∈ lines, OneLine line) :
    (joinLines lines).splitOn 0x0a = lines ++ [[]] := by
  induction lines with
  | nil => rfl
  | cons line lines ih =>
    obtain ⟨hline, hothers⟩ := List.forall_mem_cons.mp h
    have hfeed : 0x0a ∉ line := by
      intro hmem
      have hvisible := hline 0x0a hmem
      omega
    show ((line ++ [0x0a]) ++ joinLines lines).splitOn 0x0a = line :: (lines ++ [[]])
    rw [List.append_assoc, List.singleton_append,
      List.splitOn_append_cons_self_of_not_mem hfeed, ih hothers]

/-! ## Whole numbers -/

theorem isDigitUnit_of_ends {rest : Text} (h : Ends rest) :
    ∀ unit ∈ rest.head?, isDigitUnit unit = false ∧ unit ≠ 0x2e ∧ unit ≠ 0x65 ∧ unit ≠ 0x45 := by
  intro unit hunit
  rcases h unit hunit with rfl | rfl | rfl <;> decide

/-- The digits of a number end where the text after them begins. -/
theorem span_append {digits rest : Text} (hdigits : ∀ unit ∈ digits, isDigitUnit unit = true)
    (hrest : ∀ unit ∈ rest.head?, isDigitUnit unit = false) :
    (digits ++ rest).span isDigitUnit = (digits, rest) := by
  rw [List.span_eq_takeWhile_dropWhile, List.takeWhile_append_of_pos hdigits,
    List.dropWhile_append_of_pos hdigits]
  cases rest with
  | nil => simp
  | cons unit rest => simp [hrest unit rfl]

/-- A numeral is read to its end and no further. -/
theorem readDigits_append {first : ℕ} {digits rest : Text}
    (hdigits : ∀ unit ∈ first :: digits, isDigitUnit unit = true)
    (hrest : ∀ unit ∈ rest.head?, isDigitUnit unit = false) :
    readDigits (first :: digits ++ rest) = some (first :: digits, rest) := by
  unfold readDigits
  rw [span_append hdigits hrest]
  rfl

/-- A number that starts with a digit other than zero has neither a fraction nor an exponent when
its digits end the text of a value. -/
theorem readNumber_digits {first : ℕ} {digits rest : Text} (hfirst : first ≠ 0x30)
    (hdigits : ∀ unit ∈ first :: digits, isDigitUnit unit = true) (hends : Ends rest) :
    readNumber (first :: digits ++ rest) =
      some ((natOfDigits (first :: digits) : Number), rest) := by
  have hafter := isDigitUnit_of_ends hends
  have hread := readDigits_append hdigits fun unit hunit => (hafter unit hunit).1
  have hminus : first ≠ 0x2d := by
    rintro rfl
    exact absurd (hdigits 0x2d List.mem_cons_self) (by decide)
  have hinteger : readInteger (first :: digits ++ rest) = some (first :: digits, rest) := by
    unfold readInteger
    split
    · next h => exact absurd (List.cons.inj h).1 hfirst
    · exact hread
  have hfraction : readFraction rest = some ([], rest) := by
    unfold readFraction
    split
    · exact absurd rfl (hafter 0x2e rfl).2.1
    · rfl
  have hexponent : readExponent rest = some (0, rest) := by
    unfold readExponent
    cases rest with
    | nil => rfl
    | cons unit rest =>
      obtain ⟨_, _, hlower, hupper⟩ := hafter unit rfl
      exact if_neg (not_or.mpr ⟨hlower, hupper⟩)
  unfold readNumber
  split
  · next h => exact absurd (List.cons.inj h).1 hminus
  · unfold readMagnitude
    rw [hinteger]
    show (readFraction rest).bind _ = _
    rw [hfraction]
    show (readExponent rest).bind _ = _
    rw [hexponent]
    simp

/-- The decimal digits of a whole number are read back. -/
theorem readsBack_natCast {n first : ℕ} {digits : Text}
    (htext : utf16 (numberText n) = first :: digits) (hfirst : first ≠ 0x30)
    (hdigits : ∀ unit ∈ first :: digits, isDigitUnit unit = true)
    (hvalue : natOfDigits (first :: digits) = n) (hround : round n = n) :
    ReadsBack numberText round n := by
  have hread : ∀ rest, Ends rest →
      readNumber (utf16 (numberText n) ++ rest) = some ((n : Number), rest) := by
    intro rest hends
    rw [htext, readNumber_digits hfirst hdigits hends, hvalue]
  have hwritten : written numberText n = n := by
    have hself := hread [] ends_nil
    rw [List.append_nil] at hself
    rw [written, hself]
    rfl
  refine ⟨⟨first, digits, htext, .inr (hdigits first List.mem_cons_self)⟩, ?_, ?_, ?_⟩
  · rwa [hwritten]
  · rw [hwritten, hround]
  · intro unit hunit
    rw [htext] at hunit
    have hdigit := hdigits unit hunit
    simp only [isDigitUnit, Bool.and_eq_true, decide_eq_true_eq] at hdigit
    omega

end Json
