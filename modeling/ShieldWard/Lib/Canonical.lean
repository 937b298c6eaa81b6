import ShieldWard.Lib.Json
import Mathlib.Tactic.IntervalCases

/-!
# The canonical form determines the value

A value can be read back from its canonical form, and from a text that goes on after it: each
form says where it ends. Two values with the same form are the same value up to the order of
fields, where the numbers in them are written with digits and each in its own way.
-/

open Ecma

namespace Json

/-! ## Strings -/

/-- The character at the head of a text between quotes, and what is left of the text. -/
def readChar : List Char → Option (Char × List Char)
  | '\\' :: '"' :: rest => some ('"', rest)
  | '\\' :: '\\' :: rest => some ('\\', rest)
  | '\\' :: 'b' :: rest => some (Char.ofNat 8, rest)
  | '\\' :: 't' :: rest => some (Char.ofNat 9, rest)
  | '\\' :: 'n' :: rest => some (Char.ofNat 10, rest)
  | '\\' :: 'f' :: rest => some (Char.ofNat 12, rest)
  | '\\' :: 'r' :: rest => some (Char.ofNat 13, rest)
  | '\\' :: 'u' :: '0' :: '0' :: high :: low :: rest =>
    ((List.range 32).find? fun n =>
      Bytes.hexDigit (n / 16) = high ∧ Bytes.hexDigit (n % 16) = low).map fun n =>
        (Char.ofNat n, rest)
  | c :: rest => if c = '"' ∨ c = '\\' then none else some (c, rest)
  | [] => none

theorem readChar_plain {c : Char} (hquote : c ≠ '"') (hback : c ≠ '\\') (rest : List Char) :
    readChar (c :: rest) = some (c, rest) := by
  unfold readChar
  split <;> simp_all

/-- Each character is read back from its escaped form. -/
theorem readChar_escapeChar (c : Char) (rest : List Char) :
    readChar (escapeChar c ++ rest) = some (c, rest) := by
  by_cases hplain : 32 ≤ c.toNat
  · -- no character from the blank on has a short form
    have hshort : ¬c.toNat = 8 ∧ ¬c.toNat = 9 ∧ ¬c.toNat = 10 ∧ ¬c.toNat = 12 ∧
        ¬c.toNat = 13 ∧ ¬c.toNat < 32 := by omega
    unfold escapeChar
    simp only [hshort, if_false]
    split
    · next h => rw [h]; rfl
    · next hquote =>
      split
      · next h => rw [h]; rfl
      · next hback => exact readChar_plain hquote hback rest
  · have hsmall : c.toNat < 32 := by omega
    have hall : ∀ n < 32, readChar (escapeChar (Char.ofNat n) ++ rest) =
        some (Char.ofNat n, rest) := by
      intro n hn
      interval_cases n <;> rfl
    have hc := hall c.toNat hsmall
    rwa [Char.ofNat_toNat] at hc

theorem readChar_quote (rest : List Char) : readChar ('"' :: rest) = none := rfl

/-- A quoted text ends at its first quote that is not escaped. -/
theorem escaped_split {s t rest rest' : List Char}
    (h : s.flatMap escapeChar ++ '"' :: rest = t.flatMap escapeChar ++ '"' :: rest') :
    s = t ∧ rest = rest' := by
  induction s generalizing t with
  | nil =>
    cases t with
    | nil => exact ⟨rfl, (List.cons.inj h).2⟩
    | cons d t =>
      have hread := congrArg readChar h
      rw [List.flatMap_nil, List.nil_append, List.flatMap_cons, List.append_assoc,
        readChar_quote, readChar_escapeChar] at hread
      cases hread
  | cons c s ih =>
    have hread := congrArg readChar h
    rw [List.flatMap_cons, List.append_assoc, readChar_escapeChar] at hread
    cases t with
    | nil => cases hread
    | cons d t =>
      rw [List.flatMap_cons, List.append_assoc, readChar_escapeChar] at hread
      obtain ⟨hhead, htail⟩ := Prod.mk.inj (Option.some.inj hread)
      obtain ⟨hst, hrest⟩ := ih htail
      exact ⟨by rw [hhead, hst], hrest⟩

theorem quote_split {s t : String} {rest rest' : List Char}
    (h : (quote s).toList ++ rest = (quote t).toList ++ rest') : s = t ∧ rest = rest' := by
  unfold quote at h
  simp only [String.toList_append, String.toList_ofList, List.append_assoc] at h
  have hinner := List.append_cancel_left h
  obtain ⟨hst, hrest⟩ := escaped_split hinner
  exact ⟨String.toList_inj.mp hst, hrest⟩

/-! ## Parts between commas -/

/-- What follows a value does not go on with a digit. -/
def Stops (rest : List Char) : Prop := ∀ c ∈ rest.head?, c.isDigit = false

theorem stops_cons {c : Char} (h : c.isDigit = false) (rest : List Char) : Stops (c :: rest) := by
  intro d hd
  rw [← Option.some.inj hd]
  exact h

section Separated

variable {α : Type*} {text : α → List Char} {R : α → α → Prop}

/-- The texts of two parts say where they end and what the parts are. -/
def Delimited (text : α → List Char) (R : α → α → Prop) (x y : α) : Prop :=
  ∀ rest rest', Stops rest → Stops rest' → text x ++ rest = text y ++ rest' →
    R x y ∧ rest = rest'

theorem intercalate_map (x : α) (xs : List α) :
    [','].intercalate ((x :: xs).map text) = text x ++ xs.flatMap fun y => ',' :: text y := by
  induction xs generalizing x with
  | nil => simp
  | cons y xs ih =>
    rw [List.map_cons, List.map_cons, List.intercalate_cons_cons, ← List.map_cons, ih y]
    simp

theorem stops_parts {close : Char} (hdigit : close.isDigit = false) (zs : List α)
    (tail : List Char) : Stops ((zs.flatMap fun z => ',' :: text z) ++ close :: tail) := by
  cases zs with
  | nil => exact stops_cons hdigit tail
  | cons z zs => exact stops_cons rfl _

/-- What follows the first part, up to the bracket that closes the list. -/
theorem parts_split {xs ys : List α} {close : Char} {rest rest' : List Char}
    (hcomma : close ≠ ',') (hdigit : close.isDigit = false)
    (hparts : ∀ x ∈ xs, ∀ y ∈ ys, Delimited text R x y)
    (h : (xs.flatMap fun x => ',' :: text x) ++ close :: rest =
      (ys.flatMap fun y => ',' :: text y) ++ close :: rest') :
    List.Forall₂ R xs ys ∧ rest = rest' := by
  induction xs generalizing ys with
  | nil =>
    cases ys with
    | nil => exact ⟨.nil, (List.cons.inj h).2⟩
    | cons y ys => exact absurd (List.cons.inj h).1 hcomma
  | cons x xs ih =>
    cases ys with
    | nil => exact absurd (List.cons.inj h).1.symm hcomma
    | cons y ys =>
      simp only [List.flatMap_cons, List.cons_append, List.append_assoc, List.cons.injEq,
        true_and] at h
      obtain ⟨hxy, htail⟩ := hparts x List.mem_cons_self y List.mem_cons_self _ _
        (stops_parts hdigit xs rest) (stops_parts hdigit ys rest') h
      obtain ⟨hxys, hrest⟩ := ih (fun x hx y hy => hparts x (List.mem_cons_of_mem _ hx) y
        (List.mem_cons_of_mem _ hy)) htail
      exact ⟨.cons hxy hxys, hrest⟩

/-- The parts between two brackets. -/
theorem separated_split {xs ys : List α} {close : Char} {rest rest' : List Char}
    (hcomma : close ≠ ',') (hdigit : close.isDigit = false)
    (hopen : ∀ x ∈ xs ++ ys, ∃ c cs, text x = c :: cs ∧ c ≠ close)
    (hparts : ∀ x ∈ xs, ∀ y ∈ ys, Delimited text R x y)
    (h : [','].intercalate (xs.map text) ++ close :: rest =
      [','].intercalate (ys.map text) ++ close :: rest') :
    List.Forall₂ R xs ys ∧ rest = rest' := by
  -- a list without parts closes at once, where another has its first part
  have hclosed : ∀ (z : α) (zs : List α) (tail tail' : List Char), z ∈ xs ++ ys →
      close :: tail ≠ [','].intercalate ((z :: zs).map text) ++ close :: tail' := by
    intro z zs tail tail' hz heq
    obtain ⟨c, cs, htext, hne⟩ := hopen z hz
    rw [intercalate_map, htext] at heq
    exact hne (List.cons.inj heq).1.symm
  cases xs with
  | nil =>
    cases ys with
    | nil => exact ⟨.nil, (List.cons.inj h).2⟩
    | cons y ys => exact absurd h (hclosed y ys _ _ (by simp))
  | cons x xs =>
    cases ys with
    | nil => exact absurd h.symm (hclosed x xs _ _ (by simp))
    | cons y ys =>
      rw [intercalate_map, intercalate_map, List.append_assoc, List.append_assoc] at h
      obtain ⟨hxy, htail⟩ := hparts x List.mem_cons_self y List.mem_cons_self _ _
        (stops_parts hdigit xs rest) (stops_parts hdigit ys rest') h
      obtain ⟨hxys, hrest⟩ := parts_split hcomma hdigit (fun x hx y hy =>
        hparts x (List.mem_cons_of_mem _ hx) y (List.mem_cons_of_mem _ hy)) htail
      exact ⟨.cons hxy hxys, hrest⟩

end Separated

/-! ## Values -/

/-- The texts of the numbers that satisfy a predicate are digits, and each number has its own. -/
structure Numerals (numberText : Number → String) (p : Number → Prop) : Prop where
  nonempty : ∀ n, p n → numberText n ≠ ""
  digits : ∀ n, p n → ∀ c ∈ (numberText n).toList, c.isDigit = true
  injective : ∀ m n, p m → p n → numberText m = numberText n → m = n

/-- A whole number is read back from its decimal digits. -/
theorem eq_of_repr_eq {m n : ℕ} (h : m.repr = n.repr) : m = n := by
  have hdigits := congrArg (fun text => Nat.ofDigitChars 10 text.toList 0) h
  simp only [Nat.toList_repr] at hdigits
  rwa [Nat.ofDigitChars_toDigits (by decide) (by decide),
    Nat.ofDigitChars_toDigits (by decide) (by decide)] at hdigits

/-- No object in the value holds a key twice, and all numbers in it satisfy the predicate. -/
inductive Legible (p : Number → Prop) : Json → Prop
  | null : Legible p .null
  | bool (b : Bool) : Legible p (.bool b)
  | number {n : Number} (h : p n) : Legible p (.number n)
  | string (s : String) : Legible p (.string s)
  | array {items : List Json} (h : ∀ x ∈ items, Legible p x) : Legible p (.array items)
  | object {fields : Fields} (hkeys : (fields.map Prod.fst).Nodup)
      (h : ∀ f ∈ fields, Legible p f.2) : Legible p (.object fields)

theorem Legible.wellFormed {p : Number → Prop} {a : Json} (h : Legible p a) : WellFormed a := by
  induction h with
  | null => exact .null
  | bool b => exact .bool b
  | number => exact .number _
  | string s => exact .string s
  | array _ ih => exact .array ih
  | object hkeys _ ih => exact .object hkeys ih

theorem Equiv.refl {p : Number → Prop} {a : Json} (h : Legible p a) : Equiv a a := by
  induction h with
  | null => exact .null
  | bool b => exact .bool b
  | number => exact .number _
  | string s => exact .string s
  | array _ ih => exact equiv_array_iff.mpr ⟨_, rfl, List.forall₂_same.mpr ih⟩
  | object _ _ ih =>
    refine .object (fun _ => rfl) fun key x y hx hy => ?_
    rw [← Option.some.inj (hx.symm.trans hy)]
    exact ih _ (mem_of_lookup_eq_some hx)

/-- The values at one key of two objects. -/
theorem Equiv.sameField {xs ys : Fields} (h : Equiv (.object xs) (.object ys)) (key : String) :
    SameField (xs.lookup key) (ys.lookup key) := by
  obtain ⟨zs, hzs, hsame⟩ := equiv_object_iff.mp h
  rw [Json.object.inj hzs]
  exact hsame key

/-- Lists whose items are written in JSON, each in its own way. -/
theorem Equiv.eq_of_array {α : Type} {toJson : α → Json} {xs ys : List α}
    (hinj : ∀ x y, Equiv (toJson x) (toJson y) → x = y)
    (h : Equiv (.array (xs.map toJson)) (.array (ys.map toJson))) : xs = ys := by
  obtain ⟨zs, hzs, hall⟩ := equiv_array_iff.mp h
  rw [← Json.array.inj hzs, List.forall₂_map_left_iff, List.forall₂_map_right_iff] at hall
  have heq := hall.imp hinj
  rwa [List.forall₂_eq_eq_eq] at heq

/-- Adding one field to both objects. -/
theorem Equiv.append {xs ys : Fields} (h : Equiv (.object xs) (.object ys)) (key : String)
    {x : Json} (hx : Equiv x x) :
    Equiv (.object (xs ++ [(key, x)])) (.object (ys ++ [(key, x)])) := by
  rcases equiv_object_iff.mp h with ⟨zs, hzs, hsame⟩
  cases hzs
  refine equiv_object_iff.mpr ⟨_, rfl, fun other => ?_⟩
  rw [List.lookup_append, List.lookup_append]
  have hother := hsame other
  rcases hxs : xs.lookup other with _ | v <;> rcases hys : ys.lookup other with _ | w <;>
    rw [hxs, hys] at hother
  · rw [Option.none_or, List.lookup_cons]
    split
    · exact sameField_some_some.mpr hx
    · exact sameField_none_none
  · exact absurd hother (not_sameField_none_some w)
  · exact absurd hother (not_sameField_some_none v)
  · exact hother

theorem legible_strings {p : Number → Prop} (texts : List String) :
    Legible p (.array (texts.map .string)) := by
  refine .array fun x hx => ?_
  rcases List.mem_map.mp hx with ⟨s, _, rfl⟩
  exact .string s

theorem legible_array {p : Number → Prop} {α : Type} {toJson : α → Json} {items : List α}
    (h : ∀ a ∈ items, Legible p (toJson a)) : Legible p (.array (items.map toJson)) := by
  refine .array fun x hx => ?_
  rcases List.mem_map.mp hx with ⟨a, ha, rfl⟩
  exact h a ha

/-- Which form a value has. -/
def kind : Json → ℕ
  | .null => 0
  | .bool _ => 1
  | .number _ => 2
  | .string _ => 3
  | .array _ => 4
  | .object _ => 5

/-- The form that a character opens. -/
def opens (c : Char) : Option ℕ :=
  if c = 'n' then some 0
  else if c = 't' ∨ c = 'f' then some 1
  else if c.isDigit then some 2
  else if c = '"' then some 3
  else if c = '[' then some 4
  else if c = Char.ofNat 123 then some 5
  else none

section Values

variable {numberText : Number → String} {p : Number → Prop}

/-- The characters of the canonical form. -/
def text (numberText : Number → String) (a : Json) : List Char :=
  (canonicalize numberText a).toList

def keyLe (f g : String × Json) : Prop := List.le (utf16 f.1) (utf16 g.1)

instance : DecidableRel keyLe := fun f g => List.decidableLE (utf16 f.1) (utf16 g.1)

/-- A field as it stands in the form of its object. -/
def fieldText (numberText : Number → String) (f : String × Json) : List Char :=
  (quote f.1).toList ++ ':' :: text numberText f.2

theorem text_array (items : List Json) :
    text numberText (.array items) =
      '[' :: ([','].intercalate (items.map (text numberText)) ++ [']']) := by
  unfold text
  rw [canonicalize, canonicalItems_eq, writeArray]
  simp only [String.toList_append, String.toList_intercalate, List.map_map]
  rfl

theorem text_object (fields : Fields) :
    text numberText (.object fields) = Char.ofNat 123 ::
      ([','].intercalate ((fields.insertionSort keyLe).map (fieldText numberText)) ++
        [Char.ofNat 125]) := by
  have hsort : (fields.map fun f => (f.1, canonicalize numberText f.2)).insertionSort fieldLe =
      (fields.insertionSort keyLe).map fun f => (f.1, canonicalize numberText f.2) :=
    (List.map_insertionSort keyLe fieldLe (fun f => (f.1, canonicalize numberText f.2)) fields
      fun _ _ _ _ => Iff.rfl).symm
  unfold text
  rw [canonicalize, canonicalFields_eq, writeObject, hsort]
  simp only [String.toList_append, String.toList_intercalate, List.map_map]
  have hfield : (String.toList ∘ writeField ∘ fun f : String × Json =>
      (f.1, canonicalize numberText f.2)) = fieldText numberText := by
    funext f
    simp [writeField, fieldText, text, String.toList_append]
  rw [hfield]
  rfl

theorem text_string (s : String) : text numberText (.string s) = (quote s).toList := by
  unfold text
  rw [canonicalize]

/-- The first character of a value shows its form. -/
theorem opens_text (hnumerals : Numerals numberText p) {a : Json} (ha : Legible p a) :
    ∃ c cs, text numberText a = c :: cs ∧ opens c = some (kind a) := by
  cases ha with
  | null =>
    rw [text, canonicalize]
    exact ⟨'n', "ull".toList, rfl, rfl⟩
  | bool b =>
    rw [text, canonicalize]
    cases b with
    | false => exact ⟨'f', "alse".toList, rfl, rfl⟩
    | true => exact ⟨'t', "rue".toList, rfl, rfl⟩
  | @number n h =>
    have hne : text numberText (.number n) ≠ [] := by
      unfold text
      rw [canonicalize, ne_eq, String.toList_eq_nil_iff]
      exact hnumerals.nonempty n h
    obtain ⟨c, cs, hcs⟩ := List.exists_cons_of_ne_nil hne
    have hdigit : c.isDigit = true := by
      apply hnumerals.digits n h
      have hmem : c ∈ text numberText (.number n) := by
        rw [hcs]
        exact List.mem_cons_self
      unfold text at hmem
      rwa [canonicalize] at hmem
    have hother : ∀ d : Char, d.isDigit = false → c ≠ d := by
      intro d hd heq
      rw [heq, hd] at hdigit
      cases hdigit
    refine ⟨c, cs, hcs, ?_⟩
    unfold opens
    rw [if_neg (hother 'n' rfl), if_neg (not_or.mpr ⟨hother 't' rfl, hother 'f' rfl⟩), if_pos hdigit]
    rfl
  | string s =>
    rw [text_string, quote, String.toList_append, String.toList_append]
    exact ⟨'"', _, rfl, rfl⟩
  | array => exact ⟨'[', _, text_array _, rfl⟩
  | object => exact ⟨Char.ofNat 123, _, text_object _, rfl⟩

/-- Values whose texts begin alike have the same form. -/
theorem kind_eq (hnumerals : Numerals numberText p) {a b : Json} (ha : Legible p a)
    (hb : Legible p b) {rest rest' : List Char}
    (h : text numberText a ++ rest = text numberText b ++ rest') : kind a = kind b := by
  obtain ⟨c, cs, hc, hopen⟩ := opens_text hnumerals ha
  obtain ⟨d, ds, hd, hopen'⟩ := opens_text hnumerals hb
  rw [hc, hd] at h
  rw [(List.cons.inj h).1] at hopen
  exact Option.some.inj (hopen.symm.trans hopen')

/-- Digits end where something else begins. -/
theorem digits_split {xs ys rest rest' : List Char} (hx : ∀ c ∈ xs, c.isDigit = true)
    (hy : ∀ c ∈ ys, c.isDigit = true) (hrest : Stops rest) (hrest' : Stops rest')
    (h : xs ++ rest = ys ++ rest') : xs = ys ∧ rest = rest' := by
  have htake : ∀ {zs tail : List Char}, (∀ c ∈ zs, c.isDigit = true) → Stops tail →
      (zs ++ tail).takeWhile Char.isDigit = zs := by
    intro zs tail hzs htail
    rw [List.takeWhile_append_of_pos hzs]
    cases tail with
    | nil => simp
    | cons c cs => rw [List.takeWhile_cons_of_neg (by simp [htail c rfl]), List.append_nil]
  have hsame : xs = ys := by
    rw [← htake hx hrest, h, htake hy hrest']
  rw [hsame] at h
  exact ⟨hsame, List.append_cancel_left h⟩

/-- Sorting does not change what an object holds. -/
theorem lookup_insertionSort {fields : Fields} (hkeys : (fields.map Prod.fst).Nodup)
    (key : String) : (fields.insertionSort keyLe).lookup key = fields.lookup key := by
  have hperm := List.perm_insertionSort keyLe fields
  have hsorted : ((fields.insertionSort keyLe).map Prod.fst).Nodup :=
    (hperm.map Prod.fst).nodup_iff.mpr hkeys
  apply Option.ext
  intro x
  rw [lookup_eq_some_iff hsorted, lookup_eq_some_iff hkeys, hperm.mem_iff]

theorem sameField_of_forall₂ {xs ys : Fields}
    (h : List.Forall₂ (fun f g => f.1 = g.1 ∧ Equiv f.2 g.2) xs ys) (key : String) :
    SameField (xs.lookup key) (ys.lookup key) := by
  induction h with
  | nil => exact sameField_none_none
  | @cons f g xs ys hfg _ ih =>
    rw [List.lookup_cons, List.lookup_cons, hfg.1]
    split
    · exact sameField_some_some.mpr hfg.2
    · exact ih

/-- The form of a value says where it ends, and up to the order of fields it is the form of no
other value. -/
theorem delimited_text (hnumerals : Numerals numberText p) {a : Json} (ha : Legible p a) :
    ∀ b, Legible p b → Delimited (text numberText) Equiv a b := by
  induction ha with
  | null =>
    intro b hb rest rest' hrest hrest' h
    have hkind := kind_eq hnumerals .null hb h
    cases hb with
    | null => exact ⟨.null, List.append_cancel_left h⟩
    | _ => simp [kind] at hkind
  | bool x =>
    intro b hb rest rest' hrest hrest' h
    have hkind := kind_eq hnumerals (.bool x) hb h
    cases hb with
    | bool y =>
      have hopen : ∀ z, text numberText (.bool z) = (if z then "true" else "false").toList := by
        intro z
        rw [text, canonicalize]
      rw [hopen, hopen] at h
      cases x <;> cases y
      · exact ⟨.bool _, List.append_cancel_left h⟩
      · cases (List.cons.inj h).1
      · cases (List.cons.inj h).1
      · exact ⟨.bool _, List.append_cancel_left h⟩
    | _ => simp [kind] at hkind
  -- a number ends where no digit follows, which a delimiter is not
  | @number m hm =>
    intro b hb rest rest' hrest hrest' h
    have hkind := kind_eq hnumerals (.number hm) hb h
    cases hb with
    | @number n hn =>
      have htext : ∀ k, text numberText (.number k) = (numberText k).toList := by
        intro k
        rw [text, canonicalize]
      rw [htext, htext] at h
      obtain ⟨hsame, htail⟩ := digits_split (hnumerals.digits m hm) (hnumerals.digits n hn) hrest
        hrest' h
      have heq := hnumerals.injective m n hm hn (String.toList_inj.mp hsame)
      exact ⟨heq ▸ .number m, htail⟩
    | _ => simp [kind] at hkind
  | string s =>
    intro b hb rest rest' hrest hrest' h
    have hkind := kind_eq hnumerals (.string s) hb h
    cases hb with
    | string t =>
      rw [text_string, text_string] at h
      obtain ⟨heq, htail⟩ := quote_split h
      exact ⟨heq ▸ .string s, htail⟩
    | _ => simp [kind] at hkind
  -- the items are told apart one after the other, up to the bracket that opens no value
  | @array items hitems ih =>
    intro b hb rest rest' hrest hrest' h
    have hkind := kind_eq hnumerals (.array hitems) hb h
    cases hb with
    | @array items' hitems' =>
      rw [text_array, text_array] at h
      simp only [List.cons_append, List.append_assoc, List.nil_append, List.cons.injEq,
        true_and] at h
      have hopen : ∀ x ∈ items ++ items', ∃ c cs, text numberText x = c :: cs ∧ c ≠ ']' := by
        intro x hx
        have hlegible : Legible p x :=
          (List.mem_append.mp hx).elim (hitems x) (hitems' x)
        obtain ⟨c, cs, htext, hopens⟩ := opens_text hnumerals hlegible
        refine ⟨c, cs, htext, fun hc => ?_⟩
        rw [hc] at hopens
        cases hopens
      obtain ⟨hall, htail⟩ := separated_split (by decide) rfl hopen
        (fun x hx y hy => ih x hx y (hitems' y hy)) h
      exact ⟨equiv_array_iff.mpr ⟨items', rfl, hall⟩, htail⟩
    | _ => simp [kind] at hkind
  | @object fields hkeys hfields ih =>
    intro b hb rest rest' hrest hrest' h
    have hkind := kind_eq hnumerals (.object hkeys hfields) hb h
    cases hb with
    | @object fields' hkeys' hfields' =>
      rw [text_object, text_object] at h
      simp only [List.cons_append, List.append_assoc, List.nil_append, List.cons.injEq,
        true_and] at h
      have hopen : ∀ f ∈ fields.insertionSort keyLe ++ fields'.insertionSort keyLe,
          ∃ c cs, fieldText numberText f = c :: cs ∧ c ≠ Char.ofNat 125 := by
        intro f _
        rw [fieldText, quote, String.toList_append, String.toList_append]
        exact ⟨'"', _, rfl, by decide⟩
      -- a member ends with its value, and its key is quoted
      have hparts : ∀ f ∈ fields.insertionSort keyLe, ∀ g ∈ fields'.insertionSort keyLe,
          Delimited (fieldText numberText) (fun f g => f.1 = g.1 ∧ Equiv f.2 g.2) f g := by
        intro f hf g hg tail tail' htail htail' hfg
        rw [List.mem_insertionSort] at hf hg
        unfold fieldText at hfg
        rw [List.append_assoc, List.append_assoc] at hfg
        obtain ⟨hkey, hcolon⟩ := quote_split hfg
        obtain ⟨hvalue, hrest⟩ := ih f hf g.2 (hfields' g hg) _ _ htail htail'
          (List.cons.inj hcolon).2
        exact ⟨⟨hkey, hvalue⟩, hrest⟩
      obtain ⟨hall, htail⟩ := separated_split (by decide) rfl hopen hparts h
      -- the members agree in the order of their keys, so they agree key by key
      refine ⟨equiv_object_iff.mpr ⟨fields', rfl, fun key => ?_⟩, htail⟩
      have hsame := sameField_of_forall₂ hall key
      rwa [lookup_insertionSort hkeys, lookup_insertionSort hkeys'] at hsame
    | _ => simp [kind] at hkind

/-- Values with one canonical form are the same value. -/
theorem Equiv.of_canonicalize_eq (hnumerals : Numerals numberText p) {a b : Json}
    (ha : Legible p a) (hb : Legible p b)
    (h : canonicalize numberText a = canonicalize numberText b) : Equiv a b := by
  have hstops : Stops [] := fun c hc => by cases hc
  have htext : text numberText a ++ [] = text numberText b ++ [] := by
    rw [text, text, h]
  exact (delimited_text hnumerals ha b hb [] [] hstops hstops htext).1

end Values

end Json
