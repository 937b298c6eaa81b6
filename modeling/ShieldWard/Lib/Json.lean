import ShieldWard.Lib.Bytes
import ShieldWard.Lib.Ecma
import Mathlib.Data.List.Sort
import Mathlib.Data.List.Forall2
import Mathlib.Data.Option.Basic

/-!
# JSON values and their canonical form

A JSON value as a program holds it after parsing: the fields of an object are a list without
repeated keys (`WellFormed`), and two values are the same value (`Equiv`) when their objects
hold the same fields, in whatever order. `canonicalize` writes the RFC 8785 form: no white
space, the fields of an object sorted by the UTF-16 code units of their keys. It does not
depend on the order of fields (`Equiv.canonicalize_eq`).
-/

open Ecma

inductive Json
  | null
  | bool (b : Bool)
  | number (n : Number)
  | string (s : String)
  | array (items : List Json)
  | object (fields : List (String × Json))

namespace Json

/-- The fields of an object. -/
abbrev Fields := List (String × Json)

/-- No object in the value holds a key twice. -/
inductive WellFormed : Json → Prop
  | null : WellFormed .null
  | bool (b : Bool) : WellFormed (.bool b)
  | number (n : Number) : WellFormed (.number n)
  | string (s : String) : WellFormed (.string s)
  | array {items : List Json} (h : ∀ x ∈ items, WellFormed x) : WellFormed (.array items)
  | object {fields : Fields} (hkeys : (fields.map Prod.fst).Nodup)
      (h : ∀ f ∈ fields, WellFormed f.2) : WellFormed (.object fields)

/-- The same value: equal arrays item by item, objects with the same fields. -/
inductive Equiv : Json → Json → Prop
  | null : Equiv .null .null
  | bool (b : Bool) : Equiv (.bool b) (.bool b)
  | number (n : Number) : Equiv (.number n) (.number n)
  | string (s : String) : Equiv (.string s) (.string s)
  | array {xs ys : List Json} (hlength : xs.length = ys.length)
      (h : ∀ p ∈ xs.zip ys, Equiv p.1 p.2) : Equiv (.array xs) (.array ys)
  | object {xs ys : Fields}
      (hkeys : ∀ key, (xs.lookup key).isSome = (ys.lookup key).isSome)
      (h : ∀ key x y, xs.lookup key = some x → ys.lookup key = some y → Equiv x y) :
      Equiv (.object xs) (.object ys)

/-! ## Fields -/

/-- An array of texts has no objects, so there is nothing that could have a key twice. -/
theorem wellFormed_strings (texts : List String) : WellFormed (.array (texts.map .string)) := by
  refine .array fun x hx => ?_
  rcases List.mem_map.mp hx with ⟨s, _, rfl⟩
  exact .string s

theorem wellFormed_array {α : Type} {toJson : α → Json} (h : ∀ a, WellFormed (toJson a))
    (items : List α) : WellFormed (.array (items.map toJson)) := by
  refine .array fun x hx => ?_
  rcases List.mem_map.mp hx with ⟨a, _, rfl⟩
  exact h a

section Lookup

variable {α β : Type*}

/-- What a lookup finds is a member. -/
theorem mem_of_lookup_eq_some {fields : List (String × α)} {key : String} {x : α}
    (h : fields.lookup key = some x) : (key, x) ∈ fields := by
  induction fields with
  | nil => simp at h
  | cons f fields ih =>
    rw [List.lookup_cons] at h
    split at h
    · next hk =>
      have hkey : key = f.1 := by simpa using hk
      have hx : f.2 = x := Option.some.inj h
      simp [hkey, ← hx]
    · exact List.mem_cons_of_mem _ (ih h)

/-- Without repeated keys, the lookup of a key finds every field of it. -/
theorem lookup_eq_some_iff {fields : List (String × α)} (hkeys : (fields.map Prod.fst).Nodup)
    {key : String} {x : α} : fields.lookup key = some x ↔ (key, x) ∈ fields := by
  refine ⟨mem_of_lookup_eq_some, fun hmem => ?_⟩
  induction fields with
  | nil => simp at hmem
  | cons f fields ih =>
    have hnodup := List.nodup_cons.mp hkeys
    rw [List.lookup_cons]
    rcases List.mem_cons.mp hmem with hf | hmem
    · simp [← hf]
    · have hne : key ≠ f.1 := by
        intro heq
        apply hnodup.1
        rw [← heq]
        exact List.mem_map_of_mem (f := Prod.fst) hmem
      have hbeq : (key == f.1) = false := by simpa using hne
      rw [hbeq]
      exact ih hnodup.2 hmem

/-- A key that is there is found. -/
theorem lookup_isSome_iff {fields : List (String × α)} {key : String} :
    (fields.lookup key).isSome = true ↔ key ∈ fields.map Prod.fst := by
  induction fields with
  | nil => simp
  | cons f fields ih =>
    rw [List.lookup_cons]
    by_cases hk : key = f.1
    · simp [hk]
    · have hbeq : (key == f.1) = false := by simpa using hk
      rw [hbeq, List.map_cons, List.mem_cons]
      simp [ih, hk]

/-- A map over the values goes through a lookup. -/
theorem lookup_map_snd (g : α → β) (fields : List (String × α)) (key : String) :
    (fields.map fun f => (f.1, g f.2)).lookup key = (fields.lookup key).map g := by
  induction fields with
  | nil => rfl
  | cons f fields ih =>
    rw [List.map_cons, List.lookup_cons, List.lookup_cons, ih]
    by_cases hk : (key == f.1) = true <;> simp [hk]

/-- Erasing a key hides it from lookups and no other one. -/
theorem lookup_filter_ne (fields : List (String × α)) (erased key : String) :
    (fields.filter fun f => f.1 ≠ erased).lookup key =
      if key = erased then none else fields.lookup key := by
  induction fields with
  | nil => simp
  | cons f fields ih =>
    rw [List.filter_cons, List.lookup_cons]
    by_cases hf : f.1 = erased
    · rw [if_neg (by simpa using hf), ih]
      by_cases hk : key = erased
      · rw [if_pos hk, if_pos hk]
      · have hbeq : (key == f.1) = false := by simpa [hf] using hk
        rw [if_neg hk, if_neg hk, hbeq]
    · rw [if_pos (by simpa using hf), List.lookup_cons, ih]
      by_cases hk : key = f.1
      · have hne : key ≠ erased := hk ▸ hf
        simp [hk, hf]
      · have hbeq : (key == f.1) = false := by simpa using hk
        rw [hbeq]

/-- Two lists of fields with the same lookups, neither with a repeated key, are permutations
of each other. -/
theorem perm_of_lookup_eq {xs ys : List (String × α)} (hx : (xs.map Prod.fst).Nodup)
    (hy : (ys.map Prod.fst).Nodup) (h : ∀ key, xs.lookup key = ys.lookup key) : xs.Perm ys := by
  apply (List.perm_ext_iff_of_nodup hx.of_map hy.of_map).mpr
  intro f
  rw [← lookup_eq_some_iff hx, ← lookup_eq_some_iff hy, h]

end Lookup

/-! ## Values up to the order of fields -/

/-- The same optional property: absent in both objects, or the same value in both. -/
def SameField : Option Json → Option Json → Prop := Option.Rel Equiv

@[simp] theorem sameField_none_none : SameField none none := Option.Rel.none

@[simp] theorem not_sameField_some_none (x : Json) : ¬ SameField (some x) none := nofun

@[simp] theorem not_sameField_none_some (x : Json) : ¬ SameField none (some x) := nofun

@[simp] theorem sameField_some_some {x y : Json} : SameField (some x) (some y) ↔ Equiv x y :=
  Option.rel_some_some

/-- A member that is missing on one side is missing on the other. -/
theorem sameField_none_iff {v : Option Json} : SameField none v ↔ v = none := by
  cases v <;> simp

theorem sameField_some_iff {x : Json} {v : Option Json} :
    SameField (some x) v ↔ ∃ y, v = some y ∧ Equiv x y := by
  cases v <;> simp

@[simp] theorem equiv_bool_iff {b : Bool} {y : Json} : Equiv (.bool b) y ↔ y = .bool b := by
  refine ⟨fun h => ?_, fun h => h ▸ Equiv.bool b⟩
  cases h
  rfl

@[simp] theorem equiv_number_iff {n : Number} {y : Json} :
    Equiv (.number n) y ↔ y = .number n := by
  refine ⟨fun h => ?_, fun h => h ▸ Equiv.number n⟩
  cases h
  rfl

@[simp] theorem equiv_string_iff {s : String} {y : Json} :
    Equiv (.string s) y ↔ y = .string s := by
  refine ⟨fun h => ?_, fun h => h ▸ Equiv.string s⟩
  cases h
  rfl

/-- Arrays are compared item by item, in order. -/
theorem equiv_array_iff {xs : List Json} {y : Json} :
    Equiv (.array xs) y ↔ ∃ ys, y = .array ys ∧ List.Forall₂ Equiv xs ys := by
  constructor
  · intro h
    cases h with | @array _ ys hlength h =>
    refine ⟨ys, rfl, List.forall₂_iff_zip.mpr ⟨hlength, fun {a b} hmem => h (a, b) hmem⟩⟩
  · intro h
    rcases h with ⟨ys, rfl, h⟩
    have hzip := List.forall₂_iff_zip.mp h
    exact .array hzip.1 fun p hp => hzip.2 hp

/-- Objects are compared key by key, in any order. -/
theorem equiv_object_iff {xs : Fields} {y : Json} :
    Equiv (.object xs) y ↔
      ∃ ys, y = .object ys ∧ ∀ key, SameField (xs.lookup key) (ys.lookup key) := by
  constructor
  · intro h
    cases h with | @object _ ys hkeys h =>
    refine ⟨ys, rfl, fun key => ?_⟩
    have hdom := hkeys key
    rcases hx : xs.lookup key with _ | x <;> rcases hy : ys.lookup key with _ | y
    · exact sameField_none_none
    · simp [hx, hy] at hdom
    · simp [hx, hy] at hdom
    · exact sameField_some_some.mpr (h key x y hx hy)
  · intro h
    rcases h with ⟨ys, rfl, h⟩
    apply Equiv.object
    · intro key
      have hkey := h key
      rcases hx : xs.lookup key with _ | x <;> rcases hy : ys.lookup key with _ | y <;>
        simp [hx, hy] at hkey ⊢
    · intro key x y hx hy
      have hkey := h key
      rwa [hx, hy, sameField_some_some] at hkey

/-- Objects whose keys all lie in one list are the same when they agree on that list. -/
theorem equiv_object_iff_of_keys {xs : Fields} {y : Json} (allowed : List String)
    (hxs : ∀ f ∈ xs, f.1 ∈ allowed) :
    Equiv (.object xs) y ↔
      ∃ ys, y = .object ys ∧ (∀ f ∈ ys, f.1 ∈ allowed) ∧
        ∀ key ∈ allowed, SameField (xs.lookup key) (ys.lookup key) := by
  have habsent : ∀ {zs : Fields} {key : String}, (∀ f ∈ zs, f.1 ∈ allowed) → key ∉ allowed →
      zs.lookup key = none := by
    intro zs key hzs hkey
    rw [← Option.not_isSome_iff_eq_none, lookup_isSome_iff]
    intro hmem
    rcases List.mem_map.mp hmem with ⟨f, hf, rfl⟩
    exact hkey (hzs f hf)
  rw [equiv_object_iff]
  constructor
  · intro h
    rcases h with ⟨ys, hy, h⟩
    refine ⟨ys, hy, fun f hf => ?_, fun key _ => h key⟩
    by_contra hnot
    -- a key outside the list would be one that the other object lacks
    have hkey := h f.1
    rw [habsent hxs hnot, sameField_none_iff] at hkey
    have hsome : (ys.lookup f.1).isSome = true :=
      lookup_isSome_iff.mpr (List.mem_map_of_mem (f := Prod.fst) hf)
    rw [hkey] at hsome
    exact Bool.noConfusion hsome
  · intro h
    rcases h with ⟨ys, hy, hys, h⟩
    refine ⟨ys, hy, fun key => ?_⟩
    by_cases hkey : key ∈ allowed
    · exact h key hkey
    · rw [habsent hxs hkey, habsent hys hkey]
      exact sameField_none_none

/-- Removing a field from both objects. -/
theorem Equiv.erase {xs ys : Fields} (h : Equiv (.object xs) (.object ys)) (erased : String) :
    Equiv (.object (xs.filter fun f => f.1 ≠ erased))
      (.object (ys.filter fun f => f.1 ≠ erased)) := by
  rcases equiv_object_iff.mp h with ⟨zs, hzs, hsame⟩
  cases hzs
  refine equiv_object_iff.mpr ⟨_, rfl, fun key => ?_⟩
  rw [lookup_filter_ne, lookup_filter_ne]
  split
  · exact sameField_none_none
  · exact hsame key

/-- Without one of its members an object is still well formed. -/
theorem WellFormed.erase {fields : Fields} (h : WellFormed (.object fields)) (erased : String) :
    WellFormed (.object (fields.filter fun f => f.1 ≠ erased)) := by
  cases h with | object hkeys hall =>
  refine .object (hkeys.sublist (List.filter_sublist.map Prod.fst)) fun f hf => ?_
  exact hall f (List.mem_of_mem_filter hf)

/-- The members of a well-formed object are well formed. -/
theorem WellFormed.of_lookup {fields : Fields} (h : WellFormed (.object fields)) {key : String}
    {x : Json} (hx : fields.lookup key = some x) : WellFormed x := by
  cases h with | object _ hall =>
  exact hall _ (mem_of_lookup_eq_some hx)

/-! ## The canonical form -/

/-- A character as it stands between the quotes of a string. -/
def escapeChar (c : Char) : List Char :=
  if c = '"' then ['\\', '"']
  else if c = '\\' then ['\\', '\\']
  else if c.toNat = 8 then ['\\', 'b']
  else if c.toNat = 9 then ['\\', 't']
  else if c.toNat = 10 then ['\\', 'n']
  else if c.toNat = 12 then ['\\', 'f']
  else if c.toNat = 13 then ['\\', 'r']
  else if c.toNat < 32 then
    ['\\', 'u', '0', '0', Bytes.hexDigit (c.toNat / 16), Bytes.hexDigit (c.toNat % 16)]
  else [c]

/-- The text of a string, which both quotes and escapes it. -/
def quote (s : String) : String :=
  "\"" ++ String.ofList (s.toList.flatMap escapeChar) ++ "\""

/-- The order of fields: by the code units of their keys. -/
def fieldLe (f g : String × String) : Prop := List.le (utf16 f.1) (utf16 g.1)

instance : DecidableRel fieldLe := fun f g => List.decidableLE (utf16 f.1) (utf16 g.1)

def writeField (f : String × String) : String := quote f.1 ++ ":" ++ f.2

def writeArray (items : List String) : String := "[" ++ ",".intercalate items ++ "]"

/-- The members in the order of their keys, by UTF-16 code units. -/
def writeObject (fields : List (String × String)) : String :=
  "\x7b" ++ ",".intercalate ((fields.insertionSort fieldLe).map writeField) ++ "\x7d"

mutual
/-- The RFC 8785 form of a value. `numberText` is the text of a number. -/
def canonicalize (numberText : Number → String) : Json → String
  | .null => "null"
  | .bool b => if b then "true" else "false"
  | .number n => numberText n
  | .string s => quote s
  | .array items => writeArray (canonicalItems numberText items)
  | .object fields => writeObject (canonicalFields numberText fields)

def canonicalItems (numberText : Number → String) : List Json → List String
  | [] => []
  | x :: xs => canonicalize numberText x :: canonicalItems numberText xs

def canonicalFields (numberText : Number → String) : Fields → List (String × String)
  | [] => []
  | (key, x) :: fields => (key, canonicalize numberText x) :: canonicalFields numberText fields
end

variable {numberText : Number → String}

/-- The recursion over the items is a map. -/
theorem canonicalItems_eq (items : List Json) :
    canonicalItems numberText items = items.map (canonicalize numberText) := by
  induction items with
  | nil => simp [canonicalItems]
  | cons x xs ih => simp [canonicalItems, ih]

/-- The recursion over the members is a map over the values. -/
theorem canonicalFields_eq (fields : Fields) :
    canonicalFields numberText fields =
      fields.map fun f => (f.1, canonicalize numberText f.2) := by
  induction fields with
  | nil => simp [canonicalFields]
  | cons f fields ih => simp [canonicalFields, ih]

instance : Std.Total fieldLe := ⟨fun f g => List.le_total (utf16 f.1) (utf16 g.1)⟩

instance : IsTrans (String × String) fieldLe := ⟨fun _ _ _ => List.le_trans⟩

/-- Objects with the same lookups are written alike. -/
theorem writeObject_congr {xs ys : List (String × String)} (hx : (xs.map Prod.fst).Nodup)
    (hy : (ys.map Prod.fst).Nodup) (h : ∀ key, xs.lookup key = ys.lookup key) :
    writeObject xs = writeObject ys := by
  have hperm : (xs.insertionSort fieldLe).Perm (ys.insertionSort fieldLe) :=
    (List.perm_insertionSort _ xs).trans
      ((perm_of_lookup_eq hx hy h).trans (List.perm_insertionSort _ ys).symm)
  have hsort : xs.insertionSort fieldLe = ys.insertionSort fieldLe := by
    refine hperm.eq_of_pairwise ?_ (List.pairwise_insertionSort _ xs)
      (List.pairwise_insertionSort _ ys)
    intro f g hf hg hfg hgf
    have hkey : f.1 = g.1 := utf16_injective (List.le_antisymm hfg hgf)
    have hf' : f ∈ ys := (List.perm_insertionSort _ ys).mem_iff.mp (hperm.mem_iff.mp hf)
    have hg' : g ∈ ys := (List.perm_insertionSort _ ys).mem_iff.mp hg
    exact List.inj_on_of_nodup_map hy hf' hg' hkey
  rw [writeObject, writeObject, hsort]

/-- The canonical form depends on the value only, not on the order of its fields. -/
theorem Equiv.canonicalize_eq {a b : Json} (h : Equiv a b) (ha : WellFormed a)
    (hb : WellFormed b) : canonicalize numberText a = canonicalize numberText b := by
  induction h with
  | null | bool | number | string => rfl
  | @array xs ys hlength _ ih =>
    cases ha with | array hxs =>
    cases hb with | array hys =>
    have hmap : xs.map (canonicalize numberText) = ys.map (canonicalize numberText) := by
      apply List.ext_getElem (by simpa using hlength)
      intro i hi hi'
      simp only [List.length_map] at hi hi'
      simp only [List.getElem_map]
      have hmem : (xs[i], ys[i]) ∈ xs.zip ys := by
        rw [← List.getElem_zip (h := by simpa using ⟨hi, hi'⟩)]
        exact List.getElem_mem _
      exact ih _ hmem (hxs _ (List.getElem_mem hi)) (hys _ (List.getElem_mem hi'))
    rw [canonicalize, canonicalize, canonicalItems_eq, canonicalItems_eq, hmap]
  | @object xs ys hkeys _ ih =>
    cases ha with | object hx hxs =>
    cases hb with | object hy hys =>
    rw [canonicalize, canonicalize, canonicalFields_eq, canonicalFields_eq]
    apply writeObject_congr
    · simpa [Function.comp_def] using hx
    · simpa [Function.comp_def] using hy
    · intro key
      rw [lookup_map_snd, lookup_map_snd]
      have hdom := hkeys key
      rcases hxk : xs.lookup key with _ | x
      · rw [hxk] at hdom
        have hyk : ys.lookup key = none := by simpa using hdom.symm
        rw [hyk]
      · rw [hxk] at hdom
        obtain ⟨y, hyk⟩ := Option.isSome_iff_exists.mp hdom.symm
        rw [hyk, Option.map_some, Option.map_some,
          ih key x y hxk hyk (hxs _ (mem_of_lookup_eq_some hxk))
            (hys _ (mem_of_lookup_eq_some hyk))]

end Json
