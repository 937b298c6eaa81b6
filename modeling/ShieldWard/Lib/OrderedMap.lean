import ShieldWard.Lib.Fallible
import Mathlib.Data.List.Nodup
import Mathlib.Data.List.Basic

/-!
# Insertion-ordered finite maps

The map type of ECMAScript: keys are unique, iteration goes in insertion order, setting an
existing key keeps its place and setting a new one appends it. Uniqueness of the keys is a
field, so the lookup of a key is a matter of membership (`get_eq_some_iff`) and the laws of
the operations follow from it.
-/

/-- Entries in insertion order, no key twice. -/
structure OrderedMap (K V : Type*) where
  entries : List (K × V)
  nodup : (entries.map Prod.fst).Nodup

namespace OrderedMap

variable {K V : Type*}

/-- Equal entries make equal maps. -/
@[ext] theorem ext {m m' : OrderedMap K V} (h : m.entries = m'.entries) : m = m' := by
  cases m; cases m'; cases h; rfl

def empty : OrderedMap K V := ⟨[], List.nodup_nil⟩

def size (m : OrderedMap K V) : ℕ := m.entries.length

/-- The entries that a predicate keeps, in their order. -/
def filter (m : OrderedMap K V) (p : K × V → Bool) : OrderedMap K V where
  entries := m.entries.filter p
  nodup := m.nodup.sublist (List.filter_sublist.map Prod.fst)

@[simp] theorem mem_filter {m : OrderedMap K V} {p : K × V → Bool} {e : K × V} :
    e ∈ (m.filter p).entries ↔ e ∈ m.entries ∧ p e = true := List.mem_filter

theorem size_filter_le (m : OrderedMap K V) (p : K × V → Bool) :
    (m.filter p).size ≤ m.size := List.length_filter_le p m.entries

/-- Two entries of one key are the same entry. -/
theorem snd_eq_of_mem {m : OrderedMap K V} {k : K} {v v' : V}
    (h : (k, v) ∈ m.entries) (h' : (k, v') ∈ m.entries) : v = v' :=
  congrArg Prod.snd (List.inj_on_of_nodup_map m.nodup h h' rfl)

variable [DecidableEq K]

def get (m : OrderedMap K V) (k : K) : Option V :=
  (m.entries.find? fun e => e.1 = k).map Prod.snd

def has (m : OrderedMap K V) (k : K) : Bool := (m.get k).isSome

def delete (m : OrderedMap K V) (k : K) : OrderedMap K V := m.filter fun e => e.1 ≠ k

theorem get_eq_some_iff {m : OrderedMap K V} {k : K} {v : V} :
    m.get k = some v ↔ (k, v) ∈ m.entries := by
  constructor
  · intro h
    obtain ⟨⟨k', v'⟩, hf, rfl⟩ := Option.map_eq_some_iff.mp h
    have hk : k' = k := by simpa using List.find?_some hf
    exact hk ▸ List.mem_of_find?_eq_some hf
  · intro h
    cases hf : m.entries.find? fun e => e.1 = k with
    | none => simpa using List.find?_eq_none.mp hf _ h
    | some e =>
      have he : e.1 = k := by simpa using List.find?_some hf
      have hm : (k, e.2) ∈ m.entries := he ▸ List.mem_of_find?_eq_some hf
      simp [get, hf, snd_eq_of_mem hm h]

theorem get_eq_none_iff {m : OrderedMap K V} {k : K} :
    m.get k = none ↔ ∀ v, (k, v) ∉ m.entries := by
  simp only [Option.eq_none_iff_forall_ne_some, ne_eq, get_eq_some_iff]

theorem has_iff {m : OrderedMap K V} {k : K} : m.has k = true ↔ ∃ v, m.get k = some v := by
  rw [has, Option.isSome_iff_exists]

theorem not_mem_keys_of_get {m : OrderedMap K V} {k : K} (h : m.get k = none) :
    k ∉ m.entries.map Prod.fst := by
  rintro hk
  obtain ⟨⟨k', v⟩, hm, rfl⟩ := List.mem_map.mp hk
  exact get_eq_none_iff.mp h v hm

/-- The entries after a `set`: the old value replaced in place, or the new entry at the end. -/
def setEntries (m : OrderedMap K V) (k : K) (v : V) : List (K × V) :=
  if m.has k then m.entries.map fun e => if e.1 = k then (k, v) else e
  else m.entries ++ [(k, v)]

theorem nodup_setEntries (m : OrderedMap K V) (k : K) (v : V) :
    ((m.setEntries k v).map Prod.fst).Nodup := by
  unfold setEntries
  split
  · have hkeys : (m.entries.map fun e => if e.1 = k then (k, v) else e).map Prod.fst
        = m.entries.map Prod.fst := by
      rw [List.map_map]
      refine List.map_congr_left fun e _ => ?_
      by_cases he : e.1 = k <;> simp [he]
    rw [hkeys]
    exact m.nodup
  · next h =>
    have hk : m.get k = none := by simpa [has] using h
    rw [List.map_append, List.nodup_append]
    refine ⟨m.nodup, List.nodup_singleton k, ?_⟩
    rintro a ha b hb rfl
    rw [List.map_singleton, List.mem_singleton] at hb
    subst hb
    exact not_mem_keys_of_get hk ha

def set (m : OrderedMap K V) (k : K) (v : V) : OrderedMap K V where
  entries := m.setEntries k v
  nodup := m.nodup_setEntries k v

theorem mem_set {m : OrderedMap K V} {k : K} {v : V} {e : K × V} :
    e ∈ (m.set k v).entries ↔ e = (k, v) ∨ (e ∈ m.entries ∧ e.1 ≠ k) := by
  simp only [set, setEntries]
  split
  · next h =>
    obtain ⟨w, hw⟩ := has_iff.mp h
    have hw := get_eq_some_iff.mp hw
    constructor
    · intro he
      obtain ⟨e', he', rfl⟩ := List.mem_map.mp he
      by_cases hk : e'.1 = k
      · simp [hk]
      · simp [hk, he']
    · rintro (rfl | ⟨he, hk⟩)
      · exact List.mem_map.mpr ⟨(k, w), hw, by simp⟩
      · exact List.mem_map.mpr ⟨e, he, by simp [hk]⟩
  · next h =>
    have hk : m.get k = none := by simpa [has] using h
    constructor
    · intro he
      rcases List.mem_append.mp he with he | he
      · exact .inr ⟨he, fun hek => get_eq_none_iff.mp hk e.2 (hek ▸ he)⟩
      · exact .inl (List.mem_singleton.mp he)
    · rintro (rfl | ⟨he, -⟩)
      · simp
      · simp [he]

@[simp] theorem get_empty (k : K) : (empty : OrderedMap K V).get k = none := rfl

@[simp] theorem get_set_self (m : OrderedMap K V) (k : K) (v : V) :
    (m.set k v).get k = some v :=
  get_eq_some_iff.mpr (mem_set.mpr (.inl rfl))

theorem get_set_of_ne (m : OrderedMap K V) {k k' : K} (v : V) (h : k' ≠ k) :
    (m.set k v).get k' = m.get k' := by
  ext w
  simp only [get_eq_some_iff, mem_set]
  constructor
  · rintro (he | ⟨he, -⟩)
    · exact absurd (congrArg Prod.fst he) h
    · exact he
  · exact fun he => .inr ⟨he, h⟩

theorem get_set (m : OrderedMap K V) (k k' : K) (v : V) :
    (m.set k v).get k' = if k' = k then some v else m.get k' := by
  split
  · next h => rw [h, get_set_self]
  · next h => exact get_set_of_ne m v h

theorem get_filter (m : OrderedMap K V) (p : K × V → Bool) (k : K) :
    (m.filter p).get k = (m.get k).filter fun v => p (k, v) := by
  ext v
  rw [get_eq_some_iff, mem_filter, Option.filter_eq_some_iff, get_eq_some_iff]

theorem get_delete (m : OrderedMap K V) (k k' : K) :
    (m.delete k).get k' = if k' = k then none else m.get k' := by
  rw [delete, get_filter]
  by_cases h : k' = k
  · simp [h]
  · cases m.get k' <;> simp [h]

/-- Setting a key to the value it has changes nothing. -/
theorem set_eq_self {m : OrderedMap K V} {k : K} {v : V} (h : m.get k = some v) :
    m.set k v = m := by
  ext1
  have hhas : m.has k = true := has_iff.mpr ⟨v, h⟩
  have hid : ∀ e ∈ m.entries, (if e.1 = k then (k, v) else e) = e := by
    intro e he
    split
    · next hek =>
      have hv : (k, e.2) ∈ m.entries := hek ▸ he
      rw [← snd_eq_of_mem hv (get_eq_some_iff.mp h), ← hek]
    · rfl
  simp only [set, setEntries, hhas, if_true]
  exact (List.map_congr_left hid).trans (List.map_id m.entries)

/-- Setting a key that is present keeps the size; a new key adds one. -/
theorem size_set (m : OrderedMap K V) (k : K) (v : V) :
    (m.set k v).size = if m.has k then m.size else m.size + 1 := by
  simp only [size, set, setEntries]
  split <;> simp

/-! ## Counting entries -/

/-- The entries of one key. -/
theorem filter_key (m : OrderedMap K V) (k : K) :
    m.entries.filter (fun e => e.1 = k) = ((m.get k).map (k, ·)).toList := by
  obtain ⟨entries, hnodup⟩ := m
  unfold get
  dsimp only
  induction entries with
  | nil => rfl
  | cons e entries ih =>
    rw [List.map_cons, List.nodup_cons] at hnodup
    by_cases h : e.1 = k
    · -- no other entry has the key
      have hrest : entries.filter (fun e => e.1 = k) = [] := by
        rw [List.filter_eq_nil_iff]
        intro e' he' heq
        apply hnodup.1
        rw [h, ← of_decide_eq_true heq]
        exact List.mem_map_of_mem he'
      rw [List.filter_cons_of_pos (by simp [h]), List.find?_cons_of_pos (by simp [h]), hrest, ← h]
      rfl
    · rw [List.filter_cons_of_neg (by simp [h]), List.find?_cons_of_neg (by simp [h])]
      exact ih hnodup.2

theorem delete_set (m : OrderedMap K V) (k : K) (v : V) : (m.set k v).delete k = m.delete k := by
  ext1
  show List.filter _ (m.setEntries k v) = List.filter _ m.entries
  unfold setEntries
  split
  · induction m.entries with
    | nil => rfl
    | cons e entries ih =>
      rw [List.map_cons]
      by_cases h : e.1 = k
      · rw [List.filter_cons_of_neg (by simp [h]), List.filter_cons_of_neg (by simp [h])]
        exact ih
      · rw [if_neg h, List.filter_cons_of_pos (by simp [h]), List.filter_cons_of_pos (by simp [h]),
          ih]
  · rw [List.filter_append, List.filter_cons_of_neg (by simp)]
    exact List.append_nil _

/-- The entry of a key counts by itself, and the others are those that a `delete` leaves. -/
theorem countP_eq (m : OrderedMap K V) (p : K × V → Bool) (k : K) :
    m.entries.countP p =
      (m.delete k).entries.countP p + ((m.get k).map (k, ·)).toList.countP p := by
  rw [← filter_key, List.countP_eq_countP_filter_add m.entries p fun e => e.1 ≠ k]
  congr 2
  exact List.filter_congr fun e _ => by simp

/-! ## Maps built from a list

A fold that sets the key of each item to its value, or fails. -/

section Build

variable {ε α : Type} {K V : Type} [DecidableEq K]
  {f : OrderedMap K V → α → Except ε (OrderedMap K V)} (key : α → K) (value : α → Option V)

/-- A fold that refuses a key that is present takes only new and different keys. -/
theorem keys_of_foldlM
    (hstep : ∀ m x m', f m x = .ok m' → m.get (key x) = none ∧
      ∃ v, m' = m.set (key x) v)
    {xs : List α} {m m' : OrderedMap K V} (h : xs.foldlM f m = .ok m') :
    (xs.map key).Nodup ∧ ∀ x ∈ xs, m.get (key x) = none := by
  induction xs generalizing m with
  | nil => simp
  | cons x xs ih =>
    rw [List.foldlM_cons] at h
    have ⟨next, hnext, hrest⟩ := Except.bind_eq_ok_iff.mp h
    have ⟨hnew, v, hset⟩ := hstep m x next hnext
    have ⟨hnodup, hfresh⟩ := ih hrest
    rw [hset] at hfresh
    have hne : ∀ y ∈ xs, key y ≠ key x := by
      intro y hy heq
      have hnone := hfresh y hy
      rw [heq, get_set_self] at hnone
      cases hnone
    refine ⟨List.nodup_cons.mpr ⟨?_, hnodup⟩, ?_⟩
    · intro hmem
      rcases List.mem_map.mp hmem with ⟨y, hy, heq⟩
      exact hne y hy heq
    · intro y hy
      rcases List.mem_cons.mp hy with rfl | hy
      · exact hnew
      · rw [← get_set_of_ne m v (hne y hy)]
        exact hfresh y hy

/-- Over new and different keys the fold succeeds when every item has a value. -/
theorem foldlM_ok_iff
    (hstep : ∀ m x, m.get (key x) = none →
      ∀ m', f m x = .ok m' ↔ ∃ v, value x = some v ∧ m' = m.set (key x) v)
    {xs : List α} {m : OrderedMap K V} (hnodup : (xs.map key).Nodup)
    (hfresh : ∀ x ∈ xs, m.get (key x) = none) :
    (∃ m', xs.foldlM f m = .ok m') ↔ ∀ x ∈ xs, (value x).isSome = true := by
  induction xs generalizing m with
  | nil => simp [pure, Except.pure]
  | cons x xs ih =>
    have hne : ∀ y ∈ xs, key y ≠ key x := by
      intro y hy heq
      rw [List.map_cons, List.nodup_cons] at hnodup
      exact hnodup.1 (heq ▸ List.mem_map_of_mem hy)
    have hfresh' : ∀ v, ∀ y ∈ xs, (m.set (key x) v).get (key y) = none := by
      intro v y hy
      rw [get_set_of_ne m v (hne y hy)]
      exact hfresh y (List.mem_cons_of_mem x hy)
    have hnodup' : (xs.map key).Nodup := (List.nodup_cons.mp hnodup).2
    have hfirst := hstep m x (hfresh x List.mem_cons_self)
    simp only [List.foldlM_cons, Except.bind_eq_ok_iff, List.forall_mem_cons]
    refine ⟨fun h => ?_, fun h => ?_⟩
    · rcases h with ⟨m', next, hnext, hrest⟩
      obtain ⟨v, hv, hset⟩ := (hfirst next).mp hnext
      rw [hset] at hrest
      exact ⟨by rw [hv]; rfl, (ih hnodup' (hfresh' v)).mp ⟨m', hrest⟩⟩
    · obtain ⟨v, hv⟩ := Option.isSome_iff_exists.mp h.1
      obtain ⟨m', hm'⟩ := (ih hnodup' (hfresh' v)).mpr h.2
      exact ⟨m', m.set (key x) v, (hfirst _).mpr ⟨v, hv, rfl⟩, hm'⟩

/-- The entries that the fold makes. -/
theorem get_foldlM
    (hstep : ∀ m x, m.get (key x) = none →
      ∀ m', f m x = .ok m' ↔ ∃ v, value x = some v ∧ m' = m.set (key x) v)
    {xs : List α} {m m' : OrderedMap K V} (hnodup : (xs.map key).Nodup)
    (hfresh : ∀ x ∈ xs, m.get (key x) = none) (h : xs.foldlM f m = .ok m') {k : K} {v : V} :
    m'.get k = some v ↔ m.get k = some v ∨ ∃ x ∈ xs, key x = k ∧ value x = some v := by
  induction xs generalizing m with
  | nil =>
    have hm : m = m' := Except.ok.inj h
    simp [hm]
  | cons x xs ih =>
    rw [List.foldlM_cons] at h
    have ⟨next, hnext, hrest⟩ := Except.bind_eq_ok_iff.mp h
    have hnew := hfresh x List.mem_cons_self
    have ⟨w, hw, hset⟩ := (hstep m x hnew next).mp hnext
    have hkeys := List.nodup_cons.mp hnodup
    have hfresh' : ∀ y ∈ xs, next.get (key y) = none := by
      intro y hy
      have hne : key y ≠ key x := fun heq => hkeys.1 (heq ▸ List.mem_map_of_mem hy)
      rw [hset, get_set_of_ne m w hne]
      exact hfresh y (List.mem_cons_of_mem x hy)
    rw [ih hkeys.2 hfresh' hrest, hset, get_set]
    by_cases heq : k = key x
    · rw [if_pos heq, heq, hnew]
      simp only [List.exists_mem_cons_iff, true_and, hw, reduceCtorEq, false_or]
    · rw [if_neg heq]
      simp only [List.exists_mem_cons_iff, Ne.symm heq, false_and, false_or]

end Build

end OrderedMap
