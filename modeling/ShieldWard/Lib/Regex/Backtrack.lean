import ShieldWard.Lib.Regex.Expr
import Mathlib.Logic.Function.Basic
import Mathlib.Tactic.Common

/-!
# Backtracking search

The search of a backtracking engine as the list of all its successes in the order in which
they are tried: the first element is what the engine returns, the later ones are what it
backtracks into. A repetition beyond its minimum refuses an iteration that consumes nothing,
which is why it ends; `exists_mem_results` shows that this loses no match.
-/

namespace Regex

/-- A position and the captured ranges. -/
structure State where
  pos : ℕ
  caps : ℕ → Option (ℕ × ℕ)

/-- A dialect whose back references compare characters by `same`. -/
structure Engine (σ α : Type*) extends Dialect σ α where
  same : α → α → Bool

section

variable {σ α : Type*}

/-- Forget the captures of the given groups. -/
def State.clear (x : State) (groups : List ℕ) : State :=
  { x with caps := fun k => if k ∈ groups then none else x.caps k }

/-- The states after the iterations of a repetition. `fuel` bounds the iterations. -/
def repeats (m : State → List State) (groups : List ℕ) (greedy : Bool) :
    ℕ → ℕ → Option ℕ → State → List State
  | 0, _, _, _ => []
  | fuel + 1, min, max, x =>
    if max = some 0 then [x]
    else
      let again := (m (x.clear groups)).flatMap fun y =>
        if min = 0 ∧ y.pos = x.pos then []
        else repeats m groups greedy fuel (min - 1) (max.map (· - 1)) y
      if min ≠ 0 then again else if greedy then again ++ [x] else x :: again

/-- The part of a text of length `n` from a position, `none` if it is shorter. -/
def slice (text : List α) (i n : ℕ) : Option (List α) :=
  if i + n ≤ text.length then some ((text.drop i).take n) else none

/-- The text at the position repeats the captured range. -/
def repeatsCapture (same : α → α → Bool) (text : List α) (cap : ℕ × ℕ) (i : ℕ) : Bool :=
  match slice text cap.1 (cap.2 - cap.1), slice text i (cap.2 - cap.1) with
  | some xs, some ys => (xs.zip ys).all fun (a, b) => same a b
  | _, _ => false

variable (E : Engine σ α) (text : List α)

/-- The successes of an expression from a state, in the order of the search. -/
def results : Expr σ → State → List State
  | .empty, x => [x]
  | .leaf s, x =>
    match text[x.pos]? with
    | some c => if E.matchesLeaf s c then [{ x with pos := x.pos + 1 }] else []
    | none => []
  | .anchor a, x => if a.holds text E.isWord x.pos then [x] else []
  | .seq r s, x => (results r x).flatMap (results s)
  | .alt r s, x => results r x ++ results s x
  | .rep r min max greedy, x =>
    repeats (results r) r.groups greedy (min + (text.length - x.pos) + 1) min max x
  | .group k r, x =>
    (results r x).map fun y => { y with caps := Function.update y.caps k (some (x.pos, y.pos)) }
  | .backref k, x =>
    match x.caps k with
    | none => [x]
    | some cap =>
      if repeatsCapture E.same text cap x.pos then [{ x with pos := x.pos + (cap.2 - cap.1) }]
      else []

/-- The first success at the first position that has one. -/
def exec (r : Expr σ) : Option State :=
  (List.range (text.length + 1)).findSome? fun i => (results E text r ⟨i, fun _ => none⟩).head?

/-- The search succeeds. -/
def test (r : Expr σ) : Bool := (exec E text r).isSome

variable {E text}

/-! ## The search finds exactly the matches -/

/-- The iterations of a repetition are steps of the repeated search. -/
theorem iterate_of_mem_repeats {m : State → List State} {groups : List ℕ} {greedy : Bool}
    {R : ℕ → ℕ → Prop} (hm : ∀ x y, y ∈ m x → R x.pos y.pos) :
    ∀ (fuel : ℕ) {min : ℕ} {max : Option ℕ} {x y : State},
      y ∈ repeats m groups greedy fuel min max x → (∀ k, max = some k → min ≤ k) →
      ∃ n, min ≤ n ∧ (∀ k, max = some k → n ≤ k) ∧ Iterate R n x.pos y.pos := by
  intro fuel
  induction fuel with
  | zero =>
    intro min max x y hy _
    simp [repeats] at hy
  | succ fuel ih =>
    intro min max x y hy hmax
    rw [repeats] at hy
    split at hy
    · next hzero =>
      obtain rfl := List.mem_singleton.mp hy
      refine ⟨0, hmax 0 hzero, fun k _ => Nat.zero_le k, rfl⟩
    · next hne =>
      -- one iteration, then the others with bounds that are lower by one
      have hagain : y ∈ ((m (x.clear groups)).flatMap fun z =>
          if min = 0 ∧ z.pos = x.pos then []
          else repeats m groups greedy fuel (min - 1) (max.map (· - 1)) z) →
          ∃ n, min ≤ n ∧ (∀ k, max = some k → n ≤ k) ∧ Iterate R n x.pos y.pos := by
        intro h
        obtain ⟨z, hz, hyz⟩ := List.mem_flatMap.mp h
        split at hyz
        · cases hyz
        · obtain ⟨n, hmin, hn, hit⟩ := ih hyz (by
            intro k hk
            obtain ⟨k', hk', rfl⟩ := Option.map_eq_some_iff.mp hk
            exact Nat.sub_le_sub_right (hmax k' hk') 1)
          refine ⟨n + 1, by omega, ?_, z.pos, hm (x.clear groups) z hz, hit⟩
          intro k hk
          have hk0 : k ≠ 0 := fun h0 => hne (h0 ▸ hk)
          have := hn (k - 1) (by rw [hk]; rfl)
          omega
      -- beyond the minimum it may stop here
      have hself : min = 0 → y = x →
          ∃ n, min ≤ n ∧ (∀ k, max = some k → n ≤ k) ∧ Iterate R n x.pos y.pos := by
        rintro rfl rfl
        exact ⟨0, le_rfl, fun k _ => Nat.zero_le k, rfl⟩
      simp only [ne_eq, ite_not] at hy
      split at hy
      · next hmin =>
        -- greedy and lazy differ in the order only
        split at hy
        · rcases List.mem_append.mp hy with hy | hy
          · exact hagain hy
          · exact hself hmin (List.mem_singleton.mp hy)
        · rcases List.mem_cons.mp hy with hy | hy
          · exact hself hmin hy
          · exact hagain hy
      · exact hagain hy

/-- Enough fuel finds every iteration within the bounds: an iteration beyond the minimum that
consumes nothing can be left out. -/
theorem exists_mem_repeats {m : State → List State} {groups : List ℕ} {greedy : Bool}
    {R : ℕ → ℕ → Prop} (len : ℕ)
    (hm : ∀ x j, x.pos ≤ len → R x.pos j → ∃ y ∈ m x, y.pos = j)
    (hR : ∀ i j, i ≤ len → R i j → i ≤ j ∧ j ≤ len) :
    ∀ (n fuel min : ℕ) (max : Option ℕ) {x : State} {j : ℕ}, x.pos ≤ len →
      min + (len - x.pos) < fuel → min ≤ n → (∀ k, max = some k → n ≤ k) →
      Iterate R n x.pos j → ∃ y ∈ repeats m groups greedy fuel min max x, y.pos = j := by
  intro n
  induction n with
  | zero =>
    intro fuel min max x j _ hfuel hmin _ hit
    obtain rfl : x.pos = j := hit
    obtain rfl : min = 0 := Nat.le_zero.mp hmin
    obtain ⟨fuel, rfl⟩ : ∃ f, fuel = f + 1 := ⟨fuel - 1, by omega⟩
    refine ⟨x, ?_, rfl⟩
    rw [repeats]
    split
    · simp
    · cases greedy <;> simp
  | succ n ih =>
    rintro fuel min max x j hx hfuel hmin hmax ⟨k, hxk, hkj⟩
    obtain ⟨hle, hk⟩ := hR _ _ hx hxk
    by_cases hskip : min = 0 ∧ k = x.pos
    · -- the optional iteration consumed nothing
      obtain ⟨rfl, rfl⟩ := hskip
      exact ih fuel 0 max hx hfuel (Nat.zero_le n) (fun m hm => by have := hmax m hm; omega) hkj
    · obtain ⟨fuel, rfl⟩ : ∃ f, fuel = f + 1 := ⟨fuel - 1, by omega⟩
      obtain ⟨z, hz, rfl⟩ := hm (x.clear groups) k hx hxk
      obtain ⟨y, hy, hyj⟩ := ih fuel (min - 1) (max.map (· - 1)) hk (by omega) (by omega) (by
          intro m hm
          obtain ⟨m', hm', rfl⟩ := Option.map_eq_some_iff.mp hm
          have := hmax m' hm'
          omega) hkj
      have hagain : y ∈ (m (x.clear groups)).flatMap fun z =>
          if min = 0 ∧ z.pos = x.pos then []
          else repeats m groups greedy fuel (min - 1) (max.map (· - 1)) z := by
        refine List.mem_flatMap.mpr ⟨z, hz, ?_⟩
        rw [if_neg hskip]
        exact hy
      refine ⟨y, ?_, hyj⟩
      rw [repeats, if_neg fun h0 => by have := hmax 0 h0; omega]
      simp only [ne_eq, ite_not]
      split
      · split
        · exact List.mem_append_left _ hagain
        · exact List.mem_cons_of_mem _ hagain
      · exact hagain

/-- The upper bounds of the repetitions are not below the lower ones: a parser refuses the
others. -/
def Expr.Bounded : Expr σ → Prop
  | .empty | .leaf _ | .anchor _ | .backref _ => True
  | .seq r s | .alt r s => r.Bounded ∧ s.Bounded
  | .rep r min max _ => r.Bounded ∧ ∀ k, max = some k → min ≤ k
  | .group _ r => r.Bounded

/-- What the search reaches is a match. -/
theorem matches_of_mem_results (r : Expr σ) :
    ∀ {x y : State}, r.Regular → r.Bounded → y ∈ results E text r x →
      Matches E.toDialect text r x.pos y.pos := by
  induction r with
  | empty =>
    intro x y _ _ hy
    obtain rfl := List.mem_singleton.mp hy
    rfl
  | leaf s =>
    intro x y _ _ hy
    rw [results] at hy
    split at hy
    · next c hc =>
      split at hy
      · next hs =>
        obtain rfl := List.mem_singleton.mp hy
        exact ⟨⟨c, hc, hs⟩, rfl⟩
      · cases hy
    · cases hy
  | anchor a =>
    intro x y _ _ hy
    rw [results] at hy
    split at hy
    · next ha =>
      obtain rfl := List.mem_singleton.mp hy
      exact ⟨ha, rfl⟩
    · cases hy
  | seq r s ihr ihs =>
    intro x y hreg hb hy
    obtain ⟨z, hz, hyz⟩ := List.mem_flatMap.mp hy
    exact ⟨z.pos, ihr hreg.1 hb.1 hz, ihs hreg.2 hb.2 hyz⟩
  | alt r s ihr ihs =>
    intro x y hreg hb hy
    rcases List.mem_append.mp hy with hy | hy
    · exact .inl (ihr hreg.1 hb.1 hy)
    · exact .inr (ihs hreg.2 hb.2 hy)
  | rep r min max greedy ih =>
    intro x y hreg hb hy
    exact iterate_of_mem_repeats (fun x y h => ih hreg hb.1 h) _ hy hb.2
  | group k r ih =>
    intro x y hreg hb hy
    obtain ⟨z, hz, rfl⟩ := List.mem_map.mp hy
    exact ih (y := z) hreg hb hz
  | backref k =>
    intro x y hreg
    cases hreg

/-- The search reaches every match. -/
theorem exists_mem_results (r : Expr σ) :
    ∀ {x : State} {j : ℕ}, x.pos ≤ text.length → Matches E.toDialect text r x.pos j →
      ∃ y ∈ results E text r x, y.pos = j := by
  induction r with
  | empty =>
    intro x j _ h
    exact ⟨x, by simp [results], h⟩
  | leaf s =>
    rintro x _ _ ⟨⟨c, hc, hs⟩, rfl⟩
    exact ⟨{ x with pos := x.pos + 1 }, by simp [results, hc, hs], rfl⟩
  | anchor a =>
    rintro x _ _ ⟨ha, rfl⟩
    exact ⟨x, by simp [results, ha], rfl⟩
  | seq r s ihr ihs =>
    rintro x j hx ⟨k, hr, hs⟩
    obtain ⟨y, hy, rfl⟩ := ihr hx hr
    obtain ⟨z, hz, rfl⟩ := ihs (Matches.bounds r hx hr).2 hs
    exact ⟨z, List.mem_flatMap.mpr ⟨y, hy, hz⟩, rfl⟩
  | alt r s ihr ihs =>
    rintro x j hx (hr | hs)
    · obtain ⟨y, hy, rfl⟩ := ihr hx hr
      exact ⟨y, List.mem_append_left _ hy, rfl⟩
    · obtain ⟨y, hy, rfl⟩ := ihs hx hs
      exact ⟨y, List.mem_append_right _ hy, rfl⟩
  | rep r min max greedy ih =>
    rintro x j hx ⟨n, hmin, hmax, hit⟩
    exact exists_mem_repeats text.length (fun x j hx h => ih hx h)
      (fun i j hi h => Matches.bounds r hi h) n _ min max hx (by omega) hmin hmax hit
  | group k r ih =>
    intro x j hx h
    obtain ⟨y, hy, rfl⟩ := ih hx h
    exact ⟨_, List.mem_map.mpr ⟨y, hy, rfl⟩, rfl⟩
  | backref k =>
    rintro x j _ ⟨⟩

/-! ## Captures -/

/-- An expression without groups keeps the captures. -/
theorem caps_of_mem_results (r : Expr σ) :
    ∀ {x y : State}, r.groups = [] → y ∈ results E text r x → y.caps = x.caps := by
  have hclear : ∀ x : State, x.clear [] = x := fun x => by simp [State.clear]
  induction r with
  | empty =>
    intro x y _ hy
    obtain rfl := List.mem_singleton.mp hy
    rfl
  | leaf s =>
    intro x y _ hy
    rw [results] at hy
    split at hy
    · split at hy
      · obtain rfl := List.mem_singleton.mp hy
        rfl
      · cases hy
    · cases hy
  | anchor a =>
    intro x y _ hy
    rw [results] at hy
    split at hy
    · obtain rfl := List.mem_singleton.mp hy
      rfl
    · cases hy
  | seq r s ihr ihs =>
    intro x y hg hy
    obtain ⟨hr, hs⟩ := List.append_eq_nil_iff.mp hg
    obtain ⟨z, hz, hyz⟩ := List.mem_flatMap.mp hy
    rw [ihs hs hyz, ihr hr hz]
  | alt r s ihr ihs =>
    intro x y hg hy
    obtain ⟨hr, hs⟩ := List.append_eq_nil_iff.mp hg
    rcases List.mem_append.mp hy with hy | hy
    · exact ihr hr hy
    · exact ihs hs hy
  | rep r min max greedy ih =>
    intro x y hg hy
    rw [Expr.groups] at hg
    have hrep : ∀ (fuel : ℕ) {min : ℕ} {max : Option ℕ} {x y : State},
        y ∈ repeats (results E text r) [] greedy fuel min max x → y.caps = x.caps := by
      intro fuel
      induction fuel with
      | zero =>
        intro min max x y hy
        simp [repeats] at hy
      | succ fuel ihf =>
        intro min max x y hy
        rw [repeats, hclear] at hy
        have hagain : y ∈ ((results E text r x).flatMap fun z =>
            if min = 0 ∧ z.pos = x.pos then []
            else repeats (results E text r) [] greedy fuel (min - 1) (max.map (· - 1)) z) →
            y.caps = x.caps := by
          intro h
          obtain ⟨z, hz, hyz⟩ := List.mem_flatMap.mp h
          split at hyz
          · cases hyz
          · rw [ihf hyz, ih hg hz]
        split at hy
        · rw [List.mem_singleton.mp hy]
        · simp only [ne_eq, ite_not] at hy
          split at hy
          · split at hy
            · rcases List.mem_append.mp hy with hy | hy
              · exact hagain hy
              · rw [List.mem_singleton.mp hy]
            · rcases List.mem_cons.mp hy with hy | hy
              · rw [hy]
              · exact hagain hy
          · exact hagain hy
    rw [results, hg] at hy
    exact hrep _ hy
  | group k r _ =>
    intro x y hg
    cases hg
  | backref k =>
    intro x y _ hy
    rw [results] at hy
    split at hy
    · obtain rfl := List.mem_singleton.mp hy
      rfl
    · split at hy
      · obtain rfl := List.mem_singleton.mp hy
        rfl
      · cases hy

end
end Regex
