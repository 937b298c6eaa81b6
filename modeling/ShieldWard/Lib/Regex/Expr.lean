import Mathlib.Data.List.Basic
import Mathlib.Data.Nat.Basic

/-!
# Regular expressions and the texts they match

Expressions over leaf symbols `σ`; what characters a leaf stands for is given separately, so
one syntax serves several dialects. `Matches r i j` is the declarative meaning: `r` matches
the part of a text from position `i` to position `j`. A back reference has no declarative
meaning here, since it depends on what a group captured.
-/

namespace Regex

/-- The zero-width assertions. -/
inductive Anchor
  | start | finish | wordBoundary | notWordBoundary
deriving DecidableEq, Repr

inductive Expr (σ : Type*)
  | empty
  | leaf (s : σ)
  | anchor (a : Anchor)
  | seq (r s : Expr σ)
  | alt (r s : Expr σ)
  | rep (r : Expr σ) (min : ℕ) (max : Option ℕ) (greedy : Bool)
  | group (index : ℕ) (r : Expr σ)
  | backref (index : ℕ)
deriving DecidableEq, Repr

namespace Expr

variable {σ τ : Type*}

/-- Replace the leaf symbols. -/
def map (f : σ → τ) : Expr σ → Expr τ
  | empty => empty
  | leaf s => leaf (f s)
  | anchor a => anchor a
  | seq r s => seq (r.map f) (s.map f)
  | alt r s => alt (r.map f) (s.map f)
  | rep r min max greedy => rep (r.map f) min max greedy
  | group k r => group k (r.map f)
  | backref k => backref k

/-- The indices of the groups inside. -/
def groups : Expr σ → List ℕ
  | empty | leaf _ | anchor _ | backref _ => []
  | seq r s | alt r s => r.groups ++ s.groups
  | rep r _ _ _ => r.groups
  | group k r => k :: r.groups

/-- No back reference inside. -/
def Regular : Expr σ → Prop
  | empty | leaf _ | anchor _ => True
  | seq r s | alt r s => r.Regular ∧ s.Regular
  | rep r _ _ _ | group _ r => r.Regular
  | backref _ => False

/-- The terms one after the other. -/
def seqOf : List (Expr σ) → Expr σ
  | [] => empty
  | [r] => r
  | r :: rs => seq r (seqOf rs)

/-- The alternatives, the first preferred. -/
def altOf : List (Expr σ) → Expr σ
  | [] => empty
  | [r] => r
  | r :: rs => alt r (altOf rs)

end Expr

/-- What the leaves of a dialect stand for, and which characters are word characters. -/
structure Dialect (σ α : Type*) where
  matchesLeaf : σ → α → Bool
  isWord : α → Bool

section

variable {σ τ α : Type*}

/-- `n` steps of a relation between positions. -/
def Iterate (R : ℕ → ℕ → Prop) : ℕ → ℕ → ℕ → Prop
  | 0, i, j => i = j
  | n + 1, i, j => ∃ k, R i k ∧ Iterate R n k j

theorem Iterate.mono {R S : ℕ → ℕ → Prop} (h : ∀ i j, R i j → S i j) {n i j : ℕ}
    (hr : Iterate R n i j) : Iterate S n i j := by
  induction n generalizing i with
  | zero => exact hr
  | succ n ih =>
    obtain ⟨k, hik, hkj⟩ := hr
    exact ⟨k, h i k hik, ih hkj⟩

/-- Steps that never go back and stay within `len` iterate to such steps. -/
theorem Iterate.bounds {R : ℕ → ℕ → Prop} {len : ℕ}
    (h : ∀ i j, i ≤ len → R i j → i ≤ j ∧ j ≤ len) {n i j : ℕ} (hi : i ≤ len)
    (hr : Iterate R n i j) : i ≤ j ∧ j ≤ len := by
  induction n generalizing i with
  | zero =>
    obtain rfl : i = j := hr
    exact ⟨le_rfl, hi⟩
  | succ n ih =>
    obtain ⟨k, hik, hkj⟩ := hr
    obtain ⟨hle, hk⟩ := h i k hi hik
    obtain ⟨hle', hj⟩ := ih hk hkj
    exact ⟨Nat.le_trans hle hle', hj⟩

variable (D : Dialect σ α) (text : List α)

/-- The character before a position is a word character. -/
def wordBefore (isWord : α → Bool) : ℕ → Bool
  | 0 => false
  | i + 1 => text[i]?.any isWord

/-- The assertion holds at the position. -/
def Anchor.holds (isWord : α → Bool) (i : ℕ) : Anchor → Bool
  | start => i = 0
  | finish => i = text.length
  | wordBoundary => wordBefore text isWord i != text[i]?.any isWord
  | notWordBoundary => wordBefore text isWord i == text[i]?.any isWord

/-- The expression matches the text from `i` to `j`. -/
def Matches : Expr σ → ℕ → ℕ → Prop
  | .empty, i, j => i = j
  | .leaf s, i, j => (∃ c, text[i]? = some c ∧ D.matchesLeaf s c = true) ∧ j = i + 1
  | .anchor a, i, j => a.holds text D.isWord i = true ∧ i = j
  | .seq r s, i, j => ∃ k, Matches r i k ∧ Matches s k j
  | .alt r s, i, j => Matches r i j ∨ Matches s i j
  | .rep r min max _, i, j => ∃ n, min ≤ n ∧ (∀ m, max = some m → n ≤ m) ∧ Iterate (Matches r) n i j
  | .group _ r, i, j => Matches r i j
  | .backref _, _, _ => False

variable {D text}

/-- Matches never go back and stay within the text. -/
theorem Matches.bounds (r : Expr σ) :
    ∀ {i j : ℕ}, i ≤ text.length → Matches D text r i j → i ≤ j ∧ j ≤ text.length := by
  induction r with
  | empty =>
    intro i j hi h
    obtain rfl : i = j := h
    exact ⟨le_rfl, hi⟩
  | leaf s =>
    rintro i _ hi ⟨⟨c, hc, -⟩, rfl⟩
    have := (List.getElem?_eq_some_iff.mp hc).1
    omega
  | anchor a =>
    rintro i _ hi ⟨-, rfl⟩
    exact ⟨le_rfl, hi⟩
  | seq r s ihr ihs =>
    rintro i j hi ⟨k, hr, hs⟩
    obtain ⟨hik, hk⟩ := ihr hi hr
    obtain ⟨hkj, hj⟩ := ihs hk hs
    exact ⟨Nat.le_trans hik hkj, hj⟩
  | alt r s ihr ihs =>
    rintro i j hi (hr | hs)
    · exact ihr hi hr
    · exact ihs hi hs
  | rep r min max greedy ih =>
    rintro i j hi ⟨n, -, -, hn⟩
    exact hn.bounds (fun i j hi h => ih hi h) hi
  | group k r ih =>
    intro i j hi h
    exact ih hi h
  | backref k =>
    rintro i j hi ⟨⟩

/-- Matching looks at a leaf only through the characters it stands for: two dialects that
agree on the leaves of an expression over the characters of a text match it alike. -/
theorem Matches.congr {D' : Dialect τ α} {f : σ → τ}
    (hleaf : ∀ s, ∀ c ∈ text, D.matchesLeaf s c = D'.matchesLeaf (f s) c)
    (hword : ∀ c ∈ text, D.isWord c = D'.isWord c) (r : Expr σ) :
    ∀ i j, Matches D text r i j ↔ Matches D' text (r.map f) i j := by
  have hany : ∀ i : ℕ, text[i]?.any D.isWord = text[i]?.any D'.isWord := by
    intro i
    cases hc : text[i]? with
    | none => rfl
    | some c => simpa using hword c (List.mem_of_getElem? hc)
  have hbefore : ∀ i, wordBefore text D.isWord i = wordBefore text D'.isWord i := by
    rintro (_ | i)
    · rfl
    · exact hany i
  induction r with
  | empty => exact fun i j => Iff.rfl
  | leaf s =>
    intro i j
    refine and_congr (exists_congr fun c => ?_) Iff.rfl
    refine and_congr_right fun hc => ?_
    rw [hleaf s c (List.mem_of_getElem? hc)]
  | anchor a =>
    intro i j
    refine and_congr ?_ Iff.rfl
    cases a with
    | start => rfl
    | finish => rfl
    | wordBoundary => simp only [Anchor.holds, hany, hbefore]
    | notWordBoundary => simp only [Anchor.holds, hany, hbefore]
  | seq r s ihr ihs =>
    intro i j
    exact exists_congr fun k => and_congr (ihr i k) (ihs k j)
  | alt r s ihr ihs =>
    intro i j
    exact or_congr (ihr i j) (ihs i j)
  | rep r min max greedy ih =>
    intro i j
    refine exists_congr fun n => and_congr_right fun _ => and_congr_right fun _ => ?_
    exact ⟨Iterate.mono fun i j => (ih i j).mp, Iterate.mono fun i j => (ih i j).mpr⟩
  | group k r ih => exact ih
  | backref k => exact fun i j => Iff.rfl

end
end Regex
