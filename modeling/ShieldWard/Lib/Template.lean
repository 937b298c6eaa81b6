import Mathlib.Data.List.Basic

/-!
# Path templates

A template is a sequence of pieces, each behind a separator: a literal part, a parameter for
any one part, and a wildcard for all that is left. A template whose wildcard is last and whose
literals are free of the separator is determined by the paths that it denotes
(`eq_of_denotes`): the first parts of the paths tell the first piece, and every path splits
into its first part and the rest in one way only.
-/

namespace Template

inductive Piece (α : Type*)
  | literal (text : List α)
  | parameter
  | wildcard
deriving DecidableEq, Repr

variable {α : Type*} (sep : α)

/-- The texts that a piece stands for. -/
def Piece.Accepts : Piece α → List α → Prop
  | .literal text, part => part = text
  | .parameter, part => part ≠ [] ∧ sep ∉ part
  | .wildcard, _ => True

/-- The paths that a template stands for. -/
def Denotes : List (Piece α) → List α → Prop
  | [], text => text = []
  | piece :: pieces, text =>
    ∃ part rest, text = sep :: (part ++ rest) ∧ piece.Accepts sep part ∧ Denotes pieces rest

/-- A wildcard is last, and no literal holds the separator. -/
def WellFormed : List (Piece α) → Prop
  | [] => True
  | piece :: pieces =>
    (piece = .wildcard → pieces = []) ∧ (∀ text, piece = .literal text → sep ∉ text) ∧
      WellFormed pieces

variable {sep} {piece : Piece α} {pieces : List (Piece α)}

/-! ## Splitting a path -/

/-- A text is empty or goes on with a separator. -/
def Boundary (sep : α) (text : List α) : Prop := text = [] ∨ ∃ rest, text = sep :: rest

theorem Denotes.boundary {text : List α} (h : Denotes sep pieces text) : Boundary sep text := by
  cases pieces with
  | nil => exact .inl h
  | cons piece pieces =>
    obtain ⟨part, rest, heq, _⟩ := h
    exact .inr ⟨part ++ rest, heq⟩

/-- The first part of a path ends at the first separator. -/
theorem split_unique {part part' : List α} (hpart : sep ∉ part) (hpart' : sep ∉ part') :
    ∀ {rest rest' : List α}, Boundary sep rest → Boundary sep rest' →
      part ++ rest = part' ++ rest' → part = part' ∧ rest = rest' := by
  induction part generalizing part' with
  | nil =>
    intro rest rest' hrest _ heq
    cases part' with
    | nil => exact ⟨rfl, heq⟩
    | cons c part' =>
      rcases hrest with rfl | ⟨tail, rfl⟩
      · cases heq
      · obtain ⟨hc, _⟩ := List.cons.inj heq
        exact absurd (hc ▸ List.mem_cons_self) hpart'
  | cons c part ih =>
    intro rest rest' hrest hrest' heq
    cases part' with
    | nil =>
      rcases hrest' with rfl | ⟨tail, rfl⟩
      · cases heq
      · obtain ⟨hc, _⟩ := List.cons.inj heq
        exact absurd (hc ▸ List.mem_cons_self) hpart
    | cons c' part' =>
      obtain ⟨rfl, htail⟩ := List.cons.inj heq
      rw [List.mem_cons, not_or] at hpart hpart'
      obtain ⟨rfl, hrest⟩ := ih hpart.2 hpart'.2 hrest hrest' htail
      exact ⟨rfl, hrest⟩

/-- A piece that is no wildcard accepts only parts without a separator. -/
theorem Piece.Accepts.free {part : List α} (hpiece : piece ≠ .wildcard)
    (hfree : ∀ text, piece = .literal text → sep ∉ text) (h : piece.Accepts sep part) :
    sep ∉ part := by
  cases piece with
  | literal text => exact h ▸ hfree text rfl
  | parameter => exact h.2
  | wildcard => exact absurd rfl hpiece

/-- A path whose first part is known. -/
theorem denotes_cons_iff (hwell : WellFormed sep (piece :: pieces)) (hpiece : piece ≠ .wildcard)
    {part rest : List α} (hpart : sep ∉ part) (hrest : Boundary sep rest) :
    Denotes sep (piece :: pieces) (sep :: (part ++ rest)) ↔
      piece.Accepts sep part ∧ Denotes sep pieces rest := by
  constructor
  · rintro ⟨part', rest', heq, haccepts, hdenotes⟩
    have hpart' := haccepts.free hpiece hwell.2.1
    obtain ⟨rfl, rfl⟩ := split_unique hpart hpart' hrest hdenotes.boundary (List.cons.inj heq).2
    exact ⟨haccepts, hdenotes⟩
  · rintro ⟨haccepts, hdenotes⟩
    exact ⟨part, rest, rfl, haccepts, hdenotes⟩

/-! ## Paths of a template -/

/-- Some part that a piece accepts, given a letter for parameters. -/
def Piece.sample (letter : α) : Piece α → List α
  | .literal text => text
  | .parameter => [letter]
  | .wildcard => []

theorem Piece.accepts_sample {letter : α} (hletter : letter ≠ sep) (piece : Piece α) :
    piece.Accepts sep (piece.sample letter) := by
  cases piece with
  | literal text => rfl
  | parameter => exact ⟨List.cons_ne_nil _ _, by simpa [Piece.sample] using hletter.symm⟩
  | wildcard => trivial

/-- Every template denotes some path. -/
theorem exists_denotes {letter : α} (hletter : letter ≠ sep) (pieces : List (Piece α)) :
    ∃ text, Denotes sep pieces text := by
  induction pieces with
  | nil => exact ⟨[], rfl⟩
  | cons piece pieces ih =>
    obtain ⟨rest, hrest⟩ := ih
    exact ⟨_, piece.sample letter, rest, rfl, piece.accepts_sample hletter, hrest⟩

/-- A final wildcard denotes all that follows a separator. -/
theorem denotes_wildcard (text : List α) : Denotes sep [.wildcard] (sep :: text) :=
  ⟨text, [], by simp, trivial, rfl⟩

/-- Some part is not accepted by a piece that is no wildcard. -/
theorem exists_not_accepts {letter : α} (hletter : letter ≠ sep) (hpiece : piece ≠ .wildcard) :
    ∃ part, sep ∉ part ∧ ¬piece.Accepts sep part := by
  cases piece with
  | literal text =>
    by_cases hempty : text = []
    · refine ⟨[letter], by simpa using hletter.symm, fun h => ?_⟩
      exact List.cons_ne_nil letter [] (h.trans hempty)
    · exact ⟨[], List.not_mem_nil, fun h => hempty h.symm⟩
  | parameter => exact ⟨[], List.not_mem_nil, fun h => h.1 rfl⟩
  | wildcard => exact absurd rfl hpiece

/-- Two pieces that accept the same parts are the same, wildcards apart. -/
theorem piece_eq {letter : α} (hletter : letter ≠ sep) {piece piece' : Piece α}
    (hpiece : piece ≠ .wildcard) (hpiece' : piece' ≠ .wildcard)
    (h : ∀ part, piece.Accepts sep part ↔ piece'.Accepts sep part) : piece = piece' := by
  -- a parameter accepts one letter and two, a literal only one text
  have hone : Piece.parameter.Accepts sep [letter] :=
    ⟨List.cons_ne_nil _ _, by simpa using hletter.symm⟩
  have htwo : Piece.parameter.Accepts sep [letter, letter] :=
    ⟨List.cons_ne_nil _ _, by simpa using hletter.symm⟩
  have hnone : ∀ text, ¬∀ part,
      (Piece.literal text).Accepts sep part ↔ Piece.parameter.Accepts sep part := by
    intro text hsame
    have hfirst : [letter] = text := (hsame _).mpr hone
    have hsecond : [letter, letter] = text := (hsame _).mpr htwo
    rw [← hfirst] at hsecond
    cases hsecond
  cases piece with
  | literal text =>
    cases piece' with
    | literal text' => rw [(h text).mp rfl]
    | parameter => exact absurd h (hnone text)
    | wildcard => exact absurd rfl hpiece'
  | parameter =>
    cases piece' with
    | literal text' => exact absurd (fun part => (h part).symm) (hnone text')
    | parameter => rfl
    | wildcard => exact absurd rfl hpiece'
  | wildcard => exact absurd rfl hpiece

/-! ## The template of a language -/

/-- A template that begins with a piece other than a wildcard leaves out some path. -/
theorem exists_not_denotes {letter : α} (hletter : letter ≠ sep)
    (hwell : WellFormed sep (piece :: pieces)) (hpiece : piece ≠ .wildcard) :
    ∃ text, ¬Denotes sep (piece :: pieces) (sep :: text) := by
  obtain ⟨part, hpart, hnot⟩ := exists_not_accepts hletter hpiece
  refine ⟨part ++ [], fun h => hnot ?_⟩
  exact ((denotes_cons_iff hwell hpiece hpart (.inl rfl)).mp h).1

/-- Two templates that denote the same paths are the same. -/
theorem eq_of_denotes {letter : α} (hletter : letter ≠ sep) {pieces pieces' : List (Piece α)}
    (hwell : WellFormed sep pieces) (hwell' : WellFormed sep pieces')
    (h : ∀ text, Denotes sep pieces text ↔ Denotes sep pieces' text) : pieces = pieces' := by
  induction pieces generalizing pieces' with
  | nil =>
    cases pieces' with
    | nil => rfl
    | cons piece' pieces' =>
      obtain ⟨_, _, heq, _⟩ := (h []).mp rfl
      cases heq
  | cons piece pieces ih =>
    cases pieces' with
    | nil =>
      obtain ⟨_, _, heq, _⟩ := (h []).mpr rfl
      cases heq
    | cons piece' pieces' =>
      by_cases hpiece : piece = .wildcard
      · obtain rfl : pieces = [] := hwell.1 hpiece
        subst hpiece
        by_cases hpiece' : piece' = .wildcard
        · obtain rfl : pieces' = [] := hwell'.1 hpiece'
          rw [hpiece']
        · obtain ⟨text, hnot⟩ := exists_not_denotes hletter hwell' hpiece'
          exact absurd ((h _).mp (denotes_wildcard text)) hnot
      · by_cases hpiece' : piece' = .wildcard
        · obtain rfl : pieces' = [] := hwell'.1 hpiece'
          subst hpiece'
          obtain ⟨text, hnot⟩ := exists_not_denotes hletter hwell hpiece
          exact absurd ((h _).mpr (denotes_wildcard text)) hnot
        · -- both split off one part, so the parts and the rests can be told apart
          have hsplit : ∀ part rest, sep ∉ part → Boundary sep rest →
              (piece.Accepts sep part ∧ Denotes sep pieces rest ↔
                piece'.Accepts sep part ∧ Denotes sep pieces' rest) := by
            intro part rest hpart hrest
            rw [← denotes_cons_iff hwell hpiece hpart hrest,
              ← denotes_cons_iff hwell' hpiece' hpart hrest]
            exact h _
          obtain ⟨rest, hrest⟩ := exists_denotes hletter pieces
          obtain ⟨rest', hrest'⟩ := exists_denotes hletter pieces'
          have hfirst : piece = piece' := by
            refine piece_eq hletter hpiece hpiece' fun part =>
              ⟨fun haccepts => ?_, fun haccepts => ?_⟩
            · have hpart := haccepts.free hpiece hwell.2.1
              exact ((hsplit part rest hpart hrest.boundary).mp ⟨haccepts, hrest⟩).1
            · have hpart := haccepts.free hpiece' hwell'.2.1
              exact ((hsplit part rest' hpart hrest'.boundary).mpr ⟨haccepts, hrest'⟩).1
          subst hfirst
          have haccepts := piece.accepts_sample hletter
          have hpart := haccepts.free hpiece hwell.2.1
          have hrests : pieces = pieces' := by
            refine ih hwell.2.2 hwell'.2.2 fun text => ⟨fun htext => ?_, fun htext => ?_⟩
            · exact ((hsplit _ text hpart htext.boundary).mp ⟨haccepts, htext⟩).2
            · exact ((hsplit _ text hpart htext.boundary).mpr ⟨haccepts, htext⟩).2
          rw [hrests]

end Template
