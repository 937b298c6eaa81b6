import ShieldWard.Control.Templates
import ShieldWard.Lib.Regex.Alternatives

/-!
# The expressions that path templates become

`compilePathTemplate` writes a text. Here the text is taken apart into what it consists of, escaped
characters, `[^/]+` and `.*`, and the expression that it spells is shown to match the paths of its
template.
-/

namespace ShieldWard.Control

open Regex Template

/-! ## Tokens -/

/-- What a compiled path consists of. -/
inductive Token
  | char (c : Char)
  /-- `[^/]+` -/
  | segment
  /-- `.*` -/
  | rest
deriving DecidableEq

def Token.source : Token → List Char
  | .char c => if isMeta c then ['\\', c] else [c]
  | .segment => "[^/]+".toList
  | .rest => ".*".toList

/-- The text of a compiled path. -/
def pathSource (tokens : List Token) : List Char := tokens.flatMap Token.source

/-- The leaves of the expressions. -/
inductive Leaf
  | char (c : Char)
  | notSlash
  | dot
deriving DecidableEq

/-- The characters that a dot does not stand for. -/
def isLineTerminator (c : Char) : Bool := c ∈ ['\n', '\r', '\u2028', '\u2029']

def Leaf.matches : Leaf → Char → Bool
  | .char c, d => c = d
  | .notSlash, d => d ≠ '/'
  | .dot, d => !isLineTerminator d

/-- The engine for the expressions, without a flag. -/
def pathEngine : Engine Leaf Char where
  matchesLeaf := Leaf.matches
  isWord c := c.isAlphanum || c = '_'
  same c d := c = d

def Token.expr : Token → Expr Leaf
  | .char c => .leaf (.char c)
  | .segment => .rep (.leaf .notSlash) 1 none true
  | .rest => .rep (.leaf .dot) 0 none true

def pathExpr (tokens : List Token) : Expr Leaf := .seqOf (tokens.map Token.expr)

theorem pathExpr_plain (tokens : List Token) :
    (pathExpr tokens).Regular ∧ (pathExpr tokens).Bounded ∧ (pathExpr tokens).groups = [] := by
  have hone : ∀ token : Token,
      token.expr.Regular ∧ token.expr.Bounded ∧ token.expr.groups = [] := by
    intro token
    cases token <;> simp [Token.expr, Expr.Regular, Expr.Bounded, Expr.groups]
  unfold pathExpr
  induction tokens with
  | nil => exact ⟨trivial, trivial, rfl⟩
  | cons token tokens ih =>
    obtain ⟨hreg, hb, hgroups⟩ := hone token
    cases tokens with
    | nil => exact ⟨hreg, hb, hgroups⟩
    | cons next tokens =>
      exact ⟨⟨hreg, ih.1⟩, ⟨hb, ih.2.1⟩, List.append_eq_nil_iff.mpr ⟨hgroups, ih.2.2⟩⟩

/-! ## The texts of tokens -/

/-- The texts that the tokens stand for, one after the other. -/
def Spells : List Token → List Char → Prop
  | [], text => text = []
  | .char c :: tokens, text => ∃ rest, text = c :: rest ∧ Spells tokens rest
  | .segment :: tokens, text =>
    ∃ part rest, text = part ++ rest ∧ part ≠ [] ∧ '/' ∉ part ∧ Spells tokens rest
  | .rest :: tokens, text =>
    ∃ part rest, text = part ++ rest ∧ (∀ c ∈ part, isLineTerminator c = false) ∧
      Spells tokens rest

theorem drop_of_append {text part rest : List Char} {i : ℕ} (h : text.drop i = part ++ rest) :
    text.drop (i + part.length) = rest := by
  rw [← List.drop_drop, h, List.drop_left]

/-- The expression matches the texts of its tokens up to the end. -/
theorem matches_pathExpr_iff {text : List Char} {tokens : List Token} :
    ∀ {i : ℕ}, i ≤ text.length →
      (Matches pathEngine.toDialect text (pathExpr tokens) i text.length ↔
        Spells tokens (text.drop i)) := by
  induction tokens with
  | nil =>
    intro i hi
    show i = text.length ↔ text.drop i = []
    rw [List.drop_eq_nil_iff]
    omega
  | cons token tokens ih =>
    intro i hi
    unfold pathExpr at ih ⊢
    rw [List.map_cons, matches_seqOf_cons]
    -- what is split off the rest of the text stays within it
    have hbound : ∀ {part rest : List Char}, text.drop i = part ++ rest →
        i + part.length ≤ text.length := by
      intro part rest hdrop
      have hlength := congrArg List.length hdrop
      rw [List.length_drop, List.length_append] at hlength
      omega
    cases token with
    | char c =>
      constructor
      · rintro ⟨_, ⟨⟨d, hd, hleaf⟩, rfl⟩, hrest⟩
        obtain ⟨hlt, rfl⟩ := List.getElem?_eq_some_iff.mp hd
        have hc : c = text[i] := of_decide_eq_true hleaf
        exact ⟨text.drop (i + 1), by rw [hc, List.drop_eq_getElem_cons hlt], (ih hlt).mp hrest⟩
      · rintro ⟨rest, hdrop, hrest⟩
        have happend : text.drop i = [c] ++ rest := hdrop
        have hlt := hbound happend
        have hnext : text.drop (i + 1) = rest := drop_of_append happend
        refine ⟨i + 1, ⟨⟨c, ?_, decide_eq_true rfl⟩, rfl⟩, (ih hlt).mpr (hnext ▸ hrest)⟩
        rw [← Nat.add_zero i, ← List.getElem?_drop, hdrop]
        rfl
    -- a segment takes a part without a slash, and at least one character
    | segment =>
      have hslash : ∀ part : List Char,
          (∀ c ∈ part, Leaf.matches .notSlash c = true) ↔ '/' ∉ part := by
        intro part
        constructor
        · intro hall hmem
          cases hall '/' hmem
        · intro hnot c hc
          exact decide_eq_true fun heq => hnot (heq ▸ hc)
      constructor
      · rintro ⟨_, hpart, hrest⟩
        obtain ⟨part, rest, hdrop, hmin, hall, rfl⟩ := matches_rep_leaf_iff.mp hpart
        have hspells := (ih (hbound hdrop)).mp hrest
        rw [drop_of_append hdrop] at hspells
        exact ⟨part, rest, hdrop, List.length_pos_iff.mp hmin, (hslash part).mp hall, hspells⟩
      · rintro ⟨part, rest, hdrop, hne, hfree, hspells⟩
        refine ⟨i + part.length, matches_rep_leaf_iff.mpr
          ⟨part, rest, hdrop, List.length_pos_iff.mpr hne, (hslash part).mpr hfree, rfl⟩, ?_⟩
        rw [ih (hbound hdrop), drop_of_append hdrop]
        exact hspells
    -- the rest takes anything on the line
    | rest =>
      have hdot : ∀ c, Leaf.matches .dot c = true ↔ isLineTerminator c = false := by
        intro c
        rw [Leaf.matches, Bool.not_eq_true']
      constructor
      · rintro ⟨_, hpart, hrest⟩
        obtain ⟨part, rest, hdrop, _, hall, rfl⟩ := matches_rep_leaf_iff.mp hpart
        have hspells := (ih (hbound hdrop)).mp hrest
        rw [drop_of_append hdrop] at hspells
        exact ⟨part, rest, hdrop, fun c hc => (hdot c).mp (hall c hc), hspells⟩
      · rintro ⟨part, rest, hdrop, hfree, hspells⟩
        refine ⟨i + part.length, matches_rep_leaf_iff.mpr
          ⟨part, rest, hdrop, Nat.zero_le _, fun c hc => (hdot c).mpr (hfree c hc), rfl⟩, ?_⟩
        rw [ih (hbound hdrop), drop_of_append hdrop]
        exact hspells

/-! ## The tokens of a template -/

def pieceTokens : Piece Char → List Token
  | .literal text => text.map .char
  | .parameter => [.segment]
  | .wildcard => [.rest]

def templateTokens (pieces : List (Piece Char)) : List Token :=
  pieces.flatMap fun piece => .char '/' :: pieceTokens piece

theorem spells_literal_iff {text rest : List Char} {tokens : List Token} :
    Spells (text.map .char ++ tokens) rest ↔ ∃ tail, rest = text ++ tail ∧ Spells tokens tail := by
  induction text generalizing rest with
  | nil => exact ⟨fun h => ⟨rest, rfl, h⟩, fun ⟨tail, heq, h⟩ => heq ▸ h⟩
  | cons c text ih =>
    constructor
    · rintro ⟨middle, rfl, hmiddle⟩
      obtain ⟨tail, rfl, htail⟩ := ih.mp hmiddle
      exact ⟨tail, rfl, htail⟩
    · rintro ⟨tail, rfl, htail⟩
      exact ⟨text ++ tail, rfl, ih.mpr ⟨tail, rfl, htail⟩⟩

/-- On a path without line terminators the tokens of a template spell what it denotes. -/
theorem spells_templateTokens_iff {pieces : List (Piece Char)} :
    ∀ {text : List Char}, (∀ c ∈ text, isLineTerminator c = false) →
      (Spells (templateTokens pieces) text ↔ Denotes '/' pieces text) := by
  induction pieces with
  | nil => exact fun _ => Iff.rfl
  | cons piece pieces ih =>
    intro text hfree
    have hsub : ∀ {part rest : List Char}, text = '/' :: (part ++ rest) →
        (∀ c ∈ part, isLineTerminator c = false) ∧ ∀ c ∈ rest, isLineTerminator c = false := by
      rintro part rest rfl
      exact List.forall_mem_append.mp (List.forall_mem_cons.mp hfree).2
    have hcons : templateTokens (piece :: pieces) =
        .char '/' :: (pieceTokens piece ++ templateTokens pieces) := by
      rw [templateTokens, List.flatMap_cons, List.cons_append]
      rfl
    rw [hcons]
    cases piece with
    | literal literal =>
      constructor
      · rintro ⟨_, htext, hspells⟩
        obtain ⟨tail, rfl, htail⟩ := spells_literal_iff.mp hspells
        exact ⟨literal, tail, htext, rfl, (ih (hsub htext).2).mp htail⟩
      · rintro ⟨_, tail, htext, rfl, htail⟩
        exact ⟨_, htext, spells_literal_iff.mpr ⟨tail, rfl, (ih (hsub htext).2).mpr htail⟩⟩
    | parameter =>
      constructor
      · rintro ⟨_, htext, part, tail, rfl, hne, hpart, htail⟩
        exact ⟨part, tail, htext, ⟨hne, hpart⟩, (ih (hsub htext).2).mp htail⟩
      · rintro ⟨part, tail, htext, ⟨hne, hpart⟩, htail⟩
        exact ⟨_, htext, part, tail, rfl, hne, hpart, (ih (hsub htext).2).mpr htail⟩
    | wildcard =>
      constructor
      · rintro ⟨_, htext, part, tail, rfl, _, htail⟩
        exact ⟨part, tail, htext, trivial, (ih (hsub htext).2).mp htail⟩
      · rintro ⟨part, tail, htext, _, htail⟩
        exact ⟨_, htext, part, tail, rfl, (hsub htext).1, (ih (hsub htext).2).mpr htail⟩

/-! ## What the compiler writes -/

variable {G : GoPlatform}

theorem pathSource_literal (text : List Char) : pathSource (text.map .char) = quoteMeta text := by
  rw [pathSource, List.flatMap_map, quoteMeta]
  rfl

theorem compileSegment_eq {isFinal : Bool} {segment compiled : List Char}
    (h : compileSegment G isFinal segment = .ok compiled) :
    compiled = pathSource (pieceTokens (readSegment segment)) := by
  unfold compileSegment at h
  split at h
  · split at h
    · cases h
      rfl
    · cases h
  · next hname =>
    split at h
    · next hstar =>
      subst hstar
      split at h
      · cases h
        rfl
      · cases h
    · next hstar =>
      split at h
      · cases h
      · cases h
        rw [readSegment, if_neg hstar, pieceTokens, pathSource_literal]
        exact hname

theorem compileSegments_eq {segments : List (List Char)} {compiled : List Char}
    (h : compileSegments G segments = .ok compiled) :
    compiled = pathSource (templateTokens (segments.map readSegment)) := by
  induction segments generalizing compiled with
  | nil =>
    cases h
    rfl
  | cons segment segments ih =>
    unfold compileSegments at h
    obtain ⟨first, hfirst, h⟩ := Except.bind_eq_ok_iff.mp h
    obtain ⟨others, hothers, h⟩ := Except.bind_eq_ok_iff.mp h
    cases h
    have hslash : Token.source (.char '/') = ['/'] := by decide
    rw [compileSegment_eq hfirst, ih hothers, List.map_cons, templateTokens, templateTokens,
      List.flatMap_cons, pathSource, pathSource, pathSource, List.flatMap_append, List.flatMap_cons,
      hslash]
    rfl

/-- A path text compiles to the text of the tokens of its template. -/
theorem compilePathTemplate_eq {path pattern : String}
    (h : compilePathTemplate G path = .ok pattern) :
    pattern = String.ofList (pathSource (templateTokens (template path))) := by
  unfold compilePathTemplate at h
  split at h
  · next hroot =>
    cases h
    rw [hroot]
    decide
  · obtain ⟨compiled, hcompiled, rfl⟩ := Except.map_eq_ok_iff.mp h
    rw [template, compileSegments_eq hcompiled]

end ShieldWard.Control
