import Mathlib.Data.Rat.Floor
import Mathlib.Data.List.DropRight
import Mathlib.Data.List.TakeWhile
import Mathlib.Tactic.Linarith

/-!
# The ECMAScript values that edge code computes with

Numbers are exact rationals: every statement about them is one in exact arithmetic.
Strings are sequences of Unicode scalar values; where the length or the code units of a
string matter they are those of its UTF-16 encoding.
-/

namespace Ecma

/-- A finite number, in exact arithmetic. -/
abbrev Number := ℚ

/-- `Number.MAX_SAFE_INTEGER`. -/
def maxSafeInteger : ℤ := 9007199254740991

/-- `Number.isSafeInteger`. -/
def isSafeInteger (x : Number) : Bool :=
  x.den = 1 && -maxSafeInteger ≤ x.num && x.num ≤ maxSafeInteger

/-- A safe integer is the rational of its numerator. -/
theorem num_of_isSafeInteger {x : Number} (h : isSafeInteger x = true) : (x.num : ℚ) = x := by
  have hden : x.den = 1 := by
    simp only [isSafeInteger, Bool.and_eq_true, decide_eq_true_eq] at h
    exact h.1.1
  exact Rat.coe_int_num_of_den_eq_one hden

/-- What passes the check for a positive integer counts at least one. -/
theorem one_le_toNat_num {x : Number} (h : ¬(!isSafeInteger x || x ≤ 0) = true) :
    1 ≤ x.num.toNat := by
  simp only [Bool.or_eq_true, decide_eq_true_eq, not_or, not_le] at h
  have hnum : 0 < x.num := Rat.num_pos.mpr h.2
  omega

/-- What passes the check for a positive integer is the number that it counts. -/
theorem natCast_toNat_num {x : Number} (h : ¬(!isSafeInteger x || x ≤ 0) = true) :
    (x.num.toNat : Number) = x := by
  have hpositive := one_le_toNat_num h
  simp only [Bool.or_eq_true, Bool.not_eq_true', not_or, Bool.not_eq_false] at h
  have hcast : ((x.num.toNat : ℤ) : Number) = (x.num : Number) :=
    congrArg _ (Int.toNat_of_nonneg (by omega))
  rw [← Int.cast_natCast, hcast]
  exact num_of_isSafeInteger h.1

/-- The characters that `trim` removes: the white space and line terminators of ECMAScript. -/
def isWhiteSpace (c : Char) : Bool :=
  let n := c.toNat
  (0x09 ≤ n && n ≤ 0x0d) || n = 0x20 || n = 0xa0 || n = 0x1680 ||
    (0x2000 ≤ n && n ≤ 0x200a) || n = 0x2028 || n = 0x2029 || n = 0x202f ||
    n = 0x205f || n = 0x3000 || n = 0xfeff

/-- `String.prototype.trim`. -/
def trim (s : String) : String :=
  String.ofList ((s.toList.dropWhile isWhiteSpace).rdropWhile isWhiteSpace)

/-- `s.trim() === ''`. -/
def isBlank (s : String) : Bool := trim s == ""

/-- A string is blank exactly when all its characters are white space. -/
theorem isBlank_iff {s : String} :
    isBlank s = true ↔ ∀ c ∈ s.toList, isWhiteSpace c = true := by
  have htrim : trim s = "" ↔ (s.toList.dropWhile isWhiteSpace).rdropWhile isWhiteSpace = [] := by
    rw [trim]
    constructor
    · intro h
      simpa using congrArg String.toList h
    · intro h
      rw [h]
  rw [isBlank, beq_iff_eq, htrim, List.rdropWhile_eq_nil_iff]
  constructor
  · intro h
    rw [← List.dropWhile_eq_nil_iff]
    by_contra hne
    -- the first character that is kept is not white space
    have hhead := List.head_dropWhile_not isWhiteSpace hne
    rw [h _ (List.head_mem hne)] at hhead
    exact Bool.noConfusion hhead
  · intro h c hc
    exact h c ((List.dropWhile_sublist _).mem hc)

/-- The UTF-16 code units of a character. -/
def codeUnits (c : Char) : List ℕ :=
  let n := c.toNat
  if n < 0x10000 then [n]
  else [0xd800 + (n - 0x10000) / 0x400, 0xdc00 + (n - 0x10000) % 0x400]

/-- The UTF-16 code units of a string. -/
def utf16 (s : String) : List ℕ := s.toList.flatMap codeUnits

theorem codeUnits_ne_nil (c : Char) : codeUnits c ≠ [] := by
  simp only [codeUnits]
  split <;> simp

/-- The code units of a text determine its first character: no character is a surrogate. -/
theorem codeUnits_append_inj {c d : Char} {s t : List ℕ}
    (h : codeUnits c ++ s = codeUnits d ++ t) : c = d ∧ s = t := by
  have hc : c.toNat < 0xd800 ∨ 0xdfff < c.toNat ∧ c.toNat < 0x110000 := c.valid
  have hd : d.toNat < 0xd800 ∨ 0xdfff < d.toNat ∧ d.toNat < 0x110000 := d.valid
  have hnat : c.toNat = d.toNat ∧ s = t := by
    unfold codeUnits at h
    by_cases hcs : c.toNat < 0x10000 <;> by_cases hds : d.toNat < 0x10000 <;>
      simp only [hcs, hds, if_true, if_false, List.cons_append, List.nil_append,
        List.cons.injEq] at h
    · exact h
    · omega
    · omega
    · exact ⟨by omega, h.2.2⟩
  exact ⟨Char.toNat_inj.mp hnat.1, hnat.2⟩

theorem utf16_injective {s t : String} (h : utf16 s = utf16 t) : s = t := by
  apply String.toList_inj.mp
  unfold utf16 at h
  generalize s.toList = cs at h
  generalize t.toList = ds at h
  induction cs generalizing ds with
  | nil =>
    cases ds with
    | nil => rfl
    | cons d ds => simp [codeUnits_ne_nil d] at h
  | cons c cs ih =>
    cases ds with
    | nil => simp [codeUnits_ne_nil c] at h
    | cons d ds =>
      obtain ⟨hcd, hrest⟩ := codeUnits_append_inj h
      rw [hcd, ih ds hrest]

/-- `String.prototype.length`. -/
def length (s : String) : ℕ := (utf16 s).length

end Ecma
