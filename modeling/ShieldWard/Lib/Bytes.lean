import Mathlib.Data.List.Basic

/-!
# Byte strings

Byte strings as lists, the UTF-8 form of a text, and hexadecimal text.
-/

abbrev Bytes := List UInt8

namespace Bytes

/-- The UTF-8 form of a text. -/
def utf8 (text : String) : Bytes := text.toUTF8.data.toList

theorem utf8_injective {s t : String} (h : utf8 s = utf8 t) : s = t := by
  unfold utf8 at h
  apply String.toByteArray_inj.mp
  apply ByteArray.ext
  exact Array.toList_inj.mp h

/-- A digit of a lower-case hexadecimal numeral. -/
def hexDigit (n : ℕ) : Char := if n < 10 then Char.ofNat (48 + n) else Char.ofNat (87 + n)

/-- Two hexadecimal digits for each byte. -/
def hex (bytes : Bytes) : String :=
  String.ofList (bytes.flatMap fun byte =>
    [hexDigit (byte.toNat / 16), hexDigit (byte.toNat % 16)])

/-- Every character of a hexadecimal text is a digit of some number below sixteen. -/
theorem exists_of_mem_hex {bytes : Bytes} {c : Char} (h : c ∈ (hex bytes).toList) :
    ∃ n < 16, c = hexDigit n := by
  rw [hex, String.toList_ofList, List.mem_flatMap] at h
  rcases h with ⟨byte, _, hc⟩
  have hbyte := byte.toNat_lt
  simp only [List.mem_cons, List.not_mem_nil, or_false] at hc
  rcases hc with rfl | rfl
  · exact ⟨_, by omega, rfl⟩
  · exact ⟨_, by omega, rfl⟩

/-- The text of a digit below sixteen determines it. -/
theorem hexDigit_inj {m n : ℕ} (hm : m < 16) (hn : n < 16) (h : hexDigit m = hexDigit n) :
    m = n := by
  have hall : ∀ a < 16, ∀ b < 16, hexDigit a = hexDigit b → a = b := by decide
  exact hall m hm n hn h

theorem hex_injective {s t : Bytes} (h : hex s = hex t) : s = t := by
  have hlist := congrArg String.toList h
  simp only [hex, String.toList_ofList] at hlist
  induction s generalizing t with
  | nil =>
    cases t with
    | nil => rfl
    | cons b t => simp at hlist
  | cons a s ih =>
    cases t with
    | nil => simp at hlist
    | cons b t =>
      simp only [List.flatMap_cons, List.cons_append, List.nil_append, List.cons.injEq] at hlist
      have ha := a.toNat_lt
      have hb := b.toNat_lt
      have hhigh := hexDigit_inj (by omega) (by omega) hlist.1
      have hlow := hexDigit_inj (by omega) (by omega) hlist.2.1
      have hab : a = b := UInt8.toNat_inj.mp (by omega)
      have hst : s = t := ih (by rw [hex, hex, hlist.2.2]) hlist.2.2
      rw [hab, hst]

theorem utf8_append (s t : String) : utf8 (s ++ t) = utf8 s ++ utf8 t := by
  unfold utf8
  simp [String.toByteArray_append]

end Bytes
