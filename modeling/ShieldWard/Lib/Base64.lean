import Mathlib.Data.List.TakeWhile
import Mathlib.Data.List.DropRight
import Mathlib.Data.List.Basic

/-!
# Base64

Encoding with a choice of the last two characters of the alphabet, with and without padding,
and the forgiving decoder of web platforms (`atob`). Both go through the six-bit groups of
the bytes.
-/

namespace Base64

/-! ## Six-bit groups -/

/-- The six-bit groups of a byte string, the last one filled up with zero bits. -/
def sextets : List UInt8 → List ℕ
  | [] => []
  | [a] => [a.toNat / 4, a.toNat % 4 * 16]
  | [a, b] => [a.toNat / 4, a.toNat % 4 * 16 + b.toNat / 16, b.toNat % 16 * 4]
  | a :: b :: c :: rest =>
    a.toNat / 4 :: (a.toNat % 4 * 16 + b.toNat / 16) :: (b.toNat % 16 * 4 + c.toNat / 64) ::
      c.toNat % 64 :: sextets rest

/-- The bytes of a list of six-bit groups; the bits left over are dropped. -/
def octets : List ℕ → List UInt8
  | a :: b :: c :: d :: rest =>
    UInt8.ofNat (a * 4 + b / 16) :: UInt8.ofNat (b % 16 * 16 + c / 4) ::
      UInt8.ofNat (c % 4 * 64 + d) :: octets rest
  | [a, b, c] => [UInt8.ofNat (a * 4 + b / 16), UInt8.ofNat (b % 16 * 16 + c / 4)]
  | [a, b] => [UInt8.ofNat (a * 4 + b / 16)]
  | _ => []

theorem sextets_lt {bs : List UInt8} {n : ℕ} (h : n ∈ sextets bs) : n < 64 := by
  induction bs using sextets.induct with
  | case1 => simp [sextets] at h
  | case2 a =>
    have ha := a.toNat_lt
    simp only [sextets, List.mem_cons, List.not_mem_nil, or_false] at h
    omega
  | case3 a b =>
    have ha := a.toNat_lt
    have hb := b.toNat_lt
    simp only [sextets, List.mem_cons, List.not_mem_nil, or_false] at h
    omega
  | case4 a b c rest ih =>
    have ha := a.toNat_lt
    have hb := b.toNat_lt
    have hc := c.toNat_lt
    simp only [sextets, List.mem_cons] at h
    rcases h with h | h | h | h | h
    · omega
    · omega
    · omega
    · omega
    · exact ih h

theorem length_sextets (bs : List UInt8) : (sextets bs).length = (bs.length * 4 + 2) / 3 := by
  induction bs using sextets.induct with
  | case1 => rfl
  | case2 => simp [sextets]
  | case3 => simp [sextets]
  | case4 a b c rest ih =>
    simp only [sextets, List.length_cons, ih]
    omega

theorem octets_sextets (bs : List UInt8) : octets (sextets bs) = bs := by
  have hbyte : ∀ (a : UInt8) (n : ℕ), n = a.toNat → UInt8.ofNat n = a := by
    intro a n h
    rw [h]
    exact UInt8.ofNat_toNat
  induction bs using sextets.induct with
  | case1 => rfl
  | case2 a =>
    have ha := a.toNat_lt
    simp only [sextets, octets]
    rw [hbyte a _ (by omega)]
  | case3 a b =>
    have ha := a.toNat_lt
    have hb := b.toNat_lt
    simp only [sextets, octets]
    rw [hbyte a _ (by omega), hbyte b _ (by omega)]
  | case4 a b c rest ih =>
    have ha := a.toNat_lt
    have hb := b.toNat_lt
    have hc := c.toNat_lt
    simp only [sextets, octets, ih]
    rw [hbyte a _ (by omega), hbyte b _ (by omega), hbyte c _ (by omega)]

/-! ## The alphabets -/

/-- The character of a six-bit group; `plus` and `slash` are those of the last two. -/
def digit (plus slash : Char) (n : ℕ) : Char :=
  if n < 26 then Char.ofNat ('A'.toNat + n)
  else if n < 52 then Char.ofNat ('a'.toNat + (n - 26))
  else if n < 62 then Char.ofNat ('0'.toNat + (n - 52))
  else if n = 62 then plus
  else slash

/-- The six-bit group of a character of the standard alphabet. -/
def value (c : Char) : Option ℕ :=
  let n := c.toNat
  if 'A'.toNat ≤ n ∧ n ≤ 'Z'.toNat then some (n - 'A'.toNat)
  else if 'a'.toNat ≤ n ∧ n ≤ 'z'.toNat then some (n - 'a'.toNat + 26)
  else if '0'.toNat ≤ n ∧ n ≤ '9'.toNat then some (n - '0'.toNat + 52)
  else if c = '+' then some 62
  else if c = '/' then some 63
  else none

theorem value_digit : ∀ n < 64, value (digit '+' '/' n) = some n := by decide

theorem digit_ne_pad : ∀ n < 64, digit '+' '/' n ≠ '=' := by decide

/-- Encode without padding. -/
def encodeRaw (plus slash : Char) (bs : List UInt8) : List Char :=
  (sextets bs).map (digit plus slash)

/-- Fill a text up to a multiple of four characters. -/
def pad (cs : List Char) : List Char :=
  cs ++ List.replicate ((cs.length + 3) / 4 * 4 - cs.length) '='

/-- Encode with the standard alphabet and padding. -/
def encode (bs : List UInt8) : List Char := pad (encodeRaw '+' '/' bs)

theorem length_encodeRaw (plus slash : Char) (bs : List UInt8) :
    (encodeRaw plus slash bs).length = (bs.length * 4 + 2) / 3 := by
  rw [encodeRaw, List.length_map, length_sextets]

/-! ## The forgiving decoder -/

def isAsciiWhiteSpace (c : Char) : Bool :=
  c = '\t' || c = '\n' || c.toNat = 12 || c = '\r' || c = ' '

/-- Remove one or two trailing padding characters of a text of full groups. -/
def stripPadding (cs : List Char) : List Char :=
  if cs.length % 4 = 0 then
    if cs.drop (cs.length - 2) = ['=', '='] then cs.dropLast.dropLast
    else if cs.drop (cs.length - 1) = ['='] then cs.dropLast
    else cs
  else cs

/-- `atob`, with the bytes of the binary string it returns. -/
def atob (cs : List Char) : Option (List UInt8) :=
  let data := stripPadding (cs.filter fun c => !isAsciiWhiteSpace c)
  if data.length % 4 = 1 then none
  else (data.mapM value).map octets

theorem mapM_value_encodeRaw (bs : List UInt8) :
    (encodeRaw '+' '/' bs).mapM value = some (sextets bs) := by
  have hall : ∀ ns : List ℕ, (∀ n ∈ ns, n < 64) →
      (ns.map (digit '+' '/')).mapM value = some ns := by
    intro ns
    induction ns with
    | nil => intro _; rfl
    | cons n ns ih =>
      intro h
      rw [List.map_cons, List.mapM_cons, value_digit n (h n List.mem_cons_self),
        ih fun m hm => h m (List.mem_cons_of_mem n hm)]
      rfl
  exact hall _ fun n hn => sextets_lt hn

theorem not_isAsciiWhiteSpace_digit :
    ∀ n < 64, isAsciiWhiteSpace (digit '+' '/' n) = false := by decide

theorem filter_pad_encodeRaw (bs : List UInt8) :
    (pad (encodeRaw '+' '/' bs)).filter (fun c => !isAsciiWhiteSpace c) =
      pad (encodeRaw '+' '/' bs) := by
  apply List.filter_eq_self.mpr
  intro c hc
  rw [pad, List.mem_append] at hc
  rcases hc with hc | hc
  · rcases List.mem_map.mp hc with ⟨n, hn, rfl⟩
    rw [not_isAsciiWhiteSpace_digit n (sextets_lt hn)]
    rfl
  · rw [List.eq_of_mem_replicate hc]
    rfl

/-- Padding does not hide a character of the text: the text has none of its own. -/
theorem stripPadding_pad {cs : List Char} (hmod : cs.length % 4 ≠ 1) (hcs : '=' ∉ cs) :
    stripPadding (pad cs) = cs := by
  have hfull : (pad cs).length % 4 = 0 := by
    rw [pad, List.length_append, List.length_replicate]
    omega
  rw [stripPadding, if_pos hfull]
  have hcases : cs.length % 4 = 0 ∨ cs.length % 4 = 2 ∨ cs.length % 4 = 3 := by omega
  rcases hcases with h | h | h
  · -- no padding was added, and the text itself does not end in one
    have hpad : pad cs = cs := by
      have hzero : (cs.length + 3) / 4 * 4 - cs.length = 0 := by omega
      rw [pad, hzero, List.replicate_zero, List.append_nil]
    have hsub : ∀ k, '=' ∉ cs.drop k := fun k hmem => hcs (List.mem_of_mem_drop hmem)
    rw [hpad, if_neg, if_neg]
    · intro heq
      exact hsub _ (by rw [heq]; simp)
    · intro heq
      exact hsub _ (by rw [heq]; simp)
  · have hpad : pad cs = cs ++ ['=', '='] := by
      have htwo : (cs.length + 3) / 4 * 4 - cs.length = 2 := by omega
      rw [pad, htwo]
      rfl
    rw [hpad, if_pos (by simp)]
    simp
  · have hpad : pad cs = cs ++ ['='] := by
      have hone : (cs.length + 3) / 4 * 4 - cs.length = 1 := by omega
      rw [pad, hone]
      rfl
    rw [hpad, if_neg, if_pos (by simp)]
    · simp
    · -- the character before the padding is one of the text
      intro heq
      have hlen : (cs ++ ['=']).length - 2 = cs.length - 1 := by simp
      rw [hlen, List.drop_append_of_le_length (by omega)] at heq
      have hinit : cs.drop (cs.length - 1) = ['='] := List.append_cancel_right heq
      exact hcs (List.mem_of_mem_drop (by rw [hinit]; simp))

/-- What the padded standard encoding decodes to. -/
theorem atob_encode (bs : List UInt8) : atob (encode bs) = some bs := by
  have hlen : (encodeRaw '+' '/' bs).length % 4 ≠ 1 := by
    rw [length_encodeRaw]
    omega
  have hpad : '=' ∉ encodeRaw '+' '/' bs := by
    intro h
    rcases List.mem_map.mp h with ⟨n, hn, heq⟩
    exact digit_ne_pad n (sextets_lt hn) heq
  unfold atob encode
  simp only [filter_pad_encodeRaw, stripPadding_pad hlen hpad, if_neg hlen,
    mapM_value_encodeRaw, Option.map_some, octets_sextets]

end Base64
