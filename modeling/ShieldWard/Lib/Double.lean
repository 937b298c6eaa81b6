import Mathlib.Data.Nat.Basic
import Mathlib.Tactic.Ring

/-!
# Whole numbers as doubles

A double has 53 binary digits, so it is a whole number times a power of two. Whole numbers below
`2 ^ 53` are doubles; above they are read as the nearest one.
-/

namespace Double

/-- The distance between the doubles around a whole number. -/
def spacing (n : ℕ) : ℕ := 2 ^ (n.log2 - 52)

/-- The double nearest to a whole number; between two, the one that is even. -/
def nearest (n : ℕ) : ℕ :=
  let quotient := n / spacing n
  let rest := n % spacing n
  if 2 * rest < spacing n ∨ 2 * rest = spacing n ∧ quotient % 2 = 0 then quotient * spacing n
  else (quotient + 1) * spacing n

theorem spacing_pos (n : ℕ) : 0 < spacing n := Nat.two_pow_pos _

theorem nearest_of_dvd {n : ℕ} (h : spacing n ∣ n) : nearest n = n := by
  unfold nearest
  have hrest : n % spacing n = 0 := Nat.mod_eq_zero_of_dvd h
  have hpos := spacing_pos n
  rw [hrest, if_pos (by omega)]
  exact Nat.div_mul_cancel h

/-- A number of at most 53 digits times a power of two is a double. -/
theorem nearest_mul_two_pow {k : ℕ} (h : k ≤ 2 ^ 53) (e : ℕ) :
    nearest (k * 2 ^ e) = k * 2 ^ e := by
  apply nearest_of_dvd
  by_cases hzero : k = 0
  · rw [hzero, zero_mul]
    exact dvd_zero _
  · have hne : k * 2 ^ e ≠ 0 := Nat.mul_ne_zero hzero (Nat.two_pow_pos e).ne'
    unfold spacing
    by_cases hmax : k = 2 ^ 53
    · -- the least number with one digit more is even
      rw [hmax, ← pow_add, Nat.log2_two_pow]
      exact pow_dvd_pow 2 (by omega)
    · have hlt : k * 2 ^ e < 2 ^ (53 + e) := by
        rw [pow_add]
        exact Nat.mul_lt_mul_of_pos_right (by omega) (Nat.two_pow_pos e)
      have hlog := (Nat.log2_lt hne).mpr hlt
      exact dvd_mul_of_dvd_right (pow_dvd_pow 2 (by omega)) k

/-- Below `2 ^ 53` every whole number is a double. -/
theorem nearest_of_lt {n : ℕ} (h : n < 2 ^ 53) : nearest n = n := by
  have hself := nearest_mul_two_pow h.le 0
  rwa [pow_zero, mul_one] at hself

/-- The nearest double is a double. -/
theorem nearest_nearest (n : ℕ) : nearest (nearest n) = nearest n := by
  by_cases hsmall : n < 2 ^ 53
  · rw [nearest_of_lt hsmall, nearest_of_lt hsmall]
  · have hne : n ≠ 0 := by omega
    have hlog : 53 ≤ n.log2 := (Nat.le_log2 hne).mpr (not_lt.mp hsmall)
    -- the quotient has 53 digits
    have hquotient : n / spacing n < 2 ^ 53 := by
      rw [Nat.div_lt_iff_lt_mul (spacing_pos n)]
      unfold spacing
      rw [← pow_add]
      calc n < 2 ^ (n.log2 + 1) := Nat.lt_log2_self
        _ = 2 ^ (53 + (n.log2 - 52)) := by congr 1; omega
    unfold nearest
    dsimp only
    split
    · exact nearest_mul_two_pow hquotient.le _
    · exact nearest_mul_two_pow hquotient _

end Double
