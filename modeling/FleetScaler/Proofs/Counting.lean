import FleetScaler.Pass.Basic

/-!
# Counting in 32 bits

A number of instances is cut to 32 bits before anything is done with it. Fewer than 2 ^ 31 of them
are counted as they are. More are counted as too few, never as too many: so whoever is found to have
enough has enough, while whoever is found to have too few may have plenty.
-/

namespace FleetScaler

theorem wrap32_eq_bmod (i : Int) : wrap32 i = i.bmod 4294967296 := BitVec.toInt_ofInt i

/-- A number in the 32-bit range does not wrap around. -/
theorem wrap32_of_range {i : Int} (hlow : -2147483648 ≤ i) (hhigh : i < 2147483648) :
    wrap32 i = i := by
  rw [wrap32_eq_bmod]
  exact Int.bmod_eq_of_le_mul_two (by omega) (by omega)

theorem wrap32_le {i : Int} (h : 0 ≤ i) : wrap32 i ≤ i := by
  rw [wrap32_eq_bmod, Int.bmod_def]
  omega

section count32

variable {β : Type} {l : List β}

/-- What 32 bits can hold is counted as it is. -/
theorem count32_of_lt (h : l.length < 2147483648) : count32 l = l.length :=
  wrap32_of_range (by omega) (by omega)

/-- Nothing is counted for more than it is. -/
theorem count32_le_length (l : List β) : count32 l ≤ l.length := wrap32_le (by omega)

/-- Whoever lacks entries is found to do so. -/
theorem count32_lt_of_length_lt {n : Int} (h : (l.length : Int) < n) : count32 l < n :=
  Int.lt_of_le_of_lt (count32_le_length l) h

/-- Whoever is found to have enough entries has enough. -/
theorem le_length_of_le_count32 {n : Int} (h : n ≤ count32 l) : n ≤ (l.length : Int) :=
  Int.le_trans h (count32_le_length l)

/-- The difference between a number that is not negative and a number of entries. -/
theorem wrap32_sub_count32 {n : Int} (hlow : 0 ≤ n) (hhigh : n < 2147483648)
    (h : l.length < 2147483648) : wrap32 (n - count32 l) = n - l.length := by
  rw [count32_of_lt h, wrap32_of_range (by omega) (by omega)]

end count32

end FleetScaler
