import Mathlib

/-!
# Numbers of 53 binary digits

A double has 53 significant binary digits.  An integer that has more is rounded to the nearest one that has as many; of two
that are as near, the even one is taken.

* `roundedQuotient`, `nearestNat`, `nearest`: the rounded numbers.
* `Short`: numbers that need no rounding; `nearest_eq_self_iff`: these are kept.
* `nearest_near`: no short number is nearer.
-/

namespace Tablewright.Number

/-- The natural number nearest to `n / d`; of two that are as near, the even one. -/
def roundedQuotient (n d : Nat) : Nat :=
  if 2 * (n % d) < d then n / d
  else if 2 * (n % d) = d then n / d + n / d % 2
  else n / d + 1

/-- The number of binary digits of a number beyond the 53 that a double has. -/
def excess (n : Nat) : Nat := n.log2 - 52

/-- The number of at most 53 significant binary digits nearest to `n`. -/
def nearestNat (n : Nat) : Nat := roundedQuotient n (2 ^ excess n) * 2 ^ excess n

/-- The integer of at most 53 significant binary digits nearest to `n`. -/
def nearest (n : Int) : Int := n.sign * nearestNat n.natAbs

/-- Numbers of at most 53 significant binary digits. -/
def Short (n : Nat) : Prop := ∃ m k : Nat, m ≤ 2 ^ 53 ∧ n = m * 2 ^ k

def distance (m n : Nat) : Nat := ((m : Int) - n).natAbs

/-! ## Quotients -/

theorem roundedQuotient_one (n : Nat) : roundedQuotient n 1 = n := by
  simp [roundedQuotient, Nat.mod_one]

theorem roundedQuotient_mul (n d : Nat) {c : Nat} (pos : 0 < c) :
    roundedQuotient (n * c) (d * c) = roundedQuotient n d := by
  have quotient : n * c / (d * c) = n / d := Nat.mul_div_mul_right n d pos
  have rest : n * c % (d * c) = n % d * c := Nat.mul_mod_mul_right c n d
  have less : 2 * (n % d * c) < d * c ↔ 2 * (n % d) < d := by
    rw [← Nat.mul_assoc]
    exact Nat.mul_lt_mul_right pos
  have same : 2 * (n % d * c) = d * c ↔ 2 * (n % d) = d := by
    rw [← Nat.mul_assoc]
    exact Nat.mul_left_inj (by omega)
  simp only [roundedQuotient, quotient, rest, less, same]

theorem roundedQuotient_bounds (n d : Nat) : n / d ≤ roundedQuotient n d ∧ roundedQuotient n d ≤ n / d + 1 := by
  unfold roundedQuotient
  split
  · omega
  · split <;> omega

/-- The rounded quotient is as near as the two multiples around the number. -/
theorem roundedQuotient_near (n : Nat) {d : Nat} (pos : 0 < d) :
    distance n (roundedQuotient n d * d) ≤ n - n / d * d ∧
      distance n (roundedQuotient n d * d) ≤ (n / d + 1) * d - n := by
  have split : n / d * d + n % d = n := Nat.div_add_mod' n d
  have small : n % d < d := Nat.mod_lt n pos
  have above : (n / d + 1) * d = n / d * d + d := Nat.succ_mul _ _
  have rounded : roundedQuotient n d = n / d ∧ 2 * (n % d) ≤ d ∨ roundedQuotient n d = n / d + 1 ∧ d ≤ 2 * (n % d) := by
    unfold roundedQuotient
    split
    · exact .inl (by omega)
    · split
      · rcases Nat.mod_two_eq_zero_or_one (n / d) with even | odd
        · exact .inl (by omega)
        · exact .inr (by omega)
      · exact .inr (by omega)
  unfold distance
  rcases rounded with ⟨same, low⟩ | ⟨same, high⟩ <;> rw [same] <;> constructor <;> omega

/-! ## Short numbers -/

/-- The first 53 digits of a number that has as many. -/
theorem le_div_two_pow_excess {n : Nat} (wide : 52 ≤ n.log2) : 2 ^ 52 ≤ n / 2 ^ excess n := by
  have digits : 52 + excess n = n.log2 := Nat.add_sub_of_le wide
  rw [Nat.le_div_iff_mul_le (Nat.two_pow_pos _), ← Nat.pow_add, digits]
  refine Nat.log2_self_le ?_
  rintro rfl
  exact absurd wide (by decide)

/-- A short number is none of those strictly between the two multiples around another number. -/
theorem Short.outside {n k : Nat} (short : Short k) :
    k ≤ n / 2 ^ excess n * 2 ^ excess n ∨ (n / 2 ^ excess n + 1) * 2 ^ excess n ≤ k := by
  obtain ⟨m, j, few, rfl⟩ := short
  by_cases fine : excess n ≤ j
  · obtain ⟨i, rfl⟩ := Nat.exists_eq_add_of_le fine
    have multiple : m * 2 ^ (excess n + i) = m * 2 ^ i * 2 ^ excess n := by
      rw [Nat.pow_add]
      ac_rfl
    rw [multiple]
    rcases Nat.lt_or_ge (n / 2 ^ excess n) (m * 2 ^ i) with above | below
    · exact .inr (Nat.mul_le_mul_right _ above)
    · exact .inl (Nat.mul_le_mul_right _ below)
  · left
    have wide : 52 ≤ n.log2 := by
      unfold excess at fine
      omega
    calc m * 2 ^ j
      _ ≤ 2 ^ 53 * 2 ^ (excess n - 1) := Nat.mul_le_mul few (Nat.pow_le_pow_right (by decide) (by omega))
      _ = 2 ^ 52 * 2 ^ excess n := by
        rw [← Nat.pow_add, ← Nat.pow_add]
        congr 1
        omega
      _ ≤ n / 2 ^ excess n * 2 ^ excess n := Nat.mul_le_mul_right _ (le_div_two_pow_excess wide)

theorem roundedQuotient_excess (n : Nat) : roundedQuotient n (2 ^ excess n) ≤ 2 ^ 53 := by
  have quotient : n / 2 ^ excess n < 2 ^ 53 := by
    rw [Nat.div_lt_iff_lt_mul (Nat.two_pow_pos _), ← Nat.pow_add]
    exact Nat.lt_of_lt_of_le Nat.lt_log2_self (Nat.pow_le_pow_right (by decide) (by unfold excess; omega))
  exact Nat.le_trans (roundedQuotient_bounds _ _).2 quotient

theorem short_nearestNat (n : Nat) : Short (nearestNat n) :=
  ⟨roundedQuotient n (2 ^ excess n), excess n, roundedQuotient_excess n, rfl⟩

/-- No short number is nearer. -/
theorem nearestNat_near (n : Nat) {k : Nat} (short : Short k) : distance n (nearestNat n) ≤ distance n k := by
  obtain ⟨below, above⟩ := roundedQuotient_near n (Nat.two_pow_pos (excess n))
  have outside := short.outside (n := n)
  have lower : n / 2 ^ excess n * 2 ^ excess n ≤ n := Nat.div_mul_le_self _ _
  change distance n (nearestNat n) ≤ _ at below above
  generalize n / 2 ^ excess n * 2 ^ excess n = low at *
  generalize (n / 2 ^ excess n + 1) * 2 ^ excess n = high at *
  generalize distance n (nearestNat n) = near at *
  unfold distance
  omega

theorem Short.le_nearestNat {k n : Nat} (short : Short k) (le : k ≤ n) : k ≤ nearestNat n := by
  have near := nearestNat_near n short
  unfold distance at near
  omega

theorem nearestNat_eq_self_iff {n : Nat} : nearestNat n = n ↔ Short n := by
  constructor
  · intro same
    exact same ▸ short_nearestNat n
  · intro short
    have near := nearestNat_near n short
    unfold distance at near
    omega

theorem nearest_eq_self_iff {n : Int} : nearest n = n ↔ Short n.natAbs := by
  rw [← nearestNat_eq_self_iff, nearest]
  rcases Int.lt_trichotomy n 0 with negative | rfl | positive
  · rw [Int.sign_eq_neg_one_of_neg negative]
    omega
  · simp [nearestNat, roundedQuotient, excess]
  · rw [Int.sign_eq_one_of_pos positive]
    omega

/-- No short integer is nearer. -/
theorem nearest_near (n : Int) {k : Int} (short : Short k.natAbs) : (n - nearest n).natAbs ≤ (n - k).natAbs := by
  have near := nearestNat_near n.natAbs short
  unfold distance at near
  rw [nearest]
  rcases Int.lt_trichotomy n 0 with negative | rfl | positive
  · rw [Int.sign_eq_neg_one_of_neg negative]
    omega
  · simp
  · rw [Int.sign_eq_one_of_pos positive]
    omega

end Tablewright.Number
