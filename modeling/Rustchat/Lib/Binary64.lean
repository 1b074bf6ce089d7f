import Mathlib.Algebra.Order.Ring.Int
import Mathlib.Data.Nat.Size

/-!
# Numbers of binary64

A number is a mantissa and a power of two. Results are rounded to 53 bits, to the nearest number and in a tie to the even
one. The bounds on the exponent are left out: the numbers are far from the largest and the smallest one.
`toInt_mul_tenth` is about the product with the number next to a tenth.
-/

structure Binary64 where
  mantissa : ℤ
  exponent : ℤ

namespace Binary64

/-- The mantissa rounded to 53 bits, and how many bits that takes away. -/
def roundNat (m : ℕ) : ℕ × ℕ :=
  let shift := m.size - 53
  let rest := m % 2 ^ shift
  if 2 * rest < 2 ^ shift ∨ 2 * rest = 2 ^ shift ∧ m / 2 ^ shift % 2 = 0 then (m / 2 ^ shift, shift)
  else (m / 2 ^ shift + 1, shift)

def round (x : Binary64) : Binary64 :=
  let rounded := roundNat x.mantissa.natAbs
  ⟨x.mantissa.sign * rounded.1, x.exponent + rounded.2⟩

def ofInt (n : ℤ) : Binary64 := round ⟨n, 0⟩

def mul (x y : Binary64) : Binary64 := round ⟨x.mantissa * y.mantissa, x.exponent + y.exponent⟩

/-- The integer part. -/
def toInt (x : Binary64) : ℤ :=
  if 0 ≤ x.exponent then x.mantissa * 2 ^ x.exponent.toNat else x.mantissa.tdiv (2 ^ (-x.exponent).toNat)

def tenth : Binary64 := ⟨3602879701896397, -55⟩

/-! ### Rounding -/

theorem roundNat_spec (m : ℕ) : (roundNat m).2 = m.size - 53 ∧ m / 2 ^ (roundNat m).2 ≤ (roundNat m).1 ∧
    (roundNat m).1 ≤ m / 2 ^ (roundNat m).2 + 1 := by
  unfold roundNat
  dsimp only
  split
  · exact ⟨rfl, le_rfl, Nat.le_succ _⟩
  · exact ⟨rfl, Nat.le_succ _, le_rfl⟩

theorem roundNat_of_lt {m : ℕ} (h : m < 2 ^ 53) : roundNat m = (m, 0) := by
  have hshift : m.size - 53 = 0 := Nat.sub_eq_zero_of_le (Nat.size_le.2 h)
  unfold roundNat
  simp only [hshift, Nat.pow_zero, Nat.mod_one, Nat.div_one]
  rfl

theorem roundNat_div {m e k : ℕ} (hsize : m.size ≤ e + 53) (hlow : k * 2 ^ e ≤ m)
    (hhigh : m + 2 ^ (m.size - 53) < (k + 1) * 2 ^ e) :
    (roundNat m).1 / 2 ^ (e - (roundNat m).2) = k := by
  obtain ⟨hshift, hge, hle⟩ := roundNat_spec m
  generalize roundNat m = rounded at hshift hge hle ⊢
  obtain ⟨q, s⟩ := rounded
  dsimp only at hshift hge hle ⊢
  subst hshift
  have hpow : 2 ^ e = 2 ^ (e - (m.size - 53)) * 2 ^ (m.size - 53) := by
    rw [← Nat.pow_add]
    congr 1
    omega
  have hpos : 0 < 2 ^ (m.size - 53) := Nat.two_pow_pos _
  rw [hpow, ← Nat.mul_assoc] at hlow hhigh
  refine Nat.div_eq_of_lt_le ?_ ?_
  · exact ((Nat.le_div_iff_mul_le hpos).2 hlow).trans hge
  · refine lt_of_mul_lt_mul_right ?_ (Nat.zero_le (2 ^ (m.size - 53)))
    calc q * 2 ^ (m.size - 53) ≤ (m / 2 ^ (m.size - 53) + 1) * 2 ^ (m.size - 53) := Nat.mul_le_mul_right _ hle
      _ = m / 2 ^ (m.size - 53) * 2 ^ (m.size - 53) + 2 ^ (m.size - 53) := by rw [Nat.add_mul, Nat.one_mul]
      _ ≤ m + 2 ^ (m.size - 53) := Nat.add_le_add_right (Nat.div_mul_le_self _ _) _
      _ < _ := hhigh

theorem toInt_mul_tenth {d : ℕ} (h : d < 2 ^ 45) : toInt (mul (ofInt d) tenth) = ((d / 10 : ℕ) : ℤ) := by
  rcases Nat.eq_zero_or_pos d with rfl | hpos
  · rfl
  · have hd : ofInt d = ⟨d, 0⟩ := by
      have hexact : roundNat d = (d, 0) := roundNat_of_lt (by omega)
      simp [ofInt, round, hexact, Int.sign_eq_one_of_pos (Int.natCast_pos.2 hpos)]
    have hmantissa : (d : ℤ) * 3602879701896397 = ((d * 3602879701896397 : ℕ) : ℤ) := by push_cast; rfl
    have hsign : Int.sign ((d * 3602879701896397 : ℕ) : ℤ) = 1 := Int.sign_eq_one_of_pos (by omega)
    have hsize : (d * 3602879701896397).size ≤ 97 := Nat.size_le.2 (by omega)
    have hcut : 2 ^ ((d * 3602879701896397).size - 53) ≤ 2 ^ 44 := Nat.pow_le_pow_right (by decide) (by omega)
    have hdiv := @roundNat_div (d * 3602879701896397) 55 (d / 10) (by omega) (by omega) (by omega)
    have hshift := (roundNat_spec (d * 3602879701896397)).1
    rw [hd, mul, tenth, hmantissa, round, Int.natAbs_natCast, hsign, one_mul, toInt]
    generalize roundNat (d * 3602879701896397) = rounded at hshift hdiv ⊢
    obtain ⟨q, s⟩ := rounded
    dsimp only at hshift hdiv ⊢
    have hexponent : (-(0 + -55 + (s : ℤ))).toNat = 55 - s := by omega
    rw [if_neg (by omega), hexponent, ← hdiv]
    exact_mod_cast Int.ofNat_tdiv q (2 ^ (55 - s)) |>.symm

end Binary64
