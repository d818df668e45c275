-- Bit fields of a word: a field of `n` bits from bit `lo` up, and what setting one
-- field does to it and to the others.
import Mathlib.Algebra.Order.Ring.Nat
import Mathlib.Tactic.Ring

namespace bit_fields

def field (w lo n : Nat) : Nat := w / 2 ^ lo % 2 ^ n

/-- The word with the field replaced. A value that is too large loses its high bits. -/
def setField (w lo n v : Nat) : Nat := w - field w lo n * 2 ^ lo + v % 2 ^ n * 2 ^ lo

theorem field_lt (w lo n : Nat) : field w lo n < 2 ^ n := Nat.mod_lt _ (Nat.two_pow_pos n)

@[simp] theorem field_zero (lo n : Nat) : field 0 lo n = 0 := by simp [field]

/-- The word below the field, the field, and the word above it. -/
theorem word_split (w lo n : Nat) :
    w = w / 2 ^ (lo + n) * 2 ^ (lo + n) + field w lo n * 2 ^ lo + w % 2 ^ lo := by
  have h1 : w / 2 ^ lo * 2 ^ lo + w % 2 ^ lo = w := Nat.div_add_mod' w _
  have h2 : w / 2 ^ lo / 2 ^ n * 2 ^ n + w / 2 ^ lo % 2 ^ n = w / 2 ^ lo := Nat.div_add_mod' _ _
  unfold field
  rw [pow_add, ← Nat.div_div_eq_div_mul]
  calc w = (w / 2 ^ lo / 2 ^ n * 2 ^ n + w / 2 ^ lo % 2 ^ n) * 2 ^ lo + w % 2 ^ lo := by
        rw [h2, h1]
    _ = _ := by ring

theorem setField_split (w lo n v : Nat) :
    setField w lo n v = w / 2 ^ (lo + n) * 2 ^ (lo + n) + v % 2 ^ n * 2 ^ lo + w % 2 ^ lo := by
  have h := word_split w lo n
  unfold setField
  omega

/-- The bits above the field stay. -/
theorem setField_above (w lo n v : Nat) :
    setField w lo n v / 2 ^ (lo + n) = w / 2 ^ (lo + n) := by
  have hlow : v % 2 ^ n * 2 ^ lo + w % 2 ^ lo < 2 ^ (lo + n) := by
    have h1 : w % 2 ^ lo < 2 ^ lo := Nat.mod_lt _ (Nat.two_pow_pos lo)
    have h2 : v % 2 ^ n + 1 ≤ 2 ^ n := Nat.mod_lt _ (Nat.two_pow_pos n)
    calc v % 2 ^ n * 2 ^ lo + w % 2 ^ lo < (v % 2 ^ n + 1) * 2 ^ lo := by
          rw [Nat.add_mul, Nat.one_mul]
          omega
      _ ≤ 2 ^ n * 2 ^ lo := Nat.mul_le_mul_right _ h2
      _ = 2 ^ (lo + n) := by rw [pow_add, Nat.mul_comm]
  rw [setField_split, Nat.add_assoc, Nat.add_comm, Nat.add_mul_div_right _ _ (Nat.two_pow_pos _),
    Nat.div_eq_of_lt hlow, Nat.zero_add]

/-- The bits below the field stay. -/
theorem setField_below (w lo n v : Nat) : setField w lo n v % 2 ^ lo = w % 2 ^ lo := by
  have hform : setField w lo n v =
      w % 2 ^ lo + 2 ^ lo * (w / 2 ^ (lo + n) * 2 ^ n + v % 2 ^ n) := by
    rw [setField_split, pow_add]
    ring
  rw [hform, Nat.add_mul_mod_self_left, Nat.mod_mod]

theorem field_setField (w lo n v : Nat) : field (setField w lo n v) lo n = v % 2 ^ n := by
  have h := word_split (setField w lo n v) lo n
  rw [setField_above, setField_below] at h
  have hs := setField_split w lo n v
  have hpos : 0 < 2 ^ lo := Nat.two_pow_pos lo
  have heq : field (setField w lo n v) lo n * 2 ^ lo = v % 2 ^ n * 2 ^ lo := by omega
  exact Nat.eq_of_mul_eq_mul_right hpos heq

/-- A field that lies above or below another one does not change with it. -/
theorem field_setField_ne {lo n lo' n' : Nat} (w v : Nat) (h : lo' + n' ≤ lo ∨ lo + n ≤ lo') :
    field (setField w lo n v) lo' n' = field w lo' n' := by
  unfold field
  rcases h with h | h
  · have hlow : ∀ u, u / 2 ^ lo' % 2 ^ n' = u % 2 ^ lo / 2 ^ lo' % 2 ^ n' := by
      intro u
      have hpow : 2 ^ lo = 2 ^ lo' * 2 ^ n' * 2 ^ (lo - (lo' + n')) := by
        rw [← pow_add, ← pow_add]
        congr 1
        omega
      rw [hpow, Nat.mul_assoc, Nat.mod_mul_right_div_self, Nat.mod_mul_right_mod]
    rw [hlow, setField_below, ← hlow]
  · have hhigh : ∀ u, u / 2 ^ lo' = u / 2 ^ (lo + n) / 2 ^ (lo' - (lo + n)) := by
      intro u
      rw [Nat.div_div_eq_div_mul, ← pow_add]
      congr 2
      omega
    rw [hhigh, setField_above, ← hhigh]

theorem setField_lt {w lo n : Nat} (v bits : Nat) (hw : w < 2 ^ bits) (h : lo + n ≤ bits) :
    setField w lo n v < 2 ^ bits := by
  have hdiv := setField_above w lo n v
  have hpow : 2 ^ bits = 2 ^ (bits - (lo + n)) * 2 ^ (lo + n) := by
    rw [← pow_add]
    congr 1
    omega
  rw [hpow] at hw ⊢
  rw [← Nat.div_lt_iff_lt_mul (Nat.two_pow_pos _)] at hw ⊢
  rwa [hdiv]

/-! ## Masks -/

/-- Two parts of a word that lie apart. -/
theorem or_eq_add {n a b : Nat} (ha : a % 2 ^ n = 0) (hb : b < 2 ^ n) : a ||| b = a + b := by
  obtain ⟨c, rfl⟩ := Nat.dvd_of_mod_eq_zero ha
  exact (Nat.two_pow_add_eq_or_of_lt hb c).symm

/-- The mask of all bits from `n` up clears the low ones. -/
theorem and_high {x m n : Nat} (hx : x < 2 ^ m) (h : n ≤ m) :
    x &&& (2 ^ m - 2 ^ n) = 2 ^ n * (x / 2 ^ n) := by
  have hmask : 2 ^ m - 2 ^ n = 2 ^ n * (2 ^ (m - n) - 1) := by
    rw [Nat.mul_sub, Nat.mul_one, ← pow_add, Nat.add_sub_cancel' h]
  apply Nat.eq_of_testBit_eq
  intro i
  rw [hmask, Nat.testBit_and, Nat.testBit_two_pow_mul, Nat.testBit_two_pow_mul,
    Nat.testBit_two_pow_sub_one, Nat.testBit_div_two_pow]
  by_cases hi : n ≤ i
  · rw [Nat.sub_add_cancel hi]
    by_cases him : i < m
    · simp [hi, show i - n < m - n by omega]
    · have hzero : x.testBit i = false :=
        Nat.testBit_lt_two_pow (Nat.lt_of_lt_of_le hx (Nat.pow_le_pow_right (by omega) (by omega)))
      simp [hzero]
  · simp [hi]

end bit_fields
