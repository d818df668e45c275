-- Linear congruential generators with a power of two as modulus. When the multiplier is 1 modulo
-- 4 and the increment odd, the low bits of the states repeat as late as they can. What the high
-- bits of a few states say of the others is a question of small integer combinations.
import Mathlib.Algebra.BigOperators.Ring.Nat
import Mathlib.Algebra.Order.BigOperators.Group.Finset
import Mathlib.Algebra.Order.Ring.Abs
import Mathlib.Algebra.Order.Ring.Int
import Mathlib.Algebra.Ring.GeomSum
import Mathlib.Data.Nat.ModEq
import Mathlib.Data.Nat.Prime.Basic
import Mathlib.Tactic.Ring

namespace lcg

open Finset

/-- A step, before it is reduced. -/
def step (a c x : Nat) : Nat := a * x + c

variable {a c : Nat}

theorem step_modEq (a c : Nat) {N x y : Nat} (h : x ≡ y [MOD N]) :
    step a c x ≡ step a c y [MOD N] := (h.mul_left a).add_right c

theorem iterate_step_modEq (a c n : Nat) {N x y : Nat} (h : x ≡ y [MOD N]) :
    (step a c)^[n] x ≡ (step a c)^[n] y [MOD N] := by
  induction n generalizing x y with
  | zero => exact h
  | succ n ih => exact ih (step_modEq a c h)

/-- After `n` steps the state has gone forward by the first step, as often as the geometric sum. -/
theorem iterate_step (b c n x : Nat) :
    (step (b + 1) c)^[n] x = x + (∑ i ∈ range n, (b + 1) ^ i) * (b * x + c) := by
  induction n with
  | zero => simp
  | succ n ih =>
    rw [Function.iterate_succ_apply', ih, geom_sum_succ]
    unfold step
    ring

/-! ## The geometric sum -/

theorem odd_geom_sum (ha : a % 4 = 1) (n : Nat) : (∑ i ∈ range n, a ^ i) % 2 = n % 2 := by
  induction n with
  | zero => rfl
  | succ n ih =>
    have hpow : a ^ n % 2 = 1 := by
      have hodd : a % 2 = 1 := by omega
      rw [Nat.pow_mod, hodd, one_pow]
      rfl
    rw [geom_sum_succ']
    omega

/-- The sum of twice as many powers is twice the sum, up to an odd factor. -/
theorem geom_sum_double (ha : a % 4 = 1) (n : Nat) :
    ∃ u, Odd u ∧ ∑ i ∈ range (n + n), a ^ i = 2 * u * ∑ i ∈ range n, a ^ i := by
  have hpow : a ^ n % 4 = 1 := by
    rw [Nat.pow_mod, ha, one_pow]
    rfl
  refine ⟨(a ^ n + 1) / 2, Nat.odd_iff.mpr (by omega), ?_⟩
  have hhalf : 2 * ((a ^ n + 1) / 2) = a ^ n + 1 := by omega
  rw [hhalf, sum_range_add]
  simp only [pow_add, ← mul_sum]
  ring

/-- The sum has as many factors 2 as the number of its terms. -/
theorem two_pow_dvd_geom_sum (ha : a % 4 = 1) (k n : Nat) :
    2 ^ k ∣ ∑ i ∈ range n, a ^ i ↔ 2 ^ k ∣ n := by
  induction k generalizing n with
  | zero => simp
  | succ k ih =>
    rcases Nat.even_or_odd' n with ⟨m, rfl | rfl⟩
    · obtain ⟨u, hodd, hsum⟩ := geom_sum_double ha m
      have hcop : Nat.Coprime (2 ^ k) u := Nat.Coprime.pow_left k hodd.coprime_two_left
      rw [two_mul, hsum, ← two_mul, pow_succ', Nat.mul_assoc, Nat.mul_dvd_mul_iff_left (by decide),
        Nat.mul_dvd_mul_iff_left (by decide), hcop.dvd_mul_left, ih]
    · have hodd := odd_geom_sum ha (2 * m + 1)
      have heven : ∀ x, 2 ^ (k + 1) ∣ x → x % 2 = 0 := fun x hx =>
        Nat.mod_eq_zero_of_dvd (Nat.dvd_trans (Dvd.intro_left (2 ^ k) rfl) hx)
      constructor
      · intro h
        have := heven _ h
        omega
      · intro h
        have := heven _ h
        omega

/-! ## The period -/

/-- The states come back modulo `2 ^ k` exactly after the multiples of `2 ^ k`. -/
theorem iterate_step_eq_self (ha : a % 4 = 1) (hc : Odd c) (k n x : Nat) :
    (step a c)^[n] x ≡ x [MOD 2 ^ k] ↔ 2 ^ k ∣ n := by
  obtain ⟨b, rfl⟩ : ∃ b, a = b + 1 := ⟨a - 1, by omega⟩
  have hodd : Odd (b * x + c) := by
    have heven : Even b := Nat.even_iff.mpr (by omega)
    exact (heven.mul_right x).add_odd hc
  have hcop : Nat.Coprime (2 ^ k) (b * x + c) := Nat.Coprime.pow_left k hodd.coprime_two_left
  rw [iterate_step, Nat.ModEq.comm, Nat.modEq_iff_dvd' (Nat.le_add_right x _),
    Nat.add_sub_cancel_left, hcop.dvd_mul_right, two_pow_dvd_geom_sum ha]

/-- Two states agree modulo `2 ^ k` exactly when their places in the run do. -/
theorem iterate_step_modEq_iff (ha : a % 4 = 1) (hc : Odd c) (k n m x : Nat) :
    (step a c)^[n] x ≡ (step a c)^[m] x [MOD 2 ^ k] ↔ n ≡ m [MOD 2 ^ k] := by
  wlog hle : m ≤ n generalizing n m
  · rw [Nat.ModEq.comm, this m n (Nat.le_of_not_le hle), Nat.ModEq.comm]
  obtain ⟨t, rfl⟩ := Nat.exists_eq_add_of_le hle
  rw [Nat.add_comm, Function.iterate_add_apply, iterate_step_eq_self ha hc, Nat.ModEq.comm,
    Nat.modEq_iff_dvd' (Nat.le_add_left m t), Nat.add_sub_cancel]

/-! ## Differences of two runs -/

section

variable {A M B : Int} {v : Nat → Int}

/-- The differences of the states of two runs are multiples of the first one. -/
theorem dvd_sub_pow (hv : ∀ k, M ∣ v (k + 1) - A * v k) (k : Nat) : M ∣ v k - A ^ k * v 0 := by
  induction k with
  | zero => simp
  | succ k ih =>
    have hsum := (hv k).add (ih.mul_left A)
    have heq : v (k + 1) - A * v k + A * (v k - A ^ k * v 0) = v (k + 1) - A ^ (k + 1) * v 0 := by
      ring
    rwa [heq] at hsum

/-- Small differences satisfy, as integers, each small relation that the powers of the multiplier
satisfy modulo `M`. -/
theorem combination_eq_zero (hv : ∀ k, M ∣ v (k + 1) - A * v k) {n : Nat}
    (hsmall : ∀ k < n, |v k| ≤ B) (c : Nat → Int) (hc : M ∣ ∑ k ∈ range n, c k * A ^ k)
    (hsum : (∑ k ∈ range n, |c k|) * B < M) : ∑ k ∈ range n, c k * v k = 0 := by
  apply Int.eq_zero_of_abs_lt_dvd (m := M)
  · have hall : M ∣ ∑ k ∈ range n, c k * (v k - A ^ k * v 0) :=
      dvd_sum fun k _ => (dvd_sub_pow hv k).mul_left (c k)
    have heq : ∑ k ∈ range n, c k * v k =
        ∑ k ∈ range n, c k * (v k - A ^ k * v 0) + (∑ k ∈ range n, c k * A ^ k) * v 0 := by
      rw [sum_mul, ← sum_add_distrib]
      apply sum_congr rfl
      intro k _
      ring
    rw [heq]
    exact hall.add (hc.mul_right (v 0))
  · calc |∑ k ∈ range n, c k * v k|
        ≤ ∑ k ∈ range n, |c k * v k| := abs_sum_le_sum_abs _ _
      _ ≤ ∑ k ∈ range n, |c k| * B := by
          apply sum_le_sum
          intro k hk
          rw [abs_mul]
          exact mul_le_mul_of_nonneg_left (hsmall k (mem_range.mp hk)) (abs_nonneg (c k))
      _ = (∑ k ∈ range n, |c k|) * B := (sum_mul _ _ _).symm
      _ < M := hsum

end

end lcg
