-- Numerals in a base, with the most significant digit first: at least one digit, and no zero in
-- front of the others. They are the digits of Mathlib the other way round.
import Mathlib.Data.Nat.Digits.Lemmas

namespace positional

variable {b : Nat}

/-- The digits of `k`, most significant first. -/
def numeral (b k : Nat) : List Nat := if k = 0 then [0] else (Nat.digits b k).reverse

/-- The number that digits stand for, when `v` stands in front of them. -/
def valueFrom (b v : Nat) (ds : List Nat) : Nat := ds.foldl (fun v d => v * b + d) v

theorem numeral_of_lt {k : Nat} (h : k < b) : numeral b k = [k] := by
  unfold numeral
  by_cases h0 : k = 0
  · rw [if_pos h0, h0]
  · rw [if_neg h0, Nat.digits_of_lt b k h0 h, List.reverse_singleton]

/-- The last digit is the remainder, and the digits in front of it are those of the quotient. -/
theorem numeral_of_le {k : Nat} (hb : 1 < b) (h : b ≤ k) :
    numeral b k = numeral b (k / b) ++ [k % b] := by
  have hk : 0 < k := by omega
  have hq : k / b ≠ 0 := Nat.ne_of_gt (Nat.div_pos h (by omega))
  unfold numeral
  rw [if_neg (Nat.ne_of_gt hk), if_neg hq, Nat.digits_def' hb hk, List.reverse_cons]

theorem digit_lt {k d : Nat} (hb : 1 < b) (hd : d ∈ numeral b k) : d < b := by
  unfold numeral at hd
  split at hd
  · rw [List.mem_singleton] at hd
    omega
  · exact Nat.digits_lt_base hb (List.mem_reverse.mp hd)

/-- No zero stands in front of other digits. -/
theorem head_numeral {k : Nat} (h : (numeral b k).head? = some 0) : k = 0 := by
  by_contra hk
  have hlast := Nat.getLast_digit_ne_zero b hk
  unfold numeral at h
  rw [if_neg hk, List.head?_reverse,
    List.getLast?_eq_getLast_of_ne_nil (Nat.digits_ne_nil_iff_ne_zero.mpr hk),
    Option.some.injEq] at h
  exact hlast h

theorem length_numeral (hb : 1 < b) (k : Nat) : (numeral b k).length = Nat.log b k + 1 := by
  unfold numeral
  split
  · rename_i hk
    simp [hk]
  · rename_i hk
    rw [List.length_reverse, Nat.length_digits b k hb hk]

theorem valueFrom_append (v : Nat) (l r : List Nat) :
    valueFrom b v (l ++ r) = valueFrom b (valueFrom b v l) r := List.foldl_append ..

/-- Reduced on the way or at the end, the number is the same. -/
theorem valueFrom_mod (M v : Nat) (ds : List Nat) :
    valueFrom b (v % M) ds % M = valueFrom b v ds % M := by
  induction ds generalizing v with
  | nil => exact Nat.mod_mod v M
  | cons d ds ih =>
    show valueFrom b (v % M * b + d) ds % M = valueFrom b (v * b + d) ds % M
    rw [← ih (v % M * b + d), ← ih (v * b + d), Nat.add_mod (v % M * b), Nat.mod_mul_mod,
      ← Nat.add_mod]

/-- The digits stand for their number. -/
theorem value_numeral (hb : 1 < b) (k : Nat) : valueFrom b 0 (numeral b k) = k := by
  induction k using Nat.strong_induction_on with
  | _ k ih =>
    by_cases hk : k < b
    · rw [numeral_of_lt hk]
      simp [valueFrom]
    · have hle := Nat.le_of_not_lt hk
      rw [numeral_of_le hb hle, valueFrom_append, ih (k / b) (Nat.div_lt_self (by omega) hb)]
      show k / b * b + k % b = k
      rw [Nat.mul_comm]
      exact Nat.div_add_mod k b

/-! ## The shortest numeral -/

theorem valueFrom_lt (v : Nat) {ds : List Nat} (h : ∀ d ∈ ds, d < b) :
    valueFrom b v ds < (v + 1) * b ^ ds.length := by
  induction ds generalizing v with
  | nil =>
    show v < (v + 1) * b ^ 0
    rw [pow_zero, Nat.mul_one]
    exact Nat.lt_succ_self v
  | cons d ds ih =>
    have hd : d < b := h d List.mem_cons_self
    have hnext : v * b + d + 1 ≤ (v + 1) * b := by
      rw [Nat.add_mul]
      omega
    calc valueFrom b (v * b + d) ds
        < (v * b + d + 1) * b ^ ds.length := ih _ fun e he => h e (List.mem_cons_of_mem d he)
      _ ≤ (v + 1) * b * b ^ ds.length := Nat.mul_le_mul_right _ hnext
      _ = (v + 1) * b ^ (d :: ds).length := by rw [List.length_cons, pow_succ', Nat.mul_assoc]

/-- Digits of `k`, as few as there can be, with a leading zero only for `k = 0`. -/
structure ShortestNumeral (b k : Nat) (ds : List Nat) : Prop where
  nonempty : ds ≠ []
  digits : ∀ d ∈ ds, d < b
  value : valueFrom b 0 ds = k
  leading : ds.head? = some 0 → ds = [0]
  shortest : ∀ es, es ≠ [] → (∀ d ∈ es, d < b) → valueFrom b 0 es = k → ds.length ≤ es.length

theorem shortest_numeral (hb : 1 < b) (k : Nat) : ShortestNumeral b k (numeral b k) := by
  refine ⟨?_, fun d hd => digit_lt hb hd, value_numeral hb k, fun h => ?_, ?_⟩
  · apply List.length_pos_iff.mp
    rw [length_numeral hb]
    exact Nat.succ_pos _
  · rw [head_numeral h]
    exact if_pos rfl
  · intro es hne hdigits hvalue
    have hlt := valueFrom_lt 0 hdigits
    rw [hvalue, Nat.zero_add, Nat.one_mul] at hlt
    rw [length_numeral hb]
    exact Nat.log_lt_of_lt_pow' (Nat.ne_of_gt (List.length_pos_iff.mpr hne)) hlt

end positional
