-- `itoa` and `atoi` are inverse to each other: the canonical numeral of an `int` is written, and
-- read back. The smallest `int` has no negative, and is the one that fails.
import SakanaOS.Strings
import SakanaOS.Positional
import SakanaOS.Tokens

open byte_memory positional

namespace sakana_os

/-! ## Canonical numerals -/

/-- The character of a decimal digit. -/
def digitChar (d : Nat) : UInt8 := UInt8.ofNat (d + '0'.toNat)

/-- The canonical numeral of an `int`: a minus sign when it is negative, and its digits without
a zero in front. -/
def decimalChars (n : Int) : List UInt8 :=
  (if n < 0 then ['-'.toUInt8] else []) ++ (numeral 10 n.natAbs).map digitChar

theorem digitChar_range {d : Nat} (h : d < 10) :
    '0'.toUInt8 ≤ digitChar d ∧ digitChar d ≤ '9'.toUInt8 ∧
      (digitChar d - '0'.toUInt8).toNat = d := by
  have hall : ∀ d < 10, '0'.toUInt8 ≤ digitChar d ∧ digitChar d ≤ '9'.toUInt8 ∧
      (digitChar d - '0'.toUInt8).toNat = d := by decide
  exact hall d h

/-! ## `itoa` -/

theorem intChar_tmod (k : Nat) : intChar ((k : Int).tmod 10 + '0'.toNat) = digitChar (k % 10) := by
  have hzero : '0'.toNat = 48 := rfl
  have hmod : (k : Int).tmod 10 = ((k % 10 : Nat) : Int) := by
    rw [Int.tmod_eq_emod_of_nonneg (by omega)]
    omega
  unfold intChar digitChar ofInt
  rw [hmod, hzero]
  congr 1
  omega

/-- The loop writes the digits of a number that is no `-2147483648`. -/
theorem digitsBackwards_numeral (turns k : Nat) (h : k < 10 ^ (turns + 1)) :
    digitsBackwards turns k = ((numeral 10 k).map digitChar).reverse := by
  induction turns generalizing k with
  | zero =>
    have hk : k < 10 := by omega
    rw [digitsBackwards, intChar_tmod, numeral_of_lt hk, Nat.mod_eq_of_lt hk]
    rfl
  | succ turns ih =>
    rw [digitsBackwards, intChar_tmod]
    by_cases hk : k < 10
    · have hdone : ¬ (k : Int).tdiv 10 > 0 := by
        rw [tdiv_ten_pos]
        omega
      rw [if_neg hdone, numeral_of_lt hk, Nat.mod_eq_of_lt hk]
      rfl
    · have hle : 10 ≤ k := Nat.le_of_not_lt hk
      have hmore : (k : Int).tdiv 10 > 0 := by
        rw [tdiv_ten_pos]
        omega
      have hdiv : (k : Int).tdiv 10 = ((k / 10 : Nat) : Int) := by
        rw [Int.tdiv_eq_ediv_of_nonneg (by omega)]
        omega
      have hlt : k / 10 < 10 ^ (turns + 1) := by
        rw [pow_succ] at h
        omega
      rw [if_pos hmore, hdiv, ih (k / 10) hlt, numeral_of_le (by decide) hle, List.map_append,
        List.reverse_append]
      rfl

theorem itoaChars_decimal {n : Int} (hlo : -2147483648 < n) (hhi : n < 2147483648) :
    itoaChars n = decimalChars n := by
  have habs : (if n < 0 then negInt n else n) = (n.natAbs : Int) := by
    split
    · unfold negInt toInt ofInt
      split <;> omega
    · omega
  unfold itoaChars decimalChars
  rw [habs, digitsBackwards_numeral 9 n.natAbs (by omega), List.reverse_append,
    List.reverse_reverse]
  split
  · rfl
  · rfl

/-! ## `atoi` -/

/-- The loop over the digits computes their number, as a word. -/
theorem atoi_digits_spec {ds : List Nat} (h : ∀ d ∈ ds, d < 10) {v : Nat} (hv : v < 4294967296) :
    atoi_digits v (ds.map digitChar) = valueFrom 10 v ds % 4294967296 := by
  induction ds generalizing v with
  | nil => exact (Nat.mod_eq_of_lt hv).symm
  | cons d ds ih =>
    obtain ⟨hlo, hhi, hvalue⟩ := digitChar_range (h d List.mem_cons_self)
    have hword : add32 (mul32 v 10) d = (v * 10 + d) % 4294967296 := by
      unfold add32 mul32
      omega
    rw [List.map_cons, atoi_digits, if_pos ⟨hlo, hhi⟩, hvalue, hword,
      ih (fun e he => h e (List.mem_cons_of_mem d he)) (Nat.mod_lt _ (by decide)), valueFrom_mod]
    rfl

/-- A digit is neither skipped nor taken for a sign. -/
theorem atoi_unsigned {ds : List Nat} (h : ∀ d ∈ ds, d < 10) :
    atoi (ds.map digitChar) = valueFrom 10 0 ds % 4294967296 := by
  cases ds with
  | nil => rfl
  | cons d ds =>
    have hd := h d List.mem_cons_self
    have hall : ∀ d < 10, atoi_space (digitChar d) = false ∧ digitChar d ≠ '+'.toUInt8 ∧
        digitChar d ≠ '-'.toUInt8 := by decide
    obtain ⟨hspace, hplus, hminus⟩ := hall d hd
    have hdrop : ((d :: ds).map digitChar).dropWhile atoi_space = (d :: ds).map digitChar := by
      rw [List.map_cons, List.dropWhile_cons, hspace]
      rfl
    rw [← atoi_digits_spec h (by decide)]
    unfold atoi
    rw [hdrop, List.map_cons]
    simp only [if_neg hplus, if_neg hminus]

theorem atoi_minus {ds : List Nat} (h : ∀ d ∈ ds, d < 10) :
    atoi ('-'.toUInt8 :: ds.map digitChar) = sub32 0 (valueFrom 10 0 ds % 4294967296) := by
  rw [← atoi_digits_spec h (by decide)]
  rfl

/-- `atoi` reads every `int` back from its numeral, the smallest one included. -/
theorem atoi_decimal {n : Int} (hlo : -2147483648 ≤ n) (hhi : n < 2147483648) :
    toInt (atoi (decimalChars n)) = n := by
  have hdigits : ∀ d ∈ numeral 10 n.natAbs, d < 10 := fun d hd => digit_lt (by decide) hd
  unfold decimalChars
  split
  · rw [List.singleton_append, atoi_minus hdigits, value_numeral (by decide)]
    unfold toInt sub32
    split <;> omega
  · rw [List.nil_append, atoi_unsigned hdigits, value_numeral (by decide)]
    unfold toInt
    split <;> omega

/-! ## The round trip -/

/-- `itoa` writes the canonical numeral with its NUL, and nothing else, and returns the address
of the NUL. `atoi` of the string that is then at `str` is the number. -/
structure RoundTrips (m : Mem) (n : Int) (str : Nat) : Prop where
  written : Printed m (itoa m n str).1 str (decimalChars n)
  returned : (itoa m n str).2 = str + (decimalChars n).length
  read_back : ∃ chars, StringAt (itoa m n str).1 str chars ∧ toInt (atoi chars) = n

theorem itoa_stringAt (m : Mem) (n : Int) (str : Nat) :
    StringAt (itoa m n str).1 str (itoaChars n) := by
  obtain ⟨hprinted, -⟩ := itoa_spec m n str
  exact ⟨hprinted.bytes, hprinted.nul, itoaChars_nonzero n⟩

/-- The smallest `int` is written as a minus sign and the character 8 below '0'. -/
theorem smallest_int_chars : itoaChars (-2147483648) = ['-'.toUInt8, '('.toUInt8] := by
  decide

theorem smallest_int_lost (m : Mem) (str : Nat) : ¬ RoundTrips m (-2147483648) str := by
  rintro ⟨-, -, chars, hchars, hread⟩
  rw [hchars.unique (itoa_stringAt m (-2147483648) str), smallest_int_chars] at hread
  exact absurd hread (by decide +kernel)

/-- Every `int` but the smallest one goes through its numeral and back. -/
theorem an_int_survives_its_numeral_unless_it_is_the_smallest {n : Int} (hlo : -2147483648 ≤ n)
    (hhi : n < 2147483648) (m : Mem) (str : Nat) :
    RoundTrips m n str ↔ n ≠ -2147483648 := by
  constructor
  · rintro hround rfl
    exact smallest_int_lost m str hround
  · intro hne
    have heq := itoaChars_decimal (by omega) hhi
    obtain ⟨hprinted, hend⟩ := itoa_spec m n str
    have hstring := itoa_stringAt m n str
    rw [heq] at hprinted hend hstring
    exact ⟨hprinted, hend, _, hstring, atoi_decimal hlo hhi⟩

theorem minus_forty_survives_its_numeral : RoundTrips (fun _ => 0) (-40) 0x2000 :=
  (an_int_survives_its_numeral_unless_it_is_the_smallest (by decide) (by decide) _ _).mpr
    (by decide)

theorem the_smallest_int_is_lost : ¬ RoundTrips (fun _ => 0) (-2147483648) 0x2000 :=
  smallest_int_lost (fun _ => 0) 0x2000

end sakana_os
