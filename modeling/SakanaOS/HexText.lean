-- The text of `htoa`: the shortest hexadecimal numeral, digit by digit from the top. Its loop goes
-- down through the digits, while a numeral grows from its quotient by the base.
import SakanaOS.Strings
import SakanaOS.Positional

open byte_memory positional

namespace sakana_os

/-! ## The digits of the loop -/

theorem nibble_eq (n i : Nat) : (n >>> (4 * i)) &&& 0xF = n / 16 ^ i % 16 := by
  have hbase : 2 ^ (4 * i) = 16 ^ i := by
    rw [pow_mul]
    rfl
  rw [Nat.shiftRight_eq_div_pow, hbase]
  exact Nat.and_two_pow_sub_one_eq_mod (n / 16 ^ i) 4

/-- One digit more at the low end: it is left out as long as there were only zeros. -/
theorem hexChars_succ (n i : Nat) (zeros : Bool) :
    hexChars n (i + 1) zeros = hexChars (n / 16) i zeros ++
      if n / 16 % 16 ^ (i + 1) = 0 ∧ zeros = false then [] else [hexDigit (n / 16 % 16)] := by
  induction i generalizing zeros with
  | zero =>
    simp only [hexChars, nibble_eq, Nat.zero_add, pow_one, List.nil_append]
  | succ i ih =>
    -- the digit at the top is the same one on both sides
    have htop : n / 16 ^ (i + 1 + 1) = n / 16 / 16 ^ (i + 1) := by
      rw [Nat.div_div_eq_div_mul, ← pow_succ']
    have hsplit : n / 16 % 16 ^ (i + 1 + 1) = 0 ↔
        n / 16 / 16 ^ (i + 1) % 16 = 0 ∧ n / 16 % 16 ^ (i + 1) = 0 := by
      rw [pow_succ 16 (i + 1), Nat.mod_mul, Nat.add_eq_zero_iff, Nat.mul_eq_zero]
      simp [and_comm]
    conv_lhs => rw [hexChars, nibble_eq, htop]
    conv_rhs => rw [hexChars, nibble_eq]
    simp only [ih, hsplit]
    by_cases htmp : n / 16 / 16 ^ (i + 1) % 16 = 0 ∧ zeros = false
    · simp only [htmp, true_and, and_true, if_true]
    · rw [if_neg htmp, if_neg htmp]
      have hnot : ¬ ((n / 16 / 16 ^ (i + 1) % 16 = 0 ∧ n / 16 % 16 ^ (i + 1) = 0) ∧
          zeros = false) := fun h => htmp ⟨h.1.1, h.2⟩
      simp [hnot]

/-- The loop and the last digit make the numeral. -/
theorem hexChars_numeral {n i : Nat} (h : n < 16 ^ (i + 1)) :
    hexChars n i false ++ [hexDigit (n % 16)] = (numeral 16 n).map hexDigit := by
  induction i generalizing n with
  | zero =>
    have hlt : n < 16 := by omega
    rw [numeral_of_lt hlt, Nat.mod_eq_of_lt hlt]
    rfl
  | succ i ih =>
    rw [hexChars_succ]
    by_cases hlt : n < 16
    · have hnone := @ih 0 (Nat.pow_pos (by decide))
      rw [numeral_of_lt (by decide), List.map_singleton, List.append_left_eq_self] at hnone
      rw [Nat.div_eq_of_lt hlt, hnone, numeral_of_lt hlt, Nat.mod_eq_of_lt hlt]
      simp
    · have hquot : n / 16 < 16 ^ (i + 1) := by
        rw [Nat.div_lt_iff_lt_mul (by decide), ← pow_succ]
        exact h
      have hne : ¬ (n / 16 % 16 ^ (i + 1) = 0 ∧ false = false) := by
        rw [Nat.mod_eq_of_lt hquot]
        omega
      rw [if_neg hne, ih hquot, @numeral_of_le 16 n (by decide) (Nat.le_of_not_lt hlt),
        List.map_append, List.map_singleton]

/-! ## The text -/

def hexDigits : List UInt8 := literal "0123456789abcdef"

/-- The text of digits: each is a character of `hexDigits`. -/
def hexText (ds : List Nat) : List UInt8 := literal "0x" ++ ds.map fun d => hexDigits.getD d 0

theorem hexDigit_char {d : Nat} (h : d < 16) :
    hexDigit d = hexDigits.getD d 0 ∧ hexDigits.idxOf (hexDigit d) = d := by
  have hall : ∀ d < 16, hexDigit d = hexDigits.getD d 0 ∧ hexDigits.idxOf (hexDigit d) = d := by
    decide
  exact hall d h

theorem htoaChars_eq {n : Nat} (h : n < 4294967296) : htoaChars n = hexText (numeral 16 n) := by
  have hlast : n &&& 0xF = n % 16 := Nat.and_two_pow_sub_one_eq_mod n 4
  have hmap : (numeral 16 n).map hexDigit = (numeral 16 n).map fun d => hexDigits.getD d 0 :=
    List.map_congr_left fun d hd => (hexDigit_char (digit_lt (by decide) hd)).1
  unfold htoaChars hexText
  rw [hlast, List.append_assoc, hexChars_numeral (i := 7) (by omega), hmap]
  rfl

/-- `htoa` writes `0x`, the shortest hexadecimal numeral and a NUL, 11 bytes at most and nothing
else, and returns the address of the NUL. The digits that are then in memory give the number. -/
theorem htoa_writes_the_shortest_numeral (m : Mem) (n : UInt32) (str : Nat) :
    ∃ ds, ShortestNumeral 16 n.toNat ds ∧
      Printed m (htoa m n.toNat str).1 str (hexText ds) ∧
      (htoa m n.toNat str).2 = str + (hexText ds).length ∧
      (hexText ds).length + 1 ≤ 11 ∧
      valueFrom 16 0 ((loadList (htoa m n.toNat str).1 (str + 2) ds.length).map hexDigits.idxOf) =
        n.toNat := by
  have hchars := htoaChars_eq n.toNat_lt
  have hroom := length_htoaChars n.toNat
  obtain ⟨hprinted, hend⟩ := htoa_spec m n.toNat str
  rw [hchars] at hprinted hend hroom
  have hnumeral := @shortest_numeral 16 (by decide) n.toNat
  refine ⟨_, hnumeral, hprinted, hend, Nat.succ_le_succ hroom, ?_⟩
  -- the digits stand behind `0x`
  have hbytes : loadList (htoa m n.toNat str).1 (str + 2) (numeral 16 n.toNat).length =
      (numeral 16 n.toNat).map fun d => hexDigits.getD d 0 := by
    have hall := hprinted.bytes
    unfold hexText at hall
    rw [List.length_append, List.length_map, loadList_append] at hall
    exact (List.append_inj hall (length_loadList _ _ _)).2
  have hread : ((numeral 16 n.toNat).map fun d => hexDigits.getD d 0).map hexDigits.idxOf =
      numeral 16 n.toNat := by
    rw [List.map_map]
    conv_rhs => rw [← List.map_id (numeral 16 n.toNat)]
    apply List.map_congr_left
    intro d hd
    obtain ⟨hchar, hback⟩ := hexDigit_char (hnumeral.digits d hd)
    rw [hchar] at hback
    exact hback
  rw [hbytes, hread]
  exact hnumeral.value

end sakana_os
