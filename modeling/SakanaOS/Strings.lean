-- Characters, strings and numerals of `string.c`. A string that a function only reads is the list
-- of its characters, without the NUL that ends it. `itoa` writes its digits backwards and turns
-- them around in place, `htoa` keeps a NUL behind what it has written so far.
import SakanaOS.ByteMemory
import SakanaOS.Machine
import Mathlib.Data.List.Basic

open byte_memory

namespace sakana_os

/-! ## Strings -/

/-- A string of the address space. -/
structure CString where
  chars : List UInt8
  nonzero : ∀ c ∈ chars, c ≠ 0
  fits : chars.length < 4294967296

/-- The characters of a literal. -/
def literal (s : String) : List UInt8 := s.toList.map Char.toUInt8

def strlen (str : CString) : Nat := str.chars.length

/-- A `char` is signed: the characters from 128 on are below every letter. -/
def tolower (c : UInt8) : UInt8 :=
  if 65 ≤ c ∧ c ≤ 90 then (c - 65) + 97 else c

/-- The `int` that a `char` becomes, as a word. -/
def charWord (c : UInt8) : Nat := if c < 128 then c.toNat else c.toNat + 0xFFFFFF00

/-- A property of every byte, when it can be checked for the 256 of them. -/
theorem byte_forall {P : UInt8 → Prop} (h : ∀ n : Fin 256, P (UInt8.ofNat n)) (c : UInt8) :
    P c := by
  have hc := h ⟨c.toNat, c.toNat_lt⟩
  rwa [UInt8.ofNat_toNat] at hc

theorem tolower_ne_zero (c : UInt8) (h : c ≠ 0) : tolower c ≠ 0 := by
  revert h
  apply byte_forall (P := fun c => c ≠ 0 → tolower c ≠ 0)
  decide +kernel

/-- A character survives the way through an `int`. -/
theorem charWord_char (c : UInt8) : UInt8.ofNat (charWord c) = c := by
  apply byte_forall (P := fun c => UInt8.ofNat (charWord c) = c)
  decide +kernel

/-! ## Numerals -/

/-- The `char` that an `int` is stored as. -/
def intChar (a : Int) : UInt8 := UInt8.ofNat (ofInt a)

/-- `-n` of an `int`: the smallest one stays as it is. -/
def negInt (n : Int) : Int := toInt (ofInt (-n))

/-! ## Decimal -/

/-- The loop over the digits, with the turns that can still follow this one. -/
def itoa_digits (str : Nat) : Nat → Int → Mem → Nat → Mem × Nat
  | 0, n, m, i => (store8 m (str + i) (intChar (n.tmod 10 + '0'.toNat)), i + 1)
  | turns + 1, n, m, i =>
    let m := store8 m (str + i) (intChar (n.tmod 10 + '0'.toNat))
    if n.tdiv 10 > 0 then itoa_digits str turns (n.tdiv 10) m (i + 1) else (m, i + 1)

/-- The loop that swaps the characters from both ends, `i` and `j`. -/
def itoa_reverse (str : Nat) : Mem → Nat → Nat → Mem
  | m, _, 0 => m
  | m, i, j + 1 =>
    if i < j + 1 then
      let tmp := m (str + i)
      let m := store8 m (str + i) (m (str + (j + 1)))
      itoa_reverse str (store8 m (str + (j + 1)) tmp) (i + 1) j
    else m

/-- An `int` has at most ten digits, so nine turns can follow the first one. -/
def itoa (m : Mem) (n : Int) (str : Nat) : Mem × Nat :=
  let sign := n
  let n := if sign < 0 then negInt n else n
  let digits := itoa_digits str 9 n m 0
  let signed := if sign < 0 then (store8 digits.1 (str + digits.2) '-'.toUInt8, digits.2 + 1)
    else digits
  let «end» := signed.2
  (itoa_reverse str (store8 signed.1 (str + «end») 0) 0 («end» - 1), str + «end»)

/-! ## Hexadecimal -/

def place_at (m : Mem) (str : Nat) (c : UInt8) (i : Nat) : Mem × Nat :=
  (store8 (store8 m (str + i) c) (str + i + 1) 0, i + 1)

/-- The character of a hexadecimal digit. -/
def hexDigit (tmp : Nat) : UInt8 :=
  if tmp ≥ 0xA then UInt8.ofNat (tmp - 0xA + 'a'.toNat) else UInt8.ofNat (tmp + '0'.toNat)

/-- The loop over the digits above the last one. The shift is 4 times the counter. -/
def htoa_loop (n str : Nat) : Nat → Mem → Nat → Bool → Mem × Nat
  | 0, m, len, _ => (m, len)
  | i + 1, m, len, zeros =>
    let tmp := (n >>> (4 * (i + 1))) &&& 0xF
    if tmp = 0 ∧ zeros = false then htoa_loop n str i m len zeros
    else
      let placed := place_at m str (hexDigit tmp) len
      htoa_loop n str i placed.1 placed.2 true

def htoa (m : Mem) (n str : Nat) : Mem × Nat :=
  let first := place_at m str '0'.toUInt8 0
  let second := place_at first.1 str 'x'.toUInt8 first.2
  let loop := htoa_loop n str 7 second.1 second.2 false
  let last := place_at loop.1 str (hexDigit (n &&& 0xF)) loop.2
  (last.1, str + last.2)

/-! ## What a converter leaves in memory -/

/-- The characters stand at `p`, and nothing else changed but for the byte behind them. -/
structure Written (m m' : Mem) (p : Nat) (chars : List UInt8) : Prop where
  bytes : loadList m' p chars.length = chars
  frame : ∀ x, x < p ∨ p + chars.length < x → m' x = m x

/-- The characters stand at `p` with a NUL behind them, and nothing else changed. -/
structure Printed (m m' : Mem) (p : Nat) (chars : List UInt8) : Prop
    extends Written m m' p chars where
  nul : m' (p + chars.length) = 0

theorem Written.nothing (m : Mem) (p : Nat) : Written m m p [] := ⟨rfl, fun _ _ => rfl⟩

/-- One character more. -/
theorem Written.store8 {m m' : Mem} {p : Nat} {chars : List UInt8} (c : UInt8)
    (h : Written m m' p chars) :
    Written m (store8 m' (p + chars.length) c) p (chars ++ [c]) := by
  refine ⟨?_, ?_⟩
  · have hkept : loadList (byte_memory.store8 m' (p + chars.length) c) p chars.length = chars := by
      refine Eq.trans (loadList_congr fun x hx hx' => ?_) h.bytes
      exact store8_ne _ _ (by omega)
    have hlast : loadList (byte_memory.store8 m' (p + chars.length) c) (p + chars.length) 1 =
        [c] := by
      simp [loadList, store8_same]
    rw [List.length_append, List.length_singleton, loadList_append, hkept, hlast]
  · intro x hx
    rw [List.length_append, List.length_singleton] at hx
    rw [store8_ne _ _ (by omega)]
    exact h.frame x (by omega)

/-- The NUL behind the characters. -/
theorem Written.ended {m m' : Mem} {p : Nat} {chars : List UInt8} (h : Written m m' p chars) :
    Printed m (byte_memory.store8 m' (p + chars.length) 0) p chars := by
  refine ⟨⟨?_, ?_⟩, store8_same _ _ _⟩
  · refine Eq.trans (loadList_congr fun x hx hx' => ?_) h.bytes
    exact store8_ne _ _ (by omega)
  · intro x hx
    rw [store8_ne _ _ (by omega)]
    exact h.frame x hx

/-- Characters written behind others. -/
theorem Written.append {m m' m'' : Mem} {p : Nat} {l r : List UInt8} (h : Written m m' p l)
    (h' : Written m' m'' (p + l.length) r) : Written m m'' p (l ++ r) := by
  refine ⟨?_, ?_⟩
  · have hkept : loadList m'' p l.length = l := by
      refine Eq.trans (loadList_congr fun x hx hx' => ?_) h.bytes
      exact h'.frame x (by omega)
    rw [List.length_append, loadList_append, hkept, h'.bytes]
  · intro x hx
    rw [List.length_append] at hx
    rw [h'.frame x (by omega)]
    exact h.frame x (by omega)

/-- The characters of a string, stored one after the other with the NUL. -/
theorem printed_storeList (m : Mem) (p : Nat) (chars : List UInt8) :
    Printed m (storeList m p (chars ++ [0])) p chars := by
  have hlen : (chars ++ [0]).length = chars.length + 1 := by simp
  refine ⟨⟨?_, ?_⟩, ?_⟩
  · have hload := loadList_storeList m p (chars ++ [0])
    rw [hlen, loadList_append] at hload
    exact (List.append_inj hload (by simp)).1
  · intro x hx
    exact storeList_frame _ _ _ _ (by omega)
  · have hlast := storeList_inside m p (chars ++ [0]) chars.length (by simp)
    simpa using hlast

/-! ## The characters of `itoa` -/

/-- The digits in the order in which they are written. -/
def digitsBackwards : Nat → Int → List UInt8
  | 0, n => [intChar (n.tmod 10 + '0'.toNat)]
  | turns + 1, n =>
    intChar (n.tmod 10 + '0'.toNat) ::
      if n.tdiv 10 > 0 then digitsBackwards turns (n.tdiv 10) else []

/-- The characters that `itoa` writes. -/
def itoaChars (n : Int) : List UInt8 :=
  (digitsBackwards 9 (if n < 0 then negInt n else n) ++
    if n < 0 then ['-'.toUInt8] else []).reverse

theorem itoa_digits_spec (str turns : Nat) (n : Int) (m : Mem) (i : Nat) :
    itoa_digits str turns n m i =
      (storeList m (str + i) (digitsBackwards turns n), i + (digitsBackwards turns n).length) := by
  induction turns generalizing n m i with
  | zero => rfl
  | succ turns ih =>
    rw [itoa_digits, digitsBackwards]
    by_cases hmore : n.tdiv 10 > 0
    · simp only [hmore, if_true, ih, storeList, List.length_cons]
      congr 1
      omega
    · simp only [hmore, if_false, storeList, List.length_cons, List.length_nil]

theorem tdiv_ten_pos {n : Int} : n.tdiv 10 > 0 ↔ 10 ≤ n := by
  rcases Int.le_total 0 n with hpos | hneg
  · rw [Int.tdiv_eq_ediv_of_nonneg hpos]
    omega
  · obtain ⟨k, rfl⟩ : ∃ k : Int, n = -k := ⟨-n, by omega⟩
    rw [Int.neg_tdiv, Int.tdiv_eq_ediv_of_nonneg (by omega)]
    omega

/-- Swapping from both ends turns the bytes between them around, and moves no other byte. -/
theorem itoa_reverse_spec (str : Nat) (m : Mem) (i j x : Nat) :
    itoa_reverse str m i j (str + x) =
      if i ≤ x ∧ x ≤ j then m (str + (i + j - x)) else m (str + x) := by
  induction j generalizing m i with
  | zero =>
    rw [itoa_reverse]
    split
    · rename_i h
      congr 1
      omega
    · rfl
  | succ j ih =>
    rw [itoa_reverse]
    by_cases hij : i < j + 1
    · simp only [hij, if_true, ih]
      by_cases hin : i + 1 ≤ x ∧ x ≤ j
      · rw [if_pos hin, if_pos (by omega), store8_ne _ _ (by omega), store8_ne _ _ (by omega)]
        congr 1
        omega
      · rw [if_neg hin]
        by_cases hx : x = i
        · subst hx
          rw [if_pos (by omega), store8_ne _ _ (by omega), store8_same]
          congr 1
          omega
        · by_cases hx' : x = j + 1
          · subst hx'
            rw [if_pos (by omega), store8_same]
            congr 1
            omega
          · rw [if_neg (by omega), store8_ne _ _ (by omega), store8_ne _ _ (by omega)]
    · rw [if_neg hij]
      split
      · congr 1
        omega
      · rfl

theorem itoa_reverse_below (str : Nat) (m : Mem) (i j x : Nat) (hx : x < str) :
    itoa_reverse str m i j x = m x := by
  induction j generalizing m i with
  | zero => rfl
  | succ j ih =>
    rw [itoa_reverse]
    split
    · simp only [ih]
      rw [store8_ne _ _ (by omega), store8_ne _ _ (by omega)]
    · rfl

/-- `itoa` leaves its characters at `str`, and returns the address of the NUL. -/
theorem itoa_spec (m : Mem) (n : Int) (str : Nat) :
    Printed m (itoa m n str).1 str (itoaChars n) ∧
      (itoa m n str).2 = str + (itoaChars n).length := by
  obtain ⟨back, hback⟩ : ∃ back, digitsBackwards 9 (if n < 0 then negInt n else n) ++
      (if n < 0 then ['-'.toUInt8] else []) = back := ⟨_, rfl⟩
  have hchars : itoaChars n = back.reverse := by rw [itoaChars, hback]
  have hpos : 0 < back.length := by
    rw [← hback, digitsBackwards]
    simp
  have hrun : itoa m n str =
      (itoa_reverse str (storeList m str (back ++ [0])) 0 (back.length - 1),
        str + back.length) := by
    unfold itoa
    simp only [itoa_digits_spec]
    rw [← hback]
    by_cases hneg : n < 0
    · simp only [hneg, if_true, storeList_append, storeList, List.length_append,
        List.length_singleton, Nat.add_zero, Nat.zero_add]
    · simp only [hneg, if_false, storeList_append, storeList, List.append_nil, Nat.add_zero,
        Nat.zero_add]
  obtain ⟨⟨-, hframe⟩, hnul⟩ := printed_storeList m str back
  rw [hrun, hchars]
  refine ⟨⟨⟨?_, ?_⟩, ?_⟩, by rw [List.length_reverse]⟩
  · apply List.ext_getElem
    · simp
    · intro k h1 h2
      rw [List.length_reverse] at h2
      simp only [loadList, List.getElem_map, List.getElem_range, itoa_reverse_spec,
        List.getElem_reverse]
      rw [if_pos (by omega)]
      have hmirror : back.length - 1 - k < back.length := by omega
      rw [Nat.zero_add, storeList_inside _ _ _ _ (by simp; omega)]
      exact List.getElem_append_left hmirror
  · intro x hx
    rw [List.length_reverse] at hx
    simp only
    by_cases hlow : x < str
    · rw [itoa_reverse_below _ _ _ _ _ hlow]
      exact hframe x (Or.inl hlow)
    · obtain ⟨k, rfl⟩ := Nat.exists_eq_add_of_le (Nat.le_of_not_lt hlow)
      rw [itoa_reverse_spec, if_neg (by omega)]
      exact hframe _ (by omega)
  · simp only [List.length_reverse, itoa_reverse_spec]
    rw [if_neg (by omega)]
    exact hnul

theorem intChar_digit (n : Int) : intChar (n.tmod 10 + '0'.toNat) ≠ 0 := by
  have hzero : ('0'.toNat : Int) = 48 := rfl
  have hrange : -10 < n.tmod 10 ∧ n.tmod 10 < 10 := by
    rcases Int.le_total 0 n with hpos | hneg
    · rw [Int.tmod_eq_emod_of_nonneg hpos]
      omega
    · obtain ⟨k, rfl⟩ : ∃ k : Int, n = -k := ⟨-n, by omega⟩
      rw [Int.neg_tmod, Int.tmod_eq_emod_of_nonneg (by omega)]
      omega
  intro hnul
  have hword := congrArg UInt8.toNat hnul
  unfold intChar ofInt at hword
  rw [hzero, UInt8.toNat_ofNat'] at hword
  have hnat : (0 : UInt8).toNat = 0 := rfl
  omega

theorem digitsBackwards_nonzero (turns : Nat) (n : Int) : ∀ c ∈ digitsBackwards turns n, c ≠ 0 := by
  induction turns generalizing n with
  | zero =>
    intro c hc
    rw [digitsBackwards, List.mem_singleton] at hc
    rw [hc]
    exact intChar_digit n
  | succ turns ih =>
    intro c hc
    rw [digitsBackwards, List.mem_cons] at hc
    rcases hc with rfl | hc
    · exact intChar_digit n
    · split at hc
      · exact ih _ c hc
      · cases hc

theorem length_digitsBackwards (turns : Nat) (n : Int) :
    (digitsBackwards turns n).length ≤ turns + 1 := by
  induction turns generalizing n with
  | zero => simp [digitsBackwards]
  | succ turns ih =>
    rw [digitsBackwards, List.length_cons]
    split
    · exact Nat.succ_le_succ (ih _)
    · simp

theorem length_itoaChars (n : Int) : (itoaChars n).length ≤ 11 := by
  have hdigits := length_digitsBackwards 9 (if n < 0 then negInt n else n)
  rw [itoaChars, List.length_reverse, List.length_append]
  by_cases hneg : n < 0
  · simp only [hneg, if_true, List.length_singleton] at hdigits ⊢
    omega
  · simp only [hneg, if_false, List.length_nil] at hdigits ⊢
    omega

/-- No character of a decimal numeral is NUL, that of the smallest `int` included. -/
theorem itoaChars_nonzero (n : Int) : ∀ c ∈ itoaChars n, c ≠ 0 := by
  intro c hc
  rw [itoaChars, List.mem_reverse, List.mem_append] at hc
  rcases hc with hc | hc
  · exact digitsBackwards_nonzero _ _ c hc
  · split at hc
    · rw [List.mem_singleton] at hc
      rw [hc]
      decide
    · cases hc

/-! ## The characters of `htoa` -/

/-- The digits above the last one, without the zeros in front. -/
def hexChars (n : Nat) : Nat → Bool → List UInt8
  | 0, _ => []
  | i + 1, zeros =>
    let tmp := (n >>> (4 * (i + 1))) &&& 0xF
    if tmp = 0 ∧ zeros = false then hexChars n i zeros else hexDigit tmp :: hexChars n i true

/-- The characters that `htoa` writes. -/
def htoaChars (n : Nat) : List UInt8 :=
  ['0'.toUInt8, 'x'.toUInt8] ++ hexChars n 7 false ++ [hexDigit (n &&& 0xF)]

/-- A character placed behind others makes a string that is longer by it. -/
theorem place_at_printed {m m' : Mem} {str : Nat} {chars : List UInt8} (c : UInt8)
    (h : Written m m' str chars) :
    Printed m (place_at m' str c chars.length).1 str (chars ++ [c]) := by
  have hended := (h.store8 c).ended
  rw [List.length_append, List.length_singleton, ← Nat.add_assoc] at hended
  exact hended

theorem htoa_loop_spec {n str : Nat} (i : Nat) {m m' : Mem} {chars : List UInt8} (zeros : Bool)
    (h : Printed m m' str chars) :
    Printed m (htoa_loop n str i m' chars.length zeros).1 str (chars ++ hexChars n i zeros) ∧
      (htoa_loop n str i m' chars.length zeros).2 = (chars ++ hexChars n i zeros).length := by
  induction i generalizing m' chars zeros with
  | zero => simpa [htoa_loop, hexChars] using h
  | succ i ih =>
    rw [htoa_loop, hexChars]
    simp only
    split
    · exact ih zeros h
    · obtain ⟨tmp, htmp⟩ : ∃ tmp, (n >>> (4 * (i + 1))) &&& 0xF = tmp := ⟨_, rfl⟩
      have hplaced := ih true (place_at_printed (hexDigit tmp) h.toWritten)
      rw [htmp]
      rw [List.length_append, List.length_singleton, List.append_assoc,
        List.singleton_append] at hplaced
      exact hplaced

/-- `htoa` leaves its characters at `str`, and returns the address of the NUL. -/
theorem htoa_spec (m : Mem) (n str : Nat) :
    Printed m (htoa m n str).1 str (htoaChars n) ∧
      (htoa m n str).2 = str + (htoaChars n).length := by
  have hfirst := place_at_printed '0'.toUInt8 (Written.nothing m str)
  have hsecond := place_at_printed 'x'.toUInt8 hfirst.toWritten
  obtain ⟨hloop, hlen⟩ := htoa_loop_spec (n := n) 7 false hsecond
  have hlast := place_at_printed (hexDigit (n &&& 0xF)) hloop.toWritten
  rw [← hlen] at hlast
  refine ⟨hlast, ?_⟩
  have hcount : (htoaChars n).length = (['0'.toUInt8, 'x'.toUInt8] ++ hexChars n 7 false).length
      + 1 := by
    simp [htoaChars]
  rw [hcount, ← List.singleton_append (l := ['x'.toUInt8])]
  exact congrArg (str + · + 1) hlen

theorem hexDigit_ne_zero (n : Nat) : hexDigit (n &&& 0xF) ≠ 0 := by
  have hlt : n &&& 0xF < 16 := Nat.lt_of_le_of_lt Nat.and_le_right (by decide)
  have hall : ∀ d < 16, hexDigit d ≠ 0 := by decide
  exact hall _ hlt

theorem hexChars_nonzero (n i : Nat) (zeros : Bool) : ∀ c ∈ hexChars n i zeros, c ≠ 0 := by
  induction i generalizing zeros with
  | zero => simp [hexChars]
  | succ i ih =>
    intro c hc
    rw [hexChars] at hc
    split at hc
    · exact ih zeros c hc
    · rcases List.mem_cons.mp hc with rfl | hc
      · exact hexDigit_ne_zero _
      · exact ih true c hc

theorem length_hexChars (n i : Nat) (zeros : Bool) : (hexChars n i zeros).length ≤ i := by
  induction i generalizing zeros with
  | zero => simp [hexChars]
  | succ i ih =>
    rw [hexChars]
    split
    · exact Nat.le_succ_of_le (ih _)
    · exact Nat.succ_le_succ (ih _)

theorem length_htoaChars (n : Nat) : (htoaChars n).length ≤ 10 := by
  have hdigits := length_hexChars n 7 false
  simp only [htoaChars, List.length_append, List.length_cons, List.length_nil]
  omega

theorem htoaChars_nonzero (n : Nat) : ∀ c ∈ htoaChars n, c ≠ 0 := by
  intro c hc
  simp only [htoaChars, List.mem_append, List.mem_cons, List.not_mem_nil, or_false] at hc
  rcases hc with ((rfl | rfl) | hc) | rfl
  · decide
  · decide
  · exact hexChars_nonzero n 7 false c hc
  · exact hexDigit_ne_zero n

end sakana_os
