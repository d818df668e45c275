-- The text of an id, `uuid_v4_to_string` of `uuid.c`, and the order of the ids, `uuid_v4_compare`:
-- the texts sort as the ids do, since no block of a text is longer than that of another id.
import SakanaOS.HexText
import SakanaOS.LexTexts
import SakanaOS.Tokens

open byte_memory lex_texts

namespace sakana_os

/-! ## The code -/

/-- The memory and `pos`, which goes up with each character. -/
def uuid_put (buffer : Nat) (out : Mem × Nat) (c : UInt8) : Mem × Nat :=
  (store8 out.1 (buffer + out.2) c, out.2 + 1)

def uuid_v4_to_string_loop (uuid buffer : Nat) : Nat → Nat → Mem × Nat → Mem × Nat
  | 0, _, out => out
  | turns + 1, i, out =>
    let out := if i = 4 ∨ i = 6 ∨ i = 8 ∨ i = 10 then uuid_put buffer out '-'.toUInt8 else out
    let out := uuid_put buffer out (hexDigits.getD (((out.1 (uuid + i)).toNat >>> 4) &&& 0x0F) 0)
    let out := uuid_put buffer out (hexDigits.getD ((out.1 (uuid + i)).toNat &&& 0x0F) 0)
    uuid_v4_to_string_loop uuid buffer turns (i + 1) out

def uuid_v4_to_string (m : Mem) (uuid buffer : Nat) : Mem :=
  let out := uuid_v4_to_string_loop uuid buffer 16 0 (m, 0)
  store8 out.1 (buffer + out.2) 0

def uuid_v4_compare_loop (m : Mem) (uuid1 uuid2 : Nat) : Nat → Nat → Int
  | 0, _ => 0
  | turns + 1, i =>
    if m (uuid1 + i) < m (uuid2 + i) then -1
    else if m (uuid1 + i) > m (uuid2 + i) then 1
    else uuid_v4_compare_loop m uuid1 uuid2 turns (i + 1)

def uuid_v4_compare (m : Mem) (uuid1 uuid2 : Nat) : Int := uuid_v4_compare_loop m uuid1 uuid2 16 0

/-! ## The text -/

/-- The characters of the byte at place `i`, with the dash in front of some places. -/
def byteText (i : Nat) (b : UInt8) : List UInt8 :=
  (if i = 4 ∨ i = 6 ∨ i = 8 ∨ i = 10 then ['-'.toUInt8] else []) ++
    [hexDigits.getD ((b.toNat >>> 4) &&& 0x0F) 0, hexDigits.getD (b.toNat &&& 0x0F) 0]

def uuidText (bytes : List UInt8) : List UInt8 := encode byteText 0 bytes

theorem length_byteText (i : Nat) (b : UInt8) :
    (byteText i b).length = if i = 4 ∨ i = 6 ∨ i = 8 ∨ i = 10 then 3 else 2 := by
  unfold byteText
  split <;> rfl

theorem length_uuidText {bytes : List UInt8} (h : bytes.length = 16) :
    (uuidText bytes).length = 36 := by
  unfold uuidText
  rw [length_encode _ length_byteText, h]
  rfl

theorem digits_lt {b c : UInt8} (h : b < c) :
    [hexDigits.getD ((b.toNat >>> 4) &&& 0x0F) 0, hexDigits.getD (b.toNat &&& 0x0F) 0] <
      [hexDigits.getD ((c.toNat >>> 4) &&& 0x0F) 0, hexDigits.getD (c.toNat &&& 0x0F) 0] := by
  have hmono : ∀ d < 16, ∀ e < 16, d < e → hexDigits.getD d 0 < hexDigits.getD e 0 := by decide
  have hlow : ∀ n, n &&& 0x0F = n % 16 := fun n => Nat.and_two_pow_sub_one_eq_mod n 4
  have hhigh : ∀ n, n >>> 4 = n / 16 := fun n => Nat.shiftRight_eq_div_pow n 4
  have hbc : b.toNat < c.toNat := h
  have hc := c.toNat_lt
  simp only [hlow, hhigh]
  rw [List.cons_lt_cons_iff, List.cons_lt_cons_iff]
  by_cases htop : b.toNat / 16 = c.toNat / 16
  · exact Or.inr ⟨by rw [htop], Or.inl (hmono _ (by omega) _ (by omega) (by omega))⟩
  · exact Or.inl (hmono _ (by omega) _ (by omega) (by omega))

theorem byteText_orderedCode : OrderedCode byteText where
  length_eq i b c := by rw [length_byteText, length_byteText]
  lt i _ _ h := List.append_left_lt (digits_lt h)

theorem byteText_nonzero (i : Nat) (b : UInt8) : ∀ c ∈ byteText i b, c ≠ 0 := by
  have hall : ∀ d < 16, hexDigits.getD d 0 ≠ 0 := by decide
  have hdigit : ∀ n, hexDigits.getD (n &&& 0x0F) 0 ≠ 0 :=
    fun n => hall _ (Nat.lt_of_le_of_lt Nat.and_le_right (by decide))
  intro c hc
  rw [byteText, List.mem_append] at hc
  rcases hc with hc | hc
  · split at hc
    · rw [List.mem_singleton.mp hc]
      decide
    · cases hc
  · rw [List.mem_cons, List.mem_singleton] at hc
    rcases hc with rfl | rfl
    · exact hdigit _
    · exact hdigit _

theorem encode_nonzero (i : Nat) (bytes : List UInt8) :
    ∀ c ∈ encode byteText i bytes, c ≠ 0 := by
  induction bytes generalizing i with
  | nil =>
    intro c hc
    cases hc
  | cons b bytes ih =>
    intro c hc
    rw [encode, List.mem_append] at hc
    exact hc.elim (byteText_nonzero i b c) (ih (i + 1) c)

/-! ## What the loops do -/

/-- The id at `uuid` is apart from the text at `buffer`, the NUL included. -/
def IdApart (uuid buffer : Nat) : Prop := uuid + 16 ≤ buffer ∨ buffer + 37 ≤ uuid

/-- The loop is behind the characters, at `pos`. -/
structure TextOut (m : Mem) (buffer : Nat) (out : Mem × Nat) (chars : List UInt8) : Prop where
  written : Written m out.1 buffer chars
  pos : out.2 = chars.length

variable {m : Mem} {uuid buffer : Nat} {out : Mem × Nat} {chars : List UInt8}

theorem TextOut.put (h : TextOut m buffer out chars) (c : UInt8) :
    TextOut m buffer (uuid_put buffer out c) (chars ++ [c]) := by
  unfold uuid_put
  refine ⟨?_, ?_⟩
  · rw [h.pos]
    exact h.written.store8 c
  · rw [h.pos, List.length_append, List.length_singleton]

theorem TextOut.byte (h : TextOut m buffer out chars) (hapart : IdApart uuid buffer)
    (hroom : chars.length ≤ 36) {i : Nat} (hi : i < 16) :
    out.1 (uuid + i) = m (uuid + i) := by
  unfold IdApart at hapart
  exact h.written.frame _ (by omega)

theorem uuid_v4_to_string_loop_spec (hapart : IdApart uuid buffer) {turns i : Nat}
    (hturns : i + turns = 16) (h : TextOut m buffer out chars)
    (hroom : chars.length + (encode byteText i (loadList m (uuid + i) turns)).length ≤ 36) :
    TextOut m buffer (uuid_v4_to_string_loop uuid buffer turns i out)
      (chars ++ encode byteText i (loadList m (uuid + i) turns)) := by
  induction turns generalizing i out chars with
  | zero => simpa [uuid_v4_to_string_loop, encode, loadList] using h
  | succ turns ih =>
    rw [loadList_succ, encode] at hroom ⊢
    have hi : i < 16 := by omega
    obtain ⟨dash, hdash⟩ : ∃ dash, (if i = 4 ∨ i = 6 ∨ i = 8 ∨ i = 10 then ['-'.toUInt8] else [])
      = dash := ⟨_, rfl⟩
    have hfirst : TextOut m buffer (if i = 4 ∨ i = 6 ∨ i = 8 ∨ i = 10 then
        uuid_put buffer out '-'.toUInt8 else out) (chars ++ dash) := by
      rw [← hdash]
      split
      · exact h.put '-'.toUInt8
      · rwa [List.append_nil]
    simp only [byteText, hdash, List.length_append, List.length_cons, List.length_nil] at hroom
    have hhigh := hfirst.put (hexDigits.getD (((m (uuid + i)).toNat >>> 4) &&& 0x0F) 0)
    have hlow := hhigh.put (hexDigits.getD ((m (uuid + i)).toNat &&& 0x0F) 0)
    have hbyte := hfirst.byte hapart (by rw [List.length_append]; omega) hi
    have hbyte' := hhigh.byte hapart
      (by simp only [List.length_append, List.length_singleton]; omega) hi
    have hrest := ih (i := i + 1) (by omega) hlow (by
      simp only [List.length_append, List.length_cons, List.length_nil, ← Nat.add_assoc uuid]
      omega)
    rw [uuid_v4_to_string_loop, hbyte, hbyte', byteText, hdash]
    simpa only [List.append_assoc, List.cons_append, List.nil_append, Nat.add_assoc] using hrest

/-- The text stands at `buffer`, and only its 37 bytes changed. -/
theorem uuid_v4_to_string_spec (hapart : IdApart uuid buffer) :
    Printed m (uuid_v4_to_string m uuid buffer) buffer (uuidText (loadList m uuid 16)) := by
  have hlen := length_uuidText (length_loadList m uuid 16)
  have hstart : TextOut m buffer (m, 0) [] := ⟨Written.nothing m buffer, rfl⟩
  have hloop := uuid_v4_to_string_loop_spec hapart (by omega : 0 + 16 = 16) hstart
    (by rw [List.length_nil, Nat.zero_add]; exact hlen.le)
  have hended := hloop.written.ended
  rw [← hloop.pos] at hended
  exact hended

theorem uuid_v4_compare_loop_eq (m : Mem) (uuid1 uuid2 turns i : Nat) :
    uuid_v4_compare_loop m uuid1 uuid2 turns i =
      if loadList m (uuid1 + i) turns < loadList m (uuid2 + i) turns then -1
      else if loadList m (uuid1 + i) turns = loadList m (uuid2 + i) turns then 0 else 1 := by
  induction turns generalizing i with
  | zero => rfl
  | succ turns ih =>
    rw [uuid_v4_compare_loop, loadList_succ, loadList_succ, ih]
    simp only [List.cons_lt_cons_iff, List.cons.injEq, Nat.add_assoc]
    rcases Std.lt_trichotomy (m (uuid1 + i)) (m (uuid2 + i)) with hlt | heq | hgt
    · simp [hlt]
    · simp [heq]
    · have hne := (Std.ne_of_lt hgt).symm
      have hnlt := Std.Asymm.asymm _ _ hgt
      simp [hgt, hne, hnlt]

/-- `strcmp` is below 0 for the string that comes first. -/
theorem strcmp_neg_iff {str1 str2 : List UInt8} (h1 : ∀ c ∈ str1, c ≠ 0) (h2 : ∀ c ∈ str2, c ≠ 0) :
    strcmp str1 str2 < 0 ↔ str1 < str2 := by
  induction str1 generalizing str2 with
  | nil =>
    cases str2 with
    | nil => simp [strcmp]
    | cons d str2 =>
      have hd : d.toNat ≠ 0 := fun h0 => h2 d List.mem_cons_self (UInt8.toNat_inj.mp h0)
      simp only [strcmp, List.nil_lt_cons, iff_true]
      omega
  | cons c str1 ih =>
    cases str2 with
    | nil => simp [strcmp]
    | cons d str2 =>
      have htail := ih (fun x hx => h1 x (List.mem_cons_of_mem c hx))
        (fun x hx => h2 x (List.mem_cons_of_mem d hx))
      rw [strcmp, List.cons_lt_cons_iff]
      split
      · rename_i heq
        rw [htail, heq]
        simp
      · rename_i hne
        have hlt : c < d ↔ c.toNat < d.toNat := Iff.rfl
        rw [hlt]
        have hnat : c.toNat ≠ d.toNat := fun h0 => hne (UInt8.toNat_inj.mp h0)
        simp only [hne, false_and, or_false]
        omega

/-! ## The order -/

/-- `uuid_v4_compare` is the sign of `strcmp` on texts that spell the two ids. -/
theorem uuid_v4_compare_eq (m : Mem) (uuid1 uuid2 : Nat) :
    uuid_v4_compare m uuid1 uuid2 =
      (strcmp (uuidText (loadList m uuid1 16)) (uuidText (loadList m uuid2 16))).sign := by
  have hlen : (loadList m uuid1 16).length = (loadList m uuid2 16).length := by simp
  obtain ⟨hlt, heq⟩ := byteText_orderedCode.encode_compare 0 hlen
  have hneg := strcmp_neg_iff (encode_nonzero 0 (loadList m uuid1 16))
    (encode_nonzero 0 (loadList m uuid2 16))
  have hzero := strcmp_eq_zero (encode_nonzero 0 (loadList m uuid1 16))
    (encode_nonzero 0 (loadList m uuid2 16))
  rw [hlt] at hneg
  rw [heq] at hzero
  unfold uuid_v4_compare uuidText
  rw [uuid_v4_compare_loop_eq, Nat.add_zero, Nat.add_zero]
  split
  · rename_i h
    exact (Int.sign_eq_neg_one_of_neg (hneg.mpr h)).symm
  · rename_i h
    split
    · rename_i h'
      rw [hzero.mpr h', Int.sign_zero]
    · rename_i h'
      refine (Int.sign_eq_one_of_pos ?_).symm
      have hnot := mt hneg.mp h
      have hne := mt hzero.mp h'
      omega

/-- The texts of two ids sort as the ids do: `uuid_v4_compare` is the sign of `strcmp` on the
strings that `uuid_v4_to_string` leaves. -/
theorem ids_sort_as_their_texts {m : Mem} {uuid1 uuid2 buffer1 buffer2 : Nat}
    (h11 : IdApart uuid1 buffer1) (h21 : IdApart uuid2 buffer1) (h22 : IdApart uuid2 buffer2)
    (hbuffers : buffer1 + 37 ≤ buffer2 ∨ buffer2 + 37 ≤ buffer1) :
    let m' := uuid_v4_to_string (uuid_v4_to_string m uuid1 buffer1) uuid2 buffer2
    ∃ chars1 chars2, StringAt m' buffer1 chars1 ∧ StringAt m' buffer2 chars2 ∧
      chars1.length = 36 ∧ chars2.length = 36 ∧
      uuid_v4_compare m uuid1 uuid2 = (strcmp chars1 chars2).sign ∧
      ∀ x, (x < buffer1 ∨ buffer1 + 37 ≤ x) → (x < buffer2 ∨ buffer2 + 37 ≤ x) →
        m' x = m x := by
  intro m'
  have hlen1 := length_uuidText (length_loadList m uuid1 16)
  have hlen2 := length_uuidText (length_loadList m uuid2 16)
  have hfirst := uuid_v4_to_string_spec (m := m) h11
  have hsecond := uuid_v4_to_string_spec (m := uuid_v4_to_string m uuid1 buffer1) h22
  obtain ⟨m1, hm1⟩ : ∃ m1, uuid_v4_to_string m uuid1 buffer1 = m1 := ⟨_, rfl⟩
  rw [hm1] at hfirst hsecond
  -- the first text leaves the second id as it is
  have hid : loadList m1 uuid2 16 = loadList m uuid2 16 := by
    refine loadList_congr fun x h1 h2 => hfirst.frame x ?_
    unfold IdApart at h21
    omega
  rw [hid] at hsecond
  have hm' : m' = uuid_v4_to_string m1 uuid2 buffer2 := by rw [← hm1]
  rw [← hm'] at hsecond
  refine ⟨uuidText (loadList m uuid1 16), uuidText (loadList m uuid2 16),
    ⟨?_, ?_, encode_nonzero 0 _⟩, ⟨hsecond.bytes, hsecond.nul, encode_nonzero 0 _⟩, hlen1, hlen2,
    uuid_v4_compare_eq m _ _, ?_⟩
  · refine Eq.trans (loadList_congr fun x h1 h2 => hsecond.frame x ?_) hfirst.bytes
    omega
  · refine Eq.trans (hsecond.frame _ ?_) hfirst.nul
    omega
  · intro x h1 h2
    rw [hsecond.frame x (by omega), hfirst.frame x (by omega)]

/-- Two ids side by side, and two buffers behind them. -/
theorem two_sample_ids_sort_as_their_texts :
    let m := fun a => UInt8.ofNat (a * 37)
    let m' := uuid_v4_to_string (uuid_v4_to_string m 0x1000 0x2000) 0x1010 0x2040
    ∃ chars1 chars2, StringAt m' 0x2000 chars1 ∧ StringAt m' 0x2040 chars2 ∧
      chars1.length = 36 ∧ chars2.length = 36 ∧
      uuid_v4_compare m 0x1000 0x1010 = (strcmp chars1 chars2).sign ∧
      ∀ x, (x < 0x2000 ∨ 0x2000 + 37 ≤ x) → (x < 0x2040 ∨ 0x2040 + 37 ≤ x) → m' x = m x :=
  ids_sort_as_their_texts (Or.inl (by decide)) (Or.inl (by decide)) (Or.inl (by decide))
    (Or.inl (by decide))

end sakana_os
