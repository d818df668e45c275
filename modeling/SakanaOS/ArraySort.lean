-- `array.c` over a byte memory: the bubble sort of an array of elements of any size, in place, with
-- a comparator that reads the memory. The elements come out in order, equal ones as they stood,
-- and no byte outside the array changes.
import SakanaOS.BubbleSort
import SakanaOS.ByteMemory
import SakanaOS.Machine

open byte_memory bubble_sort sort_orders

namespace sakana_os

/-! ## The sort -/

/-- Swap `size` bytes at `a` and `b`, one by one. -/
def array_swap (m : Mem) (a b : Nat) : Nat → Mem
  | 0 => m
  | size + 1 => array_swap (store8 (store8 m a (m b)) b (m a)) (a + 1) (b + 1) size

section

variable (base esize : Nat) (comp : Mem → Nat → Nat → Int)

/-- The inner loop: `turns` comparisons of neighbours, from element `j` on. -/
def array_bubble_pass : Nat → Nat → Mem → Bool → Mem × Bool
  | 0, _, m, swapped => (m, swapped)
  | turns + 1, j, m, swapped =>
    let a := add32 base (mul32 j esize)
    let b := add32 base (mul32 (add32 j 1) esize)
    if comp m a b > 0 then array_bubble_pass turns (j + 1) (array_swap m a b esize) true
    else array_bubble_pass turns (j + 1) m swapped

/-- The outer loop, which ends early after a pass without a swap. -/
def array_bubble_loop : Nat → Mem → Mem
  | 0, m => m
  | turns + 1, m =>
    let pass := array_bubble_pass base esize comp (turns + 1) 0 m false
    if pass.2 then array_bubble_loop turns pass.1 else pass.1

end

/-- `nitems - 1` is a `size_t`, so that it wraps for an empty array. -/
def array_bubble_sort (m : Mem) (base nitems esize : Nat) (comp : Mem → Nat → Nat → Int) : Mem :=
  array_bubble_loop base esize comp (sub32 nitems 1) m

/-! ## The elements of an array -/

/-- The bytes of the `n` elements from `base` up. -/
def arrayElements (m : Mem) (base esize n : Nat) : List (List UInt8) :=
  (List.range n).map fun i => loadList m (base + i * esize) esize

theorem arrayElements_congr {m m' : Mem} {base esize n : Nat}
    (h : ∀ x, base ≤ x → x < base + n * esize → m' x = m x) :
    arrayElements m' base esize n = arrayElements m base esize n := by
  unfold arrayElements
  apply List.map_congr_left
  intro i hi
  have hle : (i + 1) * esize ≤ n * esize := Nat.mul_le_mul_right _ (List.mem_range.mp hi)
  rw [Nat.add_mul, Nat.one_mul] at hle
  apply loadList_congr
  intro x h1 h2
  exact h x (by omega) (by omega)

theorem arrayElements_succ (m : Mem) (base esize n : Nat) :
    arrayElements m base esize (n + 1) =
      loadList m base esize :: arrayElements m (base + esize) esize n := by
  unfold arrayElements
  rw [List.range_succ_eq_map, List.map_cons, List.map_map, Nat.zero_mul, Nat.add_zero]
  congr 1
  apply List.map_congr_left
  intro i _
  simp only [Function.comp, Nat.succ_eq_add_one, Nat.add_mul, Nat.one_mul]
  congr 1
  omega

/-! ## Swap -/

/-- Two elements apart have changed places, and nothing else has changed. -/
theorem array_swap_at (size : Nat) (m : Mem) {a b : Nat} (h : a + size ≤ b) (x : Nat) :
    array_swap m a b size x =
      if a ≤ x ∧ x < a + size then m (b + (x - a))
      else if b ≤ x ∧ x < b + size then m (a + (x - b))
      else m x := by
  induction size generalizing m a b with
  | zero =>
    rw [if_neg (by omega), if_neg (by omega)]
    rfl
  | succ size ih =>
    rw [array_swap, ih _ (by omega)]
    by_cases hxa : x = a
    · subst hxa
      rw [if_neg (by omega), if_neg (by omega), if_pos (by omega), store8_ne _ _ (by omega),
        store8_same, Nat.sub_self, Nat.add_zero]
    · by_cases hxb : x = b
      · subst hxb
        rw [if_neg (by omega), if_neg (by omega), if_neg (by omega), if_pos (by omega), store8_same,
          Nat.sub_self, Nat.add_zero]
      · by_cases hina : a ≤ x ∧ x < a + (size + 1)
        · have hplace : b + 1 + (x - (a + 1)) = b + (x - a) := by omega
          rw [if_pos (by omega), if_pos hina, store8_ne _ _ (by omega), store8_ne _ _ (by omega),
            hplace]
        · rw [if_neg (by omega), if_neg hina]
          by_cases hinb : b ≤ x ∧ x < b + (size + 1)
          · have hplace : a + 1 + (x - (b + 1)) = a + (x - b) := by omega
            rw [if_pos (by omega), if_pos hinb, store8_ne _ _ (by omega),
              store8_ne _ _ (by omega), hplace]
          · rw [if_neg (by omega), if_neg hinb, store8_ne _ _ hxb, store8_ne _ _ hxa]

/-- Two neighbours change places. -/
theorem array_swap_elements (m : Mem) (a size : Nat) :
    loadList (array_swap m a (a + size) size) a size = loadList m (a + size) size ∧
      loadList (array_swap m a (a + size) size) (a + size) size = loadList m a size ∧
      ∀ x, x < a ∨ a + size + size ≤ x → array_swap m a (a + size) size x = m x := by
  refine ⟨?_, ?_, fun x hx => ?_⟩
  · apply List.map_congr_left
    intro i hi
    have hlt := List.mem_range.mp hi
    rw [array_swap_at size m (Nat.le_refl _), if_pos (by omega), Nat.add_sub_cancel_left]
  · apply List.map_congr_left
    intro i hi
    have hlt := List.mem_range.mp hi
    rw [array_swap_at size m (Nat.le_refl _), if_neg (by omega), if_pos (by omega),
      Nat.add_sub_cancel_left]
  · rw [array_swap_at size m (Nat.le_refl _), if_neg (by omega), if_neg (by omega)]

/-! ## The sort -/

/-- The comparator reads the bytes of its two elements only. -/
def ComparesElements (comp : Mem → Nat → Nat → Int) (esize : Nat)
    (gt : List UInt8 → List UInt8 → Bool) : Prop :=
  ∀ m a b, comp m a b > 0 ↔ gt (loadList m a esize) (loadList m b esize) = true

section

variable {comp : Mem → Nat → Nat → Int} {gt : List UInt8 → List UInt8 → Bool} {base esize n : Nat}

/-- The address of an element of an array that does not wrap. -/
theorem element_address (hbase : base < 4294967296)
    (hwrap : base + n * esize ≤ 4294967296) {i : Nat}
    (hi : i < n) : add32 base (mul32 i esize) = base + i * esize := by
  have hle : (i + 1) * esize ≤ n * esize := Nat.mul_le_mul_right _ hi
  rw [Nat.add_mul, Nat.one_mul] at hle
  rcases Nat.eq_zero_or_pos esize with hzero | hpos
  · rw [hzero, Nat.mul_zero, mul32_eq (by omega), Nat.mul_zero, add32_eq (by omega)]
  · rw [mul32_eq (by omega), add32_eq (by omega)]

/-- The inner loop from an element on is a pass over the elements from there on. -/
theorem bubble_pass_elements (hcomp : ComparesElements comp esize gt) (hbase : base < 4294967296)
    (hwrap : base + n * esize ≤ 4294967296) (hn : n < 4294967296) (turns : Nat) {j k : Nat}
    (hjk : j + k = n) (hturns : turns < k) (m : Mem) (swapped : Bool) :
    arrayElements (array_bubble_pass base esize comp turns j m swapped).1 (base + j * esize) esize
        k = (pass gt turns (arrayElements m (base + j * esize) esize k)).1 ∧
      (array_bubble_pass base esize comp turns j m swapped).2 =
        (swapped || (pass gt turns (arrayElements m (base + j * esize) esize k)).2) ∧
      ∀ x, x < base + j * esize ∨ base + j * esize + k * esize ≤ x →
        (array_bubble_pass base esize comp turns j m swapped).1 x = m x := by
  induction turns generalizing j k m swapped with
  | zero =>
    rw [pass_zero]
    exact ⟨rfl, (Bool.or_false swapped).symm, fun _ _ => rfl⟩
  | succ turns ih =>
    obtain ⟨k, rfl⟩ : ∃ l, k = l + 2 := ⟨k - 2, by omega⟩
    have hnext : base + (j + 1) * esize = base + j * esize + esize := by
      rw [Nat.add_mul, Nat.one_mul, Nat.add_assoc]
    have hsize : (k + 2) * esize = esize + (k + 1) * esize ∧
        (k + 1) * esize = esize + k * esize := by
      constructor
      · rw [Nat.add_mul (k + 1) 1, Nat.one_mul, Nat.add_comm]
      · rw [Nat.add_mul, Nat.one_mul, Nat.add_comm]
    have hj : add32 base (mul32 j esize) = base + j * esize :=
      element_address hbase hwrap (by omega)
    have hj' : add32 base (mul32 (add32 j 1) esize) = base + j * esize + esize := by
      rw [add32_eq (a := j) (by omega), element_address hbase hwrap (by omega), hnext]
    rw [array_bubble_pass, hj, hj']
    have hrest := @ih (j + 1) (k + 1) (by omega) (by omega)
    rw [hnext] at hrest
    generalize base + j * esize = a at hrest ⊢
    rw [arrayElements_succ m a, arrayElements_succ m (a + esize)]
    by_cases hgt : comp m a (a + esize) > 0
    · obtain ⟨hfirst, hsecond, hframe⟩ := array_swap_elements m a esize
      obtain ⟨helements, hflag, hkept⟩ := hrest (array_swap m a (a + esize) esize) true
      have hrests : arrayElements (array_swap m a (a + esize) esize) (a + esize) esize (k + 1) =
          loadList m a esize :: arrayElements m (a + esize + esize) esize k := by
        rw [arrayElements_succ, hsecond]
        congr 1
        exact arrayElements_congr fun x hx _ => hframe x (Or.inr hx)
      rw [hrests] at helements
      rw [if_pos hgt, pass_swap gt ((hcomp m a (a + esize)).mp hgt), arrayElements_succ _ a,
        helements]
      refine ⟨?_, ?_, fun x hx => ?_⟩
      · simp only [List.cons.injEq, and_true]
        rw [← hfirst]
        exact loadList_congr fun x _ hx => hkept x (Or.inl hx)
      · rw [hflag]
        simp
      · rw [hkept x (by omega), hframe x (by omega)]
    · obtain ⟨helements, hflag, hkept⟩ := hrest m swapped
      rw [arrayElements_succ m (a + esize)] at helements hflag
      rw [if_neg hgt, pass_keep gt (fun h => hgt ((hcomp m a (a + esize)).mpr h)),
        arrayElements_succ _ a]
      refine ⟨?_, hflag, fun x hx => hkept x (by omega)⟩
      rw [helements]
      simp only [List.cons.injEq, and_true]
      exact loadList_congr fun x _ hx => hkept x (Or.inl hx)

/-- The outer loop makes the passes over the elements. -/
theorem bubble_loop_elements (hcomp : ComparesElements comp esize gt) (hbase : base < 4294967296)
    (hwrap : base + n * esize ≤ 4294967296) (hn : n < 4294967296) (turns : Nat) (hturns : turns < n)
    (m : Mem) :
    arrayElements (array_bubble_loop base esize comp turns m) base esize n =
        passes gt turns (arrayElements m base esize n) ∧
      ∀ x, x < base ∨ base + n * esize ≤ x →
        array_bubble_loop base esize comp turns m x = m x := by
  induction turns generalizing m with
  | zero => exact ⟨rfl, fun _ _ => rfl⟩
  | succ turns ih =>
    obtain ⟨helements, hflag, hkept⟩ :=
      bubble_pass_elements hcomp hbase hwrap hn (turns + 1) (Nat.zero_add n) hturns m false
    simp only [Nat.zero_mul, Nat.add_zero] at helements hflag hkept
    rw [Bool.false_or] at hflag
    rw [array_bubble_loop, passes]
    simp only [hflag]
    split
    · obtain ⟨hend, hframe⟩ :=
        ih (by omega) (array_bubble_pass base esize comp (turns + 1) 0 m false).1
      rw [hend, helements]
      refine ⟨rfl, fun x hx => ?_⟩
      rw [hframe x hx, hkept x hx]
    · exact ⟨helements, hkept⟩

/-- The sort puts the elements of an array into the order of the sorted list, in place. -/
theorem bubble_sort_elements (hcomp : ComparesElements comp esize gt) (hbase : base < 4294967296)
    (hwrap : base + n * esize ≤ 4294967296) (hn : n < 4294967296) (hpos : 1 ≤ n) (m : Mem) :
    arrayElements (array_bubble_sort m base n esize comp) base esize n =
        passes gt (n - 1) (arrayElements m base esize n) ∧
      ∀ x, x < base ∨ base + n * esize ≤ x →
        array_bubble_sort m base n esize comp x = m x := by
  unfold array_bubble_sort
  rw [sub32_eq hpos hn]
  exact bubble_loop_elements hcomp hbase hwrap hn (n - 1) (by omega) m

/-- With a comparison that is a total preorder on the elements, the sort leaves the elements of
an array in order, the same ones as before and equal ones in the order in which they were, and
changes no byte outside the array. -/
theorem an_array_is_sorted_in_place (hcomp : ComparesElements comp esize gt)
    (hgt : TotalPreorder gt) (hbase : base < 4294967296) (hwrap : base + n * esize ≤ 4294967296)
    (hn : n < 4294967296) (hpos : 1 ≤ n) (m : Mem) :
    Sorted gt (arrayElements (array_bubble_sort m base n esize comp) base esize n) ∧
      Rearranged gt (arrayElements m base esize n)
        (arrayElements (array_bubble_sort m base n esize comp) base esize n) ∧
      ∀ x, x < base ∨ base + n * esize ≤ x →
        array_bubble_sort m base n esize comp x = m x := by
  obtain ⟨helements, hframe⟩ := bubble_sort_elements hcomp hbase hwrap hn hpos m
  refine ⟨?_, ?_, hframe⟩
  · have hlength : (arrayElements m base esize n).length = n - 1 + 1 := by
      rw [arrayElements, List.length_map, List.length_range]
      omega
    have hsorted := passes_sorted hgt (n - 1) (arrayElements m base esize n) [] hlength
      List.Pairwise.nil (fun _ _ _ hb => nomatch hb)
    rw [List.append_nil] at hsorted
    rw [helements]
    exact hsorted
  · rw [helements]
    exact passes_rearranged hgt _ _

end

end sakana_os
