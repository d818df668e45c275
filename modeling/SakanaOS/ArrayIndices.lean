-- The indices of the elements that `array_bubble_sort` compares and swaps: the bounds of its
-- loops are unsigned differences, which wrap for an array of no elements.
import SakanaOS.RegionTable

open byte_memory

namespace sakana_os

/-! ## The loops with their counters -/

section

variable (base esize : Nat) (comp : Mem → Nat → Nat → Int)

/-- The inner loop from `j` up to its bound, with the indices that it compares and swaps. -/
def array_bubble_pass_indices (bound j : Nat) (m : Mem) (swapped : Bool) :
    (Mem × Bool) × List Nat :=
  if j < bound then
    let a := add32 base (mul32 j esize)
    let b := add32 base (mul32 (add32 j 1) esize)
    if comp m a b > 0 then
      let rest := array_bubble_pass_indices bound (j + 1) (array_swap m a b esize) true
      (rest.1, j :: add32 j 1 :: j :: add32 j 1 :: rest.2)
    else
      let rest := array_bubble_pass_indices bound (j + 1) m swapped
      (rest.1, j :: add32 j 1 :: rest.2)
  else ((m, swapped), [])
termination_by bound - j

/-- The outer loop from `i` up to `nitems - 1`. -/
def array_bubble_loop_indices (last i : Nat) (m : Mem) : Mem × List Nat :=
  if i < last then
    let pass := array_bubble_pass_indices base esize comp (sub32 last i) 0 m false
    if pass.1.2 then
      let rest := array_bubble_loop_indices last (i + 1) pass.1.1
      (rest.1, pass.2 ++ rest.2)
    else (pass.1.1, pass.2)
  else (m, [])
termination_by last - i

end

/-- `array_bubble_sort` with the indices that it compares and swaps. -/
def array_bubble_sort_indices (m : Mem) (base nitems esize : Nat) (comp : Mem → Nat → Nat → Int) :
    Mem × List Nat :=
  array_bubble_loop_indices base esize comp (sub32 nitems 1) 0 m

/-! ## The same sort -/

section

variable {base esize : Nat} {comp : Mem → Nat → Nat → Int}

theorem pass_indices_eq (bound j : Nat) (m : Mem) (swapped : Bool) :
    (array_bubble_pass_indices base esize comp bound j m swapped).1 =
      array_bubble_pass base esize comp (bound - j) j m swapped := by
  induction j, m, swapped using array_bubble_pass_indices.induct base esize comp bound with
  | case1 j m swapped hlt a b hgt ih =>
    obtain ⟨turns, hturns⟩ : ∃ turns, bound - j = turns + 1 := ⟨bound - j - 1, by omega⟩
    have hrest : bound - (j + 1) = turns := by omega
    rw [hrest] at ih
    rw [array_bubble_pass_indices, if_pos hlt, hturns, array_bubble_pass, if_pos hgt, if_pos hgt]
    exact ih
  | case2 j m swapped hlt a b hgt ih =>
    obtain ⟨turns, hturns⟩ : ∃ turns, bound - j = turns + 1 := ⟨bound - j - 1, by omega⟩
    have hrest : bound - (j + 1) = turns := by omega
    rw [hrest] at ih
    rw [array_bubble_pass_indices, if_pos hlt, hturns, array_bubble_pass, if_neg hgt, if_neg hgt]
    exact ih
  | case3 j m swapped hlt =>
    have hnone : bound - j = 0 := by omega
    rw [array_bubble_pass_indices, if_neg hlt, hnone, array_bubble_pass]

/-- A turn of the outer loop, whose bound does not wrap. -/
theorem turn_indices_eq {last i : Nat} (hlast : last < 4294967296) (hlt : i < last) (m : Mem) :
    (array_bubble_pass_indices base esize comp (sub32 last i) 0 m false).1 =
      array_bubble_pass base esize comp (last - i) 0 m false := by
  rw [pass_indices_eq, sub32_eq (by omega) hlast, Nat.sub_zero]

theorem loop_indices_eq {last : Nat} (hlast : last < 4294967296) (i : Nat) (m : Mem) :
    (array_bubble_loop_indices base esize comp last i m).1 =
      array_bubble_loop base esize comp (last - i) m := by
  induction i, m using array_bubble_loop_indices.induct base esize comp last with
  | case1 i m hlt pass hswapped ih =>
    have hpass := @turn_indices_eq base esize comp _ _ hlast hlt m
    obtain ⟨turns, hturns⟩ : ∃ turns, last - i = turns + 1 := ⟨last - i - 1, by omega⟩
    have hrest : last - (i + 1) = turns := by omega
    rw [hrest] at ih
    rw [hturns] at hpass ⊢
    rw [array_bubble_loop_indices, if_pos hlt, array_bubble_loop]
    simp only [← hpass]
    rw [if_pos hswapped, if_pos hswapped]
    exact ih
  | case2 i m hlt pass hswapped =>
    have hpass := @turn_indices_eq base esize comp _ _ hlast hlt m
    obtain ⟨turns, hturns⟩ : ∃ turns, last - i = turns + 1 := ⟨last - i - 1, by omega⟩
    rw [hturns] at hpass ⊢
    rw [array_bubble_loop_indices, if_pos hlt, array_bubble_loop]
    simp only [← hpass]
    rw [if_neg hswapped, if_neg hswapped]
  | case3 i m hlt =>
    have hnone : last - i = 0 := by omega
    rw [array_bubble_loop_indices, if_neg hlt, hnone, array_bubble_loop]

/-- The indices aside, the sort is that of the code. -/
theorem array_bubble_sort_indices_eq (m : Mem) (base nitems esize : Nat)
    (comp : Mem → Nat → Nat → Int) :
    (array_bubble_sort_indices m base nitems esize comp).1 =
      array_bubble_sort m base nitems esize comp := by
  unfold array_bubble_sort_indices array_bubble_sort
  rw [loop_indices_eq (sub32_lt _ _), Nat.sub_zero]

/-! ## The bounds -/

/-- A pass goes no further than the element at its bound. -/
theorem pass_indices_le {bound : Nat} (hbound : bound < 4294967296) (j : Nat) (m : Mem)
    (swapped : Bool) :
    ∀ k ∈ (array_bubble_pass_indices base esize comp bound j m swapped).2, k ≤ bound := by
  induction j, m, swapped using array_bubble_pass_indices.induct base esize comp bound with
  | case1 j m swapped hlt a b hgt ih =>
    have hnext : add32 j 1 = j + 1 := add32_eq (by omega)
    rw [array_bubble_pass_indices, if_pos hlt, if_pos hgt]
    intro k hk
    simp only [List.mem_cons] at hk
    rcases hk with rfl | rfl | rfl | rfl | hk
    · exact Nat.le_of_lt hlt
    · rw [hnext]
      exact hlt
    · exact Nat.le_of_lt hlt
    · rw [hnext]
      exact hlt
    · exact ih k hk
  | case2 j m swapped hlt a b hgt ih =>
    have hnext : add32 j 1 = j + 1 := add32_eq (by omega)
    rw [array_bubble_pass_indices, if_pos hlt, if_neg hgt]
    intro k hk
    simp only [List.mem_cons] at hk
    rcases hk with rfl | rfl | hk
    · exact Nat.le_of_lt hlt
    · rw [hnext]
      exact hlt
    · exact ih k hk
  | case3 j m swapped hlt =>
    rw [array_bubble_pass_indices, if_neg hlt]
    simp

theorem loop_indices_le {last : Nat} (hlast : last < 4294967296) (i : Nat) (m : Mem) :
    ∀ k ∈ (array_bubble_loop_indices base esize comp last i m).2, k ≤ last := by
  have hturn : ∀ i m, i < last →
      ∀ k ∈ (array_bubble_pass_indices base esize comp (sub32 last i) 0 m false).2, k ≤ last := by
    intro i m hlt k hk
    have hle := pass_indices_le (sub32_lt last i) 0 m false k hk
    rw [sub32_eq (by omega) hlast] at hle
    omega
  induction i, m using array_bubble_loop_indices.induct base esize comp last with
  | case1 i m hlt pass hswapped ih =>
    rw [array_bubble_loop_indices, if_pos hlt, if_pos hswapped]
    intro k hk
    rcases List.mem_append.mp hk with hk | hk
    · exact hturn i m hlt k hk
    · exact ih k hk
  | case2 i m hlt pass hswapped =>
    rw [array_bubble_loop_indices, if_pos hlt, if_neg hswapped]
    exact hturn i m hlt
  | case3 i m hlt =>
    rw [array_bubble_loop_indices, if_neg hlt]
    simp

/-- The first comparison is that of the elements 0 and 1. -/
theorem first_index {last : Nat} (hpos : 0 < last) (hlast : last < 4294967296) (m : Mem) :
    0 ∈ (array_bubble_loop_indices base esize comp last 0 m).2 := by
  have hpass : 0 ∈ (array_bubble_pass_indices base esize comp (sub32 last 0) 0 m false).2 := by
    rw [sub32_eq (by omega) hlast, array_bubble_pass_indices, if_pos (by omega)]
    simp only
    split
    · exact List.mem_cons_self
    · exact List.mem_cons_self
  rw [array_bubble_loop_indices, if_pos hpos]
  simp only
  split
  · exact List.mem_append_left _ hpass
  · exact hpass

end

theorem first_index_of_none (m : Mem) (base esize : Nat) (comp : Mem → Nat → Nat → Int) :
    0 ∈ (array_bubble_sort_indices m base 0 esize comp).2 := by
  have hwrap : sub32 0 1 = 4294967295 := by decide +kernel
  unfold array_bubble_sort_indices
  rw [hwrap]
  exact first_index (by decide) (by decide) m

/-- The sort compares and swaps elements of the array only, exactly when there are any: the bound
of the loops is a difference that wraps for 0. -/
theorem only_elements_are_sorted {nitems : Nat} (hn : nitems < 4294967296) (m : Mem)
    (base esize : Nat) (comp : Mem → Nat → Nat → Int) :
    (∀ k ∈ (array_bubble_sort_indices m base nitems esize comp).2, k < nitems) ↔ nitems ≠ 0 := by
  constructor
  · rintro hall rfl
    exact absurd (hall 0 (first_index_of_none m base esize comp)) (Nat.lt_irrefl 0)
  · intro hpos k hk
    unfold array_bubble_sort_indices at hk
    rw [sub32_eq (by omega) hn] at hk
    have hle := loop_indices_le (by omega) 0 m k hk
    omega

/-- The sort of three elements reads the last one, and none behind it. -/
theorem three_elements_are_sorted :
    2 ∈ (array_bubble_sort_indices (fun x => UInt8.ofNat x) 0x1000 3 SIZEOF_REGION
        pmm_memory_region_compare).2 ∧
      ∀ k ∈ (array_bubble_sort_indices (fun x => UInt8.ofNat x) 0x1000 3 SIZEOF_REGION
        pmm_memory_region_compare).2, k < 3 :=
  ⟨by decide +kernel, (only_elements_are_sorted (by decide) _ _ _ _).mpr (by decide)⟩

/-- The table of an empty memory map has no elements: the sort compares the first two. -/
theorem no_elements_are_compared :
    0 ∈ (array_bubble_sort_indices (fun _ => 0) 0x1000 ([] : List MmapEntry).length SIZEOF_REGION
        pmm_memory_region_compare).2 ∧
      ¬ ∀ k ∈ (array_bubble_sort_indices (fun _ => 0) 0x1000 ([] : List MmapEntry).length
        SIZEOF_REGION pmm_memory_region_compare).2, k < ([] : List MmapEntry).length :=
  ⟨first_index_of_none _ _ _ _, fun hall =>
    absurd (hall 0 (first_index_of_none _ _ _ _)) (Nat.lt_irrefl 0)⟩

end sakana_os
