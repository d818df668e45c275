-- The search of `pmm.c` for a free frame, with the product that makes an address of the frame: it
-- is formed in an `int`, and the frames of the upper half leave that.
import Mathlib.Order.Bounds.Basic
import SakanaOS.VmmRuns

open byte_memory

namespace sakana_os

/-! ## The code -/

/-- The product of two `int`, `none` where it overflows. -/
def int_mul (a b : Int) : Option Int :=
  if -2147483648 ≤ a * b ∧ a * b < 2147483648 then some (a * b) else none

/-- `pmm_find_free_frame_from`, `none` where the product of the `int` overflows. -/
def pmm_find_free_frame_int (s : Mm) (address : Nat) : Option Nat :=
  let start := pmm_address_to_index address
  match pmm_find_free_loop s (s.pmm.num_memory_frames - start) start with
  | some i => (int_mul (toInt i) (toInt PMM_FRAME_SIZE)).map ofInt
  | none => some NULL

theorem int_mul_nat (a b : Nat) :
    int_mul a b = if a * b < 2147483648 then some ((a * b : Nat) : Int) else none := by
  unfold int_mul
  by_cases hlow : a * b < 2147483648
  · rw [if_pos (by omega), if_pos hlow, Nat.cast_mul]
  · rw [if_neg (by omega), if_neg hlow]

theorem int_mul_frame {i : Nat} (hi : i < 1048576) :
    (int_mul (toInt i) (toInt PMM_FRAME_SIZE)).map ofInt =
      if i < 524288 then some (i * 4096) else none := by
  have hindex : toInt i = i := if_pos (by omega)
  have hsize : toInt PMM_FRAME_SIZE = ((4096 : Nat) : Int) := by decide
  rw [hindex, hsize, int_mul_nat]
  by_cases hlow : i < 524288
  · rw [if_pos (by omega), if_pos hlow, Option.map_some, ofInt]
    congr 1
    omega
  · rw [if_neg (by omega), if_neg hlow, Option.map_none]

/-- Where nothing overflows, the address is the one that wraps. -/
theorem find_free_frame_int_eq {s : Mm} (hframes : s.pmm.num_memory_frames ≤ 1048576)
    {address r : Nat} (h : pmm_find_free_frame_int s address = some r) :
    pmm_find_free_frame_from s address = r := by
  unfold pmm_find_free_frame_int at h
  unfold pmm_find_free_frame_from
  simp only [find_free_loop_eq] at h ⊢
  have hmem := fun i => @mem_freeFrames s (pmm_address_to_index address) i
  unfold freeFrames at hmem
  cases hfree : (List.range' (pmm_address_to_index address)
      (s.pmm.num_memory_frames - pmm_address_to_index address)).filter
        (fun f => !pmm_test_frame s f) with
  | nil =>
    rw [hfree] at h
    exact Option.some.inj h
  | cons i rest =>
    rw [hfree] at h hmem
    have hlt := ((hmem i).mp List.mem_cons_self).2.1
    simp only [List.head?_cons] at h ⊢
    rw [int_mul_frame (by omega)] at h
    split at h
    · rw [PMM_FRAME_SIZE, PAGE_SIZE, mul32_eq (by omega)]
      exact Option.some.inj h
    · cases h

/-! ## The least free frame -/

/-- The frame is free, and not in front of the address. -/
def FreeFrom (s : Mm) (address f : Nat) : Prop :=
  address / 4096 ≤ f ∧ f < s.pmm.num_memory_frames ∧ pmm_test_frame s f = false

/-- The search returns the address of the least free frame from the address on, or `NULL` when
there is none, and nothing overflows on the way. -/
def SearchExact (s : Mm) (address : Nat) : Prop :=
  ∃ r, pmm_find_free_frame_int s address = some r ∧
    (∀ f, IsLeast {f | FreeFrom s address f} f → r = 4096 * f) ∧
    (r = NULL ↔ ¬ ∃ f, FreeFrom s address f)

theorem least_of_freeFrames {s : Mm} {address f : Nat} {rest : List Nat}
    (h : freeFrames s (address / 4096) = f :: rest) : IsLeast {f | FreeFrom s address f} f := by
  have hsorted : (freeFrames s (address / 4096)).Pairwise (· < ·) := by
    unfold freeFrames
    exact List.Pairwise.filter _ List.pairwise_lt_range'
  constructor
  · apply mem_freeFrames.mp
    rw [h]
    exact List.mem_cons_self
  · intro g hg
    have hmem : g ∈ freeFrames s (address / 4096) := mem_freeFrames.mpr hg
    rw [h] at hmem hsorted
    rcases List.mem_cons.mp hmem with rfl | hmem
    · exact Nat.le_refl g
    · exact Nat.le_of_lt ((List.pairwise_cons.mp hsorted).1 g hmem)

theorem find_free_frame_int_cases {s : Mm} (hframes : s.pmm.num_memory_frames ≤ 1048576)
    (address : Nat) :
    (pmm_find_free_frame_int s address = some NULL ∧ ¬ ∃ f, FreeFrom s address f) ∨
    ∃ f, IsLeast {f | FreeFrom s address f} f ∧
      pmm_find_free_frame_int s address = if f < 524288 then some (f * 4096) else none := by
  unfold pmm_find_free_frame_int
  simp only [find_free_loop_eq, address_to_index_eq]
  have hfold : (List.range' (address / 4096) (s.pmm.num_memory_frames - address / 4096)).filter
      (fun f => !pmm_test_frame s f) = freeFrames s (address / 4096) := rfl
  rw [hfold]
  cases hfree : freeFrames s (address / 4096) with
  | nil =>
    refine Or.inl ⟨rfl, ?_⟩
    rintro ⟨f, hf⟩
    have hmem : f ∈ freeFrames s (address / 4096) := mem_freeFrames.mpr hf
    rw [hfree] at hmem
    cases hmem
  | cons f rest =>
    have hleast := least_of_freeFrames hfree
    have hlt : f < s.pmm.num_memory_frames := hleast.1.2.1
    exact Or.inr ⟨f, hleast, int_mul_frame (by omega)⟩

/-- The search is exact when the least free frame from the address on, if there is one, lies in
the lower half of the memory, and else the product of the `int` overflows. -/
theorem the_search_is_exact_in_the_lower_half {s : Mm}
    (hframes : s.pmm.num_memory_frames ≤ 1048576) (hzero : pmm_test_frame s 0 = true)
    (address : Nat) :
    SearchExact s address ↔ ∀ f, IsLeast {f | FreeFrom s address f} f → f < 524288 := by
  rcases find_free_frame_int_cases hframes address with ⟨hnull, hnone⟩ | ⟨f, hleast, hfind⟩
  · constructor
    · intro _ f hf
      exact absurd ⟨f, hf.1⟩ hnone
    · intro _
      exact ⟨NULL, hnull, fun f hf => absurd ⟨f, hf.1⟩ hnone, fun _ => hnone, fun _ => rfl⟩
  · have hne : f ≠ 0 := by
      rintro rfl
      have hfree : pmm_test_frame s 0 = false := hleast.1.2.2
      rw [hzero] at hfree
      cases hfree
    constructor
    · rintro ⟨r, hr, -, -⟩ g hg
      obtain rfl := hleast.unique hg
      by_contra hhigh
      rw [hfind, if_neg hhigh] at hr
      cases hr
    · intro hlow
      rw [SearchExact, hfind, if_pos (hlow f hleast)]
      refine ⟨f * 4096, rfl, fun g hg => ?_, fun hnull => ?_, fun hnone => ?_⟩
      · rw [hleast.unique hg]
        exact Nat.mul_comm g 4096
      · have hnull : f * 4096 = 0 := hnull
        omega
      · exact absurd ⟨f, hleast.1⟩ hnone

/-! ## Two bitmaps -/

/-- A frame allocator whose bitmap is at `0x1000`. -/
def mmWith (m : Mem) : Mm :=
  ⟨kheapStart 0xC0200000 m, ⟨NULL, 0, SIZEOF_REGION, 0, TOP_FRAME, 0, 0x1000, 131072⟩⟩

/-- Only the first frame is in use. -/
def firstFrameUsed : Mm := mmWith fun a => if a = 0x1000 then 1 else 0

theorem the_second_frame_is_found :
    IsLeast {f | FreeFrom firstFrameUsed 0 f} 1 ∧ SearchExact firstFrameUsed 0 := by
  have hzero : pmm_test_frame firstFrameUsed 0 = true := by decide
  have hleast : IsLeast {f | FreeFrom firstFrameUsed 0 f} 1 := by
    refine ⟨⟨by decide, by decide, by decide⟩, fun g hg => ?_⟩
    refine Nat.one_le_iff_ne_zero.mpr ?_
    rintro rfl
    have hfree : pmm_test_frame firstFrameUsed 0 = false := hg.2.2
    rw [hzero] at hfree
    cases hfree
  refine ⟨hleast, (the_search_is_exact_in_the_lower_half (by decide) hzero 0).mpr fun f hf => ?_⟩
  rw [hf.unique hleast]
  decide

/-- All frames up to the middle of the memory are in use, and the one there is free. -/
def lowerHalfUsed : Mm := mmWith fun a => if a = 0x1000 + 65536 then 0xFE else 0xFF

theorem lowerHalfUsed_least : IsLeast {f | FreeFrom lowerHalfUsed 0 f} 524288 := by
  refine ⟨⟨by decide, by decide, by decide⟩, ?_⟩
  intro g hg
  by_contra hlow
  have hbits : ∀ b < 8, (255 &&& (1 <<< b) != 0) = true := by decide
  have hbyte : lowerHalfUsed.kheap.mem (0x1000 + g / 8) = 0xFF := if_neg (by omega)
  have hused : pmm_test_frame lowerHalfUsed g = true := by
    have hall := hbits (g % 8) (Nat.mod_lt _ (by decide))
    have hplace : lowerHalfUsed.pmm.bitmap = 0x1000 := rfl
    unfold pmm_test_frame PMM_FRAMES_PER_BITMAP_BYTE
    simp only [hplace, hbyte]
    exact hall
  have hfree : pmm_test_frame lowerHalfUsed g = false := hg.2.2
  rw [hused] at hfree
  cases hfree

/-- The product for frame 524288 is `2 ^ 31`, one more than the largest `int`. -/
theorem a_frame_of_the_upper_half_overflows :
    lowerHalfUsed.pmm.num_memory_frames = TOP_FRAME ∧ pmm_test_frame lowerHalfUsed 0 = true ∧
      pmm_find_free_frame_int lowerHalfUsed 0 = none ∧ ¬ SearchExact lowerHalfUsed 0 := by
  have hnone : pmm_find_free_frame_int lowerHalfUsed 0 = none := by
    have hframes : lowerHalfUsed.pmm.num_memory_frames ≤ 1048576 := by decide
    rcases find_free_frame_int_cases hframes 0 with
      ⟨-, hno⟩ | ⟨f, hleast, hfind⟩
    · exact absurd ⟨524288, lowerHalfUsed_least.1⟩ hno
    · rw [hfind, hleast.unique lowerHalfUsed_least]
      rfl
  refine ⟨rfl, by decide, hnone, ?_⟩
  rintro ⟨r, hr, -⟩
  rw [hnone] at hr
  cases hr

end sakana_os
