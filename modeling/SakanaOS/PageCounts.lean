-- The page counts of `vmm.c`: `div_up` is right for the sizes that leave room for a page below
-- `2 ^ 31`, and the loops that go by it visit each page once there.
import Mathlib.Algebra.Order.Floor.Div
import SakanaOS.FreeRanges

namespace sakana_os

/-! ## The loops -/

/-- The page addresses of a loop from turn `i` on. -/
def pagesFrom (base i turns : Nat) : List Nat :=
  (List.range' i turns).map fun j => add32 base (mul32 j PAGE_SIZE)

/-- The page addresses of a loop, in order. -/
def loopPages (base turns : Nat) : List Nat := pagesFrom base 0 turns

/-- A loop over pages, which a turn can leave with a value. -/
def forPages {σ α : Type} (body : Nat → σ → Outcome σ (Option α)) :
    List Nat → σ → Outcome σ (Option α)
  | [], s => .done none s
  | page :: pages, s =>
    (body page s).andThen fun left s =>
      match left with
      | some a => .done (some a) s
      | none => forPages body pages s

theorem pagesFrom_succ (base i turns : Nat) : pagesFrom base i (turns + 1) =
    add32 base (mul32 i PAGE_SIZE) :: pagesFrom base (i + 1) turns := by
  unfold pagesFrom
  rw [List.range'_succ, List.map_cons]

/-- A turn of `vmm_unmap_memory`. -/
def unmapTurn (dir page : Nat) (s : Mm) : Outcome Mm (Option Unit) :=
  (vmm_unmap_page dir s page).andThen fun _ s => .done none s

theorem unmap_pages_loop (dir base turns i : Nat) (s : Mm) :
    vmm_unmap_pages dir base turns i s =
      (forPages (unmapTurn dir) (pagesFrom base i turns) s).andThen fun _ s => .done () s := by
  induction turns generalizing i s with
  | zero => rfl
  | succ turns ih =>
    rw [vmm_unmap_pages, pagesFrom_succ, forPages, unmapTurn]
    cases vmm_unmap_page dir s (add32 base (mul32 i PAGE_SIZE)) with
    | done a t => exact ih (i + 1) t
    | kpanic code message t => rfl
    | fault t => rfl
    | hang t => rfl

/-- A turn of `vmm_map_memory`, which leaves the loop when the free frames run out. -/
def mapTurn (dir physical_address page : Nat) (s : Mm) : Outcome Mm (Option Unit) :=
  let frame := pmm_find_free_frame_from s physical_address
  if frame = NULL then .done (some ()) s
  else
    (vmm_map_page s dir dir page frame true true).andThen fun _ s =>
      .done none (pmm_mark_frame_reserved s frame)

theorem map_pages_loop (dir base physical_address turns i : Nat) (s : Mm) :
    vmm_map_pages dir base physical_address turns i s =
      (forPages (mapTurn dir physical_address) (pagesFrom base i turns) s).andThen fun left s =>
        .done left.isNone s := by
  induction turns generalizing i s with
  | zero => rfl
  | succ turns ih =>
    rw [vmm_map_pages, pagesFrom_succ, forPages, mapTurn]
    by_cases hnull : pmm_find_free_frame_from s physical_address = NULL
    · simp only [hnull, if_true]
      rfl
    · simp only [hnull, if_false]
      cases vmm_map_page s dir dir (add32 base (mul32 i PAGE_SIZE))
          (pmm_find_free_frame_from s physical_address) true true with
      | done a t => exact ih (i + 1) _
      | kpanic code message t => rfl
      | fault t => rfl
      | hang t => rfl

/-- A turn of `vmm_find_free_memory`, which leaves the loop with a page. -/
def findTurn (dir : Nat) (m : byte_memory.Mem) (size space_end page : Nat) (_ : Unit) :
    Outcome Unit (Option Nat) :=
  if vmm_is_page_used m dir page then .done none ()
  else
    match vmm_is_memory_free dir m size page space_end 0x100000 0 with
    | none => .hang ()
    | some true => .done (some page) ()
    | some false => .done none ()

/-- What a search returns, `none` when it does not end. -/
def foundPage : Outcome Unit (Option Nat) → Option Nat
  | .done left _ => some (left.getD NULL)
  | _ => none

theorem find_free_loop_pages (dir : Nat) (m : byte_memory.Mem)
    (size base space_end turns i : Nat) :
    vmm_find_free_loop dir m size base space_end turns i =
      foundPage (forPages (findTurn dir m size space_end) (pagesFrom base i turns) ()) := by
  induction turns generalizing i with
  | zero => rfl
  | succ turns ih =>
    rw [vmm_find_free_loop, pagesFrom_succ, forPages, findTurn]
    by_cases hused : vmm_is_page_used m dir (add32 base (mul32 i PAGE_SIZE)) = true
    · simp only [hused, if_true]
      exact ih (i + 1)
    · simp only [hused]
      cases vmm_is_memory_free dir m size (add32 base (mul32 i PAGE_SIZE)) space_end 0x100000 0 with
      | none => rfl
      | some free =>
        cases free with
        | true => rfl
        | false => exact ih (i + 1)

/-! ## The counts -/

/-- A call with a loop over pages: the arguments of a mapping or of the end of one, or the space
of a search. -/
inductive PageRequest where
  | map (virtual_address size : UInt32)
  | unmap (virtual_address size : UInt32)
  | find (is_kernel : Bool)

/-- The address of the first page. -/
def PageRequest.base : PageRequest → Nat
  | .map virtual_address _ => paging_align_address_down virtual_address.toNat
  | .unmap virtual_address _ => paging_align_address_down virtual_address.toNat
  | .find is_kernel => if is_kernel then VMM_KERNEL_SPACE_BASE else VMM_USER_SPACE_BASE

/-- The size that goes to `div_up`. -/
def PageRequest.size : PageRequest → Nat
  | .map _ size => size.toNat
  | .unmap _ size => size.toNat
  | .find is_kernel => if is_kernel then VMM_KERNEL_SPACE_SIZE else VMM_USER_SPACE_SIZE

/-- The pages that the loop of a call goes through. -/
def PageRequest.pages (r : PageRequest) : List Nat := loopPages r.base (div_up r.size PAGE_SIZE)

/-- The loop of `vmm_unmap_memory` goes through the pages of its request. -/
theorem unmap_memory_pages (dir : Nat) (s : Mm) (virtual_address size : UInt32) :
    vmm_unmap_memory dir s virtual_address.toNat size.toNat =
      (forPages (unmapTurn dir) (PageRequest.unmap virtual_address size).pages s).andThen
        fun _ s => .done () s := unmap_pages_loop _ _ _ _ _

/-- So does that of `vmm_map_memory`, when it has chosen the addresses. -/
theorem map_range_pages (dir physical_address : Nat) (s : Mm) (virtual_address size : UInt32) :
    vmm_map_range dir s virtual_address.toNat physical_address size.toNat =
      (forPages (mapTurn dir physical_address) (PageRequest.map virtual_address size).pages
        s).andThen fun left s =>
          if left.isNone then .done (paging_align_address_down virtual_address.toNat) s
          else
            (vmm_unmap_memory dir s (paging_align_address_down virtual_address.toNat)
              size.toNat).andThen fun _ s => .done NULL s := by
  unfold vmm_map_range
  simp only [map_pages_loop, Outcome.andThen_assoc, Outcome.done_andThen]
  rfl

/-- And so does that of `vmm_find_free_memory`. -/
theorem find_free_memory_pages (dir : Nat) (m : byte_memory.Mem) (size : Nat) (is_kernel : Bool) :
    vmm_find_free_memory dir m size is_kernel =
      foundPage (forPages (findTurn dir m size (add32 (PageRequest.find is_kernel).base
        (PageRequest.find is_kernel).size)) (PageRequest.find is_kernel).pages ()) := by
  unfold vmm_find_free_memory
  simp only [find_free_loop_pages]
  rfl

/-- The count is the ceiling, and the loop takes at most `2 ^ 20` turns, each to a page of its
own. -/
structure PagesRight (r : PageRequest) : Prop where
  count : div_up r.size PAGE_SIZE = r.size ⌈/⌉ PAGE_SIZE
  turns : r.pages.length ≤ 1048576
  distinct : r.pages.Nodup

theorem PageRequest.size_lt (r : PageRequest) : r.size < 4294967296 := by
  cases r with
  | map virtual_address size => exact size.toNat_lt
  | unmap virtual_address size => exact size.toNat_lt
  | find is_kernel => cases is_kernel <;> decide

theorem length_loopPages (base turns : Nat) : (loopPages base turns).length = turns := by
  simp [loopPages, pagesFrom]

/-- As many pages as there are in the address space do not meet. -/
theorem loopPages_nodup (base : Nat) {turns : Nat} (h : turns ≤ 1048576) :
    (loopPages base turns).Nodup := by
  unfold loopPages pagesFrom
  refine List.Nodup.map_on (fun i hi j hj heq => ?_) List.nodup_range'
  rw [List.mem_range'_1] at hi hj
  rw [PAGE_SIZE, mul32_eq (by omega), mul32_eq (by omega)] at heq
  unfold add32 at heq
  omega

/-- The count is right for the sizes to which a page less one can be added in an `int`. -/
theorem page_counts_are_right_for_sizes_below_half_the_addresses (r : PageRequest) :
    PagesRight r ↔ r.size ≤ 0x7FFFF000 := by
  have hceil : r.size ⌈/⌉ PAGE_SIZE = (r.size + 4095) / 4096 := Nat.ceilDiv_eq_add_pred_div _ _
  have hlt := r.size_lt
  constructor
  · intro hright
    by_contra hlarge
    have hcount := hright.count
    rw [hceil, PAGE_SIZE] at hcount
    rcases div_up_large hlt (by omega) with hzero | hhuge
    · omega
    · omega
  · intro hsmall
    have hcount : div_up r.size PAGE_SIZE = (r.size + 4095) / 4096 := div_up_page (by omega)
    refine ⟨hcount.trans hceil.symm, ?_, ?_⟩
    · rw [PageRequest.pages, length_loopPages, hcount]
      omega
    · apply loopPages_nodup
      rw [hcount]
      omega

/-- The size of the user space is negative as an `int`: the search goes through 0xFFFC0000 pages
in place of 0xBFFFF. -/
theorem the_user_space_has_too_many_pages :
    div_up VMM_USER_SPACE_SIZE PAGE_SIZE = 0xFFFC0000 ∧
      VMM_USER_SPACE_SIZE ⌈/⌉ PAGE_SIZE = 0xBFFFF ∧ ¬ ∀ r, PagesRight r := by
  have hcount : div_up VMM_USER_SPACE_SIZE PAGE_SIZE = 0xFFFC0000 := by decide +kernel
  have hceil : VMM_USER_SPACE_SIZE ⌈/⌉ PAGE_SIZE = 0xBFFFF := by decide
  refine ⟨hcount, hceil, fun hall => ?_⟩
  have huser : div_up VMM_USER_SPACE_SIZE PAGE_SIZE = VMM_USER_SPACE_SIZE ⌈/⌉ PAGE_SIZE :=
    (hall (.find false)).count
  rw [hcount, hceil] at huser
  omega

end sakana_os
