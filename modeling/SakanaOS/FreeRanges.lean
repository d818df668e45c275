-- The search of `vmm_find_free_memory` for a range of pages: it finds the lowest range that
-- is free, as long as no range over the end of the address space is taken for one.
import SakanaOS.Vmm

open byte_memory bit_fields

namespace sakana_os

/-! ## What the search looks for -/

def spaceBase (is_kernel : Bool) : Nat :=
  if is_kernel then VMM_KERNEL_SPACE_BASE else VMM_USER_SPACE_BASE

/-- The first address behind the space. -/
def spaceEnd (is_kernel : Bool) : Nat :=
  if is_kernel then VMM_KERNEL_SPACE_BASE + VMM_KERNEL_SPACE_SIZE
  else VMM_USER_SPACE_BASE + VMM_USER_SPACE_SIZE

section

variable (m : Mem) (dir size : Nat)

/-- Every page of the range at `r` lies in the space, and none is in use. -/
structure FreeRange (is_kernel : Bool) (r : Nat) : Prop where
  aligned : r % PAGE_SIZE = 0
  low : spaceBase is_kernel ≤ r
  free : ∀ k, k * PAGE_SIZE < size → r + k * PAGE_SIZE < spaceEnd is_kernel ∧
    vmm_is_page_used m dir (r + k * PAGE_SIZE) = false

/-- The search returns the lowest such range, and `NULL` only when there is none. -/
def LowestRangeFound (is_kernel : Bool) : Prop :=
  ∃ r, vmm_find_free_memory dir m size is_kernel = some r ∧
    (r ≠ NULL → FreeRange m dir size is_kernel r ∧
      ∀ r', FreeRange m dir size is_kernel r' → r ≤ r') ∧
    (r = NULL → ∀ r', ¬ FreeRange m dir size is_kernel r')

/-- A range that starts in the kernel space and goes on past the end of the address space
at address 0, without a page in use. -/
def FreeOverTheEnd : Prop :=
  ∃ r, VMM_KERNEL_SPACE_BASE ≤ r ∧ r < 4294967296 ∧ r % PAGE_SIZE = 0 ∧ 4294967296 < r + size ∧
    ∀ k, k * PAGE_SIZE < size → vmm_is_page_used m dir (add32 r (k * PAGE_SIZE)) = false

/-- What the inner loop asks of a page. -/
def PageFits (space_end page_address : Nat) : Prop :=
  page_address < space_end ∧ vmm_is_page_used m dir page_address = false

/-- What it asks of a range. -/
def RangeFits (space_end page_address : Nat) : Prop :=
  ∀ k, k * PAGE_SIZE < size → PageFits m dir space_end (add32 page_address (k * PAGE_SIZE))

/-- What ends the search. -/
def RangeFound (space_end page_address : Nat) : Prop :=
  vmm_is_page_used m dir page_address = false ∧ RangeFits m dir size space_end page_address

end

section

variable {m : Mem} {dir size space_end : Nat}

/-! ## The inner loop -/

theorem next_offset (k : Nat) : add32 (k * 4096) PAGE_SIZE = (k + 1) * 4096 % 4294967296 := by
  have hnext : k * 4096 + 4096 = (k + 1) * 4096 := by omega
  unfold add32 PAGE_SIZE
  rw [hnext]

/-- From page `k` of the range on, the loop looks at all pages. It never ends when the
offset wraps. -/
theorem is_memory_free_cases {page_address : Nat} (hsize : size < 4294967296) (turns : Nat)
    {k : Nat} (hk : k + turns = 0x100000) (hpast : k = 0 ∨ (k - 1) * PAGE_SIZE < size) :
    ((∀ j, k ≤ j → j * PAGE_SIZE < size →
        PageFits m dir space_end (add32 page_address (j * PAGE_SIZE))) ∧
      vmm_is_memory_free dir m size page_address space_end turns (k * PAGE_SIZE % 4294967296) =
        if size ≤ 0xFFFFF000 then some true else none) ∨
    ((∃ j, k ≤ j ∧ j * PAGE_SIZE < size ∧
        ¬ PageFits m dir space_end (add32 page_address (j * PAGE_SIZE))) ∧
      vmm_is_memory_free dir m size page_address space_end turns (k * PAGE_SIZE % 4294967296) =
        some false) := by
  unfold PAGE_SIZE at *
  induction turns generalizing k with
  | zero =>
    refine Or.inl ⟨fun j h1 h2 => ?_, ?_⟩
    · omega
    · rw [if_neg (by omega), vmm_is_memory_free]
  | succ turns ih =>
    have hoffset : k * 4096 % 4294967296 = k * 4096 := by omega
    rw [hoffset, vmm_is_memory_free]
    by_cases hmore : k * 4096 < size
    · rw [if_pos hmore]
      simp only
      by_cases hfits : PageFits m dir space_end (add32 page_address (k * 4096))
      · have hgo : ¬ (add32 page_address (k * 4096) ≥ space_end ∨
            vmm_is_page_used m dir (add32 page_address (k * 4096)) = true) := by
          rintro (hend | hused)
          · exact absurd hfits.1 (Nat.not_lt.mpr hend)
          · rw [hfits.2] at hused
            cases hused
        rw [if_neg hgo, next_offset]
        have hpast' : k + 1 = 0 ∨ (k + 1 - 1) * 4096 < size := by
          rw [Nat.add_sub_cancel]
          exact Or.inr hmore
        rcases ih (by omega) hpast' with ⟨hall, heq⟩ | ⟨⟨j, h1, h2, hbad⟩, heq⟩
        · refine Or.inl ⟨fun j h1 h2 => ?_, heq⟩
          by_cases hj : j = k
          · rw [hj]
            exact hfits
          · exact hall j (by omega) h2
        · exact Or.inr ⟨⟨j, by omega, h2, hbad⟩, heq⟩
      · have hstop : add32 page_address (k * 4096) ≥ space_end ∨
            vmm_is_page_used m dir (add32 page_address (k * 4096)) = true := by
          unfold PageFits at hfits
          rw [not_and_or, Bool.not_eq_false] at hfits
          exact hfits.imp_left Nat.not_lt.mp
        rw [if_pos hstop]
        exact Or.inr ⟨⟨k, Nat.le_refl k, hmore, hfits⟩, rfl⟩
    · rw [if_neg hmore]
      refine Or.inl ⟨fun j h1 h2 => ?_, ?_⟩
      · omega
      · rw [if_pos (by omega)]

/-! ## The outer loop -/

/-- The address that the search comes to in turn `i`. -/
def searchAddress (base i : Nat) : Nat := add32 base (mul32 i PAGE_SIZE)

/-- What the search returns when it begins with turn `i`. -/
def SearchedFrom (m : Mem) (dir size space_end base turns i : Nat) : Prop :=
  ((∀ j, i ≤ j → j < i + turns → ¬ RangeFound m dir size space_end (searchAddress base j)) ∧
    vmm_find_free_loop dir m size base space_end turns i = some NULL) ∨
  ∃ j, i ≤ j ∧ j < i + turns ∧ RangeFound m dir size space_end (searchAddress base j) ∧
    (∀ j', i ≤ j' → j' < j → ¬ RangeFound m dir size space_end (searchAddress base j')) ∧
    vmm_find_free_loop dir m size base space_end turns i =
      if size ≤ 0xFFFFF000 then some (searchAddress base j) else none

/-- A turn that finds no range. -/
theorem SearchedFrom.skip {base turns i : Nat}
    (h : SearchedFrom m dir size space_end base turns (i + 1))
    (hbad : ¬ RangeFound m dir size space_end (searchAddress base i))
    (heq : vmm_find_free_loop dir m size base space_end (turns + 1) i =
      vmm_find_free_loop dir m size base space_end turns (i + 1)) :
    SearchedFrom m dir size space_end base (turns + 1) i := by
  have hbefore : ∀ j, i ≤ j → ¬ i + 1 ≤ j →
      ¬ RangeFound m dir size space_end (searchAddress base j) := by
    intro j h1 h2
    rw [show j = i by omega]
    exact hbad
  unfold SearchedFrom
  rw [heq]
  rcases h with ⟨hnone, hnull⟩ | ⟨j, h1, h2, hfound, hfirst, hres⟩
  · refine Or.inl ⟨fun j h1 h2 => ?_, hnull⟩
    by_cases hj : i + 1 ≤ j
    · exact hnone j hj (by omega)
    · exact hbefore j h1 hj
  · refine Or.inr ⟨j, by omega, by omega, hfound, fun j' h1' h2' => ?_, hres⟩
    by_cases hj : i + 1 ≤ j'
    · exact hfirst j' hj h2'
    · exact hbefore j' h1' hj

/-- The first range that is found ends the search. -/
theorem find_free_loop_cases (m : Mem) (dir space_end : Nat) (hsize : size < 4294967296)
    (base turns i : Nat) : SearchedFrom m dir size space_end base turns i := by
  induction turns generalizing i with
  | zero => exact Or.inl ⟨fun j h1 h2 => by omega, rfl⟩
  | succ turns ih =>
    have hsearch : add32 base (mul32 i PAGE_SIZE) = searchAddress base i := rfl
    by_cases hused : vmm_is_page_used m dir (searchAddress base i) = true
    · apply (ih (i + 1)).skip
      · rintro ⟨hunused, -⟩
        rw [hused] at hunused
        cases hunused
      · rw [vmm_find_free_loop]
        simp only [hsearch, hused, if_true]
    · have hinner := @is_memory_free_cases m dir size space_end (searchAddress base i) hsize
        0x100000 0 rfl (Or.inl rfl)
      rw [Nat.zero_mul, Nat.zero_mod] at hinner
      rcases hinner with ⟨hall, heq⟩ | ⟨⟨j, -, h2, hbad⟩, heq⟩
      · have hfound : RangeFound m dir size space_end (searchAddress base i) :=
          ⟨Bool.eq_false_iff.mpr hused, fun k hk => hall k (Nat.zero_le k) hk⟩
        refine Or.inr ⟨i, Nat.le_refl i, by omega, hfound, fun j' h1 h2 => by omega, ?_⟩
        rw [vmm_find_free_loop]
        simp only [hsearch, hused, heq, Bool.false_eq_true, if_false]
        by_cases hends : size ≤ 0xFFFFF000
        · simp only [hends, if_true]
        · simp only [hends, if_false]
      · apply (ih (i + 1)).skip
        · rintro ⟨-, hfits⟩
          exact hbad (hfits j h2)
        · rw [vmm_find_free_loop]
          simp only [hsearch, hused, heq, Bool.false_eq_true, if_false]

/-- A range that fits is found when it is not empty. -/
theorem RangeFits.found (hpos : 1 ≤ size) {r : Nat} (hr : r < 4294967296)
    (h : RangeFits m dir size space_end r) : RangeFound m dir size space_end r := by
  refine ⟨?_, h⟩
  have hfirst := (h 0 (by omega)).2
  rwa [Nat.zero_mul, add32_eq (by omega), Nat.add_zero] at hfirst

/-! ## The kernel space -/

theorem kernel_address {i : Nat} (hi : i < 0x40000) :
    searchAddress (spaceBase true) i = 0xC0000000 + i * 4096 := by
  have hbase : spaceBase true = 0xC0000000 := rfl
  unfold searchAddress PAGE_SIZE
  rw [hbase, mul32_eq (by omega), add32_eq (by omega)]

/-- Each page that ends before the end of the address space fits into the kernel space. -/
theorem kernel_page_fits {r k : Nat} (hr : r % PAGE_SIZE = 0) :
    PageFits m dir 0xFFFFFFFF (add32 r (k * PAGE_SIZE)) ↔
      vmm_is_page_used m dir (add32 r (k * PAGE_SIZE)) = false := by
  unfold PageFits PAGE_SIZE at *
  refine and_iff_right ?_
  unfold add32
  omega

/-- A free range of the kernel space is one that the loops ask for, and does not wrap. -/
theorem kernel_free_range {r : Nat} (hr : r % PAGE_SIZE = 0)
    (hlow : 0xC0000000 ≤ r) (hhigh : r < 4294967296) :
    FreeRange m dir size true r ↔
      RangeFits m dir size 0xFFFFFFFF r ∧ r + size ≤ 4294967296 := by
  have hend : spaceEnd true = 0xFFFFFFFF := rfl
  have hbase : spaceBase true = 0xC0000000 := rfl
  constructor
  · rintro ⟨-, -, hfree⟩
    rw [hend] at hfree
    have htop : r + size ≤ 4294967296 := by
      by_contra hover
      -- The page at address 0 would be in the range.
      have hlast := (hfree ((4294967296 - r) / 4096) (by
        unfold PAGE_SIZE at *
        omega)).1
      unfold PAGE_SIZE at *
      omega
    refine ⟨fun k hk => ?_, htop⟩
    rw [kernel_page_fits hr]
    unfold PAGE_SIZE at *
    rw [add32_eq (by omega)]
    exact (hfree k hk).2
  · rintro ⟨hfits, htop⟩
    refine ⟨hr, by rwa [hbase], fun k hk => ?_⟩
    have hpage := hfits k hk
    unfold PageFits at hpage
    unfold PAGE_SIZE at *
    rw [add32_eq (by omega)] at hpage
    rw [hend]
    exact hpage

theorem kernel_find (m : Mem) (dir size : Nat) : vmm_find_free_memory dir m size true =
    vmm_find_free_loop dir m size (spaceBase true) 0xFFFFFFFF 0x40000 0 := by
  have hend : add32 VMM_KERNEL_SPACE_BASE VMM_KERNEL_SPACE_SIZE = 0xFFFFFFFF := by decide +kernel
  have hpages : div_up VMM_KERNEL_SPACE_SIZE PAGE_SIZE = 0x40000 := by decide +kernel
  unfold vmm_find_free_memory
  simp only [if_true, hend, hpages]
  rfl

/-- In the kernel space the search is right when there is a range, or none over the end. -/
theorem kernel_search (hpos : 1 ≤ size) (hsize : size < 4294967296) :
    LowestRangeFound m dir size true ↔
      (∃ r, FreeRange m dir size true r) ∨ ¬ FreeOverTheEnd m dir size := by
  have hfind := kernel_find m dir size
  have hplace : ∀ r, FreeRange m dir size true r →
      ∃ j, j < 0x40000 ∧ r = 0xC0000000 + j * 4096 := by
    intro r hr
    have hlow := hr.low
    have haligned := hr.aligned
    have htop := (hr.free 0 (by omega)).1
    have hbase : spaceBase true = 0xC0000000 := rfl
    have hstop : spaceEnd true = 0xFFFFFFFF := rfl
    unfold PAGE_SIZE at *
    exact ⟨(r - 0xC0000000) / 4096, by omega, by omega⟩
  have haligned : ∀ j, (0xC0000000 + j * 4096) % PAGE_SIZE = 0 := by
    unfold PAGE_SIZE
    omega
  rcases find_free_loop_cases m dir 0xFFFFFFFF hsize (spaceBase true) 0x40000 0 with
    ⟨hnone, hnull⟩ | ⟨j, -, hj, ⟨-, hfits⟩, hfirst, hfound⟩
  · -- No range fits, over the end or not.
    have hno : ∀ r, ¬ FreeRange m dir size true r := by
      intro r hr
      obtain ⟨j, hj, rfl⟩ := hplace r hr
      apply hnone j (Nat.zero_le j) (by omega)
      rw [kernel_address hj]
      exact ((kernel_free_range (haligned j) (by omega) (by omega)).mp hr).1.found hpos (by omega)
    refine iff_of_true ⟨NULL, by rw [hfind, hnull], fun h => absurd rfl h, fun _ => hno⟩
      (Or.inr ?_)
    rintro ⟨r, hlow, hhigh, hr, hover, hunused⟩
    have hbase : VMM_KERNEL_SPACE_BASE = 0xC0000000 := rfl
    have hplace' : r = 0xC0000000 + (r - 0xC0000000) / 4096 * 4096 := by
      unfold PAGE_SIZE at hr
      omega
    apply hnone ((r - 0xC0000000) / 4096) (Nat.zero_le _) (by omega)
    rw [kernel_address (by omega), ← hplace']
    refine RangeFits.found hpos hhigh fun k hk => ?_
    rw [kernel_page_fits hr]
    exact hunused k hk
  · rw [Nat.zero_add] at hj
    rw [kernel_address hj] at hfits hfound
    have hiff := @kernel_free_range m dir size (0xC0000000 + j * 4096) (haligned j) (by omega)
      (by omega)
    by_cases htop : 0xC0000000 + j * 4096 + size ≤ 4294967296
    · -- The first range that fits does not wrap.
      have hfree := hiff.mpr ⟨hfits, htop⟩
      rw [if_pos (by omega)] at hfound
      refine iff_of_true ⟨_, by rw [hfind, hfound], fun _ => ⟨hfree, ?_⟩, fun hnull => ?_⟩
        (Or.inl ⟨_, hfree⟩)
      · intro r' hr'
        obtain ⟨j', hj', rfl⟩ := hplace r' hr'
        have hfits' :=
          ((kernel_free_range (haligned j') (by omega) (by omega)).mp hr').1.found hpos (by omega)
        rw [← kernel_address hj'] at hfits'
        have hle : ¬ j' < j := fun hlt => hfirst j' (Nat.zero_le j') hlt hfits'
        omega
      · simp only [NULL] at hnull
        omega
    · -- It wraps, and so no free range lies before it.
      have hno : ∀ r, ¬ FreeRange m dir size true r := by
        intro r hr
        obtain ⟨j', hj', rfl⟩ := hplace r hr
        obtain ⟨hfits', htop'⟩ :=
          (kernel_free_range (haligned j') (by omega) (by omega)).mp hr
        have hfound' := hfits'.found hpos (by omega)
        rw [← kernel_address hj'] at hfound'
        exact hfirst j' (Nat.zero_le j') (by omega) hfound'
      refine iff_of_false ?_ ?_
      · rintro ⟨r, heq, hsome, -⟩
        rw [hfind, hfound] at heq
        by_cases hends : size ≤ 0xFFFFF000
        · rw [if_pos hends, Option.some.injEq] at heq
          have hne : r ≠ NULL := by
            show r ≠ 0
            omega
          exact hno r (hsome hne).1
        · rw [if_neg hends] at heq
          cases heq
      · rintro (⟨r, hr⟩ | hnone)
        · exact hno r hr
        · refine hnone ⟨0xC0000000 + j * 4096, by
            unfold VMM_KERNEL_SPACE_BASE
            omega, by omega, haligned j, by omega, fun k hk => ?_⟩
          rw [← kernel_page_fits (haligned j)]
          exact hfits k hk

/-! ## The user space -/

/-- A range that fits into the user space ends in it, as the loop looks at the page behind. -/
theorem user_range_fits {r : Nat} (hr : r % PAGE_SIZE = 0) (hlt : r < 4294967296)
    (hpos : 1 ≤ size) (hfits : RangeFits m dir size 0xC0000000 r) : r + size ≤ 0xC0000000 := by
  have hfirst := (hfits 0 (by omega)).1
  rw [Nat.zero_mul, add32_eq (by omega), Nat.add_zero] at hfirst
  by_contra hover
  have hpage := (hfits ((0xC0000000 - r) / 4096) (by
    unfold PAGE_SIZE at *
    omega)).1
  unfold PAGE_SIZE at *
  rw [add32_eq (by omega)] at hpage
  omega

theorem user_free_range {r : Nat} (hpos : 1 ≤ size) (hr : r % PAGE_SIZE = 0) (hlow : 0x1000 ≤ r)
    (hhigh : r < 4294967296) :
    FreeRange m dir size false r ↔ RangeFits m dir size 0xC0000000 r := by
  have hend : spaceEnd false = 0xC0000000 := rfl
  have hbase : spaceBase false = 0x1000 := rfl
  constructor
  · intro h k hk
    have hpage := h.free k hk
    rw [hend] at hpage
    rw [add32_eq (by omega)]
    exact hpage
  · intro hfits
    have htop := user_range_fits hr hhigh hpos hfits
    refine ⟨hr, by rwa [hbase], fun k hk => ?_⟩
    have hpage := hfits k hk
    rw [add32_eq (by omega)] at hpage
    rw [hend]
    exact hpage

theorem user_address_eq {i : Nat} (hi : i < 0xBFFFF) :
    searchAddress (spaceBase false) i = 0x1000 + i * 4096 := by
  have hbase : spaceBase false = 0x1000 := rfl
  unfold searchAddress PAGE_SIZE
  rw [hbase, mul32_eq (by omega), add32_eq (by omega)]

/-- The number of pages of the user space is negative as an `int`, so the search goes on
through the address space, over and over, but what it finds there is `NULL`. -/
theorem user_search (hpos : 1 ≤ size) (hsize : size < 4294967296) :
    LowestRangeFound m dir size false := by
  have hend : add32 VMM_USER_SPACE_BASE VMM_USER_SPACE_SIZE = 0xC0000000 := by decide +kernel
  have hpages : div_up VMM_USER_SPACE_SIZE PAGE_SIZE = 0xFFFC0000 := by decide +kernel
  have hbase : spaceBase false = 0x1000 := rfl
  have hstop : spaceEnd false = 0xC0000000 := rfl
  have hfind : vmm_find_free_memory dir m size false =
      vmm_find_free_loop dir m size (spaceBase false) 0xC0000000 0xFFFC0000 0 := by
    unfold vmm_find_free_memory
    simp only [Bool.false_eq_true, if_false, hend, hpages]
    rfl
  have hplace : ∀ r, FreeRange m dir size false r → ∃ j, j < 0xBFFFF ∧ r = 0x1000 + j * 4096 ∧
      RangeFound m dir size 0xC0000000 (searchAddress (spaceBase false) j) := by
    intro r hr
    have hlow := hr.low
    have haligned := hr.aligned
    have htop := (hr.free 0 (by omega)).1
    rw [hbase] at hlow
    rw [hstop] at htop
    have hfits := (user_free_range hpos haligned hlow (by omega)).mp hr
    unfold PAGE_SIZE at haligned
    have heq : r = 0x1000 + (r - 0x1000) / 4096 * 4096 := by omega
    refine ⟨(r - 0x1000) / 4096, by omega, heq, ?_⟩
    rw [user_address_eq (by omega), ← heq]
    exact hfits.found hpos (by omega)
  unfold LowestRangeFound
  rw [hfind]
  rcases find_free_loop_cases m dir 0xC0000000 hsize (spaceBase false) 0xFFFC0000 0 with
    ⟨hnone, hnull⟩ | ⟨j, -, hj, ⟨-, hfits⟩, hfirst, hfound⟩
  · refine ⟨NULL, hnull, fun h => absurd rfl h, fun _ r hr => ?_⟩
    obtain ⟨j, hj, -, hfits⟩ := hplace r hr
    exact hnone j (Nat.zero_le j) (by omega) hfits
  · have haligned : searchAddress (spaceBase false) j % PAGE_SIZE = 0 := by
      unfold searchAddress add32 mul32 PAGE_SIZE
      rw [hbase]
      omega
    have htop := user_range_fits haligned (add32_lt _ _) hpos hfits
    rw [if_pos (by omega)] at hfound
    refine ⟨_, hfound, fun hne => ?_, fun hnull r hr => ?_⟩
    · have hlow : 0x1000 ≤ searchAddress (spaceBase false) j := by
        have hzero : searchAddress (spaceBase false) j ≠ 0 := hne
        unfold PAGE_SIZE at haligned
        omega
      refine ⟨(user_free_range hpos haligned hlow (add32_lt _ _)).mpr hfits, fun r' hr' => ?_⟩
      obtain ⟨j', hj', rfl, hfits'⟩ := hplace r' hr'
      have hle : ¬ j' < j := fun hlt => hfirst j' (Nat.zero_le j') hlt hfits'
      rw [user_address_eq (by omega)]
      omega
    · obtain ⟨j', hj', -, hfits'⟩ := hplace r hr
      have hle : ¬ j' < j := fun hlt => hfirst j' (Nat.zero_le j') hlt hfits'
      rw [user_address_eq (by omega)] at hnull
      simp only [NULL] at hnull
      omega

end

/-! ## Every search -/

/-- The search is right in the user space, and in the kernel space exactly when there is a
free range or none is free over the end of the address space. -/
theorem the_lowest_free_range_is_found (m : Mem) (dir : Nat) {size : Nat} (is_kernel : Bool)
    (hpos : 1 ≤ size) (hsize : size < 4294967296) :
    LowestRangeFound m dir size is_kernel ↔
      (is_kernel = true →
        (∃ r, FreeRange m dir size true r) ∨ ¬ FreeOverTheEnd m dir size) := by
  cases is_kernel with
  | true =>
    rw [kernel_search hpos hsize]
    simp
  | false => exact iff_of_true (user_search hpos hsize) (fun h => by cases h)

/-- The search for 4096 bytes in an empty address space. -/
theorem one_page_is_found : LowestRangeFound (fun _ => 0) 0x1000 4096 true := by
  have hempty : ∀ va, vmm_is_page_used (fun _ => 0) 0x1000 va = false := fun _ => rfl
  refine (the_lowest_free_range_is_found _ _ true (by decide) (by decide)).mpr fun _ => Or.inl ?_
  refine ⟨0xC0000000, by decide, by decide, fun k hk => ⟨?_, hempty _⟩⟩
  have hend : spaceEnd true = 0xFFFFFFFF := rfl
  unfold PAGE_SIZE at *
  omega

/-- In an empty address space, a range that is larger than the kernel space is found. It
goes on at address 0. -/
theorem a_range_over_the_end_is_found :
    vmm_find_free_memory 0x1000 (fun _ => 0) 0x40001000 true = some 0xC0000000 ∧
      ¬ LowestRangeFound (fun _ => 0) 0x1000 0x40001000 true := by
  have hempty : ∀ va, vmm_is_page_used (fun _ => 0) 0x1000 va = false := fun _ => rfl
  have hfits : RangeFits (fun _ => 0) 0x1000 0x40001000 0xFFFFFFFF 0xC0000000 := by
    intro k _
    rw [kernel_page_fits (by decide)]
    exact hempty _
  have hno : ∀ r, ¬ FreeRange (fun _ => 0) 0x1000 0x40001000 true r := by
    intro r hr
    have hlow := hr.low
    have hlast := (hr.free 0x40000 (by decide)).1
    have hbase : spaceBase true = 0xC0000000 := rfl
    have hstop : spaceEnd true = 0xFFFFFFFF := rfl
    unfold PAGE_SIZE at hlast
    omega
  have hover : FreeOverTheEnd (fun _ => 0) 0x1000 0x40001000 :=
    ⟨0xC0000000, by decide, by decide, by decide, by decide, fun k _ => hempty _⟩
  constructor
  · have haddress : searchAddress (spaceBase true) 0 = 0xC0000000 := kernel_address (by decide)
    have hfind : vmm_find_free_memory 0x1000 (fun _ => 0) 0x40001000 true =
        vmm_find_free_loop 0x1000 (fun _ => 0) 0x40001000 (spaceBase true) 0xFFFFFFFF 0x40000 0 :=
      kernel_find _ _ _
    rw [hfind]
    have hfirst' := hfits.found (by decide) (by decide)
    rw [← haddress] at hfirst'
    have hsize : 0x40001000 < 4294967296 := by decide
    rcases find_free_loop_cases (fun _ => 0) 0x1000 0xFFFFFFFF hsize (spaceBase true) 0x40000 0
      with ⟨hnone, -⟩ | ⟨j, -, -, -, hfirst, hfound⟩
    · exact absurd hfirst' (hnone 0 (Nat.le_refl 0) (by decide))
    · have hzero : j = 0 := by
        by_contra hne
        exact hfirst 0 (Nat.le_refl 0) (Nat.pos_of_ne_zero hne) hfirst'
      rw [hfound, if_pos (by decide), hzero, haddress]
  · rw [kernel_search (by decide) (by decide)]
    rintro (⟨r, hr⟩ | hnone)
    · exact hno r hr
    · exact hnone hover

end sakana_os
