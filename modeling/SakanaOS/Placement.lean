-- The allocations before the heap: the placement area gives out ranges from its
-- start up, one behind the other, as long as no aligned request wraps past 2^32.
import SakanaOS.Heap
import SakanaOS.Runs

open byte_memory runs

namespace sakana_os

/-! ## Requests -/

/-- A call of `kmalloc_flag` before `kheap_init`. -/
structure PlacementRequest where
  size : Nat
  flag : Nat
  size_lt : size < 4294967296

/-- A request that was served, with the pointer that came back. -/
structure Grant where
  ptr : Nat
  size : Nat
  flag : Nat
  deriving DecidableEq, Repr

structure Placed where
  kheap : Kheap
  grants : List Grant

def placement_step (p : Placed) (r : PlacementRequest) : Option Placed :=
  match kmalloc_flag p.kheap r.size r.flag with
  | .done ret s => some ⟨s, if ret = NULL then p.grants else ⟨ret, r.size, r.flag⟩ :: p.grants⟩
  | _ => none

/-- The bytes from the head of the area to the start of the range. -/
def placement_padding (s : Kheap) (flag : Nat) : Nat :=
  if flag &&& MALLOC_FLAG_ALIGN ≠ 0 then
    sub32 (paging_align_address_up s.kheap_placement_memory_head) s.kheap_placement_memory_head
  else 0

/-- The range and its padding fit into what is left of the area. -/
def Fits (s : Kheap) (r : PlacementRequest) : Prop :=
  r.size + placement_padding s r.flag ≤ s.kheap_placement_memory_free_memory

/-- The size and the padding do not wrap past 2^32, or what is left of them after the
wrap is still more than the area has. -/
def NoWrap (p : Placed) (r : PlacementRequest) : Prop :=
  r.size + placement_padding p.kheap r.flag < 4294967296 ∨
    p.kheap.kheap_placement_memory_free_memory <
      r.size + placement_padding p.kheap r.flag - 4294967296

/-! ## The area -/

/-- The ranges that were given out lie in the area, apart from each other and aligned
on request, and the head and the count of free bytes agree. -/
structure PlacementSafe (p : Placed) : Prop where
  apart : p.grants.Pairwise fun g h => g.ptr + g.size ≤ h.ptr ∨ h.ptr + h.size ≤ g.ptr
  inside : ∀ g ∈ p.grants, p.kheap.kheap_placement_memory ≤ g.ptr ∧
    g.ptr + g.size ≤ p.kheap.kheap_placement_memory + KHEAP_PLACEMENT_SIZE
  aligned : ∀ g ∈ p.grants, g.flag &&& MALLOC_FLAG_ALIGN ≠ 0 →
    paging_is_aligned_address g.ptr = true
  account : p.kheap.kheap_placement_memory_head =
    p.kheap.kheap_placement_memory + KHEAP_PLACEMENT_SIZE -
      p.kheap.kheap_placement_memory_free_memory

/-- What every request keeps: all ranges lie below the head, at addresses that are no
`NULL`, and the area lies in the address space. -/
structure Bumped (p : Placed) : Prop extends PlacementSafe p where
  disabled : p.kheap.kheap_enabled = false
  below : ∀ g ∈ p.grants, g.ptr + g.size ≤ p.kheap.kheap_placement_memory_head
  start_pos : 0 < p.kheap.kheap_placement_memory
  stop_lt : p.kheap.kheap_placement_memory + KHEAP_PLACEMENT_SIZE < 4294967296
  free_le : p.kheap.kheap_placement_memory_free_memory ≤ KHEAP_PLACEMENT_SIZE

/-- The padding reaches to the next page boundary, which `paging_align_address_up`
returns when it is an address. -/
theorem align_padding {h : Nat} (hh : h < 4294967296) :
    sub32 (paging_align_address_up h) h < 4096 ∧
      (h + sub32 (paging_align_address_up h) h) % 4096 = 0 ∧
      (h + sub32 (paging_align_address_up h) h < 4294967296 →
        paging_align_address_up h = h + sub32 (paging_align_address_up h) h) := by
  rw [align_up_eq]
  unfold sub32
  refine ⟨?_, ?_, ?_⟩ <;> omega

/-- The area after a request was served. -/
def servedKheap (s : Kheap) (size flag : Nat) : Kheap :=
  let addr := s.kheap_placement_memory_head + placement_padding s flag
  { s with
    kheap_placement_memory_head := s.kheap_placement_memory_head +
      (size + placement_padding s flag)
    kheap_placement_memory_free_memory := s.kheap_placement_memory_free_memory -
      (size + placement_padding s flag)
    mem := if flag &&& MALLOC_FLAG_INIT ≠ 0 then fill s.mem addr 0 size else s.mem }

/-- A request that fits moves the head behind its range. -/
theorem kmalloc_placement_fits {p : Placed} (h : Bumped p) {r : PlacementRequest}
    (hfits : Fits p.kheap r) :
    kmalloc_flag p.kheap r.size r.flag =
      .done (p.kheap.kheap_placement_memory_head + placement_padding p.kheap r.flag)
        (servedKheap p.kheap r.size r.flag) := by
  have haccount := h.account
  have hstop := h.stop_lt
  have hfree := h.free_le
  obtain ⟨hpad, _, hup⟩ := align_padding (h := p.kheap.kheap_placement_memory_head) (by omega)
  unfold Fits placement_padding at hfits
  unfold kmalloc_flag kmalloc_base kmalloc_placement_base servedKheap placement_padding
  simp only [h.disabled, Bool.false_eq_true, if_false]
  simp only [KHEAP_PLACEMENT_SIZE] at haccount hstop hfree
  by_cases halign : r.flag &&& MALLOC_FLAG_ALIGN = 0
  · simp only [halign, ne_eq, not_true_eq_false, if_false, Nat.add_zero] at hfits ⊢
    rw [if_neg (by omega), add32_eq (by omega), sub32_eq (by omega) (by omega)]
  · simp only [halign, ne_eq, not_false_eq_true, if_true] at hfits ⊢
    have hsum := add32_eq (a := r.size) (b := sub32 (paging_align_address_up
      p.kheap.kheap_placement_memory_head) p.kheap.kheap_placement_memory_head) (by omega)
    rw [hsum, if_neg (by omega), add32_eq (by omega), sub32_eq hfits (by omega),
      ← hup (by omega)]

/-- A request that does not fit and does not wrap is refused. -/
theorem kmalloc_placement_refuses {p : Placed} (h : Bumped p) {r : PlacementRequest}
    (hfits : ¬ Fits p.kheap r) (hwrap : NoWrap p r) :
    kmalloc_flag p.kheap r.size r.flag = .done NULL p.kheap := by
  have hsize := r.size_lt
  have hstop := h.stop_lt
  have haccount := h.account
  obtain ⟨hpad, _, _⟩ := align_padding (h := p.kheap.kheap_placement_memory_head) (by omega)
  unfold Fits at hfits
  unfold NoWrap at hwrap
  unfold placement_padding at hfits hwrap
  unfold kmalloc_flag kmalloc_base kmalloc_placement_base
  simp only [h.disabled, Bool.false_eq_true, if_false]
  by_cases halign : r.flag &&& MALLOC_FLAG_ALIGN = 0
  · simp only [halign, ne_eq, not_true_eq_false, if_false, Nat.add_zero] at hfits ⊢
    exact if_pos (by omega)
  · simp only [halign, ne_eq, not_false_eq_true, if_true] at hfits hwrap ⊢
    apply if_pos
    unfold add32
    omega

/-- One request that does not wrap keeps the area in order. -/
theorem placement_step_bumped {p q : Placed} {r : PlacementRequest} (h : Bumped p)
    (hwrap : NoWrap p r) (hstep : placement_step p r = some q) : Bumped q := by
  by_cases hfits : Fits p.kheap r
  · have heq := kmalloc_placement_fits h hfits
    have haccount := h.account
    have hfree_le := h.free_le
    have hstop := h.stop_lt
    have hpos := h.start_pos
    unfold Fits at hfits
    have hne : p.kheap.kheap_placement_memory_head + placement_padding p.kheap r.flag ≠ NULL := by
      show _ ≠ 0
      omega
    unfold placement_step at hstep
    rw [heq] at hstep
    simp only [hne, if_false, Option.some.injEq] at hstep
    subst hstep
    unfold servedKheap
    refine ⟨⟨?_, ?_, ?_, ?_⟩, h.disabled, ?_, hpos, hstop, ?_⟩
    · refine List.pairwise_cons.mpr ⟨fun g hg => Or.inr ?_, h.apart⟩
      have := h.below g hg
      simp only
      omega
    · simp only [List.forall_mem_cons]
      exact ⟨by omega, h.inside⟩
    · simp only [List.forall_mem_cons]
      refine ⟨fun halign => ?_, h.aligned⟩
      rw [is_aligned_iff]
      unfold placement_padding
      rw [if_pos halign]
      exact (align_padding (by omega)).2.1
    · simp only
      omega
    · simp only [List.forall_mem_cons]
      refine ⟨by omega, fun g hg => ?_⟩
      have := h.below g hg
      omega
    · simp only
      omega
  · have heq := kmalloc_placement_refuses h hfits hwrap
    unfold placement_step at hstep
    rw [heq] at hstep
    simp only [if_true, Option.some.injEq] at hstep
    subst hstep
    exact h

/-- A `kmalloc` from the placement area that fits. -/
theorem kmalloc_placement {s : Kheap} {grants : List Grant} (h : Bumped ⟨s, grants⟩) (size : Nat)
    (hsize : size ≤ s.kheap_placement_memory_free_memory) :
    kmalloc s size = .done s.kheap_placement_memory_head
        { s with
          kheap_placement_memory_head := s.kheap_placement_memory_head + size
          kheap_placement_memory_free_memory := s.kheap_placement_memory_free_memory - size } ∧
      Bumped ⟨{ s with
          kheap_placement_memory_head := s.kheap_placement_memory_head + size
          kheap_placement_memory_free_memory := s.kheap_placement_memory_free_memory - size },
        ⟨s.kheap_placement_memory_head, size, MALLOC_FLAG_NULL⟩ :: grants⟩ := by
  have hfree := h.free_le
  have haccount := h.account
  have hpos := h.start_pos
  simp only [KHEAP_PLACEMENT_SIZE] at hfree haccount
  have hlt : size < 4294967296 := by omega
  have hpad : placement_padding s MALLOC_FLAG_NULL = 0 := if_neg (by simp [MALLOC_FLAG_NULL])
  have hfits : Fits s ⟨size, MALLOC_FLAG_NULL, hlt⟩ := by
    unfold Fits
    simp only [hpad]
    exact hsize
  have hserved : servedKheap s size MALLOC_FLAG_NULL =
      { s with
        kheap_placement_memory_head := s.kheap_placement_memory_head + size
        kheap_placement_memory_free_memory := s.kheap_placement_memory_free_memory - size } := by
    unfold servedKheap
    rw [hpad, Nat.add_zero]
    rfl
  have heq := kmalloc_placement_fits h hfits
  simp only [hpad, hserved, Nat.add_zero] at heq
  have hne : s.kheap_placement_memory_head ≠ NULL := by
    show _ ≠ 0
    simp only at hpos
    omega
  refine ⟨heq, placement_step_bumped h (r := ⟨size, MALLOC_FLAG_NULL, hlt⟩) (Or.inl ?_) ?_⟩
  · simp only [hpad]
    exact hlt
  · unfold placement_step
    simp only [heq, hne, if_false]

/-! ## Runs -/

/-- The area when `taken` bytes of it were given out. -/
def kheapTaken (placement taken : Nat) (m : Mem) : Kheap :=
  { kheapStart placement m with
    kheap_placement_memory_head := placement + taken
    kheap_placement_memory_free_memory := KHEAP_PLACEMENT_SIZE - taken }

theorem bumped_taken {start taken : Nat} {m : Mem} (hpos : 0 < start)
    (hstop : start + KHEAP_PLACEMENT_SIZE < 4294967296) (htaken : taken ≤ KHEAP_PLACEMENT_SIZE) :
    Bumped ⟨kheapTaken start taken m, []⟩ := by
  refine ⟨⟨List.Pairwise.nil, ?_, ?_, ?_⟩, rfl, ?_, hpos, hstop, Nat.sub_le _ _⟩
  · simp
  · simp
  · unfold kheapTaken kheapStart
    simp only
    omega
  · simp

theorem bumped_start {start : Nat} {m : Mem} (hpos : 0 < start)
    (hstop : start + KHEAP_PLACEMENT_SIZE < 4294967296) : Bumped ⟨kheapStart start m, []⟩ :=
  bumped_taken hpos hstop (Nat.zero_le _)

/-- As long as no aligned request wraps, the ranges that the area gives out are apart,
inside it and aligned on request, the head agrees with the count of free bytes, and a
request that does not fit changes nothing. -/
theorem the_area_gives_out_ranges_apart {start : Nat} {m : Mem} (hpos : 0 < start)
    (hstop : start + KHEAP_PLACEMENT_SIZE < 4294967296) {rs : List PlacementRequest} {p : Placed}
    (hrun : run placement_step ⟨kheapStart start m, []⟩ rs = some p)
    (hwrap : Along placement_step NoWrap ⟨kheapStart start m, []⟩ rs) :
    PlacementSafe p ∧ ∀ r, NoWrap p r →
      (¬ Fits p.kheap r → kmalloc_flag p.kheap r.size r.flag = .done NULL p.kheap) ∧
      ∃ q, placement_step p r = some q := by
  have hbumped : Bumped p :=
    run_keeps_along (fun _ _ _ h hcond hstep => placement_step_bumped h hcond hstep)
      (bumped_start hpos hstop) hwrap hrun
  refine ⟨hbumped.toPlacementSafe, fun r hr =>
    ⟨fun hfits => kmalloc_placement_refuses hbumped hfits hr, ?_⟩⟩
  unfold placement_step
  by_cases hfits : Fits p.kheap r
  · rw [kmalloc_placement_fits hbumped hfits]
    exact ⟨_, rfl⟩
  · rw [kmalloc_placement_refuses hbumped hfits hr]
    exact ⟨_, rfl⟩

/-- An aligned page, and 100 bytes behind it. -/
def pageThenBytes : List PlacementRequest :=
  [⟨4096, MALLOC_FLAG_ALIGN, by decide⟩, ⟨100, MALLOC_FLAG_NULL, by decide⟩]

theorem two_ranges_apart :
    ∃ p, run placement_step ⟨kheapStart 0xC0200064 fun _ => 0, []⟩ pageThenBytes = some p ∧
      PlacementSafe p := by
  obtain ⟨p, hp⟩ := Option.isSome_iff_exists.mp (by decide +kernel :
    (run placement_step ⟨kheapStart 0xC0200064 fun _ => 0, []⟩ pageThenBytes).isSome = true)
  have hpos : 0 < 0xC0200064 := by decide
  have hstop : 0xC0200064 + KHEAP_PLACEMENT_SIZE < 4294967296 := by decide
  have hbytes : 100 + 0 < 4294967296 := by decide
  refine ⟨p, hp, (the_area_gives_out_ranges_apart hpos hstop hp ?_).1⟩
  exact ⟨Or.inl (by decide +kernel), fun _ _ => ⟨Or.inl hbytes, fun _ _ => trivial⟩⟩

/-- A request whose size and padding wrap to something that fits gets a range that
leaves the area. -/
theorem a_wrapped_request_leaves_the_area {p : Placed} (h : Bumped p) {r : PlacementRequest}
    (hwrap : ¬ NoWrap p r)
    (hstop : p.kheap.kheap_placement_memory + KHEAP_PLACEMENT_SIZE + 4096 < 4294967296) :
    ∃ q, placement_step p r = some q ∧ ∃ g ∈ q.grants, g.size = r.size ∧
      q.kheap.kheap_placement_memory + KHEAP_PLACEMENT_SIZE < g.ptr + g.size := by
  have hsize := r.size_lt
  have haccount := h.account
  have hfree := h.free_le
  have hpos := h.start_pos
  obtain ⟨hpad, _, hup⟩ := align_padding (h := p.kheap.kheap_placement_memory_head) (by omega)
  have hup := hup (by omega)
  unfold NoWrap placement_padding at hwrap
  by_cases halign : r.flag &&& MALLOC_FLAG_ALIGN = 0
  · simp only [halign, ne_eq, not_true_eq_false, if_false] at hwrap
    omega
  · simp only [halign, ne_eq, not_false_eq_true, if_true] at hwrap
    have hne : paging_align_address_up p.kheap.kheap_placement_memory_head ≠ NULL := by
      rw [hup]
      show _ ≠ 0
      omega
    have hroom : ¬ add32 r.size (sub32 (paging_align_address_up p.kheap.kheap_placement_memory_head)
        p.kheap.kheap_placement_memory_head) > p.kheap.kheap_placement_memory_free_memory := by
      unfold add32
      omega
    unfold placement_step kmalloc_flag kmalloc_base kmalloc_placement_base
    simp only [h.disabled, Bool.false_eq_true, if_false, halign, ne_eq, not_false_eq_true, if_true,
      hroom, hne]
    refine ⟨_, rfl, _, List.mem_cons_self, rfl, ?_⟩
    simp only [KHEAP_PLACEMENT_SIZE] at hfree hstop haccount ⊢
    omega

/-- One byte, and an aligned request that wraps to nothing. -/
def byteThenWrap : List PlacementRequest :=
  [⟨1, MALLOC_FLAG_NULL, by decide⟩, ⟨0xFFFFF001, MALLOC_FLAG_ALIGN, by decide⟩]

theorem a_wrapped_request_overlaps :
    ∃ p, run placement_step ⟨kheapStart 0xC0200000 fun _ => 0, []⟩ byteThenWrap = some p ∧
      ¬ PlacementSafe p := by
  have hgrants : (run placement_step ⟨kheapStart 0xC0200000 fun _ => 0, []⟩ byteThenWrap).map
        (fun p => (p.kheap.kheap_placement_memory, p.grants)) =
      some (0xC0200000, [⟨0xC0201000, 0xFFFFF001, MALLOC_FLAG_ALIGN⟩,
        ⟨0xC0200000, 1, MALLOC_FLAG_NULL⟩]) := by
    decide +kernel
  obtain ⟨p, hp, heq⟩ := Option.map_eq_some_iff.mp hgrants
  obtain ⟨hstart, hg⟩ := Prod.mk.inj heq
  refine ⟨p, hp, fun h => ?_⟩
  have hin := (h.inside ⟨0xC0201000, 0xFFFFF001, MALLOC_FLAG_ALIGN⟩ (by simp [hg])).2
  rw [hstart] at hin
  revert hin
  decide

end sakana_os
