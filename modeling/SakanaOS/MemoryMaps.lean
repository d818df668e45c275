-- `pmm_init` over any memory map: which frames are free after it, that they are the
-- available ones of a map in order, and for which other maps no frame is free that is not.
import SakanaOS.RegionTable

open byte_memory

namespace sakana_os

/-! ## The frames of a region -/

/-- The frames that an available region frees: those of its base up to that of its last
byte, in 32-bit arithmetic. -/
def Frees (r : pmm_memory_region) (f : Nat) : Prop :=
  r.type = MULTIBOOT_MEMORY_AVAILABLE ∧ r.base / 4096 ≤ f ∧
    f ≤ sub32 (add32 r.base r.length) 1 / 4096

theorem unset_frames_regions (turns frame : Nat) (s : Mm) :
    (pmm_unset_frames turns frame s).pmm.regions = s.pmm.regions := by
  induction turns generalizing frame s with
  | zero => rfl
  | succ turns ih =>
    rw [pmm_unset_frames, ih]
    unfold pmm_unset_frame
    split <;> rfl

theorem init_region_regions (s : Mm) (i : Nat) :
    (pmm_init_region s i).pmm.regions = s.pmm.regions := by
  unfold pmm_init_region
  split
  · exact unset_frames_regions _ _ s
  · rfl

/-- One turn of the loop of `pmm_init`. -/
theorem init_region_frames (s : Mm) (i f : Nat) :
    pmm_test_frame (pmm_init_region s i) f = false ↔
      Frees (regionAt s.kheap.mem (pmm_region s.pmm i)) f ∨ pmm_test_frame s f = false := by
  have hstart : region_start_frame s i =
      (regionAt s.kheap.mem (pmm_region s.pmm i)).base / 4096 := by
    unfold region_start_frame pmm_address_to_index paging_frame_index
    exact Nat.shiftRight_eq_div_pow _ _
  have hend : region_end_frame s i = sub32 (add32 (regionAt s.kheap.mem (pmm_region s.pmm i)).base
      (regionAt s.kheap.mem (pmm_region s.pmm i)).length) 1 / 4096 := by
    unfold region_end_frame pmm_address_to_index paging_frame_index
    exact Nat.shiftRight_eq_div_pow _ _
  have htype : region_type s.kheap.mem (pmm_region s.pmm i) =
      (regionAt s.kheap.mem (pmm_region s.pmm i)).type := rfl
  unfold pmm_init_region Frees
  rw [htype]
  by_cases hav : (regionAt s.kheap.mem (pmm_region s.pmm i)).type = MULTIBOOT_MEMORY_AVAILABLE
  · simp only [hav, if_true, true_and, test_unset_frames, hstart, hend, Bool.and_eq_false_iff,
      Bool.not_eq_false', decide_eq_true_eq]
    apply or_congr_left
    omega
  · rw [if_neg hav]
    exact (or_iff_right fun h => hav h.1).symm

/-- The loop of `pmm_init` frees the frames of the regions, which it does not change. -/
theorem init_regions_frames {base n : Nat} (hwrap : base + n * SIZEOF_REGION < 4294967296)
    (is : List Nat) {s : Mm} (hbase : s.pmm.regions = base)
    (hbitmap : base + n * SIZEOF_REGION ≤ s.pmm.bitmap) (his : ∀ i ∈ is, i < n) (f : Nat) :
    pmm_test_frame (is.foldl pmm_init_region s) f = false ↔
      (∃ i ∈ is, Frees (regionAt s.kheap.mem (base + i * SIZEOF_REGION)) f) ∨
        pmm_test_frame s f = false := by
  induction is generalizing s with
  | nil => simp
  | cons i is ih =>
    have hi := his i List.mem_cons_self
    have hmarked := marked_init_region s i
    have hregion : pmm_region s.pmm i = base + i * SIZEOF_REGION := by
      unfold pmm_region
      unfold SIZEOF_REGION at hwrap ⊢
      rw [hbase, mul32_eq (by omega), add32_eq (by omega)]
    have hsame : ∀ j, j < n → regionAt (pmm_init_region s i).kheap.mem (base + j * SIZEOF_REGION) =
        regionAt s.kheap.mem (base + j * SIZEOF_REGION) := by
      intro j hj
      apply regionAt_congr
      intro x _ hx
      apply hmarked.outside
      unfold SIZEOF_REGION at hbitmap hx
      omega
    have hrest := @ih (pmm_init_region s i) ((init_region_regions s i).trans hbase)
      (by rw [hmarked.bitmap]; exact hbitmap) fun j hj => his j (List.mem_cons_of_mem i hj)
    rw [List.foldl_cons, hrest, init_region_frames, hregion]
    constructor
    · rintro (⟨j, hj, hfrees⟩ | hfirst | hbefore)
      · rw [hsame j (his j (List.mem_cons_of_mem i hj))] at hfrees
        exact Or.inl ⟨j, List.mem_cons_of_mem i hj, hfrees⟩
      · exact Or.inl ⟨i, List.mem_cons_self, hfirst⟩
      · exact Or.inr hbefore
    · rintro (⟨j, hj, hfrees⟩ | hbefore)
      · rcases List.mem_cons.mp hj with rfl | hj
        · exact Or.inr (Or.inl hfrees)
        · refine Or.inl ⟨j, hj, ?_⟩
          rw [hsame j (his j (List.mem_cons_of_mem i hj))]
          exact hfrees
      · exact Or.inr (Or.inr hbefore)

/-! ## The start of the allocator -/

/-- After `pmm_init` those frames are free that the regions of the map free. -/
theorem init_frames {s : Mm} {grants : List Grant} (h : Bumped ⟨s.kheap, grants⟩)
    (hroom : 144 + 131072 ≤ s.kheap.kheap_placement_memory_free_memory) {mmap : List MmapEntry}
    (hpos : 1 ≤ mmap.length) (hle : mmap.length ≤ 12) :
    ∃ t, pmm_init s mmap = .done () t ∧
      ∀ f, f < 0x100000 → (pmm_test_frame t f = false ↔ ∃ e ∈ mmap, Frees (regionOf e) f) := by
  obtain ⟨m, size, hinit, hm, -⟩ := init_bitmap_returns h hroom mmap
  have haccount := h.account
  have hstop := h.stop_lt
  have hfree := h.free_le
  simp only at haccount hstop hfree
  have hlt : s.kheap.kheap_placement_memory_head + 144 < 4294967296 := by omega
  obtain ⟨hperm, -⟩ := fetch_loop_sorted (s := tableStart
    { s with pmm := { s.pmm with memory_size := 0 } } mmap s.kheap.kheap_placement_memory_head)
    mmap hlt hpos hle
  rw [hm] at hperm
  -- The bitmap lies behind the table.
  have htable : tableRegions (bitmapStart s mmap m size).kheap.mem
      s.kheap.kheap_placement_memory_head mmap.length =
      tableRegions (array_bubble_sort m s.kheap.kheap_placement_memory_head mmap.length
        SIZEOF_REGION pmm_memory_region_compare) s.kheap.kheap_placement_memory_head
        mmap.length := by
    apply List.map_congr_left
    intro i hi
    have hilt := List.mem_range.mp hi
    apply regionAt_congr
    intro x _ hx
    unfold SIZEOF_REGION at hx
    unfold bitmapStart
    simp only
    rw [fill_frame _ _ _ _ _ (Or.inl (by omega))]
  have hsorted : (tableRegions (bitmapStart s mmap m size).kheap.mem
      s.kheap.kheap_placement_memory_head mmap.length).Perm (mmap.map regionOf) := by
    rw [htable]
    exact hperm
  refine ⟨(List.range mmap.length).foldl pmm_init_region (bitmapStart s mmap m size), ?_, ?_⟩
  · unfold pmm_init
    rw [hinit]
    rfl
  · intro f hf
    have hset := (init_bitmap_counted hinit).2 f hf
    have hwrap : s.kheap.kheap_placement_memory_head + mmap.length * SIZEOF_REGION <
        4294967296 := by
      unfold SIZEOF_REGION
      omega
    rw [init_regions_frames hwrap _ rfl
      (by unfold SIZEOF_REGION bitmapStart; simp only; omega) fun i hi => List.mem_range.mp hi,
      hset, or_iff_left (by decide)]
    have hmem : ∀ r, r ∈ tableRegions (bitmapStart s mmap m size).kheap.mem
        s.kheap.kheap_placement_memory_head mmap.length ↔ ∃ e ∈ mmap, regionOf e = r := by
      intro r
      rw [hsorted.mem_iff, List.mem_map]
    unfold tableRegions at hmem
    constructor
    · rintro ⟨i, hi, hfrees⟩
      obtain ⟨e, he, heq⟩ := (hmem _).mp (List.mem_map_of_mem hi)
      rw [← heq] at hfrees
      exact ⟨e, he, hfrees⟩
    · rintro ⟨e, he, hfrees⟩
      obtain ⟨i, hi, heq⟩ := List.mem_map.mp ((hmem _).mpr ⟨e, he, rfl⟩)
      rw [← heq] at hfrees
      exact ⟨i, hi, hfrees⟩

theorem image_init_frames (image : KernelImage) (m : Mem) {mmap : List MmapEntry}
    (hpos : 1 ≤ mmap.length) (hle : mmap.length ≤ 12) :
    ∃ t, pmm_init (image.start m).mm mmap = .done () t ∧
      ∀ f, f < 0x100000 → (pmm_test_frame t f = false ↔ ∃ e ∈ mmap, Frees (regionOf e) f) :=
  init_frames (image_bumped image m) (image_room image m) hpos hle

/-! ## Maps in order -/

/-- The fields of an entry, at their widths. -/
structure MmapEntry.WellFormed (e : MmapEntry) : Prop where
  addr_lt : e.addr < 18446744073709551616
  len_lt : e.len < 18446744073709551616
  type_lt : e.type < 4294967296

/-- The byte lies in the entry. -/
def MmapEntry.Covers (e : MmapEntry) (x : Nat) : Prop := e.addr ≤ x ∧ x < e.addr + e.len

/-- The ranges of a map are not empty, page aligned at both ends, pairwise disjoint and
below 4 GB. -/
structure InOrder (mmap : List MmapEntry) : Prop where
  nonempty : ∀ e ∈ mmap, 1 ≤ e.len
  aligned : ∀ e ∈ mmap, e.addr % 4096 = 0 ∧ (e.addr + e.len) % 4096 = 0
  apart : mmap.Pairwise fun a b => a.addr + a.len ≤ b.addr ∨ b.addr + b.len ≤ a.addr
  below : ∀ e ∈ mmap, e.addr + e.len ≤ 4294967296
  type_lt : ∀ e ∈ mmap, e.type < 4294967296

/-- A whole frame lies in an available entry. -/
def FrameAvailable (mmap : List MmapEntry) (f : Nat) : Prop :=
  ∃ e ∈ mmap, e.type = MULTIBOOT_MEMORY_AVAILABLE ∧ ∀ x, x / 4096 = f → e.Covers x

theorem frees_in_order {e : MmapEntry} (hpos : 1 ≤ e.len) (halign : e.addr % 4096 = 0)
    (halign' : (e.addr + e.len) % 4096 = 0) (hbelow : e.addr + e.len ≤ 4294967296)
    (htype : e.type < 4294967296) (f : Nat) :
    Frees (regionOf e) f ↔
      e.type = MULTIBOOT_MEMORY_AVAILABLE ∧ ∀ x, x / 4096 = f → e.Covers x := by
  have hlast : sub32 (add32 (e.addr % 4294967296) (e.len % 4294967296)) 1 =
      e.addr + e.len - 1 := by
    unfold sub32 add32
    omega
  unfold Frees regionOf MmapEntry.Covers
  simp only
  rw [hlast, Nat.mod_eq_of_lt htype]
  apply and_congr_right
  intro _
  constructor
  · rintro ⟨hlow, hhigh⟩ x hx
    omega
  · intro hcovers
    have hfirst := hcovers (f * 4096) (by omega)
    omega

/-- After `pmm_init` over a map in order, the free frames are those that lie in available
entries, whatever the order of the entries. -/
theorem the_free_frames_are_the_available_ones (image : KernelImage) (m : Mem)
    {mmap : List MmapEntry} (hpos : 1 ≤ mmap.length) (hle : mmap.length ≤ 12)
    (horder : InOrder mmap) :
    ∃ t, pmm_init (image.start m).mm mmap = .done () t ∧
      (∀ f, f < 0x100000 → (pmm_test_frame t f = false ↔ FrameAvailable mmap f)) ∧
      ∀ mmap', mmap'.Perm mmap → ∃ t', pmm_init (image.start m).mm mmap' = .done () t' ∧
        ∀ f, f < 0x100000 → pmm_test_frame t' f = pmm_test_frame t f := by
  obtain ⟨t, hinit, hframes⟩ := image_init_frames image m hpos hle
  refine ⟨t, hinit, fun f hf => ?_, fun mmap' hperm => ?_⟩
  · rw [hframes f hf]
    unfold FrameAvailable
    apply exists_congr
    intro e
    apply and_congr_right
    intro he
    obtain ⟨halign, halign'⟩ := horder.aligned e he
    exact frees_in_order (horder.nonempty e he) halign halign' (horder.below e he)
      (horder.type_lt e he) f
  · rw [← hperm.length_eq] at hpos hle
    obtain ⟨t', hinit', hframes'⟩ := image_init_frames image m hpos hle
    refine ⟨t', hinit', fun f hf => ?_⟩
    have hiff : pmm_test_frame t' f = false ↔ pmm_test_frame t f = false := by
      rw [hframes' f hf, hframes f hf]
      simp only [hperm.mem_iff]
    cases ht : pmm_test_frame t f with
    | false => exact hiff.mpr ht
    | true =>
      rw [ht] at hiff
      exact Bool.eq_true_of_not_eq_false fun hfalse => absurd (hiff.mp hfalse) (by decide)

/-- A map with its entries in reverse order. -/
def twoRegions : List MmapEntry :=
  [⟨0x200000, 0x100000, MULTIBOOT_MEMORY_AVAILABLE⟩, ⟨0x100000, 0x1000, 2⟩]

theorem the_free_frames_of_two_regions : ∃ t,
    pmm_init (smallImage.start fun _ => 0).mm twoRegions = .done () t ∧
    ∀ f, f < 0x100000 → (pmm_test_frame t f = false ↔ FrameAvailable twoRegions f) := by
  have horder : InOrder twoRegions := by
    refine ⟨by decide, by decide, by decide, by decide, by decide⟩
  obtain ⟨t, hinit, hframes, -⟩ := the_free_frames_are_the_available_ones smallImage
    (fun _ => 0) (by decide) (by decide) horder
  exact ⟨t, hinit, hframes⟩

/-! ## All maps -/

/-- The byte lies in an available entry, and in no other. -/
def ByteAvailable (mmap : List MmapEntry) (x : Nat) : Prop :=
  (∃ e ∈ mmap, e.type = MULTIBOOT_MEMORY_AVAILABLE ∧ e.Covers x) ∧
    ∀ e ∈ mmap, e.Covers x → e.type = MULTIBOOT_MEMORY_AVAILABLE

/-- A frame is free only when all its bytes are available. -/
def FreeFramesAvailable (t : Mm) (mmap : List MmapEntry) : Prop :=
  ∀ f, f < 0x100000 → pmm_test_frame t f = false → ∀ x, x / 4096 = f → ByteAvailable mmap x

/-- The byte lies in the pages that an entry touches, when its base and its end are
reduced to 32 bits and rounded outwards. -/
def MmapEntry.RoundedCovers (e : MmapEntry) (x : Nat) : Prop :=
  e.addr % 4294967296 / 4096 ≤ x / 4096 ∧
    x / 4096 ≤ (e.addr % 4294967296 + e.len % 4294967296 + 4294967295) % 4294967296 / 4096

/-- For every memory map, the free frames are available exactly when the rounded ranges of
the available entries take in no byte that is not. -/
theorem the_free_frames_are_available_when_rounding_is_harmless (image : KernelImage) (m : Mem)
    {mmap : List MmapEntry} (hpos : 1 ≤ mmap.length) (hle : mmap.length ≤ 12)
    (hformed : ∀ e ∈ mmap, e.WellFormed) :
    ∃ t, pmm_init (image.start m).mm mmap = .done () t ∧
      (FreeFramesAvailable t mmap ↔ ∀ e ∈ mmap, e.type = MULTIBOOT_MEMORY_AVAILABLE →
        ∀ x, e.RoundedCovers x → ByteAvailable mmap x) := by
  obtain ⟨t, hinit, hframes⟩ := image_init_frames image m hpos hle
  have hfrees : ∀ e ∈ mmap, ∀ x, Frees (regionOf e) (x / 4096) ↔
      e.type = MULTIBOOT_MEMORY_AVAILABLE ∧ e.RoundedCovers x := by
    intro e he x
    have hlast : sub32 (add32 (e.addr % 4294967296) (e.len % 4294967296)) 1 =
        (e.addr % 4294967296 + e.len % 4294967296 + 4294967295) % 4294967296 := by
      unfold sub32 add32
      omega
    unfold Frees regionOf MmapEntry.RoundedCovers
    simp only
    rw [hlast, Nat.mod_eq_of_lt (hformed e he).type_lt]
  refine ⟨t, hinit, ?_, ?_⟩
  · intro hfree e he hav x hx
    have hlt : x / 4096 < 0x100000 := by
      unfold MmapEntry.RoundedCovers at hx
      omega
    refine hfree (x / 4096) hlt ((hframes _ hlt).mpr ⟨e, he, ?_⟩) x rfl
    exact (hfrees e he x).mpr ⟨hav, hx⟩
  · intro hrounded f hf hclear x hx
    obtain ⟨e, he, hfree⟩ := (hframes f hf).mp hclear
    rw [← hx] at hfree
    obtain ⟨hav, hcovers⟩ := (hfrees e he x).mp hfree
    exact hrounded e he hav x hcovers

theorem rounding_is_harmless_for_a_page : ∃ t,
    pmm_init (smallImage.start fun _ => 0).mm (oneRegion 0x100000 0x1000) = .done () t ∧
    FreeFramesAvailable t (oneRegion 0x100000 0x1000) := by
  have hpos : 1 ≤ (oneRegion 0x100000 0x1000).length := by decide
  obtain ⟨t, hinit, hiff⟩ := the_free_frames_are_available_when_rounding_is_harmless smallImage
    (fun _ => 0) hpos (by decide) fun e he => by
      rw [List.mem_singleton.mp he]
      exact ⟨by decide, by decide, by decide⟩
  refine ⟨t, hinit, hiff.mpr fun e he _ x hx => ?_⟩
  rw [List.mem_singleton.mp he] at hx
  have hcovers : (⟨0x100000, 0x1000, MULTIBOOT_MEMORY_AVAILABLE⟩ : MmapEntry).Covers x := by
    unfold MmapEntry.RoundedCovers at hx
    unfold MmapEntry.Covers
    simp only at hx ⊢
    omega
  refine ⟨⟨_, List.mem_singleton.mpr rfl, rfl, hcovers⟩, fun e' he' _ => ?_⟩
  rw [List.mem_singleton.mp he']

/-- A region that starts and ends in the middle of a page frees the whole of both pages. -/
theorem a_part_of_a_page_frees_it : ∃ t,
    pmm_init (smallImage.start fun _ => 0).mm (oneRegion 0x800 0x1000) = .done () t ∧
    ¬ FreeFramesAvailable t (oneRegion 0x800 0x1000) := by
  have hpos : 1 ≤ (oneRegion 0x800 0x1000).length := by decide
  obtain ⟨t, hinit, hframes⟩ := image_init_frames smallImage (fun _ => 0) hpos (by decide)
  refine ⟨t, hinit, fun hfree => ?_⟩
  have hclear : pmm_test_frame t 0 = false := by
    refine (hframes 0 (by decide)).mpr ⟨_, List.mem_singleton.mpr rfl, ?_⟩
    exact ⟨rfl, by decide, Nat.zero_le _⟩
  obtain ⟨⟨e, he, -, hcovers⟩, -⟩ := hfree 0 (by decide) hclear 0 rfl
  rw [List.mem_singleton.mp he] at hcovers
  exact absurd hcovers.1 (by decide)

end sakana_os
