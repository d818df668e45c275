-- The region table of `pmm.c`: what `pmm_fetch_memory_regions` writes and sorts, and how
-- many regions the table has room for.
import SakanaOS.ArraySort
import SakanaOS.VmmRuns

open byte_memory bubble_sort sort_orders

namespace sakana_os

/-! ## Regions -/

/-- `pmm_memory_region_t`. -/
structure pmm_memory_region where
  base : Nat
  length : Nat
  type : Nat
  deriving DecidableEq, Repr

/-- The region at an address. -/
def regionAt (m : Mem) (a : Nat) : pmm_memory_region :=
  ⟨region_base m a, region_length m a, region_type m a⟩

/-- What the table keeps of an entry of the memory map. -/
def regionOf (e : MmapEntry) : pmm_memory_region :=
  ⟨e.addr % 4294967296, e.len % 4294967296, e.type % 4294967296⟩

/-- The `n` regions from `base` up. -/
def tableRegions (m : Mem) (base n : Nat) : List pmm_memory_region :=
  (List.range n).map fun i => regionAt m (base + i * SIZEOF_REGION)

def compareRegions (a b : pmm_memory_region) : Int :=
  if a.base < b.base then -1
  else if a.base > b.base then 1
  else if a.length < b.length then -1
  else if a.length > b.length then 1
  else 0

/-- The region in a string of bytes. -/
def regionOfBytes (bytes : List UInt8) : pmm_memory_region :=
  regionAt (storeList (fun _ => 0) 0 bytes) 0

theorem regionAt_congr {m m' : Mem} {a : Nat}
    (h : ∀ x, a ≤ x → x < a + SIZEOF_REGION → m' x = m x) :
    regionAt m' a = regionAt m a := by
  unfold SIZEOF_REGION at h
  have hword : ∀ b, a ≤ b → b + 4 ≤ a + 12 → load32 m' b = load32 m b := by
    intro b h1 h2
    exact load32_congr fun x hx hx' => h x (by omega) (by omega)
  unfold regionAt region_base region_length region_type
  rw [hword a (by omega) (by omega), hword (a + 4) (by omega) (by omega),
    hword (a + 8) (by omega) (by omega)]

theorem regionAt_bytes (m : Mem) (a : Nat) :
    regionAt m a = regionOfBytes (loadList m a SIZEOF_REGION) := by
  have hword : ∀ k, k + 4 ≤ SIZEOF_REGION →
      load32 (storeList (fun _ => 0) 0 (loadList m a SIZEOF_REGION)) (0 + k) =
        load32 m (a + k) := by
    intro k hk
    have hbyte : ∀ i, i < 4 →
        storeList (fun _ => 0) 0 (loadList m a SIZEOF_REGION) (0 + k + i) = m (a + k + i) := by
      intro i hi
      rw [storeList_loadList_at (Nat.zero_le _) (by omega)]
      congr 1
      omega
    unfold load32
    rw [hbyte 1 (by decide), hbyte 2 (by decide), hbyte 3 (by decide)]
    have hzero := hbyte 0 (by decide)
    rw [Nat.add_zero, Nat.add_zero] at hzero
    rw [hzero]
  unfold regionOfBytes regionAt region_base region_length region_type
  have hfirst := hword 0 (by decide)
  rw [Nat.add_zero a] at hfirst
  rw [hword 4 (by decide), hword 8 (by decide), hfirst]

theorem tableRegions_eq (m : Mem) (base n : Nat) :
    tableRegions m base n = (arrayElements m base SIZEOF_REGION n).map regionOfBytes := by
  unfold tableRegions arrayElements
  rw [List.map_map]
  apply List.map_congr_left
  intro i _
  exact regionAt_bytes m _

theorem tableRegions_succ (m : Mem) (base n : Nat) :
    tableRegions m base (n + 1) =
      regionAt m base :: tableRegions m (base + SIZEOF_REGION) n := by
  rw [tableRegions_eq, tableRegions_eq, arrayElements_succ, List.map_cons, ← regionAt_bytes]

/-! ## The sort -/

theorem region_compare_elements : ComparesElements pmm_memory_region_compare SIZEOF_REGION
    fun a b => decide (compareRegions (regionOfBytes a) (regionOfBytes b) > 0) := by
  intro m a b
  rw [decide_eq_true_eq, ← regionAt_bytes, ← regionAt_bytes]
  exact Iff.rfl

/-- The comparison is by base, and then by length. -/
theorem compareRegions_le {a b : pmm_memory_region} :
    compareRegions a b ≤ 0 ↔ a.base < b.base ∨ a.base = b.base ∧ a.length ≤ b.length := by
  unfold compareRegions
  by_cases hlt : a.base < b.base
  · simp [hlt]
  · rw [if_neg hlt]
    by_cases hgt : a.base > b.base
    · rw [if_pos hgt]
      omega
    · rw [if_neg hgt]
      split
      · omega
      · split <;> omega

theorem region_compare_total : TotalComparison compareRegions := by
  refine ⟨fun a b => ?_, fun a b c hab hbc => ?_⟩
  · rw [compareRegions_le, compareRegions_le]
    omega
  · rw [compareRegions_le] at hab hbc ⊢
    omega

theorem region_compare_preorder : TotalPreorder fun a b =>
    decide (compareRegions (regionOfBytes a) (regionOfBytes b) > 0) := by
  obtain ⟨htotal, htrans⟩ := region_compare_total.preorder
  exact ⟨fun a b => htotal (regionOfBytes a) (regionOfBytes b),
    fun a b c => htrans (regionOfBytes a) (regionOfBytes b) (regionOfBytes c)⟩

/-- Three regions of bytes that repeat. -/
theorem a_table_of_three_regions_is_sorted :
    Sorted (fun a b => decide (compareRegions (regionOfBytes a) (regionOfBytes b) > 0))
      (arrayElements (array_bubble_sort (fun x => UInt8.ofNat (x % 5)) 0x1000 3 SIZEOF_REGION
        pmm_memory_region_compare) 0x1000 SIZEOF_REGION 3) :=
  (an_array_is_sorted_in_place region_compare_elements region_compare_preorder (by decide)
    (by decide) (by decide) (by decide) _).1

/-- The sort puts the regions into another order, and changes nothing outside the table. -/
theorem sorted_table {base n : Nat} (hwrap : base + n * SIZEOF_REGION < 4294967296) (hpos : 1 ≤ n)
    (m : Mem) :
    (tableRegions (array_bubble_sort m base n SIZEOF_REGION pmm_memory_region_compare) base
        n).Perm (tableRegions m base n) ∧
      ∀ x, x < base ∨ base + n * SIZEOF_REGION ≤ x →
        array_bubble_sort m base n SIZEOF_REGION pmm_memory_region_compare x = m x := by
  have hn : n < 4294967296 := by
    unfold SIZEOF_REGION at hwrap
    omega
  obtain ⟨helements, hframe⟩ := bubble_sort_elements region_compare_elements (by omega)
    (Nat.le_of_lt hwrap) hn hpos m
  refine ⟨?_, hframe⟩
  rw [tableRegions_eq, tableRegions_eq, helements]
  exact (passes_perm _ _ _).map regionOfBytes

/-! ## The loop over the memory map -/

/-- One turn writes the region of its entry. -/
theorem write_region (m : Mem) (a : Nat) (e : MmapEntry) :
    regionAt (store32 (store32 (store32 m a (e.addr % 4294967296)) (a + 4) (e.len % 4294967296))
        (a + 8) e.type) a = regionOf e ∧
      ∀ x, x < a ∨ a + SIZEOF_REGION ≤ x →
        store32 (store32 (store32 m a (e.addr % 4294967296)) (a + 4) (e.len % 4294967296))
          (a + 8) e.type x = m x := by
  have haddr : e.addr % 4294967296 < 4294967296 := Nat.mod_lt _ (by decide)
  have hlen : e.len % 4294967296 < 4294967296 := Nat.mod_lt _ (by decide)
  refine ⟨?_, fun x hx => ?_⟩
  · unfold regionAt region_base region_length region_type regionOf
    rw [load32_store32_ne _ _ (by omega), load32_store32_ne _ _ (by omega),
      load32_store32 _ _ haddr, load32_store32_ne _ _ (by omega), load32_store32 _ _ hlen,
      load32_store32_same]
  · unfold SIZEOF_REGION at hx
    rw [store32_frame _ _ (by omega), store32_frame _ _ (by omega), store32_frame _ _ (by omega)]

/-- The loop writes the regions of the entries one behind the other. -/
theorem fetch_loop_regions (mmap : List MmapEntry) (i : Nat) (s : Mm)
    (hwrap : s.pmm.regions + (i + mmap.length) * SIZEOF_REGION < 4294967296) :
    tableRegions (pmm_fetch_loop mmap i s).kheap.mem (s.pmm.regions + i * SIZEOF_REGION)
        mmap.length = mmap.map regionOf ∧
      ∀ x, x < s.pmm.regions + i * SIZEOF_REGION ∨
          s.pmm.regions + (i + mmap.length) * SIZEOF_REGION ≤ x →
        (pmm_fetch_loop mmap i s).kheap.mem x = s.kheap.mem x := by
  induction mmap generalizing i s with
  | nil => exact ⟨rfl, fun _ _ => rfl⟩
  | cons e rest ih =>
    rw [List.length_cons] at hwrap ⊢
    have hregion : pmm_region s.pmm i = s.pmm.regions + i * SIZEOF_REGION := by
      unfold pmm_region
      unfold SIZEOF_REGION at hwrap ⊢
      rw [mul32_eq (by omega), add32_eq (by omega)]
    have hnext : s.pmm.regions + (i + 1) * SIZEOF_REGION =
        s.pmm.regions + i * SIZEOF_REGION + SIZEOF_REGION := by
      unfold SIZEOF_REGION
      omega
    rw [pmm_fetch_loop, hregion]
    simp only
    obtain ⟨hfirst, hframe⟩ := write_region s.kheap.mem (s.pmm.regions + i * SIZEOF_REGION) e
    generalize hmem : store32 (store32 (store32 s.kheap.mem (s.pmm.regions + i * SIZEOF_REGION)
      (e.addr % 4294967296)) (s.pmm.regions + i * SIZEOF_REGION + 4) (e.len % 4294967296))
      (s.pmm.regions + i * SIZEOF_REGION + 8) e.type = m at hfirst hframe ⊢
    obtain ⟨hrest, hkept⟩ := ih (i + 1) ⟨{ s.kheap with mem := m }, { s.pmm with
      memory_size := add32 s.pmm.memory_size (e.len % 4294967296) }⟩
      (by simp only; unfold SIZEOF_REGION at hwrap ⊢; omega)
    simp only [hnext] at hrest hkept
    rw [tableRegions_succ, hrest, List.map_cons, ← hfirst]
    refine ⟨?_, fun x hx => ?_⟩
    · congr 1
      exact regionAt_congr fun x _ hx => hkept x (Or.inl hx)
    · unfold SIZEOF_REGION at hx hkept hframe
      rw [hkept x (by omega), hframe x (by omega)]

/-! ## The table -/

/-- The table that `pmm_fetch_memory_regions` leaves: the regions of the entries in some
order, in a range of the area that only the table uses. -/
structure Fetched (s t : Mm) (mmap : List MmapEntry) : Prop where
  regions : (tableRegions t.kheap.mem t.pmm.regions mmap.length).Perm (mmap.map regionOf)
  outside : ∀ x, x < t.pmm.regions ∨ t.pmm.regions + 144 ≤ x → t.kheap.mem x = s.kheap.mem x

/-- The area has room for the table, which is at its head. -/
structure TableAt (s t : Mm) (mmap : List MmapEntry) : Prop where
  regions : t.pmm.regions = s.kheap.kheap_placement_memory_head
  num_regions : t.pmm.num_regions = mmap.length
  region_size : t.pmm.region_size = SIZEOF_REGION
  stop_lt : t.pmm.regions + 144 < 4294967296

/-- The regions of a memory map in the table, before and after the sort. -/
theorem fetch_loop_sorted {s : Mm} (mmap : List MmapEntry)
    (hwrap : s.pmm.regions + 144 < 4294967296) (hpos : 1 ≤ mmap.length) (hle : mmap.length ≤ 12) :
    (tableRegions (array_bubble_sort (pmm_fetch_loop mmap 0 s).kheap.mem s.pmm.regions mmap.length
        SIZEOF_REGION pmm_memory_region_compare) s.pmm.regions mmap.length).Perm
        (mmap.map regionOf) ∧
      ∀ x, x < s.pmm.regions ∨ s.pmm.regions + 144 ≤ x →
        array_bubble_sort (pmm_fetch_loop mmap 0 s).kheap.mem s.pmm.regions mmap.length
          SIZEOF_REGION pmm_memory_region_compare x = s.kheap.mem x := by
  have hlt : s.pmm.regions + mmap.length * SIZEOF_REGION < 4294967296 := by
    unfold SIZEOF_REGION
    omega
  obtain ⟨hregions, hframe⟩ := fetch_loop_regions mmap 0 s (by rwa [Nat.zero_add])
  obtain ⟨hperm, hkept⟩ := sorted_table hlt hpos (pmm_fetch_loop mmap 0 s).kheap.mem
  rw [Nat.zero_mul, Nat.add_zero] at hregions hframe
  rw [hregions] at hperm
  refine ⟨hperm, fun x hx => ?_⟩
  unfold SIZEOF_REGION at hkept hframe
  rw [← hframe x (by omega)]
  exact hkept x (by omega)

theorem fetch_spec {s : Mm} {grants : List Grant} (h : Bumped ⟨s.kheap, grants⟩)
    (hroom : 144 ≤ s.kheap.kheap_placement_memory_free_memory) (mmap : List MmapEntry) :
    ∃ t, pmm_fetch_memory_regions s mmap = .done () t ∧ TableAt s t mmap ∧
      (1 ≤ mmap.length → mmap.length ≤ 12 → Fetched s t mmap) := by
  obtain ⟨m, size, hloop, hfetch⟩ := fetch_regions_returns h hroom mmap
  have haccount := h.account
  have hstop := h.stop_lt
  have hfree := h.free_le
  simp only at haccount hstop hfree
  have hlt : s.kheap.kheap_placement_memory_head + 144 < 4294967296 := by omega
  refine ⟨_, hfetch, ⟨rfl, rfl, rfl, hlt⟩, fun hpos hle => ?_⟩
  obtain ⟨hperm, hkept⟩ := fetch_loop_sorted
    (s := tableStart s mmap s.kheap.kheap_placement_memory_head) mmap hlt hpos hle
  rw [hloop] at hperm hkept
  exact ⟨hperm, hkept⟩

/-! ## The room of the table -/

/-- A region lies in the block that was allocated for the table. -/
def InTable (p : Pmm) (i : Nat) : Prop :=
  p.regions ≤ pmm_region p i ∧
    pmm_region p i + SIZEOF_REGION ≤ p.regions + mul32 p.region_size p.region_size

/-- The block has room for all regions, and each of them lies in it. -/
def TableFits (p : Pmm) : Prop :=
  p.num_regions * SIZEOF_REGION ≤ mul32 p.region_size p.region_size ∧
    ∀ i, i < p.num_regions → InTable p i

/-- The sort compares, and swaps, regions in the block only. -/
def SortFits (p : Pmm) : Prop :=
  ∀ j, j < sub32 p.num_regions 1 → InTable p j ∧ InTable p (add32 j 1)

/-- `sizeof(multiboot_memory_map_t)`. The length of a memory map in bytes is a word. -/
def SIZEOF_MEMORY_MAP : Nat := 24

section

variable {s t : Mm} {mmap : List MmapEntry}

theorem TableAt.inTable_iff (h : TableAt s t mmap) {i : Nat} (hi : i ≤ 12) :
    InTable t.pmm i ↔ i < 12 := by
  have hstop := h.stop_lt
  have hsize : mul32 t.pmm.region_size t.pmm.region_size = 144 := by
    rw [h.region_size]
    decide +kernel
  have hregion : pmm_region t.pmm i = t.pmm.regions + i * 12 := by
    unfold pmm_region SIZEOF_REGION
    rw [mul32_eq (by omega), add32_eq (by omega)]
  unfold InTable SIZEOF_REGION
  rw [hsize, hregion]
  omega

theorem TableAt.fits_iff (h : TableAt s t mmap) : TableFits t.pmm ↔ mmap.length ≤ 12 := by
  have hsize : mul32 t.pmm.region_size t.pmm.region_size = 144 := by
    rw [h.region_size]
    decide +kernel
  unfold TableFits SIZEOF_REGION
  rw [hsize, h.num_regions]
  constructor
  · rintro ⟨hle, -⟩
    omega
  · intro hle
    exact ⟨by omega, fun i hi => (h.inTable_iff (by omega)).mpr (by omega)⟩

/-- Without regions the sort goes on over all of the memory. -/
theorem TableAt.sort_fits_iff (h : TableAt s t mmap)
    (hlength : mmap.length * SIZEOF_MEMORY_MAP < 4294967296) :
    SortFits t.pmm ↔ 1 ≤ mmap.length ∧ mmap.length ≤ 12 := by
  unfold SIZEOF_MEMORY_MAP at hlength
  unfold SortFits
  rw [h.num_regions]
  constructor
  · intro hfits
    by_contra hout
    have hturn : 12 < sub32 mmap.length 1 ∨ mmap.length = 13 := by
      unfold sub32
      omega
    rcases hturn with hlarge | hthirteen
    · exact absurd ((h.inTable_iff (Nat.le_refl 12)).mp (hfits 12 hlarge).1) (Nat.lt_irrefl 12)
    · have hlast : 11 < sub32 mmap.length 1 := by
        rw [hthirteen, sub32_eq (by decide) (by decide)]
        decide
      have hin := (hfits 11 hlast).2
      rw [add32_eq (by decide)] at hin
      exact absurd ((h.inTable_iff (Nat.le_refl 12)).mp hin) (Nat.lt_irrefl 12)
  · rintro ⟨hpos, hle⟩ j hj
    rw [sub32_eq hpos (by omega)] at hj
    rw [add32_eq (by omega)]
    exact ⟨(h.inTable_iff (by omega)).mpr (by omega), (h.inTable_iff (by omega)).mpr (by omega)⟩

end

/-- For every memory map, the table has room for the regions when there are at most 12 of
them, and the sort stays in it when there is a region at all. Then no other byte changes. -/
theorem the_table_has_room_for_twelve_regions (image : KernelImage) (m : Mem)
    (mmap : List MmapEntry) (hlength : mmap.length * SIZEOF_MEMORY_MAP < 4294967296) :
    ∃ t, pmm_fetch_memory_regions (image.start m).mm mmap = .done () t ∧
      (TableFits t.pmm ↔ mmap.length ≤ 12) ∧
      (SortFits t.pmm ↔ 1 ≤ mmap.length ∧ mmap.length ≤ 12) ∧
      (1 ≤ mmap.length → mmap.length ≤ 12 →
        ∀ x, x < t.pmm.regions ∨ t.pmm.regions + mul32 t.pmm.region_size t.pmm.region_size ≤ x →
          t.kheap.mem x = m x) := by
  obtain ⟨t, hfetch, htable, hfetched⟩ :=
    fetch_spec (image_bumped image m)
      (Nat.le_trans (Nat.le_add_right _ _) (image_room image m)) mmap
  refine ⟨t, hfetch, htable.fits_iff, htable.sort_fits_iff hlength, fun hpos hle => ?_⟩
  have hsize : mul32 t.pmm.region_size t.pmm.region_size = 144 := by
    rw [htable.region_size]
    decide +kernel
  rw [hsize]
  exact (hfetched hpos hle).outside

theorem the_table_has_room_for_one_region : ∃ t,
    pmm_fetch_memory_regions (smallImage.start fun _ => 0).mm (oneRegion 0x100000 0x1000) =
      .done () t ∧ TableFits t.pmm ∧ SortFits t.pmm := by
  obtain ⟨t, hfetch, hfits, hsort, -⟩ := the_table_has_room_for_twelve_regions smallImage
    (fun _ => 0) (oneRegion 0x100000 0x1000) (by decide)
  exact ⟨t, hfetch, hfits.mpr (by decide), hsort.mpr (by decide)⟩

/-- The thirteenth region lies behind the table. -/
theorem thirteen_regions_leave_the_table : ∃ t,
    pmm_fetch_memory_regions (smallImage.start fun _ => 0).mm
      (List.replicate 13 ⟨0x100000, 0x1000, MULTIBOOT_MEMORY_AVAILABLE⟩) = .done () t ∧
      ¬ TableFits t.pmm ∧ ¬ InTable t.pmm 12 := by
  obtain ⟨t, hfetch, htable, -⟩ := fetch_spec (image_bumped smallImage fun _ => 0)
    (Nat.le_trans (Nat.le_add_right _ _) (image_room smallImage _))
    (List.replicate 13 ⟨0x100000, 0x1000, MULTIBOOT_MEMORY_AVAILABLE⟩)
  refine ⟨t, hfetch, ?_, ?_⟩
  · rw [htable.fits_iff]
    decide
  · rw [htable.inTable_iff (Nat.le_refl 12)]
    decide

end sakana_os
