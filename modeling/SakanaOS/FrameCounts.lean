-- The count of the frames in use, against the bitmap. The bitmap has one frame more
-- than the count knows, so the two agree as long as nobody frees the topmost frame.
import SakanaOS.Pmm

open byte_memory bitmaps runs

namespace sakana_os

/-- The frame that the bitmap has and `num_memory_frames` leaves out. -/
def TOP_FRAME : Nat := 0xFFFFF

/-! ## The bitmap -/

theorem test_frame_eq (s : Mm) (i : Nat) :
    pmm_test_frame s i = bit s.kheap.mem s.pmm.bitmap i := rfl

theorem set_frame_clear {s : Mm} {i : Nat} (h : pmm_test_frame s i = false) :
    pmm_set_frame s i =
      { kheap := { s.kheap with mem := setBit s.kheap.mem s.pmm.bitmap i }
        pmm := { s.pmm with
          num_memory_frames_used := add32 s.pmm.num_memory_frames_used 1 } } := by
  unfold pmm_set_frame setBit
  rw [h]
  simp only [PMM_FRAMES_PER_BITMAP_BYTE, Bool.false_eq_true, if_false]

theorem unset_frame_set {s : Mm} {i : Nat} (h : pmm_test_frame s i = true) :
    pmm_unset_frame s i =
      { kheap := { s.kheap with mem := clearBit s.kheap.mem s.pmm.bitmap i }
        pmm := { s.pmm with
          num_memory_frames_used := sub32 s.pmm.num_memory_frames_used 1 } } := by
  unfold pmm_unset_frame clearBit
  rw [h]
  simp only [PMM_FRAMES_PER_BITMAP_BYTE, not_true_eq_false, if_false]

theorem set_frame_same {s : Mm} {i : Nat} (h : pmm_test_frame s i = true) :
    pmm_set_frame s i = s := if_pos h

theorem unset_frame_same {s : Mm} {i : Nat} (h : pmm_test_frame s i = false) :
    pmm_unset_frame s i = s := if_pos (by simp [h])

theorem test_set_frame (s : Mm) (i j : Nat) :
    pmm_test_frame (pmm_set_frame s i) j = (decide (i = j) || pmm_test_frame s j) := by
  cases h : pmm_test_frame s i with
  | false =>
    rw [set_frame_clear h, test_frame_eq, test_frame_eq]
    exact bit_setBit s.kheap.mem s.pmm.bitmap i j
  | true =>
    rw [set_frame_same h]
    by_cases hij : i = j
    · rw [← hij, h, Bool.or_true]
    · rw [decide_eq_false hij, Bool.false_or]

theorem test_unset_frame (s : Mm) (i j : Nat) :
    pmm_test_frame (pmm_unset_frame s i) j = (!decide (i = j) && pmm_test_frame s j) := by
  cases h : pmm_test_frame s i with
  | true =>
    rw [unset_frame_set h, test_frame_eq, test_frame_eq]
    exact bit_clearBit s.kheap.mem s.pmm.bitmap i j
  | false =>
    rw [unset_frame_same h]
    by_cases hij : i = j
    · rw [← hij, h, Bool.and_false]
    · rw [decide_eq_false hij, Bool.not_false, Bool.true_and]

theorem address_to_index_lt {a : Nat} (h : a < 4294967296) : pmm_address_to_index a < 0x100000 := by
  unfold pmm_address_to_index paging_frame_index
  rw [Nat.shiftRight_eq_div_pow]
  omega

/-! ## The invariant -/

/-- The count of the frames in use is one less than the number of bits that are set. -/
structure FramesCounted (s : Mm) : Prop where
  frames : s.pmm.num_memory_frames = TOP_FRAME
  used_lt : s.pmm.num_memory_frames_used < 4294967296
  used : add32 s.pmm.num_memory_frames_used 1 = countSet s.kheap.mem s.pmm.bitmap 0x100000

/-- The count of the frames in use is the number of frames whose bit is set, it is
not larger than the number of frames, and the others are what a search can find. -/
structure FramesExact (s : Mm) : Prop where
  used : s.pmm.num_memory_frames_used =
    Nat.count (fun i => pmm_test_frame s i = true) s.pmm.num_memory_frames
  used_le : s.pmm.num_memory_frames_used ≤ s.pmm.num_memory_frames
  free : s.pmm.num_memory_frames - s.pmm.num_memory_frames_used =
    Nat.count (fun i => pmm_find_free_loop s (s.pmm.num_memory_frames - i) i = some i)
      s.pmm.num_memory_frames

theorem counted_set_frame {s : Mm} (h : FramesCounted s) {i : Nat} (hi : i < 0x100000) :
    FramesCounted (pmm_set_frame s i) := by
  cases hbit : pmm_test_frame s i with
  | true =>
    rw [set_frame_same hbit]
    exact h
  | false =>
    have hcount := countSet_setBit 0x100000 hbit
    have hle := countSet_le (setBit s.kheap.mem s.pmm.bitmap i) s.pmm.bitmap 0x100000
    have hused := h.used
    rw [if_pos hi] at hcount
    rw [set_frame_clear hbit]
    refine ⟨h.frames, add32_lt _ _, ?_⟩
    simp only
    rw [hcount, ← hused]
    unfold add32 at hused ⊢
    omega

theorem counted_unset_frame {s : Mm} (h : FramesCounted s) {i : Nat} (hi : i < 0x100000) :
    FramesCounted (pmm_unset_frame s i) := by
  cases hbit : pmm_test_frame s i with
  | false =>
    rw [unset_frame_same hbit]
    exact h
  | true =>
    have hcount := countSet_clearBit 0x100000 hbit
    have hle := countSet_le s.kheap.mem s.pmm.bitmap 0x100000
    have hused := h.used
    have hlt := h.used_lt
    rw [if_pos hi] at hcount
    rw [unset_frame_set hbit]
    refine ⟨h.frames, sub32_lt _ _, ?_⟩
    simp only
    unfold add32 sub32 at *
    omega

theorem find_free_ge {s : Mm} {turns i j : Nat} (h : pmm_find_free_loop s turns i = some j) :
    i ≤ j := by
  induction turns generalizing i with
  | zero => cases h
  | succ turns ih =>
    rw [pmm_find_free_loop] at h
    split at h
    · exact Nat.le_of_eq (Option.some.inj h)
    · have := ih h
      omega

/-- A search from a frame finds that frame when it is free. -/
theorem find_free_here (s : Mm) {i n : Nat} (hi : i < n) :
    pmm_find_free_loop s (n - i) i = some i ↔ pmm_test_frame s i = false := by
  obtain ⟨turns, hturns⟩ : ∃ turns, n - i = turns + 1 := ⟨n - i - 1, by omega⟩
  rw [hturns, pmm_find_free_loop]
  cases h : pmm_test_frame s i with
  | false => simp
  | true =>
    simp only [not_true_eq_false, if_false, Bool.true_eq_false, iff_false]
    intro hfind
    exact absurd (find_free_ge hfind) (by omega)

/-- The count is exact if and only if the topmost frame is marked as in use. -/
theorem exact_iff_top_in_use {s : Mm} (h : FramesCounted s) :
    FramesExact s ↔ pmm_test_frame s TOP_FRAME = true := by
  have hused := h.used
  have hlt := h.used_lt
  have hcount : countSet s.kheap.mem s.pmm.bitmap 0x100000 =
      countSet s.kheap.mem s.pmm.bitmap 0xFFFFF +
        if pmm_test_frame s TOP_FRAME = true then 1 else 0 :=
    Nat.count_succ _ _
  have hle := countSet_le s.kheap.mem s.pmm.bitmap 0xFFFFF
  unfold add32 at hused
  constructor
  · intro hexact
    have heq : s.pmm.num_memory_frames_used = countSet s.kheap.mem s.pmm.bitmap 0xFFFFF := by
      rw [hexact.used, h.frames]
      rfl
    by_contra htop
    rw [if_neg htop] at hcount
    omega
  · intro htop
    rw [if_pos htop] at hcount
    have heq : s.pmm.num_memory_frames_used = countSet s.kheap.mem s.pmm.bitmap 0xFFFFF := by
      omega
    refine ⟨?_, ?_, ?_⟩
    · rw [heq, h.frames]
      rfl
    · rw [heq, h.frames]
      exact hle
    · rw [h.frames, heq]
      have hclear := count_clear s.kheap.mem s.pmm.bitmap 0xFFFFF
      rw [TOP_FRAME, ← hclear]
      exact count_congr fun i hi => (find_free_here s hi).symm

/-! ## The start -/

/-- When the bitmap is there, all frames are in use and counted. -/
theorem init_bitmap_counted {s t : Mm} {mmap : List MmapEntry}
    (h : pmm_init_bitmap s mmap = .done () t) :
    FramesCounted t ∧ ∀ i, i < 0x100000 → pmm_test_frame t i = true := by
  unfold pmm_init_bitmap at h
  obtain ⟨_, s₁, _, h⟩ := Outcome.andThen_eq_done.mp h
  obtain ⟨bitmap, s₂, halloc, h⟩ := Outcome.andThen_eq_done.mp h
  obtain ⟨k, _, hs₂⟩ := Outcome.lift_eq_done.mp halloc
  have hframes : PMM_PAS_SIZE / PMM_FRAME_SIZE = 0xFFFFF := by decide
  have hsize : div_up 0xFFFFF PMM_FRAMES_PER_BITMAP_BYTE = 131072 := by decide +kernel
  by_cases hnull : bitmap = NULL
  · simp only [hnull, if_true] at h
    cases h
  · simp only [hnull, if_false, Outcome.done.injEq, true_and] at h
    subst h hs₂
    simp only [hframes, hsize, Mm.setMem]
    have hset : ∀ i, i < 0x100000 → bit (fill k.mem bitmap 0xFF 131072) bitmap i = true :=
      fun i hi => bit_fill _ _ _ _ (by omega)
    have hcount : countSet (fill k.mem bitmap 0xFF 131072) bitmap 0x100000 = 0x100000 :=
      Nat.count_of_forall fun i hi => hset i hi
    have hlt : 0xFFFFF < 4294967296 := by decide
    refine ⟨⟨by rw [TOP_FRAME], hlt, ?_⟩, fun i hi => ?_⟩
    · simp only [hcount]
      exact add32_eq (by decide)
    · simp only [test_frame_eq]
      exact hset i hi

theorem counted_unset_frames (turns frame : Nat) {s : Mm} (h : FramesCounted s)
    (hle : frame + turns ≤ 0x100000) : FramesCounted (pmm_unset_frames turns frame s) := by
  induction turns generalizing frame s with
  | zero => exact h
  | succ turns ih => exact ih (frame + 1) (counted_unset_frame h (by omega)) (by omega)

theorem test_unset_frames (turns frame i : Nat) (s : Mm) :
    pmm_test_frame (pmm_unset_frames turns frame s) i =
      (!decide (frame ≤ i ∧ i < frame + turns) && pmm_test_frame s i) := by
  induction turns generalizing frame s with
  | zero =>
    rw [decide_eq_false (by omega), Bool.not_false, Bool.true_and]
    rfl
  | succ turns ih =>
    rw [pmm_unset_frames, ih, test_unset_frame, ← Bool.and_assoc]
    congr 1
    by_cases hi : frame = i
    · have hin : frame ≤ i ∧ i < frame + (turns + 1) := by omega
      rw [decide_eq_true hi, decide_eq_true hin, Bool.not_true, Bool.and_false]
    · rw [decide_eq_false hi, Bool.not_false, Bool.and_true]
      congr 2
      apply propext
      omega

/-- The region, as it stands in the table, does not reach into the topmost frame when
it is available. -/
def RegionBelowTop (s : Mm) (i : Nat) : Prop :=
  region_type s.kheap.mem (pmm_region s.pmm i) = MULTIBOOT_MEMORY_AVAILABLE →
    region_start_frame s i ≤ region_end_frame s i → region_end_frame s i ≠ TOP_FRAME

theorem region_frames_lt (s : Mm) (i : Nat) :
    region_start_frame s i < 0x100000 ∧ region_end_frame s i < 0x100000 :=
  ⟨address_to_index_lt (load32_lt _ _), address_to_index_lt (sub32_lt _ _)⟩

theorem counted_init_region {s : Mm} (h : FramesCounted s) (i : Nat) :
    FramesCounted (pmm_init_region s i) := by
  obtain ⟨h1, h2⟩ := region_frames_lt s i
  unfold pmm_init_region
  split
  · exact counted_unset_frames _ _ h (by omega)
  · exact h

theorem top_init_region {s : Mm} {i : Nat} (h : RegionBelowTop s i) :
    pmm_test_frame (pmm_init_region s i) TOP_FRAME = pmm_test_frame s TOP_FRAME := by
  obtain ⟨h1, h2⟩ := region_frames_lt s i
  unfold pmm_init_region
  split
  · rename_i hav
    have hne := h hav
    unfold TOP_FRAME at hne ⊢
    rw [test_unset_frames, decide_eq_false (by omega), Bool.not_false, Bool.true_and]
  · rfl

/-- No available region of the memory map reaches into the topmost frame, whenever the
loop of `pmm_init` comes to it. -/
def MapBelowTop (s : Mm) (mmap : List MmapEntry) : Prop :=
  ∀ t, pmm_init_bitmap s mmap = .done () t →
    Along (fun s i => some (pmm_init_region s i)) RegionBelowTop t (List.range t.pmm.num_regions)

theorem init_counted {s t : Mm} {mmap : List MmapEntry} (h : pmm_init s mmap = .done () t) :
    FramesCounted t := by
  obtain ⟨_, s₁, hinit, h⟩ := Outcome.andThen_eq_done.mp h
  cases h
  refine run_keeps (motive := FramesCounted) ?_ (init_bitmap_counted hinit).1 (run_foldl _ _ _)
  rintro u i v hu hstep
  cases hstep
  exact counted_init_region hu i

theorem init_top {s t : Mm} {mmap : List MmapEntry} (h : pmm_init s mmap = .done () t)
    (hmap : MapBelowTop s mmap) : pmm_test_frame t TOP_FRAME = true := by
  obtain ⟨_, s₁, hinit, h⟩ := Outcome.andThen_eq_done.mp h
  cases h
  refine run_keeps_along (motive := fun u => pmm_test_frame u TOP_FRAME = true) ?_
    ((init_bitmap_counted hinit).2 _ (by decide)) (hmap _ hinit) (run_foldl _ _ _)
  rintro u i v hu hcond hstep
  cases hstep
  rw [top_init_region hcond]
  exact hu

/-! ## Runs -/

/-- A later call of the allocator, with any address. -/
inductive FrameCall where
  | reserved (frame_addr : UInt32)
  | available (frame_addr : UInt32)

def frame_step (s : Mm) : FrameCall → Option Mm
  | .reserved frame_addr => some (pmm_mark_frame_reserved s frame_addr.toNat)
  | .available frame_addr => some (pmm_mark_frame_available s frame_addr.toNat)

/-- The call does not free the topmost frame. -/
def CallBelowTop (_ : Mm) : FrameCall → Prop
  | .reserved _ => True
  | .available frame_addr => frame_addr.toNat < 0xFFFFF000

theorem counted_step {s t : Mm} (call : FrameCall) (h : FramesCounted s)
    (hstep : frame_step s call = some t) : FramesCounted t := by
  cases call with
  | reserved a =>
    cases hstep
    exact counted_set_frame h (address_to_index_lt a.toNat_lt)
  | available a =>
    cases hstep
    exact counted_unset_frame h (address_to_index_lt a.toNat_lt)

theorem top_step {s t : Mm} {call : FrameCall} (h : pmm_test_frame s TOP_FRAME = true)
    (hcond : CallBelowTop s call) (hstep : frame_step s call = some t) :
    pmm_test_frame t TOP_FRAME = true := by
  cases call with
  | reserved a =>
    cases hstep
    unfold pmm_mark_frame_reserved
    rw [test_set_frame, h, Bool.or_true]
  | available a =>
    cases hstep
    have hne : pmm_address_to_index a.toNat ≠ TOP_FRAME := by
      unfold CallBelowTop at hcond
      unfold pmm_address_to_index paging_frame_index TOP_FRAME
      rw [Nat.shiftRight_eq_div_pow]
      omega
    unfold pmm_mark_frame_available
    rw [test_unset_frame, h, decide_eq_false hne]
    rfl

/-- From every memory map that is accepted, in which no available region reaches into
the topmost frame, and after every sequence of calls that do not free that frame, the
count of the frames in use is exact. -/
theorem frames_are_counted_exactly {s t : Mm} {mmap : List MmapEntry}
    (hinit : pmm_init s mmap = .done () t) (hmap : MapBelowTop s mmap) {calls : List FrameCall}
    {u : Mm} (hrun : run frame_step t calls = some u)
    (hcalls : Along frame_step CallBelowTop t calls) : FramesExact u := by
  have hcounted : FramesCounted u :=
    run_keeps (motive := FramesCounted) (fun _ call _ h hstep => counted_step call h hstep)
      (init_counted hinit) hrun
  have htop : pmm_test_frame u TOP_FRAME = true :=
    run_keeps_along (motive := fun v => pmm_test_frame v TOP_FRAME = true)
      (fun _ _ _ h hcond hstep => top_step h hcond hstep) (init_top hinit hmap) hcalls hrun
  exact (exact_iff_top_in_use hcounted).mpr htop

/-! ## A start that returns -/

/-- The loop over the memory map changes the memory and the size only. -/
theorem fetch_loop_eq (mmap : List MmapEntry) (i : Nat) (s : Mm) :
    ∃ m size, pmm_fetch_loop mmap i s =
      ⟨{ s.kheap with mem := m }, { s.pmm with memory_size := size }⟩ := by
  induction mmap generalizing i s with
  | nil => exact ⟨_, _, rfl⟩
  | cons e rest ih =>
    obtain ⟨m, size, h⟩ := ih (i + 1) _
    exact ⟨m, size, h⟩

theorem Bumped.setMem {k : Kheap} {grants : List Grant} (h : Bumped ⟨k, grants⟩) (m : Mem) :
    Bumped ⟨{ k with mem := m }, grants⟩ :=
  ⟨⟨h.apart, h.inside, h.aligned, h.account⟩, h.disabled, h.below, h.start_pos, h.stop_lt,
    h.free_le⟩

/-- The allocator when its region table lies at `regions`, before the table is filled. -/
def tableStart (s : Mm) (mmap : List MmapEntry) (regions : Nat) : Mm where
  kheap := { s.kheap with
    kheap_placement_memory_head := s.kheap.kheap_placement_memory_head + 144
    kheap_placement_memory_free_memory := s.kheap.kheap_placement_memory_free_memory - 144 }
  pmm := { s.pmm with
    regions := regions
    num_regions := mmap.length
    region_size := SIZEOF_REGION }

/-- With room for it, the region table starts at the head of the area. -/
theorem fetch_regions_returns {s : Mm} {grants : List Grant} (h : Bumped ⟨s.kheap, grants⟩)
    (hroom : 144 ≤ s.kheap.kheap_placement_memory_free_memory) (mmap : List MmapEntry) :
    ∃ m size, pmm_fetch_loop mmap 0 (tableStart s mmap s.kheap.kheap_placement_memory_head) =
        ⟨{ (tableStart s mmap s.kheap.kheap_placement_memory_head).kheap with mem := m },
          { (tableStart s mmap s.kheap.kheap_placement_memory_head).pmm with
            memory_size := size }⟩ ∧
      pmm_fetch_memory_regions s mmap = .done ()
        ⟨{ (tableStart s mmap s.kheap.kheap_placement_memory_head).kheap with
            mem := array_bubble_sort m s.kheap.kheap_placement_memory_head mmap.length
              SIZEOF_REGION pmm_memory_region_compare },
          { (tableStart s mmap s.kheap.kheap_placement_memory_head).pmm with
            memory_size := size }⟩ := by
  obtain ⟨m, size, hloop⟩ :=
    fetch_loop_eq mmap 0 (tableStart s mmap s.kheap.kheap_placement_memory_head)
  have hpos := h.start_pos
  have haccount := h.account
  have hfree := h.free_le
  have hne : s.kheap.kheap_placement_memory_head ≠ NULL := by
    show _ ≠ 0
    simp only at hpos haccount hfree
    omega
  have htable : mul32 SIZEOF_REGION SIZEOF_REGION = 144 := by decide +kernel
  refine ⟨m, size, hloop, ?_⟩
  unfold pmm_fetch_memory_regions
  simp only [htable, (kmalloc_placement h 144 hroom).1, Outcome.done_lift,
    Outcome.done_andThen, hne, if_false]
  unfold tableStart at hloop ⊢
  simp only [hloop, Mm.setMem]

/-- The allocator with its tables at the head of the area: the regions, and behind them
the bitmap in which all frames are in use. -/
def bitmapStart (s : Mm) (mmap : List MmapEntry) (m : Mem) (size : Nat) : Mm where
  kheap := { s.kheap with
    kheap_placement_memory_head := s.kheap.kheap_placement_memory_head + 144 + 131072
    kheap_placement_memory_free_memory :=
      s.kheap.kheap_placement_memory_free_memory - 144 - 131072
    mem := fill (array_bubble_sort m s.kheap.kheap_placement_memory_head mmap.length
      SIZEOF_REGION pmm_memory_region_compare) (s.kheap.kheap_placement_memory_head + 144)
      0xFF 131072 }
  pmm := {
    regions := s.kheap.kheap_placement_memory_head
    num_regions := mmap.length
    region_size := SIZEOF_REGION
    memory_size := size
    num_memory_frames := TOP_FRAME
    num_memory_frames_used := TOP_FRAME
    bitmap := s.kheap.kheap_placement_memory_head + 144
    bitmap_size := 131072 }

theorem init_bitmap_returns {s : Mm} {grants : List Grant} (h : Bumped ⟨s.kheap, grants⟩)
    (hroom : 144 + 131072 ≤ s.kheap.kheap_placement_memory_free_memory)
    (mmap : List MmapEntry) :
    ∃ m size, pmm_init_bitmap s mmap = .done () (bitmapStart s mmap m size) ∧
      (pmm_fetch_loop mmap 0 (tableStart { s with pmm := { s.pmm with memory_size := 0 } } mmap
        s.kheap.kheap_placement_memory_head)).kheap.mem = m ∧
      Bumped ⟨(bitmapStart s mmap m size).kheap,
        ⟨s.kheap.kheap_placement_memory_head + 144, 131072, MALLOC_FLAG_NULL⟩ ::
          ⟨s.kheap.kheap_placement_memory_head, 144, MALLOC_FLAG_NULL⟩ :: grants⟩ := by
  obtain ⟨m, size, hloop, hfetch⟩ := fetch_regions_returns
    (s := { s with pmm := { s.pmm with memory_size := 0 } }) h (by simp only; omega) mmap
  have h₁ := (kmalloc_placement h 144 (by omega)).2.setMem
    (array_bubble_sort m s.kheap.kheap_placement_memory_head mmap.length
      SIZEOF_REGION pmm_memory_region_compare)
  obtain ⟨halloc, h₂⟩ := kmalloc_placement h₁ 131072 (by simp only; omega)
  have hpos := h.start_pos
  have haccount := h.account
  have hfree := h.free_le
  have hne : s.kheap.kheap_placement_memory_head + 144 ≠ NULL := by
    show _ ≠ 0
    omega
  have hframes : PMM_PAS_SIZE / PMM_FRAME_SIZE = TOP_FRAME := by decide
  have hsize : div_up TOP_FRAME PMM_FRAMES_PER_BITMAP_BYTE = 131072 := by decide +kernel
  refine ⟨m, size, ?_, ?_, h₂.setMem _⟩
  · unfold pmm_init_bitmap tableStart bitmapStart at *
    simp only at hfetch halloc
    simp only [hfetch, Outcome.done_andThen, hframes, hsize, halloc, Outcome.done_lift, hne,
      if_false, Mm.setMem]
  · rw [hloop]

/-! ## A small machine -/

/-- A memory map with one available region. -/
def oneRegion (base length : Nat) : List MmapEntry := [⟨base, length, MULTIBOOT_MEMORY_AVAILABLE⟩]

/-- A machine whose log has taken the first bytes of the area. -/
def smallMachine : Mm where
  kheap := kheapTaken 0xC0200000 16920 fun _ => 0
  pmm := ⟨NULL, 0, 0, 0, 0, 0, NULL, 0⟩

section

variable {base length : Nat}

/-- The tables of a machine with one region. -/
theorem small_machine_starts (hbase : base < 4294967296) (hlength : length < 4294967296) :
    ∃ t, pmm_init_bitmap smallMachine (oneRegion base length) = .done () t ∧
      t.pmm.num_regions = 1 ∧ region_start_frame t 0 = base / 4096 ∧
      region_end_frame t 0 = sub32 (add32 base length) 1 / 4096 ∧
      region_type t.kheap.mem (pmm_region t.pmm 0) = MULTIBOOT_MEMORY_AVAILABLE ∧
      t.pmm.bitmap = 0xC02042A8 ∧ ∀ x, 0xC0300000 ≤ x → t.kheap.mem x = 0 := by
  have hpos : 0 < 0xC0200000 := by decide
  have hstop : 0xC0200000 + KHEAP_PLACEMENT_SIZE < 4294967296 := by decide
  have hroom : 144 + 131072 ≤ KHEAP_PLACEMENT_SIZE - 16920 := by decide
  obtain ⟨m, size, hinit, hm, -⟩ :=
    init_bitmap_returns (s := smallMachine) (bumped_taken hpos hstop (by decide)) hroom
      (oneRegion base length)
  -- One region is sorted as it stands, and the bitmap lies behind it.
  have hsort : ∀ m, array_bubble_sort m 0xC0204218 1 SIZEOF_REGION pmm_memory_region_compare = m :=
    fun m => by rw [array_bubble_sort, sub32_eq (by decide) (by decide)]; rfl
  have hbyte : ∀ x, x < 0xC02042A8 ∨ 0xC02242A8 ≤ x →
      (bitmapStart smallMachine (oneRegion base length) m size).kheap.mem x = m x := by
    intro x hx
    unfold bitmapStart smallMachine oneRegion kheapTaken kheapStart
    simp only [List.length_singleton, hsort]
    exact fill_frame _ _ _ _ _ hx
  have hword : ∀ a, a + 4 ≤ 0xC02042A8 →
      load32 (bitmapStart smallMachine (oneRegion base length) m size).kheap.mem a =
        load32 m a :=
    fun a ha => load32_congr fun x _ hx => hbyte x (Or.inl (by omega))
  have hregion : add32 0xC0204218 (mul32 0 SIZEOF_REGION) = 0xC0204218 := by decide +kernel
  have hm' : m = store32 (store32 (store32 (fun _ => 0) 0xC0204218 base) (0xC0204218 + 4) length)
      (0xC0204218 + 8) MULTIBOOT_MEMORY_AVAILABLE := by
    rw [← hm]
    unfold tableStart smallMachine oneRegion kheapTaken kheapStart
    simp only [pmm_fetch_loop, pmm_region, hregion, Nat.mod_eq_of_lt hbase,
      Nat.mod_eq_of_lt hlength]
  have hfirst : pmm_region (bitmapStart smallMachine (oneRegion base length) m size).pmm 0 =
      0xC0204218 := hregion
  refine ⟨_, hinit, rfl, ?_, ?_, ?_, rfl, ?_⟩
  · unfold region_start_frame region_base pmm_address_to_index paging_frame_index
    rw [hfirst, hword _ (by decide), hm', load32_store32_ne _ _ (by decide),
      load32_store32_ne _ _ (by decide), load32_store32 _ _ hbase, Nat.shiftRight_eq_div_pow]
  · unfold region_end_frame region_base region_length pmm_address_to_index paging_frame_index
    simp only
    rw [hfirst, hword _ (by decide), hword _ (by decide), hm', load32_store32_ne _ _ (by decide),
      load32_store32_ne _ _ (by decide), load32_store32 _ _ hbase,
      load32_store32_ne _ _ (by decide), load32_store32 _ _ hlength, Nat.shiftRight_eq_div_pow]
  · unfold region_type
    rw [hfirst, hword _ (by decide), hm', load32_store32 _ _ (by decide)]
  · intro x hx
    rw [hbyte x (by omega), hm', store32_frame _ _ (by omega), store32_frame _ _ (by omega),
      store32_frame _ _ (by omega)]

/-- After the boot of a machine with one region, its frames are free and all others are
in use, in a bitmap at the start of the area. -/
theorem small_machine_boots (hbase : base < 4294967296) (hlength : length < 4294967296) :
    ∃ t, pmm_init smallMachine (oneRegion base length) = .done () (pmm_init_region t 0) ∧
      pmm_init_bitmap smallMachine (oneRegion base length) = .done () t ∧
      region_end_frame t 0 = sub32 (add32 base length) 1 / 4096 ∧ t.pmm.num_regions = 1 ∧
      (∀ f, f < 0x100000 → pmm_test_frame (pmm_init_region t 0) f =
        !decide (base / 4096 ≤ f ∧ f ≤ sub32 (add32 base length) 1 / 4096)) ∧
      t.pmm.bitmap = 0xC02042A8 ∧ ∀ x, 0xC0300000 ≤ x → t.kheap.mem x = 0 := by
  obtain ⟨t, hinit, hregions, hstart, hend, htype, hbitmap, hzero⟩ :=
    small_machine_starts hbase hlength
  refine ⟨t, ?_, hinit, hend, hregions, fun f hf => ?_, hbitmap, hzero⟩
  · unfold pmm_init
    rw [hinit]
    simp only [Outcome.done_andThen, hregions]
    rfl
  · unfold pmm_init_region
    rw [if_pos htype, hstart, hend]
    simp only
    rw [test_unset_frames, (init_bitmap_counted hinit).2 f hf, Bool.and_true]
    congr 2
    apply propext
    omega

end

/-- A frame is reserved twice, and freed. -/
def someCalls : List FrameCall := [.reserved 0x100000, .reserved 0x100FFF, .available 0x1FF000]

theorem frames_of_a_small_machine :
    ∃ t u, pmm_init smallMachine (oneRegion 0x100000 0x100000) = .done () t ∧
      run frame_step t someCalls = some u ∧ FramesExact u := by
  have hlt : 0x100000 < 4294967296 := by decide
  obtain ⟨t, hpmm, hinit, hend, hregions, -⟩ := small_machine_boots hlt hlt
  have hmap : MapBelowTop smallMachine (oneRegion 0x100000 0x100000) := by
    intro s hs
    obtain ⟨-, rfl⟩ := Outcome.done.inj (hinit.symm.trans hs)
    rw [hregions]
    refine ⟨?_, fun _ _ => trivial⟩
    intro _ _
    rw [hend]
    decide +kernel
  have hbelow : (0x1FF000 : UInt32).toNat < 0xFFFFF000 := by decide
  have hrun : ∃ u, run frame_step (pmm_init_region t 0) someCalls = some u := ⟨_, rfl⟩
  obtain ⟨u, hu⟩ := hrun
  refine ⟨_, u, hpmm, hu, frames_are_counted_exactly hpmm hmap hu ?_⟩
  exact ⟨trivial, fun _ _ => ⟨trivial, fun _ _ => ⟨hbelow, fun _ _ => trivial⟩⟩⟩

/-- After the topmost frame was freed the count is wrong. -/
theorem the_topmost_frame_is_not_counted :
    ∃ t u, pmm_init smallMachine (oneRegion 0x100000 0x100000) = .done () t ∧
      run frame_step t [.available 0xFFFFF000] = some u ∧ ¬ FramesExact u := by
  have hlt : 0x100000 < 4294967296 := by decide
  obtain ⟨t, hpmm, -, -, -, -⟩ := small_machine_boots hlt hlt
  refine ⟨_, _, hpmm, rfl, ?_⟩
  intro hexact
  have hcounted := counted_step (.available 0xFFFFF000) (init_counted hpmm) rfl
  have htop := (exact_iff_top_in_use hcounted).mp hexact
  have hindex : pmm_address_to_index (0xFFFFF000 : UInt32).toNat = TOP_FRAME := by decide
  unfold pmm_mark_frame_available at htop
  rw [hindex, test_unset_frame] at htop
  simp at htop

end sakana_os
