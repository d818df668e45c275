-- The kernel memory: its boot, and the calls of `vmm_map_memory`, which share no frame as long
-- as they succeed.
import SakanaOS.Ownership
import SakanaOS.VmmBoot

open byte_memory bitmaps bit_fields runs frame_maps

namespace sakana_os

/-! ## The boot of the frame allocator -/

/-- A `kmalloc` that does not fit into the placement area. -/
theorem kmalloc_refused {k : Kheap} {grants : List Grant} (h : Bumped ⟨k, grants⟩) (size : Nat)
    (hlt : size < 4294967296) (hsize : k.kheap_placement_memory_free_memory < size) :
    kmalloc k size = .done NULL k := by
  have hpad : placement_padding k MALLOC_FLAG_NULL = 0 := if_neg (by simp [MALLOC_FLAG_NULL])
  refine kmalloc_placement_refuses h (r := ⟨size, MALLOC_FLAG_NULL, hlt⟩) ?_ (Or.inl ?_)
  · unfold Fits
    simp only [hpad]
    omega
  · simp only [hpad]
    exact hlt

/-- A boot without room for the tables of the frame allocator stops. -/
theorem init_bitmap_room {s t : Mm} {grants : List Grant} (h : Bumped ⟨s.kheap, grants⟩)
    {mmap : List MmapEntry} (heq : pmm_init_bitmap s mmap = .done () t) :
    144 + 131072 ≤ s.kheap.kheap_placement_memory_free_memory := by
  have htable : mul32 SIZEOF_REGION SIZEOF_REGION = 144 := by decide +kernel
  have hsize : div_up (PMM_PAS_SIZE / PMM_FRAME_SIZE) PMM_FRAMES_PER_BITMAP_BYTE = 131072 := by
    decide +kernel
  by_contra hroom
  unfold pmm_init_bitmap at heq
  obtain ⟨_, s₁, hfetch, heq⟩ := Outcome.andThen_eq_done.mp heq
  by_cases hfirst : 144 ≤ s.kheap.kheap_placement_memory_free_memory
  · obtain ⟨m, size, -, hdone⟩ := fetch_regions_returns
      (s := { s with pmm := { s.pmm with memory_size := 0 } }) h hfirst mmap
    cases hdone.symm.trans hfetch
    have h₁ := (kmalloc_placement h 144 hfirst).2.setMem
      (array_bubble_sort m s.kheap.kheap_placement_memory_head mmap.length SIZEOF_REGION
        pmm_memory_region_compare)
    have hnone := kmalloc_refused h₁ 131072 (by decide) (by simp only; omega)
    unfold tableStart at heq
    simp only [hsize, hnone, Outcome.done_lift, Outcome.done_andThen, if_true] at heq
    cases heq
  · have hnone := kmalloc_refused h 144 (by decide) (by omega)
    unfold pmm_fetch_memory_regions at hfetch
    simp only [htable, hnone, Outcome.done_lift, Outcome.done_andThen, if_true] at hfetch
    cases hfetch

theorem Marked.trans {s t u : Mm} (h : Marked s t) (h' : Marked t u) : Marked s u := by
  refine ⟨?_, h'.bitmap.trans h.bitmap, h'.frames.trans h.frames, fun x hx => ?_⟩
  · rw [h'.kheap, h.kheap]
  · rw [h'.outside x (by rwa [h.bitmap]), h.outside x hx]

theorem marked_unset_frames (turns frame : Nat) (s : Mm) (hle : frame + turns ≤ 0x100000) :
    Marked s (pmm_unset_frames turns frame s) := by
  induction turns generalizing frame s with
  | zero => exact Marked.refl s
  | succ turns ih => exact (marked_unset s (by omega)).trans (ih (frame + 1) _ (by omega))

theorem marked_init_region (s : Mm) (i : Nat) : Marked s (pmm_init_region s i) := by
  obtain ⟨h1, h2⟩ := region_frames_lt s i
  unfold pmm_init_region
  split
  · exact marked_unset_frames _ _ _ (by omega)
  · exact Marked.refl s

/-- What `pmm_init` leaves: a bitmap in the placement area, in a range of its own. -/
theorem init_granted {s t : Mm} {grants : List Grant} (h : Bumped ⟨s.kheap, grants⟩)
    {mmap : List MmapEntry} (heq : pmm_init s mmap = .done () t) :
    t.pmm.num_memory_frames = TOP_FRAME ∧
      t.kheap.kheap_placement_memory = s.kheap.kheap_placement_memory ∧
      t.kheap.kheap_placement_memory_free_memory =
        s.kheap.kheap_placement_memory_free_memory - 144 - 131072 ∧
      ∃ grants', Bumped ⟨t.kheap, grants'⟩ ∧
        ⟨t.pmm.bitmap, 131072, MALLOC_FLAG_NULL⟩ ∈ grants' := by
  have hframes := (init_counted heq).frames
  obtain ⟨_, s₁, hinit, heq⟩ := Outcome.andThen_eq_done.mp heq
  obtain ⟨m, size, hdone, -, hbumped⟩ := init_bitmap_returns h (init_bitmap_room h hinit) mmap
  cases hdone.symm.trans hinit
  cases heq
  have hmarked : Marked (bitmapStart s mmap m size)
      ((List.range (bitmapStart s mmap m size).pmm.num_regions).foldl pmm_init_region
        (bitmapStart s mmap m size)) :=
    run_keeps (motive := Marked (bitmapStart s mmap m size))
      (fun u i v hu hstep => hu.trans (by cases hstep; exact marked_init_region u i))
      (Marked.refl _) (run_foldl _ _ _)
  have hkheap := hmarked.kheap
  refine ⟨hframes, by rw [hkheap]; rfl, by rw [hkheap]; rfl,
    ⟨s.kheap.kheap_placement_memory_head + 144, 131072,
    MALLOC_FLAG_NULL⟩ :: ⟨s.kheap.kheap_placement_memory_head, 144, MALLOC_FLAG_NULL⟩ :: grants,
    ?_, ?_⟩
  · rw [hkheap]
    exact hbumped.setMem _
  · rw [hmarked.bitmap]
    exact List.mem_cons_self

/-! ## Free frames -/

/-- The frames from `start` on that a search can find, in order. -/
def freeFrames (s : Mm) (start : Nat) : List Nat :=
  (List.range' start (s.pmm.num_memory_frames - start)).filter fun f => !pmm_test_frame s f

theorem find_free_loop_eq (s : Mm) (turns i : Nat) :
    pmm_find_free_loop s turns i =
      ((List.range' i turns).filter fun f => !pmm_test_frame s f).head? := by
  induction turns generalizing i with
  | zero => rfl
  | succ turns ih =>
    rw [pmm_find_free_loop, List.range'_succ, List.filter_cons]
    cases h : pmm_test_frame s i with
    | false => simp
    | true => simp [ih]

theorem mem_freeFrames {s : Mm} {start f : Nat} :
    f ∈ freeFrames s start ↔
      start ≤ f ∧ f < s.pmm.num_memory_frames ∧ pmm_test_frame s f = false := by
  unfold freeFrames
  rw [List.mem_filter, List.mem_range'_1]
  simp only [Bool.not_eq_true']
  constructor
  · rintro ⟨⟨h1, h2⟩, h3⟩
    exact ⟨h1, by omega, h3⟩
  · rintro ⟨h1, h2, h3⟩
    exact ⟨⟨h1, by omega⟩, h3⟩

/-- A search returns the first free frame. -/
theorem find_free_frame_from_eq {s : Mm} (h : s.pmm.num_memory_frames = TOP_FRAME) (pa : Nat) :
    pmm_find_free_frame_from s pa =
      match freeFrames s (pa / 4096) with
      | [] => NULL
      | f :: _ => f * 4096 := by
  unfold pmm_find_free_frame_from
  simp only [find_free_loop_eq, address_to_index_eq]
  have hfold : (List.range' (pa / 4096) (s.pmm.num_memory_frames - pa / 4096)).filter
      (fun f => !pmm_test_frame s f) = freeFrames s (pa / 4096) := rfl
  rw [hfold]
  cases hfree : freeFrames s (pa / 4096) with
  | nil => rfl
  | cons f fs =>
    have hmem : f ∈ freeFrames s (pa / 4096) := by
      rw [hfree]
      exact List.mem_cons_self
    obtain ⟨_, hlt, _⟩ := mem_freeFrames.mp hmem
    rw [h, TOP_FRAME] at hlt
    simp only [List.head?_cons, PMM_FRAME_SIZE, PAGE_SIZE]
    exact mul32_eq (by omega)

/-- An address that a search returns is the one of a free frame. -/
theorem found_frame {s : Mm} (h : s.pmm.num_memory_frames = TOP_FRAME) {pa : Nat}
    (hne : pmm_find_free_frame_from s pa ≠ NULL) :
    ∃ f, pmm_find_free_frame_from s pa = f * 4096 ∧ f < TOP_FRAME ∧ f ≠ 0 ∧
      pmm_test_frame s f = false := by
  have heq := find_free_frame_from_eq h pa
  cases hfree : freeFrames s (pa / 4096) with
  | nil =>
    rw [hfree] at heq
    exact absurd heq hne
  | cons f fs =>
    rw [hfree] at heq
    have hmem : f ∈ freeFrames s (pa / 4096) := by
      rw [hfree]
      exact List.mem_cons_self
    obtain ⟨_, hlt, hbit⟩ := mem_freeFrames.mp hmem
    refine ⟨f, heq, by rwa [h] at hlt, ?_, hbit⟩
    intro hzero
    rw [hzero] at heq
    exact hne heq

/-! ## The calls -/

/-- What one turn keeps, the loop of `vmm_map_memory` keeps. -/
theorem map_pages_keeps {curr va pa turns₀ : Nat} {motive : Mm → Prop}
    (hstep : ∀ s i u, motive s → i < turns₀ → pmm_find_free_frame_from s pa ≠ NULL →
      vmm_map_page s curr curr (add32 va (mul32 i PAGE_SIZE)) (pmm_find_free_frame_from s pa)
        true true = .done () u →
      motive (pmm_mark_frame_reserved u (pmm_find_free_frame_from s pa)))
    (turns : Nat) {i : Nat} {s t : Mm} {mapped : Bool} (h : motive s) (hi : i + turns ≤ turns₀)
    (heq : vmm_map_pages curr va pa turns i s = .done mapped t) : motive t := by
  induction turns generalizing i s with
  | zero =>
    cases heq
    exact h
  | succ turns ih =>
    rw [vmm_map_pages] at heq
    by_cases hnone : pmm_find_free_frame_from s pa = NULL
    · simp only [hnone, if_true] at heq
      cases heq
      exact h
    · simp only [hnone, if_false] at heq
      obtain ⟨_, u, hmap, hrest⟩ := Outcome.andThen_eq_done.mp heq
      exact ih (i := i + 1) (hstep s i u h (by omega) hnone hmap) (by omega) hrest

/-- A call that returns has found its addresses and mapped its range, or it did nothing. -/
theorem map_memory_done {s t : Vmm} {va pa size ret : Nat} {is_kernel is_writeable : Bool}
    (heq : vmm_map_memory s va pa size is_kernel is_writeable = .done ret t) :
    (ret = NULL ∧ t = s ∧ pa = NULL ∧ pmm_find_free_frame s.mm = NULL) ∨
      ∃ va' pa' mm, va' ≠ NULL ∧ pa' ≠ NULL ∧
      (va = NULL →
        vmm_find_free_memory s.curr_page_directory s.mm.kheap.mem size is_kernel = some va') ∧
      (va ≠ NULL → va' = va) ∧
      pa' = (if pa = NULL then pmm_find_free_frame s.mm else pa) ∧
      vmm_map_range s.curr_page_directory s.mm va' pa' size = .done ret mm ∧
      t = { s with mm := mm } := by
  unfold vmm_map_memory at heq
  split at heq
  · cases heq
  · rename_i va' hva
    split at heq
    · cases heq
    · rename_i hva'
      by_cases hpa' : (if pa = NULL then pmm_find_free_frame s.mm else pa) = NULL
      · rw [if_pos hpa'] at heq
        cases heq
        by_cases hpa : pa = NULL
        · rw [if_pos hpa] at hpa'
          exact Or.inl ⟨rfl, rfl, hpa, hpa'⟩
        · rw [if_neg hpa] at hpa'
          exact absurd hpa' hpa
      · rw [if_neg hpa'] at heq
        obtain ⟨mm, hrange, hmm⟩ := Outcome.lift_eq_done.mp heq
        refine Or.inr ⟨va', _, mm, hva', hpa', ?_, ?_, rfl, hrange, hmm.symm⟩
        · intro hnull
          rwa [if_pos hnull] at hva
        · intro hnull
          rw [if_neg hnull] at hva
          exact (Option.some.inj hva).symm

/-- A call with an address, for which there is a frame to start from. -/
theorem map_memory_at {s : Vmm} {va pa pa' : Nat} (size : Nat) (is_kernel is_writeable : Bool)
    (hva : va ≠ NULL) (hpa : (if pa = NULL then pmm_find_free_frame s.mm else pa) = pa')
    (hne : pa' ≠ NULL) :
    vmm_map_memory s va pa size is_kernel is_writeable =
      (vmm_map_range s.curr_page_directory s.mm va pa' size).lift
        fun mm => { s with mm := mm } := by
  unfold vmm_map_memory
  rw [if_neg hva]
  simp only
  rw [if_neg hva, hpa, if_neg hne]

/-! ## No frame is shared -/

/-- The frame of a page that is present. -/
def frameOf (m : Mem) (dir page : Nat) : Option Nat :=
  if page < 0x100000 ∧ pagePresent m dir page then some (pageFrame m dir page) else none

def Taken (s : Mm) (f : Nat) : Prop := f < 0x100000 ∧ pmm_test_frame s f = true

/-- No frame is shared, and the first `n` frames stay with the linear mapping. -/
structure Unshared (s : Mm) (dir n : Nat) : Prop where
  paged : ∃ grants, Paged s dir grants
  exclusive : Exclusive (frameOf s.kheap.mem dir) (Taken s)
  home : ∀ f, f < n → Home (frameOf s.kheap.mem dir) (Taken s) f (KERNEL_PAGE + f)

theorem frameOf_eq {m : Mem} {dir page f : Nat} :
    frameOf m dir page = some f ↔
      page < 0x100000 ∧ pagePresent m dir page ∧ pageFrame m dir page = f := by
  unfold frameOf
  by_cases h : page < 0x100000 ∧ pagePresent m dir page
  · rw [if_pos h, Option.some.injEq]
    simp [h]
  · rw [if_neg h]
    constructor
    · intro hnone
      cases hnone
    · rintro ⟨h1, h2, -⟩
      exact absurd ⟨h1, h2⟩ h

theorem unshared_boot {s t : Mm} {dir n : Nat} (h : BootPart s t dir 0 n) (hn : n ≤ 0x40000) :
    Unshared t dir n := by
  have hframe : ∀ p f, frameOf t.kheap.mem dir p = some f → f < n ∧ p = KERNEL_PAGE + f := by
    intro p f heq
    obtain ⟨hp, hpresent, rfl⟩ := frameOf_eq.mp heq
    by_cases hin : KERNEL_PAGE ≤ p ∧ p < KERNEL_PAGE + n
    · obtain ⟨-, -, hbase⟩ := h.linear.mapped (p - KERNEL_PAGE) (by omega)
      rw [show KERNEL_PAGE + (p - KERNEL_PAGE) = p by omega] at hbase
      omega
    · unfold pagePresent at hpresent
      rw [h.linear.empty p hp (by omega), field_zero] at hpresent
      omega
  have htaken : ∀ f, f < n → Taken t f := fun f hf => ⟨by omega, h.linear.reserved f hf⟩
  refine ⟨h.paged, ⟨?_, ?_⟩, ?_⟩
  · intro p q f hp hq
    rw [(hframe p f hp).2, (hframe q f hq).2]
  · intro p f hp
    exact htaken f (hframe p f hp).1
  · intro f hf
    exact ⟨htaken f hf, fun p hp => (hframe p f hp).2⟩

/-- One turn keeps the frames apart, as it maps a free one. -/
theorem unshared_turn {s u : Mm} {dir n va pa : Nat} (h : Unshared s dir n)
    (hva : va < 4294967296) (hne : pmm_find_free_frame_from s pa ≠ NULL)
    (heq : vmm_map_page s dir dir va (pmm_find_free_frame_from s pa) true true = .done () u) :
    Unshared (pmm_mark_frame_reserved u (pmm_find_free_frame_from s pa)) dir n := by
  obtain ⟨grants, hpaged⟩ := h.paged
  obtain ⟨f, hfound, hlt, -, hbit⟩ := found_frame hpaged.frames hne
  unfold TOP_FRAME at hlt
  rw [hfound] at heq ⊢
  obtain ⟨hmapped, -, hbits⟩ := map_and_reserve hpaged dir hva (by omega) (Or.inr rfl) heq
  have hframe : f * 4096 / 4096 = f := by omega
  rw [hframe] at hbits
  have hfree : ¬ Taken s f := by
    rintro ⟨-, h1⟩
    rw [hbit] at h1
    cases h1
  have hmap : frameOf (pmm_mark_frame_reserved u (f * 4096)).kheap.mem dir =
      mapFrame (frameOf s.kheap.mem dir) (va / 4096) f := by
    funext p
    apply Option.ext
    intro g
    rw [mapFrame_eq, frameOf_eq, frameOf_eq]
    unfold pagePresent pageFrame
    by_cases hp : p < 0x100000
    · rw [hmapped.page p hp]
      by_cases hsame : p = va / 4096
      · rw [if_pos hsame, hframe, mapWord_present, mapWord_base _ _ _ _ (by omega)]
        simp [hsame, eq_comm]
        omega
      · rw [if_neg hsame]
        simp [hsame]
    · have hsame : ¬ p = va / 4096 := by omega
      simp only [hp, hsame, false_and, and_false, or_false]
  have htaken : ∀ g, Taken (pmm_mark_frame_reserved u (f * 4096)) g ↔ g = f ∨ Taken s g := by
    intro g
    unfold Taken
    by_cases hg : g < 0x100000
    · rw [hbits g hg, Bool.or_eq_true, decide_eq_true_eq, @eq_comm _ f g]
      simp only [hg, true_and]
    · have hne' : ¬ g = f := by omega
      simp only [hg, hne', false_and, or_false]
  have htaken' : Taken (pmm_mark_frame_reserved u (f * 4096)) = fun g => g = f ∨ Taken s g :=
    funext fun g => propext (htaken g)
  obtain ⟨grants', hpaged', -⟩ := hmapped.paged
  refine ⟨⟨grants', hpaged'⟩, ?_, ?_⟩
  · rw [hmap, htaken']
    exact h.exclusive.map hfree
  · intro g hg
    rw [hmap, htaken']
    exact (h.home g hg).map hfree

/-- A call of `vmm_map_memory`, with any arguments. -/
structure MapCall where
  virtual_address : UInt32
  physical_address : UInt32
  size : UInt32
  is_kernel : Bool
  is_writeable : Bool

def map_call (s : Vmm) (c : MapCall) : Outcome Vmm Nat :=
  vmm_map_memory s c.virtual_address.toNat c.physical_address.toNat c.size.toNat c.is_kernel
    c.is_writeable

/-- A call that succeeds. -/
def map_step (s : Vmm) (c : MapCall) : Option Vmm :=
  match map_call s c with
  | .done ret t => if ret = NULL then none else some t
  | _ => none

theorem unshared_step {s t : Vmm} {c : MapCall} {n : Nat}
    (h : Unshared s.mm s.curr_page_directory n) (hstep : map_step s c = some t) :
    Unshared t.mm t.curr_page_directory n := by
  unfold map_step at hstep
  split at hstep
  · rename_i ret t' heq
    by_cases hret : ret = NULL
    · rw [if_pos hret] at hstep
      cases hstep
    · rw [if_neg hret] at hstep
      cases hstep
      rcases map_memory_done heq with ⟨hnull, -⟩ | ⟨va, pa, mm, -, -, -, -, -, hrange, rfl⟩
      · exact absurd hnull hret
      · obtain ⟨mapped, u, hpages, hrest⟩ := Outcome.andThen_eq_done.mp hrange
        cases mapped with
        | true =>
          cases hrest
          exact map_pages_keeps (motive := fun s' => Unshared s' s.curr_page_directory n)
            (fun s' i v hv _ hne hmap => unshared_turn hv (add32_lt _ _) hne hmap) _ h
            (Nat.le_of_eq (Nat.zero_add _)) hpages
        | false =>
          obtain ⟨_, v, _, hnull⟩ := Outcome.andThen_eq_done.mp hrest
          cases hnull
          exact absurd rfl hret
  · cases hstep

/-! ## The boot of the kernel -/

/-- Where the linker places the end of the kernel image, and the placement area in it, of
which `taken` bytes were given out before `pmm_init`. -/
structure KernelImage where
  kheap_placement_memory : Nat
  taken : Nat
  kernel_virtual_end : Nat
  start_le : kernel_virtual_start ≤ kheap_placement_memory
  taken_le : taken + 144 + 131072 ≤ KHEAP_PLACEMENT_SIZE
  stop_le : kheap_placement_memory + KHEAP_PLACEMENT_SIZE ≤ kernel_virtual_end
  end_lt : kernel_virtual_end < 4294967296

/-- The statics at the start. -/
def KernelImage.start (image : KernelImage) (m : Mem) : Vmm where
  mm := ⟨kheapTaken image.kheap_placement_memory image.taken m, ⟨NULL, 0, 0, 0, 0, 0, NULL, 0⟩⟩
  kernel_page_directory := NULL
  curr_page_directory := NULL
  cr3 := 0
  paging_enabled := false

/-- The placement area of a kernel image at the start. -/
theorem image_bumped (image : KernelImage) (m : Mem) : Bumped ⟨(image.start m).mm.kheap, []⟩ := by
  have h1 := image.start_le
  have h2 := image.stop_le
  have h3 := image.end_lt
  have h4 := image.taken_le
  unfold kernel_virtual_start at h1
  exact bumped_taken (by omega) (by omega) (by omega)

/-- There is room for the tables of the frame allocator. -/
theorem image_room (image : KernelImage) (m : Mem) :
    144 + 131072 ≤ (image.start m).mm.kheap.kheap_placement_memory_free_memory := by
  have hroom := image.taken_le
  unfold KernelImage.start kheapTaken
  simp only
  omega

def KernelImage.pages (image : KernelImage) : Nat := bootPages image.kernel_virtual_end

/-- The calls of `init_kernel` that set up the memory. -/
def init_kernel_memory (image : KernelImage) (m : Mem) (mmap : List MmapEntry) : Outcome Vmm Unit :=
  ((pmm_init (image.start m).mm mmap).lift fun mm => { image.start m with mm := mm }).andThen
    fun _ s => vmm_init s image.kernel_virtual_end

theorem KernelImage.pages_le (image : KernelImage) : image.pages ≤ 0x40000 := by
  have h1 := image.start_le
  have h2 := image.stop_le
  have h3 := image.end_lt
  unfold KernelImage.pages bootPages
  rw [imagePages_eq (by omega) h3]
  unfold kernel_virtual_start at h1 ⊢
  omega

/-- A boot that returns has started the frame allocator, and then paging. -/
theorem boot_spec {image : KernelImage} {m : Mem} {mmap : List MmapEntry} {w : Vmm}
    (heq : init_kernel_memory image m mmap = .done () w) :
    ∃ v, pmm_init (image.start m).mm mmap = .done () v.mm ∧
      v.mm.kheap.kheap_placement_memory = image.kheap_placement_memory ∧
      Booted v w image.kernel_virtual_end := by
  obtain ⟨_, v, hpmm, hvmm⟩ := Outcome.andThen_eq_done.mp heq
  obtain ⟨mm, hinit, rfl⟩ := Outcome.lift_eq_done.mp hpmm
  have h1 := image.start_le
  have h2 := image.stop_le
  have h3 := image.end_lt
  have hbumped := image_bumped image m
  obtain ⟨hframes, hplace, -, grants, hgranted, hbitmap⟩ := init_granted hbumped hinit
  exact ⟨_, hinit, hplace, vmm_init_spec hgranted hframes hbitmap (by omega) h3 hvmm⟩

/-- The pages of the placement area are pages of the linear mapping. -/
theorem KernelImage.area_page (image : KernelImage) {s : Mm} {table : Nat}
    (hplace : s.kheap.kheap_placement_memory = image.kheap_placement_memory)
    (h : InArea s table) :
    ∃ i, 256 ≤ i ∧ i < image.pages ∧ table / 4096 = KERNEL_PAGE + i := by
  obtain ⟨-, h1, h2⟩ := h
  have h3 := image.start_le
  have h4 := image.stop_le
  have h5 := image.end_lt
  rw [hplace] at h1 h2
  unfold SIZEOF_PAGE_TABLE at h2
  unfold KernelImage.pages bootPages
  rw [imagePages_eq (by omega) h5]
  unfold kernel_virtual_start KERNEL_PAGE at *
  exact ⟨table / 4096 - 0xC0000, by omega, by omega, by omega⟩

/-- No two pages that are present share a frame, the frames of all of them are reserved,
and the first `n` frames belong to the real mode memory and to the kernel image. -/
structure NoFrameShared (s : Vmm) (n : Nat) : Prop where
  apart : ∀ p q, p < 0x100000 → q < 0x100000 →
    pagePresent s.mm.kheap.mem s.curr_page_directory p →
    pagePresent s.mm.kheap.mem s.curr_page_directory q →
    pageFrame s.mm.kheap.mem s.curr_page_directory p =
      pageFrame s.mm.kheap.mem s.curr_page_directory q → p = q
  reserved : ∀ p, p < 0x100000 → pagePresent s.mm.kheap.mem s.curr_page_directory p →
    pmm_test_frame s.mm (pageFrame s.mm.kheap.mem s.curr_page_directory p) = true
  image : ∀ f, f < n → pmm_test_frame s.mm f = true ∧
    ∀ p, p < 0x100000 → pagePresent s.mm.kheap.mem s.curr_page_directory p →
      pageFrame s.mm.kheap.mem s.curr_page_directory p = f → p = KERNEL_PAGE + f

theorem Unshared.noFrameShared {s : Vmm} {n : Nat} (h : Unshared s.mm s.curr_page_directory n) :
    NoFrameShared s n := by
  refine ⟨?_, ?_, ?_⟩
  · intro p q hp hq hp' hq' heq
    exact h.exclusive.inj p q _ (frameOf_eq.mpr ⟨hp, hp', heq⟩) (frameOf_eq.mpr ⟨hq, hq', rfl⟩)
  · intro p hp hp'
    exact (h.exclusive.taken p _ (frameOf_eq.mpr ⟨hp, hp', rfl⟩)).2
  · intro f hf
    obtain ⟨htaken, hhome⟩ := h.home f hf
    exact ⟨htaken.2, fun p hp hp' heq => hhome p (frameOf_eq.mpr ⟨hp, hp', heq⟩)⟩

/-! ## A small kernel -/

/-- A kernel image of 2 MB, with the placement area as its second half. The log has taken
the first bytes of the area. -/
def smallImage : KernelImage :=
  ⟨0xC0200000, 16920, 0xC0300000, by decide, by decide, by decide, by decide⟩

/-- The first frame behind the image. -/
def freeFrame : Nat := 768

theorem small_image_pages : smallImage.pages = freeFrame := by
  have hpages : imagePages 0xC0300000 = (0xC0300000 - kernel_virtual_start + 4095) / 4096 :=
    imagePages_eq (by decide) (by decide)
  unfold KernelImage.pages smallImage bootPages freeFrame
  simp only [hpages]
  decide

/-- The kernel boots with one free frame. -/
theorem small_kernel_boots : ∃ w grants,
    init_kernel_memory smallImage (fun _ => 0) (oneRegion 0x300000 0x1000) = .done () w ∧
    Paged w.mm w.curr_page_directory grants ∧
    Linear w.mm w.curr_page_directory freeFrame ∧ HasRoom w.mm w.curr_page_directory 8192 ∧
    w.mm.kheap.kheap_placement_memory = smallImage.kheap_placement_memory ∧
    (∀ f, f < 0x100000 → pmm_test_frame w.mm f = !decide (f = freeFrame)) ∧
    w.mm.pmm.bitmap = 0xC02042A8 ∧ ∀ x, 0xC0300000 ≤ x → w.mm.kheap.mem x = 0 := by
  have hbase : 0x300000 < 4294967296 := by decide
  have hlength : 0x1000 < 4294967296 := by decide
  have hlast : sub32 (add32 0x300000 0x1000) 1 / 4096 = freeFrame := by decide +kernel
  obtain ⟨t, hpmm, -, -, -, hbits, haddr, hzero⟩ := small_machine_boots hbase hlength
  have hmarked := marked_init_region t 0
  have hbumped : Bumped ⟨smallMachine.kheap, []⟩ := image_bumped smallImage _
  obtain ⟨hframes, hplace, hfree, grants, hgranted, hbitmap⟩ := init_granted hbumped hpmm
  have hroom : 8192 + 24576 ≤ (pmm_init_region t 0).kheap.kheap_placement_memory_free_memory := by
    rw [hfree]
    decide
  have hle : kernel_virtual_start ≤ 0xC0300000 := by decide
  obtain ⟨w, hinit, hroom'⟩ := vmm_init_returns
    (v := { smallImage.start (fun _ => 0) with mm := pmm_init_region t 0 }) hgranted hframes hbitmap
    hle (by decide) hroom
  have hboot : init_kernel_memory smallImage (fun _ => 0) (oneRegion 0x300000 0x1000) =
      .done () w :=
    Outcome.andThen_eq_done.mpr ⟨(), _, Outcome.lift_eq_done.mpr ⟨_, hpmm, rfl⟩, hinit⟩
  have hbooted := vmm_init_spec hgranted hframes hbitmap hle (by decide) hinit
  obtain ⟨grants', hpaged⟩ := hbooted.part.paged
  have hpages : bootPages 0xC0300000 = freeFrame := small_image_pages
  refine ⟨w, grants', hboot, hpaged, ?_, hroom', hbooted.part.start.trans hplace, fun f hf => ?_,
    hbooted.part.bitmap.trans (hmarked.bitmap.trans haddr), fun x hx => ?_⟩
  · rw [← hpages]
    exact hbooted.part.linear
  · have hall : freeFrame = 0x300000 / 4096 := by decide
    rw [hbooted.part.bits f hf, hbits f hf, hpages, hlast, ← hall]
    unfold freeFrame
    by_cases heq : f = 768
    · rw [heq]
      decide
    · rw [decide_eq_false heq, decide_eq_false (show ¬ (768 ≤ f ∧ f ≤ 768) by omega),
        Bool.not_false, Bool.or_true]
  · have harea : (pmm_init_region t 0).kheap.kheap_placement_memory = 0xC0200000 := hplace
    rw [hbooted.part.outside x (Or.inr ?_)]
    · exact (hmarked.outside x (Or.inr (by rw [haddr]; omega))).trans (hzero x hx)
    · simp only [harea]
      exact hx

/-- A search finds the free frame. -/
theorem small_kernel_free {w : Vmm} (hframes : w.mm.pmm.num_memory_frames = TOP_FRAME)
    (hbits : ∀ f, f < 0x100000 → pmm_test_frame w.mm f = !decide (f = freeFrame)) {pa : Nat}
    (hpa : pa / 4096 ≤ freeFrame) : pmm_find_free_frame_from w.mm pa = freeFrame * 4096 := by
  have heq := find_free_frame_from_eq hframes pa
  have hlt : freeFrame < TOP_FRAME := by decide
  have hmem : freeFrame ∈ freeFrames w.mm (pa / 4096) := by
    refine mem_freeFrames.mpr ⟨hpa, by rw [hframes]; exact hlt, ?_⟩
    rw [hbits _ (by decide)]
    decide
  cases hlist : freeFrames w.mm (pa / 4096) with
  | nil =>
    rw [hlist] at hmem
    cases hmem
  | cons f fs =>
    obtain ⟨-, hf, hbit⟩ := mem_freeFrames.mp (hlist ▸ List.mem_cons_self : f ∈ freeFrames w.mm _)
    rw [hframes, TOP_FRAME] at hf
    rw [hbits f (by omega), Bool.not_eq_false', decide_eq_true_eq] at hbit
    rw [heq, hlist, hbit]

/-- The free frame is mapped to a page of the kernel space, and no frame is free then. -/
theorem small_kernel_maps {w : Vmm} {grants : List Grant}
    (hpaged : Paged w.mm w.curr_page_directory grants)
    (hlinear : Linear w.mm w.curr_page_directory freeFrame)
    (hroom : HasRoom w.mm w.curr_page_directory 8192)
    (hplace : w.mm.kheap.kheap_placement_memory = smallImage.kheap_placement_memory)
    (hbits : ∀ f, f < 0x100000 → pmm_test_frame w.mm f = !decide (f = freeFrame)) :
    ∃ u, pmm_find_free_frame w.mm = freeFrame * 4096 ∧
      (∀ turns, vmm_map_pages w.curr_page_directory 0xD0000000 (freeFrame * 4096) (turns + 1) 0
          w.mm =
        vmm_map_pages w.curr_page_directory 0xD0000000 (freeFrame * 4096) turns 1 u) ∧
      Mapped w.mm u w.curr_page_directory w.curr_page_directory 0xD0000000 (freeFrame * 4096) true
        true grants ∧
      u.pmm.num_memory_frames = TOP_FRAME ∧ ∀ f, f < 0x100000 → pmm_test_frame u f = true := by
  have hfind : ∀ pa, pa / 4096 ≤ freeFrame →
      pmm_find_free_frame_from w.mm pa = freeFrame * 4096 :=
    fun _ => small_kernel_free hpaged.frames hbits
  have hne : freeFrame * 4096 ≠ NULL := by decide
  have hva : add32 0xD0000000 (mul32 0 PAGE_SIZE) = 0xD0000000 := by decide +kernel
  rcases map_page_cases hpaged w.curr_page_directory (freeFrame * 4096) true true
      (show 0xD0000000 < 4294967296 by decide) (Or.inr rfl) with
    ⟨-, -, hfull⟩ | ⟨_, table, -, harea, hnone⟩ | ⟨u, hmap, -⟩
  · rcases hroom with ⟨-, hroom⟩ | hroom
    · omega
    · omega
  · -- The area lies in the image, which the directory maps.
    obtain ⟨i, -, hi, hpage⟩ := smallImage.area_page hplace harea
    rw [small_image_pages] at hi
    obtain ⟨hpresent, -, hbase⟩ := hlinear.mapped i hi
    rw [linear_translation hpaged.dir_ne hpage hpresent hbase] at hnone
    cases hnone
  · obtain ⟨hmapped, hframes, hmarks⟩ := map_and_reserve hpaged w.curr_page_directory
      (by decide) (by decide) (Or.inr rfl) hmap
    refine ⟨_, hfind 0 (by decide), fun turns => ?_, hmapped, hframes.trans hpaged.frames,
      fun f hf => ?_⟩
    · rw [vmm_map_pages, hfind _ (by decide), hva]
      simp only [hne, if_false, hmap, Outcome.done_andThen]
    · have hdiv : freeFrame * 4096 / 4096 = freeFrame := by decide
      rw [hmarks f hf, hbits f hf, hdiv]
      by_cases heq : freeFrame = f
      · rw [decide_eq_true heq, Bool.true_or]
      · rw [decide_eq_false (Ne.symm heq), Bool.not_false, Bool.or_true]

/-- The kernel with one free frame maps the page behind it, wherever in it the address is. -/
theorem small_kernel_maps_a_page : ∃ w grants,
    init_kernel_memory smallImage (fun _ => 0) (oneRegion 0x300000 0x1000) = .done () w ∧
    Paged w.mm w.curr_page_directory grants ∧ Linear w.mm w.curr_page_directory freeFrame ∧
    ∀ c : MapCall, c.virtual_address.toNat / 4096 * 4096 = 0xD0000000 → c.physical_address = 0 →
      div_up c.size.toNat PAGE_SIZE = 1 →
      ∃ u, map_call w c = .done 0xD0000000 { w with mm := u } := by
  obtain ⟨w, grants, hboot, hpaged, hlinear, hroom, hplace, hbits, -⟩ := small_kernel_boots
  obtain ⟨u, hfind, hturn, -, -, -⟩ := small_kernel_maps hpaged hlinear hroom hplace hbits
  refine ⟨w, grants, hboot, hpaged, hlinear, fun c hva hpa hpages => ⟨u, ?_⟩⟩
  have hne : freeFrame * 4096 ≠ NULL := by decide
  have hnull : c.virtual_address.toNat ≠ NULL := by
    intro h
    rw [h] at hva
    cases hva
  have hdown : paging_align_address_down c.virtual_address.toNat = 0xD0000000 := by
    rw [align_down_eq c.virtual_address.toNat_lt, hva]
  have hloop : vmm_map_pages w.curr_page_directory 0xD0000000 (freeFrame * 4096) 1 0 w.mm =
      .done true u := hturn 0
  unfold map_call
  rw [map_memory_at _ _ _ hnull (if_pos (by rw [hpa]; rfl)) (by rw [hfind]; exact hne), hfind]
  unfold vmm_map_range
  simp only [hdown, hpages, hloop, Outcome.done_andThen, if_true, Outcome.done_lift]

/-- A call that maps a page behind the kernel, wherever there is a frame. -/
def onePage : MapCall := ⟨0xD0000000, 0, 4096, true, true⟩

theorem small_kernel_maps_one_page : ∃ w u,
    init_kernel_memory smallImage (fun _ => 0) (oneRegion 0x300000 0x1000) = .done () w ∧
    map_call w onePage = .done 0xD0000000 { w with mm := u } := by
  obtain ⟨w, grants, hboot, -, -, hmap⟩ := small_kernel_maps_a_page
  obtain ⟨u, hcall⟩ := hmap onePage (by decide) rfl (div_up_page (by decide))
  exact ⟨w, u, hboot, hcall⟩

end sakana_os
