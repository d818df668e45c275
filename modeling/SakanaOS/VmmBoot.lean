-- `vmm_init`: page for page it builds the linear mapping of the real mode memory and of
-- the kernel image, and at its end the directory describes where its own tables lie.
import SakanaOS.MapPage

open byte_memory bitmaps bit_fields runs

namespace sakana_os

/-- The first page of the kernel space. -/
def KERNEL_PAGE : Nat := 0xC0000

/-- The directory maps the first `n` pages of the kernel space to the first `n` frames,
which are reserved, and nothing else. Its slots name the frames of their tables, and there
are no others. -/
structure Linear (s : Mm) (dir n : Nat) : Prop where
  empty : ∀ page, page < 0x100000 → page < KERNEL_PAGE ∨ KERNEL_PAGE + n ≤ page →
    pageWord s.kheap.mem dir page = 0
  mapped : ∀ i, i < n → pagePresent s.kheap.mem dir (KERNEL_PAGE + i) ∧
    pageUsed s.kheap.mem dir (KERNEL_PAGE + i) ∧ pageFrame s.kheap.mem dir (KERNEL_PAGE + i) = i
  reserved : ∀ i, i < n → pmm_test_frame s i = true
  slot : ∀ i, i < 1024 →
    (tablePtr s.kheap.mem dir i = 0 → field (slotWord s.kheap.mem dir i) 0 1 = 0) ∧
    (tablePtr s.kheap.mem dir i ≠ 0 → field (slotWord s.kheap.mem dir i) 0 1 = 1 ∧
      field (slotWord s.kheap.mem dir i) 12 20 =
        sub32 (tablePtr s.kheap.mem dir i) VMM_KERNEL_SPACE_BASE / 4096)
  unused : ∀ i, i < 1024 → (∀ j, j < n → (KERNEL_PAGE + j) / 1024 ≠ i) →
    tablePtr s.kheap.mem dir i = 0

/-- What a part of the boot leaves that maps the frames from `n` up to `n'`. -/
structure BootPart (s t : Mm) (dir n n' : Nat) : Prop where
  paged : ∃ grants, Paged t dir grants
  linear : Linear t dir n'
  start : t.kheap.kheap_placement_memory = s.kheap.kheap_placement_memory
  bits : ∀ f, f < 0x100000 →
    pmm_test_frame t f = (decide (n ≤ f ∧ f < n') || pmm_test_frame s f)
  outside : OnlyArea s t
  bitmap : t.pmm.bitmap = s.pmm.bitmap

/-- The page behind the last one is mapped to the frame behind the last one. -/
theorem linear_step {s u : Mm} {dir n : Nat} {grants : List Grant} (h : Paged s dir grants)
    (hlinear : Linear s dir n) (hn : n < 0x40000)
    (heq : vmm_map_page s dir NULL (0xC0000000 + n * 4096) (n * 4096) true true = .done () u) :
    BootPart s (pmm_mark_frame_reserved u (n * 4096)) dir n (n + 1) ∧
      Mapped s (pmm_mark_frame_reserved u (n * 4096)) dir NULL (0xC0000000 + n * 4096) (n * 4096)
        true true grants := by
  obtain ⟨hmapped, _, hbits⟩ :=
    map_and_reserve h NULL (by omega) (by omega) (Or.inl rfl) heq
  have hpage : (0xC0000000 + n * 4096) / 4096 = KERNEL_PAGE + n := by
    unfold KERNEL_PAGE
    omega
  have hframe : n * 4096 / 4096 = n := by omega
  obtain ⟨grants', hpaged, _⟩ := hmapped.paged
  refine ⟨⟨⟨grants', hpaged⟩, ⟨?_, ?_, ?_, ?_, ?_⟩, hmapped.start, ?_, hmapped.outside,
    hmapped.bitmap⟩, hmapped⟩
  · intro page hp hcond
    rw [hmapped.page page hp, hpage, if_neg (by omega)]
    exact hlinear.empty page hp (by omega)
  · intro i hi
    have hlt : KERNEL_PAGE + i < 0x100000 := by
      unfold KERNEL_PAGE
      omega
    unfold pagePresent pageUsed pageFrame
    rw [hmapped.page _ hlt, hpage, hframe]
    by_cases hlast : i = n
    · rw [if_pos (by omega), mapWord_present, mapWord_available, mapWord_base _ _ _ _ (by omega)]
      exact ⟨rfl, rfl, hlast.symm⟩
    · rw [if_neg (by omega)]
      exact hlinear.mapped i (by omega)
  · intro i hi
    rw [hbits i (by omega), hframe]
    by_cases hlast : n = i
    · rw [decide_eq_true hlast, Bool.true_or]
    · rw [hlinear.reserved i (by omega), Bool.or_true]
  · intro i hi
    by_cases hnew : i = (0xC0000000 + n * 4096) / 4096 / 1024 ∧ tablePtr s.kheap.mem dir i = 0
    · obtain ⟨rfl, hempty⟩ := hnew
      obtain ⟨phys, w, hphys, hword⟩ := hmapped.slot_new hempty
      refine ⟨fun hzero => absurd hzero hmapped.table, fun _ => ?_⟩
      cases hphys
      have hlt := sub32_lt (tablePtr (pmm_mark_frame_reserved u (n * 4096)).kheap.mem dir
        ((0xC0000000 + n * 4096) / 4096 / 1024)) VMM_KERNEL_SPACE_BASE
      rw [hword, slotEntryWord_present, Nat.shiftRight_eq_div_pow,
        slotEntryWord_base _ _ (by omega)]
      exact ⟨rfl, rfl⟩
    · obtain ⟨h1, h2⟩ := hmapped.slot i hi (by tauto)
      rw [h1, h2]
      exact hlinear.slot i hi
  · intro i hi hne
    rw [(hmapped.slot i hi (Or.inl (by rw [hpage]; exact (hne n (Nat.lt_succ_self n)).symm))).1]
    exact hlinear.unused i hi fun j hj => hne j (Nat.lt_succ_of_lt hj)
  · intro f hf
    rw [hbits f hf, hframe]
    congr 1
    by_cases hfn : n = f
    · rw [decide_eq_true hfn, decide_eq_true (by omega)]
    · rw [decide_eq_false hfn, decide_eq_false (by omega)]

/-- The translation before paging. -/
theorem boot_translation (m : Mem) (va : Nat) :
    vmm_virtual_to_physical_address m NULL va = some (sub32 va VMM_KERNEL_SPACE_BASE) :=
  if_pos rfl

/-- The page that the boot comes to, and its place. -/
theorem boot_address {base n i : Nat} (hbase : base = 0xC0000000 + n * 4096)
    (hlt : n + i < 0x40000) : add32 base (mul32 i PAGE_SIZE) = 0xC0000000 + (n + i) * 4096 ∧
      ∀ m, vmm_virtual_to_physical_address m NULL (0xC0000000 + (n + i) * 4096) =
        some ((n + i) * 4096) := by
  have hmul : mul32 i PAGE_SIZE = i * 4096 := mul32_eq (by unfold PAGE_SIZE; omega)
  refine ⟨?_, fun m => ?_⟩
  · rw [hmul, hbase, add32_eq (by omega)]
    omega
  · rw [boot_translation, VMM_KERNEL_SPACE_BASE, sub32_eq (by omega) (by omega),
      Nat.add_sub_cancel_left]

theorem BootPart.trans {s t u : Mm} {dir n n' n'' : Nat} (h : BootPart s t dir n n')
    (h' : BootPart t u dir n' n'') (hle : n ≤ n') (hle' : n' ≤ n'') : BootPart s u dir n n'' := by
  refine ⟨h'.paged, h'.linear, h'.start.trans h.start, fun f hf => ?_,
    h.outside.trans h.start h'.outside, h'.bitmap.trans h.bitmap⟩
  rw [h'.bits f hf, h.bits f hf, ← Bool.or_assoc]
  congr 1
  rw [← Bool.decide_or]
  congr 1
  apply propext
  omega

/-- The loop of `vmm_init` over a range. -/
theorem init_pages_spec {dir base n : Nat} (hbase : base = 0xC0000000 + n * 4096) (turns : Nat)
    {i : Nat} {s t : Mm} {grants : List Grant} (h : Paged s dir grants)
    (hlinear : Linear s dir (n + i)) (hlt : n + i + turns ≤ 0x40000)
    (heq : vmm_init_pages dir base turns i s = .done () t) :
    BootPart s t dir (n + i) (n + i + turns) := by
  induction turns generalizing i s grants with
  | zero =>
    cases heq
    refine ⟨⟨grants, h⟩, hlinear, rfl, fun f _ => ?_, fun _ _ => rfl, rfl⟩
    rw [decide_eq_false (by omega), Bool.false_or]
  | succ turns ih =>
    obtain ⟨hva, hphys⟩ := boot_address hbase (i := i) (by omega)
    rw [vmm_init_pages, hva] at heq
    simp only [hphys] at heq
    obtain ⟨_, u, hmap, hrest⟩ := Outcome.andThen_eq_done.mp heq
    obtain ⟨hpart, -⟩ := linear_step h hlinear (by omega) hmap
    obtain ⟨grants', hpaged⟩ := hpart.paged
    have hnext := ih (i := i + 1) hpaged hpart.linear (by omega) hrest
    have hsum : n + (i + 1) + turns = n + i + (turns + 1) := by omega
    rw [hsum] at hnext
    exact hpart.trans hnext (by omega) (by omega)

/-! ## The start of paging -/

/-- The pages of the kernel image. -/
def imagePages (kernel_virtual_end : Nat) : Nat :=
  div_up (sub32 kernel_virtual_end kernel_virtual_start) PAGE_SIZE

/-- The pages that the boot maps: the real mode memory and the kernel image. -/
def bootPages (kernel_virtual_end : Nat) : Nat := 256 + imagePages kernel_virtual_end

theorem imagePages_eq {e : Nat} (h : kernel_virtual_start ≤ e) (he : e < 4294967296) :
    imagePages e = (e - kernel_virtual_start + 4095) / 4096 := by
  unfold imagePages PAGE_SIZE
  rw [sub32_eq h he]
  apply div_up_page
  unfold kernel_virtual_start
  omega

theorem real_mode_pages : div_up VMM_REAL_MODE_MEMORY_SIZE PAGE_SIZE = 256 :=
  div_up_page (by decide)

/-- A directory that was just allocated is empty. -/
theorem empty_directory {s : Mm} {k : Kheap} {dir : Nat} {grants : List Grant}
    (hframes : s.pmm.num_memory_frames = TOP_FRAME)
    (hbitmap : ⟨s.pmm.bitmap, 131072, MALLOC_FLAG_NULL⟩ ∈ grants)
    (hk : Bumped ⟨k, ⟨dir, SIZEOF_PAGE_DIRECTORY, PAGE_FLAGS⟩ :: grants⟩)
    (hmem : k.mem = fill s.kheap.mem dir 0 SIZEOF_PAGE_DIRECTORY)
    (hstart : k.kheap_placement_memory = s.kheap.kheap_placement_memory) :
    Paged ⟨k, s.pmm⟩ dir (⟨dir, SIZEOF_PAGE_DIRECTORY, PAGE_FLAGS⟩ :: grants) ∧
      BootPart s ⟨k, s.pmm⟩ dir 0 0 ∧ ∀ i, i < 1024 → tablePtr k.mem dir i = 0 := by
  unfold SIZEOF_PAGE_DIRECTORY at *
  have hptr : ∀ i, i < 1024 → tablePtr k.mem dir i = 0 := by
    intro i hi
    unfold tablePtr directory_table
    rw [hmem]
    exact load32_fill_zero _ (by omega) (by omega)
  have hpaged : Paged ⟨k, s.pmm⟩ dir (⟨dir, SIZEOF_PAGE_DIRECTORY, PAGE_FLAGS⟩ :: grants) :=
    ⟨hk, hframes, List.mem_cons_of_mem _ hbitmap, List.mem_cons_self,
      fun i hi hne => absurd (hptr i hi) hne, fun i _ hi _ hne _ => absurd (hptr i hi) hne⟩
  have hapart := (List.pairwise_cons.mp hk.apart).1 _ hbitmap
  refine ⟨hpaged, ⟨⟨_, hpaged⟩, ⟨?_, ?_, ?_, ?_, fun i hi _ => hptr i hi⟩, hstart, ?_, ?_,
    rfl⟩, hptr⟩
  · intro page hp _
    unfold pageWord
    rw [if_pos (hptr _ (by omega))]
  · intro i hi
    omega
  · intro i hi
    omega
  · intro i hi
    refine ⟨fun _ => ?_, fun hne => absurd (hptr i hi) hne⟩
    have hword : slotWord k.mem dir i = 0 := by
      unfold slotWord directory_entry
      rw [hmem]
      exact load32_fill_zero _ (by omega) (by omega)
    simp only [hword, field_zero]
  · intro f hf
    rw [decide_eq_false (by omega), Bool.false_or]
    refine bit_congr (n := 131072) (fun x h1 h2 => ?_) (by omega)
    simp only at hapart h1 h2 ⊢
    rw [hmem]
    exact fill_frame _ _ _ _ _ (by omega)
  · intro x hx
    obtain ⟨h1, h2⟩ := hk.inside _ List.mem_cons_self
    simp only [hstart] at h1 h2
    simp only [hmem]
    exact fill_frame _ _ _ _ _ (by omega)

/-- What `vmm_init` leaves: the linear mapping of the real mode memory and of the kernel
image in the current directory, whose frame is in the control register. -/
structure Booted (v w : Vmm) (kernel_virtual_end : Nat) : Prop where
  part : BootPart v.mm w.mm w.curr_page_directory 0 (bootPages kernel_virtual_end)
  kernel : w.kernel_page_directory = w.curr_page_directory
  cr3 : w.cr3 = sub32 w.curr_page_directory VMM_KERNEL_SPACE_BASE
  paging : w.paging_enabled = true

theorem vmm_init_spec {v w : Vmm} {grants : List Grant} {kernel_virtual_end : Nat}
    (h : Bumped ⟨v.mm.kheap, grants⟩) (hframes : v.mm.pmm.num_memory_frames = TOP_FRAME)
    (hbitmap : ⟨v.mm.pmm.bitmap, 131072, MALLOC_FLAG_NULL⟩ ∈ grants)
    (hstart : kernel_virtual_start ≤ kernel_virtual_end) (hend : kernel_virtual_end < 4294967296)
    (heq : vmm_init v kernel_virtual_end = .done () w) : Booted v w kernel_virtual_end := by
  have himage := imagePages_eq hstart hend
  have hpages : imagePages kernel_virtual_end ≤ 0x3FF00 := by
    rw [himage]
    unfold kernel_virtual_start at hstart ⊢
    omega
  obtain ⟨dir, v₁, halloc, h₁⟩ := Outcome.andThen_eq_done.mp heq
  obtain ⟨k, hk, rfl⟩ := Outcome.lift_eq_done.mp halloc
  rcases page_alloc h SIZEOF_PAGE_DIRECTORY (by decide) with ⟨hnone, -⟩ |
    ⟨p, k', hsome, hne, -, hbumped, hmem, hsame, -⟩
  · cases hnone.symm.trans hk
    simp only [if_true] at h₁
    cases h₁
  · cases hsome.symm.trans hk
    simp only [hne, if_false] at h₁
    obtain ⟨hpaged, hpart, -⟩ := empty_directory hframes hbitmap hbumped hmem hsame
    obtain ⟨_, v₂, hreal, h₂⟩ := Outcome.andThen_eq_done.mp h₁
    obtain ⟨s₂, hloop₂, rfl⟩ := Outcome.lift_eq_done.mp hreal
    rw [real_mode_pages] at hloop₂
    have hpart₂ := init_pages_spec (n := 0) (i := 0) rfl 256 hpaged hpart.linear (by omega) hloop₂
    obtain ⟨grants₂, hpaged₂⟩ := hpart₂.paged
    obtain ⟨_, v₃, himg, h₃⟩ := Outcome.andThen_eq_done.mp h₂
    obtain ⟨s₃, hloop₃, rfl⟩ := Outcome.lift_eq_done.mp himg
    have hpart₃ := init_pages_spec (n := 256) (i := 0) rfl (imagePages kernel_virtual_end) hpaged₂
      hpart₂.linear (by omega) hloop₃
    have hall := (hpart.trans hpart₂ (by omega) (by omega)).trans hpart₃ (by omega) (by omega)
    cases h₃
    exact ⟨hall, rfl, rfl, rfl⟩

/-- The directory translates an address in a page of the linear mapping. -/
theorem linear_translation {m : Mem} {dir va i : Nat} (hdir : dir ≠ NULL)
    (hva : va / 4096 = KERNEL_PAGE + i) (hpresent : pagePresent m dir (KERNEL_PAGE + i))
    (hframe : pageFrame m dir (KERNEL_PAGE + i) = i) :
    vmm_virtual_to_physical_address m dir va = some (i * 4096 + va % 4096) := by
  rw [← hva] at hpresent hframe
  rw [present_translation hdir hpresent, hframe]

/-! ## A boot that returns -/

/-- There is room for `need` bytes and for the first table of the kernel space, or the
table is there. -/
def HasRoom (s : Mm) (dir need : Nat) : Prop :=
  (tablePtr s.kheap.mem dir 768 ≠ 0 ∧ need ≤ s.kheap.kheap_placement_memory_free_memory) ∨
    need + 8192 ≤ s.kheap.kheap_placement_memory_free_memory

/-- The loop returns when its pages lie in the first 4 MB of the kernel space. -/
theorem init_pages_returns {dir base n : Nat} (hbase : base = 0xC0000000 + n * 4096)
    (need turns : Nat) {i : Nat} {s : Mm} {grants : List Grant} (h : Paged s dir grants)
    (hlinear : Linear s dir (n + i)) (hlt : n + i + turns ≤ 1024) (hroom : HasRoom s dir need) :
    ∃ t, vmm_init_pages dir base turns i s = .done () t ∧ HasRoom t dir need := by
  induction turns generalizing i s grants with
  | zero => exact ⟨s, rfl, hroom⟩
  | succ turns ih =>
    obtain ⟨hva, hphys⟩ := boot_address hbase (i := i) (by omega)
    have hslot : (0xC0000000 + (n + i) * 4096) / 4096 / 1024 = 768 := by omega
    rw [vmm_init_pages, hva]
    simp only [hphys]
    rcases map_page_cases h NULL ((n + i) * 4096) true true
        (show 0xC0000000 + (n + i) * 4096 < 4294967296 by omega) (Or.inl rfl) with
      ⟨_, hempty, hfull⟩ | ⟨_, _, _, _, hnone⟩ | ⟨u, hmap, -⟩
    · rw [hslot] at hempty
      rcases hroom with ⟨htable, -⟩ | hroom
      · exact absurd hempty htable
      · omega
    · cases hnone
    · obtain ⟨hpart, hmapped⟩ := linear_step h hlinear (by omega) hmap
      obtain ⟨grants', hpaged⟩ := hpart.paged
      rw [hmap]
      refine ih (i := i + 1) hpaged hpart.linear (by omega) (Or.inl ⟨?_, ?_⟩)
      · have := hmapped.table
        rwa [hslot] at this
      · rcases hroom with ⟨htable, hneed⟩ | hneed
        · rw [hmapped.room_old (by rwa [hslot])]
          exact hneed
        · have := hmapped.room
          omega

theorem vmm_init_returns {v : Vmm} {grants : List Grant} {kernel_virtual_end need : Nat}
    (h : Bumped ⟨v.mm.kheap, grants⟩) (hframes : v.mm.pmm.num_memory_frames = TOP_FRAME)
    (hbitmap : ⟨v.mm.pmm.bitmap, 131072, MALLOC_FLAG_NULL⟩ ∈ grants)
    (hstart : kernel_virtual_start ≤ kernel_virtual_end)
    (hend : kernel_virtual_end ≤ 0xC0400000)
    (hroom : need + 24576 ≤ v.mm.kheap.kheap_placement_memory_free_memory) :
    ∃ w, vmm_init v kernel_virtual_end = .done () w ∧
      HasRoom w.mm w.curr_page_directory need := by
  have himage := imagePages_eq hstart (by omega)
  have hpages : imagePages kernel_virtual_end ≤ 768 := by
    rw [himage]
    unfold kernel_virtual_start at hstart ⊢
    omega
  rcases page_alloc h SIZEOF_PAGE_DIRECTORY (by decide) with ⟨-, hfull⟩ |
    ⟨dir, k, hsome, hne, -, hbumped, hmem, hsame, hfree⟩
  · unfold SIZEOF_PAGE_DIRECTORY at hfull
    omega
  · obtain ⟨hpaged, hpart, -⟩ := empty_directory hframes hbitmap hbumped hmem hsame
    unfold SIZEOF_PAGE_DIRECTORY at hfree
    obtain ⟨s₂, hreal, hroom₂⟩ := init_pages_returns (n := 0) (i := 0)
      (show VMM_REAL_MODE_MEMORY_BASE = 0xC0000000 + 0 * 4096 from rfl) need 256 hpaged
      hpart.linear (by omega)
      (Or.inr (by simp only; omega))
    obtain ⟨grants₂, hpaged₂⟩ :=
      (init_pages_spec (n := 0) (i := 0) rfl 256 hpaged hpart.linear (by omega) hreal).paged
    have hlinear₂ :=
      (init_pages_spec (n := 0) (i := 0) rfl 256 hpaged hpart.linear (by omega) hreal).linear
    obtain ⟨s₃, himg, hroom₃⟩ := init_pages_returns (n := 256) (i := 0)
      (show kernel_virtual_start = 0xC0000000 + 256 * 4096 from rfl) need
      (imagePages kernel_virtual_end) hpaged₂ hlinear₂ (by omega)
      hroom₂
    refine ⟨⟨s₃, dir, dir, sub32 dir VMM_KERNEL_SPACE_BASE, true⟩, ?_, hroom₃⟩
    unfold vmm_init
    refine Outcome.andThen_eq_done.mpr ⟨dir, _, Outcome.lift_eq_done.mpr ⟨k, hsome, rfl⟩, ?_⟩
    simp only [hne, if_false]
    refine Outcome.andThen_eq_done.mpr ⟨(), _, Outcome.lift_eq_done.mpr ⟨s₂, ?_, rfl⟩, ?_⟩
    · rw [real_mode_pages]
      exact hreal
    · refine Outcome.andThen_eq_done.mpr ⟨(), _, Outcome.lift_eq_done.mpr ⟨s₃, himg, rfl⟩, ?_⟩
      simp only [boot_translation]

end sakana_os
