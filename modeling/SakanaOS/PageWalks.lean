-- The two walks through the page tables: the MMU follows the frames in the entries of
-- the directory, the kernel the pointers beside them. They reach the same entry after
-- every boot and every run of calls that leave the kernel image where it is.
import SakanaOS.MapRange

open byte_memory bitmaps bit_fields runs

namespace sakana_os

/-! ## The walk of the MMU -/

/-- The physical address of the entry that the MMU reads for an address, if the entry
of the directory is present. -/
def mmu_page_entry (m : Mem) (page_directory virtual_address : Nat) : Option Nat :=
  let entry := directory_entry page_directory (paging_directory_index virtual_address)
  if entry_present m entry = 0 then none
  else some (entry_page_base m entry <<< 12 + 4 * paging_table_index virtual_address)

/-- The directory describes where it lies and where its own tables lie, so that both
walks reach the same entries. -/
structure WalksAgree (s : Vmm) : Prop where
  directory : ∀ idx, idx < 1024 →
    vmm_virtual_to_physical_address s.mm.kheap.mem s.curr_page_directory
      (directory_entry s.curr_page_directory idx) = some (s.cr3 + 4 * idx)
  present : ∀ idx, idx < 1024 →
    (entry_present s.mm.kheap.mem (directory_entry s.curr_page_directory idx) = 1 ↔
      load32 s.mm.kheap.mem (directory_table s.curr_page_directory idx) ≠ NULL)
  base : ∀ idx, idx < 1024 →
    load32 s.mm.kheap.mem (directory_table s.curr_page_directory idx) ≠ NULL →
    vmm_virtual_to_physical_address s.mm.kheap.mem s.curr_page_directory
      (load32 s.mm.kheap.mem (directory_table s.curr_page_directory idx)) =
      some (entry_page_base s.mm.kheap.mem (directory_entry s.curr_page_directory idx) <<< 12)
  absent : ∀ va, va < 4294967296 →
    (vmm_get_page_entry s.mm.kheap.mem s.curr_page_directory va = NULL ↔
      mmu_page_entry s.mm.kheap.mem s.curr_page_directory va = none)
  entry : ∀ va, va < 4294967296 →
    vmm_get_page_entry s.mm.kheap.mem s.curr_page_directory va ≠ NULL →
    ∃ pa, mmu_page_entry s.mm.kheap.mem s.curr_page_directory va = some pa ∧
      vmm_virtual_to_physical_address s.mm.kheap.mem s.curr_page_directory
        (vmm_get_page_entry s.mm.kheap.mem s.curr_page_directory va) = some pa

/-! ## The invariant -/

/-- The entry of a slot is present when the slot has a table, and has the frame that the
linear mapping gives to the table. -/
def SlotNamed (m : Mem) (dir i : Nat) : Prop :=
  (tablePtr m dir i = 0 → field (slotWord m dir i) 0 1 = 0) ∧
  (tablePtr m dir i ≠ 0 → field (slotWord m dir i) 0 1 = 1 ∧
    field (slotWord m dir i) 12 20 = sub32 (tablePtr m dir i) VMM_KERNEL_SPACE_BASE / 4096)

/-- The page is in use, and mapped to the frame of the linear mapping. -/
def LinearPage (m : Mem) (dir page : Nat) : Prop :=
  pagePresent m dir page ∧ pageUsed m dir page ∧ KERNEL_PAGE + pageFrame m dir page = page

/-- The page lies in the kernel image as a whole. -/
def InImage (image : KernelImage) (page : Nat) : Prop :=
  kernel_virtual_start ≤ page * 4096 ∧ page * 4096 + 4096 ≤ image.kernel_virtual_end

/-- What each page keeps that is mapped outside of the image: the placement area lies in
the image, whose pages stay where the boot has put them. -/
structure WalkKept (image : KernelImage) (s : Mm) (dir : Nat) : Prop where
  paged : ∃ grants, Paged s dir grants
  start : s.kheap.kheap_placement_memory = image.kheap_placement_memory
  image : ∀ page, InImage image page → LinearPage s.kheap.mem dir page
  slot : ∀ i, i < 1024 → SlotNamed s.kheap.mem dir i

section

variable {image : KernelImage} {s t : Mm} {dir : Nat}

theorem SlotNamed.congr {m m' : Mem} {i : Nat} (h : SlotNamed m dir i)
    (hptr : tablePtr m' dir i = tablePtr m dir i)
    (hslot : slotWord m' dir i = slotWord m dir i) : SlotNamed m' dir i := by
  unfold SlotNamed
  rw [hptr, hslot]
  exact h

theorem LinearPage.congr {m m' : Mem} {page : Nat} (h : LinearPage m dir page)
    (hpage : pageWord m' dir page = pageWord m dir page) : LinearPage m' dir page := by
  unfold LinearPage pagePresent pageUsed pageFrame
  rw [hpage]
  exact h

theorem InImage.lt {page : Nat} (h : InImage image page) : page < 0x100000 := by
  have hend := image.end_lt
  have hpage := h.2
  omega

/-- The placement area lies in the image. -/
theorem inImage_of_area {table : Nat}
    (hplace : s.kheap.kheap_placement_memory = image.kheap_placement_memory)
    (h : InArea s table) : InImage image (table / 4096) := by
  obtain ⟨haligned, h1, h2⟩ := h
  have h3 := image.start_le
  have h4 := image.stop_le
  rw [hplace] at h1 h2
  unfold SIZEOF_PAGE_TABLE at h2
  refine ⟨?_, ?_⟩ <;> omega

/-- The directory translates the addresses of a page of the area as the linear mapping does. -/
theorem WalkKept.translate (h : WalkKept image s dir) {table : Nat} (harea : InArea s table)
    {offset : Nat} (hoffset : offset < 4096) :
    vmm_virtual_to_physical_address s.kheap.mem dir (table + offset) =
      some (sub32 table VMM_KERNEL_SPACE_BASE + offset) := by
  obtain ⟨grants, hpaged⟩ := h.paged
  have himage := inImage_of_area h.start harea
  obtain ⟨hpresent, -, hframe⟩ := h.image _ himage
  have haligned := harea.1
  have hlt := himage.lt
  obtain ⟨i, hi⟩ : ∃ i, table / 4096 = KERNEL_PAGE + i := ⟨_, hframe.symm⟩
  rw [hi, Nat.add_left_cancel_iff] at hframe
  rw [hi] at hpresent
  have hva : (table + offset) / 4096 = KERNEL_PAGE + i := by omega
  have hlinear : sub32 table VMM_KERNEL_SPACE_BASE = i * 4096 := by
    unfold sub32 VMM_KERNEL_SPACE_BASE
    unfold KERNEL_PAGE at hi
    omega
  have hrest : (table + offset) % 4096 = offset := by omega
  rw [linear_translation hpaged.dir_ne hva hpresent hframe, hlinear, hrest]

/-- Marks leave the walks as they are. -/
theorem WalkKept.marked (h : WalkKept image s dir) (ht : Marked s t) : WalkKept image t dir := by
  obtain ⟨grants, hpaged⟩ := h.paged
  obtain ⟨hpaged', hsame⟩ := hpaged.marked ht
  refine ⟨⟨grants, hpaged'⟩, ?_, ?_, ?_⟩
  · rw [ht.kheap]
    exact h.start
  · intro page hpage
    apply (h.image page hpage).congr
    exact hsame.page page hpage.lt
  · intro i hi
    exact (h.slot i hi).congr (hsame.ptr i hi) (hsame.slot i hi)

/-- A page outside of the image is mapped: a new table lies in the image, and so the
directory has its frame. -/
theorem WalkKept.mapped (h : WalkKept image s dir) {va pa : Nat} {grants : List Grant}
    (hout : ¬ InImage image (va / 4096))
    (hmapped : Mapped s t dir dir va pa true true grants) : WalkKept image t dir := by
  obtain ⟨grants', hpaged', -⟩ := hmapped.paged
  refine ⟨⟨grants', hpaged'⟩, hmapped.start.trans h.start, ?_, ?_⟩
  · intro page hpage
    apply (h.image page hpage).congr
    rw [hmapped.page page hpage.lt, if_neg]
    intro heq
    exact hout (heq ▸ hpage)
  · intro i hi
    by_cases hnew : i = va / 4096 / 1024 ∧ tablePtr s.kheap.mem dir i = 0
    · obtain ⟨rfl, hempty⟩ := hnew
      obtain ⟨phys, w, hphys, hword⟩ := hmapped.slot_new hempty
      have harea := hpaged'.table_inArea hi hmapped.table
      unfold InArea at harea
      rw [hmapped.start] at harea
      have hlinear := h.translate harea (show 0 < 4096 by decide)
      rw [Nat.add_zero, Nat.add_zero, hphys, Option.some.injEq] at hlinear
      have hlt := sub32_lt (tablePtr t.kheap.mem dir (va / 4096 / 1024)) VMM_KERNEL_SPACE_BASE
      refine ⟨fun hzero => absurd hzero hmapped.table, fun _ => ?_⟩
      rw [hword, slotEntryWord_present, hlinear, Nat.shiftRight_eq_div_pow,
        slotEntryWord_base _ _ (by omega)]
      exact ⟨rfl, rfl⟩
    · obtain ⟨hptr, hslot⟩ := hmapped.slot i hi (by tauto)
      exact (h.slot i hi).congr hptr hslot

end

/-! ## One call -/

/-- No page that is mapped for an explicit range lies in the kernel image. -/
def AvoidsImage (image : KernelImage) (c : MapCall) : Prop :=
  c.virtual_address ≠ 0 → ∀ i, i * 4096 < c.size.toNat →
    ¬ InImage image (rangePage c.virtual_address.toNat i)

theorem walk_call {image : KernelImage} {s t : Vmm} {c : MapCall} (hsteady : Steady s)
    (h : WalkKept image s.mm s.curr_page_directory) (havoid : AvoidsImage image c)
    (hstep : call_step s c = some t) :
    WalkKept image t.mm t.curr_page_directory ∧ t.cr3 = s.cr3 ∧
      t.curr_page_directory = s.curr_page_directory := by
  obtain ⟨ret, heq⟩ := call_step_eq.mp hstep
  rcases map_call_done hsteady heq with
    ⟨-, rfl, -⟩ | ⟨va, pa, mm, hva, hsearch, hgiven, -, hrange, rfl⟩
  · exact ⟨h, rfl, rfl⟩
  · refine ⟨?_, rfl, rfl⟩
    obtain ⟨grants, hpaged⟩ := h.paged
    obtain ⟨hpages, u, hloop, -, hend⟩ :=
      map_range_done hpaged hsteady.zero hva c.size.toNat_lt hrange
    -- The pages that the loop comes to are explicit, or were not in use.
    have hout : ∀ i, i < div_up c.size.toNat PAGE_SIZE → ¬ InImage image (rangePage va i) := by
      intro i hi
      have hsize : i * 4096 < c.size.toNat := by omega
      by_cases hnull : c.virtual_address = 0
      · intro hpage
        exact hsearch hnull i hsize (h.image _ hpage).2.1
      · rw [hgiven hnull]
        exact havoid hnull i hsize
    have hmapped : WalkKept image u s.curr_page_directory := by
      refine map_pages_keeps (motive := fun s' => WalkKept image s' s.curr_page_directory) ?_ _ h
        (Nat.le_of_eq (Nat.zero_add _)) hloop
      intro s' i v hkept hi hne hmap
      obtain ⟨_, hpaged'⟩ := hkept.paged
      obtain ⟨f, hfound, hlt, -, -⟩ := found_frame hpaged'.frames hne
      unfold TOP_FRAME at hlt
      have hpa : pmm_find_free_frame_from s' pa < 4294967296 := by
        rw [hfound]
        omega
      refine hkept.mapped ?_
        (map_and_reserve hpaged' _ (add32_lt _ _) hpa (Or.inr rfl) hmap).1
      rw [(range_address (Nat.mul_mod_left _ _) i).1, rangePage_down]
      exact hout i hi
    rcases hend with ⟨-, -, rfl⟩ | ⟨-, -, hunmapped⟩
    · exact hmapped
    · exact hmapped.marked hunmapped.marked

/-! ## The walks after every run -/

/-- What every call keeps that avoids the image. -/
structure WalksKept (image : KernelImage) (s : Vmm) : Prop where
  steady : Steady s
  kept : WalkKept image s.mm s.curr_page_directory
  cr3 : s.cr3 = sub32 s.curr_page_directory VMM_KERNEL_SPACE_BASE

theorem walks_boot {image : KernelImage} {m : Mem} {mmap : List MmapEntry} {w : Vmm}
    (hboot : init_kernel_memory image m mmap = .done () w) : WalksKept image w := by
  obtain ⟨v, -, hplace, hbooted⟩ := boot_spec hboot
  have hlinear := hbooted.part.linear
  refine ⟨steady_boot hboot, ⟨hbooted.part.paged, hbooted.part.start.trans hplace, ?_, ?_⟩,
    hbooted.cr3⟩
  · intro page hpage
    have hlt : page - KERNEL_PAGE < bootPages image.kernel_virtual_end := by
      have h1 := image.start_le
      have h2 := image.stop_le
      have h3 := hpage.2
      unfold bootPages KERNEL_PAGE
      rw [imagePages_eq (by omega) image.end_lt]
      unfold kernel_virtual_start
      omega
    have hin : KERNEL_PAGE + (page - KERNEL_PAGE) = page := by
      have h1 := hpage.1
      unfold kernel_virtual_start at h1
      unfold KERNEL_PAGE
      omega
    obtain ⟨hpresent, hused, hframe⟩ := hlinear.mapped _ hlt
    rw [hin] at hpresent hused hframe
    refine ⟨hpresent, hused, ?_⟩
    rw [hframe, hin]
  · intro i hi
    exact hlinear.slot i hi

theorem walks_call {image : KernelImage} {s t : Vmm} {c : MapCall} (h : WalksKept image s)
    (havoid : AvoidsImage image c) (hstep : call_step s c = some t) : WalksKept image t := by
  obtain ⟨hkept, hcr3, hdir⟩ := walk_call h.steady h.kept havoid hstep
  refine ⟨steady_call h.steady hstep, hkept, ?_⟩
  rw [hcr3, hdir]
  exact h.cr3

theorem mmu_page_entry_eq (m : Mem) (dir va : Nat) :
    mmu_page_entry m dir va = if field (slotWord m dir (va / 4096 / 1024)) 0 1 = 0 then none
      else some (field (slotWord m dir (va / 4096 / 1024)) 12 20 * 4096 +
        4 * (va / 4096 % 1024)) := by
  unfold mmu_page_entry
  rw [directory_index_eq, table_index_eq]
  simp only [Nat.shiftLeft_eq]
  rfl

/-- The frame of a table is where the directory maps it. -/
theorem WalkKept.table {image : KernelImage} {s : Mm} {dir i offset : Nat}
    (h : WalkKept image s dir) (hi : i < 1024) (htable : tablePtr s.kheap.mem dir i ≠ 0)
    (hoffset : offset < 4096) :
    vmm_virtual_to_physical_address s.kheap.mem dir (tablePtr s.kheap.mem dir i + offset) =
      some (field (slotWord s.kheap.mem dir i) 12 20 * 4096 + offset) := by
  obtain ⟨grants, hpaged⟩ := h.paged
  have harea := hpaged.table_inArea hi htable
  obtain ⟨-, hbase⟩ := (h.slot i hi).2 htable
  have haligned := harea.1
  have hmod : sub32 (tablePtr s.kheap.mem dir i) VMM_KERNEL_SPACE_BASE % 4096 = 0 := by
    unfold sub32 VMM_KERNEL_SPACE_BASE
    omega
  have hframe : sub32 (tablePtr s.kheap.mem dir i) VMM_KERNEL_SPACE_BASE / 4096 * 4096 =
      sub32 (tablePtr s.kheap.mem dir i) VMM_KERNEL_SPACE_BASE := by
    omega
  rw [h.translate harea hoffset, hbase, hframe]

theorem WalksKept.agree {image : KernelImage} {s : Vmm} (h : WalksKept image s) :
    WalksAgree s := by
  obtain ⟨grants, hpaged⟩ := h.steady.paged
  have hslot := h.kept.slot
  have hbit : ∀ i, i < 1024 →
      (field (slotWord s.mm.kheap.mem s.curr_page_directory i) 0 1 = 0 ↔
        tablePtr s.mm.kheap.mem s.curr_page_directory i = 0) := by
    intro i hi
    refine ⟨fun hzero => ?_, (hslot i hi).1⟩
    by_contra hne
    have hone := ((hslot i hi).2 hne).1
    omega
  refine ⟨?_, ?_, ?_, ?_, ?_⟩
  · intro idx hidx
    have hgrant := hpaged.directory
    obtain ⟨h1, h2⟩ := hpaged.bumped.inside _ hgrant
    have haligned := (is_aligned_iff _).mp
      (hpaged.bumped.aligned _ hgrant (by decide : PAGE_FLAGS &&& MALLOC_FLAG_ALIGN ≠ 0))
    have harea : InArea s.mm s.curr_page_directory := by
      refine ⟨haligned, h1, ?_⟩
      unfold SIZEOF_PAGE_DIRECTORY at h2
      unfold SIZEOF_PAGE_TABLE
      simp only at h2
      omega
    rw [h.cr3]
    exact h.kept.translate harea (by omega)
  · intro idx hidx
    have hone : field (slotWord s.mm.kheap.mem s.curr_page_directory idx) 0 1 < 2 ^ 1 :=
      field_lt _ _ _
    have hiff := hbit idx hidx
    unfold slotWord at hone
    unfold slotWord tablePtr at hiff
    unfold entry_present NULL
    omega
  · intro idx hidx hne
    have htable := h.kept.table hidx hne (show 0 < 4096 by decide)
    rw [Nat.add_zero, Nat.add_zero] at htable
    rw [entry_page_base, Nat.shiftLeft_eq]
    exact htable
  · intro va hva
    have hidx : va / 4096 / 1024 < 1024 := by omega
    rw [get_page_entry_eq _ hpaged.dir_ne, mmu_page_entry_eq]
    simp only [hbit _ hidx]
    by_cases hzero : tablePtr s.mm.kheap.mem s.curr_page_directory (va / 4096 / 1024) = 0
    · simp only [hzero, if_true]
    · simp only [hzero, if_false, reduceCtorEq, iff_false]
      unfold table_entry NULL
      omega
  · intro va hva hne
    have hidx : va / 4096 / 1024 < 1024 := by omega
    rw [get_page_entry_eq _ hpaged.dir_ne] at hne ⊢
    rw [mmu_page_entry_eq]
    simp only [hbit _ hidx]
    by_cases hzero : tablePtr s.mm.kheap.mem s.curr_page_directory (va / 4096 / 1024) = 0
    · exact absurd (if_pos hzero) hne
    · rw [if_neg hzero, if_neg hzero]
      exact ⟨_, rfl, h.kept.table hidx hzero (by omega)⟩

/-- After every boot and every run of calls that leave the kernel image alone, the MMU
and the kernel reach the same entry for every address. -/
theorem the_walks_agree (image : KernelImage) (m : Mem) (mmap : List MmapEntry) {w : Vmm}
    (hboot : init_kernel_memory image m mmap = .done () w) {calls : List MapCall}
    (havoid : ∀ c ∈ calls, AvoidsImage image c) {s : Vmm}
    (hrun : run call_step w calls = some s) : WalksAgree s := by
  have halong : Along call_step (fun _ c => AvoidsImage image c) w calls := along_of_forall havoid
  have hkept : WalksKept image s :=
    run_keeps_along (fun _ _ _ h hcond hstep => walks_call h hcond hstep) (walks_boot hboot)
      halong hrun
  exact hkept.agree

theorem the_walks_agree_after_one_call : ∃ w s,
    init_kernel_memory smallImage (fun _ => 0) (oneRegion 0x300000 0x1000) = .done () w ∧
    run call_step w [onePage] = some s ∧ WalksAgree s := by
  obtain ⟨w, u, hboot, hcall⟩ := small_kernel_maps_one_page
  have hrun : run call_step w [onePage] = some { w with mm := u } :=
    run_cons.mpr ⟨_, call_step_eq.mpr ⟨_, hcall⟩, rfl⟩
  have hva : (0xD0000000 : UInt32).toNat = 0xD0000000 := by decide
  have havoid : ∀ c ∈ [onePage], AvoidsImage smallImage c := by
    intro c hc
    rw [List.mem_singleton.mp hc]
    rintro - i hi ⟨-, hpage⟩
    have hsize : onePage.size.toNat = 4096 := by decide
    have haddr : onePage.virtual_address.toNat = 0xD0000000 := hva
    have hend : smallImage.kernel_virtual_end = 0xC0300000 := rfl
    rw [haddr, hend] at hpage
    unfold rangePage at hpage
    omega
  exact ⟨w, _, hboot, hrun, the_walks_agree smallImage _ _ hboot havoid hrun⟩

end sakana_os
