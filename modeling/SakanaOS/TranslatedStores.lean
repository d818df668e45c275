-- As long as no page of the kernel image is mapped anew, the machine under paging does what
-- the functions of `vmm.c` do on a memory that no page table moves: store for store, the
-- MMU finds each byte of the image where the linear mapping has put it.
import SakanaOS.TranslatedMemory

open byte_memory bitmaps bit_fields runs

namespace sakana_os.translated

open Outcome

/-- The page has a byte of the kernel image. -/
def OnImage (image : KernelImage) (page : Nat) : Prop :=
  kernel_virtual_start ≤ page * 4096 ∧ page * 4096 < image.kernel_virtual_end

/-- The physical memory holds the image as the kernel sees it, and is as it was at the
start behind the image. -/
structure Copy (image : KernelImage) (start ram m : Mem) : Prop where
  same : ∀ x, kernel_virtual_start ≤ x → x < image.kernel_virtual_end →
    ram (x - VMM_KERNEL_SPACE_BASE) = m x
  behind : ∀ x, image.kernel_virtual_end ≤ VMM_KERNEL_SPACE_BASE + x → ram x = start x

/-- The pages that are kept lie on the image, at their places in the linear mapping, and the
directory and its tables lie on them. -/
structure Reference (image : KernelImage) (kept : Nat → Prop) (s₀ : Mm) (dir : Nat) : Prop where
  paged : ∃ grants, Paged s₀ dir grants
  start : s₀.kheap.kheap_placement_memory = image.kheap_placement_memory
  on_image : ∀ page, kept page → OnImage image page
  linear : ∀ page, kept page → LinearPage s₀.kheap.mem dir page
  slot : ∀ page, kept page → SlotNamed s₀.kheap.mem dir (page / 1024)
  dir_kept : ∀ x, dir ≤ x → x < dir + SIZEOF_PAGE_DIRECTORY → kept (x / 4096)
  table_kept : ∀ i, i < 1024 → tablePtr s₀.kheap.mem dir i ≠ 0 →
    ∀ x, tablePtr s₀.kheap.mem dir i ≤ x → x < tablePtr s₀.kheap.mem dir i + SIZEOF_PAGE_TABLE →
      kept (x / 4096)

/-- The memories hold the same image, and the entries on the way to the kept pages are
those of the reference. -/
structure Seen (image : KernelImage) (kept : Nat → Prop) (s₀ : Mm) (dir : Nat)
    (start ram m : Mem) : Prop where
  copy : Copy image start ram m
  slot : ∀ page, kept page →
    slotWord m dir (page / 1024) = slotWord s₀.kheap.mem dir (page / 1024)
  page : ∀ page, kept page →
    load32 m (table_entry (tablePtr s₀.kheap.mem dir (page / 1024)) (page % 1024)) =
      pageWord s₀.kheap.mem dir page

/-- The bytes lie on kept pages of the image, and in no entry on the way to such a page. -/
structure Apart (image : KernelImage) (kept : Nat → Prop) (s₀ : Mm) (dir a n : Nat) : Prop where
  start_le : kernel_virtual_start ≤ a
  le_end : a + n ≤ image.kernel_virtual_end
  pages : ∀ x, a ≤ x → x < a + n → kept (x / 4096)
  slots : ∀ page, kept page → a + n ≤ directory_entry dir (page / 1024) ∨
    directory_entry dir (page / 1024) + 4 ≤ a
  entries : ∀ page, kept page →
    a + n ≤ table_entry (tablePtr s₀.kheap.mem dir (page / 1024)) (page % 1024) ∨
      table_entry (tablePtr s₀.kheap.mem dir (page / 1024)) (page % 1024) + 4 ≤ a

section

variable {image : KernelImage} {kept : Nat → Prop} {s₀ : Mm} {start ram m : Mem} {dir : Nat}

theorem Reference.present (href : Reference image kept s₀ dir) {page : Nat} (hpage : kept page) :
    page / 1024 < 1024 ∧ tablePtr s₀.kheap.mem dir (page / 1024) ≠ 0 := by
  obtain ⟨-, hlt⟩ := href.on_image page hpage
  have hend := image.end_lt
  refine ⟨by omega, fun hnull => ?_⟩
  have hpresent := (href.linear page hpage).1
  unfold pagePresent pageWord at hpresent
  rw [if_pos hnull, field_zero] at hpresent
  cases hpresent

/-- The directory lies in the image. -/
theorem Reference.directory (href : Reference image kept s₀ dir) :
    dir % 4096 = 0 ∧ kernel_virtual_start ≤ dir ∧
      dir + SIZEOF_PAGE_DIRECTORY ≤ image.kernel_virtual_end := by
  obtain ⟨grants, hpaged⟩ := href.paged
  obtain ⟨h1, h2⟩ := hpaged.bumped.inside _ hpaged.directory
  have haligned := (is_aligned_iff _).mp (hpaged.bumped.aligned _ hpaged.directory
    (by decide : PAGE_FLAGS &&& MALLOC_FLAG_ALIGN ≠ 0))
  simp only [href.start] at h1 h2
  exact ⟨haligned, Nat.le_trans image.start_le h1, Nat.le_trans h2 image.stop_le⟩

/-- So does each of its tables. -/
theorem Reference.table (href : Reference image kept s₀ dir) {i : Nat} (hi : i < 1024)
    (htable : tablePtr s₀.kheap.mem dir i ≠ 0) :
    tablePtr s₀.kheap.mem dir i % 4096 = 0 ∧ kernel_virtual_start ≤ tablePtr s₀.kheap.mem dir i ∧
      tablePtr s₀.kheap.mem dir i + SIZEOF_PAGE_TABLE ≤ image.kernel_virtual_end := by
  obtain ⟨grants, hpaged⟩ := href.paged
  obtain ⟨haligned, h1, h2⟩ := hpaged.table_inArea hi htable
  rw [href.start] at h1 h2
  exact ⟨haligned, Nat.le_trans image.start_le h1, Nat.le_trans h2 image.stop_le⟩

/-- A word of the image is found where the linear mapping puts it. -/
theorem Seen.word (h : Seen image kept s₀ dir start ram m) {a : Nat}
    (hstart : kernel_virtual_start ≤ a) (hend : a + 4 ≤ image.kernel_virtual_end) :
    load32 ram (a - VMM_KERNEL_SPACE_BASE) = load32 m a := by
  have hbyte : ∀ i, i < 4 → ram (a - VMM_KERNEL_SPACE_BASE + i) = m (a + i) := by
    intro i hi
    have hplace : a - VMM_KERNEL_SPACE_BASE + i = a + i - VMM_KERNEL_SPACE_BASE := by
      unfold kernel_virtual_start at hstart
      unfold VMM_KERNEL_SPACE_BASE
      omega
    rw [hplace]
    exact h.copy.same (a + i) (by omega) (by omega)
  have hfirst := hbyte 0 (by omega)
  rw [Nat.add_zero, Nat.add_zero] at hfirst
  unfold load32
  rw [hfirst, hbyte 1 (by omega), hbyte 2 (by omega), hbyte 3 (by omega)]

theorem linear_address {frame x : Nat} (h : KERNEL_PAGE + frame = x / 4096) :
    frame * 4096 + x % 4096 = x - VMM_KERNEL_SPACE_BASE := by
  unfold KERNEL_PAGE at h
  unfold VMM_KERNEL_SPACE_BASE
  omega

/-- In the slots of the kept pages, the MMU reads the entries that the kernel has written. -/
theorem Seen.entry (h : Seen image kept s₀ dir start ram m) (href : Reference image kept s₀ dir)
    {p x : Nat} (hp : kept p) (hx : x / 4096 / 1024 = p / 1024) :
    mmu_page_entry ram (sub32 dir VMM_KERNEL_SPACE_BASE) x =
        some (table_entry (tablePtr s₀.kheap.mem dir (p / 1024)) (x / 4096 % 1024) -
          VMM_KERNEL_SPACE_BASE) ∧
      load32 ram (table_entry (tablePtr s₀.kheap.mem dir (p / 1024)) (x / 4096 % 1024) -
          VMM_KERNEL_SPACE_BASE) =
        load32 m (table_entry (tablePtr s₀.kheap.mem dir (p / 1024)) (x / 4096 % 1024)) := by
  obtain ⟨hidx, htable⟩ := href.present hp
  obtain ⟨hnamed, hbase⟩ := (href.slot _ hp).2 htable
  obtain ⟨-, hdir, hdirend⟩ := href.directory
  obtain ⟨haligned, htlow, htend⟩ := href.table hidx htable
  have hlt := image.end_lt
  have hslot := h.slot _ hp
  rw [← hslot] at hnamed hbase
  unfold slotWord at hnamed hbase
  unfold SIZEOF_PAGE_DIRECTORY at hdirend
  unfold SIZEOF_PAGE_TABLE at htend
  simp only [kernel_virtual_start] at *
  have hcr3 : sub32 dir VMM_KERNEL_SPACE_BASE = dir - VMM_KERNEL_SPACE_BASE := by
    unfold VMM_KERNEL_SPACE_BASE
    exact sub32_eq (by omega) (by omega)
  have hptr : sub32 (tablePtr s₀.kheap.mem dir (p / 1024)) VMM_KERNEL_SPACE_BASE =
      tablePtr s₀.kheap.mem dir (p / 1024) - VMM_KERNEL_SPACE_BASE := by
    unfold VMM_KERNEL_SPACE_BASE
    exact sub32_eq (by omega) (by omega)
  -- The entry of the slot, and behind it that of the page.
  have hfirst : load32 ram (directory_entry (dir - VMM_KERNEL_SPACE_BASE) (p / 1024)) =
      load32 m (directory_entry dir (p / 1024)) := by
    have hplace : directory_entry (dir - VMM_KERNEL_SPACE_BASE) (p / 1024) =
        directory_entry dir (p / 1024) - VMM_KERNEL_SPACE_BASE := by
      unfold directory_entry VMM_KERNEL_SPACE_BASE
      omega
    rw [hplace]
    exact h.word (by unfold directory_entry kernel_virtual_start; omega)
      (by unfold directory_entry; omega)
  have hplace : tablePtr s₀.kheap.mem dir (p / 1024) - VMM_KERNEL_SPACE_BASE +
      4 * (x / 4096 % 1024) =
      table_entry (tablePtr s₀.kheap.mem dir (p / 1024)) (x / 4096 % 1024) -
        VMM_KERNEL_SPACE_BASE := by
    unfold table_entry VMM_KERNEL_SPACE_BASE
    omega
  have hframes : (tablePtr s₀.kheap.mem dir (p / 1024) - VMM_KERNEL_SPACE_BASE) / 4096 * 4096 =
      tablePtr s₀.kheap.mem dir (p / 1024) - VMM_KERNEL_SPACE_BASE := by
    unfold VMM_KERNEL_SPACE_BASE
    omega
  refine ⟨?_, h.word (by unfold table_entry kernel_virtual_start; omega)
    (by unfold table_entry; omega)⟩
  rw [hcr3, mmu_page_entry_eq, hx]
  unfold slotWord
  rw [hfirst, hnamed, hbase, hptr, if_neg (by decide), hframes, hplace]

/-- The MMU finds the bytes of the kept pages where the linear mapping puts them. -/
theorem Seen.mmu (h : Seen image kept s₀ dir start ram m) (href : Reference image kept s₀ dir)
    {x : Nat} (hx : kept (x / 4096)) :
    mmu ram (sub32 dir VMM_KERNEL_SPACE_BASE) x = some (x - VMM_KERNEL_SPACE_BASE) := by
  obtain ⟨hentry, hword⟩ := h.entry href hx rfl
  obtain ⟨hpresent, -, hframe⟩ := href.linear _ hx
  unfold pagePresent at hpresent
  unfold pageFrame at hframe
  rw [← h.page _ hx] at hpresent hframe
  unfold translated.mmu
  rw [hentry, Option.bind_some]
  unfold entry_present entry_page_base
  rw [hword, hpresent, if_neg (by decide), memory_offset_eq, Nat.shiftLeft_eq,
    show (2 : Nat) ^ 12 = 4096 by norm_num, linear_address hframe]

/-- The kernel sees the image. -/
theorem Seen.view (h : Seen image kept s₀ dir start ram m) (href : Reference image kept s₀ dir)
    {x : Nat} (hx : kept (x / 4096)) (hend : x < image.kernel_virtual_end) :
    view ram (sub32 dir VMM_KERNEL_SPACE_BASE) x = m x := by
  unfold translated.view
  rw [h.mmu href hx]
  refine h.copy.same x ?_ hend
  have hlow := (href.on_image _ hx).1
  omega

/-- A store apart from the entries is a store to both memories. -/
theorem Seen.change (h : Seen image kept s₀ dir start ram m) {a n : Nat}
    (hapart : Apart image kept s₀ dir a n) {ram' m' : Mem}
    (hcopy : Copy image start ram' m')
    (houtside : ∀ x, x < a ∨ a + n ≤ x → m' x = m x) : Seen image kept s₀ dir start ram' m' := by
  refine ⟨hcopy, fun page hpage => ?_, fun page hpage => ?_⟩
  · rw [← h.slot page hpage]
    have hslot := hapart.slots page hpage
    exact load32_congr fun x h1 h2 => houtside x (by omega)
  · rw [← h.page page hpage]
    have hentry := hapart.entries page hpage
    exact load32_congr fun x h1 h2 => houtside x (by omega)

theorem Seen.store8 (h : Seen image kept s₀ dir start ram m) {a : Nat} (v : UInt8)
    (hapart : Apart image kept s₀ dir a 1) :
    Seen image kept s₀ dir start (byte_memory.store8 ram (a - VMM_KERNEL_SPACE_BASE) v)
      (byte_memory.store8 m a v) := by
  have hstart := hapart.start_le
  have hend := hapart.le_end
  refine h.change hapart ⟨fun x hlow hhigh => ?_, fun x hx => ?_⟩ fun x hx =>
    store8_ne _ _ (by omega)
  · unfold kernel_virtual_start at hstart hlow
    by_cases heq : x = a
    · rw [heq, store8_same, store8_same]
    · rw [store8_ne _ _ heq, store8_ne _ _ (by unfold VMM_KERNEL_SPACE_BASE; omega)]
      exact h.copy.same x hlow hhigh
  · rw [store8_ne _ _ ?_]
    · exact h.copy.behind x hx
    · unfold kernel_virtual_start at hstart
      unfold VMM_KERNEL_SPACE_BASE at *
      omega

theorem Seen.store32 (h : Seen image kept s₀ dir start ram m) {a : Nat} (w : Nat)
    (hapart : Apart image kept s₀ dir a 4) :
    Seen image kept s₀ dir start (byte_memory.store32 ram (a - VMM_KERNEL_SPACE_BASE) w)
      (byte_memory.store32 m a w) := by
  have hstart := hapart.start_le
  have hend := hapart.le_end
  refine h.change hapart ⟨fun x hlow hhigh => ?_, fun x hx => ?_⟩ fun x hx => store32_frame _ _ hx
  · have hsame : ∀ i, x - VMM_KERNEL_SPACE_BASE = a - VMM_KERNEL_SPACE_BASE + i ↔ x = a + i := by
      intro i
      unfold kernel_virtual_start at hstart hlow
      unfold VMM_KERNEL_SPACE_BASE
      omega
    have hfirst := hsame 0
    rw [Nat.add_zero, Nat.add_zero] at hfirst
    unfold byte_memory.store32
    simp only [hfirst, hsame, h.copy.same x hlow hhigh]
  · rw [store32_frame _ _ ?_]
    · exact h.copy.behind x hx
    · unfold kernel_virtual_start at hstart
      unfold VMM_KERNEL_SPACE_BASE at *
      omega

theorem Apart.part {a n b k : Nat} (h : Apart image kept s₀ dir a n) (hlow : a ≤ b)
    (hhigh : b + k ≤ a + n) : Apart image kept s₀ dir b k := by
  refine ⟨Nat.le_trans h.start_le hlow, Nat.le_trans hhigh h.le_end, fun x h1 h2 => ?_,
    fun page hpage => ?_, fun page hpage => ?_⟩
  · exact h.pages x (by omega) (by omega)
  · have := h.slots page hpage
    omega
  · have := h.entries page hpage
    omega

/-- The entry of a page that is not kept lies on the way to no kept page. -/
theorem Reference.entry_apart (href : Reference image kept s₀ dir) {page : Nat}
    (hpage : page < 0x100000) (htable : tablePtr s₀.kheap.mem dir (page / 1024) ≠ 0)
    (hnot : ¬ kept page) :
    Apart image kept s₀ dir
      (table_entry (tablePtr s₀.kheap.mem dir (page / 1024)) (page % 1024)) 4 := by
  obtain ⟨grants, hpaged⟩ := href.paged
  have hidx : page / 1024 < 1024 := by omega
  obtain ⟨-, hstart, hend⟩ := href.table hidx htable
  obtain ⟨hdir, hothers⟩ := hpaged.tables_apart hidx htable
  have hkept := href.table_kept _ hidx htable
  unfold SIZEOF_PAGE_TABLE SIZEOF_PAGE_DIRECTORY at *
  unfold table_entry
  refine ⟨by omega, by omega, fun x h1 h2 => hkept x (by omega) (by omega), fun p hp => ?_,
    fun p hp => ?_⟩
  · obtain ⟨hp', -⟩ := href.present hp
    unfold directory_entry
    omega
  · obtain ⟨hp', htable'⟩ := href.present hp
    by_cases hslot : p / 1024 = page / 1024
    · have hne : p ≠ page := by
        rintro rfl
        exact hnot hp
      unfold table_entry
      rw [hslot]
      omega
    · have hapart := hothers _ hp' hslot htable'
      unfold table_entry
      omega

/-- A slot without a table lies on the way to no kept page. -/
theorem Reference.slot_apart (href : Reference image kept s₀ dir) {i : Nat} (hi : i < 1024)
    (hempty : tablePtr s₀.kheap.mem dir i = 0) :
    Apart image kept s₀ dir (directory_entry dir i) 4 ∧
      Apart image kept s₀ dir (directory_table dir i) 4 := by
  obtain ⟨grants, hpaged⟩ := href.paged
  obtain ⟨-, hstart, hend⟩ := href.directory
  have hkept := href.dir_kept
  have hslots : ∀ p, kept p → p / 1024 < 1024 ∧ p / 1024 ≠ i := by
    intro p hp
    obtain ⟨hp', htable⟩ := href.present hp
    exact ⟨hp', fun heq => htable (heq ▸ hempty)⟩
  have htables : ∀ p, kept p → dir + 8192 ≤ tablePtr s₀.kheap.mem dir (p / 1024) ∨
      tablePtr s₀.kheap.mem dir (p / 1024) + 4096 ≤ dir := by
    intro p hp
    obtain ⟨hp', htable⟩ := href.present hp
    exact (hpaged.tables_apart hp' htable).1
  unfold SIZEOF_PAGE_DIRECTORY at *
  unfold directory_entry directory_table
  refine ⟨⟨by omega, by omega, fun x h1 h2 => hkept x (by omega) (by omega), fun p hp => ?_,
    fun p hp => ?_⟩, ⟨by omega, by omega, fun x h1 h2 => hkept x (by omega) (by omega),
    fun p hp => ?_, fun p hp => ?_⟩⟩
  · have := hslots p hp
    unfold directory_entry
    omega
  · have := htables p hp
    unfold table_entry
    omega
  · have := hslots p hp
    unfold directory_entry
    omega
  · have := htables p hp
    unfold table_entry
    omega

end

/-! ## The whole image -/

theorem onImage_page {image : KernelImage} {x : Nat} (hlow : kernel_virtual_start ≤ x)
    (hhigh : x < image.kernel_virtual_end) : OnImage image (x / 4096) := by
  unfold OnImage
  unfold kernel_virtual_start at *
  omega

section

variable {image : KernelImage} {s t : Mm} {dir : Nat}

/-- The pages of the image are kept when they lie at their places in the linear mapping. -/
theorem reference_of (hpaged : ∃ grants, Paged s dir grants)
    (hstart : s.kheap.kheap_placement_memory = image.kheap_placement_memory)
    (hlinear : ∀ page, OnImage image page → LinearPage s.kheap.mem dir page)
    (hslot : ∀ page, OnImage image page → SlotNamed s.kheap.mem dir (page / 1024)) :
    Reference image (OnImage image) s dir := by
  obtain ⟨grants, h⟩ := hpaged
  have hlow := image.start_le
  have hhigh := image.stop_le
  refine ⟨⟨grants, h⟩, hstart, fun _ hpage => hpage, hlinear, hslot, fun x h1 h2 => ?_,
    fun i hi htable x h1 h2 => ?_⟩
  · obtain ⟨h3, h4⟩ := h.bumped.inside _ h.directory
    simp only [hstart] at h3 h4
    exact onImage_page (by omega) (by omega)
  · obtain ⟨-, h3, h4⟩ := h.table_inArea hi htable
    rw [hstart] at h3 h4
    exact onImage_page (by omega) (by omega)

section

variable (href : Reference image (OnImage image) s dir)
include href

/-- The bytes of the bitmap lie on the way to no page of the image. -/
theorem Reference.bitmap_apart {f : Nat} (hf : f < 0x100000) :
    Apart image (OnImage image) s dir (s.pmm.bitmap + f / 8) 1 := by
  obtain ⟨grants, hpaged⟩ := href.paged
  obtain ⟨h1, h2⟩ := hpaged.bumped.inside _ hpaged.bitmap
  obtain ⟨hdir, htables⟩ := hpaged.bitmap_apart
  have hlow := image.start_le
  have hhigh := image.stop_le
  simp only [href.start] at h1 h2
  unfold SIZEOF_PAGE_DIRECTORY SIZEOF_PAGE_TABLE at *
  refine ⟨by omega, by omega, fun x h3 h4 => onImage_page (by omega) (by omega), fun p hp => ?_,
    fun p hp => ?_⟩
  · obtain ⟨hp', -⟩ := href.present hp
    unfold directory_entry
    omega
  · obtain ⟨hp', htable⟩ := href.present hp
    have hapart := htables _ hp' htable
    unfold table_entry
    omega

/-- The memory of a new table lies on the way to no page of the image. -/
theorem Reference.fresh_apart {table : Nat} (harea : InArea s table) (hfresh : Fresh s dir table) :
    Apart image (OnImage image) s dir table SIZEOF_PAGE_TABLE := by
  obtain ⟨-, h1, h2⟩ := harea
  have hdir := hfresh.directory
  have hlow := image.start_le
  have hhigh := image.stop_le
  rw [href.start] at h1 h2
  unfold SIZEOF_PAGE_DIRECTORY SIZEOF_PAGE_TABLE at *
  refine ⟨by omega, by omega, fun x h3 h4 => onImage_page (by omega) (by omega), fun p hp => ?_,
    fun p hp => ?_⟩
  · obtain ⟨hp', -⟩ := href.present hp
    unfold directory_entry
    omega
  · obtain ⟨hp', htable⟩ := href.present hp
    have hapart := hfresh.tables _ hp' htable
    unfold SIZEOF_PAGE_TABLE at hapart
    unfold table_entry
    omega

/-- An empty table in a slot without one leaves the image where it is. -/
theorem Reference.tabled {slot table : Nat} {grants : List Grant}
    (hempty : tablePtr s.kheap.mem dir slot = 0) (h : Tabled s t dir dir slot table grants) :
    Reference image (OnImage image) t dir := by
  refine reference_of ⟨_, h.paged⟩ (h.start.trans href.start) (fun page hp => ?_) fun page hp => ?_
  · obtain ⟨hp', -⟩ := href.present hp
    exact (href.linear page hp).congr (h.page page (by omega))
  · obtain ⟨hp', htable⟩ := href.present hp
    have hne : page / 1024 ≠ slot := fun heq => htable (heq ▸ hempty)
    exact (href.slot page hp).congr ((h.ptr _ hp').trans (if_neg hne)) (h.slot_ne _ hp' hne)

/-- So does a page that is mapped outside of it. -/
theorem Reference.mapped {va pa : Nat} {is_kernel is_writeable : Bool} {grants : List Grant}
    (hout : ¬ OnImage image (va / 4096))
    (h : Mapped s t dir dir va pa is_kernel is_writeable grants) :
    Reference image (OnImage image) t dir := by
  obtain ⟨grants', hpaged, -⟩ := h.paged
  refine reference_of ⟨grants', hpaged⟩ (h.start.trans href.start) (fun page hp => ?_)
    fun page hp => ?_
  · obtain ⟨hp', -⟩ := href.present hp
    have hne : page ≠ va / 4096 := by
      rintro rfl
      exact hout hp
    exact (href.linear page hp).congr ((h.page page (by omega)).trans (if_neg hne))
  · obtain ⟨hp', htable⟩ := href.present hp
    obtain ⟨hptr, hslot⟩ := h.slot _ hp' (Or.inr htable)
    exact (href.slot page hp).congr hptr hslot

theorem Reference.marked (h : Marked s t) : Reference image (OnImage image) t dir := by
  obtain ⟨grants, hpaged⟩ := href.paged
  obtain ⟨hpaged', hsame⟩ := hpaged.marked h
  refine reference_of ⟨grants, hpaged'⟩ ?_ (fun page hp => ?_) fun page hp => ?_
  · rw [h.kheap]
    exact href.start
  · obtain ⟨hp', -⟩ := href.present hp
    exact (href.linear page hp).congr (hsame.page page (by omega))
  · obtain ⟨hp', -⟩ := href.present hp
    exact (href.slot page hp).congr (hsame.ptr _ hp') (hsame.slot _ hp')

end

/-- The entries of the reference are those of its own memory. -/
theorem Reference.seen {kept : Nat → Prop} {start ram : Mem} (href : Reference image kept s dir)
    (hcopy : Copy image start ram s.kheap.mem) : Seen image kept s dir start ram s.kheap.mem := by
  refine ⟨hcopy, fun _ _ => rfl, fun page hp => ?_⟩
  obtain ⟨-, htable⟩ := href.present hp
  unfold pageWord
  rw [if_neg htable]

end

/-! ## Reads and stores -/

/-- The machine has the statics of the kernel, over a physical memory that is related to
the memory of the kernel. -/
def Over (v : Vmm) (rel : Mem → Mem → Prop) (x : Machine) (t : Mm) : Prop :=
  ∃ ram, x = .of ram { v with mm := t } ∧ rel ram t.kheap.mem

theorem Over.mono {v : Vmm} {rel rel' : Mem → Mem → Prop} {x : Machine} {t : Mm}
    (h : Over v rel x t) (hrel : ∀ ram m, rel ram m → rel' ram m) : Over v rel' x t := by
  obtain ⟨ram, rfl, h⟩ := h
  exact ⟨ram, rfl, hrel _ _ h⟩

section

variable {image : KernelImage} {kept : Nat → Prop} {s₀ : Mm} {start ram : Mem} {dir : Nat} {v : Vmm}
  {t : Mm}
  (hcr3 : v.cr3 = sub32 dir VMM_KERNEL_SPACE_BASE) (href : Reference image kept s₀ dir)
  (h : Seen image kept s₀ dir start ram t.kheap.mem)
include hcr3 href h

/-- What the kernel reads on the kept pages. -/
theorem seen_byte {x : Nat} (hx : kept (x / 4096)) (hend : x < image.kernel_virtual_end) :
    (Machine.of ram { v with mm := t }).mem x = t.kheap.mem x := by
  show view ram v.cr3 x = t.kheap.mem x
  rw [hcr3]
  exact h.view href hx hend

theorem seen_word {a : Nat} (hkept : ∀ x, a ≤ x → x < a + 4 → kept (x / 4096))
    (hend : a + 4 ≤ image.kernel_virtual_end) :
    load32 (Machine.of ram { v with mm := t }).mem a = load32 t.kheap.mem a :=
  load32_congr fun x h1 h2 => seen_byte hcr3 href h (hkept x h1 h2) (by omega)

theorem simulates_store8 {a : Nat} (b : UInt8) (hapart : Apart image kept s₀ dir a 1) :
    Simulates (Over v (Seen image kept s₀ dir start)) (store8 (.of ram { v with mm := t }) a b)
      (.done () (t.setMem (byte_memory.store8 t.kheap.mem a b))) := by
  have hfound : mmu (Machine.of ram { v with mm := t }).ram
      (Machine.of ram { v with mm := t }).vmm.cr3 a = some (a - VMM_KERNEL_SPACE_BASE) := by
    show mmu ram v.cr3 a = _
    rw [hcr3]
    exact h.mmu href (hapart.pages a (Nat.le_refl a) (Nat.lt_succ_self a))
  unfold store8
  rw [hfound]
  exact ⟨rfl, _, rfl, h.store8 b hapart⟩

theorem simulates_store32 {a : Nat} (w : Nat) (hapart : Apart image kept s₀ dir a 4) :
    Simulates (Over v (Seen image kept s₀ dir start)) (store32 (.of ram { v with mm := t }) a w)
      (.done () (t.setMem (byte_memory.store32 t.kheap.mem a w))) := by
  have hfound : mmu (Machine.of ram { v with mm := t }).ram
      (Machine.of ram { v with mm := t }).vmm.cr3 a = some (a - VMM_KERNEL_SPACE_BASE) := by
    show mmu ram v.cr3 a = _
    rw [hcr3]
    exact h.mmu href (hapart.pages a (Nat.le_refl a) (by omega))
  unfold store32
  rw [hfound]
  exact ⟨rfl, _, rfl, h.store32 w hapart⟩

theorem simulates_field {a : Nat} (lo n x : Nat) (hapart : Apart image kept s₀ dir a 4) :
    Simulates (Over v (Seen image kept s₀ dir start))
      (set_entry_field (.of ram { v with mm := t }) a lo n x)
      (.done () (t.setMem (sakana_os.set_entry_field t.kheap.mem a lo n x))) := by
  unfold set_entry_field sakana_os.set_entry_field
  rw [seen_word hcr3 href h hapart.pages hapart.le_end]
  exact simulates_store32 hcr3 href h _ hapart

omit h in
theorem simulates_fill (b : UInt8) (n : Nat) {a : Nat} {ram : Mem} {t : Mm}
    (h : Seen image kept s₀ dir start ram t.kheap.mem) (hapart : Apart image kept s₀ dir a n) :
    Simulates (Over v (Seen image kept s₀ dir start)) (fill a b n (.of ram { v with mm := t }))
      (.done () (t.setMem (byte_memory.fill t.kheap.mem a b n))) := by
  induction n generalizing a ram t with
  | zero => exact ⟨rfl, ram, rfl, h⟩
  | succ n ih =>
    have hfirst : Apart image kept s₀ dir a 1 := hapart.part (Nat.le_refl a) (by omega)
    have hrest : Apart image kept s₀ dir (a + 1) n := hapart.part (by omega) (by omega)
    refine (simulates_store8 hcr3 href h b hfirst).before ?_
    rintro _ ⟨ram', rfl, h'⟩
    exact ih h' hrest

/-- The kernel reads its tables. -/
theorem seen_tables (hptr : ∀ i, i < 1024 →
    tablePtr t.kheap.mem dir i = tablePtr s₀.kheap.mem dir i) :
    SameTables t.kheap.mem (Machine.of ram { v with mm := t }).mem dir := by
  refine sameTables_of (fun x h1 h2 => ?_) fun i hi htable x h1 h2 => ?_
  · exact seen_byte hcr3 href h (href.dir_kept x h1 h2) (by have := href.directory.2.2; omega)
  · rw [hptr i hi] at htable h1 h2
    exact seen_byte hcr3 href h (href.table_kept i hi htable x h1 h2)
      (by have := (href.table hi htable).2.2; omega)

omit h in
/-- A store to a field, before the rest of a function. -/
theorem simulates_entry {a : Nat} (hapart : Apart image kept s₀ dir a 4) {ram m : Mem}
    (h : Seen image kept s₀ dir start ram m) {β : Type} {f : Unit → Machine → Outcome Machine β}
    {o' : Outcome Mm β} {R : Machine → Mm → Prop} (lo n x : Nat)
    (hnext : ∀ ram, Seen image kept s₀ dir start ram (sakana_os.set_entry_field m a lo n x) →
      Simulates R (f () (.of ram
        { v with mm := t.setMem (sakana_os.set_entry_field m a lo n x) })) o') :
    Simulates R
      ((set_entry_field (.of ram { v with mm := t.setMem m }) a lo n x).andThen f) o' := by
  refine (simulates_field (t := t.setMem m) hcr3 href h lo n x hapart).before ?_
  rintro _ ⟨ram', rfl, h'⟩
  exact hnext ram' h'

/-- The five stores to the entry of a page. -/
theorem simulates_map_entry {a : Nat} (hapart : Apart image kept s₀ dir a 4)
    (read_write user_supervisor available frame : Nat) :
    Simulates (Over v (Seen image kept s₀ dir start))
      ((set_present (.of ram { v with mm := t }) a 1).andThen fun _ s =>
        (set_read_write s a read_write).andThen fun _ s =>
        (set_user_supervisor s a user_supervisor).andThen fun _ s =>
        (set_available s a available).andThen fun _ s => set_page_base s a frame)
      (.done () (t.setMem (sakana_os.set_page_base (sakana_os.set_available
        (sakana_os.set_user_supervisor (sakana_os.set_read_write
          (sakana_os.set_present t.kheap.mem a 1) a read_write) a user_supervisor) a available)
        a frame))) := by
  refine simulates_entry (t := t) hcr3 href hapart h 0 1 1 fun ram₁ h₁ => ?_
  refine simulates_entry hcr3 href hapart h₁ 1 1 read_write fun ram₂ h₂ => ?_
  refine simulates_entry hcr3 href hapart h₂ 2 1 user_supervisor fun ram₃ h₃ => ?_
  refine simulates_entry hcr3 href hapart h₃ 9 3 available fun ram₄ h₄ => ?_
  exact simulates_field (t := t.setMem _) hcr3 href h₄ 12 20 frame hapart

/-- A zeroed range from the placement area. -/
theorem simulates_kmalloc {grants : List Grant} (hbumped : Bumped ⟨t.kheap, grants⟩) (size : Nat)
    (hsize : size ≤ 8192)
    (hapart : ∀ p k, sakana_os.kmalloc_flag t.kheap size PAGE_FLAGS = .done p k → p ≠ NULL →
      Apart image kept s₀ dir p size) :
    Simulates (Over v (Seen image kept s₀ dir start))
      (kmalloc_flag (.of ram { v with mm := t }) size PAGE_FLAGS)
      ((sakana_os.kmalloc_flag t.kheap size PAGE_FLAGS).lift fun k => { t with kheap := k }) := by
  have hdisabled : t.kheap.kheap_enabled = false := hbumped.disabled
  have haccount := hbumped.account
  have hfree := hbumped.free_le
  have hpos := hbumped.start_pos
  have hstop := hbumped.stop_lt
  simp only [KHEAP_PLACEMENT_SIZE] at haccount hfree hpos hstop
  obtain ⟨hpad, -, hup⟩ := align_padding (h := t.kheap.kheap_placement_memory_head) (by omega)
  have halign : (PAGE_FLAGS &&& MALLOC_FLAG_ALIGN ≠ 0) = True := eq_true (by decide)
  have hinit : (PAGE_FLAGS &&& MALLOC_FLAG_INIT ≠ 0) = True := eq_true (by decide)
  have hbase : sakana_os.kmalloc_flag t.kheap size PAGE_FLAGS =
      kmalloc_placement_base t.kheap size PAGE_FLAGS := by
    unfold sakana_os.kmalloc_flag kmalloc_base
    rw [hdisabled]
    exact if_neg Bool.false_ne_true
  rw [hbase]
  simp only [hbase] at hapart
  unfold kmalloc_placement_base at hapart ⊢
  unfold kmalloc_flag
  simp only [halign, hinit, if_true] at hapart ⊢
  simp only [Machine.of_mm, Mm.setMem]
  by_cases hfull : add32 size (sub32
      (paging_align_address_up t.kheap.kheap_placement_memory_head)
      t.kheap.kheap_placement_memory_head) > t.kheap.kheap_placement_memory_free_memory
  · simp only [hfull, if_true]
    exact simulates_done _ ⟨ram, rfl, h⟩
  · -- The range ends below 2^32, as it fits into the area.
    simp only [hfull, if_false, done.injEq, and_imp] at hapart ⊢
    have hsum : add32 size (sub32 (paging_align_address_up t.kheap.kheap_placement_memory_head)
        t.kheap.kheap_placement_memory_head) = size +
          sub32 (paging_align_address_up t.kheap.kheap_placement_memory_head)
            t.kheap.kheap_placement_memory_head := add32_eq (by omega)
    rw [hsum] at hfull
    have haddr : paging_align_address_up t.kheap.kheap_placement_memory_head ≠ NULL := by
      rw [hup (by omega)]
      show _ ≠ 0
      omega
    refine Simulates.before (simulates_fill (t := { t with kheap := { t.kheap with
      kheap_placement_memory_head := _
      kheap_placement_memory_free_memory := _ } }) hcr3 href 0 size h
      (hapart _ _ rfl rfl haddr)) ?_
    rintro _ ⟨ram', rfl, h'⟩
    exact simulates_done _ ⟨ram', rfl, h'⟩

end

end sakana_os.translated
