-- No frame is shared on the machine under paging, as long as the calls leave the kernel image
-- where it is. A call that maps a page of the bitmap anew loses the reservations of the boot.
import SakanaOS.TranslatedCalls

open byte_memory bitmaps bit_fields runs

namespace sakana_os

open translated (Machine Alike Apart Copy LeavesImage Mirrors OnImage Reference Seen mirrors_boot
  machine_boots mirrors_call mirrors_map_step)

/-! ## Runs that leave the image -/

theorem NoFrameShared.alike {s t : Vmm} {n : Nat} (h : NoFrameShared s n)
    (halike : Alike s.mm t.mm s.curr_page_directory)
    (hdir : t.curr_page_directory = s.curr_page_directory) (hn : n ≤ 0x40000) :
    NoFrameShared t n := by
  have hword : ∀ p, p < 0x100000 → pageWord t.mm.kheap.mem t.curr_page_directory p =
      pageWord s.mm.kheap.mem s.curr_page_directory p := by
    rw [hdir]
    exact halike.tables.page
  have hpresent : ∀ p, p < 0x100000 → (pagePresent t.mm.kheap.mem t.curr_page_directory p ↔
      pagePresent s.mm.kheap.mem s.curr_page_directory p) := by
    intro p hp
    unfold pagePresent
    rw [hword p hp]
  have hframe : ∀ p, p < 0x100000 → pageFrame t.mm.kheap.mem t.curr_page_directory p =
      pageFrame s.mm.kheap.mem s.curr_page_directory p := by
    intro p hp
    unfold pageFrame
    rw [hword p hp]
  refine ⟨fun p q hp hq hp' hq' heq => ?_, fun p hp hp' => ?_, fun f hf => ⟨?_, ?_⟩⟩
  · rw [hframe p hp, hframe q hq] at heq
    exact h.apart p q hp hq ((hpresent p hp).mp hp') ((hpresent q hq).mp hq') heq
  · have hlt : pageFrame s.mm.kheap.mem s.curr_page_directory p < 0x100000 := field_lt _ _ _
    rw [hframe p hp, halike.bits _ hlt]
    exact h.reserved p hp ((hpresent p hp).mp hp')
  · rw [halike.bits f (by omega)]
    exact (h.image f hf).1
  · intro p hp hp' heq
    rw [hframe p hp] at heq
    exact (h.image f hf).2 p hp ((hpresent p hp).mp hp') heq

/-- After every boot and every run of calls that succeed and leave the kernel image where it
is, no frame is shared. -/
theorem no_frame_is_shared (image : KernelImage) (ram : Mem) (mmap : List MmapEntry) {w : Machine}
    (hboot : translated.init_kernel_memory image ram mmap = .done () w) {calls : List MapCall}
    (hleave : ∀ c ∈ calls, LeavesImage image c) {s : Machine}
    (hrun : run translated.map_step w calls = some s) : NoFrameShared s.vmm image.pages := by
  obtain ⟨v, hboot', hv⟩ := mirrors_boot hboot
  obtain ⟨_, -, -, hbooted⟩ := boot_spec hboot'
  have hstart : Unshared v.mm v.curr_page_directory image.pages :=
    unshared_boot hbooted.part image.pages_le
  have halong : Along translated.map_step (fun _ c => LeavesImage image c) w calls :=
    along_of_forall hleave
  have hstep : ∀ s t c s',
      Mirrors image s t ∧ Unshared t.mm t.curr_page_directory image.pages →
      LeavesImage image c → translated.map_step s c = some s' → ∃ t', map_step t c = some t' ∧
        Mirrors image s' t' ∧ Unshared t'.mm t'.curr_page_directory image.pages := by
    rintro s t c s' ⟨hs, hunshared⟩ hc hstep
    obtain ⟨t', hstep', hs'⟩ := mirrors_map_step hs hc hstep
    exact ⟨t', hstep', hs', unshared_step hunshared hstep'⟩
  obtain ⟨t, -, hs, hunshared⟩ := run_refines hstep ⟨hv, hstart⟩ halong hrun
  exact hunshared.noFrameShared.alike hs.alike hs.directory image.pages_le

/-! ## The small kernel on its machine -/

/-- A call for a page or two behind the kernel leaves the image. -/
theorem small_leaves {c : MapCall} (hva : c.virtual_address.toNat / 4096 = 0xD0000)
    (hpages : div_up c.size.toNat PAGE_SIZE ≤ 2) : LeavesImage smallImage c := by
  refine ⟨by omega, fun _ i hi hpage => ?_⟩
  have hend : smallImage.kernel_virtual_end = 0xC0300000 := rfl
  have hhigh := hpage.2
  rw [hend] at hhigh
  unfold rangePage at hhigh
  omega

/-- What a call for the page behind the kernel does in the small kernel, it does on the
machine. -/
theorem small_machine_maps_a_page : ∃ w v,
    translated.init_kernel_memory smallImage (fun _ => 0) (oneRegion 0x300000 0x1000) =
      .done () w ∧
    Mirrors smallImage w v ∧ Linear v.mm v.curr_page_directory freeFrame ∧
    ∀ c : MapCall, c.virtual_address.toNat / 4096 * 4096 = 0xD0000000 → c.physical_address = 0 →
      div_up c.size.toNat PAGE_SIZE = 1 →
      LeavesImage smallImage c ∧ ∃ t, translated.map_call w c = .done 0xD0000000 t := by
  obtain ⟨v, grants, hboot, -, hlinear, hmap⟩ := small_kernel_maps_a_page
  obtain ⟨w, hdone, -, hmirrors⟩ := machine_boots (fun _ => 0) hboot
  refine ⟨w, v, hdone, hmirrors, hlinear, fun c hva hpa hpages => ?_⟩
  have hleave : LeavesImage smallImage c := small_leaves (by omega) (by omega)
  obtain ⟨u, hcall⟩ := hmap c hva hpa hpages
  obtain ⟨t, hcall', -⟩ := (mirrors_call hmirrors hleave).done_right hcall
  exact ⟨hleave, t, hcall'⟩

theorem no_frame_is_shared_after_one_call : ∃ w s,
    translated.init_kernel_memory smallImage (fun _ => 0) (oneRegion 0x300000 0x1000) =
      .done () w ∧
    run translated.map_step w [onePage] = some s ∧ NoFrameShared s.vmm smallImage.pages := by
  obtain ⟨w, -, hboot, -, -, hmap⟩ := small_machine_maps_a_page
  obtain ⟨hleave, s, hcall⟩ := hmap onePage (by decide) rfl (div_up_page (by decide))
  have hne : 0xD0000000 ≠ NULL := by decide
  have hstep : translated.map_step w onePage = some s := by
    unfold translated.map_step
    rw [hcall]
    exact if_neg hne
  have hrun : run translated.map_step w [onePage] = some s := run_cons.mpr ⟨s, hstep, rfl⟩
  exact ⟨w, s, hboot, hrun, no_frame_is_shared smallImage _ _ hboot
    (List.forall_mem_singleton.mpr hleave) hrun⟩

/-! ## The page of the bitmap, mapped anew -/

/-- A call for the page on which the bitmap of the small kernel starts. -/
def bitmapPage : MapCall := ⟨0xC0204000, 0, 4096, true, true⟩

/-- The pages of the small image, but for the first of the bitmap. -/
def OffBitmap (page : Nat) : Prop := OnImage smallImage page ∧ page ≠ 0xC0204

section

variable {v : Vmm} {start ram : Mem}
  (href : Reference smallImage (OnImage smallImage) v.mm v.curr_page_directory)
  (hbitmap : v.mm.pmm.bitmap = 0xC02042A8)
include href hbitmap

/-- The tables do not lie on the first page of the bitmap. -/
theorem small_reference : Reference smallImage OffBitmap v.mm v.curr_page_directory := by
  obtain ⟨grants, hpaged⟩ := href.paged
  obtain ⟨hdir, htables⟩ := hpaged.bitmap_apart
  obtain ⟨haligned, -, -⟩ := href.directory
  rw [hbitmap] at hdir htables
  refine ⟨href.paged, href.start, fun _ hp => hp.1, fun p hp => href.linear p hp.1,
    fun p hp => href.slot p hp.1, fun x h1 h2 => ⟨href.dir_kept x h1 h2, ?_⟩,
    fun i hi htable x h1 h2 => ⟨href.table_kept i hi htable x h1 h2, ?_⟩⟩
  · unfold SIZEOF_PAGE_DIRECTORY at h2 hdir
    omega
  · have hapart := htables i hi htable
    obtain ⟨haligned', -, -⟩ := href.table hi htable
    unfold SIZEOF_PAGE_TABLE at h2 hapart
    omega

/-- When the entry of the page names the frame behind the image, the MMU finds the bitmap
there. -/
theorem remapped_mmu {m : Mem}
    (hseen : Seen smallImage OffBitmap v.mm v.curr_page_directory start ram m)
    (hentry : load32 m (table_entry (tablePtr v.mm.kheap.mem v.curr_page_directory 768) 0x204) =
      mapWord (pageWord v.mm.kheap.mem v.curr_page_directory 0xC0204) freeFrame true true) {x : Nat}
    (hx : x / 4096 = 0xC0204) :
    translated.mmu ram (sub32 v.curr_page_directory VMM_KERNEL_SPACE_BASE) x =
      some (freeFrame * 4096 + x % 4096) := by
  have hkept : OffBitmap 0xC0205 := by
    refine ⟨⟨?_, ?_⟩, by decide⟩
    · decide
    · show 0xC0205 * 4096 < 0xC0300000
      decide
  obtain ⟨hfound, hword⟩ := hseen.entry (small_reference href hbitmap) hkept
    (show x / 4096 / 1024 = 0xC0205 / 1024 by rw [hx])
  have hslot : 0xC0205 / 1024 = 768 := by decide
  have hindex : x / 4096 % 1024 = 0x204 := by rw [hx]
  rw [hslot, hindex] at hfound hword
  unfold translated.mmu
  rw [hfound, Option.bind_some]
  unfold entry_present entry_page_base
  rw [hword, hentry, mapWord_present, mapWord_base _ _ _ _ (by decide), if_neg (by decide),
    memory_offset_eq, Nat.shiftLeft_eq, show (2 : Nat) ^ 12 = 4096 by norm_num]

/-- The entry of the page gets the frame behind the image, and no other entry changes. -/
theorem remap_bitmap_page (hcr3 : v.cr3 = sub32 v.curr_page_directory VMM_KERNEL_SPACE_BASE)
    (hcopy : Copy smallImage start ram v.mm.kheap.mem) : ∃ ram' t,
    translated.vmm_map_page (.of ram v) v.curr_page_directory v.curr_page_directory 0xC0204000
      (freeFrame * 4096) true true = .done () (.of ram' { v with mm := t }) ∧
    t.pmm = v.mm.pmm ∧
    Seen smallImage OffBitmap v.mm v.curr_page_directory start ram' t.kheap.mem ∧
    load32 t.kheap.mem (table_entry (tablePtr v.mm.kheap.mem v.curr_page_directory 768) 0x204) =
      mapWord (pageWord v.mm.kheap.mem v.curr_page_directory 0xC0204) freeFrame true true ∧
    (∀ i, i < 1024 → tablePtr t.kheap.mem v.curr_page_directory i =
      tablePtr v.mm.kheap.mem v.curr_page_directory i) ∧
    pageWord t.kheap.mem v.curr_page_directory KERNEL_PAGE =
      pageWord v.mm.kheap.mem v.curr_page_directory KERNEL_PAGE := by
  obtain ⟨grants, hpaged⟩ := href.paged
  have hpage : OnImage smallImage 0xC0204 := by
    refine ⟨by decide, ?_⟩
    show 0xC0204 * 4096 < 0xC0300000
    decide
  have htable : tablePtr v.mm.kheap.mem v.curr_page_directory 768 ≠ 0 := (href.present hpage).2
  have hold : pageWord v.mm.kheap.mem v.curr_page_directory 0xC0204 = load32 v.mm.kheap.mem
      (table_entry (tablePtr v.mm.kheap.mem v.curr_page_directory 768) 0x204) := if_neg htable
  have hlt : mapWord (pageWord v.mm.kheap.mem v.curr_page_directory 0xC0204) freeFrame true true <
      4294967296 := by
    rw [hold]
    exact mapWord_lt _ _ _ _ (load32_lt _ _)
  have href' := small_reference href hbitmap
  have hapart : Apart smallImage OffBitmap v.mm v.curr_page_directory
      (table_entry (tablePtr v.mm.kheap.mem v.curr_page_directory 768) 0x204) 4 :=
    href'.entry_apart (show 0xC0204 < 0x100000 by decide) htable fun h => h.2 rfl
  obtain ⟨-, hptrs, hpages, -, -⟩ :=
    write_entry hpaged (show 0xC0204 < 0x100000 by decide) htable hlt
  obtain ⟨x, hentry, ram', rfl, hseen⟩ := (translated.simulates_map_entry (t := v.mm) hcr3 href'
    (href'.seen hcopy) hapart 1 0 (PAGE_FLAG_USED ||| PAGE_FLAG_PRESENT) freeFrame).done_right rfl
  have hstores := map_entry_eq v.mm.kheap.mem
    (table_entry (tablePtr v.mm.kheap.mem v.curr_page_directory 768) 0x204) freeFrame true true
  simp only [if_true] at hstores
  rw [hstores, ← hold] at hentry hseen
  refine ⟨ram', v.mm.setMem (store32 v.mm.kheap.mem
    (table_entry (tablePtr v.mm.kheap.mem v.curr_page_directory 768) 0x204)
    (mapWord (pageWord v.mm.kheap.mem v.curr_page_directory 0xC0204) freeFrame true true)),
    ?_, rfl, hseen, load32_store32 _ _ hlt, fun i hi => (hptrs i hi).1, ?_⟩
  · have htables := translated.seen_map_table_old (s := v.mm) hcr3 href hcopy
      (show 0xC0204000 < 4294967296 by decide) htable
    have hindex : paging_table_index 0xC0204000 = 0x204 := table_index_eq _
    have hframe : pmm_address_to_index (freeFrame * 4096) = freeFrame :=
      (address_to_index_eq _).trans (Nat.mul_div_cancel _ (by decide))
    unfold translated.vmm_map_page
    rw [htables, Outcome.done_andThen]
    simp only [hindex, hframe, if_true]
    exact hentry
  · exact (hpages KERNEL_PAGE (by decide)).trans (if_neg (by decide))

/-- The kernel reads the bitmap from the frame behind the image, finds all frames free, and
writes the reservation of that frame there. -/
theorem remapped_set_frame {t : Mm}
    (hcr3 : v.cr3 = sub32 v.curr_page_directory VMM_KERNEL_SPACE_BASE)
    (ht : t.pmm = v.mm.pmm)
    (hseen : Seen smallImage OffBitmap v.mm v.curr_page_directory start ram t.kheap.mem)
    (hentry : load32 t.kheap.mem
        (table_entry (tablePtr v.mm.kheap.mem v.curr_page_directory 768) 0x204) =
      mapWord (pageWord v.mm.kheap.mem v.curr_page_directory 0xC0204) freeFrame true true)
    (hzero : ∀ x, x / 4096 = freeFrame → ram x = 0) :
    ∃ ram' u, translated.pmm_mark_frame_reserved (.of ram { v with mm := t }) (freeFrame * 4096) =
        .done () (.of ram' { v with mm := u }) ∧ u.kheap.mem = t.kheap.mem ∧
      u.pmm.bitmap = 0xC02042A8 ∧
      Seen smallImage OffBitmap v.mm v.curr_page_directory ram' ram' t.kheap.mem ∧
      ram' (freeFrame * 4096 + 0x2A8) = 0 := by
  have hfound : translated.mmu ram v.cr3 (0xC02042A8 + 96) = some (freeFrame * 4096 + 0x308) := by
    rw [hcr3, remapped_mmu href hbitmap hseen hentry (by decide)]
  have hindex : pmm_address_to_index (freeFrame * 4096) = 768 := by
    rw [address_to_index_eq]
    decide
  have hbyte : translated.view ram v.cr3 (0xC02042A8 + 96) = 0 := by
    unfold translated.view
    rw [hfound]
    exact hzero _ (by decide)
  have hclear : pmm_test_frame (Machine.of ram { v with mm := t }).mm 768 = false := by
    unfold pmm_test_frame
    simp only [translated.Machine.of_mm, Mm.setMem, ht, hbitmap]
    rw [show 768 / PMM_FRAMES_PER_BITMAP_BYTE = 96 by decide, hbyte]
    decide
  have hplace : (Machine.of ram { v with mm := t }).mm.pmm.bitmap +
      768 / PMM_FRAMES_PER_BITMAP_BYTE = 0xC02042A8 + 96 := by
    simp only [translated.Machine.of_mm, Mm.setMem, ht, hbitmap]
    decide
  unfold translated.pmm_mark_frame_reserved translated.pmm_set_frame
  rw [hindex, hclear, if_neg Bool.false_ne_true]
  simp only [hplace]
  unfold translated.store8
  have hfound' : translated.mmu (Machine.of ram { v with mm := t }).ram
      (Machine.of ram { v with mm := t }).vmm.cr3 (0xC02042A8 + 96) =
      some (freeFrame * 4096 + 0x308) := hfound
  rw [hfound']
  refine ⟨store8 ram (freeFrame * 4096 + 0x308) _, ⟨t.kheap, { t.pmm with
    num_memory_frames_used := add32 t.pmm.num_memory_frames_used 1 }⟩, rfl, rfl, ?_, ?_, ?_⟩
  · simp only [ht, hbitmap]
  · refine ⟨⟨fun x hlow hhigh => ?_, fun _ _ => rfl⟩, hseen.slot, hseen.page⟩
    rw [store8_ne _ _ ?_]
    · exact hseen.copy.same x hlow hhigh
    · have hend : smallImage.kernel_virtual_end = 0xC0300000 := rfl
      rw [hend] at hhigh
      unfold VMM_KERNEL_SPACE_BASE freeFrame
      omega
  · rw [store8_ne _ _ (by decide)]
    exact hzero _ (by decide)

/-- The bit of frame 0 is clear in the frame that the bitmap is read from. -/
theorem remapped_test_frame {m : Mem} {u : Mm}
    (hcr3 : v.cr3 = sub32 v.curr_page_directory VMM_KERNEL_SPACE_BASE)
    (hseen : Seen smallImage OffBitmap v.mm v.curr_page_directory start ram m)
    (hentry : load32 m (table_entry (tablePtr v.mm.kheap.mem v.curr_page_directory 768) 0x204) =
      mapWord (pageWord v.mm.kheap.mem v.curr_page_directory 0xC0204) freeFrame true true)
    (hu : u.pmm.bitmap = 0xC02042A8) (hbyte : ram (freeFrame * 4096 + 0x2A8) = 0) :
    pmm_test_frame (Machine.of ram { v with mm := u }).vmm.mm 0 = false := by
  have hfound := remapped_mmu href hbitmap hseen hentry
    (show 0xC02042A8 / 4096 = 0xC0204 by decide)
  have hzero : translated.view ram v.cr3 0xC02042A8 = 0 := by
    unfold translated.view
    rw [hcr3, hfound]
    exact hbyte
  unfold pmm_test_frame
  show ((translated.view ram v.cr3 (u.pmm.bitmap + 0)).toNat &&& 1 <<< 0 != 0) = false
  rw [hu, Nat.add_zero, hzero]
  rfl

end

/-- A call for one page maps the first free frame and marks it. -/
theorem map_bitmap_page {v : Vmm} {ram ram₁ ram₂ : Mem} {t u : Mm}
    (hfree : ∀ pa, pa / 4096 ≤ freeFrame →
      pmm_find_free_frame_from (Machine.of ram v).mm pa = freeFrame * 4096)
    (hmap : translated.vmm_map_page (.of ram v) v.curr_page_directory v.curr_page_directory
      0xC0204000 (freeFrame * 4096) true true = .done () (.of ram₁ { v with mm := t }))
    (hmark : translated.pmm_mark_frame_reserved (.of ram₁ { v with mm := t }) (freeFrame * 4096) =
      .done () (.of ram₂ { v with mm := u })) :
    translated.map_call (.of ram v) bitmapPage =
      .done 0xC0204000 (.of ram₂ { v with mm := u }) := by
  have hva : bitmapPage.virtual_address.toNat = 0xC0204000 := by decide
  have hpa : bitmapPage.physical_address.toNat = NULL := by decide
  have hsize : div_up bitmapPage.size.toNat PAGE_SIZE = 1 := div_up_page (by decide)
  have hdown : paging_align_address_down 0xC0204000 = 0xC0204000 := align_down_eq (by decide)
  have haddr : add32 0xC0204000 (mul32 0 PAGE_SIZE) = 0xC0204000 := by decide +kernel
  have hne : freeFrame * 4096 ≠ NULL := by decide
  have hnull : 0xC0204000 ≠ NULL := by decide
  have hstart : pmm_find_free_frame (Machine.of ram v).mm = freeFrame * 4096 :=
    hfree PMM_PAS_BASE (by decide)
  have hloop : translated.vmm_map_pages v.curr_page_directory 0xC0204000 (freeFrame * 4096) 1 0
      (.of ram v) = .done true (.of ram₂ { v with mm := u }) := by
    unfold translated.vmm_map_pages
    rw [hfree _ (by decide), haddr, if_neg hne, hmap, Outcome.done_andThen, hmark,
      Outcome.done_andThen]
    rfl
  unfold translated.map_call translated.vmm_map_memory translated.vmm_map_range
  simp only [hva, hpa, hsize, hdown, hnull, hstart, hne, if_true, if_false]
  refine (congrArg (Outcome.andThen · _) hloop).trans ?_
  rfl

/-- The call succeeds, and the bits of the boot are lost. -/
theorem small_machine_loses_its_bits : ∃ (w s : Machine),
    translated.init_kernel_memory smallImage (fun _ => 0) (oneRegion 0x300000 0x1000) =
      .done () w ∧
    translated.map_call w bitmapPage = .done 0xC0204000 s ∧
    pmm_test_frame w.vmm.mm 0 = true ∧ pmm_test_frame s.vmm.mm 0 = false ∧
    pagePresent s.vmm.mm.kheap.mem s.vmm.curr_page_directory KERNEL_PAGE ∧
    pageFrame s.vmm.mm.kheap.mem s.vmm.curr_page_directory KERNEL_PAGE = 0 := by
  obtain ⟨v, grants, hboot, hpaged, hlinear, -, -, hbits, hbitmap, hzero⟩ := small_kernel_boots
  obtain ⟨w, hdone, hw, hmirrors⟩ := machine_boots (fun _ => 0) hboot
  obtain ⟨⟨ram, hram, hcopy⟩, href, hsteady, hcr3⟩ := hmirrors
  have hram' : ram = fun pa => v.mm.kheap.mem (VMM_KERNEL_SPACE_BASE + pa) :=
    congrArg Machine.ram (hram.symm.trans hw)
  subst hram
  obtain ⟨ram₁, t, hmap, ht, hseen, hentry, hptrs, hfirst⟩ :=
    remap_bitmap_page href hbitmap hcr3 hcopy
  have hbehind : ∀ x, x / 4096 = freeFrame → ram₁ x = 0 := by
    intro x hx
    have hle : 0xC0300000 ≤ VMM_KERNEL_SPACE_BASE + x := by
      unfold freeFrame at hx
      unfold VMM_KERNEL_SPACE_BASE
      omega
    rw [hseen.copy.behind x hle, hram']
    exact hzero _ hle
  obtain ⟨ram₂, u, hmark, hmem, hu, hseen', hbyte⟩ :=
    remapped_set_frame href hbitmap hcr3 ht hseen hentry hbehind
  rw [← hmem] at hseen' hentry hptrs hfirst
  have hfree : ∀ pa, pa / 4096 ≤ freeFrame →
      pmm_find_free_frame_from (Machine.of ram v).mm pa = freeFrame * 4096 := fun pa hpa =>
    (translated.seen_free hcr3 href hcopy pa).trans (small_kernel_free hpaged.frames hbits hpa)
  have htables := translated.seen_tables hcr3 (small_reference href hbitmap) hseen' hptrs
  have hword : pageWord (Machine.of ram₂ { v with mm := u }).vmm.mm.kheap.mem
      v.curr_page_directory KERNEL_PAGE = pageWord v.mm.kheap.mem v.curr_page_directory
        KERNEL_PAGE := (htables.page KERNEL_PAGE (by decide)).trans hfirst
  obtain ⟨hpresent, -, hframe⟩ := hlinear.mapped 0 (by decide)
  rw [Nat.add_zero] at hpresent hframe
  refine ⟨_, .of ram₂ { v with mm := u }, hdone, map_bitmap_page hfree hmap hmark, ?_,
    remapped_test_frame href hbitmap hcr3 hseen' hentry hu hbyte,
    (congrArg (field · 0 1) hword).trans hpresent, (congrArg (field · 12 20) hword).trans hframe⟩
  refine (translated.seen_bits hcr3 href hcopy (by decide)).trans ?_
  rw [hbits 0 (by decide)]
  rfl

/-- The frames of the boot are free then, though they are mapped. -/
theorem a_remapped_bitmap_loses_the_frames_of_the_boot : ∃ (w s : Machine),
    translated.init_kernel_memory smallImage (fun _ => 0) (oneRegion 0x300000 0x1000) =
      .done () w ∧
    run translated.map_step w [bitmapPage] = some s ∧ ¬ NoFrameShared s.vmm smallImage.pages := by
  obtain ⟨w, s, hboot, hcall, -, hfree, hpresent, hframe⟩ := small_machine_loses_its_bits
  have hne : 0xC0204000 ≠ NULL := by decide
  have hstep : translated.map_step w bitmapPage = some s := by
    unfold translated.map_step
    rw [hcall]
    exact if_neg hne
  refine ⟨w, s, hboot, run_cons.mpr ⟨s, hstep, rfl⟩, fun h => ?_⟩
  have hreserved := h.reserved KERNEL_PAGE (by decide) hpresent
  rw [hframe, hfree] at hreserved
  cases hreserved

end sakana_os
