-- The calls of `vmm_map_memory` on the machine under paging. As long as they leave the
-- kernel image where it is, they end as they do on a memory that no page table moves.
import SakanaOS.TranslatedStores

open byte_memory bitmaps bit_fields runs

namespace sakana_os.translated

open Outcome

/-- The tables of the two states are the same, and so are the bits of all frames. -/
structure Alike (s t : Mm) (dir : Nat) : Prop where
  tables : SameTables s.kheap.mem t.kheap.mem dir
  bits : ∀ f, f < 0x100000 → pmm_test_frame t f = pmm_test_frame s f
  frames : s.pmm.num_memory_frames = TOP_FRAME ∧ t.pmm.num_memory_frames = TOP_FRAME

theorem Alike.free {s t : Mm} {dir : Nat} (h : Alike s t dir) (start : Nat) :
    freeFrames t start = freeFrames s start := by
  unfold freeFrames
  rw [h.frames.1, h.frames.2]
  apply List.filter_congr
  intro f hf
  obtain ⟨hle, hlt⟩ := List.mem_range'_1.mp hf
  unfold TOP_FRAME at hlt
  rw [h.bits f (by omega)]

section

variable {image : KernelImage} {start ram : Mem} {dir : Nat} {v : Vmm} {s : Mm}
  (hcr3 : v.cr3 = sub32 dir VMM_KERNEL_SPACE_BASE)
  (href : Reference image (OnImage image) s dir) (hcopy : Copy image start ram s.kheap.mem)
include hcr3 href hcopy

/-! ## Mapping one page -/

/-- The kernel reads the bits of the bitmap. -/
theorem seen_bits {f : Nat} (hf : f < 0x100000) :
    pmm_test_frame (Machine.of ram { v with mm := s }).mm f = pmm_test_frame s f := by
  have hapart := href.bitmap_apart hf
  have hend := hapart.le_end
  have hbyte := seen_byte hcr3 href (href.seen hcopy)
    (hapart.pages _ (Nat.le_refl _) (Nat.lt_succ_self _)) (by omega)
  exact congrArg (fun b : UInt8 => b.toNat &&& (1 <<< (f % 8)) != 0) hbyte

/-- The machine shows the tables and the bits of the kernel. -/
theorem seen_alike : Alike s (Machine.of ram { v with mm := s }).mm dir := by
  obtain ⟨grants, hpaged⟩ := href.paged
  exact ⟨seen_tables hcr3 href (href.seen hcopy) fun _ _ => rfl,
    fun f hf => seen_bits hcr3 href hcopy hf, hpaged.frames, hpaged.frames⟩

/-- The table of a page that has one. -/
theorem seen_map_table_old {va : Nat} (hva : va < 4294967296)
    (htable : tablePtr s.kheap.mem dir (va / 4096 / 1024) ≠ 0) :
    vmm_map_table (.of ram { v with mm := s }) dir dir va =
      .done (tablePtr s.kheap.mem dir (va / 4096 / 1024)) (.of ram { v with mm := s }) := by
  have hptr : tablePtr (Machine.of ram { v with mm := s }).mem dir (va / 4096 / 1024) =
      tablePtr s.kheap.mem dir (va / 4096 / 1024) :=
    (seen_alike hcr3 href hcopy).tables.ptr _ (by omega)
  rw [← hptr] at htable ⊢
  unfold tablePtr at *
  unfold vmm_map_table
  simp only [directory_index_eq, htable, if_false]

/-- A table that was allocated, or was there before. -/
theorem simulates_map_table {va : Nat} (hva : va < 4294967296) :
    Simulates (Over v (Copy image start)) (vmm_map_table (.of ram { v with mm := s }) dir dir va)
      (sakana_os.vmm_map_table s dir dir va) := by
  obtain ⟨grants, hpaged⟩ := href.paged
  have hslot : va / 4096 / 1024 < 1024 := by omega
  have hseen := href.seen hcopy
  by_cases hempty : tablePtr s.kheap.mem dir (va / 4096 / 1024) = 0
  · have hnull : load32 s.kheap.mem (directory_table dir (va / 4096 / 1024)) = NULL := hempty
    have hptr : load32 (Machine.of ram { v with mm := s }).mem
          (directory_table dir (va / 4096 / 1024)) = NULL :=
      ((seen_alike hcr3 href hcopy).tables.ptr _ hslot).trans hempty
    unfold vmm_map_table sakana_os.vmm_map_table
    simp only [directory_index_eq, hptr, hnull, if_true]
    have hkmalloc := simulates_kmalloc hcr3 href hseen hpaged.bumped SIZEOF_PAGE_TABLE (by decide)
      fun p k hp hne => by
        rcases table_alloc hpaged with ⟨heq, -⟩ | ⟨table, k, heq, -, harea, hfresh, -⟩
        · cases heq.symm.trans hp
          exact absurd rfl hne
        · cases heq.symm.trans hp
          exact href.fresh_apart harea hfresh
    unfold PAGE_FLAGS at hkmalloc
    rcases table_alloc hpaged with ⟨heq, -⟩ | ⟨table, k, heq, hne, harea, hfresh, -, -, hsame, -⟩
    · unfold PAGE_FLAGS at heq
      obtain ⟨x, hdone, -⟩ := hkmalloc.done_right (lift_eq_done.mpr ⟨_, heq, rfl⟩)
      simp only [hdone, heq, done_lift, done_andThen, if_true]
      exact ⟨rfl, rfl⟩
    · unfold PAGE_FLAGS at heq
      obtain ⟨x, hdone, ram₁, rfl, h₁⟩ := hkmalloc.done_right (lift_eq_done.mpr ⟨_, heq, rfl⟩)
      have htables := seen_tables hcr3 href h₁ hsame.ptr
      have hlt : table < 4294967296 := by
        have := hfresh.lt
        omega
      have htranslate := virtual_to_physical_congr table (Or.inr rfl : dir = NULL ∨ dir = dir)
        (htables.ptr _ (by omega)) (htables.page _ (by omega))
      simp only [hdone, heq, done_lift, done_andThen, hne, if_false, htranslate]
      cases hphys : vmm_virtual_to_physical_address k.mem dir table with
      | none => trivial
      | some phys =>
        obtain ⟨hentry, htable⟩ := href.slot_apart hslot hempty
        refine simulates_entry (t := ⟨k, s.pmm⟩) hcr3 href hentry h₁ 0 1 1 fun ram₂ h₂ => ?_
        refine simulates_entry hcr3 href hentry h₂ 1 1 1 fun ram₃ h₃ => ?_
        refine simulates_entry hcr3 href hentry h₃ 2 1 1 fun ram₄ h₄ => ?_
        refine simulates_entry hcr3 href hentry h₄ 12 20 (phys >>> 12) fun ram₅ h₅ => ?_
        refine simulates_entry hcr3 href hentry h₅ 7 1 0 fun ram₆ h₆ => ?_
        refine (simulates_store32 (t := Mm.setMem _ _) hcr3 href h₆ table htable).before ?_
        rintro _ ⟨ram₇, rfl, h₇⟩
        exact simulates_done _ ⟨ram₇, rfl, h₇.copy⟩
  · rw [seen_map_table_old hcr3 href hcopy hva hempty, map_table_old va dir hempty]
    exact simulates_done _ ⟨ram, rfl, hcopy⟩

/-- A page that does not lie on the image is mapped. -/
theorem simulates_map_page {va pa : Nat} (is_kernel is_writeable : Bool) (hva : va < 4294967296)
    (hout : ¬ OnImage image (va / 4096)) :
    Simulates (Over v (Copy image start))
      (vmm_map_page (.of ram { v with mm := s }) dir dir va pa is_kernel is_writeable)
      (sakana_os.vmm_map_page s dir dir va pa is_kernel is_writeable) := by
  obtain ⟨grants, hpaged⟩ := href.paged
  unfold vmm_map_page sakana_os.vmm_map_page
  refine (simulates_map_table hcr3 href hcopy hva).andThen ?_
  rintro table _ u - hdone ⟨ram', rfl, hcopy'⟩
  -- The table is in the directory now, and the image is where it was.
  obtain ⟨href', rfl, htable⟩ : Reference image (OnImage image) u dir ∧
      tablePtr u.kheap.mem dir (va / 4096 / 1024) = table ∧ table ≠ 0 := by
    by_cases hempty : tablePtr s.kheap.mem dir (va / 4096 / 1024) = 0
    · rcases map_table_new hpaged hva (Or.inr rfl) hempty with ⟨heq, -⟩ |
        ⟨new, -, hne, ⟨-, t, heq⟩ | ⟨t, heq, ht⟩⟩
      · cases heq.symm.trans hdone
      · cases heq.symm.trans hdone
      · cases heq.symm.trans hdone
        exact ⟨href.tabled hempty ht, (ht.ptr _ (by omega)).trans (if_pos rfl), hne⟩
    · cases (map_table_old va dir hempty).symm.trans hdone
      exact ⟨href, rfl, hempty⟩
  have hapart := href'.entry_apart (show va / 4096 < 0x100000 by omega) htable hout
  rw [← table_index_eq] at hapart
  refine (simulates_map_entry hcr3 href' (href'.seen hcopy') hapart _ _ _ _).mono ?_
  exact fun _ _ _ _ hover => hover.mono fun _ _ hseen => hseen.copy

/-! ## Frames -/

theorem simulates_set_frame {f : Nat} (hf : f < 0x100000) :
    Simulates (Over v (Copy image start)) (pmm_set_frame (.of ram { v with mm := s }) f)
      (.done () (sakana_os.pmm_set_frame s f)) := by
  have hbit := seen_bits hcr3 href hcopy hf
  unfold pmm_set_frame
  by_cases hset : pmm_test_frame s f = true
  · rw [set_frame_same hset, hbit, if_pos hset]
    exact simulates_done _ ⟨ram, rfl, hcopy⟩
  · have hapart := href.bitmap_apart hf
    have hbyte : (Machine.of ram { v with mm := s }).mem (s.pmm.bitmap + f / 8) =
        s.kheap.mem (s.pmm.bitmap + f / 8) :=
      seen_byte hcr3 href (href.seen hcopy)
        (hapart.pages _ (Nat.le_refl _) (Nat.lt_succ_self _)) hapart.le_end
    unfold sakana_os.pmm_set_frame
    rw [hbit, if_neg hset, if_neg hset]
    simp only [Machine.of_mm, Mm.setMem, PMM_FRAMES_PER_BITMAP_BYTE, hbyte]
    refine (simulates_store8 hcr3 href (href.seen hcopy) _ hapart).before ?_
    rintro _ ⟨ram', rfl, h'⟩
    exact simulates_done _ ⟨ram', rfl, h'.copy⟩

theorem simulates_unset_frame {f : Nat} (hf : f < 0x100000) :
    Simulates (Over v (Copy image start)) (pmm_unset_frame (.of ram { v with mm := s }) f)
      (.done () (sakana_os.pmm_unset_frame s f)) := by
  have hbit := seen_bits hcr3 href hcopy hf
  unfold pmm_unset_frame
  by_cases hset : pmm_test_frame s f = true
  · have hapart := href.bitmap_apart hf
    have hbyte : (Machine.of ram { v with mm := s }).mem (s.pmm.bitmap + f / 8) =
        s.kheap.mem (s.pmm.bitmap + f / 8) :=
      seen_byte hcr3 href (href.seen hcopy)
        (hapart.pages _ (Nat.le_refl _) (Nat.lt_succ_self _)) hapart.le_end
    unfold sakana_os.pmm_unset_frame
    rw [hbit, if_neg (not_not_intro hset), if_neg (not_not_intro hset)]
    simp only [Machine.of_mm, Mm.setMem, PMM_FRAMES_PER_BITMAP_BYTE, hbyte]
    refine (simulates_store8 hcr3 href (href.seen hcopy) _ hapart).before ?_
    rintro _ ⟨ram', rfl, h'⟩
    exact simulates_done _ ⟨ram', rfl, h'.copy⟩
  · rw [unset_frame_same (Bool.eq_false_iff.mpr hset), hbit, if_pos hset]
    exact simulates_done _ ⟨ram, rfl, hcopy⟩

/-- A search finds the same frame. -/
theorem seen_free (pa : Nat) :
    pmm_find_free_frame_from (Machine.of ram { v with mm := s }).mm pa =
      pmm_find_free_frame_from s pa := by
  have halike := seen_alike hcr3 href hcopy
  rw [find_free_frame_from_eq halike.frames.1, find_free_frame_from_eq halike.frames.2,
    halike.free]

/-- The kernel reads the translations of its directory. -/
theorem seen_translation {va : Nat} (hva : va < 4294967296) :
    vmm_virtual_to_physical_address (Machine.of ram { v with mm := s }).mem dir va =
      vmm_virtual_to_physical_address s.kheap.mem dir va := by
  have htables := seen_tables hcr3 href (href.seen hcopy) fun _ _ => rfl
  exact virtual_to_physical_congr va (Or.inr rfl) (htables.ptr _ (by omega))
    (htables.page _ (by omega))

end

theorem range_out {image : KernelImage} {va size : Nat}
    (hout : ∀ i, i < div_up size PAGE_SIZE → ¬ OnImage image (rangePage va i)) :
    ∀ j, j < div_up size PAGE_SIZE →
      ¬ OnImage image (add32 (va / 4096 * 4096) (mul32 j PAGE_SIZE) / 4096) := by
  intro j hj
  rw [(range_address (Nat.mul_mod_left _ _) j).1, rangePage_down]
  exact hout j hj

/-- The loop that maps pages outside of the image leaves the image where it is. -/
theorem Reference.range {image : KernelImage} {s u : Mm} {dir va pa turns : Nat} {mapped : Bool}
    (href : Reference image (OnImage image) s dir)
    (hout : ∀ j, j < turns → ¬ OnImage image (add32 va (mul32 j PAGE_SIZE) / 4096))
    (heq : sakana_os.vmm_map_pages dir va pa turns 0 s = .done mapped u) :
    Reference image (OnImage image) u dir := by
  refine map_pages_keeps (motive := fun s' => Reference image (OnImage image) s' dir) ?_ _ href
    (Nat.le_of_eq (Nat.zero_add _)) heq
  intro s' i t href' hi hne hmap
  obtain ⟨grants, hpaged⟩ := href'.paged
  obtain ⟨f, hfound, hlt, -, -⟩ := found_frame hpaged.frames hne
  unfold TOP_FRAME at hlt
  rw [hfound] at hmap ⊢
  exact href'.mapped (hout i hi)
    (map_and_reserve hpaged dir (add32_lt _ _) (by omega) (Or.inr rfl) hmap).1

/-- A page that is translated is translated to an address. -/
theorem virtual_to_physical_lt {m : Mem} {dir va pa : Nat} (hdir : dir ≠ NULL)
    (h : vmm_virtual_to_physical_address m dir va = some pa) : pa < 4294967296 := by
  have hlt : pageFrame m dir (va / 4096) < 2 ^ 20 := field_lt _ _ _
  rw [virtual_to_physical_eq m hdir] at h
  split at h
  · cases h
  · split at h
    · cases h
      decide
    · cases h
      omega

/-! ## The loops -/

section

variable {image : KernelImage} {dir : Nat} {v : Vmm} 
  (hcr3 : v.cr3 = sub32 dir VMM_KERNEL_SPACE_BASE)
include hcr3

theorem simulates_map_pages {va pa : Nat} (turns : Nat) {i : Nat} {start ram : Mem} {s : Mm}
    (href : Reference image (OnImage image) s dir) (hcopy : Copy image start ram s.kheap.mem)
    (hout : ∀ j, i ≤ j → j < i + turns →
      ¬ OnImage image (add32 va (mul32 j PAGE_SIZE) / 4096)) :
    Simulates (Over v (Copy image start))
      (vmm_map_pages dir va pa turns i (.of ram { v with mm := s }))
      (sakana_os.vmm_map_pages dir va pa turns i s) := by
  induction turns generalizing i ram s with
  | zero => exact simulates_done _ ⟨ram, rfl, hcopy⟩
  | succ turns ih =>
    obtain ⟨grants, hpaged⟩ := href.paged
    unfold vmm_map_pages sakana_os.vmm_map_pages
    simp only [seen_free hcr3 href hcopy]
    by_cases hnone : pmm_find_free_frame_from s pa = NULL
    · simp only [hnone, if_true]
      exact simulates_done _ ⟨ram, rfl, hcopy⟩
    · simp only [hnone, if_false]
      obtain ⟨f, hfound, hlt, -, -⟩ := found_frame hpaged.frames hnone
      rw [hfound]
      unfold TOP_FRAME at hlt
      have hpage := hout i (Nat.le_refl i) (by omega)
      have hindex : pmm_address_to_index (f * 4096) < 0x100000 := by
        rw [address_to_index_eq]
        omega
      refine (simulates_map_page hcr3 href hcopy true true (add32_lt _ _) hpage).andThen ?_
      rintro _ _ u - hdone ⟨ram₁, rfl, hcopy₁⟩
      have hmapped := (map_page_spec hpaged (add32_lt _ _) (Or.inr rfl) hdone).1
      have href₁ := href.mapped hpage hmapped
      refine (simulates_set_frame hcr3 href₁ hcopy₁ hindex).before ?_
      rintro _ ⟨ram₂, rfl, hcopy₂⟩
      exact ih (href₁.marked (marked_set u hindex)) hcopy₂
        fun j h1 h2 => hout j (by omega) (by omega)

theorem simulates_unmap_pages {va : Nat} (turns : Nat) {i : Nat} {start ram : Mem} {s : Mm}
    (href : Reference image (OnImage image) s dir) (hcopy : Copy image start ram s.kheap.mem) :
    Simulates (Over v (Copy image start))
      (vmm_unmap_pages dir va turns i (.of ram { v with mm := s }))
      (sakana_os.vmm_unmap_pages dir va turns i s) := by
  induction turns generalizing i ram s with
  | zero => exact simulates_done _ ⟨ram, rfl, hcopy⟩
  | succ turns ih =>
    obtain ⟨grants, hpaged⟩ := href.paged
    unfold vmm_unmap_pages sakana_os.vmm_unmap_pages vmm_unmap_page sakana_os.vmm_unmap_page
    simp only [seen_translation hcr3 href hcopy (add32_lt _ _)]
    cases htranslate : vmm_virtual_to_physical_address s.kheap.mem dir
        (add32 va (mul32 i PAGE_SIZE)) with
    | none => trivial
    | some frame_address =>
      simp only [done_andThen]
      by_cases hnull : frame_address = NULL
      · simp only [hnull, ne_eq, not_true_eq_false, if_false, done_andThen]
        exact ih href hcopy
      · simp only [hnull, ne_eq, not_false_eq_true, if_true]
        have hlt := virtual_to_physical_lt hpaged.dir_ne htranslate
        have hindex : pmm_address_to_index frame_address < 0x100000 := by
          rw [address_to_index_eq]
          omega
        refine (simulates_unset_frame hcr3 href hcopy hindex).before ?_
        rintro _ ⟨ram₁, rfl, hcopy₁⟩
        exact ih (href.marked (marked_unset s hindex)) hcopy₁

theorem simulates_map_range {va pa size : Nat} {start ram : Mem} {s : Mm} (hva : va < 4294967296)
    (href : Reference image (OnImage image) s dir) (hcopy : Copy image start ram s.kheap.mem)
    (hout : ∀ i, i < div_up size PAGE_SIZE → ¬ OnImage image (rangePage va i)) :
    Simulates (Over v (Copy image start))
      (vmm_map_range dir (.of ram { v with mm := s }) va pa size)
      (sakana_os.vmm_map_range dir s va pa size) := by
  have hpages := range_out hout
  unfold vmm_map_range sakana_os.vmm_map_range
  simp only [align_down_eq hva]
  refine (simulates_map_pages hcr3 _ href hcopy fun j _ hj => hpages j (by omega)).andThen ?_
  rintro mapped _ u - hdone ⟨ram₁, rfl, hcopy₁⟩
  have href₁ := href.range hpages hdone
  cases mapped with
  | true => exact simulates_done _ ⟨ram₁, rfl, hcopy₁⟩
  | false =>
    simp only [Bool.false_eq_true, if_false]
    unfold vmm_unmap_memory sakana_os.vmm_unmap_memory
    refine (simulates_unmap_pages hcr3 _ href₁ hcopy₁).andThen ?_
    rintro _ _ t - - hover
    exact simulates_done _ hover

end

/-! ## The search for a range -/

section

variable {m m' : Mem} {dir : Nat} (hdir : dir ≠ NULL) (h : SameTables m m' dir)
include hdir h

theorem is_page_used_congr {va : Nat} (hva : va < 4294967296) :
    vmm_is_page_used m' dir va = vmm_is_page_used m dir va := by
  rw [Bool.eq_iff_iff, is_page_used_iff _ hdir, is_page_used_iff _ hdir]
  unfold pageUsed
  rw [h.page _ (by omega)]

theorem is_memory_free_congr (size page_address space_end turns : Nat) (offset : Nat) :
    vmm_is_memory_free dir m' size page_address space_end turns offset =
      vmm_is_memory_free dir m size page_address space_end turns offset := by
  induction turns generalizing offset with
  | zero => rfl
  | succ turns ih =>
    unfold vmm_is_memory_free
    simp only [is_page_used_congr hdir h (add32_lt _ _), ih]

/-- The search reads the tables only. -/
theorem find_free_memory_congr (size : Nat) (is_kernel : Bool) :
    vmm_find_free_memory dir m' size is_kernel = vmm_find_free_memory dir m size is_kernel := by
  have hloop : ∀ base last turns i, vmm_find_free_loop dir m' size base last turns i =
      vmm_find_free_loop dir m size base last turns i := by
    intro base last turns
    induction turns with
    | zero => exact fun _ => rfl
    | succ turns ih =>
      intro i
      unfold vmm_find_free_loop
      simp only [is_page_used_congr hdir h (add32_lt _ _), is_memory_free_congr hdir h, ih]
  exact hloop _ _ _ _

end

/-! ## Calls that leave the image -/

/-- The call has no more pages than there are, and no page of an explicit range has a byte
of the kernel image. -/
def LeavesImage (image : KernelImage) (c : MapCall) : Prop :=
  div_up c.size.toNat PAGE_SIZE ≤ 0x100000 ∧ (c.virtual_address ≠ 0 →
    ∀ i, i < div_up c.size.toNat PAGE_SIZE →
      ¬ OnImage image (rangePage c.virtual_address.toNat i))

/-- The machine is in the state that the kernel is in without paging, and holds the same
image, which lies where the boot has put it. -/
structure Mirrors (image : KernelImage) (s : Machine) (t : Vmm) : Prop where
  machine : ∃ ram, s = .of ram t ∧ Copy image ram ram t.mm.kheap.mem
  kept : Reference image (OnImage image) t.mm t.curr_page_directory
  steady : Steady t
  cr3 : t.cr3 = sub32 t.curr_page_directory VMM_KERNEL_SPACE_BASE

/-- The pages that the call comes to do not lie on the image: they are explicit, or the
search has found that they are not in use. -/
theorem LeavesImage.out {image : KernelImage} {t : Vmm} {c : MapCall} {va : Nat}
    (hleave : LeavesImage image c)
    (href : Reference image (OnImage image) t.mm t.curr_page_directory)
    (hsearch : c.virtual_address = 0 → ∀ i, i * 4096 < c.size.toNat →
      ¬ pageUsed t.mm.kheap.mem t.curr_page_directory (rangePage va i))
    (hgiven : c.virtual_address ≠ 0 → va = c.virtual_address.toNat) :
    ∀ i, i < div_up c.size.toNat PAGE_SIZE → ¬ OnImage image (rangePage va i) := by
  intro i hi
  by_cases hnull : c.virtual_address = 0
  · intro hpage
    refine hsearch hnull i ?_ (href.linear _ hpage).2.1
    have hcount := hleave.1
    unfold PAGE_SIZE at hi hcount
    by_cases hlarge : c.size.toNat + 4095 < 2147483648
    · rw [div_up_page hlarge] at hi
      omega
    · rcases div_up_large c.size.toNat_lt (by omega) with hnone | hmany
      · omega
      · omega
  · rw [hgiven hnull]
    exact hleave.2 hnull i hi

/-- A call that leaves the image leaves it where it is. -/
theorem Reference.call {image : KernelImage} {t u : Vmm} {c : MapCall} {ret : Nat}
    (href : Reference image (OnImage image) t.mm t.curr_page_directory) (hsteady : Steady t)
    (hleave : LeavesImage image c) (heq : sakana_os.map_call t c = .done ret u) :
    Reference image (OnImage image) u.mm u.curr_page_directory ∧ u.cr3 = t.cr3 ∧
      u.curr_page_directory = t.curr_page_directory := by
  rcases map_call_done hsteady heq with
    ⟨-, rfl, -⟩ | ⟨va, pa, mm, hva, hsearch, hgiven, -, hrange, rfl⟩
  · exact ⟨href, rfl, rfl⟩
  · refine ⟨?_, rfl, rfl⟩
    obtain ⟨grants, hpaged⟩ := hsteady.paged
    obtain ⟨-, u, hloop, -, hend⟩ :=
      map_range_done hpaged hsteady.zero hva c.size.toNat_lt hrange
    have href' := href.range (range_out (hleave.out href hsearch hgiven)) hloop
    rcases hend with ⟨-, -, rfl⟩ | ⟨-, -, hunmapped⟩
    · exact href'
    · exact href'.marked hunmapped.marked

theorem simulates_call {image : KernelImage} {t : Vmm} {ram : Mem} {c : MapCall}
    (href : Reference image (OnImage image) t.mm t.curr_page_directory)
    (hcopy : Copy image ram ram t.mm.kheap.mem)
    (hcr3 : t.cr3 = sub32 t.curr_page_directory VMM_KERNEL_SPACE_BASE)
    (hleave : LeavesImage image c) :
    Simulates (fun x u => ∃ ram, x = .of ram u ∧ Copy image ram ram u.mm.kheap.mem)
      (map_call (.of ram t) c) (sakana_os.map_call t c) := by
  obtain ⟨grants, hpaged⟩ := href.paged
  have htables := seen_tables hcr3 href (href.seen hcopy) fun _ _ => rfl
  have hsearch : vmm_find_free_memory (Machine.of ram t).vmm.curr_page_directory
      (Machine.of ram t).mem c.size.toNat c.is_kernel =
      vmm_find_free_memory t.curr_page_directory t.mm.kheap.mem c.size.toNat c.is_kernel :=
    find_free_memory_congr hpaged.dir_ne htables _ _
  have hfind : pmm_find_free_frame (Machine.of ram t).mm = pmm_find_free_frame t.mm :=
    seen_free hcr3 href hcopy _
  have hrange : ∀ va pa, va < 4294967296 →
      (c.virtual_address = 0 → ∀ i, i * 4096 < c.size.toNat →
        ¬ pageUsed t.mm.kheap.mem t.curr_page_directory (rangePage va i)) →
      (c.virtual_address ≠ 0 → va = c.virtual_address.toNat) →
      Simulates (fun x u => ∃ ram, x = .of ram u ∧ Copy image ram ram u.mm.kheap.mem)
        (vmm_map_range (Machine.of ram t).vmm.curr_page_directory (.of ram t) va pa
          c.size.toNat)
        ((sakana_os.vmm_map_range t.curr_page_directory t.mm va pa c.size.toNat).lift
          fun mm => { t with mm := mm }) := by
    intro va pa hva hunused hgiven
    refine (simulates_map_range hcr3 hva href hcopy (hleave.out href hunused hgiven)).lift ?_
    rintro _ u ⟨ram', rfl, hcopy'⟩
    exact ⟨ram', rfl, ⟨hcopy'.same, fun _ _ => rfl⟩⟩
  have hzero : c.virtual_address = 0 ↔ c.virtual_address.toNat = NULL :=
    ⟨fun h => by rw [h]; rfl, fun h => UInt32.toNat_inj.mp h⟩
  unfold map_call vmm_map_memory sakana_os.map_call sakana_os.vmm_map_memory
  simp only [hsearch, hfind]
  generalize (if c.physical_address.toNat = NULL then pmm_find_free_frame t.mm
    else c.physical_address.toNat) = pa
  by_cases hnull : c.virtual_address.toNat = NULL
  · simp only [hnull, if_true]
    cases hfree : vmm_find_free_memory t.curr_page_directory t.mm.kheap.mem c.size.toNat
        c.is_kernel with
    | none => trivial
    | some va =>
      by_cases hva : va = NULL
      · simp only [hva, if_true]
        exact ⟨rfl, rfl⟩
      · obtain ⟨hlt, -, hunused⟩ :=
          find_free_memory_spec hpaged.dir_ne c.size.toNat_lt hva hfree
        by_cases hpa : pa = NULL
        · simp only [hva, hpa, if_true, if_false]
          exact simulates_done _ ⟨ram, rfl, hcopy⟩
        · simp only [hva, hpa, if_false]
          exact hrange va pa hlt (fun _ => hunused) fun hne => absurd (hzero.mpr hnull) hne
  · by_cases hpa : pa = NULL
    · simp only [hnull, hpa, if_true, if_false]
      exact simulates_done _ ⟨ram, rfl, hcopy⟩
    · simp only [hnull, hpa, if_false]
      exact hrange _ pa c.virtual_address.toNat_lt (fun h => absurd (hzero.mp h) hnull)
        fun _ => rfl

/-- On the machine the call ends as it does without paging. -/
theorem mirrors_call {image : KernelImage} {s : Machine} {t : Vmm} {c : MapCall}
    (h : Mirrors image s t) (hleave : LeavesImage image c) :
    Simulates (Mirrors image) (map_call s c) (sakana_os.map_call t c) := by
  obtain ⟨⟨ram, rfl, hcopy⟩, href, hsteady, hcr3⟩ := h
  refine (simulates_call href hcopy hcr3 hleave).mono fun ret x u hdone hmachine => ?_
  obtain ⟨href', hcr3', hdir⟩ := href.call hsteady hleave hdone
  exact ⟨hmachine, href', steady_call hsteady (call_step_eq.mpr ⟨ret, hdone⟩), by
    rw [hcr3', hdir, hcr3]⟩

/-- A call that unmaps pages changes no entry, and ends as it does without paging. -/
theorem mirrors_unmap {image : KernelImage} {s : Machine} {t : Vmm} {virtual_address size : Nat}
    (h : Mirrors image s t) (hva : virtual_address < 4294967296) :
    Simulates (Mirrors image) (vmm_unmap_memory s.vmm.curr_page_directory s virtual_address size)
      ((sakana_os.vmm_unmap_memory t.curr_page_directory t.mm virtual_address size).lift
        fun mm => { t with mm := mm }) := by
  obtain ⟨⟨ram, rfl, hcopy⟩, href, hsteady, hcr3⟩ := h
  obtain ⟨grants, hpaged⟩ := href.paged
  unfold vmm_unmap_memory sakana_os.vmm_unmap_memory
  simp only [align_down_eq hva]
  have hpages : Simulates
      (fun x u => Over t (Copy image ram) x u ∧ Marked t.mm u ∧ pmm_test_frame u 0 = true)
      (vmm_unmap_pages t.curr_page_directory (virtual_address / 4096 * 4096)
        (div_up size PAGE_SIZE) 0 (.of ram t))
      (sakana_os.vmm_unmap_pages t.curr_page_directory (virtual_address / 4096 * 4096)
        (div_up size PAGE_SIZE) 0 t.mm) := by
    refine (simulates_unmap_pages hcr3 _ href hcopy).mono fun _ _ u hdone hover => ?_
    have hspec := unmap_pages_spec (Nat.mul_mod_left _ _) _ hpaged hdone
    exact ⟨hover, hspec.marked, (hspec.bits 0 (by decide)).mpr ⟨hsteady.zero, Or.inl rfl⟩⟩
  refine hpages.lift ?_
  rintro _ u ⟨⟨ram', rfl, hcopy'⟩, hmarked, hzero⟩
  exact ⟨⟨ram', rfl, hcopy'.same, fun _ _ => rfl⟩, href.marked hmarked,
    ⟨⟨grants, (hpaged.marked hmarked).1⟩, hzero⟩, hcr3⟩

/-! ## Boots and runs -/

/-- The machine boots as it does without paging. -/
theorem mirrors_boot {image : KernelImage} {ram : Mem} {mmap : List MmapEntry} {s : Machine}
    (hboot : init_kernel_memory image ram mmap = .done () s) : ∃ w,
    sakana_os.init_kernel_memory image (fun va => ram (va - VMM_KERNEL_SPACE_BASE)) mmap =
        .done () w ∧ Mirrors image s w := by
  obtain ⟨w, hdone, rfl⟩ := lift_eq_done.mp hboot
  obtain ⟨v, -, hplace, hbooted⟩ := boot_spec hdone
  have hlinear := hbooted.part.linear
  have hin : ∀ page, OnImage image page →
      KERNEL_PAGE + (page - KERNEL_PAGE) = page ∧
        page - KERNEL_PAGE < bootPages image.kernel_virtual_end := by
    rintro page ⟨h1, h2⟩
    have h3 := image.start_le
    have h4 := image.stop_le
    unfold bootPages KERNEL_PAGE
    rw [imagePages_eq (by omega) image.end_lt]
    unfold kernel_virtual_start at *
    omega
  refine ⟨w, hdone, ⟨_, rfl, fun x hlow hhigh => ?_, fun _ _ => rfl⟩,
    reference_of hbooted.part.paged
    (hbooted.part.start.trans hplace) (fun page hpage => ?_) (fun page hpage => ?_),
    steady_boot hdone, hbooted.cr3⟩
  · have hplace : VMM_KERNEL_SPACE_BASE + (x - VMM_KERNEL_SPACE_BASE) = x := by
      unfold kernel_virtual_start at hlow
      unfold VMM_KERNEL_SPACE_BASE
      omega
    exact congrArg w.mm.kheap.mem hplace
  · obtain ⟨hpage', hlt⟩ := hin page hpage
    obtain ⟨hpresent, hused, hframe⟩ := hlinear.mapped _ hlt
    rw [hpage'] at hpresent hused hframe
    exact ⟨hpresent, hused, by rw [hframe, hpage']⟩
  · have hlt := image.end_lt
    obtain ⟨-, hhigh⟩ := hpage
    exact hlinear.slot _ (by omega)

theorem call_step_eq {s t : Machine} {c : MapCall} :
    call_step s c = some t ↔ ∃ ret, map_call s c = .done ret t := by
  unfold call_step
  cases h : map_call s c with
  | done ret u => simp
  | _ => simp

/-- A kernel that boots without paging boots on the machine. -/
theorem machine_boots {image : KernelImage} (ram : Mem) {mmap : List MmapEntry} {v : Vmm}
    (hboot : sakana_os.init_kernel_memory image (fun va => ram (va - VMM_KERNEL_SPACE_BASE)) mmap =
      .done () v) :
    ∃ w, init_kernel_memory image ram mmap = .done () w ∧
      w = .of (fun pa => v.mm.kheap.mem (VMM_KERNEL_SPACE_BASE + pa)) v ∧ Mirrors image w v := by
  have hdone : init_kernel_memory image ram mmap =
      .done () (.of (fun pa => v.mm.kheap.mem (VMM_KERNEL_SPACE_BASE + pa)) v) := by
    unfold init_kernel_memory
    rw [hboot, done_lift]
  obtain ⟨v', hboot', hmirrors⟩ := mirrors_boot hdone
  cases hboot.symm.trans hboot'
  exact ⟨_, hdone, rfl, hmirrors⟩

/-- A call that returns on the machine returns without paging. -/
theorem mirrors_step {image : KernelImage} {s s' : Machine} {t : Vmm} {c : MapCall}
    (h : Mirrors image s t) (hleave : LeavesImage image c) (hstep : call_step s c = some s') :
    ∃ t', sakana_os.call_step t c = some t' ∧ Mirrors image s' t' := by
  obtain ⟨ret, hcall⟩ := call_step_eq.mp hstep
  obtain ⟨t', hcall', hmirrors⟩ := (mirrors_call h hleave).done_left hcall
  exact ⟨t', sakana_os.call_step_eq.mpr ⟨ret, hcall'⟩, hmirrors⟩

theorem mirrors_map_step {image : KernelImage} {s s' : Machine} {t : Vmm} {c : MapCall}
    (h : Mirrors image s t) (hleave : LeavesImage image c) (hstep : map_step s c = some s') :
    ∃ t', sakana_os.map_step t c = some t' ∧ Mirrors image s' t' := by
  unfold map_step at hstep
  cases hcall : map_call s c with
  | done ret u =>
    obtain ⟨t', hcall', hmirrors⟩ := (mirrors_call h hleave).done_left hcall
    simp only [hcall] at hstep
    by_cases hret : ret = NULL
    · rw [if_pos hret] at hstep
      cases hstep
    · rw [if_neg hret] at hstep
      cases hstep
      refine ⟨t', ?_, hmirrors⟩
      unfold sakana_os.map_step
      simp only [hcall', if_neg hret]
  | _ =>
    simp only [hcall] at hstep
    cases hstep

/-- Every state that a run reaches from a boot mirrors one without paging. -/
theorem mirrors_reached {image : KernelImage} {ram : Mem} {mmap : List MmapEntry} {w s : Machine}
    (hboot : init_kernel_memory image ram mmap = .done () w) {calls : List MapCall}
    (hleave : ∀ c ∈ calls, LeavesImage image c) (hrun : run call_step w calls = some s) :
    ∃ t, Mirrors image s t := by
  obtain ⟨v, -, hv⟩ := mirrors_boot hboot
  have halong : Along call_step (fun _ c => LeavesImage image c) w calls := along_of_forall hleave
  have hstep : ∀ s t c s', Mirrors image s t → LeavesImage image c → call_step s c = some s' →
      ∃ t', sakana_os.call_step t c = some t' ∧ Mirrors image s' t' :=
    fun _ _ _ _ => mirrors_step
  obtain ⟨t, -, ht⟩ := run_refines hstep hv halong hrun
  exact ⟨t, ht⟩

/-! ## What the two states have in common -/

section

variable {image : KernelImage} {s : Machine} {t : Vmm} (h : Mirrors image s t)
include h

theorem Mirrors.directory : s.vmm.curr_page_directory = t.curr_page_directory := by
  obtain ⟨ram, rfl, -⟩ := h.machine
  rfl

theorem Mirrors.alike : Alike t.mm s.vmm.mm t.curr_page_directory := by
  obtain ⟨⟨ram, rfl, hcopy⟩, href, -, hcr3⟩ := h
  exact seen_alike hcr3 href hcopy

/-- The machine keeps its tables in order as well. -/
theorem Mirrors.steady_machine : Steady s.vmm := by
  have halike := h.alike
  obtain ⟨grants, hpaged⟩ := h.steady.paged
  obtain ⟨⟨ram, rfl, hcopy⟩, href, hsteady, hcr3⟩ := h
  have hptr : ∀ i, i < 1024 →
      tablePtr (Machine.of ram t).vmm.mm.kheap.mem (Machine.of ram t).vmm.curr_page_directory i =
        tablePtr t.mm.kheap.mem t.curr_page_directory i := halike.tables.ptr
  refine ⟨⟨grants, hpaged.bumped.setMem _, hpaged.frames, hpaged.bitmap, hpaged.directory,
    fun i hi htable => ?_, fun i j hi hj htable heq => ?_⟩, ?_⟩
  · rw [hptr i hi] at htable ⊢
    exact hpaged.table i hi htable
  · rw [hptr i hi] at htable heq
    rw [hptr j hj] at heq
    exact hpaged.table_inj i j hi hj htable heq
  · rw [halike.bits 0 (by decide)]
    exact hsteady.zero

end

end sakana_os.translated
