-- The page tables in the memory: one word for each page and two for each slot of the
-- directory, the memory that they own, and what mapping one page does to them.
import Mathlib.Data.List.Pairwise
import SakanaOS.FrameCounts
import SakanaOS.Vmm

open byte_memory bitmaps bit_fields

namespace sakana_os

/-- The flags of the memory that directories and tables are allocated with. -/
def PAGE_FLAGS : Nat := MALLOC_FLAG_ALIGN ||| MALLOC_FLAG_INIT

/-- The pointer of a slot to its table. -/
def tablePtr (m : Mem) (dir slot : Nat) : Nat := load32 m (directory_table dir slot)

/-- The entry of a slot. -/
def slotWord (m : Mem) (dir slot : Nat) : Nat := load32 m (directory_entry dir slot)

/-- The entry of a page, which is empty as long as there is no table. -/
def pageWord (m : Mem) (dir page : Nat) : Nat :=
  if tablePtr m dir (page / 1024) = 0 then 0
  else load32 m (table_entry (tablePtr m dir (page / 1024)) (page % 1024))

def pagePresent (m : Mem) (dir page : Nat) : Prop := field (pageWord m dir page) 0 1 = 1

instance (m : Mem) (dir page : Nat) : Decidable (pagePresent m dir page) :=
  inferInstanceAs (Decidable (_ = _))

def pageUsed (m : Mem) (dir page : Nat) : Prop := field (pageWord m dir page) 9 3 % 2 = 1

def pageFrame (m : Mem) (dir page : Nat) : Nat := field (pageWord m dir page) 12 20

/-! ## Addresses -/

theorem directory_index_eq (va : Nat) : paging_directory_index va = va / 4096 / 1024 := by
  unfold paging_directory_index
  rw [Nat.shiftRight_eq_div_pow, Nat.div_div_eq_div_mul]

theorem table_index_eq (va : Nat) : paging_table_index va = va / 4096 % 1024 := by
  unfold paging_table_index
  rw [Nat.shiftRight_eq_div_pow, show (0x3FF : Nat) = 2 ^ 10 - 1 by norm_num,
    Nat.and_two_pow_sub_one_eq_mod]

theorem memory_offset_eq (va : Nat) : paging_memory_offset va = va % 4096 := by
  unfold paging_memory_offset
  rw [show (0xFFF : Nat) = 2 ^ 12 - 1 by norm_num, Nat.and_two_pow_sub_one_eq_mod]

theorem address_to_index_eq (pa : Nat) : pmm_address_to_index pa = pa / 4096 := by
  unfold pmm_address_to_index paging_frame_index
  rw [Nat.shiftRight_eq_div_pow]

/-! ## Entries -/

/-- The word that `vmm_map_page` leaves in the entry of a page. -/
def mapWord (w frame : Nat) (is_kernel is_writeable : Bool) : Nat :=
  let w := setField w 0 1 1
  let w := setField w 1 1 (if is_writeable then 1 else 0)
  let w := setField w 2 1 (if is_kernel then 0 else 1)
  let w := setField w 9 3 (PAGE_FLAG_USED ||| PAGE_FLAG_PRESENT)
  setField w 12 20 frame

/-- The word that `vmm_map_page` leaves in the entry of a slot with a new table. -/
def slotEntryWord (w frame : Nat) : Nat :=
  let w := setField w 0 1 1
  let w := setField w 1 1 1
  let w := setField w 2 1 1
  let w := setField w 12 20 frame
  setField w 7 1 0

theorem set_entry_field_store (m : Mem) (e w lo n v : Nat) (hw : w < 4294967296) :
    set_entry_field (store32 m e w) e lo n v = store32 m e (setField w lo n v) := by
  unfold set_entry_field
  rw [load32_store32 _ _ hw, store32_store32]

section

variable (w frame : Nat) (is_kernel is_writeable : Bool)

theorem mapWord_present : field (mapWord w frame is_kernel is_writeable) 0 1 = 1 := by
  unfold mapWord
  simp only
  rw [field_setField_ne _ _ (by omega), field_setField_ne _ _ (by omega),
    field_setField_ne _ _ (by omega), field_setField_ne _ _ (by omega), field_setField]
  norm_num

theorem mapWord_available : field (mapWord w frame is_kernel is_writeable) 9 3 = 1 := by
  unfold mapWord
  simp only
  rw [field_setField_ne _ _ (by omega), field_setField]
  rfl

theorem mapWord_base (h : frame < 0x100000) :
    field (mapWord w frame is_kernel is_writeable) 12 20 = frame := by
  unfold mapWord
  simp only
  rw [field_setField]
  exact Nat.mod_eq_of_lt h

theorem mapWord_read_write :
    field (mapWord w frame is_kernel is_writeable) 1 1 = if is_writeable then 1 else 0 := by
  unfold mapWord
  simp only
  rw [field_setField_ne _ _ (by omega), field_setField_ne _ _ (by omega),
    field_setField_ne _ _ (by omega), field_setField]
  cases is_writeable <;> rfl

theorem mapWord_user_supervisor :
    field (mapWord w frame is_kernel is_writeable) 2 1 = if is_kernel then 0 else 1 := by
  unfold mapWord
  simp only
  rw [field_setField_ne _ _ (by omega), field_setField_ne _ _ (by omega), field_setField]
  cases is_kernel <;> rfl

theorem mapWord_lt (h : w < 4294967296) :
    mapWord w frame is_kernel is_writeable < 4294967296 := by
  unfold mapWord
  simp only
  refine setField_lt _ 32 ?_ (by omega)
  refine setField_lt _ 32 ?_ (by omega)
  refine setField_lt _ 32 ?_ (by omega)
  refine setField_lt _ 32 ?_ (by omega)
  exact setField_lt _ 32 h (by omega)

theorem slotEntryWord_present : field (slotEntryWord w frame) 0 1 = 1 := by
  unfold slotEntryWord
  simp only
  rw [field_setField_ne _ _ (by omega), field_setField_ne _ _ (by omega),
    field_setField_ne _ _ (by omega), field_setField_ne _ _ (by omega), field_setField]
  norm_num

theorem slotEntryWord_base (h : frame < 0x100000) :
    field (slotEntryWord w frame) 12 20 = frame := by
  unfold slotEntryWord
  simp only
  rw [field_setField_ne _ _ (by omega), field_setField]
  exact Nat.mod_eq_of_lt h

theorem slotEntryWord_lt (h : w < 4294967296) : slotEntryWord w frame < 4294967296 := by
  unfold slotEntryWord
  simp only
  refine setField_lt _ 32 ?_ (by omega)
  refine setField_lt _ 32 ?_ (by omega)
  refine setField_lt _ 32 ?_ (by omega)
  refine setField_lt _ 32 ?_ (by omega)
  exact setField_lt _ 32 h (by omega)

end

/-- The five stores to the entry of a page are one store of a word. -/
theorem map_entry_eq (m : Mem) (e frame : Nat) (is_kernel is_writeable : Bool) :
    set_page_base (set_available (set_user_supervisor (set_read_write (set_present m e 1) e
      (if is_writeable then 1 else 0)) e (if is_kernel then 0 else 1)) e
      (PAGE_FLAG_USED ||| PAGE_FLAG_PRESENT)) e frame =
    store32 m e (mapWord (load32 m e) frame is_kernel is_writeable) := by
  have h := load32_lt m e
  have h1 := setField_lt 1 32 h (show 0 + 1 ≤ 32 by omega)
  have h2 := setField_lt (if is_writeable then 1 else 0) 32 h1 (show 1 + 1 ≤ 32 by omega)
  have h3 := setField_lt (if is_kernel then 0 else 1) 32 h2 (show 2 + 1 ≤ 32 by omega)
  have h4 := setField_lt (PAGE_FLAG_USED ||| PAGE_FLAG_PRESENT) 32 h3 (show 9 + 3 ≤ 32 by omega)
  unfold set_page_base set_available set_user_supervisor set_read_write set_present mapWord
  rw [show set_entry_field m e 0 1 1 = store32 m e (setField (load32 m e) 0 1 1) from rfl,
    set_entry_field_store _ _ _ _ _ _ h1, set_entry_field_store _ _ _ _ _ _ h2,
    set_entry_field_store _ _ _ _ _ _ h3, set_entry_field_store _ _ _ _ _ _ h4]

theorem slot_entry_eq (m : Mem) (e frame : Nat) :
    set_page_size (set_page_base (set_user_supervisor (set_read_write (set_present m e 1) e 1) e 1)
      e frame) e 0 = store32 m e (slotEntryWord (load32 m e) frame) := by
  have h := load32_lt m e
  have h1 := setField_lt 1 32 h (show 0 + 1 ≤ 32 by omega)
  have h2 := setField_lt 1 32 h1 (show 1 + 1 ≤ 32 by omega)
  have h3 := setField_lt 1 32 h2 (show 2 + 1 ≤ 32 by omega)
  have h4 := setField_lt frame 32 h3 (show 12 + 20 ≤ 32 by omega)
  unfold set_page_base set_page_size set_user_supervisor set_read_write set_present slotEntryWord
  rw [show set_entry_field m e 0 1 1 = store32 m e (setField (load32 m e) 0 1 1) from rfl,
    set_entry_field_store _ _ _ _ _ _ h1, set_entry_field_store _ _ _ _ _ _ h2,
    set_entry_field_store _ _ _ _ _ _ h3, set_entry_field_store _ _ _ _ _ _ h4]

/-! ## The walk, by pages -/

theorem get_page_entry_eq (m : Mem) {dir : Nat} (hdir : dir ≠ NULL) (va : Nat) :
    vmm_get_page_entry m dir va =
      if tablePtr m dir (va / 4096 / 1024) = 0 then 0
      else table_entry (tablePtr m dir (va / 4096 / 1024)) (va / 4096 % 1024) := by
  unfold vmm_get_page_entry
  rw [if_neg hdir, directory_index_eq, table_index_eq]
  rfl

/-- The translation of an address, by the entry of its page. -/
theorem virtual_to_physical_eq (m : Mem) {dir : Nat} (hdir : dir ≠ NULL) (va : Nat) :
    vmm_virtual_to_physical_address m dir va =
      if tablePtr m dir (va / 4096 / 1024) = 0 then none
      else if field (pageWord m dir (va / 4096)) 0 1 = 0 then some 0
      else some (pageFrame m dir (va / 4096) * 4096 + va % 4096) := by
  unfold vmm_virtual_to_physical_address
  rw [if_neg hdir, get_page_entry_eq m hdir]
  by_cases htable : tablePtr m dir (va / 4096 / 1024) = 0
  · simp only [htable, if_true]
  · have hentry : table_entry (tablePtr m dir (va / 4096 / 1024)) (va / 4096 % 1024) ≠ NULL := by
      unfold table_entry
      show _ ≠ 0
      omega
    have hbase : entry_page_base m
        (table_entry (tablePtr m dir (va / 4096 / 1024)) (va / 4096 % 1024)) =
        pageFrame m dir (va / 4096) := by
      unfold entry_page_base pageFrame pageWord
      rw [if_neg htable]
    have hpresent : entry_present m
        (table_entry (tablePtr m dir (va / 4096 / 1024)) (va / 4096 % 1024)) =
        field (pageWord m dir (va / 4096)) 0 1 := by
      unfold entry_present pageWord
      rw [if_neg htable]
    have hlt : pageFrame m dir (va / 4096) < 2 ^ 20 := field_lt _ _ _
    have hsum : add32 (pageFrame m dir (va / 4096) <<< 12) (paging_memory_offset va) =
        pageFrame m dir (va / 4096) * 4096 + va % 4096 := by
      rw [memory_offset_eq, Nat.shiftLeft_eq, add32_eq (by omega)]
    simp only [htable, hentry, if_false, hbase, hpresent, hsum]

/-- The translation of an address in a page that is present. -/
theorem present_translation {m : Mem} {dir va : Nat} (hdir : dir ≠ NULL)
    (hpresent : pagePresent m dir (va / 4096)) :
    vmm_virtual_to_physical_address m dir va =
      some (pageFrame m dir (va / 4096) * 4096 + va % 4096) := by
  have htable : tablePtr m dir (va / 4096 / 1024) ≠ 0 := by
    intro hzero
    unfold pagePresent pageWord at hpresent
    rw [if_pos hzero, field_zero] at hpresent
    omega
  unfold pagePresent at hpresent
  rw [virtual_to_physical_eq m hdir, if_neg htable, if_neg (by omega)]

theorem is_page_used_iff (m : Mem) {dir : Nat} (hdir : dir ≠ NULL) (va : Nat) :
    vmm_is_page_used m dir va = true ↔ pageUsed m dir (va / 4096) := by
  unfold vmm_is_page_used pageUsed pageWord
  rw [get_page_entry_eq m hdir]
  by_cases htable : tablePtr m dir (va / 4096 / 1024) = 0
  · simp [htable]
  · have hentry : table_entry (tablePtr m dir (va / 4096 / 1024)) (va / 4096 % 1024) ≠ NULL := by
      unfold table_entry
      show _ ≠ 0
      omega
    simp only [htable, hentry, if_false]
    unfold entry_available PAGE_FLAG_USED
    rw [bne_iff_ne, Nat.and_one_is_mod]
    omega

/-! ## The memory of the tables -/

/-- The two memories agree on a range. -/
def SameOn (m m' : Mem) (a n : Nat) : Prop := ∀ x, a ≤ x → x < a + n → m' x = m x

/-- The directory reads the same in both memories. -/
structure SameTables (m m' : Mem) (dir : Nat) : Prop where
  ptr : ∀ i, i < 1024 → tablePtr m' dir i = tablePtr m dir i
  slot : ∀ i, i < 1024 → slotWord m' dir i = slotWord m dir i
  page : ∀ page, page < 0x100000 → pageWord m' dir page = pageWord m dir page

theorem tablePtr_congr {m m' : Mem} {dir i : Nat} (h : SameOn m m' dir SIZEOF_PAGE_DIRECTORY)
    (hi : i < 1024) : tablePtr m' dir i = tablePtr m dir i := by
  unfold SIZEOF_PAGE_DIRECTORY at h
  unfold tablePtr directory_table
  exact load32_congr fun x h1 h2 => h x (by omega) (by omega)

theorem slotWord_congr {m m' : Mem} {dir i : Nat} (h : SameOn m m' dir SIZEOF_PAGE_DIRECTORY)
    (hi : i < 1024) : slotWord m' dir i = slotWord m dir i := by
  unfold SIZEOF_PAGE_DIRECTORY at h
  unfold slotWord directory_entry
  exact load32_congr fun x h1 h2 => h x (by omega) (by omega)

theorem pageWord_congr {m m' : Mem} {dir page : Nat}
    (hptr : tablePtr m' dir (page / 1024) = tablePtr m dir (page / 1024))
    (h : tablePtr m dir (page / 1024) ≠ 0 →
      SameOn m m' (tablePtr m dir (page / 1024)) SIZEOF_PAGE_TABLE) :
    pageWord m' dir page = pageWord m dir page := by
  unfold pageWord
  rw [hptr]
  by_cases htable : tablePtr m dir (page / 1024) = 0
  · rw [if_pos htable, if_pos htable]
  · rw [if_neg htable, if_neg htable]
    have hsame := h htable
    unfold SIZEOF_PAGE_TABLE at hsame
    unfold table_entry
    exact load32_congr fun x h1 h2 => hsame x (by omega) (by omega)

theorem sameTables_of {m m' : Mem} {dir : Nat} (hdir : SameOn m m' dir SIZEOF_PAGE_DIRECTORY)
    (htable : ∀ i, i < 1024 → tablePtr m dir i ≠ 0 →
      SameOn m m' (tablePtr m dir i) SIZEOF_PAGE_TABLE) : SameTables m m' dir :=
  ⟨fun _ hi => tablePtr_congr hdir hi, fun _ hi => slotWord_congr hdir hi, fun _ hp =>
    pageWord_congr (tablePtr_congr hdir (by omega)) (htable _ (by omega))⟩

/-- The directory, its tables and the bitmap are ranges of their own among the ranges
that the area has given out. -/
structure Paged (s : Mm) (dir : Nat) (grants : List Grant) : Prop where
  bumped : Bumped ⟨s.kheap, grants⟩
  frames : s.pmm.num_memory_frames = TOP_FRAME
  bitmap : ⟨s.pmm.bitmap, 131072, MALLOC_FLAG_NULL⟩ ∈ grants
  directory : ⟨dir, SIZEOF_PAGE_DIRECTORY, PAGE_FLAGS⟩ ∈ grants
  table : ∀ i, i < 1024 → tablePtr s.kheap.mem dir i ≠ 0 →
    ⟨tablePtr s.kheap.mem dir i, SIZEOF_PAGE_TABLE, PAGE_FLAGS⟩ ∈ grants
  table_inj : ∀ i j, i < 1024 → j < 1024 → tablePtr s.kheap.mem dir i ≠ 0 →
    tablePtr s.kheap.mem dir i = tablePtr s.kheap.mem dir j → i = j

/-- Two ranges that were given out are the same or apart. -/
theorem grants_apart {p : Placed} (h : PlacementSafe p) {a b : Grant} (ha : a ∈ p.grants)
    (hb : b ∈ p.grants) (hne : a ≠ b) : a.ptr + a.size ≤ b.ptr ∨ b.ptr + b.size ≤ a.ptr := by
  have hsymm : Std.Symm fun g h : Grant => g.ptr + g.size ≤ h.ptr ∨ h.ptr + h.size ≤ g.ptr :=
    ⟨fun _ _ h => h.symm⟩
  exact h.apart.forall ha hb hne

section

variable {s : Mm} {dir : Nat} {grants : List Grant}

theorem Paged.dir_ne (h : Paged s dir grants) : dir ≠ NULL := by
  have hin := (h.bumped.inside _ h.directory).1
  have hpos := h.bumped.start_pos
  show dir ≠ 0
  simp only at hin hpos
  omega

/-- The bitmap is apart from the directory and the tables. -/
theorem Paged.bitmap_apart (h : Paged s dir grants) :
    (dir + SIZEOF_PAGE_DIRECTORY ≤ s.pmm.bitmap ∨ s.pmm.bitmap + 131072 ≤ dir) ∧
    ∀ i, i < 1024 → tablePtr s.kheap.mem dir i ≠ 0 →
      tablePtr s.kheap.mem dir i + SIZEOF_PAGE_TABLE ≤ s.pmm.bitmap ∨
        s.pmm.bitmap + 131072 ≤ tablePtr s.kheap.mem dir i := by
  have hne : SIZEOF_PAGE_DIRECTORY ≠ 131072 ∧ SIZEOF_PAGE_TABLE ≠ 131072 := by decide
  refine ⟨grants_apart h.bumped.toPlacementSafe h.directory h.bitmap ?_, fun i hi htable =>
    grants_apart h.bumped.toPlacementSafe (h.table i hi htable) h.bitmap ?_⟩
  · intro heq
    exact hne.1 (Grant.mk.inj heq).2.1
  · intro heq
    exact hne.2 (Grant.mk.inj heq).2.1

theorem Paged.tables_apart (h : Paged s dir grants) {i : Nat} (hi : i < 1024)
    (htable : tablePtr s.kheap.mem dir i ≠ 0) :
    (dir + SIZEOF_PAGE_DIRECTORY ≤ tablePtr s.kheap.mem dir i ∨
      tablePtr s.kheap.mem dir i + SIZEOF_PAGE_TABLE ≤ dir) ∧
    ∀ j, j < 1024 → j ≠ i → tablePtr s.kheap.mem dir j ≠ 0 →
      tablePtr s.kheap.mem dir j + SIZEOF_PAGE_TABLE ≤ tablePtr s.kheap.mem dir i ∨
        tablePtr s.kheap.mem dir i + SIZEOF_PAGE_TABLE ≤ tablePtr s.kheap.mem dir j := by
  have hne : SIZEOF_PAGE_DIRECTORY ≠ SIZEOF_PAGE_TABLE := by decide
  refine ⟨grants_apart h.bumped.toPlacementSafe h.directory (h.table i hi htable) ?_,
    fun j hj hji htable' =>
      grants_apart h.bumped.toPlacementSafe (h.table j hj htable') (h.table i hi htable) ?_⟩
  · intro heq
    exact hne (Grant.mk.inj heq).2.1
  · intro heq
    exact hji (h.table_inj j i hj hi htable' (Grant.mk.inj heq).1)

/-! ## Marking frames -/

/-- The frame allocator differs in the bits of the bitmap and in the count of the frames
in use only. -/
structure Marked (s t : Mm) : Prop where
  kheap : t.kheap = { s.kheap with mem := t.kheap.mem }
  bitmap : t.pmm.bitmap = s.pmm.bitmap
  frames : t.pmm.num_memory_frames = s.pmm.num_memory_frames
  outside : ∀ x, x < s.pmm.bitmap ∨ s.pmm.bitmap + 131072 ≤ x → t.kheap.mem x = s.kheap.mem x

theorem Marked.refl (s : Mm) : Marked s s := ⟨rfl, rfl, rfl, fun _ _ => rfl⟩

theorem marked_set (s : Mm) {f : Nat} (hf : f < 0x100000) : Marked s (pmm_set_frame s f) := by
  cases h : pmm_test_frame s f with
  | true =>
    rw [set_frame_same h]
    exact Marked.refl s
  | false =>
    rw [set_frame_clear h]
    exact ⟨rfl, rfl, rfl, fun _ hx => setBit_frame _ (by omega) hx⟩

theorem marked_unset (s : Mm) {f : Nat} (hf : f < 0x100000) : Marked s (pmm_unset_frame s f) := by
  cases h : pmm_test_frame s f with
  | false =>
    rw [unset_frame_same h]
    exact Marked.refl s
  | true =>
    rw [unset_frame_set h]
    exact ⟨rfl, rfl, rfl, fun _ hx => clearBit_frame _ (by omega) hx⟩

/-- Marks leave the tables as they are. -/
theorem Paged.marked {t : Mm} (h : Paged s dir grants) (ht : Marked s t) :
    Paged t dir grants ∧ SameTables s.kheap.mem t.kheap.mem dir := by
  obtain ⟨hdir, htables⟩ := h.bitmap_apart
  have hsame : SameTables s.kheap.mem t.kheap.mem dir :=
    sameTables_of (fun x h1 h2 => ht.outside x (by omega)) fun i hi htable x h1 h2 =>
      ht.outside x (by have := htables i hi htable; omega)
  refine ⟨⟨?_, ?_, ?_, h.directory, ?_, ?_⟩, hsame⟩
  · rw [ht.kheap]
    exact h.bumped.setMem _
  · rw [ht.frames, h.frames]
  · rw [ht.bitmap]
    exact h.bitmap
  · intro i hi htable
    rw [hsame.ptr i hi] at htable ⊢
    exact h.table i hi htable
  · intro i j hi hj htable heq
    rw [hsame.ptr i hi] at htable heq
    rw [hsame.ptr j hj] at heq
    exact h.table_inj i j hi hj htable heq

end

end sakana_os
