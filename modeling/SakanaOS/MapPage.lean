-- What `vmm_map_page` does: it writes the entry of one page and nothing else, after it
-- has entered an empty table into the directory where there was none.
import SakanaOS.PageTables

open byte_memory bitmaps bit_fields runs

namespace sakana_os

/-! ## Zeroed pages from the area -/

/-- The area has no room for an aligned range, or gives out a zeroed one. -/
theorem page_alloc {k : Kheap} {grants : List Grant} (h : Bumped ⟨k, grants⟩) (size : Nat)
    (hsize : size ≤ 8192) :
    (kmalloc_flag k size PAGE_FLAGS = .done NULL k ∧
      k.kheap_placement_memory_free_memory < size + 4096) ∨
    ∃ p k', kmalloc_flag k size PAGE_FLAGS = .done p k' ∧ p ≠ NULL ∧ p % 4096 = 0 ∧
      Bumped ⟨k', ⟨p, size, PAGE_FLAGS⟩ :: grants⟩ ∧ k'.mem = fill k.mem p 0 size ∧
      k'.kheap_placement_memory = k.kheap_placement_memory ∧
      k.kheap_placement_memory_free_memory ≤
        k'.kheap_placement_memory_free_memory + size + 4095 := by
  have hfree := h.free_le
  have haccount := h.account
  have hpos := h.start_pos
  have hstop := h.stop_lt
  simp only [KHEAP_PLACEMENT_SIZE] at hfree haccount hstop hpos
  have halign : PAGE_FLAGS &&& MALLOC_FLAG_ALIGN ≠ 0 := by decide
  have hinit : PAGE_FLAGS &&& MALLOC_FLAG_INIT ≠ 0 := by decide
  have hlt : size < 4294967296 := by omega
  obtain ⟨hpad, hmod, -⟩ := align_padding (h := k.kheap_placement_memory_head) (by omega)
  have hpadding : placement_padding k PAGE_FLAGS =
      sub32 (paging_align_address_up k.kheap_placement_memory_head)
        k.kheap_placement_memory_head := if_pos halign
  rw [← hpadding] at hpad hmod
  have hwrap : NoWrap ⟨k, grants⟩ ⟨size, PAGE_FLAGS, hlt⟩ := Or.inl (by simp only; omega)
  by_cases hfits : Fits k ⟨size, PAGE_FLAGS, hlt⟩
  · have heq := kmalloc_placement_fits h hfits
    have hne : k.kheap_placement_memory_head + placement_padding k PAGE_FLAGS ≠ NULL := by
      show _ ≠ 0
      omega
    have hstep : placement_step ⟨k, grants⟩ ⟨size, PAGE_FLAGS, hlt⟩ =
        some ⟨servedKheap k size PAGE_FLAGS,
          ⟨k.kheap_placement_memory_head + placement_padding k PAGE_FLAGS, size, PAGE_FLAGS⟩ ::
            grants⟩ := by
      unfold placement_step
      simp only [heq, hne, if_false]
    refine Or.inr ⟨_, _, heq, hne, hmod, placement_step_bumped h hwrap hstep, ?_, rfl, ?_⟩
    · unfold servedKheap
      simp only [hinit, ne_eq, not_false_eq_true, if_true]
    · unfold servedKheap
      simp only
      omega
  · refine Or.inl ⟨kmalloc_placement_refuses h hfits hwrap, ?_⟩
    unfold Fits at hfits
    simp only at hfits
    omega

/-! ## A new table -/

section

variable {s : Mm} {dir : Nat} {grants : List Grant}

/-- The memory after a zeroed table was entered into a slot. -/
def withTable (m : Mem) (dir slot table frame : Nat) : Mem :=
  store32 (store32 (fill m table 0 SIZEOF_PAGE_TABLE) (directory_entry dir slot)
    (slotEntryWord (slotWord m dir slot) frame)) (directory_table dir slot) table

/-- An empty table changes the slot and the translation of no page. -/
theorem withTable_reads {m : Mem} {slot table : Nat} (frame : Nat) (hslot : slot < 1024)
    (hempty : tablePtr m dir slot = 0) (htable : table ≠ 0) (hlt : table < 4294967296)
    (hdir : dir + SIZEOF_PAGE_DIRECTORY ≤ table ∨ table + SIZEOF_PAGE_TABLE ≤ dir)
    (htables : ∀ j, j < 1024 → tablePtr m dir j ≠ 0 →
      (tablePtr m dir j + SIZEOF_PAGE_TABLE ≤ table ∨
        table + SIZEOF_PAGE_TABLE ≤ tablePtr m dir j) ∧
      (dir + SIZEOF_PAGE_DIRECTORY ≤ tablePtr m dir j ∨
        tablePtr m dir j + SIZEOF_PAGE_TABLE ≤ dir)) :
    (∀ i, i < 1024 → tablePtr (withTable m dir slot table frame) dir i =
      if i = slot then table else tablePtr m dir i) ∧
    (∀ i, i < 1024 → slotWord (withTable m dir slot table frame) dir i =
      if i = slot then slotEntryWord (slotWord m dir slot) frame else slotWord m dir i) ∧
    ∀ page, page < 0x100000 →
      pageWord (withTable m dir slot table frame) dir page = pageWord m dir page := by
  unfold SIZEOF_PAGE_DIRECTORY SIZEOF_PAGE_TABLE at *
  have hptr : ∀ i, i < 1024 → tablePtr (withTable m dir slot table frame) dir i =
      if i = slot then table else tablePtr m dir i := by
    intro i hi
    unfold withTable tablePtr directory_table directory_entry SIZEOF_PAGE_TABLE
    by_cases heq : i = slot
    · rw [if_pos heq, heq, load32_store32 _ _ hlt]
    · rw [if_neg heq, load32_store32_ne _ _ (by omega), load32_store32_ne _ _ (by omega)]
      exact load32_congr fun x h1 h2 => fill_frame _ _ _ _ _ (by omega)
  refine ⟨hptr, ?_, ?_⟩
  · intro i hi
    unfold withTable slotWord directory_table directory_entry SIZEOF_PAGE_TABLE
    rw [load32_store32_ne _ _ (by omega)]
    by_cases heq : i = slot
    · rw [if_pos heq, heq, load32_store32 _ _ (slotEntryWord_lt _ _ (load32_lt _ _))]
    · rw [if_neg heq, load32_store32_ne _ _ (by omega)]
      exact load32_congr fun x h1 h2 => fill_frame _ _ _ _ _ (by omega)
  · intro page hpage
    have hidx : page / 1024 < 1024 := by omega
    unfold pageWord
    rw [hptr _ hidx]
    by_cases heq : page / 1024 = slot
    · rw [if_pos heq, if_neg htable, heq, if_pos hempty]
      unfold withTable table_entry directory_table directory_entry SIZEOF_PAGE_TABLE
      rw [load32_store32_ne _ _ (by omega), load32_store32_ne _ _ (by omega)]
      exact load32_fill_zero _ (by omega) (by omega)
    · rw [if_neg heq]
      by_cases hzero : tablePtr m dir (page / 1024) = 0
      · rw [if_pos hzero, if_pos hzero]
      · obtain ⟨h1, h2⟩ := htables _ hidx hzero
        rw [if_neg hzero, if_neg hzero]
        unfold withTable table_entry directory_table directory_entry SIZEOF_PAGE_TABLE
        rw [load32_store32_ne _ _ (by omega), load32_store32_ne _ _ (by omega)]
        exact load32_congr fun x h3 h4 => fill_frame _ _ _ _ _ (by omega)

/-- The translation of an address depends on the table and the entry of its page only. -/
theorem virtual_to_physical_congr {m m' : Mem} {dict : Nat} (va : Nat)
    (hdict : dict = NULL ∨ dict = dir)
    (hptr : tablePtr m' dir (va / 4096 / 1024) = tablePtr m dir (va / 4096 / 1024))
    (hpage : pageWord m' dir (va / 4096) = pageWord m dir (va / 4096)) :
    vmm_virtual_to_physical_address m' dict va = vmm_virtual_to_physical_address m dict va := by
  by_cases hnull : dict = NULL
  · unfold vmm_virtual_to_physical_address
    rw [if_pos hnull, if_pos hnull]
  · cases hdict.resolve_left hnull
    rw [virtual_to_physical_eq _ hnull, virtual_to_physical_eq _ hnull]
    unfold pageFrame
    rw [hptr, hpage]

/-- Only bytes of the placement area have changed. -/
def OnlyArea (s t : Mm) : Prop :=
  ∀ x, x < s.kheap.kheap_placement_memory ∨
    s.kheap.kheap_placement_memory + KHEAP_PLACEMENT_SIZE ≤ x → t.kheap.mem x = s.kheap.mem x

theorem OnlyArea.trans {s t u : Mm} (h : OnlyArea s t)
    (hstart : t.kheap.kheap_placement_memory = s.kheap.kheap_placement_memory)
    (h' : OnlyArea t u) : OnlyArea s u := by
  intro x hx
  rw [h' x (by rwa [hstart]), h x hx]

/-- What `vmm_map_table` leaves for a page in a slot without a table: an empty table, at
the place that the directory `dict` gives for it. -/
structure Tabled (s t : Mm) (dir dict slot table : Nat) (grants : List Grant) : Prop where
  pmm : t.pmm = s.pmm
  start : t.kheap.kheap_placement_memory = s.kheap.kheap_placement_memory
  paged : Paged t dir (⟨table, SIZEOF_PAGE_TABLE, PAGE_FLAGS⟩ :: grants)
  bits : ∀ f, f < 0x100000 → pmm_test_frame t f = pmm_test_frame s f
  page : ∀ page, page < 0x100000 →
    pageWord t.kheap.mem dir page = pageWord s.kheap.mem dir page
  ptr : ∀ i, i < 1024 → tablePtr t.kheap.mem dir i =
    if i = slot then table else tablePtr s.kheap.mem dir i
  slot_ne : ∀ i, i < 1024 → i ≠ slot → slotWord t.kheap.mem dir i = slotWord s.kheap.mem dir i
  slot_new : ∃ phys, vmm_virtual_to_physical_address s.kheap.mem dict table = some phys ∧
    slotWord t.kheap.mem dir slot = slotEntryWord (slotWord s.kheap.mem dir slot) (phys >>> 12)
  room : s.kheap.kheap_placement_memory_free_memory ≤
    t.kheap.kheap_placement_memory_free_memory + 8191
  outside : OnlyArea s t

theorem map_table_old (va dict : Nat) (htable : tablePtr s.kheap.mem dir (va / 4096 / 1024) ≠ 0) :
    vmm_map_table s dir dict va = .done (tablePtr s.kheap.mem dir (va / 4096 / 1024)) s := by
  unfold tablePtr at *
  unfold vmm_map_table
  simp only [directory_index_eq, htable, if_false]

/-- The memory of a new table is apart from the directory, its tables and the bitmap. -/
structure Fresh (s : Mm) (dir table : Nat) : Prop where
  ne : table ≠ 0
  lt : table + SIZEOF_PAGE_TABLE < 4294967296
  directory : dir + SIZEOF_PAGE_DIRECTORY ≤ table ∨ table + SIZEOF_PAGE_TABLE ≤ dir
  tables : ∀ j, j < 1024 → tablePtr s.kheap.mem dir j ≠ 0 →
    tablePtr s.kheap.mem dir j + SIZEOF_PAGE_TABLE ≤ table ∨
      table + SIZEOF_PAGE_TABLE ≤ tablePtr s.kheap.mem dir j
  bitmap : s.pmm.bitmap + 131072 ≤ table ∨ table + SIZEOF_PAGE_TABLE ≤ s.pmm.bitmap

theorem fresh_of_grant (h : Paged s dir grants) {k : Kheap} {table : Nat} (hne : table ≠ 0)
    (hk : Bumped ⟨k, ⟨table, SIZEOF_PAGE_TABLE, PAGE_FLAGS⟩ :: grants⟩) : Fresh s dir table := by
  have hapart := (List.pairwise_cons.mp hk.apart).1
  have hin := (hk.inside _ List.mem_cons_self).2
  have hstop := hk.stop_lt
  refine ⟨hne, ?_, (hapart _ h.directory).symm, fun j hj htable =>
    (hapart _ (h.table j hj htable)).symm, (hapart _ h.bitmap).symm⟩
  simp only at hin hstop
  omega

/-- The memory with a new table is in order again. -/
theorem tabled_of_grant (h : Paged s dir grants) {k : Kheap} {slot table phys dict : Nat}
    (hslot : slot < 1024) (hempty : tablePtr s.kheap.mem dir slot = 0)
    (hfresh : Fresh s dir table)
    (hk : Bumped ⟨k, ⟨table, SIZEOF_PAGE_TABLE, PAGE_FLAGS⟩ :: grants⟩)
    (hstart : k.kheap_placement_memory = s.kheap.kheap_placement_memory)
    (hroom : s.kheap.kheap_placement_memory_free_memory ≤
      k.kheap_placement_memory_free_memory + 8191)
    (hphys : vmm_virtual_to_physical_address s.kheap.mem dict table = some phys) :
    Tabled s ⟨{ k with mem := withTable s.kheap.mem dir slot table (phys >>> 12) }, s.pmm⟩ dir dict
      slot table grants := by
  have htables : ∀ j, j < 1024 → tablePtr s.kheap.mem dir j ≠ 0 →
      (tablePtr s.kheap.mem dir j + SIZEOF_PAGE_TABLE ≤ table ∨
        table + SIZEOF_PAGE_TABLE ≤ tablePtr s.kheap.mem dir j) ∧
      (dir + SIZEOF_PAGE_DIRECTORY ≤ tablePtr s.kheap.mem dir j ∨
        tablePtr s.kheap.mem dir j + SIZEOF_PAGE_TABLE ≤ dir) :=
    fun j hj htable => ⟨hfresh.tables j hj htable, (h.tables_apart hj htable).1⟩
  obtain ⟨hptr, hslots, hpage⟩ := withTable_reads (phys >>> 12) hslot hempty hfresh.ne
    (by have := hfresh.lt; unfold SIZEOF_PAGE_TABLE at this; omega) hfresh.directory htables
  have hbits : SameOn s.kheap.mem (withTable s.kheap.mem dir slot table (phys >>> 12))
      s.pmm.bitmap 131072 := by
    intro x h1 h2
    have hb := hfresh.bitmap
    have hd := h.bitmap_apart.1
    unfold SIZEOF_PAGE_TABLE SIZEOF_PAGE_DIRECTORY at *
    unfold withTable directory_table directory_entry SIZEOF_PAGE_TABLE
    rw [store32_frame _ _ (by omega), store32_frame _ _ (by omega), fill_frame _ _ _ _ _ (by omega)]
  have hnew : ∀ i, i < 1024 → tablePtr s.kheap.mem dir i ≠ table := by
    intro i hi heq
    have hapart := hfresh.tables i hi (by rw [heq]; exact hfresh.ne)
    unfold SIZEOF_PAGE_TABLE at hapart
    omega
  refine ⟨rfl, hstart, ⟨hk.setMem _, h.frames, List.mem_cons_of_mem _ h.bitmap,
    List.mem_cons_of_mem _ h.directory, ?_, ?_⟩, ?_, hpage, hptr, ?_, ⟨phys, hphys, ?_⟩, hroom, ?_⟩
  · intro i hi htable
    simp only [hptr i hi] at htable ⊢
    by_cases heq : i = slot
    · rw [if_pos heq]
      exact List.mem_cons_self
    · rw [if_neg heq] at htable ⊢
      exact List.mem_cons_of_mem _ (h.table i hi htable)
  · intro i j hi hj htable heq
    simp only [hptr i hi, hptr j hj] at htable heq
    by_cases h1 : i = slot
    · by_cases h2 : j = slot
      · rw [h1, h2]
      · rw [if_pos h1, if_neg h2] at heq
        exact absurd heq.symm (hnew j hj)
    · rw [if_neg h1] at htable heq
      by_cases h2 : j = slot
      · rw [if_pos h2] at heq
        exact absurd heq (hnew i hi)
      · rw [if_neg h2] at heq
        exact h.table_inj i j hi hj htable heq
  · intro f hf
    exact bit_congr hbits (by omega)
  · intro i hi hne
    simp only [hslots i hi, if_neg hne]
  · simp only [hslots slot hslot, if_true]
  · intro x hx
    obtain ⟨h1, h2⟩ := h.bumped.inside _ h.directory
    obtain ⟨h3, h4⟩ := hk.inside _ List.mem_cons_self
    simp only [SIZEOF_PAGE_DIRECTORY, SIZEOF_PAGE_TABLE, hstart] at h1 h2 h3 h4
    unfold withTable directory_table directory_entry SIZEOF_PAGE_TABLE
    simp only
    rw [store32_frame _ _ (by omega), store32_frame _ _ (by omega), fill_frame _ _ _ _ _ (by omega)]

/-- A page of the placement area. -/
def InArea (s : Mm) (table : Nat) : Prop :=
  table % 4096 = 0 ∧ s.kheap.kheap_placement_memory ≤ table ∧
    table + SIZEOF_PAGE_TABLE ≤ s.kheap.kheap_placement_memory + KHEAP_PLACEMENT_SIZE

/-- The area has no room for a table, or gives out a page that is zeroed before the
directory is asked where it lies. -/
theorem table_alloc (h : Paged s dir grants) :
    (kmalloc_flag s.kheap SIZEOF_PAGE_TABLE PAGE_FLAGS = .done NULL s.kheap ∧
      s.kheap.kheap_placement_memory_free_memory < 8192) ∨
    ∃ table k, kmalloc_flag s.kheap SIZEOF_PAGE_TABLE PAGE_FLAGS = .done table k ∧ table ≠ NULL ∧
      InArea s table ∧ Fresh s dir table ∧
      Bumped ⟨k, ⟨table, SIZEOF_PAGE_TABLE, PAGE_FLAGS⟩ :: grants⟩ ∧
      k.mem = fill s.kheap.mem table 0 SIZEOF_PAGE_TABLE ∧ SameTables s.kheap.mem k.mem dir ∧
      k.kheap_placement_memory = s.kheap.kheap_placement_memory ∧
      s.kheap.kheap_placement_memory_free_memory ≤
        k.kheap_placement_memory_free_memory + 8191 := by
  rcases page_alloc h.bumped SIZEOF_PAGE_TABLE (by decide) with ⟨heq, hroom⟩ |
    ⟨table, k, heq, hne, hmod, hk, hmem, hstart, hroom⟩
  · exact Or.inl ⟨heq, hroom⟩
  · have hfresh := fresh_of_grant h hne hk
    obtain ⟨h1, h2⟩ := hk.inside _ List.mem_cons_self
    simp only [hstart] at h1 h2
    have hsame : SameTables s.kheap.mem k.mem dir := by
      rw [hmem]
      refine sameTables_of (fun x h1 h2 => fill_frame _ _ _ _ _ ?_) fun j hj htable x h1 h2 =>
        fill_frame _ _ _ _ _ ?_
      · have := hfresh.directory
        omega
      · have := hfresh.tables j hj htable
        omega
    exact Or.inr ⟨table, k, heq, hne, ⟨hmod, h1, h2⟩, hfresh, hk, hmem, hsame, hstart, hroom⟩

theorem map_table_new (h : Paged s dir grants) {va dict : Nat} (hva : va < 4294967296)
    (hdict : dict = NULL ∨ dict = dir)
    (hempty : tablePtr s.kheap.mem dir (va / 4096 / 1024) = 0) :
    (vmm_map_table s dir dict va =
        .kpanic KPANIC_OUT_OF_MEMORY "Memory allocation failed." s ∧
      s.kheap.kheap_placement_memory_free_memory < 8192) ∨
    ∃ table, InArea s table ∧ table ≠ NULL ∧
      ((vmm_virtual_to_physical_address s.kheap.mem dict table = none ∧
        ∃ t, vmm_map_table s dir dict va = .fault t) ∨
      ∃ t, vmm_map_table s dir dict va = .done table t ∧
        Tabled s t dir dict (va / 4096 / 1024) table grants) := by
  have hnull : load32 s.kheap.mem (directory_table dir (va / 4096 / 1024)) = NULL := hempty
  have hslot : va / 4096 / 1024 < 1024 := by omega
  rcases table_alloc h with ⟨heq, hroom⟩ |
    ⟨table, k, heq, hne, harea, hfresh, hk, hmem, hsame, hstart, hroom⟩
  · refine Or.inl ⟨?_, hroom⟩
    unfold PAGE_FLAGS at heq
    unfold vmm_map_table
    simp only [directory_index_eq, hnull, heq, if_true, Outcome.done_lift, Outcome.done_andThen]
  · refine Or.inr ⟨table, harea, hne, ?_⟩
    have hlt : table < 4294967296 := by
      have := hfresh.lt
      omega
    have htranslate := virtual_to_physical_congr table hdict (hsame.ptr _ (by omega))
      (hsame.page _ (by omega))
    unfold PAGE_FLAGS at heq
    unfold vmm_map_table
    simp only [directory_index_eq, hnull, heq, hne, if_true, if_false, Outcome.done_lift,
      Outcome.done_andThen, htranslate]
    cases hphys : vmm_virtual_to_physical_address s.kheap.mem dict table with
    | none => exact Or.inl ⟨rfl, _, rfl⟩
    | some phys =>
      refine Or.inr ⟨_, rfl, ?_⟩
      have hword : load32 k.mem (directory_entry dir (va / 4096 / 1024)) =
          slotWord s.kheap.mem dir (va / 4096 / 1024) := hsame.slot _ hslot
      simp only [slot_entry_eq, hword, Mm.setMem]
      simp only [hmem]
      exact tabled_of_grant h hslot hempty hfresh hk hstart hroom hphys

/-! ## The entry of a page -/

/-- A store to the entry of a page leaves everything else. -/
theorem write_entry (h : Paged s dir grants) {page w : Nat} (hpage : page < 0x100000)
    (htable : tablePtr s.kheap.mem dir (page / 1024) ≠ 0) (hw : w < 4294967296) :
    let m := store32 s.kheap.mem
      (table_entry (tablePtr s.kheap.mem dir (page / 1024)) (page % 1024)) w
    Paged (s.setMem m) dir grants ∧
    (∀ i, i < 1024 → tablePtr m dir i = tablePtr s.kheap.mem dir i ∧
      slotWord m dir i = slotWord s.kheap.mem dir i) ∧
    (∀ p, p < 0x100000 → pageWord m dir p = if p = page then w else pageWord s.kheap.mem dir p) ∧
    (∀ f, f < 0x100000 → pmm_test_frame (s.setMem m) f = pmm_test_frame s f) ∧
    OnlyArea s (s.setMem m) := by
  intro m
  have hidx : page / 1024 < 1024 := by omega
  obtain ⟨hdir, hothers⟩ := h.tables_apart hidx htable
  have hbitmap := h.bitmap_apart.2 _ hidx htable
  unfold SIZEOF_PAGE_DIRECTORY SIZEOF_PAGE_TABLE at *
  have houtside : ∀ x, x < tablePtr s.kheap.mem dir (page / 1024) ∨
      tablePtr s.kheap.mem dir (page / 1024) + 4096 ≤ x → m x = s.kheap.mem x := by
    intro x hx
    refine store32_frame _ _ ?_
    unfold table_entry
    omega
  have hdirectory : SameOn s.kheap.mem m dir SIZEOF_PAGE_DIRECTORY := by
    unfold SIZEOF_PAGE_DIRECTORY
    exact fun x h1 h2 => houtside x (by omega)
  have hptr : ∀ i, i < 1024 → tablePtr m dir i = tablePtr s.kheap.mem dir i :=
    fun i hi => tablePtr_congr hdirectory hi
  refine ⟨⟨h.bumped.setMem _, h.frames, h.bitmap, h.directory, ?_, ?_⟩,
    fun i hi => ⟨hptr i hi, slotWord_congr hdirectory hi⟩, ?_, ?_, ?_⟩
  · intro i hi hne
    simp only [Mm.setMem, hptr i hi] at hne ⊢
    exact h.table i hi hne
  · intro i j hi hj hne heq
    simp only [Mm.setMem, hptr i hi, hptr j hj] at hne heq
    exact h.table_inj i j hi hj hne heq
  · intro p hp
    by_cases hslot : p / 1024 = page / 1024
    · have hword : pageWord m dir p =
          load32 m (table_entry (tablePtr s.kheap.mem dir (page / 1024)) (p % 1024)) := by
        unfold pageWord
        rw [hptr _ (by omega), hslot, if_neg htable]
      have hold : pageWord s.kheap.mem dir p = load32 s.kheap.mem
          (table_entry (tablePtr s.kheap.mem dir (page / 1024)) (p % 1024)) := by
        unfold pageWord
        rw [hslot, if_neg htable]
      rw [hword, hold]
      by_cases heq : p = page
      · rw [if_pos heq, heq]
        exact load32_store32 _ _ hw
      · rw [if_neg heq]
        refine load32_store32_ne _ _ ?_
        unfold table_entry
        omega
    · have hne : p ≠ page := by
        intro heq
        exact hslot (by rw [heq])
      rw [if_neg hne]
      refine pageWord_congr (hptr _ (by omega)) fun hptr' x h1 h2 => houtside x ?_
      have := hothers _ (by omega) hslot hptr'
      unfold SIZEOF_PAGE_TABLE at h2
      omega
  · intro f hf
    refine bit_congr (n := 131072) (fun x h1 h2 => houtside x ?_) (by omega)
    simp only [Mm.setMem] at h1 h2
    omega
  · intro x hx
    obtain ⟨h1, h2⟩ := h.bumped.inside _ (h.table _ hidx htable)
    simp only [SIZEOF_PAGE_TABLE] at h1 h2
    exact houtside x (by omega)

/-! ## One page -/

/-- The frame allocator is the same. -/
structure SameFrames (s t : Mm) : Prop where
  pmm : t.pmm = s.pmm
  bits : ∀ f, f < 0x100000 → pmm_test_frame t f = pmm_test_frame s f

/-- What `vmm_map_page` leaves: the entry of the page is written, every other entry is
as before, and so are the slots that had a table. -/
structure Mapped (s t : Mm) (dir dict va pa : Nat) (is_kernel is_writeable : Bool)
    (grants : List Grant) : Prop where
  start : t.kheap.kheap_placement_memory = s.kheap.kheap_placement_memory
  paged : ∃ grants', Paged t dir grants' ∧ ∀ g ∈ grants, g ∈ grants'
  page : ∀ page, page < 0x100000 → pageWord t.kheap.mem dir page =
    if page = va / 4096 then
      mapWord (pageWord s.kheap.mem dir page) (pa / 4096) is_kernel is_writeable
    else pageWord s.kheap.mem dir page
  table : tablePtr t.kheap.mem dir (va / 4096 / 1024) ≠ 0
  slot : ∀ i, i < 1024 → i ≠ va / 4096 / 1024 ∨ tablePtr s.kheap.mem dir i ≠ 0 →
    tablePtr t.kheap.mem dir i = tablePtr s.kheap.mem dir i ∧
    slotWord t.kheap.mem dir i = slotWord s.kheap.mem dir i
  slot_new : tablePtr s.kheap.mem dir (va / 4096 / 1024) = 0 → ∃ phys w,
    vmm_virtual_to_physical_address s.kheap.mem dict
      (tablePtr t.kheap.mem dir (va / 4096 / 1024)) = some phys ∧
    slotWord t.kheap.mem dir (va / 4096 / 1024) = slotEntryWord w (phys >>> 12)
  room : s.kheap.kheap_placement_memory_free_memory ≤
    t.kheap.kheap_placement_memory_free_memory + 8191
  room_old : tablePtr s.kheap.mem dir (va / 4096 / 1024) ≠ 0 →
    t.kheap.kheap_placement_memory_free_memory = s.kheap.kheap_placement_memory_free_memory
  outside : OnlyArea s t
  bitmap : t.pmm.bitmap = s.pmm.bitmap

/-- The page is mapped once its table is there. -/
theorem map_page_tabled {u : Mm} (hu : Paged u dir grants) {va dict : Nat} (pa : Nat)
    (is_kernel is_writeable : Bool) (hva : va < 4294967296)
    (htable : tablePtr u.kheap.mem dir (va / 4096 / 1024) ≠ 0)
    (heq : vmm_map_table s dir dict va =
      .done (tablePtr u.kheap.mem dir (va / 4096 / 1024)) u) :
    ∃ t, vmm_map_page s dir dict va pa is_kernel is_writeable = .done () t ∧
      Mapped u t dir dict va pa is_kernel is_writeable grants ∧ SameFrames u t := by
  have hpage : va / 4096 < 0x100000 := by omega
  have hlt : pageWord u.kheap.mem dir (va / 4096) < 4294967296 := by
    unfold pageWord
    rw [if_neg htable]
    exact load32_lt _ _
  obtain ⟨hpaged, hslots, hwords, hbits, houtside⟩ := write_entry hu hpage htable
    (mapWord_lt _ (pa / 4096) is_kernel is_writeable hlt)
  refine ⟨u.setMem (store32 u.kheap.mem
      (table_entry (tablePtr u.kheap.mem dir (va / 4096 / 1024)) (va / 4096 % 1024))
      (mapWord (pageWord u.kheap.mem dir (va / 4096)) (pa / 4096) is_kernel is_writeable)),
    ?_, ⟨rfl, ⟨grants, hpaged, fun _ hg => hg⟩, ?_, ?_, fun i hi _ => hslots i hi, ?_,
    Nat.le_add_right _ _, fun _ => rfl, houtside, rfl⟩, ⟨rfl, hbits⟩⟩
  · unfold vmm_map_page
    rw [heq]
    simp only [Outcome.done_andThen, map_entry_eq, table_index_eq, address_to_index_eq]
    unfold pageWord
    rw [if_neg htable]
  · intro page hp
    simp only [Mm.setMem, hwords page hp]
    by_cases hsame : page = va / 4096
    · rw [if_pos hsame, if_pos hsame, hsame]
    · rw [if_neg hsame, if_neg hsame]
  · simp only [Mm.setMem, (hslots _ (show va / 4096 / 1024 < 1024 by omega)).1]
    exact htable
  · intro hempty
    exact absurd hempty htable

/-- `vmm_map_page` stops when the area has no room for a table, or when the directory
has no table for the place of the new one, and else it maps the page. -/
theorem map_page_cases (h : Paged s dir grants) {va : Nat} (dict pa : Nat)
    (is_kernel is_writeable : Bool) (hva : va < 4294967296) (hdict : dict = NULL ∨ dict = dir) :
    (vmm_map_page s dir dict va pa is_kernel is_writeable =
        .kpanic KPANIC_OUT_OF_MEMORY "Memory allocation failed." s ∧
      tablePtr s.kheap.mem dir (va / 4096 / 1024) = 0 ∧
      s.kheap.kheap_placement_memory_free_memory < 8192) ∨
    (∃ t table, vmm_map_page s dir dict va pa is_kernel is_writeable = .fault t ∧
      InArea s table ∧ vmm_virtual_to_physical_address s.kheap.mem dict table = none) ∨
    ∃ t, vmm_map_page s dir dict va pa is_kernel is_writeable = .done () t ∧
      Mapped s t dir dict va pa is_kernel is_writeable grants ∧ SameFrames s t := by
  have hslot : va / 4096 / 1024 < 1024 := by omega
  by_cases hempty : tablePtr s.kheap.mem dir (va / 4096 / 1024) = 0
  · rcases map_table_new h hva hdict hempty with ⟨heq, hroom⟩ |
      ⟨table, harea, hne, ⟨hnone, u, heq⟩ | ⟨u, heq, hu⟩⟩
    · refine Or.inl ⟨?_, hempty, hroom⟩
      unfold vmm_map_page
      rw [heq]
      rfl
    · refine Or.inr (Or.inl ⟨u, table, ?_, harea, hnone⟩)
      unfold vmm_map_page
      rw [heq]
      rfl
    · have hptr : tablePtr u.kheap.mem dir (va / 4096 / 1024) = table := by
        rw [hu.ptr _ hslot, if_pos rfl]
      rw [← hptr] at heq
      obtain ⟨t, hdone, ht, hsame⟩ := map_page_tabled hu.paged pa is_kernel
        is_writeable hva (by rw [hptr]; exact hne) heq
      refine Or.inr (Or.inr ⟨t, hdone, ?_⟩)
      have htable : tablePtr t.kheap.mem dir (va / 4096 / 1024) = table := by
        rw [(ht.slot _ hslot (Or.inr (by rw [hptr]; exact hne))).1, hptr]
      obtain ⟨grants', hpaged, hmem⟩ := ht.paged
      obtain ⟨phys, hphys, hword⟩ := hu.slot_new
      refine ⟨⟨ht.start.trans hu.start,
        ⟨grants', hpaged, fun g hg => hmem g (List.mem_cons_of_mem _ hg)⟩, ?_, ht.table, ?_, ?_, ?_,
        ?_, hu.outside.trans hu.start ht.outside, ht.bitmap.trans (by rw [hu.pmm])⟩,
        ⟨hsame.pmm.trans hu.pmm, fun f hf => (hsame.bits f hf).trans (hu.bits f hf)⟩⟩
      · intro page hp
        rw [ht.page page hp, hu.page page hp]
      · intro i hi hcond
        have hi' : i ≠ va / 4096 / 1024 := by
          rcases hcond with hcond | hcond
          · exact hcond
          · intro heq'
            exact hcond (by rw [heq', hempty])
        obtain ⟨h1, h2⟩ := ht.slot i hi (Or.inl hi')
        rw [h1, h2, hu.ptr i hi, if_neg hi', hu.slot_ne i hi hi']
        exact ⟨rfl, rfl⟩
      · intro _
        refine ⟨phys, slotWord s.kheap.mem dir (va / 4096 / 1024), by rw [htable]; exact hphys, ?_⟩
        rw [(ht.slot _ hslot (Or.inr (by rw [hptr]; exact hne))).2]
        exact hword
      · have h1 := hu.room
        have h2 := ht.room_old (by rw [hptr]; exact hne)
        omega
      · intro hne'
        exact absurd hempty hne'
  · exact Or.inr (Or.inr
      (map_page_tabled h pa is_kernel is_writeable hva hempty (map_table_old va dict hempty)))

theorem map_page_spec (h : Paged s dir grants) {va dict pa : Nat} {is_kernel is_writeable : Bool}
    {t : Mm} (hva : va < 4294967296) (hdict : dict = NULL ∨ dict = dir)
    (heq : vmm_map_page s dir dict va pa is_kernel is_writeable = .done () t) :
    Mapped s t dir dict va pa is_kernel is_writeable grants ∧ SameFrames s t := by
  rcases map_page_cases h dict pa is_kernel is_writeable hva hdict with ⟨h1, _⟩ | ⟨_, _, h1, _⟩ |
    ⟨u, h1, hu⟩
  · cases h1.symm.trans heq
  · cases h1.symm.trans heq
  · cases h1.symm.trans heq
    exact hu

/-- Marks do not undo a mapping. -/
theorem Mapped.marked {u t : Mm} {va dict pa : Nat} {is_kernel is_writeable : Bool}
    (h : Mapped s u dir dict va pa is_kernel is_writeable grants) (hva : va < 4294967296)
    (ht : Marked u t) : Mapped s t dir dict va pa is_kernel is_writeable grants := by
  obtain ⟨grants', hpaged, hmem⟩ := h.paged
  obtain ⟨hpaged', hsame⟩ := hpaged.marked ht
  have hslot : va / 4096 / 1024 < 1024 := by omega
  have hstart : t.kheap.kheap_placement_memory = u.kheap.kheap_placement_memory := by
    rw [ht.kheap]
  have hfree : t.kheap.kheap_placement_memory_free_memory =
      u.kheap.kheap_placement_memory_free_memory := by
    rw [ht.kheap]
  refine ⟨hstart.trans h.start, ⟨grants', hpaged', hmem⟩, ?_, ?_, ?_, ?_, ?_, ?_, ?_,
    ht.bitmap.trans h.bitmap⟩
  · intro page hp
    rw [hsame.page page hp, h.page page hp]
  · rw [hsame.ptr _ hslot]
    exact h.table
  · intro i hi hcond
    rw [hsame.ptr i hi, hsame.slot i hi]
    exact h.slot i hi hcond
  · intro hempty
    rw [hsame.ptr _ hslot, hsame.slot _ hslot]
    exact h.slot_new hempty
  · rw [hfree]
    exact h.room
  · intro htable
    rw [hfree]
    exact h.room_old htable
  · refine h.outside.trans h.start fun x hx => ht.outside x ?_
    obtain ⟨h1, h2⟩ := hpaged.bumped.inside _ hpaged.bitmap
    simp only at h1 h2
    omega

/-- One turn of the loops that map a range: map a page, and reserve its frame. -/
theorem map_and_reserve (h : Paged s dir grants) {va pa : Nat} {u : Mm} (dict : Nat)
    (hva : va < 4294967296) (hpa : pa < 4294967296) (hdict : dict = NULL ∨ dict = dir)
    (heq : vmm_map_page s dir dict va pa true true = .done () u) :
    Mapped s (pmm_mark_frame_reserved u pa) dir dict va pa true true grants ∧
    (pmm_mark_frame_reserved u pa).pmm.num_memory_frames = s.pmm.num_memory_frames ∧
    ∀ f, f < 0x100000 → pmm_test_frame (pmm_mark_frame_reserved u pa) f =
      (decide (pa / 4096 = f) || pmm_test_frame s f) := by
  obtain ⟨hmapped, hsame⟩ := map_page_spec h hva hdict heq
  have hindex := address_to_index_eq pa
  have hmark : Marked u (pmm_mark_frame_reserved u pa) := by
    unfold pmm_mark_frame_reserved
    rw [hindex]
    exact marked_set u (by omega)
  refine ⟨hmapped.marked hva hmark, ?_, ?_⟩
  · rw [hmark.frames, hsame.pmm]
  · intro f hf
    unfold pmm_mark_frame_reserved
    rw [test_set_frame, hindex, hsame.bits f hf]

end

end sakana_os
