-- The loops of `vmm_map_memory`: the free frames go to the pages of the range in order,
-- and when they run out every frame of the range is given back.
import Mathlib.Data.Finset.Card
import Mathlib.Order.Interval.Finset.Nat
import SakanaOS.FreeRanges
import SakanaOS.VmmRuns

open byte_memory bitmaps bit_fields runs

namespace sakana_os

/-! ## The pages of a range -/

/-- The page that a loop over the range at `va` comes to in turn `i`. -/
def rangePage (va i : Nat) : Nat := (va / 4096 + i) % 0x100000

theorem rangePage_lt (va i : Nat) : rangePage va i < 0x100000 := by
  unfold rangePage
  omega

theorem rangePage_ne {va i j : Nat} (hij : i < j) (hlt : j < i + 0x100000) :
    rangePage va i ≠ rangePage va j := by
  unfold rangePage
  omega

theorem rangePage_down (va i : Nat) : rangePage (va / 4096 * 4096) i = rangePage va i := by
  unfold rangePage
  omega

theorem range_address {va : Nat} (hva : va % 4096 = 0) (i : Nat) :
    add32 va (mul32 i PAGE_SIZE) / 4096 = rangePage va i ∧
      add32 va (mul32 i PAGE_SIZE) % 4096 = 0 := by
  unfold rangePage add32 mul32 PAGE_SIZE
  omega

/-! ## The free frames -/

theorem freeFrames_nodup (s : Mm) (start : Nat) : (freeFrames s start).Nodup := by
  unfold freeFrames
  exact (List.nodup_range' (h := Nat.one_pos)).filter _

theorem freeFrames_length {s : Mm} (h : s.pmm.num_memory_frames = TOP_FRAME) (start : Nat) :
    (freeFrames s start).length < 0x100000 := by
  have hle : (freeFrames s start).length ≤
      (List.range' start (s.pmm.num_memory_frames - start)).length := List.length_filter_le _ _
  rw [List.length_range', h, TOP_FRAME] at hle
  omega

/-- When the first free frame is taken, the others are left. -/
theorem freeFrames_take {s t : Mm} {start f : Nat} {fs : List Nat}
    (hframes : t.pmm.num_memory_frames = s.pmm.num_memory_frames)
    (hbits : ∀ g, g < s.pmm.num_memory_frames →
      pmm_test_frame t g = (decide (f = g) || pmm_test_frame s g))
    (hfree : freeFrames s start = f :: fs) : freeFrames t start = fs := by
  have hnodup := freeFrames_nodup s start
  rw [hfree] at hnodup
  have hmem : ∀ g ∈ fs, g ≠ f := by
    intro g hg heq
    rw [heq] at hg
    exact (List.nodup_cons.mp hnodup).1 hg
  have hfilter : freeFrames t start = (freeFrames s start).filter fun g => g ≠ f := by
    unfold freeFrames
    rw [hframes, List.filter_filter]
    apply List.filter_congr
    intro g hg
    have hlt := (List.mem_range'_1.mp hg)
    rw [hbits g (by omega), Bool.not_or]
    congr 1
    rw [← decide_not]
    exact decide_eq_decide.mpr ne_comm
  rw [hfilter, hfree, List.filter_cons_of_neg (by simp)]
  exact List.filter_eq_self.mpr fun g hg => decide_eq_true (hmem g hg)

/-- The first free frame and those behind it are all there are. -/
theorem freeFrames_from_first {s : Mm} {start f : Nat} {fs : List Nat}
    (hfree : freeFrames s start = f :: fs) : freeFrames s f = f :: fs := by
  obtain ⟨hle, hlt, -⟩ := mem_freeFrames.mp (hfree ▸ List.mem_cons_self : f ∈ freeFrames s start)
  have hcount : s.pmm.num_memory_frames - start = f - start + (s.pmm.num_memory_frames - f) := by
    omega
  have hsplit : freeFrames s start =
      ((List.range' start (f - start)).filter fun g => !pmm_test_frame s g) ++ freeFrames s f := by
    unfold freeFrames
    rw [← List.filter_append, hcount, ← List.range'_append_1, Nat.add_sub_cancel' hle]
  cases hbefore : (List.range' start (f - start)).filter fun g => !pmm_test_frame s g with
  | nil =>
    rw [hbefore, List.nil_append, hfree] at hsplit
    exact hsplit.symm
  | cons g gs =>
    rw [hbefore, hfree, List.cons_append, List.cons.injEq] at hsplit
    have hg : g ∈ (List.range' start (f - start)).filter fun g => !pmm_test_frame s g := by
      rw [hbefore]
      exact List.mem_cons_self
    have hrange := List.mem_range'_1.mp (List.mem_filter.mp hg).1
    omega

/-- Without an address the search starts from frame 0. -/
theorem find_free_frame_spec {s : Mm} (h : s.pmm.num_memory_frames = TOP_FRAME)
    (hzero : pmm_test_frame s 0 = true) :
    (pmm_find_free_frame s = NULL → freeFrames s 0 = []) ∧
      (pmm_find_free_frame s ≠ NULL →
        freeFrames s (pmm_find_free_frame s / 4096) = freeFrames s 0) := by
  have hfind := find_free_frame_from_eq h PMM_PAS_BASE
  change pmm_find_free_frame s = _ at hfind
  rw [show PMM_PAS_BASE / 4096 = 0 from rfl] at hfind
  cases hfree : freeFrames s 0 with
  | nil =>
    rw [hfree] at hfind
    exact ⟨fun _ => rfl, fun hne => absurd hfind hne⟩
  | cons f fs =>
    rw [hfree] at hfind
    rw [hfind]
    refine ⟨fun hnull => ?_, fun _ => ?_⟩
    · obtain ⟨-, -, hbit⟩ := mem_freeFrames.mp (hfree ▸ List.mem_cons_self : f ∈ freeFrames s 0)
      have hf : f = 0 := by
        simp only [NULL] at hnull
        omega
      rw [hf, hzero] at hbit
      cases hbit
    · rw [Nat.mul_div_cancel _ (by decide)]
      exact freeFrames_from_first hfree

/-! ## The loop that maps -/

/-- What the loop of `vmm_map_memory` leaves when it gives the frames of a list to the
pages of the range from turn `i` on. -/
structure RangeMapped (s t : Mm) (dir va i : Nat) (given : List Nat) : Prop where
  paged : ∃ grants, Paged t dir grants
  bits : ∀ f, f < 0x100000 → pmm_test_frame t f = (decide (f ∈ given) || pmm_test_frame s f)
  other : ∀ page, page < 0x100000 → (∀ j, j < given.length → rangePage va (i + j) ≠ page) →
    pageWord t.kheap.mem dir page = pageWord s.kheap.mem dir page
  mapped : ∀ j f, given[j]? = some f → pagePresent t.kheap.mem dir (rangePage va (i + j)) ∧
    pageUsed t.kheap.mem dir (rangePage va (i + j)) ∧
    pageFrame t.kheap.mem dir (rangePage va (i + j)) = f
  word : ∀ j f, given[j]? = some f → ∃ w,
    pageWord t.kheap.mem dir (rangePage va (i + j)) = mapWord w f true true
  table : ∀ k, k < 1024 → (tablePtr t.kheap.mem dir k ≠ 0 ↔ tablePtr s.kheap.mem dir k ≠ 0 ∨
    ∃ j, j < given.length ∧ rangePage va (i + j) / 1024 = k)

theorem rangeMapped_nil {s : Mm} {dir : Nat} {grants : List Grant} (h : Paged s dir grants)
    (va i : Nat) : RangeMapped s s dir va i [] := by
  refine ⟨⟨grants, h⟩, ?_, fun _ _ _ => rfl, ?_, ?_, ?_⟩
  · intro f _
    rw [decide_eq_false List.not_mem_nil, Bool.false_or]
  · intro j f hf
    cases hf
  · intro j f hf
    cases hf
  · intro k _
    refine ⟨Or.inl, fun hk => hk.resolve_right ?_⟩
    rintro ⟨j, hj, -⟩
    cases hj

/-- One turn, before the others. -/
theorem RangeMapped.cons {s u t : Mm} {dir va i f : Nat} {given : List Nat} {grants : List Grant}
    (hmapped : Mapped s u dir dir (add32 va (mul32 i PAGE_SIZE)) (f * 4096) true true grants)
    (hbits : ∀ g, g < 0x100000 → pmm_test_frame u g = (decide (f = g) || pmm_test_frame s g))
    (hva : va % 4096 = 0) (hf : f < 0x100000) (hlength : given.length < 0xFFFFF)
    (h : RangeMapped u t dir va (i + 1) given) : RangeMapped s t dir va i (f :: given) := by
  have hpage := (range_address hva i).1
  have hframe : f * 4096 / 4096 = f := by omega
  have hshift : ∀ j, i + (j + 1) = i + 1 + j := by omega
  -- The later turns come to other pages.
  have hword : pageWord t.kheap.mem dir (rangePage va i) =
      mapWord (pageWord s.kheap.mem dir (rangePage va i)) f true true := by
    rw [h.other _ (rangePage_lt va i) fun j hj =>
      (@rangePage_ne va i (i + 1 + j) (by omega) (by omega)).symm,
      hmapped.page _ (rangePage_lt va i), hpage, if_pos rfl, hframe]
  refine ⟨h.paged, ?_, ?_, ?_, ?_, ?_⟩
  · intro g hg
    rw [h.bits g hg, hbits g hg, ← Bool.or_assoc, ← Bool.decide_or]
    congr 1
    apply decide_eq_decide.mpr
    rw [List.mem_cons, or_comm, @eq_comm _ f g]
  · intro page hp hne
    have hfirst : page ≠ rangePage va i := (hne 0 (Nat.zero_lt_succ _)).symm
    rw [h.other page hp ?_, hmapped.page page hp, hpage, if_neg hfirst]
    intro j hj
    rw [← hshift]
    exact hne (j + 1) (Nat.succ_lt_succ hj)
  · intro j g hg
    cases j with
    | zero =>
      cases hg
      unfold pagePresent pageUsed pageFrame
      rw [Nat.add_zero, hword, mapWord_present, mapWord_available, mapWord_base _ _ _ _ hf]
      exact ⟨rfl, rfl, rfl⟩
    | succ j =>
      rw [hshift]
      exact h.mapped j g hg
  · intro j g hg
    cases j with
    | zero =>
      cases hg
      exact ⟨_, hword⟩
    | succ j =>
      rw [hshift]
      exact h.word j g hg
  · intro k hk
    have hfirst : tablePtr u.kheap.mem dir k ≠ 0 ↔
        tablePtr s.kheap.mem dir k ≠ 0 ∨ rangePage va i / 1024 = k := by
      have htable := hmapped.table
      have hkept := hmapped.slot k hk
      rw [hpage] at htable hkept
      by_cases hslot : rangePage va i / 1024 = k
      · rw [hslot] at htable
        exact iff_of_true htable (Or.inr hslot)
      · rw [(hkept (Or.inl (Ne.symm hslot))).1]
        exact ⟨Or.inl, fun hor => hor.resolve_right hslot⟩
    rw [h.table k hk, hfirst, or_assoc]
    apply or_congr_right
    constructor
    · rintro (hzero | ⟨j, hj, hslot⟩)
      · exact ⟨0, Nat.zero_lt_succ _, hzero⟩
      · exact ⟨j + 1, Nat.succ_lt_succ hj, by rw [hshift]; exact hslot⟩
    · rintro ⟨j, hj, hslot⟩
      cases j with
      | zero => exact Or.inl hslot
      | succ j =>
        rw [hshift] at hslot
        exact Or.inr ⟨j, Nat.lt_of_succ_lt_succ hj, hslot⟩

/-- The loop gives the free frames to the pages in order, and is told when they run out. -/
theorem map_pages_spec {dir va pa : Nat} (hva : va % 4096 = 0) (turns : Nat) {i : Nat} {s t : Mm}
    {grants : List Grant} {mapped : Bool} (h : Paged s dir grants)
    (hzero : pmm_test_frame s 0 = true)
    (heq : vmm_map_pages dir va pa turns i s = .done mapped t) :
    RangeMapped s t dir va i ((freeFrames s (pa / 4096)).take turns) ∧
      mapped = decide (turns ≤ (freeFrames s (pa / 4096)).length) := by
  induction turns generalizing i s grants with
  | zero =>
    cases heq
    exact ⟨rangeMapped_nil h va i, (decide_eq_true (Nat.zero_le _)).symm⟩
  | succ turns ih =>
    rw [vmm_map_pages, find_free_frame_from_eq h.frames] at heq
    cases hfree : freeFrames s (pa / 4096) with
    | nil =>
      simp only [hfree, if_true] at heq
      cases heq
      exact ⟨rangeMapped_nil h va i, (decide_eq_false (Nat.not_succ_le_zero _)).symm⟩
    | cons f fs =>
      obtain ⟨-, hlt, hbit⟩ :=
        mem_freeFrames.mp (hfree ▸ List.mem_cons_self : f ∈ freeFrames s (pa / 4096))
      have hne : f * 4096 ≠ NULL := by
        intro hnull
        have hf : f = 0 := by
          simp only [NULL] at hnull
          omega
        rw [hf, hzero] at hbit
        cases hbit
      have hlength := freeFrames_length h.frames (pa / 4096)
      rw [hfree, List.length_cons] at hlength
      rw [h.frames, TOP_FRAME] at hlt
      have hpa : f * 4096 < 4294967296 := by omega
      simp only [hfree, hne, if_false] at heq
      obtain ⟨_, u, hmap, hrest⟩ := Outcome.andThen_eq_done.mp heq
      obtain ⟨hmapped, hframes, hbits⟩ :=
        map_and_reserve h dir (add32_lt _ _) hpa (Or.inr rfl) hmap
      have hframe : f * 4096 / 4096 = f := by omega
      rw [hframe] at hbits
      obtain ⟨grants', hpaged, -⟩ := hmapped.paged
      have hleft : freeFrames (pmm_mark_frame_reserved u (f * 4096)) (pa / 4096) = fs := by
        refine freeFrames_take hframes (fun g hg => hbits g ?_) hfree
        rw [h.frames, TOP_FRAME] at hg
        omega
      have hzero' : pmm_test_frame (pmm_mark_frame_reserved u (f * 4096)) 0 = true := by
        rw [hbits 0 (by omega), hzero, Bool.or_true]
      obtain ⟨hrange, hend⟩ := ih hpaged hzero' hrest
      rw [hleft] at hrange hend
      refine ⟨?_, ?_⟩
      · refine RangeMapped.cons hmapped hbits hva (by omega) ?_ hrange
        rw [List.length_take]
        omega
      · rw [hend, List.length_cons]
        exact decide_eq_decide.mpr Nat.succ_le_succ_iff.symm

/-! ## The loop that unmaps -/

/-- What `vmm_unmap_pages` leaves: the frames of the pages that are present are free,
and there is a table for each page. -/
structure RangeUnmapped (s t : Mm) (dir va i turns : Nat) : Prop where
  marked : Marked s t
  table : ∀ j, i ≤ j → j < i + turns → tablePtr s.kheap.mem dir (rangePage va j / 1024) ≠ 0
  bits : ∀ f, f < 0x100000 → (pmm_test_frame t f = true ↔ pmm_test_frame s f = true ∧
    (f = 0 ∨ ∀ j, i ≤ j → j < i + turns → pagePresent s.kheap.mem dir (rangePage va j) →
      pageFrame s.kheap.mem dir (rangePage va j) ≠ f))

/-- One turn reads through the pointer to the table, and frees the frame of the page. -/
theorem unmap_page_spec {s t : Mm} {dir va : Nat} {grants : List Grant} (h : Paged s dir grants)
    (hva : va % 4096 = 0) (heq : vmm_unmap_page dir s va = .done () t) :
    tablePtr s.kheap.mem dir (va / 4096 / 1024) ≠ 0 ∧ Marked s t ∧
      ∀ f, f < 0x100000 → (pmm_test_frame t f = true ↔ pmm_test_frame s f = true ∧
        (f = 0 ∨ (pagePresent s.kheap.mem dir (va / 4096) →
          pageFrame s.kheap.mem dir (va / 4096) ≠ f))) := by
  unfold vmm_unmap_page at heq
  rw [virtual_to_physical_eq _ h.dir_ne] at heq
  by_cases htable : tablePtr s.kheap.mem dir (va / 4096 / 1024) = 0
  · simp only [htable, if_true] at heq
    cases heq
  · refine ⟨htable, ?_⟩
    have hbit : field (pageWord s.kheap.mem dir (va / 4096)) 0 1 < 2 ^ 1 := field_lt _ _ _
    by_cases hpresent : pagePresent s.kheap.mem dir (va / 4096)
    · have hone := hpresent
      unfold pagePresent at hone
      simp only [htable, hone, if_false, Nat.one_ne_zero, hva, Nat.add_zero] at heq
      have hlt : pageFrame s.kheap.mem dir (va / 4096) < 2 ^ 20 := field_lt _ _ _
      generalize pageFrame s.kheap.mem dir (va / 4096) = g at heq hlt ⊢
      by_cases hzero : g = 0
      · rw [hzero] at heq ⊢
        simp only [Nat.zero_mul, ne_eq, not_true_eq_false, if_false] at heq
        cases heq
        refine ⟨Marked.refl _, fun f _ => ?_⟩
        have : f = 0 ∨ 0 ≠ f := by omega
        simp [hpresent, this]
      · have hne : g * 4096 ≠ NULL := by
          show g * 4096 ≠ 0
          omega
        have hindex : pmm_address_to_index (g * 4096) = g := by
          rw [address_to_index_eq]
          omega
        simp only [hne, ne_eq, not_false_eq_true, if_true] at heq
        cases heq
        unfold pmm_mark_frame_available
        rw [hindex]
        refine ⟨marked_unset s (by omega), fun f _ => ?_⟩
        have : (f = 0 ∨ g ≠ f) ↔ g ≠ f := by omega
        simp [test_unset_frame, hpresent, this, and_comm]
    · have hnone : field (pageWord s.kheap.mem dir (va / 4096)) 0 1 = 0 := by
        unfold pagePresent at hpresent
        omega
      simp only [htable, hnone, if_false, if_true, ne_eq, not_true_eq_false] at heq
      cases heq
      exact ⟨Marked.refl _, fun f _ => by simp [hpresent]⟩

theorem unmap_pages_spec {dir va : Nat} (hva : va % 4096 = 0) (turns : Nat) {i : Nat} {s t : Mm}
    {grants : List Grant} (h : Paged s dir grants)
    (heq : vmm_unmap_pages dir va turns i s = .done () t) :
    RangeUnmapped s t dir va i turns := by
  induction turns generalizing i s with
  | zero =>
    cases heq
    refine ⟨Marked.refl _, fun j _ _ => by omega, fun f _ => ?_⟩
    rw [iff_self_and]
    exact fun _ => Or.inr fun j _ _ => by omega
  | succ turns ih =>
    rw [vmm_unmap_pages] at heq
    obtain ⟨_, u, hpage, hrest⟩ := Outcome.andThen_eq_done.mp heq
    obtain ⟨haddr, hoffset⟩ := range_address hva i
    obtain ⟨htable, hmarked, hbits⟩ := unmap_page_spec h hoffset hpage
    rw [haddr] at htable hbits
    obtain ⟨hpaged, hsame⟩ := h.marked hmarked
    have hnext := ih hpaged hrest
    have hkept : ∀ j, (pagePresent u.kheap.mem dir (rangePage va j) ↔
          pagePresent s.kheap.mem dir (rangePage va j)) ∧
        pageFrame u.kheap.mem dir (rangePage va j) =
          pageFrame s.kheap.mem dir (rangePage va j) := by
      intro j
      unfold pagePresent pageFrame
      rw [hsame.page _ (rangePage_lt va j)]
      exact ⟨Iff.rfl, rfl⟩
    refine ⟨hmarked.trans hnext.marked, ?_, ?_⟩
    · intro j h1 h2
      by_cases hj : j = i
      · rw [hj]
        exact htable
      · have hptr := hnext.table j (by omega) (by omega)
        have hlt := rangePage_lt va j
        rwa [hsame.ptr _ (by omega)] at hptr
    · intro f hf
      rw [hnext.bits f hf, hbits f hf]
      simp only [hkept]
      constructor
      · rintro ⟨⟨hset, hfirst⟩, hothers⟩
        refine ⟨hset, ?_⟩
        rcases hfirst with hzero | hfirst
        · exact Or.inl hzero
        · rcases hothers with hzero | hothers
          · exact Or.inl hzero
          · refine Or.inr fun j h1 h2 => ?_
            by_cases hj : j = i
            · rw [hj]
              exact hfirst
            · exact hothers j (by omega) (by omega)
      · rintro ⟨hset, hall⟩
        rcases hall with hzero | hall
        · exact ⟨⟨hset, Or.inl hzero⟩, Or.inl hzero⟩
        · exact ⟨⟨hset, Or.inr (hall i (Nat.le_refl i) (by omega))⟩,
            Or.inr fun j h1 h2 => hall j (by omega) (by omega)⟩

theorem unmap_page_returns {s : Mm} {dir va : Nat} (hdir : dir ≠ NULL)
    (htable : tablePtr s.kheap.mem dir (va / 4096 / 1024) ≠ 0) :
    ∃ t, vmm_unmap_page dir s va = .done () t := by
  unfold vmm_unmap_page
  rw [virtual_to_physical_eq _ hdir, if_neg htable]
  by_cases hpresent : field (pageWord s.kheap.mem dir (va / 4096)) 0 1 = 0
  · simp only [hpresent, if_true]
    exact ⟨_, rfl⟩
  · simp only [hpresent, if_false]
    exact ⟨_, rfl⟩

/-- The loop returns when there is a table for each page. -/
theorem unmap_pages_returns {dir va : Nat} (hva : va % 4096 = 0) (turns : Nat) {i : Nat} {s : Mm}
    {grants : List Grant} (h : Paged s dir grants)
    (htable : ∀ j, i ≤ j → j < i + turns →
      tablePtr s.kheap.mem dir (rangePage va j / 1024) ≠ 0) :
    ∃ t, vmm_unmap_pages dir va turns i s = .done () t := by
  induction turns generalizing i s with
  | zero => exact ⟨s, rfl⟩
  | succ turns ih =>
    obtain ⟨haddr, hoffset⟩ := range_address hva i
    have hfirst := htable i (Nat.le_refl i) (by omega)
    rw [← haddr] at hfirst
    obtain ⟨u, hpage⟩ := unmap_page_returns h.dir_ne hfirst
    obtain ⟨-, hmarked, -⟩ := unmap_page_spec h hoffset hpage
    obtain ⟨hpaged, hsame⟩ := h.marked hmarked
    obtain ⟨t, hrest⟩ := ih (i := i + 1) hpaged fun j h1 h2 => by
      have hlt := rangePage_lt va j
      rw [hsame.ptr _ (by omega)]
      exact htable j (by omega) (by omega)
    exact ⟨t, Outcome.andThen_eq_done.mpr ⟨(), u, hpage, hrest⟩⟩

/-! ## Ranges that are too large -/

theorem Paged.table_inArea {s : Mm} {dir i : Nat} {grants : List Grant} (h : Paged s dir grants)
    (hi : i < 1024) (htable : tablePtr s.kheap.mem dir i ≠ 0) :
    InArea s (tablePtr s.kheap.mem dir i) := by
  have hgrant := h.table i hi htable
  obtain ⟨h1, h2⟩ := h.bumped.inside _ hgrant
  have haligned := h.bumped.aligned _ hgrant (by decide : PAGE_FLAGS &&& MALLOC_FLAG_ALIGN ≠ 0)
  exact ⟨(is_aligned_iff _).mp haligned, h1, h2⟩

/-- The area has no room for a table in each slot. -/
theorem Paged.empty_slot {s : Mm} {dir : Nat} {grants : List Grant} (h : Paged s dir grants) :
    ∃ i, i < 1024 ∧ tablePtr s.kheap.mem dir i = 0 := by
  by_contra hfull
  push Not at hfull
  have hcard := Finset.card_le_card_of_injOn (s := Finset.range 1024)
    (t := Finset.Icc (s.kheap.kheap_placement_memory / 4096)
      (s.kheap.kheap_placement_memory / 4096 + 256))
    (fun i => tablePtr s.kheap.mem dir i / 4096) ?_ ?_
  · rw [Finset.card_range, Nat.card_Icc] at hcard
    omega
  · intro i hi
    have hlt := Finset.mem_range.mp (Finset.mem_coe.mp hi)
    obtain ⟨-, h1, h2⟩ := h.table_inArea hlt (hfull i hlt)
    simp only [SIZEOF_PAGE_TABLE, KHEAP_PLACEMENT_SIZE] at h2
    simp only [Finset.coe_Icc, Set.mem_Icc]
    omega
  · intro i hi j hj heq
    have hi' := Finset.mem_range.mp (Finset.mem_coe.mp hi)
    have hj' := Finset.mem_range.mp (Finset.mem_coe.mp hj)
    have h1 := (h.table_inArea hi' (hfull i hi')).1
    have h2 := (h.table_inArea hj' (hfull j hj')).1
    simp only at heq
    exact h.table_inj i j hi' hj' (hfull i hi') (by omega)

/-- A range that has all pages is never unmapped. -/
theorem unmap_pages_lt {s t : Mm} {dir va turns : Nat} {grants : List Grant}
    (h : Paged s dir grants) (hva : va % 4096 = 0)
    (heq : vmm_unmap_pages dir va turns 0 s = .done () t) : turns < 0x100000 := by
  obtain ⟨i, hi, hempty⟩ := h.empty_slot
  by_contra hlarge
  have hturn :
      rangePage va ((i * 1024 + 0x100000 - va / 4096 % 0x100000) % 0x100000) / 1024 = i := by
    unfold rangePage
    omega
  refine (unmap_pages_spec hva turns h heq).table
    ((i * 1024 + 0x100000 - va / 4096 % 0x100000) % 0x100000) (Nat.zero_le _) (by omega) ?_
  rw [hturn]
  exact hempty

/-! ## One call -/

/-- A call that returns has given the first free frames to the pages of its range. When
there were too few, the frames of the whole range were given back, and the answer is `NULL`. -/
theorem map_range_done {s t : Mm} {dir va pa size ret : Nat} {grants : List Grant}
    (h : Paged s dir grants) (hzero : pmm_test_frame s 0 = true) (hva : va < 4294967296)
    (hsize : size < 4294967296) (heq : vmm_map_range dir s va pa size = .done ret t) :
    (div_up size PAGE_SIZE = 0 ∨
      size + 4095 < 2147483648 ∧ div_up size PAGE_SIZE = (size + 4095) / 4096) ∧
    ∃ u, vmm_map_pages dir (va / 4096 * 4096) pa (div_up size PAGE_SIZE) 0 s =
        .done (decide (div_up size PAGE_SIZE ≤ (freeFrames s (pa / 4096)).length)) u ∧
      RangeMapped s u dir (va / 4096 * 4096) 0
        ((freeFrames s (pa / 4096)).take (div_up size PAGE_SIZE)) ∧
      ((div_up size PAGE_SIZE ≤ (freeFrames s (pa / 4096)).length ∧ ret = va / 4096 * 4096 ∧
          t = u) ∨
        ((freeFrames s (pa / 4096)).length < div_up size PAGE_SIZE ∧ ret = NULL ∧
          RangeUnmapped u t dir (va / 4096 * 4096) 0 (div_up size PAGE_SIZE))) := by
  have hfree := freeFrames_length h.frames (pa / 4096)
  have haligned : va / 4096 * 4096 % 4096 = 0 := Nat.mul_mod_left _ _
  unfold vmm_map_range at heq
  rw [align_down_eq hva] at heq
  obtain ⟨mapped, u, hpages, hrest⟩ := Outcome.andThen_eq_done.mp heq
  obtain ⟨hrange, hmapped⟩ := map_pages_spec haligned _ h hzero hpages
  obtain ⟨grants', hpaged⟩ := hrange.paged
  rw [hmapped] at hpages
  have hturns : div_up size PAGE_SIZE < 0x100000 ∧
      ((div_up size PAGE_SIZE ≤ (freeFrames s (pa / 4096)).length ∧ ret = va / 4096 * 4096 ∧
          t = u) ∨
        ((freeFrames s (pa / 4096)).length < div_up size PAGE_SIZE ∧ ret = NULL ∧
          RangeUnmapped u t dir (va / 4096 * 4096) 0 (div_up size PAGE_SIZE))) := by
    by_cases hle : div_up size PAGE_SIZE ≤ (freeFrames s (pa / 4096)).length
    · rw [hmapped, decide_eq_true hle] at hrest
      cases hrest
      exact ⟨by omega, Or.inl ⟨hle, rfl, rfl⟩⟩
    · rw [hmapped, decide_eq_false hle] at hrest
      obtain ⟨_, v, hunmap, hnull⟩ := Outcome.andThen_eq_done.mp hrest
      cases hnull
      have hdown : va / 4096 * 4096 / 4096 * 4096 = va / 4096 * 4096 := by omega
      unfold vmm_unmap_memory at hunmap
      rw [align_down_eq (by omega), hdown] at hunmap
      exact ⟨unmap_pages_lt hpaged haligned hunmap,
        Or.inr ⟨by omega, rfl, unmap_pages_spec haligned _ hpaged hunmap⟩⟩
  refine ⟨?_, u, hpages, hrange, hturns.2⟩
  by_cases hlarge : size + 4095 < 2147483648
  · exact Or.inr ⟨hlarge, div_up_page hlarge⟩
  · rcases div_up_large hsize (by omega) with hnone | hmany
    · exact Or.inl hnone
    · have hlt := hturns.1
      unfold PAGE_SIZE at hlt
      omega

/-! ## The search for a range -/

/-- The search finds pages that are not in use. -/
theorem find_free_memory_spec {m : Mem} {dir size va : Nat} {is_kernel : Bool} (hdir : dir ≠ NULL)
    (hsize : size < 4294967296) (hne : va ≠ NULL)
    (heq : vmm_find_free_memory dir m size is_kernel = some va) :
    va < 4294967296 ∧ va % 4096 = 0 ∧
      ∀ i, i * 4096 < size → ¬ pageUsed m dir (rangePage va i) := by
  unfold vmm_find_free_memory at heq
  simp only at heq
  rcases find_free_loop_cases m dir _ hsize _ _ 0 with
    ⟨-, hnull⟩ | ⟨j, -, -, ⟨-, hfits⟩, -, hfound⟩
  · rw [hnull] at heq
    cases heq
    exact absurd rfl hne
  · rw [hfound] at heq
    by_cases hends : size ≤ 0xFFFFF000
    · rw [if_pos hends, Option.some.injEq] at heq
      have haligned : (if is_kernel then VMM_KERNEL_SPACE_BASE else VMM_USER_SPACE_BASE) % 4096 =
          0 := by
        cases is_kernel <;> rfl
      have hoffset : va % 4096 = 0 := by
        rw [← heq]
        exact (range_address haligned j).2
      refine ⟨by rw [← heq]; exact add32_lt _ _, hoffset, fun k hk => ?_⟩
      have hunused := (hfits k hk).2
      rw [heq] at hunused
      have hpage : add32 va (k * PAGE_SIZE) / 4096 = rangePage va k := by
        unfold add32 rangePage PAGE_SIZE
        omega
      rw [← hpage, ← is_page_used_iff m hdir, hunused]
      exact Bool.false_ne_true
    · rw [if_neg hends] at heq
      cases heq

/-! ## Runs of calls -/

/-- A call that returns, whatever it answers. -/
def call_step (s : Vmm) (c : MapCall) : Option Vmm :=
  match map_call s c with
  | .done _ t => some t
  | _ => none

theorem call_step_eq {s t : Vmm} {c : MapCall} :
    call_step s c = some t ↔ ∃ ret, map_call s c = .done ret t := by
  unfold call_step
  cases h : map_call s c with
  | done ret u => simp
  | _ => simp

/-- What every call keeps: the tables are in order, and frame 0 is not free. -/
structure Steady (s : Vmm) : Prop where
  paged : ∃ grants, Paged s.mm s.curr_page_directory grants
  zero : pmm_test_frame s.mm 0 = true

theorem steady_boot {image : KernelImage} {m : Mem} {mmap : List MmapEntry} {w : Vmm}
    (hboot : init_kernel_memory image m mmap = .done () w) : Steady w := by
  obtain ⟨v, -, -, hbooted⟩ := boot_spec hboot
  refine ⟨hbooted.part.paged, hbooted.part.linear.reserved 0 ?_⟩
  unfold bootPages
  omega

/-- A call that returns did nothing, or it mapped its range from some address on. -/
theorem map_call_done {s t : Vmm} {c : MapCall} {ret : Nat} (h : Steady s)
    (heq : map_call s c = .done ret t) :
    (ret = NULL ∧ t = s ∧
        freeFrames s.mm (c.physical_address.toNat / 4096) = []) ∨ ∃ va pa mm,
      va < 4294967296 ∧
      (c.virtual_address = 0 → ∀ i, i * 4096 < c.size.toNat →
        ¬ pageUsed s.mm.kheap.mem s.curr_page_directory (rangePage va i)) ∧
      (c.virtual_address ≠ 0 → va = c.virtual_address.toNat) ∧
      freeFrames s.mm (pa / 4096) = freeFrames s.mm (c.physical_address.toNat / 4096) ∧
      vmm_map_range s.curr_page_directory s.mm va pa c.size.toNat = .done ret mm ∧
      t = { s with mm := mm } := by
  obtain ⟨grants, hpaged⟩ := h.paged
  obtain ⟨hnone, hsome⟩ := find_free_frame_spec hpaged.frames h.zero
  rcases map_memory_done heq with ⟨hret, ht, hpa, hnull⟩ |
    ⟨va, pa, mm, hva, hpa, hsearch, hgiven, hstart, hrange, ht⟩
  · refine Or.inl ⟨hret, ht, ?_⟩
    rw [hpa]
    exact hnone hnull
  · have hzero : c.virtual_address = 0 ↔ c.virtual_address.toNat = NULL :=
      ⟨fun h => by rw [h]; rfl, fun h => UInt32.toNat_inj.mp h⟩
    refine Or.inr ⟨va, pa, mm, ?_, ?_, ?_, ?_, hrange, ht⟩
    · by_cases hnull : c.virtual_address.toNat = NULL
      · exact (find_free_memory_spec hpaged.dir_ne c.size.toNat_lt hva (hsearch hnull)).1
      · rw [hgiven hnull]
        exact c.virtual_address.toNat_lt
    · intro hnull
      exact (find_free_memory_spec hpaged.dir_ne c.size.toNat_lt hva
        (hsearch (hzero.mp hnull))).2.2
    · intro hnull
      exact hgiven fun h => hnull (hzero.mpr h)
    · by_cases hnull : c.physical_address.toNat = NULL
      · rw [if_pos hnull] at hstart
        rw [hstart] at hpa ⊢
        rw [hsome hpa, hnull]
        rfl
      · rw [hstart, if_neg hnull]

/-- No call changes the directory. -/
theorem map_call_directory {s t : Vmm} {c : MapCall} {ret : Nat}
    (heq : map_call s c = .done ret t) : t.curr_page_directory = s.curr_page_directory := by
  rcases map_memory_done heq with ⟨-, rfl, -⟩ | ⟨va, pa, mm, -, -, -, -, -, -, rfl⟩ <;> rfl

theorem steady_call {s t : Vmm} {c : MapCall} (h : Steady s) (hstep : call_step s c = some t) :
    Steady t := by
  obtain ⟨ret, heq⟩ := call_step_eq.mp hstep
  rcases map_call_done h heq with ⟨-, rfl, -⟩ | ⟨va, pa, mm, hva, -, -, -, hrange, rfl⟩
  · exact h
  · obtain ⟨grants, hpaged⟩ := h.paged
    obtain ⟨-, u, -, hmapped, hend⟩ :=
      map_range_done hpaged h.zero hva c.size.toNat_lt hrange
    have hzero : pmm_test_frame u 0 = true := by
      rw [hmapped.bits 0 (by decide), h.zero, Bool.or_true]
    rcases hend with ⟨-, -, rfl⟩ | ⟨-, -, hunmapped⟩
    · exact ⟨hmapped.paged, hzero⟩
    · obtain ⟨grants', hpaged'⟩ := hmapped.paged
      exact ⟨⟨grants', (hpaged'.marked hunmapped.marked).1⟩,
        (hunmapped.bits 0 (by decide)).mpr ⟨hzero, Or.inl rfl⟩⟩

end sakana_os
