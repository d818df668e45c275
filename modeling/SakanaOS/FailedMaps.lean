-- A call of `vmm_map_memory` that runs out of frames gives the frames of its range back,
-- but the entries of the pages stay: when that leaves the state as it was before, and when
-- the cleanup finds a table for each page.
import SakanaOS.SharedFrames

open byte_memory bitmaps bit_fields runs

namespace sakana_os

open translated (Machine Alike LeavesImage Mirrors machine_boots mirrors_call mirrors_reached)

/-- The call finds a free frame, but fewer than it needs. -/
def RanOut (s : Vmm) (c : MapCall) : Prop :=
  0 < (freeFrames s.mm (c.physical_address.toNat / 4096)).length ∧
    (freeFrames s.mm (c.physical_address.toNat / 4096)).length < div_up c.size.toNat PAGE_SIZE

/-- Every page is mapped as before, and every frame is free that was free. -/
structure Unchanged (s t : Mm) (dir : Nat) : Prop where
  page : ∀ page, page < 0x100000 →
    (pagePresent t.kheap.mem dir page ↔ pagePresent s.kheap.mem dir page) ∧
    (pageUsed t.kheap.mem dir page ↔ pageUsed s.kheap.mem dir page) ∧
    (pagePresent s.kheap.mem dir page →
      pageFrame t.kheap.mem dir page = pageFrame s.kheap.mem dir page)
  frame : ∀ f, f < 0x100000 → pmm_test_frame t f = pmm_test_frame s f

/-- The first pages of the range have the frames of the list already, and the others have
no frame that is reserved, but for frame 0. -/
structure MappedBefore (s : Mm) (dir va n : Nat) (free : List Nat) : Prop where
  given : ∀ i f, free[i]? = some f → pagePresent s.kheap.mem dir (rangePage va i) ∧
    pageUsed s.kheap.mem dir (rangePage va i) ∧
    pageFrame s.kheap.mem dir (rangePage va i) = f
  free : ∀ i, i < n → pagePresent s.kheap.mem dir (rangePage va i) →
    pageFrame s.kheap.mem dir (rangePage va i) = 0 ∨
      pmm_test_frame s (pageFrame s.kheap.mem dir (rangePage va i)) = false

/-! ## The range is mapped and unmapped -/

section

variable {s u t : Mm} {dir va n : Nat} {free : List Nat}

/-- The pages that got no frame are as before. -/
theorem RangeMapped.cases (h : RangeMapped s u dir va 0 free) {page : Nat}
    (hpage : page < 0x100000) :
    (∃ i f, free[i]? = some f ∧ page = rangePage va i) ∨
      pageWord u.kheap.mem dir page = pageWord s.kheap.mem dir page := by
  by_cases hgiven : ∃ j, j < free.length ∧ rangePage va j = page
  · obtain ⟨j, hj, rfl⟩ := hgiven
    exact Or.inl ⟨j, _, List.getElem?_eq_getElem hj, rfl⟩
  · refine Or.inr (h.other page hpage ?_)
    intro j hj heq
    rw [Nat.zero_add] at heq
    exact hgiven ⟨j, hj, heq⟩

theorem RangeMapped.given (h : RangeMapped s u dir va 0 free) {i f : Nat}
    (hf : free[i]? = some f) : pagePresent u.kheap.mem dir (rangePage va i) ∧
      pageUsed u.kheap.mem dir (rangePage va i) ∧
      pageFrame u.kheap.mem dir (rangePage va i) = f := by
  have hmapped := h.mapped i f hf
  rwa [Nat.zero_add] at hmapped

/-- A page that was present before is present when the range is mapped. -/
theorem RangeMapped.present (h : RangeMapped s u dir va 0 free) {page : Nat}
    (hpage : page < 0x100000) (hpresent : pagePresent s.kheap.mem dir page) :
    pagePresent u.kheap.mem dir page := by
  rcases h.cases hpage with ⟨i, f, hf, rfl⟩ | hsame
  · exact (h.given hf).1
  · unfold pagePresent at *
    rw [hsame]
    exact hpresent

/-- The rollback frees what was mapped when the pages had these frames before. -/
theorem unchanged_of_mapped_before (hmapped : RangeMapped s u dir va 0 free)
    (hunmapped : RangeUnmapped u t dir va 0 n) (hsame : SameTables u.kheap.mem t.kheap.mem dir)
    (hfree : ∀ f ∈ free, f < 0x100000 ∧ f ≠ 0 ∧ pmm_test_frame s f = false)
    (hlength : free.length < n) (h : MappedBefore s dir va n free) : Unchanged s t dir := by
  refine ⟨fun page hpage => ?_, fun f hf => ?_⟩
  · have hword := hsame.page page hpage
    unfold pagePresent pageUsed pageFrame
    rw [hword]
    rcases hmapped.cases hpage with ⟨i, f, hf, rfl⟩ | hkept
    · obtain ⟨hnow, hused, hframe⟩ := hmapped.given hf
      obtain ⟨hnow', hused', hframe'⟩ := h.given i f hf
      exact ⟨iff_of_true hnow hnow', iff_of_true hused hused', fun _ => hframe.trans hframe'.symm⟩
    · rw [hkept]
      exact ⟨Iff.rfl, Iff.rfl, fun _ => rfl⟩
  · rw [Bool.eq_iff_iff, hunmapped.bits f hf, hmapped.bits f hf, Bool.or_eq_true,
      decide_eq_true_eq]
    by_cases hmem : f ∈ free
    · -- The frame is given to a page of the range, and so it is given back.
      obtain ⟨-, hne, hbit⟩ := hfree f hmem
      obtain ⟨i, hi⟩ := List.mem_iff_getElem?.mp hmem
      obtain ⟨hilt, -⟩ := List.getElem?_eq_some_iff.mp hi
      obtain ⟨hnow, -, hframe⟩ := hmapped.given hi
      rw [hbit]
      refine iff_of_false ?_ (by decide)
      rintro ⟨-, hzero | hall⟩
      · exact hne hzero
      · exact hall i (Nat.zero_le i) (by omega) hnow hframe
    · refine ⟨fun hset => hset.1.resolve_left hmem, fun hset => ⟨Or.inr hset, ?_⟩⟩
      by_cases hzero : f = 0
      · exact Or.inl hzero
      · refine Or.inr fun j _ hj hnow hframe => ?_
        rcases hmapped.cases (rangePage_lt va j) with ⟨i, g, hg, hpage⟩ | hkept
        · rw [hpage, (hmapped.given hg).2.2] at hframe
          rw [hframe] at hg
          exact hmem (List.mem_of_getElem? hg)
        · unfold pagePresent at hnow
          unfold pageFrame at hframe
          rw [hkept] at hnow hframe
          rcases h.free j (by omega) hnow with hnull | hbit
          · exact hzero (hframe.symm.trans hnull)
          · unfold pageFrame at hbit
            rw [hframe, hset] at hbit
            cases hbit

/-- The rollback leaves the entries that were written, and takes every frame. -/
theorem mapped_before_of_unchanged (hmapped : RangeMapped s u dir va 0 free)
    (hunmapped : RangeUnmapped u t dir va 0 n) (hsame : SameTables u.kheap.mem t.kheap.mem dir)
    (h : Unchanged s t dir) : MappedBefore s dir va n free := by
  have hafter : ∀ page, page < 0x100000 →
      (pagePresent u.kheap.mem dir page ↔ pagePresent s.kheap.mem dir page) ∧
      (pageUsed u.kheap.mem dir page ↔ pageUsed s.kheap.mem dir page) ∧
      (pagePresent s.kheap.mem dir page →
        pageFrame u.kheap.mem dir page = pageFrame s.kheap.mem dir page) := by
    intro page hpage
    have hpages := h.page page hpage
    unfold pagePresent pageUsed pageFrame at *
    rwa [hsame.page page hpage] at hpages
  refine ⟨fun i f hf => ?_, fun i hi hpresent => ?_⟩
  · obtain ⟨h1, h2, h3⟩ := hafter _ (rangePage_lt va i)
    obtain ⟨hnow, hused, hframe⟩ := hmapped.given hf
    have hbefore := h1.mp hnow
    exact ⟨hbefore, h2.mp hused, (h3 hbefore).symm.trans hframe⟩
  · obtain ⟨h1, -, h3⟩ := hafter _ (rangePage_lt va i)
    have hlt : pageFrame s.kheap.mem dir (rangePage va i) < 2 ^ 20 := field_lt _ _ _
    by_cases hzero : pageFrame s.kheap.mem dir (rangePage va i) = 0
    · exact Or.inl hzero
    · refine Or.inr (Bool.eq_false_iff.mpr fun hset => ?_)
      rw [← h.frame _ (by omega)] at hset
      rcases ((hunmapped.bits _ (by omega)).mp hset).2 with hnull | hall
      · exact hzero hnull
      · exact hall i (Nat.zero_le i) (by omega) (h1.mpr hpresent) (h3 hpresent)

end

/-! ## One call -/

/-- The range is explicit, its first pages have the free frames already, in order, and no
page of it has a frame that is reserved, but for frame 0. -/
def NothingToUndo (s : Vmm) (c : MapCall) : Prop :=
  c.virtual_address ≠ 0 ∧
    MappedBefore s.mm s.curr_page_directory c.virtual_address.toNat
      (div_up c.size.toNat PAGE_SIZE) (freeFrames s.mm (c.physical_address.toNat / 4096))

theorem MappedBefore.down {s : Mm} {dir va n : Nat} {free : List Nat} :
    MappedBefore s dir (va / 4096 * 4096) n free ↔ MappedBefore s dir va n free := by
  constructor
  · rintro ⟨h1, h2⟩
    simp only [rangePage_down] at h1 h2
    exact ⟨h1, h2⟩
  · rintro ⟨h1, h2⟩
    refine ⟨?_, ?_⟩
    · simpa only [rangePage_down] using h1
    · simpa only [rangePage_down] using h2

/-- A failed call has mapped its range from some address on, and left the state as it was
when that changed nothing. -/
theorem failed_call_spec {s t : Vmm} {c : MapCall} (h : Steady s)
    (hcall : map_call s c = .done NULL t) (hout : RanOut s c) :
    Unchanged s.mm t.mm s.curr_page_directory ↔ NothingToUndo s c := by
  obtain ⟨hpos, hlt⟩ := hout
  rcases map_call_done h hcall with ⟨-, -, hnone⟩ |
    ⟨va, pa, mm, hva, hsearch, hgiven, hfree, hrange, rfl⟩
  · rw [hnone] at hpos
    cases hpos
  · obtain ⟨grants, hpaged⟩ := h.paged
    obtain ⟨hpages, u, -, hmapped, hend⟩ :=
      map_range_done hpaged h.zero hva c.size.toNat_lt hrange
    rw [hfree] at hmapped hend
    rw [List.take_of_length_le (Nat.le_of_lt hlt)] at hmapped
    rcases hend with ⟨hle, -⟩ | ⟨-, -, hunmapped⟩
    · omega
    · obtain ⟨grants', hpaged'⟩ := hmapped.paged
      have hsame := (hpaged'.marked hunmapped.marked).2
      have hfrees : ∀ f ∈ freeFrames s.mm (c.physical_address.toNat / 4096),
          f < 0x100000 ∧ f ≠ 0 ∧ pmm_test_frame s.mm f = false := by
        intro f hf
        obtain ⟨-, hf', hbit⟩ := mem_freeFrames.mp hf
        rw [hpaged.frames, TOP_FRAME] at hf'
        refine ⟨by omega, ?_, hbit⟩
        rintro rfl
        rw [h.zero] at hbit
        cases hbit
      have hiff : Unchanged s.mm mm s.curr_page_directory ↔
          MappedBefore s.mm s.curr_page_directory va (div_up c.size.toNat PAGE_SIZE)
            (freeFrames s.mm (c.physical_address.toNat / 4096)) := by
        rw [← MappedBefore.down]
        exact ⟨mapped_before_of_unchanged hmapped hunmapped hsame,
          unchanged_of_mapped_before hmapped hunmapped hsame hfrees hlt⟩
      rw [hiff]
      unfold NothingToUndo
      by_cases hnull : c.virtual_address = 0
      · -- The search has found pages that are not in use.
        refine iff_of_false (fun hbefore => ?_) (fun hexplicit => hexplicit.1 hnull)
        have hsize : 0 < c.size.toNat := by omega
        exact hsearch hnull 0 (by rwa [Nat.zero_mul])
          (hbefore.given 0 _ (List.getElem?_eq_getElem hpos)).2.1
      · rw [hgiven hnull]
        exact (and_iff_right hnull).symm

/-! ## The same on the machine -/

theorem Unchanged.alike {s t s' t' : Mm} {dir : Nat} (hs : Alike s s' dir) (ht : Alike t t' dir) :
    Unchanged s' t' dir ↔ Unchanged s t dir := by
  have hpages : (∀ page, page < 0x100000 →
      (pagePresent t'.kheap.mem dir page ↔ pagePresent s'.kheap.mem dir page) ∧
      (pageUsed t'.kheap.mem dir page ↔ pageUsed s'.kheap.mem dir page) ∧
      (pagePresent s'.kheap.mem dir page →
        pageFrame t'.kheap.mem dir page = pageFrame s'.kheap.mem dir page)) ↔
      ∀ page, page < 0x100000 →
      (pagePresent t.kheap.mem dir page ↔ pagePresent s.kheap.mem dir page) ∧
      (pageUsed t.kheap.mem dir page ↔ pageUsed s.kheap.mem dir page) ∧
      (pagePresent s.kheap.mem dir page →
        pageFrame t.kheap.mem dir page = pageFrame s.kheap.mem dir page) := by
    refine forall_congr' fun page => imp_congr_right fun hpage => ?_
    unfold pagePresent pageUsed pageFrame
    rw [ht.tables.page page hpage, hs.tables.page page hpage]
  have hframes : (∀ f, f < 0x100000 → pmm_test_frame t' f = pmm_test_frame s' f) ↔
      ∀ f, f < 0x100000 → pmm_test_frame t f = pmm_test_frame s f := by
    refine forall_congr' fun f => imp_congr_right fun hf => ?_
    rw [ht.bits f hf, hs.bits f hf]
  exact ⟨fun h => ⟨hpages.mp h.page, hframes.mp h.frame⟩,
    fun h => ⟨hpages.mpr h.page, hframes.mpr h.frame⟩⟩

theorem MappedBefore.alike {s s' : Mm} {dir va n : Nat} {free : List Nat} (hs : Alike s s' dir) :
    MappedBefore s' dir va n free ↔ MappedBefore s dir va n free := by
  have hgiven : (∀ i f, free[i]? = some f → pagePresent s'.kheap.mem dir (rangePage va i) ∧
      pageUsed s'.kheap.mem dir (rangePage va i) ∧
      pageFrame s'.kheap.mem dir (rangePage va i) = f) ↔
      ∀ i f, free[i]? = some f → pagePresent s.kheap.mem dir (rangePage va i) ∧
      pageUsed s.kheap.mem dir (rangePage va i) ∧
      pageFrame s.kheap.mem dir (rangePage va i) = f := by
    refine forall_congr' fun i => forall_congr' fun f => imp_congr_right fun _ => ?_
    unfold pagePresent pageUsed pageFrame
    rw [hs.tables.page _ (rangePage_lt va i)]
  have hfree : (∀ i, i < n → pagePresent s'.kheap.mem dir (rangePage va i) →
      pageFrame s'.kheap.mem dir (rangePage va i) = 0 ∨
        pmm_test_frame s' (pageFrame s'.kheap.mem dir (rangePage va i)) = false) ↔
      ∀ i, i < n → pagePresent s.kheap.mem dir (rangePage va i) →
      pageFrame s.kheap.mem dir (rangePage va i) = 0 ∨
        pmm_test_frame s (pageFrame s.kheap.mem dir (rangePage va i)) = false := by
    refine forall_congr' fun i => imp_congr_right fun _ => ?_
    have hlt : pageFrame s.kheap.mem dir (rangePage va i) < 0x100000 := field_lt _ _ _
    have hbit := hs.bits _ hlt
    unfold pagePresent pageFrame at *
    rw [hs.tables.page _ (rangePage_lt va i), hbit]
  exact ⟨fun h => ⟨hgiven.mp h.given, hfree.mp h.free⟩,
    fun h => ⟨hgiven.mpr h.given, hfree.mpr h.free⟩⟩

section

variable {image : KernelImage} {s : Machine} {u : Vmm} {c : MapCall} (hs : Mirrors image s u)
include hs

theorem mirrors_ran_out : RanOut s.vmm c ↔ RanOut u c := by
  unfold RanOut
  rw [hs.alike.free]

theorem mirrors_nothing : NothingToUndo s.vmm c ↔ NothingToUndo u c := by
  unfold NothingToUndo
  rw [hs.alike.free, hs.directory, MappedBefore.alike hs.alike]

/-- A call that fails on the machine leaves the state as it was when there was nothing to undo. -/
theorem machine_failed {t : Machine} (hleave : LeavesImage image c)
    (hcall : translated.map_call s c = .done NULL t) (hout : RanOut s.vmm c) :
    Unchanged s.vmm.mm t.vmm.mm s.vmm.curr_page_directory ↔ NothingToUndo s.vmm c := by
  obtain ⟨u', hcall', ht⟩ := (mirrors_call hs hleave).done_left hcall
  have halike := ht.alike
  rw [map_call_directory hcall'] at halike
  rw [hs.directory, Unchanged.alike hs.alike halike, mirrors_nothing hs]
  exact failed_call_spec hs.steady hcall' ((mirrors_ran_out hs).mp hout)

end

/-! ## Two pages and one frame -/

/-- A call for two pages behind the kernel. -/
def twoPages : MapCall := ⟨0xD0000000, 0, 8192, true, true⟩

/-- A kernel with one free frame maps the first of two pages, which are in the slot of the
table that it gets. -/
theorem small_kernel_maps_one_of_two : ∃ w u v,
    init_kernel_memory smallImage (fun _ => 0) (oneRegion 0x300000 0x1000) = .done () w ∧
    (∀ start, start ≤ freeFrame → freeFrames w.mm start = [freeFrame]) ∧
    pmm_find_free_frame w.mm = freeFrame * 4096 ∧
    ¬ pagePresent w.mm.kheap.mem w.curr_page_directory (rangePage 0xD0000000 0) ∧
    vmm_map_pages w.curr_page_directory 0xD0000000 (freeFrame * 4096) 2 0 w.mm = .done false u ∧
    vmm_unmap_pages w.curr_page_directory 0xD0000000 2 0 u = .done () v := by
  obtain ⟨w, grants, hboot, hpaged, hlinear, hroom, hplace, hbits, -⟩ := small_kernel_boots
  obtain ⟨u, hfind, hturn, hmapped, hframes, hset⟩ :=
    small_kernel_maps hpaged hlinear hroom hplace hbits
  have hfree : ∀ start, start ≤ freeFrame → freeFrames w.mm start = [freeFrame] := by
    intro start hstart
    have hmem : ∀ f, f ∈ freeFrames w.mm start ↔ f = freeFrame := by
      intro f
      rw [mem_freeFrames, hpaged.frames]
      constructor
      · rintro ⟨-, hlt, hbit⟩
        unfold TOP_FRAME at hlt
        rwa [hbits f (by omega), Bool.not_eq_false', decide_eq_true_eq] at hbit
      · rintro rfl
        refine ⟨hstart, by decide, ?_⟩
        rw [hbits _ (by decide), decide_eq_true rfl, Bool.not_true]
    apply List.perm_singleton.mp
    rw [List.perm_ext_iff_of_nodup (freeFrames_nodup _ _) (List.nodup_singleton _)]
    intro f
    rw [hmem, List.mem_singleton]
  have hnone : pmm_find_free_frame_from u (freeFrame * 4096) = NULL := by
    rw [find_free_frame_from_eq hframes]
    have hempty : freeFrames u (freeFrame * 4096 / 4096) = [] := by
      apply List.eq_nil_iff_forall_not_mem.mpr
      intro f hf
      obtain ⟨-, hlt, hbit⟩ := mem_freeFrames.mp hf
      rw [hframes, TOP_FRAME] at hlt
      rw [hset f (by omega)] at hbit
      cases hbit
    rw [hempty]
  have hloop : vmm_map_pages w.curr_page_directory 0xD0000000 (freeFrame * 4096) 2 0 w.mm =
      .done false u := by
    refine (hturn 1).trans ?_
    unfold vmm_map_pages
    simp only [hnone, if_true]
  obtain ⟨grants', hpaged', -⟩ := hmapped.paged
  obtain ⟨v, hunmap⟩ := @unmap_pages_returns _ 0xD0000000 (by decide) 2 0 _ _ hpaged' (by
    intro j _ hj
    have hslot : rangePage 0xD0000000 j / 1024 = 0xD0000000 / 4096 / 1024 := by
      unfold rangePage
      omega
    rw [hslot]
    exact hmapped.table)
  refine ⟨w, u, v, hboot, hfree, hfind, ?_, hloop, hunmap⟩
  unfold pagePresent
  rw [hlinear.empty _ (rangePage_lt _ _) (by decide), field_zero]
  decide

/-- It takes the frame back. -/
theorem small_kernel_runs_out : ∃ w t,
    init_kernel_memory smallImage (fun _ => 0) (oneRegion 0x300000 0x1000) = .done () w ∧
    map_call w twoPages = .done NULL t ∧ RanOut w twoPages ∧ ¬ NothingToUndo w twoPages := by
  obtain ⟨w, u, v, hboot, hfree, hfind, hpresent, hloop, hunmap⟩ := small_kernel_maps_one_of_two
  have hva : twoPages.virtual_address.toNat = 0xD0000000 := by decide
  have hpa : twoPages.physical_address.toNat = 0 := by decide
  have hsize : twoPages.size.toNat = 8192 := by decide
  have hpages : div_up 8192 PAGE_SIZE = 2 := div_up_page (by decide)
  refine ⟨w, { w with mm := v }, hboot, ?_, ?_, ?_⟩
  · have hdown : paging_align_address_down 0xD0000000 = 0xD0000000 := by decide
    have hne : freeFrame * 4096 ≠ NULL := by decide
    unfold map_call
    rw [hva, hpa, hsize]
    refine (map_memory_at _ _ _ (by decide) (if_pos rfl) (by rw [hfind]; exact hne)).trans ?_
    rw [hfind]
    unfold vmm_map_range vmm_unmap_memory
    simp only [hdown, hpages, hloop, hunmap, Outcome.done_andThen, Bool.false_eq_true, if_false,
      Outcome.done_lift]
  · unfold RanOut
    rw [hpa, hsize, hpages, Nat.zero_div, hfree 0 (Nat.zero_le _)]
    decide
  · rintro ⟨-, hbefore⟩
    rw [hpa, hsize, hpages, hva, Nat.zero_div, hfree 0 (Nat.zero_le _)] at hbefore
    exact hpresent (hbefore.given 0 freeFrame rfl).1

/-- On the machine the call fails as well, and leaves the image where it is. -/
theorem small_machine_runs_out : ∃ (w t : Machine) (u : Vmm),
    translated.init_kernel_memory smallImage (fun _ => 0) (oneRegion 0x300000 0x1000) =
      .done () w ∧
    Mirrors smallImage w u ∧ LeavesImage smallImage twoPages ∧
    translated.map_call w twoPages = .done NULL t ∧ RanOut w.vmm twoPages ∧
    ¬ NothingToUndo w.vmm twoPages := by
  obtain ⟨u, u', hboot, hcall, hout, hundo⟩ := small_kernel_runs_out
  obtain ⟨w, hdone, -, hw⟩ := machine_boots (fun _ => 0) hboot
  have hpages : div_up twoPages.size.toNat PAGE_SIZE = 2 := div_up_page (by decide)
  have hleave : LeavesImage smallImage twoPages := small_leaves (by decide) (by omega)
  obtain ⟨t, hcall', -⟩ := (mirrors_call hw hleave).done_right hcall
  exact ⟨w, t, u, hdone, hw, hleave, hcall', (mirrors_ran_out hw).mpr hout,
    fun h => hundo ((mirrors_nothing hw).mp h)⟩

/-- In every state that a run of calls reaches which leave the kernel image, a call that leaves
it too and runs out of frames leaves the state as it was if and only if there was nothing to
undo. -/
theorem a_failed_map_undoes_itself_when_nothing_was_mapped (image : KernelImage) (ram : Mem)
    (mmap : List MmapEntry) {w : Machine}
    (hboot : translated.init_kernel_memory image ram mmap = .done () w) {calls : List MapCall}
    (hleave : ∀ d ∈ calls, LeavesImage image d) {s t : Machine}
    (hrun : run translated.call_step w calls = some s) {c : MapCall} (hc : LeavesImage image c)
    (hcall : translated.map_call s c = .done NULL t) (hout : RanOut s.vmm c) :
    Unchanged s.vmm.mm t.vmm.mm s.vmm.curr_page_directory ↔ NothingToUndo s.vmm c := by
  obtain ⟨u, hu⟩ := mirrors_reached hboot hleave hrun
  exact machine_failed hu hc hcall hout

theorem a_failed_map_of_two_pages_changes_the_state : ∃ (w t : Machine),
    translated.init_kernel_memory smallImage (fun _ => 0) (oneRegion 0x300000 0x1000) =
      .done () w ∧
    translated.map_call w twoPages = .done NULL t ∧
    ¬ Unchanged w.vmm.mm t.vmm.mm w.vmm.curr_page_directory := by
  obtain ⟨w, t, u, hboot, -, hleave, hcall, hout, hundo⟩ := small_machine_runs_out
  have hrun : run translated.call_step w [] = some w := run_nil _ w
  exact ⟨w, t, hboot, hcall, fun h => hundo
    ((a_failed_map_undoes_itself_when_nothing_was_mapped smallImage _ _ hboot
      (List.forall_mem_nil _) hrun hleave hcall hout).mp h)⟩

/-- The page that was mapped first stays mapped after the call has failed. -/
theorem a_failed_map_leaves_a_page_mapped : ∃ (w t : Machine),
    translated.init_kernel_memory smallImage (fun _ => 0) (oneRegion 0x300000 0x1000) =
      .done () w ∧
    translated.map_call w twoPages = .done NULL t ∧ RanOut w.vmm twoPages ∧
    ¬ Unchanged w.vmm.mm t.vmm.mm w.vmm.curr_page_directory := by
  obtain ⟨w, t, u, hboot, hu, hleave, hcall, hout, hundo⟩ := small_machine_runs_out
  refine ⟨w, t, hboot, hcall, hout, ?_⟩
  rw [machine_failed hu hleave hcall hout]
  exact hundo

/-! ## The walk of the cleanup -/

/-- The addresses that a call chooses to map from. -/
structure MapsFrom (s : Vmm) (c : MapCall) (va pa : Nat) : Prop where
  va_ne : va ≠ NULL
  pa_ne : pa ≠ NULL
  searched : c.virtual_address = 0 → vmm_find_free_memory s.curr_page_directory
    s.mm.kheap.mem c.size.toNat c.is_kernel = some va
  given : c.virtual_address ≠ 0 → va = c.virtual_address.toNat
  start : pa = if c.physical_address = 0 then pmm_find_free_frame s.mm
    else c.physical_address.toNat

/-- Each address that the cleanup of a range hands to `vmm_virtual_to_physical_address` has
an entry. -/
def WalksTables (m : Mem) (dir va n : Nat) : Prop :=
  ∀ i, i < n → vmm_get_page_entry m dir (add32 va (mul32 i PAGE_SIZE)) ≠ NULL

/-- Each page of a range has a table already, or it is in the slot of a page that gets one
of the free frames. -/
def TablesReached (m : Mem) (dir va n free : Nat) : Prop :=
  ∀ j, j < n → tablePtr m dir (rangePage va j / 1024) ≠ 0 ∨
    ∃ i, i < free ∧ rangePage va i / 1024 = rangePage va j / 1024

theorem MapsFrom.eq {s : Vmm} {c : MapCall} {va pa : Nat} (h : MapsFrom s c va pa) :
    map_call s c = (vmm_map_range s.curr_page_directory s.mm va pa c.size.toNat).lift
      fun mm => { s with mm := mm } := by
  have hnull : ∀ a : UInt32, a.toNat = NULL ↔ a = 0 :=
    fun a => ⟨fun h => UInt32.toNat_inj.mp h, fun h => by rw [h]; rfl⟩
  have hva := h.va_ne
  have hpa := h.pa_ne
  have hstart := h.start
  unfold map_call vmm_map_memory
  simp only [hnull]
  by_cases hzero : c.virtual_address = 0
  · rw [if_pos hzero, h.searched hzero]
    simp only [hva, if_false]
    rw [← hstart, if_neg hpa]
  · rw [if_neg hzero, ← h.given hzero]
    simp only [hva, if_false]
    rw [← hstart, if_neg hpa]

theorem MapsFrom.lt {s : Vmm} {c : MapCall} {va pa : Nat} (h : MapsFrom s c va pa)
    (hsteady : Steady s) : va < 4294967296 := by
  obtain ⟨grants, hpaged⟩ := hsteady.paged
  by_cases hnull : c.virtual_address = 0
  · exact (find_free_memory_spec hpaged.dir_ne c.size.toNat_lt h.va_ne (h.searched hnull)).1
  · rw [h.given hnull]
    exact c.virtual_address.toNat_lt

/-- The pages of a range that was searched are not in use. -/
theorem MapsFrom.unused {s : Vmm} {c : MapCall} {va pa : Nat} (h : MapsFrom s c va pa)
    (hsteady : Steady s) (hnull : c.virtual_address = 0) : ∀ i, i * 4096 < c.size.toNat →
      ¬ pageUsed s.mm.kheap.mem s.curr_page_directory (rangePage va i) := by
  obtain ⟨grants, hpaged⟩ := hsteady.paged
  exact (find_free_memory_spec hpaged.dir_ne c.size.toNat_lt h.va_ne (h.searched hnull)).2.2

theorem get_page_entry_ne_iff {m : Mem} {dir va : Nat} (hdir : dir ≠ NULL) :
    vmm_get_page_entry m dir va ≠ NULL ↔ tablePtr m dir (va / 4096 / 1024) ≠ 0 := by
  rw [get_page_entry_eq m hdir]
  by_cases htable : tablePtr m dir (va / 4096 / 1024) = 0
  · rw [if_pos htable, htable]
  · rw [if_neg htable]
    refine iff_of_true ?_ htable
    unfold table_entry
    show _ ≠ 0
    omega

/-- The loop that unmaps returns, or it reads through the NULL entry of a page. -/
theorem unmap_pages_ends (dir va turns i : Nat) (s : Mm) :
    (∃ t, vmm_unmap_pages dir va turns i s = .done () t) ∨
      ∃ t, vmm_unmap_pages dir va turns i s = .fault t := by
  induction turns generalizing i s with
  | zero => exact Or.inl ⟨s, rfl⟩
  | succ turns ih =>
    rw [vmm_unmap_pages]
    cases hpage : vmm_unmap_page dir s (add32 va (mul32 i PAGE_SIZE)) with
    | done _ u => exact ih (i + 1) u
    | fault u => exact Or.inr ⟨u, rfl⟩
    | kpanic code message u =>
      unfold vmm_unmap_page at hpage
      split at hpage <;> cases hpage
    | hang u =>
      unfold vmm_unmap_page at hpage
      split at hpage <;> cases hpage

/-- The cleanup of a range returns when it walks through tables only. -/
theorem unmap_pages_done_iff {s : Mm} {dir va n : Nat} {grants : List Grant}
    (h : Paged s dir grants) (hva : va % 4096 = 0) :
    (∃ t, vmm_unmap_pages dir va n 0 s = .done () t) ↔ WalksTables s.kheap.mem dir va n := by
  have hiff : WalksTables s.kheap.mem dir va n ↔
      ∀ i, i < n → tablePtr s.kheap.mem dir (rangePage va i / 1024) ≠ 0 := by
    unfold WalksTables
    refine forall_congr' fun i => imp_congr_right fun _ => ?_
    rw [get_page_entry_ne_iff h.dir_ne, (range_address hva i).1]
  rw [hiff]
  constructor
  · rintro ⟨t, hdone⟩ i hi
    exact (unmap_pages_spec hva n h hdone).table i (Nat.zero_le i) (by omega)
  · intro htable
    exact unmap_pages_returns hva n h fun j _ hj => htable j (by omega)

/-- The frames of a range ran out: what the cleanup finds depends on the tables that were
there, and on those that the pages with a frame have got. -/
theorem cleanup_spec {s : Vmm} {u : Mm} {c : MapCall} {va pa : Nat} (h : Steady s)
    (hfrom : MapsFrom s c va pa) (hva : va < 4294967296)
    (hloop : vmm_map_pages s.curr_page_directory (va / 4096 * 4096) pa
      (div_up c.size.toNat PAGE_SIZE) 0 s.mm = .done false u) :
    (WalksTables u.kheap.mem s.curr_page_directory (va / 4096 * 4096)
        (div_up c.size.toNat PAGE_SIZE) ↔
      TablesReached s.mm.kheap.mem s.curr_page_directory va (div_up c.size.toNat PAGE_SIZE)
        (freeFrames s.mm (pa / 4096)).length) ∧
    ((∃ t, map_call s c = .done NULL t) ↔
      WalksTables u.kheap.mem s.curr_page_directory (va / 4096 * 4096)
        (div_up c.size.toNat PAGE_SIZE)) ∧
    ((∃ t, map_call s c = .done NULL t) ∨ ∃ t, map_call s c = .fault t) := by
  obtain ⟨grants, hpaged⟩ := h.paged
  have haligned : va / 4096 * 4096 % 4096 = 0 := Nat.mul_mod_left _ _
  obtain ⟨hmapped, hfew⟩ := map_pages_spec haligned _ hpaged h.zero hloop
  have hlt : (freeFrames s.mm (pa / 4096)).length < div_up c.size.toNat PAGE_SIZE :=
    Nat.lt_of_not_le (of_decide_eq_false hfew.symm)
  rw [List.take_of_length_le (Nat.le_of_lt hlt)] at hmapped
  obtain ⟨grants', hpaged'⟩ := hmapped.paged
  have hdone := @unmap_pages_done_iff u _ (va / 4096 * 4096) (div_up c.size.toNat PAGE_SIZE) _
    hpaged' haligned
  have hcall : map_call s c = ((vmm_unmap_pages s.curr_page_directory (va / 4096 * 4096)
      (div_up c.size.toNat PAGE_SIZE) 0 u).andThen fun _ s => .done NULL s).lift
        fun mm => { s with mm := mm } := by
    have hdown : paging_align_address_down (va / 4096 * 4096) = va / 4096 * 4096 := by
      rw [align_down_eq (by omega), Nat.mul_div_cancel _ (by decide)]
    rw [hfrom.eq]
    unfold vmm_map_range vmm_unmap_memory
    simp only [align_down_eq hva, hloop, Outcome.done_andThen, Bool.false_eq_true, if_false,
      hdown]
  refine ⟨?_, ?_, ?_⟩
  · unfold WalksTables TablesReached
    refine forall_congr' fun j => imp_congr_right fun _ => ?_
    have hslot := rangePage_lt va j
    rw [get_page_entry_ne_iff hpaged'.dir_ne, (range_address haligned j).1, rangePage_down,
      hmapped.table _ (by omega)]
    simp only [Nat.zero_add, rangePage_down]
  · rw [← hdone, hcall]
    constructor
    · rintro ⟨t, hend⟩
      obtain ⟨v, hend, -⟩ := Outcome.lift_eq_done.mp hend
      obtain ⟨_, w, hunmap, -⟩ := Outcome.andThen_eq_done.mp hend
      exact ⟨w, hunmap⟩
    · rintro ⟨t, hunmap⟩
      rw [hunmap]
      exact ⟨_, rfl⟩
  · rw [hcall]
    rcases unmap_pages_ends s.curr_page_directory (va / 4096 * 4096)
        (div_up c.size.toNat PAGE_SIZE) 0 u with ⟨t, hend⟩ | ⟨t, hend⟩
    · rw [hend]
      exact Or.inl ⟨_, rfl⟩
    · rw [hend]
      exact Or.inr ⟨_, rfl⟩

/-! ## The cleanup on the machine -/

theorem WalksTables.alike {m m' : Mem} {dir va n : Nat} (hdir : dir ≠ NULL)
    (h : SameTables m m' dir) (hva : va % 4096 = 0) :
    WalksTables m' dir va n ↔ WalksTables m dir va n := by
  unfold WalksTables
  refine forall_congr' fun i => imp_congr_right fun _ => ?_
  have hslot := rangePage_lt va i
  rw [get_page_entry_ne_iff hdir, get_page_entry_ne_iff hdir, (range_address hva i).1,
    h.ptr _ (by omega)]

theorem TablesReached.alike {m m' : Mem} {dir va n free : Nat} (h : SameTables m m' dir) :
    TablesReached m' dir va n free ↔ TablesReached m dir va n free := by
  unfold TablesReached
  refine forall_congr' fun j => imp_congr_right fun _ => ?_
  have hslot := rangePage_lt va j
  rw [h.ptr _ (by omega)]

section

variable {image : KernelImage} {s : Machine} {v : Vmm} {c : MapCall} {va pa : Nat}
  (hs : Mirrors image s v)
include hs

/-- The call chooses the same addresses on the machine. -/
theorem mirrors_maps_from : MapsFrom s.vmm c va pa ↔ MapsFrom v c va pa := by
  have halike := hs.alike
  obtain ⟨grants, hpaged⟩ := hs.steady.paged
  have hsearch : vmm_find_free_memory s.vmm.curr_page_directory s.vmm.mm.kheap.mem c.size.toNat
      c.is_kernel =
      vmm_find_free_memory v.curr_page_directory v.mm.kheap.mem c.size.toNat c.is_kernel := by
    rw [hs.directory]
    exact translated.find_free_memory_congr hpaged.dir_ne halike.tables _ _
  have hfind : pmm_find_free_frame s.vmm.mm = pmm_find_free_frame v.mm := by
    unfold pmm_find_free_frame
    rw [find_free_frame_from_eq halike.frames.1, find_free_frame_from_eq halike.frames.2,
      halike.free]
  constructor
  · rintro ⟨h1, h2, h3, h4, h5⟩
    rw [hsearch] at h3
    rw [hfind] at h5
    exact ⟨h1, h2, h3, h4, h5⟩
  · rintro ⟨h1, h2, h3, h4, h5⟩
    rw [← hsearch] at h3
    rw [← hfind] at h5
    exact ⟨h1, h2, h3, h4, h5⟩

/-- The loop maps the same pages on the machine. -/
theorem mirrors_map_pages (hleave : LeavesImage image c) (hfrom : MapsFrom v c va pa) :
    Outcome.Simulates (fun x u => SameTables u.kheap.mem x.mem v.curr_page_directory)
      (translated.vmm_map_pages v.curr_page_directory (va / 4096 * 4096) pa
        (div_up c.size.toNat PAGE_SIZE) 0 s)
      (vmm_map_pages v.curr_page_directory (va / 4096 * 4096) pa
        (div_up c.size.toNat PAGE_SIZE) 0 v.mm) := by
  obtain ⟨⟨ram, rfl, hcopy⟩, href, hsteady, hcr3⟩ := hs
  have hout := translated.range_out (hleave.out href (hfrom.unused hsteady) hfrom.given)
  refine (translated.simulates_map_pages hcr3 _ href hcopy fun j _ hj => hout j (by omega)).mono ?_
  rintro _ _ u hloop ⟨ram', rfl, hcopy'⟩
  exact (translated.seen_alike hcr3 (href.range hout hloop) hcopy').tables

/-- The cleanup finds on the machine what it finds without paging, and the call ends as
it ends there. -/
theorem machine_cleanup {u : Machine} (hleave : LeavesImage image c)
    (hfrom : MapsFrom s.vmm c va pa)
    (hloop : translated.vmm_map_pages s.vmm.curr_page_directory (paging_align_address_down va) pa
      (div_up c.size.toNat PAGE_SIZE) 0 s = .done false u) :
    (WalksTables u.mem s.vmm.curr_page_directory (paging_align_address_down va)
        (div_up c.size.toNat PAGE_SIZE) ↔
      TablesReached s.mem s.vmm.curr_page_directory va (div_up c.size.toNat PAGE_SIZE)
        (freeFrames s.mm (pa / 4096)).length) ∧
    ((∃ t, translated.map_call s c = .done NULL t) ↔
      WalksTables u.mem s.vmm.curr_page_directory (paging_align_address_down va)
        (div_up c.size.toNat PAGE_SIZE)) ∧
    ((∃ t, translated.map_call s c = .done NULL t) ∨
      ∃ t, translated.map_call s c = .fault t) := by
  obtain ⟨grants, hpaged⟩ := hs.steady.paged
  have hfrom' := (mirrors_maps_from hs).mp hfrom
  have hva := hfrom'.lt hs.steady
  have hcall := mirrors_call hs hleave
  have halike := hs.alike
  rw [align_down_eq hva, hs.directory] at hloop ⊢
  obtain ⟨u', hloop', hwalk⟩ := (mirrors_map_pages hs hleave hfrom').done_left hloop
  obtain ⟨hreached, hreturns, hends⟩ := cleanup_spec hs.steady hfrom' hva hloop'
  have hreturn : (∃ t, translated.map_call s c = .done NULL t) ↔
      ∃ t, map_call v c = .done NULL t := by
    constructor
    · rintro ⟨t, hdone⟩
      obtain ⟨t', hdone', -⟩ := hcall.done_left hdone
      exact ⟨t', hdone'⟩
    · rintro ⟨t', hdone'⟩
      obtain ⟨t, hdone, -⟩ := hcall.done_right hdone'
      exact ⟨t, hdone⟩
  have hfree : freeFrames s.mm (pa / 4096) = freeFrames v.mm (pa / 4096) := halike.free _
  have htables : TablesReached s.mem v.curr_page_directory va (div_up c.size.toNat PAGE_SIZE)
      (freeFrames v.mm (pa / 4096)).length ↔ TablesReached v.mm.kheap.mem v.curr_page_directory va
        (div_up c.size.toNat PAGE_SIZE) (freeFrames v.mm (pa / 4096)).length :=
    TablesReached.alike halike.tables
  rw [hfree, htables, hreturn,
    WalksTables.alike hpaged.dir_ne hwalk (Nat.mul_mod_left _ _)]
  refine ⟨hreached, hreturns, ?_⟩
  rcases hends with hdone | ⟨t', hfault⟩
  · exact Or.inl hdone
  · exact Or.inr (hcall.fault_right hfault)

end

/-- In every state that a run of calls reaches which leave the kernel image, and whatever page
the frames run out at, the cleanup of a call that leaves it too walks through tables only, and
the call returns, exactly when each page of the range had a table or shares its slot with a
page that was mapped. Otherwise the call faults. -/
theorem the_cleanup_walks_the_tables_that_were_reached (image : KernelImage) (ram : Mem)
    (mmap : List MmapEntry) {w : Machine}
    (hboot : translated.init_kernel_memory image ram mmap = .done () w) {calls : List MapCall}
    (hleave : ∀ d ∈ calls, LeavesImage image d) {s : Machine}
    (hrun : run translated.call_step w calls = some s) {c : MapCall} (hc : LeavesImage image c)
    {va pa : Nat} (hfrom : MapsFrom s.vmm c va pa) {u : Machine}
    (hloop : translated.vmm_map_pages s.vmm.curr_page_directory (paging_align_address_down va) pa
      (div_up c.size.toNat PAGE_SIZE) 0 s = .done false u) :
    (WalksTables u.mem s.vmm.curr_page_directory (paging_align_address_down va)
        (div_up c.size.toNat PAGE_SIZE) ↔
      TablesReached s.mem s.vmm.curr_page_directory va (div_up c.size.toNat PAGE_SIZE)
        (freeFrames s.mm (pa / 4096)).length) ∧
    ((∃ t, translated.map_call s c = .done NULL t) ↔
      WalksTables u.mem s.vmm.curr_page_directory (paging_align_address_down va)
        (div_up c.size.toNat PAGE_SIZE)) ∧
    ((∃ t, translated.map_call s c = .done NULL t) ∨
      ∃ t, translated.map_call s c = .fault t) := by
  obtain ⟨v, hv⟩ := mirrors_reached hboot hleave hrun
  exact machine_cleanup hv hc hfrom hloop

/-- A call for a page behind the kernel, from a frame on behind which no frame is free. -/
def noFrame : MapCall := ⟨0xD0000000, 0xFFF00000, 4096, true, true⟩

/-- In a kernel with one free frame the call finds no frame, and maps no page. -/
theorem small_kernel_finds_no_frame : ∃ w,
    init_kernel_memory smallImage (fun _ => 0) (oneRegion 0x300000 0x1000) = .done () w ∧
    MapsFrom w noFrame 0xD0000000 0xFFF00000 ∧ (freeFrames w.mm (0xFFF00000 / 4096)).length = 0 ∧
    vmm_map_pages w.curr_page_directory (paging_align_address_down 0xD0000000) 0xFFF00000
      (div_up noFrame.size.toNat PAGE_SIZE) 0 w.mm = .done false w.mm ∧
    tablePtr w.mm.kheap.mem w.curr_page_directory (0xD0000000 / 4096 / 1024) = 0 := by
  obtain ⟨w, grants, hboot, hpaged, hlinear, -, -, hbits, -⟩ := small_kernel_boots
  have hnone : freeFrames w.mm (0xFFF00000 / 4096) = [] := by
    apply List.eq_nil_iff_forall_not_mem.mpr
    intro f hf
    obtain ⟨hlow, hlt, hbit⟩ := mem_freeFrames.mp hf
    rw [hpaged.frames, TOP_FRAME] at hlt
    rw [hbits f (by omega), Bool.not_eq_false', decide_eq_true_eq, freeFrame] at hbit
    omega
  refine ⟨w, hboot, ⟨by decide, by decide, ?_, ?_, ?_⟩, ?_, ?_, ?_⟩
  · intro hzero
    have hne : noFrame.virtual_address ≠ 0 := by decide
    exact absurd hzero hne
  · exact fun _ => by decide
  · rw [if_neg (by decide)]
    decide
  · rw [hnone]
    rfl
  · have hpages : div_up noFrame.size.toNat PAGE_SIZE = 0 + 1 := div_up_page (by decide)
    rw [hpages]
    unfold vmm_map_pages
    rw [find_free_frame_from_eq hpaged.frames, hnone]
    rfl
  · refine hlinear.unused _ (by decide) fun j hj => ?_
    unfold freeFrame at hj
    unfold KERNEL_PAGE
    omega

/-- Of two pages in the slot of one table, the cleanup finds the table of both. -/
theorem the_cleanup_of_two_pages_returns : ∃ (w u t : Machine),
    translated.init_kernel_memory smallImage (fun _ => 0) (oneRegion 0x300000 0x1000) =
      .done () w ∧
    translated.vmm_map_pages w.vmm.curr_page_directory (paging_align_address_down 0xD0000000)
      (freeFrame * 4096) (div_up twoPages.size.toNat PAGE_SIZE) 0 w = .done false u ∧
    WalksTables u.mem w.vmm.curr_page_directory (paging_align_address_down 0xD0000000)
      (div_up twoPages.size.toNat PAGE_SIZE) ∧
    translated.map_call w twoPages = .done NULL t := by
  obtain ⟨v, u', -, hboot', hfree, hfind, -, hloop', -⟩ := small_kernel_maps_one_of_two
  obtain ⟨w, hboot, -, hw⟩ := machine_boots (fun _ => 0) hboot'
  have hpages : div_up twoPages.size.toNat PAGE_SIZE = 2 := div_up_page (by decide)
  have hleave : LeavesImage smallImage twoPages := small_leaves (by decide) (by omega)
  have hfrom : MapsFrom v twoPages 0xD0000000 (freeFrame * 4096) := by
    refine ⟨by decide, by decide, fun hnull => ?_, fun _ => by decide, ?_⟩
    · have hne : twoPages.virtual_address ≠ 0 := by decide
      exact absurd hnull hne
    · rw [if_pos (by decide), hfind]
  have hrun : run translated.call_step w [] = some w := run_nil _ w
  obtain ⟨u, hloop, -⟩ := (mirrors_map_pages hw hleave hfrom).done_right (by
    rw [hpages]
    exact hloop')
  rw [← hw.directory] at hloop
  obtain ⟨hreached, hreturns, -⟩ := the_cleanup_walks_the_tables_that_were_reached smallImage _ _
    hboot (List.forall_mem_nil _) hrun hleave ((mirrors_maps_from hw).mpr hfrom) hloop
  have hwalks := hreached.mpr (by
    have hfrees : freeFrames w.mm (freeFrame * 4096 / 4096) = [freeFrame] :=
      (hw.alike.free _).trans (hfree _ (by decide))
    rw [hfrees, hpages]
    -- The frame goes to the first page, and the second one is in the same slot.
    intro j hj
    refine Or.inr ⟨0, Nat.one_pos, ?_⟩
    unfold rangePage
    omega)
  obtain ⟨t, ht⟩ := hreturns.mpr hwalks
  exact ⟨w, u, t, hboot, hloop, hwalks, ht⟩

/-- The cleanup reads through the NULL entry of a page that was never mapped. -/
theorem the_cleanup_reads_a_null_entry : ∃ (w u t : Machine),
    translated.init_kernel_memory smallImage (fun _ => 0) (oneRegion 0x300000 0x1000) =
      .done () w ∧
    MapsFrom w.vmm noFrame 0xD0000000 0xFFF00000 ∧
    translated.vmm_map_pages w.vmm.curr_page_directory (paging_align_address_down 0xD0000000)
      0xFFF00000 (div_up noFrame.size.toNat PAGE_SIZE) 0 w = .done false u ∧
    ¬ WalksTables u.mem w.vmm.curr_page_directory (paging_align_address_down 0xD0000000)
      (div_up noFrame.size.toNat PAGE_SIZE) ∧
    translated.map_call w noFrame = .fault t := by
  obtain ⟨v, hboot', hfrom, hfree, hloop', htable⟩ := small_kernel_finds_no_frame
  obtain ⟨w, hboot, -, hw⟩ := machine_boots (fun _ => 0) hboot'
  have hpages : div_up noFrame.size.toNat PAGE_SIZE = 1 := div_up_page (by decide)
  have hleave : LeavesImage smallImage noFrame := small_leaves (by decide) (by omega)
  have hfrom' := (mirrors_maps_from hw).mpr hfrom
  obtain ⟨u, hloop, -⟩ := (mirrors_map_pages hw hleave hfrom).done_right hloop'
  rw [← hw.directory] at hloop
  obtain ⟨hreached, hreturns, hends⟩ := machine_cleanup hw hleave hfrom' hloop
  have hnot : ¬ WalksTables u.mem w.vmm.curr_page_directory (paging_align_address_down 0xD0000000)
      (div_up noFrame.size.toNat PAGE_SIZE) := by
    rw [hreached, hpages]
    intro htables
    rcases htables 0 Nat.one_pos with hptr | ⟨i, hi, -⟩
    · refine hptr ?_
      rw [hw.directory]
      exact (hw.alike.tables.ptr _ (by decide)).trans htable
    · have hnone : (freeFrames w.mm (0xFFF00000 / 4096)).length = 0 :=
        (congrArg List.length (hw.alike.free _)).trans hfree
      omega
  rcases hends with hreturned | ⟨t, hfault⟩
  · exact absurd (hreturns.mp hreturned) hnot
  · exact ⟨w, u, t, hboot, hfrom', hloop, hnot, hfault⟩

end sakana_os
