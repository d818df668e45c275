-- Runs of calls that map and unmap ranges and leave the kernel image: which frames are reserved
-- at every time, and what an unmapped range leaves in the tables.
import SakanaOS.Ownership
import SakanaOS.MapContract

open byte_memory bitmaps bit_fields leases runs

namespace sakana_os

open translated (Machine Alike LeavesImage Mirrors machine_boots mirrors_boot mirrors_call
  mirrors_unmap)

/-! ## Ranges -/

/-- A range as the two functions see it: the address of its first page, and the pages. -/
structure PageRange where
  virtual_address : Nat
  pages : Nat
deriving DecidableEq

def PageRange.of (virtual_address size : Nat) : PageRange :=
  ⟨virtual_address / 4096 * 4096, div_up size PAGE_SIZE⟩

/-- The pages of a range, from its first on. -/
def PageRange.list (r : PageRange) : List Nat :=
  (List.range r.pages).map (rangePage r.virtual_address)

/-- The frames that the entries of the pages name. -/
def PageRange.frames (m : Mem) (dir : Nat) (r : PageRange) : List Nat :=
  r.list.map (pageFrame m dir)

inductive VmmCall where
  | map (c : MapCall)
  | unmap (virtual_address size : UInt32)

/-- A call that succeeds, with the ranges that are mapped. Only one of them may be unmapped. -/
def vmm_step (s : Machine × List PageRange) : VmmCall → Option (Machine × List PageRange)
  | .map c =>
    match translated.map_call s.1 c with
    | .done v t => if v = NULL then none else some (t, .of v c.size.toNat :: s.2)
    | _ => none
  | .unmap virtual_address size =>
    let r := PageRange.of virtual_address.toNat size.toNat
    if r ∈ s.2 then
      match translated.vmm_unmap_memory s.1.vmm.curr_page_directory s.1 virtual_address.toNat
          size.toNat with
      | .done _ t => some (t, s.2.erase r)
      | _ => none
    else none

/-- An explicit range is apart from those that are mapped. -/
def ApartFrom (live : List PageRange) (c : MapCall) : Prop :=
  c.virtual_address ≠ 0 → ∀ page ∈ (PageRange.of c.virtual_address.toNat c.size.toNat).list,
    page ∉ (live.map PageRange.list).flatten

/-- It is also apart from the pages of the kernel image. -/
def Permitted (image : KernelImage) (s : Machine × List PageRange) : VmmCall → Prop
  | .map c => LeavesImage image c ∧ ApartFrom s.2 c
  | .unmap _ _ => True

/-- The mapped ranges, on top of the frames that were reserved at the start. -/
structure Mapping (w : Mm) (s : Vmm) (live : List PageRange) : Prop where
  steady : Steady s
  zero : Taken w 0
  pages : ∀ page ∈ (live.map PageRange.list).flatten,
    pagePresent s.mm.kheap.mem s.curr_page_directory page ∧
      pageUsed s.mm.kheap.mem s.curr_page_directory page
  apart : (live.map PageRange.list).flatten.Nodup
  frames : Leased (Taken w) (Taken s.mm)
    (live.map (PageRange.frames s.mm.kheap.mem s.curr_page_directory))

theorem PageRange.list_lt (r : PageRange) {page : Nat} (h : page ∈ r.list) : page < 0x100000 := by
  obtain ⟨i, -, rfl⟩ := List.mem_map.mp h
  exact rangePage_lt _ _

theorem live_page_lt {live : List PageRange} {page : Nat}
    (h : page ∈ (live.map PageRange.list).flatten) : page < 0x100000 := by
  obtain ⟨l, hl, hpage⟩ := List.mem_flatten.mp h
  obtain ⟨r, -, rfl⟩ := List.mem_map.mp hl
  exact r.list_lt hpage

theorem PageRange.list_nodup {r : PageRange} (h : r.pages ≤ 0x100000) : r.list.Nodup := by
  unfold PageRange.list
  refine List.Nodup.map_on ?_ List.nodup_range
  intro i hi j hj heq
  have hi' := List.mem_range.mp hi
  have hj' := List.mem_range.mp hj
  rcases Nat.lt_trichotomy i j with hlt | heq' | hlt
  · exact absurd heq (rangePage_ne hlt (by omega))
  · exact heq'
  · exact absurd heq.symm (rangePage_ne hlt (by omega))

/-- The frames of ranges whose entries stay are the same. -/
theorem frames_congr {m m' : Mem} {dir : Nat} {live : List PageRange}
    (h : ∀ page ∈ (live.map PageRange.list).flatten, pageWord m' dir page = pageWord m dir page) :
    live.map (PageRange.frames m' dir) = live.map (PageRange.frames m dir) := by
  apply List.map_congr_left
  intro r hr
  apply List.map_congr_left
  intro page hpage
  have hmem : page ∈ (live.map PageRange.list).flatten :=
    List.mem_flatten.mpr ⟨r.list, List.mem_map_of_mem hr, hpage⟩
  unfold pageFrame
  rw [h page hmem]

/-! ## A call that maps -/

section

variable {w : Mm} {s t : Vmm} {live : List PageRange}

/-- The pages that a call maps hold the frames that it has found. -/
theorem Succeeded.frames_eq {c : MapCall} {v : Nat} (h : Succeeded s t c v) :
    (PageRange.of v c.size.toNat).frames t.mm.kheap.mem s.curr_page_directory =
      (freeFrames s.mm (c.physical_address.toNat / 4096)).take (div_up c.size.toNat PAGE_SIZE) := by
  have hlen := h.length
  have hmapped := h.mapped.mapped
  generalize (freeFrames s.mm (c.physical_address.toNat / 4096)).take
    (div_up c.size.toNat PAGE_SIZE) = given at hlen hmapped ⊢
  unfold PageRange.frames PageRange.list PageRange.of
  dsimp only
  rw [List.map_map]
  apply List.ext_getElem?
  intro i
  by_cases hi : i < div_up c.size.toNat PAGE_SIZE
  · have hget : given[i]? = some (given.get ⟨i, hlen ▸ hi⟩) := List.getElem?_eq_getElem _
    have hframe := (hmapped i _ hget).2.2
    rw [Nat.zero_add] at hframe
    rw [List.getElem?_map, List.getElem?_range hi, hget, ← hframe, Option.map_some,
      Function.comp_apply, rangePage_down]
  · have hnone : given[i]? = none := List.getElem?_eq_none (by omega)
    rw [hnone, List.getElem?_map, List.getElem?_eq_none (by rw [List.length_range]; omega),
      Option.map_none]

/-- A range that was searched for is apart from those that are mapped. -/
theorem map_apart (h : Mapping w s live) {c : MapCall} {v : Nat} (hcall : map_call s c = .done v t)
    (hv : v ≠ NULL) (hexplicits : ApartFrom live c) :
    ∀ page ∈ (PageRange.of v c.size.toNat).list, page ∉ (live.map PageRange.list).flatten := by
  have hsucceeded := call_succeeded h.steady hcall hv
  by_cases hexplicit : c.virtual_address = 0
  · rcases map_call_done h.steady hcall with ⟨hnull, -, -⟩ |
      ⟨va, pa, mm, hva, hsearch, -, hfree, hrange, -⟩
    · exact absurd hnull hv
    · obtain ⟨grants, hpaged⟩ := h.steady.paged
      obtain ⟨-, u, -, -, hend⟩ :=
        map_range_done hpaged h.steady.zero hva c.size.toNat_lt hrange
      have hret : v = va / 4096 * 4096 := by
        rcases hend with ⟨-, hret, -⟩ | ⟨-, hnull, -⟩
        · exact hret
        · exact absurd hnull hv
      intro page hpage hlive
      obtain ⟨i, hi, rfl⟩ := List.mem_map.mp hpage
      have hlt : i < div_up c.size.toNat PAGE_SIZE := List.mem_range.mp hi
      have hsize : i * 4096 < c.size.toNat := by
        rcases hsucceeded.pages with hzero | ⟨-, hcount⟩
        · omega
        · unfold pagesOf at hcount
          omega
      have hused := (h.pages _ hlive).2
      unfold PageRange.of at hused
      rw [hret, rangePage_down, rangePage_down] at hused
      exact hsearch hexplicit i hsize hused
  · have hgiven := hsucceeded.given hexplicit
    have hsame : PageRange.of v c.size.toNat =
        PageRange.of c.virtual_address.toNat c.size.toNat := by
      unfold PageRange.of
      rw [hgiven, Nat.mul_div_cancel _ (by decide)]
    rw [hsame]
    exact hexplicits hexplicit

/-- Taken afterwards are the frames that the call is given, and those that were taken. -/
theorem Succeeded.taken {grants : List Grant} (hpaged : Paged s.mm s.curr_page_directory grants)
    {c : MapCall} {v : Nat} (h : Succeeded s t c v) (f : Nat) :
    Taken t.mm f ↔ f ∈ (freeFrames s.mm (c.physical_address.toNat / 4096)).take
      (div_up c.size.toNat PAGE_SIZE) ∨ Taken s.mm f := by
  unfold Taken
  constructor
  · rintro ⟨hlt, hbit⟩
    rw [h.mapped.bits f hlt, Bool.or_eq_true, decide_eq_true_eq] at hbit
    exact hbit.imp_right fun hold => ⟨hlt, hold⟩
  · rintro (hnew | ⟨hlt, hold⟩)
    · have hlt := (given_frame hpaged hnew).2.1
      exact ⟨hlt, by rw [h.mapped.bits f hlt, decide_eq_true hnew, Bool.true_or]⟩
    · exact ⟨hlt, by rw [h.mapped.bits f hlt, hold, Bool.or_true]⟩

theorem map_keeps (h : Mapping w s live) {c : MapCall} {v : Nat}
    (hcall : map_call s c = .done v t) (hv : v ≠ NULL) (hexplicits : ApartFrom live c) :
    Mapping w t (.of v c.size.toNat :: live) := by
  have hsucceeded := call_succeeded h.steady hcall hv
  have hapart := map_apart h hcall hv hexplicits
  have hsteady : Steady t := steady_call h.steady (call_step_eq.mpr ⟨v, hcall⟩)
  have hdir := hsucceeded.directory
  have hlen := hsucceeded.length
  have hframes := hsucceeded.frames_eq
  obtain ⟨grants, hpaged⟩ := h.steady.paged
  have hshort := freeFrames_length hpaged.frames (c.physical_address.toNat / 4096)
  have hpages : (PageRange.of v c.size.toNat).pages ≤ 0x100000 := by
    have henough := hsucceeded.enough
    unfold PageRange.of
    dsimp only
    omega
  have hkept : ∀ page ∈ (live.map PageRange.list).flatten,
      pageWord t.mm.kheap.mem s.curr_page_directory page =
        pageWord s.mm.kheap.mem s.curr_page_directory page := by
    intro page hpage
    apply hsucceeded.other (live_page_lt hpage)
    intro i hi heq
    refine hapart page ?_ hpage
    unfold PageRange.of PageRange.list
    rw [← heq]
    refine List.mem_map.mpr ⟨i, List.mem_range.mpr hi, ?_⟩
    exact rangePage_down v i
  refine ⟨hsteady, h.zero, ?_, ?_, ?_⟩
  · intro page hpage
    rw [List.map_cons, List.flatten_cons, List.mem_append] at hpage
    rw [hdir]
    rcases hpage with hnew | hold
    · obtain ⟨i, hi, rfl⟩ := List.mem_map.mp hnew
      obtain ⟨f, hf⟩ := hsucceeded.frame (List.mem_range.mp hi)
      have hmapped := hsucceeded.mapped.mapped i f hf
      rw [Nat.zero_add] at hmapped
      unfold PageRange.of
      rw [rangePage_down]
      exact ⟨hmapped.1, hmapped.2.1⟩
    · have hpage' := h.pages page hold
      unfold pagePresent pageUsed at *
      rw [hkept page hold]
      exact hpage'
  · rw [List.map_cons, List.flatten_cons, List.nodup_append']
    exact ⟨PageRange.list_nodup hpages, h.apart, hapart⟩
  · rw [List.map_cons, hdir, frames_congr hkept, hframes]
    refine h.frames.grant ((freeFrames_nodup _ _).sublist (List.take_sublist _ _)) ?_
      (hsucceeded.taken hpaged)
    rintro f hf ⟨-, hbit⟩
    rw [(given_frame hpaged hf).2.2] at hbit
    cases hbit

/-! ## A call that unmaps -/

theorem present_table {m : Mem} {dir page : Nat} (h : pagePresent m dir page) :
    tablePtr m dir (page / 1024) ≠ 0 := by
  intro hnull
  unfold pagePresent pageWord at h
  rw [if_pos hnull, field_zero] at h
  cases h

theorem live_perm {r : PageRange} (hr : r ∈ live) : live.Perm (r :: live.erase r) :=
  List.perm_cons_erase hr

/-- The mapped ranges do not depend on their order. -/
theorem Mapping.perm {live' : List PageRange} (h : Mapping w s live) (hperm : live.Perm live') :
    Mapping w s live' := by
  have hpages : (live.map PageRange.list).flatten.Perm (live'.map PageRange.list).flatten :=
    (hperm.map _).flatten
  refine ⟨h.steady, h.zero, ?_, hpages.nodup_iff.mp h.apart, h.frames.perm (hperm.map _)⟩
  intro page hpage
  exact h.pages page (hpages.mem_iff.mpr hpage)

/-- A mapped range is unmapped: its frames are free for all, and its entries stay. -/
theorem unmap_keeps {r : PageRange} (h : Mapping w s (r :: live)) {virtual_address size : Nat}
    (hva : virtual_address < 4294967296) (hr : r = .of virtual_address size) :
    ∃ mm, vmm_unmap_memory s.curr_page_directory s.mm virtual_address size = .done () mm ∧
      Mapping w { s with mm := mm } live ∧
      SameTables s.mm.kheap.mem mm.kheap.mem s.curr_page_directory := by
  obtain ⟨grants, hpaged⟩ := h.steady.paged
  have haligned : virtual_address / 4096 * 4096 % 4096 = 0 := Nat.mul_mod_left _ _
  have hlist : ∀ j < r.pages, rangePage (virtual_address / 4096 * 4096) j ∈ r.list := by
    intro j hj
    rw [hr] at hj ⊢
    exact List.mem_map.mpr ⟨j, List.mem_range.mpr hj, rfl⟩
  have hpages : r.pages = div_up size PAGE_SIZE := by rw [hr, PageRange.of]
  have hmapped : ∀ page ∈ r.list, pagePresent s.mm.kheap.mem s.curr_page_directory page := by
    intro page hpage
    refine (h.pages page ?_).1
    rw [List.map_cons, List.flatten_cons]
    exact List.mem_append_left _ hpage
  obtain ⟨mm, hunmap⟩ := unmap_pages_returns haligned r.pages (i := 0) hpaged fun j _ hj =>
    present_table (hmapped _ (hlist j (by omega)))
  have hspec := unmap_pages_spec haligned r.pages hpaged hunmap
  obtain ⟨hpaged', hsame⟩ := hpaged.marked hspec.marked
  have hkept : ∀ page, page < 0x100000 → pageWord mm.kheap.mem s.curr_page_directory page =
      pageWord s.mm.kheap.mem s.curr_page_directory page := hsame.page
  refine ⟨mm, ?_, ⟨⟨⟨grants, hpaged'⟩, ?_⟩, h.zero, ?_, ?_, ?_⟩, hsame⟩
  · unfold vmm_unmap_memory
    dsimp only
    rw [align_down_eq hva, ← hpages]
    exact hunmap
  · exact (hspec.bits 0 (by decide)).mpr ⟨h.steady.zero, Or.inl rfl⟩
  · intro page hpage
    have hpage' := h.pages page (by
      rw [List.map_cons, List.flatten_cons]
      exact List.mem_append_right _ hpage)
    unfold pagePresent pageUsed at *
    rw [hkept page (live_page_lt hpage)]
    exact hpage'
  · have hapart := h.apart
    rw [List.map_cons, List.flatten_cons, List.nodup_append'] at hapart
    exact hapart.2.1
  · have hframes := h.frames
    rw [List.map_cons] at hframes
    rw [frames_congr fun page hpage => hkept page (live_page_lt hpage)]
    refine hframes.giveBack fun f => ?_
    -- The frames of the range are those that its entries name, and frame 0 is none of them.
    have hgiven : f ∈ r.frames s.mm.kheap.mem s.curr_page_directory ↔
        ∃ j, j < r.pages ∧ pageFrame s.mm.kheap.mem s.curr_page_directory
          (rangePage (virtual_address / 4096 * 4096) j) = f := by
      unfold PageRange.frames PageRange.list
      rw [hr, List.map_map, List.mem_map]
      constructor
      · rintro ⟨j, hj, heq⟩
        exact ⟨j, List.mem_range.mp hj, heq⟩
      · rintro ⟨j, hj, heq⟩
        exact ⟨j, List.mem_range.mpr hj, heq⟩
    have hzero : f ∈ r.frames s.mm.kheap.mem s.curr_page_directory → f ≠ 0 := by
      rintro hf rfl
      refine hframes.apart 0 ?_ h.zero
      rw [List.flatten_cons]
      exact List.mem_append_left _ hf
    unfold Taken
    constructor
    · rintro ⟨hlt, hbit⟩
      obtain ⟨hold, hall⟩ := (hspec.bits f hlt).mp hbit
      refine ⟨⟨hlt, hold⟩, fun hf => ?_⟩
      rcases hall with hnull | hall
      · exact hzero hf hnull
      · obtain ⟨j, hj, heq⟩ := hgiven.mp hf
        exact hall j (Nat.zero_le j) (by omega) (hmapped _ (hlist j hj)) heq
    · rintro ⟨⟨hlt, hold⟩, hnot⟩
      refine ⟨hlt, (hspec.bits f hlt).mpr ⟨hold, Or.inr fun j _ hj _ heq => ?_⟩⟩
      exact hnot (hgiven.mpr ⟨j, by omega, heq⟩)

/-! ## Runs -/

end

/-- The mapped ranges of a machine. -/
def Maps (image : KernelImage) (w : Mm) (s : Machine) (live : List PageRange) : Prop :=
  ∃ t, Mirrors image s t ∧ Mapping w t live

section

variable {image : KernelImage} {w : Mm} {s : Machine} {live : List PageRange}

/-- A mapped range is unmapped on the machine. -/
theorem vmm_step_unmap (h : Maps image w s live) {r : PageRange} (hr : r ∈ live)
    {virtual_address size : UInt32} (heq : r = .of virtual_address.toNat size.toNat) :
    ∃ t, vmm_step (s, live) (.unmap virtual_address size) = some (t, live.erase r) ∧
      Maps image w t (live.erase r) ∧ t.vmm.curr_page_directory = s.vmm.curr_page_directory ∧
      ∀ page < 0x100000, pageWord t.mem s.vmm.curr_page_directory page =
        pageWord s.mem s.vmm.curr_page_directory page := by
  obtain ⟨v, hv, hmapping⟩ := h
  obtain ⟨mm, hunmap, hafter, hsame⟩ :=
    unmap_keeps (hmapping.perm (live_perm hr)) virtual_address.toNat_lt heq
  obtain ⟨t, hdone, ht⟩ := (mirrors_unmap hv virtual_address.toNat_lt).done_right
    (Outcome.lift_eq_done.mpr ⟨mm, hunmap, rfl⟩)
  have hmem : PageRange.of virtual_address.toNat size.toNat ∈ live := heq ▸ hr
  refine ⟨t, ?_, ⟨_, ht, hafter⟩, ht.directory.trans hv.directory.symm, fun page hpage => ?_⟩
  · unfold vmm_step
    dsimp only
    rw [if_pos hmem, hdone, heq]
  · rw [hv.directory]
    exact (ht.alike.tables.page page hpage).trans
      ((hsame.page page hpage).trans (hv.alike.tables.page page hpage).symm)

theorem step_keeps {x y : Machine × List PageRange} {call : VmmCall} (h : Maps image w x.1 x.2)
    (hpermitted : Permitted image x call) (hstep : vmm_step x call = some y) :
    Maps image w y.1 y.2 := by
  obtain ⟨s, live⟩ := x
  cases call with
  | map c =>
    obtain ⟨v, hv, hmapping⟩ := h
    obtain ⟨hleave, hapart⟩ := hpermitted
    unfold vmm_step at hstep
    cases hcall : translated.map_call s c with
    | done ret t =>
      simp only [hcall] at hstep
      by_cases hret : ret = NULL
      · rw [if_pos hret] at hstep
        cases hstep
      · rw [if_neg hret] at hstep
        cases hstep
        obtain ⟨u, hcall', ht⟩ := (mirrors_call hv hleave).done_left hcall
        exact ⟨u, ht, map_keeps hmapping hcall' hret hapart⟩
    | _ =>
      simp only [hcall] at hstep
      cases hstep
  | unmap virtual_address size =>
    by_cases hr : PageRange.of virtual_address.toNat size.toNat ∈ live
    · obtain ⟨t, hdone, hmapping, -⟩ := vmm_step_unmap h hr rfl
      rw [hdone] at hstep
      cases hstep
      exact hmapping
    · unfold vmm_step at hstep
      simp only [hr, if_false] at hstep
      cases hstep

/-- The frames of the machine that are reserved are those of the state that it mirrors. -/
theorem mirrors_taken {t : Vmm} (h : Mirrors image s t) : Taken s.mm = Taken t.mm := by
  funext f
  unfold Taken
  refine propext (and_congr_right fun hf => ?_)
  have hbit : pmm_test_frame s.mm f = pmm_test_frame t.mm f := h.alike.bits f hf
  rw [hbit]

theorem mapping_boot {ram : Mem} {mmap : List MmapEntry} {k : Machine}
    (hboot : translated.init_kernel_memory image ram mmap = .done () k) :
    ∃ v, Taken k.mm = Taken v ∧ Maps image v k [] := by
  obtain ⟨v, hboot', hv⟩ := mirrors_boot hboot
  have hsteady := steady_boot hboot'
  refine ⟨v.mm, mirrors_taken hv, v, hv, hsteady, ⟨by decide, hsteady.zero⟩, ?_, List.nodup_nil,
    leased_start _⟩
  intro page hpage
  cases hpage

theorem mapping_run {ram : Mem} {mmap : List MmapEntry} {k : Machine}
    (hboot : translated.init_kernel_memory image ram mmap = .done () k) {calls : List VmmCall}
    (hpermitted : Along vmm_step (Permitted image) (k, []) calls)
    (hrun : run vmm_step (k, []) calls = some (s, live)) :
    ∃ v, Taken k.mm = Taken v ∧ Maps image v s live := by
  obtain ⟨v, htaken, hmaps⟩ := mapping_boot hboot
  exact ⟨v, htaken, run_keeps_along
    (motive := fun x : Machine × List PageRange => Maps image v x.1 x.2)
    (fun _ _ _ h hp hstep => step_keeps h hp hstep) hmaps hpermitted hrun⟩

theorem Maps.frames (h : Maps image w s live) : Leased (Taken w) (Taken s.mm)
    (live.map (PageRange.frames s.mem s.vmm.curr_page_directory)) := by
  obtain ⟨t, ht, hmapping⟩ := h
  have hframes := hmapping.frames
  rw [mirrors_taken ht, ht.directory]
  rwa [← frames_congr fun page hpage => ht.alike.tables.page page (live_page_lt hpage)] at hframes

theorem Maps.present (h : Maps image w s live) {page : Nat}
    (hpage : page ∈ (live.map PageRange.list).flatten) :
    pagePresent s.mem s.vmm.curr_page_directory page := by
  obtain ⟨t, ht, hmapping⟩ := h
  have hpresent := (hmapping.pages page hpage).1
  have hword : pageWord s.mem t.curr_page_directory page =
      pageWord t.mm.kheap.mem t.curr_page_directory page :=
    ht.alike.tables.page page (live_page_lt hpage)
  rw [ht.directory]
  unfold pagePresent at *
  rw [hword]
  exact hpresent

end

/-- In every run of successful calls that map and unmap ranges, as long as an explicit range is
apart from those that are mapped and leaves the kernel image: the reserved frames are those of
the boot and those of the mapped ranges, and no frame is held twice. Once nothing is mapped, the
frames are as they were after the boot. -/
theorem mapped_ranges_hold_the_reserved_frames (image : KernelImage) (ram : Mem)
    (mmap : List MmapEntry) {w : Machine}
    (hboot : translated.init_kernel_memory image ram mmap = .done () w) {calls : List VmmCall}
    (hpermitted : Along vmm_step (Permitted image) (w, []) calls) {s : Machine}
    {live : List PageRange} (hrun : run vmm_step (w, []) calls = some (s, live)) :
    Leased (Taken w.mm) (Taken s.mm)
        (live.map (PageRange.frames s.mem s.vmm.curr_page_directory)) ∧
      (∀ page ∈ (live.map PageRange.list).flatten,
        pagePresent s.mem s.vmm.curr_page_directory page) ∧
      (live = [] → ∀ f < 0x100000, pmm_test_frame s.mm f = pmm_test_frame w.mm f) := by
  obtain ⟨v, htaken, hmaps⟩ := mapping_run hboot hpermitted hrun
  have hframes := hmaps.frames
  rw [← htaken] at hframes
  refine ⟨hframes, fun page hpage => hmaps.present hpage, ?_⟩
  rintro rfl f hf
  have hall := hframes.taken f
  simp only [List.map_nil, List.flatten_nil, List.not_mem_nil, or_false] at hall
  rw [Bool.eq_iff_iff]
  constructor
  · intro hbit
    exact (hall.mp ⟨hf, hbit⟩).2
  · intro hbit
    exact (hall.mpr ⟨hf, hbit⟩).2

/-- The page of `onePage`. -/
def oneRange : PageRange := ⟨0xD0000000, 1⟩

theorem one_range_eq : PageRange.of 0xD0000000 4096 = oneRange := by
  have hpages : div_up 4096 PAGE_SIZE = 1 := div_up_page (by decide)
  unfold PageRange.of oneRange
  rw [hpages]

/-- A machine with one free frame maps it to the page. -/
theorem small_machine_holds_a_page : ∃ w s,
    translated.init_kernel_memory smallImage (fun _ => 0) (oneRegion 0x300000 0x1000) =
      .done () w ∧
    Along vmm_step (Permitted smallImage) (w, []) [.map onePage] ∧
    run vmm_step (w, []) [.map onePage] = some (s, [oneRange]) := by
  obtain ⟨v, u, hboot', hcall'⟩ := small_kernel_maps_one_page
  obtain ⟨w, hboot, -, hw⟩ := machine_boots (fun _ => 0) hboot'
  have hpages : div_up onePage.size.toNat PAGE_SIZE = 1 := div_up_page (by decide)
  have hleave : LeavesImage smallImage onePage := small_leaves (by decide) (by omega)
  obtain ⟨s, hcall, -⟩ := (mirrors_call hw hleave).done_right hcall'
  have hne : ¬ (0xD0000000 : Nat) = NULL := by decide
  have hstep : vmm_step (w, []) (.map onePage) = some (s, [oneRange]) := by
    have hsize : onePage.size.toNat = 4096 := by decide
    unfold vmm_step
    simp only [hcall, if_neg hne, hsize, one_range_eq]
  refine ⟨w, s, hboot, ⟨⟨hleave, ?_⟩, fun _ _ => trivial⟩, run_cons.mpr ⟨_, hstep, rfl⟩⟩
  intro _ page _ hlive
  cases hlive

/-- The frame of the page is free again when the page is unmapped. -/
theorem the_frame_of_a_page_is_given_back : ∃ w s,
    translated.init_kernel_memory smallImage (fun _ => 0) (oneRegion 0x300000 0x1000) =
      .done () w ∧
    run vmm_step (w, []) [.map onePage, .unmap 0xD0000000 4096] = some (s, []) ∧
    ∀ f < 0x100000, pmm_test_frame s.mm f = pmm_test_frame w.mm f := by
  obtain ⟨w, s, hboot, halong, hrun⟩ := small_machine_holds_a_page
  obtain ⟨v, -, hmaps⟩ := mapping_run hboot halong hrun
  obtain ⟨t, hunmap, -⟩ := vmm_step_unmap hmaps List.mem_cons_self
    (show oneRange = .of (0xD0000000 : UInt32).toNat (4096 : UInt32).toNat from one_range_eq.symm)
  rw [List.erase_cons_head] at hunmap
  have hboth : run vmm_step (w, []) ([.map onePage] ++ [.unmap 0xD0000000 4096]) =
      some (t, []) :=
    run_append.mpr ⟨_, hrun, run_cons.mpr ⟨_, hunmap, rfl⟩⟩
  have hpermitted : Along vmm_step (Permitted smallImage) (w, [])
      ([.map onePage] ++ [.unmap 0xD0000000 4096]) :=
    ⟨halong.1, fun _ _ => ⟨trivial, fun _ _ => trivial⟩⟩
  exact ⟨w, _, hboot, hboth,
    (mapped_ranges_hold_the_reserved_frames smallImage _ _ hboot hpermitted hboth).2.2 rfl⟩

/-- In every state of such a run, each mapped range can be unmapped. Its frames are free then,
but its pages stay present, with these frames. -/
theorem an_unmapped_range_still_reaches_its_frames (image : KernelImage) (ram : Mem)
    (mmap : List MmapEntry) {w : Machine}
    (hboot : translated.init_kernel_memory image ram mmap = .done () w) {calls : List VmmCall}
    (hpermitted : Along vmm_step (Permitted image) (w, []) calls) {s : Machine}
    {live : List PageRange} (hrun : run vmm_step (w, []) calls = some (s, live))
    (virtual_address size : UInt32) {r : PageRange}
    (hr : r = .of virtual_address.toNat size.toNat) (hlive : r ∈ live) :
    ∃ t, vmm_step (s, live) (.unmap virtual_address size) = some (t, live.erase r) ∧
      ∀ page ∈ r.list, pagePresent t.mem t.vmm.curr_page_directory page ∧
        pageFrame t.mem t.vmm.curr_page_directory page =
          pageFrame s.mem s.vmm.curr_page_directory page ∧
        pmm_test_frame t.mm (pageFrame t.mem t.vmm.curr_page_directory page) = false := by
  obtain ⟨v, -, hmaps⟩ := mapping_run hboot hpermitted hrun
  obtain ⟨t, hstep, hafter, hdir, hwords⟩ := vmm_step_unmap hmaps hlive hr
  refine ⟨t, hstep, fun page hpage => ?_⟩
  rw [hdir]
  have hword := hwords page (r.list_lt hpage)
  have hframe : pageFrame t.mem s.vmm.curr_page_directory page =
      pageFrame s.mem s.vmm.curr_page_directory page := by
    unfold pageFrame
    rw [hword]
  have hheld : pageFrame s.mem s.vmm.curr_page_directory page ∈
      r.frames s.mem s.vmm.curr_page_directory := List.mem_map_of_mem hpage
  have hbefore := hmaps.frames.perm ((live_perm hlive).map _)
  rw [List.map_cons] at hbefore
  have honce := hbefore.once
  rw [List.flatten_cons, List.nodup_append'] at honce
  refine ⟨?_, hframe, ?_⟩
  · have hpresent := hmaps.present (List.mem_flatten.mpr ⟨r.list, List.mem_map_of_mem hlive, hpage⟩)
    unfold pagePresent at *
    rw [hword]
    exact hpresent
  · rw [hframe, ← Bool.not_eq_true]
    intro hbit
    have hlt : pageFrame s.mem s.vmm.curr_page_directory page < 0x100000 := field_lt _ _ _
    rcases (hafter.frames.taken _).mp ⟨hlt, hbit⟩ with hbase | hother
    · refine hbefore.apart _ ?_ hbase
      rw [List.flatten_cons]
      exact List.mem_append_left _ hheld
    · refine honce.2.2 hheld ?_
      rw [hdir, frames_congr fun page hpage => hwords page (live_page_lt hpage)] at hother
      exact hother

theorem the_page_still_reaches_its_frame : ∃ (s t : Machine),
    vmm_step (s, [oneRange]) (.unmap 0xD0000000 4096) = some (t, []) ∧
    pagePresent t.mem t.vmm.curr_page_directory 0xD0000 := by
  obtain ⟨w, s, hboot, halong, hrun⟩ := small_machine_holds_a_page
  obtain ⟨t, hstep, hpages⟩ := an_unmapped_range_still_reaches_its_frames smallImage _ _ hboot
    halong hrun 0xD0000000 4096 (r := oneRange) one_range_eq.symm List.mem_cons_self
  rw [List.erase_cons_head] at hstep
  exact ⟨s, t, hstep, (hpages 0xD0000 (by decide)).1⟩

end sakana_os
