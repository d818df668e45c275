-- What a call of `vmm_map_memory` that succeeds has done: the frames of the pages of its
-- range, the protection of their entries, and the bytes that it leaves out.
import SakanaOS.SharedFrames

open byte_memory bitmaps bit_fields runs

namespace sakana_os

open translated (Machine Alike LeavesImage Mirrors mirrors_call mirrors_reached)

/-! ## A call that succeeds -/

/-- The pages of a size, rounded up. -/
def pagesOf (size : Nat) : Nat := (size + 4095) / 4096

/-- A call that succeeds has given free frames to the pages of its range. -/
structure Succeeded (s t : Vmm) (c : MapCall) (v : Nat) : Prop where
  aligned : v % 4096 = 0
  lt : v < 4294967296
  given : c.virtual_address ≠ 0 → v = c.virtual_address.toNat / 4096 * 4096
  pages : div_up c.size.toNat PAGE_SIZE = 0 ∨
    c.size.toNat + 4095 < 2147483648 ∧ div_up c.size.toNat PAGE_SIZE = pagesOf c.size.toNat
  enough : div_up c.size.toNat PAGE_SIZE ≤
    (freeFrames s.mm (c.physical_address.toNat / 4096)).length
  directory : t.curr_page_directory = s.curr_page_directory
  mapped : RangeMapped s.mm t.mm s.curr_page_directory v 0
    ((freeFrames s.mm (c.physical_address.toNat / 4096)).take (div_up c.size.toNat PAGE_SIZE))

theorem call_succeeded {s t : Vmm} {c : MapCall} {v : Nat} (h : Steady s)
    (hcall : map_call s c = .done v t) (hv : v ≠ NULL) : Succeeded s t c v := by
  rcases map_call_done h hcall with ⟨hnull, -, -⟩ |
    ⟨va, pa, mm, hva, -, hgiven, hfree, hrange, rfl⟩
  · exact absurd hnull hv
  · obtain ⟨grants, hpaged⟩ := h.paged
    obtain ⟨hpages, u, -, hmapped, hend⟩ :=
      map_range_done hpaged h.zero hva c.size.toNat_lt hrange
    rw [hfree] at hmapped hend
    rcases hend with ⟨hle, rfl, rfl⟩ | ⟨-, hnull, -⟩
    · refine ⟨Nat.mul_mod_left _ _, by omega, ?_, hpages, hle, rfl, hmapped⟩
      intro hexplicit
      rw [hgiven hexplicit]
    · exact absurd hnull hv

/-- The frames that a call is given are those of its start on that were free. -/
theorem given_frame {s : Mm} {dir : Nat} {grants : List Grant} (h : Paged s dir grants)
    {start n f : Nat} (hf : f ∈ (freeFrames s start).take n) :
    start ≤ f ∧ f < 0x100000 ∧ pmm_test_frame s f = false := by
  obtain ⟨hlow, hlt, hbit⟩ := mem_freeFrames.mp (List.mem_of_mem_take hf)
  rw [h.frames, TOP_FRAME] at hlt
  exact ⟨hlow, by omega, hbit⟩

section

variable {s t : Vmm} {c : MapCall} {v : Nat}

theorem Succeeded.length (h : Succeeded s t c v) :
    ((freeFrames s.mm (c.physical_address.toNat / 4096)).take
      (div_up c.size.toNat PAGE_SIZE)).length = div_up c.size.toNat PAGE_SIZE := by
  rw [List.length_take]
  exact Nat.min_eq_left h.enough

/-- Each page of the range has a frame. -/
theorem Succeeded.frame (h : Succeeded s t c v) {i : Nat}
    (hi : i < div_up c.size.toNat PAGE_SIZE) :
    ∃ f, ((freeFrames s.mm (c.physical_address.toNat / 4096)).take
      (div_up c.size.toNat PAGE_SIZE))[i]? = some f :=
  ⟨_, List.getElem?_eq_getElem (by rwa [h.length])⟩

/-- Within the sizes that are no negative `int`, the pages are those of the size. -/
theorem Succeeded.count (h : Succeeded s t c v) (hpos : 1 ≤ c.size.toNat)
    (hsize : c.size.toNat ≤ 2147483648 - 4096) :
    div_up c.size.toNat PAGE_SIZE = pagesOf c.size.toNat := by
  rcases h.pages with hzero | ⟨-, hcount⟩
  · rw [PAGE_SIZE, div_up_page (by omega)] at hzero
    omega
  · exact hcount

/-- The pages of a range that does not wrap. -/
theorem rangePage_eq {i : Nat} (h : v / 4096 + i < 0x100000) : rangePage v i = v / 4096 + i :=
  Nat.mod_eq_of_lt h

/-- A page is as before, but for those of the range. -/
theorem Succeeded.other (h : Succeeded s t c v) {page : Nat} (hpage : page < 0x100000)
    (hne : ∀ i, i < div_up c.size.toNat PAGE_SIZE → rangePage v i ≠ page) :
    pageWord t.mm.kheap.mem s.curr_page_directory page =
      pageWord s.mm.kheap.mem s.curr_page_directory page := by
  apply h.mapped.other page hpage
  intro j hj
  rw [h.length] at hj
  rw [Nat.zero_add]
  exact hne j hj

end

/-! ## A call that succeeds on the machine -/

theorem RangeMapped.alike {s t s' t' : Mm} {dir va i : Nat} {given : List Nat}
    (h : RangeMapped s t dir va i given) (hs : Alike s s' dir) (ht : Alike t t' dir)
    (hpaged : ∃ grants, Paged t' dir grants) : RangeMapped s' t' dir va i given := by
  refine ⟨hpaged, fun f hf => ?_, fun page hpage hother => ?_, fun j f hf => ?_, fun j f hf => ?_,
    fun k hk => ?_⟩
  · rw [ht.bits f hf, hs.bits f hf]
    exact h.bits f hf
  · rw [ht.tables.page page hpage, hs.tables.page page hpage]
    exact h.other page hpage hother
  · unfold pagePresent pageUsed pageFrame
    rw [ht.tables.page _ (rangePage_lt _ _)]
    exact h.mapped j f hf
  · rw [ht.tables.page _ (rangePage_lt _ _)]
    exact h.word j f hf
  · rw [ht.tables.ptr k hk, hs.tables.ptr k hk]
    exact h.table k hk

theorem machine_succeeded {image : KernelImage} {s t : Machine} {u : Vmm} {c : MapCall} {v : Nat}
    (hs : Mirrors image s u) (hleave : LeavesImage image c)
    (hcall : translated.map_call s c = .done v t) (hv : v ≠ NULL) :
    Succeeded s.vmm t.vmm c v := by
  obtain ⟨u', hcall', ht⟩ := (mirrors_call hs hleave).done_left hcall
  have h := call_succeeded hs.steady hcall' hv
  have hdir := h.directory
  have halike := ht.alike
  have hpaged := ht.steady_machine.paged
  rw [ht.directory] at hpaged
  rw [hdir] at halike hpaged
  refine ⟨h.aligned, h.lt, h.given, h.pages, ?_, ?_, ?_⟩
  · rw [hs.alike.free]
    exact h.enough
  · rw [ht.directory, hs.directory, hdir]
  · rw [hs.alike.free, hs.directory]
    exact h.mapped.alike hs.alike halike hpaged

/-! ## The contract -/

/-- The frames of the list are those of the pages of the range: they were free, and are
reserved now, and nothing else has changed. -/
structure Contract (s t : Vmm) (c : MapCall) (v : Nat) (frames : List Nat) : Prop where
  count : frames.length = pagesOf c.size.toNat
  apart : frames.Nodup
  free : ∀ f ∈ frames, pmm_test_frame s.mm f = false
  reserved : ∀ f ∈ frames, pmm_test_frame t.mm f = true
  from_pa : ∀ f ∈ frames, c.physical_address.toNat / 4096 ≤ f
  present : ∀ i f, frames[i]? = some f →
    pagePresent t.mm.kheap.mem t.curr_page_directory (v / 4096 + i) ∧
      ∀ o, o < 4096 → vmm_virtual_to_physical_address t.mm.kheap.mem t.curr_page_directory
        (v + 4096 * i + o) = some (f * 4096 + o)
  other : ∀ page, page < 0x100000 → page < v / 4096 ∨ v / 4096 + pagesOf c.size.toNat ≤ page →
    pageWord t.mm.kheap.mem t.curr_page_directory page =
      pageWord s.mm.kheap.mem s.curr_page_directory page
  translation : ∀ va, va < 4294967296 →
    va / 4096 < v / 4096 ∨ v / 4096 + pagesOf c.size.toNat ≤ va / 4096 →
    ∀ pa, pa ≠ NULL →
      (vmm_virtual_to_physical_address t.mm.kheap.mem t.curr_page_directory va = some pa ↔
        vmm_virtual_to_physical_address s.mm.kheap.mem s.curr_page_directory va = some pa)
  bits : ∀ f, f < 0x100000 → f ∉ frames → pmm_test_frame t.mm f = pmm_test_frame s.mm f

/-- An address translates by the entry of its page, when that is present. -/
theorem translation_iff {m : Mem} {dir va pa : Nat} (hdir : dir ≠ NULL) (hpa : pa ≠ NULL) :
    vmm_virtual_to_physical_address m dir va = some pa ↔
      pagePresent m dir (va / 4096) ∧ pageFrame m dir (va / 4096) * 4096 + va % 4096 = pa := by
  by_cases hpresent : pagePresent m dir (va / 4096)
  · rw [present_translation hdir hpresent, Option.some.injEq]
    exact (and_iff_right hpresent).symm
  · refine iff_of_false ?_ (fun h => hpresent h.1)
    have hbit : field (pageWord m dir (va / 4096)) 0 1 < 2 ^ 1 := field_lt _ _ _
    unfold pagePresent at hpresent
    rw [virtual_to_physical_eq m hdir]
    by_cases htable : tablePtr m dir (va / 4096 / 1024) = 0
    · rw [if_pos htable]
      exact fun h => by cases h
    · rw [if_neg htable, if_pos (by omega), Option.some.injEq]
      exact Ne.symm hpa

theorem Succeeded.contract {s t : Vmm} {c : MapCall} {v : Nat} (hsteady : Steady s)
    (h : Succeeded s t c v) (hpos : 1 ≤ c.size.toNat) (hsize : c.size.toNat ≤ 2147483648 - 4096)
    (hwrap : v + c.size.toNat ≤ 4294967296) :
    Contract s t c v ((freeFrames s.mm (c.physical_address.toNat / 4096)).take
      (pagesOf c.size.toNat)) := by
  obtain ⟨grants, hpaged⟩ := hsteady.paged
  have hdir := hpaged.dir_ne
  have haligned := h.aligned
  have hcount := h.count hpos hsize
  have hpage : ∀ i, i < pagesOf c.size.toNat → rangePage v i = v / 4096 + i := by
    intro i hi
    apply rangePage_eq
    unfold pagesOf at hi
    omega
  have hlength := h.length
  have hother := @Succeeded.other s t c v h
  have hmapped := h.mapped
  rw [hcount] at hlength hother hmapped
  have hkept : ∀ page, page < 0x100000 →
      page < v / 4096 ∨ v / 4096 + pagesOf c.size.toNat ≤ page →
      pageWord t.mm.kheap.mem s.curr_page_directory page =
        pageWord s.mm.kheap.mem s.curr_page_directory page := by
    intro page hlt hout
    apply hother hlt
    intro i hi
    rw [hpage i hi]
    omega
  rw [← h.directory] at hmapped
  refine ⟨hlength, ((freeFrames_nodup _ _).sublist (List.take_sublist _ _)), ?_, ?_, ?_, ?_, ?_,
    ?_, ?_⟩
  · exact fun f hf => (given_frame hpaged hf).2.2
  · intro f hf
    rw [hmapped.bits f (given_frame hpaged hf).2.1, decide_eq_true hf, Bool.true_or]
  · exact fun f hf => (given_frame hpaged hf).1
  · intro i f hf
    obtain ⟨hi, -⟩ := List.getElem?_eq_some_iff.mp hf
    rw [hlength] at hi
    obtain ⟨hpresent, -, hframe⟩ := hmapped.mapped i f hf
    rw [Nat.zero_add, hpage i hi] at hpresent hframe
    refine ⟨hpresent, fun o ho => ?_⟩
    have hva : (v + 4096 * i + o) / 4096 = v / 4096 + i := by omega
    have hoffset : (v + 4096 * i + o) % 4096 = o := by omega
    rw [← hva] at hpresent hframe
    rw [h.directory] at hpresent hframe ⊢
    rw [present_translation hdir hpresent, hframe, hoffset]
  · rw [h.directory]
    exact hkept
  · intro va hva hout pa hpa
    rw [h.directory, translation_iff hdir hpa, translation_iff hdir hpa]
    unfold pagePresent pageFrame
    rw [hkept _ (by omega) hout]
  · intro f hf hnot
    rw [hmapped.bits f hf, decide_eq_false hnot, Bool.false_or]

/-- In every state that a run of calls reaches which leave the kernel image, a call for an
aligned range that leaves it too and succeeds fulfils its contract. -/
theorem a_successful_map_fulfils_its_contract (image : KernelImage) (ram : Mem)
    (mmap : List MmapEntry) {w : Machine}
    (hboot : translated.init_kernel_memory image ram mmap = .done () w) {calls : List MapCall}
    (hleave : ∀ d ∈ calls, LeavesImage image d) {s t : Machine}
    (hrun : run translated.call_step w calls = some s) {c : MapCall} {v : Nat}
    (hc : LeavesImage image c) (haligned : c.virtual_address.toNat % 4096 = 0)
    (hpos : 1 ≤ c.size.toNat) (hsize : c.size.toNat ≤ 2147483648 - 4096)
    (hcall : translated.map_call s c = .done v t) (hv : v ≠ NULL)
    (hwrap : v + c.size.toNat ≤ 4294967296) :
    (c.virtual_address ≠ 0 → v = c.virtual_address.toNat) ∧
      ∃ frames, Contract s.vmm t.vmm c v frames := by
  obtain ⟨u, hu⟩ := mirrors_reached hboot hleave hrun
  have hdone := machine_succeeded hu hc hcall hv
  refine ⟨fun hexplicit => ?_, _, hdone.contract hu.steady_machine hpos hsize hwrap⟩
  rw [hdone.given hexplicit]
  omega

theorem one_page_fulfils_the_contract : ∃ (w t : Machine),
    translated.init_kernel_memory smallImage (fun _ => 0) (oneRegion 0x300000 0x1000) =
      .done () w ∧
    ∃ frames, Contract w.vmm t.vmm onePage 0xD0000000 frames := by
  obtain ⟨w, -, hboot, -, -, hmap⟩ := small_machine_maps_a_page
  obtain ⟨hleave, t, hcall⟩ := hmap onePage (by decide) rfl (div_up_page (by decide))
  have hrun : run translated.call_step w [] = some w := run_nil _ w
  exact ⟨w, t, hboot, (a_successful_map_fulfils_its_contract smallImage _ _ hboot
    (List.forall_mem_nil _) hrun hleave (by decide) (by decide) (by decide) hcall (by decide)
    (by decide)).2⟩

/-- A call that maps the page of the bitmap anew succeeds, and frame 0 is free after it. -/
theorem a_remapped_bitmap_breaks_the_contract : ∃ (w t : Machine),
    translated.init_kernel_memory smallImage (fun _ => 0) (oneRegion 0x300000 0x1000) =
      .done () w ∧
    translated.map_call w bitmapPage = .done 0xC0204000 t ∧
    ¬ ∃ frames, Contract w.vmm t.vmm bitmapPage 0xC0204000 frames := by
  obtain ⟨w, t, hboot, hcall, hbefore, hafter, -⟩ := small_machine_loses_its_bits
  refine ⟨w, t, hboot, hcall, ?_⟩
  rintro ⟨frames, hcontract⟩
  have hnot : 0 ∉ frames := by
    intro hmem
    have hfree := hcontract.free 0 hmem
    rw [hbefore] at hfree
    cases hfree
  have hsame := hcontract.bits 0 (by decide) hnot
  rw [hbefore, hafter] at hsame
  cases hsame

/-! ## The protection -/

/-- Each page of the range has a table, and the protection that was asked for. -/
def Protected (t : Vmm) (v : Nat) (c : MapCall) : Prop :=
  ∀ i, i * 4096 < c.size.toNat →
    tablePtr t.mm.kheap.mem t.curr_page_directory (rangePage v i / 1024) ≠ 0 ∧
      (field (pageWord t.mm.kheap.mem t.curr_page_directory (rangePage v i)) 2 1 = 0 ↔
        c.is_kernel = true) ∧
      (field (pageWord t.mm.kheap.mem t.curr_page_directory (rangePage v i)) 1 1 = 1 ↔
        c.is_writeable = true)

/-- A size whose pages are counted as none is 0, or all pages of the address space. -/
theorem no_pages {size : Nat} (hsize : size < 4294967296) (h : div_up size PAGE_SIZE = 0) :
    size = 0 ∨ 0xFFFFE002 ≤ size := by
  unfold PAGE_SIZE at h
  by_cases hsmall : size + 4095 < 2147483648
  · rw [div_up_page hsmall] at h
    omega
  · refine Or.inr ?_
    by_contra hlt
    have hsum : sub32 (add32 size 4096) 1 = size + 4095 := by
      rw [add32_eq (by omega), sub32_eq (by omega) (by omega)]
      omega
    unfold div_up toInt ofInt at h
    rw [hsum, if_neg hsmall, if_pos (by decide)] at h
    have hneg : ((size + 4095 : Nat) : Int) - 4294967296 =
        -((4294967296 - (size + 4095) : Nat) : Int) := by
      omega
    rw [hneg, Int.neg_tdiv, Int.tdiv_eq_ediv_of_nonneg (by omega)] at h
    omega

/-- `vmm_map_memory` does not pass the two flags on: the pages are for the kernel, and
writeable, whatever was asked for. -/
theorem Succeeded.protected_iff {s t : Vmm} {c : MapCall} {v : Nat} (h : Succeeded s t c v) :
    Protected t v c ↔ c.size = 0 ∨ c.size.toNat + 4095 < 2147483648 ∧ c.is_kernel = true ∧
      c.is_writeable = true := by
  obtain ⟨grants, hpaged⟩ := h.mapped.paged
  have hzero : c.size = 0 ↔ c.size.toNat = 0 :=
    ⟨fun h => by rw [h]; rfl, fun h => UInt32.toNat_inj.mp h⟩
  have hword : ∀ i, i < div_up c.size.toNat PAGE_SIZE → ∃ w f,
      pageWord t.mm.kheap.mem t.curr_page_directory (rangePage v i) = mapWord w f true true := by
    intro i hi
    obtain ⟨f, hf⟩ := h.frame hi
    obtain ⟨w, hw⟩ := h.mapped.word i f hf
    rw [Nat.zero_add, ← h.directory] at hw
    exact ⟨w, f, hw⟩
  rw [hzero]
  constructor
  · intro hprotected
    rcases h.pages with hnone | ⟨hsmall, hcount⟩
    · -- All pages of the address space would have a table.
      refine Or.inl ((no_pages c.size.toNat_lt hnone).resolve_right fun hlarge => ?_)
      obtain ⟨k, hk, hempty⟩ := hpaged.empty_slot
      rw [← h.directory] at hempty
      have hlt := h.lt
      have htable : ∀ o, o < 1024 →
          ¬ (k * 1024 + o + 0x100000 - v / 4096) % 0x100000 * 4096 < c.size.toNat := by
        intro o ho hi
        have hturn : rangePage v ((k * 1024 + o + 0x100000 - v / 4096) % 0x100000) / 1024 = k := by
          unfold rangePage
          omega
        have hptr := (hprotected _ hi).1
        rw [hturn] at hptr
        exact hptr hempty
      have hfirst := htable 0 (by decide)
      have hsecond := htable 1 (by decide)
      omega
    · rcases Nat.eq_zero_or_pos c.size.toNat with hnone | hpos
      · exact Or.inl hnone
      · obtain ⟨w, f, hw⟩ := hword 0 (by rw [hcount, pagesOf]; omega)
        obtain ⟨-, hkernel, hwriteable⟩ := hprotected 0 (by rwa [Nat.zero_mul])
        rw [hw, mapWord_user_supervisor, if_pos rfl] at hkernel
        rw [hw, mapWord_read_write, if_pos rfl] at hwriteable
        exact Or.inr ⟨hsmall, hkernel.mp rfl, hwriteable.mp rfl⟩
  · rintro (hnone | ⟨hsmall, hkernel, hwriteable⟩) i hi
    · rw [hnone] at hi
      exact absurd hi (Nat.not_lt_zero _)
    · have hturn : i < div_up c.size.toNat PAGE_SIZE := by
        rw [PAGE_SIZE, div_up_page hsmall]
        omega
      obtain ⟨w, f, hw⟩ := hword i hturn
      have hlt := rangePage_lt v i
      rw [hw, mapWord_user_supervisor, mapWord_read_write, if_pos rfl, if_pos rfl]
      refine ⟨?_, iff_of_true rfl hkernel, iff_of_true rfl hwriteable⟩
      rw [h.directory]
      refine (h.mapped.table _ (by omega)).mpr (Or.inr ⟨i, by rwa [h.length], ?_⟩)
      rw [Nat.zero_add]

/-- In every state that a run of calls reaches which leave the kernel image, a call that leaves
it too and succeeds gives its pages the protection that was asked for exactly when that is of
writeable pages of the kernel. -/
theorem only_writeable_kernel_pages_are_installed (image : KernelImage) (ram : Mem)
    (mmap : List MmapEntry) {w : Machine}
    (hboot : translated.init_kernel_memory image ram mmap = .done () w) {calls : List MapCall}
    (hleave : ∀ d ∈ calls, LeavesImage image d) {s t : Machine}
    (hrun : run translated.call_step w calls = some s) {c : MapCall} {v : Nat}
    (hc : LeavesImage image c) (hcall : translated.map_call s c = .done v t) (hv : v ≠ NULL) :
    Protected t.vmm v c ↔ c.size = 0 ∨ c.size.toNat + 4095 < 2147483648 ∧ c.is_kernel = true ∧
      c.is_writeable = true := by
  obtain ⟨u, hu⟩ := mirrors_reached hboot hleave hrun
  exact (machine_succeeded hu hc hcall hv).protected_iff

theorem one_page_is_protected : ∃ (w t : Machine),
    translated.init_kernel_memory smallImage (fun _ => 0) (oneRegion 0x300000 0x1000) =
      .done () w ∧
    Protected t.vmm 0xD0000000 onePage := by
  obtain ⟨w, -, hboot, -, -, hmap⟩ := small_machine_maps_a_page
  obtain ⟨hleave, t, hcall⟩ := hmap onePage (by decide) rfl (div_up_page (by decide))
  have hrun : run translated.call_step w [] = some w := run_nil _ w
  exact ⟨w, t, hboot, (only_writeable_kernel_pages_are_installed smallImage _ _ hboot
    (List.forall_mem_nil _) hrun hleave hcall (by decide)).mpr (Or.inr (by decide))⟩

/-- A page that was asked for as read-only is writeable. -/
theorem a_read_only_page_is_writeable : ∃ (w t : Machine) (v : Nat),
    translated.init_kernel_memory smallImage (fun _ => 0) (oneRegion 0x300000 0x1000) =
      .done () w ∧
    translated.map_call w ⟨0xD0000000, 0, 4096, true, false⟩ = .done v t ∧ v ≠ NULL ∧
    ¬ Protected t.vmm v ⟨0xD0000000, 0, 4096, true, false⟩ := by
  obtain ⟨w, u, hboot, hu, -, hmap⟩ := small_machine_maps_a_page
  obtain ⟨hleave, t, hcall⟩ := hmap ⟨0xD0000000, 0, 4096, true, false⟩ (by decide) rfl
    (div_up_page (by decide))
  refine ⟨w, t, _, hboot, hcall, by decide, ?_⟩
  rw [(machine_succeeded hu hleave hcall (by decide)).protected_iff]
  decide

/-! ## The bytes that are left out -/

/-- Every byte of the range that was asked for lies on a page that is present. -/
def EveryByteMapped (t : Vmm) (c : MapCall) : Prop :=
  ∀ a, c.virtual_address.toNat ≤ a → a < c.virtual_address.toNat + c.size.toNat →
    pagePresent t.mm.kheap.mem t.curr_page_directory (a / 4096)

/-- The start is rounded down, and the pages are counted from the size alone: a range that
runs over its pages has its last bytes on a page that the call does not map. -/
theorem Succeeded.every_byte_iff {s t : Vmm} {c : MapCall} {v : Nat} (h : Succeeded s t c v)
    (hva : c.virtual_address ≠ 0) (hpos : 1 ≤ c.size.toNat)
    (hsize : c.size.toNat ≤ 2147483648 - 4096)
    (hwrap : c.virtual_address.toNat + c.size.toNat ≤ 4294967296) :
    EveryByteMapped t c ↔
      c.virtual_address.toNat % 4096 + c.size.toNat ≤ pagesOf c.size.toNat * 4096 ∨
        pagePresent s.mm.kheap.mem s.curr_page_directory
          (c.virtual_address.toNat / 4096 + pagesOf c.size.toNat) := by
  have hgiven := h.given hva
  have hcount := h.count hpos hsize
  have hbound : pagesOf c.size.toNat * 4096 < c.size.toNat + 4096 ∧
      c.size.toNat ≤ pagesOf c.size.toNat * 4096 := by
    unfold pagesOf
    omega
  -- The pages of the range are present.
  have hinside : ∀ i, i < pagesOf c.size.toNat → c.virtual_address.toNat / 4096 + i < 0x100000 →
      pagePresent t.mm.kheap.mem t.curr_page_directory (c.virtual_address.toNat / 4096 + i) := by
    intro i hi hlt
    obtain ⟨f, hf⟩ := h.frame (hcount.symm ▸ hi)
    have hpresent := (h.mapped.mapped i f hf).1
    rw [Nat.zero_add, rangePage_eq (by omega), hgiven, Nat.mul_div_cancel _ (by decide)] at hpresent
    rw [h.directory]
    exact hpresent
  -- The page behind them is as before.
  have hbehind : c.virtual_address.toNat / 4096 + pagesOf c.size.toNat < 0x100000 →
      (pagePresent t.mm.kheap.mem t.curr_page_directory
          (c.virtual_address.toNat / 4096 + pagesOf c.size.toNat) ↔
        pagePresent s.mm.kheap.mem s.curr_page_directory
          (c.virtual_address.toNat / 4096 + pagesOf c.size.toNat)) := by
    intro hlt
    unfold pagePresent
    rw [h.directory, h.other hlt ?_]
    intro i hi
    rw [hcount] at hi
    rw [rangePage_eq (by omega), hgiven, Nat.mul_div_cancel _ (by decide)]
    omega
  constructor
  · intro hall
    by_cases hfits : c.virtual_address.toNat % 4096 + c.size.toNat ≤ pagesOf c.size.toNat * 4096
    · exact Or.inl hfits
    · have hlast := hall ((c.virtual_address.toNat / 4096 + pagesOf c.size.toNat) * 4096)
        (by omega) (by omega)
      rw [Nat.mul_div_cancel _ (by decide)] at hlast
      exact Or.inr ((hbehind (by omega)).mp hlast)
  · intro hfits a hlow hhigh
    have hpage : a / 4096 = c.virtual_address.toNat / 4096 +
        (a / 4096 - c.virtual_address.toNat / 4096) := by
      omega
    by_cases hin : a / 4096 - c.virtual_address.toNat / 4096 < pagesOf c.size.toNat
    · rw [hpage]
      exact hinside _ hin (by omega)
    · have hend : a / 4096 = c.virtual_address.toNat / 4096 + pagesOf c.size.toNat := by
        omega
      rcases hfits with hle | hpresent
      · omega
      · rw [hend]
        exact (hbehind (by omega)).mpr hpresent

/-- In every state that a run of calls reaches which leave the kernel image, a call that leaves
it too and succeeds maps every byte of its range exactly when the range does not run over its
pages, or the page behind was present. -/
theorem every_byte_is_mapped_within_the_counted_pages (image : KernelImage) (ram : Mem)
    (mmap : List MmapEntry) {w : Machine}
    (hboot : translated.init_kernel_memory image ram mmap = .done () w) {calls : List MapCall}
    (hleave : ∀ d ∈ calls, LeavesImage image d) {s t : Machine}
    (hrun : run translated.call_step w calls = some s) {c : MapCall} {v : Nat}
    (hc : LeavesImage image c) (hva : c.virtual_address ≠ 0) (hpos : 1 ≤ c.size.toNat)
    (hsize : c.size.toNat ≤ 2147483648 - 4096)
    (hwrap : c.virtual_address.toNat + c.size.toNat ≤ 4294967296)
    (hcall : translated.map_call s c = .done v t) (hv : v ≠ NULL) :
    EveryByteMapped t.vmm c ↔
      c.virtual_address.toNat % 4096 + c.size.toNat ≤ pagesOf c.size.toNat * 4096 ∨
        pagePresent s.vmm.mm.kheap.mem s.vmm.curr_page_directory
          (c.virtual_address.toNat / 4096 + pagesOf c.size.toNat) := by
  obtain ⟨u, hu⟩ := mirrors_reached hboot hleave hrun
  exact (machine_succeeded hu hc hcall hv).every_byte_iff hva hpos hsize hwrap

theorem every_byte_of_one_page_is_mapped : ∃ (w t : Machine),
    translated.init_kernel_memory smallImage (fun _ => 0) (oneRegion 0x300000 0x1000) =
      .done () w ∧
    EveryByteMapped t.vmm onePage := by
  obtain ⟨w, -, hboot, -, -, hmap⟩ := small_machine_maps_a_page
  obtain ⟨hleave, t, hcall⟩ := hmap onePage (by decide) rfl (div_up_page (by decide))
  have hrun : run translated.call_step w [] = some w := run_nil _ w
  exact ⟨w, t, hboot, (every_byte_is_mapped_within_the_counted_pages smallImage _ _ hboot
    (List.forall_mem_nil _) hrun hleave (by decide) (by decide) (by decide) (by decide) hcall
    (by decide)).mpr (Or.inl (by decide))⟩

/-- The second half of a page that starts in the middle of one is not mapped. -/
theorem the_last_bytes_are_not_mapped : ∃ (w t : Machine) (v : Nat),
    translated.init_kernel_memory smallImage (fun _ => 0) (oneRegion 0x300000 0x1000) =
      .done () w ∧
    translated.map_call w ⟨0xD0000800, 0, 4096, true, true⟩ = .done v t ∧ v ≠ NULL ∧
    ¬ EveryByteMapped t.vmm ⟨0xD0000800, 0, 4096, true, true⟩ := by
  obtain ⟨w, u, hboot, hu, hlinear, hmap⟩ := small_machine_maps_a_page
  obtain ⟨hleave, t, hcall⟩ := hmap ⟨0xD0000800, 0, 4096, true, true⟩ (by decide) rfl
    (div_up_page (by decide))
  refine ⟨w, t, _, hboot, hcall, by decide, ?_⟩
  rw [(machine_succeeded hu hleave hcall (by decide)).every_byte_iff (by decide) (by decide)
    (by decide) (by decide)]
  rintro (hle | hpresent)
  · revert hle
    decide
  · have hpage : (0xD0000800 : UInt32).toNat / 4096 + pagesOf (4096 : UInt32).toNat = 0xD0001 := by
      decide
    unfold pagePresent at hpresent
    simp only at hpresent
    rw [hpage, hu.directory, hu.alike.tables.page _ (by decide),
      hlinear.empty _ (by decide) (by decide), field_zero] at hpresent
    cases hpresent

end sakana_os
