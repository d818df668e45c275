-- `kheap_init` on the memory that the boot has set up: where the heap comes to lie, and that what
-- its clients hold has memory of its own, whatever they do with it.
import SakanaOS.FreeRanges
import SakanaOS.MapContract
import SakanaOS.OwnedBlocks
import SakanaOS.PageWalks

open byte_memory bitmaps bit_fields block_tiling frame_maps runs

namespace sakana_os

/-! ## The code -/

def Vmm.setKheap (s : Vmm) (k : Kheap) : Vmm := { s with mm := { s.mm with kheap := k } }

/-- `kheap_init`, up to its message. -/
def kheap_init (s : Vmm) : Outcome Vmm Unit :=
  (vmm_map_memory s NULL NULL KHEAP_HEAP_SIZE true true).andThen fun kheap_base s =>
    (kheap_init_at s.mm.kheap kheap_base).lift s.setKheap

/-- The call for the range of the heap. -/
def heapCall : MapCall := ⟨0, 0, 0x02000000, true, true⟩

/-- The pages of the heap. -/
def HEAP_PAGES : Nat := 0x2000

theorem heap_call_eq (s : Vmm) :
    map_call s heapCall = vmm_map_memory s NULL NULL KHEAP_HEAP_SIZE true true := rfl

theorem heap_pages : div_up heapCall.size.toNat PAGE_SIZE = HEAP_PAGES := by
  have hsize : heapCall.size.toNat = 0x02000000 := rfl
  rw [hsize, PAGE_SIZE, div_up_page (by decide)]
  decide

theorem kheap_init_done {w s : Vmm} (h : kheap_init w = .done () s) :
    ∃ base t k, map_call w heapCall = .done base t ∧ base ≠ NULL ∧
      kheap_init_at t.mm.kheap base = .done () k ∧ s = t.setKheap k := by
  obtain ⟨base, t, hmap, hrest⟩ := Outcome.andThen_eq_done.mp h
  obtain ⟨k, hinit, rfl⟩ := Outcome.lift_eq_done.mp hrest
  refine ⟨base, t, k, hmap, ?_, hinit, rfl⟩
  rintro rfl
  unfold kheap_init_at at hinit
  rw [if_pos rfl] at hinit
  cases hinit

/-! ## The place of the heap -/

section

variable {w : Vmm} {n : Nat}

/-- The range behind the linear mapping is free. -/
theorem free_behind (hlinear : Linear w.mm w.curr_page_directory n)
    (hdir : w.curr_page_directory ≠ NULL)
    (htop : 0xC0000000 + n * 4096 + KHEAP_HEAP_SIZE ≤ 4294967296) :
    FreeRange w.mm.kheap.mem w.curr_page_directory KHEAP_HEAP_SIZE true
      (0xC0000000 + n * 4096) := by
  have hbase : spaceBase true = 0xC0000000 := rfl
  have hend : spaceEnd true = 0xFFFFFFFF := rfl
  unfold KHEAP_HEAP_SIZE at *
  refine ⟨by unfold PAGE_SIZE; omega, by rw [hbase]; omega, fun k hk => ?_⟩
  unfold PAGE_SIZE at *
  refine ⟨by rw [hend]; omega, ?_⟩
  rw [← Bool.not_eq_true, is_page_used_iff _ hdir]
  have hpage : KERNEL_PAGE + n ≤ (0xC0000000 + n * 4096 + k * 4096) / 4096 := by
    unfold KERNEL_PAGE
    omega
  unfold pageUsed
  rw [hlinear.empty _ (by omega) (Or.inr hpage), field_zero]
  decide

/-- The heap comes to lie behind the linear mapping: no page before is free. -/
theorem heap_range (hlinear : Linear w.mm w.curr_page_directory n)
    (hdir : w.curr_page_directory ≠ NULL)
    (htop : 0xC0000000 + n * 4096 + KHEAP_HEAP_SIZE ≤ 4294967296) :
    vmm_find_free_memory w.curr_page_directory w.mm.kheap.mem KHEAP_HEAP_SIZE true =
      some (0xC0000000 + n * 4096) := by
  have hfree := free_behind hlinear hdir htop
  obtain ⟨r, hfind, hsome, hnone⟩ :=
    (kernel_search (by decide) (by decide)).mpr (Or.inl ⟨_, hfree⟩)
  have hne : r ≠ NULL := fun hnull => hnone hnull _ hfree
  obtain ⟨hr, hfirst⟩ := hsome hne
  have hle := hfirst _ hfree
  have hlow := hr.low
  have haligned := hr.aligned
  have hbase : spaceBase true = 0xC0000000 := rfl
  unfold PAGE_SIZE at haligned
  by_cases hlt : r < 0xC0000000 + n * 4096
  · have hunused := (hr.free 0 (by decide)).2
    have hpage : r / 4096 = KERNEL_PAGE + (r / 4096 - KERNEL_PAGE) := by
      unfold KERNEL_PAGE
      omega
    have hused := (hlinear.mapped (r / 4096 - KERNEL_PAGE) (by
      unfold KERNEL_PAGE
      omega)).2.1
    rw [Nat.zero_mul, Nat.add_zero] at hunused
    rw [← hpage, ← is_page_used_iff _ hdir, hunused] at hused
    cases hused
  · rw [hfind]
    congr 1
    omega

end

/-! ## What the clients leave -/

theorem Took.outside {k k' : Kheap} {l r : List Block} {b : Block} {size : Nat} {init : Bool}
    (h : Took k k' l b r size init) (hshape : Shape k (l ++ b :: r)) (hfit : size ≤ b.size) :
    SameOutside k k' := by
  refine ⟨h.place, fun x hx => ?_⟩
  have hin := hshape.inHeap (show b ∈ l ++ b :: r by simp)
  have hlo := hin.lo
  have hhi := hin.hi
  have hstop := (taken_fits SIZEOF_HEAD hfit).2
  have haddr : (taken SIZEOF_HEAD size b).addr = b.addr := rfl
  unfold Block.stop SIZEOF_HEAD at hstop
  unfold SIZEOF_HEAD at haddr
  rw [h.mem x (h.shape.outside (by rwa [h.place.base])), if_neg]
  rintro ⟨-, h1, h2⟩
  unfold SIZEOF_HEAD at h2
  unfold KHEAP_HEAP_SIZE at hx
  omega

theorem Freed.outside {k k' : Kheap} {l r : List Block} {b : Block} (h : Freed k k' l b r)
    (hshape : Shape k (l ++ b :: r)) : SameOutside k k' :=
  ⟨h.place, fun x hx => h.mem x (hshape.outside hx)⟩

theorem Wrote.outside {k k' : Kheap} {bs : List Block} {b : Block} (h : Wrote k k' b)
    (hshape : Shape k bs) (hb : b ∈ bs) : SameOutside k k' := by
  refine ⟨h.place, fun x hx => h.mem x ?_⟩
  have hin := hshape.inHeap hb
  have hlo := hin.lo
  have hhi := hin.hi
  unfold KHEAP_HEAP_SIZE at hx
  omega

/-- A call of a client changes nothing outside the heap. -/
theorem Did.outside {c c' : Clients} {bs bs' : List Block} {call : HeapCall}
    (hdid : Did c bs call c' bs') (h : HeapInvariant c bs) : SameOutside c.heap c'.heap := by
  cases hdid with
  | nothing _ => exact SameOutside.refl _
  | took _ hbs _ _ hfit htook =>
    subst hbs
    exact htook.outside h.shape hfit
  | freed _ hbs _ hfree =>
    subst hbs
    exact hfree.outside h.shape
  | @moved _ ptr l r l' r' b d t u s size init _ _ _ _ hbs _ _ hfit htook _ hwrote hsplit hfree =>
    subst hbs
    have hmem : taken SIZEOF_HEAD size d ∈ l ++ (carve SIZEOF_HEAD size d ++ r) := by
      simp [taken_mem]
    have hshape := hwrote.shape htook.shape hmem
    rw [hsplit] at hshape
    have hcopied := (htook.outside h.shape hfit).trans (hwrote.outside htook.shape hmem)
    exact hcopied.trans (hfree.outside hshape)
  | stored hptr hb _ hin hs =>
    subst hptr hs
    exact (wrote_store c.heap hin).outside h.shape hb

theorem run_outside {c c' : Clients} {calls : List HeapCall} (h : ∃ bs, HeapInvariant c bs)
    (hrun : run client_step c calls = some c') :
    (∃ bs, HeapInvariant c' bs) ∧ SameOutside c.heap c'.heap := by
  refine run_keeps (motive := fun d => (∃ bs, HeapInvariant d bs) ∧ SameOutside c.heap d.heap) ?_
    ⟨h, SameOutside.refl _⟩ hrun
  rintro d call d' ⟨⟨bs, hinv⟩, hout⟩ hstep
  obtain ⟨bs', hdid⟩ := step_cases hinv hstep
  exact ⟨⟨bs', hdid.invariant hinv⟩, hout.trans (hdid.outside hinv)⟩

/-- The tables and the bitmap lie in the placement area, and do not depend on other bytes. -/
theorem Paged.area {s : Mm} {dir : Nat} {grants : List Grant} (h : Paged s dir grants) {k : Kheap}
    (hk : ∀ x, x < s.kheap.kheap_placement_memory + KHEAP_PLACEMENT_SIZE →
      k.mem x = s.kheap.mem x) :
    SameTables s.kheap.mem k.mem dir ∧
      ∀ f, f < 0x100000 → pmm_test_frame { s with kheap := k } f = pmm_test_frame s f := by
  have hsame : ∀ g ∈ grants, SameOn s.kheap.mem k.mem g.ptr g.size := by
    intro g hg x _ h2
    have hin := (h.bumped.inside g hg).2
    exact hk x (Nat.lt_of_lt_of_le h2 hin)
  refine ⟨sameTables_of (hsame _ h.directory) fun i hi htable => hsame _ (h.table i hi htable), ?_⟩
  intro f hf
  unfold pmm_test_frame PMM_FRAMES_PER_BITMAP_BYTE
  dsimp only
  rw [hsame _ h.bitmap (s.pmm.bitmap + f / 8) (Nat.le_add_right _ _) (by dsimp only; omega)]

/-! ## The memory of the heap -/

/-- The byte of memory that an address leads to. -/
def Vmm.byteOf (s : Vmm) (va : Nat) : Option Nat :=
  vmm_virtual_to_physical_address s.mm.kheap.mem s.curr_page_directory va

/-- What an address leads to is read off the tables, whatever else the clients have written. -/
theorem Vmm.byteOf_iff {t : Vmm} {k : Kheap} (hdir : t.curr_page_directory ≠ NULL)
    (hsame : SameTables t.mm.kheap.mem k.mem t.curr_page_directory) {va pa : Nat}
    (hva : va < 4294967296) (hpa : pa ≠ NULL) : (t.setKheap k).byteOf va = some pa ↔
      pagePresent t.mm.kheap.mem t.curr_page_directory (va / 4096) ∧
        pageFrame t.mm.kheap.mem t.curr_page_directory (va / 4096) * 4096 + va % 4096 = pa := by
  have hiff : vmm_virtual_to_physical_address k.mem t.curr_page_directory va = some pa ↔ _ :=
    translation_iff hdir hpa
  unfold pagePresent pageFrame at hiff ⊢
  rw [hsame.page _ (by omega)] at hiff
  exact hiff

/-- The address leads to a byte in a frame that was free after the boot and is reserved now,
and no other address leads there. -/
structure OwnByte (w t : Vmm) (va pa : Nat) : Prop where
  leads : t.byteOf va = some pa
  was_free : pmm_test_frame w.mm (pa / 4096) = false
  reserved : pmm_test_frame t.mm (pa / 4096) = true
  alone : ∀ va', va' < 4294967296 → t.byteOf va' = some pa → va' = va

section

variable {image : KernelImage} {m : Mem} {mmap : List MmapEntry} {w t : Vmm} {base : Nat}

/-- The linear mapping covers the image. -/
theorem KernelImage.end_le (image : KernelImage) :
    image.kernel_virtual_end ≤ 0xC0000000 + image.pages * 4096 := by
  have h1 := image.start_le
  have h2 := image.stop_le
  have h3 := image.end_lt
  unfold KernelImage.pages bootPages
  rw [imagePages_eq (by omega) h3]
  unfold kernel_virtual_start at *
  omega

theorem heap_base_eq (hboot : init_kernel_memory image m mmap = .done () w)
    (htop : 0xC0000000 + image.pages * 4096 + KHEAP_HEAP_SIZE ≤ 4294967296)
    (hmap : map_call w heapCall = .done base t) (hbase : base ≠ NULL) :
    base = 0xC0000000 + image.pages * 4096 := by
  obtain ⟨v, -, -, hbooted⟩ := boot_spec hboot
  have hsteady := steady_boot hboot
  obtain ⟨grants, hpaged⟩ := hsteady.paged
  have hfind := heap_range hbooted.part.linear hpaged.dir_ne htop
  rw [heap_call_eq] at hmap
  rcases map_memory_done hmap with ⟨hnull, -⟩ | ⟨va, pa, mm, -, -, hsearch, -, -, hrange, -⟩
  · exact absurd hnull hbase
  · have hva := hsearch rfl
    rw [hfind, Option.some.injEq] at hva
    subst hva
    have hpages : bootPages image.kernel_virtual_end = image.pages := rfl
    have hle := image.pages_le
    unfold KHEAP_HEAP_SIZE at htop
    obtain ⟨-, u, -, -, ⟨-, hret, -⟩ | ⟨-, hnull, -⟩⟩ :=
      map_range_done hpaged hsteady.zero (by omega) (by decide) hrange
    · omega
    · exact absurd hnull hbase

/-- The call for the range of the heap leaves the walks in order, and no frame shared. -/
theorem heap_call_keeps (hboot : init_kernel_memory image m mmap = .done () w)
    (hmap : map_call w heapCall = .done base t) (hbase : base ≠ NULL) :
    Succeeded w t heapCall base ∧ WalkKept image t.mm t.curr_page_directory ∧
      NoFrameShared t image.pages := by
  have hsteady := steady_boot hboot
  have havoid : AvoidsImage image heapCall := fun hexplicit => absurd rfl hexplicit
  have hstep : call_step w heapCall = some t := call_step_eq.mpr ⟨base, hmap⟩
  obtain ⟨hwalk, -, -⟩ := walk_call hsteady (walks_boot hboot).kept havoid hstep
  have hmapped : map_step w heapCall = some t := by
    unfold map_step
    rw [hmap]
    exact if_neg hbase
  obtain ⟨v, -, -, hbooted⟩ := boot_spec hboot
  exact ⟨call_succeeded hsteady hmap hbase, hwalk,
    (unshared_step (unshared_boot hbooted.part image.pages_le) hmapped).noFrameShared⟩

/-- The pages of the range have frames of their own, which were free. -/
theorem Succeeded.own_byte (h : Succeeded w t heapCall base) (hsteady : Steady w)
    (hshared : NoFrameShared t image.pages) {k : Kheap}
    (hk : SameTables t.mm.kheap.mem k.mem t.curr_page_directory ∧
      ∀ f, f < 0x100000 → pmm_test_frame { t.mm with kheap := k } f = pmm_test_frame t.mm f)
    {x : Nat} (h1 : base ≤ x) (h2 : x < base + KHEAP_HEAP_SIZE)
    (htop : base + KHEAP_HEAP_SIZE ≤ 4294967296) : ∃ pa, OwnByte w (t.setKheap k) x pa := by
  obtain ⟨grants, hpaged⟩ := hsteady.paged
  obtain ⟨hsame, hbits⟩ := hk
  have haligned := h.aligned
  have hdir := h.directory
  unfold KHEAP_HEAP_SIZE at *
  have hturn : (x - base) / 4096 < div_up heapCall.size.toNat PAGE_SIZE := by
    rw [heap_pages]
    unfold HEAP_PAGES
    omega
  obtain ⟨f, hf⟩ := h.frame hturn
  obtain ⟨hpresent, -, hframe⟩ := h.mapped.mapped _ f hf
  have hpage : rangePage base (0 + (x - base) / 4096) = x / 4096 := by
    unfold rangePage
    omega
  rw [hpage, ← hdir] at hpresent hframe
  obtain ⟨-, hlt, hbit⟩ := given_frame hpaged (List.mem_of_getElem? hf)
  have hne : f ≠ 0 := by
    rintro rfl
    rw [hsteady.zero] at hbit
    cases hbit
  have hdirne : t.curr_page_directory ≠ NULL := by
    rw [hdir]
    exact hpaged.dir_ne
  have hdiv : (f * 4096 + x % 4096) / 4096 = f := by omega
  have hreserved := hshared.reserved (x / 4096) (by omega) hpresent
  rw [hframe] at hreserved
  have hpa : f * 4096 + x % 4096 ≠ NULL := by
    unfold NULL
    omega
  refine ⟨f * 4096 + x % 4096,
    (Vmm.byteOf_iff hdirne hsame (by omega) hpa).mpr ⟨hpresent, by rw [hframe]⟩, ?_, ?_, ?_⟩
  · rw [hdiv]
    exact hbit
  · rw [hdiv]
    exact (hbits f (by omega)).trans hreserved
  · intro va' hva' hleads'
    obtain ⟨hpresent', hframe'⟩ := (Vmm.byteOf_iff hdirne hsame hva' hpa).mp hleads'
    have hsameFrame : pageFrame t.mm.kheap.mem t.curr_page_directory (va' / 4096) = f := by omega
    have hsamePage := hshared.apart (va' / 4096) (x / 4096) (by omega) (by omega) hpresent'
      hpresent (hsameFrame.trans hframe.symm)
    omega

/-- What the addresses outside of the range lead to stays. -/
theorem Succeeded.byte_outside (h : Succeeded w t heapCall base) (hsteady : Steady w) {k : Kheap}
    (hsame : SameTables t.mm.kheap.mem k.mem t.curr_page_directory) {va : Nat}
    (hva : va < 4294967296) (hout : va < base ∨ base + KHEAP_HEAP_SIZE ≤ va)
    (htop : base + KHEAP_HEAP_SIZE ≤ 4294967296) {pa : Nat} (hpa : pa ≠ NULL) :
    (t.setKheap k).byteOf va = some pa ↔ w.byteOf va = some pa := by
  obtain ⟨grants, hpaged⟩ := hsteady.paged
  have hdir := h.directory
  have haligned := h.aligned
  have hword : pageWord t.mm.kheap.mem w.curr_page_directory (va / 4096) =
      pageWord w.mm.kheap.mem w.curr_page_directory (va / 4096) := by
    apply h.other (by omega)
    intro i hi
    rw [heap_pages] at hi
    unfold HEAP_PAGES at hi
    unfold KHEAP_HEAP_SIZE at *
    unfold rangePage
    omega
  have hdirne : t.curr_page_directory ≠ NULL := by
    rw [hdir]
    exact hpaged.dir_ne
  rw [Vmm.byteOf_iff hdirne hsame hva hpa, hdir]
  unfold Vmm.byteOf
  rw [translation_iff hpaged.dir_ne hpa]
  unfold pagePresent pageFrame
  rw [hword]

/-- What the boot and `kheap_init` leave: one free block behind the image, and all memory below
it as the call for the range has left it. -/
structure HeapStarted (image : KernelImage) (w t s : Vmm) (base : Nat) : Prop where
  called : map_call w heapCall = .done base t
  base_ne : base ≠ NULL
  place : base = 0xC0000000 + image.pages * 4096
  low : t.mm.kheap.kheap_placement_memory + KHEAP_PLACEMENT_SIZE ≤ base
  state : s = t.setKheap s.mm.kheap
  base_eq : s.mm.kheap.kheap_base = base
  below : ∀ x, x < base → s.mm.kheap.mem x = t.mm.kheap.mem x
  start : ∃ bs, HeapInvariant ⟨s.mm.kheap, []⟩ bs

theorem heap_started {s : Vmm} (hboot : init_kernel_memory image m mmap = .done () w)
    (hinit : kheap_init w = .done () s)
    (htop : 0xC0000000 + image.pages * 4096 + 2 * KHEAP_HEAP_SIZE + 400 < 4294967296) :
    ∃ base t, HeapStarted image w t s base := by
  obtain ⟨base, t, k, hmap, hbase, hstart, rfl⟩ := kheap_init_done hinit
  have hplace := heap_base_eq hboot (by omega) hmap hbase
  obtain ⟨-, hwalk, -⟩ := heap_call_keeps hboot hmap hbase
  have hend := image.end_le
  have hstop := image.stop_le
  have hlow : t.mm.kheap.kheap_placement_memory + KHEAP_PLACEMENT_SIZE ≤ base := by
    rw [hwalk.start]
    omega
  have hhigh : base + 2 * KHEAP_HEAP_SIZE + 400 < 4294967296 := by omega
  obtain ⟨k', hk', hkbase, -, -, -, hframe⟩ := kheap_init_at_spec hlow hhigh
  rw [hstart] at hk'
  cases hk'
  obtain ⟨hinv, -⟩ := start_invariant hlow hhigh hstart
  exact ⟨base, t, hmap, hbase, hplace, hlow, rfl, hkbase, fun x hx => hframe x (Or.inl hx),
    _, hinv⟩

/-- From the boot on, in every run of the heap's clients: the heap lies right behind the kernel
image, its blocks tile it, every byte of it has memory of its own, in a frame that the boot had
left free, and every other address leads where it did. -/
theorem the_heap_has_memory_of_its_own (image : KernelImage) (m : Mem) (mmap : List MmapEntry)
    {w s : Vmm} (hboot : init_kernel_memory image m mmap = .done () w)
    (hinit : kheap_init w = .done () s)
    (htop : 0xC0000000 + image.pages * 4096 + 2 * KHEAP_HEAP_SIZE + 400 < 4294967296)
    {calls : List HeapCall} {c : Clients}
    (hrun : run client_step ⟨s.mm.kheap, []⟩ calls = some c) :
    c.heap.kheap_base = 0xC0000000 + image.pages * 4096 ∧
      HeapInvariant c (heap_blocks c.heap) ∧
      (∀ x, c.heap.kheap_base ≤ x → x < c.heap.kheap_base + KHEAP_HEAP_SIZE →
        ∃ pa, OwnByte w (s.setKheap c.heap) x pa) ∧
      ∀ va, va < 4294967296 →
        va < c.heap.kheap_base ∨ c.heap.kheap_base + KHEAP_HEAP_SIZE ≤ va →
        ∀ pa, pa ≠ NULL → ((s.setKheap c.heap).byteOf va = some pa ↔ w.byteOf va = some pa) := by
  have hsteady := steady_boot hboot
  obtain ⟨base, t, hstarted⟩ := heap_started hboot hinit htop
  have hplace := hstarted.place
  obtain ⟨hsucceeded, hwalk, hshared⟩ := heap_call_keeps hboot hstarted.called hstarted.base_ne
  obtain ⟨⟨bs, hinv⟩, hout⟩ := run_outside hstarted.start hrun
  have hcbase : c.heap.kheap_base = base := hout.place.base.trans hstarted.base_eq
  obtain ⟨grants, hpaged⟩ := hwalk.paged
  have harea := hpaged.area (k := c.heap) fun x hx => by
    have hbelow : x < base := Nat.lt_of_lt_of_le hx hstarted.low
    have hkept := hout.mem x (Or.inl (by rw [hstarted.base_eq]; exact hbelow))
    exact hkept.trans (hstarted.below x hbelow)
  have hstate : s.setKheap c.heap = t.setKheap c.heap := by
    rw [hstarted.state]
    rfl
  rw [hcbase, hstate]
  refine ⟨hplace, by rw [hinv.shape.blocks]; exact hinv, ?_, ?_⟩
  · intro x h1 h2
    exact hsucceeded.own_byte hsteady hshared harea h1 h2 (by omega)
  · intro va hva hva' pa hpa
    exact hsucceeded.byte_outside hsteady harea.1 hva hva' (by omega) hpa

end

/-! ## When the heap comes to be -/

/-- There is room for the tables of the pages from `page` to `last`: for each slot that they
touch, but the first when it has a table. -/
def TableRoom (s : Mm) (dir page last : Nat) : Prop :=
  tablePtr s.kheap.mem dir (page / 1024) ≠ 0 ∧
      8192 * (last / 1024 - page / 1024) ≤ s.kheap.kheap_placement_memory_free_memory ∨
    8192 * (last / 1024 + 1 - page / 1024) ≤ s.kheap.kheap_placement_memory_free_memory

section

variable {image : KernelImage} {s : Mm} {dir last : Nat}

/-- A page that is mapped leaves the room for the pages behind it. -/
theorem TableRoom.next {t : Mm} {page va pa : Nat} {grants : List Grant}
    (h : TableRoom s dir page last) (hva : va / 4096 = page) (hlast : page < last)
    (hmapped : Mapped s t dir dir va pa true true grants) : TableRoom t dir (page + 1) last := by
  have htable := hmapped.table
  have hold := hmapped.room_old
  have hroom := hmapped.room
  rw [hva] at htable hold
  unfold TableRoom at *
  have hleft : 8192 * (last / 1024 - page / 1024) ≤
      t.kheap.kheap_placement_memory_free_memory := by
    rcases h with ⟨hthere, hneed⟩ | hneed
    · rw [hold hthere]
      exact hneed
    · omega
  by_cases hsame : (page + 1) / 1024 = page / 1024
  · rw [hsame]
    exact Or.inl ⟨htable, hleft⟩
  · right
    omega

/-- The loop returns when there is room for the tables, and the pages are none of the image's. -/
theorem map_pages_returns {va pa : Nat} (hva : va % 4096 = 0) (turns : Nat) {i : Nat}
    (h : WalkKept image s dir) (hlast : va / 4096 + i + turns ≤ last) (htop : last ≤ 0x100000)
    (hout : ∀ page, va / 4096 ≤ page → ¬ InImage image page)
    (hroom : TableRoom s dir (va / 4096 + i) last) :
    ∃ mapped t, vmm_map_pages dir va pa turns i s = .done mapped t := by
  induction turns generalizing i s with
  | zero => exact ⟨true, s, rfl⟩
  | succ turns ih =>
    rw [vmm_map_pages]
    by_cases hnone : pmm_find_free_frame_from s pa = NULL
    · exact ⟨false, s, by simp only [hnone, if_true]⟩
    · simp only [hnone, if_false]
      obtain ⟨grants, hpaged⟩ := h.paged
      obtain ⟨f, hfound, hlt, -, -⟩ := found_frame hpaged.frames hnone
      unfold TOP_FRAME at hlt
      have hpa : pmm_find_free_frame_from s pa < 4294967296 := by
        rw [hfound]
        omega
      have hpage : add32 va (mul32 i PAGE_SIZE) / 4096 = va / 4096 + i := by
        rw [(range_address hva i).1]
        exact rangePage_eq (by omega)
      rcases map_page_cases hpaged dir (pmm_find_free_frame_from s pa) true true
          (add32_lt va (mul32 i PAGE_SIZE)) (Or.inr rfl) with
        ⟨-, hempty, hfull⟩ | ⟨_, table, -, harea, hnone⟩ | ⟨u, hmap, -⟩
      · rw [hpage] at hempty
        rcases hroom with ⟨hthere, -⟩ | hneed
        · exact absurd hempty hthere
        · omega
      · have hlinear := h.translate harea (show 0 < 4096 by decide)
        rw [Nat.add_zero, hnone] at hlinear
        cases hlinear
      · rw [hmap]
        obtain ⟨hmapped, -, -⟩ :=
          map_and_reserve hpaged dir (add32_lt _ _) hpa (Or.inr rfl) hmap
        have hkept := h.mapped (by rw [hpage]; exact hout _ (Nat.le_add_right _ _)) hmapped
        exact ih (i := i + 1) hkept (by omega) (hroom.next hpage (by omega) hmapped)

end

section

variable {image : KernelImage} {m : Mem} {mmap : List MmapEntry} {w : Vmm}

/-- The range of the heap touches nine slots. -/
def HEAP_TABLES : Nat := 9 * 8192

theorem heap_call_returns (hboot : init_kernel_memory image m mmap = .done () w)
    (htop : 0xC0000000 + image.pages * 4096 + KHEAP_HEAP_SIZE ≤ 4294967296)
    (hroom : HEAP_TABLES ≤ w.mm.kheap.kheap_placement_memory_free_memory)
    (henough : HEAP_PAGES ≤ (freeFrames w.mm 0).length) :
    ∃ base t, map_call w heapCall = .done base t ∧ base ≠ NULL := by
  obtain ⟨v, -, -, hbooted⟩ := boot_spec hboot
  have hsteady := steady_boot hboot
  obtain ⟨grants, hpaged⟩ := hsteady.paged
  have hfind := heap_range hbooted.part.linear hpaged.dir_ne htop
  change vmm_find_free_memory _ _ _ _ = some (0xC0000000 + image.pages * 4096) at hfind
  have hend := image.end_le
  generalize hbase : 0xC0000000 + image.pages * 4096 = base at hfind hend htop
  have haligned : base % 4096 = 0 := by omega
  unfold HEAP_PAGES at henough
  unfold HEAP_TABLES at hroom
  unfold KHEAP_HEAP_SIZE at htop
  obtain ⟨hnone, hsome⟩ := find_free_frame_spec hpaged.frames hsteady.zero
  have hne : pmm_find_free_frame w.mm ≠ NULL := by
    intro hnull
    rw [hnone hnull] at henough
    cases henough
  have hout : ∀ page, base / 4096 ≤ page → ¬ InImage image page := by
    rintro page hpage ⟨-, hin⟩
    omega
  have hlast : base / 4096 + 0 + 8192 ≤ base / 4096 + 8192 := by omega
  have htables : TableRoom w.mm w.curr_page_directory (base / 4096 + 0) (base / 4096 + 8192) :=
    Or.inr (by omega)
  obtain ⟨mapped, t, hloop⟩ : ∃ mapped t, vmm_map_pages w.curr_page_directory base
      (pmm_find_free_frame w.mm) 8192 0 w.mm = .done mapped t :=
    map_pages_returns haligned 8192 (walks_boot hboot).kept hlast (by omega) hout htables
  obtain ⟨-, hmapped⟩ := map_pages_spec haligned 8192 hpaged hsteady.zero hloop
  rw [hsome hne, decide_eq_true henough] at hmapped
  have hdown : base / 4096 * 4096 = base := by omega
  have hbase_ne : base ≠ NULL := by
    unfold NULL
    omega
  refine ⟨base, { w with mm := t }, ?_, hbase_ne⟩
  rw [heap_call_eq]
  unfold vmm_map_memory
  rw [if_pos rfl]
  simp only [KHEAP_HEAP_SIZE] at hfind ⊢
  rw [hfind]
  simp only [if_true, hbase_ne, if_false, hne]
  unfold vmm_map_range
  rw [align_down_eq (by omega), hdown]
  have hpages : div_up 0x02000000 PAGE_SIZE = 8192 := heap_pages
  simp only [hpages, hloop, hmapped, Outcome.done_andThen, if_true, Outcome.done_lift]

theorem kheap_init_returns (hboot : init_kernel_memory image m mmap = .done () w)
    (htop : 0xC0000000 + image.pages * 4096 + KHEAP_HEAP_SIZE ≤ 4294967296)
    (hroom : HEAP_TABLES ≤ w.mm.kheap.kheap_placement_memory_free_memory)
    (henough : HEAP_PAGES ≤ (freeFrames w.mm 0).length) : ∃ s, kheap_init w = .done () s := by
  obtain ⟨base, t, hmap, hbase⟩ := heap_call_returns hboot htop hroom henough
  exact ⟨_, Outcome.andThen_eq_done.mpr
    ⟨base, t, hmap, Outcome.lift_eq_done.mpr ⟨_, if_neg hbase, rfl⟩⟩⟩

/-- After a boot that has left room for the tables, `kheap_init` returns when there are frames for
all pages of the heap, and only then. -/
theorem the_heap_needs_a_frame_for_each_page (image : KernelImage) (m : Mem)
    (mmap : List MmapEntry) {w : Vmm} (hboot : init_kernel_memory image m mmap = .done () w)
    (htop : 0xC0000000 + image.pages * 4096 + KHEAP_HEAP_SIZE ≤ 4294967296)
    (hroom : HEAP_TABLES ≤ w.mm.kheap.kheap_placement_memory_free_memory) :
    (∃ s, kheap_init w = .done () s) ↔ HEAP_PAGES ≤ (freeFrames w.mm 0).length := by
  refine ⟨?_, kheap_init_returns hboot htop hroom⟩
  rintro ⟨s, hinit⟩
  obtain ⟨base, t, k, hmap, hbase, -, -⟩ := kheap_init_done hinit
  have henough := (call_succeeded (steady_boot hboot) hmap hbase).enough
  rw [heap_pages] at henough
  exact henough

end

/-! ## A kernel with a heap -/

/-- The small kernel boots with 8192 free frames behind it, and leaves room for the tables. -/
theorem small_kernel_has_room : ∃ w,
    init_kernel_memory smallImage (fun _ => 0) (oneRegion 0x300000 0x2000000) = .done () w ∧
    HEAP_TABLES ≤ w.mm.kheap.kheap_placement_memory_free_memory ∧
    HEAP_PAGES ≤ (freeFrames w.mm 0).length := by
  have hlast : sub32 (add32 0x300000 0x2000000) 1 / 4096 = 8959 := by decide +kernel
  have hbase : 0x300000 < 4294967296 := by decide
  have hlength : 0x2000000 < 4294967296 := by decide
  obtain ⟨t, hpmm, -, -, -, hbits, -⟩ := small_machine_boots hbase hlength
  have hbumped : Bumped ⟨smallMachine.kheap, []⟩ := image_bumped smallImage _
  obtain ⟨hframes, -, hfree, grants, hgranted, hbitmap⟩ := init_granted hbumped hpmm
  have hroom : HEAP_TABLES + 24576 ≤
      (pmm_init_region t 0).kheap.kheap_placement_memory_free_memory := by
    rw [hfree]
    decide
  have hle : kernel_virtual_start ≤ 0xC0300000 := by decide
  obtain ⟨w, hinit, hroom'⟩ := vmm_init_returns
    (v := { smallImage.start (fun _ => 0) with mm := pmm_init_region t 0 }) hgranted hframes hbitmap
    hle (by decide) hroom
  have hbooted := vmm_init_spec hgranted hframes hbitmap hle (by decide) hinit
  obtain ⟨grants', hpaged⟩ := hbooted.part.paged
  have hpages : bootPages 0xC0300000 = freeFrame := small_image_pages
  refine ⟨w, Outcome.andThen_eq_done.mpr ⟨(), _, Outcome.lift_eq_done.mpr ⟨_, hpmm, rfl⟩, hinit⟩,
    ?_, ?_⟩
  · rcases hroom' with ⟨-, hneed⟩ | hneed
    · exact hneed
    · exact Nat.le_trans (Nat.le_add_right _ _) hneed
  · -- The frames of the region are free.
    have hsub : List.range' 768 HEAP_PAGES ⊆ freeFrames w.mm 0 := by
      refine List.subset_def.mpr ?_
      intro f hf
      have hrange := List.mem_range'_1.mp hf
      unfold HEAP_PAGES at hrange
      refine mem_freeFrames.mpr ⟨Nat.zero_le _, ?_, ?_⟩
      · rw [hpaged.frames, TOP_FRAME]
        omega
      · rw [hbooted.part.bits f (by omega), hbits f (by omega), hpages, hlast]
        unfold freeFrame
        rw [decide_eq_false (by omega), Bool.false_or, decide_eq_true (by omega)]
        rfl
    have hle := ((List.nodup_range' (h := Nat.one_pos)).subperm hsub).length_le
    rwa [List.length_range'] at hle

theorem small_kernel_has_a_heap : ∃ w,
    init_kernel_memory smallImage (fun _ => 0) (oneRegion 0x300000 0x2000000) = .done () w ∧
    ∃ s, kheap_init w = .done () s := by
  obtain ⟨w, hboot, hroom, henough⟩ := small_kernel_has_room
  have htop : 0xC0000000 + smallImage.pages * 4096 + KHEAP_HEAP_SIZE ≤ 4294967296 := by
    rw [small_image_pages]
    decide
  have hheap := the_heap_needs_a_frame_for_each_page smallImage _ _ hboot htop hroom
  exact ⟨w, hboot, hheap.mpr henough⟩

theorem one_block_has_memory_of_its_own : ∃ w s c pa,
    init_kernel_memory smallImage (fun _ => 0) (oneRegion 0x300000 0x2000000) = .done () w ∧
    kheap_init w = .done () s ∧
    run client_step ⟨s.mm.kheap, []⟩ [.kmalloc 100] = some c ∧
    OwnByte w (s.setKheap c.heap) 0xC0300000 pa := by
  obtain ⟨w, hboot, hroom, henough⟩ := small_kernel_has_room
  have htop : 0xC0000000 + smallImage.pages * 4096 + 2 * KHEAP_HEAP_SIZE + 400 < 4294967296 := by
    rw [small_image_pages]
    decide
  have hfits : 0xC0000000 + smallImage.pages * 4096 + KHEAP_HEAP_SIZE ≤ 4294967296 := by
    rw [small_image_pages]
    decide
  obtain ⟨s, hinit⟩ := kheap_init_returns hboot hfits hroom henough
  obtain ⟨base, t, hstarted⟩ := heap_started hboot hinit htop
  obtain ⟨bs, hinv⟩ := hstarted.start
  obtain ⟨c, _, hstep, -⟩ := call_cases hinv (.kmalloc 100) (show 100 ≤ KHEAP_HEAP_SIZE by decide)
  have hrun : run client_step ⟨s.mm.kheap, []⟩ [.kmalloc 100] = some c :=
    run_cons.mpr ⟨c, hstep, rfl⟩
  obtain ⟨hbase, -, hbytes, -⟩ :=
    the_heap_has_memory_of_its_own smallImage _ _ hboot hinit htop hrun
  have hplace : c.heap.kheap_base = 0xC0300000 := by
    rw [hbase, small_image_pages]
    rfl
  rw [hplace] at hbytes
  obtain ⟨pa, hbyte⟩ := hbytes 0xC0300000 (Nat.le_refl _) (by decide)
  exact ⟨w, s, c, pa, hboot, hinit, hrun, hbyte⟩

end sakana_os
