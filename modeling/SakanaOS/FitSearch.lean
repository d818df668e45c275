-- Which block a request gets. Without alignment the search finds the best fit whenever a free
-- block has the room. With alignment it looks for the page 20 headers past a block, and the
-- allocation then looks for the page behind the header itself.
import SakanaOS.AlignedKmalloc

open byte_memory block_tiling runs

namespace sakana_os

/-! ## Without alignment -/

/-- The block is free and has `size` bytes. -/
def FreeFor (size : Nat) (b : Block) : Prop := b.free = true ∧ size ≤ b.size

instance (size : Nat) (b : Block) : Decidable (FreeFor size b) :=
  inferInstanceAs (Decidable (b.free = true ∧ size ≤ b.size))

/-- The blocks that stand where a block was, from which `size` bytes are taken. -/
def splitBlocks (size : Nat) (b : Block) : List Block :=
  if SIZEOF_HEAD < b.size - size then
    [⟨b.addr, size, false⟩, ⟨b.addr + SIZEOF_HEAD + size, b.size - size - SIZEOF_HEAD, true⟩]
  else [⟨b.addr, b.size, false⟩]

theorem carve_eq_splitBlocks (size : Nat) (b : Block) :
    carve SIZEOF_HEAD size b = splitBlocks size b := by
  unfold splitBlocks
  split
  · rename_i hsplit
    exact carve_split hsplit
  · rename_i hwhole
    exact carve_whole hwhole

theorem bestFit_none {size : Nat} {bs : List Block} :
    bestFit size bs = none ↔ ∀ b ∈ bs, b.free = true → b.size < size := by
  rw [bestFit_eq, bestOf_none]
  apply forall₂_congr
  intro b _
  rw [not_and, Nat.not_le]

theorem bestFit_foremost {size : Nat} {bs : List Block} {b : Block} {lo hi : Nat}
    (h : Tiles SIZEOF_HEAD lo bs hi) (hb : bestFit size bs = some b) :
    Foremost (FreeFor size) bs b := by
  rw [bestFit_eq] at hb
  exact bestOf_foremost h hb

/-- `kmalloc` returns `NULL` exactly when every free block is too small, and then changes
nothing. Otherwise it returns the payload of the lowest of the smallest free blocks that are
large enough, and the blocks are those of before with that one split or taken whole. -/
theorem the_best_fit_is_complete_and_exact {s : Kheap} {bs : List Block} (h : Shape s bs)
    {size : Nat} (h0 : 1 ≤ size) (hs : size ≤ KHEAP_HEAP_SIZE) :
    ∃ p t, kmalloc s size = .done p t ∧
      (p = NULL ↔ ∀ b ∈ bs, b.free = true → b.size < size) ∧
      (p = NULL → t = s) ∧
      (p ≠ NULL → ∃ l b r, bs = l ++ b :: r ∧ Foremost (FreeFor size) bs b ∧
        p = b.addr + SIZEOF_HEAD ∧ Shape t (l ++ (splitBlocks size b ++ r)) ∧
        heap_blocks t = l ++ (splitBlocks size b ++ r)) := by
  have hheap : kmalloc s size = kmalloc_heap_base s size MALLOC_FLAG_NULL := if_pos h.enabled
  have hflag : MALLOC_FLAG_NULL &&& MALLOC_FLAG_ALIGN = 0 := by decide
  rw [hheap]
  rcases kmalloc_heap_base_spec h hs hflag with
    ⟨hnull, hnone⟩ | ⟨l, b, r, t, rfl, hbest, hfree, -, hfit, hdone, htook⟩
  · have hnone := bestFit_none.mp (hnone.resolve_left (Nat.ne_of_gt h0))
    exact ⟨NULL, s, hnull, ⟨fun _ => hnone, fun _ => rfl⟩, fun _ => rfl,
      fun hne => absurd rfl hne⟩
  · have hne : b.addr + SIZEOF_HEAD ≠ NULL := Nat.succ_ne_zero _
    refine ⟨b.addr + SIZEOF_HEAD, t, hdone, ⟨fun hnull => absurd hnull hne, ?_⟩,
      fun hnull => absurd hnull hne, fun _ => ?_⟩
    · intro hsmall
      exact absurd hfit (Nat.not_le.mpr (hsmall b (by simp) hfree))
    · have hshape := htook.shape
      rw [carve_eq_splitBlocks] at hshape
      exact ⟨l, b, r, rfl, bestFit_foremost h.tiles hbest, rfl, hshape, hshape.toLaid.blocks⟩

/-- Four blocks, of which the first and the third are freed. -/
def scatteredCalls : List HeapCall :=
  [.kmalloc 100, .kmalloc 50, .kmalloc 40, .kmalloc 30, .kfree 0xC0300014, .kfree 0xC03000D2]

def scatteredBlocks : List Block :=
  [⟨0xC0300000, 100, true⟩, ⟨0xC0300078, 50, false⟩, ⟨0xC03000BE, 40, true⟩,
    ⟨0xC03000FA, 30, false⟩, ⟨0xC030012C, KHEAP_HEAP_SIZE - 320, true⟩]

theorem scattered_blocks : ∃ c, run client_step ⟨startHeap, []⟩ scatteredCalls = some c ∧
    Shape c.heap scatteredBlocks := by
  have hrun : (run client_step ⟨startHeap, []⟩ scatteredCalls).map (fun c => heap_blocks c.heap) =
      some scatteredBlocks := by decide +kernel
  obtain ⟨c, hc, hblocks⟩ := Option.map_eq_some_iff.mp hrun
  obtain ⟨hshape, -⟩ := boot_run_shape hc
  rw [hblocks] at hshape
  exact ⟨c, hc, hshape⟩

/-- Of the three free blocks the second has the least room to spare. -/
theorem the_tightest_free_block_is_taken : ∃ c t,
    run client_step ⟨startHeap, []⟩ scatteredCalls = some c ∧
    kmalloc c.heap 36 = .done 0xC03000D2 t ∧
    heap_blocks t = [⟨0xC0300000, 100, true⟩, ⟨0xC0300078, 50, false⟩, ⟨0xC03000BE, 40, false⟩,
      ⟨0xC03000FA, 30, false⟩, ⟨0xC030012C, KHEAP_HEAP_SIZE - 320, true⟩] := by
  obtain ⟨c, hrun, hshape⟩ := scattered_blocks
  obtain ⟨p, t, hdone, hnull, -, hblock⟩ :=
    the_best_fit_is_complete_and_exact hshape (show 1 ≤ 36 by decide) (by decide)
  have hne : p ≠ NULL := by
    intro hp
    have hsmall := hnull.mp hp ⟨0xC03000BE, 40, true⟩ (by decide) rfl
    revert hsmall
    decide
  obtain ⟨l, b, r, hbs, hbest, rfl, -, hblocks⟩ := hblock hne
  have hb : b = ⟨0xC03000BE, 40, true⟩ := by
    have hsize := hbest.least ⟨0xC03000BE, 40, true⟩ (by decide) (by decide)
    have hmem := hbest.mem
    have hfree := hbest.meets
    simp only [scatteredBlocks, List.mem_cons, List.not_mem_nil, or_false] at hmem
    rcases hmem with rfl | rfl | rfl | rfl | rfl
    all_goals revert hsize hfree; decide
  rw [hb] at hbs hblocks hdone
  have hspot : scatteredBlocks.take 2 ++ ⟨0xC03000BE, 40, true⟩ :: scatteredBlocks.drop 3 =
      l ++ ⟨0xC03000BE, 40, true⟩ :: r := hbs
  obtain ⟨rfl, -, rfl⟩ := (List.append_cons_inj_of_notMem (by decide) (by decide)).mp hspot
  exact ⟨c, t, hrun, hdone, hblocks.trans (by decide)⟩

/-! ## With alignment -/

/-- The address of the first page at or above an address. -/
def pageAbove (address : Nat) : Nat := (address + (PAGE_SIZE - 1)) / PAGE_SIZE * PAGE_SIZE

/-- The block can hold `size` bytes at a page: its payload starts at one, or the bytes from the
first page behind one more header to its end are enough. -/
def CanHold (size : Nat) (b : Block) : Prop :=
  (b.addr + SIZEOF_HEAD) % PAGE_SIZE = 0 ∧ size ≤ b.size ∨
    pageAbove (b.addr + SIZEOF_HEAD + SIZEOF_HEAD) + size ≤ b.stop SIZEOF_HEAD

/-- The request is turned down only when no free block can hold it. -/
def FindsAFit (size : Nat) (bs : List Block) (o : Outcome Kheap Nat) : Prop :=
  (∃ t, o = .done NULL t) → ∀ b ∈ bs, b.free = true → ¬ CanHold size b

/-- The block that the search settles on is taken and not turned down. -/
def Carvable (size : Nat) (b : Block) : Prop :=
  (b.addr + SIZEOF_HEAD) % PAGE_SIZE = 0 ∨ size + alignPadding b.addr ≤ b.size

theorem kmalloc_take_ne_null {s t : Kheap} {a size flag : Nat} (ha : a + 20 < 4294967296) :
    kmalloc_take s a size flag ≠ .done NULL t := by
  have hdata : add32 a SIZEOF_HEAD = a + 20 := add32_eq ha
  unfold kmalloc_take
  simp only [hdata, ne_eq, Outcome.done.injEq, not_and]
  intro hnull
  exact absurd hnull (Nat.succ_ne_zero _)

/-- An aligned request is turned down when the search finds no block, or when the block that
it settles on has too little room behind the header. -/
theorem aligned_null_iff {s : Kheap} {bs : List Block} (h : Shape s bs) {size : Nat}
    (h0 : 0 < size) (hs : size ≤ KHEAP_HEAP_SIZE) :
    (∃ t, kmalloc_flag s size MALLOC_FLAG_ALIGN = .done NULL t) ↔
      ∀ b ∈ chosenBlock size true bs, ¬ Carvable size b := by
  have hstrung := h.toLaid.strung
  rw [kmalloc_flag_aligned hstrung h0 hs (by decide)]
  cases hbest : chosenBlock size true bs with
  | none => simp
  | some b =>
    obtain ⟨l, r, rfl, -, -, -⟩ := bestOf_some hbest
    obtain ⟨-, -, hhi, htop⟩ := hstrung.bounds (b := b) (by simp)
    have hsize := h.roomy b (by simp)
    simp only [Option.mem_def, Option.some.injEq, forall_eq']
    unfold Carvable
    obtain ⟨-, hfits⟩ := alignPadding_spec (Nat.le_trans hhi htop) h0 hs
    by_cases hpage : (b.addr + SIZEOF_HEAD) % PAGE_SIZE = 0
    · rw [if_pos hpage]
      simp only [hpage, true_or, not_true_eq_false, iff_false, not_exists]
      exact fun t => kmalloc_take_ne_null (by omega)
    · rw [if_neg hpage]
      simp only [hpage, false_or, Nat.not_le]
      by_cases hlack : b.size < size + alignPadding b.addr
      · simp [hlack]
      · have hroom := Nat.le_of_not_lt hlack
        simp only [hlack, if_false, iff_false, not_exists]
        exact fun t => kmalloc_take_ne_null (by omega)

/-- An aligned request is turned down only when no free block can hold it, exactly when there
is none, or the foremost of the free blocks that pass the test of the search, which counts
from 20 headers past a block, is one that the allocation takes. -/
theorem aligned_requests_find_a_fit_when_the_search_agrees {s : Kheap} {bs : List Block}
    (h : Shape s bs) {size : Nat} (h0 : 1 ≤ size) (hs : size ≤ KHEAP_HEAP_SIZE) :
    FindsAFit size bs (kmalloc_flag s size MALLOC_FLAG_ALIGN) ↔
      (∀ b ∈ bs, b.free = true → ¬ CanHold size b) ∨
        ∃ b, Foremost (fun b => b.free = true ∧ RoomFor size true b) bs b ∧
          Carvable size b := by
  unfold FindsAFit
  rw [aligned_null_iff h h0 hs]
  have hchosen : ∀ b, b ∈ chosenBlock size true bs ↔
      Foremost (fun b => b.free = true ∧ RoomFor size true b) bs b :=
    fun b => bestOf_eq_some h.tiles (by decide)
  constructor
  · intro hfinds
    by_cases hnone : ∀ b ∈ chosenBlock size true bs, ¬ Carvable size b
    · exact Or.inl (hfinds hnone)
    · push Not at hnone
      obtain ⟨b, hb, hcarve⟩ := hnone
      exact Or.inr ⟨b, (hchosen b).mp hb, hcarve⟩
  · rintro (hnone | ⟨b, hb, hcarve⟩) hnull
    · exact hnone
    · exact absurd hcarve (hnull b ((hchosen b).mpr hb))

/-- The one free block of the boot is large enough for the search and for the allocation. -/
theorem the_boot_heap_finds_a_page :
    FindsAFit 4096 startBlocks (kmalloc_flag startHeap 4096 MALLOC_FLAG_ALIGN) := by
  have hroom : RoomFor 4096 true ⟨0xC0300000, KHEAP_HEAP_SIZE - SIZEOF_HEAD, true⟩ := by
    decide +kernel
  have hcarve : 4096 + alignPadding 0xC0300000 ≤ KHEAP_HEAP_SIZE - SIZEOF_HEAD := by
    decide +kernel
  refine (aligned_requests_find_a_fit_when_the_search_agrees startBlocks_shape (by decide)
    (by decide)).mpr (Or.inr ⟨_, ⟨List.mem_singleton_self _, ⟨rfl, hroom⟩, ?_, ?_⟩, Or.inr hcarve⟩)
  · intro c hc _
    rw [List.mem_singleton.mp hc]
  · intro c hc _ _
    rw [List.mem_singleton.mp hc]

/-- A free block of 4096 bytes whose payload is the page at 0xC0301000. From 400 bytes past its
header the next page is 0xC0302000, and the block stops there. -/
theorem an_aligned_request_can_miss_its_block :
    ∃ c, run client_step ⟨startHeap, []⟩
        [.kmalloc 4056, .kmalloc 4096, .kmalloc 33546220, .kfree 0xC0301000] = some c ∧
      Shape c.heap (heap_blocks c.heap) ∧
      ¬ FindsAFit 4096 (heap_blocks c.heap) (kmalloc_flag c.heap 4096 MALLOC_FLAG_ALIGN) := by
  have hrun : (run client_step ⟨startHeap, []⟩
      [.kmalloc 4056, .kmalloc 4096, .kmalloc 33546220, .kfree 0xC0301000]).any fun c =>
        decide (⟨0xC0300FEC, 4096, true⟩ ∈ heap_blocks c.heap) &&
          (kmalloc_flag c.heap 4096 MALLOC_FLAG_ALIGN).returns fun ptr _ => ptr == NULL := by
    decide +kernel
  obtain ⟨c, hcalls, hrun⟩ := (Option.any_eq_true _ _).mp hrun
  simp only [Bool.and_eq_true, decide_eq_true_eq] at hrun
  obtain ⟨hmem, hmisses⟩ := hrun
  obtain ⟨ptr, t, hdone, hnull⟩ := Outcome.returns_iff.mp hmisses
  rw [beq_iff_eq.mp hnull] at hdone
  exact ⟨c, hcalls, (boot_run_shape hcalls).1,
    fun hfinds => hfinds ⟨t, hdone⟩ _ hmem rfl (Or.inl (by decide))⟩

end sakana_os
