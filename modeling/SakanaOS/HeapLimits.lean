-- Requests of every 32-bit size. The search compares sums that are taken 20 headers past a
-- block, and the sums of a large request wrap: then a block without the room is taken, and a
-- header is written past its end. This module finds the requests that this happens to.
import SakanaOS.HeapRuns

open byte_memory block_tiling runs

namespace sakana_os

/-! ## The representation invariant -/

/-- The blocks `bs` are the heap of `s`: they tile it, the list runs through them both ways
and ends at the tail, and every block carries the magic. -/
structure WellFormed (s : Kheap) (bs : List Block) : Prop extends Strung s bs where
  sealed : Sealed s bs

/-- Carving a block keeps the invariant. -/
theorem Carved.wellFormed {s t : Kheap} {l r : List Block} {b : Block} {size : Nat} {init : Bool}
    (h : Carved s t l b r size init) (hs : Sealed s (l ++ b :: r)) :
    WellFormed t (l ++ (carve SIZEOF_HEAD size b ++ r)) := by
  refine ⟨h.strung, ?_⟩
  intro c hc
  rcases h.magic c hc with hmagic | ⟨d, hd, haddr, hsame⟩
  · exact hmagic
  · rw [hsame, ← haddr]
    exact hs d hd

/-- The block taken is the one in memory behind the pointer. -/
theorem Carved.size {s t : Kheap} {l r : List Block} {b : Block} {size : Nat} {init : Bool}
    (h : Carved s t l b r size init) :
    head_size t.mem b.addr = (taken SIZEOF_HEAD size b).size := by
  have hl := h.strung.linked
  rw [carve, List.cons_append, linked_at] at hl
  exact hl.2.1.size

/-! ## What a request is promised -/

/-- A request was turned down with no change, or got the payload of a block of the heap that
is in use, large enough and inside of the heap. -/
def Answered (s : Kheap) (size : Nat) (o : Outcome Kheap Nat) : Prop :=
  o = .done NULL s ∨ ∃ t bs b, o = .done (b.addr + SIZEOF_HEAD) t ∧ WellFormed t bs ∧ b ∈ bs ∧
    b.free = false ∧ head_size t.mem b.addr = b.size ∧ size ≤ b.size ∧
    s.kheap_base ≤ b.addr ∧ b.stop SIZEOF_HEAD ≤ s.kheap_base + KHEAP_HEAP_SIZE

/-- The sums of the search over a block are those of the natural numbers. -/
structure TurnFits (size : Nat) (b : Block) : Prop where
  data_addr : b.addr + SIZEOF_HEAD * SIZEOF_HEAD < 4294967296
  end_addr : b.addr + SIZEOF_HEAD * SIZEOF_HEAD + b.size < 4294967296
  request : b.addr + SIZEOF_HEAD * SIZEOF_HEAD + size < 4294967296

/-- So are the sums and the difference that are computed for the block that is taken. -/
structure TakeFits (size : Nat) (b : Block) : Prop where
  data_addr : b.addr + SIZEOF_HEAD < 4294967296
  remaining_size : size ≤ b.size
  remaining_block : SIZEOF_HEAD < b.size - size → b.addr + SIZEOF_HEAD + size < 4294967296

/-- No computation of an unaligned request wraps. A request of no byte computes nothing. -/
def NothingWraps (s : Kheap) (bs : List Block) (size : Nat) : Prop :=
  size ≠ 0 → (∀ b ∈ bs, b.free = true → TurnFits size b) ∧
    ∀ b ∈ bs, kheap_find_best_fit s size false = some b.addr → TakeFits size b

/-- Every free block lies so low that the request, counted from 20 headers past it, stays
below the end of the address space. -/
def SumsFit (size : Nat) (bs : List Block) : Prop :=
  size = 0 ∨ ∀ b ∈ bs, b.free = true → b.addr + 400 + max size b.size < 4294967296

/-! ## Requests that fit -/

/-- Where no sum wraps, `kmalloc` takes the best fit, if any. -/
theorem kmalloc_best_fit {s : Kheap} {bs : List Block} (h : WellFormed s bs) {size : Nat}
    (h0 : size ≠ 0) (hfit : ∀ b ∈ bs, b.free = true → b.addr + 400 + max size b.size < 4294967296) :
    (kmalloc s size = .done NULL s ∧ bestFit size bs = none) ∨
    ∃ l b r t, bs = l ++ b :: r ∧ bestFit size bs = some b ∧ size ≤ b.size ∧
      kmalloc s size = .done (b.addr + 20) t ∧ Carved s t l b r size false := by
  have hfind := h.toStrung.find_best_fit size false
  rw [chosenBlock_bestFit hfit] at hfind
  have hflag : MALLOC_FLAG_NULL &&& MALLOC_FLAG_ALIGN = 0 := by decide
  rcases hbest : bestFit size bs with _ | b
  · refine Or.inl ⟨?_, rfl⟩
    simp [kmalloc, kmalloc_base, h.enabled, kmalloc_heap_base, h0, hflag, hfind, hbest, bestAddr]
  · obtain ⟨l, r, rfl, hfree, hroom, -, -⟩ := bestFit_some hbest
    have hb0 := h.addr_ne (b := b) (by simp)
    obtain ⟨t, htake, hcarved⟩ := kmalloc_take_carves
      ⟨h.toStrung.stale, Or.inr h.toStrung⟩ (Nat.pos_of_ne_zero h0) hroom MALLOC_FLAG_NULL
    refine Or.inr ⟨l, b, r, t, rfl, rfl, hroom, ?_, hcarved⟩
    simp [kmalloc, kmalloc_base, h.enabled, kmalloc_heap_base, h0, hflag, hfind, hbest, bestAddr,
      hb0, htake]

theorem answered_of_carved {s t : Kheap} {l r : List Block} {b : Block} {size : Nat} {init : Bool}
    (h : WellFormed s (l ++ b :: r)) (hroom : size ≤ b.size)
    (hcarved : Carved s t l b r size init) :
    Answered s size (.done (b.addr + SIZEOF_HEAD) t) := by
  have hfits := taken_fits SIZEOF_HEAD hroom
  have hbounds := tiles_mem h.tiles (b := b) (by simp)
  refine Or.inr ⟨t, _, taken SIZEOF_HEAD size b, rfl, hcarved.wellFormed h.sealed, ?_, rfl,
    hcarved.size, hfits.1, hbounds.1, Nat.le_trans hfits.2 hbounds.2⟩
  simp [taken_mem]

/-- The invariant holds with room for the search, so every address below is a word. -/
theorem nothingWraps_of_sumsFit {s : Kheap} {bs : List Block} (h : WellFormed s bs) {size : Nat}
    (hfit : SumsFit size bs) : NothingWraps s bs size := by
  intro h0
  have hfit := hfit.resolve_left h0
  refine ⟨?_, ?_⟩
  · intro b hb hfree
    have hsum := hfit b hb hfree
    refine ⟨?_, ?_, ?_⟩
    all_goals
      simp only [SIZEOF_HEAD]
      omega
  · intro b hb hfind
    rw [h.toStrung.find_best_fit, chosenBlock_bestFit hfit, Option.some.injEq] at hfind
    rcases hbest : bestFit size bs with _ | c
    · rw [hbest] at hfind
      exact absurd hfind.symm (h.addr_ne hb)
    · rw [hbest] at hfind
      obtain ⟨l, r, hbs, hfree, hroom, -, -⟩ := bestFit_some hbest
      have hc : c ∈ bs := by simp [hbs]
      have hbc : c = b := tiles_inj h.tiles (by decide) hc hb hfind
      subst hbc
      have hsum := hfit c hc hfree
      refine ⟨?_, hroom, ?_⟩
      · simp only [SIZEOF_HEAD]
        omega
      · intro _
        simp only [SIZEOF_HEAD]
        omega

theorem sumsFit_of_nothingWraps {s : Kheap} {bs : List Block} {size : Nat}
    (h : NothingWraps s bs size) : SumsFit size bs := by
  by_cases h0 : size = 0
  · exact Or.inl h0
  · refine Or.inr fun b hb hfree => ?_
    obtain ⟨-, hend, hrequest⟩ := (h h0).1 b hb hfree
    simp only [SIZEOF_HEAD] at hend hrequest
    omega

/-- `kmalloc` deals with a request, and wraps nowhere on the way, exactly when every free block
lies low enough for it. -/
theorem kmalloc_deals_with_the_sizes_that_fit {s : Kheap} {bs : List Block} (h : WellFormed s bs)
    (size : Nat) :
    (Answered s size (kmalloc s size) ∧ NothingWraps s bs size) ↔ SumsFit size bs := by
  constructor
  · rintro ⟨-, hwraps⟩
    exact sumsFit_of_nothingWraps hwraps
  · intro hfit
    refine ⟨?_, nothingWraps_of_sumsFit h hfit⟩
    by_cases h0 : size = 0
    · refine Or.inl ?_
      simp [kmalloc, kmalloc_base, h.enabled, kmalloc_heap_base, h0]
    · rcases kmalloc_best_fit h h0 (hfit.resolve_left h0) with
        ⟨hnull, -⟩ | ⟨l, b, r, t, rfl, -, hroom, hdone, hcarved⟩
      · exact Or.inl hnull
      · rw [hdone]
        exact answered_of_carved h hroom hcarved

/-! ## The heap of the boot -/

/-- The one block of the heap that the boot leaves. -/
def startBlocks : List Block := [⟨0xC0300000, KHEAP_HEAP_SIZE - SIZEOF_HEAD, true⟩]

/-- Calls of a client from the boot on leave a heap in shape. -/
theorem boot_run_shape {calls : List HeapCall} {c : Clients}
    (hcalls : run client_step ⟨startHeap, []⟩ calls = some c) :
    Shape c.heap (heap_blocks c.heap) ∧ Sealed c.heap (heap_blocks c.heap) := by
  have hlow : bootKheap.kheap_placement_memory + KHEAP_PLACEMENT_SIZE ≤ 0xC0300000 := by decide
  have hinit : kheap_init_at bootKheap 0xC0300000 = .done () startHeap := rfl
  obtain ⟨hstart, -⟩ := start_invariant hlow (by decide) hinit
  obtain ⟨⟨bs, hinv⟩, -⟩ := run_invariant ⟨_, hstart⟩ hcalls
  rw [hinv.shape.toLaid.blocks]
  exact ⟨hinv.shape, hinv.sealed⟩

theorem startBlocks_shape : Shape startHeap startBlocks := by
  have hlow : bootKheap.kheap_placement_memory + KHEAP_PLACEMENT_SIZE ≤ 0xC0300000 := by decide
  obtain ⟨t, hinit, -, -, hshape, -⟩ := kheap_init_at_spec hlow (by decide)
  have hstart : startHeap = t := by
    unfold startHeap
    rw [hinit]
  rw [hstart]
  exact hshape

theorem startHeap_wellFormed : WellFormed startHeap startBlocks := by
  have hnone : run client_step ⟨startHeap, []⟩ [] = some ⟨startHeap, []⟩ := rfl
  obtain ⟨hshape, hsealed⟩ := boot_run_shape hnone
  rw [startBlocks_shape.toLaid.blocks] at hsealed
  exact ⟨startBlocks_shape.toLaid.strung, hsealed⟩

theorem the_boot_heap_deals_with_a_page :
    (Answered startHeap 4096 (kmalloc startHeap 4096) ∧
      NothingWraps startHeap startBlocks 4096) := by
  refine (kmalloc_deals_with_the_sizes_that_fit startHeap_wellFormed 4096).mpr (Or.inr ?_)
  intro b hb _
  rw [startBlocks, List.mem_singleton] at hb
  subst hb
  decide

/-- The one block of the boot lies at 0xC0300000, and 0x3FCFFE70 bytes from 400 past it end at
`2 ^ 32`. The sum is 0, and the block is handed out as one of 0x3FCFFE70 bytes. -/
theorem a_large_request_leaves_the_heap :
    WellFormed startHeap startBlocks ∧
      ¬ Answered startHeap 0x3FCFFE70 (kmalloc startHeap 0x3FCFFE70) ∧
      ∃ t, kmalloc startHeap 0x3FCFFE70 = .done 0xC0300014 t ∧
        head_size t.mem 0xC0300000 = 0x3FCFFE70 := by
  have hrun : (kmalloc startHeap 0x3FCFFE70).returns fun ptr t =>
      ptr == 0xC0300014 && head_size t.mem 0xC0300000 == 0x3FCFFE70 := by
    decide +kernel
  have hbase : startHeap.kheap_base = 0xC0300000 := by decide
  obtain ⟨ptr, t, hkmalloc, hrun⟩ := Outcome.returns_iff.mp hrun
  simp only [Bool.and_eq_true, beq_iff_eq] at hrun
  obtain ⟨rfl, hsize⟩ := hrun
  refine ⟨startHeap_wellFormed, ?_, t, hkmalloc, hsize⟩
  rw [hkmalloc]
  rintro (hnull | ⟨t', bs, b, hdone, -, -, -, hb, -, -, hstop⟩)
  · cases hnull
  · -- The block that was returned ends far past the heap.
    simp only [Outcome.done.injEq, SIZEOF_HEAD] at hdone
    obtain ⟨haddr, rfl⟩ := hdone
    have hat : b.addr = 0xC0300000 := by omega
    rw [hat, hsize] at hb
    simp only [Block.stop, SIZEOF_HEAD, KHEAP_HEAP_SIZE, hbase, hat, ← hb] at hstop
    omega

end sakana_os
