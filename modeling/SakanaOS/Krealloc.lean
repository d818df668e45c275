-- `krealloc` of a pointer that a client holds: the payload stays, or it moves to a new block
-- with all it held, or nothing happens.
import SakanaOS.OwnedBlocks

open byte_memory block_tiling runs

namespace sakana_os

section

variable {k : Kheap} {live pinned : List Nat}

/-- The pointer `r` stands for `p` from now on: it has the room and what `p` held, and the
other blocks are as they were. -/
structure Resized (k k' : Kheap) (live pinned : List Nat) (p size r : Nat) : Prop where
  heap : ClientHeap k' (r :: live.erase p) pinned
  fits : size ≤ payload_size k' r
  content : ∀ i < payload_size k p, k'.mem (r + i) = k.mem (p + i)
  keeps : ∀ q ∈ live.erase p, Keeps k k' q
  outside : SameOutside k k'

/-- The order in which clients hold their pointers does not matter. -/
theorem ClientHeap.perm {live' : List Nat} (h : ClientHeap k live pinned)
    (hperm : live'.Perm live) : ClientHeap k live' pinned :=
  ⟨h.shape, hperm.trans h.inUse, h.sealed⟩

/-- `krealloc_flag` of such a pointer gets past its checks. -/
theorem krealloc_live (h : ClientHeap k live pinned) {p : Nat} (hp : p ∈ live)
    (hpin : p ∉ pinned) (size flag : Nat) : krealloc_flag k p size flag =
      if size ≤ payload_size k p then .done p k
      else
        (kmalloc_flag k size flag).andThen fun new_ptr s =>
          if new_ptr = NULL then .done NULL s
          else
            (kfree { s with mem := copy s.mem new_ptr p (payload_size s p) } p).andThen
              fun _ s => .done new_ptr s := by
  obtain ⟨l, b, r, hbs, -, rfl, -⟩ := h.block hp
  have hb : b ∈ heap_blocks k := by simp [hbs]
  obtain ⟨h0, hplace, hrange, hsub, hne⟩ := h.shape.checks (h.shape.inRange hb)
  rw [Nat.add_sub_cancel] at hsub hne
  have hblock : kheap_get_heap_block k (b.addr + 20) = b.addr := by
    unfold kheap_get_heap_block
    simp [hsub, h.sealed b hb hpin]
  unfold krealloc_flag
  simp only [h0, hplace, hrange, hblock, hne, if_false, Bool.false_eq_true, payload_size,
    SIZEOF_HEAD, Nat.add_sub_cancel]

theorem krealloc_resizes (h : ClientHeap k live pinned) {p : Nat} (hp : p ∈ live)
    (hpin : p ∉ pinned) {size : Nat} (hsize : size ≤ KHEAP_HEAP_SIZE) :
    krealloc k p size = .done NULL k ∨
      ∃ r k', krealloc k p size = .done r k' ∧ Resized k k' live pinned p size r := by
  have hlive := krealloc_live h hp hpin size MALLOC_FLAG_NULL
  have hkmalloc : kmalloc_flag k size MALLOC_FLAG_NULL = kmalloc k size := rfl
  unfold krealloc
  rw [hlive, hkmalloc]
  by_cases hfit : size ≤ payload_size k p
  · rw [if_pos hfit]
    refine Or.inr ⟨p, k, rfl, h.perm (List.perm_cons_erase hp).symm, hfit, fun i _ => rfl,
      fun q _ => Keeps.refl k q, SameOutside.refl k⟩
  · rw [if_neg hfit]
    rcases kmalloc_obtains h hsize with ⟨hnull, -⟩ | ⟨r, k₁, hdone, hgot⟩
    · refine Or.inl ?_
      rw [hnull]
      rfl
    · have hr0 : r ≠ NULL := (hgot.heap.bounds List.mem_cons_self).1
      have hpr : p ≠ r := fun heq => hgot.fresh (heq ▸ hp)
      have hpsize : payload_size k₁ p = payload_size k p := (hgot.keeps p hp).size
      have hroom := hgot.fits
      -- The copy stays inside the new block.
      have hown : ∀ q ∈ [r], q ∈ r :: live := by simp
      have hcopied := write_keeps hgot.heap hown
        (m := copy k₁.mem r p (payload_size k₁ p)) (by
          intro x hx
          have hxr := hx r (List.mem_singleton_self r)
          exact copy_frame _ _ _ _ _ (by omega))
      obtain ⟨k₂, hk₂⟩ :
        ∃ k₂, k₂ = { k₁ with mem := copy k₁.mem r p (payload_size k₁ p) } := ⟨_, rfl⟩
      rw [← hk₂] at hcopied
      have hmem₂ : k₂.mem = copy k₁.mem r p (payload_size k₁ p) := by rw [hk₂]
      obtain ⟨k₃, hfree, hheap, hkeeps, -, hout⟩ :=
        kfree_gives_back hcopied.heap (List.mem_cons_of_mem r hp) hpin
      have herase : (r :: live).erase p = r :: live.erase p :=
        List.erase_cons_tail (by simpa using hpr.symm)
      rw [herase] at hheap hkeeps
      have hkeepr := hkeeps r List.mem_cons_self
      have hsizer : payload_size k₂ r = payload_size k₁ r :=
        hcopied.sizes r List.mem_cons_self
      refine Or.inr ⟨r, k₃, ?_, hheap, ?_, ?_, ?_, ?_⟩
      · rw [hdone]
        show (if r = NULL then _ else _) = _
        rw [if_neg hr0, ← hk₂, hfree]
        rfl
      · rw [hkeepr.size, hsizer]
        exact hroom
      · intro i hi
        have happart := hgot.heap.apart (List.mem_cons_of_mem r hp) List.mem_cons_self hpr
        rw [hkeepr.bytes (r + i) (by omega) (by omega), hmem₂,
          copy_inside _ _ _ _ _ (by omega) (by omega)]
        exact (hgot.keeps p hp).bytes (p + i) (by omega) (by omega)
      · intro q hq
        have hqlive := List.mem_of_mem_erase hq
        have hqr : q ∉ [r] := by
          rw [List.mem_singleton]
          exact fun heq => hgot.fresh (heq ▸ hqlive)
        have hkept := hcopied.keeps q (List.mem_cons_of_mem r hqlive) hqr
        exact ((hgot.keeps q hqlive).trans hkept).trans (hkeeps q (List.mem_cons_of_mem r hq))
      · exact (hgot.outside.trans hcopied.outside).trans hout

end

/-- A pointer into the placement area is not resized. -/
theorem krealloc_placement {k : Kheap} {bs : List Block} (h : Shape k bs) {ptr : Nat}
    (h0 : ptr ≠ NULL) (hlo : k.kheap_placement_memory ≤ ptr)
    (hhi : ptr < k.kheap_placement_memory + KHEAP_PLACEMENT_SIZE) (size : Nat) :
    krealloc k ptr size = .done NULL k := by
  obtain ⟨hlow, hhigh⟩ := And.intro h.low h.high
  have hend : add32 k.kheap_placement_memory KHEAP_PLACEMENT_SIZE =
      k.kheap_placement_memory + KHEAP_PLACEMENT_SIZE := add32_eq (by omega)
  have hplace : kheap_is_placement_memory k ptr = true := by
    simp [kheap_is_placement_memory, hend, hlo, hhi]
  unfold krealloc krealloc_flag
  rw [if_neg h0, if_pos hplace]

/-- `krealloc` of a live pointer returns `NULL` and changes nothing, or a live pointer with the
room, with the bytes that the old payload held, and with every other payload as it was. -/
theorem krealloc_keeps_the_contents_or_changes_nothing {c : Clients} {bs : List Block}
    (h : HeapInvariant c bs) :
    (∀ p ∈ c.live, ∀ size ≤ KHEAP_HEAP_SIZE,
      krealloc c.heap p size = .done NULL c.heap ∨
      ∃ r t, krealloc c.heap p size = .done r t ∧ r ≠ NULL ∧
        HeapInvariant ⟨t, r :: c.live.erase p⟩ (heap_blocks t) ∧
        size ≤ payload_size t r ∧
        (∀ i < payload_size c.heap p, t.mem (r + i) = c.heap.mem (p + i)) ∧
        (r ≠ p → p ∉ r :: c.live.erase p) ∧
        ∀ q ∈ c.live, q ≠ p → q ∈ r :: c.live.erase p ∧
          payload_size t q = payload_size c.heap q ∧
          ∀ x, q ≤ x → x < q + payload_size c.heap q → t.mem x = c.heap.mem x) ∧
    ∀ ptr, ptr ≠ NULL → c.heap.kheap_placement_memory ≤ ptr →
      ptr < c.heap.kheap_placement_memory + KHEAP_PLACEMENT_SIZE →
      ∀ size, krealloc c.heap ptr size = .done NULL c.heap := by
  have hblocks := h.shape.toLaid.blocks
  have hheap : ClientHeap c.heap c.live [] := by
    rw [clientHeap_iff, hblocks]
    exact h
  refine ⟨?_, fun ptr h0 hlo hhi size => krealloc_placement h.shape h0 hlo hhi size⟩
  intro p hp size hsize
  rcases krealloc_resizes hheap hp List.not_mem_nil hsize with hnull | ⟨r, t, hdone, hresized⟩
  · exact Or.inl hnull
  · refine Or.inr ⟨r, t, hdone, (hresized.heap.bounds List.mem_cons_self).1,
      clientHeap_iff.mp hresized.heap, hresized.fits, hresized.content, ?_, ?_⟩
    · intro hne hmem
      rcases List.mem_cons.mp hmem with heq | hmem
      · exact hne heq.symm
      · exact hheap.nodup.not_mem_erase hmem
    · intro q hq hne
      have hq' : q ∈ c.live.erase p := (List.mem_erase_of_ne hne).mpr hq
      have hkeeps := hresized.keeps q hq'
      exact ⟨List.mem_cons_of_mem r hq', hkeeps.size, hkeeps.bytes⟩

/-- A block of 100 bytes with another one behind it moves. -/
theorem krealloc_moves_a_block :
    ∃ c r t, run client_step ⟨startHeap, []⟩ [.kmalloc 100, .kmalloc 50] = some c ∧
      krealloc c.heap 0xC0300014 200 = .done r t ∧ 200 ≤ payload_size t r ∧
      ∀ i < payload_size c.heap 0xC0300014, t.mem (r + i) = c.heap.mem (0xC0300014 + i) := by
  have hrun : (run client_step ⟨startHeap, []⟩ [.kmalloc 100, .kmalloc 50]).any fun c =>
      decide (0xC0300014 ∈ c.live) &&
        (krealloc c.heap 0xC0300014 200).returns fun ptr _ => ptr != NULL := by
    decide +kernel
  obtain ⟨c, hcalls, hrun⟩ := (Option.any_eq_true _ _).mp hrun
  simp only [Bool.and_eq_true, decide_eq_true_eq] at hrun
  obtain ⟨hlive, hmoved⟩ := hrun
  have hlow : bootKheap.kheap_placement_memory + KHEAP_PLACEMENT_SIZE ≤ 0xC0300000 := by decide
  obtain ⟨hstart, -⟩ := start_invariant hlow (by decide) (rfl : _ = Outcome.done () startHeap)
  obtain ⟨⟨bs, hinv⟩, -⟩ := run_invariant ⟨_, hstart⟩ hcalls
  rcases (krealloc_keeps_the_contents_or_changes_nothing hinv).1 _ hlive 200 (by decide) with
    hnull | ⟨r, t, hdone, -, -, hfits, hcontent, -⟩
  · rw [hnull] at hmoved
    cases hmoved
  · exact ⟨c, r, t, hcalls, hdone, hfits, hcontent⟩

end sakana_os
