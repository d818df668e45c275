-- Whole runs of the heap: the blocks tile it after every call, and no call touches
-- the memory that another pointer holds.
import SakanaOS.HeapCalls

open byte_memory block_tiling runs

namespace sakana_os

/-! ## The pointers that clients hold -/

theorem live_took {l r : List Block} {b : Block} {live : List Nat} (size : Nat)
    (h : live.Perm ((used (l ++ b :: r)).map (Block.payload SIZEOF_HEAD))) (hb : b.free = true) :
    ((b.addr + 20) :: live).Perm
      ((used (l ++ (carve SIZEOF_HEAD size b ++ r))).map (Block.payload SIZEOF_HEAD)) := by
  have hused : used (l ++ b :: r) = used l ++ used r := by
    rw [used_append]
    simp [used, hb]
  rw [hused, List.map_append] at h
  rw [used_append, used_append, used_carve, List.singleton_append, List.map_append, List.map_cons]
  exact (h.cons _).trans List.perm_middle.symm

theorem live_freed {l r : List Block} {b : Block} {live : List Nat}
    (h : live.Perm ((used (l ++ b :: r)).map (Block.payload SIZEOF_HEAD))) (hb : b.free = false) :
    (live.erase (b.addr + 20)).Perm
      ((used (release SIZEOF_HEAD l b r)).map (Block.payload SIZEOF_HEAD)) := by
  have hused : used (l ++ b :: r) = used l ++ b :: used r := by
    rw [used_append]
    simp [used, hb]
  rw [hused, List.map_append, List.map_cons] at h
  rw [used_release, List.map_append]
  have hperm := (h.trans List.perm_middle).erase (b.addr + 20)
  have hhead : Block.payload SIZEOF_HEAD b = b.addr + 20 := rfl
  rw [hhead, List.erase_cons_head] at hperm
  exact hperm

/-! ## The invariant -/

/-- What a call does keeps the invariant. -/
theorem Did.invariant {c c' : Clients} {bs bs' : List Block} {call : HeapCall}
    (hdid : Did c bs call c' bs') (h : HeapInvariant c bs) : HeapInvariant c' bs' := by
  obtain ⟨hshape, hseal, hlive⟩ := h
  cases hdid with
  | nothing hperm => exact ⟨hshape, hseal, hperm.trans hlive⟩
  | took _ hbs hfree _ _ htook =>
    subst hbs
    exact ⟨htook.shape, htook.sealed hseal, live_took _ hlive hfree⟩
  | freed hptr hbs hused hfreed =>
    subst hbs hptr
    exact ⟨hfreed.shape, hfreed.sealed hseal, live_freed hlive hused⟩
  | @moved _ ptr l r l' r' b d t u s size init _ hptr hb hused hbs hfree _ _ htook _ hwrote hsplit
      hfreed =>
    subst hbs hptr
    have htaken : taken SIZEOF_HEAD size d ∈ l ++ (carve SIZEOF_HEAD size d ++ r) := by
      simp [taken_mem]
    have hsealu := hwrote.sealed htook.shape htaken (htook.sealed hseal)
    have hliveu := live_took size hlive hfree
    rw [hsplit] at hsealu hliveu
    have hne : d.addr + 20 ≠ b.addr + 20 := by
      intro heq
      have hbd := tiles_inj hshape.tiles (by decide) hb (by simp : d ∈ l ++ d :: r) (by omega)
      rw [hbd, hfree] at hused
      cases hused
    have hlive' := live_freed hliveu hused
    rw [List.erase_cons_tail (by simpa using hne)] at hlive'
    exact ⟨hfreed.shape, hfreed.sealed hsealu, hlive'⟩
  | stored hptr hb hused hin hs =>
    subst hptr hs
    have hwrote := wrote_store c.heap hin
    exact ⟨hwrote.shape hshape hb, hwrote.sealed hshape hb hseal, hlive⟩

theorem Did.place {c c' : Clients} {bs bs' : List Block} {call : HeapCall}
    (hdid : Did c bs call c' bs') : SamePlace c.heap c'.heap := by
  cases hdid with
  | nothing _ => exact SamePlace.refl _
  | took _ _ _ _ _ htook => exact htook.place
  | freed _ _ _ hfreed => exact hfreed.place
  | moved _ _ _ _ _ _ _ _ htook _ hwrote _ hfreed =>
    exact (htook.place.trans hwrote.place).trans hfreed.place
  | stored hptr hb hused hin hs =>
    subst hs
    exact ⟨rfl, rfl, rfl, rfl, rfl, rfl⟩

/-- The invariant holds of the heap that `kheap_init` leaves. -/
theorem start_invariant {s s₁ : Kheap} {base : Nat}
    (hlow : s.kheap_placement_memory + KHEAP_PLACEMENT_SIZE ≤ base)
    (hhigh : base + 2 * KHEAP_HEAP_SIZE + 400 < 4294967296)
    (hinit : kheap_init_at s base = .done () s₁) :
    HeapInvariant ⟨s₁, []⟩ [⟨base, KHEAP_HEAP_SIZE - SIZEOF_HEAD, true⟩] ∧
      s₁.kheap_base = base := by
  obtain ⟨t, ht, hbase, _, hshape, hseal, _⟩ := kheap_init_at_spec hlow hhigh
  rw [hinit] at ht
  cases ht
  exact ⟨⟨hshape, hseal, List.Perm.refl _⟩, hbase⟩

/-- Every run keeps the invariant. -/
theorem run_invariant {c c' : Clients} {calls : List HeapCall} (h : ∃ bs, HeapInvariant c bs)
    (hrun : run client_step c calls = some c') :
    (∃ bs, HeapInvariant c' bs) ∧ SamePlace c.heap c'.heap := by
  refine run_keeps (motive := fun d => (∃ bs, HeapInvariant d bs) ∧ SamePlace c.heap d.heap) ?_
    ⟨h, SamePlace.refl _⟩ hrun
  rintro d call d' ⟨⟨bs, hinv⟩, hplace⟩ hstep
  obtain ⟨bs', hdid⟩ := step_cases hinv hstep
  exact ⟨⟨bs', hdid.invariant hinv⟩, hplace.trans hdid.place⟩

/-- The payloads of two pointers that clients hold do not overlap. -/
theorem live_disjoint {c : Clients} {bs : List Block} (h : HeapInvariant c bs) :
    c.live.Pairwise fun p q =>
      p + payload_size c.heap p ≤ q ∨ q + payload_size c.heap q ≤ p := by
  rw [h.live.pairwise_iff fun hpq => hpq.symm, List.pairwise_map]
  have hsub : (used bs).Sublist bs := List.filter_sublist
  refine (((tiles_pairwise h.shape.tiles).sublist hsub).and
    (List.pairwise_of_forall_mem_list (r := fun a b => a ∈ bs ∧ b ∈ bs) ?_)).imp ?_
  · exact fun a ha b hb => ⟨hsub.subset ha, hsub.subset hb⟩
  · rintro a b ⟨hstop, ha, hb⟩
    left
    have hsize : payload_size c.heap (a.payload SIZEOF_HEAD) = a.size := by
      unfold payload_size Block.payload
      rw [Nat.add_sub_cancel]
      exact h.shape.headSize ha
    rw [hsize]
    unfold Block.payload
    exact Nat.le_trans hstop (Nat.le_add_right _ _)

/-- When clients hold nothing, the heap is one free block. -/
theorem nothing_live {c : Clients} {bs : List Block} (h : HeapInvariant c bs)
    (hlive : c.live = []) :
    bs = [⟨c.heap.kheap_base, KHEAP_HEAP_SIZE - SIZEOF_HEAD, true⟩] := by
  have hused : used bs = [] := by
    have hnil := h.live
    rw [hlive] at hnil
    exact List.map_eq_nil_iff.mp hnil.nil_eq.symm
  have hone := one_free_block h.shape.tiles h.shape.apart hused
    (Nat.lt_add_of_pos_right (by decide))
  rw [Nat.add_sub_cancel_left] at hone
  exact hone

theorem kfree_live_after {c c' : Clients} {ptr : Nat}
    (hstep : client_step c (.kfree ptr) = some c') : c'.live = c.live.erase ptr := by
  unfold client_step at hstep
  split at hstep
  · split at hstep
    · cases hstep
      rfl
    · cases hstep
  · cases hstep

/-- Clients can free all they hold, in any order. -/
theorem free_all {c : Clients} {bs : List Block} (h : HeapInvariant c bs) {order : List Nat}
    (hperm : order.Perm c.live) :
    ∃ c' bs', run client_step c (order.map HeapCall.kfree) = some c' ∧ c'.live = [] ∧
      SamePlace c.heap c'.heap ∧ HeapInvariant c' bs' := by
  induction order generalizing c bs with
  | nil => exact ⟨c, bs, rfl, hperm.nil_eq.symm, SamePlace.refl _, h⟩
  | cons ptr order ih =>
    have hmem : ptr ∈ c.live := hperm.subset (by simp)
    obtain ⟨c₁, bs₁, hstep, hdid⟩ := call_cases h (.kfree ptr) hmem
    have hperm₁ : order.Perm c₁.live := by
      rw [kfree_live_after hstep]
      have := hperm.erase ptr
      rwa [List.erase_cons_head] at this
    obtain ⟨c', bs', hrun, hnil, hplace, hinv⟩ := ih (hdid.invariant h) hperm₁
    refine ⟨c', bs', ?_, hnil, hdid.place.trans hplace, hinv⟩
    rw [List.map_cons, run_cons]
    exact ⟨c₁, hstep, hrun⟩

/-- From the heap that `kheap_init` leaves, the blocks of the list tile the heap after
every sequence of calls, those in use are the blocks of the pointers that clients
hold, every legal call returns, and to free all pointers, in any order, leads back
to the one free block of the start. -/
theorem blocks_tile_the_heap_after_every_run {s s₁ : Kheap} {base : Nat}
    (hlow : s.kheap_placement_memory + KHEAP_PLACEMENT_SIZE ≤ base)
    (hhigh : base + 2 * KHEAP_HEAP_SIZE + 400 < 4294967296)
    (hinit : kheap_init_at s base = .done () s₁) {calls : List HeapCall} {c : Clients}
    (hrun : run client_step ⟨s₁, []⟩ calls = some c) :
    HeapInvariant c (heap_blocks c.heap) ∧
      c.live.Pairwise (fun p q =>
        p + payload_size c.heap p ≤ q ∨ q + payload_size c.heap q ≤ p) ∧
      (∀ call : HeapCall, call.Legal c → ∃ c', client_step c call = some c') ∧
      ∀ order : List Nat, order.Perm c.live →
        ∃ c', run client_step c (order.map HeapCall.kfree) = some c' ∧ c'.live = [] ∧
          heap_blocks c'.heap = heap_blocks s₁ := by
  obtain ⟨hstart, hbase⟩ := start_invariant hlow hhigh hinit
  obtain ⟨⟨bs, hinv⟩, hplace⟩ := run_invariant ⟨_, hstart⟩ hrun
  rw [hinv.shape.blocks]
  refine ⟨hinv, live_disjoint hinv, fun call hlegal => ?_, fun order hperm => ?_⟩
  · obtain ⟨c', _, hstep, _⟩ := call_cases hinv call hlegal
    exact ⟨c', hstep⟩
  · obtain ⟨c', bs', hfree, hnil, hplace', hinv'⟩ := free_all hinv hperm
    refine ⟨c', hfree, hnil, ?_⟩
    rw [hinv'.shape.blocks, nothing_live hinv' hnil, hstart.shape.blocks, hplace'.base,
      hplace.base, hbase]

/-- The start of a kernel whose memory is cleared. -/
def bootKheap : Kheap := kheapStart 0xC0200000 fun _ => 0

/-- A heap of that kernel, right behind the placement area. -/
def startHeap : Kheap :=
  match kheap_init_at bootKheap 0xC0300000 with
  | .done _ s => s
  | _ => bootKheap

theorem blocks_tile_the_heap_after_a_sample_run :
    ∃ c, run client_step ⟨startHeap, []⟩
        [.kmalloc 100, .kmalloc 50, .store 0xC0300014 96 [1, 2, 3, 4],
          .krealloc 0xC0300014 200, .kfree 0xC030008C] = some c ∧
      HeapInvariant c (heap_blocks c.heap) := by
  obtain ⟨c, hrun⟩ := Option.isSome_iff_exists.mp (by decide +kernel :
    (run client_step ⟨startHeap, []⟩
        [.kmalloc 100, .kmalloc 50, .store 0xC0300014 96 [1, 2, 3, 4],
          .krealloc 0xC0300014 200, .kfree 0xC030008C]).isSome = true)
  have hlow : bootKheap.kheap_placement_memory + KHEAP_PLACEMENT_SIZE ≤ 0xC0300000 := by decide
  exact ⟨c, hrun, (blocks_tile_the_heap_after_every_run hlow (by decide) rfl hrun).1⟩

/-! ## What a call does not touch -/

/-- Taking a block leaves the other blocks in use where they are, with what they hold. -/
theorem Took.frame {s s' : Kheap} {l r : List Block} {b e : Block} {size : Nat} {init : Bool}
    (h : Took s s' l b r size init) (hs : Shape s (l ++ b :: r)) (hb : b.free = true)
    (hfit : size ≤ b.size) (he : e ∈ l ++ b :: r) (hused : e.free = false) :
    e ∈ l ++ (carve SIZEOF_HEAD size b ++ r) ∧
      ∀ x, e.addr + 20 ≤ x → x < e.addr + 20 + e.size → s'.mem x = s.mem x := by
  have hin : e ∈ l ++ (carve SIZEOF_HEAD size b ++ r) := by
    simp only [List.mem_append, List.mem_cons] at he ⊢
    rcases he with he | rfl | he
    · exact Or.inl he
    · rw [hb] at hused
      cases hused
    · exact Or.inr (Or.inr he)
  refine ⟨hin, fun x hx hx' => ?_⟩
  rw [h.mem x (h.shape.offHeads hin hx hx'), if_neg]
  rintro ⟨_, h1, h2⟩
  have hstop := (taken_fits SIZEOF_HEAD hfit).2
  have hdis := tiles_disjoint hs.tiles he (by simp : b ∈ l ++ b :: r)
  simp only [Block.stop, SIZEOF_HEAD] at hstop hdis h2
  have haddr : (taken 20 size b).addr = b.addr := rfl
  rcases hdis with rfl | hdis | hdis
  · rw [hb] at hused
    cases hused
  · omega
  · omega

/-- Freeing a block leaves the other blocks in use where they are, and what every
block in use holds. -/
theorem Freed.frame {s s' : Kheap} {l r : List Block} {b e : Block} (h : Freed s s' l b r)
    (hs : Shape s (l ++ b :: r)) (he : e ∈ l ++ b :: r) :
    (∀ f ∈ release SIZEOF_HEAD l b r, f.free = false → f.addr = e.addr → f = e) ∧
      ∀ x, e.addr + 20 ≤ x → x < e.addr + 20 + e.size → s'.mem x = s.mem x := by
  refine ⟨fun f hf hused haddr => ?_, fun x hx hx' => h.mem x (hs.offHeads he hx hx')⟩
  have hmem : f ∈ used (release SIZEOF_HEAD l b r) := mem_used.mpr ⟨hf, hused⟩
  rw [used_release, List.mem_append, mem_used, mem_used] at hmem
  refine tiles_inj hs.tiles (by decide) ?_ he haddr
  rcases hmem with ⟨hmem, _⟩ | ⟨hmem, _⟩
  · simp [hmem]
  · simp [hmem]

/-- A call leaves what a block in use holds, unless it stores into that block. And
when the block of that address is still in use, it is the same one. -/
theorem Did.frame {c c' : Clients} {bs bs' : List Block} {call : HeapCall}
    (hdid : Did c bs call c' bs') (h : HeapInvariant c bs) {e : Block} (he : e ∈ bs)
    (hused : e.free = false)
    (hother : ∀ offset bytes, call ≠ .store (e.addr + 20) offset bytes) :
    (∀ f ∈ bs', f.free = false → f.addr = e.addr → f = e) ∧
      ∀ x, e.addr + 20 ≤ x → x < e.addr + 20 + e.size → c'.heap.mem x = c.heap.mem x := by
  cases hdid with
  | nothing _ =>
    exact ⟨fun f hf _ haddr => tiles_inj h.shape.tiles (by decide) hf he haddr, fun _ _ _ => rfl⟩
  | took _ hbs hfree _ hfit htook =>
    subst hbs
    obtain ⟨hin, hmem⟩ := htook.frame h.shape hfree hfit he hused
    exact ⟨fun f hf _ haddr => tiles_inj htook.shape.tiles (by decide) hf hin haddr, hmem⟩
  | freed _ hbs _ hfreed =>
    subst hbs
    exact hfreed.frame h.shape he
  | @moved _ ptr l r l' r' b d t u s size init _ _ _ _ hbs hfree _ hfit htook _ hwrote hsplit
      hfreed =>
    subst hbs
    obtain ⟨hin, hmem⟩ := htook.frame h.shape hfree hfit he hused
    have htaken : taken SIZEOF_HEAD size d ∈ l ++ (carve SIZEOF_HEAD size d ++ r) := by
      simp [taken_mem]
    have hshapeu := hwrote.shape htook.shape htaken
    have hdis := tiles_disjoint htook.shape.tiles hin htaken
    have hne : e ≠ taken SIZEOF_HEAD size d := by
      intro heq
      have hd := tiles_inj h.shape.tiles (by decide) he (by simp : d ∈ l ++ d :: r)
        (by rw [heq]; rfl)
      rw [hd, hfree] at hused
      cases hused
    rw [hsplit] at hin hshapeu
    obtain ⟨hsame, hmem'⟩ := hfreed.frame hshapeu hin
    refine ⟨hsame, fun x hx hx' => ?_⟩
    rw [hmem' x hx hx', hwrote.mem x, hmem x hx hx']
    simp only [Block.stop, SIZEOF_HEAD] at hdis ⊢
    rcases hdis with hdis | hdis | hdis
    · exact absurd hdis hne
    · omega
    · omega
  | stored hptr hb _ hin hs =>
    subst hptr hs
    refine ⟨fun f hf _ haddr => tiles_inj h.shape.tiles (by decide) hf he haddr,
      fun x hx hx' => (wrote_store c.heap hin).mem x ?_⟩
    have hdis := tiles_disjoint h.shape.tiles he hb
    simp only [Block.stop, SIZEOF_HEAD] at hdis
    rcases hdis with rfl | hdis | hdis
    · exact absurd rfl (hother _ _)
    · omega
    · omega

/-- The same for the pointer that a client holds. -/
theorem Did.frame_live {c c' : Clients} {bs bs' : List Block} {call : HeapCall}
    (hdid : Did c bs call c' bs') (h : HeapInvariant c bs) {q : Nat} (hq : q ∈ c.live)
    (hother : ∀ offset bytes, call ≠ .store q offset bytes) :
    (q ∈ c'.live → payload_size c'.heap q = payload_size c.heap q) ∧
      ∀ x, q ≤ x → x < q + payload_size c.heap q → c'.heap.mem x = c.heap.mem x := by
  obtain ⟨l, e, r, hbs, hused, rfl, hsize⟩ := h.block hq
  obtain ⟨hsame, hmem⟩ := hdid.frame h (by simp [hbs]) hused hother
  rw [hsize]
  refine ⟨fun hq' => ?_, hmem⟩
  obtain ⟨l', f, r', hbs', husedf, haddr, hsize'⟩ := (hdid.invariant h).block hq'
  rw [hsize', hsame f (by simp [hbs']) husedf (by omega)]

/-- In every run, a call changes no byte that a pointer holds, unless it is a store
through that pointer, and leaves the size of each pointer that stays. What a call of
the heap writes lies in the block that it returns, or in no block in use at all. -/
theorem no_call_touches_the_memory_of_another_pointer {s s₁ : Kheap} {base : Nat}
    (hlow : s.kheap_placement_memory + KHEAP_PLACEMENT_SIZE ≤ base)
    (hhigh : base + 2 * KHEAP_HEAP_SIZE + 400 < 4294967296)
    (hinit : kheap_init_at s base = .done () s₁) {calls : List HeapCall} {c c' : Clients}
    (hrun : run client_step ⟨s₁, []⟩ calls = some c) {call : HeapCall}
    (hstep : client_step c call = some c') :
    (∀ q ∈ c.live, (∀ offset bytes, call ≠ .store q offset bytes) →
      (q ∈ c'.live → payload_size c'.heap q = payload_size c.heap q) ∧
      ∀ x, q ≤ x → x < q + payload_size c.heap q → c'.heap.mem x = c.heap.mem x) ∧
    ((∀ ptr offset bytes, call ≠ .store ptr offset bytes) →
      ∀ x, c'.heap.mem x ≠ c.heap.mem x →
        (∃ ret ∈ c'.live, ret ∉ c.live ∧ ret ≤ x ∧ x < ret + payload_size c'.heap ret) ∨
        (∀ q ∈ c.live, ¬ (q ≤ x ∧ x < q + payload_size c.heap q)) ∧
        ∀ q ∈ c'.live, ¬ (q ≤ x ∧ x < q + payload_size c'.heap q)) := by
  obtain ⟨hstart, _⟩ := start_invariant hlow hhigh hinit
  obtain ⟨⟨bs, hinv⟩, _⟩ := run_invariant ⟨_, hstart⟩ hrun
  obtain ⟨bs', hdid⟩ := step_cases hinv hstep
  refine ⟨fun q hq hother => hdid.frame_live hinv hq hother, fun hcall x hx => ?_⟩
  have hbefore : ∀ q ∈ c.live, ¬ (q ≤ x ∧ x < q + payload_size c.heap q) := by
    rintro q hq ⟨h1, h2⟩
    exact hx ((hdid.frame_live hinv hq (hcall q)).2 x h1 h2)
  by_cases hnew : ∃ ret ∈ c'.live, ret ∉ c.live ∧ ret ≤ x ∧ x < ret + payload_size c'.heap ret
  · exact Or.inl hnew
  · refine Or.inr ⟨hbefore, ?_⟩
    rintro q hq ⟨h1, h2⟩
    by_cases hold : q ∈ c.live
    · rw [(hdid.frame_live hinv hold (hcall q)).1 hq] at h2
      exact hbefore q hold ⟨h1, h2⟩
    · exact hnew ⟨q, hq, hold, h1, h2⟩

theorem a_free_touches_no_other_pointer :
    ∃ c c', run client_step ⟨startHeap, []⟩ [.kmalloc 100, .kmalloc 50] = some c ∧
      client_step c (.kfree 0xC0300014) = some c' ∧
      ∀ x, 0xC030008C ≤ x → x < 0xC030008C + payload_size c.heap 0xC030008C →
        c'.heap.mem x = c.heap.mem x := by
  obtain ⟨c', hrun⟩ := Option.isSome_iff_exists.mp (by decide +kernel :
    (run client_step ⟨startHeap, []⟩
      ([.kmalloc 100, .kmalloc 50] ++ [.kfree 0xC0300014])).isSome = true)
  obtain ⟨c, hrun, hstep⟩ := run_append.mp hrun
  obtain ⟨d, hstep, hd⟩ := run_cons.mp hstep
  cases hd
  have hlive : c.live = [0xC030008C, 0xC0300014] := by
    have hc : (run client_step ⟨startHeap, []⟩ [.kmalloc 100, .kmalloc 50]).map
        Clients.live = some [0xC030008C, 0xC0300014] := by decide +kernel
    rw [hrun] at hc
    exact Option.some.inj hc
  have hlow : bootKheap.kheap_placement_memory + KHEAP_PLACEMENT_SIZE ≤ 0xC0300000 := by decide
  exact ⟨c, c', hrun, hstep, ((no_call_touches_the_memory_of_another_pointer hlow (by decide) rfl
    hrun hstep).1 0xC030008C (by simp [hlive]) (by simp)).2⟩

end sakana_os
