-- What a client relies on for the blocks that it holds: their sizes and their bytes stay
-- when others call the heap, and it may write into them.
import SakanaOS.HeapRuns

open byte_memory block_tiling

namespace sakana_os

/-! ## The blocks after an allocation -/

/-- The blocks of a heap after an allocation of `size` bytes. -/
def afterTaking (size : Nat) (bs : List Block) : List Block :=
  match bestFit size bs with
  | none => bs
  | some b => bs.flatMap fun c => if c = b then carve SIZEOF_HEAD size b else [c]

theorem afterTaking_eq {l r : List Block} {b : Block} {size lo hi : Nat}
    (htiles : Tiles SIZEOF_HEAD lo (l ++ b :: r) hi)
    (hbest : bestFit size (l ++ b :: r) = some b) :
    afterTaking size (l ++ b :: r) = l ++ (carve SIZEOF_HEAD size b ++ r) := by
  have hpairs := tiles_pairwise htiles
  rw [List.pairwise_append, List.pairwise_cons] at hpairs
  obtain ⟨-, ⟨hright, -⟩, hleft⟩ := hpairs
  have hother : ∀ c ∈ l ++ r, c ≠ b := by
    rintro c hc rfl
    rcases List.mem_append.mp hc with hc | hc
    · have hstop := hleft c hc c List.mem_cons_self
      simp only [Block.stop, SIZEOF_HEAD] at hstop
      omega
    · have hstop := hright c hc
      simp only [Block.stop, SIZEOF_HEAD] at hstop
      omega
  have hkeep : ∀ t : List Block, (∀ c ∈ t, c ≠ b) →
      (t.flatMap fun c => if c = b then carve SIZEOF_HEAD size b else [c]) = t := by
    intro t ht
    induction t with
    | nil => rfl
    | cons c t ih =>
      rw [List.flatMap_cons, if_neg (ht c List.mem_cons_self),
        ih fun d hd => ht d (List.mem_cons_of_mem c hd)]
      rfl
  unfold afterTaking
  rw [hbest]
  simp only [List.flatMap_append, List.flatMap_cons, if_true]
  rw [hkeep l fun c hc => hother c (List.mem_append_left r hc),
    hkeep r fun c hc => hother c (List.mem_append_right l hc)]

/-! ## The magic of the other blocks -/

/-- Words that are the same have the same bytes. -/
theorem bytes_of_load32 {m m' : Mem} {a x : Nat} (h : load32 m' a = load32 m a) (hx : a ≤ x)
    (hx' : x < a + 4) : m' x = m x := by
  obtain ⟨h0, h1, h2, h3⟩ := load32_bytes m a
  obtain ⟨h0', h1', h2', h3'⟩ := load32_bytes m' a
  rw [h] at h0' h1' h2' h3'
  apply UInt8.toNat_inj.mp
  rcases show x = a ∨ x = a + 1 ∨ x = a + 2 ∨ x = a + 3 by omega with rfl | rfl | rfl | rfl
  · rw [h0, h0']
  · rw [h1, h1']
  · rw [h2, h2']
  · rw [h3, h3']

/-- A split writes no magic but that of the block that it makes. -/
theorem split_magic {s : Kheap} {l r : List Block} {b c : Block} (h : Shape s (l ++ b :: r))
    {size x : Nat} (hsize : size + 20 < b.size) (hc : c ∈ l ++ r) (hx : c.addr ≤ x)
    (hx' : x < c.addr + 4) :
    splitMem s.mem b.addr size (b.size - size - 20) (firstAddr NULL r) x = s.mem x := by
  obtain ⟨hleft, hright⟩ := h.toLaid.strung.beside
  rcases List.mem_append.mp hc with hc | hc
  · have hbefore := hleft c hc
    apply splitMem_frame
    · omega
    · omega
    · intro hne
      rcases r with _ | ⟨d, r⟩
      · exact absurd rfl hne
      · have hbehind := hright d List.mem_cons_self
        simp only [firstAddr]
        omega
  · have hbehind := hright c hc
    apply splitMem_frame
    · omega
    · omega
    · intro _
      rcases r with _ | ⟨d, r⟩
      · cases hc
      · simp only [firstAddr]
        have hdis := tiles_disjoint h.tiles (show c ∈ l ++ b :: d :: r by simp [hc])
          (show d ∈ l ++ b :: d :: r by simp)
        simp only [Block.stop, SIZEOF_HEAD] at hdis
        rcases hdis with rfl | hdis | hdis
        · omega
        · omega
        · omega

theorem kmalloc_magic {s s' : Kheap} {l r : List Block} {b : Block} (h : Shape s (l ++ b :: r))
    {size p : Nat} (hsize : size ≤ KHEAP_HEAP_SIZE) (hpos : size ≠ 0)
    (hbest : bestFit size (l ++ b :: r) = some b) (heq : kmalloc s size = .done p s')
    {c : Block} (hc : c ∈ l ++ r) {x : Nat} (hx : c.addr ≤ x) (hx' : x < c.addr + 4) :
    s'.mem x = s.mem x := by
  obtain ⟨hmem, hfit⟩ := bestFit_mem hbest
  obtain ⟨hbase, hhigh, hlo, hhi, -⟩ := h.inHeap hmem
  have hflag : MALLOC_FLAG_NULL &&& MALLOC_FLAG_ALIGN = 0 := rfl
  have hinit : MALLOC_FLAG_NULL &&& MALLOC_FLAG_INIT = 0 := rfl
  have hb0 : b.addr ≠ NULL := by
    show b.addr ≠ 0
    omega
  have hbh := (linked_at.mp h.linked).2.1
  have hrest : sub32 b.size size = b.size - size := sub32_eq hfit (by omega)
  unfold kmalloc kmalloc_base at heq
  rw [h.enabled, if_pos rfl] at heq
  unfold kmalloc_heap_base kmalloc_take at heq
  rw [if_neg hpos, hflag] at heq
  simp only [bne_self_eq_false, find_best_fit_spec h.toLaid hsize, hbest, bestAddr, hb0, hinit,
    hbh.size, hrest, ne_eq, not_true_eq_false, false_and, if_false, Outcome.done.injEq] at heq
  obtain ⟨-, rfl⟩ := heq
  by_cases hsplit : b.size - size > SIZEOF_HEAD
  · rw [if_pos hsplit]
    simp only [SIZEOF_HEAD] at hsplit
    rw [kmalloc_split_eq s b.addr size b.size _ hbh.next (firstAddr_lt (l := l ++ [b])
      (by simpa using h.toLaid)) (by omega) (by omega)]
    exact split_magic h (by omega) hc hx hx'
  · rw [if_neg hsplit]
    obtain ⟨hleft, hright⟩ := h.toLaid.strung.beside
    have hoff : x < b.addr ∨ b.addr + 20 ≤ x := by
      rcases List.mem_append.mp hc with hc | hc
      · have hbefore := hleft c hc
        omega
      · have hbehind := hright c hc
        omega
    exact store32_frame _ _ (by omega)

/-! ## What stays of a block -/

/-- The block of the pointer has the size, the bytes and the magic that it had. -/
structure Keeps (k k' : Kheap) (q : Nat) : Prop where
  size : payload_size k' q = payload_size k q
  bytes : ∀ x, q ≤ x → x < q + payload_size k q → k'.mem x = k.mem x
  magic : ∀ x, q ≤ x + 20 → x + 16 < q → k'.mem x = k.mem x

theorem Keeps.refl (k : Kheap) (q : Nat) : Keeps k k q :=
  ⟨rfl, fun _ _ _ => rfl, fun _ _ _ => rfl⟩

theorem Keeps.trans {k k₁ k₂ : Kheap} {q : Nat} (h : Keeps k k₁ q) (h' : Keeps k₁ k₂ q) :
    Keeps k k₂ q := by
  refine ⟨h'.size.trans h.size, fun x hx hx' => ?_, fun x hx hx' => ?_⟩
  · rw [h'.bytes x hx (by rwa [h.size]), h.bytes x hx hx']
  · rw [h'.magic x hx hx', h.magic x hx hx']

theorem Keeps.load32 {k k' : Kheap} {q : Nat} (h : Keeps k k' q) {offset : Nat}
    (hin : offset + 4 ≤ payload_size k q) :
    load32 k'.mem (q + offset) = load32 k.mem (q + offset) := by
  apply load32_congr
  intro x hx hx'
  exact h.bytes x (by omega) (by omega)

/-- What lies outside the heap stays, and the heap stays where it is. -/
structure SameOutside (k k' : Kheap) : Prop where
  place : SamePlace k k'
  mem : ∀ x, x < k.kheap_base ∨ k.kheap_base + KHEAP_HEAP_SIZE ≤ x → k'.mem x = k.mem x

theorem SameOutside.refl (k : Kheap) : SameOutside k k := ⟨SamePlace.refl k, fun _ _ => rfl⟩

theorem SameOutside.trans {k k₁ k₂ : Kheap} (h : SameOutside k k₁) (h' : SameOutside k₁ k₂) :
    SameOutside k k₂ := by
  refine ⟨h.place.trans h'.place, fun x hx => ?_⟩
  rw [h'.mem x (by rwa [h.place.base]), h.mem x hx]

theorem Laid.outside {k : Kheap} {bs : List Block} (h : Laid k bs) {x : Nat}
    (hx : x < k.kheap_base ∨ k.kheap_base + KHEAP_HEAP_SIZE ≤ x) : OffHeads bs x := by
  intro b hb
  obtain ⟨-, -, hlo, hhi, -⟩ := h.inHeap hb
  unfold KHEAP_HEAP_SIZE at hx
  omega

/-! ## The pointers that clients hold -/

/-- The heap of clients who hold the pointers `live`. The headers in front of the `pinned`
pointers may have lost the magic, so nobody may free these. -/
structure ClientHeap (k : Kheap) (live pinned : List Nat) : Prop where
  shape : Shape k (heap_blocks k)
  inUse : live.Perm ((used (heap_blocks k)).map (Block.payload SIZEOF_HEAD))
  sealed : ∀ b ∈ heap_blocks k, b.addr + 20 ∉ pinned → head_magic k.mem b.addr = KHEAP_MAGIC

/-- With nothing pinned, the heap is in order. -/
theorem clientHeap_iff {k : Kheap} {live : List Nat} :
    ClientHeap k live [] ↔ HeapInvariant ⟨k, live⟩ (heap_blocks k) := by
  constructor
  · intro h
    exact ⟨h.shape, fun b hb => h.sealed b hb List.not_mem_nil, h.inUse⟩
  · intro h
    exact ⟨h.shape, h.live, fun b hb _ => h.sealed b hb⟩

section

variable {k : Kheap} {live pinned : List Nat}

theorem ClientHeap.block (h : ClientHeap k live pinned) {p : Nat} (hp : p ∈ live) :
    ∃ l b r, heap_blocks k = l ++ b :: r ∧ b.free = false ∧ p = b.addr + 20 ∧
      payload_size k p = b.size := h.shape.live_block h.inUse hp

theorem ClientHeap.nodup (h : ClientHeap k live pinned) : live.Nodup := by
  rw [h.inUse.nodup_iff, List.Nodup, List.pairwise_map]
  have hsub : (used (heap_blocks k)).Sublist (heap_blocks k) := List.filter_sublist
  refine ((tiles_pairwise h.shape.tiles).sublist hsub).imp ?_
  intro a b hstop heq
  unfold Block.payload at heq
  unfold Block.stop SIZEOF_HEAD at hstop
  omega

/-- Where a pointer that a client holds can point. -/
theorem ClientHeap.bounds (h : ClientHeap k live pinned) {p : Nat} (hp : p ∈ live) :
    p ≠ NULL ∧ p + payload_size k p < 4294967296 ∧ k.kheap_base ≤ p ∧
      p + payload_size k p ≤ k.kheap_base + KHEAP_HEAP_SIZE := by
  obtain ⟨l, b, r, hbs, -, rfl, hsize⟩ := h.block hp
  obtain ⟨-, hhigh, hlo, hhi, -⟩ := h.shape.inHeap (show b ∈ heap_blocks k by simp [hbs])
  rw [hsize]
  unfold KHEAP_HEAP_SIZE
  exact ⟨Nat.succ_ne_zero _, by omega, by omega, hhi⟩

theorem ClientHeap.payload_lt (h : ClientHeap k live pinned) {p : Nat} (hp : p ∈ live) :
    payload_size k p < KHEAP_HEAP_SIZE := by
  obtain ⟨l, b, r, hbs, -, rfl, hsize⟩ := h.block hp
  obtain ⟨-, -, hlo, hhi, -⟩ := h.shape.inHeap (show b ∈ heap_blocks k by simp [hbs])
  rw [hsize]
  unfold KHEAP_HEAP_SIZE
  omega

/-- The blocks of two pointers lie apart. -/
theorem ClientHeap.apart (h : ClientHeap k live pinned) {p q : Nat} (hp : p ∈ live)
    (hq : q ∈ live) (hne : p ≠ q) :
    p + payload_size k p ≤ q ∨ q + payload_size k q ≤ p := by
  obtain ⟨l, b, r, hbs, -, rfl, hsizeb⟩ := h.block hp
  obtain ⟨l', c, r', hbs', -, rfl, hsizec⟩ := h.block hq
  have hb : b ∈ heap_blocks k := by simp [hbs]
  have hc : c ∈ heap_blocks k := by simp [hbs']
  have hdis := tiles_disjoint h.shape.tiles hb hc
  simp only [Block.stop, SIZEOF_HEAD] at hdis
  rw [hsizeb, hsizec]
  rcases hdis with rfl | hdis | hdis
  · exact absurd rfl hne
  · exact Or.inl (by omega)
  · exact Or.inr (by omega)

end

/-! ## What a step leaves -/

/-- The blocks keep their sizes and magics, and all but the `written` ones their bytes. -/
structure Leaves (k k' : Kheap) (live written : List Nat) : Prop where
  keeps : ∀ q ∈ live, q ∉ written → Keeps k k' q
  sizes : ∀ q ∈ live, payload_size k' q = payload_size k q
  magics : ∀ q ∈ live, ∀ x, q ≤ x + 20 → x + 16 < q → k'.mem x = k.mem x

/-- The blocks of the heap are as they were, and so is what clients rely on. -/
structure Kept (k k' : Kheap) (live pinned written : List Nat) : Prop
    extends Leaves k k' live written where
  heap : ClientHeap k' live pinned
  blocks : heap_blocks k' = heap_blocks k
  outside : SameOutside k k'

section

variable {k k' k'' : Kheap} {live live' pinned written written' : List Nat}

theorem leaves_of_keeps (h : ∀ q ∈ live, Keeps k k' q) : Leaves k k' live written :=
  ⟨fun q hq _ => h q hq, fun q hq => (h q hq).size, fun q hq => (h q hq).magic⟩

theorem Leaves.trans (h : Leaves k k' live written) (h' : Leaves k' k'' live written) :
    Leaves k k'' live written where
  keeps q hq hne := (h.keeps q hq hne).trans (h'.keeps q hq hne)
  sizes q hq := (h'.sizes q hq).trans (h.sizes q hq)
  magics q hq x hx hx' := (h'.magics q hq x hx hx').trans (h.magics q hq x hx hx')

/-- Fewer blocks, or more that may be written. -/
theorem Leaves.mono (h : Leaves k k' live' written') (hlive : ∀ q ∈ live, q ∈ live')
    (hwritten : ∀ q ∈ live, q ∉ written → q ∉ written') : Leaves k k' live written where
  keeps q hq hne := h.keeps q (hlive q hq) (hwritten q hq hne)
  sizes q hq := h.sizes q (hlive q hq)
  magics q hq := h.magics q (hlive q hq)

theorem Kept.refl (h : ClientHeap k live pinned) : Kept k k live pinned written :=
  ⟨leaves_of_keeps fun q _ => Keeps.refl k q, h, rfl, SameOutside.refl k⟩

theorem Kept.trans (h : Kept k k' live pinned written) (h' : Kept k' k'' live pinned written) :
    Kept k k'' live pinned written :=
  ⟨h.toLeaves.trans h'.toLeaves, h'.heap, h'.blocks.trans h.blocks, h.outside.trans h'.outside⟩

end

section

variable {k : Kheap} {live pinned : List Nat}

/-! ## The calls, for those who hold blocks -/

/-- What an allocation that returned `p` leaves to those who hold the pointers `live`. -/
structure Obtained (k k' : Kheap) (live pinned : List Nat) (size p : Nat) : Prop where
  best : ∃ b, bestFit size (heap_blocks k) = some b ∧ p = b.addr + 20 ∧ size ≤ b.size ∧
    payload_size k' p = (taken SIZEOF_HEAD size b).size
  blocks : heap_blocks k' = afterTaking size (heap_blocks k)
  heap : ClientHeap k' (p :: live) pinned
  keeps : ∀ q ∈ live, Keeps k k' q
  outside : SameOutside k k'

theorem Obtained.fits {k' : Kheap} {size p : Nat} (h : Obtained k k' live pinned size p) :
    size ≤ payload_size k' p := by
  obtain ⟨b, -, -, hfit, hsize⟩ := h.best
  rw [hsize]
  exact (taken_fits SIZEOF_HEAD hfit).1

theorem Obtained.fresh {k' : Kheap} {size p : Nat} (h : Obtained k k' live pinned size p) :
    p ∉ live := by
  have hnodup := h.heap.nodup
  rw [List.nodup_cons] at hnodup
  exact hnodup.1

theorem Took.client {k k' : Kheap} {l r : List Block} {b : Block} {size : Nat}
    (htook : Took k k' l b r size false) (h : ClientHeap k live pinned)
    (hmagic : ∀ c ∈ l ++ r, ∀ x, c.addr ≤ x → x < c.addr + 4 → k'.mem x = k.mem x)
    (hbs : heap_blocks k = l ++ b :: r) (hfree : b.free = true)
    (hfit : size ≤ b.size) (hbest : bestFit size (heap_blocks k) = some b) :
    Obtained k k' live pinned size (b.addr + 20) := by
  have hblocks := htook.shape.blocks
  have hshape := h.shape
  have hlive := h.inUse
  have hseal := h.sealed
  rw [hbs] at hshape hlive hseal
  have htaken : taken SIZEOF_HEAD size b ∈ l ++ (carve SIZEOF_HEAD size b ++ r) := by
    simp [taken_mem]
  have hlive' := live_took size hlive hfree
  have hframe : ∀ q ∈ live, Keeps k k' q := by
    intro q hq
    obtain ⟨l₀, e, r₀, hbs₀, hused, rfl, hsize⟩ := h.block hq
    have he : e ∈ l ++ b :: r := by
      rw [← hbs, hbs₀]
      simp
    obtain ⟨hin, hmem⟩ := htook.frame hshape hfree hfit he hused
    have hsize' := (htook.shape.live_pointer hlive' hin hused).2
    have heb : e ∈ l ++ r := by
      rcases List.mem_append.mp he with he | he
      · exact List.mem_append_left r he
      · rcases List.mem_cons.mp he with rfl | he
        · rw [hfree] at hused
          cases hused
        · exact List.mem_append_right l he
    exact ⟨hsize'.trans hsize.symm, fun x hx hx' => hmem x hx (by rwa [hsize] at hx'),
      fun x hx hx' => hmagic e heb x (by omega) (by omega)⟩
  have hout : SameOutside k k' := by
    refine ⟨htook.place, fun x hx => ?_⟩
    have hoff := htook.shape.outside (x := x) (by rwa [htook.place.base])
    rw [htook.mem x hoff, if_neg (fun hinit => Bool.false_ne_true hinit.1)]
  refine ⟨⟨b, hbest, rfl, hfit, (htook.shape.live_pointer hlive' htaken rfl).2⟩, ?_, ?_, hframe,
    hout⟩
  · have htiles := hshape.tiles
    rw [hbs] at hbest ⊢
    rw [hblocks]
    exact (afterTaking_eq htiles hbest).symm
  · refine ⟨?_, ?_, ?_⟩
    · rw [hblocks]
      exact htook.shape
    · rw [hblocks]
      exact hlive'
    · rw [hblocks]
      intro c hc hpin
      rcases htook.magic c hc with hm | ⟨d, hd, ha, hm⟩
      · exact hm
      · rw [hm, ← ha]
        exact hseal d hd (by rwa [ha])

/-- `kmalloc` returns the best fit, or nothing when no free block has the room. -/
theorem kmalloc_obtains (h : ClientHeap k live pinned) {size : Nat}
    (hsize : size ≤ KHEAP_HEAP_SIZE) :
    (kmalloc k size = .done NULL k ∧ (size = 0 ∨ bestFit size (heap_blocks k) = none)) ∨
      ∃ p k', kmalloc k size = .done p k' ∧ Obtained k k' live pinned size p := by
  have hflag : kmalloc k size = kmalloc_flag k size MALLOC_FLAG_NULL := rfl
  rw [hflag]
  rcases kmalloc_flag_spec h.shape hsize (show MALLOC_FLAG_NULL &&& MALLOC_FLAG_ALIGN = 0 by rfl)
    with hnone | ⟨l, b, r, k', hbs, hbest, hfree, hpos, hfit, heq, htook⟩
  · exact Or.inl hnone
  · have hshape := h.shape
    have hbest' := hbest
    rw [hbs] at hshape hbest'
    exact Or.inr ⟨b.addr + 20, k', heq, htook.client h
      (fun c hc x hx hx' => kmalloc_magic hshape hsize (Nat.ne_of_gt hpos) hbest' heq hc hx hx')
      hbs hfree hfit hbest⟩

/-- What `kmalloc` returns lies in a block that was free, and it does not touch the bytes there. -/
theorem kmalloc_bytes (h : ClientHeap k live pinned) {size p : Nat} {k' : Kheap}
    (hsize : size ≤ KHEAP_HEAP_SIZE) (heq : kmalloc k size = .done p k') (hp : p ≠ NULL) {x : Nat}
    (hx : p ≤ x) (hx' : x < p + size) :
    k'.mem x = k.mem x ∧
      ∃ b ∈ heap_blocks k, b.free = true ∧ b.addr + 20 ≤ x ∧ x < b.addr + 20 + b.size := by
  have hflag : kmalloc k size = kmalloc_flag k size MALLOC_FLAG_NULL := rfl
  rw [hflag] at heq
  rcases kmalloc_flag_spec h.shape hsize (show MALLOC_FLAG_NULL &&& MALLOC_FLAG_ALIGN = 0 by rfl)
    with ⟨hnull, -⟩ | ⟨l, b, r, k'', hbs, -, hfree, -, hfit, heq', htook⟩
  · rw [heq, Outcome.done.injEq] at hnull
    exact absurd hnull.1 hp
  · rw [heq, Outcome.done.injEq] at heq'
    obtain ⟨rfl, rfl⟩ := heq'
    refine ⟨?_, b, by simp [hbs], hfree, hx, by omega⟩
    have htaken : taken SIZEOF_HEAD size b ∈ l ++ (carve SIZEOF_HEAD size b ++ r) := by
      simp [taken_mem]
    have hroom := (taken_fits SIZEOF_HEAD hfit).1
    have hoff := htook.shape.offHeads htaken (x := x) hx
      (show x < b.addr + 20 + (taken SIZEOF_HEAD size b).size by omega)
    rw [htook.mem x hoff, if_neg (fun hinit => Bool.false_ne_true hinit.1)]

/-- Where a free block has the room, `kmalloc` returns a block. -/
theorem kmalloc_grants (h : ClientHeap k live pinned) {size : Nat} (hpos : size ≠ 0)
    (hbest : bestFit size (heap_blocks k) ≠ none) :
    ∃ p k', kmalloc k size = .done p k' ∧ Obtained k k' live pinned size p := by
  have hsize : size ≤ KHEAP_HEAP_SIZE := by
    obtain ⟨b, hb⟩ := Option.ne_none_iff_exists'.mp hbest
    obtain ⟨hmem, hfit⟩ := bestFit_mem hb
    obtain ⟨-, -, hlo, hhi, -⟩ := h.shape.inHeap hmem
    unfold KHEAP_HEAP_SIZE
    omega
  rcases kmalloc_obtains h hsize with ⟨-, hnone⟩ | hgot
  · rcases hnone with hzero | hnone
    · exact absurd hzero hpos
    · exact absurd hnone hbest
  · exact hgot

/-- `kfree` of a pointer that a client holds returns. What its block held is still there
afterwards. -/
theorem kfree_gives_back (h : ClientHeap k live pinned) {p : Nat} (hp : p ∈ live)
    (hpin : p ∉ pinned) :
    ∃ k', kfree k p = .done () k' ∧ ClientHeap k' (live.erase p) pinned ∧
      (∀ q ∈ live.erase p, Keeps k k' q) ∧
      (∀ x, p ≤ x → x < p + payload_size k p → k'.mem x = k.mem x) ∧ SameOutside k k' := by
  obtain ⟨l, b, r, hbs, hused, rfl, hsizeb⟩ := h.block hp
  have hb : b ∈ heap_blocks k := by simp [hbs]
  have hshape := h.shape
  have hlive := h.inUse
  have hseal := h.sealed
  rw [hbs] at hshape hlive
  have hfreed := kfree_block_spec hshape
  have hblocks := hfreed.shape.blocks
  have hlive' := live_freed hlive hused
  refine ⟨_, kfree_live hshape.toLaid (hseal b hb hpin) hused, ⟨?_, ?_, ?_⟩, ?_, ?_, ?_⟩
  · rw [hblocks]
    exact hfreed.shape
  · rw [hblocks]
    exact hlive'
  · rw [hblocks]
    intro c hc hcpin
    obtain ⟨d, hd, ha⟩ := release_addr hc
    rw [hfreed.magic c hc, ← ha]
    exact hseal d (by rwa [hbs]) (by rwa [ha])
  · intro q hq
    obtain ⟨l₀, e, r₀, hbs₀, husede, rfl, hsize⟩ := h.block (List.mem_of_mem_erase hq)
    have he : e ∈ l ++ b :: r := by
      rw [← hbs, hbs₀]
      simp
    obtain ⟨hsame, hmem⟩ := hfreed.frame hshape he
    obtain ⟨l₁, f, r₁, hbs₁, husedf, haddr, hsizef⟩ := hfreed.shape.live_block hlive' hq
    have hf : f = e := hsame f (by simp [hbs₁]) husedf (by omega)
    refine ⟨by rw [hsizef, hf, hsize], fun x hx hx' => hmem x hx (by rwa [hsize] at hx'), ?_⟩
    intro x hx hx'
    exact bytes_of_load32 (hfreed.magic f (by simp [hbs₁])) (by omega) (by omega)
  · intro x hx hx'
    exact (hfreed.frame hshape (show b ∈ l ++ b :: r by simp)).2 x hx (by rwa [hsizeb] at hx')
  · refine ⟨hfreed.place, fun x hx => ?_⟩
    exact hfreed.mem x (hshape.outside hx)

/-- The blocks after `kfree`, around the block that the pointer names. -/
theorem kfree_releases (h : ClientHeap k live pinned) {p : Nat} (hp : p ∈ live)
    (hpin : p ∉ pinned) {l r : List Block} {b : Block} (hbs : heap_blocks k = l ++ b :: r)
    (haddr : p = b.addr + 20) {k' : Kheap} (heq : kfree k p = .done () k') :
    heap_blocks k' = release SIZEOF_HEAD l b r := by
  have hb : b ∈ heap_blocks k := by simp [hbs]
  obtain ⟨l', c, r', hbs', hused, hpc, -⟩ := h.block hp
  obtain rfl : b = c := tiles_inj h.shape.tiles (by decide) hb (by simp [hbs']) (by omega)
  have hseal := h.sealed b hb (haddr ▸ hpin)
  have hshape := h.shape
  rw [hbs] at hshape
  rw [haddr, kfree_live hshape.toLaid hseal hused] at heq
  cases heq
  exact (kfree_block_spec hshape).shape.blocks

/-- A block that was allocated and is given back leaves the blocks as they were. -/
theorem Obtained.returned {k₁ k₂ : Kheap} {size p : Nat} (h : ClientHeap k live pinned)
    (hgot : Obtained k k₁ live pinned size p) (h₂ : ClientHeap k₂ (p :: live) pinned)
    (hblocks : heap_blocks k₂ = heap_blocks k₁) (hpin : p ∉ pinned) :
    ∃ k₃, kfree k₂ p = .done () k₃ ∧ ClientHeap k₃ live pinned ∧ heap_blocks k₃ = heap_blocks k ∧
      (∀ q ∈ live, Keeps k₂ k₃ q) ∧ SameOutside k₂ k₃ := by
  obtain ⟨k₃, heq, hheap, hkeeps, -, hout⟩ := kfree_gives_back h₂ List.mem_cons_self hpin
  rw [List.erase_cons_head] at hheap hkeeps
  refine ⟨k₃, heq, hheap, ?_, hkeeps, hout⟩
  obtain ⟨b, hbest, haddr, hfit, -⟩ := hgot.best
  obtain ⟨l, r, hbs, hfree, -⟩ := bestFit_some hbest
  have htiles := h.shape.tiles
  have hapart := h.shape.apart
  have hafter := hgot.blocks
  rw [hbs] at htiles hapart hafter hbest
  rw [afterTaking_eq htiles hbest] at hafter
  have hbs₂ : heap_blocks k₂ = l ++ taken SIZEOF_HEAD size b ::
      ((carve SIZEOF_HEAD size b).tail ++ r) := hblocks.trans hafter
  rw [kfree_releases h₂ List.mem_cons_self hpin hbs₂ haddr heq, hbs]
  exact release_carve hapart hfree hfit

/-- The payloads hold no byte of a header. -/
theorem write_heads (h : ClientHeap k live pinned) {own : List Nat} (hown : ∀ p ∈ own, p ∈ live)
    {m : Mem} (hm : ∀ x, (∀ p ∈ own, x < p ∨ p + payload_size k p ≤ x) → m x = k.mem x) :
    SameHeads k.mem m (heap_blocks k) := by
  intro c hc x hx hx'
  apply hm
  intro p hp
  obtain ⟨l, b, r, hbs, -, rfl, hsize⟩ := h.block (hown p hp)
  rw [hsize]
  by_contra hin
  rcases h.shape.offHeads (show b ∈ heap_blocks k by simp [hbs]) (x := x) (by omega) (by omega)
    c hc with hoff | hoff
  · omega
  · omega

/-- The heap is the same in a memory with the same headers. -/
theorem ClientHeap.congr (h : ClientHeap k live pinned) {m : Mem}
    (hheads : SameHeads k.mem m (heap_blocks k)) :
    ClientHeap { k with mem := m } live pinned ∧
      heap_blocks { k with mem := m } = heap_blocks k ∧
      ∀ q ∈ live, payload_size { k with mem := m } q = payload_size k q := by
  have hshape : Shape { k with mem := m } (heap_blocks k) :=
    ⟨h.shape.update ⟨rfl, rfl, rfl, rfl, rfl, rfl⟩ h.shape.tail h.shape.tiles
      (linked_congr h.shape.linked hheads) h.shape.roomy, h.shape.apart⟩
  have hblocks := hshape.blocks
  refine ⟨⟨?_, ?_, ?_⟩, hblocks, ?_⟩
  · rw [hblocks]
    exact hshape
  · rw [hblocks]
    exact h.inUse
  · rw [hblocks]
    intro c hc hpin
    rw [← h.sealed c hc hpin]
    exact load32_congr fun x hx hx' => hheads c hc x hx (by omega)
  · intro q hq
    obtain ⟨l', c, r', hbs', hused, rfl, hsizec⟩ := h.block hq
    have hc : c ∈ heap_blocks k := by simp [hbs']
    exact (hshape.live_pointer h.inUse hc hused).2.trans hsizec.symm

/-- The memory may change inside the blocks that a client holds. -/
theorem write_keeps (h : ClientHeap k live pinned) {own : List Nat}
    (hown : ∀ p ∈ own, p ∈ live) {m : Mem}
    (hm : ∀ x, (∀ p ∈ own, x < p ∨ p + payload_size k p ≤ x) → m x = k.mem x) :
    Kept k { k with mem := m } live pinned own := by
  have hheads := write_heads h hown hm
  obtain ⟨hheap, hblocks, hsizes⟩ := h.congr hheads
  have hmagics : ∀ q ∈ live, ∀ x, q ≤ x + 20 → x + 16 < q → m x = k.mem x := by
    intro q hq x hx hx'
    obtain ⟨l', c, r', hbs', -, rfl, -⟩ := h.block hq
    exact hheads c (by simp [hbs']) x (by omega) (by omega)
  refine ⟨⟨?_, hsizes, hmagics⟩, hheap, hblocks, ⟨rfl, rfl, rfl, rfl, rfl, rfl⟩, ?_⟩
  · intro q hq hne
    refine ⟨hsizes q hq, fun x hx hx' => hm x fun p hp => ?_, hmagics q hq⟩
    have hdis := h.apart (hown p hp) hq (fun heq => hne (heq ▸ hp))
    omega
  · intro x hx
    apply hm
    intro p hp
    have hbounds := h.bounds (hown p hp)
    omega

/-- What was asked for may be filled. -/
theorem Obtained.filled {k' : Kheap} {size p : Nat} (h : Obtained k k' live pinned size p)
    {m : Mem} (hm : ∀ x, x < p ∨ p + size ≤ x → m x = k'.mem x) :
    Obtained k { k' with mem := m } live pinned size p := by
  have hfits := h.fits
  have hframe : ∀ x, (∀ q ∈ [p], x < q ∨ q + payload_size k' q ≤ x) → m x = k'.mem x := by
    intro x hx
    have hxp := hx p (List.mem_singleton_self p)
    exact hm x (by omega)
  have hown : ∀ q ∈ [p], q ∈ p :: live := by
    intro q hq
    rw [List.mem_singleton.mp hq]
    exact List.mem_cons_self
  have hkept := write_keeps h.heap hown hframe
  obtain ⟨b, hbest, haddr, hfit, hsize⟩ := h.best
  refine ⟨⟨b, hbest, haddr, hfit, ?_⟩, hkept.blocks.trans h.blocks, hkept.heap,
    fun q hq => (h.keeps q hq).trans (hkept.keeps q (List.mem_cons_of_mem p hq) ?_),
    h.outside.trans hkept.outside⟩
  · rw [hkept.sizes p List.mem_cons_self, hsize]
  · intro hmem
    rw [List.mem_singleton.mp hmem] at hq
    exact h.fresh hq

end

/-- The heap of the boot, of which nobody holds a block. -/
theorem startHeap_client : ClientHeap startHeap [] [] := by
  have hlow : bootKheap.kheap_placement_memory + KHEAP_PLACEMENT_SIZE ≤ 0xC0300000 := by decide
  have hinit : kheap_init_at bootKheap 0xC0300000 = .done () startHeap := rfl
  obtain ⟨hinv, -⟩ := start_invariant hlow (by decide) hinit
  rw [clientHeap_iff, hinv.shape.blocks]
  exact hinv

end sakana_os
