-- The list of heap blocks as it stands in memory, and what `kmalloc` and
-- `kfree` do to it: they carve and release blocks of a tiling of the heap.
import SakanaOS.BlockTiling
import SakanaOS.Heap

open byte_memory block_tiling

namespace sakana_os

/-! ## The list in memory -/

/-- The address of the first block of a list, or `n` when there is none. -/
def firstAddr (n : Nat) : List Block → Nat
  | [] => n
  | b :: _ => b.addr

/-- The address of the last block of a list, or `p` when there is none. -/
def lastAddr (p : Nat) : List Block → Nat
  | [] => p
  | b :: bs => lastAddr b.addr bs

/-- The header at `b.addr` is the one of `b`, between the headers at `p` and `n`. -/
structure HeadIs (m : Mem) (b : Block) (p n : Nat) : Prop where
  size : head_size m b.addr = b.size
  free : head_free m b.addr = b.free.toNat
  prev : head_prev m b.addr = p
  next : head_next m b.addr = n

/-- The headers of a list stand in memory, linked both ways, behind the block
at `p` and before the block at `n`. -/
def Linked (m : Mem) (p : Nat) : List Block → Nat → Prop
  | [], _ => True
  | b :: bs, n => HeadIs m b p (firstAddr n bs) ∧ Linked m b.addr bs n

/-- The memories agree on every header of a list. -/
def SameHeads (m m' : Mem) (bs : List Block) : Prop :=
  ∀ b ∈ bs, ∀ x, b.addr ≤ x → x < b.addr + 20 → m' x = m x

/-- The address lies in no header of a list. -/
def OffHeads (bs : List Block) (x : Nat) : Prop := ∀ b ∈ bs, x < b.addr ∨ b.addr + 20 ≤ x

/-- The magic is no part of what the list needs of a header. -/
theorem headIs_congr {m m' : Mem} {b : Block} {p n : Nat} (h : HeadIs m b p n)
    (hm : ∀ x, b.addr + 4 ≤ x → x < b.addr + 20 → m' x = m x) : HeadIs m' b p n := by
  obtain ⟨h1, h2, h3, h4⟩ := h
  refine ⟨?_, ?_, ?_, ?_⟩
  · rw [← h1]
    exact load32_congr fun x hx hx' => hm x (by omega) (by omega)
  · rw [← h2]
    exact load32_congr fun x hx hx' => hm x (by omega) (by omega)
  · rw [← h3]
    exact load32_congr fun x hx hx' => hm x (by omega) (by omega)
  · rw [← h4]
    exact load32_congr fun x hx hx' => hm x (by omega) (by omega)

theorem linked_congr_links {m m' : Mem} {p n : Nat} {bs : List Block} (h : Linked m p bs n)
    (hm : ∀ b ∈ bs, ∀ x, b.addr + 4 ≤ x → x < b.addr + 20 → m' x = m x) : Linked m' p bs n := by
  induction bs generalizing p with
  | nil => trivial
  | cons b bs ih =>
    obtain ⟨h1, h2⟩ := h
    exact ⟨headIs_congr h1 (hm b (by simp)), ih h2 fun c hc => hm c (by simp [hc])⟩

theorem linked_congr {m m' : Mem} {p n : Nat} {bs : List Block} (h : Linked m p bs n)
    (hm : SameHeads m m' bs) : Linked m' p bs n :=
  linked_congr_links h fun b hb x hx hx' => hm b hb x (by omega) hx'

@[simp] theorem firstAddr_append (n : Nat) (l r : List Block) :
    firstAddr n (l ++ r) = firstAddr (firstAddr n r) l := by
  cases l <;> rfl

@[simp] theorem lastAddr_append (p : Nat) (l r : List Block) :
    lastAddr p (l ++ r) = lastAddr (lastAddr p l) r := by
  induction l generalizing p with
  | nil => rfl
  | cons b l ih => exact ih _

/-- The last block is one of the list, when there is one. -/
theorem lastAddr_mem (p : Nat) (l : List Block) :
    lastAddr p l = p ∨ ∃ d ∈ l, lastAddr p l = d.addr := by
  rcases List.eq_nil_or_concat l with rfl | ⟨l, d, rfl⟩
  · exact Or.inl rfl
  · exact Or.inr ⟨d, by simp, by simp [List.concat_eq_append, lastAddr]⟩

theorem linked_append {m : Mem} {p n : Nat} {l r : List Block} :
    Linked m p (l ++ r) n ↔ Linked m p l (firstAddr n r) ∧ Linked m (lastAddr p l) r n := by
  induction l generalizing p with
  | nil => simp [Linked, lastAddr]
  | cons b l ih =>
    simp only [List.cons_append, Linked, lastAddr, ih, firstAddr_append]
    tauto

/-- A list linked behind another block: only the `prev` of its first block changes. -/
theorem linked_reprev {m m' : Mem} {p p' n : Nat} {c : Block} {r : List Block}
    (h : Linked m p (c :: r) n) (hc : HeadIs m' c p' (firstAddr n r))
    (hr : SameHeads m m' r) : Linked m' p' (c :: r) n :=
  ⟨hc, linked_congr h.2 hr⟩

/-! ## The shape of the heap -/

/-- The blocks `bs` are the heap of `s`: they tile it, and the list that starts
at `kheap_head` runs through them and ends at `kheap_tail`. -/
structure Laid (s : Kheap) (bs : List Block) : Prop where
  low : s.kheap_placement_memory + KHEAP_PLACEMENT_SIZE ≤ s.kheap_base
  high : s.kheap_base + 2 * KHEAP_HEAP_SIZE + 400 < 4294967296
  enabled : s.kheap_enabled = true
  head : s.kheap_head = s.kheap_base
  tail : s.kheap_tail = lastAddr NULL bs
  tiles : Tiles SIZEOF_HEAD s.kheap_base bs (s.kheap_base + KHEAP_HEAP_SIZE)
  linked : Linked s.mem NULL bs NULL
  roomy : Roomy bs

/-- Between two calls, free blocks are also apart. -/
structure Shape (s : Kheap) (bs : List Block) : Prop extends Laid s bs where
  apart : Apart bs

/-- Every block carries the magic. -/
def Sealed (s : Kheap) (bs : List Block) : Prop :=
  ∀ b ∈ bs, head_magic s.mem b.addr = KHEAP_MAGIC

/-- The part of `Laid` that does not depend on where the heap lies in the address space,
and that blocks without room for a byte do not break. -/
structure Strung (s : Kheap) (bs : List Block) : Prop where
  enabled : s.kheap_enabled = true
  base_pos : 0 < s.kheap_base
  top : s.kheap_base + KHEAP_HEAP_SIZE ≤ 4294967296
  head : s.kheap_head = s.kheap_base
  tail : s.kheap_tail = lastAddr NULL bs
  tiles : Tiles SIZEOF_HEAD s.kheap_base bs (s.kheap_base + KHEAP_HEAP_SIZE)
  linked : Linked s.mem NULL bs NULL

theorem Laid.strung {s : Kheap} {bs : List Block} (h : Laid s bs) : Strung s bs := by
  have hlow := h.low
  have hhigh := h.high
  simp only [KHEAP_PLACEMENT_SIZE, KHEAP_HEAP_SIZE] at hlow hhigh
  refine ⟨h.enabled, by omega, ?_, h.head, h.tail, h.tiles, h.linked⟩
  unfold KHEAP_HEAP_SIZE
  omega

/-- The bounds of a block. -/
theorem Strung.bounds {s : Kheap} {bs : List Block} (h : Strung s bs) {b : Block} (hb : b ∈ bs) :
    0 < s.kheap_base ∧ s.kheap_base ≤ b.addr ∧ b.addr + 20 + b.size ≤ s.kheap_base + 33554432 ∧
      s.kheap_base + 33554432 ≤ 4294967296 := by
  have hmem := tiles_mem h.tiles hb
  have htop := h.top
  simp only [KHEAP_HEAP_SIZE, SIZEOF_HEAD, Block.stop] at hmem htop
  exact ⟨h.base_pos, hmem.1, hmem.2, htop⟩

theorem Strung.addr_ne {s : Kheap} {bs : List Block} (h : Strung s bs) {b : Block}
    (hb : b ∈ bs) : b.addr ≠ NULL := by
  obtain ⟨h1, h2, -, -⟩ := h.bounds hb
  show b.addr ≠ 0
  omega

theorem Strung.length_lt {s : Kheap} {bs : List Block} (h : Strung s bs) :
    bs.length < KHEAP_HEAP_SIZE := by
  have hlen := tiles_length h.tiles
  simp only [SIZEOF_HEAD, KHEAP_HEAP_SIZE] at hlen ⊢
  omega

/-- The head of the list is its first block. -/
theorem Strung.first {s : Kheap} {bs : List Block} (h : Strung s bs) :
    s.kheap_head = firstAddr NULL bs := by
  have h1 := h.tiles
  rw [h.head]
  rcases bs with _ | ⟨b, bs⟩
  · simp only [Tiles, KHEAP_HEAP_SIZE] at h1
    omega
  · exact h1.1.symm

/-- The states differ in the memory and the tail only. -/
structure SamePlace (s s' : Kheap) : Prop where
  placement : s'.kheap_placement_memory = s.kheap_placement_memory
  placement_head : s'.kheap_placement_memory_head = s.kheap_placement_memory_head
  placement_free : s'.kheap_placement_memory_free_memory = s.kheap_placement_memory_free_memory
  enabled : s'.kheap_enabled = s.kheap_enabled
  base : s'.kheap_base = s.kheap_base
  head : s'.kheap_head = s.kheap_head

theorem SamePlace.refl (s : Kheap) : SamePlace s s := ⟨rfl, rfl, rfl, rfl, rfl, rfl⟩

theorem SamePlace.trans {s t u : Kheap} (h : SamePlace s t) (h' : SamePlace t u) :
    SamePlace s u :=
  ⟨h'.placement.trans h.placement, h'.placement_head.trans h.placement_head,
    h'.placement_free.trans h.placement_free, h'.enabled.trans h.enabled,
    h'.base.trans h.base, h'.head.trans h.head⟩

/-- The bounds of a block, as plain numbers. -/
structure InHeap (base : Nat) (b : Block) : Prop where
  base_pos : 0 < base
  base_high : base + 67109264 < 4294967296
  lo : base ≤ b.addr
  hi : b.addr + 20 + b.size ≤ base + 33554432
  room : 0 < b.size

theorem Laid.inHeap {s : Kheap} {bs : List Block} (h : Laid s bs) {b : Block} (hb : b ∈ bs) :
    InHeap s.kheap_base b := by
  have h1 := h.low
  have h2 := h.high
  have h3 := tiles_mem h.tiles hb
  simp only [KHEAP_PLACEMENT_SIZE, KHEAP_HEAP_SIZE, SIZEOF_HEAD, Block.stop] at h1 h2 h3
  exact ⟨by omega, by omega, h3.1, h3.2, h.roomy b hb⟩

/-- Where the other blocks are, from the block between `l` and `r`. -/
theorem tiles_beside {lo hi : Nat} {l r : List Block} {b : Block}
    (h : Tiles SIZEOF_HEAD lo (l ++ b :: r) hi) :
    (∀ c ∈ l, c.addr + 20 + c.size ≤ b.addr) ∧ ∀ c ∈ r, b.addr + 20 + b.size ≤ c.addr := by
  have h1 := tiles_apart h
  simpa only [SIZEOF_HEAD, Block.stop] using h1

theorem Laid.beside {s : Kheap} {l r : List Block} {b : Block} (h : Laid s (l ++ b :: r)) :
    (∀ c ∈ l, c.addr + 20 + c.size ≤ b.addr) ∧ ∀ c ∈ r, b.addr + 20 + b.size ≤ c.addr :=
  tiles_beside h.tiles

/-- The blocks of a state with another memory and another tail. -/
theorem Laid.update {s s' : Kheap} {bs bs' : List Block} (h : Laid s bs) (hp : SamePlace s s')
    (ht : s'.kheap_tail = lastAddr NULL bs')
    (htiles : Tiles SIZEOF_HEAD s.kheap_base bs' (s.kheap_base + KHEAP_HEAP_SIZE))
    (hl : Linked s'.mem NULL bs' NULL) (hr : Roomy bs') : Laid s' bs' := by
  refine ⟨?_, ?_, ?_, ?_, ht, ?_, hl, hr⟩
  · rw [hp.placement, hp.base]
    exact h.low
  · rw [hp.base]
    exact h.high
  · rw [hp.enabled]
    exact h.enabled
  · rw [hp.head, hp.base]
    exact h.head
  · rw [hp.base]
    exact htiles

theorem Laid.first {s : Kheap} {bs : List Block} (h : Laid s bs) :
    s.kheap_head = firstAddr NULL bs := h.strung.first

/-- No payload overlaps a header. -/
theorem Laid.offHeads {s : Kheap} {bs : List Block} (h : Laid s bs) {b : Block} (hb : b ∈ bs)
    {x : Nat} (hx : b.addr + 20 ≤ x) (hx' : x < b.addr + 20 + b.size) : OffHeads bs x := by
  intro c hc
  have hdis := tiles_disjoint h.tiles hb hc
  simp only [Block.stop, SIZEOF_HEAD] at hdis
  rcases hdis with rfl | hdis | hdis <;> omega

theorem Laid.headSize {s : Kheap} {bs : List Block} (h : Laid s bs) {b : Block} (hb : b ∈ bs) :
    head_size s.mem b.addr = b.size := by
  obtain ⟨l, r, rfl⟩ := List.append_of_mem hb
  exact (linked_append.mp h.linked).2.1.size

/-! ## The search for a block -/

/-- The address of the best block so far, as the loop keeps it. -/
def bestAddr : Option Block → Nat
  | none => NULL
  | some b => b.addr

/-- The sums of a turn say that `size` bytes fit in the block, with or without alignment. -/
def RoomFor (size : Nat) (align : Bool) (b : Block) : Prop :=
  let data_addr := add32 b.addr (SIZEOF_HEAD * SIZEOF_HEAD)
  let start :=
    if align ∧ ¬ paging_is_aligned_address data_addr then
      paging_align_address_up (add32 data_addr SIZEOF_HEAD)
    else data_addr
  add32 start size ≤ add32 data_addr b.size

instance (size : Nat) (align : Bool) (b : Block) : Decidable (RoomFor size align b) :=
  Nat.decLe _ _

/-- The block that the search settles on. -/
def chosenBlock (size : Nat) (align : Bool) (bs : List Block) : Option Block :=
  bestOf (fun b => b.free = true ∧ RoomFor size align b) bs

/-- A turn keeps the better of the two blocks. -/
theorem find_best_fit_turn_spec {m : Mem} {size p n : Nat} {align : Bool} {b : Block}
    (best : Option Block) (hb : HeadIs m b p n)
    (hbest : ∀ c ∈ best, head_size m c.addr = c.size ∧ c.addr ≠ NULL) :
    kheap_find_best_fit_turn m size align b.addr (bestAddr best) =
      bestAddr (betterOf (fun b => b.free = true ∧ RoomFor size align b) best b) := by
  have hlt : (bestAddr best = NULL ∨ b.size < head_size m (bestAddr best)) ↔
      ∀ c ∈ best, b.size < c.size := by
    rcases best with _ | c
    · simp [bestAddr]
    · obtain ⟨hc, hc0⟩ := hbest c rfl
      simp [bestAddr, hc, hc0]
  unfold kheap_find_best_fit_turn betterOf
  simp only [hb.size, hb.free, hlt]
  by_cases hfree : b.free = true
  · have hword : b.free.toNat ≠ 0 := by
      rw [hfree]
      decide
    rw [if_pos hword]
    by_cases hroom : RoomFor size align b
    · have hsums := hroom
      unfold RoomFor at hsums
      rw [if_pos hsums]
      by_cases hbetter : ∀ c ∈ best, b.size < c.size
      · rw [if_pos hbetter, if_pos ⟨⟨hfree, hroom⟩, hbetter⟩]
        rfl
      · rw [if_neg hbetter, if_neg (fun h => hbetter h.2)]
    · have hsums := hroom
      unfold RoomFor at hsums
      rw [if_neg hsums, if_neg (fun h => hroom h.1.2)]
  · have hword : ¬ b.free.toNat ≠ 0 := by
      rw [Bool.eq_false_iff.mpr hfree]
      decide
    rw [if_neg hword, if_neg (fun h => hfree h.1.1)]

theorem find_best_fit_loop_spec {m : Mem} {size : Nat} {align : Bool} (fuel p : Nat)
    (r : List Block) (best : Option Block) (hfuel : r.length < fuel) (hl : Linked m p r NULL)
    (hne : ∀ b ∈ r, b.addr ≠ NULL)
    (hbest : ∀ b ∈ best, head_size m b.addr = b.size ∧ b.addr ≠ NULL) :
    kheap_find_best_fit_loop m size align fuel (firstAddr NULL r) (bestAddr best) =
      some (bestAddr
        (r.foldl (betterOf (fun b => b.free = true ∧ RoomFor size align b)) best)) := by
  induction fuel generalizing p r best with
  | zero => omega
  | succ fuel ih =>
    rcases r with _ | ⟨b, r⟩
    · rfl
    · obtain ⟨hb, hr⟩ := hl
      have hb0 := hne b (by simp)
      rw [kheap_find_best_fit_loop, firstAddr, if_neg hb0, hb.next,
        find_best_fit_turn_spec best hb hbest, List.foldl_cons]
      apply ih b.addr r
      · simpa using hfuel
      · exact hr
      · exact fun c hc => hne c (by simp [hc])
      · intro c hc
        unfold betterOf at hc
        split at hc
        · cases hc
          exact ⟨hb.size, hb0⟩
        · exact hbest c hc

/-- The search returns, on any heap whose links are in order. -/
theorem Strung.find_best_fit {s : Kheap} {bs : List Block} (h : Strung s bs) (size : Nat)
    (align : Bool) :
    kheap_find_best_fit s size align = some (bestAddr (chosenBlock size align bs)) := by
  unfold kheap_find_best_fit
  rw [h.first]
  apply find_best_fit_loop_spec KHEAP_HEAP_SIZE NULL bs none h.length_lt h.linked
  · exact fun b hb => h.addr_ne hb
  · intro b hb
    cases hb

/-- Without alignment the block is the best fit, when no sum misleads the search. -/
theorem chosenBlock_bestFit {size : Nat} {bs : List Block}
    (h : ∀ b ∈ bs, b.free = true → b.addr + 400 + max size b.size < 4294967296) :
    chosenBlock size false bs = bestFit size bs := by
  rw [chosenBlock, bestFit_eq]
  apply bestOf_congr
  intro b hb
  refine and_congr_right fun hfree => ?_
  have hsum := h b hb hfree
  unfold RoomFor
  simp only [Bool.false_eq_true, false_and, if_false, SIZEOF_HEAD]
  simp (disch := omega) only [add32_eq]
  omega

theorem find_best_fit_spec {s : Kheap} {bs : List Block} (h : Laid s bs) {size : Nat}
    (hsize : size ≤ KHEAP_HEAP_SIZE) :
    kheap_find_best_fit s size false = some (bestAddr (bestFit size bs)) := by
  rw [h.strung.find_best_fit, chosenBlock_bestFit]
  intro b hb _
  obtain ⟨hbase, hhigh, hlo, hhi, hroom⟩ := h.inHeap hb
  unfold KHEAP_HEAP_SIZE at hsize
  omega

/-! ## The walk over the list -/

/-- The blocks that a walk along `next` meets. -/
def walk (m : Mem) : Nat → Nat → List Block
  | 0, _ => []
  | fuel + 1, block =>
    if block = NULL then []
    else ⟨block, head_size m block, head_free m block != 0⟩ :: walk m fuel (head_next m block)

/-- The blocks of the heap, in the order of the list. -/
def heap_blocks (s : Kheap) : List Block := walk s.mem KHEAP_HEAP_SIZE s.kheap_head

theorem walk_linked {m : Mem} {base : Nat} (fuel p : Nat) (bs : List Block)
    (hfuel : bs.length < fuel) (hl : Linked m p bs NULL) (hin : ∀ b ∈ bs, InHeap base b) :
    walk m fuel (firstAddr NULL bs) = bs := by
  induction fuel generalizing p bs with
  | zero => omega
  | succ fuel ih =>
    rcases bs with _ | ⟨b, bs⟩
    · rfl
    · obtain ⟨hb, hr⟩ := hl
      have hinb := hin b (by simp)
      have hb0 : b.addr ≠ NULL := by
        have h1 := hinb.base_pos
        have h2 := hinb.lo
        show b.addr ≠ 0
        omega
      have hfree : (head_free m b.addr != 0) = b.free := by
        rw [hb.free]
        cases b.free <;> rfl
      rw [firstAddr, walk, if_neg hb0, hb.size, hfree, hb.next]
      rw [ih b.addr bs (by simpa using hfuel) hr fun c hc => hin c (by simp [hc])]

theorem Laid.blocks {s : Kheap} {bs : List Block} (h : Laid s bs) : heap_blocks s = bs := by
  have hlen := tiles_length h.tiles
  simp only [SIZEOF_HEAD, KHEAP_HEAP_SIZE] at hlen
  unfold heap_blocks
  rw [h.first]
  exact walk_linked _ NULL bs (by simp only [KHEAP_HEAP_SIZE]; omega) h.linked
    fun b hb => h.inHeap hb

/-! ## The heap that `kheap_init` leaves -/

theorem kheap_init_at_spec {s : Kheap} {base : Nat}
    (hlow : s.kheap_placement_memory + KHEAP_PLACEMENT_SIZE ≤ base)
    (hhigh : base + 2 * KHEAP_HEAP_SIZE + 400 < 4294967296) :
    ∃ t, kheap_init_at s base = .done () t ∧ t.kheap_base = base ∧
      t.kheap_placement_memory = s.kheap_placement_memory ∧
      Shape t [⟨base, KHEAP_HEAP_SIZE - SIZEOF_HEAD, true⟩] ∧
      Sealed t [⟨base, KHEAP_HEAP_SIZE - SIZEOF_HEAD, true⟩] ∧
      ∀ x, x < base ∨ base + 20 ≤ x → t.mem x = s.mem x := by
  have hpos : base ≠ NULL := by
    simp only [KHEAP_PLACEMENT_SIZE] at hlow
    show base ≠ 0
    omega
  refine ⟨_, if_neg hpos, rfl, rfl, ⟨⟨hlow, hhigh, rfl, rfl, rfl, ⟨rfl, ?_⟩, ⟨?_, trivial⟩, ?_⟩,
    List.isChain_singleton _⟩, ?_, ?_⟩
  · have hsize : SIZEOF_HEAD + (KHEAP_HEAP_SIZE - SIZEOF_HEAD) = KHEAP_HEAP_SIZE := by decide
    show base + SIZEOF_HEAD + (KHEAP_HEAP_SIZE - SIZEOF_HEAD) = base + KHEAP_HEAP_SIZE
    rw [Nat.add_assoc, hsize]
  · refine ⟨?_, ?_, ?_, ?_⟩
    all_goals
      simp (disch := first | omega | decide) only [head_size, head_free, head_prev, head_next,
        set_next, set_size, set_prev, set_free, set_magic, load32_store32_ne, load32_store32,
        firstAddr, Bool.toNat_true]
  · intro b hb
    rw [List.mem_singleton] at hb
    subst hb
    exact Nat.sub_pos_of_lt (by decide)
  · intro b hb
    rw [List.mem_singleton] at hb
    subst hb
    simp (disch := first | omega | decide) only [head_magic, set_next, set_size, set_prev,
      set_free, set_magic, load32_store32_ne, load32_store32]
  · intro x hx
    simp (disch := omega) only [set_next, set_size, set_prev, set_free, set_magic, store32_frame]

end sakana_os
