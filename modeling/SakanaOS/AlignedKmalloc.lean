-- `kmalloc_flag` with alignment. The padding block in front of an aligned block takes the old
-- place in the list, but the block behind and the tail go on naming it: only the split of a
-- remainder, which comes after, repairs them.
import SakanaOS.HeapLimits

open byte_memory block_tiling runs

namespace sakana_os

/-! ## Where the links of a well-formed heap lead -/

/-- A block is the last one, or the next one starts where it stops and points back to it. -/
theorem Strung.next_cases {s : Kheap} {bs : List Block} (h : Strung s bs) {b : Block}
    (hb : b ∈ bs) :
    (head_next s.mem b.addr = NULL ∧ s.kheap_tail = b.addr ∧
      b.stop SIZEOF_HEAD = s.kheap_base + KHEAP_HEAP_SIZE) ∨
    ∃ c ∈ bs, head_next s.mem b.addr = c.addr ∧ c.addr = b.stop SIZEOF_HEAD ∧
      head_prev s.mem c.addr = b.addr := by
  obtain ⟨l, r, rfl⟩ := List.append_of_mem hb
  obtain ⟨-, hhere, hright⟩ := linked_at.mp h.linked
  have htiles := ((tiles_at _ _ _ _ _).mp h.tiles).2
  cases r with
  | nil =>
    refine Or.inl ⟨hhere.next, ?_, htiles⟩
    rw [h.tail]
    simp [lastAddr]
  | cons c r => exact Or.inr ⟨c, by simp, hhere.next, htiles.1, hright.1.prev⟩

theorem Strung.size {s : Kheap} {bs : List Block} (h : Strung s bs) {b : Block} (hb : b ∈ bs) :
    head_size s.mem b.addr = b.size := by
  obtain ⟨l, r, rfl⟩ := List.append_of_mem hb
  exact (linked_at.mp h.linked).2.1.size

/-- A block that is not the last one is named by the block that its `next` names. -/
theorem Strung.next_prev {s : Kheap} {bs : List Block} (h : Strung s bs) {a n : Nat}
    (ha : ∃ b ∈ bs, b.addr = a) (hnext : head_next s.mem a = n) (hn : n ≠ NULL) :
    (∃ c ∈ bs, c.addr = n) ∧ head_prev s.mem n = a := by
  obtain ⟨b, hb, rfl⟩ := ha
  rcases h.next_cases hb with ⟨hnull, -, -⟩ | ⟨c, hc, hcn, -, hprev⟩
  · exact absurd (hnext.symm.trans hnull) hn
  · have hcn : c.addr = n := hcn.symm.trans hnext
    rw [hcn] at hprev
    exact ⟨⟨c, hc, hcn⟩, hprev⟩

/-- Headers in memory that start at a block of the heap stay in the heap. -/
theorem Strung.follow {s : Kheap} {bs l : List Block} {p n : Nat} (h : Strung s bs)
    (hl : Linked s.mem p l n) (hne : ∀ c ∈ l, c.addr ≠ NULL) (hn : n ≠ NULL)
    (hfirst : ∃ b ∈ bs, b.addr = firstAddr n l) : ∃ b ∈ bs, b.addr = n := by
  induction l generalizing p with
  | nil => exact hfirst
  | cons c l ih =>
    obtain ⟨hc, hl⟩ := hl
    have hnext : firstAddr n l ≠ NULL := by
      cases l with
      | nil => exact hn
      | cons d l => exact hne d (by simp)
    refine ih hl (fun d hd => hne d (by simp [hd])) ?_
    exact (h.next_prev hfirst hc.next hnext).1

/-- The first block is one of the blocks. -/
theorem Strung.head_mem {s : Kheap} {bs : List Block} (h : Strung s bs) :
    ∃ b ∈ bs, b.addr = s.kheap_head := by
  have htiles := h.tiles
  rw [h.head]
  cases bs with
  | nil =>
    simp only [Tiles, KHEAP_HEAP_SIZE] at htiles
    omega
  | cons b bs => exact ⟨b, by simp, htiles.1⟩

/-- The headers before a block reach it, also in a later state that kept them. -/
theorem Strung.reach {s t : Kheap} {l r bs : List Block} {b : Block} (h : Strung s (l ++ b :: r))
    (ht : Strung t bs) (hhead : t.kheap_head = s.kheap_head) (hl : Linked t.mem NULL l b.addr) :
    ∃ c ∈ bs, c.addr = b.addr := by
  have hfirst := ht.head_mem
  rw [hhead, h.first, firstAddr_append] at hfirst
  exact ht.follow hl (fun c hc => h.addr_ne (by simp [hc])) (h.addr_ne (by simp)) hfirst

/-! ## The padding -/

/-- The bytes from the payload of a block to the next page behind one more header. -/
def alignPadding (block : Nat) : Nat :=
  let data_addr := add32 block SIZEOF_HEAD
  sub32 (paging_align_address_up (add32 data_addr SIZEOF_HEAD)) data_addr

theorem payload_aligned_iff {a : Nat} :
    paging_is_aligned_address (add32 a SIZEOF_HEAD) = true ↔ (a + SIZEOF_HEAD) % PAGE_SIZE = 0 := by
  rw [is_aligned_iff]
  unfold add32 PAGE_SIZE
  omega

/-- When the padding and the request fit in a block, no sum about them wraps. -/
theorem alignPadding_spec {a size total : Nat} (htop : a + 20 + total ≤ 4294967296)
    (h0 : 0 < size) (hs : size ≤ KHEAP_HEAP_SIZE) :
    add32 size (alignPadding a) = size + alignPadding a ∧
      (size + alignPadding a ≤ total → 20 ≤ alignPadding a ∧
        (a + alignPadding a + 20) % 4096 = 0 ∧
        sub32 (paging_align_address_up (add32 (add32 a SIZEOF_HEAD) SIZEOF_HEAD)) SIZEOF_HEAD =
          a + alignPadding a) := by
  unfold KHEAP_HEAP_SIZE at hs
  unfold alignPadding
  simp only [align_up_eq, add32, sub32, SIZEOF_HEAD]
  omega

/-- The header of the padding and the one behind it, with the old `next`. -/
theorem kmalloc_pad_heads (m : Mem) {a p n total pad : Nat} {f : Bool}
    (hb : HeadIs m ⟨a, total, f⟩ p n) (hbound : a + 20 + total ≤ 4294967296) (hpad : 20 ≤ pad)
    (hfit : pad ≤ total) (hn32 : n < 4294967296) :
    HeadIs (kmalloc_pad m a (a + pad) pad) ⟨a, pad - 20, true⟩ p (a + pad) ∧
      HeadIs (kmalloc_pad m a (a + pad) pad) ⟨a + pad, total - pad, true⟩ a n ∧
      head_magic (kmalloc_pad m a (a + pad) pad) a = head_magic m a ∧
      head_magic (kmalloc_pad m a (a + pad) pad) (a + pad) = KHEAP_MAGIC := by
  obtain ⟨hsize, hfree, hprev, hnext⟩ := hb
  simp only [head_size, head_prev, head_next] at hsize hprev hnext
  have hmagic : KHEAP_MAGIC < 4294967296 := by decide
  have hrest : sub32 total pad = total - pad := sub32_eq hfit (by omega)
  have hpad' : sub32 pad SIZEOF_HEAD = pad - 20 := sub32_eq hpad (by omega)
  unfold kmalloc_pad
  refine ⟨⟨?_, ?_, ?_, ?_⟩, ⟨?_, ?_, ?_, ?_⟩, ?_, ?_⟩
  all_goals
    simp (disch := omega) only [head_size, head_free, head_prev, head_next, head_magic, set_next,
      set_size, set_prev, set_free, set_magic, load32_store32_ne, load32_store32, hsize, hprev,
      hnext, hrest, hpad', Bool.toNat_true]

/-- Only these two headers change. -/
theorem kmalloc_pad_frame (m : Mem) {a pad x : Nat} (ha : x < a ∨ a + 20 ≤ x)
    (hnew : x < a + pad ∨ a + pad + 20 ≤ x) : kmalloc_pad m a (a + pad) pad x = m x := by
  unfold kmalloc_pad
  simp (disch := omega) only [set_next, set_size, set_prev, set_free, set_magic, store32_frame]

/-- The heap with the padding block split off in front. -/
def padded (s : Kheap) (block : Nat) : Kheap :=
  { s with mem := kmalloc_pad s.mem block (block + alignPadding block) (alignPadding block) }

/-- `kmalloc_flag` with alignment, from the block that the search settles on. -/
theorem kmalloc_flag_aligned {s : Kheap} {bs : List Block} (h : Strung s bs) {size flag : Nat}
    (h0 : 0 < size) (hs : size ≤ KHEAP_HEAP_SIZE) (hflag : flag &&& MALLOC_FLAG_ALIGN ≠ 0) :
    kmalloc_flag s size flag =
      match chosenBlock size true bs with
      | none => .done NULL s
      | some b =>
        if (b.addr + SIZEOF_HEAD) % PAGE_SIZE = 0 then kmalloc_take s b.addr size flag
        else if b.size < size + alignPadding b.addr then .done NULL s
        else kmalloc_take (padded s b.addr) (b.addr + alignPadding b.addr) size flag := by
  have hfind := h.find_best_fit size true
  have halign : (flag &&& MALLOC_FLAG_ALIGN != 0) = true := by simpa using hflag
  have hheap : kmalloc_flag s size flag = kmalloc_heap_base s size flag := if_pos h.enabled
  unfold kmalloc_heap_base at hheap
  rw [hheap, if_neg (Nat.ne_of_gt h0), halign, hfind]
  cases hbest : chosenBlock size true bs with
  | none => rfl
  | some b =>
    obtain ⟨l, r, rfl, ⟨hfree, -⟩, -, -⟩ := bestOf_some hbest
    obtain ⟨-, -, hhi, htop⟩ := h.bounds (b := b) (by simp)
    have hsize := h.size (b := b) (by simp)
    obtain ⟨hsum, hfits⟩ := alignPadding_spec (Nat.le_trans hhi htop) h0 hs
    have haddr : bestAddr (some b) = b.addr := rfl
    rw [haddr]
    simp only
    rw [if_neg (h.addr_ne (b := b) (by simp))]
    by_cases hpage : (b.addr + SIZEOF_HEAD) % PAGE_SIZE = 0
    · rw [if_pos hpage, if_neg (fun hc => hc.2 (payload_aligned_iff.mpr hpage))]
    · rw [if_neg hpage, if_pos ⟨hflag, fun hc => hpage (payload_aligned_iff.mp hc)⟩, hsize]
      have hpad : sub32 (paging_align_address_up (add32 (add32 b.addr SIZEOF_HEAD) SIZEOF_HEAD))
          (add32 b.addr SIZEOF_HEAD) = alignPadding b.addr := rfl
      rw [hpad, hsum]
      split
      · rfl
      · rename_i hroom
        rw [(hfits (Nat.le_of_not_lt hroom)).2.2]
        rfl

/-! ## The heap with the padding -/

/-- The padding block. -/
def padBlock (b : Block) : Block := ⟨b.addr, alignPadding b.addr - SIZEOF_HEAD, true⟩

/-- The block whose payload is aligned. -/
def alignedBlock (b : Block) : Block :=
  ⟨b.addr + alignPadding b.addr, b.size - alignPadding b.addr, true⟩

section

variable {s : Kheap} {l r : List Block} {b : Block} {size : Nat}

/-- The headers of the padding and of the aligned block, among those that did not change. -/
theorem padded_linked (h : Strung s (l ++ b :: r)) (hpad : 20 ≤ alignPadding b.addr)
    (hfit : alignPadding b.addr ≤ b.size) :
    Linked (padded s b.addr).mem NULL (l ++ [padBlock b]) (alignedBlock b).addr ∧
      HeadIs (padded s b.addr).mem (alignedBlock b) b.addr (firstAddr NULL r) ∧
      Linked (padded s b.addr).mem b.addr r NULL := by
  obtain ⟨hl, hb, hr⟩ := linked_at.mp h.linked
  obtain ⟨hleft, hright⟩ := h.beside
  obtain ⟨-, -, hhi, htop⟩ := h.bounds (b := b) (by simp)
  obtain ⟨hpadding, haligned, -, -⟩ := kmalloc_pad_heads s.mem (f := b.free) hb
    (Nat.le_trans hhi htop) hpad hfit h.stale.next_lt
  refine ⟨?_, haligned, ?_⟩
  · rw [linked_append]
    refine ⟨linked_congr hl fun c hc x hx hx' => ?_, hpadding, trivial⟩
    have hstop := hleft c hc
    exact kmalloc_pad_frame _ (by omega) (by omega)
  · refine linked_congr hr fun c hc x hx hx' => ?_
    have hstart := hright c hc
    exact kmalloc_pad_frame _ (by omega) (by omega)

theorem padded_tiles {lo hi : Nat} (h : Tiles SIZEOF_HEAD lo (l ++ b :: r) hi)
    (hpad : 20 ≤ alignPadding b.addr) (hfit : alignPadding b.addr ≤ b.size) :
    Tiles SIZEOF_HEAD lo ((l ++ [padBlock b]) ++ alignedBlock b :: r) hi := by
  obtain ⟨hl, hr⟩ := (tiles_at _ _ _ _ _).mp h
  have hstop : (padBlock b).stop SIZEOF_HEAD = (alignedBlock b).addr := by
    simp only [Block.stop, padBlock, alignedBlock, SIZEOF_HEAD]
    omega
  have hend : (alignedBlock b).stop SIZEOF_HEAD = b.stop SIZEOF_HEAD := by
    simp only [Block.stop, alignedBlock]
    omega
  rw [tiles_at, tiles_at, hend]
  exact ⟨⟨hl, hstop⟩, hr⟩

/-- The heap with the padding, about to be split: all is in order, but for what the block
behind and the tail say. -/
theorem padded_stale (h : Strung s (l ++ b :: r)) (hpad : 20 ≤ alignPadding b.addr)
    (hfit : alignPadding b.addr ≤ b.size) :
    Stale (padded s b.addr) (l ++ [padBlock b]) (alignedBlock b) r := by
  obtain ⟨hleft, hhere, hright⟩ := padded_linked h hpad hfit
  refine ⟨h.enabled, h.base_pos, h.top, h.head, h.stale.tail, padded_tiles h.tiles hpad hfit,
    hleft, ?_, ⟨_, hright⟩⟩
  rw [lastAddr_append]
  exact hhere

theorem padded_sealed (h : WellFormed s (l ++ b :: r)) (hpad : 20 ≤ alignPadding b.addr)
    (hfit : alignPadding b.addr ≤ b.size) :
    Sealed (padded s b.addr) ((l ++ [padBlock b]) ++ alignedBlock b :: r) := by
  obtain ⟨-, hb, -⟩ := linked_at.mp h.linked
  obtain ⟨hleft, hright⟩ := h.toStrung.beside
  obtain ⟨-, -, hhi, htop⟩ := h.bounds (b := b) (by simp)
  obtain ⟨-, -, hpadding, haligned⟩ := kmalloc_pad_heads s.mem (f := b.free) hb
    (Nat.le_trans hhi htop) hpad hfit h.toStrung.stale.next_lt
  have hsame : ∀ c ∈ l ++ b :: r, (c.addr + 20 ≤ b.addr ∨ b.addr + 20 + b.size ≤ c.addr) →
      head_magic (padded s b.addr).mem c.addr = KHEAP_MAGIC := by
    intro c hc haway
    rw [← h.sealed c hc]
    exact load32_congr fun x hx hx' => kmalloc_pad_frame _ (by omega) (by omega)
  intro c hc
  simp only [List.append_assoc, List.singleton_append, List.mem_append, List.mem_cons] at hc
  rcases hc with hc | rfl | rfl | hc
  · have hstop := hleft c hc
    exact hsame c (by simp [hc]) (Or.inl (by omega))
  · exact hpadding.trans (h.sealed b (by simp))
  · exact haligned
  · exact hsame c (by simp [hc]) (Or.inr (hright c hc))

/-! ## A remainder that is too small for a block -/

/-- Taking a whole block writes its `free`, and its payload when that is cleared. -/
theorem kmalloc_take_whole {s : Kheap} {a total : Nat} (flag : Nat)
    (hsize : head_size s.mem a = total) (hbound : a + 20 + total ≤ 4294967296) (h0 : 0 < size)
    (hfit : size ≤ total) (hrest : ¬ SIZEOF_HEAD < total - size) :
    ∃ t, kmalloc_take s a size flag = .done (a + 20) t ∧ t.kheap_head = s.kheap_head ∧
      t.kheap_tail = s.kheap_tail ∧
      ∀ x, (x < a + 8 ∨ a + 12 ≤ x) → (x < a + 20 ∨ a + 20 + total ≤ x) →
        t.mem x = s.mem x := by
  have hrem : sub32 total size = total - size := sub32_eq hfit (by omega)
  have hdata : add32 a SIZEOF_HEAD = a + 20 := add32_eq (by simp only [SIZEOF_HEAD]; omega)
  have hsize' : head_size (set_free s.mem a 0) a = total := by
    rw [← hsize]
    simp (disch := omega) only [head_size, set_free, load32_store32_ne]
  unfold kmalloc_take
  simp only [hsize, hrem, gt_iff_lt, hrest, if_false, hsize', hdata]
  refine ⟨_, rfl, rfl, rfl, ?_⟩
  intro x hx hx'
  have hfree : set_free s.mem a 0 x = s.mem x := store32_frame _ _ (by omega)
  simp only
  split
  · rw [fill_frame _ _ _ _ _ hx', hfree]
  · exact hfree

/-- Without a remainder to split off, the block behind, or the tail, still names the padding
as the block before it. -/
theorem padding_breaks_the_links (h : WellFormed s (l ++ b :: r)) (h0 : 0 < size)
    (hpad : 20 ≤ alignPadding b.addr) (hfit : size + alignPadding b.addr ≤ b.size)
    (hrest : b.size ≤ size + alignPadding b.addr + SIZEOF_HEAD) (flag : Nat) :
    ∃ t, kmalloc_take (padded s b.addr) (alignedBlock b).addr size flag =
        .done (b.addr + alignPadding b.addr + 20) t ∧ ∀ bs, ¬ WellFormed t bs := by
  have hroom : alignPadding b.addr ≤ b.size := by omega
  obtain ⟨hleft, hhere, hright⟩ := padded_linked h.toStrung hpad hroom
  obtain ⟨hbefore, hbehind⟩ := h.toStrung.beside
  obtain ⟨hpos, hlo, hhi, htop⟩ := h.bounds (b := b) (by simp)
  have hnew : (alignedBlock b).addr = b.addr + alignPadding b.addr := rfl
  have hsize := hhere.size
  have htotal : (alignedBlock b).size = b.size - alignPadding b.addr := rfl
  rw [htotal] at hsize
  obtain ⟨t, htake, hhead, htail, hmem⟩ := kmalloc_take_whole flag hsize
    (by rw [hnew]; omega) h0 (by omega) (by omega)
  refine ⟨t, htake, ?_⟩
  rw [hnew] at hmem
  rintro bs ⟨hstrung, -⟩
  -- The list of the new state still leads to the padding, and from there to the new block.
  have hsame : SameHeads (padded s b.addr).mem t.mem (l ++ [padBlock b]) := by
    intro c hc x hx hx'
    rcases List.mem_append.mp hc with hc | hc
    · have hstop := hbefore c hc
      exact hmem x (by omega) (by omega)
    · rw [List.mem_singleton] at hc
      subst hc
      have haddr : (padBlock b).addr = b.addr := rfl
      exact hmem x (by omega) (by omega)
  have hleft' := linked_congr hleft hsame
  have hreach : ∃ c ∈ bs, c.addr = (alignedBlock b).addr := by
    rw [linked_append] at hleft'
    have hb := h.toStrung.reach hstrung hhead hleft'.1
    refine (hstrung.next_prev hb hleft'.2.1.next ?_).1
    show b.addr + alignPadding b.addr ≠ 0
    omega
  have hnext : head_next t.mem (alignedBlock b).addr = firstAddr NULL r := by
    rw [← hhere.next]
    exact load32_congr fun x hx hx' =>
      hmem x (by rw [hnew] at hx; omega) (by rw [hnew] at hx'; omega)
  cases r with
  | nil =>
    obtain ⟨c, hc, hcn⟩ := hreach
    rcases hstrung.next_cases hc with ⟨-, hlast, -⟩ | ⟨d, hd, hcd, -, -⟩
    · have hold : t.kheap_tail = b.addr := by
        refine (htail.trans h.tail).trans ?_
        simp [lastAddr]
      rw [hlast, hcn, hnew] at hold
      omega
    · rw [hcn, hnext] at hcd
      exact hstrung.addr_ne hd hcd.symm
  | cons c r =>
    have hcb := hbehind c (by simp)
    have hprev := (hstrung.next_prev hreach hnext (h.addr_ne (b := c) (by simp))).2
    have hold : head_prev t.mem c.addr = b.addr := by
      rw [← hright.1.prev]
      exact load32_congr fun x hx hx' => hmem x (by omega) (by omega)
    rw [firstAddr, hold, hnew] at hprev
    omega

end

/-! ## A block without the room -/

/-- The difference of the sizes wraps, so a header is written `size` bytes on, wherever that
is, and the block gets the size that was asked for. -/
theorem kmalloc_split_short {s : Kheap} {a size n R : Nat} (rest : Nat)
    (hR : add32 (add32 a SIZEOF_HEAD) size = R) (hnext : head_next s.mem a = n)
    (haway : R + 20 ≤ a ∨ R = a + 20 + size) (hn : n = NULL ∨ a + 20 ≤ n ∧ n + 20 ≤ 4294967296)
    (hnR : R = a + 20 + size → n < R) (hsize : size < 4294967296) :
    ∃ t, kmalloc_split { s with mem := set_free s.mem a 0 } a size rest = t ∧
      t.kheap_head = s.kheap_head ∧ t.kheap_base = s.kheap_base ∧
      t.kheap_tail = (if n = NULL then R else s.kheap_tail) ∧
      head_size t.mem a = size ∧ head_next t.mem a = R ∧
      (R = a + 20 + size → head_next t.mem R = n) ∧
      ∀ x, x < a → x < R ∨ R + 20 ≤ x → t.mem x = s.mem x := by
  have hR32 : R < 4294967296 := by
    rw [← hR]
    exact add32_lt _ _
  have hnext' : head_next (set_size (set_magic (set_free (set_free s.mem a 0) R 1) R KHEAP_MAGIC)
      R (sub32 rest SIZEOF_HEAD)) a = n := by
    rw [← hnext]
    simp (disch := omega) only [head_next, set_size, set_magic, set_free, load32_store32_ne]
  have hn32 : n < 4294967296 := by
    rcases hn with rfl | hn
    · decide
    · omega
  have hRnext : ∀ m : Mem, head_next (set_prev (set_next m R n) R a) R = n := by
    intro m
    simp (disch := omega) only [head_next, set_next, set_prev, load32_store32_ne, load32_store32]
  refine ⟨_, rfl, ?_⟩
  unfold kmalloc_split
  simp only [hR, hnext', hRnext]
  by_cases hnull : n = NULL
  · simp only [hnull, if_true]
    refine ⟨trivial, trivial, trivial, ?_, ?_, ?_, ?_⟩
    · simp (disch := omega) only [head_size, set_next, set_size, load32_store32_ne, load32_store32]
    · simp (disch := omega) only [head_next, set_next, load32_store32]
    · intro hfar
      simp (disch := first | omega | decide) only [head_next, set_next, set_size, set_prev,
        load32_store32_ne, load32_store32]
    · intro x hx hxR
      simp (disch := omega) only [set_next, set_size, set_prev, set_free, set_magic, store32_frame]
  · have hn := hn.resolve_left hnull
    simp only [hnull, if_false]
    refine ⟨trivial, trivial, trivial, ?_, ?_, ?_, ?_⟩
    · simp (disch := omega) only [head_size, set_next, set_size, load32_store32_ne, load32_store32]
    · simp (disch := omega) only [head_next, set_next, load32_store32]
    · intro hfar
      have hbefore := hnR hfar
      simp (disch := omega) only [head_next, set_next, set_size, set_prev, load32_store32_ne,
        load32_store32]
    · intro x hx hxR
      simp (disch := omega) only [set_next, set_size, set_prev, set_free, set_magic, store32_frame]

/-- From such a block on, `kmalloc` still returns. The payload that it may clear ends where the
new header starts, or lies below the heap. -/
theorem kmalloc_take_short {s : Kheap} {l r : List Block} {b : Block} {size : Nat}
    (h : WellFormed s (l ++ b :: r)) (hs : size ≤ KHEAP_HEAP_SIZE) (hshort : b.size < size)
    (flag : Nat) : ∃ t R, kmalloc_take s b.addr size flag = .done (add32 b.addr SIZEOF_HEAD) t ∧
      t.kheap_head = s.kheap_head ∧ t.kheap_base = s.kheap_base ∧
      t.kheap_tail = (if firstAddr NULL r = NULL then R else s.kheap_tail) ∧
      head_size t.mem b.addr = size ∧ head_next t.mem b.addr = R ∧
      (R = b.addr + 20 + size → head_next t.mem R = firstAddr NULL r) ∧
      ∀ x, s.kheap_base ≤ x → x < b.addr → t.mem x = s.mem x := by
  obtain ⟨-, hhere, -⟩ := linked_at.mp h.linked
  obtain ⟨hpos, hlo, hhi, htop⟩ := h.bounds (b := b) (by simp)
  have htiles := ((tiles_at _ _ _ _ _).mp h.tiles).2
  unfold KHEAP_HEAP_SIZE at hs
  obtain ⟨R, hR⟩ : ∃ R, add32 (add32 b.addr SIZEOF_HEAD) size = R := ⟨_, rfl⟩
  have hRsum : (b.addr + 20 + size) % 4294967296 = R := by
    rw [← hR]
    unfold add32 SIZEOF_HEAD
    omega
  have hn : firstAddr NULL r = NULL ∨
      firstAddr NULL r = b.addr + 20 + b.size ∧ firstAddr NULL r + 20 ≤ 4294967296 := by
    cases r with
    | nil => exact Or.inl rfl
    | cons c r =>
      obtain ⟨-, -, hchi, -⟩ := h.bounds (b := c) (by simp)
      exact Or.inr ⟨htiles.1, by simp only [firstAddr]; omega⟩
  have hnR : R = b.addr + 20 + size → firstAddr NULL r < R := by
    intro hfar
    rcases hn with hnull | hn
    · rw [hnull]
      show 0 < R
      omega
    · omega
  have hrest : sub32 b.size size > SIZEOF_HEAD := by
    unfold sub32 SIZEOF_HEAD
    omega
  obtain ⟨u, hu, hhead, hbase, htail, hsize, hnext, hRn, hmem⟩ :=
    kmalloc_split_short (sub32 b.size size) hR hhere.next (by omega) (by omega)
      hnR (by omega)
  unfold kmalloc_take
  simp only [hhere.size, hrest, if_true, hu]
  -- The payload that is cleared starts behind the header, or at 0 when that is the last word.
  have hclear : ∀ x, (s.kheap_base ≤ x ∧ x < b.addr + 20) ∨ (R = b.addr + 20 + size ∧ R ≤ x) →
      (if flag &&& MALLOC_FLAG_INIT ≠ 0 then
        fill u.mem (add32 b.addr SIZEOF_HEAD) 0 (head_size u.mem b.addr)
        else u.mem) x = u.mem x := by
    intro x hx
    rw [hsize]
    split
    · apply fill_frame
      unfold add32 SIZEOF_HEAD
      omega
    · rfl
  refine ⟨_, R, rfl, hhead, hbase, htail, ?_, ?_, ?_, ?_⟩
  · rw [← hsize]
    exact load32_congr fun x hx hx' => hclear x (by omega)
  · rw [← hnext]
    exact load32_congr fun x hx hx' => hclear x (by omega)
  · intro hfar
    rw [← hRn hfar]
    exact load32_congr fun x hx hx' => hclear x (by omega)
  · intro x hx hx'
    rw [← hmem x hx' (by omega)]
    exact hclear x (by omega)

/-- A block that is taken without the room leaves no heap behind: it stops past the heap, or
the header behind it leads back. -/
theorem short_block_breaks_the_heap {s : Kheap} {l r : List Block} {b : Block} {size : Nat}
    (h : WellFormed s (l ++ b :: r)) (hs : size ≤ KHEAP_HEAP_SIZE) (hshort : b.size < size)
    (flag : Nat) : ∃ ptr t, kmalloc_take s b.addr size flag = .done ptr t ∧
      ∀ bs, ¬ WellFormed t bs := by
  obtain ⟨t, R, htake, hhead, hbase, htail, hsize, hnext, hRn, hmem⟩ :=
    kmalloc_take_short h hs hshort flag
  refine ⟨_, t, htake, ?_⟩
  rintro bs ⟨hstrung, -⟩
  obtain ⟨hl, -, -⟩ := linked_at.mp h.linked
  obtain ⟨hbefore, -⟩ := h.toStrung.beside
  have htiles := ((tiles_at _ _ _ _ _).mp h.tiles).2
  have hl' : Linked t.mem NULL l b.addr := by
    refine linked_congr hl fun c hc x hx hx' => ?_
    obtain ⟨-, hclo, -, -⟩ := h.bounds (b := c) (by simp [hc])
    have hstop := hbefore c hc
    exact hmem x (by omega) (by omega)
  obtain ⟨c, hc, hcb⟩ := h.toStrung.reach hstrung hhead hl'
  have hcsize := hstrung.size hc
  rw [hcb, hsize] at hcsize
  obtain ⟨-, -, hchi, hctop⟩ := hstrung.bounds hc
  rw [hcb, ← hcsize, hbase] at hchi
  cases r with
  | nil =>
    simp only [Tiles, Block.stop, SIZEOF_HEAD, KHEAP_HEAP_SIZE] at htiles
    omega
  | cons d r =>
    have hd0 : d.addr ≠ NULL := h.addr_ne (by simp)
    obtain ⟨-, -, hdhi, -⟩ := h.bounds (b := d) (by simp)
    have hdb : d.addr = b.addr + 20 + b.size := htiles.1
    rcases hstrung.next_cases hc with ⟨-, hlast, -⟩ | ⟨e, he, hce, hestop, -⟩
    · -- The tail is the old one, and that is a block behind this one.
      rw [htail, firstAddr, if_neg hd0, h.tail, lastAddr_append, hcb] at hlast
      simp only [lastAddr] at hlast
      rcases lastAddr_mem d.addr r with hlast' | ⟨f, hf, hlast'⟩
      · omega
      · have hdf := tiles_mem htiles.2 hf
        simp only [Block.stop, SIZEOF_HEAD] at hdf
        omega
    · -- The next block is the new header, whose `next` is a block before it.
      rw [hcb, hnext] at hce
      simp only [Block.stop, SIZEOF_HEAD] at hestop
      have hfar : R = b.addr + 20 + size := by omega
      have hback := hRn hfar
      rcases hstrung.next_cases he with ⟨hnull, -, -⟩ | ⟨f, hf, hef, hfstop, -⟩
      · rw [← hce, hback] at hnull
        exact hd0 hnull
      · rw [← hce, hback, firstAddr] at hef
        simp only [Block.stop, SIZEOF_HEAD] at hfstop
        omega

/-! ## The aligned requests that keep the heap well formed -/

/-- An aligned request returned on a well-formed heap, with `NULL` or with the aligned payload
of a block that is in use and large enough. -/
def AlignedWell (size : Nat) (o : Outcome Kheap Nat) : Prop :=
  ∃ ptr t bs, o = .done ptr t ∧ WellFormed t bs ∧
    (ptr ≠ NULL → ptr % PAGE_SIZE = 0 ∧
      ∃ b ∈ bs, b.free = false ∧ ptr = b.addr + SIZEOF_HEAD ∧ size ≤ b.size)

/-- The block that is chosen has its payload at a page and the room, or has too little room
for the padding, or has so much that a remainder is split off behind. -/
def PadsCleanly (size : Nat) (bs : List Block) : Prop :=
  ∀ b ∈ chosenBlock size true bs,
    if (b.addr + SIZEOF_HEAD) % PAGE_SIZE = 0 then size ≤ b.size
    else b.size < size + alignPadding b.addr ∨
      size + alignPadding b.addr + SIZEOF_HEAD < b.size

/-- A block that was carved well at a page. -/
theorem alignedWell_of_carved {s t : Kheap} {l r : List Block} {b : Block} {size flag : Nat}
    {init : Bool} (hsealed : Sealed s (l ++ b :: r)) (hroom : size ≤ b.size)
    (hpage : (b.addr + SIZEOF_HEAD) % PAGE_SIZE = 0)
    (htake : kmalloc_take s b.addr size flag = .done (b.addr + 20) t)
    (hcarved : Carved s t l b r size init) :
    AlignedWell size (kmalloc_take s b.addr size flag) := by
  refine ⟨_, t, _, htake, hcarved.wellFormed hsealed, fun _ => ⟨hpage, ?_⟩⟩
  refine ⟨taken SIZEOF_HEAD size b, ?_, rfl, rfl, (taken_fits _ hroom).1⟩
  simp [taken_mem]

/-- An aligned request keeps the heap well formed exactly when the block that is chosen pads
cleanly. -/
theorem aligned_requests_keep_the_heap_when_padding_is_clean {s : Kheap} {bs : List Block}
    (h : WellFormed s bs) {size flag : Nat} (h0 : 0 < size) (hs : size ≤ KHEAP_HEAP_SIZE)
    (hflag : flag &&& MALLOC_FLAG_ALIGN ≠ 0) :
    AlignedWell size (kmalloc_flag s size flag) ↔ PadsCleanly size bs := by
  have hnull : AlignedWell size (.done NULL s) :=
    ⟨NULL, s, bs, rfl, h, fun hc => absurd rfl hc⟩
  have hbroken : ∀ {o ptr t}, o = Outcome.done ptr t → (∀ bs', ¬ WellFormed t bs') →
      ¬ AlignedWell size o := by
    rintro o ptr t rfl hno ⟨ptr', t', bs', heq, hwell, -⟩
    cases heq
    exact hno bs' hwell
  rw [kmalloc_flag_aligned h.toStrung h0 hs hflag]
  unfold PadsCleanly
  cases hbest : chosenBlock size true bs with
  | none => simpa using hnull
  | some b =>
    obtain ⟨l, r, rfl, -, -, -⟩ := bestOf_some hbest
    obtain ⟨-, -, hhi, htop⟩ := h.bounds (b := b) (by simp)
    obtain ⟨-, hfits⟩ := alignPadding_spec (Nat.le_trans hhi htop) h0 hs
    simp only [Option.mem_def, Option.some.injEq, forall_eq']
    by_cases hpage : (b.addr + SIZEOF_HEAD) % PAGE_SIZE = 0
    · rw [if_pos hpage, if_pos hpage]
      constructor
      · intro hwell
        by_contra hshort
        obtain ⟨ptr, t, htake, hno⟩ :=
          short_block_breaks_the_heap h hs (Nat.lt_of_not_le hshort) flag
        exact hbroken htake hno hwell
      · intro hroom
        obtain ⟨t, htake, hcarved⟩ := kmalloc_take_carves
          ⟨h.toStrung.stale, Or.inr h.toStrung⟩ h0 hroom flag
        exact alignedWell_of_carved h.sealed hroom hpage htake hcarved
    · rw [if_neg hpage, if_neg hpage]
      by_cases hlack : b.size < size + alignPadding b.addr
      · rw [if_pos hlack]
        exact ⟨fun _ => Or.inl hlack, fun _ => hnull⟩
      · rw [if_neg hlack]
        have hfit := Nat.le_of_not_lt hlack
        obtain ⟨hpad, haligned, -⟩ := hfits hfit
        have hroom : alignPadding b.addr ≤ b.size := by omega
        constructor
        · intro hwell
          refine Or.inr ?_
          by_contra hrest
          obtain ⟨t, htake, hno⟩ :=
            padding_breaks_the_links h h0 hpad hfit (Nat.le_of_not_lt hrest) flag
          exact hbroken htake hno hwell
        · intro hclean
          have hsplit := hclean.resolve_left hlack
          have hstale := padded_stale h.toStrung hpad hroom
          have hsize : size ≤ (alignedBlock b).size := by
            simp only [alignedBlock]
            omega
          obtain ⟨t, htake, hcarved⟩ := kmalloc_take_carves
            ⟨hstale, Or.inl (by simp only [alignedBlock]; omega)⟩ h0 hsize flag
          exact alignedWell_of_carved (padded_sealed h hpad hroom) hsize haligned htake hcarved

theorem an_aligned_page_keeps_the_boot_heap :
    AlignedWell 4096 (kmalloc_flag startHeap 4096 (MALLOC_FLAG_ALIGN ||| MALLOC_FLAG_INIT)) := by
  refine (aligned_requests_keep_the_heap_when_padding_is_clean startHeap_wellFormed (by decide)
    (by decide) (by decide)).mpr ?_
  have hbest : chosenBlock 4096 true startBlocks =
      some ⟨0xC0300000, KHEAP_HEAP_SIZE - SIZEOF_HEAD, true⟩ := by
    decide +kernel
  intro b hb
  rw [hbest] at hb
  cases hb
  decide +kernel

/-- A free block of 8172 bytes in front of a block in use: with the padding of 4076 bytes an
aligned page fills it exactly, and the block behind goes on naming the padding. -/
theorem an_aligned_page_can_break_the_links :
    ∃ c bs, run client_step ⟨startHeap, []⟩
        [.kmalloc 8172, .kmalloc 16, .kfree 0xC0300014] = some c ∧
      WellFormed c.heap bs ∧ ¬ AlignedWell 4096 (kmalloc_flag c.heap 4096 MALLOC_FLAG_ALIGN) := by
  have hrun : (run client_step ⟨startHeap, []⟩
      [.kmalloc 8172, .kmalloc 16, .kfree 0xC0300014]).any fun c =>
        (kmalloc_flag c.heap 4096 MALLOC_FLAG_ALIGN).returns fun _ t =>
          t.kheap_head == 0xC0300000 && head_next t.mem 0xC0300000 == 0xC0300FEC &&
          head_next t.mem 0xC0300FEC == 0xC0302000 && head_prev t.mem 0xC0302000 == 0xC0300000 := by
    decide +kernel
  obtain ⟨c, hcalls, hrun⟩ := (Option.any_eq_true _ _).mp hrun
  obtain ⟨hshape, hsealed⟩ := boot_run_shape hcalls
  refine ⟨c, _, hcalls, ⟨hshape.toLaid.strung, hsealed⟩, ?_⟩
  rintro ⟨ptr, t, bs', hdone, hwell, -⟩
  simp only [hdone, Outcome.returns, Bool.and_eq_true, beq_iff_eq] at hrun
  obtain ⟨⟨⟨hhead, hpad⟩, hnew⟩, hprev⟩ := hrun
  have hfirst := hwell.head_mem
  rw [hhead] at hfirst
  obtain ⟨hmem, -⟩ := hwell.next_prev hfirst hpad (by decide)
  obtain ⟨-, hback⟩ := hwell.next_prev hmem hnew (by decide)
  rw [hprev] at hback
  cases hback

end sakana_os
