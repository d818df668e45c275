-- The spec of `kmalloc` from the choice of a block on: it carves the block, and writes
-- nothing but headers and the block that it returns.
import SakanaOS.HeapShape

open byte_memory block_tiling

namespace sakana_os

/-! ## Taking a block -/

/-- What is left of `s` when `size` bytes of the block `b` between `l` and `r`
were taken, with the payload cleared or not. -/
structure Took (s s' : Kheap) (l : List Block) (b : Block) (r : List Block) (size : Nat)
    (init : Bool) : Prop where
  place : SamePlace s s'
  shape : Shape s' (l ++ (carve SIZEOF_HEAD size b ++ r))
  magic : ∀ c ∈ l ++ (carve SIZEOF_HEAD size b ++ r),
    head_magic s'.mem c.addr = KHEAP_MAGIC ∨
      ∃ d ∈ l ++ b :: r, d.addr = c.addr ∧ head_magic s'.mem c.addr = head_magic s.mem c.addr
  mem : ∀ x, OffHeads (l ++ (carve SIZEOF_HEAD size b ++ r)) x →
    s'.mem x = if init = true ∧ b.addr + 20 ≤ x ∧
      x < b.addr + 20 + (taken SIZEOF_HEAD size b).size then 0 else s.mem x

/-- The memory after a split, when the list went on at `n`. -/
def splitMem (m : Mem) (b size rest n : Nat) : Mem :=
  let rem := b + 20 + size
  let m := set_free m b 0
  let m := set_free m rem 1
  let m := set_magic m rem KHEAP_MAGIC
  let m := set_size m rem rest
  let m := set_next m rem n
  let m := set_prev m rem b
  let m := if n = NULL then m else set_prev m n rem
  set_next (set_size m b size) b rem

theorem kmalloc_split_eq (s : Kheap) (b size total n : Nat) (hn : head_next s.mem b = n)
    (hn32 : n < 4294967296) (hb : b + 20 + total ≤ 4294967296) (hs : size + 20 < total) :
    kmalloc_split { s with mem := set_free s.mem b 0 } b size (total - size) =
      { s with
        mem := splitMem s.mem b size (total - size - 20) n
        kheap_tail := if n = NULL then b + 20 + size else s.kheap_tail } := by
  have hrem : add32 (add32 b SIZEOF_HEAD) size = b + 20 + size := by
    simp (disch := omega) only [SIZEOF_HEAD, add32_eq]
  have hrest : sub32 (total - size) SIZEOF_HEAD = total - size - 20 := by
    rw [SIZEOF_HEAD, sub32_eq (by omega) (by omega)]
  have hnext : head_next (set_size (set_magic (set_free (set_free s.mem b 0) (b + 20 + size) 1)
      (b + 20 + size) KHEAP_MAGIC) (b + 20 + size) (total - size - 20)) b = n := by
    rw [← hn]
    simp (disch := omega) only [head_next, set_size, set_magic, set_free, load32_store32_ne]
  have hrnext : ∀ m : Mem, head_next (set_prev (set_next m (b + 20 + size) n) (b + 20 + size) b)
      (b + 20 + size) = n := by
    intro m
    simp (disch := omega) only [head_next, set_next, set_prev, load32_store32_ne, load32_store32]
  unfold kmalloc_split splitMem
  simp only [hrem, hrest, hnext, hrnext]

/-- A split writes the two headers and the `prev` of the block behind them. -/
theorem splitMem_frame (m : Mem) (b size rest n x : Nat) (hb : x < b ∨ b + 20 ≤ x)
    (hrem : x < b + 20 + size ∨ b + 20 + size + 20 ≤ x)
    (hn : n ≠ NULL → x < n + 12 ∨ n + 16 ≤ x) : splitMem m b size rest n x = m x := by
  unfold splitMem
  simp only [set_next, set_size, set_prev, set_free, set_magic]
  split
  · simp (disch := omega) only [store32_frame]
  · rename_i h
    have hn := hn h
    simp (disch := omega) only [store32_frame]

/-- The headers that a split leaves, when the block behind is far enough. -/
theorem splitMem_heads (m : Mem) (size rest total : Nat) {b n p : Nat} {f : Bool}
    (hb : HeadIs m ⟨b, total, f⟩ p n) (hbound : b + 40 + size + rest ≤ 4294967296)
    (hrest : 0 < rest)
    (hn : n = NULL ∨ b + 40 + size + rest ≤ n) (hn32 : n < 4294967296) :
    HeadIs (splitMem m b size rest n) ⟨b, size, false⟩ p (b + 20 + size) ∧
      HeadIs (splitMem m b size rest n) ⟨b + 20 + size, rest, true⟩ b n ∧
      head_magic (splitMem m b size rest n) b = head_magic m b ∧
      head_magic (splitMem m b size rest n) (b + 20 + size) = KHEAP_MAGIC := by
  have hmagic : KHEAP_MAGIC < 4294967296 := by decide
  have hprev := hb.prev
  simp only [head_prev] at hprev
  unfold splitMem
  by_cases h : n = NULL
  · subst h
    simp only [if_true]
    refine ⟨⟨?_, ?_, ?_, ?_⟩, ⟨?_, ?_, ?_, ?_⟩, ?_, ?_⟩
    all_goals
      simp (disch := omega) only [head_size, head_free, head_prev, head_next, head_magic, set_next,
        set_size, set_prev, set_free, set_magic, load32_store32_ne, load32_store32, hprev,
        Bool.toNat_false, Bool.toNat_true]
  · simp only [h, if_false]
    have hn := hn.resolve_left h
    refine ⟨⟨?_, ?_, ?_, ?_⟩, ⟨?_, ?_, ?_, ?_⟩, ?_, ?_⟩
    all_goals
      simp (disch := omega) only [head_size, head_free, head_prev, head_next, head_magic, set_next,
        set_size, set_prev, set_free, set_magic, load32_store32_ne, load32_store32, hprev,
        Bool.toNat_false, Bool.toNat_true]

/-- The block behind a split keeps its header, apart from its `prev`. -/
theorem splitMem_behind (m : Mem) (size rest : Nat) {b p n' : Nat} {c : Block}
    (hc : HeadIs m c p n')
    (hbound : b + 40 + size + rest ≤ c.addr) (hc32 : c.addr < 4294967296) (h0 : c.addr ≠ NULL) :
    HeadIs (splitMem m b size rest c.addr) c (b + 20 + size) n' ∧
      head_magic (splitMem m b size rest c.addr) c.addr = head_magic m c.addr := by
  obtain ⟨h1, h2, h3, h4⟩ := hc
  simp only [head_size, head_free, head_next] at h1 h2 h4
  unfold splitMem
  simp only [h0, if_false]
  refine ⟨⟨?_, ?_, ?_, ?_⟩, ?_⟩
  all_goals
    simp (disch := omega) only [head_size, head_free, head_prev, head_next, head_magic, set_next,
      set_size, set_prev, set_free, set_magic, load32_store32_ne, load32_store32, h1, h2, h4]

/-- The list around a block whose header, with its neighbours', is in memory. -/
theorem linked_at {m : Mem} {l r : List Block} {b : Block} :
    Linked m NULL (l ++ b :: r) NULL ↔
      Linked m NULL l b.addr ∧ HeadIs m b (lastAddr NULL l) (firstAddr NULL r) ∧
        Linked m b.addr r NULL := by
  rw [linked_append]
  rfl

/-- A store to `free` changes one header of the list. -/
theorem linked_set_free {m : Mem} {lo hi : Nat} {l r : List Block} {b : Block}
    (h : Linked m NULL (l ++ b :: r) NULL) (htiles : Tiles SIZEOF_HEAD lo (l ++ b :: r) hi)
    (free : Bool) :
    Linked (set_free m b.addr free.toNat) NULL (l ++ ⟨b.addr, b.size, free⟩ :: r) NULL := by
  obtain ⟨hleft, hright⟩ := tiles_beside htiles
  rw [linked_at] at h ⊢
  obtain ⟨hl, hbh, hr⟩ := h
  refine ⟨linked_congr hl fun c hc x hx hx' => ?_, ⟨?_, ?_, ?_, ?_⟩,
    linked_congr hr fun c hc x hx hx' => ?_⟩
  · have := hleft c hc
    exact store32_frame _ _ (by omega)
  · exact (load32_store32_ne _ _ (by simp only; omega)).trans hbh.size
  · exact load32_store32 _ _ (by cases free <;> decide)
  · exact (load32_store32_ne _ _ (by simp only; omega)).trans hbh.prev
  · exact (load32_store32_ne _ _ (by simp only; omega)).trans hbh.next
  · have := hright c hc
    exact store32_frame _ _ (by omega)

theorem firstAddr_lt {s : Kheap} {l r : List Block} (h : Laid s (l ++ r)) :
    firstAddr NULL r < 4294967296 := by
  rcases r with _ | ⟨c, r⟩
  · decide
  · obtain ⟨-, -, h1, h2⟩ := h.strung.bounds (b := c) (by simp)
    show c.addr < 4294967296
    omega

/-- The heap around a block that is about to be split. The block behind it and the tail
may still name another block as the one before. -/
structure Stale (s : Kheap) (l : List Block) (b : Block) (r : List Block) : Prop where
  enabled : s.kheap_enabled = true
  base_pos : 0 < s.kheap_base
  top : s.kheap_base + KHEAP_HEAP_SIZE ≤ 4294967296
  head : s.kheap_head = s.kheap_base
  tail : r ≠ [] → s.kheap_tail = lastAddr NULL r
  tiles : Tiles SIZEOF_HEAD s.kheap_base (l ++ b :: r) (s.kheap_base + KHEAP_HEAP_SIZE)
  left : Linked s.mem NULL l b.addr
  here : HeadIs s.mem b (lastAddr NULL l) (firstAddr NULL r)
  right : ∃ p, Linked s.mem p r NULL

/-- What is left of `s` when `size` bytes of the block `b` between `l` and `r` were
taken, on any heap whose links are in order. -/
structure Carved (s s' : Kheap) (l : List Block) (b : Block) (r : List Block) (size : Nat)
    (init : Bool) : Prop where
  place : SamePlace s s'
  strung : Strung s' (l ++ (carve SIZEOF_HEAD size b ++ r))
  magic : ∀ c ∈ l ++ (carve SIZEOF_HEAD size b ++ r),
    head_magic s'.mem c.addr = KHEAP_MAGIC ∨
      ∃ d ∈ l ++ b :: r, d.addr = c.addr ∧ head_magic s'.mem c.addr = head_magic s.mem c.addr
  mem : ∀ x, OffHeads (l ++ (carve SIZEOF_HEAD size b ++ r)) x →
    s'.mem x = if init = true ∧ b.addr + 20 ≤ x ∧
      x < b.addr + 20 + (taken SIZEOF_HEAD size b).size then 0 else s.mem x

theorem Strung.beside {s : Kheap} {l r : List Block} {b : Block} (h : Strung s (l ++ b :: r)) :
    (∀ c ∈ l, c.addr + 20 + c.size ≤ b.addr) ∧ ∀ c ∈ r, b.addr + 20 + b.size ≤ c.addr :=
  tiles_beside h.tiles

theorem Strung.stale {s : Kheap} {l r : List Block} {b : Block} (h : Strung s (l ++ b :: r)) :
    Stale s l b r := by
  obtain ⟨hl, hb, hr⟩ := linked_at.mp h.linked
  refine ⟨h.enabled, h.base_pos, h.top, h.head, ?_, h.tiles, hl, hb, ⟨_, hr⟩⟩
  intro hne
  rw [h.tail]
  cases r with
  | nil => exact absurd rfl hne
  | cons c r => simp [lastAddr]

/-- The blocks of a state with another memory and another tail. -/
theorem Stale.strung {s s' : Kheap} {l r bs : List Block} {b : Block} (h : Stale s l b r)
    (hp : SamePlace s s') (ht : s'.kheap_tail = lastAddr NULL bs)
    (htiles : Tiles SIZEOF_HEAD s.kheap_base bs (s.kheap_base + KHEAP_HEAP_SIZE))
    (hl : Linked s'.mem NULL bs NULL) : Strung s' bs := by
  refine ⟨?_, ?_, ?_, ?_, ht, ?_, hl⟩
  · rw [hp.enabled]
    exact h.enabled
  · rw [hp.base]
    exact h.base_pos
  · rw [hp.base]
    exact h.top
  · rw [hp.head, hp.base]
    exact h.head
  · rw [hp.base]
    exact htiles

theorem Stale.beside {s : Kheap} {l r : List Block} {b : Block} (h : Stale s l b r) :
    (∀ c ∈ l, c.addr + 20 + c.size ≤ b.addr) ∧ ∀ c ∈ r, b.addr + 20 + b.size ≤ c.addr :=
  tiles_beside h.tiles

theorem Stale.bounds {s : Kheap} {l r : List Block} {b c : Block} (h : Stale s l b r)
    (hc : c ∈ l ++ b :: r) : 0 < s.kheap_base ∧ s.kheap_base ≤ c.addr ∧
      c.addr + 20 + c.size ≤ s.kheap_base + 33554432 ∧
        s.kheap_base + 33554432 ≤ 4294967296 := by
  have hmem := tiles_mem h.tiles hc
  have htop := h.top
  simp only [KHEAP_HEAP_SIZE, SIZEOF_HEAD, Block.stop] at hmem htop
  exact ⟨h.base_pos, hmem.1, hmem.2, htop⟩

theorem Stale.next_lt {s : Kheap} {l r : List Block} {b : Block} (h : Stale s l b r) :
    firstAddr NULL r < 4294967296 := by
  cases r with
  | nil => decide
  | cons c r =>
    obtain ⟨-, -, h1, h2⟩ := h.bounds (c := c) (by simp)
    show c.addr < 4294967296
    omega

/-- Taking a whole block only clears its `free`. -/
theorem carved_whole {s : Kheap} {l r : List Block} {b : Block} (h : Strung s (l ++ b :: r))
    {size : Nat} (hw : ¬ SIZEOF_HEAD < b.size - size) :
    Carved s { s with mem := set_free s.mem b.addr 0 } l b r size false := by
  have hcarve : carve SIZEOF_HEAD size b = [⟨b.addr, b.size, false⟩] := carve_whole hw
  have hmagic : ∀ c ∈ l ++ (carve SIZEOF_HEAD size b ++ r), ∃ d ∈ l ++ b :: r, d.addr = c.addr := by
    intro c hc
    rw [hcarve, List.singleton_append, List.mem_append, List.mem_cons] at hc
    rcases hc with hc | rfl | hc
    · exact ⟨c, by simp [hc], rfl⟩
    · exact ⟨b, by simp, rfl⟩
    · exact ⟨c, by simp [hc], rfl⟩
  refine ⟨⟨rfl, rfl, rfl, rfl, rfl, rfl⟩, ?_, ?_, ?_⟩
  · refine h.stale.strung ⟨rfl, rfl, rfl, rfl, rfl, rfl⟩ ?_ (tiles_carve size h.tiles) ?_
    · rw [h.tail, hcarve]
      simp [lastAddr]
    · rw [hcarve, List.singleton_append]
      exact linked_set_free h.linked h.tiles false
  · intro c hc
    obtain ⟨d, hd, he⟩ := hmagic c hc
    refine Or.inr ⟨d, hd, he, ?_⟩
    have hdis := tiles_disjoint h.tiles hd (by simp : b ∈ l ++ b :: r)
    simp only [Block.stop, SIZEOF_HEAD] at hdis
    refine load32_store32_ne _ _ ?_
    rcases hdis with rfl | hdis | hdis <;> omega
  · intro x hx
    have := hx ⟨b.addr, b.size, false⟩ (by simp [hcarve])
    simp only at this
    rw [if_neg (by simp)]
    exact store32_frame _ _ (by omega)

/-- Taking a part of a block splits a free block off behind it. -/
theorem carved_split {s : Kheap} {l r : List Block} {b : Block} (h : Stale s l b r) {size : Nat}
    (hw : SIZEOF_HEAD < b.size - size) :
    Carved s { s with
      mem := splitMem s.mem b.addr size (b.size - size - 20) (firstAddr NULL r)
      kheap_tail := if firstAddr NULL r = NULL then b.addr + 20 + size else s.kheap_tail }
      l b r size false := by
  obtain ⟨hleft, hright⟩ := h.beside
  have hcarve := carve_split hw
  obtain ⟨hbase, hlo, hhi, htop⟩ := h.bounds (c := b) (by simp)
  have hn32 := h.next_lt
  have hl := h.left
  have hbh := h.here
  obtain ⟨p, hr⟩ := h.right
  simp only [SIZEOF_HEAD] at hw hcarve
  have hfar : firstAddr NULL r = NULL ∨
      b.addr + 40 + size + (b.size - size - 20) ≤ firstAddr NULL r := by
    rcases r with _ | ⟨c, r⟩
    · exact Or.inl rfl
    · have := hright c (by simp)
      exact Or.inr (by simp only [firstAddr]; omega)
  have hprevs : ∀ c ∈ r, ∀ x, c.addr ≤ x → x < c.addr + 20 → firstAddr NULL r ≠ c.addr →
      splitMem s.mem b.addr size (b.size - size - 20) (firstAddr NULL r) x = s.mem x := by
    intro c hc x hx hx' hne
    have hcb := hright c hc
    apply splitMem_frame
    · omega
    · omega
    · intro _
      rcases r with _ | ⟨d, r⟩
      · cases hc
      · rcases List.mem_cons.mp hc with rfl | hc
        · exact absurd rfl hne
        · have := (tiles_apart (l := l ++ [b]) (b := d) (r := r) (by simpa using h.tiles)).2 c hc
          simp only [Block.stop, SIZEOF_HEAD] at this
          simp only [firstAddr]
          omega
  obtain ⟨hbh', hrem, hbm, hremm⟩ := splitMem_heads s.mem size (b.size - size - 20) b.size
    (f := b.free) hbh (by omega) (by omega) hfar hn32
  have hmleft : ∀ c ∈ l, ∀ x, c.addr ≤ x → x < c.addr + 20 →
      splitMem s.mem b.addr size (b.size - size - 20) (firstAddr NULL r) x = s.mem x := by
    intro c hc x hx hx'
    have := hleft c hc
    refine splitMem_frame _ _ _ _ _ _ (by omega) (by omega) fun hne => ?_
    have := hfar.resolve_left hne
    omega
  have hlast : (if firstAddr NULL r = NULL then b.addr + 20 + size else s.kheap_tail) =
      lastAddr NULL (l ++ (carve SIZEOF_HEAD size b ++ r)) := by
    simp only [SIZEOF_HEAD, hcarve]
    rcases r with _ | ⟨c, r⟩
    · simp [firstAddr, lastAddr]
    · have ht := h.tail (List.cons_ne_nil c r)
      have hc0 : firstAddr NULL (c :: r) ≠ NULL := by
        have h1 := hright c (by simp)
        show c.addr ≠ 0
        omega
      rw [if_neg hc0, ht]
      simp [lastAddr]
  refine ⟨⟨rfl, rfl, rfl, rfl, rfl, rfl⟩, ?_, ?_, ?_⟩
  · refine h.strung ⟨rfl, rfl, rfl, rfl, rfl, rfl⟩ hlast (tiles_carve size h.tiles) ?_
    simp only [SIZEOF_HEAD, hcarve, List.cons_append, List.nil_append]
    rw [linked_at]
    refine ⟨linked_congr hl hmleft, hbh', hrem, ?_⟩
    rcases r with _ | ⟨c, r⟩
    · trivial
    · have hcb := hright c (by simp)
      refine linked_reprev hr (splitMem_behind s.mem _ _ hr.1 (by omega) hn32 ?_).1 ?_
      · show c.addr ≠ 0
        omega
      · intro d hd x hx hx'
        have hcd := (tiles_apart (l := l ++ [b]) (b := c) (r := r) (by simpa using h.tiles)).2 d hd
        simp only [Block.stop, SIZEOF_HEAD] at hcd
        exact hprevs d (by simp [hd]) x hx hx' (by simp only [firstAddr]; omega)
  · intro c hc
    simp only [SIZEOF_HEAD, hcarve, List.cons_append, List.nil_append, List.mem_append,
      List.mem_cons] at hc
    rcases hc with hc | rfl | rfl | hc
    · refine Or.inr ⟨c, by simp [hc], rfl, ?_⟩
      exact load32_congr fun x hx hx' => hmleft c hc x hx (by omega)
    · exact Or.inr ⟨b, by simp, rfl, hbm⟩
    · exact Or.inl hremm
    · refine Or.inr ⟨c, by simp [hc], rfl, ?_⟩
      by_cases hne : firstAddr NULL r = c.addr
      · have hcb := hright c hc
        rcases r with _ | ⟨d, r⟩
        · cases hc
        · simp only [firstAddr] at hne
          have hd := splitMem_behind s.mem size (b.size - size - 20) (b := b.addr) (c := d) hr.1
            (by omega) hn32 (by show d.addr ≠ 0; omega)
          rw [← hne]
          exact hd.2
      · exact load32_congr fun x hx hx' => hprevs c hc x hx (by omega) hne
  · intro x hx
    simp only [Bool.false_eq_true, false_and, if_false]
    simp only [SIZEOF_HEAD, hcarve] at hx
    have h1 := hx ⟨b.addr, size, false⟩ (by simp)
    have h2 := hx ⟨b.addr + 20 + size, b.size - size - 20, true⟩ (by simp)
    refine splitMem_frame _ _ _ _ _ _ h1 (by simpa using h2) fun hne => ?_
    rcases r with _ | ⟨c, r⟩
    · exact absurd rfl hne
    · have hc := hx c (by simp)
      show x < c.addr + 12 ∨ c.addr + 16 ≤ x
      omega

/-- Clearing the payload of the block taken leaves every header as it is. -/
theorem carved_init {s t : Kheap} {l r : List Block} {b : Block} {size : Nat}
    (h : Carved s t l b r size false) :
    Carved s { t with mem := fill t.mem (b.addr + 20) 0 (taken SIZEOF_HEAD size b).size }
      l b r size true := by
  have hmem : taken SIZEOF_HEAD size b ∈ l ++ (carve SIZEOF_HEAD size b ++ r) := by
    simp [taken_mem]
  have hheads : SameHeads t.mem (fill t.mem (b.addr + 20) 0 (taken SIZEOF_HEAD size b).size)
      (l ++ (carve SIZEOF_HEAD size b ++ r)) := by
    intro c hc x hx hx'
    have hdis := tiles_disjoint h.strung.tiles hmem hc
    simp only [Block.stop, SIZEOF_HEAD] at hdis
    apply fill_frame
    rcases hdis with hdis | hdis | hdis
    · subst hdis
      exact Or.inl hx'
    · exact Or.inr (Nat.le_trans hdis hx)
    · have haddr : (taken 20 size b).addr = b.addr := rfl
      omega
  refine ⟨h.place.trans ⟨rfl, rfl, rfl, rfl, rfl, rfl⟩, ?_, ?_, ?_⟩
  · exact ⟨h.strung.enabled, h.strung.base_pos, h.strung.top, h.strung.head, h.strung.tail,
      h.strung.tiles, linked_congr h.strung.linked hheads⟩
  · intro c hc
    have hsame : head_magic (fill t.mem (b.addr + 20) 0 (taken SIZEOF_HEAD size b).size) c.addr =
        head_magic t.mem c.addr :=
      load32_congr fun x hx hx' => hheads c hc x hx (by omega)
    rw [hsame]
    exact h.magic c hc
  · intro x hx
    by_cases hin : b.addr + 20 ≤ x ∧ x < b.addr + 20 + (taken SIZEOF_HEAD size b).size
    · rw [if_pos ⟨rfl, hin⟩]
      exact fill_inside _ _ _ _ _ hin.1 hin.2
    · rw [if_neg (fun hc => hin hc.2)]
      have := h.mem x hx
      rw [if_neg (by simp)] at this
      rw [← this]
      exact fill_frame _ _ _ _ _ (by omega)

/-- The block is split, or taken whole from a list whose links are in order. -/
def TakeReady (s : Kheap) (l : List Block) (b : Block) (r : List Block) (size : Nat) : Prop :=
  Stale s l b r ∧ (SIZEOF_HEAD < b.size - size ∨ Strung s (l ++ b :: r))

/-- From the choice of a block that is large enough, `kmalloc` returns its payload. -/
theorem kmalloc_take_carves {s : Kheap} {l r : List Block} {b : Block} {size : Nat}
    (h : TakeReady s l b r size) (hs : 0 < size) (hfit : size ≤ b.size) (flag : Nat) :
    ∃ s', kmalloc_take s b.addr size flag = .done (b.addr + 20) s' ∧
      Carved s s' l b r size (flag &&& MALLOC_FLAG_INIT != 0) := by
  obtain ⟨hstale, hready⟩ := h
  obtain ⟨hbase, hlo, hhi, htop⟩ := hstale.bounds (c := b) (by simp)
  have hbh := hstale.here
  have hdata : add32 b.addr SIZEOF_HEAD = b.addr + 20 :=
    add32_eq (by simp only [SIZEOF_HEAD]; omega)
  have hrest : sub32 b.size size = b.size - size := sub32_eq hfit (by omega)
  obtain ⟨t, ht, hcarved⟩ : ∃ t, (if b.size - size > SIZEOF_HEAD then
      kmalloc_split { s with mem := set_free s.mem b.addr 0 } b.addr size (b.size - size)
      else { s with mem := set_free s.mem b.addr 0 }) = t ∧ Carved s t l b r size false := by
    by_cases hw : SIZEOF_HEAD < b.size - size
    · refine ⟨_, rfl, ?_⟩
      rw [if_pos hw, kmalloc_split_eq s b.addr size b.size _ hbh.next hstale.next_lt (by omega)
        (by simp only [SIZEOF_HEAD] at hw; omega)]
      exact carved_split hstale hw
    · exact ⟨_, rfl, by rw [if_neg hw]; exact carved_whole (hready.resolve_left hw) hw⟩
  have hsize : head_size t.mem b.addr = (taken SIZEOF_HEAD size b).size := by
    have hlt := hcarved.strung.linked
    rw [carve, List.cons_append, linked_at] at hlt
    exact hlt.2.1.size
  unfold kmalloc_take
  simp only [hbh.size, hrest, hdata, ht, hsize]
  by_cases hi : flag &&& MALLOC_FLAG_INIT = 0
  · refine ⟨_, rfl, ?_⟩
    simp only [hi, bne_self_eq_false, ne_eq, not_true_eq_false, if_false]
    exact hcarved
  · refine ⟨_, rfl, ?_⟩
    have hbne : (flag &&& MALLOC_FLAG_INIT != 0) = true := by simpa using hi
    rw [hbne]
    simp only [ne_eq, hi, not_false_eq_true, if_true]
    exact carved_init hcarved

/-- A block carved from a heap in shape leaves a heap in shape. -/
theorem Carved.took {s s' : Kheap} {l r : List Block} {b : Block} {size : Nat} {init : Bool}
    (h : Carved s s' l b r size init) (hshape : Shape s (l ++ b :: r)) (hb : b.free = true)
    (hs : 0 < size) : Took s s' l b r size init := by
  refine ⟨h.place, ⟨?_, apart_carve size hshape.apart hb⟩, h.magic, h.mem⟩
  exact hshape.update h.place h.strung.tail (tiles_carve size hshape.tiles) h.strung.linked
    (roomy_carve hshape.roomy hs)

/-- The same on a heap in shape, for a free block. -/
theorem kmalloc_take_spec {s : Kheap} {l r : List Block} {b : Block} (h : Shape s (l ++ b :: r))
    (hb : b.free = true) {size : Nat} (hs : 0 < size) (hfit : size ≤ b.size) (flag : Nat) :
    ∃ s', kmalloc_take s b.addr size flag = .done (b.addr + 20) s' ∧
      Took s s' l b r size (flag &&& MALLOC_FLAG_INIT != 0) := by
  have hstrung := h.toLaid.strung
  obtain ⟨s', heq, hcarved⟩ :=
    kmalloc_take_carves ⟨hstrung.stale, Or.inr hstrung⟩ hs hfit flag
  exact ⟨s', heq, hcarved.took h hb hs⟩

/-- `kmalloc` without alignment returns `NULL` and changes nothing when no free
block has the room, and else takes the best fit. -/
theorem kmalloc_heap_base_spec {s : Kheap} {bs : List Block} (h : Shape s bs) {size flag : Nat}
    (hsize : size ≤ KHEAP_HEAP_SIZE) (hflag : flag &&& MALLOC_FLAG_ALIGN = 0) :
    (kmalloc_heap_base s size flag = .done NULL s ∧ (size = 0 ∨ bestFit size bs = none)) ∨
    ∃ l b r s', bs = l ++ b :: r ∧ bestFit size bs = some b ∧ b.free = true ∧ 0 < size ∧
      size ≤ b.size ∧ kmalloc_heap_base s size flag = .done (b.addr + 20) s' ∧
      Took s s' l b r size (flag &&& MALLOC_FLAG_INIT != 0) := by
  by_cases h0 : size = 0
  · exact Or.inl ⟨by simp [kmalloc_heap_base, h0], Or.inl h0⟩
  · have hfind := find_best_fit_spec h.toLaid hsize
    rcases hbest : bestFit size bs with _ | b
    · refine Or.inl ⟨?_, Or.inr rfl⟩
      simp [kmalloc_heap_base, h0, hflag, hfind, hbest, bestAddr]
    · obtain ⟨l, r, hbs, hfree, hfit, _, _⟩ := bestFit_some hbest
      subst hbs
      have hb := h.inHeap (b := b) (by simp)
      have hb0 : b.addr ≠ 0 := by
        have h1 := hb.base_pos
        have h2 := hb.lo
        omega
      obtain ⟨s', hs', htook⟩ := kmalloc_take_spec h hfree (Nat.pos_of_ne_zero h0) hfit flag
      refine Or.inr ⟨l, b, r, s', rfl, rfl, hfree, Nat.pos_of_ne_zero h0, hfit, ?_, htook⟩
      simp [kmalloc_heap_base, h0, hfind, hbest, bestAddr, hb0, hflag, hs']

end sakana_os
