-- The spec of `kfree`: it releases one block of the list, merged with its free
-- neighbours, and writes nothing but headers.
import SakanaOS.KmallocSpec

open byte_memory block_tiling

namespace sakana_os

/-! ## Merging two blocks -/

/-- The memory after the block at `c` was merged into the block at `a`. -/
def joinMem (m : Mem) (a c n total : Nat) : Mem :=
  let m := set_next m a n
  let m := set_size m a total
  let m := set_magic m c 0
  if n = NULL then m else set_prev m n a

/-- The state after the merge. -/
def joined (s : Kheap) (a c n total : Nat) : Kheap :=
  { s with
    mem := joinMem s.mem a c n total
    kheap_tail := if n = NULL then a else s.kheap_tail }

/-- The block that a merge leaves. -/
def merged (a c : Block) : Block := ⟨a.addr, a.size + (c.size + SIZEOF_HEAD), a.free⟩

/-- What is left of `s` when the block `c` was merged into the block `a` before it. -/
structure Joined (s s' : Kheap) (l : List Block) (a c : Block) (r : List Block) : Prop where
  place : SamePlace s s'
  laid : Laid s' (l ++ merged a c :: r)
  magic : ∀ d ∈ l ++ a :: r, head_magic s'.mem d.addr = head_magic s.mem d.addr
  gone : head_magic s'.mem c.addr = 0 ∧ HeadIs s'.mem c a.addr (firstAddr NULL r)
  mem : ∀ x, OffHeads (l ++ a :: c :: r) x → s'.mem x = s.mem x

theorem joinMem_frame (m : Mem) (a c n total x : Nat) (ha : x < a ∨ a + 20 ≤ x)
    (hc : x < c ∨ c + 4 ≤ x) (hn : n ≠ NULL → x < n + 12 ∨ n + 16 ≤ x) :
    joinMem m a c n total x = m x := by
  unfold joinMem
  simp only [set_next, set_size, set_prev, set_magic]
  split
  · simp (disch := omega) only [store32_frame]
  · rename_i h
    have hn := hn h
    simp (disch := omega) only [store32_frame]

/-- The headers of the two blocks after a merge: the second one is only marked
as no block any more. -/
theorem joinMem_heads (m : Mem) (total : Nat) {a c : Block} {p n : Nat} (ha : HeadIs m a p c.addr)
    (hc : HeadIs m c a.addr n) (hac : a.addr + 20 ≤ c.addr) (hn : n = NULL ∨ c.addr + 20 ≤ n)
    (hn32 : n < 4294967296) (ht : total < 4294967296) :
    HeadIs (joinMem m a.addr c.addr n total) ⟨a.addr, total, a.free⟩ p n ∧
      HeadIs (joinMem m a.addr c.addr n total) c a.addr n ∧
      head_magic (joinMem m a.addr c.addr n total) a.addr = head_magic m a.addr ∧
      head_magic (joinMem m a.addr c.addr n total) c.addr = 0 := by
  obtain ⟨_, a2, a3, _⟩ := ha
  obtain ⟨c1, c2, c3, c4⟩ := hc
  simp only [head_free, head_prev] at a2 a3
  simp only [head_size, head_free, head_prev, head_next] at c1 c2 c3 c4
  unfold joinMem
  by_cases h : n = NULL
  · subst h
    simp only [if_true]
    refine ⟨⟨?_, ?_, ?_, ?_⟩, ⟨?_, ?_, ?_, ?_⟩, ?_, ?_⟩
    all_goals
      simp (disch := omega) only [head_size, head_free, head_prev, head_next, head_magic, set_next,
        set_size, set_magic, load32_store32_ne, load32_store32, a2, a3, c1, c2, c3, c4]
  · simp only [h, if_false]
    have hn := hn.resolve_left h
    refine ⟨⟨?_, ?_, ?_, ?_⟩, ⟨?_, ?_, ?_, ?_⟩, ?_, ?_⟩
    all_goals
      simp (disch := omega) only [head_size, head_free, head_prev, head_next, head_magic, set_next,
        set_size, set_prev, set_magic, load32_store32_ne, load32_store32, a2, a3, c1, c2, c3, c4]

/-- The block behind a merge keeps its header, apart from its `prev`. -/
theorem joinMem_behind (m : Mem) (a total : Nat) {c n' : Nat} {d : Block} (hd : HeadIs m d c n')
    (hac : a + 20 ≤ c) (hcd : c + 20 ≤ d.addr) (hd32 : d.addr < 4294967296) :
    HeadIs (joinMem m a c d.addr total) d a n' ∧
      head_magic (joinMem m a c d.addr total) d.addr = head_magic m d.addr := by
  obtain ⟨h1, h2, _, h4⟩ := hd
  simp only [head_size, head_free, head_next] at h1 h2 h4
  have h0 : d.addr ≠ NULL := by
    show d.addr ≠ 0
    omega
  unfold joinMem
  simp only [h0, if_false]
  refine ⟨⟨?_, ?_, ?_, ?_⟩, ?_⟩
  all_goals
    simp (disch := omega) only [head_size, head_free, head_prev, head_next, head_magic, set_next,
      set_size, set_prev, set_magic, load32_store32_ne, load32_store32, h1, h2, h4]

/-- Where a list goes on, seen from the last of the blocks before it. -/
theorem firstAddr_after {s : Kheap} {l r : List Block} {c : Block} (h : Laid s (l ++ c :: r)) :
    firstAddr NULL r = NULL ∨ c.addr + 20 + c.size ≤ firstAddr NULL r := by
  rcases r with _ | ⟨d, r⟩
  · exact Or.inl rfl
  · exact Or.inr (h.beside.2 d (by simp))

/-- Behind the first block of `r`, the blocks of `r` are past its header. -/
theorem past_first {s : Kheap} {l r : List Block} (h : Laid s (l ++ r)) {d : Block} (hd : d ∈ r)
    (hne : firstAddr NULL r ≠ d.addr) : firstAddr NULL r + 20 ≤ d.addr := by
  rcases r with _ | ⟨e, r⟩
  · cases hd
  · rcases List.mem_cons.mp hd with rfl | hd
    · exact absurd rfl hne
    · have := h.beside.2 d hd
      simp only [firstAddr]
      omega

theorem joined_spec {s : Kheap} {l r : List Block} {a c : Block} (h : Laid s (l ++ a :: c :: r)) :
    Joined s (joined s a.addr c.addr (firstAddr NULL r) (a.size + (c.size + SIZEOF_HEAD)))
      l a c r := by
  have h' : Laid s ((l ++ [a]) ++ c :: r) := by simpa using h
  have h'' : Laid s ((l ++ [a, c]) ++ r) := by simpa using h
  obtain ⟨hleft, hright⟩ := h.beside
  have hac := hright c (by simp)
  have hafter := h'.beside.2
  obtain ⟨hbase, hhigh, hlo, hhi, hroom⟩ := h.inHeap (b := c) (by simp)
  have ha := h.inHeap (b := a) (by simp)
  have hn32 := firstAddr_lt h''
  have hnr := firstAddr_after h'
  have hlinked := h.linked
  rw [linked_at] at hlinked
  obtain ⟨hl, hah, hch, hr⟩ := hlinked
  have htotal : a.size + (c.size + SIZEOF_HEAD) < 4294967296 := by
    simp only [SIZEOF_HEAD]
    omega
  obtain ⟨hm, hg, hma, hmc⟩ := joinMem_heads s.mem (a.size + (c.size + SIZEOF_HEAD)) hah
    hch (by omega) (by omega) hn32 htotal
  have hbefore : ∀ d ∈ l, ∀ x, d.addr ≤ x → x < d.addr + 20 →
      joinMem s.mem a.addr c.addr (firstAddr NULL r) (a.size + (c.size + SIZEOF_HEAD)) x =
        s.mem x := by
    intro d hd x hx hx'
    have := hleft d hd
    refine joinMem_frame _ _ _ _ _ _ (by omega) (by omega) fun hne => ?_
    have := hnr.resolve_left hne
    omega
  have hpast : ∀ d ∈ r, firstAddr NULL r ≠ d.addr → ∀ x, d.addr ≤ x → x < d.addr + 20 →
      joinMem s.mem a.addr c.addr (firstAddr NULL r) (a.size + (c.size + SIZEOF_HEAD)) x =
        s.mem x := by
    intro d hd hne x hx hx'
    have hcd := hafter d hd
    have hpf := past_first h'' hd hne
    exact joinMem_frame _ _ _ _ _ _ (by omega) (by omega) fun _ => by omega
  refine ⟨⟨rfl, rfl, rfl, rfl, rfl, rfl⟩, ?_, ?_, ⟨hmc, hg⟩, ?_⟩
  · refine h.update ⟨rfl, rfl, rfl, rfl, rfl, rfl⟩ ?_ ?_ ?_ ?_
    · have ht := h.tail
      rcases r with _ | ⟨d, r⟩
      · simp [joined, firstAddr, lastAddr, merged]
      · have hd0 : firstAddr NULL (d :: r) ≠ NULL := by
          have := hafter d (by simp)
          show d.addr ≠ 0
          omega
        simp only [joined, hd0, if_false, ht]
        simp [lastAddr]
    · have ht := h.tiles
      rw [tiles_at] at ht ⊢
      refine ⟨ht.1, ?_⟩
      have hstop : (merged a c).stop SIZEOF_HEAD = c.stop SIZEOF_HEAD := by
        have := ht.2.1
        simp only [Block.stop, SIZEOF_HEAD, merged] at this ⊢
        omega
      rw [hstop]
      exact ht.2.2
    · rw [linked_at]
      refine ⟨linked_congr hl hbefore, hm, ?_⟩
      rcases r with _ | ⟨d, r⟩
      · trivial
      · have hcd := hafter d (by simp)
        refine linked_reprev hr (joinMem_behind s.mem _ _ hr.1 (by omega) (by omega) hn32).1 ?_
        intro e he x hx hx'
        refine hpast e (by simp [he]) ?_ x hx hx'
        have h3 : Laid s ((l ++ [a, c]) ++ d :: r) := h''
        have := h3.beside.2 e he
        show d.addr ≠ e.addr
        omega
    · intro d hd
      rcases List.mem_append.mp hd with hd | hd
      · exact h.roomy d (by simp [hd])
      · rcases List.mem_cons.mp hd with rfl | hd
        · simp only [merged]
          omega
        · exact h.roomy d (by simp [hd])
  · intro d hd
    rcases List.mem_append.mp hd with hd | hd
    · exact load32_congr fun x hx hx' => hbefore d hd x hx (by omega)
    · rcases List.mem_cons.mp hd with rfl | hd
      · exact hma
      · by_cases hne : firstAddr NULL r = d.addr
        · have hcd := hafter d hd
          rcases r with _ | ⟨e, r⟩
          · cases hd
          · have he := (joinMem_behind s.mem a.addr (a.size + (c.size + SIZEOF_HEAD)) hr.1
              (by omega) (by have := hafter e (by simp); omega) hn32).2
            have hed : e.addr = d.addr := hne
            rw [← hed]
            exact he
        · exact load32_congr fun x hx hx' => hpast d hd hne x hx (by omega)
  · intro x hx
    have h1 := hx a (by simp)
    have h2 := hx c (by simp)
    refine joinMem_frame _ _ _ _ _ _ h1 (by omega) fun hne => ?_
    rcases r with _ | ⟨d, r⟩
    · exact absurd rfl hne
    · have := hx d (by simp)
      show x < d.addr + 12 ∨ d.addr + 16 ≤ x
      omega

/-! ## Freeing a block -/

/-- What is left of `s` when the block `b` between `l` and `r` was freed. A header
that a merge removed loses its magic and keeps its other fields, as a free block's. -/
structure Freed (s s' : Kheap) (l : List Block) (b : Block) (r : List Block) : Prop where
  place : SamePlace s s'
  shape : Shape s' (release SIZEOF_HEAD l b r)
  magic : ∀ c ∈ release SIZEOF_HEAD l b r, head_magic s'.mem c.addr = head_magic s.mem c.addr
  gone : ∀ c ∈ l ++ b :: r, (∀ d ∈ release SIZEOF_HEAD l b r, d.addr ≠ c.addr) →
    head_magic s'.mem c.addr = 0 ∧ ∃ p n, HeadIs s'.mem ⟨c.addr, c.size, true⟩ p n ∧
      (p = NULL ∨ ∃ d ∈ l ++ b :: r, p = d.addr) ∧ (n = NULL ∨ ∃ d ∈ l ++ b :: r, n = d.addr)
  mem : ∀ x, OffHeads (l ++ b :: r) x → s'.mem x = s.mem x

theorem firstAddr_mem (r : List Block) :
    firstAddr NULL r = NULL ∨ ∃ d ∈ r, firstAddr NULL r = d.addr := by
  rcases r with _ | ⟨d, r⟩
  · exact Or.inl rfl
  · exact Or.inr ⟨d, by simp, rfl⟩

/-- The sizes that a merge adds up do not wrap. -/
theorem join_size {s : Kheap} {l r : List Block} {a c : Block} (h : Laid s (l ++ a :: c :: r))
    (n : Nat) : add32 (head_size (set_next s.mem a.addr n) a.addr)
      (add32 (head_size (set_next s.mem a.addr n) c.addr) SIZEOF_HEAD) =
      a.size + (c.size + SIZEOF_HEAD) := by
  have hac := h.beside.2 c (by simp)
  obtain ⟨hbase, hhigh, hlo, hhi, hroom⟩ := h.inHeap (b := c) (by simp)
  have ha := h.inHeap (b := a) (by simp)
  have hlinked := h.linked
  rw [linked_at] at hlinked
  obtain ⟨_, hah, hch, _⟩ := hlinked
  have hsa : head_size (set_next s.mem a.addr n) a.addr = a.size :=
    (load32_store32_ne _ _ (by omega)).trans hah.size
  have hsc : head_size (set_next s.mem a.addr n) c.addr = c.size :=
    (load32_store32_ne _ _ (by omega)).trans hch.size
  rw [hsa, hsc]
  simp (disch := omega) only [SIZEOF_HEAD, add32_eq]

theorem kfree_join_prev_eq {s : Kheap} {l r : List Block} {p b : Block}
    (h : Laid s (l ++ p :: b :: r)) (hp : p.free = true) :
    kfree_join_prev s b.addr p.addr (firstAddr NULL r) =
      (p.addr, joined s p.addr b.addr (firstAddr NULL r) (p.size + (b.size + SIZEOF_HEAD))) := by
  have hin := h.inHeap (b := p) (by simp)
  have hp0 : p.addr ≠ NULL := by
    have h1 := hin.base_pos
    have h2 := hin.lo
    show p.addr ≠ 0
    omega
  have hlinked := h.linked
  rw [linked_at] at hlinked
  have hfree : head_free s.mem p.addr = 1 := by rw [hlinked.2.1.free, hp]; rfl
  unfold kfree_join_prev
  rw [if_pos ⟨hp0, by rw [hfree]; decide⟩]
  simp only [join_size h]
  rfl

theorem kfree_join_next_eq {s : Kheap} {l r : List Block} {b n : Block}
    (h : Laid s (l ++ b :: n :: r)) (hn : n.free = true) :
    kfree_join_next s b.addr n.addr =
      joined s b.addr n.addr (firstAddr NULL r) (b.size + (n.size + SIZEOF_HEAD)) := by
  have hin := h.inHeap (b := n) (by simp)
  have hn0 : n.addr ≠ NULL := by
    have h1 := hin.base_pos
    have h2 := hin.lo
    show n.addr ≠ 0
    omega
  have hlinked := h.linked
  rw [linked_at] at hlinked
  have hnh := hlinked.2.2.1
  have hfree : head_free s.mem n.addr = 1 := by rw [hnh.free, hn]; rfl
  unfold kfree_join_next
  rw [if_pos ⟨hn0, by rw [hfree]; decide⟩]
  simp only [hnh.next, join_size h]
  rfl

/-- The merge with the block behind, when it is free. -/
theorem kfree_join_next_spec {s : Kheap} {l r : List Block} {a : Block} (h : Laid s (l ++ a :: r)) :
    (kfree_join_next s a.addr (firstAddr NULL r) = s ∧ absorb SIZEOF_HEAD a r = a :: r) ∨
    ∃ n r', r = n :: r' ∧ n.free = true ∧ absorb SIZEOF_HEAD a r = merged a n :: r' ∧
      Joined s (kfree_join_next s a.addr (firstAddr NULL r)) l a n r' := by
  rcases r with _ | ⟨n, r⟩
  · exact Or.inl ⟨by simp [kfree_join_next, firstAddr], rfl⟩
  · rw [absorb_cons]
    by_cases hn : n.free = true
    · refine Or.inr ⟨n, r, rfl, hn, if_pos hn, ?_⟩
      show Joined s (kfree_join_next s a.addr n.addr) l a n r
      rw [kfree_join_next_eq h hn]
      exact joined_spec h
    · refine Or.inl ⟨?_, if_neg hn⟩
      have hlinked := h.linked
      rw [linked_at] at hlinked
      have hfree := hlinked.2.2.1.free
      unfold kfree_join_next
      rw [if_neg]
      rintro ⟨_, hc⟩
      apply hc
      show head_free s.mem n.addr = 0
      rw [hfree]
      simp [hn]

/-- What is left of `s` when the block `a` before `r` grew over the free block
behind it, if there is one. -/
structure Grown (s s' : Kheap) (l : List Block) (a : Block) (r : List Block) : Prop where
  place : SamePlace s s'
  laid : Laid s' (l ++ absorb SIZEOF_HEAD a r)
  magic : ∀ d ∈ l ++ absorb SIZEOF_HEAD a r, head_magic s'.mem d.addr = head_magic s.mem d.addr
  gone : ∀ c ∈ r, (∀ d ∈ l ++ absorb SIZEOF_HEAD a r, d.addr ≠ c.addr) →
    head_magic s'.mem c.addr = 0 ∧ c.free = true ∧
      ∃ n, HeadIs s'.mem c a.addr n ∧ (n = NULL ∨ ∃ d ∈ r, n = d.addr)
  mem : ∀ x, OffHeads (l ++ a :: r) x → s'.mem x = s.mem x

theorem kfree_join_next_grown {s : Kheap} {l r : List Block} {a : Block}
    (h : Laid s (l ++ a :: r)) :
    Grown s (kfree_join_next s a.addr (firstAddr NULL r)) l a r := by
  rcases kfree_join_next_spec h with ⟨hs, habs⟩ | ⟨n, r', rfl, hn, habs, hj⟩
  · rw [hs]
    refine ⟨SamePlace.refl s, habs ▸ h, fun _ _ => rfl, ?_, fun _ _ => rfl⟩
    intro c hc hout
    exact absurd rfl (hout c (by simp [habs, hc]))
  · refine ⟨hj.place, habs ▸ hj.laid, ?_, ?_, hj.mem⟩
    · intro d hd
      rw [habs, List.mem_append, List.mem_cons] at hd
      rcases hd with hd | rfl | hd
      · exact hj.magic d (by simp [hd])
      · exact hj.magic a (by simp)
      · exact hj.magic d (by simp [hd])
    · intro c hc hout
      rw [habs] at hout
      rcases List.mem_cons.mp hc with rfl | hc
      · refine ⟨hj.gone.1, hn, _, hj.gone.2, ?_⟩
        rcases firstAddr_mem r' with h0 | ⟨d, hd, he⟩
        · exact Or.inl h0
        · exact Or.inr ⟨d, by simp [hd], he⟩
      · exact absurd rfl (hout c (by simp [hc]))

/-- The state in which the block at `b` is marked free, before any merge. -/
def markFree (s : Kheap) (b : Nat) : Kheap := { s with mem := set_free s.mem b 1 }

theorem samePlace_markFree (s : Kheap) (b : Nat) : SamePlace s (markFree s b) :=
  ⟨rfl, rfl, rfl, rfl, rfl, rfl⟩

theorem laid_markFree {s : Kheap} {l r : List Block} {b : Block} (h : Laid s (l ++ b :: r)) :
    Laid (markFree s b.addr) (l ++ ⟨b.addr, b.size, true⟩ :: r) := by
  refine h.update ⟨rfl, rfl, rfl, rfl, rfl, rfl⟩ ?_ ?_ ?_ ?_
  · refine h.tail.trans ?_
    simp [lastAddr]
  · have ht := h.tiles
    rw [tiles_at] at ht ⊢
    exact ht
  · exact linked_set_free h.linked h.tiles true
  · intro c hc
    rcases List.mem_append.mp hc with hc | hc
    · exact h.roomy c (by simp [hc])
    · rcases List.mem_cons.mp hc with rfl | hc
      · exact h.roomy b (by simp)
      · exact h.roomy c (by simp [hc])

/-- Behind a block in use, or no block, `kfree` does not merge backwards. -/
theorem kfree_join_prev_stays {s : Kheap} {l r : List Block} {b : Block}
    (h : Laid s (l ++ b :: r)) (hlast : ∀ p ∈ l.getLast?, p.free = false) (next : Nat) :
    kfree_join_prev s b.addr (lastAddr NULL l) next = (b.addr, s) := by
  unfold kfree_join_prev
  rw [if_neg]
  rintro ⟨h0, hf⟩
  rcases List.eq_nil_or_concat l with rfl | ⟨l', p, rfl⟩
  · exact h0 rfl
  · rw [List.concat_eq_append] at h hlast
    have hlinked := h.linked
    rw [List.append_assoc, List.singleton_append, linked_at] at hlinked
    have hpf := hlast p (by simp)
    apply hf
    rw [List.concat_eq_append, lastAddr_append]
    show head_free s.mem p.addr = 0
    rw [hlinked.2.1.free, hpf]
    rfl

theorem offHeads_mark {l r : List Block} {b : Block} {x : Nat} (h : OffHeads (l ++ b :: r) x) :
    OffHeads (l ++ ⟨b.addr, b.size, true⟩ :: r) x := by
  intro c hc
  rcases List.mem_append.mp hc with hc | hc
  · exact h c (by simp [hc])
  · rcases List.mem_cons.mp hc with rfl | hc
    · exact h b (by simp)
    · exact h c (by simp [hc])

theorem magic_markFree {s : Kheap} {l r : List Block} {b c : Block} (h : Laid s (l ++ b :: r))
    (hc : c ∈ l ++ b :: r) :
    head_magic (markFree s b.addr).mem c.addr = head_magic s.mem c.addr := by
  have hdis := tiles_disjoint h.tiles hc (by simp : b ∈ l ++ b :: r)
  simp only [Block.stop, SIZEOF_HEAD] at hdis
  refine load32_store32_ne _ _ ?_
  rcases hdis with rfl | hdis | hdis <;> omega

theorem markFree_frame (s : Kheap) {l r : List Block} {b : Block} {x : Nat}
    (h : OffHeads (l ++ b :: r) x) : (markFree s b.addr).mem x = s.mem x := by
  have := h b (by simp)
  exact store32_frame _ _ (by omega)

theorem kfree_block_eq {s : Kheap} {l r : List Block} {b : Block} (h : Laid s (l ++ b :: r)) :
    kfree_block s b.addr =
      (fun j : Nat × Kheap => kfree_join_next j.2 j.1 (firstAddr NULL r))
        (kfree_join_prev (markFree s b.addr) b.addr (lastAddr NULL l) (firstAddr NULL r)) := by
  have hlinked := (laid_markFree h).linked
  rw [linked_at] at hlinked
  obtain ⟨_, hbh, _⟩ := hlinked
  unfold kfree_block
  rw [← hbh.next, ← hbh.prev]
  rfl

/-- A free with nothing to merge before the block. -/
theorem kfree_block_alone {s : Kheap} {l r : List Block} {b : Block} (h : Shape s (l ++ b :: r))
    (he : release SIZEOF_HEAD l b r = l ++ absorb SIZEOF_HEAD ⟨b.addr, b.size, true⟩ r)
    (hlast : ∀ p ∈ l.getLast?, p.free = false) : Freed s (kfree_block s b.addr) l b r := by
  have hmark := laid_markFree h.toLaid
  rw [kfree_block_eq h.toLaid, kfree_join_prev_stays hmark hlast]
  obtain ⟨hplace, hlaid, hmagic, hgone, hmem⟩ := kfree_join_next_grown hmark
  refine ⟨(samePlace_markFree s b.addr).trans hplace, ⟨he ▸ hlaid, apart_release h.apart⟩,
    ?_, ?_, ?_⟩
  · intro c hc
    obtain ⟨d, hd, ha⟩ := release_addr hc
    rw [← ha, ← magic_markFree h.toLaid hd, ha]
    exact hmagic c (he ▸ hc)
  · intro c hc hout
    rw [he] at hout
    rcases List.mem_append.mp hc with hc | hc
    · exact absurd rfl (hout c (by simp [hc]))
    · rcases List.mem_cons.mp hc with rfl | hc
      · obtain ⟨d, t, hd, ha, _⟩ := absorb_head SIZEOF_HEAD ⟨c.addr, c.size, true⟩ r
        exact absurd ha (hout d (by simp [hd]))
      · obtain ⟨hm, hf, n, hh, hn⟩ := hgone c hc hout
        refine ⟨hm, _, n, ⟨hh.size, hf ▸ hh.free, hh.prev, hh.next⟩, Or.inr ⟨b, by simp, rfl⟩, ?_⟩
        rcases hn with hn | ⟨d, hd, hn⟩
        · exact Or.inl hn
        · exact Or.inr ⟨d, by simp [hd], hn⟩
  · intro x hx
    rw [← markFree_frame s hx]
    exact hmem x (offHeads_mark hx)

/-- A free behind a free block `p`, which takes the block over. -/
theorem kfree_block_behind {s : Kheap} {l r : List Block} {p b : Block}
    (h : Shape s (l ++ p :: b :: r)) (hp : p.free = true)
    (he : release SIZEOF_HEAD (l ++ [p]) b r =
      l ++ absorb SIZEOF_HEAD ⟨p.addr, p.size + (b.size + SIZEOF_HEAD), true⟩ r) :
    Freed s (kfree_block s b.addr) (l ++ [p]) b r := by
  have hassoc : (l ++ [p]) ++ b :: r = l ++ p :: b :: r := by simp
  have h' : Shape s ((l ++ [p]) ++ b :: r) := hassoc ▸ h
  have hmark := laid_markFree h'.toLaid
  have hmark' : Laid (markFree s b.addr) (l ++ p :: ⟨b.addr, b.size, true⟩ :: r) := by
    simpa using hmark
  have hprev : lastAddr NULL (l ++ [p]) = p.addr := by simp [lastAddr]
  rw [kfree_block_eq h'.toLaid, hprev, kfree_join_prev_eq hmark' hp]
  have hj := joined_spec hmark'
  have hmerged : merged p ⟨b.addr, b.size, true⟩ =
      ⟨p.addr, p.size + (b.size + SIZEOF_HEAD), true⟩ := by
    simp [merged, hp]
  obtain ⟨hplace, hlaid, hmagic, hgone, hmem⟩ := kfree_join_next_grown hj.laid
  rw [hmerged] at hlaid hmagic hgone hmem
  have hoff : ∀ x, OffHeads (l ++ p :: b :: r) x →
      OffHeads (l ++ ⟨p.addr, p.size + (b.size + SIZEOF_HEAD), true⟩ :: r) x := by
    intro x hx c hc
    rcases List.mem_append.mp hc with hc | hc
    · exact hx c (by simp [hc])
    · rcases List.mem_cons.mp hc with rfl | hc
      · exact hx p (by simp)
      · exact hx c (by simp [hc])
  refine ⟨(samePlace_markFree s b.addr).trans (hj.place.trans hplace),
    ⟨he ▸ hlaid, apart_release h'.apart⟩, ?_, ?_, ?_⟩
  · intro c hc
    have hc' := he ▸ hc
    obtain ⟨d, hd, ha⟩ : ∃ d ∈ l ++ p :: r, d.addr = c.addr := by
      rcases List.mem_append.mp hc' with hc' | hc'
      · exact ⟨c, by simp [hc'], rfl⟩
      · obtain ⟨d, hd, ha⟩ := absorb_addr hc'
        rcases List.mem_cons.mp hd with rfl | hd
        · exact ⟨p, by simp, ha⟩
        · exact ⟨d, by simp [hd], ha⟩
    have hd' : d ∈ (l ++ [p]) ++ b :: r := by
      simp only [List.mem_append, List.mem_cons, List.not_mem_nil, or_false] at hd ⊢
      tauto
    rw [← ha, ← magic_markFree h'.toLaid hd', ← hj.magic d hd, ha]
    exact hmagic c hc'
  · intro c hc hout
    rw [he] at hout
    simp only [List.mem_append, List.mem_cons, List.not_mem_nil, or_false] at hc
    rcases hc with (hc | rfl) | rfl | hc
    · exact absurd rfl (hout c (by simp [hc]))
    · obtain ⟨d, t, hd, ha, _⟩ := absorb_head SIZEOF_HEAD
        ⟨c.addr, c.size + (b.size + SIZEOF_HEAD), true⟩ r
      exact absurd ha (hout d (by simp [hd]))
    · -- the header of the block itself lies inside the grown one
      have hframe : ∀ x, c.addr ≤ x → x < c.addr + 20 →
          (kfree_join_next (joined (markFree s c.addr) p.addr c.addr (firstAddr NULL r)
            (p.size + (c.size + SIZEOF_HEAD))) p.addr (firstAddr NULL r)).mem x =
          (joined (markFree s c.addr) p.addr c.addr (firstAddr NULL r)
            (p.size + (c.size + SIZEOF_HEAD))).mem x := by
        intro x hx hx'
        obtain ⟨hleft, hright⟩ := h.beside
        have hpc := hright c (by simp)
        refine hmem x fun d hd => ?_
        rcases List.mem_append.mp hd with hd | hd
        · have := hleft d hd
          omega
        · rcases List.mem_cons.mp hd with rfl | hd
          · simp only
            omega
          · have := h'.beside.2 d hd
            omega
      have hgm : head_magic _ c.addr = 0 := hj.gone.1
      refine ⟨?_, p.addr, firstAddr NULL r,
        headIs_congr hj.gone.2 fun x hx hx' => hframe x (Nat.le_of_add_right_le hx) hx', ?_, ?_⟩
      · rw [← hgm]
        exact load32_congr fun x hx hx' => hframe x hx (by omega)
      · exact Or.inr ⟨p, by simp, rfl⟩
      · rcases firstAddr_mem r with h0 | ⟨d, hd, hn⟩
        · exact Or.inl h0
        · exact Or.inr ⟨d, by simp [hd], hn⟩
    · obtain ⟨hm, hf, n, hh, hn⟩ := hgone c hc hout
      refine ⟨hm, _, n, ⟨hh.size, hf ▸ hh.free, hh.prev, hh.next⟩, Or.inr ⟨p, by simp, rfl⟩, ?_⟩
      rcases hn with hn | ⟨d, hd, hn⟩
      · exact Or.inl hn
      · exact Or.inr ⟨d, by simp [hd], hn⟩
  · intro x hx
    rw [← markFree_frame s hx]
    have hx' := offHeads_mark hx
    rw [List.append_assoc, List.singleton_append] at hx'
    rw [hassoc] at hx
    exact (hmem x (hoff x hx)).trans (hj.mem x hx')

/-- `kfree` marks the block of a pointer free and merges it with its free
neighbours. -/
theorem kfree_block_spec {s : Kheap} {l r : List Block} {b : Block} (h : Shape s (l ++ b :: r)) :
    Freed s (kfree_block s b.addr) l b r := by
  rcases release_cases SIZEOF_HEAD l b r with ⟨he, hlast⟩ | ⟨l', p, rfl, hp, he⟩
  · exact kfree_block_alone h he hlast
  · exact kfree_block_behind (by simpa using h) hp he

/-! ## The checks of `kfree` -/

/-- The pointer points into the heap. -/
def InRange (s : Kheap) (ptr : Nat) : Prop :=
  s.kheap_base ≤ ptr ∧ ptr < s.kheap_base + KHEAP_HEAP_SIZE

theorem Laid.inRange {s : Kheap} {bs : List Block} (h : Laid s bs) {b : Block} (hb : b ∈ bs) :
    InRange s (b.addr + 20) := by
  obtain ⟨_, _, hlo, hhi, hroom⟩ := h.inHeap hb
  exact ⟨by omega, by simp only [KHEAP_HEAP_SIZE]; omega⟩

/-- A pointer into the heap passes the checks that come before the magic. -/
theorem Laid.checks {s : Kheap} {bs : List Block} (h : Laid s bs) {ptr : Nat}
    (hptr : InRange s ptr) :
    ptr ≠ NULL ∧ kheap_is_placement_memory s ptr = false ∧
      ¬ (ptr < s.kheap_base ∨ add32 s.kheap_base KHEAP_HEAP_SIZE ≤ ptr) ∧
      sub32 ptr SIZEOF_HEAD = ptr - 20 ∧ ptr - 20 ≠ NULL := by
  have h1 := h.low
  have h2 := h.high
  obtain ⟨h3, h4⟩ := hptr
  simp only [KHEAP_PLACEMENT_SIZE, KHEAP_HEAP_SIZE] at h1 h2 h4
  have hend : add32 s.kheap_base KHEAP_HEAP_SIZE = s.kheap_base + 33554432 :=
    add32_eq (by simp only [KHEAP_HEAP_SIZE]; omega)
  have hplace : add32 s.kheap_placement_memory KHEAP_PLACEMENT_SIZE =
      s.kheap_placement_memory + 1048576 :=
    add32_eq (by simp only [KHEAP_PLACEMENT_SIZE]; omega)
  refine ⟨?_, ?_, ?_, ?_, ?_⟩
  · show ptr ≠ 0
    omega
  · simp only [kheap_is_placement_memory, hplace, decide_eq_false_iff_not]
    omega
  · rw [hend]
    omega
  · exact sub32_eq (by simp only [SIZEOF_HEAD]; omega) (by omega)
  · show ptr - 20 ≠ 0
    omega

/-- `kfree` of the pointer to a block in use. -/
theorem kfree_live {s : Kheap} {l r : List Block} {b : Block} (h : Laid s (l ++ b :: r))
    (hm : head_magic s.mem b.addr = KHEAP_MAGIC) (hb : b.free = false) :
    kfree s (b.addr + 20) = .done () (kfree_block s b.addr) := by
  obtain ⟨h0, hplace, hrange, hsub, hne⟩ := h.checks (h.inRange (b := b) (by simp))
  have hlinked := h.linked
  rw [linked_at] at hlinked
  have hfree := hlinked.2.1.free
  rw [Nat.add_sub_cancel] at hsub hne
  unfold kfree kheap_get_heap_block
  simp [hplace, hrange, hsub, hm, hne, hfree, hb]

/-- `kfree` of a pointer that is not behind the header of a block in use. -/
theorem kfree_caught {s : Kheap} {bs : List Block} (h : Laid s bs) {ptr : Nat}
    (hptr : InRange s ptr)
    (hbad : head_magic s.mem (ptr - 20) ≠ KHEAP_MAGIC ∨ head_free s.mem (ptr - 20) ≠ 0) :
    ∃ message, kfree s ptr = .kpanic KPANIC_OUT_OF_MEMORY message s := by
  obtain ⟨h0, hplace, hrange, hsub, hne⟩ := h.checks hptr
  unfold kfree kheap_get_heap_block
  by_cases hm : head_magic s.mem (ptr - 20) = KHEAP_MAGIC
  · have hfree := hbad.resolve_left (fun hc => hc hm)
    refine ⟨"Double free detected.", ?_⟩
    simp [hplace, hrange, hsub, hm, hne, hfree]
    exact h0
  · refine ⟨"Invalid heap block magic: memory corrupted.", ?_⟩
    simp [hplace, hrange, hsub, hm]
    exact h0

end sakana_os
