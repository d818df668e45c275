-- A pointer freed twice: the bytes where the header of a freed block stood never
-- read as the header of a block in use, as long as nobody writes the magic there.
import SakanaOS.HeapRuns

open byte_memory block_tiling runs

namespace sakana_os

/-! ## The bytes of the magic -/

/-- The last bytes of the address, as they stand in memory, are the first bytes of
the magic. -/
def SpellsMagic (a : Nat) : Prop :=
  a = KHEAP_MAGIC ∨ a / 256 = 0x1EF00D ∨ a / 65536 = 0xF00D ∨ a / 16777216 = 0x0D

/-- A word in which a copy of the magic begins has its first bytes at the end. -/
theorem spells_magic {m : Mem} {w a : Nat} (h1 : w ≤ a) (h2 : a < w + 4)
    (hmagic : load32 m a = KHEAP_MAGIC) : SpellsMagic (load32 m w) := by
  obtain ⟨a0, a1, a2, a3⟩ := load32_bytes m a
  obtain ⟨w0, w1, w2, w3⟩ := load32_bytes m w
  rw [hmagic] at a0 a1 a2 a3
  simp only [KHEAP_MAGIC] at a0 a1 a2 a3
  unfold SpellsMagic
  obtain rfl | rfl | rfl | rfl : a = w ∨ a = w + 1 ∨ a = w + 2 ∨ a = w + 3 := by omega
  · exact Or.inl hmagic
  · refine Or.inr (Or.inl ?_)
    simp only [Nat.add_assoc, Nat.reduceAdd] at a1 a2
    omega
  · refine Or.inr (Or.inr (Or.inl ?_))
    simp only [Nat.add_assoc, Nat.reduceAdd] at a1
    omega
  · refine Or.inr (Or.inr (Or.inr ?_))
    omega

/-- A header in which no word but the first can hold the first bytes of the magic. -/
structure PlainHead (m : Mem) (h : Nat) : Prop where
  magic : head_magic m h = KHEAP_MAGIC ∨ head_magic m h = 0
  size : head_size m h < 67108864
  free : head_free m h < 2
  prev : ¬ SpellsMagic (head_prev m h)
  next : ¬ SpellsMagic (head_next m h)

/-- A copy of the magic does not end inside the word of the magic. -/
theorem no_magic_before {m : Mem} {h a : Nat} (hp : PlainHead m h) (h1 : h < a + 4) (h2 : a < h) :
    load32 m a ≠ KHEAP_MAGIC := by
  intro hmagic
  obtain ⟨_, _, _, a3⟩ := load32_bytes m a
  obtain ⟨m0, m1, m2, _⟩ := load32_bytes m h
  rw [hmagic] at a3
  have hm := hp.magic
  simp only [head_magic, KHEAP_MAGIC] at hm a3
  obtain rfl | rfl | rfl : h = a + 1 ∨ h = a + 2 ∨ h = a + 3 := by omega
  · simp only [Nat.add_assoc, Nat.reduceAdd] at m2
    omega
  · simp only [Nat.add_assoc, Nat.reduceAdd] at m1
    omega
  · omega

/-- A copy of the magic that overlaps a header stands at its start. -/
theorem no_magic_inside {m : Mem} {h a : Nat} (hp : PlainHead m h) (hne : a ≠ h)
    (h1 : h < a + 4) (h2 : a < h + 20) : load32 m a ≠ KHEAP_MAGIC := by
  by_cases hlt : a < h
  · exact no_magic_before hp h1 hlt
  intro hmagic
  obtain ⟨hm, hs, hf, hpr, hnx⟩ := hp
  by_cases hsize : a < h + 4
  · -- the word of the magic, behind its first byte
    obtain ⟨a0, _, _, _⟩ := load32_bytes m a
    obtain ⟨_, m1, m2, m3⟩ := load32_bytes m h
    rw [hmagic] at a0
    simp only [head_magic, KHEAP_MAGIC] at hm a0
    obtain rfl | rfl | rfl : a = h + 1 ∨ a = h + 2 ∨ a = h + 3 := by omega
    all_goals omega
  by_cases hfree : a < h + 8
  · have hspell := spells_magic (w := h + 4) (by omega) (by omega) hmagic
    simp only [head_size, SpellsMagic, KHEAP_MAGIC] at hs hspell
    omega
  by_cases hprev : a < h + 12
  · have hspell := spells_magic (w := h + 8) (by omega) (by omega) hmagic
    simp only [head_free, SpellsMagic, KHEAP_MAGIC] at hf hspell
    omega
  by_cases hnext : a < h + 16
  · exact hpr (spells_magic (by omega) (by omega) hmagic)
  · exact hnx (spells_magic (by omega) (by omega) hmagic)

/-- No byte of the magic is zero. -/
theorem no_magic_zero {m : Mem} {a x : Nat} (h1 : a ≤ x) (h2 : x < a + 4) (h0 : m x = 0) :
    load32 m a ≠ KHEAP_MAGIC := by
  intro hmagic
  obtain ⟨a0, a1, a2, a3⟩ := load32_bytes m a
  rw [hmagic] at a0 a1 a2 a3
  simp only [KHEAP_MAGIC] at a0 a1 a2 a3
  have hx : (m x).toNat = 0 := by
    rw [h0]
    rfl
  obtain rfl | rfl | rfl | rfl : x = a ∨ x = a + 1 ∨ x = a + 2 ∨ x = a + 3 := by omega
  all_goals omega

/-! ## The headers of the heap -/

/-- No address in the heap spells the magic. -/
def PlainRegion (base : Nat) : Prop :=
  ∀ a, base ≤ a → a < base + KHEAP_HEAP_SIZE → ¬ SpellsMagic a

theorem null_spells_nothing : ¬ SpellsMagic NULL := by
  unfold SpellsMagic KHEAP_MAGIC
  decide

/-- The links of a header are plain when they are NULL or lead to blocks. -/
theorem plain_link {s : Kheap} {bs : List Block} (h : Laid s bs) (hplain : PlainRegion s.kheap_base)
    {n : Nat} (hn : n = NULL ∨ ∃ d ∈ bs, n = d.addr) : ¬ SpellsMagic n := by
  rcases hn with rfl | ⟨d, hd, rfl⟩
  · exact null_spells_nothing
  · obtain ⟨_, _, hlo, hhi, hroom⟩ := h.inHeap hd
    exact hplain _ hlo (by simp only [KHEAP_HEAP_SIZE]; omega)

theorem plain_head {s : Kheap} {bs : List Block} (h : Laid s bs)
    (hplain : PlainRegion s.kheap_base) {b : Block} (hb : b ∈ bs) {m : Mem} {p n : Nat} {f : Bool}
    (hhead : HeadIs m ⟨b.addr, b.size, f⟩ p n)
    (hmagic : head_magic m b.addr = KHEAP_MAGIC ∨ head_magic m b.addr = 0)
    (hp : p = NULL ∨ ∃ d ∈ bs, p = d.addr) (hn : n = NULL ∨ ∃ d ∈ bs, n = d.addr) :
    PlainHead m b.addr := by
  obtain ⟨_, _, hlo, hhi, hroom⟩ := h.inHeap hb
  obtain ⟨h1, h2, h3, h4⟩ := hhead
  simp only at h1 h2 h3 h4
  refine ⟨hmagic, ?_, ?_, ?_, ?_⟩
  · rw [h1]
    omega
  · rw [h2]
    exact Bool.toNat_lt f
  · rw [h3]
    exact plain_link h hplain hp
  · rw [h4]
    exact plain_link h hplain hn

/-- Every header of a sealed heap is plain. -/
theorem plain_heads {s : Kheap} {bs : List Block} (h : Laid s bs) (hseal : Sealed s bs)
    (hplain : PlainRegion s.kheap_base) {b : Block} (hb : b ∈ bs) : PlainHead s.mem b.addr := by
  obtain ⟨l, r, rfl⟩ := List.append_of_mem hb
  have hlinked := h.linked
  rw [linked_at] at hlinked
  refine plain_head h hplain hb (f := b.free) hlinked.2.1 (Or.inl (hseal b hb)) ?_ ?_
  · rcases lastAddr_mem NULL l with h0 | ⟨d, hd, he⟩
    · exact Or.inl h0
    · exact Or.inr ⟨d, by simp [hd], he⟩
  · rcases firstAddr_mem r with h0 | ⟨d, hd, he⟩
    · exact Or.inl h0
    · exact Or.inr ⟨d, by simp [hd], he⟩

/-! ## The bytes of a header that is gone -/

/-- The magic stands at `h` only as the header of a block. -/
def Quiet (m : Mem) (bs : List Block) (h : Nat) : Prop :=
  load32 m h = KHEAP_MAGIC → ∃ b ∈ bs, b.addr = h

/-- A copy of the magic that is no header of the heap overlaps none. -/
theorem magic_off_heads {s : Kheap} {bs : List Block} (hs : Laid s bs) (hseal : Sealed s bs)
    (hplain : PlainRegion s.kheap_base) {h : Nat} (hmagic : load32 s.mem h = KHEAP_MAGIC)
    (hno : ¬ ∃ b ∈ bs, b.addr = h) {b : Block} (hb : b ∈ bs) :
    h + 4 ≤ b.addr ∨ b.addr + 20 ≤ h := by
  by_contra hover
  rw [not_or] at hover
  refine no_magic_inside (plain_heads hs hseal hplain hb) ?_ (by omega) (by omega) hmagic
  rintro rfl
  exact hno ⟨b, hb, rfl⟩

theorem quiet_took {s s' : Kheap} {l r : List Block} {b : Block} {size h : Nat} {init : Bool}
    (htook : Took s s' l b r size init) (hseal : Sealed s (l ++ b :: r))
    (hplain : PlainRegion s.kheap_base) (hq : Quiet s.mem (l ++ b :: r) h) :
    Quiet s'.mem (l ++ (carve SIZEOF_HEAD size b ++ r)) h := by
  intro hmagic
  by_contra hno
  have hoff := fun {c : Block} => magic_off_heads htook.shape.toLaid (htook.sealed hseal)
    (by rw [htook.place.base]; exact hplain) hmagic hno (b := c)
  have hmem : ∀ x, h ≤ x → x < h + 4 → s'.mem x = s.mem x := by
    intro x hx hx'
    have hxoff : OffHeads (l ++ (carve SIZEOF_HEAD size b ++ r)) x := by
      intro c hc
      have := hoff hc
      omega
    have heq := htook.mem x hxoff
    split at heq
    · exact absurd hmagic (no_magic_zero hx hx' heq)
    · exact heq
  rw [load32_congr hmem] at hmagic
  obtain ⟨c, hc, hch⟩ := hq hmagic
  obtain ⟨d, hd, hdc⟩ := carve_addr SIZEOF_HEAD size hc
  exact hno ⟨d, hd, hdc.trans hch⟩

theorem quiet_wrote {s s' : Kheap} {bs : List Block} {b : Block} {h : Nat} (hwrote : Wrote s s' b)
    (hs : Shape s bs) (hb : b ∈ bs) (hseal : Sealed s bs) (hplain : PlainRegion s.kheap_base)
    (hlo : s.kheap_base ≤ h) (hhi : h + 4 ≤ s.kheap_base + KHEAP_HEAP_SIZE)
    (hq : Quiet s.mem bs h)
    (hin : b.addr + 20 ≤ h → h + 4 ≤ b.addr + 20 + b.size → Quiet s'.mem bs h) :
    Quiet s'.mem bs h := by
  intro hmagic
  by_contra hno
  have hoff := fun {c : Block} => magic_off_heads (hwrote.shape hs hb).toLaid
    (hwrote.sealed hs hb hseal) (by rw [hwrote.place.base]; exact hplain) hmagic hno (b := c)
  -- the four bytes lie in the payload of one block
  obtain ⟨e, he, he1, he2⟩ := tiles_cover hs.tiles hlo (by omega)
  have heoff := hoff he
  have hend : h + 4 ≤ e.addr + 20 + e.size := by
    by_contra hlt
    obtain ⟨f, hf, hf1, hf2⟩ := tiles_cover hs.tiles (x := h + 3) (by omega) (by omega)
    have hfoff := hoff hf
    have hdis := tiles_disjoint hs.tiles he hf
    simp only [Block.stop, SIZEOF_HEAD] at he2 hf2 hdis
    rcases hdis with rfl | hdis | hdis <;> omega
  by_cases hbe : b = e
  · subst hbe
    exact hno (hin (by omega) hend hmagic)
  · have hmem : ∀ x, h ≤ x → x < h + 4 → s'.mem x = s.mem x := by
      intro x hx hx'
      apply hwrote.mem
      have hdis := tiles_disjoint hs.tiles hb he
      simp only [Block.stop, SIZEOF_HEAD] at hdis
      rcases hdis with hdis | hdis | hdis
      · exact absurd hdis hbe
      · omega
      · omega
    rw [load32_congr hmem] at hmagic
    exact hno (hq hmagic)

theorem quiet_freed {s s' : Kheap} {l r : List Block} {b : Block} {h : Nat}
    (hfreed : Freed s s' l b r) (hs : Shape s (l ++ b :: r)) (hseal : Sealed s (l ++ b :: r))
    (hplain : PlainRegion s.kheap_base) (hq : Quiet s.mem (l ++ b :: r) h) :
    Quiet s'.mem (release SIZEOF_HEAD l b r) h := by
  intro hmagic
  by_contra hno
  have hoff := fun {c : Block} => magic_off_heads hfreed.shape.toLaid (hfreed.sealed hseal)
    (by rw [hfreed.place.base]; exact hplain) hmagic hno (b := c)
  have hold : ∀ c ∈ l ++ b :: r, h + 4 ≤ c.addr ∨ c.addr + 20 ≤ h := by
    intro c hc
    by_cases hkept : ∃ d ∈ release SIZEOF_HEAD l b r, d.addr = c.addr
    · obtain ⟨d, hd, hdc⟩ := hkept
      have := hoff hd
      omega
    · -- a header that was merged away has lost the magic and links to blocks still
      obtain ⟨hm, p, n, hhead, hp, hn⟩ := hfreed.gone c hc
        (fun d hd heq => hkept ⟨d, hd, heq⟩)
      have hphead := plain_head hs.toLaid hplain hc hhead (Or.inr hm) hp hn
      by_contra hover
      rw [not_or] at hover
      refine no_magic_inside hphead ?_ (by omega) (by omega) hmagic
      rintro rfl
      rw [← head_magic, hm] at hmagic
      cases hmagic
  have hmem : ∀ x, h ≤ x → x < h + 4 → s'.mem x = s.mem x := by
    intro x hx hx'
    refine hfreed.mem x fun c hc => ?_
    have := hold c hc
    omega
  rw [load32_congr hmem] at hmagic
  obtain ⟨c, hc, hch⟩ := hq hmagic
  have := hold c hc
  omega

/-! ## Runs -/

/-- The call makes no four bytes of a payload read the magic that did not before.
Only a store, and the copy that `krealloc` makes, could. -/
def NoNewMagic (c : Clients) : HeapCall → Prop
  | .kmalloc _ | .kmalloc_flag .. | .kfree _ => True
  | call => ∀ c', client_step c call = some c' → ∀ q ∈ c'.live, ∀ a, q ≤ a →
    a + 4 ≤ q + payload_size c'.heap q → load32 c'.heap.mem a = KHEAP_MAGIC →
    load32 c.heap.mem a = KHEAP_MAGIC

theorem NoNewMagic.resizes {c c' : Clients} {call : HeapCall} {ptr : Nat}
    (h : NoNewMagic c call) (hcall : call.Resizes ptr) (hstep : client_step c call = some c') :
    ∀ q ∈ c'.live, ∀ a, q ≤ a → a + 4 ≤ q + payload_size c'.heap q →
      load32 c'.heap.mem a = KHEAP_MAGIC → load32 c.heap.mem a = KHEAP_MAGIC := by
  rcases hcall with ⟨size, rfl⟩ | ⟨size, flag, rfl⟩
  · exact h c' hstep
  · exact h c' hstep

/-- One call keeps the magic out of the places where headers stood. -/
theorem Did.quiet {c c' : Clients} {bs bs' : List Block} {call : HeapCall} {h : Nat}
    (hdid : Did c bs call c' bs') (hinv : HeapInvariant c bs)
    (hplain : PlainRegion c.heap.kheap_base) (hlo : c.heap.kheap_base ≤ h)
    (hhi : h + 4 ≤ c.heap.kheap_base + KHEAP_HEAP_SIZE) (hstep : client_step c call = some c')
    (hnew : NoNewMagic c call) (hq : Quiet c.heap.mem bs h) : Quiet c'.heap.mem bs' h := by
  have hinv' := hdid.invariant hinv
  obtain ⟨hshape, hseal, _⟩ := hinv
  cases hdid with
  | nothing _ => exact hq
  | took _ hbs _ _ _ htook =>
    subst hbs
    exact quiet_took htook hseal hplain hq
  | freed _ hbs _ hfreed =>
    subst hbs
    exact quiet_freed hfreed hshape hseal hplain hq
  | stored hptr hb hused hin hs =>
    subst hptr hs
    refine quiet_wrote (wrote_store c.heap hin) hshape hb hseal hplain hlo hhi hq ?_
    intro h1 h2 hmagic
    obtain ⟨hlive, hsize⟩ := hinv'.pointer hb hused
    exact hq (hnew _ hstep _ hlive h h1 (by rw [hsize]; exact h2) hmagic)
  | @moved _ ptr l r l' r' b d t u s size init hcall hptr hb hused hbs hfree _ hfit htook _ hwrote
      hsplit hfreed =>
    subst hbs
    have htaken : taken SIZEOF_HEAD size d ∈ l ++ (carve SIZEOF_HEAD size d ++ r) := by
      simp [taken_mem]
    have hshapeu := hwrote.shape htook.shape htaken
    have hsealu := hwrote.sealed htook.shape htaken (htook.sealed hseal)
    have hqt := quiet_took htook hseal hplain hq
    have hplaint : PlainRegion t.kheap_base := by
      rw [htook.place.base]
      exact hplain
    have hqu : Quiet u.mem (l ++ (carve SIZEOF_HEAD size d ++ r)) h := by
      refine quiet_wrote hwrote htook.shape htaken (htook.sealed hseal) hplaint
        (by rw [htook.place.base]; exact hlo) (by rw [htook.place.base]; exact hhi) hqt ?_
      intro h1 h2 hmagic
      -- the block that was taken is still in use after the free of the old one
      have hin : taken SIZEOF_HEAD size d ∈ l' ++ b :: r' := hsplit ▸ htaken
      have hne : taken SIZEOF_HEAD size d ≠ b := by
        intro heq
        have hbd := tiles_inj hshape.tiles (by decide) hb (by simp : d ∈ l ++ d :: r)
          (by rw [← heq]; rfl)
        rw [hbd, hfree] at hused
        cases hused
      obtain ⟨hlive, hsize⟩ := hinv'.pointer (release_keeps hin hne rfl) rfl
      have hmem := (hfreed.frame (hsplit ▸ hshapeu) hin).2
      have hmagic' : load32 s.mem h = KHEAP_MAGIC := by
        rw [load32_congr fun x hx hx' => hmem x (by omega) (by omega)]
        exact hmagic
      obtain ⟨e, he, heh⟩ := hq (hnew.resizes hcall hstep _ hlive h h1
        (by rw [hsize]; exact h2) hmagic')
      obtain ⟨f, hf, hfe⟩ := carve_addr SIZEOF_HEAD size he
      exact ⟨f, hf, hfe.trans heh⟩
    rw [hsplit] at hshapeu hsealu hqu
    refine quiet_freed hfreed hshapeu hsealu ?_ hqu
    rw [hwrote.place.base]
    exact hplaint

/-- A pointer that clients held once and hold no more was freed, and not returned
again since. To free it again is caught before anything changes, in every run in
which no payload reads the magic by chance and no address of the heap spells it. -/
theorem a_second_free_is_caught {s s₁ : Kheap} {base : Nat}
    (hlow : s.kheap_placement_memory + KHEAP_PLACEMENT_SIZE ≤ base)
    (hhigh : base + 2 * KHEAP_HEAP_SIZE + 400 < 4294967296)
    (hinit : kheap_init_at s base = .done () s₁) (hplain : PlainRegion base)
    {calls more : List HeapCall} {c d : Clients}
    (hrun : run client_step ⟨s₁, []⟩ calls = some c) {ptr : Nat} (hptr : ptr ∈ c.live)
    (hmore : run client_step c more = some d) (hnew : Along client_step NoNewMagic c more)
    (hfreed : ptr ∉ d.live) :
    ∃ message, kfree d.heap ptr = .kpanic KPANIC_OUT_OF_MEMORY message d.heap := by
  obtain ⟨hstart, hbase⟩ := start_invariant hlow hhigh hinit
  obtain ⟨⟨bs, hinv⟩, hplace⟩ := run_invariant ⟨_, hstart⟩ hrun
  have hcbase : c.heap.kheap_base = base := hplace.base.trans hbase
  obtain ⟨l, b, r, hbs, _, hb, _⟩ := hinv.block hptr
  have hbmem : b ∈ bs := by simp [hbs]
  obtain ⟨_, _, hlo, hhi, hroom⟩ := hinv.shape.inHeap hbmem
  rw [hcbase] at hlo hhi
  -- from the state in which the pointer was live, the place of its header stays quiet
  obtain ⟨bs', hinv', hdbase, hq⟩ : ∃ bs', HeapInvariant d bs' ∧ d.heap.kheap_base = base ∧
      Quiet d.heap.mem bs' b.addr := by
    refine run_keeps_along (motive := fun e => ∃ bs', HeapInvariant e bs' ∧
      e.heap.kheap_base = base ∧ Quiet e.heap.mem bs' b.addr) ?_
      ⟨bs, hinv, hcbase, fun _ => ⟨b, hbmem, rfl⟩⟩ hnew hmore
    rintro e call e' ⟨bs', hinv', hbase', hq⟩ hcond hstep
    obtain ⟨bs'', hdid⟩ := step_cases hinv' hstep
    refine ⟨bs'', hdid.invariant hinv', hdid.place.base.trans hbase', ?_⟩
    refine hdid.quiet hinv' ?_ ?_ ?_ hstep hcond hq
    · rw [hbase']
      exact hplain
    · rw [hbase']
      exact hlo
    · rw [hbase']
      simp only [KHEAP_HEAP_SIZE]
      omega
  have hrange : InRange d.heap ptr := by
    unfold InRange
    simp only [hdbase, KHEAP_HEAP_SIZE]
    omega
  refine kfree_caught hinv'.shape.toLaid hrange ?_
  rw [hb, Nat.add_sub_cancel]
  by_cases hmagic : head_magic d.heap.mem b.addr = KHEAP_MAGIC
  · obtain ⟨e, he, heb⟩ := hq hmagic
    have hefree : e.free = true := by
      by_contra hused
      rw [Bool.not_eq_true] at hused
      apply hfreed
      rw [hb, ← heb]
      exact (hinv'.pointer he hused).1
    obtain ⟨l', r', hbs'⟩ := List.append_of_mem he
    have hlinked := hinv'.shape.linked
    rw [hbs', linked_at] at hlinked
    right
    rw [← heb, hlinked.2.1.free, hefree]
    decide
  · exact Or.inl hmagic

theorem a_second_free_is_caught_after_a_sample_run :
    ∃ c d, run client_step ⟨startHeap, []⟩ [.kmalloc 100, .kmalloc 50] = some c ∧
      run client_step c [.kfree 0xC030008C, .kfree 0xC0300014, .kmalloc 20] = some d ∧
      ∃ message, kfree d.heap 0xC030008C = .kpanic KPANIC_OUT_OF_MEMORY message d.heap := by
  have hlives : (run client_step ⟨startHeap, []⟩ [.kmalloc 100, .kmalloc 50]).map Clients.live =
      some [0xC030008C, 0xC0300014] ∧
      (run client_step ⟨startHeap, []⟩ ([.kmalloc 100, .kmalloc 50] ++
        [.kfree 0xC030008C, .kfree 0xC0300014, .kmalloc 20])).map Clients.live =
      some [0xC0300014] := by
    decide +kernel
  obtain ⟨d, hd, hdlive⟩ := Option.map_eq_some_iff.mp hlives.2
  obtain ⟨c, hc, hmore⟩ := run_append.mp hd
  have hclive := hlives.1
  rw [hc] at hclive
  have hlow : bootKheap.kheap_placement_memory + KHEAP_PLACEMENT_SIZE ≤ 0xC0300000 := by decide
  have hplain : PlainRegion 0xC0300000 := by
    intro a h1 h2
    simp only [SpellsMagic, KHEAP_MAGIC, KHEAP_HEAP_SIZE] at h2 ⊢
    omega
  refine ⟨c, d, hc, hmore, a_second_free_is_caught hlow (by decide) rfl hplain hc ?_ hmore ?_ ?_⟩
  · rw [Option.some.inj hclive]
    decide
  · exact ⟨trivial, fun _ _ => ⟨trivial, fun _ _ => ⟨trivial, fun _ _ => trivial⟩⟩⟩
  · rw [hdlive]
    decide

/-- Two blocks behind a large one. -/
def twoBlocks : List HeapCall := [.kmalloc 0xD10A, .kmalloc 11, .kmalloc 1]

/-- Frees, takes and one `krealloc`, with no store: the last two bytes that it copies
are the last bytes of an old size, in front of the last bytes of an old link. -/
def copyTheMagic : List HeapCall :=
  [.kfree 0xC030D132, .kfree 0xC030D151, .kmalloc 1, .kfree 0xC030D132, .kmalloc 91,
    .kmalloc 0xF00D, .kfree 0xC030D132, .kfree 0xC030D1A1, .kmalloc 64, .kmalloc 13,
    .kfree 0xC030D132, .krealloc 0xC030D186 64]

/-- A heap that has addresses above 0xF00D0000. -/
def highHeap : Kheap :=
  match kheap_init_at (kheapStart 0xEFF00000 fun _ => 0) 0xF00D0000 with
  | .done _ s => s
  | _ => bootKheap

/-- Frees and takes only: the links of a new header spell the magic together. -/
def linkTheMagic : List HeapCall :=
  [.kfree 0xF00D0014, .kfree 0xF00DD118, .kmalloc 0xD0E2, .kmalloc_flag 20 MALLOC_FLAG_INIT]

/-- The heap does not contain the address of the magic, the run makes no store, and a
pointer that was live before it is not live after it, but a second free is not caught. -/
def passesTwice (s : Kheap) (calls more : List HeapCall) (ptr : Nat) : Bool :=
  (s.kheap_base + KHEAP_HEAP_SIZE ≤ KHEAP_MAGIC || KHEAP_MAGIC < s.kheap_base) &&
    s.kheap_base + 2 * KHEAP_HEAP_SIZE + 400 < 4294967296 &&
    (calls ++ more).all (fun call => match call with | .store .. => false | _ => true) &&
    match run client_step ⟨s, []⟩ calls with
    | none => false
    | some c =>
      ptr ∈ c.live && match run client_step c more with
        | none => false
        | some d => ptr ∉ d.live && match kfree d.heap ptr with
          | .done () _ => true
          | _ => false

theorem a_second_free_can_pass :
    passesTwice startHeap twoBlocks copyTheMagic 0xC030D151 = true ∧
      passesTwice highHeap [.kmalloc 0xD0F0, .kmalloc 1] linkTheMagic 0xF00DD118 = true := by
  decide +kernel

end sakana_os
