-- The memory that the heap leaves to others: all that lies outside it, and the payloads
-- in use. An allocation keeps these bytes, and whoever writes only these keeps the heap.
import SakanaOS.HeapRuns

open byte_memory block_tiling

namespace sakana_os

/-- The byte is not the heap's own: it lies outside the heap, or in a payload in use. -/
def Held (s : Kheap) (x : Nat) : Prop :=
  x < s.kheap_base ∨ s.kheap_base + KHEAP_HEAP_SIZE ≤ x ∨
    ∃ b ∈ heap_blocks s, b.free = false ∧ b.addr + 20 ≤ x ∧ x < b.addr + 20 + b.size

theorem Shape.held_offHeads {s : Kheap} {bs : List Block} (h : Shape s bs) {x : Nat}
    (hx : Held s x) : OffHeads bs x := by
  rcases hx with hlow | hhigh | ⟨b, hb, -, h1, h2⟩
  · intro c hc
    have hin := h.inHeap hc
    exact Or.inl (Nat.lt_of_lt_of_le hlow hin.lo)
  · intro c hc
    have hin := h.inHeap hc
    unfold KHEAP_HEAP_SIZE at hhigh
    exact Or.inr (by have := hin.hi; omega)
  · rw [h.blocks] at hb
    exact h.offHeads hb h1 h2

/-- The heap does not depend on the bytes that it leaves to others. -/
theorem Shape.setMem {s : Kheap} {bs : List Block} (h : Shape s bs) {m : Mem}
    (hm : ∀ x, ¬ Held s x → m x = s.mem x) : Shape { s with mem := m } bs := by
  have hheads : SameHeads s.mem m bs := by
    intro b hb x h1 h2
    apply hm
    intro hheld
    rcases h.held_offHeads hheld b hb with hoff | hoff
    · omega
    · omega
  exact ⟨h.update ⟨rfl, rfl, rfl, rfl, rfl, rfl⟩ h.tail h.tiles (linked_congr h.linked hheads)
    h.roomy, h.apart⟩

/-- Bytes that are held stay so, whatever is written to bytes that are held. -/
theorem Held.setMem {s : Kheap} {bs : List Block} (h : Shape s bs) {m : Mem}
    (hm : ∀ x, ¬ Held s x → m x = s.mem x) {x : Nat} (hx : Held s x) :
    Held { s with mem := m } x := by
  unfold Held
  rw [(h.setMem hm).blocks]
  unfold Held at hx
  rw [h.blocks] at hx
  exact hx

/-- Taking a block keeps what is held, and the bytes that were taken are held from then on. -/
theorem Took.held {s s' : Kheap} {l r : List Block} {b : Block} {size : Nat} {init : Bool}
    (h : Took s s' l b r size init) (hs : Shape s (l ++ b :: r)) (hfree : b.free = true)
    (hfit : size ≤ b.size) :
    (∀ x, Held s x → Held s' x ∧ s'.mem x = s.mem x ∧
      (x < b.addr + 20 ∨ b.addr + 20 + size ≤ x)) ∧
      ∀ x, b.addr + 20 ≤ x → x < b.addr + 20 + size → Held s' x := by
  have hmem : b ∈ l ++ b :: r := by simp
  have hin := hs.inHeap hmem
  obtain ⟨hmore, hstop⟩ := taken_fits SIZEOF_HEAD hfit
  have haddr : (taken SIZEOF_HEAD size b).addr = b.addr := rfl
  simp only [Block.stop, SIZEOF_HEAD] at hmore hstop haddr
  constructor
  · rintro x (hlow | hhigh | ⟨e, he, hused, h1, h2⟩)
    · have hheld : Held s' x := Or.inl (by rw [h.place.base]; exact hlow)
      have hlo := hin.lo
      refine ⟨hheld, ?_, Or.inl (by omega)⟩
      rw [h.mem x (h.shape.held_offHeads hheld), if_neg (by omega)]
    · have hheld : Held s' x := Or.inr (Or.inl (by rw [h.place.base]; exact hhigh))
      have hhi := hin.hi
      unfold KHEAP_HEAP_SIZE at hhigh
      refine ⟨hheld, ?_, Or.inr (by omega)⟩
      rw [h.mem x (h.shape.held_offHeads hheld), if_neg (by simp only [SIZEOF_HEAD]; omega)]
    · rw [hs.blocks] at he
      obtain ⟨hstays, hkept⟩ := h.frame hs hfree hfit he hused
      refine ⟨Or.inr (Or.inr ⟨e, ?_, hused, h1, h2⟩), hkept x h1 h2, ?_⟩
      · rw [h.shape.blocks]
        exact hstays
      · have hdis := tiles_disjoint hs.tiles he hmem
        simp only [Block.stop, SIZEOF_HEAD] at hdis
        rcases hdis with rfl | hdis | hdis
        · rw [hfree] at hused
          cases hused
        · omega
        · omega
  · intro x h1 h2
    refine Or.inr (Or.inr ⟨taken SIZEOF_HEAD size b, ?_, rfl, ?_⟩)
    · rw [h.shape.blocks]
      simp [taken_mem]
    · simp only [SIZEOF_HEAD]
      omega

/-- What an allocation that succeeds leaves: a heap again, with the new bytes held, and
all that was held before as it was, apart from the new bytes. -/
theorem kmalloc_held {s k : Kheap} {bs : List Block} (h : Shape s bs) {size p : Nat}
    (hsize : size ≤ KHEAP_HEAP_SIZE) (halloc : kmalloc s size = .done p k) (hp : p ≠ NULL) :
    (∃ bs', Shape k bs') ∧ p + size ≤ 4294967296 ∧
      (∀ x, Held s x → Held k x ∧ k.mem x = s.mem x ∧ (x < p ∨ p + size ≤ x)) ∧
      ∀ x, p ≤ x → x < p + size → Held k x := by
  have hflag : kmalloc s size = kmalloc_flag s size MALLOC_FLAG_NULL := rfl
  rcases kmalloc_flag_spec h hsize (show MALLOC_FLAG_NULL &&& MALLOC_FLAG_ALIGN = 0 by rfl) with
    ⟨heq, -⟩ | ⟨l, b, r, t, rfl, -, hfree, -, hfit, heq, htook⟩
  · rw [hflag, heq] at halloc
    cases halloc
    exact absurd rfl hp
  · rw [hflag, heq] at halloc
    cases halloc
    have hin := h.inHeap (show b ∈ l ++ b :: r by simp)
    have hhi := hin.hi
    have hhigh := hin.base_high
    exact ⟨⟨_, htook.shape⟩, by omega, htook.held h hfree hfit⟩

end sakana_os
