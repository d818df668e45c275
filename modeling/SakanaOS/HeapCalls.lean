-- Clients of the heap: what a sequence of `kmalloc`, `krealloc` and `kfree` makes
-- of the blocks, whatever the clients store in the memory they hold.
import SakanaOS.KfreeSpec
import SakanaOS.Runs

open byte_memory block_tiling runs

namespace sakana_os

/-! ## Writes into a block in use -/

/-- The memory changed inside the payload of one block only. -/
structure Wrote (s s' : Kheap) (b : Block) : Prop where
  place : SamePlace s s'
  tail : s'.kheap_tail = s.kheap_tail
  mem : ∀ x, x < b.addr + 20 ∨ b.addr + 20 + b.size ≤ x → s'.mem x = s.mem x

theorem Wrote.heads {s s' : Kheap} {bs : List Block} {b : Block} (h : Wrote s s' b)
    (hs : Shape s bs) (hb : b ∈ bs) : SameHeads s.mem s'.mem bs := by
  intro c hc x hx hx'
  have hdis := tiles_disjoint hs.tiles hb hc
  simp only [Block.stop, SIZEOF_HEAD] at hdis
  apply h.mem
  rcases hdis with rfl | hdis | hdis
  · exact Or.inl hx'
  · exact Or.inr (Nat.le_trans hdis hx)
  · omega

theorem Wrote.shape {s s' : Kheap} {bs : List Block} {b : Block} (h : Wrote s s' b)
    (hs : Shape s bs) (hb : b ∈ bs) : Shape s' bs :=
  ⟨hs.update h.place (h.tail.trans hs.tail) hs.tiles (linked_congr hs.linked (h.heads hs hb))
    hs.roomy, hs.apart⟩

theorem Wrote.sealed {s s' : Kheap} {bs : List Block} {b : Block} (h : Wrote s s' b)
    (hs : Shape s bs) (hb : b ∈ bs) (hseal : Sealed s bs) : Sealed s' bs := by
  intro c hc
  rw [← hseal c hc]
  exact load32_congr fun x hx hx' => h.heads hs hb c hc x hx (by omega)

/-- A store at an offset into the payload, within its size. -/
theorem wrote_store (s : Kheap) {b : Block} {offset : Nat} {bytes : List UInt8}
    (h : offset + bytes.length ≤ b.size) :
    Wrote s { s with mem := storeList s.mem (b.addr + 20 + offset) bytes } b :=
  ⟨⟨rfl, rfl, rfl, rfl, rfl, rfl⟩, rfl, fun _ hx => storeList_frame _ _ _ _ (by omega)⟩

/-! ## The calls, from the blocks to the blocks -/

theorem Took.sealed {s s' : Kheap} {l r : List Block} {b : Block} {size : Nat} {init : Bool}
    (h : Took s s' l b r size init) (hseal : Sealed s (l ++ b :: r)) :
    Sealed s' (l ++ (carve SIZEOF_HEAD size b ++ r)) := by
  intro c hc
  rcases h.magic c hc with hm | ⟨d, hd, ha, hm⟩
  · exact hm
  · rw [hm, ← ha]
    exact hseal d hd

theorem Freed.sealed {s s' : Kheap} {l r : List Block} {b : Block} (h : Freed s s' l b r)
    (hseal : Sealed s (l ++ b :: r)) : Sealed s' (release SIZEOF_HEAD l b r) := by
  intro c hc
  obtain ⟨d, hd, ha⟩ := release_addr hc
  rw [h.magic c hc, ← ha]
  exact hseal d hd

/-- `kmalloc_flag` without alignment, on a heap that is enabled. -/
theorem kmalloc_flag_spec {s : Kheap} {bs : List Block} (h : Shape s bs) {size flag : Nat}
    (hsize : size ≤ KHEAP_HEAP_SIZE) (hflag : flag &&& MALLOC_FLAG_ALIGN = 0) :
    (kmalloc_flag s size flag = .done NULL s ∧ (size = 0 ∨ bestFit size bs = none)) ∨
    ∃ l b r s', bs = l ++ b :: r ∧ bestFit size bs = some b ∧ b.free = true ∧ 0 < size ∧
      size ≤ b.size ∧ kmalloc_flag s size flag = .done (b.addr + 20) s' ∧
      Took s s' l b r size (flag &&& MALLOC_FLAG_INIT != 0) := by
  have heq : kmalloc_flag s size flag = kmalloc_heap_base s size flag := by
    unfold kmalloc_flag kmalloc_base
    rw [h.enabled, if_pos rfl]
  rw [heq]
  exact kmalloc_heap_base_spec h hsize hflag

/-- `krealloc_flag` of the pointer to the block `b`: the block stays where it is, or
nothing happens, or the payload moves to a block that is taken for it. -/
theorem krealloc_flag_spec {s : Kheap} {bs : List Block} (h : Shape s bs) (hseal : Sealed s bs)
    {b : Block} (hb : b ∈ bs) (hused : b.free = false) {size flag : Nat}
    (hsize : size ≤ KHEAP_HEAP_SIZE) (hflag : flag &&& MALLOC_FLAG_ALIGN = 0) :
    (krealloc_flag s (b.addr + 20) size flag = .done (b.addr + 20) s ∧ size ≤ b.size) ∨
    (krealloc_flag s (b.addr + 20) size flag = .done NULL s ∧ b.size < size ∧
      bestFit size bs = none) ∨
    ∃ l c r t u s' l' r', bs = l ++ c :: r ∧ c.free = true ∧ b.size < size ∧ size ≤ c.size ∧
      Took s t l c r size (flag &&& MALLOC_FLAG_INIT != 0) ∧
      u = { t with mem := copy t.mem (c.addr + 20) (b.addr + 20) b.size } ∧
      Wrote t u (taken SIZEOF_HEAD size c) ∧
      l ++ (carve SIZEOF_HEAD size c ++ r) = l' ++ b :: r' ∧ Freed u s' l' b r' ∧
      krealloc_flag s (b.addr + 20) size flag = .done (c.addr + 20) s' := by
  obtain ⟨h0, hplace, hrange, hsub, hne⟩ := h.checks (h.inRange hb)
  rw [Nat.add_sub_cancel] at hsub hne
  have hsizeb := h.headSize hb
  have hblock : kheap_get_heap_block s (b.addr + 20) = b.addr := by
    unfold kheap_get_heap_block
    simp [hsub, hseal b hb]
  unfold krealloc_flag
  simp only [h0, hplace, hrange, hblock, hne, hsizeb, if_false, Bool.false_eq_true]
  by_cases hfit : size ≤ b.size
  · exact Or.inl ⟨if_pos hfit, hfit⟩
  · simp only [hfit, if_false]
    have hlt : b.size < size := Nat.lt_of_not_le hfit
    rcases kmalloc_flag_spec h hsize hflag with
      ⟨heq, hnone⟩ | ⟨l, c, r, t, rfl, _, hc, hs, hcs, heq, htook⟩
    · refine Or.inr (Or.inl ⟨by simp [heq], hlt, hnone.resolve_left (by omega)⟩)
    · have hb' : b ∈ l ++ (carve SIZEOF_HEAD size c ++ r) := by
        rcases List.mem_append.mp hb with hb | hb
        · simp [hb]
        · rcases List.mem_cons.mp hb with rfl | hb
          · rw [hused] at hc
            cases hc
          · simp [hb]
      obtain ⟨l', r', hsplit⟩ := List.append_of_mem hb'
      have hsizet := htook.shape.headSize hb'
      have hc0 : c.addr + 20 ≠ NULL := Nat.succ_ne_zero _
      have hwrote : Wrote t { t with mem := copy t.mem (c.addr + 20) (b.addr + 20) b.size }
          (taken SIZEOF_HEAD size c) := by
        refine ⟨⟨rfl, rfl, rfl, rfl, rfl, rfl⟩, rfl, fun x hx => copy_frame _ _ _ _ _ ?_⟩
        have htaken := (taken_fits SIZEOF_HEAD hcs).1
        have haddr : (taken SIZEOF_HEAD size c).addr = c.addr := rfl
        omega
      have htaken : taken SIZEOF_HEAD size c ∈ l ++ (carve SIZEOF_HEAD size c ++ r) := by
        simp [taken_mem]
      have hshape := hwrote.shape htook.shape htaken
      have hsealed := hwrote.sealed htook.shape htaken (htook.sealed hseal)
      rw [hsplit] at hshape hsealed
      have hfree := kfree_live hshape.toLaid (hsealed b (by simp)) hused
      refine Or.inr (Or.inr ⟨l, c, r, t, _, _, l', r', rfl, hc, hlt, hcs, htook, rfl, hwrote,
        hsplit, kfree_block_spec hshape, ?_⟩)
      simp [heq, hsizet, hfree]

/-! ## Clients -/

/-- What a client does next: it calls the heap, or stores bytes at an offset
from a pointer it holds. -/
inductive HeapCall where
  | kmalloc (size : Nat)
  | kmalloc_flag (size flag : Nat)
  | krealloc (ptr size : Nat)
  | krealloc_flag (ptr size flag : Nat)
  | kfree (ptr : Nat)
  | store (ptr offset : Nat) (bytes : List UInt8)

/-- The heap, with the pointers that its clients hold. -/
structure Clients where
  heap : Kheap
  live : List Nat

/-- The size of the payload at `ptr`, as its header gives it. -/
def payload_size (s : Kheap) (ptr : Nat) : Nat := head_size s.mem (ptr - SIZEOF_HEAD)

namespace HeapCall

def exec (s : Kheap) : HeapCall → Outcome Kheap Nat
  | kmalloc size => sakana_os.kmalloc s size
  | kmalloc_flag size flag => sakana_os.kmalloc_flag s size flag
  | krealloc ptr size => sakana_os.krealloc s ptr size
  | krealloc_flag ptr size flag => sakana_os.krealloc_flag s ptr size flag
  | kfree ptr => (sakana_os.kfree s ptr).andThen fun _ s => .done NULL s
  | store ptr offset bytes => .done NULL { s with mem := storeList s.mem (ptr + offset) bytes }

/-- A request is not larger than the heap and not aligned, and a client frees,
resizes and writes only what it holds. -/
def Legal (c : Clients) : HeapCall → Prop
  | kmalloc size => size ≤ KHEAP_HEAP_SIZE
  | kmalloc_flag size flag => size ≤ KHEAP_HEAP_SIZE ∧ flag &&& MALLOC_FLAG_ALIGN = 0
  | krealloc ptr size => ptr ∈ c.live ∧ size ≤ KHEAP_HEAP_SIZE
  | krealloc_flag ptr size flag =>
    ptr ∈ c.live ∧ size ≤ KHEAP_HEAP_SIZE ∧ flag &&& MALLOC_FLAG_ALIGN = 0
  | kfree ptr => ptr ∈ c.live
  | store ptr offset bytes => ptr ∈ c.live ∧ offset + bytes.length ≤ payload_size c.heap ptr

instance (c : Clients) (call : HeapCall) : Decidable (call.Legal c) := by
  cases call <;> unfold Legal <;> infer_instance

/-- The call is a `krealloc` of the pointer. -/
def Resizes (ptr : Nat) (call : HeapCall) : Prop :=
  (∃ size, call = krealloc ptr size) ∨ ∃ size flag, call = krealloc_flag ptr size flag

/-- The pointers that clients hold after a call that returned `ret`. -/
def liveAfter (live : List Nat) (ret : Nat) : HeapCall → List Nat
  | kmalloc _ | kmalloc_flag .. => if ret = NULL then live else ret :: live
  | krealloc ptr _ | krealloc_flag ptr .. => if ret = NULL then live else ret :: live.erase ptr
  | kfree ptr => live.erase ptr
  | store .. => live

end HeapCall

/-- One call of a client. `none` when the client may not make it, or when it
does not return. -/
def client_step (c : Clients) (call : HeapCall) : Option Clients :=
  if call.Legal c then
    match call.exec c.heap with
    | .done ret s => some ⟨s, call.liveAfter c.live ret⟩
    | _ => none
  else none

/-- The blocks `bs` are the heap, each with the magic, and those in use are the
blocks of the pointers that clients hold. -/
structure HeapInvariant (c : Clients) (bs : List Block) : Prop where
  shape : Shape c.heap bs
  sealed : Sealed c.heap bs
  live : c.live.Perm ((used bs).map (Block.payload SIZEOF_HEAD))

/-- All that a call can do to the heap with the blocks `bs`. -/
inductive Did (c : Clients) (bs : List Block) : HeapCall → Clients → List Block → Prop where
  | nothing {call : HeapCall} {live : List Nat} (hlive : live.Perm c.live) :
    Did c bs call ⟨c.heap, live⟩ bs
  | took {call : HeapCall} {l r : List Block} {b : Block} {s : Kheap} {size : Nat} {init : Bool}
    (hcall : ∀ ptr offset bytes, call ≠ .store ptr offset bytes) (hbs : bs = l ++ b :: r)
    (hfree : b.free = true) (hsize : 0 < size) (hfit : size ≤ b.size)
    (htook : Took c.heap s l b r size init) :
    Did c bs call ⟨s, (b.addr + 20) :: c.live⟩ (l ++ (carve SIZEOF_HEAD size b ++ r))
  | freed {ptr : Nat} {l r : List Block} {b : Block} {s : Kheap} (hptr : ptr = b.addr + 20)
    (hbs : bs = l ++ b :: r) (hused : b.free = false) (hfreed : Freed c.heap s l b r) :
    Did c bs (.kfree ptr) ⟨s, c.live.erase ptr⟩ (release SIZEOF_HEAD l b r)
  | moved {call : HeapCall} {ptr : Nat} {l r l' r' : List Block} {b d : Block} {t u s : Kheap}
    {size : Nat} {init : Bool} (hcall : call.Resizes ptr) (hptr : ptr = b.addr + 20)
    (hb : b ∈ bs) (hused : b.free = false) (hbs : bs = l ++ d :: r)
    (hfree : d.free = true) (hgrow : b.size < size) (hfit : size ≤ d.size)
    (htook : Took c.heap t l d r size init)
    (hcopy : u = { t with mem := copy t.mem (d.addr + 20) (b.addr + 20) b.size })
    (hwrote : Wrote t u (taken SIZEOF_HEAD size d))
    (hsplit : l ++ (carve SIZEOF_HEAD size d ++ r) = l' ++ b :: r')
    (hfreed : Freed u s l' b r') :
    Did c bs call ⟨s, (d.addr + 20) :: c.live.erase ptr⟩ (release SIZEOF_HEAD l' b r')
  | stored {ptr offset : Nat} {bytes : List UInt8} {b : Block} {s : Kheap}
    (hptr : ptr = b.addr + 20) (hb : b ∈ bs) (hused : b.free = false)
    (hin : offset + bytes.length ≤ b.size)
    (hs : s = { c.heap with mem := storeList c.heap.mem (ptr + offset) bytes }) :
    Did c bs (.store ptr offset bytes) ⟨s, c.live⟩ bs

/-- The block of a pointer that a client holds. -/
theorem Shape.live_block {s : Kheap} {bs : List Block} (h : Shape s bs) {live : List Nat}
    (hlive : live.Perm ((used bs).map (Block.payload SIZEOF_HEAD))) {ptr : Nat}
    (hptr : ptr ∈ live) :
    ∃ l b r, bs = l ++ b :: r ∧ b.free = false ∧ ptr = b.addr + 20 ∧
      payload_size s ptr = b.size := by
  rw [hlive.mem_iff, List.mem_map] at hptr
  obtain ⟨b, hb, rfl⟩ := hptr
  rw [mem_used] at hb
  obtain ⟨hb, hfree⟩ := hb
  obtain ⟨l, r, rfl⟩ := List.append_of_mem hb
  refine ⟨l, b, r, rfl, hfree, rfl, ?_⟩
  unfold payload_size Block.payload
  rw [Nat.add_sub_cancel]
  exact h.headSize (by simp)

/-- The pointer to a block in use. -/
theorem Shape.live_pointer {s : Kheap} {bs : List Block} (h : Shape s bs) {live : List Nat}
    (hlive : live.Perm ((used bs).map (Block.payload SIZEOF_HEAD))) {b : Block} (hb : b ∈ bs)
    (hused : b.free = false) :
    b.addr + 20 ∈ live ∧ payload_size s (b.addr + 20) = b.size := by
  constructor
  · rw [hlive.mem_iff, List.mem_map]
    exact ⟨b, mem_used.mpr ⟨hb, hused⟩, rfl⟩
  · unfold payload_size
    rw [SIZEOF_HEAD, Nat.add_sub_cancel]
    exact h.headSize hb

theorem HeapInvariant.block {c : Clients} {bs : List Block} (h : HeapInvariant c bs) {ptr : Nat}
    (hptr : ptr ∈ c.live) :
    ∃ l b r, bs = l ++ b :: r ∧ b.free = false ∧ ptr = b.addr + 20 ∧
      payload_size c.heap ptr = b.size := h.shape.live_block h.live hptr

theorem HeapInvariant.pointer {c : Clients} {bs : List Block} (h : HeapInvariant c bs) {b : Block}
    (hb : b ∈ bs) (hused : b.free = false) :
    b.addr + 20 ∈ c.live ∧ payload_size c.heap (b.addr + 20) = b.size :=
  h.shape.live_pointer h.live hb hused

theorem did_kmalloc {c : Clients} {bs : List Block} (h : HeapInvariant c bs) (size flag : Nat)
    (call : HeapCall) (hsize : size ≤ KHEAP_HEAP_SIZE) (hflag : flag &&& MALLOC_FLAG_ALIGN = 0)
    (hcall : ∀ ptr offset bytes, call ≠ .store ptr offset bytes) :
    ∃ ret s bs', kmalloc_flag c.heap size flag = .done ret s ∧
      Did c bs call ⟨s, if ret = NULL then c.live else ret :: c.live⟩ bs' := by
  rcases kmalloc_flag_spec h.shape hsize hflag with
    ⟨heq, _⟩ | ⟨l, b, r, s, hbs, _, hfree, hpos, hfit, heq, htook⟩
  · exact ⟨NULL, c.heap, bs, heq, .nothing (List.Perm.refl _)⟩
  · refine ⟨b.addr + 20, s, l ++ (carve SIZEOF_HEAD size b ++ r), heq, ?_⟩
    rw [if_neg (Nat.succ_ne_zero _)]
    exact .took hcall hbs hfree hpos hfit htook

theorem did_krealloc {c : Clients} {bs : List Block} (h : HeapInvariant c bs)
    {ptr size : Nat} (flag : Nat) {call : HeapCall} (hptr : ptr ∈ c.live)
    (hsize : size ≤ KHEAP_HEAP_SIZE)
    (hflag : flag &&& MALLOC_FLAG_ALIGN = 0) (hcall : call.Resizes ptr) :
    ∃ ret s bs', krealloc_flag c.heap ptr size flag = .done ret s ∧
      Did c bs call ⟨s, if ret = NULL then c.live else ret :: c.live.erase ptr⟩ bs' := by
  obtain ⟨l₀, b, r₀, hbs₀, hused, rfl, _⟩ := h.block hptr
  have hb : b ∈ bs := by simp [hbs₀]
  rcases krealloc_flag_spec h.shape h.sealed hb hused hsize hflag with
    ⟨heq, _⟩ | ⟨heq, _⟩ | ⟨l, d, r, t, u, s, l', r', hbs, hfree, hgrow, hfit, htook, hcopy, hwrote,
      hsplit, hfreed, heq⟩
  · refine ⟨b.addr + 20, c.heap, bs, heq, ?_⟩
    rw [if_neg (Nat.succ_ne_zero _)]
    exact .nothing (List.perm_cons_erase hptr).symm
  · exact ⟨NULL, c.heap, bs, heq, .nothing (List.Perm.refl _)⟩
  · refine ⟨d.addr + 20, s, release SIZEOF_HEAD l' b r', heq, ?_⟩
    rw [if_neg (Nat.succ_ne_zero _)]
    exact .moved hcall rfl hb hused hbs hfree hgrow hfit htook hcopy hwrote hsplit hfreed

/-- Every legal call returns, and does one of the things listed. -/
theorem call_cases {c : Clients} {bs : List Block} (h : HeapInvariant c bs) (call : HeapCall)
    (hlegal : call.Legal c) :
    ∃ c' bs', client_step c call = some c' ∧ Did c bs call c' bs' := by
  unfold client_step
  rw [if_pos hlegal]
  cases call with
  | kmalloc size =>
    obtain ⟨ret, s, bs', heq, hdid⟩ := did_kmalloc h size MALLOC_FLAG_NULL
      (.kmalloc size) hlegal rfl (by simp)
    have heq' : HeapCall.exec c.heap (.kmalloc size) = .done ret s := heq
    rw [heq']
    exact ⟨_, bs', rfl, hdid⟩
  | kmalloc_flag size flag =>
    obtain ⟨ret, s, bs', heq, hdid⟩ := did_kmalloc h size flag
      (.kmalloc_flag size flag) hlegal.1 hlegal.2 (by simp)
    have heq' : HeapCall.exec c.heap (.kmalloc_flag size flag) = .done ret s := heq
    rw [heq']
    exact ⟨_, bs', rfl, hdid⟩
  | krealloc ptr size =>
    obtain ⟨ret, s, bs', heq, hdid⟩ := did_krealloc h MALLOC_FLAG_NULL
      hlegal.1 hlegal.2 rfl (Or.inl ⟨size, rfl⟩)
    have heq' : HeapCall.exec c.heap (.krealloc ptr size) = .done ret s := heq
    rw [heq']
    exact ⟨_, bs', rfl, hdid⟩
  | krealloc_flag ptr size flag =>
    obtain ⟨ret, s, bs', heq, hdid⟩ := did_krealloc h flag hlegal.1 hlegal.2.1 hlegal.2.2
      (Or.inr ⟨size, flag, rfl⟩)
    have heq' : HeapCall.exec c.heap (.krealloc_flag ptr size flag) = .done ret s := heq
    rw [heq']
    exact ⟨_, bs', rfl, hdid⟩
  | kfree ptr =>
    obtain ⟨l, b, r, rfl, hused, hptr, _⟩ := h.block hlegal
    have hlive := kfree_live h.shape.toLaid (h.sealed b (by simp)) hused
    have heq : HeapCall.exec c.heap (.kfree ptr) = .done NULL (kfree_block c.heap b.addr) := by
      show (sakana_os.kfree c.heap ptr).andThen _ = _
      rw [hptr, hlive]
      rfl
    rw [heq]
    exact ⟨_, _, rfl, .freed hptr rfl hused (kfree_block_spec h.shape)⟩
  | store ptr offset bytes =>
    obtain ⟨l, b, r, hbs, hused, hptr, hsize⟩ := h.block hlegal.1
    have hin := hlegal.2
    rw [hsize] at hin
    exact ⟨_, bs, rfl, .stored hptr (by simp [hbs]) hused hin rfl⟩

/-- So a step of a client is one of them. -/
theorem step_cases {c c' : Clients} {bs : List Block} (h : HeapInvariant c bs) {call : HeapCall}
    (hstep : client_step c call = some c') : ∃ bs', Did c bs call c' bs' := by
  by_cases hlegal : call.Legal c
  · obtain ⟨d, bs', heq, hdid⟩ := call_cases h call hlegal
    rw [hstep] at heq
    cases heq
    exact ⟨bs', hdid⟩
  · rw [client_step, if_neg hlegal] at hstep
    cases hstep

end sakana_os
