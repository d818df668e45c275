-- The linked list as it stands in the memory of the heap: the nodes and the list are
-- blocks, and what the code makes of their words is what the list of nodes says.
import SakanaOS.LinkedList
import SakanaOS.OwnedBlocks

open byte_memory block_tiling chains

namespace sakana_os.in_memory

/-! ## The code -/

/-- `sizeof(linked_list_node_t)` -/
def SIZEOF_LINKED_LIST_NODE : Nat := 12

/-- `sizeof(linked_list_t)` -/
def SIZEOF_LINKED_LIST : Nat := 12

def node_prev (m : Mem) (node : Nat) : Nat := load32 m node
def node_next (m : Mem) (node : Nat) : Nat := load32 m (node + 4)
def node_data (m : Mem) (node : Nat) : Nat := load32 m (node + 8)

def store_prev (m : Mem) (node v : Nat) : Mem := store32 m node v
def store_next (m : Mem) (node v : Nat) : Mem := store32 m (node + 4) v
def store_data (m : Mem) (node v : Nat) : Mem := store32 m (node + 8) v

def list_head (m : Mem) (list : Nat) : Nat := load32 m list
def list_tail (m : Mem) (list : Nat) : Nat := load32 m (list + 4)
def list_size (m : Mem) (list : Nat) : Nat := load32 m (list + 8)

def store_head (m : Mem) (list v : Nat) : Mem := store32 m list v
def store_tail (m : Mem) (list v : Nat) : Mem := store32 m (list + 4) v
def store_size (m : Mem) (list v : Nat) : Mem := store32 m (list + 8) v

def linked_list_init (m : Mem) (list : Nat) : Bool × Mem :=
  if list = NULL then (false, m)
  else
    let m := store_head m list NULL
    let m := store_tail m list NULL
    (true, store_size m list 0)

def linked_list_create (k : Kheap) (allocator : Kheap → Nat → Outcome Kheap Nat) :
    Outcome Kheap Nat :=
  (allocator k SIZEOF_LINKED_LIST).andThen fun list k =>
    let result := linked_list_init k.mem list
    .done (if result.1 then list else NULL) { k with mem := result.2 }

def linked_list_node_init (m : Mem) (node data : Nat) : Bool × Mem :=
  if node = NULL then (false, m)
  else
    let m := store_prev m node NULL
    let m := store_next m node NULL
    (true, store_data m node data)

def linked_list_node_create (k : Kheap) (data : Nat)
    (allocator : Kheap → Nat → Outcome Kheap Nat) : Outcome Kheap Nat :=
  (allocator k SIZEOF_LINKED_LIST_NODE).andThen fun node k =>
    let result := linked_list_node_init k.mem node data
    .done (if result.1 then node else NULL) { k with mem := result.2 }

def linked_list_empty (m : Mem) (list : Nat) : Bool := list_head m list == NULL

def linked_list_append (m : Mem) (list node : Nat) : Mem :=
  if list = NULL ∨ node = NULL then m
  else
    let m :=
      if linked_list_empty m list then
        let m := store_head m list node
        let m := store_tail m list node
        let m := store_prev m node NULL
        store_next m node NULL
      else
        let m := store_prev m node (list_tail m list)
        let m := store_next m node NULL
        let m := store_next m (list_tail m list) node
        store_tail m list node
    store_size m list (add32 (list_size m list) 1)

/-- The turns of the loop of `linked_list_destroy`. The link to the next node is read
from the node after it was given to the deallocator. -/
def destroy_loop (free_data : Bool) (deallocator : Kheap → Nat → Outcome Kheap Unit) :
    Nat → Nat → Kheap → Outcome Kheap Unit
  | 0, _, k => .hang k
  | fuel + 1, node, k =>
    if node = NULL then .done () k
    else
      (if free_data then deallocator k (node_data k.mem node) else .done () k).andThen fun _ k =>
        (deallocator k node).andThen fun _ k =>
          destroy_loop free_data deallocator fuel (node_next k.mem node) k

def linked_list_destroy (k : Kheap) (list : Nat) (free_data : Bool)
    (deallocator : Kheap → Nat → Outcome Kheap Unit) : Outcome Kheap Unit :=
  if list = NULL then .done () k
  else
    (destroy_loop free_data deallocator 4294967296 (list_head k.mem list) k).andThen fun _ k =>
      deallocator k list

/-! ## The list that the words make -/

/-- The list at an address, with the nodes of the memory. -/
def listState (m : Mem) (list : Nat) : ListState where
  nodes a := ⟨node_prev m a, node_next m a, node_data m a⟩
  list := ⟨list_head m list, list_tail m list, list_size m list⟩

theorem isList_congr {s s' : ListState} {l : List Nat} (h : IsList s l) (hlist : s'.list = s.list)
    (hnodes : ∀ a ∈ l, (s'.nodes a).prev = (s.nodes a).prev ∧
      (s'.nodes a).next = (s.nodes a).next) : IsList s' l := by
  refine ⟨?_, ?_, ?_, ?_, h.nodup, h.address⟩
  · rw [hlist]
    exact h.head
  · rw [hlist]
    exact h.tail
  · rw [hlist]
    exact h.size
  · exact chain_congr h.chain (fun a ha => (hnodes a ha).1) fun a ha => (hnodes a ha).2

/-- The list with the nodes `l` stands at `list`, no word of it in two places. -/
structure ListAt (m : Mem) (list : Nat) (l : List Nat) : Prop where
  isList : IsList (listState m list) l
  aside : ∀ a ∈ l, a + 12 ≤ list ∨ list + 12 ≤ a
  apart : ∀ a ∈ l, ∀ b ∈ l, a ≠ b → a + 12 ≤ b ∨ b + 12 ≤ a

/-- A list depends on the words of it and of its nodes only. -/
theorem ListAt.congr {m m' : Mem} {list : Nat} {l : List Nat} (h : ListAt m list l)
    (hlist : ∀ x, list ≤ x → x < list + 12 → m' x = m x)
    (hnodes : ∀ a ∈ l, ∀ x, a ≤ x → x < a + 8 → m' x = m x) : ListAt m' list l := by
  refine ⟨isList_congr h.isList ?_ fun a ha => ⟨?_, ?_⟩, h.aside, h.apart⟩
  · simp only [listState, list_head, list_tail, list_size]
    rw [load32_congr fun x hx hx' => hlist x (by omega) (by omega),
      load32_congr fun x hx hx' => hlist x (by omega) (by omega),
      load32_congr fun x hx hx' => hlist x (by omega) (by omega)]
  · exact load32_congr fun x hx hx' => hnodes a ha x hx (by omega)
  · exact load32_congr fun x hx hx' => hnodes a ha x (by omega) (by omega)

/-! ## New nodes and lists -/

section create

variable {k : Kheap} {live pinned : List Nat}

/-- A node with its data, in a block of its own. -/
theorem node_create_spec (h : ClientHeap k live pinned) {d : Nat}
    (hd : d < 4294967296) :
    (linked_list_node_create k d kmalloc = .done NULL k ∧
      bestFit SIZEOF_LINKED_LIST_NODE (heap_blocks k) = none) ∨
    ∃ node k', linked_list_node_create k d kmalloc = .done node k' ∧
      node_data k'.mem node = d ∧ Obtained k k' live pinned SIZEOF_LINKED_LIST_NODE node := by
  unfold linked_list_node_create
  rcases kmalloc_obtains h (show SIZEOF_LINKED_LIST_NODE ≤ KHEAP_HEAP_SIZE by decide) with
    ⟨heq, hnone⟩ | ⟨node, k₁, heq, hgot⟩
  · refine Or.inl ⟨?_, hnone.resolve_left (by decide)⟩
    rw [heq]
    rfl
  · right
    have hne := (hgot.heap.bounds List.mem_cons_self).1
    obtain ⟨m, hm⟩ : ∃ m, m = store_data (store_next (store_prev k₁.mem node NULL) node NULL)
      node d := ⟨_, rfl⟩
    have hinit : linked_list_node_init k₁.mem node d = (true, m) := by
      unfold linked_list_node_init
      rw [if_neg hne, hm]
    have hdata : node_data m node = d := by
      rw [hm]
      exact load32_store32 _ _ hd
    have hframe : ∀ x, x < node ∨ node + SIZEOF_LINKED_LIST_NODE ≤ x → m x = k₁.mem x := by
      intro x hx
      unfold SIZEOF_LINKED_LIST_NODE at hx
      simp (disch := omega) only [hm, store_data, store_next, store_prev, store32_frame]
    refine ⟨node, { k₁ with mem := m }, ?_, hdata, hgot.filled hframe⟩
    rw [heq, Outcome.done_andThen, hinit]
    rfl

/-- The words of a new list. -/
theorem linked_list_init_spec (m : Mem) {list : Nat} (hne : list ≠ NULL) :
    ListAt (linked_list_init m list).2 list [] := by
  have hlist : (listState (linked_list_init m list).2 list).list =
      (sakana_os.linked_list_init (listState m list).nodes).list := by
    have hnull : NULL < 4294967296 := by decide
    unfold in_memory.linked_list_init
    rw [if_neg hne]
    simp only [listState, list_head, list_tail, list_size, store_size, store_tail, store_head]
    simp (disch := omega) only [load32_store32_ne, load32_store32]
    rfl
  refine ⟨?_, fun a ha => absurd ha List.not_mem_nil, fun a ha => absurd ha List.not_mem_nil⟩
  exact isList_congr (init_isList _) hlist fun a ha => absurd ha List.not_mem_nil

/-- An empty list, in a block of its own. -/
theorem list_create_spec (h : ClientHeap k live pinned) :
    (linked_list_create k kmalloc = .done NULL k ∧
      bestFit SIZEOF_LINKED_LIST (heap_blocks k) = none) ∨
    ∃ list k', linked_list_create k kmalloc = .done list k' ∧ ListAt k'.mem list [] ∧
      Obtained k k' live pinned SIZEOF_LINKED_LIST list := by
  unfold linked_list_create
  rcases kmalloc_obtains h (show SIZEOF_LINKED_LIST ≤ KHEAP_HEAP_SIZE by decide) with
    ⟨heq, hnone⟩ | ⟨list, k₁, heq, hgot⟩
  · refine Or.inl ⟨?_, hnone.resolve_left (by decide)⟩
    rw [heq]
    rfl
  · right
    have hne := (hgot.heap.bounds List.mem_cons_self).1
    obtain ⟨m, hm⟩ : ∃ m, m = store_size (store_tail (store_head k₁.mem list NULL) list NULL)
      list 0 := ⟨_, rfl⟩
    have hinit : in_memory.linked_list_init k₁.mem list = (true, m) := by
      unfold in_memory.linked_list_init
      rw [if_neg hne, hm]
    have hempty : ListAt m list [] := by
      have hnew := linked_list_init_spec k₁.mem hne
      rw [hinit] at hnew
      exact hnew
    have hframe : ∀ x, x < list ∨ list + SIZEOF_LINKED_LIST ≤ x → m x = k₁.mem x := by
      intro x hx
      unfold SIZEOF_LINKED_LIST at hx
      simp (disch := omega) only [hm, store_size, store_tail, store_head, store32_frame]
    refine ⟨list, { k₁ with mem := m }, ?_, hempty, hgot.filled hframe⟩
    rw [heq, Outcome.done_andThen, hinit]
    rfl

end create

/-! ## Append -/

section append

variable {m : Mem} {list node : Nat} {l : List Nat}

theorem linked_list_append_frame (h : ListAt m list l) {x : Nat}
    (hlist : x < list ∨ list + 12 ≤ x) (hnode : x < node ∨ node + 8 ≤ x)
    (haside : node + 12 ≤ list ∨ list + 12 ≤ node)
    (hnodes : ∀ a ∈ l, x < a + 4 ∨ a + 8 ≤ x) :
    linked_list_append m list node x = m x := by
  unfold linked_list_append
  split
  · rfl
  · by_cases hempty : linked_list_empty m list
    · rw [if_pos hempty]
      simp (disch := omega) only [store_size, store_next, store_prev, store_tail, store_head,
        store32_frame]
    · rw [if_neg hempty]
      have hl : l ≠ [] := fun hnil => hempty ((empty_list_iff h.isList).mpr hnil)
      have htail : list_tail m list ∈ l := by
        have hlast := last_mem hl
        rwa [← h.isList.tail] at hlast
      have hx := hnodes _ htail
      simp only [store_size, store_next, store_prev, store_tail, list_tail] at hx ⊢
      simp (disch := omega) only [load32_store32_ne, store32_frame]

/-- What the code makes of the words is what the list of nodes says. -/
theorem linked_list_append_refines (h : ListAt m list l) (hlist : list ≠ NULL)
    (hne : node ≠ NULL) (hlt : node < 4294967296)
    (haside : node + 12 ≤ list ∨ list + 12 ≤ node)
    (hapart : ∀ a ∈ l, a + 12 ≤ node ∨ node + 12 ≤ a) :
    (listState (linked_list_append m list node) list).list =
        (sakana_os.linked_list_append (listState m list) node).list ∧
      ∀ a ∈ l ++ [node],
        ((listState (linked_list_append m list node) list).nodes a).prev =
            ((sakana_os.linked_list_append (listState m list) node).nodes a).prev ∧
          ((listState (linked_list_append m list node) list).nodes a).next =
            ((sakana_os.linked_list_append (listState m list) node).nodes a).next := by
  have hsize : add32 (load32 m (list + 8)) 1 < 4294967296 := add32_lt _ _
  have hnull : NULL < 4294967296 := by decide
  unfold linked_list_append sakana_os.linked_list_append
  rw [if_neg hne, if_neg (by tauto : ¬ (list = NULL ∨ node = NULL))]
  by_cases hempty : linked_list_empty m list
  · have hnil : l = [] := (empty_list_iff h.isList).mp hempty
    have habstract : sakana_os.linked_list_empty (listState m list).list = true := hempty
    subst hnil
    rw [if_pos hempty, if_pos habstract]
    simp only [listState, list_head, list_tail, list_size, node_prev, node_next, store_head,
      store_tail, store_size, store_prev, store_next]
    constructor
    · simp (disch := omega) only [load32_store32_ne, load32_store32]
    · intro a ha
      obtain rfl : a = node := List.mem_singleton.mp ha
      rw [set_next_prev, set_prev_self, set_next_self]
      simp (disch := omega) only [load32_store32_ne, load32_store32, and_self]
  · have hl : l ≠ [] := fun hnil => hempty ((empty_list_iff h.isList).mpr hnil)
    have habstract : ¬ sakana_os.linked_list_empty (listState m list).list = true := hempty
    have hmem : list_tail m list ∈ l := by
      have hlast := last_mem hl
      rwa [← h.isList.tail] at hlast
    have htail := load32_lt m (list + 4)
    have hasidet := h.aside _ hmem
    have hapartt := hapart _ hmem
    rw [if_neg hempty, if_neg habstract]
    simp only [listState, list_head, list_tail, list_size, node_prev, node_next,
      store_tail, store_size, store_prev, store_next] at hasidet hapartt hmem ⊢
    generalize htaileq : load32 m (list + 4) = tail at *
    constructor
    · simp (disch := omega) only [load32_store32_ne, load32_store32, htaileq]
    · intro a ha
      rcases List.mem_append.mp ha with ha | ha
      · have hasidea := h.aside a ha
        have haparta := hapart a ha
        have hne' : a ≠ node := by omega
        by_cases hat : a = tail
        · subst hat
          rw [set_next_self, set_next_prev, set_next_prev, set_prev_ne _ _ hne']
          simp (disch := omega) only [load32_store32_ne, load32_store32, htaileq, and_self]
        · have hdis := h.apart a ha tail hmem hat
          rw [set_next_ne _ _ hat, set_next_ne _ _ hne', set_prev_ne _ _ hne']
          simp (disch := omega) only [load32_store32_ne, htaileq, and_self]
      · obtain rfl : a = node := List.mem_singleton.mp ha
        have hat : a ≠ tail := by omega
        rw [set_next_ne _ _ hat, set_next_self, set_next_prev, set_prev_self]
        simp (disch := omega) only [load32_store32_ne, load32_store32, htaileq, and_self]

/-- A node of its own memory goes to the end of the list. -/
theorem linked_list_append_spec (h : ListAt m list l) (hlist : list ≠ NULL) (hne : node ≠ NULL)
    (hlt : node < 4294967296) (haside : node + 12 ≤ list ∨ list + 12 ≤ node)
    (hapart : ∀ a ∈ l, a + 12 ≤ node ∨ node + 12 ≤ a) :
    ListAt (linked_list_append m list node) list (l ++ [node]) := by
  obtain ⟨hlists, hnodes⟩ := linked_list_append_refines h hlist hne hlt haside hapart
  have hfresh : node ∉ l := by
    intro hmem
    have hself := hapart node hmem
    omega
  refine ⟨isList_congr (append_isList h.isList hne hlt hfresh) hlists hnodes, ?_, ?_⟩
  · intro a ha
    rcases List.mem_append.mp ha with ha | ha
    · exact h.aside a ha
    · rw [List.mem_singleton.mp ha]
      exact haside
  · intro a ha b hb hab
    rcases List.mem_append.mp ha with ha | ha
    · rcases List.mem_append.mp hb with hb | hb
      · exact h.apart a ha b hb hab
      · rw [List.mem_singleton.mp hb]
        exact hapart a ha
    · rw [List.mem_singleton.mp ha] at hab ⊢
      rcases List.mem_append.mp hb with hb | hb
      · exact (hapart b hb).symm
      · exact absurd (List.mem_singleton.mp hb).symm hab

/-- Every node keeps its data. -/
theorem linked_list_append_data (h : ListAt m list l)
    (haside : node + 12 ≤ list ∨ list + 12 ≤ node)
    (hapart : ∀ a ∈ l, a + 12 ≤ node ∨ node + 12 ≤ a) :
    node_data (linked_list_append m list node) node = node_data m node ∧
      ∀ a ∈ l, node_data (linked_list_append m list node) a = node_data m a := by
  constructor
  · apply load32_congr
    intro x hx hx'
    refine linked_list_append_frame h (by omega) (by omega) haside fun b hb => ?_
    have hb := hapart b hb
    omega
  · intro a ha
    apply load32_congr
    intro x hx hx'
    have hlist := h.aside a ha
    have hnode := hapart a ha
    refine linked_list_append_frame h (by omega) (by omega) haside fun b hb => ?_
    by_cases hab : a = b
    · omega
    · have hdis := h.apart a ha b hb hab
      omega

end append

/-! ## Destroy -/

/-- The cells that a walk along `next` meets, from the node at the address: each node with
its data. -/
def Walks (m : Mem) : Nat → List (Nat × Nat) → Prop
  | node, [] => node = NULL
  | node, (a, d) :: cells =>
    node = a ∧ node ≠ NULL ∧ node_data m a = d ∧ Walks m (node_next m a) cells

/-- The nodes with their data. -/
def cellsOf (m : Mem) (l : List Nat) : List (Nat × Nat) := l.map fun a => (a, node_data m a)

/-- The pointers of the cells, in the order in which they are given back. -/
def cellPointers (cells : List (Nat × Nat)) : List Nat := cells.flatMap fun c => [c.2, c.1]

theorem walks_words {m m' : Mem} {cells : List (Nat × Nat)} {node : Nat} (h : Walks m node cells)
    (hwords : ∀ c ∈ cells, node_next m' c.1 = node_next m c.1 ∧
      node_data m' c.1 = node_data m c.1) : Walks m' node cells := by
  induction cells generalizing node with
  | nil => exact h
  | cons c cells ih =>
    obtain ⟨a, d⟩ := c
    obtain ⟨rfl, hne, hdata, hrest⟩ := h
    obtain ⟨hnext, hsame⟩ := hwords (node, d) List.mem_cons_self
    refine ⟨rfl, hne, hsame.trans hdata, ?_⟩
    rw [hnext]
    exact ih hrest fun c hc => hwords c (List.mem_cons_of_mem _ hc)

theorem walks_congr {m m' : Mem} {cells : List (Nat × Nat)} {node : Nat} (h : Walks m node cells)
    (hm : ∀ c ∈ cells, ∀ x, c.1 ≤ x → x < c.1 + 12 → m' x = m x) : Walks m' node cells := by
  apply walks_words h
  intro c hc
  exact ⟨load32_congr fun x hx hx' => hm c hc x (by omega) (by omega),
    load32_congr fun x hx hx' => hm c hc x (by omega) (by omega)⟩

theorem walks_chain {m : Mem} {list p : Nat} (l : List Nat)
    (h : Chain (fun a => ((listState m list).nodes a).prev)
      (fun a => ((listState m list).nodes a).next) p l NULL)
    (hne : ∀ a ∈ l, a ≠ NULL) : Walks m (l.headD NULL) (cellsOf m l) := by
  induction l generalizing p with
  | nil => rfl
  | cons a l ih =>
    obtain ⟨-, hnext, hrest⟩ := h
    have hnext : node_next m a = l.headD NULL := hnext
    refine ⟨rfl, hne a List.mem_cons_self, rfl, ?_⟩
    rw [hnext]
    exact ih hrest fun b hb => hne b (List.mem_cons_of_mem a hb)

theorem ListAt.walks {m : Mem} {list : Nat} {l : List Nat} (h : ListAt m list l) :
    Walks m (list_head m list) (cellsOf m l) := by
  have hhead : list_head m list = l.headD NULL := h.isList.head
  rw [hhead]
  exact walks_chain l h.isList.chain fun a ha => (h.isList.address a ha).1

/-- The loop gives back each node and its data, when the heap is in order and holds them all
as blocks of their own. -/
theorem destroy_loop_frees {k : Kheap} {live pinned : List Nat} {cells : List (Nat × Nat)}
    {node : Nat}
    (h : ClientHeap k live pinned) (hwalk : Walks k.mem node cells)
    (hlive : ∀ p ∈ cellPointers cells, p ∈ live ∧ p ∉ pinned) (hnodup : (cellPointers cells).Nodup)
    (hroom : ∀ c ∈ cells, SIZEOF_LINKED_LIST_NODE ≤ payload_size k c.1) {fuel : Nat}
    (hfuel : cells.length < fuel) :
    ∃ k', destroy_loop true kfree fuel node k = .done () k' ∧
      ClientHeap k' (live.diff (cellPointers cells)) pinned ∧
      ∀ q ∈ live.diff (cellPointers cells), Keeps k k' q := by
  induction cells generalizing k live node fuel with
  | nil =>
    have hnull : node = NULL := hwalk
    refine ⟨k, ?_, h, fun q _ => Keeps.refl k q⟩
    cases fuel with
    | zero => exact absurd hfuel (Nat.not_lt_zero _)
    | succ fuel => rw [destroy_loop, if_pos hnull]
  | cons c cells ih =>
    obtain ⟨a, d⟩ := c
    obtain ⟨rfl, hne, rfl, hrest⟩ := hwalk
    have hpointers : cellPointers ((node, node_data k.mem node) :: cells) =
        node_data k.mem node :: node :: cellPointers cells := rfl
    rw [hpointers] at hlive hnodup ⊢
    rw [List.nodup_cons, List.nodup_cons] at hnodup
    obtain ⟨hdata, hnode, hnodup⟩ := hnodup
    have hroomnode := hroom (node, node_data k.mem node) List.mem_cons_self
    simp only [SIZEOF_LINKED_LIST_NODE] at hroomnode hroom ih
    -- the data goes first
    obtain ⟨hdatalive, hdatapin⟩ := hlive _ List.mem_cons_self
    obtain ⟨k₁, hfree₁, hinv₁, hkeeps₁, -⟩ := kfree_gives_back h hdatalive hdatapin
    have hmem₁ : ∀ p ∈ node :: cellPointers cells,
        p ∈ live.erase (node_data k.mem node) ∧ p ∉ pinned := by
      intro p hp
      obtain ⟨hplive, hppin⟩ := hlive p (List.mem_cons_of_mem _ hp)
      refine ⟨(List.mem_erase_of_ne ?_).mpr hplive, hppin⟩
      rintro rfl
      exact hdata hp
    obtain ⟨hnodelive, hnodepin⟩ := hmem₁ node List.mem_cons_self
    have hkeep₁ := hkeeps₁ node hnodelive
    -- then the node, whose link is read afterwards
    obtain ⟨k₂, hfree₂, hinv₂, hkeeps₂, hbytes, -⟩ := kfree_gives_back hinv₁ hnodelive hnodepin
    have hmem₂ : ∀ p ∈ cellPointers cells,
        p ∈ (live.erase (node_data k.mem node)).erase node ∧ p ∉ pinned := by
      intro p hp
      obtain ⟨hplive, hppin⟩ := hmem₁ p (List.mem_cons_of_mem _ hp)
      refine ⟨(List.mem_erase_of_ne ?_).mpr hplive, hppin⟩
      rintro rfl
      exact hnode hp
    have hnext : node_next k₂.mem node = node_next k.mem node := by
      apply load32_congr
      intro x hx hx'
      rw [hbytes x (by omega) (by rw [hkeep₁.size]; omega),
        hkeep₁.bytes x (by omega) (by omega)]
    have hkeeps : ∀ q ∈ (live.erase (node_data k.mem node)).erase node, Keeps k k₂ q := by
      intro q hq
      exact (hkeeps₁ q (List.mem_of_mem_erase hq)).trans (hkeeps₂ q hq)
    have hcell : ∀ c ∈ cells, c.1 ∈ cellPointers cells := by
      intro c hc
      exact List.mem_flatMap.mpr ⟨c, hc, by simp⟩
    cases fuel with
    | zero => exact absurd hfuel (Nat.not_lt_zero _)
    | succ fuel =>
      have hwalk₂ : Walks k₂.mem (node_next k₂.mem node) cells := by
        rw [hnext]
        apply walks_congr hrest
        intro c hc x hx hx'
        have hroomc := hroom c (List.mem_cons_of_mem _ hc)
        exact (hkeeps c.1 (hmem₂ _ (hcell c hc)).1).bytes x hx (by omega)
      have hroom₂ : ∀ c ∈ cells, 12 ≤ payload_size k₂ c.1 := by
        intro c hc
        rw [(hkeeps c.1 (hmem₂ _ (hcell c hc)).1).size]
        exact hroom c (List.mem_cons_of_mem _ hc)
      obtain ⟨k', hloop, hinv', hkeeps'⟩ :=
        ih hinv₂ hwalk₂ hmem₂ hnodup hroom₂ (Nat.lt_of_succ_lt_succ hfuel)
      rw [List.diff_cons, List.diff_cons]
      refine ⟨k', ?_, hinv', fun q hq => ?_⟩
      · rw [destroy_loop, if_neg hne, if_pos rfl, hfree₁, Outcome.done_andThen, hfree₂,
          Outcome.done_andThen, hloop]
      · have hq₂ : q ∈ (live.erase (node_data k.mem node)).erase node :=
          (List.diff_subset _ _) hq
        exact (hkeeps q hq₂).trans (hkeeps' q hq)

end sakana_os.in_memory
