-- The registry of shell commands: each command, its name and its node are blocks of the
-- heap. The name is copied with its NUL into a block that was asked for without it.
import SakanaOS.Formatter
import SakanaOS.ListMemory
import SakanaOS.Tokens

open byte_memory block_tiling chains runs

namespace sakana_os

open in_memory

/-! ## The code -/

/-- `sizeof(shell_t)`: five pointers. -/
def SIZEOF_SHELL : Nat := 20

/-- `sizeof(shell_command_t)`: the name and the handler. -/
def SIZEOF_SHELL_COMMAND : Nat := 8

def shell_commands_list (m : Mem) (s : Nat) : Nat := load32 m (s + 16)
def command_name (m : Mem) (c : Nat) : Nat := load32 m c
def command_call (m : Mem) (c : Nat) : Nat := load32 m (c + 4)

/-- `shell_create` up to `shell_init`: the shell with an empty list. -/
def shell_alloc (k : Kheap) : Outcome Kheap Nat :=
  (kmalloc k SIZEOF_SHELL).andThen fun s k =>
    if s = NULL then .kpanic KPANIC_OUT_OF_MEMORY "Memory allocation failed." k
    else
      (linked_list_create k kmalloc).andThen fun list k =>
        let k := { k with mem := store32 k.mem (s + 16) list }
        if shell_commands_list k.mem s = NULL then
          .kpanic KPANIC_OUT_OF_MEMORY "Memory allocation failed." k
        else .done s k

/-- `shell_register_command` up to the copy of the name: the command, with a block for
its name. -/
def shell_command_alloc (k : Kheap) (name : CString) : Outcome Kheap Nat :=
  (kmalloc k SIZEOF_SHELL_COMMAND).andThen fun c k =>
    if c = NULL then .kpanic KPANIC_OUT_OF_MEMORY "Memory allocation failed." k
    else
      (kmalloc k (strlen name)).andThen fun p k =>
        let k := { k with mem := store32 k.mem c p }
        if command_name k.mem c = NULL then
          .kpanic KPANIC_OUT_OF_MEMORY "Memory allocation failed." k
        else .done c k

def shell_register_command (k : Kheap) (s : Nat) (name : CString) (call : Nat) :
    Outcome Kheap Unit :=
  (shell_command_alloc k name).andThen fun c k =>
    let k := { k with mem := strcpy k.mem (command_name k.mem c) name }
    let k := { k with mem := store32 k.mem (c + 4) call }
    (linked_list_node_create k c kmalloc).andThen fun node k =>
      if node = NULL then .kpanic KPANIC_OUT_OF_MEMORY "Memory allocation failed." k
      else .done ()
        { k with mem := in_memory.linked_list_append k.mem (shell_commands_list k.mem s) node }

def shell_destroy (k : Kheap) (s : Nat) : Outcome Kheap Unit :=
  (linked_list_destroy k (shell_commands_list k.mem s) true kfree).andThen fun _ k => kfree k s

/-! ## What the shell holds -/

/-- The blocks of the shell with the nodes `l`, in the order of `shell_destroy`. -/
def shellPointers (m : Mem) (s : Nat) (l : List Nat) : List Nat :=
  cellPointers (cellsOf m l) ++ [shell_commands_list m s, s]

/-- The shell at `s` with the nodes `l` of its commands, each in a block of its own. -/
structure CommandList (k : Kheap) (live pinned : List Nat) (s : Nat) (l : List Nat) : Prop where
  heap : ClientHeap k live pinned
  isList : IsList (listState k.mem (shell_commands_list k.mem s)) l
  held : ∀ p ∈ shellPointers k.mem s l, p ∈ live
  nodup : (shellPointers k.mem s l).Nodup
  shellRoom : SIZEOF_SHELL ≤ payload_size k s
  listRoom : SIZEOF_LINKED_LIST ≤ payload_size k (shell_commands_list k.mem s)
  nodeRoom : ∀ a ∈ l, SIZEOF_LINKED_LIST_NODE ≤ payload_size k a

theorem cellPointers_append (l r : List (Nat × Nat)) :
    cellPointers (l ++ r) = cellPointers l ++ cellPointers r := List.flatMap_append

theorem node_mem_cellPointers {m : Mem} {l : List Nat} {a : Nat} (h : a ∈ l) :
    a ∈ cellPointers (cellsOf m l) :=
  List.mem_flatMap.mpr ⟨(a, node_data m a), List.mem_map.mpr ⟨a, h, rfl⟩, by simp⟩

theorem shell_mem_pointers (m : Mem) (s : Nat) (l : List Nat) : s ∈ shellPointers m s l := by
  simp [shellPointers]

theorem list_mem_pointers (m : Mem) (s : Nat) (l : List Nat) :
    shell_commands_list m s ∈ shellPointers m s l := by
  simp [shellPointers]

theorem node_mem_pointers {m : Mem} {s : Nat} {l : List Nat} {a : Nat} (h : a ∈ l) :
    a ∈ shellPointers m s l :=
  List.mem_append_left _ (node_mem_cellPointers h)

theorem data_mem_pointers {m : Mem} {s : Nat} {l : List Nat} {a : Nat} (h : a ∈ l) :
    node_data m a ∈ shellPointers m s l :=
  List.mem_append_left _
    (List.mem_flatMap.mpr ⟨(a, node_data m a), List.mem_map.mpr ⟨a, h, rfl⟩, by simp⟩)

section registry

variable {k : Kheap} {live pinned l : List Nat} {s : Nat}

theorem CommandList.shell_live (h : CommandList k live pinned s l) : s ∈ live :=
  h.held s (shell_mem_pointers k.mem s l)

theorem CommandList.list_live (h : CommandList k live pinned s l) :
    shell_commands_list k.mem s ∈ live :=
  h.held _ (list_mem_pointers k.mem s l)

theorem CommandList.node_live (h : CommandList k live pinned s l) {a : Nat} (ha : a ∈ l) :
    a ∈ live :=
  h.held a (node_mem_pointers ha)

theorem CommandList.data_live (h : CommandList k live pinned s l) {a : Nat} (ha : a ∈ l) :
    node_data k.mem a ∈ live :=
  h.held _ (data_mem_pointers ha)

theorem CommandList.list_ne_shell (h : CommandList k live pinned s l) :
    shell_commands_list k.mem s ≠ s := by
  have hnodup := (List.nodup_append.mp h.nodup).2.1
  intro heq
  rw [List.nodup_cons] at hnodup
  exact hnodup.1 (by simp [heq])

theorem CommandList.node_ne (h : CommandList k live pinned s l) {a : Nat} (ha : a ∈ l) :
    a ≠ shell_commands_list k.mem s ∧ a ≠ s := by
  have hapart := (List.nodup_append.mp h.nodup).2.2 a (node_mem_cellPointers ha)
  exact ⟨hapart _ (by simp), hapart _ (by simp)⟩

/-- The blocks of the commands are others than those of the list. -/
theorem CommandList.data_ne (h : CommandList k live pinned s l) {a : Nat} (ha : a ∈ l) :
    node_data k.mem a ∉ shell_commands_list k.mem s :: l := by
  obtain ⟨l₁, l₂, rfl⟩ := List.append_of_mem ha
  have hnodup := h.nodup
  have hcells : cellPointers (cellsOf k.mem (l₁ ++ a :: l₂)) = cellPointers (cellsOf k.mem l₁) ++
      node_data k.mem a :: a :: cellPointers (cellsOf k.mem l₂) := by
    simp [cellsOf, cellPointers]
  unfold shellPointers at hnodup
  rw [hcells, List.append_assoc, List.cons_append, List.nodup_append, List.nodup_cons] at hnodup
  obtain ⟨-, ⟨hbehind, -⟩, hbefore⟩ := hnodup
  intro hmem
  rcases List.mem_cons.mp hmem with heq | hmem
  · apply hbehind
    simp [heq]
  · rcases List.mem_append.mp hmem with hmem | hmem
    · exact hbefore _ (node_mem_cellPointers hmem) _ List.mem_cons_self rfl
    · apply hbehind
      rcases List.mem_cons.mp hmem with heq | hmem
      · exact List.mem_cons.mpr (Or.inl heq)
      · simp [node_mem_cellPointers hmem]

theorem CommandList.shell_ne (h : CommandList k live pinned s l) :
    s ∉ shell_commands_list k.mem s :: l := by
  intro hmem
  rcases List.mem_cons.mp hmem with heq | hmem
  · exact h.list_ne_shell heq.symm
  · exact (h.node_ne hmem).2 rfl

/-- The list of a shell stands in blocks apart. -/
theorem CommandList.listAt (h : CommandList k live pinned s l) :
    ListAt k.mem (shell_commands_list k.mem s) l := by
  have hlist := h.listRoom
  simp only [SIZEOF_LINKED_LIST] at hlist
  refine ⟨h.isList, fun a ha => ?_, fun a ha b hb hab => ?_⟩
  · have hroom := h.nodeRoom a ha
    simp only [SIZEOF_LINKED_LIST_NODE] at hroom
    have hdis := h.heap.apart (h.node_live ha) h.list_live (h.node_ne ha).1
    omega
  · have hrooma := h.nodeRoom a ha
    have hroomb := h.nodeRoom b hb
    simp only [SIZEOF_LINKED_LIST_NODE] at hrooma hroomb
    have hdis := h.heap.apart (h.node_live ha) (h.node_live hb) hab
    omega

/-- To destroy the shell gives back all that it holds, and never panics. -/
theorem CommandList.destroy (h : CommandList k live [] s l) :
    ∃ t, shell_destroy k s = .done () t ∧
      ClientHeap t (live.diff (shellPointers k.mem s l)) [] := by
  have hnodup := h.nodup
  unfold shellPointers at hnodup ⊢
  have hcells : ∀ p ∈ cellPointers (cellsOf k.mem l), p ∈ live ∧ p ∉ [] :=
    fun p hp => ⟨h.held p (List.mem_append_left _ hp), List.not_mem_nil⟩
  obtain ⟨hnodupl, hnodupr, hapart⟩ := List.nodup_append.mp hnodup
  have hroom : ∀ c ∈ cellsOf k.mem l, SIZEOF_LINKED_LIST_NODE ≤ payload_size k c.1 := by
    intro c hc
    obtain ⟨a, ha, rfl⟩ := List.mem_map.mp hc
    exact h.nodeRoom a ha
  have hlen : (cellsOf k.mem l).length < 4294967296 := by
    rw [cellsOf, List.length_map]
    exact h.isList.length_lt
  obtain ⟨k₁, hloop, hinv₁, -⟩ :=
    destroy_loop_frees h.heap h.listAt.walks hcells hnodupl hroom hlen
  have hlive := h.heap.nodup
  have hmem : ∀ p ∈ [shell_commands_list k.mem s, s],
      p ∈ live.diff (cellPointers (cellsOf k.mem l)) := by
    intro p hp
    rw [List.Nodup.mem_sdiff_iff hlive]
    refine ⟨h.held p (List.mem_append_right _ hp), fun hcell => ?_⟩
    exact hapart p hcell p hp rfl
  obtain ⟨k₂, hfree₂, hinv₂, -⟩ := kfree_gives_back hinv₁ (hmem _ List.mem_cons_self)
      List.not_mem_nil
  have hmem₂ : s ∈ (live.diff (cellPointers (cellsOf k.mem l))).erase
      (shell_commands_list k.mem s) :=
    (List.mem_erase_of_ne h.list_ne_shell.symm).mpr (hmem s (by simp))
  obtain ⟨k₃, hfree₃, hinv₃, -⟩ := kfree_gives_back hinv₂ hmem₂ List.not_mem_nil
  refine ⟨k₃, ?_, ?_⟩
  · have hne := (h.heap.bounds h.list_live).1
    unfold shell_destroy linked_list_destroy
    rw [if_neg hne, hloop, Outcome.done_andThen, hfree₂, Outcome.done_andThen, hfree₃]
  · rw [List.diff_append, List.diff_cons, List.diff_cons, List.diff_nil]
    exact hinv₃

/-! ## What others do -/

theorem cellsOf_congr {m m' : Mem} {l : List Nat}
    (h : ∀ a ∈ l, ∀ x, a + 8 ≤ x → x < a + 12 → m' x = m x) : cellsOf m' l = cellsOf m l := by
  unfold cellsOf
  apply List.map_congr_left
  intro a ha
  have hdata : node_data m' a = node_data m a :=
    load32_congr fun x hx hx' => h a ha x hx (by omega)
  rw [hdata]

theorem CommandList.list_kept (h : CommandList k live pinned s l) {k' : Kheap}
    (hkeeps : Keeps k k' s) :
    shell_commands_list k'.mem s = shell_commands_list k.mem s := by
  have hroom := h.shellRoom
  simp only [SIZEOF_SHELL] at hroom
  exact hkeeps.load32 (by omega)

/-- The list of a shell stays when its blocks keep their bytes, and the shell the pointer. -/
theorem CommandList.kept_with_list (h : CommandList k live pinned s l) {k' : Kheap}
    {live' pinned' : List Nat} (hinv : ClientHeap k' live' pinned') (hlive : ∀ p ∈ live, p ∈ live')
    (hlist : shell_commands_list k'.mem s = shell_commands_list k.mem s)
    (hsize : payload_size k' s = payload_size k s)
    (hkeeps : ∀ q ∈ shell_commands_list k.mem s :: l, Keeps k k' q) :
    CommandList k' live' pinned' s l ∧ shellPointers k'.mem s l = shellPointers k.mem s l := by
  have hkeepl := hkeeps _ List.mem_cons_self
  have hkeepn : ∀ a ∈ l, Keeps k k' a := fun a ha => hkeeps a (List.mem_cons_of_mem _ ha)
  have hnode : ∀ a ∈ l, ∀ x, a ≤ x → x < a + 12 → k'.mem x = k.mem x := by
    intro a ha x hx hx'
    have hroom := h.nodeRoom a ha
    simp only [SIZEOF_LINKED_LIST_NODE] at hroom
    exact (hkeepn a ha).bytes x hx (by omega)
  have hpointers : shellPointers k'.mem s l = shellPointers k.mem s l := by
    unfold shellPointers
    rw [hlist, cellsOf_congr fun a ha x hx hx' => hnode a ha x (by omega) hx']
  have hat : ListAt k'.mem (shell_commands_list k.mem s) l := by
    apply h.listAt.congr
    · intro x hx hx'
      have hroom := h.listRoom
      simp only [SIZEOF_LINKED_LIST] at hroom
      exact hkeepl.bytes x hx (by omega)
    · intro a ha x hx hx'
      exact hnode a ha x hx (by omega)
  refine ⟨⟨hinv, ?_, ?_, ?_, ?_, ?_, ?_⟩, hpointers⟩
  · rw [hlist]
    exact hat.isList
  · rw [hpointers]
    exact fun p hp => hlive p (h.held p hp)
  · rw [hpointers]
    exact h.nodup
  · rw [hsize]
    exact h.shellRoom
  · rw [hlist, hkeepl.size]
    exact h.listRoom
  · intro a ha
    rw [(hkeepn a ha).size]
    exact h.nodeRoom a ha

theorem CommandList.kept (h : CommandList k live pinned s l) {k' : Kheap}
    {live' pinned' : List Nat} (hinv : ClientHeap k' live' pinned') (hlive : ∀ p ∈ live, p ∈ live')
    (hkeeps : ∀ q ∈ shellPointers k.mem s l, Keeps k k' q) :
    CommandList k' live' pinned' s l ∧ shellPointers k'.mem s l = shellPointers k.mem s l := by
  have hkeep := hkeeps s (shell_mem_pointers k.mem s l)
  apply h.kept_with_list hinv hlive (h.list_kept hkeep) hkeep.size
  intro q hq
  rcases List.mem_cons.mp hq with rfl | hq
  · exact hkeeps _ (list_mem_pointers k.mem s l)
  · exact hkeeps q (node_mem_pointers hq)

/-! ## A node for a command -/

/-- A node in a block of its own, for a command in another. -/
structure FreshNode (k : Kheap) (live : List Nat) (s : Nat) (l : List Nat) (node c : Nat) :
    Prop where
  node_live : node ∈ live
  command_live : c ∈ live
  data : node_data k.mem node = c
  ne : node ≠ c
  node_fresh : node ∉ shellPointers k.mem s l
  command_fresh : c ∉ shellPointers k.mem s l
  room : SIZEOF_LINKED_LIST_NODE ≤ payload_size k node

section append

variable {node c : Nat} {m : Mem}

theorem FreshNode.aside (hnode : FreshNode k live s l node c)
    (h : CommandList k live pinned s l) :
    node + 12 ≤ shell_commands_list k.mem s ∨ shell_commands_list k.mem s + 12 ≤ node := by
  have hlistroom := h.listRoom
  have hroom := hnode.room
  simp only [SIZEOF_LINKED_LIST, SIZEOF_LINKED_LIST_NODE] at hlistroom hroom
  have hne : node ≠ shell_commands_list k.mem s := by
    intro heq
    apply hnode.node_fresh
    simp [shellPointers, heq]
  have hdis := h.heap.apart hnode.node_live h.list_live hne
  omega

theorem FreshNode.apart (hnode : FreshNode k live s l node c)
    (h : CommandList k live pinned s l) {a : Nat} (ha : a ∈ l) :
    a + 12 ≤ node ∨ node + 12 ≤ a := by
  have hrooma := h.nodeRoom a ha
  have hroom := hnode.room
  simp only [SIZEOF_LINKED_LIST_NODE] at hrooma hroom
  have hne : a ≠ node := by
    rintro rfl
    exact hnode.node_fresh (List.mem_append_left _ (node_mem_cellPointers ha))
  have hdis := h.heap.apart (h.node_live ha) hnode.node_live hne
  omega

/-- Only the list, the node and the links of the other nodes are written. -/
theorem CommandList.append_frame (h : CommandList k live pinned s l)
    (hnode : FreshNode k live s l node c)
    (hm : m = in_memory.linked_list_append k.mem (shell_commands_list k.mem s) node) {x : Nat}
    (hlist : x < shell_commands_list k.mem s ∨ shell_commands_list k.mem s + 12 ≤ x)
    (hx : x < node ∨ node + 8 ≤ x) (hnodes : ∀ a ∈ l, x < a + 4 ∨ a + 8 ≤ x) :
    m x = k.mem x := by
  rw [hm]
  exact linked_list_append_frame h.listAt hlist hx (hnode.aside h) hnodes

theorem CommandList.append_listAt (h : CommandList k live pinned s l)
    (hnode : FreshNode k live s l node c)
    (hm : m = in_memory.linked_list_append k.mem (shell_commands_list k.mem s) node) :
    ListAt m (shell_commands_list k.mem s) (l ++ [node]) := by
  obtain ⟨hnode0, hnodelt, -⟩ := h.heap.bounds hnode.node_live
  rw [hm]
  exact linked_list_append_spec h.listAt (h.heap.bounds h.list_live).1 hnode0 (by omega)
    (hnode.aside h) fun a ha => hnode.apart h ha

/-- Every node keeps its command. -/
theorem CommandList.append_data (h : CommandList k live pinned s l)
    (hnode : FreshNode k live s l node c)
    (hm : m = in_memory.linked_list_append k.mem (shell_commands_list k.mem s) node) :
    node_data m node = c ∧ ∀ a ∈ l, node_data m a = node_data k.mem a := by
  obtain ⟨hnew, hold⟩ := linked_list_append_data h.listAt (hnode.aside h) fun a ha =>
    hnode.apart h ha
  rw [hm, hnew, hnode.data]
  exact ⟨rfl, hold⟩

theorem CommandList.append_cells (h : CommandList k live pinned s l)
    (hnode : FreshNode k live s l node c)
    (hm : m = in_memory.linked_list_append k.mem (shell_commands_list k.mem s) node) :
    cellsOf m (l ++ [node]) = cellsOf k.mem l ++ [(node, c)] := by
  obtain ⟨hnew, hold⟩ := h.append_data hnode hm
  unfold cellsOf
  rw [List.map_append, List.map_singleton, hnew]
  congr 1
  apply List.map_congr_left
  intro a ha
  rw [hold a ha]

/-- The memory stays outside the list, the node and the other nodes. -/
theorem CommandList.append_keeps (h : CommandList k live pinned s l)
    (hnode : FreshNode k live s l node c)
    (hm : m = in_memory.linked_list_append k.mem (shell_commands_list k.mem s) node) :
    Kept k { k with mem := m } live pinned (node :: shell_commands_list k.mem s :: l) := by
  have hlistroom := h.listRoom
  have hroom := hnode.room
  simp only [SIZEOF_LINKED_LIST, SIZEOF_LINKED_LIST_NODE] at hlistroom hroom
  have hown : ∀ p ∈ node :: shell_commands_list k.mem s :: l, p ∈ live := by
    intro p hp
    rcases List.mem_cons.mp hp with rfl | hp
    · exact hnode.node_live
    · rcases List.mem_cons.mp hp with rfl | hp
      · exact h.list_live
      · exact h.node_live hp
  apply write_keeps h.heap hown
  intro x hx
  have hx1 := hx node List.mem_cons_self
  have hx2 := hx (shell_commands_list k.mem s) (by simp)
  refine h.append_frame hnode hm (by omega) (by omega) fun a ha => ?_
  have hrooma := h.nodeRoom a ha
  simp only [SIZEOF_LINKED_LIST_NODE] at hrooma
  have hxa := hx a (List.mem_cons_of_mem _ (List.mem_cons_of_mem _ ha))
  omega

/-- A node of its own goes to the list of the shell. -/
theorem CommandList.append (h : CommandList k live pinned s l)
    (hnode : FreshNode k live s l node c)
    (hm : m = in_memory.linked_list_append k.mem (shell_commands_list k.mem s) node) :
    CommandList { k with mem := m } live pinned s (l ++ [node]) := by
  have hkept := h.append_keeps hnode hm
  have hlist : shell_commands_list m s = shell_commands_list k.mem s := by
    have hne : s ∉ node :: shell_commands_list k.mem s :: l := by
      intro hmem
      rcases List.mem_cons.mp hmem with heq | hmem
      · apply hnode.node_fresh
        simp [shellPointers, heq]
      · exact h.shell_ne hmem
    exact h.list_kept (hkept.keeps s h.shell_live hne)
  have hpointers : (shellPointers m s (l ++ [node])).Perm
      (c :: node :: shellPointers k.mem s l) := by
    unfold shellPointers
    rw [h.append_cells hnode hm, cellPointers_append, hlist, List.append_assoc]
    exact List.perm_append_comm_assoc _ [c, node] _
  refine ⟨hkept.heap, ?_, ?_, ?_, ?_, ?_, ?_⟩
  · simp only [hlist]
    exact (h.append_listAt hnode hm).isList
  · intro p hp
    rw [hpointers.mem_iff] at hp
    rcases List.mem_cons.mp hp with rfl | hp
    · exact hnode.command_live
    · rcases List.mem_cons.mp hp with rfl | hp
      · exact hnode.node_live
      · exact h.held p hp
  · rw [hpointers.nodup_iff, List.nodup_cons, List.nodup_cons]
    refine ⟨fun hmem => ?_, hnode.node_fresh, h.nodup⟩
    rcases List.mem_cons.mp hmem with heq | hmem
    · exact hnode.ne heq.symm
    · exact hnode.command_fresh hmem
  · rw [hkept.sizes s h.shell_live]
    exact h.shellRoom
  · simp only [hlist]
    rw [hkept.sizes _ h.list_live]
    exact h.listRoom
  · intro a ha
    rcases List.mem_append.mp ha with ha | ha
    · rw [hkept.sizes a (h.node_live ha)]
      exact h.nodeRoom a ha
    · rw [List.mem_singleton.mp ha, hkept.sizes node hnode.node_live]
      exact hnode.room

end append

/-! ## A command and its name -/

/-- The block that the name of a command is copied to, before it is carved. -/
def nameBlock (k : Kheap) (name : CString) : Option Block :=
  bestFit (strlen name) (afterTaking SIZEOF_SHELL_COMMAND (heap_blocks k))

/-- The block for the name is larger than the name, and too small to be split behind it. -/
def NameFits (k : Kheap) (name : CString) : Prop :=
  ∃ b ∈ nameBlock k name, strlen name < b.size ∧ b.size ≤ strlen name + SIZEOF_HEAD

instance (k : Kheap) (name : CString) : Decidable (NameFits k name) :=
  inferInstanceAs (Decidable (∃ b ∈ nameBlock k name, _))

/-- What is left of `k` when the command `c` has a block `p` for its name. -/
structure Allocated (k k' : Kheap) (live pinned : List Nat) (name : CString) (c p : Nat) :
    Prop where
  place : ∃ b, bestFit SIZEOF_SHELL_COMMAND (heap_blocks k) = some b ∧ c = b.addr + 20
  best : ∃ b ∈ nameBlock k name, strlen name ≤ b.size ∧ p = b.addr + 20 ∧
    payload_size k' p = (taken SIZEOF_HEAD (strlen name) b).size
  blocks : heap_blocks k' =
    afterTaking (strlen name) (afterTaking SIZEOF_SHELL_COMMAND (heap_blocks k))
  heap : ClientHeap k' (p :: c :: live) pinned
  room : SIZEOF_SHELL_COMMAND ≤ payload_size k' c
  named : command_name k'.mem c = p
  keeps : ∀ q ∈ live, Keeps k k' q
  outside : SameOutside k k'

/-- The NUL of the name is in the block exactly when the block fits the name. -/
theorem Allocated.room_iff {k' : Kheap} {name : CString} {c p : Nat}
    (h : Allocated k k' live pinned name c p) :
    strlen name + 1 ≤ payload_size k' p ↔ NameFits k name := by
  obtain ⟨b, hb, hfit, -, hsize⟩ := h.best
  rw [hsize]
  unfold taken SIZEOF_HEAD
  simp only
  constructor
  · intro hroom
    refine ⟨b, hb, ?_⟩
    unfold SIZEOF_HEAD
    split at hroom
    · omega
    · omega
  · rintro ⟨b', hb', hmore, hless⟩
    obtain rfl : b = b' := Option.mem_unique hb hb'
    unfold SIZEOF_HEAD at hless
    rw [if_neg (by omega)]
    omega

/-- The command and the block for its name, or no space for one of them. -/
theorem shell_command_alloc_cases (h : ClientHeap k live pinned) {name : CString}
    {b : Block} (hb : b ∈ nameBlock k name) :
    (∃ k', shell_command_alloc k name =
        .kpanic KPANIC_OUT_OF_MEMORY "Memory allocation failed." k' ∧
      (bestFit SIZEOF_SHELL_COMMAND (heap_blocks k) = none ∨ strlen name = 0)) ∨
    ∃ c p k', shell_command_alloc k name = .done c k' ∧ Allocated k k' live pinned name c p := by
  have hsize : SIZEOF_SHELL_COMMAND ≤ KHEAP_HEAP_SIZE := by decide
  unfold shell_command_alloc
  rcases kmalloc_obtains h hsize with ⟨heq, hnone⟩ | ⟨c, k₁, heq, hgot⟩
  · refine Or.inl ⟨k, ?_, Or.inl (hnone.resolve_left (by decide))⟩
    rw [heq, Outcome.done_andThen, if_pos rfl]
  rw [heq, Outcome.done_andThen, if_neg (hgot.heap.bounds List.mem_cons_self).1]
  have hfits := hgot.fits
  simp only [SIZEOF_SHELL_COMMAND] at hfits
  have hbest : bestFit (strlen name) (heap_blocks k₁) = some b := by
    rw [hgot.blocks]
    exact hb
  obtain ⟨hmem, hfit⟩ := bestFit_mem hbest
  obtain ⟨-, -, hlo, hhi, -⟩ := hgot.heap.shape.inHeap hmem
  have hlen : strlen name ≤ KHEAP_HEAP_SIZE := by
    unfold KHEAP_HEAP_SIZE
    omega
  rcases kmalloc_obtains hgot.heap hlen with ⟨heq₂, hnone⟩ | ⟨p, k₂, heq₂, hgot₂⟩
  · have hzero : strlen name = 0 := by
      apply hnone.resolve_right
      rw [hbest]
      exact Option.some_ne_none b
    refine Or.inl ⟨{ k₁ with mem := store32 k₁.mem c NULL }, ?_, Or.inr hzero⟩
    have hname : command_name (store32 k₁.mem c NULL) c = NULL := load32_store32 _ _ (by decide)
    rw [heq₂, Outcome.done_andThen, if_pos hname]
  · right
    have hkeepc := hgot₂.keeps c List.mem_cons_self
    obtain ⟨hp0, hplt⟩ := hgot₂.heap.bounds List.mem_cons_self
    have hframe : ∀ x, (∀ q ∈ [c], x < q ∨ q + payload_size k₂ q ≤ x) →
        store32 k₂.mem c p x = k₂.mem x := by
      intro x hx
      have hxc := hx c (List.mem_singleton_self c)
      rw [hkeepc.size] at hxc
      exact store32_frame _ _ (by omega)
    have hown : ∀ q ∈ [c], q ∈ p :: c :: live := by
      intro q hq
      rw [List.mem_singleton.mp hq]
      simp
    have hkept := write_keeps hgot₂.heap hown hframe
    have hname : command_name (store32 k₂.mem c p) c = p := load32_store32 _ _ (by omega)
    have hnodup := hgot.heap.nodup
    rw [List.nodup_cons] at hnodup
    obtain ⟨bc, hbc, hc, -⟩ := hgot.best
    refine ⟨c, p, { k₂ with mem := store32 k₂.mem c p }, ?_, ⟨bc, hbc, hc⟩, ?_, ?_, hkept.heap, ?_,
      hname, ?_, (hgot.outside.trans hgot₂.outside).trans hkept.outside⟩
    · rw [heq₂, Outcome.done_andThen, if_neg (by rw [hname]; exact hp0)]
    · obtain ⟨b', hb', haddr, -, hsize'⟩ := hgot₂.best
      rw [hbest] at hb'
      cases hb'
      refine ⟨b, hb, hfit, haddr, ?_⟩
      rw [hkept.sizes p List.mem_cons_self, hsize']
    · rw [hkept.blocks, hgot₂.blocks, hgot.blocks]
    · rw [hkept.sizes c (by simp), hkeepc.size]
      exact hgot.fits
    · intro q hq
      have hqc : q ∉ [c] := by
        intro hmem
        rw [List.mem_singleton.mp hmem] at hq
        exact hnodup.1 hq
      apply (hgot.keeps q hq).trans
      apply (hgot₂.keeps q (List.mem_cons_of_mem _ hq)).trans
      exact hkept.keeps q (by simp [hq]) hqc

/-- The command `c` in a block of its own, with the name at `p` in another. -/
structure CommandAt (k : Kheap) (name : CString) (call c p : Nat) : Prop where
  named : command_name k.mem c = p
  call : command_call k.mem c = call % 4294967296
  chars : StringAt k.mem p name.chars
  commandRoom : SIZEOF_SHELL_COMMAND ≤ payload_size k c
  nameRoom : strlen name < payload_size k p

theorem CommandAt.kept {k' : Kheap} {name : CString} {call c p : Nat}
    (h : CommandAt k name call c p) (hc : Keeps k k' c) (hp : Keeps k k' p) :
    CommandAt k' name call c p := by
  have hroom := h.commandRoom
  have hnameroom := h.nameRoom
  simp only [SIZEOF_SHELL_COMMAND] at hroom
  unfold strlen at hnameroom
  have hname : load32 k'.mem (c + 0) = load32 k.mem (c + 0) := hc.load32 (by omega)
  refine ⟨hname.trans h.named, (hc.load32 (by omega)).trans h.call,
    h.chars.congr fun x hx hx' => hp.bytes x hx (by omega), ?_, ?_⟩
  · rw [hc.size]
    exact h.commandRoom
  · rw [hp.size]
    exact h.nameRoom

/-- A string that is copied stands in memory with its NUL. -/
theorem stringAt_strcpy (m : Mem) (p : Nat) (name : CString) :
    StringAt (strcpy m p name) p name.chars := by
  have hprinted := printed_storeList m p name.chars
  exact ⟨hprinted.bytes, hprinted.nul, name.nonzero⟩

/-- The copy of the name, and the handler behind it, stay in their blocks. -/
theorem Allocated.copied {k' : Kheap} {name : CString} {c p : Nat}
    (h : Allocated k k' live pinned name c p) (hfit : NameFits k name) (call : Nat) {m : Mem}
    (hm : m = store32 (strcpy k'.mem p name) (c + 4) call) :
    ClientHeap { k' with mem := m } (p :: c :: live) pinned ∧
      heap_blocks { k' with mem := m } = heap_blocks k' ∧
      CommandAt { k' with mem := m } name call c p ∧
      (∀ q ∈ live, Keeps k { k' with mem := m } q) ∧ SameOutside k { k' with mem := m } := by
  have hroom := h.room_iff.mpr hfit
  have hroomc := h.room
  simp only [SIZEOF_SHELL_COMMAND] at hroomc
  have hlen : (name.chars ++ [0]).length = strlen name + 1 := by
    rw [List.length_append]
    rfl
  have hframe : ∀ x, (∀ q ∈ [p, c], x < q ∨ q + payload_size k' q ≤ x) → m x = k'.mem x := by
    intro x hx
    have hxp := hx p (by simp)
    have hxc := hx c (by simp)
    rw [hm, store32_frame _ _ (by omega), strcpy, storeList_frame _ _ _ _ (by omega)]
  have hown : ∀ q ∈ [p, c], q ∈ p :: c :: live := by
    intro q hq
    rcases List.mem_cons.mp hq with rfl | hq
    · exact List.mem_cons_self
    · rw [List.mem_singleton.mp hq]
      simp
  have hkept := write_keeps h.heap hown hframe
  have hnodup := h.heap.nodup
  rw [List.nodup_cons, List.nodup_cons] at hnodup
  have hapart := h.heap.apart (show p ∈ p :: c :: live by simp)
    (show c ∈ p :: c :: live by simp) fun heq => hnodup.1 (by simp [heq])
  have hstored : CommandAt { k' with mem := m } name call c p := by
    refine ⟨?_, ?_, ?_, ?_, ?_⟩
    · have hname : command_name m c = command_name k'.mem c := by
        apply load32_congr
        intro x hx hx'
        rw [hm, store32_frame _ _ (by omega), strcpy, storeList_frame _ _ _ _ (by omega)]
      rw [← h.named]
      exact hname
    · simp only [hm]
      exact load32_store32_same _ _ _
    · apply (stringAt_strcpy k'.mem p name).congr
      intro x hx hx'
      unfold strlen at hroom
      simp only [hm]
      exact store32_frame _ _ (by omega)
    · rw [hkept.sizes c (by simp)]
      exact h.room
    · rw [hkept.sizes p (by simp)]
      exact hroom
  refine ⟨hkept.heap, hkept.blocks, hstored,
    fun q hq => (h.keeps q hq).trans (hkept.keeps q (by simp [hq]) ?_),
    h.outside.trans hkept.outside⟩
  intro hmem
  rcases List.mem_cons.mp hmem with rfl | hmem
  · exact hnodup.1 (List.mem_cons_of_mem c hq)
  · rw [List.mem_singleton.mp hmem] at hq
    exact hnodup.2.1 hq

/-- There are free blocks for the command, for its name and for its node. -/
structure EnoughSpace (k : Kheap) (name : CString) : Prop where
  forCommand : bestFit SIZEOF_SHELL_COMMAND (heap_blocks k) ≠ none
  forName : nameBlock k name ≠ none
  forNode : bestFit SIZEOF_LINKED_LIST_NODE
    (afterTaking (strlen name) (afterTaking SIZEOF_SHELL_COMMAND (heap_blocks k))) ≠ none

/-- The node that is made for a command is fresh. -/
theorem CommandList.new_node (h : CommandList k live pinned s l) {k₁ k₂ : Kheap}
    {pinned' : List Nat} {c p node : Nat} (hkeep : ∀ q ∈ live, Keeps k k₂ q)
    (hgot : Obtained k₁ k₂ (p :: c :: live) pinned' SIZEOF_LINKED_LIST_NODE node)
    (hdata : node_data k₂.mem node = c) :
    CommandList k₂ (node :: p :: c :: live) pinned' s l ∧
      FreshNode k₂ (node :: p :: c :: live) s l node c := by
  obtain ⟨hreg, hpointers⟩ := h.kept hgot.heap (fun q hq => by simp [hq])
    fun q hq => hkeep q (h.held q hq)
  have hnodup := hgot.heap.nodup
  rw [List.nodup_cons, List.nodup_cons, List.nodup_cons] at hnodup
  have hfresh : ∀ q ∈ shellPointers k₂.mem s l, q ≠ node ∧ q ≠ c := by
    intro q hq
    rw [hpointers] at hq
    have hlive := h.held q hq
    constructor
    · rintro rfl
      exact hgot.fresh (by simp [hlive])
    · rintro rfl
      exact hnodup.2.2.1 hlive
  exact ⟨hreg, List.mem_cons_self, by simp, hdata, fun heq => hgot.fresh (by simp [heq]),
    fun hmem => (hfresh node hmem).1 rfl, fun hmem => (hfresh c hmem).2 rfl, hgot.fits⟩

/-- The command is registered: its node is the last of the list, and only the list and its
nodes were written. -/
structure Registered (k k' : Kheap) (live pinned : List Nat) (s : Nat) (l : List Nat)
    (name : CString) (call c p node : Nat) : Prop where
  commands : CommandList k' (node :: p :: c :: live) pinned s (l ++ [node])
  data : node_data k'.mem node = c
  others : ∀ a ∈ l, node_data k'.mem a = node_data k.mem a
  command : CommandAt k' name call c p
  leaves : Leaves k k' live (shell_commands_list k.mem s :: l)
  outside : SameOutside k k'

/-- A command whose name fits is registered in blocks of its own, or there is no space. -/
theorem shell_register_command_cases (h : CommandList k live pinned s l) {name : CString}
    (hfit : NameFits k name) (call : Nat) :
    (∃ k', shell_register_command k s name call =
        .kpanic KPANIC_OUT_OF_MEMORY "Memory allocation failed." k' ∧
      (strlen name = 0 ∨ ¬ EnoughSpace k name)) ∨
    ∃ k' c p node, shell_register_command k s name call = .done () k' ∧
      Registered k k' live pinned s l name call c p node := by
  obtain ⟨b, hb, -⟩ := id hfit
  unfold shell_register_command
  rcases shell_command_alloc_cases h.heap hb with
    ⟨k₁, heq, hnone⟩ | ⟨c, p, k₁, heq, halloc⟩
  · left
    refine ⟨k₁, ?_, ?_⟩
    · rw [heq]
      rfl
    · rcases hnone with hnone | hzero
      · exact Or.inr fun henough => henough.forCommand hnone
      · exact Or.inl hzero
  rw [heq, Outcome.done_andThen]
  simp only [halloc.named]
  obtain ⟨m, hm⟩ : ∃ m, m = store32 (strcpy k₁.mem p name) (c + 4) call := ⟨_, rfl⟩
  obtain ⟨hinv, hblocks, hcommand, hkeeps, hout⟩ := halloc.copied hfit call hm
  rw [← hm]
  have hclt := (hinv.bounds (show c ∈ p :: c :: live by simp)).2
  rcases node_create_spec hinv (d := c) (by omega) with
    ⟨heq₂, hnone⟩ | ⟨node, k₂, heq₂, hdata, hgot⟩
  · left
    refine ⟨{ k₁ with mem := m }, ?_, Or.inr fun henough => henough.forNode ?_⟩
    · rw [heq₂, Outcome.done_andThen, if_pos rfl]
    · rwa [hblocks, halloc.blocks] at hnone
  · right
    have hkeep : ∀ q ∈ live, Keeps k k₂ q := by
      intro q hq
      exact (hkeeps q hq).trans (hgot.keeps q (by simp [hq]))
    obtain ⟨hreg, hnode⟩ := h.new_node hkeep hgot hdata
    have hkept := hreg.append_keeps hnode rfl
    have hlist := h.list_kept (hkeep s h.shell_live)
    obtain ⟨hnew, hold⟩ := hreg.append_data hnode rfl
    refine ⟨_, c, p, node, ?_, hreg.append hnode rfl, hnew, fun a ha => ?_, ?_, ?_, ?_⟩
    · rw [heq₂, Outcome.done_andThen, if_neg (hgot.heap.bounds List.mem_cons_self).1]
    · have hroom := h.nodeRoom a ha
      simp only [SIZEOF_LINKED_LIST_NODE] at hroom
      exact (hold a ha).trans ((hkeep a (h.node_live ha)).load32 (by omega))
    · -- neither the command nor its name is in the list
      have hnodup := hgot.heap.nodup
      rw [List.nodup_cons, List.nodup_cons, List.nodup_cons] at hnodup
      have hother : ∀ q ∈ [p, c], q ∉ node :: shell_commands_list k₂.mem s :: l := by
        intro q hq hmem
        have hlive : q ∉ live := by
          rcases List.mem_cons.mp hq with rfl | hq
          · exact fun hlive => hnodup.2.1 (List.mem_cons_of_mem c hlive)
          · rw [List.mem_singleton.mp hq]
            exact hnodup.2.2.1
        rcases List.mem_cons.mp hmem with rfl | hmem
        · exact hnodup.1 (List.mem_append_left live hq)
        · rcases List.mem_cons.mp hmem with heq | hmem
          · exact hlive (by rw [heq, hlist]; exact h.list_live)
          · exact hlive (h.node_live hmem)
      refine (hcommand.kept (hgot.keeps c (by simp)) (hgot.keeps p (by simp))).kept ?_ ?_
      · exact hkept.keeps c (by simp) (hother c (by simp))
      · exact hkept.keeps p (by simp) (hother p (by simp))
    · apply (leaves_of_keeps hkeep).trans (hkept.toLeaves.mono (fun q hq => by simp [hq]) _)
      intro q hq hne hmem
      rcases List.mem_cons.mp hmem with rfl | hmem
      · exact hgot.fresh (by simp [hq])
      · rw [hlist] at hmem
        exact hne hmem
    · exact (hout.trans hgot.outside).trans hkept.outside

end registry

/-! ## A shell without commands -/

/-- What `shell_create` makes first is a shell with an empty list. -/
theorem shell_alloc_registry {k k' : Kheap} {live : List Nat} {s : Nat}
    (h : ClientHeap k live []) (halloc : shell_alloc k = .done s k') :
    ∃ live', CommandList k' live' [] s [] ∧ (∀ p ∈ live, p ∈ live') ∧ SameOutside k k' := by
  have hnull : NULL < 4294967296 := by decide
  unfold shell_alloc at halloc
  rcases kmalloc_obtains h (show SIZEOF_SHELL ≤ KHEAP_HEAP_SIZE by decide) with
    ⟨heq, -⟩ | ⟨shell, k₁, heq, hgot⟩
  · rw [heq, Outcome.done_andThen, if_pos rfl] at halloc
    cases halloc
  rw [heq, Outcome.done_andThen, if_neg (hgot.heap.bounds List.mem_cons_self).1]
    at halloc
  rcases list_create_spec hgot.heap with ⟨heq₂, -⟩ | ⟨list, k₂, heq₂, hempty, hgot₂⟩
  · have hlist : shell_commands_list (store32 k₁.mem (shell + 16) NULL) shell = NULL :=
      load32_store32 _ _ hnull
    rw [heq₂, Outcome.done_andThen, if_pos hlist] at halloc
    cases halloc
  obtain ⟨hlist0, hlistlt, -⟩ := hgot₂.heap.bounds List.mem_cons_self
  obtain ⟨m, hm⟩ : ∃ m, m = store32 k₂.mem (shell + 16) list := ⟨_, rfl⟩
  have hlist : shell_commands_list m shell = list := by
    rw [hm]
    exact load32_store32 _ _ (by omega)
  rw [heq₂, Outcome.done_andThen] at halloc
  simp only [← hm, hlist, if_neg hlist0] at halloc
  cases halloc
  -- the store is inside the shell
  have hne : list ≠ s := fun heq => hgot₂.fresh (by simp [heq])
  have hshellroom : SIZEOF_SHELL ≤ payload_size k₂ s := by
    rw [(hgot₂.keeps s List.mem_cons_self).size]
    exact hgot.fits
  have hframe : ∀ x, (∀ p ∈ [s], x < p ∨ p + payload_size k₂ p ≤ x) → m x = k₂.mem x := by
    intro x hx
    have hxs := hx s (List.mem_singleton_self s)
    simp only [SIZEOF_SHELL] at hshellroom
    rw [hm, store32_frame _ _ (by omega)]
  have hown : ∀ p ∈ [s], p ∈ list :: s :: live := by
    intro p hp
    rw [List.mem_singleton.mp hp]
    simp
  have hkept := write_keeps hgot₂.heap hown hframe
  have hkeepl := hkept.keeps list List.mem_cons_self (by simpa using hne)
  have hroom := hgot₂.fits
  refine ⟨list :: s :: live, ⟨hkept.heap, ?_, ?_, ?_, ?_, ?_, ?_⟩, fun p hp => by simp [hp],
    (hgot.outside.trans hgot₂.outside).trans hkept.outside⟩
  · simp only [hlist]
    exact (hempty.congr (fun x hx hx' => hkeepl.bytes x hx (by
      simp only [SIZEOF_LINKED_LIST] at hroom
      omega)) fun a ha => absurd ha List.not_mem_nil).isList
  · simp [shellPointers, cellPointers, cellsOf, hlist]
  · simpa [shellPointers, cellPointers, cellsOf, hlist] using hne
  · rw [hkept.sizes s (by simp)]
    exact hshellroom
  · simp only [hlist]
    rw [hkeepl.size]
    exact hroom
  · exact fun a ha => absurd ha List.not_mem_nil

/-! ## Runs of registrations -/

/-- The registration of a name with a handler. `none` when it does not return. -/
def register_step (s : Nat) (k : Kheap) (command : CString × Nat) : Option Kheap :=
  match shell_register_command k s command.1 command.2 with
  | .done _ k' => some k'
  | _ => none

/-- The registration copies the name inside the block that it allocated for it, and leaves a
heap whose blocks tile it, each with the magic, and what others hold as it was. -/
structure Undamaged (k : Kheap) (live : List Nat) (s : Nat) (l : List Nat) (name : CString)
    (call : Nat) : Prop where
  inside : ∃ c k', shell_command_alloc k name = .done c k' ∧
    SIZEOF_SHELL_COMMAND ≤ payload_size k' c ∧
    strlen name + 1 ≤ payload_size k' (command_name k'.mem c)
  after : ∃ k', shell_register_command k s name call = .done () k' ∧
    Shape k' (heap_blocks k') ∧ Sealed k' (heap_blocks k') ∧
    ∀ q ∈ live, q ≠ shell_commands_list k.mem s → q ∉ l → Keeps k k' q

theorem CommandList.undamaged_iff {k : Kheap} {live l : List Nat} {s : Nat}
    (h : CommandList k live [] s l) {name : CString} (hlen : 1 ≤ strlen name)
    (hspace : EnoughSpace k name) (call : Nat) :
    Undamaged k live s l name call ↔ NameFits k name := by
  obtain ⟨b, hb⟩ := Option.ne_none_iff_exists'.mp hspace.forName
  rcases shell_command_alloc_cases h.heap hb with
    ⟨k₁, heq, hnone⟩ | ⟨c, p, k₁, heq, halloc⟩
  · rcases hnone with hnone | hzero
    · exact absurd hnone hspace.forCommand
    · omega
  constructor
  · intro hundamaged
    obtain ⟨c', k', heq', -, hroom⟩ := hundamaged.inside
    rw [heq] at heq'
    cases heq'
    rw [halloc.named] at hroom
    exact halloc.room_iff.mp hroom
  · intro hfit
    refine ⟨⟨c, k₁, heq, halloc.room, ?_⟩, ?_⟩
    · rw [halloc.named]
      exact halloc.room_iff.mpr hfit
    · rcases shell_register_command_cases h hfit call with
        ⟨k', -, hnone⟩ | ⟨k', c', p', node, heq', hreg⟩
      · rcases hnone with hzero | hspace'
        · omega
        · exact absurd hspace hspace'
      · have hinv := clientHeap_iff.mp hreg.commands.heap
        refine ⟨k', heq', hinv.shape, hinv.sealed, fun q hq hql hqm => ?_⟩
        apply hreg.leaves.keeps q hq
        simp [hql, hqm]

/-- From every shell on a heap in order, a run of registrations whose names all fit keeps the
heap in order and the list of commands with it, and to destroy the shell then gives back
all that it holds, without a panic. And wherever there is space, the next registration
does no damage exactly when its name fits. -/
theorem registrations_keep_the_heap_when_names_fit {k k' : Kheap} {live l : List Nat} {s : Nat}
    (h : CommandList k live [] s l) {commands : List (CString × Nat)}
    (hfit : Along (register_step s) (fun k command => NameFits k command.1) k commands)
    (hrun : run (register_step s) k commands = some k') :
    ∃ live' l', CommandList k' live' [] s l' ∧ (∀ p ∈ live, p ∈ live') ∧
      l'.length = l.length + commands.length ∧
      (∃ t, shell_destroy k' s = .done () t ∧
        ClientHeap t (live'.diff (shellPointers k'.mem s l')) []) ∧
      ∀ name call, 1 ≤ strlen name → EnoughSpace k' name →
        (Undamaged k' live' s l' name call ↔ NameFits k' name) := by
  induction commands generalizing k live l with
  | nil =>
    cases hrun
    exact ⟨live, l, h, fun _ hp => hp, rfl, h.destroy,
      fun name call hlen hspace => h.undamaged_iff hlen hspace call⟩
  | cons command commands ih =>
    obtain ⟨k₁, hstep, hrest⟩ := run_cons.mp hrun
    obtain ⟨hthis, hothers⟩ := hfit
    rcases shell_register_command_cases h hthis command.2 with
      ⟨k₂, heq, -⟩ | ⟨k₂, c, p, node, heq, hreg⟩
    · unfold register_step at hstep
      rw [heq] at hstep
      cases hstep
    · have hnext : register_step s k command = some k₂ := by
        unfold register_step
        rw [heq]
      rw [hnext] at hstep
      obtain rfl := Option.some.inj hstep
      obtain ⟨live', l', hreg', hsub, hlen, hend⟩ := ih hreg.commands (hothers _ hnext) hrest
      refine ⟨live', l', hreg', fun q hq => hsub q (by simp [hq]), ?_, hend⟩
      simp only [hlen, List.length_append, List.length_cons, List.length_nil]
      omega

def helpName : CString where
  chars := [104, 101, 108, 112]
  nonzero := by decide +kernel
  fits := by decide

/-- The shell that `shell_create` makes first, with the heap behind it. -/
def shellOn (k : Kheap) : Nat × Kheap :=
  match shell_alloc k with
  | .done s k' => (s, k')
  | _ => (NULL, k)

theorem shellOn_registry {k : Kheap} {live : List Nat}
    (h : ClientHeap k live []) (hne : (shellOn k).1 ≠ NULL) :
    ∃ live', CommandList (shellOn k).2 live' [] (shellOn k).1 [] := by
  unfold shellOn at hne ⊢
  cases halloc : shell_alloc k with
  | done s k' =>
    obtain ⟨live', hreg, -⟩ := shell_alloc_registry h halloc
    exact ⟨live', hreg⟩
  | kpanic _ _ _ => simp only [halloc, ne_eq, not_true_eq_false] at hne
  | fault _ => simp only [halloc, ne_eq, not_true_eq_false] at hne
  | hang _ => simp only [halloc, ne_eq, not_true_eq_false] at hne

/-- A heap with a free block of 7 bytes in front. -/
def heapWithHole : Kheap :=
  match run client_step ⟨startHeap, []⟩ [.kmalloc 7, .kmalloc 1, .kfree 0xC0300014] with
  | some c => c.heap
  | none => startHeap

theorem heapWithHole_client : ∃ live, ClientHeap heapWithHole live [] := by
  unfold heapWithHole
  cases hrun : run client_step ⟨startHeap, []⟩ [.kmalloc 7, .kmalloc 1, .kfree 0xC0300014] with
  | none => exact ⟨[], startHeap_client⟩
  | some c =>
    obtain ⟨⟨bs, hinv⟩, -⟩ := run_invariant ⟨_, clientHeap_iff.mp startHeap_client⟩ hrun
    have hblocks := hinv.shape.blocks
    refine ⟨c.live, ?_⟩
    simp only
    rw [clientHeap_iff, hblocks]
    exact hinv

theorem a_name_that_fits_does_no_damage :
    ∃ live k' live' l', CommandList (shellOn heapWithHole).2 live [] (shellOn heapWithHole).1 [] ∧
      run (register_step (shellOn heapWithHole).1) (shellOn heapWithHole).2
        [(helpName, 0xC0105000)] = some k' ∧
      CommandList k' live' [] (shellOn heapWithHole).1 l' ∧ l'.length = 1 ∧
      ∃ t, shell_destroy k' (shellOn heapWithHole).1 = .done () t := by
  obtain ⟨live₀, hinv⟩ := heapWithHole_client
  have hne : (shellOn heapWithHole).1 ≠ NULL := by decide +kernel
  obtain ⟨live, hreg⟩ := shellOn_registry hinv hne
  obtain ⟨k', hrun⟩ := Option.isSome_iff_exists.mp (by decide +kernel :
    (run (register_step (shellOn heapWithHole).1) (shellOn heapWithHole).2
      [(helpName, 0xC0105000)]).isSome = true)
  have hfit : Along (register_step (shellOn heapWithHole).1)
      (fun k command => NameFits k command.1) (shellOn heapWithHole).2
      [(helpName, 0xC0105000)] := by
    have hname : NameFits (shellOn heapWithHole).2 helpName := by decide +kernel
    exact ⟨hname, fun t _ => trivial⟩
  obtain ⟨live', l', hreg', -, hlen, ⟨t, hdestroy, -⟩, -⟩ :=
    registrations_keep_the_heap_when_names_fit hreg hfit hrun
  exact ⟨live, k', live', l', hreg, hrun, hreg', hlen, t, hdestroy⟩

/-- The code and the reason of a panic. -/
def panicReason {σ α : Type} : Outcome σ α → Option (Nat × String)
  | .kpanic code message _ => some (code, message)
  | _ => none

theorem panicReason_eq {σ α : Type} {o : Outcome σ α} {code : Nat} {message : String}
    (h : panicReason o = some (code, message)) : ∃ s, o = .kpanic code message s := by
  cases o with
  | kpanic _ _ s =>
    cases h
    exact ⟨s, rfl⟩
  | done _ _ => cases h
  | fault _ => cases h
  | hang _ => cases h

/-- The heap after the registration of `help` by the first shell of a kernel. -/
def heapAfterHelp : Kheap :=
  match shell_register_command (shellOn startHeap).2 (shellOn startHeap).1 helpName 0xC0105000 with
  | .done _ k => k
  | _ => startHeap

/-- The NUL of `help` is written over the magic of the next header. The node takes that block,
and to destroy the shell ends in a panic. -/
theorem a_name_overwrites_the_next_header :
    ∃ live, CommandList (shellOn startHeap).2 live [] (shellOn startHeap).1 [] ∧
      EnoughSpace (shellOn startHeap).2 helpName ∧
      ¬ Undamaged (shellOn startHeap).2 live (shellOn startHeap).1 [] helpName 0xC0105000 ∧
      (∃ b ∈ heap_blocks heapAfterHelp, head_magic heapAfterHelp.mem b.addr ≠ KHEAP_MAGIC) ∧
      ∃ t, shell_destroy heapAfterHelp (shellOn startHeap).1 =
        .kpanic KPANIC_OUT_OF_MEMORY "Invalid heap block magic: memory corrupted." t := by
  have hne : (shellOn startHeap).1 ≠ NULL := by decide +kernel
  obtain ⟨live, hreg⟩ := shellOn_registry startHeap_client hne
  have hspace : EnoughSpace (shellOn startHeap).2 helpName :=
    ⟨by decide +kernel, by decide +kernel, by decide +kernel⟩
  have hname : ¬ NameFits (shellOn startHeap).2 helpName := by decide +kernel
  refine ⟨live, hreg, hspace, ?_, by decide +kernel, ?_⟩
  · rw [hreg.undamaged_iff (by decide) hspace]
    exact hname
  · apply panicReason_eq
    decide +kernel

end sakana_os
