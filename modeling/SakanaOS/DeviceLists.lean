-- The lists of devices that `device_find_all_by_type` makes in the heap, and the one device that
-- `device_find_by_type` finds: the search that stops at the first device of the type and the one
-- that gathers them all agree.
import SakanaOS.Devices
import SakanaOS.ListMemory

open byte_memory block_tiling forests runs

namespace sakana_os

namespace in_memory

/-! ## The code -/

/-- `_device_generic_payload_t`: the list that grows, and the type at 32 bits. -/
structure device_generic_payload where
  devices : Nat
  type : UInt32

section

variable (devices : Nat → device)

def device_find_all_by_type_callback (payload : device_generic_payload)
    (userdata : Outcome Kheap Unit) (device_node : generic_tree_node) : Outcome Kheap Unit :=
  userdata.andThen fun _ k =>
    if (devices device_node.data).type = payload.type.toUInt16 then
      (linked_list_node_create k device_node.data kmalloc).andThen fun node k =>
        if node = NULL then .kpanic KPANIC_OUT_OF_MEMORY "Memory allocation failed." k
        else .done () { k with mem := linked_list_append k.mem payload.devices node }
    else .done () k

/-- The list of the devices of a type. The nodes of the tree lie in blocks of their own, which
the search only reads. -/
def device_find_all_by_type (s : Registry) (type : UInt16) (k : Kheap) : Outcome Kheap Nat :=
  (linked_list_create k kmalloc).andThen fun list k =>
    if list = NULL then .kpanic KPANIC_OUT_OF_MEMORY "Memory allocation failed." k
    else
      match generic_tree_callback_foreach s.device_tree
          (device_find_all_by_type_callback devices ⟨list, type.toUInt32⟩) (.done () k) with
      | some o => o.andThen fun _ k => .done list k
      | none => .hang k

end

/-! ## A list in blocks of its own -/

/-- A list that a client of the heap holds, with its nodes. -/
structure OwnedList (k : Kheap) (live pinned : List Nat) (list : Nat) (l : List Nat) : Prop where
  heap : ClientHeap k live pinned
  listAt : ListAt k.mem list l
  held : ∀ p ∈ list :: l, p ∈ live ∧ 12 ≤ payload_size k p

section

variable {k k' : Kheap} {live pinned : List Nat} {list node d : Nat} {l : List Nat}

/-- The list stays where others get a block. -/
theorem OwnedList.kept (h : OwnedList k live pinned list l)
    (hgot : Obtained k k' live pinned SIZEOF_LINKED_LIST_NODE node) :
    OwnedList k' (node :: live) pinned list l := by
  have hbytes : ∀ p ∈ list :: l, ∀ x, p ≤ x → x < p + 12 → k'.mem x = k.mem x := by
    intro p hp x hx hx'
    obtain ⟨hlive, hroom⟩ := h.held p hp
    exact (hgot.keeps p hlive).bytes x hx (by omega)
  refine ⟨hgot.heap, h.listAt.congr (hbytes list List.mem_cons_self) fun a ha x hx hx' => ?_,
    fun p hp => ?_⟩
  · exact hbytes a (List.mem_cons_of_mem _ ha) x hx (by omega)
  · obtain ⟨hlive, hroom⟩ := h.held p hp
    rw [(hgot.keeps p hlive).size]
    exact ⟨List.mem_cons_of_mem _ hlive, hroom⟩

/-- The data of the nodes stay where others get a block. -/
theorem OwnedList.data_kept (h : OwnedList k live pinned list l)
    (hgot : Obtained k k' live pinned SIZEOF_LINKED_LIST_NODE node) :
    ∀ a ∈ l, node_data k'.mem a = node_data k.mem a := by
  intro a ha
  obtain ⟨hlive, hroom⟩ := h.held a (List.mem_cons_of_mem _ ha)
  exact (hgot.keeps a hlive).load32 (by omega)

/-- A node in a block of its own goes to the end of the list. -/
theorem OwnedList.append (h : OwnedList k live pinned list l) (hnode : node ∈ live)
    (hroom : 12 ≤ payload_size k node) (hfresh : node ∉ list :: l) :
    OwnedList { k with mem := linked_list_append k.mem list node } live pinned list (l ++ [node]) ∧
      node_data (linked_list_append k.mem list node) node = node_data k.mem node ∧
      ∀ a ∈ l, node_data (linked_list_append k.mem list node) a = node_data k.mem a := by
  have hdis : ∀ p ∈ list :: l, p + 12 ≤ node ∨ node + 12 ≤ p := by
    intro p hp
    obtain ⟨hlive, hroomp⟩ := h.held p hp
    have hne : p ≠ node := fun he => hfresh (he ▸ hp)
    have hdis := h.heap.apart hlive hnode hne
    omega
  have haside := (hdis list List.mem_cons_self).symm
  have hapart : ∀ a ∈ l, a + 12 ≤ node ∨ node + 12 ≤ a := fun a ha =>
    hdis a (List.mem_cons_of_mem _ ha)
  obtain ⟨hlist, hlistroom⟩ := h.held list List.mem_cons_self
  obtain ⟨hnull, hlt, -⟩ := h.heap.bounds hnode
  have hown : ∀ p ∈ node :: list :: l, p ∈ live := by
    intro p hp
    rcases List.mem_cons.mp hp with rfl | hp
    · exact hnode
    · exact (h.held p hp).1
  have hkept : Kept k { k with mem := linked_list_append k.mem list node } live pinned
      (node :: list :: l) := by
    apply write_keeps h.heap hown
    intro x hx
    have hxnode := hx node List.mem_cons_self
    have hxlist := hx list (by simp)
    refine linked_list_append_frame h.listAt (by omega) (by omega) haside fun a ha => ?_
    have hrooma := (h.held a (List.mem_cons_of_mem _ ha)).2
    have hxa := hx a (by simp [ha])
    omega
  refine ⟨⟨hkept.heap, ?_, fun p hp => ?_⟩, linked_list_append_data h.listAt haside hapart⟩
  · exact linked_list_append_spec h.listAt (h.heap.bounds hlist).1 hnull (by omega) haside hapart
  · have hmem : p ∈ node :: list :: l := by
      simp only [List.mem_cons, List.mem_append, List.not_mem_nil, or_false] at hp ⊢
      tauto
    rw [hkept.sizes p (hown p hmem)]
    refine ⟨hown p hmem, ?_⟩
    rcases List.mem_cons.mp hmem with rfl | hmem
    · exact hroom
    · exact (h.held p hmem).2

/-! ## The traversal -/

/-- No free block has room for a node. -/
def NoRoomForNode (k : Kheap) : Prop := bestFit SIZEOF_LINKED_LIST_NODE (heap_blocks k) = none

variable {devices : Nat → device} {type : UInt16}

/-- A device of the type is appended, unless no block is free for its node. -/
theorem callback_appends (h : OwnedList k live pinned list l) {device_node : generic_tree_node}
    (htype : (devices device_node.data).type = type) (hlt : device_node.data < 4294967296) :
    (∃ k', device_find_all_by_type_callback devices ⟨list, type.toUInt32⟩ (.done () k) device_node =
        .kpanic KPANIC_OUT_OF_MEMORY "Memory allocation failed." k' ∧ NoRoomForNode k') ∨
    ∃ k' node live', device_find_all_by_type_callback devices ⟨list, type.toUInt32⟩ (.done () k)
        device_node = .done () k' ∧ OwnedList k' live' pinned list (l ++ [node]) ∧
      (l ++ [node]).map (node_data k'.mem) = l.map (node_data k.mem) ++ [device_node.data] := by
  unfold device_find_all_by_type_callback
  rw [Outcome.done_andThen, UInt16.toUInt16_toUInt32, if_pos htype]
  rcases node_create_spec h.heap hlt with ⟨heq, hnone⟩ | ⟨node, k₁, heq, hdata, hgot⟩
  · refine Or.inl ⟨k, ?_, hnone⟩
    rw [heq, Outcome.done_andThen, if_pos rfl]
  · right
    have hkept := h.kept hgot
    have hfresh : node ∉ list :: l := fun hm => hgot.fresh (h.held node hm).1
    obtain ⟨hown, hnew, hold⟩ := hkept.append List.mem_cons_self hgot.fits hfresh
    refine ⟨_, node, _, ?_, hown, ?_⟩
    · rw [heq, Outcome.done_andThen, if_neg (hgot.heap.bounds List.mem_cons_self).1]
    · rw [List.map_append, List.map_singleton, hnew, hdata]
      congr 1
      apply List.map_congr_left
      intro a ha
      rw [hold a ha, h.data_kept hgot a ha]

/-- A panic in the traversal ends it. -/
theorem foldl_callback_kpanic (payload : device_generic_payload) (nodes : List generic_tree_node)
    (code : Nat) (message : String) (k : Kheap) :
    nodes.foldl (device_find_all_by_type_callback devices payload) (.kpanic code message k) =
      .kpanic code message k := by
  induction nodes with
  | nil => rfl
  | cons device_node nodes ih => exact ih

/-- The traversal gathers the devices of the type, in the order of the visits. -/
theorem foldl_callback (h : OwnedList k live pinned list l) (nodes : List generic_tree_node)
    (hlt : ∀ n ∈ nodes, n.data < 4294967296) :
    (∃ k', nodes.foldl (device_find_all_by_type_callback devices ⟨list, type.toUInt32⟩)
        (.done () k) = .kpanic KPANIC_OUT_OF_MEMORY "Memory allocation failed." k' ∧
      NoRoomForNode k') ∨
    ∃ k' l' live', nodes.foldl (device_find_all_by_type_callback devices ⟨list, type.toUInt32⟩)
        (.done () k) = .done () k' ∧ OwnedList k' live' pinned list l' ∧
      l'.map (node_data k'.mem) = l.map (node_data k.mem) ++
        (nodes.map generic_tree_node.data).filter fun d => (devices d).type = type := by
  induction nodes generalizing k live l with
  | nil => exact Or.inr ⟨k, l, live, rfl, h, by simp⟩
  | cons device_node nodes ih =>
    have hrest := fun n hn => hlt n (List.mem_cons_of_mem _ hn)
    rw [List.foldl_cons, List.map_cons]
    by_cases htype : (devices device_node.data).type = type
    · rw [List.filter_cons_of_pos (by simpa using htype)]
      rcases callback_appends h htype (hlt device_node List.mem_cons_self) with
        ⟨k₁, heq, hnone⟩ | ⟨k₁, node, live₁, heq, hown, hmap⟩
      · rw [heq, foldl_callback_kpanic]
        exact Or.inl ⟨k₁, rfl, hnone⟩
      · rw [heq]
        rcases ih hown hrest with hpanic | ⟨k', l', live', hfold, hown', hmap'⟩
        · exact Or.inl hpanic
        · refine Or.inr ⟨k', l', live', hfold, hown', ?_⟩
          rw [hmap', hmap, List.append_assoc]
          rfl
    · have hskip : device_find_all_by_type_callback devices ⟨list, type.toUInt32⟩ (.done () k)
          device_node = .done () k := by
        unfold device_find_all_by_type_callback
        rw [Outcome.done_andThen, UInt16.toUInt16_toUInt32, if_neg htype]
      rw [hskip, List.filter_cons_of_neg (by simpa using htype)]
      exact ih h hrest

/-- The list that is reported, or a panic for want of a block. -/
theorem find_all_by_type_spec {s : Registry} {f : Forest Nat} (h : TreeIs s.device_tree f)
    (hheap : ClientHeap k live pinned) (hlt : ∀ d ∈ dataOf s.device_tree.nodes f, d < 4294967296)
    (devices : Nat → device) (type : UInt16) :
    (∃ k', device_find_all_by_type devices s type k =
        .kpanic KPANIC_OUT_OF_MEMORY "Memory allocation failed." k' ∧ NoRoomForNode k') ∨
    ∃ list k' l, device_find_all_by_type devices s type k = .done list k' ∧
      ListAt k'.mem list l ∧ l.map (node_data k'.mem) =
        (dataOf s.device_tree.nodes f).filter fun d => (devices d).type = type := by
  unfold device_find_all_by_type
  rcases list_create_spec hheap with ⟨heq, hnone⟩ | ⟨list, k₁, heq, hempty, hgot⟩
  · refine Or.inl ⟨k, ?_, hnone⟩
    rw [heq, Outcome.done_andThen, if_pos rfl]
  rw [heq, Outcome.done_andThen, if_neg (hgot.heap.bounds List.mem_cons_self).1, h.foreach,
    ← List.foldl_map]
  have hown : OwnedList k₁ (list :: live) pinned list [] := by
    refine ⟨hgot.heap, hempty, fun p hp => ?_⟩
    rw [List.mem_singleton.mp hp]
    exact ⟨List.mem_cons_self, hgot.fits⟩
  have hnodes : ∀ n ∈ f.preorder.map s.device_tree.nodes, n.data < 4294967296 := by
    intro n hn
    obtain ⟨a, ha, rfl⟩ := List.mem_map.mp hn
    exact hlt _ (List.mem_map.mpr ⟨a, ha, rfl⟩)
  rcases @foldl_callback _ _ _ _ _ devices type hown _ hnodes with
    ⟨k', hfold, hnone⟩ | ⟨k', l, live', hfold, hown', hmap⟩
  · refine Or.inl ⟨k', ?_, hnone⟩
    simp only [hfold]
    rfl
  · refine Or.inr ⟨list, k', l, ?_, hown'.listAt, ?_⟩
    · simp only [hfold]
      rfl
    · rw [hmap, List.map_map]
      rfl

end

end in_memory

/-! ## Every run -/

/-- The tree is the forest `f`, and holds devices that are registered, each once. -/
structure HoldsSome (s : RegistryRun) (f : Forest Nat) : Prop where
  tree : TreeIs s.registry.device_tree f
  devices : ∀ d ∈ dataOf s.registry.device_tree.nodes f, d ∈ s.registered
  blocks : ∀ a ∈ f.preorder, a ∈ s.registry.blocks
  distinct : (dataOf s.registry.device_tree.nodes f).Nodup

section

variable {s t : RegistryRun} {f : Forest Nat}

theorem RegistryIs.holdsSome (h : RegistryIs s f) : HoldsSome s f :=
  ⟨h.tree, h.devices.subset, h.blocks, h.devices.nodup_iff.mpr h.distinct⟩

/-- The devices of the tree alone. -/
def RegistryRun.held (s : RegistryRun) (f : Forest Nat) : RegistryRun where
  registry := s.registry
  registered := dataOf s.registry.device_tree.nodes f

theorem HoldsSome.held (h : HoldsSome s f) : RegistryIs (s.held f) f :=
  ⟨h.tree, List.Perm.refl _, h.blocks, h.distinct⟩

/-- A device that is put under a node of the tree. -/
theorem HoldsSome.insert (h : HoldsSome s f) {device node parent : Nat}
    (hcan : s.CanRegister device node) (hp : parent ∈ f.preorder) :
    ∃ nodes' f', generic_tree_insert
        (generic_tree_node_init s.registry.device_tree.nodes node device) parent node =
        some nodes' ∧
      HoldsSome (s.added device (0, ⟨⟨nodes', s.registry.device_tree.root⟩,
        node :: s.registry.blocks⟩)) f' := by
  obtain ⟨hdevice, hnew, hrest⟩ := hcan
  have hcan : (s.held f).CanRegister device node :=
    ⟨hdevice, fun hm => hnew (h.devices device hm), hrest⟩
  obtain ⟨nodes', f', hrun, his⟩ := h.held.insert hcan hp
  refine ⟨nodes', f', hrun, his.tree, fun d hd => ?_, his.blocks, his.holdsSome.distinct⟩
  have hmem := his.devices.subset hd
  simp only [RegistryRun.added, if_true] at hmem ⊢
  rcases List.mem_cons.mp hmem with rfl | hmem
  · exact List.mem_cons_self
  · exact List.mem_cons_of_mem _ (h.devices d hmem)

/-- A node that is removed takes the devices under it along. -/
theorem HoldsSome.remove (h : HoldsSome s f) {node : Nat} (hnode : node ∈ f.preorder) :
    ∃ tree f', generic_tree_remove s.registry.device_tree node = some tree ∧
      HoldsSome (s.taken (s.registry.device_tree.nodes node).data
        (0, ⟨tree, s.registry.blocks.erase node⟩)) f' := by
  obtain ⟨tree, f', c, hremove, hremoved⟩ := remove_treeIs h.tree hnode
  have hmap : dataOf tree.nodes f' = dataOf s.registry.device_tree.nodes f' :=
    List.map_congr_left fun a _ => hremoved.data a
  have hperm : (dataOf s.registry.device_tree.nodes f).Perm
      ((s.registry.device_tree.nodes node).data ::
        (c.preorder.map fun a => (s.registry.device_tree.nodes a).data) ++
          dataOf s.registry.device_tree.nodes f') := by
    have hmapped := hremoved.perm.map fun a => (s.registry.device_tree.nodes a).data
    rwa [List.map_append, List.map_cons] at hmapped
  have hdistinct := hperm.nodup_iff.mp h.distinct
  obtain ⟨-, hkept, hapart⟩ := List.nodup_append.mp hdistinct
  have hnodup := hremoved.perm.nodup_iff.mp h.tree.nodup
  refine ⟨tree, f', hremove, hremoved.tree, fun d hd => ?_, fun a ha => ?_, ?_⟩
  · simp only [RegistryRun.taken, if_true] at hd ⊢
    rw [hmap] at hd
    have hne : d ≠ (s.registry.device_tree.nodes node).data := fun he =>
      hapart _ List.mem_cons_self d hd he.symm
    exact (List.mem_erase_of_ne hne).mpr
      (h.devices d (hperm.symm.subset (List.mem_append_right _ hd)))
  · have hne : a ≠ node := fun he =>
      (List.nodup_append.mp hnodup).2.2 node List.mem_cons_self a ha he.symm
    exact (List.mem_erase_of_ne hne).mpr
      (h.blocks a (hremoved.perm.symm.subset (List.mem_append_right _ ha)))
  · simp only [RegistryRun.taken]
    rw [hmap]
    exact hkept

/-- Every step keeps a tree, also one that takes a device with others under it. -/
theorem registry_step_holdsSome (h : HoldsSome s f) {call : RegistryCall}
    (hstep : registry_step s call = some t) : ∃ f', HoldsSome t f' := by
  have hlegal := legal_of_step hstep
  cases call with
  | register device node =>
    have hcan : s.CanRegister device node := hlegal
    rw [registry_step, if_pos hcan, device_register] at hstep
    rcases h.tree.cases with ⟨hroot, rfl⟩ | ⟨c, hf, -, -⟩
    · -- without a root the node is left alone
      rw [hroot, generic_tree_insert, if_pos (Or.inl rfl)] at hstep
      cases hstep
      refine ⟨.nil, init_treeIs _, ?_, ?_, List.nodup_nil⟩
      · intro d hd
        cases hd
      · intro a ha
        cases ha
    · have hroot : s.registry.device_tree.root ∈ f.preorder := by
        rw [hf]
        exact List.mem_cons_self
      obtain ⟨nodes', f', hrun, his⟩ := h.insert hcan hroot
      simp only [hrun, Option.map_some] at hstep
      cases hstep
      exact ⟨f', his⟩
  | register_at device parent node =>
    have hcan : s.CanRegister device node := hlegal
    obtain ⟨parent_node, hfind, hcase⟩ := h.held.find parent
    have hfind : generic_tree_find s.registry.device_tree parent device_register_compare =
        some parent_node := hfind
    rw [registry_step, if_pos hcan, device_register_at, hfind, Option.bind_some] at hstep
    rcases hcase with hnull | ⟨hmem, hne, -⟩
    · rw [if_pos hnull] at hstep
      cases hstep
      exact ⟨f, h⟩
    · obtain ⟨nodes', f', hrun, his⟩ := h.insert hcan hmem
      rw [if_neg hne] at hstep
      simp only [hrun, Option.map_some] at hstep
      cases hstep
      exact ⟨f', his⟩
  | unregister device =>
    obtain ⟨device_node, hfind, hcase⟩ := h.held.find device
    have hfind : generic_tree_find s.registry.device_tree device device_register_compare =
        some device_node := hfind
    rw [registry_step, device_unregister, hfind, Option.bind_some] at hstep
    rcases hcase with hnull | ⟨hmem, hne, hdata⟩
    · rw [if_pos hnull] at hstep
      cases hstep
      exact ⟨f, h⟩
    · obtain ⟨tree, f', hremove, his⟩ := h.remove hmem
      rw [if_neg hne, hremove] at hstep
      cases hstep
      have hdata : (s.registry.device_tree.nodes device_node).data = device := hdata
      rw [hdata] at his
      exact ⟨f', his⟩

/-- No device is at `NULL`. -/
theorem registered_ne_null {call : RegistryCall} (h : ∀ d ∈ s.registered, d ≠ NULL)
    (hstep : registry_step s call = some t) : ∀ d ∈ t.registered, d ≠ NULL := by
  have hlegal := legal_of_step hstep
  have hadded : ∀ device node r, s.CanRegister device node →
      ∀ d ∈ (s.added device r).registered, d ≠ NULL := by
    intro device node r hcan d hd
    simp only [RegistryRun.added] at hd
    split at hd
    · rcases List.mem_cons.mp hd with rfl | hd
      · exact hcan.1
      · exact h d hd
    · exact h d hd
  cases call with
  | register device node =>
    have hcan : s.CanRegister device node := hlegal
    rw [registry_step, if_pos hcan, Option.map_eq_some_iff] at hstep
    obtain ⟨r, -, rfl⟩ := hstep
    exact hadded device node r hcan
  | register_at device parent node =>
    have hcan : s.CanRegister device node := hlegal
    rw [registry_step, if_pos hcan, Option.map_eq_some_iff] at hstep
    obtain ⟨r, -, rfl⟩ := hstep
    exact hadded device node r hcan
  | unregister device =>
    rw [registry_step, Option.map_eq_some_iff] at hstep
    obtain ⟨r, -, rfl⟩ := hstep
    intro d hd
    simp only [RegistryRun.taken] at hd
    split at hd
    · exact h d (List.mem_of_mem_erase hd)
    · exact h d hd

/-- A registration leaves the root. -/
theorem register_root {call : RegistryCall} (hcall : ∀ device, call ≠ .unregister device)
    (hstep : registry_step s call = some t) :
    t.registry.device_tree.root = s.registry.device_tree.root := by
  have hlegal := legal_of_step hstep
  cases call with
  | register device node =>
    have hcan : s.CanRegister device node := hlegal
    rw [registry_step, if_pos hcan, Option.map_eq_some_iff] at hstep
    obtain ⟨r, hr, rfl⟩ := hstep
    rw [device_register, Option.map_eq_some_iff] at hr
    obtain ⟨nodes, -, rfl⟩ := hr
    rfl
  | register_at device parent node =>
    have hcan : s.CanRegister device node := hlegal
    rw [registry_step, if_pos hcan, Option.map_eq_some_iff] at hstep
    obtain ⟨r, hr, rfl⟩ := hstep
    rw [device_register_at, Option.bind_eq_some_iff] at hr
    obtain ⟨parent_node, -, hr⟩ := hr
    by_cases hnull : parent_node = NULL
    · rw [if_pos hnull] at hr
      cases hr
      rfl
    · rw [if_neg hnull, Option.map_eq_some_iff] at hr
      obtain ⟨nodes, -, rfl⟩ := hr
      rfl
  | unregister device => exact absurd rfl (hcall device)

end

/-- Registrations alone lose no device. -/
theorem registrations_keep_all (nodes : Nat → generic_tree_node) {root_device root_node : Nat}
    (hnode : root_node ≠ NULL) (hlt : root_node < 4294967296) {calls : List RegistryCall}
    {s : RegistryRun} (hcalls : ∀ call ∈ calls, ∀ device, call ≠ .unregister device)
    (hrun : run registry_step (registry_start nodes root_device root_node) calls = some s) :
    ∃ f, RegistryIs s f := by
  have hinv : s.registry.device_tree.root ≠ NULL ∧ ∃ f, RegistryIs s f := by
    have halong := @along_of_forall _ _ registry_step
      (fun call => ∀ device, call ≠ .unregister device)
      (registry_start nodes root_device root_node) calls hcalls
    refine run_keeps_along
      (motive := fun s => s.registry.device_tree.root ≠ NULL ∧ ∃ f, RegistryIs s f) ?_
      ⟨hnode, _, start_is nodes hnode hlt⟩ halong hrun
    rintro s call t ⟨hroot, f, his⟩ hcall hstep
    refine ⟨(register_root hcall hstep).symm ▸ hroot, ?_⟩
    have hkeep : KeepsDevices s call := by
      cases call with
      | register device node => exact hroot
      | register_at device parent node => trivial
      | unregister device => exact absurd rfl (hcall device)
    obtain ⟨u, f', hu, his'⟩ := registry_step_is his call hkeep (legal_of_step hstep)
    rw [hstep, Option.some.injEq] at hu
    subst hu
    exact ⟨f', his'⟩
  exact hinv.2

/-- The two lookups on the tree with the devices `ds`: the list of the devices of the type in
order, and the first of them. For want of a block of 12 bytes there is no list. -/
def LookupsAgree (devices : Nat → device) (s : Registry) (type : UInt16) (k : Kheap)
    (ds : List Nat) : Prop :=
  (∃ k', in_memory.device_find_all_by_type devices s type k =
      .kpanic KPANIC_OUT_OF_MEMORY "Memory allocation failed." k' ∧
    in_memory.NoRoomForNode k') ∨
  ∃ list k' l, in_memory.device_find_all_by_type devices s type k = .done list k' ∧
    in_memory.ListAt k'.mem list l ∧
    l.map (in_memory.node_data k'.mem) = (ds.filter fun d => (devices d).type = type) ∧
    (device_find_by_type devices s type = some NULL ↔ l = []) ∧
    (l ≠ [] → device_find_by_type devices s type =
      some (in_memory.node_data k'.mem (in_memory.list_head k'.mem list)))

theorem lookups_agree {s : Registry} {f : Forest Nat} (h : TreeIs s.device_tree f)
    {k : Kheap} {live pinned : List Nat} (hheap : ClientHeap k live pinned)
    (haddress : ∀ d ∈ dataOf s.device_tree.nodes f, d ≠ NULL ∧ d < 4294967296)
    (devices : Nat → device) (type : UInt16) :
    LookupsAgree devices s type k (dataOf s.device_tree.nodes f) := by
  have hfirst := find_by_type_eq devices h type
  rw [← List.head?_filter] at hfirst
  rcases in_memory.find_all_by_type_spec h hheap (fun d hd => (haddress d hd).2) devices type with
    hpanic | ⟨list, k', l, hdone, hlist, hmap⟩
  · exact Or.inl hpanic
  · refine Or.inr ⟨list, k', l, hdone, hlist, hmap, ?_, ?_⟩
    all_goals rw [hfirst, ← hmap]
    · cases l with
      | nil => simp
      | cons a l =>
        have hmem : in_memory.node_data k'.mem a ∈
            (dataOf s.device_tree.nodes f).filter fun d => (devices d).type = type := by
          rw [← hmap]
          exact List.mem_cons_self
        have hne := (haddress _ (List.mem_filter.mp hmem).1).1
        simp [hne]
    · intro hl
      obtain ⟨a, l, rfl⟩ := List.exists_cons_of_ne_nil hl
      have hhead : in_memory.list_head k'.mem list = a := hlist.isList.head
      rw [hhead]
      rfl

/-- After every run of registrations, and also of removals, the lookup of one device and the list
of all agree on every type. While nothing is unregistered the tree holds all devices that are
registered. -/
theorem the_first_of_all_devices_of_a_type_is_the_one_that_is_found
    (nodes : Nat → generic_tree_node) {root_device root_node : Nat} (hnode : root_node ≠ NULL)
    (hlt : root_node < 4294967296) (hroot : root_device ≠ NULL) {calls : List RegistryCall}
    {s : RegistryRun}
    (hrun : run registry_step (registry_start nodes root_device root_node) calls = some s)
    (haddress : ∀ d ∈ s.registered, d < 4294967296) {k : Kheap} {live pinned : List Nat}
    (hheap : ClientHeap k live pinned) (devices : Nat → device) (type : UInt16) :
    ∃ f, TreeIs s.registry.device_tree f ∧
      (dataOf s.registry.device_tree.nodes f).Nodup ∧
      ((∀ call ∈ calls, ∀ device, call ≠ .unregister device) →
        ∀ d, d ∈ dataOf s.registry.device_tree.nodes f ↔ d ∈ s.registered) ∧
      LookupsAgree devices s.registry type k (dataOf s.registry.device_tree.nodes f) := by
  have hne : ∀ d ∈ s.registered, d ≠ NULL := by
    refine run_keeps (motive := fun s => ∀ d ∈ s.registered, d ≠ NULL)
      (fun s call t h hstep => registered_ne_null h hstep) (fun d hd => ?_) hrun
    rw [List.mem_singleton.mp hd]
    exact hroot
  have hsome : ∃ f, HoldsSome s f ∧
      ((∀ call ∈ calls, ∀ device, call ≠ .unregister device) →
        ∀ d, d ∈ dataOf s.registry.device_tree.nodes f ↔ d ∈ s.registered) := by
    by_cases hcalls : ∀ call ∈ calls, ∀ device, call ≠ .unregister device
    · obtain ⟨f, his⟩ := registrations_keep_all nodes hnode hlt hcalls hrun
      exact ⟨f, his.holdsSome, fun _ d => his.devices.mem_iff⟩
    · obtain ⟨f, his⟩ : ∃ f, HoldsSome s f :=
        run_keeps (motive := fun s => ∃ f, HoldsSome s f)
          (fun s call t ⟨f, his⟩ hstep => registry_step_holdsSome his hstep)
          ⟨_, (start_is nodes hnode hlt).holdsSome⟩ hrun
      exact ⟨f, his, fun h => absurd h hcalls⟩
  obtain ⟨f, his, hall⟩ := hsome
  refine ⟨f, his.tree, his.distinct, hall, lookups_agree his.tree hheap (fun d hd => ?_) devices
    type⟩
  exact ⟨hne d (his.devices d hd), haddress d (his.devices d hd)⟩

/-- Two storage devices, one under the other, and a device of no type beside them. -/
def sampleRegistrations : List RegistryCall :=
  [.register 0x2000 0x20, .register_at 0x3000 0x2000 0x30, .register 0x4000 0x40]

theorem the_first_of_three_devices_is_found :
    ∃ s, run registry_step sampleStart sampleRegistrations = some s ∧
      ∃ f, TreeIs s.registry.device_tree f ∧
        (dataOf s.registry.device_tree.nodes f).Nodup ∧
        ((∀ call ∈ sampleRegistrations, ∀ device, call ≠ .unregister device) →
          ∀ d, d ∈ dataOf s.registry.device_tree.nodes f ↔ d ∈ s.registered) ∧
        LookupsAgree (fun d => ⟨if d = 0x4000 then 0 else 0x0200, 0⟩) s.registry 0 startHeap
          (dataOf s.registry.device_tree.nodes f) := by
  have hregistered : (run registry_step sampleStart sampleRegistrations).map
      RegistryRun.registered = some [0x4000, 0x3000, 0x2000, 0x1000] := by
    decide
  obtain ⟨s, hs, hlist⟩ := Option.map_eq_some_iff.mp hregistered
  refine ⟨s, hs, the_first_of_all_devices_of_a_type_is_the_one_that_is_found _ (by decide)
    (by decide) (by decide) hs ?_ startHeap_client _ 0⟩
  rw [hlist]
  decide

end sakana_os
