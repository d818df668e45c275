-- The device registry of `device.c`: a tree of devices, and the lists that the searches over
-- it report. A device that is unregistered takes its subtree along, and a device that is
-- registered without a root is lost.
import SakanaOS.GenericTree
import SakanaOS.Runs

open forests runs

namespace sakana_os

/-! ## The code -/

/-- What the searches read of a device. -/
structure device where
  type : UInt16
  bus_type : UInt8

/-- The device tree, with the blocks of its nodes that are allocated. -/
structure Registry where
  device_tree : TreeState
  blocks : List Nat

/-- The registry with the root device, whose node is at `root_node`. -/
def device_init (nodes : Nat → generic_tree_node) (root_device root_node : Nat) : Registry where
  device_tree := ⟨generic_tree_node_init nodes root_node root_device, root_node⟩
  blocks := [root_node]

def device_register_compare (node_data compare_data : Nat) : Bool := node_data == compare_data

/-- `device_register`, with the block that `kmalloc` returns for the node. -/
def device_register (s : Registry) (device node : Nat) : Option (Int × Registry) :=
  let parent_node := s.device_tree.root
  let nodes := generic_tree_node_init s.device_tree.nodes node device
  (generic_tree_insert nodes parent_node node).map fun nodes =>
    (0, ⟨⟨nodes, s.device_tree.root⟩, node :: s.blocks⟩)

def device_register_at (s : Registry) (device parent node : Nat) : Option (Int × Registry) :=
  (generic_tree_find s.device_tree parent device_register_compare).bind fun parent_node =>
    if parent_node = NULL then some (-1, s)
    else
      let nodes := generic_tree_node_init s.device_tree.nodes node device
      (generic_tree_insert nodes parent_node node).map fun nodes =>
        (0, ⟨⟨nodes, s.device_tree.root⟩, node :: s.blocks⟩)

def device_unregister (s : Registry) (device : Nat) : Option (Int × Registry) :=
  (generic_tree_find s.device_tree device device_register_compare).bind fun device_node =>
    if device_node = NULL then some (-1, s)
    else
      (generic_tree_remove s.device_tree device_node).map fun tree =>
        (0, ⟨tree, s.blocks.erase device_node⟩)

section

variable (devices : Nat → device)

/-- Where the argument of `device_find_by_type` stands: the stack is not at `NULL`. -/
def TYPE_ADDRESS : Nat := 1

/-- The comparison with the type that the pointer `compare_data` leads to. -/
def device_type_compare (type : UInt16) (node_data _compare_data : Nat) : Bool :=
  (devices node_data).type.toNat == type.toNat

/-- The first device of the type, or `NULL`. -/
def device_find_by_type (s : Registry) (type : UInt16) : Option Nat :=
  (generic_tree_find s.device_tree TYPE_ADDRESS (device_type_compare devices type)).map
    fun device_node => if device_node = NULL then NULL else (s.device_tree.nodes device_node).data

/-- The callback appends the device to the list when it has the type. -/
def device_find_all_by_type_callback (type : UInt16) (list : List Nat)
    (device_node : generic_tree_node) : List Nat :=
  if (devices device_node.data).type = type then list ++ [device_node.data] else list

def device_find_all_by_type (s : Registry) (type : UInt16) : Option (List Nat) :=
  generic_tree_callback_foreach s.device_tree (device_find_all_by_type_callback devices type) []

def device_find_all_by_bustype_callback (type : UInt8) (list : List Nat)
    (device_node : generic_tree_node) : List Nat :=
  if (devices device_node.data).bus_type = type then list ++ [device_node.data] else list

def device_find_all_by_bustype (s : Registry) (type : UInt8) : Option (List Nat) :=
  generic_tree_callback_foreach s.device_tree (device_find_all_by_bustype_callback devices type) []

end

/-! ## Runs -/

/-- A call, with the block that `kmalloc` returns when it allocates a node. -/
inductive RegistryCall where
  | register (device node : Nat)
  | register_at (device parent node : Nat)
  | unregister (device : Nat)

/-- The registry, with the devices whose registration returned 0 and that were not
unregistered with 0 since. -/
structure RegistryRun where
  registry : Registry
  registered : List Nat

/-- The device is not registered, and the block is one that `kmalloc` can return. -/
def RegistryRun.CanRegister (s : RegistryRun) (device node : Nat) : Prop :=
  device ≠ NULL ∧ device ∉ s.registered ∧ node ≠ NULL ∧ node < 4294967296 ∧
    node ∉ s.registry.blocks

instance (s : RegistryRun) (device node : Nat) : Decidable (s.CanRegister device node) :=
  inferInstanceAs (Decidable (_ ∧ _ ∧ _ ∧ _ ∧ _))

/-- Only devices that are not registered are registered. -/
def RegistryRun.Legal (s : RegistryRun) : RegistryCall → Prop
  | .register device node => s.CanRegister device node
  | .register_at device _ node => s.CanRegister device node
  | .unregister _ => True

/-- The run after a registration. -/
def RegistryRun.added (s : RegistryRun) (device : Nat) (r : Int × Registry) : RegistryRun where
  registry := r.2
  registered := if r.1 = 0 then device :: s.registered else s.registered

/-- The run after a device was unregistered. -/
def RegistryRun.taken (s : RegistryRun) (device : Nat) (r : Int × Registry) : RegistryRun where
  registry := r.2
  registered := if r.1 = 0 then s.registered.erase device else s.registered

/-- One legal call. -/
def registry_step (s : RegistryRun) : RegistryCall → Option RegistryRun
  | .register device node =>
    if s.CanRegister device node then
      (device_register s.registry device node).map (s.added device)
    else none
  | .register_at device parent node =>
    if s.CanRegister device node then
      (device_register_at s.registry device parent node).map (s.added device)
    else none
  | .unregister device => (device_unregister s.registry device).map (s.taken device)

/-- The run at the end of `device_init`. -/
def registry_start (nodes : Nat → generic_tree_node) (root_device root_node : Nat) :
    RegistryRun where
  registry := device_init nodes root_device root_node
  registered := [root_device]

/-- Each device is reported under its type, and under the type of its bus, once when it is
registered and else never. -/
def Faithful (devices : Nat → device) (s : RegistryRun) : Prop :=
  ∀ d, ∃ byType byBus,
    device_find_all_by_type devices s.registry (devices d).type = some byType ∧
    device_find_all_by_bustype devices s.registry (devices d).bus_type = some byBus ∧
    byType.count d = (if d ∈ s.registered then 1 else 0) ∧
    byBus.count d = if d ∈ s.registered then 1 else 0

/-- The call does not register a device in a tree without a root, and does not unregister one
that has devices under it. -/
def KeepsDevices (s : RegistryRun) : RegistryCall → Prop
  | .register _ _ => s.registry.device_tree.root ≠ NULL
  | .register_at _ _ _ => True
  | .unregister device => ∀ node ∈ s.registry.blocks,
    (s.registry.device_tree.nodes node).data = device →
      (s.registry.device_tree.nodes node).child = NULL

instance (s : RegistryRun) (call : RegistryCall) : Decidable (KeepsDevices s call) :=
  match call with
  | .register _ _ => inferInstanceAs (Decidable (_ ≠ _))
  | .register_at _ _ _ => inferInstanceAs (Decidable True)
  | .unregister _ => inferInstanceAs (Decidable (∀ node ∈ _, _ → _))

/-! ## What the tree holds -/

/-- The devices of the nodes, in preorder. -/
def dataOf (nodes : Nat → generic_tree_node) (f : Forest Nat) : List Nat :=
  f.preorder.map fun a => (nodes a).data

/-- The tree is the forest `f`, and its devices are those that are registered. -/
structure RegistryIs (s : RegistryRun) (f : Forest Nat) : Prop where
  tree : TreeIs s.registry.device_tree f
  devices : (dataOf s.registry.device_tree.nodes f).Perm s.registered
  blocks : ∀ a ∈ f.preorder, a ∈ s.registry.blocks
  distinct : s.registered.Nodup

/-- The lookup of one device finds the first one of the type in preorder. -/
theorem find_by_type_eq (devices : Nat → device) {s : Registry} {f : Forest Nat}
    (h : TreeIs s.device_tree f) (type : UInt16) :
    device_find_by_type devices s type = some (((dataOf s.device_tree.nodes f).find? fun d =>
      (devices d).type = type).getD NULL) := by
  have haddress : TYPE_ADDRESS ≠ NULL := by decide
  have hcompare : ∀ d, device_type_compare devices type d TYPE_ADDRESS =
      decide ((devices d).type = type) := by
    intro d
    unfold device_type_compare
    rw [beq_eq_decide]
    simp only [UInt16.toNat_inj]
  unfold device_find_by_type dataOf
  rw [h.find haddress, List.find?_map, Option.map_some]
  simp only [Function.comp_def, hcompare]
  cases hfind : f.preorder.find? fun a =>
      decide ((devices (s.device_tree.nodes a).data).type = type) with
  | none => simp
  | some a =>
    have ha := (h.address a (List.mem_of_find?_eq_some hfind)).1
    simp [ha]

/-- A search over the tree reports the devices that meet the test, in preorder. -/
theorem foldl_report (ok : Nat → Prop) [DecidablePred ok] (nodes : Nat → generic_tree_node)
    (l acc : List Nat) :
    l.foldl (fun u a => if ok (nodes a).data then u ++ [(nodes a).data] else u) acc =
      acc ++ (l.map fun a => (nodes a).data).filter ok := by
  induction l generalizing acc with
  | nil => simp
  | cons a l ih =>
    rw [List.foldl_cons, ih, List.map_cons, List.filter_cons]
    by_cases hok : ok (nodes a).data
    · simp [hok]
    · simp [hok]

theorem RegistryIs.count {s : RegistryRun} {f : Forest Nat} (h : RegistryIs s f) (ok : Nat → Prop)
    [DecidablePred ok] {d : Nat} (hd : ok d) :
    ((dataOf s.registry.device_tree.nodes f).filter ok).count d =
      if d ∈ s.registered then 1 else 0 := by
  rw [List.count_filter (by simpa using hd), h.devices.count_eq]
  split
  · rename_i hmem
    exact List.count_eq_one_of_mem h.distinct hmem
  · rename_i hmem
    exact List.count_eq_zero_of_not_mem hmem

/-- The searches report what the tree holds. -/
theorem RegistryIs.faithful {s : RegistryRun} {f : Forest Nat} (h : RegistryIs s f)
    (devices : Nat → device) : Faithful devices s := by
  intro d
  have hreport := fun (ok : Nat → Prop) (hok : DecidablePred ok) =>
    foldl_report ok s.registry.device_tree.nodes f.preorder []
  refine ⟨_, _, ?_, ?_, h.count (fun e => (devices e).type = (devices d).type) rfl,
    h.count (fun e => (devices e).bus_type = (devices d).bus_type) rfl⟩
  · unfold device_find_all_by_type
    rw [h.tree.foreach]
    exact congrArg some (hreport (fun e => (devices e).type = (devices d).type) _)
  · unfold device_find_all_by_bustype
    rw [h.tree.foreach]
    exact congrArg some (hreport (fun e => (devices e).bus_type = (devices d).bus_type) _)

/-! ## The calls -/

/-- The search for the node of a device. -/
theorem RegistryIs.find {s : RegistryRun} {f : Forest Nat} (h : RegistryIs s f) (device : Nat) :
    ∃ node, generic_tree_find s.registry.device_tree device device_register_compare = some node ∧
      (node = NULL ∨ node ∈ f.preorder ∧ node ≠ NULL ∧
        (s.registry.device_tree.nodes node).data = device) := by
  by_cases hnull : device = NULL
  · rw [hnull]
    exact ⟨NULL, find_null _ _, Or.inl rfl⟩
  · rw [h.tree.find hnull]
    cases hfind : f.preorder.find? fun a =>
        device_register_compare (s.registry.device_tree.nodes a).data device with
    | none => exact ⟨NULL, rfl, Or.inl rfl⟩
    | some node =>
      have hmem := List.mem_of_find?_eq_some hfind
      have hdata := List.find?_some hfind
      exact ⟨node, rfl, Or.inr ⟨hmem, (h.tree.address node hmem).1, beq_iff_eq.mp hdata⟩⟩

/-- A node that is made for a device and inserted under a node of the tree. -/
theorem RegistryIs.insert {s : RegistryRun} {f : Forest Nat} (h : RegistryIs s f)
    {device node parent : Nat} (hcan : s.CanRegister device node) (hp : parent ∈ f.preorder) :
    ∃ nodes' f', generic_tree_insert
        (generic_tree_node_init s.registry.device_tree.nodes node device) parent node =
        some nodes' ∧
      RegistryIs (s.added device (0, ⟨⟨nodes', s.registry.device_tree.root⟩,
        node :: s.registry.blocks⟩)) f' := by
  obtain ⟨-, hnew, hnull, hlt, hfresh⟩ := hcan
  have hnode : node ∉ f.preorder := fun hm => hfresh (h.blocks node hm)
  obtain ⟨cp, hunder⟩ := Forest.under_of_mem hp
  obtain ⟨nodes', hrun, htree', hnewdata, hold⟩ := insert_leaf h.tree hp hnode hnull hlt
  have hperm := preorder_insert hunder h.tree.nodup (.node node .nil .nil)
  refine ⟨nodes', _, hrun, htree', ?_, ?_, ?_⟩
  · have hmap : f.preorder.map (fun a => (nodes' a).data) =
        dataOf s.registry.device_tree.nodes f :=
      List.map_congr_left fun a ha => hold a fun he => hnode (he ▸ ha)
    simp only [RegistryRun.added, if_true]
    refine (hperm.map _).trans ?_
    rw [List.map_append, hmap]
    simp only [Forest.preorder, List.append_nil, List.map_cons, List.map_nil, hnewdata]
    exact List.perm_append_comm.trans (h.devices.cons device)
  · intro a ha
    have hmem := hperm.subset ha
    simp only [Forest.preorder, List.append_nil, List.mem_append, List.mem_singleton] at hmem
    rcases hmem with hmem | rfl
    · exact List.mem_cons_of_mem _ (h.blocks a hmem)
    · exact List.mem_cons_self
  · simp only [RegistryRun.added, if_true]
    exact List.nodup_cons.mpr ⟨hnew, h.distinct⟩

/-- What a call can do in a tree that it keeps. -/
theorem registry_step_is {s : RegistryRun} {f : Forest Nat} (h : RegistryIs s f)
    (call : RegistryCall) (hkeep : KeepsDevices s call)
    (hcan : s.Legal call) :
    ∃ t f', registry_step s call = some t ∧ RegistryIs t f' := by
  cases call with
  | register device node =>
    obtain ⟨c, hf⟩ : ∃ c, f = .node s.registry.device_tree.root c .nil := by
      rcases h.tree.cases with ⟨hroot, -⟩ | ⟨c, hf, -, -⟩
      · exact absurd hroot hkeep
      · exact ⟨c, hf⟩
    have hroot : s.registry.device_tree.root ∈ f.preorder := by
      rw [hf]
      exact List.mem_cons_self
    obtain ⟨nodes', f', hrun, his⟩ := h.insert hcan hroot
    refine ⟨_, f', ?_, his⟩
    have hcan : s.CanRegister device node := hcan
    rw [registry_step, if_pos hcan, device_register]
    simp only [hrun, Option.map_some]
  | register_at device parent node =>
    obtain ⟨parent_node, hfind, hcase⟩ := h.find parent
    have hcan : s.CanRegister device node := hcan
    rw [registry_step, if_pos hcan, device_register_at, hfind, Option.bind_some]
    rcases hcase with hnull | ⟨hmem, hne, -⟩
    · rw [if_pos hnull]
      exact ⟨s, f, rfl, h⟩
    · obtain ⟨nodes', f', hrun, his⟩ := h.insert hcan hmem
      refine ⟨_, f', ?_, his⟩
      rw [if_neg hne]
      simp only [hrun, Option.map_some]
  | unregister device =>
    obtain ⟨device_node, hfind, hcase⟩ := h.find device
    rw [registry_step, device_unregister, hfind, Option.bind_some]
    rcases hcase with hnull | ⟨hmem, hne, hdata⟩
    · rw [if_pos hnull]
      exact ⟨s, f, rfl, h⟩
    · rw [if_neg hne]
      obtain ⟨tree, f', c, hremove, hremoved⟩ := remove_treeIs h.tree hmem
      have htree := hremoved.tree
      have hunder := hremoved.under
      have hperm := hremoved.perm
      have hsame := hremoved.data
      have hleaf : c = .nil := by
        have hchild := hkeep device_node (h.blocks device_node hmem) hdata
        have hfirst : (s.registry.device_tree.nodes device_node).child = c.first NULL :=
          (h.tree.formed.under hunder).1
        cases c with
        | nil => rfl
        | node a ca sa =>
          have ha := (h.tree.address a (hunder.mem.2 a List.mem_cons_self)).1
          exact absurd (hfirst.symm.trans hchild) ha
      subst hleaf
      rw [Forest.preorder, List.singleton_append] at hperm
      rw [hremove]
      refine ⟨_, f', rfl, htree, ?_, ?_, ?_⟩
      · have hmap : dataOf tree.nodes f' = dataOf s.registry.device_tree.nodes f' :=
          List.map_congr_left fun a _ => hsame a
        have hdevices := (hperm.map fun a => (s.registry.device_tree.nodes a).data).symm.trans
          h.devices
        rw [List.map_cons, hdata] at hdevices
        have herase := hdevices.erase device
        rw [List.erase_cons_head] at herase
        simp only [RegistryRun.taken, if_true, hmap]
        exact herase
      · intro a ha
        have hnodup := hperm.nodup_iff.mp h.tree.nodup
        have hne : a ≠ device_node := fun he => (List.nodup_cons.mp hnodup).1 (he ▸ ha)
        exact (List.mem_erase_of_ne hne).mpr
          (h.blocks a (hperm.symm.subset (List.mem_cons_of_mem _ ha)))
      · simp only [RegistryRun.taken, if_true]
        exact h.distinct.erase _

/-! ## Every run -/

theorem start_is (nodes : Nat → generic_tree_node) {root_device root_node : Nat}
    (hnode : root_node ≠ NULL) (hlt : root_node < 4294967296) :
    RegistryIs (registry_start nodes root_device root_node)
      (.node root_node .nil .nil) := by
  have hself : generic_tree_node_init nodes root_node root_device root_node =
      ⟨NULL, NULL, NULL, root_device⟩ := by
    rw [generic_tree_node_init, if_neg hnode, Function.update_self]
  refine ⟨node_treeIs nodes root_device hnode hlt, ?_, ?_, ?_⟩
  all_goals simp [registry_start, device_init, hself, Forest.preorder, dataOf]

/-- A call that was made was legal. -/
theorem legal_of_step {s t : RegistryRun} {call : RegistryCall}
    (h : registry_step s call = some t) : s.Legal call := by
  cases call with
  | register device node =>
    by_contra hno
    have hcan : ¬ s.CanRegister device node := hno
    rw [registry_step, if_neg hcan] at h
    cases h
  | register_at device parent node =>
    by_contra hno
    have hcan : ¬ s.CanRegister device node := hno
    rw [registry_step, if_neg hcan] at h
    cases h
  | unregister device => trivial

/-- In every run in which no device is registered without a root and no device with others
under it is unregistered, the searches report exactly the devices that are registered, and
each such call returns. -/
theorem the_registry_is_faithful_when_leaves_are_taken {nodes : Nat → generic_tree_node}
    {root_device root_node : Nat} (hnode : root_node ≠ NULL) (hlt : root_node < 4294967296)
    (devices : Nat → device) {calls : List RegistryCall} {s : RegistryRun}
    (hkeep : Along registry_step KeepsDevices (registry_start nodes root_device root_node) calls)
    (hrun : run registry_step (registry_start nodes root_device root_node) calls = some s) :
    Faithful devices s ∧
      ∀ call, KeepsDevices s call → s.Legal call → ∃ t, registry_step s call = some t := by
  have hinv : ∃ f, RegistryIs s f := by
    refine run_keeps_along (motive := fun s => ∃ f, RegistryIs s f) ?_
      ⟨_, start_is nodes hnode hlt⟩ hkeep hrun
    rintro s call t ⟨f, his⟩ hkeep hstep
    obtain ⟨u, f', hu, his'⟩ := registry_step_is his call hkeep (legal_of_step hstep)
    rw [hstep, Option.some.injEq] at hu
    subst hu
    exact ⟨f', his'⟩
  obtain ⟨f, his⟩ := hinv
  refine ⟨his.faithful devices, fun call hkeep hlegal => ?_⟩
  obtain ⟨t, -, hstep, -⟩ := registry_step_is his call hkeep hlegal
  exact ⟨t, hstep⟩

/-- A memory without nodes, and a registry in it. -/
def sampleStart : RegistryRun := registry_start (fun _ => ⟨NULL, NULL, NULL, NULL⟩) 0x1000 0x10

theorem the_registry_is_faithful_after_a_leaf_was_taken :
    ∃ s, run registry_step sampleStart [.register 0x2000 0x20, .unregister 0x2000] = some s ∧
      Faithful (fun _ => ⟨0x0200, 0x02⟩) s := by
  have hsecond : ∀ t ∈ registry_step sampleStart (.register 0x2000 0x20),
      KeepsDevices t (.unregister 0x2000) := by
    decide
  have hkeep : Along registry_step KeepsDevices sampleStart
      [.register 0x2000 0x20, .unregister 0x2000] :=
    ⟨by decide, fun t ht => ⟨hsecond t ht, fun _ _ => trivial⟩⟩
  obtain ⟨s, hs⟩ := Option.isSome_iff_exists.mp (by decide :
    (run registry_step sampleStart [.register 0x2000 0x20, .unregister 0x2000]).isSome = true)
  exact ⟨s, hs,
    (the_registry_is_faithful_when_leaves_are_taken (by decide) (by decide) _ hkeep hs).1⟩

/-- A registered device that no search reports. -/
theorem unfaithful {devices : Nat → device} {s : RegistryRun} {d : Nat} {l : List Nat}
    (hd : d ∈ s.registered)
    (hl : device_find_all_by_type devices s.registry (devices d).type = some l) (hdl : d ∉ l) :
    ¬ Faithful devices s := by
  intro h
  obtain ⟨byType, -, htype, -, hcount, -⟩ := h d
  rw [hl, Option.some.injEq] at htype
  rw [← htype, List.count_eq_zero_of_not_mem hdl, if_pos hd] at hcount
  cases hcount

/-- The registered devices after a run, and those that are reported as storage. -/
def outcome (calls : List RegistryCall) : Option (List Nat × Option (List Nat)) :=
  (run registry_step sampleStart calls).map fun t =>
    (t.registered, device_find_all_by_type (fun _ => ⟨0x0200, 0x02⟩) t.registry 0x0200)

theorem missing_of_outcome {calls : List RegistryCall} {registered l : List Nat} {d : Nat}
    (h : outcome calls = some (registered, some l)) (hd : d ∈ registered) (hdl : d ∉ l) :
    ∃ t, run registry_step sampleStart calls = some t ∧ d ∈ t.registered ∧
      ¬ Faithful (fun _ => ⟨0x0200, 0x02⟩) t := by
  obtain ⟨t, hrun, hpair⟩ := Option.map_eq_some_iff.mp h
  rw [Prod.mk.injEq] at hpair
  rw [← hpair.1] at hd
  exact ⟨t, hrun, hd, unfaithful hd hpair.2 hdl⟩

/-- A device goes when the one above it is unregistered, and one that is registered in a tree
without a root never comes, although the registration returns 0. -/
theorem registered_devices_can_be_missing :
    (∃ t, run registry_step sampleStart
        [.register 0x2000 0x20, .register_at 0x3000 0x2000 0x30, .unregister 0x2000] = some t ∧
      0x3000 ∈ t.registered ∧ ¬ Faithful (fun _ => ⟨0x0200, 0x02⟩) t) ∧
    ∃ t, run registry_step sampleStart [.unregister 0x1000, .register 0x2000 0x20] = some t ∧
      0x2000 ∈ t.registered ∧ ¬ Faithful (fun _ => ⟨0x0200, 0x02⟩) t := by
  have hparent : outcome
      [.register 0x2000 0x20, .register_at 0x3000 0x2000 0x30, .unregister 0x2000] =
      some ([0x3000, 0x1000], some [0x1000]) := by
    decide
  have hroot : outcome [.unregister 0x1000, .register 0x2000 0x20] = some ([0x2000], some []) := by
    decide
  exact ⟨missing_of_outcome hparent (by decide) (by decide),
    missing_of_outcome hroot (by decide) (by decide)⟩

end sakana_os
