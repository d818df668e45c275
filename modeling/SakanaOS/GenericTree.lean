-- The tree of `generic_tree.c`: nodes at addresses, with links to the parent, to the first
-- child and to the next sibling.
import SakanaOS.Forests
import SakanaOS.LinkedList

open forests

namespace sakana_os

/-! ## The code -/

structure generic_tree_node where
  parent : Nat
  slide : Nat
  child : Nat
  data : Nat

/-- A tree with the nodes of the memory, each at its address. -/
structure TreeState where
  nodes : Nat → generic_tree_node
  root : Nat

def set_parent (nodes : Nat → generic_tree_node) (node v : Nat) : Nat → generic_tree_node :=
  Function.update nodes node { nodes node with parent := v }

def set_slide (nodes : Nat → generic_tree_node) (node v : Nat) : Nat → generic_tree_node :=
  Function.update nodes node { nodes node with slide := v }

def set_child (nodes : Nat → generic_tree_node) (node v : Nat) : Nat → generic_tree_node :=
  Function.update nodes node { nodes node with child := v }

def generic_tree_init (nodes : Nat → generic_tree_node) : TreeState := ⟨nodes, NULL⟩

def generic_tree_node_init (nodes : Nat → generic_tree_node) (node data : Nat) :
    Nat → generic_tree_node :=
  if node = NULL then nodes else Function.update nodes node ⟨NULL, NULL, NULL, data⟩

/-- The walk to the last sibling. `none` for a walk that does not end within the number of
addresses. -/
def last_slide (nodes : Nat → generic_tree_node) : Nat → Nat → Option Nat
  | 0, _ => none
  | fuel + 1, last =>
    if (nodes last).slide = NULL then some last else last_slide nodes fuel (nodes last).slide

def generic_tree_insert (nodes : Nat → generic_tree_node) (parent node : Nat) :
    Option (Nat → generic_tree_node) :=
  if parent = NULL ∨ node = NULL then some nodes
  else if (nodes parent).child = NULL then
    some (set_parent (set_child nodes parent node) node parent)
  else
    (last_slide nodes 4294967296 (nodes parent).child).map fun last =>
      set_parent (set_slide nodes last node) node parent

/-- The walk to the sibling before `node`. `none` also for one that reads through `NULL`. -/
def prev_slide (nodes : Nat → generic_tree_node) (node : Nat) : Nat → Nat → Option Nat
  | 0, _ => none
  | fuel + 1, prev =>
    if prev = NULL then none
    else if (nodes prev).slide = node then some prev
    else prev_slide nodes node fuel (nodes prev).slide

/-- The links around `node`, before its own are cleared. -/
def generic_tree_unlink (nodes : Nat → generic_tree_node) (node : Nat) :
    Option (Nat → generic_tree_node) :=
  let parent := (nodes node).parent
  if parent ≠ NULL then
    let prev := (nodes parent).child
    let next := (nodes node).slide
    if prev = node then some (set_child nodes parent next)
    else (prev_slide nodes node 4294967296 prev).map fun prev => set_slide nodes prev next
  else some nodes

def generic_tree_remove (tree : TreeState) (node : Nat) : Option TreeState :=
  if node = NULL then some tree
  else
    (generic_tree_unlink tree.nodes node).map fun nodes =>
      ⟨set_slide (set_parent nodes node NULL) node NULL,
        if tree.root = node then NULL else tree.root⟩

section

variable (nodes : Nat → generic_tree_node)

mutual

/-- The recursion of `generic_tree_find`, and below it the loop over the children. `none` for
a walk that does not end within twice the number of addresses. -/
def find_recursive (data : Nat) (comp : Nat → Nat → Bool) : Nat → Nat → Option Nat
  | 0, _ => none
  | fuel + 1, node =>
    if node = NULL ∨ data = NULL then some NULL
    else if comp (nodes node).data data then some node
    else find_children data comp fuel (nodes node).child

def find_children (data : Nat) (comp : Nat → Nat → Bool) : Nat → Nat → Option Nat
  | 0, _ => none
  | fuel + 1, curr =>
    if curr = NULL then some NULL
    else
      (find_recursive data comp fuel curr).bind fun result =>
        if result ≠ NULL then some result else find_children data comp fuel (nodes curr).slide

end

mutual

/-- The recursion of `generic_tree_callback_foreach`, and the loop over the children. -/
def foreach_recursive {σ : Type} (callback : σ → generic_tree_node → σ) : Nat → Nat → σ → Option σ
  | 0, _, _ => none
  | fuel + 1, node, userdata =>
    if node = NULL then some userdata
    else foreach_children callback fuel (nodes node).child (callback userdata (nodes node))

def foreach_children {σ : Type} (callback : σ → generic_tree_node → σ) : Nat → Nat → σ → Option σ
  | 0, _, _ => none
  | fuel + 1, curr, userdata =>
    if curr = NULL then some userdata
    else
      (foreach_recursive callback fuel curr userdata).bind fun userdata =>
        foreach_children callback fuel (nodes curr).slide userdata

end

end

def generic_tree_find (tree : TreeState) (data : Nat) (comp : Nat → Nat → Bool) : Option Nat :=
  if tree.root ≠ NULL then find_recursive tree.nodes data comp 8589934592 tree.root else some NULL

def generic_tree_callback_foreach {σ : Type} (tree : TreeState)
    (callback : σ → generic_tree_node → σ) (userdata : σ) : Option σ :=
  foreach_recursive tree.nodes callback 8589934592 tree.root userdata

/-! ## The fields after a store -/

section fields

variable (nodes : Nat → generic_tree_node) (node v a : Nat)

@[simp] theorem set_parent_parent : (set_parent nodes node v a).parent =
    if a = node then v else (nodes a).parent := by
  unfold set_parent
  by_cases h : a = node
  · rw [if_pos h, h, Function.update_self]
  · rw [if_neg h, Function.update_of_ne h]

@[simp] theorem set_parent_slide : (set_parent nodes node v a).slide = (nodes a).slide := by
  unfold set_parent
  by_cases h : a = node
  · rw [h, Function.update_self]
  · rw [Function.update_of_ne h]

@[simp] theorem set_parent_child : (set_parent nodes node v a).child = (nodes a).child := by
  unfold set_parent
  by_cases h : a = node
  · rw [h, Function.update_self]
  · rw [Function.update_of_ne h]

@[simp] theorem set_parent_data : (set_parent nodes node v a).data = (nodes a).data := by
  unfold set_parent
  by_cases h : a = node
  · rw [h, Function.update_self]
  · rw [Function.update_of_ne h]

@[simp] theorem set_slide_parent : (set_slide nodes node v a).parent = (nodes a).parent := by
  unfold set_slide
  by_cases h : a = node
  · rw [h, Function.update_self]
  · rw [Function.update_of_ne h]

@[simp] theorem set_slide_slide : (set_slide nodes node v a).slide =
    if a = node then v else (nodes a).slide := by
  unfold set_slide
  by_cases h : a = node
  · rw [if_pos h, h, Function.update_self]
  · rw [if_neg h, Function.update_of_ne h]

@[simp] theorem set_slide_child : (set_slide nodes node v a).child = (nodes a).child := by
  unfold set_slide
  by_cases h : a = node
  · rw [h, Function.update_self]
  · rw [Function.update_of_ne h]

@[simp] theorem set_slide_data : (set_slide nodes node v a).data = (nodes a).data := by
  unfold set_slide
  by_cases h : a = node
  · rw [h, Function.update_self]
  · rw [Function.update_of_ne h]

@[simp] theorem set_child_parent : (set_child nodes node v a).parent = (nodes a).parent := by
  unfold set_child
  by_cases h : a = node
  · rw [h, Function.update_self]
  · rw [Function.update_of_ne h]

@[simp] theorem set_child_slide : (set_child nodes node v a).slide = (nodes a).slide := by
  unfold set_child
  by_cases h : a = node
  · rw [h, Function.update_self]
  · rw [Function.update_of_ne h]

@[simp] theorem set_child_child : (set_child nodes node v a).child =
    if a = node then v else (nodes a).child := by
  unfold set_child
  by_cases h : a = node
  · rw [if_pos h, h, Function.update_self]
  · rw [if_neg h, Function.update_of_ne h]

@[simp] theorem set_child_data : (set_child nodes node v a).data = (nodes a).data := by
  unfold set_child
  by_cases h : a = node
  · rw [h, Function.update_self]
  · rw [Function.update_of_ne h]

variable {node a}

theorem set_parent_ne (h : a ≠ node) : set_parent nodes node v a = nodes a :=
  Function.update_of_ne h _ _

theorem set_slide_ne (h : a ≠ node) : set_slide nodes node v a = nodes a :=
  Function.update_of_ne h _ _

theorem set_child_ne (h : a ≠ node) : set_child nodes node v a = nodes a :=
  Function.update_of_ne h _ _

variable {v}

theorem set_parent_same (h : (nodes node).parent = v) : set_parent nodes node v = nodes := by
  subst h
  exact Function.update_eq_self node nodes

theorem set_slide_same (h : (nodes node).slide = v) : set_slide nodes node v = nodes := by
  subst h
  exact Function.update_eq_self node nodes

end fields

/-! ## The walks -/

/-- The links of the nodes in memory. -/
def linksOf (nodes : Nat → generic_tree_node) : Links Nat where
  parent a := (nodes a).parent
  child a := (nodes a).child
  slide a := (nodes a).slide

section walks

variable {nodes : Nat → generic_tree_node} {p : Nat}

/-- The loop over siblings finds the first node of the forest that compares. -/
theorem find_children_spec (data : Nat) (hdata : data ≠ NULL) (comp : Nat → Nat → Bool)
    (f : Forest Nat) (h : Forest.Formed (linksOf nodes) NULL p f)
    (hne : ∀ a ∈ f.preorder, a ≠ NULL) (fuel : Nat) (hfuel : 2 * f.preorder.length < fuel) :
    find_children nodes data comp fuel (f.first NULL) =
      some ((f.preorder.find? fun a => comp (nodes a).data data).getD NULL) := by
  induction f generalizing p fuel with
  | nil =>
    obtain ⟨fuel, rfl⟩ := Nat.exists_eq_add_of_lt hfuel
    rfl
  | node a c s ihc ihs =>
    obtain ⟨-, h2, h3, h4, h5⟩ := h
    simp only [linksOf] at h2 h3
    have hlen : (Forest.node a c s).preorder.length =
        c.preorder.length + s.preorder.length + 1 := by
      simp [Forest.preorder]
    obtain ⟨fuel, rfl⟩ : ∃ k, fuel = k + 2 := ⟨fuel - 2, by omega⟩
    have ha : a ≠ NULL := hne a List.mem_cons_self
    have hc := ihc h4 (fun b hb => hne b (List.mem_cons_of_mem _ (List.mem_append_left _ hb)))
      fuel (by omega)
    have hs := ihs h5 (fun b hb => hne b (List.mem_cons_of_mem _ (List.mem_append_right _ hb)))
      (fuel + 1) (by omega)
    rw [Forest.first, find_children, if_neg ha, find_recursive, h2, h3, hc, hs,
      if_neg (not_or.mpr ⟨ha, hdata⟩), Forest.preorder, List.find?_cons, List.find?_append]
    cases hcomp : comp (nodes a).data data with
    | true => simp [ha]
    | false =>
      cases hfind : c.preorder.find? fun b => comp (nodes b).data data with
      | none => simp
      | some x =>
        have hx : x ≠ NULL := hne x
          (List.mem_cons_of_mem _ (List.mem_append_left _ (List.mem_of_find?_eq_some hfind)))
        simp [hx]

/-- The loop over siblings calls back for every node of the forest, in preorder. -/
theorem foreach_children_spec {σ : Type} (callback : σ → generic_tree_node → σ) (f : Forest Nat)
    (h : Forest.Formed (linksOf nodes) NULL p f) (hne : ∀ a ∈ f.preorder, a ≠ NULL) (fuel : Nat)
    (hfuel : 2 * f.preorder.length < fuel) (userdata : σ) :
    foreach_children nodes callback fuel (f.first NULL) userdata =
      some (f.preorder.foldl (fun u a => callback u (nodes a)) userdata) := by
  induction f generalizing p fuel userdata with
  | nil =>
    obtain ⟨fuel, rfl⟩ := Nat.exists_eq_add_of_lt hfuel
    rfl
  | node a c s ihc ihs =>
    obtain ⟨-, h2, h3, h4, h5⟩ := h
    simp only [linksOf] at h2 h3
    have hlen : (Forest.node a c s).preorder.length =
        c.preorder.length + s.preorder.length + 1 := by
      simp [Forest.preorder]
    obtain ⟨fuel, rfl⟩ : ∃ k, fuel = k + 2 := ⟨fuel - 2, by omega⟩
    have ha : a ≠ NULL := hne a List.mem_cons_self
    have hc := ihc h4 (fun b hb => hne b (List.mem_cons_of_mem _ (List.mem_append_left _ hb)))
      fuel (by omega) (callback userdata (nodes a))
    have hs := fun u => ihs h5
      (fun b hb => hne b (List.mem_cons_of_mem _ (List.mem_append_right _ hb)))
      (fuel + 1) (by omega) u
    rw [Forest.first, foreach_children, if_neg ha, foreach_recursive, if_neg ha, h2, h3, hc,
      Option.bind_some, hs, Forest.preorder, List.foldl_cons, List.foldl_append]

/-- The walk along the siblings ends at the last one. -/
theorem last_slide_spec (a : Nat) (c s : Forest Nat)
    (h : Forest.Formed (linksOf nodes) NULL p (.node a c s)) (hne : ∀ b ∈ s.tops, b ≠ NULL)
    (fuel : Nat) (hfuel : s.tops.length < fuel) :
    last_slide nodes fuel a = some (s.tops.getLastD a) := by
  induction s generalizing a c fuel with
  | nil =>
    obtain ⟨-, -, h3, -, -⟩ := h
    obtain ⟨fuel, rfl⟩ := Nat.exists_eq_add_of_lt hfuel
    exact if_pos h3
  | node b cb sb _ ih =>
    obtain ⟨-, -, h3, -, h5⟩ := h
    simp only [linksOf, Forest.first] at h3
    obtain ⟨fuel, rfl⟩ := Nat.exists_eq_succ_of_ne_zero (Nat.ne_of_gt (Nat.zero_lt_of_lt hfuel))
    have hb : b ≠ NULL := hne b List.mem_cons_self
    have hrest := ih b cb h5 (fun d hd => hne d (List.mem_cons_of_mem _ hd))
      fuel (Nat.lt_of_succ_lt_succ hfuel)
    rw [last_slide, h3, if_neg hb, Forest.tops, List.getLastD_cons]
    exact hrest

/-- The walk along the siblings ends before the one that it looks for. -/
theorem prev_slide_spec {l r : List Nat} {x y : Nat} (f : Forest Nat)
    (h : Forest.Formed (linksOf nodes) NULL p f) (hne : ∀ b ∈ f.tops, b ≠ NULL)
    (hnodup : f.tops.Nodup) (htops : f.tops = l ++ y :: x :: r) (fuel : Nat)
    (hfuel : l.length < fuel) : prev_slide nodes x fuel (f.first NULL) = some y := by
  induction f generalizing l fuel with
  | nil => simp [Forest.tops] at htops
  | node a c s _ ih =>
    obtain ⟨-, -, h3, -, h5⟩ := h
    simp only [linksOf] at h3
    obtain ⟨fuel, rfl⟩ := Nat.exists_eq_succ_of_ne_zero (Nat.ne_of_gt (Nat.zero_lt_of_lt hfuel))
    have ha : a ≠ NULL := hne a List.mem_cons_self
    have hfirst : ∀ b k, s.tops = b :: k → s.first NULL = b := by
      intro b k heq
      cases s with
      | nil => cases heq
      | node b' cb sb =>
        rw [Forest.tops, List.cons.injEq] at heq
        exact heq.1
    rw [Forest.first, prev_slide, if_neg ha, h3]
    cases l with
    | nil =>
      rw [Forest.tops, List.nil_append, List.cons.injEq] at htops
      rw [hfirst x r htops.2, if_pos rfl, htops.1]
    | cons b l =>
      rw [Forest.tops, List.cons_append, List.cons.injEq] at htops
      obtain ⟨rfl, hs⟩ := htops
      obtain ⟨-, hns⟩ := List.nodup_cons.mp hnodup
      have hnext : s.first NULL ≠ x := by
        cases l with
        | nil =>
          rw [hfirst y _ hs]
          rintro rfl
          rw [hs] at hns
          simp at hns
        | cons d l =>
          rw [hfirst d _ hs]
          rintro rfl
          rw [hs] at hns
          simp at hns
      rw [if_neg hnext]
      exact ih h5 (fun d hd => hne d (List.mem_cons_of_mem _ hd)) hns hs
        fuel (Nat.lt_of_succ_lt_succ hfuel)

end walks

/-! ## The tree that the links make -/

/-- The tree in memory is the forest `f`, of one node on top at most. -/
structure TreeIs (t : TreeState) (f : Forest Nat) : Prop where
  root : t.root = f.first NULL
  formed : Forest.Formed (linksOf t.nodes) NULL NULL f
  alone : f.tops.length ≤ 1
  nodup : f.preorder.Nodup
  address : ∀ a ∈ f.preorder, a ≠ NULL ∧ a < 4294967296

theorem TreeIs.length_lt {t : TreeState} {f : Forest Nat} (h : TreeIs t f) :
    f.preorder.length < 4294967296 := addresses_length_lt h.nodup h.address

theorem init_treeIs (nodes : Nat → generic_tree_node) : TreeIs (generic_tree_init nodes) .nil :=
  ⟨rfl, trivial, by simp [Forest.tops], List.nodup_nil, by simp [Forest.preorder]⟩

/-- A node that was just set up is a tree of its own. -/
theorem node_treeIs (nodes : Nat → generic_tree_node) {node : Nat} (data : Nat)
    (hnull : node ≠ NULL) (hlt : node < 4294967296) :
    TreeIs ⟨generic_tree_node_init nodes node data, node⟩ (.node node .nil .nil) := by
  have hself : generic_tree_node_init nodes node data node = ⟨NULL, NULL, NULL, data⟩ := by
    rw [generic_tree_node_init, if_neg hnull, Function.update_self]
  refine ⟨rfl, ⟨?_, ?_, ?_, trivial, trivial⟩, ?_, ?_, ?_⟩
  all_goals simp [linksOf, hself, Forest.tops, Forest.preorder, Forest.first, hnull, hlt]

/-- A tree with a root is the root over the forest of its children. -/
theorem TreeIs.cases {t : TreeState} {f : Forest Nat} (h : TreeIs t f) :
    (t.root = NULL ∧ f = .nil) ∨
      ∃ c, f = .node t.root c .nil ∧ t.root ≠ NULL ∧ (t.nodes t.root).child = c.first NULL := by
  obtain ⟨hroot, hformed, halone, -, haddress⟩ := h
  cases f with
  | nil => exact Or.inl ⟨hroot, rfl⟩
  | node a c s =>
    cases s with
    | nil =>
      obtain rfl : t.root = a := hroot
      exact Or.inr ⟨c, rfl, (haddress _ List.mem_cons_self).1, hformed.2.1⟩
    | node b cb sb => simp [Forest.tops] at halone

/-- The tree is the same in a memory that agrees on its nodes. -/
theorem TreeIs.congr {t : TreeState} {f : Forest Nat} (h : TreeIs t f)
    {nodes' : Nat → generic_tree_node} (hsame : ∀ a ∈ f.preorder, nodes' a = t.nodes a) :
    TreeIs ⟨nodes', t.root⟩ f := by
  refine ⟨h.root, h.formed.congr fun a ha => ?_, h.alone, h.nodup, h.address⟩
  simp only [linksOf, hsame a ha, and_self]

/-- Nothing is found for `NULL`. -/
theorem find_null (t : TreeState) (comp : Nat → Nat → Bool) :
    generic_tree_find t NULL comp = some NULL := by
  unfold generic_tree_find
  split
  · rw [find_recursive, if_pos (Or.inr rfl)]
  · rfl

/-- `generic_tree_find` gives the first node that compares, in preorder, or `NULL`. -/
theorem TreeIs.find {t : TreeState} {f : Forest Nat} (h : TreeIs t f) {data : Nat}
    (hdata : data ≠ NULL) (comp : Nat → Nat → Bool) :
    generic_tree_find t data comp =
      some ((f.preorder.find? fun a => comp (t.nodes a).data data).getD NULL) := by
  have hlen := h.length_lt
  have hloop := find_children_spec data hdata comp f h.formed (fun a ha => (h.address a ha).1)
    (8589934592 + 1) (by omega)
  unfold generic_tree_find
  rcases h.cases with ⟨hroot, rfl⟩ | ⟨c, rfl, hroot, -⟩
  · rw [if_neg (not_not.mpr hroot)]
    rfl
  · have hslide : (t.nodes t.root).slide = NULL := h.formed.2.2.1
    rw [if_pos hroot, ← hloop, Forest.first, find_children, if_neg hroot, hslide]
    cases find_recursive t.nodes data comp 8589934592 t.root with
    | none => rfl
    | some result =>
      rw [Option.bind_some]
      split
      · rfl
      · rename_i hnull
        rw [not_not.mp hnull]
        rfl

/-- `generic_tree_callback_foreach` calls back for every node, in preorder. -/
theorem TreeIs.foreach {σ : Type} {t : TreeState} {f : Forest Nat} (h : TreeIs t f)
    (callback : σ → generic_tree_node → σ) (userdata : σ) :
    generic_tree_callback_foreach t callback userdata =
      some (f.preorder.foldl (fun u a => callback u (t.nodes a)) userdata) := by
  have hlen := h.length_lt
  have hloop := foreach_children_spec callback f h.formed (fun a ha => (h.address a ha).1)
    (8589934592 + 1) (by omega) userdata
  unfold generic_tree_callback_foreach
  rcases h.cases with ⟨hroot, rfl⟩ | ⟨c, rfl, hroot, -⟩
  · rw [hroot]
    rfl
  · have hslide : (t.nodes t.root).slide = NULL := h.formed.2.2.1
    rw [← hloop, Forest.first, foreach_children, if_neg hroot, hslide]
    cases foreach_recursive t.nodes callback 8589934592 t.root userdata with
    | none => rfl
    | some result => rfl

/-! ## Insert -/

/-- The nodes after an insertion are the old ones and the new ones. -/
theorem preorder_insert {f cp : Forest Nat} {parent : Nat} (h : f.Under parent cp)
    (hnodup : f.preorder.Nodup) (g : Forest Nat) :
    (f.mapUnder parent (·.append g)).preorder.Perm (f.preorder ++ g.preorder) := by
  obtain ⟨A, B, hbefore, hafter⟩ := h.split hnodup (·.append g)
  rw [hbefore, hafter, Forest.preorder_append, List.append_assoc, List.append_assoc,
    List.cons_append, List.append_assoc]
  exact ((List.perm_append_comm.append_left _).cons _).append_left _

/-- A node with its children goes behind the last child of a node of the tree. -/
theorem insert_treeIs {t : TreeState} {f c : Forest Nat} {parent node : Nat} (h : TreeIs t f)
    (hp : parent ∈ f.preorder) (hc : Forest.Formed (linksOf t.nodes) NULL node c)
    (hchild : (t.nodes node).child = c.first NULL) (hslide : (t.nodes node).slide = NULL)
    (hnodup : (node :: c.preorder).Nodup)
    (hfresh : ∀ a ∈ node :: c.preorder, a ∉ f.preorder ∧ a ≠ NULL ∧ a < 4294967296) :
    ∃ nodes', generic_tree_insert t.nodes parent node = some nodes' ∧
      TreeIs ⟨nodes', t.root⟩ (f.mapUnder parent (·.append (.node node c .nil))) ∧
      (∀ a, (nodes' a).data = (t.nodes a).data) ∧
      ∀ a, a ∉ f.preorder → a ≠ node → nodes' a = t.nodes a := by
  obtain ⟨cp, hunder⟩ := Forest.under_of_mem hp
  obtain ⟨hfirst, hcp⟩ := h.formed.under hunder
  simp only [linksOf] at hfirst
  obtain ⟨hpcp, hcpnodup⟩ := hunder.fresh h.nodup
  have hnode := hfresh node List.mem_cons_self
  have hpnull : parent ≠ NULL := (h.address parent hp).1
  have hpn : parent ≠ node := fun he => hnode.1 (he ▸ hp)
  have hcn : ∀ a ∈ c.preorder, a ≠ node := by
    rintro a ha rfl
    exact (List.nodup_cons.mp hnodup).1 ha
  have hfn : ∀ a ∈ f.preorder, a ≠ node := by
    rintro a ha rfl
    exact hnode.1 ha
  have hcf : ∀ a ∈ c.preorder, ∀ b ∈ f.preorder, a ≠ b := by
    rintro a ha b hb rfl
    exact (hfresh a (List.mem_cons_of_mem _ ha)).1 hb
  -- The new part of the tree, in any memory that keeps its links but for the new parent.
  have hnew : ∀ nodes' : Nat → generic_tree_node, (nodes' node).parent = parent →
      (nodes' node).child = (t.nodes node).child → (nodes' node).slide = (t.nodes node).slide →
      (∀ a ∈ c.preorder, nodes' a = t.nodes a) →
      Forest.Formed (linksOf nodes') NULL parent (.node node c .nil) := by
    intro nodes' h1 h2 h3 hsame
    refine ⟨h1, h2.trans hchild, h3.trans hslide, hc.congr fun a ha => ?_, trivial⟩
    simp only [linksOf, hsame a ha, and_self]
  have hinsert : ∃ nodes', generic_tree_insert t.nodes parent node = some nodes' ∧
      Forest.Formed (linksOf nodes') NULL NULL (f.mapUnder parent (·.append (.node node c .nil))) ∧
      (∀ a, (nodes' a).data = (t.nodes a).data) ∧
      ∀ a, a ∉ f.preorder → a ≠ node → nodes' a = t.nodes a := by
    unfold generic_tree_insert
    rw [if_neg (not_or.mpr ⟨hpnull, hnode.2.1⟩), hfirst]
    cases cp with
    | nil =>
      refine ⟨_, if_pos rfl, ?_, by simp, fun a ha hne => ?_⟩
      swap
      · have hap : a ≠ parent := fun he => ha (he ▸ hp)
        rw [set_parent_ne _ _ hne, set_child_ne _ _ hap]
      refine h.formed.mapUnder h.nodup hunder (hnew _ ?_ ?_ ?_ ?_) ?_ ?_ ?_
      · simp
      · simp [hpn.symm]
      · simp
      · intro a ha
        rw [set_parent_ne _ _ (hcn a ha), set_child_ne _ _ (hcf a ha parent hp)]
      · simp [linksOf, Forest.append, Forest.first]
      · simp [linksOf, hpn]
      · intro a ha
        simp only [List.mem_filter, decide_eq_true_eq] at ha
        obtain ⟨ha, -, hap⟩ := ha
        simp only [linksOf]
        rw [set_parent_ne _ _ (hfn a ha), set_child_ne _ _ hap]
        exact ⟨rfl, rfl, rfl⟩
    | node b cb sb =>
      have hsub : ∀ a ∈ (Forest.node b cb sb).preorder, a ∈ f.preorder := hunder.mem.2
      have htops : ∀ a ∈ sb.tops, a ∈ (Forest.node b cb sb).preorder := fun a ha =>
        Forest.tops_subset _ a (List.mem_cons_of_mem _ ha)
      obtain ⟨last, hlastdef⟩ : ∃ last, sb.tops.getLastD b = last := ⟨_, rfl⟩
      have hlast : last ∈ (Forest.node b cb sb).preorder := by
        rw [← hlastdef]
        exact Forest.tops_subset _ _ List.getLastD_mem_cons
      have hblen := addresses_length_lt (hcpnodup.sublist (Forest.tops_sublist _)) fun a ha =>
        h.address a (hsub a (Forest.tops_subset _ a ha))
      rw [Forest.tops, List.length_cons] at hblen
      have hbnull : b ≠ NULL := (h.address b (hsub b List.mem_cons_self)).1
      have hwalk := last_slide_spec b cb sb hcp (fun a ha => (h.address a (hsub a (htops a ha))).1)
        4294967296 (by omega)
      rw [Forest.first, if_neg hbnull, hwalk, hlastdef]
      refine ⟨set_parent (set_slide t.nodes last node) node parent, rfl, ?_, by simp,
        fun a ha hne => ?_⟩
      swap
      · have hal : a ≠ last := fun he => ha (he ▸ hsub _ hlast)
        rw [set_parent_ne _ _ hne, set_slide_ne _ _ hal]
      have hln : last ≠ node := hfn _ (hsub _ hlast)
      have hlp : last ≠ parent := fun he => hpcp (he ▸ hlast)
      refine h.formed.mapUnder h.nodup hunder ?_ ?_ ?_ ?_
      · refine hcp.append (hnew _ ?_ ?_ ?_ ?_) hcpnodup ?_ ?_
        · simp
        · simp
        · simp [hln.symm]
        · intro a ha
          rw [set_parent_ne _ _ (hcn a ha), set_slide_ne _ _ (hcf a ha _ (hsub _ hlast))]
        · rw [hlastdef]
          simp [linksOf, Forest.first]
        · intro a ha
          rw [hlastdef]
          simp only [linksOf]
          rw [set_parent_ne _ _ (hfn a (hsub a ha))]
          refine ⟨by simp, by simp, fun hne => ?_⟩
          rw [set_slide_ne _ _ hne]
      · simp only [linksOf, Forest.append, Forest.first]
        rw [set_parent_ne _ _ hpn, set_slide_child]
        exact hfirst
      · simp only [linksOf]
        rw [set_parent_ne _ _ hpn, set_slide_ne _ _ hlp.symm]
        exact ⟨rfl, rfl⟩
      · intro a ha
        simp only [List.mem_filter, decide_eq_true_eq] at ha
        obtain ⟨ha, hacp, -⟩ := ha
        have hal : a ≠ last := fun he => hacp (he ▸ hlast)
        simp only [linksOf]
        rw [set_parent_ne _ _ (hfn a ha), set_slide_ne _ _ hal]
        exact ⟨rfl, rfl, rfl⟩
  obtain ⟨nodes', hrun, hformed, hdata, hframe⟩ := hinsert
  have hperm := preorder_insert hunder h.nodup (.node node c .nil)
  rw [Forest.preorder, Forest.preorder, List.append_nil] at hperm
  refine ⟨nodes', hrun, ⟨?_, hformed, ?_, ?_, ?_⟩, hdata, hframe⟩
  · rw [Forest.first_mapUnder]
    exact h.root
  · rw [Forest.tops_mapUnder]
    exact h.alone
  · rw [hperm.nodup_iff, List.nodup_append]
    exact ⟨h.nodup, hnodup, fun a ha b hb he => (hfresh b hb).1 (he ▸ ha)⟩
  · intro a ha
    rcases List.mem_append.mp (hperm.subset ha) with ha | ha
    · exact h.address a ha
    · exact (hfresh a ha).2

/-- A new node without children goes behind the last child of a node of the tree. -/
theorem insert_leaf {t : TreeState} {f : Forest Nat} {parent node data : Nat} (h : TreeIs t f)
    (hp : parent ∈ f.preorder) (hnode : node ∉ f.preorder) (hnull : node ≠ NULL)
    (hlt : node < 4294967296) :
    ∃ nodes', generic_tree_insert (generic_tree_node_init t.nodes node data) parent node =
        some nodes' ∧
      TreeIs ⟨nodes', t.root⟩ (f.mapUnder parent (·.append (.node node .nil .nil))) ∧
      (nodes' node).data = data ∧ ∀ a, a ≠ node → (nodes' a).data = (t.nodes a).data := by
  have hinit : generic_tree_node_init t.nodes node data =
      Function.update t.nodes node ⟨NULL, NULL, NULL, data⟩ := if_neg hnull
  rw [hinit]
  have hself : Function.update t.nodes node ⟨NULL, NULL, NULL, data⟩ node =
      ⟨NULL, NULL, NULL, data⟩ := Function.update_self _ _ _
  have hother : ∀ a, a ≠ node →
      Function.update t.nodes node ⟨NULL, NULL, NULL, data⟩ a = t.nodes a :=
    fun a ha => Function.update_of_ne ha _ _
  generalize Function.update t.nodes node ⟨NULL, NULL, NULL, data⟩ = nodes at hself hother
  have htree := h.congr fun a ha => hother a fun he => hnode (he ▸ ha)
  obtain ⟨nodes', hrun, htree', hdata, -⟩ := insert_treeIs (c := .nil) htree hp trivial
    (by simp only [hself]; rfl) (by simp only [hself]) (List.nodup_singleton node) (by
      intro a ha
      rw [List.mem_singleton.mp ha]
      exact ⟨hnode, hnull, hlt⟩)
  refine ⟨nodes', hrun, htree', ?_, fun a ha => ?_⟩
  · rw [hdata node]
    exact congrArg generic_tree_node.data hself
  · rw [hdata a]
    exact congrArg generic_tree_node.data (hother a ha)

/-! ## Remove -/

/-- The links around a node that is not the root, in the memory that the walk leaves. -/
theorem unlink_formed {t : TreeState} {f cp : Forest Nat} {p x : Nat} (h : TreeIs t f)
    (hunder : f.Under p cp) (hx : x ∈ cp.tops) :
    ∃ nodes', generic_tree_unlink t.nodes x = some nodes' ∧
      (∀ nodes'', (∀ a, a ≠ x → nodes'' a = nodes' a) →
        Forest.Formed (linksOf nodes'') NULL NULL (f.mapUnder p (·.removeTop x))) ∧
      (∀ a, (nodes' a).data = (t.nodes a).data) ∧
      ∀ a, a ≠ p → (a ∈ cp.tops → a = x) → nodes' a = t.nodes a := by
  obtain ⟨hfirst, hcp⟩ := h.formed.under hunder
  simp only [linksOf] at hfirst
  obtain ⟨hpcp, hcpnodup⟩ := hunder.fresh h.nodup
  have hxcp := Forest.tops_subset cp x hx
  have hpx : p ≠ x := fun he => hpcp (he ▸ hxcp)
  have hpnull : p ≠ NULL := (h.address p hunder.mem.1).1
  have hparent : (t.nodes x).parent = p := hcp.parent_top x hx
  have hne : ∀ a ∈ cp.tops, a ≠ NULL := fun a ha =>
    (h.address a (hunder.mem.2 a (Forest.tops_subset cp a ha))).1
  unfold generic_tree_unlink
  simp only [hparent]
  rw [if_pos hpnull, hfirst]
  cases cp with
  | nil => cases hx
  | node b cb sb =>
    obtain ⟨-, -, hbslide, -, -⟩ := hcp
    obtain ⟨-, hbsb, -, -, -⟩ := Forest.nodup_node hcpnodup
    by_cases hbx : b = x
    · subst hbx
      refine ⟨set_child t.nodes p (t.nodes b).slide, if_pos rfl, ?_, by simp,
        fun a hap _ => set_child_ne _ _ hap⟩
      intro nodes'' hsame
      have hkeep : ∀ a, a ≠ p → a ≠ b → nodes'' a = t.nodes a := by
        intro a hap hab
        rw [hsame a hab, set_child_ne _ _ hap]
      refine h.formed.mapUnder h.nodup hunder ?_ ?_ ?_ ?_
      · refine (h.formed.under hunder).2.removeFirst fun a ha => ?_
        have hacp : a ∈ (Forest.node b cb sb).preorder :=
          List.mem_cons_of_mem _ (List.mem_append_right _ ha)
        simp only [linksOf]
        rw [hkeep a (fun he => hpcp (he ▸ hacp)) (fun he => hbsb (he ▸ ha))]
        exact ⟨rfl, rfl, rfl⟩
      · simp only [linksOf, Forest.removeTop, if_true]
        rw [hsame p hpx, set_child_child, if_pos rfl]
        exact hbslide
      · simp only [linksOf]
        rw [hsame p hpx, set_child_parent, set_child_slide]
        exact ⟨rfl, rfl⟩
      · intro a ha
        simp only [List.mem_filter, decide_eq_true_eq] at ha
        obtain ⟨-, hacp, hap⟩ := ha
        simp only [linksOf]
        rw [hkeep a hap (fun he => hacp (he ▸ hxcp))]
        exact ⟨rfl, rfl, rfl⟩
    · obtain ⟨l, r, htops⟩ := List.append_of_mem hx
      obtain ⟨l, y, rfl⟩ : ∃ k y, l = k ++ [y] := by
        rcases List.eq_nil_or_concat l with rfl | ⟨k, y, rfl⟩
        · rw [Forest.tops, List.nil_append, List.cons.injEq] at htops
          exact absurd htops.1 hbx
        · exact ⟨k, y, List.concat_eq_append⟩
      rw [List.append_assoc, List.singleton_append] at htops
      have hcpform := (h.formed.under hunder).2
      have htopsnodup := hcpnodup.sublist (Forest.tops_sublist _)
      have hlen := addresses_length_lt htopsnodup fun a ha =>
        h.address a (hunder.mem.2 a (Forest.tops_subset _ a ha))
      have hwalk := prev_slide_spec _ hcpform hne htopsnodup htops 4294967296 (by
        rw [htops, List.length_append] at hlen
        omega)
      have hyx : y ≠ x := by
        rintro rfl
        rw [htops] at htopsnodup
        simp [List.nodup_append] at htopsnodup
      have hycp : y ∈ (Forest.node b cb sb).preorder :=
        Forest.tops_subset _ y (by simp [htops])
      have hpy : p ≠ y := fun he => hpcp (he ▸ hycp)
      have hfirst' : (Forest.node b cb sb).first NULL = b := rfl
      rw [hfirst'] at hwalk
      have hytops : y ∈ (Forest.node b cb sb).tops := by simp [htops]
      refine ⟨set_slide t.nodes y (t.nodes x).slide, ?_, ?_, by simp, fun a _ hatops => ?_⟩
      rotate_left 2
      · exact set_slide_ne _ _ fun hay => hyx (hay ▸ hatops (hay ▸ hytops))
      · rw [hfirst', if_neg hbx, hwalk]
        rfl
      intro nodes'' hsame
      have hkeep : ∀ a, a ≠ y → a ≠ x → nodes'' a = t.nodes a := by
        intro a hay hax
        rw [hsame a hax, set_slide_ne _ _ hay]
      refine h.formed.mapUnder h.nodup hunder ?_ ?_ ?_ ?_
      · refine hcpform.removeTop hcpnodup htops ?_ ?_
        · simp only [linksOf]
          rw [hsame y hyx, set_slide_slide, if_pos rfl]
        · intro a ha hax
          simp only [linksOf]
          rw [hsame a hax]
          refine ⟨by simp, by simp, fun hay => ?_⟩
          rw [set_slide_ne _ _ hay]
      · simp only [linksOf, Forest.removeTop, if_neg hbx, Forest.first]
        rw [hkeep p hpy hpx]
        exact hfirst
      · simp only [linksOf]
        rw [hkeep p hpy hpx]
        exact ⟨rfl, rfl⟩
      · intro a ha
        simp only [List.mem_filter, decide_eq_true_eq] at ha
        obtain ⟨-, hacp, -⟩ := ha
        simp only [linksOf]
        rw [hkeep a (fun he => hacp (he ▸ hycp)) (fun he => hacp (he ▸ hxcp))]
        exact ⟨rfl, rfl, rfl⟩

/-- What a removal leaves: the tree without a node and what is under it, the order of the other
nodes, and the tree of the node that was removed. -/
structure Removed (t t' : TreeState) (f f' c : Forest Nat) (x : Nat) : Prop where
  tree : TreeIs t' f'
  under : f.Under x c
  order : ∃ A B, f.preorder = A ++ (x :: c.preorder) ++ B ∧ f'.preorder = A ++ B
  children : ∀ q d, f'.Under q d → ∃ d', f.Under q d' ∧ d.tops = d'.tops.erase x
  apart : TreeIs ⟨t'.nodes, x⟩ (.node x c .nil)
  data : ∀ a, (t'.nodes a).data = (t.nodes a).data
  frame : ∀ a, a ∉ f.preorder → t'.nodes a = t.nodes a

theorem Removed.perm {t t' : TreeState} {f f' c : Forest Nat} {x : Nat}
    (h : Removed t t' f f' c x) : f.preorder.Perm ((x :: c.preorder) ++ f'.preorder) := by
  obtain ⟨A, B, hbefore, hafter⟩ := h.order
  rw [hbefore, hafter, List.append_assoc]
  exact List.perm_append_comm_assoc _ _ _

/-- The root leaves an empty tree. -/
theorem remove_root {t : TreeState} {f : Forest Nat} (h : TreeIs t f) (hroot : t.root ≠ NULL) :
    ∃ t' c, generic_tree_remove t t.root = some t' ∧ Removed t t' f .nil c t.root := by
  rcases h.cases with ⟨hnull, -⟩ | ⟨c, hf, -, -⟩
  · exact absurd hnull hroot
  obtain ⟨hparent, hchild, hslide, hformed, -⟩ := hf ▸ h.formed
  simp only [linksOf] at hparent hchild hslide
  have hsame : set_slide (set_parent t.nodes t.root NULL) t.root NULL = t.nodes := by
    rw [set_parent_same _ hparent]
    exact set_slide_same _ hslide
  have hunlink : generic_tree_unlink t.nodes t.root = some t.nodes := by
    unfold generic_tree_unlink
    simp only [hparent, ne_eq, not_true_eq_false, if_false]
  refine ⟨⟨t.nodes, NULL⟩, c, ?_, init_treeIs _, ?_, ⟨[], [], ?_, rfl⟩, fun _ _ hd => hd.elim, ?_,
    fun _ => rfl, fun _ _ => rfl⟩
  · rw [generic_tree_remove, if_neg hroot, hunlink, Option.map_some, hsame, if_pos rfl]
  · rw [hf]
    exact Or.inl ⟨rfl, rfl⟩
  · rw [hf]
    simp [Forest.preorder]
  · rw [← hf]
    exact h

/-- A node leaves the tree with all that is under it. -/
theorem remove_treeIs {t : TreeState} {f : Forest Nat} {x : Nat} (h : TreeIs t f)
    (hx : x ∈ f.preorder) :
    ∃ t' f' c, generic_tree_remove t x = some t' ∧ Removed t t' f f' c x := by
  have hxnull := (h.address x hx).1
  rcases Forest.top_or_under hx with htop | ⟨p, cp, hunder, htop⟩
  · rcases h.cases with ⟨-, rfl⟩ | ⟨c, hf, hroot, -⟩
    · cases hx
    · obtain rfl : x = t.root := by
        rw [hf] at htop
        exact List.mem_singleton.mp htop
      obtain ⟨t', c, hrun, hremoved⟩ := remove_root h hroot
      exact ⟨t', .nil, c, hrun, hremoved⟩
  · obtain ⟨nodes', hunlink, hformed, hdata, hframe⟩ := unlink_formed h hunder htop
    have hparent : (t.nodes x).parent = p := (h.formed.under hunder).2.parent_top _ htop
    have hxroot : t.root ≠ x := by
      rintro rfl
      rcases h.cases with ⟨hroot, -⟩ | ⟨c, hf, -, -⟩
      · exact hxnull hroot
      · have hnull : (t.nodes t.root).parent = NULL := by
          have hformed' := h.formed
          rw [hf] at hformed'
          exact hformed'.1
        exact (h.address p hunder.mem.1).1 (hparent.symm.trans hnull)
    obtain ⟨hpcp, hcpnodup⟩ := hunder.fresh h.nodup
    obtain ⟨c, A', B', hxc, hcp, hcp', htops⟩ := Forest.split_removeTop htop hcpnodup
    obtain ⟨A, B, hbefore, hafter⟩ := hunder.split h.nodup (·.removeTop x)
    have hxf := hunder.trans hxc
    have horder : f.preorder = (A ++ p :: A') ++ (x :: c.preorder) ++ (B' ++ B) ∧
        (f.mapUnder p (·.removeTop x)).preorder = (A ++ p :: A') ++ (B' ++ B) := by
      rw [hbefore, hafter, hcp, hcp']
      simp
    -- What is under the node is not among its siblings, and keeps its links.
    have hkept : ∀ a ∈ x :: c.preorder, nodes' a = t.nodes a := by
      intro a ha
      apply hframe
      · rintro rfl
        exact hpcp (by rw [hcp]; simp only [List.mem_append]; exact Or.inl (Or.inr ha))
      · intro hatop
        by_contra hax
        have hrest : a ∈ A' ++ B' := by
          rw [← hcp']
          apply Forest.tops_subset
          rw [htops]
          exact (List.mem_erase_of_ne hax).mpr hatop
        rw [hcp, List.append_assoc] at hcpnodup
        obtain ⟨-, hright, hapart⟩ := List.nodup_append.mp hcpnodup
        rcases List.mem_append.mp hrest with hm | hm
        · exact hapart a hm a (List.mem_append_left _ ha) rfl
        · exact (List.nodup_append.mp hright).2.2 a ha a hm rfl
    obtain ⟨hxchild, hcformed⟩ := h.formed.under hxf
    obtain ⟨hxfresh, hcnodup⟩ := hxf.fresh h.nodup
    refine ⟨⟨set_slide (set_parent nodes' x NULL) x NULL, t.root⟩, f.mapUnder p (·.removeTop x), c,
      ?_, ⟨?_, ?_, ?_, ?_, ?_⟩, hxf, ⟨_, _, horder⟩, ?_,
      ⟨rfl, ⟨?_, ?_, ?_, ?_, trivial⟩, ?_, ?_, ?_⟩, ?_, ?_⟩
    · rw [generic_tree_remove, if_neg hxnull, hunlink, Option.map_some, if_neg hxroot]
    · rw [Forest.first_mapUnder]
      exact h.root
    · apply hformed
      intro a hax
      simp only
      rw [set_slide_ne _ _ hax, set_parent_ne _ _ hax]
    · rw [Forest.tops_mapUnder]
      exact h.alone
    · have hnodup := h.nodup
      rw [horder.1] at hnodup
      rw [horder.2]
      exact hnodup.sublist ((List.sublist_append_left _ _).append (List.Sublist.refl _))
    · intro a ha
      apply h.address
      rw [horder.2] at ha
      rw [horder.1]
      simp only [List.mem_append] at ha ⊢
      rcases ha with ha | ha
      · exact Or.inl (Or.inl ha)
      · exact Or.inr ha
    · intro q d hd
      have hother : ∀ d', f.Under q d' → q ≠ p → d'.tops = d'.tops.erase x := by
        intro d' hd' hqp
        refine (List.erase_of_not_mem fun hm => hqp ?_).symm
        exact ((h.formed.under hd').2.parent_top x hm).symm.trans hparent
      rcases Forest.under_mapUnder _ h.nodup hd with
        ⟨d', hd', htops', hqp⟩ | ⟨rfl, c', hc', rfl⟩ | ⟨c', hc', hd'⟩
      · exact ⟨d', hd', htops'.trans (hother d' hd' hqp)⟩
      · rw [hc'.unique hunder h.nodup]
        exact ⟨cp, hunder, htops⟩
      · rw [hc'.unique hunder h.nodup] at hd'
        have hdcp := Forest.under_removeTop hd'
        have hdf := hunder.trans hdcp
        exact ⟨d, hdf, hother d hdf fun he => hpcp (he ▸ hdcp.mem.1)⟩
    · simp [linksOf]
    · simp only [linksOf, set_slide_child, set_parent_child]
      rw [hkept x List.mem_cons_self]
      exact hxchild
    · simp [linksOf, Forest.first]
    · apply hcformed.congr
      intro a ha
      have hax : a ≠ x := fun he => hxfresh (he ▸ ha)
      simp only [linksOf]
      rw [set_slide_ne _ _ hax, set_parent_ne _ _ hax, hkept a (List.mem_cons_of_mem _ ha)]
      exact ⟨rfl, rfl, rfl⟩
    · simp [Forest.tops]
    · simp only [Forest.preorder, List.append_nil]
      exact List.nodup_cons.mpr ⟨hxfresh, hcnodup⟩
    · intro a ha
      apply h.address
      simp only [Forest.preorder, List.append_nil, List.mem_cons] at ha
      rcases ha with rfl | ha
      · exact hx
      · exact hxf.mem.2 a ha
    · intro a
      simp only [set_slide_data, set_parent_data]
      exact hdata a
    · intro a ha
      have hax : a ≠ x := fun he => ha (he ▸ hx)
      simp only
      rw [set_slide_ne _ _ hax, set_parent_ne _ _ hax]
      refine hframe a (fun he => ha (he ▸ hunder.mem.1)) fun hatop => ?_
      exact absurd (hunder.mem.2 a (Forest.tops_subset _ a hatop)) ha

end sakana_os
