-- Runs of insertions and removals on a tree: the links stay those of an ordered tree, whose
-- visits an edit changes in one place.
import Mathlib.Data.List.Flatten
import SakanaOS.GenericTree
import SakanaOS.Runs

open chains forests runs

namespace sakana_os

/-! ## Visits -/

/-- The nodes that `generic_tree_callback_foreach` calls back for, in order: the data of each node
are its address here. -/
def visits (t : TreeState) : Option (List Nat) :=
  generic_tree_callback_foreach ⟨fun a => { t.nodes a with data := a }, t.root⟩
    (fun l node => l ++ [node.data]) []

/-- The nodes of a tree. -/
def members (t : TreeState) : List Nat := (visits t).getD []

/-- The nodes that the links lead to from the root. -/
inductive Reachable (t : TreeState) : Nat → Prop
  | root : t.root ≠ NULL → Reachable t t.root
  | child {a : Nat} : Reachable t a → (t.nodes a).child ≠ NULL → Reachable t (t.nodes a).child
  | slide {a : Nat} : Reachable t a → (t.nodes a).slide ≠ NULL → Reachable t (t.nodes a).slide

/-! ## Runs -/

inductive TreeCall where
  | insert_new (parent node data : Nat)
  | insert_again (parent node : Nat)
  | remove (node : Nat)

/-- The tree, the nodes that were removed from it, and the insertions of the nodes that were not
removed since: the parent and the node of each, in order. -/
structure TreeRun where
  tree : TreeState
  removed : List Nat
  inserted : List (Nat × Nat)

/-- A node of the tree is removed, or a node that is new or was removed is inserted under one. -/
def TreeRun.Legal (s : TreeRun) : TreeCall → Prop
  | .insert_new parent node _ =>
    parent ∈ members s.tree ∧ node ∉ members s.tree ∧ node ≠ NULL ∧ node < 4294967296
  | .insert_again parent node => parent ∈ members s.tree ∧ node ∈ s.removed
  | .remove node => node ∈ members s.tree

instance (s : TreeRun) (call : TreeCall) : Decidable (s.Legal call) :=
  match call with
  | .insert_new _ _ _ => inferInstanceAs (Decidable (_ ∧ _ ∧ _ ∧ _))
  | .insert_again _ _ => inferInstanceAs (Decidable (_ ∧ _))
  | .remove _ => inferInstanceAs (Decidable (_ ∈ _))

/-- The run after a call. A new node may have the address of one that was removed: that one, with
all over it and under it, is lost. -/
def tree_call (s : TreeRun) : TreeCall → Option TreeRun
  | .insert_new parent node data =>
    (generic_tree_insert (generic_tree_node_init s.tree.nodes node data) parent node).map
      fun nodes =>
        { tree := ⟨nodes, s.tree.root⟩
          removed := s.removed.filter fun x => node ∉ members ⟨s.tree.nodes, x⟩
          inserted := (s.inserted.filter fun e => e.1 ≠ node ∧ e.2 ≠ node) ++ [(parent, node)] }
  | .insert_again parent node =>
    (generic_tree_insert s.tree.nodes parent node).map fun nodes =>
      { tree := ⟨nodes, s.tree.root⟩
        removed := s.removed.erase node
        inserted := s.inserted ++ [(parent, node)] }
  | .remove node =>
    (generic_tree_remove s.tree node).map fun tree =>
      { tree
        removed := node :: s.removed
        inserted := s.inserted.filter fun e => e.2 ≠ node }

def tree_step (s : TreeRun) (call : TreeCall) : Option TreeRun :=
  if s.Legal call then tree_call s call else none

/-- A tree of a root alone. -/
def treeStart (nodes : Nat → generic_tree_node) (root data : Nat) : TreeRun where
  tree := ⟨generic_tree_node_init nodes root data, root⟩
  removed := []
  inserted := []

/-! ## What must hold -/

/-- The nodes that were inserted under a node, in order. -/
def childrenOf (inserted : List (Nat × Nat)) (p : Nat) : List Nat :=
  (inserted.filter fun e => e.1 = p).map Prod.snd

/-- The links are those of the ordered tree `f`, whose children stand in the order in which they
were inserted. Its preorder is the order of the visits. -/
structure Ordered (s : TreeRun) (f : Forest Nat) : Prop where
  tree : TreeIs s.tree f
  reachable : ∀ a, Reachable s.tree a ↔ a ∈ f.preorder
  climbs : ∀ a ∈ f.preorder, ∃ n, follow (fun b => (s.tree.nodes b).parent) a n = NULL
  children : ∀ p c, f.Under p c → c.tops = childrenOf s.inserted p
  visits : visits s.tree = some f.preorder
  foreach : ∀ (σ : Type) (callback : σ → generic_tree_node → σ) (userdata : σ),
    generic_tree_callback_foreach s.tree callback userdata =
      some (f.preorder.foldl (fun u a => callback u (s.tree.nodes a)) userdata)

/-- An insertion puts the visits of the node right behind those of what is under its parent, and a
removal takes those of the node out. -/
def EditsVisits (s : TreeRun) (call : TreeCall) (t : TreeRun) : Prop :=
  match call with
  | .insert_new parent node _ => ∃ A P B, visits s.tree = some (A ++ P ++ B) ∧
      visits ⟨s.tree.nodes, parent⟩ = some P ∧ visits t.tree = some (A ++ P ++ [node] ++ B)
  | .insert_again parent node => ∃ A P N B, visits s.tree = some (A ++ P ++ B) ∧
      visits ⟨s.tree.nodes, parent⟩ = some P ∧ visits ⟨s.tree.nodes, node⟩ = some N ∧
      visits t.tree = some (A ++ P ++ N ++ B)
  | .remove node => ∃ A N B, visits s.tree = some (A ++ N ++ B) ∧
      visits ⟨s.tree.nodes, node⟩ = some N ∧ visits t.tree = some (A ++ B)

/-! ## The visits of a tree -/

section

variable {t : TreeState} {f c : Forest Nat}

theorem foldl_addresses (nodes : Nat → generic_tree_node) (l acc : List Nat) :
    l.foldl (fun u a => u ++ [({ nodes a with data := a } : generic_tree_node).data]) acc =
      acc ++ l := by
  induction l generalizing acc with
  | nil => simp
  | cons a l ih =>
    rw [List.foldl_cons, ih]
    simp

/-- The visits do not depend on the data. -/
theorem TreeIs.visits (h : TreeIs t f) : visits t = some f.preorder := by
  have hsame : TreeIs ⟨fun a => { t.nodes a with data := a }, t.root⟩ f :=
    ⟨h.root, h.formed, h.alone, h.nodup, h.address⟩
  unfold sakana_os.visits
  rw [hsame.foreach]
  exact congrArg some (foldl_addresses t.nodes f.preorder [])

theorem TreeIs.members (h : TreeIs t f) : members t = f.preorder := by
  unfold sakana_os.members
  rw [h.visits, Option.getD_some]

/-- The visits from a node of the tree. -/
theorem TreeIs.visits_under {p : Nat} (h : TreeIs t f) (hunder : f.Under p c) :
    sakana_os.visits ⟨t.nodes, p⟩ = some (p :: c.preorder) := by
  obtain ⟨hchild, hformed⟩ := h.formed.under hunder
  obtain ⟨hp, hc⟩ := hunder.mem
  have hpnull := (h.address p hp).1
  have hlen := addresses_length_lt (hunder.fresh h.nodup).2 fun a ha => h.address a (hc a ha)
  have hloop := @foreach_children_spec (fun a => { t.nodes a with data := a }) p _
    (fun l node => l ++ [node.data]) c hformed (fun a ha => (h.address a (hc a ha)).1) 8589934591
    (by omega) [p]
  have hfuel : 8589934592 = 8589934591 + 1 := rfl
  unfold sakana_os.visits generic_tree_callback_foreach
  rw [hfuel, foreach_recursive, if_neg hpnull]
  simp only [linksOf] at hchild
  simp only [hchild, List.nil_append]
  rw [hloop]
  exact congrArg some (foldl_addresses t.nodes c.preorder [p])

/-! ## What the links lead to -/

theorem slide_mem {k : Links Nat} {q : Nat} (h : Forest.Formed k NULL q f) :
    ∀ a ∈ f.preorder, k.slide a = NULL ∨ k.slide a ∈ f.preorder := by
  induction f generalizing q with
  | nil => intro a ha; cases ha
  | node b cb sb ihc ihs =>
    obtain ⟨-, -, h3, h4, h5⟩ := h
    intro a ha
    simp only [Forest.preorder, List.mem_cons, List.mem_append] at ha ⊢
    rcases ha with rfl | ha | ha
    · rw [h3]
      cases sb with
      | nil => exact Or.inl rfl
      | node d cd sd => exact Or.inr (Or.inr (Or.inr List.mem_cons_self))
    · exact (ihc h4 a ha).imp_right fun hm => Or.inr (Or.inl hm)
    · exact (ihs h5 a ha).imp_right fun hm => Or.inr (Or.inr hm)

/-- A forest whose first node is reachable is reachable. -/
theorem reachable_forest {q : Nat} (h : Forest.Formed (linksOf t.nodes) NULL q f)
    (hne : ∀ a ∈ f.preorder, a ≠ NULL) (hfirst : f.first NULL ≠ NULL → Reachable t (f.first NULL)) :
    ∀ a ∈ f.preorder, Reachable t a := by
  induction f generalizing q with
  | nil => intro a ha; cases ha
  | node b cb sb ihc ihs =>
    obtain ⟨-, h2, h3, h4, h5⟩ := h
    simp only [linksOf] at h2 h3
    have hb : Reachable t b := hfirst (hne b List.mem_cons_self)
    intro a ha
    simp only [Forest.preorder, List.mem_cons, List.mem_append] at ha hne
    rcases ha with rfl | ha | ha
    · exact hb
    · refine ihc h4 (fun x hx => hne x (Or.inr (Or.inl hx))) (fun hnull => ?_) a ha
      rw [← h2] at hnull ⊢
      exact hb.child hnull
    · refine ihs h5 (fun x hx => hne x (Or.inr (Or.inr hx))) (fun hnull => ?_) a ha
      rw [← h3] at hnull ⊢
      exact hb.slide hnull

theorem TreeIs.reachable (h : TreeIs t f) (a : Nat) : Reachable t a ↔ a ∈ f.preorder := by
  constructor
  · intro ha
    induction ha with
    | root hroot =>
      rcases h.cases with ⟨hnull, -⟩ | ⟨c, hf, -, -⟩
      · exact absurd hnull hroot
      · rw [hf]
        exact List.mem_cons_self
    | @child b _ hnull ih =>
      obtain ⟨c, hunder⟩ := Forest.under_of_mem ih
      have hchild : (t.nodes b).child = c.first NULL := (h.formed.under hunder).1
      rw [hchild] at hnull ⊢
      cases c with
      | nil => exact absurd rfl hnull
      | node d cd sd => exact hunder.mem.2 d List.mem_cons_self
    | @slide b _ hnull ih => exact (slide_mem h.formed b ih).resolve_left hnull
  · refine reachable_forest h.formed (fun b hb => (h.address b hb).1) (fun hnull => ?_) a
    rw [← h.root] at hnull ⊢
    exact .root hnull

/-- The links to the parents lead out of the tree. -/
theorem climbs_formed {k : Links Nat} {q : Nat} (h : Forest.Formed k NULL q f) :
    ∀ a ∈ f.preorder, ∃ n, follow k.parent a n = q := by
  induction f generalizing q with
  | nil => intro a ha; cases ha
  | node b cb sb ihc ihs =>
    obtain ⟨h1, -, -, h4, h5⟩ := h
    intro a ha
    simp only [Forest.preorder, List.mem_cons, List.mem_append] at ha
    rcases ha with rfl | ha | ha
    · exact ⟨1, h1⟩
    · obtain ⟨n, hn⟩ := ihc h4 a ha
      exact ⟨n + 1, by rw [follow, hn, h1]⟩
    · exact ihs h5 a ha

end

/-! ## What a run keeps -/

/-- The nodes of a tree that was removed. -/
def nodesOf (g : Nat × Forest Nat) : List Nat := g.1 :: g.2.preorder

/-- The trees of a run, apart from each other: the one that is there, and for each node that was
removed the one over the forest of its children. -/
structure RunIs (s : TreeRun) (f : Forest Nat) (gs : List (Nat × Forest Nat)) : Prop where
  tree : TreeIs s.tree f
  roots : s.removed = gs.map Prod.fst
  removed : ∀ g ∈ gs, TreeIs ⟨s.tree.nodes, g.1⟩ (.node g.1 g.2 .nil)
  apart : (f.preorder ++ gs.flatMap nodesOf).Nodup
  children : ∀ p c, f.Under p c → c.tops = childrenOf s.inserted p
  orphans : ∀ g ∈ gs, ∀ p c, (Forest.node g.1 g.2 .nil).Under p c →
    c.tops = childrenOf s.inserted p

section

variable {s : TreeRun} {f : Forest Nat} {gs : List (Nat × Forest Nat)}

theorem RunIs.ordered (h : RunIs s f gs) : Ordered s f :=
  ⟨h.tree, h.tree.reachable, climbs_formed h.tree.formed, h.children, h.tree.visits,
    fun _ => h.tree.foreach⟩

theorem RunIs.not_mem (h : RunIs s f gs) {g : Nat × Forest Nat} (hg : g ∈ gs) :
    ∀ a ∈ nodesOf g, a ∉ f.preorder := by
  intro a ha hf
  exact (List.nodup_append.mp h.apart).2.2 a hf a (List.mem_flatMap.mpr ⟨g, hg, ha⟩) rfl

theorem childrenOf_append (log : List (Nat × Nat)) (p q x : Nat) :
    childrenOf (log ++ [(p, x)]) q = childrenOf log q ++ if q = p then [x] else [] := by
  unfold childrenOf
  rw [List.filter_append, List.map_append]
  by_cases hqp : q = p
  · simp [hqp]
  · have hpq : p ≠ q := Ne.symm hqp
    simp [hqp, hpq]

/-- The insertions of a node are forgotten. -/
theorem childrenOf_forget (log : List (Nat × Nat)) (p x : Nat) :
    childrenOf (log.filter fun e => e.2 ≠ x) p = (childrenOf log p).filter fun a => a ≠ x := by
  unfold childrenOf
  rw [List.filter_map, List.filter_filter, List.filter_filter]
  congr 1
  apply List.filter_congr
  intro e _
  simp [Bool.and_comm]

theorem childrenOf_keep {log : List (Nat × Nat)} {p x : Nat} {l : List Nat} (hx : x ∉ l)
    (h : l = childrenOf log p) : l = childrenOf (log.filter fun e => e.2 ≠ x) p := by
  rw [childrenOf_forget, ← h]
  refine (List.filter_eq_self.mpr fun a ha => ?_).symm
  exact decide_eq_true fun he => hx (he ▸ ha)

theorem under_single {x q : Nat} {c d : Forest Nat} (h : (Forest.node x c .nil).Under q d) :
    (q = x ∧ d = c) ∨ c.Under q d := by
  rcases h with ⟨rfl, rfl⟩ | h | h
  · exact Or.inl ⟨rfl, rfl⟩
  · exact Or.inr h
  · exact h.elim

/-- A node that was removed, with what is under it, goes under a node of the tree. -/
theorem RunIs.again (h : RunIs s f gs) {parent node : Nat} (hp : parent ∈ f.preorder)
    (hnode : node ∈ s.removed) :
    ∃ nodes' f' gs' cp c A B, generic_tree_insert s.tree.nodes parent node = some nodes' ∧
      RunIs ⟨⟨nodes', s.tree.root⟩, s.removed.erase node, s.inserted ++ [(parent, node)]⟩ f' gs' ∧
      f.Under parent cp ∧ (node, c) ∈ gs ∧
      f.preorder = A ++ (parent :: cp.preorder) ++ B ∧
      f'.preorder = A ++ (parent :: cp.preorder) ++ (node :: c.preorder) ++ B := by
  obtain ⟨c, hg⟩ : ∃ c, (node, c) ∈ gs := by
    rw [h.roots] at hnode
    obtain ⟨⟨x, c⟩, hg, rfl⟩ := List.mem_map.mp hnode
    exact ⟨c, hg⟩
  obtain ⟨gs₁, gs₂, rfl⟩ := List.append_of_mem hg
  obtain ⟨cp, hunder⟩ := Forest.under_of_mem hp
  have hsub := h.removed _ hg
  obtain ⟨-, hchild, hslide, hc, -⟩ := hsub.formed
  have hsubnodes : (Forest.node node c .nil).preorder = node :: c.preorder := by
    simp [Forest.preorder]
  have hsubnodup : (node :: c.preorder).Nodup := hsubnodes ▸ hsub.nodup
  have hnew : ∀ a ∈ node :: c.preorder, a ∉ f.preorder := h.not_mem hg
  obtain ⟨nodes', hrun, htree, -, hframe⟩ := insert_treeIs h.tree hp hc hchild hslide hsubnodup
    fun a ha => ⟨hnew a ha, hsub.address a (hsubnodes ▸ ha)⟩
  -- The other trees that were removed are apart from this one.
  have hapart := h.apart
  rw [List.flatMap_append, List.flatMap_cons] at hapart
  obtain ⟨-, hall, -⟩ := List.nodup_append.mp hapart
  obtain ⟨-, hrest, hleft⟩ := List.nodup_append.mp hall
  obtain ⟨-, -, hright⟩ := List.nodup_append.mp hrest
  have hothers : ∀ g ∈ gs₁ ++ gs₂, g ∈ gs₁ ++ (node, c) :: gs₂ := by
    intro g hg
    simp only [List.mem_append, List.mem_cons] at hg ⊢
    tauto
  have hfresh : ∀ g ∈ gs₁ ++ gs₂, ∀ a ∈ nodesOf g, a ≠ node := by
    rintro g hother a ha rfl
    rcases List.mem_append.mp hother with hm | hm
    · exact hleft a (List.mem_flatMap.mpr ⟨g, hm, ha⟩) a
        (List.mem_append_left _ List.mem_cons_self) rfl
    · exact hright a List.mem_cons_self a (List.mem_flatMap.mpr ⟨g, hm, ha⟩) rfl
  obtain ⟨A, B, hbefore, hafter⟩ := hunder.split h.tree.nodup (·.append (.node node c .nil))
  rw [Forest.preorder_append, hsubnodes] at hafter
  refine ⟨nodes', _, gs₁ ++ gs₂, cp, c, A, B, hrun, ⟨htree, ?_, fun g hg => ?_, ?_, ?_, ?_⟩, hunder,
    hg, ?_, ?_⟩
  · have hnot : node ∉ gs₁.map Prod.fst := by
      intro hm
      obtain ⟨g, hg, hfst⟩ := List.mem_map.mp hm
      exact hfresh g (List.mem_append_left _ hg) g.1 List.mem_cons_self hfst
    simp only [h.roots]
    rw [List.map_append, List.map_cons, List.erase_append_right _ hnot, List.erase_cons_head,
      List.map_append]
  · refine (h.removed g (hothers g hg)).congr fun a ha => ?_
    have hag : a ∈ nodesOf g := by
      simpa [Forest.preorder, nodesOf] using ha
    exact hframe a (h.not_mem (hothers g hg) a hag) (hfresh g hg a hag)
  · have hperm := preorder_insert hunder h.tree.nodup (.node node c .nil)
    rw [hsubnodes] at hperm
    refine (List.Perm.nodup_iff ?_).mp hapart
    refine List.Perm.trans ?_ (hperm.symm.append_right _)
    rw [List.flatMap_append, List.append_assoc]
    exact (List.perm_append_comm_assoc _ _ _).append_left _
  · intro q d hd
    rw [childrenOf_append]
    rcases Forest.under_mapUnder _ h.tree.nodup hd with
      ⟨d', hd', htops, hqp⟩ | ⟨rfl, c', hc', rfl⟩ | ⟨c', hc', hd'⟩
    · rw [if_neg hqp, List.append_nil, htops]
      exact h.children q d' hd'
    · rw [if_pos rfl, Forest.tops_append, h.children q c' hc']
      rfl
    · rcases Forest.under_append hd' with hd' | hd'
      · have hqp : q ≠ parent := by
          rintro rfl
          exact (hc'.fresh h.tree.nodup).1 hd'.mem.1
        rw [if_neg hqp, List.append_nil]
        exact h.children q d (hc'.trans hd')
      · have hqp : q ≠ parent := by
          rintro rfl
          exact hnew q (hsubnodes ▸ hd'.mem.1) hp
        rw [if_neg hqp, List.append_nil]
        exact h.orphans _ hg q d hd'
  · intro g hg q d hd
    have hqp : q ≠ parent := by
      rintro rfl
      refine h.not_mem (hothers g hg) q ?_ hp
      simpa [Forest.preorder, nodesOf] using hd.mem.1
    rw [childrenOf_append, if_neg hqp, List.append_nil]
    exact h.orphans g (hothers g hg) q d hd
  · rw [hbefore]
    simp
  · rw [hafter]
    simp

/-- A new node is like one that was removed, without anything under it. -/
theorem RunIs.new (h : RunIs s f gs) {node : Nat} (hnode : node ∉ f.preorder)
    (hnull : node ≠ NULL) (hlt : node < 4294967296) (data : Nat) :
    RunIs ⟨⟨generic_tree_node_init s.tree.nodes node data, s.tree.root⟩,
        node :: s.removed.filter fun x => node ∉ members ⟨s.tree.nodes, x⟩,
        s.inserted.filter fun e => e.1 ≠ node ∧ e.2 ≠ node⟩ f
      ((node, .nil) :: gs.filter fun g => node ∉ nodesOf g) := by
  have hinit : generic_tree_node_init s.tree.nodes node data =
      Function.update s.tree.nodes node ⟨NULL, NULL, NULL, data⟩ := if_neg hnull
  have hsame : ∀ a, a ≠ node → generic_tree_node_init s.tree.nodes node data a =
      s.tree.nodes a := by
    intro a ha
    rw [hinit, Function.update_of_ne ha]
  have hkept : ∀ g ∈ gs.filter fun g => node ∉ nodesOf g, g ∈ gs ∧ node ∉ nodesOf g := by
    intro g hg
    simpa using hg
  have hpreorder : ∀ g : Nat × Forest Nat, (Forest.node g.1 g.2 .nil).preorder = nodesOf g := by
    intro g
    simp [Forest.preorder, nodesOf]
  -- The nodes that stay have no insertion of the new node.
  have hlog : ∀ p l, p ≠ node → node ∉ l → l = childrenOf s.inserted p →
      l = childrenOf (s.inserted.filter fun e => e.1 ≠ node ∧ e.2 ≠ node) p := by
    intro p l hp hl hchildren
    have hsplit : (s.inserted.filter fun e => e.1 ≠ node ∧ e.2 ≠ node) =
        (s.inserted.filter fun e => e.1 ≠ node).filter fun e => e.2 ≠ node := by
      rw [List.filter_filter]
      apply List.filter_congr
      intro e _
      simp [Bool.and_comm]
    have hparent : childrenOf (s.inserted.filter fun e => e.1 ≠ node) p =
        childrenOf s.inserted p := by
      unfold childrenOf
      rw [List.filter_filter]
      congr 1
      apply List.filter_congr
      intro e _
      by_cases he : e.1 = p
      · simp [he, hp]
      · simp [he]
    rw [hsplit]
    exact childrenOf_keep hl (hchildren.trans hparent.symm)
  refine ⟨h.tree.congr fun a ha => hsame a fun he => hnode (he ▸ ha), ?_, ?_, ?_, ?_, ?_⟩
  · have hmembers : ∀ g ∈ gs, members ⟨s.tree.nodes, g.1⟩ = nodesOf g := by
      intro g hg
      rw [(h.removed g hg).members, hpreorder]
    have hroots : ((gs.map Prod.fst).filter fun x => node ∉ members ⟨s.tree.nodes, x⟩) =
        (gs.filter fun g => node ∉ nodesOf g).map Prod.fst := by
      rw [List.filter_map]
      congr 1
      apply List.filter_congr
      intro g hg
      simp only [Function.comp, hmembers g hg]
    rw [List.map_cons, ← hroots, h.roots]
  · intro g hg
    rcases List.mem_cons.mp hg with rfl | hg
    · exact node_treeIs s.tree.nodes data hnull hlt
    · obtain ⟨hg, hnot⟩ := hkept g hg
      refine (h.removed g hg).congr fun a ha => hsame a ?_
      rintro rfl
      exact hnot (hpreorder g ▸ ha)
  · have hsub : (gs.filter fun g => node ∉ nodesOf g).flatMap nodesOf |>.Sublist
        (gs.flatMap nodesOf) := List.filter_sublist.flatMap nodesOf
    have hrest := h.apart.sublist ((List.Sublist.refl f.preorder).append hsub)
    have hself : nodesOf (node, Forest.nil) = [node] := rfl
    rw [List.flatMap_cons, hself]
    refine (List.perm_append_comm_assoc [node] f.preorder _).nodup_iff.mp
      (List.nodup_cons.mpr ⟨?_, hrest⟩)
    intro hm
    change node ∈ f.preorder ++ _ at hm
    rcases List.mem_append.mp hm with hm | hm
    · exact hnode hm
    · obtain ⟨g, hg, hm⟩ := List.mem_flatMap.mp hm
      exact (hkept g hg).2 hm
  · intro p d hd
    refine hlog p _ (fun he => hnode (he ▸ hd.mem.1)) (fun hm => ?_) (h.children p d hd)
    exact hnode (hd.mem.2 node (Forest.tops_subset d node hm))
  · intro g hg p d hd
    rcases List.mem_cons.mp hg with rfl | hg
    · rcases under_single hd with ⟨rfl, rfl⟩ | hd
      · unfold childrenOf
        rw [List.filter_filter]
        simp only [Forest.tops]
        refine (List.map_eq_nil_iff.mpr (List.filter_eq_nil_iff.mpr fun e _ he => ?_)).symm
        simp only [Bool.and_eq_true, decide_eq_true_eq] at he
        exact he.2.1 he.1
      · exact hd.elim
    · obtain ⟨hg, hnot⟩ := hkept g hg
      have hmem := hd.mem
      rw [hpreorder g] at hmem
      refine hlog p _ (fun he => hnot (he ▸ hmem.1)) (fun hm => ?_) (h.orphans g hg p d hd)
      exact hnot (hmem.2 node (Forest.tops_subset d node hm))

/-- A tree of a root alone. -/
theorem treeStart_is (nodes : Nat → generic_tree_node) {root : Nat} (data : Nat)
    (hnull : root ≠ NULL) (hlt : root < 4294967296) :
    RunIs (treeStart nodes root data) (.node root .nil .nil) [] := by
  refine ⟨node_treeIs nodes data hnull hlt, rfl, ?_, ?_, ?_, ?_⟩
  · intro g hg
    cases hg
  · simp [Forest.preorder]
  · intro p c hc
    rcases under_single hc with ⟨rfl, rfl⟩ | hc
    · rfl
    · exact hc.elim
  · intro g hg
    cases hg

/-- A node of the tree is removed. -/
theorem RunIs.remove (h : RunIs s f gs) {node : Nat} (hnode : node ∈ f.preorder) :
    ∃ t' f' c A B, generic_tree_remove s.tree node = some t' ∧
      RunIs ⟨t', node :: s.removed, s.inserted.filter fun e => e.2 ≠ node⟩ f' ((node, c) :: gs) ∧
      f.Under node c ∧ f.preorder = A ++ (node :: c.preorder) ++ B ∧ f'.preorder = A ++ B := by
  obtain ⟨t', f', c, hrun, hremoved⟩ := remove_treeIs h.tree hnode
  obtain ⟨A, B, hbefore, hafter⟩ := hremoved.order
  have hunder := hremoved.under
  refine ⟨t', f', c, A, B, hrun, ⟨hremoved.tree, ?_, ?_, ?_, ?_, ?_⟩, hunder, hbefore, hafter⟩
  · rw [List.map_cons, h.roots]
  · intro g hg
    rcases List.mem_cons.mp hg with rfl | hg
    · exact hremoved.apart
    · refine (h.removed g hg).congr fun a ha => hremoved.frame a (h.not_mem hg a ?_)
      simpa [Forest.preorder, nodesOf] using ha
  · rw [List.flatMap_cons, ← List.append_assoc]
    refine (List.Perm.nodup_iff ?_).mp h.apart
    exact (hremoved.perm.trans List.perm_append_comm).append_right _
  · intro q d hd
    obtain ⟨d', hd', htops⟩ := hremoved.children q d hd
    have hnodup : d'.tops.Nodup :=
      (hd'.fresh h.tree.nodup).2.sublist (Forest.tops_sublist d')
    rw [childrenOf_forget, ← h.children q d' hd', htops, hnodup.erase_eq_filter]
    apply List.filter_congr
    intro a _
    exact (decide_not).symm
  · intro g hg q d hd
    rcases List.mem_cons.mp hg with rfl | hg
    · have hnot := (hunder.fresh h.tree.nodup).1
      rcases under_single hd with ⟨rfl, rfl⟩ | hd
      · exact childrenOf_keep (fun hm => hnot (Forest.tops_subset d _ hm)) (h.children q d hunder)
      · refine childrenOf_keep (fun hm => hnot ?_) (h.children q d (hunder.trans hd))
        exact hd.mem.2 _ (Forest.tops_subset d _ hm)
    · refine childrenOf_keep (fun hm => h.not_mem hg node ?_ hnode) (h.orphans g hg q d hd)
      have hmem := hd.mem.2 node (Forest.tops_subset d _ hm)
      simpa [Forest.preorder, nodesOf] using hmem

/-! ## Every run -/

theorem insert_new_step (h : RunIs s f gs) {parent node : Nat} (data : Nat)
    (hlegal : s.Legal (.insert_new parent node data)) :
    ∃ t, tree_step s (.insert_new parent node data) = some t ∧ (∃ f' gs', RunIs t f' gs') ∧
      EditsVisits s (.insert_new parent node data) t := by
  have hlegal' := hlegal
  obtain ⟨hp, hnode, hnull, hlt⟩ := hlegal
  rw [h.tree.members] at hp hnode
  obtain ⟨nodes', f', gs', cp, c, A, B, hrun, his, hunder, hg, hbefore, hafter⟩ :=
    (h.new hnode hnull hlt data).again hp List.mem_cons_self
  rw [List.erase_cons_head] at his
  obtain rfl : c = .nil := by
    rcases List.mem_cons.mp hg with heq | hg
    · exact (Prod.mk.inj heq).2
    · simp [nodesOf] at hg
  refine ⟨_, ?_, ⟨f', gs', his⟩, A, parent :: cp.preorder, B, ?_, ?_, ?_⟩
  · rw [tree_step, if_pos hlegal', tree_call, hrun]
    rfl
  · rw [h.tree.visits, hbefore]
  · exact h.tree.visits_under hunder
  · rw [his.tree.visits, hafter]
    rfl

theorem insert_again_step (h : RunIs s f gs) {parent node : Nat}
    (hlegal : s.Legal (.insert_again parent node)) :
    ∃ t, tree_step s (.insert_again parent node) = some t ∧ (∃ f' gs', RunIs t f' gs') ∧
      EditsVisits s (.insert_again parent node) t := by
  have hlegal' := hlegal
  obtain ⟨hp, hnode⟩ := hlegal
  rw [h.tree.members] at hp
  obtain ⟨nodes', f', gs', cp, c, A, B, hrun, his, hunder, hg, hbefore, hafter⟩ :=
    h.again hp hnode
  refine ⟨_, ?_, ⟨f', gs', his⟩, A, parent :: cp.preorder, node :: c.preorder, B, ?_, ?_, ?_, ?_⟩
  · rw [tree_step, if_pos hlegal', tree_call, hrun]
    rfl
  · rw [h.tree.visits, hbefore]
  · exact h.tree.visits_under hunder
  · have hvisits := (h.removed _ hg).visits
    simpa [Forest.preorder] using hvisits
  · rw [his.tree.visits, hafter]

theorem remove_step (h : RunIs s f gs) {node : Nat} (hlegal : s.Legal (.remove node)) :
    ∃ t, tree_step s (.remove node) = some t ∧ (∃ f' gs', RunIs t f' gs') ∧
      EditsVisits s (.remove node) t := by
  have hnode : node ∈ f.preorder := h.tree.members ▸ hlegal
  obtain ⟨t', f', c, A, B, hrun, his, hunder, hbefore, hafter⟩ := h.remove hnode
  refine ⟨_, ?_, ⟨f', _, his⟩, A, node :: c.preorder, B, ?_, ?_, ?_⟩
  · rw [tree_step, if_pos hlegal, tree_call, hrun]
    rfl
  · rw [h.tree.visits, hbefore]
  · exact h.tree.visits_under hunder
  · rw [his.tree.visits, hafter]

theorem tree_step_is (h : RunIs s f gs) (call : TreeCall) (hlegal : s.Legal call) :
    ∃ t, tree_step s call = some t ∧ (∃ f' gs', RunIs t f' gs') ∧ EditsVisits s call t := by
  cases call with
  | insert_new parent node data => exact insert_new_step h data hlegal
  | insert_again parent node => exact insert_again_step h hlegal
  | remove node => exact remove_step h hlegal

end

/-- After every run of insertions and removals the links are those of an ordered tree, which the
traversal visits in preorder, and every further call is met and changes the visits in its place
only. -/
theorem a_tree_stays_ordered_and_an_edit_moves_no_other_visit (nodes : Nat → generic_tree_node)
    {root : Nat} (data : Nat) (hnull : root ≠ NULL) (hlt : root < 4294967296)
    {calls : List TreeCall} {s : TreeRun}
    (hrun : run tree_step (treeStart nodes root data) calls = some s) :
    (∃ f, Ordered s f) ∧
      ∀ call, s.Legal call → ∃ t, tree_step s call = some t ∧ EditsVisits s call t := by
  have hinv : ∃ f gs, RunIs s f gs := by
    refine run_keeps (motive := fun s => ∃ f gs, RunIs s f gs) ?_
      ⟨_, _, treeStart_is nodes data hnull hlt⟩ hrun
    rintro s call t ⟨f, gs, his⟩ hstep
    have hlegal : s.Legal call := by
      by_contra hno
      rw [tree_step, if_neg hno] at hstep
      cases hstep
    obtain ⟨u, hu, his', -⟩ := tree_step_is his call hlegal
    rw [hstep, Option.some.injEq] at hu
    subst hu
    exact his'
  obtain ⟨f, gs, his⟩ := hinv
  refine ⟨⟨f, his.ordered⟩, fun call hlegal => ?_⟩
  obtain ⟨t, hstep, -, hedits⟩ := tree_step_is his call hlegal
  exact ⟨t, hstep, hedits⟩

/-- A node with a child is taken from under the root and put under another. -/
def movedCalls : List TreeCall :=
  [.insert_new 0x10 0x20 0, .insert_new 0x10 0x30 0, .insert_new 0x20 0x40 0, .remove 0x20,
    .insert_again 0x30 0x20]

theorem an_edit_moves_no_other_visit_after_a_subtree_moved :
    ∃ s, run tree_step (treeStart (fun _ => ⟨NULL, NULL, NULL, NULL⟩) 0x10 0) movedCalls =
      some s ∧ (∃ f, Ordered s f) ∧
      ∀ call, s.Legal call → ∃ t, tree_step s call = some t ∧ EditsVisits s call t := by
  have hsome : (run tree_step (treeStart (fun _ => ⟨NULL, NULL, NULL, NULL⟩) 0x10 0)
      movedCalls).isSome = true := by
    decide
  obtain ⟨s, hs⟩ := Option.isSome_iff_exists.mp hsome
  exact ⟨s, hs, a_tree_stays_ordered_and_an_edit_moves_no_other_visit _ 0 (by decide) (by decide)
    hs⟩

end sakana_os
