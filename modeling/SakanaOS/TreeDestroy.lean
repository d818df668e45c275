-- The destruction of the tree of `generic_tree.c` with a deallocator that may write over all that
-- it gets: each node goes there after all that is under it, and nothing is read afterwards.
import SakanaOS.GenericTree
import Mathlib.Data.List.Nodup

open forests

namespace sakana_os

/-! ## The code -/

/-- A memory with nodes and trees, and the function that frees one of the pointers that a client
holds. The nodes at the other ones stay. -/
structure Deallocator (S : Type) where
  nodes : S → Nat → generic_tree_node
  tree_root : S → Nat → Nat
  deallocator : S → Nat → S
  Holds : S → List Nat → Prop
  once : ∀ {s live}, Holds s live → live.Nodup
  frees : ∀ {s live p}, Holds s live → p ∈ live → Holds (deallocator s p) (live.erase p)
  keeps : ∀ {s live p}, Holds s live → p ∈ live →
    ∀ a ∈ live.erase p, nodes (deallocator s p) a = nodes s a

/-- What a destruction does with the memory: it reads a field, or calls the deallocator. -/
inductive TreeEvent where
  | read_root (tree : Nat)
  | read_child (node : Nat)
  | read_slide (node : Nat)
  | read_data (node : Nat)
  | free (ptr : Nat)
  deriving DecidableEq

open TreeEvent

section

variable {S : Type} (d : Deallocator S) (free_data : Bool)

/-- The end of `_generic_tree_destroy_recursive`, below the loop. -/
def free_node (node : Nat) (s : S) : List TreeEvent × S :=
  if free_data then
    let data := (d.nodes s node).data
    ([read_data node, free data, free node], d.deallocator (d.deallocator s data) node)
  else ([free node], d.deallocator s node)

mutual

/-- The recursion of `generic_tree_destroy` with what it does, and the loop over the children.
`none` for a walk that does not end within twice the number of addresses. -/
def destroy_recursive : Nat → Nat → S → Option (List TreeEvent × S)
  | 0, _, _ => none
  | fuel + 1, node, s =>
    if (d.nodes s node).child ≠ NULL then
      (destroy_children fuel (d.nodes s node).child s).map fun r =>
        let last := free_node d free_data node r.2
        ([read_child node, read_child node] ++ r.1 ++ last.1, last.2)
    else
      let last := free_node d free_data node s
      some (read_child node :: last.1, last.2)

def destroy_children : Nat → Nat → S → Option (List TreeEvent × S)
  | 0, _, _ => none
  | fuel + 1, curr, s =>
    if curr = NULL then some ([], s)
    else
      let slide := (d.nodes s curr).slide
      (destroy_recursive fuel curr s).bind fun r =>
        (destroy_children fuel slide r.2).map fun r' => (read_slide curr :: r.1 ++ r'.1, r'.2)

end

def generic_tree_destroy (tree : Nat) (s : S) : Option (List TreeEvent × S) :=
  if tree = NULL then some ([], s)
  else if d.tree_root s tree ≠ NULL then
    (destroy_recursive d free_data 8589934592 (d.tree_root s tree) s).map fun r =>
      ([read_root tree, read_root tree] ++ r.1 ++ [free tree], d.deallocator r.2 tree)
  else some ([read_root tree, free tree], d.deallocator s tree)

end

/-! ## The events -/

/-- The pointers that go to the deallocator, in order. -/
def freedPointers (events : List TreeEvent) : List Nat :=
  events.filterMap fun
    | free ptr => some ptr
    | _ => none

/-- The pointer through which an event reads. -/
def readFrom : TreeEvent → Option Nat
  | read_root tree => some tree
  | read_child node => some node
  | read_slide node => some node
  | read_data node => some node
  | free _ => none

section

variable (free_data : Bool) (data : Nat → Nat)

/-- The events of the end of a node. -/
def lastEvents (node : Nat) : List TreeEvent :=
  if free_data then [read_data node, free (data node), free node] else [free node]

/-- The events of a node over the events of its children. -/
def nodeEvents (node : Nat) (below : List TreeEvent) : List TreeEvent :=
  read_child node :: (if below = [] then [] else read_child node :: below) ++
    lastEvents free_data data node

/-- The events of the loop over a forest of siblings. -/
def forestEvents : Forest Nat → List TreeEvent
  | .nil => []
  | .node a c s =>
    read_slide a :: nodeEvents free_data data a (forestEvents c) ++ forestEvents s

@[simp] theorem freedPointers_append (E E' : List TreeEvent) :
    freedPointers (E ++ E') = freedPointers E ++ freedPointers E' := List.filterMap_append

/-- What is freed for a node: its data first, when they are freed too. -/
def freedLast (node : Nat) : List Nat := if free_data then [data node, node] else [node]

theorem freed_lastEvents (node : Nat) :
    freedPointers (lastEvents free_data data node) = freedLast free_data data node := by
  unfold lastEvents freedLast
  cases free_data <;> rfl

theorem freed_nodeEvents (node : Nat) (below : List TreeEvent) :
    freedPointers (nodeEvents free_data data node below) =
      freedPointers below ++ freedLast free_data data node := by
  have hchild : ∀ E, freedPointers (read_child node :: E) = freedPointers E := fun _ => rfl
  unfold nodeEvents
  rw [freedPointers_append, hchild, freed_lastEvents]
  by_cases hbelow : below = []
  · rw [if_pos hbelow, hbelow]
  · rw [if_neg hbelow, hchild]

theorem freed_forest_node (a : Nat) (c s : Forest Nat) :
    freedPointers (forestEvents free_data data (.node a c s)) =
      freedPointers (forestEvents free_data data c) ++ freedLast free_data data a ++
        freedPointers (forestEvents free_data data s) := by
  have hslide : ∀ E, freedPointers (read_slide a :: E) = freedPointers E := fun _ => rfl
  rw [forestEvents, freedPointers_append, hslide, freed_nodeEvents]

end

/-! ## What a destruction must do -/

/-- The pointers of a tree: its nodes, and their data when they are freed too. -/
def treePointers (free_data : Bool) (data : Nat → Nat) (f : Forest Nat) : List Nat :=
  f.preorder ++ if free_data then f.preorder.map data else []

/-- Each node, its data when they are to be freed, and last the tree are freed once, each node
after all nodes under it, and nothing is read through a pointer that was freed. -/
structure DestroysTree (events : List TreeEvent) (free_data : Bool) (data : Nat → Nat)
    (f : Forest Nat) (tree : Nat) : Prop where
  once : (freedPointers events).Perm (treePointers free_data data f ++ [tree])
  last : ∃ before, freedPointers events = before ++ [tree]
  under : ∀ p c, f.Under p c → ∀ a ∈ c.preorder, [a, p].Sublist (freedPointers events)
  unread : events.Pairwise fun e e' => ∀ p, e = free p → readFrom e' ≠ some p

section

variable {free_data : Bool} {data : Nat → Nat} {f : Forest Nat}

theorem freed_perm (f : Forest Nat) :
    (freedPointers (forestEvents free_data data f)).Perm (treePointers free_data data f) := by
  induction f with
  | nil => cases free_data <;> exact List.Perm.refl _
  | node a c s ihc ihs =>
    rw [freed_forest_node]
    refine ((ihc.append_right _).append ihs).trans ?_
    unfold treePointers freedLast
    cases free_data with
    | false =>
      simp only [Forest.preorder, Bool.false_eq_true, if_false, List.append_nil]
      exact (List.perm_append_singleton a c.preorder).append_right s.preorder
    | true =>
      simp only [Forest.preorder, if_true, List.map_cons, List.map_append]
      rw [List.perm_iff_count]
      intro x
      simp only [List.count_append, List.count_cons, List.count_nil]
      omega

theorem mem_freed {a : Nat} (ha : a ∈ f.preorder) :
    a ∈ freedPointers (forestEvents free_data data f) :=
  (freed_perm f).symm.subset (List.mem_append_left _ ha)

theorem freedLast_mem (node : Nat) : node ∈ freedLast free_data data node := by
  unfold freedLast
  cases free_data <;> simp

/-- A node is freed behind all nodes under it. -/
theorem freed_under {p : Nat} {c : Forest Nat} (h : f.Under p c) :
    ∀ a ∈ c.preorder, [a, p].Sublist (freedPointers (forestEvents free_data data f)) := by
  induction f with
  | nil => exact h.elim
  | node b d s ihd ihs =>
    intro a ha
    rw [freed_forest_node]
    rcases h with ⟨rfl, rfl⟩ | h | h
    · have hbelow : [a].Sublist (freedPointers (forestEvents free_data data d)) :=
        List.singleton_sublist.mpr (mem_freed ha)
      have hself : [b].Sublist (freedLast free_data data b) :=
        List.singleton_sublist.mpr (freedLast_mem b)
      exact (hbelow.append hself).trans (List.sublist_append_left _ _)
    · exact (ihd h a ha).trans ((List.sublist_append_left _ _).trans (List.sublist_append_left _ _))
    · exact (ihs h a ha).trans (List.sublist_append_right _ _)

/-! ## What is read -/

/-- The pointers that the events read through. -/
def readPointers (events : List TreeEvent) : List Nat := events.filterMap readFrom

@[simp] theorem readPointers_append (E E' : List TreeEvent) :
    readPointers (E ++ E') = readPointers E ++ readPointers E' := List.filterMap_append

theorem read_nodeEvents {node x : Nat} {below : List TreeEvent}
    (hx : x ∈ readPointers (nodeEvents free_data data node below)) :
    x = node ∨ x ∈ readPointers below := by
  have hchild : ∀ E, readPointers (read_child node :: E) = node :: readPointers E := fun _ => rfl
  have hlast : ∀ y ∈ readPointers (lastEvents free_data data node), y = node := by
    unfold lastEvents
    cases free_data <;> simp [readPointers, readFrom]
  unfold nodeEvents at hx
  rw [readPointers_append, hchild] at hx
  rcases List.mem_append.mp hx with hx | hx
  · rcases List.mem_cons.mp hx with rfl | hx
    · exact Or.inl rfl
    · by_cases hbelow : below = []
      · rw [if_pos hbelow] at hx
        cases hx
      · rw [if_neg hbelow, hchild] at hx
        exact List.mem_cons.mp hx
  · exact Or.inl (hlast x hx)

theorem read_forest (f : Forest Nat) :
    ∀ x ∈ readPointers (forestEvents free_data data f), x ∈ f.preorder := by
  induction f with
  | nil =>
    intro x hx
    cases hx
  | node a c s ihc ihs =>
    intro x hx
    have hslide : ∀ E, readPointers (read_slide a :: E) = a :: readPointers E := fun _ => rfl
    rw [forestEvents, readPointers_append, hslide] at hx
    simp only [Forest.preorder, List.mem_cons, List.mem_append]
    rcases List.mem_append.mp hx with hx | hx
    · rcases List.mem_cons.mp hx with rfl | hx
      · exact Or.inl rfl
      · exact (read_nodeEvents hx).imp_right fun hm => Or.inl (ihc x hm)
    · exact Or.inr (Or.inr (ihs x hx))

/-- The second event does not read what the first one frees. -/
def SparesFreed (e e' : TreeEvent) : Prop := ∀ p, e = free p → readFrom e' ≠ some p

/-- Events behind others that free nothing of what they read. -/
theorem spares_append {E E' : List TreeEvent} (h : E.Pairwise SparesFreed)
    (h' : E'.Pairwise SparesFreed) (happart : ∀ p ∈ freedPointers E, p ∉ readPointers E') :
    (E ++ E').Pairwise SparesFreed := by
  refine List.pairwise_append.mpr ⟨h, h', ?_⟩
  rintro e he e' he' p rfl hread
  exact happart p (List.mem_filterMap.mpr ⟨_, he, rfl⟩) (List.mem_filterMap.mpr ⟨e', he', hread⟩)

/-- An event that frees nothing can stand in front. -/
theorem spares_cons {e : TreeEvent} {E : List TreeEvent} (he : ∀ p, e ≠ free p)
    (h : E.Pairwise SparesFreed) : (e :: E).Pairwise SparesFreed :=
  List.pairwise_cons.mpr ⟨fun _ _ p hp => absurd hp (he p), h⟩

theorem spares_node {node : Nat} {below : List TreeEvent} (h : below.Pairwise SparesFreed)
    (hnode : node ∉ freedPointers below) :
    (nodeEvents free_data data node below).Pairwise SparesFreed := by
  have hchild : ∀ p, read_child node ≠ free p := fun p hp => TreeEvent.noConfusion hp
  have hlast : (lastEvents free_data data node).Pairwise SparesFreed := by
    unfold lastEvents
    cases free_data <;> simp [SparesFreed, readFrom]
  have hread : ∀ p ∈ readPointers (lastEvents free_data data node), p = node := by
    unfold lastEvents
    cases free_data <;> simp [readPointers, readFrom]
  unfold nodeEvents
  refine spares_append (spares_cons hchild ?_) hlast fun p hp hp' => ?_
  · by_cases hbelow : below = []
    · rw [if_pos hbelow]
      exact List.Pairwise.nil
    · rw [if_neg hbelow]
      exact spares_cons hchild h
  · rw [hread p hp'] at hp
    apply hnode
    by_cases hbelow : below = []
    · rw [if_pos hbelow] at hp
      cases hp
    · rw [if_neg hbelow] at hp
      exact hp

/-- No pointer is read after it was freed, where none is freed twice. -/
theorem spares_forest (f : Forest Nat)
    (hnodup : (freedPointers (forestEvents free_data data f)).Nodup) :
    (forestEvents free_data data f).Pairwise SparesFreed := by
  induction f with
  | nil => exact List.Pairwise.nil
  | node a c s ihc ihs =>
    rw [freed_forest_node] at hnodup
    obtain ⟨hfront, hs, hdis⟩ := List.nodup_append.mp hnodup
    obtain ⟨hc, -, hself⟩ := List.nodup_append.mp hfront
    have hslide : ∀ p, read_slide a ≠ free p := fun p hp => TreeEvent.noConfusion hp
    rw [forestEvents]
    refine spares_append (spares_cons hslide (spares_node (ihc hc) ?_)) (ihs hs) ?_
    · exact fun ha => hself a ha a (freedLast_mem a) rfl
    · intro p hp hp'
      have hp : p ∈ freedPointers (nodeEvents free_data data a (forestEvents free_data data c)) :=
        hp
      rw [freed_nodeEvents] at hp
      exact hdis p hp p (mem_freed (read_forest s p hp')) rfl

/-! ## The walk -/

/-- The events, and what they leave of the memory in which the pointers `live` are held. -/
def Spends {S : Type} (d : Deallocator S) (s : S) (live : List Nat) (E : List TreeEvent) (s' : S) :
    Prop :=
  d.Holds s' (live.diff (freedPointers E)) ∧
    ∀ a ∈ live.diff (freedPointers E), d.nodes s' a = d.nodes s a

variable {S : Type} {d : Deallocator S} {s s' s'' : S} {live : List Nat}

theorem Spends.append {E E' : List TreeEvent} (h : Spends d s live E s')
    (h' : Spends d s' (live.diff (freedPointers E)) E' s'') : Spends d s live (E ++ E') s'' := by
  unfold Spends at h' ⊢
  rw [freedPointers_append, List.diff_append]
  refine ⟨h'.1, fun a ha => ?_⟩
  rw [h'.2 a ha, h.2 a (List.diff_subset _ _ ha)]

theorem Spends.reads {E : List TreeEvent} {e : TreeEvent} (h : Spends d s live E s')
    (he : ∀ p, e ≠ free p) : Spends d s live (e :: E) s' := by
  have hsame : freedPointers (e :: E) = freedPointers E := by
    cases e with
    | free p => exact absurd rfl (he p)
    | _ => rfl
  unfold Spends
  rw [hsame]
  exact h

theorem frees_one {p : Nat} (h : d.Holds s live) (hp : p ∈ live) :
    Spends d s live [free p] (d.deallocator s p) := by
  have hdiff : live.diff (freedPointers [free p]) = live.erase p := by
    change live.diff [p] = _
    rw [List.diff_cons, List.diff_nil]
  unfold Spends
  rw [hdiff]
  exact ⟨d.frees h hp, d.keeps h hp⟩

/-- What is left of the pointers holds those that were not freed. -/
theorem mem_left {P : List Nat} {a : Nat} (hlive : live.Nodup) (ha : a ∈ live) (hP : a ∉ P) :
    a ∈ live.diff P := (List.Nodup.mem_sdiff_iff hlive).mpr ⟨ha, hP⟩

/-- The end of a node. -/
theorem free_node_spec {node : Nat} (h : d.Holds s live)
    (hsub : ∀ p ∈ freedLast free_data data node, p ∈ live)
    (hnodup : (freedLast free_data data node).Nodup) (hdata : (d.nodes s node).data = data node) :
    ∃ s', free_node d free_data node s = (lastEvents free_data data node, s') ∧
      Spends d s live (lastEvents free_data data node) s' := by
  unfold free_node lastEvents
  unfold freedLast at hsub hnodup
  cases free_data with
  | false => exact ⟨_, rfl, frees_one h (hsub node List.mem_cons_self)⟩
  | true =>
    simp only [if_true, hdata] at hsub hnodup ⊢
    have hfirst := frees_one h (hsub (data node) List.mem_cons_self)
    have hne : node ≠ data node := by
      rintro he
      rw [← he] at hnodup
      simp at hnodup
    have hleft : node ∈ live.diff [data node] := by
      rw [List.diff_cons, List.diff_nil]
      exact (List.mem_erase_of_ne hne).mpr (hsub node (by simp))
    have hread : ∀ p, read_data node ≠ free p := fun p hp => TreeEvent.noConfusion hp
    exact ⟨_, rfl, (hfirst.append (frees_one hfirst.1 hleft)).reads hread⟩

/-- The node over the forest of its children, when the loop over these is done. -/
theorem destroy_recursive_spec {node : Nat} {c : Forest Nat} {fuel : Nat}
    (hchild : (d.nodes s node).child = c.first NULL) (hnull : ∀ a ∈ c.preorder, a ≠ NULL)
    (hlive : live.Nodup)
    (hsub : ∀ p ∈ freedLast free_data data node, p ∈ live)
    (hnodup : (freedLast free_data data node).Nodup) (hdata : (d.nodes s node).data = data node)
    (hleft : ∀ p ∈ freedLast free_data data node,
      p ∉ freedPointers (forestEvents free_data data c))
    (hloop : destroy_children d free_data fuel (c.first NULL) s =
      some (forestEvents free_data data c, s'))
    (hfrees : Spends d s live (forestEvents free_data data c) s') :
    ∃ s'', destroy_recursive d free_data (fuel + 1) node s =
        some (nodeEvents free_data data node (forestEvents free_data data c), s'') ∧
      Spends d s live (nodeEvents free_data data node (forestEvents free_data data c)) s'' := by
  have hnode := mem_left hlive (hsub node (freedLast_mem node)) (hleft node (freedLast_mem node))
  have hdata' : (d.nodes s' node).data = data node := by
    rw [hfrees.2 node hnode]
    exact hdata
  obtain ⟨s'', hlast, hfrees'⟩ := free_node_spec hfrees.1
    (fun p hp => mem_left hlive (hsub p hp) (hleft p hp)) hnodup hdata'
  have hread : ∀ p, read_child node ≠ free p := fun p hp => TreeEvent.noConfusion hp
  have hall := (hfrees.append hfrees').reads hread
  rw [destroy_recursive, hchild, hloop]
  cases c with
  | nil =>
    rw [Forest.first, if_neg (not_not.mpr rfl)]
    have hsame : s' = s := by
      obtain ⟨fuel, rfl⟩ : ∃ n, fuel = n + 1 := by
        cases fuel with
        | zero => cases hloop
        | succ n => exact ⟨n, rfl⟩
      rw [Forest.first, destroy_children, if_pos rfl] at hloop
      cases hloop
      rfl
    rw [hsame] at hlast
    rw [hlast]
    exact ⟨s'', rfl, hall⟩
  | node b cb sb =>
    rw [Forest.first, if_pos (hnull b List.mem_cons_self), Option.map_some, hlast]
    exact ⟨s'', rfl, hall.reads hread⟩

/-- The loop over siblings frees all that is in the forest. -/
theorem destroy_children_spec (f : Forest Nat) {q : Nat} {s : S} {live : List Nat}
    (h : Forest.Formed (linksOf (d.nodes s)) NULL q f) (hnull : ∀ a ∈ f.preorder, a ≠ NULL)
    (hholds : d.Holds s live)
    (hsub : ∀ p ∈ freedPointers (forestEvents free_data data f), p ∈ live)
    (hnodup : (freedPointers (forestEvents free_data data f)).Nodup)
    (hdata : ∀ a ∈ f.preorder, (d.nodes s a).data = data a) (fuel : Nat)
    (hfuel : 2 * f.preorder.length < fuel) :
    ∃ s', destroy_children d free_data fuel (f.first NULL) s =
        some (forestEvents free_data data f, s') ∧
      Spends d s live (forestEvents free_data data f) s' := by
  induction f generalizing q s live fuel with
  | nil =>
    obtain ⟨fuel, rfl⟩ : ∃ n, fuel = n + 1 := ⟨fuel - 1, by omega⟩
    refine ⟨s, ?_, hholds, fun _ _ => rfl⟩
    rw [Forest.first, destroy_children, if_pos rfl]
    rfl
  | node a c sb ihc ihs =>
    obtain ⟨-, h2, h3, h4, h5⟩ := h
    simp only [linksOf] at h2 h3
    rw [freed_forest_node] at hsub hnodup
    simp only [Forest.preorder, List.mem_cons, List.mem_append] at hnull hdata
    have hlen : (Forest.node a c sb).preorder.length =
        c.preorder.length + sb.preorder.length + 1 := by
      simp [Forest.preorder]
    obtain ⟨fuel, rfl⟩ : ∃ n, fuel = n + 2 := ⟨fuel - 2, by omega⟩
    obtain ⟨hfront, hs, hdis⟩ := List.nodup_append.mp hnodup
    obtain ⟨hc, hself, hdis'⟩ := List.nodup_append.mp hfront
    obtain ⟨s₁, hloop, hfrees⟩ := ihc h4 (fun b hb => hnull b (Or.inr (Or.inl hb))) hholds
      (fun p hp => hsub p (by simp [hp])) hc (fun b hb => hdata b (Or.inr (Or.inl hb))) fuel
      (by omega)
    obtain ⟨s₂, hrec, hfrees₂⟩ := destroy_recursive_spec h2
      (fun b hb => hnull b (Or.inr (Or.inl hb))) (d.once hholds)
      (fun p hp => hsub p (by simp [hp])) hself
      (hdata a (Or.inl rfl)) (fun p hp hp' => hdis' p hp' p hp rfl) hloop hfrees
    -- The siblings are held still, and their links are as they were.
    have hfreed := freed_nodeEvents free_data data a (forestEvents free_data data c)
    have hheld : ∀ p ∈ freedPointers (forestEvents free_data data sb), p ∈ live.diff
        (freedPointers (nodeEvents free_data data a (forestEvents free_data data c))) := by
      intro p hp
      rw [hfreed]
      exact mem_left (d.once hholds) (hsub p (by simp [hp])) fun hp' => hdis p hp' p hp rfl
    have hsame : ∀ b ∈ sb.preorder, d.nodes s₂ b = d.nodes s b := fun b hb =>
      hfrees₂.2 b (hheld b (mem_freed hb))
    obtain ⟨s₃, hloop₃, hfrees₃⟩ := ihs
      (h5.congr fun b hb => by simp only [linksOf, hsame b hb, and_self])
      (fun b hb => hnull b (Or.inr (Or.inr hb))) hfrees₂.1 hheld hs
      (fun b hb => by rw [hsame b hb]; exact hdata b (Or.inr (Or.inr hb))) (fuel + 1) (by omega)
    have hread : ∀ p, read_slide a ≠ free p := fun p hp => TreeEvent.noConfusion hp
    refine ⟨s₃, ?_, (hfrees₂.append hfrees₃).reads hread⟩
    rw [Forest.first, destroy_children, if_neg (hnull a (Or.inl rfl)), h3, hrec, Option.bind_some,
      hloop₃]
    rfl

end

/-! ## Every tree -/

section

variable {S : Type} {d : Deallocator S} {free_data : Bool} {data : Nat → Nat} {c f : Forest Nat}
  {root tree : Nat}

/-- What all of a destruction does with a tree that has a root. -/
def treeEvents (free_data : Bool) (data : Nat → Nat) (root tree : Nat) (c : Forest Nat) :
    List TreeEvent :=
  [read_root tree, read_root tree] ++ nodeEvents free_data data root (forestEvents free_data data c)
    ++ [free tree]

theorem freed_treeEvents : freedPointers (treeEvents free_data data root tree c) =
    freedPointers (forestEvents free_data data (.node root c .nil)) ++ [tree] := by
  have hroot : ∀ E, freedPointers (read_root tree :: read_root tree :: E) = freedPointers E :=
    fun _ => rfl
  have hlast : freedPointers [free tree] = [tree] := rfl
  unfold treeEvents
  rw [freedPointers_append, List.cons_append, List.cons_append, List.nil_append, hroot, hlast,
    freed_nodeEvents, freed_forest_node]
  simp [forestEvents, freedPointers]

theorem treeEvents_destroy (hnodup : (treePointers free_data data (.node root c .nil) ++
    [tree]).Nodup) :
    DestroysTree (treeEvents free_data data root tree c) free_data data (.node root c .nil)
      tree := by
  have hperm := @freed_perm free_data data (.node root c .nil)
  have hfreed := hperm.nodup_iff.mpr (List.nodup_append.mp hnodup).1
  refine ⟨?_, ⟨_, freed_treeEvents⟩, fun p b hunder a ha => ?_, ?_⟩
  · rw [freed_treeEvents]
    exact hperm.append_right [tree]
  · rw [freed_treeEvents]
    exact (freed_under hunder a ha).trans (List.sublist_append_left _ _)
  · rw [freed_forest_node] at hfreed
    obtain ⟨hc, -, hself⟩ := List.nodup_append.mp (List.nodup_append.mp hfreed).1
    have hroot : ∀ p, read_root tree ≠ free p := fun p hp => TreeEvent.noConfusion hp
    have hnode := @spares_node free_data data root _ (spares_forest c hc) fun hm =>
      hself root hm root (freedLast_mem root) rfl
    unfold treeEvents
    refine spares_append (spares_cons hroot (spares_cons hroot hnode)) (List.pairwise_singleton _ _)
      fun p _ hp => ?_
    cases hp

theorem empty_destroy (free_data : Bool) (data : Nat → Nat) (tree : Nat) :
    DestroysTree [read_root tree, free tree] free_data data .nil tree := by
  refine ⟨?_, ⟨[], rfl⟩, fun p b hunder => hunder.elim, ?_⟩
  · cases free_data <;> exact List.Perm.refl _
  · refine spares_cons (fun p hp => TreeEvent.noConfusion hp) (List.pairwise_singleton _ _)

end

/-- A tree of any shape is freed once, from below, and nothing is read after it was freed. -/
theorem a_tree_is_freed_once_from_below {S : Type} (d : Deallocator S) (free_data : Bool) {s : S}
    {tree : Nat} (htree : tree ≠ NULL) {f : Forest Nat}
    (h : TreeIs ⟨d.nodes s, d.tree_root s tree⟩ f) {live : List Nat} (hholds : d.Holds s live)
    (hsub : ∀ p ∈ treePointers free_data (fun a => (d.nodes s a).data) f ++ [tree], p ∈ live)
    (hdistinct : (treePointers free_data (fun a => (d.nodes s a).data) f ++ [tree]).Nodup) :
    ∃ events s', generic_tree_destroy d free_data tree s = some (events, s') ∧
      DestroysTree events free_data (fun a => (d.nodes s a).data) f tree := by
  unfold generic_tree_destroy
  rw [if_neg htree]
  rcases h.cases with ⟨hroot, rfl⟩ | ⟨c, hf, hroot, hchild⟩
  · have hroot : d.tree_root s tree = NULL := hroot
    rw [if_neg (not_not.mpr hroot)]
    exact ⟨_, _, rfl, empty_destroy free_data _ tree⟩
  · have hlen := h.length_lt
    obtain ⟨-, -, -, hformed, -⟩ := hf ▸ h.formed
    have hperm := @freed_perm free_data (fun a => (d.nodes s a).data) f
    have hnodup := hperm.nodup_iff.mpr (List.nodup_append.mp hdistinct).1
    have hheld := fun p hp => hsub p (List.mem_append_left _ (hperm.subset hp))
    simp only at hf hroot hchild
    subst hf
    rw [freed_forest_node] at hnodup hheld
    obtain ⟨hc, hself, hdis⟩ := List.nodup_append.mp (List.nodup_append.mp hnodup).1
    have hmem : ∀ b ∈ c.preorder, b ∈ (Forest.node (d.tree_root s tree) c .nil).preorder :=
      fun b hb => List.mem_cons_of_mem _ (List.mem_append_left _ hb)
    have hnull : ∀ b ∈ c.preorder, b ≠ NULL := fun b hb => (h.address b (hmem b hb)).1
    obtain ⟨s₁, hloop, hfrees⟩ := destroy_children_spec c hformed hnull hholds
      (fun p hp => hheld p (by simp [hp])) hc (fun _ _ => rfl) 8589934591 (by
        simp only [Forest.preorder, List.length_cons, List.length_append] at hlen
        omega)
    obtain ⟨s₂, hrec, -⟩ := destroy_recursive_spec hchild hnull (d.once hholds)
      (fun p hp => hheld p (by simp [hp])) hself rfl
      (fun p hp hp' => hdis p hp' p hp rfl) hloop hfrees
    have hfuel : 8589934592 = 8589934591 + 1 := rfl
    rw [if_pos hroot, hfuel, hrec]
    exact ⟨_, _, rfl, treeEvents_destroy hdistinct⟩

/-- A deallocator that writes over each node that it gets. -/
def wiping : Deallocator (Nat → generic_tree_node) where
  nodes := fun nodes => nodes
  tree_root := fun _ _ => 0x10
  deallocator := fun nodes p => Function.update nodes p ⟨0xDEAD, 0xDEAD, 0xDEAD, 0xDEAD⟩
  Holds := fun _ live => live.Nodup
  once := fun h => h
  frees := fun h _ => h.erase _
  keeps := fun h _ _ ha => Function.update_of_ne (h.mem_erase_iff.mp ha).1 _ _

/-- A root with two children. -/
def twoLeaves : Nat → generic_tree_node := fun a =>
  if a = 0x10 then ⟨NULL, NULL, 0x20, 0x110⟩
  else if a = 0x20 then ⟨0x10, 0x30, NULL, 0x120⟩
  else ⟨0x10, NULL, NULL, 0x130⟩

theorem a_tree_with_two_leaves_is_freed_once :
    ∃ events s', generic_tree_destroy wiping true 0x8 twoLeaves = some (events, s') ∧
      DestroysTree events true (fun a => (twoLeaves a).data)
        (.node 0x10 (.node 0x20 .nil (.node 0x30 .nil .nil)) .nil) 0x8 := by
  have htree : TreeIs ⟨twoLeaves, 0x10⟩
      (.node 0x10 (.node 0x20 .nil (.node 0x30 .nil .nil)) .nil) :=
    ⟨rfl, ⟨rfl, rfl, rfl, ⟨rfl, rfl, rfl, trivial, rfl, rfl, rfl, trivial, trivial⟩, trivial⟩,
      by decide, by decide, by decide⟩
  have hheld : wiping.Holds twoLeaves [0x10, 0x20, 0x30, 0x110, 0x120, 0x130, 0x8] :=
    show List.Nodup _ by decide
  exact a_tree_is_freed_once_from_below wiping true (by decide) htree hheld (fun _ hp => hp)
    (by decide)

end sakana_os
