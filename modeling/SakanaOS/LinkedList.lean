-- The doubly linked list of `linked_list.c`: nodes at addresses, linked both ways,
-- with the ends and the size beside them.
import SakanaOS.Chains
import SakanaOS.Machine
import Mathlib.Data.Finset.Card
import Mathlib.Data.Finset.Dedup

open chains

namespace sakana_os

/-! ## The code -/

structure linked_list_node where
  prev : Nat
  next : Nat
  data : Nat

structure linked_list where
  head : Nat
  tail : Nat
  size : Nat

/-- A list with the nodes of the memory, each at its address. -/
structure ListState where
  nodes : Nat → linked_list_node
  list : linked_list

def set_node_prev (nodes : Nat → linked_list_node) (node v : Nat) : Nat → linked_list_node :=
  Function.update nodes node { nodes node with prev := v }

def set_node_next (nodes : Nat → linked_list_node) (node v : Nat) : Nat → linked_list_node :=
  Function.update nodes node { nodes node with next := v }

def set_node_data (nodes : Nat → linked_list_node) (node v : Nat) : Nat → linked_list_node :=
  Function.update nodes node { nodes node with data := v }

def linked_list_init (nodes : Nat → linked_list_node) : ListState := ⟨nodes, ⟨NULL, NULL, 0⟩⟩

def linked_list_empty (list : linked_list) : Bool := list.head == NULL

/-- The turns of `linked_list_foreach`. `none` for a walk that does not end within the
number of addresses. -/
def foreach_loop (nodes : Nat → linked_list_node) : Nat → Nat → Option (List Nat)
  | 0, _ => none
  | fuel + 1, node =>
    if node = NULL then some []
    else (foreach_loop nodes fuel (nodes node).next).map (node :: ·)

/-- The nodes that the body of `linked_list_foreach` sees, in order. -/
def linked_list_foreach (s : ListState) : Option (List Nat) :=
  foreach_loop s.nodes 4294967296 s.list.head

def linked_list_append (s : ListState) (node : Nat) : ListState :=
  if node = NULL then s
  else if linked_list_empty s.list then
    let list := { s.list with head := node, tail := node }
    let nodes := set_node_prev s.nodes node NULL
    let nodes := set_node_next nodes node NULL
    ⟨nodes, { list with size := add32 list.size 1 }⟩
  else
    let nodes := set_node_prev s.nodes node s.list.tail
    let nodes := set_node_next nodes node NULL
    let nodes := set_node_next nodes s.list.tail node
    ⟨nodes, { s.list with tail := node, size := add32 s.list.size 1 }⟩

def linked_list_remove (s : ListState) (node : Nat) : ListState :=
  if node = NULL then s
  else
    let list := s.list
    let nodes := s.nodes
    let list := if list.head = node then { list with head := (nodes node).next } else list
    let list := if list.tail = node then { list with tail := (nodes node).prev } else list
    let nodes :=
      if (nodes node).prev ≠ NULL then set_node_next nodes (nodes node).prev (nodes node).next
      else nodes
    let nodes :=
      if (nodes node).next ≠ NULL then set_node_prev nodes (nodes node).next (nodes node).prev
      else nodes
    let list := { list with size := sub32 list.size 1 }
    let nodes := set_node_prev nodes node NULL
    ⟨set_node_next nodes node NULL, list⟩

def linked_list_pop_head (s : ListState) : Nat × ListState :=
  let head := s.list.head
  (head, linked_list_remove s head)

/-- The node is taken from the head, as in the source. -/
def linked_list_pop_tail (s : ListState) : Nat × ListState :=
  let tail := s.list.head
  (tail, linked_list_remove s tail)

def linked_list_node_swap (nodes : Nat → linked_list_node) (a b : Nat) : Nat → linked_list_node :=
  let temp := (nodes a).data
  let nodes := set_node_data nodes a (nodes b).data
  set_node_data nodes b temp

/-- The inner loop of the sort, from `next` on. -/
def linked_list_sort_inner (comp : Nat → Nat → Int) (node : Nat) :
    Nat → Nat → (Nat → linked_list_node) → Option (Nat → linked_list_node)
  | 0, _, _ => none
  | fuel + 1, next, nodes =>
    if next = NULL then some nodes
    else
      let nodes :=
        if comp (nodes node).data (nodes next).data > 0 then linked_list_node_swap nodes node next
        else nodes
      linked_list_sort_inner comp node fuel (nodes next).next nodes

def linked_list_sort_outer (comp : Nat → Nat → Int) :
    Nat → Nat → (Nat → linked_list_node) → Option (Nat → linked_list_node)
  | 0, _, _ => none
  | fuel + 1, node, nodes =>
    if node = NULL then some nodes
    else
      (linked_list_sort_inner comp node 4294967296 (nodes node).next nodes).bind fun nodes =>
        linked_list_sort_outer comp fuel (nodes node).next nodes

/-- `none` when a walk does not end within the number of addresses. -/
def linked_list_sort (s : ListState) (comp : Nat → Nat → Int) : Option ListState :=
  (linked_list_sort_outer comp 4294967296 s.list.head s.nodes).map fun nodes => ⟨nodes, s.list⟩

/-! ## The fields after a store -/

section fields

variable (nodes : Nat → linked_list_node) {node a : Nat} (v : Nat)

@[simp] theorem set_prev_next : (set_node_prev nodes node v a).next = (nodes a).next := by
  unfold set_node_prev
  by_cases h : a = node
  · subst h
    rw [Function.update_self]
  · rw [Function.update_of_ne h]

@[simp] theorem set_next_prev : (set_node_next nodes node v a).prev = (nodes a).prev := by
  unfold set_node_next
  by_cases h : a = node
  · subst h
    rw [Function.update_self]
  · rw [Function.update_of_ne h]

@[simp] theorem set_prev_self : (set_node_prev nodes node v node).prev = v := by
  unfold set_node_prev
  rw [Function.update_self]

@[simp] theorem set_next_self : (set_node_next nodes node v node).next = v := by
  unfold set_node_next
  rw [Function.update_self]

theorem set_prev_ne (h : a ≠ node) : set_node_prev nodes node v a = nodes a :=
  Function.update_of_ne h _ _

theorem set_next_ne (h : a ≠ node) : set_node_next nodes node v a = nodes a :=
  Function.update_of_ne h _ _

@[simp] theorem set_data_prev : (set_node_data nodes node v a).prev = (nodes a).prev := by
  unfold set_node_data
  by_cases h : a = node
  · subst h
    rw [Function.update_self]
  · rw [Function.update_of_ne h]

@[simp] theorem set_data_next : (set_node_data nodes node v a).next = (nodes a).next := by
  unfold set_node_data
  by_cases h : a = node
  · subst h
    rw [Function.update_self]
  · rw [Function.update_of_ne h]

end fields

/-! ## The list that the links make -/

/-- The nodes are chained from `NULL` to `NULL`. -/
def NodesChained (nodes : Nat → linked_list_node) (l : List Nat) : Prop :=
  Chain (fun a => (nodes a).prev) (fun a => (nodes a).next) NULL l NULL

structure IsList (s : ListState) (l : List Nat) : Prop where
  head : s.list.head = l.headD NULL
  tail : s.list.tail = l.getLastD NULL
  size : s.list.size = l.length
  chain : NodesChained s.nodes l
  nodup : l.Nodup
  address : ∀ a ∈ l, a ≠ NULL ∧ a < 4294967296

/-- There are fewer nodes than addresses. -/
theorem addresses_length_lt {l : List Nat} (hnodup : l.Nodup)
    (haddress : ∀ a ∈ l, a ≠ NULL ∧ a < 4294967296) : l.length < 4294967296 := by
  have hsub : l.toFinset ⊆ (Finset.range 4294967296).erase 0 := by
    intro a ha
    have haddr := haddress a (List.mem_toFinset.mp ha)
    exact Finset.mem_erase.mpr ⟨haddr.1, Finset.mem_range.mpr haddr.2⟩
  have hcard := Finset.card_le_card hsub
  rw [List.toFinset_card_of_nodup hnodup, Finset.card_erase_of_mem (by simp),
    Finset.card_range] at hcard
  omega

theorem IsList.length_lt {s : ListState} {l : List Nat} (h : IsList s l) :
    l.length < 4294967296 := addresses_length_lt h.nodup h.address

theorem foreach_loop_eq_list {nodes : Nat → linked_list_node} {p : Nat} (l : List Nat)
    (h : Chain (fun a => (nodes a).prev) (fun a => (nodes a).next) p l NULL)
    (haddr : ∀ a ∈ l, a ≠ NULL) {fuel : Nat} (hfuel : l.length < fuel) :
    foreach_loop nodes fuel (l.headD NULL) = some l := by
  induction l generalizing p fuel with
  | nil =>
    obtain ⟨fuel, rfl⟩ := Nat.exists_eq_add_of_lt hfuel
    rfl
  | cons a l ih =>
    obtain ⟨-, h2, h3⟩ := h
    cases fuel with
    | zero => exact absurd hfuel (Nat.not_lt_zero _)
    | succ fuel =>
      have ha : a ≠ NULL := haddr a List.mem_cons_self
      have htail := ih h3 (fun b hb => haddr b (List.mem_cons_of_mem a hb))
        (Nat.lt_of_succ_lt_succ hfuel)
      simp only at h2
      rw [foreach_loop, List.headD_cons, if_neg ha, h2, htail]
      rfl

theorem IsList.foreach {s : ListState} {l : List Nat} (h : IsList s l) :
    linked_list_foreach s = some l := by
  unfold linked_list_foreach
  rw [h.head]
  exact foreach_loop_eq_list l h.chain (fun a ha => (h.address a ha).1) h.length_lt

theorem init_isList (nodes : Nat → linked_list_node) : IsList (linked_list_init nodes) [] :=
  ⟨rfl, rfl, rfl, trivial, List.nodup_nil, fun _ h => absurd h (List.not_mem_nil)⟩

/-! ## Append -/

theorem empty_list_iff {s : ListState} {l : List Nat} (h : IsList s l) :
    linked_list_empty s.list = true ↔ l = [] := by
  unfold linked_list_empty
  rw [beq_iff_eq, h.head]
  cases l with
  | nil => simp
  | cons a l =>
    have ha := (h.address a List.mem_cons_self).1
    simp [ha]

/-- A node that is not in the list goes to its end. -/
theorem append_isList {s : ListState} {l : List Nat} (h : IsList s l) {node : Nat}
    (hne : node ≠ NULL) (hlt : node < 4294967296) (hfresh : node ∉ l) :
    IsList (linked_list_append s node) (l ++ [node]) := by
  have hnodup : (l ++ [node]).Nodup := by
    refine List.nodup_append.mpr ⟨h.nodup, List.nodup_singleton node, ?_⟩
    rintro a ha b hb rfl
    exact hfresh (List.mem_singleton.mp hb ▸ ha)
  have haddress : ∀ a ∈ l ++ [node], a ≠ NULL ∧ a < 4294967296 := by
    intro a ha
    rcases List.mem_append.mp ha with ha | ha
    · exact h.address a ha
    · rw [List.mem_singleton.mp ha]
      exact ⟨hne, hlt⟩
  have hlen := addresses_length_lt hnodup haddress
  have hadd : add32 s.list.size 1 = (l ++ [node]).length := by
    rw [List.length_append, List.length_singleton] at hlen ⊢
    rw [h.size, add32_eq hlen]
  unfold linked_list_append
  rw [if_neg hne]
  by_cases hempty : l = []
  · rw [if_pos ((empty_list_iff h).mpr hempty)]
    subst hempty
    refine ⟨rfl, rfl, hadd, ⟨?_, ?_, trivial⟩, hnodup, haddress⟩
    · simp
    · simp
  · rw [if_neg (fun he => hempty ((empty_list_iff h).mp he))]
    have hmem : s.list.tail ∈ l := by
      rw [h.tail, List.getLastD_eq_getLast?, List.getLast?_eq_some_getLast hempty]
      exact List.getLast_mem hempty
    have htail : node ≠ s.list.tail := fun he => hfresh (he ▸ hmem)
    have hother : ∀ a ∈ l, a ≠ node := fun a ha he => hfresh (he ▸ ha)
    refine ⟨?_, ?_, hadd, chain_append.mpr ⟨?_, ?_, ?_, trivial⟩, hnodup, haddress⟩
    · rw [headD_append]
      cases l with
      | nil => exact absurd rfl hempty
      | cons a l => exact h.head
    · simp
    · apply chain_end h.chain h.nodup
      · intro a ha
        simp only [set_next_prev]
        rw [set_prev_ne _ _ (hother a ha)]
      · intro a ha hlast
        rw [← h.tail] at hlast
        simp only
        rw [set_next_ne _ _ hlast, set_next_ne _ _ (hother a ha), set_prev_next]
      · intro _
        rw [← h.tail]
        exact set_next_self _ _
    · simp only [set_next_prev, set_prev_self]
      exact h.tail
    · simp only
      rw [set_next_ne _ _ htail, set_next_self]
      rfl

/-! ## Remove -/

/-- The nodes after the removal of `x` between the node `p` and the node `n`. -/
def unlinked (nodes : Nat → linked_list_node) (x p n : Nat) : Nat → linked_list_node :=
  let nodes := if p ≠ NULL then set_node_next nodes p n else nodes
  let nodes := if n ≠ NULL then set_node_prev nodes n p else nodes
  set_node_next (set_node_prev nodes x NULL) x NULL

theorem remove_eq {s : ListState} {x p n : Nat} (hx : x ≠ NULL) (hprev : (s.nodes x).prev = p)
    (hnext : (s.nodes x).next = n) (hp : x ≠ p) :
    linked_list_remove s x =
      ⟨unlinked s.nodes x p n,
        ⟨if s.list.head = x then n else s.list.head, if s.list.tail = x then p else s.list.tail,
          sub32 s.list.size 1⟩⟩ := by
  have hkeep : (if p ≠ NULL then set_node_next s.nodes p n else s.nodes) x = s.nodes x := by
    split
    · exact set_next_ne _ _ hp
    · rfl
  unfold linked_list_remove unlinked
  rw [if_neg hx]
  simp only [hprev, hnext, hkeep]
  by_cases hhead : s.list.head = x
  · by_cases htail : s.list.tail = x
    · simp only [hhead, htail, if_true]
    · simp only [hhead, htail, if_true, if_false]
  · by_cases htail : s.list.tail = x
    · simp only [hhead, htail, if_true, if_false]
    · simp only [hhead, htail, if_false]

theorem unlinked_prev {nodes : Nat → linked_list_node} {x p n a : Nat} (ha : a ≠ x) :
    (unlinked nodes x p n a).prev = if n ≠ NULL ∧ a = n then p else (nodes a).prev := by
  have hfirst : ((if p ≠ NULL then set_node_next nodes p n else nodes) a).prev =
      (nodes a).prev := by
    split
    · exact set_next_prev _ _
    · rfl
  have hsecond : ∀ nodes' : Nat → linked_list_node,
      ((if n ≠ NULL then set_node_prev nodes' n p else nodes') a).prev =
        if n ≠ NULL ∧ a = n then p else (nodes' a).prev := by
    intro nodes'
    by_cases hn : n = NULL
    · rw [if_neg (not_not.mpr hn), if_neg (fun h => h.1 hn)]
    · rw [if_pos hn]
      by_cases han : a = n
      · rw [if_pos ⟨hn, han⟩, han, set_prev_self]
      · rw [if_neg (fun h => han h.2), set_prev_ne _ _ han]
  unfold unlinked
  simp only [set_next_prev]
  rw [set_prev_ne _ _ ha, hsecond, hfirst]

theorem unlinked_next {nodes : Nat → linked_list_node} {x p n a : Nat} (ha : a ≠ x) :
    (unlinked nodes x p n a).next = if p ≠ NULL ∧ a = p then n else (nodes a).next := by
  have hfirst : ((if p ≠ NULL then set_node_next nodes p n else nodes) a).next =
      if p ≠ NULL ∧ a = p then n else (nodes a).next := by
    by_cases hp : p = NULL
    · rw [if_neg (not_not.mpr hp), if_neg (fun h => h.1 hp)]
    · rw [if_pos hp]
      by_cases hap : a = p
      · rw [if_pos ⟨hp, hap⟩, hap, set_next_self]
      · rw [if_neg (fun h => hap h.2), set_next_ne _ _ hap]
  have hsecond : ∀ nodes' : Nat → linked_list_node,
      ((if n ≠ NULL then set_node_prev nodes' n p else nodes') a).next = (nodes' a).next := by
    intro nodes'
    split
    · exact set_prev_next _ _
    · rfl
  unfold unlinked
  rw [set_next_ne _ _ ha, set_prev_ne _ _ ha, hsecond, hfirst]

theorem unlinked_self (nodes : Nat → linked_list_node) (x p n : Nat) :
    (unlinked nodes x p n x).prev = NULL ∧ (unlinked nodes x p n x).next = NULL := by
  unfold unlinked
  simp

/-- The end of a part of the list is a member of it, or there is none. -/
theorem last_mem {l : List Nat} (h : l ≠ []) : l.getLastD NULL ∈ l := by
  rw [List.getLastD_eq_getLast?, List.getLast?_eq_some_getLast h]
  exact List.getLast_mem h

theorem first_mem {l : List Nat} (h : l ≠ []) : l.headD NULL ∈ l := by
  cases l with
  | nil => exact absurd rfl h
  | cons a l => exact List.mem_cons_self

/-- The links of the others after a removal. -/
theorem unlinked_chained {nodes : Nat → linked_list_node} {l r : List Nat} {x : Nat}
    (h : NodesChained nodes (l ++ x :: r)) (hnodup : (l ++ x :: r).Nodup)
    (haddr : ∀ a ∈ l ++ x :: r, a ≠ NULL) :
    NodesChained (unlinked nodes x (l.getLastD NULL) (r.headD NULL)) (l ++ r) := by
  obtain ⟨hl, hxr, hapart⟩ := List.nodup_append.mp hnodup
  obtain ⟨hxmem, hr⟩ := List.nodup_cons.mp hxr
  obtain ⟨hchain, -, -, hrest⟩ := chain_append.mp h
  have hlx : ∀ a ∈ l, a ≠ x := fun a ha => hapart a ha x List.mem_cons_self
  have hrx : ∀ a ∈ r, a ≠ x := fun a ha he => hxmem (he ▸ ha)
  have hlr : ∀ a ∈ l, ∀ b ∈ r, a ≠ b := fun a ha b hb => hapart a ha b (List.mem_cons_of_mem x hb)
  have hlnull : ∀ a ∈ l, a ≠ NULL := fun a ha => haddr a (List.mem_append_left _ ha)
  have hrnull : ∀ a ∈ r, a ≠ NULL := fun a ha =>
    haddr a (List.mem_append_right _ (List.mem_cons_of_mem x ha))
  refine chain_append.mpr ⟨chain_end hchain hl ?_ ?_ ?_, chain_start hrest hr ?_ ?_ ?_⟩
  · intro a ha
    rw [unlinked_prev (hlx a ha), if_neg]
    rintro ⟨hnull, rfl⟩
    have hne : r ≠ [] := fun he => hnull (by rw [he]; rfl)
    exact hlr _ ha _ (first_mem hne) rfl
  · intro a ha hlast
    rw [unlinked_next (hlx a ha), if_neg (fun he => hlast he.2)]
  · intro hne
    have hmem := last_mem hne
    rw [unlinked_next (hlx _ hmem), if_pos ⟨hlnull _ hmem, rfl⟩]
  · intro a ha
    rw [unlinked_next (hrx a ha), if_neg]
    rintro ⟨hnull, rfl⟩
    have hne : l ≠ [] := fun he => hnull (by rw [he]; rfl)
    exact hlr _ (last_mem hne) _ ha rfl
  · intro a ha hfirst
    rw [unlinked_prev (hrx a ha), if_neg (fun he => hfirst he.2)]
  · intro hne
    have hmem := first_mem hne
    rw [unlinked_prev (hrx _ hmem), if_pos ⟨hrnull _ hmem, rfl⟩]

theorem remove_unlinks {s : ListState} {l r : List Nat} {x : Nat} (h : IsList s (l ++ x :: r)) :
    linked_list_remove s x =
      ⟨unlinked s.nodes x (l.getLastD NULL) (r.headD NULL),
        ⟨if s.list.head = x then r.headD NULL else s.list.head,
          if s.list.tail = x then l.getLastD NULL else s.list.tail, sub32 s.list.size 1⟩⟩ := by
  obtain ⟨hprev, hnext⟩ := chain_middle h.chain
  have hx : x ≠ NULL := (h.address x (by simp)).1
  have hp : x ≠ l.getLastD NULL := by
    by_cases hne : l = []
    · rw [hne]
      exact hx
    · exact ((List.nodup_append.mp h.nodup).2.2 _ (last_mem hne) x List.mem_cons_self).symm
  exact remove_eq hx hprev hnext hp

/-- A member goes, and the others stay in their order. -/
theorem remove_isList {s : ListState} {l r : List Nat} {x : Nat} (h : IsList s (l ++ x :: r)) :
    IsList (linked_list_remove s x) (l ++ r) := by
  obtain ⟨hl, hxr, hapart⟩ := List.nodup_append.mp h.nodup
  obtain ⟨hxmem, hr⟩ := List.nodup_cons.mp hxr
  have hlen := h.length_lt
  have hsize := h.size
  rw [List.length_append, List.length_cons] at hlen hsize
  rw [remove_unlinks h]
  refine ⟨?_, ?_, ?_, unlinked_chained h.chain h.nodup fun a ha => (h.address a ha).1,
    List.nodup_append.mpr ⟨hl, hr, ?_⟩, ?_⟩
  · simp only [h.head]
    cases l with
    | nil => rw [List.nil_append, List.headD_cons, if_pos rfl, List.nil_append]
    | cons a l =>
      rw [List.cons_append, List.headD_cons, List.cons_append, List.headD_cons, if_neg]
      exact hapart a List.mem_cons_self x List.mem_cons_self
  · simp only [h.tail, getLastD_append, List.getLastD_cons]
    cases r with
    | nil => exact if_pos rfl
    | cons c r =>
      have hmem : (c :: r).getLastD NULL ∈ c :: r := last_mem (List.cons_ne_nil c r)
      rw [List.getLastD_cons] at hmem ⊢
      rw [List.getLastD_cons, if_neg]
      intro he
      exact hxmem (he ▸ hmem)
  · simp only [List.length_append, hsize]
    rw [sub32_eq (by omega) (by omega)]
    omega
  · intro a ha b hb
    exact hapart a ha b (List.mem_cons_of_mem x hb)
  · intro a ha
    apply h.address
    simp only [List.mem_append, List.mem_cons] at ha ⊢
    rcases ha with ha | ha
    · exact Or.inl ha
    · exact Or.inr (Or.inr ha)

/-- The node that was removed has no links left. -/
theorem remove_self {s : ListState} {l r : List Nat} {x : Nat} (h : IsList s (l ++ x :: r)) :
    ((linked_list_remove s x).nodes x).prev = NULL ∧
      ((linked_list_remove s x).nodes x).next = NULL := by
  rw [remove_unlinks h]
  exact unlinked_self _ _ _ _

/-- A node outside the list is not written by a removal. -/
theorem remove_frame {s : ListState} {l r : List Nat} {x a : Nat} (h : IsList s (l ++ x :: r))
    (ha : a ∉ l ++ x :: r) :
    ((linked_list_remove s x).nodes a).prev = (s.nodes a).prev ∧
      ((linked_list_remove s x).nodes a).next = (s.nodes a).next := by
  simp only [List.mem_append, List.mem_cons, not_or] at ha
  obtain ⟨hl, hx, hr⟩ := ha
  rw [remove_unlinks h]
  refine ⟨?_, ?_⟩
  · rw [unlinked_prev hx, if_neg]
    rintro ⟨hnull, rfl⟩
    have hne : r ≠ [] := fun he => hnull (by rw [he]; rfl)
    exact hr (first_mem hne)
  · rw [unlinked_next hx, if_neg]
    rintro ⟨hnull, rfl⟩
    have hne : l ≠ [] := fun he => hnull (by rw [he]; rfl)
    exact hl (last_mem hne)

/-- An append writes its node and the last node of the list. -/
theorem append_frame {s : ListState} {l : List Nat} (h : IsList s l) {node a : Nat} (ha : a ∉ l)
    (hne : a ≠ node) : (linked_list_append s node).nodes a = s.nodes a := by
  unfold linked_list_append
  split
  · rfl
  · split
    · simp only
      rw [set_next_ne _ _ hne, set_prev_ne _ _ hne]
    · rename_i hempty
      rw [empty_list_iff h] at hempty
      have htail : a ≠ s.list.tail := by
        rw [h.tail]
        rintro rfl
        exact ha (last_mem hempty)
      simp only
      rw [set_next_ne _ _ htail, set_next_ne _ _ hne, set_prev_ne _ _ hne]

end sakana_os
