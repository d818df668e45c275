-- Runs of calls on a linked list: the links stay in order under every call, and the
-- list is a deque as long as the tail is popped from short lists only.
import SakanaOS.ListSort
import SakanaOS.Runs

open chains runs

namespace sakana_os

/-! ## Calls -/

inductive ListCall where
  | append (node : Nat)
  | remove (node : Nat)
  | pop_head
  | pop_tail
  | sort (comp : Nat → Nat → Int)

/-- A list with the nodes that were returned, and those that were taken out and not
appended again. -/
structure ListRun where
  list : ListState
  returned : List Nat
  removed : List Nat

def in_list (s : ListState) (node : Nat) : Bool :=
  match linked_list_foreach s with
  | some l => l.contains node
  | none => false

/-- The run after a removal at an end. -/
def ListRun.popped (s : ListRun) (r : Nat × ListState) : ListRun where
  list := r.2
  returned := s.returned ++ [r.1]
  removed := if r.1 = NULL then s.removed else r.1 :: s.removed

/-- One call. Only nodes that are not in the list are appended, and only members are
removed. -/
def list_step (s : ListRun) : ListCall → Option ListRun
  | .append node =>
    if node ≠ NULL ∧ node < 4294967296 ∧ in_list s.list node = false then
      some { s with
        list := linked_list_append s.list node
        removed := s.removed.filter fun a => a != node }
    else none
  | .remove node =>
    if in_list s.list node = true then
      some { s with list := linked_list_remove s.list node, removed := node :: s.removed }
    else none
  | .pop_head => some (s.popped (linked_list_pop_head s.list))
  | .pop_tail => some (s.popped (linked_list_pop_tail s.list))
  | .sort comp => (linked_list_sort s.list comp).map fun t => { s with list := t }

def listStart (nodes : Nat → linked_list_node) : ListRun := ⟨linked_list_init nodes, [], []⟩

theorem in_list_iff {s : ListState} {l : List Nat} (h : IsList s l) {node : Nat} :
    in_list s node = true ↔ node ∈ l := by
  unfold in_list
  rw [h.foreach]
  exact List.contains_iff_mem

/-! ## What the calls do to the nodes of the list -/

/-- The nodes after a call. Both removals at an end take the first. -/
def listEffect (l : List Nat) : ListCall → List Nat
  | .append node => l ++ [node]
  | .remove node => l.erase node
  | .pop_head => l.tail
  | .pop_tail => l.tail
  | .sort _ => l

/-- What a call adds to the nodes that were returned. -/
def listReturn (l : List Nat) : ListCall → List Nat
  | .pop_head => [l.headD NULL]
  | .pop_tail => [l.headD NULL]
  | _ => []

/-- The nodes of the list are chained, and the nodes that were taken out have no links. -/
structure ListInvariant (s : ListRun) (l : List Nat) : Prop where
  list : IsList s.list l
  loose : ∀ a ∈ s.removed, a ∉ l ∧ (s.list.nodes a).prev = NULL ∧ (s.list.nodes a).next = NULL

theorem erase_middle {l r : List Nat} {x : Nat} (h : (l ++ x :: r).Nodup) :
    (l ++ x :: r).erase x = l ++ r := by
  have hx : x ∉ l := fun hl => (List.nodup_append.mp h).2.2 x hl x List.mem_cons_self rfl
  rw [List.erase_append_right _ hx, List.erase_cons_head]

theorem removed_invariant {s : ListRun} {l r : List Nat} {x : Nat}
    (h : ListInvariant s (l ++ x :: r)) (returned : List Nat) :
    ListInvariant ⟨linked_list_remove s.list x, returned, x :: s.removed⟩ (l ++ r) := by
  refine ⟨remove_isList h.list, ?_⟩
  intro a ha
  obtain ⟨-, hxr, hapart⟩ := List.nodup_append.mp h.list.nodup
  rcases List.mem_cons.mp ha with rfl | ha
  · refine ⟨?_, remove_self h.list⟩
    rw [List.mem_append, not_or]
    exact ⟨fun hl => hapart a hl a List.mem_cons_self rfl, (List.nodup_cons.mp hxr).1⟩
  · obtain ⟨hout, hprev, hnext⟩ := h.loose a ha
    obtain ⟨hprev', hnext'⟩ := remove_frame h.list hout
    refine ⟨?_, hprev'.trans hprev, hnext'.trans hnext⟩
    intro hin
    apply hout
    rcases List.mem_append.mp hin with hin | hin
    · exact List.mem_append_left _ hin
    · exact List.mem_append_right _ (List.mem_cons_of_mem x hin)

theorem popped_invariant {s : ListRun} {l : List Nat} (h : ListInvariant s l) :
    ListInvariant (s.popped (linked_list_pop_head s.list)) l.tail := by
  unfold ListRun.popped linked_list_pop_head
  simp only [h.list.head]
  cases l with
  | nil => exact ⟨h.list, h.loose⟩
  | cons a l =>
    have ha : a ≠ NULL := (h.list.address a List.mem_cons_self).1
    rw [List.headD_cons, if_neg ha]
    exact removed_invariant (l := []) h _

/-- One call: its effect on the nodes of the list, and its result. -/
theorem list_step_spec {s t : ListRun} {l : List Nat} {call : ListCall} (h : ListInvariant s l)
    (hstep : list_step s call = some t) :
    ListInvariant t (listEffect l call) ∧ t.returned = s.returned ++ listReturn l call := by
  cases call with
  | append node =>
    obtain ⟨hcond, heq⟩ := Option.ite_none_right_eq_some.mp hstep
    obtain ⟨hne, hlt, hin⟩ := hcond
    cases heq
    have hfresh : node ∉ l := by
      rw [← in_list_iff h.list, hin]
      exact Bool.false_ne_true
    refine ⟨⟨append_isList h.list hne hlt hfresh, ?_⟩, (List.append_nil _).symm⟩
    intro a ha
    obtain ⟨hmem, hother⟩ := List.mem_filter.mp ha
    have hother : a ≠ node := by simpa using hother
    obtain ⟨hout, hlinks⟩ := h.loose a hmem
    simp only [append_frame h.list hout hother]
    refine ⟨?_, hlinks⟩
    intro hmem'
    rcases List.mem_append.mp hmem' with hl | hnode
    · exact hout hl
    · exact hother (List.mem_singleton.mp hnode)
  | remove node =>
    obtain ⟨hin, heq⟩ := Option.ite_none_right_eq_some.mp hstep
    cases heq
    obtain ⟨l, r, rfl⟩ := List.append_of_mem ((in_list_iff h.list).mp hin)
    refine ⟨?_, (List.append_nil _).symm⟩
    rw [listEffect, erase_middle h.list.nodup]
    exact removed_invariant h s.returned
  | pop_head =>
    cases hstep
    exact ⟨popped_invariant h, congrArg (s.returned ++ [·]) h.list.head⟩
  | pop_tail =>
    cases hstep
    exact ⟨popped_invariant h, congrArg (s.returned ++ [·]) h.list.head⟩
  | sort comp =>
    obtain ⟨u, hsort, rfl⟩ := Option.map_eq_some_iff.mp hstep
    obtain ⟨u', hsort', hlist, hlinks, -⟩ := sort_isList h.list comp
    rw [hsort] at hsort'
    cases hsort'
    refine ⟨⟨hlist, ?_⟩, (List.append_nil _).symm⟩
    intro a ha
    obtain ⟨hout, hprev, hnext⟩ := h.loose a ha
    exact ⟨hout, (hlinks a).1.trans hprev, (hlinks a).2.trans hnext⟩

theorem start_list_invariant (nodes : Nat → linked_list_node) :
    ListInvariant (listStart nodes) [] := ⟨init_isList nodes, fun _ h => absurd h List.not_mem_nil⟩

theorem run_list_invariant {nodes : Nat → linked_list_node} {calls : List ListCall} {s : ListRun}
    (hrun : run list_step (listStart nodes) calls = some s) : ∃ l, ListInvariant s l :=
  run_keeps (motive := fun s => ∃ l, ListInvariant s l)
    (fun _ _ _ ⟨_, h⟩ hstep => ⟨_, (list_step_spec h hstep).1⟩)
    ⟨[], start_list_invariant nodes⟩ hrun

/-! ## The links after every run -/

/-- The node `i` places behind the head. -/
def node_at (s : ListState) (i : Nat) : Nat := follow (fun a => (s.nodes a).next) s.list.head i

structure WellLinked (s : ListState) : Prop where
  empty_tail : s.list.head = NULL ↔ s.list.tail = NULL
  empty_size : s.list.head = NULL ↔ s.list.size = 0
  reaches : s.list.size ≠ 0 → node_at s (s.list.size - 1) = s.list.tail
  distinct : ∀ i j, i < s.list.size → j < s.list.size → node_at s i = node_at s j → i = j
  inverse : ∀ i, i + 1 < s.list.size → (s.nodes (node_at s (i + 1))).prev = node_at s i
  ends : s.list.head ≠ NULL →
    (s.nodes s.list.head).prev = NULL ∧ (s.nodes s.list.tail).next = NULL

theorem IsList.node_at {s : ListState} {l : List Nat} (h : IsList s l) {i : Nat}
    (hi : i < l.length) : node_at s i = l[i] := by
  unfold sakana_os.node_at
  rw [h.head, follow_chain h.chain i (Nat.le_of_lt hi), List.drop_eq_getElem_cons hi]
  rfl

theorem IsList.prev_at {s : ListState} {l : List Nat} (h : IsList s l) {i : Nat}
    (hi : i + 1 < l.length) : (s.nodes l[i + 1]).prev = l[i] := by
  have hsplit : l.take i ++ [l[i]] ++ l[i + 1] :: l.drop (i + 2) = l := by
    rw [List.take_append_getElem, ← List.drop_eq_getElem_cons hi, List.take_append_drop]
  have hchain := h.chain
  rw [← hsplit] at hchain
  have hmiddle := (chain_middle hchain).1
  rw [getLastD_append] at hmiddle
  exact hmiddle

theorem IsList.wellLinked {s : ListState} {l : List Nat} (h : IsList s l) : WellLinked s := by
  have hsize := h.size
  by_cases hnil : l = []
  · subst hnil
    have hhead : s.list.head = NULL := h.head
    have htail : s.list.tail = NULL := h.tail
    have hzero : s.list.size = 0 := hsize
    refine ⟨?_, ?_, ?_, ?_, ?_, ?_⟩
    · rw [hhead, htail]
    · rw [hhead, hzero]
    · intro hne
      exact absurd hzero hne
    · intro i j hi
      omega
    · intro i hi
      omega
    · intro hne
      exact absurd hhead hne
  · have hhead : s.list.head ≠ NULL := by
      rw [h.head]
      exact (h.address _ (first_mem hnil)).1
    have htail : s.list.tail ≠ NULL := by
      rw [h.tail]
      exact (h.address _ (last_mem hnil)).1
    have hpos : 0 < l.length := List.length_pos_of_ne_nil hnil
    refine ⟨?_, ?_, ?_, ?_, ?_, ?_⟩
    · exact iff_of_false hhead htail
    · exact iff_of_false hhead (by omega)
    · intro _
      rw [hsize, h.node_at (by omega), h.tail, List.getLastD_eq_getLast?,
        List.getLast?_eq_some_getLast hnil, Option.getD_some, List.getLast_eq_getElem]
    · intro i j hi hj heq
      rw [hsize] at hi hj
      rw [h.node_at hi, h.node_at hj] at heq
      exact (List.Nodup.getElem_inj_iff h.nodup).mp heq
    · intro i hi
      rw [hsize] at hi
      rw [h.node_at hi, h.node_at (Nat.lt_of_succ_lt hi)]
      exact h.prev_at hi
    · intro _
      refine ⟨?_, ?_⟩
      · rw [h.head]
        cases l with
        | nil => exact absurd rfl hnil
        | cons a l => exact h.chain.1
      · rw [h.tail]
        rcases List.eq_nil_or_concat l with rfl | ⟨k, z, rfl⟩
        · exact absurd rfl hnil
        · rw [List.concat_eq_append] at h ⊢
          rw [getLastD_append]
          exact (chain_middle h.chain).2

/-- After every run of calls the list is well linked, every node that was taken out
has no links, and a sort returns. -/
theorem the_list_stays_well_linked {nodes : Nat → linked_list_node} {calls : List ListCall}
    {s : ListRun} (hrun : run list_step (listStart nodes) calls = some s) :
    WellLinked s.list ∧
      (∀ a ∈ s.removed, (s.list.nodes a).prev = NULL ∧ (s.list.nodes a).next = NULL) ∧
      ∀ comp, ∃ t, linked_list_sort s.list comp = some t := by
  obtain ⟨l, h⟩ := run_list_invariant hrun
  refine ⟨h.list.wellLinked, fun a ha => (h.loose a ha).2, ?_⟩
  intro comp
  obtain ⟨t, ht, -⟩ := sort_isList h.list comp
  exact ⟨t, ht⟩

/-- A memory whose nodes are all empty. -/
def blankNodes : Nat → linked_list_node := fun _ => ⟨NULL, NULL, 0⟩

/-- A removal, a sort, and the node again. -/
def removeAndAppend : List ListCall :=
  [.append 4096, .append 8192, .remove 4096, .sort fun a b => a - b, .append 4096, .pop_tail]

theorem a_removed_node_is_appended_again :
    ∃ s, run list_step (listStart blankNodes) removeAndAppend = some s ∧ WellLinked s.list := by
  obtain ⟨s, hs⟩ := Option.isSome_iff_exists.mp (by decide :
    (run list_step (listStart blankNodes) removeAndAppend).isSome = true)
  exact ⟨s, hs, (the_list_stays_well_linked hs).1⟩

/-! ## The list as a deque -/

/-- A deque with the nodes that it returned. -/
def deque_step (t : List Nat × List Nat) : ListCall → List Nat × List Nat
  | .append node => (t.1 ++ [node], t.2)
  | .remove node => (t.1.erase node, t.2)
  | .pop_head => (t.1.tail, t.2 ++ [t.1.headD NULL])
  | .pop_tail => (t.1.dropLast, t.2 ++ [t.1.getLastD NULL])
  | .sort _ => t

/-- The list shows the nodes of the deque after the same calls, and returned the same. -/
def IsDeque (s : ListRun) (calls : List ListCall) : Prop :=
  linked_list_foreach s.list = some (calls.foldl deque_step ([], [])).1 ∧
    s.returned = (calls.foldl deque_step ([], [])).2

/-- The tail is popped from a list of at most one node. -/
def TailIsHead (s : ListRun) : ListCall → Prop
  | .pop_tail => s.list.list.size ≤ 1
  | _ => True

/-- The list against the deque. -/
def Refines (s : ListRun) (t : List Nat × List Nat) : Prop :=
  ListInvariant s t.1 ∧ s.returned = t.2

theorem Refines.step {s s' : ListRun} {t : List Nat × List Nat} {call : ListCall}
    (h : Refines s t) (hcond : TailIsHead s call) (hstep : list_step s call = some s') :
    Refines s' (deque_step t call) := by
  obtain ⟨hinv, hreturned⟩ := list_step_spec h.1 hstep
  rw [h.2] at hreturned
  cases call with
  | append node => exact ⟨hinv, hreturned.trans (List.append_nil _)⟩
  | remove node => exact ⟨hinv, hreturned.trans (List.append_nil _)⟩
  | pop_head => exact ⟨hinv, hreturned⟩
  | pop_tail =>
    have hshort : t.1.length ≤ 1 := by
      rw [← h.1.list.size]
      exact hcond
    obtain ⟨l, returned⟩ := t
    match l, hshort with
    | [], _ => exact ⟨hinv, hreturned⟩
    | [a], _ => exact ⟨hinv, hreturned⟩
  | sort comp => exact ⟨hinv, hreturned.trans (List.append_nil _)⟩

theorem Refines.isDeque {s : ListRun} {calls : List ListCall}
    (h : Refines s (calls.foldl deque_step ([], []))) : IsDeque s calls :=
  ⟨h.1.list.foreach, h.2⟩

theorem start_refines (nodes : Nat → linked_list_node) : Refines (listStart nodes) ([], []) :=
  ⟨start_list_invariant nodes, rfl⟩

/-- A popped tail that is the last node of the deque was the head as well. -/
theorem pop_tail_is_head {s : ListRun} {calls : List ListCall} {l : List Nat}
    (h : ListInvariant s l) (hbefore : IsDeque s calls)
    (hafter : IsDeque (s.popped (linked_list_pop_tail s.list)) (calls ++ [.pop_tail])) :
    s.list.list.size ≤ 1 := by
  have hseq : (calls.foldl deque_step ([], [])).1 = l := by
    have hshown := hbefore.1
    rw [h.list.foreach, Option.some.injEq] at hshown
    exact hshown.symm
  have hends : l.headD NULL = l.getLastD NULL := by
    have hreturned := hafter.2
    rw [List.foldl_append, List.foldl_cons, List.foldl_nil, deque_step, hseq, ← hbefore.2]
      at hreturned
    have hlast := List.append_cancel_left hreturned
    rw [List.singleton_inj] at hlast
    exact h.list.head ▸ hlast
  rw [h.list.size]
  by_contra hlong
  match l, h.list.nodup, hends with
  | a :: b :: l, hnodup, hends =>
    rw [List.headD_cons, List.getLastD_cons] at hends
    have hmem : (b :: l).getLastD a ∈ b :: l := by
      rw [List.getLastD_eq_getLast?, List.getLast?_eq_some_getLast (List.cons_ne_nil b l)]
      exact List.getLast_mem _
    exact (List.nodup_cons.mp hnodup).1 (hends ▸ hmem)
  | [a], _, _ => exact hlong (Nat.le_refl 1)
  | [], _, _ => exact hlong (Nat.zero_le 1)

/-- A list is a deque through a whole run if and only if its tail is only ever popped
while it is the head. -/
theorem the_list_is_a_deque_while_the_tail_is_the_head {nodes : Nat → linked_list_node}
    {calls : List ListCall} {s : ListRun}
    (hrun : run list_step (listStart nodes) calls = some s) :
    (∀ is js t, calls = is ++ js → run list_step (listStart nodes) is = some t → IsDeque t is) ↔
      Along list_step TailIsHead (listStart nodes) calls := by
  constructor
  · intro hdeque
    rw [along_iff]
    intro is call js t heq hpre
    cases call with
    | pop_tail =>
      obtain ⟨l, h⟩ := run_list_invariant hpre
      have hbefore := hdeque is _ t heq hpre
      have hpost : run list_step (listStart nodes) (is ++ [.pop_tail]) =
          some (t.popped (linked_list_pop_tail t.list)) :=
        run_append.mpr ⟨t, hpre, rfl⟩
      have hafter := hdeque (is ++ [.pop_tail]) js _ (by rw [heq, List.append_assoc]; rfl) hpost
      exact pop_tail_is_head h hbefore hafter
    | _ => trivial
  · intro hcond is js t heq hpre
    subst heq
    apply Refines.isDeque
    exact run_simulates (fun _ _ _ _ h hcond hstep => h.step hcond hstep) (start_refines nodes)
      (along_front hcond) hpre

theorem one_node_is_popped_from_the_tail :
    ∃ s, run list_step (listStart blankNodes) [.append 4096, .pop_tail] = some s ∧
      IsDeque s [.append 4096, .pop_tail] := by
  obtain ⟨s, hs⟩ := Option.isSome_iff_exists.mp (by decide :
    (run list_step (listStart blankNodes) [.append 4096, .pop_tail]).isSome = true)
  have hcond : Along list_step TailIsHead (listStart blankNodes) [.append 4096, .pop_tail] := by
    refine ⟨trivial, fun t ht => ⟨?_, fun _ _ => trivial⟩⟩
    have hsize : (list_step (listStart blankNodes) (.append 4096)).map
        (fun t => t.list.list.size) = some 1 := by decide +kernel
    rw [ht, Option.map_some, Option.some.injEq] at hsize
    exact Nat.le_of_eq hsize
  exact ⟨s, hs, (the_list_is_a_deque_while_the_tail_is_the_head hs).mpr hcond _ [] s rfl hs⟩

/-- With two nodes in the list, the tail that is popped is the head. -/
theorem the_head_is_popped_from_the_tail :
    ¬ ∀ calls s, run list_step (listStart blankNodes) calls = some s → IsDeque s calls := by
  intro hall
  have hreturned : (run list_step (listStart blankNodes)
      [.append 4096, .append 8192, .pop_tail]).map ListRun.returned = some [4096] := by
    decide
  obtain ⟨s, hs, hpopped⟩ := Option.map_eq_some_iff.mp hreturned
  have hdeque := (hall _ s hs).2
  rw [hpopped] at hdeque
  revert hdeque
  decide

end sakana_os
