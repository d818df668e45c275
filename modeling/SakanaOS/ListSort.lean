-- The sort of a linked list: it exchanges the data of nodes, so that the data come out in order
-- while the nodes and their links stay where they are.
import SakanaOS.ExchangeSort
import SakanaOS.LinkedList

open chains exchange_sort sort_orders

namespace sakana_os

/-! ## The data of the nodes -/

def nodeData (nodes : Nat → linked_list_node) (l : List Nat) : List Nat :=
  l.map fun a => (nodes a).data

theorem nodeData_cons (nodes : Nat → linked_list_node) (a : Nat) (l : List Nat) :
    nodeData nodes (a :: l) = (nodes a).data :: nodeData nodes l := rfl

/-- The data from head to tail. -/
def list_data (s : ListState) : Option (List Nat) := (linked_list_foreach s).map (nodeData s.nodes)

theorem swap_data (nodes : Nat → linked_list_node) {a b : Nat} (hab : a ≠ b) :
    (linked_list_node_swap nodes a b a).data = (nodes b).data ∧
      (linked_list_node_swap nodes a b b).data = (nodes a).data ∧
      ∀ c, c ≠ a → c ≠ b → linked_list_node_swap nodes a b c = nodes c := by
  unfold linked_list_node_swap set_node_data
  refine ⟨?_, ?_, fun c hca hcb => ?_⟩
  · rw [Function.update_of_ne hab, Function.update_self]
  · rw [Function.update_self]
  · rw [Function.update_of_ne hcb, Function.update_of_ne hca]

theorem nodeData_congr {nodes nodes' : Nat → linked_list_node} {l : List Nat}
    (h : ∀ a ∈ l, nodes' a = nodes a) : nodeData nodes' l = nodeData nodes l :=
  List.map_congr_left fun a ha => congrArg linked_list_node.data (h a ha)

/-! ## The sort -/

/-- The data may have moved, the links are the same. -/
def SameLinks (nodes nodes' : Nat → linked_list_node) : Prop :=
  ∀ a, (nodes' a).prev = (nodes a).prev ∧ (nodes' a).next = (nodes a).next

theorem SameLinks.trans {nodes nodes' nodes'' : Nat → linked_list_node}
    (h : SameLinks nodes nodes') (h' : SameLinks nodes' nodes'') : SameLinks nodes nodes'' :=
  fun a => ⟨(h' a).1.trans (h a).1, (h' a).2.trans (h a).2⟩

theorem swap_links (nodes : Nat → linked_list_node) (a b : Nat) :
    SameLinks nodes (linked_list_node_swap nodes a b) := by
  intro c
  unfold linked_list_node_swap
  simp

theorem SameLinks.chain {nodes nodes' : Nat → linked_list_node} (h : SameLinks nodes nodes')
    {p n : Nat} {l : List Nat}
    (hl : Chain (fun a => (nodes a).prev) (fun a => (nodes a).next) p l n) :
    Chain (fun a => (nodes' a).prev) (fun a => (nodes' a).next) p l n :=
  chain_congr hl (fun a _ => (h a).1) (fun a _ => (h a).2)

/-- The inner loop exchanges the data of a node with the data of the nodes behind it. -/
theorem sort_inner_spec (comp : Nat → Nat → Int) {node : Nat} {nodes : Nat → linked_list_node}
    {p : Nat} {l : List Nat}
    (h : Chain (fun a => (nodes a).prev) (fun a => (nodes a).next) p l NULL)
    (haddr : ∀ a ∈ l, a ≠ NULL) (hnode : node ∉ l) (hnodup : l.Nodup) {fuel : Nat}
    (hfuel : l.length < fuel) :
    ∃ nodes', linked_list_sort_inner comp node fuel (l.headD NULL) nodes = some nodes' ∧
      SameLinks nodes nodes' ∧
      (nodes' node).data = (exchange (gtOf comp) (nodes node).data (nodeData nodes l)).1 ∧
      nodeData nodes' l = (exchange (gtOf comp) (nodes node).data (nodeData nodes l)).2 ∧
      ∀ a, a ≠ node → a ∉ l → nodes' a = nodes a := by
  induction l generalizing p fuel nodes with
  | nil =>
    obtain ⟨fuel, rfl⟩ := Nat.exists_eq_add_of_lt hfuel
    exact ⟨nodes, rfl, fun a => ⟨rfl, rfl⟩, rfl, rfl, fun _ _ _ => rfl⟩
  | cons a l ih =>
    cases fuel with
    | zero => exact absurd hfuel (Nat.not_lt_zero _)
    | succ fuel =>
      rw [List.mem_cons, not_or] at hnode
      obtain ⟨hnodea, hnodel⟩ := hnode
      obtain ⟨hal, hnodup⟩ := List.nodup_cons.mp hnodup
      -- One turn, with the data that it leaves.
      obtain ⟨turn, hturndef⟩ : ∃ turn, turn =
          (if comp (nodes node).data (nodes a).data > 0 then linked_list_node_swap nodes node a
          else nodes) := ⟨_, rfl⟩
      have hturn : SameLinks nodes turn := by
        rw [hturndef]
        split
        · exact swap_links nodes node a
        · exact fun b => ⟨rfl, rfl⟩
      have hkept : ∀ b, b ≠ node → b ≠ a → turn b = nodes b := by
        intro b hbnode hba
        rw [hturndef]
        split
        · exact (swap_data nodes hnodea).2.2 b hbnode hba
        · rfl
      have hrest : nodeData turn l = nodeData nodes l := by
        apply nodeData_congr
        rintro b hb
        exact hkept b (fun he => hnodel (he ▸ hb)) fun he => hal (he ▸ hb)
      obtain ⟨-, h2, h3⟩ := hturn.chain h
      obtain ⟨nodes', heq, hlinks, hfront, hbehind, hother⟩ := ih h3
        (fun b hb => haddr b (List.mem_cons_of_mem a hb)) hnodel hnodup
        (Nat.lt_of_succ_lt_succ hfuel)
      have hlast : nodes' a = turn a := hother a (Ne.symm hnodea) hal
      refine ⟨nodes', ?_, hturn.trans hlinks, ?_, ?_, fun b hb hbl => ?_⟩
      · rw [linked_list_sort_inner, List.headD_cons, if_neg (haddr a List.mem_cons_self),
          ← hturndef]
        simp only at h2
        simp only [h2, heq]
      · rw [hfront, hrest]
        by_cases hgt : comp (nodes node).data (nodes a).data > 0
        · rw [if_pos hgt] at hturndef
          rw [hturndef, (swap_data nodes hnodea).1, nodeData_cons,
            exchange_swap _ (decide_eq_true hgt)]
        · rw [if_neg hgt] at hturndef
          rw [hturndef, nodeData_cons, exchange_keep _ fun ht => hgt (of_decide_eq_true ht)]
      · rw [nodeData_cons, nodeData_cons, hbehind, hlast, hrest]
        by_cases hgt : comp (nodes node).data (nodes a).data > 0
        · rw [if_pos hgt] at hturndef
          rw [hturndef, (swap_data nodes hnodea).1, (swap_data nodes hnodea).2.1,
            exchange_swap _ (decide_eq_true hgt)]
        · rw [if_neg hgt] at hturndef
          rw [hturndef, exchange_keep _ fun ht => hgt (of_decide_eq_true ht)]
      · rw [List.mem_cons, not_or] at hbl
        rw [hother b hb hbl.2, hkept b hb hbl.1]

/-- The outer loop makes the exchanges for each node in turn. -/
theorem sort_outer_spec (comp : Nat → Nat → Int) {nodes : Nat → linked_list_node} {p : Nat}
    {l : List Nat} (h : Chain (fun a => (nodes a).prev) (fun a => (nodes a).next) p l NULL)
    (haddr : ∀ a ∈ l, a ≠ NULL) (hnodup : l.Nodup) (hlen : l.length < 4294967296) {fuel : Nat}
    (hfuel : l.length < fuel) :
    ∃ nodes', linked_list_sort_outer comp fuel (l.headD NULL) nodes = some nodes' ∧
      SameLinks nodes nodes' ∧
      nodeData nodes' l = exchanges (gtOf comp) l.length (nodeData nodes l) ∧
      ∀ a, a ∉ l → nodes' a = nodes a := by
  induction l generalizing p fuel nodes with
  | nil =>
    obtain ⟨fuel, rfl⟩ := Nat.exists_eq_add_of_lt hfuel
    exact ⟨nodes, rfl, fun a => ⟨rfl, rfl⟩, rfl, fun _ _ => rfl⟩
  | cons a l ih =>
    cases fuel with
    | zero => exact absurd hfuel (Nat.not_lt_zero _)
    | succ fuel =>
      have haddr' : ∀ b ∈ l, b ≠ NULL := fun b hb => haddr b (List.mem_cons_of_mem a hb)
      have hlen' : l.length < 4294967296 := Nat.lt_of_succ_lt hlen
      obtain ⟨hal, hnodup⟩ := List.nodup_cons.mp hnodup
      obtain ⟨-, h2, h3⟩ := h
      obtain ⟨nodes₁, heq₁, hlinks₁, hfront, hbehind, hother₁⟩ :=
        sort_inner_spec comp h3 haddr' hal hnodup hlen'
      obtain ⟨nodes₂, heq₂, hlinks₂, hdata, hother₂⟩ := ih (hlinks₁.chain h3) haddr' hnodup hlen'
        (Nat.lt_of_succ_lt_succ hfuel)
      refine ⟨nodes₂, ?_, hlinks₁.trans hlinks₂, ?_, fun b hb => ?_⟩
      · simp only at h2
        rw [linked_list_sort_outer, List.headD_cons, if_neg (haddr a List.mem_cons_self), h2, heq₁,
          Option.bind_some, (hlinks₁ a).2, h2]
        exact heq₂
      · rw [nodeData_cons, nodeData_cons, List.length_cons, exchanges, hdata, hbehind,
          hother₂ a hal, hfront]
      · rw [List.mem_cons, not_or] at hb
        rw [hother₂ b hb.2, hother₁ b hb.1 hb.2]

/-- The sort returns, and moves no node. -/
theorem sort_isList {s : ListState} {l : List Nat} (h : IsList s l) (comp : Nat → Nat → Int) :
    ∃ t, linked_list_sort s comp = some t ∧ IsList t l ∧ SameLinks s.nodes t.nodes ∧
      t.list = s.list ∧ nodeData t.nodes l = exchanges (gtOf comp) l.length (nodeData s.nodes l) ∧
      ∀ a, a ∉ l → t.nodes a = s.nodes a := by
  obtain ⟨nodes, heq, hlinks, hdata, hother⟩ := sort_outer_spec comp h.chain
    (fun a ha => (h.address a ha).1) h.nodup h.length_lt h.length_lt
  refine ⟨⟨nodes, s.list⟩, ?_, ⟨h.head, h.tail, h.size, hlinks.chain h.chain, h.nodup, h.address⟩,
    hlinks, rfl, hdata, hother⟩
  unfold linked_list_sort
  rw [h.head, heq]
  rfl

/-! ## The sorted list -/

/-- The sort of a list with a comparison that is a total preorder puts its data in order and
loses none, while the list, the nodes and their links stay as they are. -/
theorem the_data_of_a_list_are_sorted {s : ListState} {l : List Nat} (h : IsList s l)
    {comp : Nat → Nat → Int} (hcomp : TotalComparison comp) :
    ∃ t before after, linked_list_sort s comp = some t ∧ list_data s = some before ∧
      list_data t = some after ∧ after.Pairwise (fun x y => comp x y ≤ 0) ∧ after.Perm before ∧
      linked_list_foreach t = linked_list_foreach s ∧ t.list = s.list ∧
      SameLinks s.nodes t.nodes ∧ ∀ a, a ∉ l → t.nodes a = s.nodes a := by
  obtain ⟨t, hsort, ht, hlinks, hlist, hdata, hother⟩ := sort_isList h comp
  have hlength : (nodeData s.nodes l).length ≤ l.length := by simp [nodeData]
  refine ⟨t, nodeData s.nodes l, nodeData t.nodes l, hsort, ?_, ?_, ?_, ?_, ?_, hlist, hlinks,
    hother⟩
  · rw [list_data, h.foreach, Option.map_some]
  · rw [list_data, ht.foreach, Option.map_some]
  · rw [hdata]
    exact (exchanges_sorted hcomp.preorder _ _ hlength).imp gtOf_eq_false.mp
  · rw [hdata]
    exact exchanges_perm _ _ _
  · rw [h.foreach, ht.foreach]

/-- A list of three nodes, with the data 5, 3 and 5. -/
def equalData : ListState :=
  linked_list_append (linked_list_append (linked_list_append
    (linked_list_init fun a => ⟨NULL, NULL, if a = 0x20 then 3 else 5⟩) 0x10) 0x20) 0x30

/-- The difference of two numbers. -/
def difference (x y : Nat) : Int := (x : Int) - y

theorem equal_data_are_sorted :
    ∃ t before after, linked_list_sort equalData difference = some t ∧
      list_data equalData = some before ∧ list_data t = some after ∧
      after.Pairwise (fun x y => difference x y ≤ 0) ∧ after.Perm before ∧
      linked_list_foreach t = linked_list_foreach equalData ∧ t.list = equalData.list := by
  have hlist : IsList equalData [0x10, 0x20, 0x30] := by
    have hone := append_isList (init_isList fun a => ⟨NULL, NULL, if a = 0x20 then 3 else 5⟩)
      (show 0x10 ≠ NULL by decide) (by decide) (by decide)
    have htwo := append_isList hone (show 0x20 ≠ NULL by decide) (by decide) (by decide)
    exact append_isList htwo (show 0x30 ≠ NULL by decide) (by decide) (by decide)
  have hcomp : TotalComparison difference := by
    unfold difference
    exact ⟨fun x y => by omega, fun x y z hxy hyz => by omega⟩
  obtain ⟨t, before, after, hsort, hbefore, hafter, hsorted, hperm, hnodes, hend, -⟩ :=
    the_data_of_a_list_are_sorted hlist hcomp
  exact ⟨t, before, after, hsort, hbefore, hafter, hsorted, hperm, hnodes, hend⟩

end sakana_os
