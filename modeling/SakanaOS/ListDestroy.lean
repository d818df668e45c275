-- The accesses of `linked_list_destroy`, in order: the link to the next node is read from a
-- node that the deallocator already got.
import SakanaOS.ListMemory

open byte_memory chains

namespace sakana_os.in_memory

/-! ## The code with its accesses -/

/-- A field of a node is read, or a pointer goes to the deallocator. -/
inductive DestroyEvent where
  | read_next (node : Nat)
  | read_data (node : Nat)
  | free (ptr : Nat)
deriving DecidableEq

open DestroyEvent

/-- A part of the call, with its accesses. -/
structure Traced where
  events : List DestroyEvent
  outcome : Outcome Kheap Unit

namespace Traced

def nothing (k : Kheap) : Traced := ⟨[], .done () k⟩

def andThen (t : Traced) (f : Kheap → Traced) : Traced where
  events := t.events ++ match t.outcome with
    | .done () k => (f k).events
    | _ => []
  outcome := t.outcome.andThen fun _ k => (f k).outcome

def after (event : DestroyEvent) (t : Traced) : Traced := ⟨event :: t.events, t.outcome⟩

end Traced

section

variable (free_data : Bool) (deallocator : Kheap → Nat → Outcome Kheap Unit)

def deallocator_traced (k : Kheap) (ptr : Nat) : Traced := ⟨[free ptr], deallocator k ptr⟩

/-- The `if` in the loop, with its accesses. -/
def free_data_traced (node : Nat) (k : Kheap) : Traced :=
  if free_data then
    (deallocator_traced deallocator k (node_data k.mem node)).after (read_data node)
  else .nothing k

/-- `destroy_loop` with its accesses. -/
def destroy_loop_traced : Nat → Nat → Kheap → Traced
  | 0, _, k => ⟨[], .hang k⟩
  | fuel + 1, node, k =>
    if node = NULL then .nothing k
    else
      (free_data_traced free_data deallocator node k).andThen fun k =>
        (deallocator_traced deallocator k node).andThen fun k =>
          (destroy_loop_traced fuel (node_next k.mem node) k).after (read_next node)

/-- `linked_list_destroy` with its accesses to the nodes and its calls of the deallocator. -/
def linked_list_destroy_traced (k : Kheap) (list : Nat) : Traced :=
  if list = NULL then .nothing k
  else
    (destroy_loop_traced free_data deallocator 4294967296 (list_head k.mem list) k).andThen fun k =>
      deallocator_traced deallocator k list

/-- The accesses aside, the loop is that of the code. -/
theorem destroy_loop_traced_eq (fuel node : Nat) (k : Kheap) :
    (destroy_loop_traced free_data deallocator fuel node k).outcome =
      destroy_loop free_data deallocator fuel node k := by
  induction fuel generalizing node k with
  | zero => rfl
  | succ fuel ih =>
    rw [destroy_loop_traced, destroy_loop]
    by_cases hnull : node = NULL
    · rw [if_pos hnull, if_pos hnull]
      rfl
    · rw [if_neg hnull, if_neg hnull]
      simp only [Traced.andThen, Traced.after, deallocator_traced, ih]
      cases free_data <;> rfl

theorem linked_list_destroy_traced_eq (k : Kheap) (list : Nat) :
    (linked_list_destroy_traced free_data deallocator k list).outcome =
      linked_list_destroy k list free_data deallocator := by
  unfold linked_list_destroy_traced linked_list_destroy
  split
  · rfl
  · simp only [Traced.andThen, deallocator_traced, destroy_loop_traced_eq]

end

/-! ## What the accesses must be -/

/-- The pointers that go to the deallocator, in order. -/
def freed (events : List DestroyEvent) : List Nat :=
  events.filterMap fun
    | free ptr => some ptr
    | _ => none

@[simp] theorem freed_append (E E' : List DestroyEvent) : freed (E ++ E') = freed E ++ freed E' :=
  List.filterMap_append

@[simp] theorem freed_free (ptr : Nat) (E : List DestroyEvent) :
    freed (free ptr :: E) = ptr :: freed E := rfl

@[simp] theorem freed_read_next (node : Nat) (E : List DestroyEvent) :
    freed (read_next node :: E) = freed E := rfl

@[simp] theorem freed_read_data (node : Nat) (E : List DestroyEvent) :
    freed (read_data node :: E) = freed E := rfl

@[simp] theorem freed_nil : freed [] = [] := rfl

/-- The nodes, with their data when that is freed too. -/
def pointersOf (m : Mem) (l : List Nat) (free_data : Bool) : List Nat :=
  if free_data then cellPointers (cellsOf m l) else l

/-- Each node, each data pointer when it is to be freed, and last the list go to the
deallocator once, and no field of a node is read after the node went there. -/
structure DestroysSafely (events : List DestroyEvent) (m : Mem) (list : Nat) (l : List Nat)
    (free_data : Bool) : Prop where
  once : (freed events).Perm (pointersOf m l free_data ++ [list])
  last : (freed events).getLast? = some list
  unread : ∀ E a E', events = E ++ free a :: E' → a ∈ l → read_next a ∉ E' ∧ read_data a ∉ E'

/-! ## The first node -/

section

variable {free_data : Bool} {deallocator : Kheap → Nat → Outcome Kheap Unit} {k : Kheap}
  {list node : Nat} {l : List Nat}

/-- The call did not return. -/
def Traced.Stops (t : Traced) : Prop := ∀ k, t.outcome ≠ .done () k

/-- A part that does not return is all that happens. -/
theorem Traced.andThen_cases (t : Traced) (f : Kheap → Traced) :
    (∃ k, t.outcome = .done () k ∧ (t.andThen f).events = t.events ++ (f k).events ∧
        (t.andThen f).outcome = (f k).outcome) ∨
      t.Stops ∧ (t.andThen f).Stops ∧ (t.andThen f).events = t.events := by
  unfold Traced.andThen Traced.Stops
  cases h : t.outcome with
  | done u k => exact Or.inl ⟨k, rfl, rfl, rfl⟩
  | kpanic code message k => simp [Outcome.andThen]
  | fault k => simp [Outcome.andThen]
  | hang k => simp [Outcome.andThen]

theorem freed_free_data (node : Nat) (k : Kheap) :
    freed (free_data_traced free_data deallocator node k).events =
      if free_data then [node_data k.mem node] else [] := by
  unfold free_data_traced
  split
  · rfl
  · rfl

/-- The link of the first node is read after the node is freed, unless the deallocator does not
return from the node or its data. -/
theorem first_node_events (hne : node ≠ NULL) (fuel : Nat) :
    (∃ E E', (destroy_loop_traced free_data deallocator (fuel + 1) node k).events =
        E ++ free node :: read_next node :: E') ∨
      (destroy_loop_traced free_data deallocator (fuel + 1) node k).Stops ∧
        (freed (destroy_loop_traced free_data deallocator (fuel + 1) node k).events).length ≤
          if free_data then 2 else 1 := by
  have hdata := @freed_free_data free_data deallocator node k
  rw [destroy_loop_traced, if_neg hne]
  rcases Traced.andThen_cases (free_data_traced free_data deallocator node k) _ with
    ⟨k₁, -, hevents, houtcome⟩ | ⟨-, hstops, hevents⟩
  · unfold Traced.Stops
    rw [hevents, houtcome]
    rcases Traced.andThen_cases (deallocator_traced deallocator k₁ node) _ with
      ⟨k₂, -, hevents', -⟩ | ⟨-, hstops', hevents'⟩
    · rw [hevents']
      exact Or.inl ⟨_, _, rfl⟩
    · rw [hevents', freed_append, hdata]
      refine Or.inr ⟨hstops', ?_⟩
      cases free_data <;> simp [deallocator_traced]
  · rw [hevents, hdata]
    refine Or.inr ⟨hstops, ?_⟩
    cases free_data <;> simp

/-- A list with nodes is not destroyed safely, by no deallocator. -/
theorem nodes_are_read_late (h : IsList (listState k.mem list) l) (hlist : list ≠ NULL)
    (hl : l ≠ []) :
    ¬ DestroysSafely (linked_list_destroy_traced free_data deallocator k list).events
      k.mem list l free_data := by
  intro hsafe
  obtain ⟨a, rest, rfl⟩ := List.exists_cons_of_ne_nil hl
  have hhead : list_head k.mem list = a := h.head
  have hne : a ≠ NULL := (h.address a List.mem_cons_self).1
  obtain ⟨honce, -, hunread⟩ := hsafe
  unfold linked_list_destroy_traced at honce hunread
  rw [if_neg hlist, hhead] at honce hunread
  have hfirst := @first_node_events free_data deallocator k a hne 4294967295
  have hfuel : 4294967295 + 1 = 4294967296 := rfl
  rw [hfuel] at hfirst
  rcases Traced.andThen_cases (destroy_loop_traced free_data deallocator 4294967296 a k)
    (fun k => deallocator_traced deallocator k list) with
    ⟨k₁, hdone, hevents, -⟩ | ⟨-, -, hevents⟩
  · rw [hevents] at hunread
    rcases hfirst with ⟨E, E', hloop⟩ | ⟨hstops, -⟩
    · rw [hloop, List.append_assoc] at hunread
      exact (hunread _ _ _ rfl List.mem_cons_self).1 List.mem_cons_self
    · exact hstops k₁ hdone
  · rw [hevents] at honce hunread
    rcases hfirst with ⟨E, E', hloop⟩ | ⟨-, hfew⟩
    · rw [hloop] at hunread
      exact (hunread _ _ _ rfl List.mem_cons_self).1 List.mem_cons_self
    · -- The list itself is missing.
      have hlength := honce.length_eq
      rw [List.length_append, List.length_singleton] at hlength
      have hmany : (if free_data then 2 else 1) ≤
          (pointersOf k.mem (a :: rest) free_data).length := by
        unfold pointersOf cellPointers cellsOf
        cases free_data <;> simp
      omega

/-- A list is destroyed safely exactly when it has no nodes: of each node that is there the link
is read from the memory that the deallocator got. -/
theorem only_an_empty_list_is_destroyed_safely (h : IsList (listState k.mem list) l)
    (hlist : list ≠ NULL) :
    DestroysSafely (linked_list_destroy_traced free_data deallocator k list).events k.mem list l
      free_data ↔ l = [] := by
  constructor
  · intro hsafe
    by_contra hl
    exact nodes_are_read_late h hlist hl hsafe
  · rintro rfl
    have hhead : list_head k.mem list = NULL := h.head
    have hevents : (linked_list_destroy_traced free_data deallocator k list).events =
        [free list] := by
      unfold linked_list_destroy_traced
      rw [if_neg hlist, hhead, destroy_loop_traced, if_pos rfl]
      rfl
    rw [hevents]
    refine ⟨?_, rfl, fun E a E' hE ha => ?_⟩
    · cases free_data <;> exact List.Perm.refl _
    · cases ha

/-! ## The links that are kept -/

/-- The deallocator returns, and leaves the words of the nodes. -/
def LeavesNodes (deallocator : Kheap → Nat → Outcome Kheap Unit) (l : List Nat) : Prop :=
  ∀ k ptr, ∃ k', deallocator k ptr = .done () k' ∧ ∀ a ∈ l,
    node_next k'.mem a = node_next k.mem a ∧ node_data k'.mem a = node_data k.mem a

/-- The accesses to the nodes of a list whose words stay. -/
def destroyEvents (m : Mem) (free_data : Bool) (l : List Nat) : List DestroyEvent :=
  l.flatMap fun a =>
    (if free_data then [read_data a, free (node_data m a)] else []) ++ [free a, read_next a]

theorem freed_destroyEvents (m : Mem) (l : List Nat) :
    freed (destroyEvents m free_data l) = pointersOf m l free_data := by
  unfold destroyEvents pointersOf
  induction l with
  | nil => cases free_data <;> rfl
  | cons a l ih =>
    rw [List.flatMap_cons, freed_append, ih]
    cases free_data <;> rfl

theorem loop_events_of_kept_links {all : List Nat} (hleaves : LeavesNodes deallocator all) {m : Mem}
    (l : List Nat) (hsub : ∀ a ∈ l, a ∈ all) (hwalk : Walks k.mem node (cellsOf m l)) {fuel : Nat}
    (hfuel : l.length < fuel) :
    ∃ k', (destroy_loop_traced free_data deallocator fuel node k).events =
        destroyEvents m free_data l ∧
      (destroy_loop_traced free_data deallocator fuel node k).outcome = .done () k' := by
  induction l generalizing k node fuel with
  | nil =>
    have hnull : node = NULL := hwalk
    obtain ⟨fuel, rfl⟩ : ∃ n, fuel = n + 1 := ⟨fuel - 1, by simp at hfuel; omega⟩
    rw [destroy_loop_traced, if_pos hnull]
    exact ⟨k, rfl, rfl⟩
  | cons a l ih =>
    obtain ⟨fuel, rfl⟩ : ∃ n, fuel = n + 1 := ⟨fuel - 1, by simp at hfuel; omega⟩
    obtain ⟨rfl, hne, hdata, hrest⟩ := hwalk
    have hcells : ∀ c ∈ cellsOf m l, c.1 ∈ all := by
      intro c hc
      obtain ⟨b, hb, rfl⟩ := List.mem_map.mp hc
      exact hsub b (List.mem_cons_of_mem _ hb)
    -- The memory after the data, and after the node.
    obtain ⟨k₁, hdone₁, hevents₁, hkeep₁⟩ : ∃ k₁,
        (free_data_traced free_data deallocator node k).outcome = .done () k₁ ∧
        (free_data_traced free_data deallocator node k).events =
          (if free_data then [read_data node, free (node_data m node)] else []) ∧
        ∀ b ∈ all, node_next k₁.mem b = node_next k.mem b ∧
          node_data k₁.mem b = node_data k.mem b := by
      unfold free_data_traced
      rw [hdata]
      cases free_data with
      | false => exact ⟨k, rfl, rfl, fun _ _ => ⟨rfl, rfl⟩⟩
      | true =>
        obtain ⟨k₁, hdone, hkeep⟩ := hleaves k (node_data m node)
        exact ⟨k₁, hdone, rfl, hkeep⟩
    obtain ⟨k₂, hdone₂, hkeep₂⟩ := hleaves k₁ node
    have hkeep : ∀ b ∈ all, node_next k₂.mem b = node_next k.mem b ∧
        node_data k₂.mem b = node_data k.mem b := fun b hb =>
      ⟨(hkeep₂ b hb).1.trans (hkeep₁ b hb).1, (hkeep₂ b hb).2.trans (hkeep₁ b hb).2⟩
    have hwalk₂ : Walks k₂.mem (node_next k₂.mem node) (cellsOf m l) := by
      rw [(hkeep node (hsub node List.mem_cons_self)).1]
      exact walks_words hrest fun c hc => hkeep c.1 (hcells c hc)
    obtain ⟨k', hevents, houtcome⟩ := ih (fun b hb => hsub b (List.mem_cons_of_mem _ hb)) hwalk₂
      (Nat.lt_of_succ_lt_succ hfuel)
    rw [destroy_loop_traced, if_neg hne]
    simp only [Traced.andThen, Traced.after, deallocator_traced, hdone₁, hevents₁, hdone₂, hevents,
      houtcome, Outcome.done_andThen]
    have hcons : destroyEvents m free_data (node :: l) =
        (if free_data then [read_data node, free (node_data m node)] else []) ++
          [free node, read_next node] ++ destroyEvents m free_data l := List.flatMap_cons
    refine ⟨k', ?_, rfl⟩
    rw [hcons, List.append_assoc]
    rfl

/-- Each pointer goes to the deallocator once, in the order of the list, when the deallocator
leaves the words of the nodes as they are. -/
theorem kept_links_lead_through_the_list (h : IsList (listState k.mem list) l)
    (hlist : list ≠ NULL) (hleaves : LeavesNodes deallocator l) :
    (linked_list_destroy_traced free_data deallocator k list).events =
        destroyEvents k.mem free_data l ++ [free list] ∧
      freed (linked_list_destroy_traced free_data deallocator k list).events =
        pointersOf k.mem l free_data ++ [list] := by
  have hwalk : Walks k.mem (list_head k.mem list) (cellsOf k.mem l) := by
    have hhead : list_head k.mem list = l.headD NULL := h.head
    rw [hhead]
    exact walks_chain l h.chain fun a ha => (h.address a ha).1
  obtain ⟨k', hevents, houtcome⟩ := @loop_events_of_kept_links free_data deallocator k _ l hleaves
    k.mem l (fun _ ha => ha) hwalk 4294967296 h.length_lt
  have hall : (linked_list_destroy_traced free_data deallocator k list).events =
      destroyEvents k.mem free_data l ++ [free list] := by
    unfold linked_list_destroy_traced
    rw [if_neg hlist]
    simp only [Traced.andThen, houtcome, hevents, deallocator_traced]
  refine ⟨hall, ?_⟩
  rw [hall, freed_append, freed_destroyEvents]
  rfl

end

/-! ## Two lists -/

/-- A list at `0x1000`, with nothing in it. -/
def emptyList : Kheap := kheapStart 0x100000 (linked_list_init (fun _ => 0) 0x1000).2

/-- The list with a node at `0x2000`. -/
def oneNode : Kheap := kheapStart 0x100000
  (linked_list_append (linked_list_init (linked_list_node_init (fun _ => 0) 0x2000 0x3000).2
    0x1000).2 0x1000 0x2000)

theorem an_empty_list_is_destroyed_safely :
    DestroysSafely (linked_list_destroy_traced true kfree emptyList 0x1000).events emptyList.mem
      0x1000 [] true :=
  (only_an_empty_list_is_destroyed_safely (linked_list_init_spec _ (by decide)).isList
    (by decide)).mpr rfl

/-- The link of a freed node is read, also with a deallocator that leaves all as it is. -/
theorem a_node_is_read_after_it_was_freed :
    IsList (listState oneNode.mem 0x1000) [0x2000] ∧
      (linked_list_destroy_traced true (fun k _ => .done () k) oneNode 0x1000).events =
        [read_data 0x2000, free 0x3000, free 0x2000, read_next 0x2000, free 0x1000] ∧
      ¬ DestroysSafely (linked_list_destroy_traced true (fun k _ => .done () k) oneNode
        0x1000).events oneNode.mem 0x1000 [0x2000] true := by
  have hempty := linked_list_init_spec (linked_list_node_init (fun _ => 0) 0x2000 0x3000).2
    (show 0x1000 ≠ NULL by decide)
  have hlist : ListAt oneNode.mem 0x1000 [0x2000] :=
    @linked_list_append_spec _ 0x1000 0x2000 [] hempty (by decide) (by decide) (by decide)
      (by decide) (fun _ h => nomatch h)
  have hdata : node_data oneNode.mem 0x2000 = 0x3000 := by decide
  have hleaves : LeavesNodes (fun k _ => .done () k) [0x2000] :=
    fun k _ => ⟨k, rfl, fun _ _ => ⟨rfl, rfl⟩⟩
  refine ⟨hlist.isList, ?_, nodes_are_read_late hlist.isList (by decide) (by decide)⟩
  rw [(kept_links_lead_through_the_list hlist.isList (by decide) hleaves).1]
  simp only [destroyEvents, List.flatMap_cons, List.flatMap_nil, hdata]
  rfl

end sakana_os.in_memory
