-- Ordered forests in the form that links to a first child and to a next sibling give them:
-- a node, the forest of its children, and the forest of the siblings behind it.
import Mathlib.Data.List.Basic
import Mathlib.Data.List.Nodup
import Mathlib.Data.List.Perm.Basic

namespace forests

inductive Forest (α : Type) where
  | nil
  | node (a : α) (child slide : Forest α)

/-- The links of every node. -/
structure Links (α : Type) where
  parent : α → α
  child : α → α
  slide : α → α

variable {α : Type}

namespace Forest

/-- The nodes with each one before its children, and these before the siblings behind it. -/
def preorder : Forest α → List α
  | nil => []
  | node a c s => a :: (c.preorder ++ s.preorder)

/-- The nodes that have no parent in the forest. -/
def tops : Forest α → List α
  | nil => []
  | node a _ s => a :: s.tops

/-- The first node, or `null`. -/
def first (null : α) : Forest α → α
  | nil => null
  | node a _ _ => a

/-- A forest behind another. -/
def append : Forest α → Forest α → Forest α
  | nil, g => g
  | node a c s, g => node a c (s.append g)

/-- The forest without a node on top and what is under it. -/
def removeTop [DecidableEq α] (x : α) : Forest α → Forest α
  | nil => nil
  | node a c s => if a = x then s else node a c (s.removeTop x)

/-- The forest with the children of a node replaced. -/
def mapUnder [DecidableEq α] (p : α) (u : Forest α → Forest α) : Forest α → Forest α
  | nil => nil
  | node a c s => if a = p then node a (u c) s else node a (c.mapUnder p u) (s.mapUnder p u)

/-- `c` is the forest of the children of `p`. -/
def Under (p : α) : Forest α → Forest α → Prop
  | nil, _ => False
  | node a c' s, c => (a = p ∧ c' = c) ∨ c'.Under p c ∨ s.Under p c

/-- The links lead through the forest, whose nodes on top have the parent `p`. -/
def Formed (k : Links α) (null : α) : α → Forest α → Prop
  | _, nil => True
  | p, node a c s =>
    k.parent a = p ∧ k.child a = c.first null ∧ k.slide a = s.first null ∧
      Formed k null a c ∧ Formed k null p s

/-! ## Members -/

theorem tops_sublist (f : Forest α) : f.tops.Sublist f.preorder := by
  induction f with
  | nil => exact List.Sublist.slnil
  | node a c s _ ih => exact (ih.trans (List.sublist_append_right _ _)).cons_cons a

theorem tops_subset (f : Forest α) : ∀ x ∈ f.tops, x ∈ f.preorder :=
  fun _ hx => f.tops_sublist.subset hx

/-- A node with its children is in the forest. -/
theorem Under.mem {p : α} {c f : Forest α} (h : f.Under p c) :
    p ∈ f.preorder ∧ ∀ x ∈ c.preorder, x ∈ f.preorder := by
  induction f with
  | nil => exact h.elim
  | node a c' s ihc ihs =>
    simp only [preorder, List.mem_cons, List.mem_append]
    rcases h with ⟨rfl, rfl⟩ | h | h
    · exact ⟨Or.inl rfl, fun x hx => Or.inr (Or.inl hx)⟩
    · exact ⟨Or.inr (Or.inl (ihc h).1), fun x hx => Or.inr (Or.inl ((ihc h).2 x hx))⟩
    · exact ⟨Or.inr (Or.inr (ihs h).1), fun x hx => Or.inr (Or.inr ((ihs h).2 x hx))⟩

theorem Under.trans {p x : α} {c d f : Forest α} (h : f.Under p c) (h' : c.Under x d) :
    f.Under x d := by
  induction f with
  | nil => exact h.elim
  | node a c' s ihc ihs =>
    rcases h with ⟨-, rfl⟩ | h | h
    · exact Or.inr (Or.inl h')
    · exact Or.inr (Or.inl (ihc h))
    · exact Or.inr (Or.inr (ihs h))

theorem under_of_mem {p : α} {f : Forest α} (h : p ∈ f.preorder) : ∃ c, f.Under p c := by
  induction f with
  | nil => cases h
  | node a c s ihc ihs =>
    simp only [preorder, List.mem_cons, List.mem_append] at h
    rcases h with rfl | h | h
    · exact ⟨c, Or.inl ⟨rfl, rfl⟩⟩
    · obtain ⟨c', hc'⟩ := ihc h
      exact ⟨c', Or.inr (Or.inl hc')⟩
    · obtain ⟨c', hc'⟩ := ihs h
      exact ⟨c', Or.inr (Or.inr hc')⟩

/-- A node is on top, or it is on top of the children of another. -/
theorem top_or_under {x : α} {f : Forest α} (h : x ∈ f.preorder) :
    x ∈ f.tops ∨ ∃ p c, f.Under p c ∧ x ∈ c.tops := by
  induction f with
  | nil => cases h
  | node a c s ihc ihs =>
    simp only [preorder, List.mem_cons, List.mem_append] at h
    rcases h with rfl | h | h
    · exact Or.inl List.mem_cons_self
    · refine Or.inr ?_
      rcases ihc h with htop | ⟨p, c', hunder, htop⟩
      · exact ⟨a, c, Or.inl ⟨rfl, rfl⟩, htop⟩
      · exact ⟨p, c', Or.inr (Or.inl hunder), htop⟩
    · rcases ihs h with htop | ⟨p, c', hunder, htop⟩
      · exact Or.inl (List.mem_cons_of_mem _ htop)
      · exact Or.inr ⟨p, c', Or.inr (Or.inr hunder), htop⟩

/-- The three parts of a forest without repetition. -/
theorem nodup_node {a : α} {c s : Forest α} (h : (node a c s).preorder.Nodup) :
    a ∉ c.preorder ∧ a ∉ s.preorder ∧ c.preorder.Nodup ∧ s.preorder.Nodup ∧
      ∀ x ∈ c.preorder, x ∉ s.preorder := by
  obtain ⟨ha, hcs⟩ := List.nodup_cons.mp h
  obtain ⟨hc, hs, hapart⟩ := List.nodup_append.mp hcs
  refine ⟨fun hm => ha (List.mem_append_left _ hm), fun hm => ha (List.mem_append_right _ hm),
    hc, hs, fun x hx hx' => hapart x hx x hx' rfl⟩

/-- A node is not among its children. -/
theorem Under.fresh {p : α} {c f : Forest α} (h : f.Under p c) (hnodup : f.preorder.Nodup) :
    p ∉ c.preorder ∧ c.preorder.Nodup := by
  induction f with
  | nil => exact h.elim
  | node a c' s ihc ihs =>
    obtain ⟨hac, -, hc, hs, -⟩ := nodup_node hnodup
    rcases h with ⟨rfl, rfl⟩ | h | h
    · exact ⟨hac, hc⟩
    · exact ihc h hc
    · exact ihs h hs

theorem append_assoc (f g h : Forest α) : (f.append g).append h = f.append (g.append h) := by
  induction f with
  | nil => rfl
  | node a c s _ ih => rw [append, append, append, ih]

theorem append_nil (f : Forest α) : f.append nil = f := by
  induction f with
  | nil => rfl
  | node a c s _ ih => rw [append, ih]

theorem preorder_append (f g : Forest α) : (f.append g).preorder = f.preorder ++ g.preorder := by
  induction f with
  | nil => rfl
  | node a c s _ ih => simp [append, preorder, ih]

/-! ## Links -/

section links

variable {k k' : Links α} {null p : α}

/-- Links that agree on a forest. -/
def Agree (k k' : Links α) (l : List α) : Prop :=
  ∀ a ∈ l, k'.parent a = k.parent a ∧ k'.child a = k.child a ∧ k'.slide a = k.slide a

theorem Formed.congr {f : Forest α} (h : Formed k null p f) (hk : Agree k k' f.preorder) :
    Formed k' null p f := by
  induction f generalizing p with
  | nil => trivial
  | node a c s ihc ihs =>
    obtain ⟨h1, h2, h3, h4, h5⟩ := h
    obtain ⟨e1, e2, e3⟩ := hk a List.mem_cons_self
    refine ⟨e1.trans h1, e2.trans h2, e3.trans h3, ihc h4 ?_, ihs h5 ?_⟩
    · intro x hx
      exact hk x (List.mem_cons_of_mem _ (List.mem_append_left _ hx))
    · intro x hx
      exact hk x (List.mem_cons_of_mem _ (List.mem_append_right _ hx))

/-- The links of a node lead to its children, and those lead back to it. -/
theorem Formed.under {f c : Forest α} {q : α} (h : Formed k null q f) (hunder : f.Under p c) :
    k.child p = c.first null ∧ Formed k null p c := by
  induction f generalizing q with
  | nil => exact hunder.elim
  | node a c' s ihc ihs =>
    obtain ⟨-, h2, -, h4, h5⟩ := h
    rcases hunder with ⟨rfl, rfl⟩ | hunder | hunder
    · exact ⟨h2, h4⟩
    · exact ihc h4 hunder
    · exact ihs h5 hunder

theorem Formed.parent_top {f : Forest α} (h : Formed k null p f) :
    ∀ x ∈ f.tops, k.parent x = p := by
  induction f with
  | nil => simp [tops]
  | node a c s _ ih =>
    obtain ⟨h1, -, -, -, h5⟩ := h
    intro x hx
    rcases List.mem_cons.mp hx with rfl | hx
    · exact h1
    · exact ih h5 x hx

variable [DecidableEq α]

theorem mapUnder_of_not_mem (u : Forest α → Forest α) {f : Forest α} (h : p ∉ f.preorder) :
    f.mapUnder p u = f := by
  induction f with
  | nil => rfl
  | node a c s ihc ihs =>
    simp only [preorder, List.mem_cons, List.mem_append, not_or] at h
    rw [mapUnder, if_neg (Ne.symm h.1), ihc h.2.1, ihs h.2.2]

/-- The first node stays in front. -/
theorem first_mapUnder (u : Forest α → Forest α) (f : Forest α) :
    (f.mapUnder p u).first null = f.first null := by
  cases f with
  | nil => rfl
  | node a c s =>
    rw [mapUnder]
    split <;> rfl

theorem tops_mapUnder (u : Forest α → Forest α) (f : Forest α) :
    (f.mapUnder p u).tops = f.tops := by
  induction f with
  | nil => rfl
  | node a c s _ ih =>
    rw [mapUnder]
    split
    · rfl
    · rw [tops, tops, ih]

/-- A change behind a forest. -/
theorem mapUnder_append (u : Forest α → Forest α) {f : Forest α} (h : p ∉ f.preorder)
    (g : Forest α) : (f.append g).mapUnder p u = f.append (g.mapUnder p u) := by
  induction f with
  | nil => rfl
  | node a c s _ ih =>
    rw [preorder, List.mem_cons, List.mem_append, not_or, not_or] at h
    rw [append, mapUnder, if_neg (Ne.symm h.1), mapUnder_of_not_mem u h.2.1, ih h.2.2, append]

theorem mapUnder_id (f : Forest α) : f.mapUnder p (fun c => c) = f := by
  induction f with
  | nil => rfl
  | node a c s ihc ihs =>
    rw [mapUnder, ihc, ihs]
    exact ite_self _

/-- Two changes of the same children are one. -/
theorem mapUnder_mapUnder (u v : Forest α → Forest α) (f : Forest α) :
    (f.mapUnder p u).mapUnder p v = f.mapUnder p fun c => v (u c) := by
  induction f with
  | nil => rfl
  | node a c s ihc ihs =>
    by_cases hap : a = p
    · rw [mapUnder, if_pos hap, mapUnder, if_pos hap, mapUnder, if_pos hap]
    · rw [mapUnder, if_neg hap, mapUnder, if_neg hap, mapUnder, if_neg hap, ihc, ihs]

/-- A change under a node that an earlier change brought in. -/
theorem mapUnder_new {x : α} (u : Forest α → Forest α) {f g : Forest α} (h : x ∉ f.preorder) :
    (f.mapUnder p (·.append g)).mapUnder x u = f.mapUnder p (·.append (g.mapUnder x u)) := by
  induction f with
  | nil => rfl
  | node a c s ihc ihs =>
    rw [preorder, List.mem_cons, List.mem_append, not_or, not_or] at h
    obtain ⟨hxa, hxc, hxs⟩ := h
    have hax : a ≠ x := fun he => hxa he.symm
    by_cases hap : a = p
    · rw [mapUnder, if_pos hap, mapUnder, if_neg hax, mapUnder, if_pos hap, mapUnder_append u hxc,
        mapUnder_of_not_mem u hxs]
    · rw [mapUnder, if_neg hap, mapUnder, if_neg hax, mapUnder, if_neg hap, ihc hxc, ihs hxs]

omit [DecidableEq α] in
/-- The children of a node of a forest without repetition. -/
theorem Under.unique {p : α} {c d f : Forest α} (h : f.Under p c) (h' : f.Under p d)
    (hnodup : f.preorder.Nodup) : c = d := by
  induction f with
  | nil => exact h.elim
  | node a c' s ihc ihs =>
    obtain ⟨hac, has, hnc, hns, hcs⟩ := nodup_node hnodup
    rcases h with ⟨rfl, rfl⟩ | h | h
    · rcases h' with ⟨-, rfl⟩ | h' | h'
      · rfl
      · exact absurd h'.mem.1 hac
      · exact absurd h'.mem.1 has
    · rcases h' with ⟨rfl, -⟩ | h' | h'
      · exact absurd h.mem.1 hac
      · exact ihc h h' hnc
      · exact absurd h'.mem.1 (hcs p h.mem.1)
    · rcases h' with ⟨rfl, -⟩ | h' | h'
      · exact absurd h.mem.1 has
      · exact absurd h.mem.1 (hcs p h'.mem.1)
      · exact ihs h h' hns

/-- Links that change among the children of one node only, with its link to the first one. -/
theorem Formed.mapUnder {f c : Forest α} {q : α} {u : Forest α → Forest α}
    (h : Formed k null q f) (hnodup : f.preorder.Nodup) (hunder : f.Under p c)
    (hc : Formed k' null p (u c)) (hchild : k'.child p = (u c).first null)
    (hself : k'.parent p = k.parent p ∧ k'.slide p = k.slide p)
    (hk : Agree k k' (f.preorder.filter fun a => a ∉ c.preorder ∧ a ≠ p)) :
    Formed k' null q (f.mapUnder p u) := by
  induction f generalizing q with
  | nil => exact hunder.elim
  | node a c' s ihc ihs =>
    obtain ⟨h1, h2, h3, h4, h5⟩ := h
    obtain ⟨hac, has, hnc, hns, hcs⟩ := nodup_node hnodup
    have hpart : ∀ g : Forest α, (∀ x ∈ g.preorder, x ∈ c'.preorder ++ s.preorder) →
        Agree k k' (g.preorder.filter fun a => a ∉ c.preorder ∧ a ≠ p) := by
      intro g hg x hx
      rw [List.mem_filter] at hx
      exact hk x (List.mem_filter.mpr ⟨List.mem_cons_of_mem _ (hg x hx.1), hx.2⟩)
    have hkc := hpart c' fun x hx => List.mem_append_left _ hx
    have hks := hpart s fun x hx => List.mem_append_right _ hx
    have hsame : ∀ g : Forest α, Agree k k' (g.preorder.filter fun a => a ∉ c.preorder ∧ a ≠ p) →
        p ∉ g.preorder → (∀ x ∈ g.preorder, x ∉ c.preorder) → Agree k k' g.preorder := by
      intro g hg hpg hcg x hx
      exact hg x (List.mem_filter.mpr ⟨hx, by simp only [decide_eq_true_eq]; exact
        ⟨hcg x hx, fun he => hpg (he ▸ hx)⟩⟩)
    by_cases hap : a = p
    · subst hap
      obtain rfl : c' = c :=
        Under.unique (f := .node a c' s) (Or.inl ⟨rfl, rfl⟩) hunder hnodup
      rw [Forest.mapUnder, if_pos rfl]
      refine ⟨hself.1.trans h1, hchild, hself.2.trans h3, hc, ?_⟩
      exact h5.congr (hsame s hks has fun x hx hx' => hcs x hx' hx)
    · rw [Forest.mapUnder, if_neg hap]
      have hback := hunder.resolve_left fun he => hap he.1
      have hanot : a ∉ c.preorder := by
        rcases hback with hunder | hunder
        · exact fun hm => hac (hunder.mem.2 a hm)
        · exact fun hm => has (hunder.mem.2 a hm)
      obtain ⟨e1, e2, e3⟩ := hk a (List.mem_filter.mpr
        ⟨List.mem_cons_self, by simp only [decide_eq_true_eq]; exact ⟨hanot, hap⟩⟩)
      refine ⟨e1.trans h1, ?_, ?_, ?_, ?_⟩
      · rw [first_mapUnder]
        exact e2.trans h2
      · rw [first_mapUnder]
        exact e3.trans h3
      · rcases hback with hunder | hunder
        · exact ihc h4 hnc hunder hkc
        · have hpc : p ∉ c'.preorder := fun hm => hcs p hm hunder.mem.1
          rw [mapUnder_of_not_mem u hpc]
          exact h4.congr (hsame c' hkc hpc fun x hx hx' => hcs x hx (hunder.mem.2 x hx'))
      · rcases hback with hunder | hunder
        · have hps : p ∉ s.preorder := hcs p hunder.mem.1
          rw [mapUnder_of_not_mem u hps]
          exact h5.congr (hsame s hks hps fun x hx hx' => hcs x (hunder.mem.2 x hx') hx)
        · exact ihs h5 hns hunder hks

/-! ## The nodes after a change -/

/-- A node stands right before what is under it, and a change there leaves the order of the
others. -/
theorem Under.split {f c : Forest α} (h : f.Under p c) (hnodup : f.preorder.Nodup)
    (u : Forest α → Forest α) : ∃ A B, f.preorder = A ++ p :: (c.preorder ++ B) ∧
      (f.mapUnder p u).preorder = A ++ p :: ((u c).preorder ++ B) := by
  induction f with
  | nil => exact h.elim
  | node a c' s ihc ihs =>
    obtain ⟨hac, has, hnc, hns, hcs⟩ := nodup_node hnodup
    by_cases hap : a = p
    · subst hap
      have hself : (node a c' s).Under a c' := Or.inl ⟨rfl, rfl⟩
      have hcc : c' = c := hself.unique h hnodup
      subst hcc
      rw [Forest.mapUnder, if_pos rfl]
      exact ⟨[], s.preorder, rfl, rfl⟩
    · rw [Forest.mapUnder, if_neg hap]
      rcases h.resolve_left fun he => hap he.1 with h | h
      · obtain ⟨A, B, h1, h2⟩ := ihc h hnc
        rw [mapUnder_of_not_mem u (hcs p h.mem.1)]
        exact ⟨a :: A, B ++ s.preorder, by simp [preorder, h1], by simp [preorder, h2]⟩
      · obtain ⟨A, B, h1, h2⟩ := ihs h hns
        rw [mapUnder_of_not_mem u fun hm => hcs p hm h.mem.1]
        exact ⟨a :: (c'.preorder ++ A), B, by simp [preorder, h1], by simp [preorder, h2]⟩

/-- A node on top leaves with all that is under it, and the order of the others stays. -/
theorem split_removeTop {x : α} {f : Forest α} (h : x ∈ f.tops) (hnodup : f.preorder.Nodup) :
    ∃ c A B, f.Under x c ∧ f.preorder = A ++ (x :: c.preorder) ++ B ∧
      (f.removeTop x).preorder = A ++ B ∧ (f.removeTop x).tops = f.tops.erase x := by
  induction f with
  | nil => cases h
  | node a c s _ ih =>
    obtain ⟨-, has, -, hns, -⟩ := nodup_node hnodup
    by_cases hax : a = x
    · subst hax
      refine ⟨c, [], s.preorder, Or.inl ⟨rfl, rfl⟩, rfl, ?_, ?_⟩
      · rw [removeTop, if_pos rfl, List.nil_append]
      · rw [removeTop, if_pos rfl, tops, List.erase_cons_head]
    · have hx : x ∈ s.tops := (List.mem_cons.mp h).resolve_left (Ne.symm hax)
      obtain ⟨c', A, B, hunder, h1, h2, h3⟩ := ih hx hns
      refine ⟨c', a :: (c.preorder ++ A), B, Or.inr (Or.inr hunder), ?_, ?_, ?_⟩
      · simp [preorder, h1]
      · rw [removeTop, if_neg hax, preorder, h2]
        simp
      · rw [removeTop, if_neg hax, tops, tops, h3, List.erase_cons_tail (by simpa using hax)]

omit [DecidableEq α] in
theorem tops_append (f g : Forest α) : (f.append g).tops = f.tops ++ g.tops := by
  induction f with
  | nil => rfl
  | node a c s _ ih => rw [append, tops, ih, tops, List.cons_append]

omit [DecidableEq α] in
theorem under_append {q : α} {d f g : Forest α} (h : (f.append g).Under q d) :
    f.Under q d ∨ g.Under q d := by
  induction f with
  | nil => exact Or.inr h
  | node a c s _ ih =>
    rcases h with h | h | h
    · exact Or.inl (Or.inl h)
    · exact Or.inl (Or.inr (Or.inl h))
    · exact (ih h).imp_left fun h => Or.inr (Or.inr h)

theorem under_removeTop {q x : α} {d f : Forest α} (h : (f.removeTop x).Under q d) :
    f.Under q d := by
  induction f with
  | nil => exact h
  | node a c s _ ih =>
    rw [removeTop] at h
    split at h
    · exact Or.inr (Or.inr h)
    · rcases h with h | h | h
      · exact Or.inl h
      · exact Or.inr (Or.inl h)
      · exact Or.inr (Or.inr (ih h))

/-- The children after a change under `p`: those of `p` changed, the others kept their order. -/
theorem under_mapUnder {q : α} {d f : Forest α} (u : Forest α → Forest α)
    (hnodup : f.preorder.Nodup) (h : (f.mapUnder p u).Under q d) :
    (∃ d', f.Under q d' ∧ d.tops = d'.tops ∧ q ≠ p) ∨
      (q = p ∧ ∃ c, f.Under p c ∧ d = u c) ∨ ∃ c, f.Under p c ∧ (u c).Under q d := by
  induction f with
  | nil => exact h.elim
  | node a c s ihc ihs =>
    obtain ⟨-, has, hnc, hns, -⟩ := nodup_node hnodup
    rw [Forest.mapUnder] at h
    by_cases hap : a = p
    · subst hap
      rw [if_pos rfl] at h
      rcases h with ⟨rfl, rfl⟩ | h | h
      · exact Or.inr (Or.inl ⟨rfl, c, Or.inl ⟨rfl, rfl⟩, rfl⟩)
      · exact Or.inr (Or.inr ⟨c, Or.inl ⟨rfl, rfl⟩, h⟩)
      · exact Or.inl ⟨d, Or.inr (Or.inr h), rfl, fun he => has (he ▸ h.mem.1)⟩
    · rw [if_neg hap] at h
      rcases h with ⟨rfl, rfl⟩ | h | h
      · exact Or.inl ⟨c, Or.inl ⟨rfl, rfl⟩, tops_mapUnder u c, hap⟩
      · rcases ihc hnc h with ⟨d', hd, htops⟩ | ⟨hqp, c', hc', hd⟩ | ⟨c', hc', hd⟩
        · exact Or.inl ⟨d', Or.inr (Or.inl hd), htops⟩
        · exact Or.inr (Or.inl ⟨hqp, c', Or.inr (Or.inl hc'), hd⟩)
        · exact Or.inr (Or.inr ⟨c', Or.inr (Or.inl hc'), hd⟩)
      · rcases ihs hns h with ⟨d', hd, htops⟩ | ⟨hqp, c', hc', hd⟩ | ⟨c', hc', hd⟩
        · exact Or.inl ⟨d', Or.inr (Or.inr hd), htops⟩
        · exact Or.inr (Or.inl ⟨hqp, c', Or.inr (Or.inr hc'), hd⟩)
        · exact Or.inr (Or.inr ⟨c', Or.inr (Or.inr hc'), hd⟩)

/-! ## A change at the end, or in the middle, of the siblings -/

omit [DecidableEq α] in
/-- A forest put behind another: the last node on top gets the link to it. -/
theorem Formed.append {a : α} {c s g : Forest α} (h : Formed k null p (node a c s))
    (hg : Formed k' null p g) (hnodup : (node a c s).preorder.Nodup)
    (hlast : k'.slide (s.tops.getLastD a) = g.first null)
    (hk : ∀ b ∈ (node a c s).preorder, k'.parent b = k.parent b ∧ k'.child b = k.child b ∧
      (b ≠ s.tops.getLastD a → k'.slide b = k.slide b)) :
    Formed k' null p ((node a c s).append g) := by
  induction s generalizing a c with
  | nil =>
    obtain ⟨h1, h2, h3, h4, -⟩ := h
    obtain ⟨hac, -, -, -, -⟩ := nodup_node hnodup
    obtain ⟨e1, e2, -⟩ := hk a List.mem_cons_self
    refine ⟨e1.trans h1, e2.trans h2, hlast, h4.congr ?_, hg⟩
    intro b hb
    obtain ⟨e1, e2, e3⟩ := hk b (List.mem_cons_of_mem _ (List.mem_append_left _ hb))
    refine ⟨e1, e2, e3 fun he => hac ?_⟩
    have hba : b = a := he
    exact hba ▸ hb
  | node b cb sb _ ih =>
    obtain ⟨h1, h2, h3, h4, h5⟩ := h
    obtain ⟨-, has, -, hns, hcs⟩ := nodup_node hnodup
    obtain ⟨e1, e2, e3⟩ := hk a List.mem_cons_self
    rw [tops, List.getLastD_cons] at hlast hk e3
    have hmem : sb.tops.getLastD b ∈ (node b cb sb).preorder :=
      tops_subset _ _ List.getLastD_mem_cons
    refine ⟨e1.trans h1, e2.trans h2, (e3 fun he => has (he ▸ hmem)).trans h3, ?_, ?_⟩
    · refine h4.congr fun d hd => ?_
      obtain ⟨e1, e2, e3⟩ := hk d (List.mem_cons_of_mem _ (List.mem_append_left _ hd))
      exact ⟨e1, e2, e3 fun he => hcs d hd (he ▸ hmem)⟩
    · apply ih h5 hns hlast
      intro d hd
      exact hk d (List.mem_cons_of_mem _ (List.mem_append_right _ hd))

/-- A node on top leaves: the one before it on top gets the link to the one behind it. -/
theorem Formed.removeTop {f : Forest α} {l r : List α} {x y : α} (h : Formed k null p f)
    (hnodup : f.preorder.Nodup) (htops : f.tops = l ++ y :: x :: r)
    (hy : k'.slide y = k.slide x)
    (hk : ∀ b ∈ f.preorder, b ≠ x → k'.parent b = k.parent b ∧ k'.child b = k.child b ∧
      (b ≠ y → k'.slide b = k.slide b)) :
    Formed k' null p (f.removeTop x) := by
  induction f generalizing l with
  | nil => simp [tops] at htops
  | node a c s _ ih =>
    obtain ⟨h1, h2, h3, h4, h5⟩ := h
    obtain ⟨hac, has, -, hns, hcs⟩ := nodup_node hnodup
    have hxs : x ∈ s.tops ∧ (l = [] ∧ a = y ∨ ∃ l', l = a :: l' ∧ s.tops = l' ++ y :: x :: r) := by
      cases l with
      | nil =>
        rw [tops, List.nil_append, List.cons.injEq] at htops
        exact ⟨by rw [htops.2]; exact List.mem_cons_self, Or.inl ⟨rfl, htops.1⟩⟩
      | cons b l' =>
        rw [tops, List.cons_append, List.cons.injEq] at htops
        exact ⟨by simp [htops.2], Or.inr ⟨l', by rw [htops.1], htops.2⟩⟩
    obtain ⟨hx, hcase⟩ := hxs
    have hxmem := tops_subset s x hx
    have hax : a ≠ x := fun he => has (he ▸ hxmem)
    obtain ⟨e1, e2, e3⟩ := hk a List.mem_cons_self hax
    have hc : Formed k' null a c := by
      refine h4.congr fun d hd => ?_
      have hdx : d ≠ x := fun he => hcs d hd (he ▸ hxmem)
      obtain ⟨e1, e2, e3⟩ := hk d (List.mem_cons_of_mem _ (List.mem_append_left _ hd)) hdx
      refine ⟨e1, e2, e3 fun he => ?_⟩
      rcases hcase with ⟨-, rfl⟩ | ⟨l', -, hs⟩
      · exact hac (he ▸ hd)
      · exact hcs d hd (he ▸ tops_subset s y (by simp [hs]))
    rw [Forest.removeTop, if_neg hax]
    rcases hcase with ⟨rfl, rfl⟩ | ⟨l', -, hs⟩
    · rw [tops, List.nil_append, List.cons.injEq] at htops
      cases s with
      | nil => cases hx
      | node b cb sb =>
        rw [tops, List.cons.injEq] at htops
        obtain ⟨-, rfl, -⟩ := htops
        obtain ⟨g1, g2, g3, g4, g5⟩ := h5
        obtain ⟨-, hbs, -, -, -⟩ := nodup_node hns
        rw [Forest.removeTop, if_pos rfl]
        refine ⟨e1.trans h1, e2.trans h2, hy.trans g3, hc, g5.congr fun d hd => ?_⟩
        have hdmem : d ∈ (node b cb sb).preorder :=
          List.mem_cons_of_mem _ (List.mem_append_right _ hd)
        obtain ⟨e1, e2, e3⟩ := hk d (List.mem_cons_of_mem _ (List.mem_append_right _ hdmem))
          fun he => hbs (he ▸ hd)
        exact ⟨e1, e2, e3 fun he => has (he ▸ hdmem)⟩
    · have hay : a ≠ y := fun he => has (he ▸ tops_subset s y (by simp [hs]))
      have hfirst : (s.removeTop x).first null = s.first null := by
        cases s with
        | nil => cases hx
        | node b cb sb =>
          have hbx : b ≠ x := by
            rintro rfl
            obtain ⟨-, hbs, -, -, -⟩ := nodup_node hns
            rw [tops] at hs
            cases l' with
            | nil =>
              rw [List.nil_append, List.cons.injEq] at hs
              exact hbs (tops_subset sb b (by simp [hs.2]))
            | cons d l' =>
              rw [List.cons_append, List.cons.injEq] at hs
              exact hbs (tops_subset sb b (by simp [hs.2]))
          rw [Forest.removeTop, if_neg hbx]
          rfl
      refine ⟨e1.trans h1, e2.trans h2, ?_, hc, ?_⟩
      · rw [hfirst]
        exact (e3 hay).trans h3
      · apply ih h5 hns hs
        intro d hd hdx
        exact hk d (List.mem_cons_of_mem _ (List.mem_append_right _ hd)) hdx

/-- The node in front leaves. -/
theorem Formed.removeFirst {a : α} {c s : Forest α} (h : Formed k null p (node a c s))
    (hk : Agree k k' s.preorder) : Formed k' null p ((node a c s).removeTop a) := by
  obtain ⟨-, -, -, -, h5⟩ := h
  rw [Forest.removeTop, if_pos rfl]
  exact h5.congr hk

end links

end Forest

end forests
