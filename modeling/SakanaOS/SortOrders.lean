-- The order of a sort whose comparison may call different elements equal, and what such a sort
-- must leave of the elements that it calls equal.
import Mathlib.Data.List.Perm.Basic

namespace sort_orders

variable {α : Type}

/-- `gt` says which of two elements belongs behind the other, in a total preorder. -/
structure TotalPreorder (gt : α → α → Bool) : Prop where
  total : ∀ x y, gt x y = true → gt y x = false
  trans : ∀ x y z, gt x y = false → gt y z = false → gt x z = false

/-- No element belongs behind one that comes after it. -/
def Sorted (gt : α → α → Bool) (l : List α) : Prop := l.Pairwise fun x y => gt x y = false

/-- The elements that count as equal to one of them, in their order. -/
def equals (gt : α → α → Bool) (x : α) (l : List α) : List α :=
  l.filter fun y => !gt x y && !gt y x

/-- The elements are the same, and equal ones stand in the same order. -/
structure Rearranged (gt : α → α → Bool) (l l' : List α) : Prop where
  perm : l'.Perm l
  stable : ∀ x, equals gt x l' = equals gt x l

section

variable {gt : α → α → Bool}

theorem TotalPreorder.refl (h : TotalPreorder gt) (x : α) : gt x x = false := by
  cases hx : gt x x with
  | false => rfl
  | true => rw [← hx, h.total x x hx]

/-- An element in front of all others. -/
theorem sorted_cons_of_le (h : TotalPreorder gt) {x y : α} {l : List α} (hxy : gt x y = false)
    (hl : Sorted gt (y :: l)) : Sorted gt (x :: y :: l) := by
  refine List.Pairwise.cons (fun z hz => ?_) hl
  rcases List.mem_cons.mp hz with rfl | hz
  · exact hxy
  · exact h.trans x y z hxy (List.rel_of_pairwise_cons hl hz)

theorem Rearranged.refl (l : List α) : Rearranged gt l l := ⟨List.Perm.refl l, fun _ => rfl⟩

theorem Rearranged.trans {l l' l'' : List α} (h : Rearranged gt l l') (h' : Rearranged gt l' l'') :
    Rearranged gt l l'' := ⟨h'.perm.trans h.perm, fun x => (h'.stable x).trans (h.stable x)⟩

theorem Rearranged.cons {l l' : List α} (h : Rearranged gt l l') (x : α) :
    Rearranged gt (x :: l) (x :: l') := by
  refine ⟨h.perm.cons x, fun y => ?_⟩
  have hrest := h.stable y
  unfold equals at hrest ⊢
  rw [List.filter_cons, List.filter_cons, hrest]

/-- Two neighbours in the wrong order are not equal, to each other or to a third. -/
theorem Rearranged.swap (h : TotalPreorder gt) {x y : α} (hxy : gt x y = true) (l : List α) :
    Rearranged gt (x :: y :: l) (y :: x :: l) := by
  refine ⟨List.Perm.swap x y l, fun z => ?_⟩
  unfold equals
  simp only [List.filter_cons, Bool.and_eq_true, Bool.not_eq_true']
  by_cases hx : gt z x = false ∧ gt x z = false
  · by_cases hy : gt z y = false ∧ gt y z = false
    · have hle := h.trans x z y hx.2 hy.1
      rw [hxy] at hle
      cases hle
    · rw [if_neg hy, if_neg hy]
  · rw [if_neg hx, if_neg hx]

end

/-! ## Comparisons that give a number -/

section

variable {comp : α → α → Int}

/-- The numbers that a comparison gives are at most 0 in a total preorder. -/
structure TotalComparison (comp : α → α → Int) : Prop where
  total : ∀ x y, comp x y ≤ 0 ∨ comp y x ≤ 0
  trans : ∀ x y z, comp x y ≤ 0 → comp y z ≤ 0 → comp x z ≤ 0

/-- The test of a sort that compares. -/
def gtOf (comp : α → α → Int) (x y : α) : Bool := decide (comp x y > 0)

@[simp] theorem gtOf_eq_false {x y : α} : gtOf comp x y = false ↔ comp x y ≤ 0 := by
  simp [gtOf]

theorem TotalComparison.preorder (h : TotalComparison comp) : TotalPreorder (gtOf comp) := by
  refine ⟨fun x y hxy => ?_, fun x y z hxy hyz => ?_⟩
  · have hgt := of_decide_eq_true hxy
    rcases h.total x y with hle | hle
    · omega
    · exact gtOf_eq_false.mpr hle
  · exact gtOf_eq_false.mpr (h.trans x y z (gtOf_eq_false.mp hxy) (gtOf_eq_false.mp hyz))

end

end sort_orders
