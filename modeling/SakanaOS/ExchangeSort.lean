-- The sort that exchanges the element at one place with every smaller one behind it, place by
-- place: it loses no element, and the elements come out in order.
import SakanaOS.SortOrders

open sort_orders

namespace exchange_sort

variable {α : Type} (gt : α → α → Bool)

/-- The element in front, after it was compared with all others and exchanged with each that is
smaller. -/
def exchange : α → List α → α × List α
  | x, [] => (x, [])
  | x, y :: l =>
    if gt x y then ((exchange y l).1, x :: (exchange y l).2)
    else ((exchange x l).1, y :: (exchange x l).2)

/-- The exchanges for each place in turn. -/
def exchanges : Nat → List α → List α
  | turns + 1, x :: l => (exchange gt x l).1 :: exchanges turns (exchange gt x l).2
  | _, l => l

@[simp] theorem exchange_nil (x : α) : exchange gt x [] = (x, []) := rfl

theorem exchange_swap {x y : α} (h : gt x y = true) (l : List α) :
    exchange gt x (y :: l) = ((exchange gt y l).1, x :: (exchange gt y l).2) := by
  rw [exchange, if_pos h]

theorem exchange_keep {x y : α} (h : ¬ gt x y = true) (l : List α) :
    exchange gt x (y :: l) = ((exchange gt x l).1, y :: (exchange gt x l).2) := by
  rw [exchange, if_neg h]

theorem exchange_perm (x : α) (l : List α) :
    ((exchange gt x l).1 :: (exchange gt x l).2).Perm (x :: l) := by
  induction l generalizing x with
  | nil => exact List.Perm.refl _
  | cons y l ih =>
    by_cases h : gt x y = true
    · rw [exchange_swap gt h]
      exact (List.Perm.swap _ _ _).trans ((ih y).cons x)
    · rw [exchange_keep gt h]
      exact (List.Perm.swap _ _ _).trans (((ih x).cons y).trans (List.Perm.swap _ _ _))

theorem exchange_length (x : α) (l : List α) : (exchange gt x l).2.length = l.length := by
  have hlength := (exchange_perm gt x l).length_eq
  simpa using hlength

theorem exchanges_perm (turns : Nat) (l : List α) : (exchanges gt turns l).Perm l := by
  induction turns generalizing l with
  | zero => exact List.Perm.refl l
  | succ turns ih =>
    cases l with
    | nil => exact List.Perm.refl _
    | cons x l => exact ((ih _).cons _).trans (exchange_perm gt x l)

variable {gt}

/-- What is in front after the exchanges is not behind what was there. -/
theorem exchange_le (h : TotalPreorder gt) (x : α) (l : List α) :
    gt (exchange gt x l).1 x = false := by
  induction l generalizing x with
  | nil => exact h.refl x
  | cons y l ih =>
    by_cases hxy : gt x y = true
    · rw [exchange_swap gt hxy]
      exact h.trans _ y x (ih y) (h.total x y hxy)
    · rw [exchange_keep gt hxy]
      exact ih x

/-- The element in front is a least one. -/
theorem exchange_least (h : TotalPreorder gt) (x : α) (l : List α) :
    ∀ z ∈ (exchange gt x l).2, gt (exchange gt x l).1 z = false := by
  induction l generalizing x with
  | nil => simp
  | cons y l ih =>
    intro z hz
    by_cases hxy : gt x y = true
    · rw [exchange_swap gt hxy] at hz ⊢
      rcases List.mem_cons.mp hz with rfl | hz
      · exact h.trans _ y z (exchange_le h y l) (h.total z y hxy)
      · exact ih y z hz
    · rw [exchange_keep gt hxy] at hz ⊢
      rcases List.mem_cons.mp hz with rfl | hz
      · exact h.trans _ x z (exchange_le h x l) (Bool.eq_false_iff.mpr hxy)
      · exact ih x z hz

/-- As many turns as there are places leave the elements in order. -/
theorem exchanges_sorted (h : TotalPreorder gt) (turns : Nat) (l : List α)
    (hturns : l.length ≤ turns) : Sorted gt (exchanges gt turns l) := by
  induction turns generalizing l with
  | zero =>
    rw [List.length_eq_zero_iff.mp (Nat.le_zero.mp hturns)]
    exact List.Pairwise.nil
  | succ turns ih =>
    cases l with
    | nil => exact List.Pairwise.nil
    | cons x l =>
      have hlength : (exchange gt x l).2.length ≤ turns := by
        rw [exchange_length]
        exact Nat.le_of_succ_le_succ hturns
      refine List.Pairwise.cons (fun z hz => ?_) (ih _ hlength)
      exact exchange_least h x l z ((exchanges_perm gt turns _).subset hz)

end exchange_sort
