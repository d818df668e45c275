-- The bubble sort of a list, with the number of turns of each loop made explicit:
-- it loses no element, and for a total preorder it leaves them in order, equal ones as they were.
import SakanaOS.SortOrders

open sort_orders

namespace bubble_sort

variable {α : Type} (gt : α → α → Bool)

/-- The next `turns` comparisons of neighbours, and whether some were swapped. -/
def pass : Nat → List α → List α × Bool
  | turns + 1, x :: y :: rest =>
    if gt x y then (y :: (pass turns (x :: rest)).1, true)
    else (x :: (pass turns (y :: rest)).1, (pass turns (y :: rest)).2)
  | _, l => (l, false)

/-- The passes, each with one turn less than the one before, up to one without a swap. -/
def passes : Nat → List α → List α
  | 0, l => l
  | turns + 1, l =>
    if (pass gt (turns + 1) l).2 then passes turns (pass gt (turns + 1) l).1
    else (pass gt (turns + 1) l).1

@[simp] theorem pass_zero (l : List α) : pass gt 0 l = (l, false) := by
  unfold pass
  rfl

theorem pass_swap {x y : α} (h : gt x y = true) (turns : Nat) (rest : List α) :
    pass gt (turns + 1) (x :: y :: rest) = (y :: (pass gt turns (x :: rest)).1, true) := by
  rw [pass, if_pos h]

theorem pass_keep {x y : α} (h : ¬ gt x y = true) (turns : Nat) (rest : List α) :
    pass gt (turns + 1) (x :: y :: rest) =
      (x :: (pass gt turns (y :: rest)).1, (pass gt turns (y :: rest)).2) := by
  rw [pass, if_neg h]

theorem pass_perm (turns : Nat) (l : List α) : (pass gt turns l).1.Perm l := by
  induction turns, l using pass.induct gt with
  | case1 turns x y rest h ih =>
    rw [pass_swap gt h]
    exact (ih.cons y).trans (List.Perm.swap x y rest)
  | case2 turns x y rest h ih =>
    rw [pass_keep gt h]
    exact ih.cons x
  | case3 turns l h =>
    rw [pass]
    exact h

theorem passes_perm (turns : Nat) (l : List α) : (passes gt turns l).Perm l := by
  induction turns generalizing l with
  | zero => exact List.Perm.refl l
  | succ turns ih =>
    unfold passes
    split
    · exact (ih _).trans (pass_perm gt _ l)
    · exact pass_perm gt _ l

/-! ## The order after the passes -/

section

variable {gt}

theorem pass_rearranged (h : TotalPreorder gt) (turns : Nat) (l : List α) :
    Rearranged gt l (pass gt turns l).1 := by
  induction turns, l using pass.induct gt with
  | case1 turns x y rest hxy ih =>
    rw [pass_swap gt hxy]
    exact (Rearranged.swap h hxy rest).trans (ih.cons y)
  | case2 turns x y rest hxy ih =>
    rw [pass_keep gt hxy]
    exact ih.cons x
  | case3 turns l hl =>
    rw [pass]
    · exact Rearranged.refl l
    · exact hl

theorem passes_rearranged (h : TotalPreorder gt) (turns : Nat) (l : List α) :
    Rearranged gt l (passes gt turns l) := by
  induction turns generalizing l with
  | zero => exact Rearranged.refl l
  | succ turns ih =>
    unfold passes
    split
    · exact (pass_rearranged h _ l).trans (ih _)
    · exact pass_rearranged h _ l

/-- A pass leaves what is behind its last comparison. -/
theorem pass_append (turns : Nat) (A B : List α) (hturns : turns < A.length) :
    pass gt turns (A ++ B) = ((pass gt turns A).1 ++ B, (pass gt turns A).2) := by
  induction turns, A using pass.induct gt with
  | case1 turns x y rest hxy ih =>
    rw [pass_swap gt hxy, List.cons_append, List.cons_append, pass_swap gt hxy]
    have hrest := ih (Nat.lt_of_succ_lt_succ hturns)
    rw [List.cons_append] at hrest
    rw [hrest, List.cons_append]
  | case2 turns x y rest hxy ih =>
    rw [pass_keep gt hxy, List.cons_append, List.cons_append, pass_keep gt hxy]
    have hrest := ih (Nat.lt_of_succ_lt_succ hturns)
    rw [List.cons_append] at hrest
    rw [hrest, List.cons_append]
  | case3 turns l hl =>
    cases turns with
    | zero => simp
    | succ turns =>
      match l with
      | [] | [_] => simp at hturns
      | x :: y :: rest => exact (hl turns x y rest rfl rfl).elim

/-- A pass over all elements takes a greatest one to the end. -/
theorem pass_greatest (h : TotalPreorder gt) (turns : Nat) (l : List α)
    (hturns : l.length = turns + 1) :
    ∃ A m, (pass gt turns l).1 = A ++ [m] ∧ ∀ a ∈ A, gt a m = false := by
  induction turns generalizing l with
  | zero =>
    obtain ⟨x, rfl⟩ := List.length_eq_one_iff.mp hturns
    exact ⟨[], x, by simp, by simp⟩
  | succ turns ih =>
    match l with
    | [] | [_] => simp at hturns
    | x :: y :: rest =>
      have hlength : ∀ z : α, (z :: rest).length = turns + 1 := fun z => by simpa using hturns
      by_cases hxy : gt x y = true
      · obtain ⟨A, m, hpass, hle⟩ := ih (x :: rest) (hlength x)
        have hx : gt x m = false := by
          have hmem := (pass_perm gt turns (x :: rest)).symm.subset List.mem_cons_self
          rw [hpass, List.mem_append, List.mem_singleton] at hmem
          rcases hmem with hmem | rfl
          · exact hle x hmem
          · exact h.refl x
        rw [pass_swap gt hxy, hpass]
        refine ⟨y :: A, m, rfl, fun a ha => ?_⟩
        rcases List.mem_cons.mp ha with rfl | ha
        · exact h.trans a x m (h.total x a hxy) hx
        · exact hle a ha
      · obtain ⟨A, m, hpass, hle⟩ := ih (y :: rest) (hlength y)
        have hy : gt y m = false := by
          have hmem := (pass_perm gt turns (y :: rest)).symm.subset List.mem_cons_self
          rw [hpass, List.mem_append, List.mem_singleton] at hmem
          rcases hmem with hmem | rfl
          · exact hle y hmem
          · exact h.refl y
        rw [pass_keep gt hxy, hpass]
        refine ⟨x :: A, m, rfl, fun a ha => ?_⟩
        rcases List.mem_cons.mp ha with rfl | ha
        · exact h.trans a y m (Bool.eq_false_iff.mpr hxy) hy
        · exact hle a ha

/-- A pass over all elements without a swap found them in order. -/
theorem pass_unswapped (h : TotalPreorder gt) (turns : Nat) (l : List α)
    (hturns : l.length = turns + 1) (hflag : (pass gt turns l).2 = false) :
    (pass gt turns l).1 = l ∧ Sorted gt l := by
  induction turns generalizing l with
  | zero =>
    obtain ⟨x, rfl⟩ := List.length_eq_one_iff.mp hturns
    exact ⟨by simp, List.pairwise_singleton _ _⟩
  | succ turns ih =>
    match l with
    | [] | [_] => simp at hturns
    | x :: y :: rest =>
      by_cases hxy : gt x y = true
      · rw [pass_swap gt hxy] at hflag
        cases hflag
      · rw [pass_keep gt hxy] at hflag ⊢
        obtain ⟨hsame, hsorted⟩ := ih (y :: rest) (by simpa using hturns) hflag
        exact ⟨by rw [hsame], sorted_cons_of_le h (Bool.eq_false_iff.mpr hxy) hsorted⟩

/-- The passes put the front in order when what is behind it is in order and belongs there. -/
theorem passes_sorted (h : TotalPreorder gt) (turns : Nat) (A B : List α)
    (hturns : A.length = turns + 1) (hB : Sorted gt B)
    (hAB : ∀ a ∈ A, ∀ b ∈ B, gt a b = false) : Sorted gt (passes gt turns (A ++ B)) := by
  induction turns generalizing A B with
  | zero =>
    obtain ⟨x, rfl⟩ := List.length_eq_one_iff.mp hturns
    exact List.Pairwise.cons (hAB x List.mem_cons_self) hB
  | succ turns ih =>
    rw [passes, pass_append _ _ _ (by omega)]
    have hperm := pass_perm gt (turns + 1) A
    split
    · obtain ⟨A', m, hpass, hle⟩ := pass_greatest h (turns + 1) A hturns
      rw [hpass] at hperm ⊢
      have hmB : ∀ b ∈ B, gt m b = false := hAB m (hperm.subset (by simp))
      rw [List.append_assoc]
      apply ih
      · have hlength := hperm.length_eq
        rw [List.length_append, List.length_singleton] at hlength
        omega
      · exact List.Pairwise.cons hmB hB
      · intro a ha b hb
        rcases List.mem_cons.mp hb with rfl | hb
        · exact hle a ha
        · exact hAB a (hperm.subset (List.mem_append_left _ ha)) b hb
    · rename_i hflag
      obtain ⟨hsame, hsorted⟩ := pass_unswapped h _ A hturns (Bool.eq_false_iff.mpr hflag)
      rw [hsame]
      exact List.pairwise_append.mpr ⟨hsorted, hB, hAB⟩

end

end bubble_sort
