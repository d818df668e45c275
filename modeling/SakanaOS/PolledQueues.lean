-- Queues that are polled: before each poll some elements arrive, and the poll takes the first one
-- that waits. What the polls get, with what waits in the end, is what arrived, in its order.
import Mathlib.Data.List.ReduceOption

namespace polled_queues

variable {α : Type}

/-- What each poll gets, `none` when nothing waits. -/
def polled : List α → List (List α) → List (Option α)
  | _, [] => []
  | waiting, new :: arrivals => (waiting ++ new).head? :: polled (waiting ++ new).tail arrivals

/-- What waits after the last poll. -/
def left : List α → List (List α) → List α
  | waiting, [] => waiting
  | waiting, new :: arrivals => left (waiting ++ new).tail arrivals

/-- At no time more than `n` elements wait. -/
def Room (n : Nat) : List α → List (List α) → Prop
  | _, [] => True
  | waiting, new :: arrivals => (waiting ++ new).length ≤ n ∧ Room n (waiting ++ new).tail arrivals

instance decidableRoom (n : Nat) :
    ∀ (waiting : List α) (arrivals : List (List α)), Decidable (Room n waiting arrivals)
  | _, [] => isTrue trivial
  | waiting, new :: arrivals =>
    have := decidableRoom n (waiting ++ new).tail arrivals
    inferInstanceAs (Decidable (_ ∧ _))

theorem head?_toList_append_tail (l : List α) : l.head?.toList ++ l.tail = l := by
  cases l <;> rfl

theorem reduceOption_cons (o : Option α) (l : List (Option α)) :
    (o :: l).reduceOption = o.toList ++ l.reduceOption := by
  cases o with
  | none => exact List.reduceOption_cons_of_none l
  | some a => exact List.reduceOption_cons_of_some a l

theorem polled_left (waiting : List α) (arrivals : List (List α)) :
    (polled waiting arrivals).reduceOption ++ left waiting arrivals =
      waiting ++ arrivals.flatten := by
  induction arrivals generalizing waiting with
  | nil =>
    rw [List.flatten_nil, List.append_nil]
    rfl
  | cons new arrivals ih =>
    rw [polled, left, reduceOption_cons, List.append_assoc, ih, ← List.append_assoc,
      head?_toList_append_tail, List.flatten_cons, List.append_assoc]

/-- Polls that end with a mark, over and over: the pieces between the marks, and what waits in the
end. -/
def Pieces (n : Nat) (mark : α) : List α → List (List (List α)) → List (List α) → List α → Prop
  | waiting, [], pieces, rest => pieces = [] ∧ rest = waiting
  | waiting, arrivals :: later, pieces, rest =>
    Room n waiting arrivals ∧ ∃ polls pieces', polled waiting arrivals = polls ++ [some mark] ∧
      some mark ∉ polls ∧ pieces = polls.reduceOption :: pieces' ∧
      Pieces n mark (left waiting arrivals) later pieces' rest

/-- The pieces are those of all that arrived. -/
theorem Pieces.text {n : Nat} {mark : α} {waiting rest : List α} {schedule : List (List (List α))}
    {pieces : List (List α)} (h : Pieces n mark waiting schedule pieces rest) :
    (pieces.map (· ++ [mark])).flatten ++ rest = waiting ++ schedule.flatten.flatten ∧
      ∀ piece ∈ pieces, mark ∉ piece := by
  induction schedule generalizing waiting pieces with
  | nil =>
    obtain ⟨rfl, rfl⟩ := h
    refine ⟨(List.append_nil rest).symm, ?_⟩
    intro piece hpiece
    cases hpiece
  | cons arrivals later ih =>
    obtain ⟨-, polls, pieces', hpolled, hnot, rfl, hlater⟩ := h
    obtain ⟨htext, hfree⟩ := ih hlater
    have hleft := polled_left waiting arrivals
    rw [hpolled, List.reduceOption_append, List.reduceOption_singleton] at hleft
    refine ⟨?_, ?_⟩
    · rw [List.map_cons, List.flatten_cons, List.append_assoc, htext, ← List.append_assoc,
        List.flatten_cons, List.flatten_append, ← List.append_assoc, ← hleft]
      rfl
    · intro piece hpiece
      rcases List.mem_cons.mp hpiece with rfl | hpiece
      · rwa [List.reduceOption_mem_iff]
      · exact hfree piece hpiece

end polled_queues
