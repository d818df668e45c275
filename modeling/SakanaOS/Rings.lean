-- A ring of slots with a head, a tail and a size: the list that it holds, and what
-- the steps of a queue do to that list.
import Mathlib.Logic.Function.Basic
import Mathlib.Data.List.Basic

namespace rings

variable {α : Type} {n head i j : Nat}

/-! ## The slots behind the head -/

/-- The slot `i` places behind the head, in a ring of `n` slots. -/
def slot (n head i : Nat) : Nat := (head + i) % n

theorem slot_lt (hn : 0 < n) : slot n head i < n := Nat.mod_lt _ hn

theorem slot_zero (h : head < n) : slot n head 0 = head := Nat.mod_eq_of_lt h

theorem slot_next (n head i : Nat) : slot n (slot n head 1) i = slot n head (i + 1) := by
  unfold slot
  rw [Nat.mod_add_mod, Nat.add_assoc, Nat.add_comm 1 i]

/-- Two places less than a whole turn apart are two slots. -/
theorem slot_ne (hij : i < j) (hj : j < n + i) : slot n head i ≠ slot n head j := by
  unfold slot
  intro heq
  have hdvd : n ∣ (head + j) - (head + i) :=
    Nat.dvd_of_mod_eq_zero (Nat.sub_mod_eq_zero_of_mod_eq heq.symm)
  have hle := Nat.le_of_dvd (by omega) hdvd
  omega

/-! ## The ring -/

structure SlotRing (α : Type) where
  slots : Nat → α
  head : Nat
  tail : Nat
  size : Nat

/-- What a ring of `n` slots holds, the oldest element first. -/
def SlotRing.contents (n : Nat) (r : SlotRing α) : List α :=
  (List.range r.size).map fun i => r.slots (slot n r.head i)

structure SlotRing.Good (n : Nat) (r : SlotRing α) : Prop where
  head : r.head < n
  tail : r.tail = slot n r.head r.size
  size : r.size ≤ n

/-- A new element behind the last one. A full ring stays as it is. -/
def SlotRing.push (n : Nat) (r : SlotRing α) (x : α) : SlotRing α :=
  if r.size = n then r
  else
    { r with
      slots := Function.update r.slots r.tail x
      size := r.size + 1
      tail := slot n r.tail 1 }

/-- The first half of a removal. -/
def SlotRing.shrink (r : SlotRing α) : SlotRing α := { r with size := r.size - 1 }

/-- The second half of a removal: the slot of the head is given back. -/
def SlotRing.advance (n : Nat) (r : SlotRing α) : SlotRing α := { r with head := slot n r.head 1 }

@[simp] theorem length_contents (r : SlotRing α) : (r.contents n).length = r.size := by
  simp [SlotRing.contents]

theorem SlotRing.Good.tail_lt {r : SlotRing α} (h : r.Good n) : r.tail < n := by
  rw [h.tail]
  exact slot_lt (Nat.zero_lt_of_lt h.head)

theorem push_full {r : SlotRing α} (h : r.size = n) (x : α) : r.push n x = r := if_pos h

theorem push_room {r : SlotRing α} (h : r.size ≠ n) (x : α) : r.push n x =
    { r with
      slots := Function.update r.slots r.tail x
      size := r.size + 1
      tail := slot n r.tail 1 } :=
  if_neg h

theorem SlotRing.Good.push {r : SlotRing α} (h : r.Good n) (x : α) : (r.push n x).Good n := by
  by_cases hfull : r.size = n
  · rw [push_full hfull]
    exact h
  · rw [push_room hfull]
    have hsize := h.size
    refine ⟨h.head, ?_, by simp only; omega⟩
    simp only [h.tail]
    unfold slot
    rw [Nat.mod_add_mod, Nat.add_assoc]

/-- No slot that is held is the slot of the tail, while there is room. -/
theorem SlotRing.Good.held_ne_tail {r : SlotRing α} (h : r.Good n) (hroom : r.size ≠ n)
    (hi : i < r.size) : slot n r.head i ≠ r.tail := by
  have hsize := h.size
  rw [h.tail]
  exact slot_ne hi (by omega)

theorem contents_push {r : SlotRing α} (h : r.Good n) (hroom : r.size ≠ n) (x : α) :
    (r.push n x).contents n = r.contents n ++ [x] := by
  rw [push_room hroom]
  unfold SlotRing.contents
  simp only [List.range_succ, List.map_append, List.map_cons, List.map_nil]
  congr 1
  · apply List.map_congr_left
    intro i hi
    exact Function.update_of_ne (h.held_ne_tail hroom (List.mem_range.mp hi)) _ _
  · rw [← h.tail, Function.update_self]

/-- A push that finds the slot of the head given back does not see whether the
head was moved. -/
theorem advance_push (r : SlotRing α) (x : α) :
    (r.push n x).advance n = (r.advance n).push n x := by
  by_cases hfull : r.size = n
  · rw [push_full hfull, push_full (r := r.advance n) hfull]
  · rw [push_room hfull, push_room (r := r.advance n) hfull]
    rfl

/-- The two halves of a removal take the oldest element away. -/
theorem contents_pop {r : SlotRing α} (h : r.Good n) (hsize : r.size ≠ 0) :
    r.contents n = r.slots r.head :: (r.shrink.advance n).contents n := by
  obtain ⟨k, hk⟩ := Nat.exists_eq_succ_of_ne_zero hsize
  unfold SlotRing.contents SlotRing.advance SlotRing.shrink
  simp only [hk, Nat.succ_sub_one]
  rw [Nat.succ_eq_add_one, List.range_succ_eq_map, List.map_cons, slot_zero h.head, List.map_map]
  congr 1
  apply List.map_congr_left
  intro i _
  simp only [Function.comp, slot_next]

theorem SlotRing.Good.pop {r : SlotRing α} (h : r.Good n) (hsize : r.size ≠ 0) :
    (r.shrink.advance n).Good n := by
  have hle := h.size
  refine ⟨slot_lt (Nat.zero_lt_of_lt h.head), ?_, ?_⟩
  · unfold SlotRing.advance SlotRing.shrink
    simp only
    rw [slot_next, h.tail]
    congr 1
    omega
  · unfold SlotRing.advance SlotRing.shrink
    simp only
    omega

/-! ## The newest elements of a list -/

/-- The last `n` elements, or all of a shorter list. -/
def newest (n : Nat) (l : List α) : List α := l.drop (l.length - n)

theorem newest_all {l : List α} (h : l.length ≤ n) : newest n l = l := by
  unfold newest
  rw [Nat.sub_eq_zero_of_le h, List.drop_zero]

/-- What stands in front of enough elements is not among the newest. -/
theorem newest_behind {l r : List α} (h : n ≤ r.length) : newest n (l ++ r) = newest n r := by
  unfold newest
  rw [List.length_append, List.drop_append, List.drop_eq_nil_of_le (by omega), List.nil_append]
  congr 1
  omega

/-- To keep the newest elements at each step is to keep the newest elements in the end. -/
theorem newest_append_newest (n : Nat) (l r : List α) :
    newest n (newest n l ++ r) = newest n (l ++ r) := by
  by_cases h : l.length ≤ n
  · rw [newest_all h]
  · have hlen : (newest n l).length = n := by
      unfold newest
      rw [List.length_drop]
      omega
    have hsplit : l ++ r = l.take (l.length - n) ++ (newest n l ++ r) := by
      unfold newest
      rw [← List.append_assoc, List.take_append_drop]
    have hle : n ≤ (newest n l ++ r).length := by
      rw [List.length_append, hlen]
      exact Nat.le_add_right n r.length
    rw [hsplit]
    exact (newest_behind hle).symm

end rings
