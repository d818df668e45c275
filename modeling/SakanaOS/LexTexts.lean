-- Texts that sort like what they spell: each letter becomes a block of the target alphabet, whose
-- length depends on its place only, and blocks at one place are in the order of their letters.
import Mathlib.Algebra.GroupWithZero.Nat
import Mathlib.Data.List.Basic

namespace lex_texts

variable {α β : Type}

/-- The blocks of the letters, the first of which has the place `i`. -/
def encode (block : Nat → α → List β) : Nat → List α → List β
  | _, [] => []
  | i, x :: xs => block i x ++ encode block (i + 1) xs

theorem length_encode {block : Nat → α → List β} (width : Nat → Nat)
    (h : ∀ i x, (block i x).length = width i) (i : Nat) (xs : List α) :
    (encode block i xs).length = ((List.range' i xs.length).map width).sum := by
  induction xs generalizing i with
  | nil => rfl
  | cons x xs ih =>
    rw [encode, List.length_append, h, ih, List.length_cons, List.range'_succ, List.map_cons,
      List.sum_cons]

/-- Where two texts of one length differ, what follows them does not count. -/
theorem append_lt_append [LT β] [Std.Irrefl fun a b : β => a < b] {l r : List β}
    (hlen : l.length = r.length) (h : l < r) (s t : List β) : l ++ s < r ++ t := by
  induction l generalizing r with
  | nil =>
    rw [List.length_eq_zero_iff.mp hlen.symm] at h
    exact absurd h (List.lt_irrefl [])
  | cons a l ih =>
    cases r with
    | nil => cases hlen
    | cons b r =>
      rw [List.cons_lt_cons_iff] at h
      rw [List.cons_append, List.cons_append, List.cons_lt_cons_iff]
      rcases h with hab | ⟨rfl, h⟩
      · exact Or.inl hab
      · exact Or.inr ⟨rfl, ih (Nat.succ.inj hlen) h⟩

/-- Blocks whose lengths agree at each place and that are in the order of their letters. -/
structure OrderedCode [LT α] [LT β] (block : Nat → α → List β) : Prop where
  length_eq : ∀ i x y, (block i x).length = (block i y).length
  lt : ∀ i {x y}, x < y → block i x < block i y

variable [LT α] [Std.Asymm fun a b : α => a < b] [LT β] [Std.Asymm fun a b : β => a < b]
  {block : Nat → α → List β}

theorem OrderedCode.encode_lt (h : OrderedCode block) (i : Nat) {xs ys : List α}
    (hlen : xs.length = ys.length) (hlt : xs < ys) : encode block i xs < encode block i ys := by
  induction xs generalizing i ys with
  | nil =>
    rw [List.length_eq_zero_iff.mp hlen.symm] at hlt
    exact absurd hlt (List.lt_irrefl [])
  | cons x xs ih =>
    cases ys with
    | nil => cases hlen
    | cons y ys =>
      rw [List.cons_lt_cons_iff] at hlt
      rcases hlt with hxy | ⟨rfl, hlt⟩
      · exact append_lt_append (h.length_eq i x y) (h.lt i hxy) _ _
      · exact List.append_left_lt (ih (i + 1) (Nat.succ.inj hlen) hlt)

/-- The texts compare as what they spell does. -/
theorem OrderedCode.encode_compare [Std.Trichotomous fun a b : α => a < b]
    (h : OrderedCode block) (i : Nat) {xs ys : List α} (hlen : xs.length = ys.length) :
    (encode block i xs < encode block i ys ↔ xs < ys) ∧
      (encode block i xs = encode block i ys ↔ xs = ys) := by
  rcases Std.lt_trichotomy xs ys with hlt | rfl | hgt
  · have htext := h.encode_lt i hlen hlt
    exact ⟨iff_of_true htext hlt, iff_of_false (Std.ne_of_lt htext) (Std.ne_of_lt hlt)⟩
  · exact ⟨iff_of_false (List.lt_irrefl _) (List.lt_irrefl _), iff_of_true rfl rfl⟩
  · have htext := h.encode_lt i hlen.symm hgt
    exact ⟨iff_of_false (List.lt_asymm htext) (List.lt_asymm hgt),
      iff_of_false (Std.ne_of_lt htext).symm (Std.ne_of_lt hgt).symm⟩

end lex_texts
