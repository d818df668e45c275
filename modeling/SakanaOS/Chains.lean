-- Doubly linked chains: a list of nodes that two link functions connect in both
-- directions, what stands before its first node, and what stands behind its last.
import Mathlib.Data.List.Basic

namespace chains

variable {α : Type} {prev next prev' next' : α → α} {p n x : α} {l r : List α}

/-- Each node of the list links back to the one before it, `p` for the first, and on
to the one behind it, `n` for the last. -/
def Chain (prev next : α → α) (p : α) : List α → α → Prop
  | [], _ => True
  | a :: l, n => prev a = p ∧ next a = l.headD n ∧ Chain prev next a l n

theorem headD_append (l r : List α) (n : α) : (l ++ r).headD n = l.headD (r.headD n) := by
  cases l <;> rfl

theorem getLastD_append (l r : List α) (p : α) :
    (l ++ r).getLastD p = r.getLastD (l.getLastD p) := by
  induction l generalizing p with
  | nil => rfl
  | cons a l ih =>
    rw [List.cons_append, List.getLastD_cons, List.getLastD_cons]
    exact ih a

theorem chain_congr (h : Chain prev next p l n) (hprev : ∀ a ∈ l, prev' a = prev a)
    (hnext : ∀ a ∈ l, next' a = next a) : Chain prev' next' p l n := by
  induction l generalizing p with
  | nil => trivial
  | cons a l ih =>
    obtain ⟨h1, h2, h3⟩ := h
    refine ⟨?_, ?_, ?_⟩
    · rw [hprev a List.mem_cons_self, h1]
    · rw [hnext a List.mem_cons_self, h2]
    · apply ih h3
      · intro b hb
        exact hprev b (List.mem_cons_of_mem a hb)
      · intro b hb
        exact hnext b (List.mem_cons_of_mem a hb)

theorem chain_append :
    Chain prev next p (l ++ r) n ↔
      Chain prev next p l (r.headD n) ∧ Chain prev next (l.getLastD p) r n := by
  induction l generalizing p with
  | nil => simp [Chain]
  | cons a l ih =>
    simp only [List.cons_append, Chain, ih, headD_append, List.getLastD_cons]
    constructor
    · rintro ⟨h1, h2, h3, h4⟩
      exact ⟨⟨h1, h2, h3⟩, h4⟩
    · rintro ⟨⟨h1, h2, h3⟩, h4⟩
      exact ⟨h1, h2, h3, h4⟩

/-- The links of a node in the middle. -/
theorem chain_middle (h : Chain prev next p (l ++ x :: r) n) :
    prev x = l.getLastD p ∧ next x = r.headD n := by
  obtain ⟨-, h1, h2, -⟩ := chain_append.mp h
  exact ⟨h1, h2⟩

/-- A chain leads to another end when its last node does, and no other link changes. -/
theorem chain_end {n' : α} (h : Chain prev next p l n) (hnodup : l.Nodup)
    (hprev : ∀ a ∈ l, prev' a = prev a)
    (hnext : ∀ a ∈ l, a ≠ l.getLastD p → next' a = next a)
    (hlast : l ≠ [] → next' (l.getLastD p) = n') : Chain prev' next' p l n' := by
  rcases List.eq_nil_or_concat l with rfl | ⟨k, z, rfl⟩
  · trivial
  · rw [List.concat_eq_append] at *
    have hz : (k ++ [z]).getLastD p = z := by simp
    rw [hz] at hnext hlast
    obtain ⟨hk, h1, -, -⟩ := chain_append.mp h
    refine chain_append.mpr ⟨?_, ?_, ?_, trivial⟩
    · apply chain_congr hk
      · intro a ha
        exact hprev a (List.mem_append_left _ ha)
      · intro a ha
        apply hnext a (List.mem_append_left _ ha)
        exact (List.nodup_append.mp hnodup).2.2 a ha z (List.mem_singleton_self z)
    · rw [hprev z (by simp), h1]
    · exact hlast (by simp)

/-- A chain hangs behind another node when its first node does, and no other link
changes. -/
theorem chain_start {p' : α} (h : Chain prev next p l n) (hnodup : l.Nodup)
    (hnext : ∀ a ∈ l, next' a = next a)
    (hprev : ∀ a ∈ l, a ≠ l.headD n → prev' a = prev a)
    (hfirst : l ≠ [] → prev' (l.headD n) = p') : Chain prev' next' p' l n := by
  cases l with
  | nil => trivial
  | cons a l =>
    obtain ⟨-, h2, h3⟩ := h
    refine ⟨hfirst (List.cons_ne_nil a l), ?_, ?_⟩
    · rw [hnext a List.mem_cons_self, h2]
    · apply chain_congr h3
      · intro b hb
        apply hprev b (List.mem_cons_of_mem a hb)
        rintro rfl
        exact (List.nodup_cons.mp hnodup).1 hb
      · intro b hb
        exact hnext b (List.mem_cons_of_mem a hb)

/-- Following the links from the first node. -/
def follow (next : α → α) (a : α) : Nat → α
  | 0 => a
  | i + 1 => next (follow next a i)

theorem follow_succ (next : α → α) (a : α) (i : Nat) :
    follow next a (i + 1) = follow next (next a) i := by
  induction i with
  | zero => rfl
  | succ i ih => rw [follow, ih, follow]

/-- The links lead through the list, node by node, and then to its end. -/
theorem follow_chain (h : Chain prev next p l n) (i : Nat) (hi : i ≤ l.length) :
    follow next (l.headD n) i = (l.drop i).headD n := by
  induction l generalizing p i with
  | nil =>
    obtain rfl := Nat.le_zero.mp hi
    rfl
  | cons a l ih =>
    obtain ⟨-, h2, h3⟩ := h
    cases i with
    | zero => rfl
    | succ i =>
      rw [follow_succ, List.headD_cons, h2]
      exact ih h3 i (Nat.le_of_succ_le_succ hi)

end chains
