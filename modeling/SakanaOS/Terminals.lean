-- A terminal without an end: rows of a fixed width that are written from the top, and a window
-- of a fixed height that follows the position down.
import Mathlib.Logic.Function.Basic

namespace terminals

/-- The cells by row and column, the position, and the first row of the window. -/
structure Teletype (α : Type) where
  cells : Nat → Nat → α
  row : Nat
  col : Nat
  top : Nat

namespace Teletype

variable {α : Type} (w h : Nat)

/-- A terminal on which nothing is written. -/
def start (blank : α) : Teletype α := ⟨fun _ _ => blank, 0, 0, 0⟩

/-- The window moves down when the position is in the row below it. -/
def follow (t : Teletype α) : Teletype α :=
  if t.row = t.top + h then { t with top := t.top + 1 } else t

/-- The position moves to the start of the next row. -/
def newline (t : Teletype α) : Teletype α := follow h { t with row := t.row + 1, col := 0 }

/-- The cell at the position is filled. -/
def fill (t : Teletype α) (a : α) : Teletype α :=
  { t with cells := Function.update t.cells t.row (Function.update (t.cells t.row) t.col a) }

/-- A cell is filled, and the position moves to the next one, which can be in the next row. -/
def put (t : Teletype α) (a : α) : Teletype α :=
  if t.col + 1 = w then newline h (fill t a) else { fill t a with col := t.col + 1 }

/-- What the window shows, by row and column of the window. -/
def window (t : Teletype α) (y x : Nat) : α := t.cells (t.top + y) x

/-- The position is in the window, and nothing is written behind it. -/
structure Followed (blank : α) (t : Teletype α) : Prop where
  col : t.col < w
  above : t.top ≤ t.row
  below : t.row < t.top + h
  ahead : ∀ r c, t.row < r ∨ t.row = r ∧ t.col ≤ c → t.cells r c = blank

variable {w h : Nat} {blank : α} {t : Teletype α}

theorem followed_start (hw : 0 < w) (hh : 0 < h) : Followed w h blank (start blank) :=
  ⟨hw, Nat.le_refl 0, by simpa [start] using hh, fun _ _ _ => rfl⟩

theorem cells_fill (t : Teletype α) (a : α) (r c : Nat) :
    (fill t a).cells r c = if r = t.row ∧ c = t.col then a else t.cells r c := by
  unfold fill
  by_cases hr : r = t.row
  · subst hr
    by_cases hc : c = t.col
    · subst hc
      simp
    · simp [hc]
  · simp [hr]

theorem newline_eq (t : Teletype α) : newline h t =
    ⟨t.cells, t.row + 1, 0, if t.row + 1 = t.top + h then t.top + 1 else t.top⟩ := by
  unfold newline follow
  simp only
  split
  · rfl
  · rfl

/-- What is ahead of the next row is ahead of the position. -/
theorem followed_newline (hw : 0 < w) (habove : t.top ≤ t.row)
    (hbelow : t.row < t.top + h) (hahead : ∀ r c, t.row < r → t.cells r c = blank) :
    Followed w h blank (newline h t) := by
  rw [newline_eq]
  refine ⟨hw, ?_, ?_, fun r c hrc => hahead r c ?_⟩
  · simp only
    split <;> omega
  · simp only
    split <;> omega
  · simp only at hrc
    omega

theorem Followed.newline (hp : Followed w h blank t) : Followed w h blank (newline h t) := by
  obtain ⟨hcol, habove, hbelow, hahead⟩ := hp
  exact followed_newline (by omega) habove hbelow fun r c hr => hahead r c (Or.inl hr)

theorem Followed.put (hp : Followed w h blank t) (a : α) : Followed w h blank (put w h t a) := by
  obtain ⟨hcol, habove, hbelow, hahead⟩ := hp
  have hkept : ∀ r c, t.row < r ∨ t.row = r ∧ t.col < c → (fill t a).cells r c = blank := by
    intro r c hrc
    rw [cells_fill, if_neg (by omega)]
    exact hahead r c (by omega)
  unfold Teletype.put
  split
  · have hfilled : (fill t a).top ≤ (fill t a).row := habove
    apply followed_newline (by omega) hfilled hbelow
    exact fun r c hr => hkept r c (Or.inl hr)
  · refine ⟨?_, habove, hbelow, ?_⟩
    · simp only
      omega
    · intro r c hrc
      simp only at hrc ⊢
      have hrow : (fill t a).row = t.row := rfl
      exact hkept r c (by omega)

/-! ## What the window shows afterwards -/

/-- A new row below the window moves the rows of the window up, and brings in a blank one. -/
theorem window_newline_below (hahead : ∀ r c, t.row < r → t.cells r c = blank)
    (hrow : t.row + 1 = t.top + h) {y x : Nat} (hy : y < h) :
    (newline h t).window y x = if y + 1 < h then t.window (y + 1) x else blank := by
  have hplace : t.top + 1 + y = t.top + (y + 1) := by omega
  rw [newline_eq, if_pos hrow]
  unfold window
  simp only [hplace]
  split
  · rfl
  · exact hahead _ _ (by omega)

theorem window_newline_inside (hrow : t.row + 1 ≠ t.top + h) (y x : Nat) :
    (newline h t).window y x = t.window y x := by
  rw [newline_eq, if_neg hrow]
  rfl

theorem window_fill (habove : t.top ≤ t.row) (a : α) (y x : Nat) :
    (fill t a).window y x = if y = t.row - t.top ∧ x = t.col then a else t.window y x := by
  have htop : (fill t a).top = t.top := rfl
  unfold window
  rw [htop, cells_fill]
  by_cases hx : t.top + y = t.row ∧ x = t.col
  · rw [if_pos hx, if_pos (by omega)]
  · rw [if_neg hx, if_neg (by omega)]

end Teletype

end terminals
