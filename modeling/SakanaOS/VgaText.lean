-- What the text screen shows: the window of a terminal without an end, which follows the
-- position down.
import SakanaOS.Strings
import SakanaOS.Terminals
import SakanaOS.Vmm
import SakanaOS.Vga

open byte_memory runs terminals

namespace sakana_os

/-- A character on the terminal, with the attribute of the screen. -/
def typeOn (attri : UInt8) (t : Teletype (UInt8 × UInt8)) (c : UInt8) : Teletype (UInt8 × UInt8) :=
  if c = '\n'.toUInt8 then t.newline 25 else t.put 80 25 (c, attri)

/-- The text on a terminal on which nothing was written. -/
def layOut (attri : UInt8) (chars : List UInt8) : Teletype (UInt8 × UInt8) :=
  chars.foldl (typeOn attri) (Teletype.start (0, attri))

/-- The cells of the screen are those of the window. -/
structure Draws (v : Vga) (t : Teletype (UInt8 × UInt8)) : Prop where
  screen : OnScreen v
  cells : ∀ y x, y < 25 → x < 80 → cellAt v (80 * y + x) = t.window y x

/-- The text buffer is the window, and the position is the one in the window. -/
structure Shows (v : Vga) (t : Teletype (UInt8 × UInt8)) : Prop extends Draws v t where
  placed : Teletype.Followed 80 25 (0, v.vga_state.attri) t
  x : v.vga_state.x = t.col
  y : v.vga_state.y = (t.row - t.top : Nat)

section

variable {v : Vga} {t : Teletype (UInt8 × UInt8)}

theorem cellAt_update_cursor (v : Vga) (x y : Int) (n : Nat) :
    cellAt (vga_update_cursor (v.place x y)) n = cellAt v n := by
  simp [cellAt, Vga.place]

theorem Shows.cellIndex_eq (h : Shows v t) : cellIndex v = 80 * (t.row - t.top) + t.col := by
  unfold cellIndex
  rw [h.x, h.y]
  omega

/-- The offset of the next row, also where that row is below the screen. -/
theorem Draws.newline (h : Draws v t) (habove : t.top ≤ t.row) (hbelow : t.row < t.top + 25)
    (hahead : ∀ r c, t.row < r → t.cells r c = (0, v.vga_state.attri)) :
    Shows (vga_settle v (2 * ((80 * (t.row - t.top + 1) : Nat) : Int))) (t.newline 25) := by
  have hkeeps := settle_keeps h.screen (show 80 * (t.row - t.top + 1) ≤ 2000 by omega)
  have hplaced : Teletype.Followed 80 25 (0, v.vga_state.attri) (t.newline 25) :=
    Teletype.followed_newline (by omega) habove hbelow hahead
  rw [← hkeeps.attri] at hplaced
  by_cases hrow : t.row + 1 = t.top + 25
  · have hlast : 80 * (t.row - t.top + 1) = 2000 := by omega
    rw [hlast] at hkeeps hplaced ⊢
    refine ⟨⟨hkeeps.screen, fun y x hy hx => ?_⟩, hplaced, ?_, ?_⟩
    · rw [settle_behind h.screen, cellAt_update_cursor, cellAt_scroll h.screen (by omega),
        Teletype.window_newline_below hahead hrow hy]
      by_cases hline : y + 1 < 25
      · have hnext : 80 * y + x + 80 = 80 * (y + 1) + x := by omega
        rw [if_pos (by omega), if_pos hline, hnext]
        exact h.cells _ _ hline hx
      · rw [if_neg (by omega), if_neg hline]
    · rw [settle_behind h.screen, Teletype.newline_eq]
      simp [Vga.place]
    · rw [settle_behind h.screen, Teletype.newline_eq, if_pos hrow]
      simp only [update_cursor_state, Vga.place]
      omega
  · have hinside : 80 * (t.row - t.top + 1) < 2000 := by omega
    refine ⟨⟨hkeeps.screen, fun y x hy hx => ?_⟩, hplaced, ?_, ?_⟩
    · rw [settle_inside h.screen hinside, cellAt_update_cursor, Teletype.window_newline_inside hrow]
      exact h.cells y x hy hx
    · rw [settle_inside h.screen hinside, Teletype.newline_eq]
      simp [Vga.place]
    · rw [settle_inside h.screen hinside, Teletype.newline_eq, if_neg hrow]
      simp only [update_cursor_state, Vga.place]
      omega

theorem Shows.newline (h : Shows v t) (turns : Nat) :
    ∃ u, vga_putchar turns v '\n'.toUInt8 = some u ∧ Shows u (t.newline 25) ∧ KeepsScreen v u := by
  obtain ⟨hcol, habove, hbelow, hahead⟩ := h.placed
  have hrow : cellIndex v / 80 + 1 = t.row - t.top + 1 := by
    rw [h.cellIndex_eq]
    omega
  rw [putchar_newline h.screen, hrow]
  exact ⟨_, rfl, h.toDraws.newline habove hbelow fun r c hr => hahead r c (Or.inl hr),
    settle_keeps h.screen (by omega)⟩

theorem Shows.fill (h : Shows v t) (c : UInt8) :
    Draws (v.store_cell (2 * (cellIndex v : Int)) c) (t.fill (c, v.vga_state.attri)) := by
  obtain ⟨hcol, habove, hbelow, hahead⟩ := h.placed
  refine ⟨(store_cell_keeps h.screen h.screen.cellIndex_lt c).screen, fun y x hy hx => ?_⟩
  rw [cellAt_store h.screen h.screen.cellIndex_lt, Teletype.window_fill habove, h.cellIndex_eq]
  by_cases hplace : y = t.row - t.top ∧ x = t.col
  · rw [if_pos (by omega), if_pos hplace]
  · rw [if_neg (by omega), if_neg hplace]
    exact h.cells y x hy hx

theorem Shows.put (h : Shows v t) (turns : Nat) {c : UInt8} (hc : c ≠ '\n'.toUInt8)
    (hbs : c ≠ ASCII_CTRL_BS) :
    ∃ u, vga_putchar turns v c = some u ∧ Shows u (t.put 80 25 (c, v.vga_state.attri)) ∧
      KeepsScreen v u := by
  obtain ⟨hcol, habove, hbelow, hahead⟩ := h.placed
  have hlt := h.screen.cellIndex_lt
  have hindex := h.cellIndex_eq
  have hstore := store_cell_keeps h.screen hlt c
  have hkeeps := hstore.trans (settle_keeps hstore.screen (show cellIndex v + 1 ≤ 2000 by omega))
  refine ⟨_, putchar_other h.screen turns hc hbs, ?_, hkeeps⟩
  have hdraws := h.fill c
  by_cases hedge : t.col + 1 = 80
  · -- the position is behind the last column
    have hnext : cellIndex v + 1 =
        80 * ((t.fill (c, v.vga_state.attri)).row - (t.fill (c, v.vga_state.attri)).top + 1) := by
      show cellIndex v + 1 = 80 * (t.row - t.top + 1)
      omega
    rw [hnext]
    unfold Teletype.put
    rw [if_pos hedge]
    apply hdraws.newline habove hbelow
    intro r k hr
    rw [Teletype.cells_fill, if_neg]
    · exact hahead r k (Or.inl hr)
    · have hrow : t.row < r := hr
      omega
  · have hinside : cellIndex v + 1 < 2000 := by omega
    have hplaced := h.placed.put (c, v.vga_state.attri)
    unfold Teletype.put at hplaced ⊢
    rw [if_neg hedge] at hplaced ⊢
    refine ⟨⟨hkeeps.screen, fun y x hy hx => ?_⟩, by rwa [hkeeps.attri], ?_, ?_⟩
    · rw [settle_inside hstore.screen hinside, cellAt_update_cursor]
      exact hdraws.cells y x hy hx
    · rw [settle_inside hstore.screen hinside]
      simp only [update_cursor_state, Vga.place]
      omega
    · rw [settle_inside hstore.screen hinside]
      have hrow : (t.fill (c, v.vga_state.attri)).row = t.row := rfl
      have htop : (t.fill (c, v.vga_state.attri)).top = t.top := rfl
      simp only [update_cursor_state, Vga.place, hrow, htop]
      omega

/-- One character that is no backspace, on the screen and on the terminal. -/
theorem Shows.putchar (h : Shows v t) (turns : Nat) {c : UInt8} (hbs : c ≠ ASCII_CTRL_BS) :
    ∃ u, vga_putchar turns v c = some u ∧ Shows u (typeOn v.vga_state.attri t c) ∧
      KeepsScreen v u := by
  unfold typeOn
  by_cases hc : c = '\n'.toUInt8
  · subst hc
    rw [if_pos rfl]
    exact h.newline turns
  · rw [if_neg hc]
    exact h.put turns hc hbs

/-! ## A clear screen -/

/-- A NUL behind blank cells. The one in the last cell scrolls the screen. -/
theorem putchar_nul (h : OnScreen v) (turns : Nat)
    (hfront : ∀ k, k < cellIndex v → cellAt v k = (0, v.vga_state.attri)) :
    ∃ u, vga_putchar turns v 0 = some u ∧ KeepsScreen v u ∧
      (∀ k, k < cellIndex v + 1 → cellAt u k = (0, v.vga_state.attri)) ∧
      (cellIndex v + 1 < 2000 → cellIndex u = cellIndex v + 1) := by
  have hlt := h.cellIndex_lt
  have hstore := store_cell_keeps h hlt 0
  have hkeeps := hstore.trans (settle_keeps hstore.screen (show cellIndex v + 1 ≤ 2000 by omega))
  have hblank : ∀ k, k < cellIndex v + 1 →
      cellAt (v.store_cell (2 * (cellIndex v : Int)) 0) k = (0, v.vga_state.attri) := by
    intro k hk
    rw [cellAt_store h hlt]
    by_cases hlast : k = cellIndex v
    · rw [if_pos hlast]
    · rw [if_neg hlast]
      exact hfront k (by omega)
  refine ⟨_, putchar_other h turns (by decide) (by decide), hkeeps, ?_⟩
  by_cases hinside : cellIndex v + 1 < 2000
  · rw [settle_inside hstore.screen hinside]
    refine ⟨fun k hk => ?_, fun _ => ?_⟩
    · rw [cellAt_update_cursor]
      exact hblank k hk
    · rw [cellIndex, update_cursor_state]
      simp only [Vga.place]
      omega
  · have hlast : cellIndex v + 1 = 2000 := by omega
    rw [hlast] at hblank ⊢
    refine ⟨fun k hk => ?_, fun hlt' => absurd hlt' (Nat.lt_irrefl 2000)⟩
    rw [settle_behind hstore.screen, cellAt_update_cursor, cellAt_scroll hstore.screen hk]
    split
    · exact hblank _ (by omega)
    · rfl

/-- NULs up to the last cell, from a position with blank cells only in front of it. -/
theorem nuls_clear_the_screen (turns : Nat) {n : Nat} (h : OnScreen v)
    (hn : cellIndex v + n + 1 = 2000)
    (hfront : ∀ k, k < cellIndex v → cellAt v k = (0, v.vga_state.attri)) :
    ∃ u, run (vga_putchar turns) v (List.replicate (n + 1) 0) = some u ∧ KeepsScreen v u ∧
      ∀ k, k < 2000 → cellAt u k = (0, v.vga_state.attri) := by
  induction n generalizing v with
  | zero =>
    obtain ⟨u, hput, hkeeps, hblank, -⟩ := putchar_nul h turns hfront
    exact ⟨u, run_cons.mpr ⟨u, hput, rfl⟩, hkeeps, fun k hk => hblank k (by omega)⟩
  | succ n ih =>
    obtain ⟨w, hput, hkeeps, hblank, hindex⟩ := putchar_nul h turns hfront
    rw [← hkeeps.attri] at hblank
    obtain ⟨u, hrun, hrest, hclear⟩ := ih hkeeps.screen (by omega) fun k hk => hblank k (by omega)
    rw [hkeeps.attri] at hclear
    exact ⟨u, run_cons.mpr ⟨w, hput, hrun⟩, hkeeps.trans hrest, hclear⟩

/-- From every screen, a clear one: nothing is shown, and the position is the first one. -/
theorem clean_screen_shows_nothing (h : OnScreen v) (turns : Nat) :
    ∃ u, vga_clean_screen turns v = some u ∧ KeepsScreen v u ∧
      Shows u (Teletype.start (0, v.vga_state.attri)) := by
  have hset : OnScreen (vga_setpos v 0 0) := h.place_onScreen (show 0 < 2000 by omega)
  have hnuls : (toInt v.vga_state.height * toInt v.vga_state.width).toNat = 1999 + 1 := by
    rw [h.height, h.width]
    rfl
  obtain ⟨w, hrun, hkeeps, hclear⟩ :=
    nuls_clear_the_screen turns hset (n := 1999) rfl fun k hk => absurd hk (Nat.not_lt_zero k)
  have hplace : OnScreen (vga_setpos w 0 0) := hkeeps.screen.place_onScreen (show 0 < 2000 by omega)
  have hstate : (vga_update_cursor (vga_setpos w 0 0)).vga_state = (vga_setpos w 0 0).vga_state :=
    update_cursor_state _
  have hattri : (vga_update_cursor (vga_setpos w 0 0)).vga_state.attri = v.vga_state.attri := by
    rw [hstate]
    exact hkeeps.attri
  refine ⟨_, ?_, ⟨hplace.congr hstate, hattri, fun a ha => ?_⟩, ⟨hplace.congr hstate, ?_⟩, ?_,
    ?_, ?_⟩
  · rw [vga_clean_screen, hnuls, hrun]
    rfl
  · rw [update_cursor_mem]
    exact hkeeps.frame a ha
  · intro y x hy hx
    rw [vga_setpos, cellAt_update_cursor]
    exact hclear _ (by omega)
  · rw [hattri]
    exact Teletype.followed_start (by omega) (by omega)
  · rw [hstate]
    rfl
  · rw [hstate]
    rfl

/-! ## Strings -/

/-- A string of the kernel that is no part of the screen. -/
structure KernelString (v : Vga) (data : Nat) (chars : List UInt8) : Prop where
  text : StringAt v.mem data chars
  kernel : VMM_KERNEL_SPACE_BASE ≤ data
  ends : data + chars.length < 4294967296
  apart : ∀ i, i ≤ chars.length → ¬ InBuffer (data + i)

theorem string_off_screen {u : Vga} {data : Nat} {chars : List UInt8}
    (htext : StringAt v.mem data chars) (hapart : ∀ i, i ≤ chars.length → ¬ InBuffer (data + i))
    (hkeeps : KeepsScreen v u) : StringAt u.mem data chars := by
  apply htext.congr
  intro a hlow hhigh
  have hoffset : data + (a - data) = a := by omega
  have hbyte := hapart (a - data) (by omega)
  rw [hoffset] at hbyte
  exact hkeeps.frame a hbyte

theorem strwrite_loop_shows {turns data : Nat} {chars : List UInt8} (h : Shows v t)
    (htext : StringAt v.mem data chars) (hapart : ∀ i, i ≤ chars.length → ¬ InBuffer (data + i))
    (hbs : ASCII_CTRL_BS ∉ chars) :
    ∃ u, vga_strwrite_loop turns chars.length data v = some u ∧
      Shows u (chars.foldl (typeOn v.vga_state.attri) t) ∧ KeepsScreen v u := by
  induction chars generalizing v t data with
  | nil => exact ⟨v, rfl, h, h.screen, rfl, fun _ _ => rfl⟩
  | cons c chars ih =>
    obtain ⟨hc, -, hrest⟩ := stringAt_cons.mp htext
    simp only [List.mem_cons, not_or] at hbs
    have hbehind : ∀ i, i ≤ chars.length → ¬ InBuffer (data + 1 + i) := by
      intro i hi
      rw [Nat.add_assoc]
      apply hapart
      rw [List.length_cons]
      omega
    obtain ⟨w, hput, hw, hkeeps⟩ := h.putchar turns (Ne.symm hbs.1)
    obtain ⟨u, hloop, hu, hmore⟩ := ih hw (string_off_screen hrest hbehind hkeeps) hbehind hbs.2
    rw [hkeeps.attri] at hu
    refine ⟨u, ?_, hu, hkeeps.trans hmore⟩
    rw [List.length_cons, vga_strwrite_loop, hc, hput]
    exact hloop

theorem Shows.strwrite {data : Nat} {chars : List UInt8} (h : Shows v t) (turns : Nat)
    (hstring : KernelString v data chars) (hbs : ASCII_CTRL_BS ∉ chars) :
    ∃ u, vga_strwrite turns v data = some u ∧
      Shows u (chars.foldl (typeOn v.vga_state.attri) t) ∧ KeepsScreen v u := by
  have hkernel := hstring.kernel
  have hends := hstring.ends
  unfold VMM_KERNEL_SPACE_BASE at hkernel
  have hread : string_at v.mem 4294967296 data = some chars := string_at_eq hstring.text (by omega)
  have hsize : (toInt chars.length).toNat = chars.length := by
    unfold toInt
    rw [if_pos (by omega)]
    rfl
  obtain ⟨u, hloop, hu⟩ := strwrite_loop_shows h hstring.text hstring.apart hbs
  refine ⟨u, ?_, hu⟩
  rw [vga_strwrite, hread]
  simp only [bind, Option.bind]
  rw [hsize]
  exact hloop

end

/-! ## Everything that is written -/

/-- A call of `vga_write`, or one of `vga_strwrite` with a string. -/
inductive Write where
  | write (c : UInt8)
  | strwrite (data : Nat) (chars : List UInt8)

def Write.chars : Write → List UInt8
  | write c => [c]
  | strwrite _ chars => chars

/-- What is written has no backspace, and a string is where the call looks for it. -/
def Write.Legible (v : Vga) : Write → Prop
  | write c => c ≠ ASCII_CTRL_BS
  | strwrite data chars => KernelString v data chars ∧ ASCII_CTRL_BS ∉ chars

def vga_output (turns : Nat) (v : Vga) : Write → Option Vga
  | .write c => vga_write turns v c
  | .strwrite data _ => vga_strwrite turns v data

section

variable {v : Vga} {t : Teletype (UInt8 × UInt8)}

theorem Write.Legible.kept {u : Vga} {w : Write} (h : w.Legible v) (hkeeps : KeepsScreen v u) :
    w.Legible u := by
  cases w with
  | write c => exact h
  | strwrite data chars =>
    obtain ⟨hstring, hbs⟩ := h
    exact ⟨⟨string_off_screen hstring.text hstring.apart hkeeps, hstring.kernel, hstring.ends,
      hstring.apart⟩, hbs⟩

theorem Shows.output (h : Shows v t) (turns : Nat) {w : Write} (hw : w.Legible v) :
    ∃ u, vga_output turns v w = some u ∧
      Shows u (w.chars.foldl (typeOn v.vga_state.attri) t) ∧ KeepsScreen v u := by
  cases w with
  | write c => exact h.putchar turns hw
  | strwrite data chars => exact h.strwrite turns hw.1 hw.2

theorem Shows.outputs (h : Shows v t) (turns : Nat) {ws : List Write}
    (hws : ∀ w ∈ ws, w.Legible v) :
    ∃ u, run (vga_output turns) v ws = some u ∧
      Shows u ((ws.flatMap Write.chars).foldl (typeOn v.vga_state.attri) t) := by
  induction ws generalizing v t with
  | nil => exact ⟨v, rfl, h⟩
  | cons w ws ih =>
    obtain ⟨v', hout, hv', hkeeps⟩ := h.output turns (hws w List.mem_cons_self)
    obtain ⟨u, hrun, hu⟩ := ih hv' fun w' hw' => (hws w' (List.mem_cons_of_mem w hw')).kept hkeeps
    rw [hkeeps.attri] at hu
    refine ⟨u, run_cons.mpr ⟨v', hout, hrun⟩, ?_⟩
    rwa [List.flatMap_cons, List.foldl_append]

/-- After the screen is cleared, and whatever is written then: the text buffer is the window of a
terminal without an end on which the text is laid out, and the position is the one in it. -/
theorem the_screen_is_the_window_of_an_endless_terminal (h : OnScreen v) (turns : Nat)
    {ws : List Write} (hws : ∀ w ∈ ws, w.Legible v) :
    ∃ u u', vga_clean_screen turns v = some u ∧ run (vga_output turns) u ws = some u' ∧
      Shows u' (layOut v.vga_state.attri (ws.flatMap Write.chars)) := by
  obtain ⟨u, hclean, hkeeps, hu⟩ := clean_screen_shows_nothing h turns
  obtain ⟨u', hrun, hu'⟩ := hu.outputs turns fun w hw => (hws w hw).kept hkeeps
  rw [hkeeps.attri] at hu'
  exact ⟨u, u', hclean, hrun, hu'⟩

def greeting : List UInt8 := literal "Hi\n"

/-- The screen that `vga_init` sets up, and a string behind the start of the kernel. -/
def greetingScreen : Vga :=
  ⟨vga_init_state, storeList (fun _ => 0) (VMM_KERNEL_SPACE_BASE + 0x100000) greeting, []⟩

theorem greeting_string :
    KernelString greetingScreen (VMM_KERNEL_SPACE_BASE + 0x100000) greeting := by
  refine ⟨⟨loadList_storeList _ _ _, ?_, by decide +kernel⟩, ?_, by decide +kernel, ?_⟩
  · unfold greetingScreen
    simp only
    rw [storeList_frame]
    exact Or.inr (Nat.le_refl _)
  · exact Nat.le_add_right _ _
  · intro i hi
    unfold InBuffer VMM_KERNEL_SPACE_BASE VGA_TM_VIDEO_MEMORY
    omega

theorem a_greeting_is_shown :
    ∃ u u', vga_clean_screen 0 greetingScreen = some u ∧
      run (vga_output 0) u [.strwrite (VMM_KERNEL_SPACE_BASE + 0x100000) greeting,
        .write '!'.toUInt8] = some u' ∧
      Shows u' (layOut greetingScreen.vga_state.attri (literal "Hi\n!")) := by
  apply the_screen_is_the_window_of_an_endless_terminal (onScreen_init _ _)
  intro w hw
  simp only [List.mem_cons, List.not_mem_nil, or_false] at hw
  rcases hw with rfl | rfl
  · exact ⟨greeting_string, by decide⟩
  · show '!'.toUInt8 ≠ ASCII_CTRL_BS
    decide

end

end sakana_os
