-- When a backspace ends. Its loop steps back once if the second cell of the screen holds a
-- character, and steps back forever if that cell is a NUL.
import SakanaOS.Vga

open byte_memory runs

namespace sakana_os

/-- The character is a backspace behind the first cell, and the cell that its loop tests is a
NUL. -/
def Stuck (v : Vga) (c : UInt8) : Prop :=
  c = ASCII_CTRL_BS ∧ 0 < vga_get_offset v.vga_state ∧ (cellAt v 1).1 = 0

section

variable {v u : Vga} {turns : Nat}

theorem tested_cell (h : OnScreen v) :
    v.mem (add32 v.vga_state.buffer (ofInt v.vga_state.bytes)) = (cellAt v 1).1 := by
  have hcell : add32 VGA_TM_VIDEO_MEMORY (ofInt 2) = cellAddress 1 := add32_eq (by decide)
  rw [h.buffer, h.bytes, hcell]
  rfl

/-- One turn is enough, or none is. -/
theorem backspace_turns (h : OnScreen v) (turns : Nat) (offset : Int) :
    vga_backspace v (turns + 1) offset =
      if (cellAt v 1).1 = 0 then none else some (offset - 2) := by
  induction turns generalizing offset with
  | zero =>
    rw [vga_backspace, tested_cell h, h.bytes, ite_not]
    rfl
  | succ turns ih =>
    rw [vga_backspace, tested_cell h, h.bytes, ih, ite_not]
    split <;> rfl

theorem putchar_bs (h : OnScreen v) (turns : Nat) :
    vga_putchar turns v ASCII_CTRL_BS =
      (if 0 < cellIndex v then vga_backspace v turns (2 * (cellIndex v : Int)) else some 0).map
        fun offset => vga_settle (v.store_cell offset 0) offset := by
  have hnl : ASCII_CTRL_BS ≠ '\n'.toUInt8 := by decide
  have hpos : vga_get_offset v.vga_state > 0 ↔ 0 < cellIndex v := by
    rw [h.offset_eq]
    omega
  simp only [vga_putchar, h.mode, if_true, if_neg hnl, hpos]
  rw [h.offset_eq]
  split
  · cases vga_backspace v turns (2 * (cellIndex v : Int)) <;> rfl
  · have hfirst : cellIndex v = 0 := by omega
    rw [hfirst]
    rfl

theorem putchar_backspace_first (h : OnScreen v) (hfirst : cellIndex v = 0) (turns : Nat) :
    vga_putchar turns v ASCII_CTRL_BS =
      some (vga_settle (v.store_cell (2 * ((0 : Nat) : Int)) 0) (2 * ((0 : Nat) : Int))) := by
  rw [putchar_bs h, if_neg (by omega)]
  rfl

theorem putchar_backspace (h : OnScreen v) (hpos : 0 < cellIndex v) (turns : Nat) :
    vga_putchar (turns + 1) v ASCII_CTRL_BS =
      if (cellAt v 1).1 = 0 then none
      else some (vga_settle (v.store_cell (2 * ((cellIndex v - 1 : Nat) : Int)) 0)
        (2 * ((cellIndex v - 1 : Nat) : Int))) := by
  have hback : 2 * (cellIndex v : Int) - 2 = 2 * ((cellIndex v - 1 : Nat) : Int) := by omega
  rw [putchar_bs h, if_pos hpos, backspace_turns h, hback]
  split <;> rfl

theorem putchar_no_turns (h : OnScreen v) (hpos : 0 < cellIndex v) :
    vga_putchar 0 v ASCII_CTRL_BS = none := by
  rw [putchar_bs h, if_pos hpos]
  rfl

/-! ## One character -/

theorem stuck_iff (h : OnScreen v) {c : UInt8} :
    Stuck v c ↔ c = ASCII_CTRL_BS ∧ 0 < cellIndex v ∧ (cellAt v 1).1 = 0 := by
  unfold Stuck
  rw [h.offset_eq]
  constructor
  · rintro ⟨hc, hpos, hcell⟩
    exact ⟨hc, by omega, hcell⟩
  · rintro ⟨hc, hpos, hcell⟩
    exact ⟨hc, by omega, hcell⟩

/-- A character that gets stuck does so for every number of turns. -/
theorem stuck_never_ends (h : OnScreen v) {c : UInt8} (hstuck : Stuck v c) (turns : Nat) :
    vga_putchar turns v c = none := by
  obtain ⟨rfl, hpos, hcell⟩ := (stuck_iff h).mp hstuck
  cases turns with
  | zero => exact putchar_no_turns h hpos
  | succ turns => rw [putchar_backspace h hpos, if_pos hcell]

/-- A character stores at most its cell, and the position settles behind it. -/
theorem putchar_cases (h : OnScreen v) {c : UInt8} (hstuck : ¬ Stuck v c) :
    ∃ (w : Vga) (n : Nat), KeepsScreen v w ∧ n ≤ 2000 ∧
      ∀ turns, vga_putchar (turns + 1) v c = some (vga_settle w (2 * (n : Int))) := by
  have hlt := h.cellIndex_lt
  by_cases hnl : c = '\n'.toUInt8
  · subst hnl
    exact ⟨v, _, ⟨h, rfl, fun _ _ => rfl⟩, by omega, fun turns => putchar_newline h (turns + 1)⟩
  · by_cases hbs : c = ASCII_CTRL_BS
    · subst hbs
      rcases Nat.eq_zero_or_pos (cellIndex v) with hfirst | hpos
      · exact ⟨_, _, store_cell_keeps h (by omega) 0, by omega,
          fun turns => putchar_backspace_first h hfirst (turns + 1)⟩
      · have hcell : (cellAt v 1).1 ≠ 0 := fun hcell =>
          hstuck ((stuck_iff h).mpr ⟨rfl, hpos, hcell⟩)
        have hstore := store_cell_keeps h (show cellIndex v - 1 < 2000 by omega) 0
        refine ⟨_, cellIndex v - 1, hstore, by omega, fun turns => ?_⟩
        rw [putchar_backspace h hpos, if_neg hcell]
    · exact ⟨_, _, store_cell_keeps h hlt c, hlt, fun turns => putchar_other h (turns + 1) hnl hbs⟩

theorem not_stuck_ends (h : OnScreen v) {c : UInt8} (hstuck : ¬ Stuck v c) (turns : Nat) :
    ∃ u, vga_putchar (turns + 1) v c = some u ∧ KeepsScreen v u := by
  obtain ⟨w, n, hw, hn, hput⟩ := putchar_cases h hstuck
  exact ⟨_, hput turns, hw.trans (settle_keeps hw.screen hn)⟩
/-- One turn is enough for a character that ends. -/
theorem putchar_one_turn (h : OnScreen v) {c : UInt8} (hput : vga_putchar turns v c = some u) :
    vga_putchar 1 v c = some u := by
  by_cases hbs : c = ASCII_CTRL_BS
  · subst hbs
    rcases Nat.eq_zero_or_pos (cellIndex v) with hfirst | hpos
    · rwa [putchar_backspace_first h hfirst] at hput ⊢
    · cases turns with
      | zero =>
        rw [putchar_no_turns h hpos] at hput
        cases hput
      | succ turns => rwa [putchar_backspace h hpos] at hput ⊢
  · simp only [vga_putchar, if_neg hbs] at hput ⊢
    exact hput

theorem putchar_keeps (h : OnScreen v) {c : UInt8} (hput : vga_putchar turns v c = some u) :
    KeepsScreen v u ∧ ¬ Stuck v c := by
  have hstuck : ¬ Stuck v c := by
    intro hstuck
    rw [stuck_never_ends h hstuck] at hput
    cases hput
  obtain ⟨w, hw, hkeeps⟩ := not_stuck_ends h hstuck 0
  rw [putchar_one_turn h hput] at hw
  cases hw
  exact ⟨hkeeps, hstuck⟩

/-! ## Every character of a run -/

theorem run_keeps_screen (h : OnScreen v) {cs : List UInt8}
    (hrun : run (vga_putchar turns) v cs = some u) : KeepsScreen v u := by
  apply run_keeps (motive := KeepsScreen v) _ ⟨h, rfl, fun _ _ => rfl⟩ hrun
  intro w c w' hw hput
  exact hw.trans (putchar_keeps hw.screen hput).1

theorem run_one_turn (h : OnScreen v) {cs : List UInt8}
    (hrun : run (vga_putchar turns) v cs = some u) : run (vga_putchar 1) v cs = some u := by
  induction cs generalizing v with
  | nil => exact hrun
  | cons c cs ih =>
    obtain ⟨w, hput, hrest⟩ := run_cons.mp hrun
    have hw := (putchar_keeps h hput).1
    exact run_cons.mpr ⟨w, putchar_one_turn h hput, ih hw.screen hrest⟩

/-- A run in which nothing gets stuck goes through. -/
theorem run_ends (h : OnScreen v) {cs : List UInt8}
    (hcond : Along (vga_putchar 1) (fun w c => ¬ Stuck w c) v cs) :
    ∃ u, run (vga_putchar 1) v cs = some u := by
  induction cs generalizing v with
  | nil => exact ⟨v, rfl⟩
  | cons c cs ih =>
    obtain ⟨w, hput, hw⟩ := not_stuck_ends h hcond.1 0
    obtain ⟨u, hu⟩ := ih hw.screen (hcond.2 w hput)
    exact ⟨u, run_cons.mpr ⟨w, hput, hu⟩⟩

/-- A run goes through for some number of turns exactly when nothing gets stuck in it. -/
theorem run_ends_iff (h : OnScreen v) {cs : List UInt8} :
    (∃ turns u, run (vga_putchar turns) v cs = some u) ↔
      Along (vga_putchar 1) (fun w c => ¬ Stuck w c) v cs := by
  constructor
  · rintro ⟨turns, u, hu⟩
    rw [along_iff]
    intro front c rest w hcs hrun
    rw [hcs, run_append] at hu
    obtain ⟨w', hw', hlast⟩ := hu
    rw [run_one_turn h hw'] at hrun
    cases hrun
    obtain ⟨u', hput, -⟩ := run_cons.mp hlast
    exact (putchar_keeps (run_keeps_screen h hw').screen hput).2
  · intro hcond
    obtain ⟨u, hu⟩ := run_ends h hcond
    exact ⟨1, u, hu⟩

theorem not_stuck_of_no_backspace {cs : List UInt8} (h : ASCII_CTRL_BS ∉ cs) :
    Along (vga_putchar 1) (fun w c => ¬ Stuck w c) v cs := by
  rw [along_iff]
  rintro front c rest w rfl - ⟨rfl, -⟩
  exact h (List.mem_append_right front List.mem_cons_self)

/-- From every screen and every position, each of the characters that follow ends, stores in the
text buffer only and leaves the position on the screen, exactly when in no state of the run the
next character gets stuck. -/
theorem characters_stay_on_the_screen_unless_a_backspace_sticks (h : OnScreen v) (cs : List UInt8) :
    (∀ front, front <+: cs → ∃ turns u, run (vga_putchar turns) v front = some u ∧ OnScreen u ∧
        ∀ a, ¬ InBuffer a → u.mem a = v.mem a) ↔
      Along (vga_putchar 1) (fun w c => ¬ Stuck w c) v cs := by
  constructor
  · intro hends
    obtain ⟨turns, u, hu, -⟩ := hends cs (List.prefix_refl cs)
    exact (run_ends_iff h).mp ⟨turns, u, hu⟩
  · rintro hcond front ⟨rest, rfl⟩
    obtain ⟨turns, u, hu⟩ := (run_ends_iff h).mpr (along_front hcond)
    have hkeeps := run_keeps_screen h hu
    exact ⟨turns, u, hu, hkeeps.screen, hkeeps.frame⟩

/-- A screen of letters, with the position behind the third one. -/
def lettersScreen : Vga := ⟨{ vga_init_state with x := 3 }, fun _ => 65, []⟩

theorem lettersScreen_onScreen : OnScreen lettersScreen :=
  ⟨rfl, rfl, rfl, rfl, rfl, by simp [lettersScreen], by simp [lettersScreen, vga_init_state]⟩

theorem a_backspace_on_letters_ends :
    OnScreen lettersScreen ∧
      ∀ front, front <+: [ASCII_CTRL_BS] → ∃ turns u,
        run (vga_putchar turns) lettersScreen front = some u ∧ OnScreen u ∧
          ∀ a, ¬ InBuffer a → u.mem a = lettersScreen.mem a := by
  have hcond : Along (vga_putchar 1) (fun w c => ¬ Stuck w c) lettersScreen [ASCII_CTRL_BS] := by
    refine ⟨?_, fun _ _ => trivial⟩
    rintro ⟨-, -, hcell⟩
    cases hcell
  exact ⟨lettersScreen_onScreen,
    (characters_stay_on_the_screen_unless_a_backspace_sticks lettersScreen_onScreen _).mpr hcond⟩

/-- The screen that `vga_init` leaves, without a character on it. -/
def clearScreen : Vga := ⟨vga_init_state, fun _ => 0, []⟩

theorem clearScreen_onScreen : OnScreen clearScreen := onScreen_init _ _

/-- A letter on a clear screen leaves the second cell a NUL. -/
theorem clearScreen_sticks (turns : Nat) (rest : List UInt8) :
    run (vga_putchar turns) clearScreen ('a'.toUInt8 :: ASCII_CTRL_BS :: rest) = none := by
  have hclear := clearScreen_onScreen
  have hstore := store_cell_keeps hclear (show 0 < 2000 by omega) 'a'.toUInt8
  have hput : vga_putchar turns clearScreen 'a'.toUInt8 =
      some (vga_settle (clearScreen.store_cell (2 * ((0 : Nat) : Int)) 'a'.toUInt8)
        (2 * ((1 : Nat) : Int))) :=
    putchar_other hclear turns (by decide) (by decide)
  rw [settle_inside hstore.screen (by omega)] at hput
  obtain ⟨hscreen, -⟩ := putchar_keeps hclear hput
  have hcell : (cellAt (clearScreen.store_cell (2 * ((0 : Nat) : Int)) 'a'.toUInt8) 1).1 = 0 := by
    rw [cellAt_store hclear (by omega), if_neg (by omega)]
    rfl
  have hstuck := (stuck_iff hscreen.screen).mpr ⟨rfl, by simp [cellIndex, Vga.place], by
    simpa [cellAt, Vga.place] using hcell⟩
  rw [run, hput, Option.bind_some, run, stuck_never_ends hscreen.screen hstuck]
  rfl

/-- One letter on a clear screen, and a backspace behind it. -/
theorem a_backspace_behind_the_first_letter_never_ends :
    OnScreen clearScreen ∧
      ∀ turns, run (vga_putchar turns) clearScreen ['a'.toUInt8, ASCII_CTRL_BS] = none :=
  ⟨clearScreen_onScreen, fun turns => clearScreen_sticks turns []⟩

end

end sakana_os
