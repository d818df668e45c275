-- The text screen of `vga.c`: how a character is put, how the lines scroll, and what a
-- backspace reads. The loop of the backspace tests a cell that no turn of it changes.
import SakanaOS.Machine
import SakanaOS.Runs
import SakanaOS.Tokens

open byte_memory runs

namespace sakana_os

/-! ## The driver -/

def VGA_TM_VIDEO_MEMORY : Nat := 0xC00B8000
def VGA_80x25_16_TEXT : Nat := 3
def VGA_CRTC_ADDRESS_REGISTER_PORT : Nat := 0x3D4
def VGA_CRTC_DATA_REGISTER_PORT : Nat := 0x3D5
def ASCII_CTRL_BS : UInt8 := 8

structure vga_state_t where
  mode : Nat
  width : Nat
  height : Nat
  buffer : Nat
  attri : UInt8
  cursor_enabled : Bool
  x : Int
  y : Int
  bytes : Int

def VGA_COLOR_BLACK : UInt8 := 0
def VGA_COLOR_LIGHT_GREY : UInt8 := 7

def vga_get_attri (fg bg : UInt8) : UInt8 := fg ||| bg <<< 4

/-- What `vga_init` stores for the mode that it knows. -/
def vga_init_state : vga_state_t where
  mode := VGA_80x25_16_TEXT
  width := 80
  height := 25
  buffer := VGA_TM_VIDEO_MEMORY
  attri := vga_get_attri VGA_COLOR_LIGHT_GREY VGA_COLOR_BLACK
  cursor_enabled := true
  x := 0
  y := 0
  bytes := 2

def vga_get_offset (s : vga_state_t) : Int :=
  toInt (mul32 (ofInt s.bytes) (add32 (mul32 (ofInt s.y) s.width) (ofInt s.x)))

def vga_get_offset_x (s : vga_state_t) (offset : Int) : Int :=
  toInt (ofInt (offset.tdiv s.bytes) % s.width)

def vga_get_offset_y (s : vga_state_t) (offset : Int) : Int :=
  toInt (ofInt (offset.tdiv s.bytes) / s.width)

/-- The driver, the memory, and what was written to the ports. -/
structure Vga where
  vga_state : vga_state_t
  mem : Mem
  ports : List (Nat × UInt8)

namespace Vga

def port_byte_out (v : Vga) (port : Nat) (data : UInt8) : Vga :=
  { v with ports := v.ports ++ [(port, data)] }

/-- The position, as the driver keeps it. -/
def place (v : Vga) (x y : Int) : Vga :=
  { v with vga_state := { v.vga_state with x := x, y := y } }

/-- The stores to `buffer[offset + 0]` and `buffer[offset + 1]`. -/
def store_cell (v : Vga) (offset : Int) (c : UInt8) : Vga :=
  let s := v.vga_state
  let mem := store8 v.mem (add32 s.buffer (ofInt (offset + 0))) c
  ⟨s, store8 mem (add32 s.buffer (ofInt (offset + 1))) s.attri, v.ports⟩

end Vga

def vga_update_cursor (v : Vga) : Vga :=
  if v.vga_state.cursor_enabled then
    let index := (vga_get_offset v.vga_state).tdiv v.vga_state.bytes
    let v := v.port_byte_out VGA_CRTC_ADDRESS_REGISTER_PORT 14
    let v := v.port_byte_out VGA_CRTC_DATA_REGISTER_PORT (UInt8.ofNat (ofInt (index >>> (8 : Nat))))
    let v := v.port_byte_out VGA_CRTC_ADDRESS_REGISTER_PORT 15
    v.port_byte_out VGA_CRTC_DATA_REGISTER_PORT (UInt8.ofNat (ofInt index &&& 0xff))
  else v

/-- The position that is asked for is not used. -/
def vga_setpos (v : Vga) (_x _y : Int) : Vga := v.place 0 0

/-- The lines from `i` on move up by one, `n` of them. -/
def vga_scroll_lines (buffer line_width_bytes : Nat) : Nat → Nat → Mem → Mem
  | 0, _, m => m
  | n + 1, i, m =>
    let dst := add32 buffer (mul32 (i - 1) line_width_bytes)
    let src := add32 buffer (mul32 i line_width_bytes)
    vga_scroll_lines buffer line_width_bytes n (i + 1) (copy m dst src line_width_bytes)

def vga_blank_line (last_line : Nat) (attri : UInt8) : Nat → Nat → Mem → Mem
  | 0, _, m => m
  | n + 1, i, m =>
    vga_blank_line last_line attri n (i + 1)
      (store8 (store8 m (last_line + i * 2 + 0) 0) (last_line + i * 2 + 1) attri)

def vga_scroll (v : Vga) : Vga :=
  let s := v.vga_state
  let line_width_bytes := mul32 (ofInt s.bytes) s.width
  let mem := vga_scroll_lines s.buffer line_width_bytes (s.height - 1) 1 v.mem
  let last_line := add32 s.buffer (mul32 (s.height - 1) line_width_bytes)
  ⟨s, vga_blank_line last_line s.attri s.width 0 mem, v.ports⟩

/-- The loop of a backspace. It tests `buffer[bytes]`, whatever the offset is, and `turns`
bounds it where that cell is a NUL. -/
def vga_backspace (v : Vga) : Nat → Int → Option Int
  | 0, _ => none
  | turns + 1, offset =>
    let offset := offset - v.vga_state.bytes
    if v.mem (add32 v.vga_state.buffer (ofInt v.vga_state.bytes)) ≠ 0 then some offset
    else vga_backspace v turns offset

/-- The end of `vga_putchar` in text mode: the lines scroll when the offset is behind the last
cell, and the position is taken from the offset. -/
def vga_settle (v : Vga) (offset : Int) : Vga :=
  let s := v.vga_state
  let width := toInt s.width
  let height := toInt s.height
  let (v, offset) :=
    if offset = s.bytes * width * height then (vga_scroll v, offset - s.bytes * width)
    else (v, offset)
  vga_update_cursor (v.place (vga_get_offset_x s offset) (vga_get_offset_y s offset))

def vga_putchar (turns : Nat) (v : Vga) (c : UInt8) : Option Vga :=
  let s := v.vga_state
  if s.mode = VGA_80x25_16_TEXT then
    let width := toInt s.width
    let offset := vga_get_offset s
    if c = '\n'.toUInt8 then
      some (vga_settle v (offset + s.bytes * (width - (offset.tdiv s.bytes).tmod width)))
    else if c = ASCII_CTRL_BS then do
      let offset ← if offset > 0 then vga_backspace v turns offset else some offset
      return vga_settle (v.store_cell offset 0) offset
    else some (vga_settle (v.store_cell offset c) (offset + s.bytes))
  else some (vga_update_cursor v)

def vga_write (turns : Nat) (v : Vga) (c : UInt8) : Option Vga := vga_putchar turns v c

def vga_strwrite_loop (turns : Nat) : Nat → Nat → Vga → Option Vga
  | 0, _, v => some v
  | n + 1, data, v => do
    let v ← vga_putchar turns v (v.mem data)
    vga_strwrite_loop turns n (data + 1) v

/-- The length becomes an `int`. `none` when no NUL ends the string. -/
def vga_strwrite (turns : Nat) (v : Vga) (data : Nat) : Option Vga := do
  let str ← string_at v.mem 4294967296 data
  vga_strwrite_loop turns (toInt str.length).toNat data v

def vga_clean_screen (turns : Nat) (v : Vga) : Option Vga := do
  let v' ← run (vga_putchar turns) (vga_setpos v 0 0)
    (List.replicate (toInt v.vga_state.height * toInt v.vga_state.width).toNat 0)
  return vga_update_cursor (vga_setpos v' 0 0)

/-! ## Positions and cells -/

/-- The driver is in text mode, and its position is on the screen. -/
structure OnScreen (v : Vga) : Prop where
  mode : v.vga_state.mode = VGA_80x25_16_TEXT
  width : v.vga_state.width = 80
  height : v.vga_state.height = 25
  buffer : v.vga_state.buffer = VGA_TM_VIDEO_MEMORY
  bytes : v.vga_state.bytes = 2
  x : 0 ≤ v.vga_state.x ∧ v.vga_state.x < 80
  y : 0 ≤ v.vga_state.y ∧ v.vga_state.y < 25

theorem onScreen_init (mem : Mem) (ports : List (Nat × UInt8)) :
    OnScreen ⟨vga_init_state, mem, ports⟩ :=
  ⟨rfl, rfl, rfl, rfl, rfl, by simp [vga_init_state], by simp [vga_init_state]⟩

/-- The cells from the first one to the position. -/
def cellIndex (v : Vga) : Nat := 80 * v.vga_state.y.toNat + v.vga_state.x.toNat

/-- The address of the first byte of a cell. -/
def cellAddress (n : Nat) : Nat := VGA_TM_VIDEO_MEMORY + 2 * n

/-- The text buffer is `width * height * bytes` long. -/
def InBuffer (a : Nat) : Prop := VGA_TM_VIDEO_MEMORY ≤ a ∧ a < VGA_TM_VIDEO_MEMORY + 80 * 25 * 2

section

variable {v : Vga} (h : OnScreen v)

include h

theorem OnScreen.cellIndex_lt : cellIndex v < 2000 := by
  have hx := h.x
  have hy := h.y
  unfold cellIndex
  omega

theorem OnScreen.offset_eq : vga_get_offset v.vga_state = 2 * (cellIndex v : Int) := by
  have hx := h.x
  have hy := h.y
  have hxw : ofInt v.vga_state.x = v.vga_state.x.toNat := by
    unfold ofInt
    omega
  have hyw : ofInt v.vga_state.y = v.vga_state.y.toNat := by
    unfold ofInt
    omega
  have hrows : mul32 v.vga_state.y.toNat 80 = v.vga_state.y.toNat * 80 := mul32_eq (by omega)
  have htwo : ofInt 2 = 2 := rfl
  unfold vga_get_offset
  rw [h.bytes, h.width, hxw, hyw, hrows, htwo, add32_eq (by omega), mul32_eq (by omega)]
  unfold toInt cellIndex
  rw [if_pos (by omega)]
  omega

theorem OnScreen.place_onScreen {n : Nat} (hn : n < 2000) :
    OnScreen (v.place (n % 80 : Nat) (n / 80 : Nat)) := by
  refine ⟨h.mode, h.width, h.height, h.buffer, h.bytes, ?_, ?_⟩
  · simp only [Vga.place]
    omega
  · simp only [Vga.place]
    omega

/-- The position of an offset. -/
theorem OnScreen.position {n : Nat} (hn : n < 2000) :
    vga_get_offset_x v.vga_state (2 * (n : Int)) = (n % 80 : Nat) ∧
      vga_get_offset_y v.vga_state (2 * (n : Int)) = (n / 80 : Nat) := by
  have hcells : ofInt ((2 * (n : Int)).tdiv 2) = n := by
    unfold ofInt
    rw [Int.tdiv_eq_ediv_of_nonneg (by omega)]
    omega
  unfold vga_get_offset_x vga_get_offset_y
  rw [h.bytes, h.width, hcells]
  unfold toInt
  rw [if_pos (by omega), if_pos (by omega)]
  exact ⟨rfl, rfl⟩

theorem OnScreen.store_cell_mem {n : Nat} (hn : n < 2000) (c : UInt8) :
    (v.store_cell (2 * (n : Int)) c).mem =
      store8 (store8 v.mem (cellAddress n) c) (cellAddress n + 1) v.vga_state.attri := by
  have hfirst : add32 VGA_TM_VIDEO_MEMORY (ofInt (2 * (n : Int) + 0)) = cellAddress n := by
    unfold ofInt cellAddress VGA_TM_VIDEO_MEMORY
    rw [add32_eq (by omega)]
    omega
  have hsecond : add32 VGA_TM_VIDEO_MEMORY (ofInt (2 * (n : Int) + 1)) = cellAddress n + 1 := by
    unfold ofInt cellAddress VGA_TM_VIDEO_MEMORY
    rw [add32_eq (by omega)]
    omega
  unfold Vga.store_cell
  simp only
  rw [h.buffer, hfirst, hsecond]

end

/-- A character and its attribute. -/
def cellAt (v : Vga) (n : Nat) : UInt8 × UInt8 := (v.mem (cellAddress n), v.mem (cellAddress n + 1))

theorem cellAt_store {v : Vga} (h : OnScreen v) {n : Nat} (hn : n < 2000) (c : UInt8) (k : Nat) :
    cellAt (v.store_cell (2 * (n : Int)) c) k =
      if k = n then (c, v.vga_state.attri) else cellAt v k := by
  unfold cellAt
  rw [h.store_cell_mem hn]
  by_cases hk : k = n
  · rw [if_pos hk, hk, store8_same, store8_ne _ _ (by omega), store8_same]
  · unfold cellAddress
    rw [if_neg hk, store8_ne _ _ (by omega), store8_ne _ _ (by omega), store8_ne _ _ (by omega),
      store8_ne _ _ (by omega)]

theorem store_cell_frame {v : Vga} (h : OnScreen v) {n : Nat} (hn : n < 2000) (c : UInt8) {a : Nat}
    (ha : ¬ InBuffer a) : (v.store_cell (2 * (n : Int)) c).mem a = v.mem a := by
  unfold InBuffer at ha
  rw [h.store_cell_mem hn]
  unfold cellAddress
  rw [store8_ne _ _ (by omega), store8_ne _ _ (by omega)]

/-! ## Scrolling -/

/-- Every line of the ones that move gets the bytes of the line below it. -/
theorem scroll_lines_at {b : Nat} (hb : b + 4000 < 4294967296) {n i : Nat} (hi : 1 ≤ i)
    (hn : i + n ≤ 25) (m : Mem) (a : Nat) :
    vga_scroll_lines b 160 n i m a =
      if b + 160 * (i - 1) ≤ a ∧ a < b + 160 * (i - 1 + n) then m (a + 160) else m a := by
  induction n generalizing i m with
  | zero => exact (if_neg (by omega)).symm
  | succ n ih =>
    have hdst : add32 b (mul32 (i - 1) 160) = b + 160 * (i - 1) := by
      rw [mul32_eq (by omega), add32_eq (by omega)]
      omega
    have hsrc : add32 b (mul32 i 160) = b + 160 * i := by
      rw [mul32_eq (by omega), add32_eq (by omega)]
      omega
    -- the lines that are left read nothing of the line that was copied
    have hcopied : ∀ x, copy m (b + 160 * (i - 1)) (b + 160 * i) 160 x =
        if b + 160 * (i - 1) ≤ x ∧ x < b + 160 * i then m (x + 160) else m x := by
      intro x
      by_cases hx : b + 160 * (i - 1) ≤ x ∧ x < b + 160 * i
      · have hplace : x = b + 160 * (i - 1) + (x - (b + 160 * (i - 1))) := by omega
        rw [if_pos hx, hplace, copy_inside _ _ _ _ _ (by omega) (by omega)]
        congr 1
        omega
      · rw [if_neg hx, copy_frame _ _ _ _ _ (by omega)]
    rw [vga_scroll_lines, hdst, hsrc, ih (by omega) (by omega), hcopied, hcopied]
    split <;> split <;> split <;> first | rfl | omega

theorem blank_line_at (b : Nat) (attri : UInt8) (n i : Nat) (m : Mem) (a : Nat) :
    vga_blank_line b attri n i m a =
      if b + 2 * i ≤ a ∧ a < b + 2 * (i + n) then if (a - b) % 2 = 0 then 0 else attri
      else m a := by
  induction n generalizing i m with
  | zero => exact (if_neg (by omega)).symm
  | succ n ih =>
    rw [vga_blank_line, ih]
    by_cases hrest : b + 2 * (i + 1) ≤ a ∧ a < b + 2 * (i + 1 + n)
    · have hall : b + 2 * i ≤ a ∧ a < b + 2 * (i + (n + 1)) := by omega
      rw [if_pos hrest, if_pos hall]
    · rw [if_neg hrest]
      by_cases hsecond : a = b + i * 2 + 1
      · rw [hsecond, store8_same, if_pos (by omega), if_neg (by omega)]
      · rw [store8_ne _ _ hsecond]
        by_cases hfirst : a = b + i * 2 + 0
        · rw [hfirst, store8_same, if_pos (by omega), if_pos (by omega)]
        · rw [store8_ne _ _ hfirst, if_neg (by omega)]

theorem scroll_mem {v : Vga} (h : OnScreen v) (a : Nat) :
    (vga_scroll v).mem a =
      if cellAddress 1920 ≤ a ∧ a < cellAddress 2000 then
        if (a - cellAddress 1920) % 2 = 0 then 0 else v.vga_state.attri
      else if cellAddress 0 ≤ a ∧ a < cellAddress 1920 then v.mem (a + 160) else v.mem a := by
  have hline : mul32 (ofInt 2) 80 = 160 := mul32_eq (by decide)
  have hlast : add32 VGA_TM_VIDEO_MEMORY (mul32 (25 - 1) 160) = cellAddress 1920 := by
    unfold cellAddress VGA_TM_VIDEO_MEMORY
    rw [mul32_eq (by omega), add32_eq (by omega)]
  have hb : VGA_TM_VIDEO_MEMORY + 4000 < 4294967296 := by decide
  unfold vga_scroll
  simp only
  rw [h.bytes, h.width, h.height, h.buffer, hline, hlast, blank_line_at,
    scroll_lines_at hb (by omega) (by omega)]
  rfl

theorem cellAt_scroll {v : Vga} (h : OnScreen v) {n : Nat} (hn : n < 2000) :
    cellAt (vga_scroll v) n = if n < 1920 then cellAt v (n + 80) else (0, v.vga_state.attri) := by
  have hnext : cellAddress n + 160 = cellAddress (n + 80) := by
    unfold cellAddress
    omega
  have hnext' : cellAddress n + 1 + 160 = cellAddress (n + 80) + 1 := by omega
  unfold cellAt
  rw [scroll_mem h, scroll_mem h]
  unfold cellAddress at *
  by_cases hline : n < 1920
  · rw [if_pos hline, if_neg (by omega), if_pos (by omega), if_neg (by omega), if_pos (by omega),
      hnext, hnext']
  · rw [if_neg hline, if_pos (by omega), if_pos (by omega), if_pos (by omega), if_neg (by omega)]

theorem scroll_frame {v : Vga} (h : OnScreen v) {a : Nat} (ha : ¬ InBuffer a) :
    (vga_scroll v).mem a = v.mem a := by
  unfold InBuffer at ha
  rw [scroll_mem h]
  unfold cellAddress
  generalize VGA_TM_VIDEO_MEMORY = b at ha ⊢
  rw [if_neg (by omega), if_neg (by omega)]

/-! ## What one character does -/

@[simp] theorem update_cursor_state (v : Vga) : (vga_update_cursor v).vga_state = v.vga_state := by
  unfold vga_update_cursor
  split <;> rfl

@[simp] theorem update_cursor_mem (v : Vga) : (vga_update_cursor v).mem = v.mem := by
  unfold vga_update_cursor
  split <;> rfl

/-- The position stays on the screen, and nothing but the text buffer changes. -/
structure KeepsScreen (v u : Vga) : Prop where
  screen : OnScreen u
  attri : u.vga_state.attri = v.vga_state.attri
  frame : ∀ a, ¬ InBuffer a → u.mem a = v.mem a

theorem KeepsScreen.trans {v u w : Vga} (h : KeepsScreen v u) (h' : KeepsScreen u w) :
    KeepsScreen v w :=
  ⟨h'.screen, h'.attri.trans h.attri, fun a ha => (h'.frame a ha).trans (h.frame a ha)⟩

section

variable {v u : Vga}

theorem OnScreen.congr (h : OnScreen v) (hs : u.vga_state = v.vga_state) : OnScreen u := by
  obtain ⟨hmode, hwidth, hheight, hbuffer, hbytes, hx, hy⟩ := h
  rw [← hs] at *
  exact ⟨hmode, hwidth, hheight, hbuffer, hbytes, hx, hy⟩

theorem store_cell_keeps (h : OnScreen v) {n : Nat} (hn : n < 2000) (c : UInt8) :
    KeepsScreen v (v.store_cell (2 * (n : Int)) c) :=
  ⟨h.congr rfl, rfl, fun _ ha => store_cell_frame h hn c ha⟩

theorem toInt_eighty : toInt 80 = 80 := rfl

theorem toInt_twentyFive : toInt 25 = 25 := rfl

theorem settle_inside (h : OnScreen v) {n : Nat} (hn : n < 2000) :
    vga_settle v (2 * (n : Int)) = vga_update_cursor (v.place (n % 80 : Nat) (n / 80 : Nat)) := by
  obtain ⟨hx, hy⟩ := h.position hn
  unfold vga_settle
  simp only
  rw [if_neg, hx, hy]
  rw [h.bytes, h.width, h.height, toInt_eighty, toInt_twentyFive]
  omega

theorem settle_behind (h : OnScreen v) :
    vga_settle v (2 * (2000 : Nat)) = vga_update_cursor ((vga_scroll v).place 0 24) := by
  have hlast : 2 * ((2000 : Nat) : Int) - 2 * toInt 80 = 2 * ((1920 : Nat) : Int) := by
    rw [toInt_eighty]
    norm_num
  obtain ⟨hx, hy⟩ := h.position (show 1920 < 2000 by omega)
  unfold vga_settle
  simp only
  rw [if_pos, h.bytes, h.width, hlast, hx, hy]
  · rfl
  · rw [h.bytes, h.width, h.height, toInt_eighty, toInt_twentyFive]
    norm_num

theorem settle_keeps (h : OnScreen v) {n : Nat} (hn : n ≤ 2000) :
    KeepsScreen v (vga_settle v (2 * (n : Int))) := by
  rcases Nat.lt_or_eq_of_le hn with hlt | rfl
  · rw [settle_inside h hlt]
    exact ⟨(h.place_onScreen hlt).congr (by simp), by simp [Vga.place], by simp [Vga.place]⟩
  · rw [settle_behind h]
    refine ⟨(h.place_onScreen (show 1920 < 2000 by omega)).congr ?_, ?_, ?_⟩
    · simp [Vga.place, vga_scroll]
    · simp [Vga.place, vga_scroll]
    · intro a ha
      rw [update_cursor_mem]
      exact scroll_frame h ha

theorem putchar_newline (h : OnScreen v) (turns : Nat) :
    vga_putchar turns v '\n'.toUInt8 =
      some (vga_settle v (2 * ((80 * (cellIndex v / 80 + 1) : Nat) : Int))) := by
  unfold vga_putchar
  rw [if_pos h.mode, if_pos rfl, h.offset_eq, h.bytes, h.width, toInt_eighty,
    Int.tdiv_eq_ediv_of_nonneg (by omega), Int.tmod_eq_emod_of_nonneg (by omega)]
  congr 2
  omega

theorem putchar_other (h : OnScreen v) (turns : Nat) {c : UInt8} (hc : c ≠ '\n'.toUInt8)
    (hbs : c ≠ ASCII_CTRL_BS) :
    vga_putchar turns v c =
      some (vga_settle (v.store_cell (2 * (cellIndex v : Int)) c)
        (2 * ((cellIndex v + 1 : Nat) : Int))) := by
  unfold vga_putchar
  simp only
  rw [if_pos h.mode, if_neg hc, if_neg hbs, h.offset_eq, h.bytes]
  congr 2

end

end sakana_os
