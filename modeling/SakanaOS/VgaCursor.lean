-- The cursor of the text screen: what the driver tells the CRT controller through its two ports,
-- and that the registers of the controller follow the position of the driver.
import SakanaOS.VgaBackspace
import SakanaOS.VgaText

open byte_memory runs

namespace sakana_os

/-! ## The controller -/

/-- The register that the data port reaches, and the registers. -/
structure Crt where
  index : UInt8
  regs : UInt8 → UInt8

def Crt.out (c : Crt) (w : Nat × UInt8) : Crt :=
  if w.1 = VGA_CRTC_ADDRESS_REGISTER_PORT then { c with index := w.2 }
  else if w.1 = VGA_CRTC_DATA_REGISTER_PORT then
    { c with regs := Function.update c.regs c.index w.2 }
  else c

/-- The controller after the writes of the driver. -/
def Vga.crt (power : Crt) (v : Vga) : Crt := v.ports.foldl Crt.out power

/-! ## The code -/

def VGA_CRTC_CURSOR_START_REGISTER : UInt8 := 0x0A
def VGA_CRTC_CURSOR_END_REGISTER : UInt8 := 0x0B

/-- A read of the data port. -/
def Vga.crtc_data_in (power : Crt) (v : Vga) : UInt8 := (v.crt power).regs (v.crt power).index

/-- `cursor_enabled` of the state. -/
def Vga.set_cursor_enabled (v : Vga) (b : Bool) : Vga :=
  { v with vga_state := { v.vga_state with cursor_enabled := b } }

def vga_enable_cursor (power : Crt) (v : Vga) (start stop : UInt8) : Vga :=
  let v := v.port_byte_out VGA_CRTC_ADDRESS_REGISTER_PORT VGA_CRTC_CURSOR_START_REGISTER
  let data := v.crtc_data_in power &&& 0xC0
  let v := v.port_byte_out VGA_CRTC_DATA_REGISTER_PORT (data ||| start)
  let v := v.port_byte_out VGA_CRTC_ADDRESS_REGISTER_PORT VGA_CRTC_CURSOR_END_REGISTER
  let data := v.crtc_data_in power &&& 0xE0
  let v := v.port_byte_out VGA_CRTC_DATA_REGISTER_PORT (data ||| stop)
  vga_update_cursor (v.set_cursor_enabled true)

def vga_disable_cursor (v : Vga) : Vga :=
  let v := v.port_byte_out VGA_CRTC_ADDRESS_REGISTER_PORT VGA_CRTC_CURSOR_START_REGISTER
  let v := v.port_byte_out VGA_CRTC_DATA_REGISTER_PORT 0x20
  v.set_cursor_enabled false

/-- A call of the functions that `vga_init` gives to the rest of the kernel. -/
inductive ScreenCall where
  | write (c : UInt8)
  | strwrite (data : Nat)
  | clean_screen
  | enable_cursor (start stop : UInt8)
  | disable_cursor

def screen_call (turns : Nat) (power : Crt) (v : Vga) : ScreenCall → Option Vga
  | .write c => vga_write turns v c
  | .strwrite data => vga_strwrite turns v data
  | .clean_screen => vga_clean_screen turns v
  | .enable_cursor start stop => some (vga_enable_cursor power v start stop)
  | .disable_cursor => some (vga_disable_cursor v)

/-- The end of `vga_init`. -/
def vga_init_screen (turns : Nat) (power : Crt) (m : Mem) : Option Vga :=
  vga_clean_screen turns (vga_enable_cursor power ⟨vga_init_state, m, []⟩ 0 15)

/-- The scan lines of a cell have five bits. -/
def ScreenCall.Sized : ScreenCall → Prop
  | .enable_cursor start stop => start < 32 ∧ stop < 32
  | _ => True

/-! ## The registers -/

/-- The number in the two location registers. -/
def Crt.location (c : Crt) : Nat := 256 * (c.regs 14).toNat + (c.regs 15).toNat

/-- The bit of the start register that takes the cursor away. -/
def Crt.hidden (c : Crt) : Prop := c.regs VGA_CRTC_CURSOR_START_REGISTER &&& 0x20 ≠ 0

/-- The registers that the driver leaves as they were, and the bits of the others. -/
structure CrtKept (power c : Crt) : Prop where
  others : ∀ r, r ≠ VGA_CRTC_CURSOR_START_REGISTER → r ≠ VGA_CRTC_CURSOR_END_REGISTER → r ≠ 14 →
    r ≠ 15 → c.regs r = power.regs r
  stop : c.regs VGA_CRTC_CURSOR_END_REGISTER &&& 0xE0 =
    power.regs VGA_CRTC_CURSOR_END_REGISTER &&& 0xE0

/-- The controller shows a cursor when the driver has one. -/
structure CursorShown (power : Crt) (v : Vga) : Prop where
  screen : OnScreen v
  kept : CrtKept power (v.crt power)
  hidden : (v.crt power).hidden ↔ v.vga_state.cursor_enabled = false

/-- The cursor stands where the next character goes. -/
structure CursorFollows (power : Crt) (v : Vga) : Prop extends CursorShown power v where
  location : v.vga_state.cursor_enabled = true → (v.crt power).location = cellIndex v

@[simp] theorem crt_out (power : Crt) (v : Vga) (port : Nat) (data : UInt8) :
    (v.port_byte_out port data).crt power = (v.crt power).out (port, data) := by
  unfold Vga.crt Vga.port_byte_out
  rw [List.foldl_append]
  rfl

@[simp] theorem crt_set_cursor_enabled (power : Crt) (v : Vga) (b : Bool) :
    (v.set_cursor_enabled b).crt power = v.crt power := rfl

/-- A register written through both ports. -/
theorem out_register (c : Crt) (r data : UInt8) :
    (c.out (VGA_CRTC_ADDRESS_REGISTER_PORT, r)).out (VGA_CRTC_DATA_REGISTER_PORT, data) =
      ⟨r, Function.update c.regs r data⟩ := by
  have hne : ¬ VGA_CRTC_DATA_REGISTER_PORT = VGA_CRTC_ADDRESS_REGISTER_PORT := by decide
  unfold Crt.out
  dsimp only
  rw [if_pos rfl, if_neg hne, if_pos rfl]

section

variable {power : Crt} {v u : Vga}

/-- The location registers take the position of the driver, and no other changes. -/
theorem update_cursor_crt (power : Crt) (h : OnScreen v)
    (henabled : v.vga_state.cursor_enabled = true) :
    ((vga_update_cursor v).crt power).location = cellIndex v ∧
      ∀ r, r ≠ 14 → r ≠ 15 → ((vga_update_cursor v).crt power).regs r = (v.crt power).regs r := by
  have hlt := h.cellIndex_lt
  have hindex : (vga_get_offset v.vga_state).tdiv v.vga_state.bytes = (cellIndex v : Int) := by
    rw [h.offset_eq, h.bytes, Int.tdiv_eq_ediv_of_nonneg (by omega)]
    omega
  have hshift : ((cellIndex v : Int) >>> (8 : Nat)) = ((cellIndex v / 256 : Nat) : Int) := by
    rw [Int.shiftRight_eq_div_pow]
    rfl
  have hhigh : ofInt ((cellIndex v / 256 : Nat) : Int) = cellIndex v / 256 := by
    unfold ofInt
    omega
  have hlow : ofInt (cellIndex v : Int) &&& 0xff = cellIndex v % 256 := by
    have hsame : ofInt (cellIndex v : Int) = cellIndex v := by
      unfold ofInt
      omega
    rw [hsame]
    exact Nat.and_two_pow_sub_one_eq_mod _ 8
  unfold vga_update_cursor
  rw [if_pos henabled]
  dsimp only
  simp only [crt_out, out_register, hindex, hshift, hhigh, hlow]
  constructor
  · unfold Crt.location
    dsimp only
    rw [Function.update_of_ne (by decide), Function.update_self, Function.update_self,
      UInt8.toNat_ofNat', UInt8.toNat_ofNat']
    omega
  · intro r h14 h15
    rw [Function.update_of_ne h15, Function.update_of_ne h14]

theorem update_cursor_disabled (hdisabled : v.vga_state.cursor_enabled = false) :
    vga_update_cursor v = v := by
  unfold vga_update_cursor
  rw [hdisabled]
  rfl

/-- A move of the driver ends with the location. -/
theorem CursorShown.moved (h : CursorShown power v) {w : Vga} (hw : OnScreen w)
    (hports : w.ports = v.ports)
    (henabled : w.vga_state.cursor_enabled = v.vga_state.cursor_enabled) :
    CursorFollows power (vga_update_cursor w) := by
  have hcrt : w.crt power = v.crt power := by
    unfold Vga.crt
    rw [hports]
  have hstate : (vga_update_cursor w).vga_state = w.vga_state := update_cursor_state w
  have hcell : cellIndex (vga_update_cursor w) = cellIndex w := by
    unfold cellIndex
    rw [hstate]
  cases hv : v.vga_state.cursor_enabled with
  | false =>
    rw [hv] at henabled
    rw [update_cursor_disabled henabled]
    refine ⟨⟨hw, ?_, ?_⟩, fun htrue => ?_⟩
    · rw [hcrt]
      exact h.kept
    · rw [hcrt, h.hidden, hv, henabled]
    · rw [henabled] at htrue
      cases htrue
  | true =>
    rw [hv] at henabled
    obtain ⟨hlocation, hregs⟩ := update_cursor_crt power hw henabled
    rw [hcrt] at hregs
    refine ⟨⟨hw.congr hstate, ⟨?_, ?_⟩, ?_⟩, fun _ => hlocation.trans hcell.symm⟩
    · intro r h10 h11 h14 h15
      rw [hregs r h14 h15, h.kept.others r h10 h11 h14 h15]
    · rw [hregs _ (by decide) (by decide), h.kept.stop]
    · unfold Crt.hidden
      rw [hregs _ (by decide) (by decide), hstate, henabled, ← hv]
      exact h.hidden

theorem settle_moves (v : Vga) (offset : Int) : ∃ w : Vga, vga_settle v offset =
    vga_update_cursor w ∧ w.ports = v.ports ∧
      w.vga_state.cursor_enabled = v.vga_state.cursor_enabled := by
  unfold vga_settle
  dsimp only
  split <;> exact ⟨_, rfl, rfl, rfl⟩

/-- A character stores at most a cell, and then the driver moves. -/
theorem putchar_moves {turns : Nat} {c : UInt8} (h : OnScreen v)
    (hput : vga_putchar turns v c = some u) : ∃ w : Vga, u = vga_update_cursor w ∧
      w.ports = v.ports ∧ w.vga_state.cursor_enabled = v.vga_state.cursor_enabled := by
  unfold vga_putchar at hput
  rw [if_pos h.mode] at hput
  dsimp only at hput
  split at hput
  · cases hput
    exact settle_moves v _
  · split at hput
    · split at hput
      · obtain ⟨offset, -, hsettle⟩ := Option.bind_eq_some_iff.mp hput
        cases hsettle
        exact settle_moves (v.store_cell offset 0) offset
      · cases hput
        exact settle_moves (v.store_cell (vga_get_offset v.vga_state) 0)
          (vga_get_offset v.vga_state)
    · cases hput
      exact settle_moves (v.store_cell (vga_get_offset v.vga_state) c)
        (vga_get_offset v.vga_state + v.vga_state.bytes)

theorem CursorShown.putchar (h : CursorShown power v) {turns : Nat} {c : UInt8}
    (hput : vga_putchar turns v c = some u) : CursorFollows power u := by
  have hu := (putchar_keeps h.screen hput).1.screen
  obtain ⟨w, rfl, hports, henabled⟩ := putchar_moves h.screen hput
  exact h.moved (hu.congr (update_cursor_state w).symm) hports henabled

theorem CursorFollows.strwrite_loop (h : CursorFollows power v) {turns n data : Nat}
    (hloop : vga_strwrite_loop turns n data v = some u) : CursorFollows power u := by
  induction n generalizing v data with
  | zero =>
    cases hloop
    exact h
  | succ n ih =>
    obtain ⟨w, hput, hrest⟩ := Option.bind_eq_some_iff.mp hloop
    exact ih (h.putchar hput) hrest

theorem CursorShown.setpos (h : CursorShown power v) (x y : Int) :
    CursorShown power (vga_setpos v x y) :=
  ⟨h.screen.place_onScreen (show 0 < 2000 by decide), h.kept, h.hidden⟩

/-- The screen is cleared from wherever the position was. -/
theorem CursorShown.clean_screen (h : CursorShown power v) {turns : Nat}
    (hclean : vga_clean_screen turns v = some u) : CursorFollows power u := by
  obtain ⟨w, hrun, hu⟩ := Option.bind_eq_some_iff.mp hclean
  cases hu
  have hw : CursorShown power w :=
    run_keeps (motive := CursorShown power) (fun _ _ _ h hput => (h.putchar hput).toCursorShown)
      (h.setpos 0 0) hrun
  exact (hw.setpos 0 0).moved (hw.setpos 0 0).screen rfl rfl

/-! ## The cursor itself -/

theorem crtc_data_in_register (power : Crt) (v : Vga) (r : UInt8) :
    (v.port_byte_out VGA_CRTC_ADDRESS_REGISTER_PORT r).crtc_data_in power =
      (v.crt power).regs r := by
  unfold Vga.crtc_data_in
  rw [crt_out]
  unfold Crt.out
  rw [if_pos rfl]

/-- The bits of a register that are kept, and those of the argument. -/
theorem kept_bits {data bits : UInt8} (h : bits < 32) :
    ((data &&& 0xC0) ||| bits) &&& 0x20 = 0 ∧
      ((data &&& 0xE0) ||| bits) &&& 0xE0 = data &&& 0xE0 := by
  have hall : ∀ n < 32, UInt8.ofNat n &&& 0x20 = 0 ∧ UInt8.ofNat n &&& 0xE0 = 0 := by decide
  obtain ⟨h20, hE0⟩ := hall bits.toNat h
  rw [UInt8.ofNat_toNat] at h20 hE0
  have hapart : (0xC0 : UInt8) &&& 0x20 = 0 := by decide
  have hdistrib : ∀ a b c : UInt8, (a ||| b) &&& c = (a &&& c) ||| (b &&& c) :=
    fun a b c => UInt8.toBitVec_inj.mp BitVec.and_or_distrib_right
  constructor
  · rw [hdistrib, UInt8.and_assoc, hapart, UInt8.and_zero, h20]
    rfl
  · rw [hdistrib, UInt8.and_assoc, UInt8.and_self, hE0, UInt8.or_zero]

theorem enable_cursor_follows (h : OnScreen v) (hkept : CrtKept power (v.crt power))
    {start stop : UInt8} (hstart : start < 32) (hstop : stop < 32) :
    CursorFollows power (vga_enable_cursor power v start stop) := by
  obtain ⟨w, hw⟩ : ∃ w, (((v.port_byte_out VGA_CRTC_ADDRESS_REGISTER_PORT
      VGA_CRTC_CURSOR_START_REGISTER).port_byte_out VGA_CRTC_DATA_REGISTER_PORT
      (((v.crt power).regs VGA_CRTC_CURSOR_START_REGISTER &&& 0xC0) ||| start)).port_byte_out
      VGA_CRTC_ADDRESS_REGISTER_PORT VGA_CRTC_CURSOR_END_REGISTER).port_byte_out
      VGA_CRTC_DATA_REGISTER_PORT
      (((v.crt power).regs VGA_CRTC_CURSOR_END_REGISTER &&& 0xE0) ||| stop) = w := ⟨_, rfl⟩
  have hstate : w.vga_state = v.vga_state := by rw [← hw]; rfl
  have hcrt : (w.crt power).regs = Function.update (Function.update (v.crt power).regs
      VGA_CRTC_CURSOR_START_REGISTER
      (((v.crt power).regs VGA_CRTC_CURSOR_START_REGISTER &&& 0xC0) ||| start))
      VGA_CRTC_CURSOR_END_REGISTER
      (((v.crt power).regs VGA_CRTC_CURSOR_END_REGISTER &&& 0xE0) ||| stop) := by
    rw [← hw]
    simp only [crt_out, out_register]
  have hne : VGA_CRTC_CURSOR_START_REGISTER ≠ VGA_CRTC_CURSOR_END_REGISTER := by decide
  have hshown : CursorShown power (w.set_cursor_enabled true) := by
    refine ⟨?_, ⟨?_, ?_⟩, ?_⟩
    · have hscreen := h.congr hstate
      exact ⟨hscreen.mode, hscreen.width, hscreen.height, hscreen.buffer, hscreen.bytes,
        hscreen.x, hscreen.y⟩
    · intro r h10 h11 h14 h15
      rw [crt_set_cursor_enabled, hcrt, Function.update_of_ne h11, Function.update_of_ne h10,
        hkept.others r h10 h11 h14 h15]
    · rw [crt_set_cursor_enabled, hcrt, Function.update_self, (kept_bits hstop).2, hkept.stop]
    · unfold Crt.hidden
      rw [crt_set_cursor_enabled, hcrt, Function.update_of_ne hne, Function.update_self,
        (kept_bits hstart).1]
      exact iff_of_false (fun hno => hno rfl) Bool.noConfusion
  have hmoved := hshown.moved hshown.screen rfl rfl
  unfold vga_enable_cursor
  dsimp only
  rw [crtc_data_in_register, crtc_data_in_register, crt_out, crt_out, out_register]
  dsimp only
  rw [Function.update_of_ne hne.symm, hw]
  exact hmoved

theorem CursorShown.disable_cursor (h : CursorShown power v) :
    CursorFollows power (vga_disable_cursor v) := by
  have hcrt : ((vga_disable_cursor v).crt power).regs =
      Function.update (v.crt power).regs VGA_CRTC_CURSOR_START_REGISTER 0x20 := by
    unfold vga_disable_cursor
    simp only [crt_set_cursor_enabled, crt_out, out_register]
  have hne : VGA_CRTC_CURSOR_END_REGISTER ≠ VGA_CRTC_CURSOR_START_REGISTER := by decide
  refine ⟨⟨?_, ⟨?_, ?_⟩, ?_⟩, Bool.noConfusion⟩
  · exact ⟨h.screen.mode, h.screen.width, h.screen.height, h.screen.buffer, h.screen.bytes,
      h.screen.x, h.screen.y⟩
  · intro r h10 h11 h14 h15
    rw [hcrt, Function.update_of_ne h10, h.kept.others r h10 h11 h14 h15]
  · rw [hcrt, Function.update_of_ne hne, h.kept.stop]
  · unfold Crt.hidden
    rw [hcrt, Function.update_self]
    exact iff_of_true (by decide) rfl

/-! ## Every call -/

theorem CursorFollows.call (h : CursorFollows power v) {turns : Nat} {call : ScreenCall}
    (hsized : call.Sized) (hcall : screen_call turns power v call = some u) :
    CursorFollows power u := by
  cases call with
  | write c => exact h.putchar hcall
  | strwrite data =>
    obtain ⟨str, -, hloop⟩ := Option.bind_eq_some_iff.mp hcall
    exact h.strwrite_loop hloop
  | clean_screen => exact h.clean_screen hcall
  | enable_cursor start stop =>
    cases hcall
    exact enable_cursor_follows h.screen h.kept hsized.1 hsized.2
  | disable_cursor =>
    cases hcall
    exact h.disable_cursor

theorem init_screen_follows {turns : Nat} {m : Mem}
    (hinit : vga_init_screen turns power m = some v) : CursorFollows power v := by
  have hkept : CrtKept power (Vga.crt power ⟨vga_init_state, m, []⟩) :=
    ⟨fun _ _ _ _ _ => rfl, rfl⟩
  exact (enable_cursor_follows (onScreen_init m []) hkept (by decide) (by decide)).clean_screen
    hinit

end

/-- After every run of calls that the screen gets since its initialisation: while the driver has a
cursor, the controller shows it at the cell where the next character goes; while it has none, the
controller hides it; and every register but the four of the cursor is as it was, with the bits of
the end register that are none of the scan lines. -/
theorem the_cursor_follows_the_text (power : Crt) (m : Mem) (turns : Nat) {calls : List ScreenCall}
    (hsized : ∀ call ∈ calls, call.Sized) {v u : Vga}
    (hinit : vga_init_screen turns power m = some v)
    (hrun : run (screen_call turns power) v calls = some u) :
    cellIndex u < 2000 ∧
      (u.vga_state.cursor_enabled = true →
        (u.crt power).location = cellIndex u ∧ ¬ (u.crt power).hidden) ∧
      (u.vga_state.cursor_enabled = false → (u.crt power).hidden) ∧
      CrtKept power (u.crt power) := by
  have hstep : ∀ v call u, CursorFollows power v → ScreenCall.Sized call →
      screen_call turns power v call = some u → CursorFollows power u :=
    fun _ _ _ h hsized hcall => h.call hsized hcall
  have hfollows := run_keeps_along hstep (init_screen_follows hinit) (along_of_forall hsized) hrun
  refine ⟨hfollows.screen.cellIndex_lt, fun henabled => ⟨hfollows.location henabled, ?_⟩,
    hfollows.hidden.mpr, hfollows.kept⟩
  intro hhidden
  rw [hfollows.hidden.mp hhidden] at henabled
  cases henabled

/-- A letter on the clear screen, and then no cursor. -/
theorem a_disabled_cursor_is_hidden : ∃ v u,
    vga_init_screen 1 ⟨0, fun _ => 0⟩ (fun _ => 0) = some v ∧
    run (screen_call 1 ⟨0, fun _ => 0⟩) v [.write 65, .disable_cursor] = some u ∧
    (u.crt ⟨0, fun _ => 0⟩).hidden := by
  obtain ⟨power, hpower⟩ : ∃ power : Crt, ⟨0, fun _ => 0⟩ = power := ⟨_, rfl⟩
  have hscreen : OnScreen (vga_enable_cursor power ⟨vga_init_state, fun _ => 0, []⟩ 0 15) :=
    (enable_cursor_follows (onScreen_init _ []) ⟨fun _ _ _ _ _ => rfl, rfl⟩ (by decide)
      (by decide)).screen
  obtain ⟨v, hclean, hkeeps, -⟩ := clean_screen_shows_nothing hscreen 1
  have hput := putchar_other hkeeps.screen 1 (c := 65) (by decide) (by decide)
  obtain ⟨w, hw⟩ : ∃ w, vga_settle (v.store_cell (2 * (cellIndex v : Int)) 65)
    (2 * ((cellIndex v + 1 : Nat) : Int)) = w := ⟨_, rfl⟩
  rw [hw] at hput
  have hrun : run (screen_call 1 power) v [.write 65, .disable_cursor] =
      some (vga_disable_cursor w) :=
    run_cons.mpr ⟨w, hput, rfl⟩
  rw [hpower]
  have hsized : ∀ call ∈ [ScreenCall.write 65, .disable_cursor], call.Sized := by
    intro call hcall
    rcases List.mem_cons.mp hcall with rfl | hcall
    · trivial
    · rw [List.mem_singleton.mp hcall]
      trivial
  exact ⟨v, _, hclean, hrun, (the_cursor_follows_the_text power (fun _ => 0) 1 hsized hclean
    hrun).2.2.1 rfl⟩

end sakana_os
