-- From scancode bytes to the characters of the terminal: `keyboard.c`, the PS/2
-- interrupt handler and the listener of the terminal.
import SakanaOS.CircularBuffer
import SakanaOS.Strings

open byte_memory rings

namespace sakana_os

/-! ## The code -/

def keyboard_scancode_ascii_map : List UInt8 :=
  [ -- 0x00: escape, the digits, minus, equal, backspace, tab
    0, 27, 49, 50, 51, 52, 53, 54, 55, 56, 57, 48, 45, 61, 8, 9,
    -- 0x10: the letters from Q, the brackets, enter, left control, A, S
    81, 87, 69, 82, 84, 89, 85, 73, 79, 80, 91, 93, 13, 0, 65, 83,
    -- 0x20: the letters from D, punctuation, left shift, backslash, Z, X, C, V
    68, 70, 71, 72, 74, 75, 76, 59, 39, 96, 0, 92, 90, 88, 67, 86,
    -- 0x30: B, N, M, punctuation, right shift, keypad asterisk, alt, space, caps lock
    66, 78, 77, 44, 46, 47, 0, 42, 0, 32, 0,
    -- 0x3B: the function keys, num lock, scroll lock
    0, 0, 0, 0, 0, 0, 0, 0, 0, 0, 0, 0,
    -- 0x47: the keypad
    55, 56, 57, 45, 52, 53, 54, 43, 49, 50, 51, 48, 46,
    -- 0x54: no character
    0, 0, 0, 0, 0]

structure keyboard_event where
  keycode : Nat
  pressed : Bool

/-- A read of the table. What lies behind the table is not known. -/
def scancode_entry (outside : Nat → UInt8) (index : Nat) : UInt8 :=
  if h : index < keyboard_scancode_ascii_map.length then keyboard_scancode_ascii_map.get ⟨index, h⟩
  else outside index

/-- The event, and the indices of the table that were read for it. -/
def keyboard_transfer_scancode (outside : Nat → UInt8) (scancode : Nat) :
    keyboard_event × List Nat :=
  let r : keyboard_event × List Nat :=
    if scancode ≤ 0x58 then (⟨charWord (scancode_entry outside scancode), true⟩, [scancode])
    else if scancode ≥ 0x80 ∧ scancode ≤ 0xD8 then
      (⟨charWord (scancode_entry outside scancode), false⟩, [scancode])
    else (⟨0, false⟩, [])
  ({ r.1 with keycode := charWord (tolower (UInt8.ofNat r.1.keycode)) }, r.2)

/-- The input ring of the standard terminal, `none` while there is none. -/
structure Terminal where
  tty_stdterm : Option circular_buffer
  mem : Mem

def tty_keyboard_listener (event : keyboard_event) (s : Terminal) : Terminal :=
  match s.tty_stdterm with
  | none => s
  | some input =>
    let c := UInt8.ofNat event.keycode
    if c ≠ 0 ∧ event.pressed = true then
      let r := circular_buffer_enqueue input s.mem (some [c])
      ⟨some r.1, r.2⟩
    else s

/-- The handler with the byte that it reads from the port. -/
def ps2_keyboard_interrupt_handler (outside : Nat → UInt8)
    (ps2_keyboard_listener : Option (keyboard_event → Terminal → Terminal)) (scancode : UInt8)
    (s : Terminal) : Terminal × List Nat :=
  match ps2_keyboard_listener with
  | none => (s, [])
  | some listener =>
    let r := keyboard_transfer_scancode outside scancode.toNat
    (listener r.1 s, r.2)

/-- The terminal after a stream of bytes, and all indices of the table that were read. -/
def scancode_stream (outside : Nat → UInt8) (s : Terminal × List Nat) (scancodes : List UInt8) :
    Terminal × List Nat :=
  scancodes.foldl (fun s scancode =>
    let r := ps2_keyboard_interrupt_handler outside (some tty_keyboard_listener) scancode s.1
    (r.1, s.2 ++ r.2)) s

/-! ## What the bytes mean -/

/-- The character of a make code, when it has one. -/
def madeChar (scancode : UInt8) : Option UInt8 :=
  match keyboard_scancode_ascii_map[scancode.toNat]? with
  | some c => if c = 0 then none else some (tolower c)
  | none => none

/-- The bytes that are release codes. -/
def IsRelease (scancode : UInt8) : Prop := 0x80 ≤ scancode ∧ scancode ≤ 0xD8

instance (scancode : UInt8) : Decidable (IsRelease scancode) :=
  inferInstanceAs (Decidable (_ ∧ _))

/-! ## One byte -/

theorem map_length : keyboard_scancode_ascii_map.length = 0x59 := by decide

theorem transfer_make {outside : Nat → UInt8} {i : Nat}
    (h : i < keyboard_scancode_ascii_map.length) :
    keyboard_transfer_scancode outside i =
      (⟨charWord (tolower (keyboard_scancode_ascii_map.get ⟨i, h⟩)), true⟩, [i]) := by
  have hle : i ≤ 0x58 := by
    rw [map_length] at h
    omega
  unfold keyboard_transfer_scancode scancode_entry
  simp only [if_pos hle, dif_pos h, charWord_char]

/-- A byte that is no make code gives an event that the listener drops. -/
theorem transfer_other (outside : Nat → UInt8) {i : Nat} (h : ¬ i ≤ 0x58) :
    (keyboard_transfer_scancode outside i).1.pressed = false ∧
      (keyboard_transfer_scancode outside i).2 = if i ≥ 0x80 ∧ i ≤ 0xD8 then [i] else [] := by
  unfold keyboard_transfer_scancode
  simp only [if_neg h]
  split
  · exact ⟨rfl, rfl⟩
  · exact ⟨rfl, rfl⟩

/-- What the listener makes of a byte. -/
def typeChar (input : circular_buffer) (m : Mem) (c : Option UInt8) : circular_buffer × Mem :=
  match c with
  | none => (input, m)
  | some c => circular_buffer_enqueue input m (some [c])

/-- A byte leads to at most one enqueue, and to at most one read of the table, at the
byte itself. -/
theorem handler_eq (outside : Nat → UInt8) (scancode : UInt8) (input : circular_buffer) (m : Mem) :
    ps2_keyboard_interrupt_handler outside (some tty_keyboard_listener) scancode ⟨some input, m⟩ =
      (⟨some (typeChar input m (madeChar scancode)).1, (typeChar input m (madeChar scancode)).2⟩,
        if scancode ≤ 0x58 ∨ IsRelease scancode then [scancode.toNat] else []) := by
  by_cases hmake : scancode.toNat < keyboard_scancode_ascii_map.length
  · have hle : scancode ≤ 0x58 := by
      rw [map_length] at hmake
      exact UInt8.le_iff_toNat_le.mpr (Nat.le_of_lt_succ hmake)
    have hentry : keyboard_scancode_ascii_map[scancode.toNat]? =
        some (keyboard_scancode_ascii_map.get ⟨scancode.toNat, hmake⟩) :=
      List.getElem?_eq_getElem hmake
    unfold ps2_keyboard_interrupt_handler madeChar tty_keyboard_listener
    simp only [transfer_make hmake, hentry, charWord_char, if_pos (Or.inl hle)]
    by_cases hzero : keyboard_scancode_ascii_map.get ⟨scancode.toNat, hmake⟩ = 0
    · rw [hzero]
      rfl
    · have hlower := tolower_ne_zero _ hzero
      rw [if_pos ⟨hlower, trivial⟩, if_neg hzero]
      rfl
  · have hgt : ¬ scancode.toNat ≤ 0x58 := by
      rw [map_length] at hmake
      omega
    have hle : ¬ scancode ≤ 0x58 := fun h => hgt (UInt8.le_iff_toNat_le.mp h)
    have hentry : keyboard_scancode_ascii_map[scancode.toNat]? = none :=
      List.getElem?_eq_none (Nat.le_of_not_lt hmake)
    obtain ⟨hdropped, hreads⟩ := transfer_other outside hgt
    have hrelease : (scancode.toNat ≥ 0x80 ∧ scancode.toNat ≤ 0xD8) ↔ IsRelease scancode := by
      unfold IsRelease
      rw [UInt8.le_iff_toNat_le, UInt8.le_iff_toNat_le]
      rfl
    unfold ps2_keyboard_interrupt_handler madeChar tty_keyboard_listener
    simp only [hdropped, hreads, hentry, hrelease, hle, false_or, Bool.false_eq_true, and_false,
      if_false]
    rfl

/-! ## A stream of bytes -/

/-- The characters that a stream of bytes types. -/
def typedChars (scancodes : List UInt8) : List UInt8 := scancodes.filterMap madeChar

/-- The ring holds the characters of a list. -/
def HoldsChars (cb : circular_buffer) (m : Mem) (chars : List UInt8) : Prop :=
  elements cb m = chars.map fun c => [c]

theorem typeChar_spec {input : circular_buffer} {m : Mem} {chars : List UInt8}
    (hring : RingAt input m) (hes : input.element_size = 1) (hchars : HoldsChars input m chars)
    (c : Option UInt8) :
    RingAt (typeChar input m c).1 (typeChar input m c).2 ∧
      (typeChar input m c).1.element_size = 1 ∧
      (typeChar input m c).1.capacity = input.capacity ∧
      HoldsChars (typeChar input m c).1 (typeChar input m c).2
        (chars ++ c.toList.take (input.capacity - chars.length)) := by
  cases c with
  | none =>
    refine ⟨hring, hes, rfl, ?_⟩
    rw [Option.toList_none, List.take_nil, List.append_nil]
    exact hchars
  | some c =>
    have hsame := enqueue_same input m (some [c])
    have hsize : chars.length = input.size := by
      rw [← length_elements input m, hchars, List.length_map]
    have hle : input.size ≤ input.capacity := hring.good.size
    refine ⟨enqueue_ringAt hring hes.symm, hsame.element_size.trans hes, hsame.capacity, ?_⟩
    unfold HoldsChars typeChar
    rw [elements_enqueue hring (show [c].length = input.element_size from hes.symm), hchars,
      Option.toList_some, hsize]
    by_cases hfull : input.size = input.capacity
    · rw [if_pos hfull, hfull, Nat.sub_self, List.take_zero, List.append_nil]
    · rw [if_neg hfull, List.take_of_length_le (by rw [List.length_singleton]; omega),
        List.map_append, List.map_singleton]

/-- The stream types its characters until the ring is full, and reads the table at
each make and release code. -/
theorem stream_spec (outside : Nat → UInt8) {input : circular_buffer} {m : Mem}
    {chars : List UInt8} (hring : RingAt input m) (hes : input.element_size = 1)
    (hchars : HoldsChars input m chars) (reads : List Nat) (scancodes : List UInt8) :
    ∃ input' m', scancode_stream outside (⟨some input, m⟩, reads) scancodes =
        (⟨some input', m'⟩, reads ++
          (scancodes.filter fun b => b ≤ 0x58 ∨ IsRelease b).map UInt8.toNat) ∧
      HoldsChars input' m'
        (chars ++ (typedChars scancodes).take (input.capacity - chars.length)) := by
  induction scancodes generalizing input m chars reads with
  | nil =>
    refine ⟨input, m, ?_, ?_⟩
    · rw [List.filter_nil, List.map_nil, List.append_nil]
      rfl
    · unfold typedChars
      rw [List.filterMap_nil, List.take_nil, List.append_nil]
      exact hchars
  | cons scancode scancodes ih =>
    obtain ⟨hring', hes', hcap, hchars'⟩ := typeChar_spec hring hes hchars (madeChar scancode)
    obtain ⟨input', m', heq, hholds⟩ := ih hring' hes' hchars'
      (reads ++ if scancode ≤ 0x58 ∨ IsRelease scancode then [scancode.toNat] else [])
    refine ⟨input', m', ?_, ?_⟩
    · rw [scancode_stream, List.foldl_cons]
      simp only [handler_eq]
      refine heq.trans ?_
      rw [List.append_assoc, List.filter_cons]
      by_cases hread : scancode ≤ 0x58 ∨ IsRelease scancode
      · simp only [hread, if_true, decide_true]
        rfl
      · simp only [hread, if_false, decide_false, Bool.false_eq_true]
        rfl
    · have htyped : typedChars (scancode :: scancodes) =
          (madeChar scancode).toList ++ typedChars scancodes := by
        unfold typedChars
        rw [List.filterMap_cons]
        cases madeChar scancode <;> rfl
      have hroom : input.capacity - (chars.length +
            min (input.capacity - chars.length) (madeChar scancode).toList.length) =
          input.capacity - chars.length - (madeChar scancode).toList.length := by
        omega
      rw [hcap, List.length_append, List.length_take, hroom, List.append_assoc] at hholds
      rw [htyped, List.take_append]
      exact hholds

/-- The stream types exactly its characters, until the ring is full, and every read of
the table is inside it. -/
def StreamArrives (outside : Nat → UInt8) (input : circular_buffer) (m : Mem)
    (chars scancodes : List UInt8) : Prop :=
  (∃ input', (scancode_stream outside (⟨some input, m⟩, []) scancodes).1.tty_stdterm = some input' ∧
    HoldsChars input' (scancode_stream outside (⟨some input, m⟩, []) scancodes).1.mem
      (chars ++ (typedChars scancodes).take (input.capacity - chars.length))) ∧
  ∀ i ∈ (scancode_stream outside (⟨some input, m⟩, []) scancodes).2,
    i < keyboard_scancode_ascii_map.length

/-- A stream arrives as it should if and only if it has no release code: a release
code is looked up behind the end of the table. -/
theorem a_stream_arrives_without_releases (outside : Nat → UInt8) {input : circular_buffer}
    {m : Mem} {chars : List UInt8} (hring : RingAt input m) (hes : input.element_size = 1)
    (hchars : HoldsChars input m chars) (scancodes : List UInt8) :
    StreamArrives outside input m chars scancodes ↔ ∀ b ∈ scancodes, ¬ IsRelease b := by
  obtain ⟨input', m', heq, hholds⟩ := stream_spec outside hring hes hchars [] scancodes
  unfold StreamArrives
  rw [heq, List.nil_append]
  constructor
  · rintro ⟨-, hreads⟩ b hb hrelease
    have hlt := hreads b.toNat (List.mem_map_of_mem
      (List.mem_filter.mpr ⟨hb, decide_eq_true (Or.inr hrelease)⟩))
    have hge := UInt8.le_iff_toNat_le.mp hrelease.1
    rw [map_length] at hlt
    exact absurd hlt (Nat.not_lt.mpr (Nat.le_trans (by decide) hge))
  · intro hnone
    refine ⟨⟨input', rfl, hholds⟩, ?_⟩
    intro i hi
    obtain ⟨b, hb, rfl⟩ := List.mem_map.mp hi
    obtain ⟨hmem, hread⟩ := List.mem_filter.mp hb
    have hmake := (of_decide_eq_true hread).resolve_right (hnone b hmem)
    rw [map_length]
    exact Nat.lt_succ_of_le (UInt8.le_iff_toNat_le.mp hmake)

def TTY_BUFFER_SIZE : Nat := 1024

/-- An empty input ring at the address 4096. -/
def freshInput : circular_buffer := ⟨4096, 0, 0, TTY_BUFFER_SIZE, 1, 0⟩

theorem freshInput_ring (m : Mem) : RingAt freshInput m := by
  apply fresh_ringAt
  · decide
  · decide
  · decide
  · decide

/-- The keys H and I, pressed only. -/
theorem two_make_codes_arrive :
    StreamArrives (fun _ => 0) freshInput (fun _ => 0) [] [0x23, 0x17] := by
  have hempty : HoldsChars freshInput (fun _ => 0) [] := rfl
  apply (a_stream_arrives_without_releases (fun _ => 0) (freshInput_ring _) rfl hempty _).mpr
  decide +kernel

/-- The key A, pressed and released. -/
theorem a_release_is_looked_up_outside :
    ¬ ∀ scancodes, StreamArrives (fun _ => 0) freshInput (fun _ => 0) [] scancodes := by
  intro hall
  have hread := (hall [0x1E, 0x9E]).2 0x9E (by decide)
  rw [map_length] at hread
  omega

end sakana_os
