-- The terminal of `tty.c`: its two rings, the echo on the screen, and the loop that edits a
-- line in a buffer that grows.
import SakanaOS.CircularBuffer
import SakanaOS.Krealloc
import SakanaOS.Strings
import SakanaOS.Vga

open byte_memory rings runs

namespace sakana_os

def ASCII_CTRL_CR : UInt8 := 13
def ASCII_SPACE : UInt8 := 32

/-- A `char` is signed: the characters from 128 on are below every letter and digit. -/
def isalpha (c : UInt8) : Bool := 'a'.toUInt8 ≤ tolower c && tolower c ≤ 'z'.toUInt8

def isdigit (c : UInt8) : Bool := '0'.toUInt8 ≤ c && c ≤ '9'.toUInt8

def isalnum (c : UInt8) : Bool := isalpha c || isdigit c

/-! ## Input and output -/

/-- A ring of characters, and the memory that it stands in. -/
structure CharRing where
  cb : circular_buffer
  mem : Mem

def CharRing.enqueue (r : CharRing) (c : UInt8) : CharRing :=
  let (cb, mem) := circular_buffer_enqueue r.cb r.mem (some [c])
  ⟨cb, mem⟩

/-- The character that `circular_buffer_dequeue` stores, 0 when there is none. -/
def CharRing.dequeue (r : CharRing) : UInt8 × CharRing :=
  let (cb, element) := circular_buffer_dequeue r.cb r.mem
  ((element.getD []).headD 0, ⟨cb, r.mem⟩)

/-- The terminal, with the screen of its video device. -/
structure tty_t where
  input : CharRing
  output : CharRing
  video : Vga

/-- Only the ring of the input is touched. -/
def tty_getchar (input : CharRing) : UInt8 × CharRing :=
  if circular_buffer_empty input.cb then (0xFF, input) else input.dequeue

def tty_render (turns : Nat) (t : tty_t) (c : UInt8) : Option tty_t :=
  (vga_write turns t.video c).map fun video => { t with video := video }

/-- Each turn of the loop takes one character out of the ring, which holds `n`. -/
def tty_flush_loop (turns : Nat) : Nat → tty_t → Option tty_t
  | 0, t => some t
  | n + 1, t =>
    if circular_buffer_empty t.output.cb then some t
    else
      let (ch, output) := t.output.dequeue
      (tty_render turns { t with output := output } ch).bind (tty_flush_loop turns n)

def tty_flush (turns : Nat) (t : tty_t) : Option tty_t := tty_flush_loop turns t.output.cb.size t

def tty_putchar (turns : Nat) (t : tty_t) (c : UInt8) : Option tty_t :=
  tty_flush turns { t with output := t.output.enqueue c }

/-! ## The line editor -/

/-- A store to the buffer: where, and how much room the buffer has at that time. -/
structure LineStore where
  address : Nat
  buf : Nat
  buf_size : Nat
  room : Nat

/-- The variables of `tty_gets`, the heap, and the stores to the buffer so far. -/
structure LineEditor where
  buf : Nat
  buf_size : Nat
  buf_idx : Nat
  kheap : Kheap
  stores : List LineStore

namespace LineEditor

/-- `buf[buf_idx] = c` -/
def store (s : LineEditor) (c : UInt8) : LineEditor :=
  let address := add32 s.buf s.buf_idx
  { s with
    kheap := { s.kheap with mem := store8 s.kheap.mem address c }
    stores := ⟨address, s.buf, s.buf_size, payload_size s.kheap s.buf⟩ :: s.stores }

@[simp] theorem store_buf (s : LineEditor) (c : UInt8) : (s.store c).buf = s.buf := rfl

/-- The result of `krealloc` is not tested: the store behind it goes to `NULL`. -/
def grow (s : LineEditor) : Outcome LineEditor Unit :=
  let buf_size := mul32 s.buf_size 2
  ((krealloc s.kheap s.buf buf_size).lift fun k => { s with kheap := k }).andThen fun buf s =>
    let s := { s with buf := buf, buf_size := buf_size }
    if buf = NULL then .fault s else .done () s

end LineEditor

/-- The body of the loop for a character that does not end the line, up to the call of
`tty_putchar`. Returns the character of that call, if the branch has one. -/
def tty_gets_edit (s : LineEditor) (c : UInt8) : Outcome LineEditor (Option UInt8) :=
  if c = ASCII_CTRL_BS ∧ s.buf_idx > 0 then
    let s := { s with buf_idx := sub32 s.buf_idx 1 }
    .done (some c) (s.store 0)
  else if isalnum c ∨ c = ASCII_SPACE then
    (if s.buf_idx = sub32 s.buf_size 1 then s.grow else .done () s).andThen fun _ s =>
      let s := s.store c
      .done (some c) { s with buf_idx := add32 s.buf_idx 1 }
  else .done none s

/-- The loop of `tty_gets`. Before each call of `tty_getchar` some keys arrive in the ring. When
the list of arrivals ends, the loop polls on, and it also hangs in an echo that never ends. -/
def tty_gets_loop (turns : Nat) :
    List (List UInt8) → LineEditor → tty_t → Outcome (LineEditor × tty_t) Nat
  | [], s, t => .hang (s, t)
  | keys :: rest, s, t =>
    let (c, input) := tty_getchar (keys.foldl CharRing.enqueue t.input)
    let t := { t with input := input }
    if c = 0xFF ∨ c = 0 then tty_gets_loop turns rest s t
    else if c = ASCII_CTRL_CR then
      match tty_putchar turns t '\n'.toUInt8 with
      | none => .hang (s, t)
      | some t => .done s.buf (s.store 0, t)
    else
      ((tty_gets_edit s c).lift fun s => (s, t)).andThen fun echo (s, t) =>
        match echo with
        | none => tty_gets_loop turns rest s t
        | some c =>
          match tty_putchar turns t c with
          | none => .hang (s, t)
          | some t => tty_gets_loop turns rest s t

def tty_gets (turns : Nat) (k : Kheap) (t : tty_t) (arrivals : List (List UInt8)) :
    Outcome (LineEditor × tty_t) Nat :=
  ((kmalloc k 2).lift fun k => ((⟨NULL, 2, 0, k, []⟩ : LineEditor), t)).andThen fun buf (s, t) =>
    if buf = NULL then .kpanic KPANIC_OUT_OF_MEMORY "Memory allocation failed." (s, t)
    else tty_gets_loop turns arrivals { s with buf := buf } t

/-! ## What the calls see -/

/-- The characters that the calls of `tty_getchar` return, one after another. -/
def delivered (input : CharRing) : List (List UInt8) → List UInt8
  | [] => []
  | keys :: rest =>
    let (c, input) := tty_getchar (keys.foldl CharRing.enqueue input)
    c :: delivered input rest

/-- What is left of the loop when nothing is echoed. -/
def tty_gets_edits : List UInt8 → LineEditor → Outcome LineEditor Unit
  | [], s => .done () s
  | c :: cs, s => (tty_gets_edit s c).andThen fun _ s => tty_gets_edits cs s

/-- The output ring holds single characters, and none between two calls. -/
structure OutputReady (r : CharRing) : Prop where
  ring : RingAt r.cb r.mem
  element_size : r.cb.element_size = 1
  empty : r.cb.size = 0

theorem OutputReady.enqueue {r : CharRing} (h : OutputReady r) (c : UInt8) :
    RingAt (r.enqueue c).cb (r.enqueue c).mem ∧ (r.enqueue c).cb.element_size = 1 ∧
      elements (r.enqueue c).cb (r.enqueue c).mem = [[c]] := by
  have hlen : [c].length = r.cb.element_size := h.element_size.symm
  have hroom : r.cb.size ≠ r.cb.capacity := by
    have hhead : r.cb.head < r.cb.capacity := h.ring.good.head
    rw [h.empty]
    omega
  have hnone : elements r.cb r.mem = [] := by
    apply List.eq_nil_of_length_eq_zero
    rw [length_elements]
    exact h.empty
  have helements := elements_enqueue h.ring hlen
  rw [if_neg hroom, hnone, List.nil_append] at helements
  refine ⟨enqueue_ringAt h.ring hlen, ?_, helements⟩
  exact (enqueue_same r.cb r.mem (some [c])).element_size.trans h.element_size

/-- A ring with one character gives it, and is empty then. -/
theorem dequeue_single {r : CharRing} (h : RingAt r.cb r.mem) (hone : r.cb.element_size = 1)
    {c : UInt8} (hsingle : elements r.cb r.mem = [[c]]) :
    r.cb.size = 1 ∧ r.dequeue.1 = c ∧ OutputReady r.dequeue.2 := by
  have hsize : r.cb.size = 1 := by
    rw [← length_elements r.cb r.mem, hsingle]
    rfl
  obtain ⟨cb', hdequeue, hsame, hring⟩ := dequeue_ring h.fits h.good (by omega)
  have hfirst : loadList r.mem (slotAddr r.cb r.cb.head) r.cb.element_size = [c] := by
    have hcontents := hsingle
    unfold elements SlotRing.contents at hcontents
    rw [show (ringOf r.cb r.mem).size = 1 from hsize] at hcontents
    simp only [List.range_one, List.map_cons, List.map_nil, List.cons.injEq, and_true] at hcontents
    have hhead : slot r.cb.capacity r.cb.head 0 = r.cb.head := slot_zero h.good.head
    rw [← hcontents]
    unfold ringOf
    simp only [hhead]
  have hrest := elements_dequeue h
  rw [hdequeue, hsingle] at hrest
  refine ⟨hsize, ?_, ?_, ?_, ?_⟩
  · simp only [CharRing.dequeue, hdequeue, hfirst]
    rfl
  · have hready := dequeue_ringAt h
    simp only [CharRing.dequeue, hdequeue] at hready ⊢
    exact hready
  · simp only [CharRing.dequeue, hdequeue]
    exact hsame.element_size.trans hone
  · have hempty : (elements cb' r.mem).length = 0 := by
      rw [hrest]
      rfl
    rw [length_elements] at hempty
    simp only [CharRing.dequeue, hdequeue]
    exact hempty

/-- The echo of a character is what the screen makes of it. -/
theorem tty_putchar_eq {t : tty_t} (h : OutputReady t.output) (c : UInt8) :
    ∃ output, OutputReady output ∧ ∀ turns, tty_putchar turns t c =
      (vga_putchar turns t.video c).map fun video => ⟨t.input, output, video⟩ := by
  obtain ⟨hring, hone, hsingle⟩ := h.enqueue c
  obtain ⟨hsize, hchar, hready⟩ := dequeue_single hring hone hsingle
  refine ⟨_, hready, fun turns => ?_⟩
  have hfull : circular_buffer_empty (t.output.enqueue c).cb = false := by
    simp [circular_buffer_empty, hsize]
  simp only [tty_putchar, tty_flush, hsize, tty_flush_loop, hfull, hchar, tty_render, vga_write,
    Bool.false_eq_true, if_false]
  cases vga_putchar turns t.video c <;> rfl

end sakana_os
