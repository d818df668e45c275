-- The ring buffer of `circular_buffer.c`, with its elements in the byte memory. Each
-- of its functions is a step of the ring of slots that the memory shows.
import SakanaOS.ByteMemory
import SakanaOS.Machine
import SakanaOS.Rings

open byte_memory rings

namespace sakana_os

/-! ## The code -/

structure circular_buffer where
  buffer : Nat
  head : Nat
  tail : Nat
  capacity : Nat
  element_size : Nat
  size : Nat

/-- `sizeof(circular_buffer_t)`: six words of 4 bytes. -/
def SIZEOF_CIRCULAR_BUFFER : Nat := 24

variable {S : Type}

/-- Sets the fields of a buffer whose slots the allocator provides. `none` when it
returns `NULL`. `put` gives the state with another memory. -/
def circular_buffer_init (mem : S → Mem) (put : S → Mem → S) (capacity element_size : Nat)
    (allocator : S → Nat → Outcome S Nat) (s : S) : Outcome S (Option circular_buffer) :=
  (allocator s (mul32 capacity element_size)).andThen fun buffer s =>
    if buffer = NULL then .done none s
    else
      .done (some ⟨buffer, 0, 0, capacity, element_size, 0⟩)
        (put s (fill (mem s) buffer 0 (mul32 capacity element_size)))

/-- The fields stand beside the memory: the first call of the allocator is for the
place of the record alone. -/
def circular_buffer_create (mem : S → Mem) (put : S → Mem → S) (capacity element_size : Nat)
    (allocator : S → Nat → Outcome S Nat) (s : S) : Outcome S (Option circular_buffer) :=
  (allocator s SIZEOF_CIRCULAR_BUFFER).andThen fun _ s =>
    circular_buffer_init mem put capacity element_size allocator s

def circular_buffer_full (cb : circular_buffer) : Bool := cb.size == cb.capacity

def circular_buffer_empty (cb : circular_buffer) : Bool := cb.size == 0

/-- `element` is the bytes that the pointer leads to, `none` for `NULL`. -/
def circular_buffer_enqueue (cb : circular_buffer) (m : Mem) (element : Option (List UInt8)) :
    circular_buffer × Mem :=
  if circular_buffer_full cb then (cb, m)
  else
    let offset := mul32 cb.tail cb.element_size
    let bufstart := add32 cb.buffer offset
    let m := match element with
      | some bytes => storeList m bufstart bytes
      | none => m
    ({ cb with size := add32 cb.size 1, tail := add32 1 cb.tail % cb.capacity }, m)

/-- Returns the bytes that go to the target, when there are any. -/
def circular_buffer_dequeue (cb : circular_buffer) (m : Mem) :
    circular_buffer × Option (List UInt8) :=
  if circular_buffer_empty cb then (cb, none)
  else
    let offset := mul32 cb.head cb.element_size
    let bufstart := add32 cb.buffer offset
    let element := loadList m bufstart cb.element_size
    ({ cb with size := sub32 cb.size 1, head := add32 cb.head 1 % cb.capacity }, some element)

def circular_buffer_get (cb : circular_buffer) (index : Nat) : Nat :=
  let offset_idx := add32 index cb.head % cb.capacity
  let offset := mul32 offset_idx cb.element_size
  add32 cb.buffer offset

/-- The turns of the loop: the element of the turn is the one that the turn before
has fetched. -/
def circular_buffer_foreach_loop (cb : circular_buffer) (i element : Nat) : Nat → List Nat
  | 0 => []
  | turns + 1 =>
    element :: circular_buffer_foreach_loop cb (i + 1) (circular_buffer_get cb (i + 1)) turns

/-- The elements that the body of `circular_buffer_foreach` sees, in order. -/
def circular_buffer_foreach (cb : circular_buffer) : List Nat :=
  circular_buffer_foreach_loop cb 0 (circular_buffer_get cb 0) cb.size

/-! ## The ring that the memory shows -/

/-- The address of a slot. -/
def slotAddr (cb : circular_buffer) (i : Nat) : Nat := cb.buffer + i * cb.element_size

def ringOf (cb : circular_buffer) (m : Mem) : SlotRing (List UInt8) where
  slots := fun i => loadList m (slotAddr cb i) cb.element_size
  head := cb.head
  tail := cb.tail
  size := cb.size

/-- The slots of the buffer lie in the address space. -/
structure Roomed (cb : circular_buffer) : Prop where
  element_size : 0 < cb.element_size
  capacity : cb.capacity < 4294967296
  buffer : cb.buffer + cb.capacity * cb.element_size ≤ 4294967296

/-- A buffer between two calls. -/
structure RingAt (cb : circular_buffer) (m : Mem) : Prop where
  roomed : Roomed cb
  good : (ringOf cb m).Good cb.capacity

/-- The elements of a buffer, the oldest first. -/
def elements (cb : circular_buffer) (m : Mem) : List (List UInt8) :=
  (ringOf cb m).contents cb.capacity

/-- The slots of the buffer lie in the address space, also when they have no bytes. -/
structure SlotsFit (cb : circular_buffer) : Prop where
  capacity : cb.capacity < 4294967296
  start : cb.buffer < 4294967296
  stop : cb.buffer + cb.capacity * cb.element_size ≤ 4294967296

theorem Roomed.fits {cb : circular_buffer} (h : Roomed cb) (hcap : 0 < cb.capacity) :
    SlotsFit cb := by
  have hpos := Nat.mul_pos hcap h.element_size
  have hroom := h.buffer
  exact ⟨h.capacity, by omega, hroom⟩

theorem slot_address {cb : circular_buffer} (h : SlotsFit cb) {i : Nat} (hi : i < cb.capacity) :
    add32 cb.buffer (mul32 i cb.element_size) = slotAddr cb i := by
  have hmul : (i + 1) * cb.element_size ≤ cb.capacity * cb.element_size :=
    Nat.mul_le_mul_right _ hi
  have hstart := h.start
  have hstop := h.stop
  rw [Nat.add_mul, Nat.one_mul] at hmul
  rcases Nat.eq_zero_or_pos cb.element_size with hzero | hpos
  · have hnone : i * cb.element_size = 0 := by rw [hzero, Nat.mul_zero]
    rw [mul32_eq (by omega), add32_eq (by omega)]
    rfl
  · rw [mul32_eq (by omega), add32_eq (by omega)]
    rfl

/-- Two slots do not overlap. -/
theorem slots_apart (cb : circular_buffer) {i j : Nat} (hij : i ≠ j) :
    slotAddr cb i + cb.element_size ≤ slotAddr cb j ∨
      slotAddr cb j + cb.element_size ≤ slotAddr cb i := by
  unfold slotAddr
  rcases Nat.lt_or_gt_of_ne hij with h | h
  · have hmul := Nat.mul_le_mul_right cb.element_size (Nat.succ_le_of_lt h)
    rw [Nat.succ_mul] at hmul
    exact Or.inl (by omega)
  · have hmul := Nat.mul_le_mul_right cb.element_size (Nat.succ_le_of_lt h)
    rw [Nat.succ_mul] at hmul
    exact Or.inr (by omega)

/-! ## The functions as steps of the ring -/

/-- The buffer kept its slots. -/
structure SameBuffer (cb cb' : circular_buffer) : Prop where
  buffer : cb'.buffer = cb.buffer
  capacity : cb'.capacity = cb.capacity
  element_size : cb'.element_size = cb.element_size

theorem SameBuffer.roomed {cb cb' : circular_buffer} (h : SameBuffer cb cb') (hr : Roomed cb) :
    Roomed cb' := by
  obtain ⟨h1, h2, h3⟩ := hr
  refine ⟨?_, ?_, ?_⟩
  · rw [h.element_size]
    exact h1
  · rw [h.capacity]
    exact h2
  · rw [h.buffer, h.capacity, h.element_size]
    exact h3

theorem enqueue_same (cb : circular_buffer) (m : Mem) (element : Option (List UInt8)) :
    SameBuffer cb (circular_buffer_enqueue cb m element).1 := by
  unfold circular_buffer_enqueue
  split
  · exact ⟨rfl, rfl, rfl⟩
  · exact ⟨rfl, rfl, rfl⟩

theorem enqueue_head (cb : circular_buffer) (m : Mem) (element : Option (List UInt8)) :
    (circular_buffer_enqueue cb m element).1.head = cb.head := by
  unfold circular_buffer_enqueue
  split
  · rfl
  · rfl

theorem SameBuffer.slotAddr {cb cb' : circular_buffer} (h : SameBuffer cb cb') (i : Nat) :
    slotAddr cb' i = sakana_os.slotAddr cb i := by
  unfold sakana_os.slotAddr
  rw [h.buffer, h.element_size]

theorem full_iff (cb : circular_buffer) : circular_buffer_full cb = true ↔ cb.size = cb.capacity :=
  beq_iff_eq

theorem empty_iff (cb : circular_buffer) : circular_buffer_empty cb = true ↔ cb.size = 0 :=
  beq_iff_eq

theorem enqueue_full {cb : circular_buffer} (h : cb.size = cb.capacity) (m : Mem)
    (element : Option (List UInt8)) : circular_buffer_enqueue cb m element = (cb, m) :=
  if_pos ((full_iff cb).mpr h)

/-- The slots after the bytes of one slot were stored. -/
theorem slots_store {cb : circular_buffer} {i : Nat} (m : Mem) {bytes : List UInt8}
    (hlen : bytes.length = cb.element_size) (j : Nat) :
    loadList (storeList m (slotAddr cb i) bytes) (slotAddr cb j) cb.element_size =
      Function.update (fun j => loadList m (slotAddr cb j) cb.element_size) i bytes j := by
  by_cases hij : j = i
  · subst hij
    rw [Function.update_self, ← hlen]
    exact loadList_storeList m (slotAddr cb j) bytes
  · rw [Function.update_of_ne hij]
    apply loadList_congr
    intro x hx hx'
    apply storeList_frame
    rcases slots_apart cb hij with h | h
    · exact Or.inl (by omega)
    · exact Or.inr (by omega)

/-- An enqueue is a push, also while a dequeue is between two of its statements. -/
theorem enqueue_ring {cb : circular_buffer} {m : Mem} {bytes : List UInt8} (h : SlotsFit cb)
    (htail : cb.tail < cb.capacity) (hsize : cb.size ≤ cb.capacity)
    (hlen : bytes.length = cb.element_size) :
    ringOf (circular_buffer_enqueue cb m (some bytes)).1
      (circular_buffer_enqueue cb m (some bytes)).2 = (ringOf cb m).push cb.capacity bytes := by
  by_cases hfull : cb.size = cb.capacity
  · rw [enqueue_full hfull, push_full (r := ringOf cb m) hfull]
  · have hcap := h.capacity
    have hroom : ¬ circular_buffer_full cb = true := fun hf => hfull ((full_iff cb).mp hf)
    rw [push_room (r := ringOf cb m) hfull]
    unfold circular_buffer_enqueue
    rw [if_neg hroom]
    simp only [slot_address h htail, add32_eq (show cb.size + 1 < 4294967296 by omega),
      add32_eq (show 1 + cb.tail < 4294967296 by omega)]
    unfold ringOf slot
    simp only [Nat.add_comm 1 cb.tail]
    congr 1
    funext j
    exact slots_store m hlen j

theorem RingAt.tail_lt {cb : circular_buffer} {m : Mem} (h : RingAt cb m) :
    cb.tail < cb.capacity := h.good.tail_lt

theorem RingAt.fits {cb : circular_buffer} {m : Mem} (h : RingAt cb m) : SlotsFit cb :=
  h.roomed.fits (Nat.zero_lt_of_lt h.tail_lt)

theorem enqueue_ringAt {cb : circular_buffer} {m : Mem} {bytes : List UInt8} (h : RingAt cb m)
    (hlen : bytes.length = cb.element_size) :
    RingAt (circular_buffer_enqueue cb m (some bytes)).1
      (circular_buffer_enqueue cb m (some bytes)).2 := by
  have hsame := enqueue_same cb m (some bytes)
  refine ⟨hsame.roomed h.roomed, ?_⟩
  rw [enqueue_ring h.fits h.tail_lt h.good.size hlen, hsame.capacity]
  exact h.good.push bytes

/-- An enqueue appends the element, unless the buffer is full. -/
theorem elements_push {cb : circular_buffer} {m : Mem} {bytes : List UInt8} (h : SlotsFit cb)
    (hgood : (ringOf cb m).Good cb.capacity) (hlen : bytes.length = cb.element_size) :
    elements (circular_buffer_enqueue cb m (some bytes)).1
      (circular_buffer_enqueue cb m (some bytes)).2 =
        if cb.size = cb.capacity then elements cb m else elements cb m ++ [bytes] := by
  by_cases hfull : cb.size = cb.capacity
  · rw [if_pos hfull, enqueue_full hfull]
  · unfold elements
    rw [if_neg hfull, enqueue_ring h hgood.tail_lt hgood.size hlen,
      (enqueue_same cb m (some bytes)).capacity]
    exact contents_push hgood hfull bytes

theorem elements_enqueue {cb : circular_buffer} {m : Mem} {bytes : List UInt8} (h : RingAt cb m)
    (hlen : bytes.length = cb.element_size) :
    elements (circular_buffer_enqueue cb m (some bytes)).1
      (circular_buffer_enqueue cb m (some bytes)).2 =
        if cb.size = cb.capacity then elements cb m else elements cb m ++ [bytes] :=
  elements_push h.fits h.good hlen

@[simp] theorem length_elements (cb : circular_buffer) (m : Mem) :
    (elements cb m).length = cb.size := length_contents _

/-- A dequeue takes the oldest element, and moves no byte of the slots. -/
theorem dequeue_ring {cb : circular_buffer} {m : Mem} (h : SlotsFit cb)
    (hgood : (ringOf cb m).Good cb.capacity) (hsize : cb.size ≠ 0) :
    ∃ cb', circular_buffer_dequeue cb m =
        (cb', some (loadList m (slotAddr cb cb.head) cb.element_size)) ∧ SameBuffer cb cb' ∧
      ringOf cb' m = (ringOf cb m).shrink.advance cb.capacity := by
  have hcap := h.capacity
  have hhead : cb.head < cb.capacity := hgood.head
  have hle : cb.size ≤ cb.capacity := hgood.size
  have hroom : ¬ circular_buffer_empty cb = true := fun he => hsize ((empty_iff cb).mp he)
  refine ⟨{ cb with size := sub32 cb.size 1, head := add32 cb.head 1 % cb.capacity }, ?_,
    ⟨rfl, rfl, rfl⟩, ?_⟩
  · unfold circular_buffer_dequeue
    rw [if_neg hroom]
    simp only [slot_address h hhead]
  · rw [sub32_eq (by omega) (by omega), add32_eq (by omega)]
    rfl

theorem dequeue_ringAt {cb : circular_buffer} {m : Mem} (h : RingAt cb m) :
    RingAt (circular_buffer_dequeue cb m).1 m := by
  by_cases hsize : cb.size = 0
  · unfold circular_buffer_dequeue
    rw [if_pos ((empty_iff cb).mpr hsize)]
    exact h
  · obtain ⟨cb', heq, hsame, hring⟩ := dequeue_ring h.fits h.good hsize
    rw [heq]
    refine ⟨hsame.roomed h.roomed, ?_⟩
    rw [hring, hsame.capacity]
    exact h.good.pop hsize

theorem dequeue_same (cb : circular_buffer) (m : Mem) :
    SameBuffer cb (circular_buffer_dequeue cb m).1 := by
  unfold circular_buffer_dequeue
  split
  · exact ⟨rfl, rfl, rfl⟩
  · exact ⟨rfl, rfl, rfl⟩

theorem elements_dequeue {cb : circular_buffer} {m : Mem} (h : RingAt cb m) :
    elements (circular_buffer_dequeue cb m).1 m = (elements cb m).tail := by
  by_cases hsize : cb.size = 0
  · unfold circular_buffer_dequeue
    rw [if_pos ((empty_iff cb).mpr hsize), List.eq_nil_of_length_eq_zero
      (l := elements cb m) (by rw [length_elements, hsize])]
    rfl
  · obtain ⟨cb', heq, hsame, hring⟩ := dequeue_ring h.fits h.good hsize
    unfold elements
    rw [heq, hring, hsame.capacity, contents_pop h.good hsize]
    rfl

/-- A `get` of an element of the buffer is the address of its slot. -/
theorem get_address {cb : circular_buffer} (h : SlotsFit cb) (hhead : cb.head < cb.capacity)
    {i : Nat} (hi : cb.head + i < 4294967296) :
    circular_buffer_get cb i = slotAddr cb (slot cb.capacity cb.head i) := by
  unfold circular_buffer_get
  rw [add32_eq (show i + cb.head < 4294967296 by omega), Nat.add_comm i cb.head]
  exact slot_address h (slot_lt (Nat.zero_lt_of_lt hhead))

theorem foreach_loop_eq {cb : circular_buffer} {m : Mem} (h : RingAt cb m)
    (hcap : 2 * cb.capacity ≤ 4294967296) (turns i : Nat) (hi : i + turns = cb.size) :
    circular_buffer_foreach_loop cb i (circular_buffer_get cb i) turns =
      (List.range' i turns).map fun j => slotAddr cb (slot cb.capacity cb.head j) := by
  induction turns generalizing i with
  | zero => rfl
  | succ turns ih =>
    have hhead : cb.head < cb.capacity := h.good.head
    have hle : cb.size ≤ cb.capacity := h.good.size
    rw [circular_buffer_foreach_loop, ih (i + 1) (by omega), get_address h.fits hhead (by omega)]
    rfl

/-- The loop over the buffer sees its elements, in order. -/
theorem foreach_elements {cb : circular_buffer} {m : Mem} (h : RingAt cb m)
    (hcap : 2 * cb.capacity ≤ 4294967296) :
    (circular_buffer_foreach cb).map (fun element => loadList m element cb.element_size) =
      elements cb m := by
  unfold circular_buffer_foreach
  rw [foreach_loop_eq h hcap cb.size 0 (Nat.zero_add _), ← List.range_eq_range', List.map_map]
  rfl

/-! ## A fresh buffer -/

theorem fresh_ringAt {buffer capacity element_size : Nat} (hes : 0 < element_size)
    (hcap : 0 < capacity) (hroom : buffer + capacity * element_size ≤ 4294967296)
    (hlt : capacity < 4294967296) (m : Mem) :
    RingAt ⟨buffer, 0, 0, capacity, element_size, 0⟩ m := by
  refine ⟨⟨hes, hlt, hroom⟩, ⟨hcap, ?_, Nat.zero_le _⟩⟩
  exact (Nat.zero_mod capacity).symm

/-- A buffer whose two requests for memory are met. -/
theorem create_done {mem : S → Mem} {put : S → Mem → S} {capacity element_size cb buffer : Nat}
    {allocator : S → Nat → Outcome S Nat} {s t u : S}
    (hrecord : allocator s SIZEOF_CIRCULAR_BUFFER = .done cb t)
    (hbuffer : allocator t (mul32 capacity element_size) = .done buffer u) (hne : buffer ≠ NULL) :
    circular_buffer_create mem put capacity element_size allocator s =
      .done (some ⟨buffer, 0, 0, capacity, element_size, 0⟩)
        (put u (fill (mem u) buffer 0 (mul32 capacity element_size))) := by
  unfold circular_buffer_create circular_buffer_init
  rw [hrecord, Outcome.done_andThen, hbuffer, Outcome.done_andThen, if_neg hne]

/-- What a successful start of a buffer has set. -/
theorem init_some {mem : S → Mem} {put : S → Mem → S} {capacity element_size : Nat}
    {allocator : S → Nat → Outcome S Nat} {s t : S} {cb : circular_buffer}
    (h : circular_buffer_init mem put capacity element_size allocator s = .done (some cb) t) :
    cb.buffer ≠ NULL ∧ cb = ⟨cb.buffer, 0, 0, capacity, element_size, 0⟩ := by
  obtain ⟨buffer, u, -, h⟩ := Outcome.andThen_eq_done.mp h
  by_cases hnull : buffer = NULL
  · rw [if_pos hnull] at h
    cases h
  · rw [if_neg hnull] at h
    cases h
    exact ⟨hnull, rfl⟩

end sakana_os
