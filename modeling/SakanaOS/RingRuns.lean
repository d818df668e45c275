-- Runs of `circular_buffer_enqueue` and `circular_buffer_dequeue`: the buffer is a queue of at
-- most `capacity` elements. Only `circular_buffer_get` leaves the queue, where the sum of the
-- index and the head does not fit into 32 bits.
import Mathlib.Data.List.Induction
import SakanaOS.CircularBuffer
import SakanaOS.Runs

open byte_memory rings runs

namespace sakana_os

/-! ## Runs -/

/-- `circular_buffer_dequeue` with the target, to which nothing goes when it is `NULL`. -/
def circular_buffer_dequeue_into (cb : circular_buffer) (m : Mem) (element : Nat) :
    circular_buffer × Mem :=
  match circular_buffer_dequeue cb m with
  | (cb, some bytes) => (cb, if element = NULL then m else storeList m element bytes)
  | (cb, none) => (cb, m)

/-- The element that `element` leads to does not lie in the slots. -/
def BesideSlots (cb : circular_buffer) (element : Nat) : Prop :=
  element + cb.element_size ≤ cb.buffer ∨ cb.buffer + cb.capacity * cb.element_size ≤ element

instance decidableBesideSlots (cb : circular_buffer) (element : Nat) :
    Decidable (BesideSlots cb element) :=
  inferInstanceAs (Decidable (_ ∨ _))

inductive RingCall where
  | enqueue (bytes : List UInt8)
  | dequeue (element : Nat)

/-- The buffer in its memory, and the queue that the same calls leave. -/
structure RingRun where
  cb : circular_buffer
  mem : Mem
  queue : List (List UInt8)

/-- An element of the size that the buffer is made for, or a target that is `NULL` or not in the
buffer. -/
def RingRun.Legal (s : RingRun) : RingCall → Prop
  | .enqueue bytes => bytes.length = s.cb.element_size
  | .dequeue element => element = NULL ∨ BesideSlots s.cb element

instance decidableRingLegal (s : RingRun) (call : RingCall) : Decidable (s.Legal call) :=
  match call with
  | .enqueue _ => inferInstanceAs (Decidable (_ = _))
  | .dequeue _ => inferInstanceAs (Decidable (_ ∨ _))

/-- The buffer after a call, and the queue of at most `capacity` elements. -/
def ring_call (s : RingRun) : RingCall → RingRun
  | .enqueue bytes =>
    let r := circular_buffer_enqueue s.cb s.mem (some bytes)
    { cb := r.1, mem := r.2
      queue := if s.queue.length = s.cb.capacity then s.queue else s.queue ++ [bytes] }
  | .dequeue element =>
    let r := circular_buffer_dequeue_into s.cb s.mem element
    { cb := r.1, mem := r.2, queue := s.queue.tail }

def ring_step (s : RingRun) (call : RingCall) : Option RingRun :=
  if s.Legal call then some (ring_call s call) else none

def ringStart (cb : circular_buffer) (m : Mem) : RingRun := ⟨cb, m, []⟩

/-- The buffer is the queue: what it reports and what the next call does is what the queue
says. -/
structure IsQueue (capacity element_size : Nat) (s : RingRun) : Prop where
  slots : s.cb.capacity = capacity
  bytes : s.cb.element_size = element_size
  bound : s.queue.length ≤ capacity
  size : s.cb.size = s.queue.length
  head : s.cb.head < capacity
  tail : s.cb.tail < capacity
  place : s.cb.tail = (s.cb.head + s.cb.size) % capacity
  full : s.queue.length = capacity →
    ∀ element, circular_buffer_enqueue s.cb s.mem element = (s.cb, s.mem)
  empty : s.queue = [] →
    ∀ element, circular_buffer_dequeue_into s.cb s.mem element = (s.cb, s.mem)
  oldest : ∀ bytes rest, s.queue = bytes :: rest → ∀ element, element ≠ NULL →
    loadList (circular_buffer_dequeue_into s.cb s.mem element).2 element element_size = bytes
  get : ∀ i (hi : i < s.queue.length),
    loadList s.mem (circular_buffer_get s.cb i) element_size = s.queue[i]

/-! ## What a step keeps -/

/-- The slots in the address space hold the queue. -/
structure Queued (s : RingRun) : Prop where
  fits : SlotsFit s.cb
  good : (ringOf s.cb s.mem).Good s.cb.capacity
  queue : s.queue = elements s.cb s.mem

theorem SameBuffer.fits {cb cb' : circular_buffer} (h : SameBuffer cb cb') (hfits : SlotsFit cb) :
    SlotsFit cb' := by
  obtain ⟨h1, h2, h3⟩ := hfits
  refine ⟨?_, ?_, ?_⟩
  · rw [h.capacity]
    exact h1
  · rw [h.buffer]
    exact h2
  · rw [h.buffer, h.capacity, h.element_size]
    exact h3

theorem SameBuffer.trans {cb cb' cb'' : circular_buffer} (h : SameBuffer cb cb')
    (h' : SameBuffer cb' cb'') : SameBuffer cb cb'' :=
  ⟨h'.buffer.trans h.buffer, h'.capacity.trans h.capacity, h'.element_size.trans h.element_size⟩

section

variable {s u : RingRun}

theorem Queued.length (h : Queued s) : s.queue.length = s.cb.size := by
  rw [h.queue, length_elements]

theorem Queued.positive (h : Queued s) : 0 < s.cb.capacity := Nat.zero_lt_of_lt h.good.head

/-- The elements stay where the bytes of the slots do. -/
theorem elements_congr {cb : circular_buffer} {m m' : Mem} (hcap : 0 < cb.capacity)
    (h : ∀ x, cb.buffer ≤ x → x < cb.buffer + cb.capacity * cb.element_size → m' x = m x) :
    elements cb m' = elements cb m := by
  unfold elements SlotRing.contents
  apply List.map_congr_left
  intro i _
  apply loadList_congr
  intro x hx hx'
  have hslot := @slot_lt cb.capacity cb.head i hcap
  have hmul := Nat.mul_le_mul_right cb.element_size (Nat.succ_le_of_lt hslot)
  rw [Nat.succ_mul] at hmul
  unfold slotAddr at hx hx'
  simp only [ringOf] at hx hx'
  exact h x (by omega) (by omega)

theorem Queued.enqueue (h : Queued s) {bytes : List UInt8}
    (hlen : bytes.length = s.cb.element_size) :
    Queued (ring_call s (.enqueue bytes)) ∧ SameBuffer s.cb (ring_call s (.enqueue bytes)).cb := by
  have hsame := enqueue_same s.cb s.mem (some bytes)
  refine ⟨⟨hsame.fits h.fits, ?_, ?_⟩, hsame⟩
  · have hring := enqueue_ring (m := s.mem) h.fits h.good.tail_lt h.good.size hlen
    simp only [ring_call]
    rw [hring, hsame.capacity]
    exact h.good.push bytes
  · simp only [ring_call]
    rw [elements_push h.fits h.good hlen, h.length, h.queue]

/-- A dequeue of an empty buffer does nothing. -/
theorem dequeue_into_empty {cb : circular_buffer} (h : cb.size = 0) (m : Mem) (element : Nat) :
    circular_buffer_dequeue_into cb m element = (cb, m) := by
  have hnone : circular_buffer_dequeue cb m = (cb, none) := if_pos ((empty_iff cb).mpr h)
  unfold circular_buffer_dequeue_into
  rw [hnone]

/-- A dequeue moves the head, and writes the oldest element to a target that is not `NULL`. -/
theorem dequeue_into_ring {cb : circular_buffer} {m : Mem} (h : SlotsFit cb)
    (hgood : (ringOf cb m).Good cb.capacity) (hsize : cb.size ≠ 0) (element : Nat) :
    ∃ cb', circular_buffer_dequeue_into cb m element = (cb', if element = NULL then m
        else storeList m element (loadList m (slotAddr cb cb.head) cb.element_size)) ∧
      SameBuffer cb cb' ∧ ringOf cb' m = (ringOf cb m).shrink.advance cb.capacity := by
  obtain ⟨cb', hdequeue, hsame, hring⟩ := dequeue_ring h hgood hsize
  refine ⟨cb', ?_, hsame, hring⟩
  unfold circular_buffer_dequeue_into
  rw [hdequeue]

theorem Queued.dequeue (h : Queued s) {element : Nat}
    (hlegal : element = NULL ∨ BesideSlots s.cb element) :
    Queued (ring_call s (.dequeue element)) ∧
      SameBuffer s.cb (ring_call s (.dequeue element)).cb ∧
      (s.queue ≠ [] →
        (ring_call s (.dequeue element)).cb.head = slot s.cb.capacity s.cb.head 1) := by
  have hlength := h.length
  by_cases hsize : s.cb.size = 0
  · have hnil : s.queue = [] := List.eq_nil_of_length_eq_zero (hlength.trans hsize)
    have hcall : ring_call s (.dequeue element) = s := by
      simp only [ring_call, dequeue_into_empty hsize, hnil, List.tail_nil]
      rw [← hnil]
    rw [hcall]
    exact ⟨h, ⟨rfl, rfl, rfl⟩, fun hne => absurd hnil hne⟩
  · obtain ⟨cb', hdequeue, hsame, hring⟩ := dequeue_into_ring h.fits h.good hsize element
    have hhead : cb'.head = slot s.cb.capacity s.cb.head 1 := congrArg SlotRing.head hring
    have hgood : (ringOf cb' s.mem).Good cb'.capacity := by
      rw [hring, hsame.capacity]
      exact h.good.pop hsize
    simp only [ring_call, hdequeue]
    refine ⟨⟨hsame.fits h.fits, ⟨hgood.head, hgood.tail, hgood.size⟩, ?_⟩, hsame, fun _ => hhead⟩
    have hpop : s.queue.tail = elements cb' s.mem := by
      rw [h.queue]
      unfold elements
      rw [hring, hsame.capacity, contents_pop h.good hsize]
      rfl
    simp only [hpop]
    refine (elements_congr (hsame.capacity ▸ h.positive) fun x hx hx' => ?_).symm
    rcases hlegal with hnull | hbeside
    · rw [if_pos hnull]
    · by_cases hnull : element = NULL
      · rw [if_pos hnull]
      · rw [hsame.buffer] at hx hx'
        rw [hsame.capacity, hsame.element_size] at hx'
        rw [if_neg hnull]
        apply storeList_frame
        rw [length_loadList]
        rcases hbeside with hbelow | habove
        · exact Or.inr (by omega)
        · exact Or.inl (by omega)

theorem ring_step_queued (h : Queued s) {call : RingCall} (hstep : ring_step s call = some u) :
    Queued u ∧ SameBuffer s.cb u.cb := by
  by_cases hlegal : s.Legal call
  · rw [ring_step, if_pos hlegal] at hstep
    cases hstep
    cases call with
    | enqueue bytes => exact h.enqueue hlegal
    | dequeue element =>
      obtain ⟨hqueued, hsame, -⟩ := h.dequeue hlegal
      exact ⟨hqueued, hsame⟩
  · rw [ring_step, if_neg hlegal] at hstep
    cases hstep

/-- The queue that the slots hold is the one that the buffer reports, where the sums of the head
and an index of the queue fit. -/
theorem Queued.isQueue (h : Queued s)
    (hget : s.cb.element_size = 0 ∨ ∀ i < s.queue.length, s.cb.head + i < 4294967296) :
    IsQueue s.cb.capacity s.cb.element_size s := by
  have hlength := h.length
  have hsize : s.cb.size ≤ s.cb.capacity := h.good.size
  refine ⟨rfl, rfl, by omega, hlength.symm, h.good.head, h.good.tail_lt, h.good.tail, ?_, ?_, ?_,
    ?_⟩
  · intro hfull element
    exact enqueue_full (hlength.symm.trans hfull) s.mem element
  · intro hnil element
    rw [hnil] at hlength
    exact dequeue_into_empty hlength.symm s.mem element
  · intro bytes rest hqueue element hnull
    have hne : s.cb.size ≠ 0 := by
      rw [← hlength, hqueue]
      exact Nat.succ_ne_zero _
    obtain ⟨cb', hdequeue, -⟩ := dequeue_into_ring h.fits h.good hne element
    have hfirst : loadList s.mem (slotAddr s.cb s.cb.head) s.cb.element_size = bytes := by
      have hcontents := h.queue
      unfold elements at hcontents
      rw [contents_pop h.good hne, hqueue] at hcontents
      exact (List.cons.inj hcontents).1.symm
    rw [hdequeue, if_neg hnull, hfirst]
    have hlen : bytes.length = s.cb.element_size := by
      rw [← hfirst, length_loadList]
    rw [← hlen]
    exact loadList_storeList s.mem element bytes
  · intro i hi
    have hat : s.queue[i] =
        loadList s.mem (slotAddr s.cb (slot s.cb.capacity s.cb.head i)) s.cb.element_size := by
      simp only [h.queue, elements, SlotRing.contents, List.getElem_map, List.getElem_range, ringOf]
    rw [hat]
    rcases hget with hzero | hsum
    · rw [hzero]
      rfl
    · rw [get_address h.fits h.good.head (hsum i hi)]

/-! ## Every run -/

/-- What a run keeps: the slots hold the queue, and stay where they are. -/
theorem run_queued {cb : circular_buffer} {m : Mem} {calls : List RingCall}
    (h : Queued (ringStart cb m)) (hrun : run ring_step (ringStart cb m) calls = some u) :
    Queued u ∧ SameBuffer cb u.cb := by
  refine run_keeps (motive := fun s => Queued s ∧ SameBuffer cb s.cb) ?_ ⟨h, ⟨rfl, rfl, rfl⟩⟩ hrun
  rintro s call t ⟨hqueued, hsame⟩ hstep
  obtain ⟨hqueued', hsame'⟩ := ring_step_queued hqueued hstep
  exact ⟨hqueued', hsame.trans hsame'⟩

theorem start_queued {buffer capacity element_size : Nat} (hcap : 0 < capacity)
    (hlt : capacity < 4294967296) (hbuffer : buffer < 4294967296)
    (hroom : buffer + capacity * element_size ≤ 4294967296) (m : Mem) :
    Queued (ringStart ⟨buffer, 0, 0, capacity, element_size, 0⟩ m) :=
  ⟨⟨hlt, hbuffer, hroom⟩, ⟨hcap, (Nat.zero_mod capacity).symm, Nat.zero_le _⟩, rfl⟩

/-! ## A head near the end of a large buffer -/

/-- Some calls lead from one state to the other. -/
def LeadsTo (s u : RingRun) : Prop := ∃ calls, run ring_step s calls = some u

theorem LeadsTo.step {t : RingRun} (h : LeadsTo s t) {call : RingCall} (hlegal : t.Legal call) :
    LeadsTo s (ring_call t call) := by
  obtain ⟨calls, hrun⟩ := h
  refine ⟨calls ++ [call], run_append.mpr ⟨t, hrun, ?_⟩⟩
  rw [run, ring_step, if_pos hlegal]
  rfl

/-- An element that comes and goes leaves the head one slot further on. -/
theorem head_moves (h : Queued s) (hnil : s.queue = []) (hzero : s.cb.head = 0) (n : Nat)
    (hn : n < s.cb.capacity) :
    ∃ u, LeadsTo s u ∧ Queued u ∧ SameBuffer s.cb u.cb ∧ u.queue = [] ∧ u.cb.head = n := by
  induction n with
  | zero => exact ⟨s, ⟨[], rfl⟩, h, ⟨rfl, rfl, rfl⟩, hnil, hzero⟩
  | succ n ih =>
    obtain ⟨u, hleads, hqueued, hsame, hempty, hhead⟩ := ih (by omega)
    have hlegal : u.Legal (.enqueue (List.replicate u.cb.element_size 0)) :=
      List.length_replicate
    obtain ⟨hqueued₁, hsame₁⟩ := hqueued.enqueue hlegal
    have hroom : ¬ u.queue.length = u.cb.capacity := by
      have hpos := hqueued.positive
      rw [hempty, List.length_nil]
      omega
    have hqueue : (ring_call u (.enqueue (List.replicate u.cb.element_size 0))).queue =
        [List.replicate u.cb.element_size 0] := by
      simp only [ring_call]
      rw [if_neg hroom, hempty, List.nil_append]
    have hhead₁ : (ring_call u (.enqueue (List.replicate u.cb.element_size 0))).cb.head = n :=
      (enqueue_head u.cb u.mem _).trans hhead
    generalize hv : ring_call u (.enqueue (List.replicate u.cb.element_size 0)) = v at *
    have hlegal₂ : v.Legal (.dequeue NULL) := Or.inl rfl
    obtain ⟨hqueued₂, hsame₂, hmoved⟩ := hqueued₁.dequeue hlegal₂
    refine ⟨_, (hv ▸ hleads.step hlegal).step hlegal₂, hqueued₂,
      (hsame.trans hsame₁).trans hsame₂, ?_, ?_⟩
    · simp only [ring_call, hqueue, List.tail_cons]
    · rw [hmoved (by simp [hqueue]), hhead₁, (hsame.trans hsame₁).capacity]
      exact Nat.mod_eq_of_lt hn

/-- Elements come up to the capacity. -/
theorem queue_fills (h : Queued s) (l : List (List UInt8))
    (hlen : ∀ bytes ∈ l, bytes.length = s.cb.element_size)
    (hroom : s.queue.length + l.length ≤ s.cb.capacity) :
    ∃ u, LeadsTo s u ∧ Queued u ∧ SameBuffer s.cb u.cb ∧ u.queue = s.queue ++ l ∧
      u.cb.head = s.cb.head := by
  induction l using List.reverseRecOn with
  | nil => exact ⟨s, ⟨[], rfl⟩, h, ⟨rfl, rfl, rfl⟩, (List.append_nil _).symm, rfl⟩
  | append_singleton l bytes ih =>
    simp only [List.length_append, List.length_singleton] at hroom
    obtain ⟨u, hleads, hqueued, hsame, hqueue, hhead⟩ :=
      ih (fun b hb => hlen b (List.mem_append_left _ hb)) (by omega)
    have hbytes : bytes.length = u.cb.element_size := by
      rw [hsame.element_size]
      exact hlen bytes (by simp)
    have hlegal : u.Legal (.enqueue bytes) := hbytes
    obtain ⟨hqueued₁, hsame₁⟩ := hqueued.enqueue hbytes
    refine ⟨_, hleads.step hlegal, hqueued₁, hsame.trans hsame₁, ?_, ?_⟩
    · have hfree : ¬ u.queue.length = u.cb.capacity := by
        rw [hqueue, hsame.capacity, List.length_append]
        omega
      simp only [ring_call]
      rw [if_neg hfree, hqueue, List.append_assoc]
    · exact (enqueue_head u.cb u.mem _).trans hhead

/-- In a buffer of more than `2 ^ 31` elements of one byte the sum of the head and an index can
be `2 ^ 32`: the element in slot 0 is reported for it. -/
theorem a_large_buffer_reports_another_element (h : Queued s) (hnil : s.queue = [])
    (hzero : s.cb.head = 0) (hone : s.cb.element_size = 1) (hlarge : 2147483648 < s.cb.capacity) :
    ∃ u, LeadsTo s u ∧ ¬ IsQueue s.cb.capacity 1 u := by
  have hlt := h.fits.capacity
  obtain ⟨t, hleads, hqueued, hsame, hempty, hhead⟩ :=
    head_moves h hnil hzero (s.cb.capacity - 1) (by omega)
  -- the element at the sum, behind as many zeros
  obtain ⟨n, hn⟩ : ∃ n, n = 4294967297 - s.cb.capacity := ⟨_, rfl⟩
  obtain ⟨l, hl⟩ : ∃ l : List (List UInt8), l = List.replicate n [0] ++ [[1]] := ⟨_, rfl⟩
  have hlength : l.length = n + 1 := by simp [hl]
  have hbytes : ∀ bytes ∈ l, bytes.length = t.cb.element_size := by
    intro bytes hb
    rw [hsame.element_size, hone]
    rw [hl] at hb
    rcases List.mem_append.mp hb with hb | hb
    · rw [List.eq_of_mem_replicate hb]
      rfl
    · rw [List.mem_singleton.mp hb]
      rfl
  obtain ⟨u, hleads', hqueued', hsame', hqueue, hhead'⟩ := queue_fills hqueued l hbytes (by
    rw [hempty, hlength, hsame.capacity, List.length_nil]
    omega)
  rw [hempty, List.nil_append] at hqueue
  obtain ⟨calls, hrun⟩ := hleads
  obtain ⟨calls', hrun'⟩ := hleads'
  refine ⟨u, ⟨calls ++ calls', run_append.mpr ⟨t, hrun, hrun'⟩⟩, fun hall => ?_⟩
  have hbuffer := hsame.trans hsame'
  have hcapu : u.cb.capacity = s.cb.capacity := hbuffer.capacity
  have hheadu : u.cb.head = s.cb.capacity - 1 := hhead'.trans hhead
  have hwraps : add32 n u.cb.head % u.cb.capacity = 0 := by
    have hsum : add32 n u.cb.head = 0 := by
      rw [hheadu, add32]
      omega
    rw [hsum, Nat.zero_mod]
  have hturns : add32 1 u.cb.head % u.cb.capacity = 0 := by
    rw [hheadu, hcapu, add32_eq (by omega), Nat.add_sub_cancel' (by omega), Nat.mod_self]
  have hget : circular_buffer_get u.cb n = circular_buffer_get u.cb 1 := by
    unfold circular_buffer_get
    simp only [hwraps, hturns]
  have hfirst := hall.get 1 (by rw [hqueue, hlength]; omega)
  have hlast := hall.get n (by rw [hqueue, hlength]; omega)
  rw [hget, hfirst] at hlast
  simp only [hqueue, hl] at hlast
  rw [List.getElem_append_left (by simp; omega), List.getElem_replicate,
    List.getElem_append_right (by simp)] at hlast
  simp at hlast

end

/-- A buffer is a queue of at most `capacity` elements in every state that a run reaches exactly
when its capacity is at most `2 ^ 31`, or its elements have no bytes. -/
theorem the_buffer_is_a_queue_up_to_half_the_addresses {S : Type} {mem : S → Mem}
    {put : S → Mem → S} {capacity element_size : Nat} {allocator : S → Nat → Outcome S Nat}
    {s t : S} {cb : circular_buffer} (hcap : 1 ≤ capacity) (hlt : capacity < 4294967296)
    (hproduct : capacity * element_size < 4294967296)
    (hinit : circular_buffer_init mem put capacity element_size allocator s = .done (some cb) t)
    (hbuffer : cb.buffer < 4294967296)
    (hroom : cb.buffer + capacity * element_size ≤ 4294967296) :
    (∀ calls u, run ring_step (ringStart cb (mem t)) calls = some u →
      IsQueue capacity element_size u) ↔ capacity ≤ 2147483648 ∨ element_size = 0 := by
  obtain ⟨-, hcb⟩ := init_some hinit
  have hstart : Queued (ringStart cb (mem t)) := by
    rw [hcb]
    exact start_queued hcap hlt hbuffer hroom (mem t)
  have hslots : cb.capacity = capacity := by rw [hcb]
  have hbytes : cb.element_size = element_size := by rw [hcb]
  constructor
  · intro hall
    by_contra hno
    rw [not_or, Nat.not_le] at hno
    obtain ⟨hlarge, hsome⟩ := hno
    -- two bytes for each of more than half of the addresses are too many
    have hone : element_size = 1 := by
      by_contra hne
      have hmul := Nat.mul_le_mul_left capacity (show 2 ≤ element_size by omega)
      omega
    have hzero : (ringStart cb (mem t)).cb.head = 0 := by
      rw [hcb]
      rfl
    obtain ⟨u, ⟨calls, hrun⟩, hfails⟩ := a_large_buffer_reports_another_element hstart rfl hzero
      (hbytes.trans hone) (by rw [← hslots] at hlarge; exact hlarge)
    have hqueue := hall calls u hrun
    rw [hone, ← hslots] at hqueue
    exact hfails hqueue
  · intro hsmall calls u hrun
    obtain ⟨hqueued, hsame⟩ := run_queued hstart hrun
    have hcapu : u.cb.capacity = capacity := hsame.capacity.trans hslots
    have hesu : u.cb.element_size = element_size := hsame.element_size.trans hbytes
    have hqueue := hqueued.isQueue (hsmall.symm.imp (fun hzero => hesu.trans hzero)
      fun hhalf i hi => by
        have hhead := hqueued.good.head
        have hsize := hqueued.good.size
        have hlength := hqueued.length
        simp only [ringOf] at hhead hsize
        omega)
    rwa [hcapu, hesu] at hqueue

/-- A block of 16 bytes at `0x1000`, whatever is asked for. -/
def sampleAllocator (m : Mem) (_ : Nat) : Outcome Mem Nat := .done 0x1000 m

theorem a_buffer_of_two_words_is_a_queue :
    ∃ t, circular_buffer_init id (fun _ m => m) 2 4 sampleAllocator (fun _ => 0) =
        .done (some ⟨0x1000, 0, 0, 2, 4, 0⟩) t ∧
      ∀ calls u, run ring_step (ringStart ⟨0x1000, 0, 0, 2, 4, 0⟩ t) calls = some u →
        IsQueue 2 4 u := by
  have hinit : circular_buffer_init id (fun _ m => m) 2 4 sampleAllocator (fun _ => 0) =
      .done (some ⟨0x1000, 0, 0, 2, 4, 0⟩) (fill (fun _ => 0) 0x1000 0 (mul32 2 4)) := rfl
  have hqueue := @the_buffer_is_a_queue_up_to_half_the_addresses Mem id (fun _ m => m) 2 4
    sampleAllocator _ _ _ (by decide) (by decide) (by decide) hinit (by decide) (by decide)
  exact ⟨_, hinit, hqueue.mpr (Or.inl (by decide))⟩

/-- A buffer of `2 ^ 31 + 1` bytes at `0x1000`. -/
theorem a_buffer_of_more_than_half_the_addresses_is_no_queue :
    ∃ t, circular_buffer_init id (fun _ m => m) 2147483649 1 sampleAllocator (fun _ => 0) =
        .done (some ⟨0x1000, 0, 0, 2147483649, 1, 0⟩) t ∧
      ¬ ∀ calls u, run ring_step (ringStart ⟨0x1000, 0, 0, 2147483649, 1, 0⟩ t) calls = some u →
        IsQueue 2147483649 1 u := by
  refine ⟨_, rfl, fun hall => ?_⟩
  have hstart := @start_queued 0x1000 2147483649 1 (by decide) (by decide) (by decide) (by decide)
  obtain ⟨u, ⟨calls, hrun⟩, hfails⟩ :=
    a_large_buffer_reports_another_element (hstart _) rfl rfl rfl
      (show 2147483648 < 2147483649 by decide)
  exact hfails (hall calls u hrun)

end sakana_os
