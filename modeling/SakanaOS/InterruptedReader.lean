-- A reader of the input ring whose statements are interleaved with whole enqueues of
-- the keyboard interrupt: no interleaving loses or duplicates a character.
import SakanaOS.CircularBuffer

open byte_memory rings

namespace sakana_os

/-! ## The reader, statement by statement -/

/-- The statement of `tty_getchar`, and of the dequeue it calls, that the reader
executes next, with the locals that are set there. -/
inductive Reader where
  | idle
  | called
  | tested
  | located (bufstart : Nat)
  | copied (element : List UInt8)
  | shrunk (element : List UInt8)
  | advanced (element : List UInt8)
  | uninitialised

/-- The input ring with its reader. `obtained` is what `tty_getchar` has returned, and
`accepted` is the characters whose enqueue found room. -/
structure Input where
  cb : circular_buffer
  mem : Mem
  reader : Reader
  obtained : List UInt8
  accepted : List UInt8

/-- One statement of the reader. `tty_getchar` would return a local without a value if
the dequeue that it calls found nothing. -/
def reader_step (s : Input) : Input :=
  match s.reader with
  | .idle => if circular_buffer_empty s.cb then s else { s with reader := .called }
  | .called =>
    if circular_buffer_empty s.cb then { s with reader := .uninitialised }
    else { s with reader := .tested }
  | .tested =>
    let offset := mul32 s.cb.head s.cb.element_size
    { s with reader := .located (add32 s.cb.buffer offset) }
  | .located bufstart =>
    { s with reader := .copied (loadList s.mem bufstart s.cb.element_size) }
  | .copied element =>
    { s with cb := { s.cb with size := sub32 s.cb.size 1 }, reader := .shrunk element }
  | .shrunk element =>
    { s with
      cb := { s.cb with head := add32 s.cb.head 1 % s.cb.capacity }, reader := .advanced element }
  | .advanced element => { s with reader := .idle, obtained := s.obtained ++ element }
  | .uninitialised => s

/-- The enqueue of a character by the interrupt handler. -/
def interrupt (s : Input) (c : UInt8) : Input :=
  let r := circular_buffer_enqueue s.cb s.mem (some [c])
  { s with
    cb := r.1
    mem := r.2
    accepted := if circular_buffer_full s.cb then s.accepted else s.accepted ++ [c] }

inductive Tick where
  | reader
  | interrupt (c : UInt8)

def tick (s : Input) : Tick → Input
  | .reader => reader_step s
  | .interrupt c => interrupt s c

def ticks (s : Input) (ts : List Tick) : Input := ts.foldl tick s

/-- The reader before its first call. -/
def startInput (cb : circular_buffer) (m : Mem) : Input := ⟨cb, m, .idle, [], []⟩

/-- Without an interrupt, the statements from the test on are the dequeue. -/
theorem reader_steps_are_the_dequeue {s : Input} (hcalled : s.reader = .called)
    (hsome : circular_buffer_empty s.cb = false) :
    ∃ element, circular_buffer_dequeue s.cb s.mem =
        ((ticks s [.reader, .reader, .reader, .reader, .reader]).cb, some element) ∧
      (ticks s [.reader, .reader, .reader, .reader, .reader]).reader = .advanced element := by
  obtain ⟨cb, m, reader, obtained, accepted⟩ := s
  simp only at hcalled hsome
  subst hcalled
  refine ⟨loadList m (add32 cb.buffer (mul32 cb.head cb.element_size)) cb.element_size, ?_, ?_⟩
  · simp [circular_buffer_dequeue, hsome, ticks, tick, reader_step]
  · simp [hsome, ticks, tick, reader_step]

/-! ## The invariant -/

/-- The ring with the removal that has begun taken as done. -/
def settled (s : Input) : SlotRing (List UInt8) :=
  match s.reader with
  | .shrunk _ => (ringOf s.cb s.mem).advance s.cb.capacity
  | _ => ringOf s.cb s.mem

/-- The element that has left the ring and was not yet returned. -/
def inHand (s : Input) : List UInt8 :=
  match s.reader with
  | .shrunk element => element
  | .advanced element => element
  | _ => []

/-- What the locals of the reader hold. -/
def LocalsFit (s : Input) : Prop :=
  match s.reader with
  | .idle => True
  | .called => s.cb.size ≠ 0
  | .tested => s.cb.size ≠ 0
  | .located bufstart => s.cb.size ≠ 0 ∧ bufstart = slotAddr s.cb s.cb.head
  | .copied element =>
    s.cb.size ≠ 0 ∧ element = loadList s.mem (slotAddr s.cb s.cb.head) s.cb.element_size
  | .shrunk _ => True
  | .advanced _ => True
  | .uninitialised => False

structure ReaderInvariant (s : Input) : Prop where
  roomed : Roomed s.cb
  chars : s.cb.element_size = 1
  head : s.cb.head < s.cb.capacity
  good : (settled s).Good s.cb.capacity
  locals : LocalsFit s
  account : s.accepted =
    s.obtained ++ inHand s ++ ((settled s).contents s.cb.capacity).flatten

/-! ## A statement of the reader -/

theorem settled_tail (s : Input) : (settled s).tail = s.cb.tail := by
  unfold settled
  cases s.reader <;> rfl

theorem settled_size (s : Input) : (settled s).size = s.cb.size := by
  unfold settled
  cases s.reader <;> rfl

theorem reader_step_invariant {s : Input} (h : ReaderInvariant s) :
    ReaderInvariant (reader_step s) := by
  obtain ⟨cb, m, reader, obtained, accepted⟩ := s
  obtain ⟨hroomed, hchars, hhead, hgood, hlocals, haccount⟩ := h
  have hcap : cb.capacity < 4294967296 := hroomed.capacity
  have hsize : cb.size ≤ cb.capacity := by
    have hle := hgood.size
    rwa [settled_size] at hle
  cases reader with
  | idle =>
    unfold reader_step
    simp only
    split
    · exact ⟨hroomed, hchars, hhead, hgood, hlocals, haccount⟩
    · rename_i hsome
      rw [empty_iff] at hsome
      exact ⟨hroomed, hchars, hhead, hgood, hsome, haccount⟩
  | called =>
    have hsome : ¬ circular_buffer_empty cb = true := fun he => hlocals ((empty_iff cb).mp he)
    unfold reader_step
    simp only [hsome, if_false, Bool.false_eq_true]
    exact ⟨hroomed, hchars, hhead, hgood, hlocals, haccount⟩
  | tested =>
    have haddress := slot_address (hroomed.fits (Nat.zero_lt_of_lt hhead)) hhead
    exact ⟨hroomed, hchars, hhead, hgood, ⟨hlocals, haddress⟩, haccount⟩
  | located bufstart =>
    have hslot : bufstart = slotAddr cb cb.head := hlocals.2
    subst hslot
    exact ⟨hroomed, hchars, hhead, hgood, ⟨hlocals.1, rfl⟩, haccount⟩
  | copied element =>
    have hsome : cb.size ≠ 0 := hlocals.1
    have helement : element = (ringOf cb m).slots cb.head := hlocals.2
    have hring : (ringOf cb m).Good cb.capacity := hgood
    have hsub : sub32 cb.size 1 = cb.size - 1 := sub32_eq (by omega) (by omega)
    have hsettled : settled (reader_step ⟨cb, m, .copied element, obtained, accepted⟩) =
        (ringOf cb m).shrink.advance cb.capacity := by
      unfold settled reader_step ringOf SlotRing.shrink SlotRing.advance
      simp only [hsub]
      rfl
    refine ⟨⟨hroomed.1, hroomed.2, hroomed.3⟩, hchars, hhead, ?_, trivial, ?_⟩
    · rw [hsettled]
      exact hring.pop hsome
    · have hpop : (ringOf cb m).contents cb.capacity = _ := contents_pop hring hsome
      have haccount' : accepted =
        obtained ++ [] ++ ((ringOf cb m).contents cb.capacity).flatten := haccount
      rw [hsettled]
      show accepted = obtained ++ element ++ _
      rw [haccount', hpop, List.flatten_cons, List.append_nil, helement, List.append_assoc]
      rfl
  | shrunk element =>
    have hlt : cb.head < cb.capacity := hhead
    have hadd : add32 cb.head 1 = cb.head + 1 := add32_eq (by omega)
    have hmod : add32 cb.head 1 % cb.capacity < cb.capacity := Nat.mod_lt _ (by omega)
    have hsettled : settled (reader_step ⟨cb, m, .shrunk element, obtained, accepted⟩) =
        settled ⟨cb, m, .shrunk element, obtained, accepted⟩ := by
      unfold settled reader_step ringOf SlotRing.advance slot
      simp only [hadd]
      rfl
    refine ⟨⟨hroomed.1, hroomed.2, hroomed.3⟩, hchars, hmod, ?_, trivial, ?_⟩
    · rw [hsettled]
      exact hgood
    · rw [hsettled]
      exact haccount
  | advanced element =>
    refine ⟨hroomed, hchars, hhead, hgood, trivial, ?_⟩
    have haccount' : accepted =
      obtained ++ element ++ ((ringOf cb m).contents cb.capacity).flatten := haccount
    show accepted = obtained ++ element ++ [] ++ _
    rw [haccount', List.append_nil]
    rfl
  | uninitialised => exact hlocals.elim

/-! ## A character of the interrupt -/

/-- The enqueue does not see how far the removal is. -/
theorem settled_interrupt {s : Input} (h : ReaderInvariant s) (c : UInt8) :
    settled (interrupt s c) = (settled s).push s.cb.capacity [c] := by
  have htail : s.cb.tail < s.cb.capacity := by
    rw [← settled_tail]
    exact h.good.tail_lt
  have hsize : s.cb.size ≤ s.cb.capacity := by
    rw [← settled_size]
    exact h.good.size
  have hlen : [c].length = s.cb.element_size := h.chars.symm
  have hring := enqueue_ring (m := s.mem) (h.roomed.fits (Nat.zero_lt_of_lt htail)) htail hsize hlen
  have hcap := (enqueue_same s.cb s.mem (some [c])).capacity
  unfold settled interrupt
  cases s.reader with
  | shrunk element =>
    simp only [hcap, hring]
    exact advance_push _ _
  | idle => exact hring
  | called => exact hring
  | tested => exact hring
  | located bufstart => exact hring
  | copied element => exact hring
  | advanced element => exact hring
  | uninitialised => exact hring

/-- The slots whose elements the reader has not copied yet. -/
def toRead (s : Input) : List Nat :=
  match s.reader with
  | .copied _ => ((List.range s.cb.size).map (slot s.cb.capacity s.cb.head)).tail
  | .shrunk _ => (List.range s.cb.size).map (slot s.cb.capacity (slot s.cb.capacity s.cb.head 1))
  | _ => (List.range s.cb.size).map (slot s.cb.capacity s.cb.head)

theorem toRead_held {s : Input} {i : Nat} (h : i ∈ toRead s) :
    ∃ j < (settled s).size, i = slot s.cb.capacity (settled s).head j := by
  have hmem : ∀ head, i ∈ (List.range s.cb.size).map (slot s.cb.capacity head) →
      ∃ j < s.cb.size, i = slot s.cb.capacity head j := by
    intro head hi
    obtain ⟨j, hj, rfl⟩ := List.mem_map.mp hi
    exact ⟨j, List.mem_range.mp hj, rfl⟩
  unfold toRead at h
  unfold settled
  cases hreader : s.reader with
  | copied element =>
    rw [hreader] at h
    exact hmem _ (List.mem_of_mem_tail h)
  | _ =>
    rw [hreader] at h
    exact hmem _ h

theorem settled_slots (s : Input) (i : Nat) :
    (settled s).slots i = loadList s.mem (slotAddr s.cb i) s.cb.element_size := by
  unfold settled
  cases s.reader <;> rfl

/-- An enqueue leaves the slots that are held as they are. -/
theorem interrupt_keeps_slot {s : Input} (h : ReaderInvariant s) (c : UInt8) {j : Nat}
    (hj : j < (settled s).size) :
    (settled (interrupt s c)).slots (slot s.cb.capacity (settled s).head j) =
      (settled s).slots (slot s.cb.capacity (settled s).head j) := by
  rw [settled_interrupt h c]
  by_cases hfull : (settled s).size = s.cb.capacity
  · rw [push_full hfull]
  · rw [push_room hfull]
    exact Function.update_of_ne (h.good.held_ne_tail hfull hj) _ _

theorem interrupt_size {s : Input} (h : ReaderInvariant s) (c : UInt8) (hsize : s.cb.size ≠ 0) :
    (interrupt s c).cb.size ≠ 0 := by
  rw [← settled_size, settled_interrupt h c]
  unfold SlotRing.push
  split
  · rw [settled_size]
    exact hsize
  · exact Nat.succ_ne_zero _

theorem interrupt_locals {s : Input} (h : ReaderInvariant s) (c : UInt8) :
    LocalsFit (interrupt s c) := by
  have hsame := enqueue_same s.cb s.mem (some [c])
  have hhead := enqueue_head s.cb s.mem (some [c])
  have hlocals := h.locals
  unfold LocalsFit at hlocals ⊢
  have hreader : (interrupt s c).reader = s.reader := rfl
  rw [hreader]
  cases hcase : s.reader with
  | idle => trivial
  | called =>
    rw [hcase] at hlocals
    exact interrupt_size h c hlocals
  | tested =>
    rw [hcase] at hlocals
    exact interrupt_size h c hlocals
  | located bufstart =>
    rw [hcase] at hlocals
    refine ⟨interrupt_size h c hlocals.1, ?_⟩
    rw [hlocals.2]
    unfold interrupt
    simp only [hsame.slotAddr, hhead]
  | copied element =>
    rw [hcase] at hlocals
    refine ⟨interrupt_size h c hlocals.1, ?_⟩
    have hpos : 0 < (settled s).size := by
      rw [settled_size]
      exact Nat.pos_of_ne_zero hlocals.1
    have hfirst : slot s.cb.capacity (settled s).head 0 = s.cb.head := by
      unfold settled
      rw [hcase]
      exact slot_zero h.head
    have hkeep := interrupt_keeps_slot h c hpos
    rw [hfirst, settled_slots, settled_slots, ← hlocals.2] at hkeep
    rw [← hkeep]
    unfold interrupt
    simp only [hhead]
  | shrunk element => trivial
  | advanced element => trivial
  | uninitialised =>
    rw [hcase] at hlocals
    exact hlocals

theorem interrupt_invariant {s : Input} (h : ReaderInvariant s) (c : UInt8) :
    ReaderInvariant (interrupt s c) := by
  have hsame := enqueue_same s.cb s.mem (some [c])
  have hcap : (interrupt s c).cb.capacity = s.cb.capacity := hsame.capacity
  refine ⟨hsame.roomed h.roomed, hsame.element_size.trans h.chars, ?_, ?_, interrupt_locals h c,
    ?_⟩
  · rw [hcap]
    have hhead := h.head
    rw [← enqueue_head s.cb s.mem (some [c])] at hhead
    exact hhead
  · rw [hcap, settled_interrupt h c]
    exact h.good.push [c]
  · have hhand : inHand (interrupt s c) = inHand s := rfl
    have hobtained : (interrupt s c).obtained = s.obtained := rfl
    rw [hcap, settled_interrupt h c, hhand, hobtained]
    unfold interrupt
    simp only
    by_cases hfull : s.cb.size = s.cb.capacity
    · rw [if_pos ((full_iff s.cb).mpr hfull), push_full ((settled_size s).trans hfull)]
      exact h.account
    · have hroom : (settled s).size ≠ s.cb.capacity := by
        rw [settled_size]
        exact hfull
      rw [if_neg (fun hf => hfull ((full_iff s.cb).mp hf)), contents_push h.good hroom,
        h.account]
      simp

/-! ## Every interleaving -/

theorem ticks_invariant {s : Input} (h : ReaderInvariant s) (ts : List Tick) :
    ReaderInvariant (ticks s ts) := by
  induction ts generalizing s with
  | nil => exact h
  | cons t ts ih =>
    apply ih
    cases t with
    | reader => exact reader_step_invariant h
    | interrupt c => exact interrupt_invariant h c

theorem ticks_capacity (s : Input) (ts : List Tick) :
    (ticks s ts).cb.capacity = s.cb.capacity := by
  induction ts generalizing s with
  | nil => rfl
  | cons t ts ih =>
    refine (ih (tick s t)).trans ?_
    cases t with
    | reader =>
      unfold tick reader_step
      cases s.reader with
      | idle =>
        simp only
        split
        · rfl
        · rfl
      | called =>
        simp only
        split
        · rfl
        · rfl
      | _ => rfl
    | interrupt c => exact (enqueue_same s.cb s.mem (some [c])).capacity

theorem start_reader_invariant {cb : circular_buffer} {m : Mem} (h : RingAt cb m)
    (hchars : cb.element_size = 1) (hempty : elements cb m = []) :
    ReaderInvariant (startInput cb m) := by
  refine ⟨h.roomed, hchars, h.good.head, h.good, trivial, ?_⟩
  have hcontents : (ringOf cb m).contents cb.capacity = [] := hempty
  show [] = [] ++ [] ++ ((ringOf cb m).contents cb.capacity).flatten
  rw [hcontents]
  rfl

/-- However the interrupt's enqueues fall between the statements of the reader, the
reader obtains a prefix of the accepted characters, an idle reader finds the rest in
the ring, and no slot still to be read is overwritten. -/
theorem no_character_is_lost_or_duplicated {S : Type} {mem : S → Mem} {put : S → Mem → S}
    {allocator : S → Nat → Outcome S Nat} {s t : S} {capacity : Nat} {cb : circular_buffer}
    (hcap : 0 < capacity)
    (hinit : circular_buffer_init mem put capacity 1 allocator s = .done (some cb) t)
    (harea : cb.buffer + capacity ≤ 4294967296) (ts : List Tick) (u : Input)
    (hu : u = ticks (startInput cb (mem t)) ts) :
    u.obtained <+: u.accepted ∧ u.reader ≠ .uninitialised ∧
      (u.reader = .idle →
        u.accepted = u.obtained ++ (elements u.cb u.mem).flatten ∧
        u.cb.tail = (u.cb.head + u.cb.size) % capacity ∧ u.cb.size ≤ capacity) ∧
      ∀ c i, i ∈ toRead u →
        loadList (interrupt u c).mem (slotAddr u.cb i) u.cb.element_size =
          loadList u.mem (slotAddr u.cb i) u.cb.element_size := by
  obtain ⟨hnull, hcb⟩ := init_some hinit
  have hring : RingAt cb (mem t) := by
    have hpos : 0 < cb.buffer := Nat.pos_of_ne_zero hnull
    rw [hcb]
    apply fresh_ringAt
    · decide
    · exact hcap
    · omega
    · omega
  have hstart : ReaderInvariant (startInput cb (mem t)) := by
    apply start_reader_invariant hring
    · rw [hcb]
    · rw [hcb]
      rfl
  have h : ReaderInvariant u := by
    rw [hu]
    exact ticks_invariant hstart ts
  have hu : u.cb.capacity = capacity := by
    rw [hu, ticks_capacity, startInput, hcb]
  refine ⟨?_, ?_, ?_, ?_⟩
  · rw [h.account, List.append_assoc]
    exact List.prefix_append _ _
  · intro hreader
    have hlocals := h.locals
    unfold LocalsFit at hlocals
    rw [hreader] at hlocals
    exact hlocals
  · intro hreader
    have haccount := h.account
    have hgood := h.good
    unfold settled inHand at haccount
    unfold settled at hgood
    rw [hreader] at haccount hgood
    rw [← hu]
    refine ⟨?_, hgood.tail, hgood.size⟩
    rw [haccount, List.append_nil]
    rfl
  · intro c i hi
    obtain ⟨j, hj, rfl⟩ := toRead_held hi
    have hkeep := interrupt_keeps_slot h c hj
    have hsame := enqueue_same u.cb u.mem (some [c])
    rw [settled_slots, settled_slots] at hkeep
    rw [← hkeep]
    unfold interrupt
    simp only [hsame.slotAddr, hsame.element_size]

/-- The second character comes while the slot of the first is being given back. -/
def oneSlotTicks : List Tick :=
  [.interrupt 97, .reader, .reader, .reader, .reader, .reader, .interrupt 98, .reader, .reader]

/-- A ring of one slot at the address 4096. -/
theorem one_slot_loses_no_character :
    (ticks (startInput ⟨4096, 0, 0, 1, 1, 0⟩ (fill (fun _ => 0) 4096 0 (mul32 1 1)))
        oneSlotTicks).obtained <+:
      (ticks (startInput ⟨4096, 0, 0, 1, 1, 0⟩ (fill (fun _ => 0) 4096 0 (mul32 1 1)))
        oneSlotTicks).accepted := by
  have hne : (4096 : Nat) ≠ NULL := by decide
  have hinit : circular_buffer_init id (fun _ m => m) 1 1 (fun m _ => .done 4096 m)
      (fun _ => 0 : Mem) =
        .done (some ⟨4096, 0, 0, 1, 1, 0⟩) (fill (fun _ => 0) 4096 0 (mul32 1 1)) := by
    unfold circular_buffer_init
    rw [Outcome.done_andThen, if_neg hne]
    rfl
  exact (no_character_is_lost_or_duplicated (by decide) hinit (by decide) oneSlotTicks _ rfl).1

example : (ticks (startInput ⟨4096, 0, 0, 1, 1, 0⟩ fun _ => 0) oneSlotTicks).obtained = [97] := by
  decide +kernel

end sakana_os
