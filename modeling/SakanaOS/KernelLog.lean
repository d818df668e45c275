-- The kernel log of `message.c`: a ring of records that always holds the newest
-- messages, however many were written.
import SakanaOS.CircularBuffer
import SakanaOS.Placement
import SakanaOS.Strings

open byte_memory rings

namespace sakana_os

/-! ## The code -/

def KMESSAGE_LEVEL_PANIC : Nat := 0
def KMESSAGE_LEVEL_INFO : Nat := 1
def KMESSAGE_LEVEL_WARN : Nat := 2
def KMESSAGE_LEVEL_ERROR : Nat := 3

def MSG_BUFFER_SIZE : Nat := 128
def MSG_LOG_SIZE : Nat := 128

/-- A record of the log: an `int` and `MSG_LOG_SIZE` characters. -/
structure kmessage_log where
  level : Int32
  message : List UInt8

/-- `sizeof(kmessage_log_t)` -/
def SIZEOF_KMESSAGE_LOG : Nat := 132

/-- The bytes of an `int`, low byte first. -/
def intBytes (x : Int32) : List UInt8 :=
  let w := x.toUInt32.toNat
  [UInt8.ofNat w, UInt8.ofNat (w / 256), UInt8.ofNat (w / 65536), UInt8.ofNat (w / 16777216)]

/-- The record as it lies in memory. -/
def kmessage_log.bytes (log : kmessage_log) : List UInt8 := intBytes log.level ++ log.message

/-- The record at an address. -/
def kmessage_log_at (m : Mem) (a : Nat) : kmessage_log where
  level := (UInt32.ofNat (load32 m a)).toInt32
  message := loadList m (a + 4) MSG_LOG_SIZE

/-- `memcpy` to the start of an array that is longer. -/
def copyInto (array bytes : List UInt8) : List UInt8 := bytes ++ array.drop bytes.length

/-- The record that `kmessage` fills in on its stack. -/
def kmessage_record (level : Int32) (message : CString) : kmessage_log :=
  let log : kmessage_log := ⟨0, List.replicate MSG_LOG_SIZE 0⟩
  let log := { log with level := level }
  let msg_len := strlen message
  let msg_len := if msg_len ≥ MSG_LOG_SIZE then MSG_LOG_SIZE - 1 else msg_len
  let log := { log with message := copyInto log.message (message.chars.take msg_len) }
  { log with message := log.message.set msg_len 0 }

def kmessage (kmessage_log_buffer : circular_buffer) (m : Mem) (level : Int32)
    (message : CString) : circular_buffer × Mem :=
  let log := kmessage_record level message
  let kmessage_log_buffer :=
    if circular_buffer_full kmessage_log_buffer then
      (circular_buffer_dequeue kmessage_log_buffer m).1
    else kmessage_log_buffer
  circular_buffer_enqueue kmessage_log_buffer m (some log.bytes)

def kmessage_init (s : Kheap) : Outcome Kheap circular_buffer :=
  (circular_buffer_create Kheap.mem (fun s m => { s with mem := m }) MSG_BUFFER_SIZE
      SIZEOF_KMESSAGE_LOG kmalloc s).andThen fun kmessage_log_buffer s =>
    match kmessage_log_buffer with
    | none => .kpanic KPANIC_OUT_OF_MEMORY "Memory allocation failed." s
    | some kmessage_log_buffer => .done kmessage_log_buffer s

/-! ## One record -/

/-- What the log keeps of a message: its level and as much of its text as leaves room
for a NUL. -/
def logged (call : Int32 × CString) : kmessage_log where
  level := call.1
  message :=
    let text := call.2.chars.take (MSG_LOG_SIZE - 1)
    text ++ List.replicate (MSG_LOG_SIZE - text.length) 0

theorem kmessage_record_eq (level : Int32) (message : CString) :
    kmessage_record level message = logged (level, message) := by
  have hlen : (if strlen message ≥ MSG_LOG_SIZE then MSG_LOG_SIZE - 1 else strlen message) =
      (message.chars.take (MSG_LOG_SIZE - 1)).length := by
    rw [List.length_take]
    unfold strlen MSG_LOG_SIZE
    split <;> omega
  have htake : message.chars.take (message.chars.take (MSG_LOG_SIZE - 1)).length =
      message.chars.take (MSG_LOG_SIZE - 1) := by
    rw [List.length_take, ← List.take_eq_take_min]
  have hroom : MSG_LOG_SIZE - (message.chars.take (MSG_LOG_SIZE - 1)).length =
      (MSG_LOG_SIZE - (message.chars.take (MSG_LOG_SIZE - 1)).length - 1) + 1 := by
    rw [List.length_take]
    unfold MSG_LOG_SIZE
    omega
  unfold kmessage_record logged copyInto
  simp only [hlen, htake]
  rw [List.drop_replicate, List.set_append_right _ _ (Nat.le_refl _), Nat.sub_self, hroom,
    List.replicate_succ, List.set_cons_zero]

theorem length_record_bytes (call : Int32 × CString) :
    (logged call).bytes.length = SIZEOF_KMESSAGE_LOG := by
  simp only [logged, kmessage_log.bytes, intBytes, List.length_append, List.length_cons,
    List.length_nil, List.length_take, List.length_replicate]
  unfold MSG_LOG_SIZE SIZEOF_KMESSAGE_LOG
  omega

/-- A record reads back from its bytes. -/
theorem kmessage_log_at_bytes {m : Mem} {a : Nat} {log : kmessage_log}
    (h : loadList m a SIZEOF_KMESSAGE_LOG = log.bytes) : kmessage_log_at m a = log := by
  have hsplit : loadList m a 4 ++ loadList m (a + 4) MSG_LOG_SIZE = log.bytes := by
    rw [← loadList_append]
    exact h
  obtain ⟨hlevel, hmessage⟩ := List.append_inj hsplit (length_loadList m a 4)
  have hword := load32_of_loadList log.level.toUInt32.toNat_lt hlevel
  unfold kmessage_log_at
  rw [hword, hmessage, UInt32.ofNat_toNat]
  rfl

/-! ## The log over its calls -/

/-- A ring of `MSG_BUFFER_SIZE` records. -/
structure LogAt (log : circular_buffer) (m : Mem) : Prop extends RingAt log m where
  capacity : log.capacity = MSG_BUFFER_SIZE
  element_size : log.element_size = SIZEOF_KMESSAGE_LOG

theorem LogAt.enqueue {log : circular_buffer} {m : Mem} (h : LogAt log m)
    (call : Int32 × CString) :
    LogAt (circular_buffer_enqueue log m (some (logged call).bytes)).1
      (circular_buffer_enqueue log m (some (logged call).bytes)).2 := by
  have hlen : (logged call).bytes.length = log.element_size :=
    (length_record_bytes call).trans h.element_size.symm
  have hsame := enqueue_same log m (some (logged call).bytes)
  exact ⟨enqueue_ringAt h.toRingAt hlen, hsame.capacity.trans h.capacity,
    hsame.element_size.trans h.element_size⟩

theorem LogAt.dequeue {log : circular_buffer} {m : Mem} (h : LogAt log m) :
    LogAt (circular_buffer_dequeue log m).1 m := by
  have hsame := dequeue_same log m
  exact ⟨dequeue_ringAt h.toRingAt, hsame.capacity.trans h.capacity,
    hsame.element_size.trans h.element_size⟩

/-- A record enters a log that has room behind the others. -/
theorem LogAt.elements_enqueue {log : circular_buffer} {m : Mem} (h : LogAt log m)
    (hroom : log.size ≠ MSG_BUFFER_SIZE) (call : Int32 × CString) :
    elements (circular_buffer_enqueue log m (some (logged call).bytes)).1
      (circular_buffer_enqueue log m (some (logged call).bytes)).2 =
        elements log m ++ [(logged call).bytes] := by
  have hlen : (logged call).bytes.length = log.element_size :=
    (length_record_bytes call).trans h.element_size.symm
  rw [sakana_os.elements_enqueue h.toRingAt hlen, if_neg]
  rw [h.capacity]
  exact hroom

/-- One message: the oldest record goes when there is no room. -/
theorem kmessage_spec {log : circular_buffer} {m : Mem} (h : LogAt log m)
    (call : Int32 × CString) :
    LogAt (kmessage log m call.1 call.2).1 (kmessage log m call.1 call.2).2 ∧
      elements (kmessage log m call.1 call.2).1 (kmessage log m call.1 call.2).2 =
        newest MSG_BUFFER_SIZE (elements log m ++ [(logged call).bytes]) := by
  have hle : log.size ≤ MSG_BUFFER_SIZE := by
    rw [← h.capacity]
    exact h.good.size
  unfold kmessage
  rw [kmessage_record_eq]
  by_cases hfull : log.size = MSG_BUFFER_SIZE
  · have hsize : (circular_buffer_dequeue log m).1.size ≠ MSG_BUFFER_SIZE := by
      rw [← length_elements _ m, elements_dequeue h.toRingAt, List.length_tail, length_elements,
        hfull]
      decide
    have hcons : elements log m ≠ [] := by
      intro hnil
      have hzero := length_elements log m
      rw [hnil, hfull] at hzero
      cases hzero
    simp only [(full_iff log).mpr (hfull.trans h.capacity.symm), if_true]
    refine ⟨h.dequeue.enqueue call, ?_⟩
    rw [h.dequeue.elements_enqueue hsize call, elements_dequeue h.toRingAt]
    unfold newest
    rw [List.length_append, length_elements, hfull, List.length_singleton,
      Nat.add_sub_cancel_left, List.drop_one, List.tail_append_of_ne_nil hcons]
  · have hroom : ¬ circular_buffer_full log = true := by
      rw [full_iff, h.capacity]
      exact hfull
    simp only [hroom, if_false, Bool.false_eq_true]
    refine ⟨h.enqueue call, ?_⟩
    rw [h.elements_enqueue hfull call, newest_all]
    rw [List.length_append, length_elements, List.length_singleton]
    omega

/-! ## What a message leaves alone -/

/-- The address lies neither in the record of the log nor in its slots, which `kmessage_init`
allocates one behind the other. -/
def OutsideLog (log : circular_buffer) (x : Nat) : Prop :=
  x < log.buffer - SIZEOF_CIRCULAR_BUFFER ∨
    log.buffer + MSG_BUFFER_SIZE * SIZEOF_KMESSAGE_LOG ≤ x

/-- The slots of the log are where they are, whatever is stored to the memory. -/
theorem LogAt.stored {log : circular_buffer} {m : Mem} (h : LogAt log m) (m' : Mem) :
    LogAt log m' :=
  ⟨⟨h.roomed, h.good.head, h.good.tail, h.good.size⟩, h.capacity, h.element_size⟩

theorem enqueue_frame {log : circular_buffer} {m : Mem} (h : LogAt log m) {bytes : List UInt8}
    (hlen : bytes.length = SIZEOF_KMESSAGE_LOG) {x : Nat} (hx : OutsideLog log x) :
    (circular_buffer_enqueue log m (some bytes)).2 x = m x := by
  have htail := h.tail_lt
  have hcap := h.capacity
  have hsize := h.element_size
  unfold circular_buffer_enqueue
  by_cases hfull : circular_buffer_full log = true
  · rw [if_pos hfull]
  · rw [if_neg hfull]
    dsimp only
    rw [slot_address h.fits htail]
    apply storeList_frame
    unfold slotAddr
    unfold OutsideLog at hx
    rw [hcap] at htail
    rw [hsize, hlen]
    unfold MSG_BUFFER_SIZE at htail hx
    unfold SIZEOF_KMESSAGE_LOG at hx ⊢
    omega

/-- A message is written to one slot of the log, and the log stays where it is. -/
theorem kmessage_frame {log : circular_buffer} {m : Mem} (h : LogAt log m) (level : Int32)
    (message : CString) : (kmessage log m level message).1.buffer = log.buffer ∧
      ∀ x, OutsideLog log x → (kmessage log m level message).2 x = m x := by
  have hlen := length_record_bytes (level, message)
  unfold kmessage
  rw [kmessage_record_eq]
  dsimp only
  by_cases hfull : circular_buffer_full log = true
  · have hsame := dequeue_same log m
    rw [if_pos hfull]
    refine ⟨(enqueue_same ..).buffer.trans hsame.buffer, fun x hx => ?_⟩
    refine enqueue_frame h.dequeue hlen ?_
    unfold OutsideLog at *
    rwa [hsame.buffer]
  · rw [if_neg hfull]
    exact ⟨(enqueue_same ..).buffer, fun x hx => enqueue_frame h hlen hx⟩

/-- The log and the memory after the calls of a list, in order. -/
def kmessages (s : circular_buffer × Mem) (calls : List (Int32 × CString)) :
    circular_buffer × Mem :=
  calls.foldl (fun s call => kmessage s.1 s.2 call.1 call.2) s

theorem kmessages_spec {s : circular_buffer × Mem} (h : LogAt s.1 s.2)
    (calls : List (Int32 × CString)) :
    LogAt (kmessages s calls).1 (kmessages s calls).2 ∧
      elements (kmessages s calls).1 (kmessages s calls).2 =
        newest MSG_BUFFER_SIZE (elements s.1 s.2 ++ calls.map fun call => (logged call).bytes) := by
  induction calls generalizing s with
  | nil =>
    refine ⟨h, ?_⟩
    rw [List.map_nil, List.append_nil, newest_all]
    · rfl
    · rw [length_elements, ← h.capacity]
      exact h.good.size
  | cons call calls ih =>
    obtain ⟨hlog, heq⟩ := kmessage_spec h call
    obtain ⟨hlogs, heqs⟩ := ih hlog
    refine ⟨hlogs, heqs.trans ?_⟩
    rw [heq, newest_append_newest, List.append_assoc]
    rfl

/-- The start of the kernel leaves an empty log, which has taken the first bytes of the area. -/
theorem kmessage_init_spec {placement : Nat} {m : Mem} (hpos : 0 < placement)
    (hstop : placement + KHEAP_PLACEMENT_SIZE < 4294967296) :
    ∃ log m', kmessage_init (kheapStart placement m) =
        .done log (kheapTaken placement 16920 m') ∧ LogAt log m' ∧ elements log m' = [] := by
  have hslots : mul32 MSG_BUFFER_SIZE SIZEOF_KMESSAGE_LOG = 16896 := by decide +kernel
  have hfit : SIZEOF_CIRCULAR_BUFFER ≤ KHEAP_PLACEMENT_SIZE := by decide
  have hfit' : 16896 ≤ KHEAP_PLACEMENT_SIZE - SIZEOF_CIRCULAR_BUFFER := by decide
  obtain ⟨hrecord, hbumped⟩ := kmalloc_placement (bumped_start (m := m) hpos hstop) _ hfit
  obtain ⟨hbuffer, -⟩ := kmalloc_placement hbumped 16896 hfit'
  have hne : placement + SIZEOF_CIRCULAR_BUFFER ≠ NULL := Nat.succ_ne_zero _
  rw [← hslots] at hbuffer
  have hcreate := @create_done Kheap Kheap.mem (fun s m => { s with mem := m }) _ _ _ _ _ _ _ _
    hrecord hbuffer hne
  have hinit : kmessage_init (kheapStart placement m) =
      .done ⟨placement + SIZEOF_CIRCULAR_BUFFER, 0, 0, MSG_BUFFER_SIZE, SIZEOF_KMESSAGE_LOG, 0⟩
        (kheapTaken placement 16920 (fill m (placement + SIZEOF_CIRCULAR_BUFFER) 0 16896)) := by
    unfold kmessage_init
    rw [hcreate]
    simp only [Outcome.done_andThen, kheapTaken, kheapStart, hslots, SIZEOF_CIRCULAR_BUFFER,
      Nat.add_assoc, Nat.sub_sub]
  unfold KHEAP_PLACEMENT_SIZE at hstop
  refine ⟨_, _, hinit, ⟨?_, rfl, rfl⟩, rfl⟩
  apply fresh_ringAt
  · decide
  · decide
  · show placement + 24 + 128 * 132 ≤ 4294967296
    omega
  · decide

/-- Lists that agree under one pair of views agree under another that the first decides. -/
theorem map_eq_map_of {α β γ δ : Type} {f : α → γ} {g : β → γ} {f' : α → δ} {g' : β → δ}
    (hview : ∀ a b, f a = g b → f' a = g' b) {l : List α} {k : List β} (h : l.map f = k.map g) :
    l.map f' = k.map g' := by
  induction l generalizing k with
  | nil =>
    cases k with
    | nil => rfl
    | cons b k => cases h
  | cons a l ih =>
    cases k with
    | nil => cases h
    | cons b k =>
      simp only [List.map_cons, List.cons.injEq] at h ⊢
      exact ⟨hview a b h.1, ih h.2⟩

/-- After any calls, the loop over the log sees the last `MSG_BUFFER_SIZE` of them, in
their order, each with its level and its text, cut to leave room for a NUL. -/
theorem the_log_keeps_the_newest_messages {placement : Nat} {m : Mem} (hpos : 0 < placement)
    (hstop : placement + KHEAP_PLACEMENT_SIZE < 4294967296) (calls : List (Int32 × CString)) :
    ∃ log s, kmessage_init (kheapStart placement m) = .done log s ∧
      (circular_buffer_foreach (kmessages (log, s.mem) calls).1).map
          (kmessage_log_at (kmessages (log, s.mem) calls).2) =
        (calls.drop (calls.length - MSG_BUFFER_SIZE)).map logged := by
  obtain ⟨log, m', hinit, hlog, hnil⟩ := kmessage_init_spec (m := m) hpos hstop
  refine ⟨log, _, hinit, ?_⟩
  obtain ⟨hlogs, heqs⟩ := kmessages_spec (s := (log, m')) hlog calls
  have hcap : 2 * (kmessages (log, m') calls).1.capacity ≤ 4294967296 := by
    rw [hlogs.capacity]
    decide
  have hforeach := foreach_elements hlogs.toRingAt hcap
  rw [heqs, hnil, List.nil_append, hlogs.element_size] at hforeach
  have hnewest : newest MSG_BUFFER_SIZE (calls.map fun call => (logged call).bytes) =
      (calls.drop (calls.length - MSG_BUFFER_SIZE)).map fun call => (logged call).bytes := by
    unfold newest
    rw [List.length_map, List.map_drop]
  rw [hnewest] at hforeach
  exact map_eq_map_of (fun element call h => kmessage_log_at_bytes h) hforeach

/-- Two messages, one of them without text, on a kernel whose placement area starts
at `0xC0200000`. -/
theorem two_messages_are_kept :
    ∃ log s, kmessage_init (kheapStart 0xC0200000 fun _ => 0) = .done log s ∧
      (circular_buffer_foreach (kmessages (log, s.mem)
          [(1, ⟨[72, 105], by simp, by decide⟩), (2, ⟨[], by simp, by decide⟩)]).1).map
        (kmessage_log_at (kmessages (log, s.mem)
          [(1, ⟨[72, 105], by simp, by decide⟩), (2, ⟨[], by simp, by decide⟩)]).2) =
      [(1, ⟨[72, 105], by simp, by decide⟩), (2, ⟨[], by simp, by decide⟩)].map logged := by
  have hpos : 0 < 0xC0200000 := by decide
  have hstop : 0xC0200000 + KHEAP_PLACEMENT_SIZE < 4294967296 := by decide
  exact the_log_keeps_the_newest_messages hpos hstop _

end sakana_os
