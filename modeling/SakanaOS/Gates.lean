-- The interrupt gates of `idt.c`: the descriptors in the memory, and the gate that the
-- processor finds there for each interrupt.
import SakanaOS.Runs
import SakanaOS.Segments

open byte_memory bit_fields record_tables

namespace sakana_os

/-! ## The table of the kernel -/

def IDT_SIZE : Nat := 256
def IDT_GATE_TYPE_MASK : Nat := 0b00001111
def IDT_PRIVILEGE_LEVEL_MASK : Nat := 0b01100000
def IDT_PRESENT_MASK : Nat := 0b10000000

/-- `sizeof(idt_gate_descriptor_t)`. -/
def SIZEOF_GATE_DESCRIPTOR : Nat := 8

def SYSCALL_INTERRUPT : Nat := 0x80

def LOW_16 (address : Nat) : Nat := address &&& 0xFFFF
def HIGH_16 (address : Nat) : Nat := (address >>> 16) &&& 0xFFFF

/-- Where the linker places the statics of `idt.c`. -/
structure IdtStatics where
  descriptors : Nat
  idt : Nat

/-- `&descriptors[index]`. -/
def IdtStatics.descriptor (a : IdtStatics) (index : Nat) : Nat :=
  a.descriptors + SIZEOF_GATE_DESCRIPTOR * index

/-- Where the assembler places the first instructions of `isr_stage1.asm`: `exc0` to `exc31`,
`irq32` to `irq47`, and `syscall`. -/
structure Stubs where
  exc : Nat → Nat
  irq : Nat → Nat
  syscall : Nat

-- The fields of a gate. Its privilege level and its present bit lie where those of a
-- segment descriptor do.
def set_offset_low (m : Mem) (d v : Nat) : Mem := set_entry_field m d 0 16 v
def set_selector (m : Mem) (d v : Nat) : Mem := set_entry_field m d 16 16 v
def set_unused (m : Mem) (d v : Nat) : Mem := set_entry_field m (d + 4) 0 8 v
def set_gate_type (m : Mem) (d v : Nat) : Mem := set_entry_field m (d + 4) 8 4 v
def set_gate_reserved (m : Mem) (d v : Nat) : Mem := set_entry_field m (d + 4) 12 1 v
def set_offset_high (m : Mem) (d v : Nat) : Mem := set_entry_field m (d + 4) 16 16 v

/-- The reserved bit is not written. -/
def idt_init_descriptor (m : Mem) (a : IdtStatics) (index offset selector flags : Nat) : Mem :=
  let d := a.descriptor index
  let m := set_offset_low m d (LOW_16 offset)
  let m := set_offset_high m d (HIGH_16 offset)
  let m := set_selector m d selector
  let m := set_gate_type m d (flags &&& IDT_GATE_TYPE_MASK)
  let m := set_privilege_level m d ((flags &&& IDT_PRIVILEGE_LEVEL_MASK) >>> 5)
  let m := set_descriptor_present m d ((flags &&& IDT_PRESENT_MASK) >>> 7)
  set_unused m d 0

/-- The turn of the first loop of `idt_init`: all fields of a descriptor become 0. -/
def idt_clear_descriptor (m : Mem) (a : IdtStatics) (index : Nat) : Mem :=
  let d := a.descriptor index
  let m := set_offset_low m d 0
  let m := set_selector m d 0
  let m := set_unused m d 0
  let m := set_gate_type m d 0
  let m := set_gate_reserved m d 0
  let m := set_privilege_level m d 0
  let m := set_descriptor_present m d 0
  set_offset_high m d 0

def idt_flush (s : BootCpu) (idt_ptr : Nat) : BootCpu :=
  { s with idtr := load_table s.mem idt_ptr }

def idtMessage : CString := ⟨literal "cpu: IDT initialized", by decide +kernel, by decide +kernel⟩

/-- The lines of the exceptions, and those of the hardware interrupts, differ in the number
of the interrupt alone. -/
def idt_init (s : BootCpu) (a : IdtStatics) (stubs : Stubs) : BootCpu :=
  let m := s.mem
  let m := (List.range IDT_SIZE).foldl (fun m index => idt_clear_descriptor m a index) m
  let m := (List.range 32).foldl
    (fun m index => idt_init_descriptor m a index (stubs.exc index) 0x08 0x8E) m
  let m := (List.range' 32 16).foldl
    (fun m index => idt_init_descriptor m a index (stubs.irq index) 0x08 0x8E) m
  let m := idt_init_descriptor m a SYSCALL_INTERRUPT stubs.syscall 0x08 0xEE
  let m := store32 m (a.idt + 2) a.descriptors
  let m := store16 m a.idt (SIZEOF_GATE_DESCRIPTOR * IDT_SIZE - 1)
  let s := idt_flush { s with mem := m } a.idt
  s.kmessage (.ofNat KMESSAGE_LEVEL_INFO) idtMessage

/-! ## The gates of the processor -/

/-- What the processor reads from a gate descriptor. -/
structure Gate where
  offset : Nat
  selector : Nat
  gate_type : Nat
  reserved : Nat
  privilege_level : Nat
  present : Nat
deriving DecidableEq

def gate_at (m : Mem) (d : Nat) : Gate :=
  let low := load32 m d
  let high := load32 m (d + 4)
  ⟨field low 0 16 + 2 ^ 16 * field high 16 16, field low 16 16, field high 8 4, field high 12 1,
    field high 13 2, field high 15 1⟩

/-- The type of a gate that leads to a handler with interrupts disabled. -/
def INTERRUPT_GATE : Nat := 0xE

/-- The interrupt gate of an interrupt. `none` behind the end of the table, for a gate that is
not present, and for one of another type. -/
def lookup_gate (m : Mem) (idtr : TableRegister) (interrupt : Nat) : Option Gate :=
  if 8 * interrupt + 7 ≤ idtr.limit then
    let gate := gate_at m (idtr.base + 8 * interrupt)
    if gate.present = 1 ∧ gate.reserved = 0 ∧ gate.gate_type = INTERRUPT_GATE then some gate
    else none
  else none

/-! ## What one line of `idt_init` writes -/

/-- The gate that a line asks for, over what stood in the reserved bit. -/
def gateOf (offset selector flags : Nat) (old : Gate) : Gate :=
  ⟨offset % 2 ^ 32, selector % 2 ^ 16, field flags 0 4, old.reserved, field flags 5 2,
    field flags 7 1⟩

section

variable (m : Mem) (a : IdtStatics) (index offset selector flags : Nat)

theorem idt_init_descriptor_frame {x : Nat}
    (h : x < a.descriptor index ∨ a.descriptor index + 8 ≤ x) :
    idt_init_descriptor m a index offset selector flags x = m x := by
  unfold idt_init_descriptor
  simp (disch := omega) only [set_offset_low, set_offset_high, set_selector, set_gate_type,
    set_privilege_level, set_descriptor_present, set_unused, entry_frame]

theorem idt_clear_descriptor_frame {x : Nat}
    (h : x < a.descriptor index ∨ a.descriptor index + 8 ≤ x) :
    idt_clear_descriptor m a index x = m x := by
  unfold idt_clear_descriptor
  simp (disch := omega) only [set_offset_low, set_offset_high, set_selector, set_gate_type,
    set_gate_reserved, set_privilege_level, set_descriptor_present, set_unused, entry_frame]

theorem gate_at_init :
    gate_at (idt_init_descriptor m a index offset selector flags) (a.descriptor index) =
      gateOf offset selector flags (gate_at m (a.descriptor index)) := by
  have hoffset : field offset 0 16 + 2 ^ 16 * field offset 16 16 = offset % 2 ^ 32 := by
    unfold field
    omega
  have hlow : LOW_16 offset = field offset 0 16 := shifted_field offset 0 16
  have hhigh : HIGH_16 offset = field offset 16 16 := shifted_field offset 16 16
  have htype : flags &&& IDT_GATE_TYPE_MASK = field flags 0 4 := shifted_field flags 0 4
  have hlevel : (flags &&& IDT_PRIVILEGE_LEVEL_MASK) >>> 5 = field flags 5 2 := masked_field _ 5 2
  have hpresent : (flags &&& IDT_PRESENT_MASK) >>> 7 = field flags 7 1 := masked_field _ 7 1
  unfold gate_at gateOf idt_init_descriptor
  simp only [set_offset_low, set_offset_high, set_selector, set_gate_type, set_privilege_level,
    set_descriptor_present, set_unused, hlow, hhigh, htype, hlevel, hpresent]
  simp (disch := omega) only [entry_word_other, entry_field_same, entry_field_other, field_mod]
  rw [hoffset]

theorem gate_at_clear :
    gate_at (idt_clear_descriptor m a index) (a.descriptor index) = ⟨0, 0, 0, 0, 0, 0⟩ := by
  unfold gate_at idt_clear_descriptor
  simp only [set_offset_low, set_offset_high, set_selector, set_gate_type, set_gate_reserved,
    set_privilege_level, set_descriptor_present, set_unused]
  simp (disch := omega) only [entry_word_other, entry_field_same, entry_field_other, Nat.zero_mod,
    Nat.mul_zero, Nat.add_zero]

theorem gate_at_congr {m m' : Mem} {d : Nat} (h : ∀ x, d ≤ x → x < d + 8 → m' x = m x) :
    gate_at m' d = gate_at m d := by
  have hlow : load32 m' d = load32 m d := load32_congr fun x h1 h2 => h x h1 (by omega)
  have hhigh : load32 m' (d + 4) = load32 m (d + 4) :=
    load32_congr fun x h1 h2 => h x (by omega) (by omega)
  unfold gate_at
  rw [hlow, hhigh]

end

/-- Two descriptors of the table share no byte. -/
theorem IdtStatics.descriptor_apart (a : IdtStatics) {i j x : Nat} (h : j ≠ i)
    (h1 : a.descriptor j ≤ x) (h2 : x < a.descriptor j + 8) :
    x < a.descriptor i ∨ a.descriptor i + 8 ≤ x := by
  unfold IdtStatics.descriptor SIZEOF_GATE_DESCRIPTOR at *
  omega

theorem init_writes (a : IdtStatics) (offset : Nat → Nat) (selector flags : Nat) :
    Writes (fun m i => gate_at m (a.descriptor i))
      (fun m i => idt_init_descriptor m a i (offset i) selector flags)
      (fun i => gateOf (offset i) selector flags) where
  same m i := gate_at_init m a i (offset i) selector flags
  other m i _ h := gate_at_congr fun _ h1 h2 =>
    idt_init_descriptor_frame m a i (offset i) selector flags (a.descriptor_apart h h1 h2)

theorem clear_writes (a : IdtStatics) :
    Writes (fun m i => gate_at m (a.descriptor i)) (fun m i => idt_clear_descriptor m a i)
      (fun _ _ => ⟨0, 0, 0, 0, 0, 0⟩) where
  same m i := gate_at_clear m a i
  other m i _ h := gate_at_congr fun _ h1 h2 =>
    idt_clear_descriptor_frame m a i (a.descriptor_apart h h1 h2)

/-! ## The table after the boot -/

/-- The linker gives the two statics addresses apart. -/
structure IdtStatics.Apart (a : IdtStatics) : Prop where
  idt : a.idt + 6 ≤ a.descriptors ∨ a.descriptors + 2048 ≤ a.idt
  top : a.descriptors + 2048 ≤ 4294967296

def IdtStatics.Outside (a : IdtStatics) (x : Nat) : Prop :=
  (x < a.descriptors ∨ a.descriptors + 2048 ≤ x) ∧ (x < a.idt ∨ a.idt + 6 ≤ x)

/-- The interrupts that `idt_init` has a line for. -/
def HasStub (interrupt : Nat) : Prop := interrupt < 48 ∨ interrupt = SYSCALL_INTERRUPT

instance (interrupt : Nat) : Decidable (HasStub interrupt) := inferInstanceAs (Decidable (_ ∨ _))

/-- The first instruction of the stub of an interrupt. -/
def Stubs.entry (stubs : Stubs) (interrupt : Nat) : Nat :=
  if interrupt < 32 then stubs.exc interrupt
  else if interrupt < 48 then stubs.irq interrupt
  else stubs.syscall

/-- The gate of a stub. The one of the system call is open to every privilege level. -/
def Stubs.gate (stubs : Stubs) (interrupt : Nat) : Gate :=
  ⟨stubs.entry interrupt % 2 ^ 32, 0x08, INTERRUPT_GATE, 0,
    if interrupt = SYSCALL_INTERRUPT then 3 else 0, 1⟩

/-- The lines of `idt_init`, without the table register. -/
def idt_lines (m : Mem) (a : IdtStatics) (stubs : Stubs) : Mem :=
  let m := (List.range IDT_SIZE).foldl (fun m index => idt_clear_descriptor m a index) m
  let m := (List.range 32).foldl
    (fun m index => idt_init_descriptor m a index (stubs.exc index) 0x08 0x8E) m
  let m := (List.range' 32 16).foldl
    (fun m index => idt_init_descriptor m a index (stubs.irq index) 0x08 0x8E) m
  idt_init_descriptor m a SYSCALL_INTERRUPT stubs.syscall 0x08 0xEE

theorem idt_lines_gate (m : Mem) (a : IdtStatics) (stubs : Stubs) {interrupt : Nat}
    (hi : interrupt < IDT_SIZE) :
    gate_at (idt_lines m a stubs) (a.descriptor interrupt) =
      if HasStub interrupt then stubs.gate interrupt else ⟨0, 0, 0, 0, 0, 0⟩ := by
  have hclear : ∀ m, gate_at ((List.range IDT_SIZE).foldl
      (fun m index => idt_clear_descriptor m a index) m) (a.descriptor interrupt) =
        ⟨0, 0, 0, 0, 0, 0⟩ := by
    intro m
    rw [foldl_table (clear_writes a) m List.nodup_range, if_pos (List.mem_range.mpr hi)]
  have hexc := fun m => foldl_table (init_writes a stubs.exc 0x08 0x8E) m
    (List.nodup_range (n := 32)) interrupt
  have hirq := fun m => foldl_table (init_writes a stubs.irq 0x08 0x8E) m
    (List.nodup_range' (s := 32) (n := 16)) interrupt
  have hsyscall := init_writes a (fun _ => stubs.syscall) 0x08 0xEE
  simp only [List.mem_range, List.mem_range'_1] at hexc hirq
  unfold idt_lines
  dsimp only
  by_cases hs : interrupt = SYSCALL_INTERRUPT
  · subst hs
    rw [hsyscall.same, hirq, if_neg (by decide), hexc, if_neg (by decide), hclear]
    rfl
  · rw [hsyscall.other _ _ _ hs, hirq, hexc, hclear]
    by_cases hlow : interrupt < 32
    · have hh : HasStub interrupt := Or.inl (by omega)
      rw [if_neg (by omega), if_pos hlow, if_pos hh]
      unfold Stubs.gate Stubs.entry
      rw [if_pos hlow, if_neg hs]
      rfl
    · by_cases hmid : interrupt < 48
      · have hh : HasStub interrupt := Or.inl hmid
        rw [if_pos (by omega), if_neg hlow, if_pos hh]
        unfold Stubs.gate Stubs.entry
        rw [if_neg hlow, if_pos hmid, if_neg hs]
        rfl
      · have hnot : ¬ HasStub interrupt := by
          rintro (h | h)
          · exact hmid h
          · exact hs h
        rw [if_neg (by omega), if_neg hlow, if_neg hnot]

theorem idt_lines_frame (m : Mem) (a : IdtStatics) (stubs : Stubs) {x : Nat}
    (h : x < a.descriptors ∨ a.descriptors + 2048 ≤ x) : idt_lines m a stubs x = m x := by
  have hindex : ∀ i < 256, x < a.descriptor i ∨ a.descriptor i + 8 ≤ x := by
    intro i hi
    unfold IdtStatics.descriptor SIZEOF_GATE_DESCRIPTOR
    omega
  have hclear := foldl_frame (fun m : Mem => m x) (fun m index => idt_clear_descriptor m a index)
    (List.range IDT_SIZE) fun m i hi =>
      idt_clear_descriptor_frame m a i (hindex i (List.mem_range.mp hi))
  have hexc := foldl_frame (fun m : Mem => m x)
    (fun m index => idt_init_descriptor m a index (stubs.exc index) 0x08 0x8E) (List.range 32)
    fun m i hi => idt_init_descriptor_frame m a i _ _ _ (hindex i (by
      have hlt := List.mem_range.mp hi
      omega))
  have hirq := foldl_frame (fun m : Mem => m x)
    (fun m index => idt_init_descriptor m a index (stubs.irq index) 0x08 0x8E)
    (List.range' 32 16) fun m i hi => idt_init_descriptor_frame m a i _ _ _ (hindex i (by
      have hlt := (List.mem_range'_1.mp hi).2
      omega))
  unfold idt_lines
  rw [idt_init_descriptor_frame _ _ _ _ _ _ (hindex _ (by decide)), hirq, hexc, hclear]

/-- The linker places the statics apart from the area that the log is allocated in. -/
def IdtStatics.ApartFrom (a : IdtStatics) (log : circular_buffer) : Prop :=
  ∀ x, a.Outside x ∨ OutsideLog log x

/-- What `idt_init` leaves. -/
structure Gated (a : IdtStatics) (stubs : Stubs) (s t : BootCpu) : Prop extends LogKept s t where
  idtr : t.idtr = ⟨a.descriptors, 2047⟩
  gdtr : t.gdtr = s.gdtr
  cs : t.cs = s.cs
  ds : t.ds = s.ds
  gate : ∀ interrupt < IDT_SIZE, gate_at t.mem (a.descriptor interrupt) =
    if HasStub interrupt then stubs.gate interrupt else ⟨0, 0, 0, 0, 0, 0⟩
  frame : ∀ x, a.Outside x → OutsideLog s.log x → t.mem x = s.mem x

theorem idt_init_spec {s : BootCpu} {a : IdtStatics} (h : a.Apart) (hlog : LogAt s.log s.mem)
    (hout : a.ApartFrom s.log) (stubs : Stubs) : Gated a stubs s (idt_init s a stubs) := by
  have htop := h.top
  have hidt := h.idt
  -- The lines, and the table that `lidt` loads.
  set m := store16 (store32 (idt_lines s.mem a stubs) (a.idt + 2) a.descriptors) a.idt 2047 with hm
  have htable : load_table m a.idt = ⟨a.descriptors, 2047⟩ := by
    unfold load_table
    rw [hm, load16_store16 _ _ (by decide), load32_store16_ne _ _ (by omega),
      load32_store32 _ _ (by omega)]
  have hstores : ∀ x, (x < a.idt ∨ a.idt + 6 ≤ x) → m x = idt_lines s.mem a stubs x := by
    intro x hx
    rw [hm, store16_frame _ _ (by omega), store32_frame _ _ (by omega)]
  have hinit : idt_init s a stubs =
      BootCpu.kmessage { s with mem := m, idtr := ⟨a.descriptors, 2047⟩ }
        (.ofNat KMESSAGE_LEVEL_INFO) idtMessage := by
    rw [← htable]
    rfl
  have hkept := @BootCpu.kmessage_kept { s with mem := m, idtr := ⟨a.descriptors, 2047⟩ } _ hlog
    (.ofNat KMESSAGE_LEVEL_INFO) idtMessage
  have hmem := fun {x : Nat} => @BootCpu.kmessage_mem
    { s with mem := m, idtr := ⟨a.descriptors, 2047⟩ } _ hlog (.ofNat KMESSAGE_LEVEL_INFO)
    idtMessage x
  rw [hinit]
  refine ⟨⟨hkept.log, hkept.buffer⟩, rfl, rfl, rfl, rfl, fun interrupt hi => ?_,
    fun x ha hx => ?_⟩
  · rw [← idt_lines_gate s.mem a stubs hi]
    apply gate_at_congr
    intro x h1 h2
    unfold IdtStatics.descriptor SIZEOF_GATE_DESCRIPTOR at h1 h2
    unfold IDT_SIZE at hi
    have hx : OutsideLog s.log x := (hout x).resolve_left fun hapart => by
      have hdescriptors := hapart.1
      omega
    exact (hmem hx).trans (hstores x (by omega))
  · exact (hmem hx).trans ((hstores x ha.2).trans (idt_lines_frame s.mem a stubs ha.1))

theorem lookup_gated {m : Mem} {a : IdtStatics} {stubs : Stubs}
    (hgate : ∀ interrupt < IDT_SIZE, gate_at m (a.descriptor interrupt) =
      if HasStub interrupt then stubs.gate interrupt else ⟨0, 0, 0, 0, 0, 0⟩) (interrupt : Nat) :
    lookup_gate m ⟨a.descriptors, 2047⟩ interrupt =
      if HasStub interrupt then some (stubs.gate interrupt) else none := by
  unfold lookup_gate
  dsimp only
  by_cases hi : interrupt < IDT_SIZE
  · have hlimit : 8 * interrupt + 7 ≤ 2047 := by
      unfold IDT_SIZE at hi
      omega
    have hfound : gate_at m (a.descriptors + 8 * interrupt) =
        if HasStub interrupt then stubs.gate interrupt else ⟨0, 0, 0, 0, 0, 0⟩ := hgate interrupt hi
    rw [if_pos hlimit, hfound]
    by_cases hh : HasStub interrupt
    · rw [if_pos hh, if_pos hh, if_pos ⟨rfl, rfl, rfl⟩]
    · rw [if_neg hh, if_neg hh, if_neg (by decide)]
  · have hnot : ¬ HasStub interrupt := by
      unfold IDT_SIZE at hi
      rintro (hlt | rfl)
      · omega
      · exact hi (by decide)
    have hlimit : ¬ 8 * interrupt + 7 ≤ 2047 := by
      unfold IDT_SIZE at hi
      omega
    rw [if_neg hlimit, if_neg hnot]

/-- Whatever the statics held before, each interrupt that the kernel knows has the gate of its
own stub, which disables interrupts, and no other interrupt has a gate. The rest of the
memory stays, but for the log. -/
theorem every_interrupt_has_its_own_stub {s : BootCpu} {a : IdtStatics} (h : a.Apart)
    (hlog : LogAt s.log s.mem) (hout : a.ApartFrom s.log) (stubs : Stubs) :
    (∀ interrupt, lookup_gate (idt_init s a stubs).mem (idt_init s a stubs).idtr interrupt =
      if HasStub interrupt then some (stubs.gate interrupt) else none) ∧
    ∀ x, a.Outside x → OutsideLog s.log x → (idt_init s a stubs).mem x = s.mem x := by
  have hinit := idt_init_spec h hlog hout stubs
  refine ⟨fun interrupt => ?_, hinit.frame⟩
  rw [hinit.idtr]
  exact lookup_gated hinit.gate interrupt

/-- The gates and the pointer to them, and stubs of 16 bytes. -/
def sampleGates : IdtStatics := ⟨0xC0130000, 0xC0130800⟩

def sampleStubs : Stubs :=
  ⟨fun i => 0xC0100000 + 16 * i, fun i => 0xC0101000 + 16 * i, 0xC0102000⟩

theorem sample_gates_apart : sampleGates.Apart := ⟨by decide, by decide⟩

theorem sample_gates_log : sampleGates.ApartFrom sampleBootCpu.log := by
  intro x
  unfold IdtStatics.Outside OutsideLog sampleGates sampleBootCpu sampleLog SIZEOF_CIRCULAR_BUFFER
    MSG_BUFFER_SIZE SIZEOF_KMESSAGE_LOG
  dsimp only
  omega

/-- The keyboard's stub, in a table with room for nothing else behind it. -/
theorem the_keyboard_has_its_stub :
    lookup_gate (idt_init sampleBootCpu sampleGates sampleStubs).mem
      (idt_init sampleBootCpu sampleGates sampleStubs).idtr 33 =
      some ⟨0xC0101210, 0x08, 0xE, 0, 0, 1⟩ := by
  have hgate := (every_interrupt_has_its_own_stub sample_gates_apart sample_log_at sample_gates_log
    sampleStubs).1 33
  rw [hgate, if_pos (by decide)]
  rfl

end sakana_os
