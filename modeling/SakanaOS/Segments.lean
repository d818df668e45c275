-- The segments of `gdt.c` and `tss.c`: the descriptors in the memory, field by field as
-- the kernel writes them, and what the processor reads from their eight bytes.
import SakanaOS.KernelLog
import SakanaOS.Vmm

open byte_memory bit_fields

namespace sakana_os

/-! ## The tables of the kernel -/

/-- `sizeof(gdt_segment_descriptor_t)`. -/
def SIZEOF_SEGMENT_DESCRIPTOR : Nat := 8

/-- `sizeof(tss_segment_descriptor_t)`. -/
def SIZEOF_TSS : Nat := 108

inductive gdt_selector_t where
  | GDT_NULL_SELEKTOR
  | GDT_KERNEL_CODE_SELEKTOR
  | GDT_KERNEL_DATA_SELEKTOR
  | GDT_USER_CODE_SELEKTOR
  | GDT_USER_DATA_SELEKTOR
  | GDT_TASK_STATE_SELEKTOR
deriving DecidableEq

def gdt_selector_t.index : gdt_selector_t → Nat
  | GDT_NULL_SELEKTOR => 0
  | GDT_KERNEL_CODE_SELEKTOR => 1
  | GDT_KERNEL_DATA_SELEKTOR => 2
  | GDT_USER_CODE_SELEKTOR => 3
  | GDT_USER_DATA_SELEKTOR => 4
  | GDT_TASK_STATE_SELEKTOR => 5

def GDT_SIZE : Nat := 6

def GDT_FLAGS_GRANULARITY_MASK : Nat := 0b10000000
def GDT_FLAGS_SIZE_MASK : Nat := 0b01000000
def GDT_FLAGS_LONG_MODE_MASK : Nat := 0b00100000

def GDT_ACCESS_PRESENT_MASK : Nat := 0b10000000
def GDT_ACCESS_PRIVILEGE_LEVEL_MASK : Nat := 0b01100000
def GDT_ACCESS_DESCRIPTOR_TYPE_MASK : Nat := 0b00010000
def GDT_ACCESS_EXECUTABLE_MASK : Nat := 0b00001000
def GDT_ACCESS_DIRECTION_CONFORMING_MASK : Nat := 0b00000100
def GDT_ACCESS_READWRITE_MASK : Nat := 0b00000010
def GDT_ACCESS_ACCESSED_MASK : Nat := 0b00000001

def GDT_FLAGS_GRANULARITY_4KB : Nat := 0b10000000
def GDT_FLAGS_BIT_32_SEGMENT : Nat := 0b01000000

def GDT_ACCESS_PRESENT : Nat := 0b10000000
def GDT_ACCESS_RING0 : Nat := 0b00000000
def GDT_ACCESS_RING3 : Nat := 0b01100000
def GDT_ACCESS_STANDARD_SEGMENT : Nat := 0b00010000
def GDT_ACCESS_EXECUTABLE : Nat := 0b00001000
def GDT_ACCESS_DIRECTION_UP : Nat := 0b00000000
def GDT_ACCESS_READWRITE : Nat := 0b00000010
def GDT_ACCESS_ACCESSED : Nat := 0b00000001

/-- Where the linker places the statics of `gdt.c` and `tss.c`. -/
structure CpuTables where
  descriptors : Nat
  gdt : Nat
  tss : Nat

/-- `&descriptors[index]`. -/
def CpuTables.descriptor (a : CpuTables) (index : Nat) : Nat :=
  a.descriptors + SIZEOF_SEGMENT_DESCRIPTOR * index

-- The fields of a descriptor: the first four bytes, and the four behind them.
def set_limit_low (m : Mem) (d v : Nat) : Mem := set_entry_field m d 0 16 v
def set_base_low (m : Mem) (d v : Nat) : Mem := set_entry_field m d 16 16 v
def set_base_middle (m : Mem) (d v : Nat) : Mem := set_entry_field m (d + 4) 0 8 v
def set_accessed (m : Mem) (d v : Nat) : Mem := set_entry_field m (d + 4) 8 1 v
def set_readable (m : Mem) (d v : Nat) : Mem := set_entry_field m (d + 4) 9 1 v
def set_direction_conforming (m : Mem) (d v : Nat) : Mem := set_entry_field m (d + 4) 10 1 v
def set_executable (m : Mem) (d v : Nat) : Mem := set_entry_field m (d + 4) 11 1 v
def set_descriptor_type (m : Mem) (d v : Nat) : Mem := set_entry_field m (d + 4) 12 1 v
def set_privilege_level (m : Mem) (d v : Nat) : Mem := set_entry_field m (d + 4) 13 2 v
def set_descriptor_present (m : Mem) (d v : Nat) : Mem := set_entry_field m (d + 4) 15 1 v
def set_limit_high (m : Mem) (d v : Nat) : Mem := set_entry_field m (d + 4) 16 4 v
def set_reserved (m : Mem) (d v : Nat) : Mem := set_entry_field m (d + 4) 20 1 v
def set_long_mode (m : Mem) (d v : Nat) : Mem := set_entry_field m (d + 4) 21 1 v
def set_segment_size (m : Mem) (d v : Nat) : Mem := set_entry_field m (d + 4) 22 1 v
def set_granularity (m : Mem) (d v : Nat) : Mem := set_entry_field m (d + 4) 23 1 v
def set_base_high (m : Mem) (d v : Nat) : Mem := set_entry_field m (d + 4) 24 8 v

def gdt_init_descriptor (m : Mem) (a : CpuTables) (selector : gdt_selector_t)
    (base limit access flags : Nat) : Mem :=
  let d := a.descriptor selector.index
  -- Setup fractional base address
  let m := set_base_low m d (base &&& 0xFFFF)
  let m := set_base_middle m d ((base >>> 16) &&& 0xFF)
  let m := set_base_high m d ((base >>> 24) &&& 0xFF)
  -- Setup fractional limit
  let m := set_limit_low m d (limit &&& 0xFFFF)
  let m := set_limit_high m d ((limit >>> 16) &&& 0x0F)
  -- Setup access flags
  let m := set_accessed m d ((access &&& GDT_ACCESS_ACCESSED_MASK) >>> 0)
  let m := set_readable m d ((access &&& GDT_ACCESS_READWRITE_MASK) >>> 1)
  let m := set_direction_conforming m d ((access &&& GDT_ACCESS_DIRECTION_CONFORMING_MASK) >>> 2)
  let m := set_executable m d ((access &&& GDT_ACCESS_EXECUTABLE_MASK) >>> 3)
  let m := set_descriptor_type m d ((access &&& GDT_ACCESS_DESCRIPTOR_TYPE_MASK) >>> 4)
  let m := set_privilege_level m d ((access &&& GDT_ACCESS_PRIVILEGE_LEVEL_MASK) >>> 5)
  let m := set_descriptor_present m d ((access &&& GDT_ACCESS_PRESENT_MASK) >>> 7)
  -- Setup flags
  let m := set_reserved m d 0
  let m := set_long_mode m d ((flags &&& GDT_FLAGS_LONG_MODE_MASK) >>> 5)
  let m := set_segment_size m d ((flags &&& GDT_FLAGS_SIZE_MASK) >>> 6)
  set_granularity m d ((flags &&& GDT_FLAGS_GRANULARITY_MASK) >>> 7)

/-- The turn of the first loop of `gdt_init`: all fields of a descriptor become 0. -/
def gdt_clear_descriptor (m : Mem) (a : CpuTables) (selector : Nat) : Mem :=
  let d := a.descriptor selector
  let m := set_limit_low m d 0
  let m := set_base_low m d 0
  let m := set_base_middle m d 0
  let m := set_accessed m d 0
  let m := set_readable m d 0
  let m := set_direction_conforming m d 0
  let m := set_executable m d 0
  let m := set_descriptor_type m d 0
  let m := set_privilege_level m d 0
  let m := set_descriptor_present m d 0
  let m := set_limit_high m d 0
  let m := set_reserved m d 0
  let m := set_long_mode m d 0
  let m := set_segment_size m d 0
  let m := set_granularity m d 0
  set_base_high m d 0

/-- The address and the limit of a table, as `lgdt` and `lidt` load them. -/
structure TableRegister where
  base : Nat
  limit : Nat

/-- `lgdt` and `lidt`: two bytes of limit, four bytes of base. -/
def load_table (m : Mem) (table : Nat) : TableRegister := ⟨load32 m (table + 2), load16 m table⟩

/-- The memory and the log of the kernel while the boot sets up the tables, and the registers
of the processor that lead to them. -/
structure BootCpu where
  mem : Mem
  log : circular_buffer
  gdtr : TableRegister
  idtr : TableRegister
  /-- The task register. -/
  tr : Nat
  cs : Nat
  /-- `ds`, `es`, `fs`, `gs` and `ss`, which are loaded with one selector. -/
  ds : Nat

def BootCpu.kmessage (s : BootCpu) (level : Int32) (message : CString) : BootCpu :=
  let r := sakana_os.kmessage s.log s.mem level message
  { s with log := r.1, mem := r.2 }

/-- The processor marks the descriptor of a segment that it loads. -/
def mark_accessed (m : Mem) (gdtr : TableRegister) (selector : Nat) : Mem :=
  set_accessed m (gdtr.base + 8 * (selector / 8)) 1

def gdt_flush (s : BootCpu) (gdt_ptr : Nat) : BootCpu :=
  let gdtr := load_table s.mem gdt_ptr
  -- `jmp 0x08:.gdt_setup`, and the five loads behind it
  let m := mark_accessed s.mem gdtr 0x08
  let m := mark_accessed m gdtr 0x10
  { s with mem := m, gdtr := gdtr, cs := 0x08, ds := 0x10 }

def gdtMessage : CString := ⟨literal "cpu: GDT initialized", by decide +kernel, by decide +kernel⟩

def gdt_init (s : BootCpu) (a : CpuTables) : BootCpu :=
  let m := s.mem
  let m := (List.range GDT_SIZE).foldl (fun m selector => gdt_clear_descriptor m a selector) m
  let m := gdt_init_descriptor m a .GDT_NULL_SELEKTOR 0 0 0 0
  let m := gdt_init_descriptor m a .GDT_KERNEL_CODE_SELEKTOR 0x00000000 0x000FFFFF
    (GDT_ACCESS_PRESENT ||| GDT_ACCESS_RING0 ||| GDT_ACCESS_STANDARD_SEGMENT |||
      GDT_ACCESS_EXECUTABLE ||| GDT_ACCESS_READWRITE)
    (GDT_FLAGS_GRANULARITY_4KB ||| GDT_FLAGS_BIT_32_SEGMENT)
  let m := gdt_init_descriptor m a .GDT_KERNEL_DATA_SELEKTOR 0x00000000 0x000FFFFF
    (GDT_ACCESS_PRESENT ||| GDT_ACCESS_RING0 ||| GDT_ACCESS_STANDARD_SEGMENT |||
      GDT_ACCESS_DIRECTION_UP ||| GDT_ACCESS_READWRITE)
    (GDT_FLAGS_GRANULARITY_4KB ||| GDT_FLAGS_BIT_32_SEGMENT)
  let m := gdt_init_descriptor m a .GDT_USER_CODE_SELEKTOR 0x00000000 0x000FFFFF
    (GDT_ACCESS_PRESENT ||| GDT_ACCESS_RING3 ||| GDT_ACCESS_STANDARD_SEGMENT |||
      GDT_ACCESS_EXECUTABLE ||| GDT_ACCESS_READWRITE)
    (GDT_FLAGS_GRANULARITY_4KB ||| GDT_FLAGS_BIT_32_SEGMENT)
  let m := gdt_init_descriptor m a .GDT_USER_DATA_SELEKTOR 0x00000000 0x000FFFFF
    (GDT_ACCESS_PRESENT ||| GDT_ACCESS_RING3 ||| GDT_ACCESS_STANDARD_SEGMENT |||
      GDT_ACCESS_DIRECTION_UP ||| GDT_ACCESS_READWRITE)
    (GDT_FLAGS_GRANULARITY_4KB ||| GDT_FLAGS_BIT_32_SEGMENT)
  let m := store32 m (a.gdt + 2) a.descriptors
  let m := store16 m a.gdt (SIZEOF_SEGMENT_DESCRIPTOR * GDT_SIZE - 1)
  let s := gdt_flush { s with mem := m } a.gdt
  s.kmessage (.ofNat KMESSAGE_LEVEL_INFO) gdtMessage

def gdt_get_selector_value (selector : gdt_selector_t) (r : Nat) : Nat :=
  let ti := 0
  add32 (add32 (selector.index <<< 3) (ti <<< 2)) r

/-- The two fields of the TSS that the processor reads when an interrupt raises the
privilege: where `ss0` and `esp0` lie. -/
def tss_update_ring0_stack (m : Mem) (a : CpuTables) (ss0 esp0 : Nat) : Mem :=
  let m := store16 m (a.tss + 8) ss0
  store32 m (a.tss + 4) esp0

/-- `ltr`, which marks the descriptor of the task as busy: the bit that tells readable code is
the one that tells a busy task. -/
def tss_flush (s : BootCpu) : BootCpu :=
  { s with mem := set_readable s.mem (s.gdtr.base + 8 * (0x2B / 8)) 1, tr := 0x2B }

def tssMessage : CString := ⟨literal "cpu: TSS initialized", by decide +kernel, by decide +kernel⟩

def tss_init (s : BootCpu) (a : CpuTables) (ss0 esp0 : Nat) : BootCpu :=
  let tss_base := a.tss
  let tss_limit := SIZEOF_TSS
  let m := gdt_init_descriptor s.mem a .GDT_TASK_STATE_SELEKTOR tss_base tss_limit
    (GDT_ACCESS_PRESENT ||| GDT_ACCESS_RING3 ||| GDT_ACCESS_EXECUTABLE ||| GDT_ACCESS_ACCESSED)
    0x00
  let m := fill m a.tss 0 SIZEOF_TSS
  let m := store16 m (a.tss + 8) ss0
  let m := store32 m (a.tss + 4) esp0
  let m := store16 m (a.tss + 76) (gdt_get_selector_value .GDT_KERNEL_CODE_SELEKTOR 3)
  let m := store16 m (a.tss + 80) (gdt_get_selector_value .GDT_KERNEL_DATA_SELEKTOR 3)
  let m := store16 m (a.tss + 84) (gdt_get_selector_value .GDT_KERNEL_DATA_SELEKTOR 3)
  let m := store16 m (a.tss + 72) (gdt_get_selector_value .GDT_KERNEL_DATA_SELEKTOR 3)
  let m := store16 m (a.tss + 88) (gdt_get_selector_value .GDT_KERNEL_DATA_SELEKTOR 3)
  let m := store16 m (a.tss + 92) (gdt_get_selector_value .GDT_KERNEL_DATA_SELEKTOR 3)
  let s := tss_flush { s with mem := m }
  s.kmessage (.ofNat KMESSAGE_LEVEL_INFO) tssMessage

/-! ## The segments of the processor -/

/-- What the processor reads from a descriptor. -/
structure Segment where
  base : Nat
  limit : Nat
  accessed : Nat
  read_write : Nat
  direction_conforming : Nat
  executable : Nat
  descriptor_type : Nat
  privilege_level : Nat
  present : Nat
  long_mode : Nat
  size : Nat
  granularity : Nat
deriving DecidableEq

/-- The descriptor of eight bytes at `d`. -/
def segment_at (m : Mem) (d : Nat) : Segment :=
  let low := load32 m d
  let high := load32 m (d + 4)
  ⟨field low 16 16 + 2 ^ 16 * field high 0 8 + 2 ^ 24 * field high 24 8,
    field low 0 16 + 2 ^ 16 * field high 16 4, field high 8 1, field high 9 1, field high 10 1,
    field high 11 1, field high 12 1, field high 13 2, field high 15 1, field high 21 1,
    field high 22 1, field high 23 1⟩

namespace Segment

/-- The last offset that the limit stands for. -/
def top (s : Segment) : Nat := if s.granularity = 1 then s.limit * 4096 + 4095 else s.limit

def isCode (s : Segment) : Bool := s.present == 1 && s.descriptor_type == 1 && s.executable == 1

/-- Data, or code that can be read. -/
def isReadable (s : Segment) : Bool :=
  s.present == 1 && s.descriptor_type == 1 && (s.executable == 0 || s.read_write == 1)

/-- Data that can be written. -/
def isWritable (s : Segment) : Bool :=
  s.present == 1 && s.descriptor_type == 1 && s.executable == 0 && s.read_write == 1

/-- The offsets of a data segment that grows down are those above its limit. -/
def contains (s : Segment) (offset : Nat) : Bool :=
  if s.executable = 0 ∧ s.direction_conforming = 1 then
    decide (s.top < offset) && decide (offset < if s.size = 1 then 2 ^ 32 else 2 ^ 16)
  else decide (offset ≤ s.top)

/-- The linear address of an offset. -/
def linear (s : Segment) (offset : Nat) : Option Nat :=
  if s.contains offset then some (add32 s.base offset) else none

end Segment

/-- The segment of a selector. `none` for the null selector, for one of a local table,
and behind the end of the table. -/
def lookup_segment (m : Mem) (gdtr : TableRegister) (selector : Nat) : Option Segment :=
  let index := selector / 8
  if index = 0 then none
  else if field selector 2 1 = 1 then none
  else if 8 * index + 7 ≤ gdtr.limit then some (segment_at m (gdtr.base + 8 * index))
  else none

/-! ## The fields that were written -/

/-- A mask followed by the shift to its lowest bit takes a field out. -/
theorem masked_field (w lo n : Nat) : (w &&& ((2 ^ n - 1) <<< lo)) >>> lo = field w lo n := by
  unfold field
  rw [Nat.shiftRight_and_distrib, Nat.shiftLeft_shiftRight, Nat.and_two_pow_sub_one_eq_mod,
    Nat.shiftRight_eq_div_pow]

/-- A shift followed by a mask of the low bits takes a field out. -/
theorem shifted_field (w lo n : Nat) : (w >>> lo) &&& (2 ^ n - 1) = field w lo n := by
  rw [Nat.and_two_pow_sub_one_eq_mod, Nat.shiftRight_eq_div_pow]
  rfl

theorem field_mod (w lo n : Nat) : field w lo n % 2 ^ n = field w lo n :=
  Nat.mod_eq_of_lt (field_lt w lo n)

theorem setField_word_lt (m : Mem) (e v : Nat) {lo n : Nat} (h : lo + n ≤ 32) :
    setField (load32 m e) lo n v < 4294967296 := by
  have hword := load32_lt m e
  exact setField_lt v 32 hword h

theorem entry_field_same (m : Mem) (e v : Nat) {lo n : Nat} (h : lo + n ≤ 32) :
    field (load32 (set_entry_field m e lo n v) e) lo n = v % 2 ^ n := by
  unfold set_entry_field
  rw [load32_store32 _ _ (setField_word_lt m e v h), field_setField]

theorem entry_field_other (m : Mem) (e v : Nat) {lo n lo' n' : Nat} (h : lo + n ≤ 32)
    (hne : lo' + n' ≤ lo ∨ lo + n ≤ lo') :
    field (load32 (set_entry_field m e lo n v) e) lo' n' = field (load32 m e) lo' n' := by
  unfold set_entry_field
  rw [load32_store32 _ _ (setField_word_lt m e v h), field_setField_ne _ _ hne]

theorem entry_word_other (m : Mem) {e e' : Nat} (lo n v : Nat) (h : e' + 4 ≤ e ∨ e + 4 ≤ e') :
    load32 (set_entry_field m e lo n v) e' = load32 m e' := load32_store32_ne m _ h

theorem entry_frame (m : Mem) {e x : Nat} (lo n v : Nat) (h : x < e ∨ e + 4 ≤ x) :
    set_entry_field m e lo n v x = m x := store32_frame m _ h

/-- The segment that a descriptor is asked to describe: a base of 32 bits, the low 20 bits
of the limit, and the flags. -/
def segmentOf (base limit access flags : Nat) : Segment :=
  ⟨base % 2 ^ 32, limit % 2 ^ 20, field access 0 1, field access 1 1, field access 2 1,
    field access 3 1, field access 4 1, field access 5 2, field access 7 1, field flags 5 1,
    field flags 6 1, field flags 7 1⟩

section

variable (m : Mem) (a : CpuTables) (selector : gdt_selector_t) (base limit access flags : Nat)

theorem init_descriptor_frame {x : Nat} (h : x < a.descriptor selector.index ∨
    a.descriptor selector.index + 8 ≤ x) :
    gdt_init_descriptor m a selector base limit access flags x = m x := by
  unfold gdt_init_descriptor
  simp (disch := omega) only [set_base_low, set_base_middle, set_base_high, set_limit_low,
    set_limit_high, set_accessed, set_readable, set_direction_conforming, set_executable,
    set_descriptor_type, set_privilege_level, set_descriptor_present, set_reserved, set_long_mode,
    set_segment_size, set_granularity, entry_frame]

/-- The processor reads from a descriptor what was asked for. -/
theorem segment_at_init :
    segment_at (gdt_init_descriptor m a selector base limit access flags)
      (a.descriptor selector.index) = segmentOf base limit access flags := by
  have hbase : base % 2 ^ 16 + 2 ^ 16 * field base 16 8 + 2 ^ 24 * field base 24 8 =
      base % 2 ^ 32 := by
    unfold field
    omega
  have hlimit : limit % 2 ^ 16 + 2 ^ 16 * field limit 16 4 = limit % 2 ^ 20 := by
    unfold field
    omega
  have hwhole : ∀ w, field w 0 16 = w % 2 ^ 16 := fun w => by rw [field, pow_zero, Nat.div_one]
  have hlow : ∀ w : Nat, w &&& 0xFFFF = field w 0 16 := fun w => shifted_field w 0 16
  have hbyte : ∀ w lo : Nat, (w >>> lo) &&& 0xFF = field w lo 8 := fun w lo => shifted_field w lo 8
  have hnibble : ∀ w lo : Nat, (w >>> lo) &&& 0x0F = field w lo 4 :=
    fun w lo => shifted_field w lo 4
  have h0 : (access &&& GDT_ACCESS_ACCESSED_MASK) >>> 0 = field access 0 1 := masked_field _ 0 1
  have h1 : (access &&& GDT_ACCESS_READWRITE_MASK) >>> 1 = field access 1 1 := masked_field _ 1 1
  have h2 : (access &&& GDT_ACCESS_DIRECTION_CONFORMING_MASK) >>> 2 = field access 2 1 :=
    masked_field _ 2 1
  have h3 : (access &&& GDT_ACCESS_EXECUTABLE_MASK) >>> 3 = field access 3 1 := masked_field _ 3 1
  have h4 : (access &&& GDT_ACCESS_DESCRIPTOR_TYPE_MASK) >>> 4 = field access 4 1 :=
    masked_field _ 4 1
  have h5 : (access &&& GDT_ACCESS_PRIVILEGE_LEVEL_MASK) >>> 5 = field access 5 2 :=
    masked_field _ 5 2
  have h7 : (access &&& GDT_ACCESS_PRESENT_MASK) >>> 7 = field access 7 1 := masked_field _ 7 1
  have hlong : (flags &&& GDT_FLAGS_LONG_MODE_MASK) >>> 5 = field flags 5 1 := masked_field _ 5 1
  have hsize : (flags &&& GDT_FLAGS_SIZE_MASK) >>> 6 = field flags 6 1 := masked_field _ 6 1
  have hgran : (flags &&& GDT_FLAGS_GRANULARITY_MASK) >>> 7 = field flags 7 1 :=
    masked_field _ 7 1
  unfold segment_at segmentOf gdt_init_descriptor
  simp only [set_base_low, set_base_middle, set_base_high, set_limit_low, set_limit_high,
    set_accessed, set_readable, set_direction_conforming, set_executable, set_descriptor_type,
    set_privilege_level, set_descriptor_present, set_reserved, set_long_mode, set_segment_size,
    set_granularity, hlow, hbyte, hnibble, h0, h1, h2, h3, h4, h5, h7, hlong, hsize, hgran]
  simp (disch := omega) only [entry_word_other, entry_field_same, entry_field_other, field_mod]
  rw [hwhole, hwhole, hbase, hlimit]

theorem segment_at_congr {m m' : Mem} {d : Nat} (h : ∀ x, d ≤ x → x < d + 8 → m' x = m x) :
    segment_at m' d = segment_at m d := by
  have hlow : load32 m' d = load32 m d := load32_congr fun x h1 h2 => h x h1 (by omega)
  have hhigh : load32 m' (d + 4) = load32 m (d + 4) :=
    load32_congr fun x h1 h2 => h x (by omega) (by omega)
  unfold segment_at
  rw [hlow, hhigh]

/-- The other descriptors of the table stay. -/
theorem segment_at_init_other {index : Nat} (h : index ≠ selector.index) :
    segment_at (gdt_init_descriptor m a selector base limit access flags) (a.descriptor index) =
      segment_at m (a.descriptor index) := by
  apply segment_at_congr
  intro x h1 h2
  apply init_descriptor_frame
  unfold CpuTables.descriptor SIZEOF_SEGMENT_DESCRIPTOR at *
  omega

/-- A descriptor reads back as it was asked for: the whole base and 20 bits of the limit,
each out of its parts, and every flag. No other byte changes, and no other descriptor. -/
theorem a_descriptor_reads_back :
    segment_at (gdt_init_descriptor m a selector base limit access flags)
        (a.descriptor selector.index) = segmentOf base limit access flags ∧
      (∀ index, index ≠ selector.index →
        segment_at (gdt_init_descriptor m a selector base limit access flags)
          (a.descriptor index) = segment_at m (a.descriptor index)) ∧
      ∀ x, (x < a.descriptor selector.index ∨ a.descriptor selector.index + 8 ≤ x) →
        gdt_init_descriptor m a selector base limit access flags x = m x :=
  ⟨segment_at_init m a selector base limit access flags,
    fun _ h => segment_at_init_other m a selector base limit access flags h,
    fun _ h => init_descriptor_frame m a selector base limit access flags h⟩

theorem clear_descriptor_frame {selector x : Nat}
    (h : x < a.descriptor selector ∨ a.descriptor selector + 8 ≤ x) :
    gdt_clear_descriptor m a selector x = m x := by
  unfold gdt_clear_descriptor
  simp (disch := omega) only [set_base_low, set_base_middle, set_base_high, set_limit_low,
    set_limit_high, set_accessed, set_readable, set_direction_conforming, set_executable,
    set_descriptor_type, set_privilege_level, set_descriptor_present, set_reserved, set_long_mode,
    set_segment_size, set_granularity, entry_frame]

end

/-! ## The tables after the boot -/

/-- The linker gives the three statics addresses apart. -/
structure CpuTables.Apart (a : CpuTables) : Prop where
  gdt : a.gdt + 6 ≤ a.descriptors ∨ a.descriptors + 48 ≤ a.gdt
  tss : a.tss + 108 ≤ a.descriptors ∨ a.descriptors + 48 ≤ a.tss
  gdt_tss : a.gdt + 6 ≤ a.tss ∨ a.tss + 108 ≤ a.gdt
  descriptors_top : a.descriptors + 48 ≤ 4294967296
  tss_top : a.tss + 108 ≤ 4294967296

/-- The address lies in none of the three statics. -/
def CpuTables.Outside (a : CpuTables) (x : Nat) : Prop :=
  (x < a.descriptors ∨ a.descriptors + 48 ≤ x) ∧ (x < a.gdt ∨ a.gdt + 6 ≤ x) ∧
    (x < a.tss ∨ a.tss + 108 ≤ x)

theorem store16_frame (m : Mem) {p x : Nat} (v : Nat) (h : x < p ∨ p + 2 ≤ x) :
    store16 m p v x = m x := storeList_frame m p _ x h

theorem load16_store16 (m : Mem) (p : Nat) {v : Nat} (h : v < 65536) :
    load16 (store16 m p v) p = v := by
  have h0 := storeList_inside m p [UInt8.ofNat v, UInt8.ofNat (v / 256)] 0 (by simp)
  have h1 := storeList_inside m p [UInt8.ofNat v, UInt8.ofNat (v / 256)] 1 (by simp)
  simp only [Nat.add_zero, List.getElem_cons_zero, List.getElem_cons_succ] at h0 h1
  unfold load16 store16
  rw [h0, h1, UInt8.toNat_ofNat', UInt8.toNat_ofNat']
  omega

theorem load16_congr {m m' : Mem} {p : Nat} (h : ∀ x, p ≤ x → x < p + 2 → m' x = m x) :
    load16 m' p = load16 m p := by
  unfold load16
  rw [h p (by omega) (by omega), h (p + 1) (by omega) (by omega)]

theorem load16_store32_ne (m : Mem) {p q : Nat} (v : Nat) (h : q + 2 ≤ p ∨ p + 4 ≤ q) :
    load16 (store32 m p v) q = load16 m q :=
  load16_congr fun x h1 h2 => store32_frame m v (by omega)

theorem load32_store16_ne (m : Mem) {p q : Nat} (v : Nat) (h : q + 4 ≤ p ∨ p + 2 ≤ q) :
    load32 (store16 m p v) q = load32 m q :=
  load32_congr fun x h1 h2 => store16_frame m v (by omega)

/-- The access byte of a selector once the tables are in use: the processor has marked the two
segments of the kernel and the task state. -/
def gdt_selector_t.access : gdt_selector_t → Nat
  | GDT_NULL_SELEKTOR => 0
  | GDT_KERNEL_CODE_SELEKTOR => 0x9B
  | GDT_KERNEL_DATA_SELEKTOR => 0x93
  | GDT_USER_CODE_SELEKTOR => 0xFA
  | GDT_USER_DATA_SELEKTOR => 0xF2
  | GDT_TASK_STATE_SELEKTOR => 0xEB

/-- The selectors of code and data. -/
def gdt_selector_t.Standard (selector : gdt_selector_t) : Prop :=
  selector ≠ .GDT_NULL_SELEKTOR ∧ selector ≠ .GDT_TASK_STATE_SELEKTOR

/-- A mark of the processor is one bit of the descriptor. -/
theorem segment_at_accessed (m : Mem) (d : Nat) :
    segment_at (set_accessed m d 1) d = { segment_at m d with accessed := 1 } := by
  unfold segment_at set_accessed
  simp (disch := omega) only [entry_word_other, entry_field_same, entry_field_other]
  rfl

theorem segment_at_busy (m : Mem) (d : Nat) :
    segment_at (set_readable m d 1) d = { segment_at m d with read_write := 1 } := by
  unfold segment_at set_readable
  simp (disch := omega) only [entry_word_other, entry_field_same, entry_field_other]
  rfl

/-! ## What a function of the boot keeps -/

/-- The linker places the statics apart from the area that the log is allocated in. -/
def CpuTables.ApartFrom (a : CpuTables) (log : circular_buffer) : Prop :=
  ∀ x, a.Outside x ∨ OutsideLog log x

/-- No byte of a descriptor of the table lies in the log. -/
theorem CpuTables.ApartFrom.descriptor {a : CpuTables} {log : circular_buffer}
    (h : a.ApartFrom log) {index : Nat} (hindex : index ≤ 5) {x : Nat}
    (h1 : a.descriptor index ≤ x) (h2 : x < a.descriptor index + 8) : OutsideLog log x := by
  refine (h x).resolve_left fun hout => ?_
  have hdescriptors := hout.1
  unfold CpuTables.descriptor SIZEOF_SEGMENT_DESCRIPTOR at *
  omega

/-- The log stays where it is. -/
structure LogKept (s t : BootCpu) : Prop where
  log : LogAt t.log t.mem
  buffer : t.log.buffer = s.log.buffer

theorem LogKept.trans {s t u : BootCpu} (h : LogKept s t) (h' : LogKept t u) : LogKept s u :=
  ⟨h'.log, h'.buffer.trans h.buffer⟩

theorem LogKept.outside {s t : BootCpu} (h : LogKept s t) {x : Nat} :
    OutsideLog t.log x ↔ OutsideLog s.log x := by
  unfold OutsideLog
  rw [h.buffer]

section

variable {s : BootCpu} {m : Mem} (hlog : LogAt s.log m) (level : Int32) (message : CString)
include hlog

theorem BootCpu.kmessage_kept : LogKept s (s.kmessage level message) :=
  ⟨(kmessage_spec (hlog.stored s.mem) (level, message)).1,
    (kmessage_frame (hlog.stored s.mem) level message).1⟩

theorem BootCpu.kmessage_mem {x : Nat} (hx : OutsideLog s.log x) :
    (s.kmessage level message).mem x = s.mem x :=
  (kmessage_frame (hlog.stored s.mem) level message).2 x hx

end

/-! ## The segments of the boot -/

/-- What `gdt_init` stores before it loads the table. -/
def gdt_lines (m : Mem) (a : CpuTables) : Mem :=
  let m := (List.range GDT_SIZE).foldl (fun m selector => gdt_clear_descriptor m a selector) m
  let m := gdt_init_descriptor m a .GDT_NULL_SELEKTOR 0 0 0 0
  let m := gdt_init_descriptor m a .GDT_KERNEL_CODE_SELEKTOR 0 0xFFFFF 0x9A 0xC0
  let m := gdt_init_descriptor m a .GDT_KERNEL_DATA_SELEKTOR 0 0xFFFFF 0x92 0xC0
  let m := gdt_init_descriptor m a .GDT_USER_CODE_SELEKTOR 0 0xFFFFF 0xFA 0xC0
  let m := gdt_init_descriptor m a .GDT_USER_DATA_SELEKTOR 0 0xFFFFF 0xF2 0xC0
  let m := store32 m (a.gdt + 2) a.descriptors
  store16 m a.gdt 47

theorem gdt_init_lines (s : BootCpu) (a : CpuTables) : gdt_init s a =
    (gdt_flush { s with mem := gdt_lines s.mem a } a.gdt).kmessage (.ofNat KMESSAGE_LEVEL_INFO)
      gdtMessage := rfl

theorem gdt_lines_frame (m : Mem) (a : CpuTables) {x : Nat} (h : a.Outside x) :
    gdt_lines m a x = m x := by
  obtain ⟨h1, h2, -⟩ := h
  have hindex : ∀ index, index < 6 → x < a.descriptor index ∨ a.descriptor index + 8 ≤ x := by
    intro index hlt
    unfold CpuTables.descriptor SIZEOF_SEGMENT_DESCRIPTOR
    omega
  have hclear : ((List.range GDT_SIZE).foldl (fun m selector => gdt_clear_descriptor m a selector)
      m) x = m x := by
    simp only [GDT_SIZE, List.range_succ, List.range_zero, List.nil_append, List.cons_append,
      List.foldl_cons, List.foldl_nil]
    simp (disch := exact hindex _ (by decide)) only [clear_descriptor_frame]
  unfold gdt_lines
  rw [store16_frame _ _ (by omega), store32_frame _ _ (by omega)]
  simp (disch := exact hindex _ (by decide)) only [init_descriptor_frame]
  exact hclear

/-- The access byte that `gdt_init` gives to a selector. -/
def gdt_selector_t.given : gdt_selector_t → Nat
  | GDT_KERNEL_CODE_SELEKTOR => 0x9A
  | GDT_KERNEL_DATA_SELEKTOR => 0x92
  | selector => selector.access

/-- The descriptors of code and data are flat, whatever stood in the table before. -/
theorem gdt_lines_segment (m : Mem) {a : CpuTables} (h : a.Apart) {selector : gdt_selector_t}
    (hselector : selector.Standard) :
    segment_at (gdt_lines m a) (a.descriptor selector.index) =
      segmentOf 0 0xFFFFF selector.given 0xC0 := by
  have hgdt := h.gdt
  have hbehind : ∀ m', segment_at (store16 (store32 m' (a.gdt + 2) a.descriptors) a.gdt 47)
      (a.descriptor selector.index) = segment_at m' (a.descriptor selector.index) := by
    intro m'
    have hindex : selector.index ≤ 5 := by cases selector <;> decide
    apply segment_at_congr
    intro x h1 h2
    unfold CpuTables.descriptor SIZEOF_SEGMENT_DESCRIPTOR at h1 h2
    rw [store16_frame _ _ (by omega), store32_frame _ _ (by omega)]
  unfold gdt_lines
  dsimp only
  rw [hbehind]
  obtain ⟨hnull, htask⟩ := hselector
  cases selector with
  | GDT_NULL_SELEKTOR => exact absurd rfl hnull
  | GDT_TASK_STATE_SELEKTOR => exact absurd rfl htask
  | GDT_USER_DATA_SELEKTOR => exact segment_at_init ..
  | GDT_USER_CODE_SELEKTOR =>
    rw [segment_at_init_other _ _ _ _ _ _ _ (by decide)]
    exact segment_at_init ..
  | GDT_KERNEL_DATA_SELEKTOR =>
    rw [segment_at_init_other _ _ _ _ _ _ _ (by decide),
      segment_at_init_other _ _ _ _ _ _ _ (by decide)]
    exact segment_at_init ..
  | GDT_KERNEL_CODE_SELEKTOR =>
    rw [segment_at_init_other _ _ _ _ _ _ _ (by decide),
      segment_at_init_other _ _ _ _ _ _ _ (by decide),
      segment_at_init_other _ _ _ _ _ _ _ (by decide)]
    exact segment_at_init ..

/-- `lgdt` loads the address of the descriptors, and a limit that ends with the last one. -/
theorem gdt_lines_register (m : Mem) {a : CpuTables} (h : a.Apart) :
    load_table (gdt_lines m a) a.gdt = ⟨a.descriptors, 47⟩ := by
  have htop := h.descriptors_top
  unfold gdt_lines load_table
  dsimp only
  rw [load16_store16 _ _ (by decide)]
  have hbase : ∀ m', load32 (store16 (store32 m' (a.gdt + 2) a.descriptors) a.gdt 47)
      (a.gdt + 2) = a.descriptors := by
    intro m'
    rw [load32_store16_ne _ _ (by omega), load32_store32 _ _ (by omega)]
  rw [hbase]

/-- The processor marks the two descriptors of the kernel. -/
def gdt_marked (m : Mem) (a : CpuTables) : Mem :=
  set_accessed (set_accessed (gdt_lines m a) (a.descriptor 1) 1) (a.descriptor 2) 1

theorem gdt_flush_eq (s : BootCpu) {a : CpuTables} (h : a.Apart) :
    gdt_flush { s with mem := gdt_lines s.mem a } a.gdt =
      { s with
        mem := gdt_marked s.mem a, gdtr := ⟨a.descriptors, 47⟩, cs := 0x08, ds := 0x10 } := by
  unfold gdt_flush
  simp only [gdt_lines_register s.mem h]
  rfl

theorem gdt_marked_segment (m : Mem) {a : CpuTables} (h : a.Apart) {selector : gdt_selector_t}
    (hselector : selector.Standard) :
    segment_at (gdt_marked m a) (a.descriptor selector.index) =
      segmentOf 0 0xFFFFF selector.access 0xC0 := by
  have hother : ∀ (m : Mem) (index : Nat), index ≠ selector.index →
      segment_at (set_accessed m (a.descriptor index) 1) (a.descriptor selector.index) =
        segment_at m (a.descriptor selector.index) := by
    intro m index hne
    apply segment_at_congr
    intro x h1 h2
    apply entry_frame
    unfold CpuTables.descriptor SIZEOF_SEGMENT_DESCRIPTOR at *
    omega
  have hlines := gdt_lines_segment m h hselector
  unfold gdt_marked
  obtain ⟨hnull, htask⟩ := hselector
  cases selector with
  | GDT_NULL_SELEKTOR => exact absurd rfl hnull
  | GDT_TASK_STATE_SELEKTOR => exact absurd rfl htask
  | GDT_KERNEL_CODE_SELEKTOR =>
    refine (hother _ 2 (by decide)).trans ((segment_at_accessed _ _).trans ?_)
    exact congrArg (fun d : Segment => { d with accessed := 1 }) hlines
  | GDT_KERNEL_DATA_SELEKTOR =>
    refine (segment_at_accessed _ _).trans ?_
    exact congrArg (fun d : Segment => { d with accessed := 1 })
      ((hother _ 1 (by decide)).trans hlines)
  | _ =>
    rw [hother _ 2 (by decide), hother _ 1 (by decide), hlines]
    rfl

theorem gdt_marked_frame (m : Mem) (a : CpuTables) {x : Nat} (h : a.Outside x) :
    gdt_marked m a x = m x := by
  have hslot : ∀ index, index < 6 →
      x < a.descriptor index + 4 ∨ a.descriptor index + 4 + 4 ≤ x := by
    intro index hlt
    have hdescriptors := h.1
    unfold CpuTables.descriptor SIZEOF_SEGMENT_DESCRIPTOR
    omega
  unfold gdt_marked set_accessed
  rw [entry_frame _ _ _ _ (hslot 2 (by decide)), entry_frame _ _ _ _ (hslot 1 (by decide)),
    gdt_lines_frame m a h]

/-- What `gdt_init` leaves. -/
structure Segmented (a : CpuTables) (s t : BootCpu) : Prop extends LogKept s t where
  gdtr : t.gdtr = ⟨a.descriptors, 47⟩
  cs : t.cs = 0x08
  ds : t.ds = 0x10
  segment : ∀ selector : gdt_selector_t, selector.Standard →
    segment_at t.mem (a.descriptor selector.index) = segmentOf 0 0xFFFFF selector.access 0xC0
  frame : ∀ x, a.Outside x → OutsideLog s.log x → t.mem x = s.mem x

theorem gdt_init_spec {s : BootCpu} {a : CpuTables} (h : a.Apart) (hlog : LogAt s.log s.mem)
    (hout : a.ApartFrom s.log) : Segmented a s (gdt_init s a) := by
  rw [gdt_init_lines, gdt_flush_eq s h]
  have hkept := @BootCpu.kmessage_kept { s with
    mem := gdt_marked s.mem a, gdtr := ⟨a.descriptors, 47⟩, cs := 0x08, ds := 0x10 } _ hlog
    (.ofNat KMESSAGE_LEVEL_INFO) gdtMessage
  have hmem := fun {x : Nat} => @BootCpu.kmessage_mem { s with
    mem := gdt_marked s.mem a, gdtr := ⟨a.descriptors, 47⟩, cs := 0x08, ds := 0x10 } _ hlog
    (.ofNat KMESSAGE_LEVEL_INFO) gdtMessage x
  refine ⟨⟨hkept.log, hkept.buffer⟩, rfl, rfl, rfl, fun selector hselector => ?_, fun x ha hx => ?_⟩
  · have hindex : selector.index ≤ 5 := by cases selector <;> decide
    rw [← gdt_marked_segment s.mem h hselector]
    exact segment_at_congr fun x h1 h2 => hmem (hout.descriptor hindex h1 h2)
  · exact (hmem hx).trans (gdt_marked_frame s.mem a ha)

/-! ## The task state -/

/-- The stack that an interrupt of a lower privilege switches to. -/
def ring0_stack (m : Mem) (tss : Nat) : Nat × Nat := (load16 m (tss + 8), load32 m (tss + 4))

theorem tss_update_ring0_stack_eq (m : Mem) (a : CpuTables) {ss0 esp0 : Nat} (hss : ss0 < 65536)
    (hesp : esp0 < 4294967296) :
    ring0_stack (tss_update_ring0_stack m a ss0 esp0) a.tss = (ss0, esp0) := by
  unfold ring0_stack tss_update_ring0_stack
  dsimp only
  rw [load16_store32_ne _ _ (by omega), load16_store16 _ _ hss, load32_store32 _ _ hesp]

theorem tss_update_ring0_stack_frame (m : Mem) (a : CpuTables) (ss0 esp0 : Nat) {x : Nat}
    (h : x < a.tss ∨ a.tss + 108 ≤ x) : tss_update_ring0_stack m a ss0 esp0 x = m x := by
  unfold tss_update_ring0_stack
  rw [store32_frame _ _ (by omega), store16_frame _ _ (by omega)]

/-- What `tss_init` leaves when the table of the descriptors is loaded. -/
structure TaskSet (a : CpuTables) (s t : BootCpu) : Prop extends LogKept s t where
  gdtr : t.gdtr = s.gdtr
  idtr : t.idtr = s.idtr
  cs : t.cs = s.cs
  ds : t.ds = s.ds
  tr : t.tr = 0x2B
  task : segment_at t.mem (a.descriptor 5) = segmentOf a.tss 108 0xEB 0
  frame : ∀ x, (x < a.descriptor 5 ∨ a.descriptor 5 + 8 ≤ x) → (x < a.tss ∨ a.tss + 108 ≤ x) →
    OutsideLog s.log x → t.mem x = s.mem x

/-- What `tss_init` stores before it loads the task register. -/
def tss_lines (m : Mem) (a : CpuTables) (ss0 esp0 : Nat) : Mem :=
  let m := gdt_init_descriptor m a .GDT_TASK_STATE_SELEKTOR a.tss 108 0xE9 0
  let m := fill m a.tss 0 108
  let m := store16 m (a.tss + 8) ss0
  let m := store32 m (a.tss + 4) esp0
  let m := store16 m (a.tss + 76) (gdt_get_selector_value .GDT_KERNEL_CODE_SELEKTOR 3)
  let m := store16 m (a.tss + 80) (gdt_get_selector_value .GDT_KERNEL_DATA_SELEKTOR 3)
  let m := store16 m (a.tss + 84) (gdt_get_selector_value .GDT_KERNEL_DATA_SELEKTOR 3)
  let m := store16 m (a.tss + 72) (gdt_get_selector_value .GDT_KERNEL_DATA_SELEKTOR 3)
  let m := store16 m (a.tss + 88) (gdt_get_selector_value .GDT_KERNEL_DATA_SELEKTOR 3)
  store16 m (a.tss + 92) (gdt_get_selector_value .GDT_KERNEL_DATA_SELEKTOR 3)

theorem tss_init_lines (s : BootCpu) (a : CpuTables) (ss0 esp0 : Nat) : tss_init s a ss0 esp0 =
    (tss_flush { s with mem := tss_lines s.mem a ss0 esp0 }).kmessage
      (.ofNat KMESSAGE_LEVEL_INFO) tssMessage := rfl

theorem tss_lines_frame (m : Mem) (a : CpuTables) (ss0 esp0 : Nat) {x : Nat}
    (h : x < a.tss ∨ a.tss + 108 ≤ x) : tss_lines m a ss0 esp0 x =
      gdt_init_descriptor m a .GDT_TASK_STATE_SELEKTOR a.tss 108 0xE9 0 x := by
  unfold tss_lines
  simp (disch := omega) only [store16_frame, store32_frame, fill_frame]

theorem tss_init_spec {s : BootCpu} {a : CpuTables} (h : a.Apart) (hlog : LogAt s.log s.mem)
    (hout : a.ApartFrom s.log) (hgdtr : s.gdtr = ⟨a.descriptors, 47⟩) (ss0 esp0 : Nat) :
    TaskSet a s (tss_init s a ss0 esp0) := by
  have htss := h.tss
  have hflush : tss_flush { s with mem := tss_lines s.mem a ss0 esp0 } =
      { s with
        mem := set_readable (tss_lines s.mem a ss0 esp0) (a.descriptor 5) 1, tr := 0x2B } := by
    unfold tss_flush
    dsimp only
    rw [hgdtr]
    rfl
  rw [tss_init_lines, hflush]
  have hkept := @BootCpu.kmessage_kept { s with
    mem := set_readable (tss_lines s.mem a ss0 esp0) (a.descriptor 5) 1, tr := 0x2B } _ hlog
    (.ofNat KMESSAGE_LEVEL_INFO) tssMessage
  have hmem := fun {x : Nat} => @BootCpu.kmessage_mem { s with
    mem := set_readable (tss_lines s.mem a ss0 esp0) (a.descriptor 5) 1, tr := 0x2B } _ hlog
    (.ofNat KMESSAGE_LEVEL_INFO) tssMessage x
  refine ⟨⟨hkept.log, hkept.buffer⟩, rfl, rfl, rfl, rfl, rfl, ?_, fun x h1 h2 hx => ?_⟩
  · have hsegment : segment_at (tss_lines s.mem a ss0 esp0) (a.descriptor 5) =
        segmentOf a.tss 108 0xE9 0 := by
      refine Eq.trans (segment_at_congr fun x h1 h2 => tss_lines_frame s.mem a ss0 esp0 ?_)
        (segment_at_init s.mem a .GDT_TASK_STATE_SELEKTOR a.tss 108 0xE9 0)
      unfold CpuTables.descriptor SIZEOF_SEGMENT_DESCRIPTOR at h1 h2
      omega
    refine Eq.trans (segment_at_congr fun x h1 h2 =>
      hmem (hout.descriptor (Nat.le_refl 5) h1 h2)) ?_
    rw [segment_at_busy, hsegment]
    rfl
  · refine (hmem hx).trans ((entry_frame _ _ _ _ (by omega)).trans ?_)
    rw [tss_lines_frame s.mem a ss0 esp0 h2]
    exact init_descriptor_frame _ _ _ _ _ _ _ h1

/-! ## Flat addressing -/

theorem selector_value_eq (selector : gdt_selector_t) {r : Nat} (h : r < 4) :
    gdt_get_selector_value selector r = 8 * selector.index + r := by
  have hindex : selector.index ≤ 5 := by cases selector <;> decide
  unfold gdt_get_selector_value
  dsimp only
  have hshift : add32 (selector.index <<< 3) (0 <<< 2) = 8 * selector.index := by
    rw [Nat.shiftLeft_eq, Nat.zero_shiftLeft, add32_eq (by omega)]
    omega
  rw [hshift, add32_eq (by omega)]

/-- A selector of the kernel leads to its descriptor in the table. -/
theorem lookup_descriptor (m : Mem) (a : CpuTables) {selector : gdt_selector_t}
    (hnull : selector ≠ .GDT_NULL_SELEKTOR) {r : Nat} (hr : r < 4) :
    lookup_segment m ⟨a.descriptors, 47⟩ (gdt_get_selector_value selector r) =
      some (segment_at m (a.descriptor selector.index)) := by
  have hindex : 1 ≤ selector.index ∧ selector.index ≤ 5 := by
    cases selector with
    | GDT_NULL_SELEKTOR => exact absurd rfl hnull
    | _ => decide
  have hlocal : ¬ field (8 * selector.index + r) 2 1 = 1 := by
    unfold field
    omega
  have hlimit : 8 * selector.index + 7 ≤ 47 := by omega
  unfold lookup_segment
  rw [selector_value_eq selector hr, show (8 * selector.index + r) / 8 = selector.index by omega,
    if_neg (by omega), if_neg hlocal, if_pos hlimit]
  rfl

/-- The processor and the memory once the segments are set up, and the stack of the kernel is
written down. -/
def boot_segments (s : BootCpu) (a : CpuTables) (ss0 esp0 stack_segment stack_point : Nat) :
    BootCpu :=
  let s := gdt_init s a
  let s := tss_init s a ss0 esp0
  { s with mem := tss_update_ring0_stack s.mem a stack_segment stack_point }

/-- A segment from 0 on of 2 ^ 20 pages leaves every address as it is. -/
theorem flat_linear {access offset : Nat} (hup : field access 2 1 = 0)
    (h : offset < 4294967296) :
    (segmentOf 0 0xFFFFF access 0xC0).linear offset = some offset := by
  have hgran : field 0xC0 7 1 = 1 := by decide
  have htop : (segmentOf 0 0xFFFFF access 0xC0).top = 4294967295 := by
    unfold Segment.top
    rw [if_pos (show (segmentOf 0 0xFFFFF access 0xC0).granularity = 1 from hgran)]
    change 0xFFFFF % 2 ^ 20 * 4096 + 4095 = 4294967295
    norm_num
  have hdirection : ¬ ((segmentOf 0 0xFFFFF access 0xC0).executable = 0 ∧
      (segmentOf 0 0xFFFFF access 0xC0).direction_conforming = 1) := by
    rintro ⟨-, hdown⟩
    exact absurd (hup.symm.trans hdown) (by decide)
  have hbase : (segmentOf 0 0xFFFFF access 0xC0).base = 0 := rfl
  unfold Segment.linear Segment.contains
  rw [if_neg hdirection, htop, if_pos (decide_eq_true (Nat.le_of_lt_succ h)), hbase,
    add32_eq (by omega), Nat.zero_add]

section

variable {a : CpuTables} {s t : BootCpu}

/-- The segments of code and data stay when the task state is set up. -/
theorem TaskSet.segment (ht : TaskSet a s t) (h : a.Apart) (hout : a.ApartFrom s.log)
    {selector : gdt_selector_t} (hselector : selector.Standard) :
    segment_at t.mem (a.descriptor selector.index) =
      segment_at s.mem (a.descriptor selector.index) := by
  have hindex : selector.index ≤ 4 := by
    cases selector with
    | GDT_TASK_STATE_SELEKTOR => exact absurd rfl hselector.2
    | _ => decide
  have htss := h.tss
  refine segment_at_congr fun x h1 h2 => ht.frame x ?_ ?_ (hout.descriptor (by omega) h1 h2)
  · unfold CpuTables.descriptor SIZEOF_SEGMENT_DESCRIPTOR at *
    omega
  · unfold CpuTables.descriptor SIZEOF_SEGMENT_DESCRIPTOR at *
    omega

/-- No descriptor lies in the task state. -/
theorem segment_at_update (m : Mem) (h : a.Apart) (ss0 esp0 : Nat) {index : Nat}
    (hindex : index ≤ 5) : segment_at (tss_update_ring0_stack m a ss0 esp0) (a.descriptor index) =
      segment_at m (a.descriptor index) := by
  have htss := h.tss
  refine segment_at_congr fun x h1 h2 => tss_update_ring0_stack_frame m a ss0 esp0 ?_
  unfold CpuTables.descriptor SIZEOF_SEGMENT_DESCRIPTOR at *
  omega

theorem boot_segments_spec (h : a.Apart) (hlog : LogAt s.log s.mem) (hout : a.ApartFrom s.log)
    (ss0 esp0 stack_segment stack_point : Nat) :
    Segmented a s (boot_segments s a ss0 esp0 stack_segment stack_point) ∧
      (boot_segments s a ss0 esp0 stack_segment stack_point).tr = 0x2B ∧
      segment_at (boot_segments s a ss0 esp0 stack_segment stack_point).mem (a.descriptor 5) =
        segmentOf a.tss 108 0xEB 0 := by
  have hgdt := gdt_init_spec h hlog hout
  have hout' : a.ApartFrom (gdt_init s a).log :=
    fun x => (hout x).imp_right fun hx => hgdt.outside.mpr hx
  have htask := tss_init_spec h hgdt.log hout' hgdt.gdtr ss0 esp0
  have hkept := hgdt.toLogKept.trans htask.toLogKept
  unfold boot_segments
  dsimp only
  refine ⟨⟨⟨hkept.log.stored _, hkept.buffer⟩, htask.gdtr.trans hgdt.gdtr, htask.cs.trans hgdt.cs,
    htask.ds.trans hgdt.ds, fun selector hselector => ?_, fun x ha hx => ?_⟩, htask.tr, ?_⟩
  · have hindex : selector.index ≤ 5 := by cases selector <;> decide
    exact (segment_at_update _ h _ _ hindex).trans
      ((htask.segment h hout' hselector).trans (hgdt.segment selector hselector))
  · have hslot : x < a.descriptor 5 ∨ a.descriptor 5 + 8 ≤ x := by
      have hdescriptors := ha.1
      unfold CpuTables.descriptor SIZEOF_SEGMENT_DESCRIPTOR
      omega
    exact (tss_update_ring0_stack_frame _ _ _ _ ha.2.2).trans
      ((htask.frame x hslot ha.2.2 (hgdt.outside.mpr hx)).trans (hgdt.frame x ha hx))
  · exact (segment_at_update _ h _ _ (Nat.le_refl 5)).trans htask.task

end

/-- Four segments of code and data through which every address is its own linear address, with
the privilege of the kernel or of the user, a task state with the stack of the kernel, and no
other segments. -/
structure FlatSegments (a : CpuTables) (s t : BootCpu) (stack : Nat × Nat) : Prop where
  standard : ∀ selector : gdt_selector_t, selector.Standard → ∀ r < 4, ∃ d,
    lookup_segment t.mem t.gdtr (gdt_get_selector_value selector r) = some d ∧
      (d.isCode = true ↔ selector = .GDT_KERNEL_CODE_SELEKTOR ∨
        selector = .GDT_USER_CODE_SELEKTOR) ∧
      d.isReadable = true ∧
      d.privilege_level = (if selector = .GDT_USER_CODE_SELEKTOR ∨
        selector = .GDT_USER_DATA_SELEKTOR then 3 else 0) ∧
      ∀ offset < 4294967296, d.linear offset = some offset
  task : ∀ r < 4, lookup_segment t.mem t.gdtr (gdt_get_selector_value .GDT_TASK_STATE_SELEKTOR r) =
    some (segmentOf a.tss 108 0xEB 0)
  others : ∀ selector, (selector < 8 ∨ field selector 2 1 = 1 ∨ 48 ≤ selector) →
    lookup_segment t.mem t.gdtr selector = none
  loaded : t.cs = gdt_get_selector_value .GDT_KERNEL_CODE_SELEKTOR 0 ∧
    t.ds = gdt_get_selector_value .GDT_KERNEL_DATA_SELEKTOR 0 ∧
    t.tr = gdt_get_selector_value .GDT_TASK_STATE_SELEKTOR 3
  stack : ring0_stack t.mem a.tss = stack
  frame : ∀ x, a.Outside x → OutsideLog s.log x → t.mem x = s.mem x

/-- Whatever the statics held before, the boot leaves the flat segments, loads those of the
kernel, and marks the task as busy. The rest of the memory stays, but for the log. -/
theorem the_segments_are_flat {s : BootCpu} {a : CpuTables} (h : a.Apart)
    (hlog : LogAt s.log s.mem) (hout : a.ApartFrom s.log) (ss0 esp0 : Nat)
    {stack_segment stack_point : Nat} (hss : stack_segment < 65536)
    (hsp : stack_point < 4294967296) :
    FlatSegments a s (boot_segments s a ss0 esp0 stack_segment stack_point)
      (stack_segment, stack_point) := by
  obtain ⟨hsegments, htr, htask⟩ :=
    boot_segments_spec h hlog hout ss0 esp0 stack_segment stack_point
  have hstack : ring0_stack (boot_segments s a ss0 esp0 stack_segment stack_point).mem a.tss =
      (stack_segment, stack_point) := tss_update_ring0_stack_eq _ a hss hsp
  generalize boot_segments s a ss0 esp0 stack_segment stack_point = t at *
  have hgdtr := hsegments.gdtr
  refine ⟨?_, ?_, ?_, ⟨?_, ?_, ?_⟩, hstack, hsegments.frame⟩
  · intro selector hselector r hr
    rw [hgdtr]
    refine ⟨_, lookup_descriptor _ a hselector.1 hr, ?_⟩
    rw [hsegments.segment selector hselector]
    obtain ⟨hnull, htask⟩ := hselector
    cases selector with
    | GDT_NULL_SELEKTOR => exact absurd rfl hnull
    | GDT_TASK_STATE_SELEKTOR => exact absurd rfl htask
    | _ => exact ⟨by decide, by decide, by decide, fun _ ho => flat_linear (by decide) ho⟩
  · intro r hr
    rw [hgdtr, lookup_descriptor _ a (by decide) hr]
    exact congrArg some htask
  · intro selector hselector
    unfold lookup_segment
    rw [hgdtr]
    by_cases hnull : selector / 8 = 0
    · exact if_pos hnull
    · by_cases hlocal : field selector 2 1 = 1
      · rw [if_neg hnull, if_pos hlocal]
      · have hlimit : ¬ 8 * (selector / 8) + 7 ≤ 47 := by omega
        rw [if_neg hnull, if_neg hlocal, if_neg hlimit]
  · rw [hsegments.cs, selector_value_eq _ (by decide)]
    rfl
  · rw [hsegments.ds, selector_value_eq _ (by decide)]
    rfl
  · rw [htr, selector_value_eq _ (by decide)]
    rfl

/-- The three statics one behind the other. -/
def sampleTables : CpuTables := ⟨0xC0120000, 0xC0120030, 0xC0120040⟩

theorem sample_tables_apart : sampleTables.Apart :=
  ⟨by decide, by decide, by decide, by decide, by decide⟩

/-- The log as `kmessage_init` leaves it, behind a kernel image that ends at `0xC0200000`. -/
def sampleLog : circular_buffer :=
  ⟨0xC0200018, 0, 0, MSG_BUFFER_SIZE, SIZEOF_KMESSAGE_LOG, 0⟩

/-- The statics and the registers before the boot has touched them. -/
def sampleBootCpu : BootCpu := ⟨fun _ => 0xFF, sampleLog, ⟨0, 0⟩, ⟨0, 0⟩, 0, 0x10, 0x18⟩

theorem sample_log_at : LogAt sampleBootCpu.log sampleBootCpu.mem :=
  ⟨⟨⟨by decide, by decide, by decide⟩, ⟨by decide, rfl, by decide⟩⟩, rfl, rfl⟩

theorem sample_tables_log : sampleTables.ApartFrom sampleBootCpu.log := by
  intro x
  unfold CpuTables.Outside OutsideLog sampleTables sampleBootCpu sampleLog SIZEOF_CIRCULAR_BUFFER
    MSG_BUFFER_SIZE SIZEOF_KMESSAGE_LOG
  dsimp only
  omega

theorem the_sample_segments_are_flat :
    FlatSegments sampleTables sampleBootCpu
      (boot_segments sampleBootCpu sampleTables 0x10 0 0x10 0xC0200000) (0x10, 0xC0200000) :=
  the_segments_are_flat sample_tables_apart sample_log_at sample_tables_log 0x10 0 (by decide)
    (by decide)

end sakana_os
