-- The frame allocator of `pmm.c`: a bitmap with one bit for each frame, the count of
-- the frames in use, and the memory map that it starts from.
import SakanaOS.ArraySort
import SakanaOS.Bitmaps
import SakanaOS.Placement

open byte_memory bitmaps runs

namespace sakana_os

def PMM_PAS_SIZE : Nat := 0xFFFFFFFF
def PMM_PAS_BASE : Nat := 0x00000000
def PMM_FRAME_SIZE : Nat := PAGE_SIZE
def PMM_FRAMES_PER_BITMAP_BYTE : Nat := 8
def MULTIBOOT_MEMORY_AVAILABLE : Nat := 1

/-- `sizeof(pmm_memory_region_t)`: `base`, `length` and `type`, one word each. -/
def SIZEOF_REGION : Nat := 12

/-- `pmm_memory_t`, with `regions` and `bitmap` as addresses. -/
structure Pmm where
  regions : Nat
  num_regions : Nat
  region_size : Nat
  memory_size : Nat
  num_memory_frames : Nat
  num_memory_frames_used : Nat
  bitmap : Nat
  bitmap_size : Nat

/-- The frame allocator, with the kernel memory in which its tables lie. -/
structure Mm where
  kheap : Kheap
  pmm : Pmm

/-- An entry of the memory map of the boot loader: a 64-bit range and its type. -/
structure MmapEntry where
  addr : Nat
  len : Nat
  type : Nat
  deriving DecidableEq, Repr

def Mm.setMem (s : Mm) (m : Mem) : Mm := { s with kheap := { s.kheap with mem := m } }

/-! ## Frames -/

def pmm_address_to_index (address : Nat) : Nat := paging_frame_index address

def pmm_test_frame (s : Mm) (frame_idx : Nat) : Bool :=
  let block_idx := frame_idx / PMM_FRAMES_PER_BITMAP_BYTE
  let bit_idx := frame_idx % PMM_FRAMES_PER_BITMAP_BYTE
  (s.kheap.mem (s.pmm.bitmap + block_idx)).toNat &&& (1 <<< bit_idx) != 0

def pmm_set_frame (s : Mm) (frame_idx : Nat) : Mm :=
  if pmm_test_frame s frame_idx then s
  else
    let block_idx := frame_idx / PMM_FRAMES_PER_BITMAP_BYTE
    let bit_idx := frame_idx % PMM_FRAMES_PER_BITMAP_BYTE
    let byte := (s.kheap.mem (s.pmm.bitmap + block_idx)).toNat ||| (1 <<< bit_idx)
    { kheap := { s.kheap with
        mem := store8 s.kheap.mem (s.pmm.bitmap + block_idx) (UInt8.ofNat byte) }
      pmm := { s.pmm with
        num_memory_frames_used := add32 s.pmm.num_memory_frames_used 1 } }

def pmm_unset_frame (s : Mm) (frame_idx : Nat) : Mm :=
  if ¬ pmm_test_frame s frame_idx then s
  else
    let block_idx := frame_idx / PMM_FRAMES_PER_BITMAP_BYTE
    let bit_idx := frame_idx % PMM_FRAMES_PER_BITMAP_BYTE
    let byte := (s.kheap.mem (s.pmm.bitmap + block_idx)).toNat &&& (255 ^^^ (1 <<< bit_idx))
    { kheap := { s.kheap with
        mem := store8 s.kheap.mem (s.pmm.bitmap + block_idx) (UInt8.ofNat byte) }
      pmm := { s.pmm with
        num_memory_frames_used := sub32 s.pmm.num_memory_frames_used 1 } }

def pmm_mark_frame_reserved (s : Mm) (frame_addr : Nat) : Mm :=
  pmm_set_frame s (pmm_address_to_index frame_addr)

def pmm_mark_frame_available (s : Mm) (frame_addr : Nat) : Mm :=
  pmm_unset_frame s (pmm_address_to_index frame_addr)

/-- The first free frame of the next `turns` frames from `i` on. -/
def pmm_find_free_loop (s : Mm) : Nat → Nat → Option Nat
  | 0, _ => none
  | turns + 1, i => if ¬ pmm_test_frame s i then some i else pmm_find_free_loop s turns (i + 1)

def pmm_find_free_frame_from (s : Mm) (address : Nat) : Nat :=
  let start := pmm_address_to_index address
  match pmm_find_free_loop s (s.pmm.num_memory_frames - start) start with
  | some i => mul32 i PMM_FRAME_SIZE
  | none => NULL

def pmm_find_free_frame (s : Mm) : Nat := pmm_find_free_frame_from s PMM_PAS_BASE

/-! ## The memory map -/

def pmm_region (p : Pmm) (i : Nat) : Nat := add32 p.regions (mul32 i SIZEOF_REGION)

def region_base (m : Mem) (region : Nat) : Nat := load32 m region
def region_length (m : Mem) (region : Nat) : Nat := load32 m (region + 4)
def region_type (m : Mem) (region : Nat) : Nat := load32 m (region + 8)

def pmm_memory_region_compare (m : Mem) (a b : Nat) : Int :=
  if region_base m a < region_base m b then -1
  else if region_base m a > region_base m b then 1
  else if region_length m a < region_length m b then -1
  else if region_length m a > region_length m b then 1
  else 0

/-- The loop that fills the region table, from entry `i` on. The 64-bit fields lose
their high words. -/
def pmm_fetch_loop : List MmapEntry → Nat → Mm → Mm
  | [], _, s => s
  | mmap :: rest, i, s =>
    let region := pmm_region s.pmm i
    let length := mmap.len % 4294967296
    let m := store32 s.kheap.mem region (mmap.addr % 4294967296)
    let m := store32 m (region + 4) length
    let m := store32 m (region + 8) mmap.type
    pmm_fetch_loop rest (i + 1)
      { kheap := { s.kheap with mem := m }
        pmm := { s.pmm with memory_size := add32 s.pmm.memory_size length } }

/-- The table is as large as the square of the size of a region. -/
def pmm_fetch_memory_regions (s : Mm) (mmap : List MmapEntry) : Outcome Mm Unit :=
  let pmm := { s.pmm with region_size := SIZEOF_REGION, num_regions := mmap.length }
  let s := { s with pmm := pmm }
  ((kmalloc s.kheap (mul32 pmm.region_size pmm.region_size)).lift fun k =>
      { s with kheap := k }).andThen fun regions s =>
    let s := { s with pmm := { s.pmm with regions := regions } }
    if regions = NULL then .kpanic KPANIC_OUT_OF_MEMORY "Memory allocation failed." s
    else
      let s := pmm_fetch_loop mmap 0 s
      .done () (s.setMem (array_bubble_sort s.kheap.mem s.pmm.regions s.pmm.num_regions
        s.pmm.region_size pmm_memory_region_compare))

/-! ## The start of the allocator -/

/-- The counts, and a bitmap in which all frames are in use. -/
def pmm_init_bitmap (s : Mm) (mmap : List MmapEntry) : Outcome Mm Unit :=
  let s := { s with pmm := { s.pmm with memory_size := 0 } }
  (pmm_fetch_memory_regions s mmap).andThen fun _ s =>
    let num_memory_frames := PMM_PAS_SIZE / PMM_FRAME_SIZE
    let bitmap_size := div_up num_memory_frames PMM_FRAMES_PER_BITMAP_BYTE
    let s := { s with pmm := { s.pmm with
      num_memory_frames := num_memory_frames
      num_memory_frames_used := num_memory_frames
      bitmap_size := bitmap_size } }
    ((kmalloc s.kheap bitmap_size).lift fun k => { s with kheap := k }).andThen fun bitmap s =>
      let s := { s with pmm := { s.pmm with bitmap := bitmap } }
      if bitmap = NULL then .kpanic KPANIC_OUT_OF_MEMORY "Memory allocation failed." s
      else .done () (s.setMem (fill s.kheap.mem bitmap 0xFF s.pmm.bitmap_size))

def region_start_frame (s : Mm) (i : Nat) : Nat :=
  pmm_address_to_index (region_base s.kheap.mem (pmm_region s.pmm i))

def region_end_frame (s : Mm) (i : Nat) : Nat :=
  let region := pmm_region s.pmm i
  pmm_address_to_index
    (sub32 (add32 (region_base s.kheap.mem region) (region_length s.kheap.mem region)) 1)

/-- Mark the next `turns` frames from `frame` on as available. -/
def pmm_unset_frames : Nat → Nat → Mm → Mm
  | 0, _, s => s
  | turns + 1, frame, s => pmm_unset_frames turns (frame + 1) (pmm_unset_frame s frame)

/-- Mark the frames of region `i` as available, when it is. -/
def pmm_init_region (s : Mm) (i : Nat) : Mm :=
  if region_type s.kheap.mem (pmm_region s.pmm i) = MULTIBOOT_MEMORY_AVAILABLE then
    let start := region_start_frame s i
    pmm_unset_frames (region_end_frame s i + 1 - start) start s
  else s

/-- `pmm_init` without the message about the number of frames. -/
def pmm_init (s : Mm) (mmap : List MmapEntry) : Outcome Mm Unit :=
  (pmm_init_bitmap s mmap).andThen fun _ s =>
    .done () ((List.range s.pmm.num_regions).foldl pmm_init_region s)

end sakana_os
