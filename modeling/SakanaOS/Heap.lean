-- The kernel heap of `heap.c`, over a byte memory: the placement area of the
-- boot, and the list of blocks whose headers stand between the payloads.
import SakanaOS.ByteMemory
import SakanaOS.Machine

open byte_memory

namespace sakana_os

def KHEAP_PLACEMENT_SIZE : Nat := 0x00100000
def KHEAP_HEAP_SIZE : Nat := 0x02000000
def KHEAP_MAGIC : Nat := 0xD11EF00D

def MALLOC_FLAG_NULL : Nat := 0x0
def MALLOC_FLAG_ALIGN : Nat := 0x1
def MALLOC_FLAG_INIT : Nat := 0x2

/-- `sizeof(kheap_block_head_t)`: five words of 4 bytes, as `bool` is an `int`. -/
def SIZEOF_HEAD : Nat := 20

/-- The statics of `heap.c`, with the memory. `kheap_placement_memory` is the
address of the array. -/
structure Kheap where
  kheap_placement_memory : Nat
  kheap_placement_memory_head : Nat
  kheap_placement_memory_free_memory : Nat
  kheap_enabled : Bool
  kheap_base : Nat
  kheap_head : Nat
  kheap_tail : Nat
  mem : Mem

/-- The statics at the start, with the placement area at `placement`. -/
def kheapStart (placement : Nat) (m : Mem) : Kheap where
  kheap_placement_memory := placement
  kheap_placement_memory_head := placement
  kheap_placement_memory_free_memory := KHEAP_PLACEMENT_SIZE
  kheap_enabled := false
  kheap_base := NULL
  kheap_head := NULL
  kheap_tail := NULL
  mem := m

/-! ## The fields of a block header -/

def head_magic (m : Mem) (block : Nat) : Nat := load32 m block
def head_size (m : Mem) (block : Nat) : Nat := load32 m (block + 4)
def head_free (m : Mem) (block : Nat) : Nat := load32 m (block + 8)
def head_prev (m : Mem) (block : Nat) : Nat := load32 m (block + 12)
def head_next (m : Mem) (block : Nat) : Nat := load32 m (block + 16)

def set_magic (m : Mem) (block v : Nat) : Mem := store32 m block v
def set_size (m : Mem) (block v : Nat) : Mem := store32 m (block + 4) v
def set_free (m : Mem) (block v : Nat) : Mem := store32 m (block + 8) v
def set_prev (m : Mem) (block v : Nat) : Mem := store32 m (block + 12) v
def set_next (m : Mem) (block v : Nat) : Mem := store32 m (block + 16) v

/-! ## Allocation from the heap -/

/-- The best block after one turn of the loop. The address of the data is taken
with pointer arithmetic on `kheap_block_head_t *`, so it is 20 headers past the
block. -/
def kheap_find_best_fit_turn (m : Mem) (size : Nat) (align : Bool) (current best_fit : Nat) :
    Nat :=
  if head_free m current ≠ 0 then
    let data_addr := add32 current (SIZEOF_HEAD * SIZEOF_HEAD)
    let end_addr := add32 data_addr (head_size m current)
    let data_addr :=
      if align ∧ ¬ paging_is_aligned_address data_addr then
        paging_align_address_up (add32 data_addr SIZEOF_HEAD)
      else data_addr
    if add32 data_addr size ≤ end_addr then
      if best_fit = NULL ∨ head_size m current < head_size m best_fit then current
      else best_fit
    else best_fit
  else best_fit

def kheap_find_best_fit_loop (m : Mem) (size : Nat) (align : Bool) :
    Nat → Nat → Nat → Option Nat
  | 0, _, _ => none
  | fuel + 1, current, best_fit =>
    if current = NULL then some best_fit
    else
      kheap_find_best_fit_loop m size align fuel (head_next m current)
        (kheap_find_best_fit_turn m size align current best_fit)

/-- The walk over the list. A list that stays in the heap has fewer blocks than
the heap has bytes, so a longer walk never ends. -/
def kheap_find_best_fit (s : Kheap) (size : Nat) (align : Bool) : Option Nat :=
  kheap_find_best_fit_loop s.mem size align KHEAP_HEAP_SIZE s.kheap_head NULL

/-- The padding block in front of an aligned block. -/
def kmalloc_pad (m : Mem) (best_fit new_best_fit padding : Nat) : Mem :=
  let m := set_free m new_best_fit 1
  let m := set_magic m new_best_fit KHEAP_MAGIC
  let m := set_size m new_best_fit (sub32 (head_size m best_fit) padding)
  let m := set_next m new_best_fit (head_next m best_fit)
  let m := set_prev m new_best_fit best_fit
  let m := set_free m best_fit 1
  let m := set_size m best_fit (sub32 padding SIZEOF_HEAD)
  set_next m best_fit new_best_fit

/-- The free block split off behind the `size` bytes that are taken. -/
def kmalloc_split (s : Kheap) (best_fit size remaining_size : Nat) : Kheap :=
  let remaining_block := add32 (add32 best_fit SIZEOF_HEAD) size
  let m := set_free s.mem remaining_block 1
  let m := set_magic m remaining_block KHEAP_MAGIC
  let m := set_size m remaining_block (sub32 remaining_size SIZEOF_HEAD)
  let m := set_next m remaining_block (head_next m best_fit)
  let m := set_prev m remaining_block best_fit
  let last := head_next m remaining_block = NULL
  let m' := if last then m else set_prev m (head_next m remaining_block) remaining_block
  let m' := set_size m' best_fit size
  { s with
    mem := set_next m' best_fit remaining_block
    kheap_tail := if last then remaining_block else s.kheap_tail }

/-- From the choice of the block to the pointer that is returned. -/
def kmalloc_take (s : Kheap) (best_fit size flag : Nat) : Outcome Kheap Nat :=
  let remaining_size := sub32 (head_size s.mem best_fit) size
  let s := { s with mem := set_free s.mem best_fit 0 }
  let s :=
    if remaining_size > SIZEOF_HEAD then kmalloc_split s best_fit size remaining_size else s
  let data_addr := add32 best_fit SIZEOF_HEAD
  let m :=
    if flag &&& MALLOC_FLAG_INIT ≠ 0 then fill s.mem data_addr 0 (head_size s.mem best_fit)
    else s.mem
  .done data_addr { s with mem := m }

def kmalloc_heap_base (s : Kheap) (size flag : Nat) : Outcome Kheap Nat :=
  if size = 0 then .done NULL s
  else
    match kheap_find_best_fit s size (flag &&& MALLOC_FLAG_ALIGN != 0) with
    | none => .hang s
    | some best_fit =>
      if best_fit = NULL then .done NULL s
      else
        let data_addr := add32 best_fit SIZEOF_HEAD
        if flag &&& MALLOC_FLAG_ALIGN ≠ 0 ∧ ¬ paging_is_aligned_address data_addr then
          let new_data_addr := paging_align_address_up (add32 data_addr SIZEOF_HEAD)
          let padding := sub32 new_data_addr data_addr
          if head_size s.mem best_fit < add32 size padding then .done NULL s
          else
            let new_best_fit := sub32 new_data_addr SIZEOF_HEAD
            kmalloc_take { s with mem := kmalloc_pad s.mem best_fit new_best_fit padding }
              new_best_fit size flag
        else kmalloc_take s best_fit size flag

/-! ## Allocation from the placement area -/

def kmalloc_placement_base (s : Kheap) (size flag : Nat) : Outcome Kheap Nat :=
  let addr := s.kheap_placement_memory_head
  let alloc_size := size
  let aligned_addr := paging_align_address_up addr
  let align := flag &&& MALLOC_FLAG_ALIGN ≠ 0
  let real_alloc_size :=
    if align then add32 alloc_size (sub32 aligned_addr addr) else alloc_size
  let addr := if align then aligned_addr else addr
  if real_alloc_size > s.kheap_placement_memory_free_memory then .done NULL s
  else
    .done addr { s with
      kheap_placement_memory_head := add32 s.kheap_placement_memory_head real_alloc_size
      kheap_placement_memory_free_memory :=
        sub32 s.kheap_placement_memory_free_memory real_alloc_size
      mem := if flag &&& MALLOC_FLAG_INIT ≠ 0 then fill s.mem addr 0 alloc_size else s.mem }

def kheap_is_placement_memory (s : Kheap) (ptr : Nat) : Bool :=
  let start := s.kheap_placement_memory
  let «end» := add32 start KHEAP_PLACEMENT_SIZE
  start ≤ ptr ∧ ptr < «end»

/-! ## The functions that the kernel calls -/

def kmalloc_base (s : Kheap) (enable_heap : Bool) (size flag : Nat) : Outcome Kheap Nat :=
  if enable_heap then kmalloc_heap_base s size flag else kmalloc_placement_base s size flag

def kmalloc_flag (s : Kheap) (size flag : Nat) : Outcome Kheap Nat :=
  kmalloc_base s s.kheap_enabled size flag

def kmalloc (s : Kheap) (size : Nat) : Outcome Kheap Nat :=
  kmalloc_base s s.kheap_enabled size MALLOC_FLAG_NULL

/-- The block of a pointer, or `NULL` when its header does not carry the magic. -/
def kheap_get_heap_block (s : Kheap) (ptr : Nat) : Nat :=
  let block := sub32 ptr SIZEOF_HEAD
  if head_magic s.mem block ≠ KHEAP_MAGIC then NULL else block

/-- Merge a freed block into the free block before it. Returns the block that
stands for it from then on. -/
def kfree_join_prev (s : Kheap) (free_block prev_block next_block : Nat) : Nat × Kheap :=
  if prev_block ≠ NULL ∧ head_free s.mem prev_block ≠ 0 then
    let m := set_next s.mem prev_block next_block
    let m := set_size m prev_block
      (add32 (head_size m prev_block) (add32 (head_size m free_block) SIZEOF_HEAD))
    let m := set_magic m free_block 0
    (prev_block, { s with
      mem := if next_block = NULL then m else set_prev m next_block prev_block
      kheap_tail := if next_block = NULL then prev_block else s.kheap_tail })
  else (free_block, s)

/-- Merge the free block behind a freed block into it. -/
def kfree_join_next (s : Kheap) (free_block next_block : Nat) : Kheap :=
  if next_block ≠ NULL ∧ head_free s.mem next_block ≠ 0 then
    let next_2_block := head_next s.mem next_block
    let m := set_next s.mem free_block next_2_block
    let m := set_size m free_block
      (add32 (head_size m free_block) (add32 (head_size m next_block) SIZEOF_HEAD))
    let m := set_magic m next_block 0
    { s with
      mem := if next_2_block = NULL then m else set_prev m next_2_block free_block
      kheap_tail := if next_2_block = NULL then free_block else s.kheap_tail }
  else s

def kfree_block (s : Kheap) (free_block : Nat) : Kheap :=
  let s := { s with mem := set_free s.mem free_block 1 }
  let prev_block := head_prev s.mem free_block
  let next_block := head_next s.mem free_block
  let joined := kfree_join_prev s free_block prev_block next_block
  kfree_join_next joined.2 joined.1 next_block

def kfree (s : Kheap) (ptr : Nat) : Outcome Kheap Unit :=
  if ptr = NULL then .kpanic KPANIC_OUT_OF_MEMORY "Pointer is NULL" s
  else if kheap_is_placement_memory s ptr then .done () s
  else if ptr < s.kheap_base ∨ add32 s.kheap_base KHEAP_HEAP_SIZE ≤ ptr then
    .kpanic KPANIC_OUT_OF_MEMORY "Pointer is outside heap range." s
  else
    let free_block := kheap_get_heap_block s ptr
    if free_block = NULL then
      .kpanic KPANIC_OUT_OF_MEMORY "Invalid heap block magic: memory corrupted." s
    else if head_free s.mem free_block ≠ 0 then
      .kpanic KPANIC_OUT_OF_MEMORY "Double free detected." s
    else .done () (kfree_block s free_block)

/-- The range of the pointer is checked twice, as in the source. -/
def krealloc_flag (s : Kheap) (ptr size flag : Nat) : Outcome Kheap Nat :=
  if ptr = NULL then kmalloc_flag s size flag
  else if kheap_is_placement_memory s ptr then .done NULL s
  else if ptr < s.kheap_base ∨ add32 s.kheap_base KHEAP_HEAP_SIZE ≤ ptr then
    .kpanic KPANIC_OUT_OF_MEMORY "Pointer is outside heap range." s
  else if ptr < s.kheap_base ∨ add32 s.kheap_base KHEAP_HEAP_SIZE ≤ ptr then
    .kpanic KPANIC_OUT_OF_MEMORY "Pointer is outside heap range." s
  else
    let block := kheap_get_heap_block s ptr
    if block = NULL then
      .kpanic KPANIC_OUT_OF_MEMORY "Invalid heap block magic: memory corrupted." s
    else if size ≤ head_size s.mem block then .done ptr s
    else
      (kmalloc_flag s size flag).andThen fun new_ptr s =>
        if new_ptr = NULL then .done NULL s
        else
          (kfree { s with mem := copy s.mem new_ptr ptr (head_size s.mem block) } ptr).andThen
            fun _ s => .done new_ptr s

def krealloc (s : Kheap) (ptr size : Nat) : Outcome Kheap Nat :=
  krealloc_flag s ptr size MALLOC_FLAG_NULL

/-- `kheap_init` with the address that `vmm_map_memory` returned for the heap. -/
def kheap_init_at (s : Kheap) (kheap_base : Nat) : Outcome Kheap Unit :=
  let s := { s with kheap_base := kheap_base }
  if kheap_base = NULL then .kpanic KPANIC_OUT_OF_MEMORY "Memory allocation failed." s
  else
    let m := set_prev s.mem kheap_base NULL
    let m := set_next m kheap_base NULL
    let m := set_magic m kheap_base KHEAP_MAGIC
    let m := set_size m kheap_base (KHEAP_HEAP_SIZE - SIZEOF_HEAD)
    let m := set_free m kheap_base 1
    .done () { s with
      kheap_head := kheap_base
      kheap_tail := kheap_base
      kheap_enabled := true
      mem := m }

end sakana_os
