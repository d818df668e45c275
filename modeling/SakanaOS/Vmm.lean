-- The page tables of `vmm.c`, in the kernel memory: a directory with an entry for the
-- MMU and a pointer for the kernel in each slot, and tables with an entry for each page.
import SakanaOS.BitFields
import SakanaOS.Pmm

open byte_memory bit_fields

namespace sakana_os

def VMM_USER_SPACE_BASE : Nat := 0x00001000
def VMM_USER_SPACE_SIZE : Nat := 0xBFFFF000
def VMM_KERNEL_SPACE_BASE : Nat := 0xC0000000
def VMM_KERNEL_SPACE_SIZE : Nat := 0x3FFFFFFF
def VMM_REAL_MODE_MEMORY_BASE : Nat := 0xC0000000
def VMM_REAL_MODE_MEMORY_SIZE : Nat := 0x00100000

def PAGE_FLAG_USED : Nat := 1
def PAGE_FLAG_PRESENT : Nat := 0

/-- `sizeof(page_table_t)`: 1024 entries of 4 bytes. -/
def SIZEOF_PAGE_TABLE : Nat := 4096

/-- `sizeof(page_directory_t)`: 1024 entries and 1024 pointers. -/
def SIZEOF_PAGE_DIRECTORY : Nat := 8192

/-- Where the linker script places the kernel image. -/
def kernel_virtual_start : Nat := 0xC0100000

/-- The frames, the statics of `vmm.c`, and the two control registers that it writes:
the page directory base, and whether paging is on. -/
structure Vmm where
  mm : Mm
  kernel_page_directory : Nat
  curr_page_directory : Nat
  cr3 : Nat
  paging_enabled : Bool

/-! ## Entries -/

/-- `&page_directory->entries[idx]`. -/
def directory_entry (page_directory idx : Nat) : Nat := page_directory + 4 * idx

/-- `&page_directory->tables[idx]`. -/
def directory_table (page_directory idx : Nat) : Nat := page_directory + 4096 + 4 * idx

/-- `&table->entries[idx]`. -/
def table_entry (table idx : Nat) : Nat := table + 4 * idx

def set_entry_field (m : Mem) (entry lo n v : Nat) : Mem :=
  store32 m entry (setField (load32 m entry) lo n v)

-- The fields that the kernel uses lie at the same bits in both kinds of entries.
def entry_present (m : Mem) (entry : Nat) : Nat := field (load32 m entry) 0 1
def entry_available (m : Mem) (entry : Nat) : Nat := field (load32 m entry) 9 3
def entry_page_base (m : Mem) (entry : Nat) : Nat := field (load32 m entry) 12 20

def set_present (m : Mem) (entry v : Nat) : Mem := set_entry_field m entry 0 1 v
def set_read_write (m : Mem) (entry v : Nat) : Mem := set_entry_field m entry 1 1 v
def set_user_supervisor (m : Mem) (entry v : Nat) : Mem := set_entry_field m entry 2 1 v
def set_page_size (m : Mem) (entry v : Nat) : Mem := set_entry_field m entry 7 1 v
def set_available (m : Mem) (entry v : Nat) : Mem := set_entry_field m entry 9 3 v
def set_page_base (m : Mem) (entry v : Nat) : Mem := set_entry_field m entry 12 20 v

/-! ## The walk of the kernel -/

def vmm_get_page_entry (m : Mem) (page_directory virtual_address : Nat) : Nat :=
  if page_directory = NULL then NULL
  else
    let table := load32 m (directory_table page_directory (paging_directory_index virtual_address))
    if table = NULL then NULL else table_entry table (paging_table_index virtual_address)

/-- `none` when it reads through the NULL pointer of an entry that is not there. -/
def vmm_virtual_to_physical_address (m : Mem) (page_directory virtual_address : Nat) :
    Option Nat :=
  -- Before paging is enabled, the memory mapping is linear.
  if page_directory = NULL then some (sub32 virtual_address VMM_KERNEL_SPACE_BASE)
  else
    let entry := vmm_get_page_entry m page_directory virtual_address
    if entry = NULL then none
    else if entry_present m entry = 0 then some NULL
    else some (add32 (entry_page_base m entry <<< 12) (paging_memory_offset virtual_address))

def vmm_is_page_used (m : Mem) (page_directory virtual_address : Nat) : Bool :=
  let entry := vmm_get_page_entry m page_directory virtual_address
  if entry = NULL then false else entry_available m entry &&& PAGE_FLAG_USED != 0

/-! ## Mapping one page -/

/-- The table of a page, which is allocated and entered into the directory when it
does not exist. -/
def vmm_map_table (s : Mm) (page_directory page_directory_dict virtual_address : Nat) :
    Outcome Mm Nat :=
  let page_directory_index := paging_directory_index virtual_address
  let table := load32 s.kheap.mem (directory_table page_directory page_directory_index)
  if table = NULL then
    ((kmalloc_flag s.kheap SIZEOF_PAGE_TABLE (MALLOC_FLAG_ALIGN ||| MALLOC_FLAG_INIT)).lift
      fun k => { s with kheap := k }).andThen fun table s =>
      if table = NULL then .kpanic KPANIC_OUT_OF_MEMORY "Memory allocation failed." s
      else
        match vmm_virtual_to_physical_address s.kheap.mem page_directory_dict table with
        | none => .fault s
        | some table_physical_address =>
          let entry := directory_entry page_directory page_directory_index
          let m := set_present s.kheap.mem entry 1
          let m := set_read_write m entry 1
          let m := set_user_supervisor m entry 1
          let m := set_page_base m entry (table_physical_address >>> 12)
          let m := set_page_size m entry 0
          .done table
            (s.setMem (store32 m (directory_table page_directory page_directory_index) table))
  else .done table s

/-- The entry of the TLB that `paging_invalidate_page` drops is not part of the state. -/
def vmm_map_page (s : Mm)
    (page_directory page_directory_dict virtual_address physical_address : Nat)
    (is_kernel is_writeable : Bool) : Outcome Mm Unit :=
  (vmm_map_table s page_directory page_directory_dict virtual_address).andThen fun table s =>
    let entry := table_entry table (paging_table_index virtual_address)
    let frame_index := pmm_address_to_index physical_address
    let m := set_present s.kheap.mem entry 1
    let m := set_read_write m entry (if is_writeable then 1 else 0)
    let m := set_user_supervisor m entry (if is_kernel then 0 else 1)
    let m := set_available m entry (PAGE_FLAG_USED ||| PAGE_FLAG_PRESENT)
    .done () (s.setMem (set_page_base m entry frame_index))

/-! ## The start of paging -/

/-- The next `turns` pages from page `i` of the range at `base` on, each mapped to its
place in the linear mapping. -/
def vmm_init_pages (page_directory base : Nat) : Nat → Nat → Mm → Outcome Mm Unit
  | 0, _, s => .done () s
  | turns + 1, i, s =>
    let virtual_address := add32 base (mul32 i PAGE_SIZE)
    match vmm_virtual_to_physical_address s.kheap.mem NULL virtual_address with
    | none => .fault s
    | some physical_address =>
      (vmm_map_page s page_directory NULL virtual_address physical_address true true).andThen
        fun _ s => vmm_init_pages page_directory base turns (i + 1)
          (pmm_mark_frame_reserved s physical_address)

/-- `vmm_init` for a kernel image that ends at `kernel_virtual_end`. -/
def vmm_init (s : Vmm) (kernel_virtual_end : Nat) : Outcome Vmm Unit :=
  ((kmalloc_flag s.mm.kheap SIZEOF_PAGE_DIRECTORY (MALLOC_FLAG_ALIGN ||| MALLOC_FLAG_INIT)).lift
    fun k => { s with mm := { s.mm with kheap := k } }).andThen fun page_directory s =>
    let s := { s with kernel_page_directory := page_directory }
    if page_directory = NULL then .kpanic KPANIC_OUT_OF_MEMORY "Memory allocation failed." s
    else
      let num_pages := div_up VMM_REAL_MODE_MEMORY_SIZE PAGE_SIZE
      ((vmm_init_pages page_directory VMM_REAL_MODE_MEMORY_BASE num_pages 0 s.mm).lift
        fun mm => { s with mm := mm }).andThen fun _ s =>
        let kernel_memory_size := sub32 kernel_virtual_end kernel_virtual_start
        let num_pages := div_up kernel_memory_size PAGE_SIZE
        ((vmm_init_pages page_directory kernel_virtual_start num_pages 0 s.mm).lift
          fun mm => { s with mm := mm }).andThen fun _ s =>
          match vmm_virtual_to_physical_address s.mm.kheap.mem NULL page_directory with
          | none => .fault s
          | some physical_address =>
            .done () { s with
              cr3 := physical_address
              curr_page_directory := page_directory
              paging_enabled := true }

/-! ## Mapping memory -/

section

variable (curr_page_directory : Nat)

/-- The inner loop of the search: `some true` when all pages of the range from `offset`
on are free and in the space. There are as many offsets as turns, so a loop that is
still running then never ends. -/
def vmm_is_memory_free (m : Mem) (size page_address space_end : Nat) : Nat → Nat → Option Bool
  | 0, _ => none
  | turns + 1, offset =>
    if offset < size then
      let curr_page_address := add32 page_address offset
      if curr_page_address ≥ space_end ∨
          vmm_is_page_used m curr_page_directory curr_page_address = true then some false
      else vmm_is_memory_free m size page_address space_end turns (add32 offset PAGE_SIZE)
    else some true

def vmm_find_free_loop (m : Mem) (size space_base_address space_end : Nat) :
    Nat → Nat → Option Nat
  | 0, _ => some NULL
  | turns + 1, i =>
    let page_address := add32 space_base_address (mul32 i PAGE_SIZE)
    if vmm_is_page_used m curr_page_directory page_address then
      vmm_find_free_loop m size space_base_address space_end turns (i + 1)
    else
      match vmm_is_memory_free curr_page_directory m size page_address space_end 0x100000 0 with
      | none => none
      | some true => some page_address
      | some false => vmm_find_free_loop m size space_base_address space_end turns (i + 1)

/-- `none` when the search never ends. -/
def vmm_find_free_memory (m : Mem) (size : Nat) (is_kernel : Bool) : Option Nat :=
  let space_base_address := if is_kernel then VMM_KERNEL_SPACE_BASE else VMM_USER_SPACE_BASE
  let space_size := if is_kernel then VMM_KERNEL_SPACE_SIZE else VMM_USER_SPACE_SIZE
  let max_pages := div_up space_size PAGE_SIZE
  vmm_find_free_loop curr_page_directory m size space_base_address
    (add32 space_base_address space_size) max_pages 0

def vmm_unmap_page (s : Mm) (virtual_address : Nat) : Outcome Mm Unit :=
  match vmm_virtual_to_physical_address s.kheap.mem curr_page_directory virtual_address with
  | none => .fault s
  | some frame_address =>
    .done () (if frame_address ≠ NULL then pmm_mark_frame_available s frame_address else s)

def vmm_unmap_pages (virtual_address : Nat) : Nat → Nat → Mm → Outcome Mm Unit
  | 0, _, s => .done () s
  | turns + 1, i, s =>
    let unmap_virtual_address := add32 virtual_address (mul32 i PAGE_SIZE)
    (vmm_unmap_page curr_page_directory s unmap_virtual_address).andThen fun _ s =>
      vmm_unmap_pages virtual_address turns (i + 1) s

def vmm_unmap_memory (s : Mm) (virtual_address size : Nat) : Outcome Mm Unit :=
  let virtual_address := paging_align_address_down virtual_address
  let num_pages := div_up size PAGE_SIZE
  vmm_unmap_pages curr_page_directory virtual_address num_pages 0 s

/-- The loop of `vmm_map_memory`, which ends with `false` when the free frames run out. -/
def vmm_map_pages (virtual_address physical_address : Nat) : Nat → Nat → Mm → Outcome Mm Bool
  | 0, _, s => .done true s
  | turns + 1, i, s =>
    let free_virtual_address := add32 virtual_address (mul32 i PAGE_SIZE)
    let free_physical_address := pmm_find_free_frame_from s physical_address
    if free_physical_address = NULL then .done false s
    else
      (vmm_map_page s curr_page_directory curr_page_directory free_virtual_address
        free_physical_address true true).andThen fun _ s =>
        vmm_map_pages virtual_address physical_address turns (i + 1)
          (pmm_mark_frame_reserved s free_physical_address)

/-- `vmm_map_memory` from the choice of the addresses on. -/
def vmm_map_range (s : Mm) (virtual_address physical_address size : Nat) : Outcome Mm Nat :=
  let virtual_address := paging_align_address_down virtual_address
  let num_pages := div_up size PAGE_SIZE
  (vmm_map_pages curr_page_directory virtual_address physical_address num_pages 0 s).andThen
    fun mapped s =>
      if mapped then .done virtual_address s
      else
        (vmm_unmap_memory curr_page_directory s virtual_address size).andThen fun _ s =>
          .done NULL s

end

/-- The pages are mapped for the kernel and writeable, whatever the last two arguments. -/
def vmm_map_memory (s : Vmm) (virtual_address physical_address size : Nat)
    (is_kernel _is_writeable : Bool) : Outcome Vmm Nat :=
  match
    if virtual_address = NULL then
      vmm_find_free_memory s.curr_page_directory s.mm.kheap.mem size is_kernel
    else some virtual_address with
  | none => .hang s
  | some virtual_address =>
    if virtual_address = NULL then
      .kpanic KPANIC_OUT_OF_MEMORY "Virtaul memory allocation failed." s
    else
      let physical_address :=
        if physical_address = NULL then pmm_find_free_frame s.mm else physical_address
      if physical_address = NULL then .done NULL s
      else
        (vmm_map_range s.curr_page_directory s.mm virtual_address physical_address size).lift
          fun mm => { s with mm := mm }

end sakana_os
