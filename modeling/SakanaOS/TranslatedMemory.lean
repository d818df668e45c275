-- The machine under paging: a physical memory, which the kernel reads and writes through the
-- tables that the page directory base names. The functions of `vmm.c` and `pmm.c` that write
-- are given once more, with each store at the place where the MMU finds its address.
import SakanaOS.PageWalks

open byte_memory bitmaps bit_fields

namespace sakana_os.translated

/-! ## The MMU -/

/-- Where the MMU finds a byte. The accessed and dirty bits, which it sets in the entries
on its way, are left out. So is the TLB: `vmm_map_page` drops a page that was present from it
before it writes the entry, so only a page that the entry itself lies on could be stale. -/
def mmu (ram : Mem) (cr3 virtual_address : Nat) : Option Nat :=
  (mmu_page_entry ram cr3 virtual_address).bind fun entry =>
    if entry_present ram entry = 0 then none
    else some (entry_page_base ram entry <<< 12 + paging_memory_offset virtual_address)

/-- The memory as the kernel sees it. An address without a page, which no read of the
kernel reaches as long as its image stays mapped, counts as 0. -/
def view (ram : Mem) (cr3 : Nat) : Mem := fun virtual_address =>
  match mmu ram cr3 virtual_address with
  | none => 0
  | some physical_address => ram physical_address

/-- The kernel on its machine: its memory is what it sees of the physical one. -/
structure Machine where
  ram : Mem
  vmm : Vmm
  seen : vmm.mm.kheap.mem = view ram vmm.cr3

/-- The statics of a state over a physical memory. -/
def Machine.of (ram : Mem) (v : Vmm) : Machine :=
  ⟨ram, { v with mm := v.mm.setMem (view ram v.cr3) }, rfl⟩

def Machine.mm (s : Machine) : Mm := s.vmm.mm

def Machine.mem (s : Machine) : Mem := s.vmm.mm.kheap.mem

@[simp] theorem Machine.of_mm (ram : Mem) (v : Vmm) :
    (Machine.of ram v).mm = v.mm.setMem (view ram v.cr3) := rfl

/-- New statics, over the same physical memory. -/
def Machine.setMm (s : Machine) (mm : Mm) : Machine := .of s.ram { s.vmm with mm := mm }

def Machine.setRam (s : Machine) (ram : Mem) : Machine := .of ram s.vmm

/-! ## Stores -/

def store8 (s : Machine) (virtual_address : Nat) (v : UInt8) : Outcome Machine Unit :=
  match mmu s.ram s.vmm.cr3 virtual_address with
  | none => .fault s
  | some physical_address => .done () (s.setRam (byte_memory.store8 s.ram physical_address v))

/-- The words that the kernel stores are aligned, so that each lies on one page. -/
def store32 (s : Machine) (virtual_address v : Nat) : Outcome Machine Unit :=
  match mmu s.ram s.vmm.cr3 virtual_address with
  | none => .fault s
  | some physical_address => .done () (s.setRam (byte_memory.store32 s.ram physical_address v))

def fill (virtual_address : Nat) (v : UInt8) : Nat → Machine → Outcome Machine Unit
  | 0, s => .done () s
  | n + 1, s => (store8 s virtual_address v).andThen fun _ s => fill (virtual_address + 1) v n s

def set_entry_field (s : Machine) (entry lo n v : Nat) : Outcome Machine Unit :=
  store32 s entry (setField (load32 s.mem entry) lo n v)

def set_present (s : Machine) (entry v : Nat) := set_entry_field s entry 0 1 v
def set_read_write (s : Machine) (entry v : Nat) := set_entry_field s entry 1 1 v
def set_user_supervisor (s : Machine) (entry v : Nat) := set_entry_field s entry 2 1 v
def set_page_size (s : Machine) (entry v : Nat) := set_entry_field s entry 7 1 v
def set_available (s : Machine) (entry v : Nat) := set_entry_field s entry 9 3 v
def set_page_base (s : Machine) (entry v : Nat) := set_entry_field s entry 12 20 v

/-! ## Frames -/

def pmm_set_frame (s : Machine) (frame_idx : Nat) : Outcome Machine Unit :=
  if pmm_test_frame s.mm frame_idx then .done () s
  else
    let block_idx := frame_idx / PMM_FRAMES_PER_BITMAP_BYTE
    let bit_idx := frame_idx % PMM_FRAMES_PER_BITMAP_BYTE
    let byte := (s.mem (s.mm.pmm.bitmap + block_idx)).toNat ||| (1 <<< bit_idx)
    (store8 s (s.mm.pmm.bitmap + block_idx) (UInt8.ofNat byte)).andThen fun _ s =>
      .done () (s.setMm { s.mm with pmm := { s.mm.pmm with
        num_memory_frames_used := add32 s.mm.pmm.num_memory_frames_used 1 } })

def pmm_unset_frame (s : Machine) (frame_idx : Nat) : Outcome Machine Unit :=
  if ¬ pmm_test_frame s.mm frame_idx then .done () s
  else
    let block_idx := frame_idx / PMM_FRAMES_PER_BITMAP_BYTE
    let bit_idx := frame_idx % PMM_FRAMES_PER_BITMAP_BYTE
    let byte := (s.mem (s.mm.pmm.bitmap + block_idx)).toNat &&& (255 ^^^ (1 <<< bit_idx))
    (store8 s (s.mm.pmm.bitmap + block_idx) (UInt8.ofNat byte)).andThen fun _ s =>
      .done () (s.setMm { s.mm with pmm := { s.mm.pmm with
        num_memory_frames_used := sub32 s.mm.pmm.num_memory_frames_used 1 } })

def pmm_mark_frame_reserved (s : Machine) (frame_addr : Nat) : Outcome Machine Unit :=
  pmm_set_frame s (pmm_address_to_index frame_addr)

def pmm_mark_frame_available (s : Machine) (frame_addr : Nat) : Outcome Machine Unit :=
  pmm_unset_frame s (pmm_address_to_index frame_addr)

/-! ## Mapping one page -/

/-- `kmalloc_flag` before `kheap_init`, which takes the placement area. -/
def kmalloc_flag (s : Machine) (size flag : Nat) : Outcome Machine Nat :=
  let k := s.mm.kheap
  let addr := k.kheap_placement_memory_head
  let alloc_size := size
  let aligned_addr := paging_align_address_up addr
  let align := flag &&& MALLOC_FLAG_ALIGN ≠ 0
  let real_alloc_size :=
    if align then add32 alloc_size (sub32 aligned_addr addr) else alloc_size
  let addr := if align then aligned_addr else addr
  if real_alloc_size > k.kheap_placement_memory_free_memory then .done NULL s
  else
    let s := s.setMm { s.mm with kheap := { k with
      kheap_placement_memory_head := add32 k.kheap_placement_memory_head real_alloc_size
      kheap_placement_memory_free_memory :=
        sub32 k.kheap_placement_memory_free_memory real_alloc_size } }
    (if flag &&& MALLOC_FLAG_INIT ≠ 0 then fill addr 0 alloc_size s else .done () s).andThen
      fun _ s => .done addr s

def vmm_map_table (s : Machine) (page_directory page_directory_dict virtual_address : Nat) :
    Outcome Machine Nat :=
  let page_directory_index := paging_directory_index virtual_address
  let table := load32 s.mem (directory_table page_directory page_directory_index)
  if table = NULL then
    (kmalloc_flag s SIZEOF_PAGE_TABLE (MALLOC_FLAG_ALIGN ||| MALLOC_FLAG_INIT)).andThen
      fun table s =>
      if table = NULL then .kpanic KPANIC_OUT_OF_MEMORY "Memory allocation failed." s
      else
        match vmm_virtual_to_physical_address s.mem page_directory_dict table with
        | none => .fault s
        | some table_physical_address =>
          let entry := directory_entry page_directory page_directory_index
          (set_present s entry 1).andThen fun _ s =>
          (set_read_write s entry 1).andThen fun _ s =>
          (set_user_supervisor s entry 1).andThen fun _ s =>
          (set_page_base s entry (table_physical_address >>> 12)).andThen fun _ s =>
          (set_page_size s entry 0).andThen fun _ s =>
          (store32 s (directory_table page_directory page_directory_index) table).andThen fun _ s =>
            .done table s
  else .done table s

def vmm_map_page (s : Machine)
    (page_directory page_directory_dict virtual_address physical_address : Nat)
    (is_kernel is_writeable : Bool) : Outcome Machine Unit :=
  (vmm_map_table s page_directory page_directory_dict virtual_address).andThen fun table s =>
    let entry := table_entry table (paging_table_index virtual_address)
    let frame_index := pmm_address_to_index physical_address
    (set_present s entry 1).andThen fun _ s =>
    (set_read_write s entry (if is_writeable then 1 else 0)).andThen fun _ s =>
    (set_user_supervisor s entry (if is_kernel then 0 else 1)).andThen fun _ s =>
    (set_available s entry (PAGE_FLAG_USED ||| PAGE_FLAG_PRESENT)).andThen fun _ s =>
      set_page_base s entry frame_index

/-! ## Mapping memory -/

section

variable (curr_page_directory : Nat)

def vmm_unmap_page (s : Machine) (virtual_address : Nat) : Outcome Machine Unit :=
  match vmm_virtual_to_physical_address s.mem curr_page_directory virtual_address with
  | none => .fault s
  | some frame_address =>
    if frame_address ≠ NULL then pmm_mark_frame_available s frame_address else .done () s

def vmm_unmap_pages (virtual_address : Nat) : Nat → Nat → Machine → Outcome Machine Unit
  | 0, _, s => .done () s
  | turns + 1, i, s =>
    let unmap_virtual_address := add32 virtual_address (mul32 i PAGE_SIZE)
    (vmm_unmap_page curr_page_directory s unmap_virtual_address).andThen fun _ s =>
      vmm_unmap_pages virtual_address turns (i + 1) s

def vmm_unmap_memory (s : Machine) (virtual_address size : Nat) : Outcome Machine Unit :=
  let virtual_address := paging_align_address_down virtual_address
  let num_pages := div_up size PAGE_SIZE
  vmm_unmap_pages curr_page_directory virtual_address num_pages 0 s

/-- The loop of `vmm_map_memory`, which ends with `false` when the free frames run out. -/
def vmm_map_pages (virtual_address physical_address : Nat) :
    Nat → Nat → Machine → Outcome Machine Bool
  | 0, _, s => .done true s
  | turns + 1, i, s =>
    let free_virtual_address := add32 virtual_address (mul32 i PAGE_SIZE)
    let free_physical_address := pmm_find_free_frame_from s.mm physical_address
    if free_physical_address = NULL then .done false s
    else
      (vmm_map_page s curr_page_directory curr_page_directory free_virtual_address
        free_physical_address true true).andThen fun _ s =>
      (pmm_mark_frame_reserved s free_physical_address).andThen fun _ s =>
        vmm_map_pages virtual_address physical_address turns (i + 1) s

/-- `vmm_map_memory` from the choice of the addresses on. -/
def vmm_map_range (s : Machine) (virtual_address physical_address size : Nat) :
    Outcome Machine Nat :=
  let virtual_address := paging_align_address_down virtual_address
  let num_pages := div_up size PAGE_SIZE
  (vmm_map_pages curr_page_directory virtual_address physical_address num_pages 0 s).andThen
    fun mapped s =>
      if mapped then .done virtual_address s
      else
        (vmm_unmap_memory curr_page_directory s virtual_address size).andThen fun _ s =>
          .done NULL s

end

def vmm_map_memory (s : Machine) (virtual_address physical_address size : Nat)
    (is_kernel _is_writeable : Bool) : Outcome Machine Nat :=
  match
    if virtual_address = NULL then
      vmm_find_free_memory s.vmm.curr_page_directory s.mem size is_kernel
    else some virtual_address with
  | none => .hang s
  | some virtual_address =>
    if virtual_address = NULL then
      .kpanic KPANIC_OUT_OF_MEMORY "Virtaul memory allocation failed." s
    else
      let physical_address :=
        if physical_address = NULL then pmm_find_free_frame s.mm else physical_address
      if physical_address = NULL then .done NULL s
      else vmm_map_range s.vmm.curr_page_directory s virtual_address physical_address size

def map_call (s : Machine) (c : MapCall) : Outcome Machine Nat :=
  vmm_map_memory s c.virtual_address.toNat c.physical_address.toNat c.size.toNat c.is_kernel
    c.is_writeable

/-- A call that returns, whatever it answers. -/
def call_step (s : Machine) (c : MapCall) : Option Machine :=
  match map_call s c with
  | .done _ t => some t
  | _ => none

/-- A call that succeeds. -/
def map_step (s : Machine) (c : MapCall) : Option Machine :=
  match map_call s c with
  | .done ret t => if ret = NULL then none else some t
  | _ => none

/-- The boot of a machine. Until `vmm_init` loads the page directory base, the tables of
`boot.asm` map the kernel space to the start of the physical memory. -/
def init_kernel_memory (image : KernelImage) (ram : Mem) (mmap : List MmapEntry) :
    Outcome Machine Unit :=
  (sakana_os.init_kernel_memory image (fun va => ram (va - VMM_KERNEL_SPACE_BASE)) mmap).lift
    fun w => .of (fun pa => w.mm.kheap.mem (VMM_KERNEL_SPACE_BASE + pa)) w

end sakana_os.translated
