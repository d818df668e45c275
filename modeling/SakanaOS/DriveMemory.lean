-- The memory that reads and writes cost: each one takes a buffer for a sector from the heap and
-- gives nothing back, so the heap runs out after a bounded number of them.
import SakanaOS.Runs
import SakanaOS.DriveRuns

open byte_memory block_tiling runs budgets

namespace sakana_os

/-! ## Free bytes -/

/-- The bytes of the free blocks. -/
def freeBytes (bs : List Block) : Nat := (bs.map fun b => if b.free then b.size else 0).sum

/-- The bytes that the heap has to give. -/
def heapFree (s : Kheap) : Nat := freeBytes (heap_blocks s)

theorem freeBytes_append (l r : List Block) : freeBytes (l ++ r) = freeBytes l + freeBytes r := by
  unfold freeBytes
  rw [List.map_append, List.sum_append]

theorem freeBytes_cons (b : Block) (r : List Block) :
    freeBytes (b :: r) = (if b.free then b.size else 0) + freeBytes r := by
  unfold freeBytes
  rw [List.map_cons, List.sum_cons]

theorem freeBytes_carve {size : Nat} {b : Block} (hfit : size ≤ b.size) :
    freeBytes (carve SIZEOF_HEAD size b) + size ≤ b.size := by
  by_cases hsplit : SIZEOF_HEAD < b.size - size
  · rw [carve_split hsplit, freeBytes_cons, freeBytes_cons]
    simp only [Bool.false_eq_true, if_false, if_true, freeBytes, List.map_nil, List.sum_nil]
    omega
  · rw [carve_whole hsplit, freeBytes_cons]
    simp only [Bool.false_eq_true, if_false, freeBytes, List.map_nil, List.sum_nil]
    omega

theorem Shape.heapFree_eq {s : Kheap} {bs : List Block} (h : Shape s bs) :
    heapFree s = freeBytes bs := by
  unfold heapFree
  rw [h.blocks]

/-- A block that was taken is paid for with free bytes. -/
theorem Took.pays {s s' : Kheap} {l r : List Block} {b : Block} {size : Nat} {init : Bool}
    (h : Took s s' l b r size init) (hs : Shape s (l ++ b :: r)) (hfree : b.free = true)
    (hfit : size ≤ b.size) : heapFree s' + size ≤ heapFree s := by
  have hcarve := freeBytes_carve hfit
  rw [h.shape.heapFree_eq, hs.heapFree_eq, freeBytes_append, freeBytes_append, freeBytes_append,
    freeBytes_cons, if_pos hfree]
  omega

/-! ## What a call costs -/

namespace DiskCall

def cost : DiskCall → Nat
  | read .. | write .. => ATA_SECTOR_SIZE
  | other _ => 0

/-- The driver accepts the range, and the caller owns its buffer. -/
structure Owned (s : Storage) (device : ata_device) (address buf size : Nat) : Prop where
  range : InDrive device address size
  top : buf + size ≤ 4294967296
  owned : ∀ x, buf ≤ x → x < buf + size → Held s.kheap x

/-- Whatever else the kernel does gives no memory back. -/
def Keeping (s : Storage) : DiskCall → Prop
  | read device address buf size => Owned s device address buf size
  | write device address buf data => Owned s device address buf data.length
  | other k => (∃ bs, Shape k bs) ∧ heapFree k ≤ heapFree s.kheap

end DiskCall

/-- No free block of the heap has room for a sector. -/
def NoRoomForSector (s : Kheap) : Prop :=
  ∀ b ∈ heap_blocks s, b.free = true → b.size < ATA_SECTOR_SIZE

/-- The driver stops the kernel, for want of memory. -/
def DiskCall.OutOfMemory (s : Storage) (call : DiskCall) : Prop :=
  call.exec s = .kpanic KPANIC_OUT_OF_MEMORY "Memory allocation failed." s

/-- The heap has no buffer for a sector, or gives one and has so much less. -/
theorem sector_buffer_cases {k : Kheap} {bs : List Block} (h : Shape k bs) :
    (kmalloc k ATA_SECTOR_SIZE = .done NULL k ∧ NoRoomForSector k) ∨
    ∃ p k' bs', kmalloc k ATA_SECTOR_SIZE = .done p k' ∧ p ≠ NULL ∧ Shape k' bs' ∧
      heapFree k' + ATA_SECTOR_SIZE ≤ heapFree k := by
  have hflag : kmalloc k ATA_SECTOR_SIZE = kmalloc_flag k ATA_SECTOR_SIZE MALLOC_FLAG_NULL := rfl
  have hfits : ATA_SECTOR_SIZE ≤ KHEAP_HEAP_SIZE := by decide
  rw [hflag]
  rcases kmalloc_flag_spec h hfits (show MALLOC_FLAG_NULL &&& MALLOC_FLAG_ALIGN = 0 by rfl) with
    ⟨heq, hnone⟩ | ⟨l, b, r, t, rfl, -, hfree, -, hfit, heq, htook⟩
  · refine Or.inl ⟨heq, ?_⟩
    have hbest := hnone.resolve_left (by decide)
    rw [bestFit_eq, bestOf_none] at hbest
    intro b hb hfree
    rw [h.blocks] at hb
    exact Nat.lt_of_not_le fun hroom => hbest b hb ⟨hfree, hroom⟩
  · refine Or.inr ⟨_, t, _, heq, ?_, htook.shape, htook.pays h hfree hfit⟩
    unfold NULL
    omega

section

variable {s : Storage} {device : ata_device} {address buf size : Nat} {bs : List Block}

/-- Without a buffer, both calls stop the kernel, with nothing changed. -/
theorem DiskCall.Owned.out_of_memory (h : DiskCall.Owned s device address buf size)
    (hnull : kmalloc s.kheap ATA_SECTOR_SIZE = .done NULL s.kheap) :
    ata_read s device address buf size =
        .kpanic KPANIC_OUT_OF_MEMORY "Memory allocation failed." s ∧
      ata_write s device address buf size =
        .kpanic KPANIC_OUT_OF_MEMORY "Memory allocation failed." s := by
  have hwithin := h.range.within
  have hword := h.range.word
  have hsize : ¬ device.size < add32 address size := by
    unfold add32
    omega
  have hpanic : ∀ loop, ata_transfer s device address size loop =
      .kpanic KPANIC_OUT_OF_MEMORY "Memory allocation failed." s := by
    intro loop
    unfold ata_transfer
    rw [if_neg hsize, if_neg (by rw [h.range.present]; decide),
      if_neg (by rw [h.range.lba_supported]; decide), hnull]
    rfl
  unfold ata_read ata_write
  exact ⟨hpanic _, hpanic _⟩

/-- With one, both calls return, and leave the blocks that the allocation left. -/
theorem DiskCall.Owned.returns (h : DiskCall.Owned s device address buf size)
    (hheap : Shape s.kheap bs) {p : Nat} {k : Kheap} {bs' : List Block}
    (halloc : kmalloc s.kheap ATA_SECTOR_SIZE = .done p k) (hp : p ≠ NULL) (hk : Shape k bs') :
    (∃ t, ata_read s device address buf size = .done size t ∧ Shape t.kheap bs') ∧
      ∃ t, ata_write s device address buf size = .done size t ∧ Shape t.kheap bs' := by
  obtain ⟨p', k', hgranted, -, hkept, hnew⟩ :=
    Allowed.granted ⟨h.range, h.top, h.owned, p, k, halloc, hp⟩ hheap
  have hsame := hgranted.call
  rw [halloc] at hsame
  cases hsame
  obtain ⟨t, hread, -, hbeside⟩ := ata_read_spec h.range hgranted h.top
  obtain ⟨u, hwrite, -, hbeside'⟩ := ata_write_spec h.range hgranted h.top
  refine ⟨⟨t, hread, beside_blocks hbeside hk hnew fun x hx => ?_⟩,
    u, hwrite, beside_blocks hbeside' hk hnew fun _ _ => rfl⟩
  apply storeList_frame
  rw [length_loadList]
  by_cases hin : buf ≤ x ∧ x < buf + size
  · exact absurd (hkept x (h.owned x hin.1 hin.2)).1 hx
  · omega

end

/-- What is left of `s` when a call that returned has paid its cost. -/
structure Paid (s t : Storage) (cost : Nat) : Prop where
  heap : ∃ bs, Shape t.kheap bs
  paid : heapFree t.kheap + cost ≤ heapFree s.kheap

/-- A call returns and has paid its cost, or finds no buffer and stops the kernel. -/
theorem disk_call_pays {s : Storage} {call : DiskCall} (hheap : ∃ bs, Shape s.kheap bs)
    (h : call.Keeping s) :
    (∃ n t, call.exec s = .done n t ∧ Paid s t call.cost) ∨
      call.OutOfMemory s ∧ NoRoomForSector s.kheap := by
  obtain ⟨bs, hbs⟩ := hheap
  have hsector := sector_buffer_cases hbs
  cases call with
  | read device address buf size =>
    have howned : DiskCall.Owned s device address buf size := h
    rcases hsector with ⟨hnull, hno⟩ | ⟨p, k, bs', halloc, hp, hk, hpaid⟩
    · exact Or.inr ⟨(howned.out_of_memory hnull).1, hno⟩
    · obtain ⟨⟨t, hread, ht⟩, -⟩ := howned.returns hbs halloc hp hk
      rw [hk.heapFree_eq, ← ht.heapFree_eq] at hpaid
      exact Or.inl ⟨size, t, hread, ⟨bs', ht⟩, hpaid⟩
  | write device address buf data =>
    have howned : DiskCall.Owned s device address buf data.length := h
    rcases hsector with ⟨hnull, hno⟩ | ⟨p, k, bs', halloc, hp, hk, hpaid⟩
    · exact Or.inr ⟨(howned.out_of_memory hnull).2, hno⟩
    · obtain ⟨-, t, hwrite, ht⟩ := howned.returns hbs halloc hp hk
      rw [hk.heapFree_eq, ← ht.heapFree_eq] at hpaid
      exact Or.inl ⟨data.length, t, hwrite, ⟨bs', ht⟩, hpaid⟩
  | other k => exact Or.inl ⟨0, _, rfl, h.1, h.2⟩

/-! ## Every run -/

theorem disk_step_done {s t : Storage} {call : DiskCall} {n : Nat}
    (h : call.exec s = .done n t) : disk_step s call = some t := by
  unfold disk_step
  rw [h]

theorem disk_step_out_of_memory {s : Storage} {call : DiskCall} (h : call.OutOfMemory s) :
    disk_step s call = none := by
  unfold DiskCall.OutOfMemory at h
  unfold disk_step
  rw [h]

theorem disk_step_pays : Pays disk_step DiskCall.Keeping (fun s => ∃ bs, Shape s.kheap bs)
    (fun s => heapFree s.kheap) DiskCall.cost := by
  intro s call t hheap hkeeping hstep
  rcases disk_call_pays hheap hkeeping with ⟨n, u, hdone, hpaid⟩ | ⟨hout, -⟩
  · rw [disk_step_done hdone] at hstep
    cases hstep
    exact ⟨hpaid.heap, hpaid.paid⟩
  · rw [disk_step_out_of_memory hout] at hstep
    cases hstep

/-- Reads and writes use up the heap. While nothing else gives memory back, every run that
returns has spent 512 free bytes for each of them; a run of more than the free bytes allow does
not return; and one that does not return stops the kernel for want of memory, at a call
that finds no free block with room for a sector. -/
theorem transfers_use_up_the_heap {s : Storage} {calls : List DiskCall}
    (hheap : ∃ bs, Shape s.kheap bs) (hkeeping : Along disk_step DiskCall.Keeping s calls) :
    (∀ t, run disk_step s calls = some t →
      heapFree t.kheap + bill DiskCall.cost calls ≤ heapFree s.kheap) ∧
    (heapFree s.kheap < bill DiskCall.cost calls → run disk_step s calls = none) ∧
    (run disk_step s calls = none →
      ∃ before call after u, calls = before ++ call :: after ∧
        run disk_step s before = some u ∧ call.OutOfMemory u ∧ NoRoomForSector u.kheap) := by
  refine ⟨?_, ?_, ?_⟩
  · intro t hrun
    exact (run_pays disk_step_pays hheap hkeeping hrun).2
  · exact run_exhausted disk_step_pays hheap hkeeping
  · intro hnone
    obtain ⟨before, call, after, u, rfl, hrun, hstop⟩ := run_stops hnone
    have hu := (run_pays disk_step_pays hheap (along_front hkeeping) hrun).1
    have hnow := along_iff.mp hkeeping before call after u rfl hrun
    rcases disk_call_pays hu hnow with ⟨n, t, hdone, -⟩ | hout
    · rw [disk_step_done hdone] at hstop
      cases hstop
    · exact ⟨before, call, after, u, rfl, hrun, hout⟩

theorem a_read_uses_up_a_sector : ∃ t,
    run disk_step ⟨startHeap, blankIde⟩ [.read sampleDevice 510 0x2000 4] = some t ∧
      heapFree t.kheap + 512 ≤ heapFree startHeap := by
  have hallowed : Allowed ⟨startHeap, blankIde⟩ sampleDevice 510 0x2000 4 :=
    start_storage_allowed rfl (by decide)
  have hlegal : Along disk_step DiskCall.Legal ⟨startHeap, blankIde⟩
      [.read sampleDevice 510 0x2000 4] := ⟨hallowed, fun _ _ => trivial⟩
  have hkeeping : Along disk_step DiskCall.Keeping ⟨startHeap, blankIde⟩
      [.read sampleDevice 510 0x2000 4] :=
    ⟨⟨hallowed.range, hallowed.top, hallowed.owned⟩, fun _ _ => trivial⟩
  obtain ⟨t, hrun, -, -⟩ := disk_run startHeap_shape hlegal
  exact ⟨t, hrun, (transfers_use_up_the_heap startHeap_shape hkeeping).1 t hrun⟩

end sakana_os
