-- What `ataread` shows: the bytes of the drive, or those that the heap happened to hold in the
-- block that it gave. Two kernels that differ in their free memory alone tell these apart.
import SakanaOS.AtaCommands

open byte_memory block_tiling forests

namespace sakana_os

open in_memory

/-! ## Free memory -/

/-- A byte that belongs to a free block. -/
def FreeByte (bs : List Block) (x : Nat) : Prop :=
  ∃ b ∈ bs, b.free = true ∧ b.addr + 20 ≤ x ∧ x < b.addr + 20 + b.size

/-- The memory is that of the heap, but for the bytes of the free blocks. -/
def SameBesideFree (k : Kheap) (m : Mem) : Prop :=
  ∀ x, ¬ FreeByte (heap_blocks k) x → m x = k.mem x

/-- The command sends the same, whatever the free memory holds. -/
def ShowsNoFreeMemory (d : DeviceTree) (s argc argv : Nat) (t : ShellState) : Prop :=
  ∀ m, SameBesideFree t.kheap m →
    (shell_execute_ata_read d s argc argv (t.setMem m)).state.sent =
      (shell_execute_ata_read d s argc argv t).state.sent

/-- The command sends no byte of the buffer, or the driver has filled it: it accepts the range,
which ends in the address space. Without a buffer for a sector it sends nothing. -/
def BufferIsFilled (d : DeviceTree) (f : Forest Nat) (bs : List Block) : List (List UInt8) → Prop
  | [_, w1, w2] =>
    ∀ device, firstStorage d f = some device → atoi w2 ≠ 0 →
      ¬ Refused (d.driver device) (atoi w1) (atoi w2) ∧
        (atoi w1 + atoi w2 ≤ 4294967296 ∨
          bestFit ATA_SECTOR_SIZE (afterTaking (add32 (atoi w2) 1) bs) = none)
  | _ => True

section

variable {k : Kheap} {live pinned : List Nat}

/-- A heap with other bytes in its free blocks. -/
theorem ClientHeap.beside_free (h : ClientHeap k live pinned) {m : Mem}
    (hm : SameBesideFree k m) :
    ClientHeap { k with mem := m } live pinned ∧
      heap_blocks { k with mem := m } = heap_blocks k ∧
      ∀ q ∈ live, Keeps k { k with mem := m } q := by
  have hheads : SameHeads k.mem m (heap_blocks k) := by
    intro c hc x hx hx'
    apply hm
    rintro ⟨b, hb, -, hlo, hhi⟩
    rcases h.shape.offHeads hb hlo hhi c hc with hoff | hoff
    · omega
    · omega
  obtain ⟨hheap, hblocks, hsizes⟩ := h.congr hheads
  refine ⟨hheap, hblocks, fun q hq => ⟨hsizes q hq, fun x hx hx' => hm x ?_, ?_⟩⟩
  · rintro ⟨b, hb, hfree, hlo, hhi⟩
    obtain ⟨l, c, r, hbs, hused, rfl, hsize⟩ := h.block hq
    have hc : c ∈ heap_blocks k := by simp [hbs]
    have hdis := tiles_disjoint h.shape.tiles hb hc
    simp only [Block.stop, SIZEOF_HEAD] at hdis
    rcases hdis with rfl | hdis | hdis
    · rw [hfree] at hused
      cases hused
    · omega
    · omega
  · intro x hx hx'
    obtain ⟨l, c, r, hbs, -, rfl, -⟩ := h.block hq
    exact hheads c (by simp [hbs]) x (by omega) (by omega)

end

/-! ## How the driver ends -/

theorem sector_parts_sector (r : SectorRange) (turns idx data_ptr : Nat) :
    ∀ part ∈ sector_parts r turns idx data_ptr, part.sector < idx + turns := by
  induction turns generalizing idx data_ptr with
  | zero => exact fun part hpart => absurd hpart List.not_mem_nil
  | succ turns ih =>
    intro part hpart
    rw [sector_parts] at hpart
    simp only at hpart
    rcases List.mem_cons.mp hpart with rfl | hpart
    · show idx < _
      omega
    · have hrest := ih _ _ part hpart
      omega

section

variable {s : Storage} {drive : ata_device} {live pinned : List Nat} {addr buf size : Nat}

/-- The driver goes through a range that it accepts, when it has a buffer. -/
theorem ata_read_returns (haddr : addr < 4294967296) (haccept : ¬ Refused drive addr size)
    (hbuffer : HasSectorBuffer s) : ∃ n t, ata_read s drive addr buf size = .done n t := by
  obtain ⟨p, k, halloc, hp⟩ := hbuffer
  unfold ata_read
  rw [transfer_accepted haccept halloc hp, read_loop_parts]
  have hsector : ∀ part ∈ sector_parts (ata_sector_range addr size)
      ((ata_sector_range addr size).end_sector + 1 - (ata_sector_range addr size).start_sector)
      (ata_sector_range addr size).start_sector buf, part.sector < 268435456 := by
    intro part hpart
    have hlast := sub32_lt (add32 addr size) 1
    have hlt := sector_parts_sector _ _ _ _ part hpart
    have hend : (ata_sector_range addr size).end_sector =
        sub32 (add32 addr size) 1 / ATA_SECTOR_SIZE := rfl
    have hstart : (ata_sector_range addr size).start_sector = addr / ATA_SECTOR_SIZE := rfl
    rw [hend, hstart] at hlt
    unfold ATA_SECTOR_SIZE at hlt
    omega
  obtain ⟨t, hparts⟩ := each_part_returns
    (fun u part hpart => read_part_returns drive p u (hsector part hpart)) { s with kheap := k }
  rw [hparts]
  exact ⟨_, t, rfl⟩

/-- The bytes at `buf` after a range that is not empty: those of the drive, or the old ones when
the sum of address and size wraps. -/
theorem ata_read_leaves (h : ClientHeap s.kheap live pinned) (hbuf : buf ∈ live)
    (hfits : size < payload_size s.kheap buf) (haddr : addr < 4294967296) (hpos : size ≠ 0)
    (haccept : ¬ Refused drive addr size)
    (hbest : bestFit ATA_SECTOR_SIZE (heap_blocks s.kheap) ≠ none) :
    ∃ n t, ata_read s drive addr buf size = .done n t ∧
      loadList t.mem buf size = if addr + size ≤ 4294967296
        then loadList (s.ide.drives drive.drive) addr size else loadList s.mem buf size := by
  obtain ⟨p, k, halloc, hgot⟩ := kmalloc_grants h (show ATA_SECTOR_SIZE ≠ 0 by decide) hbest
  obtain ⟨hp, hword, -, -⟩ := hgot.heap.bounds List.mem_cons_self
  have hroom := hgot.fits
  have hin := List.mem_cons_of_mem p hbuf
  obtain ⟨-, htop, -, -⟩ := hgot.heap.bounds hin
  have hapart := hgot.heap.apart List.mem_cons_self hin fun heq => hgot.fresh (heq ▸ hbuf)
  have hkeep := hgot.keeps buf hbuf
  have hsame := hkeep.size
  have hsmall := h.payload_lt hbuf
  unfold KHEAP_HEAP_SIZE at hsmall
  have heq : ata_read s drive addr buf size = ata_read_loop drive (ata_sector_range addr size) p
      ((ata_sector_range addr size).end_sector + 1 - (ata_sector_range addr size).start_sector)
      (ata_sector_range addr size).start_sector buf 0 { s with kheap := k } :=
    transfer_accepted haccept halloc hp _
  by_cases hsum : addr + size ≤ 4294967296
  · rw [if_pos hsum]
    have hturns : addr / ATA_SECTOR_SIZE + ((ata_sector_range addr size).end_sector + 1 -
        (ata_sector_range addr size).start_sector) = (addr + size - 1) / ATA_SECTOR_SIZE + 1 := by
      rw [sector_range_eq (by omega) hsum]
      unfold ATA_SECTOR_SIZE
      simp only
      omega
    have hfirst := bytesBefore_start addr size
    obtain ⟨t, hloop, -, hbuffer⟩ := @read_loop_spec drive addr size buf p (by omega) hsum
      (by omega) (by omega) (by omega) _ _ buf { s with kheap := k } (Nat.le_refl _) hturns
      fun _ => by rw [hfirst, Nat.add_zero]
    rw [hfirst] at hloop hbuffer
    rw [Nat.add_zero, Nat.add_zero, Nat.sub_zero] at hbuffer
    refine ⟨size, t, heq.trans hloop, ?_⟩
    have hstored : loadList t.mem buf size = loadList (storeList k.mem buf
        (loadList (s.ide.drives drive.drive) addr size)) buf size :=
      loadList_congr fun x hx hx' => hbuffer.mem x (by omega)
    have hall := loadList_storeList k.mem buf (loadList (s.ide.drives drive.drive) addr size)
    rw [length_loadList] at hall
    rw [hstored, hall]
  · rw [if_neg hsum]
    have hturns : (ata_sector_range addr size).end_sector + 1 -
        (ata_sector_range addr size).start_sector = 0 := by
      unfold ata_sector_range ATA_SECTOR_SIZE add32 sub32
      simp only
      omega
    rw [hturns] at heq
    refine ⟨0, { s with kheap := k }, heq, ?_⟩
    exact loadList_congr fun x hx hx' => hkeep.bytes x hx (by omega)

end

/-! ## What the command sends -/

/-- What stops before a function is called stays. -/
theorem andThen_state_of_stuck {σ α β : Type} {o : Outcome σ α}
    (h : ∀ a t, o ≠ .done a t) (f : α → σ → Outcome σ β) : (o.andThen f).state = o.state := by
  cases o with
  | done a t => exact absurd rfl (h a t)
  | kpanic code message t => rfl
  | fault t => rfl
  | hang t => rfl

theorem andThen_done_state {σ α β : Type} (o : Outcome σ α) (b : β) :
    (o.andThen fun _ t => .done b t).state = o.state := by
  cases o with
  | done a t => rfl
  | kpanic code message t => rfl
  | fault t => rfl
  | hang t => rfl

/-- What the driver leaves at `data`, with the memory `m` and the drives before it. -/
def shownBytes (ide : Ide) (m : Mem) (drive : ata_device) (addr data size : Nat) : List UInt8 :=
  if ¬ Refused drive addr size ∧ addr + size ≤ 4294967296 then
    loadList (ide.drives drive.drive) addr size
  else loadList m data size

section

variable {d : DeviceTree} {f : Forest Nat} {live pinned written : List Nat} {s argv : Nat}
  {t : ShellState} {w0 w1 w2 : List UInt8}

/-- The output of a command whose driver returned. -/
theorem read_sends {device data : Nat} {k : Kheap} {n : Nat} {u : Storage}
    (hread1 : string_at t.mem 4294967296 (load32 t.mem (argv + 4)) = some w1)
    (hread2 : string_at t.mem 4294967296 (load32 t.mem (argv + 8)) = some w2)
    (hdevice : storage_device d = some device) (hfound : device ≠ NULL)
    (halloc : kmalloc t.kheap (add32 (atoi w2) 1) = .done data k)
    (hdriver : ata_read { t.storage with kheap := k } (d.driver device) (atoi w1) data (atoi w2) =
      .done n u)
    (htop : data + atoi w2 < 4294967296) :
    (shell_execute_ata_read d s 3 argv t).state.sent = t.sent ++ literal "read: " ++
      (loadList u.mem data (atoi w2)).takeWhile (· != 0) ++ literal "\n" := by
  obtain ⟨m, hm⟩ : ∃ m, m = store8 u.mem (add32 data (atoi w2)) 0 := ⟨_, rfl⟩
  have hend : add32 data (atoi w2) = data + atoi w2 := add32_eq htop
  have hnul : m (data + atoi w2) = 0 := by
    rw [hm, hend, store8_same]
  have hchars := string_at_takeWhile 4294967296 (atoi_lt w2) hnul
  have hbytes : loadList m data (atoi w2) = loadList u.mem data (atoi w2) := by
    apply loadList_congr
    intro x hx hx'
    rw [hm, hend, store8_ne]
    omega
  have hdriver' : ata_read (t.setKheap k).storage (d.driver device) (atoi w1) data (atoi w2) =
      .done n u := hdriver
  unfold shell_execute_ata_read
  simp only [if_true, hread1, hread2, hdevice, halloc, Outcome.done_lift, Outcome.done_andThen,
    hfound, if_false, hdriver']
  obtain ⟨v, hv⟩ : ∃ v, v = stream_puts (((t.setKheap k).setStorage u).setMem m) "read: " :=
    ⟨_, rfl⟩
  have hmem : v.mem = m := by
    rw [hv]
    rfl
  have hprinted : stream_puts_at v data =
      .done () { v with sent := v.sent ++ (loadList m data (atoi w2)).takeWhile (· != 0) } := by
    unfold stream_puts_at
    rw [hmem, hchars]
  have hstore : (((t.setKheap k).setStorage u).setMem
      (store8 ((t.setKheap k).setStorage u).mem (add32 data (atoi w2)) 0)) =
      ((t.setKheap k).setStorage u).setMem m := by
    rw [hm]
    rfl
  rw [hstore, ← hv, hprinted, Outcome.done_andThen, andThen_done_state, Outcome.state_lift, hbytes,
    hv]
  rfl

/-- The output of the command, for the block `b` that its buffer is taken from. -/
theorem read_output (htree : TreeIs d.registry.device_tree f)
    (hdata : ∀ a ∈ f.preorder, (d.registry.device_tree.nodes a).data ≠ NULL)
    (hheap : ClientHeap t.kheap live pinned)
    (hargs : ArgsAt t.kheap live written argv [w0, w1, w2]) {device : Nat}
    (hfirst : firstStorage d f = some device) (hpos : add32 (atoi w2) 1 ≠ 0) {b : Block}
    (hbest : bestFit (add32 (atoi w2) 1) (heap_blocks t.kheap) = some b) :
    (shell_execute_ata_read d s 3 argv t).state.sent =
      if Refused (d.driver device) (atoi w1) (atoi w2) ∨
          bestFit ATA_SECTOR_SIZE (afterTaking (add32 (atoi w2) 1) (heap_blocks t.kheap)) ≠
            none then
        t.sent ++ literal "read: " ++ (shownBytes t.storage.ide t.mem (d.driver device) (atoi w1)
          (b.addr + 20) (atoi w2)).takeWhile (· != 0) ++ literal "\n"
      else t.sent := by
  have hread1 : string_at t.mem 4294967296 (load32 t.mem (argv + 4)) = some w1 :=
    hargs.read hheap (show argv + 4 = argv + 4 * 1 from rfl) rfl
  have hread2 : string_at t.mem 4294967296 (load32 t.mem (argv + 8)) = some w2 :=
    hargs.read hheap (show argv + 8 = argv + 4 * 2 from rfl) rfl
  obtain ⟨hdevice, hfound⟩ := storage_device_of_first htree hdata hfirst
  have hsome : bestFit (add32 (atoi w2) 1) (heap_blocks t.kheap) ≠ none := by simp [hbest]
  obtain ⟨data, k, halloc, hgot⟩ := kmalloc_grants hheap hpos hsome
  obtain ⟨b', hbest', haddr, -, -⟩ := hgot.best
  obtain rfl : b' = b := Option.some.inj (hbest'.symm.trans hbest)
  have hlt := atoi_lt w2
  have hadd : add32 (atoi w2) 1 = atoi w2 + 1 := by
    unfold add32 at hpos ⊢
    omega
  have hfits := hgot.fits
  have hsmall := hgot.heap.payload_lt List.mem_cons_self
  obtain ⟨hne, htop, -, -⟩ := hgot.heap.bounds List.mem_cons_self
  rw [hadd] at hfits
  -- the bytes that nobody has written yet
  have hold : loadList k.mem data (atoi w2) = loadList t.mem data (atoi w2) := by
    apply loadList_congr
    intro x hx hx'
    exact (kmalloc_bytes hheap (by omega) halloc hne hx (by omega)).1
  rw [← haddr]
  unfold shownBytes
  by_cases hrefused : Refused (d.driver device) (atoi w1) (atoi w2)
  · rw [if_pos (Or.inl hrefused), if_neg (fun h => h.1 hrefused), ← hold]
    exact read_sends hread1 hread2 hdevice hfound halloc (transfer_refused hrefused _) (by omega)
  · by_cases hsector : bestFit ATA_SECTOR_SIZE (heap_blocks k) = none
    · have hstuck : ∀ n u, ata_read { t.storage with kheap := k } (d.driver device) (atoi w1) data
          (atoi w2) ≠ .done n u :=
        transfer_stuck hrefused (fun h => (sector_buffer_iff hgot.heap).mp h hsector) _
      rw [hgot.blocks] at hsector
      rw [if_neg (by simp [hrefused, hsector])]
      unfold shell_execute_ata_read
      simp only [if_true, hread1, hread2, hdevice, halloc, Outcome.done_lift, Outcome.done_andThen,
        hfound, if_false]
      rw [andThen_state_of_stuck, Outcome.state_lift]
      · rfl
      · intro _ v hdone
        obtain ⟨u, hdone, -⟩ := Outcome.lift_eq_done.mp hdone
        exact hstuck _ u hdone
    · rw [← hgot.blocks, if_pos (Or.inr hsector)]
      by_cases hpos' : atoi w2 = 0
      · -- nothing is shown of a range that is empty, whatever the driver wrote
        obtain ⟨n, u, hdriver⟩ := @ata_read_returns { t.storage with kheap := k } _ _ data _
          (atoi_lt w1) hrefused ((sector_buffer_iff hgot.heap).mpr hsector)
        rw [read_sends hread1 hread2 hdevice hfound halloc hdriver (by omega), hpos']
        simp [loadList]
      · obtain ⟨n, u, hdriver, hbytes⟩ := @ata_read_leaves { t.storage with kheap := k } _ _ _ _ _ _
          hgot.heap List.mem_cons_self (show atoi w2 < payload_size k data by omega) (atoi_lt w1)
          hpos' hrefused hsector
        rw [read_sends hread1 hread2 hdevice hfound halloc hdriver (by omega), hbytes]
        have hmem : Storage.mem { t.storage with kheap := k } = k.mem := rfl
        simp only [hrefused, not_false_eq_true, true_and, hmem, hold]

/-- The same kernel, with other bytes in its free memory. -/
theorem beside_free_ready (hheap : ClientHeap t.kheap live pinned) {ws : List (List UInt8)}
    (hargs : ArgsAt t.kheap live written argv ws) {m : Mem} (hm : SameBesideFree t.kheap m) :
    ClientHeap (t.setMem m).kheap live pinned ∧
      heap_blocks (t.setMem m).kheap = heap_blocks t.kheap ∧
      ArgsAt (t.setMem m).kheap live written argv ws := by
  obtain ⟨hheap', hblocks, hkeeps⟩ := hheap.beside_free hm
  exact ⟨hheap', hblocks, hargs.kept (leaves_of_keeps hkeeps)⟩

theorem read_output_beside_free (htree : TreeIs d.registry.device_tree f)
    (hdata : ∀ a ∈ f.preorder, (d.registry.device_tree.nodes a).data ≠ NULL)
    (hheap : ClientHeap t.kheap live pinned)
    (hargs : ArgsAt t.kheap live written argv [w0, w1, w2]) {device : Nat}
    (hfirst : firstStorage d f = some device) (hpos : add32 (atoi w2) 1 ≠ 0) {b : Block}
    (hbest : bestFit (add32 (atoi w2) 1) (heap_blocks t.kheap) = some b) {m : Mem}
    (hm : SameBesideFree t.kheap m) :
    (shell_execute_ata_read d s 3 argv (t.setMem m)).state.sent =
      if Refused (d.driver device) (atoi w1) (atoi w2) ∨
          bestFit ATA_SECTOR_SIZE (afterTaking (add32 (atoi w2) 1) (heap_blocks t.kheap)) ≠
            none then
        t.sent ++ literal "read: " ++ (shownBytes t.storage.ide m (d.driver device) (atoi w1)
          (b.addr + 20) (atoi w2)).takeWhile (· != 0) ++ literal "\n"
      else t.sent := by
  obtain ⟨hheap', hblocks, hargs'⟩ := beside_free_ready hheap hargs hm
  rw [← hblocks] at hbest ⊢
  exact read_output htree hdata hheap' hargs' hfirst hpos hbest

/-- Without a storage device nothing is sent. -/
theorem read_sends_nothing (htree : TreeIs d.registry.device_tree f)
    (hheap : ClientHeap t.kheap live pinned)
    (hargs : ArgsAt t.kheap live written argv [w0, w1, w2]) (hnone : firstStorage d f = none)
    (hpos : add32 (atoi w2) 1 ≠ 0)
    (hsome : bestFit (add32 (atoi w2) 1) (heap_blocks t.kheap) ≠ none) :
    (shell_execute_ata_read d s 3 argv t).state.sent = t.sent := by
  have hread1 : string_at t.mem 4294967296 (load32 t.mem (argv + 4)) = some w1 :=
    hargs.read hheap (show argv + 4 = argv + 4 * 1 from rfl) rfl
  have hread2 : string_at t.mem 4294967296 (load32 t.mem (argv + 8)) = some w2 :=
    hargs.read hheap (show argv + 8 = argv + 4 * 2 from rfl) rfl
  have hdevice : storage_device d = some NULL := by
    rw [storage_device_eq htree, hnone]
    rfl
  obtain ⟨data, k, halloc, -⟩ := kmalloc_grants hheap hpos hsome
  unfold shell_execute_ata_read
  simp only [if_true, hread1, hread2, hdevice, halloc, Outcome.done_lift, Outcome.done_andThen]
  rfl

theorem read_shows_iff (htree : TreeIs d.registry.device_tree f)
    (hdata : ∀ a ∈ f.preorder, (d.registry.device_tree.nodes a).data ≠ NULL)
    (hheap : ClientHeap t.kheap live pinned)
    (hargs : ArgsAt t.kheap live written argv [w0, w1, w2]) (hpos : add32 (atoi w2) 1 ≠ 0)
    (hsome : bestFit (add32 (atoi w2) 1) (heap_blocks t.kheap) ≠ none) :
    ShowsNoFreeMemory d s 3 argv t ↔ BufferIsFilled d f (heap_blocks t.kheap) [w0, w1, w2] := by
  obtain ⟨b, hbest⟩ := Option.ne_none_iff_exists'.mp hsome
  obtain ⟨l, r, hbs, hfree, hroom, -⟩ := bestFit_some hbest
  have hadd : add32 (atoi w2) 1 = atoi w2 + 1 := by
    have hlt := atoi_lt w2
    unfold add32 at hpos ⊢
    omega
  constructor
  · intro hshows device hfirst hne
    by_contra hnot
    -- a byte of the buffer that is 0 in the one kernel and 1 in the other
    obtain ⟨m, hm⟩ : ∃ m, m =
        store8 t.mem (b.addr + 20) (if t.mem (b.addr + 20) = 0 then 1 else 0) := ⟨_, rfl⟩
    have hbeside : SameBesideFree t.kheap m := by
      intro x hx
      rw [hm, store8_ne _ _ fun he => hx ⟨b, by simp [hbs], hfree, by omega, by omega⟩]
      rfl
    have hsame := hshows m hbeside
    rw [read_output_beside_free htree hdata hheap hargs hfirst hpos hbest hbeside,
      read_output htree hdata hheap hargs hfirst hpos hbest] at hsame
    have hsends : Refused (d.driver device) (atoi w1) (atoi w2) ∨
        bestFit ATA_SECTOR_SIZE (afterTaking (add32 (atoi w2) 1) (heap_blocks t.kheap)) ≠ none := by
      by_contra hstuck
      rw [not_or, not_not] at hstuck
      exact hnot ⟨hstuck.1, Or.inr hstuck.2⟩
    have hold : ¬ (¬ Refused (d.driver device) (atoi w1) (atoi w2) ∧
        atoi w1 + atoi w2 ≤ 4294967296) := fun h => hnot ⟨h.1, Or.inl h.2⟩
    unfold shownBytes at hsame
    rw [if_pos hsends, if_pos hsends, if_neg hold, if_neg hold, List.append_cancel_right_eq,
      List.append_cancel_left_eq] at hsame
    obtain ⟨size, hsize⟩ := Nat.exists_eq_succ_of_ne_zero hne
    have hfirstByte : m (b.addr + 20) = if t.mem (b.addr + 20) = 0 then 1 else 0 := by
      rw [hm, store8_same]
    rw [hsize, loadList_succ, loadList_succ, hfirstByte] at hsame
    by_cases hzero : t.mem (b.addr + 20) = 0
    · rw [if_pos hzero, hzero] at hsame
      simp at hsame
    · rw [if_neg hzero, List.takeWhile_cons_of_neg (by simp),
        List.takeWhile_cons_of_pos (by simp [hzero])] at hsame
      cases hsame
  · intro hfilled m hm
    cases hfirst : firstStorage d f with
    | none =>
      obtain ⟨hheap', hblocks, hargs'⟩ := beside_free_ready hheap hargs hm
      rw [read_sends_nothing htree hheap hargs hfirst hpos hsome,
        read_sends_nothing htree hheap' hargs' hfirst hpos (by rwa [hblocks])]
      rfl
    | some device =>
      rw [read_output_beside_free htree hdata hheap hargs hfirst hpos hbest hm,
        read_output htree hdata hheap hargs hfirst hpos hbest]
      unfold shownBytes
      by_cases hzero : atoi w2 = 0
      · rw [hzero]
        simp only [loadList, List.range_zero, List.map_nil, ite_self]
      · obtain ⟨haccept, hsum | hstuck⟩ := hfilled device hfirst hzero
        · rw [if_pos (show _ ∧ _ from ⟨haccept, hsum⟩), if_pos (show _ ∧ _ from ⟨haccept, hsum⟩)]
        · rw [if_neg (by simp [haccept, hstuck]), if_neg (by simp [haccept, hstuck])]

/-- `ataread` shows nothing of the free memory exactly when it shows no byte at all, or the driver
accepts a range that ends in the address space. -/
theorem ataread_shows_no_free_memory_when_its_buffer_is_filled
    (htree : TreeIs d.registry.device_tree f)
    (hdata : ∀ a ∈ f.preorder, (d.registry.device_tree.nodes a).data ≠ NULL)
    (hheap : ClientHeap t.kheap live pinned) {ws : List (List UInt8)}
    (hargs : ArgsAt t.kheap live written argv ws)
    (hgranted : BufferGranted (heap_blocks t.kheap) .ata_read ws) :
    ShowsNoFreeMemory d s ws.length argv t ↔ BufferIsFilled d f (heap_blocks t.kheap) ws := by
  by_cases hlen : ws.length = 3
  · obtain ⟨w0, w1, w2, rfl⟩ := List.length_eq_three.mp hlen
    exact read_shows_iff htree hdata hheap hargs hgranted.1 hgranted.2
  · have hsent : ∀ u : ShellState,
        shell_execute_ata_read d s ws.length argv u = .done (-1) u := fun u => if_neg hlen
    refine iff_of_true (fun m _ => ?_) ?_
    · rw [hsent, hsent]
      rfl
    · unfold BufferIsFilled
      split
      · exact absurd rfl hlen
      · trivial

end

/-- The first bytes of the disk are shown, whatever the free memory holds. -/
theorem the_first_bytes_of_the_disk_are_shown :
    ∃ t : ShellState, ∃ live argv, ArgsAt t.kheap live [] argv (readCommand (literal "4")) ∧
      ShowsNoFreeMemory diskTree NULL 3 argv t := by
  obtain ⟨t, live, argv, hheap, hargs, hblocks⟩ :=
    @first_command (readCommand (literal "4")) (by decide +kernel) (by decide)
      (by decide) (by decide)
  have hgranted : BufferGranted (heap_blocks t.kheap) .ata_read (readCommand (literal "4")) := by
    unfold BufferGranted readCommand
    simp only [atoi_samples, hblocks]
    exact ⟨by decide +kernel, by decide +kernel⟩
  have hshows := @ataread_shows_no_free_memory_when_its_buffer_is_filled _ _ _ _ _ NULL _ _
    diskForest_is diskForest_data hheap _ hargs hgranted
  refine ⟨t, live, argv, hargs, hshows.mpr ?_⟩
  intro device hfirst _
  obtain rfl : 0x2000 = device := Option.some.inj hfirst
  simp only [atoi_samples]
  exact ⟨by decide +kernel, Or.inl (by decide)⟩

/-- The disk has 1024 bytes. `ataread 0 2000` is refused, and shows the buffer as it was. -/
theorem a_refused_read_shows_free_memory :
    ∃ t : ShellState, ∃ live argv, ArgsAt t.kheap live [] argv (readCommand (literal "2000")) ∧
      ¬ ShowsNoFreeMemory diskTree NULL 3 argv t := by
  have hsize : atoi (literal "2000") = 2000 := by decide +kernel
  obtain ⟨t, live, argv, hheap, hargs, hblocks⟩ :=
    @first_command (readCommand (literal "2000")) (by decide +kernel) (by decide)
      (by decide) (by decide)
  refine ⟨t, live, argv, hargs, fun hshows => ?_⟩
  have hfilled := (read_shows_iff diskForest_is diskForest_data hheap hargs
    (by rw [hsize]; decide +kernel) (by rw [hsize, hblocks]; decide +kernel)).mp hshows 0x2000 rfl
    (by rw [hsize]; decide)
  rw [hsize, atoi_samples.1] at hfilled
  exact hfilled.1 (by decide +kernel)

end sakana_os
