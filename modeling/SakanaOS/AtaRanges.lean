-- What `ata_read` and `ata_write` do to a range of bytes: sector by sector, through a
-- buffer that lies apart from the bytes of the caller, they read and replace just these.
import SakanaOS.Ata

open byte_memory

namespace sakana_os

/-! ## A part of a sector -/

/-- To read a sector, alter a part of it and write it back replaces the part. -/
theorem altered_sector (d m : Mem) (base : Nat) {sector_buf data_ptr offset n : Nat}
    (hfit : offset + n ≤ ATA_SECTOR_SIZE)
    (hapart : data_ptr + n ≤ sector_buf ∨ sector_buf + ATA_SECTOR_SIZE ≤ data_ptr) :
    storeList d base (loadList (copy (storeList m sector_buf (loadList d base ATA_SECTOR_SIZE))
      (sector_buf + offset) data_ptr n) sector_buf ATA_SECTOR_SIZE) =
    storeList d (base + offset) (loadList m data_ptr n) := by
  unfold ATA_SECTOR_SIZE at *
  funext x
  by_cases hin : base ≤ x ∧ x < base + 512
  · rw [storeList_loadList_at hin.1 hin.2]
    by_cases hpart : base + offset ≤ x ∧ x < base + offset + n
    · have hplace : sector_buf + (x - base) = sector_buf + offset + (x - (base + offset)) := by
        omega
      rw [storeList_loadList_at hpart.1 hpart.2, hplace,
        copy_inside _ _ _ _ _ (by omega) (by omega),
        storeList_frame _ _ _ _ (by rw [length_loadList]; omega)]
    · rw [copy_frame _ _ _ _ _ (by omega), storeList_loadList_at (by omega) (by omega),
        storeList_frame _ _ _ _ (by rw [length_loadList]; omega)]
      congr 1
      omega
  · rw [storeList_frame _ _ _ _ (by rw [length_loadList]; omega),
      storeList_frame _ _ _ _ (by rw [length_loadList]; omega)]

/-- The memory of the kernel is `m`, but for the bytes of a buffer. The rest of the heap is
as it was. -/
structure BesideBuffer (s t : Storage) (m : Mem) (a : Nat) : Prop where
  kheap : t.kheap = { s.kheap with mem := t.mem }
  mem : ∀ x, x < a ∨ a + ATA_SECTOR_SIZE ≤ x → t.mem x = m x

theorem BesideBuffer.refl (s : Storage) (a : Nat) : BesideBuffer s s s.mem a :=
  ⟨rfl, fun _ _ => rfl⟩

theorem BesideBuffer.trans {s t u : Storage} {m m' m'' : Mem} {a : Nat}
    (h : BesideBuffer s t m a) (h' : BesideBuffer t u m' a)
    (hm : ∀ x, x < a ∨ a + ATA_SECTOR_SIZE ≤ x → m' x = m'' x) : BesideBuffer s u m'' a := by
  refine ⟨?_, fun x hx => (h'.mem x hx).trans (hm x hx)⟩
  rw [h'.kheap, h.kheap]

/-! ## A turn of the loops -/

/-- The part of a sector that a turn moves, between the sector buffer and the place `data_ptr` in
the buffer of the caller. -/
structure TurnMoves (address size buf sector_buf turns idx data_ptr offset n : Nat) : Prop where
  part : ata_sector_part (ata_sector_range address size) idx = (offset, n)
  place : idx * ATA_SECTOR_SIZE + offset = address + bytesBefore address size idx
  offset_lt : offset < ATA_SECTOR_SIZE
  fit : offset + n ≤ ATA_SECTOR_SIZE
  next : bytesBefore address size idx + n = bytesBefore address size (idx + 1)
  next_le : bytesBefore address size (idx + 1) ≤ size
  sector : idx < 268435456
  beside : data_ptr + n ≤ sector_buf ∨ sector_buf + ATA_SECTOR_SIZE ≤ data_ptr
  next_ptr : turns ≠ 0 → add32 data_ptr n = buf + bytesBefore address size (idx + 1)

theorem turn_moves {address size buf sector_buf turns idx data_ptr : Nat} (hsize : 0 < size)
    (hsum : address + size ≤ 4294967296) (htop : buf + size ≤ 4294967296)
    (hapart : buf + size ≤ sector_buf ∨ sector_buf + ATA_SECTOR_SIZE ≤ buf)
    (hlow : address / ATA_SECTOR_SIZE ≤ idx)
    (hturns : idx + (turns + 1) = (address + size - 1) / ATA_SECTOR_SIZE + 1)
    (hnow : data_ptr = buf + bytesBefore address size idx) :
    ∃ offset n, TurnMoves address size buf sector_buf turns idx data_ptr offset n := by
  have hhigh : idx ≤ (address + size - 1) / ATA_SECTOR_SIZE := by omega
  obtain ⟨offset, n, hpart, hplace, hoffset, hfit, hnext⟩ :=
    sector_part_spec hsize hsum hlow hhigh
  have hle : bytesBefore address size (idx + 1) ≤ size := Nat.min_le_left _ _
  refine ⟨offset, n, hpart, hplace, hoffset, hfit, hnext, hle, ?_, by omega, ?_⟩
  · unfold ATA_SECTOR_SIZE at hturns
    omega
  · intro hmore
    have hlater : idx + 1 ≤ (address + size - 1) / ATA_SECTOR_SIZE := by omega
    have hlast := bytesBefore_lt hsize hlater
    rw [hnow, add32_eq (by omega)]
    omega

/-! ## The loop that writes -/

section

variable (device : ata_device) {address size buf sector_buf : Nat}

/-- One turn replaces the part of the sector by the bytes of the caller. -/
theorem write_turn {s : Storage} {idx offset n : Nat} (data_ptr : Nat)
    (hidx : idx < 268435456) (hbuf : sector_buf + ATA_SECTOR_SIZE ≤ 4294967296)
    (hfit : offset + n ≤ ATA_SECTOR_SIZE) (hoffset : offset < ATA_SECTOR_SIZE)
    (hapart : data_ptr + n ≤ sector_buf ∨ sector_buf + ATA_SECTOR_SIZE ≤ data_ptr) :
    ∃ t, ((ata_read_sector_lba28 s device idx sector_buf).andThen fun _ s =>
        ata_write_sector_lba28 (s.setMem (copy s.mem (add32 sector_buf offset) data_ptr n)) device
          idx sector_buf) = .done () t ∧
      t.ide.drives = Function.update s.ide.drives device.drive
        (storeList (s.ide.drives device.drive) (idx * ATA_SECTOR_SIZE + offset)
          (loadList s.mem data_ptr n)) ∧
      BesideBuffer s t s.mem sector_buf := by
  obtain ⟨ide, hread, hdrives⟩ := read_sector_spec s device sector_buf hidx
  have hadd : add32 sector_buf offset = sector_buf + offset := add32_eq (by omega)
  have halter := altered_sector (s.ide.drives device.drive) s.mem (idx * ATA_SECTOR_SIZE) hfit
    hapart
  have hframe : ∀ x, x < sector_buf ∨ sector_buf + ATA_SECTOR_SIZE ≤ x →
      copy (storeList s.mem sector_buf (loadList (s.ide.drives device.drive)
        (idx * ATA_SECTOR_SIZE) ATA_SECTOR_SIZE)) (sector_buf + offset) data_ptr n x =
        s.mem x := by
    intro x hx
    rw [copy_frame _ _ _ _ _ (by omega),
      storeList_frame _ _ _ _ (by rw [length_loadList]; exact hx)]
  generalize storeList s.mem sector_buf (loadList (s.ide.drives device.drive)
    (idx * ATA_SECTOR_SIZE) ATA_SECTOR_SIZE) = m at hread halter hframe
  rw [hread]
  simp only [Outcome.done_andThen, hadd, Storage.mem, Storage.setMem]
  generalize copy m (sector_buf + offset) data_ptr n = m' at halter hframe
  obtain ⟨ide', hwrite, hdrives'⟩ :=
    write_sector_spec ⟨{ s.kheap with mem := m' }, ide⟩ device sector_buf hidx
  refine ⟨_, hwrite, ?_, rfl, hframe⟩
  simp only [hdrives', hdrives, Storage.mem]
  rw [halter]
  rfl

/-- From a sector of the range on, the loop replaces the bytes that are left. -/
theorem write_loop_spec (hsize : 0 < size) (hsum : address + size ≤ 4294967296)
    (htop : buf + size ≤ 4294967296) (hbuf : sector_buf + ATA_SECTOR_SIZE ≤ 4294967296)
    (hapart : buf + size ≤ sector_buf ∨ sector_buf + ATA_SECTOR_SIZE ≤ buf) (turns : Nat)
    {idx data_ptr : Nat} {s : Storage} (hlow : address / ATA_SECTOR_SIZE ≤ idx)
    (hturns : idx + turns = (address + size - 1) / ATA_SECTOR_SIZE + 1)
    (hptr : turns ≠ 0 → data_ptr = buf + bytesBefore address size idx) :
    ∃ t, ata_write_loop device (ata_sector_range address size) sector_buf turns idx data_ptr
        (bytesBefore address size idx) s = .done size t ∧
      t.ide.drives = Function.update s.ide.drives device.drive
        (storeList (s.ide.drives device.drive) (address + bytesBefore address size idx)
          (loadList s.mem (buf + bytesBefore address size idx)
            (size - bytesBefore address size idx))) ∧
      BesideBuffer s t s.mem sector_buf := by
  induction turns generalizing idx data_ptr s with
  | zero =>
    have hstop := bytesBefore_stop address hsize
    rw [← hturns, Nat.add_zero] at hstop
    rw [hstop, Nat.sub_self]
    refine ⟨s, rfl, ?_, BesideBuffer.refl s _⟩
    exact (Function.update_eq_self _ _).symm
  | succ turns ih =>
    obtain ⟨offset, n, hturn⟩ :=
      turn_moves hsize hsum htop hapart hlow hturns (hptr (Nat.succ_ne_zero turns))
    obtain ⟨hpart, hplace, hoffset, hfit, hnext, hle, hidx, hbeside, hptr'⟩ := hturn
    have hnow := hptr (Nat.succ_ne_zero turns)
    obtain ⟨u, hturn, hdrives, hbuffer⟩ :=
      write_turn device data_ptr hidx hbuf hfit hoffset hbeside
    obtain ⟨t, hloop, hdrives', hbuffer'⟩ := @ih (idx + 1) _ u (by omega) (by omega) hptr'
    refine ⟨t, ?_, ?_, hbuffer.trans hbuffer' hbuffer.mem⟩
    · have htotal : add32 (bytesBefore address size idx) n =
          bytesBefore address size (idx + 1) := by
        rw [add32_eq (by omega), hnext]
      rw [ata_write_loop, hpart]
      simp only
      rw [← Outcome.andThen_assoc, hturn, Outcome.done_andThen, htotal]
      exact hloop
    · -- The two parts of the data are neighbours, on the drive and in memory.
      have hrest : size - bytesBefore address size idx =
          n + (size - bytesBefore address size (idx + 1)) := by omega
      have hfrom : buf + bytesBefore address size (idx + 1) =
          buf + bytesBefore address size idx + n := by omega
      have hto : address + bytesBefore address size (idx + 1) =
          address + bytesBefore address size idx + n := by omega
      have hkept : loadList u.mem (buf + bytesBefore address size idx + n)
          (size - bytesBefore address size (idx + 1)) =
          loadList s.mem (buf + bytesBefore address size idx + n)
            (size - bytesBefore address size (idx + 1)) :=
        loadList_congr fun x h1 h2 => hbuffer.mem x (by omega)
      rw [hdrives', hdrives, Function.update_idem, Function.update_self, hplace, hnow, hrest,
        loadList_append, storeList_append, length_loadList, hfrom, hto, hkept]

end

/-! ## The loop that reads -/

section

variable (device : ata_device) {address size buf sector_buf : Nat}

/-- One turn stores the part of the sector, and leaves the drives. -/
theorem read_turn {s : Storage} {idx offset n : Nat} (data_ptr : Nat) (hidx : idx < 268435456)
    (hbuf : sector_buf + ATA_SECTOR_SIZE ≤ 4294967296) (hfit : offset + n ≤ ATA_SECTOR_SIZE)
    (hoffset : offset < ATA_SECTOR_SIZE)
    (hapart : data_ptr + n ≤ sector_buf ∨ sector_buf + ATA_SECTOR_SIZE ≤ data_ptr) :
    ∃ u, ata_read_sector_lba28 s device idx sector_buf = .done () u ∧
      u.ide.drives = s.ide.drives ∧
      BesideBuffer s (u.setMem (copy u.mem data_ptr (add32 sector_buf offset) n))
        (storeList s.mem data_ptr (loadList (s.ide.drives device.drive)
          (idx * ATA_SECTOR_SIZE + offset) n)) sector_buf := by
  obtain ⟨ide, hread, hdrives⟩ := read_sector_spec s device sector_buf hidx
  have hadd : add32 sector_buf offset = sector_buf + offset := add32_eq (by omega)
  have hin : ∀ x, sector_buf ≤ x → x < sector_buf + ATA_SECTOR_SIZE →
      storeList s.mem sector_buf (loadList (s.ide.drives device.drive) (idx * ATA_SECTOR_SIZE)
        ATA_SECTOR_SIZE) x =
        s.ide.drives device.drive (idx * ATA_SECTOR_SIZE + (x - sector_buf)) :=
    fun x h1 h2 => storeList_loadList_at h1 h2
  have hout : ∀ x, x < sector_buf ∨ sector_buf + ATA_SECTOR_SIZE ≤ x →
      storeList s.mem sector_buf (loadList (s.ide.drives device.drive) (idx * ATA_SECTOR_SIZE)
        ATA_SECTOR_SIZE) x = s.mem x := by
    intro x hx
    exact storeList_frame _ _ _ _ (by rw [length_loadList]; exact hx)
  generalize storeList s.mem sector_buf (loadList (s.ide.drives device.drive)
    (idx * ATA_SECTOR_SIZE) ATA_SECTOR_SIZE) = m at hread hin hout
  refine ⟨_, hread, hdrives, rfl, ?_⟩
  intro x hx
  simp only [Storage.mem, Storage.setMem, hadd]
  by_cases hpart : data_ptr ≤ x ∧ x < data_ptr + n
  · have hdata : x = data_ptr + (x - data_ptr) := by omega
    have hsector : sector_buf + offset + (x - data_ptr) - sector_buf =
        offset + (x - data_ptr) := by omega
    have hcopied : copy m data_ptr (sector_buf + offset) n x =
        m (sector_buf + offset + (x - data_ptr)) := by
      rw [hdata, copy_inside _ _ _ _ _ (by omega) (by omega), ← hdata]
    rw [hcopied, hin _ (by omega) (by omega), hsector, storeList_loadList_at hpart.1 hpart.2,
      Nat.add_assoc]
  · rw [copy_frame _ _ _ _ _ (by omega), hout x hx, storeList_frame _ _ _ _ (by
      rw [length_loadList]
      omega)]
    rfl

/-- From a sector of the range on, the loop stores the bytes that are left. -/
theorem read_loop_spec (hsize : 0 < size) (hsum : address + size ≤ 4294967296)
    (htop : buf + size ≤ 4294967296) (hbuf : sector_buf + ATA_SECTOR_SIZE ≤ 4294967296)
    (hapart : buf + size ≤ sector_buf ∨ sector_buf + ATA_SECTOR_SIZE ≤ buf) (turns : Nat)
    {idx data_ptr : Nat} {s : Storage} (hlow : address / ATA_SECTOR_SIZE ≤ idx)
    (hturns : idx + turns = (address + size - 1) / ATA_SECTOR_SIZE + 1)
    (hptr : turns ≠ 0 → data_ptr = buf + bytesBefore address size idx) :
    ∃ t, ata_read_loop device (ata_sector_range address size) sector_buf turns idx data_ptr
        (bytesBefore address size idx) s = .done size t ∧
      t.ide.drives = s.ide.drives ∧
      BesideBuffer s t (storeList s.mem (buf + bytesBefore address size idx)
        (loadList (s.ide.drives device.drive) (address + bytesBefore address size idx)
          (size - bytesBefore address size idx))) sector_buf := by
  induction turns generalizing idx data_ptr s with
  | zero =>
    have hstop := bytesBefore_stop address hsize
    rw [← hturns, Nat.add_zero] at hstop
    rw [hstop, Nat.sub_self]
    exact ⟨s, rfl, rfl, BesideBuffer.refl s _⟩
  | succ turns ih =>
    obtain ⟨offset, n, hturn⟩ :=
      turn_moves hsize hsum htop hapart hlow hturns (hptr (Nat.succ_ne_zero turns))
    obtain ⟨hpart, hplace, hoffset, hfit, hnext, hle, hidx, hbeside, hptr'⟩ := hturn
    have hnow := hptr (Nat.succ_ne_zero turns)
    obtain ⟨u, hread, hdrives, hbuffer⟩ :=
      @read_turn device _ s _ _ _ data_ptr hidx hbuf hfit hoffset hbeside
    obtain ⟨t, hloop, hdrives', hbuffer'⟩ := @ih (idx + 1) (add32 data_ptr n)
      (u.setMem (copy u.mem data_ptr (add32 sector_buf offset) n)) (by omega) (by omega) hptr'
    refine ⟨t, ?_, hdrives'.trans hdrives, ?_⟩
    · have htotal : add32 (bytesBefore address size idx) n =
          bytesBefore address size (idx + 1) := by
        rw [add32_eq (by omega), hnext]
      rw [ata_read_loop, hpart]
      simp only
      rw [hread, Outcome.done_andThen, htotal]
      exact hloop
    · -- The two parts of the data are neighbours, on the drive and in memory.
      have hrest : size - bytesBefore address size idx =
          n + (size - bytesBefore address size (idx + 1)) := by omega
      have hfrom : address + bytesBefore address size (idx + 1) =
          address + bytesBefore address size idx + n := by omega
      have hto : buf + bytesBefore address size (idx + 1) =
          buf + bytesBefore address size idx + n := by omega
      have hall : storeList s.mem (buf + bytesBefore address size idx)
          (loadList (s.ide.drives device.drive) (address + bytesBefore address size idx)
            (size - bytesBefore address size idx)) =
          storeList (storeList s.mem data_ptr (loadList (s.ide.drives device.drive)
            (idx * ATA_SECTOR_SIZE + offset) n)) (buf + bytesBefore address size (idx + 1))
            (loadList (s.ide.drives device.drive) (address + bytesBefore address size (idx + 1))
              (size - bytesBefore address size (idx + 1))) := by
        rw [hplace, hnow, hrest, loadList_append, storeList_append, length_loadList, hfrom, hto]
      have hsame : (u.setMem (copy u.mem data_ptr (add32 sector_buf offset) n)).ide.drives =
          s.ide.drives := hdrives
      rw [hsame] at hbuffer'
      rw [hall]
      exact hbuffer.trans hbuffer' fun x hx => storeList_congr _ _ (hbuffer.mem x hx)

end

/-! ## The calls -/

/-- The range passes the checks of the driver, and is not empty. -/
structure InDrive (device : ata_device) (address size : Nat) : Prop where
  present : device.present = true
  lba_supported : device.lba_supported = true
  pos : 1 ≤ size
  within : address + size ≤ device.size
  word : device.size < 4294967296

/-- The heap gives the bytes at `p` to the driver, and keeps the bytes of the caller. -/
structure Granted (s : Storage) (buf size p : Nat) (k : Kheap) : Prop where
  call : kmalloc s.kheap ATA_SECTOR_SIZE = .done p k
  ne : p ≠ NULL
  top : p + ATA_SECTOR_SIZE ≤ 4294967296
  apart : buf + size ≤ p ∨ p + ATA_SECTOR_SIZE ≤ buf
  kept : ∀ x, buf ≤ x → x < buf + size → k.mem x = s.mem x

section

variable {s : Storage} {device : ata_device} {address buf size p : Nat} {k : Kheap}

/-- The checks pass, and the loop gets the sector buffer. -/
theorem transfer_eq (hin : InDrive device address size) (h : Granted s buf size p k)
    (loop : SectorRange → Nat → Storage → Outcome Storage Nat) :
    ata_transfer s device address size loop =
      loop (ata_sector_range address size) p { s with kheap := k } := by
  have hwithin := hin.within
  have hword := hin.word
  have hsize : ¬ device.size < add32 address size := by
    rw [add32_eq (by omega)]
    omega
  unfold ata_transfer
  simp only [hsize, hin.present, hin.lba_supported, not_true_eq_false, if_false, h.call,
    Outcome.done_lift, Outcome.done_andThen, h.ne]

/-- How many sectors the loops come to. -/
theorem turns_eq (hin : InDrive device address size) :
    address / ATA_SECTOR_SIZE + ((ata_sector_range address size).end_sector + 1 -
      (ata_sector_range address size).start_sector) =
        (address + size - 1) / ATA_SECTOR_SIZE + 1 := by
  have hwithin := hin.within
  have hword := hin.word
  have hpos := hin.pos
  rw [sector_range_eq (by omega) (by omega)]
  unfold ATA_SECTOR_SIZE
  simp only
  omega

/-- `ata_write` returns the size, and replaces the bytes of the range by those of the caller. -/
theorem ata_write_spec (hin : InDrive device address size) (h : Granted s buf size p k)
    (htop : buf + size ≤ 4294967296) :
    ∃ t, ata_write s device address buf size = .done size t ∧
      t.ide.drives = Function.update s.ide.drives device.drive
        (storeList (s.ide.drives device.drive) address (loadList s.mem buf size)) ∧
      BesideBuffer { s with kheap := k } t k.mem p := by
  have hwithin := hin.within
  have hword := hin.word
  have hfirst := bytesBefore_start address size
  obtain ⟨t, hloop, hdrives, hbuffer⟩ := write_loop_spec device hin.pos (by omega) htop h.top
    h.apart _ (s := { s with kheap := k }) (Nat.le_refl _) (turns_eq hin) fun _ => by
      rw [hfirst, Nat.add_zero]
  rw [hfirst] at hloop hdrives
  have hkept : loadList k.mem buf size = loadList s.mem buf size := loadList_congr h.kept
  refine ⟨t, ?_, ?_, hbuffer⟩
  · unfold ata_write
    rw [transfer_eq hin h]
    exact hloop
  · rw [hdrives, ← hkept]
    rfl

/-- `ata_read` returns the size, and stores the bytes of the range into those of the caller. -/
theorem ata_read_spec (hin : InDrive device address size) (h : Granted s buf size p k)
    (htop : buf + size ≤ 4294967296) :
    ∃ t, ata_read s device address buf size = .done size t ∧ t.ide.drives = s.ide.drives ∧
      BesideBuffer { s with kheap := k } t
        (storeList k.mem buf (loadList (s.ide.drives device.drive) address size)) p := by
  have hwithin := hin.within
  have hword := hin.word
  have hfirst := bytesBefore_start address size
  obtain ⟨t, hloop, hdrives, hbuffer⟩ := read_loop_spec device hin.pos (by omega) htop h.top
    h.apart _ (s := { s with kheap := k }) (Nat.le_refl _) (turns_eq hin) fun _ => by
      rw [hfirst, Nat.add_zero]
  rw [hfirst] at hloop hbuffer
  refine ⟨t, ?_, hdrives, hbuffer⟩
  unfold ata_read
  rw [transfer_eq hin h]
  exact hloop

end

end sakana_os
