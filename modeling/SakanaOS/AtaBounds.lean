-- The bounds of `ata_read` and `ata_write`, at every address and size: the parts of sectors
-- that the loops come to, and when these are the bytes of the range and no others.
import SakanaOS.DriveRuns

open byte_memory

namespace sakana_os

/-! ## The parts of a call -/

/-- What a turn of the loops moves: `size` bytes between an offset of the sector buffer and
a place in the buffer of the caller. -/
structure SectorPart where
  sector : Nat
  offset : Nat
  data_ptr : Nat
  size : Nat

/-- The parts that the loops come to, turn by turn. -/
def sector_parts (r : SectorRange) : Nat → Nat → Nat → List SectorPart
  | 0, _, _ => []
  | turns + 1, idx, data_ptr =>
    let (offset, size) := ata_sector_part r idx
    ⟨idx, offset, data_ptr, size⟩ :: sector_parts r turns (idx + 1) (add32 data_ptr size)

section

variable (device : ata_device) (sector_buf : Nat)

/-- A turn of `ata_write`. -/
def write_part (s : Storage) (part : SectorPart) : Outcome Storage Unit :=
  (ata_read_sector_lba28 s device part.sector sector_buf).andThen fun _ s =>
    ata_write_sector_lba28
      (s.setMem (copy s.mem (add32 sector_buf part.offset) part.data_ptr part.size)) device
      part.sector sector_buf

/-- A turn of `ata_read`. -/
def read_part (s : Storage) (part : SectorPart) : Outcome Storage Unit :=
  (ata_read_sector_lba28 s device part.sector sector_buf).andThen fun _ s =>
    .done () (s.setMem (copy s.mem part.data_ptr (add32 sector_buf part.offset) part.size))

end

def each_part (turn : Storage → SectorPart → Outcome Storage Unit) :
    List SectorPart → Storage → Outcome Storage Unit
  | [], s => .done () s
  | part :: parts, s => (turn s part).andThen fun _ s => each_part turn parts s

/-- What the loops return when they started with `total_size`. -/
def sizes_total (total_size : Nat) (parts : List SectorPart) : Nat :=
  (parts.map SectorPart.size).foldl add32 total_size

/-- The driver returns before it takes a buffer. -/
def Refused (device : ata_device) (address size : Nat) : Prop :=
  device.size < add32 address size ∨ device.present = false ∨ device.lba_supported = false

instance (device : ata_device) (address size : Nat) : Decidable (Refused device address size) :=
  inferInstanceAs (Decidable (_ ∨ _ ∨ _))

/-- All that a call touches of the drive and of the buffer of the caller. -/
def driver_parts (device : ata_device) (address buf size : Nat) : List SectorPart :=
  if Refused device address size then []
  else
    let r := ata_sector_range address size
    sector_parts r (r.end_sector + 1 - r.start_sector) r.start_sector buf

/-! ## The loops go through the parts -/

section

variable (device : ata_device) (r : SectorRange) (sector_buf : Nat)

theorem write_loop_parts (turns idx data_ptr total_size : Nat) (s : Storage) :
    ata_write_loop device r sector_buf turns idx data_ptr total_size s =
      (each_part (write_part device sector_buf) (sector_parts r turns idx data_ptr) s).andThen
        fun _ t => .done (sizes_total total_size (sector_parts r turns idx data_ptr)) t := by
  induction turns generalizing idx data_ptr total_size s with
  | zero => rfl
  | succ turns ih =>
    simp only [ata_write_loop, ih, sector_parts, each_part, write_part, Outcome.andThen_assoc]
    rfl

theorem read_loop_parts (turns idx data_ptr total_size : Nat) (s : Storage) :
    ata_read_loop device r sector_buf turns idx data_ptr total_size s =
      (each_part (read_part device sector_buf) (sector_parts r turns idx data_ptr) s).andThen
        fun _ t => .done (sizes_total total_size (sector_parts r turns idx data_ptr)) t := by
  induction turns generalizing idx data_ptr total_size s with
  | zero => rfl
  | succ turns ih =>
    simp only [ata_read_loop, ih, sector_parts, each_part, read_part, Outcome.andThen_assoc,
      Outcome.done_andThen]
    rfl

end

/-- A turn that returns for every part returns for all of them. -/
theorem each_part_returns {turn : Storage → SectorPart → Outcome Storage Unit}
    {parts : List SectorPart} (h : ∀ s, ∀ part ∈ parts, ∃ t, turn s part = .done () t)
    (s : Storage) : ∃ t, each_part turn parts s = .done () t := by
  induction parts generalizing s with
  | nil => exact ⟨s, rfl⟩
  | cons part parts ih =>
    obtain ⟨u, hturn⟩ := h s part List.mem_cons_self
    obtain ⟨t, hrest⟩ := ih (fun s p hp => h s p (List.mem_cons_of_mem _ hp)) u
    refine ⟨t, ?_⟩
    rw [each_part, hturn]
    exact hrest

theorem write_part_returns (device : ata_device) (sector_buf : Nat) (s : Storage)
    {part : SectorPart} (h : part.sector < 268435456) :
    ∃ t, write_part device sector_buf s part = .done () t := by
  obtain ⟨ide, hread, -⟩ := read_sector_spec s device sector_buf h
  unfold write_part
  rw [hread, Outcome.done_andThen]
  obtain ⟨ide', hwrite, -⟩ := write_sector_spec _ device sector_buf h
  exact ⟨_, hwrite⟩

theorem read_part_returns (device : ata_device) (sector_buf : Nat) (s : Storage)
    {part : SectorPart} (h : part.sector < 268435456) :
    ∃ t, read_part device sector_buf s part = .done () t := by
  obtain ⟨ide, hread, -⟩ := read_sector_spec s device sector_buf h
  unfold read_part
  rw [hread]
  exact ⟨_, rfl⟩

/-! ## The parts of a range -/

/-- The part lies in the sector buffer, and in the first `size` bytes of the buffer. -/
structure SectorPart.Inside (part : SectorPart) (buf size : Nat) : Prop where
  sector_buf : part.offset + part.size ≤ ATA_SECTOR_SIZE
  buf : ∃ k, k + part.size ≤ size ∧ part.data_ptr = add32 buf k

section

variable {address size : Nat}

theorem add32_add32 (a b c : Nat) : add32 (add32 a b) c = add32 a (b + c) := by
  unfold add32
  omega

/-- The parts of a range that does not wrap lie inside, and their sizes add up to its size. -/
theorem range_parts (hsize : 0 < size) (hsum : address + size ≤ 4294967296)
    (hword : size < 4294967296) (buf : Nat) (turns : Nat) {idx : Nat}
    (hlow : address / ATA_SECTOR_SIZE ≤ idx)
    (hturns : idx + turns = (address + size - 1) / ATA_SECTOR_SIZE + 1) :
    (∀ part ∈ sector_parts (ata_sector_range address size) turns idx
        (add32 buf (bytesBefore address size idx)),
      part.Inside buf size ∧ part.sector < 268435456) ∧
      sizes_total (bytesBefore address size idx) (sector_parts (ata_sector_range address size)
        turns idx (add32 buf (bytesBefore address size idx))) = size := by
  induction turns generalizing idx with
  | zero =>
    rw [Nat.add_zero] at hturns
    rw [hturns]
    refine ⟨fun part hpart => absurd hpart List.not_mem_nil, ?_⟩
    exact bytesBefore_stop address hsize
  | succ turns ih =>
    have hhigh : idx ≤ (address + size - 1) / ATA_SECTOR_SIZE := by omega
    obtain ⟨offset, n, hpart, -, -, hfit, hnext⟩ := sector_part_spec hsize hsum hlow hhigh
    have hle : bytesBefore address size (idx + 1) ≤ size := Nat.min_le_left _ _
    obtain ⟨hinside, htotal⟩ := @ih (idx + 1) (by omega) (by omega)
    have hadd : add32 (bytesBefore address size idx) n = bytesBefore address size (idx + 1) := by
      rw [add32_eq (by omega), hnext]
    simp only [sector_parts, hpart, add32_add32, hnext]
    refine ⟨?_, ?_⟩
    · intro part hmem
      rcases List.mem_cons.mp hmem with rfl | hmem
      · refine ⟨⟨hfit, _, ?_, rfl⟩, ?_⟩
        · rw [hnext]
          exact hle
        · unfold ATA_SECTOR_SIZE at hhigh
          simp only
          omega
      · exact hinside part hmem
    · unfold sizes_total at htotal ⊢
      rw [List.map_cons, List.foldl_cons, hadd]
      exact htotal

/-- When the loops have no turn, although the sum passes the check. -/
def NoSector (address size : Nat) : Prop :=
  (size = 0 ∧ 0 < address ∧ address % ATA_SECTOR_SIZE = 0) ∨
    (4294967296 < address + size ∧
      (address + size - 4294967297) / ATA_SECTOR_SIZE < address / ATA_SECTOR_SIZE)

/-- A range that the driver does not refuse lies in the drive, or has no sector, or some
sector is touched that it should not touch. -/
theorem accepted_range {device : ata_device} (haddress : address < 4294967296)
    (hsize : size < 4294967296) (haccept : ¬ device.size < add32 address size)
    (hout : ¬ (1 ≤ size ∧ address + size ≤ device.size)) :
    (ata_sector_range address size).end_sector + 1 - (ata_sector_range address size).start_sector
      = 0 ↔ NoSector address size := by
  -- The sum has wrapped around, or the range is empty.
  have hsum : size = 0 ∨ 4294967296 ≤ address + size := by
    by_cases hwrap : 4294967296 ≤ address + size
    · exact Or.inr hwrap
    · rw [add32_eq (by omega)] at haccept
      have hpos : ¬ 1 ≤ size := fun hpos => hout ⟨hpos, Nat.le_of_not_lt haccept⟩
      exact Or.inl (by omega)
  unfold ata_sector_range NoSector ATA_SECTOR_SIZE add32 sub32
  simp only
  omega

end

/-! ## The bounds -/

/-- The call returns 0 and touches nothing, or the range is not empty and lies in the drive,
and the call returns its size and stays in the two buffers. -/
def Bounded (s : Storage) (device : ata_device) (address buf size : Nat)
    (o : Outcome Storage Nat) : Prop :=
  (∃ t, o = .done 0 t ∧ t.ide = s.ide ∧ driver_parts device address buf size = []) ∨
    (1 ≤ size ∧ address + size ≤ device.size ∧ (∃ t, o = .done size t) ∧
      ∀ part ∈ driver_parts device address buf size, part.Inside buf size)

/-- The heap has a buffer for a sector. -/
def HasSectorBuffer (s : Storage) : Prop :=
  ∃ p k, kmalloc s.kheap ATA_SECTOR_SIZE = .done p k ∧ p ≠ NULL

/-- The range is refused, or there is a buffer, and the range lies in the drive or has no
sector. -/
def StaysInBounds (s : Storage) (device : ata_device) (address size : Nat) : Prop :=
  Refused device address size ∨
    (HasSectorBuffer s ∧
      ((1 ≤ size ∧ address + size ≤ device.size) ∨ NoSector address size))

section

variable {s : Storage} {device : ata_device} {address buf size : Nat}

theorem transfer_refused (h : Refused device address size)
    (loop : SectorRange → Nat → Storage → Outcome Storage Nat) :
    ata_transfer s device address size loop = .done 0 s := by
  unfold ata_transfer
  by_cases hsize : device.size < add32 address size
  · rw [if_pos hsize]
  · by_cases hpresent : device.present = true
    · have hlba : device.lba_supported = false := by
        rcases h with h | h | h
        · exact absurd h hsize
        · rw [hpresent] at h
          cases h
        · exact h
      simp only [hsize, hpresent, hlba, not_true_eq_false, Bool.false_eq_true, not_false_eq_true,
        if_false, if_true]
    · rw [if_neg hsize, if_pos hpresent]

/-- A call that is not refused runs its loop, when there is a buffer. -/
theorem transfer_accepted (h : ¬ Refused device address size) {p : Nat} {k : Kheap}
    (halloc : kmalloc s.kheap ATA_SECTOR_SIZE = .done p k) (hp : p ≠ NULL)
    (loop : SectorRange → Nat → Storage → Outcome Storage Nat) :
    ata_transfer s device address size loop =
      loop (ata_sector_range address size) p { s with kheap := k } := by
  unfold Refused at h
  simp only [not_or, Bool.not_eq_false] at h
  obtain ⟨hsize, hpresent, hlba⟩ := h
  unfold ata_transfer
  simp only [hsize, hpresent, hlba, not_true_eq_false, if_false, halloc, Outcome.done_lift,
    Outcome.done_andThen, hp]

/-- Without a buffer it does not return. -/
theorem transfer_stuck (h : ¬ Refused device address size) (hnone : ¬ HasSectorBuffer s)
    (loop : SectorRange → Nat → Storage → Outcome Storage Nat) (ret : Nat) (t : Storage) :
    ata_transfer s device address size loop ≠ .done ret t := by
  unfold Refused at h
  simp only [not_or, Bool.not_eq_false] at h
  obtain ⟨hsize, hpresent, hlba⟩ := h
  unfold ata_transfer
  simp only [hsize, hpresent, hlba, not_true_eq_false, if_false]
  intro hdone
  obtain ⟨p, u, halloc, hrest⟩ := Outcome.andThen_eq_done.mp hdone
  obtain ⟨k, hkmalloc, -⟩ := Outcome.lift_eq_done.mp halloc
  by_cases hp : p = NULL
  · rw [if_pos hp] at hrest
    cases hrest
  · exact hnone ⟨p, k, hkmalloc, hp⟩

theorem driver_parts_accepted (h : ¬ Refused device address size) (buf : Nat) :
    driver_parts device address buf size = sector_parts (ata_sector_range address size)
      ((ata_sector_range address size).end_sector + 1 -
        (ata_sector_range address size).start_sector)
      (ata_sector_range address size).start_sector buf := by
  unfold driver_parts
  rw [if_neg h]

/-- The parts of a range in the drive lie inside, and their sizes add up to its size. -/
theorem driver_parts_inside (h : ¬ Refused device address size) (hbuf : buf < 4294967296)
    (hsize : size < 4294967296) (hdevice : device.size < 4294967296) (hpos : 1 ≤ size)
    (hin : address + size ≤ device.size) :
    (∀ part ∈ driver_parts device address buf size,
      part.Inside buf size ∧ part.sector < 268435456) ∧
      sizes_total 0 (driver_parts device address buf size) = size := by
  have hturns : address / ATA_SECTOR_SIZE + ((ata_sector_range address size).end_sector + 1 -
      (ata_sector_range address size).start_sector) =
        (address + size - 1) / ATA_SECTOR_SIZE + 1 := by
    rw [sector_range_eq hpos (by omega)]
    unfold ATA_SECTOR_SIZE
    simp only
    omega
  obtain ⟨hinside, htotal⟩ := range_parts hpos (by omega) hsize buf _ (Nat.le_refl _) hturns
  have hfirst : add32 buf (bytesBefore address size (address / ATA_SECTOR_SIZE)) = buf := by
    rw [bytesBefore_start, add32_eq (by omega), Nat.add_zero]
  have hstart : (ata_sector_range address size).start_sector = address / ATA_SECTOR_SIZE := rfl
  rw [hfirst, ← hstart, ← driver_parts_accepted h] at hinside htotal
  rw [hstart, bytesBefore_start] at htotal
  exact ⟨hinside, htotal⟩

/-- The bounds of a call whose loop goes through the parts with a turn that returns. -/
theorem bounded_iff {turn : Nat → Storage → SectorPart → Outcome Storage Unit}
    {loop : SectorRange → Nat → Storage → Outcome Storage Nat}
    (hloop : ∀ r p t, loop r p t = (each_part (turn p)
      (sector_parts r (r.end_sector + 1 - r.start_sector) r.start_sector buf) t).andThen
        fun _ u => .done (sizes_total 0
          (sector_parts r (r.end_sector + 1 - r.start_sector) r.start_sector buf)) u)
    (hturn : ∀ p t part, part.sector < 268435456 → ∃ u, turn p t part = .done () u)
    (haddress : address < 4294967296) (hbuf : buf < 4294967296) (hsize : size < 4294967296)
    (hdevice : device.size < 4294967296) :
    Bounded s device address buf size (ata_transfer s device address size loop) ↔
      StaysInBounds s device address size := by
  by_cases hrefused : Refused device address size
  · refine iff_of_true (Or.inl ⟨s, transfer_refused hrefused _, rfl, ?_⟩) (Or.inl hrefused)
    unfold driver_parts
    rw [if_pos hrefused]
  · have hparts := driver_parts_accepted hrefused buf
    by_cases hnone : HasSectorBuffer s
    · obtain ⟨p, k, halloc, hp⟩ := id hnone
      have heq := transfer_accepted hrefused halloc hp loop
      rw [hloop, ← hparts] at heq
      have haccept : ¬ device.size < add32 address size := fun h => hrefused (Or.inl h)
      by_cases hin : 1 ≤ size ∧ address + size ≤ device.size
      · -- The range lies in the drive.
        obtain ⟨hinside, htotal⟩ :=
          driver_parts_inside hrefused hbuf hsize hdevice hin.1 hin.2
        obtain ⟨t, hdone⟩ := each_part_returns
          (fun s part hpart => hturn p s part (hinside part hpart).2) { s with kheap := k }
        refine iff_of_true
          (Or.inr ⟨hin.1, hin.2, ⟨t, ?_⟩, fun part hpart => (hinside part hpart).1⟩)
          (Or.inr ⟨hnone, Or.inl hin⟩)
        rw [heq, hdone, Outcome.done_andThen, htotal]
      · have hiff := accepted_range haddress hsize haccept hin
        by_cases hempty : NoSector address size
        · rw [hiff.mpr hempty] at hparts
          refine iff_of_true (Or.inl ⟨{ s with kheap := k }, ?_, rfl, hparts⟩)
            (Or.inr ⟨hnone, Or.inr hempty⟩)
          rw [heq, hparts]
          rfl
        · refine iff_of_false ?_ ?_
          · rintro (⟨t, -, -, hnil⟩ | ⟨h1, h2, -⟩)
            · apply hempty
              rw [← hiff]
              rw [hnil] at hparts
              cases hturns : (ata_sector_range address size).end_sector + 1 -
                  (ata_sector_range address size).start_sector with
              | zero => rfl
              | succ turns =>
                rw [hturns] at hparts
                cases hparts
            · exact hin ⟨h1, h2⟩
          · rintro (h | ⟨-, h | h⟩)
            · exact hrefused h
            · exact hin h
            · exact hempty h
    · refine iff_of_false ?_ ?_
      · rintro (⟨t, hdone, -⟩ | ⟨-, -, ⟨t, hdone⟩, -⟩)
        · exact transfer_stuck hrefused hnone _ _ _ hdone
        · exact transfer_stuck hrefused hnone _ _ _ hdone
      · rintro (h | ⟨h, -⟩)
        · exact hrefused h
        · exact hnone h

end

/-- At every address and size, the two calls stay in bounds exactly when the range is
refused, or a buffer is there and the range lies in the drive or has no sector. -/
theorem the_driver_stays_in_bounds (s : Storage) (device : ata_device) {address buf size : Nat}
    (haddress : address < 4294967296) (hbuf : buf < 4294967296) (hsize : size < 4294967296)
    (hdevice : device.size < 4294967296) :
    (Bounded s device address buf size (ata_write s device address buf size) ↔
      StaysInBounds s device address size) ∧
    (Bounded s device address buf size (ata_read s device address buf size) ↔
      StaysInBounds s device address size) := by
  constructor
  · exact bounded_iff (fun r p t => write_loop_parts device r p _ _ _ _ t)
      (fun p t part h => write_part_returns device p t h) haddress hbuf hsize hdevice
  · exact bounded_iff (fun r p t => read_loop_parts device r p _ _ _ _ t)
      (fun p t part h => read_part_returns device p t h) haddress hbuf hsize hdevice

theorem four_bytes_stay_in_bounds :
    Bounded ⟨startHeap, blankIde⟩ sampleDevice 510 0x1000 4
      (ata_write ⟨startHeap, blankIde⟩ sampleDevice 510 0x1000 4) := by
  have hlt : ∀ n, n ≤ 0x1000 → n < 4294967296 := by omega
  have hiff := the_driver_stays_in_bounds ⟨startHeap, blankIde⟩ sampleDevice
    (hlt 510 (by decide)) (hlt 0x1000 (by decide)) (hlt 4 (by decide)) (hlt 1024 (by decide))
  have hbuffer : HasSectorBuffer ⟨startHeap, blankIde⟩ :=
    (@start_storage_allowed ⟨startHeap, blankIde⟩ rfl 0x1000 (by decide)).sector_buf
  exact hiff.1.mpr (Or.inr ⟨hbuffer, Or.inl (by decide)⟩)

/-- The sum of address and size wraps past the check, and into the sector of the address:
4 GB less one byte are copied. -/
theorem a_wrapped_range_is_written :
    ¬ Bounded ⟨startHeap, blankIde⟩ sampleDevice 511 0x1000 0xFFFFFFFF
      (ata_write ⟨startHeap, blankIde⟩ sampleDevice 511 0x1000 0xFFFFFFFF) := by
  rintro (⟨t, -, -, hnil⟩ | ⟨-, hlarge, -⟩)
  · have hparts : (driver_parts sampleDevice 511 0x1000 0xFFFFFFFF).map SectorPart.size =
        [0xFFFFFFFF] := by decide +kernel
    rw [hnil] at hparts
    cases hparts
  · revert hlarge
    decide

end sakana_os
