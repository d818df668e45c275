-- The driver of `ata.c`: a sector moves through the ports of its channel, and a range of
-- bytes is read and replaced sector by sector through a buffer from the heap.
import SakanaOS.Heap
import SakanaOS.Ide

open byte_memory

namespace sakana_os

def ATA_READWRITE_MASTER : UInt8 := 0xE0
def ATA_READWRITE_SLAVE : UInt8 := 0xF0

/-- `ata_device_t`, as far as reads and writes look at it. -/
structure ata_device where
  drive : ata_drive_t
  present : Bool
  lba_supported : Bool
  size : Nat

/-- The kernel memory with its heap, and the hardware. -/
structure Storage where
  kheap : Kheap
  ide : Ide

def Storage.mem (s : Storage) : Mem := s.kheap.mem

def Storage.setMem (s : Storage) (m : Mem) : Storage :=
  { s with kheap := { s.kheap with mem := m } }

def ata_get_io_base (device : ata_device) : Nat :=
  if device.drive = .ATA_PRIMARY_MASTER_DRIVE ∨ device.drive = .ATA_PRIMARY_SLAVE_DRIVE then
    ATA_PRIMARY_IO_BASE
  else ATA_SECONDARY_IO_BASE

def ata_is_master (device : ata_device) : Bool :=
  device.drive = .ATA_PRIMARY_MASTER_DRIVE ∨ device.drive = .ATA_SECONDARY_MASTER_DRIVE

/-! ## One sector -/

/-- The loop that polls the status. `none` when the drive is busy at every poll. -/
def ata_wait_ready (io_status : Nat) : Nat → Ide → Option Ide
  | 0, _ => none
  | polls + 1, ide =>
    let (status, ide) := ide.port_byte_in io_status
    if status &&& ATA_STATUS_BSY ≠ 0 then ata_wait_ready io_status polls ide else some ide

/-- What the two sector functions share: the registers, the command, and the wait. A
command is busy for `latency` polls. -/
def ata_sector_command (ide : Ide) (device : ata_device) (lba : Nat) (command : UInt8) :
    Option Ide :=
  let io_base := ata_get_io_base device
  let is_master := ata_is_master device
  let ide := ide.port_byte_out (io_base + ATA_DRIVE_REGISTER_OFFSET)
    ((if is_master then ATA_READWRITE_MASTER else ATA_READWRITE_SLAVE) |||
      UInt8.ofNat ((lba >>> 24) &&& 0x0F))
  let ide := ide.port_byte_out (io_base + ATA_SECTOR_COUNT_REGISTER_OFFSET) 0x01
  let ide := ide.port_byte_out (io_base + ATA_LBA_LOW_REGISTER_OFFSET)
    (UInt8.ofNat ((lba &&& 0x000000FF) >>> 0))
  let ide := ide.port_byte_out (io_base + ATA_LBA_MID_REGISTER_OFFSET)
    (UInt8.ofNat ((lba &&& 0x0000FF00) >>> 8))
  let ide := ide.port_byte_out (io_base + ATA_LBA_HIGH_REGISTER_OFFSET)
    (UInt8.ofNat ((lba &&& 0x00FF0000) >>> 16))
  let ide := ide.port_byte_out (io_base + ATA_COMMAND_REGISTER_OFFSET) command
  ata_wait_ready (io_base + ATA_STATUS_REGISTER_OFFSET) (ide.latency + 1) ide

/-- The words of the buffer from the `i`-th on, to the data port. -/
def ata_write_words (io_data buf : Nat) (m : Mem) : Nat → Nat → Ide → Ide
  | 0, _, ide => ide
  | turns + 1, i, ide =>
    ata_write_words io_data buf m turns (i + 1) (ide.port_word_out io_data (load16 m (buf + 2 * i)))

/-- The words from the data port, to the buffer from the `i`-th word on. -/
def ata_read_words (io_data buf : Nat) : Nat → Nat → Mem → Ide → Mem × Ide
  | 0, _, m, ide => (m, ide)
  | turns + 1, i, m, ide =>
    let (word, ide) := ide.port_word_in io_data
    ata_read_words io_data buf turns (i + 1) (store16 m (buf + 2 * i) word) ide

def ata_write_sector_lba28 (s : Storage) (device : ata_device) (lba buf : Nat) :
    Outcome Storage Unit :=
  match ata_sector_command s.ide device lba ATA_COMMAND_WRITE_SECTORS with
  | none => .hang s
  | some ide =>
    .done () { s with
      ide := ata_write_words (ata_get_io_base device + ATA_DATA_REGISTER_OFFSET) buf s.mem 256 0
        ide }

def ata_read_sector_lba28 (s : Storage) (device : ata_device) (lba buf : Nat) :
    Outcome Storage Unit :=
  match ata_sector_command s.ide device lba ATA_COMMAND_READ_SECTORS with
  | none => .hang s
  | some ide =>
    let (m, ide) := ata_read_words (ata_get_io_base device + ATA_DATA_REGISTER_OFFSET) buf 256 0
      s.mem ide
    .done () { s.setMem m with ide := ide }

/-! ## A range of bytes -/

/-- The sectors of a range, with the offsets of its first and its last byte. -/
structure SectorRange where
  start_sector : Nat
  start_sector_offset : Nat
  end_sector : Nat
  end_sector_offset : Nat

def ata_sector_range (address size : Nat) : SectorRange where
  start_sector := address / ATA_SECTOR_SIZE
  start_sector_offset := address % ATA_SECTOR_SIZE
  end_sector := sub32 (add32 address size) 1 / ATA_SECTOR_SIZE
  end_sector_offset := sub32 (add32 address size) 1 % ATA_SECTOR_SIZE

/-- The offset and the size of the part of a sector that lies in the range. -/
def ata_sector_part (r : SectorRange) (idx : Nat) : Nat × Nat :=
  let offset := if idx = r.start_sector then r.start_sector_offset else 0
  let size := if idx = r.start_sector then sub32 ATA_SECTOR_SIZE r.start_sector_offset
    else ATA_SECTOR_SIZE
  (offset, if idx = r.end_sector then add32 (sub32 r.end_sector_offset offset) 1 else size)

section

variable (device : ata_device) (r : SectorRange) (sector_buf : Nat)

def ata_write_loop : Nat → Nat → Nat → Nat → Storage → Outcome Storage Nat
  | 0, _, _, total_size, s => .done total_size s
  | turns + 1, idx, data_ptr, total_size, s =>
    let (write_offset, write_size) := ata_sector_part r idx
    (ata_read_sector_lba28 s device idx sector_buf).andThen fun _ s =>
      let s := s.setMem (copy s.mem (add32 sector_buf write_offset) data_ptr write_size)
      (ata_write_sector_lba28 s device idx sector_buf).andThen fun _ s =>
        ata_write_loop turns (idx + 1) (add32 data_ptr write_size) (add32 total_size write_size) s

def ata_read_loop : Nat → Nat → Nat → Nat → Storage → Outcome Storage Nat
  | 0, _, _, total_size, s => .done total_size s
  | turns + 1, idx, data_ptr, total_size, s =>
    let (read_offset, read_size) := ata_sector_part r idx
    (ata_read_sector_lba28 s device idx sector_buf).andThen fun _ s =>
      let s := s.setMem (copy s.mem data_ptr (add32 sector_buf read_offset) read_size)
      ata_read_loop turns (idx + 1) (add32 data_ptr read_size) (add32 total_size read_size) s

end

/-- What reads and writes share: the checks, and the buffer for the sectors. -/
def ata_transfer (s : Storage) (device : ata_device) (address size : Nat)
    (loop : SectorRange → Nat → Storage → Outcome Storage Nat) : Outcome Storage Nat :=
  if device.size < add32 address size then .done 0 s
  else if ¬ device.present then .done 0 s
  else if ¬ device.lba_supported then .done 0 s
  else
    ((kmalloc s.kheap ATA_SECTOR_SIZE).lift fun k => { s with kheap := k }).andThen
      fun sector_buf s =>
        if sector_buf = NULL then .kpanic KPANIC_OUT_OF_MEMORY "Memory allocation failed." s
        else loop (ata_sector_range address size) sector_buf s

def ata_write (s : Storage) (device : ata_device) (address buf size : Nat) : Outcome Storage Nat :=
  ata_transfer s device address size fun r sector_buf s =>
    ata_write_loop device r sector_buf (r.end_sector + 1 - r.start_sector) r.start_sector buf 0 s

def ata_read (s : Storage) (device : ata_device) (address buf size : Nat) : Outcome Storage Nat :=
  ata_transfer s device address size fun r sector_buf s =>
    ata_read_loop device r sector_buf (r.end_sector + 1 - r.start_sector) r.start_sector buf 0 s

/-! ## The commands of one sector -/

/-- The channel and the bit of a drive. -/
def ata_drive_t.secondary : ata_drive_t → Bool
  | .ATA_PRIMARY_MASTER_DRIVE | .ATA_PRIMARY_SLAVE_DRIVE => false
  | .ATA_SECONDARY_MASTER_DRIVE | .ATA_SECONDARY_SLAVE_DRIVE => true

def ata_drive_t.slave : ata_drive_t → Bool
  | .ATA_PRIMARY_MASTER_DRIVE | .ATA_SECONDARY_MASTER_DRIVE => false
  | .ATA_PRIMARY_SLAVE_DRIVE | .ATA_SECONDARY_SLAVE_DRIVE => true

theorem driveAt_eq (drive : ata_drive_t) : driveAt drive.secondary drive.slave = drive := by
  cases drive <;> rfl

theorem get_io_base_eq (device : ata_device) :
    ata_get_io_base device = ioBase device.drive.secondary := by
  unfold ata_get_io_base
  cases device.drive <;> rfl

theorem is_master_eq (device : ata_device) : ata_is_master device = !device.drive.slave := by
  unfold ata_is_master
  cases device.drive <;> rfl

/-- The drive register that the driver writes: the mode, the drive and four bits of the LBA. -/
theorem drive_register (slave : Bool) {high : Nat} (h : high < 16) (c : IdeChannel)
    (hc : c.drive = ((if !slave then ATA_READWRITE_MASTER else ATA_READWRITE_SLAVE) |||
      UInt8.ofNat high)) :
    c.slave = slave ∧ c.lba_mode = true ∧ c.drive.toNat % 16 = high := by
  have hall : ∀ b : Bool, ∀ n : Fin 16,
      (((if !b then ATA_READWRITE_MASTER else ATA_READWRITE_SLAVE) ||| UInt8.ofNat n.val) &&&
        0x10 != 0) = b ∧
      (((if !b then ATA_READWRITE_MASTER else ATA_READWRITE_SLAVE) ||| UInt8.ofNat n.val) &&&
        0x40 != 0) = true ∧
      ((if !b then ATA_READWRITE_MASTER else ATA_READWRITE_SLAVE) |||
        UInt8.ofNat n.val).toNat % 16 = n.val := by
    decide
  unfold IdeChannel.slave IdeChannel.lba_mode
  rw [hc]
  exact hall slave ⟨high, h⟩

/-- The bytes of an LBA that go to the registers. -/
theorem lba_bytes (lba : Nat) :
    (lba >>> 24) &&& 0x0F = lba / 16777216 % 16 ∧
      (lba &&& 0x000000FF) >>> 0 = lba % 256 ∧
      UInt8.ofNat ((lba &&& 0x0000FF00) >>> 8) = UInt8.ofNat (lba / 256) ∧
      UInt8.ofNat ((lba &&& 0x00FF0000) >>> 16) = UInt8.ofNat (lba / 65536) := by
  have hmask : (0x0F : Nat) = 2 ^ 4 - 1 := by norm_num
  have hbyte : (0xFF : Nat) = 2 ^ 8 - 1 := by norm_num
  have hshift : ∀ n : Nat, (lba &&& (0xFF <<< n)) >>> n = lba >>> n % 256 := by
    intro n
    rw [Nat.shiftRight_and_distrib, Nat.shiftLeft_shiftRight, hbyte,
      Nat.and_two_pow_sub_one_eq_mod]
  refine ⟨?_, ?_, ?_, ?_⟩
  · rw [hmask, Nat.and_two_pow_sub_one_eq_mod, Nat.shiftRight_eq_div_pow]
  · rw [hbyte, Nat.and_two_pow_sub_one_eq_mod, Nat.shiftRight_zero]
  · apply UInt8.toNat_inj.mp
    rw [show (0x0000FF00 : Nat) = 0xFF <<< 8 by decide, hshift 8, UInt8.toNat_ofNat',
      UInt8.toNat_ofNat', Nat.shiftRight_eq_div_pow]
    omega
  · apply UInt8.toNat_inj.mp
    rw [show (0x00FF0000 : Nat) = 0xFF <<< 16 by decide, hshift 16, UInt8.toNat_ofNat',
      UInt8.toNat_ofNat', Nat.shiftRight_eq_div_pow]
    omega

/-- Polls until the drive is ready. -/
theorem wait_ready_spec (secondary : Bool) (polls : Nat) (ide : Ide)
    (h : (ide.channel secondary).busy < polls) :
    ata_wait_ready (ioBase secondary + ATA_STATUS_REGISTER_OFFSET) polls ide =
      some (ide.setChannel secondary { ide.channel secondary with busy := 0 }) := by
  induction polls generalizing ide with
  | zero => exact absurd h (Nat.not_lt_zero _)
  | succ polls ih =>
    unfold ata_wait_ready
    rw [Ide.in_status]
    by_cases hbusy : (ide.channel secondary).busy = 0
    · have hready : ¬ ((ATA_STATUS_RDY ||| ATA_STATUS_DRQ) &&& ATA_STATUS_BSY ≠ 0) := by decide
      simp only [hbusy, if_true, hready, if_false]
    · have hwait : ATA_STATUS_BSY &&& ATA_STATUS_BSY ≠ 0 := by decide
      simp only [hbusy, if_false, hwait, ne_eq, not_false_eq_true, if_true]
      rw [ih _ (by rw [Ide.channel_setChannel]; simp only; omega), Ide.setChannel_setChannel,
        Ide.channel_setChannel]

/-- A channel whose registers hold a drive and an LBA moves that sector. -/
theorem programmed_command {c : IdeChannel} {slave : Bool} {lba : Nat} (latency : Nat)
    (hlba : lba < 268435456) (hcount : c.sector_count = 1)
    (hdrive : c.drive = ((if !slave then ATA_READWRITE_MASTER else ATA_READWRITE_SLAVE) |||
      UInt8.ofNat ((lba >>> 24) &&& 0x0F)))
    (hlow : c.lba_low = UInt8.ofNat ((lba &&& 0x000000FF) >>> 0))
    (hmid : c.lba_mid = UInt8.ofNat ((lba &&& 0x0000FF00) >>> 8))
    (hhigh : c.lba_high = UInt8.ofNat ((lba &&& 0x00FF0000) >>> 16)) :
    (c.command latency ATA_COMMAND_READ_SECTORS).transfer =
        .reading slave (lba * ATA_SECTOR_SIZE) 256 ∧
      (c.command latency ATA_COMMAND_WRITE_SECTORS).transfer =
        .writing slave (lba * ATA_SECTOR_SIZE) 256 [] := by
  obtain ⟨htop, hlow', hmid', hhigh'⟩ := lba_bytes lba
  rw [htop] at hdrive
  rw [hlow'] at hlow
  rw [hmid'] at hmid
  rw [hhigh'] at hhigh
  obtain ⟨hslave, hmode, hbits⟩ := drive_register slave (Nat.mod_lt _ (by decide)) c hdrive
  have haddress : c.lba = lba := by
    unfold IdeChannel.lba
    rw [hbits, hlow, hmid, hhigh]
    simp only [UInt8.toNat_ofNat']
    omega
  have hne : ¬ ATA_COMMAND_WRITE_SECTORS = ATA_COMMAND_READ_SECTORS := by decide
  unfold IdeChannel.command
  rw [haddress, hslave]
  simp only [hmode, hcount, hne, and_self, and_false, if_true, if_false]

/-- A command leaves its transfer on the channel of the drive, and nothing else. -/
theorem sector_command_spec (ide : Ide) (device : ata_device) {lba : Nat} (hlba : lba < 268435456)
    (command : UInt8) : ∃ c, ata_sector_command ide device lba command =
        some (ide.setChannel device.drive.secondary c) ∧
      (command = ATA_COMMAND_READ_SECTORS →
        c.transfer = .reading device.drive.slave (lba * ATA_SECTOR_SIZE) 256) ∧
      (command = ATA_COMMAND_WRITE_SECTORS →
        c.transfer = .writing device.drive.slave (lba * ATA_SECTOR_SIZE) 256 []) := by
  unfold ata_sector_command
  simp only [get_io_base_eq, is_master_eq, Ide.out_drive, Ide.out_sector_count, Ide.out_lba_low,
    Ide.out_lba_mid, Ide.out_lba_high, Ide.out_command, Ide.channel_setChannel,
    Ide.setChannel_setChannel, Ide.latency_setChannel]
  rw [wait_ready_spec _ _ _ (by
    rw [Ide.channel_setChannel]
    exact Nat.lt_succ_self _)]
  simp only [Ide.channel_setChannel, Ide.setChannel_setChannel]
  refine ⟨_, rfl, ?_, ?_⟩
  · rintro rfl
    exact (programmed_command _ hlba rfl rfl rfl rfl rfl).1
  · rintro rfl
    exact (programmed_command _ hlba rfl rfl rfl rfl rfl).2

/-! ## The words of a sector -/

/-- The words that are left of a sector go from the port to the buffer. -/
theorem read_words_spec (buf : Nat) {secondary slave : Bool} (turns : Nat) {i address : Nat}
    {m : Mem} {ide : Ide} (h : turns = 0 ∨ (ide.channel secondary).transfer =
      .reading slave address turns) :
    (ata_read_words (ioBase secondary + ATA_DATA_REGISTER_OFFSET) buf turns i m ide).1 =
        storeList m (buf + 2 * i) (loadList (ide.drives (driveAt secondary slave)) address
          (2 * turns)) ∧
      (ata_read_words (ioBase secondary + ATA_DATA_REGISTER_OFFSET) buf turns i m ide).2.drives =
        ide.drives := by
  induction turns generalizing i address m ide with
  | zero => exact ⟨rfl, rfl⟩
  | succ turns ih =>
    have hnow := h.resolve_left (Nat.succ_ne_zero turns)
    unfold ata_read_words
    rw [Ide.in_data _ _ hnow]
    simp only
    have hnext : turns = 0 ∨ ((ide.setChannel secondary { ide.channel secondary with
        transfer := if turns = 0 then .idle else .reading slave (address + 2) turns }).channel
          secondary).transfer = .reading slave (address + 2) turns := by
      by_cases hlast : turns = 0
      · exact Or.inl hlast
      · exact Or.inr (by rw [Ide.channel_setChannel, if_neg hlast])
    obtain ⟨hmem, hdrives⟩ := @ih (i + 1) (address + 2)
      (store16 m (buf + 2 * i) (load16 (ide.drives (driveAt secondary slave)) address)) _ hnext
    refine ⟨?_, by rw [hdrives, Ide.drives_setChannel]⟩
    have hlen : 2 * (turns + 1) = 2 + 2 * turns := by omega
    have hplace : buf + 2 * (i + 1) = buf + 2 * i + 2 := by omega
    have htwo : loadList (ide.drives (driveAt secondary slave)) address 2 =
        [ide.drives (driveAt secondary slave) address,
          ide.drives (driveAt secondary slave) (address + 1)] := rfl
    rw [hmem, Ide.drives_setChannel, hlen, loadList_append, htwo, storeList_append, store16,
      load16_bytes, hplace]
    rfl

/-- The words that are left of a sector go from the buffer to the port, and the last one
replaces the sector. -/
theorem write_words_spec (buf : Nat) (m : Mem) {secondary slave : Bool} (turns : Nat)
    {i address : Nat} {sector : List UInt8} {ide : Ide}
    (h : (ide.channel secondary).transfer = .writing slave address (turns + 1) sector) :
    (ata_write_words (ioBase secondary + ATA_DATA_REGISTER_OFFSET) buf m (turns + 1) i
        ide).drives =
      Function.update ide.drives (driveAt secondary slave)
        (storeList (ide.drives (driveAt secondary slave)) address
          (sector ++ loadList m (buf + 2 * i) (2 * (turns + 1)))) := by
  have htwo : ∀ i, [UInt8.ofNat (load16 m (buf + 2 * i)),
      UInt8.ofNat (load16 m (buf + 2 * i) / 256)] = loadList m (buf + 2 * i) 2 := by
    intro i
    rw [load16_bytes]
    rfl
  induction turns generalizing i sector ide with
  | zero =>
    unfold ata_write_words
    rw [Ide.out_data _ _ _ h, htwo, if_pos rfl]
    rfl
  | succ turns ih =>
    unfold ata_write_words
    rw [Ide.out_data _ _ _ h, htwo, if_neg (Nat.succ_ne_zero turns),
      ih (by rw [Ide.channel_setChannel]), Ide.drives_setChannel]
    have hlen : 2 * (turns + 1 + 1) = 2 + 2 * (turns + 1) := by omega
    have hnext : buf + 2 * (i + 1) = buf + 2 * i + 2 := by omega
    rw [hlen, loadList_append, List.append_assoc, hnext]

/-- The buffer gets the sector of the drive. -/
theorem read_sector_spec (s : Storage) (device : ata_device) {lba : Nat} (buf : Nat)
    (hlba : lba < 268435456) : ∃ ide, ata_read_sector_lba28 s device lba buf =
        .done () { s.setMem (storeList s.mem buf
          (loadList (s.ide.drives device.drive) (lba * ATA_SECTOR_SIZE) ATA_SECTOR_SIZE)) with
          ide := ide } ∧
      ide.drives = s.ide.drives := by
  obtain ⟨c, hcommand, htransfer, -⟩ :=
    sector_command_spec s.ide device hlba ATA_COMMAND_READ_SECTORS
  have hready : ((s.ide.setChannel device.drive.secondary c).channel
      device.drive.secondary).transfer =
      .reading device.drive.slave (lba * ATA_SECTOR_SIZE) 256 := by
    rw [Ide.channel_setChannel]
    exact htransfer rfl
  obtain ⟨hmem, hdrives⟩ := @read_words_spec buf _ _ 256 0 _ s.mem _ (Or.inr hready)
  rw [Ide.drives_setChannel] at hmem hdrives
  rw [driveAt_eq, Nat.mul_zero, Nat.add_zero] at hmem
  unfold ata_read_sector_lba28
  simp only [hcommand, get_io_base_eq, hmem]
  exact ⟨_, rfl, hdrives⟩

/-- The sector of the drive is replaced by the bytes of the buffer. -/
theorem write_sector_spec (s : Storage) (device : ata_device) {lba : Nat} (buf : Nat)
    (hlba : lba < 268435456) : ∃ ide, ata_write_sector_lba28 s device lba buf =
        .done () { s with ide := ide } ∧
      ide.drives = Function.update s.ide.drives device.drive
        (storeList (s.ide.drives device.drive) (lba * ATA_SECTOR_SIZE)
          (loadList s.mem buf ATA_SECTOR_SIZE)) := by
  obtain ⟨c, hcommand, -, htransfer⟩ :=
    sector_command_spec s.ide device hlba ATA_COMMAND_WRITE_SECTORS
  have hready : ((s.ide.setChannel device.drive.secondary c).channel
      device.drive.secondary).transfer =
      .writing device.drive.slave (lba * ATA_SECTOR_SIZE) (255 + 1) [] := by
    rw [Ide.channel_setChannel]
    exact htransfer rfl
  have hdrives := @write_words_spec buf s.mem _ _ 255 0 _ _ _ hready
  have hwords : 2 * (255 + 1) = ATA_SECTOR_SIZE := by decide
  rw [Ide.drives_setChannel, driveAt_eq, Nat.mul_zero, Nat.add_zero, List.nil_append, hwords]
    at hdrives
  unfold ata_write_sector_lba28
  simp only [hcommand, get_io_base_eq]
  exact ⟨_, rfl, hdrives⟩

/-! ## The sectors of a range -/

/-- The bytes of a range that lie in front of a sector. -/
def bytesBefore (address size idx : Nat) : Nat := min size (idx * ATA_SECTOR_SIZE - address)

theorem bytesBefore_start (address size : Nat) :
    bytesBefore address size (address / ATA_SECTOR_SIZE) = 0 := by
  unfold bytesBefore ATA_SECTOR_SIZE
  omega

theorem bytesBefore_stop (address : Nat) {size : Nat} (hsize : 0 < size) :
    bytesBefore address size ((address + size - 1) / ATA_SECTOR_SIZE + 1) = size := by
  unfold bytesBefore ATA_SECTOR_SIZE
  omega

theorem bytesBefore_lt {address size idx : Nat} (hsize : 0 < size)
    (hidx : idx ≤ (address + size - 1) / ATA_SECTOR_SIZE) :
    bytesBefore address size idx < size := by
  unfold bytesBefore ATA_SECTOR_SIZE at *
  omega

theorem sector_range_eq {address size : Nat} (hsize : 0 < size)
    (hsum : address + size ≤ 4294967296) : ata_sector_range address size =
      ⟨address / 512, address % 512, (address + size - 1) / 512, (address + size - 1) % 512⟩ := by
  have hlast : sub32 (add32 address size) 1 = address + size - 1 := by
    unfold add32 sub32
    omega
  unfold ata_sector_range ATA_SECTOR_SIZE
  rw [hlast]

/-- The part of a sector that lies in the range. -/
theorem sector_part_spec {address size idx : Nat} (hsize : 0 < size)
    (hsum : address + size ≤ 4294967296) (hlow : address / ATA_SECTOR_SIZE ≤ idx)
    (hhigh : idx ≤ (address + size - 1) / ATA_SECTOR_SIZE) :
    ∃ offset n, ata_sector_part (ata_sector_range address size) idx = (offset, n) ∧
      idx * ATA_SECTOR_SIZE + offset = address + bytesBefore address size idx ∧
      offset < ATA_SECTOR_SIZE ∧ offset + n ≤ ATA_SECTOR_SIZE ∧
      bytesBefore address size idx + n = bytesBefore address size (idx + 1) := by
  unfold bytesBefore ATA_SECTOR_SIZE at *
  rw [sector_range_eq hsize hsum]
  unfold ata_sector_part ATA_SECTOR_SIZE
  by_cases hfirst : idx = address / 512
  · have hone : sub32 512 (address % 512) = 512 - address % 512 := sub32_eq (by omega) (by omega)
    by_cases hlast : idx = (address + size - 1) / 512
    · have hend : add32 (sub32 ((address + size - 1) % 512) (address % 512)) 1 = size := by
        rw [sub32_eq (by omega) (by omega), add32_eq (by omega)]
        omega
      simp only [if_pos hfirst, if_pos hlast, hend]
      refine ⟨_, _, rfl, ?_, ?_, ?_, ?_⟩ <;> omega
    · simp only [if_pos hfirst, if_neg hlast, hone]
      refine ⟨_, _, rfl, ?_, ?_, ?_, ?_⟩ <;> omega
  · by_cases hlast : idx = (address + size - 1) / 512
    · have hend : add32 (sub32 ((address + size - 1) % 512) 0) 1 =
          (address + size - 1) % 512 + 1 := by
        rw [sub32_eq (by omega) (by omega), add32_eq (by omega)]
        omega
      simp only [if_neg hfirst, if_pos hlast, hend]
      refine ⟨_, _, rfl, ?_, ?_, ?_, ?_⟩ <;> omega
    · simp only [if_neg hfirst, if_neg hlast]
      refine ⟨_, _, rfl, ?_, ?_, ?_, ?_⟩ <;> omega

end sakana_os
