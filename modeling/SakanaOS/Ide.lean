-- The two IDE channels with their four drives, as the ports show them: the registers of
-- a command, and the sector that then moves over the data port word by word.
import SakanaOS.ByteMemory

open byte_memory

namespace sakana_os

inductive ata_drive_t
  | ATA_PRIMARY_MASTER_DRIVE
  | ATA_PRIMARY_SLAVE_DRIVE
  | ATA_SECONDARY_MASTER_DRIVE
  | ATA_SECONDARY_SLAVE_DRIVE
deriving DecidableEq, Repr

def ATA_PRIMARY_IO_BASE : Nat := 0x1F0
def ATA_SECONDARY_IO_BASE : Nat := 0x170

@[match_pattern] def ATA_DATA_REGISTER_OFFSET : Nat := 0
def ATA_SECTOR_COUNT_REGISTER_OFFSET : Nat := 2
def ATA_LBA_LOW_REGISTER_OFFSET : Nat := 3
def ATA_LBA_MID_REGISTER_OFFSET : Nat := 4
def ATA_LBA_HIGH_REGISTER_OFFSET : Nat := 5
def ATA_DRIVE_REGISTER_OFFSET : Nat := 6
def ATA_STATUS_REGISTER_OFFSET : Nat := 7
def ATA_COMMAND_REGISTER_OFFSET : Nat := 7

def ATA_STATUS_DRQ : UInt8 := 0x08
def ATA_STATUS_RDY : UInt8 := 0x40
def ATA_STATUS_BSY : UInt8 := 0x80

def ATA_COMMAND_READ_SECTORS : UInt8 := 0x20
def ATA_COMMAND_WRITE_SECTORS : UInt8 := 0x30

def ATA_SECTOR_SIZE : Nat := 512

/-! ## The state of the hardware -/

/-- What the data port moves: the byte address on the drive, and the words to come. A
sector that is written is collected first. -/
inductive Transfer
  | idle
  | reading (slave : Bool) (address left : Nat)
  | writing (slave : Bool) (address left : Nat) (sector : List UInt8)

/-- The registers of a channel, and for how many polls its status stays busy. -/
structure IdeChannel where
  sector_count : UInt8
  lba_low : UInt8
  lba_mid : UInt8
  lba_high : UInt8
  drive : UInt8
  busy : Nat
  transfer : Transfer

/-- The channels, the bytes of each drive, and for how many polls a command is busy. -/
structure Ide where
  primary : IdeChannel
  secondary : IdeChannel
  drives : ata_drive_t → Mem
  latency : Nat

def Ide.channel (ide : Ide) (secondary : Bool) : IdeChannel :=
  if secondary then ide.secondary else ide.primary

def Ide.setChannel (ide : Ide) (secondary : Bool) (c : IdeChannel) : Ide :=
  if secondary then { ide with secondary := c } else { ide with primary := c }

/-- The drive on a channel. -/
def driveAt : Bool → Bool → ata_drive_t
  | false, false => .ATA_PRIMARY_MASTER_DRIVE
  | false, true => .ATA_PRIMARY_SLAVE_DRIVE
  | true, false => .ATA_SECONDARY_MASTER_DRIVE
  | true, true => .ATA_SECONDARY_SLAVE_DRIVE

/-- The channel and the offset of a port. -/
def channelOf (port : Nat) : Option (Bool × Nat) :=
  if ATA_PRIMARY_IO_BASE ≤ port ∧ port < ATA_PRIMARY_IO_BASE + 8 then
    some (false, port - ATA_PRIMARY_IO_BASE)
  else if ATA_SECONDARY_IO_BASE ≤ port ∧ port < ATA_SECONDARY_IO_BASE + 8 then
    some (true, port - ATA_SECONDARY_IO_BASE)
  else none

/-! ## Commands -/

/-- Bit 4 of the drive register selects the slave. -/
def IdeChannel.slave (c : IdeChannel) : Bool := c.drive &&& 0x10 != 0

/-- Bit 6 of the drive register selects the addresses by LBA. -/
def IdeChannel.lba_mode (c : IdeChannel) : Bool := c.drive &&& 0x40 != 0

/-- The 28 bits of the address: four in the drive register, and three registers. -/
def IdeChannel.lba (c : IdeChannel) : Nat :=
  c.drive.toNat % 16 * 16777216 + c.lba_high.toNat * 65536 + c.lba_mid.toNat * 256 +
    c.lba_low.toNat

/-- A command for one sector starts its transfer. Any other one moves no data. -/
def IdeChannel.command (c : IdeChannel) (latency : Nat) (data : UInt8) : IdeChannel :=
  let address := c.lba * ATA_SECTOR_SIZE
  { c with
    busy := latency
    transfer :=
      if c.lba_mode = true ∧ c.sector_count = 1 ∧ data = ATA_COMMAND_READ_SECTORS then
        .reading c.slave address 256
      else if c.lba_mode = true ∧ c.sector_count = 1 ∧ data = ATA_COMMAND_WRITE_SECTORS then
        .writing c.slave address 256 []
      else .idle }

/-! ## The ports -/

namespace Ide

def port_byte_out (ide : Ide) (port : Nat) (data : UInt8) : Ide :=
  match channelOf port with
  | none => ide
  | some (secondary, offset) =>
    let c := ide.channel secondary
    if offset = ATA_SECTOR_COUNT_REGISTER_OFFSET then
      ide.setChannel secondary { c with sector_count := data }
    else if offset = ATA_LBA_LOW_REGISTER_OFFSET then
      ide.setChannel secondary { c with lba_low := data }
    else if offset = ATA_LBA_MID_REGISTER_OFFSET then
      ide.setChannel secondary { c with lba_mid := data }
    else if offset = ATA_LBA_HIGH_REGISTER_OFFSET then
      ide.setChannel secondary { c with lba_high := data }
    else if offset = ATA_DRIVE_REGISTER_OFFSET then
      ide.setChannel secondary { c with drive := data }
    else if offset = ATA_COMMAND_REGISTER_OFFSET then
      ide.setChannel secondary (c.command ide.latency data)
    else ide

/-- Of the byte registers only the status is read here. -/
def port_byte_in (ide : Ide) (port : Nat) : UInt8 × Ide :=
  match channelOf port with
  | none => (0, ide)
  | some (secondary, offset) =>
    let c := ide.channel secondary
    if offset = ATA_STATUS_REGISTER_OFFSET then
      (if c.busy = 0 then ATA_STATUS_RDY ||| ATA_STATUS_DRQ else ATA_STATUS_BSY,
        ide.setChannel secondary { c with busy := c.busy - 1 })
    else (0, ide)

/-- The next word of the sector that is read. -/
def port_word_in (ide : Ide) (port : Nat) : Nat × Ide :=
  match channelOf port with
  | some (secondary, ATA_DATA_REGISTER_OFFSET) =>
    match (ide.channel secondary).transfer with
    | .reading slave address (left + 1) =>
      (load16 (ide.drives (driveAt secondary slave)) address,
        ide.setChannel secondary { ide.channel secondary with
          transfer := if left = 0 then .idle else .reading slave (address + 2) left })
    | _ => (0, ide)
  | _ => (0, ide)

/-- The next word of the sector that is written. The last one replaces the sector. -/
def port_word_out (ide : Ide) (port : Nat) (data : Nat) : Ide :=
  match channelOf port with
  | some (secondary, ATA_DATA_REGISTER_OFFSET) =>
    match (ide.channel secondary).transfer with
    | .writing slave address (left + 1) sector =>
      let sector := sector ++ [UInt8.ofNat data, UInt8.ofNat (data / 256)]
      if left = 0 then
        { ide.setChannel secondary { ide.channel secondary with transfer := .idle } with
          drives := Function.update ide.drives (driveAt secondary slave)
            (storeList (ide.drives (driveAt secondary slave)) address sector) }
      else
        ide.setChannel secondary { ide.channel secondary with
          transfer := .writing slave address left sector }
    | _ => ide
  | _ => ide

/-! ## Registers -/

section

variable (ide : Ide) (secondary : Bool) (c d : IdeChannel)

@[simp] theorem channel_setChannel : (ide.setChannel secondary c).channel secondary = c := by
  cases secondary <;> rfl

@[simp] theorem setChannel_setChannel :
    (ide.setChannel secondary c).setChannel secondary d = ide.setChannel secondary d := by
  cases secondary <;> rfl

@[simp] theorem drives_setChannel : (ide.setChannel secondary c).drives = ide.drives := by
  cases secondary <;> rfl

@[simp] theorem latency_setChannel : (ide.setChannel secondary c).latency = ide.latency := by
  cases secondary <;> rfl

end

end Ide

/-- The ports of a channel start at its base. -/
def ioBase (secondary : Bool) : Nat :=
  if secondary then ATA_SECONDARY_IO_BASE else ATA_PRIMARY_IO_BASE

theorem channelOf_ioBase (secondary : Bool) {offset : Nat} (h : offset < 8) :
    channelOf (ioBase secondary + offset) = some (secondary, offset) := by
  unfold channelOf ioBase ATA_PRIMARY_IO_BASE ATA_SECONDARY_IO_BASE
  cases secondary with
  | false =>
    simp only [Bool.false_eq_true, if_false]
    rw [if_pos (by omega), Nat.add_sub_cancel_left]
  | true =>
    simp only [if_true]
    rw [if_neg (by omega), if_pos (by omega), Nat.add_sub_cancel_left]

namespace Ide

section

variable (ide : Ide) (secondary : Bool) (data : UInt8)

theorem out_sector_count :
    port_byte_out ide (ioBase secondary + ATA_SECTOR_COUNT_REGISTER_OFFSET) data =
      ide.setChannel secondary { ide.channel secondary with sector_count := data } := by
  unfold port_byte_out
  rw [channelOf_ioBase secondary (by decide)]
  rfl

theorem out_lba_low :
    port_byte_out ide (ioBase secondary + ATA_LBA_LOW_REGISTER_OFFSET) data =
      ide.setChannel secondary { ide.channel secondary with lba_low := data } := by
  unfold port_byte_out
  rw [channelOf_ioBase secondary (by decide)]
  rfl

theorem out_lba_mid :
    port_byte_out ide (ioBase secondary + ATA_LBA_MID_REGISTER_OFFSET) data =
      ide.setChannel secondary { ide.channel secondary with lba_mid := data } := by
  unfold port_byte_out
  rw [channelOf_ioBase secondary (by decide)]
  rfl

theorem out_lba_high :
    port_byte_out ide (ioBase secondary + ATA_LBA_HIGH_REGISTER_OFFSET) data =
      ide.setChannel secondary { ide.channel secondary with lba_high := data } := by
  unfold port_byte_out
  rw [channelOf_ioBase secondary (by decide)]
  rfl

theorem out_drive :
    port_byte_out ide (ioBase secondary + ATA_DRIVE_REGISTER_OFFSET) data =
      ide.setChannel secondary { ide.channel secondary with drive := data } := by
  unfold port_byte_out
  rw [channelOf_ioBase secondary (by decide)]
  rfl

theorem out_command :
    port_byte_out ide (ioBase secondary + ATA_COMMAND_REGISTER_OFFSET) data =
      ide.setChannel secondary ((ide.channel secondary).command ide.latency data) := by
  unfold port_byte_out
  rw [channelOf_ioBase secondary (by decide)]
  rfl

theorem in_status :
    port_byte_in ide (ioBase secondary + ATA_STATUS_REGISTER_OFFSET) =
      (if (ide.channel secondary).busy = 0 then ATA_STATUS_RDY ||| ATA_STATUS_DRQ
        else ATA_STATUS_BSY,
        ide.setChannel secondary { ide.channel secondary with
          busy := (ide.channel secondary).busy - 1 }) := by
  unfold port_byte_in
  rw [channelOf_ioBase secondary (by decide)]
  rfl

theorem in_data {slave : Bool} {address left : Nat}
    (h : (ide.channel secondary).transfer = .reading slave address (left + 1)) :
    port_word_in ide (ioBase secondary + ATA_DATA_REGISTER_OFFSET) =
      (load16 (ide.drives (driveAt secondary slave)) address,
        ide.setChannel secondary { ide.channel secondary with
          transfer := if left = 0 then .idle else .reading slave (address + 2) left }) := by
  unfold port_word_in
  rw [channelOf_ioBase secondary (by decide)]
  simp only [ATA_DATA_REGISTER_OFFSET, h]

theorem out_data {slave : Bool} {address left : Nat} {sector : List UInt8} (word : Nat)
    (h : (ide.channel secondary).transfer = .writing slave address (left + 1) sector) :
    port_word_out ide (ioBase secondary + ATA_DATA_REGISTER_OFFSET) word =
      if left = 0 then
        { ide.setChannel secondary { ide.channel secondary with transfer := .idle } with
          drives := Function.update ide.drives (driveAt secondary slave)
            (storeList (ide.drives (driveAt secondary slave)) address
              (sector ++ [UInt8.ofNat word, UInt8.ofNat (word / 256)])) }
      else
        ide.setChannel secondary { ide.channel secondary with
          transfer := .writing slave address left
            (sector ++ [UInt8.ofNat word, UInt8.ofNat (word / 256)]) } := by
  unfold port_word_out
  rw [channelOf_ioBase secondary (by decide)]
  simp only [ATA_DATA_REGISTER_OFFSET, h]

end

end Ide

end sakana_os
