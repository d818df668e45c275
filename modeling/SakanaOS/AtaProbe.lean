-- The probe of `ata.c`: the IDENTIFY block of a drive, and the capacity that the driver forms of
-- its words and stores in 32 bits.
import SakanaOS.AtaBounds
import SakanaOS.FrameSearch

namespace sakana_os

def ATA_DRIVE_MASTER : UInt8 := 0xA0
def ATA_DRIVE_SLAVE : UInt8 := 0xB0
def ATA_STATUS_ERR : UInt8 := 0x01
def ATA_COMMAND_IDENTIFY : UInt8 := 0xEC

/-- The ports, over any state of the hardware. -/
structure AtaPorts (σ : Type) where
  port_byte_in : σ → Nat → UInt8 × σ
  port_byte_out : σ → Nat → UInt8 → σ
  port_word_in : σ → Nat → UInt16 × σ

/-! ## The IDENTIFY block -/

section

variable {σ : Type} (io : AtaPorts σ)

/-- The reads of the status that wait for 400 ns. -/
def ata_delay (io_status : Nat) : Nat → σ → σ
  | 0, s => s
  | turns + 1, s => ata_delay io_status turns (io.port_byte_in s io_status).2

/-- The first wait. `none` when the drive is busy at every poll. -/
def ata_wait_idle (io_status : Nat) : Nat → σ → Option σ
  | 0, _ => none
  | polls + 1, s =>
    let (status, s) := io.port_byte_in s io_status
    if status &&& ATA_STATUS_BSY ≠ 0 then ata_wait_idle io_status polls s else some s

/-- The second wait. `none` when no poll shows data or an error. -/
def ata_wait_data (io_status : Nat) : Nat → σ → Option σ
  | 0, _ => none
  | polls + 1, s =>
    let (drq, s) := io.port_byte_in s io_status
    let (err, s) := io.port_byte_in s io_status
    if drq &&& ATA_STATUS_DRQ = 0 ∧ err &&& ATA_STATUS_ERR = 0 then
      ata_wait_data io_status polls s
    else some s

def ata_identify_words (io_data : Nat) : Nat → σ → List UInt16 × σ
  | 0, s => ([], s)
  | turns + 1, s =>
    let (word, s) := io.port_word_in s io_data
    let (words, s) := ata_identify_words io_data turns s
    (word :: words, s)

/-- The first half of the probe: the block, or nothing where there is no ATA drive. -/
def ata_identify (polls : Nat) (device : ata_device) (s : σ) : Option (Option (List UInt16) × σ) :=
  let io_base := ata_get_io_base device
  let is_master := ata_is_master device
  let io_status := io_base + ATA_STATUS_REGISTER_OFFSET
  let s := io.port_byte_out s (io_base + ATA_DRIVE_REGISTER_OFFSET)
    (if is_master then ATA_DRIVE_MASTER else ATA_DRIVE_SLAVE)
  let s := ata_delay io io_status 4 s
  let s := io.port_byte_out s (io_base + ATA_SECTOR_COUNT_REGISTER_OFFSET) 0x00
  let s := io.port_byte_out s (io_base + ATA_LBA_LOW_REGISTER_OFFSET) 0x00
  let s := io.port_byte_out s (io_base + ATA_LBA_MID_REGISTER_OFFSET) 0x00
  let s := io.port_byte_out s (io_base + ATA_LBA_HIGH_REGISTER_OFFSET) 0x00
  let s := io.port_byte_out s (io_base + ATA_COMMAND_REGISTER_OFFSET) ATA_COMMAND_IDENTIFY
  let (status, s) := io.port_byte_in s io_status
  if status = 0x00 then some (none, s)
  else
    (ata_wait_idle io io_status polls s).bind fun s =>
      let (lba_mid, s) := io.port_byte_in s (io_base + ATA_LBA_MID_REGISTER_OFFSET)
      if lba_mid ≠ 0x00 then some (none, s)
      else
        let (lba_high, s) := io.port_byte_in s (io_base + ATA_LBA_HIGH_REGISTER_OFFSET)
        if lba_high ≠ 0x00 then some (none, s)
        else
          (ata_wait_data io io_status polls s).map fun s =>
            let (identify_data, s) :=
              ata_identify_words io (io_base + ATA_DATA_REGISTER_OFFSET) 256 s
            (some identify_data, s)

end

/-! ## The capacity -/

/-- Word 49 of the block has a bit for addresses by LBA. -/
def HasLba (identify_data : List UInt16) : Prop :=
  (identify_data.getD 49 0).toNat &&& (1 <<< 9) ≠ 0

instance decidableHasLba (identify_data : List UInt16) : Decidable (HasLba identify_data) :=
  inferInstanceAs (Decidable (_ ≠ _))

/-- What the probe stores as the size. -/
def ata_identify_size (lba_supported : Bool) (identify_data : List UInt16) : Nat :=
  if lba_supported then
    mul32 ((identify_data.getD 60 0).toNat ||| (identify_data.getD 61 0).toNat <<< 16)
      ATA_SECTOR_SIZE
  else
    let cylinders := (identify_data.getD 1 0).toNat
    let heads := (identify_data.getD 3 0).toNat
    let sectors := (identify_data.getD 6 0).toNat
    mul32 (mul32 (mul32 cylinders heads) sectors) ATA_SECTOR_SIZE

/-- The same terms in `int`, in which C forms them. `none` where one overflows. -/
def ata_identify_size_int (lba_supported : Bool) (identify_data : List UInt16) : Option Int :=
  if lba_supported then
    (int_mul (identify_data.getD 61 0).toNat (2 ^ 16)).bind fun high =>
      int_mul (((identify_data.getD 60 0).toNat ||| high.toNat : Nat) : Int) ATA_SECTOR_SIZE
  else
    (int_mul (identify_data.getD 1 0).toNat (identify_data.getD 3 0).toNat).bind fun tracks =>
      (int_mul tracks (identify_data.getD 6 0).toNat).bind fun count =>
        int_mul count ATA_SECTOR_SIZE

/-- A drive as `ata_init` sets it before the probe. -/
def ata_init_drive (drive : ata_drive_t) : ata_device := ⟨drive, false, false, 0⟩

def ata_device_probe {σ : Type} (io : AtaPorts σ) (polls : Nat) (device : ata_device) (s : σ) :
    Option (Bool × ata_device × σ) :=
  (ata_identify io polls device s).map fun
    | (none, s) => (false, device, s)
    | (some identify_data, s) =>
      let device :=
        if HasLba identify_data then { device with lba_supported := true } else device
      let device :=
        { device with size := ata_identify_size device.lba_supported identify_data }
      (true, { device with present := true }, s)

/-- The bytes of the drive: its sectors as they are addressed by LBA, or else those of all heads
on all cylinders, with 512 bytes each. -/
def capacity (identify_data : List UInt16) : Nat :=
  if HasLba identify_data then
    ((identify_data.getD 60 0).toNat + 65536 * (identify_data.getD 61 0).toNat) * 512
  else
    (identify_data.getD 1 0).toNat * (identify_data.getD 3 0).toNat *
      (identify_data.getD 6 0).toNat * 512

theorem lba_sectors (low high : UInt16) :
    low.toNat ||| high.toNat * 2 ^ 16 = low.toNat + 65536 * high.toNat := by
  have hlow : low.toNat < 2 ^ 16 := low.toNat_lt
  rw [Nat.or_comm, ← Nat.shiftLeft_eq, ← Nat.shiftLeft_add_eq_or_of_lt hlow, Nat.shiftLeft_eq]
  omega

/-- The stored size is the capacity as far as 32 bits hold it. -/
theorem identify_size_eq (words : List UInt16) :
    ata_identify_size (decide (HasLba words)) words = capacity words % 4294967296 := by
  unfold ata_identify_size capacity ATA_SECTOR_SIZE
  by_cases hlba : HasLba words
  · simp only [hlba, decide_true, if_true]
    rw [Nat.shiftLeft_eq, lba_sectors, mul32]
  · simp only [hlba, decide_false, Bool.false_eq_true, if_false]
    simp only [mul32, Nat.mod_mul_mod]

/-- The terms in `int` give the capacity where they do not overflow. -/
theorem identify_size_int_eq (words : List UInt16) :
    ata_identify_size_int (decide (HasLba words)) words =
      if capacity words < 2147483648 ∧ (HasLba words ∨
          (words.getD 1 0).toNat * (words.getD 3 0).toNat < 2147483648) then
        some (capacity words : Int)
      else none := by
  unfold ata_identify_size_int capacity ATA_SECTOR_SIZE
  by_cases hlba : HasLba words
  · have hshift : (2 ^ 16 : Int) = ((2 ^ 16 : Nat) : Int) := by norm_num
    simp only [hlba, decide_true, if_true, true_or, and_true, hshift, int_mul_nat]
    by_cases hhigh : (words.getD 61 0).toNat * 2 ^ 16 < 2147483648
    · rw [if_pos hhigh, Option.bind_some, Int.toNat_natCast, lba_sectors]
    · have hlarge : ∀ low high : Nat, ¬ high * 2 ^ 16 < 2147483648 →
          ¬ (low + 65536 * high) * 512 < 2147483648 := by omega
      rw [if_neg hhigh, Option.bind_none, if_neg (hlarge _ _ hhigh)]
  · simp only [hlba, decide_false, Bool.false_eq_true, if_false, false_or, int_mul_nat]
    generalize (words.getD 1 0).toNat * (words.getD 3 0).toNat = tracks
    generalize (words.getD 6 0).toNat = sectors
    by_cases htracks : tracks < 2147483648
    · rw [if_pos htracks, Option.bind_some, int_mul_nat]
      by_cases hcount : tracks * sectors < 2147483648
      · rw [if_pos hcount, Option.bind_some, int_mul_nat]
        simp only [htracks, and_true]
      · have hlarge : ¬ tracks * sectors * 512 < 2147483648 := by omega
        simp only [hcount, hlarge, if_false, false_and, Option.bind_none]
    · simp only [htracks, if_false, Option.bind_none, and_false]

/-! ## The probe of a drive -/

section

variable {σ : Type} {io : AtaPorts σ} {polls : Nat} {drive : ata_drive_t} {s t : σ}
  {words : List UInt16}

/-- What the probe returns for a block, and what it leaves of the device. -/
theorem device_probe_eq
    (h : ata_identify io polls (ata_init_drive drive) s = some (some words, t)) :
    ata_device_probe io polls (ata_init_drive drive) s =
      some (true, ⟨drive, true, decide (HasLba words), capacity words % 4294967296⟩, t) := by
  unfold ata_device_probe
  rw [h, Option.map_some, ← identify_size_eq]
  by_cases hlba : HasLba words
  · simp only [hlba, if_true, decide_true, ata_init_drive]
  · simp only [hlba, if_false, decide_false, ata_init_drive]

/-- The probe stores the capacity, and a drive with LBA lets every byte below it pass the check
of `ata_read` and `ata_write`. -/
def ReportsCapacity (io : AtaPorts σ) (polls : Nat) (drive : ata_drive_t) (s : σ)
    (words : List UInt16) : Prop :=
  ∃ device t, ata_device_probe io polls (ata_init_drive drive) s = some (true, device, t) ∧
    device.size = capacity words ∧
    (HasLba words → ∀ address < min (capacity words) 4294967296, ¬ Refused device address 1)

theorem reportsCapacity_iff
    (h : ata_identify io polls (ata_init_drive drive) s = some (some words, t)) :
    ReportsCapacity io polls drive s words ↔ capacity words < 4294967296 := by
  unfold ReportsCapacity
  rw [device_probe_eq h]
  constructor
  · rintro ⟨device, u, hprobe, hsize, -⟩
    cases hprobe
    rw [← hsize]
    exact Nat.mod_lt _ (by norm_num)
  · intro hsmall
    refine ⟨_, t, rfl, Nat.mod_eq_of_lt hsmall, ?_⟩
    intro hlba address haddress
    have hlt := lt_min_iff.mp haddress
    unfold Refused
    rw [add32_eq (by omega), Nat.mod_eq_of_lt hsmall]
    simp only [hlba, decide_true, Bool.true_eq_false, or_false]
    omega

/-- No product of the `int` overflows, and the capacity is reported. -/
def CapacityTrue (io : AtaPorts σ) (polls : Nat) (drive : ata_drive_t) (s : σ)
    (words : List UInt16) : Prop :=
  ReportsCapacity io polls drive s words ∧
    ata_identify_size_int (decide (HasLba words)) words = some (capacity words : Int)

end

/-- The probe reports the capacities below 4 GiB. The products stay in `int` for those below 2 GiB,
when for a drive without LBA the product of the cylinders and the heads does. -/
theorem the_probe_reports_a_small_capacity {σ : Type} (io : AtaPorts σ) (polls : Nat)
    (drive : ata_drive_t) (s t : σ) (words : List UInt16)
    (h : ata_identify io polls (ata_init_drive drive) s = some (some words, t)) :
    (CapacityTrue io polls drive s words ↔ capacity words < 2147483648 ∧ (HasLba words ∨
      (words.getD 1 0).toNat * (words.getD 3 0).toNat < 2147483648)) ∧
    (ReportsCapacity io polls drive s words ↔ capacity words < 4294967296) := by
  refine ⟨?_, reportsCapacity_iff h⟩
  unfold CapacityTrue
  rw [reportsCapacity_iff h, identify_size_int_eq]
  constructor
  · rintro ⟨-, hint⟩
    split at hint
    · assumption
    · cases hint
  · intro hfit
    exact ⟨by omega, if_pos hfit⟩

/-! ## A drive that shows a block -/

/-- A drive that is always ready, over the number of the words that were read. -/
def blockPorts (words : List UInt16) : AtaPorts Nat where
  port_byte_in n port := (if port % 8 = 7 then ATA_STATUS_RDY ||| ATA_STATUS_DRQ else 0, n)
  port_byte_out n _ _ := n
  port_word_in n _ := (words.getD n 0, n + 1)

theorem identify_words_block (words : List UInt16) (io_data turns : Nat) {n : Nat}
    (h : n + turns = words.length) :
    ata_identify_words (blockPorts words) io_data turns n = (words.drop n, words.length) := by
  induction turns generalizing n with
  | zero =>
    rw [ata_identify_words, List.drop_eq_nil_of_le (by omega), ← h, Nat.add_zero]
  | succ turns ih =>
    have hlt : n < words.length := by omega
    unfold ata_identify_words
    have hword : (blockPorts words).port_word_in n io_data = (words.getD n 0, n + 1) := rfl
    simp only [hword]
    rw [ih (by omega), List.drop_eq_getElem_cons hlt, List.getD_eq_getElem _ _ hlt]

theorem block_out (words : List UInt16) (n port : Nat) (data : UInt8) :
    (blockPorts words).port_byte_out n port data = n := rfl

theorem block_registers (words : List UInt16) {base : Nat} (h : base % 8 = 0) :
    (∀ n, (blockPorts words).port_byte_in n (base + ATA_STATUS_REGISTER_OFFSET) =
      (ATA_STATUS_RDY ||| ATA_STATUS_DRQ, n)) ∧
    (∀ n, (blockPorts words).port_byte_in n (base + ATA_LBA_MID_REGISTER_OFFSET) = (0, n)) ∧
    (∀ n, (blockPorts words).port_byte_in n (base + ATA_LBA_HIGH_REGISTER_OFFSET) = (0, n)) := by
  unfold blockPorts ATA_STATUS_REGISTER_OFFSET ATA_LBA_MID_REGISTER_OFFSET
    ATA_LBA_HIGH_REGISTER_OFFSET
  refine ⟨fun n => ?_, fun n => ?_, fun n => ?_⟩
  · simp only [show (base + 7) % 8 = 7 by omega, if_true]
  · simp only [show ¬ (base + 4) % 8 = 7 by omega, if_false]
  · simp only [show ¬ (base + 5) % 8 = 7 by omega, if_false]

/-- Every block is the block of some drive. -/
theorem every_block_is_identified {words : List UInt16} (h : words.length = 256)
    (drive : ata_drive_t) :
    ata_identify (blockPorts words) 1 (ata_init_drive drive) 0 = some (some words, 256) := by
  have hbase : ata_get_io_base (ata_init_drive drive) % 8 = 0 := by cases drive <;> rfl
  have hready : ¬ ((ATA_STATUS_RDY ||| ATA_STATUS_DRQ) &&& ATA_STATUS_BSY ≠ 0) := by decide
  have hdata : ¬ ((ATA_STATUS_RDY ||| ATA_STATUS_DRQ) &&& ATA_STATUS_DRQ = 0) := by decide
  have hstatus : ¬ (ATA_STATUS_RDY ||| ATA_STATUS_DRQ) = 0x00 := by decide
  obtain ⟨hpoll, hmid, hhigh⟩ := block_registers words hbase
  unfold ata_identify
  simp only [ata_delay, ata_wait_idle, ata_wait_data, hpoll, hmid, hhigh, block_out, hready, hdata,
    hstatus, false_and, if_false, Option.bind_some, Option.map_some, ne_eq, not_true_eq_false]
  rw [identify_words_block words _ 256 (by omega), h, List.drop_zero]

/-- The block of a drive with LBA and `65536 * high` sectors. -/
def lbaBlock (high : UInt16) : List UInt16 :=
  (List.range 256).map fun i => if i = 49 then 0x200 else if i = 61 then high else 0

theorem lbaBlock_length (high : UInt16) : (lbaBlock high).length = 256 := by
  simp [lbaBlock]

theorem a_drive_of_32_mebibytes : capacity (lbaBlock 1) = 33554432 ∧
    CapacityTrue (blockPorts (lbaBlock 1)) 1 .ATA_PRIMARY_MASTER_DRIVE 0 (lbaBlock 1) ∧
    ReportsCapacity (blockPorts (lbaBlock 1)) 1 .ATA_PRIMARY_MASTER_DRIVE 0 (lbaBlock 1) := by
  have hcapacity : capacity (lbaBlock 1) = 33554432 := by decide
  have hlba : HasLba (lbaBlock 1) := by decide
  obtain ⟨htrue, hreports⟩ := the_probe_reports_a_small_capacity (blockPorts (lbaBlock 1)) 1
    .ATA_PRIMARY_MASTER_DRIVE 0 256 _ (every_block_is_identified (lbaBlock_length 1) _)
  refine ⟨hcapacity, htrue.mpr ⟨?_, Or.inl hlba⟩, hreports.mpr ?_⟩
  · omega
  · omega

/-- A drive of 4 GiB has no sector: its size is stored as 0, and its first byte is refused. -/
theorem a_drive_of_four_gibibytes_is_empty :
    capacity (lbaBlock 0x80) = 4294967296 ∧
    ata_device_probe (blockPorts (lbaBlock 0x80)) 1 (ata_init_drive .ATA_PRIMARY_MASTER_DRIVE) 0 =
      some (true, ⟨.ATA_PRIMARY_MASTER_DRIVE, true, true, 0⟩, 256) ∧
    Refused ⟨.ATA_PRIMARY_MASTER_DRIVE, true, true, 0⟩ 0 1 ∧
    ¬ CapacityTrue (blockPorts (lbaBlock 0x80)) 1 .ATA_PRIMARY_MASTER_DRIVE 0 (lbaBlock 0x80) := by
  have hcapacity : capacity (lbaBlock 0x80) = 4294967296 := by decide
  have hlba : HasLba (lbaBlock 0x80) := by decide
  have hblock := every_block_is_identified (lbaBlock_length 0x80) .ATA_PRIMARY_MASTER_DRIVE
  refine ⟨hcapacity, ?_, Or.inl (by decide +kernel), ?_⟩
  · rw [device_probe_eq hblock, hcapacity]
    simp only [hlba, decide_true]
  · intro htrue
    have hsmall := (reportsCapacity_iff hblock).mp htrue.1
    omega

end sakana_os
