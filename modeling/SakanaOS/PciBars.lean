-- The base address registers of a PCI device: what the driver records of a register that is all
-- flags and address bits, and for which registers that is right.
import SakanaOS.KernelMessages
import SakanaOS.PciConfig

open bit_fields

namespace sakana_os

/-! ## The code -/

def PCI_BAR_IO_SPACE : UInt8 := 0x01
def PCI_BAR_MEMORY_SPACE : UInt8 := 0x00

def PCI_BAR_MEMORY_32BIT : UInt8 := 0x00

def PCI_HEADER_TYPE_0 : UInt8 := 0x00
def PCI_HEADER_TYPE_1 : UInt8 := 0x01

def PCI_H0_BAR0 : UInt8 := 0x10
def PCI_H0_BAR1 : UInt8 := 0x14
def PCI_H0_BAR2 : UInt8 := 0x18
def PCI_H0_BAR3 : UInt8 := 0x1C
def PCI_H0_BAR4 : UInt8 := 0x20
def PCI_H0_BAR5 : UInt8 := 0x24

/-- `pci_bar_t`. The port is the low half of the address: the two are a union. -/
structure pci_bar where
  type : UInt8
  base_address : UInt32
  size : UInt32
  flags : UInt8

def pci_bar.io_port (bar : pci_bar) : UInt16 := bar.base_address.toUInt16

def pci_bar.set_io_port (bar : pci_bar) (io_port : UInt16) : pci_bar :=
  { bar with base_address := (bar.base_address &&& 0xFFFF0000) ||| io_port.toUInt32 }

/-- What the probe reads of the header of a function. -/
structure pci_header extends pci_device_t where
  classcode : UInt8
  subclass : UInt8
  prog_if : UInt8
  header_type : UInt8

structure pci_device extends pci_header where
  bar : UInt8 → pci_bar

def pci_device.setBar (d : pci_device) (bar_index : UInt8) (u : pci_bar → pci_bar) : pci_device :=
  { d with bar := Function.update d.bar bar_index (u (d.bar bar_index)) }

/-- The result of loading a register, with the device and the ports after it. -/
abbrev BarResult : Type := Int × pci_device × PciPorts

/-- The `switch` over the index. -/
def pci_general_bar_offset (bar_index : UInt8) : Option UInt8 :=
  if bar_index = 0 then some PCI_H0_BAR0
  else if bar_index = 1 then some PCI_H0_BAR1
  else if bar_index = 2 then some PCI_H0_BAR2
  else if bar_index = 3 then some PCI_H0_BAR3
  else if bar_index = 4 then some PCI_H0_BAR4
  else if bar_index = 5 then some PCI_H0_BAR5
  else none

/-- What the register reads as after ones were written to it. Its value is written back. -/
def pci_bar_mask (p : PciPorts) (pci_device : pci_device) (offset : UInt8) (bar_address : UInt32) :
    UInt32 × PciPorts :=
  let p := pci_config_write_long p pci_device.bus pci_device.slot pci_device.function offset
    0xFFFFFFFF
  let (mask, p) := pci_config_read_long p pci_device.bus pci_device.slot pci_device.function offset
  (mask, pci_config_write_long p pci_device.bus pci_device.slot pci_device.function offset
    bar_address)

def pci_general_load_bar_info (p : PciPorts) (pci_device : pci_device) (bar_index : UInt8) :
    BarResult :=
  match pci_general_bar_offset bar_index with
  | none => (-1, pci_device, p)
  | some offset =>
    let (bar_address, p) :=
      pci_config_read_long p pci_device.bus pci_device.slot pci_device.function offset
    if bar_address &&& PCI_BAR_IO_SPACE.toUInt32 ≠ 0 then
      let pci_device := pci_device.setBar bar_index fun bar => { bar with type := PCI_BAR_IO_SPACE }
      let (mask, p) := pci_bar_mask p pci_device offset bar_address
      let pci_device := pci_device.setBar bar_index fun bar =>
        { bar with size := ~~~(mask &&& ~~~0x3) + 1 }
      let pci_device := pci_device.setBar bar_index fun bar =>
        bar.set_io_port (bar_address &&& ~~~0x3).toUInt16
      let pci_device := pci_device.setBar bar_index fun bar =>
        { bar with flags := (bar_address &&& 0x3).toUInt8 }
      (0, pci_device, p)
    else
      let bar_address_type := (bar_address &&& 0x3).toUInt8
      if bar_address_type ≠ PCI_BAR_MEMORY_32BIT then (-1, pci_device, p)
      else
        let pci_device := pci_device.setBar bar_index fun bar =>
          { bar with type := PCI_BAR_MEMORY_SPACE }
        let (mask, p) := pci_bar_mask p pci_device offset bar_address
        let pci_device := pci_device.setBar bar_index fun bar =>
          { bar with size := ~~~(mask &&& ~~~0xf) + 1 }
        let pci_device := pci_device.setBar bar_index fun bar =>
          { bar with base_address := bar_address }
        let pci_device := pci_device.setBar bar_index fun bar =>
          { bar with flags := (bar_address &&& 0xf).toUInt8 }
        (0, pci_device, p)

def pci_pci2pci_load_bar_info (p : PciPorts) (pci_device : pci_device) (_bar_index : UInt8) :
    BarResult :=
  (-1, pci_device, p)

def pci_load_bar_info (p : PciPorts) (pci_device : pci_device) (bar_index : UInt8) :
    BarResult :=
  let header_type := pci_device.header_type &&& 0x7F
  if header_type = PCI_HEADER_TYPE_0 then pci_general_load_bar_info p pci_device bar_index
  else if header_type = PCI_HEADER_TYPE_1 then pci_pci2pci_load_bar_info p pci_device bar_index
  else (-1, pci_device, p)

/-! ## The registers -/

/-- The low bits of a register that are flags. -/
def flagBits (io : Bool) : Nat := if io then 2 else 4

/-- A base address register: flags that no write changes, and above the size of `2 ^ k` bytes
the bits of an address. -/
structure BarRegister where
  io : Bool
  k : Nat
  flags : Nat
  address : Nat
  width_le : flagBits io ≤ k
  flags_lt : flags < 2 ^ flagBits io
  kind : flags % 2 = if io then 1 else 0
  address_lt : address < 4294967296
  aligned : address % 2 ^ k = 0

namespace BarRegister

variable (r : BarRegister)

def value : UInt32 := UInt32.ofNat (r.address + r.flags)

/-- What the register holds after a write. -/
def written (v : UInt32) : UInt32 := UInt32.ofNat (v.toNat / 2 ^ r.k * 2 ^ r.k + r.flags)

/-- The memory type, for a register of memory: 0 for 32 bits, 2 for 64 bits. -/
def type : Nat := r.flags / 2 % 4

end BarRegister

/-- The register is the one at an offset of the function. -/
structure BarAt (p : PciPorts) (f : PciFunction) (offset : UInt8) (r : BarRegister) : Prop where
  value : spaceLong (p.space f) offset = r.value
  written : ∀ old v, p.store f offset old v = r.written v

/-- A result of 0 is one about I/O or about memory of 32 bits, with the size, the address without
flags, the flags, and the register as it was. -/
def BarDecoded (r : BarRegister) (f : PciFunction) (offset : UInt8)
    (result : BarResult) (bar_index : UInt8) : Prop :=
  result.1 = 0 →
    (r.io = true ∨ r.type = 0) ∧
      (result.2.1.bar bar_index).size.toNat = 2 ^ r.k ∧
      (if r.io then (result.2.1.bar bar_index).io_port.toNat
        else (result.2.1.bar bar_index).base_address.toNat) = r.address ∧
      (result.2.1.bar bar_index).flags.toNat = r.flags ∧
      spaceLong (result.2.2.space f) offset = r.value

/-- A port of 16 bits, or memory of 32 bits that is not prefetchable, of a size below 4 GB. The
types 1 and 3 are refused. -/
def BarRegister.Supported (r : BarRegister) : Prop :=
  if r.io then r.k < 32 ∧ r.address < 65536
  else r.flags % 4 = 2 ∨ (r.flags = 0 ∧ r.k < 32)

/-! ## The values of a register -/

namespace BarRegister

variable (r : BarRegister)

theorem flags_lt_size : r.flags < 2 ^ r.k :=
  Nat.lt_of_lt_of_le r.flags_lt (Nat.pow_le_pow_right (by decide) r.width_le)

theorem flags_lt_sixteen : r.flags < 16 := by
  have hlt := r.flags_lt
  unfold flagBits at hlt
  split at hlt
  · omega
  · omega

/-- An address leaves room for the flags. -/
theorem address_le : r.address + 2 ^ r.k ≤ 4294967296 ∨ r.address = 0 := by
  have hlt := r.address_lt
  obtain ⟨c, hc⟩ := Nat.dvd_of_mod_eq_zero r.aligned
  by_cases hk : r.k ≤ 32
  · left
    have hall : 4294967296 = 2 ^ r.k * 2 ^ (32 - r.k) := by
      rw [← Nat.pow_add, Nat.add_sub_cancel' hk]
    rw [hc] at hlt ⊢
    rw [hall] at hlt ⊢
    have hnext := Nat.lt_of_mul_lt_mul_left hlt
    calc 2 ^ r.k * c + 2 ^ r.k = 2 ^ r.k * (c + 1) := by rw [Nat.mul_add, Nat.mul_one]
      _ ≤ 2 ^ r.k * 2 ^ (32 - r.k) := Nat.mul_le_mul_left _ hnext
  · right
    have hbig : 2 ^ 32 ≤ 2 ^ r.k := Nat.pow_le_pow_right (by decide) (by omega)
    rcases Nat.eq_zero_or_pos c with hzero | hpos
    · rw [hc, hzero, Nat.mul_zero]
    · have hle := Nat.le_mul_of_pos_right (2 ^ r.k) hpos
      omega

theorem value_toNat : r.value.toNat = r.address + r.flags := by
  have hsmall := r.flags_lt_sixteen
  have hflags := r.flags_lt_size
  unfold value
  rw [UInt32.toNat_ofNat']
  rcases r.address_le with h | h
  · omega
  · omega

/-- Writing back what was read leaves the register. -/
theorem written_value : r.written r.value = r.value := by
  have hflags := r.flags_lt_size
  obtain ⟨c, hc⟩ := Nat.dvd_of_mod_eq_zero r.aligned
  have hdiv : (r.address + r.flags) / 2 ^ r.k * 2 ^ r.k = r.address := by
    rw [hc, Nat.mul_add_div (Nat.two_pow_pos _), Nat.div_eq_of_lt hflags, Nat.add_zero,
      Nat.mul_comm]
  unfold written
  rw [value_toNat, hdiv]
  rfl

/-- The address bits of the mask. -/
theorem mask_toNat : (r.written 0xFFFFFFFF).toNat =
    (if r.k < 32 then 4294967296 - 2 ^ r.k else 0) + r.flags := by
  have hsmall := r.flags_lt_sixteen
  have hflags := r.flags_lt_size
  have hones : (0xFFFFFFFF : UInt32).toNat = 4294967295 := rfl
  unfold written
  rw [UInt32.toNat_ofNat', hones]
  by_cases hk : r.k < 32
  · have hdvd : 2 ^ r.k ∣ 4294967296 := Nat.pow_dvd_pow 2 (show r.k ≤ 32 by omega)
    have hpos := Nat.two_pow_pos r.k
    have hsplit := Nat.div_add_mod 4294967295 (2 ^ r.k)
    have hrem := Nat.mod_lt 4294967295 hpos
    -- the remainder is one below the size, since the size divides the next number
    have hlast : 2 ^ r.k ∣ 4294967295 % 2 ^ r.k + 1 := by
      have hsum : 4294967295 % 2 ^ r.k + 1 = 4294967296 - 2 ^ r.k * (4294967295 / 2 ^ r.k) := by
        omega
      rw [hsum]
      exact Nat.dvd_sub hdvd (Nat.dvd_mul_right _ _)
    have hle := Nat.le_of_dvd (Nat.succ_pos _) hlast
    rw [if_pos hk, Nat.mul_comm]
    omega
  · have hbig : 2 ^ 32 ≤ 2 ^ r.k := Nat.pow_le_pow_right (by decide) (by omega)
    rw [if_neg hk, Nat.div_eq_of_lt (by omega)]
    omega

/-- What the driver computes as the size, with the mask of the flag bits. -/
theorem size_toNat {ones : UInt32} (hones : ones.toNat = 4294967296 - 2 ^ flagBits r.io) :
    (~~~(r.written 0xFFFFFFFF &&& ones) + 1).toNat = if r.k < 32 then 2 ^ r.k else 0 := by
  have hlt := r.flags_lt
  have hwidth := r.width_le
  have hpos := Nat.two_pow_pos r.k
  have hbits : flagBits r.io ≤ 32 := by
    unfold flagBits
    split
    · omega
    · omega
  have hclear : (r.written 0xFFFFFFFF &&& ones).toNat =
      if r.k < 32 then 4294967296 - 2 ^ r.k else 0 := by
    have hhigh : (r.written 0xFFFFFFFF).toNat &&& (4294967296 - 2 ^ flagBits r.io) =
        2 ^ flagBits r.io * ((r.written 0xFFFFFFFF).toNat / 2 ^ flagBits r.io) :=
      and_high (r.written 0xFFFFFFFF).toNat_lt hbits
    rw [UInt32.toNat_and, hones, hhigh, mask_toNat]
    have hdvd : 2 ^ flagBits r.io ∣ if r.k < 32 then 4294967296 - 2 ^ r.k else 0 := by
      split
      · exact Nat.dvd_sub (Nat.pow_dvd_pow 2 hbits) (Nat.pow_dvd_pow 2 hwidth)
      · exact Nat.dvd_zero _
    obtain ⟨c, hc⟩ := hdvd
    rw [hc, Nat.mul_add_div (Nat.two_pow_pos _), Nat.div_eq_of_lt hlt, Nat.add_zero]
  have hone : (1 : UInt32).toNat = 1 := rfl
  rw [UInt32.toNat_add, UInt32.toNat_not, hclear, hone]
  unfold UInt32.size
  split
  · have hle : 2 ^ r.k ≤ 2 ^ 31 := Nat.pow_le_pow_right (by decide) (by omega)
    omega
  · omega

end BarRegister

/-! ## What the driver records -/

theorem general_bar_aligned {bar_index offset : UInt8}
    (h : pci_general_bar_offset bar_index = some offset) : offset.toNat % 4 = 0 := by
  revert h
  unfold pci_general_bar_offset
  split_ifs
  all_goals
    intro h
    cases h
    try rfl

@[simp] theorem setBar_bar (d : pci_device) (bar_index : UInt8) (u : pci_bar → pci_bar) :
    (d.setBar bar_index u).bar bar_index = u (d.bar bar_index) := Function.update_self _ _ _

theorem set_io_port_io_port (bar : pci_bar) (io_port : UInt16) :
    (bar.set_io_port io_port).io_port = io_port := by
  have hlt := io_port.toNat_lt
  have hmask : bar.base_address.toNat &&& 4294901760 = 65536 * (bar.base_address.toNat / 65536) :=
    and_high bar.base_address.toNat_lt (show 16 ≤ 32 by omega)
  apply UInt16.toNat_inj.mp
  unfold pci_bar.set_io_port pci_bar.io_port
  simp only [UInt32.toNat_toUInt16, UInt32.toNat_or, UInt32.toNat_and, UInt32.reduceToNat, hmask,
    UInt16.toNat_toUInt32]
  rw [or_eq_add (n := 16) (by omega) (by omega)]
  omega

section

variable {p : PciPorts} {d : pci_device} {bar_index offset : UInt8} {r : BarRegister}

/-- The mask is that of the register, which is restored. -/
theorem bar_mask_spec (hslot : d.slot.toNat < 32) (hfunc : d.function.toNat < 8)
    (haligned : offset.toNat % 4 = 0) (h : BarAt p ⟨d.bus, d.slot, d.function⟩ offset r) :
    (pci_bar_mask p d offset r.value).1 = r.written 0xFFFFFFFF ∧
      spaceLong ((pci_bar_mask p d offset r.value).2.space ⟨d.bus, d.slot, d.function⟩) offset =
        r.value := by
  obtain ⟨p₁, hp₁⟩ : ∃ p₁, p₁ = pci_config_write_long p d.bus d.slot d.function offset 0xFFFFFFFF :=
    ⟨_, rfl⟩
  have hones :=
    @write_long_register d.bus d.slot d.function offset p hslot hfunc haligned 0xFFFFFFFF
  have hstore := (@write_long_space p d.bus d.slot d.function offset hslot hfunc 0xFFFFFFFF).2
  rw [h.written, ← hp₁] at hones
  rw [← hp₁] at hstore
  obtain ⟨p₂, hp₂⟩ : ∃ p₂, p₂ = (pci_config_read_long p₁ d.bus d.slot d.function offset).2 :=
    ⟨_, rfl⟩
  have hread := @read_long_eq d.bus d.slot d.function offset p₁ hslot hfunc haligned
  have hback := @write_long_register d.bus d.slot d.function offset p₂ hslot hfunc haligned r.value
  have hsame : p₂.store = p.store := by
    rw [hp₂]
    exact hstore
  rw [hsame, h.written, r.written_value] at hback
  unfold pci_bar_mask
  simp only [← hp₁, ← hp₂]
  exact ⟨hread.trans hones, hback⟩

/-- The flag bits of a value. -/
theorem value_low (r : BarRegister) {w : Nat} (hw : w ≤ flagBits r.io) :
    r.value.toNat % 2 ^ w = r.flags % 2 ^ w := by
  have hdvd : 2 ^ w ∣ r.address :=
    Nat.dvd_trans (Nat.pow_dvd_pow 2 (Nat.le_trans hw r.width_le))
      (Nat.dvd_of_mod_eq_zero r.aligned)
  rw [r.value_toNat, Nat.add_mod, Nat.mod_eq_zero_of_dvd hdvd, Nat.zero_add, Nat.mod_mod]

theorem value_and_low (r : BarRegister) {ones : UInt32} {w : Nat} (hw : w ≤ flagBits r.io)
    (hones : ones.toNat = 2 ^ w - 1) : (r.value &&& ones).toNat = r.flags % 2 ^ w := by
  rw [UInt32.toNat_and, hones, Nat.and_two_pow_sub_one_eq_mod, value_low r hw]

theorem value_flags (r : BarRegister) {ones : UInt32} {w : Nat} (hw : w ≤ flagBits r.io)
    (hones : ones.toNat = 2 ^ w - 1) : (r.value &&& ones).toUInt8.toNat = r.flags % 2 ^ w := by
  have hsmall := Nat.mod_le r.flags (2 ^ w)
  have hflags := r.flags_lt_sixteen
  rw [UInt32.toNat_toUInt8, value_and_low r hw hones]
  omega

/-- The lowest bit says what the register is for. -/
theorem value_io (r : BarRegister) :
    r.value &&& PCI_BAR_IO_SPACE.toUInt32 = 0 ↔ r.io = false := by
  have hkind := r.kind
  have hbit :=
    @value_and_low r PCI_BAR_IO_SPACE.toUInt32 1 (by unfold flagBits; split <;> omega) rfl
  rw [← UInt32.toNat_inj, hbit, Nat.pow_one, hkind]
  cases r.io with
  | true => exact iff_of_false (by decide) (by decide)
  | false => exact iff_of_true rfl rfl

theorem BarAt.read (h : BarAt p ⟨d.bus, d.slot, d.function⟩ offset r) (hslot : d.slot.toNat < 32)
    (hfunc : d.function.toNat < 8) (haligned : offset.toNat % 4 = 0) :
    ∃ p₁, pci_config_read_long p d.bus d.slot d.function offset = (r.value, p₁) ∧
      BarAt p₁ ⟨d.bus, d.slot, d.function⟩ offset r := by
  have hread := @read_long_eq d.bus d.slot d.function offset p hslot hfunc haligned
  rw [h.value] at hread
  exact ⟨_, Prod.ext hread rfl, h.value, h.written⟩

/-- The result for a register of I/O. -/
theorem load_io_bar (hslot : d.slot.toNat < 32) (hfunc : d.function.toNat < 8)
    (hoffset : pci_general_bar_offset bar_index = some offset)
    (h : BarAt p ⟨d.bus, d.slot, d.function⟩ offset r) (hio : r.io = true) :
    ∃ d' p', pci_general_load_bar_info p d bar_index = (0, d', p') ∧
      (d'.bar bar_index).size.toNat = (if r.k < 32 then 2 ^ r.k else 0) ∧
      (d'.bar bar_index).io_port.toNat = r.address % 65536 ∧
      (d'.bar bar_index).flags.toNat = r.flags ∧
      spaceLong (p'.space ⟨d.bus, d.slot, d.function⟩) offset = r.value := by
  have haligned := general_bar_aligned hoffset
  obtain ⟨p₁, hread, h₁⟩ := h.read hslot hfunc haligned
  have hbits : flagBits r.io = 2 := by rw [hio]; rfl
  have hlt := r.flags_lt
  rw [hbits] at hlt
  have hbit : r.value &&& PCI_BAR_IO_SPACE.toUInt32 ≠ 0 := by
    rw [Ne, value_io, hio]
    decide
  obtain ⟨hmask, hback⟩ := @bar_mask_spec p₁
    (d.setBar bar_index fun bar => { bar with type := PCI_BAR_IO_SPACE }) _ _ hslot hfunc haligned
    h₁
  unfold pci_general_load_bar_info
  rw [hoffset]
  simp only [hread, hmask]
  rw [if_pos hbit]
  refine ⟨_, _, rfl, ?_, ?_, ?_, hback⟩
  · simp only [setBar_bar]
    apply r.size_toNat
    rw [hbits]
    rfl
  · simp only [setBar_bar]
    have hclear : (r.value &&& ~~~0x3).toNat = 4 * (r.value.toNat / 4) :=
      and_high r.value.toNat_lt (show 2 ≤ 32 by omega)
    have hfour : 2 ^ 2 ∣ r.address :=
      Nat.dvd_trans (Nat.pow_dvd_pow 2 (hbits ▸ r.width_le)) (Nat.dvd_of_mod_eq_zero r.aligned)
    show (pci_bar.set_io_port _ _).io_port.toNat = _
    rw [set_io_port_io_port, UInt32.toNat_toUInt16, hclear, r.value_toNat]
    omega
  · simp only [setBar_bar]
    rw [value_flags r (show 2 ≤ flagBits r.io by omega) rfl]
    omega

/-- The result for a register of memory whose type is one that the driver refuses. -/
theorem load_refused_bar (hslot : d.slot.toNat < 32) (hfunc : d.function.toNat < 8)
    (hoffset : pci_general_bar_offset bar_index = some offset)
    (h : BarAt p ⟨d.bus, d.slot, d.function⟩ offset r) (hio : r.io = false)
    (hflags : r.flags % 4 = 2) :
    ∃ p', pci_general_load_bar_info p d bar_index = (-1, d, p') := by
  obtain ⟨p₁, hread, -⟩ := h.read hslot hfunc (general_bar_aligned hoffset)
  have hbits : flagBits r.io = 4 := by rw [hio]; rfl
  have htype : (r.value &&& 0x3).toUInt8 ≠ PCI_BAR_MEMORY_32BIT := by
    intro hzero
    have htwo := value_flags r (show 2 ≤ flagBits r.io by omega)
      (show (0x3 : UInt32).toNat = _ from rfl)
    rw [hzero] at htwo
    exact absurd (htwo.trans hflags) (by decide)
  unfold pci_general_load_bar_info
  rw [hoffset]
  simp only [hread]
  rw [if_neg (not_not.mpr ((value_io r).mpr hio)), if_pos htype]
  exact ⟨_, rfl⟩

/-- The result for another register of memory: the address keeps the flags. -/
theorem load_memory_bar (hslot : d.slot.toNat < 32) (hfunc : d.function.toNat < 8)
    (hoffset : pci_general_bar_offset bar_index = some offset)
    (h : BarAt p ⟨d.bus, d.slot, d.function⟩ offset r) (hio : r.io = false)
    (hflags : r.flags % 4 = 0) :
    ∃ d' p', pci_general_load_bar_info p d bar_index = (0, d', p') ∧
      (d'.bar bar_index).size.toNat = (if r.k < 32 then 2 ^ r.k else 0) ∧
      (d'.bar bar_index).base_address.toNat = r.address + r.flags ∧
      (d'.bar bar_index).flags.toNat = r.flags ∧
      spaceLong (p'.space ⟨d.bus, d.slot, d.function⟩) offset = r.value := by
  have haligned := general_bar_aligned hoffset
  obtain ⟨p₁, hread, h₁⟩ := h.read hslot hfunc haligned
  have hbits : flagBits r.io = 4 := by rw [hio]; rfl
  have hlt := r.flags_lt_sixteen
  have htype : (r.value &&& 0x3).toUInt8 = PCI_BAR_MEMORY_32BIT := by
    apply UInt8.toNat_inj.mp
    rw [value_flags r (show 2 ≤ flagBits r.io by omega) rfl]
    exact hflags
  obtain ⟨hmask, hback⟩ := @bar_mask_spec p₁
    (d.setBar bar_index fun bar => { bar with type := PCI_BAR_MEMORY_SPACE }) _ _ hslot hfunc
    haligned h₁
  unfold pci_general_load_bar_info
  rw [hoffset]
  simp only [hread, hmask]
  rw [if_neg (not_not.mpr ((value_io r).mpr hio)), if_neg (not_not.mpr htype)]
  refine ⟨_, _, rfl, ?_, ?_, ?_, hback⟩
  · simp only [setBar_bar]
    apply r.size_toNat
    rw [hbits]
    rfl
  · simp only [setBar_bar]
    exact r.value_toNat
  · simp only [setBar_bar]
    rw [value_flags r (show 4 ≤ flagBits r.io by omega) rfl]
    omega

/-- The driver decodes a base address register exactly when it is supported. -/
theorem the_driver_decodes_the_registers_that_it_supports (hslot : d.slot.toNat < 32)
    (hfunc : d.function.toNat < 8) (hheader : d.header_type &&& 0x7F = PCI_HEADER_TYPE_0)
    (hoffset : pci_general_bar_offset bar_index = some offset)
    (h : BarAt p ⟨d.bus, d.slot, d.function⟩ offset r) :
    BarDecoded r ⟨d.bus, d.slot, d.function⟩ offset (pci_load_bar_info p d bar_index) bar_index ↔
      r.Supported := by
  have hcall : pci_load_bar_info p d bar_index = pci_general_load_bar_info p d bar_index :=
    if_pos hheader
  have hkind := r.kind
  have hsmall := r.flags_lt_sixteen
  have hpow : ∀ n, n = (if r.k < 32 then 2 ^ r.k else 0) → (n = 2 ^ r.k ↔ r.k < 32) := by
    intro n hn
    have hpos := Nat.two_pow_pos r.k
    split at hn
    · rename_i hk
      exact iff_of_true hn hk
    · rename_i hk
      exact iff_of_false (by omega) hk
  unfold BarRegister.Supported
  cases hio : r.io with
  | true =>
    obtain ⟨d', p', heq, hsize, hport, hflags, hspace⟩ := load_io_bar hslot hfunc hoffset h hio
    have hlt := r.address_lt
    rw [hcall, heq]
    unfold BarDecoded
    simp only [hio, hpow _ hsize, hport, hflags, hspace, if_true, true_or, true_and, and_true,
      forall_const]
    omega
  | false =>
    rw [hio] at hkind
    simp only [Bool.false_eq_true, if_false] at hkind ⊢
    rcases show r.flags % 4 = 2 ∨ r.flags % 4 = 0 by omega with htype | htype
    · obtain ⟨p', heq⟩ := load_refused_bar hslot hfunc hoffset h hio htype
      rw [hcall, heq]
      exact iff_of_true (fun hzero => absurd hzero (by simp)) (Or.inl htype)
    · obtain ⟨d', p', heq, hsize, hbase, hflags, hspace⟩ :=
        load_memory_bar hslot hfunc hoffset h hio htype
      rw [hcall, heq]
      unfold BarDecoded BarRegister.type
      simp only [hio, hpow _ hsize, hbase, hflags, hspace, Bool.false_eq_true, if_false, false_or,
        and_true, forall_const]
      omega

end

/-! ## Three registers -/

/-- A space in which every long at 0x10 is the register. -/
def barPorts (r : BarRegister) : PciPorts :=
  ⟨0, fun _ => storeLong (fun _ => 0) PCI_H0_BAR0 r.value, fun _ _ _ v => r.written v⟩

theorem barPorts_at (r : BarRegister) (f : PciFunction) : BarAt (barPorts r) f PCI_H0_BAR0 r :=
  ⟨spaceLong_storeLong _ (by decide) _, fun _ _ => rfl⟩

def sampleHeader : pci_device where
  bus := 0
  slot := 3
  function := 0
  vendor_id := 0x8086
  device_id := 0x100E
  classcode := 0x02
  subclass := 0x00
  prog_if := 0x00
  header_type := 0x00
  bar _ := ⟨0, 0, 0, 0⟩

/-- 128 KB of memory at 0xFEB80000. -/
def memoryBar : BarRegister :=
  ⟨false, 17, 0, 0xFEB80000, by decide, by decide, by decide, by decide, by decide⟩

/-- The same, prefetchable. -/
def prefetchableBar : BarRegister :=
  ⟨false, 17, 8, 0xFEB80000, by decide, by decide, by decide, by decide, by decide⟩

/-- The same, of 64 bits. -/
def wideBar : BarRegister :=
  ⟨false, 17, 4, 0xFEB80000, by decide, by decide, by decide, by decide, by decide⟩

theorem a_memory_register_is_decoded :
    BarDecoded memoryBar ⟨0, 3, 0⟩ PCI_H0_BAR0
      (pci_load_bar_info (barPorts memoryBar) sampleHeader 0) 0 :=
  (the_driver_decodes_the_registers_that_it_supports (by decide) (by decide) (by decide) rfl
    (barPorts_at memoryBar ⟨0, 3, 0⟩)).mpr (Or.inr ⟨rfl, by decide⟩)

/-- The address of a prefetchable register is recorded with its flag, and a register of 64 bits
is taken for one of 32. -/
theorem registers_with_flags_are_decoded_wrongly :
    ¬ BarDecoded prefetchableBar ⟨0, 3, 0⟩ PCI_H0_BAR0
        (pci_load_bar_info (barPorts prefetchableBar) sampleHeader 0) 0 ∧
      ¬ BarDecoded wideBar ⟨0, 3, 0⟩ PCI_H0_BAR0
        (pci_load_bar_info (barPorts wideBar) sampleHeader 0) 0 := by
  constructor
  · obtain ⟨d', p', heq, -, hbase, -⟩ := @load_memory_bar (barPorts prefetchableBar) sampleHeader
      0 _ prefetchableBar (by decide) (by decide) rfl (barPorts_at prefetchableBar ⟨0, 3, 0⟩) rfl
      rfl
    have hcall : pci_load_bar_info (barPorts prefetchableBar) sampleHeader 0 = (0, d', p') := heq
    rw [hcall]
    intro hdecoded
    obtain ⟨-, -, haddress, -⟩ := hdecoded rfl
    have hsum : (d'.bar 0).base_address.toNat = 0xFEB80000 := haddress
    rw [hbase] at hsum
    exact absurd hsum (by decide)
  · obtain ⟨d', p', heq, -⟩ := @load_memory_bar (barPorts wideBar) sampleHeader 0 _ wideBar
      (by decide) (by decide) rfl (barPorts_at wideBar ⟨0, 3, 0⟩) rfl rfl
    have hcall : pci_load_bar_info (barPorts wideBar) sampleHeader 0 = (0, d', p') := heq
    rw [hcall]
    intro hdecoded
    exact absurd (hdecoded rfl).1 (by decide)

end sakana_os
