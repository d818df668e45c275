-- The configuration space of PCI: the two ports that show a register of it, and the accessors of
-- `pci.c` for a byte, a word and a long.
import SakanaOS.BitFields
import Mathlib.Data.Nat.Bitwise
import Mathlib.Data.UInt
import Mathlib.Logic.Function.Basic

open bit_fields

namespace sakana_os

def PCI_CONFIG_ADDRESS : UInt16 := 0xCF8
def PCI_CONFIG_DATA : UInt16 := 0xCFC

def PCI_CONFIG_ENABLE_BIT : UInt32 := 0x80000000
def PCI_CONFIG_BUS_MASK : UInt32 := 0xFF
def PCI_CONFIG_SLOT_MASK : UInt32 := 0x1F
def PCI_CONFIG_FUNC_MASK : UInt32 := 0x07
def PCI_CONFIG_OFFSET_MASK : UInt32 := 0xFC

/-! ## The state of the hardware -/

/-- A place in the topology. -/
structure PciFunction where
  bus : UInt8
  slot : UInt8
  func : UInt8
deriving DecidableEq, Repr

/-- The latch of the address port, the bytes of every function, and what a register makes of the
long that it holds and of one that is written to it. -/
structure PciPorts where
  config_address : UInt32
  space : PciFunction → UInt8 → UInt8
  store : PciFunction → UInt8 → UInt32 → UInt32 → UInt32

/-- Four bytes, from the lowest one up. -/
def longOf (b0 b1 b2 b3 : UInt8) : UInt32 :=
  UInt32.ofNat (b0.toNat + 256 * b1.toNat + 65536 * b2.toNat + 16777216 * b3.toNat)

/-- A byte of a long. -/
def longByte (v : UInt32) (i : Nat) : UInt8 := UInt8.ofNat (field v.toNat (8 * i) 8)

/-- The long at an offset. -/
def spaceLong (bytes : UInt8 → UInt8) (offset : UInt8) : UInt32 :=
  longOf (bytes offset) (bytes (offset + 1)) (bytes (offset + 2)) (bytes (offset + 3))

/-- The bytes with a long stored at an offset. -/
def storeLong (bytes : UInt8 → UInt8) (offset : UInt8) (v : UInt32) : UInt8 → UInt8 := fun o =>
  if offset.toNat ≤ o.toNat ∧ o.toNat < offset.toNat + 4 then
    longByte v (o.toNat - offset.toNat)
  else bytes o

/-- The function that an address selects. -/
def selectedFunction (address : UInt32) : PciFunction where
  bus := UInt8.ofNat (field address.toNat 16 8)
  slot := UInt8.ofNat (field address.toNat 11 5)
  func := UInt8.ofNat (field address.toNat 8 3)

/-- The register that an address selects: the two low bits are not looked at. -/
def selectedRegister (address : UInt32) : UInt8 := UInt8.ofNat (4 * field address.toNat 2 6)

/-- The enable bit. -/
def selects (address : UInt32) : Bool := field address.toNat 31 1 = 1

namespace PciPorts

def port_long_out (p : PciPorts) (port : UInt16) (data : UInt32) : PciPorts :=
  if port = PCI_CONFIG_ADDRESS then { p with config_address := data }
  else if port = PCI_CONFIG_DATA ∧ selects p.config_address then
    let f := selectedFunction p.config_address
    let register := selectedRegister p.config_address
    let old := spaceLong (p.space f) register
    { p with
      space := Function.update p.space f
        (storeLong (p.space f) register (p.store f register old data)) }
  else p

/-- A port that nothing answers reads as ones. -/
def port_long_in (p : PciPorts) (port : UInt16) : UInt32 :=
  if port = PCI_CONFIG_ADDRESS then p.config_address
  else if port = PCI_CONFIG_DATA ∧ selects p.config_address then
    spaceLong (p.space (selectedFunction p.config_address)) (selectedRegister p.config_address)
  else 0xFFFFFFFF

end PciPorts

/-! ## The code -/

def pci_config_get_address (bus slot func offset : UInt8) : UInt32 :=
  let lbus := (bus.toUInt32 &&& PCI_CONFIG_BUS_MASK) <<< 16
  let lslot := (slot.toUInt32 &&& PCI_CONFIG_SLOT_MASK) <<< 11
  let lfunc := (func.toUInt32 &&& PCI_CONFIG_FUNC_MASK) <<< 8
  let loffset := offset.toUInt32 &&& PCI_CONFIG_OFFSET_MASK
  PCI_CONFIG_ENABLE_BIT ||| lbus ||| lslot ||| lfunc ||| loffset

def pci_config_make_byte (data : UInt32) (offset : UInt8) : UInt8 :=
  ((data >>> ((offset.toUInt32 &&& 3) * 8)) &&& 0xFF).toUInt8

def pci_config_make_word (data : UInt32) (offset : UInt8) : UInt16 :=
  ((data >>> ((offset.toUInt32 &&& 2) * 8)) &&& 0xFFFF).toUInt16

def pci_config_make_long (data : UInt32) (_offset : UInt8) : UInt32 := data

section

variable (p : PciPorts) (bus slot func offset : UInt8)

def pci_config_read_byte : UInt8 × PciPorts :=
  let address := pci_config_get_address bus slot func offset
  let p := p.port_long_out PCI_CONFIG_ADDRESS address
  let data := p.port_long_in PCI_CONFIG_DATA
  (pci_config_make_byte data offset, p)

def pci_config_read_word : UInt16 × PciPorts :=
  let address := pci_config_get_address bus slot func offset
  let p := p.port_long_out PCI_CONFIG_ADDRESS address
  let data := p.port_long_in PCI_CONFIG_DATA
  (pci_config_make_word data offset, p)

def pci_config_read_long : UInt32 × PciPorts :=
  let address := pci_config_get_address bus slot func offset
  let p := p.port_long_out PCI_CONFIG_ADDRESS address
  let data := p.port_long_in PCI_CONFIG_DATA
  (pci_config_make_long data offset, p)

def pci_config_write_long (value : UInt32) : PciPorts :=
  let address := pci_config_get_address bus slot func offset
  let p := p.port_long_out PCI_CONFIG_ADDRESS address
  p.port_long_out PCI_CONFIG_DATA value

end

/-! ## The packed address -/

theorem get_address_toNat {bus slot func : UInt8} (offset : UInt8) (hslot : slot.toNat < 32)
    (hfunc : func.toNat < 8) :
    (pci_config_get_address bus slot func offset).toNat =
      2147483648 + 65536 * bus.toNat + 2048 * slot.toNat + 256 * func.toNat +
        4 * (offset.toNat / 4) := by
  have hbus := bus.toNat_lt
  have hoff := offset.toNat_lt
  have hbusmask : bus.toNat &&& 255 = bus.toNat := by
    rw [show 255 = 2 ^ 8 - 1 from rfl, Nat.and_two_pow_sub_one_eq_mod, Nat.mod_eq_of_lt hbus]
  have hslotmask : slot.toNat &&& 31 = slot.toNat := by
    rw [show 31 = 2 ^ 5 - 1 from rfl, Nat.and_two_pow_sub_one_eq_mod, Nat.mod_eq_of_lt hslot]
  have hfuncmask : func.toNat &&& 7 = func.toNat := by
    rw [show 7 = 2 ^ 3 - 1 from rfl, Nat.and_two_pow_sub_one_eq_mod, Nat.mod_eq_of_lt hfunc]
  have hoffmask : offset.toNat &&& 252 = 4 * (offset.toNat / 4) :=
    and_high hoff (show 2 ≤ 8 by omega)
  unfold pci_config_get_address PCI_CONFIG_ENABLE_BIT PCI_CONFIG_BUS_MASK PCI_CONFIG_SLOT_MASK
    PCI_CONFIG_FUNC_MASK PCI_CONFIG_OFFSET_MASK
  simp only [UInt32.toNat_or, UInt32.toNat_shiftLeft, UInt32.toNat_and, UInt8.toNat_toUInt32,
    UInt32.reduceToNat, hbusmask, hslotmask, hfuncmask, hoffmask, Nat.reduceMod, Nat.shiftLeft_eq,
    Nat.reducePow]
  rw [Nat.mod_eq_of_lt (by omega), Nat.mod_eq_of_lt (by omega), Nat.mod_eq_of_lt (by omega)]
  have h1 : 2147483648 ||| bus.toNat * 65536 = 2147483648 + bus.toNat * 65536 :=
    or_eq_add (n := 24) (by omega) (by omega)
  have h2 : 2147483648 + bus.toNat * 65536 ||| slot.toNat * 2048 =
      2147483648 + bus.toNat * 65536 + slot.toNat * 2048 :=
    or_eq_add (n := 16) (by omega) (by omega)
  have h3 : 2147483648 + bus.toNat * 65536 + slot.toNat * 2048 ||| func.toNat * 256 =
      2147483648 + bus.toNat * 65536 + slot.toNat * 2048 + func.toNat * 256 :=
    or_eq_add (n := 11) (by omega) (by omega)
  rw [h1, h2, h3, or_eq_add (n := 8) (by omega) (by omega)]
  omega

/-- The ports select what the address was packed from. -/
theorem get_address_selects {bus slot func : UInt8} (offset : UInt8) (hslot : slot.toNat < 32)
    (hfunc : func.toNat < 8) :
    selects (pci_config_get_address bus slot func offset) = true ∧
      selectedFunction (pci_config_get_address bus slot func offset) = ⟨bus, slot, func⟩ ∧
      (selectedRegister (pci_config_get_address bus slot func offset)).toNat =
        4 * (offset.toNat / 4) := by
  have hbus := bus.toNat_lt
  have hoff := offset.toNat_lt
  unfold selects selectedFunction selectedRegister field
  rw [get_address_toNat offset hslot hfunc, decide_eq_true_eq]
  refine ⟨by omega, ?_, ?_⟩
  · rw [PciFunction.mk.injEq]
    refine ⟨?_, ?_, ?_⟩
    · apply UInt8.toNat_inj.mp
      rw [UInt8.toNat_ofNat']
      omega
    · apply UInt8.toNat_inj.mp
      rw [UInt8.toNat_ofNat']
      omega
    · apply UInt8.toNat_inj.mp
      rw [UInt8.toNat_ofNat']
      omega
  · rw [UInt8.toNat_ofNat']
    omega

/-! ## Bytes of a long -/

theorem longOf_toNat (b0 b1 b2 b3 : UInt8) : (longOf b0 b1 b2 b3).toNat =
    b0.toNat + 256 * b1.toNat + 65536 * b2.toNat + 16777216 * b3.toNat := by
  have h0 := b0.toNat_lt
  have h1 := b1.toNat_lt
  have h2 := b2.toNat_lt
  have h3 := b3.toNat_lt
  unfold longOf
  rw [UInt32.toNat_ofNat']
  omega

/-- The offset of the register that an offset lies in. -/
def registerOffset (offset : UInt8) : UInt8 := UInt8.ofNat (4 * (offset.toNat / 4))

theorem registerOffset_toNat (offset : UInt8) :
    (registerOffset offset).toNat = 4 * (offset.toNat / 4) := by
  have hlt := offset.toNat_lt
  unfold registerOffset
  rw [UInt8.toNat_ofNat']
  omega

theorem registerOffset_aligned {offset : UInt8} (h : offset.toNat % 4 = 0) :
    registerOffset offset = offset := by
  apply UInt8.toNat_inj.mp
  rw [registerOffset_toNat]
  omega

theorem longByte_toNat (v : UInt32) (i : Nat) :
    (longByte v i).toNat = v.toNat / 2 ^ (8 * i) % 256 := by
  unfold longByte field
  rw [UInt8.toNat_ofNat']
  exact Nat.mod_mod _ _

/-- A long consists of its bytes. -/
theorem longOf_longByte (v : UInt32) :
    longOf (longByte v 0) (longByte v 1) (longByte v 2) (longByte v 3) = v := by
  have hlt := v.toNat_lt
  apply UInt32.toNat_inj.mp
  rw [longOf_toNat, longByte_toNat, longByte_toNat, longByte_toNat, longByte_toNat]
  omega

theorem longByte_longOf (b0 b1 b2 b3 : UInt8) :
    longByte (longOf b0 b1 b2 b3) 0 = b0 ∧ longByte (longOf b0 b1 b2 b3) 1 = b1 ∧
      longByte (longOf b0 b1 b2 b3) 2 = b2 ∧ longByte (longOf b0 b1 b2 b3) 3 = b3 := by
  have h0 := b0.toNat_lt
  have h1 := b1.toNat_lt
  have h2 := b2.toNat_lt
  have h3 := b3.toNat_lt
  refine ⟨?_, ?_, ?_, ?_⟩
  all_goals
    apply UInt8.toNat_inj.mp
    rw [longByte_toNat, longOf_toNat]
    omega

/-- A byte of the long at a register. -/
theorem longByte_spaceLong (bytes : UInt8 → UInt8) (offset : UInt8) :
    longByte (spaceLong bytes (registerOffset offset)) (offset.toNat % 4) = bytes offset := by
  have hreg := registerOffset_toNat offset
  have hlt := offset.toNat_lt
  obtain ⟨h0, h1, h2, h3⟩ := longByte_longOf (bytes (registerOffset offset))
    (bytes (registerOffset offset + 1)) (bytes (registerOffset offset + 2))
    (bytes (registerOffset offset + 3))
  have hplace : ∀ i : UInt8, i.toNat = offset.toNat % 4 → registerOffset offset + i = offset := by
    intro i hi
    apply UInt8.toNat_inj.mp
    rw [UInt8.toNat_add, hreg, hi]
    omega
  unfold spaceLong
  rcases show offset.toNat % 4 = 0 ∨ offset.toNat % 4 = 1 ∨ offset.toNat % 4 = 2 ∨
    offset.toNat % 4 = 3 by omega with h | h | h | h
  · rw [h, h0, registerOffset_aligned h]
  · rw [h, h1, hplace 1 h.symm]
  · rw [h, h2, hplace 2 h.symm]
  · rw [h, h3, hplace 3 h.symm]

/-! ## What the accessors read -/

theorem make_byte_eq (data : UInt32) (offset : UInt8) :
    pci_config_make_byte data offset = longByte data (offset.toNat % 4) := by
  have hmask : offset.toNat &&& 3 = offset.toNat % 4 := Nat.and_two_pow_sub_one_eq_mod _ 2
  have hbyte : ∀ n : Nat, n &&& 255 = n % 256 := fun n => Nat.and_two_pow_sub_one_eq_mod n 8
  apply UInt8.toNat_inj.mp
  unfold pci_config_make_byte
  rw [longByte_toNat]
  simp only [UInt32.toNat_toUInt8, UInt32.toNat_and, UInt32.toNat_shiftRight, UInt32.toNat_mul,
    UInt8.toNat_toUInt32, UInt32.reduceToNat, hmask, hbyte, Nat.shiftRight_eq_div_pow]
  have hsmall : offset.toNat % 4 * 8 % 2 ^ 32 % 32 = 8 * (offset.toNat % 4) := by omega
  rw [hsmall]
  omega

theorem make_word_toNat (data : UInt32) (offset : UInt8) :
    (pci_config_make_word data offset).toNat =
      data.toNat / 2 ^ (8 * (offset.toNat &&& 2)) % 65536 := by
  have hword : ∀ n : Nat, n &&& 65535 = n % 65536 := fun n => Nat.and_two_pow_sub_one_eq_mod n 16
  have htwo : offset.toNat &&& 2 ≤ 2 := Nat.and_le_right
  unfold pci_config_make_word
  simp only [UInt32.toNat_toUInt16, UInt32.toNat_and, UInt32.toNat_shiftRight, UInt32.toNat_mul,
    UInt8.toNat_toUInt32, UInt32.reduceToNat, hword, Nat.shiftRight_eq_div_pow]
  have hsmall : (offset.toNat &&& 2) * 8 % 2 ^ 32 % 32 = 8 * (offset.toNat &&& 2) := by omega
  rw [hsmall]
  omega

/-! ## The ports behind the accessors -/

/-- The ports with an address in the latch. -/
def PciPorts.latched (p : PciPorts) (address : UInt32) : PciPorts :=
  { p with config_address := address }

theorem out_address (p : PciPorts) (address : UInt32) :
    p.port_long_out PCI_CONFIG_ADDRESS address = p.latched address := if_pos rfl

section

variable (p : PciPorts) {bus slot func : UInt8} (offset : UInt8)

theorem selected_register (hslot : slot.toNat < 32) (hfunc : func.toNat < 8) :
    selectedRegister (pci_config_get_address bus slot func offset) = registerOffset offset := by
  apply UInt8.toNat_inj.mp
  rw [(@get_address_selects bus slot func offset hslot hfunc).2.2, registerOffset_toNat]

theorem in_data (hslot : slot.toNat < 32) (hfunc : func.toNat < 8) :
    (p.latched (pci_config_get_address bus slot func offset)).port_long_in PCI_CONFIG_DATA =
      spaceLong (p.space ⟨bus, slot, func⟩) (registerOffset offset) := by
  obtain ⟨henable, hfunction, -⟩ := @get_address_selects bus slot func offset hslot hfunc
  unfold PciPorts.port_long_in PciPorts.latched
  rw [if_neg (by decide), if_pos ⟨rfl, henable⟩, hfunction, selected_register offset hslot hfunc]

/-- A write to a register stores what the register makes of the value. -/
theorem write_long_space (hslot : slot.toNat < 32) (hfunc : func.toNat < 8) (value : UInt32) :
    (pci_config_write_long p bus slot func offset value).space =
        Function.update p.space ⟨bus, slot, func⟩ (storeLong (p.space ⟨bus, slot, func⟩)
          (registerOffset offset) (p.store ⟨bus, slot, func⟩ (registerOffset offset)
            (spaceLong (p.space ⟨bus, slot, func⟩) (registerOffset offset)) value)) ∧
      (pci_config_write_long p bus slot func offset value).store = p.store := by
  obtain ⟨henable, hfunction, -⟩ := @get_address_selects bus slot func offset hslot hfunc
  unfold pci_config_write_long
  simp only [out_address]
  unfold PciPorts.port_long_out PciPorts.latched
  rw [if_neg (by decide), if_pos ⟨rfl, henable⟩]
  simp only [hfunction, selected_register offset hslot hfunc, and_self]

end

/-! ## Writing and reading a register -/

theorem spaceLong_storeLong (bytes : UInt8 → UInt8) {offset : UInt8} (h : offset.toNat % 4 = 0)
    (v : UInt32) : spaceLong (storeLong bytes offset v) offset = v := by
  have hlt := offset.toNat_lt
  have hnext : ∀ i : UInt8, i.toNat < 4 →
      storeLong bytes offset v (offset + i) = longByte v i.toNat := by
    intro i hi
    have hplace : (offset + i).toNat = offset.toNat + i.toNat := by
      rw [UInt8.toNat_add]
      omega
    unfold storeLong
    rw [hplace, if_pos (by omega), Nat.add_sub_cancel_left]
  have hfirst := hnext 0 (by decide)
  rw [UInt8.add_zero] at hfirst
  unfold spaceLong
  rw [hfirst, hnext 1 (by decide), hnext 2 (by decide), hnext 3 (by decide)]
  exact longOf_longByte v

section

variable {bus slot func offset : UInt8}

theorem read_long_eq (p : PciPorts) (hslot : slot.toNat < 32) (hfunc : func.toNat < 8)
    (haligned : offset.toNat % 4 = 0) :
    (pci_config_read_long p bus slot func offset).1 =
      spaceLong (p.space ⟨bus, slot, func⟩) offset := by
  unfold pci_config_read_long pci_config_make_long
  simp only [out_address, in_data p offset hslot hfunc, registerOffset_aligned haligned]

/-- The register holds what it makes of the value. -/
theorem write_long_register (p : PciPorts) (hslot : slot.toNat < 32) (hfunc : func.toNat < 8)
    (haligned : offset.toNat % 4 = 0) (value : UInt32) :
    spaceLong ((pci_config_write_long p bus slot func offset value).space ⟨bus, slot, func⟩)
        offset =
      p.store ⟨bus, slot, func⟩ offset (spaceLong (p.space ⟨bus, slot, func⟩) offset) value := by
  rw [(@write_long_space p bus slot func offset hslot hfunc value).1, Function.update_self,
    registerOffset_aligned haligned, spaceLong_storeLong _ haligned]

end

/-! ## One space of bytes -/

/-- The accessors read these bytes: a byte, the pair of them at an even offset, and the four of
them at a multiple of 4. They change none. -/
structure ReadsAs (p : PciPorts) (bytes : PciFunction → UInt8 → UInt8) : Prop where
  byte : ∀ bus slot func offset : UInt8, slot.toNat < 32 → func.toNat < 8 →
    (pci_config_read_byte p bus slot func offset).1 = bytes ⟨bus, slot, func⟩ offset
  word : ∀ bus slot func offset : UInt8, slot.toNat < 32 → func.toNat < 8 → offset.toNat % 2 = 0 →
    (pci_config_read_word p bus slot func offset).1.toNat =
      (bytes ⟨bus, slot, func⟩ offset).toNat + 256 * (bytes ⟨bus, slot, func⟩ (offset + 1)).toNat
  long : ∀ bus slot func offset : UInt8, slot.toNat < 32 → func.toNat < 8 → offset.toNat % 4 = 0 →
    (pci_config_read_long p bus slot func offset).1.toNat =
      (bytes ⟨bus, slot, func⟩ offset).toNat + 256 * (bytes ⟨bus, slot, func⟩ (offset + 1)).toNat +
        65536 * (bytes ⟨bus, slot, func⟩ (offset + 2)).toNat +
        16777216 * (bytes ⟨bus, slot, func⟩ (offset + 3)).toNat
  kept : ∀ bus slot func offset : UInt8,
    (pci_config_read_byte p bus slot func offset).2.space = p.space ∧
      (pci_config_read_word p bus slot func offset).2.space = p.space ∧
      (pci_config_read_long p bus slot func offset).2.space = p.space

/-- The register keeps what is written to it. -/
def PciPorts.Plain (p : PciPorts) (f : PciFunction) (register : UInt8) : Prop :=
  ∀ old v, p.store f register old v = v

theorem readsAs_space (p : PciPorts) : ReadsAs p p.space where
  byte bus slot func offset hslot hfunc := by
    unfold pci_config_read_byte
    simp only [out_address, in_data p offset hslot hfunc, make_byte_eq, longByte_spaceLong]
  word bus slot func offset hslot hfunc heven := by
    have hlt := offset.toNat_lt
    have hmask : offset.toNat &&& 2 = offset.toNat % 4 := by
      rw [show offset.toNat &&& 2 = offset.toNat &&& 2 ^ 1 from rfl, Nat.and_two_pow,
        Nat.testBit_eq_decide_div_mod_eq]
      rcases show offset.toNat / 2 ^ 1 % 2 = 0 ∨ offset.toNat / 2 ^ 1 % 2 = 1 by omega with h | h
      · rw [h, decide_eq_false (by decide), Bool.toNat_false]
        omega
      · rw [h, decide_eq_true rfl, Bool.toNat_true]
        omega
    have hnext : (offset + 1).toNat = offset.toNat + 1 := by
      rw [UInt8.toNat_add]
      have hone : (1 : UInt8).toNat = 1 := rfl
      omega
    have hreg : registerOffset (offset + 1) = registerOffset offset := by
      apply UInt8.toNat_inj.mp
      rw [registerOffset_toNat, registerOffset_toNat, hnext]
      omega
    have hlow := longByte_spaceLong (p.space ⟨bus, slot, func⟩) offset
    have hhigh := longByte_spaceLong (p.space ⟨bus, slot, func⟩) (offset + 1)
    rw [hreg, hnext] at hhigh
    unfold pci_config_read_word
    simp only [out_address, in_data p offset hslot hfunc, make_word_toNat, hmask]
    rw [← hlow, ← hhigh, longByte_toNat, longByte_toNat]
    rcases show offset.toNat % 4 = 0 ∨ offset.toNat % 4 = 2 by omega with h | h
    · rw [h, show (offset.toNat + 1) % 4 = 1 by omega]
      omega
    · rw [h, show (offset.toNat + 1) % 4 = 3 by omega]
      omega
  long bus slot func offset hslot hfunc haligned := by
    rw [read_long_eq p hslot hfunc haligned]
    exact longOf_toNat _ _ _ _
  kept _ _ _ _ := ⟨rfl, rfl, rfl⟩

/-- The accessors show one space of bytes: they read it, and a long that is written to a plain
register takes the place of its four bytes and of no other. -/
theorem the_accessors_show_one_space_of_bytes (p : PciPorts) :
    ReadsAs p p.space ∧
      ∀ (bus slot func offset : UInt8) (value : UInt32), slot.toNat < 32 → func.toNat < 8 →
        offset.toNat % 4 = 0 → p.Plain ⟨bus, slot, func⟩ offset →
          ReadsAs (pci_config_write_long p bus slot func offset value) fun f o =>
            if f = ⟨bus, slot, func⟩ ∧ offset.toNat ≤ o.toNat ∧ o.toNat < offset.toNat + 4 then
              longByte value (o.toNat - offset.toNat)
            else p.space f o := by
  refine ⟨readsAs_space p, ?_⟩
  intro bus slot func offset value hslot hfunc haligned hplain
  have hspace := (@write_long_space p bus slot func offset hslot hfunc value).1
  rw [registerOffset_aligned haligned, hplain] at hspace
  have hreads := readsAs_space (pci_config_write_long p bus slot func offset value)
  have hsame : (pci_config_write_long p bus slot func offset value).space = fun f o =>
      if f = ⟨bus, slot, func⟩ ∧ offset.toNat ≤ o.toNat ∧ o.toNat < offset.toNat + 4 then
        longByte value (o.toNat - offset.toNat)
      else p.space f o := by
    funext f o
    rw [hspace]
    by_cases hf : f = ⟨bus, slot, func⟩
    · rw [hf, Function.update_self]
      unfold storeLong
      simp only [true_and]
    · rw [Function.update_of_ne hf, if_neg (fun h => hf h.1)]
  rwa [hsame] at hreads

/-- A space in which every byte is 0, and every register is plain. -/
def plainPorts : PciPorts := ⟨0, fun _ _ => 0, fun _ _ _ v => v⟩

theorem a_long_is_read_back :
    (pci_config_read_word (pci_config_write_long plainPorts 255 31 7 0xFC 0x12345678) 255 31 7
      0xFE).1.toNat = 0x1234 := by
  have hword := ((the_accessors_show_one_space_of_bytes plainPorts).2 255 31 7 0xFC 0x12345678
    (by decide) (by decide) (by decide) (fun _ _ => rfl)).word 255 31 7 0xFE (by decide)
    (by decide) (by decide)
  rw [hword]
  decide

end sakana_os
