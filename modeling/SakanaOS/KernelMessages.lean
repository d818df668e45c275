-- The messages and names that `sprintf` writes into buffers of a fixed size: `pci.c`, `pmm.c`
-- and `ata.c`. The longest line of the PCI scan does not fit.
import SakanaOS.DecimalText
import SakanaOS.Formatter
import SakanaOS.HexText

open byte_memory positional

namespace sakana_os

/-! ## The code -/

/-- No `double` is among the arguments of this module. -/
def noDouble (n : Empty) (_ : Nat) : CString := n.elim

/-- `sprintf` hands its arguments to `vsprintf`. -/
def sprintf (m : Mem) (str : Nat) (format : CString) (args : List (Arg Empty)) :
    Except FormatFault (Nat × Mem) := vsprintf noDouble m str format args

/-- What the messages say of a `pci_device_t`. -/
structure pci_device_t where
  bus : UInt8
  slot : UInt8
  function : UInt8
  vendor_id : UInt16
  device_id : UInt16

def pciFoundFormat : CString :=
  ⟨literal "pci: Found device Vendor ID: %x, Device ID: %x at %d:%d.%d", by decide +kernel,
    by decide +kernel⟩

def pciNameFormat : CString :=
  ⟨literal "PCI: %x/%x (%d:%d.%d)", by decide +kernel, by decide +kernel⟩

def pmmFormat : CString :=
  ⟨literal "memory: PMM initialized with %d (%d MB) memory frames", by decide +kernel,
    by decide +kernel⟩

def ataFormat : CString :=
  ⟨literal "ata: Found device at %d (%d MB)", by decide +kernel, by decide +kernel⟩

/-- A `uint8_t` or a `uint16_t` is passed as an `int`. -/
def Arg.byte (b : UInt8) : Arg Empty := .word (UInt32.ofNat b.toNat)

def Arg.half (h : UInt16) : Arg Empty := .word (UInt32.ofNat h.toNat)

def pciArgs (pci_device : pci_device_t) : List (Arg Empty) :=
  [.half pci_device.vendor_id, .half pci_device.device_id, .byte pci_device.bus,
    .byte pci_device.slot, .byte pci_device.function]

/-- The message of `pci_init` about a device, in its `kernel_message`. -/
def pci_init_message (m : Mem) (kernel_message : Nat) (pci_device : pci_device_t) :
    Except FormatFault (Nat × Mem) := sprintf m kernel_message pciFoundFormat (pciArgs pci_device)

/-- `pci_get_device_name`, from the allocation of the name on. -/
def pci_get_device_name (m : Mem) (name : Nat) (pci_device : pci_device_t) :
    Except FormatFault (Nat × Mem) := sprintf m name pciNameFormat (pciArgs pci_device)

/-- The message of `pmm_init`. -/
def pmm_init_message (m : Mem) (kernel_message : Nat) (num_frames memory_size : UInt32) :
    Except FormatFault (Nat × Mem) :=
  sprintf m kernel_message pmmFormat [.word num_frames, .word (memory_size / 1024 / 1024)]

/-- The message of `ata_init_device`. -/
def ata_init_device_message (m : Mem) (kernel_message : Nat) (device_idx total_size : UInt32) :
    Except FormatFault (Nat × Mem) :=
  sprintf m kernel_message ataFormat [.word device_idx, .word (total_size / 1024 / 1024)]

/-! ## The characters of a format in pieces -/

section

variable {δ : Type} {digits : δ → Nat → CString}

/-- A format without a conversion. -/
theorem means_text {s : List UInt8} (hs : '%'.toUInt8 ∉ s) (args : List (Arg δ)) :
    Means digits s args s := by
  induction s with
  | nil => exact .done args
  | cons c s ih =>
    rw [List.mem_cons, not_or] at hs
    exact .lit (Ne.symm hs.1) (ih hs.2)

/-- Text, a conversion and what comes behind it. -/
theorem means_piece {s fmt : List UInt8} {c : UInt8} {args rest : List (Arg δ)}
    {out out' : List UInt8} (hs : '%'.toUInt8 ∉ s) (hc : Converts digits c args out rest)
    (h : Means digits fmt rest out') :
    Means digits (s ++ '%'.toUInt8 :: c :: fmt) args (s ++ (out ++ out')) := by
  induction s with
  | nil =>
    show Means digits ('%'.toUInt8 :: c :: fmt) args (out ++ out')
    exact .conv hc h
  | cons d s ih =>
    rw [List.mem_cons, not_or] at hs
    exact .lit (Ne.symm hs.1) (ih hs.2)

end

/-! ## The length of numerals -/

theorem length_itoaChars_eq {n : Int} (h0 : 0 ≤ n) (hhi : n < 2147483648) :
    (itoaChars n).length = Nat.log 10 n.natAbs + 1 := by
  rw [itoaChars_decimal (by omega) hhi]
  unfold decimalChars
  rw [if_neg (by omega), List.nil_append, List.length_map, length_numeral (by decide)]

theorem length_htoaChars_eq {n : Nat} (h : n < 4294967296) :
    (htoaChars n).length = Nat.log 16 n + 3 := by
  have hprefix : (literal "0x").length = 2 := rfl
  rw [htoaChars_eq h, hexText, List.length_append, List.length_map, length_numeral (by decide),
    hprefix]
  omega

/-! ## The messages -/

/-- What `call` writes at any place, with its NUL, takes no more than `room` bytes, and no other
byte changes. -/
def FitsIn (room : Nat) (call : Mem → Nat → Except FormatFault (Nat × Mem)) : Prop :=
  ∀ m str, ∃ out m', call m str = .ok (out.length, m') ∧ Printed m m' str out ∧
    out.length + 1 ≤ room

theorem fitsIn_iff {fmt : CString} {args : List (Arg Empty)} {out : List UInt8} {room : Nat}
    (h : Means noDouble fmt.chars args out) (hlen : out.length < 4294967296) :
    FitsIn room (fun m str => sprintf m str fmt args) ↔ out.length + 1 ≤ room := by
  have hrun : ∀ m str, ∃ m', sprintf m str fmt args = .ok (out.length, m') ∧
      Printed m m' str out := by
    intro m str
    obtain ⟨m', hok, hprinted⟩ := vsprintf_spec m str h
    rw [Nat.mod_eq_of_lt hlen] at hok
    exact ⟨m', hok, hprinted⟩
  constructor
  · intro hfits
    obtain ⟨out', m', hok, -, hroom⟩ := hfits (fun _ => 0) 0
    obtain ⟨m'', hok', -⟩ := hrun (fun _ => 0) 0
    have hsame := hok'.symm.trans hok
    rw [Except.ok.injEq, Prod.mk.injEq] at hsame
    rw [hsame.1]
    exact hroom
  · intro hroom m str
    obtain ⟨m', hok, hprinted⟩ := hrun m str
    exact ⟨out, m', hok, hprinted, hroom⟩

/-- The characters that a device puts into its messages. -/
def pciHex (h : UInt16) : List UInt8 := htoaChars (UInt32.ofNat h.toNat).toNat

def pciDec (b : UInt8) : List UInt8 := itoaChars (wordInt (UInt32.ofNat b.toNat))

theorem length_pciHex (h : UInt16) : (pciHex h).length = Nat.log 16 h.toNat + 3 := by
  have hlt := h.toNat_lt
  have hword : (UInt32.ofNat h.toNat).toNat = h.toNat := by
    rw [UInt32.toNat_ofNat']
    omega
  unfold pciHex
  rw [hword, length_htoaChars_eq (by omega)]

theorem length_pciDec (b : UInt8) : (pciDec b).length = Nat.log 10 b.toNat + 1 := by
  have hlt := b.toNat_lt
  have hword : wordInt (UInt32.ofNat b.toNat) = b.toNat := by
    unfold wordInt toInt
    rw [UInt32.toNat_ofNat']
    omega
  unfold pciDec
  rw [hword, length_itoaChars_eq (by omega) (by omega)]
  rfl

/-- The characters of the two messages about a device. -/
theorem pciFoundFormat_means (d : pci_device_t) :
    Means noDouble pciFoundFormat.chars (pciArgs d)
      (literal "pci: Found device Vendor ID: " ++ (pciHex d.vendor_id ++
        (literal ", Device ID: " ++ (pciHex d.device_id ++ (literal " at " ++ (pciDec d.bus ++
          (literal ":" ++ (pciDec d.slot ++ (literal "." ++ (pciDec d.function ++ [])))))))))) := by
  have hpieces : pciFoundFormat.chars =
      literal "pci: Found device Vendor ID: " ++ '%'.toUInt8 :: 'x'.toUInt8 ::
        (literal ", Device ID: " ++ '%'.toUInt8 :: 'x'.toUInt8 ::
          (literal " at " ++ '%'.toUInt8 :: 'd'.toUInt8 ::
            (literal ":" ++ '%'.toUInt8 :: 'd'.toUInt8 ::
              (literal "." ++ '%'.toUInt8 :: 'd'.toUInt8 :: [])))) := by
    decide
  rw [hpieces]
  refine means_piece (by decide) (.hex (Or.inl rfl) _ _) ?_
  refine means_piece (by decide) (.hex (Or.inl rfl) _ _) ?_
  refine means_piece (by decide) (.int _ _) ?_
  refine means_piece (by decide) (.int _ _) ?_
  exact means_piece (by decide) (.int _ _) (.done _)

theorem pciNameFormat_means (d : pci_device_t) :
    Means noDouble pciNameFormat.chars (pciArgs d)
      (literal "PCI: " ++ (pciHex d.vendor_id ++ (literal "/" ++ (pciHex d.device_id ++
        (literal " (" ++ (pciDec d.bus ++ (literal ":" ++ (pciDec d.slot ++ (literal "." ++
          (pciDec d.function ++ literal ")")))))))))) := by
  have hpieces : pciNameFormat.chars =
      literal "PCI: " ++ '%'.toUInt8 :: 'x'.toUInt8 :: (literal "/" ++ '%'.toUInt8 ::
        'x'.toUInt8 :: (literal " (" ++ '%'.toUInt8 :: 'd'.toUInt8 :: (literal ":" ++
          '%'.toUInt8 :: 'd'.toUInt8 :: (literal "." ++ '%'.toUInt8 :: 'd'.toUInt8 ::
            literal ")")))) := by
    decide
  rw [hpieces]
  refine means_piece (by decide) (.hex (Or.inl rfl) _ _) ?_
  refine means_piece (by decide) (.hex (Or.inl rfl) _ _) ?_
  refine means_piece (by decide) (.int _ _) ?_
  refine means_piece (by decide) (.int _ _) ?_
  exact means_piece (by decide) (.int _ _) (means_text (by decide) _)

theorem pmmFormat_means (num_frames megabytes : UInt32) :
    Means noDouble pmmFormat.chars [.word num_frames, .word megabytes]
      (literal "memory: PMM initialized with " ++ (itoaChars (wordInt num_frames) ++
        (literal " (" ++ (itoaChars (wordInt megabytes) ++ literal " MB) memory frames")))) := by
  have hpieces : pmmFormat.chars =
      literal "memory: PMM initialized with " ++ '%'.toUInt8 :: 'd'.toUInt8 :: (literal " (" ++
        '%'.toUInt8 :: 'd'.toUInt8 :: literal " MB) memory frames") := by
    decide
  rw [hpieces]
  refine means_piece (by decide) (.int _ _) ?_
  exact means_piece (by decide) (.int _ _) (means_text (by decide) _)

theorem ataFormat_means (device_idx megabytes : UInt32) :
    Means noDouble ataFormat.chars [.word device_idx, .word megabytes]
      (literal "ata: Found device at " ++ (itoaChars (wordInt device_idx) ++
        (literal " (" ++ (itoaChars (wordInt megabytes) ++ literal " MB)")))) := by
  have hpieces : ataFormat.chars =
      literal "ata: Found device at " ++ '%'.toUInt8 :: 'd'.toUInt8 :: (literal " (" ++
        '%'.toUInt8 :: 'd'.toUInt8 :: literal " MB)") := by
    decide
  rw [hpieces]
  refine means_piece (by decide) (.int _ _) ?_
  exact means_piece (by decide) (.int _ _) (means_text (by decide) _)

/-! ## The lengths of the messages -/

theorem log_half_le (h : UInt16) : Nat.log 16 h.toNat ≤ 3 :=
  Nat.lt_succ_iff.mp (Nat.log_lt_of_lt_pow' (by decide) h.toNat_lt)

theorem log_byte_le (b : UInt8) : Nat.log 10 b.toNat ≤ 2 :=
  Nat.lt_succ_iff.mp (Nat.log_lt_of_lt_pow' (by decide) (Nat.lt_trans b.toNat_lt (by decide)))

section

variable {d : pci_device_t}

/-- `pci_init` writes 48 characters of text and 9 at least for the numerals. -/
theorem pci_init_message_fits (hfunction : Nat.log 10 d.function.toNat = 0) :
    FitsIn 64 (fun m str => pci_init_message m str d) ↔
      Nat.log 16 d.vendor_id.toNat + Nat.log 16 d.device_id.toNat + Nat.log 10 d.bus.toNat +
        Nat.log 10 d.slot.toNat ≤ 6 := by
  have hvendor : (literal "pci: Found device Vendor ID: ").length = 29 := by decide
  have hdevice : (literal ", Device ID: ").length = 13 := by decide
  have hat : (literal " at ").length = 4 := by decide
  have hcolon : (literal ":").length = 1 := by decide
  have hdot : (literal ".").length = 1 := by decide
  have hv := log_half_le d.vendor_id
  have hd := log_half_le d.device_id
  have hb := log_byte_le d.bus
  have hs := log_byte_le d.slot
  refine (fitsIn_iff (pciFoundFormat_means d) ?_).trans ?_
  all_goals
    simp only [List.length_append, List.length_nil, length_pciHex, length_pciDec, hvendor,
      hdevice, hat, hcolon, hdot, hfunction]
    omega

/-- The name of a device takes 30 bytes at most. -/
theorem pci_get_device_name_fits (hslot : Nat.log 10 d.slot.toNat ≤ 1)
    (hfunction : Nat.log 10 d.function.toNat = 0) :
    FitsIn 32 (fun m str => pci_get_device_name m str d) := by
  have hpci : (literal "PCI: ").length = 5 := by decide
  have hslash : (literal "/").length = 1 := by decide
  have hopen : (literal " (").length = 2 := by decide
  have hcolon : (literal ":").length = 1 := by decide
  have hdot : (literal ".").length = 1 := by decide
  have hclose : (literal ")").length = 1 := by decide
  have hv := log_half_le d.vendor_id
  have hd := log_half_le d.device_id
  have hb := log_byte_le d.bus
  refine (fitsIn_iff (pciNameFormat_means d) ?_).mpr ?_
  all_goals
    simp only [List.length_append, length_pciHex, length_pciDec, hpci, hslash, hopen, hcolon,
      hdot, hclose, hfunction]
    omega

end

/-- Two numerals of 11 characters at most. -/
theorem pmm_init_message_fits (num_frames memory_size : UInt32) :
    FitsIn 96 (fun m str => pmm_init_message m str num_frames memory_size) := by
  have hpmm : (literal "memory: PMM initialized with ").length = 29 := by decide
  have hopen : (literal " (").length = 2 := by decide
  have hclose : (literal " MB) memory frames").length = 18 := by decide
  have hframes := length_itoaChars (wordInt num_frames)
  have hsize := length_itoaChars (wordInt (memory_size / 1024 / 1024))
  refine (fitsIn_iff (pmmFormat_means num_frames (memory_size / 1024 / 1024)) ?_).mpr ?_
  all_goals
    simp only [List.length_append, hpmm, hopen, hclose]
    omega

/-- A size is less than 4096 megabytes. -/
theorem ata_init_device_message_fits (device_idx total_size : UInt32) :
    FitsIn 48 (fun m str => ata_init_device_message m str device_idx total_size) := by
  have hata : (literal "ata: Found device at ").length = 21 := by decide
  have hopen : (literal " (").length = 2 := by decide
  have hclose : (literal " MB)").length = 4 := by decide
  have hindex := length_itoaChars (wordInt device_idx)
  have hsize : (itoaChars (wordInt (total_size / 1024 / 1024))).length ≤ 4 := by
    have hword : (total_size / 1024 / 1024).toNat < 4096 := by
      have hlt := total_size.toNat_lt
      have hkilo : (1024 : UInt32).toNat = 1024 := rfl
      rw [UInt32.toNat_div, UInt32.toNat_div, hkilo]
      omega
    have hint : wordInt (total_size / 1024 / 1024) = (total_size / 1024 / 1024).toNat := by
      unfold wordInt toInt
      rw [if_pos (by omega)]
    rw [hint, length_itoaChars_eq (by omega) (by omega)]
    exact Nat.log_lt_of_lt_pow' (by decide) (Nat.lt_trans hword (by decide))
  refine (fitsIn_iff (ataFormat_means device_idx (total_size / 1024 / 1024)) ?_).mpr ?_
  all_goals
    simp only [List.length_append, hata, hopen, hclose]
    omega

/-- The messages and the name fit their buffers exactly when the hexadecimal digits of the two
ids and the decimal digits of bus and slot are no more than ten. -/
theorem the_messages_fit_when_the_numerals_are_short {d : pci_device_t} (hslot : d.slot < 32)
    (hfunction : d.function < 8) (num_frames memory_size device_idx total_size : UInt32) :
    (FitsIn 64 (fun m str => pci_init_message m str d) ∧
      FitsIn 32 (fun m str => pci_get_device_name m str d) ∧
      FitsIn 96 (fun m str => pmm_init_message m str num_frames memory_size) ∧
      FitsIn 48 (fun m str => ata_init_device_message m str device_idx total_size)) ↔
    (numeral 16 d.vendor_id.toNat).length + (numeral 16 d.device_id.toNat).length +
      (numeral 10 d.bus.toNat).length + (numeral 10 d.slot.toNat).length ≤ 10 := by
  have hslot' : Nat.log 10 d.slot.toNat ≤ 1 := Nat.lt_succ_iff.mp
    (Nat.log_lt_of_lt_pow' (by decide) (Nat.lt_trans (UInt8.lt_iff_toNat_lt.mp hslot) (by decide)))
  have hfunction' : Nat.log 10 d.function.toNat = 0 :=
    Nat.log_of_lt (Nat.lt_trans (UInt8.lt_iff_toNat_lt.mp hfunction) (by decide))
  have hmessage := pci_init_message_fits hfunction'
  rw [length_numeral (by decide), length_numeral (by decide), length_numeral (by decide),
    length_numeral (by decide)]
  constructor
  · rintro ⟨hfits, -, -, -⟩
    have hshort := hmessage.mp hfits
    omega
  · intro hshort
    exact ⟨hmessage.mpr (by omega), pci_get_device_name_fits hslot' hfunction',
      pmm_init_message_fits num_frames memory_size,
      ata_init_device_message_fits device_idx total_size⟩

theorem the_messages_about_a_host_bridge_fit :
    FitsIn 64 (fun m str => pci_init_message m str ⟨0, 0, 0, 0x8086, 0x1237⟩) ∧
      FitsIn 32 (fun m str => pci_get_device_name m str ⟨0, 0, 0, 0x8086, 0x1237⟩) ∧
      FitsIn 96 (fun m str => pmm_init_message m str 32480 0x08000000) ∧
      FitsIn 48 (fun m str => ata_init_device_message m str 0 0x00A00000) := by
  refine (the_messages_fit_when_the_numerals_are_short (by decide) (by decide) 32480 0x08000000 0
    0x00A00000).mpr ?_
  decide

/-- The message about a device with two ids of four digits in slot 31 has 64 characters. -/
theorem the_message_about_slot_31_does_not_fit :
    ¬ FitsIn 64 (fun m str => pci_init_message m str ⟨0, 31, 0, 0x8086, 0x2918⟩) := by
  rw [pci_init_message_fits (by decide)]
  decide

end sakana_os
