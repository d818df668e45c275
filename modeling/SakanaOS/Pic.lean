-- The cascaded 8259 interrupt controllers, as `pic.c` programs them, and the second
-- stage of the interrupt handler. Each chip is the state that port writes change.
import Mathlib.Data.Fin.Basic
import SakanaOS.Runs

namespace sakana_os

/-! ## The registers -/

abbrev PIC_8259_MASTER_COMMAND_REGISTER : Nat := 0x20
abbrev PIC_8259_MASTER_DATA_REGISTER : Nat := 0x21
abbrev PIC_8259_SLAVE_COMMAND_REGISTER : Nat := 0xA0
abbrev PIC_8259_SLAVE_DATA_REGISTER : Nat := 0xA1

abbrev PIC_8259_EOI : UInt8 := 0x20
abbrev PIC_8259_ICW1_ICW4 : UInt8 := 0x01
abbrev PIC_8259_ICW1_SINGLE : UInt8 := 0x02
abbrev PIC_8259_ICW1_INIT : UInt8 := 0x10
abbrev PIC_8259_ICW4_8086 : UInt8 := 0x01
abbrev PIC_8259_ICW4_AUTO : UInt8 := 0x02

/-- What the next byte on the data port of a chip is taken for. -/
inductive DataWord
  | icw2
  | icw3
  | icw4
  | mask
deriving DecidableEq

/-- One chip: its in-service bits, line 0 with the highest priority, its mask, and
its initialisation words. -/
structure Chip where
  isr : Fin 8 → Bool
  imr : UInt8
  icw1 : UInt8
  icw2 : UInt8
  icw3 : UInt8
  icw4 : UInt8
  next : DataWord

structure Pics where
  master : Chip
  slave : Chip

/-- The end of the interrupt in service with the highest priority: a bit stays
only when a line of higher priority is in service as well. -/
def endOfInterrupt (isr : Fin 8 → Bool) : Fin 8 → Bool :=
  fun i => isr i && decide (∃ j, j < i ∧ isr j = true)

/-- A write to the command port: the first initialisation word, or a command. -/
def Chip.command (c : Chip) (data : UInt8) : Chip :=
  if data &&& PIC_8259_ICW1_INIT ≠ 0 then { c with imr := 0, icw1 := data, next := .icw2 }
  else if data = PIC_8259_EOI then { c with isr := endOfInterrupt c.isr }
  else c

/-- The word that follows the second initialisation word, and the one that follows
the third, as the first one announced them. -/
def Chip.after_icw3 (c : Chip) : DataWord :=
  if c.icw1 &&& PIC_8259_ICW1_ICW4 ≠ 0 then .icw4 else .mask

def Chip.after_icw2 (c : Chip) : DataWord :=
  if c.icw1 &&& PIC_8259_ICW1_SINGLE ≠ 0 then c.after_icw3 else .icw3

/-- A write to the data port: an initialisation word that is due, or the mask. -/
def Chip.data (c : Chip) (data : UInt8) : Chip :=
  match c.next with
  | .icw2 => { c with icw2 := data, next := c.after_icw2 }
  | .icw3 => { c with icw3 := data, next := c.after_icw3 }
  | .icw4 => { c with icw4 := data, next := .mask }
  | .mask => { c with imr := data }

def port_byte_out (p : Pics) (port : Nat) (data : UInt8) : Pics :=
  if port = PIC_8259_MASTER_COMMAND_REGISTER then { p with master := p.master.command data }
  else if port = PIC_8259_MASTER_DATA_REGISTER then { p with master := p.master.data data }
  else if port = PIC_8259_SLAVE_COMMAND_REGISTER then { p with slave := p.slave.command data }
  else if port = PIC_8259_SLAVE_DATA_REGISTER then { p with slave := p.slave.data data }
  else p

/-- A read of a data port gives the mask. -/
def port_byte_in (p : Pics) (port : Nat) : UInt8 :=
  if port = PIC_8259_MASTER_DATA_REGISTER then p.master.imr
  else if port = PIC_8259_SLAVE_DATA_REGISTER then p.slave.imr
  else 0

/-! ## The driver -/

def pic_8259_send_eoi (p : Pics) (irq : UInt8) : Pics :=
  if irq ≥ 8 then
    port_byte_out p PIC_8259_SLAVE_COMMAND_REGISTER PIC_8259_EOI
  else
    port_byte_out p PIC_8259_MASTER_COMMAND_REGISTER PIC_8259_EOI

def pic_8259_unmask_irq (p : Pics) (irq : UInt8) : Pics :=
  let port := if irq < 8 then PIC_8259_MASTER_DATA_REGISTER else PIC_8259_SLAVE_DATA_REGISTER
  let irq := if irq < 8 then irq else irq - 8
  let value := port_byte_in p port &&& ~~~(1 <<< irq)
  port_byte_out p port value

def pic_8259_init (p : Pics) : Pics :=
  let mask1 := port_byte_in p PIC_8259_MASTER_DATA_REGISTER
  let mask2 := port_byte_in p PIC_8259_SLAVE_DATA_REGISTER
  let p := port_byte_out p PIC_8259_MASTER_COMMAND_REGISTER
    (PIC_8259_ICW1_INIT ||| PIC_8259_ICW1_ICW4)
  let p := port_byte_out p PIC_8259_SLAVE_COMMAND_REGISTER
    (PIC_8259_ICW1_INIT ||| PIC_8259_ICW1_ICW4)
  let p := port_byte_out p PIC_8259_MASTER_DATA_REGISTER 0x20
  let p := port_byte_out p PIC_8259_SLAVE_DATA_REGISTER 0x28
  let p := port_byte_out p PIC_8259_MASTER_DATA_REGISTER 0x04
  let p := port_byte_out p PIC_8259_SLAVE_DATA_REGISTER 0x02
  let p := port_byte_out p PIC_8259_MASTER_DATA_REGISTER PIC_8259_ICW4_8086
  let p := port_byte_out p PIC_8259_SLAVE_DATA_REGISTER PIC_8259_ICW4_8086
  let p := port_byte_out p PIC_8259_MASTER_DATA_REGISTER mask1
  let p := port_byte_out p PIC_8259_SLAVE_DATA_REGISTER mask2
  (List.range 16).foldl (fun p i => pic_8259_unmask_irq p (UInt8.ofNat i)) p

/-! ## The interrupt handler -/

/-- What the handlers read of the saved processor state. -/
structure isr_cpu_state where
  interrupt_code : Nat

variable {W : Type}

/-- The listener works on the rest of the machine; the controllers are reached
through the end of interrupt alone. -/
def isr_stage2 (listeners : Nat → Option (isr_cpu_state → W → W)) (state : isr_cpu_state)
    (s : W × Pics) : W × Pics :=
  let interrupt_code := state.interrupt_code
  let w := match listeners interrupt_code with
    | some listener => listener state s.1
    | none => s.1
  if 32 ≤ interrupt_code ∧ interrupt_code < 48 then
    let pic_8259_code := interrupt_code - 32
    if pic_8259_code < 16 then
      (w, pic_8259_send_eoi s.2 (UInt8.ofNat pic_8259_code))
    else (w, s.2)
  else (w, s.2)

/-! ## The delivery of an interrupt -/

/-- The line is not masked, and no line of equal or higher priority is in service. -/
def Chip.grants (c : Chip) (line : Fin 8) : Bool :=
  c.imr &&& (1 <<< UInt8.ofNat line) = 0 ∧ ∀ j, j ≤ line → c.isr j = false

/-- The in-service bit is set, unless the chip was told to end interrupts itself. -/
def Chip.acknowledge (c : Chip) (line : Fin 8) : Chip :=
  if c.icw4 &&& PIC_8259_ICW4_AUTO ≠ 0 then c
  else { c with isr := Function.update c.isr line true }

def Chip.vector (c : Chip) (line : Fin 8) : Nat := (c.icw2 &&& 0xF8).toNat + line

/-- The master's line to which the slave is wired. -/
abbrev CASCADE : Fin 8 := 2

/-- The controllers once they have delivered the interrupt, and its code. `none`
when they hold it back. -/
def deliver (p : Pics) (irq : Fin 16) : Option (Pics × Nat) :=
  let line := Fin.ofNat 8 irq
  if irq < 8 then
    if p.master.grants line then
      some ({ p with master := p.master.acknowledge line }, p.master.vector line)
    else none
  else if p.master.grants CASCADE && p.slave.grants line then
    some (⟨p.master.acknowledge CASCADE, p.slave.acknowledge line⟩, p.slave.vector line)
  else none

/-- One hardware interrupt: its delivery, then the whole handler. -/
def handle_irq (listeners : Nat → Option (isr_cpu_state → W → W)) (s : W × Pics)
    (irq : Fin 16) : Option (W × Pics) :=
  (deliver s.2 irq).map fun d => isr_stage2 listeners ⟨d.2⟩ (s.1, d.1)

/-! ## The controllers after the initialisation -/

def Chip.Clear (c : Chip) : Prop := ∀ i, c.isr i = false

/-- No line is in service on either chip. -/
def Pics.Clear (p : Pics) : Prop := p.master.Clear ∧ p.slave.Clear

/-- The interrupts of the chip have the codes from `base` on, and they last until
the handler ends them. -/
structure Chip.Programmed (c : Chip) (base : Nat) : Prop where
  imr : c.imr = 0
  icw2 : (c.icw2 &&& 0xF8).toNat = base
  icw4 : c.icw4 = PIC_8259_ICW4_8086

structure Pics.Programmed (p : Pics) : Prop where
  master : p.master.Programmed 32
  slave : p.slave.Programmed 40

@[simp] theorem out_master_command (p : Pics) (data : UInt8) :
    port_byte_out p PIC_8259_MASTER_COMMAND_REGISTER data =
      { p with master := p.master.command data } := rfl

@[simp] theorem out_master_data (p : Pics) (data : UInt8) :
    port_byte_out p PIC_8259_MASTER_DATA_REGISTER data =
      { p with master := p.master.data data } := rfl

@[simp] theorem out_slave_command (p : Pics) (data : UInt8) :
    port_byte_out p PIC_8259_SLAVE_COMMAND_REGISTER data =
      { p with slave := p.slave.command data } := rfl

@[simp] theorem out_slave_data (p : Pics) (data : UInt8) :
    port_byte_out p PIC_8259_SLAVE_DATA_REGISTER data =
      { p with slave := p.slave.data data } := rfl

/-- The four initialisation words, and the mask after them. -/
theorem chip_init (c : Chip) (w2 w3 mask : UInt8) :
    ((((c.command (PIC_8259_ICW1_INIT ||| PIC_8259_ICW1_ICW4)).data w2).data w3).data
      PIC_8259_ICW4_8086).data mask = ⟨c.isr, mask, 0x11, w2, w3, 0x01, .mask⟩ := by
  have hinit : (PIC_8259_ICW1_INIT ||| PIC_8259_ICW1_ICW4) &&& PIC_8259_ICW1_INIT ≠ 0 := by decide
  have hpair : ¬ (PIC_8259_ICW1_INIT ||| PIC_8259_ICW1_ICW4) &&& PIC_8259_ICW1_SINGLE ≠ 0 := by
    decide
  have hicw4 : (PIC_8259_ICW1_INIT ||| PIC_8259_ICW1_ICW4) &&& PIC_8259_ICW1_ICW4 ≠ 0 := by decide
  rw [Chip.command, if_pos hinit]
  simp only [Chip.data, Chip.after_icw2, Chip.after_icw3, if_pos hicw4, if_neg hpair]
  rfl

theorem unmask_irq_master (p : Pics) {irq : UInt8} (hirq : irq < 8)
    (h : p.master.next = .mask) : pic_8259_unmask_irq p irq =
      { p with master := { p.master with imr := p.master.imr &&& ~~~(1 <<< irq) } } := by
  simp only [pic_8259_unmask_irq, hirq, if_true, port_byte_in, port_byte_out, Chip.data, h]
  rfl

theorem unmask_irq_slave (p : Pics) {irq : UInt8} (hirq : ¬ irq < 8)
    (h : p.slave.next = .mask) : pic_8259_unmask_irq p irq =
      { p with slave := { p.slave with imr := p.slave.imr &&& ~~~(1 <<< (irq - 8)) } } := by
  simp only [pic_8259_unmask_irq, hirq, if_false, port_byte_in, port_byte_out, Chip.data, h]
  rfl

/-- The loop over the lines takes the masks of both chips away. -/
theorem unmask_all (p : Pics) (h1 : p.master.next = .mask) (h2 : p.slave.next = .mask) :
    (List.range 16).foldl (fun p i => pic_8259_unmask_irq p (UInt8.ofNat i)) p =
      ⟨{ p.master with imr := 0 }, { p.slave with imr := 0 }⟩ := by
  have hall : ∀ m : UInt8, (List.range 8).foldl
      (fun m i => m &&& ~~~((1 : UInt8) <<< UInt8.ofNat i)) m = 0 := by
    intro m
    simp only [List.range_succ, List.range_zero, List.nil_append, List.cons_append,
      List.foldl_cons, List.foldl_nil, UInt8.and_assoc]
    exact UInt8.and_zero
  obtain ⟨m, s⟩ := p
  simp only at h1 h2
  have hlow : (List.range 8).foldl (fun p i => pic_8259_unmask_irq p (UInt8.ofNat i)) ⟨m, s⟩ =
      ⟨{ m with imr := 0 }, s⟩ := by
    rw [← hall m.imr]
    simp [List.range_succ, unmask_irq_master, h1]
  have hhigh : ((List.range 8).map (8 + ·)).foldl
      (fun p i => pic_8259_unmask_irq p (UInt8.ofNat i)) ⟨{ m with imr := 0 }, s⟩ =
      ⟨{ m with imr := 0 }, { s with imr := 0 }⟩ := by
    rw [← hall s.imr]
    simp [List.range_succ, unmask_irq_slave, h2]
  rw [show 16 = 8 + 8 from rfl, List.range_add, List.foldl_append, hlow, hhigh]

/-- The masks are gone, the codes are remapped, and no in-service bit has changed. -/
theorem pic_8259_init_eq (p : Pics) : pic_8259_init p =
    ⟨⟨p.master.isr, 0, 0x11, 0x20, 0x04, 0x01, .mask⟩,
      ⟨p.slave.isr, 0, 0x11, 0x28, 0x02, 0x01, .mask⟩⟩ := by
  simp only [pic_8259_init, out_master_command, out_master_data, out_slave_command,
    out_slave_data, chip_init]
  apply unmask_all
  · rfl
  · rfl

theorem pic_8259_init_programmed (p : Pics) : (pic_8259_init p).Programmed := by
  have hmaster : ((0x20 : UInt8) &&& 0xF8).toNat = 32 := by decide
  have hslave : ((0x28 : UInt8) &&& 0xF8).toNat = 40 := by decide
  rw [pic_8259_init_eq]
  exact ⟨⟨rfl, hmaster, rfl⟩, ⟨rfl, hslave, rfl⟩⟩

theorem pic_8259_init_clear {p : Pics} (h : p.Clear) : (pic_8259_init p).Clear := by
  rw [pic_8259_init_eq]
  exact h

/-! ## One interrupt -/

theorem endOfInterrupt_only {isr : Fin 8 → Bool} (line : Fin 8) (h : ∀ i, isr i = false) :
    endOfInterrupt (Function.update isr line true) = fun _ => false := by
  funext i
  rw [endOfInterrupt, Bool.and_eq_false_iff]
  by_cases hi : i = line
  · right
    simp only [decide_eq_false_iff_not]
    rintro ⟨j, hj, hset⟩
    rw [Function.update_of_ne (by rw [← hi]; exact Fin.ne_of_lt hj), h j] at hset
    cases hset
  · left
    rw [Function.update_of_ne hi]
    exact h i

theorem acknowledge_eq {c : Chip} {base : Nat} (h : c.Programmed base) (line : Fin 8) :
    c.acknowledge line = { c with isr := Function.update c.isr line true } := by
  have hauto : ¬ c.icw4 &&& PIC_8259_ICW4_AUTO ≠ 0 := by
    rw [h.icw4]
    decide
  rw [Chip.acknowledge, if_neg hauto]

theorem command_eoi (c : Chip) :
    c.command PIC_8259_EOI = { c with isr := endOfInterrupt c.isr } := by
  have hinit : ¬ PIC_8259_EOI &&& PIC_8259_ICW1_INIT ≠ 0 := by decide
  rw [Chip.command, if_neg hinit, if_pos rfl]

theorem send_eoi_eq (p : Pics) (irq : Fin 16) :
    pic_8259_send_eoi p (UInt8.ofNat irq) =
      if irq < 8 then
        { p with master := { p.master with isr := endOfInterrupt p.master.isr } }
      else { p with slave := { p.slave with isr := endOfInterrupt p.slave.isr } } := by
  have hge : UInt8.ofNat irq ≥ 8 ↔ ¬ irq < 8 := by
    revert irq
    decide
  rw [pic_8259_send_eoi]
  simp only [hge, out_slave_command, out_master_command, command_eoi]
  by_cases h : irq < 8
  · simp only [h, not_true, if_false, if_true]
  · simp only [h, not_false_iff, if_true, if_false]

/-- What a handled interrupt does to the controllers: the bits that its delivery
set, less those that its end cleared. -/
theorem handle_irq_cases {listeners : Nat → Option (isr_cpu_state → W → W)} {s t : W × Pics}
    {irq : Fin 16} (hp : s.2.Programmed) (h : handle_irq listeners s irq = some t) :
    t.2.Programmed ∧
    ((irq < 8 ∧ s.2.master.grants (Fin.ofNat 8 irq) ∧
        t.2.master.isr = endOfInterrupt (Function.update s.2.master.isr (Fin.ofNat 8 irq) true) ∧
        t.2.slave = s.2.slave) ∨
      (8 ≤ irq ∧ s.2.master.grants CASCADE ∧ s.2.slave.grants (Fin.ofNat 8 irq) ∧
        t.2.master.isr = Function.update s.2.master.isr CASCADE true ∧
        t.2.slave.isr =
          endOfInterrupt (Function.update s.2.slave.isr (Fin.ofNat 8 irq) true))) := by
  obtain ⟨⟨q, code⟩, hd, rfl⟩ := Option.map_eq_some_iff.mp h
  have hstage : code = 32 + irq → (isr_stage2 listeners ⟨code⟩ (s.1, q)).2 =
      pic_8259_send_eoi q (UInt8.ofNat irq) := by
    intro hcode
    have hirq := irq.isLt
    subst hcode
    simp only [isr_stage2]
    rw [if_pos (by omega), if_pos (by omega), Nat.add_sub_cancel_left]
  unfold deliver at hd
  by_cases hlow : irq < 8
  · rw [if_pos hlow, Option.ite_none_right_eq_some] at hd
    obtain ⟨hgrant, hd⟩ := hd
    cases hd
    have hcode : s.2.master.vector (Fin.ofNat 8 irq) = 32 + irq := by
      rw [Chip.vector, hp.master.icw2, Fin.val_ofNat]
      have hlt : irq.val < 8 := hlow
      omega
    rw [hstage hcode, send_eoi_eq, if_pos hlow, acknowledge_eq hp.master]
    refine ⟨⟨⟨hp.master.imr, hp.master.icw2, hp.master.icw4⟩, hp.slave⟩, Or.inl ?_⟩
    exact ⟨hlow, hgrant, rfl, rfl⟩
  · rw [if_neg hlow, Option.ite_none_right_eq_some, Bool.and_eq_true] at hd
    obtain ⟨⟨hcascade, hgrant⟩, hd⟩ := hd
    cases hd
    have hcode : s.2.slave.vector (Fin.ofNat 8 irq) = 32 + irq := by
      rw [Chip.vector, hp.slave.icw2, Fin.val_ofNat]
      have hge : ¬ irq.val < 8 := hlow
      have hlt := irq.isLt
      omega
    rw [hstage hcode, send_eoi_eq, if_neg hlow, acknowledge_eq hp.master, acknowledge_eq hp.slave]
    refine ⟨⟨⟨hp.master.imr, hp.master.icw2, hp.master.icw4⟩,
      ⟨hp.slave.imr, hp.slave.icw2, hp.slave.icw4⟩⟩, Or.inr ?_⟩
    exact ⟨Fin.not_lt.mp hlow, hcascade, hgrant, rfl, rfl⟩

/-- An interrupt of the master leaves clear controllers clear. -/
theorem master_irq_clear {listeners : Nat → Option (isr_cpu_state → W → W)} {s t : W × Pics}
    {irq : Fin 16} (hp : s.2.Programmed) (hclear : s.2.Clear) (hirq : irq < 8)
    (h : handle_irq listeners s irq = some t) : t.2.Clear := by
  obtain ⟨-, ⟨-, -, hm, hs⟩ | ⟨hge, -⟩⟩ := handle_irq_cases hp h
  · constructor
    · intro i
      rw [hm, endOfInterrupt_only _ hclear.1]
    · rw [hs]
      exact hclear.2
  · exact absurd hirq (Fin.not_lt.mpr hge)

/-- An interrupt of the slave leaves the cascade line of the master in service: its
end is sent to the slave alone. -/
theorem slave_irq_keeps_cascade {listeners : Nat → Option (isr_cpu_state → W → W)}
    {s t : W × Pics} {irq : Fin 16} (hp : s.2.Programmed) (hirq : ¬ irq < 8)
    (h : handle_irq listeners s irq = some t) : t.2.master.isr CASCADE = true := by
  obtain ⟨-, ⟨hlow, -⟩ | ⟨-, -, -, hm, -⟩⟩ := handle_irq_cases hp h
  · exact absurd hlow hirq
  · rw [hm, Function.update_self]

/-! ## Runs of interrupts -/

/-- The controllers are clear whenever the handler of an interrupt of the list has returned. -/
def ClearAfterEach (listeners : Nat → Option (isr_cpu_state → W → W)) (s : W × Pics)
    (irqs : List (Fin 16)) : Prop :=
  ∀ is js t, irqs = is ++ js → runs.run (handle_irq listeners) s is = some t → t.2.Clear

theorem run_programmed {listeners : Nat → Option (isr_cpu_state → W → W)} {s t : W × Pics}
    {irqs : List (Fin 16)} (hp : s.2.Programmed)
    (hrun : runs.run (handle_irq listeners) s irqs = some t) : t.2.Programmed :=
  runs.run_keeps (motive := fun s => s.2.Programmed)
    (fun _ _ _ hp h => (handle_irq_cases hp h).1) hp hrun

/-- Whatever interrupts are handled after the initialisation, both controllers are
clear after each of them if and only if none of them comes from the slave. -/
theorem interrupts_end_on_both_controllers (listeners : Nat → Option (isr_cpu_state → W → W))
    (w : W) (p : Pics) (irqs : List (Fin 16)) (hclear : p.Clear)
    (hrun : ∃ t, runs.run (handle_irq listeners) (w, pic_8259_init p) irqs = some t) :
    ClearAfterEach listeners (w, pic_8259_init p) irqs ↔ ∀ irq ∈ irqs, irq < 8 := by
  have hp : (pic_8259_init p).Programmed := pic_8259_init_programmed p
  constructor
  · intro hall irq hmem
    obtain ⟨is, js, rfl⟩ := List.append_of_mem hmem
    obtain ⟨t, hrun⟩ := hrun
    obtain ⟨u, h1, h2⟩ := runs.run_append.mp hrun
    obtain ⟨v, h3, -⟩ := runs.run_cons.mp h2
    have hv : v.2.Clear := by
      apply hall (is ++ [irq]) js v
      · rw [List.append_assoc, List.singleton_append]
      · exact runs.run_append.mpr ⟨u, h1, runs.run_cons.mpr ⟨v, h3, rfl⟩⟩
    by_contra hge
    have hset := slave_irq_keeps_cascade (run_programmed hp h1) hge h3
    rw [hv.1 CASCADE] at hset
    cases hset
  · rintro hlow is js t rfl hpre
    have halong : runs.Along (handle_irq listeners) (fun _ irq => irq < 8)
        (w, pic_8259_init p) is :=
      runs.along_of_forall fun irq hirq => hlow irq (List.mem_append_left _ hirq)
    have hkeep := runs.run_keeps_along (motive := fun s : W × Pics => s.2.Programmed ∧ s.2.Clear)
      (fun s irq t hs hirq h => ⟨(handle_irq_cases hs.1 h).1, master_irq_clear hs.1 hs.2 hirq h⟩)
      ⟨hp, pic_8259_init_clear hclear⟩ halong hpre
    exact hkeep.2

/-! ## One run of each kind -/

/-- Both chips before the initialisation, with every line masked. -/
def poweredPics : Pics :=
  ⟨⟨fun _ => false, 0xFF, 0, 0, 0, 0, .mask⟩, ⟨fun _ => false, 0xFF, 0, 0, 0, 0, .mask⟩⟩

def noListeners : Nat → Option (isr_cpu_state → Unit → Unit) := fun _ => none

/-- The timer and the keyboard, one after the other. -/
theorem timer_and_keyboard_end :
    ClearAfterEach noListeners ((), pic_8259_init poweredPics) [0, 1, 0] := by
  have hclear : poweredPics.Clear := ⟨fun _ => rfl, fun _ => rfl⟩
  refine (interrupts_end_on_both_controllers noListeners () poweredPics [0, 1, 0] hclear ?_).mpr ?_
  · refine ⟨_, rfl⟩
  · decide

/-- One interrupt of the disk is enough to leave the cascade line in service. -/
theorem the_cascade_line_stays_in_service :
    ¬ ∀ (p : Pics) (irqs : List (Fin 16)), p.Clear →
      (∃ t, runs.run (handle_irq noListeners) ((), pic_8259_init p) irqs = some t) →
      ClearAfterEach noListeners ((), pic_8259_init p) irqs := by
  intro hall
  have hclear : poweredPics.Clear := ⟨fun _ => rfl, fun _ => rfl⟩
  obtain ⟨t, hrun⟩ :
      ∃ t, runs.run (handle_irq noListeners) ((), pic_8259_init poweredPics) [14] = some t :=
    ⟨_, rfl⟩
  have ht := hall poweredPics [14] hclear ⟨t, hrun⟩ [14] [] t rfl hrun
  obtain ⟨u, h1, h2⟩ := runs.run_cons.mp hrun
  cases h2
  have hset := slave_irq_keeps_cascade (pic_8259_init_programmed poweredPics) (by decide) h1
  rw [ht.1 CASCADE] at hset
  cases hset

end sakana_os
