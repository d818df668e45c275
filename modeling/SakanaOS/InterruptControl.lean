-- Who gets an interrupt: the table of listeners of `isr_stage2.c`, the masks of `pic.c`, and what
-- the controllers deliver. Only the slave is told of the end of its interrupts, so the first of
-- them blocks every line but the two of the highest priority.
import SakanaOS.Pic
import Mathlib.Data.Fintype.Basic
import Mathlib.Order.Fin.Basic

namespace sakana_os

/-! ## The code -/

abbrev ISR_MAX_INTERRUPT_LISTENERS : Nat := 256

/-- `none` is `ISR_NULL_LISTENER`. -/
abbrev Listeners (W : Type) := Nat → Option (isr_cpu_state → W → W)

variable {W : Type}

def isr_register_listener (listeners : Listeners W) (selector : Nat)
    (listener : Option (isr_cpu_state → W → W)) : Int × Listeners W :=
  if ISR_MAX_INTERRUPT_LISTENERS ≤ selector then (-1, listeners)
  else (0, Function.update listeners selector listener)

def isr_unregister_listener (listeners : Listeners W) (selector : Nat) : Int × Listeners W :=
  if ISR_MAX_INTERRUPT_LISTENERS ≤ selector then (-1, listeners)
  else (0, Function.update listeners selector none)

def pic_8259_mask_irq (p : Pics) (irq : UInt8) : Pics :=
  let port := if irq < 8 then PIC_8259_MASTER_DATA_REGISTER else PIC_8259_SLAVE_DATA_REGISTER
  let irq := if irq < 8 then irq else irq - 8
  let value := port_byte_in p port ||| (1 <<< irq)
  port_byte_out p port value

/-! ## The kernel and its calls -/

/-- The listeners, the rest of the machine, and the controllers. -/
structure IrqState (W : Type) where
  listeners : Listeners W
  world : W
  pics : Pics

/-- What the kernel does, and the interrupts that the devices raise in between. -/
inductive IrqCall (W : Type) where
  | register (selector : Nat) (listener : Option (isr_cpu_state → W → W))
  | unregister (selector : Nat)
  | mask (irq : Fin 16)
  | unmask (irq : Fin 16)
  | raise (irq : Fin 16)

/-- An interrupt that the controllers hold back changes nothing. -/
def irq_step (s : IrqState W) : IrqCall W → IrqState W
  | .register selector listener =>
    { s with listeners := (isr_register_listener s.listeners selector listener).2 }
  | .unregister selector =>
    { s with listeners := (isr_unregister_listener s.listeners selector).2 }
  | .mask irq => { s with pics := pic_8259_mask_irq s.pics (UInt8.ofNat irq) }
  | .unmask irq => { s with pics := pic_8259_unmask_irq s.pics (UInt8.ofNat irq) }
  | .raise irq =>
    match handle_irq s.listeners (s.world, s.pics) irq with
    | some t => { s with world := t.1, pics := t.2 }
    | none => s

/-! ## What it comes to -/

/-- The lines of the two chips. -/
def masterLine (i : Fin 8) : Fin 16 := ⟨i, by omega⟩
def slaveLine (i : Fin 8) : Fin 16 := ⟨8 + i, by omega⟩

/-- The lines that are masked, and whether a line of the slave was ever served. -/
structure Lines (W : Type) where
  listeners : Listeners W
  world : W
  masked : Fin 16 → Bool
  blocked : Bool

/-- What the listener of an interrupt makes of the machine. -/
def heard (listeners : Listeners W) (code : Nat) (w : W) : W :=
  match listeners code with
  | some listener => listener ⟨code⟩ w
  | none => w

namespace Lines

/-- The line reaches the processor: its own chip lets it through, the cascade does, and nothing of
its priority or a higher one is still in service. -/
def Open (a : Lines W) (irq : Fin 16) : Prop :=
  a.masked irq = false ∧ (irq.val < CASCADE.val ∨ a.blocked = false) ∧
    (irq.val < 8 ∨ a.masked (masterLine CASCADE) = false)

instance (a : Lines W) (irq : Fin 16) : Decidable (a.Open irq) :=
  inferInstanceAs (Decidable (_ ∧ _))

/-- The listener of the interrupt runs once. -/
def serve (a : Lines W) (irq : Fin 16) : Lines W where
  listeners := a.listeners
  world := heard a.listeners (32 + irq) a.world
  masked := a.masked
  blocked := a.blocked || decide (8 ≤ irq.val)

/-- There are 256 entries in the table. -/
def enter (a : Lines W) (selector : Nat) (listener : Option (isr_cpu_state → W → W)) : Lines W :=
  if selector < 256 then { a with listeners := Function.update a.listeners selector listener }
  else a

def step (a : Lines W) : IrqCall W → Lines W
  | .register selector listener => a.enter selector listener
  | .unregister selector => a.enter selector none
  | .mask irq => { a with masked := Function.update a.masked irq true }
  | .unmask irq => { a with masked := Function.update a.masked irq false }
  | .raise irq => if a.Open irq then a.serve irq else a

end Lines

/-! ## The masks -/

theorem one_shift (i : Fin 8) : ((1 : UInt8) <<< UInt8.ofNat i).toBitVec = BitVec.twoPow 8 i := by
  revert i
  decide

theorem bit_zero_iff (m : UInt8) (i : Fin 8) :
    m &&& (1 <<< UInt8.ofNat i) = 0 ↔ m.toBitVec.getLsbD i = false := by
  have hne : ∀ i : Fin 8, ¬ BitVec.twoPow 8 i = 0#8 := by decide
  rw [← UInt8.toBitVec_inj, UInt8.toBitVec_and, one_shift, BitVec.and_twoPow]
  cases m.toBitVec.getLsbD i with
  | false => simp
  | true => simpa using hne i

theorem bit_set (m : UInt8) (i j : Fin 8) :
    (m ||| (1 <<< UInt8.ofNat i)).toBitVec.getLsbD j =
      Function.update (fun k : Fin 8 => m.toBitVec.getLsbD k) i true j := by
  rw [UInt8.toBitVec_or, BitVec.getLsbD_or, one_shift, BitVec.getLsbD_twoPow]
  by_cases h : j = i
  · subst h
    simp [j.isLt]
  · have hne : ¬ (i : Nat) = j := fun heq => h (Fin.ext heq.symm)
    simp [h, hne]

theorem bit_clear (m : UInt8) (i j : Fin 8) :
    (m &&& ~~~(1 <<< UInt8.ofNat i)).toBitVec.getLsbD j =
      Function.update (fun k : Fin 8 => m.toBitVec.getLsbD k) i false j := by
  rw [UInt8.toBitVec_and, BitVec.getLsbD_and, UInt8.toBitVec_not, BitVec.getLsbD_not, one_shift,
    BitVec.getLsbD_twoPow]
  by_cases h : j = i
  · subst h
    simp [j.isLt]
  · have hne : ¬ (i : Nat) = j := fun heq => h (Fin.ext heq.symm)
    simp [h, hne, j.isLt]

/-- A chip that takes masks, whose interrupts have the codes from `base` on. -/
structure Chip.Ready (c : Chip) (base : Nat) (masked : Fin 8 → Bool) : Prop where
  next : c.next = .mask
  icw2 : (c.icw2 &&& 0xF8).toNat = base
  icw4 : c.icw4 = PIC_8259_ICW4_8086
  imr : ∀ i : Fin 8, c.imr.toBitVec.getLsbD i = masked i

section

variable {c : Chip} {base : Nat} {masked : Fin 8 → Bool}

theorem Chip.Ready.withIsr (h : c.Ready base masked) (isr : Fin 8 → Bool) :
    ({ c with isr := isr } : Chip).Ready base masked :=
  ⟨h.next, h.icw2, h.icw4, h.imr⟩

theorem Chip.Ready.mask (h : c.Ready base masked) (i : Fin 8) :
    ({ c with imr := c.imr ||| (1 <<< UInt8.ofNat i) } : Chip).Ready base
      (Function.update masked i true) := by
  refine ⟨h.next, h.icw2, h.icw4, fun j => ?_⟩
  rw [bit_set, show (fun k : Fin 8 => c.imr.toBitVec.getLsbD k) = masked from funext h.imr]

theorem Chip.Ready.unmask (h : c.Ready base masked) (i : Fin 8) :
    ({ c with imr := c.imr &&& ~~~(1 <<< UInt8.ofNat i) } : Chip).Ready base
      (Function.update masked i false) := by
  refine ⟨h.next, h.icw2, h.icw4, fun j => ?_⟩
  rw [bit_clear, show (fun k : Fin 8 => c.imr.toBitVec.getLsbD k) = masked from funext h.imr]

theorem Chip.Ready.grants (h : c.Ready base masked) (line : Fin 8) :
    c.grants line = true ↔ masked line = false ∧ ∀ j, j ≤ line → c.isr j = false := by
  unfold Chip.grants
  rw [decide_eq_true_eq, bit_zero_iff, h.imr]

theorem Chip.Ready.acknowledge (h : c.Ready base masked) (line : Fin 8) :
    c.acknowledge line = { c with isr := Function.update c.isr line true } := by
  have hauto : ¬ c.icw4 &&& PIC_8259_ICW4_AUTO ≠ 0 := by
    rw [h.icw4]
    decide
  rw [Chip.acknowledge, if_neg hauto]

end

/-- The end of an interrupt that was granted leaves what was in service before it. -/
theorem endOfInterrupt_granted {isr : Fin 8 → Bool} {line : Fin 8}
    (h : ∀ j, j ≤ line → isr j = false) :
    endOfInterrupt (Function.update isr line true) = isr := by
  funext k
  unfold endOfInterrupt
  rcases lt_trichotomy k line with hlt | rfl | hgt
  · rw [Function.update_of_ne (ne_of_lt hlt), h k hlt.le, Bool.false_and]
  · rw [Function.update_self, Bool.true_and, h k le_rfl, decide_eq_false_iff_not]
    rintro ⟨j, hj, hset⟩
    rw [Function.update_of_ne (ne_of_lt hj), h j hj.le] at hset
    cases hset
  · have hfirst : ∃ j, j < k ∧ Function.update isr line true j = true :=
      ⟨line, hgt, Function.update_self line true isr⟩
    rw [Function.update_of_ne (ne_of_gt hgt), decide_eq_true hfirst, Bool.and_true]

/-! ## The controllers follow -/

theorem line_cases (irq : Fin 16) : (∃ i, irq = masterLine i) ∨ ∃ i, irq = slaveLine i := by
  by_cases h : irq.val < 8
  · exact Or.inl ⟨⟨irq, h⟩, rfl⟩
  · refine Or.inr ⟨⟨irq - 8, by omega⟩, Fin.ext ?_⟩
    show irq.val = 8 + (irq.val - 8)
    omega

/-- The controllers are as the lines say: the cascade stays in service once it was. -/
structure Controls (s : IrqState W) (a : Lines W) : Prop where
  listeners : s.listeners = a.listeners
  world : s.world = a.world
  master : s.pics.master.Ready 32 fun i => a.masked (masterLine i)
  slave : s.pics.slave.Ready 40 fun i => a.masked (slaveLine i)
  master_isr : ∀ i, s.pics.master.isr i = (decide (i = CASCADE) && a.blocked)
  slave_isr : ∀ i, s.pics.slave.isr i = false

theorem masterLine_injective : Function.Injective masterLine := by decide

theorem slaveLine_injective : Function.Injective slaveLine := by decide

theorem masterLine_ne_slaveLine : ∀ i j, masterLine i ≠ slaveLine j := by decide

/-- A mask is set or cleared on the chip that has the line. -/
theorem update_line (f : Fin 16 → Bool) (b : Bool) (i : Fin 8) :
    (fun k => Function.update f (masterLine i) b (masterLine k)) =
        Function.update (fun k => f (masterLine k)) i b ∧
      (fun k => Function.update f (masterLine i) b (slaveLine k)) = (fun k => f (slaveLine k)) ∧
      (fun k => Function.update f (slaveLine i) b (slaveLine k)) =
        Function.update (fun k => f (slaveLine k)) i b ∧
      (fun k => Function.update f (slaveLine i) b (masterLine k)) = fun k => f (masterLine k) := by
  refine ⟨Function.update_comp_eq_of_injective f masterLine_injective i b, ?_,
    Function.update_comp_eq_of_injective f slaveLine_injective i b, ?_⟩
  · exact Function.update_comp_eq_of_forall_ne f b fun k => (masterLine_ne_slaveLine i k).symm
  · exact Function.update_comp_eq_of_forall_ne f b fun k => masterLine_ne_slaveLine k i

theorem line_byte (i : Fin 8) :
    (UInt8.ofNat (masterLine i) < 8 ∧ UInt8.ofNat (masterLine i) = UInt8.ofNat i) ∧
      ¬ UInt8.ofNat (slaveLine i) < 8 ∧ UInt8.ofNat (slaveLine i) - 8 = UInt8.ofNat i := by
  revert i
  decide

theorem mask_master_line {p : Pics} (h : p.master.next = .mask) (i : Fin 8) :
    pic_8259_mask_irq p (UInt8.ofNat (masterLine i)) =
      { p with master := { p.master with imr := p.master.imr ||| (1 <<< UInt8.ofNat i) } } := by
  obtain ⟨⟨hlow, hbyte⟩, -⟩ := line_byte i
  unfold pic_8259_mask_irq
  simp only [if_pos hlow]
  rw [hbyte, out_master_data, Chip.data, h]
  rfl

theorem mask_slave_line {p : Pics} (h : p.slave.next = .mask) (i : Fin 8) :
    pic_8259_mask_irq p (UInt8.ofNat (slaveLine i)) =
      { p with slave := { p.slave with imr := p.slave.imr ||| (1 <<< UInt8.ofNat i) } } := by
  obtain ⟨-, hhigh, hbyte⟩ := line_byte i
  unfold pic_8259_mask_irq
  simp only [if_neg hhigh]
  rw [hbyte, out_slave_data, Chip.data, h]
  rfl

section

variable {s : IrqState W} {a : Lines W}

theorem Controls.mask (h : Controls s a) (irq : Fin 16) :
    Controls (irq_step s (.mask irq)) (a.step (.mask irq)) := by
  unfold irq_step Lines.step
  dsimp only
  rcases line_cases irq with ⟨i, rfl⟩ | ⟨i, rfl⟩
  · obtain ⟨hmaster, hslave, -⟩ := update_line a.masked true i
    rw [mask_master_line h.master.next]
    refine ⟨h.listeners, h.world, ?_, ?_, h.master_isr, h.slave_isr⟩
    · rw [hmaster]
      exact h.master.mask i
    · rw [hslave]
      exact h.slave
  · obtain ⟨-, -, hslave, hmaster⟩ := update_line a.masked true i
    rw [mask_slave_line h.slave.next]
    refine ⟨h.listeners, h.world, ?_, ?_, h.master_isr, h.slave_isr⟩
    · rw [hmaster]
      exact h.master
    · rw [hslave]
      exact h.slave.mask i

theorem Controls.unmask (h : Controls s a) (irq : Fin 16) :
    Controls (irq_step s (.unmask irq)) (a.step (.unmask irq)) := by
  unfold irq_step Lines.step
  dsimp only
  rcases line_cases irq with ⟨i, rfl⟩ | ⟨i, rfl⟩
  · obtain ⟨⟨hlow, hbyte⟩, -⟩ := line_byte i
    obtain ⟨hmaster, hslave, -⟩ := update_line a.masked false i
    rw [unmask_irq_master _ hlow h.master.next, hbyte]
    refine ⟨h.listeners, h.world, ?_, ?_, h.master_isr, h.slave_isr⟩
    · rw [hmaster]
      exact h.master.unmask i
    · rw [hslave]
      exact h.slave
  · obtain ⟨-, hhigh, hbyte⟩ := line_byte i
    obtain ⟨-, -, hslave, hmaster⟩ := update_line a.masked false i
    rw [unmask_irq_slave _ hhigh h.slave.next, hbyte]
    refine ⟨h.listeners, h.world, ?_, ?_, h.master_isr, h.slave_isr⟩
    · rw [hmaster]
      exact h.master
    · rw [hslave]
      exact h.slave.unmask i

theorem Controls.enter (h : Controls s a) (selector : Nat)
    (listener : Option (isr_cpu_state → W → W)) :
    Controls { s with listeners := (isr_register_listener s.listeners selector listener).2 }
      (a.enter selector listener) := by
  unfold isr_register_listener Lines.enter
  by_cases hlt : selector < 256
  · rw [if_pos hlt, if_neg (Nat.not_le.mpr hlt), h.listeners]
    exact ⟨rfl, h.world, h.master, h.slave, h.master_isr, h.slave_isr⟩
  · rw [if_neg hlt, if_pos (Nat.not_lt.mp hlt)]
    exact h

/-! ## An interrupt -/

/-- Nothing of the priority of a line or a higher one is in service. -/
theorem Controls.nothing_before (h : Controls s a) (i : Fin 8) :
    (∀ j, j ≤ i → s.pics.master.isr j = false) ↔ i < CASCADE ∨ a.blocked = false := by
  constructor
  · intro hnone
    rcases lt_or_ge i CASCADE with hlt | hge
    · exact Or.inl hlt
    · have hcascade := hnone CASCADE hge
      rw [h.master_isr, decide_eq_true rfl, Bool.true_and] at hcascade
      exact Or.inr hcascade
  · rintro (hlt | hfree) j hj
    · rw [h.master_isr, decide_eq_false (ne_of_lt (lt_of_le_of_lt hj hlt)), Bool.false_and]
    · rw [h.master_isr, hfree, Bool.and_false]

theorem Controls.open_master (h : Controls s a) (i : Fin 8) :
    s.pics.master.grants i = true ↔ a.Open (masterLine i) := by
  have hlow : (masterLine i).val < 8 := i.isLt
  have hfirst : (masterLine i).val < CASCADE.val ↔ i < CASCADE := Iff.rfl
  rw [h.master.grants, h.nothing_before, Lines.Open, hfirst]
  exact ⟨fun ⟨h1, h2⟩ => ⟨h1, h2, Or.inl hlow⟩, fun ⟨h1, h2, _⟩ => ⟨h1, h2⟩⟩

theorem Controls.open_slave (h : Controls s a) (i : Fin 8) :
    (s.pics.master.grants CASCADE && s.pics.slave.grants i) = true ↔ a.Open (slaveLine i) := by
  have hhigh : ¬ (slaveLine i).val < 8 := Nat.not_lt.mpr (Nat.le_add_right 8 i)
  have hfirst : ¬ (slaveLine i).val < CASCADE.val := fun hlt => hhigh (lt_trans hlt (by decide))
  have hquiet : ∀ j, j ≤ i → s.pics.slave.isr j = false := fun j _ => h.slave_isr j
  rw [Bool.and_eq_true, h.master.grants, h.slave.grants, h.nothing_before, Lines.Open,
    or_iff_right hhigh, or_iff_right hfirst, or_iff_right (lt_irrefl CASCADE)]
  exact ⟨fun ⟨⟨h1, h2⟩, h3, _⟩ => ⟨h3, h2, h1⟩, fun ⟨h3, h2, h1⟩ => ⟨⟨h1, h2⟩, h3, hquiet⟩⟩

/-- The second stage runs the listener, and ends the interrupt on the chip of its line. -/
theorem isr_stage2_irq (listeners : Listeners W) (irq : Fin 16) (w : W) (p : Pics) :
    isr_stage2 listeners ⟨32 + irq⟩ (w, p) =
      (heard listeners (32 + irq) w, pic_8259_send_eoi p (UInt8.ofNat irq)) := by
  have hirq := irq.isLt
  unfold isr_stage2 heard
  dsimp only
  cases listeners (32 + irq) with
  | none => rw [if_pos (by omega), if_pos (by omega), Nat.add_sub_cancel_left]
  | some listener => rw [if_pos (by omega), if_pos (by omega), Nat.add_sub_cancel_left]

theorem deliver_master (p : Pics) (i : Fin 8) : deliver p (masterLine i) =
    if p.master.grants i then some ({ p with master := p.master.acknowledge i }, p.master.vector i)
    else none := by
  have hline : Fin.ofNat 8 (masterLine i) = i := Fin.ext (Nat.mod_eq_of_lt i.isLt)
  unfold deliver
  dsimp only
  rw [if_pos (show masterLine i < 8 from i.isLt), hline]

theorem deliver_slave (p : Pics) (i : Fin 8) : deliver p (slaveLine i) =
    if p.master.grants CASCADE && p.slave.grants i then
      some (⟨p.master.acknowledge CASCADE, p.slave.acknowledge i⟩, p.slave.vector i)
    else none := by
  have hline : Fin.ofNat 8 (slaveLine i) = i := by
    apply Fin.ext
    show (8 + i.val) % 8 = i.val
    omega
  have hhigh : ¬ slaveLine i < 8 := Nat.not_lt.mpr (Nat.le_add_right 8 i)
  unfold deliver
  dsimp only
  rw [if_neg hhigh, hline]

/-- The controllers deliver the interrupts of the open lines. -/
theorem Controls.delivers (h : Controls s a) (irq : Fin 16) :
    (deliver s.pics irq).isSome = true ↔ a.Open irq := by
  rcases line_cases irq with ⟨i, rfl⟩ | ⟨i, rfl⟩
  · rw [← h.open_master, deliver_master]
    cases s.pics.master.grants i <;> simp
  · rw [← h.open_slave, deliver_slave]
    cases s.pics.master.grants CASCADE && s.pics.slave.grants i <;> simp

theorem Controls.raise (h : Controls s a) (irq : Fin 16) :
    Controls (irq_step s (.raise irq)) (a.step (.raise irq)) := by
  unfold irq_step Lines.step handle_irq
  dsimp only
  by_cases hopen : a.Open irq
  · rw [if_pos hopen]
    rcases line_cases irq with ⟨i, rfl⟩ | ⟨i, rfl⟩
    · have hgrant := (h.open_master i).mpr hopen
      have hquiet := ((h.master.grants i).mp hgrant).2
      have hcode : s.pics.master.vector i = 32 + masterLine i := by
        unfold Chip.vector
        rw [h.master.icw2]
        rfl
      rw [deliver_master, if_pos hgrant, Option.map_some, hcode, isr_stage2_irq, send_eoi_eq,
        if_pos (show masterLine i < 8 from i.isLt), h.master.acknowledge,
        endOfInterrupt_granted hquiet]
      refine ⟨h.listeners, ?_, h.master, h.slave, ?_, h.slave_isr⟩
      · rw [h.listeners, h.world]
        rfl
      · intro j
        have hlow : ¬ 8 ≤ (masterLine i).val := Nat.not_le.mpr i.isLt
        rw [Lines.serve, decide_eq_false hlow, Bool.or_false]
        exact h.master_isr j
    · have hgrant := (h.open_slave i).mpr hopen
      have hhigh : 8 ≤ (slaveLine i).val := Nat.le_add_right 8 i
      have hcode : s.pics.slave.vector i = 32 + slaveLine i := by
        unfold Chip.vector
        rw [h.slave.icw2]
        show 40 + i.val = 32 + (8 + i.val)
        omega
      rw [deliver_slave, if_pos hgrant, Option.map_some, hcode, isr_stage2_irq, send_eoi_eq,
        if_neg (show ¬ slaveLine i < 8 from Nat.not_lt.mpr hhigh), h.master.acknowledge,
        h.slave.acknowledge, endOfInterrupt_granted fun j _ => h.slave_isr j]
      refine ⟨h.listeners, ?_, h.master.withIsr _, h.slave, ?_, h.slave_isr⟩
      · rw [h.listeners, h.world]
        rfl
      · intro j
        show Function.update s.pics.master.isr CASCADE true j = _
        rw [Lines.serve, decide_eq_true hhigh, Bool.or_true, Bool.and_true]
        by_cases hj : j = CASCADE
        · rw [hj, Function.update_self, decide_eq_true rfl]
        · have hfree : a.blocked = false :=
            hopen.2.1.resolve_left (Nat.not_lt.mpr (le_trans (by decide) hhigh))
          rw [Function.update_of_ne hj, h.master_isr, hfree, Bool.and_false, decide_eq_false hj]
  · have hnone : deliver s.pics irq = none :=
      Option.not_isSome_iff_eq_none.mp (mt (h.delivers irq).mp hopen)
    rw [if_neg hopen, hnone]
    exact h

theorem Controls.step (h : Controls s a) (call : IrqCall W) :
    Controls (irq_step s call) (a.step call) := by
  cases call with
  | register selector listener => exact h.enter selector listener
  | unregister selector => exact h.enter selector none
  | mask irq => exact h.mask irq
  | unmask irq => exact h.unmask irq
  | raise irq => exact h.raise irq

theorem Controls.run (h : Controls s a) (calls : List (IrqCall W)) :
    Controls (calls.foldl irq_step s) (calls.foldl Lines.step a) := by
  induction calls generalizing s a with
  | nil => exact h
  | cons call calls ih => exact ih (h.step call)

theorem blocked_enter (selector : Nat) (listener : Option (isr_cpu_state → W → W)) :
    (a.enter selector listener).blocked = a.blocked := by
  unfold Lines.enter
  split <;> rfl

/-- What is blocked stays blocked. -/
theorem blocked_run (h : a.blocked = true) (calls : List (IrqCall W)) :
    (calls.foldl Lines.step a).blocked = true := by
  induction calls generalizing a with
  | nil => exact h
  | cons call calls ih =>
    apply ih
    cases call with
    | register selector listener => exact (blocked_enter selector listener).trans h
    | unregister selector => exact (blocked_enter selector none).trans h
    | mask irq => exact h
    | unmask irq => exact h
    | raise irq =>
      show (if a.Open irq then a.serve irq else a).blocked = true
      split
      · exact Bool.or_eq_true_iff.mpr (Or.inl h)
      · exact h

end

/-! ## The whole run -/

theorem controls_start (listeners : Listeners W) (w : W) {p : Pics} (h : p.Clear) :
    Controls ⟨listeners, w, pic_8259_init p⟩ ⟨listeners, w, fun _ => false, false⟩ := by
  have hbits : ∀ i : Fin 8, (0 : UInt8).toBitVec.getLsbD i = false := by decide
  have hmaster : ((0x20 : UInt8) &&& 0xF8).toNat = 32 := by decide
  have hslave : ((0x28 : UInt8) &&& 0xF8).toNat = 40 := by decide
  rw [pic_8259_init_eq]
  refine ⟨rfl, rfl, ⟨rfl, hmaster, rfl, hbits⟩, ⟨rfl, hslave, rfl, hbits⟩, fun i => ?_, h.2⟩
  rw [Bool.and_false]
  exact h.1 i

/-- Over every run of registrations, masks and interrupts after the initialisation: the interrupts
that reach the processor are those of the open lines, and each runs the listener that was
registered last for its code, once. When an interrupt of the slave was served, only the lines 0
and 1 ever come through again. -/
theorem the_open_lines_reach_their_listeners (listeners : Listeners W) (w : W) {p : Pics}
    (h : p.Clear) (calls : List (IrqCall W)) :
    let s := calls.foldl irq_step ⟨listeners, w, pic_8259_init p⟩
    let a := calls.foldl Lines.step ⟨listeners, w, fun _ => false, false⟩
    s.listeners = a.listeners ∧ s.world = a.world ∧
      (∀ irq, (deliver s.pics irq).isSome = true ↔ a.Open irq) ∧
      (a.blocked = true → ∀ (later : List (IrqCall W)) (irq : Fin 16), 2 ≤ irq →
        deliver (later.foldl irq_step s).pics irq = none) := by
  intro s a
  have hrun : Controls s a := (controls_start listeners w h).run calls
  refine ⟨hrun.listeners, hrun.world, hrun.delivers, fun hblocked later irq hirq => ?_⟩
  apply Option.not_isSome_iff_eq_none.mp
  rw [(hrun.run later).delivers]
  rintro ⟨-, hfirst | hfree, -⟩
  · exact absurd hfirst (Nat.not_lt.mpr hirq)
  · rw [blocked_run hblocked later] at hfree
    cases hfree

/-- The disk is heard once, and then no line is but 0 and 1. -/
theorem the_disk_is_heard_once :
    let calls : List (IrqCall Nat) := [.register 46 (some fun _ n => n + 1), .raise 14, .raise 14]
    let s := calls.foldl irq_step ⟨fun _ => none, 0, pic_8259_init poweredPics⟩
    s.world = 1 ∧ ∀ (later : List (IrqCall Nat)) (irq : Fin 16), 2 ≤ irq →
      deliver (later.foldl irq_step s).pics irq = none := by
  intro calls s
  have hclear : poweredPics.Clear := ⟨fun _ => rfl, fun _ => rfl⟩
  obtain ⟨-, hworld, -, hblocked⟩ :=
    the_open_lines_reach_their_listeners (fun _ => none) 0 hclear calls
  refine ⟨hworld.trans ?_, hblocked ?_⟩
  · decide
  · decide

end sakana_os
