-- The first stage of an interrupt: what the processor does before the first instruction of
-- a stub and at `iret`, the instructions of `isr_stage1.asm`, and the saved state that the
-- second stage is given.
import Mathlib.Logic.Function.Basic
import SakanaOS.Gates
import SakanaOS.Runs
import SakanaOS.ByteMemory

open byte_memory bit_fields runs word_stacks

namespace sakana_os

/-! ## The processor -/

inductive Reg where
  | eax | ecx | edx | ebx | esp | ebp | esi | edi
deriving DecidableEq

/-- The segment registers that the first stage loads. -/
inductive SegReg where
  | ds | es | fs | gs
deriving DecidableEq

structure Cpu where
  reg : Reg → Nat
  seg : SegReg → Nat
  cs : Nat
  ss : Nat
  eip : Nat
  eflags : Nat
  mem : Mem

/-- What the processor finds in the tables that the kernel has set up: the gates, the
segments, and the stack of the kernel (`ss0` and `esp0`). -/
structure Descriptors where
  gate : Nat → Option Gate
  segment : Nat → Option Segment
  ring0_stack : Nat × Nat

/-- The current privilege level. -/
def Cpu.cpl (c : Cpu) : Nat := c.cs % 4

/-- The selector can be loaded into a data segment register at a privilege level. -/
def Descriptors.loads (t : Descriptors) (cpl selector : Nat) : Bool :=
  match t.segment selector with
  | none => decide (selector < 4)
  | some s => s.isReadable && ((s.executable == 1 && s.direction_conforming == 1) ||
      (decide (cpl ≤ s.privilege_level) && decide (selector % 4 ≤ s.privilege_level)))

/-- The code segment of a selector, when the processor may return to it from a level. -/
def Descriptors.returns_to (t : Descriptors) (cpl selector : Nat) : Bool :=
  match t.segment selector with
  | none => false
  | some s => s.isCode && decide (cpl ≤ selector % 4) &&
      (if s.direction_conforming = 1 then decide (s.privilege_level ≤ selector % 4)
        else s.privilege_level == selector % 4)

/-- The selector can be loaded into the register of the stack segment at a privilege level. -/
def Descriptors.stacks (t : Descriptors) (level selector : Nat) : Bool :=
  match t.segment selector with
  | none => false
  | some s => s.isWritable && selector % 4 == level && s.privilege_level == level

namespace Cpu

/-- The stack pointer. -/
abbrev esp (c : Cpu) : Nat := c.reg .esp

def setReg (c : Cpu) (r : Reg) (v : Nat) : Cpu := { c with reg := Function.update c.reg r v }

/-- The low half of a register. -/
def setLow (c : Cpu) (r : Reg) (v : Nat) : Cpu :=
  c.setReg r (c.reg r / 65536 * 65536 + v % 65536)

def setSeg (c : Cpu) (s : SegReg) (v : Nat) : Cpu := { c with seg := Function.update c.seg s v }

def push (c : Cpu) (v : Nat) : Cpu :=
  { c.setReg .esp (sub32 c.esp 4) with mem := store32 c.mem (sub32 c.esp 4) v }

def pushes (c : Cpu) (vs : List Nat) : Cpu := vs.foldl push c

/-- The word on top of the stack. -/
def top (c : Cpu) : Nat := load32 c.mem c.esp

def drop (c : Cpu) (n : Nat) : Cpu := c.setReg .esp (add32 c.esp n)

def pop (c : Cpu) (r : Reg) : Cpu := (c.drop 4).setReg r c.top

/-- `pusha` pushes `esp` as it was before. -/
def pusha (c : Cpu) : Cpu :=
  c.pushes [c.reg .eax, c.reg .ecx, c.reg .edx, c.reg .ebx, c.esp, c.reg .ebp, c.reg .esi,
    c.reg .edi]

/-- `popa` skips the word that `pusha` pushed for `esp`. -/
def popa (c : Cpu) : Cpu :=
  let c := ((c.pop .edi).pop .esi).pop .ebp
  let c := c.drop 4
  (((c.pop .ebx).pop .edx).pop .ecx).pop .eax

/-- The flag that lets the processor take hardware interrupts. -/
def setIf (c : Cpu) (v : Nat) : Cpu := { c with eflags := setField c.eflags 9 1 v }

end Cpu

/-- The flags that an interrupt gate clears: TF, IF, NT, RF and VM. -/
def gateFlags (eflags : Nat) : Nat :=
  setField (setField (setField (setField (setField eflags 8 1 0) 9 1 0) 14 1 0) 16 1 0) 17 1 0

/-- The processor takes an interrupt through its gate: it changes to the stack of the kernel
when the privilege rises, pushes where it was, and an error code for some exceptions. `none`
when the gate or that stack cannot be taken, and in virtual 8086 mode, which the kernel never
enters. -/
def Cpu.interrupt (t : Descriptors) (interrupt : Nat) (error_code : Option Nat) (c : Cpu) :
    Option Cpu :=
  match t.gate interrupt with
  | none => none
  | some gate =>
    match t.segment gate.selector with
    | none => none
    | some s =>
      let level := if s.direction_conforming = 1 then c.cpl else s.privilege_level
      if field c.eflags 17 1 = 0 ∧ s.isCode ∧ level ≤ c.cpl ∧
          (level < c.cpl → level = 0 ∧ t.stacks 0 t.ring0_stack.1 = true) then
        let k := if level < c.cpl then
            ({ c.setReg .esp t.ring0_stack.2 with ss := t.ring0_stack.1 }).pushes [c.ss, c.esp]
          else c
        let k := k.pushes ([c.eflags, c.cs, c.eip] ++ error_code.toList)
        some { k with
          eflags := gateFlags c.eflags
          cs := gate.selector / 4 * 4 + level
          eip := gate.offset }
      else none

/-- `int n`: a program can take the gates of its privilege level only, and the processor
pushes no error code. -/
def Cpu.software_interrupt (t : Descriptors) (interrupt : Nat) (c : Cpu) : Option Cpu :=
  match t.gate interrupt with
  | none => none
  | some gate => if c.cpl ≤ gate.privilege_level then c.interrupt t interrupt none else none

/-- `iret` at level 0, where the first stage runs. When the privilege falls, it changes back to
the other stack, and data segments that the lower level may not use are lost. `none` when it
cannot return there, for the return to another task (NT) and for the one to virtual 8086 mode. -/
def Cpu.iret (t : Descriptors) (c : Cpu) : Option Cpu :=
  let eip := load32 c.mem c.esp
  let cs := load32 c.mem (add32 c.esp 4) % 65536
  let eflags := load32 c.mem (add32 c.esp 8)
  if c.cpl = 0 ∧ field c.eflags 14 1 = 0 ∧ field eflags 17 1 = 0 ∧ t.returns_to 0 cs then
    if 0 < cs % 4 then
      let esp := load32 c.mem (add32 c.esp 12)
      let ss := load32 c.mem (add32 c.esp 16) % 65536
      if t.stacks (cs % 4) ss then
        some { c.setReg .esp esp with
          ss := ss
          cs := cs
          eip := eip
          eflags := eflags
          seg := fun s => if t.loads (cs % 4) (c.seg s) then c.seg s else 0 }
      else none
    else some { c.drop 12 with cs := cs, eip := eip, eflags := eflags }
  else none

/-! ## The instructions -/

inductive Instr where
  | cli
  | sti
  | pusha
  | popa
  | push (r : Reg)
  | push_imm (v : Nat)
  | pop (r : Reg)
  /-- `mov ax, v` -/
  | mov_imm16 (r : Reg) (v : Nat)
  /-- `mov ax, ds` -/
  | mov_from_seg (r : Reg) (s : SegReg)
  /-- `mov ds, ax` -/
  | mov_to_seg (s : SegReg) (r : Reg)
  | add_esp (v : Nat)
  | call_isr_stage2
  | iret

variable {W : Type}

/-- One instruction. `isr_stage2` is the compiled function, from its first instruction to its
`ret`, and `return_address` is what its `call` pushes. -/
def exec (t : Descriptors) (return_address : Nat) (isr_stage2 : Cpu × W → Option (Cpu × W))
    (s : Cpu × W) : Instr → Option (Cpu × W)
  | .cli => some (s.1.setIf 0, s.2)
  | .sti => some (s.1.setIf 1, s.2)
  | .pusha => some (s.1.pusha, s.2)
  | .popa => some (s.1.popa, s.2)
  | .push r => some (s.1.push (s.1.reg r), s.2)
  | .push_imm v => some (s.1.push v, s.2)
  | .pop r => some (s.1.pop r, s.2)
  | .mov_imm16 r v => some (s.1.setLow r v, s.2)
  | .mov_from_seg r sr => some (s.1.setLow r (s.1.seg sr), s.2)
  | .mov_to_seg sr r =>
    if t.loads s.1.cpl (s.1.reg r % 65536) then some (s.1.setSeg sr (s.1.reg r % 65536), s.2)
    else none
  | .add_esp v => some (s.1.drop v, s.2)
  | .call_isr_stage2 => isr_stage2 (s.1.push return_address, s.2)
  | .iret => (s.1.iret t).map fun c => (c, s.2)

def isr_stage1 : List Instr :=
  [.pusha,
    .mov_from_seg .eax .ds, .push .eax,
    -- Load kernel data segment descriptor
    .mov_imm16 .eax 0x10, .mov_to_seg .ds .eax, .mov_to_seg .es .eax, .mov_to_seg .fs .eax,
    .mov_to_seg .gs .eax,
    .push .esp, .call_isr_stage2, .add_esp 4,
    -- Restore original data segment descriptor
    .pop .ebx, .mov_to_seg .ds .ebx, .mov_to_seg .es .ebx, .mov_to_seg .fs .ebx,
    .mov_to_seg .gs .ebx,
    .popa,
    -- Clean up pushed error code and ISR number
    .add_esp 0x08, .sti, .iret]

-- Each stub ends with `jmp isr_stage1`.
def EXC_CODELESS (n : Nat) : List Instr := [.cli, .push_imm 0x00, .push_imm n] ++ isr_stage1
def EXC_CODE (n : Nat) : List Instr := [.cli, .push_imm n] ++ isr_stage1
def IRQ (n : Nat) : List Instr := [.cli, .push_imm 0x00, .push_imm n] ++ isr_stage1
def syscall : List Instr := [.cli, .push_imm 0x00, .push_imm 0x80] ++ isr_stage1

/-- The exceptions whose stub leaves the error code to the processor. -/
def ExcCode (n : Nat) : Prop := n = 8 ∨ n = 10 ∨ n = 11 ∨ n = 12 ∨ n = 13 ∨ n = 14

instance (n : Nat) : Decidable (ExcCode n) := inferInstanceAs (Decidable (_ ∨ _))

/-- The code of the stub of an interrupt. -/
def stub (interrupt : Nat) : List Instr :=
  if interrupt < 32 then
    if ExcCode interrupt then EXC_CODE interrupt else EXC_CODELESS interrupt
  else if interrupt < 48 then IRQ interrupt
  else syscall

/-! ## The saved state -/

structure isr_cpu_state_t where
  ds : Nat
  edi : Nat
  esi : Nat
  ebp : Nat
  esp : Nat
  ebx : Nat
  edx : Nat
  ecx : Nat
  eax : Nat
  interrupt_code : Nat
  error_code : Nat
  eip : Nat
  cs : Nat
  eflags : Nat
  useresp : Nat
  ss : Nat

/-- The words of the state, from its address up, that are there for every interrupt. -/
def isr_cpu_state_t.words (f : isr_cpu_state_t) : List Nat :=
  [f.ds, f.edi, f.esi, f.ebp, f.esp, f.ebx, f.edx, f.ecx, f.eax, f.interrupt_code, f.error_code,
    f.eip, f.cs, f.eflags]

/-- The two words behind them, when the privilege has risen. -/
def isr_cpu_state_t.outer (f : isr_cpu_state_t) : List Nat := [f.useresp, f.ss]

/-- The registers that `popa` takes out of the state, above a stack pointer. -/
def isr_cpu_state_t.general (f : isr_cpu_state_t) (esp : Nat) : Reg → Nat
  | .eax => f.eax
  | .ecx => f.ecx
  | .edx => f.edx
  | .ebx => f.ebx
  | .esp => esp
  | .ebp => f.ebp
  | .esi => f.esi
  | .edi => f.edi

/-! ## Pushes -/

namespace Cpu

section

variable (c : Cpu) (v : Nat)

theorem esp_setReg (r : Reg) : (c.setReg r v).esp = if r = .esp then v else c.esp := by
  unfold esp setReg
  by_cases h : r = .esp
  · subst h
    rw [if_pos rfl]
    exact Function.update_self Reg.esp v c.reg
  · rw [if_neg h]
    exact Function.update_of_ne (Ne.symm h) v c.reg

@[simp] theorem push_esp : (c.push v).esp = sub32 c.esp 4 := by
  change (c.setReg .esp (sub32 c.esp 4)).esp = _
  rw [esp_setReg, if_pos rfl]

@[simp] theorem push_mem : (c.push v).mem = store32 c.mem (sub32 c.esp 4) v := rfl

theorem push_reg {r : Reg} (h : r ≠ .esp) : (c.push v).reg r = c.reg r := by
  unfold push setReg
  exact Function.update_of_ne h _ _

end

/-- What the pushes of some words change: the stack pointer and the memory below it. -/
structure Pushed (c d : Cpu) (vs : List Nat) : Prop where
  esp : d.esp + 4 * vs.length = c.esp
  words : ∀ ws, Words c.mem c.esp ws → Words d.mem d.esp (vs.reverse ++ ws)
  frame : ∀ x, x < d.esp ∨ c.esp ≤ x → d.mem x = c.mem x

theorem Pushed.nil (c : Cpu) : Pushed c c [] := ⟨rfl, fun _ h => h, fun _ _ => rfl⟩

theorem Pushed.trans {c d e : Cpu} {us vs : List Nat} (h : Pushed c d us) (h' : Pushed d e vs) :
    Pushed c e (us ++ vs) := by
  have hsum := h.esp
  have hsum' := h'.esp
  refine ⟨?_, ?_, ?_⟩
  · rw [List.length_append]
    omega
  · intro ws hws
    rw [List.reverse_append, List.append_assoc]
    exact h'.words _ (h.words _ hws)
  · intro x hx
    rw [h'.frame x (by omega), h.frame x (by omega)]

theorem pushed_push {c : Cpu} {v : Nat} (hv : v < 4294967296) (h : 4 ≤ c.esp)
    (hesp : c.esp < 4294967296) : Pushed c (c.push v) [v] := by
  have hsub : sub32 c.esp 4 = c.esp - 4 := sub32_eq h hesp
  refine ⟨?_, ?_, ?_⟩
  · rw [push_esp, hsub, List.length_singleton]
    omega
  · intro ws hws
    rw [push_esp, push_mem, hsub]
    exact (words_push hv h).mpr hws
  · intro x hx
    rw [push_esp, hsub] at hx
    rw [push_mem, hsub, store32_frame _ _ (by omega)]

theorem pushed_pushes {c : Cpu} {vs : List Nat} (hvs : ∀ v ∈ vs, v < 4294967296)
    (h : 4 * vs.length ≤ c.esp) (hesp : c.esp < 4294967296) : Pushed c (c.pushes vs) vs := by
  induction vs generalizing c with
  | nil => exact Pushed.nil c
  | cons v vs ih =>
    rw [List.length_cons] at h
    have hfirst := pushed_push (hvs v List.mem_cons_self) (by omega) hesp
    have hroom := hfirst.esp
    rw [List.length_singleton] at hroom
    exact hfirst.trans (ih (fun u hu => hvs u (List.mem_cons_of_mem v hu)) (by omega) (by omega))

/-- Everything but the stack pointer and the memory. -/
structure SameBut (c d : Cpu) : Prop where
  reg : ∀ r, r ≠ .esp → d.reg r = c.reg r
  seg : d.seg = c.seg
  cs : d.cs = c.cs
  ss : d.ss = c.ss
  eip : d.eip = c.eip
  eflags : d.eflags = c.eflags

theorem same_pushes (c : Cpu) (vs : List Nat) : SameBut c (c.pushes vs) := by
  induction vs generalizing c with
  | nil => exact ⟨fun _ _ => rfl, rfl, rfl, rfl, rfl, rfl⟩
  | cons v vs ih =>
    obtain ⟨hreg, hseg, hcs, hss, heip, heflags⟩ := ih (c.push v)
    exact ⟨fun r h => (hreg r h).trans (push_reg c v h), hseg, hcs, hss, heip, heflags⟩

/-- Registers of 32 bits, and segment registers of 16. -/
structure Sized (c : Cpu) : Prop where
  reg : ∀ r, c.reg r < 4294967296
  seg : ∀ s, c.seg s < 65536
  cs : c.cs < 65536
  ss : c.ss < 65536
  eip : c.eip < 4294967296
  eflags : c.eflags < 4294967296

/-- A change of other registers, before the pushes or behind them. -/
theorem Pushed.congr {c c' d d' : Cpu} {vs : List Nat} (h : Pushed c d vs) (hc : c'.esp = c.esp)
    (hcm : c'.mem = c.mem) (hd : d'.esp = d.esp) (hdm : d'.mem = d.mem) : Pushed c' d' vs := by
  obtain ⟨h1, h2, h3⟩ := h
  refine ⟨by rw [hc, hd, h1], ?_, ?_⟩
  · rw [hc, hcm, hd, hdm]
    exact h2
  · rw [hc, hcm, hd, hdm]
    exact h3

/-! ## Up to the call of the second stage -/

/-- The word that `push eax` saves for `ds`: the high half of `eax` is still in it. -/
def dsWord (c : Cpu) : Nat := c.reg .eax / 65536 * 65536 + c.seg .ds % 65536

/-- The words that the first stage pushes, the first one first. -/
def savedWords (c : Cpu) : List Nat :=
  [c.reg .eax, c.reg .ecx, c.reg .edx, c.reg .ebx, c.esp, c.reg .ebp, c.reg .esi, c.reg .edi,
    c.dsWord]

/-- The state is saved. -/
def save (c : Cpu) : Cpu :=
  let c := c.pusha
  let c := c.setLow .eax (c.seg .ds)
  c.push (c.reg .eax)

/-- The kernel data segment descriptor is loaded. -/
def enterKernel (c : Cpu) : Cpu :=
  let c := c.setLow .eax 0x10
  (((c.setSeg .ds 0x10).setSeg .es 0x10).setSeg .fs 0x10).setSeg .gs 0x10

/-- The processor in front of the call. -/
def entered (c : Cpu) : Cpu := c.save.enterKernel.push c.save.enterKernel.esp

theorem setLow_self (c : Cpu) (r : Reg) (v : Nat) :
    (c.setLow r v).reg r = c.reg r / 65536 * 65536 + v % 65536 := Function.update_self ..

theorem setLow_ne (c : Cpu) (v : Nat) {r r' : Reg} (h : r' ≠ r) :
    (c.setLow r v).reg r' = c.reg r' := Function.update_of_ne h ..

theorem pusha_pushed {c : Cpu} (h : ∀ r, c.reg r < 4294967296) (hroom : 32 ≤ c.esp) :
    Pushed c c.pusha [c.reg .eax, c.reg .ecx, c.reg .edx, c.reg .ebx, c.esp, c.reg .ebp,
      c.reg .esi, c.reg .edi] := by
  apply pushed_pushes
  · intro v hv
    simp only [List.mem_cons, List.not_mem_nil, or_false] at hv
    rcases hv with rfl | rfl | rfl | rfl | rfl | rfl | rfl | rfl <;> exact h _
  · exact hroom
  · exact h .esp

theorem dsWord_lt {c : Cpu} (h : ∀ r, c.reg r < 4294967296) : c.dsWord < 4294967296 := by
  have heax := h .eax
  unfold dsWord
  omega

theorem same_save (c : Cpu) : (∀ r, r ≠ .esp → r ≠ .eax → c.save.reg r = c.reg r) ∧
    c.save.seg = c.seg ∧ c.save.cs = c.cs ∧ c.save.ss = c.ss ∧ c.save.eip = c.eip ∧
    c.save.eflags = c.eflags := by
  obtain ⟨hreg, hseg, hcs, hss, heip, heflags⟩ := same_pushes c [c.reg .eax, c.reg .ecx,
    c.reg .edx, c.reg .ebx, c.esp, c.reg .ebp, c.reg .esi, c.reg .edi]
  refine ⟨?_, hseg, hcs, hss, heip, heflags⟩
  intro r h h'
  unfold save
  rw [push_reg _ _ h, setLow_ne _ _ h']
  exact hreg r h

/-- The first stage keeps what the processor has loaded from the gate. -/
theorem same_entered (c : Cpu) : c.entered.cs = c.cs ∧ c.entered.ss = c.ss ∧
    c.entered.eflags = c.eflags := by
  obtain ⟨-, -, hcs, hss, -, heflags⟩ := same_save c
  unfold entered
  generalize c.save = d at *
  exact ⟨hcs, hss, heflags⟩

theorem save_pushed {c : Cpu} (h : ∀ r, c.reg r < 4294967296) (hroom : 36 ≤ c.esp) :
    Pushed c c.save c.savedWords := by
  have hesp : c.esp < 4294967296 := h .esp
  have hp := pusha_pushed h (by omega)
  have hlen : c.pusha.esp + 32 = c.esp := hp.esp
  have hsame : SameBut c c.pusha := same_pushes c _
  have hword : (c.pusha.setLow .eax (c.pusha.seg .ds)).reg .eax = c.dsWord := by
    rw [setLow_self, hsame.reg _ (by decide), hsame.seg]
    rfl
  have hds : Pushed (c.pusha.setLow .eax (c.pusha.seg .ds)) c.save [c.dsWord] := by
    unfold save
    dsimp only
    rw [hword]
    apply pushed_push (dsWord_lt h)
    · change 4 ≤ c.pusha.esp
      omega
    · change c.pusha.esp < 4294967296
      omega
  exact hp.trans (hds.congr rfl rfl rfl rfl)

theorem entered_pushed {c : Cpu} (h : ∀ r, c.reg r < 4294967296) (hroom : 40 ≤ c.esp) :
    Pushed c c.entered (c.savedWords ++ [c.save.esp]) := by
  have hesp : c.esp < 4294967296 := h .esp
  have hp := save_pushed h (by omega)
  have hlen : c.save.esp + 36 = c.esp := hp.esp
  have hptr : Pushed c.save.enterKernel c.entered [c.save.enterKernel.esp] := by
    apply pushed_push
    · change c.save.esp < 4294967296
      omega
    · change 4 ≤ c.save.esp
      omega
    · change c.save.esp < 4294967296
      omega
  exact hp.trans (hptr.congr rfl rfl rfl rfl)

end Cpu

/-- The instructions up to the call, and those behind it. -/
def isr_enter : List Instr := isr_stage1.take 9
def isr_leave : List Instr := isr_stage1.drop 10

theorem isr_stage1_eq : isr_stage1 = isr_enter ++ .call_isr_stage2 :: isr_leave := rfl

section

variable {t : Descriptors} {return_address : Nat} {f : Cpu × W → Option (Cpu × W)}

theorem exec_mov_to_seg {c : Cpu} {w : W} {sr : SegReg} {r : Reg} {v : Nat}
    (hv : c.reg r % 65536 = v) (h : t.loads c.cpl v = true) :
    exec t return_address f (c, w) (.mov_to_seg sr r) = some (c.setSeg sr v, w) := by
  unfold exec
  dsimp only
  rw [hv, if_pos h]

/-- Four segment registers are loaded from one register. -/
theorem run_mov_segs {c : Cpu} {w : W} {r : Reg} {v : Nat} (hv : c.reg r % 65536 = v)
    (h : t.loads c.cpl v = true) (is : List Instr) :
    run (exec t return_address f) (c, w)
        (.mov_to_seg .ds r :: .mov_to_seg .es r :: .mov_to_seg .fs r :: .mov_to_seg .gs r :: is) =
      run (exec t return_address f)
        ((((c.setSeg .ds v).setSeg .es v).setSeg .fs v).setSeg .gs v, w) is := by
  -- A segment register that has been loaded changes neither the source nor the level.
  have hstep : ∀ (d : Cpu) (sr : SegReg), d.reg = c.reg → d.cs = c.cs →
      exec t return_address f (d, w) (.mov_to_seg sr r) = some (d.setSeg sr v, w) := by
    intro d sr hreg hcs
    apply exec_mov_to_seg
    · rw [hreg, hv]
    · rw [Cpu.cpl, hcs]
      exact h
  simp only [run]
  rw [hstep c _ rfl rfl, Option.bind_some, hstep (c.setSeg .ds v) _ rfl rfl, Option.bind_some,
    hstep ((c.setSeg .ds v).setSeg .es v) _ rfl rfl, Option.bind_some,
    hstep (((c.setSeg .ds v).setSeg .es v).setSeg .fs v) _ rfl rfl, Option.bind_some]

/-- The first instructions load the segment of the kernel, if it can be loaded. -/
theorem run_enter {c : Cpu} (w : W) (h : t.loads c.cpl 0x10 = true) :
    run (exec t return_address f) (c, w) isr_enter = some (c.entered, w) := by
  have hax : (c.save.setLow .eax 0x10).reg .eax % 65536 = 0x10 := by
    rw [Cpu.setLow_self]
    omega
  have hload : t.loads (c.save.setLow .eax 0x10).cpl 0x10 = true := by
    change t.loads (c.save.cs % 4) 0x10 = true
    rw [(Cpu.same_save c).2.2.1]
    exact h
  exact run_mov_segs hax hload [.push .esp]

/-! ## From the return of the second stage on -/

/-- `popa` takes the registers out of the state and moves the stack pointer past them. -/
theorem Cpu.popa_eq {c : Cpu} {s : isr_cpu_state_t} (hesp : c.esp + 32 < 4294967296)
    (h : Words c.mem c.esp [s.edi, s.esi, s.ebp, s.esp, s.ebx, s.edx, s.ecx, s.eax]) :
    c.popa = { c with reg := s.general (c.esp + 32) } := by
  have hadd : ∀ n, n + 4 ≤ 32 → add32 (c.reg .esp + n) 4 = c.reg .esp + (n + 4) := by
    intro n hn
    have hsp : c.reg .esp + 32 < 4294967296 := hesp
    rw [add32_eq (by omega), Nat.add_assoc]
  have h0 : add32 (c.reg .esp) 4 = c.reg .esp + 4 := hadd 0 (by omega)
  simp only [words_cons, words_nil, and_true, Nat.add_assoc, Nat.reduceAdd] at h
  obtain ⟨hedi, hesi, hebp, -, hebx, hedx, hecx, heax⟩ := h
  have hreg : c.popa.reg = s.general (c.esp + 32) := by
    funext r
    cases r <;>
    simp (disch := decide) only [popa, pop, drop, setReg, top, isr_cpu_state_t.general, esp,
      Function.update_self, Function.update_of_ne, h0, hadd, Nat.reduceAdd] <;>
    assumption
  rw [← hreg]
  rfl


/-- The processor in front of `iret`, when the words of a state are on the stack behind the
pointer to it. -/
def Cpu.restored (c : Cpu) (s : isr_cpu_state_t) : Cpu :=
  { c with
    reg := s.general (c.esp + 48)
    seg := fun _ => s.ds % 65536
    eflags := setField c.eflags 9 1 1 }

/-- The instructions behind the call take the state from the stack, whatever it is by then. -/
theorem run_leave {c : Cpu} {s : isr_cpu_state_t} {ptr : Nat} (w : W)
    (hesp : c.esp + 60 < 4294967296) (h : Words c.mem c.esp (ptr :: s.words))
    (hds : t.loads c.cpl (s.ds % 65536) = true) :
    run (exec t return_address f) (c, w) isr_leave =
      ((c.restored s).iret t).map fun d => (d, w) := by
  have hdrop : ∀ (d : Cpu) n, d.esp + n < 4294967296 → (d.drop n).esp = d.esp + n := by
    intro d n hn
    unfold Cpu.drop
    rw [Cpu.esp_setReg, if_pos rfl, add32_eq hn]
  -- The pointer and the word of `ds` are taken off.
  have h4 : (c.drop 4).esp = c.esp + 4 := hdrop c 4 (by omega)
  have hebx : ((c.drop 4).pop .ebx).reg .ebx = s.ds := by
    change load32 c.mem (c.drop 4).esp = _
    rw [h4]
    exact h.2.1
  have h8 : ((c.drop 4).pop .ebx).esp = c.esp + 8 := by
    change ((c.drop 4).drop 4).esp = _
    rw [hdrop _ 4 (by omega), h4]
  refine Eq.trans (run_mov_segs (congrArg (· % 65536) hebx) hds
    [.popa, .add_esp 0x08, .sti, .iret]) ?_
  -- The registers.
  set d := ((((((c.drop 4).pop .ebx).setSeg .ds (s.ds % 65536)).setSeg .es (s.ds % 65536)).setSeg
    .fs (s.ds % 65536)).setSeg .gs (s.ds % 65536)) with hd
  have hdesp : d.esp = c.esp + 8 := h8
  have hseg : d.seg = fun _ => s.ds % 65536 := by
    funext sr
    cases sr <;> rfl
  have hwords : Words d.mem d.esp [s.edi, s.esi, s.ebp, s.esp, s.ebx, s.edx, s.ecx, s.eax] := by
    have hall : Words c.mem (c.esp + 8) ([s.edi, s.esi, s.ebp, s.esp, s.ebx, s.edx, s.ecx,
        s.eax] ++ [s.interrupt_code, s.error_code, s.eip, s.cs, s.eflags]) := h.2.2
    rw [hdesp]
    exact (words_append.mp hall).1
  have hpopa : d.popa = { d with reg := s.general (c.esp + 40) } := by
    rw [Cpu.popa_eq (by omega) hwords, hdesp]
  have hrestored : (d.popa.drop 8).setIf 1 = c.restored s := by
    have hreg : Function.update (s.general (c.esp + 40)) .esp (c.esp + 48) =
        s.general (c.esp + 48) := by
      funext r
      cases r <;> rfl
    have h48 : add32 (c.esp + 40) 8 = c.esp + 48 := add32_eq (by omega)
    rw [hpopa]
    unfold Cpu.setIf Cpu.drop Cpu.setReg Cpu.restored
    dsimp only
    rw [show Cpu.esp { d with reg := s.general (c.esp + 40) } = c.esp + 40 from rfl, h48, hreg,
      hseg]
    rfl
  simp only [run, exec, Option.bind_some]
  rw [hrestored]
  cases (c.restored s).iret t <;> rfl

end

end sakana_os
