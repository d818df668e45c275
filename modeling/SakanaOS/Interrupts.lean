-- Interrupts from the processor to the second stage and back: what the second stage is
-- given, where `iret` returns to, and that the interrupted program does not notice.
import SakanaOS.BootTables
import SakanaOS.Pic

open byte_memory bit_fields runs word_stacks

namespace sakana_os

variable {W : Type}

/-! ## The stub -/

/-- The processor has pushed an error code for the exceptions whose stub counts on one, and
for no other interrupt. -/
def CountsRight (interrupt : Nat) (error_code : Option Nat) : Prop :=
  if ExcCode interrupt then ∃ v, error_code = some v ∧ v < 4294967296 else error_code = none

/-- The word that the second stage finds for the error code. -/
def errorWord (error_code : Option Nat) : Nat := error_code.getD 0

/-- What the stub itself pushes. -/
def stubWords (interrupt : Nat) : List Nat :=
  if ExcCode interrupt then [interrupt] else [0, interrupt]

theorem countsRight_none (n : Nat) : CountsRight n none ↔ ¬ ExcCode n := by
  unfold CountsRight
  by_cases h : ExcCode n
  · rw [if_pos h]
    constructor
    · rintro ⟨v, hv, -⟩
      cases hv
    · intro hnot
      exact absurd h hnot
  · rw [if_neg h]
    exact ⟨fun _ => h, fun _ => rfl⟩

theorem error_words {interrupt : Nat} {error_code : Option Nat}
    (h : CountsRight interrupt error_code) :
    error_code.toList ++ stubWords interrupt = [errorWord error_code, interrupt] := by
  unfold CountsRight at h
  unfold stubWords errorWord
  by_cases hc : ExcCode interrupt
  · rw [if_pos hc] at h ⊢
    obtain ⟨v, rfl, -⟩ := h
    rfl
  · rw [if_neg hc] at h ⊢
    subst h
    rfl

section

variable {t : Descriptors} {return_address : Nat} {f : Cpu × W → Option (Cpu × W)}

theorem run_stub (c : Cpu) (w : W) {interrupt : Nat} (hi : HasStub interrupt) :
    run (exec t return_address f) (c, w) (stub interrupt) =
      run (exec t return_address f) ((c.setIf 0).pushes (stubWords interrupt), w) isr_stage1 := by
  have hcli : exec t return_address f (c, w) .cli = some (c.setIf 0, w) := rfl
  have hpush : ∀ (d : Cpu) n, exec t return_address f (d, w) (.push_imm n) = some (d.push n, w) :=
    fun _ _ => rfl
  have hcode : ∀ n, run (exec t return_address f) (c, w) ([.cli, .push_imm n] ++ isr_stage1) =
      run (exec t return_address f) ((c.setIf 0).pushes [n], w) isr_stage1 := by
    intro n
    rw [List.cons_append, List.cons_append, List.nil_append, run_next hcli, run_next (hpush _ n)]
    rfl
  have hcodeless : ∀ n, run (exec t return_address f) (c, w)
      ([.cli, .push_imm 0x00, .push_imm n] ++ isr_stage1) =
      run (exec t return_address f) ((c.setIf 0).pushes [0, n], w) isr_stage1 := by
    intro n
    rw [List.cons_append, List.cons_append, List.cons_append, List.nil_append, run_next hcli,
      run_next (hpush _ 0), run_next (hpush _ n)]
    rfl
  unfold stub stubWords
  by_cases hlow : interrupt < 32
  · rw [if_pos hlow]
    by_cases hc : ExcCode interrupt
    · rw [if_pos hc, if_pos hc, EXC_CODE, hcode]
    · rw [if_neg hc, if_neg hc, EXC_CODELESS, hcodeless]
  · have hc : ¬ ExcCode interrupt := by
      unfold ExcCode
      omega
    rw [if_neg hlow, if_neg hc]
    by_cases hmid : interrupt < 48
    · rw [if_pos hmid, IRQ, hcodeless]
    · have hs : interrupt = 0x80 := hi.resolve_left hmid
      rw [if_neg hmid, hs, syscall, hcodeless]

end

/-! ## In front of the second stage -/

namespace Cpu

/-- The processor behind the pushes of a stub. -/
def inStub (t : Descriptors) (stubs : Stubs) (interrupt : Nat) (error_code : Option Nat)
    (c : Cpu) : Cpu :=
  ((c.delivered t stubs interrupt error_code).setIf 0).pushes (stubWords interrupt)

/-- All that is pushed before the first stage. -/
def entryWords (c : Cpu) (interrupt : Nat) (error_code : Option Nat) : List Nat :=
  c.outerWords ++ [c.eflags, c.cs, c.eip] ++ (error_code.toList ++ stubWords interrupt)

end Cpu

section

variable {t : Descriptors} {stubs : Stubs} {c : Cpu} {interrupt : Nat} {error_code : Option Nat}

theorem outerWords_length (c : Cpu) : c.outerWords.length ≤ 2 := by
  unfold Cpu.outerWords
  split
  · exact Nat.le_refl 2
  · exact Nat.zero_le 2

theorem stubWords_length (interrupt : Nat) : (stubWords interrupt).length ≤ 2 := by
  unfold stubWords
  split
  · exact Nat.le_succ 1
  · exact Nat.le_refl 2

theorem entryWords_length_le (c : Cpu) (interrupt : Nat) (error_code : Option Nat) :
    (c.entryWords interrupt error_code).length ≤ 8 := by
  have houter := outerWords_length c
  have hstub := stubWords_length interrupt
  have hcode : error_code.toList.length ≤ 1 := Option.length_toList_le
  unfold Cpu.entryWords
  simp only [List.length_append, List.length_cons, List.length_nil]
  omega

/-- Whatever the processor pushes is a word. -/
theorem hardwareWords_lt (hsized : c.Sized) (he : ∀ v, error_code = some v → v < 4294967296) :
    ∀ v ∈ c.outerWords ++ [c.eflags, c.cs, c.eip] ++ error_code.toList, v < 4294967296 := by
  have hcs := hsized.cs
  have hss := hsized.ss
  intro v hv
  simp only [List.mem_append, List.mem_cons, List.not_mem_nil, or_false, Option.mem_toList] at hv
  rcases hv with (hout | rfl | rfl | rfl) | hcode
  · unfold Cpu.outerWords at hout
    split at hout
    · simp only [List.mem_cons, List.not_mem_nil, or_false] at hout
      rcases hout with rfl | rfl
      · omega
      · exact hsized.reg .esp
    · cases hout
  · exact hsized.eflags
  · omega
  · exact hsized.eip
  · exact he v hcode

theorem stubWords_lt (hi : HasStub interrupt) : ∀ v ∈ stubWords interrupt, v < 4294967296 := by
  have hsmall : interrupt < 4294967296 := by
    rcases hi with h | rfl
    · omega
    · decide
  intro v hv
  unfold stubWords at hv
  split at hv
  · rw [List.mem_singleton.mp hv]
    exact hsmall
  · simp only [List.mem_cons, List.not_mem_nil, or_false] at hv
    rcases hv with rfl | rfl
    · decide
    · exact hsmall

theorem inStub_pushed (stubs : Stubs) (hc : Interruptible t c) (hi : HasStub interrupt)
    (he : ∀ v, error_code = some v → v < 4294967296) :
    Cpu.Pushed (c.onKernelStack t) (c.inStub t stubs interrupt error_code)
      (c.entryWords interrupt error_code) := by
  have hroom := hc.room
  have htop := hc.top
  have houter := outerWords_length c
  have hbase : (c.onKernelStack t).esp = c.kernelEsp t := c.onKernelStack_esp t
  have hcode : error_code.toList.length ≤ 1 := Option.length_toList_le
  have hhardware : Cpu.Pushed (c.onKernelStack t) ((c.delivered t stubs interrupt
      error_code).setIf 0) (c.outerWords ++ [c.eflags, c.cs, c.eip] ++ error_code.toList) := by
    refine Cpu.Pushed.congr (Cpu.pushed_pushes (hardwareWords_lt hc.sized he) ?_ ?_) rfl rfl rfl rfl
    · rw [hbase]
      simp only [List.length_append, List.length_cons, List.length_nil]
      omega
    · rw [hbase]
      omega
  have hlen := hhardware.esp
  simp only [List.length_append, List.length_cons, List.length_nil, hbase] at hlen
  have hstub := stubWords_length interrupt
  have hpushes : Cpu.Pushed ((c.delivered t stubs interrupt error_code).setIf 0)
      (c.inStub t stubs interrupt error_code) (stubWords interrupt) :=
    Cpu.pushed_pushes (stubWords_lt hi) (by omega) (by omega)
  have hall := hhardware.trans hpushes
  rw [List.append_assoc] at hall
  exact hall

/-- The stub changes no register but the stack pointer. -/
theorem same_inStub (t : Descriptors) (stubs : Stubs) (c : Cpu) (interrupt : Nat)
    (error_code : Option Nat) :
    (∀ r, r ≠ .esp → (c.inStub t stubs interrupt error_code).reg r = c.reg r) ∧
    (c.inStub t stubs interrupt error_code).seg = c.seg ∧
    (c.inStub t stubs interrupt error_code).cs = 0x08 ∧
    (c.inStub t stubs interrupt error_code).ss = (c.onKernelStack t).ss := by
  have hbase : (∀ r, r ≠ .esp → (c.onKernelStack t).reg r = c.reg r) ∧
      (c.onKernelStack t).seg = c.seg := by
    unfold Cpu.onKernelStack
    split
    · exact ⟨fun r h => Function.update_of_ne h .., rfl⟩
    · exact ⟨fun _ _ => rfl, rfl⟩
  have h1 := Cpu.same_pushes (c.onKernelStack t)
    (c.outerWords ++ [c.eflags, c.cs, c.eip] ++ error_code.toList)
  have h2 := Cpu.same_pushes ((c.delivered t stubs interrupt error_code).setIf 0)
    (stubWords interrupt)
  refine ⟨fun r h => ?_, ?_, h2.cs, h2.ss.trans h1.ss⟩
  · exact (h2.reg r h).trans ((h1.reg r h).trans (hbase.1 r h))
  · exact h2.seg.trans (h1.seg.trans hbase.2)

theorem inStub_reg_lt (stubs : Stubs) (hc : Interruptible t c) (hi : HasStub interrupt)
    (he : ∀ v, error_code = some v → v < 4294967296) (r : Reg) :
    (c.inStub t stubs interrupt error_code).reg r < 4294967296 := by
  by_cases h : r = .esp
  · have hlen := (inStub_pushed stubs hc hi he).esp
    have htop := hc.top
    rw [c.onKernelStack_esp t] at hlen
    subst h
    change (c.inStub t stubs interrupt error_code).esp < 4294967296
    omega
  · rw [(same_inStub t stubs c interrupt error_code).1 r h]
    exact hc.sized.reg r

end

/-! ## The whole way -/

/-- An interrupt: the processor takes it, and the code of its stub runs up to `iret`. -/
def handle (t : Descriptors) (return_address : Nat) (isr_stage2 : Cpu × W → Option (Cpu × W))
    (interrupt : Nat) (error_code : Option Nat) (s : Cpu × W) : Option (Cpu × W) :=
  (s.1.interrupt t interrupt error_code).bind fun c =>
    run (exec t return_address isr_stage2) (c, s.2) (stub interrupt)

/-- The words on the stack in front of the call, above the pointer to the state. -/
def stateWords (c : Cpu) (esp interrupt : Nat) (error_code : Option Nat) : List Nat :=
  [c.dsWord, c.reg .edi, c.reg .esi, c.reg .ebp, esp, c.reg .ebx, c.reg .edx, c.reg .ecx,
    c.reg .eax] ++ (c.entryWords interrupt error_code).reverse

section

variable {t : Descriptors} {stubs : Stubs} {return_address : Nat}
  {f : Cpu × W → Option (Cpu × W)} {c : Cpu} {w w' : W} {interrupt : Nat}
  {error_code : Option Nat}

/-- The processor in front of the call of the second stage: the saved state, and the pointer
to it on top. -/
structure AtCall (t : Descriptors) (c k : Cpu) (interrupt : Nat) (error_code : Option Nat) :
    Prop where
  esp : k.entered.esp + 4 * (10 + (c.entryWords interrupt error_code).length) = c.kernelEsp t
  pointer : load32 k.entered.mem k.entered.esp = k.entered.esp + 4
  words : Words k.entered.mem (k.entered.esp + 4) (stateWords c k.esp interrupt error_code)
  frame : ∀ x, x < k.entered.esp ∨ c.kernelEsp t ≤ x → k.entered.mem x = c.mem x
  level : k.cpl = 0
  seg : ∀ sr, k.entered.seg sr = 0x10
  cs : k.entered.cs = 0x08
  ss : k.entered.ss = (c.onKernelStack t).ss
  eflags : field k.entered.eflags 9 1 = 0
  nested : field k.entered.eflags 14 1 = 0

theorem at_call (stubs : Stubs) (hc : Interruptible t c) (hi : HasStub interrupt)
    (he : ∀ v, error_code = some v → v < 4294967296) :
    AtCall t c (c.inStub t stubs interrupt error_code) interrupt error_code := by
  have hbase : (c.onKernelStack t).esp = c.kernelEsp t := c.onKernelStack_esp t
  have hmem : (c.onKernelStack t).mem = c.mem := by
    unfold Cpu.onKernelStack
    split <;> rfl
  have hstub := inStub_pushed stubs hc hi he
  obtain ⟨hreg, hseg, hcs, hss⟩ := same_inStub t stubs c interrupt error_code
  have hsized := inStub_reg_lt stubs hc hi he
  have hgate : (c.inStub t stubs interrupt error_code).eflags =
      setField (gateFlags c.eflags) 9 1 0 := (Cpu.same_pushes _ _).eflags
  have hflags : field (c.inStub t stubs interrupt error_code).eflags 9 1 = 0 := by
    rw [hgate, field_setField]
    rfl
  have hnested : field (c.inStub t stubs interrupt error_code).eflags 14 1 = 0 := by
    rw [hgate, field_setField_ne _ _ (by omega)]
    exact (Cpu.gateFlags_fields c.eflags).2
  generalize c.inStub t stubs interrupt error_code = k at *
  have hlen := hstub.esp
  have hroom := hc.room
  have hshort := entryWords_length_le c interrupt error_code
  have henter := Cpu.entered_pushed hsized (by omega)
  have hall := hstub.trans henter
  have hesp := hall.esp
  have hds : k.dsWord = c.dsWord := by
    unfold Cpu.dsWord
    rw [hreg _ (by decide), hseg]
  have hptr : k.save.esp = k.entered.esp + 4 := by
    have h1 := henter.esp
    have h2 := (Cpu.save_pushed hsized (by omega)).esp
    simp only [List.length_append, List.length_cons, List.length_nil] at h1
    omega
  have hlist : (c.entryWords interrupt error_code ++ (k.savedWords ++ [k.save.esp])).reverse ++ [] =
      (k.entered.esp + 4) :: stateWords c k.esp interrupt error_code := by
    unfold Cpu.savedWords stateWords
    rw [hptr, hds, hreg .eax (by decide), hreg .ecx (by decide), hreg .edx (by decide),
      hreg .ebx (by decide), hreg .ebp (by decide), hreg .esi (by decide), hreg .edi (by decide)]
    simp only [List.reverse_append, List.reverse_cons, List.reverse_nil, List.nil_append,
      List.cons_append, List.append_nil]
  have hwords := hall.words [] trivial
  rw [hlist] at hwords
  obtain ⟨hcs', hss', heflags'⟩ := Cpu.same_entered k
  refine ⟨?_, hwords.1, hwords.2, ?_, ?_, ?_, hcs'.trans hcs, hss'.trans hss, ?_, ?_⟩
  · rw [List.length_append, List.length_append, hbase] at hesp
    change k.entered.esp + 4 * (_ + (9 + 1)) = _ at hesp
    omega
  · intro x hx
    rw [hall.frame x (by rw [hbase]; exact hx), hmem]
  · rw [Cpu.cpl, hcs]
  · intro sr
    cases sr <;> rfl
  · rw [heflags']
    exact hflags
  · rw [heflags']
    exact hnested

/-- From the interrupt to `iret`, when the second stage returns and leaves some state behind
the pointer. -/
theorem handle_eq (ht : KernelTables t stubs) (hc : Interruptible t c) (hi : HasStub interrupt)
    (he : ∀ v, error_code = some v → v < 4294967296) {d : Cpu} {s : isr_cpu_state_t}
    (hf : f ((c.inStub t stubs interrupt error_code).entered.push return_address, w) =
      some (d, w'))
    (hesp : d.esp = (c.inStub t stubs interrupt error_code).entered.esp) (hcpl : d.cpl = 0)
    (hwords : Words d.mem (d.esp + 4) s.words) (hds : t.loads 0 (s.ds % 65536) = true) :
    handle t return_address f interrupt error_code (c, w) =
      ((d.restored s).iret t).map fun e => (e, w') := by
  have hcall := at_call stubs hc hi he
  have htop := hc.top
  have hlen := hcall.esp
  have hentry : 4 ≤ (c.entryWords interrupt error_code).length := by
    have hstub : 1 ≤ (stubWords interrupt).length := by
      unfold stubWords
      split
      · exact Nat.le_refl 1
      · exact Nat.le_succ 1
    unfold Cpu.entryWords
    simp only [List.length_append, List.length_cons, List.length_nil]
    omega
  have hload : t.loads (c.inStub t stubs interrupt error_code).cpl 0x10 = true := by
    rw [hcall.level]
    exact ht.data
  have hstub : run (exec t return_address f) (c.delivered t stubs interrupt error_code, w)
      (stub interrupt) =
      run (exec t return_address f) (c.inStub t stubs interrupt error_code, w) isr_stage1 :=
    run_stub _ w hi
  have hleave : run (exec t return_address f) (d, w') isr_leave =
      ((d.restored s).iret t).map fun e => (e, w') :=
    run_leave w' (by omega) ⟨rfl, hwords⟩ (by rw [hcpl]; exact hds)
  unfold handle
  rw [interrupt_eq ht hc.vm hi, Option.bind_some, hstub, isr_stage1_eq]
  generalize c.inStub t stubs interrupt error_code = k at *
  have hcallee : exec t return_address f (k.entered, w) .call_isr_stage2 = some (d, w') := hf
  rw [run_split (run_enter w hload), run_next hcallee, hleave]

end

/-! ## Where `iret` returns to -/

/-- The program that a saved state describes, on the memory of the second stage. -/
def isr_cpu_state_t.resume (s : isr_cpu_state_t) (t : Descriptors) (d : Cpu) : Cpu :=
  if 0 < s.cs % 4 then
    { reg := s.general s.useresp
      seg := fun _ => if t.loads (s.cs % 4) (s.ds % 65536) then s.ds % 65536 else 0
      cs := s.cs % 65536
      ss := s.ss % 65536
      eip := s.eip
      eflags := s.eflags
      mem := d.mem }
  else
    { d with
      reg := s.general (d.esp + 60)
      seg := fun _ => s.ds % 65536
      cs := s.cs % 65536
      eip := s.eip
      eflags := s.eflags }

/-- The words above the state, when `iret` changes to the other stack. -/
def isr_cpu_state_t.outerWords (s : isr_cpu_state_t) : List Nat :=
  if 0 < s.cs % 4 then s.outer else []

/-- The processor can return to the program that a saved state describes: to its code segment
and, when it has a stack of its own, to that, and not to virtual 8086 mode. -/
structure isr_cpu_state_t.Returns (s : isr_cpu_state_t) (t : Descriptors) : Prop where
  ds : t.loads 0 (s.ds % 65536) = true
  cs : t.returns_to 0 (s.cs % 65536) = true
  ss : 0 < s.cs % 4 → t.stacks (s.cs % 4) (s.ss % 65536) = true
  vm : field s.eflags 17 1 = 0

theorem iret_eq {t : Descriptors} {d : Cpu} {s : isr_cpu_state_t} (hcpl : d.cpl = 0)
    (hnested : field d.eflags 14 1 = 0) (hs : s.Returns t)
    (hwords : Words d.mem (d.esp + 4) (s.words ++ s.outerWords))
    (htop : d.esp + 60 + 4 * s.outerWords.length < 4294967296) :
    (d.restored s).iret t = some (s.resume t d) := by
  have hlevel : s.cs % 65536 % 4 = s.cs % 4 := Nat.mod_mod_of_dvd _ (by decide)
  obtain ⟨hstate, houter⟩ := words_append.mp hwords
  simp only [isr_cpu_state_t.words, words_cons, words_nil, Nat.add_assoc, Nat.reduceAdd] at hstate
  obtain ⟨-, -, -, -, -, -, -, -, -, -, -, heip, hcsw, heflags, -⟩ := hstate
  have hadd : ∀ n, n ≤ 12 → add32 (d.esp + 48) n = d.esp + (48 + n) := by
    intro n hn
    rw [add32_eq (by omega), Nat.add_assoc]
  have hesp : (d.restored s).esp = d.esp + 48 := rfl
  have hrcpl : (d.restored s).cpl = 0 := hcpl
  have hmem : (d.restored s).mem = d.mem := rfl
  have hrnested : field (d.restored s).eflags 14 1 = 0 := by
    rw [show (d.restored s).eflags = setField d.eflags 9 1 1 from rfl,
      field_setField_ne _ _ (by omega)]
    exact hnested
  unfold Cpu.iret
  rw [hesp, hmem, hadd 4 (by decide), hadd 8 (by decide), hcsw, heip, heflags]
  dsimp only
  rw [if_pos ⟨hrcpl, hrnested, hs.vm, hs.cs⟩, hlevel]
  unfold isr_cpu_state_t.resume
  by_cases h : 0 < s.cs % 4
  · unfold isr_cpu_state_t.outerWords at houter htop
    rw [if_pos h] at houter htop
    have hlen : s.words.length = 14 := rfl
    have houtlen : s.outer.length = 2 := rfl
    rw [houtlen] at htop
    simp only [isr_cpu_state_t.outer, words_cons, words_nil, hlen, Nat.add_assoc, Nat.reduceAdd,
      Nat.reduceMul] at houter
    obtain ⟨huseresp, hss, -⟩ := houter
    have h16 : add32 (d.esp + 48) 16 = d.esp + 64 := by
      rw [add32_eq (by omega), Nat.add_assoc]
    rw [if_pos h, if_pos h, hadd 12 (by decide), h16, huseresp, hss, if_pos (hs.ss h)]
    have hreg : ((d.restored s).setReg .esp s.useresp).reg = s.general s.useresp := by
      funext r
      cases r <;> rfl
    rw [hreg]
    rfl
  · have hreg : ((d.restored s).drop 12).reg = s.general (d.esp + 60) := by
      funext r
      cases r with
      | esp => exact hadd 12 (by decide)
      | _ => rfl
    rw [if_neg h, if_neg h, hreg]
    rfl

/-! ## What the second stage is given, and what it leaves -/

/-- The state that is saved for a program. Above the state lie the two words of the other
stack, when there is one. -/
def Cpu.savedState (c : Cpu) (esp interrupt : Nat) (error_code : Option Nat) : isr_cpu_state_t where
  ds := c.dsWord
  edi := c.reg .edi
  esi := c.reg .esi
  ebp := c.reg .ebp
  esp := esp
  ebx := c.reg .ebx
  edx := c.reg .edx
  ecx := c.reg .ecx
  eax := c.reg .eax
  interrupt_code := interrupt
  error_code := errorWord error_code
  eip := c.eip
  cs := c.cs
  eflags := c.eflags
  useresp := c.esp
  ss := c.ss

/-- The first stage saves DS in the low half of a word, under the upper half of EAX. -/
theorem savedState_ds {c : Cpu} (hsized : c.Sized) (esp interrupt : Nat) (error_code : Option Nat) :
    (c.savedState esp interrupt error_code).ds % 65536 = c.seg .ds := by
  have hlt := hsized.seg .ds
  change (c.reg .eax / 65536 * 65536 + c.seg .ds % 65536) % 65536 = _
  omega

theorem savedState_general (c : Cpu) (esp interrupt : Nat) (error_code : Option Nat) :
    (c.savedState esp interrupt error_code).general c.esp = c.reg := by
  funext r
  cases r <;> rfl

/-- A state of the same privilege has as many words of the other stack. -/
theorem outerWords_length_eq {s : isr_cpu_state_t} {c : Cpu} (h : s.cs % 4 = c.cs % 4) :
    s.outerWords.length = c.outerWords.length := by
  unfold isr_cpu_state_t.outerWords Cpu.outerWords
  rw [h]
  by_cases hlevel : 0 < c.cs % 4
  · rw [if_pos hlevel, if_pos (show 0 < c.cpl from hlevel)]
    rfl
  · rw [if_neg hlevel, if_neg (show ¬ 0 < c.cpl from hlevel)]

/-- The processor can return to what it has interrupted. -/
theorem savedState_returns {t : Descriptors} {c : Cpu} (hc : Interruptible t c)
    (esp interrupt : Nat) (error_code : Option Nat) :
    (c.savedState esp interrupt error_code).Returns t := by
  refine ⟨?_, ?_, fun _ => ?_, hc.vm⟩
  · rw [savedState_ds hc.sized]
    exact Descriptors.loads_kernel hc.ds
  · exact (Nat.mod_eq_of_lt hc.sized.cs).symm ▸ hc.cs
  · exact (Nat.mod_eq_of_lt hc.sized.ss).symm ▸ hc.ss

/-- When the stub counts right, the words on the stack are a saved state. -/
theorem stateWords_eq (c : Cpu) (esp : Nat) {interrupt : Nat} {error_code : Option Nat}
    (hb : CountsRight interrupt error_code) : stateWords c esp interrupt error_code =
      (c.savedState esp interrupt error_code).words ++
        (c.savedState esp interrupt error_code).outerWords := by
  unfold stateWords Cpu.entryWords
  rw [error_words hb]
  by_cases h : 0 < c.cpl
  · have hlevel : 0 < (c.savedState esp interrupt error_code).cs % 4 := h
    unfold Cpu.outerWords isr_cpu_state_t.outerWords
    rw [if_pos h, if_pos hlevel]
    rfl
  · have hlevel : ¬ 0 < (c.savedState esp interrupt error_code).cs % 4 := h
    unfold Cpu.outerWords isr_cpu_state_t.outerWords
    rw [if_neg h, if_neg hlevel]
    rfl

theorem entryWords_length (c : Cpu) {interrupt : Nat} {error_code : Option Nat}
    (hb : CountsRight interrupt error_code) :
    (c.entryWords interrupt error_code).length = c.outerWords.length + 5 := by
  unfold Cpu.entryWords
  rw [error_words hb, List.length_append, List.length_append]
  rfl

theorem error_lt {interrupt : Nat} {error_code : Option Nat}
    (hb : CountsRight interrupt error_code) :
    ∀ v, error_code = some v → v < 4294967296 := by
  rintro v rfl
  unfold CountsRight at hb
  by_cases hcode : ExcCode interrupt
  · rw [if_pos hcode] at hb
    obtain ⟨u, heq, hlt⟩ := hb
    cases heq
    exact hlt
  · rw [if_neg hcode] at hb
    cases hb

/-- The processor at the first instruction of the second stage: the pointer to the saved state
of the program, the segments of the kernel, interrupts disabled, and where the program goes on
when the second stage leaves a state there. -/
structure Called (W : Type) (t : Descriptors) (return_address : Nat) (c : Cpu) (interrupt : Nat)
    (error_code : Option Nat) (k : Cpu) (esp : Nat) : Prop where
  esp_eq : k.esp + 64 + 4 * c.outerWords.length = c.kernelEsp t
  pointer : load32 k.mem (k.esp + 4) = k.esp + 8
  words : Words k.mem (k.esp + 8) ((c.savedState esp interrupt error_code).words ++
    (c.savedState esp interrupt error_code).outerWords)
  seg : ∀ sr, k.seg sr = 0x10
  cs : k.cs = 0x08
  ss : k.ss = (c.onKernelStack t).ss
  eflags : field k.eflags 9 1 = 0
  nested : field k.eflags 14 1 = 0
  frame : ∀ x, x < k.esp ∨ c.kernelEsp t ≤ x → k.mem x = c.mem x
  resumes : ∀ (f : Cpu × W → Option (Cpu × W)) (w w' : W) (d : Cpu) (s : isr_cpu_state_t),
    f (k, w) = some (d, w') → d.esp = k.esp + 4 → d.cpl = 0 → field d.eflags 14 1 = 0 →
    s.cs % 4 = c.cs % 4 → Words d.mem (k.esp + 8) (s.words ++ s.outerWords) → s.Returns t →
    handle t return_address f interrupt error_code (c, w) = some (s.resume t d, w')

/-- The word of the saved state that the second stage looks at. -/
theorem Called.code {t : Descriptors} {return_address : Nat} {c k : Cpu} {interrupt esp : Nat}
    {error_code : Option Nat} (h : Called W t return_address c interrupt error_code k esp) :
    load32 k.mem (k.esp + 8 + 36) = interrupt := by
  have hwords := h.words
  simp only [isr_cpu_state_t.words, List.cons_append, words_cons, Nat.add_assoc,
    Nat.reduceAdd] at hwords
  rw [Nat.add_assoc]
  exact hwords.2.2.2.2.2.2.2.2.2.1

theorem called {t : Descriptors} {stubs : Stubs} (ht : KernelTables t stubs) {c : Cpu}
    (hc : Interruptible t c) {interrupt : Nat} (hi : HasStub interrupt) {error_code : Option Nat}
    (hb : CountsRight interrupt error_code) (return_address : Nat) :
    ∃ k esp, Called W t return_address c interrupt error_code k esp := by
  have he := error_lt hb
  have hcall := at_call stubs hc hi he
  have hlen := hcall.esp
  have hroom := hc.room
  have htop := hc.top
  have houter := outerWords_length c
  rw [entryWords_length c hb] at hlen
  have hwords := hcall.words
  rw [stateWords_eq c _ hb] at hwords
  have hcs := hcall.cs
  have hss := hcall.ss
  have hseg := hcall.seg
  have heflags := hcall.eflags
  have hnested := hcall.nested
  have hframe := hcall.frame
  have hpointer := hcall.pointer
  have hrun := fun (f : Cpu × W → Option (Cpu × W)) (w w' : W) (d : Cpu) (s : isr_cpu_state_t) =>
    @handle_eq W t stubs return_address f c w w' interrupt error_code ht hc hi he d s
  generalize (c.inStub t stubs interrupt error_code).entered = e at *
  have hesp : (e.push return_address).esp = e.esp - 4 := by
    rw [Cpu.push_esp, sub32_eq (by omega) (by omega)]
  have hmem : (e.push return_address).mem = store32 e.mem (e.esp - 4) return_address := by
    rw [Cpu.push_mem, sub32_eq (by omega) (by omega)]
  have hstate : (e.push return_address).esp + 8 = e.esp + 4 := by omega
  refine ⟨e.push return_address, (c.inStub t stubs interrupt error_code).esp, by omega, ?_, ?_,
    hseg, hcs, hss, heflags, hnested, ?_, ?_⟩
  · rw [hstate, hesp, hmem, Nat.sub_add_cancel (by omega), load32_store32_ne _ _ (by omega),
      hpointer]
  · rw [hstate, hmem, words_congr fun x h1 h2 => store32_frame _ _ (by omega)]
    exact hwords
  · intro x hx
    rw [hesp] at hx
    rw [hmem, store32_frame _ _ (by omega), hframe x (by omega)]
  · intro f w w' d s hf hdesp hdcpl hdnested hlevel hdwords hs
    rw [hesp, Nat.sub_add_cancel (by omega)] at hdesp
    rw [hstate, ← hdesp] at hdwords
    have hsouter := outerWords_length_eq hlevel
    have hiret := iret_eq hdcpl hdnested hs hdwords (by omega)
    rw [hrun f w w' d s hf hdesp hdcpl (words_append.mp hdwords).1 hs.ds, hiret]
    rfl

/-- For every interrupt whose stub counts right, from every privilege level: the second stage is
called with a pointer to the state of the interrupted program, on the kernel's segments and with
interrupts disabled, and the program goes on as the state says that the second stage leaves
there, whatever it changed. -/
theorem the_program_goes_on_as_its_state_says {t : Descriptors} {stubs : Stubs}
    (ht : KernelTables t stubs) {c : Cpu} (hc : Interruptible t c) {interrupt : Nat}
    (hi : HasStub interrupt) {error_code : Option Nat} (hb : CountsRight interrupt error_code)
    (return_address : Nat) :
    ∃ (k : Cpu) (esp : Nat), k.esp + 64 + 4 * c.outerWords.length = c.kernelEsp t ∧
      Words k.mem (load32 k.mem (k.esp + 4)) ((c.savedState esp interrupt error_code).words ++
        (c.savedState esp interrupt error_code).outerWords) ∧
      (∀ sr, k.seg sr = 0x10) ∧ k.cs = 0x08 ∧
      k.ss = (if 0 < c.cpl then t.ring0_stack.1 else c.ss) ∧
      field k.eflags 9 1 = 0 ∧ field k.eflags 14 1 = 0 ∧
      (∀ x, x < k.esp ∨ c.kernelEsp t ≤ x → k.mem x = c.mem x) ∧
      ∀ (f : Cpu × W → Option (Cpu × W)) (w w' : W) (d : Cpu) (s : isr_cpu_state_t),
        f (k, w) = some (d, w') → d.esp = k.esp + 4 → d.cpl = 0 → field d.eflags 14 1 = 0 →
        s.cs % 4 = c.cs % 4 →
        Words d.mem (load32 k.mem (k.esp + 4)) (s.words ++ s.outerWords) → s.Returns t →
        handle t return_address f interrupt error_code (c, w) = some (s.resume t d, w') := by
  obtain ⟨k, esp, hk⟩ := called (W := W) ht hc hi hb return_address
  refine ⟨k, esp, hk.esp_eq, ?_, hk.seg, hk.cs, ?_, hk.eflags, hk.nested, hk.frame, ?_⟩
  · rw [hk.pointer]
    exact hk.words
  · rw [hk.ss]
    unfold Cpu.onKernelStack
    split
    · rfl
    · rfl
  · rw [hk.pointer]
    exact hk.resumes

/-- The tables of the boot, whose memory held anything before. -/
def sampleBoot : Descriptors := booted sampleBootCpu sampleTables sampleGates sampleStubs 0xC0300000

theorem sample_tables_set : TablesSet sampleTables sampleGates sampleStubs 0xC0300000 sampleBootCpu
    (init_tables sampleBootCpu sampleTables sampleGates sampleStubs 0xC0300000) :=
  init_tables_spec sample_apart sample_log_at sampleStubs (by decide)

theorem sample_boot_kernel : KernelTables sampleBoot sampleStubs :=
  sample_tables_set.kernel (by decide)

/-- On a flat user program the stack of the boot is used. -/
theorem sample_user_stack {c : Cpu} (hcs : c.cs = 0x1B) : c.kernelEsp sampleBoot = 0xC0300000 := by
  have hring0 : sampleBoot.ring0_stack = (0x10, 0xC0300000) := sample_tables_set.ring0 (by decide)
  unfold Cpu.kernelEsp Cpu.cpl
  rw [hcs, hring0, if_pos (show 0 < 0x1B % 4 by decide)]

theorem sample_interruptible {c : Cpu} (hsized : c.Sized) (hflat : c.Flat) (hcs : c.cs = 0x1B) :
    Interruptible sampleBoot c := by
  have hstack := sample_user_stack hcs
  have hroom : 80 ≤ c.kernelEsp sampleBoot := by
    rw [hstack]
    decide
  have htop : c.kernelEsp sampleBoot + 4 < 4294967296 := by
    rw [hstack]
    decide
  exact sample_tables_set.flat hsized hflat hroom htop

/-- The keyboard interrupts a user program, which goes on when the second stage leaves its state
as it is. -/
theorem the_sample_program_goes_on : ∃ (k : Cpu) (esp : Nat), k.cs = 0x08 ∧ k.ss = 0x10 ∧
    Words k.mem (load32 k.mem (k.esp + 4)) ((sampleUser.savedState esp 33 none).words ++
      (sampleUser.savedState esp 33 none).outerWords) ∧
    handle sampleBoot 0xC0103000 (fun s => some (s.1.drop 4, s.2)) 33 none (sampleUser, ()) =
      some ((sampleUser.savedState esp 33 none).resume sampleBoot (k.drop 4), ()) := by
  have hc := sample_interruptible sample_user_sized sample_user_flat rfl
  have hi : HasStub 33 := by decide
  have hb : CountsRight 33 none := (countsRight_none 33).mpr (by decide)
  obtain ⟨k, esp, hesp, hwords, -, hcs, hss, -, hnested, -, hresumes⟩ :=
    the_program_goes_on_as_its_state_says (W := Unit) sample_boot_kernel hc hi hb 0xC0103000
  rw [sample_user_stack rfl] at hesp
  refine ⟨k, esp, hcs, ?_, hwords, hresumes _ () () (k.drop 4) _ rfl ?_ ?_ hnested rfl hwords
    (savedState_returns hc esp 33 none)⟩
  · rw [hss, if_pos (show 0 < sampleUser.cpl by decide)]
    exact congrArg Prod.fst (sample_tables_set.ring0 (by decide))
  · unfold Cpu.drop
    rw [Cpu.esp_setReg, if_pos rfl, add32_eq (by omega)]
  · change k.cs % 4 = 0
    rw [hcs]

end sakana_os
