-- Interrupted programs: an interrupt whose stub counts right is not noticed, which software
-- interrupts come back, and programs that run while hardware interrupts arrive.
import SakanaOS.Runs
import SakanaOS.Interrupts

open byte_memory bit_fields interleavings runs word_stacks

namespace sakana_os

variable {W : Type}

/-! ## The program does not notice -/

/-- The compiled second stage: it looks at the code in the state that its argument points to,
and does to the rest of the machine what the function does. It uses at most `frame` bytes of
the stack below its argument, and its listeners write to `data`. -/
def Compiled (frame : Nat) (data : Nat → Prop) (listeners : Nat → Option (isr_cpu_state → W → W))
    (f : Cpu × (W × Pics) → Option (Cpu × (W × Pics))) : Prop :=
  ∀ (k : Cpu) (s : W × Pics), frame ≤ k.esp → k.esp + 8 < 4294967296 → ∃ d,
    f (k, s) = some (d, isr_stage2 listeners ⟨load32 k.mem (load32 k.mem (k.esp + 4) + 36)⟩ s) ∧
    d.esp = k.esp + 4 ∧ d.cs = k.cs ∧ d.ss = k.ss ∧
    field d.eflags 14 1 = field k.eflags 14 1 ∧
    ∀ x, ¬ data x → x + frame < k.esp ∨ k.esp + 8 ≤ x → d.mem x = k.mem x

/-- The stack of the kernel has room for the second stage as well, and the listeners do not
write to it. -/
structure Ready (t : Descriptors) (frame : Nat) (data : Nat → Prop) (c : Cpu) : Prop where
  interruptible : Interruptible t c
  room : frame + 76 ≤ c.kernelEsp t
  data : ∀ x, data x → x + 76 < c.kernelEsp t ∨ c.kernelEsp t ≤ x

/-- What an interrupt leaves of a program: all of it, but that the other data segments may have
become the first one, and that the unused part of the kernel's stack has been written. -/
structure Unnoticed (t : Descriptors) (frame : Nat) (data : Nat → Prop) (c d : Cpu) : Prop where
  reg : d.reg = c.reg
  seg : ∀ sr, d.seg sr = c.seg .ds ∨ d.seg sr = c.seg sr
  cs : d.cs = c.cs
  ss : d.ss = c.ss
  eip : d.eip = c.eip
  eflags : d.eflags = c.eflags
  mem : ∀ x, ¬ data x → x + (frame + 72) < c.kernelEsp t ∨ c.kernelEsp t ≤ x → d.mem x = c.mem x

theorem Unnoticed.refl (t : Descriptors) (frame : Nat) (data : Nat → Prop) (c : Cpu) :
    Unnoticed t frame data c c :=
  ⟨rfl, fun _ => Or.inr rfl, rfl, rfl, rfl, rfl, fun _ _ _ => rfl⟩

section

variable {t : Descriptors} {stubs : Stubs} {frame : Nat} {data : Nat → Prop}
  {listeners : Nat → Option (isr_cpu_state → W → W)}
  {f : Cpu × (W × Pics) → Option (Cpu × (W × Pics))} {c : Cpu} {interrupt : Nat}
  {error_code : Option Nat}

theorem handle_unnoticed (ht : KernelTables t stubs) (hf : Compiled frame data listeners f)
    (hc : Ready t frame data c) (hi : HasStub interrupt) (hb : CountsRight interrupt error_code)
    (return_address : Nat) (s : W × Pics) :
    ∃ d, handle t return_address f interrupt error_code (c, s) =
        some (d, isr_stage2 listeners ⟨interrupt⟩ s) ∧ Unnoticed t frame data c d := by
  obtain ⟨k, esp, hk⟩ := called (W := W × Pics) ht hc.interruptible hi hb return_address
  have hesp := hk.esp_eq
  have htop := hc.interruptible.top
  have hroom := hc.room
  have hsized := hc.interruptible.sized
  have houter := outerWords_length c
  obtain ⟨d, hcall, hdesp, hdcs, hdss, hdnested, hdmem⟩ := hf k s (by omega) (by omega)
  set state := c.savedState esp interrupt error_code with hstate
  have hds : state.ds % 65536 = c.seg .ds := savedState_ds hsized esp interrupt error_code
  have hcs : state.cs % 65536 = c.cs := Nat.mod_eq_of_lt hsized.cs
  have hss : state.ss % 65536 = c.ss := Nat.mod_eq_of_lt hsized.ss
  rw [hk.pointer, hk.code] at hcall
  have hdcpl : d.cpl = 0 := by
    rw [Cpu.cpl, hdcs, hk.cs]
  have hlength : (state.words ++ state.outerWords).length = 14 + c.outerWords.length := by
    have hsame : state.outerWords.length = c.outerWords.length := outerWords_length_eq rfl
    rw [List.length_append, hsame]
    rfl
  have hdwords : Words d.mem (k.esp + 8) (state.words ++ state.outerWords) := by
    refine (words_congr fun x h1 h2 => hdmem x ?_ (Or.inr h1)).mpr hk.words
    intro hx
    have hapart := hc.data x hx
    omega
  have hrun := hk.resumes f s _ d state hcall hdesp hdcpl (hdnested.trans hk.nested) rfl hdwords
    (savedState_returns hc.interruptible esp interrupt error_code)
  refine ⟨state.resume t d, hrun, ?_⟩
  have hgeneral : state.general c.esp = c.reg := savedState_general c esp interrupt error_code
  have hmem : ∀ x, ¬ data x → x + (frame + 72) < c.kernelEsp t ∨ c.kernelEsp t ≤ x →
      d.mem x = c.mem x := by
    intro x hown hx
    rw [hdmem x hown (by omega), hk.frame x (by omega)]
  unfold isr_cpu_state_t.resume
  by_cases h : 0 < state.cs % 4
  · -- The program has its own stack.
    rw [if_pos h, hds, hcs, hss]
    refine ⟨hgeneral, fun _ => Or.inl (if_pos ?_), rfl, rfl, rfl, rfl, hmem⟩
    exact hc.interruptible.ds
  · -- The program runs on the kernel's stack.
    have hcpl : ¬ 0 < c.cpl := h
    have hkesp : c.kernelEsp t = c.esp := if_neg hcpl
    have hnone : c.outerWords.length = 0 := by
      unfold Cpu.outerWords
      rw [if_neg hcpl]
      rfl
    have hkept : d.ss = c.ss := by
      rw [hdss, hk.ss]
      unfold Cpu.onKernelStack
      rw [if_neg hcpl]
    have hback : d.esp + 60 = c.esp := by omega
    rw [if_neg h, hds, hcs, hback]
    exact ⟨hgeneral, fun _ => Or.inl rfl, rfl, hkept, rfl, rfl, hmem⟩

/-! ## Interrupts that do not come back -/

theorem Cpu.iret_eip {k d : Cpu} (h : k.iret t = some d) : d.eip = load32 k.mem k.esp := by
  unfold Cpu.iret at h
  dsimp only at h
  split at h
  · split at h
    · split at h
      · cases h
        rfl
      · cases h
    · cases h
      rfl
  · cases h

/-- When the stub counts wrong, the words on the stack are the saved state of another place:
the code segment, or the error code, stands where the instruction pointer should. -/
theorem unbalanced_words (esp above : Nat)
    (he : ∀ v, error_code = some v → v < 4294967296 ∧ v ≠ c.eip) (hne : c.cs ≠ c.eip)
    (hb : ¬ CountsRight interrupt error_code) :
    ∃ (state : isr_cpu_state_t) (rest : List Nat),
      stateWords c esp interrupt error_code ++ [above] = state.words ++ rest ∧
      state.ds = c.dsWord ∧ state.eip ≠ c.eip := by
  unfold CountsRight at hb
  unfold stateWords Cpu.entryWords stubWords
  by_cases hcode : ExcCode interrupt
  · rw [if_pos hcode] at hb
    cases error_code with
    | some v => exact absurd ⟨v, rfl, (he v rfl).1⟩ hb
    | none =>
      rw [if_pos hcode]
      unfold Cpu.outerWords
      by_cases h : 0 < c.cpl
      · rw [if_pos h]
        exact ⟨⟨c.dsWord, c.reg .edi, c.reg .esi, c.reg .ebp, esp, c.reg .ebx, c.reg .edx,
          c.reg .ecx, c.reg .eax, interrupt, c.eip, c.cs, c.eflags, c.esp, 0, 0⟩, [c.ss, above],
          rfl, rfl, hne⟩
      · rw [if_neg h]
        exact ⟨⟨c.dsWord, c.reg .edi, c.reg .esi, c.reg .ebp, esp, c.reg .ebx, c.reg .edx,
          c.reg .ecx, c.reg .eax, interrupt, c.eip, c.cs, c.eflags, above, 0, 0⟩, [],
          rfl, rfl, hne⟩
  · rw [if_neg hcode] at hb
    cases error_code with
    | none => exact absurd rfl hb
    | some v =>
      rw [if_neg hcode]
      refine ⟨⟨c.dsWord, c.reg .edi, c.reg .esi, c.reg .ebp, esp, c.reg .ebx, c.reg .edx,
        c.reg .ecx, c.reg .eax, interrupt, 0, v, c.eip, c.cs, 0, 0⟩,
        c.eflags :: (c.outerWords.reverse ++ [above]), ?_, rfl, (he v rfl).2⟩
      simp only [List.reverse_append, List.reverse_cons, List.reverse_nil, List.nil_append,
        List.cons_append, List.append_assoc, Option.toList_some]
      rfl

/-- The second stage returns, whether the stub counts right or not, with the words above the
pointer to them as the first stage has pushed them. -/
theorem compiled_call (stubs : Stubs) (hf : Compiled frame data listeners f)
    (hc : Ready t frame data c) (hi : HasStub interrupt)
    (he : ∀ v, error_code = some v → v < 4294967296) (return_address : Nat) (s : W × Pics) :
    ∃ d u, f ((c.inStub t stubs interrupt error_code).entered.push return_address, s) =
        some (d, u) ∧
      d.esp = (c.inStub t stubs interrupt error_code).entered.esp ∧ d.cpl = 0 ∧
      Words d.mem (d.esp + 4) (stateWords c (c.inStub t stubs interrupt error_code).esp interrupt
        error_code) ∧
      d.esp + 4 * (10 + (c.entryWords interrupt error_code).length) = c.kernelEsp t := by
  have hcall := at_call stubs hc.interruptible hi he
  have hlen := hcall.esp
  have hroom := hc.room
  have htop := hc.interruptible.top
  have hshort := entryWords_length_le c interrupt error_code
  have hstate : (stateWords c (c.inStub t stubs interrupt error_code).esp interrupt
      error_code).length = 9 + (c.entryWords interrupt error_code).length := by
    unfold stateWords
    rw [List.length_append, List.length_reverse]
    rfl
  have hwords := hcall.words
  have hcs := hcall.cs
  generalize (c.inStub t stubs interrupt error_code).entered = e at *
  have hesp : (e.push return_address).esp = e.esp - 4 := by
    rw [Cpu.push_esp, sub32_eq (by omega) (by omega)]
  have hmem : (e.push return_address).mem = store32 e.mem (e.esp - 4) return_address := by
    rw [Cpu.push_mem, sub32_eq (by omega) (by omega)]
  obtain ⟨d, hreturn, hdesp, hdcs, -, -, hdmem⟩ :=
    hf (e.push return_address) s (by omega) (by omega)
  rw [hesp, Nat.sub_add_cancel (by omega)] at hdesp
  refine ⟨d, _, hreturn, hdesp, ?_, ?_, by omega⟩
  · rw [Cpu.cpl, hdcs, show (e.push return_address).cs = e.cs from rfl, hcs]
  · rw [hdesp]
    refine (words_congr fun x h1 h2 => ?_).mpr hwords
    rw [hdmem x (fun hx => by
      have hapart := hc.data x hx
      omega) (by omega), hmem, store32_frame _ _ (by omega)]

/-- An interrupt comes back to the interrupted program, which does not notice it, if and only
if its stub counts right. -/
theorem handle_comes_back (ht : KernelTables t stubs) (hf : Compiled frame data listeners f)
    (hc : Ready t frame data c) (hi : HasStub interrupt)
    (he : ∀ v, error_code = some v → v < 4294967296 ∧ v ≠ c.eip) (hne : c.cs ≠ c.eip)
    (return_address : Nat) (s : W × Pics) :
    (∃ d u, handle t return_address f interrupt error_code (c, s) = some (d, u) ∧
      Unnoticed t frame data c d) ↔ CountsRight interrupt error_code := by
  have hlt : ∀ v, error_code = some v → v < 4294967296 := fun v h => (he v h).1
  constructor
  · rintro ⟨e, u, hreturn, hback⟩
    by_contra hb
    obtain ⟨d, u', hcall, hdesp, hdcpl, hwords, hlen⟩ :=
      compiled_call stubs hf hc hi hlt return_address s
    obtain ⟨state, rest, hstate, hds, heip⟩ := unbalanced_words
      (c.inStub t stubs interrupt error_code).esp (load32 d.mem (c.kernelEsp t)) he hne hb
    -- The words of the other state are on the stack.
    have hall : Words d.mem (d.esp + 4) (state.words ++ rest) := by
      rw [← hstate, words_append]
      refine ⟨hwords, ?_, trivial⟩
      congr 1
      unfold stateWords
      simp only [List.length_append, List.length_reverse, List.length_cons, List.length_nil]
      omega
    have hload : t.loads 0 (state.ds % 65536) = true := by
      have hlow : c.dsWord % 65536 = c.seg .ds :=
        savedState_ds hc.interruptible.sized 0 interrupt error_code
      rw [hds, hlow]
      exact Descriptors.loads_kernel hc.interruptible.ds
    rw [handle_eq ht hc.interruptible hi hlt hcall hdesp hdcpl (words_append.mp hall).1 hload,
      Option.map_eq_some_iff] at hreturn
    obtain ⟨e', hiret, heq⟩ := hreturn
    cases heq
    -- `iret` goes where that state says.
    have hgoes : e.eip = state.eip := by
      have hspot := (words_append.mp hall).1
      simp only [isr_cpu_state_t.words, words_cons, words_nil, Nat.add_assoc,
        Nat.reduceAdd] at hspot
      rw [Cpu.iret_eip hiret]
      exact hspot.2.2.2.2.2.2.2.2.2.2.2.1
    exact heip (hgoes.symm.trans hback.eip)
  · intro hb
    obtain ⟨d, hreturn, hback⟩ := handle_unnoticed ht hf hc hi hb return_address s
    exact ⟨d, _, hreturn, hback⟩

end

/-! ## Software interrupts -/

section

variable (t : Descriptors) (return_address : Nat) (isr_stage2 : Cpu × W → Option (Cpu × W))

/-- `int n` in a program, up to the `iret` of its stub. -/
def int (n : Nat) (s : Cpu × W) : Option (Cpu × W) :=
  (s.1.software_interrupt t n).bind fun c =>
    run (exec t return_address isr_stage2) (c, s.2) (stub n)

/-- The cases of the switch are the numbers of the exceptions. -/
def isr_interrupt (i : Int) (s : Cpu × W) : Option (Cpu × W) :=
  if 0 ≤ i ∧ i < 0x20 then int t return_address isr_stage2 i.toNat s else some s

end

section

variable {t : Descriptors} {stubs : Stubs} {frame : Nat} {data : Nat → Prop}
  {listeners : Nat → Option (isr_cpu_state → W → W)}
  {f : Cpu × (W × Pics) → Option (Cpu × (W × Pics))} {c : Cpu}

/-- The gate of the system call is open to all programs, and the others to the kernel only. -/
theorem int_eq (ht : KernelTables t stubs) (return_address n : Nat) (s : W × Pics) :
    int t return_address f n (c, s) =
      if HasStub n ∧ (n = SYSCALL_INTERRUPT ∧ c.cpl ≤ 3 ∨ c.cpl = 0) then
        handle t return_address f n none (c, s)
      else none := by
  unfold int Cpu.software_interrupt handle
  rw [ht.gate]
  by_cases hi : HasStub n
  · rw [if_pos hi]
    dsimp only
    rw [show (stubs.gate n).privilege_level = if n = SYSCALL_INTERRUPT then 3 else 0 from rfl]
    by_cases hs : n = SYSCALL_INTERRUPT
    · rw [if_pos hs]
      by_cases h3 : c.cpl ≤ 3
      · rw [if_pos h3, if_pos ⟨hi, Or.inl ⟨hs, h3⟩⟩]
      · rw [if_neg h3, if_neg (by omega)]
        rfl
    · rw [if_neg hs]
      by_cases h0 : c.cpl = 0
      · rw [if_pos (Nat.le_of_eq h0), if_pos ⟨hi, Or.inr h0⟩]
      · have hno : ¬ (HasStub n ∧ (n = SYSCALL_INTERRUPT ∧ c.cpl ≤ 3 ∨ c.cpl = 0)) := by
          rintro ⟨-, ⟨hs', -⟩ | h0'⟩
          · exact hs hs'
          · exact h0 h0'
        rw [if_neg (by omega), if_neg hno]
        rfl
  · rw [if_neg hi, if_neg (fun h => hi h.1)]
    rfl

theorem int_comes_back (ht : KernelTables t stubs) (hf : Compiled frame data listeners f)
    (hc : Ready t frame data c) (hne : c.cs ≠ c.eip) (return_address n : Nat) (s : W × Pics) :
    (∃ d u, int t return_address f n (c, s) = some (d, u) ∧ Unnoticed t frame data c d) ↔
      n = SYSCALL_INTERRUPT ∨ c.cpl = 0 ∧ n < 48 ∧ ¬ ExcCode n := by
  have hcpl : c.cpl ≤ 3 := Nat.le_of_lt_succ (Nat.mod_lt _ (by decide))
  rw [int_eq ht]
  by_cases hopen : HasStub n ∧ (n = SYSCALL_INTERRUPT ∧ c.cpl ≤ 3 ∨ c.cpl = 0)
  · rw [if_pos hopen, handle_comes_back ht hf hc hopen.1 (by rintro v ⟨⟩) hne, countsRight_none]
    unfold HasStub at hopen
    constructor
    · intro hcode
      rcases hopen with ⟨hlow | hs, ⟨hs', -⟩ | h0⟩
      · exact Or.inl hs'
      · exact Or.inr ⟨h0, hlow, hcode⟩
      · exact Or.inl hs'
      · exact Or.inl hs
    · rintro (rfl | ⟨-, -, hcode⟩)
      · decide
      · exact hcode
  · rw [if_neg hopen]
    constructor
    · rintro ⟨d, u, h, -⟩
      cases h
    · rintro (hs | ⟨h0, hlow, -⟩)
      · exact absurd ⟨Or.inr hs, Or.inl ⟨hs, hcpl⟩⟩ hopen
      · exact absurd ⟨Or.inl hlow, Or.inr h0⟩ hopen

/-- Of the interrupts that a program raises itself, the system call comes back from every
privilege level; the others come back to the kernel only, and not those whose stub counts on
an error code, which `int` does not push. -/
theorem which_software_interrupts_come_back (ht : KernelTables t stubs)
    (hf : Compiled frame data listeners f) (hc : Ready t frame data c) (hne : c.cs ≠ c.eip)
    (return_address : Nat) (s : W × Pics) :
    (∀ n, (∃ d u, int t return_address f n (c, s) = some (d, u) ∧ Unnoticed t frame data c d) ↔
      n = SYSCALL_INTERRUPT ∨ c.cpl = 0 ∧ n < 48 ∧ ¬ ExcCode n) ∧
    (c.cpl = 0 → ∀ i : Int, (∃ d u, isr_interrupt t return_address f i (c, s) = some (d, u) ∧
      Unnoticed t frame data c d) ↔ ¬ (0 ≤ i ∧ ExcCode i.toNat)) := by
  refine ⟨fun n => int_comes_back ht hf hc hne return_address n s, fun h0 i => ?_⟩
  unfold isr_interrupt
  by_cases hi : 0 ≤ i ∧ i < 0x20
  · rw [if_pos hi, int_comes_back ht hf hc hne]
    have hlow : i.toNat < 48 := by omega
    have hno : i.toNat ≠ SYSCALL_INTERRUPT := by
      unfold SYSCALL_INTERRUPT
      omega
    constructor
    · rintro (hs | ⟨-, -, hcode⟩) ⟨-, hexc⟩
      · exact hno hs
      · exact hcode hexc
    · intro hnot
      exact Or.inr ⟨h0, hlow, fun hexc => hnot ⟨hi.1, hexc⟩⟩
  · rw [if_neg hi]
    constructor
    · rintro - ⟨hle, hexc⟩
      unfold ExcCode at hexc
      omega
    · intro _
      exact ⟨c, s, rfl, Unnoticed.refl t frame data c⟩

/-! ## Programs and hardware interrupts -/

/-- The processor takes a hardware interrupt between two instructions, when its flag allows
that and the controllers deliver one. -/
def take_irq (t : Descriptors) (return_address : Nat)
    (isr_stage2 : Cpu × (W × Pics) → Option (Cpu × (W × Pics))) (s : Cpu × (W × Pics))
    (irq : Fin 16) : Option (Cpu × (W × Pics)) :=
  if field s.1.eflags 9 1 = 1 then
    (deliver s.2.2 irq).bind fun d =>
      handle t return_address isr_stage2 d.2 none (s.1, (s.2.1, d.1))
  else none

/-- A step of the program, or a hardware interrupt. -/
def interruptedStep {ι : Type} (t : Descriptors) (return_address : Nat)
    (isr_stage2 : Cpu × (W × Pics) → Option (Cpu × (W × Pics))) (step : Cpu → ι → Option Cpu)
    (s : Cpu × (W × Pics)) : ι ⊕ Fin 16 → Option (Cpu × (W × Pics))
  | .inl i => (step s.1 i).map fun c => (c, s.2)
  | .inr irq => take_irq t return_address isr_stage2 s irq

/-- A program that does not look at what interrupts leave. `view` says which processors it
cannot tell apart. -/
structure Oblivious {ι : Type} (t : Descriptors) (frame : Nat) (data : Nat → Prop)
    (step : Cpu → ι → Option Cpu) (view : Cpu → Cpu → Prop) : Prop where
  ready : ∀ a c, view a c → Ready t frame data c
  interrupted : ∀ a c d, view a c → Unnoticed t frame data c d → view a d
  step : ∀ a c i c', view a c → step c i = some c' → ∃ a', step a i = some a' ∧ view a' c'

theorem deliver_code {p q : Pics} {irq : Fin 16} {code : Nat} (hp : p.Programmed)
    (h : deliver p irq = some (q, code)) : code = 32 + irq := by
  have hirq := irq.isLt
  unfold deliver at h
  by_cases hlow : irq < 8
  · have hlt : irq.val < 8 := hlow
    rw [if_pos hlow, Option.ite_none_right_eq_some] at h
    obtain ⟨-, heq⟩ := h
    cases heq
    rw [Chip.vector, hp.master.icw2, Fin.val_ofNat]
    omega
  · have hge : ¬ irq.val < 8 := hlow
    rw [if_neg hlow, Option.ite_none_right_eq_some] at h
    obtain ⟨-, heq⟩ := h
    cases heq
    rw [Chip.vector, hp.slave.icw2, Fin.val_ofNat]
    omega

/-- A hardware interrupt that is taken does to the machine what the second stage does, and
nothing to the program. -/
theorem take_irq_eq (ht : KernelTables t stubs) (hf : Compiled frame data listeners f)
    (hc : Ready t frame data c) {s : W × Pics} (hp : s.2.Programmed) {return_address : Nat}
    {irq : Fin 16} {r : Cpu × (W × Pics)}
    (h : take_irq t return_address f (c, s) irq = some r) :
    handle_irq listeners s irq = some r.2 ∧ Unnoticed t frame data c r.1 := by
  unfold take_irq at h
  rw [Option.ite_none_right_eq_some, Option.bind_eq_some_iff] at h
  obtain ⟨-, ⟨q, code⟩, hdeliver, hrun⟩ := h
  have hcode := deliver_code hp hdeliver
  have hirq := irq.isLt
  have hi : HasStub code := Or.inl (by omega)
  have hb : CountsRight code none := by
    rw [countsRight_none]
    unfold ExcCode
    omega
  obtain ⟨d, hreturn, hback⟩ := handle_unnoticed ht hf hc hi hb return_address (s.1, q)
  dsimp only at hrun
  rw [hreturn] at hrun
  cases hrun
  refine ⟨?_, hback⟩
  unfold handle_irq
  rw [hdeliver]
  rfl

theorem apart_irq {ι : Type} {step : Cpu → ι → Option Cpu} {view : Cpu → Cpu → Prop}
    (ht : KernelTables t stubs) (hf : Compiled frame data listeners f)
    (ho : Oblivious t frame data step view) (return_address : Nat) :
    Apart (interruptedStep t return_address f step) step (handle_irq listeners) view
      (fun s => s.2.Programmed) where
  first a c s i c' s' hview h := by
    obtain ⟨d, hstep, heq⟩ := Option.map_eq_some_iff.mp h
    cases heq
    exact ⟨rfl, ho.step a c i c' hview hstep⟩
  second a c s irq c' s' hview hp h := by
    obtain ⟨hirq, hback⟩ := take_irq_eq ht hf (ho.ready a c hview) hp h
    exact ⟨hirq, (handle_irq_cases hp hirq).1, ho.interrupted a c c' hview hback⟩

/-- Whatever the processor takes, it takes when the controllers deliver it and the program
lets it. -/
theorem take_irq_taken (ht : KernelTables t stubs) (hf : Compiled frame data listeners f)
    (hc : Ready t frame data c) {s : W × Pics} (hp : s.2.Programmed) (return_address : Nat)
    {irq : Fin 16} (hflag : field c.eflags 9 1 = 1) {d : Pics × Nat}
    (h : deliver s.2 irq = some d) : ∃ r, take_irq t return_address f (c, s) irq = some r := by
  have hcode : d.2 = 32 + irq := deliver_code hp h
  have hirq := irq.isLt
  have hb : CountsRight d.2 none := by
    rw [countsRight_none]
    unfold ExcCode
    omega
  obtain ⟨e, hreturn, -⟩ :=
    handle_unnoticed ht hf hc (Or.inl (by omega)) hb return_address (s.1, d.1)
  refine ⟨(e, isr_stage2 listeners ⟨d.2⟩ (s.1, d.1)), ?_⟩
  unfold take_irq
  dsimp only
  rw [if_pos hflag, h]
  exact hreturn

/-- However the instructions of a program and the hardware interrupts of the programmed
controllers interleave: the program gets where it gets alone, and the rest of the machine
where the second stage alone brings it. -/
theorem programs_and_interrupts_run_apart {ι : Type} {step : Cpu → ι → Option Cpu}
    {view : Cpu → Cpu → Prop} (ht : KernelTables t stubs)
    (hf : Compiled frame data listeners f) (ho : Oblivious t frame data step view)
    (return_address : Nat) {a c' : Cpu} {w : W} {p : Pics} {s' : W × Pics}
    {es : List (ι ⊕ Fin 16)} (hview : view a a)
    (hrun : run (interruptedStep t return_address f step) (a, (w, pic_8259_init p)) es =
      some (c', s')) :
    (∃ a', run step a (firsts es) = some a' ∧ view a' c') ∧
      run (handle_irq listeners) (w, pic_8259_init p) (seconds es) = some s' :=
  run_apart (apart_irq ht hf ho return_address) hview (pic_8259_init_programmed p) hrun

end

/-! ## A program on the tables of the boot -/

/-- A second stage without listeners, in a frame of no size. -/
def sampleStage2 (s : Cpu × (Unit × Pics)) : Option (Cpu × (Unit × Pics)) :=
  some (s.1.drop 4, isr_stage2 noListeners ⟨load32 s.1.mem (load32 s.1.mem (s.1.esp + 4) + 36)⟩ s.2)

theorem sample_compiled : Compiled 0 (fun _ => False) noListeners sampleStage2 := by
  intro k s _ htop
  refine ⟨k.drop 4, rfl, ?_, rfl, rfl, rfl, fun _ _ _ => rfl⟩
  unfold Cpu.drop
  rw [Cpu.esp_setReg, if_pos rfl, add32_eq (by omega)]

theorem sample_ready {c : Cpu} (hsized : c.Sized) (hflat : c.Flat) (hcs : c.cs = 0x1B) :
    Ready sampleBoot 0 (fun _ => False) c := by
  refine ⟨sample_interruptible hsized hflat hcs, ?_, fun _ h => h.elim⟩
  rw [sample_user_stack hcs]
  decide

/-- The system call of a user program. -/
theorem a_system_call_comes_back : ∃ d u,
    int sampleBoot 0xC0103000 sampleStage2 0x80 (sampleUser, ((), poweredPics)) = some (d, u) ∧
      Unnoticed sampleBoot 0 (fun _ => False) sampleUser d :=
  ((which_software_interrupts_come_back sample_boot_kernel sample_compiled
    (sample_ready sample_user_sized sample_user_flat rfl) (by decide) 0xC0103000
      ((), poweredPics)).1 0x80).mpr (Or.inl rfl)

/-- A program that only moves on. -/
def sampleStep (c : Cpu) (_ : Unit) : Option Cpu :=
  some { c with eip := (c.eip + 1) % 4294967296 }

/-- It cannot tell two processors apart at one of its instructions. -/
def sampleView (a c : Cpu) : Prop := a.eip = c.eip ∧ c.Sized ∧ c.Flat ∧ c.cs = 0x1B

theorem sample_oblivious : Oblivious sampleBoot 0 (fun _ => False) sampleStep sampleView where
  ready _ _ h := sample_ready h.2.1 h.2.2.1 h.2.2.2
  interrupted a c d h hback := by
    obtain ⟨heip, hsized, hflat, hcs⟩ := h
    have hseg : ∀ sr, d.seg sr < 65536 := by
      intro sr
      rcases hback.seg sr with hsr | hsr
      · rw [hsr]
        exact hsized.seg .ds
      · rw [hsr]
        exact hsized.seg sr
    have hds : d.seg .ds = c.seg .ds := by
      rcases hback.seg .ds with hsr | hsr <;> exact hsr
    refine ⟨heip.trans hback.eip.symm, ⟨?_, hseg, ?_, ?_, ?_, ?_⟩, ⟨?_, ?_⟩, hback.cs.trans hcs⟩
    · rw [hback.reg]
      exact hsized.reg
    · rw [hback.cs]
      exact hsized.cs
    · rw [hback.ss]
      exact hsized.ss
    · rw [hback.eip]
      exact hsized.eip
    · rw [hback.eflags]
      exact hsized.eflags
    · rw [hback.eflags]
      exact hflat.vm
    · rw [hback.cs, hback.ss, hds]
      exact hflat.segments
  step a c i c' h hstep := by
    obtain ⟨heip, hsized, hflat, hcs⟩ := h
    cases hstep
    refine ⟨_, rfl, by rw [heip], ⟨hsized.reg, hsized.seg, hsized.cs, hsized.ss, ?_,
      hsized.eflags⟩, ⟨hflat.vm, hflat.segments⟩, hcs⟩
    exact Nat.mod_lt (c.eip + 1) (by decide)

/-- The keyboard between two instructions of a user program. -/
theorem the_keyboard_and_a_program_run_apart : ∃ (c' : Cpu) (s' : Unit × Pics),
    run (interruptedStep sampleBoot 0xC0103000 sampleStage2 sampleStep)
      (sampleUser, ((), pic_8259_init poweredPics)) [.inl (), .inr 1, .inl ()] = some (c', s') ∧
    c'.eip = 0x00100002 ∧
    run (handle_irq noListeners) ((), pic_8259_init poweredPics) [1] = some s' := by
  have hview : sampleView sampleUser sampleUser :=
    ⟨rfl, sample_user_sized, sample_user_flat, rfl⟩
  obtain ⟨next, hnext, hready⟩ := sample_oblivious.step sampleUser sampleUser () _ hview rfl
  obtain ⟨⟨d, u⟩, htake⟩ := take_irq_taken sample_boot_kernel sample_compiled
    (sample_oblivious.ready _ _ hready) (s := ((), pic_8259_init poweredPics))
    (pic_8259_init_programmed poweredPics) 0xC0103000 (by decide)
    (show deliver (pic_8259_init poweredPics) 1 = some _ from rfl)
  have hmoves : ∀ c s, interruptedStep sampleBoot 0xC0103000 sampleStage2 sampleStep (c, s)
      (.inl ()) = some ({ c with eip := (c.eip + 1) % 4294967296 }, s) := fun _ _ => rfl
  have htaken : interruptedStep sampleBoot 0xC0103000 sampleStage2 sampleStep
      ({ sampleUser with eip := (sampleUser.eip + 1) % 4294967296 },
        ((), pic_8259_init poweredPics)) (.inr 1) = some (d, u) := htake
  have hrun : run (interruptedStep sampleBoot 0xC0103000 sampleStage2 sampleStep)
      (sampleUser, ((), pic_8259_init poweredPics)) [.inl (), .inr 1, .inl ()] =
      some ({ d with eip := (d.eip + 1) % 4294967296 }, u) := by
    rw [run_next (hmoves sampleUser _), run_next htaken, run_next (hmoves d u)]
    rfl
  obtain ⟨⟨a', hfirsts, hlast⟩, hseconds⟩ := programs_and_interrupts_run_apart
    sample_boot_kernel sample_compiled sample_oblivious 0xC0103000 hview hrun
  cases hfirsts
  exact ⟨_, u, hrun, hlast.1.symm.trans (by decide), hseconds⟩

end sakana_os
