-- The tables that the boot leaves in the memory are the ones that the first stage counts on.
import SakanaOS.FirstStage

open byte_memory bit_fields

namespace sakana_os

/-! ## What the first stage counts on -/

/-- The gates lead to the stubs, the two segments of the kernel can be used, and so can its
stack. -/
structure KernelTables (t : Descriptors) (stubs : Stubs) : Prop where
  gate : ∀ i, t.gate i = if HasStub i then some (stubs.gate i) else none
  code : ∃ s, t.segment 0x08 = some s ∧ s.isCode = true ∧ s.direction_conforming = 0 ∧
    s.privilege_level = 0
  data : t.loads 0 0x10 = true
  stack : t.stacks 0 t.ring0_stack.1 = true

/-- The stack pointer that the interrupt starts to push from. -/
def Cpu.kernelEsp (t : Descriptors) (c : Cpu) : Nat :=
  if 0 < c.cpl then t.ring0_stack.2 else c.esp

/-- A processor in front of an instruction of some program: its code, data and stack segments
are ones that it could have loaded, and the kernel's stack has room for an interrupt. -/
structure Interruptible (t : Descriptors) (c : Cpu) : Prop where
  sized : c.Sized
  vm : field c.eflags 17 1 = 0
  cs : t.returns_to 0 c.cs = true
  ss : t.stacks c.cpl c.ss = true
  ds : t.loads c.cpl (c.seg .ds) = true
  room : 80 ≤ c.kernelEsp t
  top : c.kernelEsp t + 4 < 4294967296

/-! ## The entry -/

namespace Cpu

/-- The processor on the stack of the kernel. -/
def onKernelStack (t : Descriptors) (c : Cpu) : Cpu :=
  if 0 < c.cpl then { c.setReg .esp t.ring0_stack.2 with ss := t.ring0_stack.1 } else c

/-- What the processor saves of the other stack. -/
def outerWords (c : Cpu) : List Nat := if 0 < c.cpl then [c.ss, c.esp] else []

/-- The processor in front of the first instruction of a stub. -/
def delivered (t : Descriptors) (stubs : Stubs) (interrupt : Nat) (error_code : Option Nat)
    (c : Cpu) : Cpu :=
  { (c.onKernelStack t).pushes (c.outerWords ++ [c.eflags, c.cs, c.eip] ++ error_code.toList) with
    eflags := gateFlags c.eflags
    cs := 0x08
    eip := stubs.entry interrupt % 2 ^ 32 }

theorem pushes_append (c : Cpu) (us vs : List Nat) :
    (c.pushes us).pushes vs = c.pushes (us ++ vs) := (List.foldl_append ..).symm

theorem pushes_esp {c : Cpu} {vs : List Nat} (h : 4 * vs.length ≤ c.esp)
    (hesp : c.esp < 4294967296) : (c.pushes vs).esp + 4 * vs.length = c.esp := by
  induction vs generalizing c with
  | nil => rfl
  | cons v vs ih =>
    rw [List.length_cons] at h ⊢
    have hfirst : (c.push v).esp = c.esp - 4 := by
      rw [push_esp, sub32_eq (by omega) hesp]
    have hrest := ih (c := c.push v) (by omega) (by omega)
    change ((c.push v).pushes vs).esp + _ = _
    omega

theorem onKernelStack_esp (t : Descriptors) (c : Cpu) :
    (c.onKernelStack t).esp = c.kernelEsp t := by
  unfold onKernelStack kernelEsp
  by_cases h : 0 < c.cpl
  · rw [if_pos h, if_pos h]
    rfl
  · rw [if_neg h, if_neg h]

/-- A gate clears the flags of interrupts and of a nested task. -/
theorem gateFlags_fields (eflags : Nat) :
    field (gateFlags eflags) 9 1 = 0 ∧ field (gateFlags eflags) 14 1 = 0 := by
  unfold gateFlags
  constructor
  · rw [field_setField_ne _ _ (by omega), field_setField_ne _ _ (by omega),
      field_setField_ne _ _ (by omega), field_setField]
    rfl
  · rw [field_setField_ne _ _ (by omega), field_setField_ne _ _ (by omega), field_setField]
    rfl

end Cpu

section

variable {t : Descriptors} {stubs : Stubs} {c : Cpu} {interrupt : Nat}

/-- An interrupt that the kernel knows is taken, at any privilege level. -/
theorem interrupt_eq (ht : KernelTables t stubs) (hvm : field c.eflags 17 1 = 0)
    (hi : HasStub interrupt) (error_code : Option Nat) :
    c.interrupt t interrupt error_code = some (c.delivered t stubs interrupt error_code) := by
  obtain ⟨s, hs, hcode, hconf, hlevel⟩ := ht.code
  have hgate : t.gate interrupt = some (stubs.gate interrupt) := by rw [ht.gate, if_pos hi]
  have hnot : ¬ s.direction_conforming = 1 := by rw [hconf]; decide
  have hstack : 0 < c.cpl → 0 = 0 ∧ t.stacks 0 t.ring0_stack.1 = true := fun _ => ⟨rfl, ht.stack⟩
  unfold Cpu.interrupt
  rw [hgate]
  dsimp only
  rw [show (stubs.gate interrupt).selector = 0x08 from rfl, hs]
  dsimp only
  rw [if_neg hnot, hlevel, if_pos ⟨hvm, hcode, Nat.zero_le _, hstack⟩]
  unfold Cpu.delivered Cpu.onKernelStack Cpu.outerWords
  by_cases h : 0 < c.cpl
  · rw [if_pos h, if_pos h, if_pos h, Cpu.pushes_append, List.append_assoc]
    rfl
  · rw [if_neg h, if_neg h, if_neg h]
    rfl

/-- A segment that a program may load is one that the kernel may load. -/
theorem Descriptors.loads_kernel {cpl selector : Nat} (h : t.loads cpl selector = true) :
    t.loads 0 selector = true := by
  unfold Descriptors.loads at *
  cases hs : t.segment selector with
  | none =>
    rw [hs] at h
    exact h
  | some s =>
    rw [hs] at h
    simp only [Bool.and_eq_true, Bool.or_eq_true, decide_eq_true_eq] at h ⊢
    obtain ⟨hread, hconf | ⟨-, hrpl⟩⟩ := h
    · exact ⟨hread, Or.inl hconf⟩
    · exact ⟨hread, Or.inr ⟨Nat.zero_le _, hrpl⟩⟩

/-- The processor has entered the stub of an interrupt: on the segments of the kernel, with
interrupts disabled, and below what it has pushed on the stack of the kernel. -/
structure EntersStub (t : Descriptors) (stubs : Stubs) (interrupt : Nat) (error_code : Option Nat)
    (c k : Cpu) : Prop where
  taken : c.interrupt t interrupt error_code = some k
  cs : k.cs = 0x08
  eip : k.eip = stubs.entry interrupt % 2 ^ 32
  ss : k.ss = if 0 < c.cpl then t.ring0_stack.1 else c.ss
  esp : k.esp + 4 * ((if 0 < c.cpl then 5 else 3) + error_code.toList.length) = c.kernelEsp t
  eflags : field k.eflags 9 1 = 0

theorem enters_stub (ht : KernelTables t stubs) (hc : Interruptible t c) (hi : HasStub interrupt)
    (error_code : Option Nat) :
    EntersStub t stubs interrupt error_code c (c.delivered t stubs interrupt error_code) := by
  have hroom := hc.room
  have htop := hc.top
  have hcode : error_code.toList.length ≤ 1 := Option.length_toList_le
  have hlen : (c.outerWords ++ [c.eflags, c.cs, c.eip] ++ error_code.toList).length =
      (if 0 < c.cpl then 5 else 3) + error_code.toList.length := by
    unfold Cpu.outerWords
    split
    · rw [List.length_append]
      rfl
    · rw [List.length_append]
      rfl
  have hesp := @Cpu.pushes_esp (c.onKernelStack t)
    (c.outerWords ++ [c.eflags, c.cs, c.eip] ++ error_code.toList)
  rw [hlen, c.onKernelStack_esp t] at hesp
  refine ⟨interrupt_eq ht hc.vm hi error_code, rfl, rfl, ?_, hesp ?_ (by omega),
    (Cpu.gateFlags_fields c.eflags).1⟩
  · refine (Cpu.same_pushes _ _).ss.trans ?_
    unfold Cpu.onKernelStack
    split
    · rfl
    · rfl
  · split
    · omega
    · omega

end

/-! ## What the boot does to the tables -/

/-- What the processor finds in the memory. -/
def BootCpu.descriptors (s : BootCpu) : Descriptors where
  gate := lookup_gate s.mem s.idtr
  segment := lookup_segment s.mem s.gdtr
  ring0_stack :=
    match lookup_segment s.mem s.gdtr s.tr with
    | none => (0, 0)
    | some tss => ring0_stack s.mem tss.base

/-- The part of `init_kernel` that sets up the tables of the processor. `stack_point` is the
stack pointer when the stack of the kernel is written down. -/
def init_tables (s : BootCpu) (a : CpuTables) (b : IdtStatics) (stubs : Stubs)
    (stack_point : Nat) : BootCpu :=
  let s := gdt_init s a
  let s := idt_init s b stubs
  let s := tss_init s a (gdt_get_selector_value .GDT_KERNEL_DATA_SELEKTOR 0) 0x0
  let m := tss_update_ring0_stack s.mem a (gdt_get_selector_value .GDT_KERNEL_DATA_SELEKTOR 0)
    stack_point
  { s with mem := m }

/-- The linker gives the statics of the two tables addresses apart, and apart from the area that
the log is allocated in. -/
structure StaticsApart (a : CpuTables) (b : IdtStatics) (log : circular_buffer) : Prop where
  cpu : a.Apart
  idt : b.Apart
  outside : ∀ x, a.Outside x ∨ b.Outside x
  cpu_log : a.ApartFrom log
  idt_log : b.ApartFrom log

variable {a : CpuTables} {b : IdtStatics}

/-- The selectors that the first stage and the gates use are those of the kernel. -/
theorem selector_code : gdt_get_selector_value .GDT_KERNEL_CODE_SELEKTOR 0 = 0x08 :=
  selector_value_eq _ (by decide)

theorem selector_data : gdt_get_selector_value .GDT_KERNEL_DATA_SELEKTOR 0 = 0x10 :=
  selector_value_eq _ (by decide)

theorem selector_task : gdt_get_selector_value .GDT_TASK_STATE_SELEKTOR 3 = 0x2B :=
  selector_value_eq _ (by decide)

/-- The memory and the registers after the set-up of the tables. -/
structure TablesSet (a : CpuTables) (b : IdtStatics) (stubs : Stubs) (stack_point : Nat)
    (s t : BootCpu) : Prop where
  gdtr : t.gdtr = ⟨a.descriptors, 47⟩
  idtr : t.idtr = ⟨b.descriptors, 2047⟩
  tr : t.tr = 0x2B
  segment : ∀ selector : gdt_selector_t, selector.Standard →
    segment_at t.mem (a.descriptor selector.index) = segmentOf 0 0xFFFFF selector.access 0xC0
  gate : ∀ interrupt < IDT_SIZE, gate_at t.mem (b.descriptor interrupt) =
    if HasStub interrupt then stubs.gate interrupt else ⟨0, 0, 0, 0, 0, 0⟩
  task : segment_at t.mem (a.descriptor 5) = segmentOf a.tss 108 0xEB 0
  stack : ring0_stack t.mem a.tss = (0x10, stack_point)
  frame : ∀ x, a.Outside x → b.Outside x → OutsideLog s.log x → t.mem x = s.mem x

theorem init_tables_spec {s : BootCpu} (h : StaticsApart a b s.log) (hlog : LogAt s.log s.mem)
    (stubs : Stubs) {stack_point : Nat} (hsp : stack_point < 4294967296) :
    TablesSet a b stubs stack_point s (init_tables s a b stubs stack_point) := by
  have hgdt := gdt_init_spec h.cpu hlog h.cpu_log
  have hidt := idt_init_spec h.idt hgdt.log
    (fun x => (h.idt_log x).imp_right fun hx => hgdt.outside.mpr hx) stubs
  have hkept := hgdt.toLogKept.trans hidt.toLogKept
  have hcpu_log : a.ApartFrom (idt_init (gdt_init s a) b stubs).log :=
    fun x => (h.cpu_log x).imp_right fun hx => hkept.outside.mpr hx
  have htask := tss_init_spec h.cpu hidt.log hcpu_log (hidt.gdtr.trans hgdt.gdtr)
    (gdt_get_selector_value .GDT_KERNEL_DATA_SELEKTOR 0) 0x0
  have hslot : ∀ x, a.Outside x → x < a.descriptor 5 ∨ a.descriptor 5 + 8 ≤ x := by
    intro x hx
    have hdescriptors := hx.1
    unfold CpuTables.descriptor SIZEOF_SEGMENT_DESCRIPTOR
    omega
  unfold init_tables
  dsimp only
  refine ⟨htask.gdtr.trans (hidt.gdtr.trans hgdt.gdtr), htask.idtr.trans hidt.idtr, htask.tr,
    fun selector hselector => ?_, fun interrupt hi => ?_, ?_, ?_, fun x ha hb hx => ?_⟩
  · -- The gates lie apart from the segments.
    have hindex : selector.index ≤ 5 := by cases selector <;> decide
    refine (segment_at_update _ h.cpu _ _ hindex).trans
      ((htask.segment h.cpu hcpu_log hselector).trans ?_)
    rw [← hgdt.segment selector hselector]
    refine segment_at_congr fun x h1 h2 => hidt.frame x ?_
      (hgdt.outside.mpr (h.cpu_log.descriptor hindex h1 h2))
    refine (h.outside x).resolve_left fun hx => ?_
    have hdescriptors := hx.1
    unfold CpuTables.descriptor SIZEOF_SEGMENT_DESCRIPTOR at h1 h2
    omega
  · rw [← hidt.gate interrupt hi]
    refine gate_at_congr fun x h1 h2 => ?_
    have hin : ¬ b.Outside x := by
      intro hx
      have hdescriptors := hx.1
      unfold IdtStatics.descriptor SIZEOF_GATE_DESCRIPTOR at h1 h2
      unfold IDT_SIZE at hi
      omega
    have ha := (h.outside x).resolve_right hin
    exact (tss_update_ring0_stack_frame _ _ _ _ ha.2.2).trans (htask.frame x (hslot x ha) ha.2.2
      (hkept.outside.mpr ((h.idt_log x).resolve_left hin)))
  · exact (segment_at_update _ h.cpu _ _ (Nat.le_refl 5)).trans htask.task
  · rw [selector_data]
    exact tss_update_ring0_stack_eq _ a (by decide) hsp
  · exact (tss_update_ring0_stack_frame _ _ _ _ ha.2.2).trans
      ((htask.frame x (hslot x ha) ha.2.2 (hkept.outside.mpr hx)).trans
        ((hidt.frame x hb (hgdt.outside.mpr hx)).trans (hgdt.frame x ha hx)))

/-- The processor once the boot has set up the tables in a memory. -/
def booted (s : BootCpu) (a : CpuTables) (b : IdtStatics) (stubs : Stubs) (stack_point : Nat) :
    Descriptors := (init_tables s a b stubs stack_point).descriptors

section

variable {s t : BootCpu} {stubs : Stubs} {stack_point : Nat}
  (h : TablesSet a b stubs stack_point s t)

include h

theorem TablesSet.lookup {selector : gdt_selector_t} (hs : selector.Standard) {r : Nat}
    (hr : r < 4) : t.descriptors.segment (gdt_get_selector_value selector r) =
      some (segmentOf 0 0xFFFFF selector.access 0xC0) := by
  unfold BootCpu.descriptors
  dsimp only
  rw [h.gdtr, lookup_descriptor _ a hs.1 hr, h.segment selector hs]

theorem TablesSet.ring0 (htss : a.tss < 4294967296) :
    t.descriptors.ring0_stack = (0x10, stack_point) := by
  have htask : lookup_segment t.mem t.gdtr t.tr = some (segmentOf a.tss 108 0xEB 0) := by
    rw [h.tr, h.gdtr, ← selector_task, lookup_descriptor _ a (by decide) (by decide)]
    exact congrArg some h.task
  have hbase : (segmentOf a.tss 108 0xEB 0).base = a.tss := Nat.mod_eq_of_lt htss
  unfold BootCpu.descriptors
  dsimp only
  rw [htask]
  dsimp only
  rw [hbase, h.stack]

theorem TablesSet.kernel (htss : a.tss < 4294967296) : KernelTables t.descriptors stubs := by
  have hdata : gdt_selector_t.GDT_KERNEL_DATA_SELEKTOR.Standard := ⟨by decide, by decide⟩
  have hsegment := h.lookup hdata (r := 0) (by decide)
  rw [selector_data] at hsegment
  refine ⟨fun interrupt => ?_, ?_, ?_, ?_⟩
  · unfold BootCpu.descriptors
    dsimp only
    rw [h.idtr]
    exact lookup_gated h.gate interrupt
  · refine ⟨segmentOf 0 0xFFFFF gdt_selector_t.GDT_KERNEL_CODE_SELEKTOR.access 0xC0, ?_, by decide,
      by decide, by decide⟩
    rw [← selector_code]
    exact h.lookup ⟨by decide, by decide⟩ (by decide)
  · unfold Descriptors.loads
    rw [hsegment]
    decide
  · unfold Descriptors.stacks
    rw [h.ring0 htss, hsegment]
    dsimp only
    decide

/-- A program on a pair of code and data segments of the same privilege may be interrupted. -/
theorem TablesSet.program {code data : gdt_selector_t} (hcode : code.Standard)
    (hdata : data.Standard) {r : Nat} (hr : r < 4)
    (hc : (segmentOf 0 0xFFFFF code.access 0xC0).isCode = true ∧
      (segmentOf 0 0xFFFFF code.access 0xC0).direction_conforming = 0 ∧
      (segmentOf 0 0xFFFFF code.access 0xC0).privilege_level = r)
    (hd : (segmentOf 0 0xFFFFF data.access 0xC0).isReadable = true ∧
      (segmentOf 0 0xFFFFF data.access 0xC0).isWritable = true ∧
      (segmentOf 0 0xFFFFF data.access 0xC0).privilege_level = r)
    {c : Cpu} (hsized : c.Sized) (hvm : field c.eflags 17 1 = 0)
    (hcs : c.cs = gdt_get_selector_value code r) (hss : c.ss = gdt_get_selector_value data r)
    (hds : c.seg .ds = gdt_get_selector_value data r) (hroom : 80 ≤ c.kernelEsp t.descriptors)
    (htop : c.kernelEsp t.descriptors + 4 < 4294967296) :
    Interruptible t.descriptors c := by
  obtain ⟨hisCode, hconforming, hlevel⟩ := hc
  obtain ⟨hreadable, hwritable, hdlevel⟩ := hd
  have hrpl : ∀ selector : gdt_selector_t, gdt_get_selector_value selector r % 4 = r := by
    intro selector
    rw [selector_value_eq _ hr]
    omega
  have hcpl : c.cpl = r := by
    rw [Cpu.cpl, hcs, hrpl]
  have hcsegment := h.lookup hcode hr
  have hdsegment := h.lookup hdata hr
  refine ⟨hsized, hvm, ?_, ?_, ?_, hroom, htop⟩
  · have hnot : ¬ (segmentOf 0 0xFFFFF code.access 0xC0).direction_conforming = 1 := by
      rw [hconforming]
      decide
    unfold Descriptors.returns_to
    rw [hcs, hcsegment]
    dsimp only
    rw [hisCode, if_neg hnot, hlevel, hrpl]
    simp
  · unfold Descriptors.stacks
    rw [hss, hdsegment]
    dsimp only
    rw [hwritable, hcpl, hdlevel, hrpl]
    simp
  · unfold Descriptors.loads
    rw [hds, hdsegment]
    dsimp only
    rw [hreadable, hcpl, hdlevel, hrpl]
    simp

end

/-- The program runs on the code, data and stack segments of the kernel, or on those of the
user. -/
structure Cpu.Flat (c : Cpu) : Prop where
  vm : field c.eflags 17 1 = 0
  segments : c.cs = 0x08 ∧ c.ss = 0x10 ∧ c.seg .ds = 0x10 ∨
    c.cs = 0x1B ∧ c.ss = 0x23 ∧ c.seg .ds = 0x23

theorem TablesSet.flat {s t : BootCpu} {stubs : Stubs} {stack_point : Nat}
    (h : TablesSet a b stubs stack_point s t) {c : Cpu} (hsized : c.Sized) (hflat : c.Flat)
    (hroom : 80 ≤ c.kernelEsp t.descriptors)
    (htop : c.kernelEsp t.descriptors + 4 < 4294967296) : Interruptible t.descriptors c := by
  obtain ⟨hvm, ⟨hcs, hss, hds⟩ | ⟨hcs, hss, hds⟩⟩ := hflat
  · have hcode : gdt_selector_t.GDT_KERNEL_CODE_SELEKTOR.Standard := ⟨by decide, by decide⟩
    have hdata : gdt_selector_t.GDT_KERNEL_DATA_SELEKTOR.Standard := ⟨by decide, by decide⟩
    refine h.program hcode hdata (r := 0) (by decide) (by decide) (by decide) hsized hvm ?_ ?_ ?_
      hroom htop
    · rw [hcs, selector_code]
    · rw [hss, selector_data]
    · rw [hds, selector_data]
  · have hcode : gdt_selector_t.GDT_USER_CODE_SELEKTOR.Standard := ⟨by decide, by decide⟩
    have hdata : gdt_selector_t.GDT_USER_DATA_SELEKTOR.Standard := ⟨by decide, by decide⟩
    have hvalue : gdt_get_selector_value .GDT_USER_DATA_SELEKTOR 3 = 0x23 :=
      selector_value_eq _ (by decide)
    refine h.program hcode hdata (r := 3) (by decide) (by decide) (by decide) hsized hvm ?_ ?_ ?_
      hroom htop
    · rw [hcs, selector_value_eq _ (by decide)]
      rfl
    · rw [hss, hvalue]
    · rw [hds, hvalue]

/-- Whatever the statics held before: once the kernel has set up its tables, every interrupt
that it knows enters its stub from the segments of the kernel and of the user, when the stack
has room for it. That is the stack whose pointer was written down last, unless the kernel itself
is interrupted. The memory outside the statics stays, but for the log. -/
theorem the_boot_sets_up_the_kernel_tables {s : BootCpu} (h : StaticsApart a b s.log)
    (hlog : LogAt s.log s.mem) (stubs : Stubs) {stack_point : Nat}
    (hsp : stack_point < 4294967296) :
    KernelTables (booted s a b stubs stack_point) stubs ∧
    (booted s a b stubs stack_point).ring0_stack = (0x10, stack_point) ∧
    (∀ c : Cpu, c.Sized → c.Flat → ∀ stack, stack = (if c.cs = 0x08 then c.esp else stack_point) →
      80 ≤ stack → stack + 4 < 4294967296 →
        Interruptible (booted s a b stubs stack_point) c ∧
        ∀ interrupt, HasStub interrupt → ∀ error_code : Option Nat, ∃ k,
          c.interrupt (booted s a b stubs stack_point) interrupt error_code = some k ∧
          k.cs = 0x08 ∧ k.eip = stubs.entry interrupt % 2 ^ 32 ∧ k.ss = 0x10 ∧
          k.esp + 4 * ((if c.cs = 0x08 then 3 else 5) + error_code.toList.length) = stack ∧
          field k.eflags 9 1 = 0) ∧
    ∀ x, a.Outside x → b.Outside x → OutsideLog s.log x →
      (init_tables s a b stubs stack_point).mem x = s.mem x := by
  have htables := init_tables_spec h hlog stubs hsp
  have htop := h.cpu.tss_top
  have hring0 : (booted s a b stubs stack_point).ring0_stack = (0x10, stack_point) :=
    htables.ring0 (by omega)
  have hkernel : KernelTables (booted s a b stubs stack_point) stubs := htables.kernel (by omega)
  refine ⟨hkernel, hring0, ?_, htables.frame⟩
  rintro c hsized hflat stack rfl hroom htop
  have hlevel : (0 < c.cpl ↔ ¬ c.cs = 0x08) ∧ (c.cs = 0x08 → c.ss = 0x10) := by
    unfold Cpu.cpl
    rcases hflat.segments with ⟨hcs, hss, -⟩ | ⟨hcs, -⟩
    · exact ⟨by omega, fun _ => hss⟩
    · exact ⟨by omega, by omega⟩
  have hstack : c.kernelEsp (booted s a b stubs stack_point) =
      if c.cs = 0x08 then c.esp else stack_point := by
    unfold Cpu.kernelEsp
    rw [hring0]
    by_cases hcs : c.cs = 0x08
    · rw [if_neg (by omega), if_pos hcs]
    · rw [if_pos (hlevel.1.mpr hcs), if_neg hcs]
  have hc : Interruptible (booted s a b stubs stack_point) c := by
    refine htables.flat hsized hflat ?_ ?_
    · rwa [← booted, hstack]
    · rwa [← booted, hstack]
  refine ⟨hc, fun interrupt hi error_code => ?_⟩
  obtain ⟨htaken, hcs', heip, hss, hesp, hflags⟩ := enters_stub hkernel hc hi error_code
  rw [hstack] at hesp
  refine ⟨_, htaken, hcs', heip, hss.trans ?_, ?_, hflags⟩
  · by_cases hcs : c.cs = 0x08
    · rw [if_neg (by omega)]
      exact hlevel.2 hcs
    · rw [if_pos (hlevel.1.mpr hcs)]
      exact congrArg Prod.fst hring0
  · rw [← hesp]
    by_cases hcs : c.cs = 0x08
    · rw [if_pos hcs, if_neg (show ¬ 0 < c.cpl by omega)]
    · rw [if_neg hcs, if_pos (hlevel.1.mpr hcs)]

/-! ## One layout of the statics -/

theorem sample_apart : StaticsApart sampleTables sampleGates sampleBootCpu.log where
  cpu := sample_tables_apart
  idt := sample_gates_apart
  outside x := by
    unfold CpuTables.Outside IdtStatics.Outside sampleTables sampleGates
    dsimp only
    omega
  cpu_log := sample_tables_log
  idt_log := sample_gates_log

/-- A user program, before the kernel's stack was ever used. -/
def sampleUser : Cpu where
  reg := fun _ => 0x00400000
  seg := fun _ => 0x23
  cs := 0x1B
  ss := 0x23
  eip := 0x00100000
  eflags := 0x202
  mem := fun _ => 0xFF

theorem sample_user_sized : sampleUser.Sized :=
  have hreg : (0x00400000 : Nat) < 4294967296 := by decide
  have hseg : (0x23 : Nat) < 65536 := by decide
  ⟨fun _ => hreg, fun _ => hseg, by decide, by decide, by decide, by decide⟩

theorem sample_user_flat : sampleUser.Flat := ⟨by decide, Or.inr ⟨rfl, rfl, rfl⟩⟩

/-- The keyboard interrupts the user program. -/
theorem the_sample_boot_sets_up_the_kernel_tables : ∃ k,
    sampleUser.interrupt (booted sampleBootCpu sampleTables sampleGates sampleStubs 0xC0300000) 33
      none = some k ∧ k.cs = 0x08 ∧ k.eip = 0xC0101210 ∧ k.ss = 0x10 ∧ k.esp = 0xC02FFFEC := by
  obtain ⟨-, -, hentries, -⟩ := the_boot_sets_up_the_kernel_tables sample_apart sample_log_at
    sampleStubs (by decide : 0xC0300000 < 4294967296)
  obtain ⟨-, hentry⟩ := hentries sampleUser sample_user_sized sample_user_flat 0xC0300000 rfl
    (by decide) (by decide)
  obtain ⟨k, htaken, hcs, heip, hss, hesp, -⟩ := hentry 33 (by decide) none
  have hesp' : k.esp + 20 = 0xC0300000 := hesp
  exact ⟨k, htaken, hcs, heip, hss, by omega⟩

end sakana_os
