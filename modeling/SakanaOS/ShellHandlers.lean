-- The handlers of the shell: each returns and leaves the blocks of the heap as they were. Those
-- of the drives do so when the driver refuses the range.
import SakanaOS.ShellBlocks

open byte_memory block_tiling chains

namespace sakana_os

open in_memory

/-! ## Help -/

section

variable {live pinned written l : List Nat} {s argv : Nat} {t : ShellState}

theorem CommandList.next {k : Kheap} {front nodes : List Nat} {a : Nat}
    (h : CommandList k live pinned s (front ++ a :: nodes)) :
    a ≠ NULL ∧ node_next k.mem a = nodes.headD NULL := by
  exact ⟨(h.isList.address a (by simp)).1, (chain_middle h.isList.chain).2⟩

theorem help_loop_serves {turns i : Nat} {front nodes : List Nat} (hlen : nodes.length < turns)
    (h : ShellAt t.kheap live pinned written s (front ++ nodes)) :
    Serves live pinned written t (shell_help_loop s turns (nodes.headD NULL) i t) := by
  induction nodes generalizing front turns i t with
  | nil =>
    obtain ⟨turns, rfl⟩ := Nat.exists_eq_succ_of_ne_zero (Nat.ne_of_gt hlen)
    unfold shell_help_loop
    exact serves_done h.commands.heap () rfl
  | cons a nodes ih =>
    obtain ⟨turns, rfl⟩ := Nat.exists_eq_succ_of_ne_zero (Nat.ne_of_gt (Nat.zero_lt_of_lt hlen))
    have ha : a ∈ front ++ a :: nodes := by simp
    obtain ⟨name, hname⟩ := h.named a ha
    obtain ⟨str, hstr, -⟩ := cstring_at_exists (string_at_eq hname.chars hname.fits)
    have hstr : cstring_at t.mem (command_name t.mem (node_data t.mem a)) = some str := hstr
    unfold shell_help_loop
    rw [List.headD_cons, if_neg h.commands.next.1]
    simp only [hstr]
    apply (h.print helpFormat_takes rfl).andThen
    intro _ t' hkept
    have hnext : node_next t'.mem a = nodes.headD NULL := (h.kept hkept).commands.next.2
    rw [hnext]
    have hafter : ShellAt t'.kheap live pinned written s ((front ++ [a]) ++ nodes) := by
      rw [List.append_assoc, List.singleton_append]
      exact h.kept hkept
    exact ih (Nat.lt_of_succ_lt_succ hlen) hafter

theorem help_serves (argc argv : Nat) (h : ShellAt t.kheap live pinned written s l) :
    Serves live pinned written t (shell_execute_help s argc argv t) := by
  have hhead : list_head t.mem (shell_commands_list t.mem s) = l.headD NULL :=
    h.commands.isList.head
  unfold shell_execute_help
  rw [hhead]
  have hall : ShellAt t.kheap live pinned written s ([] ++ l) := h
  apply (help_loop_serves h.commands.isList.length_lt hall).andThen
  intro _ t' hkept
  exact serves_done hkept.heap 0 rfl

/-! ## The log -/

/-- The records of the log lie outside the heap, and their texts end in them. -/
def LogReady (log_buffer : circular_buffer) (k : Kheap) : Prop :=
  ∀ e ∈ circular_buffer_foreach log_buffer,
    (e + SIZEOF_KMESSAGE_LOG ≤ k.kheap_base ∨ k.kheap_base + KHEAP_HEAP_SIZE ≤ e) ∧
      ∃ n < MSG_LOG_SIZE, k.mem (e + 4 + n) = 0

theorem LogReady.after {log_buffer : circular_buffer} {k k' : Kheap} (h : LogReady log_buffer k)
    (hout : SameOutside k k') : LogReady log_buffer k' := by
  intro e he
  obtain ⟨hplace, n, hn, hnul⟩ := h e he
  rw [hout.place.base]
  refine ⟨hplace, n, hn, ?_⟩
  unfold SIZEOF_KMESSAGE_LOG at hplace
  unfold MSG_LOG_SIZE at hn
  rw [hout.mem _ (by omega), hnul]

theorem puts_if_kheap (p : Prop) [Decidable p] (u : ShellState) (str : String) :
    (if p then stream_puts u str else u).kheap = u.kheap := by
  split
  · rfl
  · rfl

theorem message_turn_returns {e : Nat} (hnul : ∃ n < MSG_LOG_SIZE, t.mem (e + 4 + n) = 0) :
    ∃ t', shell_message_turn t e = .done () t' ∧ t'.kheap = t.kheap := by
  obtain ⟨n, hn, hnul⟩ := hnul
  unfold MSG_LOG_SIZE at hn
  obtain ⟨chars, hchars⟩ := string_at_exists 4294967296 (by omega) hnul
  have hputs : ∀ u : ShellState, u.kheap = t.kheap →
      ∃ v, stream_puts_at u (e + 4) = .done () v ∧ v.kheap = t.kheap := by
    intro u hu
    have hmem : u.mem = t.mem := congrArg Kheap.mem hu
    unfold stream_puts_at
    rw [hmem, hchars]
    exact ⟨_, rfl, hu⟩
  unfold shell_message_turn
  simp only
  generalize hlevels : stream_puts (ite (load32 t.mem e = KMESSAGE_LEVEL_ERROR) _ _) "] " = u
  have hu : u.kheap = t.kheap := by
    rw [← hlevels]
    show ShellState.kheap (ite _ _ _) = _
    rw [puts_if_kheap, puts_if_kheap, puts_if_kheap, puts_if_kheap]
    rfl
  obtain ⟨v, hv, hkheap⟩ := hputs u hu
  rw [hv]
  exact ⟨_, rfl, hkheap⟩

theorem message_loop_returns {elements : List Nat}
    (h : ∀ e ∈ elements, ∃ n < MSG_LOG_SIZE, t.mem (e + 4 + n) = 0) :
    ∃ t', shell_message_loop elements t = .done () t' ∧ t'.kheap = t.kheap := by
  induction elements generalizing t with
  | nil => exact ⟨t, rfl, rfl⟩
  | cons e elements ih =>
    obtain ⟨u, hturn, hu⟩ := message_turn_returns (h e List.mem_cons_self)
    have hmem : u.mem = t.mem := congrArg Kheap.mem hu
    have hrest : ∀ d ∈ elements, ∃ n < MSG_LOG_SIZE, u.mem (d + 4 + n) = 0 := by
      rw [hmem]
      exact fun d hd => h d (List.mem_cons_of_mem e hd)
    obtain ⟨t', hloop, ht'⟩ := ih hrest
    refine ⟨t', ?_, ht'.trans hu⟩
    rw [shell_message_loop, hturn, Outcome.done_andThen, hloop]

theorem message_serves {log_buffer : circular_buffer} (s argc argv : Nat)
    (h : ClientHeap t.kheap live pinned)
    (hlog : LogReady log_buffer t.kheap) :
    Serves live pinned written t (shell_execute_message log_buffer s argc argv t) := by
  obtain ⟨t', hloop, hkheap⟩ := message_loop_returns fun e he => (hlog e he).2
  unfold shell_execute_message
  rw [hloop, Outcome.done_andThen]
  exact serves_done h 0 hkheap

/-! ## The blocks of the heap -/

theorem memory_loop_serves {turns i allmemory : Nat} {front blocks : List Block}
    (hlen : blocks.length < turns) (hblocks : heap_blocks t.kheap = front ++ blocks)
    (h : ShellAt t.kheap live pinned written s l) :
    Serves live pinned written t
      (shell_memory_loop s turns (firstAddr NULL blocks) i allmemory t) := by
  induction blocks generalizing front turns i allmemory t with
  | nil =>
    obtain ⟨turns, rfl⟩ := Nat.exists_eq_succ_of_ne_zero (Nat.ne_of_gt hlen)
    unfold shell_memory_loop
    exact serves_done h.commands.heap allmemory rfl
  | cons b blocks ih =>
    obtain ⟨turns, rfl⟩ := Nat.exists_eq_succ_of_ne_zero (Nat.ne_of_gt (Nat.zero_lt_of_lt hlen))
    have hb0 : firstAddr NULL (b :: blocks) ≠ NULL := by
      obtain ⟨hbase, -, hlo, -, -⟩ := h.commands.heap.shape.inHeap (b := b) (by simp [hblocks])
      show b.addr ≠ 0
      omega
    unfold shell_memory_loop
    rw [if_neg hb0]
    apply (h.print blockFormat_takes rfl).andThen
    intro _ t' hkept
    have hafter := h.kept hkept
    have hblocks' : heap_blocks t'.kheap = front ++ b :: blocks := hkept.blocks.trans hblocks
    have hlinked := hafter.commands.heap.shape.linked
    rw [hblocks'] at hlinked
    have hnext : head_next t'.mem (firstAddr NULL (b :: blocks)) = firstAddr NULL blocks :=
      (linked_at.mp hlinked).2.1.next
    rw [hnext]
    have hrest : heap_blocks t'.kheap = (front ++ [b]) ++ blocks := by
      rw [hblocks', List.append_assoc, List.singleton_append]
    exact ih (Nat.lt_of_succ_lt_succ hlen) hrest hafter

theorem memory_serves (argc argv : Nat) (h : ShellAt t.kheap live pinned written s l) :
    Serves live pinned written t (shell_execute_memory s argc argv t) := by
  have henabled : t.kheap.kheap_enabled = true := h.commands.heap.shape.enabled
  unfold shell_execute_memory
  rw [henabled]
  apply (h.print enabledFormat_takes rfl).andThen
  intro _ t' hkept
  have hafter := h.kept hkept
  have hshape := hafter.commands.heap.shape
  have hlen := hshape.toLaid.strung.length_lt
  unfold KHEAP_HEAP_SIZE at hlen
  rw [if_pos rfl, hshape.toLaid.first]
  have hblocks : heap_blocks t'.kheap = [] ++ heap_blocks t'.kheap := rfl
  apply (memory_loop_serves (by omega) hblocks hafter).andThen
  intro allmemory t'' hkept'
  apply ((hafter.kept hkept').print totalFormat_takes rfl).andThen
  intro _ t₃ hkept₃
  exact serves_done hkept₃.heap 0 rfl

/-! ## The drives -/

theorem atoi_digits_lt {result : Nat} (h : result < 4294967296) (p : List UInt8) :
    atoi_digits result p < 4294967296 := by
  induction p generalizing result with
  | nil => exact h
  | cons c p ih =>
    unfold atoi_digits
    split
    · exact ih (add32_lt _ _)
    · exact h

theorem atoi_lt (str : List UInt8) : atoi str < 4294967296 := by
  unfold atoi
  split
  · decide
  · split_ifs
    · exact atoi_digits_lt (by decide) _
    · exact sub32_lt _ _
    · exact atoi_digits_lt (by decide) _

/-- A read of a range that the driver refuses gives the buffer back. -/
theorem ata_read_serves {d : DeviceTree} {w0 w1 w2 : List UInt8} {device : Nat}
    (h : ShellAt t.kheap live pinned written s l)
    (hargs : ArgsAt t.kheap live written argv [w0, w1, w2])
    (hdevice : storage_device d = some device) (hfound : device ≠ NULL)
    (hrefused : Refused (d.driver device) (atoi w1) (atoi w2))
    (hpos : add32 (atoi w2) 1 ≠ 0)
    (hbest : bestFit (add32 (atoi w2) 1) (heap_blocks t.kheap) ≠ none) :
    Serves live pinned written t (shell_execute_ata_read d s 3 argv t) := by
  have hheap := h.commands.heap
  have hadd : add32 (atoi w2) 1 = atoi w2 + 1 := by
    have hlt := atoi_lt w2
    unfold add32 at hpos ⊢
    omega
  have hread1 : string_at t.mem 4294967296 (load32 t.mem (argv + 4)) = some w1 :=
    hargs.read hheap (show argv + 4 = argv + 4 * 1 from rfl) rfl
  have hread2 : string_at t.mem 4294967296 (load32 t.mem (argv + 8)) = some w2 :=
    hargs.read hheap (show argv + 8 = argv + 4 * 2 from rfl) rfl
  obtain ⟨data, k₁, hkmalloc, hgot⟩ := kmalloc_grants hheap hpos hbest
  have hfits := hgot.fits
  obtain ⟨-, hbound, -⟩ := hgot.heap.bounds List.mem_cons_self
  rw [hadd] at hfits
  -- the NUL behind the bytes that nobody read
  obtain ⟨m, hm⟩ : ∃ m, m = store8 k₁.mem (add32 data (atoi w2)) 0 := ⟨_, rfl⟩
  have hend : add32 data (atoi w2) = data + atoi w2 := add32_eq (by omega)
  have hframe : ∀ x, x < data ∨ data + add32 (atoi w2) 1 ≤ x → m x = k₁.mem x := by
    intro x hx
    rw [hm, hend, store8_ne]
    omega
  have hnul : m (data + atoi w2) = 0 := by
    rw [hm, hend, store8_same]
  obtain ⟨chars, hchars⟩ := string_at_exists 4294967296 (atoi_lt w2) hnul
  have hgot₂ := hgot.filled hframe
  have hpin : data ∉ pinned := fun hpin => hgot.fresh (h.pins data hpin)
  obtain ⟨k₃, hkfree, hheap₃, hblocks₃, hkeeps₃, hout₃⟩ :=
    hgot₂.returned hheap hgot₂.heap rfl hpin
  have hkept : ∀ q ∈ live, Keeps t.kheap k₃ q :=
    fun q hq => (hgot₂.keeps q hq).trans (hkeeps₃ q hq)
  have hdone : ∃ t', shell_execute_ata_read d s 3 argv t = .done 0 t' ∧ t'.kheap = k₃ := by
    unfold shell_execute_ata_read ata_read
    simp only [if_true, hread1, hread2, hdevice, hkmalloc, Outcome.done_lift,
      Outcome.done_andThen, hfound, if_false, transfer_refused hrefused]
    generalize hu : stream_puts _ "read: " = u
    have hkheap : u.kheap = { k₁ with mem := m } := by
      rw [← hu, hm]
      rfl
    have hmem : u.mem = m := congrArg Kheap.mem hkheap
    unfold stream_puts_at
    simp only [hmem, hchars, Outcome.done_andThen]
    have hfree : kfree (stream_puts { u with sent := u.sent ++ chars } "\n").kheap data =
        .done () k₃ := by
      rw [← hkfree, ← hkheap]
      rfl
    rw [hfree]
    exact ⟨_, rfl, rfl⟩
  obtain ⟨t', hdone, rfl⟩ := hdone
  exact ⟨0, t', hdone, leaves_of_keeps hkept, hheap₃, hblocks₃, hgot₂.outside.trans hout₃⟩

/-- A write of a range that the driver refuses takes no buffer. -/
theorem ata_write_serves (s : Nat) {d : DeviceTree} {w0 w1 w2 : List UInt8} {device : Nat}
    (h : ClientHeap t.kheap live pinned)
    (hargs : ArgsAt t.kheap live written argv [w0, w1, w2])
    (hdevice : storage_device d = some device) (hfound : device ≠ NULL)
    (hrefused : Refused (d.driver device) (atoi w1) w2.length) :
    Serves live pinned written t (shell_execute_ata_write d s 3 argv t) := by
  have hread1 : string_at t.mem 4294967296 (load32 t.mem (argv + 4)) = some w1 :=
    hargs.read h (show argv + 4 = argv + 4 * 1 from rfl) rfl
  have hread2 : string_at t.mem 4294967296 (load32 t.mem (argv + 8)) = some w2 :=
    hargs.read h (show argv + 8 = argv + 4 * 2 from rfl) rfl
  unfold shell_execute_ata_write ata_write
  simp only [if_true, hread1, hread2, hdevice, hfound, if_false, transfer_refused hrefused,
    Outcome.done_lift, Outcome.done_andThen]
  exact serves_done h 0 rfl

/-! ## Every handler -/

/-- The command moves nothing to or from the drive. -/
def TransfersNothing (drive : ata_device) : ShellCommand → List (List UInt8) → Prop
  | .ata_read, [_, w1, w2] => Refused drive (atoi w1) (atoi w2)
  | .ata_write, [_, w1, w2] => Refused drive (atoi w1) w2.length
  | _, _ => True

/-- The blocks have the room for what the command asks of the heap, and it raises no
interrupt. -/
def BufferGranted (bs : List Block) : ShellCommand → List (List UInt8) → Prop
  | .ata_read, [_, _, w2] => add32 (atoi w2) 1 ≠ 0 ∧ bestFit (add32 (atoi w2) 1) bs ≠ none
  | .interrupt, [_, _] => False
  | _, _ => True

/-- Each handler returns, with the blocks as they were. -/
theorem handler_serves {env : ShellEnv} {command : ShellCommand} {ws : List (List UInt8)}
    {device : Nat} (h : ShellAt t.kheap live pinned written s l)
    (hlog : LogReady env.log_buffer t.kheap) (hargs : ArgsAt t.kheap live written argv ws)
    (hdevice : storage_device env.devices = some device) (hfound : device ≠ NULL)
    (hnothing : TransfersNothing (env.devices.driver device) command ws)
    (hgranted : BufferGranted (heap_blocks t.kheap) command ws) :
    Serves live pinned written t (env.handler command s ws.length argv t) := by
  have hheap := h.commands.heap
  cases command with
  | help => exact help_serves ws.length argv h
  | clear => exact serves_done hheap 0 rfl
  | message => exact message_serves s ws.length argv hheap hlog
  | memory => exact memory_serves ws.length argv h
  | ata_read =>
    by_cases hlen : ws.length = 3
    · obtain ⟨w0, w1, w2, rfl⟩ := List.length_eq_three.mp hlen
      exact ata_read_serves h hargs hdevice hfound hnothing hgranted.1 hgranted.2
    · show Serves live pinned written t (shell_execute_ata_read env.devices s ws.length argv t)
      rw [shell_execute_ata_read, if_neg hlen]
      exact serves_done hheap (-1) rfl
  | ata_write =>
    by_cases hlen : ws.length = 3
    · obtain ⟨w0, w1, w2, rfl⟩ := List.length_eq_three.mp hlen
      exact ata_write_serves s hheap hargs hdevice hfound hnothing
    · show Serves live pinned written t (shell_execute_ata_write env.devices s ws.length argv t)
      rw [shell_execute_ata_write, if_neg hlen]
      exact serves_done hheap (-1) rfl
  | interrupt =>
    by_cases hlen : ws.length = 2
    · obtain ⟨w0, w1, rfl⟩ := List.length_eq_two.mp hlen
      exact hgranted.elim
    · show Serves live pinned written t
        (shell_execute_interrupt env.isr_interrupt s ws.length argv t)
      rw [shell_execute_interrupt, if_neg hlen]
      exact serves_done hheap (-1) rfl

end

end sakana_os
