-- Lines that the shell executes, one after another, and what they leave of the heap: the
-- argument vector and the buffers of the handlers are taken and given back.
import SakanaOS.ShellHandlers

open byte_memory block_tiling words runs

namespace sakana_os

open in_memory

/-! ## The commands that a line calls -/

/-- A line with the first word `w` calls the command. -/
def Calls (env : ShellEnv) (k : Kheap) (l : List Nat) (w : List UInt8) (command : ShellCommand) :
    Prop :=
  ∃ a ∈ l, StringAt k.mem (nodeName k.mem a) w ∧
    env.functions (nodeCall k.mem a) = some command

/-- Every registered function is a handler of the shell. -/
def Handled (env : ShellEnv) (k : Kheap) (l : List Nat) : Prop :=
  ∀ a ∈ l, ∃ command, env.functions (nodeCall k.mem a) = some command

section

variable {env : ShellEnv} {k k' : Kheap} {live pinned written l nodes : List Nat} {s : Nat}

/-- The commands that a line calls stay. -/
theorem ShellAt.calls_kept (h : ShellAt k live pinned written s l) (hnodes : ∀ a ∈ nodes, a ∈ l)
    (hleaves : Leaves k k' live written) {w : List UInt8} {command : ShellCommand}
    (hcalls : Calls env k' nodes w command) : Calls env k nodes w command := by
  obtain ⟨a, ha, hw, hcommand⟩ := hcalls
  obtain ⟨-, hname, hcall⟩ := h.node_kept hleaves (hnodes a ha)
  rw [hname] at hw
  rw [hcall] at hcommand
  obtain ⟨name, hat⟩ := h.named a (hnodes a ha)
  rw [hw.unique (h.name_kept hleaves hat)]
  exact ⟨a, ha, hat.chars, hcommand⟩

theorem ShellAt.handled_kept (h : ShellAt k live pinned written s l)
    (hnodes : ∀ a ∈ nodes, a ∈ l) (hleaves : Leaves k k' live written)
    (hhandled : Handled env k nodes) : Handled env k' nodes := by
  intro a ha
  rw [(h.node_kept hleaves (hnodes a ha)).2.2]
  exact hhandled a ha

end

/-! ## The loop over the commands -/

section

variable {env : ShellEnv} {live pinned written : List Nat} {s argv name device : Nat}
  {t : ShellState} {w : List UInt8} {ws : List (List UInt8)}

theorem report_serves {l : List Nat} (h : ShellAt t.kheap live pinned written s l)
    (hname : NameAt t.kheap live written name w) (errno : Int) :
    Serves live pinned written t (shell_report_errno s name errno t) := by
  unfold shell_report_errno
  by_cases hzero : errno = 0
  · rw [if_pos hzero]
    exact serves_done h.commands.heap () rfl
  · obtain ⟨str, hstr, -⟩ := cstring_at_exists (string_at_eq hname.chars hname.fits)
    have hstr : cstring_at t.mem name = some str := hstr
    rw [if_neg hzero, hstr]
    apply (h.print failedFormat_takes rfl).andThen
    intro _ t' hkept
    exact serves_done hkept.heap () rfl

/-- What the loop needs of the rest of the commands. -/
structure LoopReady (env : ShellEnv) (device : Nat) (k : Kheap)
    (live pinned written : List Nat) (s argv name : Nat) (w : List UInt8) (ws : List (List UInt8))
    (front nodes : List Nat) : Prop where
  shell : ShellAt k live pinned written s (front ++ nodes)
  log : LogReady env.log_buffer k
  args : ArgsAt k live written argv ws
  name : NameAt k live written name w
  handled : Handled env k nodes
  harmless : ∀ command, Calls env k nodes w command →
    TransfersNothing (env.devices.driver device) command ws ∧
      BufferGranted (heap_blocks k) command ws

theorem LoopReady.kept {k k' : Kheap} {front nodes : List Nat}
    (h : LoopReady env device k live pinned written s argv name w ws front nodes)
    (hkept : Kept k k' live pinned written) :
    LoopReady env device k' live pinned written s argv name w ws front nodes where
  shell := h.shell.kept hkept
  log := h.log.after hkept.outside
  args := h.args.kept hkept.toLeaves
  name := h.name.after hkept.toLeaves (fun _ hq => hq) fun _ _ hne => hne
  handled := h.shell.handled_kept (fun _ ha => List.mem_append_right front ha) hkept.toLeaves
    h.handled
  harmless command hcalls := by
    rw [hkept.blocks]
    exact h.harmless command
      (h.shell.calls_kept (fun _ ha => List.mem_append_right front ha) hkept.toLeaves hcalls)

theorem LoopReady.next {k : Kheap} {front nodes : List Nat} {a : Nat}
    (h : LoopReady env device k live pinned written s argv name w ws front (a :: nodes)) :
    LoopReady env device k live pinned written s argv name w ws (front ++ [a]) nodes where
  shell := by
    rw [List.append_assoc, List.singleton_append]
    exact h.shell
  log := h.log
  args := h.args
  name := h.name
  handled b hb := h.handled b (List.mem_cons_of_mem a hb)
  harmless command hcalls := by
    obtain ⟨b, hb, hcall⟩ := hcalls
    exact h.harmless command ⟨b, List.mem_cons_of_mem a hb, hcall⟩

/-- Every command with the name of the line is called, and the blocks stay. -/
theorem call_loop_serves {front nodes : List Nat} {turns : Nat} {unknown : Bool}
    (hlen : nodes.length < turns) (hdevice : storage_device env.devices = some device)
    (hfound : device ≠ NULL)
    (h : LoopReady env device t.kheap live pinned written s argv name w ws front nodes) :
    Serves live pinned written t
      (shell_call_loop env.calls s name ws.length argv turns (nodes.headD NULL) unknown t) := by
  induction nodes generalizing front turns unknown t with
  | nil =>
    obtain ⟨turns, rfl⟩ := Nat.exists_eq_succ_of_ne_zero (Nat.ne_of_gt hlen)
    unfold shell_call_loop
    exact serves_done h.shell.commands.heap unknown rfl
  | cons a nodes ih =>
    obtain ⟨turns, rfl⟩ := Nat.exists_eq_succ_of_ne_zero (Nat.ne_of_gt (Nat.zero_lt_of_lt hlen))
    have hlen' : nodes.length < turns := Nat.lt_of_succ_lt_succ hlen
    have ha : a ∈ front ++ a :: nodes := by simp
    obtain ⟨str, hstr⟩ := h.shell.named a ha
    have hread1 : string_at t.mem 4294967296 name = some w := string_at_eq h.name.chars h.name.fits
    have hread2 : string_at t.mem 4294967296 (command_name t.mem (node_data t.mem a)) = some str :=
      string_at_eq hstr.chars hstr.fits
    have hthen : ∀ (u : ShellState) (b : Bool), Kept t.kheap u.kheap live pinned written →
        Serves live pinned written u (shell_call_loop env.calls s name ws.length argv turns
          (node_next u.mem a) b u) := by
      intro u b hkept
      have hnext : node_next u.mem a = nodes.headD NULL :=
        (h.kept hkept).shell.commands.next.2
      rw [hnext]
      exact ih hlen' (h.kept hkept).next
    unfold shell_call_loop
    rw [List.headD_cons, if_neg h.shell.commands.next.1]
    simp only [hread1, hread2]
    by_cases hcmp : strcmp w str = 0
    · -- the line names this command
      rw [if_pos hcmp]
      obtain rfl := (strcmp_eq_zero h.name.chars.nonzero hstr.chars.nonzero).mp hcmp
      obtain ⟨command, hcommand⟩ := h.handled a List.mem_cons_self
      obtain ⟨hnothing, hgranted⟩ :=
        h.harmless command ⟨a, List.mem_cons_self, hstr.chars, hcommand⟩
      have hcall : env.calls (command_call t.mem (node_data t.mem a)) =
          some (env.handler command) := by
        have hcommand' : env.functions (command_call t.mem (node_data t.mem a)) = some command :=
          hcommand
        unfold ShellEnv.calls
        rw [hcommand', Option.map_some]
      simp only [hcall]
      apply (handler_serves h.shell h.log h.args hdevice hfound hnothing hgranted).andThen
      intro errno u hkept
      apply (report_serves (h.kept hkept).shell (h.kept hkept).name errno).andThen
      intro _ v hkept'
      exact hthen v false (hkept.trans hkept')
    · rw [if_neg hcmp]
      exact hthen t unknown (Kept.refl h.shell.commands.heap)

end

/-! ## The line -/

theorem count_spaces_spec {m : Mem} {inputs i num_ws : Nat} {line : List UInt8}
    (h : StringAt m (inputs + i) line) (hfits : num_ws + line.length < 4294967296) :
    shell_count_spaces m inputs line.length i num_ws = num_ws + line.countP isSpace := by
  induction line generalizing i num_ws with
  | nil => rfl
  | cons c line ih =>
    obtain ⟨hc, -, hrest⟩ := stringAt_cons.mp h
    rw [List.length_cons] at hfits
    rw [List.length_cons, shell_count_spaces, hc]
    by_cases hspace : c = ' '.toUInt8
    · have hcount : isSpace c = true := by
        unfold isSpace
        simp [hspace]
      rw [if_pos hspace, add32_eq (by omega), ih hrest (by omega), List.countP_cons_of_pos hcount]
      omega
    · have hcount : ¬ isSpace c = true := by
        unfold isSpace
        simp [hspace]
      rw [if_neg hspace, ih hrest (by omega), List.countP_cons_of_neg hcount]

/-- The bytes of the argument vector of a line: a slot for each space and one more. -/
def argvSize (line : List UInt8) : Nat := 4 * (line.countP isSpace + 1)

/-- The line stands in a block of its own, apart from what the shell holds. -/
structure LineAt (k : Kheap) (live pinned written : List Nat) (s : Nat) (l : List Nat)
    (inputs : Nat) (line : List UInt8) : Prop where
  shell : ShellAt k (inputs :: live) pinned (inputs :: written) s l
  writtenLive : ∀ q ∈ written, q ∈ live
  streamWritten : shell_out_stream k.mem s ∈ written
  chars : StringAt k.mem inputs line
  room : line.length < payload_size k inputs

section

variable {k k' : Kheap} {live pinned written l : List Nat} {s inputs : Nat} {line : List UInt8}

theorem LineAt.fits (h : LineAt k live pinned written s l inputs line) :
    inputs ≠ NULL ∧ inputs + line.length + 1 < 4294967296 ∧ line.length < KHEAP_HEAP_SIZE := by
  obtain ⟨h0, hlt, hlo, hhi⟩ := h.shell.commands.heap.bounds List.mem_cons_self
  have hroom := h.room
  exact ⟨h0, by omega, by omega⟩

theorem LineAt.inputs_apart (h : LineAt k live pinned written s l inputs line) :
    inputs ∉ live ∧ inputs ∉ written := by
  have hnodup := h.shell.commands.heap.nodup
  rw [List.nodup_cons] at hnodup
  exact ⟨hnodup.1, fun hmem => hnodup.1 (h.writtenLive inputs hmem)⟩

theorem LineAt.request (h : LineAt k live pinned written s l inputs line) :
    mul32 (add32 (shell_count_spaces k.mem inputs line.length 0 0) 1) 4 = argvSize line := by
  have hfits := h.fits.2.2
  have hcount : line.countP isSpace ≤ line.length := List.countP_le_length
  unfold KHEAP_HEAP_SIZE at hfits
  rw [count_spaces_spec h.chars (by omega), Nat.zero_add, add32_eq (by omega),
    mul32_eq (by omega), Nat.mul_comm]
  rfl

/-- The first token is found, and the loop makes the argument vector of the words. -/
theorem LineAt.tokens (h : LineAt k live pinned written s l inputs line) (strtok_s : Nat)
    {argv : Nat} (hgot : Obtained k k' (inputs :: live) pinned (argvSize line) argv) :
    (wordsOf isSpace line = [] ∧
      strtok ⟨k'.mem, strtok_s⟩ inputs [' '.toUInt8] = some (NULL, ⟨k'.mem, NULL⟩)) ∨
    ∃ w ws token t t', wordsOf isSpace line = w :: ws ∧ token ≠ NULL ∧
      strtok ⟨k'.mem, strtok_s⟩ inputs [' '.toUInt8] = some (token, t) ∧
      shell_argv_loop argv 4294967296 0 token t = some ((w :: ws).length, t') ∧
      ArgvAt t'.mem argv inputs (inputs + payload_size k' inputs) (w :: ws) ∧
      ∀ x, (x < argv ∨ argv + argvSize line ≤ x) → (x < inputs ∨ inputs + line.length < x) →
        t'.mem x = k'.mem x := by
  obtain ⟨h0, hlt, hshort⟩ := h.fits
  have hkeep := hgot.keeps inputs List.mem_cons_self
  have hroom := h.room
  rw [← hkeep.size] at hroom
  have hchars : StringAt k'.mem inputs line := by
    apply h.chars.congr
    intro x hx hx'
    exact hkeep.bytes x hx (by rw [hkeep.size] at hroom; omega)
  rcases strtok_next (t := ⟨k'.mem, strtok_s⟩) inputs (if_pos h0) h0 hchars (by omega) with
    hblank | ⟨q, t, w, r, rest, hstrtok, hnext⟩
  · exact Or.inl hblank
  right
  have hlen := length_wordsOf isSpace line
  rw [hnext.words, List.length_cons] at hlen
  have hfits := hgot.fits
  unfold argvSize at hfits
  have hne : argv ≠ inputs := by
    rintro rfl
    exact hgot.fresh List.mem_cons_self
  have hdis := hgot.heap.apart List.mem_cons_self (by simp : inputs ∈ argv :: inputs :: live) hne
  have hge := hnext.ge
  have hbehind := hnext.behind
  have hr := hnext.left.1
  have hq0 : q ≠ NULL := by
    have h0' : inputs ≠ 0 := h0
    show q ≠ 0
    omega
  have hapart : argv + 4 * (0 + 1 + (wordsOf isSpace rest).length) ≤ inputs ∨
      inputs + line.length + 1 ≤ argv := by omega
  have hcount : line.countP isSpace ≤ line.length := List.countP_le_length
  obtain ⟨t', hloop, hargv, hmem⟩ := argv_loop_spec (by omega) hnext.word hnext.left hge
    hbehind hapart (show (wordsOf isSpace rest).length < 4294967296 by omega)
  refine ⟨w, wordsOf isSpace rest, q, t, t', hnext.words, hq0, hstrtok, ?_, ?_, ?_⟩
  · rw [hloop, List.length_cons, Nat.zero_add, Nat.add_comm]
  · exact hargv.mono (by omega)
  · intro x hx hx'
    unfold argvSize at hx
    rw [hmem x (by omega) (by omega), hnext.mem x (by omega)]

/-- What is stored for the tokens stays in the two blocks. -/
theorem LineAt.inside (h : LineAt k live pinned written s l inputs line) {argv : Nat}
    (hgot : Obtained k k' (inputs :: live) pinned (argvSize line) argv) {m : Mem}
    (hm : ∀ x, (x < argv ∨ argv + argvSize line ≤ x) → (x < inputs ∨ inputs + line.length < x) →
      m x = k'.mem x) :
    ∀ x, (∀ p ∈ [argv, inputs], x < p ∨ p + payload_size k' p ≤ x) → m x = k'.mem x := by
  intro x hx
  have hfits := hgot.fits
  have hroom := h.room
  have hsize := (hgot.keeps inputs List.mem_cons_self).size
  have hxargv := hx argv (by simp)
  have hxinputs := hx inputs (by simp)
  exact hm x (by omega) (by omega)

/-- The tokens stand in the block of the line, and only it and the argument vector changed. -/
theorem LineAt.tokens_ready {argv : Nat} {w : List UInt8} {ws : List (List UInt8)} {m : Mem}
    (h : LineAt k live pinned written s l inputs line)
    (hgot : Obtained k k' (inputs :: live) pinned (argvSize line) argv)
    (hwords : wordsOf isSpace line = w :: ws)
    (hargv : ArgvAt m argv inputs (inputs + payload_size k' inputs) (w :: ws))
    (hm : ∀ x, (∀ p ∈ [argv, inputs], x < p ∨ p + payload_size k' p ≤ x) → m x = k'.mem x) :
    ShellAt { k' with mem := m } (argv :: inputs :: live) pinned written s l ∧
      ArgsAt { k' with mem := m } (argv :: inputs :: live) written argv (w :: ws) ∧
      Kept k' { k' with mem := m } (argv :: inputs :: live) pinned [argv, inputs] ∧
      Leaves k { k' with mem := m } (inputs :: live) (inputs :: written) := by
  obtain ⟨hinputs, hinputs'⟩ := h.inputs_apart
  have hargv' : argv ∉ written :=
    fun hmem => hgot.fresh (List.mem_cons_of_mem inputs (h.writtenLive argv hmem))
  have hown : ∀ p ∈ [argv, inputs], p ∈ argv :: inputs :: live := by
    intro p hp
    rcases List.mem_cons.mp hp with rfl | hp
    · exact List.mem_cons_self
    · rw [List.mem_singleton.mp hp]
      simp
  have hkept := write_keeps hgot.heap hown hm
  have hleaves : Leaves k { k' with mem := m } (inputs :: live) (inputs :: written) := by
    apply (leaves_of_keeps hgot.keeps).trans
    apply hkept.toLeaves.mono fun q hq => List.mem_cons_of_mem argv hq
    intro q hq hne hmem
    rcases List.mem_cons.mp hmem with rfl | hmem
    · exact hgot.fresh hq
    · rw [List.mem_singleton.mp hmem] at hne
      exact hne List.mem_cons_self
  have hlen := length_wordsOf isSpace line
  have hfits := hgot.fits
  rw [hwords] at hlen
  unfold argvSize at hfits
  refine ⟨?_, ⟨List.mem_cons_self, hargv', ?_, inputs, by simp, hinputs', ?_⟩, hkept, hleaves⟩
  · apply h.shell.after hkept.heap (fun q hq => List.mem_cons_of_mem argv hq) hleaves
    · exact fun q hq => by simp [h.writtenLive q hq]
    · exact h.streamWritten
    · exact fun q _ hne hmem => hne (List.mem_cons_of_mem inputs hmem)
  · rw [hkept.sizes argv List.mem_cons_self]
    omega
  · rw [hkept.sizes inputs (by simp)]
    exact hargv

theorem LineAt.loop_ready {env : ShellEnv} {device argv : Nat} {w : List UInt8}
    {ws : List (List UInt8)} {m : Mem} (h : LineAt k live pinned written s l inputs line)
    (hlog : LogReady env.log_buffer k) (hhandled : Handled env k l)
    (hgot : Obtained k k' (inputs :: live) pinned (argvSize line) argv)
    (hwords : wordsOf isSpace line = w :: ws)
    (hargv : ArgvAt m argv inputs (inputs + payload_size k' inputs) (w :: ws))
    (hm : ∀ x, (∀ p ∈ [argv, inputs], x < p ∨ p + payload_size k' p ≤ x) → m x = k'.mem x)
    (hharmless : ∀ command, Calls env k l w command →
      TransfersNothing (env.devices.driver device) command (w :: ws) ∧
        BufferGranted (afterTaking (argvSize line) (heap_blocks k)) command (w :: ws)) :
    LoopReady env device { k' with mem := m } (argv :: inputs :: live) pinned written s argv
        (load32 m argv) w (w :: ws) [] l ∧
      Kept k' { k' with mem := m } (argv :: inputs :: live) pinned [argv, inputs] ∧
      Leaves k { k' with mem := m } (inputs :: live) (inputs :: written) := by
  obtain ⟨hshell, hargs, hkept, hleaves⟩ := h.tokens_ready hgot hwords hargv hm
  refine ⟨⟨hshell, ?_, hargs, ?_, ?_, ?_⟩, hkept, hleaves⟩
  · exact hlog.after (hgot.outside.trans hkept.outside)
  · exact hargs.token hkept.heap (show (w :: ws)[0]? = some w from rfl)
  · exact h.shell.handled_kept (fun _ ha => ha) hleaves hhandled
  · intro command hcalls
    rw [hkept.blocks, hgot.blocks]
    exact hharmless command (h.shell.calls_kept (fun _ ha => ha) hleaves hcalls)

end

/-! ## A command -/

section

variable {env : ShellEnv} {live pinned written l : List Nat} {s inputs device : Nat}
  {line : List UInt8} {t : ShellState}

theorem argvSize_ne_zero (line : List UInt8) : argvSize line ≠ 0 := by
  unfold argvSize
  omega

/-- A line with a token that moves nothing to or from the drive leaves the blocks as they were. -/
theorem execute_command_serves (h : LineAt t.kheap live pinned written s l inputs line)
    (hlog : LogReady env.log_buffer t.kheap) (hhandled : Handled env t.kheap l)
    (hdevice : storage_device env.devices = some device) (hfound : device ≠ NULL)
    (hbest : bestFit (argvSize line) (heap_blocks t.kheap) ≠ none) {w : List UInt8}
    {ws : List (List UInt8)} (hwords : wordsOf isSpace line = w :: ws)
    (hharmless : ∀ command, Calls env t.kheap l w command →
      TransfersNothing (env.devices.driver device) command (w :: ws) ∧
        BufferGranted (afterTaking (argvSize line) (heap_blocks t.kheap)) command (w :: ws)) :
    Serves (inputs :: live) pinned (inputs :: written) t
      (shell_execute_command env.calls s inputs t) := by
  have hread : string_at t.mem 4294967296 inputs = some line :=
    string_at_eq h.chars (by have hfits := h.fits; omega)
  have hrequest : mul32 (add32 (shell_count_spaces t.mem inputs line.length 0 0) 1) 4 =
      argvSize line := h.request
  have hheap := h.shell.commands.heap
  obtain ⟨argv, k₁, hkmalloc, hgot⟩ := kmalloc_grants hheap (argvSize_ne_zero line) hbest
  unfold shell_execute_command
  simp only [hread, hrequest, hkmalloc, Outcome.done_lift, Outcome.done_andThen]
  rcases h.tokens t.strtok_s hgot with ⟨hnone, -⟩ | ⟨w', ws', token, u, u', hwords', htoken,
    hstrtok, hloop, hargv, hm⟩
  · rw [hwords] at hnone
    cases hnone
  rw [hwords] at hwords'
  cases hwords'
  obtain ⟨hready, hkept, hleaves⟩ :=
    h.loop_ready hlog hhandled hgot hwords hargv (h.inside hgot hm) hharmless
  have hstrtok' : strtok ⟨(t.setKheap k₁).mem, (t.setKheap k₁).strtok_s⟩ inputs [' '.toUInt8] =
      some (token, u) := hstrtok
  simp only [hstrtok', htoken, if_false, hloop]
  generalize hv : (t.setKheap k₁).setStrtok u' = v
  have hkheap : v.kheap = { k₁ with mem := u'.mem } := by
    rw [← hv]
    rfl
  have hmem : v.mem = u'.mem := congrArg Kheap.mem hkheap
  rw [← hkheap, ← hmem] at hready
  rw [← hkheap] at hkept hleaves
  have hhead : list_head v.mem (shell_commands_list v.mem s) = l.headD NULL :=
    hready.shell.commands.isList.head
  rw [hhead]
  have hlen : l.length < 4294967296 := hready.shell.commands.isList.length_lt
  have hserves : Serves (argv :: inputs :: live) pinned written v (shell_call_loop env.calls s
      (load32 v.mem argv) (w :: ws).length argv 4294967296 (l.headD NULL) true v) :=
    call_loop_serves hlen hdevice hfound hready
  obtain ⟨unknown, v', hcall, hkept'⟩ := hserves
  rw [hcall, Outcome.done_andThen]
  -- the argument vector is given back
  have hpin : argv ∉ pinned := fun hpin => hgot.fresh (h.shell.pins argv hpin)
  obtain ⟨k₃, hkfree, hheap₃, hblocks₃, hkeeps₃, hout₃⟩ :=
    hgot.returned hheap hkept'.heap (hkept'.blocks.trans hkept.blocks) hpin
  rw [hkfree, Outcome.done_lift, Outcome.done_andThen]
  refine ⟨(), _, rfl, ?_⟩
  have hend : (if unknown = true then stream_puts (v'.setKheap k₃) "Unknown command\n"
      else v'.setKheap k₃).kheap = k₃ := by
    split
    · rfl
    · rfl
  rw [hend]
  refine ⟨?_, hheap₃, hblocks₃, ?_⟩
  · apply (hleaves.trans (hkept'.toLeaves.mono _ _)).trans (leaves_of_keeps hkeeps₃)
    · exact fun q hq => List.mem_cons_of_mem argv hq
    · exact fun q _ hne hmem => hne (List.mem_cons_of_mem inputs hmem)
  · exact ((hgot.outside.trans hkept.outside).trans hkept'.outside).trans hout₃

/-- A blank line calls nothing and says nothing, and leaves the argument vector allocated. -/
theorem execute_blank_line (h : LineAt t.kheap live pinned written s l inputs line)
    (hbest : bestFit (argvSize line) (heap_blocks t.kheap) ≠ none)
    (hblank : wordsOf isSpace line = []) :
    ∃ t' argv, (∀ calls, shell_execute_command calls s inputs t = .done () t') ∧
      t'.sent = t.sent ∧ ClientHeap t'.kheap (argv :: inputs :: live) pinned := by
  have hread : string_at t.mem 4294967296 inputs = some line :=
    string_at_eq h.chars (by have hfits := h.fits; omega)
  have hrequest : mul32 (add32 (shell_count_spaces t.mem inputs line.length 0 0) 1) 4 =
      argvSize line := h.request
  obtain ⟨argv, k₁, hkmalloc, hgot⟩ :=
    kmalloc_grants h.shell.commands.heap (argvSize_ne_zero line) hbest
  unfold shell_execute_command
  simp only [hread, hrequest, hkmalloc, Outcome.done_lift, Outcome.done_andThen]
  rcases h.tokens t.strtok_s hgot with ⟨-, hstrtok⟩ | ⟨w, ws, -, -, -, hwords, -⟩
  · have hstrtok' : strtok ⟨(t.setKheap k₁).mem, (t.setKheap k₁).strtok_s⟩ inputs
        [' '.toUInt8] = some (NULL, ⟨k₁.mem, NULL⟩) := hstrtok
    simp only [hstrtok', if_true]
    exact ⟨_, argv, fun _ => rfl, rfl, hgot.heap⟩
  · rw [hblank] at hwords
    cases hwords

end

/-! ## The loop of the shell -/

/-- What `stream_gets` returns: the heap that it leaves, and the line at `inputs`. -/
structure Typed where
  heap : Kheap
  inputs : Nat
  line : List UInt8

/-- The prompt is printed and a line is read. -/
def shell_read (t : ShellState) (typed : Typed) : ShellState :=
  (stream_puts t "> ").setKheap typed.heap

/-- A turn of the loop of `shell_execute`. -/
def shell_execute_turn (calls : Nat → Option ShellCall) (s : Nat) (t : ShellState) (typed : Typed) :
    Outcome ShellState Unit :=
  (shell_execute_command calls s typed.inputs (shell_read t typed)).andThen fun _ t =>
    (kfree t.kheap typed.inputs).lift t.setKheap

/-- `none` when the turn does not return. -/
def shell_step (env : ShellEnv) (s : Nat) (t : ShellState) (typed : Typed) : Option ShellState :=
  match shell_execute_turn env.calls s t typed with
  | .done _ t' => some t'
  | _ => none

/-- A shell whose commands are handlers, in a kernel with a storage device. -/
structure ShellReady (env : ShellEnv) (k : Kheap) (live pinned written : List Nat) (s : Nat)
    (l : List Nat) : Prop where
  shell : ShellAt k live pinned written s l
  log : LogReady env.log_buffer k
  handled : Handled env k l
  storage : ∃ device, storage_device env.devices = some device ∧ device ≠ NULL

/-- The line stands in a new block. The others are as they were, but for the written ones. -/
structure Reads (env : ShellEnv) (k : Kheap) (live pinned written : List Nat) (typed : Typed) :
    Prop where
  heap : ClientHeap typed.heap (typed.inputs :: live) pinned
  leaves : Leaves k typed.heap live written
  log : LogReady env.log_buffer typed.heap
  chars : StringAt typed.heap.mem typed.inputs typed.line
  room : typed.line.length < payload_size typed.heap typed.inputs

/-- The heap has the room for what the line asks of it, and the line raises no interrupt. -/
structure Admitted (env : ShellEnv) (l : List Nat) (typed : Typed) : Prop where
  argv : bestFit (argvSize typed.line) (heap_blocks typed.heap) ≠ none
  buffers : ∀ w ws, wordsOf isSpace typed.line = w :: ws →
    ∀ command, Calls env typed.heap l w command →
      BufferGranted (afterTaking (argvSize typed.line) (heap_blocks typed.heap)) command (w :: ws)

/-- The drive behind the storage device. -/
def shell_drive (d : DeviceTree) : ata_device := d.driver ((storage_device d).getD NULL)

/-- The line has a token, and moves nothing to or from the drive. -/
def Releases (env : ShellEnv) (l : List Nat) (typed : Typed) : Prop :=
  ∃ w ws, wordsOf isSpace typed.line = w :: ws ∧
    ∀ command, Calls env typed.heap l w command →
      TransfersNothing (shell_drive env.devices) command (w :: ws)

/-- The command returns, with the blocks of the heap as they were. -/
def Balanced (env : ShellEnv) (s : Nat) (t : ShellState) (typed : Typed) : Prop :=
  ∃ t', shell_execute_command env.calls s typed.inputs (shell_read t typed) = .done () t' ∧
    heap_blocks t'.kheap = heap_blocks typed.heap

section

variable {env : ShellEnv} {live pinned written l : List Nat} {s : Nat} {t : ShellState}
  {typed : Typed}

theorem Reads.inputs_fresh {k : Kheap} (hreads : Reads env k live pinned written typed) :
    typed.inputs ∉ live := by
  have hnodup := hreads.heap.nodup
  rw [List.nodup_cons] at hnodup
  exact hnodup.1

theorem Reads.lineAt {k : Kheap} (hreads : Reads env k live pinned written typed)
    (h : ShellAt k live pinned written s l) :
    LineAt typed.heap live pinned written s l typed.inputs typed.line := by
  have hstream := h.stream_kept hreads.leaves
  refine ⟨?_, h.written_live, ?_, hreads.chars, hreads.room⟩
  · apply h.after hreads.heap (fun q hq => List.mem_cons_of_mem _ hq) hreads.leaves
    · intro q hq
      rcases List.mem_cons.mp hq with rfl | hq
      · exact List.mem_cons_self
      · exact List.mem_cons_of_mem _ (h.written_live q hq)
    · exact List.mem_cons_of_mem _ h.stream_written
    · intro q hq hne hmem
      rcases List.mem_cons.mp hmem with rfl | hmem
      · exact hreads.inputs_fresh hq
      · exact hne hmem
  · rw [hstream]
    exact h.stream_written

/-- A turn with a line that leaks nothing leaves the shell as it was. -/
theorem turn_keeps (h : ShellReady env t.kheap live pinned written s l)
    (hreads : Reads env t.kheap live pinned written typed) (hadmitted : Admitted env l typed)
    (hreleases : Releases env l typed) :
    Balanced env s t typed ∧
      ∃ t', shell_step env s t typed = some t' ∧
        ShellReady env t'.kheap live pinned written s l := by
  obtain ⟨device, hdevice, hfound⟩ := h.storage
  obtain ⟨w, ws, hwords, hnothing⟩ := hreleases
  have hdrive : shell_drive env.devices = env.devices.driver device := by
    unfold shell_drive
    rw [hdevice, Option.getD_some]
  rw [hdrive] at hnothing
  have hhandled := h.shell.handled_kept (fun _ ha => ha) hreads.leaves h.handled
  have hserves : Serves (typed.inputs :: live) pinned (typed.inputs :: written)
      (shell_read t typed) (shell_execute_command env.calls s typed.inputs (shell_read t typed)) :=
    execute_command_serves (t := shell_read t typed) (hreads.lineAt h.shell) hreads.log hhandled
      hdevice hfound hadmitted.argv hwords fun command hcalls =>
        ⟨hnothing command hcalls, hadmitted.buffers w ws hwords command hcalls⟩
  obtain ⟨_, t₁, heq, hkept⟩ := hserves
  refine ⟨⟨t₁, heq, hkept.blocks⟩, ?_⟩
  have hpin : typed.inputs ∉ pinned :=
    fun hpin => hreads.inputs_fresh (h.shell.pins _ hpin)
  obtain ⟨k₂, hkfree, hheap, hkeeps, -, hout⟩ :=
    kfree_gives_back hkept.heap List.mem_cons_self hpin
  rw [List.erase_cons_head] at hheap hkeeps
  refine ⟨t₁.setKheap k₂, ?_, ?_⟩
  · unfold shell_step shell_execute_turn
    rw [heq, Outcome.done_andThen, hkfree, Outcome.done_lift]
  have hleaves : Leaves t.kheap k₂ live written := by
    apply (hreads.leaves.trans (hkept.toLeaves.mono _ _)).trans (leaves_of_keeps hkeeps)
    · exact fun q hq => List.mem_cons_of_mem _ hq
    · intro q hq hne hmem
      rcases List.mem_cons.mp hmem with rfl | hmem
      · exact hreads.inputs_fresh hq
      · exact hne hmem
  refine ⟨?_, ?_, ?_, device, hdevice, hfound⟩
  · exact h.shell.after hheap (fun _ hq => hq) hleaves h.shell.written_live h.shell.stream_written
      fun _ _ hne => hne
  · exact hreads.log.after (hkept.outside.trans hout)
  · exact h.shell.handled_kept (fun _ ha => ha) hleaves h.handled

/-- A blank line is not balanced: the argument vector stays. -/
theorem blank_line_unbalanced (h : ShellReady env t.kheap live pinned written s l)
    (hreads : Reads env t.kheap live pinned written typed) (hadmitted : Admitted env l typed)
    (hblank : wordsOf isSpace typed.line = []) : ¬ Balanced env s t typed := by
  rintro ⟨t', heq, hblocks⟩
  obtain ⟨t₁, argv, heq₁, -, hheap⟩ := execute_blank_line (t := shell_read t typed)
    (hreads.lineAt h.shell) hadmitted.argv hblank
  have hsame := heq.symm.trans (heq₁ env.calls)
  cases hsame
  have hlen := hheap.inUse.length_eq
  have hlen' := hreads.heap.inUse.length_eq
  rw [hblocks, ← hlen', List.length_cons] at hlen
  omega

end

/-- In a run of the shell whose lines all have a token and move nothing to or from the drive,
every command leaves the blocks of the heap as they were, and after every line the same
blocks are in use. -/
theorem commands_that_transfer_nothing_leak_nothing {env : ShellEnv} {t : ShellState}
    {live pinned written l : List Nat} {s : Nat}
    (h : ShellReady env t.kheap live pinned written s l) {lines : List Typed}
    (hreads : Along (shell_step env s)
      (fun t typed => Reads env t.kheap live pinned written typed) t lines)
    (hadmitted : ∀ typed ∈ lines, Admitted env l typed)
    (hreleases : ∀ typed ∈ lines, Releases env l typed) :
    Along (shell_step env s) (Balanced env s) t lines ∧
      ∃ t', run (shell_step env s) t lines = some t' ∧
        ShellReady env t'.kheap live pinned written s l := by
  induction lines generalizing t with
  | nil => exact ⟨trivial, t, rfl, h⟩
  | cons typed lines ih =>
    obtain ⟨hthis, hothers⟩ := hreads
    obtain ⟨hbalanced, t₁, hstep, hready⟩ := turn_keeps h hthis
      (hadmitted typed List.mem_cons_self) (hreleases typed List.mem_cons_self)
    obtain ⟨halong, t', hrun, hready'⟩ := ih hready (hothers t₁ hstep)
      (fun u hu => hadmitted u (List.mem_cons_of_mem typed hu))
      fun u hu => hreleases u (List.mem_cons_of_mem typed hu)
    refine ⟨⟨hbalanced, fun u hu => ?_⟩, t', run_cons.mpr ⟨t₁, hstep, hrun⟩, hready'⟩
    rw [hstep] at hu
    cases hu
    exact halong

end sakana_os
