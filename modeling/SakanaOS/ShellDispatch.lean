-- Which commands a line calls: those that have the name of its first word, in the order in which
-- they were registered, each with all the words of the line.
import SakanaOS.ShellRuns

open byte_memory block_tiling words runs

namespace sakana_os

open in_memory

/-! ## The calls of a line -/

/-- The strings of an argument vector, as a handler reads them. -/
def argv_words (m : Mem) : Nat → Nat → Option (List (List UInt8))
  | 0, _ => some []
  | argc + 1, argv => do
    let w ← string_at m 4294967296 (load32 m argv)
    let ws ← argv_words m argc (argv + 4)
    return w :: ws

/-- The functions of the commands with this name, in the order of the list. -/
def handlersNamed (m : Mem) (l : List Nat) (w : List UInt8) : List Nat :=
  (l.filter fun a => string_at m 4294967296 (nodeName m a) = some w).map (nodeCall m)

section

variable (calls : Nat → Option ShellCall) (s name argv : Nat) (words : List (List UInt8))

/-- A call of the function at `f`, which must read these words from its argument vector, and
what the shell says when it fails. -/
def call_handler (t : ShellState) (f : Nat) : Outcome ShellState Unit :=
  if argv_words t.mem words.length argv = some words then
    match calls f with
    | none => .fault t
    | some call => (call s words.length argv t).andThen fun errno t =>
        shell_report_errno s name errno t
  else .fault t

/-- The functions are called one after another. -/
def call_handlers : List Nat → ShellState → Outcome ShellState Unit
  | [], t => .done () t
  | f :: fs, t => (call_handler calls s name argv words t f).andThen fun _ t => call_handlers fs t

/-- The state behind a call that returns. -/
def handler_step (t : ShellState) (f : Nat) : Option ShellState :=
  match call_handler calls s name argv words t f with
  | .done _ t' => some t'
  | _ => none

end

/-- The blocks are as they were but for the written ones, and the heap may have new ones. -/
structure LeavesBlocks (live pinned written : List Nat) (k k' : Kheap) : Prop where
  leaves : Leaves k k' live written
  heap : ∃ more, ClientHeap k' (more ++ live) pinned

/-- When the function at `f` returns, it has left the blocks. -/
def HandlerLeaves (calls : Nat → Option ShellCall) (s argc argv : Nat)
    (live pinned written : List Nat) (t : ShellState) (f : Nat) : Prop :=
  ∀ call errno t', calls f = some call → call s argc argv t = .done errno t' →
    LeavesBlocks live pinned written t.kheap t'.kheap

section

variable {k k' : Kheap} {live live' pinned written l nodes : List Nat} {s argv : Nat}
  {w : List UInt8} {ws : List (List UInt8)}

theorem ArgsAt.mono (h : ArgsAt k live written argv ws) (hlive : ∀ q ∈ live, q ∈ live') :
    ArgsAt k live' written argv ws := by
  obtain ⟨inputs, hinputs, hne, hargv⟩ := h.words
  exact ⟨hlive argv h.held, h.ne, h.room, inputs, hlive inputs hinputs, hne, hargv⟩

theorem argv_words_eq {m : Mem}
    (h : ∀ i v, ws[i]? = some v → string_at m 4294967296 (load32 m (argv + 4 * i)) = some v) :
    argv_words m ws.length argv = some ws := by
  induction ws generalizing argv with
  | nil => rfl
  | cons v ws ih =>
    have hfirst := h 0 v rfl
    have hrest : argv_words m ws.length (argv + 4) = some ws := by
      apply ih
      intro i u hu
      have hplace : argv + 4 + 4 * i = argv + 4 * (i + 1) := by omega
      rw [hplace]
      exact h (i + 1) u hu
    rw [Nat.mul_zero, Nat.add_zero] at hfirst
    rw [List.length_cons, argv_words, hfirst, Option.bind_eq_bind, Option.bind_some, hrest]
    rfl

theorem ArgsAt.argv_words (h : ArgsAt k live written argv ws) (hheap : ClientHeap k live pinned) :
    argv_words k.mem ws.length argv = some ws :=
  argv_words_eq fun _ _ hv => h.read hheap rfl hv

/-- The names and the functions of the commands stay. -/
theorem ShellAt.handlersNamed_kept (h : ShellAt k live pinned written s l)
    (hnodes : ∀ a ∈ nodes, a ∈ l) (hleaves : Leaves k k' live written) (w : List UInt8) :
    handlersNamed k'.mem nodes w = handlersNamed k.mem nodes w := by
  have hname : ∀ a ∈ nodes, string_at k'.mem 4294967296 (nodeName k'.mem a) =
      string_at k.mem 4294967296 (nodeName k.mem a) := by
    intro a ha
    obtain ⟨name, hat⟩ := h.named a (hnodes a ha)
    rw [(h.node_kept hleaves (hnodes a ha)).2.1, string_at_eq hat.chars hat.fits,
      string_at_eq (h.name_kept hleaves hat) hat.fits]
  unfold handlersNamed
  rw [List.filter_congr fun a ha => decide_eq_decide.mpr (by rw [hname a ha])]
  apply List.map_congr_left
  intro a ha
  exact (h.node_kept hleaves (hnodes a (List.mem_of_mem_filter ha))).2.2

end

/-! ## The loop over the commands -/

section

variable {calls : Nat → Option ShellCall} {live pinned written l : List Nat} {s argv name : Nat}
  {w : List UInt8} {ws : List (List UInt8)}

/-- What the loop reads is as it was before the first call. -/
structure LoopAt (k₀ k : Kheap) (live pinned written : List Nat) (s : Nat) (l : List Nat)
    (argv : Nat) (ws : List (List UInt8)) : Prop where
  shell : ShellAt k₀ live pinned written s l
  args : ArgsAt k₀ live written argv ws
  left : LeavesBlocks live pinned written k₀ k

theorem LoopAt.now {k₀ k : Kheap} (h : LoopAt k₀ k live pinned written s l argv ws) :
    ∃ more, ShellAt k (more ++ live) pinned written s l ∧
      ArgsAt k (more ++ live) written argv ws := by
  obtain ⟨more, hheap⟩ := h.left.heap
  have hlive : ∀ q ∈ live, q ∈ more ++ live := fun q hq => List.mem_append_right more hq
  refine ⟨more, ?_, (h.args.kept h.left.leaves).mono hlive⟩
  exact h.shell.after hheap hlive h.left.leaves (fun q hq => hlive q (h.shell.written_live q hq))
    h.shell.stream_written fun _ _ hne => hne

theorem LoopAt.after {k₀ k k' : Kheap} (h : LoopAt k₀ k live pinned written s l argv ws)
    (hleft : LeavesBlocks live pinned written k k') :
    LoopAt k₀ k' live pinned written s l argv ws :=
  ⟨h.shell, h.args, h.left.leaves.trans hleft.leaves, hleft.heap⟩

/-- The pointer to the first word stays. -/
theorem LoopAt.name_eq {k₀ k : Kheap} (h : LoopAt k₀ k live pinned written s l argv ws)
    (hw : ws[0]? = some w) : load32 k.mem argv = load32 k₀.mem argv := by
  have hroom := h.args.room
  obtain ⟨hlen, -⟩ := List.getElem?_eq_some_iff.mp hw
  have hkeep := h.left.leaves.keeps argv h.args.held h.args.ne
  exact hkeep.load32 (show 0 + 4 ≤ payload_size k₀ argv by omega)

/-- What the shell says about a failure leaves the blocks. -/
theorem LoopAt.report {k₀ : Kheap} {t : ShellState}
    (h : LoopAt k₀ t.kheap live pinned written s l argv ws)
    (hname : load32 k₀.mem argv = name) (hw : ws[0]? = some w) (errno : Int) :
    ∃ t', shell_report_errno s name errno t = .done () t' ∧
      LoopAt k₀ t'.kheap live pinned written s l argv ws := by
  obtain ⟨more, hshell, hargs⟩ := h.now
  have hat := hargs.token hshell.commands.heap hw
  rw [Nat.mul_zero, Nat.add_zero, h.name_eq hw, hname] at hat
  obtain ⟨_, t', hreport, hkept⟩ := report_serves hshell hat errno
  refine ⟨t', hreport, h.after ⟨?_, more, hkept.heap⟩⟩
  exact hkept.toLeaves.mono (fun q hq => List.mem_append_right more hq) fun _ _ hne => hne

theorem handlersNamed_cons {m : Mem} {a : Nat} {nodes : List Nat} {str : List UInt8}
    (hstr : string_at m 4294967296 (nodeName m a) = some str) :
    handlersNamed m (a :: nodes) w =
      if str = w then nodeCall m a :: handlersNamed m nodes w else handlersNamed m nodes w := by
  unfold handlersNamed
  by_cases hw : str = w
  · rw [if_pos hw, List.filter_cons_of_pos (by rw [hstr, hw]; exact decide_eq_true rfl),
      List.map_cons]
  · rw [if_neg hw, List.filter_cons_of_neg]
    rw [hstr]
    simpa using hw

/-- A handler that is called reads the words, and when it returns the loop can go on. -/
theorem LoopAt.called {k₀ : Kheap} {t : ShellState} {f : Nat}
    (h : LoopAt k₀ t.kheap live pinned written s l argv ws) (hname : load32 k₀.mem argv = name)
    (hw : ws[0]? = some w)
    (hleft : HandlerLeaves calls s ws.length argv live pinned written t f) :
    call_handler calls s name argv ws t f =
        (match calls f with
          | none => .fault t
          | some call => (call s ws.length argv t).andThen fun errno t =>
            shell_report_errno s name errno t) ∧
      ∀ t', call_handler calls s name argv ws t f = .done () t' →
        LoopAt k₀ t'.kheap live pinned written s l argv ws := by
  obtain ⟨more, hshell, hargs⟩ := h.now
  have hread : argv_words t.mem ws.length argv = some ws := hargs.argv_words hshell.commands.heap
  have hcall : call_handler calls s name argv ws t f =
      (match calls f with
        | none => .fault t
        | some call => (call s ws.length argv t).andThen fun errno t =>
          shell_report_errno s name errno t) := if_pos hread
  refine ⟨hcall, fun t' hdone => ?_⟩
  rw [hcall] at hdone
  cases hf : calls f with
  | none =>
    rw [hf] at hdone
    cases hdone
  | some call =>
    rw [hf] at hdone
    obtain ⟨errno, u, hreturns, hreported⟩ := Outcome.andThen_eq_done.mp hdone
    obtain ⟨v, hreport, hv⟩ := (h.after (hleft call errno u hf hreturns)).report hname hw errno
    rw [hreport] at hreported
    cases hreported
    exact hv

/-- The loop calls the handlers that have the name of the line, in the order of the list. -/
theorem call_loop_calls {k₀ : Kheap} {t : ShellState} {front nodes : List Nat} {turns : Nat}
    {unknown : Bool} (hlen : nodes.length < turns) (hl : l = front ++ nodes)
    (h : LoopAt k₀ t.kheap live pinned written s l argv ws) (hname : load32 k₀.mem argv = name)
    (hw : ws[0]? = some w)
    (hleft : Along (handler_step calls s name argv ws)
      (HandlerLeaves calls s ws.length argv live pinned written) t (handlersNamed k₀.mem nodes w)) :
    shell_call_loop calls s name ws.length argv turns (nodes.headD NULL) unknown t =
      (call_handlers calls s name argv ws (handlersNamed k₀.mem nodes w) t).andThen fun _ t' =>
        .done (unknown && (handlersNamed k₀.mem nodes w).isEmpty) t' := by
  induction nodes generalizing front turns unknown t with
  | nil =>
    obtain ⟨turns, rfl⟩ := Nat.exists_eq_succ_of_ne_zero (Nat.ne_of_gt hlen)
    have hnone : handlersNamed k₀.mem [] w = [] := rfl
    rw [hnone, List.headD_nil, shell_call_loop, if_pos rfl, call_handlers, Outcome.done_andThen]
    simp
  | cons a nodes ih =>
    obtain ⟨turns, rfl⟩ := Nat.exists_eq_succ_of_ne_zero (Nat.ne_of_gt (Nat.zero_lt_of_lt hlen))
    have hlen' : nodes.length < turns := Nat.lt_of_succ_lt_succ hlen
    have ha : a ∈ l := by simp [hl]
    have hl' : l = (front ++ [a]) ++ nodes := by simp [hl]
    obtain ⟨more, hshell, hargs⟩ := h.now
    obtain ⟨str, hat⟩ := h.shell.named a ha
    have hstr₀ : string_at k₀.mem 4294967296 (nodeName k₀.mem a) = some str :=
      string_at_eq hat.chars hat.fits
    have hkept := h.shell.name_kept h.left.leaves hat
    obtain ⟨-, hnode, hfunction⟩ := h.shell.node_kept h.left.leaves ha
    rw [← hnode] at hkept
    have hstr : string_at t.mem 4294967296 (command_name t.mem (node_data t.mem a)) = some str :=
      string_at_eq hkept hat.fits
    have hfirst : string_at t.mem 4294967296 name = some w := by
      have hread := hargs.read hshell.commands.heap (show argv = argv + 4 * 0 by rfl) hw
      rwa [h.name_eq hw, hname] at hread
    have hcall : command_call t.mem (node_data t.mem a) = nodeCall k₀.mem a := hfunction
    have hnext : ∀ {u : ShellState}, LoopAt k₀ u.kheap live pinned written s l argv ws →
        a ≠ NULL ∧ node_next u.mem a = nodes.headD NULL := by
      intro u hu
      obtain ⟨more', hshell', -⟩ := hu.now
      rw [hl] at hshell'
      exact hshell'.commands.next
    have hnonzero := (hargs.token hshell.commands.heap hw).chars.nonzero
    rw [handlersNamed_cons hstr₀] at hleft ⊢
    rw [List.headD_cons, shell_call_loop, if_neg (hnext h).1]
    simp only [hfirst, hstr, hcall]
    by_cases hsame : w = str
    · -- the line names this command
      subst hsame
      rw [if_pos rfl] at hleft ⊢
      obtain ⟨hcalled, hafter⟩ := h.called hname hw hleft.1
      rw [if_pos ((strcmp_eq_zero hnonzero hat.chars.nonzero).mpr rfl)]
      rw [call_handlers]
      refine Eq.trans (b := (call_handler calls s name argv ws t (nodeCall k₀.mem a)).andThen
        fun _ t => shell_call_loop calls s name ws.length argv turns (node_next t.mem a) false t)
        ?_ ?_
      · rw [hcalled]
        cases calls (nodeCall k₀.mem a) with
        | none => rfl
        | some call => exact (Outcome.andThen_assoc _ _ _).symm
      · cases hcall' : call_handler calls s name argv ws t (nodeCall k₀.mem a) with
        | done u v =>
          have hv := hafter v hcall'
          have hstep : handler_step calls s name argv ws t (nodeCall k₀.mem a) = some v := by
            unfold handler_step
            rw [hcall']
          simp only [Outcome.done_andThen, (hnext hv).2]
          rw [ih hlen' hl' hv (hleft.2 v hstep)]
          simp
        | kpanic code message v => rfl
        | fault v => rfl
        | hang v => rfl
    · have hne : ¬ strcmp w str = 0 :=
        fun hzero => hsame ((strcmp_eq_zero hnonzero hat.chars.nonzero).mp hzero)
      rw [if_neg (Ne.symm hsame)] at hleft ⊢
      rw [if_neg hne, (hnext h).2]
      exact ih hlen' hl' h hleft

end

/-! ## The line -/

/-- What the shell does with a line that has these words: the argument vector gets a slot for
each space and one more, the handlers are called in the order of the list, and only when there
are none the shell says that it does not know the command. -/
structure LineCalls (calls : Nat → Option ShellCall) (live pinned written l : List Nat)
    (s inputs : Nat) (line : List UInt8) (w : List UInt8) (ws : List (List UInt8))
    (t : ShellState) (argv : Nat) (k : Kheap) (v : ShellState) : Prop where
  taken : kmalloc t.kheap (4 * (line.countP isSpace + 1)) = .done argv k
  fresh : argv ≠ NULL ∧ argv ∉ inputs :: live
  slots : (w :: ws).length ≤ line.countP isSpace + 1
  stores : ∀ x, (x < argv ∨ argv + 4 * (line.countP isSpace + 1) ≤ x) →
    (x < inputs ∨ inputs + line.length < x) → v.mem x = k.mem x
  words : argv_words v.mem (w :: ws).length argv = some (w :: ws)
  silent : v.sent = t.sent
  outcome : Along (handler_step calls s (load32 v.mem argv) argv (w :: ws))
      (HandlerLeaves calls s (w :: ws).length argv (argv :: inputs :: live) pinned written) v
      (handlersNamed t.mem l w) →
    shell_execute_command calls s inputs t =
      (call_handlers calls s (load32 v.mem argv) argv (w :: ws) (handlersNamed t.mem l w) v).andThen
        fun _ t' => ((kfree t'.kheap argv).lift t'.setKheap).andThen fun _ t' =>
          .done () (if handlersNamed t.mem l w = [] then stream_puts t' "Unknown command\n" else t')

section

variable {calls : Nat → Option ShellCall} {live pinned written l : List Nat} {s inputs : Nat}
  {line w : List UInt8} {ws : List (List UInt8)} {t : ShellState}

/-- The handlers are called for the line, and those of a kernel find what they need. -/
theorem LineAt.line_calls (h : LineAt t.kheap live pinned written s l inputs line)
    (hbest : bestFit (argvSize line) (heap_blocks t.kheap) ≠ none)
    (hwords : wordsOf isSpace line = w :: ws) (calls : Nat → Option ShellCall) :
    ∃ argv k v, LineCalls calls live pinned written l s inputs line w ws t argv k v ∧
      handlersNamed v.mem l w = handlersNamed t.mem l w ∧
      ∀ (env : ShellEnv) (device : Nat), LogReady env.log_buffer t.kheap → Handled env t.kheap l →
        (∀ command, Calls env t.kheap l w command →
          TransfersNothing (env.devices.driver device) command (w :: ws) ∧
            BufferGranted (afterTaking (argvSize line) (heap_blocks t.kheap)) command (w :: ws)) →
        LoopReady env device v.kheap (argv :: inputs :: live) pinned written s argv
          (load32 v.mem argv) w (w :: ws) [] l := by
  have hread : string_at t.mem 4294967296 inputs = some line :=
    string_at_eq h.chars (by have hfits := h.fits; omega)
  have hrequest : mul32 (add32 (shell_count_spaces t.mem inputs line.length 0 0) 1) 4 =
      argvSize line := h.request
  obtain ⟨argv, k₁, hkmalloc, hgot⟩ :=
    kmalloc_grants h.shell.commands.heap (argvSize_ne_zero line) hbest
  rcases h.tokens t.strtok_s hgot with ⟨hnone, -⟩ | ⟨w', ws', token, u, u', hwords', htoken,
    hstrtok, hloop, hargv, hm⟩
  · rw [hwords] at hnone
    cases hnone
  rw [hwords] at hwords'
  cases hwords'
  obtain ⟨hshell, hargs, hkept, hleaves⟩ :=
    h.tokens_ready hgot hwords hargv (h.inside hgot hm)
  have hstrtok' : strtok ⟨(t.setKheap k₁).mem, (t.setKheap k₁).strtok_s⟩ inputs [' '.toUInt8] =
      some (token, u) := hstrtok
  obtain ⟨v, hv⟩ : ∃ v, v = (t.setKheap k₁).setStrtok u' := ⟨_, rfl⟩
  have hkheap : v.kheap = { k₁ with mem := u'.mem } := by
    rw [hv]
    rfl
  have hmem : v.mem = u'.mem := congrArg Kheap.mem hkheap
  have hready := fun (env : ShellEnv) (device : Nat) (hlog : LogReady env.log_buffer t.kheap)
      (hhandled : Handled env t.kheap l) (hharmless : ∀ command, Calls env t.kheap l w command →
        TransfersNothing (env.devices.driver device) command (w :: ws) ∧
          BufferGranted (afterTaking (argvSize line) (heap_blocks t.kheap)) command (w :: ws)) =>
    (h.loop_ready hlog hhandled hgot hwords hargv (h.inside hgot hm) hharmless).1
  rw [← hkheap, ← hmem] at hready
  rw [← hkheap] at hshell hargs hleaves
  have hnamed : handlersNamed v.mem l w = handlersNamed t.mem l w :=
    h.shell.handlersNamed_kept (fun _ ha => ha) hleaves w
  have hslots : (w :: ws).length ≤ line.countP isSpace + 1 := by
    rw [← hwords]
    exact length_wordsOf isSpace line
  refine ⟨argv, k₁, v, ⟨hkmalloc, ⟨(hgot.heap.bounds List.mem_cons_self).1, hgot.fresh⟩, hslots, ?_,
    hargs.argv_words hshell.commands.heap, ?_, fun hleft => ?_⟩, hnamed, hready⟩
  · rw [hmem]
    exact hm
  · rw [hv]
    rfl
  · have hloopAt :
        LoopAt v.kheap v.kheap (argv :: inputs :: live) pinned written s l argv (w :: ws) :=
      ⟨hshell, hargs, leaves_of_keeps fun q _ => Keeps.refl _ q, [], hshell.commands.heap⟩
    have hhead : list_head v.mem (shell_commands_list v.mem s) = l.headD NULL :=
      hshell.commands.isList.head
    have hlen : l.length < 4294967296 := hshell.commands.isList.length_lt
    rw [← hnamed] at hleft ⊢
    have hcalls : shell_call_loop calls s (load32 v.mem argv) (w :: ws).length argv 4294967296
        (l.headD NULL) true v =
          (call_handlers calls s (load32 v.mem argv) argv (w :: ws)
            (handlersNamed v.mem l w) v).andThen fun _ t' =>
              .done (true && (handlersNamed v.mem l w).isEmpty) t' :=
      call_loop_calls hlen (List.nil_append l).symm hloopAt rfl rfl hleft
    unfold shell_execute_command
    simp only [hread, hrequest, hkmalloc, Outcome.done_lift, Outcome.done_andThen, hstrtok',
      if_neg htoken, hloop]
    rw [← hv, hhead, hcalls, Outcome.andThen_assoc]
    congr 1
    funext _ t'
    cases handlersNamed v.mem l w with
    | nil => rfl
    | cons f fs => rfl

/-- A line without words calls nothing and says nothing. A line with words calls the handlers
of the commands that have the name of its first word, in the order of their registration and
as long as each leaves the blocks of the others, with all the words of the line, which are its
maximal runs of characters that are no spaces. It stores nothing behind the slots of the
argument vector, and says that the command is unknown exactly when there is none. -/
theorem a_line_calls_the_handlers_of_its_first_word
    (h : LineAt t.kheap live pinned written s l inputs line)
    (hbest : bestFit (argvSize line) (heap_blocks t.kheap) ≠ none) :
    (wordsOf isSpace line = [] →
      ∃ t', (∀ calls, shell_execute_command calls s inputs t = .done () t') ∧ t'.sent = t.sent) ∧
    ∀ calls w ws, wordsOf isSpace line = w :: ws →
      ∃ argv k v, LineCalls calls live pinned written l s inputs line w ws t argv k v := by
  refine ⟨fun hblank => ?_, fun calls w ws hwords => ?_⟩
  · obtain ⟨t', -, hcalls, hsent, -⟩ := execute_blank_line h hbest hblank
    exact ⟨t', hcalls, hsent⟩
  · obtain ⟨argv, k, v, hcalls, -⟩ := h.line_calls hbest hwords calls
    exact ⟨argv, k, v, hcalls⟩

end

/-! ## The handlers of the kernel -/

section

variable {env : ShellEnv} {live pinned written : List Nat} {s argv name device : Nat}
  {t : ShellState} {w : List UInt8} {ws : List (List UInt8)}

/-- The handlers that transfer nothing leave the blocks of the others. -/
theorem LoopReady.handlers_leave {front nodes : List Nat}
    (hdevice : storage_device env.devices = some device) (hfound : device ≠ NULL)
    (h : LoopReady env device t.kheap live pinned written s argv name w ws front nodes) :
    Along (handler_step env.calls s name argv ws)
      (HandlerLeaves env.calls s ws.length argv live pinned written) t
      (handlersNamed t.mem nodes w) := by
  induction nodes generalizing front t with
  | nil => trivial
  | cons a nodes ih =>
    obtain ⟨str, hat⟩ := h.shell.named a (by simp)
    have hstr : string_at t.mem 4294967296 (nodeName t.mem a) = some str :=
      string_at_eq hat.chars hat.fits
    rw [handlersNamed_cons hstr]
    split
    · rename_i hsame
      subst hsame
      obtain ⟨command, hcommand⟩ := h.handled a List.mem_cons_self
      have hcall : env.calls (nodeCall t.mem a) = some (env.handler command) := by
        have hcommand' : env.functions (nodeCall t.mem a) = some command := hcommand
        unfold ShellEnv.calls
        rw [hcommand', Option.map_some]
      obtain ⟨hnothing, hgranted⟩ :=
        h.harmless command ⟨a, List.mem_cons_self, hat.chars, hcommand⟩
      obtain ⟨errno, u, hdone, hkept⟩ :=
        handler_serves h.shell h.log h.args hdevice hfound hnothing hgranted
      refine ⟨?_, fun v hv => ?_⟩
      · intro call errno' t' hcall' hdone'
        rw [hcall] at hcall'
        cases hcall'
        rw [hdone] at hdone'
        cases hdone'
        exact ⟨hkept.toLeaves, [], hkept.heap⟩
      · have hread : argv_words t.mem ws.length argv = some ws :=
          h.args.argv_words h.shell.commands.heap
        obtain ⟨_, v', hreport, hkept'⟩ :=
          report_serves (h.kept hkept).shell (h.kept hkept).name errno
        simp only [handler_step, call_handler, if_pos hread, hcall, hdone, Outcome.done_andThen,
          hreport] at hv
        cases hv
        have hv := (h.kept (hkept.trans hkept')).next
        have hnamed : handlersNamed v.mem nodes str = handlersNamed t.mem nodes str :=
          h.shell.handlersNamed_kept (fun b hb => by simp [hb]) (hkept.trans hkept').toLeaves str
        rw [← hnamed]
        exact ih hv
    · exact ih h.next

/-- A line that transfers nothing calls the handlers of the kernel that have the name of its first
word, and no condition on what they leave remains. -/
theorem LineAt.kernel_calls {l : List Nat} {inputs : Nat} {line : List UInt8}
    (h : LineAt t.kheap live pinned written s l inputs line)
    (hlog : LogReady env.log_buffer t.kheap) (hhandled : Handled env t.kheap l)
    (hdevice : storage_device env.devices = some device)
    (hfound : device ≠ NULL) (hbest : bestFit (argvSize line) (heap_blocks t.kheap) ≠ none)
    (hwords : wordsOf isSpace line = w :: ws)
    (hharmless : ∀ command, Calls env t.kheap l w command →
      TransfersNothing (env.devices.driver device) command (w :: ws) ∧
        BufferGranted (afterTaking (argvSize line) (heap_blocks t.kheap)) command (w :: ws)) :
    ∃ argv k v, LineCalls env.calls live pinned written l s inputs line w ws t argv k v ∧
      shell_execute_command env.calls s inputs t =
        (call_handlers env.calls s (load32 v.mem argv) argv (w :: ws) (handlersNamed t.mem l w)
          v).andThen fun _ t' => ((kfree t'.kheap argv).lift t'.setKheap).andThen fun _ t' =>
            .done () (if handlersNamed t.mem l w = [] then stream_puts t' "Unknown command\n"
              else t') := by
  obtain ⟨argv, k, v, hcalls, hnamed, hready⟩ := h.line_calls hbest hwords env.calls
  refine ⟨argv, k, v, hcalls, hcalls.outcome ?_⟩
  rw [← hnamed]
  exact (hready env device hlog hhandled hharmless).handlers_leave hdevice hfound

end

end sakana_os
