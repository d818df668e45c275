-- From the keyboard to the commands: the interrupts fill the input ring while the shell polls it
-- for a line, edits the line, and executes it. What is executed are the typed lines, each once and
-- in order, whatever the interrupts and the polls interleave to.
import SakanaOS.Keyboard
import SakanaOS.PolledQueues
import SakanaOS.ShellBoot

open byte_memory polled_queues rings runs words

namespace sakana_os

/-! ## The keyboard and the input ring -/

/-- The ring of the standard terminal after an interrupt for each byte. -/
def CharRing.interrupts (outside : Nat → UInt8) (r : CharRing) (scancodes : List UInt8) :
    CharRing :=
  let s := (scancode_stream outside (⟨some r.cb, r.mem⟩, []) scancodes).1
  ⟨s.tty_stdterm.getD r.cb, s.mem⟩

/-- The ring after some polls. -/
def polledRing (input : CharRing) : List (List UInt8) → CharRing
  | [] => input
  | keys :: rest => polledRing (tty_getchar (keys.foldl CharRing.enqueue input)).2 rest

/-- The ring of single characters, and those that wait in it. -/
structure InputHolds (capacity : Nat) (r : CharRing) (chars : List UInt8) : Prop where
  ring : RingAt r.cb r.mem
  element_size : r.cb.element_size = 1
  capacity : r.cb.capacity = capacity
  chars : HoldsChars r.cb r.mem chars

theorem typeChar_enqueue (r : CharRing) (c : Option UInt8) :
    typeChar r.cb r.mem c =
      ((c.toList.foldl CharRing.enqueue r).cb, (c.toList.foldl CharRing.enqueue r).mem) := by
  cases c <;> rfl

/-- The interrupts enqueue the characters that the bytes type. -/
theorem interrupts_eq (outside : Nat → UInt8) (r : CharRing) (scancodes : List UInt8) :
    r.interrupts outside scancodes = (typedChars scancodes).foldl CharRing.enqueue r := by
  have hstream : ∀ (r : CharRing) (reads : List Nat),
      (scancode_stream outside (⟨some r.cb, r.mem⟩, reads) scancodes).1 =
        ⟨some ((typedChars scancodes).foldl CharRing.enqueue r).cb,
          ((typedChars scancodes).foldl CharRing.enqueue r).mem⟩ := by
    induction scancodes with
    | nil => exact fun _ _ => rfl
    | cons scancode scancodes ih =>
      intro r reads
      have htyped : typedChars (scancode :: scancodes) =
          (madeChar scancode).toList ++ typedChars scancodes := by
        unfold typedChars
        rw [List.filterMap_cons]
        cases madeChar scancode <;> rfl
      rw [scancode_stream, List.foldl_cons, htyped, List.foldl_append]
      simp only [handler_eq, typeChar_enqueue]
      exact ih _ _
  unfold CharRing.interrupts
  rw [hstream]
  rfl

section

variable {capacity : Nat} {r : CharRing} {chars : List UInt8}

theorem InputHolds.enqueue (h : InputHolds capacity r chars) (hroom : chars.length < capacity)
    (c : UInt8) : InputHolds capacity (r.enqueue c) (chars ++ [c]) := by
  obtain ⟨hring, hone, hcap, hchars⟩ := typeChar_spec h.ring h.element_size h.chars (some c)
  refine ⟨hring, hone, hcap.trans h.capacity, ?_⟩
  rwa [Option.toList_some, List.take_of_length_le (by
    rw [List.length_singleton, h.capacity]
    omega)] at hchars

theorem InputHolds.enqueues (h : InputHolds capacity r chars) {keys : List UInt8}
    (hroom : (chars ++ keys).length ≤ capacity) :
    InputHolds capacity (keys.foldl CharRing.enqueue r) (chars ++ keys) := by
  induction keys generalizing r chars with
  | nil => rwa [List.append_nil]
  | cons c keys ih =>
    rw [List.length_append, List.length_cons] at hroom
    have hnext := ih (h.enqueue (by omega) c) (by
      rw [List.length_append, List.length_append, List.length_singleton]
      omega)
    rwa [List.append_assoc, List.singleton_append] at hnext

/-- A poll takes the first character, and gives 0xFF when there is none. -/
theorem InputHolds.getchar (h : InputHolds capacity r chars) :
    (tty_getchar r).1 = chars.head?.getD 0xFF ∧
      InputHolds capacity (tty_getchar r).2 chars.tail := by
  have hsize : chars.length = r.cb.size := by
    rw [← length_elements r.cb r.mem, h.chars, List.length_map]
  unfold tty_getchar
  cases chars with
  | nil =>
    rw [if_pos ((empty_iff r.cb).mpr hsize.symm)]
    exact ⟨rfl, h⟩
  | cons c chars =>
    have hne : r.cb.size ≠ 0 := by
      rw [← hsize, List.length_cons]
      omega
    rw [if_neg fun hempty => hne ((empty_iff r.cb).mp hempty)]
    obtain ⟨cb', hdequeue, hsame, hring⟩ := dequeue_ring h.ring.fits h.ring.good hne
    have hready := dequeue_ringAt h.ring
    have hrest := elements_dequeue h.ring
    rw [hdequeue] at hready hrest
    have hfirst : loadList r.mem (slotAddr r.cb r.cb.head) r.cb.element_size = [c] := by
      have hhead := congrArg List.head? h.chars
      unfold elements SlotRing.contents at hhead
      rw [List.head?_map, List.head?_range, if_neg (show ¬ (ringOf r.cb r.mem).size = 0 from hne),
        Option.map_some, List.map_cons, List.head?_cons, Option.some.injEq] at hhead
      rw [← hhead]
      unfold ringOf
      simp only [slot_zero (show r.cb.head < r.cb.capacity from h.ring.good.head)]
    unfold CharRing.dequeue
    simp only [hdequeue, hfirst]
    refine ⟨rfl, hready, hsame.element_size.trans h.element_size,
      hsame.capacity.trans h.capacity, ?_⟩
    unfold HoldsChars
    rw [hrest, h.chars]
    rfl

/-- The polls take what the queue gives them. -/
theorem InputHolds.polls (h : InputHolds capacity r chars) {arrivals : List (List UInt8)}
    (hroom : Room capacity chars arrivals) :
    delivered r arrivals = (polled chars arrivals).map (·.getD 0xFF) ∧
      InputHolds capacity (polledRing r arrivals) (left chars arrivals) := by
  induction arrivals generalizing r chars with
  | nil => exact ⟨rfl, h⟩
  | cons keys rest ih =>
    obtain ⟨hlen, hroom⟩ := hroom
    obtain ⟨hchar, hnext⟩ := (h.enqueues hlen).getchar
    obtain ⟨hdelivered, hring⟩ := ih hnext hroom
    refine ⟨?_, hring⟩
    rw [delivered, polled, List.map_cons, ← hdelivered, ← hchar]

end

/-! ## The polls that find nothing -/

/-- A poll that finds nothing changes nothing of the line. -/
theorem gets_edits_polls (polls : List (Option UInt8)) (s : LineEditor) :
    tty_gets_edits (polls.map (·.getD 0xFF)) s = tty_gets_edits polls.reduceOption s := by
  induction polls generalizing s with
  | nil => rfl
  | cons o polls ih =>
    cases o with
    | none =>
      rw [List.map_cons, Option.getD_none, tty_gets_edits, (edit_skipped (Or.inl rfl) s []).1,
        Outcome.done_andThen, ih, List.reduceOption_cons_of_none]
    | some c =>
      rw [List.map_cons, Option.getD_some, List.reduceOption_cons_of_some, tty_gets_edits,
        tty_gets_edits]
      simp only [ih]

theorem editLine_polls (polls : List (Option UInt8)) (line : List UInt8) :
    (polls.map (·.getD 0xFF)).foldl editLine line = polls.reduceOption.foldl editLine line := by
  induction polls generalizing line with
  | nil => rfl
  | cons o polls ih =>
    cases o with
    | none =>
      have hskip : editLine line 0xFF = line := if_neg (by decide)
      rw [List.map_cons, Option.getD_none, List.foldl_cons, hskip, ih,
        List.reduceOption_cons_of_none]
    | some c =>
      rw [List.map_cons, Option.getD_some, List.reduceOption_cons_of_some, List.foldl_cons,
        List.foldl_cons, ih]

theorem echoOf_polls (polls : List (Option UInt8)) (line : List UInt8) :
    echoOf line (polls.map (·.getD 0xFF)) = echoOf line polls.reduceOption := by
  induction polls generalizing line with
  | nil => rfl
  | cons o polls ih =>
    cases o with
    | none =>
      have hskip : editLine line 0xFF = line := if_neg (by decide)
      have hquiet : echoed line 0xFF = none := if_neg (by decide)
      rw [List.map_cons, Option.getD_none, echoOf, hquiet, hskip, ih,
        List.reduceOption_cons_of_none]
      rfl
    | some c =>
      rw [List.map_cons, Option.getD_some, List.reduceOption_cons_of_some, echoOf, echoOf, ih]

theorem typedLine_polls (k : Kheap) (polls : List (Option UInt8)) :
    typedLine k (polls.map (·.getD 0xFF)) = typedLine k polls.reduceOption ∧
      (AllocationsSucceed k (polls.map (·.getD 0xFF)) ↔
        AllocationsSucceed k polls.reduceOption) := by
  have hedited : editedLine k (polls.map (·.getD 0xFF)) = editedLine k polls.reduceOption := by
    unfold editedLine
    simp only [gets_edits_polls]
  constructor
  · unfold typedLine lineOf
    rw [hedited, editLine_polls]
  · unfold AllocationsSucceed
    simp only [gets_edits_polls]

/-! ## The echo -/

theorem echoOf_no_backspace {chars : List UInt8} (h : ASCII_CTRL_BS ∉ chars) (line : List UInt8) :
    ASCII_CTRL_BS ∉ echoOf line chars := by
  induction chars generalizing line with
  | nil =>
    rw [echoOf, List.mem_singleton]
    decide
  | cons c chars ih =>
    rw [List.mem_cons, not_or] at h
    rw [echoOf, List.mem_append, not_or]
    refine ⟨?_, ih h.2 _⟩
    unfold echoed
    rw [if_neg (Ne.symm h.1)]
    split
    · rw [Option.toList_some, List.mem_singleton]
      exact h.1
    · exact List.not_mem_nil

/-- Text without a backspace goes through on every screen. -/
theorem run_without_backspace {v : Vga} (h : OnScreen v) (turns : Nat) {chars : List UInt8}
    (hbs : ASCII_CTRL_BS ∉ chars) : ∃ u, run (vga_putchar turns) v chars = some u := by
  induction chars generalizing v with
  | nil => exact ⟨v, rfl⟩
  | cons c chars ih =>
    rw [List.mem_cons, not_or] at hbs
    obtain ⟨w, hput⟩ : ∃ w, vga_putchar turns v c = some w := by
      by_cases hnl : c = '\n'.toUInt8
      · exact ⟨_, hnl ▸ putchar_newline h turns⟩
      · exact ⟨_, putchar_other h turns hnl (Ne.symm hbs.1)⟩
    obtain ⟨u, hrun⟩ := ih (putchar_keeps h hput).1.screen hbs.2
    exact ⟨u, run_cons.mpr ⟨w, hput, hrun⟩⟩

/-- The echo leaves the input ring alone. -/
theorem putchar_input {t u : tty_t} (h : OutputReady t.output) {turns : Nat} {c : UInt8}
    (hput : tty_putchar turns t c = some u) : u.input = t.input ∧ OutputReady u.output := by
  obtain ⟨output, hready, heq⟩ := tty_putchar_eq h c
  rw [heq] at hput
  obtain ⟨video, -, rfl⟩ := Option.map_eq_some_iff.mp hput
  exact ⟨rfl, hready⟩

/-- A call that ends with the last poll leaves the ring as the polls do. -/
theorem gets_loop_input {turns buf : Nat} {s s' : LineEditor} {t t' : tty_t}
    (hout : OutputReady t.output) {arrivals : List (List UInt8)} {chars : List UInt8}
    (hkeys : delivered t.input arrivals = chars ++ [ASCII_CTRL_CR]) (hcr : ASCII_CTRL_CR ∉ chars)
    (hdone : tty_gets_loop turns arrivals s t = .done buf (s', t')) :
    t'.input = polledRing t.input arrivals := by
  induction arrivals generalizing s t chars with
  | nil => cases hdone
  | cons keys rest ih =>
    obtain ⟨c, input, hget⟩ : ∃ c input, tty_getchar (keys.foldl CharRing.enqueue t.input) =
      (c, input) := ⟨_, _, rfl⟩
    have hnext : delivered t.input (keys :: rest) = c :: delivered input rest := by
      rw [delivered, hget]
    have hring : polledRing t.input (keys :: rest) = polledRing input rest := by
      rw [polledRing, hget]
    rw [hring]
    rw [hnext] at hkeys
    unfold tty_gets_loop at hdone
    rw [hget] at hdone
    dsimp only at hdone
    cases chars with
    | nil =>
      -- the carriage return comes with the last poll
      obtain ⟨rfl, hlast⟩ := List.cons.inj hkeys
      have hrest : rest = [] := by
        cases rest with
        | nil => rfl
        | cons keys' rest' => cases hlast
      rw [hrest]
      rw [if_neg (by decide), if_pos rfl] at hdone
      split at hdone
      · cases hdone
      · rename_i u hput
        cases hdone
        exact (putchar_input (t := { t with input := input }) hout hput).1
    | cons d chars =>
      obtain ⟨rfl, hlater⟩ := List.cons.inj hkeys
      rw [List.mem_cons, not_or] at hcr
      by_cases hskip : c = 0xFF ∨ c = 0
      · rw [if_pos hskip] at hdone
        exact ih (t := { t with input := input }) hout hlater hcr.2 hdone
      · rw [if_neg hskip, if_neg (Ne.symm hcr.1), Outcome.andThen_eq_done] at hdone
        obtain ⟨echo, ⟨s₁, t₁⟩, hedit, hdone⟩ := hdone
        obtain ⟨s₂, -, hsame⟩ := Outcome.lift_eq_done.mp hedit
        cases hsame
        cases echo with
        | none => exact ih (t := { t with input := input }) hout hlater hcr.2 hdone
        | some e =>
          dsimp only at hdone
          split at hdone
          · cases hdone
          · rename_i u hput
            obtain ⟨hinput, hready⟩ := putchar_input (t := { t with input := input }) hout hput
            have hu := ih (t := u) hready (by rw [hinput]; exact hlater) hcr.2 hdone
            rw [hu, hinput]

/-! ## The session -/

/-- The kernel of the shell, and the input of its terminal. -/
structure Console where
  shell : ShellState
  input : CharRing

/-- The other half of the terminal when a line is read, whatever was printed on it, and the bytes
of the keyboard before each poll of the line. -/
structure ReadLine where
  output : CharRing
  video : Vga
  bursts : List (List UInt8)

/-- The characters of the bytes. -/
def ReadLine.arrivals (r : ReadLine) : List (List UInt8) := r.bursts.map typedChars

/-- A turn of `shell_execute`: a line is read and executed. -/
def console_turn (env : ShellEnv) (turns s : Nat) (c : Console) (r : ReadLine) : Option Console :=
  match tty_gets turns c.shell.kheap ⟨c.input, r.output, r.video⟩ r.arrivals with
  | .done inputs (e, tty) =>
    (shell_step env s c.shell ⟨e.kheap, inputs, []⟩).map fun shell => ⟨shell, tty.input⟩
  | _ => none

/-- The shell that is given the characters of a line. -/
def shell_type (env : ShellEnv) (s : Nat) (t : ShellState) (chars : List UInt8) :
    Option ShellState :=
  shell_step env s t (typedLine t.kheap chars)

/-- The heap has what the line asks for, and the line has no backspace, leaks nothing and raises no
interrupt. -/
structure Executable (env : ShellEnv) (l : List Nat) (t : ShellState) (chars : List UInt8) :
    Prop where
  backspace : ASCII_CTRL_BS ∉ chars
  allocations : AllocationsSucceed t.kheap chars
  admitted : Admitted env l (typedLine t.kheap chars)
  releases : Releases env l (typedLine t.kheap chars)

section

variable {env : ShellEnv} {s capacity : Nat} {c : Console} {live written l : List Nat}
  {waiting : List UInt8}

theorem console_turn_types (turns : Nat) (h : ShellReady env c.shell.kheap live [] written s l)
    (hinput : InputHolds capacity c.input waiting) {r : ReadLine} (hout : OutputReady r.output)
    (hscreen : OnScreen r.video) (hroom : Room capacity waiting r.arrivals)
    {polls : List (Option UInt8)}
    (hpolled : polled waiting r.arrivals = polls ++ [some ASCII_CTRL_CR])
    (hcr : some ASCII_CTRL_CR ∉ polls) (hexec : Executable env l c.shell polls.reduceOption) :
    ∃ input, console_turn env turns s c r =
        (shell_type env s c.shell polls.reduceOption).map (⟨·, input⟩) ∧
      InputHolds capacity input (left waiting r.arrivals) := by
  obtain ⟨hdelivered, hring⟩ := hinput.polls hroom
  obtain ⟨htyped, halloc⟩ := typedLine_polls c.shell.kheap polls
  have hchars : ASCII_CTRL_CR ∉ polls.map (·.getD 0xFF) := by
    intro hmem
    obtain ⟨o, ho, heq⟩ := List.mem_map.mp hmem
    cases o with
    | none => exact absurd heq (by decide)
    | some d => exact hcr (by rw [← show d = ASCII_CTRL_CR from heq]; exact ho)
  rw [hpolled, List.map_append, List.map_singleton, Option.getD_some] at hdelivered
  obtain ⟨buf, k', e, hfirst, hbuf, hedits⟩ := halloc.mpr hexec.allocations
  have hready := first_buffer_ready h.shell.commands.heap hfirst hbuf
  have hgets : tty_gets turns c.shell.kheap ⟨c.input, r.output, r.video⟩ r.arrivals =
      tty_gets_loop turns r.arrivals ⟨buf, 2, 0, k', []⟩ ⟨c.input, r.output, r.video⟩ := by
    unfold tty_gets
    simp only [hfirst, Outcome.done_lift, Outcome.done_andThen, if_neg hbuf]
  rcases gets_loop_follows_echo (t := ⟨c.input, r.output, r.video⟩) hready hedits hout hdelivered
      hchars turns with ⟨hhangs, -⟩ | ⟨_, tty, -, hloop, -⟩
  · -- no echo without a backspace gets stuck
    obtain ⟨u, hu⟩ := run_without_backspace hscreen turns
      (echoOf_no_backspace hexec.backspace [])
    rw [echoOf_polls, hu] at hhangs
    cases hhangs
  · have hleft := gets_loop_input (t := ⟨c.input, r.output, r.video⟩) hout hdelivered hchars hloop
    refine ⟨tty.input, ?_, hleft ▸ hring⟩
    have hline : typedLine c.shell.kheap polls.reduceOption =
        ⟨(e.store 0).kheap, e.buf, lineOf (polls.map (·.getD 0xFF))⟩ := by
      rw [← htyped, typedLine, editedLine_eq hfirst hedits]
    unfold console_turn shell_type
    rw [hgets, hloop, hline]
    rfl

/-- The lines are executed as they are typed. -/
theorem session_types {c : Console} (turns : Nat)
    (h : ShellReady env c.shell.kheap live [] written s l)
    (hinput : InputHolds capacity c.input waiting) {turned : List ReadLine}
    (hready : ∀ r ∈ turned, OutputReady r.output ∧ OnScreen r.video) {lines : List (List UInt8)}
    {rest : List UInt8} (hpieces : Pieces capacity ASCII_CTRL_CR waiting
      (turned.map ReadLine.arrivals) lines rest)
    (hexec : Along (shell_type env s) (Executable env l) c.shell lines) :
    ∃ c', run (console_turn env turns s) c turned = some c' ∧
      run (shell_type env s) c.shell lines = some c'.shell ∧
      InputHolds capacity c'.input rest ∧
      ShellReady env c'.shell.kheap live [] written s l := by
  induction turned generalizing c waiting lines with
  | nil =>
    obtain ⟨rfl, rfl⟩ := hpieces
    exact ⟨c, rfl, rfl, hinput, h⟩
  | cons r turned ih =>
    obtain ⟨hroom, polls, lines', hpolled, hcr, rfl, hlater⟩ := hpieces
    obtain ⟨hthis, hothers⟩ := hexec
    obtain ⟨hout, hscreen⟩ := hready r List.mem_cons_self
    obtain ⟨input, hturn, hleft⟩ := console_turn_types turns h hinput hout hscreen hroom
      hpolled hcr hthis
    have hreads : Reads env c.shell.kheap live [] written
        (typedLine c.shell.kheap polls.reduceOption) :=
      typedLine_reads h.shell.commands.heap hthis.allocations h.log
    obtain ⟨-, t', hstep, hnext⟩ := turn_keeps h hreads hthis.admitted hthis.releases
    have hstep' : shell_type env s c.shell polls.reduceOption = some t' := hstep
    rw [hstep', Option.map_some] at hturn
    obtain ⟨c', hrun, hshell, hrest⟩ := ih (c := ⟨t', input⟩) hnext hleft
      (fun r hr => hready r (List.mem_cons_of_mem _ hr)) hlater (hothers t' hstep')
    exact ⟨c', run_cons.mpr ⟨_, hturn, hrun⟩, run_cons.mpr ⟨_, hstep', hshell⟩, hrest⟩

end

theorem arrivals_flatten (turned : List ReadLine) :
    (turned.map ReadLine.arrivals).flatten.flatten =
      typedChars (turned.map ReadLine.bursts).flatten.flatten := by
  have hbursts : ∀ bursts : List (List UInt8),
      (bursts.map typedChars).flatten = typedChars bursts.flatten :=
    fun bursts => List.filterMap_flatten.symm
  have harrivals : turned.map ReadLine.arrivals =
      (turned.map ReadLine.bursts).map (List.map typedChars) := by
    rw [List.map_map]
    rfl
  rw [harrivals, ← List.map_flatten, hbursts]

/-- In every session at the keyboard, however its interrupts fall between the polls, as long as the
ring has room for what waits in it: the bytes type the lines that are executed, one after another
up to each carriage return, and what waits after the last one; and the shell is as if it had been
given these lines. -/
theorem what_is_typed_is_executed {env : ShellEnv} {s : Nat} {c : Console}
    {live written l : List Nat} (h : ShellReady env c.shell.kheap live [] written s l)
    {capacity : Nat} {waiting : List UInt8} (hinput : InputHolds capacity c.input waiting)
    {turned : List ReadLine} (hready : ∀ r ∈ turned, OutputReady r.output ∧ OnScreen r.video)
    {lines : List (List UInt8)} {rest : List UInt8}
    (hpieces : Pieces capacity ASCII_CTRL_CR waiting (turned.map ReadLine.arrivals) lines rest)
    (hexec : Along (shell_type env s) (Executable env l) c.shell lines)
    (outside : Nat → UInt8) (turns : Nat) :
    (∀ (r : CharRing) (burst : List UInt8),
      r.interrupts outside burst = (typedChars burst).foldl CharRing.enqueue r) ∧
    waiting ++ typedChars (turned.map ReadLine.bursts).flatten.flatten =
      (lines.map (· ++ [ASCII_CTRL_CR])).flatten ++ rest ∧
    (∀ line ∈ lines, ASCII_CTRL_CR ∉ line) ∧
    ∃ c', run (console_turn env turns s) c turned = some c' ∧
      run (shell_type env s) c.shell lines = some c'.shell ∧
      InputHolds capacity c'.input rest := by
  obtain ⟨htext, hmarks⟩ := hpieces.text
  obtain ⟨c', hrun, hshell, hrest, -⟩ := session_types turns h hinput hready hpieces hexec
  rw [arrivals_flatten] at htext
  exact ⟨interrupts_eq outside, htext.symm, hmarks, c', hrun, hshell, hrest⟩

/-- The bytes of `help me` and the return key come before the first of eight polls. -/
def helpMeKeys : ReadLine where
  output := freshRing 0xC0311000
  video := clearScreen
  bursts := [[0x23, 0x12, 0x26, 0x19, 0x39, 0x32, 0x12, 0x1C], [], [], [], [], [], [], []]

theorem help_me_pieces : Pieces TTY_BUFFER_SIZE ASCII_CTRL_CR []
    ([helpMeKeys].map ReadLine.arrivals) [literal "help me"] [] := by
  have hpolled : polled [] helpMeKeys.arrivals = (literal "help me").map some ++
      [some ASCII_CTRL_CR] := by decide
  have hleft : left [] helpMeKeys.arrivals = [] := by decide
  exact ⟨by decide, (literal "help me").map some, [], hpolled, by decide,
    by decide, rfl, hleft.symm⟩

theorem lineFits_allocations {k : Kheap} {chars : List UInt8} (h : lineFits k chars = true) :
    AllocationsSucceed k chars := by
  obtain ⟨buf, k', hfirst, h⟩ := Outcome.returns_iff.mp h
  rw [Bool.and_eq_true, bne_iff_ne] at h
  obtain ⟨_, s, hedits, -⟩ := Outcome.returns_iff.mp h.2
  exact ⟨buf, k', s, hfirst, h.1, hedits⟩

/-- The line `help me` is read from the keyboard and executed. -/
theorem help_me_is_typed_and_executed : ∃ c',
    run (console_turn helpEnv 1 helpShell.1) ⟨helpState helpShell.2, freshRing 0xC0310000⟩
      [helpMeKeys] = some c' ∧
    run (shell_type helpEnv helpShell.1) (helpState helpShell.2) [literal "help me"] =
      some c'.shell := by
  obtain ⟨live, out, l, hshell, hholds⟩ := helpShell_ready
  have hready := helpShell_env hshell hholds
  obtain ⟨-, hadmitted⟩ := typedLine_admitted [out] hshell.commands.heap help_me_fits
  have hwords : wordsOf isSpace (typedLine helpShell.2 (literal "help me")).line =
      [literal "help", literal "me"] := by
    show wordsOf isSpace (lineOf (literal "help me")) = _
    decide
  have halloc := lineFits_allocations help_me_fits
  have hring : InputHolds TTY_BUFFER_SIZE (freshRing 0xC0310000) [] :=
    ⟨⟨⟨by decide, by decide, by decide⟩, ⟨by decide, by decide, by decide⟩⟩, rfl, rfl, rfl⟩
  have hscreen : ∀ r ∈ [helpMeKeys], OutputReady r.output ∧ OnScreen r.video := by
    intro r hr
    rw [List.mem_singleton.mp hr]
    exact ⟨clearTty_output, clearScreen_onScreen⟩
  -- from here on nobody looks into the heap of the shell
  obtain ⟨k, hk⟩ : ∃ k, helpShell.2 = k := ⟨_, rfl⟩
  rw [hk] at hready hadmitted hwords halloc ⊢
  have hexec : Executable helpEnv l (helpState k) (literal "help me") := by
    refine ⟨by decide, halloc, hadmitted l, literal "help", [literal "me"], hwords, ?_⟩
    intro command hcalls
    rw [helpEnv_calls hcalls]
    trivial
  obtain ⟨-, -, -, c', hrun, hexecuted, -⟩ := what_is_typed_is_executed
    (c := ⟨helpState k, freshRing 0xC0310000⟩) hready hring hscreen help_me_pieces
    ⟨hexec, fun _ _ => trivial⟩ (fun _ => 0) 1
  exact ⟨c', hrun, hexecuted⟩

end sakana_os
