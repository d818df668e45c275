-- `shell_create`: the shell gets its streams, and then its commands are registered one after
-- another. When their names fit the blocks that they are copied to, the shell that results is
-- one that lines can be given to.
import SakanaOS.DriveRuns
import SakanaOS.LineEditing
import SakanaOS.ShellDispatch

open byte_memory block_tiling words runs

namespace sakana_os

open in_memory

/-! ## The code -/

/-- Where the functions start that the streams of a terminal point to. -/
structure StreamFunctions where
  tty_stream_putchar : Nat
  tty_stream_getchar : Nat
  tty_stream_puts : Nat
  tty_stream_gets : Nat

/-- A stream of the terminal with these functions. -/
def tty_get_stream (putchar getchar puts gets : Nat) (k : Kheap) (tty : Nat) :
    Outcome Kheap Nat :=
  (kmalloc k SIZEOF_STREAM).andThen fun s k =>
    if s = NULL then .kpanic KPANIC_OUT_OF_MEMORY "Memory allocation failed." k
    else
      let m := store32 k.mem s putchar
      let m := store32 m (s + 4) getchar
      let m := store32 m (s + 8) puts
      let m := store32 m (s + 12) gets
      .done s { k with mem := store32 m (s + 16) tty }

section

variable (f : StreamFunctions)

def tty_get_in_stream (k : Kheap) (tty : Nat) : Outcome Kheap Nat :=
  tty_get_stream NULL f.tty_stream_getchar NULL f.tty_stream_gets k tty

def tty_get_out_stream (k : Kheap) (tty : Nat) : Outcome Kheap Nat :=
  tty_get_stream f.tty_stream_putchar NULL f.tty_stream_puts NULL k tty

def tty_get_err_stream (k : Kheap) (tty : Nat) : Outcome Kheap Nat :=
  tty_get_stream f.tty_stream_putchar NULL f.tty_stream_puts NULL k tty

def shell_init (k : Kheap) (s tty : Nat) : Outcome Kheap Unit :=
  let k := { k with mem := store32 k.mem s tty }
  (tty_get_in_stream f k tty).andThen fun in_stream k =>
    let k := { k with mem := store32 k.mem (s + 4) in_stream }
    (tty_get_out_stream f k tty).andThen fun out_stream k =>
      let k := { k with mem := store32 k.mem (s + 8) out_stream }
      (tty_get_err_stream f k tty).andThen fun err_stream k =>
        .done () { k with mem := store32 k.mem (s + 12) err_stream }

/-- The commands are registered in this order. -/
def shell_register_commands (s : Nat) : List (CString × Nat) → Kheap → Outcome Kheap Unit
  | [], k => .done () k
  | (name, call) :: commands, k =>
    (shell_register_command k s name call).andThen fun _ k =>
      shell_register_commands s commands k

/-- A shell with the streams of the terminal and these commands. -/
def shell_create_with (commands : List (CString × Nat)) (k : Kheap) (tty : Nat) :
    Outcome Kheap Nat :=
  (shell_alloc k).andThen fun s k =>
    (shell_init f k s tty).andThen fun _ k =>
      (shell_register_commands s commands k).andThen fun _ k => .done s k

/-- The commands of the kernel, and where their handlers start. -/
def shellCommands (functions : ShellCommand → Nat) : List (CString × Nat) :=
  [(helpName, functions .help),
    (⟨literal "clear", by decide +kernel, by decide +kernel⟩, functions .clear),
    (⟨literal "message", by decide +kernel, by decide +kernel⟩, functions .message),
    (⟨literal "memory", by decide +kernel, by decide +kernel⟩, functions .memory),
    (⟨literal "ataread", by decide +kernel, by decide +kernel⟩, functions .ata_read),
    (⟨literal "atawrite", by decide +kernel, by decide +kernel⟩, functions .ata_write),
    (⟨literal "int", by decide +kernel, by decide +kernel⟩, functions .interrupt)]

def shell_create (functions : ShellCommand → Nat) (k : Kheap) (tty : Nat) : Outcome Kheap Nat :=
  shell_create_with f (shellCommands functions) k tty

end

/-! ## The streams -/

section

variable {k : Kheap} {live pinned l : List Nat} {s : Nat}

theorem tty_get_stream_cases (putchar getchar puts gets tty : Nat)
    (h : ClientHeap k live pinned) :
    tty_get_stream putchar getchar puts gets k tty =
        .kpanic KPANIC_OUT_OF_MEMORY "Memory allocation failed." k ∨
      ∃ p k', tty_get_stream putchar getchar puts gets k tty = .done p k' ∧
        Obtained k k' live pinned SIZEOF_STREAM p := by
  unfold tty_get_stream
  rcases kmalloc_obtains h (show SIZEOF_STREAM ≤ KHEAP_HEAP_SIZE by decide) with
    ⟨heq, -⟩ | ⟨p, k', heq, hgot⟩
  · left
    rw [heq, Outcome.done_andThen, if_pos rfl]
  · right
    rw [heq, Outcome.done_andThen, if_neg (hgot.heap.bounds List.mem_cons_self).1]
    refine ⟨p, _, rfl, hgot.filled ?_⟩
    intro x hx
    unfold SIZEOF_STREAM at hx
    rw [store32_frame _ _ (by omega), store32_frame _ _ (by omega),
      store32_frame _ _ (by omega), store32_frame _ _ (by omega), store32_frame _ _ (by omega)]

/-- The first words of a shell can change, and its list stays. -/
theorem CommandList.store_word (h : CommandList k live pinned s l) {offset v : Nat} {m : Mem}
    (hoffset : offset + 4 ≤ 16) (hm : m = store32 k.mem (s + offset) v) :
    CommandList { k with mem := m } live pinned s l ∧
      Kept k { k with mem := m } live pinned [s] := by
  have hroom := h.shellRoom
  simp only [SIZEOF_SHELL] at hroom
  have hown : ∀ q ∈ [s], q ∈ live := by
    intro q hq
    rw [List.mem_singleton.mp hq]
    exact h.shell_live
  have hframe : ∀ x, (∀ q ∈ [s], x < q ∨ q + payload_size k q ≤ x) → m x = k.mem x := by
    intro x hx
    have hxs := hx s (List.mem_singleton_self s)
    rw [hm, store32_frame _ _ (by omega)]
  have hkept := write_keeps h.heap hown hframe
  have hlist : shell_commands_list m s = shell_commands_list k.mem s := by
    unfold shell_commands_list
    rw [hm, load32_store32_ne _ _ (by omega)]
  refine ⟨(h.kept_with_list hkept.heap (fun _ hq => hq) hlist (hkept.sizes s h.shell_live) ?_).1,
    hkept⟩
  intro q hq
  apply hkept.keeps q
  · rcases List.mem_cons.mp hq with rfl | hq
    · exact h.list_live
    · exact h.node_live hq
  · intro hmem
    rw [List.mem_singleton.mp hmem] at hq
    exact h.shell_ne hq

/-- The shell has a new stream, and its other words are as they were. -/
structure Connected (k k' : Kheap) (live pinned : List Nat) (s : Nat) (l : List Nat)
    (offset p : Nat) : Prop where
  commands : CommandList k' (p :: live) pinned s l
  fresh : p ∉ live
  room : SIZEOF_STREAM ≤ payload_size k' p
  pointer : load32 k'.mem (s + offset) = p
  words : ∀ o, o + 4 ≤ SIZEOF_SHELL → (o + 4 ≤ offset ∨ offset + 4 ≤ o) →
    load32 k'.mem (s + o) = load32 k.mem (s + o)
  leaves : Leaves k k' live [s]
  outside : SameOutside k k'

/-- A stream is made, and the shell gets the pointer to it. -/
theorem CommandList.connect (h : CommandList k live pinned s l)
    (putchar getchar puts gets tty : Nat) {offset : Nat} (hoffset : offset + 4 ≤ 16) :
    tty_get_stream putchar getchar puts gets k tty =
        .kpanic KPANIC_OUT_OF_MEMORY "Memory allocation failed." k ∨
      ∃ p k', tty_get_stream putchar getchar puts gets k tty = .done p k' ∧
        Connected k { k' with mem := store32 k'.mem (s + offset) p } live pinned s l offset p := by
  rcases tty_get_stream_cases putchar getchar puts gets tty h.heap with heq | ⟨p, k₁, heq, hgot⟩
  · exact Or.inl heq
  right
  obtain ⟨h₁, -⟩ := h.kept hgot.heap (fun q hq => List.mem_cons_of_mem p hq)
    fun q hq => hgot.keeps q (h.held q hq)
  obtain ⟨h₂, hkept⟩ := h₁.store_word (v := p) hoffset rfl
  obtain ⟨-, hlt, -⟩ := hgot.heap.bounds List.mem_cons_self
  have hne : p ∉ [s] := by
    intro hmem
    apply hgot.fresh
    rw [List.mem_singleton.mp hmem]
    exact h.shell_live
  refine ⟨p, k₁, heq, h₂, hgot.fresh, ?_, load32_store32 _ _ (by omega), ?_, ?_,
    hgot.outside.trans hkept.outside⟩
  · rw [hkept.sizes p List.mem_cons_self]
    exact hgot.fits
  · intro o ho hoff
    have hroom := h.shellRoom
    have hsame : load32 k₁.mem (s + o) = load32 k.mem (s + o) :=
      (hgot.keeps s h.shell_live).load32 (by omega)
    simp only
    rw [load32_store32_ne _ _ (by omega), hsame]
  · exact (leaves_of_keeps hgot.keeps).trans
      (hkept.toLeaves.mono (fun q hq => List.mem_cons_of_mem p hq) fun _ _ hq => hq)

/-- A shell without commands gets its streams, and can write to its output. -/
theorem shell_init_ready (f : StreamFunctions) (tty : Nat) (h : CommandList k live pinned s [])
    (hpins : ∀ q ∈ pinned, q ∈ live) :
    (∃ k', shell_init f k s tty =
        .kpanic KPANIC_OUT_OF_MEMORY "Memory allocation failed." k') ∨
      ∃ live' out k', shell_init f k s tty = .done () k' ∧ (∀ q ∈ live, q ∈ live') ∧
        ShellAt k' live' pinned [out] s [] ∧ SameOutside k k' := by
  obtain ⟨k₀, hk₀⟩ : ∃ k₀, k₀ = { k with mem := store32 k.mem s tty } := ⟨_, rfl⟩
  have hstored := h.store_word (v := tty) (show 0 + 4 ≤ 16 by omega) rfl
  rw [Nat.add_zero, ← hk₀] at hstored
  obtain ⟨h₀, hkept⟩ := hstored
  unfold shell_init tty_get_in_stream tty_get_out_stream tty_get_err_stream
  simp only [← hk₀]
  rcases h₀.connect NULL f.tty_stream_getchar NULL f.tty_stream_gets tty
    (show 4 + 4 ≤ 16 by omega) with heq | ⟨input, k₁, heq, hin⟩
  · exact Or.inl ⟨_, by rw [heq]; rfl⟩
  rw [heq, Outcome.done_andThen]
  rcases hin.commands.connect f.tty_stream_putchar NULL f.tty_stream_puts NULL tty
    (show 8 + 4 ≤ 16 by omega) with heq₂ | ⟨out, k₂, heq₂, hout⟩
  · exact Or.inl ⟨_, by rw [heq₂]; rfl⟩
  rw [heq₂, Outcome.done_andThen]
  rcases hout.commands.connect f.tty_stream_putchar NULL f.tty_stream_puts NULL tty
    (show 12 + 4 ≤ 16 by omega) with heq₃ | ⟨err, k₃, heq₃, herr⟩
  · exact Or.inl ⟨_, by rw [heq₃]; rfl⟩
  right
  rw [heq₃, Outcome.done_andThen]
  have hstream := herr.words 8 (by decide) (by omega)
  rw [hout.pointer] at hstream
  refine ⟨err :: out :: input :: live, out, _, rfl, fun q hq => by simp [hq], ?_,
    ((hkept.outside.trans hin.outside).trans hout.outside).trans herr.outside⟩
  refine ⟨herr.commands, fun q hq => by simp [hpins q hq], ?_, ?_, ?_, ?_, ?_, ?_⟩
  · intro q hq
    rw [List.mem_singleton.mp hq]
    simp
  · exact List.mem_singleton.mpr hstream
  · -- the list and the shell were there before the output
    have hlist := (herr.words 16 (by decide) (by omega)).trans
      (hout.words 16 (by decide) (by omega))
    intro q hq hmem
    apply hout.fresh
    rw [← List.mem_singleton.mp hmem]
    apply hin.commands.held
    unfold shellPointers shell_commands_list at hq ⊢
    rwa [hlist] at hq
  · unfold shell_out_stream
    rw [hstream, herr.leaves.sizes out List.mem_cons_self]
    exact hout.room
  · exact fun a ha => absurd ha List.not_mem_nil
  · exact fun a ha => absurd ha List.not_mem_nil

end

/-! ## The commands -/

section

variable {k k' : Kheap} {live pinned written l : List Nat} {s call c p node : Nat}
  {name : CString}

/-- Neither the new node nor its command is a block that was there before. -/
theorem Registered.fresh (hreg : Registered k k' live pinned s l name call c p node) :
    node ∉ p :: c :: live ∧ p ∉ c :: live ∧ c ∉ live := by
  have hnodup := hreg.commands.heap.nodup
  rw [List.nodup_cons, List.nodup_cons, List.nodup_cons] at hnodup
  exact ⟨hnodup.1, hnodup.2.1, hnodup.2.2.1⟩

theorem Registered.shell_kept (hreg : Registered k k' live pinned s l name call c p node)
    (h : CommandList k live pinned s l) : Keeps k k' s :=
  hreg.leaves.keeps s h.shell_live h.shell_ne

/-- The other commands are as they were. -/
theorem Registered.others_kept (hreg : Registered k k' live pinned s l name call c p node)
    (h : ShellAt k live pinned written s l) {a : Nat} (ha : a ∈ l) :
    nodeName k'.mem a = nodeName k.mem a ∧ nodeCall k'.mem a = nodeCall k.mem a := by
  have hkeep := hreg.leaves.keeps _ (h.commands.data_live ha) (h.commands.data_ne ha)
  have hroom := h.commandRoom a ha
  simp only [SIZEOF_SHELL_COMMAND] at hroom
  have hname : load32 k'.mem (node_data k.mem a + 0) = load32 k.mem (node_data k.mem a + 0) :=
    hkeep.load32 (by omega)
  unfold nodeName nodeCall
  rw [hreg.others a ha]
  exact ⟨hname, hkeep.load32 (by omega)⟩

theorem Registered.node_new (hreg : Registered k k' live pinned s l name call c p node) :
    nodeName k'.mem node = p ∧ nodeCall k'.mem node = call % 4294967296 := by
  unfold nodeName nodeCall
  rw [hreg.data]
  exact ⟨hreg.command.named, hreg.command.call⟩

/-- The names of the other commands stand where they were. -/
theorem Registered.name_kept (hreg : Registered k k' live pinned s l name call c p node)
    (h : ShellAt k live pinned written s l) {a : Nat} (ha : a ∈ l) {str : List UInt8}
    (hstr : NameAt k live (listBlocks k.mem s l ++ written) (nodeName k.mem a) str) :
    NameAt k' (node :: p :: c :: live) (listBlocks k'.mem s (l ++ [node]) ++ written)
      (nodeName k'.mem a) str := by
  have hmono : Leaves k k' live (listBlocks k.mem s l ++ written) :=
    hreg.leaves.mono (fun _ hq => hq) fun q _ hne hmem => hne (List.mem_append_left _ hmem)
  rw [(hreg.others_kept h ha).1]
  apply hstr.after hmono fun q hq => by simp [hq]
  intro q hq hne hmem
  have hother : q ≠ node := by
    rintro rfl
    exact hreg.fresh.1 (by simp [hq])
  have hlist := h.commands.list_kept (hreg.shell_kept h.commands)
  unfold listBlocks at hne hmem
  rw [hlist] at hmem
  simp only [List.cons_append, List.append_assoc, List.mem_cons, List.mem_append,
    List.nil_append] at hmem hne
  tauto

/-- The name of the new command stands in a block that nobody writes. -/
theorem Registered.name_new (hreg : Registered k k' live pinned s l name call c p node)
    (h : ShellAt k live pinned written s l) :
    NameAt k' (node :: p :: c :: live) (listBlocks k'.mem s (l ++ [node]) ++ written) p
      name.chars := by
  obtain ⟨hnode, hp, -⟩ := hreg.fresh
  have hlist := h.commands.list_kept (hreg.shell_kept h.commands)
  have hold : p ∉ live := fun hq => hp (List.mem_cons_of_mem c hq)
  have hsettled : p ∉ listBlocks k'.mem s (l ++ [node]) ++ written := by
    unfold listBlocks
    rw [hlist]
    intro hmem
    rcases List.mem_append.mp hmem with hmem | hmem
    · rcases List.mem_cons.mp hmem with heq | hmem
      · rw [heq] at hold
        exact hold h.commands.list_live
      · rcases List.mem_append.mp hmem with hmem | hmem
        · exact hold (h.commands.node_live hmem)
        · exact hnode (by simp [List.mem_singleton.mp hmem])
    · exact hold (h.written_live p hmem)
  have hroom := hreg.command.nameRoom
  unfold strlen at hroom
  exact ⟨hreg.command.chars, name.fits, fun x hx hx' =>
    Or.inl ⟨p, by simp, hsettled, hx, by omega⟩⟩

/-- A shell stays one when a command with a name that fits is registered. -/
theorem ShellAt.registered (h : ShellAt k live pinned written s l)
    (hreg : Registered k k' live pinned s l name call c p node) :
    ShellAt k' (node :: p :: c :: live) pinned written s (l ++ [node]) := by
  obtain ⟨hnode, -, hc⟩ := hreg.fresh
  have hshell := hreg.shell_kept h.commands
  have hroom := h.commands.shellRoom
  simp only [SIZEOF_SHELL] at hroom
  have hlist : shell_commands_list k'.mem s = shell_commands_list k.mem s :=
    h.commands.list_kept hshell
  have hstream : shell_out_stream k'.mem s = shell_out_stream k.mem s :=
    hshell.load32 (by omega)
  have hlive : ∀ q ∈ live, q ∈ node :: p :: c :: live := fun q hq => by simp [hq]
  refine ⟨hreg.commands, fun q hq => hlive q (h.pins q hq),
    fun q hq => hlive q (h.written_live q hq), ?_, ?_, ?_, ?_, ?_⟩
  · rw [hstream]
    exact h.stream_written
  · -- the new blocks are not among those that were written before
    have hcells : cellsOf k'.mem (l ++ [node]) = cellsOf k.mem l ++ [(node, c)] := by
      unfold cellsOf
      rw [List.map_append, List.map_singleton, hreg.data]
      congr 1
      exact List.map_congr_left fun a ha => by rw [hreg.others a ha]
    intro q hq hmem
    have hold := h.written_live q hmem
    unfold shellPointers at hq
    rw [hcells, cellPointers_append, hlist, List.append_assoc] at hq
    rcases List.mem_append.mp hq with hq | hq
    · exact h.apart q (List.mem_append_left _ hq) hmem
    · rcases List.mem_append.mp hq with hq | hq
      · rcases List.mem_cons.mp hq with rfl | hq
        · exact hc hold
        · rw [List.mem_singleton.mp hq] at hold
          exact hnode (by simp [hold])
      · exact h.apart q (List.mem_append_right _ hq) hmem
  · rw [hstream, hreg.leaves.sizes _ h.stream_live]
    exact h.streamRoom
  · intro a ha
    rcases List.mem_append.mp ha with ha | ha
    · rw [hreg.others a ha, hreg.leaves.sizes _ (h.commands.data_live ha)]
      exact h.commandRoom a ha
    · rw [List.mem_singleton.mp ha, hreg.data]
      exact hreg.command.commandRoom
  · intro a ha
    rcases List.mem_append.mp ha with ha | ha
    · obtain ⟨str, hstr⟩ := h.named a ha
      exact ⟨str, hreg.name_kept h ha hstr⟩
    · rw [List.mem_singleton.mp ha, hreg.node_new.1]
      exact ⟨name.chars, hreg.name_new h⟩

/-- The node holds the command: its name, and where its handler starts. -/
def Holds (k : Kheap) (a : Nat) (command : CString × Nat) : Prop :=
  StringAt k.mem (nodeName k.mem a) command.1.chars ∧ nodeCall k.mem a = command.2 % 4294967296

theorem Registered.holds (hreg : Registered k k' live pinned s l name call c p node)
    (h : ShellAt k live pinned written s l) {commands : List (CString × Nat)}
    (hholds : List.Forall₂ (Holds k) l commands) :
    List.Forall₂ (Holds k') (l ++ [node]) (commands ++ [(name, call)]) := by
  apply List.rel_append
  · apply ((List.forall₂_and_left _ _).mpr ⟨fun _ ha => ha, hholds⟩).imp
    rintro a command ⟨ha, hchars, hcall⟩
    obtain ⟨str, hstr⟩ := h.named a ha
    refine ⟨?_, (hreg.others_kept h ha).2.trans hcall⟩
    rw [hchars.unique hstr.chars]
    exact (hreg.name_kept h ha hstr).chars
  · obtain ⟨hname, hcall⟩ := hreg.node_new
    refine List.Forall₂.cons ⟨?_, hcall⟩ List.Forall₂.nil
    rw [hname]
    exact hreg.command.chars

/-- Commands whose names all fit are registered in their order, or there is no space. -/
theorem ShellAt.registrations (h : ShellAt k live pinned written s l)
    {before commands : List (CString × Nat)} (hholds : List.Forall₂ (Holds k) l before)
    (hfit : Along (register_step s) (fun k command => NameFits k command.1) k commands)
    (hdone : shell_register_commands s commands k = .done () k') :
    ∃ live' l', ShellAt k' live' pinned written s l' ∧
      List.Forall₂ (Holds k') l' (before ++ commands) ∧ (∀ q ∈ live, q ∈ live') ∧
      SameOutside k k' := by
  induction commands generalizing k live l before with
  | nil =>
    cases hdone
    rw [List.append_nil]
    exact ⟨live, l, h, hholds, fun _ hq => hq, SameOutside.refl _⟩
  | cons command commands ih =>
    obtain ⟨name, call⟩ := command
    obtain ⟨hthis, hothers⟩ := hfit
    unfold shell_register_commands at hdone
    rcases shell_register_command_cases h.commands hthis call with
      ⟨k₁, heq, -⟩ | ⟨k₁, c, p, node, heq, hreg⟩
    · rw [heq] at hdone
      cases hdone
    · have hstep : register_step s k (name, call) = some k₁ := by
        unfold register_step
        rw [heq]
      rw [heq, Outcome.done_andThen] at hdone
      obtain ⟨live', l', hshell, hholds', hsub, hout⟩ :=
        ih (h.registered hreg) (hreg.holds h hholds) (hothers k₁ hstep) hdone
      rw [List.append_assoc] at hholds'
      exact ⟨live', l', hshell, hholds', fun q hq => hsub q (by simp [hq]),
        hreg.outside.trans hout⟩

/-- The shell that is created has the commands in their order when their names fit. -/
theorem shell_create_ready (f : StreamFunctions) {commands : List (CString × Nat)} {tty : Nat}
    (h : ClientHeap k live []) (hcreate : shell_create_with f commands k tty = .done s k')
    (hfit : ∀ k₁ k₂, shell_alloc k = .done s k₁ → shell_init f k₁ s tty = .done () k₂ →
      Along (register_step s) (fun k command => NameFits k command.1) k₂ commands) :
    ∃ live' out l, ShellAt k' live' [] [out] s l ∧ List.Forall₂ (Holds k') l commands ∧
      (∀ q ∈ live, q ∈ live') ∧ SameOutside k k' := by
  unfold shell_create_with at hcreate
  obtain ⟨s₁, k₁, halloc, hcreate⟩ := Outcome.andThen_eq_done.mp hcreate
  obtain ⟨_, k₂, hinit, hcreate⟩ := Outcome.andThen_eq_done.mp hcreate
  obtain ⟨_, k₃, hregister, hcreate⟩ := Outcome.andThen_eq_done.mp hcreate
  cases hcreate
  obtain ⟨live₁, hlist, hsub₁, hout₁⟩ := shell_alloc_registry h halloc
  rcases shell_init_ready f tty hlist (fun q hq => absurd hq List.not_mem_nil) with
    ⟨k₂', heq⟩ | ⟨live₂, out, k₂', heq, hsub₂, hshell, hout₂⟩
  · rw [heq] at hinit
    cases hinit
  · rw [heq] at hinit
    cases hinit
    obtain ⟨live₃, l, hshell', hholds, hsub₃, hout₃⟩ :=
      hshell.registrations List.Forall₂.nil (hfit k₁ k₂ halloc heq) hregister
    exact ⟨live₃, out, l, hshell', hholds, fun q hq => hsub₃ q (hsub₂ q (hsub₁ q hq)),
      (hout₁.trans hout₂).trans hout₃⟩

/-- The handlers of a name are those that were registered under it. -/
theorem handlersNamed_of_holds {commands : List (CString × Nat)}
    (h : List.Forall₂ (Holds k) l commands) (w : List UInt8) :
    handlersNamed k.mem l w =
      (commands.filter fun command => command.1.chars = w).map fun command =>
        command.2 % 4294967296 := by
  induction h with
  | nil => rfl
  | @cons a command l commands hfirst _ ih =>
    rw [handlersNamed_cons (string_at_eq hfirst.1 command.1.fits), ih]
    by_cases hw : command.1.chars = w
    · simp [hw, hfirst.2]
    · simp [hw]

theorem handled_of_holds {env : ShellEnv} {commands : List (CString × Nat)}
    (h : List.Forall₂ (Holds k) l commands)
    (hfunctions : ∀ command ∈ commands, ∃ c, env.functions (command.2 % 4294967296) = some c) :
    Handled env k l := by
  induction h with
  | nil => exact fun a ha => absurd ha List.not_mem_nil
  | @cons a command l commands hfirst _ ih =>
    intro b hb
    rcases List.mem_cons.mp hb with rfl | hb
    · rw [hfirst.2]
      exact hfunctions command List.mem_cons_self
    · exact ih (fun c hc => hfunctions c (List.mem_cons_of_mem command hc)) b hb

/-- The names of the commands of the kernel are different. -/
theorem shellCommands_names (functions : ShellCommand → Nat) :
    ((shellCommands functions).map fun command => command.1.chars).Nodup := by
  have hnames : ((shellCommands functions).map fun command => command.1.chars) =
      [literal "help", literal "clear", literal "message", literal "memory", literal "ataread",
        literal "atawrite", literal "int"] := rfl
  rw [hnames]
  decide

theorem filter_key {α β : Type} [DecidableEq β] {key : α → β} {as : List α}
    (h : (as.map key).Nodup) {a : α} (ha : a ∈ as) :
    (as.filter fun c => key c = key a) = [a] := by
  induction as with
  | nil => cases ha
  | cons b as ih =>
    obtain ⟨hb, has⟩ := List.nodup_cons.mp h
    rcases List.mem_cons.mp ha with rfl | ha
    · have hnone : (as.filter fun c => key c = key a) = [] := by
        refine List.filter_eq_nil_iff.mpr fun c hc hkey => hb ?_
        exact List.mem_map.mpr ⟨c, hc, of_decide_eq_true hkey⟩
      rw [List.filter_cons_of_pos (by simp), hnone]
    · have hne : key b ≠ key a := fun heq => hb (heq ▸ List.mem_map_of_mem ha)
      rw [List.filter_cons_of_neg (by simp [hne]), ih has ha]

/-- When the names of the commands fit, the shell of the kernel has a handler for each name, and
it can be given lines once the log and a storage device are there. -/
theorem shell_create_registers (f : StreamFunctions) (functions : ShellCommand → Nat)
    {tty device : Nat} {env : ShellEnv} (h : ClientHeap k live [])
    (hcreate : shell_create f functions k tty = .done s k')
    (hfit : ∀ k₁ k₂, shell_alloc k = .done s k₁ → shell_init f k₁ s tty = .done () k₂ →
      Along (register_step s) (fun k command => NameFits k command.1) k₂ (shellCommands functions))
    (hfunctions : ∀ command, env.functions (functions command % 4294967296) = some command)
    (hlog : LogReady env.log_buffer k') (hdevice : storage_device env.devices = some device)
    (hfound : device ≠ NULL) :
    ∃ live' out l, ShellReady env k' live' [] [out] s l ∧
      ∀ command ∈ shellCommands functions,
        handlersNamed k'.mem l command.1.chars = [command.2 % 4294967296] := by
  obtain ⟨live', out, l, hshell, hholds, -⟩ := shell_create_ready f h hcreate hfit
  have hhandled : Handled env k' l := by
    refine handled_of_holds hholds fun command hcommand => ?_
    simp only [shellCommands, List.mem_cons, List.not_mem_nil, or_false] at hcommand
    rcases hcommand with rfl | rfl | rfl | rfl | rfl | rfl | rfl
    all_goals exact ⟨_, hfunctions _⟩
  refine ⟨live', out, l, ⟨hshell, hlog, hhandled, device, hdevice, hfound⟩, fun command hc => ?_⟩
  rw [handlersNamed_of_holds hholds, filter_key (shellCommands_names functions) hc]
  rfl

end

/-! ## The lines that the terminal reads -/

/-- The editor at the end of a line, when the allocations succeed. -/
def editedLine (k : Kheap) (chars : List UInt8) : LineEditor :=
  match kmalloc k 2 with
  | .done buf k' =>
    match tty_gets_edits chars ⟨buf, 2, 0, k', []⟩ with
    | .done _ s => s
    | _ => ⟨NULL, 2, 0, k, []⟩
  | _ => ⟨NULL, 2, 0, k, []⟩

/-- What `tty_gets` returns for these characters. -/
def typedLine (k : Kheap) (chars : List UInt8) : Typed :=
  ⟨((editedLine k chars).store 0).kheap, (editedLine k chars).buf, lineOf chars⟩

section

variable {env : ShellEnv} {k : Kheap} {live written : List Nat} {chars : List UInt8}

theorem editedLine_eq {k' : Kheap} {buf : Nat} {s : LineEditor}
    (hfirst : kmalloc k 2 = .done buf k')
    (hedits : tty_gets_edits chars ⟨buf, 2, 0, k', []⟩ = .done () s) : editedLine k chars = s := by
  unfold editedLine
  simp only [hfirst, hedits]

theorem editedLine_ready (h : ClientHeap k live []) (halloc : AllocationsSucceed k chars) :
    LineReady k live (editedLine k chars) (lineOf chars) := by
  obtain ⟨buf, k', s, hdone, hbuf, hedits⟩ := halloc
  rw [editedLine_eq hdone hedits]
  exact edits_ready (first_buffer_ready h hdone hbuf) hedits

/-- The shell can read what `tty_gets` returns. -/
theorem typedLine_reads (h : ClientHeap k live []) (halloc : AllocationsSucceed k chars)
    (hlog : LogReady env.log_buffer k) : Reads env k live [] written (typedLine k chars) := by
  have hready := editedLine_ready h halloc
  obtain ⟨hbuffer, hchars⟩ := hready.ended (lineOf_nonzero fun d hd => absurd hd List.not_mem_nil)
  exact ⟨hbuffer.heap, leaves_of_keeps hbuffer.keeps, hlog.after hbuffer.outside, hchars,
    Nat.lt_of_lt_of_le hready.room hbuffer.fits⟩

/-- Unless the echo gets stuck, `tty_gets` returns the typed line. -/
theorem tty_gets_returns_typed (h : ClientHeap k live []) {t : tty_t}
    (hout : OutputReady t.output) {arrivals : List (List UInt8)}
    (hkeys : delivered t.input arrivals = chars ++ [ASCII_CTRL_CR]) (hcr : ASCII_CTRL_CR ∉ chars)
    (halloc : AllocationsSucceed k chars) (turns : Nat) :
    (∃ u, tty_gets turns k t arrivals = .hang u) ∨
      ∃ s t', tty_gets turns k t arrivals = .done (typedLine k chars).inputs (s, t') ∧
        s.kheap = (typedLine k chars).heap := by
  obtain ⟨buf, k', s, hdone, hbuf, hedits⟩ := halloc
  unfold tty_gets typedLine
  simp only [hdone, Outcome.done_lift, Outcome.done_andThen, if_neg hbuf,
    editedLine_eq hdone hedits]
  rcases gets_loop_follows_echo (first_buffer_ready h hdone hbuf) hedits hout hkeys hcr turns with
    ⟨-, u, hhang⟩ | ⟨_, t', -, hloop, -⟩
  · exact Or.inl ⟨u, hhang⟩
  · exact Or.inr ⟨s.store 0, t', hloop, rfl⟩

end

/-! ## A shell with one command -/

def ttyFunctions : StreamFunctions := ⟨0xC0103000, 0xC0103100, 0xC0103200, 0xC0103300⟩

def helpCommands : List (CString × Nat) := [(helpName, 0xC0105000)]

/-- What a call returns, with the heap that it leaves. -/
def resultOf (k : Kheap) : Outcome Kheap Nat → Nat × Kheap
  | .done p k' => (p, k')
  | _ => (NULL, k)

/-- A shell with `help` alone, whose name fits into the hole, and the heap behind it. -/
def helpShell : Nat × Kheap :=
  resultOf heapWithHole (shell_create_with ttyFunctions helpCommands heapWithHole 0xC0110000)

/-- A kernel with an empty log and a disk, where the handler of `help` starts at its address. -/
def helpEnv : ShellEnv where
  log_buffer := ⟨0xC0200000, 0, 0, 50, 260, 0⟩
  devices := {
    registry :=
      (device_register sampleStart.registry 0x2000 0x20).elim sampleStart.registry Prod.snd
    devices := fun d => if d = 0x2000 then ⟨0x0200, 0x02⟩ else ⟨0, 0⟩
    driver := fun _ => sampleDevice }
  isr_interrupt := fun _ t => .done () t
  functions := fun a => if a = 0xC0105000 then some .help else none

/-- The kernel before a line. -/
def helpState (k : Kheap) : ShellState := ⟨⟨k, blankIde⟩, [], 0, NULL⟩

/-- The heap has the space to read the line and for its argument vector. -/
def lineFits (k : Kheap) (chars : List UInt8) : Bool :=
  (kmalloc k 2).returns fun buf k' => buf != NULL &&
    (tty_gets_edits chars ⟨buf, 2, 0, k', []⟩).returns fun _ s =>
      decide (bestFit (argvSize (lineOf chars)) (heap_blocks (s.store 0).kheap) ≠ none)

/-- The heap after a line. -/
def heapAfter (s : Nat) (k : Kheap) (chars : List UInt8) : Kheap :=
  (shell_step helpEnv s (helpState k) (typedLine k chars)).elim k ShellState.kheap

/-- The shell is made, the name of its command fits, and the lines of the sample runs have their
space, also one after another. -/
theorem helpShell_runs :
    ((shell_alloc heapWithHole).returns fun s k₁ =>
      (shell_init ttyFunctions k₁ s 0xC0110000).returns fun _ k₂ => decide (NameFits k₂ helpName) &&
        (shell_register_commands s helpCommands k₂).returns fun _ _ => true) = true ∧
    lineFits helpShell.2 (literal "help me") = true ∧
    lineFits (heapAfter helpShell.1 helpShell.2 (literal "help me")) (literal "x") = true ∧
    lineFits helpShell.2 (literal " ") = true := by
  decide +kernel

theorem helpShell_ready :
    ∃ live out l, ShellAt helpShell.2 live [] [out] helpShell.1 l ∧
      List.Forall₂ (Holds helpShell.2) l helpCommands := by
  obtain ⟨live₀, hheap⟩ := heapWithHole_client
  obtain ⟨s, k₁, halloc, hruns⟩ := Outcome.returns_iff.mp helpShell_runs.1
  obtain ⟨_, k₂, hinit, hruns⟩ := Outcome.returns_iff.mp hruns
  rw [Bool.and_eq_true, decide_eq_true_eq] at hruns
  obtain ⟨hname, hruns⟩ := hruns
  obtain ⟨_, k₃, hregister, -⟩ := Outcome.returns_iff.mp hruns
  have hcreate : shell_create_with ttyFunctions helpCommands heapWithHole 0xC0110000 =
      .done s k₃ := by
    unfold shell_create_with
    rw [halloc, Outcome.done_andThen, hinit, Outcome.done_andThen, hregister, Outcome.done_andThen]
  have hfit : ∀ k k', shell_alloc heapWithHole = .done s k →
      shell_init ttyFunctions k s 0xC0110000 = .done () k' →
      Along (register_step s) (fun k command => NameFits k command.1) k' helpCommands := by
    intro k k' halloc' hinit'
    rw [halloc] at halloc'
    cases halloc'
    rw [hinit] at hinit'
    cases hinit'
    exact ⟨hname, fun _ _ => trivial⟩
  obtain ⟨live, out, l, hshell, hholds, -⟩ := shell_create_ready ttyFunctions hheap hcreate hfit
  have heq : helpShell = (s, k₃) := congrArg (resultOf heapWithHole) hcreate
  rw [heq]
  exact ⟨live, out, l, hshell, hholds⟩

theorem helpEnv_log (k : Kheap) : LogReady helpEnv.log_buffer k :=
  fun _ he => absurd he List.not_mem_nil

theorem helpEnv_calls {k : Kheap} {l : List Nat} {w : List UInt8} {command : ShellCommand}
    (h : Calls helpEnv k l w command) : command = .help := by
  obtain ⟨a, -, -, hcommand⟩ := h
  have hfunction : (if nodeCall k.mem a = 0xC0105000 then some ShellCommand.help else none) =
      some command := hcommand
  split at hfunction
  · exact (Option.some.inj hfunction).symm
  · cases hfunction

theorem helpShell_env {live written l : List Nat}
    (h : ShellAt helpShell.2 live [] written helpShell.1 l)
    (hholds : List.Forall₂ (Holds helpShell.2) l helpCommands) :
    ShellReady helpEnv helpShell.2 live [] written helpShell.1 l := by
  refine ⟨h, helpEnv_log _, handled_of_holds hholds ?_, 0x2000, by decide, by decide⟩
  intro command hcommand
  rw [List.mem_singleton.mp hcommand]
  exact ⟨.help, by decide⟩

theorem typedLine_admitted {k : Kheap} {live : List Nat} (written : List Nat)
    {chars : List UInt8} (h : ClientHeap k live []) (hfits : lineFits k chars = true) :
    Reads helpEnv k live [] written (typedLine k chars) ∧
      ∀ l, Admitted helpEnv l (typedLine k chars) := by
  obtain ⟨buf, k', hfirst, hfits⟩ := Outcome.returns_iff.mp hfits
  rw [Bool.and_eq_true, bne_iff_ne] at hfits
  obtain ⟨_, s, hedits, hbest⟩ := Outcome.returns_iff.mp hfits.2
  rw [decide_eq_true_eq] at hbest
  refine ⟨typedLine_reads h ⟨buf, k', s, hfirst, hfits.1, hedits⟩ (helpEnv_log _),
    fun l => ⟨?_, ?_⟩⟩
  · unfold typedLine
    rw [editedLine_eq hfirst hedits]
    exact hbest
  · intro w ws _ command hcalls
    rw [helpEnv_calls hcalls]
    trivial

theorem help_me_fits : lineFits helpShell.2 (literal "help me") = true := helpShell_runs.2.1

theorem help_me_line : lineOf (literal "help me") = literal "help me" := by decide

/-- The shell calls the handler of `help` with both words of the line. -/
theorem the_handler_of_help_is_called :
    ∃ live written l,
      LineAt (typedLine helpShell.2 (literal "help me")).heap live [] written helpShell.1 l
        (typedLine helpShell.2 (literal "help me")).inputs (literal "help me") ∧
      handlersNamed (typedLine helpShell.2 (literal "help me")).heap.mem l (literal "help") =
        [0xC0105000] ∧
      ∀ calls, ∃ argv k v, LineCalls calls live [] written l helpShell.1
        (typedLine helpShell.2 (literal "help me")).inputs (literal "help me") (literal "help")
        [literal "me"] (helpState (typedLine helpShell.2 (literal "help me")).heap) argv k v := by
  obtain ⟨live, out, l, hshell, hholds⟩ := helpShell_ready
  obtain ⟨hreads, hadmitted⟩ := typedLine_admitted [out] hshell.commands.heap help_me_fits
  have hnamed := hshell.handlersNamed_kept (fun _ ha => ha) hreads.leaves (literal "help")
  rw [handlersNamed_of_holds hholds] at hnamed
  have hat := hreads.lineAt hshell
  have hargv := (hadmitted l).argv
  have hline : (typedLine helpShell.2 (literal "help me")).line = literal "help me" := help_me_line
  rw [hline] at hat hargv
  generalize typedLine helpShell.2 (literal "help me") = typed at *
  refine ⟨live, [out], l, hat, hnamed.trans (by decide), fun calls => ?_⟩
  exact (a_line_calls_the_handlers_of_its_first_word (t := helpState typed.heap) hat hargv).2
    calls _ _ (by decide)

theorem line_releases {k : Kheap} (l : List Nat) {chars w : List UInt8} {ws : List (List UInt8)}
    (hwords : wordsOf isSpace (lineOf chars) = w :: ws) :
    Releases helpEnv l (typedLine k chars) := by
  refine ⟨w, ws, hwords, fun command hcalls => ?_⟩
  rw [helpEnv_calls hcalls]
  trivial

/-- `help me` and then a word that names no command, each typed on the heap that it finds. -/
def helpLines (s : Nat) (k : Kheap) : List Typed :=
  [typedLine k (literal "help me"), typedLine (heapAfter s k (literal "help me")) (literal "x")]

theorem helpLines_read {k : Kheap} {live written l : List Nat} {s : Nat}
    (h : ShellReady helpEnv k live [] written s l) (hfits : lineFits k (literal "help me") = true)
    (hagain : lineFits (heapAfter s k (literal "help me")) (literal "x") = true) :
    Along (shell_step helpEnv s) (fun t typed => Reads helpEnv t.kheap live [] written typed)
        (helpState k) (helpLines s k) ∧
      ∀ typed ∈ helpLines s k, Admitted helpEnv l typed ∧ Releases helpEnv l typed := by
  obtain ⟨hreads, hadmitted⟩ := typedLine_admitted written h.shell.commands.heap hfits
  have hwords : wordsOf isSpace (lineOf (literal "help me")) = [literal "help", literal "me"] := by
    decide
  have hreleases : Releases helpEnv l (typedLine k (literal "help me")) := line_releases l hwords
  obtain ⟨-, t, hstep, hready⟩ := turn_keeps (t := helpState k) h hreads (hadmitted l) hreleases
  have hafter : heapAfter s k (literal "help me") = t.kheap := by
    unfold heapAfter
    rw [hstep, Option.elim_some]
  rw [hafter] at hagain
  obtain ⟨hreads', hadmitted'⟩ := typedLine_admitted written hready.shell.commands.heap hagain
  have hwords' : wordsOf isSpace (lineOf (literal "x")) = [literal "x"] := by decide
  have hreleases' : Releases helpEnv l (typedLine t.kheap (literal "x")) :=
    line_releases l hwords'
  unfold helpLines
  rw [hafter]
  refine ⟨⟨hreads, fun u hu => ⟨?_, fun _ _ => trivial⟩⟩, fun typed htyped => ?_⟩
  · rw [hstep] at hu
    cases hu
    exact hreads'
  · rcases List.mem_cons.mp htyped with rfl | htyped
    · exact ⟨hadmitted l, hreleases⟩
    · rw [List.mem_singleton.mp htyped]
      exact ⟨hadmitted' l, hreleases'⟩

/-- The lines give back all that they take. -/
theorem two_lines_leak_nothing :
    ∃ live written l, ShellReady helpEnv helpShell.2 live [] written helpShell.1 l ∧
      Along (shell_step helpEnv helpShell.1) (Balanced helpEnv helpShell.1)
        (helpState helpShell.2) (helpLines helpShell.1 helpShell.2) ∧
      ∃ t', run (shell_step helpEnv helpShell.1) (helpState helpShell.2)
          (helpLines helpShell.1 helpShell.2) = some t' ∧
        ShellReady helpEnv t'.kheap live [] written helpShell.1 l := by
  obtain ⟨live, out, l, hshell, hholds⟩ := helpShell_ready
  have hready := helpShell_env hshell hholds
  obtain ⟨hreads, hlines⟩ := helpLines_read hready help_me_fits helpShell_runs.2.2.1
  refine ⟨live, [out], l, hready, ?_⟩
  -- from here on nobody looks into the heap of the shell
  obtain ⟨k, hk⟩ : ∃ k, helpShell.2 = k := ⟨_, rfl⟩
  rw [hk] at hready hreads hlines ⊢
  exact commands_that_transfer_nothing_leak_nothing (t := helpState k) hready hreads
    (fun typed htyped => (hlines typed htyped).1) fun typed htyped => (hlines typed htyped).2

/-- The line is a single space, and its argument vector stays allocated. -/
theorem a_blank_line_leaks_its_argument_vector :
    ∃ live written l, ShellReady helpEnv helpShell.2 live [] written helpShell.1 l ∧
      Reads helpEnv helpShell.2 live [] written (typedLine helpShell.2 (literal " ")) ∧
      Admitted helpEnv l (typedLine helpShell.2 (literal " ")) ∧
      (typedLine helpShell.2 (literal " ")).line = literal " " ∧
      ¬ Balanced helpEnv helpShell.1 (helpState helpShell.2) (typedLine helpShell.2 (literal " ")) ∧
      ∃ t' argv, shell_execute_command helpEnv.calls helpShell.1
          (typedLine helpShell.2 (literal " ")).inputs
          (shell_read (helpState helpShell.2) (typedLine helpShell.2 (literal " "))) =
            .done () t' ∧
        ClientHeap t'.kheap (argv :: (typedLine helpShell.2 (literal " ")).inputs :: live) [] := by
  obtain ⟨live, out, l, hshell, hholds⟩ := helpShell_ready
  have hready := helpShell_env hshell hholds
  obtain ⟨hreads, hadmitted⟩ := typedLine_admitted [out] hshell.commands.heap helpShell_runs.2.2.2
  have hline : (typedLine helpShell.2 (literal " ")).line = literal " " := by
    show lineOf (literal " ") = _
    decide
  have hblank : wordsOf isSpace (typedLine helpShell.2 (literal " ")).line = [] := by
    rw [hline]
    decide
  refine ⟨live, [out], l, hready, hreads, hadmitted l, hline, ?_⟩
  obtain ⟨k, hk⟩ : ∃ k, helpShell.2 = k := ⟨_, rfl⟩
  rw [hk] at hshell hready hreads hadmitted hblank ⊢
  generalize typedLine k (literal " ") = typed at *
  constructor
  · exact blank_line_unbalanced (t := helpState k) hready hreads (hadmitted l) hblank
  · obtain ⟨t', argv, hcalls, -, hheap⟩ := execute_blank_line
      (t := shell_read (helpState k) typed) (hreads.lineAt hshell) (hadmitted l).argv hblank
    exact ⟨t', argv, hcalls helpEnv.calls, hheap⟩

end sakana_os
