-- What a part of a command leaves of the heap: the blocks stay as they were, and so do their
-- bytes but for those of the output stream. Every loop and handler of the shell is such a part.
import SakanaOS.AtaBounds
import SakanaOS.ShellExecute

open byte_memory block_tiling chains

namespace sakana_os

open in_memory

/-! ## Names -/

/-- The byte lies in a block that nobody writes, or in the magic in front of one. -/
def Settled (k : Kheap) (live written : List Nat) (x : Nat) : Prop :=
  (∃ q ∈ live, q ∉ written ∧ q ≤ x ∧ x < q + payload_size k q) ∨
    ∃ q ∈ live, q ≤ x + 20 ∧ x + 16 < q

section

variable {k k' : Kheap} {live live' written written' : List Nat}

theorem Settled.byte {x : Nat} (h : Settled k live written x) (hleaves : Leaves k k' live written) :
    k'.mem x = k.mem x := by
  rcases h with ⟨q, hq, hne, hx, hx'⟩ | ⟨q, hq, hx, hx'⟩
  · exact (hleaves.keeps q hq hne).bytes x hx hx'
  · exact hleaves.magics q hq x hx hx'

theorem Settled.after {x : Nat} (h : Settled k live written x) (hleaves : Leaves k k' live written)
    (hlive : ∀ q ∈ live, q ∈ live') (hwritten : ∀ q ∈ live, q ∉ written → q ∉ written') :
    Settled k' live' written' x := by
  rcases h with ⟨q, hq, hne, hx, hx'⟩ | ⟨q, hq, hx, hx'⟩
  · refine Or.inl ⟨q, hlive q hq, hwritten q hq hne, hx, ?_⟩
    rwa [hleaves.sizes q hq]
  · exact Or.inr ⟨q, hlive q hq, hx, hx'⟩

end

/-! ## The shell among the blocks -/

/-- The name stands at `p`, where nobody writes. -/
structure NameAt (k : Kheap) (live written : List Nat) (p : Nat) (name : List UInt8) : Prop where
  chars : StringAt k.mem p name
  fits : name.length < 4294967296
  settled : ∀ x, p ≤ x → x ≤ p + name.length → Settled k live written x

def nodeName (m : Mem) (a : Nat) : Nat := command_name m (node_data m a)
def nodeCall (m : Mem) (a : Nat) : Nat := command_call m (node_data m a)

/-- The blocks of the list of commands, which change when a command is registered. -/
def listBlocks (m : Mem) (s : Nat) (l : List Nat) : List Nat := shell_commands_list m s :: l

/-- The shell at `s` with the nodes `l` of its commands. Its output stream is one of the
`written` blocks. -/
structure ShellAt (k : Kheap) (live pinned written : List Nat) (s : Nat) (l : List Nat) : Prop where
  commands : CommandList k live pinned s l
  pins : ∀ q ∈ pinned, q ∈ live
  written_live : ∀ q ∈ written, q ∈ live
  stream_written : shell_out_stream k.mem s ∈ written
  apart : ∀ q ∈ shellPointers k.mem s l, q ∉ written
  streamRoom : SIZEOF_STREAM ≤ payload_size k (shell_out_stream k.mem s)
  commandRoom : ∀ a ∈ l, SIZEOF_SHELL_COMMAND ≤ payload_size k (node_data k.mem a)
  named : ∀ a ∈ l, ∃ name,
    NameAt k live (listBlocks k.mem s l ++ written) (nodeName k.mem a) name

section

variable {k k' : Kheap} {live live' pinned written written' l : List Nat} {s : Nat}

theorem NameAt.after {p : Nat} {name : List UInt8} (h : NameAt k live written p name)
    (hleaves : Leaves k k' live written) (hlive : ∀ q ∈ live, q ∈ live')
    (hwritten : ∀ q ∈ live, q ∉ written → q ∉ written') : NameAt k' live' written' p name where
  chars := h.chars.congr fun x hx hx' => (h.settled x hx hx').byte hleaves
  fits := h.fits
  settled x hx hx' := (h.settled x hx hx').after hleaves hlive hwritten

theorem ShellAt.stream_live (h : ShellAt k live pinned written s l) :
    shell_out_stream k.mem s ∈ live :=
  h.written_live _ h.stream_written

theorem ShellAt.pointer_kept (h : ShellAt k live pinned written s l)
    (hleaves : Leaves k k' live written) {q : Nat} (hq : q ∈ shellPointers k.mem s l) :
    Keeps k k' q :=
  hleaves.keeps q (h.commands.held q hq) (h.apart q hq)

/-- What the shell reads of itself and of its commands stays. -/
theorem ShellAt.stream_kept (h : ShellAt k live pinned written s l)
    (hleaves : Leaves k k' live written) :
    shell_out_stream k'.mem s = shell_out_stream k.mem s := by
  have hshell := h.pointer_kept hleaves (shell_mem_pointers k.mem s l)
  have hroom := h.commands.shellRoom
  simp only [SIZEOF_SHELL] at hroom
  exact hshell.load32 (by omega)

theorem ShellAt.node_kept (h : ShellAt k live pinned written s l)
    (hleaves : Leaves k k' live written) {a : Nat} (ha : a ∈ l) :
    node_data k'.mem a = node_data k.mem a ∧ nodeName k'.mem a = nodeName k.mem a ∧
      nodeCall k'.mem a = nodeCall k.mem a := by
  have hnode := h.pointer_kept hleaves (node_mem_pointers ha)
  have hcommand := h.pointer_kept hleaves (data_mem_pointers ha)
  have hroom := h.commands.nodeRoom a ha
  have hroom' := h.commandRoom a ha
  simp only [SIZEOF_LINKED_LIST_NODE, SIZEOF_SHELL_COMMAND] at hroom hroom'
  have hdata : node_data k'.mem a = node_data k.mem a := hnode.load32 (by omega)
  have hname : load32 k'.mem (node_data k.mem a + 0) = load32 k.mem (node_data k.mem a + 0) :=
    hcommand.load32 (by omega)
  unfold nodeName nodeCall
  rw [hdata]
  exact ⟨rfl, hname, hcommand.load32 (by omega)⟩

theorem ShellAt.name_kept (_h : ShellAt k live pinned written s l)
    (hleaves : Leaves k k' live written) {a : Nat} {name : List UInt8}
    (hname : NameAt k live (listBlocks k.mem s l ++ written) (nodeName k.mem a) name) :
    StringAt k'.mem (nodeName k.mem a) name := by
  have hmono : Leaves k k' live (listBlocks k.mem s l ++ written) :=
    hleaves.mono (fun _ hq => hq) fun q _ hne hmem => hne (List.mem_append_right _ hmem)
  exact (hname.after hmono (fun _ hq => hq) fun _ _ hne => hne).chars

/-- The shell stays when its blocks keep their bytes. -/
theorem ShellAt.after (h : ShellAt k live pinned written s l) (hheap : ClientHeap k' live' pinned)
    (hlive : ∀ q ∈ live, q ∈ live') (hleaves : Leaves k k' live written)
    (hlive' : ∀ q ∈ written', q ∈ live') (hstream : shell_out_stream k.mem s ∈ written')
    (hwritten : ∀ q ∈ live, q ∉ written → q ∉ written') :
    ShellAt k' live' pinned written' s l := by
  obtain ⟨hcommands, hpointers⟩ := h.commands.kept hheap hlive
    fun q hq => h.pointer_kept hleaves hq
  have hout := h.stream_kept hleaves
  have hlist := h.commands.list_kept (h.pointer_kept hleaves (shell_mem_pointers k.mem s l))
  refine ⟨hcommands, fun q hq => hlive q (h.pins q hq), hlive', ?_, ?_, ?_, ?_, ?_⟩
  · rw [hout]
    exact hstream
  · rw [hpointers]
    exact fun q hq => hwritten q (h.commands.held q hq) (h.apart q hq)
  · rw [hout, hleaves.sizes _ h.stream_live]
    exact h.streamRoom
  · intro a ha
    rw [(h.node_kept hleaves ha).1, (h.pointer_kept hleaves (data_mem_pointers ha)).size]
    exact h.commandRoom a ha
  · intro a ha
    obtain ⟨name, hname⟩ := h.named a ha
    have hmono : Leaves k k' live (listBlocks k.mem s l ++ written) :=
      hleaves.mono (fun _ hq => hq) fun q _ hne hmem => hne (List.mem_append_right _ hmem)
    refine ⟨name, ?_⟩
    unfold listBlocks
    rw [(h.node_kept hleaves ha).2.1, hlist]
    apply hname.after hmono hlive
    intro q hq hne hmem
    rcases List.mem_append.mp hmem with hmem | hmem
    · exact hne (List.mem_append_left _ hmem)
    · exact hwritten q hq (fun hw => hne (List.mem_append_right _ hw)) hmem

theorem ShellAt.kept (h : ShellAt k live pinned written s l)
    (hkept : Kept k k' live pinned written) : ShellAt k' live pinned written s l :=
  h.after hkept.heap (fun _ hq => hq) hkept.toLeaves h.written_live h.stream_written
    fun _ _ hne => hne

end

/-! ## Strings that somebody reads -/

/-- Behind a NUL nothing is read. -/
theorem string_at_takeWhile {m : Mem} {n : Nat} (turns : Nat) {p : Nat} (hn : n < turns)
    (hnul : m (p + n) = 0) :
    string_at m turns p = some ((loadList m p n).takeWhile (· != 0)) := by
  induction turns generalizing p n with
  | zero => exact absurd hn (Nat.not_lt_zero n)
  | succ turns ih =>
    rw [string_at]
    cases n with
    | zero => exact if_pos hnul
    | succ n =>
      have hplace : p + 1 + n = p + (n + 1) := by omega
      rw [loadList_succ]
      by_cases hc : m p = 0
      · rw [if_pos hc, List.takeWhile_cons_of_neg (by simp [hc])]
      · rw [if_neg hc, List.takeWhile_cons_of_pos (by simp [hc]),
          ih (Nat.lt_of_succ_lt_succ hn) (by rw [hplace]; exact hnul)]
        rfl

theorem string_at_exists {m : Mem} {n : Nat} (turns : Nat) {p : Nat} (hn : n < turns)
    (hnul : m (p + n) = 0) : ∃ chars, string_at m turns p = some chars :=
  ⟨_, string_at_takeWhile turns hn hnul⟩

theorem cstring_at_exists {m : Mem} {p : Nat} {chars : List UInt8}
    (h : string_at m 4294967296 p = some chars) :
    ∃ str, cstring_at m p = some str ∧ str.chars = chars := by
  refine ⟨⟨chars, (string_at_spec h).1.nonzero, (string_at_spec h).2⟩, ?_, rfl⟩
  unfold cstring_at
  simp only [h, Option.pmap_some]

/-! ## The tokens among the blocks -/

/-- The tokens stand in the line of a client, with pointers to them in the block at `argv`. -/
structure ArgsAt (k : Kheap) (live written : List Nat) (argv : Nat) (ws : List (List UInt8)) :
    Prop where
  held : argv ∈ live
  ne : argv ∉ written
  room : 4 * ws.length ≤ payload_size k argv
  words : ∃ inputs ∈ live, inputs ∉ written ∧
    ArgvAt k.mem argv inputs (inputs + payload_size k inputs) ws

section

variable {k k' : Kheap} {live pinned written : List Nat} {argv : Nat} {ws : List (List UInt8)}

theorem ArgsAt.kept (h : ArgsAt k live written argv ws) (hleaves : Leaves k k' live written) :
    ArgsAt k' live written argv ws := by
  obtain ⟨inputs, hinputs, hne, hargv⟩ := h.words
  have hkeep := hleaves.keeps argv h.held h.ne
  have hkeepi := hleaves.keeps inputs hinputs hne
  have hroom := h.room
  refine ⟨h.held, h.ne, by rwa [hkeep.size], inputs, hinputs, hne, ?_⟩
  rw [hkeepi.size]
  exact hargv.congr (fun x hx hx' => hkeep.bytes x hx (by omega))
    fun x hx hx' => hkeepi.bytes x hx hx'

/-- A token is a name where nobody writes. -/
theorem ArgsAt.token (h : ArgsAt k live written argv ws) (hheap : ClientHeap k live pinned)
    {i : Nat} {w : List UInt8} (hw : ws[i]? = some w) :
    NameAt k live written (load32 k.mem (argv + 4 * i)) w := by
  obtain ⟨inputs, hinputs, hne, hargv⟩ := h.words
  obtain ⟨hchars, hlo, hhi⟩ := hargv i w hw
  obtain ⟨-, hbound, -⟩ := hheap.bounds hinputs
  exact ⟨hchars, by omega,
    fun x hx hx' => Or.inl ⟨inputs, hinputs, hne, by omega, by omega⟩⟩

/-- An argument is read as its token. -/
theorem ArgsAt.read (h : ArgsAt k live written argv ws) (hheap : ClientHeap k live pinned)
    {i x : Nat} {w : List UInt8} (hx : x = argv + 4 * i) (hw : ws[i]? = some w) :
    string_at k.mem 4294967296 (load32 k.mem x) = some w := by
  have htoken := h.token hheap hw
  rw [hx]
  exact string_at_eq htoken.chars htoken.fits

end

/-! ## The formats -/

/-- The format takes arguments of these kinds. -/
def Takes (fmt : CString) (kinds : List ArgKind) : Prop :=
  dangles fmt.chars = false ∧ formatKinds fmt.chars = kinds

instance (fmt : CString) (kinds : List ArgKind) : Decidable (Takes fmt kinds) :=
  inferInstanceAs (Decidable (_ ∧ _))

theorem helpFormat_takes : Takes helpFormat [.word, .string] := by decide

theorem enabledFormat_takes : Takes enabledFormat [.string] := by decide

theorem blockFormat_takes : Takes blockFormat [.word, .word, .word] := by decide

theorem totalFormat_takes : Takes totalFormat [.word] := by decide

theorem failedFormat_takes : Takes failedFormat [.string] := by decide

/-! ## Parts of a command -/

/-- The part returns, and everything is kept. -/
def Serves {α : Type} (live pinned written : List Nat) (t : ShellState)
    (o : Outcome ShellState α) : Prop :=
  ∃ a t', o = .done a t' ∧ Kept t.kheap t'.kheap live pinned written

section

variable {live pinned written l : List Nat} {s argv : Nat} {t : ShellState}

theorem Serves.andThen {α β : Type} {o : Outcome ShellState α}
    {f : α → ShellState → Outcome ShellState β} (h : Serves live pinned written t o)
    (hf : ∀ a t', Kept t.kheap t'.kheap live pinned written →
      Serves live pinned written t' (f a t')) : Serves live pinned written t (o.andThen f) := by
  obtain ⟨a, t', rfl, hkept⟩ := h
  obtain ⟨b, t'', heq, hkept'⟩ := hf a t' hkept
  exact ⟨b, t'', heq, hkept.trans hkept'⟩

/-- What leaves the heap alone keeps everything. -/
theorem serves_done {α : Type} (h : ClientHeap t.kheap live pinned) (a : α) {t' : ShellState}
    (heq : t'.kheap = t.kheap) : Serves live pinned written t (.done a t') := by
  refine ⟨a, t', rfl, ?_⟩
  rw [heq]
  exact Kept.refl h

/-- A print writes into the buffer of the stream. -/
theorem ShellAt.print (h : ShellAt t.kheap live pinned written s l) {fmt : CString}
    {kinds : List ArgKind} {args : List (Arg Empty)} (htakes : Takes fmt kinds)
    (hargs : args.map Arg.kind = kinds) :
    Serves live pinned written t (stream_printf t s fmt args) := by
  have hmatch : ArgsMatch fmt.chars args := by
    unfold ArgsMatch
    rw [htakes.2, hargs]
  obtain ⟨out, hmeans⟩ := formatted_total (fun n _ => n.elim) htakes.1 hmatch
  obtain ⟨s', hrun, -⟩ := stream_vprintf_loop_spec
    (shell_out_stream t.mem s + STREAM_BUF_OFFSET) ⟨t.mem, t.sent⟩ 0 (by decide) hmeans
  have hframe := stream_vprintf_loop_frame hrun
  have hroom : 52 ≤ payload_size t.kheap (shell_out_stream t.mem s) := h.streamRoom
  unfold stream_printf
  rw [stream_vprintf, hrun]
  have hown : ∀ p ∈ [shell_out_stream t.mem s], p ∈ live := by
    intro p hp
    rw [List.mem_singleton.mp hp]
    exact h.stream_live
  have hkept : Kept t.kheap { t.kheap with mem := s'.mem } live pinned
      [shell_out_stream t.mem s] := by
    apply write_keeps h.commands.heap hown
    intro x hx
    have hxs := hx _ (List.mem_singleton_self _)
    unfold STREAM_BUF_OFFSET at hframe
    exact hframe x (by omega)
  refine ⟨_, _, rfl, ⟨hkept.toLeaves.mono (fun _ hq => hq) ?_, hkept.heap, hkept.blocks,
    hkept.outside⟩⟩
  intro q _ hne hmem
  rw [List.mem_singleton.mp hmem] at hne
  exact hne h.stream_written

end

end sakana_os
