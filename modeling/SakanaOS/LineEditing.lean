-- What `tty_gets` returns: the line that the characters spell, in a buffer that is always large
-- enough for it, when the allocations succeed and the echo ends.
import SakanaOS.ShellCommands
import SakanaOS.Tty
import SakanaOS.VgaBackspace

open byte_memory runs

namespace sakana_os

/-! ## The line that characters spell -/

/-- A letter, a digit or a space. -/
def Typable (c : UInt8) : Prop :=
  ('a'.toUInt8 ≤ c ∧ c ≤ 'z'.toUInt8) ∨ ('A'.toUInt8 ≤ c ∧ c ≤ 'Z'.toUInt8) ∨
    ('0'.toUInt8 ≤ c ∧ c ≤ '9'.toUInt8) ∨ c = ' '.toUInt8

instance (c : UInt8) : Decidable (Typable c) := inferInstanceAs (Decidable (_ ∨ _))

/-- A backspace takes the last character away, and what is not typable is ignored. -/
def editLine (line : List UInt8) (c : UInt8) : List UInt8 :=
  if c = ASCII_CTRL_BS then line.dropLast else if Typable c then line ++ [c] else line

def lineOf (chars : List UInt8) : List UInt8 := chars.foldl editLine []

/-- What the screen gets for a character behind a line. -/
def echoed (line : List UInt8) (c : UInt8) : Option UInt8 :=
  if c = ASCII_CTRL_BS then if line = [] then none else some c
  else if Typable c then some c else none

/-- What the screen gets for characters behind a line, and for the end of the line. -/
def echoOf (line : List UInt8) : List UInt8 → List UInt8
  | [] => ['\n'.toUInt8]
  | c :: cs => (echoed line c).toList ++ echoOf (editLine line c) cs

theorem typable_iff (c : UInt8) : (isalnum c = true ∨ c = ASCII_SPACE) ↔ Typable c := by
  apply byte_forall (P := fun c => (isalnum c = true ∨ c = ASCII_SPACE) ↔ Typable c)
  decide +kernel

theorem Typable.ne {c : UInt8} (h : Typable c) : c ≠ 0 ∧ c ≠ ASCII_CTRL_BS := by
  revert h
  apply byte_forall (P := fun c => Typable c → c ≠ 0 ∧ c ≠ ASCII_CTRL_BS)
  decide +kernel

theorem editLine_nonzero {line : List UInt8} (h : ∀ d ∈ line, d ≠ 0) (c : UInt8) :
    ∀ d ∈ editLine line c, d ≠ 0 := by
  intro d hd
  unfold editLine at hd
  split at hd
  · exact h d ((List.dropLast_sublist line).mem hd)
  · split at hd
    · rename_i hc
      rcases List.mem_append.mp hd with hd | hd
      · exact h d hd
      · rw [List.mem_singleton.mp hd]
        exact hc.ne.1
    · exact h d hd

theorem lineOf_nonzero {chars line : List UInt8} (h : ∀ d ∈ line, d ≠ 0) :
    ∀ d ∈ chars.foldl editLine line, d ≠ 0 := by
  induction chars generalizing line with
  | nil => exact h
  | cons c chars ih => exact ih (editLine_nonzero h c)

/-! ## The buffer -/

/-- The store went into the buffer, which had been allocated that large. -/
def LineStore.Inside (w : LineStore) : Prop :=
  w.buf ≤ w.address ∧ w.address < w.buf + w.buf_size ∧ w.buf_size ≤ w.room

/-- The buffer is a block of the heap with room for `buf_size` characters, every store so far
went into it, and the blocks of the others are as they were in `k`. -/
structure BufferReady (k : Kheap) (live : List Nat) (s : LineEditor) : Prop where
  heap : ClientHeap s.kheap (s.buf :: live) []
  power : ∃ j, s.buf_size = 2 ^ (j + 1)
  fits : s.buf_size ≤ payload_size s.kheap s.buf
  stores : ∀ w ∈ s.stores, w.Inside
  keeps : ∀ q ∈ live, Keeps k s.kheap q
  outside : SameOutside k s.kheap

/-- The buffer holds the line, and has room for one more character. -/
structure LineReady (k : Kheap) (live : List Nat) (s : LineEditor) (line : List UInt8) : Prop
    extends BufferReady k live s where
  idx : s.buf_idx = line.length
  text : loadList s.kheap.mem s.buf line.length = line
  room : line.length < s.buf_size

section

variable {k : Kheap} {live : List Nat} {s : LineEditor} {line : List UInt8}

theorem BufferReady.store (h : BufferReady k live s) (hidx : s.buf_idx < s.buf_size) (c : UInt8) :
    BufferReady k live (s.store c) ∧
      (s.store c).kheap.mem = store8 s.kheap.mem (s.buf + s.buf_idx) c := by
  have hfits := h.fits
  have hbounds := h.heap.bounds (List.mem_cons_self (l := live))
  have haddress : add32 s.buf s.buf_idx = s.buf + s.buf_idx := add32_eq (by omega)
  have hown : ∀ p ∈ [s.buf], p ∈ s.buf :: live := by
    intro p hp
    rw [List.mem_singleton.mp hp]
    exact List.mem_cons_self
  have hkept := write_keeps h.heap hown (m := store8 s.kheap.mem (s.buf + s.buf_idx) c) (by
    intro x hx
    have hbuf := hx s.buf (List.mem_singleton_self s.buf)
    exact store8_ne _ _ (by omega))
  have hnodup := h.heap.nodup
  rw [List.nodup_cons] at hnodup
  unfold LineEditor.store
  simp only [haddress]
  refine ⟨⟨hkept.heap, h.power, ?_, ?_, ?_, h.outside.trans hkept.outside⟩, trivial⟩
  · rw [hkept.sizes s.buf List.mem_cons_self]
    exact hfits
  · intro w hw
    rcases List.mem_cons.mp hw with rfl | hw
    · exact ⟨Nat.le_add_right _ _, Nat.add_lt_add_left hidx _, hfits⟩
    · exact h.stores w hw
  · intro q hq
    apply (h.keeps q hq).trans (hkept.keeps q (List.mem_cons_of_mem _ hq) _)
    intro hmem
    rw [List.mem_singleton.mp hmem] at hq
    exact hnodup.1 hq

/-- The buffer is doubled with all it holds, or the allocation fails. -/
theorem BufferReady.grow (h : BufferReady k live s) :
    (∃ s', s.grow = .fault s') ∨
      ∃ s', s.grow = .done () s' ∧ BufferReady k live s' ∧ s'.buf_size = s.buf_size * 2 ∧
        s'.buf_idx = s.buf_idx ∧
        ∀ i, i < s.buf_size → s'.kheap.mem (s'.buf + i) = s.kheap.mem (s.buf + i) := by
  obtain ⟨j, hpower⟩ := h.power
  have hfits := h.fits
  have hlt := h.heap.payload_lt (List.mem_cons_self (l := live))
  have hdouble : s.buf_size * 2 = 2 ^ (j + 1 + 1) := by rw [hpower, Nat.pow_succ 2 (j + 1)]
  -- the next power of two still fits the heap
  have hsize : s.buf_size * 2 ≤ KHEAP_HEAP_SIZE := by
    have hheap : KHEAP_HEAP_SIZE = 2 ^ 25 := by decide
    rw [hdouble, hheap]
    apply Nat.pow_le_pow_right (by omega)
    have hexp : 2 ^ (j + 1) < 2 ^ 25 := by omega
    exact (Nat.pow_lt_pow_iff_right (by omega)).mp hexp
  have hmul : mul32 s.buf_size 2 = s.buf_size * 2 := by
    apply mul32_eq
    unfold KHEAP_HEAP_SIZE at hsize
    omega
  unfold LineEditor.grow
  simp only [hmul]
  rcases krealloc_resizes h.heap List.mem_cons_self List.not_mem_nil hsize with
    hnull | ⟨r, k', hdone, hresized⟩
  · rw [hnull]
    exact Or.inl ⟨_, rfl⟩
  · have hr : r ≠ NULL := (hresized.heap.bounds List.mem_cons_self).1
    have herase : (s.buf :: live).erase s.buf = live := List.erase_cons_head ..
    obtain ⟨hheap, hfits', hcontent, hkeeps, hout⟩ := hresized
    rw [herase] at hheap hkeeps
    refine Or.inr ⟨{ s with buf := r, buf_size := s.buf_size * 2, kheap := k' }, ?_,
      ⟨hheap, ⟨j + 1, hdouble⟩, hfits', h.stores, ?_, h.outside.trans hout⟩, rfl, rfl, ?_⟩
    · rw [hdone]
      simp only [Outcome.done_lift, Outcome.done_andThen, if_neg hr]
    · intro q hq
      exact (h.keeps q hq).trans (hkeeps q hq)
    · intro i hi
      exact hcontent i (by omega)

/-! ## One character -/

theorem LineReady.prefix_text (h : LineReady k live s line) {n : Nat} (hn : n ≤ line.length) :
    loadList s.kheap.mem s.buf n = line.take n := by
  have hsplit := loadList_append s.kheap.mem s.buf n (line.length - n)
  rw [Nat.add_sub_cancel' hn, h.text] at hsplit
  rw [hsplit]
  exact (List.take_left' (length_loadList _ _ _)).symm

/-- A character behind the line, in a buffer with room for two. -/
theorem LineReady.append (h : LineReady k live s line) (hroom : line.length + 1 < s.buf_size)
    (c : UInt8) :
    LineReady k live { s.store c with buf_idx := add32 s.buf_idx 1 } (line ++ [c]) := by
  have hfits := h.fits
  have hidx := h.idx
  have hbounds := h.heap.bounds (List.mem_cons_self (l := live))
  obtain ⟨hready, hmem⟩ := h.toBufferReady.store (by omega) c
  have hnext : add32 s.buf_idx 1 = line.length + 1 := by
    rw [hidx, add32_eq (by omega)]
  refine ⟨⟨hready.heap, hready.power, hready.fits, hready.stores, hready.keeps, hready.outside⟩,
    ?_, ?_, ?_⟩
  · rw [List.length_append]
    exact hnext
  · simp only [List.length_append, List.length_singleton]
    have hlast : loadList (store8 s.kheap.mem (s.buf + line.length) c) (s.buf + line.length) 1 =
        [c] := by
      rw [loadList_succ, store8_same]
      rfl
    rw [hmem, hidx, LineEditor.store_buf, loadList_append, hlast, loadList_congr, h.text]
    exact fun x _ hx => store8_ne _ _ (by omega)
  · simp only [List.length_append, List.length_singleton]
    exact hroom

/-- A grown buffer holds the line that the smaller one held. -/
theorem LineReady.grown {s' : LineEditor} (h : LineReady k live s line)
    (hbuffer : BufferReady k live s') (hsize : s'.buf_size = s.buf_size * 2)
    (hidx : s'.buf_idx = s.buf_idx)
    (hcontent : ∀ i, i < s.buf_size → s'.kheap.mem (s'.buf + i) = s.kheap.mem (s.buf + i)) :
    LineReady k live s' line := by
  have hroom := h.room
  refine ⟨hbuffer, hidx.trans h.idx, ?_, by omega⟩
  refine Eq.trans ?_ h.text
  unfold loadList
  apply List.map_congr_left
  intro i hi
  exact hcontent i (Nat.lt_trans (List.mem_range.mp hi) hroom)

theorem LineReady.backspace (h : LineReady k live s line) (hne : line ≠ []) :
    LineReady k live (LineEditor.store { s with buf_idx := sub32 s.buf_idx 1 } 0)
      line.dropLast := by
  have hfits := h.fits
  have hidx := h.idx
  have hroom := h.room
  have hpos := List.length_pos_of_ne_nil hne
  have hbounds := h.heap.bounds (List.mem_cons_self (l := live))
  have hback : sub32 s.buf_idx 1 = line.length - 1 := by
    rw [hidx, sub32_eq hpos (by omega)]
  have hbuffer : BufferReady k live { s with buf_idx := sub32 s.buf_idx 1 } :=
    ⟨h.heap, h.power, h.fits, h.stores, h.keeps, h.outside⟩
  obtain ⟨hready, hmem⟩ := hbuffer.store (by
    simp only [hback]
    omega) 0
  refine ⟨hready, ?_, ?_, ?_⟩
  · rw [List.length_dropLast]
    exact hback
  · rw [List.length_dropLast, hmem, List.dropLast_eq_take, ← h.prefix_text (Nat.sub_le _ _),
      LineEditor.store_buf]
    simp only [hback]
    apply loadList_congr
    exact fun x _ hx => store8_ne _ _ (by omega)
  · rw [List.length_dropLast]
    exact Nat.lt_of_le_of_lt (Nat.sub_le _ _) hroom

/-- One character, up to its echo: the buffer holds the edited line, or an allocation failed. -/
theorem edit_ready (h : LineReady k live s line) (c : UInt8) :
    (∃ s', tty_gets_edit s c = .fault s') ∨
      ∃ s', tty_gets_edit s c = .done (echoed line c) s' ∧
        LineReady k live s' (editLine line c) := by
  have hidx := h.idx
  have hroom := h.room
  have hlen : s.buf_idx > 0 ↔ line ≠ [] := by
    rw [hidx]
    exact List.length_pos_iff
  unfold tty_gets_edit echoed editLine
  by_cases hbs : c = ASCII_CTRL_BS
  · subst hbs
    simp only [if_true, true_and]
    by_cases hne : line = []
    · have hblank : ¬ (isalnum ASCII_CTRL_BS = true ∨ ASCII_CTRL_BS = ASCII_SPACE) := by decide
      rw [if_neg (fun hpos => hlen.mp hpos hne), if_neg hblank, if_pos hne]
      subst hne
      exact Or.inr ⟨s, rfl, h⟩
    · rw [if_pos (hlen.mpr hne), if_neg hne]
      exact Or.inr ⟨_, rfl, h.backspace hne⟩
  · rw [if_neg (fun hcond => hbs hcond.1), if_neg hbs, if_neg hbs]
    simp only [typable_iff]
    by_cases htype : Typable c
    · rw [if_pos htype, if_pos htype, if_pos htype]
      have hsize : sub32 s.buf_size 1 = s.buf_size - 1 := by
        have hfits := h.fits
        have hbounds := h.heap.bounds (List.mem_cons_self (l := live))
        exact sub32_eq (by omega) (by omega)
      by_cases hfull : s.buf_idx = sub32 s.buf_size 1
      · rw [if_pos hfull]
        rcases h.toBufferReady.grow with
          ⟨s', hfault⟩ | ⟨s', hdone, hbuffer, hdouble, hsame, hcontent⟩
        · rw [hfault]
          exact Or.inl ⟨s', rfl⟩
        · have hgrown := h.grown hbuffer hdouble hsame hcontent
          rw [hdone]
          refine Or.inr ⟨_, rfl, hgrown.append ?_ c⟩
          omega
      · rw [if_neg hfull]
        refine Or.inr ⟨_, rfl, h.append ?_ c⟩
        omega
    · rw [if_neg htype, if_neg htype, if_neg htype]
      exact Or.inr ⟨s, rfl, h⟩

/-- The results of `tty_getchar` that stand for no character. -/
theorem edit_skipped {c : UInt8} (hc : c = 0xFF ∨ c = 0) (s : LineEditor) (line : List UInt8) :
    tty_gets_edit s c = .done none s ∧ echoed line c = none ∧ editLine line c = line := by
  have hbs : c ≠ ASCII_CTRL_BS := by
    rcases hc with rfl | rfl <;> decide
  have htype : ¬ Typable c := by
    rcases hc with rfl | rfl <;> decide
  unfold tty_gets_edit echoed editLine
  simp only [typable_iff, if_neg hbs, if_neg htype,
    if_neg (fun h : c = ASCII_CTRL_BS ∧ _ => hbs h.1)]
  exact ⟨trivial, trivial, trivial⟩

/-! ## The loop -/

/-- What the characters leave when no allocation fails. -/
theorem edits_ready (h : LineReady k live s line) {chars : List UInt8} {s' : LineEditor}
    (hedits : tty_gets_edits chars s = .done () s') :
    LineReady k live s' (chars.foldl editLine line) := by
  induction chars generalizing s line with
  | nil =>
    cases hedits
    exact h
  | cons c chars ih =>
    rw [tty_gets_edits] at hedits
    rcases edit_ready h c with ⟨s₁, hfault⟩ | ⟨s₁, hdone, hready⟩
    · rw [hfault] at hedits
      cases hedits
    · rw [hdone] at hedits
      exact ih hready hedits

/-- The loop returns when the screen takes the whole echo, and hangs when it does not. -/
theorem gets_loop_follows_echo (h : LineReady k live s line) {chars : List UInt8}
    {s' : LineEditor} (hedits : tty_gets_edits chars s = .done () s') {t : tty_t}
    (hout : OutputReady t.output) {arrivals : List (List UInt8)}
    (hkeys : delivered t.input arrivals = chars ++ [ASCII_CTRL_CR]) (hcr : ASCII_CTRL_CR ∉ chars)
    (turns : Nat) :
    (run (vga_putchar turns) t.video (echoOf line chars) = none ∧
        ∃ u, tty_gets_loop turns arrivals s t = .hang u) ∨
      ∃ video t', run (vga_putchar turns) t.video (echoOf line chars) = some video ∧
        tty_gets_loop turns arrivals s t = .done s'.buf (s'.store 0, t') ∧ t'.video = video := by
  induction chars generalizing s t line arrivals with
  | nil =>
    cases hedits
    cases arrivals with
    | nil => cases hkeys
    | cons keys rest =>
      obtain ⟨c, input, hget⟩ : ∃ c input, tty_getchar (keys.foldl CharRing.enqueue t.input) =
        (c, input) := ⟨_, _, rfl⟩
      rw [delivered, hget] at hkeys
      obtain ⟨rfl, -⟩ := List.cons.inj hkeys
      obtain ⟨output, -, hput⟩ := tty_putchar_eq (t := { t with input := input }) hout '\n'.toUInt8
      have hnot : ¬ (ASCII_CTRL_CR = 0xFF ∨ ASCII_CTRL_CR = 0) := by decide
      simp only [tty_gets_loop, hget, if_neg hnot, if_true, hput, echoOf, run]
      cases vga_putchar turns t.video '\n'.toUInt8 with
      | none => exact Or.inl ⟨rfl, _, rfl⟩
      | some video => exact Or.inr ⟨video, _, rfl, rfl, rfl⟩
  | cons c chars ih =>
    cases arrivals with
    | nil => cases hkeys
    | cons keys rest =>
      obtain ⟨d, input, hget⟩ : ∃ d input, tty_getchar (keys.foldl CharRing.enqueue t.input) =
        (d, input) := ⟨_, _, rfl⟩
      rw [delivered, hget] at hkeys
      obtain ⟨rfl, hrest⟩ := List.cons.inj hkeys
      simp only [List.mem_cons, not_or] at hcr
      obtain ⟨hne, hcr⟩ := hcr
      rw [tty_gets_edits] at hedits
      rcases edit_ready h d with ⟨s₁, hfault⟩ | ⟨s₁, hdone, hready⟩
      · rw [hfault] at hedits
        cases hedits
      · rw [hdone, Outcome.done_andThen] at hedits
        simp only [tty_gets_loop, hget, if_neg (Ne.symm hne), hdone, Outcome.done_lift,
          Outcome.done_andThen, echoOf]
        by_cases hskip : d = 0xFF ∨ d = 0
        · obtain ⟨hsame, hquiet, hline⟩ := edit_skipped hskip s line
          rw [hdone, Outcome.done.injEq] at hsame
          obtain ⟨-, rfl⟩ := hsame
          rw [hline] at hready ⊢
          rw [if_pos hskip, hquiet]
          exact ih hready hedits (t := { t with input := input }) hout hrest hcr
        · rw [if_neg hskip]
          cases hecho : echoed line d with
          | none => exact ih hready hedits (t := { t with input := input }) hout hrest hcr
          | some e =>
            obtain ⟨output, hout', hput⟩ := tty_putchar_eq (t := { t with input := input }) hout e
            simp only [hput, Option.toList_some, List.singleton_append, run]
            cases vga_putchar turns t.video e with
            | none => exact Or.inl ⟨rfl, _, rfl⟩
            | some video => exact ih hready hedits (t := ⟨input, output, video⟩) hout' hrest hcr

end

/-! ## The whole call -/

/-- Every allocation of a call of `tty_gets` for these characters returns memory. -/
def AllocationsSucceed (k : Kheap) (chars : List UInt8) : Prop :=
  ∃ buf k' s, kmalloc k 2 = .done buf k' ∧ buf ≠ NULL ∧
    tty_gets_edits chars ⟨buf, 2, 0, k', []⟩ = .done () s

/-- `tty_gets` returns the line in a block of the heap, after stores to the buffer only. -/
def ReturnsLine (k : Kheap) (live : List Nat) (line : List UInt8)
    (o : Outcome (LineEditor × tty_t) Nat) : Prop :=
  ∃ buf s t, o = .done buf (s, t) ∧ ClientHeap s.kheap (buf :: live) [] ∧
    StringAt s.kheap.mem buf line ∧ line.length < payload_size s.kheap buf ∧
    (∀ w ∈ s.stores, w.Inside) ∧ ∀ q ∈ live, Keeps k s.kheap q

section

variable {k : Kheap} {live : List Nat}

/-- The NUL goes behind the line, into the buffer. -/
theorem LineReady.ended {s : LineEditor} {line : List UInt8} (h : LineReady k live s line)
    (hnonzero : ∀ c ∈ line, c ≠ 0) :
    BufferReady k live (s.store 0) ∧ StringAt (s.store 0).kheap.mem s.buf line := by
  have hroom := h.room
  have hidx := h.idx
  obtain ⟨hready, hmem⟩ := h.toBufferReady.store (by omega) 0
  refine ⟨hready, ?_, ?_, hnonzero⟩
  · rw [hmem, hidx, loadList_congr, h.text]
    exact fun x _ hx => store8_ne _ _ (by omega)
  · rw [hmem, hidx]
    exact store8_same _ _ _

theorem LineReady.finish {s : LineEditor} {line : List UInt8} (h : LineReady k live s line)
    (hnonzero : ∀ c ∈ line, c ≠ 0) (t : tty_t) :
    ReturnsLine k live line (.done s.buf (s.store 0, t)) := by
  obtain ⟨hready, hchars⟩ := h.ended hnonzero
  exact ⟨s.buf, s.store 0, t, rfl, hready.heap, hchars, Nat.lt_of_lt_of_le h.room hready.fits,
    hready.stores, hready.keeps⟩

/-- The buffer of two characters that the call starts with. -/
theorem first_buffer_ready (h : ClientHeap k live []) {buf : Nat} {k' : Kheap}
    (hdone : kmalloc k 2 = .done buf k') (hbuf : buf ≠ NULL) :
    LineReady k live ⟨buf, 2, 0, k', []⟩ [] := by
  rcases kmalloc_obtains h (show 2 ≤ KHEAP_HEAP_SIZE by decide) with
    ⟨hnull, -⟩ | ⟨p, k₁, hgot, hobt⟩
  · rw [hdone] at hnull
    cases hnull
    exact absurd rfl hbuf
  · rw [hdone] at hgot
    cases hgot
    exact ⟨⟨hobt.heap, ⟨0, rfl⟩, hobt.fits, fun w hw => absurd hw List.not_mem_nil, hobt.keeps,
      hobt.outside⟩, rfl, rfl, Nat.zero_lt_two⟩

/-- The call returns the line exactly when the echo goes through. -/
theorem gets_returns_iff (h : ClientHeap k live []) {t : tty_t} (hout : OutputReady t.output)
    {arrivals : List (List UInt8)} {chars : List UInt8}
    (hkeys : delivered t.input arrivals = chars ++ [ASCII_CTRL_CR]) (hcr : ASCII_CTRL_CR ∉ chars)
    (halloc : AllocationsSucceed k chars) :
    (∃ turns, ReturnsLine k live (lineOf chars) (tty_gets turns k t arrivals)) ↔
      ∃ turns video, run (vga_putchar turns) t.video (echoOf [] chars) = some video := by
  obtain ⟨buf, k', s, hdone, hbuf, hedits⟩ := halloc
  have hready := first_buffer_ready h hdone hbuf
  have hline := edits_ready hready hedits
  have hgets : ∀ turns, tty_gets turns k t arrivals =
      tty_gets_loop turns arrivals ⟨buf, 2, 0, k', []⟩ t := by
    intro turns
    unfold tty_gets
    simp only [hdone, Outcome.done_lift, Outcome.done_andThen, if_neg hbuf]
  constructor
  · rintro ⟨turns, buf', s', t', hreturns, -⟩
    rw [hgets] at hreturns
    rcases gets_loop_follows_echo hready hedits hout hkeys hcr turns with
      ⟨-, u, hhang⟩ | ⟨video, t'', hrun, -⟩
    · rw [hhang] at hreturns
      cases hreturns
    · exact ⟨turns, video, hrun⟩
  · rintro ⟨turns, video, hrun⟩
    refine ⟨turns, ?_⟩
    rw [hgets]
    rcases gets_loop_follows_echo hready hedits hout hkeys hcr turns with
      ⟨hnone, -⟩ | ⟨video', t', -, hloop, -⟩
    · rw [hnone] at hrun
      cases hrun
    · rw [hloop]
      exact hline.finish (lineOf_nonzero fun d hd => absurd hd List.not_mem_nil) t'

/-- Whatever the calls of `tty_getchar` deliver before a carriage return: when the allocations
succeed, `tty_gets` returns the line that the characters spell, with every store in the buffer
that is allocated then, exactly if no backspace of the echo gets stuck on the screen. -/
theorem a_line_is_edited_exactly_unless_its_echo_sticks (h : ClientHeap k live []) {t : tty_t}
    (hout : OutputReady t.output) (hscreen : OnScreen t.video) {arrivals : List (List UInt8)}
    {chars : List UInt8} (hkeys : delivered t.input arrivals = chars ++ [ASCII_CTRL_CR])
    (hcr : ASCII_CTRL_CR ∉ chars) (halloc : AllocationsSucceed k chars) :
    (∃ turns, ReturnsLine k live (lineOf chars) (tty_gets turns k t arrivals)) ↔
      Along (vga_putchar 1) (fun v c => ¬ Stuck v c) t.video (echoOf [] chars) :=
  (gets_returns_iff h hout hkeys hcr halloc).trans (run_ends_iff hscreen)

end

/-- The allocations of a call can be run. -/
theorem allocations_succeed {k : Kheap} {chars : List UInt8}
    (h : ((kmalloc k 2).returns fun buf k' => buf != NULL &&
      (tty_gets_edits chars ⟨buf, 2, 0, k', []⟩).returns fun _ _ => true) = true) :
    AllocationsSucceed k chars := by
  obtain ⟨buf, k', hfirst, h⟩ := Outcome.returns_iff.mp h
  rw [Bool.and_eq_true, bne_iff_ne] at h
  obtain ⟨_, s, hedits, -⟩ := Outcome.returns_iff.mp h.2
  exact ⟨buf, k', s, hfirst, h.1, hedits⟩

/-- A ring as `tty_create` sets it up. -/
def freshRing (buffer : Nat) : CharRing := ⟨⟨buffer, 0, 0, 1024, 1, 0⟩, fun _ => 0⟩

/-- A terminal of the standard heap with a clear screen. -/
def clearTty : tty_t := ⟨freshRing 0xC0310000, freshRing 0xC0311000, clearScreen⟩

theorem clearTty_output : OutputReady clearTty.output :=
  ⟨fresh_ringAt (by decide) (by decide) (by decide) (by decide) _, rfl, rfl⟩

/-- The keys come one by one, with polls in between that find the ring empty. -/
theorem a_line_of_two_letters_is_returned :
    ∃ turns, ReturnsLine startHeap [] (lineOf [0xFF, 'h'.toUInt8, 'i'.toUInt8])
      (tty_gets turns startHeap clearTty
        [[], ['h'.toUInt8, 'i'.toUInt8], [], [ASCII_CTRL_CR]]) := by
  have hkeys : delivered clearTty.input [[], ['h'.toUInt8, 'i'.toUInt8], [], [ASCII_CTRL_CR]] =
      [0xFF, 'h'.toUInt8, 'i'.toUInt8] ++ [ASCII_CTRL_CR] := by decide +kernel
  have halloc : AllocationsSucceed startHeap [0xFF, 'h'.toUInt8, 'i'.toUInt8] :=
    allocations_succeed (by decide +kernel)
  have hline := a_line_is_edited_exactly_unless_its_echo_sticks startHeap_client clearTty_output
    clearScreen_onScreen hkeys (by decide) halloc
  exact hline.mpr (not_stuck_of_no_backspace (by decide))

/-- A letter that is taken back on a clear screen. -/
theorem a_letter_taken_back_on_a_clear_screen_hangs :
    ClientHeap startHeap [] [] ∧ OutputReady clearTty.output ∧ OnScreen clearTty.video ∧
      delivered clearTty.input [['a'.toUInt8], [ASCII_CTRL_BS], [ASCII_CTRL_CR]] =
        ['a'.toUInt8, ASCII_CTRL_BS] ++ [ASCII_CTRL_CR] ∧
      AllocationsSucceed startHeap ['a'.toUInt8, ASCII_CTRL_BS] ∧
      ¬ ∃ turns, ReturnsLine startHeap [] (lineOf ['a'.toUInt8, ASCII_CTRL_BS])
        (tty_gets turns startHeap clearTty [['a'.toUInt8], [ASCII_CTRL_BS], [ASCII_CTRL_CR]]) := by
  have hkeys : delivered clearTty.input [['a'.toUInt8], [ASCII_CTRL_BS], [ASCII_CTRL_CR]] =
      ['a'.toUInt8, ASCII_CTRL_BS] ++ [ASCII_CTRL_CR] := by decide +kernel
  have halloc : AllocationsSucceed startHeap ['a'.toUInt8, ASCII_CTRL_BS] :=
    allocations_succeed (by decide +kernel)
  have hecho : echoOf [] ['a'.toUInt8, ASCII_CTRL_BS] =
      ['a'.toUInt8, ASCII_CTRL_BS, '\n'.toUInt8] := by decide
  refine ⟨startHeap_client, clearTty_output, clearScreen_onScreen, hkeys, halloc, ?_⟩
  rw [gets_returns_iff startHeap_client clearTty_output hkeys (by decide) halloc, hecho]
  rintro ⟨turns, video, hrun⟩
  have hstuck : run (vga_putchar turns) clearTty.video ['a'.toUInt8, ASCII_CTRL_BS, '\n'.toUInt8] =
      none := clearScreen_sticks turns _
  rw [hstuck] at hrun
  cases hrun

end sakana_os
