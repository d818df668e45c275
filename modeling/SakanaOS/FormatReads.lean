-- Which bytes of the format the two formatters read. Both advance the pointer to the format in
-- two places: behind a `%` without a test, and at the end of each turn.
import SakanaOS.Formatter
import SakanaOS.Tokens

open byte_memory

namespace sakana_os

/-! ## The loop over the format in memory -/

section

variable {σ : Type}

/-- The `while` loop of both formatters. A character that is no `%` is dealt with by `lit`, and
the `switch` on the character behind a `%` is `conv`. `reads` are the addresses at which the
format was read, the last one first. -/
def format_loop (text : Mem) (lit : UInt8 → σ → σ) (conv : UInt8 → σ → Except FormatFault σ) :
    Nat → Nat → σ → List Nat → Except FormatFault (σ × List Nat)
  | 0, _, _, _ => throw .no_nul
  | turns + 1, fmt, s, reads =>
    let reads := fmt :: reads
    if text fmt = 0 then return (s, reads)
    else if text fmt = '%'.toUInt8 then do
      let fmt := fmt + 1
      let s ← conv (text fmt) s
      format_loop text lit conv turns (fmt + 1) s (fmt :: reads)
    else format_loop text lit conv turns (fmt + 1) (lit (text fmt) s) reads

/-- The loop returns, and reads nothing behind `last`. -/
def ReadsUpTo (last : Nat) (o : Except FormatFault (σ × List Nat)) : Prop :=
  ∃ s reads, o = .ok (s, reads) ∧ ∀ p ∈ reads, p ≤ last

end

section

variable {δ : Type} (digits : δ → Nat → CString)

/-- The loop of `vsprintf`: the arguments, the memory with the string, and `p`. -/
def vsprintf_fmt (text : Mem) (fmt : Nat) (args : List (Arg δ)) (m : Mem) (str : Nat) :
    Except FormatFault ((List (Arg δ) × Mem × Nat) × List Nat) :=
  format_loop text (fun c (args, m, p) => (args, store8 m p c, p + 1))
    (fun c (args, m, p) => vsprintf_switch digits c args m p) 4294967296 fmt (args, m, str) []

/-- The loop of `stream_vprintf`: the arguments, `count`, and the stream. -/
def stream_vprintf_fmt (text : Mem) (fmt : Nat) (args : List (Arg δ)) (s : Stream) (buf : Nat) :
    Except FormatFault ((List (Arg δ) × Nat × Stream) × List Nat) :=
  format_loop text (fun c (args, count, s) => (args, add32 count 1, stream_putchar s c))
    (fun c (args, count, s) => stream_switch digits buf c args s count) 4294967296 fmt
    (args, 0, s) []

end

/-! ## Formats that are read up to their NUL -/

section

variable {σ δ : Type} {digits : δ → Nat → CString} {text : Mem} {lit : UInt8 → σ → σ}
  {conv : UInt8 → σ → Except FormatFault σ}

/-- A format that has a meaning is read up to its NUL. What holds of the state, of the arguments
that are left and of the characters so far goes with it. -/
theorem format_loop_means {P : List (Arg δ) → List UInt8 → σ → Prop}
    (hlit : ∀ {c args out s}, P args out s → P args (out ++ [c]) (lit c s))
    (hconv : ∀ {c args out o rest s}, P args out s → Converts digits c args o rest →
      ∃ s', conv c s = .ok s' ∧ P rest (out ++ o) s')
    {chars : List UInt8} {args : List (Arg δ)} {o : List UInt8} (h : Means digits chars args o)
    {turns fmt : Nat} {s : σ} {out : List UInt8} {reads : List Nat} (hs : P args out s)
    (htext : StringAt text fmt chars) (hturns : chars.length < turns) :
    ∃ rest s' reads', format_loop text lit conv turns fmt s reads = .ok (s', reads') ∧
      P rest (out ++ o) s' ∧ ∀ p ∈ reads', p ∈ reads ∨ p ≤ fmt + chars.length := by
  induction h generalizing turns fmt s out reads with
  | done args =>
    obtain ⟨turns, rfl⟩ := Nat.exists_eq_succ_of_ne_zero (Nat.ne_of_gt hturns)
    refine ⟨args, s, fmt :: reads, if_pos (stringAt_nil.mp htext), by rwa [List.append_nil], ?_⟩
    intro p hp
    rcases List.mem_cons.mp hp with rfl | hp
    · exact Or.inr (Nat.le_refl _)
    · exact Or.inl hp
  | @lit c chars args o hc _ ih =>
    obtain ⟨turns, rfl⟩ := Nat.exists_eq_succ_of_ne_zero (Nat.ne_of_gt (Nat.zero_lt_of_lt hturns))
    obtain ⟨hchar, h0, hrest⟩ := stringAt_cons.mp htext
    obtain ⟨rest, s', reads', hloop, hs', hreads⟩ :=
      @ih turns (fmt + 1) (lit c s) (out ++ [c]) (fmt :: reads) (hlit hs) hrest
        (Nat.lt_of_succ_lt_succ hturns)
    refine ⟨rest, s', reads', ?_, by rwa [List.append_assoc] at hs', ?_⟩
    · rw [format_loop, hchar, if_neg h0, if_neg hc, hloop]
    · intro p hp
      rw [List.length_cons]
      rcases hreads p hp with hp | hp
      · rcases List.mem_cons.mp hp with rfl | hp
        · exact Or.inr (by omega)
        · exact Or.inl hp
      · exact Or.inr (by omega)
  | @conv c chars args rest o o' hc _ ih =>
    obtain ⟨turns, rfl⟩ := Nat.exists_eq_succ_of_ne_zero (Nat.ne_of_gt (Nat.zero_lt_of_lt hturns))
    obtain ⟨hpercent, h0, htail⟩ := stringAt_cons.mp htext
    obtain ⟨hchar, -, hrest⟩ := stringAt_cons.mp htail
    simp only [List.length_cons] at hturns
    have hmore : chars.length < turns := by omega
    obtain ⟨s₁, hrun, hs₁⟩ := hconv hs hc
    obtain ⟨rest', s', reads', hloop, hs', hreads⟩ :=
      @ih turns (fmt + 1 + 1) s₁ (out ++ o) ((fmt + 1) :: fmt :: reads) hs₁ hrest hmore
    refine ⟨rest', s', reads', ?_, by rwa [List.append_assoc] at hs', ?_⟩
    · rw [format_loop, hpercent, if_neg h0, if_pos rfl]
      simp only [hchar, hrun, bind, Except.bind]
      exact hloop
    · intro p hp
      simp only [List.length_cons]
      rcases hreads p hp with hp | hp
      · simp only [List.mem_cons] at hp
        rcases hp with rfl | rfl | hp
        · exact Or.inr (by omega)
        · exact Or.inr (by omega)
        · exact Or.inl hp
      · exact Or.inr (by omega)

/-! ## Formats that are read on behind their NUL -/

/-- Nothing that was read is forgotten, and each turn starts with a read. -/
theorem format_loop_reads {turns fmt : Nat} {s s' : σ} {reads reads' : List Nat}
    (h : format_loop text lit conv turns fmt s reads = .ok (s', reads')) :
    fmt ∈ reads' ∧ ∀ p ∈ reads, p ∈ reads' := by
  induction turns generalizing fmt s reads with
  | zero => cases h
  | succ turns ih =>
    rw [format_loop] at h
    simp only at h
    split_ifs at h
    · cases h
      exact ⟨List.mem_cons_self, fun p hp => List.mem_cons_of_mem _ hp⟩
    · obtain ⟨s₁, -, h⟩ := bind_eq_ok.mp h
      obtain ⟨-, hkept⟩ := ih h
      exact ⟨hkept _ (by simp), fun p hp => hkept p (by simp [hp])⟩
    · obtain ⟨-, hkept⟩ := ih h
      exact ⟨hkept _ (by simp), fun p hp => hkept p (by simp [hp])⟩

/-- Behind a `%` at the end the loop goes on, and reads the byte behind the NUL. -/
theorem format_loop_dangles {chars : List UInt8} (hend : dangles chars = true)
    {turns fmt : Nat} {s s' : σ} {reads reads' : List Nat} (htext : StringAt text fmt chars)
    (h : format_loop text lit conv turns fmt s reads = .ok (s', reads')) :
    fmt + chars.length + 1 ∈ reads' := by
  induction chars using dangles.induct generalizing turns fmt s reads with
  | case1 => cases hend
  | case2 c =>
    rw [dangles, beq_iff_eq] at hend
    obtain ⟨hchar, h0, -⟩ := stringAt_cons.mp htext
    cases turns with
    | zero => cases h
    | succ turns =>
      rw [format_loop, hchar, if_neg h0, if_pos hend] at h
      obtain ⟨s₁, -, h⟩ := bind_eq_ok.mp h
      exact (format_loop_reads h).1
  | case3 d chars ih =>
    rw [dangles, if_pos rfl] at hend
    obtain ⟨hpercent, h0, htail⟩ := stringAt_cons.mp htext
    obtain ⟨-, -, hrest⟩ := stringAt_cons.mp htail
    cases turns with
    | zero => cases h
    | succ turns =>
      rw [format_loop, hpercent, if_neg h0, if_pos rfl] at h
      obtain ⟨s₁, -, h⟩ := bind_eq_ok.mp h
      have hread := ih hend hrest h
      have hplace : fmt + 1 + 1 + chars.length + 1 =
          fmt + ('%'.toUInt8 :: d :: chars).length + 1 := by
        simp only [List.length_cons]
        omega
      rwa [hplace] at hread
  | case4 c d chars hc ih =>
    rw [dangles, if_neg hc] at hend
    obtain ⟨hchar, h0, htail⟩ := stringAt_cons.mp htext
    cases turns with
    | zero => cases h
    | succ turns =>
      rw [format_loop, hchar, if_neg h0, if_neg hc] at h
      have hread := ih hend htail h
      have hplace : fmt + 1 + (d :: chars).length + 1 = fmt + (c :: d :: chars).length + 1 := by
        simp only [List.length_cons]
        omega
      rwa [hplace] at hread

/-- So a format that dangles is not read up to its NUL only. -/
theorem dangling_reads {chars : List UInt8} (hend : dangles chars = true) {turns fmt : Nat}
    {s : σ} (htext : StringAt text fmt chars) :
    ¬ ReadsUpTo (fmt + chars.length) (format_loop text lit conv turns fmt s []) := by
  rintro ⟨s', reads, hrun, hlast⟩
  have hread := hlast _ (format_loop_dangles hend htext hrun)
  omega

end

/-! ## The two formatters -/

section

variable {δ : Type}

/-- What `vsprintf` has done when it has written `out` and `args` are left. -/
structure VsprintfAt (m : Mem) (str : Nat) (args : List (Arg δ)) (out : List UInt8)
    (s : List (Arg δ) × Mem × Nat) : Prop where
  left : s.1 = args
  pointer : s.2.2 = str + out.length
  written : Written m s.2.1 str out

/-- What `stream_vprintf` has done when it has sent `out` and `args` are left. -/
structure StreamAt (s₀ : Stream) (args : List (Arg δ)) (out : List UInt8)
    (s : List (Arg δ) × Nat × Stream) : Prop where
  left : s.1 = args
  count : s.2.1 = out.length % 4294967296
  sent : s.2.2.sent = s₀.sent ++ out

variable (digits : δ → Nat → CString) {text : Mem} {fmt : Nat} {chars : List UInt8}
  {args : List (Arg δ)}

/-- The loop of `vsprintf` over the format in memory writes what the format means. -/
theorem vsprintf_fmt_means {out : List UInt8} (h : Means digits chars args out)
    (htext : StringAt text fmt chars) (hlen : chars.length < 4294967296) (m : Mem) (str : Nat) :
    ∃ rest s reads, vsprintf_fmt digits text fmt args m str = .ok (s, reads) ∧
      VsprintfAt m str rest out s ∧ ∀ p ∈ reads, p ∈ [] ∨ p ≤ fmt + chars.length := by
  have hstart : VsprintfAt m str args [] (args, m, str) := ⟨rfl, rfl, Written.nothing m str⟩
  unfold vsprintf_fmt
  refine format_loop_means ?_ ?_ h hstart htext hlen
  · rintro c args out ⟨args', m', p⟩ ⟨rfl, rfl, hwritten⟩
    refine ⟨rfl, ?_, hwritten.store8 c⟩
    simp [Nat.add_assoc]
  · rintro c args out o rest ⟨args', m', p⟩ ⟨rfl, rfl, hwritten⟩ hc
    obtain ⟨m₁, hrun, hwritten₁⟩ := vsprintf_switch_spec m' (str + out.length) hc
    refine ⟨_, hrun, rfl, ?_, hwritten.append hwritten₁⟩
    simp [Nat.add_assoc]

/-- The loop of `stream_vprintf` over the format in memory sends what the format means. -/
theorem stream_vprintf_fmt_means {out : List UInt8} (h : Means digits chars args out)
    (htext : StringAt text fmt chars) (hlen : chars.length < 4294967296) (s₀ : Stream)
    (buf : Nat) :
    ∃ rest s reads, stream_vprintf_fmt digits text fmt args s₀ buf = .ok (s, reads) ∧
      StreamAt s₀ rest out s ∧ ∀ p ∈ reads, p ∈ [] ∨ p ≤ fmt + chars.length := by
  have hstart : StreamAt s₀ args [] (args, 0, s₀) := ⟨rfl, rfl, (List.append_nil _).symm⟩
  unfold stream_vprintf_fmt
  refine format_loop_means ?_ ?_ h hstart htext hlen
  · rintro c args out ⟨args', count, s⟩ ⟨rfl, rfl, hsent⟩
    refine ⟨rfl, ?_, ?_⟩
    · simp [add32]
    · simp only [stream_putchar] at hsent ⊢
      rw [hsent, List.append_assoc]
  · rintro c args out o rest ⟨args', count, s⟩ ⟨rfl, rfl, hsent⟩ hc
    obtain ⟨s', hrun, hsent'⟩ := stream_switch_spec buf s _ (Nat.mod_lt _ (by decide)) hc
    refine ⟨_, hrun, rfl, ?_, ?_⟩
    · simp
    · simp only at hsent
      rw [hsent', hsent, List.append_assoc]

theorem vsprintf_fmt_dangles (hend : dangles chars = true) (htext : StringAt text fmt chars)
    (m : Mem) (str : Nat) :
    ¬ ReadsUpTo (fmt + chars.length) (vsprintf_fmt digits text fmt args m str) :=
  dangling_reads hend htext

theorem stream_vprintf_fmt_dangles (hend : dangles chars = true)
    (htext : StringAt text fmt chars) (s : Stream) (buf : Nat) :
    ¬ ReadsUpTo (fmt + chars.length) (stream_vprintf_fmt digits text fmt args s buf) :=
  dangling_reads hend htext

/-- With arguments that match the format, each formatter returns and reads no byte of the format
behind its NUL, exactly when the format does not end in a `%` that starts a conversion. -/
theorem formats_are_read_up_to_their_nul_unless_they_dangle (htext : StringAt text fmt chars)
    (hlen : chars.length < 4294967296) (hargs : ArgsMatch chars args) (m : Mem) (str : Nat)
    (s : Stream) (buf : Nat) :
    (ReadsUpTo (fmt + chars.length) (vsprintf_fmt digits text fmt args m str) ↔
      dangles chars = false) ∧
    (ReadsUpTo (fmt + chars.length) (stream_vprintf_fmt digits text fmt args s buf) ↔
      dangles chars = false) := by
  by_cases hend : dangles chars = true
  · rw [hend]
    exact ⟨⟨fun hreads => absurd hreads (vsprintf_fmt_dangles digits hend htext m str), nofun⟩,
      fun hreads => absurd hreads (stream_vprintf_fmt_dangles digits hend htext s buf), nofun⟩
  · have hclean : dangles chars = false := Bool.eq_false_iff.mpr hend
    obtain ⟨out, hmeans⟩ := formatted_total digits hclean hargs
    obtain ⟨-, s₁, reads₁, hrun₁, -, hlast₁⟩ := vsprintf_fmt_means digits hmeans htext hlen m str
    obtain ⟨-, s₂, reads₂, hrun₂, -, hlast₂⟩ :=
      stream_vprintf_fmt_means digits hmeans htext hlen s buf
    refine ⟨⟨fun _ => hclean, fun _ => ⟨s₁, reads₁, hrun₁, fun p hp => ?_⟩⟩,
      fun _ => hclean, fun _ => ⟨s₂, reads₂, hrun₂, fun p hp => ?_⟩⟩
    · exact (hlast₁ p hp).resolve_left List.not_mem_nil
    · exact (hlast₂ p hp).resolve_left List.not_mem_nil

end

/-- A memory that is cleared but for the characters at 0x3000. -/
def textAt (chars : List UInt8) : Mem := storeList (fun _ => 0) 0x3000 (chars ++ [0])

theorem textAt_stringAt {chars : List UInt8} (h : ∀ c ∈ chars, c ≠ 0) :
    StringAt (textAt chars) 0x3000 chars := by
  obtain ⟨⟨hbytes, -⟩, hnul⟩ := printed_storeList (fun _ => 0) 0x3000 chars
  exact ⟨hbytes, hnul, h⟩

/-- `%d%%`, whose last `%` is the character behind a `%`. -/
def intPercent : List UInt8 := [37, 100, 37, 37]

/-- `5%` -/
def fivePercent : List UInt8 := [53, 37]

theorem a_format_with_two_percents_is_read_up_to_its_nul :
    ReadsUpTo (0x3000 + intPercent.length) (vsprintf_fmt (fun (n : Empty) _ => n.elim)
      (textAt intPercent) 0x3000 [.word 7] (fun _ => 0) 0x2000) := by
  have hargs : ArgsMatch (δ := Empty) intPercent [.word 7] := by
    unfold ArgsMatch
    decide
  have htext : StringAt (textAt intPercent) 0x3000 intPercent :=
    textAt_stringAt (by simp [intPercent])
  have hread := formats_are_read_up_to_their_nul_unless_they_dangle (fun n _ => n.elim) htext
    (by decide) hargs (fun _ => 0) 0x2000 ⟨fun _ => 0, []⟩ 0x1000
  exact hread.1.mpr (by decide)

theorem a_format_that_ends_in_a_percent_is_read_on :
    StringAt (textAt fivePercent) 0x3000 fivePercent ∧
      ArgsMatch (δ := Empty) fivePercent [] ∧
      ¬ ReadsUpTo (0x3000 + fivePercent.length) (vsprintf_fmt (fun (n : Empty) _ => n.elim)
        (textAt fivePercent) 0x3000 [] (fun _ => 0) 0x2000) ∧
      ¬ ReadsUpTo (0x3000 + fivePercent.length) (stream_vprintf_fmt (fun (n : Empty) _ => n.elim)
        (textAt fivePercent) 0x3000 [] ⟨fun _ => 0, []⟩ 0x1000) := by
  have htext : StringAt (textAt fivePercent) 0x3000 fivePercent :=
    textAt_stringAt (by simp [fivePercent])
  have hend : dangles fivePercent = true := by decide
  have hargs : ArgsMatch (δ := Empty) fivePercent [] := by
    unfold ArgsMatch
    decide
  exact ⟨htext, hargs, vsprintf_fmt_dangles _ hend htext _ _,
    stream_vprintf_fmt_dangles _ hend htext _ _⟩

end sakana_os
