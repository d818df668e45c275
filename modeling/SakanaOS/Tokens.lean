-- `strtok` of `string.c` over the memory, and the argument vector that the shell makes of a
-- line with it: a pointer to each word of the line, which then ends in a NUL.
import SakanaOS.ByteMemory
import SakanaOS.Machine
import SakanaOS.Words

open byte_memory words

namespace sakana_os

/-! ## The code -/

/-- The rest of the string from the first `c` on. -/
def strchr : List UInt8 → UInt8 → Option (List UInt8)
  | [], _ => none
  | s :: str, c => if s = c then some (s :: str) else strchr str c

/-- `strcmp` compares up to a NUL, as `unsigned char`. -/
def strcmp : List UInt8 → List UInt8 → Int
  | c :: str1, d :: str2 => if c = d then strcmp str1 str2 else (c.toNat : Int) - d.toNat
  | c :: _, [] => c.toNat
  | [], d :: _ => -(d.toNat : Int)
  | [], [] => 0

/-- What the first loop of `atoi` skips. -/
def atoi_space (c : UInt8) : Bool :=
  c = ' '.toUInt8 ∨ c = '\t'.toUInt8 ∨ c = '\n'.toUInt8 ∨ c = '\r'.toUInt8 ∨ c = 11 ∨ c = 12

def atoi_digits (result : Nat) : List UInt8 → Nat
  | [] => result
  | c :: p =>
    if '0'.toUInt8 ≤ c ∧ c ≤ '9'.toUInt8 then
      atoi_digits (add32 (mul32 result 10) (c - '0'.toUInt8).toNat) p
    else result

/-- The word of the `int`. -/
def atoi (str : List UInt8) : Nat :=
  match str.dropWhile atoi_space with
  | [] => 0
  | c :: p =>
    if c = '+'.toUInt8 then atoi_digits 0 p
    else if c = '-'.toUInt8 then sub32 0 (atoi_digits 0 p)
    else atoi_digits 0 (c :: p)

/-- The characters from `p` up to a NUL. `none` when the walk meets none. -/
def string_at (m : Mem) : Nat → Nat → Option (List UInt8)
  | 0, _ => none
  | turns + 1, p => if m p = 0 then some [] else (string_at m turns (p + 1)).map (m p :: ·)

/-- The memory, and the `static` pointer of `strtok`. -/
structure Strtok where
  mem : Mem
  s : Nat

/-- The loops of `strtok` over the characters that `go` names. -/
def strtok_while (go : UInt8 → Bool) (m : Mem) : Nat → Nat → Option Nat
  | 0, _ => none
  | turns + 1, p => if m p ≠ 0 ∧ go (m p) then strtok_while go m turns (p + 1) else some p

/-- `none` when a loop meets no NUL. -/
def strtok (t : Strtok) (str : Nat) (delim : List UInt8) : Option (Nat × Strtok) :=
  let s := if str ≠ NULL then str else t.s
  if s = NULL then some (NULL, ⟨t.mem, s⟩)
  else
    (strtok_while (fun c => (strchr delim c).isSome) t.mem 4294967296 s).bind fun p =>
      if t.mem p = 0 then some (NULL, ⟨t.mem, NULL⟩)
      else
        let r := p
        (strtok_while (fun c => !(strchr delim c).isSome) t.mem 4294967296 p).bind fun p =>
          if t.mem p = 0 then some (r, ⟨t.mem, NULL⟩)
          else some (r, ⟨store8 t.mem p 0, p + 1⟩)

/-- The `do` loop of `shell_execute_command`: each token goes to `argv`. -/
def shell_argv_loop (argv : Nat) : Nat → Nat → Nat → Strtok → Option (Nat × Strtok)
  | 0, _, _, _ => none
  | turns + 1, argc, token, t =>
    let t := { t with mem := store32 t.mem (argv + 4 * argc) token }
    (strtok t NULL [' '.toUInt8]).bind fun (token, t) =>
      if token = NULL then some (argc + 1, t) else shell_argv_loop argv turns (argc + 1) token t

/-! ## Strings in memory -/

/-- The characters stand at `p`, and a NUL behind them. -/
structure StringAt (m : Mem) (p : Nat) (chars : List UInt8) : Prop where
  bytes : loadList m p chars.length = chars
  nul : m (p + chars.length) = 0
  nonzero : ∀ c ∈ chars, c ≠ 0

section

variable {m m' : Mem} {p : Nat}

theorem stringAt_nil : StringAt m p [] ↔ m p = 0 :=
  ⟨fun h => h.nul, fun h => ⟨rfl, h, fun _ hc => absurd hc List.not_mem_nil⟩⟩

theorem stringAt_cons {c : UInt8} {chars : List UInt8} :
    StringAt m p (c :: chars) ↔ m p = c ∧ c ≠ 0 ∧ StringAt m (p + 1) chars := by
  have hend : p + (c :: chars).length = p + 1 + chars.length := by
    rw [List.length_cons]
    omega
  constructor
  · rintro ⟨hbytes, hnul, hnonzero⟩
    rw [List.length_cons, loadList_succ, List.cons.injEq] at hbytes
    rw [hend] at hnul
    exact ⟨hbytes.1, hnonzero c List.mem_cons_self, hbytes.2, hnul,
      fun d hd => hnonzero d (List.mem_cons_of_mem c hd)⟩
  · rintro ⟨hc, hc0, hbytes, hnul, hnonzero⟩
    refine ⟨?_, by rwa [hend], ?_⟩
    · rw [List.length_cons, loadList_succ, hc, hbytes]
    · intro d hd
      rcases List.mem_cons.mp hd with rfl | hd
      · exact hc0
      · exact hnonzero d hd

theorem StringAt.drop {s chars : List UInt8} (h : StringAt m p (s ++ chars)) :
    StringAt m (p + s.length) chars := by
  induction s generalizing p with
  | nil => exact h
  | cons c s ih =>
    have hrest := ih (stringAt_cons.mp h).2.2
    rwa [List.length_cons, Nat.add_comm s.length 1, ← Nat.add_assoc]

theorem StringAt.congr {chars : List UInt8} (h : StringAt m p chars)
    (hm : ∀ x, p ≤ x → x ≤ p + chars.length → m' x = m x) : StringAt m' p chars := by
  refine ⟨?_, ?_, h.nonzero⟩
  · rw [loadList_congr fun x hx hx' => hm x hx (by omega)]
    exact h.bytes
  · rw [hm _ (by omega) (by omega)]
    exact h.nul

/-- A NUL over a character cuts the string in two. -/
theorem StringAt.cut {w r : List UInt8} {c : UInt8} (h : StringAt m p (w ++ c :: r)) :
    StringAt (store8 m (p + w.length) 0) p w ∧
      StringAt (store8 m (p + w.length) 0) (p + w.length + 1) r := by
  constructor
  · refine ⟨?_, store8_same _ _ _, fun d hd => h.nonzero d (List.mem_append_left _ hd)⟩
    rw [loadList_congr fun x hx hx' => store8_ne m 0 (by omega)]
    have hbytes := h.bytes
    rw [List.length_append, loadList_append] at hbytes
    exact (List.append_inj hbytes (length_loadList m p w.length)).1
  · apply (stringAt_cons.mp h.drop).2.2.congr
    intro x hx _
    exact store8_ne m 0 (by omega)

theorem string_at_eq {chars : List UInt8} (h : StringAt m p chars) {turns : Nat}
    (hturns : chars.length < turns) : string_at m turns p = some chars := by
  induction chars generalizing p turns with
  | nil =>
    obtain ⟨turns, rfl⟩ := Nat.exists_eq_succ_of_ne_zero (Nat.ne_of_gt hturns)
    exact if_pos (stringAt_nil.mp h)
  | cons c chars ih =>
    obtain ⟨hc, hc0, hrest⟩ := stringAt_cons.mp h
    obtain ⟨turns, rfl⟩ := Nat.exists_eq_succ_of_ne_zero (Nat.ne_of_gt (Nat.zero_lt_of_lt hturns))
    rw [string_at, hc, if_neg hc0, ih hrest (Nat.lt_of_succ_lt_succ hturns)]
    rfl

/-- There is one string at a place. -/
theorem StringAt.unique {chars chars' : List UInt8} (h : StringAt m p chars)
    (h' : StringAt m p chars') : chars = chars' := by
  have hread : string_at m (chars.length + chars'.length + 1) p = some chars :=
    string_at_eq h (by omega)
  rw [string_at_eq h' (by omega)] at hread
  exact (Option.some.inj hread).symm

theorem string_at_spec {turns : Nat} {chars : List UInt8} (h : string_at m turns p = some chars) :
    StringAt m p chars ∧ chars.length < turns := by
  induction turns generalizing p chars with
  | zero => cases h
  | succ turns ih =>
    rw [string_at] at h
    split at h
    · rename_i hnul
      cases h
      exact ⟨stringAt_nil.mpr hnul, Nat.succ_pos turns⟩
    · rename_i hc
      obtain ⟨rest, hrest, rfl⟩ := Option.map_eq_some_iff.mp h
      obtain ⟨hat, hlen⟩ := ih hrest
      exact ⟨stringAt_cons.mpr ⟨rfl, hc, hat⟩, Nat.succ_lt_succ hlen⟩

end

/-- Two strings compare as 0 exactly when they are the same. -/
theorem strcmp_eq_zero {str1 str2 : List UInt8} (h1 : ∀ c ∈ str1, c ≠ 0) (h2 : ∀ c ∈ str2, c ≠ 0) :
    strcmp str1 str2 = 0 ↔ str1 = str2 := by
  induction str1 generalizing str2 with
  | nil =>
    cases str2 with
    | nil => simp [strcmp]
    | cons d str2 =>
      have hd : d.toNat ≠ 0 := fun h0 => h2 d List.mem_cons_self (UInt8.toNat_inj.mp h0)
      simp only [strcmp, reduceCtorEq, iff_false]
      omega
  | cons c str1 ih =>
    cases str2 with
    | nil =>
      have hc : c.toNat ≠ 0 := fun h0 => h1 c List.mem_cons_self (UInt8.toNat_inj.mp h0)
      simp only [strcmp, reduceCtorEq, iff_false]
      omega
    | cons d str2 =>
      rw [strcmp]
      by_cases hcd : c = d
      · rw [if_pos hcd, ih (fun e he => h1 e (List.mem_cons_of_mem c he))
          (fun e he => h2 e (List.mem_cons_of_mem d he))]
        simp [hcd]
      · have hne : c.toNat ≠ d.toNat := fun heq => hcd (UInt8.toNat_inj.mp heq)
        rw [if_neg hcd]
        simp only [List.cons.injEq, hcd, false_and, iff_false]
        omega

/-! ## The next token -/

/-- The separator of the shell. -/
def isSpace (c : UInt8) : Bool := c = ' '.toUInt8

theorem strchr_space (c : UInt8) : (strchr [' '.toUInt8] c).isSome = isSpace c := by
  unfold isSpace
  simp only [strchr]
  by_cases hc : ' '.toUInt8 = c
  · simp [hc]
  · simp [hc, Ne.symm hc]

theorem strtok_while_spec (go : UInt8 → Bool) (turns : Nat) {m : Mem} {p : Nat} {s r : List UInt8}
    (h : StringAt m p (s ++ r)) (hs : ∀ c ∈ s, go c = true)
    (hr : r = [] ∨ ∃ c r', r = c :: r' ∧ go c = false) (hturns : s.length < turns) :
    strtok_while go m turns p = some (p + s.length) := by
  induction s generalizing p turns with
  | nil =>
    obtain ⟨turns, rfl⟩ := Nat.exists_eq_succ_of_ne_zero (Nat.ne_of_gt hturns)
    apply if_neg
    rintro ⟨hne, hgo⟩
    rcases hr with rfl | ⟨c, r', rfl, hc⟩
    · exact hne (stringAt_nil.mp h)
    · rw [(stringAt_cons.mp h).1, hc] at hgo
      cases hgo
  | cons c s ih =>
    obtain ⟨turns, rfl⟩ := Nat.exists_eq_succ_of_ne_zero (Nat.ne_of_gt (Nat.zero_lt_of_lt hturns))
    obtain ⟨hc, hc0, hrest⟩ := stringAt_cons.mp h
    have hnext := ih turns hrest (fun d hd => hs d (List.mem_cons_of_mem c hd))
      (Nat.lt_of_succ_lt_succ hturns)
    rw [strtok_while, hc, if_pos ⟨hc0, hs c List.mem_cons_self⟩, hnext, List.length_cons]
    congr 1
    omega

/-- What `strtok` has left below `hi`: nothing, or the string from `r` on. -/
def Rest (t : Strtok) (r hi : Nat) (rest : List UInt8) : Prop :=
  r ≤ hi ∧ ((t.s = NULL ∧ rest = []) ∨
    (t.s = r ∧ r ≠ NULL ∧ StringAt t.mem r rest ∧ r + rest.length < hi))

/-- What a call of `strtok` returns when the string from `p` on is left: the next word, with
a NUL behind it, and what comes after it. -/
structure NextToken (t t' : Strtok) (p q : Nat) (line w : List UInt8) (r : Nat)
    (rest : List UInt8) : Prop where
  words : wordsOf isSpace line = w :: wordsOf isSpace rest
  word : StringAt t'.mem q w
  left : Rest t' r (p + line.length + 1) rest
  ge : p ≤ q
  behind : q + w.length < r
  shorter : rest.length < line.length
  mem : ∀ x, x < q ∨ r ≤ x → t'.mem x = t.mem x

/-- A call of `strtok` when the string from `p` on is left: there are only delimiters, or the next
token is returned, which ends the string or gets a NUL behind it. -/
theorem strtok_call {t : Strtok} (str : Nat) {delim : List UInt8} {isDelim : UInt8 → Bool}
    {p : Nat} {line : List UInt8} (hdelim : ∀ c, (strchr delim c).isSome = isDelim c)
    (hp : (if str ≠ NULL then str else t.s) = p) (h0 : p ≠ NULL) (h : StringAt t.mem p line)
    (hlen : line.length < 4294967296) :
    ((∀ c ∈ line, isDelim c = true) ∧ strtok t str delim = some (NULL, ⟨t.mem, NULL⟩)) ∨
    ∃ s w, (∀ c ∈ s, isDelim c = true) ∧ w ≠ [] ∧ (∀ c ∈ w, isDelim c = false) ∧
      ((line = s ++ w ∧ strtok t str delim = some (p + s.length, ⟨t.mem, NULL⟩)) ∨
        ∃ c r, line = s ++ (w ++ c :: r) ∧ isDelim c = true ∧ strtok t str delim =
          some (p + s.length, ⟨store8 t.mem (p + s.length + w.length) 0,
            p + s.length + w.length + 1⟩)) := by
  unfold strtok
  simp only [hp, if_neg h0, hdelim]
  rcases wordsOf_cases isDelim line with hblank | ⟨s, w, r, rfl, hs, hne, hw, hr⟩
  · -- only delimiters are left
    left
    refine ⟨hblank, ?_⟩
    have hline : StringAt t.mem p (line ++ []) := by rwa [List.append_nil]
    have hskip := strtok_while_spec isDelim 4294967296 hline hblank (Or.inl rfl) hlen
    rw [hskip, Option.bind_some, if_pos h.nul]
  · right
    refine ⟨s, w, hs, hne, hw, ?_⟩
    obtain ⟨c, w', rfl⟩ := List.exists_cons_of_ne_nil hne
    simp only [List.length_append, List.length_cons] at hlen
    have hskip := strtok_while_spec isDelim 4294967296 h hs
      (Or.inr ⟨c, w' ++ r, rfl, hw c List.mem_cons_self⟩) (by omega)
    have hat := h.drop
    have hc : t.mem (p + s.length) ≠ 0 := by
      rw [(stringAt_cons.mp hat).1]
      exact (stringAt_cons.mp hat).2.1
    have hgo : ∀ d ∈ c :: w', (!isDelim d) = true := by
      intro d hd
      rw [hw d hd]
      rfl
    have hstop : r = [] ∨ ∃ e r', r = e :: r' ∧ (!isDelim e) = false := by
      rcases hr with rfl | ⟨e, r', rfl, he⟩
      · exact Or.inl rfl
      · refine Or.inr ⟨e, r', rfl, ?_⟩
        rw [he]
        rfl
    have hspan := strtok_while_spec (fun d => !isDelim d) 4294967296 hat hgo hstop
      (by rw [List.length_cons]; omega)
    rw [hskip, Option.bind_some, if_neg hc, hspan, Option.bind_some]
    rcases hr with rfl | ⟨e, r', rfl, he⟩
    · -- the token ends the string
      rw [List.append_nil] at hat
      exact Or.inl ⟨by rw [List.append_nil], if_pos hat.nul⟩
    · have hend := hat.drop
      have he0 : t.mem (p + s.length + (c :: w').length) ≠ 0 := by
        rw [(stringAt_cons.mp hend).1]
        exact (stringAt_cons.mp hend).2.1
      exact Or.inr ⟨e, r', rfl, he, if_neg he0⟩

theorem strtok_next {t : Strtok} (str : Nat) {p : Nat} {line : List UInt8}
    (hp : (if str ≠ NULL then str else t.s) = p) (h0 : p ≠ NULL) (h : StringAt t.mem p line)
    (hlen : line.length < 4294967296) :
    (wordsOf isSpace line = [] ∧ strtok t str [' '.toUInt8] = some (NULL, ⟨t.mem, NULL⟩)) ∨
    ∃ q t' w r rest, strtok t str [' '.toUInt8] = some (q, t') ∧
      NextToken t t' p q line w r rest := by
  rcases strtok_call str strchr_space hp h0 h hlen with ⟨hblank, hnone⟩ | ⟨s, w, hs, hne, hw, hcall⟩
  · exact Or.inl ⟨wordsOf_blank hblank, hnone⟩
  right
  have hpos : 0 < w.length := List.length_pos_iff.mpr hne
  rcases hcall with ⟨rfl, hcall⟩ | ⟨e, r', rfl, he, hcall⟩
  · -- the word ends the line
    refine ⟨_, _, w, p + s.length + w.length + 1, [], hcall, ?_, h.drop,
      ⟨?_, Or.inl ⟨rfl, rfl⟩⟩, by omega, by omega, ?_, fun _ _ => rfl⟩
    · rw [wordsOf_skip hs, wordsOf_last hne hw, wordsOf_nil]
    · rw [List.length_append]
      omega
    · rw [List.length_append, List.length_nil]
      omega
  · obtain ⟨hword, hrest⟩ := h.drop.cut
    refine ⟨_, _, w, p + s.length + w.length + 1, r', hcall, ?_, hword,
      ⟨?_, Or.inr ⟨rfl, Nat.succ_ne_zero _, hrest, ?_⟩⟩, by omega, by omega, ?_,
      fun x hx => store8_ne _ _ (by omega)⟩
    · rw [wordsOf_skip hs, wordsOf_first hne hw he]
    · simp only [List.length_append, List.length_cons]
      omega
    · simp only [List.length_append, List.length_cons]
      omega
    · simp only [List.length_append, List.length_cons]
      omega

/-! ## The argument vector -/

/-- The pointers of `argv` point to the words, which stand apart between `lo` and `hi`. -/
def ArgvAt (m : Mem) (argv lo hi : Nat) (ws : List (List UInt8)) : Prop :=
  ∀ i w, ws[i]? = some w → StringAt m (load32 m (argv + 4 * i)) w ∧
    lo ≤ load32 m (argv + 4 * i) ∧ load32 m (argv + 4 * i) + w.length < hi

theorem ArgvAt.cons {m : Mem} {argv lo hi token : Nat} {w : List UInt8} {ws : List (List UInt8)}
    (hword : StringAt m token w) (htoken : load32 m argv = token) (hlo : lo ≤ token)
    (hhi : token + w.length < hi) (h : ArgvAt m (argv + 4) lo hi ws) :
    ArgvAt m argv lo hi (w :: ws) := by
  intro i v hv
  cases i with
  | zero =>
    cases hv
    rw [Nat.mul_zero, Nat.add_zero, htoken]
    exact ⟨hword, hlo, hhi⟩
  | succ i =>
    have hplace : argv + 4 * (i + 1) = argv + 4 + 4 * i := by omega
    rw [hplace]
    exact h i v hv

theorem ArgvAt.congr {m m' : Mem} {argv lo hi : Nat} {ws : List (List UInt8)}
    (h : ArgvAt m argv lo hi ws)
    (hargv : ∀ x, argv ≤ x → x < argv + 4 * ws.length → m' x = m x)
    (hm : ∀ x, lo ≤ x → x < hi → m' x = m x) : ArgvAt m' argv lo hi ws := by
  intro i w hw
  obtain ⟨hi', -⟩ := List.getElem?_eq_some_iff.mp hw
  have hload : load32 m' (argv + 4 * i) = load32 m (argv + 4 * i) :=
    load32_congr fun x hx hx' => hargv x (by omega) (by omega)
  obtain ⟨hword, hlo, hhi⟩ := h i w hw
  rw [hload]
  exact ⟨hword.congr fun x hx hx' => hm x (by omega) (by omega), hlo, hhi⟩

theorem ArgvAt.mono {m : Mem} {argv lo hi hi' : Nat} {ws : List (List UInt8)}
    (h : ArgvAt m argv lo hi ws) (hle : hi ≤ hi') : ArgvAt m argv lo hi' ws := by
  intro i w hw
  obtain ⟨hword, hlo, hhi⟩ := h i w hw
  exact ⟨hword, hlo, Nat.lt_of_lt_of_le hhi hle⟩

theorem Rest.mono {t : Strtok} {r hi hi' : Nat} {rest : List UInt8} (h : Rest t r hi rest)
    (hle : hi ≤ hi') : Rest t r hi' rest := by
  obtain ⟨hr, hnone | ⟨hs, h0, hat, hlt⟩⟩ := h
  · exact ⟨by omega, Or.inl hnone⟩
  · exact ⟨by omega, Or.inr ⟨hs, h0, hat, by omega⟩⟩

/-- With nothing left but spaces, or with nothing left, there is no next token. -/
theorem strtok_rest {t : Strtok} {r hi : Nat} {rest : List UInt8} (h : Rest t r hi rest)
    (hhi : hi ≤ 4294967296) :
    (wordsOf isSpace rest = [] ∧ strtok t NULL [' '.toUInt8] = some (NULL, ⟨t.mem, NULL⟩)) ∨
    ∃ q t' w r' rest', strtok t NULL [' '.toUInt8] = some (q, t') ∧
      NextToken t t' r q rest w r' rest' ∧ r + rest.length < hi := by
  obtain ⟨-, ⟨hs, rfl⟩ | ⟨hs, h0, hat, hlt⟩⟩ := h
  · left
    refine ⟨rfl, ?_⟩
    unfold strtok
    simp [hs]
  · rcases strtok_next NULL (by simpa using hs) h0 hat (by omega) with
      hnone | ⟨q, t', w, r', rest', hq, hnext⟩
    · exact Or.inl hnone
    · exact Or.inr ⟨q, t', w, r', rest', hq, hnext, hlt⟩

/-- The loop ends behind the last word. It writes the slots of `argv` that it counts, and of
the line only what comes behind its first token. -/
theorem argv_loop_spec {argv lo hi : Nat} (hhi : hi ≤ 4294967296) {argc token r turns : Nat}
    {t : Strtok} {w rest : List UInt8} (hword : StringAt t.mem token w)
    (hrest : Rest t r hi rest) (hlo : lo ≤ token) (hr : token + w.length < r)
    (hapart : argv + 4 * (argc + 1 + (wordsOf isSpace rest).length) ≤ lo ∨ hi ≤ argv)
    (hturns : (wordsOf isSpace rest).length < turns) :
    ∃ t', shell_argv_loop argv turns argc token t =
        some (argc + 1 + (wordsOf isSpace rest).length, t') ∧
      ArgvAt t'.mem (argv + 4 * argc) lo hi (w :: wordsOf isSpace rest) ∧
      ∀ x, (x < argv + 4 * argc ∨ argv + 4 * (argc + 1 + (wordsOf isSpace rest).length) ≤ x) →
        (x < r ∨ hi ≤ x) → t'.mem x = t.mem x := by
  induction hn : rest.length using Nat.strong_induction_on
    generalizing argc token r turns t w rest with
  | _ n ih =>
    subst hn
    obtain ⟨turns, rfl⟩ := Nat.exists_eq_succ_of_ne_zero (Nat.ne_of_gt (Nat.zero_lt_of_lt hturns))
    have hrhi := hrest.1
    obtain ⟨m, hm⟩ : ∃ m, m = store32 t.mem (argv + 4 * argc) token := ⟨_, rfl⟩
    have hframe : ∀ x, x < argv + 4 * argc ∨ argv + 4 * argc + 4 ≤ x → m x = t.mem x := by
      intro x hx
      rw [hm, store32_frame _ _ hx]
    have hkeep : ∀ x, lo ≤ x → x < hi → m x = t.mem x := by
      intro x hx hx'
      exact hframe x (by omega)
    have htoken : load32 m (argv + 4 * argc) = token := by
      rw [hm, load32_store32 _ _ (by omega)]
    have hword' : StringAt m token w :=
      hword.congr fun x hx hx' => hkeep x (by omega) (by omega)
    have hrest' : Rest ⟨m, t.s⟩ r hi rest := by
      obtain ⟨-, hnone | ⟨hs, h0, hat, hlt⟩⟩ := hrest
      · exact ⟨hrhi, Or.inl hnone⟩
      · exact ⟨hrhi, Or.inr ⟨hs, h0, hat.congr fun x hx hx' => hkeep x (by omega) (by omega), hlt⟩⟩
    unfold shell_argv_loop
    simp only [← hm]
    rcases strtok_rest hrest' hhi with ⟨hwords, hnone⟩ | ⟨q, t', w', r', rest', hq, hnext, hlt⟩
    · -- the token was the last one
      rw [hnone, hwords]
      refine ⟨⟨m, NULL⟩, rfl, ?_, fun x hx _ => ?_⟩
      · apply ArgvAt.cons hword' htoken hlo (by omega)
        intro i v hv
        cases hv
      · simp only [List.length_nil] at hx
        exact hframe x (by omega)
    · have hlen : (wordsOf isSpace rest).length = (wordsOf isSpace rest').length + 1 := by
        rw [hnext.words, List.length_cons]
      have hge := hnext.ge
      have hbehind := hnext.behind
      have hr' := hnext.left.1
      have hq0 : q ≠ NULL := by
        show q ≠ 0
        omega
      have hapart' : argv + 4 * (argc + 1 + 1 + (wordsOf isSpace rest').length) ≤ lo ∨
          hi ≤ argv := by omega
      have hturns' : (wordsOf isSpace rest').length < turns := by omega
      obtain ⟨t'', hloop, hargv, hmem⟩ := ih rest'.length hnext.shorter hnext.word
        (hnext.left.mono (by omega)) (by omega) hbehind hapart' hturns' rfl
      rw [hq, Option.bind_some, if_neg hq0, hloop, hlen]
      refine ⟨t'', ?_, ?_, fun x hx hx' => ?_⟩
      · congr 2
        omega
      · have hslot : load32 t''.mem (argv + 4 * argc) = token := by
          rw [← htoken]
          apply load32_congr
          intro x hx hx'
          rw [hmem x (by omega) (by omega), hnext.mem x (by omega)]
        rw [hnext.words]
        refine ArgvAt.cons (hword'.congr fun x hx hx' => ?_) hslot hlo (by omega) ?_
        · rw [hmem x (by omega) (by omega), hnext.mem x (by omega)]
        · have hplace : argv + 4 * argc + 4 = argv + 4 * (argc + 1) := by omega
          rw [hplace]
          exact hargv
      · rw [hmem x (by omega) (by omega), hnext.mem x (by omega)]
        exact hframe x (by omega)

end sakana_os
