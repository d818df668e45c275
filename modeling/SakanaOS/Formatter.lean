-- The two formatters. `vsprintf` of `string.c` writes a string and advances the pointer that
-- its converters return; `stream_vprintf` of `stream.c` sends characters, and measures what the
-- same converters leave in the buffer of the stream. Both are compared with what a format means.
import SakanaOS.Strings

open byte_memory

namespace sakana_os

/-! ## Arguments -/

/-- What is passed to a formatter: a word for an `int`, an `uint32_t` or a pointer, a `double`,
and a string that a `char *` points to. -/
inductive Arg (δ : Type) where
  | word (w : UInt32)
  | double (x : δ)
  | string (s : CString)

/-- A read past the NUL of the format, a `va_arg` without a matching argument, or a walk over
characters that meets no NUL. -/
inductive FormatFault where
  | past_format
  | va_arg
  | no_nul
  deriving DecidableEq, Repr

variable {δ : Type}

def va_word : List (Arg δ) → Except FormatFault (UInt32 × List (Arg δ))
  | .word w :: args => .ok (w, args)
  | _ => .error .va_arg

def va_double : List (Arg δ) → Except FormatFault (δ × List (Arg δ))
  | .double x :: args => .ok (x, args)
  | _ => .error .va_arg

def va_string : List (Arg δ) → Except FormatFault (CString × List (Arg δ))
  | .string s :: args => .ok (s, args)
  | _ => .error .va_arg

/-- A word as the `int32_t` that `va_arg` reads. -/
def wordInt (w : UInt32) : Int := toInt w.toNat

/-- A word as the `char` of `%c`. -/
def wordChar (w : UInt32) : UInt8 := w.toUInt8

/-! ## `vsprintf` -/

/-- `ftoa` writes the characters that `digits` gives for the number and the precision. -/
def ftoa (digits : δ → Nat → CString) (m : Mem) (n : δ) (str prec : Nat) : Mem × Nat :=
  (storeList m str ((digits n prec).chars ++ [0]), str + strlen (digits n prec))

def strcpy (m : Mem) (dest : Nat) (src : CString) : Mem := storeList m dest (src.chars ++ [0])

section

variable (digits : δ → Nat → CString)

/-- The `switch` on the character behind a `%`. -/
def vsprintf_switch (c : UInt8) (args : List (Arg δ)) (m : Mem) (p : Nat) :
    Except FormatFault (List (Arg δ) × Mem × Nat) :=
  if c = 'd'.toUInt8 then do
    let (n, args) ← va_word args
    return (args, itoa m (wordInt n) p)
  else if c = 'x'.toUInt8 ∨ c = 'p'.toUInt8 then do
    let (n, args) ← va_word args
    return (args, htoa m n.toNat p)
  else if c = 'f'.toUInt8 then do
    let (n, args) ← va_double args
    return (args, ftoa digits m n p 6)
  else if c = 's'.toUInt8 then do
    let (src, args) ← va_string args
    return (args, strcpy m p src, p + strlen src)
  else if c = 'c'.toUInt8 then do
    let (n, args) ← va_word args
    return (args, store8 m p (wordChar n), p + 1)
  else return (args, store8 m p c, p + 1)

/-- The loop over the format. Behind a `%` at the end stands the NUL, and then the loop goes on
behind that. -/
def vsprintf_loop : List UInt8 → List (Arg δ) → Mem → Nat → Except FormatFault (Mem × Nat)
  | [], _, m, p => return (m, p)
  | [c], _, m, p =>
    if c = '%'.toUInt8 then throw .past_format else return (store8 m p c, p + 1)
  | c :: d :: fmt, args, m, p =>
    if c = '%'.toUInt8 then do
      let (args, m, p) ← vsprintf_switch digits d args m p
      vsprintf_loop fmt args m p
    else vsprintf_loop (d :: fmt) args (store8 m p c) (p + 1)

def vsprintf (m : Mem) (str : Nat) (fmt : CString) (args : List (Arg δ)) :
    Except FormatFault (Nat × Mem) := do
  let (m, p) ← vsprintf_loop digits fmt.chars args m str
  return (sub32 p str, store8 m p 0)

/-! ## `stream_vprintf` -/

/-- The memory, and the characters that went to `stream_putchar`. -/
structure Stream where
  mem : Mem
  sent : List UInt8

def stream_putchar (s : Stream) (c : UInt8) : Stream := { s with sent := s.sent ++ [c] }

/-- `strlen` of what stands in memory. It never ends without a NUL in the address space. -/
def strlen_mem (m : Mem) (str : Nat) : Nat → Except FormatFault Nat
  | 0 => throw .no_nul
  | fuel + 1 => if m str = 0 then return 0 else do return (← strlen_mem m (str + 1) fuel) + 1

/-- The loop that sends `size` characters from `buf` on. -/
def stream_send (s : Stream) (buf : Nat) : Nat → Stream
  | 0 => s
  | size + 1 => stream_send (stream_putchar s (s.mem buf)) (buf + 1) size

/-- What `stream_putint`, `stream_puthex` and `stream_putfloat` do behind the converter. -/
def stream_put (s : Stream) (buf : Nat) (converted : Mem × Nat) :
    Except FormatFault (Nat × Stream) := do
  let size ← strlen_mem converted.1 buf 4294967296
  return (size, stream_send { s with mem := converted.1 } buf size)

def stream_putint (s : Stream) (buf : Nat) (n : Int) : Except FormatFault (Nat × Stream) :=
  stream_put s buf (itoa s.mem n buf)

def stream_puthex (s : Stream) (buf n : Nat) : Except FormatFault (Nat × Stream) :=
  stream_put s buf (htoa s.mem n buf)

def stream_putfloat (s : Stream) (buf : Nat) (n : δ) (prec : Nat) :
    Except FormatFault (Nat × Stream) :=
  stream_put s buf (ftoa digits s.mem n buf prec)

/-- The loop over the characters of a `%s`. -/
def stream_string (s : Stream) (count : Nat) : List UInt8 → Nat × Stream
  | [] => (count, s)
  | c :: src => stream_string (stream_putchar s c) (add32 count 1) src

/-- The `switch` on the character behind a `%`. -/
def stream_switch (buf : Nat) (c : UInt8) (args : List (Arg δ)) (s : Stream) (count : Nat) :
    Except FormatFault (List (Arg δ) × Nat × Stream) :=
  if c = 'd'.toUInt8 then do
    let (n, args) ← va_word args
    let (size, s) ← stream_putint s buf (wordInt n)
    return (args, add32 count size, s)
  else if c = 'x'.toUInt8 ∨ c = 'p'.toUInt8 then do
    let (n, args) ← va_word args
    let (size, s) ← stream_puthex s buf n.toNat
    return (args, add32 count size, s)
  else if c = 'f'.toUInt8 then do
    let (n, args) ← va_double args
    let (size, s) ← stream_putfloat digits s buf n 6
    return (args, add32 count size, s)
  else if c = 's'.toUInt8 then do
    let (src, args) ← va_string args
    return (args, stream_string s count src.chars)
  else if c = 'c'.toUInt8 then do
    let (n, args) ← va_word args
    return (args, add32 count 1, stream_putchar s (wordChar n))
  else return (args, add32 count 1, stream_putchar s c)

def stream_vprintf_loop (buf : Nat) :
    List UInt8 → List (Arg δ) → Stream → Nat → Except FormatFault (Nat × Stream)
  | [], _, s, count => return (count, s)
  | [c], _, s, count =>
    if c = '%'.toUInt8 then throw .past_format else return (add32 count 1, stream_putchar s c)
  | c :: d :: fmt, args, s, count =>
    if c = '%'.toUInt8 then do
      let (args, count, s) ← stream_switch digits buf d args s count
      stream_vprintf_loop buf fmt args s count
    else stream_vprintf_loop buf (d :: fmt) args (stream_putchar s c) (add32 count 1)

/-- `buf` is the address of the buffer in the stream. -/
def stream_vprintf (s : Stream) (buf : Nat) (fmt : CString) (args : List (Arg δ)) :
    Except FormatFault (Nat × Stream) :=
  stream_vprintf_loop digits buf fmt.chars args s 0

/-! ## What a format means -/

/-- The characters of a conversion, from the arguments in front of it and behind it. -/
inductive Converts : UInt8 → List (Arg δ) → List UInt8 → List (Arg δ) → Prop
  | int (n : UInt32) (args : List (Arg δ)) :
    Converts 'd'.toUInt8 (.word n :: args) (itoaChars (wordInt n)) args
  | hex {c : UInt8} (hc : c = 'x'.toUInt8 ∨ c = 'p'.toUInt8) (n : UInt32) (args : List (Arg δ)) :
    Converts c (.word n :: args) (htoaChars n.toNat) args
  | float (n : δ) (args : List (Arg δ)) :
    Converts 'f'.toUInt8 (.double n :: args) (digits n 6).chars args
  | string (src : CString) (args : List (Arg δ)) :
    Converts 's'.toUInt8 (.string src :: args) src.chars args
  | char (n : UInt32) (args : List (Arg δ)) :
    Converts 'c'.toUInt8 (.word n :: args) [wordChar n] args
  | unknown {c : UInt8} (hd : c ≠ 'd'.toUInt8) (hx : ¬ (c = 'x'.toUInt8 ∨ c = 'p'.toUInt8))
    (hf : c ≠ 'f'.toUInt8) (hs : c ≠ 's'.toUInt8) (hc : c ≠ 'c'.toUInt8) (args : List (Arg δ)) :
    Converts c args [c] args

/-- The characters of a format. -/
inductive Means : List UInt8 → List (Arg δ) → List UInt8 → Prop
  | done (args : List (Arg δ)) : Means [] args []
  | lit {c : UInt8} {fmt : List UInt8} {args : List (Arg δ)} {out : List UInt8}
    (hc : c ≠ '%'.toUInt8) (h : Means fmt args out) : Means (c :: fmt) args (c :: out)
  | conv {c : UInt8} {fmt : List UInt8} {args rest : List (Arg δ)} {out out' : List UInt8}
    (hc : Converts digits c args out rest) (h : Means fmt rest out') :
    Means ('%'.toUInt8 :: c :: fmt) args (out ++ out')

variable {digits}

/-! ## `vsprintf` writes what the format means -/

theorem vsprintf_switch_spec {c : UInt8} {args rest : List (Arg δ)} {out : List UInt8} (m : Mem)
    (p : Nat) (h : Converts digits c args out rest) :
    ∃ m', vsprintf_switch digits c args m p = .ok (rest, m', p + out.length) ∧
      Written m m' p out := by
  have hone : ∀ v, Written m (store8 m p v) p [v] := fun v => (Written.nothing m p).store8 v
  cases h with
  | int n =>
    obtain ⟨hprinted, hend⟩ := itoa_spec m (wordInt n) p
    exact ⟨_, congrArg (fun q => Except.ok (_, _, q)) hend, hprinted.toWritten⟩
  | hex hc n =>
    obtain ⟨hprinted, hend⟩ := htoa_spec m n.toNat p
    refine ⟨_, ?_, hprinted.toWritten⟩
    rw [← hend]
    rcases hc with rfl | rfl <;> rfl
  | float n => exact ⟨_, rfl, (printed_storeList m p (digits n 6).chars).toWritten⟩
  | string src => exact ⟨_, rfl, (printed_storeList m p src.chars).toWritten⟩
  | char n => exact ⟨_, rfl, hone _⟩
  | unknown hd hx hf hs hc =>
    refine ⟨_, ?_, hone c⟩
    unfold vsprintf_switch
    rw [if_neg hd, if_neg hx, if_neg hf, if_neg hs, if_neg hc]
    rfl

theorem vsprintf_loop_lit {c : UInt8} (hc : c ≠ '%'.toUInt8) (fmt : List UInt8)
    (args : List (Arg δ)) (m : Mem) (p : Nat) :
    vsprintf_loop digits (c :: fmt) args m p =
      vsprintf_loop digits fmt args (store8 m p c) (p + 1) := by
  cases fmt with
  | nil => exact if_neg hc
  | cons d fmt => exact if_neg hc

theorem vsprintf_loop_spec {fmt : List UInt8} {args : List (Arg δ)} {out : List UInt8} (m : Mem)
    (p : Nat) (h : Means digits fmt args out) :
    ∃ m', vsprintf_loop digits fmt args m p = .ok (m', p + out.length) ∧ Written m m' p out := by
  induction h generalizing m p with
  | done args => exact ⟨m, rfl, Written.nothing m p⟩
  | @lit c fmt args out hc _ ih =>
    obtain ⟨m', hrun, hwritten⟩ := ih (store8 m p c) (p + 1)
    refine ⟨m', ?_, ((Written.nothing m p).store8 c).append hwritten⟩
    rw [vsprintf_loop_lit hc, hrun, List.length_cons]
    congr 2
    omega
  | @conv c fmt args rest out out' hc _ ih =>
    obtain ⟨m₁, hswitch, hwritten₁⟩ := vsprintf_switch_spec m p hc
    obtain ⟨m₂, hrun, hwritten₂⟩ := ih m₁ (p + out.length)
    refine ⟨m₂, ?_, hwritten₁.append hwritten₂⟩
    rw [vsprintf_loop, if_pos rfl, hswitch, List.length_append, ← Nat.add_assoc, ← hrun]
    rfl

/-- `vsprintf` writes the characters of the format and a NUL, and returns how many they are. -/
theorem vsprintf_spec {fmt : CString} {args : List (Arg δ)} {out : List UInt8} (m : Mem)
    (str : Nat) (h : Means digits fmt.chars args out) :
    ∃ m', vsprintf digits m str fmt args = .ok (out.length % 4294967296, m') ∧
      Printed m m' str out := by
  obtain ⟨m', hrun, hwritten⟩ := vsprintf_loop_spec m str h
  refine ⟨_, ?_, hwritten.ended⟩
  have hlen : sub32 (str + out.length) str = out.length % 4294967296 := by
    unfold sub32
    omega
  unfold vsprintf
  rw [hrun, ← hlen]
  rfl

/-! ## `stream_vprintf` sends what the format means -/

theorem strlen_mem_spec {m : Mem} {p : Nat} {chars : List UInt8} (fuel : Nat)
    (hbytes : loadList m p chars.length = chars) (hnul : m (p + chars.length) = 0)
    (hchars : ∀ c ∈ chars, c ≠ 0) (hfuel : chars.length < fuel) :
    strlen_mem m p fuel = .ok chars.length := by
  induction chars generalizing p fuel with
  | nil =>
    obtain ⟨fuel, rfl⟩ := Nat.exists_eq_succ_of_ne_zero (Nat.ne_of_gt hfuel)
    exact if_pos hnul
  | cons c chars ih =>
    rw [List.length_cons] at hbytes hnul hfuel
    rw [loadList_succ, List.cons.injEq] at hbytes
    obtain ⟨fuel, rfl⟩ := Nat.exists_eq_succ_of_ne_zero (Nat.ne_of_gt (Nat.zero_lt_of_lt hfuel))
    have hnext : p + 1 + chars.length = p + (chars.length + 1) := by omega
    have hrest := ih (p := p + 1) fuel hbytes.2 (by rw [hnext]; exact hnul)
      (fun d hd => hchars d (by simp [hd])) (Nat.lt_of_succ_lt_succ hfuel)
    rw [strlen_mem, if_neg (by rw [hbytes.1]; exact hchars c (by simp)), hrest]
    rfl

theorem stream_send_spec (s : Stream) (buf size : Nat) :
    stream_send s buf size = { s with sent := s.sent ++ loadList s.mem buf size } := by
  induction size generalizing s buf with
  | zero => simp [stream_send, loadList]
  | succ size ih =>
    rw [stream_send, ih, loadList_succ]
    simp [stream_putchar]

/-- What a converter left in the buffer is measured and sent. -/
theorem stream_put_spec {s : Stream} {buf : Nat} {converted : Mem × Nat} {chars : List UInt8}
    (h : Printed s.mem converted.1 buf chars) (hchars : ∀ c ∈ chars, c ≠ 0)
    (hlen : chars.length < 4294967296) :
    stream_put s buf converted =
      .ok (chars.length, { mem := converted.1, sent := s.sent ++ chars }) := by
  unfold stream_put
  rw [strlen_mem_spec 4294967296 h.bytes h.nul hchars hlen]
  simp only [bind, Except.bind, pure, Except.pure, stream_send_spec, h.bytes]

theorem stream_string_spec (s : Stream) (count : Nat) (src : List UInt8)
    (hcount : count < 4294967296) :
    stream_string s count src =
      ((count + src.length) % 4294967296, { s with sent := s.sent ++ src }) := by
  induction src generalizing s count with
  | nil => simp [stream_string, Nat.mod_eq_of_lt hcount]
  | cons c src ih =>
    rw [stream_string, ih _ _ (add32_lt _ _), List.length_cons]
    have hsum : (add32 count 1 + src.length) % 4294967296 =
        (count + (src.length + 1)) % 4294967296 := by
      unfold add32
      omega
    rw [hsum]
    simp [stream_putchar]

theorem stream_switch_spec {c : UInt8} {args rest : List (Arg δ)} {out : List UInt8}
    (buf : Nat) (s : Stream) (count : Nat) (hcount : count < 4294967296)
    (h : Converts digits c args out rest) :
    ∃ s', stream_switch digits buf c args s count =
        .ok (rest, (count + out.length) % 4294967296, s') ∧ s'.sent = s.sent ++ out := by
  have hsum : ∀ k, add32 count k = (count + k) % 4294967296 := by
    intro k
    rw [add32]
  cases h with
  | int n =>
    have hlen := length_itoaChars (wordInt n)
    have hput := stream_put_spec (itoa_spec s.mem (wordInt n) buf).1
      (itoaChars_nonzero (wordInt n)) (by omega)
    refine ⟨⟨(itoa s.mem (wordInt n) buf).1, s.sent ++ itoaChars (wordInt n)⟩, ?_, rfl⟩
    unfold stream_switch stream_putint
    rw [if_pos rfl]
    simp only [va_word, hput, bind, Except.bind, pure, Except.pure, hsum]
  | hex hc n =>
    have hlen := length_htoaChars n.toNat
    have hput := stream_put_spec (htoa_spec s.mem n.toNat buf).1 (htoaChars_nonzero n.toNat)
      (by omega)
    have hd : c ≠ 'd'.toUInt8 := by rcases hc with rfl | rfl <;> decide
    refine ⟨⟨(htoa s.mem n.toNat buf).1, s.sent ++ htoaChars n.toNat⟩, ?_, rfl⟩
    unfold stream_switch stream_puthex
    rw [if_neg hd, if_pos hc]
    simp only [va_word, hput, bind, Except.bind, pure, Except.pure, hsum]
  | float n =>
    have hprinted : Printed s.mem (ftoa digits s.mem n buf 6).1 buf (digits n 6).chars :=
      printed_storeList s.mem buf (digits n 6).chars
    have hput := stream_put_spec hprinted (digits n 6).nonzero (digits n 6).fits
    refine ⟨⟨(ftoa digits s.mem n buf 6).1, s.sent ++ (digits n 6).chars⟩, ?_, rfl⟩
    unfold stream_switch stream_putfloat
    rw [if_neg (by decide), if_neg (by decide), if_pos rfl]
    simp only [va_double, hput, bind, Except.bind, pure, Except.pure, hsum]
  | string src =>
    refine ⟨⟨s.mem, s.sent ++ src.chars⟩, ?_, rfl⟩
    unfold stream_switch
    rw [if_neg (by decide), if_neg (by decide), if_neg (by decide), if_pos rfl]
    simp only [va_string, stream_string_spec _ _ _ hcount, bind, Except.bind, pure, Except.pure]
  | char n =>
    refine ⟨⟨s.mem, s.sent ++ [wordChar n]⟩, ?_, rfl⟩
    unfold stream_switch
    rw [if_neg (by decide), if_neg (by decide), if_neg (by decide), if_neg (by decide), if_pos rfl]
    simp only [va_word, bind, Except.bind, pure, Except.pure, hsum, stream_putchar,
      List.length_singleton]
  | unknown hd hx hf hs hc =>
    refine ⟨⟨s.mem, s.sent ++ [c]⟩, ?_, rfl⟩
    unfold stream_switch
    rw [if_neg hd, if_neg hx, if_neg hf, if_neg hs, if_neg hc]
    simp only [pure, Except.pure, hsum, stream_putchar, List.length_singleton]

theorem stream_vprintf_loop_lit {c : UInt8} (hc : c ≠ '%'.toUInt8) (buf : Nat) (fmt : List UInt8)
    (args : List (Arg δ)) (s : Stream) (count : Nat) :
    stream_vprintf_loop digits buf (c :: fmt) args s count =
      stream_vprintf_loop digits buf fmt args (stream_putchar s c) (add32 count 1) := by
  cases fmt with
  | nil => exact if_neg hc
  | cons d fmt => exact if_neg hc

theorem stream_vprintf_loop_spec {fmt : List UInt8} {args : List (Arg δ)} {out : List UInt8}
    (buf : Nat) (s : Stream) (count : Nat) (hcount : count < 4294967296)
    (h : Means digits fmt args out) :
    ∃ s', stream_vprintf_loop digits buf fmt args s count =
        .ok ((count + out.length) % 4294967296, s') ∧ s'.sent = s.sent ++ out := by
  induction h generalizing s count with
  | done args =>
    refine ⟨s, ?_, by simp⟩
    rw [List.length_nil, Nat.add_zero, Nat.mod_eq_of_lt hcount]
    rfl
  | @lit c fmt args out hc _ ih =>
    obtain ⟨s', hrun, hsent⟩ := ih (stream_putchar s c) (add32 count 1) (add32_lt _ _)
    refine ⟨s', ?_, by simp [hsent, stream_putchar]⟩
    have hsum : (add32 count 1 + out.length) % 4294967296 =
        (count + (c :: out).length) % 4294967296 := by
      rw [List.length_cons]
      unfold add32
      omega
    rw [stream_vprintf_loop_lit hc, hrun, hsum]
  | @conv c fmt args rest out out' hc _ ih =>
    obtain ⟨s₁, hswitch, hsent₁⟩ := stream_switch_spec buf s count hcount hc
    obtain ⟨s₂, hrun, hsent₂⟩ := ih s₁ _ (Nat.mod_lt _ (by decide))
    refine ⟨s₂, ?_, by rw [hsent₂, hsent₁, List.append_assoc]⟩
    have hsum : ((count + out.length) % 4294967296 + out'.length) % 4294967296 =
        (count + (out ++ out').length) % 4294967296 := by
      rw [List.length_append]
      omega
    rw [stream_vprintf_loop, if_pos rfl, hswitch, ← hsum, ← hrun]
    rfl

end

/-! ## What `stream_vprintf` writes without doubles -/

section

variable [IsEmpty δ] {digits : δ → Nat → CString} {buf : Nat} {s s' : Stream}

/-- The memory stays but for the 12 bytes of the buffer that a numeral takes. -/
def SameBesideNumeral (buf : Nat) (m m' : Mem) : Prop := ∀ x, x < buf ∨ buf + 12 ≤ x → m' x = m x

theorem bind_eq_ok {ε α β : Type} {x : Except ε α} {f : α → Except ε β} {b : β} :
    x >>= f = .ok b ↔ ∃ a, x = .ok a ∧ f a = .ok b := by
  cases x <;> simp [bind, Except.bind]

theorem stream_put_frame {converted : Mem × Nat} {size : Nat}
    (h : stream_put s buf converted = .ok (size, s')) : s'.mem = converted.1 := by
  unfold stream_put at h
  obtain ⟨n, -, h⟩ := bind_eq_ok.mp h
  cases h
  rw [stream_send_spec]

theorem stream_string_mem (s : Stream) (count : Nat) (src : List UInt8) :
    (stream_string s count src).2.mem = s.mem := by
  induction src generalizing s count with
  | nil => rfl
  | cons c src ih =>
    rw [stream_string, ih]
    rfl

theorem stream_switch_frame {c : UInt8} {args rest : List (Arg δ)} {count n : Nat}
    (h : stream_switch digits buf c args s count = .ok (rest, n, s')) :
    SameBesideNumeral buf s.mem s'.mem := by
  unfold stream_switch at h
  split_ifs at h
  · obtain ⟨⟨w, args'⟩, -, h⟩ := bind_eq_ok.mp h
    obtain ⟨⟨size, t⟩, hput, h⟩ := bind_eq_ok.mp h
    cases h
    intro x hx
    have hlen := length_itoaChars (wordInt w)
    rw [stream_put_frame hput]
    exact (itoa_spec s.mem (wordInt w) buf).1.frame x (by omega)
  · obtain ⟨⟨w, args'⟩, -, h⟩ := bind_eq_ok.mp h
    obtain ⟨⟨size, t⟩, hput, h⟩ := bind_eq_ok.mp h
    cases h
    intro x hx
    have hlen := length_htoaChars w.toNat
    rw [stream_put_frame hput]
    exact (htoa_spec s.mem w.toNat buf).1.frame x (by omega)
  · obtain ⟨⟨x, -⟩, -, -⟩ := bind_eq_ok.mp h
    exact isEmptyElim x
  · obtain ⟨⟨src, args'⟩, -, h⟩ := bind_eq_ok.mp h
    simp only [pure, Except.pure, Except.ok.injEq, Prod.mk.injEq] at h
    have hmem := stream_string_mem s count src.chars
    rw [h.2] at hmem
    intro x _
    rw [hmem]
  · obtain ⟨⟨w, args'⟩, -, h⟩ := bind_eq_ok.mp h
    cases h
    exact fun _ _ => rfl
  · cases h
    exact fun _ _ => rfl

theorem stream_vprintf_loop_frame {fmt : List UInt8} {args : List (Arg δ)} {count n : Nat}
    (h : stream_vprintf_loop digits buf fmt args s count = .ok (n, s')) :
    SameBesideNumeral buf s.mem s'.mem := by
  fun_induction stream_vprintf_loop digits buf fmt args s count with
  | case1 args s count =>
    cases h
    exact fun _ _ => rfl
  | case2 args s count => cases h
  | case3 c args s count hc =>
    cases h
    exact fun _ _ => rfl
  | case4 d fmt args s count ih =>
    obtain ⟨⟨rest, m, t⟩, hswitch, h⟩ := bind_eq_ok.mp h
    intro x hx
    rw [ih _ _ _ h x hx, stream_switch_frame hswitch x hx]
  | case5 c d fmt args s count hc ih =>
    intro x hx
    rw [ih h x hx]
    rfl

end

/-! ## Formats that can be formatted -/

/-- The format ends in a `%` that starts a conversion. -/
def dangles : List UInt8 → Bool
  | [] => false
  | [c] => c == '%'.toUInt8
  | c :: d :: fmt => if c = '%'.toUInt8 then dangles fmt else dangles (d :: fmt)

/-- The kinds of arguments. -/
inductive ArgKind where
  | word
  | double
  | string
  deriving DecidableEq, Repr

def Arg.kind : Arg δ → ArgKind
  | .word _ => .word
  | .double _ => .double
  | .string _ => .string

/-- The kind of argument that a conversion takes. -/
def conversionKind (c : UInt8) : Option ArgKind :=
  if c = 'd'.toUInt8 ∨ c = 'x'.toUInt8 ∨ c = 'p'.toUInt8 ∨ c = 'c'.toUInt8 then some .word
  else if c = 'f'.toUInt8 then some .double
  else if c = 's'.toUInt8 then some .string
  else none

/-- The kinds of arguments that a format takes, in order. -/
def formatKinds : List UInt8 → List ArgKind
  | [] => []
  | [_] => []
  | c :: d :: fmt =>
    if c = '%'.toUInt8 then (conversionKind d).toList ++ formatKinds fmt else formatKinds (d :: fmt)

/-- The arguments start with those that the format takes. -/
def ArgsMatch (fmt : List UInt8) (args : List (Arg δ)) : Prop :=
  formatKinds fmt <+: args.map Arg.kind

variable (digits : δ → Nat → CString)

/-- An argument of the kind that comes next. -/
theorem prefix_kind {k : ArgKind} {kinds : List ArgKind} {args : List (Arg δ)}
    (h : k :: kinds <+: args.map Arg.kind) :
    ∃ arg rest, args = arg :: rest ∧ arg.kind = k ∧ kinds <+: rest.map Arg.kind := by
  cases args with
  | nil => simp at h
  | cons arg rest =>
    rw [List.map_cons, List.cons_prefix_cons] at h
    exact ⟨arg, rest, rfl, h.1.symm, h.2⟩

theorem conversion_total {c : UInt8} {args : List (Arg δ)} {kinds : List ArgKind}
    (h : (conversionKind c).toList ++ kinds <+: args.map Arg.kind) :
    ∃ out rest, Converts digits c args out rest ∧ kinds <+: rest.map Arg.kind := by
  unfold conversionKind at h
  split_ifs at h with hword hf hs
  · obtain ⟨arg, rest, rfl, hkind, hrest⟩ := prefix_kind h
    cases arg with
    | word n =>
      rcases hword with rfl | rfl | rfl | rfl
      · exact ⟨_, rest, .int n rest, hrest⟩
      · exact ⟨_, rest, .hex (Or.inl rfl) n rest, hrest⟩
      · exact ⟨_, rest, .hex (Or.inr rfl) n rest, hrest⟩
      · exact ⟨_, rest, .char n rest, hrest⟩
    | double x => cases hkind
    | string src => cases hkind
  · obtain ⟨arg, rest, rfl, hkind, hrest⟩ := prefix_kind h
    subst hf
    cases arg with
    | double x => exact ⟨_, rest, .float x rest, hrest⟩
    | word n => cases hkind
    | string src => cases hkind
  · obtain ⟨arg, rest, rfl, hkind, hrest⟩ := prefix_kind h
    subst hs
    cases arg with
    | string src => exact ⟨_, rest, .string src rest, hrest⟩
    | word n => cases hkind
    | double x => cases hkind
  · simp only [not_or] at hword
    exact ⟨_, args, .unknown hword.1 (by simp only [hword, or_self, not_false_eq_true]) hf hs
      hword.2.2.2 args, h⟩

/-- A format that does not dangle has a meaning with arguments that match it. -/
theorem formatted_total {fmt : List UInt8} {args : List (Arg δ)} (hend : dangles fmt = false)
    (hargs : ArgsMatch fmt args) : ∃ out, Means digits fmt args out := by
  unfold ArgsMatch at hargs
  induction fmt using formatKinds.induct generalizing args with
  | case1 => exact ⟨[], .done args⟩
  | case2 c =>
    rw [dangles, beq_eq_false_iff_ne] at hend
    exact ⟨[c], .lit hend (.done args)⟩
  | case3 d fmt ih =>
    rw [dangles, if_pos rfl] at hend
    rw [formatKinds, if_pos rfl] at hargs
    obtain ⟨out, rest, hconv, hrest⟩ := conversion_total digits hargs
    obtain ⟨out', hmeans⟩ := ih hend hrest
    exact ⟨_, .conv hconv hmeans⟩
  | case4 c d fmt hc ih =>
    rw [dangles, if_neg hc] at hend
    rw [formatKinds, if_neg hc] at hargs
    obtain ⟨out, hmeans⟩ := ih hend hargs
    exact ⟨_, .lit hc hmeans⟩

/-- For a format that does not end in a `%` of its own and for arguments that match it,
`stream_vprintf` sends the characters that `vsprintf` writes in front of the NUL, and both
return how many they are. -/
theorem the_formatters_agree (digits : δ → Nat → CString) {fmt : CString} {args : List (Arg δ)}
    (hend : dangles fmt.chars = false) (hargs : ArgsMatch fmt.chars args) (s : Stream) (buf : Nat)
    (m : Mem) (str : Nat) :
    ∃ out n s' m', stream_vprintf digits s buf fmt args = .ok (n, s') ∧
      vsprintf digits m str fmt args = .ok (n, m') ∧ n = out.length % 4294967296 ∧
      s'.sent = s.sent ++ out ∧ Printed m m' str out := by
  obtain ⟨out, hmeans⟩ := formatted_total digits hend hargs
  obtain ⟨s', hstream, hsent⟩ := stream_vprintf_loop_spec buf s 0 (by decide) hmeans
  obtain ⟨m', hmem, hprinted⟩ := vsprintf_spec m str hmeans
  rw [Nat.zero_add] at hstream
  exact ⟨out, _, s', m', hstream, hmem, rfl, hsent, hprinted⟩

/-- The characters of 1.5, as `ftoa` writes them. -/
def oneAndAHalf : CString where
  chars := [49, 46, 53, 48, 48, 48, 48, 48]
  nonzero := by decide +kernel
  fits := by decide

/-- `%d|%x%s%c%%%f%q`, with every conversion and an unknown one. -/
def everyConversion : CString where
  chars := [37, 100, 124, 37, 120, 37, 115, 37, 99, 37, 37, 37, 102, 37, 113]
  nonzero := by decide +kernel
  fits := by decide

theorem the_formatters_agree_on_every_conversion :
    ∃ out n s' m',
      stream_vprintf (fun (_ : Unit) _ => oneAndAHalf) ⟨fun _ => 0, []⟩ 0x1000 everyConversion
        [.word 0x80000000, .word 255, .string oneAndAHalf, .word 0, .double ()] = .ok (n, s') ∧
      vsprintf (fun (_ : Unit) _ => oneAndAHalf) (fun _ => 0) 0x2000 everyConversion
        [.word 0x80000000, .word 255, .string oneAndAHalf, .word 0, .double ()] = .ok (n, m') ∧
      n = out.length % 4294967296 ∧ s'.sent = [] ++ out ∧
      Printed (fun _ => 0) m' 0x2000 out :=
  the_formatters_agree (fun (_ : Unit) _ => oneAndAHalf) (by decide) (by unfold ArgsMatch; decide)
    ⟨fun _ => 0, []⟩ 0x1000 (fun _ => 0) 0x2000

end sakana_os
