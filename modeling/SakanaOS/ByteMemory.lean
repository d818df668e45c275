-- A byte memory with little-endian words: what a store, a fill and a copy
-- change, and that they change nothing else.
import Mathlib.Tactic.Ring
import Mathlib.Data.List.Basic

namespace byte_memory

/-- A memory gives one byte to each address. -/
abbrev Mem := Nat → UInt8

/-- The word of four bytes at `a`, low byte first. -/
def load32 (m : Mem) (a : Nat) : Nat :=
  (m a).toNat + 256 * (m (a + 1)).toNat + 65536 * (m (a + 2)).toNat +
    16777216 * (m (a + 3)).toNat

def store8 (m : Mem) (a : Nat) (v : UInt8) : Mem := fun x => if x = a then v else m x

def store32 (m : Mem) (a v : Nat) : Mem := fun x =>
  if x = a then UInt8.ofNat v
  else if x = a + 1 then UInt8.ofNat (v / 256)
  else if x = a + 2 then UInt8.ofNat (v / 65536)
  else if x = a + 3 then UInt8.ofNat (v / 16777216)
  else m x

/-- Write the byte `v` at `n` addresses from `a` up, one by one. -/
def fill (m : Mem) (a : Nat) (v : UInt8) : Nat → Mem
  | 0 => m
  | n + 1 => fill (store8 m a v) (a + 1) v n

/-- Copy `n` bytes from `src` to `dst`, one by one, upwards. -/
def copy (m : Mem) (dst src : Nat) : Nat → Mem
  | 0 => m
  | n + 1 => copy (store8 m dst (m src)) (dst + 1) (src + 1) n

/-- Write the bytes of a list from `a` up. -/
def storeList (m : Mem) (a : Nat) : List UInt8 → Mem
  | [] => m
  | v :: vs => storeList (store8 m a v) (a + 1) vs

/-! ## Words -/

theorem load32_lt (m : Mem) (a : Nat) : load32 m a < 4294967296 := by
  have h0 := (m a).toNat_lt
  have h1 := (m (a + 1)).toNat_lt
  have h2 := (m (a + 2)).toNat_lt
  have h3 := (m (a + 3)).toNat_lt
  unfold load32
  omega

/-- The four bytes of a word. -/
theorem load32_bytes (m : Mem) (a : Nat) :
    (m a).toNat = load32 m a % 256 ∧ (m (a + 1)).toNat = load32 m a / 256 % 256 ∧
      (m (a + 2)).toNat = load32 m a / 65536 % 256 ∧
      (m (a + 3)).toNat = load32 m a / 16777216 := by
  have h0 := (m a).toNat_lt
  have h1 := (m (a + 1)).toNat_lt
  have h2 := (m (a + 2)).toNat_lt
  have h3 := (m (a + 3)).toNat_lt
  unfold load32
  refine ⟨?_, ?_, ?_, ?_⟩ <;> omega

theorem load32_congr {m m' : Mem} {a : Nat} (h : ∀ x, a ≤ x → x < a + 4 → m' x = m x) :
    load32 m' a = load32 m a := by
  unfold load32
  rw [h a (by omega) (by omega), h (a + 1) (by omega) (by omega),
    h (a + 2) (by omega) (by omega), h (a + 3) (by omega) (by omega)]

theorem store32_frame (m : Mem) {a x : Nat} (v : Nat) (h : x < a ∨ a + 4 ≤ x) :
    store32 m a v x = m x := by
  unfold store32
  rw [if_neg (by omega), if_neg (by omega), if_neg (by omega), if_neg (by omega)]

theorem load32_store32_same (m : Mem) (a v : Nat) :
    load32 (store32 m a v) a = v % 4294967296 := by
  unfold load32 store32
  simp only [if_true, Nat.left_eq_add, Nat.add_eq_left, Nat.add_left_cancel_iff, if_false,
    Nat.one_ne_zero, OfNat.ofNat_ne_zero, OfNat.ofNat_ne_one, UInt8.toNat_ofNat']
  norm_num
  omega

/-- A store of a word that fits reads back as it is. -/
theorem load32_store32 (m : Mem) (a : Nat) {v : Nat} (h : v < 4294967296) :
    load32 (store32 m a v) a = v := by
  rw [load32_store32_same, Nat.mod_eq_of_lt h]

theorem load32_store32_ne (m : Mem) {a b : Nat} (v : Nat) (h : b + 4 ≤ a ∨ a + 4 ≤ b) :
    load32 (store32 m a v) b = load32 m b :=
  load32_congr fun x h1 h2 => store32_frame m v (by omega)

theorem store32_store32 (m : Mem) (a v w : Nat) : store32 (store32 m a v) a w = store32 m a w := by
  funext x
  unfold store32
  split <;> try rfl
  split <;> try rfl
  split <;> try rfl
  split <;> rfl

/-! ## Single bytes, fills and copies -/

theorem store8_same (m : Mem) (a : Nat) (v : UInt8) : store8 m a v a = v := if_pos rfl

theorem store8_ne (m : Mem) {a x : Nat} (v : UInt8) (h : x ≠ a) : store8 m a v x = m x :=
  if_neg h

theorem fill_frame (m : Mem) (a : Nat) (v : UInt8) (n x : Nat) (h : x < a ∨ a + n ≤ x) :
    fill m a v n x = m x := by
  induction n generalizing m a with
  | zero => rfl
  | succ n ih => rw [fill, ih _ _ (by omega), store8_ne _ _ (by omega)]

theorem fill_inside (m : Mem) (a : Nat) (v : UInt8) (n x : Nat) (h : a ≤ x) (h' : x < a + n) :
    fill m a v n x = v := by
  induction n generalizing m a with
  | zero => omega
  | succ n ih =>
    rw [fill]
    by_cases hx : x = a
    · subst hx
      rw [fill_frame _ _ _ _ _ (by omega), store8_same]
    · exact ih _ _ (by omega) (by omega)

theorem load32_fill_zero (m : Mem) {a n b : Nat} (h : a ≤ b) (h' : b + 4 ≤ a + n) :
    load32 (fill m a 0 n) b = 0 := by
  unfold load32
  rw [fill_inside _ _ _ _ _ h (by omega), fill_inside _ _ _ _ _ (by omega) (by omega),
    fill_inside _ _ _ _ _ (by omega) (by omega), fill_inside _ _ _ _ _ (by omega) (by omega)]
  rfl

theorem copy_frame (m : Mem) (dst src n x : Nat) (h : x < dst ∨ dst + n ≤ x) :
    copy m dst src n x = m x := by
  induction n generalizing m dst src with
  | zero => rfl
  | succ n ih => rw [copy, ih _ _ _ (by omega), store8_ne _ _ (by omega)]

/-- A copy to a place apart from its source moves each byte. -/
theorem copy_inside (m : Mem) (dst src n i : Nat) (hi : i < n)
    (h : src + n ≤ dst ∨ dst + n ≤ src) : copy m dst src n (dst + i) = m (src + i) := by
  induction n generalizing m dst src i with
  | zero => omega
  | succ n ih =>
    rw [copy]
    rcases i with _ | i
    · rw [copy_frame _ _ _ _ _ (by omega), Nat.add_zero, store8_same, Nat.add_zero]
    · have hmove : dst + (i + 1) = dst + 1 + i := by omega
      rw [hmove, ih _ _ _ _ (by omega) (by omega), store8_ne _ _ (by omega)]
      congr 1
      omega

theorem storeList_frame (m : Mem) (a : Nat) (vs : List UInt8) (x : Nat)
    (h : x < a ∨ a + vs.length ≤ x) : storeList m a vs x = m x := by
  induction vs generalizing m a with
  | nil => rfl
  | cons v vs ih =>
    simp only [List.length_cons] at h
    rw [storeList, ih _ _ (by omega), store8_ne _ _ (by omega)]

theorem storeList_inside (m : Mem) (a : Nat) (vs : List UInt8) (i : Nat) (h : i < vs.length) :
    storeList m a vs (a + i) = vs[i] := by
  induction vs generalizing m a i with
  | nil => exact absurd h (Nat.not_lt_zero _)
  | cons v vs ih =>
    rw [storeList]
    rcases i with _ | i
    · rw [storeList_frame _ _ _ _ (by omega), Nat.add_zero, store8_same]
      rfl
    · have hmove : a + (i + 1) = a + 1 + i := by omega
      simp only [List.length_cons, Nat.add_lt_add_iff_right] at h
      rw [hmove, ih _ _ _ h]
      rfl

theorem storeList_append (m : Mem) (a : Nat) (l r : List UInt8) :
    storeList m a (l ++ r) = storeList (storeList m a l) (a + l.length) r := by
  induction l generalizing m a with
  | nil => rfl
  | cons v l ih =>
    simp only [List.cons_append, storeList, ih, List.length_cons]
    congr 1
    omega

/-! ## Words of two bytes -/

/-- The word of two bytes at `a`, low byte first. -/
def load16 (m : Mem) (a : Nat) : Nat := (m a).toNat + 256 * (m (a + 1)).toNat

def store16 (m : Mem) (a v : Nat) : Mem :=
  storeList m a [UInt8.ofNat v, UInt8.ofNat (v / 256)]

theorem load16_bytes (m : Mem) (a : Nat) :
    [UInt8.ofNat (load16 m a), UInt8.ofNat (load16 m a / 256)] = [m a, m (a + 1)] := by
  have h0 := (m a).toNat_lt
  have h1 := (m (a + 1)).toNat_lt
  have hlow : UInt8.ofNat (load16 m a) = m a := by
    apply UInt8.toNat_inj.mp
    rw [UInt8.toNat_ofNat', load16]
    omega
  have hhigh : UInt8.ofNat (load16 m a / 256) = m (a + 1) := by
    apply UInt8.toNat_inj.mp
    rw [UInt8.toNat_ofNat', load16]
    omega
  rw [hlow, hhigh]

/-! ## Byte strings -/

/-- The `n` bytes from `a` up. -/
def loadList (m : Mem) (a n : Nat) : List UInt8 := (List.range n).map fun i => m (a + i)

@[simp] theorem length_loadList (m : Mem) (a n : Nat) : (loadList m a n).length = n := by
  simp [loadList]

theorem getElem_loadList (m : Mem) (a n i : Nat) (h : i < (loadList m a n).length) :
    (loadList m a n)[i] = m (a + i) := by
  simp [loadList]

theorem loadList_congr {m m' : Mem} {a n : Nat} (h : ∀ x, a ≤ x → x < a + n → m' x = m x) :
    loadList m' a n = loadList m a n := by
  unfold loadList
  apply List.map_congr_left
  intro i hi
  exact h _ (by omega) (Nat.add_lt_add_left (List.mem_range.mp hi) a)

theorem loadList_append (m : Mem) (a n k : Nat) :
    loadList m a (n + k) = loadList m a n ++ loadList m (a + n) k := by
  unfold loadList
  rw [List.range_add, List.map_append, List.map_map]
  congr 1
  apply List.map_congr_left
  intro i _
  simp only [Function.comp, Nat.add_assoc]

theorem loadList_succ (m : Mem) (a n : Nat) :
    loadList m a (n + 1) = m a :: loadList m (a + 1) n := by
  rw [Nat.add_comm, loadList_append]
  rfl

/-- A word read from the bytes of a string. -/
theorem load32_of_loadList {m : Mem} {a w : Nat} (hw : w < 4294967296)
    (h : loadList m a 4 = [UInt8.ofNat w, UInt8.ofNat (w / 256), UInt8.ofNat (w / 65536),
      UInt8.ofNat (w / 16777216)]) : load32 m a = w := by
  have hbytes : loadList m a 4 = [m a, m (a + 1), m (a + 2), m (a + 3)] := rfl
  rw [hbytes] at h
  simp only [List.cons.injEq, and_true] at h
  obtain ⟨h0, h1, h2, h3⟩ := h
  unfold load32
  rw [h0, h1, h2, h3]
  simp only [UInt8.toNat_ofNat']
  omega

/-- A byte string that was stored reads back. -/
theorem loadList_storeList (m : Mem) (a : Nat) (vs : List UInt8) :
    loadList (storeList m a vs) a vs.length = vs := by
  apply List.ext_getElem
  · simp
  · intro i h1 h2
    simp only [loadList, List.getElem_map, List.getElem_range]
    exact storeList_inside m a vs i h2

/-- What a store leaves at a place depends on what was there only. -/
theorem storeList_congr {m m' : Mem} {x : Nat} (a : Nat) (vs : List UInt8) (h : m' x = m x) :
    storeList m' a vs x = storeList m a vs x := by
  by_cases hin : a ≤ x ∧ x < a + vs.length
  · have hplace : x = a + (x - a) := by omega
    rw [hplace, storeList_inside _ _ _ _ (by omega), storeList_inside _ _ _ _ (by omega)]
  · rw [storeList_frame _ _ _ _ (by omega), storeList_frame _ _ _ _ (by omega), h]

/-- What a list leaves at an address that it covers. -/
theorem storeList_at {m : Mem} {a x : Nat} {vs : List UInt8} (h : a ≤ x)
    (h' : x < a + vs.length) : storeList m a vs x = vs[x - a] := by
  have hinside := storeList_inside m a vs (x - a) (by omega)
  rwa [Nat.add_sub_cancel' h] at hinside

/-- A byte string that was moved from one memory to another. -/
theorem storeList_loadList_at {m d : Mem} {a b n x : Nat} (h : a ≤ x) (h' : x < a + n) :
    storeList m a (loadList d b n) x = d (b + (x - a)) := by
  rw [storeList_at h (by rwa [length_loadList]), getElem_loadList]

end byte_memory

/-! ## Stacks

The 32-bit words of a stack that grows downwards, from its top on: what a push adds to them, and
what leaves them as they are. -/

namespace word_stacks

open byte_memory

/-- The words from `a` up, the top of the stack first. -/
def Words (m : Mem) : Nat → List Nat → Prop
  | _, [] => True
  | a, w :: ws => load32 m a = w ∧ Words m (a + 4) ws

variable {m m' : Mem} {a : Nat}

@[simp] theorem words_nil : Words m a [] := trivial

@[simp] theorem words_cons {w : Nat} {ws : List Nat} :
    Words m a (w :: ws) ↔ load32 m a = w ∧ Words m (a + 4) ws := Iff.rfl

theorem words_append {us ws : List Nat} :
    Words m a (us ++ ws) ↔ Words m a us ∧ Words m (a + 4 * us.length) ws := by
  induction us generalizing a with
  | nil => simp
  | cons u us ih =>
    rw [List.cons_append, words_cons, words_cons, ih, and_assoc, List.length_cons,
      show a + 4 + 4 * us.length = a + 4 * (us.length + 1) by omega]

theorem words_congr {ws : List Nat} (h : ∀ x, a ≤ x → x < a + 4 * ws.length → m' x = m x) :
    Words m' a ws ↔ Words m a ws := by
  induction ws generalizing a with
  | nil => simp
  | cons w ws ih =>
    rw [List.length_cons] at h
    rw [words_cons, words_cons, load32_congr fun x h1 h2 => h x h1 (by omega),
      ih fun x h1 h2 => h x (by omega) (by omega)]

/-- A push puts one word on top of the others. -/
theorem words_push {ws : List Nat} {v : Nat} (hv : v < 4294967296) (ha : 4 ≤ a) :
    Words (store32 m (a - 4) v) (a - 4) (v :: ws) ↔ Words m a ws := by
  rw [words_cons, load32_store32 _ _ hv, Nat.sub_add_cancel ha,
    words_congr fun x h1 h2 => store32_frame m v (by omega)]
  simp

end word_stacks
