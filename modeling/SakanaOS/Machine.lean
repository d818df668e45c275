-- The machine under the kernel: 32-bit words as naturals below 2^32, the page
-- arithmetic of `paging.c`, and how a kernel function can end.
import Mathlib.Data.Nat.Bitwise
import Mathlib.Tactic.Ring

namespace sakana_os

abbrev NULL : Nat := 0

/-- `uint32_t` addition, which wraps past 2^32. -/
def add32 (a b : Nat) : Nat := (a + b) % 4294967296

/-- `uint32_t` subtraction, which wraps below 0. -/
def sub32 (a b : Nat) : Nat := (4294967296 + a - b % 4294967296) % 4294967296

def mul32 (a b : Nat) : Nat := a * b % 4294967296

theorem add32_eq {a b : Nat} (h : a + b < 4294967296) : add32 a b = a + b := Nat.mod_eq_of_lt h

theorem sub32_eq {a b : Nat} (h : b ≤ a) (ha : a < 4294967296) : sub32 a b = a - b := by
  unfold sub32
  omega

theorem mul32_eq {a b : Nat} (h : a * b < 4294967296) : mul32 a b = a * b := Nat.mod_eq_of_lt h

theorem add32_lt (a b : Nat) : add32 a b < 4294967296 := Nat.mod_lt _ (by decide)

theorem sub32_lt (a b : Nat) : sub32 a b < 4294967296 := Nat.mod_lt _ (by decide)

-- Terms that wrap are never computed by unfolding, only through the lemmas above.
attribute [irreducible] add32 sub32 mul32

/-- A word as a signed `int`. -/
def toInt (a : Nat) : Int := if a < 2147483648 then a else (a : Int) - 4294967296

/-- The word of an `int`. -/
def ofInt (a : Int) : Nat := (a % 4294967296).toNat

/-- `(a + b - 1) / b` over `int`, which rounds towards 0. -/
def div_up (a b : Nat) : Nat := ofInt ((toInt (sub32 (add32 a b) 1)).tdiv (toInt b))

/-- The pages of a size, up to the largest one that is no negative `int`. -/
theorem div_up_page {a : Nat} (h : a + 4095 < 2147483648) : div_up a 4096 = (a + 4095) / 4096 := by
  have hsum : sub32 (add32 a 4096) 1 = a + 4095 := by
    rw [add32_eq (by omega), sub32_eq (by omega) (by omega)]
    omega
  unfold div_up
  rw [hsum]
  unfold toInt ofInt
  rw [if_pos h, if_pos (by decide), Int.tdiv_eq_ediv_of_nonneg (by omega)]
  omega

/-- A size that is too large counts as no pages, or as almost all words. -/
theorem div_up_large {a : Nat} (ha : a < 4294967296) (h : 2147483648 ≤ a + 4095) :
    div_up a 4096 = 0 ∨ 4294443008 ≤ div_up a 4096 := by
  unfold div_up
  by_cases hwrap : a + 4096 < 4294967296
  · -- The sum is a negative `int`.
    have hsum : sub32 (add32 a 4096) 1 = a + 4095 := by
      rw [add32_eq hwrap, sub32_eq (by omega) (by omega)]
      omega
    rw [hsum]
    unfold toInt ofInt
    rw [if_neg (by omega), if_pos (by decide)]
    have hneg : ((a + 4095 : Nat) : Int) - 4294967296 =
        -((4294967296 - (a + 4095) : Nat) : Int) := by
      omega
    rw [hneg, Int.neg_tdiv, Int.tdiv_eq_ediv_of_nonneg (by omega)]
    omega
  · have hsum : add32 a 4096 = a + 4096 - 4294967296 := by
      unfold add32
      omega
    rw [hsum]
    by_cases hzero : a + 4096 = 4294967296
    · have hlast : sub32 (a + 4096 - 4294967296) 1 = 4294967295 := by
        unfold sub32
        omega
      rw [hlast]
      exact Or.inl (by decide)
    · rw [sub32_eq (by omega) (by omega)]
      unfold toInt ofInt
      rw [if_pos (by omega), if_pos (by decide), Int.tdiv_eq_ediv_of_nonneg (by omega)]
      omega

/-! ## How a kernel function ends -/

/-- A kernel function returns, or stops in `kpanic` with a code and a reason,
or reads through a NULL pointer, or never ends. The state is the state there. -/
inductive Outcome (σ α : Type) where
  | done (a : α) (s : σ)
  | kpanic (code : Nat) (message : String) (s : σ)
  | fault (s : σ)
  | hang (s : σ)

namespace Outcome

variable {σ τ α β : Type}

def andThen (o : Outcome σ α) (f : α → σ → Outcome σ β) : Outcome σ β :=
  match o with
  | done a s => f a s
  | kpanic code message s => kpanic code message s
  | fault s => fault s
  | hang s => hang s

/-- The outcome of a call on one part of a larger state. -/
def lift (o : Outcome σ α) (put : σ → τ) : Outcome τ α :=
  match o with
  | done a s => done a (put s)
  | kpanic code message s => kpanic code message (put s)
  | fault s => fault (put s)
  | hang s => hang (put s)

/-- The state at the end. -/
def state (o : Outcome σ α) : σ :=
  match o with
  | done _ s | kpanic _ _ s | fault s | hang s => s

@[simp] theorem done_andThen (a : α) (s : σ) (f : α → σ → Outcome σ β) :
    (done a s).andThen f = f a s := rfl

@[simp] theorem done_lift (a : α) (s : σ) (put : σ → τ) :
    (done a s).lift put = done a (put s) := rfl

@[simp] theorem state_lift (o : Outcome σ α) (put : σ → τ) : (o.lift put).state = put o.state := by
  cases o <;> rfl

theorem andThen_assoc {γ : Type} (o : Outcome σ α) (f : α → σ → Outcome σ β)
    (g : β → σ → Outcome σ γ) :
    (o.andThen f).andThen g = o.andThen fun a s => (f a s).andThen g := by
  cases o <;> rfl

/-- The call returns, and what it returns passes the test. -/
def returns (o : Outcome σ α) (p : α → σ → Bool) : Bool :=
  match o with
  | done a s => p a s
  | _ => false

theorem returns_iff {o : Outcome σ α} {p : α → σ → Bool} :
    o.returns p = true ↔ ∃ a s, o = done a s ∧ p a s = true := by
  cases o <;> simp [returns]

/-- A sequence returns when both of its parts do. -/
theorem andThen_eq_done {o : Outcome σ α} {f : α → σ → Outcome σ β} {b : β} {t : σ} :
    o.andThen f = done b t ↔ ∃ a s, o = done a s ∧ f a s = done b t := by
  cases o <;> simp [andThen]

theorem lift_eq_done {o : Outcome σ α} {put : σ → τ} {a : α} {t : τ} :
    o.lift put = done a t ↔ ∃ s, o = done a s ∧ put s = t := by
  cases o <;> simp [lift]

/-- The two calls end in the same way and, where they return, in related states. -/
def Simulates (R : σ → τ → Prop) : Outcome σ α → Outcome τ α → Prop
  | done a s, done b t => a = b ∧ R s t
  | kpanic code message _, kpanic code' message' _ => code = code' ∧ message = message'
  | fault _, fault _ | hang _, hang _ => True
  | _, _ => False

variable {R R' : σ → τ → Prop}

theorem simulates_done (a : α) {s : σ} {t : τ} (h : R s t) :
    Simulates R (done a s) (done a t) := ⟨rfl, h⟩

theorem Simulates.andThen {o : Outcome σ α} {o' : Outcome τ α} {f : α → σ → Outcome σ β}
    {g : α → τ → Outcome τ β} (h : Simulates R o o')
    (hnext : ∀ a s t, o = done a s → o' = done a t → R s t → Simulates R' (f a s) (g a t)) :
    Simulates R' (o.andThen f) (o'.andThen g) := by
  cases o with
  | done a s =>
    cases o' with
    | done b t =>
      obtain ⟨rfl, hrel⟩ := h
      exact hnext a s t rfl rfl hrel
    | _ => exact h.elim
  | _ => cases o' <;> first | exact h.elim | exact h

/-- A call of the one side before the rest, where the other side makes a step of its own. -/
theorem Simulates.before {o : Outcome σ Unit} {t : τ} {f : Unit → σ → Outcome σ β}
    {o' : Outcome τ β} (h : Simulates R o (done () t))
    (hnext : ∀ s, R s t → Simulates R' (f () s) o') : Simulates R' (o.andThen f) o' := by
  refine h.andThen (g := fun _ _ => o') fun _ s u _ heq hrel => ?_
  cases heq
  exact hnext s hrel

theorem Simulates.mono {o : Outcome σ α} {o' : Outcome τ α} (h : Simulates R o o')
    (hrel : ∀ a s t, o' = done a t → R s t → R' s t) : Simulates R' o o' := by
  cases o with
  | done a s =>
    cases o' with
    | done b t =>
      obtain ⟨rfl, h⟩ := h
      exact ⟨rfl, hrel a s t rfl h⟩
    | _ => exact h.elim
  | _ => cases o' <;> exact h

theorem Simulates.lift {υ : Type} {o : Outcome σ α} {o' : Outcome τ α} {put : τ → υ}
    {R' : σ → υ → Prop} (h : Simulates R o o') (hput : ∀ s t, R s t → R' s (put t)) :
    Simulates R' o (o'.lift put) := by
  cases o with
  | done a s =>
    cases o' with
    | done b t =>
      obtain ⟨rfl, hrel⟩ := h
      exact ⟨rfl, hput s t hrel⟩
    | _ => exact h.elim
  | _ => cases o' <;> exact h

/-- A simulated call returns when the other one does, with the same result. -/
theorem Simulates.done_left {o : Outcome σ α} {o' : Outcome τ α} (h : Simulates R o o') {a : α}
    {s : σ} (heq : o = done a s) : ∃ t, o' = done a t ∧ R s t := by
  subst heq
  cases o' with
  | done b t =>
    obtain ⟨rfl, hrel⟩ := h
    exact ⟨t, rfl, hrel⟩
  | _ => exact h.elim

theorem Simulates.done_right {o : Outcome σ α} {o' : Outcome τ α} (h : Simulates R o o') {a : α}
    {t : τ} (heq : o' = done a t) : ∃ s, o = done a s ∧ R s t := by
  subst heq
  cases o with
  | done b s =>
    obtain ⟨rfl, hrel⟩ := h
    exact ⟨s, rfl, hrel⟩
  | _ => exact h.elim

theorem Simulates.fault_right {o : Outcome σ α} {o' : Outcome τ α} (h : Simulates R o o') {t : τ}
    (heq : o' = fault t) : ∃ s, o = fault s := by
  subst heq
  cases o with
  | fault s => exact ⟨s, rfl⟩
  | _ => exact h.elim

end Outcome

/-- The code that every `KPANIC` of the kernel passes. -/
def KPANIC_OUT_OF_MEMORY : Nat := 0

/-! ## Pages -/

def PAGE_SIZE : Nat := 4096

def paging_is_aligned_address (address : Nat) : Bool := address &&& (PAGE_SIZE - 1) == 0

def paging_align_address_up (address : Nat) : Nat :=
  add32 address (PAGE_SIZE - 1) &&& (0xFFFFFFFF - (PAGE_SIZE - 1))

def paging_align_address_down (address : Nat) : Nat :=
  address &&& (0xFFFFFFFF - (PAGE_SIZE - 1))

def paging_directory_index (virtual_address : Nat) : Nat := virtual_address >>> 22

def paging_table_index (virtual_address : Nat) : Nat := (virtual_address >>> 12) &&& 0x3FF

def paging_memory_offset (virtual_address : Nat) : Nat := virtual_address &&& 0xFFF

def paging_frame_index (physical_address : Nat) : Nat := physical_address >>> 12

theorem is_aligned_iff (a : Nat) : paging_is_aligned_address a = true ↔ a % 4096 = 0 := by
  unfold paging_is_aligned_address PAGE_SIZE
  rw [beq_iff_eq, show (4096 - 1 : Nat) = 2 ^ 12 - 1 by norm_num, Nat.and_two_pow_sub_one_eq_mod]

/-- Masking the low 12 bits of a word away rounds it down to a page. -/
theorem page_mask {a : Nat} (h : a < 4294967296) :
    a &&& (0xFFFFFFFF - (PAGE_SIZE - 1)) = a / 4096 * 4096 := by
  have hbits : a &&& 0xFFFFF000 = (a >>> 12) <<< 12 := by
    apply Nat.eq_of_testBit_eq
    intro i
    rw [Nat.testBit_and, Nat.testBit_shiftLeft, Nat.testBit_shiftRight]
    have hmask : (0xFFFFF000 : Nat) = (2 ^ 20 - 1) <<< 12 := by decide
    rw [hmask, Nat.testBit_shiftLeft, Nat.testBit_two_pow_sub_one]
    by_cases hi : 12 ≤ i
    · have hle : 12 + (i - 12) = i := by omega
      by_cases h32 : i < 32
      · simp [hi, hle, show i - 12 < 20 by omega]
      · have hz : a.testBit i = false :=
          Nat.testBit_lt_two_pow (Nat.lt_of_lt_of_le h (Nat.pow_le_pow_right (show 0 < 2 by decide)
            (show 32 ≤ i by omega)))
        simp [hz, hle]
    · simp [hi]
  have hc : (0xFFFFFFFF - (PAGE_SIZE - 1) : Nat) = 0xFFFFF000 := by decide
  rw [hc, hbits, Nat.shiftLeft_eq, Nat.shiftRight_eq_div_pow]

theorem align_down_eq {a : Nat} (h : a < 4294967296) :
    paging_align_address_down a = a / 4096 * 4096 := page_mask h

theorem align_up_eq (a : Nat) :
    paging_align_address_up a = (a + 4095) % 4294967296 / 4096 * 4096 := by
  unfold paging_align_address_up
  rw [page_mask (add32_lt _ _), add32, PAGE_SIZE]

end sakana_os
