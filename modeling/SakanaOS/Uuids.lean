-- The ids of the devices: `rand.c` and `uuid.c`. A byte of an id is made of the bits 16 to 23 of a
-- state, so only the low 24 bits of the states count, and these come back earlier than the states.
import Mathlib.Tactic.Linarith
import SakanaOS.Lcg
import SakanaOS.Machine

open lcg

namespace sakana_os

/-! ## The code -/

/-- The next number, and the `static` state after it. -/
def rand_next (next : Nat) : Nat × Nat :=
  let next := add32 (mul32 next 1103515245) 12345
  (next / 65536 % 32768, next)

def rand_set_seed (seed : UInt32) : Nat := seed.toNat

/-- `uuid_t`. -/
@[ext] structure uuid_t where
  bytes : List UInt8
  length_bytes : bytes.length = 16

/-- The loop that draws the bytes. -/
def generate_bytes : Nat → Nat → List UInt8 × Nat
  | 0, next => ([], next)
  | turns + 1, next =>
    let (value, next) := rand_next next
    let (bytes, next) := generate_bytes turns next
    (UInt8.ofNat (value &&& 0xFF) :: bytes, next)

theorem length_generate_bytes (turns next : Nat) :
    (generate_bytes turns next).1.length = turns := by
  induction turns generalizing next with
  | zero => rfl
  | succ turns ih => exact congrArg (· + 1) (ih _)

/-- The version goes to the sixth byte, and the variant to the eighth. -/
def stamp (bytes : List UInt8) : List UInt8 :=
  (bytes.modify 6 fun b => (b &&& 0x0F) ||| 0x40).modify 8 fun b => (b &&& 0x3F) ||| 0x80

def generate_uuid_v4 (next : Nat) : uuid_t × Nat :=
  let drawn := generate_bytes 16 next
  (⟨stamp drawn.1, by simp [stamp, drawn, length_generate_bytes]⟩, drawn.2)

/-- The ids of successive calls, with the state after each. -/
def successive_uuids (next : Nat) : Nat → uuid_t × Nat
  | 0 => generate_uuid_v4 next
  | i + 1 => generate_uuid_v4 (successive_uuids next i).2

/-! ## The states -/

/-- The state after one more number. -/
def randStep (next : Nat) : Nat := (rand_next next).2

/-- The byte that an id gets when this is the state. -/
def stateByte (next : Nat) : UInt8 := UInt8.ofNat (next / 65536 % 32768 &&& 0xFF)

theorem stateByte_toNat (next : Nat) : (stateByte next).toNat = next % 16777216 / 65536 := by
  have hmask : (0xFF : Nat) = 2 ^ 8 - 1 := by norm_num
  unfold stateByte
  rw [hmask, Nat.and_two_pow_sub_one_eq_mod, UInt8.toNat_ofNat']
  omega

theorem generate_bytes_succ (turns next : Nat) :
    generate_bytes (turns + 1) next =
      (stateByte (randStep next) :: (generate_bytes turns (randStep next)).1,
        (generate_bytes turns (randStep next)).2) := by
  rw [generate_bytes]
  unfold stateByte randStep rand_next
  rfl

theorem randStep_modEq (next : Nat) :
    randStep next ≡ step 1103515245 12345 next [MOD 16777216] := by
  have hstep : randStep next = (next * 1103515245 % 4294967296 + 12345) % 4294967296 := by
    unfold randStep rand_next add32 mul32
    rfl
  unfold step Nat.ModEq
  omega

-- its arithmetic must not be unfolded where states are compared
attribute [irreducible] randStep

theorem generate_bytes_eq (turns next : Nat) :
    generate_bytes turns next = ((List.range turns).map fun k =>
      stateByte (randStep^[k] (randStep next)), randStep^[turns] next) := by
  induction turns generalizing next with
  | zero => rfl
  | succ turns ih =>
    have hmap : (List.range turns).map ((fun k => stateByte (randStep^[k] (randStep next))) ∘
        Nat.succ) =
        (List.range turns).map fun k => stateByte (randStep^[k] (randStep (randStep next))) :=
      List.map_congr_left fun k _ =>
        congrArg stateByte (Function.iterate_succ_apply randStep k (randStep next))
    rw [generate_bytes_succ, ih, List.range_succ_eq_map, List.map_cons, List.map_map, hmap,
      Function.iterate_zero_apply, Function.iterate_succ_apply]

theorem successive_uuids_eq (next i : Nat) :
    successive_uuids next i = generate_uuid_v4 (randStep^[16 * i] next) := by
  induction i with
  | zero => rfl
  | succ i ih =>
    have hstate : (successive_uuids next i).2 = randStep^[16 * (i + 1)] next := by
      rw [ih, Nat.mul_succ, Nat.add_comm, Function.iterate_add_apply]
      unfold generate_uuid_v4
      simp only [generate_bytes_eq]
    rw [successive_uuids, hstate]

/-- Modulo `2 ^ 24` the states are those of the generator without its reduction. -/
theorem iterate_randStep_modEq (n next : Nat) :
    randStep^[n] next ≡ (step 1103515245 12345)^[n] next [MOD 16777216] := by
  induction n generalizing next with
  | zero => rw [Function.iterate_zero_apply, Function.iterate_zero_apply]
  | succ n ih =>
    rw [Function.iterate_succ_apply, Function.iterate_succ_apply]
    exact (ih (randStep next)).trans (iterate_step_modEq _ _ n (randStep_modEq next))

theorem states_modEq_iff (next n m : Nat) :
    randStep^[n] next ≡ randStep^[m] next [MOD 16777216] ↔ n ≡ m [MOD 16777216] := by
  have hperiod := @iterate_step_modEq_iff 1103515245 12345 (by decide) (by decide) 24 n m next
  have hpow : (2 : Nat) ^ 24 = 16777216 := by norm_num
  rw [hpow] at hperiod
  rw [← hperiod]
  have hn := iterate_randStep_modEq n next
  have hm := iterate_randStep_modEq m next
  exact ⟨fun h => (hn.symm.trans h).trans hm, fun h => (hn.trans h).trans hm.symm⟩

/-! ## The bytes and the states -/

theorem randStep_congr {s t : Nat} (h : s ≡ t [MOD 16777216]) (k : Nat) :
    randStep^[k] s ≡ randStep^[k] t [MOD 16777216] := by
  have hs := iterate_randStep_modEq k s
  have ht := iterate_randStep_modEq k t
  exact (hs.trans (iterate_step_modEq _ _ k h)).trans ht.symm

/-- Four bytes in a row determine the low 24 bits of the first state. -/
theorem modEq_of_four_bytes {s t : Nat}
    (h : ∀ k < 4, stateByte (randStep^[k] s) = stateByte (randStep^[k] t)) :
    s ≡ t [MOD 16777216] := by
  obtain ⟨v, hv⟩ : ∃ v : Nat → Int, ∀ k, v k = ((randStep^[k] s % 16777216 : Nat) : Int) -
      ((randStep^[k] t % 16777216 : Nat) : Int) := ⟨_, fun _ => rfl⟩
  have hstep : ∀ k, (16777216 : Int) ∣ v (k + 1) - 1103515245 * v k := by
    intro k
    have hs := randStep_modEq (randStep^[k] s)
    have ht := randStep_modEq (randStep^[k] t)
    rw [hv, hv, Function.iterate_succ_apply', Function.iterate_succ_apply']
    unfold step Nat.ModEq at hs ht
    generalize randStep (randStep^[k] s) = s' at hs ⊢
    generalize randStep (randStep^[k] t) = t' at ht ⊢
    generalize randStep^[k] s = s at hs ⊢
    generalize randStep^[k] t = t at ht ⊢
    omega
  have hsmall : ∀ k < 4, |v k| ≤ 65535 := by
    intro k hk
    have hbyte := congrArg UInt8.toNat (h k hk)
    rw [stateByte_toNat, stateByte_toNat] at hbyte
    rw [hv, abs_le]
    omega
  -- the differences satisfy every small relation of the powers of the multiplier
  have hrelation : ∀ c0 c1 c2 c3 : Int,
      16777216 ∣ c0 + c1 * 1103515245 + c2 * 1103515245 ^ 2 + c3 * 1103515245 ^ 3 →
      |c0| + |c1| + |c2| + |c3| ≤ 256 → c0 * v 0 + c1 * v 1 + c2 * v 2 + c3 * v 3 = 0 := by
    intro c0 c1 c2 c3 hdvd hsum
    have hzero := combination_eq_zero hstep hsmall (fun k => [c0, c1, c2, c3].getD k 0)
      (by simpa [Finset.sum_range_succ] using hdvd)
      (by simp [Finset.sum_range_succ]; linarith only [hsum])
    simpa [Finset.sum_range_succ] using hzero
  have h0 := hrelation 4 (-15) 31 8 (by decide) (by decide)
  have h1 := hrelation (-45) 11 26 4 (by decide) (by decide)
  have h2 := hrelation (-8) (-64) (-25) 5 (by decide) (by decide)
  have h3 := hrelation (-9) (-25) 31 (-133) (by decide) (by decide)
  have hzero : v 0 = 0 := by linarith only [h0, h1, h2, h3]
  rw [hv, Function.iterate_zero_apply, Function.iterate_zero_apply] at hzero
  unfold Nat.ModEq
  omega

theorem stateByte_congr {s t : Nat} (h : s ≡ t [MOD 16777216]) : stateByte s = stateByte t := by
  apply UInt8.toNat_inj.mp
  rw [stateByte_toNat, stateByte_toNat, h]

/-! ## The ids -/

/-- The stamps leave the first bytes alone. -/
theorem getElem?_stamp (bytes : List UInt8) {k : Nat} (hk : k < 6) :
    (stamp bytes)[k]? = bytes[k]? := by
  have h6 : 6 ≠ k := by omega
  have h8 : 8 ≠ k := by omega
  unfold stamp
  rw [List.getElem?_modify_ne _ _ h8, List.getElem?_modify_ne _ _ h6]

/-- Two ids are the same exactly when the low 24 bits of their first states are. -/
theorem uuid_eq_iff (s t : Nat) :
    (generate_uuid_v4 s).1 = (generate_uuid_v4 t).1 ↔ randStep s ≡ randStep t [MOD 16777216] := by
  constructor
  · intro heq
    have hbytes : stamp (generate_bytes 16 s).1 = stamp (generate_bytes 16 t).1 :=
      congrArg uuid_t.bytes heq
    rw [generate_bytes_eq, generate_bytes_eq] at hbytes
    apply modEq_of_four_bytes
    intro k hk
    have hget := congrArg (fun bytes : List UInt8 => bytes[k]?) hbytes
    simp only [getElem?_stamp _ (Nat.lt_of_lt_of_le hk (by decide : 4 ≤ 6)), List.getElem?_map,
      List.getElem?_range (Nat.lt_of_lt_of_le hk (by decide : 4 ≤ 16)), Option.map_some,
      Option.some.injEq] at hget
    exact hget
  · intro h
    apply uuid_t.ext
    unfold generate_uuid_v4
    simp only [generate_bytes_eq]
    congr 1
    apply List.map_congr_left
    intro k _
    exact stateByte_congr (randStep_congr h k)

theorem successive_uuids_eq_iff (next i j : Nat) :
    (successive_uuids next i).1 = (successive_uuids next j).1 ↔ i ≡ j [MOD 1048576] := by
  rw [successive_uuids_eq, successive_uuids_eq, uuid_eq_iff,
    ← Function.iterate_succ_apply' randStep, ← Function.iterate_succ_apply' randStep,
    states_modEq_iff]
  unfold Nat.ModEq
  omega

/-- From every seed, two ids of the run are the same exactly when their places are a multiple of
`2 ^ 20` apart. -/
theorem the_ids_repeat_after_two_to_the_twenty (seed : UInt32) (i j : Nat) :
    (successive_uuids (rand_set_seed seed) i).1 = (successive_uuids (rand_set_seed seed) j).1 ↔
      i ≡ j [MOD 2 ^ 20] := by
  have hpow : (2 : Nat) ^ 20 = 1048576 := by norm_num
  rw [hpow]
  exact successive_uuids_eq_iff _ i j

theorem an_id_comes_again : ¬ ∀ (seed : UInt32) (i j : Nat), i < j → j < 2 ^ 28 →
    (successive_uuids (rand_set_seed seed) i).1 ≠ (successive_uuids (rand_set_seed seed) j).1 := by
  intro h
  apply h 1 0 1048576 (by norm_num) (by norm_num)
  rw [successive_uuids_eq_iff]
  rfl

end sakana_os
