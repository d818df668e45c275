-- The calls of `strtok` that take a string apart: one with the string, then calls with `NULL`.
-- They return the maximal runs of the string, and write behind each of them.
import SakanaOS.Strings
import SakanaOS.Tokens

open byte_memory words

namespace sakana_os

/-- Calls of `strtok`, the first with `str` and the others with `NULL`, and what they return. -/
def strtok_calls (delim : List UInt8) : Nat → Nat → Strtok → Option (List Nat × Strtok)
  | 0, _, t => some ([], t)
  | calls + 1, str, t =>
    (strtok t str delim).bind fun (r, t) =>
      (strtok_calls delim calls NULL t).map fun (rs, t) => (r :: rs, t)

theorem strchr_isSome (delim : List UInt8) (c : UInt8) :
    (strchr delim c).isSome = decide (c ∈ delim) := by
  induction delim with
  | nil => rfl
  | cons d delim ih =>
    rw [strchr]
    by_cases hd : d = c
    · simp [hd]
    · rw [if_neg hd, ih]
      simp [Ne.symm hd]

/-- What is in memory when the calls have returned the runs: each is a string that ends with the
run, and all that was written are NULs over delimiters right behind the runs. -/
structure Tokenized (m m' : Mem) (str : Nat) (delim chars : List UInt8) (runs : List (Nat × Nat)) :
    Prop where
  tokens : ∀ i n, (i, n) ∈ runs → StringAt m' (str + i) ((chars.drop i).take n)
  writes : ∀ x, m' x ≠ m x → m' x = 0 ∧ ∃ i n c, (i, n) ∈ runs ∧ x = str + i + n ∧
    chars[i + n]? = some c ∧ c ∈ delim

section

variable {m m' : Mem} {delim : List UInt8}

theorem tokenized_nil (m : Mem) (str : Nat) (delim line : List UInt8) :
    Tokenized m m str delim line [] :=
  ⟨fun _ _ h => absurd h List.not_mem_nil, fun _ h => absurd rfl h⟩

/-- The last token of the string. -/
theorem tokenized_last {p : Nat} {s w : List UInt8} (h : StringAt m p (s ++ w)) :
    Tokenized m m p delim (s ++ w) [(s.length, w.length)] := by
  refine ⟨fun i n hrun => ?_, fun _ h => absurd rfl h⟩
  cases List.mem_singleton.mp hrun
  rw [List.drop_left, List.take_length]
  exact h.drop

/-- A token with a delimiter behind it, and then the tokens of the rest. -/
theorem tokenized_cons {p : Nat} {s w r : List UInt8} {c : UInt8} {runs : List (Nat × Nat)}
    (h : StringAt m p (s ++ (w ++ c :: r))) (hc : c ∈ delim)
    (hrest : Tokenized (store8 m (p + s.length + w.length) 0) m'
      (p + s.length + w.length + 1) delim r runs) :
    Tokenized m m' p delim (s ++ (w ++ c :: r)) ((s.length, w.length) ::
      runs.map fun run => (s.length + w.length + 1 + run.1, run.2)) := by
  have hdrop : ∀ i, (s ++ (w ++ c :: r)).drop (s.length + w.length + 1 + i) = r.drop i := by
    intro i
    rw [show s.length + w.length + 1 + i = s.length + (w.length + (i + 1)) by omega,
      List.drop_length_add_append, List.drop_length_add_append, List.drop_succ_cons]
  have hread : ∀ i, (s ++ (w ++ c :: r))[s.length + w.length + i]? = (c :: r)[i]? := by
    intro i
    rw [Nat.add_assoc, List.getElem?_append_right (Nat.le_add_right _ _),
      Nat.add_sub_cancel_left, List.getElem?_append_right (Nat.le_add_right _ _),
      Nat.add_sub_cancel_left]
  -- the calls for the rest write behind the first token
  have hbehind : ∀ x, x ≤ p + s.length + w.length →
      m' x = store8 m (p + s.length + w.length) 0 x := by
    intro x hx
    by_contra hne
    obtain ⟨-, i, n, d, -, hplace, -⟩ := hrest.writes x hne
    omega
  constructor
  · intro i n hrun
    rcases List.mem_cons.mp hrun with heq | hrun
    · cases heq
      rw [List.drop_left, List.take_left]
      exact h.drop.cut.1.congr fun x _ hx => hbehind x hx
    · obtain ⟨⟨j, k⟩, hmem, heq⟩ := List.mem_map.mp hrun
      cases heq
      rw [hdrop, ← Nat.add_assoc, ← Nat.add_assoc, ← Nat.add_assoc]
      exact hrest.tokens j _ hmem
  · intro x hx
    by_cases hplace : x = p + s.length + w.length
    · subst hplace
      refine ⟨?_, s.length, w.length, c, List.mem_cons_self, rfl, ?_, hc⟩
      · rw [hbehind _ (Nat.le_refl _), store8_same]
      · rw [← Nat.add_zero (s.length + w.length), hread]
        rfl
    · obtain ⟨hzero, i, n, d, hmem, heq, hd, hin⟩ :=
        hrest.writes x (by rwa [store8_ne m 0 hplace])
      refine ⟨hzero, s.length + w.length + 1 + i, n, d,
        List.mem_cons_of_mem _ (List.mem_map.mpr ⟨(i, n), hmem, rfl⟩), by omega, ?_, hin⟩
      rw [show s.length + w.length + 1 + i + n = s.length + w.length + (i + n + 1) by omega,
        hread, List.getElem?_cons_succ]
      exact hd

end

/-- When nothing is left, every call returns `NULL`. -/
theorem strtok_calls_null (delim : List UInt8) (calls : Nat) (m : Mem) :
    strtok_calls delim calls NULL ⟨m, NULL⟩ = some (List.replicate calls NULL, ⟨m, NULL⟩) := by
  have hnone : strtok ⟨m, NULL⟩ NULL delim = some (NULL, ⟨m, NULL⟩) := by simp [strtok]
  induction calls with
  | zero => rfl
  | succ calls ih =>
    rw [strtok_calls, hnone, Option.bind_some]
    simp only [ih]
    rfl

theorem take_append_replicate {α : Type} (l : List α) (a : α) (n : Nat) :
    (l ++ List.replicate (n + 1) a).take n = (l ++ List.replicate n a).take n := by
  rw [List.replicate_succ', ← List.append_assoc, List.take_append_of_le_length (by simp)]

/-- The calls return pointers to the maximal runs, and then `NULL`. -/
theorem strtok_calls_runs {t : Strtok} (str : Nat) {delim : List UInt8} {p : Nat}
    {line : List UInt8} (hp : (if str ≠ NULL then str else t.s) = p) (h0 : p ≠ NULL)
    (h : StringAt t.mem p line) (hlen : line.length < 4294967296) :
    ∃ runs, RunsAre (fun c => decide (c ∈ delim)) line runs ∧ ∀ calls, ∃ t',
      strtok_calls delim calls str t =
        some ((runs.map (fun run => p + run.1) ++ List.replicate calls NULL).take calls, t') ∧
      Tokenized t.mem t'.mem p delim line (runs.take calls) := by
  induction hn : line.length using Nat.strong_induction_on generalizing t str p line with
  | _ n ih =>
    subst hn
    rcases strtok_call str (strchr_isSome delim) hp h0 h hlen with
      ⟨hblank, hnone⟩ | ⟨s, w, hs, hne, hw, ⟨rfl, hcall⟩ | ⟨c, r, rfl, hc, hcall⟩⟩
    · refine ⟨[], runsAre_blank hblank, fun calls => ?_⟩
      cases calls with
      | zero => exact ⟨t, rfl, tokenized_nil _ _ _ _⟩
      | succ calls =>
        refine ⟨⟨t.mem, NULL⟩, ?_, tokenized_nil _ _ _ _⟩
        rw [strtok_calls, hnone, Option.bind_some]
        simp only
        rw [strtok_calls_null]
        simp [List.replicate_succ]
    · -- the token ends the string
      refine ⟨[(s.length, w.length)], runsAre_last hs hne hw, fun calls => ?_⟩
      cases calls with
      | zero => exact ⟨t, rfl, tokenized_nil _ _ _ _⟩
      | succ calls =>
        refine ⟨⟨t.mem, NULL⟩, ?_, ?_⟩
        · rw [strtok_calls, hcall, Option.bind_some]
          simp only
          rw [strtok_calls_null]
          simp [List.replicate_succ']
        · rw [List.take_succ_cons, List.take_nil]
          exact tokenized_last h
    · have hrest := h.drop.cut.2
      have hshort : r.length < (s ++ (w ++ c :: r)).length := by
        simp only [List.length_append, List.length_cons]
        omega
      obtain ⟨runs, hruns, hcalls⟩ := @ih r.length hshort
        ⟨store8 t.mem (p + s.length + w.length) 0, p + s.length + w.length + 1⟩ NULL
        (p + s.length + w.length + 1) r rfl (Nat.succ_ne_zero _) hrest (by omega) rfl
      refine ⟨_, runsAre_cons hs hne hw hc hruns, fun calls => ?_⟩
      cases calls with
      | zero => exact ⟨t, rfl, tokenized_nil _ _ _ _⟩
      | succ calls =>
        obtain ⟨t', hloop, hmem⟩ := hcalls calls
        refine ⟨t', ?_, ?_⟩
        · rw [strtok_calls, hcall, Option.bind_some]
          simp only
          rw [hloop, Option.map_some, List.map_cons, List.cons_append, List.take_succ_cons,
            take_append_replicate, List.map_map]
          simp only [Function.comp_def, ← Nat.add_assoc]
        · rw [List.take_succ_cons, ← List.map_take]
          exact tokenized_cons h (of_decide_eq_true hc) hmem

/-- The calls of `strtok` return pointers to the maximal runs of characters that are no delimiters,
from left to right, and then `NULL` for ever. Each run is then a string of its own, and nothing is
written but NULs over delimiters right behind the runs. -/
theorem strtok_enumerates_the_fields (t : Strtok) {str : Nat} (delim : List UInt8)
    {line : List UInt8} (h0 : str ≠ NULL) (h : StringAt t.mem str line)
    (hfit : str + line.length < 4294967296) :
    ∃ runs, RunsAre (fun c => decide (c ∈ delim)) line runs ∧ ∀ calls, ∃ t',
      strtok_calls delim calls str t =
        some ((runs.map (fun run => str + run.1) ++ List.replicate calls NULL).take calls, t') ∧
      Tokenized t.mem t'.mem str delim line (runs.take calls) :=
  strtok_calls_runs str (if_pos h0) h0 h (by omega)

/-- A line with delimiters in front, behind, and two of them between its fields. -/
def fieldLine : List UInt8 := literal " ab,,c "

def fieldMem : Mem := storeList (fun _ => 0) 0x1000 fieldLine

theorem two_fields_are_enumerated :
    ∃ runs : List (Nat × Nat), RunsAre (fun c => decide (c ∈ literal " ,")) fieldLine runs ∧
      ∀ calls, ∃ t', strtok_calls (literal " ,") calls 0x1000 ⟨fieldMem, NULL⟩ =
          some ((runs.map (fun run : Nat × Nat => 0x1000 + run.1) ++
            List.replicate calls NULL).take calls, t') ∧
        Tokenized fieldMem t'.mem 0x1000 (literal " ,") fieldLine (runs.take calls) := by
  have hline : StringAt fieldMem 0x1000 fieldLine := ⟨by decide, by decide, by decide +kernel⟩
  have h0 : (0x1000 : Nat) ≠ NULL := by decide
  exact strtok_enumerates_the_fields ⟨fieldMem, NULL⟩ (literal " ,") h0 hline (by decide)

example : (strtok_calls (literal " ,") 4 0x1000 ⟨fieldMem, NULL⟩).map Prod.fst =
    some [0x1001, 0x1005, NULL, NULL] := by
  decide

end sakana_os
