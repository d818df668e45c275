-- The words of a list: its maximal runs of elements that are no separators. A scanner that
-- skips separators and takes a run finds them one by one.
import Mathlib.Data.List.TakeWhile

namespace words

variable {α : Type} {sep : α → Bool}

/-- The maximal runs of elements that are no separators, in order. -/
def wordsOf (sep : α → Bool) (l : List α) : List (List α) :=
  (l.splitOnP sep).filter fun w => !w.isEmpty

@[simp] theorem wordsOf_nil (sep : α → Bool) : wordsOf sep [] = [] := rfl

@[simp] theorem wordsOf_separator {c : α} (hc : sep c = true) (l : List α) :
    wordsOf sep (c :: l) = wordsOf sep l := by
  simp [wordsOf, List.splitOnP_cons_eq_if_modifyHead, hc]

/-- Separators in front are skipped. -/
theorem wordsOf_skip {s : List α} (hs : ∀ c ∈ s, sep c = true) (l : List α) :
    wordsOf sep (s ++ l) = wordsOf sep l := by
  induction s with
  | nil => rfl
  | cons c s ih =>
    rw [List.cons_append, wordsOf_separator (hs c List.mem_cons_self)]
    exact ih fun d hd => hs d (List.mem_cons_of_mem c hd)

theorem wordsOf_blank {s : List α} (hs : ∀ c ∈ s, sep c = true) : wordsOf sep s = [] := by
  have hskip := wordsOf_skip hs []
  rwa [List.append_nil] at hskip

/-- A run at the end is the last word. -/
theorem wordsOf_last {w : List α} (hne : w ≠ []) (hw : ∀ c ∈ w, sep c = false) :
    wordsOf sep w = [w] := by
  simp [wordsOf, List.splitOnP_eq_singleton hw, hne]

/-- A run up to a separator is the first word. -/
theorem wordsOf_first {w : List α} {c : α} (hne : w ≠ []) (hw : ∀ d ∈ w, sep d = false)
    (hc : sep c = true) (l : List α) : wordsOf sep (w ++ c :: l) = w :: wordsOf sep l := by
  simp [wordsOf, List.splitOnP_append_cons_of_forall_mem hw c hc, hne]

/-- A list has no word, or starts with one behind its separators. -/
theorem wordsOf_cases (sep : α → Bool) (l : List α) :
    (∀ c ∈ l, sep c = true) ∨
    ∃ s w r, l = s ++ (w ++ r) ∧ (∀ c ∈ s, sep c = true) ∧ w ≠ [] ∧
      (∀ c ∈ w, sep c = false) ∧ (r = [] ∨ ∃ c r', r = c :: r' ∧ sep c = true) := by
  have hs : ∀ c ∈ l.takeWhile sep, sep c = true := fun c hc => List.mem_takeWhile_imp hc
  rcases hrest : l.dropWhile sep with _ | ⟨d, rest⟩
  · left
    intro c hc
    rw [← List.takeWhile_append_dropWhile (p := sep) (l := l), hrest, List.append_nil] at hc
    exact hs c hc
  · right
    have hd : sep d = false := by
      have hhead := List.head_dropWhile_not sep (l := l) (by simp [hrest])
      simpa [hrest] using hhead
    refine ⟨l.takeWhile sep, (d :: rest).takeWhile fun c => !sep c,
      (d :: rest).dropWhile fun c => !sep c, ?_, hs, ?_, ?_, ?_⟩
    · rw [List.takeWhile_append_dropWhile, ← hrest, List.takeWhile_append_dropWhile]
    · simp [hd]
    · intro c hc
      simpa using List.mem_takeWhile_imp hc
    · rcases hr : (d :: rest).dropWhile fun c => !sep c with _ | ⟨e, r⟩
      · exact Or.inl rfl
      · refine Or.inr ⟨e, r, rfl, ?_⟩
        have hhead := List.head_dropWhile_not (fun c => !sep c) (l := d :: rest) (by simp [hr])
        simpa [hr] using hhead

/-- The words are separated: there is at most one more than there are separators. -/
theorem length_wordsOf (sep : α → Bool) (l : List α) :
    (wordsOf sep l).length ≤ l.countP sep + 1 := by
  have hsplit : ∀ l : List α, (l.splitOnP sep).length = l.countP sep + 1 := by
    intro l
    induction l with
    | nil => rfl
    | cons c l ih =>
      by_cases hc : sep c = true
      · simp [List.splitOnP_cons_eq_if_modifyHead, hc, ih]
      · simp [List.splitOnP_cons_eq_if_modifyHead, hc, ih]
  exact Nat.le_trans (List.length_filter_le _ _) (Nat.le_of_eq (hsplit l))

/-! ## The places of the words -/

/-- The `n` elements from the `i`-th on are no separators, and no longer run has them in it. -/
structure MaximalRun (sep : α → Bool) (l : List α) (i n : Nat) : Prop where
  nonempty : 0 < n
  fits : i + n ≤ l.length
  inside : ∀ k c, i ≤ k → k < i + n → l[k]? = some c → sep c = false
  front : ∀ c, 0 < i → l[i - 1]? = some c → sep c = true
  behind : ∀ c, l[i + n]? = some c → sep c = true

/-- All maximal runs of the list, from left to right: where they start, and their lengths. -/
structure RunsAre (sep : α → Bool) (l : List α) (runs : List (Nat × Nat)) : Prop where
  mem : ∀ i n, (i, n) ∈ runs ↔ MaximalRun sep l i n
  ordered : runs.Pairwise fun run next => run.1 + run.2 < next.1

section

variable {l : List α}

theorem runsAre_blank (hl : ∀ c ∈ l, sep c = true) : RunsAre sep l [] := by
  refine ⟨fun i n => ⟨fun h => absurd h List.not_mem_nil, fun h => ?_⟩, List.Pairwise.nil⟩
  have hpos := h.nonempty
  have hlt : i < l.length := Nat.lt_of_lt_of_le (Nat.lt_add_of_pos_right hpos) h.fits
  have hno := h.inside i _ (Nat.le_refl i) (Nat.lt_add_of_pos_right hpos)
    (List.getElem?_eq_getElem hlt)
  rw [hl _ (List.getElem_mem hlt)] at hno
  cases hno

/-- Behind separators, a word up to a separator or to the end is the first run. -/
theorem first_run {a b : Nat} (hab : a < b) (hs : ∀ k < a, ∃ c, l[k]? = some c ∧ sep c = true)
    (hw : ∀ k, a ≤ k → k < b → ∃ c, l[k]? = some c ∧ sep c = false)
    (hr : ∀ c, l[b]? = some c → sep c = true) :
    MaximalRun sep l a (b - a) ∧ ∀ i n, MaximalRun sep l i n → i ≤ b → i = a ∧ n = b - a := by
  have hend : a + (b - a) = b := by omega
  have hfits : b ≤ l.length := by
    obtain ⟨c, hc, -⟩ := hw (b - 1) (by omega) (by omega)
    have hlt := (List.getElem?_eq_some_iff.mp hc).1
    omega
  constructor
  · refine ⟨by omega, by omega, fun k c hk hk' hc => ?_, fun c ha hc => ?_, fun c hc => ?_⟩
    · obtain ⟨d, hd, hsep⟩ := hw k hk (by omega)
      rw [hd] at hc
      cases hc
      exact hsep
    · obtain ⟨d, hd, hsep⟩ := hs (a - 1) (by omega)
      rw [hd] at hc
      cases hc
      exact hsep
    · rw [hend] at hc
      exact hr c hc
  · intro i n h hib
    have hpos := h.nonempty
    have hfit := h.fits
    have hin : ∀ k, i ≤ k → k < i + n → ∃ c, l[k]? = some c ∧ sep c = false := by
      intro k hk hk'
      have hlt : k < l.length := by omega
      exact ⟨_, List.getElem?_eq_getElem hlt,
        h.inside k _ hk hk' (List.getElem?_eq_getElem hlt)⟩
    -- an element is a separator or not
    have hclash : ∀ {k : Nat} {c d}, l[k]? = some c → sep c = true → l[k]? = some d →
        sep d = false → False := by
      intro k c d hc hsep hd hno
      rw [hc] at hd
      cases hd
      rw [hsep] at hno
      cases hno
    have hai : a ≤ i := by
      by_contra hlt
      obtain ⟨c, hc, hsep⟩ := hs i (by omega)
      obtain ⟨d, hd, hno⟩ := hin i (Nat.le_refl i) (by omega)
      exact hclash hc hsep hd hno
    have hia : i = a := by
      by_contra hne
      obtain ⟨d, hd, hno⟩ := hw (i - 1) (by omega) (by omega)
      exact hclash hd (h.front d (by omega) hd) hd hno
    subst hia
    refine ⟨rfl, ?_⟩
    rcases Nat.lt_trichotomy n (b - i) with hlt | heq | hgt
    · obtain ⟨d, hd, hno⟩ := hw (i + n) (by omega) (by omega)
      exact (hclash hd (h.behind d hd) hd hno).elim
    · exact heq
    · obtain ⟨d, hd, hno⟩ := hin b (by omega) (by omega)
      exact (hclash hd (hr d hd) hd hno).elim

/-- The runs behind a separator are those of the rest of the list. -/
theorem maximalRun_shift {c : α} (hc : sep c = true) (pre r : List α) (i n : Nat) :
    MaximalRun sep (pre ++ c :: r) (pre.length + 1 + i) n ↔ MaximalRun sep r i n := by
  have hread : ∀ k, (pre ++ c :: r)[pre.length + 1 + k]? = r[k]? := by
    intro k
    rw [List.getElem?_append_right (by omega)]
    have hk : pre.length + 1 + k - pre.length = k + 1 := by omega
    rw [hk, List.getElem?_cons_succ]
  have hmid : (pre ++ c :: r)[pre.length]? = some c := by
    rw [List.getElem?_append_right (Nat.le_refl _), Nat.sub_self, List.getElem?_cons_zero]
  have hlen : (pre ++ c :: r).length = pre.length + 1 + r.length := by
    rw [List.length_append, List.length_cons]
    omega
  constructor
  · intro h
    have hfits := h.fits
    refine ⟨h.nonempty, by omega, fun k d hk hk' hd => ?_, fun d hi hd => ?_, fun d hd => ?_⟩
    · rw [← hread] at hd
      exact h.inside _ d (by omega) (by omega) hd
    · rw [← hread] at hd
      apply h.front d (by omega)
      rwa [show pre.length + 1 + i - 1 = pre.length + 1 + (i - 1) by omega]
    · rw [← hread, ← Nat.add_assoc] at hd
      exact h.behind d hd
  · intro h
    have hfits := h.fits
    refine ⟨h.nonempty, by omega, fun k d hk hk' hd => ?_, fun d hi hd => ?_, fun d hd => ?_⟩
    · obtain ⟨j, rfl⟩ := Nat.exists_eq_add_of_le (Nat.le_trans (Nat.le_add_right _ i) hk)
      rw [hread] at hd
      exact h.inside j d (by omega) (by omega) hd
    · rcases Nat.eq_zero_or_pos i with rfl | hpos
      · rw [Nat.add_zero, Nat.add_sub_cancel, hmid] at hd
        cases hd
        exact hc
      · rw [show pre.length + 1 + i - 1 = pre.length + 1 + (i - 1) by omega, hread] at hd
        exact h.front d hpos hd
    · rw [Nat.add_assoc, hread] at hd
      exact h.behind d hd

end

section

variable {s w : List α} (hs : ∀ c ∈ s, sep c = true) (hne : w ≠ [])
  (hw : ∀ c ∈ w, sep c = false)
include hs hne hw

/-- The first word is the first run. -/
theorem word_is_first_run {r : List α} (hr : ∀ c, r.head? = some c → sep c = true) :
    MaximalRun sep (s ++ (w ++ r)) s.length w.length ∧
      ∀ i n, MaximalRun sep (s ++ (w ++ r)) i n → i ≤ s.length + w.length →
        i = s.length ∧ n = w.length := by
  have hpos : 0 < w.length := List.length_pos_iff.mpr hne
  have hfirst := @first_run α sep (s ++ (w ++ r)) s.length (s.length + w.length) (by omega)
    (fun k hk => ?_) (fun k hk hk' => ?_) (fun c hc => ?_)
  · rwa [Nat.add_sub_cancel_left] at hfirst
  · rw [List.getElem?_append_left hk, List.getElem?_eq_getElem hk]
    exact ⟨_, rfl, hs _ (List.getElem_mem hk)⟩
  · rw [List.getElem?_append_right hk, List.getElem?_append_left (by omega),
      List.getElem?_eq_getElem (by omega)]
    exact ⟨_, rfl, hw _ (List.getElem_mem _)⟩
  · rw [List.getElem?_append_right (by omega), List.getElem?_append_right (by omega),
      Nat.add_sub_cancel_left, Nat.sub_self, ← List.head?_eq_getElem?] at hc
    exact hr c hc

theorem runsAre_last : RunsAre sep (s ++ w) [(s.length, w.length)] := by
  obtain ⟨hfirst, honly⟩ := @word_is_first_run α sep s w hs hne hw [] (fun c hc => by cases hc)
  rw [List.append_nil] at hfirst honly
  refine ⟨fun i n => ?_, List.pairwise_singleton _ _⟩
  rw [List.mem_singleton, Prod.mk.injEq]
  constructor
  · rintro ⟨rfl, rfl⟩
    exact hfirst
  · intro h
    have hfits := h.fits
    rw [List.length_append] at hfits
    exact honly i n h (by omega)

/-- Behind the first word, the runs are those of the rest of the list. -/
theorem runsAre_cons {c : α} {r : List α} {runs : List (Nat × Nat)} (hc : sep c = true)
    (h : RunsAre sep r runs) :
    RunsAre sep (s ++ (w ++ c :: r)) ((s.length, w.length) ::
      runs.map fun run => (s.length + w.length + 1 + run.1, run.2)) := by
  obtain ⟨hfirst, honly⟩ := @word_is_first_run α sep s w hs hne hw (c :: r)
    (fun d hd => by cases hd; exact hc)
  have hshift := fun i n => @maximalRun_shift α sep c hc (s ++ w) r i n
  rw [List.length_append, List.append_assoc] at hshift
  refine ⟨fun i n => ?_, List.pairwise_cons.mpr ⟨?_, List.pairwise_map.mpr ?_⟩⟩
  · rw [List.mem_cons, Prod.mk.injEq, List.mem_map]
    constructor
    · rintro (⟨rfl, rfl⟩ | ⟨⟨j, k⟩, hrun, heq⟩)
      · exact hfirst
      · cases heq
        exact (hshift j _).mpr ((h.mem j _).mp hrun)
    · intro hrun
      by_cases hi : i ≤ s.length + w.length
      · exact Or.inl (honly i n hrun hi)
      · obtain ⟨j, rfl⟩ := Nat.exists_eq_add_of_lt (Nat.lt_of_not_le hi)
        rw [Nat.add_right_comm] at hrun ⊢
        exact Or.inr ⟨(j, n), (h.mem j n).mpr ((hshift j n).mp hrun), rfl⟩
  · intro run hrun
    obtain ⟨⟨j, k⟩, -, rfl⟩ := List.mem_map.mp hrun
    simp only
    omega
  · apply h.ordered.imp
    intro run next hlt
    simp only
    omega

end

end words
