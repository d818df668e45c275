-- Runs of a system that takes one input after another, and the two rules for
-- them: an invariant that each step keeps, and a simulation that each step keeps.
-- Beside them: runs that pay for their steps, machines that take turns, and loops over a table.
import Mathlib.Algebra.GroupWithZero.Nat
import Mathlib.Data.List.Nodup
import Mathlib.Logic.Basic

namespace runs

variable {σ τ ι κ : Type}

/-- The state after the inputs of a list, in order. `none` when a step refuses its input. -/
def run (next : σ → ι → Option σ) : σ → List ι → Option σ
  | s, [] => some s
  | s, i :: is => (next s i).bind fun t => run next t is

/-- Each step that a run takes meets the condition. -/
def Along (next : σ → ι → Option σ) (cond : σ → ι → Prop) : σ → List ι → Prop
  | _, [] => True
  | s, i :: is => cond s i ∧ ∀ t, next s i = some t → Along next cond t is

@[simp] theorem run_nil (next : σ → ι → Option σ) (s : σ) : run next s [] = some s := rfl

theorem run_cons {next : σ → ι → Option σ} {s u : σ} {i : ι} {is : List ι} :
    run next s (i :: is) = some u ↔ ∃ t, next s i = some t ∧ run next t is = some u := by
  rw [run, Option.bind_eq_some_iff]

theorem run_next {next : σ → ι → Option σ} {s t : σ} {i : ι} {is : List ι}
    (h : next s i = some t) : run next s (i :: is) = run next t is := by
  rw [run, h, Option.bind_some]

theorem run_append {next : σ → ι → Option σ} {s u : σ} {is js : List ι} :
    run next s (is ++ js) = some u ↔ ∃ t, run next s is = some t ∧ run next t js = some u := by
  induction is generalizing s with
  | nil => simp
  | cons i is ih =>
    simp only [List.cons_append, run_cons, ih]
    constructor
    · rintro ⟨t, h1, v, h2, h3⟩
      exact ⟨v, ⟨t, h1, h2⟩, h3⟩
    · rintro ⟨v, ⟨t, h1, h2⟩, h3⟩
      exact ⟨t, h1, v, h2, h3⟩

theorem run_split {next : σ → ι → Option σ} {s t : σ} {is js : List ι}
    (h : run next s is = some t) : run next s (is ++ js) = run next t js := by
  induction is generalizing s with
  | nil =>
    cases h
    rfl
  | cons i is ih =>
    obtain ⟨u, h1, h2⟩ := run_cons.mp h
    rw [List.cons_append, run_next h1, ih h2]

/-- A loop over a list is a run that never refuses. -/
theorem run_foldl (f : σ → ι → σ) (s : σ) (is : List ι) :
    run (fun s i => some (f s i)) s is = some (is.foldl f s) := by
  induction is generalizing s with
  | nil => rfl
  | cons i is ih => exact ih (f s i)

/-- What each step keeps holds after every run. -/
theorem run_keeps {next : σ → ι → Option σ} {motive : σ → Prop}
    (hstep : ∀ s i t, motive s → next s i = some t → motive t) {s t : σ} {is : List ι}
    (h : motive s)
    (hrun : run next s is = some t) : motive t := by
  induction is generalizing s with
  | nil =>
    cases hrun
    exact h
  | cons i is ih =>
    obtain ⟨u, h1, h2⟩ := run_cons.mp hrun
    exact ih (hstep s i u h h1) h2

/-- What each step that meets a condition keeps holds after every run whose
steps all meet the condition. -/
theorem run_keeps_along {next : σ → ι → Option σ} {cond : σ → ι → Prop} {motive : σ → Prop}
    (hstep : ∀ s i t, motive s → cond s i → next s i = some t → motive t) {s t : σ} {is : List ι}
    (h : motive s) (hcond : Along next cond s is) (hrun : run next s is = some t) : motive t := by
  induction is generalizing s with
  | nil =>
    cases hrun
    exact h
  | cons i is ih =>
    obtain ⟨u, h1, h2⟩ := run_cons.mp hrun
    exact ih (hstep s i u h hcond.1 h1) (hcond.2 u h1) h2

/-- A relation to a second system that each step which meets a condition keeps holds
after every run whose steps all meet the condition. -/
theorem run_simulates {next : σ → ι → Option σ} {cond : σ → ι → Prop} {f : τ → ι → τ}
    {rel : σ → τ → Prop}
    (hstep : ∀ s t i s', rel s t → cond s i → next s i = some s' → rel s' (f t i))
    {s s' : σ} {t : τ} {is : List ι} (h : rel s t) (hcond : Along next cond s is)
    (hrun : run next s is = some s') : rel s' (is.foldl f t) := by
  induction is generalizing s t with
  | nil =>
    cases hrun
    exact h
  | cons i is ih =>
    obtain ⟨u, h1, h2⟩ := run_cons.mp hrun
    exact ih (hstep s t i u h hcond.1 h1) (hcond.2 u h1) h2

/-- A second system that can take each step which meets a condition as well takes every run
whose steps all meet the condition. -/
theorem run_refines {next : σ → ι → Option σ} {next' : τ → ι → Option τ} {cond : σ → ι → Prop}
    {rel : σ → τ → Prop}
    (hstep : ∀ s t i s', rel s t → cond s i → next s i = some s' →
      ∃ t', next' t i = some t' ∧ rel s' t')
    {s s' : σ} {t : τ} {is : List ι} (h : rel s t) (hcond : Along next cond s is)
    (hrun : run next s is = some s') : ∃ t', run next' t is = some t' ∧ rel s' t' := by
  induction is generalizing s t with
  | nil =>
    cases hrun
    exact ⟨t, rfl, h⟩
  | cons i is ih =>
    obtain ⟨u, h1, h2⟩ := run_cons.mp hrun
    obtain ⟨v, hv, hrel⟩ := hstep s t i u h hcond.1 h1
    obtain ⟨t', ht', hrel'⟩ := ih hrel (hcond.2 u h1) h2
    exact ⟨t', run_cons.mpr ⟨v, hv, ht'⟩, hrel'⟩

/-- A condition is met along a run when every step of it meets the condition in the
state that the inputs before it lead to. -/
theorem along_iff {next : σ → ι → Option σ} {cond : σ → ι → Prop} {s : σ} {is : List ι} :
    Along next cond s is ↔
      ∀ js i ks t, is = js ++ i :: ks → run next s js = some t → cond t i := by
  constructor
  · intro h js i ks t heq hrun
    induction js generalizing s is with
    | nil =>
      cases hrun
      subst heq
      exact h.1
    | cons j js ih =>
      subst heq
      obtain ⟨u, h1, h2⟩ := run_cons.mp hrun
      exact ih (h.2 u h1) rfl h2
  · intro h
    induction is generalizing s with
    | nil => trivial
    | cons i is ih =>
      refine ⟨h [] i is s rfl rfl, ?_⟩
      intro t ht
      apply ih
      intro js j ks u heq hrun
      exact h (i :: js) j ks u (by rw [heq]; rfl) (run_cons.mpr ⟨t, ht, hrun⟩)

theorem along_front {next : σ → ι → Option σ} {cond : σ → ι → Prop} {s : σ} {is js : List ι}
    (h : Along next cond s (is ++ js)) : Along next cond s is := by
  rw [along_iff] at h ⊢
  intro ks i ls t heq hrun
  apply h ks i (ls ++ js) t _ hrun
  rw [heq, List.append_assoc]
  rfl

/-- A condition on the inputs alone is met along a run when every input meets it. -/
theorem along_of_forall {next : σ → ι → Option σ} {cond : ι → Prop} {s : σ} {is : List ι}
    (h : ∀ i ∈ is, cond i) : Along next (fun _ i => cond i) s is := by
  induction is generalizing s with
  | nil => trivial
  | cons i is ih =>
    refine ⟨h i List.mem_cons_self, ?_⟩
    intro t _
    apply ih
    intro j hj
    exact h j (List.mem_cons_of_mem i hj)

end runs

/-! ## Budgets

What each step of a run costs is paid out of what is left, and nothing is paid back, so a run
that costs more than there is stops on its way. -/

namespace budgets

open runs

variable {σ ι : Type} {next : σ → ι → Option σ} {cond : σ → ι → Prop} {inv : σ → Prop}
  {funds : σ → Nat} {cost : ι → Nat}

/-- What a list of inputs costs. -/
def bill (cost : ι → Nat) (is : List ι) : Nat := (is.map cost).sum

/-- A step that meets the condition keeps the invariant, and pays what its input costs. -/
def Pays (next : σ → ι → Option σ) (cond : σ → ι → Prop) (inv : σ → Prop) (funds : σ → Nat)
    (cost : ι → Nat) : Prop :=
  ∀ s i t, inv s → cond s i → next s i = some t → inv t ∧ funds t + cost i ≤ funds s

theorem bill_cons (cost : ι → Nat) (i : ι) (is : List ι) :
    bill cost (i :: is) = cost i + bill cost is := by
  unfold bill
  rw [List.map_cons, List.sum_cons]

theorem run_pays (hpays : Pays next cond inv funds cost) {s t : σ} {is : List ι} (h : inv s)
    (hcond : Along next cond s is) (hrun : run next s is = some t) :
    inv t ∧ funds t + bill cost is ≤ funds s := by
  induction is generalizing s with
  | nil =>
    cases hrun
    exact ⟨h, Nat.le_refl _⟩
  | cons i is ih =>
    obtain ⟨u, hstep, hrest⟩ := run_cons.mp hrun
    obtain ⟨hu, hpaid⟩ := hpays s i u h hcond.1 hstep
    obtain ⟨ht, hlater⟩ := ih hu (hcond.2 u hstep) hrest
    rw [bill_cons]
    exact ⟨ht, by omega⟩

/-- A run that does not go to its end stops at an input. -/
theorem run_stops {s : σ} {is : List ι} (h : run next s is = none) :
    ∃ js i ks t, is = js ++ i :: ks ∧ run next s js = some t ∧ next t i = none := by
  induction is generalizing s with
  | nil => cases h
  | cons i is ih =>
    cases hstep : next s i with
    | none => exact ⟨[], i, is, s, rfl, rfl, hstep⟩
    | some u =>
      rw [run_next hstep] at h
      obtain ⟨js, j, ks, t, rfl, hrun, hstop⟩ := ih h
      exact ⟨i :: js, j, ks, t, rfl, run_cons.mpr ⟨u, hstep, hrun⟩, hstop⟩

theorem run_exhausted (hpays : Pays next cond inv funds cost) {s : σ} {is : List ι} (h : inv s)
    (hcond : Along next cond s is) (hbill : funds s < bill cost is) : run next s is = none := by
  cases hrun : run next s is with
  | none => rfl
  | some t =>
    have hpaid := (run_pays hpays h hcond hrun).2
    omega

end budgets

/-! ## Interleavings

Two machines that take turns: when the steps of each leave the other one as it was, up to what
the other can tell, any interleaving of them is a run of each machine alone. -/

namespace interleavings

open runs

variable {σ τ ι κ : Type}

/-- The inputs of an interleaving that the first machine takes. -/
def firsts (es : List (ι ⊕ κ)) : List ι := es.filterMap Sum.getLeft?

/-- The inputs of an interleaving that the second machine takes. -/
def seconds (es : List (ι ⊕ κ)) : List κ := es.filterMap Sum.getRight?

/-- One step of the interleaving is a step of one machine alone. `rel` relates the first
machine alone to the one that is interrupted, and `inv` holds of the second. -/
structure Apart (next : σ × τ → ι ⊕ κ → Option (σ × τ)) (step : σ → ι → Option σ)
    (serve : τ → κ → Option τ) (rel : σ → σ → Prop) (inv : τ → Prop) : Prop where
  first : ∀ a c s i c' s', rel a c → next (c, s) (.inl i) = some (c', s') →
    s' = s ∧ ∃ a', step a i = some a' ∧ rel a' c'
  second : ∀ a c s j c' s', rel a c → inv s → next (c, s) (.inr j) = some (c', s') →
    serve s j = some s' ∧ inv s' ∧ rel a c'

theorem run_apart {next : σ × τ → ι ⊕ κ → Option (σ × τ)} {step : σ → ι → Option σ}
    {serve : τ → κ → Option τ} {rel : σ → σ → Prop} {inv : τ → Prop}
    (h : Apart next step serve rel inv) {a c c' : σ} {s s' : τ} {es : List (ι ⊕ κ)}
    (hrel : rel a c) (hinv : inv s) (hrun : run next (c, s) es = some (c', s')) :
    (∃ a', run step a (firsts es) = some a' ∧ rel a' c') ∧ run serve s (seconds es) = some s' := by
  induction es generalizing a c s with
  | nil =>
    cases hrun
    exact ⟨⟨a, rfl, hrel⟩, rfl⟩
  | cons e es ih =>
    obtain ⟨⟨d, u⟩, hnext, hrest⟩ := run_cons.mp hrun
    cases e with
    | inl i =>
      obtain ⟨rfl, b, hstep, hb⟩ := h.first a c s i d u hrel hnext
      obtain ⟨⟨a', hfirsts, ha'⟩, hseconds⟩ := ih hb hinv hrest
      exact ⟨⟨a', (run_next hstep).trans hfirsts, ha'⟩, hseconds⟩
    | inr j =>
      obtain ⟨hserve, hu, hd⟩ := h.second a c s j d u hrel hinv hnext
      obtain ⟨hfirsts, hseconds⟩ := ih hd hu hrest
      exact ⟨hfirsts, (run_next hserve).trans hseconds⟩

end interleavings

/-! ## Tables

A loop writes the records of a table one at a time: what it leaves in each record, when writing
one record leaves the others alone. -/

namespace record_tables

variable {σ β : Type}

/-- The table is read with `get`, and `put` writes one record. What it leaves there is a
function of the index and of what stood there before. -/
structure Writes (get : σ → Nat → β) (put : σ → Nat → σ) (value : Nat → β → β) : Prop where
  same : ∀ s i, get (put s i) i = value i (get s i)
  other : ∀ s i j, j ≠ i → get (put s i) j = get s j

variable {get : σ → Nat → β} {put : σ → Nat → σ} {value : Nat → β → β}

theorem foldl_other (h : Writes get put value) (s : σ) {is : List Nat} {j : Nat} (hj : j ∉ is) :
    get (is.foldl put s) j = get s j := by
  induction is generalizing s with
  | nil => rfl
  | cons i is ih =>
    rw [List.mem_cons, not_or] at hj
    rw [List.foldl_cons, ih _ hj.2, h.other _ _ _ hj.1]

/-- A loop that visits no index twice writes each record that it visits once. -/
theorem foldl_table (h : Writes get put value) (s : σ) {is : List Nat} (hnodup : is.Nodup)
    (j : Nat) : get (is.foldl put s) j = if j ∈ is then value j (get s j) else get s j := by
  by_cases hj : j ∈ is
  · rw [if_pos hj]
    induction is generalizing s with
    | nil => cases hj
    | cons i is ih =>
      obtain ⟨hi, hrest⟩ := List.nodup_cons.mp hnodup
      rw [List.foldl_cons]
      rcases List.mem_cons.mp hj with rfl | hmem
      · rw [foldl_other h _ hi, h.same]
      · have hne : j ≠ i := fun heq => hi (heq ▸ hmem)
        rw [ih _ hrest hmem, h.other _ _ _ hne]
  · rw [if_neg hj, foldl_other h s hj]

/-- What a turn leaves alone, the loop leaves alone. -/
theorem foldl_frame {γ : Type} (part : σ → γ) (put : σ → Nat → σ) (is : List Nat)
    (h : ∀ s, ∀ i ∈ is, part (put s i) = part s) (s : σ) : part (is.foldl put s) = part s := by
  induction is generalizing s with
  | nil => rfl
  | cons i is ih =>
    rw [List.foldl_cons, ih fun s j hj => h s j (List.mem_cons_of_mem i hj),
      h s i List.mem_cons_self]

end record_tables
