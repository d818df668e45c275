-- Who owns a resource: a partial map from pages to frames that never gives one frame to two pages,
-- because only frames that are not taken are mapped, and leases of resources to parties, of which
-- none is held twice.
import Mathlib.Data.List.Nodup
import Mathlib.Data.List.Perm.Basic
import Mathlib.Logic.Function.Basic

/-! ## Frames of pages -/

namespace frame_maps

variable {P F : Type} [DecidableEq P] {frame : P → Option F} {taken : F → Prop}

/-- No two pages share a frame, and the frames of all pages are taken. -/
structure Exclusive (frame : P → Option F) (taken : F → Prop) : Prop where
  inj : ∀ p q f, frame p = some f → frame q = some f → p = q
  taken : ∀ p f, frame p = some f → taken f

/-- The frame is taken, and no page but its home may have it. -/
def Home (frame : P → Option F) (taken : F → Prop) (f : F) (home : P) : Prop :=
  taken f ∧ ∀ p, frame p = some f → p = home

/-- The page gets a frame that is taken from then on. -/
def mapFrame (frame : P → Option F) (p : P) (f : F) : P → Option F :=
  Function.update frame p (some f)

theorem mapFrame_eq {p q : P} {f g : F} :
    mapFrame frame p f q = some g ↔ (q = p ∧ g = f) ∨ (q ≠ p ∧ frame q = some g) := by
  unfold mapFrame
  by_cases h : q = p
  · rw [h, Function.update_self]
    simp [eq_comm]
  · rw [Function.update_of_ne h]
    simp [h]

/-- A frame that is not taken can be mapped, in place of whatever the page had. -/
theorem Exclusive.map {p : P} {f : F} (h : Exclusive frame taken) (hf : ¬ taken f) :
    Exclusive (mapFrame frame p f) (fun g => g = f ∨ taken g) := by
  constructor
  · intro q r g hq hr
    rcases mapFrame_eq.mp hq with ⟨rfl, rfl⟩ | ⟨-, hold⟩
    · rcases mapFrame_eq.mp hr with ⟨rfl, -⟩ | ⟨-, hold⟩
      · rfl
      · exact absurd (h.taken _ _ hold) hf
    · rcases mapFrame_eq.mp hr with ⟨rfl, rfl⟩ | ⟨-, hold'⟩
      · exact absurd (h.taken _ _ hold) hf
      · exact h.inj _ _ _ hold hold'
  · intro q g hq
    rcases mapFrame_eq.mp hq with ⟨-, rfl⟩ | ⟨-, hq⟩
    · exact Or.inl rfl
    · exact Or.inr (h.taken _ _ hq)

theorem Home.map {p home : P} {f g : F} (h : Home frame taken g home) (hf : ¬ taken f) :
    Home (mapFrame frame p f) (fun g => g = f ∨ taken g) g home := by
  refine ⟨Or.inr h.1, ?_⟩
  intro q hq
  rcases mapFrame_eq.mp hq with ⟨-, rfl⟩ | ⟨-, hq⟩
  · exact absurd h.1 hf
  · exact h.2 q hq

end frame_maps

/-! ## Leases

Parties that each hold some resources, of which none was taken before the first lease, so that
what is taken is known at every time. -/

namespace leases

variable {α : Type} {base taken taken' : α → Prop} {held : List (List α)} {given : List α}

/-- The resources that are taken are those of the base and those that are held, each once. -/
structure Leased (base taken : α → Prop) (held : List (List α)) : Prop where
  once : held.flatten.Nodup
  apart : ∀ a ∈ held.flatten, ¬ base a
  taken : ∀ a, taken a ↔ base a ∨ a ∈ held.flatten

theorem leased_start (base : α → Prop) : Leased base base [] := by
  refine ⟨List.nodup_nil, ?_, ?_⟩
  · intro a ha
    cases ha
  · intro a
    simp

theorem Leased.grant (h : Leased base taken held) (hnodup : given.Nodup)
    (hfree : ∀ a ∈ given, ¬ taken a) (htaken : ∀ a, taken' a ↔ a ∈ given ∨ taken a) :
    Leased base taken' (given :: held) := by
  refine ⟨?_, ?_, ?_⟩
  · rw [List.flatten_cons, List.nodup_append']
    refine ⟨hnodup, h.once, fun a ha hheld => ?_⟩
    exact hfree a ha ((h.taken a).mpr (Or.inr hheld))
  · intro a ha hbase
    rw [List.flatten_cons, List.mem_append] at ha
    rcases ha with ha | ha
    · exact hfree a ha ((h.taken a).mpr (Or.inl hbase))
    · exact h.apart a ha hbase
  · intro a
    rw [htaken, h.taken, List.flatten_cons, List.mem_append, or_left_comm]

/-- What one party gives back is free for all. -/
theorem Leased.giveBack (h : Leased base taken (given :: held))
    (htaken : ∀ a, taken' a ↔ taken a ∧ a ∉ given) : Leased base taken' held := by
  obtain ⟨honce, hapart, hall⟩ := h
  rw [List.flatten_cons, List.nodup_append'] at honce
  rw [List.flatten_cons] at hapart hall
  refine ⟨honce.2.1, fun a ha => hapart a (List.mem_append_right _ ha), fun a => ?_⟩
  rw [htaken, hall, List.mem_append]
  constructor
  · rintro ⟨hbase | hgiven | hheld, hnot⟩
    · exact Or.inl hbase
    · exact absurd hgiven hnot
    · exact Or.inr hheld
  · rintro (hbase | hheld)
    · exact ⟨Or.inl hbase, fun hgiven => hapart a (List.mem_append_left _ hgiven) hbase⟩
    · exact ⟨Or.inr (Or.inr hheld), fun hgiven => honce.2.2 hgiven hheld⟩

theorem Leased.perm {held' : List (List α)} (h : Leased base taken held)
    (hperm : held.Perm held') : Leased base taken held' := by
  have hmem : ∀ a, a ∈ held.flatten ↔ a ∈ held'.flatten := fun a => hperm.flatten.mem_iff
  refine ⟨hperm.flatten.nodup_iff.mp h.once, ?_, ?_⟩
  · intro a ha
    exact h.apart a ((hmem a).mpr ha)
  · intro a
    rw [h.taken, hmem]

end leases
