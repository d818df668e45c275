-- Blocks that tile an interval, each one a header of `hd` bytes and a payload
-- behind it. Carving a block in two and releasing a block into its free
-- neighbours keep the tiling, and keep free blocks apart from each other.
import Mathlib.Data.List.Chain
import Mathlib.Data.List.Basic

namespace block_tiling

/-- A block: the address of its header, the size of its payload, and whether
it is free. -/
structure Block where
  addr : Nat
  size : Nat
  free : Bool
  deriving DecidableEq, Repr

section

variable (hd : Nat)

/-- The first address of the payload. -/
def Block.payload (b : Block) : Nat := b.addr + hd

/-- The first address past the payload. -/
def Block.stop (b : Block) : Nat := b.addr + hd + b.size

/-- The blocks follow each other from `lo` to `hi` with no gap. -/
def Tiles : Nat → List Block → Nat → Prop
  | lo, [], hi => lo = hi
  | lo, b :: bs, hi => b.addr = lo ∧ Tiles (b.stop hd) bs hi

/-- No two neighbours are both free. -/
def Apart (bs : List Block) : Prop := bs.IsChain fun a b => ¬ (a.free = true ∧ b.free = true)

/-- Every block has room for one byte. -/
def Roomy (bs : List Block) : Prop := ∀ b ∈ bs, 0 < b.size

/-- The blocks that are not free, in the order of the list. -/
def used (bs : List Block) : List Block := bs.filter fun b => !b.free

/-- The block in use that is left when `size` bytes of a block are taken. It keeps
the bytes that are too few for a header and one byte more. -/
def taken (size : Nat) (b : Block) : Block :=
  ⟨b.addr, if hd < b.size - size then size else b.size, false⟩

/-- Take `size` bytes of a block for use. The rest becomes a free block when it
has room for a header and one byte more. -/
def carve (size : Nat) (b : Block) : List Block :=
  taken hd size b ::
    if hd < b.size - size then [⟨b.addr + hd + size, b.size - size - hd, true⟩] else []

/-- A block in front of `r`, grown over the first block of `r` when that is free. -/
def absorb (b : Block) : List Block → List Block
  | n :: r => if n.free then ⟨b.addr, b.size + (n.size + hd), b.free⟩ :: r else b :: n :: r
  | [] => [b]

/-- Free the block `b` between `l` and `r`, and merge it with its free neighbours. -/
def release (l : List Block) (b : Block) (r : List Block) : List Block :=
  match l.getLast? with
  | some p =>
    if p.free then l.dropLast ++ absorb hd ⟨p.addr, p.size + (b.size + hd), true⟩ r
    else l ++ absorb hd ⟨b.addr, b.size, true⟩ r
  | none => absorb hd ⟨b.addr, b.size, true⟩ r

end

/-- The better of the best block so far and the next block: a block that meets the
condition takes the place when it is smaller. -/
def betterOf (ok : Block → Prop) [DecidablePred ok] (best : Option Block) (b : Block) :
    Option Block :=
  if ok b ∧ ∀ c ∈ best, b.size < c.size then some b else best

/-- The first of the smallest blocks that meet the condition. -/
def bestOf (ok : Block → Prop) [DecidablePred ok] (bs : List Block) : Option Block :=
  bs.foldl (betterOf ok) none

/-- The block meets the condition, none that does is smaller, and those of its size lie at
or above it. -/
structure Foremost (ok : Block → Prop) (bs : List Block) (b : Block) : Prop where
  mem : b ∈ bs
  meets : ok b
  least : ∀ c ∈ bs, ok c → b.size ≤ c.size
  first : ∀ c ∈ bs, ok c → c.size = b.size → b.addr ≤ c.addr

/-- The better of the best block so far and the next block: a free block takes
the place when the request fits and it is smaller. -/
def betterFit (size : Nat) (best : Option Block) (b : Block) : Option Block :=
  if b.free ∧ size ≤ b.size ∧ ∀ c ∈ best, b.size < c.size then some b else best

/-- The first of the smallest free blocks with room for `size` bytes. -/
def bestFit (size : Nat) (bs : List Block) : Option Block := bs.foldl (betterFit size) none

variable {hd : Nat}

/-! ## Tilings -/

theorem tiles_append (l r : List Block) (lo hi : Nat) :
    Tiles hd lo (l ++ r) hi ↔ ∃ mid, Tiles hd lo l mid ∧ Tiles hd mid r hi := by
  induction l generalizing lo with
  | nil => simp [Tiles]
  | cons b l ih =>
    simp only [List.cons_append, Tiles, ih]
    constructor
    · rintro ⟨h1, mid, h2, h3⟩
      exact ⟨mid, ⟨h1, h2⟩, h3⟩
    · rintro ⟨mid, ⟨h1, h2⟩, h3⟩
      exact ⟨h1, mid, h2, h3⟩

/-- A tiling split at one of its blocks. -/
theorem tiles_at (l : List Block) (b : Block) (r : List Block) (lo hi : Nat) :
    Tiles hd lo (l ++ b :: r) hi ↔ Tiles hd lo l b.addr ∧ Tiles hd (b.stop hd) r hi := by
  rw [tiles_append]
  constructor
  · rintro ⟨mid, h1, h2, h3⟩
    exact ⟨h2 ▸ h1, h3⟩
  · rintro ⟨h1, h2⟩
    exact ⟨b.addr, h1, rfl, h2⟩

theorem tiles_le {bs : List Block} {lo hi : Nat} (h : Tiles hd lo bs hi) : lo ≤ hi := by
  induction bs generalizing lo with
  | nil => exact Nat.le_of_eq h
  | cons b bs ih =>
    obtain ⟨h1, h2⟩ := h
    have := ih h2
    unfold Block.stop at this
    omega

theorem tiles_mem {bs : List Block} {lo hi : Nat} (h : Tiles hd lo bs hi) {b : Block}
    (hb : b ∈ bs) : lo ≤ b.addr ∧ b.stop hd ≤ hi := by
  obtain ⟨l, r, rfl⟩ := List.append_of_mem hb
  rw [tiles_at] at h
  exact ⟨tiles_le h.1, tiles_le h.2⟩

/-- The blocks before a block of the tiling end at or below it, and the blocks
after it start at or above its end. -/
theorem tiles_apart {l r : List Block} {b : Block} {lo hi : Nat}
    (h : Tiles hd lo (l ++ b :: r) hi) :
    (∀ c ∈ l, c.stop hd ≤ b.addr) ∧ ∀ c ∈ r, b.stop hd ≤ c.addr := by
  rw [tiles_at] at h
  exact ⟨fun c hc => (tiles_mem h.1 hc).2, fun c hc => (tiles_mem h.2 hc).1⟩

/-- Each block ends at or below the start of every later one. -/
theorem tiles_pairwise {bs : List Block} {lo hi : Nat} (h : Tiles hd lo bs hi) :
    bs.Pairwise fun b c => b.stop hd ≤ c.addr := by
  induction bs generalizing lo with
  | nil => exact List.Pairwise.nil
  | cons b bs ih =>
    obtain ⟨_, h2⟩ := h
    exact List.pairwise_cons.mpr ⟨fun c hc => (tiles_mem h2 hc).1, ih h2⟩

/-- Two blocks of a tiling are one block, or one ends at or below the other. -/
theorem tiles_disjoint {bs : List Block} {lo hi : Nat} (h : Tiles hd lo bs hi) {b c : Block}
    (hb : b ∈ bs) (hc : c ∈ bs) : b = c ∨ b.stop hd ≤ c.addr ∨ c.stop hd ≤ b.addr := by
  obtain ⟨l, r, rfl⟩ := List.append_of_mem hb
  obtain ⟨h1, h2⟩ := tiles_apart h
  rw [List.mem_append, List.mem_cons] at hc
  rcases hc with hc | rfl | hc
  · exact Or.inr (Or.inr (h1 c hc))
  · exact Or.inl rfl
  · exact Or.inr (Or.inl (h2 c hc))

/-- With a header of some size, a block is known by its address. -/
theorem tiles_inj {bs : List Block} {lo hi : Nat} (h : Tiles hd lo bs hi) (hpos : 0 < hd)
    {b c : Block} (hb : b ∈ bs) (hc : c ∈ bs) (ha : b.addr = c.addr) : b = c := by
  rcases tiles_disjoint h hb hc with h1 | h1 | h1
  · exact h1
  all_goals
    unfold Block.stop at h1
    omega

/-- The blocks of a tiling cover the interval. -/
theorem tiles_cover {bs : List Block} {lo hi x : Nat} (h : Tiles hd lo bs hi) (h1 : lo ≤ x)
    (h2 : x < hi) : ∃ b ∈ bs, b.addr ≤ x ∧ x < b.stop hd := by
  induction bs generalizing lo with
  | nil =>
    simp only [Tiles] at h
    omega
  | cons b bs ih =>
    obtain ⟨ha, ht⟩ := h
    by_cases hx : x < b.stop hd
    · exact ⟨b, List.mem_cons_self, by omega, hx⟩
    · obtain ⟨c, hc, hcx⟩ := ih ht (by omega)
      exact ⟨c, List.mem_cons_of_mem _ hc, hcx⟩

/-- Blocks that are all free and apart are one block. -/
theorem one_free_block {bs : List Block} {lo hi : Nat} (ht : Tiles hd lo bs hi)
    (ha : Apart bs) (hu : used bs = []) (hlt : lo < hi) :
    bs = [⟨lo, hi - lo - hd, true⟩] := by
  have hfree : ∀ b ∈ bs, b.free = true := by
    intro b hb
    by_contra hf
    have : b ∈ used bs := List.mem_filter.mpr ⟨hb, by simpa using hf⟩
    rw [hu] at this
    cases this
  rcases bs with _ | ⟨b, _ | ⟨c, bs⟩⟩
  · simp only [Tiles] at ht
    omega
  · obtain ⟨h1, h2⟩ := ht
    have hb := hfree b (by simp)
    obtain ⟨addr, size, free⟩ := b
    simp only [Tiles, Block.stop] at h1 h2 hb
    simp only [List.cons.injEq, Block.mk.injEq, and_true]
    exact ⟨h1, by omega, hb⟩
  · rw [Apart, List.isChain_cons_cons] at ha
    exact absurd ⟨hfree b (by simp), hfree c (by simp)⟩ ha.1

/-- Each block takes at least its header. -/
theorem tiles_length {bs : List Block} {lo hi : Nat} (h : Tiles hd lo bs hi) :
    hd * bs.length + lo ≤ hi := by
  induction bs generalizing lo with
  | nil =>
    simp only [Tiles] at h
    simp [h]
  | cons b bs ih =>
    obtain ⟨h1, h2⟩ := h
    have := ih h2
    unfold Block.stop at this
    rw [List.length_cons, Nat.mul_succ]
    omega

theorem used_append (l r : List Block) : used (l ++ r) = used l ++ used r :=
  List.filter_append ..

theorem mem_used {bs : List Block} {b : Block} : b ∈ used bs ↔ b ∈ bs ∧ b.free = false := by
  simp [used]

/-! ## The best fit -/

section

variable {ok : Block → Prop} [DecidablePred ok]

/-- What the best block so far is worth after the blocks of `bs`. -/
theorem foldl_betterOf (bs : List Block) (best : Option Block) :
    (bs.foldl (betterOf ok) best = best ∧ ∀ c ∈ bs, ok c → ∃ d ∈ best, d.size ≤ c.size) ∨
    ∃ l b r, bs = l ++ b :: r ∧ bs.foldl (betterOf ok) best = some b ∧ ok b ∧
      (∀ d ∈ best, b.size < d.size) ∧ (∀ c ∈ l, ok c → b.size < c.size) ∧
      ∀ c ∈ r, ok c → b.size ≤ c.size := by
  induction bs generalizing best with
  | nil => exact Or.inl ⟨rfl, by simp⟩
  | cons x bs ih =>
    rw [List.foldl_cons]
    by_cases hx : ok x ∧ ∀ c ∈ best, x.size < c.size
    · have hstep : betterOf ok best x = some x := if_pos hx
      rw [hstep]
      rcases ih (some x) with ⟨he, hr⟩ | ⟨l, b, r, rfl, he, hok, hd', hl, hr⟩
      · refine Or.inr ⟨[], x, bs, rfl, he, hx.1, hx.2, by simp, ?_⟩
        intro c hc hcok
        obtain ⟨d, hd', hle⟩ := hr c hc hcok
        cases hd'
        exact hle
      · have hbx : b.size < x.size := hd' x rfl
        refine Or.inr ⟨x :: l, b, r, rfl, he, hok, ?_, ?_, hr⟩
        · intro d hd''
          exact Nat.lt_trans hbx (hx.2 d hd'')
        · intro c hc hcok
          rcases List.mem_cons.mp hc with rfl | hc
          · exact hbx
          · exact hl c hc hcok
    · have hstep : betterOf ok best x = best := if_neg hx
      rw [hstep]
      have hskip : ok x → ∃ d ∈ best, d.size ≤ x.size := by
        intro hxok
        by_contra hno
        refine hx ⟨hxok, fun c hc => ?_⟩
        by_contra hle
        exact hno ⟨c, hc, Nat.le_of_not_lt hle⟩
      rcases ih best with ⟨he, hr⟩ | ⟨l, b, r, rfl, he, hok, hd', hl, hr⟩
      · refine Or.inl ⟨he, fun c hc hcok => ?_⟩
        rcases List.mem_cons.mp hc with rfl | hc
        · exact hskip hcok
        · exact hr c hc hcok
      · refine Or.inr ⟨x :: l, b, r, rfl, he, hok, hd', fun c hc hcok => ?_, hr⟩
        rcases List.mem_cons.mp hc with rfl | hc
        · obtain ⟨d, hdm, hle⟩ := hskip hcok
          exact Nat.lt_of_lt_of_le (hd' d hdm) hle
        · exact hl c hc hcok

/-- The best block meets the condition, and is the first of the smallest ones that do. -/
theorem bestOf_some {bs : List Block} {b : Block} (h : bestOf ok bs = some b) :
    ∃ l r, bs = l ++ b :: r ∧ ok b ∧ (∀ c ∈ l, ok c → b.size < c.size) ∧
      ∀ c ∈ r, ok c → b.size ≤ c.size := by
  rcases @foldl_betterOf ok _ bs none with ⟨he, _⟩ | ⟨l, b', r, hbs, he, hok, _, hl, hr⟩
  · rw [← bestOf, h] at he
    cases he
  · rw [← bestOf, h] at he
    cases he
    exact ⟨l, r, hbs, hok, hl, hr⟩

/-- There is no best block exactly when no block meets the condition. -/
theorem bestOf_none {bs : List Block} : bestOf ok bs = none ↔ ∀ b ∈ bs, ¬ ok b := by
  unfold bestOf
  rcases @foldl_betterOf ok _ bs none with ⟨he, hall⟩ | ⟨l, b, r, rfl, he, hok, -⟩
  · simp only [he, true_iff]
    intro b hb hok
    obtain ⟨d, hd, -⟩ := hall b hb hok
    cases hd
  · rw [he]
    simp only [reduceCtorEq, false_iff]
    exact fun hno => hno b (by simp) hok

/-- In a tiling the first block of the list is the one with the lowest address. -/
theorem bestOf_foremost {bs : List Block} {b : Block} {lo hi : Nat} (h : Tiles hd lo bs hi)
    (hb : bestOf ok bs = some b) : Foremost ok bs b := by
  obtain ⟨l, r, rfl, hok, hl, hr⟩ := bestOf_some hb
  obtain ⟨-, hafter⟩ := tiles_apart h
  have hsplit : ∀ c ∈ l ++ b :: r, c ∈ l ∨ c = b ∨ c ∈ r := by simp
  refine ⟨by simp, hok, ?_, ?_⟩
  · intro c hc hcok
    rcases hsplit c hc with hc | rfl | hc
    · exact Nat.le_of_lt (hl c hc hcok)
    · exact Nat.le_refl _
    · exact hr c hc hcok
  · intro c hc hcok hsize
    rcases hsplit c hc with hc | rfl | hc
    · exact absurd hsize (Nat.ne_of_gt (hl c hc hcok))
    · exact Nat.le_refl _
    · have hstart := hafter c hc
      unfold Block.stop at hstart
      omega

/-- With a header of some size, the best block is the foremost one. -/
theorem bestOf_eq_some {bs : List Block} {b : Block} {lo hi : Nat} (h : Tiles hd lo bs hi)
    (hpos : 0 < hd) : bestOf ok bs = some b ↔ Foremost ok bs b := by
  refine ⟨bestOf_foremost h, fun hb => ?_⟩
  cases hbest : bestOf ok bs with
  | none => exact absurd hb.meets (bestOf_none.mp hbest b hb.mem)
  | some c =>
    have hc := bestOf_foremost h hbest
    have hsize : b.size = c.size :=
      Nat.le_antisymm (hb.least c hc.mem hc.meets) (hc.least b hb.mem hb.meets)
    have haddr : b.addr = c.addr :=
      Nat.le_antisymm (hb.first c hc.mem hc.meets hsize.symm) (hc.first b hb.mem hb.meets hsize)
    rw [tiles_inj h hpos hb.mem hc.mem haddr]

/-- Conditions that agree on the blocks have the same best block. -/
theorem bestOf_congr {ok' : Block → Prop} [DecidablePred ok'] {bs : List Block}
    (h : ∀ b ∈ bs, ok b ↔ ok' b) : bestOf ok bs = bestOf ok' bs := by
  unfold bestOf
  refine List.foldl_ext _ _ _ fun best b hb => ?_
  unfold betterOf
  simp only [h b hb]

end

/-- The best fit is the best of the free blocks with the room. -/
theorem bestFit_eq (size : Nat) (bs : List Block) :
    bestFit size bs = bestOf (fun b => b.free = true ∧ size ≤ b.size) bs := by
  unfold bestFit bestOf
  refine List.foldl_ext _ _ _ fun best b _ => ?_
  unfold betterFit betterOf
  simp only [and_assoc]

/-- The best fit is a free block with the room, the first of the smallest ones. -/
theorem bestFit_some {size : Nat} {bs : List Block} {b : Block} (h : bestFit size bs = some b) :
    ∃ l r, bs = l ++ b :: r ∧ b.free = true ∧ size ≤ b.size ∧
      (∀ c ∈ l, c.free = true → size ≤ c.size → b.size < c.size) ∧
      ∀ c ∈ r, c.free = true → size ≤ c.size → b.size ≤ c.size := by
  rw [bestFit_eq] at h
  obtain ⟨l, r, hbs, ⟨hf, hs⟩, hl, hr⟩ := bestOf_some h
  exact ⟨l, r, hbs, hf, hs, fun c hc h1 h2 => hl c hc ⟨h1, h2⟩, fun c hc h1 h2 => hr c hc ⟨h1, h2⟩⟩

theorem bestFit_mem {size : Nat} {bs : List Block} {b : Block} (h : bestFit size bs = some b) :
    b ∈ bs ∧ size ≤ b.size := by
  obtain ⟨l, r, rfl, -, hfit, -⟩ := bestFit_some h
  exact ⟨by simp, hfit⟩

/-! ## Carving -/

theorem carve_split {size : Nat} {b : Block} (h : hd < b.size - size) : carve hd size b =
    [⟨b.addr, size, false⟩, ⟨b.addr + hd + size, b.size - size - hd, true⟩] := by
  simp [carve, taken, h]

theorem carve_whole {size : Nat} {b : Block} (h : ¬ hd < b.size - size) :
    carve hd size b = [⟨b.addr, b.size, false⟩] := by
  simp [carve, taken, h]

theorem taken_mem (size : Nat) (b : Block) : taken hd size b ∈ carve hd size b :=
  List.mem_cons_self

/-- The block taken has at least the size asked for, and ends inside the block
carved. -/
theorem taken_fits (hd : Nat) {size : Nat} {b : Block} (hs : size ≤ b.size) :
    size ≤ (taken hd size b).size ∧ (taken hd size b).stop hd ≤ b.stop hd := by
  unfold taken Block.stop
  simp only
  split <;> omega

theorem tiles_carve {l r : List Block} {b : Block} {lo hi : Nat} (size : Nat)
    (h : Tiles hd lo (l ++ b :: r) hi) : Tiles hd lo (l ++ (carve hd size b ++ r)) hi := by
  rw [tiles_at] at h
  rw [tiles_append]
  refine ⟨b.addr, h.1, ?_⟩
  by_cases hsplit : hd < b.size - size
  · rw [carve_split hsplit]
    refine ⟨rfl, rfl, ?_⟩
    have : (⟨b.addr + hd + size, b.size - size - hd, true⟩ : Block).stop hd = b.stop hd := by
      unfold Block.stop
      simp only
      omega
    show Tiles hd (Block.stop hd _) r hi
    rw [this]
    exact h.2
  · rw [carve_whole hsplit]
    exact ⟨rfl, h.2⟩

theorem roomy_carve {l r : List Block} {b : Block} {size : Nat} (h : Roomy (l ++ b :: r))
    (hs : 0 < size) : Roomy (l ++ (carve hd size b ++ r)) := by
  intro c hc
  simp only [List.mem_append] at hc
  rcases hc with hc | hc | hc
  · exact h c (by simp [hc])
  · have hb := h b (by simp)
    by_cases hsplit : hd < b.size - size
    · rw [carve_split hsplit] at hc
      simp only [List.mem_cons, List.not_mem_nil, or_false] at hc
      rcases hc with rfl | rfl
      · exact hs
      · simp only
        omega
    · rw [carve_whole hsplit, List.mem_singleton] at hc
      subst hc
      exact hb
  · exact h c (by simp [hc])

/-- A block that is carved keeps its place. -/
theorem carve_addr (hd : Nat) {l r : List Block} {b c : Block} (size : Nat) (h : c ∈ l ++ b :: r) :
    ∃ d ∈ l ++ (carve hd size b ++ r), d.addr = c.addr := by
  rcases List.mem_append.mp h with h | h
  · exact ⟨c, by simp [h], rfl⟩
  · rcases List.mem_cons.mp h with rfl | h
    · exact ⟨taken hd size c, by simp [taken_mem], rfl⟩
    · exact ⟨c, by simp [h], rfl⟩

theorem used_carve (size : Nat) (b : Block) : used (carve hd size b) = [taken hd size b] := by
  by_cases hsplit : hd < b.size - size
  · simp [carve, hsplit, used, taken]
  · simp [carve, hsplit, used, taken]

theorem apart_carve {l r : List Block} {b : Block} (size : Nat) (h : Apart (l ++ b :: r))
    (hb : b.free = true) : Apart (l ++ (carve hd size b ++ r)) := by
  unfold Apart at *
  rw [List.isChain_append, List.isChain_cons] at h
  obtain ⟨h1, ⟨h2, h3⟩, h4⟩ := h
  rw [List.isChain_append]
  refine ⟨h1, ?_, ?_⟩
  · by_cases hsplit : hd < b.size - size
    · rw [carve_split hsplit, List.cons_append, List.isChain_cons, List.singleton_append,
        List.isChain_cons]
      refine ⟨by simp, fun y hy hfree => ?_, h3⟩
      exact h2 y hy ⟨hb, hfree.2⟩
    · rw [carve_whole hsplit, List.singleton_append, List.isChain_cons]
      exact ⟨by simp, h3⟩
  · intro x _ y hy
    cases hy
    simp [taken]

/-! ## Releasing -/

/-- The two ways of a release: the block stays where it is, behind a block in
use or no block, or it grows the free block before it. -/
theorem release_cases (hd : Nat) (l : List Block) (b : Block) (r : List Block) :
    (release hd l b r = l ++ absorb hd ⟨b.addr, b.size, true⟩ r ∧
      ∀ p ∈ l.getLast?, p.free = false) ∨
    ∃ l' p, l = l' ++ [p] ∧ p.free = true ∧
      release hd l b r = l' ++ absorb hd ⟨p.addr, p.size + (b.size + hd), true⟩ r := by
  rcases List.eq_nil_or_concat l with rfl | ⟨l', p, rfl⟩
  · exact Or.inl ⟨rfl, by simp⟩
  · unfold release
    rw [List.concat_eq_append, List.getLast?_concat]
    by_cases hp : p.free = true
    · exact Or.inr ⟨l', p, rfl, hp, by simp [hp]⟩
    · exact Or.inl ⟨by simp [hp], by simpa using hp⟩

theorem absorb_cons (b n : Block) (r : List Block) : absorb hd b (n :: r) =
    if n.free then ⟨b.addr, b.size + (n.size + hd), b.free⟩ :: r else b :: n :: r := rfl

theorem used_absorb {b : Block} (r : List Block) (hb : b.free = true) :
    used (absorb hd b r) = used r := by
  rcases r with _ | ⟨n, r⟩
  · simp [absorb, used, hb]
  · rw [absorb_cons]
    split <;> simp_all [used]

/-- A release takes one block out of use and leaves the others as they are. -/
theorem used_release {l r : List Block} (b : Block) :
    used (release hd l b r) = used l ++ used r := by
  rcases release_cases hd l b r with ⟨he, _⟩ | ⟨l', p, rfl, hp, he⟩
  · rw [he, used_append, used_absorb _ rfl]
  · rw [he, used_append, used_absorb _ rfl, used_append]
    simp [used, hp]

/-- The other blocks in use are still there after a release. -/
theorem release_keeps {l r : List Block} {b e : Block} (he : e ∈ l ++ b :: r) (hne : e ≠ b)
    (hused : e.free = false) : e ∈ release hd l b r := by
  have hmem : e ∈ used (release hd l b r) := by
    rw [used_release, List.mem_append, mem_used, mem_used]
    simp only [List.mem_append, List.mem_cons] at he
    rcases he with he | rfl | he
    · exact Or.inl ⟨he, hused⟩
    · exact absurd rfl hne
    · exact Or.inr ⟨he, hused⟩
  exact (mem_used.mp hmem).1

theorem apart_absorb {b : Block} {r : List Block} (h : Apart r) : Apart (absorb hd b r) := by
  rcases r with _ | ⟨n, r⟩
  · exact List.isChain_singleton _
  · unfold Apart at h
    rw [List.isChain_cons] at h
    obtain ⟨h1, h2⟩ := h
    rw [absorb_cons]
    unfold Apart
    split
    · rename_i hn
      rw [List.isChain_cons]
      exact ⟨fun y hy hf => h1 y hy ⟨hn, hf.2⟩, h2⟩
    · rename_i hn
      rw [List.isChain_cons_cons]
      exact ⟨fun hf => hn hf.2, List.isChain_cons.mpr ⟨h1, h2⟩⟩

theorem absorb_head (hd : Nat) (b : Block) (r : List Block) :
    ∃ c t, absorb hd b r = c :: t ∧ c.addr = b.addr ∧ c.free = b.free ∧ b.size ≤ c.size := by
  rcases r with _ | ⟨n, r⟩
  · exact ⟨b, [], rfl, rfl, rfl, Nat.le_refl _⟩
  · rw [absorb_cons]
    split
    · exact ⟨_, _, rfl, rfl, rfl, Nat.le_add_right ..⟩
    · exact ⟨_, _, rfl, rfl, rfl, Nat.le_refl _⟩

/-- A block that grew stands where one of the blocks stood. -/
theorem absorb_addr {b c : Block} {r : List Block} (h : c ∈ absorb hd b r) :
    ∃ d ∈ b :: r, d.addr = c.addr := by
  rcases r with _ | ⟨n, r⟩
  · exact ⟨c, h, rfl⟩
  · rw [absorb_cons] at h
    split at h
    · rcases List.mem_cons.mp h with rfl | h
      · exact ⟨b, by simp, rfl⟩
      · exact ⟨c, by simp [h], rfl⟩
    · exact ⟨c, h, rfl⟩

/-- A release makes no new place for a block. -/
theorem release_addr {l r : List Block} {b c : Block} (h : c ∈ release hd l b r) :
    ∃ d ∈ l ++ b :: r, d.addr = c.addr := by
  rcases release_cases hd l b r with ⟨he, _⟩ | ⟨l', p, rfl, _, he⟩
  · rw [he] at h
    rcases List.mem_append.mp h with h | h
    · exact ⟨c, by simp [h], rfl⟩
    · obtain ⟨d, hd', ha⟩ := absorb_addr h
      rcases List.mem_cons.mp hd' with rfl | hd'
      · exact ⟨b, by simp, ha⟩
      · exact ⟨d, by simp [hd'], ha⟩
  · rw [he] at h
    rcases List.mem_append.mp h with h | h
    · exact ⟨c, by simp [h], rfl⟩
    · obtain ⟨d, hd', ha⟩ := absorb_addr h
      rcases List.mem_cons.mp hd' with rfl | hd'
      · exact ⟨p, by simp, ha⟩
      · exact ⟨d, by simp [hd'], ha⟩

/-- After a release of a block, free blocks are still apart: the block grew over
every free neighbour. -/
theorem apart_release {l r : List Block} {b : Block} (h : Apart (l ++ b :: r)) :
    Apart (release hd l b r) := by
  unfold Apart at h
  rw [List.isChain_append, List.isChain_cons] at h
  obtain ⟨h1, ⟨_, h3⟩, _⟩ := h
  rcases release_cases hd l b r with ⟨he, hlast⟩ | ⟨l', p, rfl, hp, he⟩
  · rw [he]
    refine List.isChain_append.mpr ⟨h1, apart_absorb h3, ?_⟩
    intro x hx y _ hf
    rw [hlast x hx] at hf
    cases hf.1
  · rw [he]
    rw [List.isChain_append] at h1
    refine List.isChain_append.mpr ⟨h1.1, apart_absorb h3, ?_⟩
    intro x hx y _ hf
    exact h1.2.2 x hx p (by simp) ⟨hf.1, hp⟩

/-- To release a block that was just taken restores the blocks. -/
theorem release_carve {l r : List Block} {b : Block} {size : Nat} (h : Apart (l ++ b :: r))
    (hb : b.free = true) (hfit : size ≤ b.size) :
    release hd l (taken hd size b) ((carve hd size b).tail ++ r) = l ++ b :: r := by
  unfold Apart at h
  rw [List.isChain_append, List.isChain_cons] at h
  obtain ⟨-, ⟨hright, -⟩, hleft⟩ := h
  have hb' : b = ⟨b.addr, b.size, true⟩ := by
    rw [← hb]
  have hgrown : absorb hd ⟨b.addr, (taken hd size b).size, true⟩ ((carve hd size b).tail ++ r) =
      b :: r := by
    unfold carve taken
    by_cases hsplit : hd < b.size - size
    · simp only [hsplit, if_true, List.tail_cons, List.singleton_append, absorb]
      rw [hb']
      simp only [List.cons.injEq, Block.mk.injEq, and_true, true_and]
      omega
    · simp only [hsplit, if_false, List.tail_cons, List.nil_append]
      rcases r with _ | ⟨c, r⟩
      · rw [absorb, ← hb']
      · have hc : ¬ c.free = true := fun hc => hright c rfl ⟨hb, hc⟩
        rw [absorb, if_neg hc, ← hb']
  unfold release
  have haddr : (taken hd size b).addr = b.addr := rfl
  rw [haddr, hgrown]
  cases hlast : l.getLast? with
  | none =>
    rw [List.getLast?_eq_none_iff] at hlast
    rw [hlast, List.nil_append]
  | some p =>
    have hp : ¬ p.free = true := fun hp => hleft p hlast b rfl ⟨hp, hb⟩
    simp only [hp, if_false, Bool.false_eq_true]

end block_tiling
