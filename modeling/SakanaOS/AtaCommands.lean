-- The storage commands of the shell, and what they do with the device that they look up and with
-- the buffer that they allocate: neither is checked, and the driver takes an empty range at 0 for
-- all of the address space.
import SakanaOS.DriveRuns
import SakanaOS.HeapLimits
import SakanaOS.ShellHandlers

open byte_memory block_tiling forests

namespace sakana_os

open in_memory

/-! ## The device -/

/-- The first storage device of the tree, in preorder. -/
def firstStorage (d : DeviceTree) (f : Forest Nat) : Option Nat :=
  (f.preorder.map fun a => (d.registry.device_tree.nodes a).data).find? fun device =>
    (d.devices device).type = DEVICE_TYPE_STORAGE

/-- The lookup finds the first one, or `NULL`. -/
theorem storage_device_eq {d : DeviceTree} {f : Forest Nat}
    (h : TreeIs d.registry.device_tree f) :
    storage_device d = some ((firstStorage d f).getD NULL) := by
  unfold storage_device firstStorage
  exact find_by_type_eq d.devices h DEVICE_TYPE_STORAGE

/-! ## What the handlers use -/

/-- The block at `data` is one of the heap, with room for `size` bytes. -/
structure BlockFor (k : Kheap) (size data : Nat) : Prop where
  ne : data ≠ NULL
  room : size ≤ payload_size k data
  low : k.kheap_base ≤ data
  high : data + payload_size k data ≤ k.kheap_base + KHEAP_HEAP_SIZE

/-- A byte that `shell_execute_ata_read` writes through `data`: one of those that the driver
copies, or the NUL when the driver has returned. -/
def WrittenThrough (s : Storage) (drive : ata_device) (addr data read_size x : Nat) : Prop :=
  (Refused drive addr read_size ∨ HasSectorBuffer s) ∧
    (x = add32 data read_size ∨
      ∃ part ∈ driver_parts drive addr data read_size,
        part.data_ptr ≤ x ∧ x < part.data_ptr + part.size)

/-- The handler fails with a code, or it has the device and the buffer, and every byte goes
into the buffer. -/
def ReadUsesWhatItGot (d : DeviceTree) (s argc argv : Nat) (t : ShellState) : Prop :=
  (∃ errno t', shell_execute_ata_read d s argc argv t = .done errno t' ∧ errno ≠ 0) ∨
    ∃ arg1 arg2 device data k,
      string_at t.mem 4294967296 (load32 t.mem (argv + 4)) = some arg1 ∧
      string_at t.mem 4294967296 (load32 t.mem (argv + 8)) = some arg2 ∧
      storage_device d = some device ∧ device ≠ NULL ∧
      kmalloc t.kheap (add32 (atoi arg2) 1) = .done data k ∧
      BlockFor k (add32 (atoi arg2) 1) data ∧
      ∀ x, WrittenThrough { t.storage with kheap := k } (d.driver device) (atoi arg1) data
        (atoi arg2) x → data ≤ x ∧ x < data + payload_size k data

/-- The handler fails with a code, or it has the device. It writes through nothing that was
allocated. -/
def WriteUsesWhatItGot (d : DeviceTree) (s argc argv : Nat) (t : ShellState) : Prop :=
  (∃ errno t', shell_execute_ata_write d s argc argv t = .done errno t' ∧ errno ≠ 0) ∨
    ∃ device, storage_device d = some device ∧ device ≠ NULL

/-- There is a storage device, a free block has the room for the bytes and the NUL, and it is not
the empty range at 0 that the driver goes through. -/
def ReadIsGranted (d : DeviceTree) (f : Forest Nat) (bs : List Block) : List (List UInt8) → Prop
  | [_, w1, w2] =>
    ∃ device, firstStorage d f = some device ∧
      add32 (atoi w2) 1 ≠ 0 ∧ bestFit (add32 (atoi w2) 1) bs ≠ none ∧
      (Refused (d.driver device) (atoi w1) (atoi w2) ∨ atoi w1 ≠ 0 ∨ atoi w2 ≠ 0 ∨
        bestFit ATA_SECTOR_SIZE (afterTaking (add32 (atoi w2) 1) bs) = none)
  | _ => True

def WriteIsGranted (d : DeviceTree) (f : Forest Nat) (ws : List (List UInt8)) : Prop :=
  ws.length = 3 → firstStorage d f ≠ none

/-! ## The bytes that the driver copies -/

/-- In a range that is not the empty one at 0, and no larger than the heap, the driver copies
bytes of the buffer only. -/
theorem parts_inside (drive : ata_device) {addr buf size : Nat} (haddr : addr < 4294967296)
    (hsize : size < KHEAP_HEAP_SIZE) (htop : buf + size < 4294967296)
    (hrange : addr ≠ 0 ∨ size ≠ 0) {part : SectorPart}
    (hpart : part ∈ driver_parts drive addr buf size) {x : Nat} (hx : part.data_ptr ≤ x)
    (hx' : x < part.data_ptr + part.size) : buf ≤ x ∧ x < buf + size := by
  unfold KHEAP_HEAP_SIZE at hsize
  unfold driver_parts at hpart
  split at hpart
  · exact absurd hpart List.not_mem_nil
  simp only at hpart
  by_cases hempty : size = 0
  · -- one part at most, and that one without a byte
    have hlast : sub32 (add32 addr size) 1 = addr - 1 := by
      unfold add32 sub32
      omega
    by_cases haligned : addr % 512 = 0
    · have hturns : (ata_sector_range addr size).end_sector + 1 -
          (ata_sector_range addr size).start_sector = 0 := by
        unfold ata_sector_range ATA_SECTOR_SIZE
        rw [hlast]
        simp only
        omega
      rw [hturns] at hpart
      exact absurd hpart List.not_mem_nil
    · have hturns : (ata_sector_range addr size).end_sector + 1 -
          (ata_sector_range addr size).start_sector = 1 := by
        unfold ata_sector_range ATA_SECTOR_SIZE
        rw [hlast]
        simp only
        omega
      rw [hturns] at hpart
      have hzero : part.size = 0 := by
        rw [List.mem_singleton.mp hpart]
        have hsame : addr / 512 = (addr - 1) / 512 := by omega
        have hnone : add32 (sub32 ((addr - 1) % 512) (addr % 512)) 1 = 0 := by
          unfold add32 sub32
          omega
        show (ata_sector_part (ata_sector_range addr size) (addr / ATA_SECTOR_SIZE)).2 = 0
        unfold ata_sector_part ata_sector_range ATA_SECTOR_SIZE
        simp only [hlast, if_true, hsame, hnone]
      omega
  · by_cases hsum : addr + size ≤ 4294967296
    · have hturns : addr / ATA_SECTOR_SIZE + ((ata_sector_range addr size).end_sector + 1 -
          (ata_sector_range addr size).start_sector) =
            (addr + size - 1) / ATA_SECTOR_SIZE + 1 := by
        rw [sector_range_eq (by omega) hsum]
        unfold ATA_SECTOR_SIZE
        simp only
        omega
      have hfirst : add32 buf (bytesBefore addr size (addr / ATA_SECTOR_SIZE)) = buf := by
        rw [bytesBefore_start, add32_eq (by omega), Nat.add_zero]
      have hparts := (range_parts (by omega) hsum (by omega) buf _ (Nat.le_refl _) hturns).1
      rw [hfirst] at hparts
      obtain ⟨k, hk, hptr⟩ := (hparts part hpart).1.buf
      rw [hptr, add32_eq (by omega)] at hx hx'
      omega
    · -- the sum wraps to a sector far below the first one
      have hturns : (ata_sector_range addr size).end_sector + 1 -
          (ata_sector_range addr size).start_sector = 0 := by
        unfold ata_sector_range ATA_SECTOR_SIZE add32 sub32
        simp only
        omega
      rw [hturns] at hpart
      exact absurd hpart List.not_mem_nil

theorem empty_range_eq : ata_sector_range 0 0 = ⟨0, 0, 8388607, 511⟩ := by
  have hlast : sub32 (add32 0 0) 1 = 4294967295 := by
    unfold add32 sub32
    rfl
  unfold ata_sector_range
  rw [hlast]
  rfl

theorem empty_range_size {idx : Nat} (hidx : idx < 8388607) :
    (ata_sector_part (ata_sector_range 0 0) idx).2 = 512 := by
  have hone : sub32 512 0 = 512 := sub32_eq (by omega) (by omega)
  unfold ata_sector_part ATA_SECTOR_SIZE
  simp only [empty_range_eq, if_neg (Nat.ne_of_lt hidx), hone, ite_self]

/-- The empty range at 0 has a part for every sector that 32 bits can address. -/
theorem empty_range_parts (n turns : Nat) {idx ptr : Nat} (hptr : ptr < 4294967296)
    (hn : n < turns) (hidx : idx + n < 8388607) :
    ∃ part ∈ sector_parts (ata_sector_range 0 0) turns idx ptr,
      part.data_ptr = add32 ptr (512 * n) ∧ part.size = 512 := by
  induction n generalizing turns idx ptr with
  | zero =>
    obtain ⟨turns, rfl⟩ := Nat.exists_eq_succ_of_ne_zero (Nat.ne_of_gt hn)
    refine ⟨_, List.mem_cons_self, ?_, empty_range_size hidx⟩
    have hsame : add32 ptr (512 * 0) = ptr := add32_eq (by omega)
    exact hsame.symm
  | succ n ih =>
    obtain ⟨turns, rfl⟩ := Nat.exists_eq_succ_of_ne_zero (Nat.ne_of_gt (Nat.zero_lt_of_lt hn))
    have hsize := empty_range_size (show idx < 8388607 by omega)
    obtain ⟨part, hpart, hdata, hpsize⟩ := ih turns (add32_lt ptr 512)
      (Nat.lt_of_succ_lt_succ hn) (show idx + 1 + n < 8388607 by omega)
    refine ⟨part, ?_, ?_, hpsize⟩
    · rw [sector_parts]
      simp only [hsize]
      exact List.mem_cons_of_mem _ hpart
    · rw [hdata, add32_add32]
      congr 1
      omega

/-! ## Arguments on the heap -/

/-- The tokens from `line` on, each with its NUL, and the pointers to them from `argv` on. -/
def place_args (m : Mem) (argv line : Nat) : List (List UInt8) → Mem
  | [] => m
  | w :: ws =>
    place_args (store32 (storeList m line (w ++ [0])) argv line) (argv + 4) (line + w.length + 1) ws

/-- The bytes of the tokens and their NULs. -/
def argBytes (ws : List (List UInt8)) : Nat := (ws.map fun w => w.length + 1).sum

theorem place_args_frame (m : Mem) {argv line x : Nat} {ws : List (List UInt8)}
    (hargv : x < argv ∨ argv + 4 * ws.length ≤ x) (hline : x < line ∨ line + argBytes ws ≤ x) :
    place_args m argv line ws x = m x := by
  induction ws generalizing m argv line with
  | nil => rfl
  | cons w ws ih =>
    have hbytes : argBytes (w :: ws) = w.length + 1 + argBytes ws := rfl
    rw [List.length_cons] at hargv
    rw [place_args, ih _ (by omega) (by omega), store32_frame _ _ (by omega)]
    apply storeList_frame
    rw [List.length_append, List.length_singleton]
    omega

theorem place_args_argv (m : Mem) {argv line lo hi : Nat} {ws : List (List UInt8)}
    (hwords : ∀ w ∈ ws, ∀ c ∈ w, c ≠ 0) (hlo : lo ≤ line) (hhi : line + argBytes ws ≤ hi)
    (hword : hi ≤ 4294967296)
    (hapart : argv + 4 * ws.length ≤ line ∨ line + argBytes ws ≤ argv) :
    ArgvAt (place_args m argv line ws) argv lo hi ws := by
  induction ws generalizing m argv line with
  | nil => exact fun i w hw => absurd hw (by simp)
  | cons w ws ih =>
    have hbytes : argBytes (w :: ws) = w.length + 1 + argBytes ws := rfl
    rw [List.length_cons] at hapart
    obtain ⟨m', hm'⟩ : ∃ m', m' = store32 (storeList m line (w ++ [0])) argv line := ⟨_, rfl⟩
    have hstring : StringAt m' line w := by
      have hlist : ∀ i, (hi : i < (w ++ [0]).length) → m' (line + i) = (w ++ [0])[i] := by
        intro i hi
        rw [List.length_append, List.length_singleton] at hi
        rw [hm', store32_frame _ _ (by omega), storeList_inside]
      refine ⟨?_, ?_, hwords w List.mem_cons_self⟩
      · apply List.ext_getElem (length_loadList _ _ _)
        intro i hi hi'
        rw [getElem_loadList, hlist i (by simp; omega), List.getElem_append_left hi']
      · rw [hlist w.length (by simp)]
        simp
    have hkeep : ∀ x, (line ≤ x ∧ x < line + (w.length + 1)) ∨ (argv ≤ x ∧ x < argv + 4) →
        place_args m' (argv + 4) (line + w.length + 1) ws x = m' x := by
      intro x hx
      exact place_args_frame _ (by omega) (by omega)
    have hptr : load32 (place_args m' (argv + 4) (line + w.length + 1) ws) argv = line := by
      rw [load32_congr fun x hx hx' => hkeep x (Or.inr ⟨hx, hx'⟩), hm',
        load32_store32 _ _ (by omega)]
    rw [place_args, ← hm']
    refine ArgvAt.cons (hstring.congr fun x hx hx' => hkeep x (by omega)) hptr hlo (by omega) ?_
    exact ih m' (fun v hv => hwords v (List.mem_cons_of_mem w hv)) (by omega) (by omega) (by omega)

/-- Where the heap has room for the tokens and for the pointers, they can be there. -/
theorem args_placed {k : Kheap} {live pinned : List Nat} {ws : List (List UInt8)}
    (h : ClientHeap k live pinned) (hwords : ∀ w ∈ ws, ∀ c ∈ w, c ≠ 0) (hne : ws ≠ [])
    (hline : bestFit (argBytes ws) (heap_blocks k) ≠ none)
    (hargv : bestFit (4 * ws.length) (afterTaking (argBytes ws) (heap_blocks k)) ≠ none) :
    ∃ k' argv line, ClientHeap k' (argv :: line :: live) pinned ∧
      ArgsAt k' (argv :: line :: live) [] argv ws ∧
      heap_blocks k' = afterTaking (4 * ws.length) (afterTaking (argBytes ws) (heap_blocks k)) := by
  have hlen := List.length_pos_iff.mpr hne
  have hbytes : argBytes ws ≠ 0 := by
    obtain ⟨w, ws, rfl⟩ := List.exists_cons_of_ne_nil hne
    have hsum : argBytes (w :: ws) = w.length + 1 + argBytes ws := rfl
    omega
  obtain ⟨line, k₁, -, hgot₁⟩ := kmalloc_grants h hbytes hline
  rw [← hgot₁.blocks] at hargv
  obtain ⟨argv, k₂, -, hgot₂⟩ := kmalloc_grants hgot₁.heap (by omega) hargv
  have hfits₁ := hgot₁.fits
  rw [← (hgot₂.keeps line List.mem_cons_self).size] at hfits₁
  have hfits₂ := hgot₂.fits
  have hin : line ∈ argv :: line :: live := List.mem_cons_of_mem argv List.mem_cons_self
  have hapart := hgot₂.heap.apart List.mem_cons_self hin
    fun heq => hgot₂.fresh (heq ▸ List.mem_cons_self)
  obtain ⟨-, hword, -, -⟩ := hgot₂.heap.bounds hin
  have hframe : ∀ x, (∀ p ∈ [argv, line], x < p ∨ p + payload_size k₂ p ≤ x) →
      place_args k₂.mem argv line ws x = k₂.mem x := by
    intro x hx
    have hxa := hx argv (by simp)
    have hxl := hx line (by simp)
    exact place_args_frame _ (by omega) (by omega)
  have hown : ∀ p ∈ [argv, line], p ∈ argv :: line :: live := by
    simp
  have hkept := write_keeps hgot₂.heap hown hframe
  refine ⟨_, argv, line, hkept.heap, ⟨List.mem_cons_self, List.not_mem_nil, ?_, line, hin,
    List.not_mem_nil, ?_⟩, ?_⟩
  · rw [hkept.sizes argv List.mem_cons_self]
    omega
  · rw [hkept.sizes line hin]
    exact place_args_argv _ hwords (Nat.le_refl line) (by omega) (by omega) (by omega)
  · rw [hkept.blocks, hgot₂.blocks, hgot₁.blocks]

/-! ## The two commands -/

section

variable {d : DeviceTree} {f : Forest Nat} {live pinned written : List Nat} {s argv : Nat}
  {t : ShellState} {w0 w1 w2 : List UInt8}

/-- The driver gets its buffer when a free block has the room. -/
theorem sector_buffer_iff {storage : Storage} (h : ClientHeap storage.kheap live pinned) :
    HasSectorBuffer storage ↔ bestFit ATA_SECTOR_SIZE (heap_blocks storage.kheap) ≠ none := by
  constructor
  · rintro ⟨p, k, halloc, hp⟩ hnone
    rcases kmalloc_obtains h (show ATA_SECTOR_SIZE ≤ KHEAP_HEAP_SIZE by decide) with
      ⟨hnull, -⟩ | ⟨q, k', -, hgot⟩
    · rw [halloc, Outcome.done.injEq] at hnull
      exact hp hnull.1
    · obtain ⟨b, hb, -⟩ := hgot.best
      rw [hnone] at hb
      cases hb
  · intro hbest
    obtain ⟨p, k, halloc, hgot⟩ := kmalloc_grants h (show ATA_SECTOR_SIZE ≠ 0 by decide) hbest
    exact ⟨p, k, halloc, (hgot.heap.bounds List.mem_cons_self).1⟩

/-- With three arguments the handlers never fail. -/
theorem ata_read_returns_zero {errno : Int} {t' : ShellState}
    (h : shell_execute_ata_read d s 3 argv t = .done errno t') : errno = 0 := by
  unfold shell_execute_ata_read at h
  rw [if_pos rfl] at h
  split at h
  · obtain ⟨data, u, -, h⟩ := Outcome.andThen_eq_done.mp h
    split at h
    · cases h
    · obtain ⟨_, u₁, -, h⟩ := Outcome.andThen_eq_done.mp h
      obtain ⟨_, u₂, -, h⟩ := Outcome.andThen_eq_done.mp h
      obtain ⟨_, u₃, -, h⟩ := Outcome.andThen_eq_done.mp h
      cases h
      rfl
  · cases h

theorem ata_write_returns_zero {errno : Int} {t' : ShellState}
    (h : shell_execute_ata_write d s 3 argv t = .done errno t') : errno = 0 := by
  unfold shell_execute_ata_write at h
  rw [if_pos rfl] at h
  simp only at h
  split at h
  · split at h
    · cases h
    · obtain ⟨_, u, -, h⟩ := Outcome.andThen_eq_done.mp h
      cases h
      rfl
  · cases h

theorem firstStorage_of_ne (htree : TreeIs d.registry.device_tree f) {device : Nat}
    (hdevice : storage_device d = some device) (hne : device ≠ NULL) :
    firstStorage d f = some device := by
  rw [storage_device_eq htree, Option.some.injEq] at hdevice
  cases hfirst : firstStorage d f with
  | none =>
    rw [hfirst] at hdevice
    exact absurd hdevice.symm hne
  | some first =>
    rw [hfirst] at hdevice
    exact congrArg some hdevice

theorem storage_device_of_first (htree : TreeIs d.registry.device_tree f)
    (hdata : ∀ a ∈ f.preorder, (d.registry.device_tree.nodes a).data ≠ NULL) {device : Nat}
    (hfirst : firstStorage d f = some device) :
    storage_device d = some device ∧ device ≠ NULL := by
  rw [storage_device_eq htree, hfirst]
  refine ⟨rfl, ?_⟩
  obtain ⟨a, ha, rfl⟩ := List.mem_map.mp (List.mem_of_find?_eq_some hfirst)
  exact hdata a ha

/-- A buffer that the heap gave is a block of its own. -/
theorem Obtained.blockFor {k k' : Kheap} {size p : Nat} (h : Obtained k k' live pinned size p) :
    BlockFor k' size p := by
  obtain ⟨hne, -, hlow, hhigh⟩ := h.heap.bounds List.mem_cons_self
  exact ⟨hne, h.fits, hlow, hhigh⟩

/-- The command that reads, with all its arguments. -/
theorem read_uses_iff (htree : TreeIs d.registry.device_tree f)
    (hdata : ∀ a ∈ f.preorder, (d.registry.device_tree.nodes a).data ≠ NULL)
    (hheap : ClientHeap t.kheap live pinned)
    (hargs : ArgsAt t.kheap live written argv [w0, w1, w2]) :
    ReadUsesWhatItGot d s 3 argv t ↔ ReadIsGranted d f (heap_blocks t.kheap) [w0, w1, w2] := by
  have hread1 : string_at t.mem 4294967296 (load32 t.mem (argv + 4)) = some w1 :=
    hargs.read hheap (show argv + 4 = argv + 4 * 1 from rfl) rfl
  have hread2 : string_at t.mem 4294967296 (load32 t.mem (argv + 8)) = some w2 :=
    hargs.read hheap (show argv + 8 = argv + 4 * 2 from rfl) rfl
  constructor
  · rintro (⟨errno, t', hdone, hne⟩ | ⟨arg1, arg2, device, data, k, harg1, harg2, hdevice, hfound,
      halloc, hblock, hinside⟩)
    · exact absurd (ata_read_returns_zero hdone) hne
    · rw [hread1, Option.some.injEq] at harg1
      rw [hread2, Option.some.injEq] at harg2
      subst harg1 harg2
      have hfits : add32 (atoi w2) 1 ≤ KHEAP_HEAP_SIZE := by
        have hroom := hblock.room
        have hlow := hblock.low
        have hhigh := hblock.high
        omega
      rcases kmalloc_obtains hheap hfits with ⟨hnull, -⟩ | ⟨p, k', hgrant, hgot⟩
      · rw [halloc, Outcome.done.injEq] at hnull
        exact absurd hnull.1 hblock.ne
      · rw [halloc, Outcome.done.injEq] at hgrant
        obtain ⟨rfl, rfl⟩ := hgrant
        have hpos : add32 (atoi w2) 1 ≠ 0 := by
          intro hzero
          have hnull : kmalloc t.kheap 0 = .done NULL t.kheap := by
            unfold kmalloc kmalloc_base
            rw [hheap.shape.enabled]
            rfl
          rw [hzero, hnull, Outcome.done.injEq] at halloc
          exact hblock.ne halloc.1.symm
        obtain ⟨b, hbest, -⟩ := hgot.best
        refine ⟨device, firstStorage_of_ne htree hdevice hfound, hpos, by simp [hbest], ?_⟩
        by_contra hall
        simp only [not_or, not_not] at hall
        obtain ⟨haccept, hzero, hempty, hsector⟩ := hall
        have hbuffer : HasSectorBuffer { t.storage with kheap := k } := by
          apply (sector_buffer_iff hgot.heap).mpr
          rw [hgot.blocks]
          exact hsector
        obtain ⟨-, hword, -, -⟩ := hgot.heap.bounds List.mem_cons_self
        have hsmall := hgot.heap.payload_lt List.mem_cons_self
        unfold KHEAP_HEAP_SIZE at hsmall
        obtain ⟨part, hpart, hptr, hsize⟩ := empty_range_parts 65536 8388608
          (show data < 4294967296 by omega) (by omega) (show 0 + 65536 < 8388607 by omega)
        have hmem : part ∈ driver_parts (d.driver device) (atoi w1) data (atoi w2) := by
          unfold driver_parts
          rw [if_neg haccept, hzero, hempty, empty_range_eq]
          rw [empty_range_eq] at hpart
          exact hpart
        have hin := hinside part.data_ptr
          ⟨Or.inr hbuffer, Or.inr ⟨part, hmem, Nat.le_refl _, by omega⟩⟩
        rw [hptr] at hin
        unfold add32 at hin
        omega
  · rintro ⟨device, hfirst, hpos, hbest, hrange⟩
    obtain ⟨hdevice, hfound⟩ := storage_device_of_first htree hdata hfirst
    obtain ⟨data, k, halloc, hgot⟩ := kmalloc_grants hheap hpos hbest
    refine Or.inr ⟨w1, w2, device, data, k, hread1, hread2, hdevice, hfound, halloc, hgot.blockFor,
      ?_⟩
    have hlt := atoi_lt w2
    have hadd : add32 (atoi w2) 1 = atoi w2 + 1 := by
      unfold add32 at hpos ⊢
      omega
    have hfits := hgot.fits
    obtain ⟨-, hword, -, -⟩ := hgot.heap.bounds List.mem_cons_self
    have hsmall := hgot.heap.payload_lt List.mem_cons_self
    rw [hadd] at hfits
    rintro x ⟨hreturns, rfl | ⟨part, hpart, hx, hx'⟩⟩
    · rw [add32_eq (by omega)]
      omega
    · have hgood : atoi w1 ≠ 0 ∨ atoi w2 ≠ 0 := by
        have haccept : ¬ Refused (d.driver device) (atoi w1) (atoi w2) := by
          intro hrefused
          unfold driver_parts at hpart
          rw [if_pos hrefused] at hpart
          exact absurd hpart List.not_mem_nil
        rcases hrange with hrange | hrange | hrange | hrange
        · exact absurd hrange haccept
        · exact Or.inl hrange
        · exact Or.inr hrange
        · have hbuffer := (@sector_buffer_iff _ _ { t.storage with kheap := k } hgot.heap).mp
            (hreturns.resolve_left haccept)
          rw [hgot.blocks] at hbuffer
          exact absurd hrange hbuffer
      have hin := parts_inside _ (atoi_lt w1) (by omega) (by omega) hgood hpart hx hx'
      omega

theorem write_uses_iff (htree : TreeIs d.registry.device_tree f)
    (hdata : ∀ a ∈ f.preorder, (d.registry.device_tree.nodes a).data ≠ NULL) :
    WriteUsesWhatItGot d s 3 argv t ↔ firstStorage d f ≠ none := by
  constructor
  · rintro (⟨errno, t', hdone, hne⟩ | ⟨device, hdevice, hfound⟩)
    · exact absurd (ata_write_returns_zero hdone) hne
    · simp [firstStorage_of_ne htree hdevice hfound]
  · intro hfirst
    obtain ⟨device, hfirst⟩ := Option.ne_none_iff_exists'.mp hfirst
    exact Or.inr ⟨device, storage_device_of_first htree hdata hfirst⟩

/-- The handlers use what they got, or fail with a code, exactly when there is a storage device
and, to read, a buffer from the heap, and the range is not the empty one at 0. -/
theorem storage_commands_use_what_they_were_granted (htree : TreeIs d.registry.device_tree f)
    (hdata : ∀ a ∈ f.preorder, (d.registry.device_tree.nodes a).data ≠ NULL)
    (hheap : ClientHeap t.kheap live pinned) {ws : List (List UInt8)}
    (hargs : ArgsAt t.kheap live written argv ws) :
    (ReadUsesWhatItGot d s ws.length argv t ↔ ReadIsGranted d f (heap_blocks t.kheap) ws) ∧
      (WriteUsesWhatItGot d s ws.length argv t ↔ WriteIsGranted d f ws) := by
  by_cases hlen : ws.length = 3
  · obtain ⟨w0, w1, w2, rfl⟩ := List.length_eq_three.mp hlen
    exact ⟨read_uses_iff htree hdata hheap hargs,
      (write_uses_iff htree hdata).trans ⟨fun hfirst _ => hfirst, fun h => h rfl⟩⟩
  · have hread : ReadIsGranted d f (heap_blocks t.kheap) ws := by
      unfold ReadIsGranted
      split
      · exact absurd rfl hlen
      · trivial
    have hwrite : WriteIsGranted d f ws := fun h => absurd h hlen
    refine ⟨iff_of_true (Or.inl ⟨-1, t, ?_, by decide⟩) hread,
      iff_of_true (Or.inl ⟨-1, t, ?_, by decide⟩) hwrite⟩
    · exact if_neg hlen
    · exact if_neg hlen

end

/-! ## Commands on a kernel that has just started -/

/-- The root of the device tree, and a disk under it. -/
def diskForest : Forest Nat := .node 0x10 (.node 0x20 .nil .nil) .nil

def diskTree : DeviceTree where
  registry := ⟨⟨fun a => if a = 0x10 then ⟨NULL, NULL, 0x20, 0x1000⟩
    else ⟨0x10, NULL, NULL, 0x2000⟩, 0x10⟩, [0x20, 0x10]⟩
  devices := fun a => if a = 0x2000 then ⟨0x0200, 0x02⟩ else ⟨0, 0⟩
  driver := fun _ => sampleDevice

/-- The same tree, with something else in the place of the disk. -/
def disklessTree : DeviceTree := { diskTree with devices := fun _ => ⟨0, 0⟩ }

theorem diskForest_is : TreeIs diskTree.registry.device_tree diskForest :=
  ⟨rfl, ⟨rfl, rfl, rfl, ⟨rfl, rfl, rfl, trivial, trivial⟩, trivial⟩, by decide, by decide,
    by decide⟩

theorem diskForest_data :
    ∀ a ∈ diskForest.preorder, (diskTree.registry.device_tree.nodes a).data ≠ NULL := by decide

/-- The blocks of the heap of the boot, with a command line and its argument vector taken. -/
def argsBlocks (ws : List (List UInt8)) : List Block :=
  afterTaking (4 * ws.length) (afterTaking (argBytes ws) startBlocks)

/-- A command that was typed as the first one, with its arguments on the heap. -/
theorem first_command {ws : List (List UInt8)} (hwords : ∀ w ∈ ws, ∀ c ∈ w, c ≠ 0) (hne : ws ≠ [])
    (hline : bestFit (argBytes ws) startBlocks ≠ none)
    (hargv : bestFit (4 * ws.length) (afterTaking (argBytes ws) startBlocks) ≠ none) :
    ∃ t : ShellState, ∃ live argv, ClientHeap t.kheap live [] ∧ ArgsAt t.kheap live [] argv ws ∧
      heap_blocks t.kheap = argsBlocks ws := by
  have hblocks : heap_blocks startHeap = startBlocks := startBlocks_shape.toLaid.blocks
  rw [← hblocks] at hline hargv
  obtain ⟨k, argv, line, hheap, hargs, hafter⟩ :=
    args_placed startHeap_client hwords hne hline hargv
  rw [hblocks] at hafter
  exact ⟨⟨⟨k, blankIde⟩, [], 0, NULL⟩, _, argv, hheap, hargs, hafter⟩

/-- `ataread 0` with a size. -/
def readCommand (size : List UInt8) : List (List UInt8) := [literal "ataread", literal "0", size]

theorem atoi_samples : atoi (literal "0") = 0 ∧ atoi (literal "4") = 4 ∧
    atoi (literal "-1") = 4294967295 := by
  decide +kernel

theorem four_bytes_of_the_disk :
    ∃ t : ShellState, ∃ live argv, ArgsAt t.kheap live [] argv (readCommand (literal "4")) ∧
      ReadUsesWhatItGot diskTree NULL 3 argv t ∧ WriteUsesWhatItGot diskTree NULL 3 argv t := by
  obtain ⟨t, live, argv, hheap, hargs, hblocks⟩ :=
    @first_command (readCommand (literal "4")) (by decide +kernel) (by decide)
      (by decide) (by decide)
  have huses := @storage_commands_use_what_they_were_granted _ _ _ _ _ NULL _ _ diskForest_is
    diskForest_data hheap _ hargs
  have hread : ReadIsGranted diskTree diskForest (heap_blocks t.kheap)
      (readCommand (literal "4")) := by
    unfold ReadIsGranted readCommand
    simp only [atoi_samples, hblocks]
    exact ⟨0x2000, by decide, by decide +kernel, by decide +kernel, by decide +kernel⟩
  exact ⟨t, live, argv, hargs, huses.1.mpr hread, huses.2.mpr fun _ => by decide⟩

/-- Without a disk both commands go through `NULL`. With one, `ataread 0 -1` writes through the
`NULL` of a failed allocation, and `ataread 0 0` reads 4 GB into a buffer of one byte. -/
theorem storage_commands_use_what_they_were_not_granted :
    (∃ t : ShellState, ∃ live argv, ArgsAt t.kheap live [] argv (readCommand (literal "4")) ∧
      ¬ ReadUsesWhatItGot disklessTree NULL 3 argv t ∧
      ¬ WriteUsesWhatItGot disklessTree NULL 3 argv t) ∧
    (∃ t : ShellState, ∃ live argv, ArgsAt t.kheap live [] argv (readCommand (literal "-1")) ∧
      ¬ ReadUsesWhatItGot diskTree NULL 3 argv t) ∧
    ∃ t : ShellState, ∃ live argv, ArgsAt t.kheap live [] argv (readCommand (literal "0")) ∧
      ¬ ReadUsesWhatItGot diskTree NULL 3 argv t := by
  have hnone : firstStorage disklessTree diskForest = none := by decide
  refine ⟨?_, ?_, ?_⟩
  · obtain ⟨t, live, argv, hheap, hargs, -⟩ :=
      @first_command (readCommand (literal "4")) (by decide +kernel) (by decide)
        (by decide) (by decide)
    refine ⟨t, live, argv, hargs, fun huses => ?_, fun huses => ?_⟩
    · obtain ⟨device, hfirst, -⟩ := (@read_uses_iff disklessTree _ _ _ _ _ _ _ _ _ _ diskForest_is
        diskForest_data hheap hargs).mp huses
      rw [hnone] at hfirst
      cases hfirst
    · exact (@write_uses_iff disklessTree _ _ _ _ diskForest_is diskForest_data).mp huses hnone
  · obtain ⟨t, live, argv, hheap, hargs, -⟩ :=
      @first_command (readCommand (literal "-1")) (by decide +kernel) (by decide)
        (by decide) (by decide)
    refine ⟨t, live, argv, hargs, fun huses => ?_⟩
    obtain ⟨-, -, hpos, -⟩ := (read_uses_iff diskForest_is diskForest_data hheap hargs).mp huses
    rw [atoi_samples.2.2] at hpos
    exact hpos (by decide +kernel)
  · obtain ⟨t, live, argv, hheap, hargs, hblocks⟩ :=
      @first_command (readCommand (literal "0")) (by decide +kernel) (by decide)
        (by decide) (by decide)
    refine ⟨t, live, argv, hargs, fun huses => ?_⟩
    obtain ⟨device, hfirst, -, -, hrange⟩ :=
      (read_uses_iff diskForest_is diskForest_data hheap hargs).mp huses
    rw [atoi_samples.1, hblocks] at hrange
    revert hrange
    show ¬ (Refused sampleDevice 0 0 ∨ _)
    decide +kernel

end sakana_os
