-- Runs of reads and writes: whatever the kernel does with its memory in between, the four
-- drives are arrays of bytes, and a read gives what the writes before it left.
import SakanaOS.AtaRanges
import SakanaOS.HeldMemory

open byte_memory block_tiling runs

namespace sakana_os

/-! ## The arrays -/

/-- The bytes of the four drives. -/
abbrev Drives : Type := ata_drive_t → Mem

/-- The bytes from `address` on are replaced by `data`. -/
def Drives.replace (drives : Drives) (drive : ata_drive_t) (address : Nat) (data : List UInt8) :
    Drives :=
  Function.update drives drive (storeList (drives drive) address data)

/-- What happens next: the kernel reads, or writes `data`, which stand at `buf`, or does
anything else that leaves it the heap `k`. -/
inductive DiskCall where
  | read (device : ata_device) (address buf size : Nat)
  | write (device : ata_device) (address buf : Nat) (data : List UInt8)
  | other (k : Kheap)

/-- The drives after a call. -/
def DiskCall.after (drives : Drives) : DiskCall → Drives
  | write device address _ data => drives.replace device.drive address data
  | _ => drives

/-- The call writes the byte at `x`. -/
def DiskCall.Writes (drive : ata_drive_t) (x : Nat) : DiskCall → Prop
  | write device address _ data =>
    device.drive = drive ∧ address ≤ x ∧ x < address + data.length
  | _ => False

theorem Drives.replace_inside (drives : Drives) (drive : ata_drive_t) {address x : Nat}
    {data : List UInt8} (h : address ≤ x) (h' : x < address + data.length) :
    drives.replace drive address data drive x =
      data.get ⟨x - address, Nat.sub_lt_left_of_lt_add h h'⟩ := by
  unfold Drives.replace
  rw [Function.update_self]
  exact storeList_at h h'

/-- A byte that a call does not write stays. -/
theorem DiskCall.after_other {call : DiskCall} {drive : ata_drive_t} {x : Nat} (drives : Drives)
    (h : ¬ call.Writes drive x) : call.after drives drive x = drives drive x := by
  cases call with
  | read device address buf size => rfl
  | other k => rfl
  | write device address buf data =>
    simp only [after, Drives.replace]
    by_cases hdrive : drive = device.drive
    · subst hdrive
      rw [Function.update_self]
      apply storeList_frame
      unfold Writes at h
      simp only [true_and, not_and, not_lt] at h
      by_cases hx : x < address
      · exact Or.inl hx
      · exact Or.inr (h (Nat.le_of_not_lt hx))
    · rw [Function.update_of_ne hdrive]

theorem after_others {calls : List DiskCall} {drive : ata_drive_t} {x : Nat} (drives : Drives)
    (h : ∀ call ∈ calls, ¬ call.Writes drive x) :
    calls.foldl DiskCall.after drives drive x = drives drive x := by
  induction calls generalizing drives with
  | nil => rfl
  | cons call calls ih =>
    rw [List.foldl_cons, ih _ fun c hc => h c (List.mem_cons_of_mem _ hc)]
    exact DiskCall.after_other drives (h call List.mem_cons_self)

/-- The byte is the one that the last call to write it wrote. -/
theorem last_write {before after : List DiskCall} {device : ata_device} {address buf x : Nat}
    {data : List UInt8} (drives : Drives) (h : address ≤ x) (h' : x < address + data.length)
    (hlast : ∀ call ∈ after, ¬ call.Writes device.drive x) :
    (before ++ .write device address buf data :: after).foldl DiskCall.after drives
      device.drive x = data.get ⟨x - address, Nat.sub_lt_left_of_lt_add h h'⟩ := by
  rw [List.foldl_append, List.foldl_cons, after_others _ hlast]
  exact Drives.replace_inside _ _ h h'

/-! ## The calls -/

/-- The driver accepts the range, the caller owns its buffer, and the heap has a buffer for
a sector. -/
structure Allowed (s : Storage) (device : ata_device) (address buf size : Nat) : Prop where
  range : InDrive device address size
  top : buf + size ≤ 4294967296
  owned : ∀ x, buf ≤ x → x < buf + size → Held s.kheap x
  sector_buf : ∃ p k, kmalloc s.kheap ATA_SECTOR_SIZE = .done p k ∧ p ≠ NULL

namespace DiskCall

def exec (s : Storage) : DiskCall → Outcome Storage Nat
  | read device address buf size => ata_read s device address buf size
  | write device address buf data => ata_write s device address buf data.length
  | other k => .done 0 { s with kheap := k }

/-- Whatever else the kernel does leaves it with a heap. -/
def Legal (s : Storage) : DiskCall → Prop
  | read device address buf size => Allowed s device address buf size
  | write device address buf data =>
    Allowed s device address buf data.length ∧ loadList s.mem buf data.length = data
  | other k => ∃ bs, Shape k bs

/-- What a call returns and does to the memory, when the drives hold the bytes `drives`. -/
def Answered (drives : Drives) (s t : Storage) : DiskCall → Prop
  | read device address buf size =>
    ata_read s device address buf size = .done size t ∧
      loadList t.mem buf size = loadList (drives device.drive) address size ∧
      ∀ x, Held s.kheap x → x < buf ∨ buf + size ≤ x → t.mem x = s.mem x
  | write device address buf data =>
    ata_write s device address buf data.length = .done data.length t ∧
      ∀ x, Held s.kheap x → t.mem x = s.mem x
  | other k => t = { s with kheap := k }

end DiskCall

/-- One call. `none` when it does not return. -/
def disk_step (s : Storage) (call : DiskCall) : Option Storage :=
  match call.exec s with
  | .done _ t => some t
  | _ => none

/-- The sector buffer is apart from what is held. -/
theorem Allowed.granted {s : Storage} {device : ata_device} {address buf size : Nat}
    (h : Allowed s device address buf size) {bs : List Block} (hheap : Shape s.kheap bs) :
    ∃ p k, Granted s buf size p k ∧ (∃ bs', Shape k bs') ∧
      (∀ x, Held s.kheap x → Held k x ∧ k.mem x = s.mem x ∧
        (x < p ∨ p + ATA_SECTOR_SIZE ≤ x)) ∧
      ∀ x, p ≤ x → x < p + ATA_SECTOR_SIZE → Held k x := by
  obtain ⟨p, k, halloc, hp⟩ := h.sector_buf
  have hfits : ATA_SECTOR_SIZE ≤ KHEAP_HEAP_SIZE := by decide
  obtain ⟨hshape, htop, hkept, hnew⟩ := kmalloc_held hheap hfits halloc hp
  refine ⟨p, k, ⟨halloc, hp, htop, ?_, ?_⟩, hshape, hkept, hnew⟩
  · have hpos := h.range.pos
    have hfirst := (hkept buf (h.owned buf (Nat.le_refl _) (by omega))).2.2
    by_cases hbefore : buf + size ≤ p
    · exact Or.inl hbefore
    · rcases hfirst with hlow | hhigh
      · -- The range would run into the sector buffer.
        have hinto := (hkept p (h.owned p (by omega) (by omega))).2.2
        unfold ATA_SECTOR_SIZE at hinto
        omega
      · exact Or.inr hhigh
  · intro x h1 h2
    exact (hkept x (h.owned x h1 h2)).2.1

/-- Memory that differs from the heap's at held bytes only is a heap of the same blocks. -/
theorem beside_blocks {s t : Storage} {k : Kheap} {m : Mem} {p : Nat} {bs : List Block}
    (h : BesideBuffer { s with kheap := k } t m p) (hbs : Shape k bs)
    (hnew : ∀ x, p ≤ x → x < p + ATA_SECTOR_SIZE → Held k x)
    (hm : ∀ x, ¬ Held k x → m x = k.mem x) : Shape t.kheap bs := by
  rw [h.kheap]
  refine hbs.setMem fun x hx => ?_
  have hout : x < p ∨ p + ATA_SECTOR_SIZE ≤ x := by
    by_cases hlow : x < p
    · exact Or.inl hlow
    · by_cases hhigh : x < p + ATA_SECTOR_SIZE
      · exact absurd (hnew x (Nat.le_of_not_lt hlow) hhigh) hx
      · exact Or.inr (Nat.le_of_not_lt hhigh)
  rw [h.mem x hout]
  exact hm x hx

theorem beside_shape {s t : Storage} {k : Kheap} {m : Mem} {p : Nat}
    (h : BesideBuffer { s with kheap := k } t m p) (hshape : ∃ bs, Shape k bs)
    (hnew : ∀ x, p ≤ x → x < p + ATA_SECTOR_SIZE → Held k x)
    (hm : ∀ x, ¬ Held k x → m x = k.mem x) : ∃ bs, Shape t.kheap bs := by
  obtain ⟨bs, hbs⟩ := hshape
  exact ⟨bs, beside_blocks h hbs hnew hm⟩

/-- Every legal call returns, with its answer, and leaves a heap. -/
theorem disk_call_cases {s : Storage} {call : DiskCall} (hheap : ∃ bs, Shape s.kheap bs)
    (hlegal : call.Legal s) : ∃ t, disk_step s call = some t ∧
      call.Answered s.ide.drives s t ∧ t.ide.drives = call.after s.ide.drives ∧
      ∃ bs, Shape t.kheap bs := by
  unfold disk_step
  cases call with
  | read device address buf size =>
    obtain ⟨bs, hbs⟩ := hheap
    obtain ⟨p, k, hgranted, hshape, hkept, hnew⟩ := hlegal.granted hbs
    obtain ⟨t, hread, hdrives, hbeside⟩ := ata_read_spec hlegal.range hgranted hlegal.top
    have hapart := hgranted.apart
    refine ⟨t, ?_, ⟨hread, ?_, ?_⟩, hdrives, beside_shape hbeside hshape hnew ?_⟩
    · simp only [DiskCall.exec, hread]
    · have hstored : loadList t.mem buf size = loadList (storeList k.mem buf
          (loadList (s.ide.drives device.drive) address size)) buf size :=
        loadList_congr fun x h1 h2 => hbeside.mem x (by omega)
      have hlen := length_loadList (s.ide.drives device.drive) address size
      rw [hstored]
      generalize loadList (s.ide.drives device.drive) address size = data at hlen ⊢
      subst hlen
      exact loadList_storeList _ _ _
    · intro x hx hout
      obtain ⟨-, hsame, hoff⟩ := hkept x hx
      rw [hbeside.mem x hoff, storeList_frame _ _ _ _ (by rw [length_loadList]; exact hout), hsame]
    · intro x hx
      apply storeList_frame
      rw [length_loadList]
      by_cases hin : buf ≤ x ∧ x < buf + size
      · exact absurd (hkept x (hlegal.owned x hin.1 hin.2)).1 hx
      · omega
  | write device address buf data =>
    obtain ⟨hallowed, hdata⟩ := hlegal
    obtain ⟨bs, hbs⟩ := hheap
    obtain ⟨p, k, hgranted, hshape, hkept, hnew⟩ := hallowed.granted hbs
    obtain ⟨t, hwrite, hdrives, hbeside⟩ := ata_write_spec hallowed.range hgranted hallowed.top
    rw [hdata] at hdrives
    refine ⟨t, ?_, ⟨hwrite, ?_⟩, hdrives, beside_shape hbeside hshape hnew fun _ _ => rfl⟩
    · simp only [DiskCall.exec, hwrite]
    · intro x hx
      obtain ⟨-, hsame, hoff⟩ := hkept x hx
      rw [hbeside.mem x hoff, hsame]
  | other k => exact ⟨_, rfl, rfl, rfl, hlegal⟩

/-! ## Every run -/

/-- A run whose calls are legal goes to its end. -/
theorem disk_run {s : Storage} {calls : List DiskCall} (hheap : ∃ bs, Shape s.kheap bs)
    (hlegal : Along disk_step DiskCall.Legal s calls) :
    ∃ t, run disk_step s calls = some t ∧ t.ide.drives = calls.foldl DiskCall.after s.ide.drives ∧
      ∃ bs, Shape t.kheap bs := by
  induction calls generalizing s with
  | nil => exact ⟨s, rfl, rfl, hheap⟩
  | cons call calls ih =>
    obtain ⟨u, hstep, -, hdrives, hheap'⟩ := disk_call_cases hheap hlegal.1
    obtain ⟨t, hrun, hdrives', hheap''⟩ := ih hheap' (hlegal.2 u hstep)
    refine ⟨t, run_cons.mpr ⟨u, hstep, hrun⟩, ?_, hheap''⟩
    rw [hdrives', hdrives]
    rfl

/-- The drives are arrays of bytes: in every run of calls that the driver accepts, each call
returns its size, a read stores the bytes of the arrays, a write replaces its bytes and no
others, and at every place stands the byte that was last written there. -/
theorem the_drives_are_arrays_of_bytes {s : Storage} {calls : List DiskCall}
    (hheap : ∃ bs, Shape s.kheap bs) (hlegal : Along disk_step DiskCall.Legal s calls) :
    (∃ t, run disk_step s calls = some t ∧
      t.ide.drives = calls.foldl DiskCall.after s.ide.drives) ∧
    (∀ before call after, calls = before ++ call :: after →
      ∃ u v, run disk_step s before = some u ∧ disk_step u call = some v ∧
        call.Answered (before.foldl DiskCall.after s.ide.drives) u v ∧
        v.ide.drives = call.after (before.foldl DiskCall.after s.ide.drives)) ∧
    ∀ drive x,
      ((∀ call ∈ calls, ¬ call.Writes drive x) →
        calls.foldl DiskCall.after s.ide.drives drive x = s.ide.drives drive x) ∧
      ∀ before device address buf data after,
        calls = before ++ .write device address buf data :: after → device.drive = drive →
        ∀ (h : address ≤ x) (h' : x < address + data.length),
          (∀ call ∈ after, ¬ call.Writes drive x) →
          calls.foldl DiskCall.after s.ide.drives drive x = data[x - address] := by
  refine ⟨?_, ?_, ?_⟩
  · obtain ⟨t, hrun, hdrives, -⟩ := disk_run hheap hlegal
    exact ⟨t, hrun, hdrives⟩
  · rintro before call after rfl
    obtain ⟨u, hrun, hdrives, hheap'⟩ := disk_run hheap (along_front hlegal)
    have hnow := along_iff.mp hlegal before call after u rfl hrun
    obtain ⟨v, hstep, hanswer, hdrives', -⟩ := disk_call_cases hheap' hnow
    rw [hdrives] at hanswer hdrives'
    exact ⟨u, v, hrun, hstep, hanswer, hdrives'⟩
  · intro drive x
    refine ⟨after_others _, ?_⟩
    rintro before device address buf data after rfl rfl h h' hlast
    exact last_write _ h h' hlast

/-- Two idle channels, with four blank drives. -/
def blankIde : Ide := ⟨⟨0, 0, 0, 0, 0, 0, .idle⟩, ⟨0, 0, 0, 0, 0, 0, .idle⟩, fun _ _ => 0, 3⟩

def sampleDevice : ata_device := ⟨.ATA_PRIMARY_SLAVE_DRIVE, true, true, 1024⟩

/-- The device may read and write a range of it from a buffer below the heap. -/
theorem sample_allowed {s : Storage} (hbase : s.kheap.kheap_base = 0xC0300000)
    (hgrants : (kmalloc s.kheap ATA_SECTOR_SIZE).returns (fun p _ => p != NULL) = true)
    {address buf size : Nat} (hrange : InDrive sampleDevice address size)
    (hbuf : buf + size ≤ 0xC0300000) : Allowed s sampleDevice address buf size := by
  refine ⟨hrange, by omega, ?_, ?_⟩
  · intro x _ h2
    refine Or.inl ?_
    rw [hbase]
    omega
  · obtain ⟨p, k, hdone, hnull⟩ := Outcome.returns_iff.mp hgrants
    exact ⟨p, k, hdone, bne_iff_ne.mp hnull⟩

theorem start_storage_allowed {s : Storage} (hheap : s.kheap = startHeap) {buf : Nat}
    (hbuf : buf < 0x10000) : Allowed s sampleDevice 510 buf 4 := by
  refine sample_allowed (congrArg Kheap.kheap_base hheap) ?_
    ⟨rfl, rfl, by decide, by decide, by decide⟩ (by omega)
  rw [hheap]
  decide +kernel

theorem startHeap_shape : ∃ bs, Shape startHeap bs := by
  have hlow : bootKheap.kheap_placement_memory + KHEAP_PLACEMENT_SIZE ≤ 0xC0300000 := by decide
  exact ⟨_, (start_invariant hlow (by decide) rfl).1.shape⟩

/-- The heap of the boot, with four bytes in a buffer. -/
def filledHeap : Kheap :=
  { startHeap with mem := storeList startHeap.mem 0x1000 [0xCA, 0xFE, 0xBA, 0xBE] }

theorem filledHeap_shape : ∃ bs, Shape filledHeap bs := by
  obtain ⟨bs, hbs⟩ := startHeap_shape
  refine ⟨bs, hbs.setMem fun x hx => storeList_frame _ _ _ _ ?_⟩
  by_contra hin
  refine hx (Or.inl ?_)
  have hbase : startHeap.kheap_base = 0xC0300000 := rfl
  rw [hbase]
  simp only [List.length_cons, List.length_nil] at hin
  omega

/-- Four drives that hold the low bytes of their addresses. -/
def numberedIde : Ide := { blankIde with drives := fun _ x => UInt8.ofNat x }

/-- Four bytes over the end of the first sector, and the bytes around it read back. -/
def sampleCalls : List DiskCall :=
  [.write sampleDevice 510 0x1000 [0xCA, 0xFE, 0xBA, 0xBE], .other filledHeap,
    .read sampleDevice 508 0x2000 8]

theorem filledHeap_allowed {s : Storage} (hheap : s.kheap = filledHeap) {address buf size : Nat}
    (hrange : InDrive sampleDevice address size) (hbuf : buf + size ≤ 0xC0300000) :
    Allowed s sampleDevice address buf size := by
  refine sample_allowed (congrArg Kheap.kheap_base hheap) ?_ hrange hbuf
  rw [hheap]
  decide +kernel

theorem the_sample_calls_reach_the_array : ∃ t,
    run disk_step ⟨filledHeap, numberedIde⟩ sampleCalls = some t ∧
      t.ide.drives = sampleCalls.foldl DiskCall.after numberedIde.drives ∧
      loadList t.mem 0x2000 8 = [0xFC, 0xFD, 0xCA, 0xFE, 0xBA, 0xBE, 0x02, 0x03] := by
  have hlegal : Along disk_step DiskCall.Legal ⟨filledHeap, numberedIde⟩ sampleCalls := by
    have hfirst : InDrive sampleDevice 510 4 := ⟨rfl, rfl, by decide, by decide, by decide⟩
    have hlast : InDrive sampleDevice 508 8 := ⟨rfl, rfl, by decide, by decide, by decide⟩
    refine ⟨⟨filledHeap_allowed rfl hfirst (by decide), ?_⟩, ?_⟩
    · exact loadList_storeList _ _ _
    · intro t _
      refine ⟨filledHeap_shape, ?_⟩
      intro u hother
      cases hother
      exact ⟨filledHeap_allowed rfl hlast (by decide), fun _ _ => trivial⟩
  obtain ⟨⟨t, hrun, hdrives⟩, hcalls, -⟩ :=
    the_drives_are_arrays_of_bytes filledHeap_shape hlegal
  obtain ⟨u, v, hbefore, hread, ⟨-, hbytes, -⟩, -⟩ :=
    hcalls [.write sampleDevice 510 0x1000 [0xCA, 0xFE, 0xBA, 0xBE], .other filledHeap]
      (.read sampleDevice 508 0x2000 8) [] rfl
  have hlast : t = v := by
    have hsplit := run_append.mpr ⟨u, hbefore, run_cons.mpr ⟨v, hread, run_nil _ _⟩⟩
    exact Option.some.inj (hrun.symm.trans hsplit)
  refine ⟨t, hrun, hdrives, ?_⟩
  rw [hlast, hbytes]
  decide

end sakana_os
