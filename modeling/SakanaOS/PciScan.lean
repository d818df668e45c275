-- The scan for PCI devices: which functions it finds, and where their devices go in the tree.
import SakanaOS.Devices
import SakanaOS.Machine
import SakanaOS.PciBars

open forests

namespace sakana_os

/-! ## The code -/

def PCI_MAX_NUM_BUSES : Nat := 256
def PCI_DEVICES_PER_BUS : Nat := 32
def PCI_FUNCTIONS_PER_DEVICE : Nat := 8

def PCI_CONFIG_INVALID_VENDOR : UInt16 := 0xFFFF

def PCI_VENDOR_ID : UInt8 := 0x00
def PCI_DEVICE_ID : UInt8 := 0x02
def PCI_PROG_IF : UInt8 := 0x09
def PCI_SUBCLASS : UInt8 := 0x0A
def PCI_CLASS_CODE : UInt8 := 0x0B
def PCI_HEADER_TYPE : UInt8 := 0x0E

def PIC_HEADER_TYPE_MULTIFUNCTION : UInt8 := 0x80

def DEVICE_TYPE_UNKNOWN : UInt16 := 0x0000
def DEVICE_BUS_TYPE_PCI : UInt8 := 0x02

/-- `device_t`, without its uuid. -/
structure device_t extends device where
  name : Nat
  bus_data : Nat

/-- The kernel during the scan: the ports, the tree, the records at their addresses, and the
blocks that `kmalloc` will return. -/
structure PciBoot where
  ports : PciPorts
  registry : Registry
  pci_devices : Nat → pci_device
  devices : Nat → device_t
  supply : List Nat

namespace PciBoot

def kmalloc (s : PciBoot) : Nat × PciBoot :=
  match s.supply with
  | [] => (NULL, s)
  | p :: supply => (p, { s with supply })

/-- The allocation that the kernel stops without. -/
def kmalloc_or_panic (s : PciBoot) : Outcome PciBoot Nat :=
  let (p, s) := s.kmalloc
  if p = NULL then .kpanic KPANIC_OUT_OF_MEMORY "Memory allocation failed." s else .done p s

/-- `device_register`, with its allocation. -/
def register (s : PciBoot) (device : Nat) : Outcome PciBoot Int :=
  s.kmalloc_or_panic.andThen fun node s =>
    match device_register s.registry device node with
    | none => .hang s
    | some (ret, registry) => .done ret { s with registry }

/-- `device_register_at`, with its allocation. -/
def register_at (s : PciBoot) (device parent : Nat) : Outcome PciBoot Int :=
  match generic_tree_find s.registry.device_tree parent device_register_compare with
  | none => .hang s
  | some parent_node =>
    if parent_node = NULL then .done (-1) s
    else
      s.kmalloc_or_panic.andThen fun node s =>
        match device_register_at s.registry device parent node with
        | none => .hang s
        | some (ret, registry) => .done ret { s with registry }

end PciBoot

def pci_probe_device (s : PciBoot) (bus slot func : UInt8) : Outcome PciBoot Nat :=
  let (vendor_id, ports) := pci_config_read_word s.ports bus slot func PCI_VENDOR_ID
  if vendor_id = PCI_CONFIG_INVALID_VENDOR then .done NULL { s with ports }
  else
    let (device_id, ports) := pci_config_read_word ports bus slot func PCI_DEVICE_ID
    let (classcode, ports) := pci_config_read_byte ports bus slot func PCI_CLASS_CODE
    let (subclass, ports) := pci_config_read_byte ports bus slot func PCI_SUBCLASS
    let (prog_if, ports) := pci_config_read_byte ports bus slot func PCI_PROG_IF
    let (header_type, ports) := pci_config_read_byte ports bus slot func PCI_HEADER_TYPE
    (PciBoot.kmalloc_or_panic { s with ports }).andThen fun device s =>
      .done device { s with
        pci_devices := Function.update s.pci_devices device { s.pci_devices device with
          bus, slot, function := func, vendor_id, device_id, classcode, subclass, prog_if,
          header_type } }

/-- The body of the loops of `pci_init` for a function that was found, up to its message. The
text of the name is that of `pci_get_device_name`. -/
def pci_add_device (s : PciBoot) (pci_device slot_device : Nat) : Outcome PciBoot Nat :=
  let (device, s) := s.kmalloc
  -- the uuid is written before anything else
  if device = NULL then .fault s
  else
    s.kmalloc_or_panic.andThen fun name s =>
      let s := { s with
        devices := Function.update s.devices device
          ⟨⟨DEVICE_TYPE_UNKNOWN, DEVICE_BUS_TYPE_PCI⟩, name, pci_device⟩ }
      if slot_device = NULL then (s.register device).andThen fun _ s => .done device s
      else (s.register_at device slot_device).andThen fun _ s => .done slot_device s

/-- The loop over the functions of a slot. -/
def pci_func_loop (bus slot : UInt8) : Nat → Nat → Nat → PciBoot → Outcome PciBoot Unit
  | 0, _, _, s => .done () s
  | turns + 1, func, slot_device, s =>
    (pci_probe_device s bus slot (UInt8.ofNat func)).andThen fun pci_device s =>
      if pci_device = NULL then pci_func_loop bus slot turns (func + 1) slot_device s
      else
        (pci_add_device s pci_device slot_device).andThen fun slot_device s =>
          if func = 0 ∧
              (s.pci_devices pci_device).header_type &&& PIC_HEADER_TYPE_MULTIFUNCTION = 0 then
            .done () s
          else pci_func_loop bus slot turns (func + 1) slot_device s

def pci_slot_loop (bus : UInt8) : Nat → Nat → PciBoot → Outcome PciBoot Unit
  | 0, _, s => .done () s
  | turns + 1, slot, s =>
    (pci_func_loop bus (UInt8.ofNat slot) PCI_FUNCTIONS_PER_DEVICE 0 NULL s).andThen fun _ s =>
      pci_slot_loop bus turns (slot + 1) s

def pci_bus_loop : Nat → Nat → PciBoot → Outcome PciBoot Unit
  | 0, _, s => .done () s
  | turns + 1, bus, s =>
    (pci_slot_loop (UInt8.ofNat bus) PCI_DEVICES_PER_BUS 0 s).andThen fun _ s =>
      pci_bus_loop turns (bus + 1) s

def pci_init (s : PciBoot) : Outcome PciBoot Int :=
  (pci_bus_loop PCI_MAX_NUM_BUSES 0 s).andThen fun _ s => .done 0 s

/-! ## What there is to find -/

section

variable (space : PciFunction → UInt8 → UInt8)

def spaceWord (f : PciFunction) (offset : UInt8) : UInt16 :=
  UInt16.ofNat ((space f offset).toNat + 256 * (space f (offset + 1)).toNat)

/-- The header that the space holds for a function. -/
def headerAt (f : PciFunction) : pci_header where
  bus := f.bus
  slot := f.slot
  function := f.func
  vendor_id := spaceWord space f PCI_VENDOR_ID
  device_id := spaceWord space f PCI_DEVICE_ID
  classcode := space f PCI_CLASS_CODE
  subclass := space f PCI_SUBCLASS
  prog_if := space f PCI_PROG_IF
  header_type := space f PCI_HEADER_TYPE

def Present (f : PciFunction) : Prop :=
  spaceWord space f PCI_VENDOR_ID ≠ PCI_CONFIG_INVALID_VENDOR

instance (f : PciFunction) : Decidable (Present space f) := inferInstanceAs (Decidable (_ ≠ _))

def Multifunction (f : PciFunction) : Prop :=
  space f PCI_HEADER_TYPE &&& PIC_HEADER_TYPE_MULTIFUNCTION ≠ 0

instance (f : PciFunction) : Decidable (Multifunction space f) :=
  inferInstanceAs (Decidable (_ ≠ _))

/-- The functions of a slot, in order. -/
def functionsOf (bus slot : UInt8) : List PciFunction :=
  (List.range PCI_FUNCTIONS_PER_DEVICE).map fun func => ⟨bus, slot, UInt8.ofNat func⟩

/-- The functions of a slot that a scan comes to: function 0 alone when it is present without
the bit for more, and else all that are present. -/
def scannedFunctions (bus slot : UInt8) : List PciFunction :=
  if Present space ⟨bus, slot, 0⟩ ∧ ¬ Multifunction space ⟨bus, slot, 0⟩ then [⟨bus, slot, 0⟩]
  else (functionsOf bus slot).filter fun f => Present space f

/-- All slots, in the order of the scan. -/
def allSlots : List (UInt8 × UInt8) :=
  (List.range PCI_MAX_NUM_BUSES).flatMap fun bus =>
    (List.range PCI_DEVICES_PER_BUS).map fun slot => (UInt8.ofNat bus, UInt8.ofNat slot)

/-- The functions that are found, slot by slot. -/
def scannedSlots : List (List PciFunction) :=
  allSlots.map fun slot => scannedFunctions space slot.1 slot.2

end

/-! ## The trees of the slots -/

/-- The first of the nodes, over the others as its children. -/
def slotTree : List Nat → Forest Nat
  | [] => .nil
  | a :: l => .node a (l.foldr (fun b s => .node b .nil s) .nil) .nil

/-- The trees of slots, one behind the other. -/
def slotTrees (rows : List (List Nat)) : Forest Nat :=
  rows.foldr (fun row g => (slotTree row).append g) .nil

/-- The node is that of a PCI device with the header. -/
structure DeviceNode (s : PciBoot) (a : Nat) (header : pci_header) : Prop where
  type : (s.devices (s.registry.device_tree.nodes a).data).type = DEVICE_TYPE_UNKNOWN
  bus_type : (s.devices (s.registry.device_tree.nodes a).data).bus_type = DEVICE_BUS_TYPE_PCI
  header : (s.pci_devices (s.devices (s.registry.device_tree.nodes a).data).bus_data).topci_header =
    header

/-! ## The probe -/

theorem read_word_eq (p : PciPorts) {bus slot func offset : UInt8} (hslot : slot.toNat < 32)
    (hfunc : func.toNat < 8) (heven : offset.toNat % 2 = 0) :
    (pci_config_read_word p bus slot func offset).1 =
      spaceWord p.space ⟨bus, slot, func⟩ offset := by
  have hword := (readsAs_space p).word bus slot func offset hslot hfunc heven
  have h0 := (p.space ⟨bus, slot, func⟩ offset).toNat_lt
  have h1 := (p.space ⟨bus, slot, func⟩ (offset + 1)).toNat_lt
  apply UInt16.toNat_inj.mp
  unfold spaceWord
  rw [hword, UInt16.toNat_ofNat']
  omega

theorem read_byte_eq (p : PciPorts) {bus slot func : UInt8} (offset : UInt8)
    (hslot : slot.toNat < 32) (hfunc : func.toNat < 8) :
    (pci_config_read_byte p bus slot func offset).1 = p.space ⟨bus, slot, func⟩ offset :=
  (readsAs_space p).byte bus slot func offset hslot hfunc

theorem kmalloc_or_panic_eq {s : PciBoot} {p : Nat} {supply : List Nat}
    (h : s.supply = p :: supply) (hp : p ≠ NULL) :
    s.kmalloc_or_panic = .done p { s with supply } := by
  unfold PciBoot.kmalloc_or_panic PciBoot.kmalloc
  rw [h]
  simp only [hp, if_false]

/-- The scan keeps the bytes of the space and all records that it does not get from `kmalloc`. -/
structure Grows (s s' : PciBoot) : Prop where
  space : s'.ports.space = s.ports.space
  root : s'.registry.device_tree.root = s.registry.device_tree.root
  supply : s'.supply.Sublist s.supply
  kept : ∀ x, x ∉ s.supply → s'.devices x = s.devices x ∧ s'.pci_devices x = s.pci_devices x ∧
    (s'.registry.device_tree.nodes x).data = (s.registry.device_tree.nodes x).data

theorem Grows.refl (s : PciBoot) : Grows s s :=
  ⟨rfl, rfl, List.Sublist.refl _, fun _ _ => ⟨rfl, rfl, rfl⟩⟩

theorem Grows.trans {s t u : PciBoot} (h : Grows s t) (h' : Grows t u) : Grows s u := by
  refine ⟨h'.space.trans h.space, h'.root.trans h.root, h'.supply.trans h.supply, fun x hx => ?_⟩
  obtain ⟨h1, h2, h3⟩ := h.kept x hx
  obtain ⟨h1', h2', h3'⟩ := h'.kept x fun hx' => hx (h.supply.subset hx')
  exact ⟨h1'.trans h1, h2'.trans h2, h3'.trans h3⟩

section

variable {s : PciBoot} {bus slot func : UInt8}

/-- A function that is not there. -/
theorem probe_absent (hslot : slot.toNat < 32) (hfunc : func.toNat < 8)
    (habsent : ¬ Present s.ports.space ⟨bus, slot, func⟩) :
    ∃ ports, pci_probe_device s bus slot func = .done NULL { s with ports } ∧
      ports.space = s.ports.space := by
  have hvendor := @read_word_eq s.ports bus slot func PCI_VENDOR_ID hslot hfunc (by decide)
  have hinvalid := not_not.mp habsent
  unfold pci_probe_device
  simp only
  rw [if_pos (hvendor.trans hinvalid)]
  exact ⟨_, rfl, rfl⟩

/-- The record of a function that is there. -/
theorem probe_present (hslot : slot.toNat < 32) (hfunc : func.toNat < 8)
    (hpresent : Present s.ports.space ⟨bus, slot, func⟩) {device : Nat} {supply : List Nat}
    (hsupply : s.supply = device :: supply) (hdevice : device ≠ NULL) :
    ∃ s' d, pci_probe_device s bus slot func = .done device s' ∧ s'.supply = supply ∧
      s'.registry = s.registry ∧ s'.devices = s.devices ∧
      s'.pci_devices = Function.update s.pci_devices device d ∧
      d.topci_header = headerAt s.ports.space ⟨bus, slot, func⟩ ∧
      s'.ports.space = s.ports.space := by
  have hvendor := @read_word_eq s.ports bus slot func PCI_VENDOR_ID hslot hfunc (by decide)
  have hid := fun p : PciPorts =>
    @read_word_eq p bus slot func PCI_DEVICE_ID hslot hfunc (by decide)
  have hbyte := fun p offset => @read_byte_eq p bus slot func offset hslot hfunc
  have hkept := fun p => (readsAs_space p).kept bus slot func
  have hvalid : (pci_config_read_word s.ports bus slot func PCI_VENDOR_ID).1 ≠
      PCI_CONFIG_INVALID_VENDOR := by
    rw [hvendor]
    exact hpresent
  have hkmalloc : ∀ ports, PciBoot.kmalloc_or_panic { s with ports } =
      .done device { s with ports, supply } :=
    fun ports => @kmalloc_or_panic_eq { s with ports } device supply hsupply hdevice
  unfold pci_probe_device
  simp only
  rw [if_neg hvalid, hkmalloc, Outcome.done_andThen]
  refine ⟨_, _, rfl, rfl, rfl, rfl, rfl, ?_, ?_⟩
  · simp only [hvendor, hid, hbyte, hkept, headerAt]
  · simp only [hkept]

end

/-! ## The registration -/

/-- The blocks that `kmalloc` will return are new to the tree. -/
structure NewBlocks (s : PciBoot) (f : Forest Nat) : Prop where
  distinct : s.supply.Nodup
  address : ∀ p ∈ s.supply, p ≠ NULL ∧ p < 4294967296
  nodes : ∀ a ∈ f.preorder, a ∉ s.supply
  data : ∀ a ∈ f.preorder, (s.registry.device_tree.nodes a).data ∉ s.supply

/-- The node that a device goes under: the root for the first device of a slot, and else the
node of that first device. -/
def Parent (s : PciBoot) (f : Forest Nat) (slot_device parent : Nat) : Prop :=
  (slot_device = NULL ∧ parent = s.registry.device_tree.root) ∨
    slot_device ≠ NULL ∧ (s.registry.device_tree.nodes parent).data = slot_device ∧
      ∀ b ∈ f.preorder, (s.registry.device_tree.nodes b).data = slot_device → b = parent

/-- The search finds the only node of a device. -/
theorem find_only {t : TreeState} {f : Forest Nat} (h : TreeIs t f) {device a : Nat}
    (hdevice : device ≠ NULL) (ha : a ∈ f.preorder) (hdata : (t.nodes a).data = device)
    (honly : ∀ b ∈ f.preorder, (t.nodes b).data = device → b = a) :
    generic_tree_find t device device_register_compare = some a := by
  rw [h.find hdevice]
  cases hfind : f.preorder.find? fun b => device_register_compare (t.nodes b).data device with
  | none =>
    have hno := List.find?_eq_none.mp hfind a ha
    exact absurd (beq_iff_eq.mpr hdata) hno
  | some b =>
    have hcompare := List.find?_some hfind
    have hb := honly b (List.mem_of_find?_eq_some hfind) (beq_iff_eq.mp hcompare)
    rw [hb, Option.getD_some]

/-- A device that was found goes behind the last child of its parent. -/
theorem add_device {s : PciBoot} {f : Forest Nat} {slot_device parent device name node : Nat}
    {supply : List Nat} (h : TreeIs s.registry.device_tree f) (hfresh : NewBlocks s f)
    (hp : parent ∈ f.preorder) (hparent : Parent s f slot_device parent)
    (hsupply : s.supply = device :: name :: node :: supply) (pci_device : Nat) :
    ∃ s', pci_add_device s pci_device slot_device =
        .done (if slot_device = NULL then device else slot_device) s' ∧
      s'.supply = supply ∧ s'.ports = s.ports ∧ s'.pci_devices = s.pci_devices ∧
      s'.devices = Function.update s.devices device
        ⟨⟨DEVICE_TYPE_UNKNOWN, DEVICE_BUS_TYPE_PCI⟩, name, pci_device⟩ ∧
      s'.registry.device_tree.root = s.registry.device_tree.root ∧
      TreeIs s'.registry.device_tree (f.mapUnder parent (·.append (.node node .nil .nil))) ∧
      (s'.registry.device_tree.nodes node).data = device ∧
      ∀ a, a ≠ node → (s'.registry.device_tree.nodes a).data =
        (s.registry.device_tree.nodes a).data := by
  have hdevice : device ∈ s.supply := by simp [hsupply]
  have hname : name ∈ s.supply := by simp [hsupply]
  have hnode : node ∈ s.supply := by simp [hsupply]
  have hdevicenull := (hfresh.address device hdevice).1
  have hnamenull := (hfresh.address name hname).1
  obtain ⟨hnodenull, hnodelt⟩ := hfresh.address node hnode
  obtain ⟨nodes', hrun, htree, hdata, hold⟩ := @insert_leaf _ _ _ _ device h hp
    (fun hm => hfresh.nodes node hm hnode) hnodenull hnodelt
  -- The two registrations differ in the way to the parent only.
  have hblocks : ∀ s' : PciBoot, s'.supply = node :: supply →
      s'.kmalloc_or_panic = .done node { s' with supply } :=
    fun s' hs' => kmalloc_or_panic_eq hs' hnodenull
  have hkmalloc : s.kmalloc = (device, { s with supply := name :: node :: supply }) := by
    unfold PciBoot.kmalloc
    rw [hsupply]
  have hkmallocname : PciBoot.kmalloc_or_panic { s with supply := name :: node :: supply } =
      .done name { s with supply := node :: supply } := kmalloc_or_panic_eq rfl hnamenull
  refine ⟨{ s with
    registry := ⟨⟨nodes', s.registry.device_tree.root⟩, node :: s.registry.blocks⟩, supply,
    devices := Function.update s.devices device
      ⟨⟨DEVICE_TYPE_UNKNOWN, DEVICE_BUS_TYPE_PCI⟩, name, pci_device⟩ },
    ?_, rfl, rfl, rfl, rfl, rfl, htree, hdata, hold⟩
  unfold pci_add_device
  rw [hkmalloc]
  simp only [hdevicenull, if_false]
  rw [hkmallocname, Outcome.done_andThen]
  simp only
  rcases hparent with ⟨hslot, hroot⟩ | ⟨hslot, hpdata, honly⟩
  · rw [if_pos hslot, if_pos hslot]
    subst hroot
    unfold PciBoot.register
    rw [hblocks _ rfl, Outcome.done_andThen]
    unfold device_register
    simp only [hrun, Option.map_some, Outcome.done_andThen]
  · rw [if_neg hslot, if_neg hslot]
    have hpnull := (h.address parent hp).1
    have hfind := find_only h hslot hp hpdata honly
    unfold PciBoot.register_at
    simp only [hfind, hpnull, if_false]
    rw [hblocks _ rfl, Outcome.done_andThen]
    unfold device_register_at
    simp only [hfind, hpnull, hrun, Option.bind_some, if_false, Option.map_some,
      Outcome.done_andThen]

/-! ## The rows -/

/-- The tree with the trees of slots behind the children of its root. -/
def withRows (root : Nat) (f : Forest Nat) (rows : List (List Nat)) : Forest Nat :=
  f.mapUnder root (·.append (slotTrees rows))

theorem slotTrees_concat (rows : List (List Nat)) (row : List Nat) :
    slotTrees (rows ++ [row]) = (slotTrees rows).append (slotTree row) := by
  induction rows with
  | nil => exact Forest.append_nil _
  | cons first rows ih =>
    have hcons : ∀ l, slotTrees (first :: l) = (slotTree first).append (slotTrees l) := fun _ => rfl
    rw [List.cons_append, hcons, hcons, ih, Forest.append_assoc]

theorem slotTrees_skip (rows : List (List Nat)) : slotTrees (rows ++ [[]]) = slotTrees rows := by
  rw [slotTrees_concat]
  exact Forest.append_nil _

theorem slotTree_add (a : Nat) (l : List Nat) (node : Nat) :
    (slotTree (a :: l)).mapUnder a (·.append (.node node .nil .nil)) =
      slotTree (a :: (l ++ [node])) := by
  have hlist : ∀ l : List Nat,
      (l.foldr (fun b s => Forest.node b .nil s) .nil).append (.node node .nil .nil) =
        (l ++ [node]).foldr (fun b s => Forest.node b .nil s) .nil := by
    intro l
    induction l with
    | nil => rfl
    | cons b l ih => rw [List.foldr_cons, Forest.append, ih, List.cons_append, List.foldr_cons]
  rw [slotTree, Forest.mapUnder, if_pos rfl, hlist, slotTree]

section rows

variable {root : Nat} {f : Forest Nat} {rows : List (List Nat)}

theorem perm_withRows (hroot : root ∈ f.preorder) (hnodup : f.preorder.Nodup) :
    (withRows root f rows).preorder.Perm (f.preorder ++ (slotTrees rows).preorder) := by
  obtain ⟨c, hunder⟩ := Forest.under_of_mem hroot
  exact preorder_insert hunder hnodup _

/-- The first device of a slot. -/
theorem withRows_first (node : Nat) :
    (withRows root f (rows ++ [[]])).mapUnder root (·.append (.node node .nil .nil)) =
      withRows root f (rows ++ [[node]]) := by
  unfold withRows
  rw [Forest.mapUnder_mapUnder, slotTrees_skip, slotTrees_concat]
  simp only [Forest.append_assoc]
  rfl

/-- Another device of the slot. -/
theorem withRows_next {a : Nat} {l : List Nat} (hroot : root ∈ f.preorder)
    (hf : f.preorder.Nodup) (hnodup : (withRows root f (rows ++ [a :: l])).preorder.Nodup)
    (node : Nat) :
    (withRows root f (rows ++ [a :: l])).mapUnder a (·.append (.node node .nil .nil)) =
      withRows root f (rows ++ [a :: (l ++ [node])]) := by
  have hall := (perm_withRows hroot hf).nodup_iff.mp hnodup
  rw [slotTrees_concat, Forest.preorder_append] at hall
  have ha : a ∈ (slotTree (a :: l)).preorder := List.mem_cons_self
  obtain ⟨-, hrest, hapart⟩ := List.nodup_append.mp hall
  have haf : a ∉ f.preorder := fun hm =>
    hapart a hm a (List.mem_append_right _ ha) rfl
  have harows : a ∉ (slotTrees rows).preorder := fun hm =>
    (List.nodup_append.mp hrest).2.2 a hm a ha rfl
  unfold withRows
  rw [Forest.mapUnder_new _ haf, slotTrees_concat, Forest.mapUnder_append _ harows, slotTree_add,
    ← slotTrees_concat]

end rows

/-! ## One function -/

/-- The node of a PCI device, whose records are not among the blocks that `kmalloc` will return. -/
structure DeviceKept (s : PciBoot) (a : Nat) (header : pci_header) : Prop
    extends DeviceNode s a header where
  node_kept : a ∉ s.supply
  device_kept : (s.registry.device_tree.nodes a).data ∉ s.supply
  record_kept : (s.devices (s.registry.device_tree.nodes a).data).bus_data ∉ s.supply

theorem DeviceKept.grows {s s' : PciBoot} {a : Nat} {header : pci_header}
    (h : DeviceKept s a header) (hgrows : Grows s s') : DeviceKept s' a header := by
  obtain ⟨⟨htype, hbus, hheader⟩, hnode, hdevice, hrecord⟩ := h
  have hdata := (hgrows.kept a hnode).2.2
  have hdevices := (hgrows.kept _ hdevice).1
  have hrecords := (hgrows.kept _ hrecord).2.1
  have hold : ∀ x, x ∉ s.supply → x ∉ s'.supply := fun x hx hx' => hx (hgrows.supply.subset hx')
  refine ⟨⟨?_, ?_, ?_⟩, hold a hnode, ?_, ?_⟩
  · rw [hdata, hdevices]
    exact htype
  · rw [hdata, hdevices]
    exact hbus
  · rw [hdata, hdevices, hrecords]
    exact hheader
  · rw [hdata]
    exact hold _ hdevice
  · rw [hdata, hdevices]
    exact hold _ hrecord

/-- The device that the scan of a slot holds: the one of the first node of its row. -/
def SlotDevice (s : PciBoot) (g : Forest Nat) : List Nat → Nat → Prop
  | [], slot_device => slot_device = NULL
  | a :: _, slot_device =>
    slot_device ≠ NULL ∧ (s.registry.device_tree.nodes a).data = slot_device ∧
      ∀ b ∈ g.preorder, (s.registry.device_tree.nodes b).data = slot_device → b = a

/-- The scan in the middle of a slot: the rows of the slots before it, and the row of the
functions that were found in it. -/
structure ScanAt (start : PciBoot) (f : Forest Nat) (rows : List (List Nat))
    (found : List (List PciFunction)) (row : List Nat) (now : List PciFunction) (s : PciBoot) :
    Prop where
  grows : Grows start s
  tree : TreeIs s.registry.device_tree (withRows start.registry.device_tree.root f (rows ++ [row]))
  fresh : NewBlocks s (withRows start.registry.device_tree.root f (rows ++ [row]))
  before : List.Forall₂ (List.Forall₂ fun a g => DeviceKept s a (headerAt start.ports.space g)) rows
    found
  placed : List.Forall₂ (fun a g => DeviceKept s a (headerAt start.ports.space g)) row now

/-- What the code does for a function that is there: from four blocks, a record at `p`, a device
with a name, and a node of the device. -/
structure Adds (s s' : PciBoot) (p device name node : Nat) (d : pci_device) : Prop where
  blocks : s.supply = p :: device :: name :: node :: s'.supply
  space : s'.ports.space = s.ports.space
  root : s'.registry.device_tree.root = s.registry.device_tree.root
  records : s'.pci_devices = Function.update s.pci_devices p d
  devices : s'.devices = Function.update s.devices device
    ⟨⟨DEVICE_TYPE_UNKNOWN, DEVICE_BUS_TYPE_PCI⟩, name, p⟩
  data : (s'.registry.device_tree.nodes node).data = device
  kept : ∀ a, a ≠ node →
    (s'.registry.device_tree.nodes a).data = (s.registry.device_tree.nodes a).data

section

variable {s s' : PciBoot} {g g' : Forest Nat} {p device name node : Nat} {d : pci_device}

theorem Adds.grows (h : Adds s s' p device name node d) : Grows s s' := by
  refine ⟨h.space, h.root, ?_, fun x hx => ?_⟩
  · rw [h.blocks]
    exact ((((List.Sublist.refl _).cons node).cons name).cons device).cons p
  · simp only [h.blocks, List.mem_cons, not_or] at hx
    obtain ⟨hxp, hxdevice, -, hxnode, -⟩ := hx
    rw [h.devices, h.records, Function.update_of_ne hxdevice, Function.update_of_ne hxp]
    exact ⟨rfl, rfl, h.kept x hxnode⟩

/-- The blocks that were used are not returned again. -/
theorem Adds.used (h : Adds s s' p device name node d) (hdistinct : s.supply.Nodup) :
    s'.supply.Nodup ∧ p ∉ s'.supply ∧ device ∉ s'.supply ∧ node ∉ s'.supply := by
  rw [h.blocks] at hdistinct
  simp only [List.nodup_cons, List.mem_cons, not_or] at hdistinct
  obtain ⟨⟨-, -, -, hp⟩, ⟨-, -, hdevice⟩, -, hnode, hnodup⟩ := hdistinct
  exact ⟨hnodup, hp, hdevice, hnode⟩

theorem Adds.fresh (h : Adds s s' p device name node d) (hfresh : NewBlocks s g)
    (hnodes : ∀ a ∈ g'.preorder, (a ∈ g.preorder ∧ a ≠ node) ∨ a = node) : NewBlocks s' g' := by
  obtain ⟨hnodup, -, hdevice, hnode⟩ := h.used hfresh.distinct
  have hsub := h.grows.supply.subset
  refine ⟨hnodup, fun x hx => hfresh.address x (hsub hx), fun a ha => ?_, fun a ha => ?_⟩
  · rcases hnodes a ha with ⟨ha, -⟩ | rfl
    · exact fun hm => hfresh.nodes a ha (hsub hm)
    · exact hnode
  · rcases hnodes a ha with ⟨ha, hne⟩ | rfl
    · rw [h.kept a hne]
      exact fun hm => hfresh.data a ha (hsub hm)
    · rw [h.data]
      exact hdevice

theorem Adds.placed (h : Adds s s' p device name node d) (hdistinct : s.supply.Nodup) :
    DeviceKept s' node d.topci_header := by
  obtain ⟨-, hp, hdevice, hnode⟩ := h.used hdistinct
  refine ⟨⟨?_, ?_, ?_⟩, hnode, ?_, ?_⟩
  all_goals simp only [h.data, h.devices, h.records, Function.update_self]
  · exact hdevice
  · exact hp

/-- The first device of a slot stays the one that the scan of the slot holds. -/
theorem Adds.slot_device (h : Adds s s' p device name node d) (hfresh : NewBlocks s g)
    (hnodes : ∀ a ∈ g'.preorder, (a ∈ g.preorder ∧ a ≠ node) ∨ a = node) {row : List Nat}
    (hrow : ∀ a ∈ row, a ∈ g.preorder) {slot_device : Nat}
    (hslot : SlotDevice s g row slot_device) :
    SlotDevice s' g' (row ++ [node]) (if slot_device = NULL then device else slot_device) := by
  have hdevice : device ∈ s.supply := by simp [h.blocks]
  have hnode : node ∈ s.supply := by simp [h.blocks]
  cases row with
  | nil =>
    have hnone : slot_device = NULL := hslot
    rw [if_pos hnone]
    refine ⟨(hfresh.address device hdevice).1, h.data, fun b hb hdata => ?_⟩
    rcases hnodes b hb with ⟨hb, hne⟩ | hb
    · rw [h.kept b hne] at hdata
      exact absurd hdevice (hdata ▸ hfresh.data b hb)
    · exact hb
  | cons a l =>
    obtain ⟨hne, hdata, honly⟩ := hslot
    have ha := hrow a List.mem_cons_self
    have hanode : a ≠ node := fun he => hfresh.nodes a ha (he ▸ hnode)
    rw [if_neg hne]
    refine ⟨hne, (h.kept a hanode).trans hdata, fun b hb hbdata => ?_⟩
    rcases hnodes b hb with ⟨hb, hbnode⟩ | rfl
    · exact honly b hb ((h.kept b hbnode).symm.trans hbdata)
    · rw [h.data] at hbdata
      exact absurd hdevice (hbdata ▸ hdata ▸ hfresh.data a ha)

end

section

variable {start s : PciBoot} {f : Forest Nat} {rows : List (List Nat)}
  {found : List (List PciFunction)} {row : List Nat} {now : List PciFunction}
  {bus slot func : UInt8} {slot_device : Nat}

/-- The tree is the one with the next device, behind the last child of its parent. -/
theorem withRows_add {root : Nat} (hroot : root ∈ f.preorder) (hf : f.preorder.Nodup)
    (hnodup : (withRows root f (rows ++ [row])).preorder.Nodup) (node : Nat) :
    (withRows root f (rows ++ [row])).mapUnder (row.headD root)
        (·.append (.node node .nil .nil)) =
      withRows root f (rows ++ [row ++ [node]]) := by
  cases row with
  | nil => exact withRows_first node
  | cons a l => exact withRows_next hroot hf hnodup node

theorem slotTree_preorder (row : List Nat) : (slotTree row).preorder = row := by
  have hlist : ∀ l : List Nat,
      (l.foldr (fun b s => Forest.node b .nil s) .nil).preorder = l := by
    intro l
    induction l with
    | nil => rfl
    | cons b l ih => rw [List.foldr_cons, Forest.preorder, ih, Forest.preorder, List.nil_append]
  cases row with
  | nil => rfl
  | cons a l =>
    rw [slotTree, Forest.preorder, hlist]
    simp [Forest.preorder]

theorem row_mem_withRows {root : Nat} (hroot : root ∈ f.preorder) (hf : f.preorder.Nodup) :
    ∀ a ∈ row, a ∈ (withRows root f (rows ++ [row])).preorder := by
  intro a ha
  apply (perm_withRows hroot hf).symm.subset
  rw [slotTrees_concat, Forest.preorder_append, slotTree_preorder]
  exact List.mem_append_right _ (List.mem_append_right _ ha)

theorem head_mem_withRows {root : Nat} (hroot : root ∈ f.preorder) (hf : f.preorder.Nodup) :
    row.headD root ∈ (withRows root f (rows ++ [row])).preorder := by
  cases row with
  | nil => exact (perm_withRows hroot hf).symm.subset (List.mem_append_left _ hroot)
  | cons a l => exact row_mem_withRows hroot hf a List.mem_cons_self

/-- A function that is there gets a device, under the root or under the device of its slot. -/
theorem scan_found (h : ScanAt start f rows found row now s)
    (hroot : start.registry.device_tree.root ∈ f.preorder) (hf : f.preorder.Nodup)
    (hslotdevice : SlotDevice s (withRows start.registry.device_tree.root f (rows ++ [row])) row
      slot_device)
    (hslot : slot.toNat < 32) (hfunc : func.toNat < 8)
    (hpresent : Present start.ports.space ⟨bus, slot, func⟩) (hsupply : 4 ≤ s.supply.length) :
    ∃ pci_device s₁ s' slot_device' node,
      pci_probe_device s bus slot func = .done pci_device s₁ ∧ pci_device ≠ NULL ∧
      pci_add_device s₁ pci_device slot_device = .done slot_device' s' ∧
      (s'.pci_devices pci_device).header_type =
        start.ports.space ⟨bus, slot, func⟩ PCI_HEADER_TYPE ∧
      ScanAt start f rows found (row ++ [node]) (now ++ [⟨bus, slot, func⟩]) s' ∧
      SlotDevice s' (withRows start.registry.device_tree.root f (rows ++ [row ++ [node]]))
        (row ++ [node]) slot_device' ∧
      s.supply.length = s'.supply.length + 4 := by
  obtain ⟨hgrows, htree, hfresh, hbefore, hplaced⟩ := h
  obtain ⟨p, device, name, node, supply, hs⟩ : ∃ p device name node supply,
      s.supply = p :: device :: name :: node :: supply := by
    match hlist : s.supply with
    | [] | [_] | [_, _] | [_, _, _] => simp [hlist] at hsupply
    | p :: device :: name :: node :: supply => exact ⟨p, device, name, node, supply, rfl⟩
  have hpnull := (hfresh.address p (by simp [hs])).1
  have hnode : node ∈ s.supply := by simp [hs]
  rw [← hgrows.space] at hpresent
  -- The record of the function.
  obtain ⟨s₁, d, hprobe, hsupply₁, hregistry₁, hdevices₁, hrecords₁, hheader, hspace₁⟩ :=
    probe_present hslot hfunc hpresent hs hpnull
  rw [hgrows.space] at hheader
  have hsub : ∀ x ∈ s₁.supply, x ∈ s.supply := fun x hx => by
    rw [hs]
    rw [hsupply₁] at hx
    exact List.mem_cons_of_mem _ hx
  have htree₁ := htree
  rw [← hregistry₁] at htree₁
  have hfresh₁ : NewBlocks s₁ (withRows start.registry.device_tree.root f (rows ++ [row])) := by
    refine ⟨?_, fun x hx => hfresh.address x (hsub x hx),
      fun a ha hm => hfresh.nodes a ha (hsub a hm), fun a ha hm => ?_⟩
    · rw [hsupply₁]
      exact (hs ▸ hfresh.distinct).of_cons
    · rw [hregistry₁] at hm
      exact hfresh.data a ha (hsub _ hm)
  -- Its device, under the first node of the row or under the root.
  have hparentmem := @head_mem_withRows f rows row _ hroot hf
  have hparent : Parent s₁ (withRows start.registry.device_tree.root f (rows ++ [row])) slot_device
      (row.headD start.registry.device_tree.root) := by
    unfold Parent
    rw [hregistry₁]
    cases row with
    | nil => exact Or.inl ⟨hslotdevice, hgrows.root.symm⟩
    | cons a l => exact Or.inr hslotdevice
  obtain ⟨s', hadd, hsupply', hports', hrecords', hdevices', hroot', htree', hdata, hold⟩ :=
    add_device htree₁ hfresh₁ hparentmem hparent hsupply₁ p
  have hadds : Adds s s' p device name node d := by
    refine ⟨?_, ?_, ?_, ?_, ?_, hdata, fun a ha => ?_⟩
    · rw [hs, hsupply']
    · rw [hports', hspace₁]
    · rw [hroot', hregistry₁]
    · rw [hrecords', hrecords₁]
    · rw [hdevices', hdevices₁]
    · rw [hold a ha, hregistry₁]
  obtain ⟨c, hunder⟩ := Forest.under_of_mem hparentmem
  have hperm := preorder_insert hunder htree.nodup (.node node .nil .nil)
  rw [withRows_add hroot hf htree.nodup] at htree' hperm
  have hnodes : ∀ a ∈ (withRows start.registry.device_tree.root f
        (rows ++ [row ++ [node]])).preorder,
      (a ∈ (withRows start.registry.device_tree.root f (rows ++ [row])).preorder ∧ a ≠ node) ∨
        a = node := by
    intro a ha
    have hcases := hperm.subset ha
    simp only [Forest.preorder, List.append_nil, List.mem_append, List.mem_singleton] at hcases
    rcases hcases with ha | ha
    · exact Or.inl ⟨ha, fun he => hfresh.nodes a ha (he ▸ hnode)⟩
    · exact Or.inr ha
  have hrow : ∀ a ∈ row, a ∈ (withRows start.registry.device_tree.root f
      (rows ++ [row])).preorder := row_mem_withRows hroot hf
  refine ⟨p, s₁, s', _, node, hprobe, hpnull, hadd, ?_, ⟨hgrows.trans hadds.grows, htree',
    hadds.fresh hfresh hnodes, ?_, ?_⟩, hadds.slot_device hfresh hnodes hrow hslotdevice, ?_⟩
  · rw [hadds.records, Function.update_self]
    exact congrArg pci_header.header_type hheader
  · exact hbefore.imp fun _ _ hrow => hrow.imp fun _ _ hnode => hnode.grows hadds.grows
  · have hnew := hadds.placed hfresh.distinct
    rw [hheader] at hnew
    exact List.rel_append (hplaced.imp fun _ _ hnode => hnode.grows hadds.grows) (.cons hnew .nil)
  · rw [hadds.blocks]
    rfl

theorem ScanAt.ports (h : ScanAt start f rows found row now s) {ports : PciPorts}
    (hspace : ports.space = s.ports.space) :
    ScanAt start f rows found row now { s with ports } := by
  have hgrows : Grows s { s with ports } :=
    ⟨hspace, rfl, List.Sublist.refl _, fun _ _ => ⟨rfl, rfl, rfl⟩⟩
  obtain ⟨hdistinct, haddress, hnodes, hdata⟩ := h.fresh
  exact ⟨h.grows.trans hgrows, h.tree, ⟨hdistinct, haddress, hnodes, hdata⟩,
    h.before.imp fun _ _ hrow => hrow.imp fun _ _ hnode => hnode.grows hgrows,
    h.placed.imp fun _ _ hnode => hnode.grows hgrows⟩

/-- The next slot. -/
theorem ScanAt.next (h : ScanAt start f rows found row now s) :
    ScanAt start f (rows ++ [row]) (found ++ [now]) [] [] s := by
  have hsame : withRows start.registry.device_tree.root f (rows ++ [row] ++ [[]]) =
      withRows start.registry.device_tree.root f (rows ++ [row]) := by
    unfold withRows
    rw [slotTrees_skip]
  refine ⟨h.grows, ?_, ?_, List.rel_append h.before (List.Forall₂.cons h.placed .nil), .nil⟩
  · rw [hsame]
    exact h.tree
  · rw [hsame]
    exact h.fresh

end

/-! ## The loops -/

section

variable {start : PciBoot} {f : Forest Nat} {bus : UInt8}

/-- The functions that the loop over a slot finds from one on. -/
def scanFrom (space : PciFunction → UInt8 → UInt8) (bus slot : UInt8) :
    Nat → Nat → List PciFunction
  | 0, _ => []
  | turns + 1, func =>
    if Present space ⟨bus, slot, UInt8.ofNat func⟩ then
      if func = 0 ∧ ¬ Multifunction space ⟨bus, slot, UInt8.ofNat func⟩ then
        [⟨bus, slot, UInt8.ofNat func⟩]
      else ⟨bus, slot, UInt8.ofNat func⟩ :: scanFrom space bus slot turns (func + 1)
    else scanFrom space bus slot turns (func + 1)

theorem scanFrom_later (space : PciFunction → UInt8 → UInt8) (bus slot : UInt8) (turns func : Nat)
    (hfunc : 0 < func) : scanFrom space bus slot turns func =
      ((List.range' func turns).map fun k => (⟨bus, slot, UInt8.ofNat k⟩ : PciFunction)).filter
        fun g => Present space g := by
  induction turns generalizing func with
  | zero => rfl
  | succ turns ih =>
    have hnot : ¬ (func = 0 ∧ ¬ Multifunction space ⟨bus, slot, UInt8.ofNat func⟩) :=
      fun h => absurd h.1 (by omega)
    rw [scanFrom, if_neg hnot, List.range'_succ, List.map_cons, List.filter_cons,
      ih (func + 1) (by omega)]
    simp only [decide_eq_true_eq]

/-- The loop over a slot finds the functions that a scan comes to. -/
theorem scanFrom_eq (space : PciFunction → UInt8 → UInt8) (bus slot : UInt8) :
    scanFrom space bus slot PCI_FUNCTIONS_PER_DEVICE 0 = scannedFunctions space bus slot := by
  have hall : functionsOf bus slot = ⟨bus, slot, 0⟩ ::
      (List.range' 1 7).map fun k => (⟨bus, slot, UInt8.ofNat k⟩ : PciFunction) := rfl
  have hlater := scanFrom_later space bus slot 7 1 (by decide)
  unfold PCI_FUNCTIONS_PER_DEVICE scannedFunctions
  rw [scanFrom, hlater, hall, List.filter_cons]
  have hzero : UInt8.ofNat 0 = 0 := rfl
  simp only [hzero, true_and, decide_eq_true_eq]
  by_cases hpresent : Present space ⟨bus, slot, 0⟩
  · simp only [hpresent, true_and, if_true]
  · simp only [hpresent, false_and, if_false]

theorem func_loop_scans {rows : List (List Nat)} {found : List (List PciFunction)} {slot : UInt8}
    (hroot : start.registry.device_tree.root ∈ f.preorder) (hf : f.preorder.Nodup)
    (hslot : slot.toNat < 32) (turns : Nat) : ∀ func row now slot_device s rest,
      func + turns ≤ 8 → ScanAt start f rows found row now s →
      SlotDevice s (withRows start.registry.device_tree.root f (rows ++ [row])) row slot_device →
      4 * (scanFrom start.ports.space bus slot turns func).length + rest ≤ s.supply.length →
      ∃ row' s', pci_func_loop bus slot turns func slot_device s = .done () s' ∧
        ScanAt start f rows found row' (now ++ scanFrom start.ports.space bus slot turns func) s' ∧
        rest ≤ s'.supply.length := by
  induction turns with
  | zero =>
    intro func row now slot_device s rest _ hscan _ hsupply
    refine ⟨row, s, rfl, ?_, ?_⟩
    · rw [scanFrom, List.append_nil]
      exact hscan
    · rw [scanFrom] at hsupply
      simpa using hsupply
  | succ turns ih =>
    intro func row now slot_device s rest hturns hscan hslotdevice hsupply
    have hfunc : (UInt8.ofNat func).toNat < 8 := by
      rw [UInt8.toNat_ofNat']
      omega
    rw [scanFrom] at hsupply ⊢
    rw [pci_func_loop]
    by_cases hpresent : Present start.ports.space ⟨bus, slot, UInt8.ofNat func⟩
    · rw [if_pos hpresent] at hsupply ⊢
      have hfour : 4 ≤ s.supply.length := by
        split at hsupply
        · simp only [List.length_singleton] at hsupply
          omega
        · simp only [List.length_cons] at hsupply
          omega
      obtain ⟨pci_device, s₁, s', slot_device', node, hprobe, hne, hadd, hheader, hscan',
        hslotdevice', hlength⟩ := scan_found hscan hroot hf hslotdevice hslot hfunc hpresent hfour
      rw [hprobe, Outcome.done_andThen, if_neg hne, hadd, Outcome.done_andThen, hheader]
      by_cases hlast : func = 0 ∧
          start.ports.space ⟨bus, slot, UInt8.ofNat func⟩ PCI_HEADER_TYPE &&&
            PIC_HEADER_TYPE_MULTIFUNCTION = 0
      · have hsingle : func = 0 ∧
            ¬ Multifunction start.ports.space ⟨bus, slot, UInt8.ofNat func⟩ :=
          ⟨hlast.1, not_not.mpr hlast.2⟩
        rw [if_pos hsingle] at hsupply ⊢
        rw [if_pos hlast]
        refine ⟨row ++ [node], s', rfl, hscan', ?_⟩
        simp only [List.length_singleton] at hsupply
        omega
      · have hmore : ¬ (func = 0 ∧
            ¬ Multifunction start.ports.space ⟨bus, slot, UInt8.ofNat func⟩) :=
          fun h => hlast ⟨h.1, not_not.mp h.2⟩
        rw [if_neg hmore] at hsupply ⊢
        rw [if_neg hlast, List.append_cons]
        apply ih (func + 1) _ _ _ s' rest (by omega) hscan' hslotdevice'
        simp only [List.length_cons] at hsupply
        omega
    · rw [if_neg hpresent] at hsupply ⊢
      have habsent : ¬ Present s.ports.space ⟨bus, slot, UInt8.ofNat func⟩ := by
        rw [hscan.grows.space]
        exact hpresent
      obtain ⟨ports, hprobe, hspace⟩ := probe_absent hslot hfunc habsent
      rw [hprobe, Outcome.done_andThen, if_pos rfl]
      exact ih (func + 1) row now slot_device _ rest (by omega) (hscan.ports hspace) hslotdevice
        hsupply

theorem slot_loop_scans (hroot : start.registry.device_tree.root ∈ f.preorder)
    (hf : f.preorder.Nodup) (turns : Nat) : ∀ slot rows found s rest, slot + turns ≤ 32 →
      ScanAt start f rows found [] [] s →
      4 * (((List.range' slot turns).map fun k =>
        scannedFunctions start.ports.space bus (UInt8.ofNat k)).flatten).length + rest ≤
          s.supply.length →
      ∃ rows' s', pci_slot_loop bus turns slot s = .done () s' ∧
        ScanAt start f rows' (found ++ (List.range' slot turns).map fun k =>
          scannedFunctions start.ports.space bus (UInt8.ofNat k)) [] [] s' ∧
        rest ≤ s'.supply.length := by
  induction turns with
  | zero =>
    intro slot rows found s rest _ hscan hsupply
    refine ⟨rows, s, rfl, ?_, ?_⟩
    · rw [List.range'_zero, List.map_nil, List.append_nil]
      exact hscan
    · simpa using hsupply
  | succ turns ih =>
    intro slot rows found s rest hturns hscan hsupply
    have hslot : (UInt8.ofNat slot).toNat < 32 := by
      rw [UInt8.toNat_ofNat']
      omega
    rw [List.range'_succ, List.map_cons] at hsupply ⊢
    rw [List.flatten_cons, List.length_append, Nat.mul_add, Nat.add_assoc] at hsupply
    obtain ⟨row, s₁, hloop, hscan₁, hrest⟩ := func_loop_scans hroot hf hslot
      PCI_FUNCTIONS_PER_DEVICE 0 [] [] NULL s _ (by decide) hscan rfl
      (by rw [scanFrom_eq]; exact hsupply)
    rw [scanFrom_eq, List.nil_append] at hscan₁
    obtain ⟨rows', s', hloop', hscan', hrest'⟩ := ih (slot + 1) _ _ s₁ rest (by omega)
      hscan₁.next hrest
    refine ⟨rows', s', ?_, ?_, hrest'⟩
    · rw [pci_slot_loop, hloop, Outcome.done_andThen]
      exact hloop'
    · rw [List.append_cons]
      exact hscan'

theorem bus_loop_scans (hroot : start.registry.device_tree.root ∈ f.preorder)
    (hf : f.preorder.Nodup) (turns : Nat) : ∀ bus rows found s,
      ScanAt start f rows found [] [] s →
      4 * (((List.range' bus turns).flatMap fun b => (List.range' 0 PCI_DEVICES_PER_BUS).map
        fun k => scannedFunctions start.ports.space (UInt8.ofNat b) (UInt8.ofNat k)).flatten).length
          ≤ s.supply.length →
      ∃ rows' s', pci_bus_loop turns bus s = .done () s' ∧
        ScanAt start f rows' (found ++ (List.range' bus turns).flatMap fun b =>
          (List.range' 0 PCI_DEVICES_PER_BUS).map fun k =>
            scannedFunctions start.ports.space (UInt8.ofNat b) (UInt8.ofNat k)) [] [] s' := by
  induction turns with
  | zero =>
    intro bus rows found s hscan _
    refine ⟨rows, s, rfl, ?_⟩
    rw [List.range'_zero, List.flatMap_nil, List.append_nil]
    exact hscan
  | succ turns ih =>
    intro bus rows found s hscan hsupply
    rw [List.range'_succ, List.flatMap_cons] at hsupply ⊢
    rw [List.flatten_append, List.length_append, Nat.mul_add] at hsupply
    obtain ⟨rows₁, s₁, hloop, hscan₁, hrest⟩ := slot_loop_scans hroot hf PCI_DEVICES_PER_BUS 0 rows
      found s _ (by decide) hscan hsupply
    obtain ⟨rows', s', hloop', hscan'⟩ := ih (bus + 1) rows₁ _ s₁ hscan₁ hrest
    refine ⟨rows', s', ?_, ?_⟩
    · rw [pci_bus_loop, hloop, Outcome.done_andThen]
      exact hloop'
    · rw [← List.append_assoc]
      exact hscan'

/-- The slots of the scan, bus by bus. -/
theorem scannedSlots_eq (space : PciFunction → UInt8 → UInt8) :
    scannedSlots space = (List.range' 0 PCI_MAX_NUM_BUSES).flatMap fun b =>
      (List.range' 0 PCI_DEVICES_PER_BUS).map fun k =>
        scannedFunctions space (UInt8.ofNat b) (UInt8.ofNat k) := by
  unfold scannedSlots allSlots
  rw [List.map_flatMap, List.range_eq_range', List.range_eq_range']
  simp only [List.map_map, Function.comp_def]

end

/-! ## The devices of the tree -/

/-- After the scan the tree is the one before it, with the trees of the slots behind the children
of the root: a device for each function that a scan comes to, with its header, and over the
devices of a slot the one of its lowest function. The rest of the kernel and the space are as
they were. -/
theorem the_scan_registers_what_is_there {s : PciBoot} {f : Forest Nat}
    (h : TreeIs s.registry.device_tree f) (hroot : s.registry.device_tree.root ≠ NULL)
    (hfresh : NewBlocks s f)
    (hsupply : 4 * (scannedSlots s.ports.space).flatten.length ≤ s.supply.length) :
    ∃ s' rows, pci_init s = .done 0 s' ∧
      TreeIs s'.registry.device_tree
        (f.mapUnder s.registry.device_tree.root (·.append (slotTrees rows))) ∧
      List.Forall₂ (List.Forall₂ fun a g => DeviceNode s' a (headerAt s.ports.space g)) rows
        (scannedSlots s.ports.space) ∧
      Grows s s' := by
  have hmem : s.registry.device_tree.root ∈ f.preorder := by
    rcases h.cases with ⟨hnull, -⟩ | ⟨c, hf, -, -⟩
    · exact absurd hnull hroot
    · rw [hf]
      exact List.mem_cons_self
  have hsame : withRows s.registry.device_tree.root f ([] ++ [[]]) = f := by
    have hnil : ∀ g : Forest Nat, g.mapUnder s.registry.device_tree.root (·.append .nil) = g := by
      intro g
      simp only [Forest.append_nil]
      exact Forest.mapUnder_id g
    unfold withRows
    rw [slotTrees_skip]
    exact hnil f
  have hstart : ScanAt s f [] [] [] [] s := by
    refine ⟨Grows.refl s, ?_, ?_, .nil, .nil⟩
    · rw [hsame]
      exact h
    · rw [hsame]
      exact hfresh
  rw [scannedSlots_eq] at hsupply ⊢
  obtain ⟨rows, s', hloop, hscan⟩ := bus_loop_scans hmem h.nodup PCI_MAX_NUM_BUSES 0 [] [] s hstart
    hsupply
  rw [List.nil_append] at hscan
  refine ⟨s', rows, ?_, ?_, ?_, hscan.grows⟩
  · rw [pci_init, hloop, Outcome.done_andThen]
  · have htree := hscan.tree
    unfold withRows at htree
    rw [slotTrees_skip] at htree
    exact htree
  · exact hscan.before.imp fun _ _ hrow => hrow.imp fun _ _ hnode => hnode.toDeviceNode

/-- No scan finds more functions than there are places for them. -/
theorem scanned_length_le (space : PciFunction → UInt8 → UInt8) :
    (scannedSlots space).flatten.length ≤ 65536 := by
  have hrow : ∀ slot : UInt8 × UInt8, (scannedFunctions space slot.1 slot.2).length ≤ 8 := by
    intro slot
    unfold scannedFunctions
    split
    · simp
    · exact List.length_filter_le _ _
  have hall : ∀ l : List (UInt8 × UInt8),
      (l.map fun slot => scannedFunctions space slot.1 slot.2).flatten.length ≤ 8 * l.length := by
    intro l
    induction l with
    | nil => simp
    | cons slot l ih =>
      have hslot := hrow slot
      rw [List.map_cons, List.flatten_cons, List.length_append, List.length_cons]
      omega
  have hslots : allSlots.length = 8192 := by
    unfold allSlots
    simp only [List.length_flatMap, List.length_map, List.length_range, List.map_const',
      List.sum_replicate_nat]
    rfl
  have hbound := hall allSlots
  rw [hslots] at hbound
  exact hbound

/-- A slot whose function 0 is not there, with functions 2 and 5. -/
def gapSpace (f : PciFunction) (offset : UInt8) : UInt8 :=
  if f.bus = 0 ∧ f.slot = 3 ∧ (f.func = 2 ∨ f.func = 5) then f.func + offset else 0xFF

/-- The kernel after `device_init`, with memory for every device that there can be. -/
def gapBoot : PciBoot where
  ports := ⟨0, gapSpace, fun _ _ _ value => value⟩
  registry := device_init (fun _ => ⟨NULL, NULL, NULL, NULL⟩) 0x1000 0x10
  pci_devices _ := ⟨⟨⟨0, 0, 0, 0, 0⟩, 0, 0, 0, 0⟩, fun _ => ⟨0, 0, 0, 0⟩⟩
  devices _ := ⟨⟨0, 0⟩, NULL, NULL⟩
  supply := List.range' 0x100000 262144

theorem the_functions_behind_a_gap_are_registered :
    ∃ s' rows, pci_init gapBoot = .done 0 s' ∧
      TreeIs s'.registry.device_tree (.node 0x10 (slotTrees rows) .nil) ∧
      List.Forall₂ (List.Forall₂ fun a g => DeviceNode s' a (headerAt gapSpace g)) rows
        (scannedSlots gapSpace) := by
  have hstart := @start_is (fun _ => ⟨NULL, NULL, NULL, NULL⟩) 0x1000 0x10 (by decide) (by decide)
  have hroot : gapBoot.registry.device_tree.root ≠ NULL := by
    show (0x10 : Nat) ≠ 0
    decide
  have haddress : ∀ p ∈ gapBoot.supply, 0x100000 ≤ p ∧ p < 0x140000 := by
    intro p hp
    obtain ⟨i, hi, rfl⟩ := List.mem_range'.mp hp
    omega
  have hfresh : NewBlocks gapBoot (.node 0x10 .nil .nil) := by
    refine ⟨List.nodup_range', fun p hp => ?_, fun a ha hp => ?_, fun a ha hp => ?_⟩
    · have hbounds := haddress p hp
      exact ⟨by unfold NULL; omega, by omega⟩
    · rw [List.mem_singleton.mp ha] at hp
      exact absurd (haddress _ hp).1 (by decide)
    · rw [List.mem_singleton.mp ha] at hp
      exact absurd (haddress _ hp).1 (by decide)
  have hlength : 4 * (scannedSlots gapBoot.ports.space).flatten.length ≤ gapBoot.supply.length := by
    have hbound := scanned_length_le gapBoot.ports.space
    have hsupply : gapBoot.supply.length = 262144 := List.length_range'
    omega
  obtain ⟨s', rows, hrun, htree, hrows, -⟩ :=
    the_scan_registers_what_is_there hstart.tree hroot hfresh hlength
  have hspace : gapBoot.ports.space = gapSpace := rfl
  rw [hspace] at hrows
  exact ⟨s', rows, hrun, htree, hrows⟩

end sakana_os
