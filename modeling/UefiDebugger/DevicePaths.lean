import UefiDebugger.HostFile

/-!
# Device paths

`EfiDevicePath` reads the nodes of a device path, which stand one behind the other in memory, and
sorts them into instances.  A node of type `0x7F` ends an instance, and the one of subtype `0xFF`
the whole path.  The instances are kept in a list of the class, which holds references: an instance
that has been put there still grows when nodes are appended to it.  The node that separates two
instances is the first one of the second.
-/
namespace UefiDebugger.Host
open RecordChain

/-- An entry of an instance. -/
structure PathNode where
  Name : String
  NodeType : Nat
  SubType : Nat
  Length : Nat
  node : CData
  extra : Option (List UInt8)
  deriving DecidableEq

/-- The instances that have been made, and `EfiDevicePath.DevicePath`, which refers to some of
them. -/
structure DevicePaths where
  lists : List (List PathNode)
  DevicePath : List Nat

def EFI_DEVICE_PATH : CType := ⟨"EFI_DEVICE_PATH", 4⟩

def VENDOR_DEVICE_PATH : CType := ⟨"VENDOR_DEVICE_PATH", 20⟩

def DNS_DEVICE_PATH : CType := ⟨"DNS_DEVICE_PATH", 21⟩

/-- `device_path_dict`, with the size of each structure. -/
def devicePathDict : List ((Nat × Nat) × CType) :=
  [((1, 1), ⟨"PCI_DEVICE_PATH", 6⟩),
   ((1, 2), ⟨"PCCARD_DEVICE_PATH", 5⟩),
   ((1, 3), ⟨"MEMMAP_DEVICE_PATH", 20⟩),
   ((1, 4), VENDOR_DEVICE_PATH),
   ((1, 5), ⟨"CONTROLLER_DEVICE_PATH", 8⟩),
   ((1, 6), ⟨"BMC_DEVICE_PATH", 13⟩),
   ((2, 1), ⟨"ACPI_HID_DEVICE_PATH", 12⟩),
   ((2, 2), ⟨"ACPI_EXTENDED_HID_DEVICE_PATH", 16⟩),
   ((2, 3), ⟨"ACPI_ADR_DEVICE_PATH", 8⟩),
   ((2, 4), ⟨"ACPI_NVDIMM_DEVICE_PATH", 8⟩),
   ((3, 1), ⟨"ATAPI_DEVICE_PATH", 8⟩),
   ((3, 2), ⟨"SCSI_DEVICE_PATH", 8⟩),
   ((3, 3), ⟨"FIBRECHANNEL_DEVICE_PATH", 24⟩),
   ((3, 4), ⟨"F1394_DEVICE_PATH", 16⟩),
   ((3, 5), ⟨"USB_DEVICE_PATH", 6⟩),
   ((3, 6), ⟨"I2O_DEVICE_PATH", 8⟩),
   ((3, 9), ⟨"INFINIBAND_DEVICE_PATH", 48⟩),
   ((3, 10), VENDOR_DEVICE_PATH),
   ((3, 11), ⟨"MAC_ADDR_DEVICE_PATH", 37⟩),
   ((3, 12), ⟨"IPv4_DEVICE_PATH", 27⟩),
   ((3, 13), ⟨"IPv6_DEVICE_PATH", 60⟩),
   ((3, 14), ⟨"UART_DEVICE_PATH", 19⟩),
   ((3, 15), ⟨"USB_CLASS_DEVICE_PATH", 11⟩),
   ((3, 16), ⟨"USB_WWID_DEVICE_PATH", 10⟩),
   ((3, 17), ⟨"DEVICE_LOGICAL_UNIT_DEVICE_PATH", 5⟩),
   ((3, 18), ⟨"SATA_DEVICE_PATH", 10⟩),
   ((3, 19), ⟨"ISCSI_DEVICE_PATH", 18⟩),
   ((3, 20), ⟨"VLAN_DEVICE_PATH", 6⟩),
   ((3, 21), ⟨"FIBRECHANNELEX_DEVICE_PATH", 22⟩),
   ((3, 22), ⟨"SASEX_DEVICE_PATH", 24⟩),
   ((3, 23), ⟨"NVME_NAMESPACE_DEVICE_PATH", 16⟩),
   ((3, 24), DNS_DEVICE_PATH),
   ((3, 25), ⟨"UFS_DEVICE_PATH", 6⟩),
   ((3, 26), ⟨"SD_DEVICE_PATH", 5⟩),
   ((3, 27), ⟨"BLUETOOTH_DEVICE_PATH", 10⟩),
   ((3, 28), ⟨"WIFI_DEVICE_PATH", 36⟩),
   ((3, 29), ⟨"EMMC_DEVICE_PATH", 5⟩),
   ((3, 30), ⟨"BLUETOOTH_LE_DEVICE_PATH", 7⟩),
   ((3, 31), DNS_DEVICE_PATH),
   ((3, 32), ⟨"NVDIMM_NAMESPACE_DEVICE_PATH", 20⟩),
   ((3, 33), ⟨"REST_SERVICE_DEVICE_PATH", 6⟩),
   ((3, 34), ⟨"REST_VENDOR_SERVICE_DEVICE_PATH", 22⟩),
   ((4, 1), ⟨"HARDDRIVE_DEVICE_PATH", 42⟩),
   ((4, 2), ⟨"CDROM_DEVICE_PATH", 24⟩),
   ((4, 3), VENDOR_DEVICE_PATH),
   ((4, 4), EFI_DEVICE_PATH),
   ((4, 5), ⟨"MEDIA_PROTOCOL_DEVICE_PATH", 20⟩),
   ((4, 6), ⟨"MEDIA_FW_VOL_FILEPATH_DEVICE_PATH", 20⟩),
   ((4, 7), ⟨"MEDIA_FW_VOL_DEVICE_PATH", 20⟩),
   ((4, 8), ⟨"MEDIA_RELATIVE_OFFSET_RANGE_DEVICE_PATH", 24⟩),
   ((4, 9), ⟨"MEDIA_RAM_DISK_DEVICE_PATH", 38⟩),
   ((5, 1), ⟨"BBS_BBS_DEVICE_PATH", 8⟩)]

/-- `guid_override_dict`; a GUID is the bytes it has in memory. -/
def guidOverrideDict : List (List UInt8 × CType) :=
  [([0x9D, 0x9A, 0x49, 0x37, 0x2F, 0x54, 0x89, 0x4C, 0xA0, 0x26, 0x35, 0xDA, 0x14, 0x20,
      0x94, 0xE4], ⟨"UART_FLOW_CONTROL_DEVICE_PATH", 24⟩),
   ([0xB4, 0xDD, 0x87, 0xD4, 0x8B, 0x00, 0xD9, 0x11, 0xAF, 0xDC, 0x00, 0x10, 0x83, 0xFF,
      0xCA, 0x4D], ⟨"SAS_DEVICE_PATH", 44⟩)]

/-- `device_path_dict.get((Type, SubType), EFI_DEVICE_PATH)` -/
def pathStructure (NodeType SubType : Nat) : CType :=
  getType devicePathDict (NodeType, SubType) EFI_DEVICE_PATH

namespace DevicePaths

/-- `self.DevicePath.append(instance)` -/
def showList (d : DevicePaths) (inst : Nat) : DevicePaths :=
  { d with DevicePath := d.DevicePath ++ [inst] }

/-- `instance = []` -/
def newList (d : DevicePaths) : DevicePaths := { d with lists := d.lists ++ [[]] }

/-- `instance.append(node)` -/
def addNode (d : DevicePaths) (inst : Nat) (node : PathNode) : DevicePaths :=
  { d with lists := d.lists.modify inst (· ++ [node]) }

/-- What `str` prints: the lists that `DevicePath` refers to. -/
def view (d : DevicePaths) : List (List PathNode) := d.DevicePath.map fun r => (d.lists[r]?).getD []

end DevicePaths

namespace EfiDevicePath

/-- A node of type `0x7F` shows the instance; behind one of subtype `0x01` a new instance begins. -/
def endNode (NodeType SubType inst : Nat) : Py DevicePaths Nat := do
  if NodeType = 0x7F then
    modify fun s => { s with parsed := s.parsed.showList inst }
    if SubType = 0x01 then
      let s ← get
      set { s with parsed := s.parsed.newList }
      return s.parsed.lists.length
    else return inst
  else return inst

/-- The node's structure, or the one that goes with the vendor's GUID.  Of the names of structures,
`VENDOR_DEVICE_PATH` is the only one that has it in it. -/
def structuredNode (NodeType SubType Length ptr : Nat) :
    Py DevicePaths (CData × Option (List UInt8)) := do
  let node ← ctypeReadEx (pathStructure NodeType SubType) ptr (some Length)
  if node.1.type.name = "VENDOR_DEVICE_PATH" then
    match guidOverrideDict.lookup ((node.1.bytes.drop 4).take 16) with
    | none => return node
    | some guid_type => ctypeReadEx guid_type ptr (some Length)
  else return node

/-- One turn of the loop: where the next node is and the instance it belongs to, unless the loop is
left. -/
def readNode (ptr inst : Nat) : Py DevicePaths (Option (Nat × Nat)) := do
  let hdr ← ctypeReadEx EFI_DEVICE_PATH ptr none
  let NodeType := hdr.1.uint8 0
  let SubType := hdr.1.uint8 1
  let Length := hdr.1.uint16 2
  if Length < EFI_DEVICE_PATH.size then return none
  else
    let inst ← endNode NodeType SubType inst
    if NodeType = 0x7F ∧ SubType = 0xFF then return none
    else
      let node ← structuredNode NodeType SubType Length ptr
      modify fun s =>
        { s with parsed := s.parsed.addNode inst ⟨node.1.type.name, NodeType, SubType, Length,
          node.1, node.2⟩ }
      return some (ptr + Length, inst)

def readNodes : (count ptr inst : Nat) → Py DevicePaths Unit
  | 0, _, _ => return ()
  | count + 1, ptr, inst => do
      match ← readNode ptr inst with
      | none => return ()
      | some next => readNodes count next.1 next.2

/-- `EfiDevicePath.__init__` -/
def init (ptr : Option Nat) : Py DevicePaths Unit :=
  match ptr with
  | none => return ()
  | some ptr => exceptValueError do
      let s ← get
      set { s with parsed := s.parsed.newList }
      readNodes 64 ptr s.parsed.lists.length

end EfiDevicePath

/-! ## What is found -/

/-- The structure of a node, or the exception that reading it raises. -/
def bodyOf (memory : Nat → Option UInt8) (NodeType SubType Length p : Nat) :
    Except PyException (CData × Option (List UInt8)) :=
  match structureAt memory (pathStructure NodeType SubType) p (some Length) with
  | .error e => .error e
  | .ok node =>
      if node.1.type.name = "VENDOR_DEVICE_PATH" then
        match guidOverrideDict.lookup ((node.1.bytes.drop 4).take 16) with
        | none => .ok node
        | some guid_type => structureAt memory guid_type p (some Length)
      else .ok node

/-- The type, the subtype and the length that a node at `p` begins with. -/
def pathHeader (memory : Nat → Option UInt8) (p : Nat) : Except PyException (Nat × Nat × Nat) :=
  (structureAt memory EFI_DEVICE_PATH p none).map fun hdr =>
  (hdr.1.uint8 0, hdr.1.uint8 1, hdr.1.uint16 2)

/-- What a turn of the loop finds at `p`: a node, the end of the path, or an exception. -/
def nodeOf (memory : Nat → Option UInt8) (p : Nat) : Except PyException (Option PathNode) :=
  match pathHeader memory p with
  | .error e => .error e
  | .ok (NodeType, SubType, Length) =>
      if Length < EFI_DEVICE_PATH.size then .ok none
      else if NodeType = 0x7F ∧ SubType = 0xFF then .ok none
      else
        match bodyOf memory NodeType SubType Length p with
        | .error e => .error e
        | .ok node => .ok (some ⟨node.1.type.name, NodeType, SubType, Length, node.1, node.2⟩)

/-- The node at `p`, and where the next one is. -/
def nodeAt (memory : Nat → Option UInt8) (p : Nat) : Option (PathNode × Nat) :=
  match nodeOf memory p with
  | .ok (some node) => some (node, p + node.Length)
  | _ => none

namespace DevicePaths

/-- The instance is shown at its end, and another one begins behind the node that separates them. -/
def ended (NodeType SubType : Nat) (d : DevicePaths × Nat) : DevicePaths × Nat :=
  if NodeType = 0x7F then
    if SubType = 0x01 then ((d.1.showList d.2).newList, d.1.lists.length)
    else (d.1.showList d.2, d.2)
  else d

/-- What the header at `p` does to the instances. -/
def headed (memory : Nat → Option UInt8) (p : Nat) (d : DevicePaths × Nat) : DevicePaths × Nat :=
  match pathHeader memory p with
  | .error _ => d
  | .ok (NodeType, SubType, Length) =>
    if Length < EFI_DEVICE_PATH.size then d else ended NodeType SubType d

/-- A node is put in its instance. -/
def take (d : DevicePaths × Nat) (node : PathNode) : DevicePaths × Nat :=
  let d := ended node.NodeType node.SubType d
  (d.1.addNode d.2 node, d.2)

end DevicePaths

section Reading
variable {memory : Nat → Option UInt8} {p q inst : Nat} {s : Session DevicePaths} {node : PathNode}
open DevicePaths

theorem found_nodeAt (h : nodeOf memory p = .ok (some node)) :
    Found (nodeAt memory) p node (p + node.Length) := by
  rw [Found, nodeAt, h]

theorem nodeOf_of_found (h : Found (nodeAt memory) p node q) :
    nodeOf memory p = .ok (some node) ∧ q = p + node.Length := by
  rw [Found, nodeAt] at h
  split at h
  · next node' hof =>
    obtain ⟨rfl, rfl⟩ := Prod.mk.inj (Option.some.inj h)
    exact ⟨hof, rfl⟩
  · cases h

theorem structuredNode_eq (NodeType SubType Length : Nat) (hp : p ≠ 0) :
    EfiDevicePath.structuredNode NodeType SubType Length p s =
      (bodyOf s.memory NodeType SubType Length p, s.at p) := by
  have hnode := ctypeReadEx_eq (s := s) (pathStructure NodeType SubType) (some Length) hp
  rw [EfiDevicePath.structuredNode, bodyOf]
  cases hfound : structureAt s.memory (pathStructure NodeType SubType) p (some Length) with
  | error x =>
    rw [hfound] at hnode
    exact run_bind_error hnode
  | ok node =>
    rw [hfound] at hnode
    rw [run_bind_ok hnode]
    dsimp only
    split
    · cases guidOverrideDict.lookup ((node.1.bytes.drop 4).take 16) with
      | none => rfl
      | some guid_type => exact ctypeReadEx_eq guid_type (some Length) hp
    · rfl

theorem endNode_eq (NodeType SubType : Nat) : EfiDevicePath.endNode NodeType SubType inst s =
    (.ok (ended NodeType SubType (s.parsed, inst)).2,
      { s with parsed := (ended NodeType SubType (s.parsed, inst)).1 }) := by
  rw [EfiDevicePath.endNode, ended]
  split
  · split <;> rfl
  · rfl

/-- A turn of the loop: the header first, then the node. -/
theorem readNode_eq (hp : p ≠ 0) : EfiDevicePath.readNode p inst s =
    ((nodeOf s.memory p).map
        (Option.map fun node => (p + node.Length, (headed s.memory p (s.parsed, inst)).2)),
      { s.at p with parsed :=
          let d := headed s.memory p (s.parsed, inst)
          (nodeOf s.memory p).toOption.join.elim d.1 (d.1.addNode d.2) }) := by
  have hheader := ctypeReadEx_eq (s := s) EFI_DEVICE_PATH none hp
  rw [EfiDevicePath.readNode, nodeOf, headed, pathHeader]
  cases hhdr : structureAt s.memory EFI_DEVICE_PATH p none with
  | error x =>
    rw [hhdr] at hheader
    exact run_bind_error hheader
  | ok hdr =>
    rw [hhdr] at hheader
    rw [run_bind_ok hheader]
    dsimp only [Except.map]
    by_cases hshort : hdr.1.uint16 2 < EFI_DEVICE_PATH.size
    · rw [if_pos hshort, if_pos hshort, if_pos hshort]
      rfl
    · -- The instance is shown before the node is read: it stays shown if that raises an exception.
      rw [if_neg hshort, if_neg hshort, if_neg hshort, run_bind_ok (endNode_eq ..)]
      by_cases hend : hdr.1.uint8 0 = 0x7F ∧ hdr.1.uint8 1 = 0xFF
      · rw [if_pos hend, if_pos hend]
        rfl
      · rw [if_neg hend, if_neg hend]
        have hnode := structuredNode_eq (hdr.1.uint8 0) (hdr.1.uint8 1) (hdr.1.uint16 2) hp
          (s :=
            { s.at p with parsed := (ended (hdr.1.uint8 0) (hdr.1.uint8 1) (s.parsed, inst)).1 })
        cases hbody : bodyOf s.memory (hdr.1.uint8 0) (hdr.1.uint8 1) (hdr.1.uint16 2) p with
        | error x => exact run_bind_error (hnode.trans (congrArg (Prod.mk · _) hbody))
        | ok node => exact run_bind_ok (hnode.trans (congrArg (Prod.mk · _) hbody))

/-- How the reading ends where the nodes do. -/
def pathOutcome (memory : Nat → Option UInt8) : Option Nat → Except PyException Unit
  | none => .ok ()
  | some q => (nodeOf memory q).map fun _ => ()

/-- What has been gathered when the nodes have been walked over. -/
def gathered (memory : Nat → Option UInt8) (d : DevicePaths × Nat)
    (walked : List PathNode × Option Nat) : DevicePaths × Nat :=
  walked.2.elim (walked.1.foldl take d) fun q => headed memory q (walked.1.foldl take d)

/-- Where a node is found, its header has been seen. -/
theorem headed_of_found (h : nodeOf memory p = .ok (some node)) (d : DevicePaths × Nat) :
    headed memory p d = ended node.NodeType node.SubType d := by
  rw [nodeOf] at h
  rw [headed]
  cases hheader : pathHeader memory p with
  | error x =>
    rw [hheader] at h
    cases h
  | ok header =>
    obtain ⟨NodeType, SubType, Length⟩ := header
    rw [hheader] at h
    dsimp only at h ⊢
    split at h
    · cases h
    · next hlong =>
      rw [if_neg hlong]
      split at h
      · cases h
      · cases hbody : bodyOf memory NodeType SubType Length p with
        | error x =>
          rw [hbody] at h
          cases h
        | ok body =>
          rw [hbody] at h
          cases h
          rfl

/-- The loop gathers the nodes that it walks over. -/
theorem readNodes_eq (n : Nat) : ∀ (p inst : Nat) (s : Session DevicePaths), p ≠ 0 →
    (EfiDevicePath.readNodes n p inst s).1 = pathOutcome s.memory (walk (nodeAt s.memory) n p).2 ∧
      (EfiDevicePath.readNodes n p inst s).2.parsed =
        (gathered s.memory (s.parsed, inst) (walk (nodeAt s.memory) n p)).1 ∧
      (EfiDevicePath.readNodes n p inst s).2.memory = s.memory := by
  induction n with
  | zero => exact fun p inst s _ => ⟨rfl, rfl, rfl⟩
  | succ n ih =>
    intro p inst s hp
    have hturn : EfiDevicePath.readNode p inst s = _ := readNode_eq hp
    rw [EfiDevicePath.readNodes]
    cases hof : nodeOf s.memory p with
    | error x =>
      have hnone : nodeAt s.memory p = none := by rw [nodeAt, hof]
      rw [hof] at hturn
      rw [run_bind_error hturn, walk_none hnone, pathOutcome, hof]
      exact ⟨rfl, rfl, rfl⟩
    | ok found =>
      rw [hof] at hturn
      rw [run_bind_ok hturn]
      cases found with
      | none =>
        have hnone : nodeAt s.memory p = none := by rw [nodeAt, hof]
        rw [walk_none hnone, pathOutcome, hof]
        exact ⟨rfl, rfl, rfl⟩
      | some node =>
        rw [walk_some (found_nodeAt hof), gathered, List.foldl_cons, take, ← headed_of_found hof]
        exact ih (p + node.Length) _ _ (Nat.ne_of_gt (Nat.add_pos_left (Nat.pos_of_ne_zero hp) _))

end Reading

/-! ## Whatever is in memory -/

/-- The structure of a node with this GUID, if it is a vendor's. -/
def nodeStructure (NodeType SubType : Nat) (guid : List UInt8) : CType :=
  if (pathStructure NodeType SubType).name = "VENDOR_DEVICE_PATH" then
    getType guidOverrideDict guid (pathStructure NodeType SubType)
  else pathStructure NodeType SubType

/-- The entry says what stands at `p`: a node with its header, the structure that goes with its type
or its GUID, and the bytes behind that, which together are as many as its length says. -/
structure PathNode.StandsAt (memory : Nat → Option UInt8) (p : Nat) (e : PathNode) : Prop where
  header : pathHeader memory p = .ok (e.NodeType, e.SubType, e.Length)
  long_enough : 4 ≤ e.Length
  goes_on : ¬ (e.NodeType = 0x7F ∧ e.SubType = 0xFF)
  type : e.node.type = nodeStructure e.NodeType e.SubType ((e.node.bytes.drop 4).take 16)
  name : e.Name = e.node.type.name
  whole : e.node.bytes.length = e.node.type.size
  lies : Lies memory p (e.node.bytes ++ e.extra.getD [])
  length : e.node.type.size + (e.extra.getD []).length = e.Length

section Whatever
variable {memory : Nat → Option UInt8} {p q : Nat} {e : PathNode}

theorem size_of_vendor {NodeType SubType : Nat}
    (h : (pathStructure NodeType SubType).name = "VENDOR_DEVICE_PATH") :
    (pathStructure NodeType SubType).size = 20 :=
  getType_of_forall (P := fun t => t.name = "VENDOR_DEVICE_PATH" → t.size = 20) (by decide)
  (by decide) _ h

/-- The GUID that chose the structure is the one in the structure that was chosen. -/
theorem lies_of_bodyOf {NodeType SubType Length : Nat} {node : CData} {extra : Option (List UInt8)}
    (h : bodyOf memory NodeType SubType Length p = .ok (node, extra)) :
    node.type = nodeStructure NodeType SubType ((node.bytes.drop 4).take 16) ∧
    node.bytes.length = node.type.size ∧
      Lies memory p (node.bytes ++ extra.getD []) ∧
      node.type.size + (extra.getD []).length = sizeRead node.type.size (some Length) := by
  rw [bodyOf] at h
  cases hfirst : structureAt memory (pathStructure NodeType SubType) p (some Length) with
  | error x =>
    rw [hfirst] at h
    cases h
  | ok first =>
    rw [hfirst] at h
    obtain ⟨htype, hwhole, hlies, hlength⟩ := lies_of_structureAt hfirst
    dsimp only at h
    split at h
    · next hvendor =>
      rw [htype] at hvendor
      cases hguid : guidOverrideDict.lookup ((first.1.bytes.drop 4).take 16) with
      | none =>
        rw [hguid] at h
        obtain rfl := Except.ok.inj h
        dsimp only at *
        refine ⟨?_, hwhole.trans (congrArg CType.size htype.symm), hlies, htype ▸ hlength⟩
        rw [htype, nodeStructure, if_pos hvendor, getType, hguid]
        rfl
      | some guid_type =>
        rw [hguid] at h
        obtain ⟨htype', hwhole', hlies', hlength'⟩ := lies_of_structureAt h
        -- Both structures start at `p`, and the vendor's is the shorter one: its GUID is in the
        -- other too.
        have hbig : 20 ≤ guid_type.size := by
          obtain ⟨before, after, hdict, -⟩ := List.lookup_eq_some_iff.mp hguid
          have hall : ∀ entry ∈ guidOverrideDict, 20 ≤ entry.2.size := by decide
          exact hall _ (hdict ▸ List.mem_append_right _ (List.mem_cons_self ..))
        have hfront : node.bytes.take 20 = first.1.bytes := by
          have hvendorLies := (lies_append.mp hlies).1
          refine Lies.eq ?_ hvendorLies ?_
          · have hnode := (lies_append.mp hlies').1
            rw [← List.take_append_drop 20 node.bytes] at hnode
            exact (lies_append.mp hnode).1
          · rw [List.length_take, hwhole', hwhole, size_of_vendor hvendor, Nat.min_eq_left hbig]
        have hsame : (first.1.bytes.drop 4).take 16 = (node.bytes.drop 4).take 16 := by
          rw [← hfront, List.drop_take, List.take_take]
          rfl
        refine ⟨?_, hwhole'.trans (congrArg CType.size htype'.symm), hlies', htype' ▸ hlength'⟩
        rw [htype', nodeStructure, if_pos hvendor, getType, ← hsame, hguid]
        rfl
    · next hother =>
      rw [htype] at hother
      obtain rfl := Except.ok.inj h
      refine ⟨?_, hwhole.trans (congrArg CType.size htype.symm), hlies, htype ▸ hlength⟩
      rw [nodeStructure, if_neg hother]
      exact htype

theorem standsAt_of_nodeOf (h : nodeOf memory p = .ok (some e)) : e.StandsAt memory p := by
  rw [nodeOf] at h
  cases hheader : pathHeader memory p with
  | error x =>
    rw [hheader] at h
    cases h
  | ok header =>
    obtain ⟨NodeType, SubType, Length⟩ := header
    rw [hheader] at h
    dsimp only at h
    split at h
    · cases h
    · next hlong =>
      split at h
      · cases h
      · next hgoes =>
        cases hbody : bodyOf memory NodeType SubType Length p with
        | error x =>
          rw [hbody] at h
          cases h
        | ok body =>
          rw [hbody] at h
          obtain rfl := Option.some.inj (Except.ok.inj h)
          obtain ⟨htype, hwhole, hlies, hlength⟩ := lies_of_bodyOf hbody
          have hgiven : Length ≠ 0 :=
            Nat.ne_of_gt (Nat.lt_of_lt_of_le (by decide) (Nat.le_of_not_lt hlong))
          rw [sizeRead, if_pos hgiven] at hlength
          exact ⟨hheader, Nat.le_of_not_lt hlong, hgoes, htype, rfl, hwhole, hlies, hlength⟩

end Whatever

/-! ## Over all commands -/

/-- The nodes stand one behind the other. -/
def PathStands (memory : Nat → Option UInt8) (path : List PathNode) : Prop :=
  ∃ p q, Chain (fun p e q => e.StandsAt memory p ∧ q = p + e.Length) p path q

/-- Every reference is to a list that there is. -/
def DevicePaths.Sound (d : DevicePaths) : Prop := ∀ r ∈ d.DevicePath, r < d.lists.length

/-- What the reading has made of `d₀` at `p`: whole instances, the one it is in, and references to
these. -/
structure Gathers (memory : Nat → Option UInt8) (d₀ : DevicePaths) (d : DevicePaths × Nat) (p : Nat)
    (whole : List (List PathNode)) (current : List PathNode) (refs : List Nat) : Prop where
  lists : d.1.lists = d₀.lists ++ whole ++ [current]
  inst : d.2 = (d₀.lists ++ whole).length
  shown : d.1.DevicePath = d₀.DevicePath ++ refs
  fresh : ∀ r ∈ refs, d₀.lists.length ≤ r ∧ r < d.1.lists.length
  stand : ∀ path ∈ whole, PathStands memory path
  here : ∃ a, Chain (fun p e q => e.StandsAt memory p ∧ q = p + e.Length) a current p

section Commands
open DevicePaths
variable {memory : Nat → Option UInt8} {d₀ : DevicePaths} {d : DevicePaths × Nat} {p q : Nat}
  {e : PathNode} {whole : List (List PathNode)} {current : List PathNode} {refs : List Nat}

theorem modify_last {α : Type} (as : List α) (a : α) (f : α → α) :
    (as ++ [a]).modify as.length f = as ++ [f a] := by
  induction as with
  | nil => rfl
  | cons b as ih =>
    rw [List.cons_append, List.length_cons, List.modify_succ_cons, ih, List.cons_append]

theorem Gathers.start (d₀ : DevicePaths) (p : Nat) :
    Gathers memory d₀ (d₀.newList, d₀.lists.length) p [] [] [] where
  lists := by rw [List.append_nil]; rfl
  inst := by rw [List.append_nil]
  shown := (List.append_nil _).symm
  fresh := fun _ h => absurd h List.not_mem_nil
  stand := fun _ h => absurd h List.not_mem_nil
  here := ⟨p, .nil p⟩

theorem Gathers.length (h : Gathers memory d₀ d p whole current refs) :
    d.1.lists.length = d.2 + 1 := by
  rw [h.lists, h.inst, List.length_append, List.length_singleton]

theorem Gathers.inst_ge (h : Gathers memory d₀ d p whole current refs) : d₀.lists.length ≤ d.2 := by
  rw [h.inst, List.length_append]
  exact Nat.le_add_right ..

/-- The instance is shown. -/
theorem Gathers.showList (h : Gathers memory d₀ d p whole current refs) :
    Gathers memory d₀ (d.1.showList d.2, d.2) p whole current (refs ++ [d.2]) where
  lists := h.lists
  inst := h.inst
  shown := (congrArg (· ++ [d.2]) h.shown).trans (List.append_assoc ..)
  fresh := fun r hr => (List.mem_append.mp hr).elim (h.fresh r) fun hr => by
    rw [List.mem_singleton.mp hr]
    exact ⟨h.inst_ge, h.length ▸ Nat.lt_succ_self _⟩
  stand := h.stand
  here := h.here

/-- Another one begins. -/
theorem Gathers.newList (h : Gathers memory d₀ d p whole current refs) :
    Gathers memory d₀ (d.1.newList, d.1.lists.length) p (whole ++ [current]) [] refs where
  lists := by rw [← List.append_assoc, ← h.lists]; rfl
  inst := by rw [← List.append_assoc, ← h.lists]
  shown := h.shown
  fresh := fun r hr => ⟨(h.fresh r hr).1, Nat.lt_of_lt_of_le (h.fresh r hr).2
    (by rw [DevicePaths.newList, List.length_append]; exact Nat.le_add_right ..)⟩
  stand := fun path hpath => (List.mem_append.mp hpath).elim (h.stand path) fun hpath => by
    rw [List.mem_singleton.mp hpath]
    obtain ⟨a, hchain⟩ := h.here
    exact ⟨a, p, hchain⟩
  here := ⟨p, .nil p⟩

/-- A node is appended to it. -/
theorem Gathers.addNode (h : Gathers memory d₀ d p whole current refs)
    (hstands : e.StandsAt memory p) :
    Gathers memory d₀ (d.1.addNode d.2 e, d.2) (p + e.Length) whole (current ++ [e]) refs where
  lists := by
    rw [DevicePaths.addNode, h.lists, h.inst]
    exact modify_last _ _ _
  inst := h.inst
  shown := h.shown
  fresh := by
    intro r hr
    rw [DevicePaths.addNode, List.length_modify]
    exact h.fresh r hr
  stand := h.stand
  here := by
    obtain ⟨a, hchain⟩ := h.here
    exact ⟨a, hchain.append (.cons ⟨hstands, rfl⟩ (.nil _))⟩

theorem Gathers.ended (h : Gathers memory d₀ d p whole current refs) (NodeType SubType : Nat) :
    ∃ whole current refs, Gathers memory d₀ (ended NodeType SubType d) p whole current refs := by
  rw [DevicePaths.ended]
  split
  · split
    · exact ⟨_, _, _, h.showList.newList⟩
    · exact ⟨_, _, _, h.showList⟩
  · exact ⟨_, _, _, h⟩

theorem Gathers.foldl {nodes : List PathNode}
    (hchain : Chain (fun p e q => e.StandsAt memory p ∧ q = p + e.Length) p nodes q) :
    ∀ {d whole current refs}, Gathers memory d₀ d p whole current refs →
      ∃ whole current refs, Gathers memory d₀ (nodes.foldl take d) q whole current refs := by
  induction hchain with
  | nil => exact fun h => ⟨_, _, _, h⟩
  | cons here rest ih =>
    intro d whole current refs h
    obtain ⟨whole, current, refs, hended⟩ := h.ended _ _
    obtain ⟨hstands, rfl⟩ := here
    exact ih (hended.addNode hstands)

theorem Gathers.headed (h : Gathers memory d₀ d p whole current refs) :
    ∃ whole current refs, Gathers memory d₀ (headed memory p d) p whole current refs := by
  rw [DevicePaths.headed]
  cases pathHeader memory p with
  | error x => exact ⟨_, _, _, h⟩
  | ok header =>
    dsimp only
    split
    · exact ⟨_, _, _, h⟩
    · exact h.ended _ _

/-- What was shown before is shown as it was, and what is shown besides stands in memory. -/
theorem Gathers.view (h : Gathers memory d₀ d p whole current refs) (hsound : d₀.Sound) :
    d.1.Sound ∧ ∃ new, d.1.view = d₀.view ++ new ∧ ∀ path ∈ new, PathStands memory path := by
  refine ⟨fun r hr => ?_, refs.map fun r => (d.1.lists[r]?).getD [], ?_, ?_⟩
  · rw [h.shown] at hr
    rcases List.mem_append.mp hr with hr | hr
    · exact Nat.lt_of_lt_of_le (hsound r hr) (h.length ▸ Nat.le_succ_of_le h.inst_ge)
    · exact (h.fresh r hr).2
  · rw [DevicePaths.view, h.shown, List.map_append, DevicePaths.view]
    congr 1
    refine List.map_congr_left fun r hr => ?_
    rw [h.lists, List.append_assoc, List.getElem?_append_left (hsound r hr)]
  · intro path hpath
    obtain ⟨r, hr, rfl⟩ := List.mem_map.mp hpath
    have hpaths : ∀ path ∈ whole ++ [current], PathStands memory path := fun path hpath =>
      (List.mem_append.mp hpath).elim (h.stand path) fun hpath => by
        obtain ⟨a, hchain⟩ := h.here
        rw [List.mem_singleton.mp hpath]
        exact ⟨a, p, hchain⟩
    rw [h.lists, List.append_assoc, List.getElem?_append_right (h.fresh r hr).1]
    cases hfound : (whole ++ [current])[r - d₀.lists.length]? with
    | none => exact ⟨0, 0, .nil 0⟩
    | some path => exact hpaths path (List.mem_of_getElem? hfound)

theorem init_eq (p : Nat) (s : Session DevicePaths) : EfiDevicePath.init (some p) s =
    (swallowed
      (EfiDevicePath.readNodes 64 p s.parsed.lists.length { s with parsed := s.parsed.newList }).1,
      (EfiDevicePath.readNodes 64 p s.parsed.lists.length
        { s with parsed := s.parsed.newList }).2) :=
  exceptValueError_eq _

/-- One command. -/
theorem init_gathers (hp : p ≠ 0) (s : Session DevicePaths) (hsound : s.parsed.Sound) :
    (EfiDevicePath.init (some p) s).2.memory = s.memory ∧
    (EfiDevicePath.init (some p) s).2.parsed.Sound ∧
      ∃ new, (EfiDevicePath.init (some p) s).2.parsed.view = s.parsed.view ++ new ∧
        ∀ path ∈ new, PathStands s.memory path := by
  obtain ⟨-, hparsed, hmemory⟩ :=
    readNodes_eq 64 p s.parsed.lists.length { s with parsed := s.parsed.newList } hp
  obtain ⟨q, hchain, hend⟩ := chain_walk (nodeAt s.memory) 64 p
  have hstands := hchain.imp fun p e q h =>
    (⟨standsAt_of_nodeOf (nodeOf_of_found h).1, (nodeOf_of_found h).2⟩ : e.StandsAt s.memory p ∧
      q = p + e.Length)
  obtain ⟨whole, current, refs, hwalked⟩ := Gathers.foldl hstands (Gathers.start s.parsed p)
  have hgathers : ∃ whole current refs, Gathers s.memory s.parsed (gathered s.memory
      (s.parsed.newList, s.parsed.lists.length) (walk (nodeAt s.memory) 64 p)) q whole current
      refs := by
    rw [gathered]
    rcases hend with ⟨-, hstop⟩ | ⟨-, hstop, -⟩
    · rw [hstop]
      exact ⟨whole, current, refs, hwalked⟩
    · rw [hstop]
      exact hwalked.headed
  obtain ⟨whole, current, refs, hgathers⟩ := hgathers
  rw [init_eq]
  refine ⟨hmemory, ?_⟩
  dsimp only
  rw [hparsed]
  exact hgathers.view hsound

/-- **Whatever is in memory and whatever paths are asked for at addresses other than 0**, what was
shown before is shown as it was, and the nodes of each instance that is shown besides stand one
behind the other in memory, each of them as its header says. -/
theorem paths_stand (ptrs : List Nat) : ∀ s : Session DevicePaths, (∀ p ∈ ptrs, p ≠ 0) →
    s.parsed.Sound → (ptrs.foldl (fun s p => (EfiDevicePath.init (some p) s).2) s).parsed.Sound ∧
      ∃ new, (ptrs.foldl (fun s p => (EfiDevicePath.init (some p) s).2) s).parsed.view =
      s.parsed.view ++ new ∧ ∀ path ∈ new, PathStands s.memory path := by
  induction ptrs with
  | nil => exact fun s _ hsound =>
      ⟨hsound, [], (List.append_nil _).symm, fun _ h => absurd h List.not_mem_nil⟩
  | cons p ptrs ih =>
    intro s hptrs hsound
    obtain ⟨hmemory, hnext, new, hview, hstand⟩ :=
      init_gathers (hptrs p (List.mem_cons_self ..)) s hsound
    obtain ⟨hend, more, hviews, hstands⟩ := ih (EfiDevicePath.init (some p) s).2
      (fun p' h => hptrs p' (List.mem_cons_of_mem _ h)) hnext
    refine ⟨hend, new ++ more, ?_, fun path hpath => ?_⟩
    · rw [← List.append_assoc, ← hview]
      exact hviews
    · rcases List.mem_append.mp hpath with hpath | hpath
      · exact hstand path hpath
      · exact hmemory ▸ hstands path hpath

/-- A path of two instances at `0x1000`, a PCI device and a USB port. -/
def pathSession : Session DevicePaths where
  file := ⟨fun i =>
    if i < 0x1000 then none
    else ([1, 1, 6, 0, 0, 31, 0x7F, 1, 4, 0,
      3, 5, 6, 0, 2, 1, 0x7F, 0xFF, 4, 0] : List UInt8)[i - 0x1000]?, 0⟩
  parsed := ⟨[], []⟩

theorem paths_stand_twice :
    ([0x1000, 0x100A].foldl (fun s p => (EfiDevicePath.init (some p) s).2)
      pathSession).parsed.Sound ∧
      ∃ new,
      ([0x1000, 0x100A].foldl (fun s p => (EfiDevicePath.init (some p) s).2)
        pathSession).parsed.view = pathSession.parsed.view ++ new ∧ ∀ path ∈ new,
        PathStands pathSession.memory path :=
  paths_stand [0x1000, 0x100A] pathSession (by decide) fun _ h => absurd h List.not_mem_nil

end Commands
end UefiDebugger.Host
