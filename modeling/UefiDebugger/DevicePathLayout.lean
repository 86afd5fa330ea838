import UefiDebugger.DevicePaths

/-!
# A device path that the firmware laid out

A path of several instances in memory: the nodes of each one behind the other, a node of type `0x7F`
and subtype `0x01` between two instances, and the end of the path behind the last.  `EfiDevicePath`
shows the instances whose end it comes to within its sixty-four turns, and the node between two
instances in the second of them.
-/
namespace UefiDebugger.Host
open RecordChain DevicePaths

/-- A node that is no shorter than its structure and does not end the path. -/
structure UefiNode where
  NodeType : Nat
  SubType : Nat
  body : List UInt8
  type_byte : NodeType < 256
  subtype_byte : SubType < 256
  goes_on : ¬ (NodeType = 0x7F ∧ SubType = 0xFF)
  length_fits : 4 + body.length < 65536
  first : (pathStructure NodeType SubType).size ≤ 4 + body.length
  whole : (nodeStructure NodeType SubType (body.take 16)).size ≤ 4 + body.length

namespace UefiNode

def Length (node : UefiNode) : Nat := 4 + node.body.length

/-- What `EFI_DEVICE_PATH` holds of it. -/
def header (node : UefiNode) : List UInt8 :=
  StoredWords.bytes 1 node.NodeType ++ StoredWords.bytes 1 node.SubType ++
  StoredWords.bytes 2 node.Length

def bytes (node : UefiNode) : List UInt8 := node.header ++ node.body

/-- The entry for it. -/
def entry (node : UefiNode) : PathNode :=
  let type := nodeStructure node.NodeType node.SubType (node.body.take 16)
  ⟨type.name, node.NodeType, node.SubType, node.Length, ⟨type, node.bytes.take type.size⟩,
    if node.bytes.drop type.size = [] then none else some (node.bytes.drop type.size)⟩

variable (node : UefiNode)

theorem length_header : node.header.length = 4 := by
  rw [header, List.length_append, List.length_append, StoredWords.length_bytes,
    StoredWords.length_bytes, StoredWords.length_bytes]

theorem length_bytes :
    node.bytes.length = node.Length := by rw [bytes, List.length_append, length_header, Length]

theorem uint8_type (type : CType) : CData.uint8 ⟨type, node.header⟩ 0 = node.NodeType := by
  have htake : node.header.take 1 = StoredWords.bytes 1 node.NodeType := by
    rw [header, List.append_assoc, List.take_left' (StoredWords.length_bytes ..)]
  rw [CData.uint8, List.drop_zero, htake, StoredWords.value_bytes, Nat.pow_one,
    Nat.mod_eq_of_lt node.type_byte]

theorem uint8_subtype (type : CType) : CData.uint8 ⟨type, node.header⟩ 1 = node.SubType := by
  have htake : (node.header.drop 1).take 1 = StoredWords.bytes 1 node.SubType := by
    rw [header, List.append_assoc, List.drop_left' (StoredWords.length_bytes ..),
      List.take_left' (StoredWords.length_bytes ..)]
  rw [CData.uint8, htake, StoredWords.value_bytes, Nat.pow_one, Nat.mod_eq_of_lt node.subtype_byte]

theorem uint16_length (type : CType) : CData.uint16 ⟨type, node.header⟩ 2 = node.Length := by
  have hfront : (StoredWords.bytes 1 node.NodeType ++ StoredWords.bytes 1 node.SubType).length =
      2 := by
    rw [List.length_append, StoredWords.length_bytes, StoredWords.length_bytes]
  have htake : (node.header.drop 2).take 2 = StoredWords.bytes 2 node.Length := by
    rw [header, List.drop_left' hfront,
      List.take_of_length_le (Nat.le_of_eq (StoredWords.length_bytes ..))]
  have hfits : node.Length < 256 ^ 2 := node.length_fits
  rw [CData.uint16, htake, StoredWords.value_bytes, Nat.mod_eq_of_lt hfits]

end UefiNode

section Nodes
variable {memory : Nat → Option UInt8} {p : Nat} (node : UefiNode)

theorem pathHeader_of_lies (h : Lies memory p node.bytes) :
    pathHeader memory p = .ok (node.NodeType, node.SubType, node.Length) := by
  have hheader : structureAt memory EFI_DEVICE_PATH p none =
      .ok (⟨EFI_DEVICE_PATH, node.header⟩, none) :=
    structureAt_alone (lies_append.mp h).1 node.length_header
  rw [pathHeader, hheader]
  show Except.ok (CData.uint8 ⟨EFI_DEVICE_PATH, node.header⟩ 0,
    CData.uint8 ⟨EFI_DEVICE_PATH, node.header⟩ 1, CData.uint16 ⟨EFI_DEVICE_PATH, node.header⟩ 2) = _
  rw [node.uint8_type, node.uint8_subtype, node.uint16_length]

/-- A structure at the front of a node. -/
theorem structureAt_of_node (h : Lies memory p node.bytes) {type : CType}
    (hsize : type.size ≤ 4 + node.body.length) :
    structureAt memory type p (some node.Length) = .ok (⟨type, node.bytes.take type.size⟩,
      if node.bytes.drop type.size = [] then none else some (node.bytes.drop type.size)) := by
  have hgiven : node.Length ≠ 0 := Nat.ne_of_gt (Nat.add_pos_left (by decide) _)
  exact structureAt_front h node.length_bytes hgiven hsize

/-- A node is found where it lies. -/
theorem nodeOf_of_lies (h : Lies memory p node.bytes) :
    nodeOf memory p = .ok (some node.entry) := by
  have hlong : ¬ node.Length < EFI_DEVICE_PATH.size := Nat.not_lt.mpr (Nat.le_add_right ..)
  have hbody : bodyOf memory node.NodeType node.SubType node.Length p =
      .ok (node.entry.node, node.entry.extra) := by
    rw [bodyOf, structureAt_of_node node h node.first]
    dsimp only
    split
    · next hvendor =>
      have hguid : ((node.bytes.take (pathStructure node.NodeType node.SubType).size).drop 4).take
          16 = node.body.take 16 := by
        rw [size_of_vendor hvendor, List.drop_take, List.take_take, UefiNode.bytes,
          List.drop_left' node.length_header]
        rfl
      have htype : nodeStructure node.NodeType node.SubType (node.body.take 16) =
          getType guidOverrideDict (node.body.take 16) (pathStructure node.NodeType node.SubType) :=
          if_pos hvendor
      have hwhole := structureAt_of_node node h node.whole
      rw [hguid, UefiNode.entry, htype]
      rw [htype] at hwhole
      cases hfound : guidOverrideDict.lookup (node.body.take 16) with
      | none => rw [getType, hfound]; rfl
      | some guid_type =>
        rw [getType, hfound] at hwhole ⊢
        exact hwhole
    · next hother =>
      have htype : nodeStructure node.NodeType node.SubType (node.body.take 16) =
          pathStructure node.NodeType node.SubType := if_neg hother
      rw [UefiNode.entry, htype]
  rw [nodeOf, pathHeader_of_lies node h]
  dsimp only
  rw [if_neg hlong, if_neg node.goes_on, hbody]
  rfl

end Nodes

/-! ## Instances -/

/-- The node between two instances. -/
def separator : UefiNode where
  NodeType := 0x7F
  SubType := 0x01
  body := []
  type_byte := by decide
  subtype_byte := by decide
  goes_on := by decide
  length_fits := by decide
  first := by decide
  whole := by decide

/-- The nodes of a path of instances, up to its end. -/
def pathNodes : (inst : List UefiNode) → (more : List (List UefiNode)) → List UefiNode
  | inst, [] => inst
  | inst, next :: more => inst ++ separator :: pathNodes next more

/-- What is shown of the instances within `n` turns, if `front` is in the first one already. -/
def shownInstances : (n : Nat) → (front : List PathNode) → (inst : List UefiNode) →
    (more : List (List UefiNode)) → List (List PathNode)
  | n, front, inst, [] => if inst.length < n then [front ++ inst.map UefiNode.entry] else []
  | n, front, inst, next :: more =>
      if inst.length < n then
        (front ++ inst.map UefiNode.entry) :: shownInstances (n - (inst.length + 1))
        [separator.entry] next more
      else []

/-- A path that lies in memory from `p` on: its instances, none of whose nodes is of type `0x7F`,
and its end. -/
structure PathLies (memory : Nat → Option UInt8) (p : Nat) (inst : List UefiNode)
    (more : List (List UefiNode)) : Prop where
  given : p ≠ 0
  lies : Lies memory p ((pathNodes inst more).flatMap UefiNode.bytes)
  ends : ∃ Length, 4 ≤ Length ∧
    pathHeader memory (p + ((pathNodes inst more).flatMap UefiNode.bytes).length) =
    .ok (0x7F, 0xFF, Length)
  plain : ∀ inst' ∈ inst :: more, ∀ node ∈ inst', node.NodeType ≠ 0x7F

section Instances
variable {memory : Nat → Option UInt8} {q : Nat} {pre more : List (List PathNode)}
  {current : List PathNode} {refs : List Nat}

/-- What is shown does not depend on lists that are made later. -/
theorem view_more (h : ∀ r ∈ refs, r < pre.length) (more : List (List PathNode)) :
    DevicePaths.view ⟨pre ++ more, refs⟩ = DevicePaths.view ⟨pre, refs⟩ :=
  List.map_congr_left fun r hr => by
    dsimp only
    rw [List.getElem?_append_left (h r hr)]

theorem view_shown (h : ∀ r ∈ refs, r < pre.length) :
    DevicePaths.view ⟨pre ++ [current], refs ++ [pre.length]⟩ = DevicePaths.view ⟨pre, refs⟩ ++
    [current] := by
  have hlast : (pre ++ [current])[pre.length]? = some current := by
    rw [List.getElem?_append_right (Nat.le_refl _), Nat.sub_self]
    rfl
  have hold := view_more h [current]
  rw [DevicePaths.view] at hold
  rw [DevicePaths.view, List.map_append, hold, List.map_singleton, hlast]
  rfl

theorem take_plain (e : PathNode) (h : e.NodeType ≠ 0x7F) :
    take (⟨pre ++ [current], refs⟩, pre.length) e =
    (⟨pre ++ [current ++ [e]], refs⟩, pre.length) := by
  rw [take, ended, if_neg h]
  dsimp only
  rw [addNode]
  dsimp only
  rw [modify_last]

theorem take_separator : take (⟨pre ++ [current], refs⟩, pre.length) separator.entry =
    (⟨(pre ++ [current]) ++ [[separator.entry]], refs ++ [pre.length]⟩,
      (pre ++ [current]).length) := by
  have htype : separator.entry.NodeType = 0x7F := rfl
  have hsubtype : separator.entry.SubType = 0x01 := rfl
  rw [take, htype, hsubtype, ended, if_pos rfl, if_pos rfl]
  dsimp only [showList, newList, addNode]
  rw [modify_last]
  rfl

/-- Nodes of other types are appended. -/
theorem foldl_plain : ∀ (es : List PathNode) (current : List PathNode),
    (∀ e ∈ es, e.NodeType ≠ 0x7F) →
    es.foldl take (⟨pre ++ [current], refs⟩, pre.length) =
    (⟨pre ++ [current ++ es], refs⟩, pre.length) := by
  intro es
  induction es with
  | nil => exact fun current _ => by rw [List.append_nil]; rfl
  | cons e es ih =>
    intro current h
    rw [List.foldl_cons, take_plain e (h e (List.mem_cons_self ..)),
      ih _ fun e' he => h e' (List.mem_cons_of_mem _ he), List.append_assoc]
    rfl

theorem headed_end {Length : Nat} (hlong : 4 ≤ Length)
    (hend : pathHeader memory q = .ok (0x7F, 0xFF, Length)) (d : DevicePaths × Nat) :
    headed memory q d = (d.1.showList d.2, d.2) := by
  have hnot : ¬ Length < EFI_DEVICE_PATH.size := Nat.not_lt.mpr hlong
  rw [headed, hend]
  dsimp only
  rw [if_neg hnot, ended, if_pos rfl, if_neg (by decide)]

theorem plain_entries {inst : List UefiNode} (h : ∀ node ∈ inst, node.NodeType ≠ 0x7F) :
    ∀ e ∈ inst.map UefiNode.entry, e.NodeType ≠ 0x7F := by
  intro e he
  obtain ⟨node, hnode, rfl⟩ := List.mem_map.mp he
  exact h node hnode

/-- All of an instance. -/
theorem foldl_instance {inst : List UefiNode} (h : ∀ node ∈ inst, node.NodeType ≠ 0x7F) :
    (inst.map UefiNode.entry).foldl take (⟨pre ++ [current], refs⟩, pre.length) =
      (⟨pre ++ [current ++ inst.map UefiNode.entry], refs⟩, pre.length) :=
  foldl_plain _ _ (plain_entries h)

/-- Turns that do not come to the end of an instance show nothing. -/
theorem view_within {inst : List UefiNode} (hrefs : ∀ r ∈ refs, r < pre.length)
    (hplain : ∀ node ∈ inst, node.NodeType ≠ 0x7F) (n : Nat) :
    (((inst.map UefiNode.entry).take n).foldl take (⟨pre ++ [current], refs⟩, pre.length)).1.view =
      DevicePaths.view ⟨pre, refs⟩ := by
  rw [foldl_plain _ _ fun e he => plain_entries hplain e (List.mem_of_mem_take he)]
  exact view_more hrefs _

/-- What is gathered of a path, by induction on its instances: one turn for each node, and one for
each end. -/
theorem view_gathered {Length : Nat} (hlong : 4 ≤ Length)
    (hend : pathHeader memory q = .ok (0x7F, 0xFF, Length)) : ∀ (more : List (List UefiNode))
    (inst : List UefiNode) (n : Nat) (pre : List (List PathNode))
      (current : List PathNode) (refs : List Nat), (∀ r ∈ refs, r < pre.length) →
      (∀ inst' ∈ inst :: more, ∀ node ∈ inst', node.NodeType ≠ 0x7F) →
      (gathered memory (⟨pre ++ [current], refs⟩, pre.length)
          (((pathNodes inst more).map UefiNode.entry).take n,
            if ((pathNodes inst more).map UefiNode.entry).length < n then some q
            else none)).1.view =
        DevicePaths.view ⟨pre, refs⟩ ++ shownInstances n current inst more := by
  intro more
  induction more with
  | nil =>
    intro inst n pre current refs hrefs hplain
    have hinst := hplain inst (List.mem_cons_self ..)
    rw [pathNodes, List.length_map, shownInstances, gathered]
    -- The last instance is shown if the turns last until its end node is read.
    by_cases hfits : inst.length < n
    · have htake : (inst.map UefiNode.entry).take n = inst.map UefiNode.entry :=
        List.take_of_length_le (by rw [List.length_map]; exact Nat.le_of_lt hfits)
      rw [htake, if_pos hfits, if_pos hfits]
      dsimp only [Option.elim]
      rw [foldl_instance hinst, headed_end hlong hend]
      exact view_shown hrefs
    · rw [if_neg hfits, if_neg hfits, List.append_nil]
      exact view_within hrefs hinst n
  | cons next more ih =>
    intro inst n pre current refs hrefs hplain
    have hinst := hplain inst (List.mem_cons_self ..)
    have hmap : (pathNodes inst (next :: more)).map UefiNode.entry =
        inst.map UefiNode.entry ++ separator.entry :: (pathNodes next more).map UefiNode.entry := by
      rw [pathNodes, List.map_append, List.map_cons]
    rw [hmap, shownInstances]
    by_cases hfits : inst.length < n
    · -- One turn for each node of the first instance, one for the separator, and `m` for the rest.
      obtain ⟨m, rfl⟩ := Nat.exists_eq_add_of_le (Nat.succ_le_of_lt hfits)
      have htake :
          (inst.map UefiNode.entry ++ separator.entry ::
            (pathNodes next more).map UefiNode.entry).take
          (inst.length.succ + m) =
          inst.map UefiNode.entry ++ separator.entry ::
          ((pathNodes next more).map UefiNode.entry).take m := by
        have hcount : inst.length.succ + m = (inst.map UefiNode.entry).length + (m + 1) := by
          rw [List.length_map]
          omega
        rw [hcount, List.take_length_add_append, List.take_succ_cons]
      have hlength :
          (inst.map UefiNode.entry ++ separator.entry ::
            (pathNodes next more).map UefiNode.entry).length <
          inst.length.succ + m ↔ ((pathNodes next more).map UefiNode.entry).length < m := by
        rw [List.length_append, List.length_cons, List.length_map]
        omega
      -- The separator ends the instance that was read and begins the next.
      have hgathered (stop : Option Nat) (es : List PathNode) :
          gathered memory (⟨pre ++ [current], refs⟩, pre.length)
              (inst.map UefiNode.entry ++ separator.entry :: es, stop) =
            gathered memory
              (⟨(pre ++ [current ++ inst.map UefiNode.entry]) ++ [[separator.entry]],
                refs ++ [pre.length]⟩, (pre ++ [current ++ inst.map UefiNode.entry]).length) (es,
                stop) := by
        rw [gathered, gathered, List.foldl_append, List.foldl_cons, foldl_instance hinst,
          take_separator]
      have hmore :=
        ih next m (pre ++ [current ++ inst.map UefiNode.entry]) [separator.entry]
        (refs ++ [pre.length]) (fun r hr => by
          rw [List.length_append, List.length_singleton]
          rcases List.mem_append.mp hr with hr | hr
          · exact Nat.lt_succ_of_lt (hrefs r hr)
          · exact List.mem_singleton.mp hr ▸ Nat.lt_succ_self _)
        (fun inst' h => hplain inst' (List.mem_cons_of_mem _ h))
      have hleft : inst.length.succ + m - (inst.length + 1) = m := Nat.add_sub_cancel_left ..
      rw [htake, hgathered, if_pos hfits, hleft]
      simp only [hlength]
      rw [hmore, view_shown hrefs, List.append_assoc]
      rfl
    · -- The turns are used up within the first instance, and nothing of the path is shown.
      have htake :
          (inst.map UefiNode.entry ++ separator.entry ::
            (pathNodes next more).map UefiNode.entry).take n =
          (inst.map UefiNode.entry).take n :=
        List.take_append_of_le_length (by rw [List.length_map]; exact Nat.le_of_not_lt hfits)
      have hlength : ¬ (inst.map UefiNode.entry ++
          separator.entry :: (pathNodes next more).map UefiNode.entry).length < n := by
        rw [List.length_append, List.length_map]
        omega
      rw [htake, if_neg hlength, if_neg hfits, List.append_nil, gathered]
      exact view_within hrefs hinst n

end Instances

/-- **A path that the firmware laid out is shown instance by instance**, as far as the turns go,
behind what was shown before, and no exception is raised. -/
theorem path_laid {p : Nat} {inst : List UefiNode} {more : List (List UefiNode)}
    (s : Session DevicePaths) (h : PathLies s.memory p inst more) (hsound : s.parsed.Sound) :
    (EfiDevicePath.init (some p) s).1 = .ok () ∧
      (EfiDevicePath.init (some p) s).2.parsed.view = s.parsed.view ++
      shownInstances 64 [] inst more := by
  obtain ⟨Length, hlong, hend⟩ := h.ends
  have hchain : Chain (Found (nodeAt s.memory)) p ((pathNodes inst more).map UefiNode.entry) _ :=
    chain_laid _ p (fun node _ p hlies => by
      rw [node.length_bytes]
      exact found_nodeAt (nodeOf_of_lies node hlies)) h.lies
  have hnot : ¬ Length < EFI_DEVICE_PATH.size := Nat.not_lt.mpr hlong
  have hstop : nodeOf s.memory (p + ((pathNodes inst more).flatMap UefiNode.bytes).length) =
      .ok none := by
    rw [nodeOf, hend]
    exact (if_neg hnot).trans (if_pos ⟨rfl, rfl⟩)
  have hnone : nodeAt s.memory (p + ((pathNodes inst more).flatMap UefiNode.bytes).length) =
      none := by
    rw [nodeAt, hstop]
  have hwalk := walk_of_chain hchain hnone 64
  obtain ⟨hresult, hparsed, -⟩ :=
    readNodes_eq 64 p s.parsed.lists.length { s with parsed := s.parsed.newList } h.given
  rw [init_eq]
  constructor
  · dsimp only
    rw [hresult]
    show swallowed (pathOutcome s.memory (walk (nodeAt s.memory) 64 p).2) = _
    rw [hwalk]
    dsimp only
    split
    · rw [pathOutcome, hstop]
      rfl
    · rfl
  · dsimp only
    rw [hparsed]
    show (gathered s.memory (s.parsed.newList, s.parsed.lists.length)
      (walk (nodeAt s.memory) 64 p)).1.view = _
    rw [hwalk]
    exact view_gathered hlong hend more inst 64 s.parsed.lists [] s.parsed.DevicePath hsound h.plain

/-- The PCI device of `pathSession`. -/
def pciNode : UefiNode where
  NodeType := 1
  SubType := 1
  body := [0, 31]
  type_byte := by decide
  subtype_byte := by decide
  goes_on := by decide
  length_fits := by decide
  first := by decide
  whole := by decide

/-- Its USB port. -/
def usbNode : UefiNode where
  NodeType := 3
  SubType := 5
  body := [2, 1]
  type_byte := by decide
  subtype_byte := by decide
  goes_on := by decide
  length_fits := by decide
  first := by decide
  whole := by decide

theorem pathSession_lies : PathLies pathSession.memory 0x1000 [pciNode] [[usbNode]] where
  given := by decide
  lies := by
    show ∀ i < 16, _
    decide
  ends := ⟨4, by decide, rfl⟩
  plain := by decide

theorem path_laid_usb : (EfiDevicePath.init (some 0x1000) pathSession).1 = .ok () ∧
    (EfiDevicePath.init (some 0x1000) pathSession).2.parsed.view =
      pathSession.parsed.view ++ shownInstances 64 [] [pciNode] [[usbNode]] :=
  path_laid pathSession pathSession_lies fun _ h => absurd h List.not_mem_nil

end UefiDebugger.Host
