import EvoAudio.Storage.TableReading

/-!
# The roles follow the use of the partitions

A partition is in system use when it is mounted at a system path or is an active
swap partition. `Classifies` says that the classifier lists every partition of a
USB disk once, in order, with the role its use and that of its siblings call for.
That holds exactly if the lines of the two tables, cut at white space, show the
USB partitions that are in system use and no others.
-/

namespace EvoAudio.Storage

/-- The partitions of the USB disks in the order of the tree: the node of the disk
and that of the partition. -/
def usbNodes (blockdevices : List LsblkNode) : List (List Char × List Char) :=
  (blockdevices.filter LsblkNode.isUsb).flatMap fun disk =>
    (disk.children.filter LsblkNode.isPart).map fun child =>
      (devNode disk.name, devNode child.name)

/-- Some partition of the disk is in use. -/
def OnUsedDisk (used : List Char → Prop) (blockdevices : List LsblkNode) (disk : List Char) :
    Prop :=
  ∃ device, (disk, device) ∈ usbNodes blockdevices ∧ used device

/-- The role and the policy that the use of the devices calls for. -/
structure RoleFollows (used : List Char → Prop) (blockdevices : List LsblkNode)
    (p : ClassifiedPartition) : Prop where
  live : p.role.isSystemLive ↔ used p.deviceNode
  adjacent : p.role = .systemAdjacent ↔
    ¬ used p.deviceNode ∧ OnUsedDisk used blockdevices p.parentDisk
  removable : p.role = .removable ↔
    ¬ used p.deviceNode ∧ ¬ OnUsedDisk used blockdevices p.parentDisk
  policy : p.mountPolicy = .auto ↔ p.role = .removable

section Tables

variable (mounts : List MountRecord) (swaps : List SwapRecord)

def InSystemUse (device : List Char) : Prop :=
  (∃ r ∈ mounts, r.source = device ∧ r.mountPoint ∈ systemPaths) ∨
    ∃ s ∈ swaps, s.isPartition ∧ s.path = device

/-- A line of one of the tables, cut at unescaped white space, has the device in
system use. -/
def Shown (device : List Char) : Prop :=
  (∃ r ∈ mounts, r.Shows device) ∨ ∃ s ∈ swaps, s.Shows device

/-- For the USB partitions, the lines show what the kernel has. -/
def Legible (blockdevices : List LsblkNode) : Prop :=
  ∀ disk device, (disk, device) ∈ usbNodes blockdevices →
    (Shown mounts swaps device ↔ InSystemUse mounts swaps device)

/-- Every partition of a USB disk comes once, in order, with the role and the
policy that its use calls for. -/
def Classifies (scaled : List Char → UInt64 → Option UInt64) (blockdevices : List LsblkNode) :
    Prop :=
  ∃ out, classify scaled (mountTable mounts) (swapTable swaps) (.ok blockdevices) = .ok out ∧
    (out.map fun p => (p.parentDisk, p.deviceNode)) = usbNodes blockdevices ∧
    ∀ p ∈ out, RoleFollows (InSystemUse mounts swaps) blockdevices p

end Tables

-- ---------------------------------------------------------------------------
-- The two passes
-- ---------------------------------------------------------------------------

theorem classifySystemMount_isSome (mountpoints : List (List Char)) :
    (classifySystemMount mountpoints).isSome ↔ ∃ path ∈ mountpoints, path ∈ systemPaths := by
  have hpaths : (∃ path ∈ mountpoints, path ∈ systemPaths) ↔
      "/".toList ∈ mountpoints ∨ "/boot/efi".toList ∈ mountpoints ∨
        "/boot".toList ∈ mountpoints ∨ "/boot/firmware".toList ∈ mountpoints := by
    simp only [systemPaths, List.mem_cons, List.not_mem_nil, or_false, and_or_left, exists_or,
      exists_eq_right]
  rw [hpaths]
  simp only [classifySystemMount, Bool.or_eq_true, List.contains_iff_mem]
  split
  next h => simp only [Option.isSome_some, h, true_or]
  next h =>
    split
    next h' => simp only [Option.isSome_some, h', true_or, or_true]
    next h' =>
      split
      next h'' => simp only [Option.isSome_some, h'', or_true]
      next h'' => simp only [Option.isSome_none, Bool.false_eq_true, h, h', h'', or_self]

theorem systemRole_isSome (mounts : List MountEntry) (swapDevices : List (List Char))
    (device : List Char) :
    (systemRole mounts swapDevices device).isSome ↔
      (∃ entry ∈ mounts, entry.deviceNode = device ∧ entry.mountpoint ∈ systemPaths) ∨
        device ∈ swapDevices := by
  simp only [systemRole, List.contains_iff_mem]
  split
  next h => simp [h]
  next h =>
    rw [classifySystemMount_isSome]
    simp [mountpointsOf, h, and_assoc]

theorem systemRole_live (h : systemRole mounts swapDevices device = some role) :
    role.isSystemLive := by
  unfold systemRole classifySystemMount at h
  split at h
  · cases h
    rfl
  split at h
  · cases h
    rfl
  split at h
  · cases h
    rfl
  split at h
  · cases h
    rfl
  · cases h

theorem finalRole_spec {found : Option PartitionRole}
    (h : ∀ role ∈ found, role.isSystemLive) :
    ((finalRole disks disk found).isSystemLive ↔ found.isSome) ∧
      (finalRole disks disk found = .systemAdjacent ↔ ¬ found.isSome ∧ disk ∈ disks) ∧
      (finalRole disks disk found = .removable ↔ ¬ found.isSome ∧ disk ∉ disks) := by
  cases found with
  | some role =>
    have hlive := h role rfl
    have hadjacent : role ≠ .systemAdjacent := by
      rintro rfl
      exact absurd hlive (by decide)
    have hremovable : role ≠ .removable := by
      rintro rfl
      exact absurd hlive (by decide)
    simp [finalRole, hlive, hadjacent, hremovable]
  | none => by_cases hdisk : disk ∈ disks <;> simp [finalRole, hdisk, PartitionRole.isSystemLive]

theorem defaultPolicy_auto (role : PartitionRole) :
    role.defaultPolicy = .auto ↔ role = .removable := by
  cases role <;> decide

theorem map_collectUsbPartitions (scaled : List Char → UInt64 → Option UInt64)
    (blockdevices : List LsblkNode) :
    ((collectUsbPartitions scaled blockdevices).map fun part =>
      (part.parentDisk, part.deviceNode)) = usbNodes blockdevices := by
  unfold collectUsbPartitions usbNodes
  rw [List.map_flatMap]
  congr 1
  funext disk
  apply List.ext_getElem?
  intro i
  simp only [List.getElem?_map, List.getElem?_mapIdx, Option.map_map]
  rfl

theorem exists_name (h : (disk, device) ∈ usbNodes blockdevices) :
    ∃ name, device = devNode name := by
  simp only [usbNodes, List.mem_flatMap, List.mem_map, Prod.mk.injEq] at h
  obtain ⟨-, -, child, -, -, rfl⟩ := h
  exact ⟨child.name, rfl⟩

section Passes

variable {parts : List UsbPartition} {blockdevices : List LsblkNode}
  {entries : List MountEntry} {swapDevices : List (List Char)} {used : List Char → Prop}

/-- The disks that the first pass notes are those with a partition in use. -/
theorem mem_systemParentDisks
    (hnodes : (parts.map fun part => (part.parentDisk, part.deviceNode)) = usbNodes blockdevices)
    (hused : ∀ name, (systemRole entries swapDevices (devNode name)).isSome ↔ used (devNode name))
    (disk : List Char) :
    disk ∈ (parts.filter fun part =>
        (systemRole entries swapDevices part.deviceNode).isSome).map (·.parentDisk) ↔
      OnUsedDisk used blockdevices disk := by
  simp only [List.mem_map, List.mem_filter, OnUsedDisk]
  constructor
  · rintro ⟨part, ⟨hpart, hrole⟩, rfl⟩
    have hmem : (part.parentDisk, part.deviceNode) ∈ usbNodes blockdevices :=
      hnodes ▸ List.mem_map_of_mem hpart
    obtain ⟨name, hname⟩ := exists_name hmem
    refine ⟨part.deviceNode, hmem, ?_⟩
    rw [hname] at hrole ⊢
    exact (hused name).mp hrole
  · rintro ⟨device, hmem, hdevice⟩
    obtain ⟨name, rfl⟩ := exists_name hmem
    rw [← hnodes] at hmem
    obtain ⟨part, hpart, hnode⟩ := List.mem_map.mp hmem
    obtain ⟨rfl, hname⟩ := Prod.mk.inj hnode
    exact ⟨part, ⟨hpart, hname ▸ (hused name).mpr hdevice⟩, rfl⟩

theorem roleFollows_classifyPartitions
    (hnodes : (parts.map fun part => (part.parentDisk, part.deviceNode)) = usbNodes blockdevices)
    (hused : ∀ name, (systemRole entries swapDevices (devNode name)).isSome ↔ used (devNode name))
    (h : p ∈ classifyPartitions entries swapDevices parts) : RoleFollows used blockdevices p := by
  obtain ⟨part, hpart, rfl⟩ := List.mem_map.mp h
  have hmem : (part.parentDisk, part.deviceNode) ∈ usbNodes blockdevices :=
    hnodes ▸ List.mem_map_of_mem hpart
  obtain ⟨name, hname⟩ := exists_name hmem
  have hdevice : (systemRole entries swapDevices part.deviceNode).isSome ↔
      used part.deviceNode := by
    rw [hname]
    exact hused name
  have hspec := fun disks => @finalRole_spec disks part.parentDisk
    (systemRole entries swapDevices part.deviceNode) fun role hrole => systemRole_live hrole
  obtain ⟨hlive, hadjacent, hremovable⟩ := hspec _
  rw [hdevice, mem_systemParentDisks hnodes hused] at hadjacent hremovable
  exact ⟨hlive.trans hdevice, hadjacent, hremovable, defaultPolicy_auto _⟩

end Passes

/-- The roles always follow what the lines show. -/
theorem classify_tables (scaled : List Char → UInt64 → Option UInt64)
    (mounts : List MountRecord) (swaps : List SwapRecord) (blockdevices : List LsblkNode) :
    ∃ out, classify scaled (mountTable mounts) (swapTable swaps) (.ok blockdevices) = .ok out ∧
      (out.map fun p => (p.parentDisk, p.deviceNode)) = usbNodes blockdevices ∧
      ∀ p ∈ out, RoleFollows (Shown mounts swaps) blockdevices p := by
  obtain ⟨entries, hentries, hshows⟩ := parseMountinfo_mountTable mounts
  have hnodes := map_collectUsbPartitions scaled blockdevices
  refine ⟨classifyPartitions entries (parseSwaps (swapTable swaps))
    (collectUsbPartitions scaled blockdevices), ?_, ?_, ?_⟩
  · rw [classify, hentries]
    rfl
  · rw [← hnodes, classifyPartitions, List.map_map]
    rfl
  · intro p hp
    refine roleFollows_classifyPartitions hnodes (fun name => ?_) hp
    rw [systemRole_isSome, hshows, mem_parseSwaps_swapTable]
    rfl

theorem RoleFollows.congr (hp : (p.parentDisk, p.deviceNode) ∈ usbNodes blockdevices)
    (hsame : ∀ disk device, (disk, device) ∈ usbNodes blockdevices → (used device ↔ used' device))
    (h : RoleFollows used blockdevices p) : RoleFollows used' blockdevices p := by
  have hdevice := hsame _ _ hp
  have hdisk : OnUsedDisk used blockdevices p.parentDisk ↔
      OnUsedDisk used' blockdevices p.parentDisk := by
    constructor
    · rintro ⟨device, hmem, h⟩
      exact ⟨device, hmem, (hsame _ _ hmem).mp h⟩
    · rintro ⟨device, hmem, h⟩
      exact ⟨device, hmem, (hsame _ _ hmem).mpr h⟩
  refine ⟨h.live.trans hdevice, ?_, ?_, h.policy⟩
  · rw [h.adjacent, hdevice, hdisk]
  · rw [h.removable, hdevice, hdisk]

theorem Legible.classifies (h : Legible mounts swaps blockdevices)
    (scaled : List Char → UInt64 → Option UInt64) :
    Classifies mounts swaps scaled blockdevices := by
  obtain ⟨out, hout, hnodes, hshown⟩ := classify_tables scaled mounts swaps blockdevices
  refine ⟨out, hout, hnodes, fun p hp => (hshown p hp).congr ?_ h⟩
  rw [← hnodes]
  exact List.mem_map_of_mem hp

theorem classifies_iff_legible (scaled : List Char → UInt64 → Option UInt64)
    (mounts : List MountRecord) (swaps : List SwapRecord) (blockdevices : List LsblkNode) :
    Classifies mounts swaps scaled blockdevices ↔ Legible mounts swaps blockdevices := by
  constructor
  · rintro ⟨out, hout, hnodes, hused⟩ disk device hmem
    obtain ⟨out', hout', -, hshown⟩ := classify_tables scaled mounts swaps blockdevices
    obtain rfl : out = out' := Except.ok.inj (hout.symm.trans hout')
    rw [← hnodes] at hmem
    obtain ⟨p, hp, hnode⟩ := List.mem_map.mp hmem
    obtain ⟨-, rfl⟩ := Prod.mk.inj hnode
    -- Both uses decide whether the role of one partition is a live one.
    exact (hshown p hp).live.symm.trans (hused p hp).live
  · intro h
    exact h.classifies scaled

/-- A USB drive that the device runs from, on a subvolume whose name has a
no-break space. -/
def bootSubvolume : MountRecord where
  mountId := 28
  parentId := 1
  major := 8
  minor := 2
  root := "/@\u00A0evo".toList
  mountPoint := "/".toList
  readOnly := false
  flags := [.relatime]
  optionalFields := [.shared 1]
  fsType := "btrfs".toList
  source := "/dev/sda2".toList
  superReadOnly := false
  superOptions := ",space_cache=v2".toList
  root_named := by decide
  mountPoint_absolute := by decide
  fsType_named := ⟨'b', by decide, by decide⟩
  superOptions_line := by decide

def partNode (name : List Char) : LsblkNode where
  name := name
  tran := none
  nodeType := some "part".toList
  uuid := none
  label := none
  fstype := none
  partuuid := none
  vendor := none
  model := none
  serial := none
  size := none
  children := []

def bootDrive : LsblkNode :=
  { partNode "sda".toList with
    tran := some "usb".toList
    nodeType := some "disk".toList
    children := [partNode "sda1".toList, partNode "sda2".toList] }

/-- The fifth word of the line is the end of the subvolume's name, so the root
partition is removable and mounted on its own. -/
theorem bootDrive_auto_mounted :
    ¬ Classifies [bootSubvolume] [] (fun _ _ => none) [bootDrive] := by
  rintro ⟨out, hout, -, hright⟩
  have hmissed : (classify (fun _ _ => none) (mountTable [bootSubvolume]) (swapTable [])
      (.ok [bootDrive])).toOption.any (fun out => out.any fun p =>
        p.deviceNode = "/dev/sda2".toList ∧ p.role.isSystemLive = false) = true := by
    decide
  rw [hout] at hmissed
  simp only [Except.toOption, Option.any_some, List.any_eq_true, decide_eq_true_eq] at hmissed
  obtain ⟨p, hp, hdevice, hrole⟩ := hmissed
  have hlive := (hright p hp).live
  rw [hdevice, hrole] at hlive
  exact absurd (hlive.mpr (.inl ⟨bootSubvolume, by simp, rfl, by decide⟩)) (by decide)

-- ---------------------------------------------------------------------------
-- Names that stay whole
-- ---------------------------------------------------------------------------

/-- No name of the mount has white space that the kernel leaves in the line. -/
def MountRecord.Unbroken (r : MountRecord) : Prop :=
  ∀ field ∈ [r.root, r.mountPoint, r.fsType, r.source],
    ∀ c ∈ field, Text.isWhitespace c → c ∈ pathEscapes

def SwapRecord.Unbroken (s : SwapRecord) : Prop :=
  ∀ c ∈ s.path, Text.isWhitespace c → c ∈ pathEscapes

/-- The name of a device as the kernel gives it. -/
def PlainName (name : List Char) : Prop :=
  ∀ c ∈ name, c.toNat < 128 ∧ c ∉ pathEscapes

namespace MountRecord

variable {r : MountRecord}

theorem mountPoint_ne_nil (r : MountRecord) : r.mountPoint ≠ [] := by
  intro h
  have := r.mountPoint_absolute
  simp [h] at this

theorem cut_of_unbroken (h : r.Unbroken) :
    r.cut = ([number r.mountId, number r.parentId, r.deviceNumber, r.root, r.mountPoint,
      r.options] ++ r.optionalFields.map OptionalField.text) ++
        ['-'] :: r.fsType :: Text.pieces nameEscapes r.source := by
  have hpath : ∀ field ∈ [r.root, r.mountPoint, r.fsType, r.source], field ≠ [] →
      Text.pieces pathEscapes field = [field] :=
    fun field hfield => Text.pieces_of_solid (h field hfield)
  have hroot := hpath r.root (by simp) r.root_named.1
  have hmountPoint := hpath r.mountPoint (by simp) r.mountPoint_ne_nil
  have hfsType : Text.pieces nameEscapes r.fsType = [r.fsType] := by
    refine Text.pieces_of_solid (fun c hc hw => path_subset_name (h _ (by simp) c hc hw)) ?_
    obtain ⟨c, hc, -⟩ := r.fsType_named
    exact List.ne_nil_of_mem hc
  simp [cut, parts, flatten_optionalFields, hroot, hmountPoint, hfsType]

/-- No field before the separator is a hyphen. -/
theorem ne_hyphen (r : MountRecord) :
    ∀ word ∈ [number r.mountId, number r.parentId, r.deviceNumber, r.root, r.mountPoint,
      r.options] ++ r.optionalFields.map OptionalField.text, (word == ['-']) = false := by
  have hnumber : ∀ n, number n ≠ ['-'] := by
    intro n hn
    have hmem : '-' ∈ number n := hn ▸ List.mem_singleton_self '-'
    have := Nat.isDigit_of_mem_toDigits (by omega) (by omega) hmem
    exact absurd this (by decide)
  have hdevice : r.deviceNumber ≠ ['-'] := by
    intro hd
    have hmem : ':' ∈ r.deviceNumber := by simp [deviceNumber]
    rw [hd] at hmem
    exact absurd hmem (by decide)
  have hmountPoint : r.mountPoint ≠ ['-'] := by
    intro hd
    have := r.mountPoint_absolute
    rw [hd] at this
    exact absurd this (by decide)
  have hoptions : r.options ≠ ['-'] := by
    unfold options accessText
    split <;> simp
  have hoptional : ∀ field : OptionalField, field.text ≠ ['-'] := by
    intro field htext
    have hhead : field.text.head? = some '-' := by
      rw [htext]
      rfl
    cases field with
    | shared peers => exact absurd (Option.some.inj hhead) (by decide : 's' ≠ '-')
    | master peers => exact absurd (Option.some.inj hhead) (by decide : 'm' ≠ '-')
    | propagateFrom peers => exact absurd (Option.some.inj hhead) (by decide : 'p' ≠ '-')
    | unbindable => exact absurd (Option.some.inj hhead) (by decide : 'u' ≠ '-')
  simp only [beq_eq_false_iff_ne, List.forall_mem_append, List.forall_mem_cons,
    List.forall_mem_map, List.not_mem_nil, IsEmpty.forall_iff, implies_true, and_true]
  exact ⟨⟨hnumber _, hnumber _, hdevice, r.root_named.2, hmountPoint, hoptions⟩,
    fun field _ => hoptional field⟩

theorem sourceWord_of_unbroken (h : r.Unbroken) :
    r.sourceWord = (Text.pieces nameEscapes r.source)[0]? := by
  rw [sourceWord, cut_of_unbroken h, List.findIdx?_append,
    List.findIdx?_eq_none_iff.mpr r.ne_hyphen, List.findIdx?_cons, if_pos (by decide)]
  simp only [Option.none_or, Option.map_some, Option.bind_some, Nat.zero_add]
  rw [List.getElem?_append_right (by omega)]
  simp

theorem shows_of_unbroken (h : r.Unbroken) (hname : PlainName name) :
    r.Shows (devNode name) ↔ r.source = devNode name ∧ r.mountPoint ∈ systemPaths := by
  have hascii : ∀ c ∈ devNode name, c.toNat < 128 :=
    List.forall_mem_append.mpr ⟨Text.forall_of_all (by decide), fun c hc => (hname c hc).1⟩
  have hfour : r.cut[4]? = some r.mountPoint := by
    rw [cut_of_unbroken h]
    rfl
  have hsource : (∃ word, r.sourceWord = some word ∧ latin1 word = devNode name) ↔
      r.source = devNode name := by
    rw [sourceWord_of_unbroken h]
    by_cases hempty : r.source = []
    · have hnode : devNode name ≠ [] := List.append_ne_nil_of_left_ne_nil (by decide) _
      simp [hempty, Text.pieces, hnode.symm]
    · have hwhole : Text.pieces nameEscapes r.source = [r.source] :=
        Text.pieces_of_solid (fun c hc hw => path_subset_name (h _ (by simp) c hc hw)) hempty
      simp [hwhole, latin1_eq_iff hascii]
  rw [Shows, hsource, hfour]
  simp [and_comm]

end MountRecord

theorem SwapRecord.shows_of_unbroken {s : SwapRecord} (h : s.Unbroken) (hname : PlainName name) :
    s.Shows (devNode name) ↔ s.isPartition ∧ s.path = devNode name := by
  have hne : s.path ≠ [] := by
    intro hnil
    have := s.path_absolute
    simp [hnil] at this
  have hplain : ∀ c ∈ devNode name, c ∉ pathEscapes :=
    List.forall_mem_append.mpr ⟨Text.forall_of_all (by decide), fun c hc => (hname c hc).2⟩
  have hback : '\\' ∉ devNode name := fun hmem => hplain _ hmem (by decide)
  have hkind : s.kind = "partition".toList ↔ s.isPartition := by
    unfold kind
    split <;> simp_all
  have hcut : s.cut = [s.path, s.kind, number s.size, number s.used, s.priorityText] := by
    rw [cut, Text.pieces_of_solid h hne]
    rfl
  constructor
  · rintro ⟨word, rest, hword, hdevice⟩
    rw [hcut, List.cons.injEq, List.cons.injEq] at hword
    obtain ⟨rfl, hpartition, -⟩ := hword
    exact ⟨hkind.mp hpartition, (Text.escape_eq_iff hback hplain).mp hdevice⟩
  · rintro ⟨hpartition, hpath⟩
    refine ⟨s.path, [number s.size, number s.used, s.priorityText], ?_,
      (Text.escape_eq_iff hback hplain).mpr hpath⟩
    rw [hcut, hkind.mpr hpartition]

theorem legible_of_unbroken (hmounts : ∀ r ∈ mounts, r.Unbroken)
    (hswaps : ∀ s ∈ swaps, s.Unbroken)
    (hnames : ∀ disk name, (disk, devNode name) ∈ usbNodes blockdevices → PlainName name) :
    Legible mounts swaps blockdevices := by
  intro disk device hmem
  obtain ⟨name, rfl⟩ := exists_name hmem
  have hname := hnames disk name hmem
  refine or_congr ?_ ?_
  · refine exists_congr fun r => and_congr_right fun hr => ?_
    exact MountRecord.shows_of_unbroken (hmounts r hr) hname
  · refine exists_congr fun s => and_congr_right fun hs => ?_
    exact SwapRecord.shows_of_unbroken (hswaps s hs) hname

/-- While every white space in the names of the tables is escaped, partitions with
plain names get the right roles. -/
theorem classifies_of_unbroken (hmounts : ∀ r ∈ mounts, r.Unbroken)
    (hswaps : ∀ s ∈ swaps, s.Unbroken)
    (hnames : ∀ disk name, (disk, devNode name) ∈ usbNodes blockdevices → PlainName name)
    (scaled : List Char → UInt64 → Option UInt64) :
    Classifies mounts swaps scaled blockdevices :=
  (legible_of_unbroken hmounts hswaps hnames).classifies scaled

end EvoAudio.Storage
