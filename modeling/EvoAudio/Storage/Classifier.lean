import EvoAudio.Lib.Escape

/-!
# Roles of USB partitions

`storage.usb/src/classifier.rs`: the mount table, the swap table and the tree of
`lsblk` are joined by device node, and every partition of a USB disk gets a role
and the mount policy of that role. The tree comes as the JSON library hands it
over; a size that is given as text is scaled by a floating-point product, which
is a parameter.
-/

namespace EvoAudio.Storage

inductive PartitionRole where
  | systemRoot | systemBoot | systemEfi | systemSwap | systemAdjacent | removable
  deriving DecidableEq

inductive MountPolicy where
  | auto | optInRequired | refusedSystemLive
  deriving DecidableEq

def PartitionRole.isSystemLive : PartitionRole → Bool
  | .systemRoot | .systemBoot | .systemEfi | .systemSwap => true
  | .systemAdjacent | .removable => false

def PartitionRole.defaultPolicy : PartitionRole → MountPolicy
  | .systemRoot | .systemBoot | .systemEfi | .systemSwap => .refusedSystemLive
  | .systemAdjacent => .optInRequired
  | .removable => .auto

structure ClassifiedPartition where
  deviceNode : List Char
  parentDisk : List Char
  partitionIndex : UInt32
  partitionCount : UInt32
  label : Option (List Char)
  uuid : Option (List Char)
  partuuid : Option (List Char)
  vendor : Option (List Char)
  model : Option (List Char)
  serialShort : Option (List Char)
  fsType : List Char
  sizeBytes : UInt64
  role : PartitionRole
  mountPolicy : MountPolicy
  currentMount : Option (List Char)
  deriving DecidableEq

inductive ClassifierError where
  | lsblkJson (text : List Char)
  | mountinfo (line : List Char)
  deriving DecidableEq

-- ---------------------------------------------------------------------------
-- The mount table
-- ---------------------------------------------------------------------------

structure MountEntry where
  deviceNode : List Char
  mountpoint : List Char
  deriving DecidableEq

def isAsciiDigit (b : UInt8) : Bool := Text.byte '0' ≤ b && b ≤ Text.byte '9'

/-- `b as char`. -/
def byteChar (b : UInt8) : Char := Char.ofNat b.toNat

/-- The value of three digits, in eight bits. -/
def octalValue (d1 d2 d3 : UInt8) : UInt8 :=
  (d1 - Text.byte '0') <<< 6 ||| (d2 - Text.byte '0') <<< 3 ||| (d3 - Text.byte '0')

def decodeBytes : List UInt8 → List Char
  | [] => []
  | b :: d1 :: d2 :: d3 :: rest =>
    if b = Text.byte '\\' ∧ isAsciiDigit d1 ∧ isAsciiDigit d2 ∧ isAsciiDigit d3 then
      byteChar (octalValue d1 d2 d3) :: decodeBytes rest
    else byteChar b :: decodeBytes (d1 :: d2 :: d3 :: rest)
  | b :: rest => byteChar b :: decodeBytes rest

def decodeMountinfoField (s : List Char) : List Char := decodeBytes (Text.encode s)

def mountEntry (line : List Char) : Except ClassifierError MountEntry :=
  let toks := Text.words line
  if toks.length < 7 then .error (.mountinfo line)
  else
    let mountpoint := decodeMountinfoField (toks.getD 4 [])
    match toks.findIdx? (· == ['-']) with
    | none => .error (.mountinfo line)
    | some p =>
      match toks[p + 2]? with
      | none => .error (.mountinfo line)
      | some source => .ok ⟨decodeMountinfoField source, mountpoint⟩

def parseMountinfo (text : List Char) : Except ClassifierError (List MountEntry) :=
  ((Text.lines text).filter fun line => !(Text.trim line).isEmpty).mapM mountEntry

-- ---------------------------------------------------------------------------
-- The swap table
-- ---------------------------------------------------------------------------

/-- Column 0 of an entry for a partition. A blank line has no columns. -/
def swapDevice (line : List Char) : Option (List Char) :=
  match Text.words line with
  | device :: kind :: _ => if kind = "partition".toList then some device else none
  | _ => none

def parseSwaps (text : List Char) : List (List Char) :=
  ((Text.lines text).drop 1).filterMap swapDevice

def classifySystemMount (mountpoints : List (List Char)) : Option PartitionRole :=
  if mountpoints.contains "/".toList then some .systemRoot
  else if mountpoints.contains "/boot/efi".toList then some .systemEfi
  else if mountpoints.contains "/boot".toList || mountpoints.contains "/boot/firmware".toList then
    some .systemBoot
  else none

-- ---------------------------------------------------------------------------
-- The tree of devices
-- ---------------------------------------------------------------------------

/-- A JSON value as the size field meets it. -/
inductive SizeValue where
  | integer (n : UInt64)
  | text (s : List Char)
  | other

structure LsblkNode where
  name : List Char
  tran : Option (List Char)
  nodeType : Option (List Char)
  uuid : Option (List Char)
  label : Option (List Char)
  fstype : Option (List Char)
  partuuid : Option (List Char)
  vendor : Option (List Char)
  model : Option (List Char)
  serial : Option (List Char)
  size : Option SizeValue
  children : List LsblkNode

structure UsbPartition where
  deviceNode : List Char
  parentDisk : List Char
  partitionIndex : UInt32
  partitionCount : UInt32
  label : Option (List Char)
  uuid : Option (List Char)
  partuuid : Option (List Char)
  vendor : Option (List Char)
  model : Option (List Char)
  serialShort : Option (List Char)
  fsType : List Char
  sizeBytes : UInt64

def devNode (name : List Char) : List Char := "/dev/".toList ++ name

/-- A text field of a disk, where a blank one counts as absent. -/
def trimmed (field : Option (List Char)) : Option (List Char) :=
  (field.map Text.trim).filter (!·.isEmpty)

def parsePartitionIndex (name : List Char) : Option UInt32 :=
  let digits := (name.reverse.takeWhile Char.isDigit).reverse
  if digits = [] then none else Text.parseU32 digits

def splitNumSuffix (s : List Char) : List Char × List Char :=
  let number := s.takeWhile fun c => c.isDigit || c == '.' || c == '-'
  (number, Text.trim (s.drop number.length))

def sizeUnit (suffix : List Char) : Option UInt64 :=
  if ["".toList, "B".toList].contains suffix then some 1
  else if ["K".toList, "KB".toList, "KiB".toList].contains suffix then some 1024
  else if ["M".toList, "MB".toList, "MiB".toList].contains suffix then some (1024 * 1024)
  else if ["G".toList, "GB".toList, "GiB".toList].contains suffix then some (1024 * 1024 * 1024)
  else if ["T".toList, "TB".toList, "TiB".toList].contains suffix then
    some (1024 * 1024 * 1024 * 1024)
  else if ["P".toList, "PB".toList, "PiB".toList].contains suffix then
    some (1024 * 1024 * 1024 * 1024 * 1024)
  else none

section Scaled

-- The number of a text as an `f64`, times a unit, as a `u64`; `none` where the
-- text is no number.
variable (scaled : List Char → UInt64 → Option UInt64)

def parseHumanSize (s : List Char) : Option UInt64 :=
  let s := Text.trim s
  if s = [] then none
  else
    let (number, suffix) := splitNumSuffix s
    (sizeUnit suffix).bind (scaled number)

def sizeToBytes : SizeValue → Option UInt64
  | .integer n => some n
  | .text s => parseHumanSize scaled s
  | .other => none

def LsblkNode.isUsb (disk : LsblkNode) : Bool := disk.tran = some "usb".toList

def LsblkNode.isPart (node : LsblkNode) : Bool := node.nodeType = some "part".toList

/-- The partition of a disk at a place among the disk's partitions. -/
def usbPartition (disk : LsblkNode) (count i : Nat) (child : LsblkNode) : UsbPartition where
  deviceNode := devNode child.name
  parentDisk := devNode disk.name
  partitionIndex := (parsePartitionIndex child.name).getD (UInt32.ofNat (i + 1))
  partitionCount := UInt32.ofNat count
  label := child.label
  uuid := child.uuid
  partuuid := child.partuuid
  vendor := trimmed disk.vendor
  model := trimmed disk.model
  serialShort := trimmed disk.serial
  fsType := child.fstype.getD []
  sizeBytes := (child.size.bind (sizeToBytes scaled)).getD 0

def collectUsbPartitions (blockdevices : List LsblkNode) : List UsbPartition :=
  (blockdevices.filter LsblkNode.isUsb).flatMap fun disk =>
    let mountablePartitions := disk.children.filter LsblkNode.isPart
    mountablePartitions.mapIdx (usbPartition scaled disk mountablePartitions.length)

-- ---------------------------------------------------------------------------
-- The classifier
-- ---------------------------------------------------------------------------

def mountpointsOf (mounts : List MountEntry) (device : List Char) : List (List Char) :=
  (mounts.filter (·.deviceNode = device)).map MountEntry.mountpoint

/-- The role of the first pass. -/
def systemRole (mounts : List MountEntry) (swapDevices : List (List Char))
    (device : List Char) : Option PartitionRole :=
  if swapDevices.contains device then some .systemSwap
  else classifySystemMount (mountpointsOf mounts device)

/-- The role of the second pass. -/
def finalRole (systemParentDisks : List (List Char)) (parentDisk : List Char) :
    Option PartitionRole → PartitionRole
  | some role => role
  | none => if systemParentDisks.contains parentDisk then .systemAdjacent else .removable

def UsbPartition.compose (part : UsbPartition) (role : PartitionRole)
    (currentMount : Option (List Char)) : ClassifiedPartition where
  deviceNode := part.deviceNode
  parentDisk := part.parentDisk
  partitionIndex := part.partitionIndex
  partitionCount := part.partitionCount
  label := part.label
  uuid := part.uuid
  partuuid := part.partuuid
  vendor := part.vendor
  model := part.model
  serialShort := part.serialShort
  fsType := part.fsType
  sizeBytes := part.sizeBytes
  role := role
  mountPolicy := role.defaultPolicy
  currentMount := currentMount

/-- Both passes over the partitions. The first one notes the disks with a live
system partition, which the second one reads. -/
def classifyPartitions (mounts : List MountEntry) (swapDevices : List (List Char))
    (parts : List UsbPartition) : List ClassifiedPartition :=
  let role := fun part : UsbPartition => systemRole mounts swapDevices part.deviceNode
  let systemParentDisks := (parts.filter fun part => (role part).isSome).map (·.parentDisk)
  parts.map fun part =>
    part.compose (finalRole systemParentDisks part.parentDisk (role part))
      (mountpointsOf mounts part.deviceNode).head?

def classify (mountinfo swaps : List Char) (lsblk : Except (List Char) (List LsblkNode)) :
    Except ClassifierError (List ClassifiedPartition) := do
  let mounts ← parseMountinfo mountinfo
  let swapDevices := parseSwaps swaps
  let devices ← lsblk.mapError .lsblkJson
  return classifyPartitions mounts swapDevices (collectUsbPartitions scaled devices)

end Scaled

end EvoAudio.Storage
