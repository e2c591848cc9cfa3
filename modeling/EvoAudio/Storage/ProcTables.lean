import EvoAudio.Storage.Classifier

/-!
# The tables of the kernel

`/proc/self/mountinfo` and `/proc/swaps` as the kernel prints them of its mounts
and swap areas: one line each, with the space, the tab, the newline and the
backslash of a name as octal escapes. Every other character stands in the line
as it is, other white space included, at which the classifier cuts names apart:
`cut` is a line's fields as they then are, before the escapes.
-/

namespace EvoAudio.Storage

/-- What `mangle_path` escapes in a path. -/
def pathEscapes : List Char := [' ', '\t', '\n', '\\']

/-- What `mangle` escapes in the type and the source of a mount. -/
def nameEscapes : List Char := [' ', '\t', '\n', '\\', '#']

def number (n : Nat) : List Char := Nat.toDigits 10 n

/-- The bytes of a text, each as the character of its value. -/
def latin1 (s : List Char) : List Char := (Text.encode s).map byteChar

/-- Where the system's own partitions are mounted. -/
def systemPaths : List (List Char) :=
  ["/".toList, "/boot/efi".toList, "/boot".toList, "/boot/firmware".toList]

-- ---------------------------------------------------------------------------
-- Mounts
-- ---------------------------------------------------------------------------

inductive MountFlag where
  | nosuid | nodev | noexec | noatime | nodiratime | relatime | nosymfollow
  deriving DecidableEq

def MountFlag.text : MountFlag → List Char
  | .nosuid => ",nosuid".toList
  | .nodev => ",nodev".toList
  | .noexec => ",noexec".toList
  | .noatime => ",noatime".toList
  | .nodiratime => ",nodiratime".toList
  | .relatime => ",relatime".toList
  | .nosymfollow => ",nosymfollow".toList

inductive OptionalField where
  | shared (peers : Nat)
  | master (peers : Nat)
  | propagateFrom (peers : Nat)
  | unbindable
  deriving DecidableEq

def OptionalField.text : OptionalField → List Char
  | .shared peers => "shared:".toList ++ number peers
  | .master peers => "master:".toList ++ number peers
  | .propagateFrom peers => "propagate_from:".toList ++ number peers
  | .unbindable => "unbindable".toList

def accessText (readOnly : Bool) : List Char := if readOnly then "ro".toList else "rw".toList

/-- A mount. A file system prints its own options, escaped by itself. -/
structure MountRecord where
  mountId : Nat
  parentId : Nat
  major : Nat
  minor : Nat
  root : List Char
  mountPoint : List Char
  readOnly : Bool
  flags : List MountFlag
  optionalFields : List OptionalField
  fsType : List Char
  source : List Char
  superReadOnly : Bool
  superOptions : List Char
  root_named : root ≠ [] ∧ root ≠ ['-']
  mountPoint_absolute : mountPoint.head? = some '/'
  fsType_named : ∃ c ∈ fsType, Text.isWhitespace c = false
  superOptions_line : '\n' ∉ superOptions

namespace MountRecord

def deviceNumber (r : MountRecord) : List Char := number r.major ++ ':' :: number r.minor

def options (r : MountRecord) : List Char := accessText r.readOnly ++ r.flags.flatMap MountFlag.text

def superText (r : MountRecord) : List Char := accessText r.superReadOnly ++ r.superOptions

/-- The fields up to the source. -/
def fields (r : MountRecord) : List (List Char) :=
  [number r.mountId, number r.parentId, r.deviceNumber, Text.escape pathEscapes r.root,
    Text.escape pathEscapes r.mountPoint, r.options] ++
  r.optionalFields.map OptionalField.text ++
  [['-'], Text.escape nameEscapes r.fsType, Text.escape nameEscapes r.source]

def line (r : MountRecord) : List Char := Text.unfields (r.fields ++ [r.superText])

/-- The words of each field, cut at unescaped white space. -/
def parts (r : MountRecord) : List (List (List Char)) :=
  [[number r.mountId], [number r.parentId], [r.deviceNumber], Text.pieces pathEscapes r.root,
    Text.pieces pathEscapes r.mountPoint, [r.options]] ++
  r.optionalFields.map (fun field => [field.text]) ++
  [[['-']], Text.pieces nameEscapes r.fsType, Text.pieces nameEscapes r.source]

def cut (r : MountRecord) : List (List Char) := r.parts.flatten

/-- What stands two places behind the first hyphen. -/
def sourceWord (r : MountRecord) : Option (List Char) :=
  (r.cut.findIdx? (· == ['-'])).bind fun p => r.cut[p + 2]?

/-- The line has a system path at its fifth place and the device behind its
first hyphen. -/
def Shows (r : MountRecord) (device : List Char) : Prop :=
  (∃ path ∈ systemPaths, r.cut[4]? = some path) ∧
    ∃ word, r.sourceWord = some word ∧ latin1 word = device

end MountRecord

def mountTable (mounts : List MountRecord) : List Char :=
  Text.unlines (mounts.map MountRecord.line)

-- ---------------------------------------------------------------------------
-- Swap areas
-- ---------------------------------------------------------------------------

structure SwapRecord where
  path : List Char
  isPartition : Bool
  size : Nat
  used : Nat
  priority : Int
  path_absolute : path.head? = some '/'

namespace SwapRecord

def kind (s : SwapRecord) : List Char :=
  if s.isPartition then "partition".toList else "file".toList

def priorityText (s : SwapRecord) : List Char :=
  if s.priority < 0 then '-' :: number s.priority.natAbs else number s.priority.natAbs

/-- The second tab behind a number that is short. -/
def tabs (n : Nat) : List Char := if n < 10000000 then ['\t', '\t'] else ['\t']

/-- The path is padded to forty columns. -/
def line (s : SwapRecord) : List Char :=
  let name := Text.escape pathEscapes s.path
  name ++ (List.replicate (max 1 (40 - (Text.encode name).length)) ' ' ++
    (s.kind ++ ((if s.isPartition then ['\t'] else ['\t', '\t']) ++
      (number s.size ++ (tabs s.size ++ (number s.used ++ (tabs s.used ++ s.priorityText)))))))

/-- The fields, cut at unescaped white space. -/
def cut (s : SwapRecord) : List (List Char) :=
  Text.pieces pathEscapes s.path ++ [s.kind, number s.size, number s.used, s.priorityText]

/-- The line has the device in its first column and the word for a partition in
its second one. The column is compared with the escapes in it. -/
def Shows (s : SwapRecord) (device : List Char) : Prop :=
  ∃ word rest, s.cut = word :: "partition".toList :: rest ∧
    Text.escape pathEscapes word = device

end SwapRecord

def swapHeader : List Char := "Filename\t\t\t\tType\t\tSize\t\tUsed\t\tPriority".toList

def swapTable (swaps : List SwapRecord) : List Char :=
  Text.unlines (swapHeader :: swaps.map SwapRecord.line)

end EvoAudio.Storage
