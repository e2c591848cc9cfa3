import EvoAudio.Lib.Table
import EvoAudio.Lib.Text
import Mathlib.Data.Finset.Basic
import Mathlib.Data.Finset.Dedup

/-!
# The resolve index

`ArtworkResolveIndex` of `evo-device-audio-http/src/artwork_resolve_index.rs`
keeps one small file for each target and size, with the content hash of the
artwork and the version of the rules that chose it. Any of its calls can fail;
whether one does is an argument of the call here.
-/

namespace EvoAudio.Artwork

structure IndexHit where
  hash : List Char
  version : Nat
  deriving DecidableEq, Repr

/-- `LEGACY_ENTRY_VERSION`. -/
def legacyEntryVersion : Nat := 0

def isValidContentHash (s : List Char) : Bool :=
  s.length == 64 && s.all fun c => c.isDigit || (decide ('a' ≤ c) && decide (c ≤ 'f'))

/-- The content of a file: a `StoredEntry`, or a text that does not parse as one. -/
inductive Body where
  | stored (version : Nat) (hash : List Char)
  | text (raw : List Char)
  deriving DecidableEq, Repr

def Body.hit : Body → Option IndexHit
  | .stored version hash => if isValidContentHash hash then some ⟨hash, version⟩ else none
  | .text raw =>
    if isValidContentHash (Text.trim raw) then some ⟨Text.trim raw, legacyEntryVersion⟩ else none

/-- The text whose SHA-256 names the file of a target and size. Two texts are
taken to have two digests, and the text stands for its digest. -/
def keyHash (scheme value size : List Char) : List Char :=
  scheme ++ '\x1F' :: (value ++ '\x1F' :: size)

theorem keyHash_inj : keyHash scheme value size = keyHash scheme value size' ↔ size = size' := by
  simp [keyHash]

inductive File where
  | entry (key : List Char)
  /-- The `.tmp` beside it that `put` writes first. -/
  | temp (key : List Char)
  deriving DecidableEq, Repr

structure Index where
  files : AList fun _ : File => Body

-- ---------------------------------------------------------------------------
-- Sizes
-- ---------------------------------------------------------------------------

/-- `SIZE_FALLBACK_ORDER`. -/
def sizeFallbackOrder : List (List Char) :=
  ["original".toList, "large".toList, "medium".toList, "small".toList]

def sizeRank (size : List Char) : Option Nat :=
  sizeFallbackOrder.findIdx? (· = size)

/-- A stored size may stand in for a smaller one only. -/
def downscales (want candidate : List Char) : Bool :=
  match sizeRank want, sizeRank candidate with
  | some w, some c => c ≤ w
  | _, _ => false

-- ---------------------------------------------------------------------------
-- Calls
-- ---------------------------------------------------------------------------

/-- The step at which a `put` fails. -/
inductive PutFault where
  | directory
  | write
  | rename
  deriving DecidableEq, Repr

namespace Index

def get (fails : Bool) (index : Index) (key : List Char) : Option IndexHit :=
  if fails then none else (index.files.lookup (.entry key)).bind Body.hit

/-- The hit, with the size it is stored under. -/
def getAnySize (fails : List Char → Bool) (index : Index) (scheme value preferred : List Char) :
    Option (IndexHit × List Char) :=
  match index.get (fails preferred) (keyHash scheme value preferred) with
  | some hit => some (hit, preferred)
  | none => sizeFallbackOrder.findSome? fun candidate =>
      if candidate = preferred || !downscales preferred candidate then none
      else (index.get (fails candidate) (keyHash scheme value candidate)).map (·, candidate)

def put (fault : Option PutFault) (index : Index) (key contentHash : List Char) (version : Nat) :
    Index :=
  if isValidContentHash contentHash then
    match fault with
    | none => ⟨(index.files.erase (.temp key)).insert (.entry key) (.stored version contentHash)⟩
    | some .directory => index
    | some .write => ⟨index.files.insert (.temp key) (.text [])⟩
    | some .rename => ⟨index.files.insert (.temp key) (.stored version contentHash)⟩
  else index

/-- `none` is an error, and `some false` a file that was not there. -/
def forget (fails : Bool) (index : Index) (key : List Char) : Index × Option Bool :=
  if fails then (index, none)
  else if .entry key ∈ index.files then (⟨index.files.erase (.entry key)⟩, some true)
  else (index, some false)

/-- What goes wrong in a sweep: directories that cannot be listed, files that
cannot be read and files that cannot be removed. -/
structure SweepFaults where
  rootFails : Bool
  unlisted : File → Bool
  readFails : File → Bool
  removeFails : File → Bool

def SweepFaults.removes (faults : SweepFaults) (file : File) : Bool :=
  !faults.rootFails && !faults.unlisted file && !faults.removeFails file

/-- The index that is left, and the hashes the removed files pointed at. -/
def dropAll (faults : SweepFaults) (index : Index) : Index × Finset (List Char) :=
  (⟨Table.retain (fun file => !faults.removes file) index.files⟩,
    (index.files.entries.filterMap fun entry =>
      if faults.removes entry.1 && !faults.readFails entry.1 then entry.2.hit.map IndexHit.hash
      else none).toFinset)

variable {index : Index} {key key' : List Char}

theorem get_put (fault : Option PutFault) (index : Index) (key key' contentHash : List Char)
    (version : Nat) :
    (index.put fault key contentHash version).get false key' =
      if key' = key ∧ fault = none ∧ isValidContentHash contentHash then
        some ⟨contentHash, version⟩
      else index.get false key' := by
  unfold put
  cases hvalid : isValidContentHash contentHash
  · simp
  · cases fault with
    | none =>
      rcases eq_or_ne key' key with rfl | hkey
      · simp [get, Body.hit, hvalid]
      · have hne : File.entry key' ≠ .entry key := by simpa using hkey
        simp [get, hkey, AList.lookup_insert_ne hne]
    | some fault => cases fault <;> simp [get, AList.lookup_insert_ne]

theorem get_forget (fails : Bool) (index : Index) (key key' : List Char) :
    (index.forget fails key).1.get false key' =
      if key' = key ∧ fails = false then none else index.get false key' := by
  unfold forget
  cases fails
  · by_cases hmem : File.entry key ∈ index.files
    · rcases eq_or_ne key' key with rfl | hkey
      · simp [get, hmem]
      · have hne : File.entry key' ≠ .entry key := by simpa using hkey
        simp [get, hmem, hkey, AList.lookup_erase_ne hne]
    · rcases eq_or_ne key' key with rfl | hkey
      · simp [get, hmem, AList.lookup_eq_none.mpr hmem]
      · simp [hmem, hkey]
  · simp

theorem get_dropAll (faults : SweepFaults) (index : Index) (key : List Char) :
    (index.dropAll faults).1.get false key =
      if faults.removes (.entry key) then none else index.get false key := by
  simp only [dropAll, get, Table.lookup_retain]
  cases faults.removes (.entry key) <;> simp

end Index

end EvoAudio.Artwork
