import EvoAudio.Artwork.Index

/-!
# Index rows and the bytes they point at

The bytes of an artwork are stored under their content hash, once for all the
targets and sizes that have it. The operations of `ArtworkCascade` evict rows of
the index one by one and delete the bytes of each: `forget`, `forget_target`,
`forget_everything`, and `resolve` where it meets a row of other rules. The two
memos that they clear as well are left to the runs of the cascade.
-/

namespace EvoAudio.Artwork

/-- `CASCADE_LOGIC_VERSION`. -/
def cascadeLogicVersion : Nat := 1

/-- `FORGET_SIZE_FANOUT`. -/
def forgetSizeFanout : List (List Char) :=
  ["small".toList, "medium".toList, "large".toList, "original".toList]

def provenanceResolveIndex : List Char := "resolve_index".toList

structure Stores where
  index : Index
  /-- The hashes whose bytes are in the asset cache. -/
  assets : Finset (List Char)

/-- Which of its stores the cascade was given. -/
structure Wiring where
  index : Bool
  cache : Bool
  deriving DecidableEq, Repr

/-- Which calls fail where one size is evicted. -/
structure SizeFaults where
  readFails : Bool
  removeFails : Bool
  deleteFails : Bool
  deriving DecidableEq, Repr

/-- Which calls fail where a row of the index is about to be served. -/
structure HitFaults where
  evict : SizeFaults
  hasFails : Bool
  removeFails : Bool
  deriving DecidableEq, Repr

structure ResolveFaults where
  readFails : Bool
  exact : HitFaults
  readAnyFails : List Char → Bool
  any : HitFaults
  put : Option PutFault

/-- What an operator is told of a clear gesture. -/
structure ArtworkForgetOutcome where
  scope : List Char
  indexEntriesRemoved : Nat
  assetsDeleted : Nat
  pluginCleared : Bool
  pluginDetail : Option (List Char)
  deriving DecidableEq, Repr

/-- `AssetCache::delete`: `none` is an error. -/
def deleteAsset (fails : Bool) (assets : Finset (List Char)) (hash : List Char) :
    Finset (List Char) × Option Bool :=
  if fails then (assets, none) else (assets.erase hash, some (hash ∈ assets))

section Operations

variable (wiring : Wiring)

/-- The stores with one size of a target evicted, and how many rows and how many
bytes went. -/
def forgetOneSize (faults : SizeFaults) (s : Stores) (key : List Char) : Stores × Nat × Nat :=
  if wiring.index then
    let hash := (s.index.get faults.readFails key).map IndexHit.hash
    let forgotten := s.index.forget faults.removeFails key
    let indexEntries := if forgotten.2 = some true then 1 else 0
    match hash with
    | some hash =>
      if wiring.cache then
        let deleted := deleteAsset faults.deleteFails s.assets hash
        (⟨forgotten.1, deleted.1⟩, indexEntries, if deleted.2 = some true then 1 else 0)
      else (⟨forgotten.1, s.assets⟩, indexEntries, 0)
    | none => (⟨forgotten.1, s.assets⟩, indexEntries, 0)
  else (s, 0, 0)

/-- The fan-out, and the size asked for where it is not in it. -/
def forgottenSizes (size : List Char) : List (List Char) :=
  forgetSizeFanout ++ if forgetSizeFanout.contains size then [] else [size]

def forgetSizes (faults : List Char → SizeFaults) (scheme value : List Char) :
    Stores → List (List Char) → Stores × Nat × Nat
  | s, [] => (s, 0, 0)
  | s, size :: sizes =>
    let one := forgetOneSize wiring (faults size) s (keyHash scheme value size)
    let rest := forgetSizes faults scheme value one.1 sizes
    (rest.1, one.2.1 + rest.2.1, one.2.2 + rest.2.2)

def forget (faults : List Char → SizeFaults) (s : Stores) (scheme value size : List Char) :
    Stores × Nat × Nat :=
  forgetSizes wiring faults scheme value s (forgottenSizes size)

/-- `plugin` is what `clear_plugin_caches` returns. -/
def forgetTarget (faults : List Char → SizeFaults) (plugin : Except (List Char) Unit)
    (s : Stores) (scheme value : List Char) : Stores × ArtworkForgetOutcome :=
  let forgotten := forget wiring faults s scheme value "large".toList
  (forgotten.1, ⟨"targeted".toList, forgotten.2.1, forgotten.2.2, plugin.isOk,
    match plugin with
    | .ok _ => none
    | .error detail => some detail⟩)

def forgetEverything (faults : Index.SweepFaults) (deleteFails : List Char → Bool)
    (plugin : Except (List Char) Unit) (s : Stores) : Stores × ArtworkForgetOutcome :=
  let detail := match plugin with
    | .ok _ => none
    | .error detail => some detail
  if wiring.index then
    let dropped := s.index.dropAll faults
    if wiring.cache then
      let deleted := dropped.2.filter fun hash => deleteFails hash = false
      (⟨dropped.1, s.assets \ deleted⟩, ⟨"all".toList, dropped.2.card,
        (s.assets ∩ deleted).card, plugin.isOk, detail⟩)
    else (⟨dropped.1, s.assets⟩, ⟨"all".toList, dropped.2.card, 0, plugin.isOk, detail⟩)
  else (s, ⟨"all".toList, 0, 0, plugin.isOk, detail⟩)

def indexEntryBytesPresent (faults : HitFaults) (s : Stores) (key hash : List Char) :
    Stores × Bool :=
  if wiring.cache && !faults.hasFails && !decide (hash ∈ s.assets) then
    (⟨(s.index.forget faults.removeFails key).1, s.assets⟩, false)
  else (s, true)

/-- A row of other rules is evicted, one whose bytes are gone is dropped, and any
other is served. -/
def serveHit (faults : HitFaults) (s : Stores) (key : List Char) (hit : IndexHit) :
    Stores × Bool :=
  if hit.version ≠ cascadeLogicVersion then ((forgetOneSize wiring faults.evict s key).1, false)
  else indexEntryBytesPresent wiring faults s key hit.hash

def serveExact (faults : ResolveFaults) (s : Stores) (scheme value size : List Char) :
    Stores × Option (List Char × List Char) :=
  match s.index.get faults.readFails (keyHash scheme value size) with
  | some hit =>
    let served := serveHit wiring faults.exact s (keyHash scheme value size) hit
    (served.1, if served.2 then some (hit.hash, provenanceResolveIndex) else none)
  | none => (s, none)

def serveAnySize (faults : ResolveFaults) (s : Stores) (scheme value size : List Char) :
    Stores × Option (List Char × List Char) :=
  match s.index.getAnySize faults.readAnyFails scheme value size with
  | some (hit, servedSize) =>
    let served := serveHit wiring faults.any s (keyHash scheme value servedSize) hit
    let provenance :=
      if servedSize = size then provenanceResolveIndex
      else provenanceResolveIndex ++ ":size_fallback:".toList ++ servedSize
    (served.1, if served.2 then some (hit.hash, provenance) else none)
  | none => (s, none)

/-- The fast path over the index; `none` goes on to the providers. -/
def serveIndex (faults : ResolveFaults) (s : Stores) (scheme value size : List Char) :
    Stores × Option (List Char × List Char) :=
  if wiring.index then
    let exact := serveExact wiring faults s scheme value size
    match exact.2 with
    | some answer => (exact.1, some answer)
    | none => serveAnySize wiring faults exact.1 scheme value size
  else (s, none)

def rememberPositive (fault : Option PutFault) (s : Stores) (key contentHash : List Char) :
    Stores :=
  if wiring.index then
    { s with index := s.index.put fault key contentHash cascadeLogicVersion }
  else s

/-- `fetched` is what the coalescer returns: the hash, with the provider, of bytes
that the provider has stored. -/
def resolve (faults : ResolveFaults) (fetched : Option (List Char × Option (List Char)))
    (s : Stores) (scheme value size : List Char) :
    Stores × Option (List Char × Option (List Char)) :=
  let indexed := serveIndex wiring faults s scheme value size
  match indexed.2 with
  | some answer => (indexed.1, some (answer.1, some answer.2))
  | none =>
    match fetched with
    | some (contentHash, provider) =>
      (rememberPositive wiring faults.put
        { indexed.1 with assets := insert contentHash indexed.1.assets }
        (keyHash scheme value size) contentHash, some (contentHash, provider))
    | none => (indexed.1, none)

end Operations

inductive Operation where
  | resolve (scheme value size : List Char) (faults : ResolveFaults)
      (fetched : Option (List Char × Option (List Char)))
  /-- The eviction of one row by `resolve`. -/
  | evict (scheme value size : List Char) (faults : SizeFaults)
  | forget (scheme value size : List Char) (faults : List Char → SizeFaults)
  | forgetTarget (scheme value : List Char) (faults : List Char → SizeFaults)
      (plugin : Except (List Char) Unit)
  | forgetEverything (faults : Index.SweepFaults) (deleteFails : List Char → Bool)
      (plugin : Except (List Char) Unit)

def Operation.run (wiring : Wiring) (s : Stores) : Operation → Stores
  | .resolve scheme value size faults fetched =>
    (Artwork.resolve wiring faults fetched s scheme value size).1
  | .evict scheme value size faults =>
    (forgetOneSize wiring faults s (keyHash scheme value size)).1
  | .forget scheme value size faults => (Artwork.forget wiring faults s scheme value size).1
  | .forgetTarget scheme value faults plugin =>
    (Artwork.forgetTarget wiring faults plugin s scheme value).1
  | .forgetEverything faults deleteFails plugin =>
    (Artwork.forgetEverything wiring faults deleteFails plugin s).1

-- ---------------------------------------------------------------------------
-- Rows taken out and bytes deleted
-- ---------------------------------------------------------------------------

namespace Stores

variable {s s' s'' : Stores} {gone gone' : List Char → Prop} {lost lost' : List Char → Prop}

def row (s : Stores) (key : List Char) : Option IndexHit := s.index.get false key

/-- Every row points at bytes that are there. -/
def NoDangling (s : Stores) : Prop :=
  ∀ key hit, s.row key = some hit → hit.hash ∈ s.assets

/-- Rows have gone and bytes were lost, and nothing else has changed. -/
structure Loses (s s' : Stores) (gone lost : List Char → Prop) : Prop where
  row : ∀ key hit, s'.row key = some hit ↔ s.row key = some hit ∧ ¬gone key
  assets : ∀ hash, hash ∈ s'.assets ↔ hash ∈ s.assets ∧ ¬lost hash

theorem Loses.refl (s : Stores) : s.Loses s (fun _ => False) fun _ => False :=
  ⟨by simp, by simp⟩

theorem Loses.trans (h : s.Loses s' gone lost) (h' : s'.Loses s'' gone' lost') :
    s.Loses s'' (fun key => gone key ∨ gone' key) fun hash => lost hash ∨ lost' hash where
  row := fun key hit => by rw [h'.row, h.row, not_or, and_assoc]
  assets := fun hash => by rw [h'.assets, h.assets, not_or, and_assoc]

theorem Loses.congr (h : s.Loses s' gone lost) (hgone : ∀ key, gone key ↔ gone' key)
    (hlost : ∀ hash, lost hash ↔ lost' hash) : s.Loses s' gone' lost' where
  row := fun key hit => by rw [h.row, hgone]
  assets := fun hash => by rw [h.assets, hlost]

/-- What is left has no dangling row exactly when the rows of lost bytes are gone too. -/
theorem Loses.noDangling_iff (hs : s.NoDangling) (h : s.Loses s' gone lost) :
    s'.NoDangling ↔ ∀ key hit, s.row key = some hit → lost hit.hash → gone key := by
  constructor
  · intro hs' key hit hrow hlost
    by_contra hgone
    exact ((h.assets hit.hash).mp (hs' key hit ((h.row key hit).mpr ⟨hrow, hgone⟩))).2 hlost
  · intro hcond key hit hrow'
    obtain ⟨hrow, hkept⟩ := (h.row key hit).mp hrow'
    exact (h.assets hit.hash).mpr ⟨hs key hit hrow, fun hlost => hkept (hcond key hit hrow hlost)⟩

end Stores

-- ---------------------------------------------------------------------------
-- One row
-- ---------------------------------------------------------------------------

section Evictions

variable (wiring : Wiring)

/-- The row that an eviction of one size takes out. -/
def SizeFaults.Removes (faults : SizeFaults) (key key' : List Char) : Prop :=
  wiring.index = true ∧ key' = key ∧ faults.removeFails = false

/-- The bytes that it deletes, whether or not the row could be taken out. -/
def SizeFaults.Deletes (faults : SizeFaults) (s : Stores) (key hash : List Char) : Prop :=
  wiring.index = true ∧ wiring.cache = true ∧ faults.readFails = false ∧
    faults.deleteFails = false ∧ ∃ hit, s.row key = some hit ∧ hit.hash = hash

theorem get_fails (fails : Bool) (index : Index) (key : List Char) :
    index.get fails key = if fails then none else index.get false key := by
  cases fails <;> simp [Index.get]

theorem row_forget (fails : Bool) (s : Stores) (assets : Finset (List Char)) (key key' : List Char)
    (hit : IndexHit) :
    (⟨(s.index.forget fails key).1, assets⟩ : Stores).row key' = some hit ↔
      s.row key' = some hit ∧ ¬(key' = key ∧ fails = false) := by
  change (s.index.forget fails key).1.get false key' = some hit ↔ _
  rw [Index.get_forget]
  split
  · rename_i h
    simp [h]
  · rename_i h
    simp [h, Stores.row]

theorem mem_deleteAsset (fails : Bool) (assets : Finset (List Char)) (hash hash' : List Char) :
    hash' ∈ (deleteAsset fails assets hash).1 ↔
      hash' ∈ assets ∧ ¬(fails = false ∧ hash = hash') := by
  cases fails
  · simp [deleteAsset, and_comm, eq_comm]
  · simp [deleteAsset]

theorem loses_forgetOneSize (faults : SizeFaults) (s : Stores) (key : List Char) :
    s.Loses (forgetOneSize wiring faults s key).1 (faults.Removes wiring key)
      (faults.Deletes wiring s key) := by
  unfold forgetOneSize SizeFaults.Removes SizeFaults.Deletes
  cases hindex : wiring.index
  · exact (Stores.Loses.refl s).congr (by simp) (by simp)
  · rw [get_fails]
    cases hread : faults.readFails
    · cases hrow : s.index.get false key with
      | none =>
        have hrow : s.row key = none := hrow
        exact ⟨fun key' hit => by simp [row_forget], fun hash => by simp [hrow]⟩
      | some hit =>
        have hrow : s.row key = some hit := hrow
        cases hcache : wiring.cache
        · exact ⟨fun key' hit => by simp [row_forget], fun hash => by simp⟩
        · exact ⟨fun key' hit => by simp [row_forget],
            fun hash => by simp [mem_deleteAsset, hrow]⟩
    · exact ⟨fun key' hit => by simp [row_forget], fun hash => by simp⟩

/-- The row that goes where a hit is served: an evicted one, or one whose bytes
were missing. -/
def HitFaults.Removes (faults : HitFaults) (s : Stores) (key : List Char) (hit : IndexHit)
    (key' : List Char) : Prop :=
  if hit.version ≠ cascadeLogicVersion then faults.evict.Removes wiring key key'
  else wiring.cache = true ∧ faults.hasFails = false ∧ hit.hash ∉ s.assets ∧
    key' = key ∧ faults.removeFails = false

def HitFaults.Deletes (faults : HitFaults) (s : Stores) (key : List Char) (hit : IndexHit)
    (hash : List Char) : Prop :=
  hit.version ≠ cascadeLogicVersion ∧ faults.evict.Deletes wiring s key hash

theorem loses_serveHit (faults : HitFaults) (s : Stores) (key : List Char) (hit : IndexHit) :
    s.Loses (serveHit wiring faults s key hit).1 (faults.Removes wiring s key hit)
      (faults.Deletes wiring s key hit) := by
  unfold serveHit HitFaults.Removes HitFaults.Deletes
  by_cases hversion : hit.version = cascadeLogicVersion
  · simp only [hversion, ne_eq, not_true_eq_false, if_false, false_and]
    unfold indexEntryBytesPresent
    split
    · rename_i habsent
      obtain ⟨⟨hcache, hprobe⟩, hbytes⟩ :
          (wiring.cache = true ∧ faults.hasFails = false) ∧ hit.hash ∉ s.assets := by
        simpa using habsent
      exact ⟨fun key' other => by simp [row_forget, hcache, hprobe, hbytes], fun hash => by simp⟩
    · rename_i hpresent
      refine (Stores.Loses.refl s).congr (fun key' => ?_) (fun _ => Iff.rfl)
      constructor
      · exact False.elim
      · rintro ⟨hcache, hprobe, hbytes, -⟩
        simp [hcache, hprobe, hbytes] at hpresent
  · simpa [hversion] using loses_forgetOneSize wiring faults.evict s key

-- ---------------------------------------------------------------------------
-- Whole operations
-- ---------------------------------------------------------------------------

theorem row_forgetOneSize_of_ne (faults : SizeFaults) (s : Stores) (hne : key' ≠ key)
    (hit : IndexHit) :
    (forgetOneSize wiring faults s key).1.row key' = some hit ↔ s.row key' = some hit := by
  rw [(loses_forgetOneSize wiring faults s key).row]
  simp [SizeFaults.Removes, hne]

theorem loses_forgetSizes (faults : List Char → SizeFaults) (scheme value : List Char)
    (s : Stores) (sizes : List (List Char)) (hnodup : sizes.Nodup) :
    s.Loses (forgetSizes wiring faults scheme value s sizes).1
      (fun key => ∃ size ∈ sizes, (faults size).Removes wiring (keyHash scheme value size) key)
      (fun hash => ∃ size ∈ sizes,
        (faults size).Deletes wiring s (keyHash scheme value size) hash) := by
  induction sizes generalizing s with
  | nil => exact (Stores.Loses.refl s).congr (by simp) (by simp)
  | cons size sizes ih =>
    obtain ⟨hfirst, hnodup⟩ := List.nodup_cons.mp hnodup
    have hone := loses_forgetOneSize wiring (faults size) s (keyHash scheme value size)
    refine (hone.trans (ih _ hnodup)).congr (by simp) fun hash => ?_
    -- The rows of the other sizes are still as they were.
    have hrest : ∀ other ∈ sizes,
        ((faults other).Deletes wiring
            (forgetOneSize wiring (faults size) s (keyHash scheme value size)).1
            (keyHash scheme value other) hash ↔
          (faults other).Deletes wiring s (keyHash scheme value other) hash) := by
      intro other hother
      have hne : keyHash scheme value other ≠ keyHash scheme value size := by
        rw [Ne, keyHash_inj]
        rintro rfl
        exact hfirst hother
      simp only [SizeFaults.Deletes, row_forgetOneSize_of_ne wiring (faults size) s hne]
    simp only [List.mem_cons, exists_eq_or_imp]
    exact or_congr_right (exists_congr fun other => and_congr_right (hrest other))

theorem nodup_forgottenSizes (size : List Char) : (forgottenSizes size).Nodup := by
  unfold forgottenSizes
  split
  · decide
  · rename_i hnew
    refine List.nodup_append'.mpr ⟨by decide, by simp, ?_⟩
    intro other hother hsize
    obtain rfl := List.mem_singleton.mp hsize
    exact hnew (List.contains_iff_mem.mpr hother)

/-- Every call that takes out a row of the index on the way to the providers. -/
def ResolveFaults.Removes (faults : ResolveFaults) (s : Stores) (scheme value size : List Char)
    (key : List Char) : Prop :=
  let exact := serveExact wiring faults s scheme value size
  wiring.index = true ∧
    ((∃ hit, s.index.get faults.readFails (keyHash scheme value size) = some hit ∧
        faults.exact.Removes wiring s (keyHash scheme value size) hit key) ∨
      exact.2 = none ∧ ∃ hit servedSize,
        exact.1.index.getAnySize faults.readAnyFails scheme value size = some (hit, servedSize) ∧
          faults.any.Removes wiring exact.1 (keyHash scheme value servedSize) hit key)

def ResolveFaults.Deletes (faults : ResolveFaults) (s : Stores) (scheme value size : List Char)
    (hash : List Char) : Prop :=
  let exact := serveExact wiring faults s scheme value size
  wiring.index = true ∧
    ((∃ hit, s.index.get faults.readFails (keyHash scheme value size) = some hit ∧
        faults.exact.Deletes wiring s (keyHash scheme value size) hit hash) ∨
      exact.2 = none ∧ ∃ hit servedSize,
        exact.1.index.getAnySize faults.readAnyFails scheme value size = some (hit, servedSize) ∧
          faults.any.Deletes wiring exact.1 (keyHash scheme value servedSize) hit hash)

theorem loses_serveExact (faults : ResolveFaults) (s : Stores) (scheme value size : List Char) :
    s.Loses (serveExact wiring faults s scheme value size).1
      (fun key => ∃ hit, s.index.get faults.readFails (keyHash scheme value size) = some hit ∧
        faults.exact.Removes wiring s (keyHash scheme value size) hit key)
      (fun hash => ∃ hit, s.index.get faults.readFails (keyHash scheme value size) = some hit ∧
        faults.exact.Deletes wiring s (keyHash scheme value size) hit hash) := by
  unfold serveExact
  cases s.index.get faults.readFails (keyHash scheme value size) with
  | none => exact (Stores.Loses.refl s).congr (by simp) (by simp)
  | some hit => exact (loses_serveHit wiring faults.exact s _ hit).congr (by simp) (by simp)

theorem loses_serveAnySize (faults : ResolveFaults) (s : Stores) (scheme value size : List Char) :
    s.Loses (serveAnySize wiring faults s scheme value size).1
      (fun key => ∃ hit servedSize,
        s.index.getAnySize faults.readAnyFails scheme value size = some (hit, servedSize) ∧
          faults.any.Removes wiring s (keyHash scheme value servedSize) hit key)
      (fun hash => ∃ hit servedSize,
        s.index.getAnySize faults.readAnyFails scheme value size = some (hit, servedSize) ∧
          faults.any.Deletes wiring s (keyHash scheme value servedSize) hit hash) := by
  unfold serveAnySize
  cases s.index.getAnySize faults.readAnyFails scheme value size with
  | none => exact (Stores.Loses.refl s).congr (by simp) (by simp)
  | some found =>
    obtain ⟨hit, servedSize⟩ := found
    refine (loses_serveHit wiring faults.any s (keyHash scheme value servedSize) hit).congr
      (fun key => ?_) (fun hash => ?_)
    · exact ⟨fun h => ⟨hit, servedSize, rfl, h⟩, by rintro ⟨_, _, ⟨⟩, h⟩; exact h⟩
    · exact ⟨fun h => ⟨hit, servedSize, rfl, h⟩, by rintro ⟨_, _, ⟨⟩, h⟩; exact h⟩

theorem loses_serveIndex (faults : ResolveFaults) (s : Stores) (scheme value size : List Char) :
    s.Loses (serveIndex wiring faults s scheme value size).1
      (faults.Removes wiring s scheme value size) (faults.Deletes wiring s scheme value size) := by
  unfold serveIndex ResolveFaults.Removes ResolveFaults.Deletes
  cases hindex : wiring.index
  · exact (Stores.Loses.refl s).congr (by simp) (by simp)
  · have hexact := loses_serveExact wiring faults s scheme value size
    cases hanswer : (serveExact wiring faults s scheme value size).2 with
    | some answer => simpa [hanswer] using hexact
    | none =>
      have hany := loses_serveAnySize wiring faults
        (serveExact wiring faults s scheme value size).1 scheme value size
      simpa [hanswer] using hexact.trans hany

theorem loses_forgetEverything (faults : Index.SweepFaults) (deleteFails : List Char → Bool)
    (plugin : Except (List Char) Unit) (s : Stores) :
    s.Loses (forgetEverything wiring faults deleteFails plugin s).1
      (fun key => wiring.index = true ∧ faults.removes (.entry key) = true)
      (fun hash => wiring.index = true ∧ wiring.cache = true ∧ deleteFails hash = false ∧
        hash ∈ (s.index.dropAll faults).2) := by
  have hrow : ∀ assets key hit,
      (⟨(s.index.dropAll faults).1, assets⟩ : Stores).row key = some hit ↔
        s.row key = some hit ∧ ¬faults.removes (.entry key) = true := by
    intro assets key hit
    change (s.index.dropAll faults).1.get false key = some hit ↔ _
    rw [Index.get_dropAll]
    split
    · rename_i hremoves
      simp [hremoves]
    · rename_i hremoves
      simp [hremoves, Stores.row]
  unfold forgetEverything
  cases hindex : wiring.index
  · exact (Stores.Loses.refl s).congr (by simp) (by simp)
  · cases hcache : wiring.cache
    · exact ⟨fun key hit => by simp [hrow], fun hash => by simp⟩
    · exact ⟨fun key hit => by simp [hrow], fun hash => by simp [and_comm]⟩

end Evictions

namespace Operation

variable (wiring : Wiring) (s : Stores)

/-- The rows that the operation takes out of the index. -/
def Removes : Operation → List Char → Prop
  | .resolve scheme value size faults _, key => faults.Removes wiring s scheme value size key
  | .evict scheme value size faults, key => faults.Removes wiring (keyHash scheme value size) key
  | .forget scheme value size faults, key =>
    ∃ other ∈ forgottenSizes size,
      (faults other).Removes wiring (keyHash scheme value other) key
  | .forgetTarget scheme value faults _, key =>
    ∃ other ∈ forgottenSizes "large".toList,
      (faults other).Removes wiring (keyHash scheme value other) key
  | .forgetEverything faults _ _, key =>
    wiring.index = true ∧ faults.removes (.entry key) = true

/-- The hashes whose bytes the operation deletes. -/
def Deletes : Operation → List Char → Prop
  | .resolve scheme value size faults _, hash => faults.Deletes wiring s scheme value size hash
  | .evict scheme value size faults, hash =>
    faults.Deletes wiring s (keyHash scheme value size) hash
  | .forget scheme value size faults, hash =>
    ∃ other ∈ forgottenSizes size,
      (faults other).Deletes wiring s (keyHash scheme value other) hash
  | .forgetTarget scheme value faults _, hash =>
    ∃ other ∈ forgottenSizes "large".toList,
      (faults other).Deletes wiring s (keyHash scheme value other) hash
  | .forgetEverything faults deleteFails _, hash =>
    wiring.index = true ∧ wiring.cache = true ∧ deleteFails hash = false ∧
      hash ∈ (s.index.dropAll faults).2

/-- The row is written again, or its bytes are stored again. -/
def Renews : Operation → List Char → List Char → Prop
  | .resolve scheme value size faults (some (contentHash, _)), key, hash =>
    (serveIndex wiring faults s scheme value size).2 = none ∧
      (hash = contentHash ∨
        wiring.index = true ∧ key = keyHash scheme value size ∧ faults.put = none ∧
          isValidContentHash contentHash = true)
  | _, _, _ => False

variable {wiring s}

theorem row_rememberPositive (fault : Option PutFault) (s : Stores)
    (key contentHash key' : List Char) :
    (rememberPositive wiring fault s key contentHash).row key' =
      if wiring.index = true ∧ key' = key ∧ fault = none ∧ isValidContentHash contentHash = true then
        some ⟨contentHash, cascadeLogicVersion⟩
      else s.row key' := by
  unfold rememberPositive
  cases wiring.index
  · simp
  · simpa [Stores.row] using Index.get_put fault s.index key key' contentHash cascadeLogicVersion

theorem assets_rememberPositive (fault : Option PutFault) (s : Stores)
    (key contentHash : List Char) :
    (rememberPositive wiring fault s key contentHash).assets = s.assets := by
  unfold rememberPositive
  split <;> rfl

theorem noDangling_rememberPositive (hs : s.NoDangling) (h : s.Loses s' gone lost)
    (fault : Option PutFault) (key contentHash : List Char) :
    (rememberPositive wiring fault { s' with assets := insert contentHash s'.assets } key
        contentHash).NoDangling ↔
      ∀ key' hit, s.row key' = some hit → lost hit.hash → gone key' ∨ hit.hash = contentHash ∨
        wiring.index = true ∧ key' = key ∧ fault = none ∧ isValidContentHash contentHash = true := by
  simp only [Stores.NoDangling, row_rememberPositive, assets_rememberPositive, Finset.mem_insert]
  constructor
  · intro hafter key' hit hrow hlost
    by_contra hcon
    simp only [not_or] at hcon
    obtain ⟨hgone, hother, hput⟩ := hcon
    have hkept : s'.row key' = some hit := (h.row key' hit).mpr ⟨hrow, hgone⟩
    have hbytes := hafter key' hit (by rw [if_neg hput]; exact hkept)
    rcases hbytes with heq | hbytes
    · exact hother heq
    · exact ((h.assets hit.hash).mp hbytes).2 hlost
  · intro hcond key' hit hrow
    split at hrow
    · cases hrow
      exact .inl rfl
    · rename_i hput
      obtain ⟨hbefore, hkept⟩ := (h.row key' hit).mp hrow
      by_cases hlost : lost hit.hash
      · rcases hcond key' hit hbefore hlost with hgone | heq | hrenewed
        · exact absurd hgone hkept
        · exact .inl heq
        · exact absurd hrenewed hput
      · exact .inr ((h.assets hit.hash).mpr ⟨hs key' hit hbefore, hlost⟩)

/-- After an operation no row dangles exactly when each row whose bytes it deletes
is one that it takes out, or that it writes or stores again: a row that shares
its hash with an evicted one, or could not be removed, is left without bytes. -/
theorem noDangling_run_iff (wiring : Wiring) (op : Operation) (hs : s.NoDangling) :
    (op.run wiring s).NoDangling ↔
      ∀ key hit, s.row key = some hit → op.Deletes wiring s hit.hash →
        op.Removes wiring s key ∨ op.Renews wiring s key hit.hash := by
  cases op with
  | evict scheme value size faults =>
    simp only [Renews, or_false]
    exact (loses_forgetOneSize wiring faults s (keyHash scheme value size)).noDangling_iff hs
  | forget scheme value size faults =>
    simp only [Renews, or_false]
    exact (loses_forgetSizes wiring faults scheme value s _
      (nodup_forgottenSizes size)).noDangling_iff hs
  | forgetTarget scheme value faults plugin =>
    simp only [Renews, or_false]
    exact (loses_forgetSizes wiring faults scheme value s _
      (nodup_forgottenSizes "large".toList)).noDangling_iff hs
  | forgetEverything faults deleteFails plugin =>
    simp only [Renews, or_false]
    exact (loses_forgetEverything wiring faults deleteFails plugin s).noDangling_iff hs
  | resolve scheme value size faults fetched =>
    have hloses := loses_serveIndex wiring faults s scheme value size
    unfold run Artwork.resolve
    cases hanswer : (serveIndex wiring faults s scheme value size).2 with
    | some answer =>
      cases fetched with
      | none =>
        simp only [Renews, hanswer, or_false]
        exact hloses.noDangling_iff hs
      | some fetched =>
        simp only [Renews, hanswer, reduceCtorEq, false_and, or_false]
        exact hloses.noDangling_iff hs
    | none =>
      cases fetched with
      | none =>
        simp only [Renews, hanswer, or_false]
        exact hloses.noDangling_iff hs
      | some fetched =>
        simp only [Renews, hanswer, true_and]
        exact noDangling_rememberPositive hs hloses faults.put (keyHash scheme value size)
          fetched.1

/-- Stores with the same bytes under each of the keys. -/
def sharing (hash : List Char) (keys : List (List Char)) : Stores where
  index := ⟨keys.foldr (fun key files =>
    files.insert (.entry key) (.stored cascadeLogicVersion hash)) ∅⟩
  assets := {hash}

theorem noDangling_sharing (hash : List Char) (keys : List (List Char)) :
    (sharing hash keys).NoDangling := by
  have hbody : ∀ file body, (sharing hash keys).index.files.lookup file = some body →
      body = .stored cascadeLogicVersion hash := by
    intro file body
    change (keys.foldr _ ∅ : AList fun _ : File => Body).lookup file = some body → _
    induction keys with
    | nil => simp
    | cons key keys ih =>
      intro hlookup
      rw [List.foldr_cons, Table.lookup_insert_ite] at hlookup
      split at hlookup
      · exact (Option.some.inj hlookup).symm
      · exact ih hlookup
  intro key hit hrow
  simp only [Stores.row, Index.get] at hrow
  obtain ⟨body, hlookup, hhit⟩ := Option.bind_eq_some_iff.mp hrow
  rw [hbody _ _ hlookup, Body.hit] at hhit
  split at hhit
  · cases hhit
    exact Finset.mem_singleton_self hash
  · cases hhit

def someHash : List Char := List.replicate 64 'a'

def artistKey (name : String) : List Char :=
  keyHash "artist-name".toList name.toList "small".toList

def forgetArtist (name : String) : Operation :=
  .forget "artist-name".toList name.toList "small".toList fun _ => ⟨false, false, false⟩

theorem noDangling_run_iff_everything :
    ((Operation.forgetEverything ⟨false, fun _ => false, fun _ => false, fun _ => false⟩
        (fun _ => false) (.ok ())).run ⟨true, true⟩
      (sharing someHash [artistKey "a", artistKey "b"])).NoDangling :=
  (noDangling_run_iff ⟨true, true⟩ _ (noDangling_sharing _ _)).mpr
    fun _ _ _ _ => .inl ⟨rfl, rfl⟩

/-- Two artists with the same portrait: clearing one leaves the row of the other
without bytes. -/
theorem forget_shared_dangles :
    ¬∀ (wiring : Wiring) (op : Operation) (s : Stores), s.NoDangling →
      (op.run wiring s).NoDangling := by
  intro hall
  have hafter := hall ⟨true, true⟩ (forgetArtist "a")
    (sharing someHash [artistKey "a", artistKey "b"]) (noDangling_sharing _ _)
    (artistKey "b") ⟨someHash, cascadeLogicVersion⟩ (by decide)
  exact absurd hafter (by decide)

end Operation

end EvoAudio.Artwork
