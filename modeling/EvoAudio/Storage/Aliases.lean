import Mathlib.Data.List.Induction

/-!
# Operator aliases of USB partitions

`AliasStore` of `storage.usb/src/aliases.rs`: a list of entries, each with the
identity it was set for. A partition is named by its drive and its PARTUUID, or
by its drive and its index where it has none. `aliasOf` says which alias a
partition has after a sequence of calls; `lookup` is what the store answers.
-/

namespace EvoAudio.Storage

structure AliasLookup where
  vendor : Option (List Char)
  model : Option (List Char)
  serialShort : List Char
  partuuid : Option (List Char)
  partitionIndex : UInt32
  deriving DecidableEq

structure AliasEntry where
  vendor : Option (List Char)
  model : Option (List Char)
  serialShort : List Char
  partuuid : Option (List Char)
  partitionIndex : Option UInt32
  name : List Char
  setAtMs : Option Int
  deriving DecidableEq

structure AliasStore where
  entries : List AliasEntry
  deriving DecidableEq

/-- The four fields that the exact match, `set_alias` and `clear_alias` compare. -/
def AliasEntry.hasTuple (entry : AliasEntry) (id : AliasLookup) : Bool :=
  entry.serialShort = id.serialShort ∧ entry.vendor = id.vendor ∧ entry.model = id.model ∧
    entry.partuuid = id.partuuid

def AliasEntry.hasPartitionIndex (entry : AliasEntry) (id : AliasLookup) : Bool :=
  entry.partuuid.isNone ∧ entry.serialShort = id.serialShort ∧ entry.vendor = id.vendor ∧
    entry.model = id.model ∧ entry.partitionIndex = some id.partitionIndex

/-- The entry with another alias for the same tuple. -/
def AliasEntry.update (entry : AliasEntry) (id : AliasLookup) (name : List Char)
    (setAtMs : Int) : AliasEntry :=
  { entry with
    name := name
    partitionIndex := if id.partuuid.isNone then some id.partitionIndex else none
    setAtMs := some setAtMs }

namespace AliasStore

def empty : AliasStore := ⟨[]⟩

def lookup (store : AliasStore) (id : AliasLookup) : Option (List Char) :=
  match store.entries.find? (·.hasTuple id) with
  | some entry => some entry.name
  | none =>
    if id.partuuid.isNone then
      (store.entries.find? (·.hasPartitionIndex id)).map AliasEntry.name
    else none

def setEntry (id : AliasLookup) (name : List Char) (setAtMs : Int) :
    List AliasEntry → List AliasEntry
  | [] => [⟨id.vendor, id.model, id.serialShort, id.partuuid,
      if id.partuuid.isNone then some id.partitionIndex else none, name, some setAtMs⟩]
  | entry :: rest =>
    if entry.hasTuple id then entry.update id name setAtMs :: rest
    else entry :: setEntry id name setAtMs rest

def setAlias (store : AliasStore) (id : AliasLookup) (name : List Char) (setAtMs : Int) :
    AliasStore :=
  ⟨setEntry id name setAtMs store.entries⟩

def clearAlias (store : AliasStore) (id : AliasLookup) : AliasStore :=
  ⟨store.entries.filter fun entry => !entry.hasTuple id⟩

end AliasStore

inductive AliasCall where
  | setAlias (id : AliasLookup) (name : List Char) (setAtMs : Int)
  | clearAlias (id : AliasLookup)
  deriving DecidableEq

def AliasCall.id : AliasCall → AliasLookup
  | .setAlias id .. | .clearAlias id => id

/-- The alias a call leaves for the partition it names. -/
def AliasCall.name : AliasCall → Option (List Char)
  | .setAlias _ name _ => some name
  | .clearAlias _ => none

def AliasCall.run (call : AliasCall) (store : AliasStore) : AliasStore :=
  match call with
  | .setAlias id name setAtMs => store.setAlias id name setAtMs
  | .clearAlias id => store.clearAlias id

def aliasesAfter (calls : List AliasCall) : AliasStore :=
  calls.foldl (fun store call => call.run store) .empty

-- ---------------------------------------------------------------------------
-- What the store is for
-- ---------------------------------------------------------------------------

def AliasLookup.SameTuple (id other : AliasLookup) : Prop :=
  id.serialShort = other.serialShort ∧ id.vendor = other.vendor ∧ id.model = other.model ∧
    id.partuuid = other.partuuid

instance (id other : AliasLookup) : Decidable (id.SameTuple other) :=
  inferInstanceAs (Decidable (_ ∧ _ ∧ _ ∧ _))

/-- The two name one partition: the index counts where there is no PARTUUID. -/
def AliasLookup.SamePartition (id other : AliasLookup) : Prop :=
  id.SameTuple other ∧ (id.partuuid = none → id.partitionIndex = other.partitionIndex)

instance (id other : AliasLookup) : Decidable (id.SamePartition other) :=
  inferInstanceAs (Decidable (_ ∧ (_ → _)))

/-- What the last call that concerns the identity left, by what counts as the
same identity. -/
def lastAlias (same : AliasLookup → AliasLookup → Prop) [∀ id other, Decidable (same id other)]
    (calls : List AliasCall) (id : AliasLookup) : Option (List Char) :=
  calls.foldl (fun name call => if same call.id id then call.name else name) none

/-- The alias last set for the partition and not cleared since. -/
def aliasOf : List AliasCall → AliasLookup → Option (List Char) :=
  lastAlias AliasLookup.SamePartition

/-- After each of the calls every partition has its own alias, and the call has
left the aliases of the other partitions alone. -/
def AliasesPerPartition (calls : List AliasCall) : Prop :=
  (∀ before after, calls = before ++ after →
    ∀ id, (aliasesAfter before).lookup id = aliasOf before id) ∧
  ∀ before call after, calls = before ++ call :: after →
    ∀ id, ¬call.id.SamePartition id →
      (aliasesAfter (before ++ [call])).lookup id = (aliasesAfter before).lookup id

/-- The call gives an alias to a partition without a PARTUUID. -/
def AliasCall.SetsByIndex (call : AliasCall) : Prop :=
  call.name.isSome ∧ call.id.partuuid = none

-- ---------------------------------------------------------------------------
-- The store goes by the tuple
-- ---------------------------------------------------------------------------

theorem AliasEntry.hasTuple_of_hasPartitionIndex {entry : AliasEntry} {id : AliasLookup}
    (hid : id.partuuid.isNone) (h : entry.hasPartitionIndex id) : entry.hasTuple id := by
  simp only [hasPartitionIndex, decide_eq_true_eq] at h
  obtain ⟨hnone, hserial, hvendor, hmodel, -⟩ := h
  have hpartuuid : entry.partuuid = id.partuuid :=
    (Option.isNone_iff_eq_none.mp hnone).trans (Option.isNone_iff_eq_none.mp hid).symm
  simp [hasTuple, hserial, hvendor, hmodel, hpartuuid]

/-- The fallback finds nothing that the exact match has not found before. -/
theorem AliasStore.lookup_eq_find (store : AliasStore) (id : AliasLookup) :
    store.lookup id = (store.entries.find? (·.hasTuple id)).map AliasEntry.name := by
  unfold lookup
  split
  next entry hfound => rw [hfound, Option.map_some]
  next hfound =>
    rw [hfound, Option.map_none]
    split
    next hid =>
      have hnone : store.entries.find? (·.hasPartitionIndex id) = none := by
        rw [List.find?_eq_none] at hfound ⊢
        intro entry hentry hindex
        exact hfound entry hentry (AliasEntry.hasTuple_of_hasPartitionIndex hid hindex)
      rw [hnone, Option.map_none]
    next => rfl

theorem AliasEntry.hasTuple_update (entry : AliasEntry) (id other : AliasLookup)
    (name : List Char) (setAtMs : Int) :
    (entry.update id name setAtMs).hasTuple other = entry.hasTuple other := rfl

theorem AliasEntry.hasTuple_congr {entry : AliasEntry} {id other : AliasLookup}
    (h : id.SameTuple other) : entry.hasTuple id = entry.hasTuple other := by
  obtain ⟨hserial, hvendor, hmodel, hpartuuid⟩ := h
  simp only [hasTuple, hserial, hvendor, hmodel, hpartuuid]

theorem AliasEntry.sameTuple_of_hasTuple {entry : AliasEntry} {id other : AliasLookup}
    (hid : entry.hasTuple id) (hother : entry.hasTuple other) : id.SameTuple other := by
  simp only [hasTuple, decide_eq_true_eq] at hid hother
  exact ⟨hid.1.symm.trans hother.1, hid.2.1.symm.trans hother.2.1,
    hid.2.2.1.symm.trans hother.2.2.1, hid.2.2.2.symm.trans hother.2.2.2⟩

theorem find_setEntry (id other : AliasLookup) (name : List Char) (setAtMs : Int)
    (entries : List AliasEntry) :
    ((AliasStore.setEntry id name setAtMs entries).find? (·.hasTuple other)).map
        AliasEntry.name =
      if id.SameTuple other then some name
      else (entries.find? (·.hasTuple other)).map AliasEntry.name := by
  induction entries with
  | nil =>
    simp only [AliasStore.setEntry, List.find?_cons, AliasEntry.hasTuple, List.find?_nil]
    split
    next h =>
      have hsame : id.SameTuple other := of_decide_eq_true h
      rw [if_pos hsame, Option.map_some]
    next h =>
      have hsame : ¬id.SameTuple other := of_decide_eq_false h
      rw [if_neg hsame]
  | cons entry rest ih =>
    unfold AliasStore.setEntry
    split
    next hentry =>
      rw [List.find?_cons, List.find?_cons, AliasEntry.hasTuple_update]
      by_cases h : id.SameTuple other
      · have hother : entry.hasTuple other := AliasEntry.hasTuple_congr h ▸ hentry
        rw [if_pos h, hother]
        rfl
      · have hother : entry.hasTuple other = false := by
          rw [Bool.eq_false_iff]
          exact fun hother => h (AliasEntry.sameTuple_of_hasTuple hentry hother)
        rw [if_neg h, hother]
    next hentry =>
      rw [List.find?_cons, List.find?_cons]
      cases hother : entry.hasTuple other with
      | true =>
        have h : ¬id.SameTuple other :=
          fun h => hentry (AliasEntry.hasTuple_congr h ▸ hother)
        rw [if_neg h]
      | false => exact ih

theorem find_filter_hasTuple (id other : AliasLookup) (entries : List AliasEntry) :
    (entries.filter fun entry => !entry.hasTuple id).find? (·.hasTuple other) =
      if id.SameTuple other then none else entries.find? (·.hasTuple other) := by
  rw [List.find?_filter]
  split
  next h =>
    rw [List.find?_eq_none]
    intro entry _ hentry
    simp [AliasEntry.hasTuple_congr h] at hentry
  next h =>
    congr 1
    funext entry
    cases hother : entry.hasTuple other with
    | false => simp
    | true =>
      have hid : entry.hasTuple id = false := by
        rw [Bool.eq_false_iff]
        exact fun hid => h (AliasEntry.sameTuple_of_hasTuple hid hother)
      simp [hid]

theorem AliasCall.lookup_run (call : AliasCall) (store : AliasStore) (id : AliasLookup) :
    (call.run store).lookup id = if call.id.SameTuple id then call.name else store.lookup id := by
  simp only [AliasStore.lookup_eq_find]
  cases call with
  | setAlias callId name setAtMs => exact find_setEntry callId id name setAtMs store.entries
  | clearAlias callId =>
    simp only [run, AliasStore.clearAlias, find_filter_hasTuple]
    split
    next h => rw [Option.map_none]; exact (if_pos h).symm
    next h => exact (if_neg h).symm

theorem aliasesAfter_concat (calls : List AliasCall) (call : AliasCall) :
    aliasesAfter (calls ++ [call]) = call.run (aliasesAfter calls) := by
  simp [aliasesAfter]

theorem lastAlias_concat {same : AliasLookup → AliasLookup → Prop}
    [∀ id other, Decidable (same id other)] (calls : List AliasCall) (call : AliasCall)
    (id : AliasLookup) : lastAlias same (calls ++ [call]) id =
      if same call.id id then call.name else lastAlias same calls id := by
  simp [lastAlias]

theorem lookup_aliasesAfter (calls : List AliasCall) (id : AliasLookup) :
    (aliasesAfter calls).lookup id = lastAlias AliasLookup.SameTuple calls id := by
  induction calls using List.reverseRecOn with
  | nil => simp [AliasStore.lookup_eq_find, aliasesAfter, AliasStore.empty, lastAlias]
  | append_singleton calls call ih =>
    rw [aliasesAfter_concat, AliasCall.lookup_run, lastAlias_concat, ih]

-- ---------------------------------------------------------------------------
-- When the aliases are per partition
-- ---------------------------------------------------------------------------

theorem AliasLookup.samePartition_iff {id other : AliasLookup} (h : other.partuuid.isSome) :
    id.SamePartition other ↔ id.SameTuple other := by
  refine ⟨And.left, fun htuple => ⟨htuple, fun hnone => ?_⟩⟩
  rw [← htuple.2.2.2, hnone] at h
  cases h

/-- A partition without a PARTUUID has no alias while no call sets one by index. -/
theorem lastAlias_byIndex {same : AliasLookup → AliasLookup → Prop}
    [∀ id other, Decidable (same id other)]
    (hsame : ∀ id other, same id other → id.SameTuple other)
    {calls : List AliasCall} (h : ∀ call ∈ calls, ¬call.SetsByIndex) {id : AliasLookup}
    (hid : id.partuuid = none) : lastAlias same calls id = none := by
  induction calls using List.reverseRecOn with
  | nil => rfl
  | append_singleton calls call ih =>
    rw [lastAlias_concat]
    split
    next hmatch =>
      have hnone : call.id.partuuid = none := (hsame _ _ hmatch).2.2.2.trans hid
      have hset := h call (by simp)
      simpa [AliasCall.SetsByIndex, hnone] using hset
    next => exact ih fun earlier hearlier => h earlier (by simp [hearlier])

theorem lookup_eq_aliasOf {calls : List AliasCall} (h : ∀ call ∈ calls, ¬call.SetsByIndex)
    (id : AliasLookup) : (aliasesAfter calls).lookup id = aliasOf calls id := by
  rw [lookup_aliasesAfter]
  cases hid : id.partuuid with
  | none =>
    rw [lastAlias_byIndex (fun _ _ hsame => hsame) h hid]
    exact (lastAlias_byIndex (fun _ _ hsame => hsame.1) h hid).symm
  | some partuuid =>
    have hsome : id.partuuid.isSome := by rw [hid]; rfl
    unfold aliasOf lastAlias
    simp only [AliasLookup.samePartition_iff hsome]

/-- The same drive's partition after this one. -/
def AliasLookup.nextPartition (id : AliasLookup) : AliasLookup :=
  { id with partitionIndex := id.partitionIndex + 1 }

theorem AliasLookup.not_samePartition_next {id : AliasLookup} (hid : id.partuuid = none) :
    ¬id.SamePartition id.nextPartition := by
  rintro ⟨-, h⟩
  have hindex : id.partitionIndex = id.partitionIndex + 1 := h hid
  grind

/-- The first call that sets an alias by index gives it to the drive's other
partitions too. -/
theorem not_aliasesPerPartition {before after : List AliasCall} {call : AliasCall}
    (h : ∀ earlier ∈ before, ¬earlier.SetsByIndex) (hcall : call.SetsByIndex) :
    ¬AliasesPerPartition (before ++ call :: after) := by
  rintro ⟨-, hframe⟩
  obtain ⟨hset, hid⟩ := hcall
  have hsame := hframe before call after rfl call.id.nextPartition
    (AliasLookup.not_samePartition_next hid)
  rw [aliasesAfter_concat, AliasCall.lookup_run, if_pos ⟨rfl, rfl, rfl, rfl⟩,
    lookup_aliasesAfter, lastAlias_byIndex (fun _ _ hsame => hsame) h (by exact hid)] at hsame
  rw [hsame] at hset
  cases hset

theorem not_setsByIndex_of_aliasesPerPartition {before after : List AliasCall}
    (hbefore : ∀ call ∈ before, ¬call.SetsByIndex) (h : AliasesPerPartition (before ++ after)) :
    ∀ call ∈ after, ¬call.SetsByIndex := by
  induction after generalizing before with
  | nil => simp
  | cons call after ih =>
    have hcall : ¬call.SetsByIndex := fun hcall => not_aliasesPerPartition hbefore hcall h
    rw [List.append_cons] at h
    have hafter := ih (by simpa [or_imp, forall_and] using ⟨hbefore, hcall⟩) h
    simpa using ⟨hcall, hafter⟩

theorem aliases_per_partition_iff (calls : List AliasCall) :
    AliasesPerPartition calls ↔ ∀ call ∈ calls, ¬call.SetsByIndex := by
  constructor
  · intro h
    exact @not_setsByIndex_of_aliasesPerPartition [] calls (by simp) h
  · intro h
    refine ⟨?_, ?_⟩
    · rintro before after rfl id
      exact lookup_eq_aliasOf (fun call hcall => h call (by simp [hcall])) id
    · rintro before call after rfl id hother
      rw [List.append_cons] at h
      have hconcat : (aliasesAfter (before ++ [call])).lookup id = aliasOf (before ++ [call]) id :=
        lookup_eq_aliasOf (fun earlier hearlier => h earlier (List.mem_append_left _ hearlier)) id
      have hbefore : (aliasesAfter before).lookup id = aliasOf before id :=
        lookup_eq_aliasOf (fun earlier hearlier => h earlier (by simp [hearlier])) id
      rw [hconcat, hbefore, aliasOf, lastAlias_concat, if_neg hother]

/-- The first partition of a stick with an MBR. -/
def stickPartition : AliasLookup :=
  ⟨some "SanDisk".toList, some "Cruzer-Blade".toList, "4C530".toList, none, 1⟩

/-- Both partitions of a stick with an MBR are named, and both have the second
name. -/
theorem mbr_aliases_shared :
    let calls := [AliasCall.setAlias stickPartition "Vinyl".toList 0,
      .setAlias stickPartition.nextPartition "Tapes".toList 1]
    aliasOf calls stickPartition = some "Vinyl".toList ∧
      (aliasesAfter calls).lookup stickPartition = some "Tapes".toList ∧
      ¬AliasesPerPartition calls := by
  refine ⟨by decide, by decide, fun h => ?_⟩
  have hlookup := h.1 _ [] (List.append_nil _).symm stickPartition
  exact absurd hlookup (by decide)

end EvoAudio.Storage
