import EvoAudio.Lib.Machine
import EvoAudio.Lib.Table
import EvoAudio.Lib.Text
import Mathlib.Data.Rat.Defs
import Mathlib.Algebra.Order.Ring.Rat

/-!
# Active audio topologies and the routing they resolve to

`AudioTopologyStore` of `evo-audio-topology` keeps one chain per delivery
target and tells `AudioRoutingRuntime`, plugin by plugin, which endpoints its
stage of the chain uses. `Mirrors` is what the two are for: a plugin has a
routing exactly when a stored chain names it, and it is the one of the chain
published last.
-/

namespace EvoAudio.Topology

-- ---------------------------------------------------------------------------
-- Chains
-- ---------------------------------------------------------------------------

inductive EndpointKind where
  | alsaPcm
  | namedPipe
  | sharedMemory
  | jackPort
  deriving DecidableEq, Repr

inductive VolumeMode where
  | none
  | software
  | hardware
  deriving DecidableEq, Repr

/-- An `f64` as it is checked and printed: no value stands for an infinity or a
NaN. -/
structure Position where
  value : Option Rat
  shown : String
  deriving DecidableEq, Repr

/-- `format` is the SDK's audio format, which the store only hands on. -/
inductive ActiveChainStage (φ : Type) where
  | source (plugin : List Char) (format : φ) (kind : EndpointKind) (path : List Char)
  | composition (plugin mode : List Char) (formatIn formatOut : φ) (inKind : EndpointKind)
    (inPath : List Char) (outKind : EndpointKind) (outPath : List Char)
  | delivery (plugin : List Char) (format : φ) (kind : EndpointKind) (path : List Char)
  deriving DecidableEq, Repr

structure ActiveAudioTopology (φ : Type) where
  targetKey : List Char
  displayName : List Char
  chain : List (ActiveChainStage φ)
  volumeMode : VolumeMode
  volumePosition : Option Position
  bitPerfect : Bool
  scoreTotal : Nat
  deriving DecidableEq, Repr

inductive AudioTopologyError where
  | persistence
  | validation (reason : String)
  deriving DecidableEq, Repr

variable {φ : Type}

def stagePlugin : ActiveChainStage φ → List Char
  | .source plugin .. | .composition plugin .. | .delivery plugin .. => plugin

def ActiveChainStage.isSource : ActiveChainStage φ → Bool
  | .source .. => true
  | _ => false

def ActiveChainStage.isComposition : ActiveChainStage φ → Bool
  | .composition .. => true
  | _ => false

def ActiveChainStage.isDelivery : ActiveChainStage φ → Bool
  | .delivery .. => true
  | _ => false

def ActiveAudioTopology.plugins (topology : ActiveAudioTopology φ) : List (List Char) :=
  topology.chain.map stagePlugin

/-- The first stage between the ends that is no composition. -/
def misplacedStage (chain : List (ActiveChainStage φ)) : Option Nat :=
  (chain.tail.dropLast.findIdx? fun stage => !stage.isComposition).map (· + 1)

def topologyValidate (topology : ActiveAudioTopology φ) : Except AudioTopologyError Unit := do
  if (Text.trim topology.targetKey).isEmpty then
    throw (.validation "target_key must not be empty")
  if topology.chain.isEmpty then
    throw (.validation "chain must not be empty")
  if topology.chain.length < 2 then
    throw (.validation "chain must have at least source + delivery (2 stages)")
  if !topology.chain.head?.any ActiveChainStage.isSource then
    throw (.validation "chain must begin with a Source stage")
  if !topology.chain.getLast?.any ActiveChainStage.isDelivery then
    throw (.validation "chain must end with a Delivery stage")
  if let some idx := misplacedStage topology.chain then
    throw (.validation s!"chain stage {idx} (intermediate) must be a Composition stage")
  if let some position := topology.volumePosition then
    if !position.value.any fun p => decide (0 ≤ p ∧ p ≤ 1) then
      throw (.validation s!"volume_position {position.shown} outside [0.0, 1.0]")
  if topology.volumeMode = .none ∧ topology.volumePosition.isSome then
    throw (.validation "volume_position must be None when volume_mode is None")

-- ---------------------------------------------------------------------------
-- The routing runtime
-- ---------------------------------------------------------------------------

/-- `WriteEndpoint` and `ReadEndpoint`, which have the same fields. -/
structure Endpoint (φ : Type) where
  kind : EndpointKind
  path : List Char
  format : φ
  bufferFrames : Nat
  deriving DecidableEq, Repr

structure ResolvedRouting (φ : Type) where
  write : Option (Endpoint φ)
  read : Option (Endpoint φ)
  format : φ
  reason : List Char
  deriving DecidableEq, Repr

structure RouteChange (φ : Type) where
  newFormat : φ
  reason : List Char
  deriving DecidableEq, Repr

/-- `onChange` is the registered callback, by its identity. -/
structure PluginRoutingState (φ : Type) where
  resolved : Option (ResolvedRouting φ) := none
  onChange : Option Nat := none
  deriving DecidableEq, Repr

/-- `fired` are the callbacks that ran. -/
structure AudioRoutingRuntime (φ : Type) where
  plugins : AList fun _ : List Char => PluginRoutingState φ
  fired : List (Nat × RouteChange φ)

namespace AudioRoutingRuntime

def new : AudioRoutingRuntime φ := ⟨∅, []⟩

def entry (runtime : AudioRoutingRuntime φ) (plugin : List Char) : PluginRoutingState φ :=
  (runtime.plugins.lookup plugin).getD {}

def resolvedFor (runtime : AudioRoutingRuntime φ) (plugin : List Char) : Option (ResolvedRouting φ) :=
  (runtime.plugins.lookup plugin).bind (·.resolved)

def publishTopology (runtime : AudioRoutingRuntime φ) (plugin : List Char)
    (resolved : ResolvedRouting φ) : Option (ResolvedRouting φ) × AudioRoutingRuntime φ :=
  let entry := runtime.entry plugin
  let fired := entry.onChange.toList.map (·, ⟨resolved.format, resolved.reason⟩)
  (entry.resolved,
    ⟨runtime.plugins.insert plugin { entry with resolved := some resolved }, runtime.fired ++ fired⟩)

def clearTopology (runtime : AudioRoutingRuntime φ) (plugin : List Char) : AudioRoutingRuntime φ :=
  match runtime.plugins.lookup plugin with
  | some entry => { runtime with plugins := runtime.plugins.insert plugin { entry with resolved := none } }
  | none => runtime

theorem resolvedFor_publishTopology (runtime : AudioRoutingRuntime φ) (plugin other : List Char)
    (resolved : ResolvedRouting φ) :
    (runtime.publishTopology plugin resolved).2.resolvedFor other =
      if other = plugin then some resolved else runtime.resolvedFor other := by
  simp only [publishTopology, resolvedFor, Table.lookup_insert_ite]
  split <;> rfl

theorem resolvedFor_clearTopology (runtime : AudioRoutingRuntime φ) (plugin other : List Char) :
    (runtime.clearTopology plugin).resolvedFor other =
      if other = plugin then none else runtime.resolvedFor other := by
  unfold clearTopology
  split
  next entry hentry =>
    simp only [resolvedFor, Table.lookup_insert_ite]
    split <;> rfl
  next hentry =>
    by_cases h : other = plugin
    · subst h
      simp [resolvedFor, hentry]
    · rw [if_neg h]

end AudioRoutingRuntime

/-- The endpoints one stage of a chain uses. -/
def stageToResolvedRouting (stage : ActiveChainStage φ) (topology : ActiveAudioTopology φ) :
    ResolvedRouting φ :=
  let reason := "active topology published for ".toList ++ topology.targetKey
  match stage with
  | .source _ format kind path => ⟨some ⟨kind, path, format, 0⟩, none, format, reason⟩
  | .composition _ _ formatIn formatOut inKind inPath outKind outPath =>
    ⟨some ⟨outKind, outPath, formatOut, 0⟩, some ⟨inKind, inPath, formatIn, 0⟩, formatOut, reason⟩
  | .delivery _ format kind path => ⟨none, some ⟨kind, path, format, 0⟩, format, reason⟩

-- ---------------------------------------------------------------------------
-- The store
-- ---------------------------------------------------------------------------

/-- The serialised snapshot stands for itself. -/
structure PersistedAudioActiveTopology (φ : Type) where
  topology : ActiveAudioTopology φ
  publishedAtMs : Nat
  publishedByPrincipal : List Char

def PersistedAudioActiveTopology.targetKey (row : PersistedAudioActiveTopology φ) : List Char :=
  row.topology.targetKey

def PersistedAudioActiveTopology.plugins (row : PersistedAudioActiveTopology φ) : List (List Char) :=
  row.topology.plugins

/-- One row per target, the one written last in front. Every row went through
`topology_validate`. -/
structure PersistenceStore (φ : Type) where
  rows : List (PersistedAudioActiveTopology φ)
  distinct : (rows.map (·.targetKey)).Nodup
  valid : ∀ row ∈ rows, topologyValidate row.topology = .ok ()

namespace PersistenceStore

def empty : PersistenceStore φ := ⟨[], by simp, by simp⟩

def get (persistence : PersistenceStore φ) (targetKey : List Char) :
    Option (PersistedAudioActiveTopology φ) :=
  persistence.rows.find? (·.targetKey = targetKey)

def others (persistence : PersistenceStore φ) (targetKey : List Char) :
    List (PersistedAudioActiveTopology φ) :=
  persistence.rows.filter (·.targetKey ≠ targetKey)

def put (persistence : PersistenceStore φ) (row : PersistedAudioActiveTopology φ)
    (hrow : topologyValidate row.topology = .ok ()) : PersistenceStore φ where
  rows := row :: persistence.others row.targetKey
  distinct := by
    rw [List.map_cons, List.nodup_cons]
    refine ⟨fun hmem => ?_, persistence.distinct.sublist (List.filter_sublist.map _)⟩
    obtain ⟨other, hother, hkey⟩ := List.mem_map.mp hmem
    exact absurd hkey (by simpa using (List.mem_filter.mp hother).2)
  valid := by
    intro other hother
    rcases List.mem_cons.mp hother with rfl | hother
    · exact hrow
    · exact persistence.valid other (List.mem_filter.mp hother).1

def delete (persistence : PersistenceStore φ) (targetKey : List Char) : PersistenceStore φ where
  rows := persistence.others targetKey
  distinct := persistence.distinct.sublist (List.filter_sublist.map _)
  valid row hrow := persistence.valid row (List.mem_filter.mp hrow).1

end PersistenceStore

/-- The event of type `audio_topology_changed`. -/
structure Announcement where
  targetKey : List Char
  displayName : List Char
  bitPerfect : Bool
  scoreTotal : Nat
  deriving DecidableEq, Repr

structure AudioTopologyStore (φ : Type) where
  persistence : PersistenceStore φ
  routing : AudioRoutingRuntime φ
  bus : List Announcement

/-- One call, with what the persistence layer and the bus answer: a failed
write or delete leaves the row as it was. -/
inductive Call (φ : Type) where
  | publish (topology : ActiveAudioTopology φ) (principal : List Char) (nowMs : Nat)
    (written emitted : Bool)
  | clear (targetKey : List Char) (read deleted : Bool)

namespace AudioTopologyStore

/-- Each stage of the chain in turn. -/
def propagate (topology : ActiveAudioTopology φ) (routing : AudioRoutingRuntime φ) :
    List (ActiveChainStage φ) → AudioRoutingRuntime φ
  | [] => routing
  | stage :: stages =>
    let resolved := stageToResolvedRouting stage topology
    propagate topology (routing.publishTopology (stagePlugin stage) resolved).2 stages

def publish (store : AudioTopologyStore φ) (topology : ActiveAudioTopology φ)
    (principal : List Char) (nowMs : Nat) (written emitted : Bool) :
    Except AudioTopologyError (ActiveAudioTopology φ) × AudioTopologyStore φ :=
  match hvalid : topologyValidate topology with
  | .error e => (.error e, store)
  | .ok () =>
    if written then
      (.ok topology,
        { persistence := store.persistence.put ⟨topology, nowMs, principal⟩ hvalid
          routing := propagate topology store.routing topology.chain
          bus := if emitted then
              store.bus ++
                [⟨topology.targetKey, topology.displayName, topology.bitPerfect, topology.scoreTotal⟩]
            else store.bus })
    else (.error .persistence, store)

def clear (store : AudioTopologyStore φ) (targetKey : List Char) (read deleted : Bool) :
    Except AudioTopologyError Unit × AudioTopologyStore φ :=
  if read then
    let routing :=
      match store.persistence.get targetKey with
      | some existing => existing.plugins.foldl AudioRoutingRuntime.clearTopology store.routing
      | none => store.routing
    -- The routing is gone before the row is.
    if deleted then
      (.ok (), { store with persistence := store.persistence.delete targetKey, routing })
    else (.error .persistence, { store with routing })
  else (.error .persistence, store)

def step (store : AudioTopologyStore φ) : Call φ → Option (AudioTopologyStore φ)
  | .publish topology principal nowMs written emitted =>
    some (store.publish topology principal nowMs written emitted).2
  | .clear targetKey read deleted => some (store.clear targetKey read deleted).2

end AudioTopologyStore

-- ---------------------------------------------------------------------------
-- What the routing should be
-- ---------------------------------------------------------------------------

/-- The routing a topology gives a plugin. A plugin named by several stages
has the routing of the last of them. -/
def projection (topology : ActiveAudioTopology φ) (plugin : List Char) : Option (ResolvedRouting φ) :=
  topology.chain.reverse.findSome? fun stage =>
    if stagePlugin stage = plugin then some (stageToResolvedRouting stage topology) else none

/-- A plugin has a routing exactly when a stored topology names it, and it is
the projection of the one that was published last. -/
structure Mirrors (store : AudioTopologyStore φ) : Prop where
  configured : ∀ plugin, (store.routing.resolvedFor plugin).isSome ↔
    ∃ row ∈ store.persistence.rows, plugin ∈ row.plugins
  latest : ∀ newer row older plugin, store.persistence.rows = newer ++ row :: older →
    plugin ∈ row.plugins → (∀ other ∈ newer, plugin ∉ other.plugins) →
    store.routing.resolvedFor plugin = projection row.topology plugin

def expected (rows : List (PersistedAudioActiveTopology φ)) (plugin : List Char) :
    Option (ResolvedRouting φ) :=
  rows.findSome? fun row => projection row.topology plugin

theorem projection_isSome {topology : ActiveAudioTopology φ} :
    (projection topology plugin).isSome ↔ plugin ∈ topology.plugins := by
  simp [projection, ActiveAudioTopology.plugins]

theorem projection_eq_none {topology : ActiveAudioTopology φ} :
    projection topology plugin = none ↔ plugin ∉ topology.plugins := by
  rw [← projection_isSome, Option.not_isSome_iff_eq_none]

theorem projection_reason {topology : ActiveAudioTopology φ}
    (h : projection topology plugin = some resolved) :
    resolved.reason = "active topology published for ".toList ++ topology.targetKey := by
  obtain ⟨stage, -, hstage⟩ := List.exists_of_findSome?_eq_some h
  obtain ⟨-, hresolved⟩ := Option.ite_none_right_eq_some.mp hstage
  obtain rfl := Option.some.inj hresolved
  cases stage <;> rfl

@[simp] theorem expected_nil : expected (φ := φ) [] plugin = none := rfl

@[simp] theorem expected_cons {row : PersistedAudioActiveTopology φ} :
    expected (row :: rows) plugin = (projection row.topology plugin).or (expected rows plugin) := by
  unfold expected
  rw [List.findSome?_cons]
  cases projection row.topology plugin <;> rfl

@[simp] theorem expected_append {newer older : List (PersistedAudioActiveTopology φ)} :
    expected (newer ++ older) plugin = (expected newer plugin).or (expected older plugin) :=
  List.findSome?_append

theorem expected_isSome {rows : List (PersistedAudioActiveTopology φ)} :
    (expected rows plugin).isSome ↔ ∃ row ∈ rows, plugin ∈ row.plugins := by
  simp only [expected, List.findSome?_isSome_iff, projection_isSome]
  rfl

theorem expected_eq_none {rows : List (PersistedAudioActiveTopology φ)} :
    expected rows plugin = none ↔ ∀ row ∈ rows, plugin ∉ row.plugins := by
  rw [← Option.not_isSome_iff_eq_none, expected_isSome]
  simp

theorem mirrors_iff {store : AudioTopologyStore φ} :
    Mirrors store ↔
      ∀ plugin, store.routing.resolvedFor plugin = expected store.persistence.rows plugin := by
  constructor
  · intro h plugin
    cases hfind : store.persistence.rows.find? (plugin ∈ ·.plugins) with
    | none =>
      have hnone : ∀ row ∈ store.persistence.rows, plugin ∉ row.plugins := by
        simpa using List.find?_eq_none.mp hfind
      rw [expected_eq_none.mpr hnone, ← Option.not_isSome_iff_eq_none, h.configured]
      rintro ⟨row, hrow, hplugin⟩
      exact hnone row hrow hplugin
    | some row =>
      obtain ⟨hrow, newer, older, hrows, hnewer⟩ := List.find?_eq_some_iff_append.mp hfind
      replace hrow : plugin ∈ row.plugins := by simpa using hrow
      replace hnewer : ∀ other ∈ newer, plugin ∉ other.plugins := by simpa using hnewer
      obtain ⟨resolved, hresolved⟩ := Option.isSome_iff_exists.mp (projection_isSome.mpr hrow)
      rw [h.latest newer row older plugin hrows hrow hnewer, hrows, expected_append,
        expected_eq_none.mpr hnewer, expected_cons, hresolved]
      rfl
  · intro h
    refine ⟨fun plugin => by rw [h, expected_isSome], ?_⟩
    intro newer row older plugin hrows hrow hnewer
    obtain ⟨resolved, hresolved⟩ := Option.isSome_iff_exists.mp (projection_isSome.mpr hrow)
    rw [h, hrows, expected_append, expected_eq_none.mpr hnewer, expected_cons, hresolved]
    rfl

-- ---------------------------------------------------------------------------
-- What a call does to the routing
-- ---------------------------------------------------------------------------

open AudioTopologyStore

theorem resolvedFor_propagate (topology : ActiveAudioTopology φ) (stages : List (ActiveChainStage φ))
    (routing : AudioRoutingRuntime φ) (plugin : List Char) :
    (propagate topology routing stages).resolvedFor plugin =
      (stages.reverse.findSome? fun stage =>
        if stagePlugin stage = plugin then some (stageToResolvedRouting stage topology)
        else none).or (routing.resolvedFor plugin) := by
  induction stages generalizing routing with
  | nil => rfl
  | cons stage stages ih =>
    rw [propagate, ih, AudioRoutingRuntime.resolvedFor_publishTopology, List.reverse_cons,
      List.findSome?_append, Option.or_assoc]
    by_cases h : plugin = stagePlugin stage
    · simp [h]
    · simp [h, Ne.symm h]

theorem resolvedFor_foldl_clearTopology (plugins : List (List Char)) (routing : AudioRoutingRuntime φ)
    (plugin : List Char) :
    (plugins.foldl AudioRoutingRuntime.clearTopology routing).resolvedFor plugin =
      if plugin ∈ plugins then none else routing.resolvedFor plugin := by
  induction plugins generalizing routing with
  | nil => simp
  | cons first plugins ih =>
    rw [List.foldl_cons, ih, AudioRoutingRuntime.resolvedFor_clearTopology]
    by_cases h : plugin ∈ plugins
    · simp [h]
    · by_cases hfirst : plugin = first <;> simp [h, hfirst]

/-- The row of a target among the others. -/
theorem PersistenceStore.get_some {persistence : PersistenceStore φ}
    (h : persistence.get targetKey = some row) :
    row.targetKey = targetKey ∧ ∃ newer older, persistence.rows = newer ++ row :: older ∧
      persistence.others targetKey = newer ++ older ∧
      newer = persistence.rows.takeWhile (·.targetKey ≠ targetKey) := by
  obtain ⟨hkey, newer, older, hrows, hnewer⟩ := List.find?_eq_some_iff_append.mp h
  replace hkey : row.targetKey = targetKey := by simpa using hkey
  replace hnewer : ∀ other ∈ newer, other.targetKey ≠ targetKey := by simpa using hnewer
  have hdistinct := persistence.distinct
  rw [hrows, List.map_append, List.map_cons, List.nodup_append, List.nodup_cons] at hdistinct
  have holder : ∀ other ∈ older, other.targetKey ≠ targetKey := by
    intro other hother hsame
    exact hdistinct.2.1.1 (hkey.trans hsame.symm ▸ List.mem_map_of_mem hother)
  refine ⟨hkey, newer, older, hrows, ?_, ?_⟩
  · rw [others, hrows, List.filter_append, List.filter_cons_of_neg (by simpa using hkey),
      List.filter_eq_self.mpr (by simpa using hnewer), List.filter_eq_self.mpr (by simpa using holder)]
  · rw [hrows, List.takeWhile_append_of_pos (by simpa using hnewer),
      List.takeWhile_cons_of_neg (by simpa using hkey), List.append_nil]

theorem PersistenceStore.get_none {persistence : PersistenceStore φ}
    (h : persistence.get targetKey = none) : persistence.others targetKey = persistence.rows := by
  have hkeys : ∀ row ∈ persistence.rows, row.targetKey ≠ targetKey := by
    simpa using List.find?_eq_none.mp h
  exact List.filter_eq_self.mpr (by simpa using hkeys)

theorem publish_resolvedFor {store : AudioTopologyStore φ}
    (hvalid : topologyValidate topology = .ok ()) (plugin : List Char) :
    (store.publish topology principal nowMs true emitted).2.routing.resolvedFor plugin =
      (projection topology plugin).or (store.routing.resolvedFor plugin) := by
  unfold publish
  split
  next herror => rw [herror] at hvalid; cases hvalid
  next => exact resolvedFor_propagate topology topology.chain store.routing plugin

theorem publish_rows {store : AudioTopologyStore φ}
    (hvalid : topologyValidate topology = .ok ()) :
    (store.publish topology principal nowMs true emitted).2.persistence.rows =
      ⟨topology, nowMs, principal⟩ :: store.persistence.others topology.targetKey := by
  unfold publish
  split
  next herror => rw [herror] at hvalid; cases hvalid
  next => rfl

/-- A publish that is refused or not written changes nothing. -/
theorem publish_refused {store : AudioTopologyStore φ}
    (h : topologyValidate topology = .ok () → written = false) :
    (store.publish topology principal nowMs written emitted).2 = store := by
  unfold publish
  split
  next => rfl
  next hvalid => simp [h hvalid]

/-- What a call needs so that the routing still mirrors the stored topologies.
A publish hands every plugin of the chain it replaces to the new chain, or
finds it in a chain published since. A clear finds no plugin of its chain in
another one, and its delete succeeds. -/
def Clean (store : AudioTopologyStore φ) : Call φ → Prop
  | .publish topology _ _ written _ =>
    topologyValidate topology = .ok () → written →
      ∀ replaced, store.persistence.get topology.targetKey = some replaced →
        ∀ plugin ∈ replaced.plugins, plugin ∈ topology.plugins ∨
          ∃ row ∈ store.persistence.rows.takeWhile (·.targetKey ≠ topology.targetKey),
            plugin ∈ row.plugins
  | .clear targetKey read deleted =>
    read → ∀ existing, store.persistence.get targetKey = some existing →
      deleted ∧ ∀ plugin ∈ existing.plugins, ∀ row ∈ store.persistence.others targetKey,
        plugin ∉ row.plugins

/-- Two rows never give a plugin the same routing, for it names the target. -/
theorem projection_ne_expected {row : PersistedAudioActiveTopology φ}
    (hrow : projection row.topology plugin = some resolved)
    (hkeys : ∀ other ∈ rows, other.targetKey ≠ row.targetKey) :
    expected rows plugin ≠ some resolved := by
  intro h
  obtain ⟨other, hother, hresolved⟩ := List.exists_of_findSome?_eq_some h
  have hreason := (projection_reason hrow).symm.trans (projection_reason hresolved)
  exact hkeys other hother (List.append_cancel_left hreason).symm

/-- Dropping a row changes what a plugin should have exactly when the row was
the one to give it. -/
theorem expected_drop_iff {row : PersistedAudioActiveTopology φ}
    (hkeys : ∀ other ∈ older, other.targetKey ≠ row.targetKey) :
    expected (newer ++ row :: older) plugin = expected (newer ++ older) plugin ↔
      (plugin ∈ row.plugins → ∃ other ∈ newer, plugin ∈ other.plugins) := by
  rw [expected_append, expected_append, expected_cons, ← expected_isSome]
  cases hnewer : expected newer plugin with
  | some resolved => simp
  | none =>
    cases hrow : projection row.topology plugin with
    | none =>
      have hplugin : plugin ∉ row.plugins := projection_eq_none.mp hrow
      simp [hplugin]
    | some resolved =>
      have hplugin : plugin ∈ row.plugins := projection_isSome.mp (by simp [hrow])
      simpa [hplugin] using (projection_ne_expected hrow hkeys).symm

theorem publish_mirrors_iff {store : AudioTopologyStore φ} (hs : Mirrors store)
    (hvalid : topologyValidate topology = .ok ()) :
    Mirrors (store.publish topology principal nowMs true emitted).2 ↔
      Clean store (.publish topology principal nowMs true emitted) := by
  simp only [mirrors_iff, publish_resolvedFor hvalid, publish_rows hvalid, mirrors_iff.mp hs,
    expected_cons, Clean, hvalid, forall_const]
  have hor : ∀ plugin, (projection topology plugin).or (expected store.persistence.rows plugin) =
      (projection topology plugin).or
        (expected (store.persistence.others topology.targetKey) plugin) ↔
      plugin ∈ topology.plugins ∨ expected store.persistence.rows plugin =
        expected (store.persistence.others topology.targetKey) plugin := by
    intro plugin
    rw [← projection_isSome]
    cases projection topology plugin <;> simp
  simp only [hor]
  cases hget : store.persistence.get topology.targetKey with
  | none => simp [PersistenceStore.get_none hget]
  | some replaced =>
    obtain ⟨hkey, newer, older, hrows, hothers, hnewer⟩ := PersistenceStore.get_some hget
    have holder : ∀ other ∈ older, other.targetKey ≠ replaced.targetKey := by
      intro other hother hsame
      have hmem : other ∈ store.persistence.others topology.targetKey := by simp [hothers, hother]
      exact absurd (hsame.trans hkey) (by simpa using (List.mem_filter.mp hmem).2)
    rw [← hnewer, hothers, hrows]
    simp only [expected_drop_iff holder, Option.some.injEq, forall_eq']
    refine forall_congr' fun plugin => ?_
    by_cases hplugin : plugin ∈ topology.plugins <;> simp [hplugin]

theorem topologyValidate_chain {topology : ActiveAudioTopology φ}
    (h : topologyValidate topology = .ok ()) : topology.plugins ≠ [] := by
  intro hplugins
  have hchain : topology.chain = [] := List.map_eq_nil_iff.mp hplugins
  unfold topologyValidate at h
  by_cases hkey : (Text.trim topology.targetKey).isEmpty
  · simp [hkey, throw, throwThe, MonadExceptOf.throw, bind, Except.bind] at h
  · simp [hkey, hchain, throw, throwThe, MonadExceptOf.throw, bind, Except.bind] at h

theorem clear_mirrors_iff {store : AudioTopologyStore φ} (hs : Mirrors store) :
    Mirrors (store.clear targetKey true deleted).2 ↔ Clean store (.clear targetKey true deleted) := by
  simp only [Clean, forall_const]
  cases hget : store.persistence.get targetKey with
  | none =>
    have hstore : (store.clear targetKey true deleted).2.persistence.rows = store.persistence.rows ∧
        (store.clear targetKey true deleted).2.routing = store.routing := by
      cases deleted <;> simp [clear, hget, PersistenceStore.delete, PersistenceStore.get_none hget]
    rw [mirrors_iff, hstore.1, hstore.2]
    simpa using mirrors_iff.mp hs
  | some existing =>
    obtain ⟨-, newer, older, hrows, hothers, -⟩ := PersistenceStore.get_some hget
    simp only [Option.some.injEq, forall_eq']
    cases deleted with
    | false =>
      -- A chain has stages, and the routing of the first is gone for nothing.
      refine iff_of_false ?_ (by simp)
      intro h
      obtain ⟨plugin, hplugin⟩ := List.exists_mem_of_ne_nil _ (topologyValidate_chain
        (store.persistence.valid existing (by simp [hrows])))
      have hconfigured := (h.configured plugin).mpr ⟨existing, by simp [clear, hget, hrows], hplugin⟩
      rw [Option.isSome_iff_ne_none] at hconfigured
      apply hconfigured
      simp only [clear, hget]
      exact (resolvedFor_foldl_clearTopology ..).trans (if_pos hplugin)
    | true =>
      have hrouting : ∀ plugin, (store.clear targetKey true true).2.routing.resolvedFor plugin =
          if plugin ∈ existing.plugins then none else expected store.persistence.rows plugin := by
        intro plugin
        simp only [clear, hget, ← mirrors_iff.mp hs plugin]
        exact resolvedFor_foldl_clearTopology ..
      have hpersisted : (store.clear targetKey true true).2.persistence.rows = newer ++ older := hothers
      rw [mirrors_iff, hothers, hpersisted]
      simp only [hrouting, true_and, ← expected_eq_none]
      refine forall_congr' fun plugin => ?_
      by_cases hplugin : plugin ∈ existing.plugins
      · simp [hplugin, eq_comm]
      · have hnone : projection existing.topology plugin = none := projection_eq_none.mpr hplugin
        simp [hplugin, hrows, hnone]

theorem step_mirrors_iff {store store' : AudioTopologyStore φ} {call : Call φ} (hs : Mirrors store)
    (h : step store call = some store') : Mirrors store' ↔ Clean store call := by
  cases call with
  | publish topology principal nowMs written emitted =>
    obtain rfl := Option.some.inj h
    by_cases haccepted : topologyValidate topology = .ok () ∧ written = true
    · obtain ⟨hvalid, rfl⟩ := haccepted
      exact publish_mirrors_iff hs hvalid
    · rw [publish_refused (by simpa using haccepted)]
      refine iff_of_true hs fun hvalid hwritten => ?_
      exact absurd ⟨hvalid, hwritten⟩ haccepted
  | clear targetKey read deleted =>
    obtain rfl := Option.some.inj h
    cases read with
    | false => exact iff_of_true hs (by simp [Clean])
    | true => exact clear_mirrors_iff hs

/-- Every call is answered. -/
theorem exec_some (store : AudioTopologyStore φ) (calls : List (Call φ)) :
    ∃ store', Machine.exec step store calls = some store' := by
  induction calls generalizing store with
  | nil => exact ⟨store, rfl⟩
  | cons call calls ih =>
    obtain ⟨store', hstep⟩ : ∃ store', step store call = some store' := by
      cases call <;> exact ⟨_, rfl⟩
    obtain ⟨last, hlast⟩ := ih store'
    exact ⟨last, Machine.exec_cons.mpr ⟨store', hstep, hlast⟩⟩

/-- The routing mirrors the stored topologies after each of a sequence of calls
exactly when every one of them is clean in the state it meets. -/
theorem routing_mirrors_topologies_iff {store : AudioTopologyStore φ} (hs : Mirrors store)
    (calls : List (Call φ)) :
    (∀ earlier later store', calls = earlier ++ later →
      Machine.exec step store earlier = some store' → Mirrors store') ↔
      Machine.Meets step Clean store calls := by
  obtain ⟨last, hlast⟩ := exec_some store calls
  exact Machine.exec_invariant_iff step_mirrors_iff hs hlast

-- ---------------------------------------------------------------------------
-- Two targets that share a delivery plugin
-- ---------------------------------------------------------------------------

def fresh : AudioTopologyStore φ := ⟨.empty, .new, []⟩

theorem mirrors_fresh : Mirrors (fresh : AudioTopologyStore φ) :=
  mirrors_iff.mpr fun _ => rfl

/-- A source played straight to a delivery plugin. -/
def direct (targetKey source delivery : List Char) : ActiveAudioTopology Unit where
  targetKey
  displayName := targetKey
  chain := [.source source () .alsaPcm "loopback:0,0".toList, .delivery delivery () .alsaPcm targetKey]
  volumeMode := .none
  volumePosition := none
  bitPerfect := true
  scoreTotal := 100

/-- Clearing one of two targets takes the routing of the plugin they share. -/
def clearShared : List (Call Unit) :=
  [.publish (direct "hw:0".toList "mpd".toList "alsa".toList) "user".toList 1 true true,
    .publish (direct "hw:1".toList "tidal".toList "alsa".toList) "user".toList 2 true true,
    .clear "hw:1".toList true true]

theorem clear_unroutes_shared_plugin :
    ¬ ∀ calls store', Machine.exec step (fresh : AudioTopologyStore Unit) calls = some store' →
      Mirrors store' := by
  intro h
  obtain ⟨store', hrun, hlost⟩ := Machine.exec_of_any step fresh clearShared
    (fun store => (store.routing.resolvedFor "alsa".toList).isNone &&
      store.persistence.rows.any ("alsa".toList ∈ ·.plugins)) (by decide)
  rw [Bool.and_eq_true] at hlost
  have hconfigured := (h clearShared store' hrun).configured "alsa".toList
  rw [Option.isNone_iff_eq_none] at hlost
  simp only [hlost.1, Option.isSome_none, Bool.false_eq_true, false_iff] at hconfigured
  obtain ⟨row, hrow, hplugin⟩ := List.any_eq_true.mp hlost.2
  exact hconfigured ⟨row, hrow, by simpa using hplugin⟩

theorem routing_mirrors_topologies_fresh : Mirrors (fresh : AudioTopologyStore Unit) ∧
    ((∀ earlier later store', clearShared = earlier ++ later →
      Machine.exec step fresh earlier = some store' → Mirrors store') ↔
      Machine.Meets step Clean fresh clearShared) :=
  ⟨mirrors_fresh, routing_mirrors_topologies_iff mirrors_fresh clearShared⟩

end EvoAudio.Topology
