import EvoAudio.Lib.Machine
import EvoAudio.Lib.Pool
import EvoAudio.Topology.Store

/-!
# The routing forwarder

`install_audio_routing_forwarder` registers a callback that reads the plugin's
resolved routing again and pushes it to a sink, and pushes the routing that is
there already. `publish_topology` stores under the lock and calls the callback
after it has released it. Here the calls for one plugin take turns: each of the
store, the read and the push is a turn of its own.
-/

namespace EvoAudio.Topology

namespace AudioRoutingRuntime

variable {φ : Type}

def handleForPlugin (runtime : AudioRoutingRuntime φ) (plugin : List Char) :
    AudioRoutingRuntime φ :=
  { runtime with plugins := runtime.plugins.insert plugin (runtime.entry plugin) }

/-- `on_route_change` of the plugin's handle. -/
def onRouteChange (runtime : AudioRoutingRuntime φ) (plugin : List Char)
    (callback : Option Nat) : AudioRoutingRuntime φ :=
  match runtime.plugins.lookup plugin with
  | some entry =>
    { runtime with plugins := runtime.plugins.insert plugin { entry with onChange := callback } }
  | none => runtime

theorem entry_of_lookup {runtime : AudioRoutingRuntime φ}
    {state : PluginRoutingState φ} (h : runtime.plugins.lookup plugin = some state) :
    runtime.entry plugin = state := by
  simp [AudioRoutingRuntime.entry, h]

theorem lookup_publishTopology (runtime : AudioRoutingRuntime φ) (plugin : List Char)
    (resolved : ResolvedRouting φ) :
    (runtime.publishTopology plugin resolved).2.plugins.lookup plugin =
      some { runtime.entry plugin with resolved := some resolved } := by
  simp [publishTopology]

theorem lookup_onRouteChange {runtime : AudioRoutingRuntime φ}
    {state : PluginRoutingState φ} (h : runtime.plugins.lookup plugin = some state)
    (callback : Option Nat) :
    (runtime.onRouteChange plugin callback).plugins.lookup plugin =
      some { state with onChange := callback } := by
  simp [onRouteChange, h]

theorem resolvedFor_onRouteChange {runtime : AudioRoutingRuntime φ}
    {state : PluginRoutingState φ} (h : runtime.plugins.lookup plugin = some state)
    (callback : Option Nat) :
    (runtime.onRouteChange plugin callback).resolvedFor plugin = runtime.resolvedFor plugin := by
  simp [resolvedFor, lookup_onRouteChange h, h]

end AudioRoutingRuntime

namespace Forwarding

variable {φ : Type}

/-- The SDK's `ResolvedRouting`: the reason travels beside it. -/
structure WireRouting (φ : Type) where
  write : Option (Endpoint φ)
  read : Option (Endpoint φ)
  format : φ
  deriving DecidableEq, Repr

def resolvedToWire (resolved : ResolvedRouting φ) : WireRouting φ :=
  ⟨resolved.write, resolved.read, resolved.format⟩

/-- `WireFrame::AudioRoutingStateChanged`. -/
structure Frame (φ : Type) where
  resolved : Option (WireRouting φ)
  reason : List Char
  deriving DecidableEq, Repr

/-- What a call does next. -/
inductive Call (φ : Type) where
  | publish (resolved : ResolvedRouting φ)
  /-- The lock is released, and the callback has been called. -/
  | callback (change : RouteChange φ)
  | push (frame : Frame φ)
  | install
  /-- The callback is registered. -/
  | initial
  | done
  deriving DecidableEq, Repr

def Call.frame? : Call φ → Option (Frame φ)
  | .push frame => some frame
  | _ => none

def Call.isDone : Call φ → Bool
  | .done => true
  | _ => false

structure Sink (φ : Type) where
  runtime : AudioRoutingRuntime φ
  frames : List (Frame φ)

section Steps

variable (plugin : List Char) (forwarder : Nat)

def next (sink : Sink φ) : Call φ → Option (Sink φ × Call φ)
  | .publish resolved =>
    let published := { sink with runtime := (sink.runtime.publishTopology plugin resolved).2 }
    if (sink.runtime.entry plugin).onChange = some forwarder then
      some (published, .callback ⟨resolved.format, resolved.reason⟩)
    else some (published, .done)
  | .callback change =>
    some (sink, .push ⟨(sink.runtime.resolvedFor plugin).map resolvedToWire, change.reason⟩)
  | .push frame => some ({ sink with frames := sink.frames ++ [frame] }, .done)
  | .install =>
    some ({ sink with runtime := sink.runtime.onRouteChange plugin (some forwarder) }, .initial)
  | .initial =>
    match sink.runtime.resolvedFor plugin with
    | some initial => some (sink, .push ⟨some (resolvedToWire initial), initial.reason⟩)
    | none => some (sink, .done)
  | .done => none

/-- One turn of one of the calls. -/
def step (pool : Pool (Sink φ) (Call φ)) (i : Nat) : Option (Pool (Sink φ) (Call φ)) :=
  pool.turn (next plugin forwarder) i

/-- The forwarder is installed on the plugin's handle while routings are being
published. -/
def start (runtime : AudioRoutingRuntime φ) (published : List (ResolvedRouting φ)) :
    Pool (Sink φ) (Call φ) :=
  ⟨⟨runtime.handleForPlugin plugin, []⟩, .install :: published.map .publish⟩

/-- What the runtime holds for the plugin, as it goes over the wire. -/
def Sink.held (sink : Sink φ) : Option (WireRouting φ) :=
  (sink.runtime.resolvedFor plugin).map resolvedToWire

def Sink.lastPushed (sink : Sink φ) : Option (WireRouting φ) :=
  sink.frames.getLast?.bind Frame.resolved

def Finished (pool : Pool (Sink φ) (Call φ)) : Prop := ∀ call ∈ pool.tasks, call.isDone

instance (pool : Pool (Sink φ) (Call φ)) : Decidable (Finished pool) :=
  inferInstanceAs (Decidable (∀ call ∈ pool.tasks, _))

/-- A push brings what the runtime holds, unless another call is still under
way. -/
def Timely (pool : Pool (Sink φ) (Call φ)) (i : Nat) : Prop :=
  ∀ frame ∈ pool.tasks[i]?.bind Call.frame?,
    frame.resolved = pool.shared.held plugin ∨ ¬Finished ⟨pool.shared, pool.tasks.set i .done⟩

instance [DecidableEq φ] (pool : Pool (Sink φ) (Call φ)) (i : Nat) :
    Decidable (Timely plugin pool i) :=
  inferInstanceAs (Decidable (∀ frame ∈ pool.tasks[i]?.bind Call.frame?, _ ∨ _))

end Steps

-- ---------------------------------------------------------------------------
-- Runs
-- ---------------------------------------------------------------------------

variable {plugin : List Char} {forwarder : Nat} {pool pool' : Pool (Sink φ) (Call φ)} {i : Nat}

/-- Only a call that has found a routing has a frame to push. -/
def Call.Needs : Call φ → Prop
  | .callback _ | .push _ => True
  | _ => False

/-- The callback is registered or is going to be, and what is not pushed yet
will be pushed by a call under way. -/
structure Settling (plugin : List Char) (forwarder : Nat) (pool : Pool (Sink φ) (Call φ)) :
    Prop where
  entered : (pool.shared.runtime.plugins.lookup plugin).isSome
  registered : (pool.shared.runtime.entry plugin).onChange = some forwarder ∨
    .install ∈ pool.tasks
  held : ∀ call ∈ pool.tasks, call.Needs → (pool.shared.held plugin).isSome
  pushed : pool.shared.frames ≠ [] → (pool.shared.held plugin).isSome
  settled : pool.shared.lastPushed = pool.shared.held plugin ∨ ¬Finished pool

theorem settling_start (runtime : AudioRoutingRuntime φ) (published : List (ResolvedRouting φ)) :
    Settling plugin forwarder (start plugin runtime published) where
  entered := by simp [start, AudioRoutingRuntime.handleForPlugin]
  registered := .inr (by simp [start])
  held call hcall hneeds := by
    simp only [start, List.mem_cons, List.mem_map] at hcall
    obtain rfl | ⟨resolved, -, rfl⟩ := hcall <;> exact hneeds.elim
  pushed h := absurd rfl h
  settled := .inr fun h => by simpa [Call.isDone] using h .install (by simp [start])

theorem not_finished_set {tasks : List (Call φ)} {sink : Sink φ} {call call' : Call φ}
    (hi : tasks[i]? = some call) (hcall' : call'.isDone = false) :
    ¬Finished ⟨sink, tasks.set i call'⟩ := by
  intro h
  have hdone := h call' (Table.mem_set_self hi call')
  rw [hcall'] at hdone
  cases hdone

theorem step_finished (h : Finished pool) : step plugin forwarder pool i = none := by
  cases hstep : step plugin forwarder pool i with
  | none => rfl
  | some pool' =>
    obtain ⟨call, sink', call', hi, hnext, -⟩ := Pool.turn_eq_some.mp hstep
    have hdone := h call (List.mem_of_getElem? hi)
    cases call with
    | done => cases hnext
    | _ => cases hdone

theorem Settling.install_set (h : Settling plugin forwarder pool) {call : Call φ}
    (hi : pool.tasks[i]? = some call) (hcall : call ≠ .install) (call' : Call φ) :
    (pool.shared.runtime.entry plugin).onChange = some forwarder ∨
      .install ∈ pool.tasks.set i call' :=
  h.registered.imp_right fun hmem => Table.mem_set_of_ne hi hmem hcall.symm call'

theorem Settling.held_set (h : Settling plugin forwarder pool) {call' : Call φ}
    (hcall' : call'.Needs → (pool.shared.held plugin).isSome) :
    ∀ call ∈ pool.tasks.set i call', call.Needs → (pool.shared.held plugin).isSome := by
  intro call hcall hneeds
  rcases List.mem_or_eq_of_mem_set hcall with hmem | rfl
  · exact h.held call hmem hneeds
  · exact hcall' hneeds

theorem Settling.publish (h : Settling plugin forwarder pool) {resolved : ResolvedRouting φ}
    (hi : pool.tasks[i]? = some (.publish resolved))
    (hnext : next plugin forwarder pool.shared (.publish resolved) = some (sink', call')) :
    Settling plugin forwarder ⟨sink', pool.tasks.set i call'⟩ := by
  have hlookup := pool.shared.runtime.lookup_publishTopology plugin resolved
  have hheld : (Option.map resolvedToWire
      ((pool.shared.runtime.publishTopology plugin resolved).2.resolvedFor plugin)).isSome := by
    rw [AudioRoutingRuntime.resolvedFor_publishTopology, if_pos rfl]
    rfl
  simp only [next] at hnext
  split at hnext
  next honChange =>
    cases hnext
    refine ⟨by rw [hlookup]; rfl, .inl ?_, fun _ _ _ => hheld, fun _ => hheld,
      .inr (not_finished_set hi rfl)⟩
    rw [AudioRoutingRuntime.entry_of_lookup hlookup]
    exact honChange
  next honChange =>
    cases hnext
    have hinstall : .install ∈ pool.tasks.set i .done :=
      (h.install_set hi nofun _).resolve_left honChange
    refine ⟨by rw [hlookup]; rfl, .inr hinstall, fun _ _ _ => hheld, fun _ => hheld,
      .inr fun hfinished => ?_⟩
    cases hfinished .install hinstall

theorem lastPushed_concat (sink : Sink φ) (frame : Frame φ) :
    Sink.lastPushed { sink with frames := sink.frames ++ [frame] } = frame.resolved := by
  simp [Sink.lastPushed]

theorem Settling.push (h : Settling plugin forwarder pool) {frame : Frame φ}
    (hi : pool.tasks[i]? = some (.push frame)) (htimely : Timely plugin pool i) :
    Settling plugin forwarder
      ⟨{ pool.shared with frames := pool.shared.frames ++ [frame] }, pool.tasks.set i .done⟩ where
  entered := h.entered
  registered := h.install_set hi nofun _
  held := h.held_set False.elim
  pushed _ := h.held _ (List.mem_of_getElem? hi) trivial
  settled := (htimely frame (by rw [hi]; rfl)).imp_left fun hcurrent =>
    (lastPushed_concat _ _).trans hcurrent

theorem Settling.initial (h : Settling plugin forwarder pool)
    (hi : pool.tasks[i]? = some .initial)
    (hnext : next plugin forwarder pool.shared .initial = some (sink', call')) :
    Settling plugin forwarder ⟨sink', pool.tasks.set i call'⟩ := by
  simp only [next] at hnext
  split at hnext
  next initial hresolved =>
    cases hnext
    have hheld : (pool.shared.held plugin).isSome := by simp [Sink.held, hresolved]
    exact ⟨h.entered, h.install_set hi nofun _, h.held_set fun _ => hheld, h.pushed,
      .inr (not_finished_set hi rfl)⟩
  next hresolved =>
    cases hnext
    have hheld : pool.shared.held plugin = none := by simp [Sink.held, hresolved]
    refine ⟨h.entered, h.install_set hi nofun _, h.held_set False.elim, h.pushed, .inl ?_⟩
    -- Nothing has been published, so nothing has been pushed.
    have hframes : pool.shared.frames = [] := by
      by_contra hframes
      simpa [hheld] using h.pushed hframes
    rw [hheld]
    simp [Sink.lastPushed, hframes]

theorem Settling.step (h : Settling plugin forwarder pool) (htimely : Timely plugin pool i)
    (hstep : step plugin forwarder pool i = some pool') : Settling plugin forwarder pool' := by
  obtain ⟨call, sink', call', hi, hnext, rfl⟩ := Pool.turn_eq_some.mp hstep
  cases call with
  | publish resolved => exact h.publish hi hnext
  | callback change =>
    cases hnext
    exact ⟨h.entered, h.install_set hi nofun _,
      h.held_set fun _ => h.held _ (List.mem_of_getElem? hi) trivial, h.pushed,
      .inr (not_finished_set hi rfl)⟩
  | push frame =>
    cases hnext
    exact h.push hi htimely
  | install =>
    cases hnext
    obtain ⟨state, hlookup⟩ := Option.isSome_iff_exists.mp h.entered
    have hlookup' := AudioRoutingRuntime.lookup_onRouteChange hlookup (some forwarder)
    have hheld : Sink.held plugin
        ⟨pool.shared.runtime.onRouteChange plugin (some forwarder), pool.shared.frames⟩ =
          pool.shared.held plugin :=
      congrArg (Option.map resolvedToWire)
        (AudioRoutingRuntime.resolvedFor_onRouteChange hlookup _)
    refine ⟨by rw [hlookup']; rfl, .inl ?_, ?_, ?_, .inr (not_finished_set hi rfl)⟩
    · rw [AudioRoutingRuntime.entry_of_lookup hlookup']
    · intro call hcall hneeds
      rw [hheld]
      exact h.held_set False.elim call hcall hneeds
    · intro hframes
      rw [hheld]
      exact h.pushed hframes
  | initial => exact h.initial hi hnext
  | done => cases hnext

/-- A push that is not timely is the last thing that happens. -/
theorem stale_push_last (htimely : ¬Timely plugin pool i)
    (hstep : step plugin forwarder pool i = some pool') :
    Finished pool' ∧ pool'.shared.lastPushed ≠ pool'.shared.held plugin := by
  simp only [Timely, not_forall, not_or, not_not] at htimely
  obtain ⟨frame, hframe, hstale, hfinished⟩ := htimely
  obtain ⟨call, sink', call', hi, hnext, rfl⟩ := Pool.turn_eq_some.mp hstep
  rw [hi] at hframe
  cases call with
  | push pushed =>
    cases hframe
    cases hnext
    exact ⟨hfinished, fun hlast => hstale ((lastPushed_concat _ _).symm.trans hlast)⟩
  | _ => cases hframe

theorem timely_of_last_current
    (he : Machine.exec (step plugin forwarder) pool turns = some pool')
    (hlast : pool'.shared.lastPushed = pool'.shared.held plugin) :
    Machine.Meets (step plugin forwarder) (Timely plugin) pool turns := by
  induction turns generalizing pool with
  | nil => trivial
  | cons i turns ih =>
    obtain ⟨mid, hstep, hrest⟩ := Machine.exec_cons.mp he
    rw [Machine.meets_cons hstep]
    refine ⟨?_, ih hrest⟩
    by_contra htimely
    obtain ⟨hfinished, hstale⟩ := stale_push_last htimely hstep
    cases turns with
    | nil =>
      cases hrest
      exact hstale hlast
    | cons j turns =>
      obtain ⟨_, hstep', -⟩ := Machine.exec_cons.mp hrest
      cases (step_finished hfinished).symm.trans hstep'

/-- A plugin's routing over the loopback card. -/
def loopback (path : String) : ResolvedRouting Unit :=
  ⟨some ⟨.alsaPcm, path.toList, (), 0⟩, none, (), "rewire".toList⟩

end Forwarding

end EvoAudio.Topology
