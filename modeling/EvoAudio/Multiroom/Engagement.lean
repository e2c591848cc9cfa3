import EvoAudio.Multiroom.Groups
import EvoAudio.Multiroom.RoleStore

/-!
# Role engagement

`engage_role` of the multiroom plugin: the live-group gate, the shortcut on
an unchanged role and group, the teardown of the prior engagement and the
start of the new one, with the actions it takes on the outside in order.
Around it, the parts of the substrate handlers that decide with which
arguments it is called.
-/

namespace EvoAudio.Multiroom

structure EngagementContext where
  localDeviceId : String
  sourcePcm : String
  deriving Repr

/-- The engaged pair, and which tasks are running for it. -/
structure RoleEngagement where
  role : Role
  groupId : Option String
  sourceTask : Bool
  receiverTask : Bool
  deriving DecidableEq, Repr

def RoleEngagement.pair (e : RoleEngagement) : Role × Option String := (e.role, e.groupId)

inductive Effect
  | notifyShutdown
  | joinSource
  | joinReceiver
  | closeOutboundConnections
  | removeSourceDropIn
  | clearTraceState
  | publishLocalRole (role : Role)
  | installSourceDropIn
  | upsertGroup (groupId displayName : String) (members : List String)
  | dialPeer (addr : String)
  | spawnSource (groupId : String) (capture : Bool)
  | spawnReceiver (groupId : Option String)
  deriving DecidableEq, Repr

def groupIsLive (localId : String) (groupId : Option String) (members : List String) : Bool :=
  groupId.isSome && members.any (· != localId)

def effectiveRole (role : Role) (live : Bool) : Role :=
  match role, live with
  | .source, false | .receiver, false => .auto
  | role, _ => role

theorem groupIsLive_some :
    groupIsLive localId (some gid) members = decide (∃ m ∈ members, m ≠ localId) := by
  simp only [groupIsLive, Option.isSome_some, Bool.true_and]
  rw [Bool.eq_iff_iff]
  simp

theorem effectiveRole_decide (role : Role) (p : Prop) [Decidable p] :
    effectiveRole role (decide p) = if p then role else .auto := by
  by_cases h : p <;> cases role <;> simp [effectiveRole, h]

def teardown (e : RoleEngagement) : List Effect :=
  [.notifyShutdown] ++ (if e.sourceTask then [.joinSource] else []) ++
    (if e.receiverTask then [.joinReceiver] else []) ++
    (if e.role = .source then [.closeOutboundConnections] else []) ++
    [.removeSourceDropIn, .clearTraceState]

/-- The last part of `engage_role`: spawn what the effective role needs. -/
def startRole (ctx : EngagementContext) (effective : Role) (groupId : Option String)
    (members addresses : List String) : RoleEngagement × List Effect :=
  match effective, groupId with
  | .source, some gid =>
    (⟨.source, groupId, true, false⟩,
      [.installSourceDropIn, .upsertGroup gid ("multiroom:" ++ gid) members] ++
        addresses.map .dialPeer ++ [.spawnSource gid (ctx.sourcePcm != "")])
  -- refused with a warning; the pair is set already
  | .source, none => (⟨.source, groupId, false, false⟩, [])
  | .receiver, _ => (⟨.receiver, groupId, false, true⟩, [.spawnReceiver groupId])
  | .auto, _ => (⟨.auto, groupId, false, false⟩, [])

def engageRole (ctx : EngagementContext) (e : RoleEngagement) (role : Role)
    (groupId : Option String) (members addresses : List String) :
    RoleEngagement × List Effect :=
  let effective := effectiveRole role (groupIsLive ctx.localDeviceId groupId members)
  if e.role = effective ∧ e.groupId = groupId then (e, [])
  else
    let started := startRole ctx effective groupId members addresses
    (started.1, teardown e ++ [.publishLocalRole effective] ++ started.2)

theorem startRole_pair :
    (startRole ctx effective groupId members addresses).1.pair = (effective, groupId) := by
  cases effective <;> cases groupId <;> rfl

theorem startRole_upsert
    (h : .upsertGroup gid name mem ∈ (startRole ctx effective groupId members addresses).2) :
    groupId = some gid ∧ mem = members := by
  cases effective <;> cases groupId <;> simp [startRole] at h
  obtain ⟨rfl, _, rfl⟩ := h
  exact ⟨rfl, rfl⟩

/-- Whatever the branch, the pair afterwards is the effective one. -/
theorem engageRole_pair (ctx : EngagementContext) (e : RoleEngagement) (role : Role)
    (groupId : Option String) (members addresses : List String) :
    (engageRole ctx e role groupId members addresses).1.pair =
      (effectiveRole role (groupIsLive ctx.localDeviceId groupId members), groupId) := by
  simp only [engageRole]
  split
  · rename_i h
    exact Prod.ext h.1 h.2
  · exact startRole_pair

/-- The record a Source engagement writes back is of the group it was given. -/
theorem engageRole_upsert
    (h : .upsertGroup gid name mem ∈ (engageRole ctx e role groupId members addresses).2) :
    groupId = some gid ∧ mem = members := by
  have hteardown : .upsertGroup gid name mem ∉ teardown e := by
    simp only [teardown]
    split <;> split <;> split <;> simp
  simp only [engageRole] at h
  split at h
  · simp at h
  · rcases List.mem_append.mp h with h | h
    · simp [hteardown] at h
    · exact startRole_upsert h

-- ---------------------------------------------------------------------------
-- What the handlers hand to it
-- ---------------------------------------------------------------------------

inductive GroupChange
  | created (g : Group)
  | updated (g : Group)
  | deleted (groupId : String)
  deriving DecidableEq, Repr

/-- The filter of `handle_group_event`, on the record the event carries. -/
def GroupChange.affects (localId : String) : GroupChange → Bool
  | .created g | .updated g => g.members.any (· == localId)
  | .deleted _ => true

/-- `resolve_local_group_state`; substrate groups come without addresses. -/
def resolveLocalGroupState (listed : Except Unit (List Group)) : Option String × List String :=
  match listed with
  | .ok (g :: _) => (some g.groupId, g.members)
  | .ok [] => (none, [])
  | .error _ => (none, [])

/-- The role the group handlers go by. -/
def currentRole (read : Except Unit Role) : Role :=
  match read with
  | .ok role => role
  | .error _ => .auto

end EvoAudio.Multiroom
