import EvoAudio.Lib.Machine
import EvoAudio.Multiroom.Engagement

/-!
# Convergence of the engagement to the substrate

The substrate (roles and groups), its two event channels and the subscriber
that drains them. Substrate operations happen at any time, also between the
reads a handler makes; the subscriber takes the events of each channel in
order and may fall behind on either. The question is what is engaged once
everything has been handled.
-/

namespace EvoAudio.Multiroom

open Machine

structure Substrate where
  roles : String → Option Role
  groups : Groups

def Substrate.getRole (sub : Substrate) (device : String) : Role :=
  (sub.roles device).getD .auto

/-- The pair the substrate asks for: the first group listed for the device,
and its role, which counts only in a group with somebody else in it. -/
def effectivePair (localId : String) (sub : Substrate) : Role × Option String :=
  match sub.groups.forDevice localId with
  | [] => (.auto, none)
  | g :: _ => (if ∃ m ∈ g.members, m ≠ localId then sub.getRole localId else .auto, some g.groupId)

-- ---------------------------------------------------------------------------
-- The substrate
-- ---------------------------------------------------------------------------

inductive Op
  | setRole (device : String) (role : Role)
  | clearRole (device : String)
  | createGroup (g : Group) (pos : Nat)
  | updateGroup (g : Group) (pos : Nat)
  | deleteGroup (groupId : String)
  deriving DecidableEq, Repr

/-- An operation, with the events it broadcasts. -/
def Substrate.apply (sub : Substrate) :
    Op → Option (Substrate × List RoleChange × List GroupChange)
  | .setRole device role =>
    if sub.roles device = some role then some (sub, [], [])
    else some ({ sub with roles := Function.update sub.roles device (some role) },
      [.set device (sub.roles device) role], [])
  | .clearRole device =>
    match sub.roles device with
    | none => some (sub, [], [])
    | some prior =>
      some ({ sub with roles := Function.update sub.roles device none }, [.cleared device prior], [])
  | .createGroup g pos =>
    if g.groupId ∈ sub.groups.ids then none
    else some ({ sub with groups := sub.groups.put g pos }, [], [.created g])
  | .updateGroup g pos =>
    if g.groupId ∈ sub.groups.ids then
      some ({ sub with groups := sub.groups.put g pos }, [], [.updated g])
    else none
  | .deleteGroup gid =>
    if gid ∈ sub.groups.ids then
      some ({ sub with groups := sub.groups.erase gid }, [], [.deleted gid])
    else none

/-- `upsert_group`, which a Source engagement calls. -/
def Substrate.upsertGroup (sub : Substrate) (gid displayName : String) (members : List String)
    (pos : Nat) : Substrate × List GroupChange :=
  match sub.groups.find gid with
  | none =>
    let g : Group := ⟨gid, displayName, members, none⟩
    ({ sub with groups := sub.groups.put g pos }, [.created g])
  | some old =>
    let g := { old with displayName := displayName, members := members }
    if g = old then (sub, []) else ({ sub with groups := sub.groups.put g pos }, [.updated g])

-- ---------------------------------------------------------------------------
-- The subscriber
-- ---------------------------------------------------------------------------

/-- Where the handler of an event stands, between its awaits. -/
inductive Handler
  | idle
  | readingRole
  | resolving (role : Role)
  | engaging (role : Role) (groupId : Option String) (members : List String)
  | upserting (groupId displayName : String) (members : List String)
  deriving DecidableEq, Repr

structure System where
  sub : Substrate
  roleQueue : List RoleChange
  groupQueue : List GroupChange
  handler : Handler
  engaged : RoleEngagement

inductive SystemAct
  | op (o : Op)
  | takeRole
  | takeGroup
  -- a channel reports that its oldest events are lost
  | lagRole (n : Nat)
  | lagGroup (n : Nat)
  | readRole (fault : Bool)
  | resolve (fault : Bool)
  | engage
  | upsert (fault : Bool) (pos : Nat)
  deriving DecidableEq, Repr

def afterEngage (effects : List Effect) : Handler :=
  (effects.findSome? fun
    | .upsertGroup gid displayName members => some (.upserting gid displayName members)
    | _ => none).getD .idle

def System.step (ctx : EngagementContext) (s : System) : SystemAct → Option System
  | .op o =>
    match s.sub.apply o with
    | some (sub, roleEvents, groupEvents) => some { s with
        sub := sub
        roleQueue := s.roleQueue ++ roleEvents
        groupQueue := s.groupQueue ++ groupEvents }
    | none => none
  | .takeRole =>
    match s.handler, s.roleQueue with
    | .idle, e :: rest =>
      let handler := ((e.roleFor ctx.localDeviceId).map Handler.resolving).getD .idle
      some { s with roleQueue := rest, handler := handler }
    | _, _ => none
  | .takeGroup =>
    match s.handler, s.groupQueue with
    | .idle, e :: rest =>
      let handler := if e.affects ctx.localDeviceId then .readingRole else .idle
      some { s with groupQueue := rest, handler := handler }
    | _, _ => none
  -- `recover_from_substrate` goes on as the group handler does
  | .lagRole n =>
    match s.handler with
    | .idle => some { s with roleQueue := s.roleQueue.drop n, handler := .readingRole }
    | _ => none
  | .lagGroup n =>
    match s.handler with
    | .idle => some { s with groupQueue := s.groupQueue.drop n, handler := .readingRole }
    | _ => none
  | .readRole fault =>
    match s.handler with
    | .readingRole =>
      let read := if fault then .error () else .ok (s.sub.getRole ctx.localDeviceId)
      some { s with handler := .resolving (currentRole read) }
    | _ => none
  | .resolve fault =>
    match s.handler with
    | .resolving role =>
      let listed := if fault then .error () else .ok (s.sub.groups.forDevice ctx.localDeviceId)
      let found := resolveLocalGroupState listed
      some { s with handler := .engaging role found.1 found.2 }
    | _ => none
  | .engage =>
    match s.handler with
    | .engaging role groupId members =>
      let out := engageRole ctx s.engaged role groupId members []
      some { s with engaged := out.1, handler := afterEngage out.2 }
    | _ => none
  | .upsert fault pos =>
    match s.handler with
    | .upserting gid displayName members =>
      if fault then some { s with handler := .idle }
      else
        let out := s.sub.upsertGroup gid displayName members pos
        some { s with sub := out.1, groupQueue := s.groupQueue ++ out.2, handler := .idle }
    | _ => none

/-- Nothing left to handle. -/
def System.Quiet (s : System) : Prop :=
  s.roleQueue = [] ∧ s.groupQueue = [] ∧ s.handler = .idle

instance (s : System) : Decidable s.Quiet := inferInstanceAs (Decidable (_ ∧ _ ∧ _))

/-- Nothing to handle yet, and the engaged pair is the one asked for. -/
structure System.InSync (localId : String) (s : System) : Prop where
  quiet : s.Quiet
  engaged : s.engaged.pair = effectivePair localId s.sub

/-- No update takes the local device out of the group listed first for it,
and the reads of the handlers are answered. -/
def System.LocalKept (ctx : EngagementContext) (s : System) : SystemAct → Prop
  | .op (.updateGroup g _) =>
    ∀ first ∈ (s.sub.groups.forDevice ctx.localDeviceId).head?,
      first.groupId = g.groupId → ctx.localDeviceId ∈ g.members
  | .readRole fault | .resolve fault => fault = false
  | _ => True

instance (ctx : EngagementContext) (s : System) : (a : SystemAct) → Decidable (s.LocalKept ctx a)
  | .op (.updateGroup g _) => inferInstanceAs (Decidable
      (∀ first ∈ (s.sub.groups.forDevice ctx.localDeviceId).head?,
        first.groupId = g.groupId → ctx.localDeviceId ∈ g.members))
  | .readRole fault | .resolve fault => inferInstanceAs (Decidable (fault = false))
  | .op (.setRole ..) | .op (.clearRole ..) | .op (.createGroup ..) | .op (.deleteGroup ..)
  | .takeRole | .takeGroup | .lagRole _ | .lagGroup _ | .engage | .upsert .. => .isTrue trivial

-- ---------------------------------------------------------------------------
-- What of the substrate matters to the local device
-- ---------------------------------------------------------------------------

/-- What a handler that reads everything now would go by. -/
def Substrate.localView (localId : String) (sub : Substrate) : Role × Option String × List String :=
  (sub.getRole localId, resolveLocalGroupState (.ok (sub.groups.forDevice localId)))

theorem resolveLocalGroupState_head? (listed : List Group) :
    resolveLocalGroupState (.ok listed) =
      (listed.head?.map Group.groupId, (listed.head?.map Group.members).getD []) := by
  cases listed <;> rfl

theorem resolveLocalGroupState_mem (sub : Substrate)
    (h : resolveLocalGroupState (.ok (sub.groups.forDevice localId)) = (some gid, members)) :
    localId ∈ members := by
  cases hl : sub.groups.forDevice localId with
  | nil => simp [hl, resolveLocalGroupState] at h
  | cons g rest =>
    have hg : g ∈ sub.groups.forDevice localId := by simp [hl]
    simp only [hl, resolveLocalGroupState, Prod.mk.injEq] at h
    rw [← h.2]
    simpa [Groups.forDevice] using (List.mem_filter.mp hg).2

/-- Engaging what the substrate says now gives the pair it asks for. -/
theorem engageRole_effective (ctx : EngagementContext) (e : RoleEngagement) (sub : Substrate) :
    (engageRole ctx e (sub.localView ctx.localDeviceId).1 (sub.localView ctx.localDeviceId).2.1
      (sub.localView ctx.localDeviceId).2.2 []).1.pair = effectivePair ctx.localDeviceId sub := by
  rw [engageRole_pair]
  cases hl : sub.groups.forDevice ctx.localDeviceId with
  | nil =>
    simp only [Substrate.localView, effectivePair, hl, resolveLocalGroupState, groupIsLive]
    cases sub.getRole ctx.localDeviceId <;> rfl
  | cons g rest =>
    simp only [Substrate.localView, effectivePair, hl, resolveLocalGroupState]
    rw [groupIsLive_some, effectiveRole_decide]

theorem localView_roles {sub : Substrate} (h : Function.update sub.roles device r localId = sub.roles localId) :
    Substrate.localView localId { sub with roles := Function.update sub.roles device r } =
      sub.localView localId := by
  simp only [Substrate.localView, Substrate.getRole, h]

theorem localView_groups {sub : Substrate} {groups : Groups}
    (h : (groups.forDevice localId).head? = (sub.groups.forDevice localId).head?) :
    Substrate.localView localId { sub with groups := groups } = sub.localView localId := by
  simp only [Substrate.localView, Substrate.getRole, resolveLocalGroupState_head?, h]

theorem lastNewRole_singleton (dev : String) (e : RoleChange) :
    lastNewRole dev [e] = e.roleFor dev := by
  cases h : e.roleFor dev <;> simp [lastNewRole, h]

theorem lastNewRole_append :
    lastNewRole dev (xs ++ ys) = (lastNewRole dev ys).or (lastNewRole dev xs) := by
  simp [lastNewRole, List.filterMap_append, List.getLast?_append]

/-- What the coordinator can tell from the events of a change: they leave the
local view alone, or a role event carries the role as it is now, or a group
event passes the filter. -/
def Announced (localId : String) (sub sub' : Substrate) (roleEvents : List RoleChange)
    (groupEvents : List GroupChange) : Prop :=
  (lastNewRole localId roleEvents = none ∧ sub'.getRole localId = sub.getRole localId ∧
    (sub'.localView localId = sub.localView localId ∨
      ∃ e ∈ groupEvents, e.affects localId = true)) ∨
  lastNewRole localId roleEvents = some (sub'.getRole localId)

theorem Announced.role {sub : Substrate} {r : Option Role} {e : RoleChange}
    (he : e.roleFor localId = if device = localId then some (r.getD .auto) else none) :
    Announced localId sub { sub with roles := Function.update sub.roles device r } [e] [] := by
  rw [Announced, lastNewRole_singleton, he]
  by_cases hd : device = localId
  · subst hd
    right
    simp [Substrate.getRole]
  · have hsame : Function.update sub.roles device r localId = sub.roles localId := by
      simp [Ne.symm hd]
    refine .inl ⟨if_neg hd, ?_, .inl (localView_roles hsame)⟩
    simp only [Substrate.getRole, hsame]

theorem Announced.group {sub : Substrate} {g : Group} {e : GroupChange}
    (he : e.affects localId = g.members.any (· == localId))
    (hfirst : localId ∉ g.members → ∀ first ∈ (sub.groups.forDevice localId).head?,
      first.groupId ≠ g.groupId) (pos : Nat) :
    Announced localId sub { sub with groups := sub.groups.put g pos } [] [e] := by
  refine .inl ⟨rfl, rfl, ?_⟩
  by_cases hin : localId ∈ g.members
  · exact .inr ⟨e, by simp, by simpa [he] using hin⟩
  · exact .inl (localView_groups (Groups.head?_forDevice_put _ _ hin (hfirst hin)))

/-- An operation announces itself, unless it takes the device out of its first
group. -/
theorem Substrate.apply_view {sub sub' : Substrate}
    (h : sub.apply o = some (sub', roleEvents, groupEvents))
    (hkept : ∀ g pos, o = .updateGroup g pos →
      ∀ first ∈ (sub.groups.forDevice localId).head?,
        first.groupId = g.groupId → localId ∈ g.members) :
    Announced localId sub sub' roleEvents groupEvents := by
  cases o with
  | setRole device role =>
    simp only [Substrate.apply] at h
    split at h
    · cases h
      exact .inl ⟨rfl, rfl, .inl rfl⟩
    · cases h
      exact Announced.role rfl
  | clearRole device =>
    simp only [Substrate.apply] at h
    split at h
    · cases h
      exact .inl ⟨rfl, rfl, .inl rfl⟩
    · cases h
      exact Announced.role rfl
  | createGroup g pos =>
    simp only [Substrate.apply] at h
    split at h
    · contradiction
    · rename_i hnew
      cases h
      refine Announced.group rfl (fun _ first hfirst heq => ?_) pos
      -- a listed group is recorded already, the new one is not
      have hmem := List.mem_of_mem_head? hfirst
      exact hnew (heq ▸ List.mem_map_of_mem (List.mem_of_mem_filter hmem))
  | updateGroup g pos =>
    simp only [Substrate.apply] at h
    split at h
    · cases h
      refine Announced.group rfl (fun hout first hfirst heq => ?_) pos
      exact hout (hkept g pos rfl first hfirst heq)
    · contradiction
  | deleteGroup gid =>
    simp only [Substrate.apply] at h
    split at h
    · cases h
      exact .inl ⟨rfl, rfl, .inr ⟨.deleted gid, by simp, rfl⟩⟩
    · contradiction

theorem Substrate.upsertGroup_view (sub : Substrate) (gid displayName : String) (pos : Nat)
    (hin : localId ∈ members) :
    (sub.upsertGroup gid displayName members pos).1.getRole localId = sub.getRole localId ∧
      ((sub.upsertGroup gid displayName members pos).1 = sub ∨
        ∃ e ∈ (sub.upsertGroup gid displayName members pos).2, e.affects localId = true) := by
  simp only [Substrate.upsertGroup]
  split
  · exact ⟨rfl, .inr ⟨_, List.mem_singleton_self _, by simpa [GroupChange.affects] using hin⟩⟩
  · split
    · exact ⟨rfl, .inl rfl⟩
    · exact ⟨rfl, .inr ⟨_, List.mem_singleton_self _, by simpa [GroupChange.affects] using hin⟩⟩

-- ---------------------------------------------------------------------------
-- The invariant
-- ---------------------------------------------------------------------------

/-- The handler carries nothing stale: if no further event came, it would end
with the effective pair engaged. -/
def System.OnCourse (localId : String) (s : System) : Prop :=
  match s.handler with
  | .idle | .upserting .. => s.engaged.pair = effectivePair localId s.sub
  | .readingRole => True
  | .resolving role => role = s.sub.getRole localId
  | .engaging role groupId members => (role, groupId, members) = s.sub.localView localId

/-- The groups the handler holds list the local device. -/
def Handler.HoldsLocal (localId : String) : Handler → Prop
  | .engaging _ (some _) members | .upserting _ _ members => localId ∈ members
  | _ => True

structure System.Tracking (localId : String) (s : System) : Prop where
  /-- The last role event waiting carries the role as it is. -/
  fresh : ∀ role ∈ lastNewRole localId s.roleQueue, role = s.sub.getRole localId
  holds : s.handler.HoldsLocal localId
  due : lastNewRole localId s.roleQueue ≠ none ∨
    (∃ e ∈ s.groupQueue, e.affects localId = true) ∨ s.OnCourse localId

theorem effectivePair_congr {sub sub' : Substrate}
    (h : sub'.localView localId = sub.localView localId) :
    effectivePair localId sub' = effectivePair localId sub := by
  have engage := engageRole_effective ⟨localId, ""⟩ ⟨.auto, none, false, false⟩
  rw [← engage sub, ← engage sub', h]

theorem System.OnCourse.congr {s s' : System} (h : s.OnCourse localId)
    (hhandler : s'.handler = s.handler) (hengaged : s'.engaged = s.engaged)
    (hview : s'.sub.localView localId = s.sub.localView localId) : s'.OnCourse localId := by
  have hrole : s'.sub.getRole localId = s.sub.getRole localId := congrArg Prod.fst hview
  unfold System.OnCourse at h ⊢
  rw [hhandler, hengaged]
  cases hs : s.handler with
  | idle => simpa only [hs, effectivePair_congr hview] using h
  | readingRole => trivial
  | resolving role => simpa only [hs, hrole] using h
  | engaging role groupId members => simpa only [hs, hview] using h
  | upserting gid displayName members => simpa only [hs, effectivePair_congr hview] using h

theorem System.Tracking.op {s : System} (h : s.Tracking ctx.localDeviceId)
    (hkept : s.LocalKept ctx (.op o)) (hstep : s.step ctx (.op o) = some s') :
    s'.Tracking ctx.localDeviceId := by
  simp only [System.step] at hstep
  split at hstep
  · rename_i sub roleEvents groupEvents happly
    cases hstep
    have hview := Substrate.apply_view happly (by rintro g pos rfl; exact hkept)
    rcases hview with ⟨hnone, hrole, hview⟩ | hsome
    · refine ⟨?_, h.holds, ?_⟩
      · simpa only [lastNewRole_append, hnone, Option.none_or, hrole] using h.fresh
      · simp only [lastNewRole_append, hnone, Option.none_or]
        rcases hview with hview | ⟨e, he, haffects⟩
        · refine h.due.imp_right (Or.imp ?_ ?_)
          · rintro ⟨e, he, haffects⟩
            exact ⟨e, List.mem_append_left _ he, haffects⟩
          · intro hc
            exact hc.congr rfl rfl hview
        · exact .inr (.inl ⟨e, List.mem_append_right _ he, haffects⟩)
    · refine ⟨?_, h.holds, .inl ?_⟩
      · simp only [lastNewRole_append, hsome, Option.some_or]
        rintro _ ⟨⟩
        rfl
      · simp [lastNewRole_append, hsome]
  · contradiction

theorem System.Tracking.takeRole {s : System} (h : s.Tracking ctx.localDeviceId)
    (hstep : s.step ctx .takeRole = some s') : s'.Tracking ctx.localDeviceId := by
  simp only [System.step] at hstep
  split at hstep
  · rename_i e rest hidle hqueue
    cases hstep
    have hlast : lastNewRole ctx.localDeviceId s.roleQueue =
        (lastNewRole ctx.localDeviceId rest).or (e.roleFor ctx.localDeviceId) := by
      rw [hqueue, ← List.singleton_append, lastNewRole_append, lastNewRole_singleton]
    have hfresh := h.fresh
    have hdue := h.due
    rw [hlast] at hfresh hdue
    refine ⟨fun role hrole => hfresh role (by simp_all), ?_, ?_⟩
    · cases e.roleFor ctx.localDeviceId <;> trivial
    · cases hrest : lastNewRole ctx.localDeviceId rest with
      | some role => exact .inl (by simp)
      | none =>
        refine .inr ?_
        cases he : e.roleFor ctx.localDeviceId with
        | some role =>
          -- the last role event: what it carries is current
          exact .inr (hfresh role (by simp [hrest, he]))
        | none =>
          simp only [hrest, he, Option.or_self, ne_eq, not_true_eq_false, false_or] at hdue
          refine hdue.imp_right fun hc => hc.congr ?_ rfl rfl
          simp [hidle]
  · contradiction

theorem System.Tracking.takeGroup {s : System} (h : s.Tracking ctx.localDeviceId)
    (hstep : s.step ctx .takeGroup = some s') : s'.Tracking ctx.localDeviceId := by
  simp only [System.step] at hstep
  split at hstep
  · rename_i e rest hidle hqueue
    cases hstep
    cases haffects : e.affects ctx.localDeviceId with
    | true => exact ⟨h.fresh, trivial, .inr (.inr trivial)⟩
    | false =>
      refine ⟨h.fresh, trivial, h.due.imp_right (Or.imp ?_ ?_)⟩
      · rintro ⟨e', he', ha⟩
        rw [hqueue] at he'
        rcases List.mem_cons.mp he' with rfl | he'
        · rw [haffects] at ha
          contradiction
        · exact ⟨e', he', ha⟩
      · intro hc
        exact hc.congr (by simp [hidle]) rfl rfl
  · contradiction

/-- Falling behind on a channel loses events, but what comes next reads
everything anew. -/
theorem System.Tracking.lag {s : System} (h : s.Tracking localId) (n : Nat)
    (queue : List GroupChange) :
    System.Tracking localId
      { s with roleQueue := s.roleQueue.drop n, groupQueue := queue, handler := .readingRole } := by
  refine ⟨?_, trivial, .inr (.inr trivial)⟩
  intro role hrole
  apply h.fresh
  rw [← List.take_append_drop n s.roleQueue, lastNewRole_append]
  simp_all

theorem System.Tracking.readRole {s : System} (h : s.Tracking ctx.localDeviceId)
    (hkept : s.LocalKept ctx (.readRole fault)) (hstep : s.step ctx (.readRole fault) = some s') :
    s'.Tracking ctx.localDeviceId := by
  obtain rfl : fault = false := hkept
  simp only [System.step] at hstep
  split at hstep
  · cases hstep
    exact ⟨h.fresh, trivial, .inr (.inr rfl)⟩
  · contradiction

theorem System.Tracking.resolve {s : System} (h : s.Tracking ctx.localDeviceId)
    (hkept : s.LocalKept ctx (.resolve fault)) (hstep : s.step ctx (.resolve fault) = some s') :
    s'.Tracking ctx.localDeviceId := by
  obtain rfl : fault = false := hkept
  simp only [System.step] at hstep
  split at hstep
  · rename_i role hresolving
    cases hstep
    refine ⟨h.fresh, ?_, h.due.imp_right (Or.imp_right ?_)⟩
    · cases hfound : resolveLocalGroupState (.ok (s.sub.groups.forDevice ctx.localDeviceId)) with
      | mk groupId members =>
        cases groupId with
        | none => simp [Handler.HoldsLocal, hfound]
        | some gid => simpa [Handler.HoldsLocal, hfound] using resolveLocalGroupState_mem s.sub hfound
    · intro hc
      simp only [System.OnCourse, hresolving] at hc
      subst hc
      rfl
  · contradiction

theorem afterEngage_cases (effects : List Effect) :
    afterEngage effects = .idle ∨ ∃ gid displayName members,
      afterEngage effects = .upserting gid displayName members ∧
        .upsertGroup gid displayName members ∈ effects := by
  unfold afterEngage
  cases h : effects.findSome? _ with
  | none => exact .inl rfl
  | some handler =>
    obtain ⟨effect, hmem, heffect⟩ := List.exists_of_findSome?_eq_some h
    cases effect with
    | upsertGroup gid displayName members =>
      cases heffect
      exact .inr ⟨gid, displayName, members, rfl, hmem⟩
    | _ => contradiction

theorem System.Tracking.engage {s : System} (h : s.Tracking ctx.localDeviceId)
    (hstep : s.step ctx .engage = some s') : s'.Tracking ctx.localDeviceId := by
  simp only [System.step] at hstep
  split at hstep
  · rename_i role groupId members hengaging
    cases hstep
    have hnext := afterEngage_cases (engageRole ctx s.engaged role groupId members []).2
    have hholds := h.holds
    rw [hengaging] at hholds
    refine ⟨h.fresh, ?_, h.due.imp_right (Or.imp_right ?_)⟩
    · rcases hnext with hidle | ⟨gid, displayName, mem, hup, hmem⟩
      · simp only [hidle, Handler.HoldsLocal]
      · obtain ⟨rfl, rfl⟩ := engageRole_upsert hmem
        simpa only [hup, Handler.HoldsLocal] using hholds
    · intro hc
      simp only [System.OnCourse, hengaging] at hc
      have hpair := engageRole_effective ctx s.engaged s.sub
      rw [← hc] at hpair
      rcases hnext with hidle | ⟨gid, displayName, mem, hup, -⟩
      · simpa only [System.OnCourse, hidle] using hpair
      · simpa only [System.OnCourse, hup] using hpair
  · contradiction

theorem System.Tracking.upsert {s : System} (h : s.Tracking ctx.localDeviceId)
    (hstep : s.step ctx (.upsert fault pos) = some s') : s'.Tracking ctx.localDeviceId := by
  simp only [System.step] at hstep
  split at hstep
  · rename_i gid displayName members hupserting
    have hin : ctx.localDeviceId ∈ members := by
      simpa only [hupserting, Handler.HoldsLocal] using h.holds
    have hcourse : s.OnCourse ctx.localDeviceId →
        s.engaged.pair = effectivePair ctx.localDeviceId s.sub := by
      simp only [System.OnCourse, hupserting, imp_self]
    split at hstep
    · cases hstep
      exact ⟨h.fresh, trivial, h.due.imp_right (Or.imp_right hcourse)⟩
    · cases hstep
      obtain ⟨hrole, hsub⟩ := s.sub.upsertGroup_view gid displayName pos hin
      refine ⟨by simpa only [hrole] using h.fresh, trivial, ?_⟩
      rcases hsub with hsub | ⟨e, he, haffects⟩
      · refine h.due.imp_right (Or.imp ?_ ?_)
        · rintro ⟨e, he, haffects⟩
          exact ⟨e, List.mem_append_left _ he, haffects⟩
        · intro hc
          simpa only [System.OnCourse, hsub] using hcourse hc
      · exact .inr (.inl ⟨e, List.mem_append_right _ he, haffects⟩)
  · contradiction

theorem System.Tracking.step {s : System} (h : s.Tracking ctx.localDeviceId)
    (hkept : s.LocalKept ctx a) (hstep : s.step ctx a = some s') :
    s'.Tracking ctx.localDeviceId := by
  cases a with
  | op o => exact h.op hkept hstep
  | takeRole => exact h.takeRole hstep
  | takeGroup => exact h.takeGroup hstep
  | lagRole n =>
    simp only [System.step] at hstep
    split at hstep
    · cases hstep
      exact h.lag n s.groupQueue
    · contradiction
  | lagGroup n =>
    simp only [System.step] at hstep
    split at hstep
    · cases hstep
      exact h.lag 0 (s.groupQueue.drop n)
    · contradiction
  | readRole fault => exact h.readRole hkept hstep
  | resolve fault => exact h.resolve hkept hstep
  | engage => exact h.engage hstep
  | upsert fault pos => exact h.upsert hstep

theorem System.InSync.tracking {s : System} (h : s.InSync localId) : s.Tracking localId := by
  obtain ⟨⟨hroles, -, hidle⟩, hengaged⟩ := h
  refine ⟨by simp [hroles, lastNewRole], by simp [hidle, Handler.HoldsLocal], .inr (.inr ?_)⟩
  simpa only [System.OnCourse, hidle] using hengaged

/-- In every run that keeps the local device in the group listed first for
it, once everything is handled the engaged pair is the effective one. -/
theorem engaged_eq_effective (ctx : EngagementContext) (s s' : System) (acts : List SystemAct)
    (hstart : s.InSync ctx.localDeviceId)
    (hkept : Meets (System.step ctx) (System.LocalKept ctx) s acts)
    (hrun : exec (System.step ctx) s acts = some s') (hquiet : s'.Quiet) :
    s'.engaged.pair = effectivePair ctx.localDeviceId s'.sub := by
  have htracking : s'.Tracking ctx.localDeviceId :=
    exec_invariant (fun h hk hs => System.Tracking.step h hk hs) hstart.tracking hkept hrun
  obtain ⟨hroles, hgroups, hidle⟩ := hquiet
  rcases htracking.due with hrole | ⟨e, he, -⟩ | hcourse
  · simp [hroles, lastNewRole] at hrole
  · simp [hgroups] at he
  · simpa only [System.OnCourse, hidle] using hcourse

def devA : EngagementContext := ⟨"dev-a", ""⟩

def den (members : List String) : Group := ⟨"g", "Den", members, none⟩

def System.empty : System :=
  ⟨⟨fun _ => none, ⟨[], by simp⟩⟩, [], [], .idle, ⟨.auto, none, false, false⟩⟩

theorem System.empty_inSync : System.empty.InSync "dev-a" :=
  ⟨⟨rfl, rfl, rfl⟩, rfl⟩

/-- Made a source, then put into a group with another device; the
engagement renames the group, which comes back as one more event. -/
def joining : List SystemAct :=
  [.op (.setRole "dev-a" .source), .op (.createGroup (den ["dev-a", "dev-b"]) 0),
    .takeRole, .resolve false, .engage, .upsert false 0,
    .takeGroup, .readRole false, .resolve false, .engage,
    .takeGroup, .readRole false, .resolve false, .engage]

theorem engaged_eq_effective_joining :
    ∃ s', exec (System.step devA) System.empty joining = some s' ∧
      s'.engaged.pair = effectivePair "dev-a" s'.sub ∧ s'.engaged.pair = (.source, some "g") := by
  obtain ⟨s', hrun, hp⟩ := exec_of_any (System.step devA) System.empty joining
    (fun s => decide (s.Quiet ∧ s.engaged.pair = (.source, some "g"))) (by decide)
  obtain ⟨hquiet, hpair⟩ := of_decide_eq_true hp
  exact ⟨s', hrun,
    engaged_eq_effective devA System.empty s' joining System.empty_inSync (by decide) hrun hquiet,
    hpair⟩

/-- The same, and then the local device is taken out of the group. -/
theorem engaged_ne_effective_leaving :
    ∃ s', exec (System.step devA) System.empty
        (joining ++ [.op (.updateGroup (den ["dev-b"]) 0), .takeGroup]) = some s' ∧
      s'.Quiet ∧ s'.engaged.pair = (.source, some "g") ∧
      effectivePair "dev-a" s'.sub = (.auto, none) := by
  obtain ⟨s', hrun, hp⟩ := exec_of_any (System.step devA) System.empty
    (joining ++ [.op (.updateGroup (den ["dev-b"]) 0), .takeGroup])
    (fun s => decide (s.Quiet ∧ s.engaged.pair = (.source, some "g") ∧
      effectivePair "dev-a" s.sub = (.auto, none))) (by decide)
  exact ⟨s', hrun, of_decide_eq_true hp⟩

end EvoAudio.Multiroom
