import EvoAudio.Lib.Machine
import EvoAudio.Lib.Streaks
import Mathlib.Algebra.Order.Group.Nat
import Mathlib.Data.List.Chain

/-!
# The reachability supervisor

Each snapshot of the links is classified, and the view counts how many in a row were
classified alike. After enough of them without an uplink the recovery hotspot is raised, and
given up after enough serviceable ones. A raise that does not come up takes its mark off the view
again. The views go out on a watch channel, and a second task emits what has changed between the
views that it gets to see.
-/

namespace EvoAudio.Network

open Machine Streaks

-- ---------------------------------------------------------------------------
-- The classifier
-- ---------------------------------------------------------------------------

inductive ReachabilityState where
  | unknown
  | online
  | portal
  | limited
  | offline
deriving DecidableEq, Repr

def ReachabilityState.isServiceable : ReachabilityState → Bool
  | .online | .limited => true
  | .unknown | .portal | .offline => false

structure SupervisorObservations where
  nmConnectivity : Option (List Char)
  probeHttpCode : Option UInt16
  probeEffectiveUrl : Option (List Char)
  ethernetCarrierUp : Bool
  wifiAssociated : Bool
deriving DecidableEq, Repr

/-- What NetworkManager says, when it is one of its four definite answers. -/
def nmVerdict (connectivity : List Char) : Option ReachabilityState :=
  if connectivity = "full".toList then some .online
  else if connectivity = "portal".toList then some .portal
  else if connectivity = "limited".toList then some .limited
  else if connectivity = "none".toList then some .offline
  else none

def probeVerdict (obs : SupervisorObservations) : ReachabilityState :=
  if obs.probeEffectiveUrl.isSome && obs.probeHttpCode.any (· != 204) then .portal
  else if obs.probeHttpCode = some 204 then .online
  else .limited

def classifyReachability (obs : SupervisorObservations) : ReachabilityState :=
  if !(obs.ethernetCarrierUp || obs.wifiAssociated) then .offline
  else (obs.nmConnectivity.bind nmVerdict).getD (probeVerdict obs)

-- ---------------------------------------------------------------------------
-- One step of the state machine
-- ---------------------------------------------------------------------------

structure PortalInfo where
  portalUrl : List Char
  since : Option Nat
deriving DecidableEq, Repr

structure SupervisorView where
  reachability : ReachabilityState
  lastObservations : SupervisorObservations
  portal : Option PortalInfo
  criticalRecoveryActive : Bool
  stateTicks : Nat
  everServiceable : Bool
deriving DecidableEq, Repr

/-- The view before the first snapshot. -/
def SupervisorView.initial : SupervisorView where
  reachability := .unknown
  lastObservations := ⟨none, none, none, false, false⟩
  portal := none
  criticalRecoveryActive := false
  stateTicks := 0
  everServiceable := false

structure SupervisorConfig where
  intervalMs : UInt64
  criticalGraceMs : UInt64
  bootTransientGraceMs : UInt64
  restoreGraceMs : UInt64
  coldStartWindowMs : UInt64

inductive SupervisorDecision where
  | noAction
  | raiseCriticalRecovery
  | restoreSta
deriving DecidableEq, Repr

def ticksMax : Nat := 2 ^ 32 - 1

structure GraceTimings where
  offlineMs : Nat
  serviceableMs : Nat

/-- The time that the ticks stand for. No clock is read. -/
def ticksToCover (stateTicks : Nat) (state : ReachabilityState) (config : SupervisorConfig) :
    GraceTimings :=
  let elapsed := min (stateTicks * config.intervalMs.toNat) (2 ^ 64 - 1)
  { offlineMs := if state = .offline then elapsed else 0
    serviceableMs := if state.isServiceable then elapsed else 0 }

def effectiveGraceMs (config : SupervisorConfig) (everServiceable : Bool) : Nat :=
  if everServiceable then config.criticalGraceMs.toNat else config.bootTransientGraceMs.toNat

def decision (config : SupervisorConfig) (critical : Bool) (reachability : ReachabilityState)
    (stateTicks : Nat) (everServiceable : Bool) : SupervisorDecision :=
  let timings := ticksToCover stateTicks reachability config
  if critical = false ∧ reachability = .offline ∧
      effectiveGraceMs config everServiceable ≤ timings.offlineMs then .raiseCriticalRecovery
  else if critical = true ∧ reachability.isServiceable = true ∧
      config.restoreGraceMs.toNat ≤ timings.serviceableMs then .restoreSta
  else .noAction

/-- `critical_recovery_active` behind a decision. -/
def SupervisorDecision.latch (critical : Bool) : SupervisorDecision → Bool
  | .noAction => critical
  | .raiseCriticalRecovery => true
  | .restoreSta => false

def step (config : SupervisorConfig) (prev : SupervisorView) (obs : SupervisorObservations)
    (now : Nat) : SupervisorView × SupervisorDecision :=
  let reachability := classifyReachability obs
  let stateTicks :=
    if reachability = prev.reachability then min (prev.stateTicks + 1) ticksMax else 1
  let portal :=
    if reachability = .portal then
      some { portalUrl := obs.probeEffectiveUrl.getD []
             since := (prev.portal.bind (·.since)).or (some now) : PortalInfo }
    else none
  let everServiceable := prev.everServiceable || reachability.isServiceable
  let decided := decision config prev.criticalRecoveryActive reachability stateTicks
    everServiceable
  ({ reachability, lastObservations := obs, portal
     criticalRecoveryActive := decided.latch prev.criticalRecoveryActive
     stateTicks, everServiceable }, decided)

-- ---------------------------------------------------------------------------
-- The view of a history
-- ---------------------------------------------------------------------------

/-- A snapshot and the time it was taken at. -/
structure Probe where
  obs : SupervisorObservations
  now : Nat
deriving DecidableEq, Repr

def Probe.reachability (p : Probe) : ReachabilityState := classifyReachability p.obs

/-- How often in a row, up to the newest probe, the links were classified as they are. -/
def ticks (probes : List Probe) : Nat := min (streak Probe.reachability probes).length ticksMax

def everServiceable (probes : List Probe) : Bool := probes.any (·.reachability.isServiceable)

/-- The portal since the first probe of the streak that has seen it. -/
def portalOf : List Probe → Option PortalInfo
  | [] => none
  | p :: older =>
    if p.reachability = .portal then
      some { portalUrl := p.obs.probeEffectiveUrl.getD []
             since := (streak Probe.reachability (p :: older)).getLast?.map (·.now) }
    else none

/-- What the view should be behind a history, the newest probe in front. -/
def viewOf (critical : Bool) : List Probe → SupervisorView
  | [] => { SupervisorView.initial with criticalRecoveryActive := critical }
  | p :: older =>
    { reachability := p.reachability
      lastObservations := p.obs
      portal := portalOf (p :: older)
      criticalRecoveryActive := critical
      stateTicks := ticks (p :: older)
      everServiceable := everServiceable (p :: older) }

@[simp] theorem criticalRecoveryActive_viewOf (critical : Bool) (probes : List Probe) :
    (viewOf critical probes).criticalRecoveryActive = critical := by
  cases probes <;> rfl

/-- What should be decided behind a history. -/
def decisionOf (config : SupervisorConfig) (critical : Bool) : List Probe → SupervisorDecision
  | [] => .noAction
  | p :: older =>
    decision config critical p.reachability (ticks (p :: older)) (everServiceable (p :: older))

theorem nmVerdict_ne_unknown (connectivity : List Char) :
    nmVerdict connectivity ≠ some .unknown := by
  unfold nmVerdict
  split_ifs <;> simp

theorem probeVerdict_ne_unknown (obs : SupervisorObservations) : probeVerdict obs ≠ .unknown := by
  unfold probeVerdict
  split_ifs <;> simp

theorem reachability_ne_unknown (p : Probe) : p.reachability ≠ .unknown := by
  unfold Probe.reachability classifyReachability
  split
  · simp
  · cases h : p.obs.nmConnectivity.bind nmVerdict with
    | none => exact probeVerdict_ne_unknown p.obs
    | some verdict =>
      obtain ⟨connectivity, -, hverdict⟩ := Option.bind_eq_some_iff.mp h
      rintro rfl
      exact nmVerdict_ne_unknown connectivity hverdict

theorem ticks_cons (p : Probe) (probes : List Probe) :
    ticks (p :: probes) =
      if p.reachability = (viewOf critical probes).reachability then
        min (ticks probes + 1) ticksMax
      else 1 := by
  cases probes with
  | nil => simp [viewOf, SupervisorView.initial, reachability_ne_unknown, ticks, ticksMax]
  | cons q older =>
    by_cases h : p.reachability = q.reachability
    · simp only [ticks, streak_cons_of_eq h, viewOf, h, if_true, List.length_cons]
      omega
    · simp [ticks, streak_cons_of_ne h, viewOf, h, ticksMax]

theorem portalOf_cons (p : Probe) (probes : List Probe) :
    portalOf (p :: probes) =
      if p.reachability = .portal then
        some ⟨p.obs.probeEffectiveUrl.getD [],
          ((viewOf critical probes).portal.bind (·.since)).or (some p.now)⟩
      else none := by
  simp only [portalOf]
  split_ifs with hportal
  · cases probes with
    | nil => simp [viewOf, SupervisorView.initial]
    | cons q older =>
      by_cases h : q.reachability = .portal
      · have hsame : p.reachability = q.reachability := hportal.trans h.symm
        rw [getLast?_streak_cons_of_eq hsame]
        simp [viewOf, portalOf, h, streak, List.getLast?_cons]
      · have hother : p.reachability ≠ q.reachability := by
          rw [hportal]
          exact Ne.symm h
        simp [streak_cons_of_ne hother, viewOf, portalOf, h]
  · rfl

/-- A step of the state machine takes the view of a history to the view of the history with
one more probe. -/
theorem step_viewOf (config : SupervisorConfig) (critical : Bool) (p : Probe)
    (probes : List Probe) :
    step config (viewOf critical probes) p.obs p.now =
      (viewOf ((decisionOf config critical (p :: probes)).latch critical) (p :: probes),
        decisionOf config critical (p :: probes)) := by
  have hticks : (viewOf critical probes).stateTicks = ticks probes := by
    cases probes <;> rfl
  have hever : (viewOf critical probes).everServiceable = everServiceable probes := by
    cases probes <;> rfl
  have hcons : everServiceable (p :: probes) =
      (everServiceable probes || p.reachability.isServiceable) := by
    simp [everServiceable, Bool.or_comm]
  have hclass : classifyReachability p.obs = p.reachability := rfl
  simp only [step]
  rw [criticalRecoveryActive_viewOf, hticks, hever, hclass, ← hcons, ← ticks_cons, ← portalOf_cons]
  rfl

-- ---------------------------------------------------------------------------
-- The probe cycle
-- ---------------------------------------------------------------------------

/-- Where `run_probe_cycle` waits: for its next call, or for an action to return. -/
inductive Phase where
  | idle
  | raising
  | restoring
deriving DecidableEq, Repr

def SupervisorDecision.phase : SupervisorDecision → Phase
  | .noAction => .idle
  | .raiseCriticalRecovery => .raising
  | .restoreSta => .restoring

theorem SupervisorDecision.phase_eq_raising {d : SupervisorDecision} :
    d.phase = .raising ↔ d = .raiseCriticalRecovery := by
  cases d <;> simp [SupervisorDecision.phase]

theorem SupervisorDecision.phase_eq_restoring {d : SupervisorDecision} :
    d.phase = .restoring ↔ d = .restoreSta := by
  cases d <;> simp [SupervisorDecision.phase]

/-- An action that has returned. A raise says whether the access point is up. -/
inductive RecoveryAction where
  | raise (up : Bool)
  | restore
deriving DecidableEq, Repr

/-- The task, with what it has seen and done so far, the newest in front. -/
structure Supervisor where
  view : SupervisorView
  phase : Phase
  probes : List Probe
  actions : List RecoveryAction
deriving DecidableEq, Repr

def Supervisor.initial : Supervisor := ⟨.initial, .idle, [], []⟩

inductive CycleStep where
  | probe (p : Probe)
  | raiseReturns (up : Bool)
  | restoreReturns
deriving DecidableEq, Repr

/-- `run_probe_cycle` from one point where it waits to the next. -/
def cycle (config : SupervisorConfig) (s : Supervisor) : CycleStep → Option Supervisor
  | .probe p =>
    if s.phase = .idle then
      let next := step config s.view p.obs p.now
      some { s with view := next.1, phase := next.2.phase, probes := p :: s.probes }
    else none
  | .raiseReturns up =>
    if s.phase = .raising then
      some { s with
        view := if up then s.view else { s.view with criticalRecoveryActive := false }
        phase := .idle
        actions := .raise up :: s.actions }
    else none
  | .restoreReturns =>
    if s.phase = .restoring then some { s with phase := .idle, actions := .restore :: s.actions }
    else none

/-- The actions but for the raises that did not come up. -/
def settled (actions : List RecoveryAction) : List RecoveryAction :=
  actions.filter (· ≠ .raise false)

def hotspotUp (actions : List RecoveryAction) : Bool :=
  (settled actions).head? == some (.raise true)

/-- The latch is ahead of an action that has not returned. -/
def Supervisor.latch (s : Supervisor) : Bool :=
  match s.phase with
  | .idle => hotspotUp s.actions
  | .raising => true
  | .restoring => false

@[simp] theorem settled_raise_true (actions : List RecoveryAction) :
    settled (.raise true :: actions) = .raise true :: settled actions := by
  simp [settled]

@[simp] theorem settled_raise_false (actions : List RecoveryAction) :
    settled (.raise false :: actions) = settled actions := by
  simp [settled]

@[simp] theorem settled_restore (actions : List RecoveryAction) :
    settled (.restore :: actions) = .restore :: settled actions := by
  simp [settled]

@[simp] theorem hotspotUp_raise_true (actions : List RecoveryAction) :
    hotspotUp (.raise true :: actions) = true := by
  simp [hotspotUp]

@[simp] theorem hotspotUp_raise_false (actions : List RecoveryAction) :
    hotspotUp (.raise false :: actions) = hotspotUp actions := by
  simp [hotspotUp]

@[simp] theorem hotspotUp_restore (actions : List RecoveryAction) :
    hotspotUp (.restore :: actions) = false := by
  simp [hotspotUp]

/-- The view follows the history, an action is only taken where it changes something, and so
the actions that have changed something take turns. -/
structure Tracks (s : Supervisor) : Prop where
  view : s.view = viewOf s.latch s.probes
  raising : s.phase = .raising → hotspotUp s.actions = false
  restoring : s.phase = .restoring → hotspotUp s.actions = true
  turns : List.IsChain (· ≠ ·) (settled s.actions)
  oldest : (settled s.actions).getLast? ≠ some .restore

theorem tracks_initial : Tracks .initial where
  view := rfl
  raising := by simp [Supervisor.initial]
  restoring := by simp [Supervisor.initial]
  turns := .nil
  oldest := by simp [Supervisor.initial, settled]

theorem effectiveGraceMs_lt (config : SupervisorConfig) (everServiceable : Bool) :
    effectiveGraceMs config everServiceable < 2 ^ 64 := by
  unfold effectiveGraceMs
  split
  · exact config.criticalGraceMs.toNat_lt
  · exact config.bootTransientGraceMs.toNat_lt

/-- A product that saturates is never short of a grace because of it. -/
theorem le_min_iff_of_lt {grace product : Nat} (h : grace < 2 ^ 64) :
    grace ≤ min product (2 ^ 64 - 1) ↔ grace ≤ product := by
  omega

theorem decisionOf_eq_raise : decisionOf config critical (p :: older) = .raiseCriticalRecovery ↔
    critical = false ∧ p.reachability = .offline ∧
      effectiveGraceMs config (everServiceable (p :: older)) ≤
        ticks (p :: older) * config.intervalMs.toNat := by
  rw [← le_min_iff_of_lt (effectiveGraceMs_lt config _)]
  simp only [decisionOf, decision, ticksToCover]
  split_ifs <;> simp_all

theorem decisionOf_eq_restore : decisionOf config critical (p :: older) = .restoreSta ↔
    critical = true ∧ p.reachability.isServiceable = true ∧
      config.restoreGraceMs.toNat ≤ ticks (p :: older) * config.intervalMs.toNat := by
  rw [← le_min_iff_of_lt config.restoreGraceMs.toNat_lt]
  simp only [decisionOf, decision, ticksToCover]
  split_ifs <;> simp_all

/-- What a step of the cycle can do. -/
theorem cycle_cases (ht : Tracks s) (h : cycle config s c = some s') :
    (∃ p, c = .probe p ∧ s.phase = .idle ∧
      s' = { s with
        view := viewOf ((decisionOf config (hotspotUp s.actions) (p :: s.probes)).latch
          (hotspotUp s.actions)) (p :: s.probes)
        phase := (decisionOf config (hotspotUp s.actions) (p :: s.probes)).phase
        probes := p :: s.probes }) ∨
    (∃ up, c = .raiseReturns up ∧ s.phase = .raising ∧
      s' = { s with view := viewOf up s.probes, phase := .idle
                    actions := .raise up :: s.actions }) ∨
    (c = .restoreReturns ∧ s.phase = .restoring ∧
      s' = { s with phase := .idle, actions := .restore :: s.actions }) := by
  cases c with
  | probe p =>
    left
    simp only [cycle] at h
    split_ifs at h with hidle
    have hview : s.view = viewOf (hotspotUp s.actions) s.probes := by
      simpa [Supervisor.latch, hidle] using ht.view
    rw [hview, step_viewOf] at h
    exact ⟨p, rfl, hidle, (Option.some.inj h).symm⟩
  | raiseReturns up =>
    right; left
    by_cases hraising : s.phase = .raising
    · have hview : s.view = viewOf true s.probes := by
        simpa [Supervisor.latch, hraising] using ht.view
      rw [cycle, if_pos hraising] at h
      refine ⟨up, rfl, hraising, (Option.some.inj h).symm.trans ?_⟩
      rw [hview]
      cases up <;> cases s.probes <;> rfl
    · rw [cycle, if_neg hraising] at h
      cases h
  | restoreReturns =>
    right; right
    simp only [cycle] at h
    split_ifs at h with hrestoring
    exact ⟨rfl, hrestoring, (Option.some.inj h).symm⟩

theorem tracks_cycle (ht : Tracks s) (h : cycle config s c = some s') : Tracks s' := by
  obtain ⟨p, rfl, hidle, rfl⟩ | ⟨up, rfl, hraising, rfl⟩ | ⟨rfl, hrestoring, rfl⟩ :=
    cycle_cases ht h
  · refine ⟨?_, fun hphase => ?_, fun hphase => ?_, ht.turns, ht.oldest⟩
    · cases hdecided : decisionOf config (hotspotUp s.actions) (p :: s.probes) <;> rfl
    · exact (decisionOf_eq_raise.mp (SupervisorDecision.phase_eq_raising.mp hphase)).1
    · exact (decisionOf_eq_restore.mp (SupervisorDecision.phase_eq_restoring.mp hphase)).1
  · have hdown := ht.raising hraising
    refine ⟨?_, by simp, by simp, ?_, ?_⟩
    · cases up <;> simp [Supervisor.latch, hdown]
    · cases up with
      | false => simpa using ht.turns
      | true =>
        have hnext : ∀ y ∈ (settled s.actions).head?, RecoveryAction.raise true ≠ y := by
          rintro y hy rfl
          simp [hotspotUp, Option.mem_def.mp hy] at hdown
        simpa using List.isChain_cons.mpr ⟨hnext, ht.turns⟩
    · cases up with
      | false => simpa using ht.oldest
      | true =>
        have holdest := ht.oldest
        cases hlast : (settled s.actions).getLast? <;> simp_all [List.getLast?_cons]
  · have hup := ht.restoring hrestoring
    have hhead : (settled s.actions).head? = some (.raise true) := by
      simpa [hotspotUp] using hup
    refine ⟨?_, by simp, by simp, ?_, ?_⟩
    · simpa [Supervisor.latch, hrestoring] using ht.view
    · have hnext : ∀ y ∈ (settled s.actions).head?, RecoveryAction.restore ≠ y := by
        simp [hhead]
      simpa using List.isChain_cons.mpr ⟨hnext, ht.turns⟩
    · have holdest := ht.oldest
      cases hlast : (settled s.actions).getLast? with
      | none =>
        have hnil : settled s.actions = [] := List.getLast?_eq_none_iff.mp hlast
        simp [hnil] at hhead
      | some last => simp_all [List.getLast?_cons]

theorem tracks_of_run (h : exec (cycle config) .initial steps = some s) : Tracks s :=
  exec_invariant_all (fun ht hstep => tracks_cycle ht hstep) tracks_initial h

-- ---------------------------------------------------------------------------
-- Every run of cycles
-- ---------------------------------------------------------------------------

/-- The published view is the view of all the probes so far: the class and the snapshot of the
newest, how long it has been so, the portal since it was first seen, and the latch. -/
theorem view_of_run (h : exec (cycle config) .initial steps = some s) :
    s.view = viewOf s.latch s.probes :=
  (tracks_of_run h).view

/-- A raise is called exactly when the access point is down and the offline probes in a row
stand for the grace, by their number alone, and a restore exactly when it is up and the probes
of one serviceable class do. A raise that has not come up leaves the next offline probe to call
another. -/
theorem acts_iff (hrun : exec (cycle config) .initial steps = some s)
    (hprobe : cycle config s (.probe p) = some s') :
    (s'.phase = .raising ↔ hotspotUp s.actions = false ∧ p.reachability = .offline ∧
      effectiveGraceMs config (everServiceable (p :: s.probes)) ≤
        ticks (p :: s.probes) * config.intervalMs.toNat) ∧
    (s'.phase = .restoring ↔ hotspotUp s.actions = true ∧ p.reachability.isServiceable = true ∧
      config.restoreGraceMs.toNat ≤ ticks (p :: s.probes) * config.intervalMs.toNat) := by
  rw [← decisionOf_eq_raise, ← decisionOf_eq_restore]
  obtain ⟨q, heq, -, rfl⟩ | ⟨up, heq, -⟩ | ⟨heq, -⟩ := cycle_cases (tracks_of_run hrun) hprobe
  · obtain rfl := CycleStep.probe.inj heq
    exact ⟨SupervisorDecision.phase_eq_raising, SupervisorDecision.phase_eq_restoring⟩
  · cases heq
  · cases heq

/-- The raises that came up and the restores take turns, and a raise is the first of them. A
restore is only called with the access point up, a raise only with it down, and between two
calls the view says which. -/
theorem actions_take_turns (h : exec (cycle config) .initial steps = some s) :
    List.IsChain (· ≠ ·) (settled s.actions) ∧ (settled s.actions).getLast? ≠ some .restore ∧
      (s.phase = .raising → hotspotUp s.actions = false) ∧
      (s.phase = .restoring → hotspotUp s.actions = true) ∧
      (s.phase = .idle → s.view.criticalRecoveryActive = hotspotUp s.actions) := by
  have ht := tracks_of_run h
  refine ⟨ht.turns, ht.oldest, ht.raising, ht.restoring, fun hidle => ?_⟩
  rw [ht.view, criticalRecoveryActive_viewOf, Supervisor.latch, hidle]

section Sample

/-- A minute to an interval, as without an environment. -/
def defaultConfig : SupervisorConfig := ⟨60000, 30000, 300000, 15000, 30000⟩

def unlinked : Probe := ⟨⟨none, none, none, false, false⟩, 0⟩

def linked : Probe := ⟨⟨none, some 204, none, true, false⟩, 0⟩

/-- The link is there and goes, the first raise fails and the second comes up, the link is
back. -/
def outage : List CycleStep :=
  [.probe linked, .probe unlinked, .raiseReturns false, .probe unlinked, .raiseReturns true,
    .probe linked, .restoreReturns]

theorem exec_outage : ∃ s, exec (cycle defaultConfig) .initial outage = some s ∧
    s.actions = [.restore, .raise true, .raise false] := by
  obtain ⟨s, hs, hactions⟩ := exec_of_any (cycle defaultConfig) .initial outage
    (fun s => s.actions == [.restore, .raise true, .raise false]) (by decide)
  exact ⟨s, hs, by simpa using hactions⟩

theorem view_of_outage : ∃ s, exec (cycle defaultConfig) .initial outage = some s ∧
    s.view = viewOf s.latch s.probes := by
  obtain ⟨s, hs, -⟩ := exec_outage
  exact ⟨s, hs, view_of_run hs⟩

theorem actions_of_outage : ∃ s, exec (cycle defaultConfig) .initial outage = some s ∧
    List.IsChain (· ≠ ·) (settled s.actions) := by
  obtain ⟨s, hs, -⟩ := exec_outage
  exact ⟨s, hs, (actions_take_turns hs).1⟩

/-- One probe without a link is enough for a raise once the link has been there. -/
theorem acts_on_unlinked : ∃ s', cycle defaultConfig
    ((exec (cycle defaultConfig) .initial [.probe linked]).getD .initial) (.probe unlinked) =
      some s' ∧ s'.phase = .raising := by
  have hrun : exec (cycle defaultConfig) .initial [.probe linked] =
    some ((exec (cycle defaultConfig) .initial [.probe linked]).getD .initial) := rfl
  exact ⟨_, rfl, (acts_iff hrun rfl).1.mpr (by decide)⟩

end Sample

-- ---------------------------------------------------------------------------
-- The wakes
-- ---------------------------------------------------------------------------

inductive LinkEvent where
  | periodicTick
  | interfaceStateChanged (interface : Option (List Char))
  | connectivityChanged
  | wifiAssociationChanged (associated : Bool)
  | connectionActivationChanged
deriving DecidableEq, Repr

structure SourceEvent where
  source : List Char
  event : LinkEvent
deriving DecidableEq, Repr

def isPollingTick (e : SourceEvent) : Bool :=
  e.source == "polling".toList && e.event == .periodicTick

/-- The milliseconds gone by between two instants in nanoseconds. -/
def elapsedMs (since now : Nat) : Nat := (now - since) / 1000000

/-- An event that the loop takes at some instant: whether it runs a probe cycle, and the instant
of the last event that was no polling tick. -/
def wake (config : SupervisorConfig) (lastNonPollingEventAt : Nat) (e : SourceEvent)
    (now : Nat) : Bool × Nat :=
  if isPollingTick e then
    (decide (config.coldStartWindowMs.toNat ≤ elapsedMs lastNonPollingEventAt now),
      lastNonPollingEventAt)
  else (true, now)

/-- The loop over the events, from the instant it was entered. -/
def lastNonPolling (config : SupervisorConfig) (start : Nat)
    (events : List (SourceEvent × Nat)) : Nat :=
  events.foldl (fun last e => (wake config last e.1 e.2).2) start

/-- The instants that quiet the polling: the start, and the events that are no polling tick. -/
def quieting (start : Nat) (events : List (SourceEvent × Nat)) : List Nat :=
  start :: (events.filter fun e => !isPollingTick e.1).map (·.2)

theorem lastNonPolling_mem_quieting (config : SupervisorConfig) (start : Nat)
    (events : List (SourceEvent × Nat)) :
    lastNonPolling config start events ∈ quieting start events := by
  induction events generalizing start with
  | nil => simp [lastNonPolling, quieting]
  | cons e events ih =>
    have hrest := ih (wake config start e.1 e.2).2
    cases he : isPollingTick e.1 <;> simp_all [lastNonPolling, quieting, wake]

theorem le_lastNonPolling (config : SupervisorConfig) {start t : Nat}
    {events : List (SourceEvent × Nat)} (hmono : (start :: events.map (·.2)).Pairwise (· ≤ ·))
    (ht : t ∈ quieting start events) : t ≤ lastNonPolling config start events := by
  induction events generalizing start t with
  | nil => simp_all [lastNonPolling, quieting]
  | cons e events ih =>
    obtain ⟨hstart, htail⟩ := List.pairwise_cons.mp hmono
    obtain ⟨hhead, hevents⟩ := List.pairwise_cons.mp htail
    have hle : start ≤ e.2 := hstart e.2 (by simp)
    cases he : isPollingTick e.1 with
    | true =>
      have hmono' : (start :: events.map (·.2)).Pairwise (· ≤ ·) :=
        List.pairwise_cons.mpr ⟨fun x hx => hstart x (by simp_all), hevents⟩
      have hlast := ih hmono' (t := t) (by simp_all [quieting])
      simpa [lastNonPolling, wake, he] using hlast
    | false =>
      have hlast : lastNonPolling config start (e :: events) =
          lastNonPolling config e.2 events := by
        simp [lastNonPolling, wake, he]
      have hnow := ih htail (t := e.2) (by simp [quieting])
      rw [hlast]
      rcases List.mem_cons.mp ht with rfl | ht
      · exact Nat.le_trans hle hnow
      · exact ih htail (by simpa [quieting, he] using ht)

end EvoAudio.Network
