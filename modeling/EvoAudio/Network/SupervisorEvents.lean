import EvoAudio.Network.Supervisor

/-!
# What the supervisor makes known

A second task compares the view on the watch channel with the one it has seen last, and emits
what is different. It misses views that are overwritten before it looks. It goes by the latch,
which is set before the raise has come up and taken back if it has not.
-/

namespace EvoAudio.Network

open Machine

-- ---------------------------------------------------------------------------
-- The emitter
-- ---------------------------------------------------------------------------

inductive NetworkEvent where
  | reachabilityChanged (source target : ReachabilityState) (observations : SupervisorObservations)
  | portalDetected (portalUrl : List Char)
  | criticalRecoveryRaised (reachability : ReachabilityState) (stateTicks : Nat)
  | staRestored (reachability : ReachabilityState) (stateTicks : Nat)
deriving DecidableEq, Repr

/-- `emit_supervisor_transition`, but for the connectivity subject that it publishes as well. -/
def emitSupervisorTransition (prev next : SupervisorView) : List NetworkEvent :=
  (if prev.reachability ≠ next.reachability then
    [.reachabilityChanged prev.reachability next.reachability next.lastObservations] else []) ++
  (if next.reachability = .portal ∧ prev.reachability ≠ .portal then
    next.portal.toList.map fun portal => .portalDetected portal.portalUrl else []) ++
  (if next.criticalRecoveryActive ∧ !prev.criticalRecoveryActive then
    [.criticalRecoveryRaised next.reachability next.stateTicks] else []) ++
  (if prev.criticalRecoveryActive ∧ !next.criticalRecoveryActive then
    [.staRestored next.reachability next.stateTicks] else [])

/-- The emitter with the view it has started from and the one it has seen last, and whether
another one has been sent since. -/
structure Emitter where
  first : SupervisorView
  prev : SupervisorView
  unseen : Bool
deriving DecidableEq, Repr

structure Plane where
  supervisor : Supervisor
  emitter : Option Emitter
  events : List NetworkEvent
deriving DecidableEq, Repr

def Plane.initial : Plane := ⟨.initial, none, []⟩

inductive PlaneStep where
  | task (c : CycleStep)
  | spawnEmitter
  | emit
deriving DecidableEq, Repr

/-- The steps of the task that send a view. -/
def CycleStep.sends : CycleStep → Bool
  | .probe _ => true
  | .raiseReturns up => !up
  | .restoreReturns => false

def plane (config : SupervisorConfig) (s : Plane) : PlaneStep → Option Plane
  | .task c => (cycle config s.supervisor c).map fun supervisor =>
      { s with supervisor, emitter := s.emitter.map fun e =>
          { e with unseen := e.unseen || c.sends } }
  | .spawnEmitter =>
    if s.emitter.isNone then
      some { s with emitter := some ⟨s.supervisor.view, s.supervisor.view, false⟩ }
    else none
  | .emit => do
    let e ← s.emitter
    if e.unseen then
      some { s with
        emitter := some { e with prev := s.supervisor.view, unseen := false }
        events := s.events ++ emitSupervisorTransition e.prev s.supervisor.view }
    else none

-- ---------------------------------------------------------------------------
-- Following the events
-- ---------------------------------------------------------------------------

/-- What a listener knows of the view: the class and the latch. -/
structure Known where
  reachability : ReachabilityState
  recovering : Bool
deriving DecidableEq, Repr

def SupervisorView.known (view : SupervisorView) : Known :=
  ⟨view.reachability, view.criticalRecoveryActive⟩

/-- How a listener takes an event, `none` for one that does not go with what it knows. -/
def Known.hear (k : Known) : NetworkEvent → Option Known
  | .reachabilityChanged source target _ =>
    if source = k.reachability ∧ source ≠ target then some { k with reachability := target }
    else none
  | .portalDetected _ => if k.reachability = .portal then some k else none
  | .criticalRecoveryRaised reachability _ =>
    if !k.recovering ∧ reachability = k.reachability then some { k with recovering := true }
    else none
  | .staRestored reachability _ =>
    if k.recovering ∧ reachability = k.reachability then some { k with recovering := false }
    else none

/-- The events of one comparison take a listener from the one view to the other. -/
theorem hear_transition (prev next : SupervisorView) :
    exec Known.hear prev.known (emitSupervisorTransition prev next) = some next.known := by
  have hclass : exec Known.hear prev.known (if prev.reachability ≠ next.reachability then
      [.reachabilityChanged prev.reachability next.reachability next.lastObservations] else []) =
        some ⟨next.reachability, prev.criticalRecoveryActive⟩ := by
    split_ifs with h <;> simp_all [exec, Known.hear, SupervisorView.known]
  have hportal : exec Known.hear ⟨next.reachability, prev.criticalRecoveryActive⟩
      (if next.reachability = .portal ∧ prev.reachability ≠ .portal then
        next.portal.toList.map fun portal => .portalDetected portal.portalUrl else []) =
        some ⟨next.reachability, prev.criticalRecoveryActive⟩ := by
    split_ifs with h
    · cases next.portal <;> simp [exec, Known.hear, h.1]
    · rfl
  have hlatch : ∃ k : Known, exec Known.hear ⟨next.reachability, prev.criticalRecoveryActive⟩
      (if next.criticalRecoveryActive ∧ !prev.criticalRecoveryActive then
        [.criticalRecoveryRaised next.reachability next.stateTicks] else []) = some k ∧
      exec Known.hear k (if prev.criticalRecoveryActive ∧ !next.criticalRecoveryActive then
        [.staRestored next.reachability next.stateTicks] else []) = some next.known := by
    cases hprev : prev.criticalRecoveryActive <;> cases hnext : next.criticalRecoveryActive <;>
      simp [exec, Known.hear, SupervisorView.known, hnext]
  obtain ⟨k, hraised, hrestored⟩ := hlatch
  simp only [emitSupervisorTransition, exec_append]
  exact ⟨k, ⟨_, ⟨_, hclass, hportal⟩, hraised⟩, hrestored⟩

/-- What a run of the plane keeps: the task is as in a run of its own, and the events so far
take a listener from the emitter's first view to its last, which is the current one unless
there is one it has not seen. -/
structure Follows (s : Plane) : Prop where
  task : Tracks s.supervisor
  heard : ∀ e, s.emitter = some e → exec Known.hear e.first.known s.events = some e.prev.known
  current : ∀ e, s.emitter = some e → e.unseen = false → e.prev = s.supervisor.view
  silent : s.emitter = none → s.events = []

/-- What a step of the plane can do. -/
theorem plane_cases (h : plane config s a = some s') :
    (∃ c supervisor, a = .task c ∧ cycle config s.supervisor c = some supervisor ∧
      s' = { s with supervisor, emitter := s.emitter.map fun e =>
        { e with unseen := e.unseen || c.sends } }) ∨
    (a = .spawnEmitter ∧ s.emitter = none ∧
      s' = { s with emitter := some ⟨s.supervisor.view, s.supervisor.view, false⟩ }) ∨
    (∃ e, a = .emit ∧ s.emitter = some e ∧ e.unseen = true ∧
      s' = { s with
        emitter := some { e with prev := s.supervisor.view, unseen := false }
        events := s.events ++ emitSupervisorTransition e.prev s.supervisor.view }) := by
  cases a with
  | task c =>
    obtain ⟨supervisor, hcycle, rfl⟩ := Option.map_eq_some_iff.mp h
    exact .inl ⟨c, supervisor, rfl, hcycle, rfl⟩
  | spawnEmitter =>
    simp only [plane] at h
    split_ifs at h with hnone
    exact .inr (.inl ⟨rfl, Option.isNone_iff_eq_none.mp hnone, (Option.some.inj h).symm⟩)
  | emit =>
    obtain ⟨e, he, h⟩ := Option.bind_eq_some_iff.mp h
    split_ifs at h with hunseen
    exact .inr (.inr ⟨e, rfl, he, hunseen, (Option.some.inj h).symm⟩)

/-- A step that sends nothing leaves the view as it is. -/
theorem view_of_sends_false (hcycle : cycle config s c = some s') (hsends : c.sends = false) :
    s'.view = s.view := by
  cases c with
  | probe p => cases hsends
  | raiseReturns up =>
    obtain rfl : up = true := by simpa [CycleStep.sends] using hsends
    simp only [cycle] at hcycle
    split_ifs at hcycle
    rw [← Option.some.inj hcycle]
  | restoreReturns =>
    simp only [cycle] at hcycle
    split_ifs at hcycle
    rw [← Option.some.inj hcycle]

theorem follows_plane (hf : Follows s) (h : plane config s a = some s') : Follows s' := by
  obtain ⟨c, supervisor, rfl, hcycle, rfl⟩ | ⟨rfl, hnone, rfl⟩ | ⟨e, rfl, he, hunseen, rfl⟩ :=
    plane_cases h
  · refine ⟨tracks_cycle hf.task hcycle, ?_, ?_, ?_⟩
    · intro e' he'
      obtain ⟨e, he, rfl⟩ := Option.map_eq_some_iff.mp he'
      exact hf.heard e he
    · intro e' he' hseen
      obtain ⟨e, he, rfl⟩ := Option.map_eq_some_iff.mp he'
      obtain ⟨hseen, hsends⟩ := Bool.or_eq_false_iff.mp hseen
      exact (hf.current e he hseen).trans (view_of_sends_false hcycle hsends).symm
    · intro hnone
      exact hf.silent (Option.map_eq_none_iff.mp hnone)
  · refine ⟨hf.task, ?_, ?_, by simp⟩
    · rintro e he
      obtain rfl := Option.some.inj he
      rw [hf.silent hnone]
      rfl
    · rintro e he -
      obtain rfl := Option.some.inj he
      rfl
  · refine ⟨hf.task, ?_, ?_, by simp⟩
    · rintro e' he'
      obtain rfl := Option.some.inj he'
      exact exec_append.mpr ⟨_, hf.heard e he, hear_transition e.prev s.supervisor.view⟩
    · rintro e' he' -
      obtain rfl := Option.some.inj he'
      rfl

theorem follows_initial : Follows .initial where
  task := tracks_initial
  heard := by simp [Plane.initial]
  current := by simp [Plane.initial]
  silent _ := rfl

/-- However the two tasks take turns, a listener that knows the view the emitter has started
from can take every event, in its order, and then knows the class and the latch of the view
seen last: the current one, when no view is waiting. -/
theorem listener_follows (h : exec (plane config) .initial steps = some s)
    (he : s.emitter = some e) :
    exec Known.hear e.first.known s.events = some e.prev.known ∧
      (e.unseen = false → e.prev = s.supervisor.view) :=
  have hf := exec_invariant_all (fun hf hstep => follows_plane hf hstep) follows_initial h
  ⟨hf.heard e he, hf.current e he⟩

-- ---------------------------------------------------------------------------
-- An emitter that misses no view
-- ---------------------------------------------------------------------------

def PlaneStep.sends : PlaneStep → Bool
  | .task c => c.sends
  | _ => false

/-- A view is only sent when the emitter has seen the one before it. -/
def KeepsUp (s : Plane) (a : PlaneStep) : Prop :=
  a.sends = true → s.emitter.any (!·.unseen) = true

instance (s : Plane) (a : PlaneStep) : Decidable (KeepsUp s a) :=
  inferInstanceAs (Decidable (_ → _))

def NetworkEvent.isRaised : NetworkEvent → Bool
  | .criticalRecoveryRaised .. => true
  | _ => false

def NetworkEvent.isRestored : NetworkEvent → Bool
  | .staRestored .. => true
  | _ => false

def RecoveryAction.isRaise : RecoveryAction → Bool
  | .raise _ => true
  | .restore => false

/-- The raises that were called. -/
def Supervisor.raiseCalls (s : Supervisor) : Nat :=
  s.actions.countP RecoveryAction.isRaise + if s.phase = .raising then 1 else 0

/-- The raises that have not come up. -/
def Supervisor.failedRaises (s : Supervisor) : Nat := s.actions.count (.raise false)

/-- The restores that were called. -/
def Supervisor.restoreCalls (s : Supervisor) : Nat :=
  s.actions.count .restore + if s.phase = .restoring then 1 else 0

/-- Only the latch decides how many events of the two last kinds a comparison has. -/
theorem countP_transition {p : NetworkEvent → Bool}
    (hclass : ∀ source target obs, p (.reachabilityChanged source target obs) = false)
    (hportal : ∀ url, p (.portalDetected url) = false) (prev next : SupervisorView) :
    (emitSupervisorTransition prev next).countP p =
      (next.criticalRecoveryActive && !prev.criticalRecoveryActive &&
        p (.criticalRecoveryRaised next.reachability next.stateTicks)).toNat +
      (prev.criticalRecoveryActive && !next.criticalRecoveryActive &&
        p (.staRestored next.reachability next.stateTicks)).toNat := by
  have hno : (if prev.reachability ≠ next.reachability then
      [NetworkEvent.reachabilityChanged prev.reachability next.reachability next.lastObservations]
        else []).countP p = 0 := by
    split_ifs <;> simp [hclass]
  have hnone : (if next.reachability = .portal ∧ prev.reachability ≠ .portal then
      next.portal.toList.map fun portal => NetworkEvent.portalDetected portal.portalUrl
        else []).countP p = 0 := by
    split_ifs <;> simp [hportal, Function.comp_def]
  rw [emitSupervisorTransition, List.countP_append, List.countP_append, List.countP_append, hno,
    hnone]
  cases hraised : p (.criticalRecoveryRaised next.reachability next.stateTicks) <;>
    cases hrestored : p (.staRestored next.reachability next.stateTicks) <;>
    cases prev.criticalRecoveryActive <;> cases next.criticalRecoveryActive <;>
    simp [hraised, hrestored]

theorem countP_isRaised_transition (prev next : SupervisorView) :
    (emitSupervisorTransition prev next).countP NetworkEvent.isRaised =
      (next.criticalRecoveryActive && !prev.criticalRecoveryActive).toNat := by
  rw [countP_transition (fun _ _ _ => rfl) (fun _ => rfl)]
  simp [NetworkEvent.isRaised]

theorem countP_isRestored_transition (prev next : SupervisorView) :
    (emitSupervisorTransition prev next).countP NetworkEvent.isRestored =
      (prev.criticalRecoveryActive && !next.criticalRecoveryActive).toNat := by
  rw [countP_transition (fun _ _ _ => rfl) (fun _ => rfl)]
  simp [NetworkEvent.isRestored]

/-- The events so far and the one that waits to be emitted account for every call. -/
structure Announces (s : Plane) : Prop where
  follows : Follows s
  emitter : ∃ e, s.emitter = some e
  raised : ∀ e, s.emitter = some e → s.events.countP NetworkEvent.isRaised +
    (s.supervisor.view.criticalRecoveryActive && !e.prev.criticalRecoveryActive).toNat =
      s.supervisor.raiseCalls
  restored : ∀ e, s.emitter = some e → s.events.countP NetworkEvent.isRestored +
    (e.prev.criticalRecoveryActive && !s.supervisor.view.criticalRecoveryActive).toNat =
      s.supervisor.failedRaises + s.supervisor.restoreCalls

/-- The calls that a step of the cycle makes are those its latch shows. -/
theorem calls_cycle (ht : Tracks s) (h : cycle config s c = some s') :
    (c.sends = true → s'.raiseCalls = s.raiseCalls +
        (s'.view.criticalRecoveryActive && !s.view.criticalRecoveryActive).toNat ∧
      s'.failedRaises + s'.restoreCalls = s.failedRaises + s.restoreCalls +
        (s.view.criticalRecoveryActive && !s'.view.criticalRecoveryActive).toNat) ∧
    (c.sends = false → s'.raiseCalls = s.raiseCalls ∧
      s'.failedRaises + s'.restoreCalls = s.failedRaises + s.restoreCalls) := by
  obtain ⟨p, rfl, hidle, rfl⟩ | ⟨up, rfl, hraising, rfl⟩ | ⟨rfl, hrestoring, rfl⟩ :=
    cycle_cases ht h
  · refine ⟨fun _ => ?_, by simp [CycleStep.sends]⟩
    have hlatch : s.view.criticalRecoveryActive = hotspotUp s.actions := by
      rw [ht.view]
      simp [Supervisor.latch, hidle]
    rw [hlatch]
    cases hdecided : decisionOf config (hotspotUp s.actions) (p :: s.probes) with
    | noAction => simp [Supervisor.raiseCalls, Supervisor.restoreCalls, hidle,
        Supervisor.failedRaises, SupervisorDecision.latch, SupervisorDecision.phase]
    | raiseCriticalRecovery =>
      have hdown := (decisionOf_eq_raise.mp hdecided).1
      simp [Supervisor.raiseCalls, Supervisor.restoreCalls, hidle, hdown,
        Supervisor.failedRaises, SupervisorDecision.latch, SupervisorDecision.phase]
    | restoreSta =>
      have hup := (decisionOf_eq_restore.mp hdecided).1
      simp [Supervisor.raiseCalls, Supervisor.restoreCalls, hidle, hup,
        Supervisor.failedRaises, SupervisorDecision.latch, SupervisorDecision.phase]
      omega
  · have hlatch : s.view.criticalRecoveryActive = true := by
      rw [ht.view]
      simp [Supervisor.latch, hraising]
    cases up <;>
      simp +arith [CycleStep.sends, Supervisor.raiseCalls, Supervisor.restoreCalls,
        Supervisor.failedRaises, List.countP_cons, RecoveryAction.isRaise, hraising, hlatch]
  · simp [CycleStep.sends, Supervisor.raiseCalls, Supervisor.restoreCalls,
      Supervisor.failedRaises, RecoveryAction.isRaise, hrestoring]

theorem announces_plane (ha : Announces s) (hk : KeepsUp s a) (h : plane config s a = some s') :
    Announces s' := by
  have hfollows := follows_plane ha.follows h
  obtain ⟨c, supervisor, rfl, hcycle, rfl⟩ | ⟨rfl, hnone, rfl⟩ | ⟨e, rfl, he, hunseen, rfl⟩ :=
    plane_cases h
  · have hcalls := calls_cycle ha.follows.task hcycle
    obtain ⟨e, he⟩ := ha.emitter
    have hraised := ha.raised e he
    have hrestored := ha.restored e he
    have hnow : s.events.countP NetworkEvent.isRaised +
          (supervisor.view.criticalRecoveryActive && !e.prev.criticalRecoveryActive).toNat =
            supervisor.raiseCalls ∧
        s.events.countP NetworkEvent.isRestored +
          (e.prev.criticalRecoveryActive && !supervisor.view.criticalRecoveryActive).toNat =
            supervisor.failedRaises + supervisor.restoreCalls := by
      by_cases hsends : c.sends = true
      · have hseen : e.unseen = false := by simpa [he] using hk hsends
        have hprev := ha.follows.current e he hseen
        obtain ⟨hraise, hrestore⟩ := hcalls.1 hsends
        simp_all
      · have hsilent : c.sends = false := by simpa using hsends
        have hview := view_of_sends_false hcycle hsilent
        obtain ⟨hraise, hrestore⟩ := hcalls.2 hsilent
        simp_all
    refine ⟨hfollows, ⟨_, by simp [he]; rfl⟩, fun e' he' => ?_, fun e' he' => ?_⟩
    · obtain rfl := Option.some.inj ((congrArg (Option.map _) he).symm.trans he')
      exact hnow.1
    · obtain rfl := Option.some.inj ((congrArg (Option.map _) he).symm.trans he')
      exact hnow.2
  · obtain ⟨e, he⟩ := ha.emitter
    rw [hnone] at he
    cases he
  · have hraised := ha.raised e he
    have hrestored := ha.restored e he
    refine ⟨hfollows, ⟨_, rfl⟩, ?_, ?_⟩
    · rintro e' he'
      obtain rfl := Option.some.inj he'
      simp only [List.countP_append, countP_isRaised_transition, ← hraised]
      simp
    · rintro e' he'
      obtain rfl := Option.some.inj he'
      simp only [List.countP_append, countP_isRestored_transition, ← hrestored]
      simp

theorem announces_spawned : Announces { Plane.initial with
    emitter := some ⟨.initial, .initial, false⟩ } := by
  have hplane : plane defaultConfig .initial .spawnEmitter =
      some { Plane.initial with emitter := some ⟨.initial, .initial, false⟩ } := rfl
  refine ⟨follows_plane follows_initial hplane, ⟨_, rfl⟩, ?_, ?_⟩
  all_goals
    rintro e he
    obtain rfl := Option.some.inj he
    rfl

/-- An emitter that misses no view announces a raise at every call of one, whether or not it
came up, and the station as restored at every restore, and at every raise that has failed. -/
theorem announced_of_keepsUp
    (hm : Meets (plane config) KeepsUp .initial (.spawnEmitter :: steps))
    (h : exec (plane config) .initial (.spawnEmitter :: steps) = some s)
    (he : s.emitter = some e) (hseen : e.unseen = false) :
    s.events.countP NetworkEvent.isRaised = s.supervisor.raiseCalls ∧
      s.events.countP NetworkEvent.isRestored =
        s.supervisor.failedRaises + s.supervisor.restoreCalls := by
  obtain ⟨t, ht, hrest⟩ := exec_cons.mp h
  obtain rfl := Option.some.inj ht
  have hm' := ((meets_cons ht).mp hm).2
  have ha := exec_invariant (fun ha hk hstep => announces_plane ha hk hstep) announces_spawned
    hm' hrest
  have hprev := ha.follows.current e he hseen
  have hraised := ha.raised e he
  have hrestored := ha.restored e he
  simp_all

/-- The outage with every view seen. -/
def watchedOutage : List PlaneStep :=
  outage.flatMap fun c => if c.sends then [.task c, .emit] else [.task c]

theorem exec_watchedOutage :
    ∃ s, exec (plane defaultConfig) .initial (.spawnEmitter :: watchedOutage) = some s ∧
      s.emitter.any (!·.unseen) = true ∧ s.supervisor.raiseCalls = 2 := by
  obtain ⟨s, hs, hp⟩ := exec_of_any (plane defaultConfig) .initial
    (.spawnEmitter :: watchedOutage)
    (fun s => s.emitter.any (!·.unseen) && s.supervisor.raiseCalls == 2) (by decide)
  rw [Bool.and_eq_true, beq_iff_eq] at hp
  exact ⟨s, hs, hp⟩

theorem listener_follows_outage :
    ∃ s, ∃ e : Emitter,
      exec (plane defaultConfig) .initial (.spawnEmitter :: watchedOutage) = some s ∧
        exec Known.hear e.first.known s.events = some e.prev.known := by
  obtain ⟨s, hs, hseen, -⟩ := exec_watchedOutage
  obtain ⟨e, he, -⟩ := Option.any_eq_true _ _ |>.mp hseen
  exact ⟨s, e, hs, (listener_follows hs he).1⟩

/-- Two raises are announced, one of which was none. -/
theorem announced_outage :
    ∃ s, exec (plane defaultConfig) .initial (.spawnEmitter :: watchedOutage) = some s ∧
      s.events.countP NetworkEvent.isRaised = 2 := by
  obtain ⟨s, hs, hseen, hcalls⟩ := exec_watchedOutage
  obtain ⟨e, he, hunseen⟩ := Option.any_eq_true _ _ |>.mp hseen
  exact ⟨s, hs, (announced_of_keepsUp (by decide) hs he (by simpa using hunseen)).1.trans hcalls⟩

end EvoAudio.Network
