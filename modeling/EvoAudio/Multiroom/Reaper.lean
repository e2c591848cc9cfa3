import EvoAudio.Multiroom.Connections

/-!
# The idle reaper

`reap_idle_connections` collects the peers whose channel has been silent for
longer than the threshold and then disconnects them one after the other by
their id. This module runs the connection table against a clock and keeps, for
every entry the reaper takes out, the entry and the time it is taken out.
-/

namespace EvoAudio.Multiroom.Connections

open Machine

structure Reaped where
  entry : ConnectionEntry
  atMs : Nat
  deriving DecidableEq, Repr

def Reaped.IsIdle (idleReapThresholdMs : Nat) (reaped : Reaped) : Prop :=
  reaped.atMs - reaped.entry.lastChannelActivityMs > idleReapThresholdMs

/-- `scannedMs` is the time of the last sweep. -/
structure Sweep where
  plane : State
  clockMs : Nat
  scannedMs : Nat
  reaped : List Reaped

def Sweep.init : Sweep := ⟨.init, 0, 0, []⟩

inductive Sweep.Act
  | tick (ms : Nat)
  | plane (act : Connections.Act)
  deriving DecidableEq, Repr

/-- The times of an action fit the clock: a message is stamped under the lock,
a handshake and a sweep have read the clock before. -/
def Timely (clockMs idleReapThresholdMs : Nat) : Connections.Act → Bool
  | .message _ nowMs | .goodbye _ nowMs => nowMs = clockMs
  | .insert _ nowMs => nowMs ≤ clockMs
  | .reapScan nowMs thresholdMs => nowMs ≤ clockMs ∧ thresholdMs = idleReapThresholdMs
  | _ => true

/-- The entry that the reaper takes out next. -/
def State.nextReaped (s : State) : Option ConnectionEntry :=
  match s.reaping, s.stale with
  | none, peer :: _ => s.table.lookup peer
  | _, _ => none

def Sweep.scanned (s : Sweep) : Connections.Act → Nat
  | .reapScan nowMs _ => nowMs
  | _ => s.scannedMs

def Sweep.removed (s : Sweep) : Connections.Act → List Reaped
  | .reapNext => s.plane.nextReaped.toList.map (⟨·, s.clockMs⟩)
  | _ => []

def Sweep.step (idleReapThresholdMs : Nat) (s : Sweep) : Sweep.Act → Option Sweep
  | .tick ms => some { s with clockMs := s.clockMs + ms }
  | .plane act =>
    if Timely s.clockMs idleReapThresholdMs act then
      (s.plane.step act).map fun plane =>
        { s with plane, scannedMs := s.scanned act, reaped := s.reaped ++ s.removed act }
    else none

/-- Nothing is received from a peer, and no handshake ends with one, from the
time a sweep finds it idle until the sweep comes to it. -/
def Undisturbed (s : Sweep) : Sweep.Act → Prop
  | .plane (.message c _) | .plane (.goodbye c _) => ∀ conn ∈ s.plane.conns[c]?,
      conn.peer ∈ s.plane.stale → s.plane.table.lookup conn.peer = none
  | .plane (.insert c _) => ∀ conn ∈ s.plane.conns[c]?, conn.peer ∉ s.plane.stale
  | _ => True

instance (s : Sweep) : DecidablePred (Undisturbed s)
  | .plane (.message c _) => inferInstanceAs (Decidable (∀ conn ∈ s.plane.conns[c]?,
      conn.peer ∈ s.plane.stale → s.plane.table.lookup conn.peer = none))
  | .plane (.goodbye c _) => inferInstanceAs (Decidable (∀ conn ∈ s.plane.conns[c]?,
      conn.peer ∈ s.plane.stale → s.plane.table.lookup conn.peer = none))
  | .plane (.insert c _) => inferInstanceAs (Decidable (∀ conn ∈ s.plane.conns[c]?,
      conn.peer ∉ s.plane.stale))
  | .tick _ | .plane (.spawn ..) | .plane (.announce ..) | .plane (.suspend _)
  | .plane (.resume _) | .plane (.cancel _) | .plane (.readError _)
  | .plane (.markDisconnected _) | .plane (.emitted _) | .plane (.reapScan ..)
  | .plane .reapNext | .plane .reapEmitted | .plane .closeOutbound
  | .plane (.closeEmitted _) => .isTrue trivial

-- ---------------------------------------------------------------------------
-- How entries come and go
-- ---------------------------------------------------------------------------

/-- The entries of the peers on the list are old ones. -/
def Keeps (peers : List String) (s s' : State) : Prop :=
  ∀ peer ∈ peers, ∀ entry, s'.table.lookup peer = some entry → s.table.lookup peer = some entry

theorem Keeps.of_table (h : s'.table = s.table) : Keeps peers s s' :=
  fun _ _ _ hentry => h ▸ hentry

theorem Keeps.trans (h : Keeps peers s s') (h' : Keeps peers s' s'') : Keeps peers s s'' :=
  fun peer hpeer entry hentry => h peer hpeer entry (h' peer hpeer entry hentry)

theorem Keeps.dropEntry (s : State) (peer : String) (c : Nat) :
    Keeps peers s (s.dropEntry peer c) := by
  intro peer' _ entry hentry
  unfold State.dropEntry at hentry
  dsimp only at hentry
  rw [Table.lookup_erase_ite] at hentry
  split at hentry
  · cases hentry
  · exact hentry

theorem Keeps.takeOut (ht : s.takeOut peer = some s') : Keeps peers s s' := by
  obtain ⟨c, -, rfl⟩ := takeOut_some ht
  exact .dropEntry s peer c

theorem Keeps.takeOut_getD (s : State) (peer : String) :
    Keeps peers s ((s.takeOut peer).getD s) := by
  cases ht : s.takeOut peer with
  | none => exact .of_table rfl
  | some s' => exact .takeOut ht

theorem Keeps.takeOutAll (s : State) (outgoing : List String) :
    Keeps peers s (s.takeOutAll outgoing) := by
  induction outgoing generalizing s with
  | nil => exact .of_table rfl
  | cons peer outgoing ih => exact (Keeps.takeOut_getD s peer).trans (ih _)

theorem Keeps.touch {s : State} (h : peer ∈ peers → s.table.lookup peer = none) (nowMs : Nat) :
    Keeps peers s (s.touch peer nowMs) := by
  unfold State.touch
  split
  next found hfound =>
    intro peer' hpeer' entry hentry
    dsimp only at hentry
    rw [Table.lookup_insert_ite] at hentry
    split at hentry
    next heq =>
      rw [h (heq ▸ hpeer')] at hfound
      cases hfound
    · exact hentry
  · exact .of_table rfl

theorem Keeps.place {s : State} {conn : Conn} (h : conn.peer ∉ peers) (c nowMs : Nat) :
    Keeps peers s (s.place c conn nowMs) := by
  intro peer hpeer entry hentry
  unfold State.place at hentry
  dsimp only at hentry
  have hne : peer ≠ conn.peer := by
    rintro rfl
    exact h hpeer
  rwa [Table.lookup_insert_ite, if_neg hne] at hentry

theorem takeOut_stale {s s' : State} (ht : s.takeOut peer = some s') : s'.stale = s.stale := by
  obtain ⟨c, -, rfl⟩ := takeOut_some ht
  rfl

theorem takeOut_getD_stale (s : State) (peer : String) :
    ((s.takeOut peer).getD s).stale = s.stale := by
  cases ht : s.takeOut peer with
  | none => rfl
  | some s' => exact takeOut_stale ht

theorem takeOutAll_stale (s : State) (outgoing : List String) :
    (s.takeOutAll outgoing).stale = s.stale := by
  induction outgoing generalizing s with
  | nil => rfl
  | cons peer outgoing ih => exact (ih _).trans (takeOut_getD_stale s peer)

theorem touch_stale (s : State) (peer : String) (nowMs : Nat) :
    (s.touch peer nowMs).stale = s.stale := by
  unfold State.touch
  split <;> rfl

/-- Apart from a new sweep, an undisturbed action adds no peer to those still to
be reaped and gives none of them a new entry. -/
theorem step_keeps {s : Sweep} (hstep : Step s.plane act s') (h : Undisturbed s (.plane act))
    (hscan : ∀ nowMs thresholdMs, act ≠ .reapScan nowMs thresholdMs) :
    s'.stale ⊆ s.plane.stale ∧ Keeps s.plane.stale s.plane s' := by
  cases hstep with
  | spawn | announce | suspend | resume | cancel | readError | markGone | emitted
  | reapEmitted | closeEmitted => exact ⟨List.Subset.refl _, .of_table rfl⟩
  | insert conn hc =>
    refine ⟨?_, (Keeps.takeOut_getD _ conn.peer).trans (.place (h conn hc) _ _)⟩
    change ((s.plane.takeOut conn.peer).getD s.plane).stale ⊆ _
    rw [takeOut_getD_stale]
    exact List.Subset.refl _
  | message conn hrunning =>
    refine ⟨?_, .touch (h conn (running_iff.mp hrunning).1) _⟩
    rw [touch_stale]
    exact List.Subset.refl _
  | goodbye conn hrunning =>
    refine ⟨?_, Keeps.trans (.touch (h conn (running_iff.mp hrunning).1) _) (.of_table rfl)⟩
    change (s.plane.touch _ _).stale ⊆ _
    rw [touch_stale]
    exact List.Subset.refl _
  | markHeld conn bye taken hrunning htask ht =>
    refine ⟨?_, (Keeps.takeOut ht).trans (.of_table rfl)⟩
    change taken.stale ⊆ _
    rw [takeOut_stale ht]
    exact List.Subset.refl _
  | reapScan => exact absurd rfl (hscan _ _)
  | reapHeld peer taken hreaping hstale ht =>
    refine ⟨?_, (Keeps.takeOut ht).trans (.of_table rfl)⟩
    rw [hstale]
    exact List.subset_cons_self _ _
  | reapGone peer hreaping hstale ht =>
    refine ⟨?_, .of_table rfl⟩
    rw [hstale]
    exact List.subset_cons_self _ _
  | closeOutbound =>
    refine ⟨?_, (Keeps.takeOutAll _ _).trans (.of_table rfl)⟩
    change (s.plane.takeOutAll _).stale ⊆ _
    rw [takeOutAll_stale]
    exact List.Subset.refl _

-- ---------------------------------------------------------------------------
-- Runs that reap idle peers only
-- ---------------------------------------------------------------------------

/-- The peers still to be reaped were idle at the sweep and are so still. -/
structure Fair (idleReapThresholdMs : Nat) (s : Sweep) : Prop where
  past : s.scannedMs ≤ s.clockMs
  stale : ∀ peer ∈ s.plane.stale, ∀ entry, s.plane.table.lookup peer = some entry →
    s.scannedMs - entry.lastChannelActivityMs > idleReapThresholdMs
  reaped : ∀ reaped ∈ s.reaped, reaped.IsIdle idleReapThresholdMs

theorem Fair.removed (h : Fair idleReapThresholdMs s) (act : Connections.Act) :
    ∀ reaped ∈ s.removed act, reaped.IsIdle idleReapThresholdMs := by
  intro reaped hreaped
  unfold Sweep.removed at hreaped
  split at hreaped
  · obtain ⟨entry, hentry, rfl⟩ := List.mem_map.mp hreaped
    have hnext := Option.mem_toList.mp hentry
    unfold State.nextReaped at hnext
    split at hnext
    next peer rest _ hstale =>
      have hidle := h.stale peer (hstale ▸ List.mem_cons_self ..) entry hnext
      exact Nat.lt_of_lt_of_le hidle (Nat.sub_le_sub_right h.past _)
    · cases hnext
  · cases hreaped

theorem Fair.scan (h : Fair idleReapThresholdMs s) (hpast : nowMs ≤ s.clockMs) :
    Fair idleReapThresholdMs { s with
      plane := { s.plane with stale := s.plane.idle nowMs idleReapThresholdMs }
      scannedMs := nowMs } := by
  refine ⟨hpast, fun peer hpeer entry hentry => ?_, h.reaped⟩
  obtain ⟨found, hfound, rfl⟩ := List.mem_map.mp hpeer
  obtain ⟨hmem, hidle⟩ := List.mem_filter.mp hfound
  have hlookup : s.plane.table.lookup found.1 = some found.2 :=
    AList.mem_lookup_iff.mpr hmem
  cases hlookup.symm.trans hentry
  exact of_decide_eq_true hidle

theorem Fair.step (h : Fair idleReapThresholdMs s) (hundisturbed : Undisturbed s act)
    (hstep : s.step idleReapThresholdMs act = some s') : Fair idleReapThresholdMs s' := by
  cases act with
  | tick ms =>
    cases hstep
    exact ⟨Nat.le_trans h.past (Nat.le_add_right _ _), h.stale, h.reaped⟩
  | plane act =>
    simp only [Sweep.step] at hstep
    split at hstep
    next htimely =>
      obtain ⟨plane, hplane, rfl⟩ := Option.map_eq_some_iff.mp hstep
      have hreaped : ∀ reaped ∈ s.reaped ++ s.removed act, reaped.IsIdle idleReapThresholdMs := by
        intro reaped hmem
        rcases List.mem_append.mp hmem with hmem | hmem
        · exact h.reaped reaped hmem
        · exact h.removed act reaped hmem
      by_cases hscan : ∃ nowMs thresholdMs, act = .reapScan nowMs thresholdMs
      · obtain ⟨nowMs, thresholdMs, rfl⟩ := hscan
        obtain ⟨hpast, rfl⟩ := of_decide_eq_true htimely
        cases Step.of_step hplane
        have hfair := h.scan hpast
        exact ⟨hfair.past, hfair.stale, hreaped⟩
      · have hnot : ∀ nowMs thresholdMs, act ≠ .reapScan nowMs thresholdMs :=
          fun nowMs thresholdMs heq => hscan ⟨nowMs, thresholdMs, heq⟩
        have hscanned : s.scanned act = s.scannedMs := by
          cases act <;> first | rfl | exact absurd rfl (hnot _ _)
        obtain ⟨hstale, hkeeps⟩ := step_keeps (.of_step hplane) hundisturbed hnot
        refine ⟨hscanned ▸ h.past, fun peer hpeer entry hentry => ?_, hreaped⟩
        rw [hscanned]
        exact h.stale peer (hstale hpeer) entry (hkeeps peer (hstale hpeer) entry hentry)
    · cases hstep

/-- In every run where no peer found idle is heard from before the sweep comes
to it, what the reaper takes out has been silent for longer than the threshold
at the moment it is taken out. -/
theorem reaped_idle {idleReapThresholdMs : Nat} {acts : List Sweep.Act} {s : Sweep}
    (hundisturbed : Meets (Sweep.step idleReapThresholdMs) Undisturbed .init acts)
    (hrun : exec (Sweep.step idleReapThresholdMs) .init acts = some s) :
    ∀ reaped ∈ s.reaped,
      reaped.atMs - reaped.entry.lastChannelActivityMs > idleReapThresholdMs := by
  have hinit : Fair idleReapThresholdMs .init :=
    ⟨Nat.le_refl _, by simp [Sweep.init, State.init], by simp [Sweep.init]⟩
  have hfair : Fair idleReapThresholdMs s :=
    exec_invariant (fun h hok hstep => h.step hok hstep) hinit hundisturbed hrun
  exact hfair.reaped

/-- A peer connects and is silent for 100 s. -/
def silentPeer : List Sweep.Act :=
  [.plane (.spawn "peer" .inbound), .plane (.insert 0 0), .tick 100000,
    .plane (.reapScan 100000 60000)]

theorem silent_peer_reaped :
    ∃ s, exec (Sweep.step 60000) .init (silentPeer ++ [.plane .reapNext]) = some s ∧
      s.reaped = [⟨⟨0, .inbound, 0⟩, 100000⟩] ∧
      ∀ reaped ∈ s.reaped, reaped.atMs - reaped.entry.lastChannelActivityMs > 60000 := by
  obtain ⟨s, hrun, hend⟩ := exec_of_any (Sweep.step 60000) .init
    (silentPeer ++ [.plane .reapNext]) (fun s => s.reaped = [⟨⟨0, .inbound, 0⟩, 100000⟩]) (by decide)
  exact ⟨s, hrun, of_decide_eq_true hend, reaped_idle (by decide) hrun⟩

/-- A message, or a new connection of the peer, that comes after the sweep found
the peer idle does not save it. -/
theorem active_peer_reaped :
    (exec (Sweep.step 60000) .init
        (silentPeer ++ [.plane (.message 0 100000), .plane .reapNext])).any (fun s =>
          s.reaped = [⟨⟨0, .inbound, 100000⟩, 100000⟩]) ∧
      (exec (Sweep.step 60000) .init (silentPeer ++ [.plane (.spawn "peer" .outbound),
        .plane (.insert 1 100000), .plane .reapNext])).any (fun s =>
          s.reaped = [⟨⟨1, .outbound, 100000⟩, 100000⟩]) := by
  decide

end EvoAudio.Multiroom.Connections
