import EvoAudio.Lib.Machine

/-!
# Shutting a role task down

`engage_role` and `unload` stop a task by calling `notify_waiters` on its
shutdown signal and then awaiting the task. A source or receiver task looks
at the signal only in the `select!` at the top of its loop: the waiter is
registered when the task parks there and gone while it works on what another
arm brought. `notify_waiters` reaches registered waiters and leaves nothing
behind for later ones, and a woken `select!` takes any of its ready arms.
-/

namespace EvoAudio.Multiroom.Shutdown

open Machine

inductive TaskKind
  | tone
  | capture
  | receiver
  deriving DecidableEq, Repr

/-- What an arm of the select hands to the task. -/
inductive Work
  | toneChunk
  | captureChunk
  | traceEvent
  | receivedFrame
  | schedulerTick (due : Nat)
  deriving DecidableEq, Repr

/-- The awaits in the body of the arm: the fan-out of a chunk, the completion
of a trace record, one trace report for each frame a tick renders. -/
def Work.awaits : Work → Nat
  | .toneChunk | .captureChunk | .traceEvent => 1
  | .receivedFrame => 0
  | .schedulerTick due => due

def TaskKind.hasArm : TaskKind → Work → Bool
  | .tone, .toneChunk => true
  | .capture, .captureChunk | .capture, .traceEvent => true
  | .receiver, .receivedFrame | .receiver, .schedulerTick _ => true
  | _, _ => false

-- the subscriptions a task makes before its loop
def TaskKind.startupAwaits : TaskKind → Nat
  | .tone => 0
  | .capture => 2
  | .receiver => 1

-- the capture task joins its OS thread after the loop
def TaskKind.teardownAwaits : TaskKind → Nat
  | .capture => 1
  | .tone | .receiver => 0

-- the tone generator has no input that can close
def TaskKind.canClose : TaskKind → Bool
  | .tone => false
  | .capture | .receiver => true

inductive Pc
  | starting (left : Nat)
  | parked (woken : Bool)
  | working (work : Work) (left : Nat)
  | stopping (left : Nat)
  | ended
  deriving DecidableEq, Repr

/-- One task and the engagement that stops it. `begun` counts the arms the
task has taken since it was notified. -/
structure State where
  pc : Pc
  notified : Bool
  begun : Nat
  joined : Bool
  deriving DecidableEq, Repr

def State.spawned (kind : TaskKind) : State := ⟨.starting kind.startupAwaits, false, 0, false⟩

inductive Act
  /-- The pending await of the task resolves. -/
  | resume
  /-- The task gives up before its loop: no DAC, no capture thread. -/
  | abandon
  | takeArm (work : Work)
  | takeShutdown
  | inputClosed
  | notifyWaiters
  | join
  deriving DecidableEq, Repr

def step (kind : TaskKind) (s : State) : Act → Option State
  | .resume =>
    match s.pc with
    | .starting (n + 1) => some { s with pc := .starting n }
    | .starting 0 => some { s with pc := .parked false }
    | .working work (n + 1) => some { s with pc := .working work n }
    -- the loop comes round and the select registers a new waiter
    | .working _ 0 => some { s with pc := .parked false }
    | .stopping (n + 1) => some { s with pc := .stopping n }
    | .stopping 0 => some { s with pc := .ended }
    | .parked _ | .ended => none
  | .abandon =>
    match s.pc with
    | .starting _ => if kind = .tone then none else some { s with pc := .ended }
    | _ => none
  | .takeArm work =>
    match s.pc with
    | .parked _ =>
      if kind.hasArm work then
        some { s with
          pc := .working work work.awaits
          begun := if s.notified then s.begun + 1 else s.begun }
      else none
    | _ => none
  | .takeShutdown =>
    match s.pc with
    | .parked true => some { s with pc := .stopping kind.teardownAwaits }
    | _ => none
  | .inputClosed =>
    match s.pc with
    | .parked _ => if kind.canClose then some { s with pc := .stopping kind.teardownAwaits } else none
    | _ => none
  | .notifyWaiters =>
    if s.notified then none
    else
      let pc := match s.pc with
        | .parked _ => .parked true
        | pc => pc
      some { s with pc := pc, notified := true }
  | .join =>
    match s.pc with
    | .ended => if s.notified ∧ s.joined = false then some { s with joined := true } else none
    | _ => none

/-- A notification now is not lost: the task is parked in its select, or past
its loop. -/
def Pc.listening : Pc → Bool
  | .parked _ | .stopping _ | .ended => true
  | .starting _ | .working .. => false

/-- The notification finds the task listening, and a woken select takes the
shutdown arm. -/
def Seen (s : State) : Act → Prop
  | .notifyWaiters => s.pc.listening = true
  | .takeArm _ => s.pc ≠ .parked true
  | _ => True

instance (s : State) : (a : Act) → Decidable (Seen s a)
  | .notifyWaiters => inferInstanceAs (Decidable (s.pc.listening = true))
  | .takeArm _ => inferInstanceAs (Decidable (s.pc ≠ .parked true))
  | .resume | .abandon | .takeShutdown | .inputClosed | .join => .isTrue trivial

def Pc.leaving : Pc → Bool
  | .parked true | .stopping _ | .ended => true
  | _ => false

/-- Notified and on the way out, with nothing taken up since. -/
structure Leaving (s : State) : Prop where
  notified : s.notified = true
  begun : s.begun = 0
  leaving : s.pc.leaving = true

/-- How many steps are left until the join returns. -/
def State.rank (kind : TaskKind) (s : State) : Nat :=
  match s.pc with
  | .stopping n => n + 2
  | .ended => if s.joined then 0 else 1
  | _ => kind.teardownAwaits + 3

theorem Leaving.step (h : Leaving s) (hseen : Seen s a) (hstep : step kind s a = some s') :
    Leaving s' ∧ s'.rank kind < s.rank kind := by
  obtain ⟨pc, notified, begun, joined⟩ := s
  obtain ⟨hnotified, hbegun, hleaving⟩ := h
  cases pc with
  | starting n => contradiction
  | working work n => contradiction
  | parked woken =>
    cases woken with
    | false => contradiction
    | true =>
      -- only the arms that end the loop are left
      cases a with
      | takeShutdown =>
        cases hstep
        exact ⟨⟨hnotified, hbegun, rfl⟩, by simp [State.rank]⟩
      | inputClosed =>
        simp only [Shutdown.step] at hstep
        split at hstep
        · cases hstep
          exact ⟨⟨hnotified, hbegun, rfl⟩, by simp [State.rank]⟩
        · contradiction
      | takeArm work => exact absurd rfl hseen
      | notifyWaiters => simp_all [Shutdown.step]
      | _ => contradiction
  | stopping n =>
    cases a with
    | resume =>
      cases n with
      | zero =>
        cases hstep
        refine ⟨⟨hnotified, hbegun, rfl⟩, ?_⟩
        cases joined <;> simp [State.rank]
      | succ n =>
        cases hstep
        exact ⟨⟨hnotified, hbegun, rfl⟩, by simp [State.rank]⟩
    | notifyWaiters => simp_all [Shutdown.step]
    | _ => contradiction
  | ended =>
    cases a with
    | join =>
      simp only [Shutdown.step] at hstep
      split at hstep
      · rename_i hjoin
        cases hstep
        exact ⟨⟨hnotified, hbegun, rfl⟩, by simp_all [State.rank]⟩
      · contradiction
    | notifyWaiters => simp_all [Shutdown.step]
    | _ => contradiction

/-- A run that stops with the join still open could have gone on. -/
theorem Leaving.joined_of_stuck (h : Leaving s)
    (hstuck : ∀ a, Seen s a → Shutdown.step kind s a = none) : s.joined = true := by
  obtain ⟨pc, notified, begun, joined⟩ := s
  obtain ⟨hnotified, hbegun, hleaving⟩ := h
  cases pc with
  | starting n => contradiction
  | working work n => contradiction
  | parked woken =>
    cases woken with
    | false => contradiction
    | true =>
      have hnone := hstuck .takeShutdown trivial
      contradiction
  | stopping n =>
    have hnone := hstuck .resume trivial
    cases n <;> contradiction
  | ended =>
    have hnone := hstuck .join trivial
    cases joined with
    | true => rfl
    | false => simp_all [Shutdown.step]

/-- Until the notification nothing is counted; after it the task leaves. -/
def Attentive (s : State) : Prop := s.begun = 0 ∧ (s.notified = true → Leaving s)

/-- Nothing but the notification notifies, and nothing is counted before it. -/
theorem step_unnotified (hn : s.notified = false) (hstep : step kind s a = some s')
    (ha : a ≠ .notifyWaiters) : s'.notified = false ∧ s'.begun = s.begun := by
  cases a with
  | notifyWaiters => exact absurd rfl ha
  | resume =>
    simp only [Shutdown.step] at hstep
    split at hstep <;> cases hstep <;> exact ⟨hn, rfl⟩
  | takeShutdown =>
    simp only [Shutdown.step] at hstep
    split at hstep <;> cases hstep
    exact ⟨hn, rfl⟩
  | abandon | inputClosed | join =>
    simp only [Shutdown.step] at hstep
    split at hstep
    · split at hstep <;> cases hstep
      exact ⟨hn, rfl⟩
    · contradiction
  | takeArm work =>
    simp only [Shutdown.step] at hstep
    split at hstep
    · split at hstep <;> cases hstep
      exact ⟨hn, by simp [hn]⟩
    · contradiction

theorem Attentive.step (h : Attentive s) (hseen : Seen s a) (hstep : step kind s a = some s') :
    Attentive s' := by
  cases hn : s.notified with
  | true =>
    obtain ⟨hleaving, -⟩ := (h.2 hn).step hseen hstep
    exact ⟨hleaving.begun, fun _ => hleaving⟩
  | false =>
    by_cases ha : a = .notifyWaiters
    · subst ha
      simp only [Shutdown.step, hn, Bool.false_eq_true, if_false, Option.some.injEq] at hstep
      subst hstep
      refine ⟨h.1, fun _ => ⟨rfl, h.1, ?_⟩⟩
      cases hpc : s.pc with
      | starting n | working work n => simp [Seen, hpc, Pc.listening] at hseen
      | parked woken | stopping n | ended => rfl
    · obtain ⟨hn', hbegun⟩ := step_unnotified hn hstep ha
      refine ⟨hbegun.trans h.1, ?_⟩
      intro hnotified
      rw [hn'] at hnotified
      contradiction

/-- In every run in which the notification is seen, a notified task has taken
up nothing since, only boundedly many steps are left, and none are left only
once the join has returned. -/
theorem join_completes_of_seen (kind : TaskKind) (acts : List Act) (s : State)
    (hseen : Meets (step kind) Seen (.spawned kind) acts)
    (hrun : exec (step kind) (.spawned kind) acts = some s) (hnotified : s.notified = true) :
    s.begun = 0 ∧ ∀ more s', Meets (step kind) Seen s more → exec (step kind) s more = some s' →
      s'.begun = 0 ∧ more.length ≤ s.rank kind ∧
      ((∀ a, Seen s' a → step kind s' a = none) → s'.joined = true) := by
  have hspawned : Attentive (.spawned kind) := ⟨rfl, by simp [State.spawned]⟩
  have hattentive : Attentive s :=
    exec_invariant (fun h hs he => Attentive.step h hs he) hspawned hseen hrun
  have hleaving := hattentive.2 hnotified
  refine ⟨hleaving.begun, ?_⟩
  intro more s' hmore hrest
  have hleaving' : Leaving s' :=
    exec_invariant (fun h hs he => (Leaving.step h hs he).1) hleaving hmore hrest
  have hrank : more.length + s'.rank kind ≤ s.rank kind :=
    exec_rank (fun h hs he => Leaving.step h hs he) hleaving hmore hrest
  exact ⟨hleaving'.begun, by omega, hleaving'.joined_of_stuck⟩

def parkedWhenNotified : List Act :=
  [.resume, .resume, .resume, .takeArm .captureChunk, .resume, .resume, .notifyWaiters]

theorem join_completes_capture :
    ∃ s, exec (step .capture) (.spawned .capture) parkedWhenNotified = some s ∧ s.begun = 0 ∧
      ∃ s', exec (step .capture) s [.takeShutdown, .resume, .resume, .join] = some s' ∧
        s'.begun = 0 ∧ s'.joined = true := by
  obtain ⟨hbegun, hmore⟩ := join_completes_of_seen .capture parkedWhenNotified
    ⟨.parked true, true, 0, false⟩ (by decide) rfl rfl
  refine ⟨_, rfl, hbegun, ⟨.ended, true, 0, true⟩, rfl, ?_⟩
  obtain ⟨hbegun', -, hjoined⟩ := hmore [.takeShutdown, .resume, .resume, .join] _ (by decide) rfl
  refine ⟨hbegun', hjoined ?_⟩
  intro a _
  cases a <;> rfl

/-- The notification comes while the receiver reports a frame it rendered:
the task parks again, takes the next frame, and the join waits on. -/
theorem join_hangs_working :
    ∃ s, exec (step .receiver) (.spawned .receiver)
        [.resume, .resume, .takeArm (.schedulerTick 1), .notifyWaiters, .resume, .resume,
          .takeArm .receivedFrame, .resume] = some s ∧
      s.notified = true ∧ s.begun = 1 ∧ s.pc = .parked false ∧
      step .receiver s .takeShutdown = none ∧ step .receiver s .join = none :=
  ⟨_, rfl, rfl, rfl, rfl, rfl, rfl⟩

end EvoAudio.Multiroom.Shutdown
