import EvoAudio.Lib.Machine
import EvoAudio.Lib.Table

/-!
# The connection table of the audio plane

Connections after their handshake: the read task is spawned, then the entry
is inserted under the peer's id, then `PeerConnected` is emitted. Read tasks,
the idle reaper and `close_outbound_connections` take entries out again
(`mark_disconnected`), abort the read task of what they took out, and emit
`PeerDisconnected`.

Tasks interleave at their suspension points. An aborted task runs on until it
is next suspended and is dropped there, so a task is `suspended` or not, and
only a suspended one can be cancelled. Taking the lock of the table may
suspend or not; both are in the model.
-/

namespace EvoAudio.Multiroom.Connections

open Machine

inductive ConnectionDirection
  | inbound
  | outbound
  deriving DecidableEq, Repr

inductive Happening
  | peerConnected (deviceId : String) (direction : ConnectionDirection)
  | peerDisconnected (deviceId : String)
  deriving DecidableEq, Repr

/-- Where a read task stands. `bye` is for `mark_disconnected` called on a
Goodbye, after which the loop goes on; otherwise it is the task's last act.
A task cancelled inside the emit loses the happening. -/
inductive ReadTask
  | reading
  | marking (bye : Bool)
  | emitting (bye : Bool)
  | finished
  | cancelled (inEmit : Bool)
  deriving DecidableEq, Repr

def ReadTask.isOver : ReadTask → Bool
  | .finished | .cancelled _ => true
  | _ => false

def ReadTask.isEmitting : ReadTask → Bool
  | .emitting _ => true
  | _ => false

/-- The happening of the task went down with it. -/
def ReadTask.isLost : ReadTask → Bool
  | .cancelled inEmit => inEmit
  | _ => false

/-- What the task does after `mark_disconnected`. -/
def ReadTask.resumed (bye : Bool) : ReadTask := if bye then .reading else .finished

structure Conn where
  peer : String
  direction : ConnectionDirection
  task : ReadTask
  suspended : Bool
  aborted : Bool
  inserted : Bool
  deriving DecidableEq, Repr

structure ConnectionEntry where
  conn : Nat
  direction : ConnectionDirection
  lastChannelActivityMs : Nat
  deriving DecidableEq, Repr

/-- Connections in the order their read tasks were spawned, the table, and
the happenings: emitted, and due from a handshake, from the reaper and from
closing the outbound connections. -/
structure State where
  conns : List Conn
  table : AList fun _ : String => ConnectionEntry
  log : List Happening
  announcing : List (String × ConnectionDirection)
  stale : List String
  reaping : Option String
  closing : List String

def State.init : State := ⟨[], ∅, [], [], [], none, []⟩

inductive Act
  | spawn (peer : String) (direction : ConnectionDirection)
  | insert (c : Nat) (nowMs : Nat)
  | announce (peer : String) (direction : ConnectionDirection)
  | suspend (c : Nat)
  | resume (c : Nat)
  | cancel (c : Nat)
  | message (c : Nat) (nowMs : Nat)
  | goodbye (c : Nat) (nowMs : Nat)
  | readError (c : Nat)
  | markDisconnected (c : Nat)
  | emitted (c : Nat)
  | reapScan (nowMs idleReapThresholdMs : Nat)
  | reapNext
  | reapEmitted
  | closeOutbound
  | closeEmitted (peer : String)
  deriving DecidableEq, Repr

def State.update (s : State) (c : Nat) (f : Conn → Conn) : State :=
  { s with conns := s.conns.modify c f }

def Conn.setTask (task : ReadTask) (conn : Conn) : Conn := { conn with task := task }
def Conn.abort (conn : Conn) : Conn := { conn with aborted := true }

def State.dropEntry (s : State) (peer : String) (c : Nat) : State :=
  { s with conns := s.conns.modify c Conn.abort, table := s.table.erase peer }

def State.place (s : State) (c : Nat) (conn : Conn) (nowMs : Nat) : State :=
  { s with
    conns := s.conns.modify c fun conn => { conn with inserted := true }
    table := s.table.insert conn.peer ⟨c, conn.direction, nowMs⟩ }

/-- Take a peer's entry out and abort its read task. -/
def State.takeOut (s : State) (peer : String) : Option State :=
  (s.table.lookup peer).map fun entry => s.dropEntry peer entry.conn

def State.takeOutAll (s : State) : List String → State
  | [] => s
  | peer :: peers => ((s.takeOut peer).getD s).takeOutAll peers

/-- Every inbound message touches the entry under the peer's id. -/
def State.touch (s : State) (peer : String) (nowMs : Nat) : State :=
  match s.table.lookup peer with
  | some entry =>
    { s with table := s.table.insert peer { entry with lastChannelActivityMs := nowMs } }
  | none => s

def State.outbound (s : State) : List String :=
  (s.table.entries.filter fun e => e.2.direction = .outbound).map (·.1)

def State.idle (s : State) (nowMs idleReapThresholdMs : Nat) : List String :=
  (s.table.entries.filter fun e =>
    nowMs - e.2.lastChannelActivityMs > idleReapThresholdMs).map (·.1)

/-- The connection of a task that is not suspended and not over. -/
def State.running (s : State) (c : Nat) : Option Conn :=
  s.conns[c]?.filter fun conn => !conn.suspended && !conn.task.isOver

def State.step (s : State) : Act → Option State
  | .spawn peer direction =>
    some { s with conns := s.conns ++ [⟨peer, direction, .reading, false, false, false⟩] }
  | .insert c nowMs =>
    match s.conns[c]? with
    | some conn =>
      if conn.inserted then none
      else
        let cleared := (s.takeOut conn.peer).getD s
        let alreadyPresent := (s.table.lookup conn.peer).isSome
        let due := if alreadyPresent then [] else [(conn.peer, conn.direction)]
        some { cleared.place c conn nowMs with announcing := s.announcing ++ due }
    | none => none
  | .announce peer direction =>
    if (peer, direction) ∈ s.announcing then
      some { s with
        announcing := s.announcing.erase (peer, direction)
        log := s.log ++ [.peerConnected peer direction] }
    else none
  | .suspend c =>
    match s.running c with
    | some _ => some (s.update c fun conn => { conn with suspended := true })
    | none => none
  | .resume c =>
    match s.conns[c]? with
    | some conn =>
      if conn.suspended && !conn.aborted && !conn.task.isOver then
        some (s.update c fun conn => { conn with suspended := false })
      else none
    | none => none
  | .cancel c =>
    match s.conns[c]? with
    | some conn =>
      if conn.suspended && conn.aborted && !conn.task.isOver then
        some (s.update c (Conn.setTask (.cancelled conn.task.isEmitting)))
      else none
    | none => none
  | .message c nowMs =>
    match s.running c with
    | some conn => if conn.task = .reading then some (s.touch conn.peer nowMs) else none
    | none => none
  | .goodbye c nowMs =>
    match s.running c with
    | some conn =>
      if conn.task = .reading then
        some ((s.touch conn.peer nowMs).update c (Conn.setTask (.marking true)))
      else none
    | none => none
  | .readError c =>
    match s.running c with
    | some conn =>
      if conn.task = .reading then some (s.update c (Conn.setTask (.marking false))) else none
    | none => none
  | .markDisconnected c =>
    match s.running c with
    | some conn =>
      match conn.task with
      | .marking bye =>
        match s.takeOut conn.peer with
        | some taken => some (taken.update c (Conn.setTask (.emitting bye)))
        | none => some (s.update c (Conn.setTask (.resumed bye)))
      | _ => none
    | none => none
  | .emitted c =>
    match s.running c with
    | some conn =>
      match conn.task with
      | .emitting bye =>
        let logged : State := { s with log := s.log ++ [.peerDisconnected conn.peer] }
        some (logged.update c (Conn.setTask (.resumed bye)))
      | _ => none
    | none => none
  | .reapScan nowMs idleReapThresholdMs =>
    if s.stale = [] ∧ s.reaping = none then
      some { s with stale := s.idle nowMs idleReapThresholdMs }
    else none
  | .reapNext =>
    match s.reaping, s.stale with
    | none, peer :: rest =>
      match s.takeOut peer with
      | some taken => some { taken with stale := rest, reaping := some peer }
      | none => some { s with stale := rest }
    | _, _ => none
  | .reapEmitted =>
    match s.reaping with
    | some peer => some { s with reaping := none, log := s.log ++ [.peerDisconnected peer] }
    | none => none
  | .closeOutbound => some { s.takeOutAll s.outbound with closing := s.closing ++ s.outbound }
  | .closeEmitted peer =>
    if peer ∈ s.closing then
      some { s with closing := s.closing.erase peer, log := s.log ++ [.peerDisconnected peer] }
    else none

-- ---------------------------------------------------------------------------
-- What the pieces of a step do
-- ---------------------------------------------------------------------------

theorem update_getElem? (s : State) (c d : Nat) (f : Conn → Conn) :
    (s.update c f).conns[d]? = (fun conn => if c = d then f conn else conn) <$> s.conns[d]? :=
  List.getElem?_modify ..

theorem dropEntry_getElem? (s : State) (peer : String) (c d : Nat) :
    (s.dropEntry peer c).conns[d]? =
      (fun conn => if c = d then conn.abort else conn) <$> s.conns[d]? :=
  List.getElem?_modify ..

/-- The connection of the entry under a peer's id. -/
def State.holder (s : State) (peer : String) : Option Nat := (s.table.lookup peer).map (·.conn)

theorem dropEntry_holder (s : State) (peer : String) (c : Nat) (peer' : String) :
    (s.dropEntry peer c).holder peer' = if peer' = peer then none else s.holder peer' := by
  unfold State.holder State.dropEntry
  rw [Table.lookup_erase_ite]
  split <;> rfl

theorem takeOut_cases (s : State) (peer : String) :
    (s.holder peer = none ∧ s.takeOut peer = none) ∨
    ∃ c, s.holder peer = some c ∧ s.takeOut peer = some (s.dropEntry peer c) := by
  unfold State.takeOut State.holder
  cases h : s.table.lookup peer with
  | none => exact .inl ⟨rfl, rfl⟩
  | some entry => exact .inr ⟨entry.conn, rfl, rfl⟩

theorem takeOut_some {s : State} (ht : s.takeOut peer = some s') :
    ∃ c, s.holder peer = some c ∧ s' = s.dropEntry peer c := by
  obtain ⟨-, hnone⟩ | ⟨c, hheld, hsome⟩ := takeOut_cases s peer
  · rw [hnone] at ht
    contradiction
  · rw [hsome] at ht
    exact ⟨c, hheld, (Option.some.inj ht).symm⟩

theorem takeOut_none {s : State} (ht : s.takeOut peer = none) : s.holder peer = none := by
  obtain ⟨hnone, -⟩ | ⟨c, -, hsome⟩ := takeOut_cases s peer
  · exact hnone
  · rw [hsome] at ht
    contradiction

theorem place_getElem? (s : State) (c : Nat) (conn : Conn) (nowMs d : Nat) :
    (s.place c conn nowMs).conns[d]? =
      (fun conn => if c = d then { conn with inserted := true } else conn) <$> s.conns[d]? :=
  List.getElem?_modify ..

theorem place_holder (s : State) (c : Nat) (conn : Conn) (nowMs : Nat) (peer : String) :
    (s.place c conn nowMs).holder peer = if peer = conn.peer then some c else s.holder peer := by
  unfold State.holder State.place
  rw [Table.lookup_insert_ite]
  split <;> rfl

theorem running_iff {s : State} : s.running c = some conn ↔
    s.conns[c]? = some conn ∧ conn.suspended = false ∧ conn.task.isOver = false := by
  simp [State.running, Option.filter_eq_some_iff]

/-- Touching an entry keeps which connection it is of. -/
theorem touch_holder (s : State) (peer : String) (nowMs : Nat) (peer' : String) :
    (s.touch peer nowMs).holder peer' = s.holder peer' := by
  unfold State.touch State.holder
  split
  · rename_i entry hentry
    rw [Table.lookup_insert_ite]
    split
    · rename_i heq
      rw [heq, hentry]
      rfl
    · rfl
  · rfl

theorem touch_conns (s : State) (peer : String) (nowMs : Nat) :
    (s.touch peer nowMs).conns = s.conns := by
  unfold State.touch
  split <;> rfl

-- ---------------------------------------------------------------------------
-- What each action does
-- ---------------------------------------------------------------------------

/-- The actions with their guards, one constructor for each way to take one. -/
inductive Step (s : State) : Act → State → Prop
  | spawn : Step s (.spawn peer direction)
      { s with conns := s.conns ++ [⟨peer, direction, .reading, false, false, false⟩] }
  | insert (conn : Conn) (hc : s.conns[c]? = some conn) (hnew : conn.inserted = false) :
      Step s (.insert c nowMs)
        { ((s.takeOut conn.peer).getD s).place c conn nowMs with
          announcing := s.announcing ++
            if (s.table.lookup conn.peer).isSome then [] else [(conn.peer, conn.direction)] }
  | announce (hmem : (peer, direction) ∈ s.announcing) : Step s (.announce peer direction)
      { s with
        announcing := s.announcing.erase (peer, direction)
        log := s.log ++ [.peerConnected peer direction] }
  | suspend (conn : Conn) (hrunning : s.running c = some conn) :
      Step s (.suspend c) (s.update c fun conn => { conn with suspended := true })
  | resume (conn : Conn) (hc : s.conns[c]? = some conn) (hsuspended : conn.suspended = true)
      (haborted : conn.aborted = false) (hover : conn.task.isOver = false) :
      Step s (.resume c) (s.update c fun conn => { conn with suspended := false })
  | cancel (conn : Conn) (hc : s.conns[c]? = some conn) (hsuspended : conn.suspended = true)
      (haborted : conn.aborted = true) (hover : conn.task.isOver = false) :
      Step s (.cancel c) (s.update c (Conn.setTask (.cancelled conn.task.isEmitting)))
  | message (conn : Conn) (hrunning : s.running c = some conn) (htask : conn.task = .reading) :
      Step s (.message c nowMs) (s.touch conn.peer nowMs)
  | goodbye (conn : Conn) (hrunning : s.running c = some conn) (htask : conn.task = .reading) :
      Step s (.goodbye c nowMs)
        ((s.touch conn.peer nowMs).update c (Conn.setTask (.marking true)))
  | readError (conn : Conn) (hrunning : s.running c = some conn) (htask : conn.task = .reading) :
      Step s (.readError c) (s.update c (Conn.setTask (.marking false)))
  | markHeld (conn : Conn) (bye : Bool) (taken : State) (hrunning : s.running c = some conn)
      (htask : conn.task = .marking bye) (ht : s.takeOut conn.peer = some taken) :
      Step s (.markDisconnected c) (taken.update c (Conn.setTask (.emitting bye)))
  | markGone (conn : Conn) (bye : Bool) (hrunning : s.running c = some conn)
      (htask : conn.task = .marking bye) (ht : s.takeOut conn.peer = none) :
      Step s (.markDisconnected c) (s.update c (Conn.setTask (.resumed bye)))
  | emitted (conn : Conn) (bye : Bool) (hrunning : s.running c = some conn)
      (htask : conn.task = .emitting bye) :
      Step s (.emitted c)
        (State.update { s with log := s.log ++ [.peerDisconnected conn.peer] } c
          (Conn.setTask (.resumed bye)))
  | reapScan (hstale : s.stale = []) (hreaping : s.reaping = none) :
      Step s (.reapScan nowMs idleReapThresholdMs)
        { s with stale := s.idle nowMs idleReapThresholdMs }
  | reapHeld (peer : String) (taken : State) (hreaping : s.reaping = none)
      (hstale : s.stale = peer :: rest) (ht : s.takeOut peer = some taken) :
      Step s .reapNext { taken with stale := rest, reaping := some peer }
  | reapGone (peer : String) (hreaping : s.reaping = none) (hstale : s.stale = peer :: rest)
      (ht : s.takeOut peer = none) : Step s .reapNext { s with stale := rest }
  | reapEmitted (peer : String) (hreaping : s.reaping = some peer) :
      Step s .reapEmitted { s with reaping := none, log := s.log ++ [.peerDisconnected peer] }
  | closeOutbound :
      Step s .closeOutbound { s.takeOutAll s.outbound with closing := s.closing ++ s.outbound }
  | closeEmitted (hmem : peer ∈ s.closing) : Step s (.closeEmitted peer)
      { s with closing := s.closing.erase peer, log := s.log ++ [.peerDisconnected peer] }

theorem Step.of_step {s : State} (h : s.step a = some s') : Step s a s' := by
  cases a with
  | spawn | closeOutbound =>
    cases h
    constructor
  | insert c nowMs =>
    simp only [State.step] at h
    split at h
    · rename_i conn hc
      split at h <;> cases h
      rename_i hnew
      exact .insert conn hc (by simpa using hnew)
    · contradiction
  | announce | closeEmitted =>
    simp only [State.step] at h
    split at h <;> cases h
    constructor
    assumption
  | suspend c =>
    simp only [State.step] at h
    split at h <;> cases h
    rename_i conn hrunning
    exact .suspend conn hrunning
  | resume c =>
    simp only [State.step] at h
    split at h
    · rename_i conn hc
      split at h <;> cases h
      rename_i hflags
      simp only [Bool.and_eq_true, Bool.not_eq_true'] at hflags
      exact .resume conn hc hflags.1.1 hflags.1.2 hflags.2
    · contradiction
  | cancel c =>
    simp only [State.step] at h
    split at h
    · rename_i conn hc
      split at h <;> cases h
      rename_i hflags
      simp only [Bool.and_eq_true, Bool.not_eq_true'] at hflags
      exact .cancel conn hc hflags.1.1 hflags.1.2 hflags.2
    · contradiction
  | message c nowMs =>
    simp only [State.step] at h
    split at h
    · rename_i conn hrunning
      split at h <;> cases h
      rename_i htask
      exact .message conn hrunning htask
    · contradiction
  | goodbye c nowMs =>
    simp only [State.step] at h
    split at h
    · rename_i conn hrunning
      split at h <;> cases h
      rename_i htask
      exact .goodbye conn hrunning htask
    · contradiction
  | readError c =>
    simp only [State.step] at h
    split at h
    · rename_i conn hrunning
      split at h <;> cases h
      rename_i htask
      exact .readError conn hrunning htask
    · contradiction
  | markDisconnected c =>
    simp only [State.step] at h
    split at h
    · rename_i conn hrunning
      split at h
      · rename_i bye htask
        split at h <;> cases h
        · rename_i taken ht
          exact .markHeld conn bye taken hrunning htask ht
        · rename_i ht
          exact .markGone conn bye hrunning htask ht
      · contradiction
    · contradiction
  | emitted c =>
    simp only [State.step] at h
    split at h
    · rename_i conn hrunning
      split at h
      · rename_i bye htask
        cases h
        exact .emitted conn bye hrunning htask
      · contradiction
    · contradiction
  | reapScan nowMs idleReapThresholdMs =>
    simp only [State.step] at h
    split at h <;> cases h
    rename_i hidle
    exact .reapScan hidle.1 hidle.2
  | reapNext =>
    simp only [State.step] at h
    split at h
    · rename_i peer rest hreaping hstale
      split at h <;> cases h
      · rename_i taken ht
        exact .reapHeld peer taken hreaping hstale ht
      · rename_i ht
        exact .reapGone peer hreaping hstale ht
    · contradiction
  | reapEmitted =>
    simp only [State.step] at h
    split at h <;> cases h
    rename_i peer hreaping
    exact .reapEmitted peer hreaping

-- ---------------------------------------------------------------------------
-- The invariant
-- ---------------------------------------------------------------------------

/-- What ties a connection to the entry under its peer's id. -/
structure Conn.Tied (holder : Option Nat) (c : Nat) (conn : Conn) : Prop where
  /-- A read task keeps to its loop until its entry is in the table. -/
  early : conn.inserted = false → conn.task = .reading ∧ conn.aborted = false
  /-- An entry leaves the table only with its read task aborted. -/
  own : conn.inserted = true → conn.aborted = false → holder = some c
  /-- An aborted task that still runs sees no entry. -/
  gone : conn.aborted = true → conn.suspended = false → conn.task.isOver = false → holder = none
  emitting : conn.task.isEmitting = true → conn.aborted = true

/-- Fit to be in the table. -/
structure Conn.Live (conn : Conn) : Prop where
  inserted : conn.inserted = true
  aborted : conn.aborted = false
  task : conn.task.isOver = false

structure Tied (s : State) : Prop where
  entry : ∀ {peer c}, s.holder peer = some c →
    ∃ conn, s.conns[c]? = some conn ∧ conn.peer = peer ∧ conn.Live
  tasks : ∀ {c} {conn : Conn}, s.conns[c]? = some conn → conn.Tied (s.holder conn.peer) c

/-- A connection is inserted only while every other read task of its peer is
suspended or over, and a read task leaves its loop (on an error, or for a
Goodbye) only once its own entry has been inserted. -/
def Orderly (s : State) : Act → Prop
  | .insert c _ => ∀ conn ∈ s.conns[c]?, ∀ other ∈ s.conns.eraseIdx c,
      other.peer = conn.peer → other.suspended = true ∨ other.task.isOver = true
  | .goodbye c _ | .readError c => ∀ conn ∈ s.conns[c]?, conn.inserted = true
  | _ => True

instance (s : State) : (a : Act) → Decidable (Orderly s a)
  | .insert c _ => inferInstanceAs (Decidable (∀ conn ∈ s.conns[c]?, ∀ other ∈ s.conns.eraseIdx c,
      other.peer = conn.peer → other.suspended = true ∨ other.task.isOver = true))
  | .goodbye c _ | .readError c =>
    inferInstanceAs (Decidable (∀ conn ∈ s.conns[c]?, conn.inserted = true))
  | .spawn .. | .announce .. | .suspend _ | .resume _ | .cancel _ | .message .. | .emitted _
  | .markDisconnected _ | .reapScan .. | .reapNext | .reapEmitted | .closeOutbound
  | .closeEmitted _ => .isTrue trivial

theorem Tied.congr (h : Tied s) (hconns : s'.conns = s.conns)
    (hholder : ∀ peer, s'.holder peer = s.holder peer) : Tied s' where
  entry := by
    intro peer c hc
    rw [hconns]
    exact h.entry (hholder peer ▸ hc)
  tasks := by
    intro c conn hc
    rw [hholder]
    exact h.tasks (hconns ▸ hc)

/-- A step of one read task that leaves the table alone. -/
theorem Tied.update (h : Tied s) (hc : s.conns[c]? = some conn) (hpeer : (f conn).peer = conn.peer)
    (htied : (f conn).Tied (s.holder conn.peer) c)
    (hlive : s.holder conn.peer = some c → (f conn).Live) : Tied (s.update c f) where
  entry := by
    intro peer d hd
    obtain ⟨other, hother, rfl, hl⟩ := h.entry hd
    rw [update_getElem?, hother]
    by_cases hcd : c = d
    · subst hcd
      rw [hc] at hother
      cases hother
      exact ⟨f conn, by simp, hpeer, hlive hd⟩
    · exact ⟨other, by simp [hcd], rfl, hl⟩
  tasks := by
    intro d other hd
    rw [update_getElem?] at hd
    by_cases hcd : c = d
    · subst hcd
      rw [hc] at hd
      simp only [if_true, Option.map_eq_map, Option.map_some, Option.some.injEq] at hd
      subst hd
      rw [hpeer]
      exact htied
    · simp only [hcd, if_false, Option.map_eq_map, Option.map_id'] at hd
      exact h.tasks hd

theorem Tied.dropEntry (h : Tied s) (hheld : s.holder peer = some c) :
    Tied (s.dropEntry peer c) := by
  obtain ⟨taken, htaken, rfl, hl⟩ := h.entry hheld
  refine ⟨?_, ?_⟩
  · intro peer' d hd
    rw [dropEntry_holder] at hd
    split at hd
    · contradiction
    · rename_i hne
      obtain ⟨other, hother, rfl, hlive⟩ := h.entry hd
      -- the aborted task is of another peer
      have hcd : c ≠ d := by
        rintro rfl
        rw [hother] at htaken
        cases htaken
        exact hne rfl
      exact ⟨other, by simp [dropEntry_getElem?, hother, hcd], rfl, hlive⟩
  · intro d other hd
    rw [dropEntry_holder]
    rw [dropEntry_getElem?] at hd
    by_cases hcd : c = d
    · subst hcd
      simp only [htaken, if_true, Option.map_eq_map, Option.map_some, Option.some.injEq] at hd
      subst hd
      refine ⟨?_, ?_, fun _ _ _ => if_pos rfl, fun _ => rfl⟩
      · intro hinserted
        have hins : taken.inserted = false := hinserted
        rw [hl.inserted] at hins
        contradiction
      · intro _ haborted
        contradiction
    · simp only [hcd, if_false, Option.map_eq_map, Option.map_id'] at hd
      have hother := h.tasks hd
      refine ⟨hother.early, ?_, ?_, hother.emitting⟩
      · intro hins hab
        have hown := hother.own hins hab
        split
        · rename_i hpeer
          rw [hpeer, hheld] at hown
          exact absurd (Option.some.inj hown) hcd
        · exact hown
      · intro hab hsus hover
        rw [hother.gone hab hsus hover]
        split <;> rfl

theorem Tied.takeOut (h : Tied s) (ht : s.takeOut peer = some s') : Tied s' := by
  obtain ⟨c, hheld, rfl⟩ := takeOut_some ht
  exact h.dropEntry hheld

theorem Tied.takeOutAll (h : Tied s) (peers : List String) : Tied (s.takeOutAll peers) := by
  induction peers generalizing s with
  | nil => exact h
  | cons peer peers ih =>
    refine ih ?_
    cases ht : s.takeOut peer with
    | none => exact h
    | some s' => exact h.takeOut ht

theorem Tied.spawn (h : Tied s) (peer : String) (direction : ConnectionDirection) :
    Tied { s with conns := s.conns ++ [⟨peer, direction, .reading, false, false, false⟩] } := by
  refine ⟨?_, ?_⟩
  · intro peer' c hc
    obtain ⟨conn, hconn, rest⟩ := h.entry hc
    have hlt := (List.getElem?_eq_some_iff.mp hconn).1
    exact ⟨conn, by rw [List.getElem?_append_left hlt, hconn], rest⟩
  · intro c conn hc
    rw [List.getElem?_append] at hc
    split at hc
    · exact h.tasks hc
    · have hnew := List.mem_singleton.mp (List.mem_of_getElem? hc)
      subst hnew
      exact ⟨fun _ => ⟨rfl, rfl⟩, by simp, by simp, by simp [ReadTask.isEmitting]⟩

/-- Making room for a new entry: the prior one is gone, its task aborted, and
the tasks not yet inserted are untouched. -/
theorem Tied.clear (h : Tied s) (peer : String) :
    Tied ((s.takeOut peer).getD s) ∧
      (∀ peer', ((s.takeOut peer).getD s).holder peer' =
        if peer' = peer then none else s.holder peer') ∧
      (∀ {d : Nat} {conn : Conn}, s.conns[d]? = some conn → conn.inserted = false →
        ((s.takeOut peer).getD s).conns[d]? = some conn) ∧
      ∀ {d : Nat} {conn' : Conn}, ((s.takeOut peer).getD s).conns[d]? = some conn' →
        ∃ conn, s.conns[d]? = some conn ∧ conn'.peer = conn.peer ∧
          conn'.suspended = conn.suspended ∧ conn'.task = conn.task := by
  obtain ⟨hnone, ht⟩ | ⟨c, hheld, ht⟩ := takeOut_cases s peer
  · rw [ht]
    refine ⟨h, ?_, fun hd _ => hd, fun hd => ⟨_, hd, rfl, rfl, rfl⟩⟩
    intro peer'
    split
    · rename_i heq
      rw [heq]
      exact hnone
    · rfl
  · rw [ht]
    refine ⟨h.dropEntry hheld, fun peer' => dropEntry_holder .., ?_, ?_⟩
    · intro d conn hd hnew
      obtain ⟨taken, htaken, -, hl⟩ := h.entry hheld
      have hcd : c ≠ d := by
        rintro rfl
        rw [hd] at htaken
        cases htaken
        exact absurd hl.inserted (by simp [hnew])
      simp [dropEntry_getElem?, hd, hcd]
    · intro d conn' hd
      rw [Option.getD_some, dropEntry_getElem?] at hd
      obtain ⟨conn, hconn, rfl⟩ := Option.map_eq_some_iff.mp hd
      refine ⟨conn, hconn, ?_⟩
      split <;> exact ⟨rfl, rfl, rfl⟩

theorem Tied.place (h : Tied s) (hempty : s.holder conn.peer = none)
    (hc : s.conns[c]? = some conn) (hnew : conn.inserted = false)
    (hothers : ∀ d other, s.conns[d]? = some other → d ≠ c → other.peer = conn.peer →
      other.suspended = true ∨ other.task.isOver = true) : Tied (s.place c conn nowMs) := by
  obtain ⟨hreading, hnot⟩ := (h.tasks hc).early hnew
  refine ⟨?_, ?_⟩
  · intro peer d hd
    rw [place_holder] at hd
    rw [place_getElem?]
    split at hd
    · rename_i heq
      cases hd
      refine ⟨{ conn with inserted := true }, by simp [hc], heq.symm, rfl, hnot, ?_⟩
      simp [hreading, ReadTask.isOver]
    · rename_i hne
      obtain ⟨other, hother, rfl, hl⟩ := h.entry hd
      have hcd : c ≠ d := by
        rintro rfl
        rw [hc] at hother
        cases hother
        exact hne rfl
      exact ⟨other, by simp [hother, hcd], rfl, hl⟩
  · intro d other hd
    rw [place_getElem?] at hd
    rw [place_holder]
    by_cases hcd : c = d
    · subst hcd
      simp only [hc, if_true, Option.map_eq_map, Option.map_some, Option.some.injEq] at hd
      subst hd
      refine ⟨by simp, fun _ _ => by simp, ?_, ?_⟩
      · intro haborted
        rw [show conn.aborted = true from haborted] at hnot
        contradiction
      · intro hemit
        simp [hreading, ReadTask.isEmitting] at hemit
    · simp only [hcd, if_false, Option.map_eq_map, Option.map_id'] at hd
      have hother := h.tasks hd
      split
      · rename_i hpeer
        refine ⟨hother.early, ?_, ?_, hother.emitting⟩
        · intro hins hab
          have hown := hother.own hins hab
          rw [hpeer, hempty] at hown
          contradiction
        · intro _ hsus hover
          -- it would have to be running, and none of this peer is
          rcases hothers d other hd (Ne.symm hcd) hpeer with hs | ho
          · rw [hsus] at hs
            contradiction
          · rw [hover] at ho
            contradiction
      · exact hother

theorem Tied.insert (h : Tied s) (hok : Orderly s (.insert c nowMs))
    (hc : s.conns[c]? = some conn) (hnew : conn.inserted = false) :
    Tied (((s.takeOut conn.peer).getD s).place c conn nowMs) := by
  obtain ⟨htied, hholder, hkept, hsame⟩ := h.clear conn.peer
  refine htied.place (by rw [hholder, if_pos rfl]) (hkept hc hnew) hnew ?_
  intro d other hd hne hpeer
  obtain ⟨before, hbefore, hp, hs, ht⟩ := hsame hd
  rw [hs, ht]
  exact hok conn hc before (List.mem_eraseIdx_iff_getElem?.mpr ⟨d, hne, hbefore⟩) (hp ▸ hpeer)

/-- A connection that holds the entry of its peer is fit to. -/
theorem Tied.live (h : Tied s) (hc : s.conns[c]? = some conn)
    (hheld : s.holder conn.peer = some c) : conn.Live := by
  obtain ⟨_, hc', -, hlive⟩ := h.entry hheld
  rw [hc] at hc'
  cases hc'
  exact hlive

theorem Tied.suspend (h : Tied s) (hc : s.conns[c]? = some conn) :
    Tied (s.update c fun conn => { conn with suspended := true }) := by
  have hconn := h.tasks hc
  refine h.update hc rfl ⟨hconn.early, hconn.own, by simp, hconn.emitting⟩ ?_
  intro hheld
  have hlive := h.live hc hheld
  exact ⟨hlive.inserted, hlive.aborted, hlive.task⟩

theorem Tied.resume (h : Tied s) (hc : s.conns[c]? = some conn) (haborted : conn.aborted = false) :
    Tied (s.update c fun conn => { conn with suspended := false }) := by
  have hconn := h.tasks hc
  refine h.update hc rfl ⟨hconn.early, hconn.own, ?_, hconn.emitting⟩ ?_
  · intro habort
    rw [show conn.aborted = true from habort] at haborted
    contradiction
  · intro hheld
    have hlive := h.live hc hheld
    exact ⟨hlive.inserted, hlive.aborted, hlive.task⟩

/-- An aborted task may take any further step inside its own code. -/
theorem Tied.setTask_aborted (h : Tied s) (hc : s.conns[c]? = some conn)
    (haborted : conn.aborted = true)
    (hover : conn.suspended = false → task.isOver = false → conn.task.isOver = false) :
    Tied (s.update c (Conn.setTask task)) := by
  have hconn := h.tasks hc
  have hinserted : conn.inserted = true := by
    by_contra hnot
    have := (hconn.early (by simpa using hnot)).2
    rw [haborted] at this
    contradiction
  refine h.update hc rfl ⟨?_, ?_, ?_, fun _ => haborted⟩ ?_
  · intro hnot
    rw [show conn.inserted = false from hnot] at hinserted
    contradiction
  · intro _ hnot
    rw [show conn.aborted = false from hnot] at haborted
    contradiction
  · intro _ hsus ho
    exact hconn.gone haborted hsus (hover hsus ho)
  · intro hheld
    rw [(h.live hc hheld).aborted] at haborted
    contradiction

theorem Tied.touch (h : Tied s) (peer : String) (nowMs : Nat) : Tied (s.touch peer nowMs) :=
  h.congr (touch_conns s peer nowMs) (touch_holder s peer nowMs)

/-- A task with its entry inserted leaves the loop. -/
theorem Tied.leaveLoop (h : Tied s) (hc : s.conns[c]? = some conn) (hins : conn.inserted = true)
    (hover : conn.task.isOver = false) : Tied (s.update c (Conn.setTask (.marking bye))) := by
  have hconn := h.tasks hc
  refine h.update hc rfl ⟨?_, hconn.own, ?_, ?_⟩ ?_
  · intro hnot
    rw [show conn.inserted = false from hnot] at hins
    contradiction
  · intro hab hsus _
    exact hconn.gone hab hsus hover
  · intro hemit
    simp [Conn.setTask, ReadTask.isEmitting] at hemit
  · intro hheld
    exact ⟨hins, (h.live hc hheld).aborted, rfl⟩

/-- A task that marks its peer disconnected finds its own entry or none. -/
theorem Tied.marking_own (h : Tied s) (hrunning : s.running c = some conn)
    (htask : conn.task = .marking bye) (hheld : s.holder conn.peer = some d) : d = c := by
  obtain ⟨hc, hsus, hover⟩ := running_iff.mp hrunning
  have hconn := h.tasks hc
  have hins : conn.inserted = true := by
    by_contra hnot
    have := (hconn.early (by simpa using hnot)).1
    rw [htask] at this
    contradiction
  cases hab : conn.aborted with
  | true =>
    rw [hconn.gone hab hsus hover] at hheld
    contradiction
  | false =>
    rw [hconn.own hins hab] at hheld
    exact (Option.some.inj hheld).symm

/-- A task that marks its peer disconnected and finds no entry has been aborted
by whoever took it out. -/
theorem Tied.marking_aborted {c : Nat} {conn : Conn} (h : Tied s) (hc : s.conns[c]? = some conn)
    (htask : conn.task = .marking bye) (hnone : s.holder conn.peer = none) :
    conn.aborted = true := by
  by_contra hnot
  have hconn := h.tasks hc
  cases hins : conn.inserted with
  | true =>
    rw [hconn.own hins (by simpa using hnot)] at hnone
    contradiction
  | false =>
    have := (hconn.early hins).1
    rw [htask] at this
    contradiction

theorem Tied.markHeld (h : Tied s) (hrunning : s.running c = some conn)
    (htask : conn.task = .marking bye) (ht : s.takeOut conn.peer = some taken) :
    Tied (taken.update c (Conn.setTask (.emitting bye))) := by
  obtain ⟨hc, -, hover⟩ := running_iff.mp hrunning
  obtain ⟨d, hheld, rfl⟩ := takeOut_some ht
  obtain rfl := h.marking_own hrunning htask hheld
  have hc' : (s.dropEntry conn.peer d).conns[d]? = some conn.abort := by
    simp [dropEntry_getElem?, hc]
  exact (h.dropEntry hheld).setTask_aborted hc' rfl fun _ _ => hover

theorem Tied.markGone (h : Tied s) (hrunning : s.running c = some conn)
    (htask : conn.task = .marking bye) (ht : s.takeOut conn.peer = none) :
    Tied (s.update c (Conn.setTask (.resumed bye))) := by
  obtain ⟨hc, -, hover⟩ := running_iff.mp hrunning
  exact h.setTask_aborted hc (h.marking_aborted hc htask (takeOut_none ht)) fun _ _ => hover

theorem Tied.step (h : Tied s) (hok : Orderly s a) (hstep : s.step a = some s') : Tied s' := by
  cases Step.of_step hstep with
  | spawn => exact h.spawn ..
  | insert conn hc hnew => exact (h.insert hok hc hnew).congr rfl fun _ => rfl
  | suspend conn hrunning => exact h.suspend (running_iff.mp hrunning).1
  | resume conn hc _ haborted => exact h.resume hc haborted
  | cancel conn hc _ haborted hover => exact h.setTask_aborted hc haborted fun _ _ => hover
  | message conn => exact h.touch ..
  | goodbye conn hrunning =>
    obtain ⟨hc, -, hover⟩ := running_iff.mp hrunning
    exact (h.touch ..).leaveLoop (touch_conns s conn.peer _ ▸ hc) (hok conn hc) hover
  | readError conn hrunning =>
    obtain ⟨hc, -, hover⟩ := running_iff.mp hrunning
    exact h.leaveLoop hc (hok conn hc) hover
  | markHeld conn bye taken hrunning htask ht => exact h.markHeld hrunning htask ht
  | markGone conn bye hrunning htask ht => exact h.markGone hrunning htask ht
  | emitted conn bye hrunning htask =>
    obtain ⟨hc, -, hover⟩ := running_iff.mp hrunning
    have hab := (h.tasks hc).emitting (by simp [htask, ReadTask.isEmitting])
    refine Tied.setTask_aborted (h.congr ?_ ?_) hc hab fun _ _ => hover
    · rfl
    · exact fun _ => rfl
  | reapHeld peer taken _ _ ht => exact (h.takeOut ht).congr rfl fun _ => rfl
  | closeOutbound => exact (h.takeOutAll s.outbound).congr rfl fun _ => rfl
  | announce | reapScan | reapGone | reapEmitted | closeEmitted => exact h.congr rfl fun _ => rfl

theorem Tied.init : Tied .init where
  entry := by
    intro peer c hc
    simp [State.holder, State.init] at hc
  tasks := by
    intro c conn hc
    simp [State.init] at hc

/-- The entry a read task takes out is its own. -/
theorem Tied.removed_own (h : Tied s) (hstep : s.step (.markDisconnected c) = some s')
    (hheld : s.holder peer = some d) (hgone : s'.holder peer ≠ some d) : d = c := by
  cases Step.of_step hstep with
  | markGone => exact absurd hheld hgone
  | markHeld conn bye taken hrunning htask ht =>
    obtain ⟨d', -, rfl⟩ := takeOut_some ht
    have hafter := dropEntry_holder s conn.peer d' peer
    by_cases hpeer : peer = conn.peer
    · subst hpeer
      exact h.marking_own hrunning htask hheld
    · rw [if_neg hpeer, hheld] at hafter
      exact absurd hafter hgone

/-- In every orderly run, a read task that ends takes out no entry but its
own, and every entry in the table is of a read task that is not over. -/
theorem table_tracks_readTasks (acts : List Act) (s : State)
    (hok : Meets State.step Orderly .init acts) (hrun : exec State.step .init acts = some s) :
    (∀ c s', s.step (.markDisconnected c) = some s' → ∀ peer d, s.holder peer = some d →
      s'.holder peer ≠ some d → d = c) ∧
    ∀ peer d, s.holder peer = some d →
      ∃ conn, s.conns[d]? = some conn ∧ conn.peer = peer ∧ conn.task.isOver = false := by
  have htied : Tied s := exec_invariant (fun h ho hs => Tied.step h ho hs) Tied.init hok hrun
  refine ⟨fun c s' hstep peer d hheld hgone => htied.removed_own hstep hheld hgone, ?_⟩
  intro peer d hheld
  obtain ⟨conn, hconn, hpeer, hlive⟩ := htied.entry hheld
  exact ⟨conn, hconn, hpeer, hlive.task⟩

/-- The peer reconnects while its old read task waits for data; the old task
is dropped there, and the new one ends on a read error. -/
def reconnecting : List Act :=
  [.spawn "dev-b" .inbound, .insert 0 1, .suspend 0, .spawn "dev-b" .inbound, .insert 1 2,
    .cancel 0, .readError 1]

theorem table_tracks_readTasks_reconnecting :
    ∃ s, exec State.step .init reconnecting = some s ∧ s.holder "dev-b" = some 1 ∧
      ∃ s', s.step (.markDisconnected 1) = some s' ∧ s'.holder "dev-b" = none ∧
        ∀ d, s.holder "dev-b" = some d → d = 1 ∧
          ∃ conn, s.conns[d]? = some conn ∧ conn.peer = "dev-b" ∧ conn.task.isOver = false := by
  obtain ⟨s, hrun, hp⟩ := exec_of_any State.step .init reconnecting
    (fun s : State => decide (s.holder "dev-b" = some 1) &&
      (s.step (.markDisconnected 1)).any fun s' : State => decide (s'.holder "dev-b" = none))
    (by decide)
  simp only [Bool.and_eq_true, decide_eq_true_eq, Option.any_eq_true] at hp
  obtain ⟨hheld, s', hstep, hgone⟩ := hp
  obtain ⟨hown, hlive⟩ := table_tracks_readTasks reconnecting s (by decide) hrun
  refine ⟨s, hrun, hheld, s', hstep, hgone, ?_⟩
  intro d hd
  exact ⟨hown 1 s' hstep "dev-b" d hd (by simp [hgone]), hlive "dev-b" d hd⟩

/-- A read task that ends before its entry is inserted leaves a dead entry,
and one that is replaced while it runs takes out its successor's. -/
theorem table_loses_track :
    (∃ s, exec State.step .init
        [.spawn "dev-b" .inbound, .readError 0, .markDisconnected 0, .insert 0 1] = some s ∧
      s.holder "dev-b" = some 0 ∧ s.conns[0]?.map (·.task) = some .finished) ∧
    ∃ s s', exec State.step .init
        [.spawn "dev-b" .inbound, .insert 0 1, .spawn "dev-b" .inbound, .insert 1 2,
          .readError 0] = some s ∧
      s.holder "dev-b" = some 1 ∧ s.step (.markDisconnected 0) = some s' ∧
      s'.holder "dev-b" = none := by
  refine ⟨⟨_, rfl, ?_, rfl⟩, ⟨_, _, rfl, ?_, rfl, ?_⟩⟩
  all_goals decide

end EvoAudio.Multiroom.Connections
