import EvoAudio.Lib.Broadcast
import EvoAudio.Lib.Machine
import EvoAudio.Lib.UnixPath
import EvoAudio.Lib.Table

/-!
# The source registry

`playback.mpd/src/source_registry.rs`: the registered library sources with
their reachability, and `transition`, which stores a new state under the
registry's lock and broadcasts the change once the lock is released. Calls run
concurrently, so other calls can take effect between the two steps.
-/

namespace EvoAudio.Playback

inductive SourceStateDiscriminant where
  | probing
  | online
  | degraded
  | offline
  | retired
  deriving DecidableEq, Repr

inductive SourceState where
  | probing
  | online
  | degraded (reason : String) (sinceMs : Nat)
  | offline (reason : String) (sinceMs : Nat)
  | retired
  deriving DecidableEq, Repr

def SourceState.discriminant : SourceState → SourceStateDiscriminant
  | .probing => .probing
  | .online => .online
  | .degraded _ _ => .degraded
  | .offline _ _ => .offline
  | .retired => .retired

def SourceState.isReachable : SourceState → Bool
  | .online | .degraded _ _ => true
  | _ => false

structure SourceRecord where
  id : List Char
  mountPath : UnixPath
  state : SourceState
  lastSeenOnlineAtMs : Option Nat
  deriving DecidableEq, Repr

structure SourceStateChange where
  sourceId : List Char
  oldState : SourceState
  newState : SourceState
  atMs : Nat
  deriving DecidableEq, Repr

inductive RegistryError where
  | duplicate (sourceId : List Char)
  | unknown (sourceId : List Char)
  deriving DecidableEq, Repr

/-- The sources, each under its own id. -/
structure SourceRegistry where
  table : AList fun _ : List Char => SourceRecord
  keyed : ∀ id, ∀ record ∈ table.lookup id, record.id = id
  deriving DecidableEq

namespace SourceRegistry

def empty : SourceRegistry := ⟨∅, by simp⟩

def get (registry : SourceRegistry) (sourceId : List Char) : Option SourceRecord :=
  registry.table.lookup sourceId

def upsert (registry : SourceRegistry) (record : SourceRecord) : SourceRegistry where
  table := registry.table.insert record.id record
  keyed := by
    intro id other hother
    rw [Table.lookup_insert_ite] at hother
    split at hother
    next heq =>
      cases hother
      exact heq.symm
    · exact registry.keyed id other hother

/-- The records in the order of the table, which is any order. -/
def snapshot (registry : SourceRegistry) : List SourceRecord := registry.table.entries.map (·.2)

theorem get_upsert (registry : SourceRegistry) (record : SourceRecord) (sourceId : List Char) :
    (registry.upsert record).get sourceId =
      if sourceId = record.id then some record else registry.get sourceId :=
  Table.lookup_insert_ite ..

theorem get_id {registry : SourceRegistry} (h : registry.get sourceId = some record) :
    record.id = sourceId := registry.keyed sourceId record h

theorem mem_snapshot {registry : SourceRegistry} {record : SourceRecord} :
    record ∈ registry.snapshot ↔ registry.get record.id = some record := by
  constructor
  · intro h
    obtain ⟨entry, hentry, rfl⟩ := List.mem_map.mp h
    have hget : registry.get entry.1 = some entry.2 := AList.mem_lookup_iff.mpr hentry
    rwa [get_id hget]
  · intro h
    exact List.mem_map.mpr ⟨⟨record.id, record⟩, AList.mem_lookup_iff.mp h, rfl⟩

end SourceRegistry

def sourceStateBroadcastCapacity : Nat := 64

/-- What `transition` does under the lock: the old state, and the change to
broadcast. A state of the same kind is stored without one. -/
def SourceRegistry.transition (registry : SourceRegistry) (sourceId : List Char)
    (newState : SourceState) (now : Nat) :
    Except RegistryError (SourceState × SourceRegistry × Option SourceStateChange) :=
  match registry.get sourceId with
  | none => .error (.unknown sourceId)
  | some record =>
    if record.state.discriminant = newState.discriminant then
      .ok (record.state, registry.upsert { record with state := newState }, none)
    else
      let lastSeenOnlineAtMs := if newState = .online then some now else record.lastSeenOnlineAtMs
      .ok (record.state, registry.upsert { record with state := newState, lastSeenOnlineAtMs },
        some ⟨sourceId, record.state, newState, now⟩)

-- ---------------------------------------------------------------------------
-- Concurrent transitions and a subscriber
-- ---------------------------------------------------------------------------

structure Transitions where
  registry : SourceRegistry
  /-- Changes stored by calls that have not broadcast them yet. -/
  pending : List SourceStateChange
  channel : Broadcast SourceStateChange
  /-- All changes in the order they were stored. -/
  history : List SourceStateChange
  deriving DecidableEq

namespace Transitions

inductive Act where
  /-- A call takes the lock and stores the state. -/
  | store (sourceId : List Char) (newState : SourceState) (now : Nat)
  /-- One of the calls broadcasts its change. -/
  | broadcast (index : Nat)
  /-- The subscriber takes the next message. -/
  | receive
  deriving DecidableEq, Repr

def start (registry : SourceRegistry) : Transitions := ⟨registry, [], .empty, []⟩

/-- A call on an unknown source fails and changes nothing. -/
def step (s : Transitions) : Act → Option Transitions
  | .store sourceId newState now =>
    match s.registry.transition sourceId newState now with
    | .error _ => some s
    | .ok (_, registry, none) => some { s with registry }
    | .ok (_, registry, some change) =>
      some { s with registry, pending := s.pending ++ [change], history := s.history ++ [change] }
  | .broadcast index =>
    match s.pending[index]? with
    | none => none
    | some change =>
      some { s with pending := s.pending.eraseIdx index, channel := s.channel.send change }
  | .receive =>
    match s.channel.recv sourceStateBroadcastCapacity with
    | none => none
    | some channel => some { s with channel }

/-- The changes of one source. -/
def of (sourceId : List Char) (changes : List SourceStateChange) : List SourceStateChange :=
  changes.filter (·.sourceId == sourceId)

/-- Every change starts where the one before ended, by the kind of the state. -/
def Chains : SourceStateDiscriminant → List SourceStateChange → SourceStateDiscriminant → Prop
  | first, [], last => first = last
  | first, change :: changes, last =>
    change.oldState.discriminant = first ∧ Chains change.newState.discriminant changes last

/-- A change of the source is stored only once the one before is broadcast. -/
def InTurn (sourceId : List Char) (s : Transitions) : Act → Prop
  | .store id newState _ => id = sourceId → ∀ record ∈ s.registry.get id,
      record.state.discriminant ≠ newState.discriminant → of sourceId s.pending = []
  | _ => True

instance (sourceId : List Char) (s : Transitions) : DecidablePred (InTurn sourceId s)
  | .store id newState _ => inferInstanceAs (Decidable (id = sourceId →
      ∀ record ∈ s.registry.get id, record.state.discriminant ≠ newState.discriminant →
        of sourceId s.pending = []))
  | .broadcast _ | .receive => .isTrue trivial

-- ---------------------------------------------------------------------------
-- What a step does
-- ---------------------------------------------------------------------------

@[simp] theorem of_append (sourceId : List Char) (first second : List SourceStateChange) :
    of sourceId (first ++ second) = of sourceId first ++ of sourceId second :=
  List.filter_append ..

theorem of_cons (sourceId : List Char) (change : SourceStateChange)
    (changes : List SourceStateChange) : of sourceId (change :: changes) =
      if change.sourceId = sourceId then change :: of sourceId changes else of sourceId changes := by
  simp [of, List.filter_cons]

@[simp] theorem of_nil (sourceId : List Char) : of sourceId [] = [] := rfl

theorem chains_concat {first last : SourceStateDiscriminant} {changes : List SourceStateChange} :
    Chains first (changes ++ [change]) last ↔
      Chains first changes change.oldState.discriminant ∧ change.newState.discriminant = last := by
  induction changes generalizing first with
  | nil => simp [Chains, eq_comm]
  | cons head changes ih => simp [Chains, ih, and_assoc]

/-- The ways a step can go. -/
inductive Step (s : Transitions) : Act → Transitions → Prop where
  | unknown (sourceId : List Char) (newState : SourceState) (now : Nat)
      (h : s.registry.get sourceId = none) : Step s (.store sourceId newState now) s
  | refresh (sourceId : List Char) (newState : SourceState) (now : Nat) (record : SourceRecord)
      (h : s.registry.get sourceId = some record)
      (hsame : record.state.discriminant = newState.discriminant) :
      Step s (.store sourceId newState now)
        { s with registry := s.registry.upsert { record with state := newState } }
  | change (sourceId : List Char) (newState : SourceState) (now : Nat) (record : SourceRecord)
      (lastSeen : Option Nat) (h : s.registry.get sourceId = some record)
      (hdiffer : record.state.discriminant ≠ newState.discriminant) :
      Step s (.store sourceId newState now)
        { s with
          registry := s.registry.upsert
            { record with state := newState, lastSeenOnlineAtMs := lastSeen }
          pending := s.pending ++ [⟨sourceId, record.state, newState, now⟩]
          history := s.history ++ [⟨sourceId, record.state, newState, now⟩] }
  | broadcast (before after : List SourceStateChange) (change : SourceStateChange)
      (h : s.pending = before ++ change :: after) :
      Step s (.broadcast before.length)
        { s with pending := before ++ after, channel := s.channel.send change }
  | receive (channel : Broadcast SourceStateChange)
      (h : s.channel.recv sourceStateBroadcastCapacity = some channel) :
      Step s .receive { s with channel }

theorem Step.of_step {s s' : Transitions} {act : Act} (h : s.step act = some s') :
    Step s act s' := by
  cases act with
  | store sourceId newState now =>
    cases hlookup : s.registry.get sourceId with
    | none =>
      simp only [step, SourceRegistry.transition, hlookup, Option.some.injEq] at h
      exact h ▸ .unknown sourceId newState now hlookup
    | some record =>
      by_cases hsame : record.state.discriminant = newState.discriminant
      · simp only [step, SourceRegistry.transition, hlookup, if_pos hsame, Option.some.injEq] at h
        exact h ▸ .refresh sourceId newState now record hlookup hsame
      · simp only [step, SourceRegistry.transition, hlookup, if_neg hsame, Option.some.injEq] at h
        exact h ▸ .change sourceId newState now record _ hlookup hsame
  | broadcast index =>
    simp only [step] at h
    split at h
    · cases h
    next change hget =>
      cases h
      obtain ⟨hlt, rfl⟩ := List.getElem?_eq_some_iff.mp hget
      have hsplit : s.pending =
          s.pending.take index ++ s.pending[index] :: s.pending.drop (index + 1) := by
        rw [List.getElem_cons_drop, List.take_append_drop]
      have hstep := Step.broadcast _ _ _ hsplit
      rwa [List.length_take_of_le (Nat.le_of_lt hlt), ← List.eraseIdx_eq_take_drop_succ] at hstep
  | receive =>
    simp only [step] at h
    split at h
    · cases h
    next channel hrecv =>
      cases h
      exact .receive channel hrecv

-- ---------------------------------------------------------------------------
-- What every run keeps
-- ---------------------------------------------------------------------------

/-- No change is lost, and the changes of a source lead from its first state to
the stored one. -/
structure Traced (registry : SourceRegistry) (s : Transitions) : Prop where
  perm : (s.channel.sent ++ s.pending).Perm s.history
  chain : ∀ sourceId record, registry.get sourceId = some record →
    ∃ stored, s.registry.get sourceId = some stored ∧
      Chains record.state.discriminant (of sourceId s.history) stored.state.discriminant
  faithful : s.channel.Faithful

theorem traced_start (registry : SourceRegistry) : Traced registry (start registry) :=
  ⟨.refl _, fun _ record h => ⟨record, h, rfl⟩, Broadcast.faithful_empty⟩

theorem Traced.step {registry : SourceRegistry} {s s' : Transitions} (h : Traced registry s)
    (hstep : Step s act s') :
    Traced registry s' := by
  cases hstep with
  | unknown => exact h
  | refresh sourceId newState now record hlookup hsame =>
    refine ⟨h.perm, fun id first hfirst => ?_, h.faithful⟩
    obtain ⟨stored, hstored, hchain⟩ := h.chain id first hfirst
    have hkey := SourceRegistry.get_id hlookup
    rw [SourceRegistry.get_upsert, hkey]
    by_cases hid : id = sourceId
    · subst hid
      cases hlookup.symm.trans hstored
      rw [if_pos rfl]
      exact ⟨_, rfl, hsame ▸ hchain⟩
    · rw [if_neg hid]
      exact ⟨stored, hstored, hchain⟩
  | change sourceId newState now record lastSeen hlookup hdiffer =>
    refine ⟨?_, fun id first hfirst => ?_, h.faithful⟩
    · rw [← List.append_assoc]
      exact h.perm.append_right _
    · obtain ⟨stored, hstored, hchain⟩ := h.chain id first hfirst
      have hkey := SourceRegistry.get_id hlookup
      rw [SourceRegistry.get_upsert, hkey]
      by_cases hid : id = sourceId
      · subst hid
        cases hlookup.symm.trans hstored
        rw [if_pos rfl]
        refine ⟨_, rfl, ?_⟩
        rw [of_append, of_cons, if_pos rfl, of_nil, chains_concat]
        exact ⟨hchain, rfl⟩
      · rw [if_neg hid]
        refine ⟨stored, hstored, ?_⟩
        rwa [of_append, of_cons, if_neg (Ne.symm hid), of_nil, List.append_nil]
  | broadcast before after change hpending =>
    refine ⟨.trans ?_ h.perm, h.chain, h.faithful.send change⟩
    have hmiddle : (change :: (before ++ after)).Perm (before ++ change :: after) :=
      List.perm_middle.symm
    rw [hpending, Broadcast.send_sent, List.append_assoc, List.singleton_append]
    exact hmiddle.append_left _
  | receive channel hrecv =>
    exact ⟨Broadcast.recv_sent hrecv ▸ h.perm, h.chain, h.faithful.recv hrecv⟩

/-- While the changes of a source are broadcast in turn, at most one is pending
and they leave in the order they were stored. -/
structure Ordered (sourceId : List Char) (s : Transitions) : Prop where
  single : (of sourceId s.pending).length ≤ 1
  order : of sourceId (s.channel.sent ++ s.pending) = of sourceId s.history

theorem Ordered.step {s s' : Transitions} (h : Ordered sourceId s) (hturn : InTurn sourceId s act)
    (hstep : Step s act s') : Ordered sourceId s' := by
  cases hstep with
  | unknown => exact h
  | refresh => exact ⟨h.single, h.order⟩
  | change id newState now record lastSeen hlookup hdiffer =>
    refine ⟨?_, ?_⟩
    · dsimp only
      rw [of_append, List.length_append]
      by_cases hid : id = sourceId
      · rw [hturn hid record hlookup hdiffer, List.length_nil, Nat.zero_add]
        exact List.length_filter_le _ _
      · rw [of_cons, if_neg hid]
        exact h.single
    · dsimp only
      rw [← List.append_assoc, of_append sourceId (_ ++ _), h.order, ← of_append]
  | broadcast before after change hpending =>
    have hsingle := h.single
    have horder := h.order
    rw [hpending] at hsingle horder
    simp only [of_append, of_cons] at hsingle horder
    refine ⟨?_, ?_⟩ <;> simp only [Broadcast.send_sent, of_append, of_cons, of_nil]
    · refine Nat.le_trans ?_ hsingle
      simp only [List.length_append]
      split <;> simp
    · rw [← horder]
      split at hsingle
      next hid =>
        -- The change is the only one of its source that was pending.
        rw [List.length_append, List.length_cons] at hsingle
        have hbefore : of sourceId before = [] := List.eq_nil_of_length_eq_zero (by omega)
        simp [hid, hbefore]
      next hid => simp [hid]
  | receive channel hrecv => exact ⟨h.single, Broadcast.recv_sent hrecv ▸ h.order⟩

/-- In every interleaving the changes of a source lead, by kind, from its first
state to the stored one, and those broadcast and those pending are all of them.
As long as its changes are broadcast in turn, a subscriber that has not lagged
has received the front of that chain, and all of it once nothing is left. -/
theorem source_changes_chain {registry : SourceRegistry} {acts : List Act} {s : Transitions}
    (hrun : Machine.exec step (start registry) acts = some s) {sourceId : List Char}
    {record : SourceRecord} (hrecord : registry.get sourceId = some record) :
    (s.channel.sent ++ s.pending).Perm s.history ∧
      ∃ stored, s.registry.get sourceId = some stored ∧
        Chains record.state.discriminant (of sourceId s.history) stored.state.discriminant ∧
        (Machine.Meets step (InTurn sourceId) (start registry) acts → s.channel.lagged = false →
          ∃ rest, of sourceId s.history = of sourceId s.channel.received ++ rest ∧
            (s.channel.unread = [] → s.pending = [] → rest = [])) := by
  have htraced : Traced registry s := Machine.exec_invariant_all
    (fun h hstep => h.step (.of_step hstep)) (traced_start registry) hrun
  obtain ⟨stored, hstored, hchain⟩ := htraced.chain sourceId record hrecord
  refine ⟨htraced.perm, stored, hstored, hchain, fun hturns hlag => ?_⟩
  have hordered : Ordered sourceId s := Machine.exec_invariant
    (fun h hturn hstep => h.step hturn (.of_step hstep)) ⟨Nat.zero_le _, rfl⟩ hturns hrun
  obtain ⟨hsent, -⟩ := htraced.faithful hlag
  refine ⟨of sourceId (s.channel.unread ++ s.pending), ?_, ?_⟩
  · rw [← hordered.order, hsent, List.append_assoc, of_append]
  · rintro hunread hpending
    rw [hunread, hpending]
    rfl

/-- One source that is online. -/
def usbOnline : SourceRegistry :=
  SourceRegistry.empty.upsert ⟨"usb".toList, UnixPath.components "/mnt/usb".toList, .online, none⟩

/-- The source slows down, gets another reason for it, and goes away. -/
def refreshedReason : List Act :=
  [.store "usb".toList (.degraded "slow" 1) 1, .broadcast 0, .receive,
    .store "usb".toList (.degraded "errors" 2) 2,
    .store "usb".toList (.offline "gone" 3) 3, .broadcast 0, .receive]

/-- Two calls broadcast in the other order. -/
def overtaken : List Act :=
  [.store "usb".toList (.offline "gone" 1) 1, .store "usb".toList .online 2, .broadcast 1,
    .broadcast 0, .receive, .receive]

/-- A refreshed reason breaks the chain of states, and so do two calls that
overtake each other between storing and broadcasting. Then the last change
received is not the stored state either. -/
theorem received_changes_break_chain :
    (Machine.exec step (start usbOnline) refreshedReason).any (fun s =>
        s.channel.received = [⟨"usb".toList, .online, .degraded "slow" 1, 1⟩,
          ⟨"usb".toList, .degraded "errors" 2, .offline "gone" 3, 3⟩]) ∧
      (Machine.exec step (start usbOnline) overtaken).any (fun s =>
        s.channel.received = [⟨"usb".toList, .offline "gone" 1, .online, 2⟩,
          ⟨"usb".toList, .online, .offline "gone" 1, 1⟩] ∧
        (s.registry.get "usb".toList).map SourceRecord.state = some .online) := by
  decide

theorem refreshed_reason_chains :
    ∃ s stored, Machine.exec step (start usbOnline) refreshedReason = some s ∧
      s.registry.get "usb".toList = some stored ∧
      Chains .online (of "usb".toList s.history) stored.state.discriminant ∧
      of "usb".toList s.history = of "usb".toList s.channel.received := by
  obtain ⟨s, hrun, hend⟩ := Machine.exec_of_any step (start usbOnline) refreshedReason
    (fun s => s.channel.lagged = false ∧ s.channel.unread = [] ∧ s.pending = []) (by decide)
  obtain ⟨hlag, hunread, hpending⟩ := of_decide_eq_true hend
  have hrecord : usbOnline.get "usb".toList =
      some ⟨"usb".toList, UnixPath.components "/mnt/usb".toList, .online, none⟩ := by decide
  obtain ⟨-, stored, hstored, hchain, hreceived⟩ := source_changes_chain hrun hrecord
  obtain ⟨rest, hrest, hdone⟩ := hreceived (by decide) hlag
  refine ⟨s, stored, hrun, hstored, hchain, ?_⟩
  rw [hrest, hdone hunread hpending, List.append_nil]

end Transitions

end EvoAudio.Playback
