import Mathlib.Logic.Function.Basic
import Mathlib.Data.Fintype.Basic
import EvoAudio.Lib.Machine
import EvoAudio.Lib.Text

/-!
# The role store

`set_role` and `clear_role` of `role_store.rs`, cut at their await points:
read the prior row, put or delete it, emit the happening, broadcast the
`RoleChange`. No lock is held across these steps, so a `World` holds any
number of calls, each in its own phase, over one shared store, together with
the subscriber that engages the role each broadcast names.

The parsing of role strings is the framework's; `RoleCodec` keeps what the
store relies on, that a role survives being written and read back.
-/

namespace EvoAudio.Multiroom

open Machine

inductive Role
  | source
  | receiver
  | auto
  deriving DecidableEq, Repr

/-- `Role::as_str` and `Role::from_str`. -/
structure RoleCodec where
  asStr : Role → String
  fromStr : String → Option Role
  fromStr_asStr : ∀ r, fromStr (asStr r) = some r

inductive RoleStoreError
  | invalidRole (text : String)
  | invalidDeviceId
  | persistence
  deriving DecidableEq, Repr

inductive RoleChange
  | set (deviceId : String) (priorRole : Option Role) (newRole : Role)
  | cleared (deviceId : String) (priorRole : Role)
  deriving DecidableEq, Repr

structure PersistedDeviceRole where
  deviceId : String
  role : String
  setAtMs : Nat
  setBy : Option String
  deriving DecidableEq, Repr

/-- The `DeviceRoleChanged` happening, without its wall-clock stamp. -/
structure DeviceRoleChanged where
  deviceId : String
  priorRole : Option String
  newRole : String
  setBy : Option String
  deriving DecidableEq, Repr

def validateDeviceId (s : String) : Except RoleStoreError String :=
  let trimmed := Text.trim s.toList
  if trimmed = [] then .error .invalidDeviceId else .ok (String.ofList trimmed)

/-- The persisted rows, keyed by device id, and what has been published. -/
structure RoleStore where
  rows : String → Option PersistedDeviceRole
  happenings : List DeviceRoleChanged
  sent : List RoleChange

def RoleStore.priorRole (codec : RoleCodec) (st : RoleStore) (id : String) : Option Role :=
  (st.rows id).bind fun row => codec.fromStr row.role

/-- `get_role` on a validated id: a missing or unreadable row is `Auto`. -/
def RoleStore.getRole (codec : RoleCodec) (st : RoleStore) (id : String) : Role :=
  (st.priorRole codec id).getD .auto

/-- The role `handle_role_event` engages for an event; `none` for an event
of another device. -/
def RoleChange.roleFor (localId : String) : RoleChange → Option Role
  | .set id _ newRole => if id = localId then some newRole else none
  | .cleared id _ => if id = localId then some .auto else none

-- ---------------------------------------------------------------------------
-- One call, step by step
-- ---------------------------------------------------------------------------

inductive Call
  | setRole (deviceId : String) (role : Role) (setBy : Option String)
  | clearRole (deviceId : String)
  deriving DecidableEq, Repr

def Call.deviceId : Call → String
  | .setRole id _ _ => id
  | .clearRole id => id

/-- The role the device has once the call is through. -/
def Call.target : Call → Role
  | .setRole _ role _ => role
  | .clearRole _ => .auto

/-- Where a call stands; `id` is the validated device id. -/
inductive Phase
  | start
  | read (id : String) (prior : Option Role)
  | wrote (id : String) (prior : Option Role)
  | emitted (id : String) (prior : Option Role)
  | returned (result : Except RoleStoreError Unit)

/-- The call has changed the row of `id` and not yet broadcast the change. -/
def Phase.unsettled (id : String) : Phase → Bool
  | .wrote id' _ | .emitted id' _ => id' = id
  | _ => false

/-- Nothing to change: the row is at the target already. -/
def Call.isNoop : Call → Option Role → Bool
  | .setRole _ role _, prior => prior = some role
  | .clearRole _, prior => prior = none

/-- The row a call leaves behind. -/
def Call.row (codec : RoleCodec) (id : String) (nowMs : Nat) : Call → Option PersistedDeviceRole
  | .setRole _ role setBy =>
    some { deviceId := id, role := codec.asStr role, setAtMs := nowMs, setBy := setBy }
  | .clearRole _ => none

def Call.happening (codec : RoleCodec) (id : String) (prior : Option Role) :
    Call → DeviceRoleChanged
  | .setRole _ role setBy =>
    { deviceId := id, priorRole := prior.map codec.asStr, newRole := codec.asStr role,
      setBy := setBy }
  | .clearRole _ =>
    { deviceId := id, priorRole := prior.map codec.asStr, newRole := codec.asStr .auto,
      setBy := none }

/-- `clear_role` only gets here with a prior role; `Auto` is never read. -/
def Call.event (id : String) (prior : Option Role) : Call → RoleChange
  | .setRole _ role _ => .set id prior role
  | .clearRole _ => .cleared id (prior.getD .auto)

/-- The next step of a call. `fault` makes a persistence access of this step
fail, which leaves the rows as they are and ends the call. A failed emit is
only logged, so the emit step does not look at it. -/
def Call.step (codec : RoleCodec) (call : Call) (st : RoleStore) (nowMs : Nat) (fault : Bool) :
    Phase → Option (RoleStore × Phase)
  | .start =>
    match validateDeviceId call.deviceId with
    | .error e => some (st, .returned (.error e))
    | .ok id =>
      if fault then some (st, .returned (.error .persistence))
      else if call.isNoop (st.priorRole codec id) then some (st, .returned (.ok ()))
      else some (st, .read id (st.priorRole codec id))
  | .read id prior =>
    if fault then some (st, .returned (.error .persistence))
    else
      some ({ st with rows := Function.update st.rows id (call.row codec id nowMs) },
        .wrote id prior)
  | .wrote id prior =>
    let happenings := if fault then st.happenings else st.happenings ++ [call.happening codec id prior]
    some ({ st with happenings := happenings }, .emitted id prior)
  | .emitted id prior =>
    some ({ st with sent := st.sent ++ [call.event id prior] }, .returned (.ok ()))
  | .returned _ => none

/-- Everything a step of a call can do: leave rows and channel alone, write
the row, or broadcast. -/
theorem Call.step_cases (h : Call.step codec call st nowMs fault ph = some (st', ph')) :
    (st'.rows = st.rows ∧ st'.sent = st.sent ∧ ∀ id, ph'.unsettled id = ph.unsettled id) ∨
    (∃ id prior, ph = .read id prior ∧ ph' = .wrote id prior ∧ st'.sent = st.sent ∧
      st'.rows = Function.update st.rows id (call.row codec id nowMs)) ∨
    (∃ id prior, ph = .emitted id prior ∧ ph' = .returned (.ok ()) ∧ st'.rows = st.rows ∧
      st'.sent = st.sent ++ [call.event id prior]) := by
  cases ph with
  | start =>
    left
    simp only [Call.step] at h
    split at h
    · cases h; exact ⟨rfl, rfl, fun _ => rfl⟩
    · split at h
      · cases h; exact ⟨rfl, rfl, fun _ => rfl⟩
      · split at h <;> cases h <;> exact ⟨rfl, rfl, fun _ => rfl⟩
  | read id prior =>
    simp only [Call.step] at h
    split at h
    · cases h; exact .inl ⟨rfl, rfl, fun _ => rfl⟩
    · cases h; exact .inr (.inl ⟨id, prior, rfl, rfl, rfl, rfl⟩)
  | wrote id prior =>
    simp only [Call.step] at h
    cases h; exact .inl ⟨rfl, rfl, fun _ => rfl⟩
  | emitted id prior =>
    simp only [Call.step] at h
    cases h; exact .inr (.inr ⟨id, prior, rfl, rfl, rfl, rfl⟩)
  | returned r => simp [Call.step] at h

theorem Call.event_roleFor (call : Call) {id : String} :
    (call.event id prior).roleFor dev = if id = dev then some call.target else none := by
  cases call <;> simp [Call.event, RoleChange.roleFor, Call.target]

theorem RoleStore.getRole_congr (h : st'.rows = st.rows) :
    RoleStore.getRole codec st' dev = RoleStore.getRole codec st dev := by
  simp [RoleStore.getRole, RoleStore.priorRole, h]

/-- Reading back what a call wrote. -/
theorem RoleStore.getRole_write (call : Call) {st st' : RoleStore} {id : String}
    (h : st'.rows = Function.update st.rows id (call.row codec id nowMs)) :
    RoleStore.getRole codec st' dev =
      if dev = id then call.target else RoleStore.getRole codec st dev := by
  unfold RoleStore.getRole RoleStore.priorRole
  rw [h]
  by_cases hd : dev = id
  · subst hd
    cases call <;> simp [Call.row, Call.target, codec.fromStr_asStr]
  · simp [hd]

-- ---------------------------------------------------------------------------
-- Concurrent calls and the subscriber
-- ---------------------------------------------------------------------------

/-- Any number of calls over one store, and the subscriber of one device: the
events it has yet to handle and the role it engaged last. -/
structure World (ι : Type) where
  store : RoleStore
  phase : ι → Phase
  inbox : List RoleChange
  engaged : Role

inductive Act (ι : Type)
  | advance (i : ι) (nowMs : Nat) (fault : Bool)
  | handle

variable {ι : Type} [DecidableEq ι]

def World.step (codec : RoleCodec) (calls : ι → Call) (localId : String) (w : World ι) :
    Act ι → Option (World ι)
  | .advance i nowMs fault =>
    match (calls i).step codec w.store nowMs fault (w.phase i) with
    | some (st, ph) =>
      some { w with
        store := st
        phase := Function.update w.phase i ph
        inbox := w.inbox ++ st.sent.drop w.store.sent.length }
    | none => none
  | .handle =>
    match w.inbox with
    | [] => none
    | e :: rest => some { w with inbox := rest, engaged := (e.roleFor localId).getD w.engaged }

/-- No call has begun, and the subscriber stands at the persisted role. -/
structure World.Fresh (codec : RoleCodec) (dev : String) (w : World ι) : Prop where
  start : ∀ i, w.phase i = .start
  inbox : w.inbox = []
  engaged : w.engaged = w.store.getRole codec dev
  sent : w.store.sent = []

def Phase.isReturned : Phase → Bool
  | .returned _ => true
  | _ => false

/-- All calls have returned and every broadcast has been handled. -/
def World.Quiet (w : World ι) : Prop := (∀ i, (w.phase i).isReturned) ∧ w.inbox = []

instance [Fintype ι] (w : World ι) : Decidable w.Quiet :=
  inferInstanceAs (Decidable ((∀ i, (w.phase i).isReturned) ∧ w.inbox = []))

/-- The row a call is about to change. -/
def Phase.aboutToWrite : Phase → Option String
  | .read id _ => some id
  | _ => none

/-- A call changes a row only while no other call has changed that row
without having broadcast its change. -/
def World.WritesApart (w : World ι) : Act ι → Prop
  | .advance i _ _ => ∀ id ∈ (w.phase i).aboutToWrite, ∀ j, (w.phase j).unsettled id = false
  | .handle => True

instance [Fintype ι] (w : World ι) : (a : Act ι) → Decidable (w.WritesApart a)
  | .advance i _ _ => inferInstanceAs
      (Decidable (∀ id ∈ (w.phase i).aboutToWrite, ∀ j, (w.phase j).unsettled id = false))
  | .handle => .isTrue trivial

/-- The last role broadcast for a device, if any. -/
def lastNewRole (dev : String) (events : List RoleChange) : Option Role :=
  (events.filterMap (·.roleFor dev)).getLast?

theorem lastNewRole_concat :
    lastNewRole dev (events ++ [e]) = (e.roleFor dev).or (lastNewRole dev events) := by
  cases h : e.roleFor dev <;> simp [lastNewRole, List.filterMap_append, h]

theorem lastNewRole_cons :
    (lastNewRole dev (e :: events)).getD r =
      (lastNewRole dev events).getD ((e.roleFor dev).getD r) := by
  cases h : e.roleFor dev with
  | none => simp [lastNewRole, h]
  | some r' => simp [lastNewRole, h, List.getLast?_cons]

/-- What links store, channel and subscriber at every point of a run whose
writes stay apart. `base` is the role persisted before the first call. -/
structure World.Linked (codec : RoleCodec) (calls : ι → Call) (dev : String) (base : Role)
    (w : World ι) : Prop where
  /-- Handling the inbox takes the subscriber to the last broadcast role. -/
  inbox : (lastNewRole dev w.inbox).getD w.engaged = (lastNewRole dev w.store.sent).getD base
  /-- A call between its write and its broadcast is alone, and the store is at
  the role it will broadcast. -/
  window : ∀ i, (w.phase i).unsettled dev →
    w.store.getRole codec dev = (calls i).target ∧ ∀ j, (w.phase j).unsettled dev → j = i
  /-- With no such call the last broadcast is what is persisted. -/
  settled : (∀ i, (w.phase i).unsettled dev = false) →
    (lastNewRole dev w.store.sent).getD base = w.store.getRole codec dev

omit [DecidableEq ι] in
theorem World.Fresh.linked {w : World ι} (h : w.Fresh codec dev) :
    w.Linked codec calls dev (w.store.getRole codec dev) where
  inbox := by simp [h.inbox, h.sent, h.engaged, lastNewRole]
  window := by intro i hi; simp [h.start, Phase.unsettled] at hi
  settled := by simp [h.sent, lastNewRole]

theorem unsettled_update {phase : ι → Phase} {dev : String} :
    (Function.update phase i ph j).unsettled dev =
      if j = i then ph.unsettled dev else (phase j).unsettled dev := by
  by_cases hj : j = i <;> simp [hj]

omit [DecidableEq ι] in
/-- A step that neither writes nor broadcasts. -/
theorem World.Linked.quiet {w w' : World ι} (h : w.Linked codec calls dev base)
    (hrows : w'.store.rows = w.store.rows) (hsent : w'.store.sent = w.store.sent)
    (hin : (lastNewRole dev w'.inbox).getD w'.engaged = (lastNewRole dev w.inbox).getD w.engaged)
    (hun : ∀ j, (w'.phase j).unsettled dev = (w.phase j).unsettled dev) :
    w'.Linked codec calls dev base where
  inbox := by rw [hin, hsent]; exact h.inbox
  window := by
    intro i hi
    simp only [hun, RoleStore.getRole_congr hrows] at hi ⊢
    exact h.window i hi
  settled := by
    intro hnone
    simp only [hun] at hnone
    rw [hsent, RoleStore.getRole_congr hrows]
    exact h.settled hnone

/-- A write into a window nobody else stands in. -/
theorem World.Linked.write {w w' : World ι} {id : String} (h : w.Linked codec calls dev base)
    (hr : w.phase i = .read id prior) (halone : ∀ j, (w.phase j).unsettled id = false)
    (hphase : w'.phase = Function.update w.phase i (.wrote id prior))
    (hrows : w'.store.rows = Function.update w.store.rows id ((calls i).row codec id nowMs))
    (hsent : w'.store.sent = w.store.sent) (hin : w'.inbox = w.inbox)
    (heng : w'.engaged = w.engaged) : w'.Linked codec calls dev base := by
  have hun : ∀ j, (w'.phase j).unsettled dev =
      if j = i then decide (id = dev) else (w.phase j).unsettled dev := by
    intro j
    rw [hphase, unsettled_update]
    rfl
  refine ⟨by rw [hin, heng, hsent]; exact h.inbox, ?_, ?_⟩
  · intro j hj
    rw [RoleStore.getRole_write _ hrows]
    by_cases hid : id = dev
    · subst hid
      -- every other call is outside the window of this row
      have honly : ∀ k, (w'.phase k).unsettled id → k = i := by
        intro k hk
        by_contra hki
        simp [hun, hki, halone k] at hk
      obtain rfl := honly j hj
      exact ⟨by simp, honly⟩
    · have hback : ∀ k, (w'.phase k).unsettled dev → (w.phase k).unsettled dev := by
        intro k hk
        by_cases hki : k = i
        · simp [hun, hki, hid] at hk
        · simpa [hun, hki] using hk
      obtain ⟨hrole, huniq⟩ := h.window j (hback j hj)
      exact ⟨by simp [Ne.symm hid, hrole], fun k hk => huniq k (hback k hk)⟩
  · intro hnone
    have hid : id ≠ dev := by simpa [hun] using hnone i
    have hbefore : ∀ j, (w.phase j).unsettled dev = false := by
      intro j
      by_cases hji : j = i
      · subst hji; simp [hr, Phase.unsettled]
      · simpa [hun, hji] using hnone j
    rw [hsent, RoleStore.getRole_write _ hrows, if_neg (Ne.symm hid)]
    exact h.settled hbefore

/-- The broadcast that closes a window. -/
theorem World.Linked.broadcast {w w' : World ι} {id : String}
    (h : w.Linked codec calls dev base) (he : w.phase i = .emitted id prior)
    (hphase : w'.phase = Function.update w.phase i (.returned r))
    (hrows : w'.store.rows = w.store.rows)
    (hsent : w'.store.sent = w.store.sent ++ [(calls i).event id prior])
    (hin : w'.inbox = w.inbox ++ [(calls i).event id prior])
    (heng : w'.engaged = w.engaged) : w'.Linked codec calls dev base := by
  have hun : ∀ j, (w'.phase j).unsettled dev =
      if j = i then false else (w.phase j).unsettled dev := by
    intro j
    rw [hphase, unsettled_update]
    rfl
  refine ⟨?_, ?_, ?_⟩
  · rw [hin, hsent, heng, lastNewRole_concat, lastNewRole_concat]
    cases ((calls i).event id prior).roleFor dev with
    | none => simpa using h.inbox
    | some r => simp
  · intro j hj
    have hback : ∀ k, (w'.phase k).unsettled dev → (w.phase k).unsettled dev := by
      intro k hk
      by_cases hki : k = i
      · simp [hun, hki] at hk
      · simpa [hun, hki] using hk
    rw [RoleStore.getRole_congr hrows]
    obtain ⟨hrole, huniq⟩ := h.window j (hback j hj)
    exact ⟨hrole, fun k hk => huniq k (hback k hk)⟩
  · intro hnone
    rw [hsent, lastNewRole_concat, Call.event_roleFor, RoleStore.getRole_congr hrows]
    by_cases hid : id = dev
    · subst hid
      have hi := h.window i (by simp [he, Phase.unsettled])
      simp [hi.1]
    · have hbefore : ∀ j, (w.phase j).unsettled dev = false := by
        intro j
        by_cases hji : j = i
        · subst hji; simp [he, Phase.unsettled, hid]
        · simpa [hun, hji] using hnone j
      simpa [hid] using h.settled hbefore

/-- One step keeps the link, given that the writes stay apart. -/
theorem World.Linked.step {w w' : World ι} (h : w.Linked codec calls dev base)
    (hok : w.WritesApart a) (hs : w.step codec calls dev a = some w') :
    w'.Linked codec calls dev base := by
  cases a with
  | handle =>
    simp only [World.step] at hs
    split at hs
    · cases hs
    · rename_i e rest hin
      cases hs
      exact h.quiet rfl rfl (by rw [hin, lastNewRole_cons]) fun _ => rfl
  | advance i nowMs fault =>
    simp only [World.step] at hs
    split at hs
    · rename_i st ph hc
      cases hs
      rcases Call.step_cases hc with ⟨hrows, hsent, hun⟩ | ⟨id, prior, hr, rfl, hsent, hrows⟩ |
          ⟨id, prior, he, rfl, hrows, hsent⟩
      · refine h.quiet hrows hsent (by simp [hsent]) fun j => ?_
        by_cases hj : j = i <;> simp [hj, hun]
      · have halone := hok id (by simp [hr, Phase.aboutToWrite])
        exact h.write hr halone rfl hrows hsent (by simp [hsent]) rfl
      · exact h.broadcast he rfl hrows hsent (by simp [hsent]) rfl
    · cases hs

/-- In every run whose writes stay apart, once all calls have returned and
all broadcasts are handled, the last broadcast role and the engaged role are
the persisted one. -/
theorem engaged_eq_persisted_of_writesApart (codec : RoleCodec) (calls : ι → Call) (dev : String)
    {w w' : World ι} {acts : List (Act ι)} (hfresh : w.Fresh codec dev)
    (hapart : Meets (World.step codec calls dev) World.WritesApart w acts)
    (hrun : exec (World.step codec calls dev) w acts = some w') (hquiet : w'.Quiet) :
    (∀ r, lastNewRole dev w'.store.sent = some r → r = w'.store.getRole codec dev) ∧
      w'.engaged = w'.store.getRole codec dev := by
  have h : w'.Linked codec calls dev (w.store.getRole codec dev) :=
    exec_invariant (fun h => h.step) hfresh.linked hapart hrun
  have hnone : ∀ i, (w'.phase i).unsettled dev = false := by
    intro i
    have hi := hquiet.1 i
    cases hp : w'.phase i <;> simp_all [Phase.isReturned, Phase.unsettled]
  have hsettled := h.settled hnone
  constructor
  · intro r hr
    simpa [hr] using hsettled
  · have hin := h.inbox
    simp only [hquiet.2, lastNewRole, List.filterMap_nil, List.getLast?_nil, Option.getD_none] at hin
    exact hin.trans hsettled

/-- The three role names of the wire format. -/
def plainCodec : RoleCodec where
  asStr
    | .source => "source"
    | .receiver => "receiver"
    | .auto => "auto"
  fromStr s :=
    if s = "source" then some .source
    else if s = "receiver" then some .receiver
    else if s = "auto" then some .auto
    else none
  fromStr_asStr := by intro r; cases r <;> rfl

/-- Two operators gesture at the same device. -/
def twoGestures : Fin 2 → Call
  | 0 => .setRole "dev-a" .source (some "cli")
  | 1 => .setRole "dev-a" .receiver (some "ui")

/-- An empty store with every call yet to begin. -/
def World.boot : World (Fin 2) :=
  { store := { rows := fun _ => none, happenings := [], sent := [] }
    phase := fun _ => .start
    inbox := []
    engaged := .auto }

theorem World.boot_fresh : World.boot.Fresh plainCodec "dev-a" :=
  ⟨fun _ => rfl, rfl, rfl, rfl⟩

/-- The second gesture overtakes the first between its put and its
broadcast: the row says receiver, the last broadcast says source. -/
def overtaken : List (Act (Fin 2)) :=
  [.advance 0 1 false, .advance 1 2 false, .advance 0 3 false, .advance 1 4 false,
   .advance 1 5 false, .advance 1 6 false, .advance 0 7 false, .advance 0 8 false,
   .handle, .handle]

theorem engaged_ne_persisted_overtaken :
    ¬ ∀ (codec : RoleCodec) (calls : Fin 2 → Call) (dev : String) (w w' : World (Fin 2))
      (acts : List (Act (Fin 2))), w.Fresh codec dev →
      exec (World.step codec calls dev) w acts = some w' → w'.Quiet →
      w'.engaged = w'.store.getRole codec dev := by
  intro h
  obtain ⟨w', hrun, hw⟩ := exec_of_any (World.step plainCodec twoGestures "dev-a") World.boot
    overtaken (fun w => w.Quiet ∧ w.engaged ≠ w.store.getRole plainCodec "dev-a") (by decide)
  obtain ⟨hquiet, hne⟩ := of_decide_eq_true hw
  exact hne (h _ _ _ _ _ _ World.boot_fresh hrun hquiet)

/-- One gesture after the other. -/
def inTurn : List (Act (Fin 2)) :=
  [.advance 0 1 false, .advance 0 2 false, .advance 0 3 false, .advance 0 4 false, .handle,
   .advance 1 5 false, .advance 1 6 false, .advance 1 7 false, .advance 1 8 false, .handle]

theorem engaged_eq_persisted_inTurn :
    ∃ w', exec (World.step plainCodec twoGestures "dev-a") World.boot inTurn = some w' ∧
      w'.engaged = .receiver ∧ w'.engaged = w'.store.getRole plainCodec "dev-a" := by
  obtain ⟨w', hrun, hw⟩ := exec_of_any (World.step plainCodec twoGestures "dev-a") World.boot
    inTurn (fun w => w.Quiet ∧ w.engaged = .receiver) (by decide)
  obtain ⟨hquiet, heng⟩ := of_decide_eq_true hw
  exact ⟨w', hrun, heng, (engaged_eq_persisted_of_writesApart plainCodec twoGestures "dev-a"
    World.boot_fresh (by decide) hrun hquiet).2⟩

end EvoAudio.Multiroom
