import EvoAudio.Lib.Machine
import EvoAudio.Lib.Table
import Mathlib.Algebra.Group.Int.Defs
import Mathlib.Algebra.Group.Nat.Defs
import Mathlib.Data.List.Perm.Basic

/-!
# Sync probes of the audio plane

The housekeeping loop sends a `SyncProbe` for every group whose source host is
a connected peer and then, having released the lock and listed the elections
again, records the probes as pending. The read loops handle each `SyncResponse`
by taking the pending probe out and recording a clock sample when the response
echoes its `t1`. All of them run concurrently with each other and with changes
of the elections and the connections.
-/

namespace EvoAudio.Multiroom.SyncProbes

open Machine

/-- The peer and the group of a probe. -/
abbrev Key := String × String

abbrev Elections := List (String × Option String)

structure PendingProbe where
  t1Ms : Nat
  sentAtMs : Nat
  deriving DecidableEq, Repr

structure SyncSample where
  groupId : String
  peerId : String
  offsetMs : Int
  uncertaintyMs : Nat
  atMs : Nat
  deriving DecidableEq, Repr

/-- `t as i64` -/
def asI64 (t : Int) : Int := t.bmod (2 ^ 64)

/-- The sample of a response that echoes its probe. -/
def syncSample (key : Key) (pending : PendingProbe) (t2Ms t4Ms : Nat) : SyncSample :=
  let rtt := t4Ms - pending.sentAtMs
  let halfRtt := asI64 (rtt / 2 : Nat)
  { groupId := key.2
    peerId := key.1
    offsetMs := asI64 (asI64 t2Ms - asI64 (asI64 pending.t1Ms + halfRtt))
    uncertaintyMs := (halfRtt % 2 ^ 32).toNat
    atMs := t4Ms }

/-- The probes of a pass: one for each group whose source host is remote and
connected. -/
def targets (localId : String) (connected : List String) (elections : Elections) : List Key :=
  elections.filterMap fun (groupId, hostOpt) =>
    match hostOpt with
    | none => none
    | some host => if host = localId ∨ host ∉ connected then none else some (host, groupId)

/-- Where a pass of `send_sync_probes` stands, with the probes it has sent. -/
inductive Pass
  | idle
  | listed (now : Nat) (elections : Elections)
  | sent (now : Nat) (probes : List Key)
  | relisted (now : Nat) (probes : List Key) (elections : Elections)
  deriving DecidableEq, Repr

/-- Sent and not recorded as pending yet. -/
def Pass.probes : Pass → List Key
  | .sent _ probes | .relisted _ probes _ => probes
  | _ => []

/-- The elections as listed last. -/
def Pass.elections : Pass → Elections
  | .listed _ elections | .relisted _ _ elections => elections
  | _ => []

/-- The probe sent last for a key, and whether a response to it was handled. -/
structure LastProbe where
  t1Ms : Nat
  answered : Bool
  deriving DecidableEq, Repr

/-- `last` and `handled` are history: `handled` says of every response so far
whether it echoed the probe last sent for its key. Samples carry the number of
the response they come from. -/
structure State where
  localId : String
  connected : List String
  elections : Elections
  pass : Pass
  pending : AList fun _ : Key => PendingProbe
  recording : List (Nat × SyncSample)
  samples : List (Nat × SyncSample)
  last : AList fun _ : Key => LastProbe
  handled : List Bool
  deriving DecidableEq

def State.init (localId : String) (connected : List String) (elections : Elections) : State :=
  ⟨localId, connected, elections, .idle, ∅, [], [], ∅, []⟩

inductive Act
  | list (now : Nat)
  | send
  | relist
  | record
  | response (key : Key) (t1Ms t2Ms t4Ms : Nat)
  | sample (index : Nat)
  | connect (peer : String)
  | disconnect (peer : String)
  | elect (elections : Elections)
  deriving DecidableEq, Repr

def insertAll {ν : Type} (value : ν) (keys : List Key) (table : AList fun _ : Key => ν) :
    AList fun _ : Key => ν :=
  keys.foldl (fun table key => table.insert key value) table

/-- The response echoes the probe sent last. -/
def State.echoes (s : State) (key : Key) (t1Ms : Nat) : Bool :=
  (s.last.lookup key).any fun probe => probe.t1Ms == t1Ms

/-- `handle_sync_response` up to the sample it goes on to record. -/
def State.takePending (s : State) (key : Key) (t1Ms t2Ms t4Ms : Nat) : State :=
  let taken := { s with pending := s.pending.erase key }
  match s.pending.lookup key with
  | none => taken
  | some pending =>
    if pending.t1Ms ≠ t1Ms then taken
    else
      let sample := syncSample key pending t2Ms t4Ms
      { taken with recording := s.recording ++ [(s.handled.length, sample)] }

def State.answer (s : State) (key : Key) (t1Ms : Nat) : State :=
  { s with
    last := if s.echoes key t1Ms then s.last.insert key ⟨t1Ms, true⟩ else s.last
    handled := s.handled ++ [s.echoes key t1Ms] }

def State.step (s : State) : Act → Option State
  | .list now =>
    match s.pass with
    | .idle => some { s with pass := .listed now s.elections }
    | _ => none
  | .send =>
    match s.pass with
    | .listed now elections =>
      let probes := targets s.localId s.connected elections
      some { s with pass := .sent now probes, last := insertAll ⟨now, false⟩ probes s.last }
    | _ => none
  | .relist =>
    match s.pass with
    | .sent now probes => some { s with pass := .relisted now probes s.elections }
    | _ => none
  | .record =>
    match s.pass with
    | .relisted now _ elections =>
      let probes := targets s.localId s.connected elections
      some { s with pass := .idle, pending := insertAll ⟨now, now⟩ probes s.pending }
    | _ => none
  | .response key t1Ms t2Ms t4Ms => some ((s.takePending key t1Ms t2Ms t4Ms).answer key t1Ms)
  | .sample index =>
    match s.recording[index]? with
    | some sample =>
      some { s with recording := s.recording.eraseIdx index, samples := s.samples ++ [sample] }
    | none => none
  | .connect peer => some { s with connected := peer :: s.connected }
  | .disconnect peer => some { s with connected := s.connected.filter (· ≠ peer) }
  | .elect elections => some { s with elections }

/-- Every response that echoed the probe last sent has its one sample. -/
def State.Complete (s : State) : Prop :=
  ∀ i, s.handled[i]? = some true → (s.recording ++ s.samples).countP (·.1 == i) = 1

-- ---------------------------------------------------------------------------
-- Runs that lose no sample
-- ---------------------------------------------------------------------------

/-- No response to the probe last sent for the key is outstanding. -/
def State.settled (s : State) (key : Key) : Bool :=
  (s.last.lookup key).all (·.answered)

/-- A response to the probe last sent is the first one to it and comes after the
probe is recorded, one to an older probe comes outside the time from the
recording to the response, and the second listing has the probes of the first
and otherwise only keys with nothing outstanding. -/
def Orderly (s : State) : Act → Prop
  | .response key t1Ms _ _ =>
    if s.echoes key t1Ms then s.settled key = false ∧ key ∉ s.pass.probes
    else s.settled key = true ∨ key ∈ s.pass.probes
  | .record =>
    (∀ key ∈ s.pass.probes, key ∈ targets s.localId s.connected s.pass.elections) ∧
      ∀ key ∈ targets s.localId s.connected s.pass.elections,
        key ∉ s.pass.probes → s.settled key = true
  | _ => True

instance (s : State) : DecidablePred (Orderly s)
  | .response key t1Ms _ _ => inferInstanceAs (Decidable (if s.echoes key t1Ms then
      s.settled key = false ∧ key ∉ s.pass.probes else s.settled key = true ∨ key ∈ s.pass.probes))
  | .record => inferInstanceAs (Decidable
      ((∀ key ∈ s.pass.probes, key ∈ targets s.localId s.connected s.pass.elections) ∧
        ∀ key ∈ targets s.localId s.connected s.pass.elections,
          key ∉ s.pass.probes → s.settled key = true))
  | .list _ | .send | .relist | .sample _ | .connect _ | .disconnect _ | .elect _ => .isTrue trivial

theorem lookup_insertAll {ν : Type} (value : ν) (keys : List Key) (table : AList fun _ : Key => ν)
    (key : Key) : (insertAll value keys table).lookup key =
      if key ∈ keys then some value else table.lookup key := by
  induction keys generalizing table with
  | nil => rfl
  | cons first keys ih =>
    change (insertAll value keys (table.insert first value)).lookup key = _
    rw [ih, Table.lookup_insert_ite]
    by_cases hrest : key ∈ keys
    · simp [hrest]
    · by_cases hfirst : key = first <;> simp [hrest, hfirst]

/-- The probe last sent for a key is pending until it is answered, except while
it waits to be recorded. -/
structure Awaiting (s : State) : Prop where
  pending : ∀ key probe, s.last.lookup key = some probe → probe.answered = false →
    key ∉ s.pass.probes → s.pending.lookup key = some ⟨probe.t1Ms, probe.t1Ms⟩
  sent : ∀ now probes,
    (s.pass = .sent now probes ∨ ∃ elections, s.pass = .relisted now probes elections) →
    ∀ key ∈ probes, ∃ answered, s.last.lookup key = some ⟨now, answered⟩
  numbered : ∀ sample ∈ s.recording ++ s.samples, sample.1 < s.handled.length
  complete : s.Complete

theorem awaiting_init (localId : String) (connected : List String) (elections : Elections) :
    Awaiting (.init localId connected elections) where
  pending key probe h := by cases h
  sent now probes h := by
    rcases h with h | ⟨_, h⟩ <;> cases h
  numbered := by simp [State.init]
  complete i h := by simp [State.init] at h

namespace Awaiting

variable {s : State}

theorem send (h : Awaiting s) (hpass : s.pass = .listed now elections) :
    Awaiting { s with
      pass := .sent now (targets s.localId s.connected elections)
      last := insertAll ⟨now, false⟩ (targets s.localId s.connected elections) s.last } where
  pending key probe hlast hanswered hsent := by
    dsimp only [Pass.probes] at hlast hsent ⊢
    rw [lookup_insertAll, if_neg hsent] at hlast
    exact h.pending key probe hlast hanswered (by simp [hpass, Pass.probes])
  sent now' probes hpass' key hkey := by
    rcases hpass' with hpass' | ⟨_, hpass'⟩ <;> cases hpass'
    refine ⟨false, ?_⟩
    dsimp only
    rw [lookup_insertAll, if_pos hkey]
  numbered := h.numbered
  complete := h.complete

theorem record (h : Awaiting s) (hpass : s.pass = .relisted now probes elections)
    (horderly : Orderly s .record) :
    Awaiting { s with
      pass := .idle
      pending := insertAll ⟨now, now⟩ (targets s.localId s.connected elections) s.pending } where
  pending key probe hlast hanswered _ := by
    simp only [Orderly, hpass, Pass.probes, Pass.elections] at horderly
    dsimp only at hlast ⊢
    rw [lookup_insertAll]
    by_cases hprobe : key ∈ probes
    · obtain ⟨answered, hsent⟩ := h.sent now probes (.inr ⟨elections, hpass⟩) key hprobe
      cases hlast.symm.trans hsent
      rw [if_pos (horderly.1 key hprobe)]
    · have hnot : key ∉ targets s.localId s.connected elections := by
        intro hkey
        have hsettled := horderly.2 key hkey hprobe
        simp [State.settled, hlast, hanswered] at hsettled
      rw [if_neg hnot]
      exact h.pending key probe hlast hanswered (by simpa [hpass, Pass.probes] using hprobe)
  sent now' probes hpass' := by
    rcases hpass' with hpass' | ⟨_, hpass'⟩ <;> cases hpass'
  numbered := h.numbered
  complete := h.complete

/-- An echo of the probe last sent finds it pending. -/
theorem takePending_echo (h : Awaiting s) (hecho : s.echoes key t1Ms = true)
    (hopen : s.settled key = false) (hrecorded : key ∉ s.pass.probes) (t2Ms t4Ms : Nat) :
    s.takePending key t1Ms t2Ms t4Ms = { s with
      pending := s.pending.erase key
      recording := s.recording ++
        [(s.handled.length, syncSample key ⟨t1Ms, t1Ms⟩ t2Ms t4Ms)] } := by
  cases hlast : s.last.lookup key with
  | none => simp [State.echoes, hlast] at hecho
  | some probe =>
    simp only [State.echoes, hlast, Option.any_some, beq_iff_eq] at hecho
    simp only [State.settled, hlast, Option.all_some] at hopen
    have hpending := h.pending key probe hlast hopen hrecorded
    simp [State.takePending, hpending, hecho]

/-- Any other response leaves the samples alone, or adds one of its own. -/
theorem takePending_recording (s : State) (key : Key) (t1Ms t2Ms t4Ms : Nat) :
    ∃ own : List (Nat × SyncSample), (∀ sample ∈ own, sample.1 = s.handled.length) ∧
      s.takePending key t1Ms t2Ms t4Ms =
        { s with pending := s.pending.erase key, recording := s.recording ++ own } := by
  unfold State.takePending
  dsimp only
  split
  · exact ⟨[], by simp, by simp⟩
  · split
    · exact ⟨[], by simp, by simp⟩
    · exact ⟨[(s.handled.length, _)], by simp, rfl⟩

/-- The numbers of a response's own samples are its number. -/
theorem countP_own {own : List (Nat × SyncSample)} (hown : ∀ sample ∈ own, sample.1 = n) (i : Nat) :
    own.countP (·.1 == i) = if i = n then own.length else 0 := by
  split
  next heq =>
    rw [List.countP_eq_length]
    intro sample hsample
    simp [hown sample hsample, heq]
  next hne =>
    rw [List.countP_eq_zero]
    intro sample hsample
    simpa [hown sample hsample] using Ne.symm hne

theorem response_complete (h : Awaiting s) (horderly : Orderly s (.response key t1Ms t2Ms t4Ms))
    {own : List (Nat × SyncSample)} (hown : ∀ sample ∈ own, sample.1 = s.handled.length)
    (htake : s.takePending key t1Ms t2Ms t4Ms =
      { s with pending := s.pending.erase key, recording := s.recording ++ own })
    (hi : (s.handled ++ [s.echoes key t1Ms])[i]? = some true) :
    (s.recording ++ own ++ s.samples).countP (·.1 == i) = 1 := by
  have hsplit : (s.recording ++ own ++ s.samples).countP (·.1 == i) =
      (s.recording ++ s.samples).countP (·.1 == i) + own.countP (·.1 == i) := by
    simp only [List.countP_append]
    omega
  rw [hsplit, countP_own hown]
  by_cases hlast : i = s.handled.length
  · subst hlast
    have hecho : s.echoes key t1Ms = true := by simpa using hi
    simp only [Orderly, hecho, if_true] at horderly
    have hself := h.takePending_echo hecho horderly.1 horderly.2 t2Ms t4Ms
    have hrecording := congrArg State.recording (htake.symm.trans hself)
    have hlength : own.length = 1 := by
      rw [List.append_cancel_left hrecording]
      rfl
    have hnone : (s.recording ++ s.samples).countP (·.1 == s.handled.length) = 0 := by
      rw [List.countP_eq_zero]
      intro sample hsample
      simpa using Nat.ne_of_lt (h.numbered sample hsample)
    rw [hnone, if_pos rfl, hlength]
  · rw [if_neg hlast]
    refine h.complete i ?_
    have hlt : i < s.handled.length := by
      have hbound := (List.getElem?_eq_some_iff.mp hi).1
      rw [List.length_append, List.length_singleton] at hbound
      omega
    rwa [List.getElem?_append_left hlt] at hi

theorem response (h : Awaiting s) (horderly : Orderly s (.response key t1Ms t2Ms t4Ms)) :
    Awaiting ((s.takePending key t1Ms t2Ms t4Ms).answer key t1Ms) := by
  obtain ⟨own, hown, htake⟩ := takePending_recording s key t1Ms t2Ms t4Ms
  have hcomplete {i : Nat} := h.response_complete (i := i) horderly hown htake
  have hlookup (key' : Key) : (if s.echoes key t1Ms then s.last.insert key ⟨t1Ms, true⟩
      else s.last).lookup key' = if s.echoes key t1Ms ∧ key' = key then some ⟨t1Ms, true⟩
        else s.last.lookup key' := by
    by_cases hecho : s.echoes key t1Ms
    · simp [hecho, Table.lookup_insert_ite]
    · simp [hecho]
  have hanswer : (s.takePending key t1Ms t2Ms t4Ms).answer key t1Ms = { s with
      pending := s.pending.erase key
      recording := s.recording ++ own
      last := if s.echoes key t1Ms then s.last.insert key ⟨t1Ms, true⟩ else s.last
      handled := s.handled ++ [s.echoes key t1Ms] } := by
    rw [htake]
    rfl
  rw [hanswer]
  refine ⟨?_, ?_, ?_, fun i hi => hcomplete hi⟩
  · intro key' probe hlast hanswered hrecorded
    dsimp only at hlast ⊢
    rw [hlookup] at hlast
    split at hlast
    · cases hlast
      cases hanswered
    next hother =>
      have hne : key' ≠ key := by
        rintro rfl
        have hecho : s.echoes key' t1Ms = false := by simpa using hother
        have hopen : s.settled key' = false := by simp [State.settled, hlast, hanswered]
        simp [Orderly, hecho, hopen] at horderly
        exact hrecorded horderly
      rw [Table.lookup_erase_ite, if_neg hne]
      exact h.pending key' probe hlast hanswered hrecorded
  · intro now probes hpass key' hkey'
    obtain ⟨answered, hsent⟩ := h.sent now probes hpass key' hkey'
    dsimp only
    rw [hlookup]
    split
    next hecho =>
      obtain ⟨hecho, rfl⟩ := hecho
      have hnow : now = t1Ms := by simpa [State.echoes, hsent] using hecho
      exact ⟨true, by rw [hnow]⟩
    · exact ⟨answered, hsent⟩
  · intro sample hsample
    rw [List.length_append, List.length_singleton]
    simp only [List.mem_append, or_assoc] at hsample
    rcases hsample with hold | hnew | hold
    · exact Nat.lt_succ_of_lt (h.numbered sample (List.mem_append_left _ hold))
    · rw [hown sample hnew]
      exact Nat.lt_succ_self _
    · exact Nat.lt_succ_of_lt (h.numbered sample (List.mem_append_right _ hold))

theorem recorded (h : Awaiting s) {index : Nat} {sample : Nat × SyncSample}
    (hget : s.recording[index]? = some sample) :
    Awaiting { s with
      recording := s.recording.eraseIdx index
      samples := s.samples ++ [sample] } := by
  have hperm : (s.recording.eraseIdx index ++ (s.samples ++ [sample])).Perm
      (s.recording ++ s.samples) := by
    obtain ⟨hlt, rfl⟩ := List.getElem?_eq_some_iff.mp hget
    refine List.Perm.trans ?_ ((List.getElem_cons_eraseIdx_perm hlt).append_right _)
    rw [← List.append_assoc]
    exact List.perm_append_comm
  refine ⟨h.pending, h.sent, fun sample hsample => h.numbered sample (hperm.mem_iff.mp hsample), ?_⟩
  intro i hi
  rw [hperm.countP_eq]
  exact h.complete i hi

theorem step (h : Awaiting s) (horderly : Orderly s act) (hstep : s.step act = some s') :
    Awaiting s' := by
  cases act with
  | list now =>
    simp only [State.step] at hstep
    split at hstep
    next hpass =>
      cases hstep
      refine ⟨fun key probe hlast hanswered _ => ?_, ?_, h.numbered, h.complete⟩
      · exact h.pending key probe hlast hanswered (by simp [hpass, Pass.probes])
      · intro _ _ hpass'
        rcases hpass' with hpass' | ⟨_, hpass'⟩ <;> cases hpass'
    · cases hstep
  | send =>
    simp only [State.step] at hstep
    split at hstep
    next now elections hpass =>
      cases hstep
      exact h.send hpass
    · cases hstep
  | relist =>
    simp only [State.step] at hstep
    split at hstep
    next now probes hpass =>
      cases hstep
      refine ⟨fun key probe hlast hanswered hrecorded => ?_, ?_, h.numbered, h.complete⟩
      · exact h.pending key probe hlast hanswered (by simpa [hpass, Pass.probes] using hrecorded)
      · intro now' probes' hpass'
        rcases hpass' with hpass' | ⟨_, hpass'⟩ <;> cases hpass'
        exact h.sent now probes (.inl hpass)
    · cases hstep
  | record =>
    simp only [State.step] at hstep
    split at hstep
    next now probes elections hpass =>
      cases hstep
      exact h.record hpass horderly
    · cases hstep
  | response key t1Ms t2Ms t4Ms =>
    cases hstep
    exact h.response horderly
  | sample index =>
    simp only [State.step] at hstep
    split at hstep
    next sample hget =>
      cases hstep
      exact h.recorded hget
    · cases hstep
  | connect peer | disconnect peer | elect elections =>
    cases hstep
    exact ⟨h.pending, h.sent, h.numbered, h.complete⟩

end Awaiting

/-- In every run where probes and responses keep their order, every response
that echoes the probe last sent to its peer has exactly one sample, recorded or
about to be. -/
theorem sync_samples_complete {localId : String} {connected : List String} {elections : Elections}
    {acts : List Act} {s : State}
    (horderly : Meets State.step Orderly (.init localId connected elections) acts)
    (hrun : exec State.step (.init localId connected elections) acts = some s) :
    (∀ i, s.handled[i]? = some true → (s.recording ++ s.samples).countP (·.1 == i) = 1) ∧
      (s.recording = [] → ∀ i, s.handled[i]? = some true → s.samples.countP (·.1 == i) = 1) := by
  have hawaiting : Awaiting s := exec_invariant (fun h ho hstep => h.step ho hstep)
    (awaiting_init localId connected elections) horderly hrun
  refine ⟨hawaiting.complete, fun hidle i hi => ?_⟩
  have hone := hawaiting.complete i hi
  rwa [hidle, List.nil_append] at hone

/-- Two passes with a response each. -/
def answeredInTurn : List Act :=
  [.list 1000, .send, .relist, .record, .response ("host", "group") 1000 5002 1004, .sample 0,
    .list 2000, .send, .relist, .record, .response ("host", "group") 2000 6003 2006, .sample 0]

theorem answered_in_turn_samples :
    ∃ s, exec State.step (.init "here" ["host"] [("group", some "host")]) answeredInTurn = some s ∧
      s.handled = [true, true] ∧ s.samples.length = 2 ∧
      ∀ i, s.handled[i]? = some true → s.samples.countP (·.1 == i) = 1 := by
  obtain ⟨s, hrun, hend⟩ := exec_of_any State.step
    (.init "here" ["host"] [("group", some "host")]) answeredInTurn
    (fun s => s.handled = [true, true] ∧ s.samples.length = 2 ∧ s.recording = []) (by decide)
  obtain ⟨hhandled, hsamples, hidle⟩ := of_decide_eq_true hend
  exact ⟨s, hrun, hhandled, hsamples, (sync_samples_complete (by decide) hrun).2 hidle⟩

/-- The response is there before the probe is recorded. -/
def answeredEarly : List Act :=
  [.list 1000, .send, .response ("host", "group") 1000 5002 1004, .relist, .record]

/-- A late response to the first probe takes the second one out. -/
def answeredLate : List Act :=
  [.list 1000, .send, .relist, .record, .list 2000, .send, .relist, .record,
    .response ("host", "group") 1000 5002 2001, .response ("host", "group") 2000 6003 2004]

/-- Both runs end with a response that echoes the probe last sent and has no
sample. -/
theorem sync_sample_lost :
    (exec State.step (.init "here" ["host"] [("group", some "host")]) answeredEarly).any (fun s =>
        s.handled = [true] ∧ s.recording = [] ∧ s.samples = []) ∧
      (exec State.step (.init "here" ["host"] [("group", some "host")]) answeredLate).any (fun s =>
        s.handled = [false, true] ∧ s.recording = [] ∧ s.samples = []) := by
  decide

end EvoAudio.Multiroom.SyncProbes
