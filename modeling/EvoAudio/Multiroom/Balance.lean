import EvoAudio.Multiroom.Connections

/-!
# Connect and disconnect happenings balance

For every peer, what has been announced or is about to be equals what has
been retracted or is about to be, plus the happenings lost with a cancelled
task, plus one while the peer is in the table. This holds in every run; the
happenings themselves balance exactly in the runs that lose none.
-/

namespace EvoAudio.Multiroom.Connections

open Machine

-- ---------------------------------------------------------------------------
-- The accounts
-- ---------------------------------------------------------------------------

def Happening.connects (peer : String) : Happening → Bool
  | .peerConnected id _ => id == peer
  | .peerDisconnected _ => false

def Happening.disconnects (peer : String) : Happening → Bool
  | .peerConnected .. => false
  | .peerDisconnected id => id == peer

def State.connected (s : State) (peer : String) : Nat := s.log.countP (Happening.connects peer)

def State.disconnected (s : State) (peer : String) : Nat :=
  s.log.countP (Happening.disconnects peer)

def State.present (s : State) (peer : String) : Nat := (s.table.lookup peer).isSome.toNat

def State.announcements (s : State) (peer : String) : Nat :=
  s.announcing.countP fun a => a.1 == peer

def Conn.emits (peer : String) (conn : Conn) : Bool := conn.peer == peer && conn.task.isEmitting

def Conn.lostOf (peer : String) (conn : Conn) : Bool := conn.peer == peer && conn.task.isLost

/-- Happenings the emitters have still to emit. -/
def State.retractions (s : State) (peer : String) : Nat :=
  s.conns.countP (Conn.emits peer) + (s.reaping == some peer).toNat + s.closing.countP (· == peer)

def State.Accounted (s : State) : Prop := ∀ peer,
  s.connected peer + s.announcements peer =
    s.disconnected peer + s.retractions peer + s.conns.countP (Conn.lostOf peer) + s.present peer

/-- Nothing is about to be emitted. -/
structure State.Quiet (s : State) : Prop where
  announcing : s.announcing = []
  reaping : s.reaping = none
  closing : s.closing = []
  tasks : ∀ conn ∈ s.conns, conn.task.isEmitting = false

-- ---------------------------------------------------------------------------
-- One step
-- ---------------------------------------------------------------------------

theorem State.Accounted.congr {s s' : State} (h : s.Accounted) (hlog : s'.log = s.log)
    (hann : s'.announcing = s.announcing) (hreap : s'.reaping = s.reaping)
    (hclose : s'.closing = s.closing)
    (hemits : ∀ peer, s'.conns.countP (Conn.emits peer) = s.conns.countP (Conn.emits peer))
    (hlost : ∀ peer, s'.conns.countP (Conn.lostOf peer) = s.conns.countP (Conn.lostOf peer))
    (hpresent : ∀ peer, s'.present peer = s.present peer) : s'.Accounted := by
  intro peer
  have := h peer
  simp only [State.connected, State.disconnected, State.announcements, State.retractions, hlog,
    hann, hreap, hclose, hemits, hlost, hpresent] at this ⊢
  exact this

/-- Flags of a connection are not accounted for. -/
theorem State.Accounted.update {s : State} (h : s.Accounted) (c : Nat) (f : Conn → Conn)
    (hpeer : ∀ conn, (f conn).peer = conn.peer) (htask : ∀ conn, (f conn).task = conn.task) :
    (s.update c f).Accounted := by
  refine h.congr rfl rfl rfl rfl ?_ ?_ fun _ => rfl
  · intro peer
    exact Table.countP_modify_of_eq _ _ _ _ fun conn => by simp [Conn.emits, hpeer, htask]
  · intro peer
    exact Table.countP_modify_of_eq _ _ _ _ fun conn => by simp [Conn.lostOf, hpeer, htask]

theorem present_holder (s : State) (peer : String) :
    s.present peer = (s.holder peer).isSome.toNat := by
  simp [State.present, State.holder]

/-- The accounts after the entry of a peer is taken out. -/
structure TakenOut (s s' : State) (peer : String) : Prop where
  log : s'.log = s.log
  announcing : s'.announcing = s.announcing
  reaping : s'.reaping = s.reaping
  closing : s'.closing = s.closing
  emits : ∀ q, s'.conns.countP (Conn.emits q) = s.conns.countP (Conn.emits q)
  lostOf : ∀ q, s'.conns.countP (Conn.lostOf q) = s.conns.countP (Conn.lostOf q)
  present : ∀ q, s'.present q + (peer == q).toNat = s.present q

theorem takeOut_accounts {s : State} (ht : s.takeOut peer = some s') : TakenOut s s' peer := by
  obtain ⟨c, hheld, rfl⟩ := takeOut_some ht
  refine ⟨rfl, rfl, rfl, rfl, ?_, ?_, ?_⟩
  · intro q
    exact Table.countP_modify_of_eq _ _ _ _ fun _ => rfl
  · intro q
    exact Table.countP_modify_of_eq _ _ _ _ fun _ => rfl
  · intro q
    rw [present_holder, present_holder, dropEntry_holder]
    by_cases h : q = peer
    · subst h
      simp [hheld]
    · simp [h, Ne.symm h]

theorem takeOut_getElem? {s : State} {c : Nat} {conn : Conn} (ht : s.takeOut peer = some s')
    (hc : s.conns[c]? = some conn) :
    ∃ conn', s'.conns[c]? = some conn' ∧ conn'.peer = conn.peer ∧ conn'.task = conn.task := by
  obtain ⟨d, -, rfl⟩ := takeOut_some ht
  rw [dropEntry_getElem?, hc]
  refine ⟨_, rfl, ?_⟩
  split <;> exact ⟨rfl, rfl⟩

theorem place_emits (s : State) (c : Nat) (conn : Conn) (nowMs : Nat) (peer : String) :
    (s.place c conn nowMs).conns.countP (Conn.emits peer) = s.conns.countP (Conn.emits peer) :=
  Table.countP_modify_of_eq _ _ _ _ fun _ => rfl

theorem place_lostOf (s : State) (c : Nat) (conn : Conn) (nowMs : Nat) (peer : String) :
    (s.place c conn nowMs).conns.countP (Conn.lostOf peer) = s.conns.countP (Conn.lostOf peer) :=
  Table.countP_modify_of_eq _ _ _ _ fun _ => rfl

theorem place_present (s : State) (c : Nat) (conn : Conn) (nowMs : Nat) (peer : String) :
    (s.place c conn nowMs).present peer = if peer = conn.peer then 1 else s.present peer := by
  rw [present_holder, present_holder, place_holder]
  split <;> rfl

/-- Replacing a task's state moves it between the accounts of its peer. -/
theorem setTask_emits {s : State} (hc : s.conns[c]? = some conn) (task : ReadTask) (peer : String) :
    (s.update c (Conn.setTask task)).conns.countP (Conn.emits peer) + (conn.emits peer).toNat =
      s.conns.countP (Conn.emits peer) + (conn.peer == peer && task.isEmitting).toNat :=
  Table.countP_modify _ _ hc

theorem setTask_lostOf {s : State} (hc : s.conns[c]? = some conn) (task : ReadTask)
    (peer : String) :
    (s.update c (Conn.setTask task)).conns.countP (Conn.lostOf peer) + (conn.lostOf peer).toNat =
      s.conns.countP (Conn.lostOf peer) + (conn.peer == peer && task.isLost).toNat :=
  Table.countP_modify _ _ hc

theorem ReadTask.resumed_isEmitting : (ReadTask.resumed bye).isEmitting = false := by
  cases bye <;> rfl

theorem ReadTask.resumed_isLost : (ReadTask.resumed bye).isLost = false := by
  cases bye <;> rfl

/-- A peer that is new to the table is announced; one that is not keeps its
place. -/
theorem State.Accounted.insert {s : State} (h : s.Accounted) (c : Nat) (conn : Conn) (nowMs : Nat) :
    State.Accounted { ((s.takeOut conn.peer).getD s).place c conn nowMs with
      announcing := s.announcing ++
        if (s.table.lookup conn.peer).isSome then [] else [(conn.peer, conn.direction)] } := by
  intro peer
  have hbal := h peer
  have hheld : s.present conn.peer = (s.table.lookup conn.peer).isSome.toNat := rfl
  cases ht : s.takeOut conn.peer with
  | none =>
    have hout : s.table.lookup conn.peer = none := by simpa [State.takeOut] using ht
    rw [hout] at hheld ⊢
    show s.connected peer + (s.announcing ++ [(conn.peer, conn.direction)]).countP _ =
      s.disconnected peer + ((s.place c conn nowMs).conns.countP (Conn.emits peer) +
        (s.reaping == some peer).toNat + s.closing.countP (· == peer)) +
      (s.place c conn nowMs).conns.countP (Conn.lostOf peer) + (s.place c conn nowMs).present peer
    rw [place_emits, place_lostOf, place_present, List.countP_append, List.countP_singleton]
    simp only [State.announcements, State.retractions] at hbal
    by_cases hpeer : peer = conn.peer
    · subst hpeer
      simp only [Option.isSome_none, Bool.toNat_false] at hheld
      simp only [beq_self_eq_true, if_true]
      omega
    · simp only [beq_eq_false_iff_ne.mpr (Ne.symm hpeer), hpeer, if_false, Bool.false_eq_true]
      omega
  | some taken =>
    have htaken := takeOut_accounts ht
    have hin : (s.table.lookup conn.peer).isSome = true := by
      simpa [State.takeOut] using congrArg Option.isSome ht
    rw [hin] at hheld ⊢
    show taken.log.countP _ + (s.announcing ++ []).countP _ =
      taken.log.countP _ + ((taken.place c conn nowMs).conns.countP (Conn.emits peer) +
        (taken.reaping == some peer).toNat + taken.closing.countP (· == peer)) +
      (taken.place c conn nowMs).conns.countP (Conn.lostOf peer) +
      (taken.place c conn nowMs).present peer
    have hpresent := htaken.present peer
    rw [place_emits, place_lostOf, place_present, htaken.log, htaken.reaping, htaken.closing,
      htaken.emits, htaken.lostOf, List.append_nil]
    simp only [State.connected, State.disconnected, State.announcements,
      State.retractions] at hbal
    by_cases hpeer : peer = conn.peer
    · subst hpeer
      simp only [Bool.toNat_true] at hheld
      simp only [if_true]
      omega
    · simp only [beq_eq_false_iff_ne.mpr (Ne.symm hpeer), Bool.toNat_false] at hpresent
      rw [if_neg hpeer]
      omega

theorem State.Accounted.spawn {s : State} (h : s.Accounted) (peer : String)
    (direction : ConnectionDirection) :
    State.Accounted
      { s with conns := s.conns ++ [⟨peer, direction, .reading, false, false, false⟩] } := by
  refine h.congr rfl rfl rfl rfl ?_ ?_ fun _ => rfl
  · intro q
    simp [List.countP_append, Conn.emits, ReadTask.isEmitting]
  · intro q
    simp [List.countP_append, Conn.lostOf, ReadTask.isLost]

theorem State.Accounted.announce {s : State} (h : s.Accounted)
    (hmem : (peer, direction) ∈ s.announcing) :
    State.Accounted { s with
      announcing := s.announcing.erase (peer, direction)
      log := s.log ++ [.peerConnected peer direction] } := by
  intro q
  have hbal := h q
  have hann := Table.countP_erase_toNat (fun a : String × ConnectionDirection => a.1 == q) hmem
  simp only [State.connected, State.disconnected, State.announcements, State.retractions,
    State.present, Table.countP_concat_toNat, Happening.connects, Happening.disconnects,
    Bool.toNat_false] at hbal hann ⊢
  omega

theorem State.Accounted.touch {s : State} (h : s.Accounted) (peer : String) (nowMs : Nat) :
    (s.touch peer nowMs).Accounted := by
  have hsame : (s.touch peer nowMs).log = s.log ∧ (s.touch peer nowMs).announcing = s.announcing ∧
      (s.touch peer nowMs).reaping = s.reaping ∧ (s.touch peer nowMs).closing = s.closing := by
    unfold State.touch
    split <;> exact ⟨rfl, rfl, rfl, rfl⟩
  obtain ⟨hlog, hann, hreap, hclose⟩ := hsame
  refine h.congr hlog hann hreap hclose ?_ ?_ ?_
  · intro q
    rw [touch_conns]
  · intro q
    rw [touch_conns]
  · intro q
    rw [present_holder, present_holder, touch_holder]

/-- A task moving on outside the emit. -/
theorem State.Accounted.setTask {s : State} (h : s.Accounted) (hc : s.conns[c]? = some conn)
    (hold : conn.task.isEmitting = false) (hnew : task.isEmitting = false)
    (hlost : conn.task.isLost = task.isLost) :
    (s.update c (Conn.setTask task)).Accounted := by
  refine h.congr rfl rfl rfl rfl ?_ ?_ fun _ => rfl
  · intro q
    have hemits := setTask_emits hc task q
    simp only [Conn.emits, hold, hnew, Bool.and_false, Bool.toNat_false] at hemits
    exact hemits
  · intro q
    have hlostOf := setTask_lostOf hc task q
    simp only [Conn.lostOf, hlost] at hlostOf
    exact Nat.add_right_cancel hlostOf

theorem State.Accounted.cancel {s : State} (h : s.Accounted) (hc : s.conns[c]? = some conn)
    (hover : conn.task.isOver = false) :
    (s.update c (Conn.setTask (.cancelled conn.task.isEmitting))).Accounted := by
  intro q
  have hbal := h q
  have hemits := setTask_emits hc (.cancelled conn.task.isEmitting) q
  have hlost := setTask_lostOf hc (.cancelled conn.task.isEmitting) q
  have hwas : conn.lostOf q = false := by
    cases htask : conn.task <;> simp_all [Conn.lostOf, ReadTask.isOver, ReadTask.isLost]
  show s.connected q + s.announcements q = s.disconnected q +
    ((s.update c (Conn.setTask (.cancelled conn.task.isEmitting))).conns.countP (Conn.emits q) +
      (s.reaping == some q).toNat + s.closing.countP (· == q)) +
    (s.update c (Conn.setTask (.cancelled conn.task.isEmitting))).conns.countP (Conn.lostOf q) +
    s.present q
  simp only [State.retractions] at hbal
  -- what leaves the emitting account is what enters the lost one
  have henters : (conn.peer == q && (ReadTask.cancelled conn.task.isEmitting).isLost) =
    conn.emits q := rfl
  have hleaves : (conn.peer == q && (ReadTask.cancelled conn.task.isEmitting).isEmitting) =
    false := Bool.and_false _
  rw [hwas, henters, Bool.toNat_false] at hlost
  rw [hleaves, Bool.toNat_false] at hemits
  omega

theorem State.Accounted.markHeld {s : State} (h : s.Accounted) (hc : s.conns[c]? = some conn)
    (htask : conn.task = .marking bye) (ht : s.takeOut conn.peer = some taken) :
    (taken.update c (Conn.setTask (.emitting bye))).Accounted := by
  have htaken := takeOut_accounts ht
  obtain ⟨conn', hc', hpeer, htask'⟩ := takeOut_getElem? ht hc
  intro q
  have hbal := h q
  have hemits := setTask_emits hc' (.emitting bye) q
  have hlost := setTask_lostOf hc' (.emitting bye) q
  have hpresent := htaken.present q
  have hwas : conn'.emits q = false ∧ conn'.lostOf q = false := by
    simp [Conn.emits, Conn.lostOf, htask', htask, ReadTask.isEmitting, ReadTask.isLost]
  show taken.log.countP _ + taken.announcing.countP _ = taken.log.countP _ +
    ((taken.update c (Conn.setTask (.emitting bye))).conns.countP (Conn.emits q) +
      (taken.reaping == some q).toNat + taken.closing.countP (· == q)) +
    (taken.update c (Conn.setTask (.emitting bye))).conns.countP (Conn.lostOf q) + taken.present q
  have hemits₀ := htaken.emits q
  have hlost₀ := htaken.lostOf q
  simp only [State.connected, State.disconnected, State.announcements, State.retractions] at hbal
  rw [htaken.log, htaken.announcing, htaken.reaping, htaken.closing]
  rw [hwas.1, hpeer, show (ReadTask.emitting bye).isEmitting = true from rfl, Bool.and_true] at hemits
  rw [hwas.2, show (ReadTask.emitting bye).isLost = false from rfl, Bool.and_false] at hlost
  simp only [Bool.toNat_false] at hemits hlost
  omega

theorem State.Accounted.markGone {s : State} (h : s.Accounted) (hc : s.conns[c]? = some conn)
    (htask : conn.task = .marking bye) : (s.update c (Conn.setTask (.resumed bye))).Accounted := by
  refine h.setTask hc ?_ ReadTask.resumed_isEmitting ?_
  · simp [htask, ReadTask.isEmitting]
  · rw [ReadTask.resumed_isLost, htask]
    rfl

theorem State.Accounted.emitted {s : State} (h : s.Accounted) (hc : s.conns[c]? = some conn)
    (htask : conn.task = .emitting bye) :
    (State.update { s with log := s.log ++ [.peerDisconnected conn.peer] } c
      (Conn.setTask (.resumed bye))).Accounted := by
  intro q
  have hbal := h q
  have hemits := setTask_emits hc (.resumed bye) q
  have hlost := setTask_lostOf hc (.resumed bye) q
  have hwas : conn.emits q = (conn.peer == q) ∧ conn.lostOf q = false := by
    simp [Conn.emits, Conn.lostOf, htask, ReadTask.isEmitting, ReadTask.isLost]
  show (s.log ++ [Happening.peerDisconnected conn.peer]).countP (Happening.connects q) +
      s.announcements q =
    (s.log ++ [Happening.peerDisconnected conn.peer]).countP (Happening.disconnects q) +
    ((s.update c (Conn.setTask (.resumed bye))).conns.countP (Conn.emits q) +
      (s.reaping == some q).toNat + s.closing.countP (· == q)) +
    (s.update c (Conn.setTask (.resumed bye))).conns.countP (Conn.lostOf q) + s.present q
  simp only [State.connected, State.disconnected, State.retractions] at hbal
  rw [hwas.1, ReadTask.resumed_isEmitting, Bool.and_false] at hemits
  rw [hwas.2, ReadTask.resumed_isLost, Bool.and_false] at hlost
  simp only [Table.countP_concat_toNat, Happening.connects, Happening.disconnects,
    Bool.toNat_false] at hemits hlost ⊢
  omega

theorem State.Accounted.reapHeld {s : State} (h : s.Accounted) (hreaping : s.reaping = none)
    (ht : s.takeOut peer = some taken) (rest : List String) :
    State.Accounted { taken with stale := rest, reaping := some peer } := by
  have htaken := takeOut_accounts ht
  intro q
  have hbal := h q
  have hpresent := htaken.present q
  show taken.log.countP _ + taken.announcing.countP _ = taken.log.countP _ +
    (taken.conns.countP (Conn.emits q) + (some peer == some q).toNat +
      taken.closing.countP (· == q)) + taken.conns.countP (Conn.lostOf q) + taken.present q
  rw [htaken.log, htaken.announcing, htaken.closing, htaken.emits, htaken.lostOf,
    Option.some_beq_some]
  simp only [State.connected, State.disconnected, State.announcements, State.retractions,
    hreaping] at hbal
  rw [show ((none : Option String) == some q) = false from rfl, Bool.toNat_false] at hbal
  omega

theorem State.Accounted.reapEmitted {s : State} (h : s.Accounted)
    (hreaping : s.reaping = some peer) :
    State.Accounted { s with reaping := none, log := s.log ++ [.peerDisconnected peer] } := by
  intro q
  have hbal := h q
  simp only [State.connected, State.disconnected, State.announcements, State.retractions,
    State.present, hreaping, Option.some_beq_some] at hbal
  simp only [State.connected, State.disconnected, State.announcements, State.retractions,
    State.present, Table.countP_concat_toNat, Happening.connects, Happening.disconnects]
  rw [show ((none : Option String) == some q) = false from rfl, Bool.toNat_false]
  omega

/-- Taking out several peers that are all in the table. -/
theorem takeOutAll_accounts {peers : List String} (s : State) (hnodup : peers.Nodup)
    (hheld : ∀ peer ∈ peers, (s.holder peer).isSome = true) :
    (s.takeOutAll peers).log = s.log ∧ (s.takeOutAll peers).announcing = s.announcing ∧
      (s.takeOutAll peers).reaping = s.reaping ∧
      (∀ q, (s.takeOutAll peers).conns.countP (Conn.emits q) = s.conns.countP (Conn.emits q)) ∧
      (∀ q, (s.takeOutAll peers).conns.countP (Conn.lostOf q) = s.conns.countP (Conn.lostOf q)) ∧
      ∀ q, (s.takeOutAll peers).present q + peers.countP (· == q) = s.present q := by
  induction peers generalizing s with
  | nil => exact ⟨rfl, rfl, rfl, fun _ => rfl, fun _ => rfl, fun _ => rfl⟩
  | cons peer peers ih =>
    obtain ⟨hnew, hnodup⟩ := List.nodup_cons.mp hnodup
    obtain ⟨hnone, -⟩ | ⟨c, -, ht⟩ := takeOut_cases s peer
    · have := hheld peer (by simp)
      simp [hnone] at this
    have htaken := takeOut_accounts ht
    have hrest : ∀ q ∈ peers, ((s.dropEntry peer c).holder q).isSome = true := by
      intro q hq
      have hne : q ≠ peer := by
        rintro rfl
        exact hnew hq
      rw [dropEntry_holder, if_neg hne]
      exact hheld q (by simp [hq])
    obtain ⟨hlog, hann, hreap, hemits, hlost, hpresent⟩ := ih (s.dropEntry peer c) hnodup hrest
    rw [State.takeOutAll, ht, Option.getD_some]
    refine ⟨hlog.trans htaken.log, hann.trans htaken.announcing, hreap.trans htaken.reaping,
      fun q => (hemits q).trans (htaken.emits q), fun q => (hlost q).trans (htaken.lostOf q), ?_⟩
    intro q
    have h₁ := hpresent q
    have h₂ := htaken.present q
    rw [List.countP_cons]
    cases hq : peer == q <;> simp [hq] at h₂ ⊢ <;> omega

theorem outbound_nodup (s : State) : s.outbound.Nodup :=
  List.Nodup.sublist (List.filter_sublist.map _) s.table.nodupKeys

theorem outbound_held {s : State} (h : peer ∈ s.outbound) : (s.holder peer).isSome = true := by
  obtain ⟨e, he, rfl⟩ := List.mem_map.mp h
  have hmem := AList.mem_lookup_iff.mpr (List.mem_of_mem_filter he)
  simp [State.holder, Option.mem_def.mp hmem]

theorem State.Accounted.closeOutbound {s : State} (h : s.Accounted) :
    State.Accounted { s.takeOutAll s.outbound with closing := s.closing ++ s.outbound } := by
  obtain ⟨hlog, hann, hreap, hemits, hlost, hpresent⟩ :=
    takeOutAll_accounts s (outbound_nodup s) fun _ h => outbound_held h
  intro q
  have hbal := h q
  have hq := hpresent q
  show (s.takeOutAll s.outbound).log.countP _ + (s.takeOutAll s.outbound).announcing.countP _ =
    (s.takeOutAll s.outbound).log.countP _ +
    ((s.takeOutAll s.outbound).conns.countP (Conn.emits q) +
      ((s.takeOutAll s.outbound).reaping == some q).toNat +
      (s.closing ++ s.outbound).countP (· == q)) +
    (s.takeOutAll s.outbound).conns.countP (Conn.lostOf q) + (s.takeOutAll s.outbound).present q
  rw [hlog, hann, hreap, hemits, hlost, List.countP_append]
  simp only [State.connected, State.disconnected, State.announcements, State.retractions] at hbal
  omega

theorem State.Accounted.closeEmitted {s : State} (h : s.Accounted) (hmem : peer ∈ s.closing) :
    State.Accounted
      { s with closing := s.closing.erase peer, log := s.log ++ [.peerDisconnected peer] } := by
  intro q
  have hbal := h q
  have hclosing := Table.countP_erase_toNat (· == q) hmem
  simp only [State.connected, State.disconnected, State.announcements, State.retractions,
    State.present, Table.countP_concat_toNat, Happening.connects, Happening.disconnects,
    Bool.toNat_false] at hbal hclosing ⊢
  omega

theorem State.Accounted.leaveLoop {s : State} (h : s.Accounted) (hc : s.conns[c]? = some conn)
    (htask : conn.task = .reading) (bye : Bool) :
    (s.update c (Conn.setTask (.marking bye))).Accounted := by
  refine h.setTask hc ?_ rfl ?_
  · rw [htask]
    rfl
  · rw [htask]
    rfl

theorem State.Accounted.step {s : State} (h : s.Accounted) (hstep : s.step a = some s') :
    s'.Accounted := by
  cases Step.of_step hstep with
  | spawn => exact h.spawn _ _
  | insert conn hc hnew => exact h.insert _ conn _
  | announce hmem => exact h.announce hmem
  | suspend | resume => exact h.update _ _ (fun _ => rfl) fun _ => rfl
  | cancel conn hc _ _ hover => exact h.cancel hc hover
  | message => exact h.touch _ _
  | goodbye conn hrunning htask =>
    obtain ⟨hc, -, -⟩ := running_iff.mp hrunning
    exact (h.touch _ _).leaveLoop (touch_conns s conn.peer _ ▸ hc) htask true
  | readError conn hrunning htask => exact h.leaveLoop (running_iff.mp hrunning).1 htask false
  | markHeld conn bye taken hrunning htask ht =>
    exact h.markHeld (running_iff.mp hrunning).1 htask ht
  | markGone conn bye hrunning htask => exact h.markGone (running_iff.mp hrunning).1 htask
  | emitted conn bye hrunning htask => exact h.emitted (running_iff.mp hrunning).1 htask
  | reapHeld peer taken hreaping _ ht => exact h.reapHeld hreaping ht _
  | reapEmitted peer hreaping => exact h.reapEmitted hreaping
  | closeOutbound => exact h.closeOutbound
  | closeEmitted hmem => exact h.closeEmitted hmem
  | reapScan | reapGone =>
    exact h.congr rfl rfl rfl rfl (fun _ => rfl) (fun _ => rfl) fun _ => rfl

-- ---------------------------------------------------------------------------
-- Lost happenings
-- ---------------------------------------------------------------------------

def State.lost (s : State) : Nat := s.conns.countP (·.task.isLost)

/-- No task is cancelled inside its emit. -/
def EmitsSurvive (s : State) : Act → Prop
  | .cancel c => ∀ conn ∈ s.conns[c]?, conn.task.isEmitting = false
  | _ => True

instance (s : State) : (a : Act) → Decidable (EmitsSurvive s a)
  | .cancel c => inferInstanceAs (Decidable (∀ conn ∈ s.conns[c]?, conn.task.isEmitting = false))
  | .spawn .. | .insert .. | .announce .. | .suspend _ | .resume _ | .message .. | .goodbye ..
  | .readError _ | .markDisconnected _ | .emitted _ | .reapScan .. | .reapNext | .reapEmitted
  | .closeOutbound | .closeEmitted _ => .isTrue trivial

theorem takeOut_lost {s : State} (ht : s.takeOut peer = some s') : s'.lost = s.lost := by
  obtain ⟨c, -, rfl⟩ := takeOut_some ht
  exact Table.countP_modify_of_eq _ _ _ _ fun _ => rfl

theorem takeOutAll_lost (s : State) (peers : List String) : (s.takeOutAll peers).lost = s.lost := by
  induction peers generalizing s with
  | nil => rfl
  | cons peer peers ih =>
    rw [State.takeOutAll, ih]
    cases ht : s.takeOut peer with
    | none => rfl
    | some taken => exact takeOut_lost ht

theorem update_lost {s : State} (f : Conn → Conn) (hf : ∀ conn, (f conn).task = conn.task) :
    (s.update c f).lost = s.lost :=
  Table.countP_modify_of_eq _ _ _ _ fun conn => by rw [hf]

/-- A task that is not over has lost nothing, and loses its happening only
when it is cancelled. -/
theorem setTask_lost {s : State} (hc : s.conns[c]? = some conn)
    (hover : conn.task.isOver = false) (task : ReadTask) :
    (s.update c (Conn.setTask task)).lost = s.lost + task.isLost.toNat := by
  have hcount := Table.countP_modify (·.task.isLost) (Conn.setTask task) hc
  have hwas : conn.task.isLost = false := by
    cases htask : conn.task <;> simp_all [ReadTask.isOver, ReadTask.isLost]
  rw [hwas] at hcount
  exact hcount

theorem place_cleared_lost (s : State) (c : Nat) (conn : Conn) (nowMs : Nat) :
    (((s.takeOut conn.peer).getD s).place c conn nowMs).lost = s.lost := by
  have hplace : (((s.takeOut conn.peer).getD s).place c conn nowMs).lost =
      ((s.takeOut conn.peer).getD s).lost :=
    Table.countP_modify_of_eq _ _ _ _ fun _ => rfl
  rw [hplace]
  cases ht : s.takeOut conn.peer with
  | none => rfl
  | some taken => exact takeOut_lost ht

/-- Only a task cancelled inside its emit loses a happening. -/
theorem step_lost_kept {s : State} (hstep : s.step a = some s') (hcancel : ∀ c, a ≠ .cancel c) :
    s'.lost = s.lost := by
  cases Step.of_step hstep with
  | spawn => simp [State.lost, List.countP_append, ReadTask.isLost]
  | @insert c nowMs conn => exact place_cleared_lost s c conn nowMs
  | suspend | resume => exact update_lost _ fun _ => rfl
  | cancel => exact absurd rfl (hcancel _)
  | message conn => rw [State.lost, touch_conns, State.lost]
  | @goodbye c nowMs conn hrunning =>
    obtain ⟨hc, -, hover⟩ := running_iff.mp hrunning
    have hlost := setTask_lost (touch_conns s conn.peer nowMs ▸ hc) hover (.marking true)
    exact hlost.trans (by rw [State.lost, touch_conns, State.lost]; rfl)
  | readError conn hrunning =>
    obtain ⟨hc, -, hover⟩ := running_iff.mp hrunning
    exact setTask_lost hc hover (.marking false)
  | markHeld conn bye taken hrunning htask ht =>
    obtain ⟨hc, -, hover⟩ := running_iff.mp hrunning
    obtain ⟨conn', hc', -, htask'⟩ := takeOut_getElem? ht hc
    exact (setTask_lost hc' (htask' ▸ hover) (.emitting bye)).trans (takeOut_lost ht)
  | markGone conn bye hrunning | emitted conn bye hrunning =>
    obtain ⟨hc, -, hover⟩ := running_iff.mp hrunning
    refine (setTask_lost hc hover (.resumed bye)).trans ?_
    rw [ReadTask.resumed_isLost]
    rfl
  | reapHeld peer taken _ _ ht => exact (takeOut_lost ht :)
  | closeOutbound => exact takeOutAll_lost s s.outbound
  | announce | reapScan | reapGone | reapEmitted | closeEmitted => rfl

theorem step_lost {s : State} (hstep : s.step a = some s') :
    s.lost ≤ s'.lost ∧ (s'.lost = s.lost ↔ EmitsSurvive s a) := by
  by_cases hcancel : ∃ c, a = .cancel c
  · obtain ⟨c, rfl⟩ := hcancel
    cases Step.of_step hstep with
    | cancel conn hc _ _ hover =>
      have hlost := setTask_lost hc hover (.cancelled conn.task.isEmitting)
      have hok : EmitsSurvive s (.cancel c) ↔ conn.task.isEmitting = false := by
        simp [EmitsSurvive, hc]
      rw [hok, hlost]
      cases conn.task.isEmitting <;> simp [ReadTask.isLost]
  · rw [not_exists] at hcancel
    have hkept := step_lost_kept hstep hcancel
    refine ⟨Nat.le_of_eq hkept.symm, iff_of_true hkept ?_⟩
    cases a with
    | cancel c => exact absurd rfl (hcancel c)
    | _ => trivial

theorem lost_eq_zero_iff {s : State} :
    s.lost = 0 ↔ ∀ peer, s.conns.countP (Conn.lostOf peer) = 0 := by
  simp only [State.lost, List.countP_eq_zero]
  constructor
  · intro h peer conn hconn hlost
    exact h conn hconn (by simp [Conn.lostOf] at hlost; exact hlost.2)
  · intro h conn hconn hlost
    exact h conn.peer conn hconn (by simpa [Conn.lostOf] using hlost)

/-- Once nothing is about to be emitted, the happenings of every peer balance
exactly when no task was cancelled inside its emit. -/
theorem balanced_iff_emitsSurvive (acts : List Act) (s : State)
    (hrun : exec State.step .init acts = some s) (hquiet : s.Quiet) :
    (∀ peer, s.connected peer = s.disconnected peer + s.present peer) ↔
      Meets State.step EmitsSurvive .init acts := by
  have hacc : s.Accounted := by
    refine exec_invariant_all (fun h hs => State.Accounted.step h hs) ?_ hrun
    intro peer
    rfl
  have hlost : s.lost = State.init.lost ↔ Meets State.step EmitsSurvive .init acts :=
    exec_count_eq_iff (I := fun _ => True) (fun _ _ => trivial) (fun _ hs => (step_lost hs).1)
      (fun _ hs => (step_lost hs).2) trivial hrun
  rw [← hlost, show State.init.lost = 0 from rfl, lost_eq_zero_iff]
  refine forall_congr' fun peer => ?_
  have hbal := hacc peer
  have hemits : s.conns.countP (Conn.emits peer) = 0 := by
    rw [List.countP_eq_zero]
    intro conn hconn
    simp [Conn.emits, hquiet.tasks conn hconn]
  simp only [State.announcements, State.retractions, hquiet.announcing, hquiet.reaping,
    hquiet.closing, hemits, List.countP_nil] at hbal
  rw [show ((none : Option String) == some peer) = false from rfl, Bool.toNat_false] at hbal
  omega

/-- A connection that is made, and ends on a read error. -/
def brokenOff : List Act :=
  [.spawn "dev-b" .inbound, .insert 0 1, .announce "dev-b" .inbound, .suspend 0, .resume 0,
    .readError 0, .markDisconnected 0]

theorem balanced_emit_completes :
    ∃ s, exec State.step .init (brokenOff ++ [.emitted 0]) = some s ∧ s.Quiet ∧
      ∀ peer, s.connected peer = s.disconnected peer + s.present peer := by
  obtain ⟨s, hrun, hp⟩ := exec_of_any State.step .init (brokenOff ++ [.emitted 0])
    (fun s : State => decide (s.announcing = [] ∧ s.reaping = none ∧ s.closing = [] ∧
      ∀ conn ∈ s.conns, conn.task.isEmitting = false)) (by decide)
  obtain ⟨hann, hreap, hclose, htasks⟩ := of_decide_eq_true hp
  have hquiet : s.Quiet := ⟨hann, hreap, hclose, htasks⟩
  exact ⟨s, hrun, hquiet,
    (balanced_iff_emitsSurvive (brokenOff ++ [.emitted 0]) s hrun hquiet).mpr (by decide)⟩

/-- The read task has aborted itself when its emit is suspended. -/
theorem not_balanced_emit_suspended :
    ∃ s, exec State.step .init (brokenOff ++ [.suspend 0, .cancel 0]) = some s ∧ s.Quiet ∧
      s.connected "dev-b" = 1 ∧ s.disconnected "dev-b" = 0 ∧ s.present "dev-b" = 0 := by
  obtain ⟨s, hrun, hp⟩ := exec_of_any State.step .init (brokenOff ++ [.suspend 0, .cancel 0])
    (fun s : State => decide ((s.announcing = [] ∧ s.reaping = none ∧ s.closing = [] ∧
      ∀ conn ∈ s.conns, conn.task.isEmitting = false) ∧
      s.connected "dev-b" = 1 ∧ s.disconnected "dev-b" = 0 ∧ s.present "dev-b" = 0)) (by decide)
  obtain ⟨⟨hann, hreap, hclose, htasks⟩, hcounts⟩ := of_decide_eq_true hp
  exact ⟨s, hrun, ⟨hann, hreap, hclose, htasks⟩, hcounts⟩

end EvoAudio.Multiroom.Connections
