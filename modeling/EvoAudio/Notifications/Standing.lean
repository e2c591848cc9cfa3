import EvoAudio.Lib.Machine
import EvoAudio.Notifications.Dispatcher

/-!
# Which notifications stand

A history of accepted sends and cancels says by itself what a snapshot should list: a
send stands until its handle is cancelled or a later send of its group takes its place,
and it is due on the banner until its own time has elapsed. The dispatcher keeps one entry for
each standing send, with the deadline of the entry it was coalesced onto. So a snapshot is
right as long as every send into a group that still has an entry asks for just the time
that this entry has left.
-/

namespace EvoAudio.Notifications

open Machine

-- ---------------------------------------------------------------------------
-- Histories
-- ---------------------------------------------------------------------------

structure Sent (β : Type) where
  time : Nat
  handle : Nat
  notification : Notification β
deriving DecidableEq

inductive Event (β : Type) where
  | sent (s : Sent β)
  | cancelled (handle : Nat)

variable {β : Type}

def Sent.elapsed (s : Sent β) (t : Nat) : Bool :=
  s.notification.autoDismissAfter.any fun d => s.time + d ≤ t

def Event.retires : Event β → Sent β → Bool
  | .sent later, s => s.notification.groupWith.isSome &&
      later.notification.groupWith == s.notification.groupWith
  | .cancelled handle, s => s.handle == handle

/-- The sends that stand after a history, whose newest event comes first. -/
def standing : List (Event β) → List (Sent β)
  | [] => []
  | .sent s :: older => s :: (standing older).filter fun s' => !(Event.sent s).retires s'
  | .cancelled h :: older => (standing older).filter fun s' => !(Event.cancelled h).retires s'

theorem mem_standing_sent {history : List (Event β)} : s ∈ standing (.sent later :: history) ↔
    s = later ∨ s ∈ standing history ∧ (Event.sent later).retires s = false := by
  simp [standing]

theorem mem_standing_cancelled {history : List (Event β)} :
    s ∈ standing (.cancelled h :: history) ↔ s ∈ standing history ∧ s.handle ≠ h := by
  simp [standing, Event.retires]

theorem retires_sent {later s : Sent β} : (Event.sent later).retires s = true ↔
    ∃ groupId, later.notification.groupWith = some groupId ∧
      s.notification.groupWith = some groupId := by
  rw [Event.retires]
  cases s.notification.groupWith <;> simp

theorem Sent.elapsed_mono {s : Sent β} (hle : t ≤ t') (h : s.elapsed t = true) :
    s.elapsed t' = true := by
  rw [Sent.elapsed, Option.any_eq_true] at h ⊢
  obtain ⟨d, hd, hdue⟩ := h
  exact ⟨d, hd, decide_eq_true (Nat.le_trans (of_decide_eq_true hdue) hle)⟩

-- ---------------------------------------------------------------------------
-- Runs
-- ---------------------------------------------------------------------------

inductive Call (β : Type) where
  | send (n : Notification β) (nowMin : Nat)
  | cancel (handle : Nat)
  | activeNotifications

/-- The dispatcher, the time of the last call, and what has been accepted so far. -/
structure Run (β : Type) where
  dispatcher : NotificationDispatcher β
  now : Nat
  history : List (Event β)

def Run.start (baseMode : NotificationMode) (quietHours : QuietHoursPolicy) : Run β :=
  ⟨.new baseMode quietHours, 0, []⟩

/-- A call that is refused changes nothing but the time. -/
def Run.call (r : Run β) (now : Nat) : Call β → Run β
  | .send n nowMin =>
    match send r.dispatcher n nowMin now with
    | .ok ((handle, _), d) => ⟨d, now, .sent ⟨now, handle, n⟩ :: r.history⟩
    | .error _ => { r with now }
  | .cancel handle =>
    match cancel r.dispatcher handle with
    | .ok d => ⟨d, now, .cancelled handle :: r.history⟩
    | .error _ => { r with now }
  | .activeNotifications =>
    { r with dispatcher := (activeNotifications r.dispatcher now).2, now }

/-- Time does not go back. -/
def step (r : Run β) (a : Nat × Call β) : Option (Run β) :=
  if r.now ≤ a.1 then some (r.call a.1 a.2) else none

/-- A snapshot taken at any time from now on lists the standing sends that have not elapsed,
each with its payload under the handle its sender was given, and nothing else. -/
def Shows (r : Run β) : Prop :=
  ∀ t, r.now ≤ t → ∀ h n,
    (∃ e ∈ (activeNotifications r.dispatcher t).1, e.handle = h ∧ e.notification = n) ↔
      ∃ s ∈ standing r.history, s.handle = h ∧ s.notification = n ∧ s.elapsed t = false

/-- A send that is coalesced asks for the time that the entry has left, and one that is not
gets a handle no entry has. The second can only fail once the 64-bit counter has gone round. -/
def inStep (r : Run β) : Nat × Call β → Prop
  | (now, .send n _) => validate n = .ok () →
    match representative r.dispatcher n with
    | some (_, entry) => entry.autoDismissAt.map (· - now) = n.autoDismissAfter
    | none => (r.dispatcher.active.lookup r.dispatcher.nextHandle).isNone
  | _ => True

instance : (r : Run β) → (a : Nat × Call β) → Decidable (inStep r a)
  | r, (now, .send n _) =>
    have : Decidable (match representative r.dispatcher n with
        | some (_, entry) => entry.autoDismissAt.map (· - now) = n.autoDismissAfter
        | none => (r.dispatcher.active.lookup r.dispatcher.nextHandle).isNone) :=
      match representative r.dispatcher n with
      | some _ => inferInstanceAs (Decidable (_ = n.autoDismissAfter))
      | none => inferInstanceAs (Decidable (_ = true))
    inferInstanceAs (Decidable (validate n = .ok () → _))
  | _, (_, .cancel _) => .isTrue trivial
  | _, (_, .activeNotifications) => .isTrue trivial

-- ---------------------------------------------------------------------------
-- The entries are the standing sends
-- ---------------------------------------------------------------------------

/-- From `now` on the entry and the send end together. -/
def Together (now : Nat) (e : ActiveNotification β) (s : Sent β) : Prop :=
  s.notification = e.notification ∧ ∀ t, now ≤ t → e.expired t = s.elapsed t

structure Tracks (now : Nat) (history : List (Event β)) (d : NotificationDispatcher β) :
    Prop where
  keyed : d.active.lookup h = some e → e.handle = h
  indexed : d.groupIndex.lookup g = some h ↔
    ∃ e, d.active.lookup h = some e ∧ e.notification.groupWith = some g
  backed : d.active.lookup h = some e →
    ∃ s ∈ standing history, s.handle = h ∧ Together now e s
  held : s ∈ standing history → s.elapsed now = false →
    ∃ e, d.active.lookup s.handle = some e ∧ Together now e s

theorem Together.mono {e : ActiveNotification β} (h : Together now e s) (hle : now ≤ now') :
    Together now' e s :=
  ⟨h.1, fun t ht => h.2 t (Nat.le_trans hle ht)⟩

theorem Sent.not_elapsed {s : Sent β} (hle : t ≤ t') (h : s.elapsed t' = false) :
    s.elapsed t = false :=
  Bool.eq_false_iff.mpr fun htrue => Bool.eq_false_iff.mp h (Sent.elapsed_mono hle htrue)

theorem Tracks.later {d : NotificationDispatcher β} (h : Tracks now history d)
    (hle : now ≤ now') : Tracks now' history d where
  keyed := h.keyed
  indexed := h.indexed
  backed hlookup := by
    obtain ⟨s, hs, hhandle, htogether⟩ := h.backed hlookup
    exact ⟨s, hs, hhandle, htogether.mono hle⟩
  held hs helapsed := by
    obtain ⟨e, he, htogether⟩ := h.held hs (Sent.not_elapsed hle helapsed)
    exact ⟨e, he, htogether.mono hle⟩

theorem Tracks.shows {r : Run β} (h : Tracks r.now r.history r.dispatcher) : Shows r := by
  intro t ht handle n
  constructor
  · rintro ⟨e, he, rfl, rfl⟩
    obtain ⟨key, hlookup, hexpired⟩ := mem_activeNotifications.mp he
    obtain ⟨s, hs, hhandle, hnotification, hends⟩ := h.backed hlookup
    refine ⟨s, hs, hhandle.trans (h.keyed hlookup).symm, hnotification, ?_⟩
    rw [← hends t ht, hexpired]
  · rintro ⟨s, hs, rfl, rfl, helapsed⟩
    obtain ⟨e, hlookup, hnotification, hends⟩ := h.held hs (Sent.not_elapsed ht helapsed)
    refine ⟨e, mem_activeNotifications.mpr ⟨_, hlookup, ?_⟩, h.keyed hlookup, hnotification.symm⟩
    rw [hends t ht, helapsed]

-- ---------------------------------------------------------------------------
-- What one call keeps
-- ---------------------------------------------------------------------------

theorem Tracks.lookup_index_takeOut {d : NotificationDispatcher β} (h : Tracks now history d)
    (handle : Nat) : (takeOut d handle).groupIndex.lookup g = some h' ↔
      d.groupIndex.lookup g = some h' ∧ h' ≠ handle := by
  rw [takeOut]
  split
  · next hnone =>
    refine ⟨fun hindex => ⟨hindex, ?_⟩, And.left⟩
    rintro rfl
    obtain ⟨e, he, -⟩ := h.indexed.mp hindex
    cases hnone.symm.trans he
  · next entry hentry =>
    cases hgroup : entry.notification.groupWith with
    | none =>
      refine ⟨fun hindex => ⟨hindex, ?_⟩, And.left⟩
      rintro rfl
      obtain ⟨e, he, heg⟩ := h.indexed.mp hindex
      obtain rfl := Option.some.inj (hentry.symm.trans he)
      cases hgroup.symm.trans heg
    | some groupId =>
      have hindexed := h.indexed.mpr ⟨entry, hentry, hgroup⟩
      simp only [hindexed, if_true, Table.lookup_erase_ite]
      split
      · next heq =>
        rw [heq, hindexed]
        simp [eq_comm]
      · next hne =>
        refine ⟨fun hindex => ⟨hindex, ?_⟩, And.left⟩
        rintro rfl
        obtain ⟨e, he, heg⟩ := h.indexed.mp hindex
        obtain rfl := Option.some.inj (hentry.symm.trans he)
        exact hne (Option.some.inj (heg.symm.trans hgroup))

/-- An entry may go once no send that is still due stands under its handle. -/
theorem Tracks.takeOut {d : NotificationDispatcher β} (h : Tracks now history d)
    (hfewer : ∀ s ∈ standing history', s ∈ standing history ∧
      (s.handle = handle → s.elapsed now = true))
    (hother : ∀ s ∈ standing history, s.handle ≠ handle → s ∈ standing history') :
    Tracks now history' (takeOut d handle) where
  keyed hlookup := by
    rw [lookup_takeOut, Option.ite_none_left_eq_some] at hlookup
    exact h.keyed hlookup.2
  indexed := by
    intro g h'
    rw [h.lookup_index_takeOut, h.indexed]
    simp only [lookup_takeOut, Option.ite_none_left_eq_some]
    constructor
    · rintro ⟨⟨e, he, hgroup⟩, hne⟩
      exact ⟨e, ⟨hne, he⟩, hgroup⟩
    · rintro ⟨e, ⟨hne, he⟩, hgroup⟩
      exact ⟨⟨e, he, hgroup⟩, hne⟩
  backed hlookup := by
    rw [lookup_takeOut, Option.ite_none_left_eq_some] at hlookup
    obtain ⟨s, hs, hhandle, htogether⟩ := h.backed hlookup.2
    exact ⟨s, hother s hs (hhandle ▸ hlookup.1), hhandle, htogether⟩
  held hs helapsed := by
    obtain ⟨hs, hdue⟩ := hfewer _ hs
    obtain ⟨e, he, htogether⟩ := h.held hs helapsed
    refine ⟨e, ?_, htogether⟩
    rw [lookup_takeOut, if_neg fun heq => ?_, he]
    exact Bool.false_ne_true (helapsed.symm.trans (hdue heq))

theorem Tracks.cancelled {d : NotificationDispatcher β} (h : Tracks now history d)
    (handle : Nat) :
    Tracks now (.cancelled handle :: history) (Notifications.takeOut d handle) := by
  refine h.takeOut (fun s hs => ?_) fun s hs hne => mem_standing_cancelled.mpr ⟨hs, hne⟩
  obtain ⟨hs, hne⟩ := mem_standing_cancelled.mp hs
  exact ⟨hs, fun heq => absurd heq hne⟩

/-- What has expired stands for a send whose time has elapsed. -/
theorem Tracks.expired {d : NotificationDispatcher β} (h : Tracks now history d)
    (hexpired : ∀ e, d.active.lookup handle = some e → e.expired now = true) :
    Tracks now history (Notifications.takeOut d handle) := by
  refine h.takeOut (fun s hs => ⟨hs, ?_⟩) fun s hs _ => hs
  rintro rfl
  by_contra helapsed
  rw [Bool.not_eq_true] at helapsed
  obtain ⟨e, he, -, hends⟩ := h.held hs helapsed
  rw [← hends now (Nat.le_refl now), hexpired e he] at helapsed
  cases helapsed

theorem Tracks.pruned {d : NotificationDispatcher β} (h : Tracks now history d)
    {handles : List Nat} (hexpired : ∀ handle ∈ handles, ∀ e,
      d.active.lookup handle = some e → e.expired now = true) :
    Tracks now history (handles.foldl Notifications.takeOut d) := by
  induction handles generalizing d with
  | nil => exact h
  | cons handle handles ih =>
    refine ih (h.expired (hexpired handle (List.mem_cons_self ..))) fun other hother e he => ?_
    rw [lookup_takeOut, Option.ite_none_left_eq_some] at he
    exact hexpired other (List.mem_cons_of_mem _ hother) e he.2

theorem Tracks.activeNotifications {d : NotificationDispatcher β} (h : Tracks now history d) :
    Tracks now history (activeNotifications d now).2 := by
  refine h.pruned fun handle hmem e he => ?_
  obtain ⟨e', he', hexpired⟩ := mem_expiredHandles.mp hmem
  rwa [Option.some.inj (he.symm.trans he')]

/-- An entry is put in for a new send: no other entry has its group, and the entry it takes the
place of, if there is one, has. -/
theorem Tracks.put {d : NotificationDispatcher β} {e : ActiveNotification β}
    (h : Tracks now history d) (d' : NotificationDispatcher β)
    (hactive : ∀ h', d'.active.lookup h' = if h' = e.handle then some e else d.active.lookup h')
    (hindex : ∀ g h', d'.groupIndex.lookup g = some h' ↔
      if e.notification.groupWith = some g then h' = e.handle
      else d.groupIndex.lookup g = some h')
    (hgroup : ∀ g h' e', e.notification.groupWith = some g → d.active.lookup h' = some e' →
      e'.notification.groupWith = some g → h' = e.handle)
    (hplace : ∀ e', d.active.lookup e.handle = some e' →
      ∃ g, e.notification.groupWith = some g ∧ e'.notification.groupWith = some g)
    (htogether : Together now e ⟨now, e.handle, e.notification⟩) :
    Tracks now (.sent ⟨now, e.handle, e.notification⟩ :: history) d' where
  keyed hlookup := by
    rw [hactive] at hlookup
    split at hlookup
    · next heq => rw [← Option.some.inj hlookup, heq]
    · exact h.keyed hlookup
  indexed := by
    intro g h'
    rw [hindex]
    by_cases hg : e.notification.groupWith = some g
    · rw [if_pos hg]
      constructor
      · rintro rfl
        exact ⟨e, by rw [hactive, if_pos rfl], hg⟩
      · rintro ⟨e', he', hg'⟩
        rw [hactive] at he'
        split at he'
        · assumption
        · exact hgroup g h' e' hg he' hg'
    · rw [if_neg hg, h.indexed]
      constructor
      · rintro ⟨e', he', hg'⟩
        refine ⟨e', ?_, hg'⟩
        rw [hactive, if_neg, he']
        rintro rfl
        obtain ⟨g', hown, hold⟩ := hplace e' he'
        exact hg (hown.trans (hold.symm.trans hg'))
      · rintro ⟨e', he', hg'⟩
        rw [hactive] at he'
        split at he'
        · exact absurd (Option.some.inj he' ▸ hg') hg
        · exact ⟨e', he', hg'⟩
  backed := by
    intro h' e' hlookup
    rw [hactive] at hlookup
    split at hlookup
    · next heq =>
      obtain rfl := Option.some.inj hlookup
      exact ⟨_, mem_standing_sent.mpr (.inl rfl), heq.symm, htogether⟩
    · next hne =>
      obtain ⟨s, hs, hhandle, hends⟩ := h.backed hlookup
      refine ⟨s, mem_standing_sent.mpr (.inr ⟨hs, ?_⟩), hhandle, hends⟩
      rw [← Bool.not_eq_true, retires_sent]
      rintro ⟨g, hg, hsg⟩
      exact hne (hgroup g h' e' hg hlookup (hends.1 ▸ hsg))
  held := by
    intro s hs helapsed
    rcases mem_standing_sent.mp hs with rfl | ⟨hs, hretires⟩
    · exact ⟨e, by rw [hactive, if_pos rfl], htogether⟩
    · obtain ⟨e', he', hends⟩ := h.held hs helapsed
      refine ⟨e', ?_, hends⟩
      rw [hactive, if_neg, he']
      intro heq
      obtain ⟨g, hown, hold⟩ := hplace e' (heq ▸ he')
      rw [← Bool.not_eq_true, retires_sent] at hretires
      exact hretires ⟨g, hown, hends.1 ▸ hold⟩

/-- The entry that a send is coalesced onto ends with it, if and only if the send asks for
what is left. -/
theorem together_coalesce_iff {entry : ActiveNotification β} {n : Notification β} (handle : Nat) :
    Together now (entry.coalesce n) ⟨now, handle, n⟩ ↔
      entry.autoDismissAt.map (· - now) = n.autoDismissAfter := by
  simp only [Together, ActiveNotification.expired, ActiveNotification.coalesce, Sent.elapsed,
    true_and]
  cases entry.autoDismissAt with
  | none =>
    cases n.autoDismissAfter with
    | none => simp
    | some d => simpa using ⟨now + d, Nat.le_add_right now d, Nat.le_refl _⟩
  | some deadline =>
    cases n.autoDismissAfter with
    | none => simpa using ⟨max now deadline, Nat.le_max_left .., Nat.le_max_right ..⟩
    | some d =>
      simp only [Option.map_some, Option.any_some, decide_eq_decide, Option.some.injEq]
      constructor
      · intro h
        have hdue := (h (max now deadline) (Nat.le_max_left ..)).mp (Nat.le_max_right ..)
        have hend := (h (now + d) (Nat.le_add_right now d)).mpr (Nat.le_refl _)
        omega
      · intro h t ht
        omega

theorem Tracks.send {d d' : NotificationDispatcher β} (h : Tracks now history d)
    (hsend : Notifications.send d n nowMin now = .ok ((handle, mode), d'))
    (hstep : match representative d n with
      | some (_, entry) => entry.autoDismissAt.map (· - now) = n.autoDismissAfter
      | none => (d.active.lookup d.nextHandle).isNone) :
    Tracks now (.sent ⟨now, handle, n⟩ :: history) d' := by
  rw [Notifications.send] at hsend
  cases hvalid : validate n with
  | error e => simp [hvalid] at hsend
  | ok u =>
    cases hrep : representative d n with
    | some found =>
      obtain ⟨existing, entry⟩ := found
      obtain ⟨groupId, hgroup, hindex, hentry⟩ := representative_eq_some.mp hrep
      obtain ⟨e, he, heg⟩ := h.indexed.mp hindex
      obtain rfl := Option.some.inj (hentry.symm.trans he)
      simp only [hvalid, hrep, Except.ok.injEq, Prod.mk.injEq] at hsend hstep
      obtain ⟨⟨rfl, -⟩, rfl⟩ := hsend
      obtain rfl : entry.handle = existing := h.keyed hentry
      refine h.put (e := entry.coalesce n) _ (fun h' => Table.lookup_insert_ite ..) ?_ ?_ ?_
        ((together_coalesce_iff _).mpr hstep)
      · intro g h'
        show _ ↔ if n.groupWith = some g then _ else _
        split
        · next hg =>
          obtain rfl := Option.some.inj (hgroup.symm.trans hg)
          rw [hindex, Option.some.injEq, eq_comm]
          rfl
        · rfl
      · intro g h' e' hg he' hg'
        obtain rfl := Option.some.inj (hgroup.symm.trans hg)
        exact (Option.some.inj (hindex.symm.trans (h.indexed.mpr ⟨e', he', hg'⟩))).symm
      · intro e' he'
        obtain rfl := Option.some.inj (hentry.symm.trans he')
        exact ⟨groupId, hgroup, heg⟩
    | none =>
      simp only [hvalid, hrep, Except.ok.injEq, Prod.mk.injEq] at hsend hstep
      obtain ⟨⟨rfl, -⟩, rfl⟩ := hsend
      have hnone : ∀ g, n.groupWith = some g → ∀ h', d.groupIndex.lookup g ≠ some h' := by
        intro g hg h' hindex
        obtain ⟨e', he', -⟩ := h.indexed.mp hindex
        cases (representative_eq_none.mp hrep g hg h' hindex).symm.trans he'
      refine h.put (e := d.mint n nowMin now) _ (fun h' => Table.lookup_insert_ite ..) ?_ ?_ ?_ ?_
      · intro g h'
        show _ ↔ if n.groupWith = some g then _ else _
        cases hgroup : n.groupWith with
        | none => simp
        | some groupId =>
          simp only [Table.lookup_insert_ite, Option.some.injEq]
          by_cases hg : g = groupId
          · simp [hg, eq_comm]
          · simp [hg, Ne.symm hg]
      · intro g h' e' hg he' hg'
        exact absurd (h.indexed.mpr ⟨e', he', hg'⟩) (hnone g hg h')
      · intro e' he'
        cases (Option.isNone_iff_eq_none.mp hstep).symm.trans he'
      · refine ⟨rfl, fun t _ => ?_⟩
        simp only [ActiveNotification.expired, NotificationDispatcher.mint, Sent.elapsed]
        cases n.autoDismissAfter <;> rfl

theorem Tracks.start (baseMode : NotificationMode) (quietHours : QuietHoursPolicy) :
    Tracks 0 [] (.new baseMode quietHours : NotificationDispatcher β) where
  keyed h := by cases h
  indexed := by simp [NotificationDispatcher.new]
  backed h := by cases h
  held h := by cases h

theorem Tracks.call {r : Run β} (h : Tracks r.now r.history r.dispatcher) (hle : r.now ≤ now)
    (c : Call β) (hc : inStep r (now, c)) :
    Tracks (r.call now c).now (r.call now c).history (r.call now c).dispatcher := by
  have hlater := h.later hle
  cases c with
  | send n nowMin =>
    rw [Run.call]
    cases hsend : Notifications.send r.dispatcher n nowMin now with
    | error e => exact hlater
    | ok reply =>
      obtain ⟨⟨handle, mode⟩, d⟩ := reply
      refine hlater.send hsend (hc ?_)
      cases hvalid : validate n with
      | ok u => rfl
      | error e => simp [Notifications.send, hvalid] at hsend
  | cancel handle =>
    rw [Run.call, cancel]
    cases r.dispatcher.active.lookup handle with
    | none => exact hlater
    | some entry => exact hlater.cancelled handle
  | activeNotifications => exact hlater.activeNotifications

theorem Tracks.step {r r' : Run β} (h : Tracks r.now r.history r.dispatcher)
    (ha : inStep r a) (hs : step r a = some r') : Tracks r'.now r'.history r'.dispatcher := by
  obtain ⟨now, c⟩ := a
  rw [Notifications.step, Option.ite_none_right_eq_some] at hs
  obtain ⟨hle, hs⟩ := hs
  rw [← Option.some.inj hs]
  exact h.call hle c ha

-- ---------------------------------------------------------------------------
-- What a snapshot shows
-- ---------------------------------------------------------------------------

/-- The snapshots of every state are right in a run whose coalesced sends all ask for the
time their entries have left. -/
theorem shows_of_meets {baseMode : NotificationMode} {quietHours : QuietHoursPolicy}
    {calls : List (Nat × Call β)} (hm : Meets step inStep (.start baseMode quietHours) calls) :
    ∀ before after, calls = before ++ after → ∀ r,
      exec step (.start baseMode quietHours) before = some r → Shows r := by
  rintro before after rfl r he
  refine Tracks.shows ?_
  exact exec_invariant (I := fun r : Run β => Tracks r.now r.history r.dispatcher)
    (fun h ha hs => h.step ha hs) (Tracks.start baseMode quietHours) hm.left he

def doorbell (autoDismissAfter : Option Nat) : Notification Unit :=
  { sourcePlugin := "org.example.doorbell", titleKey := "rang", priority := .routine,
    groupWith := some "doorbell", autoDismissAfter, body := () }

/-- Two rings that end together, and one after them that has the group to itself. -/
theorem shows_of_meets_rings : ∃ r,
    exec step (.start .displayOnly {}) [(0, .send (doorbell (some 10)) 720),
      (4, .send (doorbell (some 6)) 720), (9, .activeNotifications),
      (10, .activeNotifications), (11, .send (doorbell none) 720)] = some r ∧ Shows r := by
  obtain ⟨r, hr, -⟩ := exec_of_any step (Run.start .displayOnly {})
    [(0, .send (doorbell (some 10)) 720), (4, .send (doorbell (some 6)) 720),
      (9, .activeNotifications), (10, .activeNotifications), (11, .send (doorbell none) 720)]
    (fun _ => true) (by decide +kernel)
  exact ⟨r, hr, shows_of_meets (by decide +kernel) _ [] rfl r hr⟩

/-- The second ring is to stay, and is gone when the first has had its second. -/
theorem not_shows_follow_up : ¬ ∀ (calls : List (Nat × Call Unit)) r,
    exec step (.start .displayOnly {}) calls = some r → Shows r := by
  intro h
  obtain ⟨r, hr, hgone⟩ := exec_of_any step (Run.start .displayOnly {})
    [(0, .send (doorbell (some 1000)) 720), (500, .send (doorbell none) 720)]
    (fun r => decide (r.now ≤ 1000) && (activeNotifications r.dispatcher 1000).1.isEmpty &&
      decide ((⟨500, 0, doorbell none⟩ : Sent Unit) ∈ standing r.history)) (by decide +kernel)
  simp only [Bool.and_eq_true, decide_eq_true_eq, List.isEmpty_iff] at hgone
  obtain ⟨⟨hle, hempty⟩, hstands⟩ := hgone
  obtain ⟨e, he, -⟩ := (h _ r hr 1000 hle 0 (doorbell none)).mpr ⟨_, hstands, rfl, rfl, rfl⟩
  rw [hempty] at he
  cases he

/-- A send that is coalesced and asks for another time is lost early or shown too long. -/
theorem not_shows_of_coalesced {r : Run β} (h : Tracks r.now r.history r.dispatcher)
    (hvalid : validate n = .ok ())
    (hrep : representative r.dispatcher n = some (existing, entry))
    (htime : entry.autoDismissAt.map (· - now) ≠ n.autoDismissAfter) (nowMin : Nat) :
    ¬Shows (r.call now (.send n nowMin)) := by
  obtain ⟨groupId, hgroup, -, hentry⟩ := representative_eq_some.mp hrep
  rw [Run.call, send, hvalid, hrep]
  intro hshows
  refine htime ((together_coalesce_iff existing).mp ⟨rfl, fun t ht => ?_⟩)
  have hshown := hshows t ht existing n
  have hhandle : entry.handle = existing := h.keyed hentry
  simp only [mem_activeNotifications, mem_standing_sent, Table.lookup_insert_ite] at hshown
  cases hexpired : (entry.coalesce n).expired t with
  | false =>
    obtain ⟨s, rfl | ⟨-, hretires⟩, -, hn, helapsed⟩ := hshown.mp
      ⟨entry.coalesce n, ⟨existing, if_pos rfl, hexpired⟩, hhandle, rfl⟩
    · exact helapsed.symm
    · -- An older send of the same payload is one of the group, and no longer stands.
      rw [← Bool.not_eq_true, retires_sent] at hretires
      exact absurd ⟨groupId, hgroup, hn ▸ hgroup⟩ hretires
  | true =>
    by_contra helapsed
    obtain ⟨e, ⟨key, hlookup, hlive⟩, he, -⟩ := hshown.mpr
      ⟨_, .inl rfl, rfl, rfl, Bool.eq_false_iff.mpr (Ne.symm helapsed)⟩
    split at hlookup
    · obtain rfl := Option.some.inj hlookup
      exact Bool.false_ne_true (hlive.symm.trans hexpired)
    · next hne => exact hne ((h.keyed hlookup).symm.trans he)

end EvoAudio.Notifications
