import Mathlib.Data.List.Sort
import EvoAudio.Lib.Paging
import EvoAudio.Lib.Table

/-!
# The notification dispatcher

The registry of active notifications: `send` resolves a mode, coalesces onto the entry
of the group or mints a handle, `cancel` takes an entry out, and `activeNotifications`
takes out what has expired and lists the rest. Times are instants in nanoseconds. What a
notification carries beside the fields read here is left open.
-/

namespace EvoAudio.Notifications

-- ---------------------------------------------------------------------------
-- Quiet hours
-- ---------------------------------------------------------------------------

inductive NotificationMode where
  | displayOnly
  | chime
  | voice
deriving DecidableEq, Repr

inductive NotificationPriority where
  | routine
  | important
  | critical
deriving DecidableEq, Repr

structure QuietHoursWindow where
  startMin : Nat
  endMin : Nat
deriving DecidableEq, Repr

def QuietHoursWindow.contains (w : QuietHoursWindow) (nowMin : Nat) : Bool :=
  if w.startMin ≤ w.endMin then
    decide (w.startMin ≤ nowMin) && decide (nowMin < w.endMin)
  else
    -- The window wraps midnight.
    decide (w.startMin ≤ nowMin) || decide (nowMin < w.endMin)

structure QuietHoursPolicy where
  enabled : Bool := false
  window : Option QuietHoursWindow := none
  modeOverride : NotificationMode := .displayOnly
  allowCritical : Bool := true
deriving DecidableEq, Repr

def resolveActiveMode (base : NotificationMode) (policy : QuietHoursPolicy) (nowMin : Nat)
    (priority : NotificationPriority) : NotificationMode :=
  if !policy.enabled then base
  else
    match policy.window with
    | none => base
    | some window =>
      if !window.contains nowMin then base
      else if priority = .critical && policy.allowCritical then base
      else policy.modeOverride

/-- Outside the quiet hours, and for what may break them, the base mode stands. -/
theorem resolveActiveMode_eq (base : NotificationMode) (policy : QuietHoursPolicy) (nowMin : Nat)
    (priority : NotificationPriority) :
    resolveActiveMode base policy nowMin priority =
      if policy.enabled ∧ policy.window.any (·.contains nowMin) ∧
          ¬(priority = .critical ∧ policy.allowCritical) then
        policy.modeOverride
      else base := by
  rw [resolveActiveMode]
  cases policy.enabled with
  | false => simp
  | true =>
    cases policy.window with
    | none => simp
    | some window =>
      cases hcontains : window.contains nowMin with
      | false => simp [hcontains]
      | true => cases policy.allowCritical <;> cases priority <;> simp [hcontains]

-- ---------------------------------------------------------------------------
-- The registry
-- ---------------------------------------------------------------------------

structure Notification (β : Type) where
  sourcePlugin : String
  titleKey : String
  priority : NotificationPriority
  groupWith : Option String
  autoDismissAfter : Option Nat
  body : β
deriving DecidableEq

structure ActiveNotification (β : Type) where
  handle : Nat
  notification : Notification β
  resolvedMode : NotificationMode
  autoDismissAt : Option Nat
  groupCount : Nat

inductive NotificationError where
  | invalid (message : String)
  | handleNotFound (handle : Nat)
deriving DecidableEq, Repr

structure NotificationDispatcher (β : Type) where
  baseMode : NotificationMode
  quietHours : QuietHoursPolicy
  active : AList fun _ : Nat => ActiveNotification β
  groupIndex : AList fun _ : String => Nat
  /-- A 64-bit counter. -/
  nextHandle : Nat

variable {β : Type}

def NotificationDispatcher.new (baseMode : NotificationMode) (quietHours : QuietHoursPolicy) :
    NotificationDispatcher β :=
  { baseMode, quietHours, active := ∅, groupIndex := ∅, nextHandle := 0 }

def validate (n : Notification β) : Except NotificationError Unit :=
  if n.sourcePlugin = "" then .error (.invalid "source_plugin is empty")
  else if n.titleKey = "" then .error (.invalid "title_key is empty")
  else .ok ()

/-- The handle and the entry that a send is coalesced onto: the group is indexed, and
the index leads to an active entry. -/
def representative (d : NotificationDispatcher β) (n : Notification β) :
    Option (Nat × ActiveNotification β) := do
  let groupId ← n.groupWith
  let existing ← d.groupIndex.lookup groupId
  let entry ← d.active.lookup existing
  return (existing, entry)

/-- The newest payload replaces the old one; handle, mode and deadline stay. -/
def ActiveNotification.coalesce (entry : ActiveNotification β) (n : Notification β) :
    ActiveNotification β :=
  { entry with groupCount := min (entry.groupCount + 1) (2 ^ 32 - 1), notification := n }

def NotificationDispatcher.mint (d : NotificationDispatcher β) (n : Notification β)
    (nowMin now : Nat) : ActiveNotification β :=
  { handle := d.nextHandle
    notification := n
    resolvedMode := resolveActiveMode d.baseMode d.quietHours nowMin n.priority
    autoDismissAt := n.autoDismissAfter.map (now + ·)
    groupCount := 1 }

def send (d : NotificationDispatcher β) (n : Notification β) (nowMin now : Nat) :
    Except NotificationError ((Nat × NotificationMode) × NotificationDispatcher β) :=
  match validate n with
  | .error e => .error e
  | .ok () =>
    match representative d n with
    | some (existing, entry) =>
      .ok ((existing, entry.resolvedMode),
        { d with active := d.active.insert existing (entry.coalesce n) })
    | none =>
      let entry := d.mint n nowMin now
      .ok ((entry.handle, entry.resolvedMode),
        { d with
          active := d.active.insert entry.handle entry
          groupIndex := match n.groupWith with
            | some groupId => d.groupIndex.insert groupId entry.handle
            | none => d.groupIndex
          nextHandle := (d.nextHandle + 1) % 2 ^ 64 })

/-- A cancel and the pruning both take an entry out this way: its group is forgotten
with it when the entry was the one indexed. -/
def takeOut (d : NotificationDispatcher β) (handle : Nat) : NotificationDispatcher β :=
  match d.active.lookup handle with
  | none => d
  | some entry =>
    { d with
      active := d.active.erase handle
      groupIndex := match entry.notification.groupWith with
        | some groupId =>
          if d.groupIndex.lookup groupId = some handle then d.groupIndex.erase groupId
          else d.groupIndex
        | none => d.groupIndex }

def cancel (d : NotificationDispatcher β) (handle : Nat) :
    Except NotificationError (NotificationDispatcher β) :=
  match d.active.lookup handle with
  | none => .error (.handleNotFound handle)
  | some _ => .ok (takeOut d handle)

def ActiveNotification.expired (e : ActiveNotification β) (now : Nat) : Bool :=
  e.autoDismissAt.any (· ≤ now)

def expiredHandles (d : NotificationDispatcher β) (now : Nat) : List Nat :=
  d.active.entries.filterMap fun e => if e.2.expired now then some e.1 else none

def activeNotifications (d : NotificationDispatcher β) (now : Nat) :
    List (ActiveNotification β) × NotificationDispatcher β :=
  let d := (expiredHandles d now).foldl takeOut d
  ((d.active.entries.map (·.2)).insertionSort fun a b => a.handle ≤ b.handle, d)

-- ---------------------------------------------------------------------------
-- What an operation leaves
-- ---------------------------------------------------------------------------

theorem representative_eq_some {d : NotificationDispatcher β} {n : Notification β} :
    representative d n = some (existing, entry) ↔ ∃ groupId, n.groupWith = some groupId ∧
      d.groupIndex.lookup groupId = some existing ∧ d.active.lookup existing = some entry := by
  simp [representative, Option.bind_eq_some_iff]

theorem representative_eq_none {d : NotificationDispatcher β} {n : Notification β} :
    representative d n = none ↔ ∀ groupId, n.groupWith = some groupId →
      ∀ existing, d.groupIndex.lookup groupId = some existing →
        d.active.lookup existing = none := by
  rw [Option.eq_none_iff_forall_ne_some]
  constructor
  · intro h groupId hgroup existing hindex
    refine Option.eq_none_iff_forall_ne_some.mpr fun entry hentry => ?_
    exact h (existing, entry) (representative_eq_some.mpr ⟨groupId, hgroup, hindex, hentry⟩)
  · rintro h ⟨existing, entry⟩ hsome
    obtain ⟨groupId, hgroup, hindex, hentry⟩ := representative_eq_some.mp hsome
    simp [h groupId hgroup existing hindex] at hentry

theorem lookup_takeOut (d : NotificationDispatcher β) (handle h : Nat) :
    (takeOut d handle).active.lookup h = if h = handle then none else d.active.lookup h := by
  rw [takeOut]
  split
  · next hnone =>
    split
    · next heq => rw [heq, hnone]
    · rfl
  · exact Table.lookup_erase_ite d.active handle h

theorem lookup_pruned (d : NotificationDispatcher β) (handles : List Nat) (h : Nat) :
    (handles.foldl takeOut d).active.lookup h =
      if h ∈ handles then none else d.active.lookup h := by
  induction handles generalizing d with
  | nil => simp
  | cons handle handles ih =>
    rw [List.foldl_cons, ih, lookup_takeOut]
    by_cases hmem : h ∈ handles
    · simp [hmem]
    · by_cases heq : h = handle <;> simp [hmem, heq]

theorem mem_expiredHandles {d : NotificationDispatcher β} :
    h ∈ expiredHandles d now ↔ ∃ e, d.active.lookup h = some e ∧ e.expired now = true := by
  simp only [expiredHandles, List.mem_filterMap, Option.ite_none_right_eq_some, Option.some.injEq]
  constructor
  · rintro ⟨⟨key, e⟩, hmem, hexpired, rfl⟩
    exact ⟨e, AList.mem_lookup_iff.mpr hmem, hexpired⟩
  · rintro ⟨e, hlookup, hexpired⟩
    exact ⟨⟨h, e⟩, AList.mem_lookup_iff.mp hlookup, hexpired, rfl⟩

/-- The snapshot lists what is held and has not expired. -/
theorem mem_activeNotifications {d : NotificationDispatcher β} :
    e ∈ (activeNotifications d now).1 ↔
      ∃ h, d.active.lookup h = some e ∧ e.expired now = false := by
  simp only [activeNotifications, List.mem_insertionSort, List.mem_map]
  constructor
  · rintro ⟨⟨h, entry⟩, hmem, rfl⟩
    have hlookup := AList.mem_lookup_iff.mpr hmem
    rw [Option.mem_def, lookup_pruned, Option.ite_none_left_eq_some] at hlookup
    refine ⟨h, hlookup.2, ?_⟩
    cases hexpired : entry.expired now with
    | false => rfl
    | true => exact absurd (mem_expiredHandles.mpr ⟨entry, hlookup.2, hexpired⟩) hlookup.1
  · rintro ⟨h, hlookup, hexpired⟩
    refine ⟨⟨h, e⟩, AList.mem_lookup_iff.mp ?_, rfl⟩
    rw [Option.mem_def, lookup_pruned, Option.ite_none_left_eq_some]
    refine ⟨fun hmem => ?_, hlookup⟩
    obtain ⟨entry, hentry, htrue⟩ := mem_expiredHandles.mp hmem
    obtain rfl := Option.some.inj (hlookup.symm.trans hentry)
    exact Bool.false_ne_true (hexpired.symm.trans htrue)

theorem sorted_activeNotifications (d : NotificationDispatcher β) (now : Nat) :
    (activeNotifications d now).1.Pairwise fun a b => a.handle ≤ b.handle :=
  Paging.pairwise_insertionSort_key _ _

end EvoAudio.Notifications
