import EvoAudio.Lib.Machine
import EvoAudio.Lib.Pool

/-!
# The resolve coalescer

`ArtworkResolveCoalescer` of
`evo-device-audio-http/src/artwork_resolve_coalescer.rs` for one key: a memo of
the last outcome, and a slot for the call that is fetching. A call looks at the
memo and then at the slot, in two critical sections. The fetcher writes the memo
and then frees the slot; it frees the slot as well when it is cancelled.
-/

namespace EvoAudio.Artwork

/-- `RESOLVE_MEMO_TTL` in milliseconds. -/
def resolveMemoTtl : Nat := 30000

/-- `INFLIGHT_WAIT_DEADLINE` in milliseconds. -/
def inflightWaitDeadline : Nat := 30000

structure MemoEntry (ο : Type) where
  outcome : ο
  expiresAt : Nat
  deriving DecidableEq, Repr

def MemoEntry.isFresh (now : Nat) (entry : MemoEntry ο) : Bool := now < entry.expiresAt

/-- What the coalescer keeps for a key. Calls are numbered, and a flight has the
number of the call that fetches. -/
structure Slot (ο : Type) where
  memo : Option (MemoEntry ο)
  inflight : Option Nat
  /-- The flights that are over; one without an outcome closed its channel. -/
  landed : List (Nat × Option ο)
  deriving DecidableEq, Repr

namespace Slot

variable {ο : Type}

def empty : Slot ο := ⟨none, none, []⟩

/-- The memo check: a fresh outcome, or a memo without a stale one. -/
def checkMemo (now : Nat) (slot : Slot ο) : Option ο × Slot ο :=
  match slot.memo with
  | some entry =>
    if entry.isFresh now then (some entry.outcome, slot)
    else (none, { slot with memo := none })
  | none => (none, slot)

def memoize (ttl now : Nat) (outcome : ο) (slot : Slot ο) : Slot ο :=
  { slot with memo := some ⟨outcome, now + ttl⟩ }

/-- The drop of an `InflightGuard`. -/
def release (flight : Nat) (outcome : Option ο) (slot : Slot ο) : Slot ο :=
  { slot with inflight := none, landed := (flight, outcome) :: slot.landed }

def forget (slot : Slot ο) : Slot ο := { slot with memo := none }

end Slot

/-- What a call returns: an outcome, its own or another's, or
`WaitDeadlineElapsed` with the time it waited. -/
inductive Answer (ο : Type) where
  | outcome (outcome : ο)
  | waitDeadlineElapsed (waitedMs : Nat)
  deriving DecidableEq, Repr

namespace Coalescing

variable {ο : Type}

/-- Where a call of `resolve_or_coalesce` has got to. -/
inductive Call (ο : Type) where
  | memoCheck
  | inflightCheck
  | waiting (flight since : Nat)
  | fetching
  /-- The fetcher is back, and its outcome is to be memoised. -/
  | fetched (outcome : ο)
  /-- The slot is to be freed. -/
  | memoised (outcome : ο)
  | returned (answer : Answer ο)
  | cancelled
  deriving DecidableEq, Repr

/-- The call has the slot. -/
def Call.holds : Call ο → Bool
  | .fetching => true
  | .fetched _ => true
  | .memoised _ => true
  | _ => false

inductive Mark where
  | started (time : Nat)
  | completed (time : Nat)
  deriving DecidableEq, Repr

structure Shared (ο : Type) where
  slot : Slot ο
  now : Nat
  /-- When fetchers started and when they completed, in that order of events. -/
  marks : List Mark
  deriving DecidableEq, Repr

section Steps

variable (ttl waitDeadline : Nat)

/-- The next critical section of the call with a number. -/
def next (me : Nat) (s : Shared ο) : Call ο → Option (Shared ο × Call ο)
  | .memoCheck =>
    let checked := s.slot.checkMemo s.now
    match checked.1 with
    | some outcome => some ({ s with slot := checked.2 }, .returned (.outcome outcome))
    | none => some ({ s with slot := checked.2 }, .inflightCheck)
  | .inflightCheck =>
    match s.slot.inflight with
    | some flight => some (s, .waiting flight s.now)
    | none =>
      some ({ s with slot := { s.slot with inflight := some me },
                     marks := s.marks ++ [.started s.now] }, .fetching)
  | .waiting flight _ =>
    match s.slot.landed.lookup flight with
    | some (some outcome) => some (s, .returned (.outcome outcome))
    | some none => some (s, .memoCheck)
    | none => none
  | .fetched outcome =>
    some ({ s with slot := s.slot.memoize ttl s.now outcome }, .memoised outcome)
  | .memoised outcome =>
    some ({ s with slot := s.slot.release me (some outcome) }, .returned (.outcome outcome))
  | .fetching => none
  | .returned _ => none
  | .cancelled => none

def finish (outcome : ο) (s : Shared ο) : Call ο → Option (Shared ο × Call ο)
  | .fetching => some ({ s with marks := s.marks ++ [.completed s.now] }, .fetched outcome)
  | _ => none

/-- The timeout of a wait; a flight that has landed is received first. -/
def expire (s : Shared ο) : Call ο → Option (Shared ο × Call ο)
  | .waiting flight since =>
    if (s.slot.landed.lookup flight).isNone && since + waitDeadline ≤ s.now then
      some (s, .returned (.waitDeadlineElapsed (s.now - since)))
    else none
  | _ => none

/-- The future of the call is dropped at a point where it waits. -/
def cancel (me : Nat) (s : Shared ο) : Call ο → Option (Shared ο × Call ο)
  | .memoCheck => some (s, .cancelled)
  | .waiting _ _ => some (s, .cancelled)
  | .fetching => some ({ s with slot := s.slot.release me none }, .cancelled)
  | _ => none

inductive Action (ο : Type) where
  | call
  | go (i : Nat)
  | finish (i : Nat) (outcome : ο)
  | expire (i : Nat)
  | cancel (i : Nat)
  | tick (elapsed : Nat)
  deriving DecidableEq, Repr

def step (s : Pool (Shared ο) (Call ο)) : Action ο → Option (Pool (Shared ο) (Call ο))
  | .call => some (s.spawn .memoCheck)
  | .go i => s.turn (next ttl i) i
  | .finish i outcome => s.turn (finish outcome) i
  | .expire i => s.turn (expire waitDeadline) i
  | .cancel i => s.turn (cancel i) i
  | .tick elapsed => some { s with shared := { s.shared with now := s.shared.now + elapsed } }

def start : Pool (Shared ο) (Call ο) := ⟨⟨Slot.empty, 0, []⟩, []⟩

/-- No fetcher starts within the lifetime of a memo after another completed. -/
def Spaced : Mark → Mark → Prop
  | .completed c, .started t => c + ttl ≤ t
  | _, _ => True

/-- One fetcher at a time, and the fetchers spaced. -/
structure SingleFlight (s : Pool (Shared ο) (Call ο)) : Prop where
  alone : ∀ i j : Nat, s.tasks[i]? = some .fetching → s.tasks[j]? = some .fetching → i = j
  spaced : s.shared.marks.Pairwise (Spaced ttl)

/-- A call that finds the slot free finds no fresh memo then either. -/
def Rechecked (s : Pool (Shared ο) (Call ο)) : Action ο → Prop
  | .go i => s.tasks[i]? = some .inflightCheck → s.shared.slot.inflight = none →
      ∀ entry ∈ s.shared.slot.memo, entry.expiresAt ≤ s.shared.now
  | _ => True

end Steps

-- ---------------------------------------------------------------------------
-- The slot
-- ---------------------------------------------------------------------------

variable {ttl waitDeadline : Nat} {s s' : Shared ο} {call call' : Call ο} {me : Nat}

/-- The call has the slot exactly while it fetches and lands. -/
def Owns (s : Shared ο) (me : Nat) (call : Call ο) : Prop :=
  call.holds = true ↔ s.slot.inflight = some me

/-- What a turn of a call may do to the slot. -/
structure Fair (me : Nat) (s s' : Shared ο) (call' : Call ο) : Prop where
  own : Owns s' me call'
  others : ∀ j, j ≠ me → (s'.slot.inflight = some j ↔ s.slot.inflight = some j)

theorem checkMemo_inflight (now : Nat) (slot : Slot ο) :
    (slot.checkMemo now).2.inflight = slot.inflight := by
  unfold Slot.checkMemo
  split
  · split <;> rfl
  · rfl

theorem next_fair (howns : Owns s me call) (h : next ttl me s call = some (s', call')) :
    Fair me s s' call' := by
  cases call with
  | memoCheck =>
    simp only [next] at h
    split at h <;> cases h
    · exact ⟨by simpa [Owns, checkMemo_inflight, Call.holds] using howns,
        by simp [checkMemo_inflight]⟩
    · exact ⟨by simpa [Owns, checkMemo_inflight, Call.holds] using howns,
        by simp [checkMemo_inflight]⟩
  | inflightCheck =>
    simp only [next] at h
    split at h <;> cases h
    · exact ⟨by simpa [Owns, Call.holds] using howns, by simp⟩
    · rename_i hfree
      exact ⟨by simp [Owns, Call.holds], by simp [hfree, eq_comm]⟩
  | waiting flight since =>
    simp only [next] at h
    split at h <;> cases h
    · exact ⟨by simpa [Owns, Call.holds] using howns, by simp⟩
    · exact ⟨by simpa [Owns, Call.holds] using howns, by simp⟩
  | fetched outcome =>
    cases h
    exact ⟨by simpa [Owns, Call.holds, Slot.memoize] using howns, by simp [Slot.memoize]⟩
  | memoised outcome =>
    cases h
    have hmine : s.slot.inflight = some me := howns.mp rfl
    exact ⟨by simp [Owns, Call.holds, Slot.release], by simp [hmine, Slot.release, eq_comm]⟩
  | fetching => cases h
  | returned answer => cases h
  | cancelled => cases h

theorem finish_fair (howns : Owns s me call) (h : finish outcome s call = some (s', call')) :
    Fair me s s' call' := by
  cases call with
  | fetching =>
    cases h
    exact ⟨by simpa [Owns, Call.holds] using howns, by simp⟩
  | _ => cases h

theorem expire_fair (howns : Owns s me call) (h : expire waitDeadline s call = some (s', call')) :
    Fair me s s' call' := by
  cases call with
  | waiting flight since =>
    simp only [expire] at h
    split at h <;> cases h
    exact ⟨by simpa [Owns, Call.holds] using howns, by simp⟩
  | _ => cases h

theorem cancel_fair (howns : Owns s me call) (h : cancel me s call = some (s', call')) :
    Fair me s s' call' := by
  cases call with
  | memoCheck =>
    cases h
    exact ⟨by simpa [Owns, Call.holds] using howns, by simp⟩
  | waiting flight since =>
    cases h
    exact ⟨by simpa [Owns, Call.holds] using howns, by simp⟩
  | fetching =>
    cases h
    have hmine : s.slot.inflight = some me := howns.mp rfl
    exact ⟨by simp [Owns, Call.holds, Slot.release], by simp [hmine, Slot.release, eq_comm]⟩
  | _ => cases h

/-- A turn that is fair to the others keeps the slot with its owner. -/
theorem owns_turn {pool pool' : Pool (Shared ο) (Call ο)} {i : Nat}
    {f : Shared ο → Call ο → Option (Shared ο × Call ο)} (h : pool.Each Owns)
    (hfair : ∀ {call s' call'}, Owns pool.shared i call → f pool.shared call = some (s', call') →
      Fair i pool.shared s' call')
    (hturn : pool.turn f i = some pool') : pool'.Each Owns :=
  h.turn hturn (fun howns hf => (hfair howns hf).own) fun howns hf j _ hne hother =>
    hother.trans ((hfair howns hf).others j hne).symm

/-- The slot is with its owner, which is one of the calls. -/
structure Held (pool : Pool (Shared ο) (Call ο)) : Prop where
  owns : pool.Each Owns
  owner : ∀ i, pool.shared.slot.inflight = some i → i < pool.tasks.length

theorem held_turn {pool pool' : Pool (Shared ο) (Call ο)} {i : Nat}
    {f : Shared ο → Call ο → Option (Shared ο × Call ο)} (h : Held pool)
    (hfair : ∀ {call s' call'}, Owns pool.shared i call → f pool.shared call = some (s', call') →
      Fair i pool.shared s' call')
    (hturn : pool.turn f i = some pool') : Held pool' := by
  refine ⟨owns_turn h.owns hfair hturn, ?_⟩
  obtain ⟨call, s', call', hcall, hf, rfl⟩ := Pool.turn_eq_some.mp hturn
  intro j hj
  rw [List.length_set]
  by_cases hji : j = i
  · subst hji
    exact (List.getElem?_eq_some_iff.mp hcall).1
  · exact h.owner j (((hfair (h.owns i call hcall) hf).others j hji).mp hj)

theorem held_step {pool pool' : Pool (Shared ο) (Call ο)} (h : Held pool)
    (hstep : step ttl waitDeadline pool a = some pool') : Held pool' := by
  cases a with
  | call =>
    cases hstep
    refine ⟨h.owns.spawn ⟨by simp [Call.holds], fun hmine => ?_⟩, fun i hi => ?_⟩
    · exact absurd (h.owner _ hmine) (Nat.lt_irrefl _)
    · have hlt := h.owner i hi
      simp only [Pool.spawn, List.length_append, List.length_singleton]
      omega
  | go i => exact held_turn h next_fair hstep
  | finish i outcome => exact held_turn h finish_fair hstep
  | expire i => exact held_turn h expire_fair hstep
  | cancel i => exact held_turn h cancel_fair hstep
  | tick elapsed =>
    cases hstep
    exact ⟨h.owns.shared fun _ _ howns => howns, h.owner⟩

theorem Held.alone {pool : Pool (Shared ο) (Call ο)} (h : Held pool) {i j : Nat}
    (hi : pool.tasks[i]? = some call) (hj : pool.tasks[j]? = some call')
    (hholds : call.holds = true) (hholds' : call'.holds = true) : i = j := by
  have hmine := (h.owns i call hi).mp hholds
  have hother := (h.owns j call' hj).mp hholds'
  exact Option.some.inj (hmine.symm.trans hother)

-- ---------------------------------------------------------------------------
-- The memo
-- ---------------------------------------------------------------------------

/-- Some fetcher is back whose outcome is not in the memo yet. -/
def Landing (pool : Pool (Shared ο) (Call ο)) : Prop :=
  ∃ (i : Nat) (outcome : ο), pool.tasks[i]? = some (.fetched outcome)

/-- Every completed fetch is long over, or in the memo, or about to be. -/
structure Remembered (ttl : Nat) (pool : Pool (Shared ο) (Call ο)) : Prop where
  past : ∀ c, .completed c ∈ pool.shared.marks → c ≤ pool.shared.now
  covered : ∀ c, .completed c ∈ pool.shared.marks → c + ttl ≤ pool.shared.now ∨
    (∃ entry ∈ pool.shared.slot.memo, c + ttl ≤ entry.expiresAt) ∨ Landing pool
  spaced : pool.shared.marks.Pairwise (Spaced ttl)

theorem Landing.set {pool : Pool (Shared ο) (Call ο)} (h : Landing pool) {i : Nat}
    (hcall : pool.tasks[i]? = some call) (hother : ∀ outcome, call ≠ .fetched outcome)
    (shared' : Shared ο) (call' : Call ο) : Landing ⟨shared', pool.tasks.set i call'⟩ := by
  obtain ⟨j, outcome, hj⟩ := h
  have hne : i ≠ j := by
    rintro rfl
    exact hother outcome (Option.some.inj (hcall.symm.trans hj))
  exact ⟨j, outcome, by simpa [List.getElem?_set_ne hne] using hj⟩

/-- The marks, the time and the memo are as they were, and no landing is lost. -/
theorem Remembered.frame {pool pool' : Pool (Shared ο) (Call ο)} (h : Remembered ttl pool)
    (hmarks : pool'.shared.marks = pool.shared.marks) (hnow : pool'.shared.now = pool.shared.now)
    (hmemo : pool'.shared.slot.memo = pool.shared.slot.memo)
    (hlanding : Landing pool → Landing pool') : Remembered ttl pool' := by
  refine ⟨?_, ?_, ?_⟩
  · rw [hmarks, hnow]
    exact h.past
  · intro c hc
    rw [hmarks] at hc
    rw [hnow, hmemo]
    rcases h.covered c hc with hlong | hmemoised | hland
    · exact .inl hlong
    · exact .inr (.inl hmemoised)
    · exact .inr (.inr (hlanding hland))
  · rw [hmarks]
    exact h.spaced

/-- A call other than a landing one moves, and leaves the marks and the memo. -/
theorem Remembered.set {pool : Pool (Shared ο) (Call ο)} (h : Remembered ttl pool) {i : Nat}
    (hcall : pool.tasks[i]? = some call) (hother : ∀ outcome, call ≠ .fetched outcome)
    {shared' : Shared ο} (hmarks : shared'.marks = pool.shared.marks)
    (hnow : shared'.now = pool.shared.now) (hmemo : shared'.slot.memo = pool.shared.slot.memo) :
    Remembered ttl ⟨shared', pool.tasks.set i call'⟩ :=
  h.frame hmarks hnow hmemo fun hland => hland.set hcall hother shared' call'

/-- The memo check takes out a stale entry only. -/
theorem checkMemo_covers {slot : Slot ο} {entry : MemoEntry ο} (h : entry ∈ slot.memo)
    (now : Nat) : entry ∈ (slot.checkMemo now).2.memo ∨ entry.expiresAt ≤ now := by
  obtain ⟨memo, inflight, landed⟩ := slot
  obtain rfl : memo = some entry := h
  unfold Slot.checkMemo
  by_cases hfresh : entry.isFresh now = true
  · exact .inl (by simp [hfresh])
  · exact .inr (by simpa [MemoEntry.isFresh] using hfresh)

theorem Remembered.go {pool pool' : Pool (Shared ο) (Call ο)} (hheld : Held pool)
    (h : Remembered ttl pool) (hok : Rechecked pool (.go i))
    (hturn : pool.turn (next ttl i) i = some pool') : Remembered ttl pool' := by
  obtain ⟨call, s', call', hcall, hnext, rfl⟩ := Pool.turn_eq_some.mp hturn
  cases call with
  | memoCheck =>
    have hcovered : ∀ call' : Call ο,
        Remembered ttl ⟨{ pool.shared with slot := (pool.shared.slot.checkMemo pool.shared.now).2 },
          pool.tasks.set i call'⟩ := by
      intro call'
      refine ⟨h.past, fun c hc => ?_, h.spaced⟩
      rcases h.covered c hc with hlong | ⟨entry, hentry, hexpires⟩ | hland
      · exact .inl hlong
      · rcases checkMemo_covers hentry pool.shared.now with hkept | hstale
        · exact .inr (.inl ⟨entry, hkept, hexpires⟩)
        · exact .inl (Nat.le_trans hexpires hstale)
      · exact .inr (.inr (hland.set hcall (by simp) _ _))
    simp only [next] at hnext
    split at hnext <;> cases hnext <;> exact hcovered _
  | inflightCheck =>
    simp only [next] at hnext
    split at hnext
    · cases hnext
      exact h.set hcall (by simp) rfl rfl rfl
    · rename_i hfree
      cases hnext
      -- A call that is still landing would have the slot.
      have hnone : ¬Landing pool := by
        rintro ⟨j, outcome, hj⟩
        have hmine := (hheld.owns j _ hj).mp rfl
        rw [hfree] at hmine
        cases hmine
      have hlong : ∀ c, .completed c ∈ pool.shared.marks → c + ttl ≤ pool.shared.now := by
        intro c hc
        rcases h.covered c hc with hlong | ⟨entry, hentry, hexpires⟩ | hland
        · exact hlong
        · exact Nat.le_trans hexpires (hok hcall hfree entry hentry)
        · exact absurd hland hnone
      refine ⟨fun c hc => ?_, fun c hc => ?_, ?_⟩
      · exact h.past c (by simpa using hc)
      · exact .inl (hlong c (by simpa using hc))
      · refine List.pairwise_append.mpr ⟨h.spaced, List.pairwise_singleton _ _, ?_⟩
        intro mark hmark started hstarted
        obtain rfl := List.mem_singleton.mp hstarted
        cases mark with
        | started time => trivial
        | completed c => exact hlong c hmark
  | waiting flight since =>
    simp only [next] at hnext
    split at hnext
    · cases hnext
      exact h.set hcall (by simp) rfl rfl rfl
    · cases hnext
      exact h.set hcall (by simp) rfl rfl rfl
    · cases hnext
  | fetched outcome =>
    cases hnext
    refine ⟨h.past, fun c hc => .inr (.inl ⟨_, rfl, ?_⟩), h.spaced⟩
    have hpast := h.past c hc
    exact Nat.add_le_add_right hpast ttl
  | memoised outcome =>
    cases hnext
    exact h.set hcall (by simp) rfl rfl rfl
  | fetching => cases hnext
  | returned answer => cases hnext
  | cancelled => cases hnext

theorem Remembered.step {pool pool' : Pool (Shared ο) (Call ο)} (hheld : Held pool)
    (h : Remembered ttl pool) (hok : Rechecked pool a)
    (hstep : step ttl waitDeadline pool a = some pool') : Remembered ttl pool' := by
  cases a with
  | call =>
    cases hstep
    refine h.frame rfl rfl rfl ?_
    rintro ⟨j, outcome, hj⟩
    obtain ⟨hlt, -⟩ := List.getElem?_eq_some_iff.mp hj
    exact ⟨j, outcome, by simpa [Pool.spawn, List.getElem?_append_left hlt] using hj⟩
  | go i => exact h.go hheld hok hstep
  | finish i outcome =>
    obtain ⟨call, s', call', hcall, hnext, rfl⟩ := Pool.turn_eq_some.mp hstep
    cases call with
    | fetching =>
      cases hnext
      obtain ⟨hlt, -⟩ := List.getElem?_eq_some_iff.mp hcall
      refine ⟨fun c hc => ?_, fun c _ => .inr (.inr ⟨i, outcome, List.getElem?_set_self hlt⟩), ?_⟩
      · rcases List.mem_append.mp hc with hc | hc
        · exact h.past c hc
        · obtain rfl : c = pool.shared.now := by simpa using hc
          exact Nat.le_refl _
      · refine List.pairwise_append.mpr ⟨h.spaced, List.pairwise_singleton _ _, ?_⟩
        intro mark _ completed hcompleted
        obtain rfl := List.mem_singleton.mp hcompleted
        cases mark <;> trivial
    | _ => cases hnext
  | expire i =>
    obtain ⟨call, s', call', hcall, hnext, rfl⟩ := Pool.turn_eq_some.mp hstep
    cases call with
    | waiting flight since =>
      simp only [expire] at hnext
      split at hnext <;> cases hnext
      exact h.set hcall (by simp) rfl rfl rfl
    | _ => cases hnext
  | cancel i =>
    obtain ⟨call, s', call', hcall, hnext, rfl⟩ := Pool.turn_eq_some.mp hstep
    cases call with
    | memoCheck =>
      cases hnext
      exact h.set hcall (by simp) rfl rfl rfl
    | waiting flight since =>
      cases hnext
      exact h.set hcall (by simp) rfl rfl rfl
    | fetching =>
      cases hnext
      exact h.set hcall (by simp) rfl rfl rfl
    | _ => cases hnext
  | tick elapsed =>
    cases hstep
    refine ⟨fun c hc => ?_, fun c hc => ?_, h.spaced⟩
    · exact Nat.le_trans (h.past c hc) (Nat.le_add_right _ _)
    · rcases h.covered c hc with hlong | hmemoised | hland
      · exact .inl (Nat.le_trans hlong (Nat.le_add_right _ _))
      · exact .inr (.inl hmemoised)
      · exact .inr (.inr hland)

-- ---------------------------------------------------------------------------
-- Runs
-- ---------------------------------------------------------------------------

theorem held_start : Held (start : Pool (Shared ο) (Call ο)) :=
  ⟨fun _ _ h => by simp [start] at h, fun _ h => by simp [start, Slot.empty] at h⟩

/-- There is one fetcher at a time in every run. -/
theorem alone_exec {acts : List (Action ο)} {pool : Pool (Shared ο) (Call ο)}
    (h : Machine.exec (step ttl waitDeadline) start acts = some pool) {i j : Nat}
    (hi : pool.tasks[i]? = some .fetching) (hj : pool.tasks[j]? = some .fetching) : i = j := by
  have hheld : Held pool := Machine.exec_invariant_all held_step held_start h
  exact hheld.alone hi hj rfl rfl

instance decidableRechecked (pool : Pool (Shared ο) (Call ο)) [DecidableEq ο] :
    (a : Action ο) → Decidable (Rechecked pool a)
  | .go i => inferInstanceAs (Decidable (pool.tasks[i]? = some .inflightCheck →
      pool.shared.slot.inflight = none →
        ∀ entry ∈ pool.shared.slot.memo, entry.expiresAt ≤ pool.shared.now))
  | .call => .isTrue trivial
  | .finish _ _ => .isTrue trivial
  | .expire _ => .isTrue trivial
  | .cancel _ => .isTrue trivial
  | .tick _ => .isTrue trivial

/-- A call that fetches, and another that finds the memo. -/
def warm : List (Action Nat) :=
  [.call, .go 0, .go 0, .finish 0 7, .go 0, .go 0, .call, .go 1]

end Coalescing

end EvoAudio.Artwork
