import EvoAudio.Lib.Machine
import EvoAudio.Lib.Spacing

/-!
# The rate limiter of the providers

A call reserves the next slot and sleeps until it has come, without the lock, so that any
number of calls sleep at once. The other call takes a slot only if it is there. A call that is
dropped while it sleeps has its slot reserved all the same.
-/

namespace EvoAudio.Online

open Machine Spacing

/-- The limiter, with the slots it has given out and what has become of them, the newest in
front. -/
structure RateLimiter where
  lastGranted : Option Nat
  slots : List Nat
  asleep : List Nat
  dropped : List Nat
  /-- The slots that were used, with the instants of their use. -/
  dispatched : List (Nat × Nat)
  /-- The latest reading of the clock. -/
  clock : Nat
deriving DecidableEq, Repr

def RateLimiter.initial : RateLimiter := ⟨none, [], [], [], [], 0⟩

/-- The slot that `acquire` reserves. -/
def reserve (minInterval : Nat) (lastGranted : Option Nat) (now : Nat) : Nat :=
  (lastGranted.map fun last => max (last + minInterval) now).getD now

/-- Whether `try_acquire` has a slot. -/
def available (minInterval : Nat) (lastGranted : Option Nat) (now : Nat) : Bool :=
  !lastGranted.any fun last => now - last < minInterval

inductive LimiterStep where
  | acquire (now : Nat)
  | wakes (slot now : Nat)
  | drop (slot : Nat)
  | tryAcquire (now : Nat)
deriving DecidableEq, Repr

def limiter (minInterval : Nat) (s : RateLimiter) : LimiterStep → Option RateLimiter
  | .acquire now =>
    if s.clock ≤ now then
      let slot := reserve minInterval s.lastGranted now
      some { s with
        lastGranted := some slot, slots := slot :: s.slots, asleep := slot :: s.asleep
        clock := now }
    else none
  | .wakes slot now =>
    if s.clock ≤ now ∧ slot ∈ s.asleep ∧ slot ≤ now then
      some { s with
        asleep := s.asleep.erase slot, dispatched := (slot, now) :: s.dispatched, clock := now }
    else none
  | .drop slot =>
    if slot ∈ s.asleep then
      some { s with asleep := s.asleep.erase slot, dropped := slot :: s.dropped }
    else none
  | .tryAcquire now =>
    if s.clock ≤ now then
      if available minInterval s.lastGranted now then
        some { s with
          lastGranted := some now, slots := now :: s.slots
          dispatched := (now, now) :: s.dispatched, clock := now }
      else some { s with clock := now }
    else none

variable {minInterval : Nat} {s s' : RateLimiter} {steps : List LimiterStep}

-- ---------------------------------------------------------------------------
-- The slots
-- ---------------------------------------------------------------------------

/-- What is still in the way of a call that comes now: the slots that are not an interval past,
whatever became of them. -/
def RateLimiter.ahead (minInterval : Nat) (s : RateLimiter) (now : Nat) : Nat :=
  s.slots.countP fun slot => now < slot + minInterval

/-- Slots are an interval apart, a sleeper does not wake before its slot, and a call waits for
no more intervals than there are slots ahead of it. -/
structure Paced (minInterval : Nat) (s : RateLimiter) : Prop where
  last : s.lastGranted = s.slots.head?
  spaced : Spaced minInterval s.slots
  accounted : s.slots.Perm (s.dispatched.map Prod.fst ++ s.asleep ++ s.dropped)
  due : ∀ d ∈ s.dispatched, d.1 ≤ d.2
  queue : ∀ now, s.clock ≤ now →
    reserve minInterval s.lastGranted now ≤ now + minInterval * s.ahead minInterval now

theorem reserve_after (h : lastGranted = some last) :
    last + minInterval ≤ reserve minInterval lastGranted now := by
  simp [reserve, h]

theorem reserve_mono (h : now ≤ later) :
    reserve minInterval lastGranted now ≤ reserve minInterval lastGranted later := by
  cases lastGranted with
  | none => exact h
  | some last => exact max_le_max_left _ h

theorem after_of_available (hpos : 0 < minInterval)
    (h : available minInterval (some last) now = true) : last + minInterval ≤ now := by
  simp [available] at h
  omega

theorem paced_initial : Paced minInterval .initial where
  last := rfl
  spaced := .nil
  accounted := .refl _
  due := by simp [RateLimiter.initial]
  queue := by simp [RateLimiter.initial, reserve]

/-- One more slot makes the next one an interval later at most. -/
theorem queue_cons {slots : List Nat} {slot now : Nat}
    (hslot : slot ≤ now + minInterval * slots.countP fun slot => now < slot + minInterval) :
    reserve minInterval (some slot) now ≤
      now + minInterval * (slot :: slots).countP fun slot => now < slot + minInterval := by
  rw [List.countP_cons]
  by_cases hpast : now < slot + minInterval
  · rw [if_pos (by simpa using hpast), Nat.mul_succ]
    exact max_le (by omega) (by omega)
  · exact (max_le (by omega) le_rfl).trans (Nat.le_add_right _ _)

/-- The slots stay apart when one is given out at the interval. -/
theorem Paced.spaced_cons (h : Paced minInterval s)
    (hslot : ∀ last, s.lastGranted = some last → last + minInterval ≤ slot) :
    Spaced minInterval (slot :: s.slots) :=
  h.spaced.push fun last hlast => hslot last (h.last.trans hlast)

theorem Paced.acquired (h : Paced minInterval s) (hclock : s.clock ≤ now) :
    Paced minInterval { s with
      lastGranted := some (reserve minInterval s.lastGranted now)
      slots := reserve minInterval s.lastGranted now :: s.slots
      asleep := reserve minInterval s.lastGranted now :: s.asleep
      clock := now } where
  last := rfl
  spaced := h.spaced_cons fun _ hlast => reserve_after hlast
  accounted := by
    refine (h.accounted.cons _).trans ?_
    simp only [List.append_assoc, List.cons_append]
    exact List.perm_middle.symm
  due := h.due
  queue later hlater :=
    queue_cons ((reserve_mono hlater).trans (h.queue later (hclock.trans hlater)))

theorem Paced.woken (h : Paced minInterval s) (hclock : s.clock ≤ now) (hasleep : slot ∈ s.asleep)
    (hdue : slot ≤ now) :
    Paced minInterval { s with
      asleep := s.asleep.erase slot, dispatched := (slot, now) :: s.dispatched, clock := now } where
  last := h.last
  spaced := h.spaced
  accounted := by
    refine h.accounted.trans (List.Perm.append_right _ ?_)
    have hbehind : s.asleep.Perm (slot :: s.asleep.erase slot) := List.perm_cons_erase hasleep
    exact (hbehind.append_left _).trans List.perm_middle
  due := List.forall_mem_cons.mpr ⟨hdue, h.due⟩
  queue later hlater := h.queue later (hclock.trans hlater)

theorem Paced.cancelled (h : Paced minInterval s) (hasleep : slot ∈ s.asleep) :
    Paced minInterval { s with
      asleep := s.asleep.erase slot, dropped := slot :: s.dropped } where
  last := h.last
  spaced := h.spaced
  accounted := by
    refine h.accounted.trans ?_
    rw [List.append_assoc, List.append_assoc]
    refine List.Perm.append_left _ ?_
    exact ((List.perm_cons_erase hasleep).append_right _).trans List.perm_middle.symm
  due := h.due
  queue := h.queue

theorem Paced.taken (hpos : 0 < minInterval) (h : Paced minInterval s)
    (hfree : available minInterval s.lastGranted now = true) :
    Paced minInterval { s with
      lastGranted := some now, slots := now :: s.slots
      dispatched := (now, now) :: s.dispatched, clock := now } where
  last := rfl
  spaced := h.spaced_cons fun _ hlast => after_of_available hpos (hlast ▸ hfree)
  accounted := h.accounted.cons _
  due := List.forall_mem_cons.mpr ⟨le_rfl, h.due⟩
  queue _ hlater := queue_cons (Nat.le_add_right_of_le hlater)

theorem paced_step (hpos : 0 < minInterval) (h : Paced minInterval s)
    (hstep : limiter minInterval s step = some s') : Paced minInterval s' := by
  cases step with
  | acquire now =>
    obtain ⟨hclock, ⟨⟩⟩ := Option.ite_none_right_eq_some.mp hstep
    exact h.acquired hclock
  | wakes slot now =>
    obtain ⟨⟨hclock, hasleep, hdue⟩, ⟨⟩⟩ := Option.ite_none_right_eq_some.mp hstep
    exact h.woken hclock hasleep hdue
  | drop slot =>
    obtain ⟨hasleep, ⟨⟩⟩ := Option.ite_none_right_eq_some.mp hstep
    exact h.cancelled hasleep
  | tryAcquire now =>
    obtain ⟨hclock, hstep⟩ := Option.ite_none_right_eq_some.mp hstep
    by_cases hfree : available minInterval s.lastGranted now = true
    · rw [if_pos hfree] at hstep
      cases hstep
      exact h.taken hpos hfree
    · rw [if_neg hfree] at hstep
      cases hstep
      exact { h with queue := fun later hlater => h.queue later (hclock.trans hlater) }

theorem paced_of_run (hpos : 0 < minInterval)
    (h : exec (limiter minInterval) .initial steps = some s) : Paced minInterval s :=
  exec_invariant_all (paced_step hpos) paced_initial h

-- ---------------------------------------------------------------------------
-- The rate
-- ---------------------------------------------------------------------------

/-- A use is not earlier than its slot, so there are never more uses than slots. -/
theorem Paced.uses_le (h : Paced minInterval s) (t : Nat) :
    s.dispatched.countP (fun d => d.2 ≤ t) ≤ s.slots.countP (fun slot => slot ≤ t) := by
  have hslots : s.dispatched.countP (fun d => d.2 ≤ t) ≤
      (s.dispatched.map Prod.fst).countP (fun slot => slot ≤ t) := by
    rw [List.countP_map]
    refine List.countP_mono_left fun d hd ht => ?_
    simp only [decide_eq_true_eq] at ht
    simpa using (h.due d hd).trans ht
  rw [h.accounted.countP_eq, List.countP_append, List.countP_append]
  omega

theorem Paced.countP_by (hpos : 0 < minInterval) (h : Paced minInterval s)
    (hfirst : ∀ slot ∈ s.slots, first ≤ slot) (hle : first ≤ t) :
    s.slots.countP (fun slot => slot ≤ t) ≤ (t - first) / minInterval + 1 := by
  refine le_trans (List.countP_mono_left fun slot hslot ht => ?_)
    (h.spaced.countP_le first ((t - first) / minInterval + 1))
  have hstart := hfirst slot hslot
  have hnext := Nat.lt_mul_of_div_lt (Nat.lt_succ_self ((t - first) / minInterval)) hpos
  rw [Nat.succ_eq_add_one] at hnext
  simp only [decide_eq_true_eq] at ht ⊢
  omega

/-- A window of so many intervals has no more slots than that, and the calls that went through
up to an instant are no more than the intervals since the first slot, and one. -/
theorem rate_of_run (hpos : 0 < minInterval)
    (h : exec (limiter minInterval) .initial steps = some s) :
    (∀ start count, s.slots.countP
      (fun slot => start ≤ slot ∧ slot < start + count * minInterval) ≤ count) ∧
    ∀ first t, (∀ slot ∈ s.slots, first ≤ slot) → first ≤ t →
      s.dispatched.countP (fun d => d.2 ≤ t) ≤ (t - first) / minInterval + 1 := by
  have hpaced := paced_of_run hpos h
  refine ⟨hpaced.spaced.countP_le, fun first t hfirst hle => ?_⟩
  exact (hpaced.uses_le t).trans (hpaced.countP_by hpos hfirst hle)

/-- Three calls, of which the second goes through at its slot and the third is dropped. -/
def threeCalls : List LimiterStep :=
  [.acquire 10, .wakes 10 10, .acquire 10, .acquire 11, .drop 20, .wakes 15 15]

def afterThreeCalls : RateLimiter := ⟨some 20, [20, 15, 10], [], [20], [(15, 15), (10, 10)], 15⟩

theorem exec_threeCalls : exec (limiter 5) .initial threeCalls = some afterThreeCalls := by
  decide

theorem rate_of_three :
    afterThreeCalls.slots.countP (fun slot => 10 ≤ slot ∧ slot < 10 + 2 * 5) ≤ 2 ∧
      afterThreeCalls.dispatched.countP (fun d => d.2 ≤ 15) ≤ (15 - 10) / 5 + 1 := by
  obtain ⟨hwindow, huses⟩ := rate_of_run (by decide) exec_threeCalls
  exact ⟨hwindow 10 2, huses 10 15 (by decide) (by decide)⟩

-- ---------------------------------------------------------------------------
-- The wait
-- ---------------------------------------------------------------------------

theorem Paced.ahead_eq (h : Paced minInterval s) (now : Nat) :
    s.ahead minInterval now = s.dispatched.countP (fun d => now < d.1 + minInterval) +
      s.asleep.countP (fun slot => now < slot + minInterval) +
      s.dropped.countP (fun slot => now < slot + minInterval) := by
  rw [RateLimiter.ahead, h.accounted.countP_eq, List.countP_append, List.countP_append,
    List.countP_map]
  rfl

/-- The newest slot is the last to be an interval past. -/
theorem Paced.available_iff (hpos : 0 < minInterval) (h : Paced minInterval s) (now : Nat) :
    available minInterval s.lastGranted now = true ↔ s.ahead minInterval now = 0 := by
  rw [h.last, RateLimiter.ahead, List.countP_eq_zero]
  cases hslots : s.slots with
  | nil => simp [available]
  | cons newest older =>
    have hbehind := (Spacing.spaced_cons.mp (hslots ▸ h.spaced)).1
    constructor
    · intro hfree slot hslot
      have hnewest := after_of_available hpos hfree
      rcases List.mem_cons.mp hslot with rfl | hslot
      · simpa using hnewest
      · have := hbehind slot hslot
        simp only [decide_eq_true_eq]
        omega
    · intro hnone
      have := hnone newest List.mem_cons_self
      simp only [available, List.head?_cons, Option.any_some, decide_eq_true_eq] at this ⊢
      simp
      omega

/-- A call waits for an interval at most for each slot ahead of it: those of calls that went
through, those of calls that still sleep and those of calls that were dropped. Where there is
one, the other call gets nothing. -/
theorem wait_of_call (hpos : 0 < minInterval)
    (h : exec (limiter minInterval) .initial steps = some s) (hnow : s.clock ≤ now) :
    let ahead := s.dispatched.countP (fun d => now < d.1 + minInterval) +
      s.asleep.countP (fun slot => now < slot + minInterval) +
      s.dropped.countP (fun slot => now < slot + minInterval)
    reserve minInterval s.lastGranted now ≤ now + minInterval * ahead ∧
      (available minInterval s.lastGranted now = true ↔ ahead = 0) := by
  have hpaced := paced_of_run hpos h
  rw [← hpaced.ahead_eq]
  exact ⟨hpaced.queue now hnow, hpaced.available_iff hpos now⟩

/-- The dropped call and the one that went through last are in the way. -/
theorem wait_of_three :
    reserve 5 afterThreeCalls.lastGranted 16 ≤ 16 + 5 * 2 ∧
      (available 5 afterThreeCalls.lastGranted 16 = true ↔ 2 = 0) :=
  wait_of_call (by decide) exec_threeCalls (by decide)

end EvoAudio.Online
