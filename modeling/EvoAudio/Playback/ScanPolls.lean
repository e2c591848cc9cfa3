import EvoAudio.Playback.ScanProgress
import Mathlib.Order.Nat

/-!
# When a scan is declared complete

The polling loop of one watcher, for every sequence of what its turns meet. MPD
acknowledges an update before it takes the job up, so that a poll that finds
nothing running may come before the job or after it. The loop ends at the first
such poll, whether it has seen the job before or not.
-/

namespace EvoAudio.Playback.ScanProgress

/-- What a turn of the polling loop meets. -/
inductive Poll where
  /-- MPD does not answer. -/
  | failed
  /-- No job is running. -/
  | clear
  | scanning
  /-- The wall-clock ceiling has passed, and nothing is polled. -/
  | ceiling
  deriving DecidableEq, Repr

/-- MPD and the other things a watcher meets in one of its turns. -/
structure Round where
  db : Database
  tick : Tick

def Round.poll (round : Round) : Poll :=
  if round.tick.elapsed then .ceiling
  else if !round.tick.status then .failed
  else if round.db.updatingDb.isSome then .scanning else .clear

/-- A turn of the watcher `i`. Every frame it publishes is recorded, also one
the announcer would not take. -/
def Scans.meet (musicDirectory : UnixPath) (i : Nat) (s : Scans) (round : Round) : Scans :=
  (step musicDirectory { s with db := round.db }
    (.advance i { round.tick with announced := true })).getD s

/-- The watcher after so many turns. -/
def Scans.after (musicDirectory : UnixPath) (i : Nat) (s : Scans) (rounds : Nat → Round) :
    Nat → Scans
  | 0 => s
  | n + 1 => (s.after musicDirectory i rounds n).meet musicDirectory i (rounds n)

def Envelope.completes (frame : Envelope) : Bool := frame.scans.any (·.phase == .complete)

/-- How many of the frames published so far declare a scan complete. -/
def Scans.completions (s : Scans) : Nat := s.frames.countP Envelope.completes

-- ---------------------------------------------------------------------------
-- The course of a watcher
-- ---------------------------------------------------------------------------

/-- How far the watcher is, and whether it has seen the job. -/
inductive Stage where
  | polling (seen : Bool)
  | ending
  | over
  deriving DecidableEq, Repr

def Stage.next : Stage → Poll → Stage
  | .polling seen, .failed => .polling seen
  | .polling _, .scanning => .polling true
  | .polling _, .clear | .polling _, .ceiling => .ending
  | .ending, _ | .over, _ => .over

def WatcherState.stage : WatcherState → Option Stage
  | .polling _ _ lastUpdatingDb => some (.polling lastUpdatingDb.isSome)
  | .ending _ _ => some .ending
  | .settling | .enumerated _ | .settled | .leaving | .done => some .over
  | .spawned | .returned => none

def Scans.stage (s : Scans) (i : Nat) : Option Stage := s.watchers[i]?.bind (·.state.stage)

section Turns

variable {s : Scans} {watcher : Watcher}

theorem stage_setState (h : s.watchers[i]? = some watcher) (state : WatcherState) :
    (s.setState i watcher state).stage i = state.stage := by
  obtain ⟨hlt, -⟩ := List.getElem?_eq_some_iff.mp h
  simp [Scans.stage, Scans.setState, hlt]

@[simp] theorem completions_setState (s : Scans) (i : Nat) (watcher : Watcher)
    (state : WatcherState) : (s.setState i watcher state).completions = s.completions := rfl

theorem completions_publish (s : Scans) (tick : Tick) (frame : Envelope)
    (h : tick.announced = true) :
    (s.publish tick frame).completions = s.completions + if frame.completes then 1 else 0 := by
  simp [Scans.publish, Scans.completions, h, List.countP_cons]

@[simp] theorem watchers_publish (s : Scans) (tick : Tick) (frame : Envelope) :
    (s.publish tick frame).watchers = s.watchers := by
  unfold Scans.publish
  split <;> rfl

theorem poll_stage (h : s.watchers[i]? = some watcher)
    (hstate : watcher.state = .polling watch scanned job) (tick : Tick)
    (hannounced : tick.announced = true) :
    (s.poll i watcher tick watch scanned job).stage i =
        some ((Stage.polling job.isSome).next (Round.mk s.db tick).poll) ∧
      (s.poll i watcher tick watch scanned job).completions = s.completions := by
  unfold Scans.poll Round.poll
  split
  next => exact ⟨stage_setState h _, rfl⟩
  next =>
    split
    next =>
      refine ⟨?_, rfl⟩
      simp [Scans.stage, h, hstate, WatcherState.stage, Stage.next]
    next =>
      dsimp only
      split
      next hrunning =>
        constructor
        · rw [stage_setState (by simpa using h)]
          simp [hrunning, WatcherState.stage, Stage.next]
        · rw [completions_setState, completions_publish _ _ _ hannounced]
          rfl
      next hidle =>
        rw [stage_setState h]
        exact ⟨by simp [hidle, WatcherState.stage, Stage.next], rfl⟩
      next hidle =>
        rw [stage_setState h]
        exact ⟨by simp [hidle, WatcherState.stage, Stage.next], rfl⟩

/-- Only the turn behind the last poll declares the scan complete. -/
theorem meet_stage {s : Scans} (h : s.stage i = some stage) (round : Round) :
    (s.meet musicDirectory i round).stage i = some (stage.next round.poll) ∧
      (s.meet musicDirectory i round).completions =
        s.completions + if stage = .ending then 1 else 0 := by
  obtain ⟨watcher, hi, hstage⟩ := Option.bind_eq_some_iff.mp h
  have hmet : ({ s with db := round.db } : Scans).watchers[i]? = some watcher := hi
  simp only [Scans.meet, step, hmet, Option.bind_some, Scans.advance]
  cases hstate : watcher.state <;> rw [hstate] at hstage <;> cases hstage
  case polling watch scanned job =>
    exact poll_stage hmet hstate { round.tick with announced := true } rfl
  case ending watch scanned =>
    constructor
    · rw [Option.getD_some, stage_setState (by simpa using hmet)]
      rfl
    · rw [Option.getD_some, completions_setState, completions_publish _ _ _ rfl]
      rfl
  case settling =>
    dsimp only [Option.getD_some]
    unfold Scans.enumerateSource
    split <;> exact ⟨stage_setState hi _, rfl⟩
  case enumerated songCount =>
    dsimp only [Option.getD_some]
    unfold Scans.applySettledCounts
    split <;> exact ⟨stage_setState hi _, rfl⟩
  case settled =>
    constructor
    · rw [Option.getD_some, stage_setState (by simpa using hmet)]
      rfl
    · rw [Option.getD_some, completions_setState, completions_publish _ _ _ rfl]
      rfl
  case leaving =>
    exact ⟨stage_setState hi _, rfl⟩
  case done =>
    exact ⟨h, rfl⟩

end Turns

-- ---------------------------------------------------------------------------
-- Sequences of polls
-- ---------------------------------------------------------------------------

/-- A watcher that polls stops at this poll. -/
def Poll.stops : Poll → Bool
  | .clear | .ceiling => true
  | .failed | .scanning => false

/-- The polls so far allow to declare the scan complete: the ceiling has passed,
the job has run and runs no more, or two polls in a row have found nothing. -/
def Justified (polls : List Poll) : Prop :=
  polls.getLast? = some .ceiling ∨
    (polls.getLast? = some .clear ∧ .scanning ∈ polls) ∨ [.clear, .clear] <:+ polls

instance (polls : List Poll) : Decidable (Justified polls) :=
  inferInstanceAs (Decidable (_ ∨ _ ∧ _ ∨ _))

/-- The scan is declared complete once, and the polls up to then justify it. -/
def DeclaresOnce (musicDirectory : UnixPath) (i : Nat) (s : Scans) (rounds : Nat → Round) : Prop :=
  ∃ last, Justified ((List.range (last + 1)).map fun n => (rounds n).poll) ∧
    ∀ n, (s.after musicDirectory i rounds n).completions =
      s.completions + if last + 1 < n then 1 else 0

section Sequences

variable (musicDirectory : UnixPath) {i last : Nat} {s : Scans} {rounds : Nat → Round}

/-- The loop goes on up to the first poll that stops it. -/
theorem after_polling (h : s.stage i = some (.polling seen))
    (hbefore : ∀ n < last, (rounds n).poll.stops = false) (hn : n ≤ last) :
    (∃ seen', (s.after musicDirectory i rounds n).stage i = some (.polling seen')) ∧
      (s.after musicDirectory i rounds n).completions = s.completions := by
  induction n with
  | zero => exact ⟨⟨seen, h⟩, rfl⟩
  | succ n ih =>
    obtain ⟨⟨seen', hstage⟩, hcount⟩ := ih (by omega)
    obtain ⟨hnext, hsame⟩ := @meet_stage i _ musicDirectory _ hstage (rounds n)
    have hgoes := hbefore n (by omega)
    rw [Scans.after, hnext, hsame, hcount]
    cases hpoll : (rounds n).poll <;> rw [hpoll] at hgoes <;> cases hgoes
    · exact ⟨⟨seen', rfl⟩, rfl⟩
    · exact ⟨⟨true, rfl⟩, rfl⟩

theorem after_ending (h : s.stage i = some (.polling seen))
    (hbefore : ∀ n < last, (rounds n).poll.stops = false)
    (hlast : (rounds last).poll.stops = true) :
    (s.after musicDirectory i rounds (last + 1)).stage i = some .ending ∧
      (s.after musicDirectory i rounds (last + 1)).completions = s.completions := by
  obtain ⟨⟨seen', hstage⟩, hcount⟩ :=
    after_polling musicDirectory h hbefore (Nat.le_refl last)
  obtain ⟨hnext, hsame⟩ := @meet_stage i _ musicDirectory _ hstage (rounds last)
  rw [Scans.after, hnext, hsame, hcount]
  cases hpoll : (rounds last).poll <;> rw [hpoll] at hlast <;> cases hlast
  · exact ⟨rfl, rfl⟩
  · exact ⟨rfl, rfl⟩

theorem after_over (h : s.stage i = some (.polling seen))
    (hbefore : ∀ n < last, (rounds n).poll.stops = false) (hlast : (rounds last).poll.stops = true)
    (m : Nat) :
    (s.after musicDirectory i rounds (last + 2 + m)).stage i = some .over ∧
      (s.after musicDirectory i rounds (last + 2 + m)).completions = s.completions + 1 := by
  induction m with
  | zero =>
    obtain ⟨hstage, hcount⟩ := after_ending musicDirectory h hbefore hlast
    obtain ⟨hnext, hsame⟩ := @meet_stage i _ musicDirectory _ hstage (rounds (last + 1))
    rw [Nat.add_zero, Scans.after, hnext, hsame, hcount]
    exact ⟨rfl, rfl⟩
  | succ m ih =>
    obtain ⟨hnext, hsame⟩ := @meet_stage i _ musicDirectory _ ih.1 (rounds (last + 2 + m))
    rw [← Nat.add_assoc, Scans.after, hnext, hsame, ih.2]
    exact ⟨rfl, rfl⟩

/-- Behind the poll that stops the loop one frame declares the scan complete. -/
theorem after_completions (h : s.stage i = some (.polling seen))
    (hbefore : ∀ n < last, (rounds n).poll.stops = false) (hlast : (rounds last).poll.stops = true)
    (n : Nat) :
    (s.after musicDirectory i rounds n).completions =
      s.completions + if last + 1 < n then 1 else 0 := by
  by_cases hpolling : n ≤ last
  · rw [if_neg (by omega), (after_polling musicDirectory h hbefore hpolling).2, Nat.add_zero]
  · by_cases hending : n = last + 1
    · rw [hending, if_neg (by omega), (after_ending musicDirectory h hbefore hlast).2, Nat.add_zero]
    · obtain ⟨m, rfl⟩ : ∃ m, n = last + 2 + m := ⟨n - (last + 2), by omega⟩
      rw [if_pos (by omega), (after_over musicDirectory h hbefore hlast m).2]

/-- The polls up to the one that stops the loop justify its end unless that one
is clear and all before it have failed. -/
theorem justified_iff (hbefore : ∀ n < last, (rounds n).poll.stops = false)
    (hlast : (rounds last).poll.stops = true) :
    Justified ((List.range (last + 1)).map fun n => (rounds n).poll) ↔
      ((rounds last).poll = .clear → ∃ n < last, (rounds n).poll ≠ .failed) := by
  have hend : ((List.range (last + 1)).map fun n => (rounds n).poll).getLast? =
      some (rounds last).poll := by
    simp [List.range_succ]
  constructor
  · intro hjustified hclear
    by_contra hnone
    have hfailed (n : Nat) (hn : n < last) : (rounds n).poll = .failed := by
      by_contra hne
      exact hnone ⟨n, hn, hne⟩
    rcases hjustified with hceiling | ⟨-, hscanning⟩ | ⟨before, htwo⟩
    · rw [hend, hclear] at hceiling
      cases hceiling
    · obtain ⟨n, hn, hpoll⟩ := List.mem_map.mp hscanning
      rcases Nat.lt_or_eq_of_le (Nat.le_of_lt_succ (List.mem_range.mp hn)) with hlt | rfl
      · cases (hfailed n hlt).symm.trans hpoll
      · cases hclear.symm.trans hpoll
    · -- the last but one of the two would be a clear poll before the last
      have hlength := congrArg List.length htwo
      simp only [List.length_append, List.length_cons, List.length_nil, List.length_map,
        List.length_range] at hlength
      have hget := congrArg (·[before.length]?) htwo
      simp only [List.getElem?_append_right (Nat.le_refl _), Nat.sub_self, List.getElem?_cons_zero,
        List.getElem?_map, List.getElem?_range (show before.length < last + 1 by omega),
        Option.map_some, Option.some.injEq] at hget
      cases (hfailed before.length (by omega)).symm.trans hget.symm
  · intro hseen
    cases hpoll : (rounds last).poll with
    | failed | scanning =>
      rw [hpoll] at hlast
      cases hlast
    | ceiling => exact .inl (hend.trans (congrArg some hpoll))
    | clear =>
      obtain ⟨n, hn, hne⟩ := hseen hpoll
      refine .inr (.inl ⟨hend.trans (congrArg some hpoll), ?_⟩)
      have hscanning : (rounds n).poll = .scanning := by
        have hgoes := hbefore n hn
        cases hpoll' : (rounds n).poll <;> simp_all [Poll.stops]
      exact List.mem_map.mpr ⟨n, List.mem_range.mpr (by omega), hscanning⟩

end Sequences

/-- A watcher that begins to poll declares its scan complete once and with
reason exactly when no clear poll is the first one that MPD answers: before it
there is a poll that finds a job running, or the ceiling. -/
theorem declaresOnce_iff (musicDirectory : UnixPath) (i : Nat) (s : Scans) (rounds : Nat → Round)
    (hpolling : s.stage i = some (.polling false)) (hceiling : ∃ n, (rounds n).tick.elapsed) :
    DeclaresOnce musicDirectory i s rounds ↔
      ∀ n, (rounds n).poll = .clear → ∃ m < n, (rounds m).poll ≠ .failed := by
  have hstops : ∃ n, (rounds n).poll.stops = true := by
    obtain ⟨n, helapsed⟩ := hceiling
    exact ⟨n, by simp [Round.poll, helapsed, Poll.stops]⟩
  obtain ⟨last, hlast, hbefore⟩ : ∃ last, (rounds last).poll.stops = true ∧
      ∀ n < last, (rounds n).poll.stops = false := by
    refine ⟨Nat.find hstops, Nat.find_spec hstops, fun n hn => ?_⟩
    simpa using Nat.find_min hstops hn
  have hcount := after_completions musicDirectory hpolling hbefore hlast
  constructor
  · rintro ⟨last', hjustified, hdeclared⟩ n hclear
    have heq : last' = last := by
      have hearly := (hdeclared (last + 2)).symm.trans (hcount (last + 2))
      have hlate := (hdeclared (last' + 2)).symm.trans (hcount (last' + 2))
      simp only [Nat.add_right_inj] at hearly hlate
      split at hearly <;> split at hearly <;> split at hlate <;> split at hlate <;> omega
    subst heq
    by_contra hnone
    have hfailed (m : Nat) (hm : m < n) : (rounds m).poll = .failed := by
      by_contra hne
      exact hnone ⟨m, hm, hne⟩
    have hn : n = last' := by
      rcases Nat.lt_trichotomy n last' with hlt | heq | hgt
      · have hgoes := hbefore n hlt
        rw [hclear] at hgoes
        cases hgoes
      · exact heq
      · rw [hfailed last' hgt] at hlast
        cases hlast
    subst hn
    exact hnone ((justified_iff hbefore hlast).mp hjustified hclear)
  · intro hseen
    exact ⟨last, (justified_iff hbefore hlast).mpr (hseen last), hcount⟩

/-- A watcher of the stick that has the gate and begins to poll. -/
def pollingStick : Scans :=
  { stickScans with
    watchers := [⟨"usb".toList, .update, 1, .polling ⟨0, none, none⟩ 0 none⟩]
    gate := some 0 }

def Poll.round : Poll → Round
  | .failed => ⟨stickScans.db, { answered with status := false }⟩
  | .clear => ⟨stickScans.db, answered⟩
  | .scanning => ⟨{ stickScans.db with running := some ⟨1, [], .update⟩ }, answered⟩
  | .ceiling => ⟨stickScans.db, { answered with elapsed := true }⟩

/-- These polls, and then the ceiling. -/
def roundsOf (polls : List Poll) (n : Nat) : Round := (polls[n]?.getD .ceiling).round

theorem poll_roundsOf (polls : List Poll) (n : Nat) :
    (roundsOf polls n).poll = polls[n]?.getD .ceiling := by
  unfold roundsOf
  cases polls[n]?.getD .ceiling <;> rfl

/-- The job is seen behind a poll that fails. -/
theorem declaresOnce_seen :
    pollingStick.stage 0 = some (.polling false) ∧
      DeclaresOnce (UnixPath.components "/music".toList) 0 pollingStick
        (roundsOf [.failed, .scanning, .clear]) := by
  refine ⟨rfl, (declaresOnce_iff _ 0 pollingStick _ rfl ⟨3, rfl⟩).mpr fun n hclear => ?_⟩
  refine ⟨1, ?_, by decide⟩
  rw [poll_roundsOf] at hclear
  rcases n with _ | _ | n
  · cases hclear
  · cases hclear
  · omega

/-- A single clear poll, the first of all, is taken for the end of the scan. -/
theorem first_clear_poll_declares :
    (pollingStick.after (UnixPath.components "/music".toList) 0 (roundsOf [.clear]) 2).completions =
        1 ∧
      ¬ DeclaresOnce (UnixPath.components "/music".toList) 0 pollingStick (roundsOf [.clear]) := by
  have hcount : (pollingStick.after (UnixPath.components "/music".toList) 0
      (roundsOf [.clear]) 2).completions = 1 := by decide
  refine ⟨hcount, ?_⟩
  rintro ⟨last, hjustified, hdeclared⟩
  have htwo := hcount.symm.trans (hdeclared 2)
  have hlast : last = 0 := by
    by_contra hne
    rw [if_neg (by omega)] at htwo
    cases htwo
  subst hlast
  revert hjustified
  decide

end EvoAudio.Playback.ScanProgress
