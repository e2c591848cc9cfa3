import EvoAudio.Playback.Registry
import EvoAudio.Playback.ShelfCalls

/-!
# Skipping what cannot be played

`skip_traversal.rs`: the walk from a position of the queue to the first item
that plays. It passes the items of a source that is known to be away, and those
that MPD refuses, and reports every skip as a disposition. Neighbouring skips of
a source that is away are one run; a refusal is reported for itself.
-/

namespace EvoAudio.Playback.SkipTraversal

open Mpd (MpdError)

-- ---------------------------------------------------------------------------
-- Dispositions
-- ---------------------------------------------------------------------------

inductive DispositionKind where
  | trackSkippedSourceOffline
  | trackSkippedFileNotFound
  | trackSkippedPermissionDenied
  | trackSkippedDecoderFailure
  | tracksSkippedRun
  | queueExhaustedNoPlayable
  deriving DecidableEq, Repr

inductive DispositionAction where
  | skipForward
  | stop
  deriving DecidableEq, Repr

inductive RecoveryHint where
  | wakeSource (sourceId : List Char)
  | rescanSource (sourceId : List Char)
  | checkMountPermissions (sourceId : List Char)
  | inspectTrack (uri : List Char)
  | addPlayableTrack
  deriving DecidableEq, Repr

structure DispositionRun where
  count : Nat
  fromPosition : Nat
  toPosition : Nat
  deriving DecidableEq, Repr

structure Disposition where
  atMs : Nat
  kind : DispositionKind
  action : DispositionAction
  queuePosition : Option Nat
  trackUri : Option (List Char)
  sourceId : Option (List Char)
  runs : Option DispositionRun
  recoveryHint : Option RecoveryHint
  deriving DecidableEq, Repr

def Disposition.new (atMs : Nat) (kind : DispositionKind) (action : DispositionAction) :
    Disposition :=
  ⟨atMs, kind, action, none, none, none, none, none⟩

-- ---------------------------------------------------------------------------
-- The walk
-- ---------------------------------------------------------------------------

structure PlayableQueueItem where
  position : Nat
  id : Nat
  filePath : List Char
  sourceId : Option (List Char)
  /-- Whether the song can be reached, when that is known. -/
  available : Option Bool
  deriving DecidableEq, Repr

/-- An item of the queue, with the registry as it is when the walk comes to the
item and with what MPD answers if the item is played. -/
structure Candidate where
  item : PlayableQueueItem
  registry : SourceRegistry
  reply : Except MpdError Unit

/-- An item without a source, or of an unknown one, is tried. -/
def sourceStateFor (registry : SourceRegistry) (sourceId : Option (List Char)) : SourceState :=
  ((sourceId.bind registry.get).map SourceRecord.state).getD .probing

def Candidate.knownOffline (c : Candidate) : Bool :=
  c.item.available == some false && !(sourceStateFor c.registry c.item.sourceId).isReachable

structure RunBuilder where
  kind : DispositionKind
  sourceId : Option (List Char)
  fromPosition : Nat
  toPosition : Nat
  count : Nat
  firstRecoveryHint : RecoveryHint
  deriving DecidableEq, Repr

def u32Max : Nat := 2 ^ 32 - 1

section Walk

-- what the clock says at the emission after so many
variable (clock : Nat → Nat)

def emit (d : Nat → Disposition) (emitted : List Disposition) : List Disposition :=
  emitted ++ [d (clock emitted.length)]

def RunBuilder.disposition (run : RunBuilder) (now : Nat) : Disposition :=
  if run.count ≥ 2 then
    { Disposition.new now .tracksSkippedRun .skipForward with
      runs := some ⟨run.count, run.fromPosition, run.toPosition⟩
      recoveryHint := some run.firstRecoveryHint
      sourceId := run.sourceId }
  else
    { Disposition.new now run.kind .skipForward with
      queuePosition := some run.fromPosition
      recoveryHint := some run.firstRecoveryHint
      sourceId := run.sourceId }

def flushRun (run : RunBuilder) (emitted : List Disposition) : List Disposition :=
  emit clock run.disposition emitted

def flushRunIfAny (coalesce : Option RunBuilder) (emitted : List Disposition) : List Disposition :=
  match coalesce with
  | some run => flushRun clock run emitted
  | none => emitted

def accumulateOrFlush (coalesce : Option RunBuilder) (kind : DispositionKind)
    (sourceId : Option (List Char)) (position : Nat) (recoveryHint : RecoveryHint)
    (emitted : List Disposition) : RunBuilder × List Disposition :=
  let started : RunBuilder := ⟨kind, sourceId, position, position, 1, recoveryHint⟩
  match coalesce with
  | some run =>
    if run.kind = kind ∧ run.sourceId = sourceId then
      ({ run with toPosition := position, count := min (run.count + 1) u32Max }, emitted)
    else (started, flushRun clock run emitted)
  | none => (started, emitted)

def single (item : PlayableQueueItem) (kind : DispositionKind) (recoveryHint : RecoveryHint)
    (now : Nat) : Disposition :=
  { Disposition.new now kind .skipForward with
    queuePosition := some item.position
    trackUri := some item.filePath
    recoveryHint := some recoveryHint
    sourceId := item.sourceId }

def emitSingle (item : PlayableQueueItem) (kind : DispositionKind) (recoveryHint : RecoveryHint)
    (emitted : List Disposition) : List Disposition :=
  emit clock (single item kind recoveryHint) emitted

def exhausted (now : Nat) : Disposition :=
  { Disposition.new now .queueExhaustedNoPlayable .stop with
    recoveryHint := some .addPlayableTrack }

/-- The skip that a refusal is reported as. There is none for a reply that may
come at the next try. -/
def refusalOf (item : PlayableQueueItem) : MpdError → Option (DispositionKind × RecoveryHint)
  | .ack code _ _ _ =>
    if code = 50 then
      some (.trackSkippedFileNotFound, .rescanSource (item.sourceId.getD []))
    else if code = 53 then
      some (.trackSkippedPermissionDenied, .checkMountPermissions (item.sourceId.getD []))
    else some (.trackSkippedDecoderFailure, .inspectTrack item.filePath)
  | .transport _ | .timeout _ _ => none
  | .protocol _ => some (.trackSkippedDecoderFailure, .inspectTrack item.filePath)

/-- The loop, with the run that is open and what is emitted so far. -/
def walk : Option RunBuilder → List Disposition → List Candidate → SkipOutcome × List Disposition
  | coalesce, emitted, [] => (.stopped, emit clock exhausted (flushRunIfAny clock coalesce emitted))
  | coalesce, emitted, c :: cs =>
    if c.knownOffline then
      let (run, emitted) := accumulateOrFlush clock coalesce .trackSkippedSourceOffline
        c.item.sourceId c.item.position (.wakeSource (c.item.sourceId.getD [])) emitted
      walk (some run) emitted cs
    else
      let emitted := flushRunIfAny clock coalesce emitted
      match c.reply with
      | .ok () => (.playing c.item.position, emitted)
      | .error error =>
        match refusalOf c.item error with
        | none => (.paused c.item.position, emitted)
        | some (kind, recoveryHint) =>
          walk none (emitSingle clock c.item kind recoveryHint emitted) cs

end Walk

/-- The items of the queue with what the walk meets at each of them. -/
def candidates (registryAt : Nat → SourceRegistry) (replyAt : Nat → Except MpdError Unit)
    (queue : List PlayableQueueItem) : List Candidate :=
  queue.mapIdx fun i item => ⟨item, registryAt i, replyAt i⟩

/-- A position before the queue stands for its start. -/
def advanceToNextPlayable (clock : Nat → Nat) (registryAt : Nat → SourceRegistry)
    (replyAt : Nat → Except MpdError Unit) (fromPosition : Int) (queue : List PlayableQueueItem) :
    SkipOutcome × List Disposition :=
  walk clock none [] ((candidates registryAt replyAt queue).drop fromPosition.toNat)

-- ---------------------------------------------------------------------------
-- What a walk reports
-- ---------------------------------------------------------------------------

def Candidate.refusal (c : Candidate) : Option (DispositionKind × RecoveryHint) :=
  if c.knownOffline then none
  else
    match c.reply with
    | .ok () => none
    | .error error => refusalOf c.item error

def Candidate.skipped (c : Candidate) : Bool := c.knownOffline || c.refusal.isSome

/-- How the walk ends at the first candidate that it does not skip. -/
def outcomeAt : Option Candidate → SkipOutcome
  | none => .stopped
  | some c =>
    match c.reply with
    | .ok () => .playing c.item.position
    | .error _ => .paused c.item.position

/-- The disposition of some neighbouring skips. `count` is what a run counts of
its length. -/
inductive Reports (count : Nat → Nat) : List Candidate → Disposition → Prop
  | refused {c : Candidate} {kind : DispositionKind} {recoveryHint : RecoveryHint}
      (h : c.refusal = some (kind, recoveryHint)) (now : Nat) :
      Reports count [c] (single c.item kind recoveryHint now)
  | lone {c : Candidate} (h : c.knownOffline = true) (now : Nat) :
      Reports count [c]
        { Disposition.new now .trackSkippedSourceOffline .skipForward with
          queuePosition := some c.item.position
          recoveryHint := some (.wakeSource (c.item.sourceId.getD []))
          sourceId := c.item.sourceId }
  | run {group : List Candidate} {sourceId : Option (List Char)} {first last : Candidate}
      (h : ∀ c ∈ group, c.knownOffline = true ∧ c.item.sourceId = sourceId)
      (htwo : 2 ≤ group.length) (hfirst : group.head? = some first)
      (hlast : group.getLast? = some last) (now : Nat) :
      Reports count group
        { Disposition.new now .tracksSkippedRun .skipForward with
          runs := some ⟨count group.length, first.item.position, last.item.position⟩
          recoveryHint := some (.wakeSource (sourceId.getD []))
          sourceId }

/-- A `u32` that stops at its largest value. -/
def saturated (n : Nat) : Nat := min n u32Max

/-- The dispositions account for the walk from these candidates on: they report
its skips in order and each of them once, and that the queue is exhausted is
reported last. -/
def Accounts (count : Nat → Nat) (cs : List Candidate)
    (result : SkipOutcome × List Disposition) : Prop :=
  result.1 = outcomeAt (cs.dropWhile Candidate.skipped).head? ∧
    ∃ (groups : List (List Candidate)) (reports : List Disposition),
      groups.flatten = cs.takeWhile Candidate.skipped ∧
        List.Forall₂ (Reports count) groups reports ∧
        if result.1 = .stopped then ∃ now, result.2 = reports ++ [exhausted now]
        else result.2 = reports

-- ---------------------------------------------------------------------------
-- Runs
-- ---------------------------------------------------------------------------

/-- The run that is open stands for these candidates. -/
structure RunBuilder.Describes (run : RunBuilder) (group : List Candidate) : Prop where
  kind : run.kind = .trackSkippedSourceOffline
  offline : ∀ c ∈ group, c.knownOffline = true ∧ c.item.sourceId = run.sourceId
  first : group.head?.map (·.item.position) = some run.fromPosition
  last : group.getLast?.map (·.item.position) = some run.toPosition
  count : run.count = saturated group.length
  hint : run.firstRecoveryHint = .wakeSource (run.sourceId.getD [])

theorem RunBuilder.Describes.reports {run : RunBuilder} (h : run.Describes group) (now : Nat) :
    Reports saturated group (run.disposition now) := by
  obtain ⟨first, hfirst, hfrom⟩ := Option.map_eq_some_iff.mp h.first
  obtain ⟨last, hlast, hto⟩ := Option.map_eq_some_iff.mp h.last
  have hcount := h.count
  by_cases htwo : 2 ≤ group.length
  · have hmany : run.count ≥ 2 := by
      simp only [hcount, saturated, u32Max]
      omega
    have hrun := @Reports.run saturated _ _ _ _ h.offline htwo hfirst hlast now
    rw [hfrom, hto, ← hcount, ← h.hint] at hrun
    rwa [RunBuilder.disposition, if_pos hmany]
  · obtain rfl : group = [first] := by
      cases group with
      | nil => cases hfirst
      | cons c rest =>
        cases hfirst
        rw [List.length_cons] at htwo
        have hrest : rest = [] := List.eq_nil_of_length_eq_zero (by omega)
        rw [hrest]
    obtain ⟨hoffline, hsource⟩ := h.offline first (List.mem_singleton_self first)
    have hone : ¬ run.count ≥ 2 := by simp [hcount, saturated, u32Max]
    have hlone := @Reports.lone saturated first hoffline now
    rw [hsource, hfrom, ← h.hint, ← h.kind] at hlone
    rwa [RunBuilder.disposition, if_neg hone]

/-- No skip of the one group is of the same source away as one of the other. -/
def Apart (group next : List Candidate) : Prop :=
  ∀ a ∈ group, ∀ b ∈ next, ¬ (a.knownOffline = true ∧ b.knownOffline = true ∧
    a.item.sourceId = b.item.sourceId)

theorem RunBuilder.Describes.started {c : Candidate} (h : c.knownOffline = true) :
    RunBuilder.Describes ⟨.trackSkippedSourceOffline, c.item.sourceId, c.item.position,
      c.item.position, 1, .wakeSource (c.item.sourceId.getD [])⟩ [c] where
  kind := rfl
  offline := by simpa using h
  first := rfl
  last := rfl
  count := by simp [saturated, u32Max]
  hint := rfl

theorem RunBuilder.Describes.extended {run : RunBuilder} {c : Candidate} (h : run.Describes group)
    (hoffline : c.knownOffline = true) (hsource : run.sourceId = c.item.sourceId) :
    RunBuilder.Describes
      { run with toPosition := c.item.position, count := min (run.count + 1) u32Max }
      (group ++ [c]) where
  kind := h.kind
  offline := by
    intro b hb
    rcases List.mem_append.mp hb with hb | hb
    · exact h.offline b hb
    · cases List.mem_singleton.mp hb
      exact ⟨hoffline, hsource.symm⟩
  first := by
    obtain ⟨first, hfirst, hfrom⟩ := Option.map_eq_some_iff.mp h.first
    simp [List.head?_append, hfirst, hfrom]
  last := by simp
  count := by
    have hcount := h.count
    simp only [saturated, List.length_append, List.length_singleton] at hcount ⊢
    omega
  hint := h.hint

/-- The candidate is one more skip of the run. -/
def RunBuilder.Joins (run : RunBuilder) (c : Candidate) : Prop :=
  c.knownOffline = true ∧ run.sourceId = c.item.sourceId

/-- What is reported of a walk that goes on from these skips. -/
structure Walked (group : List Candidate) (emitted : List Disposition) (cs : List Candidate)
    (result : SkipOutcome × List Disposition) (groups : List (List Candidate))
    (reports : List Disposition) : Prop where
  outcome : result.1 = outcomeAt (cs.dropWhile Candidate.skipped).head?
  flatten : groups.flatten = group ++ cs.takeWhile Candidate.skipped
  reported : List.Forall₂ (Reports saturated) groups reports
  apart : groups.IsChain Apart
  front : ∀ g ∈ groups.head?, group <+: g
  emitted : if result.1 = .stopped then ∃ now, result.2 = emitted ++ reports ++ [exhausted now]
    else result.2 = emitted ++ reports

section Walk

variable {clock : Nat → Nat} {group : List Candidate} {emitted : List Disposition}
  {c : Candidate} {cs : List Candidate}

/-- The sources away of one group are one source. -/
theorem Reports.same_source (h : Reports count group d) (ha : a ∈ group) (hb : b ∈ group) :
    a.knownOffline = b.knownOffline ∧ a.item.sourceId = b.item.sourceId := by
  cases h with
  | refused hrefusal now =>
    cases List.mem_singleton.mp ha
    cases List.mem_singleton.mp hb
    exact ⟨rfl, rfl⟩
  | lone hoffline now =>
    cases List.mem_singleton.mp ha
    cases List.mem_singleton.mp hb
    exact ⟨rfl, rfl⟩
  | run hrun htwo hfirst hlast now =>
    obtain ⟨haway, hsource⟩ := hrun a ha
    obtain ⟨haway', hsource'⟩ := hrun b hb
    exact ⟨haway.trans haway'.symm, hsource.trans hsource'.symm⟩

theorem Reports.ne_nil (h : Reports count group d) : group ≠ [] := by
  cases h with
  | refused hrefusal now => simp
  | lone hoffline now => simp
  | run hrun htwo hfirst hlast now =>
    rintro rfl
    cases hfirst

/-- A candidate that is skipped goes into the open group. -/
theorem Walked.skip (hskipped : c.skipped = true)
    (h : Walked (group ++ [c]) emitted cs result groups reports) :
    Walked group emitted (c :: cs) result groups reports where
  outcome := by
    rw [List.dropWhile_cons_of_pos hskipped]
    exact h.outcome
  flatten := by
    rw [List.takeWhile_cons_of_pos hskipped, h.flatten, List.append_assoc, List.singleton_append]
  reported := h.reported
  apart := h.apart
  front g hg := (List.prefix_append _ _).trans (h.front g hg)
  emitted := h.emitted

/-- The skips of a run are reported before a walk that they do not go on in. -/
theorem Walked.after_run {run : RunBuilder} (hrun : run.Describes group)
    (hapart : ∀ c ∈ cs.head?, ¬ run.Joins c)
    (h : Walked [] (flushRun clock run emitted) cs result groups reports) :
    Walked group emitted cs result (group :: groups)
      (run.disposition (clock emitted.length) :: reports) where
  outcome := h.outcome
  flatten := by rw [List.flatten_cons, h.flatten, List.nil_append]
  reported := .cons (hrun.reports _) h.reported
  apart := by
    refine List.isChain_cons.mpr ⟨fun next hnext a ha b hb hsame => ?_, h.apart⟩
    obtain ⟨rest, rfl⟩ : ∃ rest, groups = next :: rest := List.head?_eq_some_iff.mp hnext
    obtain ⟨d, ds, hreports, -, -⟩ := List.forall₂_cons_left_iff.mp h.reported
    obtain ⟨c, next', rfl⟩ := List.exists_cons_of_ne_nil hreports.ne_nil
    -- the next group starts with the head of the walk
    have hhead : cs.head? = some c := by
      have hflatten := h.flatten
      rw [List.flatten_cons, List.cons_append, List.nil_append] at hflatten
      cases cs with
      | nil => cases hflatten
      | cons c' cs =>
        rw [List.takeWhile_cons] at hflatten
        split at hflatten
        · exact congrArg some (List.cons.inj hflatten).1.symm
        · cases hflatten
    obtain ⟨haway, hsource⟩ := hreports.same_source hb List.mem_cons_self
    refine hapart c hhead ⟨haway ▸ hsame.2.1, ?_⟩
    rw [← hsource, ← hsame.2.2, (hrun.offline a ha).2]
  front := by simp
  emitted := by
    have hemitted := h.emitted
    simpa [flushRun, emit] using hemitted

theorem walk_goes (h : c.skipped = false) :
    walk clock none emitted (c :: cs) = (outcomeAt (some c), emitted) := by
  obtain ⟨hoffline, hrefusal⟩ := Bool.or_eq_false_iff.mp h
  rw [Candidate.refusal, if_neg (by simp [hoffline])] at hrefusal
  cases hreply : c.reply with
  | ok u => simp [walk, hoffline, hreply, outcomeAt, flushRunIfAny]
  | error error =>
    simp only [hreply, Option.isSome_eq_false_iff, Option.isNone_iff_eq_none] at hrefusal
    simp [walk, hoffline, hreply, hrefusal, outcomeAt, flushRunIfAny]

theorem walk_refused {skip : DispositionKind × RecoveryHint} (h : c.refusal = some skip) :
    walk clock none emitted (c :: cs) =
      walk clock none (emitSingle clock c.item skip.1 skip.2 emitted) cs := by
  by_cases hoffline : c.knownOffline = true
  · simp [Candidate.refusal, hoffline] at h
  · rw [Candidate.refusal, if_neg hoffline] at h
    cases hreply : c.reply with
    | ok u => simp [hreply] at h
    | error error =>
      simp only [hreply] at h
      simp [walk, hoffline, hreply, h, flushRunIfAny]

/-- A walk that ends at its first candidate reports nothing. -/
theorem Walked.tried (h : c.skipped = false) :
    Walked [] emitted (c :: cs) (outcomeAt (some c), emitted) [] [] where
  outcome := by rw [List.dropWhile_cons_of_neg (by simp [h]), List.head?_cons]
  flatten := by
    rw [List.takeWhile_cons_of_neg (by simp [h])]
    rfl
  reported := .nil
  apart := .nil
  front := by simp
  emitted := by
    have hgoes : outcomeAt (some c) ≠ .stopped := by
      simp only [outcomeAt]
      split <;> simp
    rw [if_neg hgoes, List.append_nil]

/-- A refusal is reported for itself. -/
theorem Walked.refused {skip : DispositionKind × RecoveryHint} (h : c.refusal = some skip)
    (hwalk : Walked [] (emitSingle clock c.item skip.1 skip.2 emitted) cs result groups reports) :
    Walked [] emitted (c :: cs) result ([c] :: groups)
      (single c.item skip.1 skip.2 (clock emitted.length) :: reports) where
  outcome := by
    rw [List.dropWhile_cons_of_pos (by simp [Candidate.skipped, h])]
    exact hwalk.outcome
  flatten := by
    rw [List.takeWhile_cons_of_pos (by simp [Candidate.skipped, h]), List.flatten_cons,
      hwalk.flatten]
    rfl
  reported := .cons (.refused h _) hwalk.reported
  apart := by
    refine List.isChain_cons.mpr ⟨fun next hnext a ha b hb hsame => ?_, hwalk.apart⟩
    cases List.mem_singleton.mp ha
    simp [Candidate.refusal, hsame.1] at h
  front := by simp
  emitted := by
    have hemitted := hwalk.emitted
    simpa [emitSingle, emit] using hemitted

theorem accumulate_joins {run : RunBuilder} (hrun : run.Describes group) (h : run.Joins c) :
    accumulateOrFlush clock (some run) .trackSkippedSourceOffline c.item.sourceId c.item.position
        (.wakeSource (c.item.sourceId.getD [])) emitted =
      ({ run with toPosition := c.item.position, count := min (run.count + 1) u32Max }, emitted) :=
  if_pos ⟨hrun.kind, h.2⟩

/-- A run that the next candidate does not join is reported at once. -/
theorem walk_flush {run : RunBuilder} (h : ∀ c ∈ cs.head?, ¬ run.Joins c) :
    walk clock (some run) emitted cs = walk clock none (flushRun clock run emitted) cs := by
  cases cs with
  | nil => rfl
  | cons c cs =>
    by_cases haway : c.knownOffline = true
    · have hsource : run.sourceId ≠ c.item.sourceId := fun hsource => h c rfl ⟨haway, hsource⟩
      simp [walk, haway, accumulateOrFlush, hsource]
    · simp [walk, haway, flushRunIfAny]

/-- What a walk reports, without an open run and with one. -/
theorem walk_reports (clock : Nat → Nat) (cs : List Candidate) (emitted : List Disposition) :
    (∃ groups reports, Walked [] emitted cs (walk clock none emitted cs) groups reports) ∧
      ∀ run group, RunBuilder.Describes run group →
        ∃ groups reports, Walked group emitted cs (walk clock (some run) emitted cs) groups
          reports := by
  induction cs generalizing emitted with
  | nil =>
    have hnone (emitted : List Disposition) :
        Walked [] emitted [] (walk clock none emitted []) [] [] :=
      ⟨rfl, rfl, .nil, .nil, by simp, ⟨_, by simp [walk, emit, flushRunIfAny]; rfl⟩⟩
    refine ⟨⟨[], [], hnone emitted⟩, fun run group hrun => ?_⟩
    rw [walk_flush (by simp)]
    exact ⟨_, _, .after_run hrun (by simp) (hnone _)⟩
  | cons c cs ih =>
    have hnone (emitted : List Disposition) : ∃ groups reports,
        Walked [] emitted (c :: cs) (walk clock none emitted (c :: cs)) groups reports := by
      by_cases haway : c.knownOffline = true
      · obtain ⟨groups, reports, hwalk⟩ := (ih emitted).2 _ _ (.started haway)
        rw [walk, if_pos haway]
        exact ⟨groups, reports, .skip (by simp [Candidate.skipped, haway]) hwalk⟩
      · cases hrefusal : c.refusal with
        | none =>
          have hgoes : c.skipped = false := by simp [Candidate.skipped, haway, hrefusal]
          rw [walk_goes hgoes]
          exact ⟨[], [], .tried hgoes⟩
        | some skip =>
          obtain ⟨groups, reports, hwalk⟩ :=
            (ih (emitSingle clock c.item skip.1 skip.2 emitted)).1
          rw [walk_refused hrefusal]
          exact ⟨_, _, .refused hrefusal hwalk⟩
    refine ⟨hnone emitted, fun run group hrun => ?_⟩
    by_cases hjoins : run.Joins c
    · obtain ⟨groups, reports, hwalk⟩ := (ih emitted).2 _ _ (hrun.extended hjoins.1 hjoins.2)
      rw [walk, if_pos hjoins.1, accumulate_joins hrun hjoins]
      exact ⟨groups, reports, .skip (by simp [Candidate.skipped, hjoins.1]) hwalk⟩
    · have happart : ∀ c' ∈ (c :: cs).head?, ¬ run.Joins c' := by simpa using hjoins
      obtain ⟨groups, reports, hwalk⟩ := hnone (flushRun clock run emitted)
      rw [walk_flush happart]
      exact ⟨_, _, .after_run hrun happart hwalk⟩

end Walk

-- ---------------------------------------------------------------------------
-- The account of a walk
-- ---------------------------------------------------------------------------

theorem Walked.accounts (h : Walked [] [] cs result groups reports) :
    Accounts saturated cs result := by
  refine ⟨h.outcome, groups, reports, h.flatten, h.reported, ?_⟩
  simpa using h.emitted

theorem dispositions_account_for_walk (clock : Nat → Nat) (registryAt : Nat → SourceRegistry)
    (replyAt : Nat → Except MpdError Unit) (fromPosition : Int) (queue : List PlayableQueueItem) :
    Accounts saturated ((candidates registryAt replyAt queue).drop fromPosition.toNat)
      (advanceToNextPlayable clock registryAt replyAt fromPosition queue) := by
  obtain ⟨groups, reports, hwalked⟩ :=
    (walk_reports clock ((candidates registryAt replyAt queue).drop fromPosition.toNat) []).1
  exact hwalked.accounts

/-- The registry with one source, and that one away. -/
def awayRegistry : SourceRegistry :=
  SourceRegistry.empty.upsert
    ⟨"nas".toList, UnixPath.components "/mnt/nas".toList, .offline "unmounted" 0, none⟩

/-- The songs of the source that is away. -/
def awayItems (n : Nat) : List PlayableQueueItem :=
  (List.range n).map fun i => ⟨i, i + 1, "NAS/a.flac".toList, some "nas".toList, some false⟩

theorem candidates_awayItems (replyAt : Nat → Except MpdError Unit) {c : Candidate}
    (h : c ∈ candidates (fun _ => awayRegistry) replyAt (awayItems n)) :
    c.knownOffline = true ∧ c.item.sourceId = some "nas".toList := by
  simp only [candidates, awayItems, List.mapIdx_eq_zipIdx_map, List.mem_map] at h
  obtain ⟨⟨item, i⟩, hitem, rfl⟩ := h
  obtain ⟨k, -, rfl⟩ := List.mem_map.mp (List.fst_mem_of_mem_zipIdx hitem)
  refine ⟨?_, rfl⟩
  have hget : awayRegistry.get "nas".toList =
      some ⟨"nas".toList, UnixPath.components "/mnt/nas".toList, .offline "unmounted" 0, none⟩ :=
    (SourceRegistry.get_upsert ..).trans (if_pos rfl)
  have hstate : sourceStateFor awayRegistry (some "nas".toList) = .offline "unmounted" 0 := by
    rw [sourceStateFor, Option.bind_some, hget]
    rfl
  rw [Candidate.knownOffline, hstate]
  rfl

/-- Skips of one source away are one group. -/
theorem group_of_source (hreported : List.Forall₂ (Reports count) groups reports)
    (hapart : groups.IsChain Apart) (hne : groups.flatten ≠ [])
    (h : ∀ c ∈ groups.flatten, c.knownOffline = true ∧ c.item.sourceId = sourceId) :
    groups = [groups.flatten] := by
  cases hreported with
  | nil => simp at hne
  | cons hfirst hrest =>
    cases hrest with
    | nil => simp
    | cons hsecond _ =>
      obtain ⟨a, _, rfl⟩ := List.exists_cons_of_ne_nil hfirst.ne_nil
      obtain ⟨b, _, rfl⟩ := List.exists_cons_of_ne_nil hsecond.ne_nil
      obtain ⟨haway, hsource⟩ := h a (by simp)
      obtain ⟨haway', hsource'⟩ := h b (by simp)
      have hapart := (List.isChain_cons_cons.mp hapart).1
      exact absurd ⟨haway, haway', hsource.trans hsource'.symm⟩
        (hapart a List.mem_cons_self b List.mem_cons_self)

/-- What a run counts can be read from its disposition. -/
theorem Reports.count_of_run (h : Reports count group d) (htwo : 2 ≤ group.length) :
    d.runs.map DispositionRun.count = some (count group.length) := by
  cases h with
  | refused hrefusal now => simp at htwo
  | lone hoffline now => simp at htwo
  | run hrun htwo hfirst hlast now => rfl

/-- A run of more skips than a `u32` counts is not accounted for. -/
theorem not_accounts_of_long_run (clock : Nat → Nat) (replyAt : Nat → Except MpdError Unit)
    (hlong : u32Max < n) :
    ¬ Accounts id (candidates (fun _ => awayRegistry) replyAt (awayItems n))
      (walk clock none [] (candidates (fun _ => awayRegistry) replyAt (awayItems n))) := by
  rintro ⟨hended, groups', reports', hflatten', hreported', hemitted'⟩
  generalize hcs : candidates (fun _ => awayRegistry) replyAt (awayItems n) = cs at *
  have haway : ∀ c ∈ cs, c.knownOffline = true ∧ c.item.sourceId = some "nas".toList :=
    fun c hc => candidates_awayItems replyAt (hcs ▸ hc)
  have hlength : cs.length = n := by simp [← hcs, candidates, awayItems]
  have hskipped : ∀ c ∈ cs, c.skipped = true := fun c hc => by simp [Candidate.skipped, haway c hc]
  have htake : cs.takeWhile Candidate.skipped = cs := List.takeWhile_eq_self_iff.mpr hskipped
  have hdrop : cs.dropWhile Candidate.skipped = [] := List.dropWhile_eq_nil_iff.mpr hskipped
  obtain ⟨groups, reports, hwalked⟩ := (walk_reports clock cs []).1
  have hflatten : groups.flatten = cs := by rw [hwalked.flatten, htake, List.nil_append]
  have hne : cs ≠ [] := by
    rintro rfl
    rw [List.length_nil] at hlength
    omega
  have hgroups := group_of_source hwalked.reported hwalked.apart (hflatten ▸ hne)
    (fun c hc => haway c (hflatten ▸ hc))
  -- both readings report the one run, in the one disposition before the last
  have hstopped : (walk clock none [] cs).1 = .stopped := by rw [hended, hdrop]; rfl
  have hemitted := hwalked.emitted
  rw [if_pos hstopped] at hemitted hemitted'
  obtain ⟨now, hemitted⟩ := hemitted
  obtain ⟨now', hemitted'⟩ := hemitted'
  obtain rfl : reports' = reports :=
    (List.append_inj' (hemitted'.symm.trans hemitted) rfl).1.trans (List.nil_append _)
  rw [hflatten] at hgroups
  rw [hgroups] at hwalked
  obtain ⟨d, rest, hreport, hrest, rfl⟩ := List.forall₂_cons_left_iff.mp hwalked.reported
  obtain rfl := List.forall₂_nil_left_iff.mp hrest
  obtain ⟨group', rest', hreport', hrest', rfl⟩ := List.forall₂_cons_right_iff.mp hreported'
  obtain rfl := List.forall₂_nil_right_iff.mp hrest'
  have hgroup' : group' = cs := by rw [← htake, ← hflatten']; simp
  have htwo : 2 ≤ cs.length := by rw [hlength]; unfold u32Max at hlong; omega
  have hcount := (hreport.count_of_run htwo).symm.trans
    ((hgroup' ▸ hreport').count_of_run htwo)
  rw [Option.some.injEq, hlength, id, saturated] at hcount
  omega

theorem run_count_stops_at_u32 :
    ¬ ∀ (clock : Nat → Nat) (registryAt : Nat → SourceRegistry)
      (replyAt : Nat → Except MpdError Unit) (fromPosition : Int) (queue : List PlayableQueueItem),
      Accounts id ((candidates registryAt replyAt queue).drop fromPosition.toNat)
        (advanceToNextPlayable clock registryAt replyAt fromPosition queue) := by
  intro haccounts
  have hlong : u32Max < 2 ^ 32 := by decide
  refine not_accounts_of_long_run (fun _ => 0) (fun _ => .ok ()) hlong ?_
  have hwalk := haccounts (fun _ => 0) (fun _ => awayRegistry) (fun _ => .ok ()) 0
    (awayItems (2 ^ 32))
  rwa [advanceToNextPlayable, Int.toNat_zero, List.drop_zero] at hwalk

-- ---------------------------------------------------------------------------
-- The walk of a session
-- ---------------------------------------------------------------------------

def Candidate.queued (c : Candidate) : MpdQueueItem := ⟨c.item.position, c.item.id, c.item.filePath⟩

section Session

variable {link : Link} {outOfReach : List Char → Bool} {item : MpdQueueItem}
  {items : List MpdQueueItem} {s s' : Session}

theorem session_passes (h : outOfReach item.filePath = true) :
    Playback.advanceToNextPlayable link outOfReach (item :: items) =
      Playback.advanceToNextPlayable link outOfReach items := if_pos h

theorem session_tries (h : ¬ outOfReach item.filePath = true)
    (hplay : playPosition link item.position s = (reply, s')) :
    Playback.advanceToNextPlayable link outOfReach (item :: items) s =
      match reply with
      | .ok () => (.ok (.playing item.position), s')
      | .error (.transport _) | .error (.timeout _ _) => (.ok (.paused item.position), s')
      | .error _ => Playback.advanceToNextPlayable link outOfReach items s' := by
  refine (congrFun (if_neg h) s).trans
    ((Procedure.run_bind_ok (Procedure.run_attempt hplay)).trans ?_)
  cases reply with
  | ok u => rfl
  | error error => cases error <;> rfl

end Session

/-- What the walk meets is what the session answers: for some replies the walk
of the session ends as this one does. -/
theorem session_walk (link : Link) (outOfReach : List Char → Bool) (clock : Nat → Nat)
    (cs : List Candidate) (h : ∀ c ∈ cs, outOfReach c.item.filePath = c.knownOffline)
    (s : Session) :
    ∃ met : List Candidate,
      met.map (fun c => (c.item, c.registry)) = cs.map (fun c => (c.item, c.registry)) ∧
        (Playback.advanceToNextPlayable link outOfReach (cs.map Candidate.queued) s).1 =
          .ok (walk clock none [] met).1 := by
  have hends (met : List Candidate) :
      (walk clock none [] met).1 = outcomeAt (met.dropWhile Candidate.skipped).head? := by
    obtain ⟨groups, reports, hwalked⟩ := (walk_reports clock met []).1
    exact hwalked.outcome
  simp only [hends]
  induction cs generalizing s with
  | nil => exact ⟨[], rfl, rfl⟩
  | cons c cs ih =>
    obtain ⟨hc, hcs⟩ := List.forall_mem_cons.mp h
    have hcons : (c :: cs).map Candidate.queued = c.queued :: cs.map Candidate.queued := rfl
    -- a candidate that is skipped leaves the walk to the others
    have hskip (reply : Except MpdError Unit)
        (hskipped : Candidate.skipped { c with reply } = true) (s' : Session) :
        ∃ met : List Candidate,
          met.map (fun c => (c.item, c.registry)) = (c :: cs).map (fun c => (c.item, c.registry)) ∧
            (Playback.advanceToNextPlayable link outOfReach (cs.map Candidate.queued) s').1 =
              .ok (outcomeAt (met.dropWhile Candidate.skipped).head?) := by
      obtain ⟨met, hmet, hrun⟩ := ih hcs s'
      refine ⟨{ c with reply } :: met, by rw [List.map_cons, hmet, List.map_cons], ?_⟩
      rw [hrun, List.dropWhile_cons_of_pos hskipped]
    by_cases haway : c.knownOffline = true
    · have hpass : outOfReach c.queued.filePath = true := hc.trans haway
      have hskipped : c.skipped = true := by simp [Candidate.skipped, haway]
      rw [hcons, session_passes hpass]
      exact hskip c.reply hskipped s
    · obtain ⟨reply, s', hplay⟩ : ∃ reply s', playPosition link c.queued.position s = (reply, s') :=
        ⟨_, _, rfl⟩
      rw [hcons, session_tries (fun hout => haway (hc.symm.trans hout)) hplay]
      have hoffline : ¬ Candidate.knownOffline { c with reply } = true := haway
      -- one that the walk does not skip is where it ends
      have hgoes (hskipped : Candidate.skipped { c with reply } = false) : ∃ met : List Candidate,
          met.map (fun c => (c.item, c.registry)) =
              (c :: cs).map (fun c => (c.item, c.registry)) ∧
            outcomeAt (met.dropWhile Candidate.skipped).head? =
              outcomeAt (some { c with reply }) := by
        refine ⟨{ c with reply } :: cs, rfl, ?_⟩
        rw [List.dropWhile_cons_of_neg (by simp [hskipped]), List.head?_cons]
      cases reply with
      | ok u =>
        obtain ⟨met, hmet, hends⟩ :=
          hgoes (by simp [Candidate.skipped, Candidate.refusal, hoffline])
        exact ⟨met, hmet, by rw [hends]; rfl⟩
      | error error =>
        have hskipped : Candidate.skipped { c with reply := .error error } =
            (refusalOf c.item error).isSome := by
          simp [Candidate.skipped, Candidate.refusal, hoffline]
        cases error with
        | ack code index command message =>
          refine hskip _ (hskipped.trans ?_) s'
          simp only [refusalOf]
          split_ifs <;> rfl
        | protocol message => exact hskip _ hskipped s'
        | transport message =>
          obtain ⟨met, hmet, hends⟩ := hgoes hskipped
          exact ⟨met, hmet, by rw [hends]; rfl⟩
        | timeout operation elapsed =>
          obtain ⟨met, hmet, hends⟩ := hgoes hskipped
          exact ⟨met, hmet, by rw [hends]; rfl⟩

-- ---------------------------------------------------------------------------
-- Neighbouring reports
-- ---------------------------------------------------------------------------

/-- Two skips of the same kind for the same source. -/
def SameSkip (d d' : Disposition) : Prop :=
  (d.action = .skipForward ∧ d'.action = .skipForward) ∧
    d.kind = d'.kind ∧ d.sourceId = d'.sourceId

/-- MPD refuses both candidates, which are of one source, in the same way. -/
def SameRefusal (c c' : Candidate) : Prop :=
  ∃ skip skip', c.refusal = some skip ∧ c'.refusal = some skip' ∧
    skip.1 = skip'.1 ∧ c.item.sourceId = c'.item.sourceId

theorem kind_of_refusal (h : refusalOf item error = some skip) :
    skip.1 ≠ .trackSkippedSourceOffline ∧ skip.1 ≠ .tracksSkippedRun := by
  unfold refusalOf at h
  split at h
  · split_ifs at h
    all_goals
      cases h
      simp
  all_goals
    cases h
    try simp

theorem Candidate.kind_of_refusal {c : Candidate} (h : c.refusal = some skip) :
    skip.1 ≠ .trackSkippedSourceOffline ∧ skip.1 ≠ .tracksSkippedRun := by
  unfold Candidate.refusal at h
  split at h
  · cases h
  · split at h
    · cases h
    · exact SkipTraversal.kind_of_refusal h

/-- A report is of one refusal, or of skips of a source away. -/
theorem Reports.refused_or_away (h : Reports count group d) :
    d.action = .skipForward ∧
      ((∃ c skip, group = [c] ∧ c.refusal = some skip ∧ d.kind = skip.1 ∧
          d.sourceId = c.item.sourceId) ∨
        (∀ c ∈ group, c.knownOffline = true ∧ c.item.sourceId = d.sourceId) ∧
          (d.kind = .trackSkippedSourceOffline ∨ d.kind = .tracksSkippedRun)) := by
  cases h with
  | refused hrefusal now => exact ⟨rfl, .inl ⟨_, _, rfl, hrefusal, rfl, rfl⟩⟩
  | lone hoffline now => exact ⟨rfl, .inr ⟨by simpa using hoffline, .inl rfl⟩⟩
  | run hrun htwo hfirst hlast now => exact ⟨rfl, .inr ⟨hrun, .inr rfl⟩⟩

theorem not_refusal_of_away {c : Candidate} (h : c.knownOffline = true) : c.refusal = none := by
  rw [Candidate.refusal, if_pos h]

/-- Reports of groups apart are of the same kind for the same source only where
two refusals are. -/
theorem sameSkip_iff (h : Reports count group d) (h' : Reports count group' d')
    (hapart : Apart group group') :
    SameSkip d d' ↔ ∃ c ∈ group.getLast?, ∃ c' ∈ group'.head?, SameRefusal c c' := by
  have hne := h.ne_nil
  have hne' := h'.ne_nil
  obtain ⟨haction, hkind⟩ := h.refused_or_away
  obtain ⟨haction', hkind'⟩ := h'.refused_or_away
  constructor
  · rintro ⟨-, hsame, hsource⟩
    rcases hkind with ⟨c, skip, rfl, hskip, hc, hsourceId⟩ | ⟨haway, hrun⟩
    · rcases hkind' with ⟨c', skip', rfl, hskip', hc', hsourceId'⟩ | ⟨haway', hrun'⟩
      · exact ⟨c, rfl, c', rfl, skip, skip', hskip, hskip', by rw [← hc, hsame, hc'],
          by rw [← hsourceId, hsource, hsourceId']⟩
      · have hdiffer := Candidate.kind_of_refusal hskip
        rw [← hc, hsame] at hdiffer
        exact absurd hrun' (not_or.mpr hdiffer)
    · rcases hkind' with ⟨c', skip', rfl, hskip', hc', hsourceId'⟩ | ⟨haway', hrun'⟩
      · have hdiffer := Candidate.kind_of_refusal hskip'
        rw [← hc', ← hsame] at hdiffer
        exact absurd hrun (not_or.mpr hdiffer)
      · obtain ⟨a, _, rfl⟩ := List.exists_cons_of_ne_nil hne
        obtain ⟨b, _, rfl⟩ := List.exists_cons_of_ne_nil hne'
        obtain ⟨ha, has⟩ := haway a List.mem_cons_self
        obtain ⟨hb, hbs⟩ := haway' b List.mem_cons_self
        exact absurd ⟨ha, hb, has.trans (hsource.trans hbs.symm)⟩
          (hapart a List.mem_cons_self b List.mem_cons_self)
  · rintro ⟨c, hc, c', hc', skip, skip', hskip, hskip', hsame, hsource⟩
    have hmem := List.mem_of_getLast? hc
    have hmem' := List.mem_of_mem_head? hc'
    rcases hkind with ⟨a, askip, rfl, haskip, hakind, hasource⟩ | ⟨haway, -⟩
    · rcases hkind' with ⟨b, bskip, rfl, hbskip, hbkind, hbsource⟩ | ⟨haway', -⟩
      · cases List.mem_singleton.mp hmem
        cases List.mem_singleton.mp hmem'
        cases haskip.symm.trans hskip
        cases hbskip.symm.trans hskip'
        exact ⟨⟨haction, haction'⟩, by rw [hakind, hsame, hbkind],
          by rw [hasource, hsource, hbsource]⟩
      · simp [not_refusal_of_away (haway' c' hmem').1] at hskip'
    · simp [not_refusal_of_away (haway c hmem).1] at hskip

theorem reported_of_mem (h : List.Forall₂ (Reports count) groups reports) (hg : g ∈ groups) :
    ∃ d, Reports count g d := by
  induction h with
  | nil => cases hg
  | cons hd _ ih =>
    rcases List.mem_cons.mp hg with rfl | hg
    · exact ⟨_, hd⟩
    · exact ih hg

/-- Skips that are reported in one are no refusals, unless it is one alone. -/
theorem Reports.not_sameRefusal (h : Reports count group d) :
    group.IsChain fun c c' => ¬ SameRefusal c c' := by
  obtain ⟨-, ⟨c, skip, rfl, -⟩ | ⟨haway, -⟩⟩ := h.refused_or_away
  · exact List.isChain_singleton c
  · refine (List.pairwise_of_forall_mem_list fun c hc c' _ hsame => ?_).isChain
    obtain ⟨skip, -, hskip, -⟩ := hsame
    simp [not_refusal_of_away (haway c hc).1] at hskip

theorem reports_coalesced_iff (hreported : List.Forall₂ (Reports count) groups reports)
    (hapart : groups.IsChain Apart) :
    reports.IsChain (fun d d' => ¬ SameSkip d d') ↔
      groups.flatten.IsChain (fun c c' => ¬ SameRefusal c c') := by
  have hne : [] ∉ groups := by
    intro hmem
    obtain ⟨d, hd⟩ := reported_of_mem hreported hmem
    exact hd.ne_nil rfl
  have hwithin : ∀ g ∈ groups, g.IsChain fun c c' => ¬ SameRefusal c c' := by
    intro g hg
    obtain ⟨d, hd⟩ := reported_of_mem hreported hg
    exact hd.not_sameRefusal
  rw [List.isChain_flatten hne, and_iff_right hwithin]
  refine (Grouping.isChain_iff_of_forall₂ hreported hapart ?_).symm
  intro g g' d d' hd hd' hgg'
  simp only [sameSkip_iff hd hd' hgg', not_exists, not_and]

theorem skips_coalesced_iff (clock : Nat → Nat) (registryAt : Nat → SourceRegistry)
    (replyAt : Nat → Except MpdError Unit) (fromPosition : Int) (queue : List PlayableQueueItem) :
    (advanceToNextPlayable clock registryAt replyAt fromPosition queue).2.IsChain
        (fun d d' => ¬ SameSkip d d') ↔
      (((candidates registryAt replyAt queue).drop fromPosition.toNat).takeWhile
        Candidate.skipped).IsChain (fun c c' => ¬ SameRefusal c c') := by
  obtain ⟨groups, reports, hwalked⟩ :=
    (walk_reports clock ((candidates registryAt replyAt queue).drop fromPosition.toNat) []).1
  have hflatten := hwalked.flatten
  rw [List.nil_append] at hflatten
  rw [← hflatten, ← reports_coalesced_iff hwalked.reported hwalked.apart]
  have hemitted := hwalked.emitted
  rw [advanceToNextPlayable]
  split_ifs at hemitted
  · obtain ⟨now, hemitted⟩ := hemitted
    rw [hemitted, List.nil_append, List.isChain_append]
    -- the report that the queue is exhausted is no skip
    simp [SameSkip, exhausted, Disposition.new]
  · rw [hemitted, List.nil_append]

/-- MPD finds neither of two songs of one source. -/
theorem neighbouring_refusals_are_not_coalesced :
    ¬ ∀ (clock : Nat → Nat) (registryAt : Nat → SourceRegistry)
      (replyAt : Nat → Except MpdError Unit) (fromPosition : Int) (queue : List PlayableQueueItem),
      (advanceToNextPlayable clock registryAt replyAt fromPosition queue).2.IsChain
        (fun d d' => ¬ SameSkip d d') := by
  intro hcoalesced
  have hwalk := hcoalesced (fun _ => 0) (fun _ => SourceRegistry.empty)
    (fun _ => .error (.ack 50 0 "playid".toList "No such song".toList)) 0
    [⟨0, 1, "NAS/a.flac".toList, some "nas".toList, none⟩,
      ⟨1, 2, "NAS/b.flac".toList, some "nas".toList, none⟩]
  exact (List.isChain_cons_cons.mp hwalk).1 ⟨⟨rfl, rfl⟩, rfl, rfl⟩

end EvoAudio.Playback.SkipTraversal
