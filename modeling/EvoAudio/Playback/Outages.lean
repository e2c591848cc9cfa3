import EvoAudio.Playback.Registry

/-!
# Since when a source is out

A probe of `playback.mpd/src/source_registry.rs` dates the state it finds with its
own time, and `transition` stores it whether or not the source was in that state
before. `since_ms` is documented as the time of the transition.
-/

namespace EvoAudio.Playback

def SourceState.sinceMs : SourceState → Option Nat
  | .degraded _ sinceMs => some sinceMs
  | .offline _ sinceMs => some sinceMs
  | _ => none

-- ---------------------------------------------------------------------------
-- Probes
-- ---------------------------------------------------------------------------

/-- What becomes of reading a directory's metadata within the budget. -/
inductive DirectoryReply where
  | metadata (isDir : Bool) (elapsedMs : Nat)
  | notFound
  | error (text : String)
  | timeout
  deriving DecidableEq, Repr

def probeLocalDirectory (budgetMs now : Nat) : DirectoryReply → SourceState
  | .metadata true elapsedMs =>
    if elapsedMs > budgetMs then .degraded "probe exceeded budget" now else .online
  | .metadata false _ => .offline "path exists but is not a directory" now
  | .notFound => .offline "mount path not present" now
  | .error text => .offline ("metadata error: " ++ text) now
  | .timeout => .offline ("probe budget " ++ toString budgetMs ++ " ms exhausted") now

/-- What becomes of browsing the root of a DLNA server within the budget. -/
inductive BrowseReply where
  | page
  | error (text : String)
  | timeout
  deriving DecidableEq, Repr

def probeDlna (controlUrl : String) (now : Nat) (reply : BrowseReply) : SourceState :=
  if controlUrl = "" then .probing
  else
    match reply with
    | .page => .online
    | .error text => .offline ("dlna probe: " ++ text) now
    | .timeout => .degraded "dlna probe exceeded budget" now

/-- A probe by the kind of its source: local ones and mounted shares, DLNA
servers, and the cloud, which is not probed. -/
inductive SourceProbe where
  | directory (reply : DirectoryReply)
  | dlna (controlUrl : String) (reply : BrowseReply)
  | cloud
  deriving DecidableEq, Repr

def probeSource (budgetMs now : Nat) : SourceProbe → SourceState
  | .directory reply => probeLocalDirectory budgetMs now reply
  | .dlna controlUrl reply => probeDlna controlUrl now reply
  | .cloud => .probing

/-- A state that a probe dates has the time of the probe. -/
theorem probeSource_sinceMs (budgetMs now : Nat) (probe : SourceProbe) :
    ∀ sinceMs ∈ (probeSource budgetMs now probe).sinceMs, sinceMs = now := by
  intro sinceMs h
  have hdirectory (reply : DirectoryReply)
      (h : sinceMs ∈ (probeLocalDirectory budgetMs now reply).sinceMs) : sinceMs = now := by
    unfold probeLocalDirectory at h
    split at h
    · split at h <;> simp_all [SourceState.sinceMs]
    all_goals simp_all [SourceState.sinceMs]
  cases probe with
  | directory reply => exact hdirectory reply h
  | dlna controlUrl reply =>
    simp only [probeSource, probeDlna] at h
    split at h
    · cases h
    · cases reply <;> simp_all [SourceState.sinceMs]
  | cloud => cases h

namespace Transitions

-- ---------------------------------------------------------------------------
-- The outcomes of a source
-- ---------------------------------------------------------------------------

/-- The states that the steps store for the source, in their order. -/
def outcomes (sourceId : List Char) (acts : List Act) : List SourceState :=
  acts.filterMap fun
    | .store id newState _ => if id = sourceId then some newState else none
    | _ => none

/-- The first of the unbroken run of one state that the last outcome ends. -/
def runStart (first : SourceState) (outcomes : List SourceState) : SourceState :=
  outcomes.foldl (fun start outcome =>
    if start.discriminant = outcome.discriminant then start else outcome) first

/-- The date of the stored state is that of its run. -/
def Dated (sourceId : List Char) (first : SourceState) (acts : List Act) (s : Transitions) : Prop :=
  ∀ record, s.registry.get sourceId = some record →
    record.state.sinceMs = (runStart first (outcomes sourceId acts)).sinceMs

/-- An outcome that the source has already leaves its date, and is no change. -/
def Keeps (sourceId : List Char) (s : Transitions) (act : Act) (s' : Transitions) : Prop :=
  ∀ newState now record, act = .store sourceId newState now →
    s.registry.get sourceId = some record → record.state.discriminant = newState.discriminant →
      (∀ stored, s'.registry.get sourceId = some stored →
        stored.state.sinceMs = record.state.sinceMs) ∧
      s'.history = s.history

/-- After every step of the run. -/
def DatesOutages (sourceId : List Char) (first : SourceState) (start : Transitions)
    (acts : List Act) : Prop :=
  ∀ before act after s s', acts = before ++ act :: after →
    Machine.exec step start before = some s → step s act = some s' →
      Dated sourceId first (before ++ [act]) s' ∧ Keeps sourceId s act s'

/-- The outcome is not the one that the source has, or it has the same date. -/
def Undated (sourceId : List Char) (s : Transitions) : Act → Prop
  | .store id newState _ => id = sourceId → ∀ record ∈ s.registry.get id,
      record.state.discriminant = newState.discriminant → newState.sinceMs = record.state.sinceMs
  | _ => True

instance (sourceId : List Char) (s : Transitions) : DecidablePred (Undated sourceId s)
  | .store id newState _ => inferInstanceAs (Decidable (id = sourceId →
      ∀ record ∈ s.registry.get id, record.state.discriminant = newState.discriminant →
        newState.sinceMs = record.state.sinceMs))
  | .broadcast _ | .receive => .isTrue trivial

-- ---------------------------------------------------------------------------
-- What a run stores
-- ---------------------------------------------------------------------------

section Runs

variable {sourceId : List Char} {s s' : Transitions} {acts : List Act}

theorem outcomes_append (before after : List Act) :
    outcomes sourceId (before ++ after) = outcomes sourceId before ++ outcomes sourceId after :=
  List.filterMap_append

theorem outcomes_store (newState : SourceState) (now : Nat) :
    outcomes sourceId [.store sourceId newState now] = [newState] := by
  simp [outcomes]

theorem runStart_concat (first : SourceState) (before : List SourceState) (outcome : SourceState) :
    runStart first (before ++ [outcome]) =
      if (runStart first before).discriminant = outcome.discriminant then runStart first before
      else outcome := by
  rw [runStart, List.foldl_append, List.foldl_cons, List.foldl_nil]
  rfl

/-- The stored state is the outcome of the step, if it has one for the source. -/
theorem Step.stored (h : Step s act s') (hrecord : s.registry.get sourceId = some record) :
    ∃ stored, s'.registry.get sourceId = some stored ∧
      (outcomes sourceId [act] = [] ∧ stored.state = record.state ∨
        outcomes sourceId [act] = [stored.state] ∧
          (record.state.discriminant = stored.state.discriminant → s'.history = s.history)) := by
  cases h with
  | unknown id newState now hunknown =>
    have hid : id ≠ sourceId := by
      rintro rfl
      rw [hunknown] at hrecord
      cases hrecord
    exact ⟨record, hrecord, .inl ⟨by simp [outcomes, hid], rfl⟩⟩
  | refresh id newState now other hother hsame =>
    dsimp only
    rw [SourceRegistry.get_upsert, SourceRegistry.get_id hother]
    by_cases hid : sourceId = id
    · subst hid
      rw [if_pos rfl]
      exact ⟨_, rfl, .inr ⟨outcomes_store newState now, fun _ => rfl⟩⟩
    · rw [if_neg hid]
      exact ⟨record, hrecord, .inl ⟨by simp [outcomes, Ne.symm hid], rfl⟩⟩
  | change id newState now other lastSeen hother hdiffer =>
    dsimp only
    rw [SourceRegistry.get_upsert, SourceRegistry.get_id hother]
    by_cases hid : sourceId = id
    · subst hid
      cases hrecord.symm.trans hother
      rw [if_pos rfl]
      exact ⟨_, rfl, .inr ⟨outcomes_store newState now, fun hsame => absurd hsame hdiffer⟩⟩
    · rw [if_neg hid]
      exact ⟨record, hrecord, .inl ⟨by simp [outcomes, Ne.symm hid], rfl⟩⟩
  | broadcast => exact ⟨record, hrecord, .inl ⟨rfl, rfl⟩⟩
  | receive => exact ⟨record, hrecord, .inl ⟨rfl, rfl⟩⟩

theorem exists_store_of_outcomes (h : outcomes sourceId [act] = [newState]) :
    ∃ now, act = .store sourceId newState now := by
  cases act with
  | store id state now =>
    simp only [outcomes, List.filterMap_cons, List.filterMap_nil] at h
    by_cases hid : id = sourceId
    · simp only [hid, if_true, List.cons.injEq, and_true] at h
      exact ⟨now, by rw [hid, h]⟩
    · simp [hid] at h
  | broadcast => cases h
  | receive => cases h

/-- While no outcome is repeated at another time, the stored state has the kind
and the date of the run it belongs to. -/
theorem exec_runStart {start : Transitions} (hmeets : Machine.Meets step (Undated sourceId) start acts)
    (hrun : Machine.exec step start acts = some s)
    (hrecord : start.registry.get sourceId = some record) :
    ∃ stored, s.registry.get sourceId = some stored ∧
      stored.state.discriminant = (runStart record.state (outcomes sourceId acts)).discriminant ∧
      stored.state.sinceMs = (runStart record.state (outcomes sourceId acts)).sinceMs := by
  induction acts using List.reverseRecOn generalizing s with
  | nil =>
    cases hrun
    exact ⟨record, hrecord, rfl, rfl⟩
  | append_singleton acts act ih =>
    obtain ⟨t, ht, hlast⟩ := Machine.exec_append.mp hrun
    obtain ⟨s', hstep, hs⟩ := Machine.exec_cons.mp hlast
    cases hs
    obtain ⟨stored, hstored, hkind, hdate⟩ := ih hmeets.left ht
    obtain ⟨after, hafter, hcase⟩ := (Step.of_step hstep).stored hstored
    refine ⟨after, hafter, ?_⟩
    rw [outcomes_append]
    rcases hcase with ⟨hnone, hsame⟩ | ⟨hone, -⟩
    · rw [hnone, List.append_nil, hsame]
      exact ⟨hkind, hdate⟩
    · rw [hone, runStart_concat]
      split
      next heq =>
        obtain ⟨now, rfl⟩ := exists_store_of_outcomes hone
        have hundated := hmeets.at ht rfl stored hstored (hkind.trans heq)
        exact ⟨heq.symm, hundated.trans hdate⟩
      next => exact ⟨rfl, rfl⟩

/-- The dates are those of the outages exactly while no outcome is repeated at
another time. -/
theorem datesOutages_iff {start : Transitions} {record : SourceRecord}
    (hrecord : start.registry.get sourceId = some record) :
    DatesOutages sourceId record.state start acts ↔
      Machine.Meets step (Undated sourceId) start acts := by
  constructor
  · intro hdates
    refine Machine.meets_of_at fun before act after t hsplit hbefore => ?_
    cases act with
    | store id newState now =>
      rintro rfl stored hstored hsame
      cases hstep : step t (.store id newState now) with
      | none =>
        simp only [step] at hstep
        split at hstep <;> cases hstep
      | some s' =>
        obtain ⟨after', hafter, hcase⟩ := (Step.of_step hstep).stored hstored
        rw [outcomes_store] at hcase
        obtain ⟨hone, -⟩ := hcase.resolve_left fun h => absurd h.1 (List.cons_ne_nil _ _)
        obtain ⟨-, hkeeps⟩ := hdates before _ after t s' hsplit hbefore hstep
        rw [(List.cons.inj hone).1]
        exact (hkeeps newState now stored rfl hstored hsame).1 after' hafter
    | broadcast => trivial
    | receive => trivial
  · rintro hmeets before act after t t' rfl hbefore hstep
    have hrun : Machine.exec step start (before ++ [act]) = some t' :=
      Machine.exec_append.mpr ⟨t, hbefore, Machine.exec_cons.mpr ⟨t', hstep, rfl⟩⟩
    have hmeets' : Machine.Meets step (Undated sourceId) start (before ++ [act]) := by
      rw [List.append_cons] at hmeets
      exact hmeets.left
    obtain ⟨stored, hstored, -, hdate⟩ := exec_runStart hmeets' hrun hrecord
    refine ⟨fun other hother => ?_, ?_⟩
    · cases hstored.symm.trans hother
      exact hdate
    · rintro newState now old rfl hold hsame
      obtain ⟨after', hafter, hcase⟩ := (Step.of_step hstep).stored hold
      rw [outcomes_store] at hcase
      obtain ⟨hone, hhistory⟩ := hcase.resolve_left fun h => absurd h.1 (List.cons_ne_nil _ _)
      have hnew := (List.cons.inj hone).1
      refine ⟨fun other hother => ?_, hhistory (hnew ▸ hsame)⟩
      cases hafter.symm.trans hother
      rw [← hnew]
      exact hmeets.at hbefore rfl old hold hsame

end Runs

/-- A probe of a local directory, stored when it has ended. -/
def Act.probed (now : Nat) (reply : DirectoryReply) : Act :=
  .store "usb".toList (probeSource 3000 now (.directory reply)) now

/-- The source is slow, gone a minute later, and there again. -/
theorem datesOutages_slow_then_gone :
    DatesOutages "usb".toList .online (start usbOnline)
      [.probed 1000 (.metadata true 4000), .probed 61000 .notFound,
        .probed 121000 (.metadata true 5)] := by
  have hrecord : usbOnline.get "usb".toList =
      some ⟨"usb".toList, UnixPath.components "/mnt/usb".toList, .online, none⟩ := by decide
  have hmeets : Machine.Meets step (Undated "usb".toList) (start usbOnline)
      [.probed 1000 (.metadata true 4000), .probed 61000 .notFound,
        .probed 121000 (.metadata true 5)] := by decide
  have hdates := (datesOutages_iff hrecord).mpr hmeets
  exact hdates

/-- The mount is gone, and still gone a minute later. -/
theorem repeated_outcome_redates_outage :
    ¬DatesOutages "usb".toList .online (start usbOnline)
      [.probed 1000 .notFound, .probed 61000 .notFound] := by
  intro h
  obtain ⟨t, ht, hafter⟩ := Machine.exec_of_any step (start usbOnline) [.probed 1000 .notFound]
    (fun t => (step t (.probed 61000 .notFound)).any fun s =>
      (s.registry.get "usb".toList).any fun record => record.state.sinceMs = some 61000) (by decide)
  obtain ⟨s, hs, hstored⟩ := (Option.any_eq_true ..).mp hafter
  obtain ⟨record, hrecord, hdate⟩ := (Option.any_eq_true ..).mp hstored
  have hdated := (h [.probed 1000 .notFound] (.probed 61000 .notFound) [] t s rfl ht hs).1 record
    hrecord
  rw [of_decide_eq_true hdate] at hdated
  exact absurd hdated (by decide)

end Transitions

end EvoAudio.Playback
