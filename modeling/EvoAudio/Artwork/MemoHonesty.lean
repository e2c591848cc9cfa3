import EvoAudio.Artwork.Cascade
import EvoAudio.Artwork.NegativeCache

/-!
# What the negative memo remembers

`run_cascade` writes a note under the default lifetime where a tier has nothing,
and the pre-check of `resolve` answers from it later. The outcome of the call that
writes is read from its error text by `classify_fetcher_error`, the later one from
the status of the note. An online tier is noted for the status `not_found` only; a
local one that names no identity is noted whatever its status says.
-/

namespace EvoAudio.Artwork.Memo

/-- What a call of `run_cascade` comes to. `last` is the reply of the last tier
that it dispatched to. -/
structure CascadeRun where
  outcome : ResolveOutcome
  negative : Option NegativeNote
  last : Option Reply
  deriving DecidableEq, Repr

/-- A tier's verdict on a reply, and what comes of the tier that it asks. -/
def CascadeRun.after (reply : Reply) (asked : CascadeRun) : Verdict → CascadeRun
  | .done outcome negative => ⟨outcome, negative, some reply⟩
  | .online => asked

/-- The admission and the dispatch of an online tier, after a reply of the local
one if there was one. -/
def askOnline (scheme : List Char) (tier : Tier) (last : Option Reply)
    (refusal : Option Cascade.AdmissionError) (reply : Reply) : CascadeRun :=
  match refusal with
  | some refusal => ⟨.error (refusal.reason scheme), none, last⟩
  -- The verdict is always `done`: an online tier asks no other.
  | none => .after reply ⟨.error [], none, some reply⟩ (verdict scheme tier reply)

def runCascade (scheme : List Char) (localReply : Reply) (refusal : Option Cascade.AdmissionError)
    (onlineReply : Reply) : CascadeRun :=
  match firstTier scheme with
  | .local => .after localReply (askOnline scheme .online (some localReply) refusal onlineReply)
      (verdict scheme .local localReply)
  | tier => askOnline scheme tier none refusal onlineReply

/-- The pre-check of `resolve`. -/
def memoAnswer (cache : NegativeCache) (key : Key) (now : Nat) : Option CascadeOutcome :=
  (cache.get key now).1.map fun entry => replay entry.note

inductive OutcomeClass where
  | resolved
  | notFound
  | badRequest
  | admissionDeadline
  | coalescerDeadline
  | transient
  deriving DecidableEq, Repr

def outcomeClass : CascadeOutcome → OutcomeClass
  | .resolved _ _ => .resolved
  | .notFound _ _ => .notFound
  | .badRequest _ => .badRequest
  | .admissionDeadline _ => .admissionDeadline
  | .coalescerDeadline _ => .coalescerDeadline
  | .transient _ => .transient

def Reply.Answers (status : List Char) : Reply → Prop
  | .response response => response.extractStatus = status
  | _ => False

/-- What is noted is an absence that the last tier has named, and a resolve that a
cache with this note answers hears what the resolve that wrote it has heard. -/
def Honest (run : CascadeRun) : Prop :=
  ∀ note ∈ run.negative,
    (∃ reply ∈ run.last, Reply.Answers "not_found".toList reply) ∧
      ∃ reason, run.outcome = .error reason ∧
        ∀ (cache : NegativeCache) (key : Key) (now : Nat),
          (∀ entry ∈ cache.map.lookup key, entry.note = note) →
          ∀ answer ∈ memoAnswer cache key now,
            outcomeClass answer = outcomeClass (classifyFetcherError reason)

/-- The local tier has bytes, refuses the request, names what to ask online for,
or names an absence. -/
def NamesAbsence (response : Response) : Prop :=
  response.extractContentHash.isSome ∨ response.extractStatus = "bad_request".toList ∨
    response.extractIdentity.isSome ∨ response.extractStatus = "not_found".toList

-- ---------------------------------------------------------------------------
-- Outcomes and replays
-- ---------------------------------------------------------------------------

theorem classify_notResolved {response : Response} (h : notResolved response = .error reason) :
    outcomeClass (classifyFetcherError reason) = .notFound := by
  cases h
  rw [classifyFetcherError]
  repeat rw [String.toList_ofList]
  rfl

theorem memoAnswer_class {cache : NegativeCache} (hstatus : note.status = "not_found".toList)
    (hnote : ∀ entry ∈ cache.map.lookup key, entry.note = note)
    (h : answer ∈ memoAnswer cache key now) : outcomeClass answer = .notFound := by
  obtain ⟨entry, hget, rfl⟩ := Option.map_eq_some_iff.mp h
  have hentry : entry ∈ cache.map.lookup key := by
    unfold NegativeCache.get at hget
    split at hget
    · cases hget
    next stored hstored =>
      split at hget
      · cases hget
        exact hstored
      · cases hget
  rw [hnote entry hentry, replay, hstatus]
  rfl

/-- A note of an absence is honest. -/
theorem honest_of_not_found {response : Response}
    (h : response.extractStatus = "not_found".toList) :
    Honest ⟨notResolved response, some response.note, some (.response response)⟩ := by
  rintro _ ⟨⟩
  refine ⟨⟨_, rfl, h⟩, _, rfl, fun cache key now hnote answer hanswer => ?_⟩
  rw [memoAnswer_class h hnote hanswer, classify_notResolved rfl]

theorem honest_of_none (outcome : ResolveOutcome) (last : Option Reply) :
    Honest ⟨outcome, none, last⟩ := by
  rintro _ ⟨⟩

theorem honest_afterOnline (requestType : List Char) (reply : Reply) (asked : CascadeRun) :
    Honest (.after reply asked (afterOnline requestType reply)) := by
  cases reply with
  | failed error => exact honest_of_none _ _
  | malformed envelope => exact honest_of_none _ _
  | response response =>
    rw [afterOnline]
    split
    · exact honest_of_none _ _
    split
    next habsent => exact honest_of_not_found habsent
    split
    · exact honest_of_none _ _
    · exact honest_of_none _ _

theorem honest_askOnline (scheme : List Char) {tier : Tier} (htier : tier ≠ .local)
    (last : Option Reply) (refusal : Option Cascade.AdmissionError) (reply : Reply) :
    Honest (askOnline scheme tier last refusal reply) := by
  cases refusal with
  | some refusal => exact honest_of_none _ _
  | none =>
    cases tier with
    | artist => exact honest_afterOnline _ reply _
    | «local» => exact absurd rfl htier
    | online => exact honest_afterOnline _ reply _

/-- The local tier: without bytes, a refusal or an identity its status is noted as
it is. -/
theorem honest_afterLocal_iff (hasked : Honest asked) (hscheme : scheme ≠ "artist-name".toList)
    (response : Response) :
    Honest (.after (.response response) asked (afterLocal scheme (.response response))) ↔
      NamesAbsence response := by
  unfold NamesAbsence
  rw [afterLocal]
  split
  next hash hhash => exact iff_of_true (honest_of_none _ _) (.inl (by simp [hhash]))
  next hhash =>
    split
    next hbad => exact iff_of_true (honest_of_none _ _) (.inr (.inl hbad))
    next hbad =>
      split
      next identity hidentity =>
        exact iff_of_true hasked (.inr (.inr (.inl (by simp [hidentity]))))
      next hidentity =>
        simp only [hhash, hbad, hidentity, Option.isSome_none, Bool.false_eq_true, false_or]
        constructor
        · intro h
          obtain ⟨⟨_, hlast, hstatus⟩, -⟩ := h _ rfl
          cases hlast
          exact hstatus
        · exact honest_of_not_found

/-- For every reply of the two plugins and every refusal of an admission, a note is
honest unless the local tier was asked for something else than an artist and had
neither bytes nor an identity, and a status of its own. -/
theorem runCascade_honest_iff (scheme : List Char) (localReply : Reply)
    (refusal : Option Cascade.AdmissionError) (onlineReply : Reply) :
    Honest (runCascade scheme localReply refusal onlineReply) ↔
      scheme = "artist-mbid".toList ∨ scheme = "artist-name".toList ∨
        ∀ response, localReply = .response response → NamesAbsence response := by
  unfold runCascade firstTier
  by_cases hmbid : scheme = "artist-mbid".toList
  · rw [if_pos hmbid]
    exact iff_of_true (honest_askOnline scheme (by decide) none refusal onlineReply) (.inl hmbid)
  rw [if_neg hmbid]
  have htier : Tier.online ≠ .local := by decide
  have hasked := honest_askOnline scheme htier (some localReply) refusal onlineReply
  cases localReply with
  | failed error => exact iff_of_true (honest_of_none _ _) (.inr (.inr fun _ h => by cases h))
  | malformed envelope => exact iff_of_true (honest_of_none _ _) (.inr (.inr fun _ h => by cases h))
  | response response =>
    by_cases hname : scheme = "artist-name".toList
    · refine iff_of_true ?_ (.inr (.inl hname))
      dsimp only [verdict, afterLocal]
      split
      · exact honest_of_none _ _
      split
      · exact honest_of_none _ _
      · exact hasked
    · dsimp only [verdict]
      rw [honest_afterLocal_iff hasked hname, or_iff_right hmbid, or_iff_right hname]
      simp

/-- A local plugin that is unavailable and has read no tags. -/
def unavailableLocally : Response := ⟨some "unavailable".toList, none, none, none, none⟩

def localFailure : CascadeRun :=
  runCascade "mpd-album".toList (.response unavailableLocally) none (.failed "unreachable".toList)

/-- The plugin's failure is noted as an absence is. The call that notes it answers
that there is nothing, and the next one that the plugin is unavailable. -/
theorem local_failure_is_noted :
    localFailure.negative = some unavailableLocally.note ∧
      outcomeClass (replay unavailableLocally.note) = .transient ∧
      (∃ reason, localFailure.outcome = .error reason ∧
        outcomeClass (classifyFetcherError reason) = .notFound) ∧
      ¬Honest localFailure := by
  refine ⟨by decide, by decide, ⟨_, rfl, classify_notResolved rfl⟩, fun h => ?_⟩
  obtain ⟨⟨reply, hlast, hstatus⟩, -⟩ := h unavailableLocally.note rfl
  cases hlast
  exact absurd hstatus (by unfold Reply.Answers; decide)

end EvoAudio.Artwork.Memo
