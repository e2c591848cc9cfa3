import EvoAudio.Lib.Json
import EvoAudio.Lib.StableSort
import EvoAudio.Lib.UnixPath

/-!
# Which artist image is taken

`artwork.online/src/artist_cascade.rs`: five providers are asked, their answers are put in the
operator's order, and the first one with a portrait is taken. Deezer is asked last, and not at
all if what it could answer would not be taken.
-/

namespace EvoAudio.Online

open StableSort

inductive ArtistProviderId where
  | volumioMeta
  | theAudioDb
  | deezer
  | fanartTv
  | discogs
  deriving DecidableEq, Repr

namespace ArtistProviderId

def asStr : ArtistProviderId → List Char
  | .volumioMeta => "volumio_meta".toList
  | .theAudioDb => "theaudiodb".toList
  | .deezer => "deezer".toList
  | .fanartTv => "fanart_tv".toList
  | .discogs => "discogs".toList

def fromWire (id : List Char) : Option ArtistProviderId :=
  if id = "volumio_meta".toList then some .volumioMeta
  else if id = "theaudiodb".toList then some .theAudioDb
  else if id = "deezer".toList then some .deezer
  else if id = "fanart_tv".toList then some .fanartTv
  else if id = "discogs".toList then some .discogs
  else none

/-- Whether the operator's credentials go with the request. -/
def identityBearing : ArtistProviderId → Bool
  | .fanartTv | .discogs => true
  | _ => false

@[simp] theorem fromWire_asStr (p : ArtistProviderId) : fromWire p.asStr = some p := by
  cases p <;> rfl

end ArtistProviderId

structure ArtistProviderFlags where
  enabled : Bool
  priority : UInt32
  deriving DecidableEq, Repr

structure ArtistProviderConfig where
  volumioMeta : ArtistProviderFlags
  theAudioDb : ArtistProviderFlags
  deezer : ArtistProviderFlags
  fanartTv : ArtistProviderFlags
  discogs : ArtistProviderFlags
  deriving DecidableEq, Repr

namespace ArtistProviderConfig

def defaults : ArtistProviderConfig where
  fanartTv := ⟨true, 40⟩
  discogs := ⟨true, 42⟩
  deezer := ⟨true, 45⟩
  theAudioDb := ⟨true, 50⟩
  volumioMeta := ⟨true, 55⟩

def flags (config : ArtistProviderConfig) : ArtistProviderId → ArtistProviderFlags
  | .volumioMeta => config.volumioMeta
  | .theAudioDb => config.theAudioDb
  | .deezer => config.deezer
  | .fanartTv => config.fanartTv
  | .discogs => config.discogs

end ArtistProviderConfig

-- ---------------------------------------------------------------------------
-- Portraits
-- ---------------------------------------------------------------------------

structure Attribution where
  sourceName : List Char
  sourceUrl : Option (List Char)
  license : List Char
  deriving DecidableEq, Repr

structure SourceEntry where
  providerId : List Char
  privacyClass : List Char
  payload : Json
  attribution : Attribution

def emptyHashMd5Hex : List Char := "d41d8cd98f00b204e9800998ecf8427e".toList

/-- What is behind the host, or everything if there is no scheme. -/
def urlPath (url : List Char) : List Char :=
  ((Text.splitOnce "://".toList url).map fun parts =>
    ((Text.splitOnce ['/'] parts.2).map Prod.snd).getD []).getD url

def isRealImageUrl (url : List Char) : Bool :=
  !decide ("//".toList <:+: urlPath url) && !((urlPath url).splitOn '/').contains emptyHashMd5Hex

/-- A text that is there and is the address of an image. -/
def portraitText (value : Json) : Option (List Char) :=
  value.asStr.bind fun text =>
    let url := Text.trim text
    if !url.isEmpty && isRealImageUrl url then some url else none

def asArray : Json → Option (List Json)
  | .array elements => some elements
  | _ => none

def stringKeys : List (List Char) :=
  ["image_url".toList, "thumb_url".toList, "picture_xl_url".toList, "picture_big_url".toList,
    "picture_medium_url".toList, "picture_small_url".toList]

def portraitArrayKeys : List (List Char) :=
  ["artist_thumb_urls".toList, "artist_background_urls".toList]

def pickCanonicalImageUrl (payload : Json) : Option (List Char) :=
  (stringKeys.findSome? fun key => (payload.get key).bind portraitText).or
    (portraitArrayKeys.findSome? fun key =>
      ((payload.get key).bind asArray).bind fun elements => elements.findSome? portraitText)

def SourceEntry.portrait (entry : SourceEntry) : Bool := (pickCanonicalImageUrl entry.payload).isSome

-- ---------------------------------------------------------------------------
-- The response
-- ---------------------------------------------------------------------------

inductive ProviderOutcome where
  | hit (entry : SourceEntry)
  | absent
  | unavailable

def ProviderOutcome.entry : ProviderOutcome → Option SourceEntry
  | .hit entry => some entry
  | _ => none

def ProviderOutcome.transient : ProviderOutcome → Bool
  | .unavailable => true
  | _ => false

def hits (outcomes : List ProviderOutcome) : List SourceEntry :=
  outcomes.filterMap ProviderOutcome.entry

inductive CascadeStatus where
  | ok
  | notFound
  | unavailable
  | notConfigured
  | badRequest
  deriving DecidableEq, Repr

structure ArtistArtworkResponse where
  v : Nat
  status : CascadeStatus
  providerId : Option (List Char)
  privacyClass : Option (List Char)
  payload : Option Json
  imageUrl : Option (List Char)
  detail : Option (List Char)
  attribution : Option Attribution
  sources : List SourceEntry

namespace ArtistArtworkResponse

/-- An answer without an image. -/
def plain (status : CascadeStatus) (detail : Option (List Char)) (sources : List SourceEntry) :
    ArtistArtworkResponse :=
  ⟨1, status, none, none, none, none, detail, none, sources⟩

def fromSources (sources : List SourceEntry) : ArtistArtworkResponse :=
  (sources.find? SourceEntry.portrait).elim (plain .notFound none sources) fun s =>
    ⟨1, .ok, some s.providerId, some s.privacyClass, some s.payload, pickCanonicalImageUrl s.payload,
      none, some s.attribution, sources⟩

def fromProviderOutcomes (outcomes : List ProviderOutcome) : ArtistArtworkResponse :=
  if (hits outcomes).isEmpty then
    if outcomes.any ProviderOutcome.transient then
      plain .unavailable
        (some "every enabled provider errored transiently; retry on next gesture".toList) []
    else plain .notFound (some "no artist artwork across enabled providers".toList) []
  else fromSources (hits outcomes)

end ArtistArtworkResponse

open ArtistArtworkResponse

/-- The operator's rank of a source; one of no known provider is last. -/
def sourceRank (config : ArtistProviderConfig) (s : SourceEntry) : Nat :=
  ((ArtistProviderId.fromWire s.providerId).map fun p =>
    (config.flags p).priority.toNat).getD (UInt32.size - 1)

def sortSourcesByPriority (config : ArtistProviderConfig) (sources : List SourceEntry) :
    List SourceEntry :=
  sortByKey (sourceRank config) sources

/-- The end of `run_cascade`: an answer with a portrait is built again in the operator's order. -/
def aggregate (config : ArtistProviderConfig) (outcomes : List ProviderOutcome) :
    ArtistArtworkResponse :=
  let response := fromProviderOutcomes outcomes
  if response.status = .ok then fromSources (sortSourcesByPriority config response.sources)
  else response

/-- Whether an answer with a portrait goes before what Deezer would answer. -/
def outranks (config : ArtistProviderConfig) (outcome : ProviderOutcome) (index : Nat) : Bool :=
  outcome.entry.any fun entry =>
    (ArtistProviderId.fromWire entry.providerId).any fun p =>
      let deezer := (config.flags .deezer).priority
      ((config.flags p).priority < deezer || ((config.flags p).priority = deezer && index < 2)) &&
        entry.portrait

/-- The four other answers, with the places they have among the five. -/
structure NonDeezer where
  volumio : ProviderOutcome
  tadb : ProviderOutcome
  fanart : ProviderOutcome
  discogs : ProviderOutcome

def NonDeezer.outcomes (o : NonDeezer) (deezer : ProviderOutcome) : List ProviderOutcome :=
  [o.volumio, o.tadb, deezer, o.fanart, o.discogs]

def deezerIsOutranked (config : ArtistProviderConfig) (o : NonDeezer) : Bool :=
  outranks config o.volumio 0 || outranks config o.tadb 1 || outranks config o.fanart 3 ||
    outranks config o.discogs 4

variable {config : ArtistProviderConfig} {outcomes : List ProviderOutcome}

-- ---------------------------------------------------------------------------
-- What is taken
-- ---------------------------------------------------------------------------

section Found

variable {found : List SourceEntry}

theorem fromSources_of_find (h : found.find? SourceEntry.portrait = some s) :
    fromSources found = ⟨1, .ok, some s.providerId, some s.privacyClass, some s.payload,
      pickCanonicalImageUrl s.payload, none, some s.attribution, found⟩ := by
  rw [fromSources, h]
  rfl

theorem fromSources_of_none (h : found.find? SourceEntry.portrait = none) :
    fromSources found = plain .notFound none found := by
  rw [fromSources, h]
  rfl

end Found

/-- The order is the operator's wherever a portrait is there. -/
theorem aggregate_of_least (h : least (sourceRank config) SourceEntry.portrait (hits outcomes) = some s) :
    aggregate config outcomes = ⟨1, .ok, some s.providerId, some s.privacyClass, some s.payload,
      pickCanonicalImageUrl s.payload, none, some s.attribution,
      sortSourcesByPriority config (hits outcomes)⟩ := by
  have hmem := mem_of_least h
  obtain ⟨t, ht⟩ : ∃ t, (hits outcomes).find? SourceEntry.portrait = some t := by
    rw [← Option.isSome_iff_exists, List.find?_isSome]
    exact ⟨s, hmem⟩
  have hfirst : fromProviderOutcomes outcomes = fromSources (hits outcomes) := by
    refine if_neg fun hnone => ?_
    rw [List.isEmpty_iff.mp hnone] at hmem
    exact absurd hmem.1 (by simp)
  have hsorted : (sortSourcesByPriority config (hits outcomes)).find? SourceEntry.portrait = some s :=
    (find?_sortByKey _).trans h
  rw [aggregate, hfirst, fromSources_of_find ht]
  exact (if_pos rfl).trans (fromSources_of_find hsorted)

/-- Without a portrait there is an answer only about those who answered: the artist has no
portrait if one of them had anything or nobody failed. -/
theorem aggregate_of_none
    (h : least (sourceRank config) SourceEntry.portrait (hits outcomes) = none) :
    (aggregate config outcomes).status =
      if hits outcomes = [] ∧ outcomes.any ProviderOutcome.transient = true then .unavailable
      else .notFound := by
  have hfind : (hits outcomes).find? SourceEntry.portrait = none :=
    List.find?_eq_none.mpr fun s hs => by simp [least_eq_none.mp h s hs]
  rw [aggregate, fromProviderOutcomes]
  by_cases hnone : hits outcomes = []
  · cases htransient : outcomes.any ProviderOutcome.transient <;> simp [hnone, plain]
  · have hsome : (hits outcomes).isEmpty = false := by simpa using hnone
    simp [hsome, hnone, fromSources_of_none hfind, plain]

/-- What the answer says of the five outcomes. A portrait is taken from the source of the least
priority, the first of them, whatever the others did. Where there is none, the artist is not found,
unless nobody had anything and someone failed. -/
theorem aggregate_iff (config : ArtistProviderConfig) (outcomes : List ProviderOutcome) :
    let response := aggregate config outcomes
    (∃ before s after, hits outcomes = before ++ s :: after ∧
      IsLeast (sourceRank config) SourceEntry.portrait before s after ∧
      response = ⟨1, .ok, some s.providerId, some s.privacyClass, some s.payload,
        pickCanonicalImageUrl s.payload, none, some s.attribution,
        sortSourcesByPriority config (hits outcomes)⟩) ∨
    (∀ s ∈ hits outcomes, s.portrait = false) ∧
      response.status =
        if hits outcomes = [] ∧ outcomes.any ProviderOutcome.transient = true then .unavailable
        else .notFound := by
  cases hleast : least (sourceRank config) SourceEntry.portrait (hits outcomes) with
  | some s =>
    obtain ⟨before, after, hsplit, hs⟩ := exists_isLeast hleast
    exact .inl ⟨before, s, after, hsplit, hs, aggregate_of_least hleast⟩
  | none => exact .inr ⟨least_eq_none.mp hleast, aggregate_of_none hleast⟩

-- ---------------------------------------------------------------------------
-- Leaving Deezer out
-- ---------------------------------------------------------------------------

theorem sourceRank_of_wire {s : SourceEntry} (h : ArtistProviderId.fromWire s.providerId = some p) :
    sourceRank config s = (config.flags p).priority.toNat := by
  rw [sourceRank, h]
  rfl

/-- An answer outranks Deezer if it has a portrait, and a lesser priority or the same and an
earlier place. -/
theorem outranks_iff {outcome : ProviderOutcome} {index : Nat} {d : SourceEntry}
    (hd : d.providerId = "deezer".toList) :
    outranks config outcome index = true ↔
      ∃ o, outcome.entry = some o ∧ o.portrait = true ∧
        (ArtistProviderId.fromWire o.providerId).isSome = true ∧
        (sourceRank config o < sourceRank config d ∨
          sourceRank config o = sourceRank config d ∧ index < 2) := by
  have hdeezer : sourceRank config d = (config.flags .deezer).priority.toNat :=
    sourceRank_of_wire (by rw [hd]; rfl)
  rw [outranks, Option.any_eq_true]
  refine exists_congr fun o => and_congr_right fun _ => ?_
  cases hwire : ArtistProviderId.fromWire o.providerId with
  | none => simp
  | some p =>
    rw [hdeezer, sourceRank_of_wire hwire, ← UInt32.lt_iff_toNat_lt, UInt32.toNat_inj]
    simp [and_comm]

theorem hits_outcomes (o : NonDeezer) (deezer : ProviderOutcome) :
    hits (o.outcomes deezer) = hits [o.volumio, o.tadb] ++
      (deezer.entry.toList ++ hits [o.fanart, o.discogs]) := by
  have hone : hits [deezer] = deezer.entry.toList := by
    cases deezer <;> rfl
  have hsplit : o.outcomes deezer = [o.volumio, o.tadb] ++ ([deezer] ++ [o.fanart, o.discogs]) := rfl
  rw [hsplit, ← hone, hits, List.filterMap_append, List.filterMap_append]
  rfl

theorem mem_hits {outcome : ProviderOutcome} (h : outcome.entry = some s) (hmem : outcome ∈ outcomes) :
    s ∈ hits outcomes :=
  List.mem_filterMap.mpr ⟨outcome, hmem, h⟩

/-- Something stands before Deezer in the operator's order. -/
def Beaten (config : ArtistProviderConfig) (o : NonDeezer) (d : SourceEntry) : Prop :=
  (∃ s ∈ hits [o.volumio, o.tadb], s.portrait = true ∧ sourceRank config s ≤ sourceRank config d) ∨
    ∃ s ∈ hits [o.fanart, o.discogs], s.portrait = true ∧ sourceRank config s < sourceRank config d

theorem beaten_of_outranked (o : NonDeezer) {d : SourceEntry} (hd : d.providerId = "deezer".toList)
    (h : deezerIsOutranked config o = true) : Beaten config o d := by
  rw [deezerIsOutranked, Bool.or_eq_true, Bool.or_eq_true, Bool.or_eq_true] at h
  simp only [outranks_iff hd] at h
  rcases h with ((⟨s, hs, hp, -, hr⟩ | ⟨s, hs, hp, -, hr⟩) | ⟨s, hs, hp, -, hr⟩) | ⟨s, hs, hp, -, hr⟩
  · exact .inl ⟨s, mem_hits hs (by simp), hp, by omega⟩
  · exact .inl ⟨s, mem_hits hs (by simp), hp, by omega⟩
  · exact .inr ⟨s, mem_hits hs (by simp), hp, by omega⟩
  · exact .inr ⟨s, mem_hits hs (by simp), hp, by omega⟩

/-- The test finds everything that stands before Deezer and is of a known provider. -/
theorem outranked_of_beaten (o : NonDeezer) {d : SourceEntry} (hd : d.providerId = "deezer".toList)
    (hknown : ∀ s ∈ hits (o.outcomes .absent),
      (ArtistProviderId.fromWire s.providerId).isSome = true)
    (h : Beaten config o d) : deezerIsOutranked config o = true := by
  rw [hits_outcomes] at hknown
  rw [deezerIsOutranked, Bool.or_eq_true, Bool.or_eq_true, Bool.or_eq_true]
  simp only [outranks_iff hd]
  rcases h with ⟨s, hs, hp, hr⟩ | ⟨s, hs, hp, hr⟩
  · have hk := hknown s (List.mem_append_left _ hs)
    obtain ⟨outcome, hmem, hentry⟩ := List.mem_filterMap.mp hs
    rcases List.mem_pair.mp hmem with rfl | rfl
    · exact .inl (.inl (.inl ⟨s, hentry, hp, hk, by omega⟩))
    · exact .inl (.inl (.inr ⟨s, hentry, hp, hk, by omega⟩))
  · have hk := hknown s (List.mem_append_right _ hs)
    obtain ⟨outcome, hmem, hentry⟩ := List.mem_filterMap.mp hs
    rcases List.mem_pair.mp hmem with rfl | rfl
    · exact .inl (.inr ⟨s, hentry, hp, hk, .inl hr⟩)
    · exact .inr ⟨s, hentry, hp, hk, .inl hr⟩

theorem least_of_beaten (o : NonDeezer) {d : SourceEntry} (h : Beaten config o d) :
    least (sourceRank config) SourceEntry.portrait (hits (o.outcomes (.hit d))) =
      least (sourceRank config) SourceEntry.portrait (hits (o.outcomes .absent)) := by
  rw [hits_outcomes, hits_outcomes]
  exact least_skip h

theorem portrait_of_outranks {outcome : ProviderOutcome} {index : Nat}
    (h : outranks config outcome index = true) : ∃ s, outcome.entry = some s ∧ s.portrait = true := by
  obtain ⟨s, hs, h⟩ := (Option.any_eq_true _ _).mp h
  obtain ⟨p, -, h⟩ := (Option.any_eq_true _ _).mp h
  exact ⟨s, hs, (Bool.and_eq_true_iff.mp h).2⟩

theorem least_of_outranked (o : NonDeezer) (h : deezerIsOutranked config o = true) :
    ∃ s, least (sourceRank config) SourceEntry.portrait (hits (o.outcomes .absent)) = some s := by
  have hportrait : ∃ s ∈ hits (o.outcomes .absent), s.portrait = true := by
    rw [deezerIsOutranked, Bool.or_eq_true, Bool.or_eq_true, Bool.or_eq_true] at h
    rcases h with ((h | h) | h) | h <;> obtain ⟨s, hs, hp⟩ := portrait_of_outranks h <;>
      exact ⟨s, mem_hits hs (by simp [NonDeezer.outcomes]), hp⟩
  obtain ⟨s, hs, hp⟩ := hportrait
  rw [← Option.ne_none_iff_exists', Ne, least_eq_none]
  intro hnone
  exact absurd hp (by simp [hnone s hs])

/-- Where Deezer is not asked, whatever it would have answered would have changed nothing of the
answer but the list of sources. -/
theorem outranked_answer_same (o : NonDeezer) {deezer : ProviderOutcome}
    (h : deezerIsOutranked config o = true)
    (hdeezer : ∀ d, deezer.entry = some d → d.providerId = "deezer".toList) :
    aggregate config (o.outcomes deezer) =
      { aggregate config (o.outcomes .absent) with
        sources := sortSourcesByPriority config (hits (o.outcomes deezer)) } := by
  obtain ⟨s, hs⟩ := least_of_outranked o h
  have hsame : least (sourceRank config) SourceEntry.portrait (hits (o.outcomes deezer)) = some s := by
    cases deezer with
    | hit d => exact (least_of_beaten o (beaten_of_outranked o (hdeezer d rfl) h)).trans hs
    | absent => exact hs
    | unavailable => exact hs
  rw [aggregate_of_least hsame, aggregate_of_least hs]

def examplePhoto (p : ArtistProviderId) (key : List Char) (value : Json) : SourceEntry :=
  ⟨p.asStr, [], .object [(key, value)], ⟨[], none, []⟩⟩

/-- fanart.tv has a photo and TheAudioDB failed. -/
def exampleOthers : NonDeezer where
  volumio := .absent
  tadb := .unavailable
  fanart := .hit (examplePhoto .fanartTv "artist_thumb_urls".toList (.array [.string "a/b".toList]))
  discogs := .absent

def exampleDeezer : SourceEntry :=
  examplePhoto .deezer "picture_xl_url".toList (.string "c".toList)

theorem outranked_answer_same_fanart :
    deezerIsOutranked .defaults exampleOthers = true ∧
      aggregate .defaults (exampleOthers.outcomes (.hit exampleDeezer)) =
        { aggregate .defaults (exampleOthers.outcomes .absent) with
          sources := sortSourcesByPriority .defaults (hits (exampleOthers.outcomes (.hit exampleDeezer))) } := by
  have houtranked : deezerIsOutranked .defaults exampleOthers = true := by decide
  refine ⟨houtranked, outranked_answer_same exampleOthers houtranked ?_⟩
  rintro d ⟨⟩
  rfl

/-- Deezer is asked exactly when a portrait of its own would be the one that is taken. -/
theorem deezer_taken_iff (o : NonDeezer) {d : SourceEntry} (hd : d.providerId = "deezer".toList)
    (hportrait : d.portrait = true)
    (hothers : ∀ s ∈ hits (o.outcomes .absent),
      (ArtistProviderId.fromWire s.providerId).isSome = true ∧ s.providerId ≠ d.providerId) :
    (aggregate config (o.outcomes (.hit d))).providerId = some d.providerId ↔
      deezerIsOutranked config o = false := by
  by_cases hbeaten : Beaten config o d
  · have houtranked := outranked_of_beaten o hd (fun t ht => (hothers t ht).1) hbeaten
    obtain ⟨s, hs⟩ := least_of_outranked o houtranked
    rw [aggregate_of_least ((least_of_beaten o hbeaten).trans hs), houtranked]
    simpa using (hothers s (mem_of_least hs).1).2
  · have hleast : IsLeast (sourceRank config) SourceEntry.portrait (hits [o.volumio, o.tadb]) d
        (hits [o.fanart, o.discogs]) := by
      rw [Beaten, not_or] at hbeaten
      push Not at hbeaten
      exact ⟨hportrait, hbeaten.1, hbeaten.2⟩
    have hd' : least (sourceRank config) SourceEntry.portrait (hits (o.outcomes (.hit d))) = some d := by
      rw [hits_outcomes]
      exact hleast.least_eq
    rw [aggregate_of_least hd']
    have hfree : deezerIsOutranked config o = false :=
      Bool.eq_false_iff.mpr fun h => hbeaten (beaten_of_outranked o hd h)
    simp [hfree]

theorem deezer_taken_fanart :
    (aggregate .defaults (exampleOthers.outcomes (.hit exampleDeezer))).providerId =
        some exampleDeezer.providerId ↔
      deezerIsOutranked .defaults exampleOthers = false := by
  refine deezer_taken_iff exampleOthers rfl (by decide) ?_
  intro s hs
  have hfanart : s = examplePhoto .fanartTv "artist_thumb_urls".toList
      (.array [.string "a/b".toList]) := by
    rcases List.mem_singleton.mp hs with rfl
    rfl
  rw [hfanart]
  decide

end EvoAudio.Online
