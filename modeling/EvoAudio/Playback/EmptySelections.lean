import EvoAudio.Playback.PlaylistLoads

/-!
# Selections that match nothing

Before `queue.enqueue_selection` adds a filter to the queue it asks MPD for the
`count` of its songs, and answers `empty` when there is none. `count` compares
tags as `find` does. The songs of a substring filter are added by `searchadd`,
which finds more than that.
-/

namespace EvoAudio.Playback

open Procedure (Triple)

/-- How MPD compares the tags of its songs: the values that stand for a tag of a
song, and the folding of upper and lower case. -/
structure TagIndex where
  values : List Char → String → List (List Char)
  fold : List Char → List Char

namespace TagIndex

variable (index : TagIndex)

/-- `find`: one of the values is the value asked for. -/
def finds (song : List Char) (pair : String × List Char) : Bool :=
  (index.values song pair.1).contains pair.2

/-- `search`: one of the values contains the value asked for, in any case. -/
def searches (song : List Char) (pair : String × List Char) : Bool :=
  (index.values song pair.1).any fun value => index.fold pair.2 <:+: index.fold value

theorem searches_of_finds {song : List Char} {pair : String × List Char}
    (h : index.finds song pair) : index.searches song pair := by
  refine List.any_eq_true.mpr ⟨pair.2, List.contains_iff_mem.mp h, ?_⟩
  exact decide_eq_true List.infix_rfl

end TagIndex

/-- The library is matched by the tags of the index. -/
structure Library.TaggedBy (library : Library) (index : TagIndex) : Prop where
  finds : library.finds = index.finds
  searches : library.searches = index.searches

namespace Library

variable {library : Library} {index : TagIndex} {pairs : List (String × List Char)}

theorem find_eq_nil_iff (h : library.TaggedBy index) :
    library.find pairs = [] ↔
      ∀ song ∈ library.songs, ∃ pair ∈ pairs, pair.2 ∉ index.values song pair.1 := by
  simp [find, h.finds, TagIndex.finds]

theorem search_eq_nil_iff (h : library.TaggedBy index) :
    library.search pairs = [] ↔
      ∀ song ∈ library.songs, ∃ pair ∈ pairs, ∀ value ∈ index.values song pair.1,
        ¬index.fold pair.2 <:+: index.fold value := by
  simp [search, h.searches, TagIndex.searches]

theorem find_eq_nil_of_search (h : library.TaggedBy index) (hsearch : library.search pairs = []) :
    library.find pairs = [] := by
  rw [find, List.filter_eq_nil_iff]
  intro song hsong hfinds
  refine List.filter_eq_nil_iff.mp hsearch song hsong (List.all_eq_true.mpr fun pair hpair => ?_)
  rw [h.searches]
  refine index.searches_of_finds ?_
  rw [← h.finds]
  exact List.all_eq_true.mp hfinds pair hpair

end Library

theorem Queue.append_rows_length (queue : Queue) (songs : List (List Char)) :
    (queue.append songs).rows.length = queue.rows.length + songs.length := by
  induction songs generalizing queue with
  | nil => rfl
  | cons song songs ih =>
    have hinsert := (Queue.insert_perm queue.rows queue.rows.length ⟨queue.nextId, song⟩).length_eq
    rw [Queue.append, ih]
    simp only [Queue.insert, hinsert, List.length_cons]
    omega

theorem Queue.append_eq_self_iff {queue : Queue} {songs : List (List Char)} :
    queue.append songs = queue ↔ songs = [] := by
  constructor
  · intro h
    have hlength := queue.append_rows_length songs
    rw [h] at hlength
    exact List.eq_nil_of_length_eq_zero (by omega)
  · rintro rfl
    rfl

-- ---------------------------------------------------------------------------
-- The answer and the songs the filter would add
-- ---------------------------------------------------------------------------

/-- The `findadd` or `searchadd` of the filter leaves the queue as it is. -/
def AddsNothing (pairs : List (String × List Char)) (substring : Bool) (s : Session) : Prop :=
  (applyAppend serving (.filter pairs substring) [] s).2.server.queue = s.server.queue

theorem addsNothing_iff {pairs : List (String × List Char)} (hpairs : pairs ≠ [])
    (substring : Bool) (s : Session) :
    AddsNothing pairs substring s ↔
      (if substring then s.server.library.search pairs else s.server.library.find pairs) = [] := by
  have hne : pairs.isEmpty = false := by simpa using hpairs
  rw [← @Queue.append_eq_self_iff s.server.queue, AddsNothing]
  cases substring with
  | false =>
    simp only [applyAppend, verbMpd, findadd, hne]
    rfl
  | true =>
    simp only [applyAppend, verbMpd, searchadd, hne]
    rfl

/-- The verb answers that the selection is empty, and has not touched the queue. -/
def AnswersEmpty (link : Link) (naming : Naming) (criteria : SelectionCriteria)
    (mode : EnqueueSelectionMode) (s : Session) : Prop :=
  (handleEnqueueSelectionCriteria link naming criteria mode s).1 = .ok .empty ∧
    (handleEnqueueSelectionCriteria link naming criteria mode s).2.server.queue = s.server.queue

theorem matchesNothing_counted {link : Link} {pairs : List (String × List Char)}
    (hpairs : pairs ≠ []) {s : Session} (hcount : link s.log.length (.count pairs) = .serve)
    (substring : Bool) :
    matchesNothing link (.filter pairs substring) s =
      (.ok (decide (s.server.library.find pairs = [])), s.sent (.count pairs) true) := by
  have hne : pairs.isEmpty = false := by simpa using hpairs
  have hrun : countMatching link pairs s =
      (.ok (s.server.library.find pairs).length, s.sent (.count pairs) true) := by
    simp only [countMatching, hne]
    exact dispatch_served hcount rfl
  refine (Procedure.run_bind_ok (run_verbMpd hrun)).trans ?_
  rw [Procedure.run_pure]
  congr 2
  rw [Bool.eq_iff_iff, beq_iff_eq, decide_eq_true_iff, List.length_eq_zero_iff]

/-- Once the filter is counted, the answer says whether `find` finds a song. -/
theorem answersEmpty_iff {link : Link} {naming : Naming} {criteria : SelectionCriteria}
    {s s₁ : Session} (mode : EnqueueSelectionMode)
    (hresolve : resolve link naming criteria s = (.ok (.filter pairs substring), s₁))
    (hcount : link s₁.log.length (.count pairs) = .serve) :
    AnswersEmpty link naming criteria mode s ↔ s.server.library.find pairs = [] := by
  obtain ⟨hresolves, hsame⟩ := (resolve_run link naming criteria s).ok hresolve
  have hnothing := matchesNothing_counted hresolves.searchable.1 hcount substring
  unfold AnswersEmpty handleEnqueueSelectionCriteria
  rw [Procedure.run_bind_ok (run_verbMpd hresolve), Procedure.run_bind_ok hnothing, hsame.1]
  by_cases hfind : s.server.library.find pairs = []
  · rw [if_pos (decide_eq_true hfind), Procedure.run_pure]
    exact iff_of_true ⟨rfl, congrArg Server.queue hsame.1⟩ hfind
  · rw [if_neg (by simpa using hfind)]
    refine iff_of_false ?_ hfind
    rintro ⟨hempty, -⟩
    -- Every later return of the verb is an `ok` or an error.
    obtain ⟨uris, s₂, -, happlied⟩ := Procedure.of_run_bind_ok (Prod.ext hempty rfl)
    obtain ⟨-, s₃, -, hpublished⟩ := Procedure.of_run_bind_ok happlied
    obtain ⟨-, s₄, -, hreturned⟩ := Procedure.of_run_bind_ok hpublished
    cases hreturned

/-- The verb answers `empty` exactly where its `findadd` or `searchadd` adds no
song, unless a substring filter matches a part of some song's tags and the whole
tags of none. -/
theorem answersEmpty_iff_addsNothing (link : Link) (naming : Naming) (criteria : SelectionCriteria)
    (mode : EnqueueSelectionMode) (s : Session) (index : TagIndex)
    (htagged : s.server.library.TaggedBy index)
    (hresolve : resolve link naming criteria s = (.ok (.filter pairs substring), s₁))
    (hcount : link s₁.log.length (.count pairs) = .serve) :
    (AnswersEmpty link naming criteria mode s ↔ AddsNothing pairs substring s) ↔
      (substring = true →
        (∃ song ∈ s.server.library.songs, ∀ pair ∈ pairs, pair.2 ∈ index.values song pair.1) ∨
        ∀ song ∈ s.server.library.songs, ∃ pair ∈ pairs, ∀ value ∈ index.values song pair.1,
          ¬index.fold pair.2 <:+: index.fold value) := by
  have hresolves := ((resolve_run link naming criteria s).ok hresolve).1
  rw [answersEmpty_iff mode hresolve hcount, addsNothing_iff hresolves.searchable.1,
    ← Library.search_eq_nil_iff htagged]
  cases substring with
  | false => simp
  | true =>
    have hexact : (∃ song ∈ s.server.library.songs, ∀ pair ∈ pairs,
        pair.2 ∈ index.values song pair.1) ↔ s.server.library.find pairs ≠ [] := by
      rw [Ne, Library.find_eq_nil_iff htagged]
      push Not
      rfl
    have hsub := @Library.find_eq_nil_of_search _ _ pairs htagged
    rw [hexact, if_pos rfl]
    tauto

-- ---------------------------------------------------------------------------
-- A year that only full dates contain
-- ---------------------------------------------------------------------------

/-- One song, tagged with the month it came out in. -/
def mayIndex : TagIndex where
  values song tag := if song = "may.flac".toList ∧ tag = "date" then ["1996-05".toList] else []
  fold value := value.map Char.toLower

def mayLibrary : Library where
  songs := ["may.flac".toList]
  finds := mayIndex.finds
  searches := mayIndex.searches
  values tag := if tag = "date" then ["1996-05".toList] else []
  streams _ := false
  distinct := by decide
  leaf := by decide
  named := by decide
  outside := by simp

def songsOf (year : List Char) : SelectionCriteria where
  dimension := .year
  value := year
  parent := none

/-- The songs of 1996: the verb answers that there are none, though `searchadd`
finds one. -/
theorem year_within_date_is_called_empty :
    AnswersEmpty serving plainNaming (songsOf "1996".toList) .append (emptyQueue mayLibrary) ∧
      ¬AddsNothing [("date", "1996".toList)] true (emptyQueue mayLibrary) := by
  refine ⟨?_, ?_⟩
  · unfold AnswersEmpty
    decide
  · unfold AddsNothing
    decide

/-- The date as it is tagged is found by both queries. -/
theorem answersEmpty_iff_addsNothing_may :
    AnswersEmpty serving plainNaming (songsOf "1996-05".toList) .replace (emptyQueue mayLibrary) ↔
      AddsNothing [("date", "1996-05".toList)] true (emptyQueue mayLibrary) :=
  (answersEmpty_iff_addsNothing serving plainNaming (songsOf "1996-05".toList) .replace
    (emptyQueue mayLibrary) mayIndex ⟨rfl, rfl⟩ rfl rfl).mpr fun _ =>
      .inl ⟨"may.flac".toList, by decide, by decide⟩

end EvoAudio.Playback
