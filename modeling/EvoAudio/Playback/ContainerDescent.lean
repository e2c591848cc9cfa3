import EvoAudio.Playback.Session
import Mathlib.Algebra.Order.BigOperators.Group.List
import Mathlib.Algebra.Order.Group.Nat

/-!
# Collecting the leaves of a media server's container

`collect_dlna_container_leaves` of `playback.mpd/src/queue.rs`: the container is
browsed page by page, its subcontainers wait on a stack. A cap on the depth and
a cap on the tracks bound the descent. Nothing bounds the pages of a container:
the server says whether there is another one.
-/

namespace EvoAudio.Playback.Containers

structure BrowseRequest where
  serviceId : List Char
  objectId : List Char
  page : Nat
  pageSize : Nat
  deriving DecidableEq, Repr

/-- The fields of a listed object that the descent reads. -/
structure BrowseEntry where
  kind : Option (List Char)
  uri : Option (List Char)
  path : Option (List Char)
  deriving DecidableEq, Repr

/-- An answer of `source.dlna.browse`, without entries where it has none. -/
structure BrowseResponse where
  entries : List BrowseEntry
  truncated : Option Bool
  nextPage : Option Nat
  deriving DecidableEq, Repr

/-- What becomes of the request that is sent after so many others. -/
abbrev BrowseDispatcher := Nat → BrowseRequest → Except Reason BrowseResponse

def BrowseEntry.file? (entry : BrowseEntry) : Option (List Char) :=
  if entry.kind = some "file".toList then entry.uri.filter (!·.isEmpty) else none

def BrowseEntry.directory? (entry : BrowseEntry) : Option (List Char) :=
  if entry.kind = some "directory".toList then entry.path.filter (!·.isEmpty) else none

/-- The page that is asked for after a page. The count of pages is a `u32`. -/
def BrowseResponse.pageAfter (response : BrowseResponse) (page : Nat) : Nat :=
  (response.nextPage.filter (· < 2 ^ 32)).getD ((page + 1) % 2 ^ 32)

-- ---------------------------------------------------------------------------
-- The descent
-- ---------------------------------------------------------------------------

/-- The variables of the descent. A container on the stack stands with the depth
that is left for it. -/
structure Descent where
  uris : List (List Char)
  stack : List (List Char × Nat)
  truncatedByCap : Bool
  sent : Nat
  deriving DecidableEq, Repr

/-- The loop over the entries of a page, with no subcontainers where the cap on
the tracks ends the descent. -/
def readPage (maxTracks : Nat) : List BrowseEntry → List (List Char) → List (List Char) →
    List (List Char) × Option (List (List Char))
  | [], uris, subcontainers => (uris, some subcontainers)
  | entry :: entries, uris, subcontainers =>
    match entry.file?, entry.directory? with
    | some uri, _ =>
      if (uris ++ [uri]).length ≥ maxTracks then (uris ++ [uri], none)
      else readPage maxTracks entries (uris ++ [uri]) subcontainers
    | none, some path => readPage maxTracks entries uris (subcontainers ++ [path])
    | none, none => readPage maxTracks entries uris subcontainers

/-- The next container with some depth left. -/
def popContainer : List (List Char × Nat) → Bool →
    Option (List Char × Nat) × List (List Char × Nat) × Bool
  | [], truncated => (none, [], truncated)
  | (_, 0) :: stack, _ => popContainer stack true
  | (oid, depth + 1) :: stack, truncated => (some (oid, depth + 1), stack, truncated)

/-- The subcontainers of a page go on the stack from the last to the first. -/
def pushAll (subcontainers : List (List Char)) (depth : Nat) (stack : List (List Char × Nat)) :
    List (List Char × Nat) :=
  subcontainers.reverse.foldl (fun stack sub => (sub, depth) :: stack) stack

section Descend

variable (dispatch : BrowseDispatcher) (serviceId : List Char) (maxTracks pageSize : Nat)

/-- The pages of a container from one page on, and then the containers on the
stack, with at most so many requests. -/
def browsePages : Nat → List Char → Nat → Nat → Descent →
    Option (Except VerbError (List (List Char) × Bool))
  | 0, _, _, _, _ => none
  | fuel + 1, oid, depth, page, d =>
    match dispatch d.sent ⟨serviceId, oid, page, pageSize⟩ with
    | .error reason => some (.error (.mpd "enqueue_selection" reason))
    | .ok response =>
      match readPage maxTracks response.entries d.uris [] with
      | (uris, none) => some (.ok (uris, true))
      | (uris, some subcontainers) =>
        let stack := pushAll subcontainers (depth - 1) d.stack
        if response.truncated.getD false then
          browsePages fuel oid depth (response.pageAfter page)
            ⟨uris, stack, d.truncatedByCap, d.sent + 1⟩
        else
          match popContainer stack d.truncatedByCap with
          | (none, _, truncated) => some (.ok (uris, truncated))
          | (some (oid, depth), stack, truncated) =>
            browsePages fuel oid depth 0 ⟨uris, stack, truncated, d.sent + 1⟩

/-- The containers on the stack. -/
def descend (fuel : Nat) (d : Descent) : Option (Except VerbError (List (List Char) × Bool)) :=
  match popContainer d.stack d.truncatedByCap with
  | (none, _, truncated) => some (.ok (d.uris, truncated))
  | (some (oid, depth), stack, truncated) =>
    browsePages dispatch serviceId maxTracks pageSize fuel oid depth 0
      ⟨d.uris, stack, truncated, d.sent⟩

/-- `collect_dlna_container_leaves`, as far as it gets with so many requests. -/
def collectDlnaContainerLeaves (rootObjectId : List Char) (maxDepth fuel : Nat) :
    Option (Except VerbError (List (List Char) × Bool)) :=
  descend dispatch serviceId maxTracks pageSize fuel ⟨[], [(rootObjectId, maxDepth)], false, 0⟩

attribute [local grind =] browsePages descend

end Descend

-- ---------------------------------------------------------------------------
-- One page
-- ---------------------------------------------------------------------------

/-- The tracks after which the descent ends. It reads one before it looks. -/
def trackLimit (maxTracks : Nat) : Nat := max 1 maxTracks

theorem pushAll_eq (subcontainers : List (List Char)) (depth : Nat)
    (stack : List (List Char × Nat)) :
    pushAll subcontainers depth stack = subcontainers.map (·, depth) ++ stack := by
  unfold pushAll
  induction subcontainers generalizing stack with
  | nil => rfl
  | cons sub subs ih => simp [ih]

/-- The kind of an entry tells files and directories apart. -/
theorem BrowseEntry.directory?_of_file {entry : BrowseEntry} {uri : List Char}
    (h : entry.file? = some uri) : entry.directory? = none := by
  unfold BrowseEntry.file? at h
  split at h
  next hkind =>
    unfold BrowseEntry.directory?
    rw [hkind, if_neg (by decide)]
  next => cases h

def BrowseResponse.files (response : BrowseResponse) : List (List Char) :=
  response.entries.filterMap BrowseEntry.file?

def BrowseResponse.directories (response : BrowseResponse) : List (List Char) :=
  response.entries.filterMap BrowseEntry.directory?

/-- A page ends the descent when it has as many files as are missing to the
limit. -/
theorem readPage_eq {maxTracks : Nat} (entries : List BrowseEntry) {uris : List (List Char)}
    (subcontainers : List (List Char)) (h : uris.length < trackLimit maxTracks) :
    readPage maxTracks entries uris subcontainers =
      if trackLimit maxTracks ≤ (uris ++ entries.filterMap BrowseEntry.file?).length then
        ((uris ++ entries.filterMap BrowseEntry.file?).take (trackLimit maxTracks), none)
      else
        (uris ++ entries.filterMap BrowseEntry.file?,
          some (subcontainers ++ entries.filterMap BrowseEntry.directory?)) := by
  induction entries generalizing uris subcontainers with
  | nil => simp [readPage, h]
  | cons entry entries ih =>
    unfold readPage
    cases hfile : entry.file? with
    | some uri =>
      have hlength : (uris ++ [uri]).length = uris.length + 1 := by simp
      have hassoc : uris ++ uri :: entries.filterMap BrowseEntry.file? =
          uris ++ [uri] ++ entries.filterMap BrowseEntry.file? := by simp
      simp only [List.filterMap_cons, hfile, BrowseEntry.directory?_of_file hfile, hassoc]
      by_cases hcap : (uris ++ [uri]).length ≥ maxTracks
      · have hfull : (uris ++ [uri]).length = trackLimit maxTracks := by
          unfold trackLimit at h ⊢
          omega
        rw [if_pos hcap, if_pos (by rw [List.length_append]; omega), ← hfull, List.take_left]
      · rw [if_neg hcap]
        exact ih subcontainers (by unfold trackLimit at h ⊢; omega)
    | none =>
      cases hdirectory : entry.directory? with
      | some path =>
        simp only [List.filterMap_cons, hfile, hdirectory]
        rw [ih (subcontainers ++ [path]) h]
        simp
      | none =>
        simp only [List.filterMap_cons, hfile, hdirectory]
        exact ih subcontainers h

theorem BrowseResponse.readPage_eq {maxTracks : Nat} (response : BrowseResponse)
    {uris : List (List Char)} (h : uris.length < trackLimit maxTracks) :
    readPage maxTracks response.entries uris [] =
      if trackLimit maxTracks ≤ (uris ++ response.files).length then
        ((uris ++ response.files).take (trackLimit maxTracks), none)
      else (uris ++ response.files, some response.directories) :=
  Containers.readPage_eq response.entries [] h

-- ---------------------------------------------------------------------------
-- One request
-- ---------------------------------------------------------------------------

section Turn

variable {dispatch : BrowseDispatcher} {serviceId oid : List Char}
  {maxTracks pageSize depth page : Nat} {d : Descent} {response : BrowseResponse}

theorem browsePages_error
    (hanswer : dispatch d.sent ⟨serviceId, oid, page, pageSize⟩ = .error reason) (fuel : Nat) :
    browsePages dispatch serviceId maxTracks pageSize (fuel + 1) oid depth page d =
      some (.error (.mpd "enqueue_selection" reason)) := by
  simp only [browsePages, hanswer]

/-- The variables after a page that was read to its end. -/
def Descent.read (d : Descent) (response : BrowseResponse) (depth : Nat) : Descent where
  uris := d.uris ++ response.files
  stack := response.directories.map (·, depth - 1) ++ d.stack
  truncatedByCap := d.truncatedByCap
  sent := d.sent + 1

section Answer

variable (hanswer : dispatch d.sent ⟨serviceId, oid, page, pageSize⟩ = .ok response)
  (hroom : d.uris.length < trackLimit maxTracks)

include hanswer hroom

theorem browsePages_full
    (hfull : trackLimit maxTracks ≤ (d.uris ++ response.files).length) (fuel : Nat) :
    browsePages dispatch serviceId maxTracks pageSize (fuel + 1) oid depth page d =
      some (.ok ((d.uris ++ response.files).take (trackLimit maxTracks), true)) := by
  have hread := response.readPage_eq hroom
  rw [if_pos hfull] at hread
  simp only [browsePages, hanswer, hread]

/-- A page that is not the last one of its container leads to the next page. -/
theorem browsePages_more
    (hfull : ¬ trackLimit maxTracks ≤ (d.uris ++ response.files).length)
    (hmore : response.truncated = some true) (fuel : Nat) :
    browsePages dispatch serviceId maxTracks pageSize (fuel + 1) oid depth page d =
      browsePages dispatch serviceId maxTracks pageSize fuel oid depth (response.pageAfter page)
        (d.read response depth) := by
  have hread := response.readPage_eq hroom
  rw [if_neg hfull] at hread
  simp only [browsePages, hanswer, hread, hmore, Option.getD_some, if_true, pushAll_eq]
  rfl

/-- The last page of a container leads to the stack. -/
theorem browsePages_last
    (hfull : ¬ trackLimit maxTracks ≤ (d.uris ++ response.files).length)
    (hlast : response.truncated ≠ some true) (fuel : Nat) :
    browsePages dispatch serviceId maxTracks pageSize (fuel + 1) oid depth page d =
      descend dispatch serviceId maxTracks pageSize fuel (d.read response depth) := by
  have hread := response.readPage_eq hroom
  rw [if_neg hfull] at hread
  have htruncated : response.truncated.getD false = false := by
    cases h : response.truncated with
    | none => rfl
    | some truncated => cases truncated with
      | false => rfl
      | true => exact absurd h hlast
  simp only [browsePages, hanswer, hread, htruncated, Bool.false_eq_true, if_false, pushAll_eq]
  rfl

end Answer

end Turn

-- ---------------------------------------------------------------------------
-- More requests than it takes
-- ---------------------------------------------------------------------------

section Fuel

variable {dispatch : BrowseDispatcher} {serviceId oid : List Char}
  {maxTracks pageSize depth page fuel : Nat} {d : Descent}
  {r r' : Except VerbError (List (List Char) × Bool)}

theorem browsePages_add (more : Nat)
    (h : browsePages dispatch serviceId maxTracks pageSize fuel oid depth page d = some r) :
    browsePages dispatch serviceId maxTracks pageSize (fuel + more) oid depth page d = some r := by
  induction fuel generalizing oid depth page d with
  | zero => cases h
  | succ fuel ih =>
    rw [Nat.add_right_comm]
    unfold browsePages at h ⊢
    split at h
    next => exact h
    next =>
      split at h
      next => exact h
      next =>
        dsimp only at h ⊢
        split_ifs at h ⊢
        · exact ih h
        · split at h
          next => exact h
          next => exact ih h

/-- However many requests there are to send, the descent has one end. -/
theorem collect_unique {root : List Char} {maxDepth fuel' : Nat}
    (h : collectDlnaContainerLeaves dispatch serviceId maxTracks pageSize root maxDepth fuel = some r)
    (h' : collectDlnaContainerLeaves dispatch serviceId maxTracks pageSize root maxDepth fuel' =
      some r') : r = r' := by
  have hadd {fuel r} (more : Nat)
      (h : collectDlnaContainerLeaves dispatch serviceId maxTracks pageSize root maxDepth fuel =
        some r) :
      collectDlnaContainerLeaves dispatch serviceId maxTracks pageSize root maxDepth (fuel + more) =
        some r := by
    unfold collectDlnaContainerLeaves descend at h ⊢
    split at h
    next => exact h
    next => exact browsePages_add more h
  have hmore := hadd fuel' h
  rw [Nat.add_comm, hadd fuel h'] at hmore
  exact (Option.some.inj hmore).symm

end Fuel

-- ---------------------------------------------------------------------------
-- Whether the descent stops
-- ---------------------------------------------------------------------------

/-- A media server that gives these answers, whatever it is asked. -/
def answering (responses : Nat → Except Reason BrowseResponse) : BrowseDispatcher :=
  fun n _ => responses n

/-- An answer that the descent gets somewhere with: it ends a container or the
whole descent, or it lists a track. -/
def Progresses : Except Reason BrowseResponse → Prop
  | .error _ => True
  | .ok response => response.truncated ≠ some true ∨ response.files ≠ []

section Stops

variable (responses : Nat → Except Reason BrowseResponse) (serviceId : List Char)
  (maxTracks pageSize : Nat)

/-- A descent that meets the answers from one of them on comes to its end. -/
def StopsFrom (rootObjectId : List Char) (maxDepth start : Nat) : Prop :=
  ∃ fuel, (collectDlnaContainerLeaves (answering fun n => responses (start + n)) serviceId maxTracks
    pageSize rootObjectId maxDepth fuel).isSome

def Descent.Ends (d : Descent) : Prop :=
  ∃ fuel, (descend (answering responses) serviceId maxTracks pageSize fuel d).isSome

def Descent.PagesEnd (d : Descent) (oid : List Char) (depth page : Nat) : Prop :=
  ∃ fuel,
    (browsePages (answering responses) serviceId maxTracks pageSize fuel oid depth page d).isSome

variable {responses serviceId maxTracks pageSize}

/-- Without an answer to get somewhere with, the pages of a container go on. -/
theorem browsePages_stuck (hstuck : ∀ n, ¬ Progresses (responses n)) (fuel : Nat)
    {oid : List Char} {depth page : Nat} {d : Descent}
    (hroom : d.uris.length < trackLimit maxTracks) :
    browsePages (answering responses) serviceId maxTracks pageSize fuel oid depth page d = none := by
  induction fuel generalizing page d with
  | zero => rfl
  | succ fuel ih =>
    have hno := hstuck d.sent
    cases hresponse : responses d.sent with
    | error reason =>
      rw [hresponse] at hno
      exact absurd trivial hno
    | ok response =>
      rw [hresponse] at hno
      obtain ⟨hmore, hfiles⟩ := not_or.mp hno
      have huris : d.uris ++ response.files = d.uris := by
        rw [not_not.mp hfiles, List.append_nil]
      rw [browsePages_more hresponse hroom (by rw [huris]; omega) (not_not.mp hmore)]
      exact ih (by rwa [Descent.read, huris])

theorem not_stopsFrom {start : Nat} (hstuck : ∀ n, ¬ Progresses (responses (start + n)))
    (rootObjectId : List Char) (hdepth : maxDepth ≠ 0) :
    ¬ StopsFrom responses serviceId maxTracks pageSize rootObjectId maxDepth start := by
  rintro ⟨fuel, hfuel⟩
  obtain ⟨depth, rfl⟩ := Nat.exists_eq_succ_of_ne_zero hdepth
  have hnone : browsePages (answering fun n => responses (start + n)) serviceId maxTracks pageSize
      fuel rootObjectId (depth + 1) 0 ⟨[], [], false, 0⟩ = none :=
    browsePages_stuck hstuck fuel (Nat.lt_of_lt_of_le Nat.zero_lt_one (Nat.le_max_left ..))
  rw [collectDlnaContainerLeaves, descend] at hfuel
  exact absurd hfuel (by simp [popContainer, hnone])

section Fair

variable {uris : List (List Char)}
  (hroom : uris.length < trackLimit maxTracks)
  (hfair : ∀ start, ∃ n, Progresses (responses (start + n)))
  (hlater : ∀ d : Descent, uris.length < d.uris.length → d.uris.length < trackLimit maxTracks →
    d.Ends responses serviceId maxTracks pageSize ∧
      ∀ oid depth page, d.PagesEnd responses serviceId maxTracks pageSize oid depth page)

include hroom hlater

/-- One answer: either the descent gets somewhere with it, or there is another
page. -/
theorem pagesEnd_of_next {oid : List Char} {depth page : Nat} {d : Descent} (huris : d.uris = uris)
    (hnext : ∀ response, responses d.sent = .ok response → ¬ Progresses (.ok response) →
      (d.read response depth).PagesEnd responses serviceId maxTracks pageSize oid depth
        (response.pageAfter page))
    (hstack : ∀ response : BrowseResponse, (d.read response depth).uris = uris →
      (d.read response depth).Ends responses serviceId maxTracks pageSize) :
    d.PagesEnd responses serviceId maxTracks pageSize oid depth page := by
  subst huris
  cases hresponse : responses d.sent with
  | error reason =>
    have hanswer : answering responses d.sent ⟨serviceId, oid, page, pageSize⟩ = .error reason :=
      hresponse
    exact ⟨1, by rw [browsePages_error hanswer]; rfl⟩
  | ok response =>
    have hanswer : answering responses d.sent ⟨serviceId, oid, page, pageSize⟩ = .ok response :=
      hresponse
    by_cases hfull : trackLimit maxTracks ≤ (d.uris ++ response.files).length
    · exact ⟨1, by rw [browsePages_full hanswer hroom hfull]; rfl⟩
    · have hends : (d.read response depth).Ends responses serviceId maxTracks pageSize := by
        by_cases hfiles : response.files = []
        · exact hstack response (by rw [Descent.read, hfiles, List.append_nil])
        · exact (hlater _ (by simpa [Descent.read, List.length_pos_iff] using hfiles)
            (Nat.lt_of_not_le hfull)).1
      by_cases hmore : response.truncated = some true
      · have hpages : (d.read response depth).PagesEnd responses serviceId maxTracks pageSize oid
            depth (response.pageAfter page) := by
          by_cases hfiles : response.files = []
          · exact hnext response hresponse fun h => h.elim (absurd hmore) (absurd hfiles)
          · exact (hlater _ (by simpa [Descent.read, List.length_pos_iff] using hfiles)
              (Nat.lt_of_not_le hfull)).2 ..
        obtain ⟨fuel, hfuel⟩ := hpages
        exact ⟨fuel + 1, by rwa [browsePages_more hanswer hroom hfull hmore]⟩
      · obtain ⟨fuel, hfuel⟩ := hends
        exact ⟨fuel + 1, by rwa [browsePages_last hanswer hroom hfull hmore]⟩

/-- The pages of a container end when what they leave on the stack does. The
induction is on the answers up to one that the descent gets somewhere with. -/
theorem pagesEnd_of_stack (n : Nat) {oid : List Char} {depth page : Nat} {d : Descent}
    (huris : d.uris = uris) (hn : Progresses (responses (d.sent + n)))
    (hstack : ∀ (d' : Descent) (subs : List (List Char)), d'.uris = uris →
      d'.stack = subs.map (·, depth - 1) ++ d.stack →
        d'.Ends responses serviceId maxTracks pageSize) :
    d.PagesEnd responses serviceId maxTracks pageSize oid depth page := by
  induction n generalizing d page with
  | zero =>
    refine pagesEnd_of_next hroom hlater huris (fun response hresponse hno => ?_)
      fun response h => hstack _ response.directories h rfl
    rw [Nat.add_zero, hresponse] at hn
    exact absurd hn hno
  | succ n ih =>
    refine pagesEnd_of_next hroom hlater huris (fun response hresponse hno => ?_)
      fun response h => hstack _ response.directories h rfl
    have hfiles : response.files = [] := not_not.mp (not_or.mp hno).2
    refine ih (by rw [Descent.read, hfiles, List.append_nil, huris]) ?_ fun d' subs h hd' => ?_
    · rwa [Descent.read, Nat.add_assoc, Nat.add_comm 1 n]
    · refine hstack d' (subs ++ response.directories) h ?_
      rw [hd', Descent.read, List.map_append, List.append_assoc]

include hfair

/-- A descent ends when what is under the containers on top of its stack does.
The induction is on the depth of these and then on their number. -/
theorem ends_of_rest (depth : Nat) (top rest : List (List Char × Nat))
    (htop : ∀ container ∈ top, container.2 ≤ depth)
    (hrest : ∀ d : Descent, d.uris = uris → d.stack = rest →
      d.Ends responses serviceId maxTracks pageSize)
    {d : Descent} (huris : d.uris = uris) (hstack : d.stack = top ++ rest) :
    d.Ends responses serviceId maxTracks pageSize := by
  induction depth using Nat.strong_induction_on generalizing top rest d with
  | _ depth ihdepth =>
    induction top generalizing d with
    | nil => exact hrest d huris hstack
    | cons container top ih =>
      obtain ⟨hcontainer, hothers⟩ := List.forall_mem_cons.mp htop
      match container, hcontainer, hstack with
      | (oid, 0), _, hstack =>
        obtain ⟨fuel, hfuel⟩ := ih hothers (d := ⟨d.uris, top ++ rest, true, d.sent⟩) huris rfl
        refine ⟨fuel, ?_⟩
        unfold descend
        rw [hstack]
        exact hfuel
      | (oid, left + 1), hleft, hstack =>
        obtain ⟨n, hn⟩ := hfair d.sent
        have hpages : Descent.PagesEnd responses serviceId maxTracks pageSize
            ⟨d.uris, top ++ rest, d.truncatedByCap, d.sent⟩ oid (left + 1) 0 :=
          pagesEnd_of_stack hroom hlater n huris hn fun d' subs huris' hstack' =>
            ihdepth left hleft _ (top ++ rest) (by simp) (fun d'' => ih hothers) huris' hstack'
        obtain ⟨fuel, hfuel⟩ := hpages
        refine ⟨fuel, ?_⟩
        unfold descend
        rw [hstack]
        exact hfuel

end Fair

/-- The induction is on the tracks that are missing to the limit. -/
theorem ends_of_fair (hfair : ∀ start, ∃ n, Progresses (responses (start + n))) (d : Descent)
    (hroom : d.uris.length < trackLimit maxTracks) :
    d.Ends responses serviceId maxTracks pageSize ∧
      ∀ oid depth page, d.PagesEnd responses serviceId maxTracks pageSize oid depth page := by
  generalize hmissing : trackLimit maxTracks - d.uris.length = missing
  induction missing using Nat.strong_induction_on generalizing d with
  | _ missing ih =>
    have hlater (d' : Descent) (hlt : d.uris.length < d'.uris.length)
        (hroom' : d'.uris.length < trackLimit maxTracks) :=
      ih _ (by omega) d' hroom' rfl
    have hends (d' : Descent) (huris : d'.uris = d.uris) :
        d'.Ends responses serviceId maxTracks pageSize := by
      refine ends_of_rest hroom hfair hlater ((d'.stack.map Prod.snd).sum) d'.stack []
        (fun container hcontainer => ?_) (fun d'' _ hstack => ⟨0, ?_⟩) huris (by simp)
      · exact List.le_sum_of_mem (List.mem_map_of_mem hcontainer)
      · unfold descend
        rw [hstack]
        rfl
    refine ⟨hends d rfl, fun oid depth page => ?_⟩
    obtain ⟨n, hn⟩ := hfair d.sent
    exact pagesEnd_of_stack hroom hlater n rfl hn fun d' _ huris _ => hends d' huris

variable (responses serviceId maxTracks pageSize)

/-- Every descent stops, whichever answer it begins with, exactly when the server
never goes on for good without ending a container, listing a track or failing. -/
theorem descents_stop_iff (rootObjectId : List Char) (maxDepth : Nat) :
    (∀ start, StopsFrom responses serviceId maxTracks pageSize rootObjectId maxDepth start) ↔
      maxDepth = 0 ∨ ∀ start, ∃ n, Progresses (responses (start + n)) := by
  constructor
  · intro hstops
    by_contra hnot
    obtain ⟨hdepth, hstuck⟩ := not_or.mp hnot
    push Not at hstuck
    obtain ⟨start, hstuck⟩ := hstuck
    exact not_stopsFrom hstuck rootObjectId hdepth (hstops start)
  · rintro (rfl | hfair) start
    · exact ⟨0, rfl⟩
    · refine (ends_of_fair (fun begin => ?_) _ ?_).1
      · obtain ⟨n, hn⟩ := hfair (start + begin)
        exact ⟨n, by rwa [← Nat.add_assoc]⟩
      · exact Nat.lt_of_lt_of_le Nat.zero_lt_one (Nat.le_max_left ..)

/-- A server that has another page whenever it is asked for one, and nothing on it. -/
def repeatingPage : Nat → Except Reason BrowseResponse := fun _ => .ok ⟨[], some true, some 0⟩

theorem repeating_page_never_stops :
    ¬ StopsFrom repeatingPage "uuid:nas".toList 5000 50 "0".toList 6 0 := by
  have hstuck (n : Nat) : ¬ Progresses (repeatingPage (0 + n)) :=
    fun h => Or.elim h (fun hmore => hmore rfl) fun hfiles => hfiles rfl
  exact not_stopsFrom hstuck _ (by decide)

end Stops

end EvoAudio.Playback.Containers
