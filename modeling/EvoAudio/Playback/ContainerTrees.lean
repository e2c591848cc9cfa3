import EvoAudio.Lib.BlockOrder
import EvoAudio.Playback.ContainerDescent

/-!
# The tree of a media server's container

What the descent collects from a ContentDirectory whose containers form a tree.
`source.dlna` serves a container in pages: a page is a part of the objects that
the server lists in it, and says whether there are more of them.
-/

namespace EvoAudio.Playback.Containers

open BlockOrder

/-- An object of a ContentDirectory by its id. -/
inductive DidlObject where
  | container (id : List Char)
  | item (id : List Char)
  deriving DecidableEq, Repr

namespace DidlObject

def container? : DidlObject → Option (List Char)
  | .container id => some id
  | .item _ => none

def isItem : DidlObject → Bool
  | .item _ => true
  | .container _ => false

end DidlObject

/-- The objects that the server lists in each container. They are counted in
32 bits, and a container has an id. -/
structure ContentDirectory where
  objects : List Char → List DidlObject
  counted : ∀ oid, (objects oid).length < 2 ^ 32
  named : ∀ oid, .container [] ∉ objects oid

-- ---------------------------------------------------------------------------
-- Browsing
-- ---------------------------------------------------------------------------

def stableUri (serviceId id : List Char) : List Char :=
  "dlna:".toList ++ serviceId ++ '/' :: id

/-- An object as `source.dlna.browse` answers it. -/
def browseEntry (serviceId : List Char) : DidlObject → BrowseEntry
  | .container id => ⟨some "directory".toList, none, some id⟩
  | .item id => ⟨some "file".toList, some (stableUri serviceId id), some id⟩

/-- The size of a page, `page_size.clamp(1, DLNA_PAGE_HARD_CAP)`. -/
def clampedSize (hardCap pageSize : Nat) : Nat := max 1 (min pageSize hardCap)

/-- `browse_page` of a server that counts what it returns and what it has, in
the entries that `handle_browse` makes of it. -/
def ContentDirectory.browse (directory : ContentDirectory) (hardCap : Nat) : BrowseDispatcher :=
  fun _ request =>
    let size := clampedSize hardCap request.pageSize
    let starting := min (request.page * size) (2 ^ 32 - 1)
    let objects := ((directory.objects request.objectId).drop starting).take size
    let truncated := min (starting + objects.length) (2 ^ 32 - 1) <
      (directory.objects request.objectId).length
    .ok ⟨objects.map (browseEntry request.serviceId), some truncated,
      if truncated then some (min (request.page + 1) (2 ^ 32 - 1)) else none⟩

-- ---------------------------------------------------------------------------
-- The tree
-- ---------------------------------------------------------------------------

section Tree

variable (serviceId : List Char) (directory : ContentDirectory)

/-- The leaves at an object: its own, or those that its container has. -/
def DidlObject.leaves (leaves : List Char → List (List Char)) : DidlObject → List (List Char)
  | .container id => leaves id
  | .item id => [stableUri serviceId id]

/-- The leaves of a container down to a depth, in the order in which the server
lists them. -/
def ContentDirectory.leaves : Nat → List Char → List (List Char)
  | 0, _ => []
  | depth + 1, oid =>
    (directory.objects oid).flatMap (DidlObject.leaves serviceId (ContentDirectory.leaves depth))

/-- A container lies at the depth. -/
def ContentDirectory.reaches : Nat → List Char → Bool
  | 0, _ => true
  | depth + 1, oid =>
    ((directory.objects oid).filterMap DidlObject.container?).any (ContentDirectory.reaches depth)

/-- A listing in pages, at least one of them. -/
def pages {α : Type} (size : Nat) (listing : List α) : List (List α) :=
  if _h : 0 < size ∧ size < listing.length then
    listing.take size :: pages size (listing.drop size)
  else [listing]
termination_by listing.length
decreasing_by
  rw [List.length_drop]
  omega

/-- The leaves of a container as the descent comes upon them: the items of all
its pages, and then its subcontainers from the last page to the first. -/
def ContentDirectory.gathered (size : Nat) : Nat → List Char → List (List Char)
  | 0, _ => []
  | depth + 1, oid =>
    ((directory.objects oid).filter DidlObject.isItem).flatMap
        (DidlObject.leaves serviceId fun _ => []) ++
      ((pages size (directory.objects oid)).reverse.flatMap fun page =>
        page.filterMap DidlObject.container?).flatMap (ContentDirectory.gathered size depth)

end Tree

/-- A container whose subcontainers end somewhere. -/
structure ContainerTree extends ContentDirectory where
  root : List Char
  height : Nat
  ends : toContentDirectory.reaches height root = false

-- ---------------------------------------------------------------------------
-- Pages
-- ---------------------------------------------------------------------------

section Pages

variable {α : Type} {size : Nat} {listing : List α}

theorem pages_last (h : listing.length ≤ size) : pages size listing = [listing] := by
  rw [pages, dif_neg (by omega)]

theorem pages_more (hsize : 0 < size) (h : size < listing.length) :
    pages size listing = listing.take size :: pages size (listing.drop size) := by
  rw [pages, dif_pos ⟨hsize, h⟩]

theorem flatten_pages (size : Nat) (listing : List α) : (pages size listing).flatten = listing := by
  fun_induction pages size listing with
  | case1 listing h ih => rw [List.flatten_cons, ih, List.take_append_drop]
  | case2 listing h => simp

end Pages

-- ---------------------------------------------------------------------------
-- One answer
-- ---------------------------------------------------------------------------

theorem stableUri_ne_nil (serviceId id : List Char) : stableUri serviceId id ≠ [] :=
  List.append_ne_nil_of_right_ne_nil _ (List.cons_ne_nil _ _)

theorem clampedSize_pos (hardCap pageSize : Nat) : 0 < clampedSize hardCap pageSize :=
  Nat.lt_of_lt_of_le Nat.zero_lt_one (Nat.le_max_left ..)

theorem file?_browseEntry (serviceId : List Char) (object : DidlObject) :
    (browseEntry serviceId object).file? =
      (DidlObject.leaves serviceId (fun _ => []) object).head? := by
  cases object with
  | container id => rfl
  | item id =>
    rw [BrowseEntry.file?, browseEntry, if_pos rfl, Option.filter_some_pos]
    · rfl
    · simpa using stableUri_ne_nil serviceId id

theorem directory?_browseEntry (serviceId : List Char) {object : DidlObject}
    (h : object ≠ .container []) :
    (browseEntry serviceId object).directory? = object.container? := by
  cases object with
  | item id => rfl
  | container id =>
    rw [BrowseEntry.directory?, browseEntry, if_pos rfl, Option.filter_some_pos]
    · rfl
    · cases id with
      | nil => exact absurd rfl h
      | cons => rfl

/-- The items of some objects as URIs. -/
def itemUris (serviceId : List Char) (objects : List DidlObject) : List (List Char) :=
  (objects.filter DidlObject.isItem).flatMap (DidlObject.leaves serviceId fun _ => [])

theorem itemUris_append (serviceId : List Char) (objects others : List DidlObject) :
    itemUris serviceId (objects ++ others) =
      itemUris serviceId objects ++ itemUris serviceId others := by
  simp [itemUris]

theorem itemUris_eq (serviceId : List Char) (objects : List DidlObject) :
    (objects.map (browseEntry serviceId)).filterMap BrowseEntry.file? =
      itemUris serviceId objects := by
  induction objects with
  | nil => rfl
  | cons object objects ih =>
    rw [List.map_cons, List.filterMap_cons, file?_browseEntry, ih]
    cases object <;> rfl

theorem containers_eq (serviceId : List Char) {objects : List DidlObject}
    (h : .container [] ∉ objects) :
    (objects.map (browseEntry serviceId)).filterMap BrowseEntry.directory? =
      objects.filterMap DidlObject.container? := by
  rw [List.filterMap_map]
  refine List.filterMap_congr fun object hobject => directory?_browseEntry serviceId ?_
  rintro rfl
  exact h hobject

section Browse

variable {directory : ContentDirectory} {oid : List Char} {hardCap page pageSize : Nat}

/-- The answer for a page that begins within the container. -/
theorem browse_within (serviceId : List Char) (sent : Nat) (remaining : List DidlObject)
    (hpage : page * clampedSize hardCap pageSize ≤ (directory.objects oid).length)
    (hremaining : (directory.objects oid).drop (page * clampedSize hardCap pageSize) = remaining) :
    ∃ response : BrowseResponse,
      directory.browse hardCap sent ⟨serviceId, oid, page, pageSize⟩ = .ok response ∧
      response.files = itemUris serviceId (remaining.take (clampedSize hardCap pageSize)) ∧
      response.directories = (remaining.take (clampedSize hardCap pageSize)).filterMap
        DidlObject.container? ∧
      response.truncated = some (decide (clampedSize hardCap pageSize < remaining.length)) ∧
      (clampedSize hardCap pageSize < remaining.length → response.pageAfter page = page + 1) := by
  have hcounted := directory.counted oid
  have hsize := clampedSize_pos hardCap pageSize
  generalize hclamped : clampedSize hardCap pageSize = size at *
  have hstarting : min (page * size) (2 ^ 32 - 1) = page * size := by omega
  have hlength : remaining.length = (directory.objects oid).length - page * size := by
    rw [← hremaining, List.length_drop]
  have htaken : min (page * size + (remaining.take size).length) (2 ^ 32 - 1) <
      (directory.objects oid).length ↔ size < remaining.length := by
    rw [List.length_take]
    omega
  refine ⟨_, rfl, ?_⟩
  simp only [hclamped, hstarting, hremaining, htaken, BrowseResponse.files,
    BrowseResponse.directories, itemUris_eq]
  refine ⟨trivial, containers_eq serviceId fun hmem => ?_, trivial, fun hmore => ?_⟩
  · exact directory.named oid (List.mem_of_mem_drop (hremaining ▸ List.mem_of_mem_take hmem))
  · have hnext : page + 1 ≤ (page + 1) * size := Nat.le_mul_of_pos_right _ hsize
    rw [Nat.add_mul, Nat.one_mul] at hnext
    rw [BrowseResponse.pageAfter, if_pos hmore, Option.filter_some_pos]
    · rw [Option.getD_some]
      omega
    · rw [decide_eq_true_eq]
      omega

end Browse

-- ---------------------------------------------------------------------------
-- The whole descent
-- ---------------------------------------------------------------------------

section Collect

variable (directory : ContentDirectory) (serviceId : List Char) (hardCap maxTracks pageSize : Nat)

/-- The subcontainers of a listing as they come off the stack. -/
def stacked (size : Nat) (objects : List DidlObject) : List (List Char) :=
  (pages size objects).reverse.flatMap fun page => page.filterMap DidlObject.container?

theorem mem_stacked {size : Nat} {objects : List DidlObject} {id : List Char} :
    id ∈ stacked size objects ↔ id ∈ objects.filterMap DidlObject.container? := by
  conv_rhs => rw [← flatten_pages size objects]
  simp only [stacked, List.mem_flatMap, List.mem_reverse, List.mem_filterMap, List.mem_flatten]
  grind

/-- What is collected in the end, from the variables of a descent. -/
def Descent.outcome (d : Descent) : List (List Char) × Bool :=
  let all := d.uris ++ d.stack.flatMap fun container =>
    directory.gathered serviceId (clampedSize hardCap pageSize) container.2 container.1
  if trackLimit maxTracks ≤ all.length then (all.take (trackLimit maxTracks), true)
  else (all, d.truncatedByCap || d.stack.any fun container =>
    directory.reaches container.2 container.1)

/-- The descent comes to its end, with that outcome. -/
def Descent.Collects (d : Descent) : Prop :=
  ∃ fuel, descend (directory.browse hardCap) serviceId maxTracks pageSize fuel d =
    some (.ok (d.outcome directory serviceId hardCap maxTracks pageSize))

/-- The variables when the pages of a container have been read. -/
def Descent.visited (d : Descent) (depth : Nat) (objects : List DidlObject) : Descent where
  uris := d.uris ++ itemUris serviceId objects
  stack := (stacked (clampedSize hardCap pageSize) objects).map (·, depth) ++ d.stack
  truncatedByCap := d.truncatedByCap
  sent := d.sent

variable {directory serviceId hardCap maxTracks pageSize}

theorem outcome_full {d : Descent} (h : trackLimit maxTracks ≤ d.uris.length) :
    d.outcome directory serviceId hardCap maxTracks pageSize =
      (d.uris.take (trackLimit maxTracks), true) := by
  simp only [Descent.outcome]
  rw [if_pos (by rw [List.length_append]; omega), List.take_append_of_le_length h]

theorem outcome_cut (uris : List (List Char)) (oid : List Char) (stack : List (List Char × Nat))
    (truncated : Bool) (sent : Nat) :
    Descent.outcome directory serviceId hardCap maxTracks pageSize
        ⟨uris, (oid, 0) :: stack, truncated, sent⟩ =
      Descent.outcome directory serviceId hardCap maxTracks pageSize ⟨uris, stack, true, sent⟩ := by
  simp [Descent.outcome, ContentDirectory.gathered, ContentDirectory.reaches]

/-- A container on the stack gives way to its items and its subcontainers. -/
theorem outcome_container (d : Descent) (oid : List Char) (depth : Nat) :
    Descent.outcome directory serviceId hardCap maxTracks pageSize
        { d with stack := (oid, depth + 1) :: d.stack } =
      (d.visited serviceId hardCap pageSize depth (directory.objects oid)).outcome directory
        serviceId hardCap maxTracks pageSize := by
  have hgathered : directory.gathered serviceId (clampedSize hardCap pageSize) (depth + 1) oid =
      itemUris serviceId (directory.objects oid) ++
        (stacked (clampedSize hardCap pageSize) (directory.objects oid)).flatMap
          (directory.gathered serviceId (clampedSize hardCap pageSize) depth) := rfl
  have hreaches : directory.reaches (depth + 1) oid =
      (stacked (clampedSize hardCap pageSize) (directory.objects oid)).any
        (directory.reaches depth) := by
    rw [ContentDirectory.reaches, Bool.eq_iff_iff, List.any_eq_true, List.any_eq_true]
    exact exists_congr fun id => and_congr_left' mem_stacked.symm
  simp only [Descent.outcome, Descent.visited, List.flatMap_cons, List.flatMap_append,
    List.flatMap_map, List.any_cons, List.any_append, List.any_map, hgathered, hreaches,
    List.append_assoc]
  rfl

theorem stacked_last {size : Nat} {objects : List DidlObject} (h : objects.length ≤ size) :
    stacked size objects = objects.filterMap DidlObject.container? := by
  rw [stacked, pages_last h]
  simp

theorem stacked_more {size : Nat} {objects : List DidlObject} (hsize : 0 < size)
    (h : size < objects.length) :
    stacked size objects =
      stacked size (objects.drop size) ++ (objects.take size).filterMap DidlObject.container? := by
  rw [stacked, pages_more hsize h, List.reverse_cons, List.flatMap_append, List.flatMap_singleton]
  rfl

/-- The pages of a container from one page on, when what they leave on the stack
is collected. The induction is on the objects that remain. -/
theorem pages_collect (n page : Nat) (oid : List Char) (depth : Nat) {d : Descent}
    (remaining : List DidlObject) (hn : remaining.length = n)
    (hpage : page * clampedSize hardCap pageSize ≤ (directory.objects oid).length)
    (hremaining : (directory.objects oid).drop (page * clampedSize hardCap pageSize) = remaining)
    (hroom : d.uris.length < trackLimit maxTracks)
    (hrest : ∀ d' : Descent, d'.uris.length < trackLimit maxTracks →
      d'.stack = (stacked (clampedSize hardCap pageSize) remaining).map (·, depth) ++ d.stack →
        d'.Collects directory serviceId hardCap maxTracks pageSize) :
    ∃ fuel, browsePages (directory.browse hardCap) serviceId maxTracks pageSize fuel oid (depth + 1)
        page d =
      some (.ok ((d.visited serviceId hardCap pageSize depth remaining).outcome directory serviceId
        hardCap maxTracks pageSize)) := by
  induction n using Nat.strong_induction_on generalizing page d remaining with
  | _ n ih =>
    obtain ⟨response, hanswer, hfiles, hdirectories, htruncated, hafter⟩ :=
      browse_within serviceId d.sent remaining hpage hremaining
    have hsize := clampedSize_pos hardCap pageSize
    generalize hclamped : clampedSize hardCap pageSize = size at *
    by_cases hfull : trackLimit maxTracks ≤ (d.uris ++ response.files).length
    · refine ⟨1, (browsePages_full hanswer hroom hfull 0).trans ?_⟩
      have hsplit : itemUris serviceId remaining =
          response.files ++ itemUris serviceId (remaining.drop size) := by
        rw [hfiles, ← itemUris_append, List.take_append_drop]
      have huris : (d.visited serviceId hardCap pageSize depth remaining).uris =
          d.uris ++ response.files ++ itemUris serviceId (remaining.drop size) := by
        rw [Descent.visited, hsplit, List.append_assoc]
      rw [outcome_full (by rw [huris, List.length_append]; omega), huris,
        List.take_append_of_le_length hfull]
    · by_cases hmore : size < remaining.length
      · have hlength : remaining.length = (directory.objects oid).length - page * size := by
          rw [← hremaining, List.length_drop]
        have hnext := Nat.add_mul page 1 size
        obtain ⟨fuel, hfuel⟩ := ih (remaining.length - size) (by omega) (page + 1)
          (d := d.read response (depth + 1)) (remaining.drop size) (by simp) (by omega)
          (by rw [Nat.add_mul, Nat.one_mul, ← List.drop_drop, hremaining])
          (Nat.lt_of_not_le hfull) fun d' hroom' hstack => hrest d' hroom' (by
            rw [hstack, stacked_more hsize hmore, Descent.read, hdirectories, List.map_append,
              List.append_assoc, Nat.add_sub_cancel])
        refine ⟨fuel + 1, ?_⟩
        rw [browsePages_more hanswer hroom hfull (by rw [htruncated, decide_eq_true hmore]),
          hafter hmore, hfuel]
        have hvisited : (d.read response (depth + 1)).visited serviceId hardCap pageSize depth
            (remaining.drop size) =
              { d.visited serviceId hardCap pageSize depth remaining with sent := d.sent + 1 } := by
          simp only [Descent.visited, Descent.read, hclamped, hfiles, hdirectories,
            stacked_more hsize hmore, List.append_assoc, ← itemUris_append, List.take_append_drop,
            List.map_append, Nat.add_sub_cancel]
        rw [hvisited]
        rfl
      · have htake : remaining.take size = remaining := List.take_of_length_le (by omega)
        rw [htake] at hfiles hdirectories
        have hstacked : stacked size remaining = remaining.filterMap DidlObject.container? :=
          stacked_last (by omega)
        obtain ⟨fuel, hfuel⟩ := hrest (d.read response (depth + 1)) (Nat.lt_of_not_le hfull) (by
          rw [hstacked, Descent.read, hdirectories, Nat.add_sub_cancel])
        refine ⟨fuel + 1, ?_⟩
        rw [browsePages_last hanswer hroom hfull (by simp [htruncated, hmore]), hfuel]
        have hvisited : d.read response (depth + 1) =
            { d.visited serviceId hardCap pageSize depth remaining with sent := d.sent + 1 } := by
          simp only [Descent.visited, Descent.read, hclamped, hfiles, hdirectories, hstacked,
            Nat.add_sub_cancel]
        rw [hvisited]
        rfl

/-- The containers on top of the stack are collected when what is under them is.
The induction is on their depth and then on their number. -/
theorem collects_of_rest (depth : Nat) (top rest : List (List Char × Nat))
    (htop : ∀ container ∈ top, container.2 ≤ depth)
    (hrest : ∀ d : Descent, d.uris.length < trackLimit maxTracks → d.stack = rest →
      d.Collects directory serviceId hardCap maxTracks pageSize)
    {d : Descent} (hroom : d.uris.length < trackLimit maxTracks) (hstack : d.stack = top ++ rest) :
    d.Collects directory serviceId hardCap maxTracks pageSize := by
  induction depth using Nat.strong_induction_on generalizing top rest d with
  | _ depth ihdepth =>
    induction top generalizing d with
    | nil => exact hrest d hroom hstack
    | cons container top ih =>
      obtain ⟨hcontainer, hothers⟩ := List.forall_mem_cons.mp htop
      obtain ⟨uris, stack, truncated, sent⟩ := d
      subst hstack
      match container, hcontainer with
      | (oid, 0), _ =>
        obtain ⟨fuel, hfuel⟩ := ih hothers (d := ⟨uris, top ++ rest, true, sent⟩) hroom rfl
        refine ⟨fuel, ?_⟩
        rw [List.cons_append, outcome_cut]
        exact hfuel
      | (oid, left + 1), hleft =>
        obtain ⟨fuel, hfuel⟩ := pages_collect _ 0 oid left (d := ⟨uris, top ++ rest, truncated, sent⟩)
          (directory.objects oid) rfl (by simp) (by simp) hroom fun d' hroom' hstack' =>
            ihdepth left hleft _ (top ++ rest) (by simp) (fun d'' => ih hothers) hroom' hstack'
        refine ⟨fuel, ?_⟩
        rw [← outcome_container] at hfuel
        exact hfuel

theorem collects (directory : ContentDirectory) (serviceId : List Char)
    (hardCap maxTracks pageSize : Nat) (d : Descent) (hroom : d.uris.length < trackLimit maxTracks) :
    d.Collects directory serviceId hardCap maxTracks pageSize := by
  refine collects_of_rest ((d.stack.map Prod.snd).sum) d.stack []
    (fun container hcontainer => List.le_sum_of_mem (List.mem_map_of_mem hcontainer))
    (fun d' hroom' hstack => ⟨0, ?_⟩) hroom (by simp)
  have houtcome : d'.outcome directory serviceId hardCap maxTracks pageSize =
      (d'.uris, d'.truncatedByCap) := by
    simp only [Descent.outcome, hstack, List.flatMap_nil, List.append_nil, List.any_nil,
      Bool.or_false]
    rw [if_neg (by omega)]
  rw [houtcome, descend, hstack]
  rfl

variable (directory serviceId hardCap maxTracks pageSize)

/-- What the descent of a container collects, and whether it says that something
is missing. -/
def ContentDirectory.collected (oid : List Char) (maxDepth : Nat) : List (List Char) × Bool :=
  let gathered := directory.gathered serviceId (clampedSize hardCap pageSize) maxDepth oid
  if trackLimit maxTracks ≤ gathered.length then (gathered.take (trackLimit maxTracks), true)
  else (gathered, directory.reaches maxDepth oid)

theorem collectDlnaContainerLeaves_browse (oid : List Char) (maxDepth : Nat) :
    ∃ fuel, collectDlnaContainerLeaves (directory.browse hardCap) serviceId maxTracks pageSize oid
        maxDepth fuel =
      some (.ok (directory.collected serviceId hardCap maxTracks pageSize oid maxDepth)) := by
  obtain ⟨fuel, hfuel⟩ := collects directory serviceId hardCap maxTracks pageSize
    ⟨[], [(oid, maxDepth)], false, 0⟩ (Nat.lt_of_lt_of_le Nat.zero_lt_one (Nat.le_max_left ..))
  refine ⟨fuel, hfuel.trans ?_⟩
  simp [Descent.outcome, ContentDirectory.collected]

end Collect

end EvoAudio.Playback.Containers
