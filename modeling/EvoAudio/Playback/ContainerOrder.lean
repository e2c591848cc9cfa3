import EvoAudio.Playback.ContainerTrees

/-!
# What the descent collects of a tree

The leaves above the depth limit are all collected, up to the limit on the
tracks. They stand in the order of the tree where each container lists its own
items first and has no leaves behind more than one of its pages. The flag of a
truncated list is set when a limit is met, even where nothing is missing.
-/

namespace EvoAudio.Playback.Containers

open BlockOrder

section Order

variable (serviceId : List Char) (directory : ContentDirectory) (size : Nat)

/-- The object is a container with leaves. -/
def DidlObject.bears (leaves : List Char → List (List Char)) : DidlObject → Bool
  | .container id => !(leaves id).isEmpty
  | .item _ => false

/-- No item comes after a subcontainer with leaves, and the subcontainers with
leaves are on one page, in the container and in all its subcontainers. -/
def ContentDirectory.Ordered : Nat → List Char → Prop
  | 0, _ => True
  | depth + 1, oid =>
    (directory.objects oid).Pairwise (fun first second =>
      first.bears (directory.leaves serviceId depth) = true → second.isItem = false) ∧
    (pages size (directory.objects oid)).countP
      (·.any (DidlObject.bears (directory.leaves serviceId depth))) ≤ 1 ∧
    ∀ id, .container id ∈ directory.objects oid → ContentDirectory.Ordered depth id

variable {serviceId directory size}

-- ---------------------------------------------------------------------------
-- Blocks of leaves
-- ---------------------------------------------------------------------------

variable {leaves : List Char → List (List Char)}

theorem itemUris_blocks (objects : List DidlObject) :
    itemUris serviceId objects =
      (objects.filter DidlObject.isItem).flatMap (DidlObject.leaves serviceId leaves) := by
  refine List.flatMap_congr fun object hobject => ?_
  cases object with
  | item id => rfl
  | container id => exact absurd (List.mem_filter.mp hobject).2 (by simp [DidlObject.isItem])

theorem container_blocks (objects : List DidlObject) :
    (objects.filterMap DidlObject.container?).flatMap leaves =
      (objects.filter fun object => !object.isItem).flatMap
        (DidlObject.leaves serviceId leaves) := by
  induction objects with
  | nil => rfl
  | cons object objects ih =>
    cases object with
    | item id => exact ih
    | container id => exact congrArg (leaves id ++ ·) ih

theorem fronted_iff {first second : DidlObject} :
    Fronted DidlObject.isItem (DidlObject.leaves serviceId leaves) first second ↔
      (first.bears leaves = true → second.isItem = false) := by
  cases first <;> cases second <;>
    simp [Fronted, DidlObject.isItem, DidlObject.bears, DidlObject.leaves]

/-- The leaves behind the subcontainers of a page. -/
def pageLeaves (leaves : List Char → List (List Char)) (page : List DidlObject) :
    List (List Char) :=
  (page.filterMap DidlObject.container?).flatMap leaves

theorem pageLeaves_isEmpty (page : List DidlObject) :
    (!(pageLeaves leaves page).isEmpty) = page.any (DidlObject.bears leaves) := by
  induction page with
  | nil => rfl
  | cons object page ih =>
    rw [List.any_cons, ← ih]
    cases object with
    | item id => rfl
    | container id =>
      have hcons : pageLeaves leaves (.container id :: page) =
          leaves id ++ pageLeaves leaves page := rfl
      rw [hcons, DidlObject.bears]
      cases leaves id <;> simp

theorem flatMap_stacked (objects : List DidlObject) :
    (stacked size objects).flatMap leaves =
      (pages size objects).reverse.flatMap (pageLeaves leaves) := by
  rw [stacked, List.flatMap_assoc]
  rfl

theorem flatMap_pageLeaves (size : Nat) (objects : List DidlObject) :
    (pages size objects).flatMap (pageLeaves leaves) =
      (objects.filterMap DidlObject.container?).flatMap leaves := by
  conv_rhs => rw [← flatten_pages size objects]
  induction pages size objects with
  | nil => rfl
  | cons page rest ih =>
    rw [List.flatMap_cons, ih, List.flatten_cons, List.filterMap_append, List.flatMap_append]
    rfl

theorem gathered_succ (depth : Nat) (oid : List Char) :
    directory.gathered serviceId size (depth + 1) oid =
      itemUris serviceId (directory.objects oid) ++
        (stacked size (directory.objects oid)).flatMap (directory.gathered serviceId size depth) :=
  rfl

theorem leaves_succ (depth : Nat) (oid : List Char) :
    directory.leaves serviceId (depth + 1) oid =
      (directory.objects oid).flatMap
        (DidlObject.leaves serviceId (directory.leaves serviceId depth)) := rfl

theorem mem_containers {objects : List DidlObject} {id : List Char} :
    id ∈ objects.filterMap DidlObject.container? ↔ .container id ∈ objects := by
  rw [List.mem_filterMap]
  constructor
  · rintro ⟨object, hobject, hid⟩
    cases object with
    | item => cases hid
    | container => cases hid; exact hobject
  · exact fun h => ⟨_, h, rfl⟩

/-- Where the subcontainers are gathered in the order of the tree, the items
stand in front and the pages come from the last to the first. -/
theorem gathered_of_sub {depth : Nat} {oid : List Char}
    (h : ∀ id, .container id ∈ directory.objects oid →
      directory.gathered serviceId size depth id = directory.leaves serviceId depth id) :
    directory.gathered serviceId size (depth + 1) oid =
      ((directory.objects oid).filter DidlObject.isItem).flatMap
          (DidlObject.leaves serviceId (directory.leaves serviceId depth)) ++
        (pages size (directory.objects oid)).reverse.flatMap
          (pageLeaves (directory.leaves serviceId depth)) := by
  rw [gathered_succ, itemUris_blocks, ← flatMap_stacked]
  exact congrArg _ (List.flatMap_congr fun id hid => h id (mem_containers.mp (mem_stacked.mp hid)))

theorem ordered_pages_iff (depth : Nat) (oid : List Char) :
    (pages size (directory.objects oid)).countP (fun page =>
        !(pageLeaves (directory.leaves serviceId depth) page).isEmpty) ≤ 1 ↔
      (pages size (directory.objects oid)).countP
        (·.any (DidlObject.bears (directory.leaves serviceId depth))) ≤ 1 := by
  simp only [pageLeaves_isEmpty]

theorem gathered_eq_leaves {depth : Nat} {oid : List Char}
    (h : directory.Ordered serviceId size depth oid) :
    directory.gathered serviceId size depth oid = directory.leaves serviceId depth oid := by
  induction depth generalizing oid with
  | zero => rfl
  | succ depth ih =>
    obtain ⟨hitems, hpages, hsub⟩ := h
    rw [gathered_of_sub fun id hid => ih (hsub id hid),
      flatMap_reverse ((ordered_pages_iff depth oid).mpr hpages), flatMap_pageLeaves,
      container_blocks, leaves_succ]
    exact flatMap_front (hitems.imp fronted_iff.mpr)

-- ---------------------------------------------------------------------------
-- Nothing is lost
-- ---------------------------------------------------------------------------

theorem ContentDirectory.gathered_perm (directory : ContentDirectory) (serviceId : List Char)
    (size depth : Nat) (oid : List Char) :
    (directory.gathered serviceId size depth oid).Perm (directory.leaves serviceId depth oid) := by
  induction depth generalizing oid with
  | zero => exact .refl _
  | succ depth ih =>
    have hstacked : ((stacked size (directory.objects oid)).flatMap
        (directory.gathered serviceId size depth)).Perm
        (((directory.objects oid).filter fun object => !object.isItem).flatMap
          (DidlObject.leaves serviceId (directory.leaves serviceId depth))) := by
      refine (List.Perm.flatMap_left _ fun id _ => ih id).trans ?_
      rw [flatMap_stacked, ← container_blocks, ← flatMap_pageLeaves size]
      exact (List.reverse_perm _).flatMap_right _
    rw [gathered_succ, itemUris_blocks, leaves_succ]
    refine (hstacked.append_left _).trans ?_
    rw [← List.flatMap_append]
    exact (List.filter_append_perm DidlObject.isItem (directory.objects oid)).flatMap_right _

theorem leaves_sublist {depth : Nat} {oid id : List Char} (h : .container id ∈ directory.objects oid) :
    (directory.leaves serviceId depth id).Sublist (directory.leaves serviceId (depth + 1) oid) :=
  sublist_flatMap_of_mem (f := DidlObject.leaves serviceId (directory.leaves serviceId depth)) h

theorem gathered_sublist {depth : Nat} {oid id : List Char}
    (h : .container id ∈ directory.objects oid) :
    (directory.gathered serviceId size depth id).Sublist
      (directory.gathered serviceId size (depth + 1) oid) := by
  rw [gathered_succ]
  exact (sublist_flatMap_of_mem (mem_stacked.mpr (mem_containers.mpr h))).trans
    (List.sublist_append_right ..)

/-- Where no leaf stands twice, only an ordered container is gathered in the
order of the tree. -/
theorem ordered_of_gathered {depth : Nat} {oid : List Char}
    (hnodup : (directory.leaves serviceId depth oid).Nodup)
    (h : directory.gathered serviceId size depth oid = directory.leaves serviceId depth oid) :
    directory.Ordered serviceId size depth oid := by
  induction depth generalizing oid with
  | zero => trivial
  | succ depth ih =>
    have hsub (id : List Char) (hid : .container id ∈ directory.objects oid) :
        directory.gathered serviceId size depth id = directory.leaves serviceId depth id :=
      eq_of_sublist_perm hnodup (h ▸ gathered_sublist hid) (leaves_sublist hid)
        (directory.gathered_perm serviceId size depth id)
    have hblocks := gathered_of_sub hsub
    rw [h, leaves_succ] at hblocks
    rw [leaves_succ] at hnodup
    generalize hcontainers : ((directory.objects oid).filter fun object => !object.isItem).flatMap
      (DidlObject.leaves serviceId (directory.leaves serviceId depth)) = containers at *
    have hpages : (pages size (directory.objects oid)).flatMap
        (pageLeaves (directory.leaves serviceId depth)) = containers := by
      rw [flatMap_pageLeaves, container_blocks, hcontainers]
    have hsublist : containers.Sublist ((directory.objects oid).flatMap
        (DidlObject.leaves serviceId (directory.leaves serviceId depth))) := by
      rw [← hcontainers]
      exact List.filter_sublist.flatMap _
    have hreverse : (pages size (directory.objects oid)).reverse.flatMap
        (pageLeaves (directory.leaves serviceId depth)) = containers := by
      refine eq_of_sublist_perm hnodup ?_ hsublist ?_
      · rw [hblocks]
        exact List.sublist_append_right ..
      · rw [← hpages]
        exact (List.reverse_perm _).flatMap_right _
    refine ⟨?_, ?_, fun id hid => ih (hnodup.sublist (leaves_sublist hid)) (hsub id hid)⟩
    · rw [hreverse, ← hcontainers] at hblocks
      exact ((flatMap_front_iff hnodup).mp hblocks.symm).imp fronted_iff.mp
    · refine (ordered_pages_iff depth oid).mp ((flatMap_reverse_iff ?_).mp ?_)
      · rw [hpages]
        exact hnodup.sublist hsublist
      · rw [hreverse, hpages]

-- ---------------------------------------------------------------------------
-- Depths
-- ---------------------------------------------------------------------------

/-- Below a depth that no container reaches there is nothing more. -/
theorem leaves_of_reaches (serviceId : List Char) {depth : Nat} {oid : List Char}
    (h : directory.reaches depth oid = false) :
    directory.leaves serviceId (depth + 1) oid = directory.leaves serviceId depth oid ∧
      directory.reaches (depth + 1) oid = false := by
  induction depth generalizing oid with
  | zero => cases h
  | succ depth ih =>
    have hsub : ∀ id, .container id ∈ directory.objects oid → directory.reaches depth id = false :=
      fun id hid => by
        rw [ContentDirectory.reaches, List.any_eq_false] at h
        simpa using h id (mem_containers.mpr hid)
    constructor
    · refine List.flatMap_congr fun object hobject => ?_
      cases object with
      | item id => rfl
      | container id => exact (ih (hsub id hobject)).1
    · rw [ContentDirectory.reaches, List.any_eq_false]
      exact fun id hid => by simp [(ih (hsub id (mem_containers.mp hid))).2]

theorem leaves_deeper {depth : Nat} {oid : List Char} (h : directory.reaches depth oid = false)
    (more : Nat) :
    directory.leaves serviceId (depth + more) oid = directory.leaves serviceId depth oid ∧
      directory.reaches (depth + more) oid = false := by
  induction more with
  | zero => exact ⟨rfl, h⟩
  | succ more ih =>
    obtain ⟨hleaves, hreaches⟩ := leaves_of_reaches serviceId ih.2
    exact ⟨hleaves.trans ih.1, hreaches⟩

theorem leaves_mono (depth : Nat) (oid : List Char) :
    (directory.leaves serviceId depth oid).Sublist (directory.leaves serviceId (depth + 1) oid) := by
  induction depth generalizing oid with
  | zero => exact List.nil_sublist _
  | succ depth ih =>
    refine List.Sublist.flatMap_right _ fun object _ => ?_
    cases object with
    | item id => exact .refl _
    | container id => exact ih id

end Order

-- ---------------------------------------------------------------------------
-- Trees
-- ---------------------------------------------------------------------------

namespace ContainerTree

section Collect

variable (tree : ContainerTree) (serviceId : List Char) (hardCap maxTracks pageSize maxDepth : Nat)

/-- All leaves, in the order in which the server lists them. -/
def allLeaves : List (List Char) := tree.leaves serviceId tree.height tree.root

/-- The leaves above the depth limit. -/
def leavesAbove : List (List Char) := tree.leaves serviceId maxDepth tree.root

/-- The descent of the tree ends with this result. -/
def Collects (uris : List (List Char)) (truncated : Bool) : Prop :=
  ∃ fuel, collectDlnaContainerLeaves (tree.browse hardCap) serviceId maxTracks pageSize tree.root
    maxDepth fuel = some (.ok (uris, truncated))

/-- The leaves are collected in the order in which the server lists them. -/
def CollectsInOrder : Prop :=
  ∃ truncated,
    tree.Collects serviceId hardCap maxTracks pageSize maxDepth (tree.allLeaves serviceId) truncated

/-- The result is flagged as truncated exactly when a leaf of the tree is missing
from it. -/
def TruncatedExactly : Prop :=
  ∃ uris truncated, tree.Collects serviceId hardCap maxTracks pageSize maxDepth uris truncated ∧
    (truncated = true ↔ ∃ uri, uris.count uri < (tree.allLeaves serviceId).count uri)

variable {tree serviceId hardCap maxTracks pageSize maxDepth}

theorem collects_iff {uris : List (List Char)} {truncated : Bool} :
    tree.Collects serviceId hardCap maxTracks pageSize maxDepth uris truncated ↔
      tree.collected serviceId hardCap maxTracks pageSize tree.root maxDepth =
        (uris, truncated) := by
  obtain ⟨fuel, hfuel⟩ := collectDlnaContainerLeaves_browse tree.toContentDirectory serviceId hardCap
    maxTracks pageSize tree.root maxDepth
  constructor
  · rintro ⟨fuel', hfuel'⟩
    exact Except.ok.inj (collect_unique hfuel hfuel')
  · intro h
    exact ⟨fuel, h ▸ hfuel⟩

theorem leavesAbove_of_reaches (h : tree.reaches maxDepth tree.root = false) :
    tree.leavesAbove serviceId maxDepth = tree.allLeaves serviceId := by
  rcases Nat.le_total maxDepth tree.height with hle | hle
  · obtain ⟨more, hmore⟩ := Nat.exists_eq_add_of_le hle
    rw [allLeaves, hmore]
    exact ((leaves_deeper h more).1).symm
  · obtain ⟨more, rfl⟩ := Nat.exists_eq_add_of_le hle
    exact (leaves_deeper tree.ends more).1

theorem leavesAbove_sublist :
    (tree.leavesAbove serviceId maxDepth).Sublist (tree.allLeaves serviceId) := by
  rcases Nat.le_total maxDepth tree.height with hle | hle
  · exact Nat.le_induction (P := fun depth _ => (tree.leavesAbove serviceId maxDepth).Sublist
      (tree.leaves serviceId depth tree.root)) (.refl _)
      (fun depth _ ih => ih.trans (leaves_mono depth tree.root)) tree.height hle
  · obtain ⟨more, rfl⟩ := Nat.exists_eq_add_of_le hle
    rw [leavesAbove, (leaves_deeper tree.ends more).1]
    exact .refl _

-- ---------------------------------------------------------------------------
-- The order of the leaves
-- ---------------------------------------------------------------------------

theorem lt_trackLimit {n : Nat} (h : n < maxTracks) : n < trackLimit maxTracks :=
  Nat.lt_of_lt_of_le h (Nat.le_max_right ..)

theorem collected_of_room (hdepth : tree.reaches maxDepth tree.root = false)
    (htracks : (tree.allLeaves serviceId).length < maxTracks) :
    tree.collected serviceId hardCap maxTracks pageSize tree.root maxDepth =
      (tree.gathered serviceId (clampedSize hardCap pageSize) maxDepth tree.root, false) := by
  have hlength := (tree.gathered_perm serviceId (clampedSize hardCap pageSize) maxDepth
    tree.root).length_eq
  have habove : tree.leaves serviceId maxDepth tree.root = tree.allLeaves serviceId :=
    leavesAbove_of_reaches hdepth
  have hroom := lt_trackLimit htracks
  rw [habove] at hlength
  simp only [ContentDirectory.collected, hdepth]
  rw [if_neg (by omega)]

/-- With room for all leaves, they are collected in the order of the tree where
its containers are ordered. Where no leaf stands twice, they are only then. -/
theorem collects_in_order_iff (hdepth : tree.reaches maxDepth tree.root = false)
    (htracks : (tree.allLeaves serviceId).length < maxTracks) :
    (tree.Ordered serviceId (clampedSize hardCap pageSize) maxDepth tree.root →
      tree.CollectsInOrder serviceId hardCap maxTracks pageSize maxDepth) ∧
    ((tree.allLeaves serviceId).Nodup →
      (tree.CollectsInOrder serviceId hardCap maxTracks pageSize maxDepth ↔
        tree.Ordered serviceId (clampedSize hardCap pageSize) maxDepth tree.root)) := by
  have habove : tree.leaves serviceId maxDepth tree.root = tree.allLeaves serviceId :=
    leavesAbove_of_reaches hdepth
  have hinorder : tree.CollectsInOrder serviceId hardCap maxTracks pageSize maxDepth ↔
      tree.gathered serviceId (clampedSize hardCap pageSize) maxDepth tree.root =
        tree.leaves serviceId maxDepth tree.root := by
    unfold CollectsInOrder
    simp only [collects_iff, collected_of_room hdepth htracks, Prod.mk.injEq, habove, exists_and_left,
      exists_eq', and_true]
  rw [hinorder]
  refine ⟨gathered_eq_leaves, fun hnodup => ⟨ordered_of_gathered ?_, gathered_eq_leaves⟩⟩
  rwa [habove]

-- ---------------------------------------------------------------------------
-- What is missing
-- ---------------------------------------------------------------------------

theorem count_lt_iff {α : Type} [BEq α] [LawfulBEq α] {part whole : List α} (h : part.Subperm whole) :
    (∃ x, part.count x < whole.count x) ↔ part.length < whole.length := by
  constructor
  · rintro ⟨x, hx⟩
    refine Nat.lt_of_le_of_ne h.length_le fun hlength => ?_
    rw [(h.perm_of_length_le hlength.ge).count_eq] at hx
    exact Nat.lt_irrefl _ hx
  · intro hlength
    by_contra hnot
    push Not at hnot
    exact absurd (List.subperm_ext_iff.mpr fun x _ => hnot x).length_le (Nat.not_le.mpr hlength)

theorem truncatedExactly_iff_collected :
    tree.TruncatedExactly serviceId hardCap maxTracks pageSize maxDepth ↔
      ((tree.collected serviceId hardCap maxTracks pageSize tree.root maxDepth).2 = true ↔
        ∃ uri, (tree.collected serviceId hardCap maxTracks pageSize tree.root maxDepth).1.count uri <
          (tree.allLeaves serviceId).count uri) := by
  constructor
  · rintro ⟨uris, truncated, hcollects, hexact⟩
    rw [collects_iff.mp hcollects]
    exact hexact
  · exact fun h => ⟨_, _, collects_iff.mpr rfl, h⟩

/-- The flag is exact where the limit on the tracks, once it is met, leaves some
leaf of the tree out, and where, if it is not, a container at the depth limit
means that some leaf is below it. -/
theorem truncated_exactly_iff (tree : ContainerTree) (serviceId : List Char)
    (hardCap maxTracks pageSize maxDepth : Nat) :
    tree.TruncatedExactly serviceId hardCap maxTracks pageSize maxDepth ↔
      if trackLimit maxTracks ≤ (tree.leavesAbove serviceId maxDepth).length then
        trackLimit maxTracks < (tree.allLeaves serviceId).length
      else tree.reaches maxDepth tree.root = true →
        (tree.leavesAbove serviceId maxDepth).length < (tree.allLeaves serviceId).length := by
  have hperm := tree.gathered_perm serviceId (clampedSize hardCap pageSize) maxDepth tree.root
  have hlength : (tree.gathered serviceId (clampedSize hardCap pageSize) maxDepth tree.root).length =
      (tree.leavesAbove serviceId maxDepth).length := hperm.length_eq
  have habove : (tree.leavesAbove serviceId maxDepth).Sublist (tree.allLeaves serviceId) :=
    leavesAbove_sublist
  have hsubperm := hperm.subperm.trans habove.subperm
  rw [truncatedExactly_iff_collected]
  simp only [ContentDirectory.collected, hlength]
  split_ifs with hfull
  · rw [count_lt_iff ((List.take_sublist ..).subperm.trans hsubperm), List.length_take, hlength,
      Nat.min_eq_left hfull]
    exact ⟨fun h => h.mp rfl, fun h => iff_of_true rfl h⟩
  · rw [count_lt_iff hsubperm, hlength]
    refine ⟨Iff.mp, fun h => ⟨h, fun hlt => ?_⟩⟩
    -- with no container at the limit, all leaves are above it
    by_contra hreaches
    rw [leavesAbove_of_reaches (Bool.eq_false_of_not_eq_true hreaches)] at hlt
    exact Nat.lt_irrefl _ hlt

end Collect

-- ---------------------------------------------------------------------------
-- Two albums of one song each
-- ---------------------------------------------------------------------------

def twoAlbums : ContainerTree where
  objects oid :=
    if oid = "0".toList then [.container "a".toList, .container "b".toList]
    else if oid = "a".toList then [.item "1".toList]
    else if oid = "b".toList then [.item "2".toList]
    else []
  counted oid := by split_ifs <;> decide
  named oid := by split_ifs <;> decide
  root := "0".toList
  height := 2
  ends := by decide

theorem twoAlbums_ordered (depth : Nat) (oid : List Char) :
    twoAlbums.Ordered "nas".toList 50 depth oid := by
  have hkinds (oid : List Char) : (twoAlbums.objects oid).length ≤ 50 ∧
      (twoAlbums.objects oid).Pairwise fun first second =>
        first.isItem = true ∨ second.isItem = false := by
    simp only [twoAlbums]
    split_ifs <;> decide
  induction depth generalizing oid with
  | zero => trivial
  | succ depth ih =>
    refine ⟨(hkinds oid).2.imp ?_, ?_, fun id _ => ih id⟩
    · intro first second hitems hbears
      cases first with
      | container id => exact hitems.resolve_left Bool.false_ne_true
      | item id => cases hbears
    · rw [pages_last (hkinds oid).1]
      exact List.countP_le_length

/-- On one page the albums are in order. -/
theorem twoAlbums_collects_in_order :
    twoAlbums.CollectsInOrder "nas".toList 100 10 50 6 :=
  (collects_in_order_iff (by decide) (by decide)).1 (twoAlbums_ordered 6 "0".toList)

/-- On a page each, the second album comes first. -/
theorem albums_on_two_pages_are_reversed :
    ¬ twoAlbums.CollectsInOrder "nas".toList 100 10 1 6 := by
  rintro ⟨truncated, fuel, hfuel⟩
  have hrun : collectDlnaContainerLeaves (twoAlbums.browse 100) "nas".toList 10 1 "0".toList 6 4 =
      some (.ok (["dlna:nas/2".toList, "dlna:nas/1".toList], false)) := by decide
  have heq := Prod.mk.inj (Except.ok.inj (collect_unique hfuel hrun))
  exact absurd heq.1 (by decide)

/-- Two songs are all there is, and two tracks are the limit. -/
theorem full_list_is_flagged : ¬ twoAlbums.TruncatedExactly "nas".toList 100 2 50 6 := by
  rintro ⟨uris, truncated, ⟨fuel, hfuel⟩, hexact⟩
  have hrun : collectDlnaContainerLeaves (twoAlbums.browse 100) "nas".toList 2 50 "0".toList 6 3 =
      some (.ok (["dlna:nas/1".toList, "dlna:nas/2".toList], true)) := by decide
  obtain ⟨rfl, rfl⟩ := Prod.mk.inj (Except.ok.inj (collect_unique hfuel hrun))
  obtain ⟨uri, hmissing⟩ := hexact.mp rfl
  exact absurd hmissing (Nat.lt_irrefl _)

end ContainerTree

end EvoAudio.Playback.Containers
