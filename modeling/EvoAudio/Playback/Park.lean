import EvoAudio.Playback.Session
import Mathlib.Data.List.Sort
import Mathlib.Data.List.TakeWhile

/-!
# Parking queue rows

A USB rename takes the rows of the stick off the queue, so that MPD closes the
files, and puts them back after the remount: `drop_queue_items_under`,
`park_queue_items_under` and `restore_parked_queue` of
`playback.mpd/src/queue.rs`. MPD may refuse any of the deletions and of the
additions.
-/

namespace EvoAudio.Playback

-- ---------------------------------------------------------------------------
-- Reinserting at remembered positions
-- ---------------------------------------------------------------------------

namespace Reinsert

variable {α : Type} (parked : α → Bool) (refused : α → Nat → Bool)

/-- The elements taken out of a list that starts at a position, with their
positions. -/
def taken : Nat → List α → List (α × Nat)
  | _, [] => []
  | n, x :: xs => if parked x then (x, n) :: taken (n + 1) xs else taken (n + 1) xs

/-- The list without the elements that were taken out and refused since. -/
def kept : Nat → List α → List α
  | _, [] => []
  | n, x :: xs => if parked x && refused x n then kept (n + 1) xs else x :: kept (n + 1) xs

/-- One element goes back to its absolute position, unless it is refused or the
list has become too short. -/
def putBack (list : List α) (item : α × Nat) : List α :=
  if refused item.1 item.2 || decide (item.2 > list.length) then list
  else list.take item.2 ++ item.1 :: list.drop item.2

attribute [local grind =] taken kept putBack

variable {parked refused}

theorem taken_position (n : Nat) (xs : List α) : ∀ item ∈ taken parked n xs, n ≤ item.2 := by
  induction xs generalizing n with
  | nil => simp [taken]
  | cons x xs ih =>
    intro item hitem
    unfold taken at hitem
    split at hitem
    · rcases List.mem_cons.mp hitem with rfl | hitem
      · exact Nat.le_refl n
      · exact Nat.le_of_succ_le (ih (n + 1) item hitem)
    · exact Nat.le_of_succ_le (ih (n + 1) item hitem)

theorem taken_sorted (n : Nat) (xs : List α) :
    (taken parked n xs).Pairwise fun first second => first.2 ≤ second.2 := by
  induction xs generalizing n with
  | nil => exact .nil
  | cons x xs ih =>
    unfold taken
    split
    · refine .cons (fun item hitem => ?_) (ih (n + 1))
      exact Nat.le_of_succ_le (taken_position (n + 1) xs item hitem)
    · exact ih (n + 1)

theorem kept_of_taken_nil {n : Nat} {xs : List α} (h : taken parked n xs = []) :
    kept parked refused n xs = xs := by
  induction xs generalizing n with
  | nil => rfl
  | cons x xs ih =>
    unfold taken at h
    split at h
    · cases h
    next hp =>
      unfold kept
      rw [if_neg (by simp [hp]), ih h]

/-- What stands before every position that is still to come does not move. -/
theorem foldl_putBack_getElem? (items : List (α × Nat)) (list : List α) (i : Nat)
    (h : ∀ item ∈ items, i < item.2) : (items.foldl (putBack refused) list)[i]? = list[i]? := by
  induction items generalizing list with
  | nil => rfl
  | cons item items ih =>
    have hi : i < item.2 := h item (List.mem_cons_self ..)
    rw [List.foldl_cons, ih _ fun item hitem => h item (List.mem_cons_of_mem _ hitem)]
    unfold putBack
    split
    · rfl
    next hput =>
      have hlen : item.2 ≤ list.length := by
        by_contra hgt
        exact hput (by simp [Nat.lt_of_not_le hgt])
      have hlt : i < (list.take item.2).length := by
        rw [List.length_take]
        omega
      rw [List.getElem?_append_left hlt, List.getElem?_take_of_lt hi]

/-- With an element missing in front, what is put back lands too far behind. -/
theorem foldl_putBack_late (xs before : List α) (n : Nat) (h : before.length < n) :
    (taken parked n xs).foldl (putBack refused) (before ++ xs.filter fun x => !parked x) =
        before ++ kept parked refused n xs ↔
      ∀ item ∈ taken parked n xs, refused item.1 item.2 := by
  induction xs generalizing before n with
  | nil => simp [taken, kept]
  | cons x xs ih =>
    by_cases hp : parked x
    · by_cases hr : refused x n
      · have hput : putBack refused (before ++ xs.filter fun x => !parked x) (x, n) =
            before ++ xs.filter fun x => !parked x := by
          simp [putBack, hr]
        have hmore := ih before (n + 1) (by omega)
        simp only [taken, kept, hp, hr, if_true, Bool.and_self, List.foldl_cons, List.mem_cons,
          forall_eq_or_imp, true_and]
        rw [List.filter_cons_of_neg (by simpa using hp), hput]
        exact hmore
      · -- The element comes back, but not where it stood.
        have hx : ∃ item ∈ taken parked n (x :: xs), ¬refused item.1 item.2 :=
          ⟨(x, n), by simp [taken, hp], hr⟩
        refine iff_of_false (fun heq => ?_) (by simpa using hx)
        have hat := congrArg (fun list => list[before.length]?) heq
        rw [foldl_putBack_getElem? _ _ _ fun item hitem =>
          Nat.lt_of_lt_of_le h (taken_position n _ item hitem)] at hat
        rw [List.getElem?_append_right (Nat.le_refl _), List.getElem?_append_right (Nat.le_refl _),
          Nat.sub_self] at hat
        simp only [kept, hr, Bool.and_false, Bool.false_eq_true, if_false,
          List.getElem?_cons_zero] at hat
        have hmem := List.mem_filter.mp (List.mem_of_getElem? hat)
        simp [hp] at hmem
    · have hmore := ih (before ++ [x]) (n + 1) (by simpa using h)
      simp only [taken, kept, hp, Bool.false_eq_true, if_false, Bool.false_and]
      rw [List.filter_cons_of_pos (by simpa using hp)]
      simpa using hmore

/-- Putting back what was taken out restores the list, but for what is refused,
exactly when nothing goes back after a refusal. -/
theorem foldl_putBack_iff (xs before : List α) :
    (taken parked before.length xs).foldl (putBack refused) (before ++ xs.filter fun x => !parked x) =
        before ++ kept parked refused before.length xs ↔
      (taken parked before.length xs).Pairwise
        fun first later => refused first.1 first.2 → refused later.1 later.2 := by
  induction xs generalizing before with
  | nil => simp [taken, kept]
  | cons x xs ih =>
    have hnext : (before ++ [x]).length = before.length + 1 := by simp
    by_cases hp : parked x
    · by_cases hr : refused x before.length
      · have hlate := @foldl_putBack_late _ parked refused xs before (before.length + 1)
          (Nat.lt_succ_self _)
        have hput : putBack refused (before ++ xs.filter fun x => !parked x) (x, before.length) =
            before ++ xs.filter fun x => !parked x := by
          simp [putBack, hr]
        simp only [taken, kept, hp, hr, if_true, Bool.and_self, List.foldl_cons, List.pairwise_cons,
          forall_const]
        rw [List.filter_cons_of_neg (by simpa using hp), hput, hlate]
        refine ⟨fun hall => ⟨hall, ?_⟩, And.left⟩
        exact List.Pairwise.imp_of_mem (fun _ hlater _ _ => hall _ hlater) (List.pairwise_of_forall
          fun _ _ => trivial)
      · have hmore := ih (before ++ [x])
        have hput : putBack refused (before ++ xs.filter fun x => !parked x) (x, before.length) =
            (before ++ [x]) ++ xs.filter fun x => !parked x := by
          simp [putBack, hr]
        simp only [taken, kept, hp, hr, if_true, Bool.and_false, Bool.false_eq_true, if_false,
          List.foldl_cons, List.pairwise_cons, false_implies, implies_true, true_and]
        rw [List.filter_cons_of_neg (by simpa using hp), hput]
        rw [hnext] at hmore
        simpa using hmore
    · have hmore := ih (before ++ [x])
      rw [hnext] at hmore
      simp only [taken, kept, hp, Bool.false_eq_true, if_false, Bool.false_and]
      rw [List.filter_cons_of_pos (by simpa using hp)]
      simpa using hmore

end Reinsert

-- ---------------------------------------------------------------------------
-- The verbs
-- ---------------------------------------------------------------------------

structure ParkedQueueItem where
  position : Nat
  uri : List Char
  deriving DecidableEq, Repr

structure ParkedQueue where
  items : List ParkedQueueItem
  playing : Bool
  paused : Bool
  current : Option Nat
  deriving DecidableEq, Repr

def ParkedQueue.default : ParkedQueue := ⟨[], false, false, none⟩

/-- The player is stopped when it stands on one of the doomed rows. -/
def stopOnDoomed (link : Link) (doomed : List MpdQueueItem) : Procedure Session VerbError Unit := do
  let status ← verbStep "remove_source" "status" (status link)
  if doomed.any fun item => status.songPosition == some item.position then
    verbStep "remove_source" "stop" (stop link)
  else return

def dropQueueItemsUnder (link : Link) (pre : List Char) : Procedure Session VerbError Nat := do
  if pre.isEmpty then return 0
  let items ← verbStep "remove_source" "playlistinfo" (playlistinfo link)
  let doomed := items.filter fun item => queuePathIsUnder item.filePath pre
  if doomed.isEmpty then return 0
  stopOnDoomed link doomed
  Procedure.each (fun item => verbStep "remove_source" "deleteid" (deleteid link item.id)) doomed
  publishQueue link
  return doomed.length

def parkQueueItemsUnder (link : Link) (pre : List Char) :
    Procedure Session VerbError ParkedQueue := do
  if pre.isEmpty then return .default
  let items ← verbStep "park_uri_prefix" "playlistinfo" (playlistinfo link)
  let parkedItems : List ParkedQueueItem :=
    (items.filter fun item => queuePathIsUnder item.filePath pre).map fun item =>
      ⟨item.position, item.filePath⟩
  if parkedItems.isEmpty then return .default
  let status ← verbStep "park_uri_prefix" "status" (status link)
  let onParked := parkedItems.any fun item => status.songPosition == some item.position
  let _ ← dropQueueItemsUnder link pre
  return {
    items := parkedItems
    playing := onParked && status.state == .playing
    paused := onParked && status.state == .paused
    current := if onParked then status.songPosition else none }

/-- One turn of the restore loop: a row whose `addid` fails is skipped. -/
def restoreOne (link : Link) (restored : Nat) (item : ParkedQueueItem) :
    Procedure Session VerbError Nat := do
  match ← (addid link item.uri (some item.position)).attempt with
  | .ok _ => return restored + 1
  | .error _ => return restored

/-- Transport comes back only when the parked current row was playing or paused. -/
def restoreTransport (link : Link) (parked : ParkedQueue) : Procedure Session VerbError Unit :=
  match parked.current with
  | none => return
  | some position =>
    if parked.playing || parked.paused then do
      match ← (playPosition link position).attempt with
      | .error _ => publishNowPlayingAfterTransport link
      | .ok () =>
        if parked.paused then
          let _ ← (pause link true).attempt
          publishNowPlayingAfterTransport link
        else publishNowPlayingAfterTransport link
    else return

def restoreParkedQueue (link : Link) (parked : ParkedQueue) : Procedure Session VerbError Nat := do
  if parked.items.isEmpty then return 0
  let items := parked.items.insertionSort fun first second => first.position ≤ second.position
  let restored ← Procedure.fold (restoreOne link) 0 items
  if restored = 0 then return 0
  restoreTransport link parked
  publishQueue link
  return restored

-- ---------------------------------------------------------------------------
-- Refused calls
-- ---------------------------------------------------------------------------

/-- The `addid` and `deleteid` calls that MPD refuses. -/
structure Refusals where
  addid : List Char → Nat → Bool
  deleteid : Nat → Bool

def Refusals.link (refusals : Refusals) : Link
  | _, .addid uri (some position) =>
    if refusals.addid uri position then .refuse 0 noExist else .serve
  | _, .deleteid id => if refusals.deleteid id then .refuse 0 noExist else .serve
  | _, _ => .serve

/-- The row is one that a park under the prefix takes out. -/
def parks (pre uri : List Char) : Bool := !pre.isEmpty && queuePathIsUnder uri pre

/-- The rows a park takes out, as `playlistinfo` lists them. -/
def doomed (pre : List Char) (server : Server) : List MpdQueueItem :=
  server.playlistinfo.filter fun item => parks pre item.filePath

def uris (server : Server) : List (List Char) := server.queue.rows.map Row.uri

section

variable {link : Link} (refusals : Refusals)

theorem playlistinfo_run (s : Session) :
    playlistinfo refusals.link s = (.ok s.server.playlistinfo, s.sent .playlistinfo true) := rfl

theorem status_run (s : Session) :
    status refusals.link s = (.ok s.server.status, s.sent .status true) := rfl

theorem deleteid_refused {s : Session} {id : Nat} (h : refusals.deleteid id) :
    deleteid refusals.link id s = (.error noExist, s.sent (.deleteid id) false) :=
  dispatch_refused (show _ = Fate.refuse 0 noExist by simp only [Refusals.link, h, if_true])

theorem deleteid_served {s : Session} {id : Nat} (h : refusals.deleteid id = false)
    (hid : id ∈ s.server.queue.rows.map Row.id) :
    ∃ s', deleteid refusals.link id s = (.ok (), s') ∧
      s'.server.queue = s.server.queue.remove id ∧ s'.server.library = s.server.library := by
  have hany : s.server.queue.rows.any (·.id == id) = true := by
    obtain ⟨row, hrow, rfl⟩ := List.mem_map.mp hid
    exact List.any_eq_true.mpr ⟨row, hrow, beq_self_eq_true _⟩
  have hlink : refusals.link s.log.length (.deleteid id) = .serve := by
    simp [Refusals.link, h]
  have heffect : Server.deleteid id s.server = .ok _ := if_pos hany
  exact ⟨_, dispatch_served hlink heffect, rfl, rfl⟩

/-- The deletions run up to the first that is refused. -/
theorem each_deleteid (items : List MpdQueueItem) (s : Session)
    (hmem : ∀ item ∈ items, item.id ∈ s.server.queue.rows.map Row.id)
    (hnodup : (items.map MpdQueueItem.id).Nodup) :
    ∃ s', Procedure.each (fun item : MpdQueueItem =>
          verbStep "remove_source" "deleteid" (deleteid refusals.link item.id)) items s =
        (if items.any fun item => refusals.deleteid item.id then
          .error (.mpd "remove_source" (.step "deleteid" noExist)) else .ok (), s') ∧
      s'.server.queue.rows = s.server.queue.rows.filter (fun row =>
        row.id ∉ (items.takeWhile fun item => !refusals.deleteid item.id).map MpdQueueItem.id) ∧
      s'.server.library = s.server.library := by
  induction items generalizing s with
  | nil => exact ⟨s, rfl, by simp, rfl⟩
  | cons item items ih =>
    by_cases hr : refusals.deleteid item.id
    · refine ⟨s.sent (.deleteid item.id) false, ?_, by simp [hr], rfl⟩
      rw [Procedure.each, Procedure.run_bind_error (run_verbStep (deleteid_refused refusals hr))]
      simp [hr]
    · obtain ⟨s', hdel, hqueue, hlib⟩ := deleteid_served refusals (by simpa using hr)
        (hmem item (List.mem_cons_self ..))
      rw [List.map_cons, List.nodup_cons] at hnodup
      have hmem' : ∀ other ∈ items, other.id ∈ s'.server.queue.rows.map Row.id := by
        intro other hother
        obtain ⟨row, hrow, hid⟩ := List.mem_map.mp (hmem other (List.mem_cons_of_mem _ hother))
        refine List.mem_map.mpr ⟨row, ?_, hid⟩
        rw [hqueue]
        refine List.mem_filter.mpr ⟨hrow, bne_iff_ne.mpr ?_⟩
        rintro heq
        exact hnodup.1 (List.mem_map.mpr ⟨other, hother, hid.symm.trans heq⟩)
      obtain ⟨s'', heach, hrows, hlib'⟩ := ih s' hmem' hnodup.2
      refine ⟨s'', ?_, ?_, hlib'.trans hlib⟩
      · rw [Procedure.each, Procedure.run_bind_ok (run_verbStep hdel), heach]
        simp [hr]
      · rw [hrows, hqueue]
        simp only [Queue.remove, List.filter_filter]
        refine List.filter_congr fun row _ => ?_
        rw [Bool.eq_iff_iff]
        simp [hr, and_comm]

/-- One row goes back as `putBack` says. -/
theorem addid_uris (remount : Library) {s : Session} (hlib : s.server.library = remount)
    (uri : List Char) (position : Nat) :
    ∃ r s', addid refusals.link uri (some position) s = (r, s') ∧
      s'.server.library = remount ∧
      uris s'.server = Reinsert.putBack
        (fun uri position => refusals.addid uri position || !remount.playable uri)
        (uris s.server) (uri, position) := by
  have hlen : (uris s.server).length = s.server.queue.rows.length := by simp [uris]
  by_cases hr : refusals.addid uri position
  · refine ⟨_, _, dispatch_refused (show _ = Fate.refuse 0 noExist by
      simp only [Refusals.link, hr, if_true]), hlib, ?_⟩
    simp [Reinsert.putBack, hr]
  · have hlink : refusals.link s.log.length (.addid uri (some position)) = .serve := by
      simp [Refusals.link, hr]
    by_cases hplay : remount.playable uri
    · by_cases hpos : position > s.server.queue.rows.length
      · have heffect : Server.addid uri (some position) s.server = .error badSongIndex := by
          simp [Server.addid, hlib, hplay, hpos]
        refine ⟨_, _, dispatch_acked hlink heffect, hlib, ?_⟩
        simp [Reinsert.putBack, hlen, hpos]
      · have heffect : Server.addid uri (some position) s.server =
            .ok (s.server.queue.nextId,
              { s.server with queue := s.server.queue.insert position uri }) := by
          simp [Server.addid, hlib, hplay, Nat.not_lt.mp hpos]
        refine ⟨_, _, dispatch_served hlink heffect, hlib, ?_⟩
        simp [Reinsert.putBack, hr, hplay, hpos, uris, Queue.insert, List.map_take,
          List.map_drop]
    · have heffect : Server.addid uri (some position) s.server = .error noExist := by
        simp [Server.addid, hlib, hplay]
      refine ⟨_, _, dispatch_acked hlink heffect, hlib, ?_⟩
      simp [Reinsert.putBack, hplay]

theorem restoreOne_run (remount : Library) {s : Session} (hlib : s.server.library = remount)
    (restored : Nat) (item : ParkedQueueItem) :
    ∃ n s', restoreOne refusals.link restored item s = (.ok n, s') ∧
      s'.server.library = remount ∧
      uris s'.server = Reinsert.putBack
        (fun uri position => refusals.addid uri position || !remount.playable uri)
        (uris s.server) (item.uri, item.position) := by
  obtain ⟨r, s', hadd, hlib', huris⟩ := addid_uris refusals remount hlib item.uri item.position
  have hrun := Procedure.run_bind_ok (f := fun r => match r with
    | .ok _ => (pure (restored + 1) : Procedure Session VerbError Nat)
    | .error _ => pure restored) (Procedure.run_attempt hadd)
  cases r with
  | ok id => exact ⟨restored + 1, s', hrun, hlib', huris⟩
  | error e => exact ⟨restored, s', hrun, hlib', huris⟩

theorem fold_restoreOne (remount : Library) (items : List ParkedQueueItem) (restored : Nat)
    (s : Session) (hlib : s.server.library = remount) :
    ∃ n s', Procedure.fold (restoreOne refusals.link) restored items s = (.ok n, s') ∧
      uris s'.server = (items.map fun item => (item.uri, item.position)).foldl (Reinsert.putBack
        fun uri position => refusals.addid uri position || !remount.playable uri)
        (uris s.server) := by
  induction items generalizing s restored with
  | nil => exact ⟨restored, s, rfl, rfl⟩
  | cons item items ih =>
    obtain ⟨m, s', hone, hlib', huris⟩ := restoreOne_run refusals remount hlib restored item
    obtain ⟨n, s'', hfold, huris'⟩ := ih m s' hlib'
    refine ⟨n, s'', ?_, ?_⟩
    · rw [Procedure.fold, Procedure.run_bind_ok hone, hfold]
    · rw [huris', huris, List.map_cons, List.foldl_cons]

theorem stopOnDoomed_run (items : List MpdQueueItem) (s : Session) :
    ∃ s', stopOnDoomed refusals.link items s = (.ok (), s') ∧
      s'.server.queue = s.server.queue ∧ s'.server.library = s.server.library := by
  unfold stopOnDoomed
  rw [Procedure.run_bind_ok (run_verbStep (status_run refusals s))]
  split
  · exact ⟨_, rfl, rfl, rfl⟩
  · exact ⟨_, rfl, rfl, rfl⟩

theorem doomed_eq {pre : List Char} (hpre : pre.isEmpty = false) (server : Server) :
    doomed pre server = server.playlistinfo.filter fun item => queuePathIsUnder item.filePath pre := by
  simp [doomed, parks, hpre]

theorem playlistinfo_ids (server : Server) :
    server.playlistinfo.map MpdQueueItem.id = server.queue.rows.map Row.id := by
  conv_rhs => rw [← List.zipIdx_map_fst 0 server.queue.rows, List.map_map]
  rw [Server.playlistinfo, List.mapIdx_eq_zipIdx_map, List.map_map]
  rfl

/-- What a drop leaves of the queue, and when it reports success. -/
theorem dropQueueItemsUnder_run {pre : List Char} (hpre : pre.isEmpty = false) (s : Session) :
    ∃ r s', dropQueueItemsUnder refusals.link pre s = (r, s') ∧
      ((∃ n, r = .ok n) ↔ ∀ item ∈ doomed pre s.server, refusals.deleteid item.id = false) ∧
      s'.server.library = s.server.library ∧
      s'.server.queue.rows = s.server.queue.rows.filter (fun row => row.id ∉
        ((doomed pre s.server).takeWhile fun item => !refusals.deleteid item.id).map
          MpdQueueItem.id) := by
  unfold dropQueueItemsUnder
  rw [if_neg (by simp [hpre]), Procedure.run_bind_ok (run_verbStep (playlistinfo_run refusals s))]
  simp only [← doomed_eq hpre]
  split
  next hnone =>
    rw [List.isEmpty_iff] at hnone
    exact ⟨_, _, rfl, by simp [hnone], rfl, by simp [hnone]⟩
  next hsome =>
    obtain ⟨s₁, hstop, hqueue, hlib⟩ := stopOnDoomed_run refusals (doomed pre s.server)
      (s.sent .playlistinfo true)
    have hids : ((doomed pre s.server).map MpdQueueItem.id).Sublist
        (s.server.queue.rows.map Row.id) := by
      rw [← playlistinfo_ids]
      exact List.filter_sublist.map _
    obtain ⟨s₂, heach, hrows, hlib₂⟩ := each_deleteid refusals (doomed pre s.server) s₁
      (fun item hitem => by
        rw [hqueue]
        exact hids.subset (List.mem_map_of_mem hitem))
      (s.server.queue.distinct.sublist hids)
    rw [hqueue] at hrows
    rw [Procedure.run_bind_ok hstop]
    by_cases hany : (doomed pre s.server).any fun item => refusals.deleteid item.id
    · rw [if_pos hany] at heach
      rw [Procedure.run_bind_error heach]
      refine ⟨_, s₂, rfl, ?_, hlib₂.trans hlib, hrows⟩
      obtain ⟨item, hitem, hr⟩ := List.any_eq_true.mp hany
      refine iff_of_false (by simp) fun hall => ?_
      rw [hall item hitem] at hr
      exact Bool.noConfusion hr
    · rw [if_neg hany] at heach
      have hpublish := publishQueue_run refusals.link s₂
      cases hrun : publishQueue refusals.link s₂ with
      | mk r s₃ =>
        cases r with
        | error e => exact (hpublish.error hrun).elim
        | ok u =>
          obtain ⟨hserver, -⟩ := hpublish.ok hrun
          rw [Procedure.run_bind_ok heach, Procedure.run_bind_ok hrun]
          refine ⟨_, s₃, rfl, ?_, by rw [hserver, hlib₂, hlib]; rfl, by rw [hserver, hrows]; rfl⟩
          refine iff_of_true ⟨_, rfl⟩ fun item hitem => ?_
          rw [Bool.not_eq_true, List.any_eq_false] at hany
          simpa using hany item hitem

theorem restoreTransport_run (parked : ParkedQueue) (s : Session) :
    Procedure.Triple (restoreTransport link parked) s
      (fun _ s' => s'.server.queue = s.server.queue) (fun _ _ => False) := by
  have hnow (s' : Session) (h : s'.server.queue = s.server.queue) :
      Procedure.Triple (publishNowPlayingAfterTransport link) s'
        (fun _ s'' => s''.server.queue = s.server.queue) (fun _ _ => False) :=
    (publishNowPlaying_run link s').mono (fun _ s'' hs => hs.1 ▸ h) (fun _ _ => id)
  have hplayer (effect : Server → Except Mpd.MpdError (Unit × Server)) (command : Command)
      (heffect : ∀ server server', effect server = .ok ((), server') → server'.queue = server.queue)
      (s' : Session) (h : s'.server.queue = s.server.queue) :
      Procedure.Triple ((dispatch link command effect).attempt : Procedure Session VerbError _) s'
        (fun _ s'' => s''.server.queue = s.server.queue) (fun _ _ => False) := by
    refine (dispatch_run link command effect s').attempt ?_ ?_
    · rintro ⟨⟩ s'' ⟨heff, -⟩
      exact (heffect _ _ heff).trans h
    · rintro e s'' ⟨heq | ⟨⟨⟩, heff⟩, -⟩
      · exact heq ▸ h
      · exact (heffect _ _ heff).trans h
  unfold restoreTransport
  split
  · exact .pure rfl
  next position _ =>
    split
    · refine .bind (hplayer _ _ ?_ s rfl) ?_
      · intro server server' h
        unfold Server.playPosition at h
        split at h
        · cases h
          rfl
        · cases h
      · rintro (e | ⟨⟩) s' hs'
        · exact hnow s' hs'
        · dsimp only
          split
          · refine .bind (hplayer _ _ ?_ s' hs') fun _ s'' hs'' => hnow s'' hs''
            intro server server' h
            cases h
            rfl
          · exact hnow s' hs'
    · exact .pure rfl

end

-- ---------------------------------------------------------------------------
-- What is parked
-- ---------------------------------------------------------------------------

theorem mem_doomed {pre : List Char} {server : Server} {item : MpdQueueItem} :
    item ∈ doomed pre server ↔
      server.queue.rows[item.position]? = some ⟨item.id, item.filePath⟩ ∧
        parks pre item.filePath := by
  obtain ⟨position, id, filePath⟩ := item
  simp only [doomed, Server.playlistinfo, List.mem_filter, List.mem_mapIdx, MpdQueueItem.mk.injEq]
  constructor
  · rintro ⟨⟨i, hi, rfl, rfl, rfl⟩, hp⟩
    exact ⟨List.getElem?_eq_getElem hi, hp⟩
  · rintro ⟨hrow, hp⟩
    obtain ⟨hi, heq⟩ := List.getElem?_eq_some_iff.mp hrow
    exact ⟨⟨position, hi, rfl, by rw [heq], by rw [heq]⟩, hp⟩

/-- Song ids tell the rows apart, so a row is doomed by its own path. -/
theorem id_mem_doomed {pre : List Char} {server : Server} {row : Row}
    (hrow : row ∈ server.queue.rows) :
    row.id ∈ (doomed pre server).map MpdQueueItem.id ↔ parks pre row.uri := by
  constructor
  · intro hmem
    obtain ⟨item, hitem, hid⟩ := List.mem_map.mp hmem
    obtain ⟨hat, hp⟩ := mem_doomed.mp hitem
    have heq := List.inj_on_of_nodup_map server.queue.distinct (List.mem_of_getElem? hat) hrow hid
    rw [← heq]
    exact hp
  · intro hp
    obtain ⟨i, hi, heq⟩ := List.mem_iff_getElem.mp hrow
    have hmem : (⟨i, row.id, row.uri⟩ : MpdQueueItem) ∈ doomed pre server :=
      mem_doomed.mpr ⟨by rw [List.getElem?_eq_getElem hi, heq], hp⟩
    exact List.mem_map.mpr ⟨_, hmem, rfl⟩

theorem mapIdx_filter_taken (pre : List Char) (rows : List Row) (n : Nat) :
    ((rows.mapIdx fun i row => (⟨i + n, row.id, row.uri⟩ : MpdQueueItem)).filter
        fun item => parks pre item.filePath).map (fun item => (item.filePath, item.position)) =
      Reinsert.taken (parks pre) n (rows.map Row.uri) := by
  induction rows generalizing n with
  | nil => rfl
  | cons row rows ih =>
    have hshift : (rows.mapIdx fun i row => (⟨i + 1 + n, row.id, row.uri⟩ : MpdQueueItem)) =
        rows.mapIdx fun i row => ⟨i + (n + 1), row.id, row.uri⟩ := by
      simp only [Nat.add_assoc, Nat.add_comm 1 n]
    simp only [List.mapIdx_cons, List.map_cons, Reinsert.taken, hshift, Nat.zero_add]
    split
    next hp => rw [List.filter_cons, if_pos hp, List.map_cons, ih (n + 1)]
    next hp => rw [List.filter_cons, if_neg hp, ih (n + 1)]

theorem doomed_taken (pre : List Char) (server : Server) :
    (doomed pre server).map (fun item => (item.filePath, item.position)) =
      Reinsert.taken (parks pre) 0 (uris server) :=
  mapIdx_filter_taken pre server.queue.rows 0

-- ---------------------------------------------------------------------------
-- Parking and restoring
-- ---------------------------------------------------------------------------

/-- Every row is still in the queue, or held in the parked queue that was
returned. -/
def NothingLost (before : Session) (outcome : Except VerbError ParkedQueue × Session) : Prop :=
  ∀ position row, before.server.queue.rows[position]? = some row →
    row ∈ outcome.2.server.queue.rows ∨
      ∃ parked, outcome.1 = .ok parked ∧ ⟨position, row.uri⟩ ∈ parked.items

/-- The volume is mounted again, and the database may have changed. -/
def Session.remount (s : Session) (library : Library) : Session :=
  { s with server := { s.server with library } }

/-- MPD refuses the row's own `addid`, whatever its position. -/
def Refusals.refusesRow (refusals : Refusals) (library : Library) (uri : List Char)
    (position : Nat) : Bool :=
  refusals.addid uri position || !library.playable uri

/-- A restore after a successful park gives the old queue again, without the
rows whose own `addid` is refused. -/
def Restores (refusals : Refusals) (pre : List Char) (library : Library) (before : Session)
    (outcome : Except VerbError ParkedQueue × Session) : Prop :=
  ∀ parked, outcome.1 = .ok parked →
    uris (restoreParkedQueue refusals.link parked (outcome.2.remount library)).2.server =
      Reinsert.kept (parks pre) (refusals.refusesRow library) 0 (uris before.server)

/-- No deletion is refused. -/
def DeletesAll (refusals : Refusals) (pre : List Char) (server : Server) : Prop :=
  ∀ item ∈ doomed pre server, refusals.deleteid item.id = false

/-- The first deletion is refused. -/
def DeletesNone (refusals : Refusals) (pre : List Char) (server : Server) : Prop :=
  ∃ first ∈ (doomed pre server).head?, refusals.deleteid first.id = true

/-- No row goes back after a row that is refused. -/
def RefusesLast (refusals : Refusals) (pre : List Char) (library : Library) (server : Server) :
    Prop :=
  (Reinsert.taken (parks pre) 0 (uris server)).Pairwise fun first later =>
    refusals.refusesRow library first.1 first.2 → refusals.refusesRow library later.1 later.2

section

variable (refusals : Refusals)

theorem restoreParkedQueue_run (library : Library) (parked : ParkedQueue) (s : Session)
    (hsorted : (parked.items.map fun item => (item.uri, item.position)).Pairwise
      fun first second => first.2 ≤ second.2) :
    uris (restoreParkedQueue refusals.link parked (s.remount library)).2.server =
      (parked.items.map fun item => (item.uri, item.position)).foldl
        (Reinsert.putBack (refusals.refusesRow library)) (uris s.server) := by
  unfold restoreParkedQueue
  split
  next hnone =>
    rw [List.isEmpty_iff] at hnone
    rw [hnone]
    rfl
  next =>
    have hsort : parked.items.insertionSort (fun first second => first.position ≤ second.position) =
        parked.items := (List.pairwise_map.mp hsorted).insertionSort_eq
    obtain ⟨n, s', hfold, huris⟩ := fold_restoreOne refusals library parked.items 0
      (s.remount library) rfl
    rw [hsort, Procedure.run_bind_ok hfold]
    refine Eq.trans (congrArg (fun queue : Queue => queue.rows.map Row.uri) ?_) huris
    split
    · rfl
    · have htail : Procedure.Triple (do
          restoreTransport refusals.link parked
          publishQueue refusals.link
          return n) s' (fun _ s'' => s''.server.queue = s'.server.queue) (fun _ _ => False) := by
        refine .bind (restoreTransport_run parked s') fun _ s₁ h₁ => ?_
        refine .bind (publishQueue_run refusals.link s₁) fun _ s₂ h₂ => ?_
        exact .pure (h₂.1 ▸ h₁)
      revert htail
      unfold Procedure.Triple
      split
      next hrun => rw [hrun]; exact id
      next => exact False.elim

/-- A park with nothing to take out changes nothing. -/
theorem parkQueueItemsUnder_idle {pre : List Char} {s : Session} (h : doomed pre s.server = []) :
    ∃ s', parkQueueItemsUnder refusals.link pre s = (.ok .default, s') ∧ s'.server = s.server := by
  unfold parkQueueItemsUnder
  by_cases hpre : pre.isEmpty
  · rw [if_pos hpre]
    exact ⟨s, rfl, rfl⟩
  · rw [if_neg hpre, Procedure.run_bind_ok (run_verbStep (playlistinfo_run refusals s))]
    simp only [← doomed_eq (Bool.not_eq_true _ ▸ hpre), h, List.map_nil, List.isEmpty_nil, if_true]
    exact ⟨_, rfl, rfl⟩

/-- A park reports success exactly when its drop does, and holds every row that
it took out. -/
theorem parkQueueItemsUnder_run {pre : List Char} {s : Session} (h : doomed pre s.server ≠ []) :
    ∃ r s', parkQueueItemsUnder refusals.link pre s = (r, s') ∧
      ((∃ parked, r = .ok parked) ↔ DeletesAll refusals pre s.server) ∧
      (∀ parked, r = .ok parked → parked.items =
        (doomed pre s.server).map fun item => ⟨item.position, item.filePath⟩) ∧
      s'.server.queue.rows = s.server.queue.rows.filter (fun row => row.id ∉
        ((doomed pre s.server).takeWhile fun item => !refusals.deleteid item.id).map
          MpdQueueItem.id) := by
  have hpre : pre.isEmpty = false := by
    cases pre with
    | nil => exact absurd (by simp [doomed, parks]) h
    | cons c pre => rfl
  have hsome : ((doomed pre s.server).map fun item =>
      (⟨item.position, item.filePath⟩ : ParkedQueueItem)).isEmpty = false := by
    simpa using h
  unfold parkQueueItemsUnder
  rw [if_neg (by simp [hpre]), Procedure.run_bind_ok (run_verbStep (playlistinfo_run refusals s))]
  simp only [← doomed_eq hpre, hsome, Bool.false_eq_true, if_false]
  rw [Procedure.run_bind_ok (run_verbStep (status_run refusals _))]
  obtain ⟨r, s', hdrop, hok, -, hrows⟩ := dropQueueItemsUnder_run refusals hpre
    ((s.sent .playlistinfo true).sent .status true)
  cases r with
  | error e =>
    rw [Procedure.run_bind_error hdrop]
    refine ⟨_, s', rfl, ?_, by rintro parked ⟨⟩, hrows⟩
    exact iff_of_false (by simp) fun hall => by simpa using hok.mpr hall
  | ok n =>
    rw [Procedure.run_bind_ok hdrop]
    refine ⟨_, s', rfl, iff_of_true ⟨_, rfl⟩ (hok.mp ⟨n, rfl⟩), ?_, hrows⟩
    rintro parked h
    cases h
    rfl

/-- After a park that deleted all it had to, the rows that do not lie under the
prefix are left. -/
theorem rows_of_deletesAll {pre : List Char} {server : Server}
    (h : DeletesAll refusals pre server) :
    (server.queue.rows.filter fun row => row.id ∉
        ((doomed pre server).takeWhile fun item => !refusals.deleteid item.id).map
          MpdQueueItem.id) =
      server.queue.rows.filter fun row => !parks pre row.uri := by
  have hall : (doomed pre server).takeWhile (fun item => !refusals.deleteid item.id) =
      doomed pre server :=
    List.takeWhile_eq_self_iff.mpr fun item hitem => by simp [h item hitem]
  rw [hall]
  refine List.filter_congr fun row hrow => ?_
  rw [Bool.eq_iff_iff]
  simp only [decide_eq_true_eq, id_mem_doomed hrow, Bool.not_eq_true', Bool.not_eq_true]

theorem nothingLost_of_parked {pre : List Char} {s s' : Session} {parked : ParkedQueue}
    (hitems : parked.items = (doomed pre s.server).map fun item => ⟨item.position, item.filePath⟩)
    (hrows : s'.server.queue.rows = s.server.queue.rows.filter fun row => !parks pre row.uri) :
    NothingLost s (.ok parked, s') := by
  intro position row hat
  by_cases hp : parks pre row.uri
  · refine .inr ⟨parked, rfl, ?_⟩
    rw [hitems]
    exact List.mem_map.mpr ⟨⟨position, row.id, row.uri⟩, mem_doomed.mpr ⟨hat, hp⟩, rfl⟩
  · refine .inl ?_
    rw [hrows]
    exact List.mem_filter.mpr ⟨List.mem_of_getElem? hat, by simpa using hp⟩

/-- A park that stops halfway has lost what it deleted: the error carries no
parked queue. -/
theorem nothingLost_error_iff {pre : List Char} {s s' : Session} {e : VerbError}
    (hrows : s'.server.queue.rows = s.server.queue.rows.filter (fun row => row.id ∉
      ((doomed pre s.server).takeWhile fun item => !refusals.deleteid item.id).map
        MpdQueueItem.id))
    (hne : doomed pre s.server ≠ []) :
    NothingLost s (.error e, s') ↔ DeletesNone refusals pre s.server := by
  obtain ⟨first, rest, hdoomed⟩ := List.exists_cons_of_ne_nil hne
  obtain ⟨hat, -⟩ := mem_doomed.mp (hdoomed ▸ List.mem_cons_self .. : first ∈ doomed pre s.server)
  by_cases hr : refusals.deleteid first.id
  · refine iff_of_true (fun position row hrow => .inl ?_) ⟨first, by simp [hdoomed], hr⟩
    rw [hrows, hdoomed]
    simpa [hr] using List.mem_of_getElem? hrow
  · refine iff_of_false (fun hlost => ?_) (by simpa [DeletesNone, hdoomed] using hr)
    rcases hlost _ _ hat with hmem | ⟨parked, hok, -⟩
    · rw [hrows, hdoomed] at hmem
      simp [hr] at hmem
    · cases hok

/-- Parking loses no row and restoring puts every row back that MPD accepts, in
the old order, exactly when the deletions are all accepted or refused from the
first one on, and, once they are all accepted, no row is to go back after one
that is refused. -/
theorem park_restore_iff (pre : List Char) (library : Library) (s : Session) :
    (NothingLost s (parkQueueItemsUnder refusals.link pre s) ∧
      Restores refusals pre library s (parkQueueItemsUnder refusals.link pre s)) ↔
    (DeletesAll refusals pre s.server ∧ RefusesLast refusals pre library s.server) ∨
      DeletesNone refusals pre s.server := by
  by_cases hne : doomed pre s.server = []
  · obtain ⟨s', hpark, hserver⟩ := parkQueueItemsUnder_idle refusals hne
    have htaken : Reinsert.taken (parks pre) 0 (uris s.server) = [] := by
      rw [← doomed_taken, hne, List.map_nil]
    rw [hpark]
    refine iff_of_true ⟨?_, ?_⟩ (.inl ⟨by simp [DeletesAll, hne], by simp [RefusesLast, htaken]⟩)
    · intro position row hat
      exact .inl (hserver ▸ List.mem_of_getElem? hat)
    · rintro parked ⟨⟩
      rw [Reinsert.kept_of_taken_nil htaken, restoreParkedQueue_run refusals library .default s' .nil]
      exact congrArg uris hserver
  · obtain ⟨r, s', hpark, hok, hitems, hrows⟩ := parkQueueItemsUnder_run refusals hne
    rw [hpark]
    cases r with
    | error e =>
      have hall : ¬DeletesAll refusals pre s.server := fun h => by simpa using hok.mpr h
      rw [nothingLost_error_iff refusals hrows hne]
      constructor
      · exact fun h => .inr h.1
      · rintro (h | h)
        · exact absurd h.1 hall
        · exact ⟨h, by rintro parked ⟨⟩⟩
    | ok parked =>
      have hall := hok.mp ⟨parked, rfl⟩
      rw [rows_of_deletesAll refusals hall] at hrows
      have hnone : ¬DeletesNone refusals pre s.server := by
        rintro ⟨first, hfirst, hr⟩
        rw [hall first (List.mem_of_mem_head? hfirst)] at hr
        exact Bool.noConfusion hr
      have htaken : (parked.items.map fun item => (item.uri, item.position)) =
          Reinsert.taken (parks pre) 0 (uris s.server) := by
        rw [hitems parked rfl, List.map_map, ← doomed_taken]
        rfl
      have huris : uris s'.server = (uris s.server).filter fun uri => !parks pre uri := by
        rw [uris, hrows, uris, List.filter_map]
        rfl
      have hrestore := restoreParkedQueue_run refusals library parked s'
        (htaken ▸ Reinsert.taken_sorted 0 _)
      have hiff := @Reinsert.foldl_putBack_iff _ (parks pre) (refusals.refusesRow library)
        (uris s.server) []
      rw [List.nil_append, List.nil_append, List.length_nil, ← htaken, ← huris, ← hrestore,
        htaken] at hiff
      simp only [hall, hnone, true_and, or_false]
      rw [RefusesLast, ← hiff]
      constructor
      · exact fun h => h.2 parked rfl
      · refine fun h => ⟨nothingLost_of_parked (hitems parked rfl) hrows, ?_⟩
        rintro _ ⟨⟩
        exact h

end

/-- Two tracks of a stick in front of a local one, and the database that knows
them. -/
def stickLibrary : Library where
  songs := ["USB/S/a".toList, "USB/S/b".toList, "c".toList]
  finds _ _ := false
  searches _ _ := false
  values _ := []
  streams _ := false
  distinct := by decide
  leaf := by decide
  named := by decide
  outside := by simp

def stickSession : Session where
  server := {
    queue := ⟨[⟨0, "USB/S/a".toList⟩, ⟨1, "USB/S/b".toList⟩, ⟨2, "c".toList⟩], 3, by decide, by decide⟩
    state := .stopped
    current := none
    library := stickLibrary
    playlists := []
    entries := by simp }
  mirror := none
  log := []

/-- The second deletion is refused and the first track is in no list any more;
or the first `addid` is refused and the second track comes back behind the local
one. -/
theorem park_loses_rows :
    ¬NothingLost stickSession (parkQueueItemsUnder (Refusals.link ⟨fun _ _ => false, (· == 1)⟩)
        "USB/S".toList stickSession) ∧
      ¬Restores ⟨fun uri _ => uri == "USB/S/a".toList, fun _ => false⟩ "USB/S".toList stickLibrary
        stickSession (parkQueueItemsUnder
          (Refusals.link ⟨fun uri _ => uri == "USB/S/a".toList, fun _ => false⟩)
          "USB/S".toList stickSession) := by
  constructor
  · intro h
    rcases h 0 ⟨0, "USB/S/a".toList⟩ rfl with hmem | ⟨parked, hok, -⟩
    · exact absurd hmem (by decide)
    · cases hok
  · intro h
    exact absurd (h ⟨[⟨0, "USB/S/a".toList⟩, ⟨1, "USB/S/b".toList⟩], false, false, none⟩ rfl)
      (by decide)

end EvoAudio.Playback
