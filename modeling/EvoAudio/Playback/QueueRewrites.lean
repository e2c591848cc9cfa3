import EvoAudio.Playback.PlaylistRewrites

/-!
# Rewriting the rows of the queue

When a USB stick comes back under another name, `rewrite_queue_uris_under` puts
the rows of the queue on the new path, from the last to the first: the new URI is
added at the place of the row, and the row is deleted. A row whose new URI MPD
does not take stays. Whether playback has to be taken up again is decided before
the first row is rewritten.
-/

namespace EvoAudio.Playback

open Mpd (MpdError)
open Procedure (Triple Along)

structure RewriteTarget where
  oldId : Nat
  position : Nat
  newUri : List Char
  deriving DecidableEq, Repr

def rewriteTargets (source target : List Char) (items : List MpdQueueItem) : List RewriteTarget :=
  items.filterMap fun item =>
    (rewriteQueuePath item.filePath source target).map (⟨item.id, item.position, ·⟩)

/-- The position to take playback up at, and whether it was paused there. -/
def restorePoint (targets : List RewriteTarget) (status : MpdStatus) : Option (Nat × Bool) :=
  match status.songPosition, status.state with
  | some position, .playing =>
    if targets.any (·.position == position) then some (position, false) else none
  | some position, .paused =>
    if targets.any (·.position == position) then some (position, true) else none
  | _, _ => none

/-- One turn of the loop: a row whose `addid` fails is left in place. -/
def rewriteRow (link : Link) (rewritten : Nat) (item : RewriteTarget) :
    Procedure Session VerbError Nat := do
  match ← (addid link item.newUri (some item.position)).attempt with
  | .error (_ : MpdError) => return rewritten
  | .ok _ =>
    verbStep "rewrite_uri_prefix" "deleteid" (deleteid link item.oldId)
    return rewritten + 1

def restorePlayback (link : Link) : Option (Nat × Bool) → Procedure Session VerbError Unit
  | none => return
  | some (position, paused) => do
    match ← (playPosition link position).attempt with
    | .error (_ : MpdError) => publishNowPlayingAfterTransport link
    | .ok () =>
      if paused then
        let _ ← (pause link true).attempt
        publishNowPlayingAfterTransport link
      else publishNowPlayingAfterTransport link

def rewriteQueueUrisUnder (link : Link) (source target : List Char) :
    Procedure Session VerbError Nat := do
  if source.isEmpty || target.isEmpty || source == target then return 0
  let items ← verbStep "rewrite_uri_prefix" "playlistinfo" (playlistinfo link)
  let targets := rewriteTargets source target items
  if targets.isEmpty then return 0
  let status ← verbStep "rewrite_uri_prefix" "status" (status link)
  let rewritten ← Procedure.fold (rewriteRow link) 0
    (targets.insertionSort fun first second => second.position ≤ first.position)
  if rewritten = 0 then return 0
  restorePlayback link (restorePoint targets status)
  publishQueue link
  return rewritten

-- ---------------------------------------------------------------------------
-- The rows before and after
-- ---------------------------------------------------------------------------

/-- MPD refuses these new URIs. What becomes of any other command is left open. -/
def refusingUris (refused : List Char → Bool) (rest : Link) : Link
  | _, .addid uri _ => if refused uri then .refuse 0 noExist else .serve
  | sent, command => rest sent command

/-- A URI that MPD does not refuse and that its library plays. -/
def acceptsUri (refused : List Char → Bool) (library : Library) (uri : List Char) : Bool :=
  !refused uri && library.playable uri

section Rows

variable (accepts : List Char → Bool) (source target : List Char)

/-- The row is under the old prefix, and its new URI is accepted. -/
def rewrites (row : Row) : Bool := (rewriteQueuePath row.uri source target).any accepts

/-- The row holds its new URI when that is accepted. Any other row is the same. -/
def RewrittenRow (row row' : Row) : Prop :=
  if rewrites accepts source target row then row'.uri = rewritten source target row.uri
  else row' = row

variable {accepts source target}

theorem rewriteQueuePath_eq_some {path new : List Char}
    (h : rewriteQueuePath path source target = some new) :
    ∃ rest, path = source ++ rest ∧ new = target ++ rest := by
  unfold rewriteQueuePath at h
  split at h
  · cases h
  · obtain ⟨rest, hrest, rfl⟩ := Option.map_eq_some_iff.mp h
    exact ⟨rest, (Text.stripPrefix_eq_some hrest), rfl⟩

theorem rewrites_iff {row : Row} :
    rewrites accepts source target row = true ↔
      ∃ new, rewriteQueuePath row.uri source target = some new ∧ accepts new = true :=
  Option.any_eq_true ..

/-- The rows that are rewritten are the ones that change. -/
theorem RewrittenRow.ne_iff (hne : source ≠ target) {row row' : Row}
    (h : RewrittenRow accepts source target row row') :
    row ≠ row' ↔ rewrites accepts source target row = true := by
  unfold RewrittenRow at h
  split at h
  next hrewrites =>
    refine iff_of_true ?_ hrewrites
    rintro rfl
    obtain ⟨new, hnew, -⟩ := rewrites_iff.mp hrewrites
    obtain ⟨rest, hpath, rfl⟩ := rewriteQueuePath_eq_some hnew
    rw [rewritten, hnew, Option.getD_some, hpath] at h
    exact hne (List.append_cancel_right h)
  next hrewrites => exact iff_of_false (fun hchanged => hchanged h.symm) hrewrites

theorem countP_rewrites (hne : source ≠ target) {rows rows' : List Row}
    (h : List.Forall₂ (RewrittenRow accepts source target) rows rows') :
    rows.countP (rewrites accepts source target) =
      (rows.zip rows').countP fun pair => pair.1 ≠ pair.2 := by
  induction h with
  | nil => rfl
  | cons hrow _ ih =>
    have hchanged := hrow.ne_iff hne
    rw [List.countP_cons, List.zip_cons_cons, List.countP_cons, ih]
    simp only [decide_eq_true_eq, hchanged]

/-- The targets of the rows from some position on. -/
def targetsOf (source target : List Char) (rows : List Row) : List RewriteTarget :=
  rewriteTargets source target (rows.mapIdx fun position row => ⟨position, row.id, row.uri⟩)

theorem targetsOf_concat (front : List Row) (row : Row) :
    targetsOf source target (front ++ [row]) = targetsOf source target front ++
      ((rewriteQueuePath row.uri source target).map (⟨row.id, front.length, ·⟩)).toList := by
  rw [targetsOf, List.mapIdx_concat, rewriteTargets, List.filterMap_append]
  cases h : rewriteQueuePath row.uri source target <;> simp [targetsOf, rewriteTargets, h]

theorem mem_targetsOf {rows : List Row} {item : RewriteTarget} :
    item ∈ targetsOf source target rows ↔
      ∃ row, rows[item.position]? = some row ∧ row.id = item.oldId ∧
        rewriteQueuePath row.uri source target = some item.newUri := by
  unfold targetsOf rewriteTargets
  simp only [List.mem_filterMap, List.mem_mapIdx, Option.map_eq_some_iff]
  constructor
  · rintro ⟨-, ⟨position, hposition, rfl⟩, new, hnew, rfl⟩
    exact ⟨rows[position], List.getElem?_eq_getElem hposition, rfl, hnew⟩
  · rintro ⟨row, hrow, hid, hnew⟩
    obtain ⟨hposition, rfl⟩ := List.getElem?_eq_some_iff.mp hrow
    exact ⟨_, ⟨item.position, hposition, rfl⟩, item.newUri, hnew, by rw [hid]⟩

/-- The targets stand in the order of their positions. -/
theorem targetsOf_pairwise (rows : List Row) :
    (targetsOf source target rows).Pairwise fun first second => first.position < second.position := by
  induction rows using List.reverseRecOn with
  | nil => exact .nil
  | append_singleton front row ih =>
    rw [targetsOf_concat, List.pairwise_append]
    refine ⟨ih, ?_, ?_⟩
    · cases rewriteQueuePath row.uri source target <;> simp
    · intro first hfirst second hsecond
      obtain ⟨row', hrow', -⟩ := mem_targetsOf.mp hfirst
      obtain ⟨new, -, rfl⟩ := Option.map_eq_some_iff.mp (Option.mem_toList.mp hsecond)
      exact (List.getElem?_eq_some_iff.mp hrow').1

/-- Sorted by falling positions they stand the other way round. -/
theorem targetsOf_sorted (rows : List Row) :
    ((targetsOf source target rows).insertionSort fun first second =>
      second.position ≤ first.position) = (targetsOf source target rows).reverse := by
  have hpairwise := @targetsOf_pairwise source target rows
  have hinjective : ∀ first ∈ targetsOf source target rows, ∀ second ∈ targetsOf source target rows,
      first.position = second.position → first = second := by
    intro first hfirst second hsecond heq
    obtain ⟨row, hrow, hid, hnew⟩ := mem_targetsOf.mp hfirst
    obtain ⟨row', hrow', hid', hnew'⟩ := mem_targetsOf.mp hsecond
    rw [heq, hrow'] at hrow
    cases hrow
    cases first
    cases second
    simp_all
  have : Std.Total fun first second : RewriteTarget => second.position ≤ first.position :=
    ⟨fun first second => Nat.le_total _ _⟩
  have : IsTrans RewriteTarget fun first second => second.position ≤ first.position :=
    ⟨fun _ _ _ h h' => h'.trans h⟩
  refine List.Perm.eq_of_pairwise ?_ (List.pairwise_insertionSort _ _)
    (List.pairwise_reverse.mpr (hpairwise.imp Nat.le_of_lt))
    ((List.perm_insertionSort _ _).trans (List.reverse_perm _).symm)
  intro first second hfirst hsecond hle hge
  exact hinjective first ((List.mem_insertionSort _).mp hfirst) second
    (List.mem_reverse.mp hsecond) (Nat.le_antisymm hge hle)

end Rows

-- ---------------------------------------------------------------------------
-- The loop
-- ---------------------------------------------------------------------------

section Loop

variable {refused : List Char → Bool} {rest : Link} {source target : List Char} {s : Session}

theorem Queue.remove_rows {queue : Queue} {front suffix : List Row} {row : Row}
    (hrows : queue.rows = front ++ row :: suffix) : (queue.remove row.id).rows = front ++ suffix := by
  have hdistinct := queue.distinct
  rw [hrows, List.map_append, List.map_cons, List.nodup_middle, List.nodup_cons,
    ← List.map_append] at hdistinct
  have hother : ∀ other ∈ front ++ suffix, other.id ≠ row.id := fun other hother heq =>
    hdistinct.1 (List.mem_map.mpr ⟨other, hother, heq⟩)
  simp only [Queue.remove, hrows, List.filter_append]
  rw [List.filter_cons_of_neg (by simp), List.filter_eq_self.mpr, List.filter_eq_self.mpr]
  · intro other hmem
    simpa using hother other (List.mem_append_right _ hmem)
  · intro other hmem
    simpa using hother other (List.mem_append_left _ hmem)

theorem Server.deleteid_rows {server server' : Server} {front suffix : List Row} {row : Row}
    (h : Server.deleteid row.id server = .ok ((), server'))
    (hrows : server.queue.rows = front ++ row :: suffix) :
    server'.queue.rows = front ++ suffix ∧ server'.library = server.library := by
  unfold Server.deleteid at h
  split at h
  · cases h
    exact ⟨Queue.remove_rows hrows, rfl⟩
  · cases h

/-- A new URI goes in front of the old row where it is accepted. -/
theorem addid_rewritten {front suffix : List Row} {row : Row} (new : List Char)
    (hrows : s.server.queue.rows = front ++ row :: suffix) :
    ∃ r s', addid (refusingUris refused rest) new (some front.length) s = (r, s') ∧
      s'.server.library = s.server.library ∧
      if acceptsUri refused s.server.library new then
        (∃ id, r = .ok id) ∧ ∃ row', row'.uri = new ∧
          s'.server.queue.rows = front ++ row' :: row :: suffix
      else (∃ error, r = .error error) ∧ s'.server.queue = s.server.queue := by
  have hlink : refusingUris refused rest s.log.length (.addid new (some front.length)) =
      if refused new then .refuse 0 noExist else .serve := rfl
  cases hrefused : refused new with
  | true =>
    rw [hrefused, if_pos rfl] at hlink
    refine ⟨_, _, dispatch_refused hlink, rfl, ?_⟩
    rw [if_neg (by simp [acceptsUri, hrefused])]
    exact ⟨⟨_, rfl⟩, rfl⟩
  | false =>
    rw [hrefused, if_neg Bool.false_ne_true] at hlink
    cases hplay : s.server.library.playable new with
    | false =>
      have heffect : Server.addid new (some front.length) s.server = .error noExist := by
        simp [Server.addid, hplay]
      refine ⟨_, _, dispatch_acked hlink heffect, rfl, ?_⟩
      rw [if_neg (by simp [acceptsUri, hplay])]
      exact ⟨⟨_, rfl⟩, rfl⟩
    | true =>
      have hroom : ¬front.length > s.server.queue.rows.length := by
        rw [hrows, List.length_append]
        omega
      have heffect : Server.addid new (some front.length) s.server = .ok (s.server.queue.nextId,
          { s.server with queue := s.server.queue.insert front.length new }) := by
        simp [Server.addid, hplay, hroom]
      refine ⟨_, _, dispatch_served hlink heffect, rfl, ?_⟩
      rw [if_pos (by simp [acceptsUri, hrefused, hplay])]
      exact ⟨⟨_, rfl⟩, ⟨s.server.queue.nextId, new⟩, rfl, by simp [Queue.insert, hrows]⟩

/-- One turn puts the new URI in the place of the row, or leaves the queue as it is. -/
theorem rewriteRow_run {front suffix : List Row} {row : Row} (new : List Char) (n : Nat)
    (hrows : s.server.queue.rows = front ++ row :: suffix) :
    Triple (rewriteRow (refusingUris refused rest) n ⟨row.id, front.length, new⟩) s
      (fun m s' => s'.server.library = s.server.library ∧
        ∃ row', s'.server.queue.rows = front ++ row' :: suffix ∧
          if acceptsUri refused s.server.library new then row'.uri = new ∧ m = n + 1
          else row' = row ∧ m = n)
      (fun _ _ => True) := by
  obtain ⟨r, s₁, hadd, hlib, hqueue⟩ := @addid_rewritten refused rest s front suffix row new hrows
  have hrun : rewriteRow (refusingUris refused rest) n ⟨row.id, front.length, new⟩ s = _ :=
    Procedure.run_bind_ok (Procedure.run_attempt hadd)
  unfold Triple
  rw [hrun]
  split at hqueue
  next haccepts =>
    obtain ⟨⟨id, rfl⟩, row', huri, hrows'⟩ := hqueue
    refine Triple.bind (.mapError (dispatch_run _ _ _ s₁) fun _ _ _ => trivial) ?_
    rintro ⟨⟩ s₂ ⟨hdelete, -, -⟩
    have hfront : s₁.server.queue.rows = (front ++ [row']) ++ row :: suffix := by
      rw [hrows', List.append_assoc, List.singleton_append]
    obtain ⟨hrows₂, hlib₂⟩ := Server.deleteid_rows hdelete hfront
    refine .pure ⟨hlib₂.trans hlib, row', ?_, ?_⟩
    · rw [hrows₂, List.append_assoc, List.singleton_append]
    · rw [if_pos haccepts]
      exact ⟨huri, rfl⟩
  next haccepts =>
    obtain ⟨⟨error, rfl⟩, hsame⟩ := hqueue
    refine ⟨hlib, row, by rw [hsame, hrows], ?_⟩
    rw [if_neg haccepts]
    exact ⟨rfl, rfl⟩

/-- The loop goes from the last row to the first and keeps the rows behind it. -/
theorem fold_rewriteRow (front suffix : List Row) (n : Nat) (library : Library)
    (hrows : s.server.queue.rows = front ++ suffix) (hlib : s.server.library = library) :
    Triple (Procedure.fold (rewriteRow (refusingUris refused rest)) n
        (targetsOf source target front).reverse) s
      (fun m s' => ∃ front', s'.server.queue.rows = front' ++ suffix ∧
        List.Forall₂ (RewrittenRow (acceptsUri refused library) source target) front front' ∧
        m = n + front.countP (rewrites (acceptsUri refused library) source target))
      (fun _ _ => True) := by
  induction front using List.reverseRecOn generalizing s suffix n with
  | nil => exact .pure ⟨[], hrows, .nil, rfl⟩
  | append_singleton front row ih =>
    have hrows' : s.server.queue.rows = front ++ row :: suffix := by
      rw [hrows, List.append_assoc, List.singleton_append]
    have hlast {s' : Session} {n' : Nat} {row' : Row}
        (hrow : RewrittenRow (acceptsUri refused library) source target row row')
        (hn : n' = n + [row].countP (rewrites (acceptsUri refused library) source target))
        (hqueue : s'.server.queue.rows = front ++ row' :: suffix)
        (hlib' : s'.server.library = library) :
        Triple (Procedure.fold (rewriteRow (refusingUris refused rest)) n'
            (targetsOf source target front).reverse) s'
          (fun m s'' => ∃ front', s''.server.queue.rows = front' ++ suffix ∧
            List.Forall₂ (RewrittenRow (acceptsUri refused library) source target)
              (front ++ [row]) front' ∧
            m = n + (front ++ [row]).countP (rewrites (acceptsUri refused library) source target))
          (fun _ _ => True) := by
      refine (ih (row' :: suffix) n' hqueue hlib').mono ?_ fun _ _ _ => trivial
      rintro m s'' ⟨front', hfront', hforall, rfl⟩
      refine ⟨front' ++ [row'], ?_, List.rel_append hforall (.cons hrow .nil), ?_⟩
      · rw [hfront', List.append_assoc, List.singleton_append]
      · rw [List.countP_append, hn]
        omega
    rw [targetsOf_concat, List.reverse_append]
    cases hpath : rewriteQueuePath row.uri source target with
    | none =>
      have hrow : rewrites (acceptsUri refused library) source target row = false := by
        simp [rewrites, hpath]
      refine hlast ?_ ?_ hrows' hlib
      · rw [RewrittenRow, hrow, if_neg Bool.false_ne_true]
      · rw [List.countP_singleton, hrow, if_neg Bool.false_ne_true, Nat.add_zero]
    | some new =>
      refine .bind (rewriteRow_run new n hrows') ?_
      rintro m s₁ ⟨hlib₁, row', hqueue, hrow'⟩
      have hrow : rewrites (acceptsUri refused library) source target row =
          acceptsUri refused library new := by simp [rewrites, hpath]
      rw [hlib] at hlib₁ hrow'
      refine hlast ?_ ?_ hqueue hlib₁
      · rw [RewrittenRow, hrow, rewritten, hpath, Option.getD_some]
        split
        next haccepts =>
          rw [if_pos haccepts] at hrow'
          exact hrow'.1
        next haccepts =>
          rw [if_neg haccepts] at hrow'
          exact hrow'.1
      · rw [List.countP_singleton, hrow]
        split
        next haccepts =>
          rw [if_pos haccepts] at hrow'
          exact hrow'.2
        next haccepts =>
          rw [if_neg haccepts] at hrow'
          exact hrow'.2

end Loop

-- ---------------------------------------------------------------------------
-- Taking playback up again
-- ---------------------------------------------------------------------------

/-- MPD was asked to play a position. -/
def Session.Restarted (s s' : Session) : Prop :=
  ∃ sent, s'.log = sent ++ s.log ∧ ∃ entry ∈ sent, ∃ position, entry.1 = .playPosition position

/-- MPD was not asked to play a position. -/
def Session.Unstarted (s s' : Session) : Prop :=
  ∃ sent, s'.log = sent ++ s.log ∧ ∀ entry ∈ sent, ∀ position, entry.1 ≠ .playPosition position

instance : IsPreorder Session Session.Unstarted where
  refl _ := ⟨[], rfl, by simp⟩
  trans _ _ _ := by
    rintro ⟨sent, hlog, hsent⟩ ⟨sent', hlog', hsent'⟩
    refine ⟨sent' ++ sent, by rw [hlog', hlog, List.append_assoc], fun entry hentry => ?_⟩
    exact (List.mem_append.mp hentry).elim (hsent' entry) (hsent entry)

section Restarting

variable {link : Link}

theorem Session.Unstarted.not_restarted {s s' : Session} (h : s.Unstarted s') :
    ¬s.Restarted s' := by
  rintro ⟨sent, hlog, entry, hentry, position, hplay⟩
  obtain ⟨sent', hlog', hunstarted⟩ := h
  cases List.append_cancel_right (hlog.symm.trans hlog')
  exact hunstarted entry hentry position hplay

theorem Session.Restarted.before {s s' s'' : Session} (h : s.Unstarted s')
    (hplay : s'.Restarted s'') : s.Restarted s'' := by
  obtain ⟨before, hbefore, -⟩ := h
  obtain ⟨sent, hsent, entry, hentry, hposition⟩ := hplay
  refine ⟨sent ++ before, ?_, entry, List.mem_append_left _ hentry, hposition⟩
  rw [hsent, hbefore, List.append_assoc]

theorem Session.Restarted.after {s s' s'' : Session} (hplay : s.Restarted s')
    (h : s'.Unstarted s'') : s.Restarted s'' := by
  obtain ⟨sent, hsent, entry, hentry, hposition⟩ := hplay
  obtain ⟨later, hlater, -⟩ := h
  refine ⟨later ++ sent, ?_, entry, List.mem_append_right _ hentry, hposition⟩
  rw [hlater, hsent, List.append_assoc]

theorem dispatch_unstarted (command : Command) (effect : Server → Except MpdError (α × Server))
    (h : ∀ position, command ≠ .playPosition position) :
    Along Session.Unstarted (dispatch link command effect) := by
  have hsent {s s' : Session} {answered : Bool} (hlog : s'.log = (command, answered) :: s.log) :
      s.Unstarted s' := by
    refine ⟨[(command, answered)], hlog, fun entry hentry => ?_⟩
    rw [List.mem_singleton.mp hentry]
    exact h
  refine .of_triple fun s => (dispatch_run link command effect s).mono ?_ ?_
  · rintro a s' ⟨-, -, hlog⟩
    exact hsent hlog
  · rintro e s' ⟨-, -, hlog⟩
    exact hsent hlog

theorem playlistinfo_unstarted : Along Session.Unstarted (playlistinfo link) :=
  dispatch_unstarted _ _ nofun

theorem status_unstarted : Along Session.Unstarted (status link) := dispatch_unstarted _ _ nofun

theorem rewriteRow_unstarted (n : Nat) (item : RewriteTarget) :
    Along Session.Unstarted (rewriteRow link n item) := by
  refine .bind (.attempt (dispatch_unstarted _ _ nofun)) fun outcome => ?_
  cases outcome with
  | error error => exact .pure _
  | ok id => exact .bind (.mapError (dispatch_unstarted _ _ nofun)) fun _ => .pure _

theorem publishNowPlaying_unstarted :
    Along Session.Unstarted (publishNowPlayingAfterTransport link) := by
  refine .bind status_unstarted.attempt fun outcome => ?_
  cases outcome with
  | error error => exact .pure _
  | ok status => exact .bind (.attempt (dispatch_unstarted _ _ nofun)) fun _ => .pure _

theorem publishQueue_unstarted : Along Session.Unstarted (publishQueue link) := by
  have hbuild : Along Session.Unstarted (buildEnvelope link) :=
    .bind playlistinfo_unstarted fun _ => .bind status_unstarted fun _ => .pure _
  refine .bind hbuild.attempt fun outcome => ?_
  cases outcome with
  | error error => exact .pure _
  | ok envelope => exact .modify fun s => ⟨[], rfl, by simp⟩

theorem Server.pause_queue {server server' : Server}
    (h : Server.pause paused server = .ok ((), server')) : server'.queue = server.queue := by
  cases h
  rfl

/-- The player is asked to play when there is a point to restore, and only then. -/
theorem restorePlayback_run (restore : Option (Nat × Bool)) (s : Session) :
    Triple (restorePlayback link restore) s
      (fun _ s' => s'.server.queue = s.server.queue ∧
        if restore.isSome then s.Restarted s' else s' = s)
      (fun _ _ => False) := by
  cases restore with
  | none => exact .pure ⟨rfl, rfl⟩
  | some point =>
    obtain ⟨position, paused⟩ := point
    have hplay : Triple ((playPosition link position).attempt : Procedure Session VerbError _) s
        (fun _ s' => s'.server.queue = s.server.queue ∧ s.Restarted s') (fun _ _ => False) := by
      have hsent {s' : Session} {answered : Bool}
          (hlog : s'.log = (.playPosition position, answered) :: s.log) : s.Restarted s' :=
        ⟨[_], hlog, _, List.mem_singleton_self _, position, rfl⟩
      refine (dispatch_run link _ (Server.playPosition position) s).attempt ?_ ?_
      · rintro ⟨⟩ s' ⟨heffect, -, hlog⟩
        exact ⟨(Server.playPosition_keeps heffect).1, hsent hlog⟩
      · rintro e s' ⟨hserver | ⟨⟨⟩, heffect⟩, -, hlog⟩
        · exact ⟨congrArg Server.queue hserver, hsent hlog⟩
        · exact ⟨(Server.playPosition_keeps heffect).1, hsent hlog⟩
    have hpublish (s₁ : Session) (hqueue : s₁.server.queue = s.server.queue)
        (hrestarted : s.Restarted s₁) :
        Triple (publishNowPlayingAfterTransport link) s₁
          (fun _ s' => s'.server.queue = s.server.queue ∧ s.Restarted s') (fun _ _ => False) := by
      refine ((publishNowPlaying_run link s₁).and (publishNowPlaying_unstarted.triple s₁)).mono ?_
        (fun _ _ h => h.1)
      rintro - s₂ ⟨⟨hserver, -⟩, hunstarted⟩
      exact ⟨(congrArg Server.queue hserver).trans hqueue, hrestarted.after hunstarted⟩
    refine .bind hplay ?_
    rintro (error | ⟨⟩) s₁ ⟨hqueue, hrestarted⟩
    · exact hpublish s₁ hqueue hrestarted
    · dsimp only
      split
      · have hpause : Triple ((pause link true).attempt : Procedure Session VerbError _) s₁
            (fun _ s₂ => s₂.server.queue = s₁.server.queue ∧ s₁.Unstarted s₂)
            (fun _ _ => False) := by
          have hunstarted := (@dispatch_unstarted link _ (.pause true) (Server.pause true)
            nofun).triple s₁
          refine ((dispatch_run link _ (Server.pause true) s₁).and hunstarted).attempt ?_ ?_
          · rintro ⟨⟩ s₂ ⟨⟨heffect, -, -⟩, hsent⟩
            exact ⟨Server.pause_queue heffect, hsent⟩
          · rintro e s₂ ⟨⟨hserver | ⟨⟨⟩, heffect⟩, -, -⟩, hsent⟩
            · exact ⟨congrArg Server.queue hserver, hsent⟩
            · exact ⟨Server.pause_queue heffect, hsent⟩
        refine .bind hpause ?_
        rintro - s₂ ⟨hqueue₂, hunstarted⟩
        exact hpublish s₂ (hqueue₂.trans hqueue) (hrestarted.after hunstarted)
      · exact hpublish s₁ hqueue hrestarted

end Restarting

-- ---------------------------------------------------------------------------
-- The whole rewrite
-- ---------------------------------------------------------------------------

/-- The row the player stands on. -/
def Server.currentRow (server : Server) : Option Row :=
  server.status.songPosition.bind fun position => server.queue.rows[position]?

/-- There is a point to restore when the player is not stopped and stands on a
row under the prefix, whether MPD takes the new URI of that row or not. -/
theorem restorePoint_isSome_iff (source target : List Char) (server : Server) :
    (restorePoint (targetsOf source target server.queue.rows) server.status).isSome ↔
      server.state ≠ .stopped ∧
        ∃ row ∈ server.currentRow, (rewriteQueuePath row.uri source target).isSome := by
  have hon (position : Nat) :
      (targetsOf source target server.queue.rows).any (·.position == position) ↔
        ∃ row ∈ server.queue.rows[position]?, (rewriteQueuePath row.uri source target).isSome := by
    simp only [List.any_eq_true, mem_targetsOf, beq_iff_eq, Option.isSome_iff_exists]
    constructor
    · rintro ⟨item, ⟨row, hrow, -, hnew⟩, rfl⟩
      exact ⟨row, hrow, item.newUri, hnew⟩
    · rintro ⟨row, hrow, new, hnew⟩
      exact ⟨⟨row.id, position, new⟩, ⟨row, hrow, rfl, hnew⟩, rfl⟩
  have hstate : server.status.state = server.state := rfl
  unfold Server.currentRow restorePoint
  rw [hstate]
  cases server.status.songPosition with
  | none => simp
  | some position =>
    rw [Option.bind_some, ← hon]
    cases server.state <;> simp

theorem rewriteQueueUrisUnder_run (refused : List Char → Bool) (rest : Link)
    {source target : List Char} (hsource : source ≠ []) (htarget : target ≠ [])
    (hne : source ≠ target) (s : Session) :
    Triple (rewriteQueueUrisUnder (refusingUris refused rest) source target) s
      (fun n s' =>
        List.Forall₂ (RewrittenRow (acceptsUri refused s.server.library) source target)
          s.server.queue.rows s'.server.queue.rows ∧
        n = s.server.queue.rows.countP
          (rewrites (acceptsUri refused s.server.library) source target) ∧
        (s.Restarted s' ↔ n ≠ 0 ∧
          (restorePoint (targetsOf source target s.server.queue.rows) s.server.status).isSome))
      (fun _ _ => True) := by
  have hguard : ¬(source.isEmpty || target.isEmpty || source == target) = true := by
    simp [hsource, htarget, hne]
  unfold rewriteQueueUrisUnder
  rw [if_neg hguard]
  refine .bind (.mapError ((dispatch_read_run _ _ Server.playlistinfo s).and
    (playlistinfo_unstarted.triple s)) fun _ _ _ => trivial) ?_
  rintro items s₁ ⟨⟨rfl, hs₁⟩, hsent₁⟩
  have htargets : rewriteTargets source target s.server.playlistinfo =
      targetsOf source target s.server.queue.rows := rfl
  dsimp only
  rw [htargets]
  have hnil := @fold_rewriteRow refused rest source target s₁ s.server.queue.rows [] 0
    s.server.library (by rw [hs₁, List.append_nil]; rfl) (by rw [hs₁]; rfl)
  split
  next hempty =>
    rw [List.isEmpty_iff] at hempty
    rw [hempty] at hnil ⊢
    obtain ⟨front, hfront, hforall, hcount⟩ := hnil
    rw [List.append_nil] at hfront
    rw [Nat.zero_add] at hcount
    refine .pure ⟨hfront ▸ hforall, hcount, ?_⟩
    exact iff_of_false hsent₁.not_restarted (fun h => h.1 rfl)
  next =>
    refine .bind (.mapError ((dispatch_read_run _ _ Server.status s₁).and
      (status_unstarted.triple s₁)) fun _ _ _ => trivial) ?_
    rintro status s₂ ⟨⟨rfl, hs₂⟩, hsent₂⟩
    rw [targetsOf_sorted]
    have hloop := @fold_rewriteRow refused rest source target s₂ s.server.queue.rows [] 0
      s.server.library (by rw [hs₂, hs₁, List.append_nil]; rfl) (by rw [hs₂, hs₁]; rfl)
    have hunstarted : Along Session.Unstarted _ :=
      .fold (@rewriteRow_unstarted (refusingUris refused rest)) 0
        (targetsOf source target s.server.queue.rows).reverse
    refine .bind (hloop.and (hunstarted.triple s₂) |>.mono (fun _ _ h => h) fun _ _ _ => trivial) ?_
    rintro n s₃ ⟨⟨rows, hrows, hforall, hcount⟩, hsent₃⟩
    rw [List.append_nil] at hrows
    rw [Nat.zero_add] at hcount
    have hbefore : s.Unstarted s₃ :=
      trans_of Session.Unstarted (trans_of Session.Unstarted hsent₁ hsent₂) hsent₃
    split
    next hzero =>
      refine .pure ⟨hrows ▸ hforall, hzero ▸ hcount, ?_⟩
      exact iff_of_false hbefore.not_restarted (fun h => h.1 rfl)
    next hsome =>
      have hstatus : s₁.server.status = s.server.status := by rw [hs₁]; rfl
      rw [hstatus]
      refine .bind ((restorePlayback_run _ s₃).mono (fun _ _ h => h) fun _ _ h => h.elim) ?_
      rintro - s₄ ⟨hqueue₄, hrestore⟩
      refine .bind (((publishQueue_run _ s₄).and (publishQueue_unstarted.triple s₄)).mono
        (fun _ _ h => h) fun _ _ h => h.1.elim) ?_
      rintro - s₅ ⟨⟨hserver₅, -⟩, hsent₅⟩
      refine .pure ⟨?_, hcount, ?_⟩
      · rw [hserver₅, hqueue₄, hrows]
        exact hforall
      · split at hrestore
        next hpoint =>
          exact iff_of_true ((hrestore.before hbefore).after hsent₅) ⟨hsome, hpoint⟩
        next hpoint =>
          subst hrestore
          refine iff_of_false ?_ fun h => hpoint h.2
          exact (trans_of Session.Unstarted hbefore hsent₅).not_restarted

/-- What a rewrite that succeeds promises of the rows, of the number it returns
and of playback. -/
structure RewritesInPlace (accepts : List Char → Bool) (source target : List Char) (n : Nat)
    (s s' : Session) : Prop where
  rows : List.Forall₂ (RewrittenRow accepts source target) s.server.queue.rows
    s'.server.queue.rows
  count : n = (s.server.queue.rows.zip s'.server.queue.rows).countP fun pair => pair.1 ≠ pair.2
  restart : s.Restarted s' → ∃ row ∈ s.server.currentRow, rewrites accepts source target row

/-- The rows and the number are always right. Playback is restarted on a row that
was not rewritten exactly when the player stood on a row under the prefix whose
new URI is refused, while the new URI of another row is accepted. -/
theorem rewritesInPlace_iff (refused : List Char → Bool) (rest : Link) {source target : List Char}
    (hsource : source ≠ []) (htarget : target ≠ []) (hne : source ≠ target) {s s' : Session}
    (hrun : rewriteQueueUrisUnder (refusingUris refused rest) source target s = (.ok n, s')) :
    RewritesInPlace (acceptsUri refused s.server.library) source target n s s' ↔
      (s.server.state ≠ .stopped → ∀ row ∈ s.server.currentRow, ∀ new,
        rewriteQueuePath row.uri source target = some new →
        acceptsUri refused s.server.library new = false →
        ∀ other ∈ s.server.queue.rows,
          rewrites (acceptsUri refused s.server.library) source target other = false) := by
  obtain ⟨hrows, hcount, hrestart⟩ :=
    (rewriteQueueUrisUnder_run refused rest hsource htarget hne s).ok hrun
  have hzero : n ≠ 0 ↔ ∃ other ∈ s.server.queue.rows,
      rewrites (acceptsUri refused s.server.library) source target other = true := by
    rw [hcount, ← Nat.pos_iff_ne_zero, List.countP_pos_iff]
  rw [restorePoint_isSome_iff, hzero] at hrestart
  constructor
  · rintro hplace hplaying row hrow new hnew hrefused other hother
    rw [Bool.eq_false_iff]
    intro hrewrites
    have hrestarted := hrestart.mpr ⟨⟨other, hother, hrewrites⟩, hplaying, row, hrow, by simp [hnew]⟩
    obtain ⟨row', hrow', hrewrites'⟩ := hplace.restart hrestarted
    cases Option.mem_unique hrow hrow'
    obtain ⟨new', hnew', haccepts⟩ := rewrites_iff.mp hrewrites'
    cases hnew.symm.trans hnew'
    rw [hrefused] at haccepts
    cases haccepts
  · intro hall
    refine ⟨hrows, hcount.trans (countP_rewrites hne hrows), fun hrestarted => ?_⟩
    obtain ⟨⟨other, hother, hrewrites⟩, hplaying, row, hrow, hunder⟩ := hrestart.mp hrestarted
    obtain ⟨new, hnew⟩ := Option.isSome_iff_exists.mp hunder
    refine ⟨row, hrow, rewrites_iff.mpr ⟨new, hnew, ?_⟩⟩
    by_contra hrefused
    have hnone := hall hplaying row hrow new hnew (Bool.not_eq_true _ ▸ hrefused) other hother
    rw [hnone] at hrewrites
    cases hrewrites

-- ---------------------------------------------------------------------------
-- A current row that stays
-- ---------------------------------------------------------------------------

/-- The stick under its new name. -/
def renamedStick : Library :=
  .files ["USB/NEW/a.flac".toList, "USB/NEW/b.flac".toList] (by decide) (by decide) (by decide)

/-- Two songs under the old name, the first of them playing. -/
def playingOldStick : Session :=
  { emptyQueue renamedStick with
    server := { Server.idle renamedStick with
      queue := Queue.empty.append ["USB/OLD/a.flac".toList, "USB/OLD/b.flac".toList]
      state := .playing
      current := some 0 } }

/-- MPD does not take the new URI of the song that plays. -/
def refusesFirst (uri : List Char) : Bool := uri == "USB/NEW/a.flac".toList

def renameStick (refused : List Char → Bool) : Except VerbError Nat × Session :=
  rewriteQueueUrisUnder (refusingUris refused serving) "USB/OLD".toList "USB/NEW".toList
    playingOldStick

/-- The song that plays stays as it is and is started again all the same. -/
theorem refused_current_row_is_restarted :
    (renameStick refusesFirst).1 = .ok 1 ∧
      (renameStick refusesFirst).2.server.queue.rows[0]? = playingOldStick.server.currentRow ∧
      (.playPosition 0, true) ∈ (renameStick refusesFirst).2.log ∧
      ¬RewritesInPlace (acceptsUri refusesFirst renamedStick) "USB/OLD".toList "USB/NEW".toList 1
        playingOldStick (renameStick refusesFirst).2 := by
  have hlog : (.playPosition 0, true) ∈ (renameStick refusesFirst).2.log := by decide +kernel
  refine ⟨by decide +kernel, by decide +kernel, hlog, fun h => ?_⟩
  have hrestarted : playingOldStick.Restarted (renameStick refusesFirst).2 :=
    ⟨_, (List.append_nil _).symm, _, hlog, 0, rfl⟩
  obtain ⟨row, hrow, hrewrites⟩ := h.restart hrestarted
  have hcurrent : playingOldStick.server.currentRow = some ⟨0, "USB/OLD/a.flac".toList⟩ := by decide
  cases hcurrent.symm.trans hrow
  revert hrewrites
  decide

/-- With every new URI accepted the rewrite keeps its promises. -/
theorem rewritesInPlace_renamed :
    RewritesInPlace (acceptsUri (fun _ => false) renamedStick) "USB/OLD".toList "USB/NEW".toList 2
      playingOldStick (renameStick fun _ => false).2 := by
  have hcount : (renameStick fun _ => false).1 = .ok 2 := by decide +kernel
  have hrun : renameStick (fun _ => false) = (.ok 2, (renameStick fun _ => false).2) :=
    Prod.ext hcount rfl
  refine (rewritesInPlace_iff (fun _ => false) serving (by decide) (by decide) (by decide)
    hrun).mpr fun _ row hrow new hnew hrefused => ?_
  have hcurrent : playingOldStick.server.currentRow = some ⟨0, "USB/OLD/a.flac".toList⟩ := by decide
  cases hcurrent.symm.trans hrow
  have hpath : rewriteQueuePath "USB/OLD/a.flac".toList "USB/OLD".toList "USB/NEW".toList =
      some "USB/NEW/a.flac".toList := by decide
  cases hpath.symm.trans hnew
  revert hrefused
  decide

end EvoAudio.Playback
