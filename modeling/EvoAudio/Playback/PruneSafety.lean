import EvoAudio.Playback.GoneCuration

/-!
# What a prune pass deletes

A pass deletes by keys it listed and with a song set it read earlier, so another
connection can make it delete an entry that is not gone. `Sound` says that what
the pass has at hand and is still to list fits the world it runs in. The steps of
the pass keep it, and so does every run in which the steps of others do.
-/

namespace EvoAudio.Playback

/-- An entry under the key, if there is one, is gone. -/
def World.GoneAt (musicDirectory : UnixPath) (world : World) (place : Place) (key : Nat) : Prop :=
  ∀ item ∈ place.items world.server, item.key = key → world.Gone musicDirectory item.uri

/-- The entries the song set calls gone are gone. -/
def World.Trusts (musicDirectory : UnixPath) (world : World) (songsInDb : List (List Char))
    (place : Place) : Prop :=
  ∀ item ∈ place.items world.server,
    classifyLocalUriGone musicDirectory item.uri songsInDb world.registry →
      world.Gone musicDirectory item.uri

/-- The items that will be called gone have keys of gone entries. -/
def World.Keeps (musicDirectory : UnixPath) (world : World) (songsInDb : List (List Char))
    (place : Place) (items : List Entry) : Prop :=
  ∀ item ∈ items, classifyLocalUriGone musicDirectory item.uri songsInDb world.registry →
    world.GoneAt musicDirectory place item.key

/-- What the pass has at hand would delete only gone entries. -/
def Point.Marks (curator : Curator) (world : World) (songsInDb : List (List Char)) : Point → Prop
  | .classify shelf items gone =>
    world.Keeps curator.musicDirectory songsInDb (curator.place shelf) items ∧
      ∀ key ∈ gone, world.GoneAt curator.musicDirectory (curator.place shelf) key
  | .attributed shelf item sourceId items gone =>
    (sourceIsReachable world.registry sourceId →
      world.GoneAt curator.musicDirectory (curator.place shelf) item.key) ∧
    world.Keeps curator.musicDirectory songsInDb (curator.place shelf) items ∧
      ∀ key ∈ gone, world.GoneAt curator.musicDirectory (curator.place shelf) key
  | .delete shelf gone _ =>
    ∀ key ∈ gone, world.GoneAt curator.musicDirectory (curator.place shelf) key
  | .list _ | .listplaylists | .publish => True

def Pass.Sound (curator : Curator) (world : World) : Pass → Prop
  | .loadSongDbPaths => True
  | .running songsInDb _ point =>
    point.Marks curator world songsInDb ∧
      ∀ place ∈ point.ahead curator world.server,
        world.Trusts curator.musicDirectory songsInDb place

namespace Prunes

/-- A step of another connection leaves the pass sound. -/
def Undisturbed (curator : Curator) (s : Prunes) : Act → Prop
  | .command server => ∀ pass ∈ s.pass, pass.Sound curator { s.world with server }
  | .update library => ∀ pass ∈ s.pass,
      pass.Sound curator { s.world with server := { s.world.server with library } }
  | .sources registry => ∀ pass ∈ s.pass, pass.Sound curator { s.world with registry }
  | .trigger | .advance => True

instance (musicDirectory : UnixPath) (world : World) (place : Place) (key : Nat) :
    Decidable (world.GoneAt musicDirectory place key) :=
  inferInstanceAs (Decidable (∀ item ∈ place.items world.server, item.key = key → _))

instance (musicDirectory : UnixPath) (world : World) (songsInDb : List (List Char)) (place : Place) :
    Decidable (world.Trusts musicDirectory songsInDb place) :=
  inferInstanceAs (Decidable (∀ item ∈ place.items world.server, _ → _))

instance (musicDirectory : UnixPath) (world : World) (songsInDb : List (List Char)) (place : Place)
    (items : List Entry) : Decidable (world.Keeps musicDirectory songsInDb place items) :=
  inferInstanceAs (Decidable (∀ item ∈ items, _ → _))

instance (curator : Curator) (world : World) (songsInDb : List (List Char)) :
    DecidablePred (Point.Marks curator world songsInDb)
  | .classify _ _ _ => inferInstanceAs (Decidable (_ ∧ ∀ key ∈ _, _))
  | .attributed _ _ _ _ _ => inferInstanceAs (Decidable ((_ → _) ∧ _ ∧ ∀ key ∈ _, _))
  | .delete _ gone _ => inferInstanceAs (Decidable (∀ key ∈ gone, _))
  | .list _ | .listplaylists | .publish => .isTrue trivial

instance (curator : Curator) (world : World) : DecidablePred (Pass.Sound curator world)
  | .loadSongDbPaths => .isTrue trivial
  | .running _ _ _ => inferInstanceAs (Decidable (_ ∧ ∀ place ∈ _, _))

instance (curator : Curator) (s : Prunes) : DecidablePred (Undisturbed curator s)
  | .command _ | .update _ | .sources _ => inferInstanceAs (Decidable (∀ pass ∈ s.pass, _))
  | .trigger | .advance => .isTrue trivial

-- ---------------------------------------------------------------------------
-- What a step of the pass keeps
-- ---------------------------------------------------------------------------

/-- What is listed now stands under the keys it is listed with. -/
theorem keeps_items {world : World} (h : world.Trusts musicDirectory songsInDb place) :
    world.Keeps musicDirectory songsInDb place (place.items world.server) := by
  intro item hitem hclassified other hother hkey
  have hsame : other = item :=
    List.inj_on_of_nodup_map (Place.keys_nodup world.server place) hother hitem hkey
  exact hsame ▸ h item hitem hclassified

/-- Deleting one entry leaves the keys of the others gone. -/
theorem goneAt_deleted {world : World} (h : Place.Deleted place key world.server server)
    (hkeys : place.Descending (key :: gone))
    (hgone : ∀ k ∈ gone, world.GoneAt musicDirectory place k) :
    ∀ k ∈ gone, World.GoneAt musicDirectory { world with server } place k := by
  intro k hk item hitem hkey
  obtain ⟨old, hold, huri, hsame⟩ := h.left place hitem
  obtain rfl := (hsame rfl).2 gone hkeys (.inr (hkey ▸ hk))
  exact (gone_congr h.library).mpr (hgone k hk old hold hkey)

theorem trusts_deleted {world : World} (h : Place.Deleted place key world.server server)
    (htrusts : world.Trusts musicDirectory songsInDb other) :
    World.Trusts musicDirectory { world with server } songsInDb other := by
  intro item hitem hclassified
  obtain ⟨old, hold, huri, -⟩ := h.left other hitem
  rw [← huri] at hclassified ⊢
  exact (gone_congr h.library).mpr (htrusts old hold hclassified)

theorem Advanced.sound {pass : Pass} (h : Advanced curator s pass s')
    (hdistinct : pass.Distinct curator) (hsound : pass.Sound curator s.world) :
    ∀ pass' ∈ s'.pass, pass'.Sound curator s'.world := by
  intro pass' hpass'
  cases h with
  | load =>
    cases hpass'
    exact ⟨trivial, fun place _ item _ => gone_iff.mpr⟩
  | missing =>
    cases hpass'
    refine ⟨Point.next_empty _ (fun _ => trivial) trivial trivial, fun place hplace => ?_⟩
    rw [Point.ahead_next] at hplace
    exact hsound.2 place (List.mem_cons_of_mem _ hplace)
  | pruned =>
    cases hpass'
    refine ⟨Point.next_empty _ (fun _ => trivial) trivial trivial, fun place hplace => ?_⟩
    rw [Point.ahead_next] at hplace
    exact hsound.2 place hplace
  | listed =>
    cases hpass'
    refine ⟨⟨keeps_items (hsound.2 _ (List.mem_cons_self ..)), by simp⟩, fun place hplace => ?_⟩
    exact hsound.2 place (List.mem_cons_of_mem _ hplace)
  | ordered =>
    cases hpass'
    exact ⟨fun key hkey => hsound.1.2 key (Place.mem_order.mp hkey), hsound.2⟩
  | kept =>
    cases hpass'
    exact ⟨⟨fun item hitem => hsound.1.1 item (List.mem_cons_of_mem _ hitem), hsound.1.2⟩, hsound.2⟩
  | attributed h =>
    cases hpass'
    obtain ⟨⟨hitems, hgone⟩, htrusts⟩ := hsound
    refine ⟨⟨fun hreachable => ?_, fun item hitem => hitems item (List.mem_cons_of_mem _ hitem),
      hgone⟩, htrusts⟩
    exact hitems _ (List.mem_cons_self ..) (classifyLocalUriGone_iff.mpr ⟨_, h, hreachable⟩)
  | marked h =>
    cases hpass'
    obtain ⟨⟨hitem, hitems, hgone⟩, htrusts⟩ := hsound
    refine ⟨⟨hitems, fun key hkey => ?_⟩, htrusts⟩
    rcases List.mem_append.mp hkey with hkey | hkey
    · exact hgone key hkey
    · exact List.mem_singleton.mp hkey ▸ hitem h
  | unreachable h =>
    cases hpass'
    exact ⟨hsound.1.2, hsound.2⟩
  | refused h =>
    cases hpass'
    exact ⟨fun key hkey => hsound.1 key (List.mem_cons_of_mem _ hkey), hsound.2⟩
  | deleted h =>
    cases hpass'
    refine ⟨goneAt_deleted h hdistinct fun key hkey => hsound.1 key (List.mem_cons_of_mem _ hkey),
      fun place hplace => trusts_deleted h (hsound.2 place ?_)⟩
    rw [Point.ahead, Curator.after_deleted h] at hplace
    exact hplace
  | named =>
    cases hpass'
    refine ⟨Point.nextStored_empty _ (fun _ => trivial) trivial, fun place hplace => ?_⟩
    rw [Point.ahead_nextStored] at hplace
    exact hsound.2 place hplace
  | returned => cases hpass'

/-- What a sound pass deletes is gone. -/
theorem Advanced.deleted_gone {pass : Pass} (h : Advanced curator s pass s')
    (hsound : pass.Sound curator s.world) (hdeletion : deletion ∈ s'.deleted) :
    deletion ∈ s.deleted ∨ deletion.world.Gone curator.musicDirectory deletion.uri := by
  cases h with
  | deleted h =>
    rcases List.mem_append.mp hdeletion with hold | hnew
    · exact .inl hold
    · obtain ⟨item, hitem, rfl⟩ := List.mem_map.mp hnew
      obtain ⟨hmem, hkey⟩ := List.mem_filter.mp hitem
      exact .inr (hsound.1 _ (List.mem_cons_self ..) item hmem (by simpa using hkey))
  | _ => exact .inl hdeletion

-- ---------------------------------------------------------------------------
-- Whole runs
-- ---------------------------------------------------------------------------

structure Safe (curator : Curator) (s : Prunes) : Prop where
  distinct : ∀ pass ∈ s.pass, pass.Distinct curator
  sound : ∀ pass ∈ s.pass, pass.Sound curator s.world
  gone : ∀ deletion ∈ s.deleted, deletion.world.Gone curator.musicDirectory deletion.uri

theorem Safe.step (hs : Safe curator s) (hok : Undisturbed curator s act)
    (hstep : step curator s act = some s') : Safe curator s' := by
  cases act with
  | trigger =>
    obtain ⟨pass, -, rfl⟩ | ⟨-, rfl⟩ := step_trigger hstep
    · exact ⟨hs.distinct, hs.sound, hs.gone⟩
    · refine ⟨?_, ?_, hs.gone⟩ <;> rintro pass ⟨⟩ <;> trivial
  | advance =>
    obtain ⟨pass, hpass, hadvanced⟩ := step_advance hstep
    have hsound := hs.sound pass hpass
    refine ⟨hadvanced.distinct (hs.distinct pass hpass),
      hadvanced.sound (hs.distinct pass hpass) hsound, fun deletion hdeletion => ?_⟩
    exact (hadvanced.deleted_gone hsound hdeletion).elim (hs.gone deletion) id
  | command server | update library | sources registry =>
    obtain rfl := Option.some.inj hstep
    exact ⟨hs.distinct, hok, hs.gone⟩

/-- Every entry a pass deletes is gone when it is deleted, in every run in which
the other connections leave the pass sound. -/
theorem deleted_entries_gone (curator : Curator) (world : World) (acts : List Act)
    (hm : Machine.Meets (step curator) (Undisturbed curator) (start world) acts)
    (he : Machine.exec (step curator) (start world) acts = some s) :
    ∀ deletion ∈ s.deleted, deletion.world.Gone curator.musicDirectory deletion.uri := by
  have hstart : Safe curator (start world) := ⟨by simp [start], by simp [start], by simp [start]⟩
  exact (Machine.exec_invariant Safe.step hstart hm he).gone

-- ---------------------------------------------------------------------------
-- A disturbed pass
-- ---------------------------------------------------------------------------

theorem goneAt_before {world : World} (h : Place.Deleted place key world.server server)
    (hkeys : place.Descending (key :: gone)) (hdeleted : world.GoneAt musicDirectory place key)
    (hmarks : ∀ k ∈ gone, World.GoneAt musicDirectory { world with server } place k) :
    ∀ k ∈ key :: gone, world.GoneAt musicDirectory place k := by
  intro k hk item hitem hkey
  by_cases hsame : item.key = key
  · exact hdeleted item hitem hsame
  · have hlater := (List.mem_cons.mp hk).resolve_left fun heq => hsame (hkey.trans heq)
    obtain ⟨left, hleft, -, hkept⟩ := h.kept place hitem fun _ => hsame
    obtain rfl := hkept rfl gone hkeys (hkey ▸ hlater)
    exact (gone_congr h.library).mp (hmarks k hlater left hleft hkey)

theorem trusts_before {world : World} (h : Place.Deleted place key world.server server)
    (hdeleted : world.GoneAt musicDirectory place key)
    (htrusts : World.Trusts musicDirectory { world with server } songsInDb other) :
    world.Trusts musicDirectory songsInDb other := by
  intro item hitem hclassified
  by_cases hsame : other = place ∧ item.key = key
  · obtain ⟨rfl, hkey⟩ := hsame
    exact hdeleted item hitem hkey
  · obtain ⟨left, hleft, huri, -⟩ := h.kept other hitem fun hhere hkey => hsame ⟨hhere, hkey⟩
    rw [← huri] at hclassified ⊢
    exact (gone_congr h.library).mp (htrusts left hleft hclassified)

/-- What a pass deletes next is gone only if the pass was sound, when it is
sound after the step. -/
theorem Advanced.sound_before {pass : Pass} (h : Advanced curator s pass s')
    (hgone : ∀ deletion ∈ s'.deleted, deletion.world.Gone curator.musicDirectory deletion.uri)
    (hdistinct : pass.Distinct curator)
    (hsound : ∀ pass' ∈ s'.pass, pass'.Sound curator s'.world) : pass.Sound curator s.world := by
  cases h with
  | load => trivial
  | missing h =>
    refine ⟨trivial, fun place hplace => ?_⟩
    rcases List.mem_cons.mp hplace with rfl | hplace
    · intro item hitem
      rw [h] at hitem
      cases hitem
    · refine (hsound _ rfl).2 place ?_
      rw [Point.ahead_next]
      exact hplace
  | listed =>
    obtain ⟨⟨hkeeps, -⟩, htrusts⟩ := hsound _ rfl
    refine ⟨trivial, fun place hplace => ?_⟩
    rcases List.mem_cons.mp hplace with rfl | hplace
    · exact fun item hitem hclassified => hkeeps item hitem hclassified item hitem rfl
    · exact htrusts place hplace
  | ordered =>
    obtain ⟨hmarks, htrusts⟩ := hsound _ rfl
    exact ⟨⟨by simp [World.Keeps], fun key hkey => hmarks key (Place.mem_order.mpr hkey)⟩, htrusts⟩
  | kept h =>
    obtain ⟨⟨hkeeps, hmarks⟩, htrusts⟩ := hsound _ rfl
    refine ⟨⟨fun item hitem hclassified => ?_, hmarks⟩, htrusts⟩
    rcases List.mem_cons.mp hitem with rfl | hitem
    · obtain ⟨sourceId, hsource, -⟩ := classifyLocalUriGone_iff.mp hclassified
      cases h.symm.trans hsource
    · exact hkeeps item hitem hclassified
  | attributed h =>
    obtain ⟨⟨hitem, hkeeps, hmarks⟩, htrusts⟩ := hsound _ rfl
    refine ⟨⟨fun other hother hclassified => ?_, hmarks⟩, htrusts⟩
    rcases List.mem_cons.mp hother with rfl | hother
    · obtain ⟨sourceId, hsource, hreachable⟩ := classifyLocalUriGone_iff.mp hclassified
      cases h.symm.trans hsource
      exact hitem hreachable
    · exact hkeeps other hother hclassified
  | marked h =>
    obtain ⟨⟨hkeeps, hmarks⟩, htrusts⟩ := hsound _ rfl
    exact ⟨⟨fun _ => hmarks _ (List.mem_append_right _ (List.mem_singleton_self _)), hkeeps,
      fun key hkey => hmarks key (List.mem_append_left _ hkey)⟩, htrusts⟩
  | unreachable h =>
    obtain ⟨⟨hkeeps, hmarks⟩, htrusts⟩ := hsound _ rfl
    exact ⟨⟨fun hreachable => absurd hreachable h, hkeeps, hmarks⟩, htrusts⟩
  | pruned =>
    refine ⟨by simp [Point.Marks], fun place hplace => (hsound _ rfl).2 place ?_⟩
    rw [Point.ahead_next]
    exact hplace
  | refused h =>
    obtain ⟨hmarks, htrusts⟩ := hsound _ rfl
    refine ⟨fun key hkey => ?_, htrusts⟩
    rcases List.mem_cons.mp hkey with rfl | hkey
    · exact fun item hitem hkey => absurd hkey (h item hitem)
    · exact hmarks key hkey
  | @deleted shelf key _ _ _ _ _ h =>
    obtain ⟨hmarks, htrusts⟩ := hsound _ rfl
    have hdeleted : s.world.GoneAt curator.musicDirectory (curator.place shelf) key := by
      intro item hitem hkey
      refine hgone ⟨item.uri, s.world⟩ (List.mem_append_right _ (List.mem_map.mpr ?_))
      exact ⟨item, List.mem_filter.mpr ⟨hitem, beq_iff_eq.mpr hkey⟩, rfl⟩
    refine ⟨goneAt_before h hdistinct hdeleted hmarks, fun place hplace => ?_⟩
    refine trusts_before h hdeleted (htrusts place ?_)
    rw [Point.ahead, Curator.after_deleted h]
    exact hplace
  | named =>
    refine ⟨trivial, fun place hplace => (hsound _ rfl).2 place ?_⟩
    rw [Point.ahead_nextStored]
    exact hplace
  | returned => exact ⟨trivial, fun place hplace => (nomatch hplace)⟩

/-- A bound on the steps a pass takes on a place. -/
def cost (server : Server) (place : Place) : Nat := 3 * (place.items server).length + 4

/-- The steps left on the place the pass is at. -/
def atHand : Point → Nat
  | .list _ | .publish => 0
  | .classify _ items gone => 3 * items.length + gone.length + 3
  | .attributed _ _ _ items gone => 3 * items.length + gone.length + 5
  | .delete _ gone _ => gone.length + 2
  | .listplaylists => 1

def rank (curator : Curator) (server : Server) (point : Point) : Nat :=
  atHand point + ((point.ahead curator server).map (cost server)).sum

theorem rank_nextStored (curator : Curator) (server : Server) (names : List (List Char)) :
    rank curator server (.nextStored names) = ((names.map .playlist).map (cost server)).sum := by
  have hhand : atHand (.nextStored names) = 0 :=
    Point.nextStored_empty names (fun _ => rfl) rfl
  rw [rank, hhand, Nat.zero_add, Point.ahead_nextStored]

theorem rank_next (curator : Curator) (server : Server) (shelf : Shelf) :
    rank curator server (.next shelf) ≤
      1 + ((curator.after server shelf).map (cost server)).sum := by
  have hhand : atHand (.next shelf) ≤ 1 :=
    Point.next_empty shelf (fun _ => Nat.zero_le 1) (Nat.le_refl 1) (Nat.zero_le 1)
  rw [rank, Point.ahead_next]
  exact Nat.add_le_add_right hhand _

theorem sum_cost_deleted (h : Place.Deleted place key server server') (places : List Place) :
    (places.map (cost server')).sum ≤ (places.map (cost server)).sum := by
  induction places with
  | nil => exact Nat.le_refl _
  | cons other places ih =>
    have hlength := h.length_le other
    simp only [List.map_cons, List.sum_cons, cost]
    omega

/-- Left alone, a pass comes to its end. -/
theorem Advanced.rank_lt {songsInDb : List (List Char)} {stats : PruneStats} {point : Point}
    (h : Advanced curator s (.running songsInDb stats point) s')
    (hpass : s'.pass = some (.running songsInDb' stats' point')) :
    rank curator s'.world.server point' < rank curator s.world.server point := by
  cases h with
  | missing | pruned =>
    cases hpass
    refine Nat.lt_of_le_of_lt (rank_next ..) ?_
    simp only [rank, atHand, Point.ahead, List.map_cons, List.sum_cons, cost, advanceTo_world]
    omega
  | listed | ordered | kept | attributed | marked | unreachable | refused =>
    cases hpass
    simp only [rank, atHand, Point.ahead, advanceTo_world, List.map_cons, List.sum_cons, cost,
      Place.length_order, List.length_append, List.length_cons, List.length_nil]
    omega
  | @deleted shelf _ _ _ _ _ _ h =>
    cases hpass
    have hsum := sum_cost_deleted h (curator.after s.world.server shelf)
    simp only [rank, atHand, Point.ahead, Curator.after_deleted h, List.length_cons]
    omega
  | named =>
    cases hpass
    rw [rank_nextStored]
    simp only [rank, atHand, Point.ahead, advanceTo_world]
    omega
  | returned => cases hpass

theorem exec_alone {pass : Pass} (hpass : s.pass = some pass) (n : Nat) :
    Machine.exec (step curator) s (List.replicate (n + 1) .advance) =
      Machine.exec (step curator) (s.advance curator pass) (List.replicate n .advance) := by
  simp only [List.replicate_succ, Machine.exec, step, hpass, Option.map_some]

theorem safe_alone (hs : Safe curator s)
    (he : Machine.exec (step curator) s (List.replicate n .advance) = some s') :
    Safe curator s' := by
  induction n generalizing s with
  | zero =>
    cases he
    exact hs
  | succ n ih =>
    obtain ⟨t, ht, hrest⟩ := Machine.exec_cons.mp he
    exact ih (Safe.step hs (show Undisturbed curator s .advance from trivial) ht) hrest

theorem sound_of_left_alone {pass : Pass} (hpass : s.pass = some pass)
    (hdistinct : pass.Distinct curator)
    (halone : ∀ n s', Machine.exec (step curator) s (List.replicate n .advance) = some s' →
      ∀ deletion ∈ s'.deleted, deletion.world.Gone curator.musicDirectory deletion.uri) :
    pass.Sound curator s.world := by
  cases pass with
  | loadSongDbPaths => trivial
  | running songsInDb stats point =>
    -- The induction is on the steps the pass has left.
    generalize hrank : rank curator s.world.server point = r
    induction r using Nat.strong_induction_on generalizing s songsInDb stats point with
    | h r ih =>
      have hadvanced := advanced curator s (.running songsInDb stats point)
      have hrest (n : Nat) (s' : Prunes) (he : Machine.exec (step curator)
          (s.advance curator (.running songsInDb stats point)) (List.replicate n .advance) =
            some s') := halone (n + 1) s' (by rwa [exec_alone hpass])
      refine hadvanced.sound_before (hrest 0 _ rfl) hdistinct fun pass' hpass' => ?_
      cases pass' with
      | loadSongDbPaths => trivial
      | running songsInDb' stats' point' =>
        exact ih _ (hrank ▸ hadvanced.rank_lt hpass') hrest songsInDb' stats' point' hpass'
          (hadvanced.distinct hdistinct _ hpass') rfl

/-- A pass is sound exactly when it deletes nothing but gone entries if the
other connections leave it alone from now on. -/
theorem sound_iff_left_alone {pass : Pass} (hpass : s.pass = some pass)
    (hdistinct : pass.Distinct curator)
    (hgone : ∀ deletion ∈ s.deleted, deletion.world.Gone curator.musicDirectory deletion.uri) :
    pass.Sound curator s.world ↔
      ∀ n s', Machine.exec (step curator) s (List.replicate n .advance) = some s' →
        ∀ deletion ∈ s'.deleted, deletion.world.Gone curator.musicDirectory deletion.uri := by
  refine ⟨fun hsound n s' he => ?_, sound_of_left_alone hpass hdistinct⟩
  have hsafe : Safe curator s := by
    refine ⟨fun other hother => ?_, fun other hother => ?_, hgone⟩
    · cases hpass.symm.trans hother
      exact hdistinct
    · cases hpass.symm.trans hother
      exact hsound
  exact (safe_alone hsafe he).gone

/-- One of the favourites was deleted from the music directory. -/
def ghostFavourites : World := .twoFavourites .kept

/-- The pass up to its first deletion from the favourites. -/
def upToDeletion : List Act := .trigger :: List.replicate 9 .advance

/-- While the pass is at the favourites a song is queued and another one is
found by a scan. -/
def withScan : List Act :=
  upToDeletion ++ [
    .command { ghostFavourites.server with queue := Queue.empty.append ["kept.flac".toList] },
    .update (.files ["kept.flac".toList, "found.flac".toList] (by decide) (by decide) (by decide)),
    .advance]

theorem ghost_favourite_deleted :
    ∃ s, Machine.exec (step .internal) (start ghostFavourites) withScan = some s ∧
      s.deleted.map Deletion.uri = ["ghost.flac".toList] ∧
      ∀ deletion ∈ s.deleted, deletion.world.Gone Curator.internal.musicDirectory deletion.uri := by
  obtain ⟨s, hs, huris⟩ := Machine.exec_of_any (step .internal) (start ghostFavourites) withScan
    (fun s => s.deleted.map Deletion.uri = ["ghost.flac".toList]) (by decide)
  exact ⟨s, hs, of_decide_eq_true huris, deleted_entries_gone .internal _ _ (by decide) hs⟩

/-- The listener removes the ghost by hand. -/
def ghostRemoved : Server :=
  { ghostFavourites.server with
    playlists := [("__favourites__".toList, ["kept.flac".toList])]
    entries := by decide }

/-- The ghost goes between the listing and the deletion, and the pass deletes
the favourite that moved up. -/
theorem favourite_in_database_deleted :
    ghostFavourites.server.playlistdelete "__favourites__".toList 0 = .ok ((), ghostRemoved) ∧
      ∃ s, Machine.exec (step .internal) (start ghostFavourites)
          (upToDeletion ++ [.command ghostRemoved, .advance]) = some s ∧
        ∃ deletion ∈ s.deleted,
          ¬deletion.world.Gone Curator.internal.musicDirectory deletion.uri := by
  refine ⟨rfl, ?_⟩
  obtain ⟨s, hs, hany⟩ := Machine.exec_of_any (step .internal) (start ghostFavourites)
    (upToDeletion ++ [.command ghostRemoved, .advance])
    (fun s => s.deleted.any fun deletion =>
      ¬deletion.world.Gone Curator.internal.musicDirectory deletion.uri) (by decide)
  obtain ⟨deletion, hmem, hkept⟩ := List.any_eq_true.mp hany
  exact ⟨s, hs, deletion, hmem, of_decide_eq_true hkept⟩

end Prunes

end EvoAudio.Playback
