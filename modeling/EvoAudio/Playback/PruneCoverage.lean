import EvoAudio.Playback.GoneCuration

/-!
# What a prune pass leaves behind

Every update of MPD's database calls a pass, and a call that finds the gate taken
is skipped. `Covers` says that all entries the song set of a pass calls gone are
ahead of the pass or at hand, so a pass that returns has deleted them. An update
escapes only when its call is skipped for a pass with a song set from before.
-/

namespace EvoAudio.Playback

/-- No list has a gone entry. -/
def World.Pruned (musicDirectory : UnixPath) (world : World) : Prop :=
  ∀ place ∈ world.server.places, ∀ item ∈ place.items world.server,
    ¬world.Gone musicDirectory item.uri

instance (musicDirectory : UnixPath) (world : World) : Decidable (world.Pruned musicDirectory) :=
  inferInstanceAs (Decidable (∀ place ∈ world.server.places, ∀ item ∈ place.items world.server, _))

/-- The pass works from a song set that still has an entry gone by now. -/
def Pass.Stale (curator : Curator) (world : World) : Pass → Prop
  | .loadSongDbPaths => False
  | .running songsInDb _ _ =>
    ∃ place ∈ world.server.places, ∃ item ∈ place.items world.server,
      world.Gone curator.musicDirectory item.uri ∧ item.uri ∈ songsInDb

/-- The pass has the entry among those to classify or to delete. -/
def Point.Holds (curator : Curator) (place : Place) (item : Entry) : Point → Prop
  | .classify shelf items gone => place = curator.place shelf ∧ (item ∈ items ∨ item.key ∈ gone)
  | .attributed shelf next _ items gone =>
    place = curator.place shelf ∧ (item = next ∨ item ∈ items ∨ item.key ∈ gone)
  | .delete shelf gone _ => place = curator.place shelf ∧ item.key ∈ gone
  | .list _ | .listplaylists | .publish => False

/-- The source at hand is the one of the entry at hand. -/
def Point.Attributes (curator : Curator) (world : World) (songsInDb : List (List Char)) :
    Point → Prop
  | .attributed _ item sourceId _ _ =>
    attributeMissing curator.musicDirectory item.uri songsInDb world.registry = some sourceId
  | _ => True

structure Point.Covers (curator : Curator) (world : World) (songsInDb : List (List Char))
    (point : Point) : Prop where
  attributes : point.Attributes curator world songsInDb
  reached : ∀ place ∈ world.server.places, ∀ item ∈ place.items world.server,
    classifyLocalUriGone curator.musicDirectory item.uri songsInDb world.registry →
      place ∈ point.ahead curator world.server ∨ point.Holds curator place item

def Pass.Covers (curator : Curator) (world : World) : Pass → Prop
  | .loadSongDbPaths => True
  | .running songsInDb _ point => point.Covers curator world songsInDb

/-- A step on one list that holds on to what is classified. -/
theorem Point.Covers.within {world : World} {point point' : Point}
    (h : point.Covers curator world songsInDb)
    (hattributes : point'.Attributes curator world songsInDb)
    (hahead : point'.ahead curator world.server = point.ahead curator world.server)
    (hholds : ∀ place, ∀ item ∈ place.items world.server,
      classifyLocalUriGone curator.musicDirectory item.uri songsInDb world.registry →
        point.Holds curator place item → point'.Holds curator place item) :
    point'.Covers curator world songsInDb := by
  refine ⟨hattributes, fun place hplace item hitem hclassified => ?_⟩
  rw [hahead]
  exact (h.reached place hplace item hitem hclassified).imp_right
    (hholds place item hitem hclassified)

/-- A step from one list to the next. -/
theorem Point.Covers.past {world : World} {point point' : Point}
    (h : point.Covers curator world songsInDb)
    (hattributes : point'.Attributes curator world songsInDb)
    (hahead : ∀ place ∈ point.ahead curator world.server,
      place ∈ point'.ahead curator world.server ∨ place.items world.server = [])
    (hholds : ∀ place item, ¬point.Holds curator place item) :
    point'.Covers curator world songsInDb := by
  refine ⟨hattributes, fun place hplace item hitem hclassified => .inl ?_⟩
  rcases h.reached place hplace item hitem hclassified with hplace | hheld
  · refine (hahead place hplace).resolve_right fun hempty => ?_
    rw [hempty] at hitem
    cases hitem
  · exact absurd hheld (hholds place item)

namespace Prunes

/-- The database is updated, or a pass is called or goes on. -/
inductive Event where
  | update (library : Library)
  | trigger
  | advance

def Event.act : Event → Act
  | .update library => .update library
  | .trigger => .trigger
  | .advance => .advance

instance (curator : Curator) (world : World) : DecidablePred (Pass.Stale curator world)
  | .loadSongDbPaths => .isFalse id
  | .running songsInDb _ _ => inferInstanceAs (Decidable (∃ place ∈ world.server.places,
      ∃ item ∈ place.items world.server, _ ∧ item.uri ∈ songsInDb))

-- ---------------------------------------------------------------------------
-- What a step of the pass keeps
-- ---------------------------------------------------------------------------

/-- A pass starts with all lists ahead. -/
theorem places_ahead (h : place ∈ server.places) :
    place ∈ (Point.list .queue).ahead curator server := by
  rcases List.mem_cons.mp h with rfl | hlist
  · exact List.mem_cons_self ..
  · obtain ⟨name, hname, rfl⟩ := List.mem_map.mp hlist
    refine List.mem_cons_of_mem _ ?_
    by_cases hfavourites : name = curator.favouritesName
    · exact hfavourites ▸ List.mem_cons_self ..
    · refine List.mem_cons_of_mem _ (List.mem_map_of_mem (List.mem_filter.mpr ⟨hname, ?_⟩))
      simpa using hfavourites

theorem places_deleted (h : Place.Deleted place key server server') :
    server'.places = server.places := by
  rw [Server.places, h.playlists, Server.places]

theorem not_classified (h : attributeMissing musicDirectory uri songsInDb registry = none) :
    ¬classifyLocalUriGone musicDirectory uri songsInDb registry := by
  rw [classifyLocalUriGone, h]
  exact Bool.false_ne_true

theorem Advanced.covers {pass : Pass} (h : Advanced curator s pass s')
    (hdistinct : pass.Distinct curator) (hcovers : pass.Covers curator s.world) :
    ∀ pass' ∈ s'.pass, pass'.Covers curator s'.world := by
  intro pass' hpass'
  cases h with
  | load =>
    cases hpass'
    exact ⟨trivial, fun place hplace _ _ _ => .inl (places_ahead hplace)⟩
  | missing h =>
    cases hpass'
    refine hcovers.past (Point.next_empty _ (fun _ => trivial) trivial trivial) ?_ fun _ _ => id
    intro place hplace
    rw [Point.ahead_next]
    rcases List.mem_cons.mp hplace with rfl | hplace
    · exact .inr h
    · exact .inl hplace
  | listed =>
    cases hpass'
    refine ⟨trivial, fun place hplace item hitem hclassified => ?_⟩
    rcases hcovers.reached place hplace item hitem hclassified with hahead | hheld
    · rcases List.mem_cons.mp hahead with rfl | hahead
      · exact .inr ⟨rfl, .inl hitem⟩
      · exact .inl hahead
    · cases hheld
  | ordered =>
    cases hpass'
    refine hcovers.within trivial rfl fun place item hitem hclassified => ?_
    rintro ⟨hhere, hmem | hkey⟩
    · cases hmem
    · exact ⟨hhere, Place.mem_order.mpr hkey⟩
  | kept h =>
    cases hpass'
    refine hcovers.within trivial rfl fun place item hitem hclassified => ?_
    rintro ⟨hhere, hmem | hkey⟩
    · rcases List.mem_cons.mp hmem with rfl | hmem
      · exact absurd hclassified (not_classified h)
      · exact ⟨hhere, .inl hmem⟩
    · exact ⟨hhere, .inr hkey⟩
  | attributed h =>
    cases hpass'
    refine hcovers.within h rfl fun place item hitem hclassified => ?_
    rintro ⟨hhere, hmem | hkey⟩
    · exact ⟨hhere, (List.mem_cons.mp hmem).imp_right .inl⟩
    · exact ⟨hhere, .inr (.inr hkey)⟩
  | marked h =>
    cases hpass'
    refine hcovers.within trivial rfl fun place item hitem hclassified => ?_
    rintro ⟨hhere, rfl | hmem | hkey⟩
    · exact ⟨hhere, .inr (List.mem_append_right _ (List.mem_singleton_self _))⟩
    · exact ⟨hhere, .inl hmem⟩
    · exact ⟨hhere, .inr (List.mem_append_left _ hkey)⟩
  | unreachable h =>
    cases hpass'
    refine hcovers.within trivial rfl fun place item hitem hclassified => ?_
    rintro ⟨hhere, rfl | hheld⟩
    · obtain ⟨sourceId, hsource, hreachable⟩ := classifyLocalUriGone_iff.mp hclassified
      cases hcovers.attributes.symm.trans hsource
      exact absurd hreachable h
    · exact ⟨hhere, hheld⟩
  | pruned =>
    cases hpass'
    refine hcovers.past (Point.next_empty _ (fun _ => trivial) trivial trivial) ?_ ?_
    · intro place hplace
      rw [Point.ahead_next]
      exact .inl hplace
    · rintro place item ⟨-, hkey⟩
      cases hkey
  | refused h =>
    cases hpass'
    refine hcovers.within trivial rfl fun place item hitem hclassified => ?_
    rintro ⟨rfl, hkey⟩
    exact ⟨rfl, (List.mem_cons.mp hkey).resolve_left (h item hitem)⟩
  | deleted h =>
    cases hpass'
    refine ⟨trivial, fun place hplace item hitem hclassified => ?_⟩
    obtain ⟨old, hold, huri, hhere⟩ := h.left place hitem
    rw [places_deleted h] at hplace
    rw [← huri] at hclassified
    rw [Point.ahead, Curator.after_deleted h]
    refine (hcovers.reached place hplace old hold hclassified).imp_right ?_
    rintro ⟨rfl, hkey⟩
    -- The deleted key is not the one of an entry that is left.
    have hlater := (List.mem_cons.mp hkey).resolve_left (hhere rfl).1
    obtain rfl := (hhere rfl).2 _ hdistinct (.inl hlater)
    exact ⟨rfl, hlater⟩
  | named =>
    cases hpass'
    refine hcovers.past (Point.nextStored_empty _ (fun _ => trivial) trivial) ?_ fun _ _ => id
    intro place hplace
    rw [Point.ahead_nextStored]
    exact .inl hplace
  | returned => cases hpass'

-- ---------------------------------------------------------------------------
-- Passes that leave nothing behind
-- ---------------------------------------------------------------------------

/-- What is gone is deleted already, or the pass under the gate will find it. -/
def Settled (curator : Curator) (s : Prunes) : Prop :=
  s.world.Pruned curator.musicDirectory ∨
    ∃ pass, s.pass = some pass ∧ ¬pass.Stale curator s.world

theorem Advanced.library {pass : Pass} (h : Advanced curator s pass s') :
    s'.world.server.library = s.world.server.library := by
  cases h with
  | deleted h => exact h.library
  | _ => rfl

/-- The entries after a deletion are entries of before, as gone as they were. -/
theorem gone_left {world : World} {item : Entry} {other : Place}
    (h : Place.Deleted place key world.server server) (hitem : item ∈ other.items server)
    (hgone : World.Gone musicDirectory { world with server } item.uri) :
    ∃ old ∈ other.items world.server, old.uri = item.uri ∧ world.Gone musicDirectory old.uri := by
  obtain ⟨old, hold, huri, -⟩ := h.left other hitem
  refine ⟨old, hold, huri, ?_⟩
  rw [huri]
  exact (gone_congr h.library).mp hgone

theorem pruned_deleted {world : World} (h : Place.Deleted place key world.server server)
    (hpruned : world.Pruned musicDirectory) :
    World.Pruned musicDirectory { world with server } := by
  intro other hother item hitem hgone
  obtain ⟨old, hold, -, hgone⟩ := gone_left h hitem hgone
  exact hpruned other (places_deleted h ▸ hother) old hold hgone

theorem stale_deleted {world : World} (h : Place.Deleted place key world.server server)
    (hstale : (Pass.running songsInDb stats point).Stale curator { world with server }) :
    (Pass.running songsInDb stats' point').Stale curator world := by
  obtain ⟨other, hother, item, hitem, hgone, hsong⟩ := hstale
  obtain ⟨old, hold, huri, hgone⟩ := gone_left h hitem hgone
  exact ⟨other, places_deleted h ▸ hother, old, hold, hgone, huri ▸ hsong⟩

/-- A pass that covers what is gone and returns has deleted it. -/
theorem pruned_of_covers {world : World}
    (hcovers : (Pass.running songsInDb stats .publish).Covers curator world)
    (hfresh : ¬(Pass.running songsInDb stats .publish).Stale curator world) :
    world.Pruned curator.musicDirectory := by
  intro place hplace item hitem hgone
  have hmissing : item.uri ∉ songsInDb :=
    fun hsong => hfresh ⟨place, hplace, item, hitem, hgone, hsong⟩
  rcases hcovers.reached place hplace item hitem (classify_of_gone hgone hmissing) with h | h
  · cases h
  · cases h

theorem Advanced.settled {pass : Pass} (h : Advanced curator s pass s') (hpass : s.pass = some pass)
    (hcovers : pass.Covers curator s.world) (hsettled : s.Settled curator) :
    s'.Settled curator := by
  rcases hsettled with hpruned | ⟨running, hrunning, hfresh⟩
  · cases h with
    | deleted h => exact .inl (pruned_deleted h hpruned)
    | _ => exact .inl hpruned
  · cases hpass.symm.trans hrunning
    cases h with
    | load =>
      refine .inr ⟨_, rfl, ?_⟩
      rintro ⟨place, hplace, item, hitem, hgone, hsong⟩
      exact hgone.2.1 hsong
    | deleted h => exact .inr ⟨_, rfl, fun hstale => hfresh (stale_deleted h hstale)⟩
    | returned => exact .inl (pruned_of_covers hcovers hfresh)
    | _ => exact .inr ⟨_, rfl, hfresh⟩

-- ---------------------------------------------------------------------------
-- Whole runs
-- ---------------------------------------------------------------------------

structure Tracked (curator : Curator) (s : Prunes) : Prop where
  distinct : ∀ pass ∈ s.pass, pass.Distinct curator
  covers : ∀ pass ∈ s.pass, pass.Covers curator s.world

theorem items_update (server : Server) (library : Library) (place : Place) :
    place.items { server with library } = place.items server := by
  cases place with
  | queue => rfl
  | playlist name => rw [Place.items_playlist, Place.items_playlist]

theorem covers_update {world : World} {pass : Pass} (h : pass.Covers curator world)
    (library : Library) :
    pass.Covers curator { world with server := { world.server with library } } := by
  cases pass with
  | loadSongDbPaths => trivial
  | running songsInDb stats point =>
    refine ⟨?_, fun place hplace item hitem hclassified => ?_⟩
    · have hattributes := h.attributes
      cases point <;> exact hattributes
    · rw [items_update] at hitem
      have hreached := h.reached place hplace item hitem hclassified
      cases point <;> exact hreached

theorem Tracked.step (hs : Tracked curator s) (event : Event)
    (hstep : step curator s event.act = some s') : Tracked curator s' := by
  cases event with
  | update library =>
    obtain rfl := Option.some.inj hstep
    exact ⟨hs.distinct, fun pass hpass => covers_update (hs.covers pass hpass) library⟩
  | trigger =>
    obtain ⟨pass, -, rfl⟩ | ⟨-, rfl⟩ := step_trigger hstep
    · exact ⟨hs.distinct, hs.covers⟩
    · constructor <;> rintro pass ⟨⟩ <;> trivial
  | advance =>
    obtain ⟨pass, hpass, hadvanced⟩ := step_advance hstep
    have hdistinct := hs.distinct pass hpass
    exact ⟨hadvanced.distinct hdistinct, hadvanced.covers hdistinct (hs.covers pass hpass)⟩

theorem tracked_run {events : List Event}
    (he : Machine.exec (step curator) s (events.map Event.act) = some s')
    (hs : Tracked curator s) : Tracked curator s' := by
  induction events generalizing s with
  | nil =>
    cases he
    exact hs
  | cons event events ih =>
    obtain ⟨t, ht, hrest⟩ := Machine.exec_cons.mp he
    exact ih hrest (hs.step event ht)

/-- Without a further update a settled world stays settled. -/
theorem settled_run {events : List Event} (hs : Tracked curator s) (hsettled : s.Settled curator)
    (hlast : ∀ library, .update library ∉ events)
    (he : Machine.exec (step curator) s (events.map Event.act) = some s') :
    s'.Settled curator := by
  induction events generalizing s with
  | nil =>
    cases he
    exact hsettled
  | cons event events ih =>
    obtain ⟨t, ht, hrest⟩ := Machine.exec_cons.mp he
    have hlast' : ∀ library, .update library ∉ events :=
      fun library h => hlast library (List.mem_cons_of_mem _ h)
    refine ih (hs.step event ht) ?_ hlast' hrest
    cases event with
    | update library => exact absurd (List.mem_cons_self ..) (hlast library)
    | trigger =>
      obtain ⟨pass, hpass, rfl⟩ | ⟨hpass, rfl⟩ := step_trigger ht
      · exact hsettled
      · exact .inr ⟨_, rfl, id⟩
    | advance =>
      obtain ⟨pass, hpass, hadvanced⟩ := step_advance ht
      exact hadvanced.settled hpass (hs.covers pass hpass) hsettled

theorem library_run {events : List Event} (hlast : ∀ library, .update library ∉ events)
    (he : Machine.exec (step curator) s (events.map Event.act) = some s') :
    s'.world.server.library = s.world.server.library := by
  induction events generalizing s with
  | nil =>
    cases he
    rfl
  | cons event events ih =>
    obtain ⟨t, ht, hrest⟩ := Machine.exec_cons.mp he
    refine (ih (fun library h => hlast library (List.mem_cons_of_mem _ h)) hrest).trans ?_
    cases event with
    | update library => exact absurd (List.mem_cons_self ..) (hlast library)
    | trigger => obtain ⟨pass, -, rfl⟩ | ⟨-, rfl⟩ := step_trigger ht <;> rfl
    | advance =>
      obtain ⟨pass, -, hadvanced⟩ := step_advance ht
      exact hadvanced.library

/-- Once the passes called since the last update have returned, nothing is gone
from its database, when one of them was not skipped for a pass that read its
songs too early. -/
theorem no_update_escapes (curator : Curator) (world : World) (before since after : List Event)
    (library : Library) (hlast : ∀ library, .update library ∉ since ++ after)
    (hs : Machine.exec (step curator) (start world)
      ((before ++ .update library :: since).map Event.act) = some s)
    (hfresh : ∀ pass ∈ s.pass, ¬pass.Stale curator s.world)
    (he : Machine.exec (step curator) s ((.trigger :: after).map Event.act) = some s')
    (hreturned : s'.pass = none) :
    s'.world.server.library = library ∧ s'.world.Pruned curator.musicDirectory := by
  have hlasts := fun library => not_or.mp (List.mem_append.not.mp (hlast library))
  have htracked : Tracked curator s := tracked_run hs ⟨by simp [start], by simp [start]⟩
  obtain ⟨t, ht, hrest⟩ := Machine.exec_cons.mp he
  constructor
  · rw [List.map_append] at hs
    obtain ⟨u, -, hupdate⟩ := Machine.exec_append.mp hs
    obtain ⟨v, hv, hsince⟩ := Machine.exec_cons.mp hupdate
    obtain rfl := Option.some.inj hv
    rw [library_run (fun library => by simpa using (hlasts library).2) he]
    exact library_run (fun library => (hlasts library).1) hsince
  · have hsettled : t.Settled curator := by
      obtain ⟨pass, hpass, rfl⟩ | ⟨-, rfl⟩ := step_trigger ht
      · exact .inr ⟨pass, hpass, hfresh pass hpass⟩
      · exact .inr ⟨_, rfl, id⟩
    rcases settled_run (htracked.step .trigger ht) hsettled (fun library => (hlasts library).2) hrest
      with hpruned | ⟨pass, hpass, -⟩
    · exact hpruned
    · cases hreturned.symm.trans hpass

/-- Both favourites are in the database. -/
def keptFavourites : World :=
  .twoFavourites
    (.files ["ghost.flac".toList, "kept.flac".toList] (by decide) (by decide) (by decide))

/-- A pass is called, and the one under the gate takes some steps. -/
def call (steps : Nat) : List Event := .trigger :: List.replicate steps .advance

/-- The call for the update is skipped for a pass that has not read the songs
yet. -/
theorem wiped_favourite_pruned :
    ∃ s s', Machine.exec (step .internal) (start keptFavourites)
        ((call 0 ++ [Event.update .kept]).map Event.act) = some s ∧
      Machine.exec (step .internal) s ((call 13).map Event.act) = some s' ∧ s'.pass = none ∧
      s'.world.server.library = .kept ∧ s'.world.Pruned Curator.internal.musicDirectory := by
  obtain ⟨s', hrun, hreturned⟩ := Machine.exec_of_any (step .internal) (start keptFavourites)
    ((call 0 ++ [Event.update .kept]).map Event.act ++ (call 13).map Event.act)
    (fun s => s.pass = none) (by decide)
  obtain ⟨s, hs, hs'⟩ := Machine.exec_append.mp hrun
  have hfresh : ∀ pass ∈ s.pass, ¬pass.Stale .internal s.world := by
    cases hs
    decide
  have hlast : ∀ library, Event.update library ∉ [] ++ List.replicate 13 .advance := by simp
  exact ⟨s, s', hs, hs', of_decide_eq_true hreturned, no_update_escapes .internal keptFavourites
    (call 0) [] (List.replicate 13 .advance) .kept hlast hs hfresh hs' (of_decide_eq_true hreturned)⟩

/-- The pass in flight read the songs before the update, so the call for the
update is skipped and the favourite stays. -/
theorem wiped_favourite_escapes :
    ∃ s, Machine.exec (step .internal) (start keptFavourites)
        ((call 1 ++ .update Library.kept :: call 10).map Event.act) = some s ∧
      s.pass = none ∧ ¬s.world.Pruned Curator.internal.musicDirectory := by
  obtain ⟨s, hs, hend⟩ := Machine.exec_of_any (step .internal) (start keptFavourites)
    ((call 1 ++ .update Library.kept :: call 10).map Event.act)
    (fun s => s.pass = none ∧ ¬s.world.Pruned Curator.internal.musicDirectory) (by decide)
  exact ⟨s, hs, of_decide_eq_true hend⟩

end Prunes

end EvoAudio.Playback
