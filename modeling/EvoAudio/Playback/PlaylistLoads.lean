import EvoAudio.Playback.PlaylistRewrites

/-!
# Loading a playlist into the queue

`queue.load_playlist_to_queue` clears the queue, lists the playlist and resolves
its entries, all before the first of them is added. A load that fails on the way
has cleared the queue already.
-/

namespace EvoAudio.Playback

open Mpd (MpdError)
open Procedure (Triple)

variable {ctx : QueueContext} {link : Link} {verb : String} {name : List Char} {s : Session}

/-- MPD does not list the playlist, or one of its entries cannot be resolved. -/
def ResolutionFails (ctx : QueueContext) (link : Link) (verb : String) (name : List Char)
    (s : Session) : Prop :=
  match (listplaylistinfo link name s).1 with
  | .error _ => True
  | .ok entries => ∃ uri ∈ entries, ∃ error, resolveUriForMpd ctx verb uri = .error error

/-- The load gets as far as the playlist, and there it fails. -/
def LoadFails (ctx : QueueContext) (link : Link) (v : Nat) (name : List Char) (s : Session) :
    Prop :=
  v = queuePayloadVersion ∧ (clear link s).1 = .ok () ∧
    ResolutionFails ctx link "load_playlist_to_queue" name (clear link s).2

/-- A load that fails at the playlist is an error and leaves the queue alone. -/
def LoadAtomic (ctx : QueueContext) (link : Link) (v : Nat) (name : List Char)
    (start : Option Nat) (s : Session) : Prop :=
  LoadFails ctx link v name s →
    (∃ error, (handleLoadPlaylistToQueue ctx link v name start s).1 = .error error) ∧
      (handleLoadPlaylistToQueue ctx link v name start s).2.server.queue = s.server.queue

theorem resolveAll_fails {uris : List (List Char)}
    (h : ∃ uri ∈ uris, ∃ error, resolveUriForMpd ctx verb uri = .error error) (s : Session) :
    ∃ error, resolveAll ctx verb uris s = (.error error, s) := by
  obtain ⟨error, herror⟩ := Grouping.mapM_eq_error.mpr h
  exact ⟨error, by simp only [resolveAll, herror, Procedure.run_throw]⟩

/-- Nothing is added before the last entry is resolved. -/
theorem loadPlaylist_fails (h : ResolutionFails ctx link verb name s) :
    ∃ error s', loadPlaylistWithDlnaResolve ctx link verb name s = (.error error, s') ∧
      s'.server = s.server := by
  have hlisting := listplaylistinfo_fate link name s
  unfold ResolutionFails at h
  unfold loadPlaylistWithDlnaResolve
  cases hrun : listplaylistinfo link name s with
  | mk r s' =>
    have hverb : verbMpd verb (listplaylistinfo link name) s =
        (r.mapError fun error => .mpd verb (.mpd error), s') := run_verbMpd hrun
    rw [hrun] at h
    cases r with
    | error error => exact ⟨_, s', Procedure.run_bind_error hverb, (hlisting.error hrun).1⟩
    | ok entries =>
      obtain ⟨error, hresolve⟩ := resolveAll_fails h s'
      refine ⟨error, s', ?_, (hlisting.ok hrun).2.2.1⟩
      rw [Procedure.run_bind_ok hverb]
      exact Procedure.run_bind_error hresolve

theorem handleLoad_fails {v : Nat} (start : Option Nat) (h : LoadFails ctx link v name s) :
    ∃ error s', handleLoadPlaylistToQueue ctx link v name start s = (.error error, s') ∧
      s'.server.queue = s.server.queue.clear := by
  obtain ⟨rfl, hok, hfails⟩ := h
  cases hrun : clear link s with
  | mk r s₁ =>
    rw [hrun] at hok hfails
    cases hok
    obtain ⟨error, s', hload, hserver⟩ := loadPlaylist_fails hfails
    have hcleared : s₁.server.queue = s.server.queue.clear := by
      have heffect := ((dispatch_run link .clear Server.clear s).ok hrun).1
      simp only [Server.clear, Except.ok.injEq, Prod.mk.injEq, true_and] at heffect
      rw [← heffect]
    refine ⟨error, s', ?_, by rw [hserver, hcleared]⟩
    have hversion : checkVersion queuePayloadVersion "queue.load_playlist_to_queue" s =
        (.ok (), s) := rfl
    unfold handleLoadPlaylistToQueue
    rw [Procedure.run_bind_ok hversion, Procedure.run_bind_ok (run_verbMpd hrun)]
    exact Procedure.run_bind_error hload

theorem Queue.clear_eq_self_iff {queue : Queue} : queue.clear = queue ↔ queue.rows = [] := by
  constructor
  · intro h
    exact (congrArg Queue.rows h).symm
  · intro h
    cases queue
    cases h
    rfl

/-- A load that fails at the playlist is always an error, and it leaves the queue
alone exactly when the queue was empty before. -/
theorem load_atomic_iff (ctx : QueueContext) (link : Link) (v : Nat) (name : List Char)
    (start : Option Nat) (s : Session) :
    LoadAtomic ctx link v name start s ↔
      (LoadFails ctx link v name s → s.server.queue.rows = []) := by
  refine forall_congr' fun hfails => ?_
  obtain ⟨error, s', hrun, hqueue⟩ := handleLoad_fails start hfails
  rw [hrun, hqueue, Queue.clear_eq_self_iff]
  exact and_iff_right ⟨error, rfl⟩

/-- A playlist whose one entry is on a media server, and a queue of one song. -/
def remoteMix : Session :=
  { emptyQueue twoArtists with
    server := { (Server.idle twoArtists).putPlaylist "mix".toList
        ["dlna:nas/42".toList] (by decide) with
      queue := Queue.empty.insert 0 "a.flac".toList } }

/-- The media server is not there, and the song is no longer in the queue. -/
theorem unresolved_entry_empties_queue :
    ¬ LoadAtomic ⟨none, fun _ => none⟩ serving 1 "mix".toList none remoteMix := by
  intro h
  have hfails : LoadFails ⟨none, fun _ => none⟩ serving 1 "mix".toList remoteMix :=
    ⟨rfl, rfl, "dlna:nas/42".toList, by decide, _, rfl⟩
  have hqueue := (h hfails).2
  revert hqueue
  decide

end EvoAudio.Playback
