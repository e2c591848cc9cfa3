import EvoAudio.Playback.Commands

/-!
# Muting

The volume commands of the supervisor. The mute flag and the volume to restore
are cells of the supervisor, the volume in force is MPD's, and each command
changes the cells before a request that may fail. What an attempt can do to the
three is said once, as a relation; the laws of muting follow from it.
-/

namespace EvoAudio.Playback.Commands

open Mpd Supervisor
open Procedure (Triple)

-- ---------------------------------------------------------------------------
-- Runs of volume commands
-- ---------------------------------------------------------------------------

inductive VolumeCommand where
  | setVolume (volume : UInt8)
  | setMute (muted : Bool)
  deriving DecidableEq, Repr

def VolumeCommand.command : VolumeCommand → PlaybackCommand
  | .setVolume volume => .setVolume volume
  | .setMute muted => .setMute muted

/-- A command in its turn: the connection as the reports and queries since the
last command left it, and what becomes of the requests and the reconnects. -/
structure Call where
  cmd : VolumeCommand
  conn : Conn
  fates : Nat → Fate
  connects : Nat → Except MpdError Unit

def Call.handle (call : Call) (world : World) : Except PlaybackError Unit × World :=
  handleCommand call.connects call.fates call.cmd.command { world with conn := call.conn }

def Call.handleAll (calls : List Call) (world : World) : World :=
  calls.foldl (fun world call => (call.handle world).2) world

/-- The state that the volume commands are about. -/
structure Cells where
  muted : Bool
  preMuteVolume : UInt8
  /-- The volume that MPD has accepted last. -/
  volume : Option UInt8
  deriving DecidableEq, Repr

def World.cells (world : World) : Cells :=
  ⟨world.muted, world.preMuteVolume, world.server.volume⟩

@[simp] theorem World.cells_muted (world : World) : world.cells.muted = world.muted := rfl

@[simp] theorem World.cells_preMuteVolume (world : World) :
    world.cells.preMuteVolume = world.preMuteVolume := rfl

@[simp] theorem World.cells_volume (world : World) :
    world.cells.volume = world.server.volume := rfl

/-- What an unmute restores after a mute at these cells. -/
def Cells.captured (cells : Cells) : UInt8 :=
  match cells.muted, cells.volume with
  | false, some current => if current > 0 then current else cells.preMuteVolume
  | _, _ => cells.preMuteVolume

-- ---------------------------------------------------------------------------
-- One attempt
-- ---------------------------------------------------------------------------

/-- The request for a volume: granted, or failed with MPD at the old volume. -/
def Asked (volume : UInt8) (ok : Bool) (before after : Cells) : Prop :=
  after.volume = some volume ∨ ok = false ∧ after.volume = before.volume

/-- What one attempt at a command can do to the cells, and whether it succeeds. -/
def Attempted : VolumeCommand → Bool → Cells → Cells → Prop
  | .setVolume volume, ok, before, after =>
    after.muted = (before.muted && volume == 0) ∧
      after.preMuteVolume = before.preMuteVolume ∧ Asked volume ok before after
  | .setMute true, ok, before, after =>
    after.muted = true ∧ after.preMuteVolume = before.captured ∧ Asked 0 ok before after ∨
      ok = false ∧ after = before
  | .setMute false, ok, before, after =>
    after.muted = false ∧ after.preMuteVolume = before.preMuteVolume ∧
      Asked before.preMuteVolume ok before after

section Attempts

variable {fates : Nat → Fate} {world : World}

theorem serve_setVolume (verdict : Verdict) (volume : UInt8) (server : Server) :
    ((server.serve verdict (.setVolume volume)).1 = .ok ∧
        (server.serve verdict (.setVolume volume)).2.volume = some volume) ∨
      (∃ code message, (server.serve verdict (.setVolume volume)).1 = .ack code message) ∧
        (server.serve verdict (.setVolume volume)).2 = server := by
  rcases verdict with ⟨_ | ⟨code, message⟩, state, pos⟩
  · simp only [Server.serve]
    split
    · exact .inr ⟨⟨_, _, rfl⟩, rfl⟩
    · split
      · exact .inr ⟨⟨_, _, rfl⟩, rfl⟩
      · exact .inl ⟨rfl, rfl⟩
  · exact .inr ⟨⟨_, _, rfl⟩, rfl⟩

theorem serve_volume_status (verdict : Verdict) (server : Server) :
    (server.serve verdict .status).2.volume = server.volume := by
  rcases verdict with ⟨_ | ⟨code, message⟩, state, pos⟩ <;> rfl

theorem settled_cases {conn : Conn} (h : conn.settled = true) :
    conn = .broken ∨ conn = .live [] := by
  cases conn with
  | broken => exact .inl rfl
  | live due => cases due <;> simp_all [Conn.settled]

theorem exchange_setVolume (volume : UInt8) (hsettled : world.conn.settled = true) :
    Triple (exchange fates (.setVolume volume)) world
      (fun _ after => after.muted = world.muted ∧ after.preMuteVolume = world.preMuteVolume ∧
        Asked volume true world.cells after.cells)
      (fun _ after => after.muted = world.muted ∧ after.preMuteVolume = world.preMuteVolume ∧
        Asked volume false world.cells after.cells) := by
  unfold Triple exchange
  obtain hconn | hconn := settled_cases hsettled
  · simp [hconn, Request.serialised, Asked, World.cells]
  · cases fates world.sent with
    | answered verdict =>
      obtain ⟨hreply, hvolume⟩ | ⟨⟨code, message, hreply⟩, hserver⟩ :=
        serve_setVolume verdict volume world.server
      · simp [hconn, Request.serialised, Conn.read, hreply, hvolume, Reply.result, Asked,
          World.cells]
      · simp [hconn, Request.serialised, Conn.read, hreply, hserver, Reply.result, Asked,
          World.cells]
    | failed verdict error leaves =>
      cases verdict with
      | none => simp [hconn, Request.serialised, Asked, World.cells]
      | some verdict =>
        obtain ⟨_, hvolume⟩ | ⟨_, hserver⟩ := serve_setVolume verdict volume world.server
        · simp [hconn, Request.serialised, hvolume, Asked, World.cells]
        · simp [hconn, Request.serialised, hserver, Asked, World.cells]

theorem exchange_status (hsettled : world.conn.settled = true) :
    Triple (exchange fates .status) world
      (fun fields after => after.cells = world.cells ∧ after.conn.settled = true ∧
        ∀ status ∈ fields, status.volume = world.server.volume)
      (fun _ after => after.cells = world.cells) := by
  unfold Triple exchange
  obtain hconn | hconn := settled_cases hsettled
  · simp [hconn, Request.serialised]
  · cases fates world.sent with
    | answered verdict =>
      rcases verdict with ⟨_ | ⟨code, message⟩, state, pos⟩
      · simp [hconn, Request.serialised, Server.serve, Server.run, Conn.read, Reply.result,
          World.cells, Conn.settled]
      · simp [hconn, Request.serialised, Server.serve, Conn.read, Reply.result, World.cells]
    | failed verdict error leaves =>
      cases verdict <;> simp [hconn, Request.serialised, serve_volume_status, World.cells]

theorem send_setVolume (volume : UInt8) (hsettled : world.conn.settled = true) :
    Triple (send fates (.setVolume volume)) world
      (fun _ after => after.muted = world.muted ∧ after.preMuteVolume = world.preMuteVolume ∧
        Asked volume true world.cells after.cells)
      (fun _ after => after.muted = world.muted ∧ after.preMuteVolume = world.preMuteVolume ∧
        Asked volume false world.cells after.cells) :=
  (exchange_setVolume volume hsettled).bind fun _ _ h => .pure h

theorem readStatus_settled (hsettled : world.conn.settled = true) :
    Triple (readStatus fates) world
      (fun status after => after.cells = world.cells ∧ after.conn.settled = true ∧
        status.volume = world.server.volume)
      (fun _ after => after.cells = world.cells) := by
  refine (exchange_status hsettled).bind fun fields after h => ?_
  cases fields with
  | none => exact .throw h.1
  | some status => exact .pure ⟨h.1, h.2.1, h.2.2 status rfl⟩

/-- The part of a mute before its flag is set. -/
theorem capturePreMuteVolume_settled (hsettled : world.conn.settled = true) :
    Triple (capturePreMuteVolume fates) world
      (fun _ after => after.conn.settled = true ∧
        after.cells = { world.cells with preMuteVolume := world.cells.captured })
      (fun _ after => after.cells = world.cells) := by
  refine .get_bind ?_
  cases hmuted : world.muted with
  | true =>
    refine .pure ⟨hsettled, ?_⟩
    simp [Cells.captured, World.cells, hmuted]
  | false =>
    refine (readStatus_settled hsettled).bind fun status after h => ?_
    obtain ⟨hcells, hsettled', hvolume⟩ := h
    rw [hvolume]
    unfold capture
    cases hcurrent : world.server.volume with
    | none =>
      refine .pure ⟨hsettled', hcells.trans ?_⟩
      simp [Cells.captured, World.cells, hcurrent]
    | some current =>
      by_cases hpos : current > 0
      · simp only [hpos, if_true]
        refine .modify ⟨hsettled', ?_⟩
        simp only [World.cells, Cells.mk.injEq] at hcells
        simp [Cells.captured, World.cells, hcells, hmuted, hcurrent, hpos]
      · simp only [hpos, if_false]
        refine .pure ⟨hsettled', hcells.trans ?_⟩
        simp [Cells.captured, World.cells, hcurrent, hpos, hmuted]

theorem setMuted_send (muted : Bool) (volume : UInt8) (hsettled : world.conn.settled = true) :
    Triple (do setMuted muted; send fates (.setVolume volume)) world
      (fun _ after => after.muted = muted ∧ after.preMuteVolume = world.preMuteVolume ∧
        Asked volume true world.cells after.cells)
      (fun _ after => after.muted = muted ∧ after.preMuteVolume = world.preMuteVolume ∧
        Asked volume false world.cells after.cells) := by
  refine .bind (Q := fun _ middle => middle = { world with muted }) (.modify rfl) ?_
  rintro _ _ rfl
  exact send_setVolume volume hsettled

theorem dispatchCommand_attempted (cmd : VolumeCommand) (hsettled : world.conn.settled = true) :
    Triple (dispatchCommand fates cmd.command) world
      (fun _ after => Attempted cmd true world.cells after.cells)
      (fun _ after => Attempted cmd false world.cells after.cells) := by
  cases cmd with
  | setVolume volume =>
    by_cases hpos : volume > 0
    · have hzero : (volume == 0) = false := by simpa using (UInt8.pos_iff_ne_zero.mp hpos)
      simpa [Attempted, VolumeCommand.command, dispatchCommand, hpos, hzero] using
        setMuted_send false volume hsettled
    · have hzero : (volume == 0) = true := by simpa [UInt8.pos_iff_ne_zero] using hpos
      simpa [Attempted, VolumeCommand.command, dispatchCommand, hpos, hzero] using
        send_setVolume volume hsettled
  | setMute muted =>
    cases muted with
    | true =>
      refine ((capturePreMuteVolume_settled hsettled).mono (fun _ _ h => h) ?_).bind ?_
      · intro _ after h
        exact .inr ⟨rfl, h⟩
      · rintro _ middle ⟨hsettled', hcells⟩
        have hvolume : middle.server.volume = world.server.volume := congrArg Cells.volume hcells
        have hpre : middle.preMuteVolume = world.cells.captured :=
          congrArg Cells.preMuteVolume hcells
        refine (setMuted_send true 0 hsettled').mono ?_ ?_
        · rintro _ after ⟨hmuted, hkept, hasked⟩
          exact .inl ⟨hmuted, hkept.trans hpre, by simpa [Asked, hvolume] using hasked⟩
        · rintro _ after ⟨hmuted, hkept, hasked⟩
          exact .inl ⟨hmuted, hkept.trans hpre, by simpa [Asked, hvolume] using hasked⟩
    | false => exact setMuted_send false world.preMuteVolume hsettled

end Attempts

-- ---------------------------------------------------------------------------
-- Handling a command, and runs
-- ---------------------------------------------------------------------------

section Calls

variable {call : Call} {world : World} {P : Cells → Prop} {Q : Cells → Prop}

/-- What every attempt at a command preserves holds after its handling, and what
a successful attempt establishes holds after a handling that succeeds. -/
theorem handle_rule (hsettled : call.conn.settled = true)
    (hkeep : ∀ ok before after, P before → Attempted call.cmd ok before after → P after)
    (hok : ∀ before after, P before → Attempted call.cmd true before after → Q after)
    (hworld : P world.cells) :
    P (call.handle world).2.cells ∧
      ((call.handle world).1 = .ok () → Q (call.handle world).2.cells) := by
  have hattempt (start : World) (hs : start.conn.settled = true) (hp : P start.cells) :
      Triple (dispatchCommand call.fates call.cmd.command) start
        (fun _ after => P after.cells ∧ Q after.cells) (fun _ after => P after.cells) :=
    (dispatchCommand_attempted call.cmd hs).mono
      (fun _ _ h => ⟨hkeep _ _ _ hp h, hok _ _ hp h⟩) (fun _ _ h => hkeep _ _ _ hp h)
  have hfirst := hattempt { world with conn := call.conn } hsettled hworld
  have hrun := handled call.connects call.fates call.cmd.command { world with conn := call.conn }
  unfold Call.handle
  generalize handleCommand call.connects call.fates call.cmd.command _ = run at hrun ⊢
  rcases run with ⟨result, after⟩
  cases hrun with
  | done h => exact ⟨(hfirst.ok h).1, fun _ => (hfirst.ok h).2⟩
  | refused h _ => exact ⟨hfirst.error h, by simp⟩
  | cutOff h _ _ => exact ⟨hfirst.error h, by simp⟩
  | @retried middle _ result _ h _ hretry =>
    have hmiddle : P middle.cells := hfirst.error h
    have hsecond := hattempt { middle with conn := .live [] } rfl hmiddle
    cases result with
    | ok _ => exact ⟨(hsecond.ok hretry).1, fun _ => (hsecond.ok hretry).2⟩
    | error e => exact ⟨hsecond.error hretry, by simp⟩

theorem handle_keeps (hsettled : call.conn.settled = true)
    (hkeep : ∀ ok before after, P before → Attempted call.cmd ok before after → P after)
    (hworld : P world.cells) : P (call.handle world).2.cells :=
  (handle_rule (Q := fun _ => True) hsettled hkeep (fun _ _ _ _ => trivial) hworld).1

theorem handle_establishes (hsettled : call.conn.settled = true)
    (hok : ∀ before after, Attempted call.cmd true before after → Q after)
    (hrun : (call.handle world).1 = .ok ()) : Q (call.handle world).2.cells :=
  (handle_rule (P := fun _ => True) hsettled (fun _ _ _ _ _ => trivial)
    (fun before after _ h => hok before after h) trivial).2 hrun

theorem handleAll_rule {calls : List Call} (hsettled : ∀ call ∈ calls, call.conn.settled = true)
    (hkeep : ∀ call ∈ calls, ∀ ok before after, P before →
      Attempted call.cmd ok before after → P after)
    (hworld : P world.cells) : P (Call.handleAll calls world).cells := by
  induction calls generalizing world with
  | nil => exact hworld
  | cons call calls ih =>
    simp only [List.forall_mem_cons] at hsettled hkeep
    exact ih hsettled.2 hkeep.2 (handle_keeps hsettled.1 hkeep.1 hworld)

end Calls

-- ---------------------------------------------------------------------------
-- What holds of the cells
-- ---------------------------------------------------------------------------

namespace Cells

def Silent (cells : Cells) : Prop := cells.muted = true → cells.volume = some 0

/-- A muted player that still sounds has the volume that an unmute restores. -/
def Restorable (cells : Cells) : Prop :=
  cells.muted = true → ∀ volume ∈ cells.volume, volume = 0 ∨ volume = cells.preMuteVolume

def Between (volume : UInt8) (cells : Cells) : Prop :=
  cells.volume = some 0 ∨ cells.volume = some volume

/-- A mute at this volume is under way. -/
def Muting (volume : UInt8) (cells : Cells) : Prop :=
  cells.Between volume ∧
    (cells.preMuteVolume = volume ∨ cells.muted = false ∧ cells.volume = some volume)

/-- The volume is captured, and MPD is at it or silent. -/
def Held (volume : UInt8) (cells : Cells) : Prop :=
  cells.preMuteVolume = volume ∧ cells.Between volume

end Cells

section Laws

variable {cmd : VolumeCommand} {before after : Cells} {volume : UInt8} {ok : Bool}

theorem asked_of_ok (h : Asked volume true before after) : after.volume = some volume := by
  simpa [Asked] using h

/-- A mute captures the volume in force, or leaves the one captured before when
it finds the flag set or the player silent. -/
theorem captured_cases (cells : Cells) :
    cells.volume = some cells.captured ∨
      cells.captured = cells.preMuteVolume ∧
        (cells.muted = true ∨ ∀ current ∈ cells.volume, current = 0) := by
  rcases cells with ⟨_ | _, pre, _ | current⟩
  · exact .inr ⟨rfl, by simp⟩
  · by_cases hpos : current > 0
    · simp [Cells.captured, hpos]
    · have hzero : current = 0 := by simpa [UInt8.pos_iff_ne_zero] using hpos
      right
      simp [Cells.captured, hzero]
  · exact .inr ⟨rfl, .inl rfl⟩
  · exact .inr ⟨rfl, .inl rfl⟩

theorem silent_of_ok (h : Attempted cmd true before after) : after.Silent := by
  intro hmuted
  cases cmd with
  | setVolume volume =>
    obtain ⟨hflag, _, hasked⟩ := h
    have hzero : before.muted = true ∧ volume = 0 := by simpa [hmuted] using hflag.symm
    rw [asked_of_ok hasked, hzero.2]
  | setMute muted =>
    cases muted with
    | true =>
      obtain ⟨_, _, hasked⟩ | ⟨hok, _⟩ := h
      · exact asked_of_ok hasked
      · simp at hok
    | false => simp [h.1] at hmuted

theorem silent_attempted (hcmd : cmd ≠ .setMute true) (hb : before.Silent)
    (h : Attempted cmd ok before after) : after.Silent := by
  intro hmuted
  cases cmd with
  | setVolume volume =>
    obtain ⟨hflag, _, hasked⟩ := h
    have hboth : before.muted = true ∧ volume = 0 := by simpa [hmuted] using hflag.symm
    obtain hnow | ⟨_, hold⟩ := hasked
    · rw [hnow, hboth.2]
    · rw [hold, hb hboth.1]
  | setMute muted =>
    cases muted with
    | true => exact (hcmd rfl).elim
    | false => simp [h.1] at hmuted

theorem muted_of_ok (h : Attempted (.setMute muted) true before after) : after.muted = muted := by
  cases muted with
  | true =>
    obtain ⟨hflag, _⟩ | ⟨hok, _⟩ := h
    · exact hflag
    · simp at hok
  | false => exact h.1

theorem restorable_attempted (hb : before.Restorable) (h : Attempted cmd ok before after) :
    after.Restorable := by
  intro hmuted current hcurrent
  cases cmd with
  | setVolume volume =>
    obtain ⟨hflag, hpre, hasked⟩ := h
    have hboth : before.muted = true ∧ volume = 0 := by simpa [hmuted] using hflag.symm
    obtain hnow | ⟨_, hold⟩ := hasked
    · simp_all
    · rw [hpre]
      exact hb hboth.1 current (hold ▸ hcurrent)
  | setMute muted =>
    cases muted with
    | true =>
      obtain ⟨_, hpre, hnow | ⟨_, hold⟩⟩ | ⟨_, rfl⟩ := h
      · simp_all
      · rw [hpre]
        obtain hcaptured | ⟨hpre', hset | hzero⟩ := captured_cases before
        · simp_all
        · rw [hpre']
          exact hb hset current (hold ▸ hcurrent)
        · exact .inl (hzero current (hold ▸ hcurrent))
      · exact hb hmuted current hcurrent
    | false => simp [h.1] at hmuted

theorem captured_of_muting (hpos : volume > 0) (hb : before.Muting volume) :
    before.captured = volume := by
  obtain ⟨hbetween, hpre⟩ := hb
  have hne : volume ≠ 0 := UInt8.pos_iff_ne_zero.mp hpos
  rcases before with ⟨_ | _, pre, current⟩
  · obtain hzero | hvolume := hbetween
    · simp_all [Cells.captured, hne.symm]
    · simp_all [Cells.captured]
  · simpa [Cells.captured] using hpre

theorem between_of_asked (hb : before.Between volume) (h : Asked asked ok before after)
    (hasked : asked = 0 ∨ asked = volume) : after.Between volume := by
  obtain hnow | ⟨_, hold⟩ := h
  · obtain rfl | rfl := hasked
    · exact .inl hnow
    · exact .inr hnow
  · simpa only [Cells.Between, hold] using hb

theorem muting_attempted (hpos : volume > 0) (hb : before.Muting volume)
    (h : Attempted (.setMute true) ok before after) : after.Muting volume := by
  obtain ⟨_, hpre, hasked⟩ | ⟨_, rfl⟩ := h
  · exact ⟨between_of_asked hb.1 hasked (.inl rfl), .inl (hpre.trans (captured_of_muting hpos hb))⟩
  · exact hb

theorem held_attempted (hpos : volume > 0) (hb : before.Held volume)
    (h : Attempted (.setMute muted) ok before after) : after.Held volume := by
  cases muted with
  | true =>
    obtain ⟨_, hpre, hasked⟩ | ⟨_, rfl⟩ := h
    · have hcaptured := captured_of_muting hpos ⟨hb.2, .inl hb.1⟩
      exact ⟨hpre.trans hcaptured, between_of_asked hb.2 hasked (.inl rfl)⟩
    · exact hb
  | false =>
    obtain ⟨_, hpre, hasked⟩ := h
    exact ⟨hpre.trans hb.1, between_of_asked hb.2 hasked (.inr hb.1)⟩

theorem unmuted_of_ok (hb : before.Held volume)
    (h : Attempted (.setMute false) true before after) : after.volume = some volume :=
  hb.1 ▸ asked_of_ok h.2.2

end Laws

/-- Every mute of the run succeeds. -/
def Call.MutesSucceed : List Call → World → Prop
  | [], _ => True
  | call :: calls, world =>
    (call.cmd = .setMute true → (call.handle world).1 = .ok ()) ∧
      MutesSucceed calls (call.handle world).2

theorem silent_handleAll {calls : List Call} {world : World}
    (hsettled : ∀ call ∈ calls, call.conn.settled = true) (hrun : Call.MutesSucceed calls world)
    (hworld : world.cells.Silent) : (Call.handleAll calls world).cells.Silent := by
  induction calls generalizing world with
  | nil => exact hworld
  | cons call calls ih =>
    simp only [List.forall_mem_cons] at hsettled
    refine ih hsettled.2 hrun.2 ?_
    by_cases hcmd : call.cmd = .setMute true
    · exact handle_establishes hsettled.1 (fun _ _ h => silent_of_ok h) (hrun.1 hcmd)
    · exact handle_keeps hsettled.1 (fun _ _ _ hb h => silent_attempted hcmd hb h) hworld

theorem restorable_handleAll {calls : List Call} {world : World}
    (hsettled : ∀ call ∈ calls, call.conn.settled = true) (hworld : world.cells.Silent) :
    (Call.handleAll calls world).cells.Restorable := by
  refine handleAll_rule hsettled (fun _ _ _ _ _ hb h => restorable_attempted hb h) ?_
  intro hmuted current hcurrent
  simp_all [Cells.Silent]

/-- A mute at an audible volume, any number of further mutes and unmutes, and an
unmute that succeeds. -/
theorem unmute_restores {world : World} {mute unmute : Call} {middle : List Call}
    {volume : UInt8} (hsettled : ∀ call ∈ mute :: middle ++ [unmute], call.conn.settled = true)
    (hmute : mute.cmd = .setMute true) (hunmute : unmute.cmd = .setMute false)
    (hmiddle : ∀ call ∈ middle, ∃ muted, call.cmd = .setMute muted)
    (hworld : world.cells.Restorable) (hvolume : world.server.volume = some volume)
    (hpos : volume > 0) (hmuted : (mute.handle world).2.muted = true)
    (hok : (unmute.handle (Call.handleAll middle (mute.handle world).2)).1 = .ok ()) :
    (unmute.handle (Call.handleAll middle (mute.handle world).2)).2.server.volume =
      some volume := by
  have hstart : world.cells.Muting volume := by
    refine ⟨.inr hvolume, ?_⟩
    cases hflag : world.muted with
    | false => exact .inr ⟨hflag, hvolume⟩
    | true =>
      have hne : volume ≠ 0 := UInt8.pos_iff_ne_zero.mp hpos
      exact .inl ((hworld hflag volume hvolume).resolve_left hne).symm
  have hmuting : (mute.handle world).2.cells.Muting volume :=
    handle_keeps (hsettled mute (by simp))
      (fun _ _ _ hb h => muting_attempted hpos hb (hmute ▸ h)) hstart
  have hheld : (mute.handle world).2.cells.Held volume :=
    ⟨hmuting.2.resolve_right (by simp [hmuted]), hmuting.1⟩
  have hheld' : (Call.handleAll middle (mute.handle world).2).cells.Held volume := by
    refine handleAll_rule (fun call h => hsettled call (by simp [h])) ?_ hheld
    intro call hcall ok before after hb h
    obtain ⟨muted, hcmd⟩ := hmiddle call hcall
    exact held_attempted hpos hb (hcmd ▸ h)
  exact (handle_rule (P := Cells.Held volume) (Q := fun after => after.volume = some volume)
    (hsettled unmute (by simp)) (fun _ _ _ hb h => held_attempted hpos hb (hunmute ▸ h))
    (fun _ _ hb h => unmuted_of_ok hb (hunmute ▸ h)) hheld').2 hok

/-- The laws of muting, over every run of volume commands with any of their
requests failing. After a command that succeeds the flag means silence, and so it
does after every command of a run whose mutes succeed. A mute at an audible volume
that sets the flag, and an unmute that succeeds, with no volume command between
them, restore the volume. -/
theorem mute_laws (start : World) (hstart : start.muted = true → start.server.volume = some 0)
    (calls : List Call) (hsettled : ∀ call ∈ calls, call.conn.settled = true) :
    (∀ before call after, calls = before ++ call :: after →
      (call.handle (Call.handleAll before start)).1 = .ok () →
        ((call.handle (Call.handleAll before start)).2.muted = true →
          (call.handle (Call.handleAll before start)).2.server.volume = some 0) ∧
        ∀ muted, call.cmd = .setMute muted →
          (call.handle (Call.handleAll before start)).2.muted = muted) ∧
      (Call.MutesSucceed calls start →
        (Call.handleAll calls start).muted = true →
          (Call.handleAll calls start).server.volume = some 0) ∧
      ∀ before mute middle unmute after, calls = before ++ mute :: middle ++ unmute :: after →
        mute.cmd = .setMute true → unmute.cmd = .setMute false →
        (∀ call ∈ middle, ∃ muted, call.cmd = .setMute muted) →
        let world := Call.handleAll before start
        let muted := (mute.handle world).2
        let unmuted := unmute.handle (Call.handleAll middle muted)
        ∀ volume > 0, world.server.volume = some volume →
          muted.muted = true → unmuted.1 = .ok () → unmuted.2.server.volume = some volume := by
  refine ⟨?_, fun hrun => silent_handleAll hsettled hrun hstart, ?_⟩
  · rintro before call after rfl hok
    have hconn := hsettled call (by simp)
    constructor
    · exact handle_establishes hconn (fun _ _ h => silent_of_ok h) hok
    · intro muted hcmd
      exact handle_establishes (Q := fun after => after.muted = muted) hconn
        (fun _ _ h => muted_of_ok (hcmd ▸ h)) hok
  · rintro before mute middle unmute after rfl hmute hunmute hmiddle world muted unmuted volume
      hpos hvolume hmuted hok
    have hrestorable : world.cells.Restorable :=
      restorable_handleAll (fun call h => hsettled call (by simp [h])) hstart
    exact unmute_restores (fun call h => hsettled call (by simp at h ⊢; tauto)) hmute hunmute
      hmiddle hrestorable hvolume hpos hmuted hok

/-- A call that MPD answers in time. -/
def prompt (cmd : VolumeCommand) : Call :=
  ⟨cmd, .live [], fun _ => .answered accepting, fun _ => .ok ()⟩

theorem mute_laws_session :
    (Call.handleAll [prompt (.setMute true), prompt (.setMute false)] session).server.volume =
      some 40 := by
  have hlaws := mute_laws session (by decide) [prompt (.setMute true), prompt (.setMute false)]
    (by simp [prompt, Conn.settled])
  exact hlaws.2.2 [] (prompt (.setMute true)) [] (prompt (.setMute false)) [] rfl rfl rfl (by simp)
    40 (by decide) rfl (by decide) (by decide)

/-- Muted at volume 0 and unmuted, the player sounds. -/
theorem unmute_of_silent_player :
    let silent : World := { session with server := ⟨some 0, []⟩ }
    let muted := (prompt (.setMute true)).handle silent
    let unmuted := (prompt (.setMute false)).handle muted.2
    muted.1 = .ok () ∧ unmuted.1 = .ok () ∧ unmuted.2.server.volume = some 50 := by
  decide

end EvoAudio.Playback.Commands
