import EvoAudio.Lib.Procedure
import EvoAudio.Mpd.Connection
import EvoAudio.Playback.Server
import EvoAudio.Playback.Supervisor

/-!
# Player commands

`handle_command` of `playback.mpd/src/playback_supervisor/actor.rs`: a command is
dispatched on the command connection, and once more on a fresh one when the first
attempt ends in a transport error or a timeout. MPD is the other party. It takes a
request or never sees it, and its reply is read, comes too late or is lost.
-/

namespace EvoAudio.Playback.Commands

open Mpd Supervisor
open Procedure (Triple Along)

-- ---------------------------------------------------------------------------
-- The two ends of the command connection
-- ---------------------------------------------------------------------------

/-- The methods of `MpdConnection` that the supervisor calls, with their
arguments. A duration is in nanoseconds. -/
inductive Request where
  | status
  | play
  | playPosition (pos : UInt32)
  | pause (paused : Bool)
  | stop
  | next
  | previous
  | seek (pos : Nat)
  | seekRelative (deltaMs : Int)
  | setVolume (volume : UInt8)
  | setRepeat (enabled : Bool)
  | setRandom (enabled : Bool)
  | setSingle (enabled : Bool)
  | setConsume (enabled : Bool)
  | clear
  | add (path : List Char)
  deriving DecidableEq, Repr

/-- The fields of `status` that the supervisor reads. -/
structure MpdStatus where
  state : PlayState
  songPosition : Option UInt32
  /-- `none` without a mixer. -/
  volume : Option UInt8
  deriving DecidableEq, Repr

inductive Reply where
  | ok
  | status (fields : MpdStatus)
  | ack (code : UInt32) (message : List Char)
  deriving DecidableEq, Repr

/-- MPD, as far as the commands change it, and the requests it has executed. -/
structure Server where
  volume : Option UInt8
  executed : List Request
  deriving DecidableEq, Repr

/-- What MPD makes of a request that reaches it. -/
structure Verdict where
  /-- An `ACK`, for whatever reason MPD has. -/
  refusal : Option (UInt32 × List Char)
  state : PlayState
  songPosition : Option UInt32
  deriving DecidableEq, Repr

/-- `ACK [2@0]`: a volume above 100. -/
def invalidVolume : Reply := .ack 2 "Invalid volume value".toList

/-- `ACK [52@0]`: no mixer takes the volume. -/
def noMixer : Reply := .ack 52 "problems setting volume".toList

namespace Server

def run (request : Request) (server : Server) : Server :=
  { server with executed := server.executed ++ [request] }

def serve (verdict : Verdict) (request : Request) (server : Server) : Reply × Server :=
  match verdict.refusal, request with
  | some (code, message), _ => (.ack code message, server)
  | none, .status =>
    (.status ⟨verdict.state, verdict.songPosition, server.volume⟩, server.run .status)
  | none, .setVolume volume =>
    if volume > 100 then (invalidVolume, server)
    else if server.volume.isNone then (noMixer, server)
    else (.ok, { server.run (.setVolume volume) with volume := some volume })
  | none, request => (.ok, server.run request)

end Server

/-- The command connection. Replies that came too late for their own request are
still due on it, oldest first. -/
inductive Conn where
  | broken
  | live (due : List Reply)
  deriving DecidableEq, Repr

/-- What becomes of one request. -/
inductive Fate where
  /-- MPD takes it, and the next reply on the connection is read in time. -/
  | answered (verdict : Verdict)
  /-- The call ends in an error. MPD may have taken the request all the same. -/
  | failed (verdict : Option Verdict) (error : MpdError) (leaves : Conn)
  deriving DecidableEq, Repr

/-- The command connection with MPD behind it, the requests sent so far, and the
two cells that the supervisor keeps for the mute. -/
structure World where
  conn : Conn
  server : Server
  sent : Nat
  muted : Bool
  preMuteVolume : UInt8
  deriving DecidableEq, Repr

/-- Only `add` carries a text that may not go on the wire. -/
def Request.serialised : Request → Except ProtocolError Unit
  | .add path => rejectForbidden path
  | _ => .ok ()

def Reply.result : Reply → Except MpdError (Option MpdStatus)
  | .ok => .ok none
  | .status fields => .ok (some fields)
  | .ack code message => .error (.ack code 0 [] message)

/-- The reply that is read next, and those still due after it. -/
def Conn.read (due : List Reply) (reply : Reply) : Reply × List Reply :=
  match due with
  | [] => (reply, [])
  | first :: rest => (first, rest ++ [reply])

/-- One request and its reply. Each request has its own fate, by its number. -/
def exchange (fates : Nat → Fate) (request : Request) :
    Procedure World MpdError (Option MpdStatus) := fun world =>
  match request.serialised, world.conn with
  | .error e, _ => (.error (.protocol e), world)
  | .ok (), .broken => (.error (.transport .closed), world)
  | .ok (), .live due =>
    let later := { world with sent := world.sent + 1 }
    match fates world.sent with
    | .answered verdict =>
      let (reply, server) := world.server.serve verdict request
      let (first, due) := Conn.read due reply
      (first.result, { later with server, conn := .live due })
    | .failed (some verdict) error leaves =>
      (.error error, { later with server := (world.server.serve verdict request).2, conn := leaves })
    | .failed none error leaves => (.error error, { later with conn := leaves })

section Dispatch

variable (fates : Nat → Fate)

/-- A call whose fields are dropped. -/
def send (request : Request) : Procedure World MpdError Unit := do
  let _ ← exchange fates request

/-- `parse_status` misses the state in a reply without fields. -/
def readStatus : Procedure World MpdError MpdStatus := do
  match ← exchange fates .status with
  | some fields => pure fields
  | none => .throw (.protocol (.missingField "state".toList))

def startOrResumePlayback : Procedure World MpdError Unit := do
  let status ← readStatus fates
  match status.state with
  | .playing => pure ()
  | .paused => send fates (.pause false)
  | .stopped =>
    if status.songPosition.isSome then send fates .play else send fates (.playPosition 0)

inductive PlaybackCommand where
  | play
  | playPosition (pos : UInt32)
  | pause (paused : Bool)
  | stop
  | next
  | previous
  | seek (pos : Nat)
  | seekRelative (deltaMs : Int)
  | setVolume (volume : UInt8)
  | setMute (muted : Bool)
  | setRepeat (enabled : Bool)
  | setShuffle (enabled : Bool)
  | setSingle (enabled : Bool)
  | setConsume (enabled : Bool)
  | loadAndPlay (path : List Char)
  deriving DecidableEq, Repr

def setMuted (muted : Bool) : Procedure World MpdError Unit :=
  .modify fun world => { world with muted }

/-- The volume that a later unmute restores. A silent player leaves the one
captured before. -/
def capture (volume : Option UInt8) : Procedure World MpdError Unit :=
  match volume with
  | some current =>
    if current > 0 then .modify fun world => { world with preMuteVolume := current } else pure ()
  | none => pure ()

def capturePreMuteVolume : Procedure World MpdError Unit := do
  if !(← Procedure.get).muted then
    let status ← readStatus fates
    capture status.volume

def dispatchCommand : PlaybackCommand → Procedure World MpdError Unit
  | .play => startOrResumePlayback fates
  | .playPosition pos => send fates (.playPosition pos)
  | .pause true => send fates (.pause true)
  | .pause false => startOrResumePlayback fates
  | .stop => send fates .stop
  | .next => send fates .next
  | .previous => send fates .previous
  | .seek pos => send fates (.seek pos)
  | .seekRelative deltaMs => send fates (.seekRelative deltaMs)
  | .setVolume volume => do
    if volume > 0 then setMuted false
    send fates (.setVolume volume)
  | .setMute true => do
    capturePreMuteVolume fates
    setMuted true
    send fates (.setVolume 0)
  | .setMute false => do
    setMuted false
    send fates (.setVolume (← Procedure.get).preMuteVolume)
  | .setRepeat enabled => send fates (.setRepeat enabled)
  | .setShuffle enabled => send fates (.setRandom enabled)
  | .setSingle enabled => send fates (.setSingle enabled)
  | .setConsume enabled => send fates (.setConsume enabled)
  | .loadAndPlay path => do
    send fates .clear
    send fates (.add path)
    send fates .play

end Dispatch

-- ---------------------------------------------------------------------------
-- Reconnecting, and the second attempt
-- ---------------------------------------------------------------------------

/-- A protocol violation is reported by its text, which is that of the error. -/
inductive PlaybackError where
  | ack (code : UInt32) (message : List Char)
  | connectionExhausted (attempts : Nat)
  | protocol (error : ProtocolError)
  deriving DecidableEq, Repr

def errorCallsForReconnect : MpdError → Bool
  | .transport _ => true
  | .timeout _ _ => true
  | _ => false

def classifyCommandError : MpdError → PlaybackError
  | .ack code _ _ message => .ack code message
  | .transport _ => .connectionExhausted reconnectMaxAttempts
  | .timeout _ _ => .connectionExhausted reconnectMaxAttempts
  | .protocol error => .protocol error

section Handle

-- How the attempts to connect end, by the number of attempts before.
variable (connects : Nat → Except MpdError Unit) (fates : Nat → Fate)

/-- The loop of `reconnect_cmd_conn`, with the attempts used. It has one round
more than there are delays. -/
def reconnectLoop : (rounds attempts : Nat) → Procedure World PlaybackError Unit
  | 0, attempts => .throw (.connectionExhausted attempts)
  | rounds + 1, attempts =>
    match nextDelay attempts with
    | none => .throw (.connectionExhausted attempts)
    | some _ =>
      match connects attempts with
      | .ok () => .modify fun world => { world with conn := .live [] }
      | .error e =>
        if errorCallsForReconnect e then reconnectLoop rounds (attempts + 1)
        else .throw (classifyCommandError e)

def reconnectCmdConn : Procedure World PlaybackError Unit :=
  reconnectLoop connects (reconnectMaxAttempts + 1) 0

def handleCommand (cmd : PlaybackCommand) : Procedure World PlaybackError Unit := do
  match ← (dispatchCommand fates cmd).attempt with
  | .ok () => pure ()
  | .error e =>
    if !errorCallsForReconnect e then .throw (classifyCommandError e)
    else do
      reconnectCmdConn connects
      (dispatchCommand fates cmd).mapError classifyCommandError

end Handle

-- ---------------------------------------------------------------------------
-- What one handling can do
-- ---------------------------------------------------------------------------

variable {connects : Nat → Except MpdError Unit} {fates : Nat → Fate}

theorem reconnectLoop_cases (rounds attempts : Nat) (world : World) :
    (∃ e, reconnectLoop connects rounds attempts world = (.error e, world)) ∨
      reconnectLoop connects rounds attempts world = (.ok (), { world with conn := .live [] }) := by
  induction rounds generalizing attempts with
  | zero => exact .inl ⟨_, rfl⟩
  | succ rounds ih =>
    unfold reconnectLoop
    cases nextDelay attempts with
    | none => exact .inl ⟨_, rfl⟩
    | some delay =>
      cases connects attempts with
      | ok _ => exact .inr rfl
      | error e =>
        cases hlost : errorCallsForReconnect e with
        | true => simpa [hlost] using ih (attempts + 1)
        | false => simp [hlost]

theorem reconnectCmdConn_cases (world : World) :
    (∃ e, reconnectCmdConn connects world = (.error e, world)) ∨
      reconnectCmdConn connects world = (.ok (), { world with conn := .live [] }) :=
  reconnectLoop_cases (reconnectMaxAttempts + 1) 0 world

/-- How a command is handled: the attempt on the connection as it is, and the one
on a fresh connection. -/
inductive Handled (fates : Nat → Fate) (cmd : PlaybackCommand) (world : World) :
    Except PlaybackError Unit → World → Prop where
  | done (h : dispatchCommand fates cmd world = (.ok (), after)) :
    Handled fates cmd world (.ok ()) after
  | refused (h : dispatchCommand fates cmd world = (.error e, after))
    (hfinal : errorCallsForReconnect e = false) :
    Handled fates cmd world (.error (classifyCommandError e)) after
  | cutOff (h : dispatchCommand fates cmd world = (.error e, after))
    (hlost : errorCallsForReconnect e = true) (e' : PlaybackError) :
    Handled fates cmd world (.error e') after
  | retried (h : dispatchCommand fates cmd world = (.error e, middle))
    (hlost : errorCallsForReconnect e = true)
    (hretry : dispatchCommand fates cmd { middle with conn := .live [] } = (result, after)) :
    Handled fates cmd world (result.mapError classifyCommandError) after

theorem handled (connects : Nat → Except MpdError Unit) (fates : Nat → Fate)
    (cmd : PlaybackCommand) (world : World) :
    Handled fates cmd world (handleCommand connects fates cmd world).1
      (handleCommand connects fates cmd world).2 := by
  unfold handleCommand
  rcases hfirst : dispatchCommand fates cmd world with ⟨result, middle⟩
  rw [Procedure.run_bind_ok (Procedure.run_attempt hfirst)]
  cases result with
  | ok _ => exact .done hfirst
  | error e =>
    cases hlost : errorCallsForReconnect e with
    | false => simpa [hlost] using Handled.refused hfirst hlost
    | true =>
      simp only [hlost, Bool.not_true, Bool.false_eq_true, if_false]
      obtain ⟨e', hfail⟩ | hopen := reconnectCmdConn_cases middle
      · rw [Procedure.run_bind_error hfail]
        exact .cutOff hfirst hlost e'
      · rw [Procedure.run_bind_ok hopen]
        rcases hretry : dispatchCommand fates cmd { middle with conn := .live [] } with
          ⟨result, after⟩
        rw [Procedure.run_mapError hretry]
        exact .retried hfirst hlost hretry

-- ---------------------------------------------------------------------------
-- How often a request is executed
-- ---------------------------------------------------------------------------

/-- The requests that move the player from where it is, so that a second one
moves it again. -/
def Request.relative : Request → Bool
  | .next => true
  | .previous => true
  | .seekRelative _ => true
  | _ => false

def PlaybackCommand.relativeRequest : PlaybackCommand → Option Request
  | .next => some .next
  | .previous => some .previous
  | .seekRelative deltaMs => some (.seekRelative deltaMs)
  | _ => none

def timesExecuted (request : Request) (before after : World) : Nat :=
  after.server.executed.count request - before.server.executed.count request

/-- MPD has taken a request that needs no mixer. -/
def Fate.taken : Fate → Bool
  | .answered verdict => verdict.refusal.isNone
  | .failed (some verdict) _ _ => verdict.refusal.isNone
  | .failed none _ _ => false

/-- MPD has taken the request, and the supervisor gives its connection up. -/
def Fate.unheard : Fate → Bool
  | .failed (some verdict) error _ => verdict.refusal.isNone && errorCallsForReconnect error
  | _ => false

def World.takes (fates : Nat → Fate) (world : World) : Bool :=
  match world.conn with
  | .broken => false
  | .live _ => (fates world.sent).taken

/-- The first request of a handling is executed, and ends in an error that leads
to a second attempt. -/
def World.unheard (fates : Nat → Fate) (world : World) : Bool :=
  match world.conn with
  | .broken => false
  | .live _ => (fates world.sent).unheard

/-- No reply of an earlier request is due. -/
def Conn.settled : Conn → Bool
  | .live (_ :: _) => false
  | _ => true

section Relative

variable {request other : Request} {cmd : PlaybackCommand} {world after : World}

theorem serve_executed (hrel : request.relative = true) (verdict : Verdict) (server : Server) :
    (server.serve verdict request).2.executed =
      server.executed ++ if verdict.refusal.isNone then [request] else [] := by
  rcases verdict with ⟨_ | ⟨code, message⟩, state, pos⟩
  · cases request <;> simp_all [Request.relative, Server.serve, Server.run]
  · simp [Server.serve]

theorem serve_count (hne : request ≠ other) (verdict : Verdict)
    (server : Server) :
    (server.serve verdict request).2.executed.count other = server.executed.count other := by
  rcases verdict with ⟨_ | ⟨code, message⟩, state, pos⟩
  · cases request with
    | setVolume volume =>
      simp only [Server.serve, Server.run]
      split
      · rfl
      · split
        · rfl
        · simp [List.count_append, hne]
    | _ => simp [Server.serve, Server.run, List.count_append, hne]
  · simp [Server.serve]

theorem serialised_relative (hrel : request.relative = true) : request.serialised = .ok () := by
  cases request <;> simp_all [Request.relative, Request.serialised]

theorem exchange_executed (hrel : request.relative = true) (world : World) :
    (exchange fates request world).2.server.executed =
      world.server.executed ++ if world.takes fates then [request] else [] := by
  unfold exchange World.takes
  rw [serialised_relative hrel]
  cases world.conn with
  | broken => simp
  | live due =>
    cases fates world.sent with
    | answered verdict => simp [Fate.taken, serve_executed hrel]
    | failed verdict error leaves =>
      cases verdict <;> simp [Fate.taken, serve_executed hrel]

theorem exchange_count (hne : request ≠ other) (world : World) :
    (exchange fates request world).2.server.executed.count other =
      world.server.executed.count other := by
  unfold exchange
  cases request.serialised with
  | error e => rfl
  | ok _ =>
    cases world.conn with
    | broken => rfl
    | live due =>
      cases fates world.sent with
      | answered verdict => simp [serve_count hne]
      | failed verdict error leaves => cases verdict <;> simp [serve_count hne]

/-- A reply that is read in time is that of the request itself when no other is
due, so it tells what MPD made of it. -/
theorem takes_of_exchange_ok (hrel : request.relative = true) (hsettled : world.conn.settled = true)
    (h : exchange fates request world = (.ok fields, after)) : world.takes fates = true := by
  unfold exchange at h
  rw [serialised_relative hrel] at h
  cases hconn : world.conn with
  | broken => simp [hconn] at h
  | live due =>
    obtain rfl : due = [] := by cases due <;> simp_all [Conn.settled]
    cases hfate : fates world.sent with
    | failed verdict error leaves => cases verdict <;> simp [hconn, hfate] at h
    | answered verdict =>
      rcases verdict with ⟨_ | ⟨code, message⟩, state, pos⟩
      · simp [World.takes, hconn, hfate, Fate.taken]
      · simp [hconn, hfate, Server.serve, Conn.read, Reply.result] at h

theorem not_lost_of_result (reply : Reply) (h : reply.result = .error e) :
    errorCallsForReconnect e = false := by
  cases reply <;> simp_all [Reply.result]
  subst h
  rfl

theorem unheard_of_exchange_error (hrel : request.relative = true)
    (hlost : errorCallsForReconnect e = true)
    (h : exchange fates request world = (.error e, after)) (htakes : world.takes fates = true) :
    world.unheard fates = true := by
  unfold exchange at h
  rw [serialised_relative hrel] at h
  cases hconn : world.conn with
  | broken => simp [World.takes, hconn] at htakes
  | live due =>
    cases hfate : fates world.sent with
    | answered verdict =>
      simp only [hconn, hfate, Prod.mk.injEq] at h
      simp [not_lost_of_result _ h.1] at hlost
    | failed verdict error leaves =>
      cases verdict with
      | none => simp [World.takes, hconn, hfate, Fate.taken] at htakes
      | some verdict =>
        obtain ⟨rfl, -⟩ : error = e ∧ _ := by simpa [hconn, hfate] using h
        simp_all [World.takes, World.unheard, Fate.taken, Fate.unheard]

-- ---------------------------------------------------------------------------
-- Attempts
-- ---------------------------------------------------------------------------

theorem relative_of_relativeRequest (h : cmd.relativeRequest = some request) :
    request.relative = true := by
  cases cmd <;> simp_all [PlaybackCommand.relativeRequest]
  all_goals
    subst h
    rfl

theorem dispatchCommand_relative (h : cmd.relativeRequest = some request) :
    dispatchCommand fates cmd = send fates request := by
  cases cmd <;> simp_all [PlaybackCommand.relativeRequest]
  all_goals
    subst h
    rfl

theorem send_run (fates : Nat → Fate) (request : Request) (world : World) :
    send fates request world =
      ((exchange fates request world).1.map fun _ => (), (exchange fates request world).2) := by
  unfold send
  rcases hrun : exchange fates request world with ⟨fields | e, after⟩
  · rw [Procedure.run_bind_error hrun]
    rfl
  · rw [Procedure.run_bind_ok hrun]
    rfl

theorem dispatchCommand_executed (h : cmd.relativeRequest = some request) (world : World) :
    (dispatchCommand fates cmd world).2.server.executed.count request =
      world.server.executed.count request + (world.takes fates).toNat := by
  rw [dispatchCommand_relative h, send_run,
    exchange_executed (relative_of_relativeRequest h), List.count_append]
  cases world.takes fates <;> simp

theorem takes_of_dispatchCommand_ok (h : cmd.relativeRequest = some request)
    (hsettled : world.conn.settled = true)
    (hrun : dispatchCommand fates cmd world = (.ok (), after)) : world.takes fates = true := by
  rw [dispatchCommand_relative h, send_run] at hrun
  rcases hex : exchange fates request world with ⟨e | fields, after⟩
  · simp [hex, Except.map] at hrun
  · exact takes_of_exchange_ok (relative_of_relativeRequest h) hsettled hex

theorem unheard_of_dispatchCommand_error (h : cmd.relativeRequest = some request)
    (hlost : errorCallsForReconnect e = true)
    (hrun : dispatchCommand fates cmd world = (.error e, after))
    (htakes : world.takes fates = true) : world.unheard fates = true := by
  rw [dispatchCommand_relative h, send_run] at hrun
  rcases hex : exchange fates request world with ⟨e' | fields, after⟩
  · obtain ⟨rfl, -⟩ : e' = e ∧ _ := by simpa [hex, Except.map] using hrun
    exact unheard_of_exchange_error (relative_of_relativeRequest h) hlost hex htakes
  · simp [hex, Except.map] at hrun

-- ---------------------------------------------------------------------------
-- The other commands
-- ---------------------------------------------------------------------------

/-- No run in between has executed the request. -/
def Unmoved (request : Request) (before after : World) : Prop :=
  after.server.executed.count request = before.server.executed.count request

instance instIsPreorderUnmoved : IsPreorder World (Unmoved request) where
  refl _ := rfl
  trans _ _ _ h h' := h'.trans h

theorem send_unmoved (hne : request ≠ other) : Along (Unmoved other) (send fates request) :=
  .bind (exchange_count hne) fun _ => .pure ()

theorem ne_of_relative (hrel : other.relative = true) (h : request.relative = false) :
    request ≠ other := by
  rintro rfl
  simp [h] at hrel

theorem readStatus_unmoved (hrel : other.relative = true) :
    Along (Unmoved other) (readStatus fates) := by
  refine .bind (exchange_count (ne_of_relative hrel rfl)) fun fields => ?_
  cases fields with
  | some fields => exact .pure fields
  | none => exact .throw _

theorem startOrResumePlayback_unmoved (hrel : other.relative = true) :
    Along (Unmoved other) (startOrResumePlayback fates) := by
  refine .bind (readStatus_unmoved hrel) fun status => ?_
  cases status.state with
  | playing => exact .pure ()
  | paused => exact send_unmoved (ne_of_relative hrel rfl)
  | stopped =>
    cases hpos : status.songPosition.isSome with
    | true => simpa [hpos] using send_unmoved (ne_of_relative hrel rfl)
    | false => simpa [hpos] using send_unmoved (ne_of_relative hrel rfl)

theorem setMuted_unmoved (muted : Bool) : Along (Unmoved other) (setMuted muted) :=
  .modify fun _ => rfl

theorem capture_unmoved (volume : Option UInt8) : Along (Unmoved other) (capture volume) := by
  unfold capture
  split
  · split
    · exact .modify fun _ => rfl
    · exact .pure ()
  · exact .pure ()

theorem capturePreMuteVolume_unmoved (hrel : other.relative = true) :
    Along (Unmoved other) (capturePreMuteVolume fates) := by
  refine .bind .get fun world => ?_
  cases world.muted with
  | true => exact .pure ()
  | false => exact .bind (readStatus_unmoved hrel) fun status => capture_unmoved status.volume

theorem dispatchCommand_unmoved (hrel : other.relative = true)
    (hne : cmd.relativeRequest ≠ some other) :
    Along (Unmoved other) (dispatchCommand fates cmd) := by
  have hsend : ∀ request : Request, request.relative = false →
      Along (Unmoved other) (send fates request) :=
    fun request h => send_unmoved (ne_of_relative hrel h)
  cases cmd with
  | play => exact startOrResumePlayback_unmoved hrel
  | pause paused =>
    cases paused with
    | true => exact hsend _ rfl
    | false => exact startOrResumePlayback_unmoved hrel
  | next => exact send_unmoved fun h => hne (congrArg some h)
  | previous => exact send_unmoved fun h => hne (congrArg some h)
  | seekRelative deltaMs => exact send_unmoved fun h => hne (congrArg some h)
  | setVolume volume =>
    by_cases hpos : volume > 0
    · simpa [dispatchCommand, hpos] using (setMuted_unmoved false).bind fun _ => hsend _ rfl
    · simpa [dispatchCommand, hpos] using hsend (.setVolume volume) rfl
  | setMute muted =>
    cases muted with
    | true =>
      exact (capturePreMuteVolume_unmoved hrel).bind fun _ =>
        (setMuted_unmoved true).bind fun _ => hsend _ rfl
    | false => exact (setMuted_unmoved false).bind fun _ => .bind .get fun world => hsend _ rfl
  | loadAndPlay path =>
    exact (hsend _ rfl).bind fun _ => (hsend _ rfl).bind fun _ => hsend _ rfl
  | _ => exact hsend _ rfl

theorem handled_unmoved (hrel : other.relative = true) (hne : cmd.relativeRequest ≠ some other)
    (h : Handled fates cmd world result after) : Unmoved other world after := by
  have hdispatch : Along (Unmoved other) (dispatchCommand fates cmd) :=
    dispatchCommand_unmoved hrel hne
  cases h with
  | done h => simpa [h] using hdispatch world
  | refused h _ => simpa [h] using hdispatch world
  | cutOff h _ _ => simpa [h] using hdispatch world
  | @retried middle e result after h _ hretry =>
    have hfirst : Unmoved other world middle := by simpa [h] using hdispatch world
    have hsecond : Unmoved other { middle with conn := .live [] } after := by
      simpa [hretry] using hdispatch { middle with conn := .live [] }
    exact hsecond.trans hfirst

theorem handled_times (h : cmd.relativeRequest = some request)
    (hrun : Handled fates cmd world result after) :
    timesExecuted request world after ≤ 1 + (world.unheard fates).toNat ∧
      (result = .ok () → world.conn.settled = true → 1 ≤ timesExecuted request world after) := by
  have htimes : ∀ world, (dispatchCommand fates cmd world).2.server.executed.count request =
      world.server.executed.count request + (world.takes fates).toNat :=
    dispatchCommand_executed h
  have hfirst := htimes world
  unfold timesExecuted
  cases hrun with
  | done hrun =>
    simp only [hrun] at hfirst
    refine ⟨by have := (world.takes fates).toNat_le; omega, fun _ hsettled => ?_⟩
    simp [takes_of_dispatchCommand_ok h hsettled hrun] at hfirst
    omega
  | refused hrun _ =>
    simp only [hrun] at hfirst
    exact ⟨by have := (world.takes fates).toNat_le; omega, by simp⟩
  | cutOff hrun _ _ =>
    simp only [hrun] at hfirst
    exact ⟨by have := (world.takes fates).toNat_le; omega, by simp⟩
  | @retried middle e result after hrun hlost hretry =>
    -- the second attempt has a connection of its own, with nothing due on it
    have hsecond := htimes { middle with conn := .live [] }
    have hunheard := unheard_of_dispatchCommand_error h hlost hrun
    have hle : (world.takes fates).toNat ≤ (world.unheard fates).toNat := by
      cases htakes : world.takes fates with
      | false => simp
      | true => simp [hunheard htakes]
    simp only [hrun] at hfirst
    simp only [hretry] at hsecond
    constructor
    · have := (World.takes fates { middle with conn := .live [] }).toNat_le
      omega
    · intro hok _
      cases result with
      | error e => simp [Except.mapError] at hok
      | ok _ =>
        simp only [takes_of_dispatchCommand_ok h rfl hretry, Bool.toNat_true] at hsecond
        omega

end Relative

/-- The retry is what may execute a command a second time: a relative request is
executed at most once, and twice only if MPD has executed it without being heard
and the second attempt reaches MPD as well. It is executed when the command
succeeds, on a connection where no earlier reply is due. -/
theorem handleCommand_executes_once (connects : Nat → Except MpdError Unit) (fates : Nat → Fate)
    (cmd : PlaybackCommand) (world : World) (request : Request)
    (hrel : request.relative = true) :
    let run := handleCommand connects fates cmd world
    let times := timesExecuted request world run.2
    times ≤ 2 ∧
      (world.unheard fates = false → times ≤ 1) ∧
      (cmd.relativeRequest ≠ some request → times = 0) ∧
      (cmd.relativeRequest = some request → run.1 = .ok () → world.conn.settled = true →
        1 ≤ times ∧ (world.unheard fates = false → times = 1)) := by
  intro run times
  have hrun : Handled fates cmd world run.1 run.2 := handled connects fates cmd world
  by_cases hcmd : cmd.relativeRequest = some request
  · obtain ⟨hmost, hleast⟩ := handled_times hcmd hrun
    have hunheard := (world.unheard fates).toNat_le
    refine ⟨by omega, fun h => by simpa [h] using hmost, fun h => (h hcmd).elim, ?_⟩
    intro _ hok hsettled
    refine ⟨hleast hok hsettled, fun h => ?_⟩
    exact Nat.le_antisymm (by simpa [h] using hmost) (hleast hok hsettled)
  · have hnone : times = 0 := Nat.sub_eq_zero_of_le (handled_unmoved hrel hcmd hrun).le
    exact ⟨by omega, fun _ => by omega, fun _ => hnone, fun h => (hcmd h).elim⟩

/-- A player that takes every request. -/
def accepting : Verdict := ⟨none, .playing, some 0⟩

/-- A fresh session at volume 40. -/
def session : World := ⟨.live [], ⟨some 40, []⟩, 0, false, 50⟩

/-- The first reply comes too late, the others in time. -/
def firstReplyLate : Nat → Fate
  | 0 => .failed (some accepting) (.timeout "read_response" 2000) (.live [.ok])
  | _ => .answered accepting

theorem handleCommand_executes_once_session :
    Request.relative .next = true ∧
      timesExecuted .next session
        (handleCommand (fun _ => .ok ()) (fun _ => .answered accepting) .next session).2 = 1 :=
  ⟨rfl, ((handleCommand_executes_once (fun _ => .ok ()) (fun _ => .answered accepting) .next
    session .next rfl).2.2.2 rfl rfl rfl).2 rfl⟩

/-- One `next` of the operator skips two songs. -/
theorem next_executed_twice :
    (handleCommand (fun _ => .ok ()) firstReplyLate .next session).1 = .ok () ∧
      timesExecuted .next session
        (handleCommand (fun _ => .ok ()) firstReplyLate .next session).2 = 2 := by
  decide

end EvoAudio.Playback.Commands
