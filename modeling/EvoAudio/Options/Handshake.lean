import EvoAudio.Lib.Histories
import EvoAudio.Lib.Machine
import EvoAudio.Options.Transition
import Mathlib.Algebra.Order.Group.Nat
import Mathlib.Data.List.Nodup

/-!
# The envelope handshake

The orchestrator publishes a request in the background and waits for the warden's subject to
say that it was observed. The warden takes what it receives of the requests one after the other:
it pauses or resumes the custody that it finds, and says so if that has worked. Of the two
subjects nothing is assumed but that they deliver what was published: late, in another order,
again, or not at all.
-/

namespace EvoAudio.Options

open Machine Histories

-- ---------------------------------------------------------------------------
-- The two parties
-- ---------------------------------------------------------------------------

structure EnvelopeRequested where
  v : Nat
  generation : UInt64
  requestedState : EnvelopeState
  requestedAtMs : UInt64
deriving DecidableEq, Repr

def envelopePayloadVersion : Nat := 1

/-- The seed of the subject of the requests. -/
def initialRequested : EnvelopeRequested := ⟨envelopePayloadVersion, 0, .unmuted, 0⟩

/-- The seed of the subject of the observations. -/
def initialObserved : EnvelopeObserved := ⟨envelopePayloadVersion, 0, .unmuted, 0⟩

/-- What `publish_envelope_observed` publishes for a request. -/
def EnvelopeRequested.observed (req : EnvelopeRequested) (observedAtMs : UInt64) :
    EnvelopeObserved :=
  ⟨envelopePayloadVersion, req.generation, req.requestedState, observedAtMs⟩

/-- `PlaybackCommand::Pause`'s argument. -/
def pauseArg (state : EnvelopeState) : Bool := state == .muted

inductive HandshakeEvent (κ : Type) where
  | requested (generation : UInt64) (state : EnvelopeState)
  /-- The command has worked in the custody. -/
  | paused (custody : κ) (pause : Bool) (generation : UInt64)
  /-- There was no custody to command. -/
  | idle (generation : UInt64)
  | observed (generation : UInt64) (state : EnvelopeState)
  | acknowledged (generation : UInt64) (state : EnvelopeState)
deriving DecidableEq, Repr

/-- Where the warden's subscriber waits: for an update, for a custody's answer to a command, or
for its publication. -/
inductive Warden (κ : Type) where
  | receiving
  | commanding (req : EnvelopeRequested) (custody : κ)
  | publishing (req : EnvelopeRequested)
deriving DecidableEq, Repr

def Warden.isReceiving : Warden κ → Bool
  | .receiving => true
  | .commanding .. | .publishing _ => false

structure Handshake (κ : Type) where
  generation : UInt64
  /-- The publications that are under way in the background. -/
  spawned : List EnvelopeRequested
  waits : List (UInt64 × EnvelopeState)
  /-- All that was ever published of the one subject and of the other. -/
  requests : List EnvelopeRequested
  observations : List EnvelopeObserved
  activeCommandSender : Option κ
  warden : Warden κ
  /-- What has happened, the newest in front. -/
  history : List (HandshakeEvent κ)
deriving DecidableEq, Repr

def Handshake.initial : Handshake κ where
  generation := 0
  spawned := []
  waits := []
  requests := [initialRequested]
  observations := [initialObserved]
  activeCommandSender := none
  warden := .receiving
  history := []

inductive HandshakeStep (κ : Type) where
  | request (state : EnvelopeState) (atMs : UInt64)
  /-- A publication in the background ends: the request is out, or it is not. -/
  | publish (req : EnvelopeRequested) (out : Bool)
  | custody (sender : Option κ)
  | receive (req : EnvelopeRequested)
  | commandReturns (ok : Bool)
  | publishObserved (ok : Bool) (atMs : UInt64)
  /-- A wait ends with what it has received of the observations. -/
  | await (generation : UInt64) (state : EnvelopeState) (stream : List Received)
deriving DecidableEq, Repr

/-- A receiver's stream brings nothing but what was published. -/
def Received.published (observations : List EnvelopeObserved) : Received → Bool
  | .update (some observed) => observed ∈ observations
  | .update none | .lagged | .closed | .elapsed => true

variable {κ : Type} (timeoutMs : Nat) (canonicalId : List Char)

def handshake (s : Handshake κ) : HandshakeStep κ → Option (Handshake κ)
  | .request state atMs =>
    let generation := s.generation + 1
    some { s with
      generation
      spawned := ⟨envelopePayloadVersion, generation, state, atMs⟩ :: s.spawned
      waits := (generation, state) :: s.waits
      history := .requested generation state :: s.history }
  | .publish req out =>
    if req ∈ s.spawned then
      some { s with
        spawned := s.spawned.erase req
        requests := if out then req :: s.requests else s.requests }
    else none
  | .custody sender => some { s with activeCommandSender := sender }
  | .receive req =>
    if s.warden.isReceiving ∧ req ∈ s.requests then
      if req.generation = 0 then some s
      else some (s.activeCommandSender.elim
        { s with warden := .publishing req, history := .idle req.generation :: s.history }
        fun custody => { s with warden := .commanding req custody })
    else none
  | .commandReturns ok =>
    match s.warden with
    | .commanding req custody =>
      if ok then
        some { s with
          warden := .publishing req
          history := .paused custody (pauseArg req.requestedState) req.generation :: s.history }
      else some { s with warden := .receiving }
    | .receiving | .publishing _ => none
  | .publishObserved ok atMs =>
    match s.warden with
    | .publishing req =>
      if ok then
        some { s with
          warden := .receiving
          observations := req.observed atMs :: s.observations
          history := .observed req.generation req.requestedState :: s.history }
      else some { s with warden := .receiving }
    | .receiving | .commanding .. => none
  | .await generation state stream =>
    if (generation, state) ∈ s.waits ∧ stream.all (·.published s.observations) then
      let acknowledged :=
        (recvAck timeoutMs canonicalId generation state stream).1.toOption.isSome
      some { s with
        waits := s.waits.erase (generation, state)
        history :=
          if acknowledged then .acknowledged generation state :: s.history else s.history }
    else none

-- ---------------------------------------------------------------------------
-- What explains an event
-- ---------------------------------------------------------------------------

variable {timeoutMs canonicalId}

/-- The event is the warden's doing for a request: the custody paused or resumed as requested,
or nothing to do. -/
def HandshakeEvent.Handles (generation : UInt64) (state : EnvelopeState)
    (e : HandshakeEvent κ) : Prop :=
  e = .idle generation ∨ ∃ custody, e = .paused custody (pauseArg state) generation

/-- What is behind an event when it happens. -/
def explains : HandshakeEvent κ → List (HandshakeEvent κ) → Prop
  | .requested generation _, before => ∀ state, .requested generation state ∉ before
  | .paused _ pause generation, before =>
    ∃ state, .requested generation state ∈ before ∧ pause = pauseArg state
  | .idle generation, before => ∃ state, .requested generation state ∈ before
  | .observed generation state, before =>
    .requested generation state ∈ before ∧ ∃ e ∈ before, e.Handles generation state
  | .acknowledged generation state, before =>
    .observed generation state ∈ before ∧ ∀ state', .acknowledged generation state' ∉ before

/-- A generation is requested once. -/
theorem requested_unique {history : List (HandshakeEvent κ)} (h : Explained explains history)
    (hleft : .requested generation state ∈ history)
    (hright : .requested generation state' ∈ history) : state = state' := by
  induction history with
  | nil => cases hleft
  | cons e before ih =>
    obtain ⟨he, hbefore⟩ := h
    rcases List.mem_cons.mp hleft with rfl | hl
    · rcases List.mem_cons.mp hright with heq | hr
      · cases heq
        rfl
      · exact absurd hr (he state')
    · rcases List.mem_cons.mp hright with rfl | hr
      · exact absurd hl (he state)
      · exact ih hbefore hl hr

theorem pauseArg_inj {state state' : EnvelopeState} (h : pauseArg state = pauseArg state') :
    state = state' := by
  cases state <;> cases state' <;> simp_all [pauseArg]

/-- An observation has the request and what the warden did for it behind it, in this order. -/
theorem handled_of_observed {history : List (HandshakeEvent κ)} (h : Explained explains history)
    (hmem : .observed generation state ∈ history) :
    ∃ later handled earlier, history = later ++ handled :: earlier ∧
      handled.Handles generation state ∧ .requested generation state ∈ earlier := by
  obtain ⟨after, before, rfl, hrequested, handled, hhandled, hhandles⟩ := h.of_mem hmem
  obtain ⟨later, earlier, rfl⟩ := List.append_of_mem hhandled
  refine ⟨after ++ .observed generation state :: later, handled, earlier, by simp, hhandles, ?_⟩
  have hunique : ∀ state', .requested generation state' ∈ earlier → state' = state := by
    intro state' hstate'
    refine requested_unique h (List.mem_append_right _ (List.mem_cons_of_mem _ ?_))
      (List.mem_append_right _ (List.mem_cons_of_mem _ hrequested))
    exact List.mem_append_right _ (List.mem_cons_of_mem _ hstate')
  have hsplit : after ++ .observed generation state :: (later ++ handled :: earlier) =
      (after ++ .observed generation state :: later) ++ handled :: earlier := by simp
  rw [hsplit] at h
  rcases hhandles with rfl | ⟨custody, rfl⟩
  · obtain ⟨state', hstate'⟩ := h.at
    rwa [← hunique state' hstate']
  · obtain ⟨state', hstate', -⟩ := h.at
    rwa [← hunique state' hstate']

/-- All that is under way is due to a request or to the warden's doing. -/
structure Backed (history : List (HandshakeEvent κ)) (s : Handshake κ) : Prop where
  spawned : ∀ req ∈ s.spawned, .requested req.generation req.requestedState ∈ history
  requests : ∀ req ∈ s.requests, req.generation ≠ 0 →
    .requested req.generation req.requestedState ∈ history
  commanding : ∀ req custody, s.warden = .commanding req custody →
    .requested req.generation req.requestedState ∈ history
  publishing : ∀ req, s.warden = .publishing req →
    .requested req.generation req.requestedState ∈ history ∧
      ∃ e ∈ history, e.Handles req.generation req.requestedState
  observations : ∀ observed ∈ s.observations, observed.generation ≠ 0 →
    .observed observed.generation observed.observedState ∈ history
  waits : ∀ wait ∈ s.waits, .requested wait.1 wait.2 ∈ history

theorem Backed.later {s : Handshake κ} (h : Backed history s) (e : HandshakeEvent κ) :
    Backed (e :: history) s where
  spawned req hreq := List.mem_cons_of_mem _ (h.spawned req hreq)
  requests req hreq hgeneration := List.mem_cons_of_mem _ (h.requests req hreq hgeneration)
  commanding req custody hwarden := List.mem_cons_of_mem _ (h.commanding req custody hwarden)
  publishing req hwarden := by
    obtain ⟨hrequested, handled, hmem, hhandles⟩ := h.publishing req hwarden
    exact ⟨List.mem_cons_of_mem _ hrequested, handled, List.mem_cons_of_mem _ hmem, hhandles⟩
  observations observed hobserved hgeneration :=
    List.mem_cons_of_mem _ (h.observations observed hobserved hgeneration)
  waits wait hwait := List.mem_cons_of_mem _ (h.waits wait hwait)

/-- What every run keeps, as long as the generation does not wrap. -/
structure Sound (s : Handshake κ) : Prop where
  explained : Explained explains s.history
  counted : ∀ generation state, .requested generation state ∈ s.history →
    generation ≠ 0 ∧ generation ≤ s.generation
  backed : Backed s.history s
  pending : ∀ wait ∈ s.waits, ∀ state, .acknowledged wait.1 state ∉ s.history
  distinct : (s.waits.map Prod.fst).Nodup

theorem sound_initial : Sound (Handshake.initial : Handshake κ) where
  explained := trivial
  counted := by simp [Handshake.initial]
  backed := by constructor <;> simp [Handshake.initial, initialRequested, initialObserved]
  pending := by simp [Handshake.initial]
  distinct := by simp [Handshake.initial]

theorem Sound.counted_later {s : Handshake κ} {e : HandshakeEvent κ} (hs : Sound s)
    (he : ∀ generation state, HandshakeEvent.requested generation state ≠ e)
    (generation : UInt64) (state : EnvelopeState)
    (hmem : .requested generation state ∈ e :: s.history) :
    generation ≠ 0 ∧ generation ≤ s.generation :=
  hs.counted generation state ((List.mem_cons.mp hmem).resolve_left (he generation state))

theorem Sound.pending_later {s : Handshake κ} {e : HandshakeEvent κ} (hs : Sound s)
    (he : ∀ generation state, HandshakeEvent.acknowledged generation state ≠ e) :
    ∀ wait ∈ s.waits, ∀ state, .acknowledged wait.1 state ∉ e :: s.history :=
  fun wait hwait state hmem =>
    hs.pending wait hwait state ((List.mem_cons.mp hmem).resolve_left (he wait.1 state))

/-- What is acknowledged was requested. -/
theorem requested_of_acknowledged {history : List (HandshakeEvent κ)}
    (h : Explained explains history) (hmem : .acknowledged generation state ∈ history) :
    .requested generation state ∈ history := by
  obtain ⟨after, before, rfl, hobserved, -⟩ := h.of_mem hmem
  obtain ⟨after', before', hsplit, hrequested, -⟩ :=
    h.of_mem (List.mem_append_right _ (List.mem_cons_of_mem _ hobserved))
  rw [hsplit]
  exact List.mem_append_right _ (List.mem_cons_of_mem _ hrequested)

/-- A receiver that finds what it waits for has been sent it. -/
theorem mem_of_recvAck {observations : List EnvelopeObserved} {stream : List Received}
    (hstream : stream.all (·.published observations) = true)
    (h : (recvAck timeoutMs canonicalId generation state stream).1.toOption.isSome = true) :
    ∃ observed ∈ observations, observed.generation = generation ∧
      observed.observedState = state := by
  induction stream with
  | nil => simp [recvAck, Except.toOption] at h
  | cons received rest ih =>
    rw [List.all_cons, Bool.and_eq_true] at hstream
    cases received with
    | update observed =>
      rw [recvAck] at h
      split_ifs at h with hmatches
      · obtain ⟨found, rfl, hfound⟩ := Option.any_eq_true _ _ |>.mp hmatches
        refine ⟨found, by simpa [Received.published] using hstream.1, ?_⟩
        simpa [observationMatches] using hfound
      · exact ih hstream.2 h
    | lagged => exact ih hstream.2 h
    | closed => simp [recvAck, Except.toOption] at h
    | elapsed => simp [recvAck, Except.toOption] at h

/-- What a step of the handshake can do. -/
inductive Moves (s : Handshake κ) : HandshakeStep κ → Handshake κ → Prop
  | request : Moves s (.request state atMs) { s with
      generation := s.generation + 1
      spawned := ⟨envelopePayloadVersion, s.generation + 1, state, atMs⟩ :: s.spawned
      waits := (s.generation + 1, state) :: s.waits
      history := .requested (s.generation + 1) state :: s.history }
  | published (hmem : req ∈ s.spawned) : Moves s (.publish req true) { s with
      spawned := s.spawned.erase req
      requests := req :: s.requests }
  | unpublished : Moves s (.publish req false) { s with spawned := s.spawned.erase req }
  | custody : Moves s (.custody sender) { s with activeCommandSender := sender }
  | skip (hseed : req.generation = 0) : Moves s (.receive req) s
  | idle (hmem : req ∈ s.requests) (hgeneration : req.generation ≠ 0) :
      Moves s (.receive req) { s with
        warden := .publishing req
        history := .idle req.generation :: s.history }
  | command (hmem : req ∈ s.requests) (hgeneration : req.generation ≠ 0)
      (hsender : s.activeCommandSender = some custody) :
      Moves s (.receive req) { s with warden := .commanding req custody }
  | paused (hwarden : s.warden = .commanding req custody) :
      Moves s (.commandReturns true) { s with
        warden := .publishing req
        history := .paused custody (pauseArg req.requestedState) req.generation :: s.history }
  | refused (hwarden : s.warden = .commanding req custody) :
      Moves s (.commandReturns false) { s with warden := .receiving }
  | observed (hwarden : s.warden = .publishing req) :
      Moves s (.publishObserved true atMs) { s with
        warden := .receiving
        observations := req.observed atMs :: s.observations
        history := .observed req.generation req.requestedState :: s.history }
  | unobserved (hwarden : s.warden = .publishing req) :
      Moves s (.publishObserved false atMs) { s with warden := .receiving }
  | acknowledged (hmem : (generation, state) ∈ s.waits) (hobserved : observed ∈ s.observations)
      (hgeneration : observed.generation = generation) (hstate : observed.observedState = state) :
      Moves s (.await generation state stream) { s with
        waits := s.waits.erase (generation, state)
        history := .acknowledged generation state :: s.history }
  | unacknowledged : Moves s (.await generation state stream) { s with
      waits := s.waits.erase (generation, state) }

theorem moves_of_handshake {s s' : Handshake κ} {a : HandshakeStep κ}
    (h : handshake timeoutMs canonicalId s a = some s') : Moves s a s' := by
  cases a with
  | request state atMs =>
    obtain rfl := Option.some.inj h
    exact .request
  | publish req out =>
    by_cases hmem : req ∈ s.spawned
    · rw [handshake, if_pos hmem] at h
      obtain rfl := Option.some.inj h
      cases out
      · exact .unpublished
      · exact .published hmem
    · rw [handshake, if_neg hmem] at h
      cases h
  | custody sender =>
    obtain rfl := Option.some.inj h
    exact .custody
  | receive req =>
    simp only [handshake] at h
    split_ifs at h with henabled hseed
    · obtain rfl := Option.some.inj h
      exact .skip hseed
    · obtain rfl := Option.some.inj h
      cases hsender : s.activeCommandSender with
      | none => simpa [hsender] using Moves.idle (s := s) henabled.2 hseed
      | some custody => simpa [hsender] using Moves.command (s := s) henabled.2 hseed hsender
  | commandReturns ok =>
    simp only [handshake] at h
    split at h
    · next req custody hwarden =>
      cases ok
      · obtain rfl := Option.some.inj h
        exact .refused hwarden
      · obtain rfl := Option.some.inj h
        exact .paused hwarden
    · cases h
    · cases h
  | publishObserved ok atMs =>
    simp only [handshake] at h
    split at h
    · next req hwarden =>
      cases ok
      · obtain rfl := Option.some.inj h
        exact .unobserved hwarden
      · obtain rfl := Option.some.inj h
        exact .observed hwarden
    · cases h
    · cases h
  | await generation state stream =>
    simp only [handshake] at h
    split_ifs at h with henabled hack
    · obtain rfl := Option.some.inj h
      obtain ⟨observed, hobserved, hgeneration, hstate⟩ := mem_of_recvAck henabled.2 hack
      exact .acknowledged henabled.1 hobserved hgeneration hstate
    · obtain rfl := Option.some.inj h
      exact .unacknowledged

def HandshakeStep.isRequest : HandshakeStep κ → Bool
  | .request .. => true
  | _ => false

/-- The counter does not wrap: `2^64` requests are never made. -/
def Unwrapped (s : Handshake κ) (a : HandshakeStep κ) : Prop :=
  a.isRequest = true → s.generation.toNat + 1 < 2 ^ 64

instance (s : Handshake κ) (a : HandshakeStep κ) : Decidable (Unwrapped s a) :=
  inferInstanceAs (Decidable (_ → _))

theorem sound_request {s : Handshake κ} (hs : Sound s)
    (hunwrapped : s.generation.toNat + 1 < 2 ^ 64) :
    Sound { s with
      generation := s.generation + 1
      spawned := ⟨envelopePayloadVersion, s.generation + 1, state, atMs⟩ :: s.spawned
      waits := (s.generation + 1, state) :: s.waits
      history := .requested (s.generation + 1) state :: s.history } := by
  have hnext : (s.generation + 1).toNat = s.generation.toNat + 1 := by
    rw [UInt64.toNat_add]
    exact Nat.mod_eq_of_lt hunwrapped
  have hne : s.generation + 1 ≠ 0 := by
    intro hzero
    rw [hzero] at hnext
    simp at hnext
  have hfresh : ∀ state', .requested (s.generation + 1) state' ∉ s.history := by
    intro state' hmem
    have hle := UInt64.le_iff_toNat_le.mp (hs.counted _ _ hmem).2
    omega
  refine ⟨⟨hfresh, hs.explained⟩, ?_, ?_, ?_, ?_⟩
  · intro generation state' hmem
    rcases List.mem_cons.mp hmem with heq | hmem
    · cases heq
      exact ⟨hne, UInt64.le_refl _⟩
    · obtain ⟨hzero, hle⟩ := hs.counted _ _ hmem
      refine ⟨hzero, UInt64.le_iff_toNat_le.mpr ?_⟩
      exact Nat.le_trans (UInt64.le_iff_toNat_le.mp hle) (hnext ▸ Nat.le_succ _)
  · have hlater := hs.backed.later (.requested (s.generation + 1) state)
    refine { hlater with spawned := ?_, waits := ?_ }
    · exact List.forall_mem_cons.mpr ⟨List.mem_cons_self, hlater.spawned⟩
    · exact List.forall_mem_cons.mpr ⟨List.mem_cons_self, hlater.waits⟩
  · refine List.forall_mem_cons.mpr ⟨fun state' hmem => ?_, fun wait hwait state' hmem => ?_⟩
    · refine hfresh state' (requested_of_acknowledged hs.explained ?_)
      simpa using hmem
    · exact hs.pending wait hwait state' (by simpa using hmem)
  · refine List.nodup_cons.mpr ⟨fun hmem => ?_, hs.distinct⟩
    obtain ⟨wait, hwait, heq⟩ := List.mem_map.mp hmem
    have hrequested := hs.backed.waits wait hwait
    rw [show wait.1 = s.generation + 1 from heq] at hrequested
    exact hfresh wait.2 hrequested

theorem sound_step {s s' : Handshake κ} {a : HandshakeStep κ} (hs : Sound s)
    (hunwrapped : Unwrapped s a) (h : handshake timeoutMs canonicalId s a = some s') :
    Sound s' := by
  cases moves_of_handshake h with
  | request => exact sound_request hs (hunwrapped rfl)
  | @published req hmem =>
    refine { hs with backed := { hs.backed with spawned := ?_, requests := ?_ } }
    · exact fun other hother => hs.backed.spawned other (List.mem_of_mem_erase hother)
    · exact List.forall_mem_cons.mpr ⟨fun _ => hs.backed.spawned req hmem, hs.backed.requests⟩
  | unpublished =>
    refine { hs with backed := { hs.backed with spawned := ?_ } }
    exact fun other hother => hs.backed.spawned other (List.mem_of_mem_erase hother)
  | custody => exact { hs with backed := { hs.backed with } }
  | skip => exact hs
  | @idle req hmem hgeneration =>
    have hrequested := hs.backed.requests req hmem hgeneration
    refine ⟨⟨⟨_, hrequested⟩, hs.explained⟩, ?_, ?_, ?_, hs.distinct⟩
    · exact hs.counted_later (by simp)
    · refine { hs.backed.later _ with commanding := by simp, publishing := ?_ }
      intro other hother
      obtain rfl := Warden.publishing.inj hother
      exact ⟨List.mem_cons_of_mem _ hrequested, _, List.mem_cons_self, .inl rfl⟩
    · exact hs.pending_later (by simp)
  | @command req custody hmem hgeneration hsender =>
    refine { hs with backed := { hs.backed with commanding := ?_, publishing := by simp } }
    intro other custody' hother
    obtain ⟨rfl, -⟩ := Warden.commanding.inj hother
    exact hs.backed.requests req hmem hgeneration
  | @paused req custody hwarden =>
    have hrequested := hs.backed.commanding req custody hwarden
    refine ⟨⟨⟨_, hrequested, rfl⟩, hs.explained⟩, ?_, ?_, ?_, hs.distinct⟩
    · exact hs.counted_later (by simp)
    · refine { hs.backed.later _ with commanding := by simp, publishing := ?_ }
      intro other hother
      obtain rfl := Warden.publishing.inj hother
      exact ⟨List.mem_cons_of_mem _ hrequested, _, List.mem_cons_self, .inr ⟨custody, rfl⟩⟩
    · exact hs.pending_later (by simp)
  | refused =>
    exact { hs with backed := { hs.backed with commanding := by simp, publishing := by simp } }
  | @observed req atMs hwarden =>
    obtain ⟨hrequested, handled, hhandled, hhandles⟩ := hs.backed.publishing req hwarden
    refine ⟨⟨⟨hrequested, handled, hhandled, hhandles⟩, hs.explained⟩, ?_, ?_, ?_, hs.distinct⟩
    · exact hs.counted_later (by simp)
    · have hlater := hs.backed.later (.observed req.generation req.requestedState)
      refine { hlater with commanding := by simp, publishing := by simp, observations := ?_ }
      exact List.forall_mem_cons.mpr ⟨fun _ => List.mem_cons_self, hlater.observations⟩
    · exact hs.pending_later (by simp)
  | unobserved =>
    exact { hs with backed := { hs.backed with commanding := by simp, publishing := by simp } }
  | @acknowledged generation state observed stream hmem hobserved hgeneration hstate =>
    have hne := (hs.counted _ _ (hs.backed.waits _ hmem)).1
    have hseen := hs.backed.observations observed hobserved (hgeneration ▸ hne)
    rw [hgeneration, hstate] at hseen
    refine ⟨⟨⟨hseen, hs.pending _ hmem⟩, hs.explained⟩, ?_, ?_, ?_, ?_⟩
    · exact hs.counted_later (by simp)
    · have hlater := hs.backed.later (.acknowledged generation state)
      exact { hlater with
        waits := fun wait hwait => hlater.waits wait (List.mem_of_mem_erase hwait) }
    · intro wait hwait state' hack
      rcases List.mem_cons.mp hack with heq | hack
      · obtain ⟨hne, hwait⟩ := (List.Nodup.mem_erase_iff hs.distinct.of_map).mp hwait
        obtain ⟨hsame, -⟩ := HandshakeEvent.acknowledged.inj heq
        exact absurd (List.inj_on_of_nodup_map hs.distinct hwait hmem hsame) hne
      · exact hs.pending wait (List.mem_of_mem_erase hwait) state' hack
    · exact hs.distinct.sublist (List.erase_sublist.map _)
  | unacknowledged =>
    refine { hs with
      backed := { hs.backed with waits := ?_ }, pending := ?_, distinct := ?_ }
    · exact fun wait hwait => hs.backed.waits wait (List.mem_of_mem_erase hwait)
    · exact fun wait hwait => hs.pending wait (List.mem_of_mem_erase hwait)
    · exact hs.distinct.sublist (List.erase_sublist.map _)

theorem sound_of_run {s : Handshake κ}
    (hm : Meets (handshake timeoutMs canonicalId) Unwrapped .initial steps)
    (h : exec (handshake timeoutMs canonicalId) .initial steps = some s) : Sound s :=
  exec_invariant (fun hs hok hstep => sound_step hs hok hstep) sound_initial hm h

/-- Whatever the subjects do with what is published, an acknowledgement has its request behind
it and, between the two, the custody paused or resumed as requested, or no custody found. A
request is acknowledged once. -/
theorem handled_of_acknowledged {s : Handshake κ}
    (hm : Meets (handshake timeoutMs canonicalId) Unwrapped .initial steps)
    (h : exec (handshake timeoutMs canonicalId) .initial steps = some s)
    (hsplit : s.history = after ++ .acknowledged generation state :: before) :
    (∃ later handled earlier, before = later ++ handled :: earlier ∧
      handled.Handles generation state ∧ .requested generation state ∈ earlier) ∧
    ∀ state', .acknowledged generation state' ∉ after ++ before := by
  have hexplained := (sound_of_run hm h).explained
  rw [hsplit] at hexplained
  obtain ⟨hobserved, hbefore⟩ := hexplained.at
  refine ⟨handled_of_observed hexplained.behind hobserved, fun state' hmem => ?_⟩
  rcases List.mem_append.mp hmem with hafter | hmem
  · obtain ⟨newer, older, rfl⟩ := List.append_of_mem hafter
    rw [List.append_assoc] at hexplained
    exact hexplained.at.2 state (List.mem_append_right _ List.mem_cons_self)
  · exact hbefore state' hmem

section Sample

/-- A request to mute, with a custody to be paused. -/
def mute : List (HandshakeStep Nat) :=
  [.custody (some 7), .request .muted 100, .publish ⟨1, 1, .muted, 100⟩ true,
    .receive ⟨1, 1, .muted, 100⟩, .commandReturns true, .publishObserved true 200,
    .await 1 .muted [.update (some initialObserved), .update (some ⟨1, 1, .muted, 200⟩)]]

theorem exec_mute : ∃ s, exec (handshake 5000 []) .initial mute = some s ∧
    s.history = [.acknowledged 1 .muted, .observed 1 .muted, .paused 7 true 1,
      .requested 1 .muted] := by
  obtain ⟨s, hs, hp⟩ := exec_of_any (handshake 5000 []) .initial mute (fun s => s.history ==
    [.acknowledged 1 .muted, .observed 1 .muted, .paused 7 true 1, .requested 1 .muted])
    (by decide)
  exact ⟨s, hs, by simpa using hp⟩

theorem handled_of_mute : ∃ (later earlier : List (HandshakeEvent Nat)) (handled : _),
    [.observed 1 .muted, .paused 7 true 1, .requested 1 .muted] = later ++ handled :: earlier ∧
      handled.Handles 1 .muted ∧ .requested 1 .muted ∈ earlier := by
  obtain ⟨s, hs, hhistory⟩ := exec_mute
  have hsplit : s.history = [] ++ .acknowledged 1 .muted ::
    [.observed 1 .muted, .paused 7 true 1, .requested 1 .muted] := hhistory
  obtain ⟨later, handled, earlier, h⟩ := (handled_of_acknowledged (by decide) hs hsplit).1
  exact ⟨later, earlier, handled, h⟩

end Sample

end EvoAudio.Options
