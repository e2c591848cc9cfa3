import EvoAudio.Artwork.Coalescer
import EvoAudio.Artwork.Eviction
import EvoAudio.Artwork.Providers

/-!
# Resolves and forgets of one target

`resolve` and `forget` of `ArtworkCascade`, for one scheme and value and any
number of calls at once. A resolve asks the negative cache, the index (the exact
size, then any larger one), the memo of the coalescer and the call in flight
before it dispatches to a provider; a forget evicts these stores one after
another, size by size. A step is one critical section or one call to the file
system or the asset cache, and whether such a call fails is an argument.

Forgets are numbered as they are called. An outcome carries its `Origin`: how
many forgets had been called when the dispatch began that it is the outcome of.
The steps do not read the origins, nor the marks that forgets leave behind.
-/

namespace EvoAudio.Artwork.Cascade

/-- `none` is the origin of what no dispatch answered. -/
abbrev Origin := Option Nat

/-- `DEFAULT_TTL` of the negative cache, in milliseconds. -/
def negativeTtl : Nat := 120000

/-- `TRANSIENT_MEMO_TTL` in milliseconds. -/
def transientMemoTtl : Nat := 300000

structure NegativeEntry where
  note : NegativeNote
  expiresAt : Nat
  origin : Origin
  deriving DecidableEq, Repr

def NegativeEntry.isFresh (now : Nat) (entry : NegativeEntry) : Bool := now < entry.expiresAt

/-- A file of the index. -/
structure Cell where
  body : Body
  origin : Origin
  deriving DecidableEq, Repr

/-- The stores that a forget evicts from. -/
inductive Store where
  | negative
  | memo
  | row
  deriving DecidableEq, Repr

/-- What the calls share, by size where the source has a key. -/
structure Shared where
  now : Nat
  negative : List Char → Option NegativeEntry
  slot : List Char → Slot (ResolveOutcome × Origin)
  entry : List Char → Option Cell
  /-- The `.tmp` files. -/
  temp : List Char → Option Cell
  assets : Finset (List Char)
  /-- How many forgets have been called. -/
  called : Nat
  /-- The highest number of a forget that has returned. -/
  forgotten : Nat
  /-- The highest number of a forget that has evicted a store at a size. -/
  wiped : Store → List Char → Nat

-- ---------------------------------------------------------------------------
-- Effects
-- ---------------------------------------------------------------------------

/-- What a step does to the stores. The number of a drop is that of the forget
that does it, and 0 for a resolve. -/
inductive Effect where
  | nothing
  | dropNote (size : List Char) (number : Nat)
  | putNote (size : List Char) (note : NegativeNote) (ttl : Nat) (origin : Origin)
  | dropMemo (size : List Char) (number : Nat)
  | putMemo (size : List Char) (outcome : ResolveOutcome) (origin : Origin)
  | takeSlot (size : List Char) (flight : Nat)
  | freeSlot (size : List Char) (flight : Nat) (landed : Option (ResolveOutcome × Origin))
  | removeRow (size : List Char) (number : Nat)
  | writeTemp (size : List Char) (cell : Cell)
  | renameTemp (size : List Char)
  | deleteBytes (hash : List Char)
  | finishForget (number : Nat)

namespace Shared

def modifySlot (s : Shared) (size : List Char)
    (f : Slot (ResolveOutcome × Origin) → Slot (ResolveOutcome × Origin)) : Shared :=
  { s with slot := Function.update s.slot size (f (s.slot size)) }

def mark (s : Shared) (store : Store) (size : List Char) (number : Nat) : Shared :=
  { s with
    wiped := Function.update s.wiped store
      (Function.update (s.wiped store) size (max (s.wiped store size) number)) }

/-- A row of the index, where there is an index and the read succeeds. -/
def row (wiring : Wiring) (fails : Bool) (s : Shared) (size : List Char) :
    Option (IndexHit × Origin) :=
  if wiring.index && !fails then
    (s.entry size).bind fun cell => cell.body.hit.map (·, cell.origin)
  else none

end Shared

def Effect.apply (s : Shared) : Effect → Shared
  | .nothing => s
  | .dropNote size number =>
    { s.mark .negative size number with negative := Function.update s.negative size none }
  | .putNote size note ttl origin =>
    { s with negative := Function.update s.negative size (some ⟨note, s.now + ttl, origin⟩) }
  | .dropMemo size number => (s.mark .memo size number).modifySlot size Slot.forget
  | .putMemo size outcome origin =>
    s.modifySlot size (Slot.memoize resolveMemoTtl s.now (outcome, origin))
  | .takeSlot size flight => s.modifySlot size fun slot => { slot with inflight := some flight }
  | .freeSlot size flight landed => s.modifySlot size (Slot.release flight landed)
  | .removeRow size number =>
    { s.mark .row size number with entry := Function.update s.entry size none }
  | .writeTemp size cell => { s with temp := Function.update s.temp size (some cell) }
  | .renameTemp size =>
    match s.temp size with
    | some cell =>
      { s with
        entry := Function.update s.entry size (some cell)
        temp := Function.update s.temp size none }
    | none => s
  | .deleteBytes hash => { s with assets := s.assets.erase hash }
  | .finishForget number => { s with forgotten := max s.forgotten number }

-- ---------------------------------------------------------------------------
-- The steps of a call
-- ---------------------------------------------------------------------------

/-- Where `forget_one_size` has got to. -/
inductive Stage where
  | negative
  | memo
  | read
  | remove (hash : Option (List Char))
  | delete (hash : List Char)
  deriving DecidableEq, Repr

/-- Where a resolve has got to. -/
inductive Point where
  | negativeCheck
  | exactGet
  /-- The reads of `get_any_size` that are left. -/
  | anyGet (candidates : List (List Char))
  /-- A row of other rules is evicted. `exact` is the arm of the exact size. -/
  | evict (exact : Bool) (served : List Char) (stage : Stage)
  | probe (exact : Bool) (served hash : List Char) (origin : Origin)
  /-- The bytes were missing, and the row is to go. -/
  | drift (exact : Bool) (served : List Char)
  | memoCheck
  | inflightCheck
  | waiting (flight since : Nat)
  /-- `admit_online` for a tier. -/
  | admitting (tier : Tier)
  /-- The dispatch of a tier, with the number of forgets called when it began. -/
  | dispatched (tier : Tier) (began : Nat)
  | notePut (note : NegativeNote) (outcome : ResolveOutcome) (origin : Origin)
  | fetched (outcome : ResolveOutcome) (origin : Origin)
  | memoised (outcome : ResolveOutcome) (origin : Origin)
  /-- The `put` of `remember_positive`: its directory, its write and its rename. -/
  | directory (hash : List Char) (provider : Option (List Char)) (origin : Origin)
  | write (hash : List Char) (provider : Option (List Char)) (origin : Origin)
  | rename (hash : List Char) (provider : Option (List Char)) (origin : Origin)
  | noteTransient (outcome : CascadeOutcome) (origin : Origin)
  | returned (outcome : CascadeOutcome) (origin : Origin)
  | cancelled
  deriving DecidableEq, Repr

/-- The effect of a stage, and the next one. -/
def evictNext (wiring : Wiring) (s : Shared) (size : List Char) (number : Nat) (fails : Bool) :
    Stage → Effect × Option Stage
  | .negative => (.dropNote size number, some .memo)
  | .memo => (.dropMemo size number, if wiring.index then some .read else none)
  | .read => (.nothing, some (.remove ((s.row wiring fails size).map (·.1.hash))))
  | .remove hash =>
    (if fails then .nothing else .removeRow size number,
      match hash with
      | some hash => if wiring.cache then some (.delete hash) else none
      | none => none)
  | .delete hash => (if fails then .nothing else .deleteBytes hash, none)

/-- The sizes that `get_any_size` reads, in order. -/
def anyCandidates (size : List Char) : List (List Char) :=
  size :: sizeFallbackOrder.filter fun candidate =>
    !decide (candidate = size) && downscales size candidate

/-- A row was read. -/
def serve (exact : Bool) (served : List Char) (hit : IndexHit) (origin : Origin) : Point :=
  if hit.version ≠ cascadeLogicVersion then .evict exact served .negative
  else .probe exact served hit.hash origin

/-- A row could not be served. -/
def unserved (exact : Bool) (size : List Char) : Point :=
  if exact then .anyGet (anyCandidates size) else .memoCheck

def provenance (size served : List Char) : List Char :=
  if served = size then provenanceResolveIndex
  else provenanceResolveIndex ++ ":size_fallback:".toList ++ served

/-- The coalescer has answered with an outcome. -/
def answered (outcome : ResolveOutcome) (origin : Origin) : Point :=
  match outcome with
  | .ok hash provider => .directory hash provider origin
  | .error reason => .noteTransient (classifyFetcherError reason) origin

/-- The fetcher starts; only the online tiers are admitted first. -/
def fetch (scheme : List Char) (called : Nat) : Point :=
  match firstTier scheme with
  | .local => .dispatched .local called
  | tier => .admitting tier

section Steps

variable (wiring : Wiring) (scheme value : List Char)

/-- The next step of the resolve with a number. -/
def next (me : Nat) (fails : Bool) (s : Shared) (size : List Char) :
    Point → Option (Effect × Point)
  | .negativeCheck =>
    let missed := if wiring.index then .exactGet else .memoCheck
    match s.negative size with
    | some entry =>
      if entry.isFresh s.now then some (.nothing, .returned (replay entry.note) entry.origin)
      else some (.dropNote size 0, missed)
    | none => some (.nothing, missed)
  | .exactGet =>
    match s.row wiring fails size with
    | some (hit, origin) => some (.nothing, serve true size hit origin)
    | none => some (.nothing, .anyGet (anyCandidates size))
  | .anyGet [] => some (.nothing, .memoCheck)
  | .anyGet (candidate :: candidates) =>
    match s.row wiring fails candidate with
    | some (hit, origin) => some (.nothing, serve false candidate hit origin)
    | none => some (.nothing, .anyGet candidates)
  | .evict exact served stage =>
    let after := evictNext wiring s served 0 fails stage
    match after.2 with
    | some stage => some (after.1, .evict exact served stage)
    | none => some (after.1, unserved exact size)
  | .probe exact served hash origin =>
    -- A probe that fails counts as present.
    if wiring.cache && !fails && !decide (hash ∈ s.assets) then
      some (.nothing, .drift exact served)
    else some (.nothing, .returned (.resolved hash (some (provenance size served))) origin)
  | .drift exact served =>
    some (if fails then .nothing else .removeRow served 0, unserved exact size)
  | .memoCheck =>
    match ((s.slot size).checkMemo s.now).1 with
    | some (outcome, origin) => some (.nothing, answered outcome origin)
    | none => some (.dropMemo size 0, .inflightCheck)
  | .inflightCheck =>
    match (s.slot size).inflight with
    | some flight => some (.nothing, .waiting flight s.now)
    | none => some (.takeSlot size me, fetch scheme s.called)
  | .waiting flight _ =>
    match (s.slot size).landed.lookup flight with
    | some (some (outcome, origin)) => some (.nothing, answered outcome origin)
    | some none => some (.nothing, .memoCheck)
    | none => none
  | .notePut note outcome origin =>
    some (.putNote size note negativeTtl origin, .fetched outcome origin)
  | .fetched outcome origin => some (.putMemo size outcome origin, .memoised outcome origin)
  | .memoised outcome origin =>
    some (.freeSlot size me (some (outcome, origin)), answered outcome origin)
  | .directory hash provider origin =>
    if wiring.index && isValidContentHash hash && !fails then
      some (.nothing, .write hash provider origin)
    else some (.nothing, .returned (.resolved hash provider) origin)
  | .write hash provider origin =>
    if fails then
      some (.writeTemp size ⟨.text [], none⟩, .returned (.resolved hash provider) origin)
    else
      some (.writeTemp size ⟨.stored cascadeLogicVersion hash, origin⟩,
        .rename hash provider origin)
  | .rename hash provider origin =>
    some (if fails then .nothing else .renameTemp size, .returned (.resolved hash provider) origin)
  | .noteTransient outcome origin =>
    match transientNote outcome with
    | some note =>
      some (.putNote size note transientMemoTtl origin, .returned outcome origin)
    | none => some (.nothing, .returned outcome origin)
  | .admitting _ => none
  | .dispatched _ _ => none
  | .returned _ _ => none
  | .cancelled => none

inductive AdmissionError where
  | deadlineElapsed (bucket : List Char) (waitedMs : Nat)
  | closedRuntime
  deriving DecidableEq, Repr

def AdmissionError.reason : AdmissionError → List Char
  | .deadlineElapsed bucket waitedMs =>
    "artwork resolve admission deadline elapsed on ".toList ++ bucket ++
      " bucket for scheme=".toList ++ scheme ++ " after ".toList ++
        (toString waitedMs).toList ++ " ms".toList
  | .closedRuntime => "artwork resolve admission runtime closed".toList

def admission (refusal : Option AdmissionError) (s : Shared) : Point → Option (Effect × Point)
  | .admitting tier =>
    match refusal with
    | some refusal => some (.nothing, .fetched (.error (refusal.reason scheme)) none)
    | none => some (.nothing, .dispatched tier s.called)
  | _ => none

def reply (reply : Reply) : Point → Option (Effect × Point)
  | .dispatched tier began =>
    match verdict scheme tier reply with
    | .done outcome (some note) => some (.nothing, .notePut note outcome (some began))
    | .done outcome none => some (.nothing, .fetched outcome (some began))
    | .online => some (.nothing, .admitting .online)
  | _ => none

def waitElapsed (size : List Char) (waitedMs : Nat) : List Char :=
  "artwork resolve coalescer wait deadline elapsed for (scheme=".toList ++ scheme ++
    ", value=".toList ++ value ++ ", size=".toList ++ size ++ ") after ".toList ++
      (toString waitedMs).toList ++ " ms — upstream provider is slow; retry".toList

/-- The timeout of a wait; a flight that has landed is received first. -/
def expire (s : Shared) (size : List Char) : Point → Option (Effect × Point)
  | .waiting flight since =>
    if ((s.slot size).landed.lookup flight).isNone && since + inflightWaitDeadline ≤ s.now then
      some (.nothing,
        .noteTransient (.coalescerDeadline (waitElapsed scheme value size (s.now - since))) none)
    else none
  | _ => none

/-- The future of a resolve is dropped where it waits. -/
def cancel (me : Nat) (size : List Char) : Point → Option (Effect × Point)
  | .negativeCheck => some (.nothing, .cancelled)
  | .exactGet => some (.nothing, .cancelled)
  | .anyGet _ => some (.nothing, .cancelled)
  | .evict _ _ _ => some (.nothing, .cancelled)
  | .probe _ _ _ _ => some (.nothing, .cancelled)
  | .drift _ _ => some (.nothing, .cancelled)
  | .waiting _ _ => some (.nothing, .cancelled)
  | .admitting _ => some (.freeSlot size me none, .cancelled)
  | .dispatched _ _ => some (.freeSlot size me none, .cancelled)
  | .directory _ _ _ => some (.nothing, .cancelled)
  | .write _ _ _ => some (.nothing, .cancelled)
  | .rename _ _ _ => some (.nothing, .cancelled)
  | _ => none

-- ---------------------------------------------------------------------------
-- Runs
-- ---------------------------------------------------------------------------

inductive Task where
  /-- A resolve, with the highest number of a forget that had returned when it started. -/
  | resolve (size : List Char) (floor : Nat) (point : Point)
  /-- A forget at a size, with the sizes that are left. -/
  | forget (number : Nat) (size : List Char) (sizes : List (List Char)) (stage : Stage)
  | returning (number : Nat)
  /-- A forget that has returned, or was dropped. -/
  | ended
  deriving DecidableEq, Repr

/-- A forget with the sizes that are left. -/
def forgetFrom (number : Nat) : List (List Char) → Task
  | [] => .returning number
  | size :: sizes => .forget number size sizes .negative

/-- What a call can do or meet next. -/
inductive Move where
  /-- Its next step, whose call fails or does not. -/
  | go (fails : Bool)
  | admission (refusal : Option AdmissionError)
  | reply (reply : Reply)
  | expire
  | cancel
  deriving DecidableEq, Repr

def resolveMove (me : Nat) (s : Shared) (size : List Char) (point : Point) :
    Move → Option (Effect × Point)
  | .go fails => next wiring scheme me fails s size point
  | .admission refusal => admission scheme refusal s point
  | .reply answer => reply scheme answer point
  | .expire => expire scheme value s size point
  | .cancel => cancel me size point

def taskMove (me : Nat) (s : Shared) (move : Move) : Task → Option (Effect × Task)
  | .resolve size floor point =>
    (resolveMove wiring scheme value me s size point move).map fun after =>
      (after.1, .resolve size floor after.2)
  | .forget number size sizes stage =>
    match move with
    | .go fails =>
      let after := evictNext wiring s size number fails stage
      match after.2 with
      | some stage => some (after.1, .forget number size sizes stage)
      | none => some (after.1, forgetFrom number sizes)
    | .cancel => some (.nothing, .ended)
    | _ => none
  | .returning number =>
    match move with
    | .go _ => some (.finishForget number, .ended)
    | _ => none
  | .ended => none

inductive Action where
  | resolve (size : List Char)
  | forget (size : List Char)
  | move (i : Nat) (move : Move)
  | tick (elapsed : Nat)
  /-- The negative cache is full of other targets. -/
  | dropNote (size : List Char)
  /-- A provider stores bytes. -/
  | store (hash : List Char)
  /-- Bytes are evicted for their room, or by another target's forget. -/
  | evictBytes (hash : List Char)
  deriving DecidableEq, Repr

def step (pool : Pool Shared Task) : Action → Option (Pool Shared Task)
  | .resolve size => some (pool.spawn (.resolve size pool.shared.forgotten .negativeCheck))
  | .forget size =>
    some (({ pool with shared := { pool.shared with called := pool.shared.called + 1 } } :
      Pool Shared Task).spawn (forgetFrom (pool.shared.called + 1) (forgottenSizes size)))
  | .move i move => pool.turn (fun s task =>
      (taskMove wiring scheme value i s move task).map fun after => (after.1.apply s, after.2)) i
  | .tick elapsed =>
    some { pool with shared := { pool.shared with now := pool.shared.now + elapsed } }
  | .dropNote size => some { pool with shared := (Effect.dropNote size 0).apply pool.shared }
  | .store hash =>
    some { pool with shared := { pool.shared with assets := insert hash pool.shared.assets } }
  | .evictBytes hash => some { pool with shared := (Effect.deleteBytes hash).apply pool.shared }

/-- The service comes up with what the index and the asset cache kept. -/
def boot (entry : List Char → Option Body) (assets : Finset (List Char)) : Pool Shared Task :=
  ⟨⟨0, fun _ => none, fun _ => Slot.empty, fun size => (entry size).map (⟨·, some 0⟩),
    fun _ => none, assets, 0, 0, fun _ _ => 0⟩, []⟩

end Steps

variable {wiring : Wiring} {scheme value : List Char}

theorem step_move {pool pool' : Pool Shared Task} :
    step wiring scheme value pool (.move i move) = some pool' ↔
      ∃ task effect task', pool.tasks[i]? = some task ∧
        taskMove wiring scheme value i pool.shared move task = some (effect, task') ∧
          pool' = ⟨effect.apply pool.shared, pool.tasks.set i task'⟩ := by
  simp only [step, Pool.turn_eq_some, Option.map_eq_some_iff, Prod.mk.injEq, Prod.exists]
  constructor
  · rintro ⟨task, s', task', htask, ⟨effect, task', hmove, rfl, rfl⟩, rfl⟩
    exact ⟨task, effect, task', htask, hmove, rfl⟩
  · rintro ⟨task, effect, task', htask, hmove, rfl⟩
    exact ⟨task, _, task', htask, ⟨effect, task', hmove, rfl, rfl⟩, rfl⟩

theorem taskMove_resolve :
    taskMove wiring scheme value me s move (.resolve size floor point) = some (effect, task') ↔
      ∃ point', resolveMove wiring scheme value me s size point move = some (effect, point') ∧
        task' = .resolve size floor point' := by
  simp only [taskMove, Option.map_eq_some_iff, Prod.mk.injEq, Prod.exists]
  constructor
  · rintro ⟨effect, point', hmove, rfl, rfl⟩
    exact ⟨point', hmove, rfl⟩
  · rintro ⟨point', hmove, rfl⟩
    exact ⟨effect, point', hmove, rfl, rfl⟩

-- ---------------------------------------------------------------------------
-- Parts of runs
-- ---------------------------------------------------------------------------

def beatles : Pool Shared Task → Action → Option (Pool Shared Task) :=
  step ⟨true, true⟩ "mpd-album".toList "Beatles|Revolver".toList

/-- The next step of a call, whose calls succeed. -/
def Action.goes (i : Nat) : Action := .move i (.go false)

/-- A content hash, of one digit over and over. -/
def hashOf (digit : Char) : List Char := .replicate 64 digit

/-- A provider has the artwork. -/
def found (digit : Char) : Reply :=
  .response ⟨some "ok".toList, none, some (hashOf digit), none, none⟩

/-- A resolve of `original` up to its dispatch to the local plugin. -/
def dispatching (i : Nat) : List Action := .resolve "original".toList :: .replicate 6 (.goes i)

/-- The dispatch is answered, and the outcome is in the memo and in the index. -/
def landing (i : Nat) (digit : Char) : List Action :=
  .store (hashOf digit) :: .move i (.reply (found digit)) :: .replicate 5 (.goes i)

end EvoAudio.Artwork.Cascade
