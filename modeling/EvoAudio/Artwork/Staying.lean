import EvoAudio.Artwork.Cascade
import EvoAudio.Lib.Machine

/-!
# Resolved artwork stays resolved

Once a resolve has returned artwork, with its row in the index and its bytes
stored, the next resolves of that key find the row. They ask the negative cache
first, though, and a call that gave up waiting leaves a note there while the one
it waited for goes on and succeeds. What has to hold off is said step by step in
`Undisturbed`.
-/

namespace EvoAudio.Artwork.Cascade

variable {wiring : Wiring} {scheme value : List Char} {s s' : Shared} {size : List Char}

/-- A resolve that finds the file answers with it. -/
def Cell.Serves (wiring : Wiring) (assets : Finset (List Char)) (cell : Cell) : Prop :=
  ∃ hit ∈ cell.body.hit, hit.version = cascadeLogicVersion ∧
    (wiring.cache = true → hit.hash ∈ assets)

/-- Some call has returned artwork, its row is in the index and its bytes are stored. -/
def Landed (wiring : Wiring) (size : List Char) (pool : Pool Shared Task) : Prop :=
  wiring.index = true ∧ ∃ (i floor : Nat) (hash : List Char) (provider : Option (List Char))
    (origin rowOrigin : Origin),
    pool.tasks[i]? = some (.resolve size floor (.returned (.resolved hash provider) origin)) ∧
      pool.shared.entry size = some ⟨.stored cascadeLogicVersion hash, rowOrigin⟩ ∧
        isValidContentHash hash = true ∧ hash ∈ pool.shared.assets

def Task.isResolve : Task → Bool
  | .resolve _ _ _ => true
  | _ => false

/-- No forget is called or goes on, and no bytes are evicted. -/
def Calm (pool : Pool Shared Task) : Action → Prop
  | .forget _ => False
  | .evictBytes _ => False
  | .move i _ => ∀ task ∈ pool.tasks[i]?, task.isResolve = true
  | _ => True

/-- A resolve returns artwork in so many steps of its own. -/
def ReturnsIn (wiring : Wiring) (scheme value size : List Char) (i floor steps : Nat)
    (pool : Pool Shared Task) : Prop :=
  ∃ (pool' : Pool Shared Task) (outcome : CascadeOutcome) (origin : Origin),
    Machine.exec (step wiring scheme value) pool (.replicate steps (.move i (.go false))) =
      some pool' ∧
    pool'.tasks[i]? = some (.resolve size floor (.returned outcome origin)) ∧
    outcome.isResolved = true

/-- A resolve of the key that started when there were `n` calls or later was
dropped, or has returned artwork or is on its way to. -/
def Returns (wiring : Wiring) (scheme value size : List Char) (n : Nat)
    (pool : Pool Shared Task) : Prop :=
  ∀ (i floor : Nat) (point : Point), n ≤ i →
    pool.tasks[i]? = some (.resolve size floor point) →
      point = .cancelled ∨ ∃ steps, ReturnsIn wiring scheme value size i floor steps pool

/-- A step of a resolve writes no note for the key, keeps its row or puts one that
serves, and deletes no bytes. A resolve that started late can read the row. -/
def PointKeeps (wiring : Wiring) (size : List Char) (late fails : Bool) (s : Shared)
    (own : List Char) : Point → Prop
  | .notePut _ _ _ => own ≠ size
  | .noteTransient outcome _ => (transientNote outcome).isSome = true → own ≠ size
  | .exactGet => late = true → own = size → fails = false
  | .evict _ served (.remove _) => fails = false → served ≠ size
  | .evict _ _ (.delete _) => fails = true
  | .drift _ served => fails = false → served ≠ size
  | .rename _ _ _ => fails = false → own = size → ∀ cell ∈ s.temp size, cell.Serves wiring s.assets
  | _ => True

def TaskKeeps (wiring : Wiring) (size : List Char) (late fails : Bool) (s : Shared) : Task → Prop
  | .resolve own _ point => PointKeeps wiring size late fails s own point
  | .forget _ _ _ _ => False
  | _ => True

def Undisturbed (wiring : Wiring) (size : List Char) (n : Nat) (pool : Pool Shared Task) :
    Action → Prop
  | .forget _ => False
  | .evictBytes _ => False
  | .move i (.go fails) =>
    ∀ task ∈ pool.tasks[i]?, TaskKeeps wiring size (decide (n ≤ i)) fails pool.shared task
  | _ => True

-- ---------------------------------------------------------------------------
-- The stores
-- ---------------------------------------------------------------------------

/-- A resolve that starts now finds no note and then the row. -/
structure Served (wiring : Wiring) (size : List Char) (s : Shared) : Prop where
  index : wiring.index = true
  row : ∃ cell, s.entry size = some cell ∧ cell.Serves wiring s.assets
  note : ∀ entry, s.negative size = some entry → entry.isFresh s.now = false

/-- What an effect may do to the key. -/
def EffectKeeps (wiring : Wiring) (size : List Char) (s : Shared) : Effect → Prop
  | .putNote own _ _ _ => own ≠ size
  | .removeRow own _ => own ≠ size
  | .renameTemp own => own = size → ∀ cell ∈ s.temp size, cell.Serves wiring s.assets
  | .deleteBytes _ => False
  | _ => True

theorem Cell.Serves.mono {cell : Cell} (h : cell.Serves wiring assets) (hle : assets ⊆ assets') :
    cell.Serves wiring assets' := by
  obtain ⟨hit, hhit, hversion, hbytes⟩ := h
  exact ⟨hit, hhit, hversion, fun hcache => hle (hbytes hcache)⟩

theorem assets_apply (hk : EffectKeeps wiring size s effect) :
    (effect.apply s).assets = s.assets := by
  cases effect with
  | deleteBytes hash => cases hk
  | renameTemp own =>
    simp only [Effect.apply]
    split <;> rfl
  | _ => rfl

theorem Served.apply (h : Served wiring size s) (hk : EffectKeeps wiring size s effect) :
    Served wiring size (effect.apply s) := by
  obtain ⟨hindex, hrow, hnote⟩ := h
  cases effect with
  | dropNote own number =>
    refine ⟨hindex, hrow, fun entry hentry => ?_⟩
    rcases eq_or_ne size own with rfl | hne
    · simp [Effect.apply] at hentry
    · exact hnote entry (by simpa [Effect.apply, hne] using hentry)
  | putNote own note ttl origin =>
    have hne : size ≠ own := Ne.symm hk
    exact ⟨hindex, hrow, fun entry hentry => hnote entry (by simpa [Effect.apply, hne] using hentry)⟩
  | removeRow own number =>
    have hne : size ≠ own := Ne.symm hk
    refine ⟨hindex, ?_, hnote⟩
    obtain ⟨cell, hcell, hserves⟩ := hrow
    exact ⟨cell, by simpa [Effect.apply, hne] using hcell, hserves⟩
  | renameTemp own =>
    simp only [Effect.apply]
    split
    · rename_i cell hcell
      refine ⟨hindex, ?_, hnote⟩
      rcases eq_or_ne size own with rfl | hne
      · exact ⟨cell, by simp, hk rfl cell hcell⟩
      · obtain ⟨old, hold, hserves⟩ := hrow
        exact ⟨old, by simpa [hne] using hold, hserves⟩
    · exact ⟨hindex, hrow, hnote⟩
  | deleteBytes hash => cases hk
  | _ => exact ⟨hindex, hrow, hnote⟩

-- ---------------------------------------------------------------------------
-- One call
-- ---------------------------------------------------------------------------

theorem evictNext_keeps {stage : Stage}
    (hk : PointKeeps wiring size late fails s own (.evict exact served stage)) :
    EffectKeeps wiring size s (evictNext wiring s served 0 fails stage).1 := by
  cases stage with
  | remove hash =>
    cases fails
    · exact hk rfl
    · trivial
  | delete hash =>
    obtain rfl : fails = true := hk
    trivial
  | _ => trivial

theorem next_keeps (hk : PointKeeps wiring size late fails s own point)
    (hnext : next wiring scheme me fails s own point = some (effect, point')) :
    EffectKeeps wiring size s effect := by
  cases point with
  | evict exact served stage =>
    simp only [next] at hnext
    split at hnext <;> cases hnext <;> exact evictNext_keeps hk
  | drift exact served =>
    cases hnext
    cases fails
    · exact hk rfl
    · trivial
  | anyGet candidates =>
    cases candidates with
    | nil =>
      cases hnext
      trivial
    | cons candidate candidates =>
      simp only [next] at hnext
      split at hnext <;> cases hnext <;> trivial
  | notePut note outcome origin =>
    cases hnext
    exact hk
  | rename hash provider origin =>
    cases hnext
    cases fails
    · exact hk rfl
    · trivial
  | noteTransient outcome origin =>
    simp only [next] at hnext
    split at hnext <;> cases hnext
    · rename_i hnote
      exact hk (by simp [hnote])
    · trivial
  | negativeCheck =>
    simp only [next] at hnext
    split at hnext
    · split at hnext <;> cases hnext <;> trivial
    · cases hnext
      trivial
  | exactGet =>
    simp only [next] at hnext
    split at hnext <;> cases hnext <;> trivial
  | probe exact served hash origin =>
    simp only [next] at hnext
    split at hnext <;> cases hnext <;> trivial
  | memoCheck =>
    simp only [next] at hnext
    split at hnext <;> cases hnext <;> trivial
  | inflightCheck =>
    simp only [next] at hnext
    split at hnext <;> cases hnext <;> trivial
  | waiting flight since =>
    simp only [next] at hnext
    split at hnext <;> cases hnext <;> trivial
  | fetched outcome origin =>
    cases hnext
    trivial
  | memoised outcome origin =>
    cases hnext
    trivial
  | directory hash provider origin =>
    simp only [next] at hnext
    split at hnext <;> cases hnext <;> trivial
  | write hash provider origin =>
    simp only [next] at hnext
    split at hnext <;> cases hnext <;> trivial
  | admitting tier => cases hnext
  | dispatched tier began => cases hnext
  | returned outcome origin => cases hnext
  | cancelled => cases hnext

theorem resolveMove_keeps
    (hk : ∀ fails, move = .go fails → PointKeeps wiring size late fails s own point)
    (hmove : resolveMove wiring scheme value me s own point move = some (effect, point')) :
    EffectKeeps wiring size s effect := by
  cases move with
  | go fails => exact next_keeps (hk fails rfl) hmove
  | admission refusal =>
    cases point with
    | admitting tier =>
      simp only [resolveMove, admission] at hmove
      split at hmove <;> cases hmove <;> trivial
    | _ => cases hmove
  | reply answer =>
    cases point with
    | dispatched tier began =>
      simp only [resolveMove, reply] at hmove
      split at hmove <;> cases hmove <;> trivial
    | _ => cases hmove
  | expire =>
    cases point with
    | waiting flight since =>
      simp only [resolveMove, expire] at hmove
      split at hmove <;> cases hmove
      trivial
    | _ => cases hmove
  | cancel => cases point <;> cases hmove <;> trivial

/-- Where a resolve of the key can be while its row is served. -/
def OnTheWay (wiring : Wiring) (s : Shared) : Point → Prop
  | .negativeCheck => True
  | .exactGet => True
  | .probe _ _ hash _ => wiring.cache = true → hash ∈ s.assets
  | .returned outcome _ => outcome.isResolved = true
  | .cancelled => True
  | _ => False

theorem OnTheWay.of_eq (h : OnTheWay wiring s point) (hassets : s.assets ⊆ s'.assets) :
    OnTheWay wiring s' point := by
  cases point with
  | probe exact served hash origin => exact fun hcache => hassets (h hcache)
  | _ => exact h

/-- Bytes that are there are served. -/
theorem next_probe {hash : List Char} (hbytes : wiring.cache = true → hash ∈ s.assets)
    (fails : Bool) :
    next wiring scheme me fails s size (.probe exact served hash origin) =
      some (.nothing, .returned (.resolved hash (some (provenance size served))) origin) := by
  have hpresent : (wiring.cache && !fails && !decide (hash ∈ s.assets)) = false := by
    cases hcache : wiring.cache
    · rfl
    · simp [hbytes hcache]
  simp [next, hpresent]

section Served

variable (h : Served wiring size s)

include h

/-- The exact row is read, and it is of the rules of today. -/
theorem Served.exactGet (scheme : List Char) (me : Nat) :
    ∃ hash origin, (wiring.cache = true → hash ∈ s.assets) ∧
      next wiring scheme me false s size .exactGet =
        some (.nothing, .probe true size hash origin) := by
  obtain ⟨cell, hcell, hit, hhit, hversion, hbytes⟩ := h.row
  refine ⟨hit.hash, cell.origin, hbytes, ?_⟩
  have hhit : cell.body.hit = some hit := hhit
  simp [next, Shared.row, h.index, hcell, hhit, serve, hversion]

theorem Served.negativeCheck (scheme : List Char) (me : Nat) (fails : Bool) :
    ∃ effect, next wiring scheme me fails s size .negativeCheck = some (effect, .exactGet) := by
  simp only [next, h.index, if_true]
  split
  · rename_i entry hentry
    simp [h.note entry hentry]
  · exact ⟨_, rfl⟩

/-- A step of a resolve that can read the row brings it nearer to its return. -/
theorem next_onTheWay (hway : OnTheWay wiring s point)
    (hread : point = .exactGet → fails = false)
    (hnext : next wiring scheme me fails s size point = some (effect, point')) :
    OnTheWay wiring s point' := by
  cases point with
  | negativeCheck =>
    obtain ⟨effect', heq⟩ := h.negativeCheck scheme me fails
    cases heq.symm.trans hnext
    trivial
  | exactGet =>
    obtain rfl := hread rfl
    obtain ⟨hash, origin, hbytes, heq⟩ := h.exactGet scheme me
    cases heq.symm.trans hnext
    exact hbytes
  | probe exact served hash origin =>
    cases (next_probe hway fails).symm.trans hnext
    rfl
  | returned outcome origin => cases hnext
  | cancelled => cases hnext
  | _ => cases hway

end Served

theorem cancel_onTheWay (hcancel : cancel me own point = some (effect, point')) :
    OnTheWay wiring s point' := by
  cases point <;> cases hcancel <;> trivial

/-- Only its own steps and its being dropped move a resolve of the key. -/
theorem resolveMove_onTheWay (h : Served wiring size s) (hway : OnTheWay wiring s point)
    (hread : ∀ fails, move = .go fails → point = .exactGet → fails = false)
    (hmove : resolveMove wiring scheme value me s size point move = some (effect, point')) :
    OnTheWay wiring s point' := by
  cases move with
  | go fails => exact next_onTheWay h hway (hread fails rfl) hmove
  | admission refusal =>
    cases point with
    | admitting tier => cases hway
    | _ => cases hmove
  | reply answer =>
    cases point with
    | dispatched tier began => cases hway
    | _ => cases hmove
  | expire =>
    cases point with
    | waiting flight since => cases hway
    | _ => cases hmove
  | cancel => exact cancel_onTheWay hmove

-- ---------------------------------------------------------------------------
-- Runs
-- ---------------------------------------------------------------------------

/-- The row is served, and the resolves of the key from number `n` on are on
their way to it. -/
structure Stays (wiring : Wiring) (size : List Char) (n : Nat) (pool : Pool Shared Task) :
    Prop where
  served : Served wiring size pool.shared
  calls : n ≤ pool.tasks.length
  late : pool.Each fun s i task =>
    n ≤ i → ∀ floor point, task = .resolve size floor point → OnTheWay wiring s point

theorem forgetFrom_ne_resolve (number : Nat) (sizes : List (List Char)) (size : List Char)
    (floor : Nat) (point : Point) : forgetFrom number sizes ≠ .resolve size floor point := by
  cases sizes <;> simp [forgetFrom]

theorem taskMove_keeps
    (hk : ∀ fails, move = .go fails → TaskKeeps wiring size late fails s task)
    (hmove : taskMove wiring scheme value me s move task = some (effect, task')) :
    EffectKeeps wiring size s effect := by
  cases task with
  | resolve own floor point =>
    obtain ⟨point', hresolve, rfl⟩ := taskMove_resolve.mp hmove
    exact resolveMove_keeps hk hresolve
  | forget number own sizes stage =>
    cases move with
    | go fails => cases hk fails rfl
    | cancel =>
      cases hmove
      trivial
    | _ => cases hmove
  | returning number =>
    cases move with
    | go fails =>
      cases hmove
      trivial
    | _ => cases hmove
  | ended => cases hmove

/-- A call that was no resolve of the key does not become one. -/
theorem taskMove_resolve_of
    (hmove : taskMove wiring scheme value me s move task = some (effect, .resolve own floor point')) :
    ∃ point, task = .resolve own floor point ∧
      resolveMove wiring scheme value me s own point move = some (effect, point') := by
  cases task with
  | resolve own' floor' point =>
    obtain ⟨point', hresolve, heq⟩ := taskMove_resolve.mp hmove
    cases heq
    exact ⟨point, rfl, hresolve⟩
  | forget number own' sizes stage =>
    cases move with
    | go fails =>
      simp only [taskMove] at hmove
      split at hmove
      · cases hmove
      · exact absurd (Prod.mk.inj (Option.some.inj hmove)).2 (forgetFrom_ne_resolve _ _ _ _ _)
    | cancel => cases hmove
    | _ => cases hmove
  | returning number =>
    cases move with
    | go fails => cases hmove
    | _ => cases hmove
  | ended => cases hmove

theorem Stays.step {pool pool' : Pool Shared Task} (h : Stays wiring size n pool)
    (hok : Undisturbed wiring size n pool a)
    (hstep : step wiring scheme value pool a = some pool') : Stays wiring size n pool' := by
  obtain ⟨hserved, hcalls, hlate⟩ := h
  cases a with
  | resolve own =>
    cases hstep
    refine ⟨hserved, Nat.le_trans hcalls (by simp [Pool.spawn]), hlate.spawn ?_⟩
    rintro - floor point hpoint
    cases hpoint
    trivial
  | forget own => cases hok
  | move i move =>
    obtain ⟨task, effect, task', htask, hmove, rfl⟩ := step_move.mp hstep
    obtain ⟨hlt, -⟩ := List.getElem?_eq_some_iff.mp htask
    have hkeeps : ∀ fails, move = .go fails →
        TaskKeeps wiring size (decide (n ≤ i)) fails pool.shared task := by
      rintro fails rfl
      exact hok task htask
    have heffect := taskMove_keeps hkeeps hmove
    have hassets : pool.shared.assets ⊆ (effect.apply pool.shared).assets := by
      rw [assets_apply heffect]
    refine ⟨hserved.apply heffect, by simpa using hcalls, hlate.set hlt ?_ ?_⟩
    · rintro hi floor point' rfl
      obtain ⟨point, rfl, hresolve⟩ := taskMove_resolve_of hmove
      have hway := hlate i _ htask hi floor point rfl
      refine (resolveMove_onTheWay hserved hway ?_ hresolve).of_eq hassets
      rintro fails rfl rfl
      exact hkeeps fails rfl (by simpa using hi) rfl
    · intro j other _ _ hother hj floor point hpoint
      exact (hother hj floor point hpoint).of_eq hassets
  | tick elapsed =>
    cases hstep
    refine ⟨⟨hserved.index, hserved.row, fun entry hentry => ?_⟩, hcalls,
      hlate.shared fun _ _ hother => hother⟩
    have hstale := hserved.note entry hentry
    simp only [NegativeEntry.isFresh, decide_eq_false_iff_not, Nat.not_lt] at hstale ⊢
    exact Nat.le_trans hstale (Nat.le_add_right _ _)
  | dropNote own =>
    cases hstep
    have heffect : EffectKeeps wiring size pool.shared (.dropNote own 0) := trivial
    exact ⟨hserved.apply heffect, hcalls, hlate.shared fun _ _ hother => hother⟩
  | store hash =>
    cases hstep
    have hassets := Finset.subset_insert hash pool.shared.assets
    obtain ⟨cell, hcell, hserves⟩ := hserved.row
    exact ⟨⟨hserved.index, ⟨cell, hcell, hserves.mono hassets⟩, hserved.note⟩, hcalls,
      hlate.shared fun _ _ hother hj floor point hpoint =>
        (hother hj floor point hpoint).of_eq hassets⟩
  | evictBytes hash => cases hok

/-- A step of a resolve of the key that is alone from now on. -/
theorem Stays.goes {pool : Pool Shared Task} (h : Stays wiring size n pool)
    (htask : pool.tasks[i]? = some (.resolve size floor point))
    (hkeeps : PointKeeps wiring size (decide (n ≤ i)) false pool.shared size point)
    (hnext : next wiring scheme i false pool.shared size point = some (effect, point')) :
    ∃ pool', Cascade.step wiring scheme value pool (.move i (.go false)) = some pool' ∧
      Stays wiring size n pool' ∧ pool'.tasks[i]? = some (.resolve size floor point') := by
  obtain ⟨hlt, -⟩ := List.getElem?_eq_some_iff.mp htask
  have hmove : taskMove wiring scheme value i pool.shared (.go false)
      (.resolve size floor point) = some (effect, .resolve size floor point') :=
    taskMove_resolve.mpr ⟨point', hnext, rfl⟩
  have hstep := step_move.mpr ⟨_, effect, _, htask, hmove, rfl⟩
  refine ⟨_, hstep, h.step ?_ hstep, List.getElem?_set_self hlt⟩
  intro task htask'
  cases htask.symm.trans htask'
  exact hkeeps

theorem ReturnsIn.succ {pool pool' : Pool Shared Task}
    (hstep : step wiring scheme value pool (.move i (.go false)) = some pool')
    (h : ReturnsIn wiring scheme value size i floor steps pool') :
    ReturnsIn wiring scheme value size i floor (steps + 1) pool := by
  obtain ⟨pool'', outcome, origin, hrest, hdone⟩ := h
  exact ⟨pool'', outcome, origin, Machine.exec_cons.mpr ⟨pool', hstep, hrest⟩, hdone⟩

section Returns

variable {pool : Pool Shared Task} (h : Stays wiring size n pool) (hi : n ≤ i)

include h hi

theorem Stays.returns_probe {served hash : List Char}
    (htask : pool.tasks[i]? = some (.resolve size floor (.probe exact served hash origin))) :
    ReturnsIn wiring scheme value size i floor 1 pool := by
  have hbytes := h.late i _ htask hi floor _ rfl
  obtain ⟨pool', hstep, -, htask'⟩ := h.goes htask trivial (next_probe hbytes false)
  exact .succ hstep ⟨pool', _, _, rfl, htask', rfl⟩

theorem Stays.returns_exactGet
    (htask : pool.tasks[i]? = some (.resolve size floor .exactGet)) :
    ReturnsIn wiring scheme value size i floor 2 pool := by
  obtain ⟨hash, origin, -, hnext⟩ := h.served.exactGet scheme i
  obtain ⟨pool', hstep, h', htask'⟩ := h.goes htask (fun _ _ => rfl) hnext
  exact .succ hstep (h'.returns_probe hi htask')

theorem Stays.returns_negativeCheck
    (htask : pool.tasks[i]? = some (.resolve size floor .negativeCheck)) :
    ReturnsIn wiring scheme value size i floor 3 pool := by
  obtain ⟨effect, hnext⟩ := h.served.negativeCheck scheme i false
  obtain ⟨pool', hstep, h', htask'⟩ := h.goes htask trivial hnext
  exact .succ hstep (h'.returns_exactGet hi htask')

theorem Stays.returns (htask : pool.tasks[i]? = some (.resolve size floor point))
    (hlive : point ≠ .cancelled) :
    ∃ steps, ReturnsIn wiring scheme value size i floor steps pool := by
  have hway := h.late i _ htask hi floor point rfl
  cases point with
  | negativeCheck => exact ⟨3, h.returns_negativeCheck hi htask⟩
  | exactGet => exact ⟨2, h.returns_exactGet hi htask⟩
  | probe exact served hash origin => exact ⟨1, h.returns_probe hi htask⟩
  | returned outcome origin => exact ⟨0, pool, outcome, origin, rfl, htask, hway⟩
  | cancelled => exact absurd rfl hlive
  | _ => cases hway

end Returns

theorem stays_of_landed {pool : Pool Shared Task} (h : Landed wiring size pool)
    (hnote : ∀ entry ∈ pool.shared.negative size, entry.isFresh pool.shared.now = false) :
    Stays wiring size pool.tasks.length pool := by
  obtain ⟨hindex, i, floor, hash, provider, origin, rowOrigin, -, hrow, hvalid, hbytes⟩ := h
  refine ⟨⟨hindex, ⟨_, hrow, ⟨hash, cascadeLogicVersion⟩, ?_, rfl, fun _ => hbytes⟩, hnote⟩,
    Nat.le_refl _, fun j task htask hj => ?_⟩
  · simp [Body.hit, hvalid]
  · obtain ⟨hlt, -⟩ := List.getElem?_eq_some_iff.mp htask
    omega

/-- Resolved artwork stays resolved where there is no note when the call returns
and nothing disturbs the key from then on. -/
theorem returns_of_undisturbed {pool pool' : Pool Shared Task} {acts : List Action}
    (hlanded : Landed wiring size pool)
    (hnote : ∀ entry ∈ pool.shared.negative size, entry.isFresh pool.shared.now = false)
    (h : Machine.exec (step wiring scheme value) pool acts = some pool')
    (hok : Machine.Meets (step wiring scheme value)
      (Undisturbed wiring size pool.tasks.length) pool acts) :
    Returns wiring scheme value size pool.tasks.length pool' := by
  have hstays : Stays wiring size pool.tasks.length pool' :=
    Machine.exec_invariant Stays.step (stays_of_landed hlanded hnote) hok h
  intro i floor point hi htask
  by_cases hlive : point = .cancelled
  · exact .inl hlive
  · exact .inr (hstays.returns hi htask hlive)

/-- A resolve of the key that has returned, and not with artwork. -/
def Task.missed (size : List Char) : Task → Bool
  | .resolve own _ (.returned outcome _) => decide (own = size) && !outcome.isResolved
  | _ => false

theorem Task.missed_eq_true {task : Task} (h : task.missed size = true) :
    ∃ floor outcome origin, task = .resolve size floor (.returned outcome origin) ∧
      outcome.isResolved = false := by
  unfold Task.missed at h
  split at h
  · rename_i own floor outcome origin
    obtain ⟨hown, hres⟩ := Bool.and_eq_true_iff.mp h
    exact ⟨floor, outcome, origin, by rw [of_decide_eq_true hown], by simpa using hres⟩
  · cases h

/-- A resolve that has returned takes no more steps. -/
theorem Returns.not_missed {pool : Pool Shared Task}
    (h : Returns wiring scheme value size n pool) (hi : n ≤ i)
    (htask : pool.tasks[i]? = some task) : task.missed size = false := by
  by_contra hmissed
  obtain ⟨floor, outcome, origin, rfl, hres⟩ := Task.missed_eq_true (by simpa using hmissed)
  rcases h i floor _ hi htask with hcancelled | ⟨steps, pool', outcome', origin', hrun, htask', hres'⟩
  · cases hcancelled
  · cases steps with
    | zero =>
      cases hrun
      cases htask.symm.trans htask'
      rw [hres] at hres'
      cases hres'
    | succ steps =>
      obtain ⟨pool₁, hstep, -⟩ := Machine.exec_cons.mp hrun
      obtain ⟨task, effect, task', htask', hmove, -⟩ := step_move.mp hstep
      cases htask.symm.trans htask'
      cases hmove

instance decidableServes (wiring : Wiring) (assets : Finset (List Char)) (cell : Cell) :
    Decidable (cell.Serves wiring assets) :=
  inferInstanceAs (Decidable (∃ hit ∈ cell.body.hit, hit.version = cascadeLogicVersion ∧
    (wiring.cache = true → hit.hash ∈ assets)))

instance decidablePointKeeps (wiring : Wiring) (size : List Char) (late fails : Bool) (s : Shared)
    (own : List Char) : (point : Point) → Decidable (PointKeeps wiring size late fails s own point)
  | .notePut _ _ _ => inferInstanceAs (Decidable (own ≠ size))
  | .noteTransient outcome _ =>
    inferInstanceAs (Decidable ((transientNote outcome).isSome = true → own ≠ size))
  | .exactGet => inferInstanceAs (Decidable (late = true → own = size → fails = false))
  | .evict _ served (.remove _) => inferInstanceAs (Decidable (fails = false → served ≠ size))
  | .evict _ _ (.delete _) => inferInstanceAs (Decidable (fails = true))
  | .drift _ served => inferInstanceAs (Decidable (fails = false → served ≠ size))
  | .rename _ _ _ => inferInstanceAs (Decidable (fails = false → own = size →
      ∀ cell ∈ s.temp size, cell.Serves wiring s.assets))
  | .evict _ _ .negative => .isTrue trivial
  | .evict _ _ .memo => .isTrue trivial
  | .evict _ _ .read => .isTrue trivial
  | .negativeCheck => .isTrue trivial
  | .anyGet _ => .isTrue trivial
  | .probe _ _ _ _ => .isTrue trivial
  | .memoCheck => .isTrue trivial
  | .inflightCheck => .isTrue trivial
  | .waiting _ _ => .isTrue trivial
  | .admitting _ => .isTrue trivial
  | .dispatched _ _ => .isTrue trivial
  | .fetched _ _ => .isTrue trivial
  | .memoised _ _ => .isTrue trivial
  | .directory _ _ _ => .isTrue trivial
  | .write _ _ _ => .isTrue trivial
  | .returned _ _ => .isTrue trivial
  | .cancelled => .isTrue trivial

instance decidableTaskKeeps (wiring : Wiring) (size : List Char) (late fails : Bool) (s : Shared) :
    (task : Task) → Decidable (TaskKeeps wiring size late fails s task)
  | .resolve own _ point => decidablePointKeeps wiring size late fails s own point
  | .forget _ _ _ _ => .isFalse id
  | .returning _ => .isTrue trivial
  | .ended => .isTrue trivial

instance decidableUndisturbed (wiring : Wiring) (size : List Char) (n : Nat)
    (pool : Pool Shared Task) : (a : Action) → Decidable (Undisturbed wiring size n pool a)
  | .forget _ => .isFalse id
  | .evictBytes _ => .isFalse id
  | .move i (.go fails) => inferInstanceAs (Decidable (∀ task ∈ pool.tasks[i]?,
      TaskKeeps wiring size (decide (n ≤ i)) fails pool.shared task))
  | .move _ (.admission _) => .isTrue trivial
  | .move _ (.reply _) => .isTrue trivial
  | .move _ .expire => .isTrue trivial
  | .move _ .cancel => .isTrue trivial
  | .resolve _ => .isTrue trivial
  | .tick _ => .isTrue trivial
  | .dropNote _ => .isTrue trivial
  | .store _ => .isTrue trivial

instance decidableCalm (pool : Pool Shared Task) : (a : Action) → Decidable (Calm pool a)
  | .forget _ => .isFalse id
  | .evictBytes _ => .isFalse id
  | .move i _ => inferInstanceAs (Decidable (∀ task ∈ pool.tasks[i]?, task.isResolve = true))
  | .resolve _ => .isTrue trivial
  | .tick _ => .isTrue trivial
  | .dropNote _ => .isTrue trivial
  | .store _ => .isTrue trivial

/-- The row of a first resolve, and a second one that starts after it. -/
theorem returns_of_undisturbed_again :
    ∃ pool pool', Machine.exec beatles (boot (fun _ => none) ∅) (dispatching 0 ++ landing 0 'a') =
        some pool ∧
      Machine.exec beatles pool [.resolve "original".toList, .goes 1] = some pool' ∧
      pool'.tasks[1]? = some (.resolve "original".toList 0 .exactGet) ∧
      Returns ⟨true, true⟩ "mpd-album".toList "Beatles|Revolver".toList "original".toList 1 pool' := by
  obtain ⟨pool, hpool, hfacts⟩ := Machine.exec_of_any beatles (boot (fun _ => none) ∅)
    (dispatching 0 ++ landing 0 'a')
    (fun pool => pool.tasks = [.resolve "original".toList 0
        (.returned (.resolved (hashOf 'a') none) (some 0))] ∧
      pool.shared.entry "original".toList =
        some ⟨.stored cascadeLogicVersion (hashOf 'a'), some 0⟩ ∧
      hashOf 'a' ∈ pool.shared.assets ∧ pool.shared.negative "original".toList = none ∧
      Machine.Meets beatles (Undisturbed ⟨true, true⟩ "original".toList 1) pool
        [.resolve "original".toList, .goes 1] ∧
      (Machine.exec beatles pool [.resolve "original".toList, .goes 1]).any (fun pool' =>
        pool'.tasks[1]? = some (.resolve "original".toList 0 .exactGet)) = true) (by decide)
  obtain ⟨htasks, hentry, hbytes, hnote, hok, hafter⟩ := of_decide_eq_true hfacts
  obtain ⟨pool', hpool', htask⟩ := Machine.exec_of_any _ _ _ _ hafter
  have hlanded : Landed ⟨true, true⟩ "original".toList pool :=
    ⟨rfl, 0, 0, hashOf 'a', none, some 0, some 0, by simp [htasks], hentry, by decide, hbytes⟩
  have hlength : pool.tasks.length = 1 := by simp [htasks]
  have hfresh : ∀ entry ∈ pool.shared.negative "original".toList,
      entry.isFresh pool.shared.now = false := by
    rw [hnote]
    exact fun _ hentry => by cases hentry
  have hreturns := returns_of_undisturbed hlanded hfresh hpool' (hlength.symm ▸ hok)
  exact ⟨pool, pool', hpool, hpool', of_decide_eq_true htask, hlength ▸ hreturns⟩

/-- The second call gives up waiting for the first, which then succeeds. A third
one is answered from the note of the second. -/
theorem noted_then_landed :
    ¬∀ (before after : List Action) (pool pool' : Pool Shared Task),
      Machine.exec beatles (boot (fun _ => none) ∅) before = some pool →
      Landed ⟨true, true⟩ "original".toList pool → Machine.Meets beatles Calm pool after →
      Machine.exec beatles pool after = some pool' →
        Returns ⟨true, true⟩ "mpd-album".toList "Beatles|Revolver".toList "original".toList
          pool.tasks.length pool' := by
  intro hall
  obtain ⟨pool, hpool, hfacts⟩ := Machine.exec_of_any beatles (boot (fun _ => none) ∅)
    (dispatching 0 ++ dispatching 1 ++
      [.tick inflightWaitDeadline, .move 1 .expire, .goes 1] ++ landing 0 'a')
    (fun pool => pool.tasks[0]? = some (.resolve "original".toList 0
        (.returned (.resolved (hashOf 'a') none) (some 0))) ∧
      pool.shared.entry "original".toList =
        some ⟨.stored cascadeLogicVersion (hashOf 'a'), some 0⟩ ∧
      hashOf 'a' ∈ pool.shared.assets ∧ pool.tasks.length = 2 ∧
      Machine.Meets beatles Calm pool [.resolve "original".toList, .goes 2] ∧
      (Machine.exec beatles pool [.resolve "original".toList, .goes 2]).any (fun pool' =>
        pool'.tasks[2]?.any (Task.missed "original".toList)) = true) (by decide)
  obtain ⟨htask, hentry, hbytes, hlength, hcalm, hafter⟩ := of_decide_eq_true hfacts
  obtain ⟨pool', hpool', hmissed⟩ := Machine.exec_of_any _ _ _ _ hafter
  have hlanded : Landed ⟨true, true⟩ "original".toList pool :=
    ⟨rfl, 0, 0, hashOf 'a', none, some 0, some 0, htask, hentry, by decide, hbytes⟩
  have hreturns := hall _ _ pool pool' hpool hlanded hcalm hpool'
  obtain ⟨task, htask', hmissed⟩ := (Option.any_eq_true _ _).mp hmissed
  have hnot := hreturns.not_missed (by simp [hlength]) htask'
  rw [hmissed] at hnot
  cases hnot

end EvoAudio.Artwork.Cascade
