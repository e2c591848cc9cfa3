import EvoAudio.Artwork.Cascade
import EvoAudio.Lib.Machine

/-!
# Forget means forget

A resolve that starts after a forget has returned must not answer with the
outcome of a dispatch that began before the forget was called. The stores hold
to it as long as no outcome is put into a store that a later forget has already
evicted, and no resolve receives one that is older than itself. The marks of the
forgets carry the proof: what a store holds at a size is never older than the
last forget that evicted it there.
-/

namespace EvoAudio.Artwork.Cascade

variable {wiring : Wiring} {scheme value : List Char} {s s' : Shared} {size : List Char}

/-- From no dispatch that began before a forget was called. -/
def Since (number : Nat) (origin : Origin) : Prop := ∀ began ∈ origin, number ≤ began

instance decidableSince (number : Nat) (origin : Origin) : Decidable (Since number origin) :=
  inferInstanceAs (Decidable (∀ began ∈ origin, number ≤ began))

/-- No resolve has answered with what a forget before it was to forget. -/
def Forgets (pool : Pool Shared Task) : Prop :=
  ∀ (i : Nat) (size : List Char) (floor : Nat) (outcome : CascadeOutcome) (origin : Origin),
    pool.tasks[i]? = some (.resolve size floor (.returned outcome origin)) → Since floor origin

/-- An outcome is put into a store only if no forget called after its dispatch
began has evicted the store, and is received only by a resolve that no such
forget has returned before. -/
def Lands (fails : Bool) (s : Shared) (size : List Char) (floor : Nat) : Point → Prop
  | .notePut _ _ origin => Since (s.wiped .negative size) origin
  | .fetched _ origin => Since (s.wiped .memo size) origin
  | .rename _ _ _ => fails = false →
      ∀ cell ∈ s.temp size, Since (s.wiped .row size) cell.origin
  | .noteTransient outcome origin => (transientNote outcome).isSome = true →
      Since (s.wiped .negative size) origin
  | .waiting flight _ =>
    ∀ landed ∈ (s.slot size).landed.lookup flight, ∀ outcome ∈ landed, Since floor outcome.2
  | _ => True

/-- The outcomes of a resolve land where they may, and a forget removes the rows. -/
def TaskHeeds (s : Shared) (fails : Bool) : Task → Prop
  | .resolve size floor point => Lands fails s size floor point
  | .forget _ _ _ (.remove _) => fails = false
  | _ => True

/-- So does every step, and a resolve is of a size that a forget evicts. -/
def Heeds (pool : Pool Shared Task) : Action → Prop
  | .resolve size => size ∈ forgetSizeFanout
  | .move i (.go fails) => ∀ task ∈ pool.tasks[i]?, TaskHeeds pool.shared fails task
  | _ => True

-- ---------------------------------------------------------------------------
-- What the marks say
-- ---------------------------------------------------------------------------

/-- A forget has evicted a size from every store. -/
structure Covered (wiring : Wiring) (s : Shared) (number : Nat) (size : List Char) : Prop where
  negative : number ≤ s.wiped .negative size
  memo : number ≤ s.wiped .memo size
  row : wiring.index = true → number ≤ s.wiped .row size

/-- What the stores hold is no older than their marks, and the marks no older
than the last forget that has returned. -/
structure Dated (wiring : Wiring) (s : Shared) : Prop where
  negative : ∀ size entry, s.negative size = some entry →
    Since (s.wiped .negative size) entry.origin
  memo : ∀ size entry, (s.slot size).memo = some entry →
    Since (s.wiped .memo size) entry.outcome.2
  row : ∀ size cell, s.entry size = some cell → Since (s.wiped .row size) cell.origin
  called : s.forgotten ≤ s.called
  covered : ∀ size ∈ forgetSizeFanout, Covered wiring s s.forgotten size

def PointOk (floor : Nat) : Point → Prop
  | .anyGet candidates => ∀ candidate ∈ candidates, candidate ∈ forgetSizeFanout
  | .probe _ _ _ origin => Since floor origin
  | .dispatched _ began => floor ≤ began
  | .notePut _ _ origin => Since floor origin
  | .fetched _ origin => Since floor origin
  | .memoised _ origin => Since floor origin
  | .directory _ _ origin => Since floor origin
  | .write _ _ origin => Since floor origin
  | .rename _ _ origin => Since floor origin
  | .noteTransient _ origin => Since floor origin
  | .returned _ origin => Since floor origin
  | _ => True

/-- The stores that a forget has done with at its size. -/
def StageOk (wiring : Wiring) (s : Shared) (number : Nat) (size : List Char) : Stage → Prop
  | .negative => True
  | .memo => number ≤ s.wiped .negative size
  | .read => number ≤ s.wiped .negative size ∧ number ≤ s.wiped .memo size
  | .remove _ => number ≤ s.wiped .negative size ∧ number ≤ s.wiped .memo size
  | .delete _ => Covered wiring s number size

def TaskOk (wiring : Wiring) (s : Shared) : Task → Prop
  | .resolve size floor point => size ∈ forgetSizeFanout ∧ floor ≤ s.called ∧
      (∀ served ∈ forgetSizeFanout, Covered wiring s floor served) ∧ PointOk floor point
  | .forget number size sizes stage => number ≤ s.called ∧ StageOk wiring s number size stage ∧
      ∀ done ∈ forgetSizeFanout, done = size ∨ done ∈ sizes ∨ Covered wiring s number done
  | .returning number => number ≤ s.called ∧
      ∀ done ∈ forgetSizeFanout, Covered wiring s number done
  | .ended => True

/-- What an effect puts into a store is no older than the mark there. -/
def EffectOk (wiring : Wiring) (s : Shared) : Effect → Prop
  | .putNote size _ _ origin => Since (s.wiped .negative size) origin
  | .putMemo size _ origin => Since (s.wiped .memo size) origin
  | .renameTemp size => ∀ cell ∈ s.temp size, Since (s.wiped .row size) cell.origin
  | .finishForget number => number ≤ s.called ∧
      ∀ size ∈ forgetSizeFanout, Covered wiring s number size
  | _ => True

theorem Since.mono (h : Since number origin) (hle : number' ≤ number) : Since number' origin :=
  fun began hbegan => Nat.le_trans hle (h began hbegan)

-- ---------------------------------------------------------------------------
-- Marks only rise
-- ---------------------------------------------------------------------------

/-- Marks have risen and forgets were called. -/
structure Rises (s s' : Shared) : Prop where
  called : s.called ≤ s'.called
  wiped : ∀ store size, s.wiped store size ≤ s'.wiped store size

theorem wiped_le_mark (s : Shared) (store : Store) (size : List Char) (number : Nat)
    (store' : Store) (size' : List Char) :
    s.wiped store' size' ≤ (s.mark store size number).wiped store' size' := by
  unfold Shared.mark
  rcases eq_or_ne store' store with rfl | hstore
  · rcases eq_or_ne size' size with rfl | hsize
    · simp
    · simp [hsize]
  · simp [hstore]

theorem number_le_mark (s : Shared) (store : Store) (size : List Char) (number : Nat) :
    number ≤ (s.mark store size number).wiped store size := by
  simp [Shared.mark]

theorem Rises.of_eq (hcalled : s'.called = s.called) (hwiped : s'.wiped = s.wiped) : Rises s s' :=
  ⟨hcalled ▸ Nat.le_refl _, fun _ _ => hwiped ▸ Nat.le_refl _⟩

theorem rises_apply (s : Shared) (effect : Effect) : Rises s (effect.apply s) := by
  cases effect with
  | dropNote size number => exact ⟨Nat.le_refl _, wiped_le_mark s .negative size number⟩
  | dropMemo size number => exact ⟨Nat.le_refl _, wiped_le_mark s .memo size number⟩
  | removeRow size number => exact ⟨Nat.le_refl _, wiped_le_mark s .row size number⟩
  | renameTemp size =>
    simp only [Effect.apply]
    split <;> exact .of_eq rfl rfl
  | _ => exact .of_eq rfl rfl

theorem Covered.rises (h : Covered wiring s number size) (hr : Rises s s') :
    Covered wiring s' number size where
  negative := Nat.le_trans h.negative (hr.wiped _ _)
  memo := Nat.le_trans h.memo (hr.wiped _ _)
  row := fun hindex => Nat.le_trans (h.row hindex) (hr.wiped _ _)

theorem Covered.mono (h : Covered wiring s number size) (hle : number' ≤ number) :
    Covered wiring s number' size where
  negative := Nat.le_trans hle h.negative
  memo := Nat.le_trans hle h.memo
  row := fun hindex => Nat.le_trans hle (h.row hindex)

theorem StageOk.rises {stage : Stage} (h : StageOk wiring s number size stage)
    (hr : Rises s s') : StageOk wiring s' number size stage := by
  cases stage with
  | negative => trivial
  | memo => exact Nat.le_trans h (hr.wiped _ _)
  | read => exact ⟨Nat.le_trans h.1 (hr.wiped _ _), Nat.le_trans h.2 (hr.wiped _ _)⟩
  | remove hash => exact ⟨Nat.le_trans h.1 (hr.wiped _ _), Nat.le_trans h.2 (hr.wiped _ _)⟩
  | delete hash => exact Covered.rises h hr

theorem TaskOk.rises {task : Task} (h : TaskOk wiring s task) (hr : Rises s s') :
    TaskOk wiring s' task := by
  cases task with
  | resolve size floor point =>
    obtain ⟨hsize, hcalled, hcovered, hpoint⟩ := h
    exact ⟨hsize, Nat.le_trans hcalled hr.called,
      fun served hserved => (hcovered served hserved).rises hr, hpoint⟩
  | forget number size sizes stage =>
    obtain ⟨hcalled, hstage, hdone⟩ := h
    refine ⟨Nat.le_trans hcalled hr.called, hstage.rises hr, fun done hfanout => ?_⟩
    rcases hdone done hfanout with hnow | hleft | hcovered
    · exact .inl hnow
    · exact .inr (.inl hleft)
    · exact .inr (.inr (hcovered.rises hr))
  | returning number =>
    exact ⟨Nat.le_trans h.1 hr.called, fun done hfanout => (h.2 done hfanout).rises hr⟩
  | ended => trivial

-- ---------------------------------------------------------------------------
-- The stores
-- ---------------------------------------------------------------------------

theorem Dated.covered_rises (h : Dated wiring s) (hr : Rises s s')
    (hforgotten : s'.forgotten = s.forgotten) :
    s'.forgotten ≤ s'.called ∧
      ∀ size ∈ forgetSizeFanout, Covered wiring s' s'.forgotten size := by
  rw [hforgotten]
  exact ⟨Nat.le_trans h.called hr.called, fun size hsize => (h.covered size hsize).rises hr⟩

/-- The effects that keep the entries of the stores and their marks. -/
theorem Dated.of_eq (h : Dated wiring s) (hnegative : s'.negative = s.negative)
    (hmemo : ∀ size, (s'.slot size).memo = (s.slot size).memo) (hentry : s'.entry = s.entry)
    (hwiped : s'.wiped = s.wiped) (hcalled : s.called ≤ s'.called)
    (hforgotten : s'.forgotten = s.forgotten) : Dated wiring s' := by
  have hr : Rises s s' := ⟨hcalled, fun _ _ => hwiped ▸ Nat.le_refl _⟩
  obtain ⟨hle, hcovered⟩ := h.covered_rises hr hforgotten
  refine ⟨?_, ?_, ?_, hle, hcovered⟩
  · rw [hnegative, hwiped]
    exact h.negative
  · intro size entry hentry'
    rw [hmemo] at hentry'
    rw [hwiped]
    exact h.memo size entry hentry'
  · rw [hentry, hwiped]
    exact h.row

theorem memo_modifySlot {f : Slot (ResolveOutcome × Origin) → Slot (ResolveOutcome × Origin)}
    (hf : ∀ slot, (f slot).memo = slot.memo) (s : Shared) (size size' : List Char) :
    ((s.modifySlot size f).slot size').memo = (s.slot size').memo := by
  unfold Shared.modifySlot
  rcases eq_or_ne size' size with rfl | hne
  · simp [hf]
  · simp [hne]

/-- A store whose entries and marks stay as they are at every other size. -/
theorem Since.except {β : Type} {cells cells' : List Char → Option β}
    {marks marks' : List Char → Nat} (origin : β → Origin) (size : List Char)
    (h : ∀ size entry, cells size = some entry → Since (marks size) (origin entry))
    (helse : ∀ size' ≠ size, cells' size' = cells size' ∧ marks' size' = marks size')
    (hsize : ∀ entry, cells' size = some entry → Since (marks' size) (origin entry)) :
    ∀ size' entry, cells' size' = some entry → Since (marks' size') (origin entry) := by
  intro size' entry hentry
  rcases eq_or_ne size' size with rfl | hne
  · exact hsize entry hentry
  · obtain ⟨hcell, hmark⟩ := helse size' hne
    rw [hmark]
    exact h size' entry (hcell ▸ hentry)

theorem Dated.apply (h : Dated wiring s) (hok : EffectOk wiring s effect) :
    Dated wiring (effect.apply s) := by
  have hr := rises_apply s effect
  cases effect with
  | nothing => exact h
  | dropNote size number =>
    obtain ⟨hle, hcovered⟩ := h.covered_rises hr rfl
    refine ⟨Since.except NegativeEntry.origin size h.negative ?_ ?_, h.memo, h.row, hle, hcovered⟩
    · intro size' hne
      simp [Effect.apply, Shared.mark, hne]
    · intro entry hentry
      simp [Effect.apply] at hentry
  | putNote size note ttl origin =>
    obtain ⟨hle, hcovered⟩ := h.covered_rises hr rfl
    refine ⟨Since.except NegativeEntry.origin size h.negative ?_ ?_, h.memo, h.row, hle, hcovered⟩
    · intro size' hne
      simp [Effect.apply, hne]
    · intro entry hentry
      obtain rfl : NegativeEntry.mk note (s.now + ttl) origin = entry := by
        simpa [Effect.apply] using hentry
      exact hok
  | dropMemo size number =>
    obtain ⟨hle, hcovered⟩ := h.covered_rises hr rfl
    refine ⟨h.negative, Since.except (Prod.snd ∘ MemoEntry.outcome) size h.memo ?_ ?_, h.row, hle, hcovered⟩
    · intro size' hne
      simp [Effect.apply, Shared.modifySlot, Shared.mark, hne]
    · intro entry hentry
      simp [Effect.apply, Shared.modifySlot, Slot.forget] at hentry
  | putMemo size outcome origin =>
    obtain ⟨hle, hcovered⟩ := h.covered_rises hr rfl
    refine ⟨h.negative, Since.except (Prod.snd ∘ MemoEntry.outcome) size h.memo ?_ ?_, h.row, hle, hcovered⟩
    · intro size' hne
      simp [Effect.apply, Shared.modifySlot, hne]
    · intro entry hentry
      obtain rfl : MemoEntry.mk (outcome, origin) (s.now + resolveMemoTtl) = entry := by
        simpa [Effect.apply, Shared.modifySlot, Slot.memoize] using hentry
      exact hok
  | takeSlot size flight =>
    refine h.of_eq rfl (fun size' => ?_) rfl rfl hr.called rfl
    exact memo_modifySlot (f := fun slot => { slot with inflight := some flight })
      (fun _ => rfl) s size size'
  | freeSlot size flight landed =>
    refine h.of_eq rfl (fun size' => ?_) rfl rfl hr.called rfl
    exact memo_modifySlot (f := Slot.release flight landed) (fun _ => rfl) s size size'
  | removeRow size number =>
    obtain ⟨hle, hcovered⟩ := h.covered_rises hr rfl
    refine ⟨h.negative, h.memo, Since.except Cell.origin size h.row ?_ ?_, hle, hcovered⟩
    · intro size' hne
      simp [Effect.apply, Shared.mark, hne]
    · intro cell hcell
      simp [Effect.apply] at hcell
  | writeTemp size cell => exact h.of_eq rfl (fun _ => rfl) rfl rfl hr.called rfl
  | renameTemp size =>
    simp only [Effect.apply]
    split
    · rename_i cell hcell
      refine ⟨h.negative, h.memo, Since.except Cell.origin size h.row ?_ ?_, h.called,
        fun size hsize => (h.covered size hsize).rises (.of_eq rfl rfl)⟩
      · intro size' hne
        simp [hne]
      · intro cell' hcell'
        obtain rfl : cell = cell' := by simpa using hcell'
        exact hok cell hcell
    · exact h
  | deleteBytes hash => exact h.of_eq rfl (fun _ => rfl) rfl rfl hr.called rfl
  | finishForget number =>
    refine ⟨h.negative, h.memo, h.row, Nat.max_le.mpr ⟨h.called, hok.1⟩, fun size hsize => ?_⟩
    have hcovered : Covered wiring s (max s.forgotten number) size := by
      rcases Nat.le_total s.forgotten number with hle | hle
      · rw [Nat.max_eq_right hle]
        exact hok.2 size hsize
      · rw [Nat.max_eq_left hle]
        exact h.covered size hsize
    exact hcovered.rises hr

-- ---------------------------------------------------------------------------
-- Resolves
-- ---------------------------------------------------------------------------

/-- A row that is read is no older than the mark of its size. -/
theorem Dated.row_since (h : Dated wiring s) (hrow : s.row wiring fails size = some (hit, origin))
    (hcovered : Covered wiring s floor size) : Since floor origin := by
  unfold Shared.row at hrow
  split at hrow
  · rename_i hreads
    obtain ⟨cell, hcell, hhit⟩ := Option.bind_eq_some_iff.mp hrow
    obtain ⟨_, -, hpair⟩ := Option.map_eq_some_iff.mp hhit
    obtain ⟨-, rfl⟩ := Prod.mk.inj hpair
    have hindex : wiring.index = true := (Bool.and_eq_true_iff.mp hreads).1
    exact (h.row size cell hcell).mono (hcovered.row hindex)
  · cases hrow

theorem pointOk_serve (exact : Bool) (served : List Char) (hit : IndexHit)
    (h : Since floor origin) : PointOk floor (serve exact served hit origin) := by
  unfold serve
  split
  · trivial
  · exact h

theorem pointOk_answered (outcome : ResolveOutcome) (h : Since floor origin) :
    PointOk floor (answered outcome origin) := by
  cases outcome <;> exact h

/-- Every size that stands in for another is one that a forget evicts. -/
theorem mem_fanout_of_candidate (hsize : size ∈ forgetSizeFanout)
    (h : candidate ∈ anyCandidates size) : candidate ∈ forgetSizeFanout := by
  rcases List.mem_cons.mp h with rfl | h
  · exact hsize
  · have hall : ∀ candidate ∈ sizeFallbackOrder, candidate ∈ forgetSizeFanout := by decide
    exact hall candidate (List.mem_filter.mp h).1

theorem pointOk_unserved (exact : Bool) (hsize : size ∈ forgetSizeFanout) :
    PointOk floor (unserved exact size) := by
  cases exact
  · trivial
  · exact fun _ => mem_fanout_of_candidate hsize

theorem evictNext_effectOk (wiring : Wiring) (s : Shared) (size : List Char) (number : Nat)
    (fails : Bool) (stage : Stage) :
    EffectOk wiring s (evictNext wiring s size number fails stage).1 := by
  cases stage <;> cases fails <;> trivial

theorem checkMemo_since (h : Dated wiring s)
    (hmemo : ((s.slot size).checkMemo s.now).1 = some (outcome, origin)) :
    Since (s.wiped .memo size) origin := by
  unfold Slot.checkMemo at hmemo
  split at hmemo
  · rename_i entry hentry
    split at hmemo
    · obtain hout : entry.outcome = (outcome, origin) := Option.some.inj hmemo
      simpa [hout] using h.memo size entry hentry
    · cases hmemo
  · cases hmemo

section Resolve

variable (h : Dated wiring s) (hsize : size ∈ forgetSizeFanout) (hcalled : floor ≤ s.called)
  (hcovered : ∀ served ∈ forgetSizeFanout, Covered wiring s floor served)

include h hsize hcalled hcovered

theorem next_ok (hpoint : PointOk floor point) (hlands : Lands fails s size floor point)
    (hnext : next wiring scheme me fails s size point = some (effect, point')) :
    EffectOk wiring s effect ∧ PointOk floor point' := by
  have hown := hcovered size hsize
  cases point with
  | negativeCheck =>
    have hmissed : PointOk floor (if wiring.index then .exactGet else .memoCheck) := by
      split <;> trivial
    simp only [next] at hnext
    split at hnext
    · rename_i entry hentry
      split at hnext <;> cases hnext
      · exact ⟨trivial, (h.negative size entry hentry).mono hown.negative⟩
      · exact ⟨trivial, hmissed⟩
    · cases hnext
      exact ⟨trivial, hmissed⟩
  | exactGet =>
    simp only [next] at hnext
    split at hnext <;> cases hnext
    · rename_i hrow
      exact ⟨trivial, pointOk_serve _ _ _ (h.row_since hrow hown)⟩
    · exact ⟨trivial, fun _ => mem_fanout_of_candidate hsize⟩
  | anyGet candidates =>
    cases candidates with
    | nil =>
      cases hnext
      exact ⟨trivial, trivial⟩
    | cons candidate candidates =>
      simp only [next] at hnext
      split at hnext <;> cases hnext
      · rename_i hrow
        have hfanout := hpoint candidate (List.mem_cons_self ..)
        exact ⟨trivial, pointOk_serve _ _ _ (h.row_since hrow (hcovered candidate hfanout))⟩
      · exact ⟨trivial, fun candidate hmem => hpoint candidate (List.mem_cons_of_mem _ hmem)⟩
  | evict exact served stage =>
    have heffect := evictNext_effectOk wiring s served 0 fails stage
    simp only [next] at hnext
    split at hnext <;> cases hnext
    · exact ⟨heffect, trivial⟩
    · exact ⟨heffect, pointOk_unserved exact hsize⟩
  | probe exact served hash origin =>
    simp only [next] at hnext
    split at hnext <;> cases hnext
    · exact ⟨trivial, trivial⟩
    · exact ⟨trivial, hpoint⟩
  | drift exact served =>
    cases hnext
    exact ⟨by cases fails <;> trivial, pointOk_unserved exact hsize⟩
  | memoCheck =>
    simp only [next] at hnext
    split at hnext <;> cases hnext
    · rename_i hmemo
      exact ⟨trivial, pointOk_answered _ ((checkMemo_since h hmemo).mono hown.memo)⟩
    · exact ⟨trivial, trivial⟩
  | inflightCheck =>
    simp only [next] at hnext
    split at hnext <;> cases hnext
    · exact ⟨trivial, trivial⟩
    · refine ⟨trivial, ?_⟩
      unfold fetch
      split
      · exact hcalled
      · trivial
  | waiting flight since =>
    simp only [next] at hnext
    split at hnext <;> cases hnext
    · rename_i hlanded
      exact ⟨trivial, pointOk_answered _ (hlands _ hlanded _ rfl)⟩
    · exact ⟨trivial, trivial⟩
  | notePut note outcome origin =>
    cases hnext
    exact ⟨hlands, hpoint⟩
  | fetched outcome origin =>
    cases hnext
    exact ⟨hlands, hpoint⟩
  | memoised outcome origin =>
    cases hnext
    exact ⟨trivial, pointOk_answered _ hpoint⟩
  | directory hash provider origin =>
    simp only [next] at hnext
    split at hnext <;> cases hnext
    · exact ⟨trivial, hpoint⟩
    · exact ⟨trivial, hpoint⟩
  | write hash provider origin =>
    simp only [next] at hnext
    split at hnext <;> cases hnext
    · exact ⟨trivial, hpoint⟩
    · exact ⟨trivial, hpoint⟩
  | rename hash provider origin =>
    cases hnext
    refine ⟨?_, hpoint⟩
    cases fails
    · exact hlands rfl
    · trivial
  | noteTransient outcome origin =>
    simp only [next] at hnext
    split at hnext <;> cases hnext
    · rename_i hnote
      exact ⟨hlands (by simp [hnote]), hpoint⟩
    · exact ⟨trivial, hpoint⟩
  | admitting tier => cases hnext
  | dispatched tier began => cases hnext
  | returned outcome origin => cases hnext
  | cancelled => cases hnext

end Resolve

theorem resolveMove_ok (h : Dated wiring s)
    (htask : TaskOk wiring s (.resolve size floor point))
    (hlands : ∀ fails, move = .go fails → Lands fails s size floor point)
    (hmove : resolveMove wiring scheme value me s size point move = some (effect, point')) :
    EffectOk wiring s effect ∧ PointOk floor point' := by
  obtain ⟨hsize, hcalled, hcovered, hpoint⟩ := htask
  cases move with
  | go fails => exact next_ok h hsize hcalled hcovered hpoint (hlands fails rfl) hmove
  | admission refusal =>
    cases point with
    | admitting tier =>
      simp only [resolveMove, admission] at hmove
      split at hmove <;> cases hmove
      · exact ⟨trivial, by simp [PointOk, Since]⟩
      · exact ⟨trivial, hcalled⟩
    | _ => cases hmove
  | reply answer =>
    cases point with
    | dispatched tier began =>
      have hsince : Since floor (some began) := by
        rintro _ ⟨⟩
        exact hpoint
      simp only [resolveMove, reply] at hmove
      split at hmove <;> cases hmove
      · exact ⟨trivial, hsince⟩
      · exact ⟨trivial, hsince⟩
      · exact ⟨trivial, trivial⟩
    | _ => cases hmove
  | expire =>
    cases point with
    | waiting flight since =>
      simp only [resolveMove, expire] at hmove
      split at hmove <;> cases hmove
      exact ⟨trivial, by simp [PointOk, Since]⟩
    | _ => cases hmove
  | cancel =>
    cases point <;> cases hmove <;> exact ⟨trivial, trivial⟩

-- ---------------------------------------------------------------------------
-- Forgets
-- ---------------------------------------------------------------------------

/-- A stage leaves its mark, and the last one has left them all. -/
theorem evictNext_stageOk {stage : Stage} (h : StageOk wiring s number size stage)
    (hremoves : ∀ hash, stage = .remove hash → fails = false) :
    (∀ stage' ∈ (evictNext wiring s size number fails stage).2,
      StageOk wiring ((evictNext wiring s size number fails stage).1.apply s) number size stage') ∧
    ((evictNext wiring s size number fails stage).2 = none →
      Covered wiring ((evictNext wiring s size number fails stage).1.apply s) number size) := by
  cases stage with
  | negative =>
    refine ⟨?_, by simp [evictNext]⟩
    rintro _ ⟨⟩
    exact number_le_mark s .negative size number
  | memo =>
    have hmark : number ≤ ((Effect.dropMemo size number).apply s).wiped .memo size :=
      number_le_mark s .memo size number
    have hkept : number ≤ ((Effect.dropMemo size number).apply s).wiped .negative size :=
      Nat.le_trans h ((rises_apply s _).wiped _ _)
    simp only [evictNext]
    cases hindex : wiring.index
    · exact ⟨by simp, fun _ => ⟨hkept, hmark, by simp [hindex]⟩⟩
    · refine ⟨?_, by simp⟩
      rintro _ ⟨⟩
      exact ⟨hkept, hmark⟩
  | read =>
    refine ⟨?_, by simp [evictNext]⟩
    rintro _ ⟨⟩
    exact h
  | remove hash =>
    obtain rfl := hremoves hash rfl
    have hcovered : Covered wiring ((Effect.removeRow size number).apply s) number size :=
      ⟨Nat.le_trans h.1 ((rises_apply s _).wiped _ _),
        Nat.le_trans h.2 ((rises_apply s _).wiped _ _), fun _ => number_le_mark s .row size number⟩
    refine ⟨fun stage' hstage' => ?_, fun _ => hcovered⟩
    cases hash with
    | none => cases hstage'
    | some hash =>
      simp only [evictNext] at hstage'
      split at hstage' <;> cases hstage'
      exact hcovered
  | delete hash => exact ⟨by simp [evictNext], fun _ => Covered.rises h (rises_apply s _)⟩

theorem taskOk_forgetFrom (hcalled : number ≤ s.called)
    (hdone : ∀ done ∈ forgetSizeFanout, done ∈ sizes ∨ Covered wiring s number done) :
    TaskOk wiring s (forgetFrom number sizes) := by
  cases sizes with
  | nil => exact ⟨hcalled, fun done hfanout => by simpa using hdone done hfanout⟩
  | cons size sizes =>
    refine ⟨hcalled, trivial, fun done hfanout => ?_⟩
    rcases hdone done hfanout with hmem | hcovered
    · rcases List.mem_cons.mp hmem with hnow | hleft
      · exact .inl hnow
      · exact .inr (.inl hleft)
    · exact .inr (.inr hcovered)

theorem taskMove_ok (h : Dated wiring s) (htask : TaskOk wiring s task)
    (hheeds : ∀ fails, move = .go fails → TaskHeeds s fails task)
    (hmove : taskMove wiring scheme value me s move task = some (effect, task')) :
    EffectOk wiring s effect ∧ TaskOk wiring (effect.apply s) task' := by
  have hr := rises_apply s effect
  cases task with
  | resolve size floor point =>
    obtain ⟨point', hresolve, rfl⟩ := taskMove_resolve.mp hmove
    obtain ⟨heffect, hpoint⟩ := resolveMove_ok h htask hheeds hresolve
    obtain ⟨hsize, hcalled, hcovered, -⟩ := htask
    exact ⟨heffect, hsize, Nat.le_trans hcalled hr.called,
      fun served hserved => (hcovered served hserved).rises hr, hpoint⟩
  | forget number size sizes stage =>
    obtain ⟨hcalled, hstage, hdone⟩ := htask
    cases move with
    | go fails =>
      have hremoves : ∀ hash, stage = .remove hash → fails = false := by
        rintro hash rfl
        exact hheeds fails rfl
      have heffect := evictNext_effectOk wiring s size number fails stage
      obtain ⟨hsome, hnone⟩ := evictNext_stageOk hstage hremoves
      simp only [taskMove] at hmove
      split at hmove <;> cases hmove
      · rename_i stage' hstage'
        refine ⟨heffect, Nat.le_trans hcalled hr.called, hsome stage' hstage', fun done hfanout => ?_⟩
        rcases hdone done hfanout with hnow | hleft | hcovered
        · exact .inl hnow
        · exact .inr (.inl hleft)
        · exact .inr (.inr (hcovered.rises hr))
      · rename_i hlast
        refine ⟨heffect, taskOk_forgetFrom (Nat.le_trans hcalled hr.called) fun done hfanout => ?_⟩
        rcases hdone done hfanout with rfl | hleft | hcovered
        · exact .inr (hnone hlast)
        · exact .inl hleft
        · exact .inr (hcovered.rises hr)
    | cancel =>
      cases hmove
      exact ⟨trivial, trivial⟩
    | _ => cases hmove
  | returning number =>
    cases move with
    | go fails =>
      cases hmove
      exact ⟨htask, trivial⟩
    | _ => cases hmove
  | ended => cases hmove

-- ---------------------------------------------------------------------------
-- Runs
-- ---------------------------------------------------------------------------

/-- The invariant of a run. -/
structure Kept (wiring : Wiring) (pool : Pool Shared Task) : Prop where
  dated : Dated wiring pool.shared
  tasks : pool.Each fun s _ task => TaskOk wiring s task

theorem mem_forgottenSizes (hsize : done ∈ forgetSizeFanout) (size : List Char) :
    done ∈ forgottenSizes size :=
  List.mem_append_left _ hsize

theorem Kept.step {pool pool' : Pool Shared Task} (h : Kept wiring pool) (hok : Heeds pool a)
    (hstep : step wiring scheme value pool a = some pool') : Kept wiring pool' := by
  obtain ⟨hdated, htasks⟩ := h
  cases a with
  | resolve size =>
    cases hstep
    exact ⟨hdated, htasks.spawn ⟨hok, hdated.called, hdated.covered, trivial⟩⟩
  | forget size =>
    cases hstep
    have hr : Rises pool.shared { pool.shared with called := pool.shared.called + 1 } :=
      ⟨Nat.le_succ _, fun _ _ => Nat.le_refl _⟩
    refine ⟨hdated.of_eq rfl (fun _ => rfl) rfl rfl hr.called rfl, ?_⟩
    refine (htasks.shared fun _ _ htask => htask.rises hr).spawn ?_
    exact taskOk_forgetFrom (Nat.le_refl _) fun done hfanout =>
      .inl (mem_forgottenSizes hfanout size)
  | move i move =>
    obtain ⟨task, effect, task', htask, hmove, rfl⟩ := step_move.mp hstep
    obtain ⟨hlt, -⟩ := List.getElem?_eq_some_iff.mp htask
    have hheeds : ∀ fails, move = .go fails → TaskHeeds pool.shared fails task := by
      rintro fails rfl
      exact hok task htask
    obtain ⟨heffect, htask'⟩ := taskMove_ok hdated (htasks i task htask) hheeds hmove
    exact ⟨hdated.apply heffect, htasks.set hlt htask' fun _ _ _ _ hother =>
      hother.rises (rises_apply _ _)⟩
  | tick elapsed =>
    cases hstep
    exact ⟨hdated.of_eq rfl (fun _ => rfl) rfl rfl (Nat.le_refl _) rfl,
      htasks.shared fun _ _ htask => htask.rises (.of_eq rfl rfl)⟩
  | dropNote size =>
    cases hstep
    have heffect : EffectOk wiring pool.shared (.dropNote size 0) := trivial
    exact ⟨hdated.apply heffect, htasks.shared fun _ _ htask => htask.rises (rises_apply _ _)⟩
  | store hash =>
    cases hstep
    exact ⟨hdated.of_eq rfl (fun _ => rfl) rfl rfl (Nat.le_refl _) rfl,
      htasks.shared fun _ _ htask => htask.rises (.of_eq rfl rfl)⟩
  | evictBytes hash =>
    cases hstep
    have heffect : EffectOk wiring pool.shared (.deleteBytes hash) := trivial
    exact ⟨hdated.apply heffect, htasks.shared fun _ _ htask => htask.rises (rises_apply _ _)⟩

theorem kept_boot (wiring : Wiring) (entry : List Char → Option Body)
    (assets : Finset (List Char)) : Kept wiring (boot entry assets) := by
  refine ⟨⟨?_, ?_, ?_, Nat.le_refl _, fun _ _ => ⟨Nat.zero_le _, Nat.zero_le _, fun _ =>
    Nat.zero_le _⟩⟩, fun _ _ h => by simp [boot] at h⟩
  · simp [boot]
  · simp [boot, Slot.empty]
  · exact fun _ _ _ _ _ => Nat.zero_le _

/-- Forget means forget in every run whose outcomes land where they may. -/
theorem forgets_of_heeds {pool : Pool Shared Task} {entry : List Char → Option Body}
    {assets : Finset (List Char)} {acts : List Action}
    (h : Machine.exec (step wiring scheme value) (boot entry assets) acts = some pool)
    (hok : Machine.Meets (step wiring scheme value) Heeds (boot entry assets) acts) :
    Forgets pool := by
  have hkept : Kept wiring pool :=
    Machine.exec_invariant Kept.step (kept_boot wiring entry assets) hok h
  intro i size floor outcome origin htask
  obtain ⟨-, -, -, hpoint⟩ := hkept.tasks i _ htask
  exact hpoint

instance decidableLands (fails : Bool) (s : Shared) (size : List Char) (floor : Nat) :
    (point : Point) → Decidable (Lands fails s size floor point)
  | .notePut _ _ _ => decidableSince _ _
  | .fetched _ _ => decidableSince _ _
  | .rename _ _ _ =>
    inferInstanceAs (Decidable (fails = false →
      ∀ cell ∈ s.temp size, Since (s.wiped .row size) cell.origin))
  | .noteTransient outcome origin =>
    inferInstanceAs (Decidable ((transientNote outcome).isSome = true →
      Since (s.wiped .negative size) origin))
  | .waiting flight _ => inferInstanceAs (Decidable (∀ landed ∈ (s.slot size).landed.lookup flight,
      ∀ outcome ∈ landed, Since floor outcome.2))
  | .negativeCheck => .isTrue trivial
  | .exactGet => .isTrue trivial
  | .anyGet _ => .isTrue trivial
  | .evict _ _ _ => .isTrue trivial
  | .probe _ _ _ _ => .isTrue trivial
  | .drift _ _ => .isTrue trivial
  | .memoCheck => .isTrue trivial
  | .inflightCheck => .isTrue trivial
  | .admitting _ => .isTrue trivial
  | .dispatched _ _ => .isTrue trivial
  | .memoised _ _ => .isTrue trivial
  | .directory _ _ _ => .isTrue trivial
  | .write _ _ _ => .isTrue trivial
  | .returned _ _ => .isTrue trivial
  | .cancelled => .isTrue trivial

instance decidableTaskHeeds (s : Shared) (fails : Bool) :
    (task : Task) → Decidable (TaskHeeds s fails task)
  | .resolve size floor point => decidableLands fails s size floor point
  | .forget _ _ _ (.remove _) => inferInstanceAs (Decidable (fails = false))
  | .forget _ _ _ .negative => .isTrue trivial
  | .forget _ _ _ .memo => .isTrue trivial
  | .forget _ _ _ .read => .isTrue trivial
  | .forget _ _ _ (.delete _) => .isTrue trivial
  | .returning _ => .isTrue trivial
  | .ended => .isTrue trivial

instance decidableHeeds (pool : Pool Shared Task) : (a : Action) → Decidable (Heeds pool a)
  | .resolve size => inferInstanceAs (Decidable (size ∈ forgetSizeFanout))
  | .move i (.go fails) =>
    inferInstanceAs (Decidable (∀ task ∈ pool.tasks[i]?, TaskHeeds pool.shared fails task))
  | .move _ (.admission _) => .isTrue trivial
  | .move _ (.reply _) => .isTrue trivial
  | .move _ .expire => .isTrue trivial
  | .move _ .cancel => .isTrue trivial
  | .forget _ => .isTrue trivial
  | .tick _ => .isTrue trivial
  | .dropNote _ => .isTrue trivial
  | .store _ => .isTrue trivial
  | .evictBytes _ => .isTrue trivial

/-- A forget of `original` from its call to its return. -/
def forgetting (i : Nat) : List Action := .forget "original".toList :: .replicate 18 (.goes i)

/-- A resolve lands, a forget returns, and another resolve dispatches again. -/
def refreshed : List Action :=
  dispatching 0 ++ landing 0 'a' ++ forgetting 1 ++ dispatching 2 ++ landing 2 'b'

theorem forgets_of_heeds_refreshed :
    ∃ pool, Machine.exec beatles (boot (fun _ => none) ∅) refreshed = some pool ∧
      pool.tasks[2]? = some (.resolve "original".toList 1
        (.returned (.resolved (hashOf 'b') none) (some 1))) ∧ Forgets pool := by
  obtain ⟨pool, hpool, htask⟩ := Machine.exec_of_any beatles (boot (fun _ => none) ∅) refreshed
    (fun pool => pool.tasks[2]? = some (.resolve "original".toList 1
      (.returned (.resolved (hashOf 'b') none) (some 1)))) (by decide)
  exact ⟨pool, hpool, of_decide_eq_true htask, forgets_of_heeds hpool (by decide)⟩

/-- A forget returns while a provider is asked. The resolve after it joins the
call in flight, and answers with what was to be forgotten. -/
theorem forgotten_in_flight :
    ¬∀ (acts : List Action) (pool : Pool Shared Task),
      Machine.exec beatles (boot (fun _ => none) ∅) acts = some pool → Forgets pool := by
  intro hall
  obtain ⟨pool, hpool, htask⟩ := Machine.exec_of_any beatles (boot (fun _ => none) ∅)
    (dispatching 0 ++ .forget "original".toList :: .replicate 17 (.goes 1) ++ dispatching 2 ++
      landing 0 'a' ++ .replicate 4 (.goes 2))
    (fun pool => pool.tasks[2]? = some (.resolve "original".toList 1
      (.returned (.resolved (hashOf 'a') none) (some 0)))) (by decide)
  have hsince := hall _ pool hpool 2 _ _ _ _ (of_decide_eq_true htask)
  exact absurd (hsince 0 rfl) (by decide)

end EvoAudio.Artwork.Cascade
