import EvoAudio.Options.Copies

/-!
# No acknowledged setting is lost

A call that was answered with Ok has its value in memory, in the state file and
in the subject once everything has come to rest, as long as no copy of the
settings takes the place of one that has seen more updates.
-/

namespace EvoAudio.Options.Calls

variable {φ : Type}

-- ---------------------------------------------------------------------------
-- A step of a call
-- ---------------------------------------------------------------------------

/-- The defaults of a missing file have seen no update but those of the start. -/
theorem loadSettings_showsOthers [OfNat φ 0] [OfNat φ 1] {initial : MixerType} {s : Shared φ}
    {i : Nat} {fails : Bool} (hcopies : Copies initial s)
    (hapart : ∀ mark ∈ s.marks, mark.call ≠ i → .mixerType ∉ mark.fields)
    (hfirst : ∀ mark ∈ s.marks, mark.stamp = 0 → mark.fields = [.mixerType]) :
    ∀ copy ∈ loadSettings fails s, ShowsOthers s i copy := by
  intro copy hcopy
  simp only [loadSettings] at hcopy
  split at hcopy
  · cases hcopy
  · split at hcopy <;> cases hcopy
    · rename_i hfile
      exact (hcopies.file _ hfile).showsOthers i
    · refine ⟨Nat.zero_le _, fun mark hmark hcall hle => ?_⟩
      have hfields := hfirst mark hmark (Nat.le_zero.mp hle)
      exact absurd (hfields ▸ List.mem_singleton_self _) (hapart mark hmark hcall)

section Steps

variable [LE φ] [DecidableLE φ] [OfNat φ 0] [OfNat φ 1] {bounds : EqBounds φ}
  {initial : MixerType} {s : Shared φ} {i : Nat} {fails : Bool} {effect : Effect φ}

/-- A mark of a call that is so far. -/
structure MarkOf (bounds : EqBounds φ) (s : Shared φ) (call : Call φ) (mark : Mark φ) : Prop where
  fields : mark.fields = call.fields
  wrote : call.Wrote bounds mark.wrote
  seen : mark.stamp ≤ s.memory.stamp
  /-- Only a transition that had nothing to do has a mark of the start. -/
  first : mark.stamp = 0 → mark.fields = [.mixerType]

/-- The effect of a step of a call. -/
structure Moves (bounds : EqBounds φ) (initial : MixerType) (s : Shared φ) (i : Nat)
    (call : Call φ) (effect : Effect φ) : Prop where
  ok : EffectOk initial s i effect
  ofMixer : effect.ofMixer = true → .mixerType ∈ call.fields
  marks : ∀ mark ∈ (effect.apply s).marks,
    mark ∈ s.marks ∨ mark.call = i ∧ MarkOf bounds (effect.apply s) call mark

theorem moves_of_marks {call : Call φ} (heffect : EffectOk initial s i effect)
    (hmixer : effect.ofMixer = false) (hmarks : ∀ mark ∈ (effect.apply s).marks, mark ∈ s.marks) :
    Moves bounds initial s i call effect :=
  ⟨heffect, by simp [hmixer], fun mark hmark => .inl (hmarks mark hmark)⟩

theorem moves_finish (bounds : EqBounds φ) (initial : MixerType) (s : Shared φ) (i : Nat)
    (call : Call φ) (refusal : Option Refusal) :
    Moves bounds initial s i call (.finish i refusal) := by
  refine moves_of_marks rfl rfl fun mark hmark => ?_
  cases refusal with
  | none => exact hmark
  | some refusal => exact (mem_unmark.mp hmark).1

theorem Persists.moves {stage : Stage φ} {after : Effect φ × Persisting φ} {call : Call φ}
    (h : Persists initial s i stage after) : Moves bounds initial s i call after.1 :=
  moves_of_marks h.effect h.ofMixer fun _ hmark => h.marks ▸ hmark

/-- What the settings show of other calls, an update of a call still shows. -/
theorem shown_update {own : Setter φ} {settings : Settings φ} {mark : Mark φ}
    (hupdate : own.update bounds s.memory.settings = .ok settings)
    (hshown : mark.Shown s.memory.settings) (hapart : mark.fields.Disjoint own.fields) :
    mark.Shown settings :=
  fun field hfield => (Setter.update_same bounds hupdate (hapart hfield)).trans (hshown field hfield)

/-- Settings that show the updates of all the others take the place of all. -/
theorem moves_replace {target : MixerType} {point : MixerPoint φ} {copy : Stamped φ}
    (hshows : ShowsOthers s i copy) (hothers : SeenOthers s i copy) :
    Moves bounds initial s i (.mixer target point) (.replace i copy.settings) := by
  refine ⟨⟨rfl, fun mark hmark hcall => ?_⟩, fun _ => List.mem_singleton_self _,
    fun mark hmark => ?_⟩
  · exact hshows.shown mark hmark hcall (hothers mark hmark hcall)
  · exact .inl (mem_unmark.mp hmark).1

variable (hcopies : Copies initial s)

include hcopies

theorem moves_noOp {target : MixerType} {point : MixerPoint φ} (htype : s.typeTouched = false)
    (htarget : initial = target) : Moves bounds initial s i (.mixer target point) (.noOp i) := by
  refine ⟨⟨rfl, htype⟩, fun _ => List.mem_singleton_self _, fun mark hmark => ?_⟩
  rcases List.mem_cons.mp hmark with rfl | hold
  · exact .inr ⟨rfl, rfl, (hcopies.memory.type htype).trans htarget, Nat.zero_le _, fun _ => rfl⟩
  · exact .inl hold

variable (hseen : ∀ mark ∈ s.marks, mark.stamp ≤ s.memory.stamp)

include hseen

theorem moves_setType {target : MixerType} {point : MixerPoint φ} (hunmarked : Unmarked s i)
    (hapart : ∀ mark ∈ s.marks, mark.call ≠ i → .mixerType ∉ mark.fields) :
    Moves bounds initial s i (.mixer target point)
      (.update i [.mixerType] { s.memory.settings with mixerType := target } true) := by
  refine ⟨⟨rfl, fun mark hmark field hfield => ?_, by simp⟩, fun _ => List.mem_singleton_self _,
    fun mark hmark => ?_⟩
  · have hshown := hcopies.memory.shown mark hmark (hseen mark hmark) field hfield
    have hne := hapart mark hmark (hunmarked mark hmark)
    cases field with
    | mixerType => exact absurd hfield hne
    | _ => exact hshown
  · rcases List.mem_cons.mp hmark with rfl | hold
    · exact .inr ⟨rfl, rfl, rfl, Nat.le_refl _, by simp⟩
    · exact .inl hold

theorem setterNext_ok {own : Setter φ} {point point' : SetterPoint φ}
    (hapart : ∀ mark ∈ s.marks, mark.call ≠ i → mark.fields.Disjoint own.fields)
    (hok : SetterOk initial s i point) (horder : CallInOrder s i fails (.setter own point))
    (hnext : setterNext bounds i fails s own point = some (effect, point')) :
    Moves bounds initial s i (.setter own point) effect ∧
      SetterOk initial (effect.apply s) i point' := by
  cases point with
  | update =>
    have hunmarked : Unmarked s i := hok
    simp only [setterNext] at hnext
    split at hnext <;> cases hnext
    · rename_i settings hupdate
      have htype : settings.mixerType = s.memory.settings.mixerType :=
        Setter.update_same bounds hupdate own.mixerType_not_mem
      refine ⟨⟨⟨rfl, fun mark hmark => ?_, fun _ => htype⟩, by simp [Effect.ofMixer],
        fun mark hmark => ?_⟩, ?_, ?_⟩
      · exact shown_update hupdate (hcopies.memory.shown mark hmark (hseen mark hmark))
          (hapart mark hmark (hunmarked mark hmark))
      · rcases List.mem_cons.mp hmark with rfl | hold
        · exact .inr ⟨rfl, rfl, ⟨_, hupdate⟩, Nat.le_refl _, by simp⟩
        · exact .inl hold
      · rintro _ ⟨⟩
      · refine ⟨_, List.mem_cons_self .., rfl, ?_⟩
        rintro _ ⟨⟩
    · exact ⟨moves_finish .., trivial⟩
  | persist stage extra =>
    have hpersist := persistNext_ok (i := i) hcopies hseen hok.1 horder
    simp only [setterNext] at hnext
    split at hnext <;> cases hnext
    · rename_i stage' hstage'
      obtain ⟨hfits, hmarked⟩ := hpersist.next stage' hstage'
      exact ⟨hpersist.moves, hfits, hmarked hok.2⟩
    · rename_i hdone
      exact ⟨hpersist.moves, hpersist.done hdone hok.2⟩
    · exact ⟨hpersist.moves, trivial⟩
  | publish extra =>
    have hmoves : Moves bounds initial s i (.setter own (.publish extra)) .publish :=
      moves_of_marks trivial rfl fun _ => id
    have hsettled := settled_publish hseen hok
    cases extra with
    | zero =>
      cases hnext
      exact ⟨hmoves, hsettled⟩
    | succ extra =>
      cases hnext
      exact ⟨hmoves, hok⟩
  | failing refusal =>
    cases hnext
    exact ⟨moves_finish .., trivial⟩
  | returned refusal => cases hnext

theorem mixerNext_ok {target : MixerType} {point point' : MixerPoint φ}
    (hapart : ∀ mark ∈ s.marks, mark.call ≠ i → .mixerType ∉ mark.fields)
    (hfirst : ∀ mark ∈ s.marks, mark.stamp = 0 → mark.fields = [.mixerType])
    (hok : MixerOk initial s i point) (horder : CallInOrder s i fails (.mixer target point))
    (hnext : mixerNext i fails s target point = some (effect, point')) :
    Moves bounds initial s i (.mixer target point) effect ∧
      MixerOk initial (effect.apply s) i point' := by
  have hnothing : Moves bounds initial s i (.mixer target point) .nothing :=
    moves_of_marks trivial rfl fun _ => id
  have hpublish : Moves bounds initial s i (.mixer target point) .publish :=
    moves_of_marks trivial rfl fun _ => id
  cases point with
  | check =>
    simp only [mixerNext] at hnext
    split at hnext <;> cases hnext
    · exact ⟨moves_finish .., trivial⟩
    · exact ⟨hnothing, hok, hcopies.memory.type hok.untouched⟩
  | locking before =>
    simp only [mixerNext] at hnext
    split at hnext <;> cases hnext
    exact ⟨moves_of_marks trivial rfl fun _ => id, ⟨hok.1.unmarked, hok.1.untouched⟩, hok.2⟩
  | start before =>
    obtain ⟨hearly, hbefore⟩ := hok
    simp only [mixerNext] at hnext
    split at hnext <;> cases hnext
    · rename_i hsame
      obtain ⟨copy, hfile⟩ := horder hsame
      exact ⟨moves_noOp hcopies hearly.untouched (hbefore.symm.trans hsame),
        _, List.mem_cons_self .., rfl, ⟨copy, hfile, Nat.zero_le _⟩, .inl (Nat.zero_le _)⟩
    · exact ⟨hnothing, hearly⟩
  | noOp =>
    cases hnext
    exact ⟨moves_finish .., hok⟩
  | preMute =>
    simp only [mixerNext] at hnext
    split at hnext <;> cases hnext
    · exact ⟨hnothing, trivial⟩
    · exact ⟨hnothing, hok⟩
  | takePrior =>
    cases hnext
    exact ⟨hnothing, hok, hcopies.memory⟩
  | setType prior =>
    obtain ⟨hearly, hfits⟩ := hok
    cases hnext
    have hmoves : Moves bounds initial s i (.mixer target (.setType prior)) _ :=
      moves_setType hcopies hseen hearly.unmarked hapart
    refine ⟨hmoves, hfits.apply hcopies.memory hmoves.ok, by rintro _ ⟨⟩, ?_⟩
    refine ⟨_, List.mem_cons_self .., rfl, ?_⟩
    rintro _ ⟨⟩
  | persist prior stage =>
    obtain ⟨hfits, hstage, hmarked⟩ := hok
    have hpersist := persistNext_ok (i := i) hcopies hseen hstage horder
    have hfits' := hfits.apply hcopies.memory hpersist.effect
    simp only [mixerNext] at hnext
    split at hnext <;> cases hnext
    · rename_i stage' hstage'
      obtain ⟨hnext', hmarked'⟩ := hpersist.next stage' hstage'
      exact ⟨hpersist.moves, hfits', hnext', hmarked' hmarked⟩
    · rename_i hdone
      exact ⟨hpersist.moves, hfits', hpersist.done hdone hmarked⟩
    · exact ⟨hpersist.moves, hfits'⟩
  | undo prior =>
    cases hnext
    exact ⟨moves_replace (Fits.showsOthers hok i) horder, trivial⟩
  | publish prior =>
    cases hnext
    exact ⟨hpublish, hok.1.apply hcopies.memory hpublish.ok, settled_publish hseen hok.2⟩
  | verify prior =>
    simp only [mixerNext] at hnext
    split at hnext <;> cases hnext
    · exact ⟨hnothing, hok⟩
    · exact ⟨hnothing, hok.1⟩
  | unmute prior =>
    simp only [mixerNext] at hnext
    split at hnext <;> cases hnext
    · exact ⟨hnothing, hok.1⟩
    · exact ⟨moves_finish .., hok.2⟩
  | restore prior =>
    cases hnext
    exact ⟨moves_replace (Fits.showsOthers hok i) horder, by rintro _ ⟨⟩⟩
  | restorePersist stage =>
    have hpersist := persistNext_ok (i := i) hcopies hseen hok horder
    simp only [mixerNext] at hnext
    split at hnext <;> cases hnext
    · rename_i stage' hstage'
      exact ⟨hpersist.moves, (hpersist.next stage' hstage').1⟩
    · exact ⟨hpersist.moves, trivial⟩
    · exact ⟨hpersist.moves, trivial⟩
  | restorePublish =>
    cases hnext
    exact ⟨hpublish, trivial⟩
  | reload =>
    cases hnext
    exact ⟨hnothing, loadSettings_showsOthers hcopies hapart hfirst⟩
  | reloaded content =>
    cases content with
    | none =>
      cases hnext
      exact ⟨hnothing, trivial⟩
    | some copy =>
      cases hnext
      exact ⟨moves_replace (hok copy rfl) horder, trivial⟩
  | failing =>
    cases hnext
    exact ⟨moves_finish .., trivial⟩
  | returned refusal => cases hnext

end Steps

-- ---------------------------------------------------------------------------
-- Runs
-- ---------------------------------------------------------------------------

section Runs

variable [LE φ] [DecidableLE φ] [OfNat φ 0] [OfNat φ 1] {bounds : EqBounds φ}
  {initial : MixerType} {pool pool' : Pool (Shared φ) (Call φ)} {i : Nat} {fails : Bool}

/-- The invariant of a run. -/
structure Kept (bounds : EqBounds φ) (initial : MixerType) (pool : Pool (Shared φ) (Call φ)) :
    Prop where
  copies : Copies initial pool.shared
  marks : ∀ mark ∈ pool.shared.marks, ∃ call, pool.tasks[mark.call]? = some call ∧
    MarkOf bounds pool.shared call mark
  apart : ∀ (i j : Nat) (call call' : Call φ), pool.tasks[i]? = some call →
    pool.tasks[j]? = some call' → i ≠ j → call.fields.Disjoint call'.fields
  touched : pool.shared.typeTouched = true → ∃ (i : Nat) (call : Call φ),
    pool.tasks[i]? = some call ∧ .mixerType ∈ call.fields
  calls : pool.Each (CallOk initial)

theorem Kept.seen (h : Kept bounds initial pool) :
    ∀ mark ∈ pool.shared.marks, mark.stamp ≤ pool.shared.memory.stamp := by
  intro mark hmark
  obtain ⟨call, -, hof⟩ := h.marks mark hmark
  exact hof.seen

/-- The marks of other calls are in other fields. -/
theorem Kept.marks_apart (h : Kept bounds initial pool) {call : Call φ}
    (hcall : pool.tasks[i]? = some call) :
    ∀ mark ∈ pool.shared.marks, mark.call ≠ i → mark.fields.Disjoint call.fields := by
  intro mark hmark hne
  obtain ⟨other, hother, hof⟩ := h.marks mark hmark
  rw [hof.fields]
  exact h.apart mark.call i other call hother hcall hne

/-- A call keeps what it is about. -/
theorem callNext_same {call call' : Call φ} {s : Shared φ} {effect : Effect φ}
    (h : callNext bounds i fails s call = some (effect, call')) :
    call'.fields = call.fields ∧
      ∀ written, call'.Wrote bounds written ↔ call.Wrote bounds written := by
  cases call with
  | setter own point =>
    obtain ⟨⟨effect', point'⟩, -, heq⟩ := Option.map_eq_some_iff.mp h
    cases heq
    exact ⟨rfl, fun _ => Iff.rfl⟩
  | mixer target point =>
    obtain ⟨⟨effect', point'⟩, -, heq⟩ := Option.map_eq_some_iff.mp h
    cases heq
    exact ⟨rfl, fun _ => Iff.rfl⟩

theorem Kept.callNext_ok (h : Kept bounds initial pool) {call call' : Call φ} {effect : Effect φ}
    (hcall : pool.tasks[i]? = some call) (horder : CallInOrder pool.shared i fails call)
    (hnext : callNext bounds i fails pool.shared call = some (effect, call')) :
    Moves bounds initial pool.shared i call effect ∧
      CallOk initial (effect.apply pool.shared) i call' := by
  have hapart := h.marks_apart hcall
  have hok := h.calls i call hcall
  cases call with
  | setter own point =>
    obtain ⟨⟨effect', point'⟩, hstep, heq⟩ := Option.map_eq_some_iff.mp hnext
    cases heq
    exact setterNext_ok h.copies h.seen hapart hok horder hstep
  | mixer target point =>
    obtain ⟨⟨effect', point'⟩, hstep, heq⟩ := Option.map_eq_some_iff.mp hnext
    cases heq
    refine mixerNext_ok h.copies h.seen (fun mark hmark hne hfield => ?_) (fun mark hmark => ?_) hok
      horder hstep
    · exact hapart mark hmark hne hfield (List.mem_singleton_self _)
    · obtain ⟨other, -, hof⟩ := h.marks mark hmark
      exact hof.first

/-- The calls other than the one that moves. -/
theorem Kept.others_ok (h : Kept bounds initial pool) {call other : Call φ} {effect : Effect φ}
    {j : Nat} (hcall : pool.tasks[i]? = some call) (hother : pool.tasks[j]? = some other)
    (hne : j ≠ i) (hmoves : Moves bounds initial pool.shared i call effect) :
    CallOk initial (effect.apply pool.shared) j other := by
  have hsteady := steady_apply h.copies hmoves.ok hne
  have hok := h.calls j other hother
  cases other with
  | setter own point => exact SetterOk.steady hok hsteady
  | mixer target point =>
    have hmixer : effect.ofMixer = false := by
      by_contra hof
      have hfield := hmoves.ofMixer (by simpa using hof)
      exact h.apart j i _ call hother hcall hne (List.mem_singleton_self _) hfield
    exact MixerOk.steady hok hsteady (steadyMixer_apply hmoves.ok hmixer)

/-- The call at `i` is another one with the same fields and the same values. -/
theorem Kept.apart_set (h : Kept bounds initial pool) {call call' : Call φ}
    (hcall : pool.tasks[i]? = some call) (hfields : call'.fields = call.fields) :
    ∀ (j k : Nat) (a b : Call φ), (pool.tasks.set i call')[j]? = some a →
      (pool.tasks.set i call')[k]? = some b → j ≠ k → a.fields.Disjoint b.fields := by
  have hback : ∀ (j : Nat) (a : Call φ), (pool.tasks.set i call')[j]? = some a →
      ∃ old, pool.tasks[j]? = some old ∧ a.fields = old.fields := by
    intro j a ha
    rcases eq_or_ne j i with rfl | hne
    · obtain ⟨hlt, -⟩ := List.getElem?_eq_some_iff.mp hcall
      rw [List.getElem?_set_self hlt] at ha
      cases ha
      exact ⟨call, hcall, hfields⟩
    · rw [List.getElem?_set_ne (Ne.symm hne)] at ha
      exact ⟨a, ha, rfl⟩
  intro j k a b ha hb hne
  obtain ⟨old, hold, hfields⟩ := hback j a ha
  obtain ⟨old', hold', hfields'⟩ := hback k b hb
  rw [hfields, hfields']
  exact h.apart j k old old' hold hold' hne

/-- Only a transition touches the mixer type. -/
theorem Kept.touched_set (h : Kept bounds initial pool) {call call' : Call φ} {effect : Effect φ}
    (hcall : pool.tasks[i]? = some call) (hfields : call'.fields = call.fields)
    (hmoves : Moves bounds initial pool.shared i call effect)
    (ht : (effect.apply pool.shared).typeTouched = true) :
    ∃ (j : Nat) (other : Call φ), (pool.tasks.set i call')[j]? = some other ∧
      .mixerType ∈ other.fields := by
  obtain ⟨hlt, -⟩ := List.getElem?_eq_some_iff.mp hcall
  have hmine : .mixerType ∈ call.fields → ∃ (j : Nat) (other : Call φ),
      (pool.tasks.set i call')[j]? = some other ∧ .mixerType ∈ other.fields :=
    fun hfield => ⟨i, call', List.getElem?_set_self hlt, hfields ▸ hfield⟩
  cases hof : effect.ofMixer with
  | true => exact hmine (hmoves.ofMixer hof)
  | false =>
    obtain ⟨j, other, hother, hfield⟩ := h.touched ((typeTouched_apply _ hof).symm.trans ht)
    rcases eq_or_ne j i with rfl | hne
    · cases hcall.symm.trans hother
      exact hmine hfield
    · exact ⟨j, other, (List.getElem?_set_ne (Ne.symm hne)).trans hother, hfield⟩

/-- The call at `i` has moved. -/
theorem Kept.move (h : Kept bounds initial pool) {call call' : Call φ} {effect : Effect φ}
    (hcall : pool.tasks[i]? = some call) (hfields : call'.fields = call.fields)
    (hwrote : ∀ written, call'.Wrote bounds written ↔ call.Wrote bounds written)
    (hmoves : Moves bounds initial pool.shared i call effect)
    (hok : CallOk initial (effect.apply pool.shared) i call') :
    Kept bounds initial ⟨effect.apply pool.shared, pool.tasks.set i call'⟩ := by
  obtain ⟨hlt, -⟩ := List.getElem?_eq_some_iff.mp hcall
  refine ⟨h.copies.apply hmoves.ok, fun mark hmark => ?_, h.apart_set hcall hfields,
    h.touched_set hcall hfields hmoves,
    h.calls.set hlt hok fun j other hne hother _ => h.others_ok hcall hother hne hmoves⟩
  have hmine : MarkOf bounds (effect.apply pool.shared) call mark →
      MarkOf bounds (effect.apply pool.shared) call' mark := fun hof =>
    ⟨hof.fields.trans hfields.symm, (hwrote _).mpr hof.wrote, hof.seen, hof.first⟩
  rcases hmoves.marks mark hmark with hold | ⟨rfl, hnew⟩
  · obtain ⟨other, hother, hof⟩ := h.marks mark hold
    have hof : MarkOf bounds (effect.apply pool.shared) other mark :=
      ⟨hof.fields, hof.wrote, Nat.le_trans hof.seen (stamp_le_apply _ _), hof.first⟩
    rcases eq_or_ne mark.call i with rfl | hne
    · cases hcall.symm.trans hother
      exact ⟨call', List.getElem?_set_self hlt, hmine hof⟩
    · exact ⟨other, (List.getElem?_set_ne (Ne.symm hne)).trans hother, hof⟩
  · exact ⟨call', List.getElem?_set_self hlt, hmine hnew⟩

theorem Kept.go (h : Kept bounds initial pool) (horder : InOrder pool (.go i fails))
    (hstep : step bounds pool (.go i fails) = some pool') : Kept bounds initial pool' := by
  simp only [step, Pool.turn_eq_some, Option.map_eq_some_iff, Prod.mk.injEq, Prod.exists] at hstep
  obtain ⟨call, _, _, hcall, ⟨effect, call', hnext, rfl, rfl⟩, rfl⟩ := hstep
  obtain ⟨hmoves, hok⟩ := h.callNext_ok hcall (horder call hcall) hnext
  obtain ⟨hfields, hwrote⟩ := callNext_same hnext
  exact h.move hcall hfields hwrote hmoves hok

theorem Kept.timeOut (h : Kept bounds initial pool)
    (hstep : step bounds pool (.timeOut i) = some pool') : Kept bounds initial pool' := by
  simp only [step, Pool.turn_eq_some, Option.map_eq_some_iff, Prod.mk.injEq] at hstep
  obtain ⟨call, _, call', hcall, ⟨_, hout, rfl, rfl⟩, rfl⟩ := hstep
  cases call with
  | setter own point => cases hout
  | mixer target point =>
    obtain ⟨point', hpoint, rfl⟩ := Option.map_eq_some_iff.mp hout
    obtain rfl : point' = .reload := by cases point <;> cases hpoint <;> rfl
    have hnothing : Moves bounds initial pool.shared i (.mixer target point) .nothing :=
      moves_of_marks trivial rfl fun _ => id
    have hok : CallOk initial (Effect.nothing.apply pool.shared) i (.mixer target .reload) := trivial
    exact h.move hcall (by rfl) (fun _ => by rfl) hnothing hok

theorem Kept.spawn (h : Kept bounds initial pool) {call : Call φ}
    (hapart : ∀ other ∈ pool.tasks, other.fields.Disjoint call.fields)
    (hok : Unmarked pool.shared pool.tasks.length →
      CallOk initial pool.shared pool.tasks.length call) :
    Kept bounds initial (pool.spawn call) := by
  have hlt : ∀ mark ∈ pool.shared.marks, mark.call < pool.tasks.length := by
    intro mark hmark
    obtain ⟨other, hother, -⟩ := h.marks mark hmark
    exact (List.getElem?_eq_some_iff.mp hother).1
  have hback : ∀ (j : Nat) (a : Call φ), (pool.tasks ++ [call])[j]? = some a →
      (a ∈ pool.tasks ∧ pool.tasks[j]? = some a) ∨ (j = pool.tasks.length ∧ a = call) := by
    intro j a ha
    rcases Nat.lt_or_ge j pool.tasks.length with hj | hj
    · rw [List.getElem?_append_left hj] at ha
      exact .inl ⟨List.mem_of_getElem? ha, ha⟩
    · obtain ⟨hj', -⟩ := List.getElem?_eq_some_iff.mp ha
      obtain rfl : j = pool.tasks.length := by
        simp only [List.length_append, List.length_singleton] at hj'
        omega
      exact .inr ⟨rfl, by simpa using ha.symm⟩
  refine ⟨h.copies, fun mark hmark => ?_, fun j k a b ha hb hne => ?_, fun ht => ?_,
    h.calls.spawn (hok ?_)⟩
  · obtain ⟨other, hother, hof⟩ := h.marks mark hmark
    exact ⟨other, (List.getElem?_append_left (hlt mark hmark)).trans hother, hof⟩
  · rcases hback j a ha with ⟨hmem, ha⟩ | ⟨rfl, rfl⟩
    · rcases hback k b hb with ⟨-, hb⟩ | ⟨-, rfl⟩
      · exact h.apart j k a b ha hb hne
      · exact hapart a hmem
    · rcases hback k b hb with ⟨hmem, -⟩ | ⟨rfl, -⟩
      · exact (hapart b hmem).symm
      · exact absurd rfl hne
  · obtain ⟨j, other, hother, hfield⟩ := h.touched ht
    obtain ⟨hj, -⟩ := List.getElem?_eq_some_iff.mp hother
    exact ⟨j, other, (List.getElem?_append_left hj).trans hother, hfield⟩
  · exact fun mark hmark => Nat.ne_of_lt (hlt mark hmark)

/-- Publishes complete or are lost, and nothing is untold. -/
theorem Kept.told (h : Kept bounds initial pool) {pending : List (Stamped φ)}
    {subject : Stamped φ} (hsubject : Fits initial pool.shared subject)
    (hpending : ∀ copy ∈ pending, copy ∈ pool.shared.pending)
    (htold : ∀ stamp, Told pool.shared stamp →
      Told { pool.shared with subject := subject, pending := pending } stamp) :
    Kept bounds initial
      { pool with shared := { pool.shared with subject := subject, pending := pending } } := by
  have hsteady : ∀ j, Steady initial j pool.shared
      { pool.shared with subject := subject, pending := pending } := fun _ => steady_told htold
  have hfits := (hsteady 0).fits
  refine ⟨⟨hfits _ h.copies.memory, fun content hcontent => ?_, fun content hcontent => ?_,
    hfits _ hsubject, fun copy hcopy => hfits _ (h.copies.pending copy (hpending copy hcopy))⟩,
    fun mark hmark => ?_, h.apart, h.touched, h.calls.shared fun j call hok => ?_⟩
  · have hold := h.copies.file content hcontent
    cases content with
    | settings copy => exact hfits _ hold
    | torn => trivial
  · have hold := h.copies.staging content hcontent
    cases content with
    | settings copy => exact hfits _ hold
    | torn => trivial
  · obtain ⟨call, hcall, hof⟩ := h.marks mark hmark
    exact ⟨call, hcall, hof.fields, hof.wrote, hof.seen, hof.first⟩
  · cases call with
    | setter own point => exact SetterOk.steady hok (hsteady j)
    | mixer target point =>
      exact MixerOk.steady hok (hsteady j) ⟨rfl, fun _ hshows => ⟨hshows.seen, hshows.shown⟩⟩

theorem Kept.step (h : Kept bounds initial pool) (hapart : Apart pool a) (horder : InOrder pool a)
    (hstep : step bounds pool a = some pool') : Kept bounds initial pool' := by
  cases a with
  | set setter =>
    cases hstep
    exact h.spawn hapart id
  | setMixerType target =>
    cases hstep
    refine h.spawn (fun other hother field hfield hmixer => ?_) fun hunmarked => ⟨hunmarked, ?_⟩
    · obtain rfl := List.mem_singleton.mp hmixer
      exact hapart other hother hfield
    · by_contra ht
      obtain ⟨j, other, hother, hfield⟩ := h.touched (by simpa using ht)
      exact hapart other (List.mem_of_getElem? hother) hfield
  | go i fails => exact h.go horder hstep
  | timeOut i => exact h.timeOut hstep
  | deliver k =>
    simp only [Calls.step] at hstep
    split at hstep
    · rename_i copy hk
      cases hstep
      refine h.told (h.copies.pending copy (List.mem_of_getElem? hk))
        (fun _ => List.mem_of_mem_eraseIdx) fun stamp htold => ?_
      rcases told_of_mem hk htold with hsubject | hown | hothers
      · exact .inl (Nat.le_trans hsubject (horder copy hk))
      · exact .inl hown
      · exact .inr hothers
    · cases hstep
  | lose k =>
    simp only [Calls.step] at hstep
    split at hstep
    · rename_i hlt
      cases hstep
      have hk := List.getElem?_eq_getElem hlt
      refine h.told h.copies.subject (fun _ => List.mem_of_mem_eraseIdx) fun stamp htold => ?_
      rcases told_of_mem hk htold with hsubject | hown | hothers
      · exact .inl hsubject
      · rcases horder _ hk with hsubject | ⟨other, hother, hle⟩
        · exact .inl (Nat.le_trans hown hsubject)
        · exact .inr ⟨other, hother, Nat.le_trans hown hle⟩
      · exact .inr hothers
    · cases hstep

theorem kept_boot (bounds : EqBounds φ) (settings : Settings φ) (persisted : Bool) :
    Kept bounds settings.mixerType (boot settings persisted) := by
  have hfits : Fits settings.mixerType (boot settings persisted).shared ⟨settings, 0⟩ :=
    ⟨Nat.le_refl _, by simp [boot], fun _ => rfl⟩
  refine ⟨⟨hfits, fun content hcontent => ?_, by simp [boot], hfits, by simp [boot]⟩,
    by simp [boot], by simp [boot], by simp [boot], fun _ _ h => by simp [boot] at h⟩
  cases persisted with
  | false => cases hcontent
  | true =>
    cases hcontent
    exact hfits

/-- At rest, what is settled is everywhere. -/
theorem Kept.noneLost (h : Kept bounds initial pool) (hpending : pool.shared.pending = []) :
    NoneLost bounds pool := by
  intro i call hcall hack
  have hsettled : Settled pool.shared i := by
    have hok := h.calls i call hcall
    unfold Call.acknowledged at hack
    split at hack
    · exact hok
    · exact hok
    · cases hack
  obtain ⟨mark, hmark, rfl, ⟨copy, hfile, hle⟩, htold⟩ := hsettled
  obtain ⟨other, hother, hof⟩ := h.marks mark hmark
  cases hcall.symm.trans hother
  have hsubject : mark.stamp ≤ pool.shared.subject.stamp := by
    rcases htold with hsubject | ⟨copy, hcopy, -⟩
    · exact hsubject
    · simp [hpending] at hcopy
  refine ⟨mark.wrote, hof.wrote, copy, hfile, fun field hfield => ?_⟩
  have hfield : field ∈ mark.fields := hof.fields ▸ hfield
  exact ⟨h.copies.memory.shown mark hmark hof.seen field hfield,
    (h.copies.file _ hfile).shown mark hmark hle field hfield,
    h.copies.subject.shown mark hmark hsubject field hfield⟩

end Runs

instance decidableApart (pool : Pool (Shared φ) (Call φ)) : (a : Action φ) → Decidable (Apart pool a)
  | .set setter =>
    inferInstanceAs (Decidable (∀ call ∈ pool.tasks, ∀ field ∈ call.fields, ¬field ∈ setter.fields))
  | .setMixerType _ =>
    inferInstanceAs (Decidable (∀ call ∈ pool.tasks, .mixerType ∉ call.fields))
  | .go _ _ => .isTrue trivial
  | .timeOut _ => .isTrue trivial
  | .deliver _ => .isTrue trivial
  | .lose _ => .isTrue trivial

instance decidableHolds (content : Option (Content φ)) :
    Decidable (∃ copy, content = some (.settings copy)) :=
  match content with
  | some (.settings copy) => .isTrue ⟨copy, rfl⟩
  | some .torn => .isFalse (by simp)
  | none => .isFalse (by simp)

instance decidableNewer (content : Option (Content φ)) (stamp : Nat) :
    Decidable (∀ old, content = some (.settings old) → old.stamp ≤ stamp) :=
  match content with
  | some (.settings old) => decidable_of_iff (old.stamp ≤ stamp) (by simp)
  | some .torn => .isTrue (by simp)
  | none => .isTrue (by simp)

instance decidableStageInOrder (s : Shared φ) : (stage : Stage φ) → Decidable (StageInOrder s stage)
  | .rename taken =>
    match h : s.staging with
    | some (.settings copy) => decidable_of_iff (taken.stamp ≤ copy.stamp ∧
        ∀ old, s.file = some (.settings old) → old.stamp ≤ copy.stamp) (by simp [StageInOrder, h])
    | some .torn => .isFalse (by simp [StageInOrder, h])
    | none => .isTrue (by simp [StageInOrder, h])
  | .copy => .isTrue trivial
  | .snapshot => .isTrue trivial
  | .directory _ => .isTrue trivial
  | .write _ => .isTrue trivial
  | .sync _ => .isTrue trivial

instance decidableSeenOthers (s : Shared φ) (i : Nat) (copy : Stamped φ) :
    Decidable (SeenOthers s i copy) :=
  inferInstanceAs (Decidable (∀ mark ∈ s.marks, mark.call ≠ i → mark.stamp ≤ copy.stamp))

instance decidableCallInOrder (s : Shared φ) (i : Nat) (fails : Bool) :
    (call : Call φ) → Decidable (CallInOrder s i fails call)
  | .setter _ (.persist stage _) => inferInstanceAs (Decidable (fails = false → StageInOrder s stage))
  | .setter _ .update => .isTrue trivial
  | .setter _ (.publish _) => .isTrue trivial
  | .setter _ (.failing _) => .isTrue trivial
  | .setter _ (.returned _) => .isTrue trivial
  | .mixer _ (.persist _ stage) => inferInstanceAs (Decidable (fails = false → StageInOrder s stage))
  | .mixer _ (.restorePersist stage) =>
    inferInstanceAs (Decidable (fails = false → StageInOrder s stage))
  | .mixer _ (.undo prior) => decidableSeenOthers s i prior
  | .mixer _ (.restore prior) => decidableSeenOthers s i prior
  | .mixer _ (.reloaded (some copy)) => decidableSeenOthers s i copy
  | .mixer target (.start before) =>
    inferInstanceAs (Decidable (before = target → ∃ copy, s.file = some (.settings copy)))
  | .mixer _ .check => .isTrue trivial
  | .mixer _ (.locking _) => .isTrue trivial
  | .mixer _ .noOp => .isTrue trivial
  | .mixer _ .preMute => .isTrue trivial
  | .mixer _ .takePrior => .isTrue trivial
  | .mixer _ (.setType _) => .isTrue trivial
  | .mixer _ (.publish _) => .isTrue trivial
  | .mixer _ (.verify _) => .isTrue trivial
  | .mixer _ (.unmute _) => .isTrue trivial
  | .mixer _ .restorePublish => .isTrue trivial
  | .mixer _ .reload => .isTrue trivial
  | .mixer _ (.reloaded none) => .isTrue trivial
  | .mixer _ .failing => .isTrue trivial
  | .mixer _ (.returned _) => .isTrue trivial

instance decidableInOrder (pool : Pool (Shared φ) (Call φ)) :
    (a : Action φ) → Decidable (InOrder pool a)
  | .go i fails =>
    inferInstanceAs (Decidable (∀ call ∈ pool.tasks[i]?, CallInOrder pool.shared i fails call))
  | .deliver k => inferInstanceAs (Decidable (∀ copy ∈ pool.shared.pending[k]?,
      pool.shared.subject.stamp ≤ copy.stamp))
  | .lose k => inferInstanceAs (Decidable (∀ copy ∈ pool.shared.pending[k]?,
      copy.stamp ≤ pool.shared.subject.stamp ∨
        ∃ other ∈ pool.shared.pending.eraseIdx k, copy.stamp ≤ other.stamp))
  | .set _ => .isTrue trivial
  | .setMixerType _ => .isTrue trivial
  | .timeOut _ => .isTrue trivial

instance decidableQuiet (pool : Pool (Shared φ) (Call φ)) [DecidableEq φ] : Decidable (Quiet pool) :=
  inferInstanceAs (Decidable ((∀ call ∈ pool.tasks, call.isOver = true) ∧ pool.shared.pending = []))

-- ---------------------------------------------------------------------------
-- Two runs
-- ---------------------------------------------------------------------------

/-- Whole numbers of decibels do for these runs. -/
def wholeBounds : EqBounds Int := ⟨-15, 15, 0, 30⟩

/-- Two setters, with the steps of the second from its update to its return after
those of the first, or between the snapshot of the first and its write. -/
def twoSetters (overlap : Bool) : List (Action Int) :=
  [.set (.dop true), .set (.gapless false)] ++
    (if overlap then
      .replicate 3 (.go 0 false) ++ .replicate 8 (.go 1 false) ++ .replicate 5 (.go 0 false)
    else .replicate 8 (.go 0 false) ++ .replicate 8 (.go 1 false)) ++
      [.deliver 0, .deliver 0]

end EvoAudio.Options.Calls
