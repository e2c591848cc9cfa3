import EvoAudio.Options.Calls

/-!
# Copies of the settings

A copy of the settings shows the marks of the updates that it has seen, wherever
it is: in memory, in the state file, in the staging file, in the subject, in a
publish under way or in the hands of a call. An effect keeps that where its
condition is met (`EffectOk`), and leaves a call that stands still what it rests
on (`Steady`).
-/

namespace EvoAudio.Options.Calls

variable {φ : Type}

def Mark.Shown (mark : Mark φ) (settings : Settings φ) : Prop :=
  ∀ field ∈ mark.fields, field.Same settings mark.wrote

/-- A copy shows the marks of the updates that it has seen. Until a transition
has set it, the mixer type is everywhere what it was at the start. -/
structure Fits (initial : MixerType) (s : Shared φ) (copy : Stamped φ) : Prop where
  seen : copy.stamp ≤ s.memory.stamp
  shown : ∀ mark ∈ s.marks, mark.stamp ≤ copy.stamp → mark.Shown copy.settings
  type : s.typeTouched = false → copy.settings.mixerType = initial

def Content.Fits (initial : MixerType) (s : Shared φ) : Content φ → Prop
  | .settings copy => Calls.Fits initial s copy
  | .torn => True

/-- All the copies that are not in the hands of a call. -/
structure Copies (initial : MixerType) (s : Shared φ) : Prop where
  memory : Fits initial s s.memory
  file : ∀ content, s.file = some content → content.Fits initial s
  staging : ∀ content, s.staging = some content → content.Fits initial s
  subject : Fits initial s s.subject
  pending : ∀ copy ∈ s.pending, Fits initial s copy

/-- What an effect of the call `i` needs so that every copy still fits and no
copy takes the place of one that has seen more. -/
def EffectOk (initial : MixerType) (s : Shared φ) (i : Nat) : Effect φ → Prop
  | .stage content => content.Fits initial s
  | .rename => ∃ copy, s.staging = some (.settings copy) ∧
      ∀ old, s.file = some (.settings old) → old.stamp ≤ copy.stamp
  | .update j _ settings ofType => j = i ∧ (∀ mark ∈ s.marks, mark.Shown settings) ∧
      (ofType = false → settings.mixerType = s.memory.settings.mixerType)
  | .noOp j => j = i ∧ s.typeTouched = false
  | .replace j settings => j = i ∧ ∀ mark ∈ s.marks, mark.call ≠ i → mark.Shown settings
  | .finish j _ => j = i
  | _ => True

/-- The effects that only a transition has. -/
def Effect.ofMixer : Effect φ → Bool
  | .update _ _ _ ofType => ofType
  | .noOp _ => true
  | .replace _ _ => true
  | _ => false

theorem mem_unmark {s : Shared φ} {mark : Mark φ} {i : Nat} :
    mark ∈ s.unmark i ↔ mark ∈ s.marks ∧ mark.call ≠ i := by
  simp [Shared.unmark]

section Effects

variable {initial : MixerType} {s : Shared φ} {i : Nat} {copy : Stamped φ} {effect : Effect φ}

theorem stamp_le_apply (s : Shared φ) (effect : Effect φ) :
    s.memory.stamp ≤ (effect.apply s).memory.stamp := by
  cases effect <;> first | exact Nat.le_refl _ | exact Nat.le_succ _

/-- A mark that is new is of an update that no copy has seen, or of a transition
that has nothing to do. -/
theorem mem_marks_apply {mark : Mark φ} (hok : EffectOk initial s i effect)
    (hmark : mark ∈ (effect.apply s).marks) :
    mark ∈ s.marks ∨ mark.call = i ∧ s.memory.stamp < mark.stamp ∨
      effect.ofMixer = true ∧ s.typeTouched = false ∧
        mark = ⟨i, [.mixerType], s.memory.settings, 0⟩ := by
  cases effect with
  | update j fields settings ofType =>
    obtain ⟨rfl, -⟩ := hok
    rcases List.mem_cons.mp hmark with rfl | hold
    · exact .inr (.inl ⟨rfl, Nat.lt_succ_self _⟩)
    · exact .inl hold
  | noOp j =>
    obtain ⟨rfl, htype⟩ := hok
    rcases List.mem_cons.mp hmark with rfl | hold
    · exact .inr (.inr ⟨rfl, htype, rfl⟩)
    · exact .inl hold
  | replace j settings => exact .inl (mem_unmark.mp hmark).1
  | finish j refusal =>
    cases refusal with
    | none => exact .inl hmark
    | some refusal => exact .inl (mem_unmark.mp hmark).1
  | _ => exact .inl hmark

/-- The marks of the other calls stay. -/
theorem mem_apply_of_ne {mark : Mark φ} (hok : EffectOk initial s i effect) (hne : mark.call ≠ i)
    (hmark : mark ∈ s.marks) : mark ∈ (effect.apply s).marks := by
  cases effect with
  | update j fields settings ofType => exact List.mem_cons_of_mem _ hmark
  | noOp j => exact List.mem_cons_of_mem _ hmark
  | replace j settings =>
    obtain ⟨rfl, -⟩ := hok
    exact mem_unmark.mpr ⟨hmark, hne⟩
  | finish j refusal =>
    obtain rfl : j = i := hok
    cases refusal with
    | none => exact hmark
    | some refusal => exact mem_unmark.mpr ⟨hmark, hne⟩
  | _ => exact hmark

theorem typeTouched_apply (s : Shared φ) (hmixer : effect.ofMixer = false) :
    (effect.apply s).typeTouched = s.typeTouched := by
  cases effect with
  | update j fields settings ofType =>
    obtain rfl : ofType = false := hmixer
    rfl
  | noOp j => cases hmixer
  | replace j settings => cases hmixer
  | _ => rfl

theorem Fits.apply (h : Fits initial s copy) (hmemory : Fits initial s s.memory)
    (hok : EffectOk initial s i effect) : Fits initial (effect.apply s) copy := by
  refine ⟨Nat.le_trans h.seen (stamp_le_apply s effect), fun mark hmark hseen => ?_, fun ht => ?_⟩
  · rcases mem_marks_apply hok hmark with hold | ⟨-, hnew⟩ | ⟨-, htype, rfl⟩
    · exact h.shown mark hold hseen
    · have := h.seen
      omega
    · intro field hfield
      obtain rfl := List.mem_singleton.mp hfield
      exact (h.type htype).trans (hmemory.type htype).symm
  · cases effect with
    | update j fields settings ofType =>
      cases ofType
      · exact h.type ht
      · cases ht
    | replace j settings => cases ht
    | _ => exact h.type ht

theorem Content.Fits.apply {content : Content φ} (h : content.Fits initial s)
    (hmemory : Calls.Fits initial s s.memory) (hok : EffectOk initial s i effect) :
    content.Fits initial (effect.apply s) := by
  cases content with
  | settings copy => exact Calls.Fits.apply h hmemory hok
  | torn => trivial

theorem Fits.memory_apply (h : Fits initial s s.memory) (hok : EffectOk initial s i effect) :
    Fits initial (effect.apply s) (effect.apply s).memory := by
  cases effect with
  | update j fields settings ofType =>
    obtain ⟨-, hmarks, htype⟩ := hok
    refine ⟨Nat.le_refl _, fun mark hmark _ => ?_, fun ht => ?_⟩
    · rcases List.mem_cons.mp hmark with rfl | hold
      · exact fun field _ => .refl field settings
      · exact hmarks mark hold
    · cases ofType
      · exact (htype rfl).trans (h.type ht)
      · cases ht
  | replace j settings =>
    obtain ⟨rfl, hmarks⟩ := hok
    refine ⟨Nat.le_refl _, fun mark hmark _ => ?_, fun ht => by cases ht⟩
    obtain ⟨hold, hother⟩ := mem_unmark.mp hmark
    exact hmarks mark hold hother
  | _ => exact h.apply h hok

theorem Copies.apply (h : Copies initial s) (hok : EffectOk initial s i effect) :
    Copies initial (effect.apply s) := by
  have hmemory := h.memory
  have hfile : ∀ content, s.file = some content → content.Fits initial (effect.apply s) :=
    fun content hcontent => (h.file content hcontent).apply hmemory hok
  have hstaging : ∀ content, s.staging = some content → content.Fits initial (effect.apply s) :=
    fun content hcontent => (h.staging content hcontent).apply hmemory hok
  have hpending : ∀ copy ∈ s.pending, Fits initial (effect.apply s) copy :=
    fun copy hcopy => (h.pending copy hcopy).apply hmemory hok
  have hsubject := h.subject.apply hmemory hok
  have hmemory' := hmemory.memory_apply hok
  cases effect with
  | stage content =>
    refine ⟨hmemory', hfile, fun staged hstaged => ?_, hsubject, hpending⟩
    cases hstaged
    exact Content.Fits.apply hok hmemory hok
  | rename =>
    refine ⟨hmemory', hstaging, fun content hnone => ?_, hsubject, hpending⟩
    cases hnone
  | publish =>
    refine ⟨hmemory', hfile, hstaging, hsubject, fun copy hcopy => ?_⟩
    rcases List.mem_append.mp hcopy with hold | hnew
    · exact hpending copy hold
    · obtain rfl := List.mem_singleton.mp hnew
      exact hmemory'
  | _ => exact ⟨hmemory', hfile, hstaging, hsubject, hpending⟩

end Effects

-- ---------------------------------------------------------------------------
-- Calls
-- ---------------------------------------------------------------------------

/-- The call has a mark, with a stamp of a kind. -/
def Marked (s : Shared φ) (i : Nat) (P : Nat → Prop) : Prop :=
  ∃ mark ∈ s.marks, mark.call = i ∧ P mark.stamp

def Unmarked (s : Shared φ) (i : Nat) : Prop := ∀ mark ∈ s.marks, mark.call ≠ i

/-- The state file has seen an update. -/
def InFile (s : Shared φ) (stamp : Nat) : Prop :=
  ∃ copy, s.file = some (.settings copy) ∧ stamp ≤ copy.stamp

/-- The subject has seen an update, or a publish that has is under way. -/
def Told (s : Shared φ) (stamp : Nat) : Prop :=
  stamp ≤ s.subject.stamp ∨ ∃ copy ∈ s.pending, stamp ≤ copy.stamp

/-- The snapshot that a persist has taken. -/
def Stage.taken : Stage φ → Option (Stamped φ)
  | .copy => none
  | .snapshot => none
  | .directory taken => some taken
  | .write taken => some taken
  | .sync taken => some taken
  | .rename taken => some taken

def StageFits (initial : MixerType) (s : Shared φ) (stage : Stage φ) : Prop :=
  ∀ taken ∈ stage.taken, Fits initial s taken

/-- The snapshot has seen the update of the call. -/
def StageMarked (s : Shared φ) (i : Nat) (stage : Stage φ) : Prop :=
  Marked s i fun stamp => ∀ taken ∈ stage.taken, stamp ≤ taken.stamp

/-- The update of the call is in the file and told. -/
def Settled (s : Shared φ) (i : Nat) : Prop :=
  Marked s i fun stamp => InFile s stamp ∧ Told s stamp

def SetterOk (initial : MixerType) (s : Shared φ) (i : Nat) : SetterPoint φ → Prop
  | .update => Unmarked s i
  | .persist stage _ => StageFits initial s stage ∧ StageMarked s i stage
  | .publish _ => Marked s i (InFile s)
  | .returned none => Settled s i
  | _ => True

/-- A transition that has not set the type yet. -/
structure Early (s : Shared φ) (i : Nat) : Prop where
  unmarked : Unmarked s i
  untouched : s.typeTouched = false

/-- A copy shows the marks of the other calls that it has seen. -/
structure ShowsOthers (s : Shared φ) (i : Nat) (copy : Stamped φ) : Prop where
  seen : copy.stamp ≤ s.memory.stamp
  shown : ∀ mark ∈ s.marks, mark.call ≠ i → mark.stamp ≤ copy.stamp → mark.Shown copy.settings

def MixerOk (initial : MixerType) (s : Shared φ) (i : Nat) : MixerPoint φ → Prop
  | .check => Early s i
  | .locking before => Early s i ∧ before = initial
  | .start before => Early s i ∧ before = initial
  | .noOp => Settled s i
  | .preMute => Early s i
  | .takePrior => Early s i
  | .setType prior => Early s i ∧ Fits initial s prior
  | .persist prior stage => Fits initial s prior ∧ StageFits initial s stage ∧ StageMarked s i stage
  | .undo prior => Fits initial s prior
  | .publish prior => Fits initial s prior ∧ Marked s i (InFile s)
  | .verify prior => Fits initial s prior ∧ Settled s i
  | .unmute prior => Fits initial s prior ∧ Settled s i
  | .restore prior => Fits initial s prior
  | .restorePersist stage => StageFits initial s stage
  | .reloaded content => ∀ copy ∈ content, ShowsOthers s i copy
  | .returned none => Settled s i
  | _ => True

def CallOk (initial : MixerType) (s : Shared φ) (i : Nat) : Call φ → Prop
  | .setter _ point => SetterOk initial s i point
  | .mixer _ point => MixerOk initial s i point

-- ---------------------------------------------------------------------------
-- Calls that stand still
-- ---------------------------------------------------------------------------

/-- What a call that stands still rests on. -/
structure Steady (initial : MixerType) (j : Nat) (s s' : Shared φ) : Prop where
  fits : ∀ copy, Fits initial s copy → Fits initial s' copy
  marked : ∀ mark ∈ s.marks, mark.call = j → mark ∈ s'.marks
  unmarked : Unmarked s j → Unmarked s' j
  inFile : ∀ stamp, InFile s stamp → InFile s' stamp
  told : ∀ stamp, Told s stamp → Told s' stamp

/-- And what a transition rests on besides. -/
structure SteadyMixer (j : Nat) (s s' : Shared φ) : Prop where
  type : s'.typeTouched = s.typeTouched
  others : ∀ copy, ShowsOthers s j copy → ShowsOthers s' j copy

section Steady

variable {initial : MixerType} {s s' : Shared φ} {i j : Nat} {effect : Effect φ}

theorem Marked.steady {P Q : Nat → Prop} (h : Marked s j P) (hsteady : Steady initial j s s')
    (himp : ∀ stamp, P stamp → Q stamp) : Marked s' j Q := by
  obtain ⟨mark, hmark, hcall, hP⟩ := h
  exact ⟨mark, hsteady.marked mark hmark hcall, hcall, himp _ hP⟩

theorem Settled.steady (h : Settled s j) (hsteady : Steady initial j s s') : Settled s' j :=
  Marked.steady h hsteady fun stamp hP => ⟨hsteady.inFile stamp hP.1, hsteady.told stamp hP.2⟩

theorem StageFits.steady {stage : Stage φ} (h : StageFits initial s stage)
    (hsteady : Steady initial j s s') : StageFits initial s' stage :=
  fun taken htaken => hsteady.fits taken (h taken htaken)

theorem SetterOk.steady {point : SetterPoint φ} (h : SetterOk initial s j point)
    (hsteady : Steady initial j s s') : SetterOk initial s' j point := by
  cases point with
  | update => exact hsteady.unmarked h
  | persist stage extra => exact ⟨h.1.steady hsteady, h.2.steady hsteady fun _ => id⟩
  | publish extra => exact Marked.steady h hsteady hsteady.inFile
  | failing refusal => trivial
  | returned refusal =>
    cases refusal with
    | none => exact Settled.steady h hsteady
    | some refusal => trivial

theorem Early.steady (h : Early s j) (hsteady : Steady initial j s s')
    (hmixer : SteadyMixer j s s') : Early s' j :=
  ⟨hsteady.unmarked h.unmarked, hmixer.type.trans h.untouched⟩

theorem MixerOk.steady {point : MixerPoint φ} (h : MixerOk initial s j point)
    (hsteady : Steady initial j s s') (hmixer : SteadyMixer j s s') :
    MixerOk initial s' j point := by
  cases point with
  | check => exact Early.steady h hsteady hmixer
  | locking before => exact ⟨h.1.steady hsteady hmixer, h.2⟩
  | start before => exact ⟨h.1.steady hsteady hmixer, h.2⟩
  | noOp => exact Settled.steady h hsteady
  | preMute => exact Early.steady h hsteady hmixer
  | takePrior => exact Early.steady h hsteady hmixer
  | setType prior => exact ⟨h.1.steady hsteady hmixer, hsteady.fits prior h.2⟩
  | persist prior stage =>
    exact ⟨hsteady.fits prior h.1, h.2.1.steady hsteady, h.2.2.steady hsteady fun _ => id⟩
  | undo prior => exact hsteady.fits prior h
  | publish prior => exact ⟨hsteady.fits prior h.1, h.2.steady hsteady hsteady.inFile⟩
  | verify prior => exact ⟨hsteady.fits prior h.1, h.2.steady hsteady⟩
  | unmute prior => exact ⟨hsteady.fits prior h.1, h.2.steady hsteady⟩
  | restore prior => exact hsteady.fits prior h
  | restorePersist stage => exact StageFits.steady h hsteady
  | restorePublish => trivial
  | reload => trivial
  | reloaded content => exact fun copy hcopy => hmixer.others copy (h copy hcopy)
  | failing => trivial
  | returned refusal =>
    cases refusal with
    | none => exact Settled.steady h hsteady
    | some refusal => trivial

theorem Fits.showsOthers {copy : Stamped φ} (h : Fits initial s copy) (i : Nat) :
    ShowsOthers s i copy :=
  ⟨h.seen, fun mark hmark _ => h.shown mark hmark⟩

theorem InFile.apply (h : InFile s stamp) (hok : EffectOk initial s i effect) :
    InFile (effect.apply s) stamp := by
  obtain ⟨old, hold, hle⟩ := h
  cases effect with
  | rename =>
    obtain ⟨copy, hstaging, hnewer⟩ := hok
    exact ⟨copy, hstaging, Nat.le_trans hle (hnewer old hold)⟩
  | _ => exact ⟨old, hold, hle⟩

theorem Told.apply (h : Told s stamp) (effect : Effect φ) : Told (effect.apply s) stamp := by
  cases effect with
  | publish =>
    rcases h with hsubject | ⟨copy, hcopy, hle⟩
    · exact .inl hsubject
    · exact .inr ⟨copy, List.mem_append_left _ hcopy, hle⟩
  | _ => exact h

/-- A call stands still while another one has an effect. -/
theorem steady_apply (hcopies : Copies initial s) (hok : EffectOk initial s i effect)
    (hne : j ≠ i) : Steady initial j s (effect.apply s) where
  fits := fun _ h => h.apply hcopies.memory hok
  marked := fun mark hmark hcall => mem_apply_of_ne hok (hcall ▸ hne) hmark
  unmarked := by
    intro h mark hmark
    rcases mem_marks_apply hok hmark with hold | ⟨hcall, -⟩ | ⟨-, -, rfl⟩
    · exact h mark hold
    · exact hcall ▸ Ne.symm hne
    · exact Ne.symm hne
  inFile := fun _ h => h.apply hok
  told := fun _ h => h.apply effect

theorem steadyMixer_apply (hok : EffectOk initial s i effect) (hmixer : effect.ofMixer = false) :
    SteadyMixer j s (effect.apply s) where
  type := typeTouched_apply s hmixer
  others := by
    rintro copy ⟨hseen, hshown⟩
    refine ⟨Nat.le_trans hseen (stamp_le_apply s effect), fun mark hmark hcall hle => ?_⟩
    rcases mem_marks_apply hok hmark with hold | ⟨-, hnew⟩ | ⟨hof, -⟩
    · exact hshown mark hold hcall hle
    · omega
    · rw [hmixer] at hof
      cases hof

theorem told_of_mem {s : Shared φ} {copy : Stamped φ} {k stamp : Nat}
    (hk : s.pending[k]? = some copy) (h : Told s stamp) :
    stamp ≤ s.subject.stamp ∨ stamp ≤ copy.stamp ∨
      ∃ other ∈ s.pending.eraseIdx k, stamp ≤ other.stamp := by
  rcases h with hsubject | ⟨other, hother, hle⟩
  · exact .inl hsubject
  · obtain ⟨j, hj⟩ := List.mem_iff_getElem?.mp hother
    rcases eq_or_ne j k with rfl | hne
    · cases hk.symm.trans hj
      exact .inr (.inl hle)
    · exact .inr (.inr ⟨other, List.mem_eraseIdx_iff_getElem?.mpr ⟨j, hne, hj⟩, hle⟩)

/-- Publishes complete and nothing else changes. -/
theorem steady_told {pending : List (Stamped φ)} {subject : Stamped φ}
    (htold : ∀ stamp, Told s stamp → Told { s with subject := subject, pending := pending } stamp) :
    Steady initial j s { s with subject := subject, pending := pending } where
  fits := fun _ h => ⟨h.seen, h.shown, h.type⟩
  marked := fun _ hmark _ => hmark
  unmarked := id
  inFile := fun _ h => h
  told := htold

end Steady

-- ---------------------------------------------------------------------------
-- A persist
-- ---------------------------------------------------------------------------

/-- What a step of a persist keeps and brings. -/
structure Persists (initial : MixerType) (s : Shared φ) (i : Nat) (stage : Stage φ)
    (after : Effect φ × Persisting φ) : Prop where
  effect : EffectOk initial s i after.1
  ofMixer : after.1.ofMixer = false
  marks : (after.1.apply s).marks = s.marks
  next : ∀ stage', after.2 = .next stage' → StageFits initial (after.1.apply s) stage' ∧
    (StageMarked s i stage → StageMarked (after.1.apply s) i stage')
  done : after.2 = .done → StageMarked s i stage → Marked (after.1.apply s) i (InFile (after.1.apply s))

section Persist

variable {initial : MixerType} {s : Shared φ} {i : Nat} {fails : Bool}

/-- The snapshot is handed on. -/
theorem persists_taken {taken : Stamped φ} {stage stage' : Stage φ} {effect : Effect φ}
    (hcopies : Copies initial s) (hfits : Fits initial s taken) (htaken : stage.taken = some taken)
    (htaken' : stage'.taken = some taken) (heffect : EffectOk initial s i effect)
    (hmixer : effect.ofMixer = false) (hmarks : (effect.apply s).marks = s.marks) :
    Persists initial s i stage (effect, .next stage') where
  effect := heffect
  ofMixer := hmixer
  marks := hmarks
  next := by
    rintro _ ⟨⟩
    refine ⟨fun copy hcopy => ?_, fun h => ?_⟩
    · obtain rfl : taken = copy := Option.some.inj (htaken'.symm.trans hcopy)
      exact hfits.apply hcopies.memory heffect
    · simpa [StageMarked, Marked, hmarks, htaken, htaken'] using h
  done := by rintro ⟨⟩

theorem persists_failed {stage : Stage φ} {effect : Effect φ} (heffect : EffectOk initial s i effect)
    (hmixer : effect.ofMixer = false) (hmarks : (effect.apply s).marks = s.marks) :
    Persists initial s i stage (effect, .failed) :=
  ⟨heffect, hmixer, hmarks, by rintro _ ⟨⟩, by rintro ⟨⟩⟩

theorem persistNext_ok {stage : Stage φ} (hcopies : Copies initial s)
    (hseen : ∀ mark ∈ s.marks, mark.stamp ≤ s.memory.stamp) (hfits : StageFits initial s stage)
    (horder : fails = false → StageInOrder s stage) :
    Persists initial s i stage (persistNext fails s stage) := by
  cases stage with
  | copy =>
    have hcopy : ∀ effect : Effect φ, EffectOk initial s i effect → effect.ofMixer = false →
        (effect.apply s).marks = s.marks →
          Persists initial s i .copy (effect, .next .snapshot) := by
      intro effect heffect hmixer hmarks
      refine ⟨heffect, hmixer, hmarks, ?_, by rintro ⟨⟩⟩
      rintro _ ⟨⟩
      refine ⟨by rintro _ ⟨⟩, fun h => ?_⟩
      simpa [StageMarked, Marked, hmarks, Stage.taken] using h
    simp only [persistNext]
    split
    · exact hcopy _ trivial rfl rfl
    · exact hcopy _ trivial rfl rfl
  | snapshot =>
    refine ⟨trivial, rfl, rfl, ?_, by rintro ⟨⟩⟩
    rintro _ ⟨⟩
    refine ⟨?_, ?_⟩
    · rintro _ ⟨⟩
      exact hcopies.memory
    · rintro ⟨mark, hmark, hcall, -⟩
      refine ⟨mark, hmark, hcall, ?_⟩
      rintro _ ⟨⟩
      exact hseen mark hmark
  | directory taken =>
    simp only [persistNext]
    split
    · exact persists_failed trivial rfl rfl
    · exact persists_taken hcopies (hfits taken rfl) rfl rfl trivial rfl rfl
  | write taken =>
    simp only [persistNext]
    split
    · exact persists_failed trivial rfl rfl
    · exact persists_taken hcopies (hfits taken rfl) rfl rfl (hfits taken rfl) rfl rfl
  | sync taken =>
    simp only [persistNext]
    split
    · exact persists_failed trivial rfl rfl
    · exact persists_taken hcopies (hfits taken rfl) rfl rfl trivial rfl rfl
  | rename taken =>
    simp only [persistNext]
    split
    · exact persists_failed trivial rfl rfl
    · rename_i hgoes
      obtain ⟨hfails, hstaged⟩ : fails = false ∧ s.staging ≠ none := by simpa using hgoes
      obtain ⟨content, hcontent⟩ := Option.ne_none_iff_exists'.mp hstaged
      obtain ⟨copy, rfl, hown, hnewer⟩ := horder hfails content hcontent
      refine ⟨⟨copy, hcontent, hnewer⟩, rfl, rfl, by rintro _ ⟨⟩, ?_⟩
      rintro - ⟨mark, hmark, hcall, hle⟩
      exact ⟨mark, hmark, hcall, copy, hcontent, Nat.le_trans (hle taken rfl) hown⟩

/-- A publish tells of every update so far. -/
theorem told_publish {stamp : Nat} (h : stamp ≤ s.memory.stamp) :
    Told (Effect.publish.apply s) stamp :=
  .inr ⟨s.memory, List.mem_append_right _ (List.mem_singleton_self _), h⟩

theorem settled_publish (hseen : ∀ mark ∈ s.marks, mark.stamp ≤ s.memory.stamp)
    (h : Marked s i (InFile s)) : Settled (Effect.publish.apply s) i := by
  obtain ⟨mark, hmark, hcall, hfile⟩ := h
  exact ⟨mark, hmark, hcall, hfile, told_publish (hseen mark hmark)⟩

end Persist

end EvoAudio.Options.Calls
