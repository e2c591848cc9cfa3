import EvoAudio.Options.Verbs
import Mathlib.Data.List.Nodup

/-!
# Settings that the verbs keep in range

Every verb checks what it writes, and what it puts back was in force or on disk
before, so the settings stay in range over every sequence of requests. The mixer
coordinates may be cleared under a hardware mixer; where no request does that, a
hardware mixer has its coordinates.
-/

namespace EvoAudio.Options

open Verbs

variable {φ : Type} [LE φ]

-- ---------------------------------------------------------------------------
-- Settings in range
-- ---------------------------------------------------------------------------

structure EqBand.InRange (bounds : EqBounds φ) (band : EqBand φ) : Prop where
  freq : 20 ≤ band.freqHz ∧ band.freqHz ≤ 20000
  gain : bounds.gainMin ≤ band.gainDb ∧ band.gainDb ≤ bounds.gainMax
  q : bounds.qMin ≤ band.q ∧ band.q ≤ bounds.qMax

/-- As many bands as there are, each in range. -/
def BandsInRange (bounds : EqBounds φ) (bands : List (EqBand φ)) : Prop :=
  bands.length = eqBandCount ∧ ∀ band ∈ bands, band.InRange bounds

structure NamedEqPreset.InRange (bounds : EqBounds φ) (preset : NamedEqPreset φ) : Prop where
  name : 1 ≤ (preset.name.map Char.utf8Size).sum ∧
    (preset.name.map Char.utf8Size).sum ≤ eqPresetNameMaxLen
  bands : BandsInRange bounds preset.bands

structure Settings.InRange (bounds : EqBounds φ) (s : Settings φ) : Prop where
  startup : s.startupVolumePercent ≤ s.maxVolumePercent
  max : s.maxVolumePercent ≤ 100
  crossfade : s.crossfadeSeconds ≤ crossfadeSecondsMax
  bands : BandsInRange bounds s.eqBands
  presetCount : s.eqPresets.length ≤ eqPresetLibraryMaxCount
  presetNames : (s.eqPresets.map (·.name)).Nodup
  presets : ∀ preset ∈ s.eqPresets, preset.InRange bounds

/-- A hardware mixer has its device and its control. -/
def Settings.Coordinated (s : Settings φ) : Prop :=
  s.mixerType = .hardware → s.mixerDevice ≠ [] ∧ s.mixerControl ≠ []

section Setters

variable {bounds : EqBounds φ} {s s' : Settings φ}

theorem BandsInRange.replicate [OfNat φ 0] [OfNat φ 1]
    (hflat : EqBand.InRange bounds ⟨1000, 0, 1⟩) :
    BandsInRange bounds (List.replicate eqBandCount ⟨1000, 0, 1⟩) := by
  refine ⟨by simp, fun band hband => ?_⟩
  rw [List.eq_of_mem_replicate hband]
  exact hflat

theorem Settings.inRange_initial [OfNat φ 0] [OfNat φ 1]
    (hflat : EqBand.InRange bounds ⟨1000, 0, 1⟩) :
    (Settings.initial : Settings φ).InRange bounds where
  startup := by simp [Settings.initial]
  max := by simp [Settings.initial]
  crossfade := by simp [Settings.initial]
  bands := .replicate hflat
  presetCount := by simp [Settings.initial]
  presetNames := List.nodup_nil
  presets := by simp [Settings.initial]

variable [DecidableLE φ]

theorem validateEqBand_inRange {band : EqBand φ} (h : validateEqBand bounds band = .ok a) :
    band.InRange bounds := by
  unfold validateEqBand at h
  split at h
  · cases h
  · split at h
    · cases h
    · split at h
      · cases h
      · simp_all only [Decidable.not_not]
        constructor <;> assumption

theorem validateEqBands_inRange {bands : List (EqBand φ)}
    (h : bands.forM (validateEqBand bounds) = .ok a) : ∀ band ∈ bands, band.InRange bounds := by
  induction bands with
  | nil => simp
  | cons band bands ih =>
    change validateEqBand bounds band >>= (fun _ => bands.forM (validateEqBand bounds)) = _ at h
    obtain ⟨_, hband, h⟩ := bind_eq_ok.mp h
    simp only [List.forall_mem_cons]
    exact ⟨validateEqBand_inRange hband, ih h⟩

omit [LE φ] [DecidableLE φ] in
theorem validatePresetName_inRange {name : List Char} (h : validatePresetName name = .ok a) :
    1 ≤ (name.map Char.utf8Size).sum ∧ (name.map Char.utf8Size).sum ≤ eqPresetNameMaxLen := by
  unfold validatePresetName at h
  split at h
  · cases h
  · split at h
    · cases h
    · rename_i hne hlen
      refine ⟨?_, by omega⟩
      cases name with
      | nil => simp at hne
      | cons ch name =>
        have := ch.utf8Size_pos
        simp
        omega

omit [DecidableLE φ] in
theorem BandsInRange.set [OfNat φ 0] [OfNat φ 1] {bands : List (EqBand φ)} {band : EqBand φ}
    (h : BandsInRange bounds bands) (hband : band.InRange bounds) (index : Nat) :
    BandsInRange bounds ((padBands bands).set index band) := by
  have hpad : padBands bands = bands := by simp [padBands, h.1]
  rw [hpad]
  refine ⟨by simp [h.1], fun b hb => ?_⟩
  obtain hb | rfl := List.mem_or_eq_of_mem_set hb
  · exact h.2 b hb
  · exact hband

omit [DecidableLE φ] in
/-- Overwriting keeps the names and their number, and a new preset has a new name. -/
theorem savePreset_inRange {name : List Char} {bands : List (EqBand φ)}
    {presets presets' : List (NamedEqPreset φ)}
    (hsave : savePreset name bands presets = .ok presets')
    (hpreset : NamedEqPreset.InRange bounds ⟨name, bands⟩)
    (hcount : presets.length ≤ eqPresetLibraryMaxCount) (hnames : (presets.map (·.name)).Nodup)
    (hpresets : ∀ preset ∈ presets, preset.InRange bounds) :
    presets'.length ≤ eqPresetLibraryMaxCount ∧ (presets'.map (·.name)).Nodup ∧
      ∀ preset ∈ presets', preset.InRange bounds := by
  unfold savePreset at hsave
  split at hsave
  next i hfound =>
    cases hsave
    obtain ⟨hlt, -⟩ := List.findIdx?_eq_some_iff_getElem.mp hfound
    obtain ⟨earlier, preset, later, rfl, -, hmodify⟩ :=
      List.exists_of_modify (fun preset => { preset with bands := bands }) hlt
    rw [hmodify]
    simp only [List.length_append, List.length_cons, List.map_append, List.map_cons,
      List.forall_mem_append, List.forall_mem_cons] at *
    exact ⟨hcount, hnames, hpresets.1, ⟨hpresets.2.1.name, hpreset.bands⟩, hpresets.2.2⟩
  next hfound =>
    split at hsave
    · cases hsave
    next hroom =>
      cases hsave
      have hnew : ∀ preset ∈ presets, preset.name ≠ name := by
        simpa using List.findIdx?_eq_none_iff.mp hfound
      refine ⟨by simp; omega, ?_, ?_⟩
      · simpa [List.nodup_append, hnames] using hnew
      · rw [List.forall_mem_append]
        exact ⟨hpresets, by simpa using hpreset⟩

theorem Setter.update_inRange [OfNat φ 0] [OfNat φ 1] {setter : Setter φ}
    (h : setter.update bounds s = .ok s') (hs : s.InRange bounds) : s'.InRange bounds := by
  cases setter with
  | dop value | volumeNormalization value | exclusiveMode value | gapless value
  | eqEngaged value =>
    cases h
    exact { hs with }
  | resampling value | mixerDevice value | mixerControl value | outputDevice value
  | volumeCurve value =>
    simp only [update, setName] at h
    split at h <;> cases h
    exact { hs with }
  | crossfadeSeconds value =>
    simp only [update] at h
    split at h <;> cases h
    exact { hs with crossfade := by simp only; omega }
  | startupVolume value =>
    simp only [update] at h
    split at h
    · cases h
    · split at h <;> cases h
      exact { hs with startup := by simp only; omega }
  | maxVolume value =>
    have := hs.startup
    simp only [update] at h
    split at h
    · cases h
    · split at h <;> cases h
      · exact { hs with startup := Nat.le_refl _, max := by simp only; omega }
      · exact { hs with startup := by simp only; omega, max := by simp only; omega }
  | eqBand index band =>
    simp only [update] at h
    split at h
    · cases h
    · obtain ⟨_, hband, h⟩ := bind_eq_ok.mp h
      cases h
      exact { hs with bands := hs.bands.set (validateEqBand_inRange hband) index }
  | saveEqPreset name bands =>
    obtain ⟨_, hname, h⟩ := bind_eq_ok.mp h
    split at h
    · cases h
    next hlength =>
      obtain ⟨_, hbands, h⟩ := bind_eq_ok.mp h
      obtain ⟨presets, hsave, h⟩ := bind_eq_ok.mp h
      cases h
      have hpreset : NamedEqPreset.InRange bounds ⟨name, bands⟩ :=
        ⟨validatePresetName_inRange hname, Decidable.not_not.mp hlength,
          validateEqBands_inRange hbands⟩
      obtain ⟨hcount, hnames, hpresets⟩ :=
        savePreset_inRange hsave hpreset hs.presetCount hs.presetNames hs.presets
      exact { hs with presetCount := hcount, presetNames := hnames, presets := hpresets }
  | recallEqPreset name =>
    obtain ⟨_, -, h⟩ := bind_eq_ok.mp h
    split at h
    · cases h
    next preset hfound =>
      split at h <;> cases h
      exact { hs with bands := (hs.presets preset (List.mem_of_find?_eq_some hfound)).bands }
  | deleteEqPreset name =>
    obtain ⟨_, -, h⟩ := bind_eq_ok.mp h
    simp only at h
    split at h <;> cases h
    have hsub := List.filter_sublist (l := s.eqPresets) (p := fun preset => preset.name ≠ name)
    exact { hs with
      presetCount := hsub.length_le.trans hs.presetCount
      presetNames := hs.presetNames.sublist (hsub.map _)
      presets := fun preset h => hs.presets preset (hsub.subset h) }

end Setters

-- ---------------------------------------------------------------------------
-- What holds of all the settings of a store
-- ---------------------------------------------------------------------------

namespace Verbs.Store

/-- The settings in memory, in the state file and in the sidecar. -/
structure All (P : Settings φ → Prop) (s : Store φ) : Prop where
  memory : P s.memory
  file : ∀ settings ∈ s.disk.file, P settings
  sidecar : ∀ settings ∈ s.disk.lastKnownGood, P settings

section All

omit [LE φ]

variable {P : Settings φ → Prop} {s : Store φ}

theorem All.publish (h : s.All P) (publishes : Bool) : (s.publish publishes).All P := by
  cases publishes <;> exact ⟨h.memory, h.file, h.sidecar⟩

/-- Other settings in memory. -/
theorem All.withMemory (h : s.All P) (hnew : P settings) :
    All P { s with memory := settings } := ⟨hnew, h.file, h.sidecar⟩

theorem All.withFile (h : s.All P) (hnew : P settings) :
    All P { s with disk := { s.disk with file := some settings } } :=
  ⟨h.memory, by simpa using hnew, h.sidecar⟩

theorem All.withSnapshot (h : s.All P) (copyFails : Bool) :
    All P { s with disk := s.disk.snapshot copyFails } := by
  refine ⟨h.memory, ?_, ?_⟩
  · simpa only [file_snapshot] using h.file
  · unfold Disk.snapshot
    split
    next settings hfile =>
      cases copyFails with
      | true => exact h.sidecar
      | false => simpa using h.file settings hfile
    · exact h.sidecar

theorem All.put (h : s.All P) (hnew : P settings) (faults : PersistFaults) (publishes : Bool) :
    (s.put faults publishes settings).2.All P := by
  cases hsucceeds : faults.succeeds with
  | true =>
    rw [put_of_succeeds hsucceeds]
    exact (((h.withSnapshot faults.copyFails).withFile hnew).withMemory hnew).publish publishes
  | false =>
    obtain ⟨disk, hput, rfl | rfl⟩ := put_of_fails hsucceeds publishes settings s
    · rw [hput]
      exact h.withMemory hnew
    · rw [hput]
      exact (h.withSnapshot false).withMemory hnew

variable {target : MixerType} (htype : P { s.memory with mixerType := target })
include htype

theorem All.persisted (h : s.All P) (publishes copyFails : Bool) :
    (s.persisted publishes copyFails target).All P :=
  (((h.withSnapshot copyFails).withFile htype).withMemory htype).publish publishes

theorem All.restoreCopied (h : s.All P) (publishes copyFails restoreCopyFails : Bool) :
    (s.restoreCopied publishes copyFails restoreCopyFails target).All P :=
  ((h.persisted htype publishes copyFails).withSnapshot restoreCopyFails).withMemory h.memory

theorem All.cutAt (h : s.All P) (publishes copyFails restoreCopyFails : Bool) (point : Cut) :
    (s.cutAt publishes copyFails restoreCopyFails target point).All P := by
  cases point with
  | untouched => exact h
  | typeSet => exact h.withMemory htype
  | sidecarCopied => exact (h.withSnapshot copyFails).withMemory htype
  | renameDue => exact (h.withSnapshot copyFails).withMemory htype
  | persisted => exact h.persisted htype publishes copyFails
  | restoring => exact (h.persisted htype publishes copyFails).withMemory h.memory
  | restoreCopied => exact h.restoreCopied htype publishes copyFails restoreCopyFails
  | restoreRenameDue => exact h.restoreCopied htype publishes copyFails restoreCopyFails
  | restored =>
    exact ((h.restoreCopied htype publishes copyFails restoreCopyFails).withFile h.memory).publish
      publishes

variable [OfNat φ 0] [OfNat φ 1] (hinitial : P Settings.initial)
include hinitial

theorem All.transition (h : s.All P) (publishes : Bool) (course : Course) :
    (s.transition publishes target course).2.All P := by
  cases course with
  | stopped => exact h
  | ran persist unmutes restore =>
    have hput := h.put htype persist publishes
    simp only [Store.transition]
    generalize s.put persist publishes { s.memory with mixerType := target } = run at hput ⊢
    rcases run with ⟨e | _, s'⟩
    · exact hput.withMemory h.memory
    · cases unmutes with
      | true => exact hput
      | false => exact hput.put h.memory restore publishes
  | cut point copyFails restoreCopyFails reloads =>
    have hcut := h.cutAt htype publishes copyFails restoreCopyFails point
    have hfound : ((s.cutAt publishes copyFails restoreCopyFails target point).reload reloads).All
        P := by
      cases reloads with
      | false => exact hcut
      | true =>
        refine hcut.withMemory ?_
        cases hfile : (s.cutAt publishes copyFails restoreCopyFails target point).disk.file with
        | none => exact hinitial
        | some settings => exact hcut.file settings hfile
    cases point with
    | renameDue => exact hfound.withFile htype
    | restoreRenameDue => exact hfound.withFile h.memory
    | _ => exact hfound

end All

section Handle

variable [DecidableLE φ] [OfNat φ 0] [OfNat φ 1] {bounds : EqBounds φ} {P : Settings φ → Prop}
  {s : Store φ} {call : Call φ}

/-- What the defaults have, and every setter and every new mixer type keeps, holds
of all the settings after a request. -/
theorem All.handle (h : s.All P) (hinitial : P Settings.initial)
    (hset : ∀ setter settings, call.verb = .set setter →
      setter.update bounds s.memory = .ok settings → P settings)
    (htype : ∀ target, call.verb = .setMixerType target →
      (target = .hardware → s.memory.mixerDevice ≠ [] ∧ s.memory.mixerControl ≠ []) →
        P { s.memory with mixerType := target }) :
    (s.handle bounds call).2.All P := by
  unfold Store.handle
  cases hverb : call.verb with
  | get => exact h
  | malformed => exact h
  | set setter =>
    dsimp only
    cases hupdate : setter.update bounds s.memory with
    | error refusal => exact h
    | ok settings =>
      exact h.put (hset setter settings hverb hupdate) call.persist call.publishes
  | setMixerType target =>
    dsimp only
    split
    · exact h
    next hcoordinates =>
      split
      · exact h
      · refine All.transition (htype target hverb ?_) hinitial h call.publishes call.course
        intro htarget
        simpa [htarget] using hcoordinates
  | resetToDefaults => exact h.put hinitial call.persist call.publishes
  | restoreLastKnownGood =>
    dsimp only
    cases hsidecar : s.disk.lastKnownGood with
    | none => exact h
    | some settings =>
      have hgood := h.sidecar settings hsidecar
      dsimp only
      split
      · exact h
      · exact All.publish ⟨hgood, by simpa using hgood, by simpa using hgood⟩ call.publishes

end Handle

end Verbs.Store

-- ---------------------------------------------------------------------------
-- Runs
-- ---------------------------------------------------------------------------

section Runs

variable [DecidableLE φ] [OfNat φ 0] [OfNat φ 1] {bounds : EqBounds φ} {s : Store φ}

/-- No coordinate of a hardware mixer is cleared. -/
def Verbs.KeepsCoordinates (s : Store φ) (call : Call φ) : Prop :=
  s.memory.mixerType = .hardware →
    call.verb ≠ .set (.mixerDevice []) ∧ call.verb ≠ .set (.mixerControl [])

instance Verbs.decidableKeepsCoordinates [DecidableEq φ] (s : Store φ) (call : Call φ) :
    Decidable (KeepsCoordinates s call) :=
  inferInstanceAs (Decidable (s.memory.mixerType = .hardware →
    call.verb ≠ .set (.mixerDevice []) ∧ call.verb ≠ .set (.mixerControl [])))

omit [LE φ] [DecidableLE φ] in
theorem Settings.coordinated_initial : (Settings.initial : Settings φ).Coordinated := by
  simp [Settings.Coordinated, Settings.initial]

theorem Setter.update_coordinated {setter : Setter φ} {s s' : Settings φ}
    (h : setter.update bounds s = .ok s') (hs : s.Coordinated)
    (hkeeps : s.mixerType = .hardware → setter ≠ .mixerDevice [] ∧ setter ≠ .mixerControl []) :
    s'.Coordinated := by
  have hsame (field : Field) (hfield : field ∉ setter.fields) : field.Same s' s :=
    Setter.update_same bounds h hfield
  intro hhardware
  rw [hsame .mixerType setter.mixerType_not_mem] at hhardware
  obtain ⟨hdevice, hcontrol⟩ := hs hhardware
  obtain ⟨hdevice', hcontrol'⟩ := hkeeps hhardware
  cases setter with
  | mixerDevice value =>
    simp only [update, setName] at h
    split at h <;> cases h
    exact ⟨by simpa using hdevice', hcontrol⟩
  | mixerControl value =>
    simp only [update, setName] at h
    split at h <;> cases h
    exact ⟨hdevice, by simpa using hcontrol'⟩
  | _ =>
    rw [hsame .mixerDevice (by simp [fields]), hsame .mixerControl (by simp [fields])]
    exact ⟨hdevice, hcontrol⟩

theorem all_inRange (hflat : EqBand.InRange bounds ⟨1000, 0, 1⟩) (h : s.All (·.InRange bounds))
    (call : Call φ) : (s.handle bounds call).2.All (·.InRange bounds) :=
  h.handle (Settings.inRange_initial hflat)
    (fun _ _ _ hupdate => Setter.update_inRange hupdate h.memory)
    (fun _ _ _ => { h.memory with })

theorem all_coordinated {call : Call φ} (hkeeps : KeepsCoordinates s call)
    (h : s.All Settings.Coordinated) : (s.handle bounds call).2.All Settings.Coordinated := by
  refine h.handle Settings.coordinated_initial ?_ ?_
  · rintro setter settings hverb hupdate
    refine Setter.update_coordinated hupdate h.memory fun hhardware => ?_
    simpa [hverb] using hkeeps hhardware
  · intro target _ hcoordinates hhardware
    exact hcoordinates hhardware

/-- The plugin at its first load, on the defaults. -/
def Verbs.boot (persisted : Bool) : Store φ :=
  ⟨Settings.initial, ⟨if persisted then some Settings.initial else none, none⟩, Settings.initial⟩

/-- Over every sequence of requests from the defaults the settings are in range,
and a hardware mixer has its coordinates as long as no request clears one of them
under it. -/
theorem exec_inRange (hflat : EqBand.InRange bounds ⟨1000, 0, 1⟩) (persisted : Bool)
    (calls : List (Call φ)) (h : Machine.exec (Store.step bounds) (boot persisted) calls = some s) :
    s.memory.InRange bounds ∧
      (Machine.Meets (Store.step bounds) KeepsCoordinates (boot persisted) calls →
        s.memory.Coordinated) := by
  have hboot {P : Settings φ → Prop} (hinitial : P Settings.initial) :
      (boot persisted).All P := by
    cases persisted with
    | true => exact ⟨hinitial, by simpa [boot] using hinitial, by simp [boot]⟩
    | false => exact ⟨hinitial, by simp [boot], by simp [boot]⟩
  constructor
  · refine (Machine.exec_invariant_all ?_ (hboot (Settings.inRange_initial hflat)) h).memory
    rintro s call _ hs ⟨⟩
    exact all_inRange hflat hs call
  · intro hkeeps
    refine (Machine.exec_invariant ?_ (hboot Settings.coordinated_initial) hkeeps h).memory
    rintro s call _ hs hcall ⟨⟩
    exact all_coordinated hcall hs

end Runs

/-- The requests that put a hardware mixer in force. -/
def Verbs.hardwareCalls : List (Call Rat) :=
  [smooth (.set (.mixerDevice "hw:0".toList)), smooth (.set (.mixerControl "Master".toList)),
    smooth (.setMixerType .hardware)]

theorem exec_inRange_hardware : ∃ s : Store Rat,
    Machine.exec (Store.step sourceBounds) (boot true) hardwareCalls = some s ∧
      s.memory.mixerType = .hardware ∧ s.memory.InRange sourceBounds ∧ s.memory.Coordinated := by
  obtain ⟨s, hexec, htype⟩ := Machine.exec_of_any (Store.step sourceBounds) (boot true)
    hardwareCalls (fun s => s.memory.mixerType = .hardware) (by decide)
  have hflat : EqBand.InRange sourceBounds ⟨1000, 0, 1⟩ :=
    ⟨by decide, by decide, by decide +kernel⟩
  obtain ⟨hrange, hcoordinated⟩ := exec_inRange hflat true hardwareCalls hexec
  exact ⟨s, hexec, of_decide_eq_true htype, hrange, hcoordinated (by decide)⟩

/-- The mixer device is cleared under a hardware mixer. -/
theorem hardware_without_device : ∃ s : Store Rat,
    Machine.exec (Store.step sourceBounds) (boot true)
        (hardwareCalls ++ [smooth (.set (.mixerDevice []))]) = some s ∧
      s.memory.mixerType = .hardware ∧ s.memory.mixerDevice = [] := by
  obtain ⟨s, hexec, hfacts⟩ := Machine.exec_of_any (Store.step sourceBounds) (boot true)
    (hardwareCalls ++ [smooth (.set (.mixerDevice []))])
    (fun s => s.memory.mixerType = .hardware ∧ s.memory.mixerDevice = []) (by decide)
  exact ⟨s, hexec, of_decide_eq_true hfacts⟩

end EvoAudio.Options
