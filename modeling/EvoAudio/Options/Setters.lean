import EvoAudio.Lib.Text
import EvoAudio.Options.Settings

/-!
# The setters of playback options

What each `handle_set_*` of `playback.options/src/lib.rs` checks and writes
under the lock, and which fields of the settings it writes. `set_mixer_type` has
a transition of its own. An error is given by its reason; `bounds` are the `f32`
bounds of an equaliser band.
-/

namespace EvoAudio.Options

variable {φ : Type}

inductive Field where
  | resampling
  | mixerType
  | mixerDevice
  | mixerControl
  | dop
  | outputDevice
  | volumeNormalization
  | startupVolumePercent
  | maxVolumePercent
  | volumeCurve
  | exclusiveMode
  | crossfadeSeconds
  | gapless
  | eqEngaged
  | eqBands
  | eqPresets
  deriving DecidableEq, Repr

/-- Two settings have the same value in a field. -/
def Field.Same : Field → Settings φ → Settings φ → Prop
  | .resampling, s, t => s.resampling = t.resampling
  | .mixerType, s, t => s.mixerType = t.mixerType
  | .mixerDevice, s, t => s.mixerDevice = t.mixerDevice
  | .mixerControl, s, t => s.mixerControl = t.mixerControl
  | .dop, s, t => s.dop = t.dop
  | .outputDevice, s, t => s.outputDevice = t.outputDevice
  | .volumeNormalization, s, t => s.volumeNormalization = t.volumeNormalization
  | .startupVolumePercent, s, t => s.startupVolumePercent = t.startupVolumePercent
  | .maxVolumePercent, s, t => s.maxVolumePercent = t.maxVolumePercent
  | .volumeCurve, s, t => s.volumeCurve = t.volumeCurve
  | .exclusiveMode, s, t => s.exclusiveMode = t.exclusiveMode
  | .crossfadeSeconds, s, t => s.crossfadeSeconds = t.crossfadeSeconds
  | .gapless, s, t => s.gapless = t.gapless
  | .eqEngaged, s, t => s.eqEngaged = t.eqEngaged
  | .eqBands, s, t => s.eqBands = t.eqBands
  | .eqPresets, s, t => s.eqPresets = t.eqPresets

theorem Field.Same.refl (field : Field) (s : Settings φ) : field.Same s s := by
  cases field <;> rfl

theorem Field.Same.trans {field : Field} {s t u : Settings φ} (h : field.Same s t)
    (h' : field.Same t u) : field.Same s u := by
  cases field <;> exact Eq.trans h h'

/-- A setter with its payload. -/
inductive Setter (φ : Type) where
  | resampling (policy : ResamplingPolicy)
  | mixerDevice (value : List Char)
  | mixerControl (value : List Char)
  | dop (value : Bool)
  | outputDevice (value : List Char)
  | volumeNormalization (value : Bool)
  | startupVolume (value : Nat)
  | maxVolume (value : Nat)
  | volumeCurve (value : List Char)
  | exclusiveMode (value : Bool)
  | crossfadeSeconds (value : Nat)
  | gapless (value : Bool)
  | eqEngaged (value : Bool)
  | eqBand (index : Nat) (band : EqBand φ)
  | saveEqPreset (name : List Char) (bands : List (EqBand φ))
  | recallEqPreset (name : List Char)
  | deleteEqPreset (name : List Char)
  deriving DecidableEq, Repr

/-- The fields that a setter may write. -/
def Setter.fields : Setter φ → List Field
  | .resampling _ => [.resampling]
  | .mixerDevice _ => [.mixerDevice]
  | .mixerControl _ => [.mixerControl]
  | .dop _ => [.dop]
  | .outputDevice _ => [.outputDevice]
  | .volumeNormalization _ => [.volumeNormalization]
  | .startupVolume _ => [.startupVolumePercent]
  -- A ceiling below the startup volume lowers that too.
  | .maxVolume _ => [.maxVolumePercent, .startupVolumePercent]
  | .volumeCurve _ => [.volumeCurve]
  | .exclusiveMode _ => [.exclusiveMode]
  | .crossfadeSeconds _ => [.crossfadeSeconds]
  | .gapless _ => [.gapless]
  | .eqEngaged _ => [.eqEngaged]
  | .eqBand _ _ => [.eqBands]
  | .saveEqPreset _ _ => [.eqPresets]
  | .recallEqPreset _ => [.eqBands]
  | .deleteEqPreset _ => [.eqPresets]

/-- No setter but the transition writes the mixer type. -/
theorem Setter.mixerType_not_mem (setter : Setter φ) : .mixerType ∉ setter.fields := by
  cases setter <;> simp [fields]

inductive Refusal where
  | resamplingQuality
  | whitespaceOnly
  | volumeRange
  | startupAboveMax
  | volumeCurve
  | crossfadeRange
  | eqBandIndex
  | eqBandFreq
  | eqBandGain
  | eqBandQ
  | presetNameEmpty
  | presetNameLength
  | presetBandCount
  | presetLibraryFull
  | presetMissing
  | presetShape
  /-- `hardware` without a mixer device and control. -/
  | mixerCoordinates
  /-- A step of `persist_settings` failed. -/
  | persist
  | transition
  deriving DecidableEq, Repr

/-- `CROSSFADE_SECONDS_MAX`. -/
def crossfadeSecondsMax : Nat := 30

/-- `EQ_PRESET_LIBRARY_MAX_COUNT`. -/
def eqPresetLibraryMaxCount : Nat := 32

/-- `EQ_PRESET_NAME_MAX_LEN`, in bytes. -/
def eqPresetNameMaxLen : Nat := 64

structure EqBounds (φ : Type) where
  gainMin : φ
  gainMax : φ
  qMin : φ
  qMax : φ

def VolumeCurve.fromWireStr (value : List Char) : Option VolumeCurve :=
  if value = "linear".toList then some .linear
  else if value = "log".toList then some .log
  else if value = "natural".toList then some .natural
  else none

def resamplingQualities : List (List Char) :=
  ["very_high".toList, "high".toList, "medium".toList, "low".toList, "quick".toList, []]

/-- Not empty, and nothing but whitespace. -/
def whitespaceOnly (value : List Char) : Bool := !value.isEmpty && (Text.trim value).isEmpty

def validatePresetName (name : List Char) : Except Refusal Unit :=
  if name.isEmpty then .error .presetNameEmpty
  else if eqPresetNameMaxLen < (name.map Char.utf8Size).sum then .error .presetNameLength
  else .ok ()

section Update

variable [LE φ] [DecidableLE φ] [OfNat φ 0] [OfNat φ 1] (bounds : EqBounds φ)

def validateEqBand (band : EqBand φ) : Except Refusal Unit :=
  if ¬(20 ≤ band.freqHz ∧ band.freqHz ≤ 20000) then .error .eqBandFreq
  else if ¬(bounds.gainMin ≤ band.gainDb ∧ band.gainDb ≤ bounds.gainMax) then .error .eqBandGain
  else if ¬(bounds.qMin ≤ band.q ∧ band.q ≤ bounds.qMax) then .error .eqBandQ
  else .ok ()

/-- A mixer device, a mixer control or an output device. -/
def setName (value : List Char) (set : Settings φ) : Except Refusal (Settings φ) :=
  if whitespaceOnly value then .error .whitespaceOnly else .ok set

/-- Too few bands are filled up first, as an older state file has fewer. -/
def padBands (bands : List (EqBand φ)) : List (EqBand φ) :=
  bands ++ List.replicate (eqBandCount - bands.length) ⟨1000, 0, 1⟩

def savePreset (name : List Char) (bands : List (EqBand φ)) (presets : List (NamedEqPreset φ)) :
    Except Refusal (List (NamedEqPreset φ)) :=
  match presets.findIdx? (·.name = name) with
  | some i => .ok (presets.modify i fun preset => { preset with bands := bands })
  | none =>
    if eqPresetLibraryMaxCount ≤ presets.length then .error .presetLibraryFull
    else .ok (presets ++ [⟨name, bands⟩])

/-- The settings after the update under the lock, or why it is refused. -/
def Setter.update (s : Settings φ) : Setter φ → Except Refusal (Settings φ)
  | .resampling policy =>
    if policy.enabled && !resamplingQualities.contains policy.quality then
      .error .resamplingQuality
    else .ok { s with resampling := policy }
  | .mixerDevice value => setName value { s with mixerDevice := value }
  | .mixerControl value => setName value { s with mixerControl := value }
  | .dop value => .ok { s with dop := value }
  | .outputDevice value => setName value { s with outputDevice := value }
  | .volumeNormalization value => .ok { s with volumeNormalization := value }
  | .startupVolume value =>
    if 100 < value then .error .volumeRange
    else if s.maxVolumePercent < value then .error .startupAboveMax
    else .ok { s with startupVolumePercent := value }
  | .maxVolume value =>
    if 100 < value then .error .volumeRange
    else if value < s.startupVolumePercent then
      .ok { s with maxVolumePercent := value, startupVolumePercent := value }
    else .ok { s with maxVolumePercent := value }
  | .volumeCurve value =>
    match VolumeCurve.fromWireStr value with
    | some curve => .ok { s with volumeCurve := curve }
    | none => .error .volumeCurve
  | .exclusiveMode value => .ok { s with exclusiveMode := value }
  | .crossfadeSeconds value =>
    if crossfadeSecondsMax < value then .error .crossfadeRange
    else .ok { s with crossfadeSeconds := value }
  | .gapless value => .ok { s with gapless := value }
  | .eqEngaged value => .ok { s with eqEngaged := value }
  | .eqBand index band =>
    if eqBandCount ≤ index then .error .eqBandIndex
    else
      validateEqBand bounds band >>= fun _ =>
        .ok { s with eqBands := (padBands s.eqBands).set index band }
  | .saveEqPreset name bands =>
    validatePresetName name >>= fun _ =>
      if bands.length ≠ eqBandCount then .error .presetBandCount
      else
        bands.forM (validateEqBand bounds) >>= fun _ =>
          savePreset name bands s.eqPresets >>= fun presets =>
            .ok { s with eqPresets := presets }
  | .recallEqPreset name =>
    validatePresetName name >>= fun _ =>
      match s.eqPresets.find? (·.name = name) with
      | none => .error .presetMissing
      | some preset =>
        if preset.bands.length ≠ eqBandCount then .error .presetShape
        else .ok { s with eqBands := preset.bands }
  | .deleteEqPreset name =>
    validatePresetName name >>= fun _ =>
      let presets := s.eqPresets.filter (·.name ≠ name)
      if presets.length = s.eqPresets.length then .error .presetMissing
      else .ok { s with eqPresets := presets }

/-- `set_max_volume` publishes once more where it lowers the startup volume. -/
def Setter.publishes (s : Settings φ) : Setter φ → Nat
  | .maxVolume value => if value < s.startupVolumePercent then 2 else 1
  | _ => 1

theorem bind_eq_ok {ε α β : Type} {x : Except ε α} {f : α → Except ε β} {b : β} :
    x >>= f = .ok b ↔ ∃ a, x = .ok a ∧ f a = .ok b := by
  cases x <;> simp [bind, Except.bind]

/-- A setter leaves every field alone that is not one of its own. -/
theorem Setter.update_same {setter : Setter φ} {s s' : Settings φ} {field : Field}
    (h : setter.update bounds s = .ok s') (hfield : field ∉ setter.fields) : field.Same s' s := by
  cases setter with
  | dop value | volumeNormalization value | exclusiveMode value | gapless value
  | eqEngaged value =>
    cases h
    cases field <;> first | rfl | simp [fields] at hfield
  | resampling value | mixerDevice value | mixerControl value | outputDevice value
  | volumeCurve value | crossfadeSeconds value =>
    simp only [update, setName] at h
    split at h <;> cases h
    cases field <;> first | rfl | simp [fields] at hfield
  | startupVolume value | maxVolume value =>
    simp only [update] at h
    split at h
    · cases h
    · split at h <;> cases h <;> cases field <;> first | rfl | simp [fields] at hfield
  | eqBand index band =>
    simp only [update] at h
    split at h
    · cases h
    · obtain ⟨_, -, h⟩ := bind_eq_ok.mp h
      cases h
      cases field <;> first | rfl | simp [fields] at hfield
  | saveEqPreset name bands =>
    obtain ⟨_, -, h⟩ := bind_eq_ok.mp h
    split at h
    · cases h
    · obtain ⟨_, -, h⟩ := bind_eq_ok.mp h
      obtain ⟨presets, -, h⟩ := bind_eq_ok.mp h
      cases h
      cases field <;> first | rfl | simp [fields] at hfield
  | recallEqPreset name =>
    obtain ⟨_, -, h⟩ := bind_eq_ok.mp h
    split at h
    · cases h
    · split at h <;> cases h
      cases field <;> first | rfl | simp [fields] at hfield
  | deleteEqPreset name =>
    obtain ⟨_, -, h⟩ := bind_eq_ok.mp h
    simp only at h
    split at h <;> cases h
    cases field <;> first | rfl | simp [fields] at hfield

end Update

end EvoAudio.Options
