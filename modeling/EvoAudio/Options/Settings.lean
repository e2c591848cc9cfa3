/-!
# Playback options

The `Settings` record of `playback.options/src/lib.rs` and the state file that
`persist_settings` keeps it in. `φ` is the type of the `f32` values of an
equaliser band.
-/

namespace EvoAudio.Options

inductive MixerType where
  | hardware
  | software
  | none
  deriving DecidableEq, Repr

def MixerType.debug : MixerType → List Char
  | .hardware => "Hardware".toList
  | .software => "Software".toList
  | .none => "None".toList

inductive VolumeCurve where
  | linear
  | log
  | natural
  deriving DecidableEq, Repr

structure ResamplingPolicy where
  enabled : Bool
  targetBitdepth : List Char
  targetSamplerate : List Char
  quality : List Char
  deriving DecidableEq, Repr

structure EqBand (φ : Type) where
  freqHz : Nat
  gainDb : φ
  q : φ
  deriving DecidableEq, Repr

structure NamedEqPreset (φ : Type) where
  name : List Char
  bands : List (EqBand φ)
  deriving DecidableEq, Repr

structure Settings (φ : Type) where
  v : Nat
  resampling : ResamplingPolicy
  mixerType : MixerType
  mixerDevice : List Char
  mixerControl : List Char
  dop : Bool
  outputDevice : List Char
  volumeNormalization : Bool
  startupVolumePercent : Nat
  maxVolumePercent : Nat
  volumeCurve : VolumeCurve
  exclusiveMode : Bool
  crossfadeSeconds : Nat
  gapless : Bool
  eqEngaged : Bool
  eqBands : List (EqBand φ)
  eqPresets : List (NamedEqPreset φ)
  deriving DecidableEq, Repr

/-- `EQ_BAND_COUNT`. -/
def eqBandCount : Nat := 10

/-- `Settings::default()`. -/
def Settings.initial [OfNat φ 0] [OfNat φ 1] : Settings φ where
  v := 1
  resampling := ⟨false, [], [], []⟩
  mixerType := .software
  mixerDevice := []
  mixerControl := []
  dop := false
  outputDevice := []
  volumeNormalization := false
  startupVolumePercent := 30
  maxVolumePercent := 100
  volumeCurve := .linear
  exclusiveMode := false
  crossfadeSeconds := 0
  gapless := true
  eqEngaged := false
  eqBands := List.replicate eqBandCount ⟨1000, 0, 1⟩
  eqPresets := []

/-- The state file and the sidecar beside it. -/
structure Disk (φ : Type) where
  file : Option (Settings φ)
  lastKnownGood : Option (Settings φ)
  deriving DecidableEq, Repr

/-- What goes wrong in a `persist_settings`: the copy to the sidecar, which is
only logged, or a later step, with its error. -/
structure PersistFaults where
  pathMissing : Bool
  copyFails : Bool
  error : Option (List Char)
  deriving DecidableEq, Repr

def PersistFaults.none : PersistFaults := ⟨false, false, Option.none⟩

def PersistFaults.succeeds (faults : PersistFaults) : Bool :=
  !faults.pathMissing && faults.error.isNone

def Disk.snapshot (disk : Disk φ) (copyFails : Bool) : Disk φ :=
  match disk.file with
  | some settings => if copyFails then disk else { disk with lastKnownGood := some settings }
  | none => disk

/-- The disk afterwards, and the error if there was one. -/
def persistSettings (faults : PersistFaults) (settings : Settings φ) (disk : Disk φ) :
    Disk φ × Option (List Char) :=
  if faults.pathMissing then (disk, some "state_path is None; plugin not fully loaded".toList)
  else
    match faults.error with
    | some reason => (disk.snapshot faults.copyFails, some reason)
    | none => ({ disk.snapshot faults.copyFails with file := some settings }, none)

theorem file_snapshot (disk : Disk φ) (copyFails : Bool) :
    (disk.snapshot copyFails).file = disk.file := by
  unfold Disk.snapshot
  split
  · split <;> rfl
  · rfl

theorem persistSettings_ok {faults : PersistFaults} (h : faults.succeeds = true)
    (settings : Settings φ) (disk : Disk φ) :
    ∃ disk', persistSettings faults settings disk = (disk', none) ∧
      disk'.file = some settings := by
  obtain ⟨hpath, herror⟩ : faults.pathMissing = false ∧ faults.error = none := by
    simpa [PersistFaults.succeeds] using h
  exact ⟨_, by simp [persistSettings, hpath, herror]; rfl, rfl⟩

theorem persistSettings_error {faults : PersistFaults} (h : faults.succeeds = false)
    (settings : Settings φ) (disk : Disk φ) :
    ∃ disk' reason, persistSettings faults settings disk = (disk', some reason) ∧
      disk'.file = disk.file := by
  unfold persistSettings
  cases hpath : faults.pathMissing
  · cases herror : faults.error with
    | none => simp [PersistFaults.succeeds, hpath, herror] at h
    | some reason => exact ⟨_, reason, rfl, file_snapshot disk faults.copyFails⟩
  · exact ⟨disk, _, rfl, rfl⟩

end EvoAudio.Options
