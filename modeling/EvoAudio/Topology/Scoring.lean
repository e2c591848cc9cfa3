import EvoAudio.Topology.Formats
import EvoAudio.Topology.Store

/-!
# Scores of candidate topologies

`topology_scoring.rs` decides twice whether a chain is bit-perfect:
`is_bit_perfect` for the score, and `validate_bit_perfect` for the refusal, which
asks the composition stage only where the source and the delivery differ.
-/

namespace EvoAudio.Scoring

open EvoAudio.Topology (AudioFormat VolumeMode)

-- ---------------------------------------------------------------------------
-- Candidates
-- ---------------------------------------------------------------------------

structure CompositionStage where
  mode : List Char
  preservesBitPerfect : Bool
  formatIn : AudioFormat
  formatOut : AudioFormat
  deriving DecidableEq, Repr

namespace CompositionStage

def transforms (stage : CompositionStage) : Bool := stage.formatIn != stage.formatOut

def appliesImplicitResampler (stage : CompositionStage) : Bool :=
  match stage.formatIn, stage.formatOut with
  | .pcm ic ir ich, .pcm oc or och => ic == oc && ich == och && ir != or
  | _, _ => false

def convertsDsdToPcm (stage : CompositionStage) : Bool :=
  match stage.formatIn, stage.formatOut with
  | .dsd _ _ _, .pcm _ _ _ => true
  | _, _ => false

end CompositionStage

structure Topology where
  sourceFormat : AudioFormat
  composition : Option CompositionStage
  deliveryFormat : AudioFormat
  volumeMode : VolumeMode
  deriving DecidableEq, Repr

namespace Topology

def isBitPerfect (topology : Topology) : Bool :=
  if topology.sourceFormat ≠ topology.deliveryFormat then false
  else if topology.composition.any fun stage => !stage.preservesBitPerfect || stage.transforms then
    false
  else topology.volumeMode != .software

def hasImplicitResampler (topology : Topology) : Bool :=
  topology.composition.any (·.appliesImplicitResampler)

def hasDsdToPcmConversion (topology : Topology) : Bool :=
  topology.composition.any (·.convertsDsdToPcm)

def deliveryMatchesSourceRate (topology : Topology) : Bool :=
  match topology.sourceFormat, topology.deliveryFormat with
  | .pcm _ sr _, .pcm _ dr _ => sr == dr
  | .dsd sr _ _, .dsd dr _ _ => sr == dr
  | .encodedPassthrough _ sr _ _, .encodedPassthrough _ dr _ _ => sr == dr
  | _, _ => false

def deliveryMatchesSourceFormat (topology : Topology) : Bool :=
  match topology.sourceFormat, topology.deliveryFormat with
  | .pcm sc _ sch, .pcm dc _ dch => sc == dc && sch == dch
  | .dsd _ st sch, .dsd _ dt dch => st == dt && sch == dch
  | .encodedPassthrough sc _ sch _, .encodedPassthrough dc _ dch _ => sc == dc && sch == dch
  | _, _ => false

def isPassthroughComposition (topology : Topology) : Bool :=
  topology.composition.all fun stage => stage.mode = "passthrough".toList && !stage.transforms

end Topology

-- ---------------------------------------------------------------------------
-- The score
-- ---------------------------------------------------------------------------

/-- What the scorer reads of the profile. `none` is a hardware without a volume of
its own, and `κ` are the SDK's kinds of one. -/
structure HardwareProfile (κ : Type) where
  hardwareVolume : Option κ

structure ScoreBreakdown where
  total : Int
  bitPerfect : Int
  nativeRateMatch : Int
  nativeFormatMatch : Int
  minimumSignalPath : Int
  hardwareVolumeEngaged : Int
  implicitResamplerPenalty : Int
  softwareVolumeWhenHardwareAvailablePenalty : Int
  dsdToPcmPenalty : Int
  deriving DecidableEq, Repr

/-- The operator's policy, which the source passes too, is not read. -/
def scoreTopology (candidate : Topology) (profile : HardwareProfile κ) : ScoreBreakdown :=
  let bitPerfect := if candidate.isBitPerfect then 50 else 0
  let nativeRateMatch := if candidate.deliveryMatchesSourceRate then 20 else 0
  let nativeFormatMatch := if candidate.deliveryMatchesSourceFormat then 15 else 0
  let minimumSignalPath := if candidate.isPassthroughComposition then 10 else 0
  let hardwareVolumeAvailable := profile.hardwareVolume.isSome
  let hardwareVolumeEngaged :=
    if hardwareVolumeAvailable && candidate.volumeMode == .hardware then 5 else 0
  let implicitResamplerPenalty := if candidate.hasImplicitResampler then -30 else 0
  let softwareVolumeWhenHardwareAvailablePenalty :=
    if hardwareVolumeAvailable && candidate.volumeMode == .software then -10 else 0
  let dsdToPcmPenalty := if candidate.hasDsdToPcmConversion then -25 else 0
  { total := bitPerfect + nativeRateMatch + nativeFormatMatch + minimumSignalPath +
      hardwareVolumeEngaged + implicitResamplerPenalty +
      softwareVolumeWhenHardwareAvailablePenalty + dsdToPcmPenalty
    bitPerfect, nativeRateMatch, nativeFormatMatch, minimumSignalPath, hardwareVolumeEngaged,
    implicitResamplerPenalty, softwareVolumeWhenHardwareAvailablePenalty, dsdToPcmPenalty }

inductive BitPerfectViolation where
  | boundaryConversionRequired (sourceFormat deliveryFormat : AudioFormat)
  | compositionLiesAboutBitPerfect (mode : List Char) (formatIn formatOut : AudioFormat)
  | softwareVolumeNotBitPerfect
  deriving DecidableEq, Repr

/-- The check of the formats, made only where those at the two ends differ. -/
def validateFormats (topology : Topology) : Except BitPerfectViolation Unit :=
  if topology.sourceFormat ≠ topology.deliveryFormat then
    match topology.composition with
    | none =>
      .error (.boundaryConversionRequired topology.sourceFormat topology.deliveryFormat)
    | some stage =>
      if stage.preservesBitPerfect && stage.transforms then
        .error (.compositionLiesAboutBitPerfect stage.mode stage.formatIn stage.formatOut)
      else .ok ()
  else .ok ()

def validateBitPerfect (topology : Topology) : Except BitPerfectViolation Unit := do
  validateFormats topology
  if topology.volumeMode = .software then .error .softwareVolumeNotBitPerfect else .ok ()

-- ---------------------------------------------------------------------------
-- Where the two agree
-- ---------------------------------------------------------------------------

/-- The refusal, the predicate and the score say the same of a chain. -/
structure Agrees (κ : Type) (topology : Topology) : Prop where
  predicate : validateBitPerfect topology = .ok () ↔ topology.isBitPerfect = true
  score (profile : HardwareProfile κ) :
    topology.isBitPerfect = true ↔ (scoreTopology topology profile).bitPerfect = 50

/-- The stage keeps the bits, and converts just where the ends differ. -/
def Coherent (topology : Topology) (stage : CompositionStage) : Prop :=
  stage.preservesBitPerfect = true ∧
    (stage.transforms = true ↔ topology.sourceFormat ≠ topology.deliveryFormat)

instance (topology : Topology) (stage : CompositionStage) : Decidable (Coherent topology stage) :=
  inferInstanceAs (Decidable (_ ∧ _))

theorem score_bitPerfect_iff (topology : Topology) (profile : HardwareProfile κ) :
    topology.isBitPerfect = true ↔ (scoreTopology topology profile).bitPerfect = 50 := by
  simp [scoreTopology]

theorem isBitPerfect_iff {topology : Topology} :
    topology.isBitPerfect = true ↔
      topology.sourceFormat = topology.deliveryFormat ∧
        (∀ stage ∈ topology.composition,
          stage.preservesBitPerfect = true ∧ stage.transforms = false) ∧
        topology.volumeMode ≠ .software := by
  unfold Topology.isBitPerfect
  split
  next hne => simp [hne]
  next heq =>
    rw [not_not] at heq
    cases topology.composition <;> simp [heq]

theorem validateBitPerfect_ok {topology : Topology} :
    validateBitPerfect topology = .ok () ↔
      validateFormats topology = .ok () ∧ topology.volumeMode ≠ .software := by
  unfold validateBitPerfect
  cases validateFormats topology with
  | error violation => simp [bind, Except.bind]
  | ok => by_cases hvolume : topology.volumeMode = .software <;> simp [bind, Except.bind, hvolume]

/-- Without a stage the ends have to be equal. With one there is no violation where
they are, and elsewhere unless the stage claims what it does not keep. -/
theorem validateFormats_ok {topology : Topology} :
    validateFormats topology = .ok () ↔
      topology.sourceFormat = topology.deliveryFormat ∨
        ∃ stage ∈ topology.composition,
          stage.preservesBitPerfect = false ∨ stage.transforms = false := by
  unfold validateFormats
  split
  next hne =>
    cases topology.composition with
    | none => simp [hne]
    | some stage =>
      cases hkeeps : stage.preservesBitPerfect <;> cases htransforms : stage.transforms <;>
        simp [hne, hkeeps, htransforms]
  next heq =>
    rw [not_not] at heq
    simp [heq]

/-- A chain is judged alike by the refusal and by the score exactly when its volume
is software, it has no stage, or its stage keeps the bits and converts where the two
ends differ and nowhere else. -/
theorem agrees_iff (topology : Topology) :
    Agrees κ topology ↔
      topology.volumeMode = .software ∨ ∀ stage ∈ topology.composition, Coherent topology stage := by
  have hagrees : Agrees κ topology ↔
      (validateBitPerfect topology = .ok () ↔ topology.isBitPerfect = true) :=
    ⟨fun h => h.predicate, fun h => ⟨h, score_bitPerfect_iff topology⟩⟩
  rw [hagrees, validateBitPerfect_ok, validateFormats_ok, isBitPerfect_iff]
  by_cases hvolume : topology.volumeMode = .software
  · simp [hvolume]
  cases hstage : topology.composition with
  | none => simp [hvolume]
  | some stage =>
    by_cases hends : topology.sourceFormat = topology.deliveryFormat
    · simp [hvolume, hends, Coherent]
    · cases hkeeps : stage.preservesBitPerfect <;> cases htransforms : stage.transforms <;>
        simp [hvolume, hends, Coherent, hkeeps, htransforms]

/-- A chain that is bit-perfect matches in rate and format and pays no penalty. -/
theorem score_of_bitPerfect {topology : Topology} (h : topology.isBitPerfect = true)
    (profile : HardwareProfile κ) : 85 ≤ (scoreTopology topology profile).total := by
  obtain ⟨hends, hstage, hvolume⟩ := isBitPerfect_iff.mp h
  have hrate : topology.deliveryMatchesSourceRate = true := by
    unfold Topology.deliveryMatchesSourceRate
    rw [← hends]
    cases topology.sourceFormat <;> simp
  have hformat : topology.deliveryMatchesSourceFormat = true := by
    unfold Topology.deliveryMatchesSourceFormat
    rw [← hends]
    cases topology.sourceFormat <;> simp
  have hsame (stage : CompositionStage) (hmem : stage ∈ topology.composition) :
      stage.formatIn = stage.formatOut := by
    simpa [CompositionStage.transforms] using (hstage stage hmem).2
  have hresampler : topology.hasImplicitResampler = false := by
    rw [Topology.hasImplicitResampler, Option.any_eq_false]
    intro stage hmem
    rw [CompositionStage.appliesImplicitResampler, hsame stage hmem]
    cases stage.formatOut <;> simp
  have hdsd : topology.hasDsdToPcmConversion = false := by
    rw [Topology.hasDsdToPcmConversion, Option.any_eq_false]
    intro stage hmem
    rw [CompositionStage.convertsDsdToPcm, hsame stage hmem]
    cases stage.formatOut <;> simp
  have hsoftware : (topology.volumeMode == .software) = false := by simpa using hvolume
  simp only [scoreTopology, h, hrate, hformat, hresampler, hdsd, hsoftware, Bool.and_false,
    Bool.false_eq_true, if_true, if_false]
  omega

/-- Two-channel PCM of 24 bits. -/
def stereo (rateHz : UInt32) : AudioFormat := .pcm .pcmS24Le rateHz 2

/-- A stage that resamples between ends of one rate. -/
def resampledBetween : Topology where
  sourceFormat := stereo 192000
  composition := some ⟨"resampled".toList, false, stereo 192000, stereo 48000⟩
  deliveryFormat := stereo 192000
  volumeMode := .hardware

/-- It is validated, and scored as not bit-perfect. -/
theorem resampled_between_equal_ends_is_validated :
    validateBitPerfect resampledBetween = .ok () ∧ resampledBetween.isBitPerfect = false ∧
      (scoreTopology resampledBetween ⟨some ()⟩).bitPerfect = 0 ∧
      ¬Agrees Unit resampledBetween := by
  have hvalid : validateBitPerfect resampledBetween = .ok () := by decide
  have hscored : resampledBetween.isBitPerfect = false := by decide
  refine ⟨hvalid, hscored, by decide, fun h => ?_⟩
  rw [h.predicate.mp hvalid] at hscored
  cases hscored

end EvoAudio.Scoring
