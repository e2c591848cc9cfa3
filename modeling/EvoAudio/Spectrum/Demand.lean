import EvoAudio.Lib.Json
import Mathlib.Data.UInt

/-!
# The spectrum demand

`audio.terminus/src/demand.rs`: the verb `audio.spectrum.set_demand` validates a
request and applies it, the demand is published as an envelope, and after a
restart `parse_envelope` reads the envelope back, through the same validators.
The verb reads its integers as `u32`; the envelope is read as `u64` and cut to
32 bits before it is validated.
-/

namespace EvoAudio.Spectrum

inductive FrequencyScale where
  | log
  | mel
  | linear
  deriving DecidableEq, Repr

def FrequencyScale.asStr : FrequencyScale → List Char
  | .log => "log".toList
  | .mel => "mel".toList
  | .linear => "linear".toList

def FrequencyScale.fromWire (s : List Char) : Option FrequencyScale :=
  if s = "log".toList then some .log
  else if s = "mel".toList then some .mel
  else if s = "linear".toList then some .linear
  else none

structure SpectrumDemand where
  enabled : Bool
  bins : UInt32
  channels : UInt32
  rateHzTarget : UInt32
  frequencyScale : FrequencyScale
  updatedAtMs : UInt64
  deriving DecidableEq, Repr

def demandPayloadVersion : UInt32 := 1

inductive PluginError where
  | permanent (message : String)
  deriving DecidableEq, Repr

def validateBins (bins : UInt32) : Except PluginError Unit :=
  if bins = 32 ∨ bins = 64 ∨ bins = 128 ∨ bins = 256 then .ok ()
  else .error (.permanent ("audio.spectrum.set_demand: bins=" ++ toString bins ++
    " outside enum \x7b32, 64, 128, 256\x7d"))

def validateChannels (channels : UInt32) : Except PluginError Unit :=
  if channels = 1 ∨ channels = 2 then .ok ()
  else .error (.permanent ("audio.spectrum.set_demand: channels=" ++ toString channels ++
    " outside enum \x7b1, 2\x7d"))

/-- `rate_hz_target.clamp(1, 60)` -/
def clampRate (rate : UInt32) : UInt32 := if rate < 1 then 1 else if 60 < rate then 60 else rate

-- ---------------------------------------------------------------------------
-- The verb
-- ---------------------------------------------------------------------------

/-- A payload that `serde_json` has read, its defaults filled in. -/
structure SetDemandRequest where
  v : UInt32
  enabled : Bool
  bins : UInt32
  channels : UInt32
  rateHzTarget : UInt32
  frequencyScale : FrequencyScale
  deriving DecidableEq, Repr

/-- The demand that is applied. -/
def handleSetDemand (now : UInt64) (parsed : SetDemandRequest) : Except PluginError SpectrumDemand :=
  if parsed.v ≠ demandPayloadVersion then
    .error (.permanent ("audio.spectrum.set_demand: unsupported payload version " ++
      toString parsed.v ++ " (this build understands " ++ toString demandPayloadVersion ++ ")"))
  else do
    validateBins parsed.bins
    validateChannels parsed.channels
    return {
      enabled := parsed.enabled
      bins := parsed.bins
      channels := parsed.channels
      rateHzTarget := clampRate parsed.rateHzTarget
      frequencyScale := parsed.frequencyScale
      updatedAtMs := now }

-- ---------------------------------------------------------------------------
-- The envelope
-- ---------------------------------------------------------------------------

def renderEnvelope (d : SpectrumDemand) : Json :=
  .object [
    ("v".toList, .posInt demandPayloadVersion.toUInt64),
    ("enabled".toList, .bool d.enabled),
    ("bins".toList, .posInt d.bins.toUInt64),
    ("channels".toList, .posInt d.channels.toUInt64),
    ("rate_hz_target".toList, .posInt d.rateHzTarget.toUInt64),
    ("frequency_scale".toList, .string d.frequencyScale.asStr),
    ("updated_at_ms".toList, .posInt d.updatedAtMs)]

/-- An envelope of a build before the scale was there has none. -/
def parseFrequencyScale (v : Json) : Option FrequencyScale :=
  match v.get "frequency_scale".toList with
  | none => some .log
  | some scale => scale.asStr.bind FrequencyScale.fromWire

def parseEnvelope (v : Json) : Option SpectrumDemand := do
  let version := (← v.u64Field "v".toList).toUInt32
  guard (version = demandPayloadVersion)
  let enabled ← v.boolField "enabled".toList
  let bins := (← v.u64Field "bins".toList).toUInt32
  guard ((validateBins bins).isOk)
  let channels := (← v.u64Field "channels".toList).toUInt32
  guard ((validateChannels channels).isOk)
  let rateHzTarget := clampRate (← v.u64Field "rate_hz_target".toList).toUInt32
  let frequencyScale ← parseFrequencyScale v
  let updatedAtMs ← v.u64Field "updated_at_ms".toList
  return { enabled, bins, channels, rateHzTarget, frequencyScale, updatedAtMs }

-- ---------------------------------------------------------------------------
-- What is legal
-- ---------------------------------------------------------------------------

theorem validateBins_isOk_iff {bins : UInt32} : (validateBins bins).isOk ↔
    bins.toNat = 32 ∨ bins.toNat = 64 ∨ bins.toNat = 128 ∨ bins.toNat = 256 := by
  unfold validateBins
  split <;> simp_all [Except.isOk, Except.toBool, ← UInt32.toNat_inj]

theorem validateChannels_isOk_iff {channels : UInt32} : (validateChannels channels).isOk ↔
    channels.toNat = 1 ∨ channels.toNat = 2 := by
  unfold validateChannels
  split <;> simp_all [Except.isOk, Except.toBool, ← UInt32.toNat_inj]

theorem clampRate_clampRate (rate : UInt32) : clampRate (clampRate rate) = clampRate rate := by
  unfold clampRate
  by_cases hlow : rate < 1
  · simp [hlow]
  · by_cases hhigh : 60 < rate <;> simp [hlow, hhigh]

/-- The integers of a request that the verb accepts. -/
def LegalIntegers (v bins channels rate : Nat) : Prop :=
  ∃ (now : UInt64) (parsed : SetDemandRequest), parsed.v.toNat = v ∧ parsed.bins.toNat = bins ∧
    parsed.channels.toNat = channels ∧ parsed.rateHzTarget.toNat = rate ∧
    (handleSetDemand now parsed).isOk

theorem handleSetDemand_eq_ok_iff {now : UInt64} {parsed : SetDemandRequest} {d : SpectrumDemand} :
    handleSetDemand now parsed = .ok d ↔
      parsed.v = demandPayloadVersion ∧ (validateBins parsed.bins).isOk ∧
        (validateChannels parsed.channels).isOk ∧
        d = ⟨parsed.enabled, parsed.bins, parsed.channels, clampRate parsed.rateHzTarget,
          parsed.frequencyScale, now⟩ := by
  unfold handleSetDemand
  by_cases hv : parsed.v = demandPayloadVersion
  · cases hbins : validateBins parsed.bins <;>
      cases hchannels : validateChannels parsed.channels <;>
      simp [hv, Except.isOk, Except.toBool, bind, Except.bind, pure, Except.pure, eq_comm]
  · simp [hv]

theorem legalIntegers_iff {v bins channels rate : Nat} :
    LegalIntegers v bins channels rate ↔
      v = 1 ∧ (bins = 32 ∨ bins = 64 ∨ bins = 128 ∨ bins = 256) ∧
        (channels = 1 ∨ channels = 2) ∧ rate < 2 ^ 32 := by
  constructor
  · rintro ⟨now, parsed, rfl, rfl, rfl, rfl, hok⟩
    cases hresult : handleSetDemand now parsed with
    | error => simp [hresult, Except.isOk, Except.toBool] at hok
    | ok d =>
      obtain ⟨hv, hbins, hchannels, -⟩ := handleSetDemand_eq_ok_iff.mp hresult
      exact ⟨hv ▸ rfl, validateBins_isOk_iff.mp hbins, validateChannels_isOk_iff.mp hchannels,
        parsed.rateHzTarget.toNat_lt⟩
  · rintro ⟨rfl, hbins, hchannels, hrate⟩
    have hbound : bins < UInt32.size ∧ channels < UInt32.size := by
      have hsize : UInt32.size = 2 ^ 32 := rfl
      omega
    have hbins' : (UInt32.ofNat bins).toNat = bins := UInt32.toNat_ofNat_of_lt' hbound.1
    have hchannels' : (UInt32.ofNat channels).toNat = channels :=
      UInt32.toNat_ofNat_of_lt' hbound.2
    let parsed : SetDemandRequest := ⟨1, true, .ofNat bins, .ofNat channels, .ofNat rate, .log⟩
    have hok : handleSetDemand 0 parsed = .ok ⟨true, .ofNat bins, .ofNat channels,
        clampRate (.ofNat rate), .log, 0⟩ :=
      handleSetDemand_eq_ok_iff.mpr ⟨rfl, validateBins_isOk_iff.mpr (hbins'.symm ▸ hbins),
        validateChannels_isOk_iff.mpr (hchannels'.symm ▸ hchannels), rfl⟩
    exact ⟨0, parsed, rfl, hbins', hchannels', UInt32.toNat_ofNat_of_lt' hrate, by rw [hok]; rfl⟩

/-- A demand as the verb applies it. -/
structure LegalDemand extends SpectrumDemand where
  bins_legal : (validateBins bins).isOk
  channels_legal : (validateChannels channels).isOk
  rate_clamped : clampRate rateHzTarget = rateHzTarget

/-- What the verb applies is legal. -/
theorem handleSetDemand_legal {now : UInt64} {parsed : SetDemandRequest} {d : SpectrumDemand}
    (h : handleSetDemand now parsed = .ok d) : ∃ legal : LegalDemand, legal.toSpectrumDemand = d := by
  obtain ⟨-, hbins, hchannels, rfl⟩ := handleSetDemand_eq_ok_iff.mp h
  exact ⟨{
    enabled := parsed.enabled
    bins := parsed.bins
    channels := parsed.channels
    rateHzTarget := clampRate parsed.rateHzTarget
    frequencyScale := parsed.frequencyScale
    updatedAtMs := now
    bins_legal := hbins
    channels_legal := hchannels
    rate_clamped := clampRate_clampRate _ }, rfl⟩

-- ---------------------------------------------------------------------------
-- What the envelope is read as
-- ---------------------------------------------------------------------------

/-- Where the envelope is accepted its integers, whole, are legal. -/
def AcceptsOnlyLegal (e : Json) : Prop :=
  ∀ d, parseEnvelope e = some d → ∃ v bins channels rate : UInt64,
    e.u64Field "v".toList = some v ∧ e.u64Field "bins".toList = some bins ∧
      e.u64Field "channels".toList = some channels ∧
      e.u64Field "rate_hz_target".toList = some rate ∧
      LegalIntegers v.toNat bins.toNat channels.toNat rate.toNat

/-- The lower halves of the integers are legal, though one of them has an upper
half, and the other fields are there with their types. -/
def Wraps (e : Json) : Prop :=
  ∃ v bins channels rate : UInt64,
    e.u64Field "v".toList = some v ∧ e.u64Field "bins".toList = some bins ∧
      e.u64Field "channels".toList = some channels ∧
      e.u64Field "rate_hz_target".toList = some rate ∧
      LegalIntegers (v.toNat % 2 ^ 32) (bins.toNat % 2 ^ 32) (channels.toNat % 2 ^ 32)
        (rate.toNat % 2 ^ 32) ∧
      (2 ^ 32 ≤ v.toNat ∨ 2 ^ 32 ≤ bins.toNat ∨ 2 ^ 32 ≤ channels.toNat ∨ 2 ^ 32 ≤ rate.toNat) ∧
      (e.boolField "enabled".toList).isSome ∧ (parseFrequencyScale e).isSome ∧
      (e.u64Field "updated_at_ms".toList).isSome

theorem parseEnvelope_eq_some_iff {e : Json} {d : SpectrumDemand} :
    parseEnvelope e = some d ↔ ∃ v bins channels rate : UInt64,
      e.u64Field "v".toList = some v ∧ e.u64Field "bins".toList = some bins ∧
        e.u64Field "channels".toList = some channels ∧
        e.u64Field "rate_hz_target".toList = some rate ∧
        v.toUInt32 = demandPayloadVersion ∧ (validateBins bins.toUInt32).isOk ∧
        (validateChannels channels.toUInt32).isOk ∧
        e.boolField "enabled".toList = some d.enabled ∧ d.bins = bins.toUInt32 ∧
        d.channels = channels.toUInt32 ∧ d.rateHzTarget = clampRate rate.toUInt32 ∧
        parseFrequencyScale e = some d.frequencyScale ∧
        e.u64Field "updated_at_ms".toList = some d.updatedAtMs := by
  simp only [parseEnvelope, Option.bind_eq_bind, Option.bind_eq_some_iff, Option.guard_eq_some',
    Option.pure_def, Option.some.injEq]
  constructor
  · rintro ⟨v, hv, -, hversion, enabled, henabled, bins, hbins, -, hbinsLegal, channels, hchannels,
      -, hchannelsLegal, rate, hrate, scale, hscale, updated, hupdated, rfl⟩
    exact ⟨v, bins, channels, rate, hv, hbins, hchannels, hrate, hversion, hbinsLegal,
      hchannelsLegal, henabled, rfl, rfl, rfl, hscale, hupdated⟩
  · rintro ⟨v, bins, channels, rate, hv, hbins, hchannels, hrate, hversion, hbinsLegal,
      hchannelsLegal, henabled, hbins', hchannels', hrate', hscale, hupdated⟩
    refine ⟨v, hv, (), hversion, d.enabled, henabled, bins, hbins, (), hbinsLegal, channels,
      hchannels, (), hchannelsLegal, rate, hrate, d.frequencyScale, hscale, d.updatedAtMs,
      hupdated, ?_⟩
    rw [← hbins', ← hchannels', ← hrate']

theorem acceptsOnlyLegal_iff (e : Json) : AcceptsOnlyLegal e ↔ ¬Wraps e := by
  constructor
  · rintro hlegal ⟨v, bins, channels, rate, hv, hbins, hchannels, hrate, hlow, hhigh, henabled,
      hscale, hupdated⟩
    rw [legalIntegers_iff] at hlow
    obtain ⟨enabled, henabled⟩ := Option.isSome_iff_exists.mp henabled
    obtain ⟨scale, hscale⟩ := Option.isSome_iff_exists.mp hscale
    obtain ⟨updated, hupdated⟩ := Option.isSome_iff_exists.mp hupdated
    have hversion : v.toUInt32 = demandPayloadVersion := by
      rw [← UInt32.toNat_inj, UInt64.toNat_toUInt32]
      exact hlow.1
    have hparse : parseEnvelope e = some ⟨enabled, bins.toUInt32, channels.toUInt32,
        clampRate rate.toUInt32, scale, updated⟩ :=
      parseEnvelope_eq_some_iff.mpr ⟨v, bins, channels, rate, hv, hbins, hchannels, hrate, hversion,
        validateBins_isOk_iff.mpr hlow.2.1, validateChannels_isOk_iff.mpr hlow.2.2.1, henabled,
        rfl, rfl, rfl, hscale, hupdated⟩
    obtain ⟨v', bins', channels', rate', hv', hbins', hchannels', hrate', hwhole⟩ := hlegal _ hparse
    cases hv.symm.trans hv'
    cases hbins.symm.trans hbins'
    cases hchannels.symm.trans hchannels'
    cases hrate.symm.trans hrate'
    rw [legalIntegers_iff] at hwhole
    omega
  · intro hwraps d hparse
    obtain ⟨v, bins, channels, rate, hv, hbins, hchannels, hrate, hversion, hbinsLegal,
      hchannelsLegal, henabled, -, -, -, hscale, hupdated⟩ := parseEnvelope_eq_some_iff.mp hparse
    have hlow : LegalIntegers (v.toNat % 2 ^ 32) (bins.toNat % 2 ^ 32) (channels.toNat % 2 ^ 32)
        (rate.toNat % 2 ^ 32) := by
      refine legalIntegers_iff.mpr ⟨?_, validateBins_isOk_iff.mp hbinsLegal,
        validateChannels_isOk_iff.mp hchannelsLegal, Nat.mod_lt _ (by decide)⟩
      rw [← UInt64.toNat_toUInt32, hversion]
      rfl
    have hfits : v.toNat < 2 ^ 32 ∧ bins.toNat < 2 ^ 32 ∧ channels.toNat < 2 ^ 32 ∧
        rate.toNat < 2 ^ 32 := by
      by_contra hhigh
      exact hwraps ⟨v, bins, channels, rate, hv, hbins, hchannels, hrate, hlow, by omega,
        Option.isSome_of_eq_some henabled, Option.isSome_of_eq_some hscale,
        Option.isSome_of_eq_some hupdated⟩
    refine ⟨v, bins, channels, rate, hv, hbins, hchannels, hrate, ?_⟩
    rwa [Nat.mod_eq_of_lt hfits.1, Nat.mod_eq_of_lt hfits.2.1, Nat.mod_eq_of_lt hfits.2.2.1,
      Nat.mod_eq_of_lt hfits.2.2.2] at hlow

theorem fromWire_asStr (scale : FrequencyScale) :
    FrequencyScale.fromWire scale.asStr = some scale := by
  cases scale <;> decide

theorem parseEnvelope_renderEnvelope (d : LegalDemand) :
    parseEnvelope (renderEnvelope d.toSpectrumDemand) = some d.toSpectrumDemand := by
  refine parseEnvelope_eq_some_iff.mpr ⟨demandPayloadVersion.toUInt64, d.bins.toUInt64,
    d.channels.toUInt64, d.rateHzTarget.toUInt64, rfl, rfl, rfl, rfl, rfl, ?_, ?_, rfl, ?_, ?_, ?_,
    ?_, rfl⟩
  · rw [UInt32.toUInt32_toUInt64]
    exact d.bins_legal
  · rw [UInt32.toUInt32_toUInt64]
    exact d.channels_legal
  · rw [UInt32.toUInt32_toUInt64]
  · rw [UInt32.toUInt32_toUInt64]
  · rw [UInt32.toUInt32_toUInt64, d.rate_clamped]
  · exact fromWire_asStr d.frequencyScale

/-- Envelopes are read exactly unless an integer wraps. -/
theorem parseEnvelope_exact_iff (e : Json) (d : LegalDemand) :
    (AcceptsOnlyLegal e ↔ ¬Wraps e) ∧
      parseEnvelope (renderEnvelope d.toSpectrumDemand) = some d.toSpectrumDemand :=
  ⟨acceptsOnlyLegal_iff e, parseEnvelope_renderEnvelope d⟩

/-- An envelope with 2 ^ 32 + 64 bins. -/
def wrappedBins : Json :=
  .object [("v".toList, .posInt 1), ("enabled".toList, .bool true),
    ("bins".toList, .posInt 4294967360), ("channels".toList, .posInt 2),
    ("rate_hz_target".toList, .posInt 30), ("updated_at_ms".toList, .posInt 0)]

theorem wrapped_bins_are_accepted : ¬AcceptsOnlyLegal wrappedBins := by
  intro h
  obtain ⟨v, bins, channels, rate, -, hbins, -, -, hlegal⟩ :=
    h ⟨true, 64, 2, 30, .log, 0⟩ (by decide)
  cases hbins
  rw [legalIntegers_iff] at hlegal
  exact absurd hlegal.2.1 (by decide)

end EvoAudio.Spectrum
