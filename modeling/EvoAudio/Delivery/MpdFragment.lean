import EvoAudio.Lib.ConfigEntries
import EvoAudio.Lib.Text

/-!
# The audio outputs of MPD

The fragment of the player's configuration with the listening output and the terminus output,
as `mpd_fragment.rs` writes it, and how the player reads it: a directive on each line, its
value between double quotes, where a backslash takes the next character as it is. The braces
of what is written are spelled `\x7b` and `\x7d`.
-/

namespace EvoAudio.Delivery

open ConfigText Text

-- ---------------------------------------------------------------------------
-- Rendering
-- ---------------------------------------------------------------------------

inductive MixerConfig where
  | hardware (mixerDevice mixerControl : List Char)
  | software
  | none
deriving DecidableEq, Repr

def MixerConfig.mpdMixerTypeStr : MixerConfig → List Char
  | .hardware _ _ => "hardware".toList
  | .software => "software".toList
  | .none => "none".toList

inductive PcmCodec where
  | pcmS16Le
  | pcmS24Le
  | pcmS32Le
  | pcmF32
deriving DecidableEq, Repr

inductive AudioFormat where
  | pcm (codec : PcmCodec) (rateHz : UInt32) (channels : UInt8)
  | dsd
  | encodedPassthrough
deriving DecidableEq, Repr

inductive EndpointKind where
  | alsaPcm
  | namedPipe
  | sharedMemory
  | jackPort
deriving DecidableEq, Repr

/-- The path is given by its text. -/
structure WriteEndpoint where
  kind : EndpointKind
  path : List Char
  format : AudioFormat
deriving DecidableEq, Repr

inductive FragmentError where
  | unsupportedKind (kind : EndpointKind)
  | dsdNotSupported
  | encodedPassthroughNotSupported
deriving DecidableEq, Repr

def PcmCodec.bits : PcmCodec → List Char
  | .pcmS16Le => "16".toList
  | .pcmS24Le => "24".toList
  | .pcmS32Le => "32".toList
  | .pcmF32 => "f".toList

def renderFormatString : AudioFormat → Except FragmentError (List Char)
  | .pcm codec rateHz channels =>
    .ok (decimal rateHz ++ ':' :: (codec.bits ++ ':' :: decimal channels.toUInt32))
  | .dsd => .error .dsdNotSupported
  | .encodedPassthrough => .error .encodedPassthroughNotSupported

def renderMixerBlock (mixer : MixerConfig) : List Char :=
  match mixer with
  | .hardware mixerDevice mixerControl =>
    quotedLine "    mixer_type      " mixer.mpdMixerTypeStr ++
    quotedLine "    mixer_device    " mixerDevice ++
    quotedLine "    mixer_control   " mixerControl
  | _ => quotedLine "    mixer_type      " mixer.mpdMixerTypeStr

def terminusOutputDevice : List Char := "evo_terminus_tap".toList

def terminusLoopbackMpdFormat : List Char := "48000:32:2".toList

def fragmentText (device format : List Char) (mixer : MixerConfig) : List Char :=
  quotedLine "bind_to_address " "/run/mpd/socket".toList ++
  "\naudio_output \x7b\n".toList ++
  quotedLine "    type            " "alsa".toList ++
  quotedLine "    name            " "evo-device-audio".toList ++
  quotedLine "    device          " device ++
  quotedLine "    format          " format ++
  renderMixerBlock mixer ++
  "\x7d\n\naudio_output \x7b\n".toList ++
  quotedLine "    type            " "alsa".toList ++
  quotedLine "    name            " "evo-audio-terminus-tap".toList ++
  quotedLine "    device          " terminusOutputDevice ++
  quotedLine "    format          " terminusLoopbackMpdFormat ++
  quotedLine "    mixer_type      " "none".toList ++
  "\x7d\n".toList

def renderAudioOutputFragment (ep : WriteEndpoint) (mixer : MixerConfig) :
    Except FragmentError (List Char) :=
  if ep.kind ≠ .alsaPcm then .error (.unsupportedKind ep.kind)
  else
    match renderFormatString ep.format with
    | .error e => .error e
    | .ok format => .ok (fragmentText ep.path format mixer)

-- ---------------------------------------------------------------------------
-- What is meant
-- ---------------------------------------------------------------------------

def setting (key : String) (value : List Char) : Entry := .leaf key.toList (.quoted value)

def mixerSettings (mixer : MixerConfig) : List Entry :=
  setting "mixer_type" mixer.mpdMixerTypeStr ::
    match mixer with
    | .hardware mixerDevice mixerControl =>
      [setting "mixer_device" mixerDevice, setting "mixer_control" mixerControl]
    | _ => []

/-- The directives and blocks that a fragment is to have. -/
def fragmentEntries (device format : List Char) (mixer : MixerConfig) : List Entry :=
  [setting "bind_to_address" "/run/mpd/socket".toList,
    .block "audio_output".toList
      ([setting "type" "alsa".toList, setting "name" "evo-device-audio".toList,
        setting "device" device, setting "format" format] ++ mixerSettings mixer),
    .block "audio_output".toList
      [setting "type" "alsa".toList, setting "name" "evo-audio-terminus-tap".toList,
        setting "device" terminusOutputDevice, setting "format" terminusLoopbackMpdFormat,
        setting "mixer_type" "none".toList]]

-- ---------------------------------------------------------------------------
-- Reading it back
-- ---------------------------------------------------------------------------

def mpdDialect : Dialect where
  lines := true
  escape c := [c]
  short _ := Nat.le_refl 1
  quote := rfl

/-- What a fragment takes from its settings stays between its quotes. -/
def MixerConfig.Plain : MixerConfig → Prop
  | .hardware mixerDevice mixerControl =>
    mpdDialect.Plain mixerDevice ∧ mpdDialect.Plain mixerControl
  | _ => True

instance (mixer : MixerConfig) : Decidable mixer.Plain :=
  match mixer with
  | .hardware _ _ => inferInstanceAs (Decidable (_ ∧ _))
  | .software => .isTrue trivial
  | .none => .isTrue trivial

/-- The tokens of a directive. -/
def directive (key : String) (value : List Char) : List Token :=
  [.word key.toList, .quoted value, .newline]

/-- What stands in front of the values, and between the directives. -/
def fragmentParts : List (List Char × List Token) :=
  [("bind_to_address ".toList, [.word "bind_to_address".toList]),
    ("    type            ".toList, [.word "type".toList]),
    ("    name            ".toList, [.word "name".toList]),
    ("    device          ".toList, [.word "device".toList]),
    ("    format          ".toList, [.word "format".toList]),
    ("    mixer_type      ".toList, [.word "mixer_type".toList]),
    ("    mixer_device    ".toList, [.word "mixer_device".toList]),
    ("    mixer_control   ".toList, [.word "mixer_control".toList]),
    ("\naudio_output \x7b\n".toList, [.newline, .word "audio_output".toList, .opens, .newline]),
    ("\x7d\n\naudio_output \x7b\n".toList,
      [.closes, .newline, .newline, .word "audio_output".toList, .opens, .newline]),
    ("\x7d\n".toList, [.closes, .newline])]

theorem fixed_fragmentParts :
    ∀ part ∈ fragmentParts, mpdDialect.Fixed part.1 part.2 := by
  unfold fragmentParts
  repeat rw [String.toList_ofList]
  decide +kernel

theorem written_directive (lead key : String)
    (h : (lead.toList, [.word key.toList]) ∈ fragmentParts) (value : List Char) :
    Written mpdDialect (quotedLine lead value) (directive key value) [value] :=
  Written.line (fixed_fragmentParts _ h) value

theorem written_part (h : (t, toks) ∈ fragmentParts) : Written mpdDialect t toks [] :=
  Written.text (fixed_fragmentParts _ h)

def mixerTokens (mixer : MixerConfig) : List Token :=
  match mixer with
  | .hardware mixerDevice mixerControl =>
    directive "mixer_type" mixer.mpdMixerTypeStr ++ directive "mixer_device" mixerDevice ++
      directive "mixer_control" mixerControl
  | _ => directive "mixer_type" mixer.mpdMixerTypeStr

def mixerValues (mixer : MixerConfig) : List (List Char) :=
  match mixer with
  | .hardware mixerDevice mixerControl => [mixer.mpdMixerTypeStr, mixerDevice, mixerControl]
  | _ => [mixer.mpdMixerTypeStr]

theorem written_renderMixerBlock (mixer : MixerConfig) :
    Written mpdDialect (renderMixerBlock mixer) (mixerTokens mixer) (mixerValues mixer) := by
  have htype := written_directive "    mixer_type      " "mixer_type"
    (by simp only [fragmentParts, List.mem_cons, true_or, or_true])
  have hdevice := written_directive "    mixer_device    " "mixer_device"
    (by simp only [fragmentParts, List.mem_cons, true_or, or_true])
  have hcontrol := written_directive "    mixer_control   " "mixer_control"
    (by simp only [fragmentParts, List.mem_cons, true_or, or_true])
  cases mixer with
  | hardware mixerDevice mixerControl =>
    exact ((htype "hardware".toList).append (hdevice mixerDevice)).append (hcontrol mixerControl)
  | software => exact htype "software".toList
  | none => exact htype "none".toList

theorem plain_mixerTypeStr (mixer : MixerConfig) : mpdDialect.Plain mixer.mpdMixerTypeStr := by
  have hhardware : mpdDialect.Plain "hardware".toList := by simp [Dialect.Plain]
  have hsoftware : mpdDialect.Plain "software".toList := by simp [Dialect.Plain]
  have hnone : mpdDialect.Plain "none".toList := by simp [Dialect.Plain]
  cases mixer with
  | hardware mixerDevice mixerControl => exact hhardware
  | software => exact hsoftware
  | none => exact hnone

theorem plain_mixerValues (mixer : MixerConfig) :
    (∀ v ∈ mixerValues mixer, mpdDialect.Plain v) ↔ mixer.Plain := by
  have htype := plain_mixerTypeStr mixer
  cases mixer with
  | hardware mixerDevice mixerControl =>
    rw [mixerValues, List.forall_mem_cons, List.forall_mem_cons, List.forall_mem_singleton]
    exact and_iff_right htype
  | software => exact iff_of_true (List.forall_mem_singleton.mpr htype) trivial
  | none => exact iff_of_true (List.forall_mem_singleton.mpr htype) trivial

/-- The tokens of a fragment. -/
def fragmentTokens (device format : List Char) (mixer : MixerConfig) : List Token :=
  directive "bind_to_address" "/run/mpd/socket".toList ++
  ([.newline, .word "audio_output".toList, .opens, .newline] : List Token) ++
  directive "type" "alsa".toList ++
  directive "name" "evo-device-audio".toList ++
  directive "device" device ++
  directive "format" format ++
  mixerTokens mixer ++
  ([.closes, .newline, .newline, .word "audio_output".toList, .opens, .newline] : List Token) ++
  directive "type" "alsa".toList ++
  directive "name" "evo-audio-terminus-tap".toList ++
  directive "device" terminusOutputDevice ++
  directive "format" terminusLoopbackMpdFormat ++
  directive "mixer_type" "none".toList ++
  ([.closes, .newline] : List Token)

theorem directiveLines_fragmentTokens (device format : List Char) (mixer : MixerConfig) :
    directiveLines (fragmentTokens device format mixer) =
      some (tokensOf (fragmentEntries device format mixer)) := by
  cases mixer <;> rfl

def fragmentValues (device format : List Char) (mixer : MixerConfig) : List (List Char) :=
  ["/run/mpd/socket".toList, "alsa".toList, "evo-device-audio".toList] ++
  [device, format] ++
  mixerValues mixer ++
  ["alsa".toList, "evo-audio-terminus-tap".toList, terminusOutputDevice,
    terminusLoopbackMpdFormat, "none".toList]

theorem plain_fragmentValues (device format : List Char) (mixer : MixerConfig) :
    (∀ v ∈ fragmentValues device format mixer, mpdDialect.Plain v) ↔
      mpdDialect.Plain device ∧ mpdDialect.Plain format ∧ mixer.Plain := by
  have hfront : ∀ v ∈ ["/run/mpd/socket".toList, "alsa".toList, "evo-device-audio".toList],
      mpdDialect.Plain v := by decide +kernel
  have hback : ∀ v ∈ ["alsa".toList, "evo-audio-terminus-tap".toList, terminusOutputDevice,
      terminusLoopbackMpdFormat, "none".toList], mpdDialect.Plain v := by decide +kernel
  have hsettings : (∀ v ∈ [device, format], mpdDialect.Plain v) ↔
      mpdDialect.Plain device ∧ mpdDialect.Plain format := by
    rw [List.forall_mem_cons, List.forall_mem_singleton]
  rw [fragmentValues, List.forall_mem_append, List.forall_mem_append, List.forall_mem_append,
    hsettings, plain_mixerValues]
  tauto

theorem written_fragmentText (device format : List Char) (mixer : MixerConfig) :
    Written mpdDialect (fragmentText device format mixer) (fragmentTokens device format mixer)
      (fragmentValues device format mixer) := by
  have hbind := written_directive "bind_to_address " "bind_to_address"
    (by simp only [fragmentParts, List.mem_cons, true_or])
  have htype := written_directive "    type            " "type"
    (by simp only [fragmentParts, List.mem_cons, true_or, or_true])
  have hname := written_directive "    name            " "name"
    (by simp only [fragmentParts, List.mem_cons, true_or, or_true])
  have hdevice := written_directive "    device          " "device"
    (by simp only [fragmentParts, List.mem_cons, true_or, or_true])
  have hformat := written_directive "    format          " "format"
    (by simp only [fragmentParts, List.mem_cons, true_or, or_true])
  have hmixer := written_directive "    mixer_type      " "mixer_type"
    (by simp only [fragmentParts, List.mem_cons, true_or, or_true])
  have hfirst : Written mpdDialect "\naudio_output \x7b\n".toList
      [.newline, .word "audio_output".toList, .opens, .newline] [] :=
    written_part (by simp only [fragmentParts, List.mem_cons, true_or, or_true])
  have hsecond : Written mpdDialect "\x7d\n\naudio_output \x7b\n".toList
      [.closes, .newline, .newline, .word "audio_output".toList, .opens, .newline] [] :=
    written_part (by simp only [fragmentParts, List.mem_cons, true_or, or_true])
  have hend : Written mpdDialect "\x7d\n".toList [.closes, .newline] [] :=
    written_part (by simp only [fragmentParts, List.mem_cons, true_or, or_true])
  have hlistening := (((((hbind "/run/mpd/socket".toList).append hfirst).append
    (htype "alsa".toList)).append (hname "evo-device-audio".toList)).append
    (hdevice device)).append (hformat format)
  have hboth := ((((((hlistening.append (written_renderMixerBlock mixer)).append
    hsecond).append (htype "alsa".toList)).append
    (hname "evo-audio-terminus-tap".toList)).append
    (hdevice terminusOutputDevice)).append
    (hformat terminusLoopbackMpdFormat)).append (hmixer "none".toList)
  have hwhole := hboth.append hend
  cases mixer <;> exact hwhole

/-- The fragment is read as it is meant if and only if every value stays between its quotes. -/
theorem readLines_fragmentText_iff (device format : List Char) (mixer : MixerConfig) :
    mpdDialect.readLines (fragmentText device format mixer) =
        some (fragmentEntries device format mixer) ↔
      mpdDialect.Plain device ∧ mpdDialect.Plain format ∧ mixer.Plain :=
  ((written_fragmentText device format mixer).readLines_iff
    (directiveLines_fragmentTokens device format mixer)).trans
    (plain_fragmentValues device format mixer)

theorem plain_of_renderFormatString {format : AudioFormat}
    (h : renderFormatString format = .ok text) : mpdDialect.Plain text := by
  have hchars : ∀ c ∈ text, c.isDigit = true ∨ c = ':' ∨ c = 'f' := by
    cases format with
    | pcm codec rateHz channels =>
      obtain rfl := Except.ok.inj h
      have hbits : ∀ c ∈ codec.bits, c.isDigit = true ∨ c = ':' ∨ c = 'f' := by
        cases codec <;> simp [PcmCodec.bits]
      intro c hc
      simp only [List.mem_append, List.mem_cons] at hc
      rcases hc with hc | hc | hc | hc | hc
      · exact .inl (isDigit_of_mem_decimal hc)
      · exact .inr (.inl hc)
      · exact hbits c hc
      · exact .inr (.inl hc)
      · exact .inl (isDigit_of_mem_decimal hc)
    | _ => cases h
  refine ⟨fun hmem => ?_, fun hmem => ?_, fun _ hmem => ?_⟩ <;>
    exact absurd (hchars _ hmem) (by decide)

/-- The fragment of an endpoint that has one. -/
theorem renderAudioOutputFragment_eq_ok {ep : WriteEndpoint} :
    renderAudioOutputFragment ep mixer = .ok text ↔ ep.kind = .alsaPcm ∧
      ∃ format, renderFormatString ep.format = .ok format ∧
        text = fragmentText ep.path format mixer := by
  rw [renderAudioOutputFragment]
  by_cases hkind : ep.kind = .alsaPcm
  · cases renderFormatString ep.format <;> simp [hkind, eq_comm]
  · simp [hkind]

end EvoAudio.Delivery
