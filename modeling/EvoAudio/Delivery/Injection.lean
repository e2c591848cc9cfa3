import EvoAudio.Delivery.OptionsRender
import EvoAudio.Options.Setters

/-!
# Settings inside the rendered texts

No renderer escapes what it is given. A value that ends its quotes, or takes the closing
quote for a character of its own, adds directives, closes blocks or makes the text
unreadable; a mixer control with a second line leaves the comment it is put in. The setters
refuse nothing but white space.
-/

namespace EvoAudio.Delivery

open ConfigText

def AudioFormat.isPcm : AudioFormat → Bool
  | .pcm _ _ _ => true
  | _ => false

theorem renderFormatString_isPcm {format : AudioFormat} :
    format.isPcm = true ↔ ∃ text, renderFormatString format = .ok text := by
  cases format <;> simp [AudioFormat.isPcm, renderFormatString]

/-- Whatever fragment is rendered for the endpoint is read as it is meant. -/
def FragmentAsMeant (ep : WriteEndpoint) (mixer : MixerConfig) : Prop :=
  ∀ text format, renderAudioOutputFragment ep mixer = .ok text →
    renderFormatString ep.format = .ok format →
    mpdDialect.readLines text = some (fragmentEntries ep.path format mixer)

/-- The drop-in is read as it is meant. -/
def DropInAsMeant (settings : OptionsSettings) (target : RenderTarget) : Prop :=
  asoundDialect.read (renderDropInForTarget settings target) =
    some (dropInEntries settings target)

theorem fragmentAsMeant_iff (ep : WriteEndpoint) (mixer : MixerConfig) :
    FragmentAsMeant ep mixer ↔
      (ep.kind = .alsaPcm → ep.format.isPcm = true →
        mpdDialect.Plain ep.path ∧ mixer.Plain) := by
  constructor
  · intro h hkind hpcm
    obtain ⟨format, hformat⟩ := renderFormatString_isPcm.mp hpcm
    have hread := h (fragmentText ep.path format mixer) format
      (renderAudioOutputFragment_eq_ok.mpr ⟨hkind, format, hformat, rfl⟩) hformat
    obtain ⟨hpath, -, hmixer⟩ := (readLines_fragmentText_iff ep.path format mixer).mp hread
    exact ⟨hpath, hmixer⟩
  · intro h text format hrender hformat
    obtain ⟨hkind, format', hformat', rfl⟩ := renderAudioOutputFragment_eq_ok.mp hrender
    obtain rfl := Except.ok.inj (hformat.symm.trans hformat')
    obtain ⟨hpath, hmixer⟩ := h hkind (renderFormatString_isPcm.mpr ⟨format, hformat⟩)
    exact (readLines_fragmentText_iff ep.path format mixer).mpr
      ⟨hpath, plain_of_renderFormatString hformat, hmixer⟩

/-- Both texts are read as they are meant if and only if every value that is written between quotes
has nothing special in it, and the mixer control that is written in a comment stays in it. -/
theorem asMeant_iff (ep : WriteEndpoint) (mixer : MixerConfig) (settings : OptionsSettings)
    (target : RenderTarget) :
    FragmentAsMeant ep mixer ∧ DropInAsMeant settings target ↔
      (ep.kind = .alsaPcm → ep.format.isPcm = true →
        mpdDialect.Plain ep.path ∧ mixer.Plain) ∧
      asoundDialect.Plain (parseCardName settings.device) ∧
      ∀ control, settings.mixerKind = .hardware control → endsInComment true control = true :=
  and_congr (fragmentAsMeant_iff ep mixer) (read_renderDropInForTarget_iff target settings)

/-- A mixer control that ends its quotes and puts a directive of its own behind them. -/
def injectingControl : List Char := "Master\"\n    dop             \"yes".toList

/-- The setter accepts the control, and the fragment is not the one that is meant. -/
theorem injected_directive : ¬ ∀ (ep : WriteEndpoint) (mixerDevice mixerControl : List Char),
    Options.whitespaceOnly mixerDevice = false → Options.whitespaceOnly mixerControl = false →
    FragmentAsMeant ep (.hardware mixerDevice mixerControl) := by
  intro h
  have hread := h ⟨.alsaPcm, "hw:2,0".toList, .pcm .pcmS32Le 48000 2⟩ "hw:CARD=DAC".toList
    injectingControl (by decide +kernel) (by decide +kernel)
  have hplain := ((fragmentAsMeant_iff _ _).mp hread rfl rfl).2
  revert hplain
  decide +kernel

end EvoAudio.Delivery
