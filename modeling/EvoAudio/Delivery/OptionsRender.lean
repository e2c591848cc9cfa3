import EvoAudio.Delivery.MpdFragment

/-!
# The drop-in of the sound configuration

The nodes that `options_render.rs` writes for the settings of the operator: the terminus, a
rate conversion, a software mixer, the front end and the control surface. Quoted texts
may run over lines here, and a hardware mixer control is only mentioned, in a comment.
-/

namespace EvoAudio.Delivery

open ConfigText Text

-- ---------------------------------------------------------------------------
-- Settings
-- ---------------------------------------------------------------------------

inductive MixerType where
  | none
  | software
  | hardware
deriving DecidableEq, Repr

structure Resampling where
  enabled : Bool
  targetRateHz : UInt32
deriving DecidableEq, Repr

structure OptionsSettings where
  mixerType : Option MixerType := none
  mixerControl : Option (List Char) := none
  outputDevice : Option (List Char) := none
  resampling : Option Resampling := none
  exclusiveMode : Option Bool := none
deriving DecidableEq, Repr

inductive RenderTarget where
  | main
  | sourceLocal
deriving DecidableEq, Repr

inductive EffectiveMixer where
  | none
  | software
  | hardware (control : List Char)
deriving DecidableEq, Repr

def defaultOutputDevice : List Char := "hw:CARD=DAC,DEV=0".toList

/-- What follows `hw:CARD=` or `hw:`. -/
def afterCard (descriptor : List Char) : Option (List Char) :=
  (stripPrefix "hw:CARD=".toList descriptor).or (stripPrefix "hw:".toList descriptor)

def parseCardName (descriptor : List Char) : List Char :=
  match afterCard descriptor with
  | some rest => rest.takeWhile (· ≠ ',')
  | none => descriptor

def parseCardDevice (descriptor : List Char) : UInt32 :=
  match afterCard descriptor with
  | none => 0
  | some rest =>
    (((rest.splitOn ',')[1]?).bind fun s =>
      parseU32 (trim ((stripPrefix "DEV=".toList s).getD s))).getD 0

namespace OptionsSettings

def device (settings : OptionsSettings) : List Char :=
  match settings.outputDevice with
  | some (c :: rest) => c :: rest
  | _ => defaultOutputDevice

def exclusive (settings : OptionsSettings) : Bool := settings.exclusiveMode.getD false

def resamplingNode (settings : OptionsSettings) : Option UInt32 :=
  if settings.exclusive then none
  else
    match settings.resampling with
    | some r => if r.enabled then some r.targetRateHz else none
    | none => none

/-- A hardware mixer that has no control is a software mixer, or none in bit-perfect mode. -/
def mixerKind (settings : OptionsSettings) : EffectiveMixer :=
  match settings.mixerType, settings.mixerControl with
  | some .hardware, some (c :: rest) => .hardware (c :: rest)
  | some .hardware, _ => if settings.exclusive then .none else .software
  | some .software, _ => if settings.exclusive then .none else .software
  | _, _ => .none

end OptionsSettings

-- ---------------------------------------------------------------------------
-- Rendering
-- ---------------------------------------------------------------------------

def RenderTarget.front : RenderTarget → List Char
  | .main => "evo".toList
  | .sourceLocal => "evo_local".toList

def RenderTarget.terminus (target : RenderTarget) : List Char :=
  target.front ++ "_terminus".toList

def RenderTarget.rate (target : RenderTarget) : List Char := target.front ++ "_rate".toList

def RenderTarget.mixer (target : RenderTarget) : List Char := target.front ++ "_mixer".toList

def pcmOpen (name : List Char) : List Char := "pcm.".toList ++ name ++ " \x7b\n".toList

def bareLine (lead : String) (w : List Char) : List Char := lead.toList ++ (w ++ "\n".toList)

def dropInHeader : List Char :=
  "# Auto-generated by org.evoframework.delivery.alsa\n".toList ++
  "# at runtime from the audio.options.settings subject\n".toList ++
  "# operator state. DO NOT EDIT BY HAND — the file is\n".toList ++
  "# rewritten on every operator gesture against the\n".toList ++
  "# playback.options plugin's settings surface.\n\n".toList

def terminusBlock (target : RenderTarget) (device : List Char) : List Char :=
  pcmOpen target.terminus ++
  "    type hw\n".toList ++
  quotedLine "    card " (parseCardName device) ++
  bareLine "    device " (decimal (parseCardDevice device)) ++
  "\x7d\n\n".toList

def rateBlock (target : RenderTarget) (rate : UInt32) : List Char :=
  pcmOpen target.rate ++
  "    type plug\n    slave \x7b\n".toList ++
  quotedLine "        pcm " target.terminus ++
  bareLine "        rate " (decimal rate) ++
  "    \x7d\n\x7d\n\n".toList

def softvolBlock (target : RenderTarget) (slave device : List Char) : List Char :=
  pcmOpen target.mixer ++
  "    type softvol\n".toList ++
  quotedLine "    slave.pcm " slave ++
  quotedLine "    control.name " "Evo Master".toList ++
  quotedLine "    control.card " (parseCardName device) ++
  "\x7d\n\n".toList

def hintLines (description : String) : List Char :=
  "    hint \x7b\n        show on\n".toList ++
  quotedLine "        description " description.toList ++
  "    \x7d\n".toList

def exclusiveFront (target : RenderTarget) (device : List Char) : List Char :=
  pcmOpen target.front ++
  "    type hw\n".toList ++
  quotedLine "    card " (parseCardName device) ++
  bareLine "    device " (decimal (parseCardDevice device)) ++
  hintLines "evo modular pipeline (bit-perfect)" ++
  "\x7d\n\n".toList

def plugFront (target : RenderTarget) (slave : List Char) : List Char :=
  pcmOpen target.front ++
  "    type plug\n".toList ++
  quotedLine "    slave.pcm " slave ++
  hintLines "evo modular pipeline (options-rendered)" ++
  "\x7d\n\n".toList

def ctlHead (device : List Char) : List Char :=
  "ctl.evo \x7b\n    type hw\n".toList ++ quotedLine "    card " (parseCardName device)

/-- The control's name is only a hint for a reader, and the end of the drop-in. -/
def ctlEnd : EffectiveMixer → List Char
  | .hardware control =>
    "    # hardware-mixer control: \"".toList ++ (control ++ "\"\n\x7d\n".toList)
  | _ => "\x7d\n".toList

/-- The node that a software mixer or the front end goes to. -/
def downstream (target : RenderTarget) (resampling : Option UInt32) : List Char :=
  if resampling.isSome then target.rate else target.terminus

/-- All but the end of the control surface. -/
def dropInHead (settings : OptionsSettings) (target : RenderTarget) : List Char :=
  dropInHeader ++
  terminusBlock target settings.device ++
  settings.resamplingNode.elim [] (rateBlock target) ++
  (if settings.mixerKind = .software then
    softvolBlock target (downstream target settings.resamplingNode) settings.device
  else []) ++
  (if settings.exclusive then exclusiveFront target settings.device
  else plugFront target
    (if settings.mixerKind = .software then target.mixer
    else downstream target settings.resamplingNode)) ++
  ctlHead settings.device

def renderDropInForTarget (settings : OptionsSettings) (target : RenderTarget) : List Char :=
  dropInHead settings target ++ ctlEnd settings.mixerKind

-- ---------------------------------------------------------------------------
-- What is meant
-- ---------------------------------------------------------------------------

def bare (key : String) (w : List Char) : Entry := .leaf key.toList (.bare w)

def pcmNode (name : List Char) (entries : List Entry) : Entry :=
  .block ("pcm.".toList ++ name) entries

def cardAndDevice (device : List Char) : List Entry :=
  [setting "card" (parseCardName device), bare "device" (decimal (parseCardDevice device))]

def hint (description : String) : Entry :=
  .block "hint".toList [bare "show" "on".toList, setting "description" description.toList]

def terminusNode (target : RenderTarget) (device : List Char) : Entry :=
  pcmNode target.terminus (bare "type" "hw".toList :: cardAndDevice device)

def rateNode (target : RenderTarget) (rate : UInt32) : Entry :=
  pcmNode target.rate [bare "type" "plug".toList,
    .block "slave".toList [setting "pcm" target.terminus, bare "rate" (decimal rate)]]

def softvolNode (target : RenderTarget) (slave device : List Char) : Entry :=
  pcmNode target.mixer [bare "type" "softvol".toList, setting "slave.pcm" slave,
    setting "control.name" "Evo Master".toList, setting "control.card" (parseCardName device)]

def exclusiveNode (target : RenderTarget) (device : List Char) : Entry :=
  pcmNode target.front (bare "type" "hw".toList :: cardAndDevice device ++
    [hint "evo modular pipeline (bit-perfect)"])

def plugNode (target : RenderTarget) (slave : List Char) : Entry :=
  pcmNode target.front [bare "type" "plug".toList, setting "slave.pcm" slave,
    hint "evo modular pipeline (options-rendered)"]

def ctlNode (device : List Char) : Entry :=
  .block "ctl.evo".toList [bare "type" "hw".toList, setting "card" (parseCardName device)]

/-- The nodes in front of the control surface. -/
def pcmNodes (settings : OptionsSettings) (target : RenderTarget) : List Entry :=
  [terminusNode target settings.device] ++
  settings.resamplingNode.elim [] (fun rate => [rateNode target rate]) ++
  (if settings.mixerKind = .software then
    [softvolNode target (downstream target settings.resamplingNode) settings.device]
  else []) ++
  [if settings.exclusive then exclusiveNode target settings.device
  else plugNode target
    (if settings.mixerKind = .software then target.mixer
    else downstream target settings.resamplingNode)]

/-- The nodes that a drop-in is to have. -/
def dropInEntries (settings : OptionsSettings) (target : RenderTarget) : List Entry :=
  pcmNodes settings target ++ [ctlNode settings.device]

-- ---------------------------------------------------------------------------
-- Reading it back
-- ---------------------------------------------------------------------------

def asoundEscape : Char → List Char
  | 'n' => ['\n']
  | 't' => ['\t']
  | 'r' => ['\r']
  | 'v' => ['\x0b']
  | 'b' => ['\x08']
  | 'f' => ['\x0c']
  | '\n' => []
  | c => [c]

def asoundDialect : Dialect where
  lines := false
  escape := asoundEscape
  short c := by
    unfold asoundEscape
    split <;> simp
  quote := by decide

/-- What stands in front of the values, and between the settings. -/
def dropInParts : List (List Char × List Token) :=
  [("    type hw\n".toList, [.word "type".toList, .word "hw".toList]),
    ("    card ".toList, [.word "card".toList]),
    ("    device ".toList, [.word "device".toList]),
    ("    slave.pcm ".toList, [.word "slave.pcm".toList]),
    ("\x7d\n\n".toList, [.closes]),
    ("    hint \x7b\n        show on\n".toList,
      [.word "hint".toList, .opens, .word "show".toList, .word "on".toList]),
    ("        description ".toList, [.word "description".toList]),
    ("    \x7d\n".toList, [.closes]),
    ("    type plug\n    slave \x7b\n".toList,
      [.word "type".toList, .word "plug".toList, .word "slave".toList, .opens]),
    ("        pcm ".toList, [.word "pcm".toList]),
    ("        rate ".toList, [.word "rate".toList]),
    ("    \x7d\n\x7d\n\n".toList, [.closes, .closes]),
    ("    type softvol\n".toList, [.word "type".toList, .word "softvol".toList]),
    ("    control.name ".toList, [.word "control.name".toList]),
    ("    control.card ".toList, [.word "control.card".toList]),
    ("    type plug\n".toList, [.word "type".toList, .word "plug".toList]),
    ("ctl.evo \x7b\n    type hw\n".toList,
      [.word "ctl.evo".toList, .opens, .word "type".toList, .word "hw".toList])]

theorem fixed_dropInParts :
    ∀ part ∈ dropInParts, asoundDialect.Fixed part.1 part.2 := by
  unfold dropInParts
  repeat rw [String.toList_ofList]
  decide +kernel

theorem written_nodePart (h : (t, toks) ∈ dropInParts) :
    Written asoundDialect t toks [] :=
  Written.text (fixed_dropInParts _ h)

theorem written_setting (lead key : String) (h : (lead.toList, [.word key.toList]) ∈ dropInParts)
    (value : List Char) :
    Written asoundDialect (quotedLine lead value) [.word key.toList, .quoted value] [value] :=
  Written.line (fixed_dropInParts _ h) value

theorem decimal_ne_nil (n : UInt32) : decimal n ≠ [] := by
  intro h
  have := parseU32_decimal n
  rw [h] at this
  simp [parseU32, stripPrefix] at this

theorem written_number (lead key : String) (h : (lead.toList, [.word key.toList]) ∈ dropInParts)
    (n : UInt32) :
    Written asoundDialect (bareLine lead (decimal n)) [.word key.toList, .word (decimal n)] [] := by
  refine Written.wordLine (fixed_dropInParts _ h) (decimal_ne_nil n) fun c hc => ?_
  have hdigit := isDigit_of_mem_decimal hc
  simp only [delimits, white, Bool.or_eq_false_iff, beq_eq_false_iff_ne]
  repeat' apply And.intro
  all_goals
    rintro rfl
    exact absurd hdigit (by decide)

/-- The names of the nodes. -/
def RenderTarget.names (target : RenderTarget) : List (List Char) :=
  [target.front, target.terminus, target.rate, target.mixer]

theorem fixed_names (target : RenderTarget) : ∀ name ∈ target.names, asoundDialect.Plain name ∧
    asoundDialect.Fixed (pcmOpen name) [.word ("pcm.".toList ++ name), .opens] := by
  cases target <;> decide +kernel

theorem written_pcmOpen (target : RenderTarget) (name : List Char) (h : name ∈ target.names) :
    Written asoundDialect (pcmOpen name) [.word ("pcm.".toList ++ name), .opens] [] :=
  Written.text (fixed_names target name h).2

theorem written_type_hw : Written asoundDialect "    type hw\n".toList
    [.word "type".toList, .word "hw".toList] [] :=
  written_nodePart (by simp only [dropInParts, List.mem_cons, true_or])

theorem written_card (device : List Char) :
    Written asoundDialect (quotedLine "    card " (parseCardName device))
      [.word "card".toList, .quoted (parseCardName device)] [parseCardName device] :=
  written_setting _ _ (by simp only [dropInParts, List.mem_cons, true_or, or_true]) _

theorem written_device (device : List Char) :
    Written asoundDialect (bareLine "    device " (decimal (parseCardDevice device)))
      [.word "device".toList, .word (decimal (parseCardDevice device))] [] :=
  written_number _ _ (by simp only [dropInParts, List.mem_cons, true_or, or_true]) _

theorem written_slave (slave : List Char) :
    Written asoundDialect (quotedLine "    slave.pcm " slave)
      [.word "slave.pcm".toList, .quoted slave] [slave] :=
  written_setting _ _ (by simp only [dropInParts, List.mem_cons, true_or, or_true]) _

theorem written_end : Written asoundDialect "\x7d\n\n".toList [.closes] [] :=
  written_nodePart (by simp only [dropInParts, List.mem_cons, true_or, or_true])

theorem written_hintLines (description : String) :
    Written asoundDialect (hintLines description) (tokensOf [hint description])
      [description.toList] := by
  have hopen : Written asoundDialect "    hint \x7b\n        show on\n".toList
      [.word "hint".toList, .opens, .word "show".toList, .word "on".toList] [] :=
    written_nodePart (by simp only [dropInParts, List.mem_cons, true_or, or_true])
  have hdescription := written_setting "        description " "description"
    (by simp only [dropInParts, List.mem_cons, true_or, or_true]) description.toList
  have hclose : Written asoundDialect "    \x7d\n".toList [.closes] [] :=
    written_nodePart (by simp only [dropInParts, List.mem_cons, true_or, or_true])
  exact (hopen.append hdescription).append hclose

variable (target : RenderTarget) (device : List Char)

theorem written_terminusBlock : Written asoundDialect (terminusBlock target device)
    (tokensOf [terminusNode target device]) [parseCardName device] := by
  have hopen := written_pcmOpen target target.terminus
    (by simp [RenderTarget.names])
  exact (((hopen.append written_type_hw).append (written_card device)).append
    (written_device device)).append written_end

theorem written_rateBlock (rate : UInt32) : Written asoundDialect (rateBlock target rate)
    (tokensOf [rateNode target rate]) [target.terminus] := by
  have hopen := written_pcmOpen target target.rate
    (by simp [RenderTarget.names])
  have htype : Written asoundDialect "    type plug\n    slave \x7b\n".toList
      [.word "type".toList, .word "plug".toList, .word "slave".toList, .opens] [] :=
    written_nodePart (by simp only [dropInParts, List.mem_cons, true_or, or_true])
  have hpcm := written_setting "        pcm " "pcm"
    (by simp only [dropInParts, List.mem_cons, true_or, or_true]) target.terminus
  have hrate := written_number "        rate " "rate"
    (by simp only [dropInParts, List.mem_cons, true_or, or_true]) rate
  have hclose : Written asoundDialect "    \x7d\n\x7d\n\n".toList [.closes, .closes] [] :=
    written_nodePart (by simp only [dropInParts, List.mem_cons, true_or, or_true])
  exact (((hopen.append htype).append hpcm).append hrate).append hclose

theorem written_softvolBlock (slave : List Char) :
    Written asoundDialect (softvolBlock target slave device)
      (tokensOf [softvolNode target slave device])
      [slave, "Evo Master".toList, parseCardName device] := by
  have hopen := written_pcmOpen target target.mixer
    (by simp [RenderTarget.names])
  have htype : Written asoundDialect "    type softvol\n".toList
      [.word "type".toList, .word "softvol".toList] [] :=
    written_nodePart (by simp only [dropInParts, List.mem_cons, true_or, or_true])
  have hname := written_setting "    control.name " "control.name"
    (by simp only [dropInParts, List.mem_cons, true_or, or_true]) "Evo Master".toList
  have hcard := written_setting "    control.card " "control.card"
    (by simp only [dropInParts, List.mem_cons, true_or, or_true]) (parseCardName device)
  exact ((((hopen.append htype).append (written_slave slave)).append hname).append
    hcard).append written_end

theorem written_exclusiveFront : Written asoundDialect (exclusiveFront target device)
    (tokensOf [exclusiveNode target device])
    [parseCardName device, "evo modular pipeline (bit-perfect)".toList] := by
  have hopen := written_pcmOpen target target.front
    (by simp [RenderTarget.names])
  exact ((((hopen.append written_type_hw).append (written_card device)).append
    (written_device device)).append (written_hintLines _)).append written_end

theorem written_plugFront (slave : List Char) : Written asoundDialect (plugFront target slave)
    (tokensOf [plugNode target slave])
    [slave, "evo modular pipeline (options-rendered)".toList] := by
  have hopen := written_pcmOpen target target.front
    (by simp [RenderTarget.names])
  have htype : Written asoundDialect "    type plug\n".toList
      [.word "type".toList, .word "plug".toList] [] :=
    written_nodePart (by simp only [dropInParts, List.mem_cons, true_or, or_true])
  exact (((hopen.append htype).append (written_slave slave)).append
    (written_hintLines _)).append written_end

/-- Everything that stands between quotes in a drop-in. -/
def dropInValues (settings : OptionsSettings) (target : RenderTarget) : List (List Char) :=
  [parseCardName settings.device] ++
  settings.resamplingNode.elim [] (fun _ => [target.terminus]) ++
  (if settings.mixerKind = .software then
    [downstream target settings.resamplingNode, "Evo Master".toList,
      parseCardName settings.device]
  else []) ++
  (if settings.exclusive then
    [parseCardName settings.device, "evo modular pipeline (bit-perfect)".toList]
  else [if settings.mixerKind = .software then target.mixer
    else downstream target settings.resamplingNode,
    "evo modular pipeline (options-rendered)".toList]) ++
  [parseCardName settings.device]

def ctlTokens (device : List Char) : List Token :=
  [.word "ctl.evo".toList, .opens, .word "type".toList, .word "hw".toList,
    .word "card".toList, .quoted (parseCardName device)]

theorem written_dropInHeader : Written asoundDialect dropInHeader [] [] :=
  Written.text (by
    unfold dropInHeader
    repeat rw [String.toList_ofList]
    decide +kernel)

theorem written_dropInHead (settings : OptionsSettings) :
    Written asoundDialect (dropInHead settings target)
      (tokensOf (pcmNodes settings target) ++ ctlTokens settings.device)
      (dropInValues settings target) := by
  have hctl : Written asoundDialect (ctlHead settings.device) (ctlTokens settings.device)
      [parseCardName settings.device] := by
    have hopen : Written asoundDialect "ctl.evo \x7b\n    type hw\n".toList
        [.word "ctl.evo".toList, .opens, .word "type".toList, .word "hw".toList] [] :=
      written_nodePart (by simp only [dropInParts, List.mem_cons, true_or, or_true])
    exact hopen.append (written_card settings.device)
  rw [pcmNodes, tokensOf_append, tokensOf_append, tokensOf_append, dropInHead, dropInValues]
  refine Written.append (Written.append (Written.append (Written.append
    (written_dropInHeader.append (written_terminusBlock target settings.device)) ?_) ?_) ?_) hctl
  · cases settings.resamplingNode with
    | none => exact .nil
    | some rate => exact written_rateBlock target rate
  · split
    · exact written_softvolBlock target settings.device _
    · exact .nil
  · split
    · exact written_exclusiveFront target settings.device
    · exact written_plugFront target _

theorem downstream_mem (resampling : Option UInt32) :
    downstream target resampling ∈ target.names := by
  cases resampling <;> simp [downstream, RenderTarget.names]

theorem plain_dropInValues (settings : OptionsSettings) :
    (∀ v ∈ dropInValues settings target, asoundDialect.Plain v) ↔
      asoundDialect.Plain (parseCardName settings.device) := by
  have hdown := (fixed_names target _ (downstream_mem target settings.resamplingNode)).1
  have hmixer := (fixed_names target target.mixer (by simp [RenderTarget.names])).1
  have hterminus := (fixed_names target target.terminus (by simp [RenderTarget.names])).1
  have hmaster : asoundDialect.Plain "Evo Master".toList := by
    simp [Dialect.Plain, asoundDialect]
  have hperfect : asoundDialect.Plain "evo modular pipeline (bit-perfect)".toList := by
    simp [Dialect.Plain, asoundDialect]
  have hrendered : asoundDialect.Plain "evo modular pipeline (options-rendered)".toList := by
    simp [Dialect.Plain, asoundDialect]
  simp only [dropInValues, List.forall_mem_append, List.forall_mem_singleton]
  refine ⟨And.right, fun hcard => ⟨⟨⟨⟨hcard, ?_⟩, ?_⟩, ?_⟩, hcard⟩⟩
  · cases settings.resamplingNode with
    | none => exact List.forall_mem_nil _
    | some rate => exact List.forall_mem_singleton.mpr hterminus
  · split
    · exact List.forall_mem_cons.mpr ⟨hdown, List.forall_mem_cons.mpr
        ⟨hmaster, List.forall_mem_singleton.mpr hcard⟩⟩
    · exact List.forall_mem_nil _
  · split
    · exact List.forall_mem_cons.mpr ⟨hcard, List.forall_mem_singleton.mpr hperfect⟩
    · refine List.forall_mem_cons.mpr ⟨?_, List.forall_mem_singleton.mpr hrendered⟩
      split
      · exact hmixer
      · exact hdown

/-- The rest of the drop-in closes its block only from inside the comment. From a quoted text it
leaves this text before it, and from elsewhere a quoted text that does not end. -/
theorem lexFrom_rest (mode : Mode) :
    asoundDialect.lexFrom mode "\"\n\x7d\n".toList =
      match mode with
      | .comment => some [.closes]
      | .quoted w => some [.quoted w, .closes]
      | _ => none := by
  have hrest : "\"\n\x7d\n".toList = ['"', '\n', '}', '\n'] := by simp
  rw [hrest]
  cases mode <;> simp [Dialect.lexFrom, Dialect.run, Dialect.step, Dialect.outside, white,
    delimits, asoundDialect, Mode.close]

/-- A control in the comment of the last block leaves this block as it is if and only if the comment
holds it to its end. -/
theorem lex_ctlEnd_iff (mixer : EffectiveMixer) :
    asoundDialect.lex (ctlEnd mixer) = some [.closes] ↔
      ∀ control, mixer = .hardware control → endsInComment true control = true := by
  have hclose : asoundDialect.lex "\x7d\n".toList = some [.closes] := by
    simp [Dialect.lex, Dialect.lexFrom, Dialect.run, Dialect.step, Dialect.outside, white,
      asoundDialect, Mode.close]
  cases mixer with
  | none => exact iff_of_true hclose (by simp)
  | software => exact iff_of_true hclose (by simp)
  | hardware control =>
    have hopen : asoundDialect.run .between "    # hardware-mixer control: \"".toList =
        ([], .comment) := by
      simp [Dialect.run, Dialect.step, Dialect.outside, white]
    have hend : ctlEnd (.hardware control) = "    # hardware-mixer control: \"".toList ++
        (control ++ "\"\n\x7d\n".toList) := rfl
    have hiff := (run_comment_iff (D := asoundDialect) control rfl).1
    rw [hend, Dialect.lex, lexFrom_of_run hopen, lexFrom_append, lexFrom_rest]
    generalize asoundDialect.run .comment control = after at hiff
    obtain ⟨emitted, mode⟩ := after
    have hcontrol : (∀ control', EffectiveMixer.hardware control = .hardware control' →
        endsInComment true control' = true) ↔ endsInComment true control = true := by simp
    rw [hcontrol, ← hiff]
    cases mode with
    | quoted w =>
      have hlength : emitted ++ [.quoted w, .closes] ≠ [.closes] := by
        intro h
        simpa using congrArg List.length h
      simpa using hlength
    | _ => simp

theorem clean_ctlEnd (mixer : EffectiveMixer) : Clean (ctlEnd mixer) := by
  have hclose : Clean "\x7d\n".toList := by simp [Clean]
  cases mixer with
  | none => exact hclose
  | software => exact hclose
  | hardware control =>
    have hend : ctlEnd (.hardware control) = "    # hardware-mixer control: \"".toList ++
        (control ++ "\"\n\x7d\n".toList) := rfl
    have hlead : "    # hardware-mixer control: \"".toList =
        "    # hardware-mixer control: ".toList ++ ['"'] := by simp
    rw [hend, hlead, List.append_assoc]
    exact clean_append (by simp) (by simp) (by simp [Clean])

/-- The drop-in is read as it is meant if and only if the card's name stays between its quotes, and
the mixer control inside its comment. -/
theorem read_renderDropInForTarget_iff (settings : OptionsSettings) :
    asoundDialect.read (renderDropInForTarget settings target) =
        some (dropInEntries settings target) ↔
      asoundDialect.Plain (parseCardName settings.device) ∧
        ∀ control, settings.mixerKind = .hardware control →
          endsInComment true control = true := by
  have hctl : tokensOf [ctlNode settings.device] = ctlTokens settings.device ++ [.closes] := rfl
  have htoks : tokensOf (dropInEntries settings target) =
      tokensOf (pcmNodes settings target) ++ ctlTokens settings.device ++ [.closes] := by
    rw [dropInEntries, tokensOf_append, hctl, List.append_assoc]
  have hread := (written_dropInHead target settings).read_iff
    (clean_ctlEnd settings.mixerKind) htoks
  rw [plain_dropInValues, lex_ctlEnd_iff] at hread
  exact hread

end EvoAudio.Delivery
