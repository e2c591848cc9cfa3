import EvoAudio.Lib.LineWords

/-!
# The boot configuration of the Raspberry Pi provider

The text edits of `hardware.audio-config/src/provider_pi.rs`: the managed block, a
banner and a `dtoverlay=` line, is stripped, the I2C and I2S parameters are
switched on, and a new block is appended. The edits are chains of regular expressions
in multi-line mode.
-/

namespace EvoAudio.Boot

open Regex Lines

inductive ProviderError where
  | invalidOverlay (message : List Char)
  deriving DecidableEq, Repr

-- ---------------------------------------------------------------------------
-- The managed block
-- ---------------------------------------------------------------------------

def evoI2sBannerLine : List Char := "#### evo i2s setting below: do not alter ####\n".toList

def overlayKey : List Char := "dtoverlay=".toList

/-- `[^\r\n]` -/
def inLine (x : Char) : Bool := x != '\r' && x != '\n'

def bannerOpening : List Char := "#### ".toList

def bannerNotice : List Char := " i2s setting below: do not alter ####".toList

/-- The banner with its newline, white space, and the start of the overlay line. -/
def blockHead : List Atom :=
  [.lineStart, lit bannerOpening, .oneOf ["evo".toList, "Volumio".toList], lit bannerNotice,
    optionalCr, lit ['\n'], .many Text.isWhitespace, lit overlayKey]

/-- `MANAGED_BLOCK_REGEX_SRC` -/
def managedBlockRegex : List Atom := blockHead ++ [.many inLine, optionalCr, lit ['\n']]

def validateOverlayToken (overlay : List Char) : Except ProviderError Unit :=
  if overlay.isEmpty then .error (.invalidOverlay "empty overlay".toList)
  else if !overlay.all fun c => c.isAlphanum || c == ',' || c == '_' || c == '-' || c == '.' then
    .error (.invalidOverlay "invalid overlay characters".toList)
  else .ok ()

def stripManagedBlock (text : List Char) : List Char := replaceAll managedBlockRegex [] text

-- ---------------------------------------------------------------------------
-- The lines outside the block
-- ---------------------------------------------------------------------------

def duplicateRegex (overlay : List Char) : List Atom :=
  .lineStart :: .many Text.isWhitespace :: lit overlayKey :: .many Text.isWhitespace ::
    lit overlay :: toNewline

def stripDuplicateDtoverlayLines (text overlay : List Char) : List Char :=
  replaceAll (duplicateRegex overlay) [] text

inductive Param where
  | i2cArm
  | i2s
  deriving DecidableEq, Repr

def Param.key : Param → List Char
  | .i2cArm => "dtparam=i2c_arm=".toList
  | .i2s => "dtparam=i2s=".toList

def Param.on (param : Param) : List Char := param.key ++ "on".toList

def offValues : List (List Char) := ["off".toList, "0".toList, "false".toList]

def uncommentRegex (param : Param) : List Atom :=
  .lineStart :: .many Text.isWhitespace :: lit ['#'] :: .many Text.isWhitespace ::
    lit param.on :: toLineEnd

def offToOnRegex (param : Param) : List Atom :=
  .lineStart :: .many Text.isWhitespace :: lit param.key :: .oneOf offValues :: toLineEnd

def hasRegex (param : Param) : List Atom :=
  .lineStart :: .many Text.isWhitespace :: lit param.on :: toLineEnd

/-- The replacements, in their order. -/
def dtparamPairs : List (List Atom × List Char) :=
  [(uncommentRegex .i2cArm, Param.i2cArm.on), (uncommentRegex .i2s, Param.i2s.on),
    (offToOnRegex .i2cArm, Param.i2cArm.on), (offToOnRegex .i2s, Param.i2s.on)]

/-- The text with a newline at its end. -/
def closed (text : List Char) : List Char :=
  if text.getLast? = some '\n' then text else text ++ ['\n']

def paramsLabel : List Char :=
  "# evo: I2S DAC — enable SoC I2C + I2S (do not remove)\n".toList

def ensureRaspberryPiI2cI2sDtparams (text : List Char) : List Char :=
  let out := dtparamPairs.foldl (fun out (pat, repl) => replaceAll pat repl out) text
  let hasI2c := isMatch (hasRegex .i2cArm) true out
  let hasI2s := isMatch (hasRegex .i2s) true out
  if !hasI2c || !hasI2s then
    closed out ++ '\n' :: paramsLabel ++
      (if !hasI2c then Param.i2cArm.on ++ ['\n'] else []) ++
      (if !hasI2s then Param.i2s.on ++ ['\n'] else [])
  else out

-- ---------------------------------------------------------------------------
-- Applying, clearing, reading
-- ---------------------------------------------------------------------------

/-- The lines that stand outside the managed block after an apply. -/
def applyBody (current overlay : List Char) : List Char :=
  ensureRaspberryPiI2cI2sDtparams
    (stripDuplicateDtoverlayLines (stripManagedBlock current) overlay)

def composeApplyText (current overlay : List Char) : Except ProviderError (List Char) := do
  validateOverlayToken overlay
  return closed (applyBody current overlay) ++
    '\n' :: (evoI2sBannerLine ++ (overlayKey ++ overlay ++ ['\n']))

def composeClearText (current : List Char) : List Char := stripManagedBlock current

/-- The token of the first managed block, or the empty text. -/
def extractActiveOverlay (text : List Char) : List Char :=
  match captures blockHead [.one inLine, .many inLine] [optionalCr, lit ['\n']] true text with
  | some token => Text.trim token
  | none => []

end EvoAudio.Boot
