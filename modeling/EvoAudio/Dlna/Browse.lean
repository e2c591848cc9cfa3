import Mathlib
import EvoAudio.Lib.ByteSlices
import EvoAudio.Lib.Checked
import EvoAudio.Lib.Replace

/-!
# Paged ContentDirectory Browse

`browse.rs`: one page of a container is asked for in a SOAP envelope, and its objects and
the paging data are read out of the body of the reply. A slice at no character boundary, or
one that ends before it begins, is a fault of the checked computation. The exchange over HTTP
and the reading of a DIDL-Lite document are parameters.
-/

namespace EvoAudio.Dlna

open Text

-- ---------------------------------------------------------------------------
-- Data
-- ---------------------------------------------------------------------------

inductive DlnaError where
  | http (message : List Char)
  | parse (message : List Char)
  | soap (message : List Char)
  deriving DecidableEq, Repr

def dlnaPageHardCap : UInt32 := 100

structure BrowseParams where
  controlUrl : List Char
  objectId : List Char
  page : UInt32
  pageSize : UInt32
  deriving DecidableEq, Repr

structure BrowsePage (δ : Type) where
  objects : List δ
  page : UInt32
  pageSize : UInt32
  numberReturned : UInt32
  totalMatches : Option UInt32
  truncated : Bool
  nextPage : Option UInt32
  deriving DecidableEq, Repr

/-- A status code with the text that it is shown as. -/
structure StatusCode where
  code : Nat
  shown : List Char
  deriving DecidableEq, Repr

def StatusCode.isSuccess (status : StatusCode) : Bool := 200 ≤ status.code && status.code < 300

structure Reply where
  status : StatusCode
  body : List Char
  deriving DecidableEq, Repr

/-- `u32::saturating_add` -/
def saturatingAdd (a b : UInt32) : UInt32 :=
  if a.toNat + b.toNat < 2 ^ 32 then a + b else UInt32.ofNat (2 ^ 32 - 1)

/-- `u32::saturating_mul` -/
def saturatingMul (a b : UInt32) : UInt32 :=
  if a.toNat * b.toNat < 2 ^ 32 then a * b else UInt32.ofNat (2 ^ 32 - 1)

-- ---------------------------------------------------------------------------
-- Texts
-- ---------------------------------------------------------------------------

def xmlEscape (s : List Char) : List Char :=
  let s := replace ['&'] "&amp;".toList s
  let s := replace ['<'] "&lt;".toList s
  let s := replace ['>'] "&gt;".toList s
  let s := replace ['"'] "&quot;".toList s
  replace ['\''] "&apos;".toList s

def xmlUnescape (s : List Char) : List Char :=
  let s := replace "&quot;".toList ['"'] s
  let s := replace "&apos;".toList ['\''] s
  let s := replace "&lt;".toList ['<'] s
  let s := replace "&gt;".toList ['>'] s
  replace "&amp;".toList ['&'] s

/-- The text of the envelope up to the object id. -/
def envelopeHead : List Char :=
  "<?xml version=\"1.0\" encoding=\"utf-8\"?>\n".toList ++
  "<s:Envelope xmlns:s=\"http://schemas.xmlsoap.org/soap/envelope/\" ".toList ++
  "s:encodingStyle=\"http://schemas.xmlsoap.org/soap/encoding/\">\n".toList ++
  "  <s:Body>\n".toList ++
  "    <u:Browse xmlns:u=\"urn:schemas-upnp-org:service:ContentDirectory:1\">\n".toList ++
  "      <ObjectID>".toList

/-- From the object id to the starting index. -/
def envelopeFlags : List Char :=
  "</ObjectID>\n".toList ++
  "      <BrowseFlag>BrowseDirectChildren</BrowseFlag>\n".toList ++
  "      <Filter>*</Filter>\n".toList ++
  "      <StartingIndex>".toList

/-- From the starting index to the requested count. -/
def envelopeCount : List Char := "</StartingIndex>\n      <RequestedCount>".toList

def envelopeTail : List Char :=
  "</RequestedCount>\n".toList ++
  "      <SortCriteria></SortCriteria>\n".toList ++
  "    </u:Browse>\n".toList ++
  "  </s:Body>\n".toList ++
  "</s:Envelope>".toList

def soapBrowseEnvelope (objectId : List Char) (starting requested : UInt32) : List Char :=
  let oid := xmlEscape objectId
  envelopeHead ++ oid ++ envelopeFlags ++ decimal starting ++ envelopeCount ++ decimal requested ++
    envelopeTail

def truncate (s : List Char) (n : Nat) : Checked (List Char) :=
  if len s ≤ n then pure s
  else do
    let head ← Checked.orFault (sliceTo s n)
    pure (head ++ ['…'])

/-- The search for the opening tag, from a byte index on: the index behind the first
`local>` that `<` or `:` is before. -/
def openTagStep (xml needle : List Char) (searchFrom : Nat) : Checked (Nat ⊕ Nat) := do
  let rest ← Checked.orFault (sliceFrom xml searchFrom)
  let rel ← Checked.ofOption (find needle rest)
  let abs := searchFrom + rel
  if 0 < abs then
    let prev ← Checked.index (encode xml) (abs - 1)
    if prev = byte '<' ∨ prev = byte ':' then
      return .inr (abs + len needle)
  return .inl (abs + 1)

def extractTag (xml tag : List Char) : Checked (List Char) := do
  let needle := tag ++ ['>']
  let start ← Checked.loop (openTagStep xml needle) 0
  let closeNeedle := '/' :: tag ++ ['>']
  let rest ← Checked.orFault (sliceFrom xml start)
  let rel ← Checked.ofOption (find closeNeedle rest)
  let closeAt := start + rel
  let before ← Checked.orFault (sliceTo xml closeAt)
  let contentEnd ← Checked.ofOption (rfind ['<'] before)
  Checked.orFault (slice xml start contentEnd)

-- ---------------------------------------------------------------------------
-- One page
-- ---------------------------------------------------------------------------

section Page

variable {δ : Type} (parseDidl : List Char → Except DlnaError (List δ))

def startingIndex (page pageSize : UInt32) : UInt32 := saturatingMul page pageSize

/-- `params.page_size.clamp(1, DLNA_PAGE_HARD_CAP)` -/
def effectiveSize (pageSize : UInt32) : UInt32 :=
  if pageSize < 1 then 1 else if dlnaPageHardCap < pageSize then dlnaPageHardCap else pageSize

/-- The page of a reply that was read. -/
def pageOf (page pageSize : UInt32) (objects : List δ) (numberReturned totalMatches : Option UInt32) :
    BrowsePage δ :=
  let returned := numberReturned.getD (UInt32.ofNat objects.length)
  let truncated := match totalMatches with
    | some total => decide (saturatingAdd (startingIndex page pageSize) returned < total)
    | none => decide (pageSize ≤ returned)
  { objects
    page
    pageSize
    numberReturned := returned
    totalMatches
    truncated
    nextPage := if truncated then some (saturatingAdd page 1) else none }

/-- What `browse_page` makes of a reply. -/
def readReply (page pageSize : UInt32) (reply : Reply) :
    Checked (Except DlnaError (BrowsePage δ)) :=
  if !reply.status.isSuccess then do
    let excerpt ← truncate reply.body 240
    pure (.error (.soap ("HTTP ".toList ++ reply.status.shown ++ ": ".toList ++ excerpt)))
  else if "Fault".toList <:+: reply.body ∧ "UPnPError".toList <:+: reply.body then do
    let excerpt ← truncate reply.body 240
    pure (.error (.soap excerpt))
  else do
    match ← (extractTag reply.body "Result".toList).option with
    | none => pure (.error (.soap "Browse response missing Result".toList))
    | some resultXml =>
      -- Result is often XML-escaped inside the SOAP body.
      match parseDidl (xmlUnescape resultXml) with
      | .error e => pure (.error e)
      | .ok objects =>
        let returned ← (extractTag reply.body "NumberReturned".toList).option
        let total ← (extractTag reply.body "TotalMatches".toList).option
        pure (.ok (pageOf page pageSize objects (returned.bind parseU32) (total.bind parseU32)))

variable (post : List Char → List Char → Except DlnaError Reply)

def browsePage (params : BrowseParams) : Checked (Except DlnaError (BrowsePage δ)) :=
  let pageSize := effectiveSize params.pageSize
  let starting := startingIndex params.page pageSize
  let envelope := soapBrowseEnvelope params.objectId starting pageSize
  match post params.controlUrl envelope with
  | .error e => pure (.error e)
  | .ok reply => readReply parseDidl params.page pageSize reply

end Page

end EvoAudio.Dlna
