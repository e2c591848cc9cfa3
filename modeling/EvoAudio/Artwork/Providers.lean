import EvoAudio.Lib.Text

/-!
# What the providers answer

`run_cascade` of `evo-device-audio-http/src/artwork_cascade.rs` asks the local
plugin first and an online one next; `artist-mbid` goes online at once. Here is
what it makes of each reply: an outcome, with a negative memo to be written or
without, or a request to the next tier. `resolve` turns an outcome into what the
endpoint is told.
-/

namespace EvoAudio.Artwork

inductive CascadeOutcome where
  | resolved (contentHash : List Char) (providerId : Option (List Char))
  | notFound (providerId : Option (List Char)) (detail : List Char)
  | badRequest (detail : List Char)
  | admissionDeadline (detail : List Char)
  | coalescerDeadline (detail : List Char)
  | transient (detail : List Char)
  deriving DecidableEq, Repr

def CascadeOutcome.isResolved : CascadeOutcome → Bool
  | .resolved _ _ => true
  | _ => false

/-- What the fetcher returns, and the coalescer memoises. -/
inductive ResolveOutcome where
  | ok (contentHash : List Char) (providerId : Option (List Char))
  | error (reason : List Char)
  deriving DecidableEq, Repr

/-- The fields of a plugin's inner payload, where they are there with their type. -/
structure Response where
  status : Option (List Char)
  detail : Option (List Char)
  contentHash : Option (List Char)
  providerId : Option (List Char)
  identity : Option (List Char × List Char)
  deriving DecidableEq, Repr

/-- How a dispatch ends. The texts are the error and the envelope, as printed. -/
inductive Reply where
  | failed (error : List Char)
  | malformed (envelope : List Char)
  | response (response : Response)
  deriving DecidableEq, Repr

/-- An entry of the negative cache, before it has an expiry. -/
structure NegativeNote where
  status : List Char
  detail : List Char
  providerId : Option (List Char)
  deriving DecidableEq, Repr

inductive Tier where
  /-- `artist-mbid`, straight to the online plugin. -/
  | artist
  | local
  | online
  deriving DecidableEq, Repr

/-- What `run_cascade` does with a reply. -/
inductive Verdict where
  | done (outcome : ResolveOutcome) (negative : Option NegativeNote)
  | online
  deriving DecidableEq, Repr

def lowerAscii (c : Char) : Char := if 'A' ≤ c ∧ c ≤ 'Z' then Char.ofNat (c.toNat + 32) else c

/-- The MD5 of the empty string, in either case. -/
def isKnownPlaceholderHash (hash : List Char) : Bool :=
  hash.map lowerAscii = "d41d8cd98f00b204e9800998ecf8427e".toList

namespace Response

def extractContentHash (response : Response) : Option (List Char) :=
  response.contentHash.filter fun raw => !isKnownPlaceholderHash raw

def extractStatus (response : Response) : List Char := response.status.getD "unknown".toList

def extractDetail (response : Response) : List Char := response.detail.getD []

def extractIdentity (response : Response) : Option (List Char × List Char) :=
  match response.identity with
  | some (artist, album) =>
    if (Text.trim artist).isEmpty || (Text.trim album).isEmpty then none
    else some (Text.trim artist, Text.trim album)
  | none => none

/-- The status and the detail, as the errors print them. -/
def printed (response : Response) : List Char :=
  "status=".toList ++ response.extractStatus ++ " detail=".toList ++ response.extractDetail

def note (response : Response) : NegativeNote :=
  ⟨response.extractStatus, response.extractDetail, response.providerId⟩

end Response

def dispatchFailed (requestType error : List Char) : List Char :=
  "artwork resolve dispatch failed (".toList ++ requestType ++ "): ".toList ++ error

def malformedEnvelope (requestType envelope : List Char) : List Char :=
  "artwork resolve: malformed dispatch envelope (no payload_b64 or non-JSON inner payload) for ".toList
    ++ requestType ++ ": ".toList ++ envelope

def notResolved (response : Response) : ResolveOutcome :=
  .error ("artwork not resolved: ".toList ++ response.printed)

/-- The last tier: only a `not_found` is memoised. -/
def afterOnline (requestType : List Char) : Reply → Verdict
  | .failed error => .done (.error (dispatchFailed requestType error)) none
  | .malformed envelope => .done (.error (malformedEnvelope requestType envelope)) none
  | .response response =>
    match response.extractContentHash with
    | some hash => .done (.ok hash response.providerId) none
    | none =>
      if response.extractStatus = "not_found".toList then
        .done (notResolved response) (some response.note)
      else if response.extractStatus = "unavailable".toList then
        .done (.error ("artwork upstream unavailable: ".toList ++ response.printed)) none
      else .done (notResolved response) none

/-- The local tier. Without an identity there is nothing to ask online for, and
whatever the local plugin said is memoised. -/
def afterLocal (scheme : List Char) : Reply → Verdict
  | .failed error => .done (.error (dispatchFailed "artwork.resolve".toList error)) none
  | .malformed envelope => .done (.error (malformedEnvelope "artwork.resolve".toList envelope)) none
  | .response response =>
    match response.extractContentHash with
    | some hash => .done (.ok hash response.providerId) none
    | none =>
      if response.extractStatus = "bad_request".toList then .done (notResolved response) none
      else if scheme = "artist-name".toList then .online
      else
        match response.extractIdentity with
        | some _ => .online
        | none => .done (notResolved response) (some response.note)

/-- The reply of a tier. The online tier names `artwork.resolve_online` in its
errors for an `artist-name` too. -/
def verdict (scheme : List Char) : Tier → Reply → Verdict
  | .artist, reply => afterOnline "artwork.resolve_artist_online".toList reply
  | .local, reply => afterLocal scheme reply
  | .online, reply => afterOnline "artwork.resolve_online".toList reply

def firstTier (scheme : List Char) : Tier :=
  if scheme = "artist-mbid".toList then .artist else .local

def classifyFetcherError (reason : List Char) : CascadeOutcome :=
  if "artwork resolve admission deadline".toList.isPrefixOf reason then .admissionDeadline reason
  else if "artwork upstream unavailable:".toList.isPrefixOf reason then .transient reason
  else if "artwork not resolved:".toList.isPrefixOf reason then .notFound none reason
  else .transient reason

/-- The note of a transient outcome, and `none` for any other. -/
def transientNote : CascadeOutcome → Option NegativeNote
  | .transient detail => some ⟨"unavailable".toList, detail, none⟩
  | .admissionDeadline detail => some ⟨"admission_deadline".toList, detail, none⟩
  | .coalescerDeadline detail => some ⟨"coalescer_deadline".toList, detail, none⟩
  | _ => none

def provenanceNegativeCache : List Char := "negative_cache".toList

/-- The answer from a memoised note. -/
def replay (note : NegativeNote) : CascadeOutcome :=
  let detail := "artwork not resolved (memoised ".toList ++ provenanceNegativeCache ++
    "): status=".toList ++ note.status ++ " detail=".toList ++ note.detail
  if note.status = "unavailable".toList then .transient detail
  else if note.status = "admission_deadline".toList then .admissionDeadline detail
  else if note.status = "coalescer_deadline".toList then .coalescerDeadline detail
  else .notFound (note.providerId.or (some provenanceNegativeCache)) detail

end EvoAudio.Artwork
