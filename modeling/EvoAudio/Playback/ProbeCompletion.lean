import EvoAudio.Playback.ProbeTotality

/-!
# Where the probe does not come to an end

The walkers of DSDIFF chunks and of ASF objects go by sizes of 64 bits. A chunk can be
so long that its end is no `usize`, and an object of size zero is walked over again and
again. On every other head, and for every other codec, the probe comes to an end.
-/

namespace EvoAudio.SourceProbe

open Checked (Returns Ends Completes GoesOn)
open Relation (ReflTransGen)

variable {head : Bytes}

-- ---------------------------------------------------------------------------
-- Chunks of a DSDIFF file
-- ---------------------------------------------------------------------------

def dffChunkLen (head : Bytes) (c : Nat) : Nat := chunkLen 12 beValue head c

/-- What is known of the format with the chunk at a place, `none` for a `CHNL` chunk
that the head cuts off. -/
def addChunk (head : Bytes) (props : DffProps) : Option DffProps :=
  let body := props.cursor + 12
  if bytesAt head props.cursor 4 = ascii "FS  " then
    some { props with
      rateHz := if body + 4 ≤ head.length then
        some (UInt32.ofNat (beValue (bytesAt head body 4))) else none }
  else if bytesAt head props.cursor 4 = ascii "CHNL" then
    if body + 2 ≤ head.length then
      some { props with channels := some (UInt16.ofNat (beValue (bytesAt head body 2))).toUInt32 }
    else none
  else
    some props

/-- The walk in the `PROP` chunk goes on to the next chunk. -/
def ReadsOn (head : Bytes) (props props' : DffProps) : Prop :=
  props.cursor + 12 ≤ head.length ∧ ∃ known, addChunk head props = some known ∧
    ¬(known.rateHz.isSome ∧ known.channels.isSome) ∧
    props' = { known with cursor := props.cursor + dffChunkLen head props.cursor } ∧
    props.cursor + dffChunkLen head props.cursor < 2 ^ 64

theorem addChunk_cursor (h : addChunk head props = some known) : known.cursor = props.cursor := by
  simp only [addChunk] at h
  split at h
  · cases h; rfl
  · split at h
    · split at h
      · cases h; rfl
      · cases h
    · cases h; rfl

theorem returns_u32Be : Returns (u32Be b offset) r ↔ offset + 4 < 2 ^ 64 ∧
    r = if offset + 4 ≤ b.length then some (UInt32.ofNat (beValue (bytesAt b offset 4))) else none := by
  simp only [u32Be, Checked.returns_bind, returns_arrayAt, returns_slice, Checked.returns_pure]
  by_cases hle : offset + 4 ≤ b.length
  · simp [hle, and_assoc]
  · simp [hle]

theorem ends_readDffChunk (hlen : head.length ≤ 4096) (hle : props.cursor + 12 ≤ head.length) :
    Ends (readDffChunk head (bytesAt head props.cursor 4) (props.cursor + 12) props) Q ↔
      ∀ known, addChunk head props = some known → Q known := by
  have hword : props.cursor + 12 + 4 < 2 ^ 64 := by omega
  have hword' : props.cursor + 12 + 2 < 2 ^ 64 := by omega
  unfold readDffChunk addChunk
  split
  · simp only [Checked.ends_bind, Checked.ends_option, returns_u32Be, hword, true_and,
      exists_eq_left, Checked.ends_pure]
    simp
  · split
    · simp only [Checked.ends_bind, ends_u16Be, hword', true_and, Checked.ends_pure]
      by_cases hbody : props.cursor + 12 + 2 ≤ head.length
      · simp [hbody]
      · simp [hbody]
    · simp

theorem ends_dffStep (hlen : head.length ≤ 4096) :
    Ends (dffStep head props) Q ↔ props.cursor + 12 < 2 ^ 64 ∧
      (props.cursor + 12 ≤ head.length → ∀ known, addChunk head props = some known →
        dffChunkLen head props.cursor < 2 ^ 64 ∧
        (props.cursor + dffChunkLen head props.cursor < 2 ^ 64 →
          let next := { known with cursor := props.cursor + dffChunkLen head props.cursor }
          (known.rateHz.isSome ∧ known.channels.isSome → Q (.inr next)) ∧
            (¬(known.rateHz.isSome ∧ known.channels.isSome) → Q (.inl next)))) ∧
      (¬props.cursor + 12 ≤ head.length → Q (.inr props)) := by
  simp only [dffStep, chunkAdvance, Checked.ends_bind, ends_plus, Checked.ends_ite, ends_slice,
    ends_u64BeAt, Checked.ends_checkedAdd, Checked.ends_pure]
  refine and_congr_right fun _ => and_congr_left fun _ => imp_congr_right fun hle => ?_
  have hid : props.cursor + 4 < 2 ^ 64 := by omega
  have hid' : props.cursor + 4 ≤ head.length := by omega
  have hsize : props.cursor + 4 + 8 < 2 ^ 64 := by omega
  have hsize' : props.cursor + 4 + 8 ≤ head.length := hle
  have hvalue : beValue (bytesAt head (props.cursor + 4) 8) < 2 ^ 64 := beValue_bytesAt_lt
  simp only [hid, hid', hsize, hsize', true_and, forall_const,
    UInt64.toNat_ofNat_of_lt' hvalue]
  rw [ends_readDffChunk hlen hle]
  refine forall_congr' fun known => imp_congr_right fun hknown => ?_
  rw [addChunk_cursor hknown]
  constructor
  · rintro ⟨-, hchunk, hnext⟩
    exact ⟨hchunk, hnext⟩
  · rintro ⟨hchunk, hnext⟩
    have hadd : 12 + beValue (bytesAt head (props.cursor + 4) 8) < 2 ^ 64 := by
      have hlen : dffChunkLen head props.cursor = 12 + beValue (bytesAt head (props.cursor + 4) 8) +
        beValue (bytesAt head (props.cursor + 4) 8) % 2 := rfl
      omega
    exact ⟨hadd, hchunk, hnext⟩

theorem completes_dffStep (hlen : head.length ≤ 4096) :
    Completes (dffStep head props) ↔ props.cursor + 12 < 2 ^ 64 ∧
      (props.cursor + 12 ≤ head.length → (addChunk head props).isSome →
        dffChunkLen head props.cursor < 2 ^ 64) := by
  rw [Completes, ends_dffStep hlen]
  simp [Option.isSome_iff_exists]

theorem goesOn_dffStep (hlen : head.length ≤ 4096) :
    GoesOn (dffStep head) props props' ↔ ReadsOn head props props' := by
  rw [Checked.goesOn_iff, completes_dffStep hlen, ends_dffStep hlen]
  constructor
  · rintro ⟨⟨hword, hadd⟩, hne⟩
    refine Classical.byContradiction fun hno => hne ⟨hword, fun hle known hknown =>
      ⟨hadd hle (by simp [hknown]), fun hnext => ?_⟩, fun _ => trivial⟩
    exact ⟨fun _ => trivial, fun hboth heq => hno ⟨hle, known, hknown, hboth, heq.symm, hnext⟩⟩
  · rintro ⟨hle, known, hknown, hboth, rfl, hnext⟩
    refine ⟨⟨by omega, fun _ _ => by omega⟩, fun h => ?_⟩
    exact ((h.2.1 hle known hknown).2 hnext).2 hboth rfl

/-- The walk in the `PROP` chunk completes when the chunks that it reads are of lengths
that can be added. -/
theorem completes_dffWalk_iff (hlen : head.length ≤ 4096) :
    Completes (.loop (dffStep head) start) ↔ ∀ props, ReflTransGen (ReadsOn head) start props →
      props.cursor + 12 < 2 ^ 64 ∧
        (props.cursor + 12 ≤ head.length → (addChunk head props).isSome →
          dffChunkLen head props.cursor < 2 ^ 64) := by
  have hgrows {props props' : DffProps} (h : ReadsOn head props props') :
      head.length - props'.cursor < head.length - props.cursor := by
    obtain ⟨hle, known, -, -, rfl, -⟩ := h
    simp only [dffChunkLen, chunkLen]
    omega
  rw [Checked.completes_loop_iff (fun _ _ => goesOn_dffStep hlen)
    (fun props => head.length - props.cursor) (fun _ _ h => .inr (hgrows h))]
  refine forall_congr' fun props => imp_congr_right fun _ => ?_
  rw [completes_dffStep hlen]
  exact and_iff_left fun hself => Nat.lt_irrefl _ (hgrows hself)

/-- What the lengths of the chunks of a DSDIFF file have to be: of those that the search
for `PROP` passes over, and within it of those that are read. -/
def DffFits (head : Bytes) : Prop :=
  (∀ c, ReflTransGen (PassesOver 12 beValue head (ascii "PROP")) 0x10 c → c + 12 < 2 ^ 64 ∧
    (c + 12 ≤ head.length → bytesAt head c 4 ≠ ascii "PROP" → dffChunkLen head c < 2 ^ 64)) ∧
  ∀ c, ReflTransGen (PassesOver 12 beValue head (ascii "PROP")) 0x10 c → c + 12 ≤ head.length →
    bytesAt head c 4 = ascii "PROP" → HasMagic head (c + 12) (ascii "SND ") →
      ∀ props, ReflTransGen (ReadsOn head) ⟨c + 16, none, none⟩ props →
        props.cursor + 12 < 2 ^ 64 ∧ (props.cursor + 12 ≤ head.length →
          (addChunk head props).isSome → dffChunkLen head props.cursor < 2 ^ 64)

theorem completes_parseDff_iff (hlen : head.length ≤ 4096) : Completes (parseDff head) ↔
    (HasMagic head 0 (ascii "FRM8") → HasMagic head 0x0C (ascii "DSD ") → DffFits head) := by
  have hmagic : (ascii "FRM8").length = 4 ∧ (ascii "DSD ").length = 4 ∧ (ascii "SND ").length = 4 := by
    simp [ascii]
  simp only [parseDff, Completes, Checked.ends_bind, ends_checkMagic, Checked.ends_require,
    decide_eq_true_eq, hmagic, ends_plus, Checked.ends_ofOption, Checked.ends_pure, implies_true]
  refine (and_iff_right (by decide)).trans (imp_congr_right fun _ => ?_)
  refine (and_iff_right (by decide)).trans (imp_congr_right fun _ => ?_)
  rw [Checked.ends_iff, findDffSubchunk, completes_findChunk_iff hlen (by decide)
    (readsSize_dff hlen)]
  refine and_congr_right fun _ => forall_congr' fun c => ?_
  rw [returns_findChunk hlen (by decide) (readsSize_dff hlen), and_imp, and_imp]
  refine imp_congr_right fun _ => imp_congr_right fun hle => imp_congr_right fun _ => ?_
  have hword : c + 12 < 2 ^ 64 ∧ c + 12 + 4 < 2 ^ 64 := by omega
  simp only [hword, true_and]
  exact imp_congr_right fun _ => completes_dffWalk_iff hlen

-- ---------------------------------------------------------------------------
-- Objects of an ASF file
-- ---------------------------------------------------------------------------

def objectSize (head : Bytes) (c : Nat) : Nat := leValue (bytesAt head (c + 16) 8)

/-- An object that is not the properties of an audio stream. -/
def IsPassed (head : Bytes) (c : Nat) : Prop :=
  bytesAt head c 16 = asfStreamPropsGuid →
    c + 40 ≤ head.length ∧ bytesAt head (c + 24) 16 ≠ asfStreamTypeAudioGuid

/-- The walker passes over the object at a place to the next one. -/
def PassesObject (head : Bytes) (c c' : Nat) : Prop :=
  c + 24 ≤ head.length ∧ IsPassed head c ∧ c' = c + objectSize head c ∧ c' < 2 ^ 64

theorem completes_readWaveFormat (h : tsData + 12 < 2 ^ 64) :
    Completes (readWaveFormat head tsData) := by
  have hbitrate (avgBytesPerSec : UInt32) : Completes (if avgBytesPerSec > 0 then do
      let bits ← Checked.checkedMul (2 ^ 64) avgBytesPerSec.toNat 8
      return Topology.EncodedBitrate.vbr (UInt32.ofNat (← Checked.checkedDiv bits 1000))
    else pure .unknown) := by
    simp [Completes, Checked.ends_ite]
  simp only [readWaveFormat, Completes, Checked.ends_bind, ends_plus, ends_u16Le, ends_u32Le]
  refine ⟨by omega, by omega, fun _ => ⟨by omega, by omega, fun _ => ⟨by omega, by omega, ?_⟩⟩⟩
  exact fun _ => (hbitrate _).mono fun _ _ => ends_encodedFormat

theorem ends_wmaStep (hlen : head.length ≤ 4096) :
    Ends (wmaStep head c) (Sum.elim Q fun _ => True) ↔ c + 24 < 2 ^ 64 ∧
      (c + 24 ≤ head.length → IsPassed head c → c + objectSize head c < 2 ^ 64 →
        Q (c + objectSize head c)) := by
  have hvalue : leValue (bytesAt head (c + 16) 8) < 2 ^ 64 := leValue_bytesAt_lt
  simp only [wmaStep, Checked.ends_bind, ends_plus, Checked.ends_ite, ends_slice, ends_u64Le,
    Checked.ends_checkedAdd, Checked.ends_pure, Checked.ends_absent, implies_true, and_true,
    Sum.elim_inl, Sum.elim_inr, UInt64.toNat_ofNat_of_lt' hvalue]
  refine and_congr_right fun _ => imp_congr_right fun hle => ?_
  have hguid : c + 16 < 2 ^ 64 := by omega
  have hguid' : c + 16 ≤ head.length := by omega
  have hsize : c + 16 + 8 < 2 ^ 64 := by omega
  have hsize' : c + 16 + 8 ≤ head.length := hle
  simp only [hguid, hguid', hsize, hsize', true_and, forall_const]
  constructor
  · rintro ⟨hprops, hother⟩ hpassed
    by_cases hguid : bytesAt head c 16 = asfStreamPropsGuid
    · obtain ⟨hle, haudio⟩ := hpassed hguid
      exact ((hprops hguid).2 hle).1 haudio
    · exact hother hguid
  · intro hnext
    refine ⟨fun _ => ⟨by omega, fun hle => ⟨fun haudio => hnext fun _ => ⟨hle, haudio⟩, fun _ => ?_⟩⟩,
      fun hguid => hnext fun hprops => absurd hprops hguid⟩
    exact ⟨by omega, completes_readWaveFormat (by omega)⟩

theorem completes_wmaStep (hlen : head.length ≤ 4096) :
    Completes (wmaStep head c) ↔ c + 24 < 2 ^ 64 := by
  have htrue : (fun _ => True) =
      Sum.elim (fun _ : Nat => True) fun _ : Topology.AudioFormat => True := by
    funext next
    cases next <;> rfl
  rw [Completes, htrue, ends_wmaStep hlen]
  simp

theorem goesOn_wmaStep (hlen : head.length ≤ 4096) :
    GoesOn (wmaStep head) c c' ↔ PassesObject head c c' := by
  rw [Checked.goesOn_iff, completes_wmaStep hlen, ends_wmaStep hlen]
  constructor
  · rintro ⟨hword, hne⟩
    refine Classical.byContradiction fun hno => hne ⟨hword, fun hle hpassed hnext heq => ?_⟩
    exact hno ⟨hle, hpassed, heq.symm, by omega⟩
  · rintro ⟨hle, hpassed, rfl, hnext⟩
    exact ⟨by omega, fun h => h.2 hle hpassed hnext rfl⟩

/-- What the objects of an ASF file have to be: none that is passed over is of size
zero, and none begins at the end of the `usize`s. -/
def WmaFits (head : Bytes) : Prop :=
  ∀ c, ReflTransGen (PassesObject head) 30 c → c + 24 < 2 ^ 64 ∧
    (c + 24 ≤ head.length → IsPassed head c → objectSize head c ≠ 0)

theorem completes_wmaWalk_iff (hlen : head.length ≤ 4096) :
    Completes (.loop (wmaStep head) 30) ↔ WmaFits head := by
  rw [Checked.completes_loop_iff (fun _ _ => goesOn_wmaStep hlen) (fun c => head.length - c) ?_]
  · refine forall_congr' fun c => imp_congr_right fun _ => ?_
    rw [completes_wmaStep hlen]
    refine and_congr_right fun _ => ?_
    constructor
    · rintro hself hle hpassed hzero
      exact hself ⟨hle, hpassed, by omega, by omega⟩
    · rintro hzero ⟨hle, hpassed, heq, -⟩
      exact hzero hle hpassed (by omega)
  · rintro c c' ⟨hle, -, rfl, -⟩
    omega

theorem completes_parseWma_iff (hlen : head.length ≤ 4096) : Completes (parseWma head) ↔
    (16 ≤ head.length → bytesAt head 0 16 = asfHeaderGuid → WmaFits head) := by
  simp only [parseWma, Completes, Checked.ends_bind, Checked.ends_getRange, Checked.ends_require,
    Nat.zero_le, true_and, beq_iff_eq]
  exact imp_congr_right fun _ => imp_congr_right fun _ => completes_wmaWalk_iff hlen

-- ---------------------------------------------------------------------------
-- The probe
-- ---------------------------------------------------------------------------

/-- What a head has to be for the probe to come to an end. -/
def Fits (codecHint : String) (head : Bytes) : Prop :=
  (codecHint = "dff" →
    HasMagic head 0 (ascii "FRM8") → HasMagic head 0x0C (ascii "DSD ") → DffFits head) ∧
  (codecHint = "wma" →
    16 ≤ head.length → bytesAt head 0 16 = asfHeaderGuid → WmaFits head)

theorem fits_of_other (hdff : codecHint ≠ "dff") (hwma : codecHint ≠ "wma") :
    Fits codecHint head :=
  ⟨fun h => absurd h hdff, fun h => absurd h hwma⟩

/-- The parsers that hold no chunk and no object to a size of 64 bits. -/
theorem completes_dispatch_of_other (hlen : head.length ≤ 4096) (hdff : codecHint ≠ "dff")
    (hwma : codecHint ≠ "wma") : Completes (dispatch codecHint head) := by
  unfold dispatch
  split
  · exact completes_parseDsf
  · exact absurd rfl hdff
  · exact completes_parseFlac
  · exact completes_parseWav hlen
  · exact completes_parseAiff hlen
  · exact completes_parseM4a hlen
  · exact completes_parseAacOrM4a hlen
  · exact completes_parseApe
  · exact completes_parseWavpack
  · exact completes_parseTta
  · exact completes_parseMp3 hlen
  · exact completes_parseVorbis
  · exact completes_parseOpus
  · exact completes_parseSpeex
  · exact absurd rfl hwma
  · exact completes_parseMusepack hlen
  · exact Checked.ends_absent
  · exact Checked.ends_absent
  · exact Checked.ends_absent

theorem dispatch_completes_iff (hlen : head.length ≤ 4096) :
    Completes (dispatch codecHint head) ↔ Fits codecHint head := by
  by_cases hdff : codecHint = "dff"
  · subst hdff
    have hparse : dispatch "dff" head = parseDff head := rfl
    simpa [Fits, hparse] using completes_parseDff_iff hlen
  · by_cases hwma : codecHint = "wma"
    · subst hwma
      have hparse : dispatch "wma" head = parseWma head := rfl
      simpa [Fits, hparse] using completes_parseWma_iff hlen
    · exact iff_of_true (completes_dispatch_of_other hlen hdff hwma) (fits_of_other hdff hwma)

/-- A bare ASF header has no object that could be passed over. -/
theorem bare_header_completes : Completes (dispatch "wma" asfHeaderGuid) := by
  refine (dispatch_completes_iff (by decide)).mpr ⟨by simp, fun _ _ _ c hreach => ?_⟩
  have hshort : asfHeaderGuid.length = 16 := rfl
  have hstart : c = 30 := by
    rcases hreach.cases_head with rfl | ⟨c', ⟨hle, -⟩, -⟩
    · rfl
    · omega
  exact ⟨by omega, fun hle => by omega⟩

/-- An ASF header whose first object is all zeros, and so of size zero. -/
def zeroSizedObject : Bytes := asfHeaderGuid ++ List.replicate 38 0

/-- A DSDIFF file whose first chunk declares `2 ^ 64 - 1` bytes. -/
def endlessChunk : Bytes :=
  ascii "FRM8" ++ List.replicate 8 0 ++ ascii "DSD FVER" ++ List.replicate 8 0xFF

/-- The walker stays at the object forever, and the length of the chunk overflows. -/
theorem probe_does_not_complete :
    (zeroSizedObject.length ≤ 4096 ∧ ¬Completes (dispatch "wma" zeroSizedObject)) ∧
      endlessChunk.length ≤ 4096 ∧ ¬Completes (dispatch "dff" endlessChunk) := by
  refine ⟨⟨by decide, fun hwma => ?_⟩, by decide +kernel, fun hdff => ?_⟩
  · have hparse : Completes (parseWma zeroSizedObject) := hwma
    have hfits := (completes_parseWma_iff (by decide)).mp hparse (by decide) (by decide)
    exact (hfits 30 .refl).2 (by decide) (fun hguid => absurd hguid (by decide)) (by decide)
  · have hparse : Completes (parseDff endlessChunk) := hdff
    have hfits := (completes_parseDff_iff (by decide +kernel)).mp hparse (by decide +kernel)
      (by decide +kernel)
    have hadd := (hfits.1 0x10 .refl).2 (by decide +kernel) (by decide +kernel)
    exact absurd hadd (by decide +kernel)

end EvoAudio.SourceProbe
