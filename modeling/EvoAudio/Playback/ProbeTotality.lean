import EvoAudio.Playback.SourceProbe

/-!
# Whether the probe comes to an end

The parsers of `source_probe.rs` are to come to an end on any head without an
overflow and with their indices in range. These do, and of the searches for a chunk it
is said when they do.
-/

namespace EvoAudio.SourceProbe

open Checked (Returns Ends Completes GoesOn)
open EvoAudio.Topology (AudioFormat)

variable {head b : Bytes}

-- ---------------------------------------------------------------------------
-- Readers
-- ---------------------------------------------------------------------------

def bytesAt (head : Bytes) (offset n : Nat) : Bytes := (head.drop offset).take n

theorem length_bytesAt (h : offset + n ≤ b.length) : (bytesAt b offset n).length = n := by
  simp only [bytesAt, List.length_take, List.length_drop]
  omega

@[simp] theorem ends_plus : Ends (plus m n) Q ↔ m + n < 2 ^ 64 ∧ Q (m + n) := Checked.ends_add

theorem returns_slice : Returns (slice b offset n) r ↔ offset + n < 2 ^ 64 ∧
    r = if offset + n ≤ b.length then some (bytesAt b offset n) else none := by
  simp [slice, plus, Checked.returns_bind, Checked.returns_add, Checked.returns_getRange, bytesAt,
    and_assoc]

@[simp] theorem ends_slice : Ends (slice b offset n) Q ↔
    offset + n < 2 ^ 64 ∧ (offset + n ≤ b.length → Q (bytesAt b offset n)) := by
  simp [slice, bytesAt]

theorem returns_firstBytes {s : Bytes} (h : n ≤ s.length) :
    Returns (firstBytes s n) r ↔ r = some (s.take n) := by
  induction n generalizing r with
  | zero => simp [firstBytes]
  | succ n ih =>
    have hlast : s[n]? = some s[n] := List.getElem?_eq_getElem h
    rw [firstBytes, Checked.returns_bind]
    simp [ih (Nat.le_of_succ_le h), Checked.returns_bind, Checked.returns_index, hlast]

theorem ends_firstBytes {s : Bytes} (h : n ≤ s.length) :
    Ends (firstBytes s n) Q ↔ Q (s.take n) := by
  simp [Ends, returns_firstBytes h]

theorem length_of_returns_slice {s : Bytes} (h : Returns (slice b offset n) (some s)) :
    s.length = n := by
  obtain ⟨-, hs⟩ := returns_slice.mp h
  split at hs
  next hle =>
    cases hs
    exact length_bytesAt hle
  next => cases hs

/-- A slice of `n` bytes has the `n` bytes that are read of it. -/
theorem returns_arrayAt : Returns (arrayAt b offset n) r ↔ Returns (slice b offset n) r := by
  have hall {s : Bytes} (hs : Returns (slice b offset n) (some s)) :
      Returns (firstBytes s n) r ↔ r = some s := by
    have hlen := length_of_returns_slice hs
    rw [returns_firstBytes (Nat.le_of_eq hlen.symm), List.take_of_length_le (Nat.le_of_eq hlen)]
  rw [arrayAt, Checked.returns_bind]
  constructor
  · rintro (⟨hnone, rfl⟩ | ⟨s, hs, hr⟩)
    · exact hnone
    · rw [(hall hs).mp hr]
      exact hs
  · intro hr
    cases r with
    | none => exact .inl ⟨hr, rfl⟩
    | some s => exact .inr ⟨s, hr, (hall hr).mpr rfl⟩

@[simp] theorem ends_arrayAt : Ends (arrayAt b offset n) Q ↔
    offset + n < 2 ^ 64 ∧ (offset + n ≤ b.length → Q (bytesAt b offset n)) :=
  (Checked.ends_congr fun _ => returns_arrayAt).trans ends_slice

@[simp] theorem ends_u32Le : Ends (u32Le b offset) Q ↔ offset + 4 < 2 ^ 64 ∧
    (offset + 4 ≤ b.length → Q (UInt32.ofNat (leValue (bytesAt b offset 4)))) := by
  simp [u32Le]

@[simp] theorem ends_u32Be : Ends (u32Be b offset) Q ↔ offset + 4 < 2 ^ 64 ∧
    (offset + 4 ≤ b.length → Q (UInt32.ofNat (beValue (bytesAt b offset 4)))) := by
  simp [u32Be]

@[simp] theorem ends_u64Le : Ends (u64Le b offset) Q ↔ offset + 8 < 2 ^ 64 ∧
    (offset + 8 ≤ b.length → Q (UInt64.ofNat (leValue (bytesAt b offset 8)))) := by
  simp [u64Le]

@[simp] theorem ends_u64BeAt : Ends (u64BeAt b offset) Q ↔ offset + 8 < 2 ^ 64 ∧
    (offset + 8 ≤ b.length → Q (UInt64.ofNat (beValue (bytesAt b offset 8)))) := by
  simp [u64BeAt]

@[simp] theorem ends_u16Le : Ends (u16Le b offset) Q ↔ offset + 2 < 2 ^ 64 ∧
    (offset + 2 ≤ b.length → Q (UInt16.ofNat (leValue (bytesAt b offset 2)))) := by
  simp [u16Le]

@[simp] theorem ends_u16Be : Ends (u16Be b offset) Q ↔ offset + 2 < 2 ^ 64 ∧
    (offset + 2 ≤ b.length → Q (UInt16.ofNat (beValue (bytesAt b offset 2)))) := by
  simp [u16Be]

/-- A magic is there when the head goes so far and has these bytes. -/
def HasMagic (head : Bytes) (offset : Nat) (magic : Bytes) : Prop :=
  offset + magic.length ≤ head.length ∧ bytesAt head offset magic.length = magic

instance : Decidable (HasMagic head offset magic) :=
  inferInstanceAs (Decidable (offset + magic.length ≤ head.length ∧ _ = magic))

@[simp] theorem ends_checkMagic {magic : Bytes} : Ends (checkMagic head offset magic) Q ↔
    offset + magic.length < 2 ^ 64 ∧ Q (decide (HasMagic head offset magic)) := by
  rw [checkMagic, Checked.ends_bind, Checked.ends_option]
  simp only [returns_slice, Checked.ends_pure, and_assoc, exists_and_left, exists_eq_left]
  refine and_congr_right fun _ => ?_
  have hbool : ((if offset + magic.length ≤ head.length then
      some (bytesAt head offset magic.length) else none) == some magic) =
      decide (HasMagic head offset magic) := by
    rw [Bool.eq_iff_iff]
    by_cases hle : offset + magic.length ≤ head.length <;> simp [HasMagic, hle]
  rw [hbool]

-- ---------------------------------------------------------------------------
-- Headers at fixed places
-- ---------------------------------------------------------------------------

@[simp] theorem ends_pcmFormat : Ends (pcmFormat bits rateHz channels) fun _ => True := by
  simp [pcmFormat]

@[simp] theorem ends_encodedFormat :
    Ends (encodedFormat codec rateHz channels bitrate) fun _ => True := by
  simp [encodedFormat]

theorem completes_parseDsf : Completes (parseDsf head) := by
  simp [parseDsf, Completes, ascii]

theorem completes_parseFlac : Completes (parseFlac head) := by
  simp [parseFlac, Completes, ascii]

theorem completes_parseApe : Completes (parseApe head) := by
  have hsize := Nat.mod_lt (leValue (bytesAt head 8 4)) (y := 4294967296) (by decide)
  simp [parseApe, Completes, ascii]
  omega

theorem completes_parseWavpack : Completes (parseWavpack head) := by
  simp [parseWavpack, Completes, ascii]

theorem completes_parseTta : Completes (parseTta head) := by
  simp [parseTta, Completes, ascii]

theorem completes_parseMusepackSv7 : Completes (parseMusepackSv7 head) := by
  have hindex (word : UInt32) : ((word >>> 16) &&& 0x3).toNat < sv7Sr.length := by
    rw [UInt32.toNat_and]
    exact Nat.lt_of_le_of_lt Nat.and_le_right (by decide)
  simp only [parseMusepackSv7, Completes, Checked.ends_bind, ends_u32Le, Checked.ends_index]
  simp only [hindex]
  simp

theorem completes_ieee754ExtendedToU32 {bytes : Bytes} (h : bytes.length = 10) :
    Completes (ieee754ExtendedToU32 bytes) := by
  have hrest : 8 ≤ (bytes.drop 2).length := by simp [h]
  simp only [ieee754ExtendedToU32, Completes, Checked.ends_bind, ends_firstBytes hrest]
  simp [h]

-- ---------------------------------------------------------------------------
-- Loops over few bytes
-- ---------------------------------------------------------------------------

/-- A number of septets ends within its limit, with what each byte keeps of the value. -/
theorem ends_septets {push : ν → UInt8 → ν} {J : ν × Nat → Prop} (limit : Nat)
    (hpush : ∀ value n byte, J (value, n) → J (push value (byte &&& 0x7F), n + 1))
    (hvalue : J (value, 0)) (h : offset + limit < 2 ^ 64) :
    Ends (.loop (septetsStep limit push b offset) (value, 0)) fun r => J r ∧ r.2 ≤ limit := by
  refine Ends.loop (I := fun s => J s ∧ s.2 ≤ limit) (fun s => limit - s.2) ?_
    ⟨hvalue, Nat.zero_le limit⟩
  rintro ⟨value, consumed⟩ ⟨hJ, -⟩
  simp only [septetsStep, Checked.ends_ite]
  refine ⟨fun hlt => ?_, fun _ => Checked.ends_absent⟩
  simp only [Checked.ends_bind, ends_plus, Checked.ends_ofOption, Checked.ends_ite,
    Checked.ends_pure, Sum.elim_inl, Sum.elim_inr]
  refine ⟨by omega, fun byte _ => ⟨by omega, fun _ => ?_, fun _ => ?_⟩⟩
  · exact ⟨hpush value consumed byte hJ, by omega⟩
  · exact ⟨⟨hpush value consumed byte hJ, by omega⟩, by omega⟩

theorem ends_mpegDescriptorLength (h : offset + 4 < 2 ^ 64) :
    Ends (mpegDescriptorLength b offset) fun r => r.2 ≤ 4 :=
  (ends_septets (J := fun _ => True) 4 (fun _ _ _ _ => trivial) trivial h).mono fun _ hr => hr.2

/-- A byte puts seven bits to a number. -/
theorem push_septet_lt {value : UInt64} {byte : UInt8} (h : value.toNat < 2 ^ (7 * n)) :
    ((value <<< 7) ||| (byte &&& 0x7F).toUInt64).toNat < 2 ^ (7 * (n + 1)) := by
  have hpow : 2 ^ (7 * (n + 1)) = 2 ^ (7 * n) * 128 := by rw [Nat.mul_succ, Nat.pow_add]
  have hpos : 0 < 2 ^ (7 * n) := Nat.pow_pos (by decide)
  rw [UInt64.toNat_or]
  refine Nat.or_lt_two_pow ?_ ?_
  · have hshift : (value <<< 7).toNat ≤ value.toNat * 128 := by
      rw [UInt64.toNat_shiftLeft, Nat.shiftLeft_eq]
      exact Nat.mod_le _ _
    omega
  · have hbyte : (byte &&& 0x7F).toUInt64.toNat ≤ 127 := by
      rw [UInt8.toNat_toUInt64, UInt8.toNat_and]
      exact Nat.and_le_right
    omega

/-- Nine septets are a number of 63 bits. -/
theorem ends_mpcVarint (h : offset + 9 < 2 ^ 64) :
    Ends (mpcVarint b offset) fun r => r.1.toNat < 2 ^ 63 ∧ r.2 ≤ 9 := by
  refine (ends_septets (J := fun r => r.1.toNat < 2 ^ (7 * r.2)) 9
    (fun _ _ _ => push_septet_lt) (by simp) h).mono fun r hr => ⟨?_, hr.2⟩
  exact Nat.lt_of_lt_of_le hr.1 (Nat.pow_le_pow_right (by decide) (by omega))

theorem ends_packetLen {segTable : Bytes} (h : len + 255 * segTable.length < 2 ^ 64) :
    Ends (packetLen segTable len) fun r => r ≤ len + 255 * segTable.length := by
  induction segTable generalizing len with
  | nil => simp [packetLen]
  | cons b segTable ih =>
    have hb := b.toNat_lt
    rw [List.length_cons] at h
    simp only [packetLen, Checked.ends_bind, ends_plus, Checked.ends_ite, Checked.ends_pure,
      List.length_cons]
    refine ⟨by omega, fun _ => by omega, fun _ => ?_⟩
    exact (ih (by omega)).mono fun r hr => by omega

theorem completes_oggFirstPacket : Completes (oggFirstPacket head) := by
  simp only [oggFirstPacket, Completes, Checked.ends_bind, ends_checkMagic, Checked.ends_require,
    Checked.ends_ofOption, ends_slice]
  refine ⟨by simp [ascii], fun _ segCount hsegCount => ?_⟩
  have hcount := segCount.toNat_lt
  refine ⟨by omega, fun hle => ?_⟩
  have hlen := length_bytesAt hle
  refine (ends_packetLen (by omega)).mono fun packetLen hpacket => ?_
  simp
  omega

theorem completes_parseVorbis : Completes (parseVorbis head) := by
  refine Checked.ends_bind.mpr (completes_oggFirstPacket.mono fun packet _ => ?_)
  simp [ascii]

theorem completes_parseOpus : Completes (parseOpus head) := by
  refine Checked.ends_bind.mpr (completes_oggFirstPacket.mono fun packet _ => ?_)
  simp [ascii]

theorem completes_parseSpeex : Completes (parseSpeex head) := by
  refine Checked.ends_bind.mpr (completes_oggFirstPacket.mono fun packet _ => ?_)
  simp [ascii]

-- ---------------------------------------------------------------------------
-- Atoms
-- ---------------------------------------------------------------------------

theorem ends_atomAt (h : cursor + 8 < 2 ^ 64) :
    Ends (atomAt head cursor) fun r => r.1 < 2 ^ 32 := by
  simp only [atomAt, Checked.ends_bind, ends_u32Be, ends_plus, Checked.ends_getRange]
  refine ⟨by omega, fun _ => ⟨by omega, h, fun hle => ?_⟩⟩
  rw [ends_firstBytes (by simp; omega)]
  exact Checked.ends_pure.mpr (UInt32.toNat_lt _)

theorem ends_stepIntoAtom (h : cursor + 8 < 2 ^ 64) :
    Ends (stepIntoAtom head cursor expected) fun r => r < cursor + 2 ^ 32 := by
  refine Checked.ends_bind.mpr ((ends_atomAt h).mono ?_)
  rintro ⟨size, ty⟩ hsize
  simp only [Checked.ends_bind, Checked.ends_require, Checked.ends_checkedAdd]
  omega

/-- A search for an atom finds one with its header in the head. -/
theorem ends_findAtomWithin {id : Bytes} (hlen : head.length ≤ 4096) (hstart : start < 2 ^ 33) :
    Ends (findAtomWithin head start id) fun c => c + 8 ≤ head.length := by
  refine Ends.loop (I := fun c => c < 2 ^ 33) (fun c => head.length - c) ?_ hstart
  intro cursor hcursor
  simp only [findAtomStep, Checked.ends_bind, ends_plus, Checked.ends_ite]
  refine ⟨by omega, fun hle => ?_, fun _ => Checked.ends_absent⟩
  refine (ends_atomAt (by omega)).mono ?_
  rintro ⟨size, ty⟩ hsize
  simp only [Checked.ends_require, Checked.ends_pure, Checked.ends_checkedAdd, Sum.elim_inl,
    Sum.elim_inr]
  intro hsmall
  have hsmall : 8 ≤ size := by simpa using hsmall
  exact ⟨fun _ => hle, fun _ _ => by omega⟩

theorem ends_walkToStsdEntry (hlen : head.length ≤ 4096) :
    Ends (walkToStsdEntry head) fun r => r.2.length ≤ 4096 := by
  have hftyp : Ends (stepIntoAtom head 0 (ascii "ftyp")).option fun r => r.getD 0 < 2 ^ 33 :=
    (ends_stepIntoAtom (by omega)).option (by simp) fun _ _ => by simp; omega
  simp only [walkToStsdEntry, Checked.ends_bind, ends_plus]
  refine hftyp.mono fun cursor hcursor => ?_
  refine (ends_findAtomWithin hlen hcursor).mono fun moovOff hmoov => ⟨by omega, ?_⟩
  refine (ends_findAtomWithin hlen (by omega)).mono fun trakOff htrak => ⟨by omega, ?_⟩
  refine (ends_findAtomWithin hlen (by omega)).mono fun mdiaOff hmdia => ⟨by omega, ?_⟩
  refine (ends_findAtomWithin hlen (by omega)).mono fun minfOff hminf => ⟨by omega, ?_⟩
  refine (ends_findAtomWithin hlen (by omega)).mono fun stblOff hstbl => ⟨by omega, ?_⟩
  refine (ends_findAtomWithin hlen (by omega)).mono fun stsdOff hstsd => ?_
  refine ⟨by omega, by omega, by omega, Checked.ends_require.mpr fun hentry => ?_⟩
  refine (ends_atomAt (by omega)).mono ?_
  rintro ⟨size, entryType⟩ -
  simp only [Checked.ends_getRange, Checked.ends_pure]
  refine ⟨by omega, fun _ => ?_⟩
  simp
  omega

theorem ends_afterEsFields (h : q < 2 ^ 32) :
    Ends (afterEsFields b flags q) fun r => r < 2 ^ 33 := by
  have hfield {c : Prop} [Decidable c] {q : Nat} (hq : q + 2 < 2 ^ 64) :
      Ends (if c then plus q 2 else pure q) fun r => r ≤ q + 2 := by
    simp only [Checked.ends_ite, ends_plus, Checked.ends_pure]
    omega
  refine Checked.ends_bind.mpr ((hfield (by omega)).mono fun q₁ hq₁ => Checked.ends_bind.mpr ?_)
  have hurl : Ends (if flags &&& 0x40 ≠ 0 then do
      let urlLen ← Checked.ofOption b[q₁]?
      plus q₁ (← plus 1 urlLen.toNat)
    else pure q₁) fun r => r ≤ q₁ + 2 ^ 9 := by
    simp only [Checked.ends_ite, Checked.ends_bind, Checked.ends_ofOption, ends_plus,
      Checked.ends_pure]
    refine ⟨fun _ urlLen _ => ?_, fun _ => by omega⟩
    have hlen := urlLen.toNat_lt
    omega
  exact hurl.mono fun q₂ hq₂ => (hfield (by omega)).mono fun r hr => by omega

theorem completes_m4aAacAvgBitrate (hlen : b.length ≤ 4096) :
    Completes (m4aAacAvgBitrate b) := by
  simp only [m4aAacAvgBitrate, Completes, Checked.ends_bind, ends_plus, Checked.ends_ofOption,
    Checked.ends_require]
  refine (ends_findAtomWithin hlen (by omega)).mono fun esdsOff hesds => ?_
  refine ⟨by omega, by omega, fun _ _ _ => ⟨by omega, ?_⟩⟩
  refine (ends_mpegDescriptorLength (by omega)).mono ?_
  rintro ⟨esDescLen, consumed⟩ hconsumed
  dsimp only
  refine ⟨by omega, by omega, by omega, fun flags _ => ⟨by omega, ?_⟩⟩
  refine (ends_afterEsFields (by omega)).mono fun q hq => fun _ _ _ => ⟨by omega, ?_⟩
  refine (ends_mpegDescriptorLength (by omega)).mono ?_
  rintro ⟨dcdLen, consumed'⟩ hconsumed'
  simp only [ends_u32Be, implies_true, and_true]
  omega

theorem completes_parseM4a (hlen : head.length ≤ 4096) : Completes (parseM4a head) := by
  refine Checked.ends_bind.mpr ((ends_walkToStsdEntry hlen).mono ?_)
  rintro ⟨entryAtomName, entryBody⟩ hbody
  have hbitrate := completes_m4aAacAvgBitrate hbody
  simp only [m4aEntrySampleRate, m4aEntryChannels, m4aEntrySamplesize, Checked.ends_bind,
    ends_u32Be, ends_u16Be, Checked.ends_pure, Checked.ends_ite]
  refine ⟨by omega, fun _ => ⟨by omega, fun _ => ⟨by omega, fun _ => ⟨fun _ => ends_pcmFormat,
    fun _ => ⟨fun _ => ?_, fun _ => Checked.ends_absent⟩⟩⟩⟩⟩
  exact hbitrate.option ends_encodedFormat fun _ _ => ends_encodedFormat

theorem completes_beginsWithAdts : Completes (beginsWithAdts head) := by
  simp only [beginsWithAdts, Completes, Checked.ends_ite, Checked.ends_bind, Checked.ends_index,
    Checked.ends_pure]
  exact ⟨fun hlen => ⟨by omega, fun _ => ⟨by omega, trivial⟩, fun _ => trivial⟩, fun _ => trivial⟩

theorem completes_adtsBitrate : Completes (adtsBitrate frameLength rateHz) := by
  simp [adtsBitrate, Completes, Checked.ends_ite]

theorem completes_parseAacAdts : Completes (parseAacAdts head) := by
  simp only [parseAacAdts, Completes, Checked.ends_bind, Checked.ends_getRange]
  intro h
  have hlen : ((head.drop 0).take (6 - 0)).length = 6 := by simp; omega
  simp only [Checked.ends_index, Checked.ends_ofOption, Checked.ends_require]
  refine ⟨by omega, by omega, fun _ _ _ => ⟨by omega, by omega, ?_⟩⟩
  exact completes_adtsBitrate.mono fun _ _ => ends_encodedFormat

theorem completes_parseAacOrM4a (hlen : head.length ≤ 4096) :
    Completes (parseAacOrM4a head) := by
  refine Checked.ends_bind.mpr (completes_beginsWithAdts.mono fun adts _ => ?_)
  exact Checked.ends_ite.mpr ⟨fun _ => completes_parseAacAdts, fun _ => completes_parseM4a hlen⟩

-- ---------------------------------------------------------------------------
-- MP3
-- ---------------------------------------------------------------------------

theorem completes_mp3Skip : Completes (mp3Skip head) := by
  simp only [mp3Skip, Completes, Checked.ends_ite, Checked.ends_bind, Checked.ends_range,
    Checked.ends_getRange, Checked.ends_index, ends_plus, Checked.ends_pure]
  refine ⟨fun hlen => ⟨by omega, fun _ _ => ?_, fun _ => trivial⟩, fun _ => trivial⟩
  have hfour : ((head.drop 6).take (10 - 6)).length = 4 := by simp; omega
  refine ⟨by omega, by omega, by omega, by omega, ?_, trivial⟩
  exact Nat.lt_trans (Nat.add_lt_add_left (UInt32.toNat_lt _) 10) (by decide)

theorem completes_xingBitrate :
    Completes (xingBitrate mpeg1 isInfo firstFrameKbps totalFrames totalBytes) := by
  unfold xingBitrate
  split
  next frames bytes =>
    simp [Completes, Checked.ends_ite]
  next => simp [Completes]

theorem ends_xingFrames (h : cursor + 4 < 2 ^ 64) :
    Ends (xingFrames head flags cursor) fun r => r.2 ≤ cursor + 4 := by
  simp only [xingFrames, Checked.ends_ite, Checked.ends_bind, ends_u32Be, ends_plus,
    Checked.ends_pure]
  omega

theorem completes_xingBytes (h : cursor + 4 < 2 ^ 64) :
    Completes (xingBytes head flags cursor) := by
  simp only [xingBytes, Completes, Checked.ends_ite, Checked.ends_bind, ends_u32Be,
    Checked.ends_pure, implies_true, and_true]
  exact fun _ => h

theorem completes_firstFrameBitrate : Completes (firstFrameBitrate firstFrameKbps) := by
  simp [firstFrameBitrate, Completes]

theorem completes_mp3Bitrate (h : frameOffset < 2 ^ 32) :
    Completes (mp3Bitrate head frameOffset versionBits modeBits firstFrameKbps) := by
  have hxing : (if (versionBits == 0b11) && (modeBits != 0b11) then 36
      else if (versionBits == 0b11) || (modeBits != 0b11) then 21 else 13) ≤ 36 := by
    split
    next => exact Nat.le_refl 36
    next => split <;> decide
  simp only [mp3Bitrate, Completes, Checked.ends_bind, Checked.ends_checkedAdd, Checked.ends_ite,
    ends_u32Be, ends_plus]
  generalize (if (versionBits == 0b11) && (modeBits != 0b11) then 36
      else if (versionBits == 0b11) || (modeBits != 0b11) then 21 else 13) = xingOffset at hxing
  intro _ _
  refine Checked.ends_option.mpr ⟨_, returns_slice.mpr ⟨by omega, rfl⟩, ?_⟩
  refine ⟨fun _ => ⟨by omega, by omega, fun _ => ⟨by omega, ?_⟩⟩,
    fun _ => completes_firstFrameBitrate⟩
  refine (ends_xingFrames (by omega)).mono ?_
  rintro ⟨totalFrames, cursor⟩ hcursor
  dsimp only at hcursor ⊢
  refine (completes_xingBytes (by omega)).mono fun totalBytes _ => ?_
  refine completes_xingBitrate.mono fun bitrate _ => ?_
  cases bitrate with
  | some bitrate => exact Checked.ends_pure.mpr trivial
  | none => exact completes_firstFrameBitrate

theorem length_mp3Rates (h : mp3Rates versionBits = some rates) : rates.length = 3 := by
  unfold mp3Rates at h
  split at h
  · cases h; rfl
  · split at h
    · cases h; rfl
    · split at h
      · cases h; rfl
      · cases h

/-- The two bits of a sample-rate index that are not both set. -/
theorem srIndex_lt {b : UInt8} (h : ¬(b >>> 2) &&& 0x3 = 3) : ((b >>> 2) &&& 0x3).toNat < 3 := by
  have hle : ((b >>> 2) &&& 0x3).toNat ≤ 3 := by
    rw [UInt8.toNat_and]
    exact Nat.and_le_right
  have hne : ((b >>> 2) &&& 0x3).toNat ≠ 3 := fun heq => h (UInt8.toNat_inj.mp heq)
  omega

theorem completes_mp3FrameAt (hlen : head.length ≤ 4096) (h : i + 3 < head.length) :
    Completes (mp3FrameAt head i) := by
  simp only [mp3FrameAt, Completes, Checked.ends_bind, Checked.ends_ite, Checked.ends_index,
    ends_plus, Checked.ends_pure]
  refine ⟨by omega, fun _ => trivial, fun _ => ⟨by omega, by omega, fun _ => trivial, fun _ =>
    ⟨fun _ => trivial, fun _ => ⟨by omega, by omega, fun _ => trivial, fun hsr => ?_⟩⟩⟩⟩
  split
  next => exact Checked.ends_pure.mpr trivial
  next rates hrates =>
    simp only [Checked.ends_bind, Checked.ends_index, ends_plus, Checked.ends_pure]
    refine ⟨by rw [length_mp3Rates hrates]; exact srIndex_lt hsr, by omega, by omega, ?_⟩
    exact (completes_mp3Bitrate (by omega)).option ends_encodedFormat fun _ _ => ends_encodedFormat

theorem completes_parseMp3 (hlen : head.length ≤ 4096) : Completes (parseMp3 head) := by
  refine Checked.ends_bind.mpr (completes_mp3Skip.mono fun skip _ => ?_)
  refine Ends.loop (I := fun _ => True) (fun i => head.length - i) ?_ trivial
  intro i _
  refine Checked.ends_ite.mpr ⟨fun hi => ?_, fun _ => Checked.ends_absent⟩
  refine Checked.ends_bind.mpr ((completes_mp3FrameAt hlen (by omega)).mono fun frame _ => ?_)
  cases frame with
  | some format => exact Checked.ends_pure.mpr trivial
  | none => exact Checked.ends_pure.mpr ⟨trivial, by omega⟩

-- ---------------------------------------------------------------------------
-- Musepack
-- ---------------------------------------------------------------------------

theorem completes_readStreamHeader (h : body < 2 ^ 32) : Completes (readStreamHeader head body) := by
  refine Checked.ends_bind.mpr ((ends_mpcVarint (by omega)).mono ?_)
  rintro ⟨sampleCount, scLen⟩ ⟨-, hsc⟩
  dsimp only at hsc ⊢
  refine Checked.ends_bind.mpr (ends_plus.mpr ⟨by omega, ?_⟩)
  refine Checked.ends_bind.mpr ((ends_mpcVarint (by omega)).mono ?_)
  rintro ⟨silence, silLen⟩ ⟨-, hsil⟩
  simp only [Checked.ends_bind, ends_plus, Checked.ends_ofOption, Checked.ends_require]
  refine ⟨by omega, by omega, fun _ _ => ⟨by omega, by omega, by omega, fun _ _ _ _ _ => ?_⟩⟩
  exact ends_encodedFormat

/-- The walker of SV8 packets goes on by two bytes at least, and by fewer than `2 ^ 64`
as a size has 63 bits. -/
theorem completes_parseMusepackSv8 (hlen : head.length ≤ 4096) :
    Completes (parseMusepackSv8 head) := by
  refine Ends.loop (I := fun cursor => cursor < 2 ^ 63 + 2 ^ 13) (fun cursor => head.length - cursor)
    ?_ (by decide)
  intro cursor hcursor
  simp only [sv8Step, Checked.ends_bind, ends_plus, Checked.ends_ite, ends_slice,
    Checked.ends_checkedAdd, Checked.ends_pure, Sum.elim_inl, Sum.elim_inr]
  refine ⟨by omega, fun hle => ⟨by omega, fun _ => ⟨by omega, ?_⟩⟩, fun _ => Checked.ends_absent⟩
  refine (ends_mpcVarint (by omega)).mono ?_
  rintro ⟨size, sizeLen⟩ ⟨hsize, hsizeLen⟩
  dsimp only at hsize hsizeLen ⊢
  refine ⟨fun _ => ⟨by omega, by omega, by omega, by omega, ?_⟩, fun _ _ _ _ => by omega⟩
  exact completes_readStreamHeader (by omega)

theorem completes_parseMusepack (hlen : head.length ≤ 4096) : Completes (parseMusepack head) := by
  simp only [parseMusepack, Completes, Checked.ends_bind, ends_checkMagic, Checked.ends_ite]
  refine ⟨by simp [ascii], fun _ => completes_parseMusepackSv8 hlen, fun _ => ?_⟩
  exact ⟨by simp [ascii], fun _ => completes_parseMusepackSv7, fun _ => Checked.ends_absent⟩

-- ---------------------------------------------------------------------------
-- Chunks
-- ---------------------------------------------------------------------------

theorem leValue_lt (bytes : Bytes) : leValue bytes < 256 ^ bytes.length := by
  induction bytes with
  | nil => simp [leValue]
  | cons b bytes ih =>
    have hb := b.toNat_lt
    have hcons : leValue (b :: bytes) = b.toNat + 256 * leValue bytes := rfl
    rw [hcons, List.length_cons, Nat.pow_succ]
    omega

theorem leValue_bytesAt_lt : leValue (bytesAt b offset n) < 256 ^ n :=
  Nat.lt_of_lt_of_le (leValue_lt _) (Nat.pow_le_pow_right (by decide) (List.length_take_le n _))

theorem beValue_bytesAt_lt : beValue (bytesAt b offset n) < 256 ^ n := by
  refine Nat.lt_of_lt_of_le (leValue_lt _) (Nat.pow_le_pow_right (by decide) ?_)
  rw [List.length_reverse]
  exact List.length_take_le n _

/-- The length of the chunk at a place, with its header and its padding, where it has a
size of so many bytes. -/
def chunkLen (headerLen : Nat) (sizeOf : Bytes → Nat) (head : Bytes) (c : Nat) : Nat :=
  let size := sizeOf (bytesAt head (c + 4) (headerLen - 4))
  headerLen + size + size % 2

/-- A chunk search passes over the chunk at a place to the next one. -/
def PassesOver (headerLen : Nat) (sizeOf : Bytes → Nat) (head id : Bytes) (c c' : Nat) : Prop :=
  c + headerLen ≤ head.length ∧ bytesAt head c 4 ≠ id ∧
    c' = c + chunkLen headerLen sizeOf head c ∧ c' < 2 ^ 64

/-- A reader of the size in a chunk header. -/
def ReadsSize (headerLen : Nat) (sizeAt : Bytes → Nat → Checked Nat) (sizeOf : Bytes → Nat)
    (head : Bytes) : Prop :=
  ∀ c Q, c + headerLen ≤ head.length →
    (Ends (sizeAt head (c + 4)) Q ↔ Q (sizeOf (bytesAt head (c + 4) (headerLen - 4))))

section

variable {headerLen start : Nat} {sizeAt : Bytes → Nat → Checked Nat} {sizeOf : Bytes → Nat}
  {id : Bytes}

theorem ends_findChunkStep (hheader : 8 ≤ headerLen)
    (hsize : ReadsSize headerLen sizeAt sizeOf head) :
    Ends (findChunkStep headerLen sizeAt head id c) Q ↔ c + headerLen < 2 ^ 64 ∧
      (c + headerLen ≤ head.length → (bytesAt head c 4 = id → Q (.inr c)) ∧
        (bytesAt head c 4 ≠ id → chunkLen headerLen sizeOf head c < 2 ^ 64 ∧
          (c + chunkLen headerLen sizeOf head c < 2 ^ 64 →
            Q (.inl (c + chunkLen headerLen sizeOf head c))))) := by
  simp only [findChunkStep, chunkAdvance, Checked.ends_bind, ends_plus, Checked.ends_ite, ends_slice,
    Checked.ends_checkedAdd, Checked.ends_pure, Checked.ends_absent, implies_true, and_true]
  refine and_congr_right fun _ => imp_congr_right fun hle => ?_
  have hid : c + 4 ≤ head.length := by omega
  have hword : c + 4 < 2 ^ 64 := by omega
  rw [hsize c _ hle]
  simp only [hid, hword, true_and, forall_const]
  refine and_congr_right fun _ => imp_congr_right fun _ => ?_
  exact ⟨fun h => h.2, fun h => ⟨by simp only [chunkLen] at h; omega, h⟩⟩

theorem completes_findChunkStep (hheader : 8 ≤ headerLen)
    (hsize : ReadsSize headerLen sizeAt sizeOf head) :
    Completes (findChunkStep headerLen sizeAt head id c) ↔ c + headerLen < 2 ^ 64 ∧
      (c + headerLen ≤ head.length → bytesAt head c 4 ≠ id →
        chunkLen headerLen sizeOf head c < 2 ^ 64) := by
  rw [Completes, ends_findChunkStep hheader hsize]
  simp

theorem goesOn_findChunkStep (hlen : head.length ≤ 4096) (hheader : 8 ≤ headerLen)
    (hsize : ReadsSize headerLen sizeAt sizeOf head) :
    GoesOn (findChunkStep headerLen sizeAt head id) c c' ↔
      PassesOver headerLen sizeOf head id c c' := by
  rw [Checked.goesOn_iff, completes_findChunkStep hheader hsize, ends_findChunkStep hheader hsize]
  unfold PassesOver
  by_cases hle : c + headerLen ≤ head.length
  · by_cases hid : bytesAt head c 4 = id
    · simp [hle, hid]
    · simp [hle, hid]
      omega
  · simp [hle]

theorem returns_findChunkStep (hlen : head.length ≤ 4096) (hheader : 8 ≤ headerLen)
    (hsize : ReadsSize headerLen sizeAt sizeOf head) :
    Returns (findChunkStep headerLen sizeAt head id c) (some (.inr a)) ↔
      c + headerLen ≤ head.length ∧ bytesAt head c 4 = id ∧ a = c := by
  rw [Checked.returns_some_iff, completes_findChunkStep hheader hsize,
    ends_findChunkStep hheader hsize]
  by_cases hle : c + headerLen ≤ head.length
  · by_cases hid : bytesAt head c 4 = id
    · simp [hle, hid]
      omega
    · simp [hle, hid]
  · simp [hle]

/-- A search completes when the chunks that it passes over are of lengths that can be
added. -/
theorem completes_findChunk_iff (hlen : head.length ≤ 4096) (hheader : 8 ≤ headerLen)
    (hsize : ReadsSize headerLen sizeAt sizeOf head) :
    Completes (findChunk headerLen sizeAt head start id) ↔
      ∀ c, Relation.ReflTransGen (PassesOver headerLen sizeOf head id) start c →
        c + headerLen < 2 ^ 64 ∧ (c + headerLen ≤ head.length → bytesAt head c 4 ≠ id →
          chunkLen headerLen sizeOf head c < 2 ^ 64) := by
  have hgrows {c c' : Nat} (h : PassesOver headerLen sizeOf head id c c') :
      head.length - c' < head.length - c := by
    obtain ⟨hle, -, rfl, -⟩ := h
    simp only [chunkLen]
    omega
  rw [findChunk, Checked.completes_loop_iff (fun _ _ => goesOn_findChunkStep hlen hheader hsize)
    (fun c => head.length - c) (fun _ _ h => .inr (hgrows h))]
  refine forall_congr' fun c => imp_congr_right fun _ => ?_
  rw [completes_findChunkStep hheader hsize]
  exact and_iff_left fun hself => Nat.lt_irrefl _ (hgrows hself)

/-- A search finds the first chunk with the id that it comes to. -/
theorem returns_findChunk (hlen : head.length ≤ 4096) (hheader : 8 ≤ headerLen)
    (hsize : ReadsSize headerLen sizeAt sizeOf head) :
    Returns (findChunk headerLen sizeAt head start id) (some c) ↔
      Relation.ReflTransGen (PassesOver headerLen sizeOf head id) start c ∧
        c + headerLen ≤ head.length ∧ bytesAt head c 4 = id := by
  rw [findChunk, Checked.returns_loop_some fun _ _ => goesOn_findChunkStep hlen hheader hsize]
  simp only [returns_findChunkStep hlen hheader hsize]
  constructor
  · rintro ⟨t, hreach, hle, hid, rfl⟩
    exact ⟨hreach, hle, hid⟩
  · rintro ⟨hreach, hle, hid⟩
    exact ⟨c, hreach, hle, hid, rfl⟩

/-- Sizes of 32 bits do not take a search near the end of the `usize`s. -/
theorem ends_findChunk_of_small (hlen : head.length ≤ 4096) (hheader : headerLen = 8)
    (hsize : ReadsSize headerLen sizeAt sizeOf head) (hstart : start ≤ 4096)
    (hsmall : ∀ c, sizeOf (bytesAt head (c + 4) (headerLen - 4)) < 2 ^ 32) :
    Ends (findChunk headerLen sizeAt head start id) fun c => c + 8 ≤ head.length := by
  subst hheader
  have hchunk (c : Nat) : chunkLen 8 sizeOf head c < 2 ^ 33 := by
    have h := hsmall c
    simp only [chunkLen]
    omega
  refine Checked.ends_iff.mpr ⟨(completes_findChunk_iff hlen (by omega) hsize).mpr ?_, ?_⟩
  · intro c hreach
    refine ⟨?_, fun _ _ => Nat.lt_trans (hchunk c) (by decide)⟩
    rcases hreach.cases_tail with rfl | ⟨b, -, hle, -, rfl, -⟩
    · omega
    · have hb := hchunk b
      omega
  · intro c hc
    exact ((returns_findChunk hlen (by omega) hsize).mp hc).2.1

end

theorem readsSize_riff (hlen : head.length ≤ 4096) :
    ReadsSize 8 (fun head offset => return (← u32Le head offset).toNat) leValue head := by
  intro c Q hle
  have hvalue : leValue (bytesAt head (c + 4) 4) < 2 ^ 32 := leValue_bytesAt_lt
  have hword : c + 4 + 4 < 2 ^ 64 := by omega
  have hfits : c + 4 + 4 ≤ head.length := hle
  simp only [Checked.ends_bind, ends_u32Le, Checked.ends_pure, hword, hfits, true_and, forall_const,
    UInt32.toNat_ofNat_of_lt' hvalue]

theorem readsSize_aiff (hlen : head.length ≤ 4096) :
    ReadsSize 8 (fun head offset => return (← u32Be head offset).toNat) beValue head := by
  intro c Q hle
  have hvalue : beValue (bytesAt head (c + 4) 4) < 2 ^ 32 := beValue_bytesAt_lt
  have hword : c + 4 + 4 < 2 ^ 64 := by omega
  have hfits : c + 4 + 4 ≤ head.length := hle
  simp only [Checked.ends_bind, ends_u32Be, Checked.ends_pure, hword, hfits, true_and, forall_const,
    UInt32.toNat_ofNat_of_lt' hvalue]

theorem readsSize_dff (hlen : head.length ≤ 4096) :
    ReadsSize 12 (fun head offset => return (← u64BeAt head offset).toNat) beValue head := by
  intro c Q hle
  have hvalue : beValue (bytesAt head (c + 4) 8) < 2 ^ 64 := beValue_bytesAt_lt
  have hword : c + 4 + 8 < 2 ^ 64 := by omega
  have hfits : c + 4 + 8 ≤ head.length := hle
  simp only [Checked.ends_bind, ends_u64BeAt, Checked.ends_pure, hword, hfits, true_and,
    forall_const, UInt64.toNat_ofNat_of_lt' hvalue]

theorem completes_parseWav (hlen : head.length ≤ 4096) : Completes (parseWav head) := by
  have hfmt : Ends (findRiffChunk head 12 (ascii "fmt ")) fun c => c + 8 ≤ head.length :=
    ends_findChunk_of_small hlen rfl (readsSize_riff hlen) (by decide)
      fun _ => leValue_bytesAt_lt
  simp only [parseWav, Completes, Checked.ends_bind, ends_checkMagic, Checked.ends_require]
  refine ⟨by simp [ascii], fun _ => ⟨by simp [ascii], fun _ => hfmt.mono fun c hc => ?_⟩⟩
  simp
  omega

theorem completes_parseAiff (hlen : head.length ≤ 4096) : Completes (parseAiff head) := by
  have hcomm : Ends (findAiffChunk head 12 (ascii "COMM")) fun c => c + 8 ≤ head.length :=
    ends_findChunk_of_small hlen rfl (readsSize_aiff hlen) (by decide)
      fun _ => beValue_bytesAt_lt
  simp only [parseAiff, Completes, Checked.ends_bind, ends_checkMagic, Checked.ends_require,
    Checked.ends_getRange, ends_plus, ends_u16Be]
  refine ⟨by simp [ascii], fun _ _ _ => hcomm.mono fun c hc => ?_⟩
  refine ⟨by omega, by omega, fun _ => ⟨by omega, by omega, fun _ => ⟨by omega, by omega, ?_⟩⟩⟩
  intro hext
  have hten : ((head.drop (c + 8 + 8)).take (c + 8 + 18 - (c + 8 + 8))).length = 10 := by
    simp
    omega
  rw [copyFromSlice, if_pos hten, Checked.ends_pure]
  exact (completes_ieee754ExtendedToU32 hten).mono fun _ _ => ends_pcmFormat

end EvoAudio.SourceProbe
