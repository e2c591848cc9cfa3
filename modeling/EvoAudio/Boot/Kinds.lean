import EvoAudio.Boot.Matches

/-!
# Kinds of lines of a boot configuration

The managed blocks of a text, the lines outside them, and which of those an apply has to
keep. A line is told by what it starts with: a banner or a comment by its `#`,
an overlay and a parameter by their keys.
-/

namespace EvoAudio.Boot

open Regex Lines Edits

/-- The lines outside the managed blocks. -/
def outside : List Line → List Line
  | [] => []
  | [line] => [line]
  | line :: next :: rest =>
    if banner line.text && overlayLine next.text then outside rest
    else line :: outside (next :: rest)

/-- The managed blocks of a text. -/
def blocks (text : List Char) : Nat := pairs banner overlayLine (content text)

/-- A `dtoverlay=` line with just the overlay. -/
def standalone (overlay line : List Char) : Bool := (leading overlayKey line).any (alone overlay)

def paramLine (param : Param) (line : List Char) : Bool := (leading param.key line).isSome

/-- A line of one of the parameters, commented or not. -/
def dtparamLine (line : List Char) : Bool :=
  let active := (leading ['#'] line).getD line
  paramLine .i2cArm active || paramLine .i2s active

/-- A line that an apply has to keep. -/
def guarded (overlay line : List Char) : Bool := !standalone overlay line && !dtparamLine line

/-- A comment sign and nothing else. -/
def bareHash (line : List Char) : Bool := alone ['#'] line

/-- A `dtoverlay=` without a value. -/
def bareOverlay (line : List Char) : Bool := alone overlayKey line

variable {line : List Char} {param : Param}

-- ---------------------------------------------------------------------------
-- Lines that start with a comment sign
-- ---------------------------------------------------------------------------

theorem overlayLine_of_leading (h : leading overlayKey line = none) :
    overlayLine line = false := by
  rw [overlayLine, h, Option.any_none]

theorem hash_apart_overlayKey : ¬ (['#'] <+: overlayKey ∨ overlayKey <+: ['#']) := by decide

theorem hash_apart_key (param : Param) : ¬ (['#'] <+: param.key ∨ param.key <+: ['#']) := by
  cases param <;> decide

theorem key_apart_overlayKey (param : Param) :
    ¬ (param.key <+: overlayKey ∨ overlayKey <+: param.key) := by
  cases param <;> decide

theorem overlayLine_of_hash (h : (leading ['#'] line).isSome) : overlayLine line = false :=
  overlayLine_of_leading (leading_eq_none h hash_apart_overlayKey)

theorem bareOverlay_of_hash (h : (leading ['#'] line).isSome) : bareOverlay line = false :=
  alone_eq_false word_overlayKey (leading_eq_none h hash_apart_overlayKey)

theorem paramLine_of_hash (h : (leading ['#'] line).isSome) : paramLine param line = false := by
  rw [paramLine, leading_eq_none h (hash_apart_key param)]
  rfl

/-- A banner is a comment that goes on with another comment sign. -/
theorem exists_hash_of_banner (h : banner line) :
    ∃ more, leading ['#'] line = some more ∧ (leading ['#'] more).isSome := by
  obtain ⟨rest, rfl⟩ := exists_of_banner h
  have hmore : leading ['#'] ('#' :: rest) = some rest := leading_append word_hash rest
  refine ⟨'#' :: rest, leading_append word_hash _, ?_⟩
  rw [hmore]
  rfl

theorem hash_of_banner (h : banner line) : (leading ['#'] line).isSome := by
  obtain ⟨more, hmore, -⟩ := exists_hash_of_banner h
  rw [hmore]
  rfl

theorem bareHash_of_banner (h : banner line) : bareHash line = false := by
  obtain ⟨more, hmore, hhash⟩ := exists_hash_of_banner h
  rw [bareHash, alone_eq word_hash, hmore]
  exact not_blank_of_leading word_hash hhash

theorem overlayLine_of_banner (h : banner line) : overlayLine line = false :=
  overlayLine_of_hash (hash_of_banner h)

theorem banner_eq_false (h : leading ['#'] line = none) : banner line = false := by
  rw [← Bool.not_eq_true]
  intro hbanner
  have hhash := hash_of_banner hbanner
  rw [h] at hhash
  cases hhash

-- ---------------------------------------------------------------------------
-- Parameters
-- ---------------------------------------------------------------------------

/-- A comment sign and a parameter that is on. -/
def commentedOn (param : Param) (line : List Char) : Bool :=
  (leading ['#'] line).any (alone param.on)

theorem paramLine_of_leading_append {more : List Char}
    (h : (leading (param.key ++ more) line).isSome) : paramLine param line := by
  rw [leading, stripPrefix_append_left] at h
  rw [paramLine, leading]
  cases hstrip : Text.stripPrefix param.key (line.dropWhile Text.isWhitespace) with
  | none => simp [hstrip] at h
  | some _ => rfl

theorem paramLine_of_on (h : alone param.on line) : paramLine param line :=
  paramLine_of_leading_append (leading_of_alone (word_on param) h)

theorem paramLine_of_off (h : offValues.any fun value => alone (param.key ++ value) line) :
    paramLine param line := by
  obtain ⟨value, hvalue, halone⟩ := List.any_eq_true.mp h
  exact paramLine_of_leading_append
    (leading_of_alone ((word_key param).append (offValues_noSpace value hvalue)) halone)

theorem leading_hash_of_param (h : paramLine param line) : leading ['#'] line = none :=
  leading_eq_none h fun hor => hash_apart_key param hor.symm

theorem leading_overlayKey_of_param (h : paramLine param line) :
    leading overlayKey line = none :=
  leading_eq_none h (key_apart_overlayKey param)

theorem banner_of_param (h : paramLine param line) : banner line = false :=
  banner_eq_false (leading_hash_of_param h)

theorem overlayLine_of_param (h : paramLine param line) : overlayLine line = false :=
  overlayLine_of_leading (leading_overlayKey_of_param h)

theorem bareHash_of_param (h : paramLine param line) : bareHash line = false :=
  alone_eq_false word_hash (leading_hash_of_param h)

theorem bareOverlay_of_param (h : paramLine param line) : bareOverlay line = false :=
  alone_eq_false word_overlayKey (leading_overlayKey_of_param h)

theorem dtparamLine_of_active {more : List Char} (h : (leading ['#'] line).getD line = more)
    (hparam : paramLine param more) : dtparamLine line := by
  rw [dtparamLine, h]
  cases param with
  | i2cArm => simp [hparam]
  | i2s => simp [hparam]

theorem dtparamLine_of_param (h : paramLine param line) : dtparamLine line := by
  refine dtparamLine_of_active ?_ h
  rw [leading_hash_of_param h]
  rfl

section Commented

theorem exists_of_commentedOn (h : commentedOn param line) :
    ∃ more, leading ['#'] line = some more ∧ alone param.on more := by
  rw [commentedOn] at h
  cases hlead : leading ['#'] line with
  | none => simp [hlead] at h
  | some more => exact ⟨more, rfl, by simpa [hlead] using h⟩

theorem dtparamLine_of_commentedOn (h : commentedOn param line) : dtparamLine line := by
  obtain ⟨more, hlead, halone⟩ := exists_of_commentedOn h
  refine dtparamLine_of_active ?_ (paramLine_of_on halone)
  rw [hlead]
  rfl

theorem hash_of_commentedOn (h : commentedOn param line) : (leading ['#'] line).isSome := by
  obtain ⟨more, hlead, -⟩ := exists_of_commentedOn h
  rw [hlead]
  rfl

theorem bareHash_of_commentedOn (h : commentedOn param line) : bareHash line = false := by
  obtain ⟨more, hlead, halone⟩ := exists_of_commentedOn h
  rw [bareHash, alone_eq word_hash, hlead]
  exact not_blank_of_leading (word_on param) (leading_of_alone (word_on param) halone)

theorem banner_of_commentedOn (h : commentedOn param line) : banner line = false := by
  obtain ⟨more, hlead, halone⟩ := exists_of_commentedOn h
  rw [← Bool.not_eq_true]
  intro hbanner
  obtain ⟨more', hlead', hhash⟩ := exists_hash_of_banner hbanner
  obtain rfl : more = more' := Option.some.inj (hlead.symm.trans hlead')
  have hnone := leading_hash_of_param (paramLine_of_on halone)
  rw [hnone] at hhash
  cases hhash

end Commented

-- ---------------------------------------------------------------------------
-- Overlays
-- ---------------------------------------------------------------------------

section Overlays

variable {overlay : List Char}

theorem validateOverlayToken_ok (h : validateOverlayToken overlay = .ok ()) :
    overlay ≠ [] ∧ ∀ x ∈ overlay, x.isAlphanum ∨ x = ',' ∨ x = '_' ∨ x = '-' ∨ x = '.' := by
  rw [validateOverlayToken] at h
  split at h
  · cases h
  next hne =>
    split at h
    · cases h
    next hall =>
      refine ⟨by simpa using hne, fun x hx => ?_⟩
      rw [Bool.not_eq_true', Bool.not_eq_false, List.all_eq_true] at hall
      simpa [or_assoc] using hall x hx

theorem noSpace_of_alphanum {x : Char} (h : x.isAlphanum) : Text.isWhitespace x = false := by
  have hrange : (65 ≤ x.toNat ∧ x.toNat ≤ 90) ∨ (97 ≤ x.toNat ∧ x.toNat ≤ 122) ∨
      (48 ≤ x.toNat ∧ x.toNat ≤ 57) := by
    delta Char.isAlphanum Char.isAlpha Char.isUpper Char.isLower Char.isDigit at h
    simpa [UInt32.le_iff_toNat_le, or_assoc] using h
  simp only [Text.isWhitespace, Bool.or_eq_false_iff, Bool.and_eq_false_iff, beq_eq_false_iff_ne,
    decide_eq_false_iff_not]
  omega

/-- A valid token has no white space. -/
theorem word_of_valid (h : validateOverlayToken overlay = .ok ()) : Word overlay := by
  obtain ⟨hne, hall⟩ := validateOverlayToken_ok h
  refine ⟨hne, fun x hx => ?_⟩
  rcases hall x hx with hx | rfl | rfl | rfl | rfl
  · exact noSpace_of_alphanum hx
  all_goals decide

theorem ne_overlayKey_of_valid (h : validateOverlayToken overlay = .ok ()) :
    overlay ≠ overlayKey := by
  rintro rfl
  exact absurd h (by decide)

theorem bareOverlay_of_standalone (hword : Word overlay) (h : standalone overlay line) :
    bareOverlay line = false := by
  rw [bareOverlay, alone_eq word_overlayKey]
  rw [standalone] at h
  cases hlead : leading overlayKey line with
  | none => rfl
  | some more =>
    rw [hlead, Option.any_some] at h
    exact not_blank_of_leading hword (leading_of_alone hword h)

theorem leading_hash_of_overlayKey (h : (leading overlayKey line).isSome) :
    leading ['#'] line = none :=
  leading_eq_none h fun hor => hash_apart_overlayKey hor.symm

theorem paramLine_of_overlayKey (h : (leading overlayKey line).isSome) :
    paramLine param line = false := by
  rw [paramLine, leading_eq_none h fun hor => key_apart_overlayKey param hor.symm]
  rfl

theorem guarded_of_bareOverlay (hword : Word overlay) (h : bareOverlay line) :
    guarded overlay line := by
  have hlead := leading_of_alone word_overlayKey h
  have hstandalone : standalone overlay line = false := by
    rw [← Bool.not_eq_true]
    intro hline
    rw [bareOverlay_of_standalone hword hline] at h
    cases h
  rw [guarded, hstandalone, dtparamLine, leading_hash_of_overlayKey hlead]
  simp [paramLine_of_overlayKey hlead]

theorem guarded_of_bareHash (h : bareHash line) : guarded overlay line := by
  have hlead := leading_of_alone word_hash h
  rw [bareHash, alone_eq word_hash] at h
  obtain ⟨more, hmore⟩ := Option.isSome_iff_exists.mp hlead
  rw [hmore, Option.any_some] at h
  have hparam : ∀ param, paramLine param more = false := by
    intro param
    rw [paramLine, leading_of_blank (word_key param) h]
    rfl
  rw [guarded, standalone, leading_eq_none hlead hash_apart_overlayKey, dtparamLine, hmore]
  simp [hparam]

end Overlays

end EvoAudio.Boot
