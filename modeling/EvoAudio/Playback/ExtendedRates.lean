import EvoAudio.Playback.ProbeTotality
import Mathlib.Algebra.Order.Floor.Semifield
import Mathlib.Data.Rat.Floor
import Mathlib.Tactic.NormNum
import Mathlib.Tactic.Positivity

/-!
# Rates as floats of 80 bits

AIFF writes a sample rate as a float of ten bytes, and `ieee_754_extended_to_u32` makes
Hz of it by shifts of the mantissa. Here the ten bytes are read as the number that they
stand for, and the shifts are compared with its integer part.
-/

namespace EvoAudio.SourceProbe

open Checked (Returns)

/-- `[u8; 10]` -/
abbrev Extended := Vector UInt8 10

variable {e : Extended}

-- ---------------------------------------------------------------------------
-- The number
-- ---------------------------------------------------------------------------

def Extended.negative (e : Extended) : Bool := decide (128 ≤ e[0].toNat)

def Extended.exponent (e : Extended) : Nat := e[0].toNat % 128 * 256 + e[1].toNat

def Extended.mantissa (e : Extended) : Nat := beValue (e.toList.drop 2)

def Extended.magnitude (e : Extended) : ℚ := e.mantissa * 2 ^ ((e.exponent : ℤ) - 16446)

/-- The number is positive and finite, and its integer part is so many Hz. -/
def Extended.IsHz (e : Extended) (n : UInt32) : Prop :=
  e.negative = false ∧ e.exponent ≠ 0x7FFF ∧ 0 < e.magnitude ∧
    ⌊e.magnitude⌋₊ = n.toNat ∧ 1 ≤ n.toNat

/-- The conversion gives the integer part of each number that has one from 1 to below
`2 ^ 32`, and nothing of any other. -/
def ConvertsExactly (e : Extended) : Prop :=
  (∀ n, Returns (ieee754ExtendedToU32 e.toList) (some n) ↔ e.IsHz n) ∧
    (Returns (ieee754ExtendedToU32 e.toList) none ↔ ¬∃ n, e.IsHz n)

/-- The integer part as the shifts would give it if they lost no bit. -/
def Extended.wholeHz (e : Extended) : Nat :=
  if 16446 ≤ e.exponent then e.mantissa * 2 ^ (e.exponent - 16446)
  else e.mantissa / 2 ^ (16446 - e.exponent)

theorem floor_magnitude (e : Extended) : ⌊e.magnitude⌋₊ = e.wholeHz := by
  unfold Extended.magnitude Extended.wholeHz
  split
  next hle =>
    have hpow : (2 : ℚ) ^ ((e.exponent : ℤ) - 16446) = ((2 ^ (e.exponent - 16446) : Nat) : ℚ) := by
      have hexp : (e.exponent : ℤ) - 16446 = ((e.exponent - 16446 : Nat) : ℤ) := by omega
      rw [hexp, zpow_natCast, Nat.cast_pow, Nat.cast_ofNat]
    rw [hpow, ← Nat.cast_mul, Nat.floor_natCast]
  next hlt =>
    have hpow : (2 : ℚ) ^ ((e.exponent : ℤ) - 16446) =
        (((2 ^ (16446 - e.exponent) : Nat) : ℚ))⁻¹ := by
      have hexp : (e.exponent : ℤ) - 16446 = -((16446 - e.exponent : Nat) : ℤ) := by omega
      rw [hexp, zpow_neg, zpow_natCast, Nat.cast_pow, Nat.cast_ofNat]
    rw [hpow, ← div_eq_mul_inv, Nat.floor_div_natCast, Nat.floor_natCast]

theorem magnitude_pos_of_wholeHz (h : 1 ≤ e.wholeHz) : 0 < e.magnitude := by
  rw [← floor_magnitude, Nat.one_le_floor_iff] at h
  exact lt_of_lt_of_le one_pos h

theorem isHz_iff : e.IsHz n ↔ e.negative = false ∧ e.exponent ≠ 0x7FFF ∧
    1 ≤ e.wholeHz ∧ e.wholeHz = n.toNat := by
  unfold Extended.IsHz
  rw [floor_magnitude]
  constructor
  · rintro ⟨hsign, hfinite, -, hn, hone⟩
    exact ⟨hsign, hfinite, hn ▸ hone, hn⟩
  · rintro ⟨hsign, hfinite, hone, hn⟩
    exact ⟨hsign, hfinite, magnitude_pos_of_wholeHz hone, hn, hn ▸ hone⟩

-- ---------------------------------------------------------------------------
-- The conversion
-- ---------------------------------------------------------------------------

/-- The shifts of the conversion, on numbers. -/
def shiftedHz (exponent mantissa : Nat) : Option UInt32 :=
  if 16446 + 64 ≤ exponent ∨ exponent + 64 ≤ 16446 then none
  else if 16446 < exponent then
    let v := mantissa * 2 ^ (exponent - 16446) % 2 ^ 64
    if 2 ^ 32 ≤ v then none else some (UInt32.ofNat v)
  else some (UInt32.ofNat (mantissa / 2 ^ (16446 - exponent)))

theorem toNat_shiftLeft (m : UInt64) (h : k < 64) :
    (m <<< UInt64.ofNat k).toNat = m.toNat * 2 ^ k % 2 ^ 64 := by
  have hk : (UInt64.ofNat k).toNat % 64 = k := by simp; omega
  rw [UInt64.toNat_shiftLeft, hk, Nat.shiftLeft_eq]

theorem toNat_shiftRight (m : UInt64) (h : k < 64) :
    (m >>> UInt64.ofNat k).toNat = m.toNat / 2 ^ k := by
  have hk : (UInt64.ofNat k).toNat % 64 = k := by simp; omega
  rw [UInt64.toNat_shiftRight, hk, Nat.shiftRight_eq_div_pow]

theorem extendedHz_eq (sign : UInt8) (exponent : UInt32) (mantissa : UInt64) :
    extendedHz sign exponent mantissa = if sign ≠ 0 ∨ exponent = 0x7FFF then none
      else shiftedHz exponent.toNat mantissa.toNat := by
  unfold extendedHz shiftedHz
  simp only []
  split
  · rfl
  split
  next hzero =>
    obtain ⟨rfl, rfl⟩ := hzero
    simp
  next =>
    have hshift : (exponent.toNat : Int) - (16383 + 63) = exponent.toNat - 16446 := by omega
    rw [hshift]
    generalize exponent.toNat = x
    -- Left by 64 or more, left, not at all, right, and right by 64 or more.
    by_cases hfar : 16446 + 64 ≤ x
    · rw [if_pos (show (0 : Int) < x - 16446 by omega),
        if_pos (show (64 : Int) ≤ x - 16446 by omega), if_pos (.inl hfar)]
    by_cases hleft : 16446 < x
    · have htoNat : ((x : Int) - 16446).toNat = x - 16446 := by omega
      have hv := toNat_shiftLeft mantissa (k := x - 16446) (by omega)
      have hgt : mantissa <<< UInt64.ofNat (x - 16446) > 0xFFFFFFFF ↔
          2 ^ 32 ≤ mantissa.toNat * 2 ^ (x - 16446) % 2 ^ 64 := by
        rw [← hv]
        exact UInt64.lt_iff_toNat_lt
      rw [if_pos (show (0 : Int) < x - 16446 by omega),
        if_neg (show ¬(64 : Int) ≤ x - 16446 by omega),
        if_neg (show ¬(16446 + 64 ≤ x ∨ x + 64 ≤ 16446) by omega), if_pos hleft, htoNat,
        ← UInt32.ofNat_uInt64ToNat, hv]
      simp only [hgt]
    rw [if_neg (show ¬(0 : Int) < x - 16446 by omega), if_neg (show ¬16446 < x from hleft)]
    by_cases heq : x = 16446
    · subst heq
      simp
    rw [if_neg (show ¬(x : Int) - 16446 = 0 by omega)]
    by_cases hright : x + 64 ≤ 16446
    · rw [if_pos (show (64 : Int) ≤ -(x - 16446) by omega), if_pos (.inr hright)]
    · have htoNat : (-((x : Int) - 16446)).toNat = 16446 - x := by omega
      rw [if_neg (show ¬(64 : Int) ≤ -(x - 16446) by omega),
        if_neg (show ¬(16446 + 64 ≤ x ∨ x + 64 ≤ 16446) by omega), htoNat,
        ← UInt32.ofNat_uInt64ToNat, toNat_shiftRight mantissa (by omega)]

theorem signBit_ne_zero (b : UInt8) : (b &&& 0x80) >>> 7 ≠ 0 ↔ 128 ≤ b.toNat := by
  have hbits : ∀ n < 256, ((n &&& 128) >>> 7 ≠ 0 ↔ 128 ≤ n) := by decide +kernel
  rw [ne_eq, ← UInt8.toNat_inj]
  exact hbits b.toNat b.toNat_lt

theorem exponentWord (b₀ b₁ : UInt8) : (((b₀ &&& 0x7F).toUInt32 <<< 8) ||| b₁.toUInt32).toNat =
    b₀.toNat % 128 * 256 + b₁.toNat := by
  have hlow : b₀.toNat &&& 127 = b₀.toNat % 128 := Nat.and_two_pow_sub_one_eq_mod b₀.toNat 7
  have hword : (b₀.toNat % 128) <<< 8 % 2 ^ 32 = (b₀.toNat % 128) <<< 8 := by
    rw [Nat.shiftLeft_eq]
    omega
  have hor := Nat.shiftLeft_add_eq_or_of_lt (a := b₀.toNat % 128) (i := 8) b₁.toNat_lt
  rw [UInt32.toNat_or, UInt32.toNat_shiftLeft, UInt8.toNat_toUInt32, UInt8.toNat_toUInt32,
    UInt8.toNat_and]
  change (b₀.toNat &&& 127) <<< 8 % 2 ^ 32 ||| b₁.toNat = _
  rw [hlow, hword, ← hor, Nat.shiftLeft_eq]

theorem Extended.mantissa_lt (e : Extended) : e.mantissa < 2 ^ 64 := by
  have hlt := leValue_lt (e.toList.drop 2).reverse
  have hlen : (e.toList.drop 2).reverse.length = 8 := by simp
  rwa [hlen] at hlt

/-- The conversion shifts the mantissa of a positive finite number. -/
theorem returns_ieee754ExtendedToU32 :
    Returns (ieee754ExtendedToU32 e.toList) r ↔
      r = if e.negative = true ∨ e.exponent = 0x7FFF then none
        else shiftedHz e.exponent e.mantissa := by
  have hfirst : e.toList[0]? = some e[0] := by simp
  have hsecond : e.toList[1]? = some e[1] := by simp
  have hrest : (e.toList.drop 2).take 8 = e.toList.drop 2 :=
    List.take_of_length_le (by simp)
  have hmantissa : (UInt64.ofNat (beValue (e.toList.drop 2))).toNat = e.mantissa :=
    UInt64.toNat_ofNat_of_lt' e.mantissa_lt
  have hexponent : ((e[0] &&& 0x7F).toUInt32 <<< 8 ||| e[1].toUInt32).toNat = e.exponent :=
    exponentWord e[0] e[1]
  have hinfinite : ((e[0] &&& 0x7F).toUInt32 <<< 8 ||| e[1].toUInt32) = 0x7FFF ↔
      e.exponent = 0x7FFF := by
    rw [← UInt32.toNat_inj, hexponent]
    rfl
  have hnegative : (e[0] &&& 0x80) >>> 7 ≠ 0 ↔ e.negative = true := by
    rw [signBit_ne_zero, Extended.negative, decide_eq_true_iff]
  have hvalue : extendedHz ((e[0] &&& 0x80) >>> 7)
      ((e[0] &&& 0x7F).toUInt32 <<< 8 ||| e[1].toUInt32)
      (UInt64.ofNat (beValue (e.toList.drop 2))) =
      if e.negative = true ∨ e.exponent = 0x7FFF then none
        else shiftedHz e.exponent e.mantissa := by
    rw [extendedHz_eq, hexponent, hmantissa]
    simp only [hinfinite, hnegative]
  rw [← hvalue]
  simp [ieee754ExtendedToU32, Checked.returns_bind, Checked.returns_index,
    returns_firstBytes (show 8 ≤ (e.toList.drop 2).length by simp), hrest]

-- ---------------------------------------------------------------------------
-- When the conversion is exact
-- ---------------------------------------------------------------------------

/-- A number that the conversion makes nothing of it or its integer part: it is negative
or not finite, its point is 64 bits off, its integer part is a rate, or bits from the
32nd on are left of it in 64 bits. -/
def Extended.Converts (e : Extended) : Prop :=
  e.negative = true ∨ e.exponent = 0x7FFF ∨ e.exponent + 64 ≤ 16446 ∨ 16446 + 64 ≤ e.exponent ∨
    (1 ≤ e.magnitude ∧ e.magnitude < 2 ^ 32) ∨
    (16446 < e.exponent ∧ 2 ^ 32 ≤ e.mantissa * 2 ^ (e.exponent - 16446) % 2 ^ 64)

theorem wholeHz_bounds : (1 ≤ e.wholeHz ∧ e.wholeHz < 2 ^ 32) ↔
    1 ≤ e.magnitude ∧ e.magnitude < 2 ^ 32 := by
  have hnonneg : 0 ≤ e.magnitude := by
    exact mul_nonneg (Nat.cast_nonneg _) (zpow_nonneg (by norm_num) _)
  rw [← floor_magnitude, Nat.one_le_floor_iff, Nat.floor_lt hnonneg]
  norm_num

/-- What the conversion of a positive finite number is to give. -/
def Extended.rateHz (e : Extended) : Option UInt32 :=
  if 1 ≤ e.wholeHz ∧ e.wholeHz < 2 ^ 32 then some (UInt32.ofNat e.wholeHz) else none

theorem rateHz_eq_some : e.rateHz = some n ↔ 1 ≤ e.wholeHz ∧ e.wholeHz = n.toNat := by
  unfold Extended.rateHz
  constructor
  · intro h
    split at h
    next hrange =>
      cases h
      exact ⟨hrange.1, (UInt32.toNat_ofNat_of_lt' hrange.2).symm⟩
    next => cases h
  · rintro ⟨hone, hn⟩
    rw [if_pos ⟨hone, hn ▸ n.toNat_lt⟩, hn, UInt32.ofNat_toNat]

theorem convertsExactly_iff_eq : ConvertsExactly e ↔
    (if e.negative = true ∨ e.exponent = 0x7FFF then none
        else shiftedHz e.exponent e.mantissa) =
      if e.negative = true ∨ e.exponent = 0x7FFF then none else e.rateHz := by
  have hrate (n : UInt32) : e.IsHz n ↔
      some n = if e.negative = true ∨ e.exponent = 0x7FFF then none else e.rateHz := by
    rw [isHz_iff, eq_comm (a := some n)]
    split
    next h => grind
    next h =>
      rw [rateHz_eq_some]
      grind
  unfold ConvertsExactly
  simp only [returns_ieee754ExtendedToU32, hrate]
  generalize (if e.negative = true ∨ e.exponent = 0x7FFF then none
    else shiftedHz e.exponent e.mantissa) = given
  generalize (if e.negative = true ∨ e.exponent = 0x7FFF then none else e.rateHz) = meant
  constructor
  · rintro ⟨hsome, -⟩
    exact Option.ext fun n => by simpa [eq_comm] using hsome n
  · rintro rfl
    refine ⟨fun _ => Iff.rfl, ?_⟩
    cases given <;> simp

theorem shiftedHz_eq_rateHz_iff : shiftedHz e.exponent e.mantissa = e.rateHz ↔
    e.exponent + 64 ≤ 16446 ∨ 16446 + 64 ≤ e.exponent ∨
    (1 ≤ e.wholeHz ∧ e.wholeHz < 2 ^ 32) ∨
    (16446 < e.exponent ∧ 2 ^ 32 ≤ e.mantissa * 2 ^ (e.exponent - 16446) % 2 ^ 64) := by
  have hmantissa := e.mantissa_lt
  unfold shiftedHz Extended.rateHz
  by_cases hright : e.exponent + 64 ≤ 16446
  · -- The integer part is zero.
    have hwhole : e.wholeHz = 0 := by
      rw [Extended.wholeHz, if_neg (by omega)]
      refine Nat.div_eq_of_lt (Nat.lt_of_lt_of_le hmantissa ?_)
      exact Nat.pow_le_pow_right (by decide) (by omega)
    simp [hright, hwhole]
  by_cases hfar : 16446 + 64 ≤ e.exponent
  · -- The integer part is zero or has more than 64 bits.
    have hwhole : e.wholeHz = e.mantissa * 2 ^ (e.exponent - 16446) := by
      rw [Extended.wholeHz, if_pos (by omega)]
    have hlarge : ¬(1 ≤ e.wholeHz ∧ e.wholeHz < 2 ^ 32) := by
      rintro ⟨hone, hlt⟩
      rw [hwhole] at hone hlt
      have hpos : 0 < e.mantissa := Nat.pos_of_mul_pos_right hone
      have hpow : 2 ^ 64 ≤ 2 ^ (e.exponent - 16446) :=
        Nat.pow_le_pow_right (by decide) (by omega)
      have hle := Nat.le_mul_of_pos_left (2 ^ (e.exponent - 16446)) hpos
      omega
    rw [if_neg hlarge]
    simp [hfar]
  by_cases hleft : 16446 < e.exponent
  · have hwhole : e.mantissa * 2 ^ (e.exponent - 16446) = e.wholeHz := by
      rw [Extended.wholeHz, if_pos (by omega)]
    simp only [hright, hfar, hleft, hwhole, or_self, if_false, if_true, false_or, true_and]
    by_cases hrange : 1 ≤ e.wholeHz ∧ e.wholeHz < 2 ^ 32
    · have hv : e.wholeHz % 2 ^ 64 = e.wholeHz := Nat.mod_eq_of_lt (by omega)
      rw [if_pos hrange, hv, if_neg (by omega)]
      exact iff_of_true rfl (.inl hrange)
    · rw [if_neg hrange]
      simp only [hrange, false_or]
      split
      next hlarge => exact iff_of_true rfl hlarge
      next hsmall => exact iff_of_false (Option.some_ne_none _) hsmall
  · -- A shift to the right, of which zero is one.
    have hwhole : e.mantissa / 2 ^ (16446 - e.exponent) = e.wholeHz := by
      rw [Extended.wholeHz]
      split
      next hle =>
        have hsame : e.exponent = 16446 := by omega
        simp [hsame]
      next => rfl
    simp [hright, hfar, hleft, hwhole]

/-- The conversion of an 80-bit number is exact exactly when one of the cases of
`Converts` is the number's. -/
theorem convertsExactly_iff (e : Extended) : ConvertsExactly e ↔ e.Converts := by
  rw [convertsExactly_iff_eq, Extended.Converts, ← wholeHz_bounds]
  by_cases hsign : e.negative = true
  · simp [hsign]
  by_cases hfinite : e.exponent = 0x7FFF
  · rw [if_pos (.inr hfinite), if_pos (.inr hfinite)]
    exact iff_of_true rfl (.inr (.inl hfinite))
  rw [if_neg (by simp [hsign, hfinite]), if_neg (by simp [hsign, hfinite]),
    shiftedHz_eq_rateHz_iff]
  simp only [hsign, hfinite, false_or, Bool.false_eq_true]

/-- A float of `2 ^ 64`, of whose mantissa the conversion keeps no bit. -/
theorem not_convertsExactly_sample :
    ¬ConvertsExactly (.mk #[0x40, 0x3F, 0x80, 0, 0, 0, 0, 0, 0, 0] rfl) := by
  rw [convertsExactly_iff_eq]
  decide +kernel

end EvoAudio.SourceProbe
