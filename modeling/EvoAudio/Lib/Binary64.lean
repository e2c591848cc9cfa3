import EvoAudio.Lib.Words
import Mathlib.Data.Int.Log
import Mathlib.Data.Rat.Floor
import Mathlib.Tactic.Linarith
import Mathlib.Tactic.NormNum
import Mathlib.Tactic.Ring

/-!
# Decimal texts as binary64 numbers

What `str::parse::<f64>` reads of a text: a sign, and a word for an infinity or
for no number, or digits with a dot and an exponent, rounded to the nearest
number with 53 binary places (to the even one of two), which is infinite from
`2 ^ 1024` on. A power of two is exceeded after rounding from half a place below
it on.
-/

namespace Binary64

-- ---------------------------------------------------------------------------
-- Rounding
-- ---------------------------------------------------------------------------

/-- The nearest integer, the even one of two. -/
def roundEven (x : ℚ) : Int :=
  if Int.fract x < 1 / 2 ∨ Int.fract x = 1 / 2 ∧ ⌊x⌋ % 2 = 0 then ⌊x⌋ else ⌊x⌋ + 1

/-- The exponent of the last of the 53 places. -/
def lastPlace (x : ℚ) : Int := max (Int.log 2 x - 52) (-1074)

/-- The nearest number with 53 places, before its exponent is looked at. -/
def nearest (x : ℚ) : ℚ := roundEven (x / 2 ^ lastPlace x) * 2 ^ lastPlace x

theorem le_roundEven {n : Int} {x : ℚ} (h : (n : ℚ) ≤ x) : n ≤ roundEven x := by
  have hfloor := Int.le_floor.mpr h
  unfold roundEven
  split_ifs <;> omega

theorem roundEven_le {n : Int} {x : ℚ} (h : x ≤ n) : roundEven x ≤ n := by
  have hfloor : ⌊x⌋ ≤ n := Int.cast_le.mp ((Int.floor_le x).trans h)
  rcases hfloor.lt_or_eq with hlt | heq
  · unfold roundEven
    split_ifs <;> omega
  · have hfract : Int.fract x = 0 := by
      have hx : x = n := le_antisymm h (heq ▸ Int.floor_le x)
      rw [hx, Int.fract_intCast]
    rw [roundEven, if_pos (.inl (by rw [hfract]; norm_num)), heq]

/-- An even number is reached from the half below it on. -/
theorem le_roundEven_iff {n : Int} (hn : n % 2 = 0) (x : ℚ) :
    n ≤ roundEven x ↔ (n : ℚ) - 1 / 2 ≤ x := by
  have hsplit := Int.floor_add_fract x
  have hnonneg := Int.fract_nonneg x
  have hlt := Int.fract_lt_one x
  rcases lt_trichotomy (⌊x⌋ + 1) n with hbelow | heq | habove
  · refine iff_of_false (fun h => ?_) fun h => ?_
    · unfold roundEven at h
      split_ifs at h <;> omega
    · have hcast : (⌊x⌋ : ℚ) + 2 ≤ n := by exact_mod_cast (by omega : ⌊x⌋ + 2 ≤ n)
      linarith
  · have hcast : (⌊x⌋ : ℚ) + 1 = n := by exact_mod_cast heq
    have hodd : ¬ ⌊x⌋ % 2 = 0 := by omega
    unfold roundEven
    simp only [hodd, and_false, or_false]
    split_ifs with hfract
    · exact iff_of_false (by omega) (by linarith)
    · exact iff_of_true (by omega) (by linarith)
  · have hcast : (n : ℚ) ≤ ⌊x⌋ := by exact_mod_cast (by omega : n ≤ ⌊x⌋)
    exact iff_of_true (le_roundEven (by linarith)) (by linarith)

theorem two_zpow_pos (t : Int) : (0 : ℚ) < 2 ^ t := zpow_pos (by norm_num) t

theorem two_pow_mul (n : Nat) (t : Int) : ((2 ^ n : Int) : ℚ) * 2 ^ t = 2 ^ (n + t) := by
  rw [zpow_add₀ (by norm_num), zpow_natCast]
  norm_cast

theorem two_zpow_le {s t : Int} (h : s ≤ t) : (2 : ℚ) ^ s ≤ 2 ^ t :=
  zpow_le_zpow_right₀ (by norm_num) h

theorem le_nearest {x : ℚ} (hx : 0 < x) (h : -1022 ≤ Int.log 2 x) :
    2 ^ Int.log 2 x ≤ nearest x := by
  have hplace : 52 + lastPlace x = Int.log 2 x := by
    rw [lastPlace]
    omega
  have hpower : ((2 ^ 52 : Int) : ℚ) * 2 ^ lastPlace x = 2 ^ Int.log 2 x :=
    (two_pow_mul 52 _).trans (congrArg _ hplace)
  have hround : 2 ^ 52 ≤ roundEven (x / 2 ^ lastPlace x) := by
    refine le_roundEven ((le_div_iff₀ (two_zpow_pos _)).mpr ?_)
    rw [hpower]
    exact Int.zpow_log_le_self one_lt_two hx
  rw [← hpower]
  exact mul_le_mul_of_nonneg_right (by exact_mod_cast hround) (two_zpow_pos _).le

theorem nearest_le {t : Int} (ht : -1020 ≤ t) {x : ℚ} (h : Int.log 2 x ≤ t - 2) :
    nearest x ≤ 2 ^ (t - 1) := by
  have hround : roundEven (x / 2 ^ lastPlace x) ≤ 2 ^ 53 := by
    refine roundEven_le ((div_le_iff₀ (two_zpow_pos _)).mpr ?_)
    calc x ≤ 2 ^ (Int.log 2 x + 1) := (Int.lt_zpow_succ_log_self one_lt_two x).le
      _ ≤ 2 ^ (53 + lastPlace x) := two_zpow_le (by rw [lastPlace]; omega)
      _ = ((2 ^ 53 : Int) : ℚ) * 2 ^ lastPlace x := (two_pow_mul 53 _).symm
  calc nearest x ≤ ((2 ^ 53 : Int) : ℚ) * 2 ^ lastPlace x :=
        mul_le_mul_of_nonneg_right (by exact_mod_cast hround) (two_zpow_pos _).le
    _ = 2 ^ (53 + lastPlace x) := two_pow_mul 53 _
    _ ≤ 2 ^ (t - 1) := two_zpow_le (by rw [lastPlace]; omega)

/-- A power of two is reached from half a place below it on. -/
theorem two_zpow_le_nearest_iff {t : Int} (ht : -1020 ≤ t) {x : ℚ} (hx : 0 < x) :
    2 ^ t ≤ nearest x ↔ (2 : ℚ) ^ t - 2 ^ (t - 54) ≤ x := by
  have hlower : (2 : ℚ) ^ Int.log 2 x ≤ x := Int.zpow_log_le_self one_lt_two hx
  have hupper : x < (2 : ℚ) ^ (Int.log 2 x + 1) := Int.lt_zpow_succ_log_self one_lt_two x
  have hhalf := two_zpow_pos (t - 54)
  rcases lt_trichotomy (Int.log 2 x) (t - 1) with hbelow | heq | habove
  · have hsmall : (2 : ℚ) ^ (t - 54) ≤ 2 ^ (t - 1) := two_zpow_le (by omega)
    have hdouble : 2 * (2 : ℚ) ^ (t - 1) = 2 ^ t := by
      rw [← zpow_one_add₀ (by norm_num), add_sub_cancel]
    have hnearest := nearest_le ht (by omega : Int.log 2 x ≤ t - 2)
    have hlt : x < 2 ^ (t - 1) := hupper.trans_le (two_zpow_le (by omega))
    have hpos := two_zpow_pos (t - 1)
    exact iff_of_false (by linarith) (by linarith)
  · have hplace : lastPlace x = t - 53 := by
      rw [lastPlace]
      omega
    have hpower : (2 : ℚ) ^ t = ((2 ^ 53 : Int) : ℚ) * 2 ^ (t - 53) :=
      (congrArg _ (add_sub_cancel 53 t).symm).trans (two_pow_mul 53 _).symm
    have hplaces : (2 : ℚ) ^ (t - 53) = 2 * 2 ^ (t - 54) := by
      rw [← zpow_one_add₀ (by norm_num)]
      congr 1
      ring
    have hsplit : (((2 ^ 53 : Int) : ℚ) - 1 / 2) * 2 ^ (t - 53) =
        ((2 ^ 53 : Int) : ℚ) * 2 ^ (t - 53) - 2 ^ (t - 54) := by
      rw [hplaces]
      ring
    rw [nearest, hplace, hpower, mul_le_mul_iff_left₀ (two_zpow_pos _), Int.cast_le,
      le_roundEven_iff (by norm_num), le_div_iff₀ (two_zpow_pos _), hsplit]
  · have hpower : (2 : ℚ) ^ t ≤ 2 ^ Int.log 2 x := two_zpow_le (by omega)
    have hnearest := le_nearest hx (by omega)
    exact iff_of_true (by linarith) (by linarith)

theorem nearest_zero : nearest 0 = 0 := by
  have hround : roundEven 0 = 0 := by
    rw [roundEven, Int.fract_zero, Int.floor_zero]
    norm_num
  rw [nearest, zero_div, hround, Int.cast_zero, zero_mul]

-- ---------------------------------------------------------------------------
-- Numbers
-- ---------------------------------------------------------------------------

/-- The values of `f64`. A zero has a sign as well. -/
inductive F64 where
  | nan
  | infinite (negative : Bool)
  | finite (negative : Bool) (magnitude : ℚ)
  deriving DecidableEq, Repr

namespace F64

/-- The number with a sign that is nearest to a magnitude. -/
def ofMagnitude (negative : Bool) (magnitude : ℚ) : F64 :=
  if nearest magnitude < 2 ^ (1024 : Int) then .finite negative (nearest magnitude)
  else .infinite negative

/-- `f64::is_finite`. -/
def isFinite : F64 → Bool
  | .finite .. => true
  | _ => false

/-- The comparison `< 0.0`. -/
def isBelowZero : F64 → Bool
  | .nan => false
  | .infinite negative => negative
  | .finite negative magnitude => negative && decide (0 < magnitude)

/-- A magnitude of at least a power of two, and not rounded to an infinity. -/
theorem ofMagnitude_reaches {t : Int} (ht : -1020 ≤ t) (negative : Bool) {x : ℚ} (hx : 0 ≤ x) :
    (∃ magnitude, ofMagnitude negative x = .finite negative magnitude ∧ 2 ^ t ≤ magnitude) ↔
      (2 : ℚ) ^ t - 2 ^ (t - 54) ≤ x ∧ x < 2 ^ (1024 : Int) - 2 ^ (970 : Int) := by
  rcases hx.eq_or_lt with rfl | hpos
  · have hhalf : (2 : ℚ) ^ (t - 54) < 2 ^ t := zpow_lt_zpow_right₀ (by norm_num) (by omega)
    have hzero := two_zpow_pos t
    refine iff_of_false ?_ fun h => by linarith [h.1]
    rintro ⟨magnitude, hmagnitude, hreach⟩
    rw [ofMagnitude, nearest_zero, if_pos (two_zpow_pos _)] at hmagnitude
    obtain ⟨-, rfl⟩ := F64.finite.inj hmagnitude
    linarith
  · have htop : nearest x < 2 ^ (1024 : Int) ↔ x < 2 ^ (1024 : Int) - 2 ^ (970 : Int) := by
      rw [← not_le, ← not_le]
      exact not_congr (two_zpow_le_nearest_iff (t := 1024) (by decide) hpos)
    rw [← two_zpow_le_nearest_iff ht hpos, ← htop, ofMagnitude]
    constructor
    · rintro ⟨magnitude, hmagnitude, hreach⟩
      split_ifs at hmagnitude with hfinite
      obtain ⟨-, rfl⟩ := F64.finite.inj hmagnitude
      exact ⟨hreach, hfinite⟩
    · rintro ⟨hreach, hfinite⟩
      exact ⟨nearest x, if_pos hfinite, hreach⟩

end F64

-- ---------------------------------------------------------------------------
-- Texts
-- ---------------------------------------------------------------------------

open Text

/-- A sign in front of a number, which may be missing. -/
def splitSign : List Char → Bool × List Char
  | '-' :: rest => (true, rest)
  | '+' :: rest => (false, rest)
  | s => (false, s)

/-- The exponent behind the digits of a number. -/
def parseExponent : List Char → Option Int
  | [] => some 0
  | c :: rest =>
    let (negative, digits) := splitSign rest
    if (c = 'e' ∨ c = 'E') ∧ digits ≠ [] ∧ digits.all Char.isDigit then
      let exponent : Int := Nat.ofDigitChars 10 digits 0
      some (if negative then -exponent else exponent)
    else none

/-- The digits of a number and the power of ten that they are multiplied with. -/
def parseDecimal (s : List Char) : Option (Nat × Int) :=
  let whole := s.takeWhile Char.isDigit
  let (fraction, rest) :=
    match s.dropWhile Char.isDigit with
    | '.' :: after => (after.takeWhile Char.isDigit, after.dropWhile Char.isDigit)
    | rest => ([], rest)
  if whole = [] ∧ fraction = [] then none
  else (parseExponent rest).map fun exponent =>
    (Nat.ofDigitChars 10 (whole ++ fraction) 0, exponent - fraction.length)

def decimalValue (decimal : Nat × Int) : ℚ := decimal.1 * 10 ^ decimal.2

/-- The words for an infinity and for no number, in any case. -/
def parseInfNan (negative : Bool) (s : List Char) : Option F64 :=
  if asciiLower s = "inf".toList ∨ asciiLower s = "infinity".toList then some (.infinite negative)
  else if asciiLower s = "nan".toList then some .nan
  else none

/-- `str::parse::<f64>`. -/
def parseF64 (s : List Char) : Option F64 :=
  let (negative, rest) := splitSign s
  match parseDecimal rest with
  | some decimal => some (.ofMagnitude negative (decimalValue decimal))
  | none => parseInfNan negative rest

example : parseDecimal "12.50e-1".toList = some (1250, -3) := by decide

theorem parseInfNan_ne_finite {negative sign : Bool} {s : List Char} {magnitude : ℚ} :
    parseInfNan negative s ≠ some (.finite sign magnitude) := by
  unfold parseInfNan
  split_ifs <;> simp

/-- The text of a number that is not negative, and not less than a power of two after
rounding. -/
theorem parseF64_reaches {t : Int} (ht : -1020 ≤ t) (s : List Char) :
    (∃ magnitude, parseF64 s = some (.finite false magnitude) ∧ 2 ^ t ≤ magnitude) ↔
      ∃ decimal, (splitSign s).1 = false ∧ parseDecimal (splitSign s).2 = some decimal ∧
        (2 : ℚ) ^ t - 2 ^ (t - 54) ≤ decimalValue decimal ∧
          decimalValue decimal < 2 ^ (1024 : Int) - 2 ^ (970 : Int) := by
  cases hsign : splitSign s with | mk negative rest =>
  cases hdecimal : parseDecimal rest with
  | none =>
    refine iff_of_false ?_ (by simp)
    rintro ⟨magnitude, hparse, -⟩
    simp only [parseF64, hsign, hdecimal] at hparse
    exact parseInfNan_ne_finite hparse
  | some decimal =>
    have hnonneg : 0 ≤ decimalValue decimal :=
      mul_nonneg (Nat.cast_nonneg _) (zpow_nonneg (by norm_num) _)
    simp only [parseF64, hsign, hdecimal, Option.some.injEq]
    cases negative with
    | true =>
      refine iff_of_false ?_ (by simp)
      rintro ⟨magnitude, hmagnitude, -⟩
      unfold F64.ofMagnitude at hmagnitude
      split_ifs at hmagnitude
      cases hmagnitude
    | false =>
      rw [F64.ofMagnitude_reaches ht false hnonneg]
      simp only [true_and, exists_eq_left']

end Binary64
