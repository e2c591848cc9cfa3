import Mathlib.Algebra.Group.Int.Defs
import Mathlib.Algebra.Order.Ring.Int
import Mathlib.Tactic.Linarith
import Mathlib.Tactic.Positivity

/-!
# Fixed-width integers

Machine integers as integers in the range of their width. `signed` and
`unsigned` are what an operation or a cast leaves of a value when it wraps;
`signed?` and `unsigned?` refuse a value that does not fit. Where every step of
a computation is accepted, wrapping changes none of them.
-/

namespace FixedWidth

/-- The value fits a signed integer of this width. -/
def Signed (w : Nat) (n : Int) : Prop := -2 ^ (w - 1) ≤ n ∧ n < 2 ^ (w - 1)

/-- The value fits an unsigned integer of this width. -/
def Unsigned (w : Nat) (n : Int) : Prop := 0 ≤ n ∧ n < 2 ^ w

instance (w : Nat) (n : Int) : Decidable (Signed w n) := inferInstanceAs (Decidable (_ ∧ _))

instance (w : Nat) (n : Int) : Decidable (Unsigned w n) := inferInstanceAs (Decidable (_ ∧ _))

def signed (w : Nat) (n : Int) : Int := n.bmod (2 ^ w)

def unsigned (w : Nat) (n : Int) : Int := n % 2 ^ w

def signed? (w : Nat) (n : Int) : Option Int := if Signed w n then some n else none

def unsigned? (w : Nat) (n : Int) : Option Int := if Unsigned w n then some n else none

-- ---------------------------------------------------------------------------
-- Wrapping
-- ---------------------------------------------------------------------------

theorem pow_pred_double {w : Nat} (hw : 0 < w) : (2 : Int) ^ w = 2 * 2 ^ (w - 1) := by
  obtain ⟨w, rfl⟩ := Nat.exists_eq_add_one.mpr hw
  simp [pow_succ, mul_comm]

theorem signed_of_fits {w : Nat} {n : Int} (hw : 0 < w) (h : Signed w n) : signed w n = n := by
  have hpow := pow_pred_double hw
  obtain ⟨hlow, hhigh⟩ := h
  refine Int.bmod_eq_of_le ?_ ?_ <;> push_cast <;> omega

theorem unsigned_of_fits {w : Nat} {n : Int} (h : Unsigned w n) : unsigned w n = n :=
  Int.emod_eq_of_lt h.1 h.2

theorem unsigned_fits (w : Nat) (n : Int) : Unsigned w (unsigned w n) :=
  ⟨Int.emod_nonneg _ (by positivity), Int.emod_lt_of_pos _ (by positivity)⟩

theorem signed_fits {w : Nat} (hw : 0 < w) (n : Int) : Signed w (signed w n) := by
  have hpow := pow_pred_double hw
  have hlow := @Int.le_bmod n (2 ^ w) (by positivity)
  have hhigh := @Int.bmod_lt n (2 ^ w) (by positivity)
  push_cast at hlow hhigh
  unfold Signed signed
  omega

/-- A wrapped value is off by whole turns. -/
theorem signed_eq_add (w : Nat) (n : Int) : ∃ k : Int, signed w n = n + k * 2 ^ w := by
  refine ⟨-(n.bdiv (2 ^ w)), ?_⟩
  have h := Int.bmod_add_bdiv n (2 ^ w)
  push_cast at h
  unfold signed
  linarith

theorem signed_sub_signed (w : Nat) (a b : Int) :
    signed w (signed w a - signed w b) = signed w (a - b) :=
  (Int.sub_bmod a b (2 ^ w)).symm

theorem signed_signed_add (w : Nat) (a b : Int) : signed w (signed w a + b) = signed w (a + b) :=
  Int.bmod_add_bmod ..

-- ---------------------------------------------------------------------------
-- Refusing
-- ---------------------------------------------------------------------------

theorem signed?_eq_some {w : Nat} {n m : Int} : signed? w n = some m ↔ Signed w n ∧ n = m := by
  simp [signed?]

theorem unsigned?_eq_some {w : Nat} {n m : Int} :
    unsigned? w n = some m ↔ Unsigned w n ∧ n = m := by
  simp [unsigned?]

end FixedWidth
