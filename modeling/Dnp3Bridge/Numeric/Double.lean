import Mathlib.Data.Rat.Defs
import Mathlib.Algebra.Order.Ring.Unbundled.Rat
import Mathlib.Algebra.Order.Group.Unbundled.Abs

/-!
# Exact doubles

A `double` is taken as an exact number extended with the two infinities and NaN: arithmetic does not
round, comparisons with NaN are false.
-/

namespace Dnp3Bridge

/-- A floating-point number without rounding. -/
inductive Double where
  | finite (x : ℚ)
  | posInf
  | negInf
  | nan
  deriving DecidableEq

namespace Double

/-- The number is neither infinite nor NaN (`std::isfinite`). -/
def isFinite : Double → Bool
  | .finite _ => true
  | _ => false

/-- The difference of two doubles; `∞ - ∞` is NaN. -/
def sub : Double → Double → Double
  | .finite x, .finite y => .finite (x - y)
  | .finite _, .posInf => .negInf
  | .finite _, .negInf => .posInf
  | .posInf, .finite _ => .posInf
  | .posInf, .negInf => .posInf
  | .negInf, .finite _ => .negInf
  | .negInf, .posInf => .negInf
  | _, _ => .nan

/-- The absolute value of a double (`std::fabs`). -/
def fabs : Double → Double
  | .finite x => .finite |x|
  | .posInf => .posInf
  | .negInf => .posInf
  | .nan => .nan

/-- The comparison `a > b`; it fails on NaN. -/
def gt : Double → Double → Bool
  | .finite x, .finite y => decide (y < x)
  | .finite _, .negInf => true
  | .posInf, .finite _ => true
  | .posInf, .negInf => true
  | _, _ => false

/-- A number is finite. -/
@[simp]
lemma isFinite_finite (x : ℚ) : (Double.finite x).isFinite = true := rfl

/-- A finite double is a number. -/
lemma eq_finite {v : Double} (h : v.isFinite = true) : ∃ x, v = .finite x := by
  cases v with
  | finite x => exact ⟨x, rfl⟩
  | _ => cases h

end Double

end Dnp3Bridge
