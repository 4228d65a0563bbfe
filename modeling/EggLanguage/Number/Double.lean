/-
# EggLanguage.Number.Double -- binary floating point, exactly

Egg's fractional numbers are the doubles of IEEE 754: 53 binary digits of
precision, exponents down to -1074, two infinities and a value that is not a
number.  Nothing here computes with machine floats.  A finite double is a sign
and a `rank`, its place among the non-negative doubles counted from zero, so
every value has one representation and the neighbours of a rank are the ranks
next to it.

Every finite double is a whole number of *units* of `2 ^ -1074`
(`unitsOfRank`), so each operation is an exact computation on natural numbers
followed by the single rounding `roundRatio`, to the nearest double with a half
going to the even neighbour.
-/
namespace EggLanguage.Number

set_option autoImplicit false

/-- The number of significands that doubles of one exponent have. -/
abbrev significands : Nat := Nat.pow 2 52

/-- The ranks of the finite doubles lie below this bound: there are 2047 exponents. -/
abbrev finiteRanks : Nat := 2047 * significands

/-- A binary64 floating-point number. -/
inductive Double where
  | finite (negative : Bool) (rank : Fin finiteRanks)
  | infinite (negative : Bool)
  | nan
  deriving DecidableEq, Repr

namespace Double

/-- The number of units of `2 ^ -1074` in one. -/
abbrev unitsPerOne : Nat := Nat.pow 2 1074

/-! ## Ranks and units -/

/-- How many units the double of this rank is worth.  The rank is read as an
exponent and 52 digits after the leading one, which the lowest exponent lacks. -/
def unitsOfRank (rank : Nat) : Nat :=
  if rank < significands then rank
  else (significands + rank % significands) * Nat.pow 2 (rank / significands - 1)

/-- The rank nearest to `num / den` units, a half going to the even rank.  The
result is a finite rank or, where the quotient is too large, beyond all of them. -/
def roundRank (num den : Nat) : Nat :=
  let dropped := (num / den).log2 - 52
  let grain := den * Nat.pow 2 dropped
  let kept := num / grain
  let remainder := num % grain
  let rounded :=
    if 2 * remainder < grain then kept
    else if grain < 2 * remainder then kept + 1
    else kept + kept % 2
  dropped * significands + rounded

/-- The double nearest to `num / den` units with the given sign. -/
def roundRatio (negative : Bool) (num den : Nat) : Double :=
  let rank := roundRank num den
  if bounded : rank < finiteRanks then .finite negative ⟨rank, bounded⟩ else .infinite negative

/-- The units of a rank under a sign. -/
def signedUnits (negative : Bool) (rank : Nat) : Int :=
  if negative then -(unitsOfRank rank : Int) else unitsOfRank rank

def isZero : Double → Bool
  | .finite _ rank => rank.val = 0
  | _ => false

/-! ## From and to whole numbers -/

/-- The double nearest to a whole number, infinite if there is none. -/
def ofInt (n : Int) : Double :=
  roundRatio (decide (n < 0)) (n.natAbs * unitsPerOne) 1

/-- The quotient of two whole numbers, rounded once.  The divisor is not zero. -/
def ofQuotient (a b : Int) : Double :=
  roundRatio (decide (a < 0) != decide (b < 0)) (a.natAbs * unitsPerOne) b.natAbs

/-- The double nearest to `digits * 10 ^ exponent`. -/
def ofDecimal (negative : Bool) (digits : Nat) (exponent : Int) : Double :=
  roundRatio negative (digits * unitsPerOne * Nat.pow 10 exponent.toNat)
    (Nat.pow 10 (-exponent).toNat)

/-- The whole number that a double is equal to, if there is one. -/
def toInt? : Double → Option Int
  | .finite negative rank =>
      let units := signedUnits negative rank
      if units % unitsPerOne = 0 then some (units / unitsPerOne) else none
  | _ => none

/-! ## Arithmetic -/

def negate : Double → Double
  | .finite negative rank => .finite (!negative) rank
  | .infinite negative => .infinite (!negative)
  | .nan => .nan

/-- The exact sum is rounded once; a sum of zero is negative only if both
operands are. -/
def add : Double → Double → Double
  | .nan, _ => .nan
  | _, .nan => .nan
  | .infinite a, .infinite b => if a = b then .infinite a else .nan
  | .infinite a, .finite _ _ => .infinite a
  | .finite _ _, .infinite b => .infinite b
  | .finite a r, .finite b s =>
      let sum := signedUnits a r + signedUnits b s
      roundRatio (if sum = 0 then a && b else decide (sum < 0)) sum.natAbs 1

def sub (x y : Double) : Double :=
  add x y.negate

def mul : Double → Double → Double
  | .nan, _ => .nan
  | _, .nan => .nan
  | .infinite a, .infinite b => .infinite (a != b)
  | .infinite a, .finite b s => if s.val = 0 then .nan else .infinite (a != b)
  | .finite a r, .infinite b => if r.val = 0 then .nan else .infinite (a != b)
  | .finite a r, .finite b s => roundRatio (a != b) (unitsOfRank r * unitsOfRank s) unitsPerOne

/-- The quotient of two doubles.  The divisor is not zero. -/
def div : Double → Double → Double
  | .nan, _ => .nan
  | _, .nan => .nan
  | .infinite _, .infinite _ => .nan
  | .infinite a, .finite b _ => .infinite (a != b)
  | .finite a _, .infinite b => .finite (a != b) ⟨0, by decide⟩
  | .finite a r, .finite b s =>
      roundRatio (a != b) (unitsOfRank r * unitsPerOne) (unitsOfRank s)

/-! ## Comparison -/

/-- An exact point of the extended number line, in units: what is left of a
number when only its size matters. -/
inductive Point where
  | below
  | at (units : Int)
  | above
  deriving DecidableEq, Repr

def Point.lt : Point → Point → Bool
  | .below, .below => false
  | .below, _ => true
  | .at a, .at b => decide (a < b)
  | .at _, .above => true
  | _, _ => false

/-- The place of a double on the number line.  Both zeros have one place, and
what is not a number has none. -/
def point? : Double → Option Point
  | .nan => none
  | .infinite negative => some (if negative then .below else .above)
  | .finite negative rank => some (.at (signedUnits negative rank))

def pointOfInt (n : Int) : Point :=
  .at (n * unitsPerOne)

/-- Equality as numbers. -/
def eq (x y : Double) : Bool :=
  match x.point?, y.point? with
  | some p, some q => p == q
  | _, _ => false

end Double

end EggLanguage.Number
