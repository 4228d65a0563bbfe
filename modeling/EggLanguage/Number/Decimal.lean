/-
# EggLanguage.Number.Decimal -- doubles in decimal

A double is written with the fewest decimal digits that read back as the same
double (`shortest`), the nearest such numeral if there are several.  Around each
finite double lies the interval of the reals that round to it; on the grid of
the multiples of a power of ten only the two neighbours of the double can be the
nearest grid point in that interval, so one pass over the grids of 1 to 17
digits finds the numeral in exact arithmetic.

How the digits are laid out is one record, `Layout.plain`: positional between
`10 ^ -4` and `10 ^ 16`, with an exponent otherwise.  `Double.ofText?` reads
numerals back.
-/
import EggLanguage.Number.Double

namespace EggLanguage.Number

set_option autoImplicit false

/-- The decimal number `coefficient * 10 ^ exponent`. -/
structure Decimal where
  coefficient : Nat
  exponent : Int
  deriving DecidableEq, Repr

namespace Decimal

/-! ## The shortest numeral -/

/-- Whether `num / den` units round to the given rank: it lies between the
midpoints to the neighbours of the rank, or on one of them if the rank is even. -/
def roundsTo (rank num den : Nat) : Bool :=
  let low := (Double.unitsOfRank (rank - 1) + Double.unitsOfRank rank) * den
  let high := (Double.unitsOfRank rank + Double.unitsOfRank (rank + 1)) * den
  if rank % 2 = 0 then low ≤ 2 * num && 2 * num ≤ high else low < 2 * num && 2 * num < high

/-- The multiple of `10 ^ exponent` nearest to the double of a rank, if it
rounds to that rank.  A tie goes to the even multiple. -/
def onGrid? (rank : Nat) (exponent : Int) : Option Decimal :=
  let step := Double.unitsPerOne * Nat.pow 10 exponent.toNat
  let scale := Nat.pow 10 (-exponent).toNat
  let value := Double.unitsOfRank rank * scale
  let below := value / step
  let nearFirst :=
    if 2 * value < (2 * below + 1) * step then [below, below + 1]
    else if (2 * below + 1) * step < 2 * value then [below + 1, below]
    else [below + below % 2, below + 1 - below % 2]
  (nearFirst.find? fun k => roundsTo rank (k * step) scale).map fun k => ⟨k, exponent⟩

/-- The exponent of the leading decimal digit of a positive rank. -/
def leadingExponent (rank : Nat) : Int :=
  let units := Double.unitsOfRank rank
  let whole := units / Double.unitsPerOne
  if whole = 0 then -((Nat.toDigits 10 ((Double.unitsPerOne - 1) / units)).length : Int)
  else (Nat.toDigits 10 whole).length - 1

/-- The shortest decimal number that rounds to a positive rank.  Seventeen
digits always suffice. -/
def shortest (rank : Nat) : Decimal :=
  let leading := leadingExponent rank
  ((List.range 17).findSome? fun (more : Nat) => onGrid? rank (leading - more)).getD ⟨0, 0⟩

/-! ## Layout -/

/-- How a decimal number is laid out: the exponents of the leading digit for
which it is written positionally, and the least width of a written exponent. -/
structure Layout where
  positionalFrom : Int
  positionalBelow : Int
  exponentWidth : Nat

/-- Positional from `0.0001` up to `9999999999999998.0`, always with a fraction;
an exponent has a sign and two digits at least. -/
def Layout.plain : Layout := ⟨-4, 16, 2⟩

/-- The digits of a decimal number without trailing zeros. -/
def significant (x : Decimal) : List Char :=
  ((Nat.toDigits 10 x.coefficient).reverse.dropWhile (· == '0')).reverse

def zeros (n : Nat) : List Char :=
  List.replicate n '0'

/-- The text of a positive decimal number. -/
def spelling (layout : Layout) (x : Decimal) : List Char :=
  let digits := x.significant
  let leading := x.exponent + (Nat.toDigits 10 x.coefficient).length - 1
  if layout.positionalFrom ≤ leading ∧ leading < layout.positionalBelow then
    if leading < 0 then '0' :: '.' :: zeros (-leading - 1).toNat ++ digits
    else
      let whole := leading.toNat + 1
      if digits.length ≤ whole then digits ++ zeros (whole - digits.length) ++ ['.', '0']
      else digits.take whole ++ '.' :: digits.drop whole
  else
    let fraction := if digits.length ≤ 1 then [] else '.' :: digits.drop 1
    let exponent := Nat.toDigits 10 leading.natAbs
    digits.take 1 ++ fraction ++ 'e' :: (if leading < 0 then '-' else '+') ::
      zeros (layout.exponentWidth - exponent.length) ++ exponent

end Decimal

namespace Double

def sign (negative : Bool) (text : List Char) : List Char :=
  if negative then '-' :: text else text

/-- The shortest text that reads back as the same double. -/
def spelling : Double → List Char
  | .nan => ['n', 'a', 'n']
  | .infinite negative => sign negative ['i', 'n', 'f']
  | .finite negative rank =>
      if rank.val = 0 then sign negative ['0', '.', '0']
      else sign negative ((Decimal.shortest rank).spelling .plain)

/-! ## Reading -/

/-- The exponent that a numeral ends with: nothing, or `e`, a sign and digits. -/
def exponentOfText? : List Char → Option Int
  | [] => some 0
  | 'e' :: '-' :: digits => exponentDigits? digits |>.map fun n => -(n : Int)
  | 'e' :: '+' :: digits => exponentDigits? digits |>.map fun n => (n : Int)
  | 'e' :: digits => exponentDigits? digits |>.map fun n => (n : Int)
  | _ => none
where
  exponentDigits? (digits : List Char) : Option Nat :=
    if digits ≠ [] ∧ digits.all Char.isDigit then some (Nat.ofDigitChars 10 digits 0) else none

/-- A numeral without a sign: digits, a fraction and an exponent. -/
def ofNumeral? (negative : Bool) (text : List Char) : Option Double :=
  let whole := text.takeWhile Char.isDigit
  let (fraction, tail) :=
    match text.dropWhile Char.isDigit with
    | '.' :: rest => (rest.takeWhile Char.isDigit, rest.dropWhile Char.isDigit)
    | rest => ([], rest)
  if whole ++ fraction = [] then none
  else
    (exponentOfText? tail).map fun exponent =>
      ofDecimal negative (Nat.ofDigitChars 10 (whole ++ fraction) 0) (exponent - fraction.length)

/-- A numeral or the name of a value that has none. -/
def ofUnsigned? (negative : Bool) (text : List Char) : Option Double :=
  if text = ['n', 'a', 'n'] then some .nan
  else if text = ['i', 'n', 'f'] ∨ text = "infinity".toList then some (.infinite negative)
  else ofNumeral? negative text

/-- The double nearest to what a text denotes, in lower or upper case. -/
def ofText? (text : List Char) : Option Double :=
  match text.map Char.toLower with
  | '-' :: unsigned => ofUnsigned? true unsigned
  | '+' :: unsigned => ofUnsigned? false unsigned
  | unsigned => ofUnsigned? false unsigned

end Double

end EggLanguage.Number
