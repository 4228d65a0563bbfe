/-
# EggLanguage.Arithmetic -- what the operators do

Numbers are whole numbers of any size and doubles; booleans count as one and
zero.  Two whole numbers are added, subtracted and multiplied exactly.  A
quotient, and whatever a double takes part in, is a double: whole numbers are
first rounded to the nearest double and then the operation is rounded once.
Comparisons are exact, also between whole numbers and doubles.

Strings are joined by `+`, repeated by `*` and compared character by character.
`Operator.apply` says when an operator refuses its operands and why.
-/
import EggLanguage.Value

namespace EggLanguage

set_option autoImplicit false

open EggLanguage.Number (Double)

/-! ## Numbers -/

/-- A number as the operators see it. -/
inductive Numeric where
  | whole (n : Int)
  | fractional (x : Double)
  deriving DecidableEq, Repr

namespace Numeric

/-- The nearest double, if the number is not beyond the doubles. -/
def toDouble? : Numeric → Option Double
  | fractional x => some x
  | whole n =>
      match Double.ofInt n with
      | .infinite _ => none
      | x => some x

/-- The place of a number on the number line. -/
def point? : Numeric → Option Double.Point
  | whole n => some (Double.pointOfInt n)
  | fractional x => x.point?

def eq (a b : Numeric) : Bool :=
  match a.point?, b.point? with
  | some p, some q => p == q
  | _, _ => false

def lt (a b : Numeric) : Bool :=
  match a.point?, b.point? with
  | some p, some q => p.lt q
  | _, _ => false

/-- An operation that is exact on whole numbers. -/
def compute (exact : Int → Int → Int) (rounded : Double → Double → Double) :
    Numeric → Numeric → Except Refusal Constant
  | whole a, whole b => .ok (.int (exact a b))
  | a, b =>
      match a.toDouble?, b.toDouble? with
      | some x, some y => .ok (.float (rounded x y))
      | _, _ => .error .operandTooLarge

def divide : Numeric → Numeric → Except Refusal Constant
  | whole a, whole b =>
      if b = 0 then .error .divisionByZero
      else
        match Double.ofQuotient a b with
        | .infinite _ => .error .quotientTooLarge
        | x => .ok (.float x)
  | a, b =>
      match a.toDouble?, b.toDouble? with
      | some x, some y =>
          if y.isZero then .error .fractionalDivisionByZero else .ok (.float (x.div y))
      | _, _ => .error .operandTooLarge

end Numeric

/-- The number that a value counts as. -/
def Value.numeric? : Value → Option Numeric
  | .int n => some (.whole n)
  | .float x => some (.fractional x)
  | .bool b => some (.whole (if b then 1 else 0))
  | _ => none

/-! ## Strings -/

/-- The counts and lengths that the machine has room for lie below this bound. -/
def wordBound : Int := Nat.pow 2 63

/-- No string of this many characters or more fits into memory. -/
def memoryBound : Int := Nat.pow 2 32

/-- A string repeated `count` times, none if the memory has no room for it. -/
def repetition (s : String) (count : Int) : Except Refusal (Option Constant) :=
  if count < -wordBound ∨ wordBound ≤ count then .error .countTooLarge
  else if wordBound ≤ s.length * count then .error .repetitionTooLong
  else if memoryBound ≤ s.length * count then .ok none
  else if s.length = 0 then .ok (some (.string ""))
  else .ok (some (.string (String.ofList (List.replicate count.toNat s.toList).flatten)))

/-! ## Operators -/

/-- Equality as `==` sees it: numbers by value, strings by their characters,
functions by identity, and values of other types not at all. -/
def Value.equal (a b : Value) : Bool :=
  match a.numeric?, b.numeric? with
  | some m, some n => m.eq n
  | _, _ =>
      match a, b with
      | .string s, .string t => s == t
      | .builtin f, .builtin g => f == g
      | .closure f, .closure g => f.identity == g.identity
      | _, _ => false

/-- Whether one number or string comes before another; other values have no order. -/
def Value.precedes? (a b : Value) : Option Bool :=
  match a.numeric?, b.numeric? with
  | some m, some n => some (m.lt n)
  | _, _ =>
      match a, b with
      | .string s, .string t => some (decide (s.toList < t.toList))
      | _, _ => none

namespace Operator

def applyAdd (a b : Value) : Except Refusal Constant :=
  match a.numeric?, b.numeric? with
  | some m, some n => m.compute (· + ·) Double.add n
  | _, _ =>
      match a, b with
      | .string s, .string t => .ok (.string (s ++ t))
      | .string _, _ => .error (.appended b.type)
      | _, _ => .error (.unsupported add a.type b.type)

def applySubtract (a b : Value) : Except Refusal Constant :=
  match a.numeric?, b.numeric? with
  | some m, some n => m.compute (· - ·) Double.sub n
  | _, _ => .error (.unsupported subtract a.type b.type)

/-- A product of numbers, or a repeated string; none if it does not fit into
memory. -/
def applyMultiply (a b : Value) : Except Refusal (Option Constant) :=
  match a.numeric?, b.numeric? with
  | some m, some n => (m.compute (· * ·) Double.mul n).map some
  | _, _ =>
      match a, b with
      | .string s, other | other, .string s =>
          match other.numeric? with
          | some (.whole count) => repetition s count
          | _ => .error (.repeatedBy other.type)
      | _, _ => .error (.unsupported multiply a.type b.type)

def applyDivide (a b : Value) : Except Refusal Constant :=
  match a.numeric?, b.numeric? with
  | some m, some n => m.divide n
  | _, _ => .error (.unsupported divide a.type b.type)

/-- The result of an operator, none if it does not fit into memory. -/
def compute (op : Operator) (a b : Value) : Except Refusal (Option Constant) :=
  match op with
  | add => (applyAdd a b).map some
  | subtract => (applySubtract a b).map some
  | multiply => applyMultiply a b
  | divide => (applyDivide a b).map some
  | equal => .ok (some (.bool (a.equal b)))
  | less =>
      match a.precedes? b with
      | some r => .ok (some (.bool r))
      | none => .error (.unordered less a.type b.type)
  | greater =>
      match b.precedes? a with
      | some r => .ok (some (.bool r))
      | none => .error (.unordered greater a.type b.type)

/-- Apply an operator.  A refusal is a failure that names the operator and the
types of its operands. -/
def apply (op : Operator) (a b : Value) : Except Stop Value :=
  match op.compute a b with
  | .ok (some c) => .ok (.constant c)
  | .ok none => .error (.crash .outOfMemory)
  | .error refusal => .error (.ofCause (.operands op a.type b.type refusal))

end Operator

end EggLanguage
