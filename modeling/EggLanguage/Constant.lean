/-
# EggLanguage.Constant -- the values that stand by themselves

A constant is a value that refers to no scope: a number, a string, a boolean or
a built-in function.  Constants are what literals hold, and together with the
functions that programs define they are the values of Egg.

A constant has two written forms.  `Constant.spelling` is its text as a literal
of a program; `Constant.display` is what `print` shows, where strings have no
quotes and a fractional number without a fraction is written as a whole number.
`Constant.outline` is how it stands in the outline of a tree.
-/
import EggLanguage.Number.Decimal
import EggLanguage.Number.Numeral
import EggLanguage.Text.Quoted

namespace EggLanguage

set_option autoImplicit false

open EggLanguage.Number (Double)

/-- The operators on two values. -/
inductive Operator where
  | add
  | subtract
  | multiply
  | divide
  | equal
  | less
  | greater
  deriving DecidableEq, Repr

namespace Operator

/-- The word an operator is bound to. -/
def symbol : Operator → String
  | add => "+"
  | subtract => "-"
  | multiply => "*"
  | divide => "/"
  | equal => "=="
  | less => "<"
  | greater => ">"

/-- All operators, in the order in which a new global scope binds them. -/
def all : List Operator :=
  [add, subtract, multiply, divide, equal, less, greater]

end Operator

/-- The functions that every program starts with. -/
inductive Builtin where
  | operator (op : Operator)
  | print
  deriving DecidableEq, Repr

namespace Builtin

def name : Builtin → String
  | operator op => op.symbol
  | print => "print"

/-- The number of arguments a built-in function takes. -/
def arity : Builtin → Nat
  | operator _ => 2
  | print => 1

end Builtin

/-- The types that messages distinguish. -/
inductive ValueType where
  | int
  | float
  | string
  | bool
  | closure
  | builtin
  deriving DecidableEq, Repr

/-- The name of a type in messages. -/
def ValueType.name : ValueType → String
  | int => "int"
  | float => "float"
  | string => "str"
  | bool => "bool"
  | closure => "Closure"
  | builtin => "Builtin"

/-- A value that refers to no scope. -/
inductive Constant where
  | int (value : Int)
  | float (value : Double)
  | string (value : String)
  | bool (value : Bool)
  | builtin (value : Builtin)
  deriving DecidableEq, Repr

namespace Constant

def type : Constant → ValueType
  | int _ => .int
  | float _ => .float
  | string _ => .string
  | bool _ => .bool
  | builtin _ => .builtin

/-- The spelling of a truth value. -/
def spellBool (b : Bool) : List Char :=
  if b then ['t', 'r', 'u', 'e'] else ['f', 'a', 'l', 's', 'e']

/-- A constant in the outline of a tree: strings are escaped between quotes, and
a built-in function is named with the number of its arguments. -/
def outline : Constant → List Char
  | int n => Number.spellInt n
  | float x => x.spelling
  | string s => Text.quoted s.toList
  | bool b => if b then ['T', 'r', 'u', 'e'] else ['F', 'a', 'l', 's', 'e']
  | builtin b => s!"Builtin(name='{b.name}', nargs={b.arity})".toList

/-- The text of a constant as a literal of a program.  A string stands between
quotes as it is: there are no escapes.  No program text denotes a built-in
function; it is written as in an outline. -/
def spelling : Constant → List Char
  | int n => Number.spellInt n
  | float x => x.spelling
  | string s => '"' :: s.toList ++ ['"']
  | bool b => spellBool b
  | builtin b => outline (builtin b)

/-- What `print` shows for a constant. -/
def display : Constant → List Char
  | int n => Number.spellInt n
  | float x =>
      match x.toInt? with
      | some n => Number.spellInt n
      | none => x.spelling
  | string s => s.toList
  | bool b => spellBool b
  | builtin b => s!"<builtin {b.name}>".toList

/-- Equality of literals: of one type, and equal as values of that type. -/
def same : Constant → Constant → Bool
  | int a, int b => a == b
  | float a, float b => a.eq b
  | string a, string b => a == b
  | bool a, bool b => a == b
  | builtin a, builtin b => a == b
  | _, _ => false

end Constant

end EggLanguage
