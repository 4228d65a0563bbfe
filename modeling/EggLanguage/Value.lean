/-
# EggLanguage.Value -- the values of Egg programs

A value is a constant or a function that a program defined.  Such a function
holds the scope it was defined in, so that later definitions there are seen when
it is called, and the dialect it was defined under.  Two functions are equal only
if they are one function: `identity` numbers them as they are made.
-/
import EggLanguage.Expr.Basic

namespace EggLanguage

set_option autoImplicit false

/-- A function defined by a program. -/
structure Closure where
  identity : Nat
  parameters : List String
  body : Expr
  scope : ScopeId
  dialect : DialectId
  deriving Repr

/-- What an expression evaluates to. -/
inductive Value where
  | constant (value : Constant)
  | closure (function : Closure)
  deriving Repr

namespace Value

@[match_pattern] abbrev int (n : Int) : Value := constant (.int n)
@[match_pattern] abbrev float (x : Number.Double) : Value := constant (.float x)
@[match_pattern] abbrev string (s : String) : Value := constant (.string s)
@[match_pattern] abbrev bool (b : Bool) : Value := constant (.bool b)
@[match_pattern] abbrev builtin (b : Builtin) : Value := constant (.builtin b)

instance : Inhabited Value := ⟨bool false⟩

def type : Value → ValueType
  | constant c => c.type
  | closure _ => .closure

/-- Every value but the boolean false counts as true, also zero and the empty
string. -/
def isTruthy : Value → Bool
  | bool b => b
  | _ => true

/-- What `print` shows for a value. -/
def display : Value → String
  | constant c => String.ofList c.display
  | closure f =>
      if f.parameters = [] then "<function>"
      else "<function " ++ String.intercalate ", " f.parameters ++ ">"

/-- The literal that holds a value. -/
def node (span : Span) : Value → Expr
  | constant c => .literal c span
  | closure f => .function f.identity f.parameters f.body f.scope f.dialect span

end Value

end EggLanguage
