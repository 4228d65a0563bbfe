/-
# EggLanguage.Interpreter -- the evaluation of expressions

An application is evaluated from left to right: the operator, then each argument,
then the call.  Where the operator is a word that names a special form, the form
takes over instead.

A failure is blamed on the innermost node whose evaluation raised it, unless it
knows better already (`Failure.settle`).  When a failure leaves a call that was
read from another source than the failure's place, the call is blamed instead
(`Failure.bringTo`).

`evaluate` recurses on `depth`, the number of evaluations that the stack has room
for.
-/
import EggLanguage.Dialect
import EggLanguage.Limits

namespace EggLanguage

set_option autoImplicit false

/-- What evaluation takes for granted: the dialects that functions refer to, and
the limits. -/
structure Setting where
  dialects : DialectId → Dialect
  limits : Limits

namespace Builtin

/-- Call a built-in function.  `print` returns what it prints. -/
def call : Builtin → List Value → Eval Value
  | .operator op, [a, b] => Eval.ofExcept (op.apply a b)
  | .print, [value] => do
      Eval.print value
      return value
  | f, args => Eval.fail (.arity f.arity args.length)

end Builtin

namespace Closure

/-- Call a function: its body is evaluated in a new scope that binds the
parameters.  Of arguments for one name the last counts. -/
def call (evaluate : DialectId → Expr → ScopeId → Eval Value) (f : Closure) (args : List Value) :
    Eval Value := do
  if args.length = f.parameters.length then
    let scope ← Eval.newScope (Ordered.ofList (f.parameters.zip args)) (some f.scope)
    evaluate f.dialect f.body scope
  else Eval.fail (.arity f.parameters.length args.length)

end Closure

/-- The values that can be called. -/
inductive Function where
  | builtin (f : Builtin)
  | closure (f : Closure)

namespace Function

def call (evaluate : DialectId → Expr → ScopeId → Eval Value) : Function → List Value → Eval Value
  | builtin f, args => f.call args
  | closure f, args => f.call evaluate args

end Function

def Value.function? : Value → Option Function
  | .builtin f => some (.builtin f)
  | .closure f => some (.closure f)
  | _ => none

namespace Setting

/-- Evaluate the arguments of a call from left to right. -/
def evaluateArgs (evaluate : Expr → Eval Value) : List Expr → Eval (List Value)
  | [] => return []
  | e :: rest => do
      let value ← evaluate e
      let values ← evaluateArgs evaluate rest
      return value :: values

/-- The value of an expression in a scope, under a dialect. -/
def evaluate (setting : Setting) : (depth : Nat) → DialectId → Expr → ScopeId → Eval Value
  | 0, _, _, _ => Eval.crash .stackExhausted
  | _ + 1, _, .literal value _, _ => return .constant value
  | _ + 1, _, .function identity parameters body home dialect _, _ =>
      return .closure ⟨identity, parameters, body, home, dialect⟩
  | _ + 1, _, .word name span, scope => (Eval.lookup scope name).onFailure (·.settle span.place)
  | depth + 1, dialect, .apply operator args span, scope =>
      Eval.onFailure (·.settle span.place) <|
        match (setting.dialects dialect).form? operator with
        | some form =>
            form ⟨dialect, evaluate setting depth dialect, setting.limits.rounds⟩ args scope
        | none => do
            let value ← evaluate setting depth dialect operator scope
            match value.function? with
            | none => Eval.fail .notAFunction
            | some f =>
                let values ← evaluateArgs (evaluate setting depth dialect · scope) args
                (f.call (evaluate setting depth) values).onFailure (·.bringTo span)
  | _ + 1, _, .abstract, _ => Eval.crash .abstractValue

/-- The value of an expression in a scope, on an empty stack. -/
def run (setting : Setting) (dialect : DialectId) (e : Expr) (scope : ScopeId) : Eval Value :=
  setting.evaluate setting.limits.depth dialect e scope

/-- Call a value from outside of any program. -/
def callValue (setting : Setting) (value : Value) (args : List Value) : Eval Value :=
  match value.function? with
  | some f => f.call (setting.evaluate setting.limits.depth) args
  | none => Eval.crash (.foreign "TypeError" s!"'{value.type.name}' object is not callable")

end Setting

end EggLanguage
