/-
# EggLanguage.Dialect -- special forms

A special form is a word that, where it is applied, receives its arguments as
expressions and decides itself what to evaluate and in which order.  The words
that do so, each with its `Form`, make up a dialect.  The standard dialect has
`if`, `while`, `do`, `define` and `fun`; a dialect can be extended by further
forms (`Dialect.extend`), which may also replace standard ones.
-/
import EggLanguage.Eval

namespace EggLanguage

set_option autoImplicit false

/-- What a special form can use: the evaluation of expressions in a scope, the
dialect they are evaluated in, and how many rounds a loop may take. -/
structure Evaluator where
  dialect : DialectId
  evaluate : Expr → ScopeId → Eval Value
  rounds : Nat

/-- The meaning of a special form applied to unevaluated arguments in a scope. -/
abbrev Form := Evaluator → List Expr → ScopeId → Eval Value

namespace Form

/-- `if(condition, then, otherwise)`: only the boolean false selects `otherwise`. -/
def conditional : Form
  | it, [condition, consequence, alternative], scope => do
      if (← it.evaluate condition scope).isTruthy then it.evaluate consequence scope
      else it.evaluate alternative scope
  | _, _, _ => Eval.fail (.argumentCount "if")

/-- `while(condition, body)`: a loop has no value of its own, so its value is
false. -/
def loop : Form
  | it, [condition, body], scope => do
      let round : Eval Bool := do
        if (← it.evaluate condition scope).isTruthy then
          let _ ← it.evaluate body scope
          return true
        else return false
      Eval.repeatWhile round it.rounds
      return .bool false
  | _, _, _ => Eval.fail (.argumentCount "while")

/-- The value of the last expression, or the given one if there is none. -/
def inOrder (it : Evaluator) (scope : ScopeId) (last : Value) : List Expr → Eval Value
  | [] => return last
  | e :: rest => do inOrder it scope (← it.evaluate e scope) rest

/-- `do(expression, ...)`: the value of the last expression, false if there is
none. -/
def sequence : Form := fun it args scope =>
  inOrder it scope (.bool false) args

/-- `define(name, value)`: binds the name in the current scope and in no other. -/
def definition : Form
  | it, [.word name _, e], scope => do
      let value ← it.evaluate e scope
      Eval.bind scope name value
      return value
  | _, _, _ => Eval.fail .badDefinition

/-- The names of the parameters of a function.  The first that is not a word is
to blame. -/
def parameterNames : List Expr → Except Stop (List String)
  | [] => .ok []
  | .word name _ :: rest => (parameterNames rest).map (name :: ·)
  | other :: _ =>
      match other.place? with
      | some place => .error (.failure ⟨.parameterNotWord, place⟩)
      | none => .error (.crash .abstractPlace)

/-- `fun(parameter, ..., body)`: a function over the current scope. -/
def function : Form := fun it args scope => do
  match args.getLast? with
  | none => Eval.fail .missingBody
  | some body =>
      let parameters ← Eval.ofExcept (parameterNames args.dropLast)
      Eval.newFunction parameters body scope it.dialect

end Form

/-- Special forms by the words that name them. -/
abbrev Dialect := Ordered Form

namespace Dialect

/-- The forms that every program can use. -/
def standard : Dialect :=
  [("if", Form.conditional), ("while", Form.loop), ("do", Form.sequence),
    ("define", Form.definition), ("fun", Form.function)]

/-- The standard dialect with further forms, of which later ones replace earlier
ones of the same name. -/
def extend (forms : List (String × Form)) : Dialect :=
  Ordered.putAll forms standard

/-- The form that an operator names. -/
def form? (dialect : Dialect) : Expr → Option Form
  | .word name _ => dialect.find? name
  | _ => none

end Dialect

end EggLanguage
