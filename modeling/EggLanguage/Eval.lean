/-
# EggLanguage.Eval -- computations over a store

An evaluation reads and changes a store and ends with a result, a failure of the
program or a crash.  What it did to the store stays done however it ends.
-/
import EggLanguage.Arithmetic
import EggLanguage.Store

namespace EggLanguage

set_option autoImplicit false

/-- A computation over a store that may stop without a result. -/
abbrev Eval := ExceptT Stop (StateM Store)

/-- The stop with its failure, if it is one, replaced. -/
def Stop.mapFailure (change : Failure → Failure) : Stop → Stop
  | failure f => failure (change f)
  | crash c => crash c

namespace Eval

variable {α : Type}

/-- The program failed. -/
def fail (cause : Cause) : Eval α :=
  throw (.ofCause cause)

def crash (c : Crash) : Eval α :=
  throw (.crash c)

def ofExcept (result : Except Stop α) : Eval α :=
  ExceptT.mk (pure result)

/-- A step that gives a result and a changed store. -/
def step (change : Store → α × Store) : Eval α :=
  ExceptT.lift (modifyGet change)

/-- The computation with the failure it ends with, if any, replaced. -/
def onFailure (change : Failure → Failure) (x : Eval α) : Eval α :=
  ExceptT.adapt (Stop.mapFailure change) x

/-- Take rounds until one says that it was the last; at most `rounds` of them. -/
def repeatWhile (round : Eval Bool) : (rounds : Nat) → Eval Unit
  | 0 => crash .unfinished
  | rounds + 1 => do
      if ← round then repeatWhile round rounds

/-! ## Steps of evaluation -/

/-- The value of a name as seen from a scope. -/
def lookup (scope : ScopeId) (name : String) : Eval Value := do
  match (← get).lookup? scope name with
  | some value => return value
  | none => fail (.undefined name)

def bind (scope : ScopeId) (name : String) (value : Value) : Eval Unit :=
  step fun s => ((), s.bind scope name value)

def newScope (bindings : Ordered Value) (parent : Option ScopeId) : Eval ScopeId :=
  step fun s => s.newScope bindings parent

def newFunction (parameters : List String) (body : Expr) (scope : ScopeId) (dialect : DialectId) :
    Eval Value :=
  step fun s => s.newFunction parameters body scope dialect

def print (value : Value) : Eval Unit :=
  step fun s => ((), s.print value)

end Eval

end EggLanguage
