/-
# EggLanguage.Store -- scopes, and what a program leaves behind

A store holds all scopes a program has made.  A scope binds names and may have a
parent; a name is looked up in the scope, then in its parent, and so on
(`Store.lookup?`), while a binding is made in one scope only (`Store.bind`).
Scopes are only ever added, so a scope is older than its children; the `chain` of
scopes that a name is looked up in therefore ends.  What a change does to the
bindings and the parent of each scope is said beside it (`bindings_bind`,
`parent?_newScope`).

The store also keeps the values that were printed, in order, and numbers the
functions and sources that were made.
-/
import EggLanguage.Ordered
import EggLanguage.Text.Quoted
import EggLanguage.Value

namespace EggLanguage

set_option autoImplicit false

/-- A scope: its own bindings and the scope around it. -/
structure Scope where
  bindings : Ordered Value
  parent : Option ScopeId
  deriving Repr

/-- All that the evaluation of programs reads and changes. -/
structure Store where
  scopes : Array Scope
  printed : Array Value
  functions : Nat
  sources : Nat
  deriving Repr

namespace Store

def empty : Store :=
  ⟨#[], #[], 0, 0⟩

instance : Inhabited Store := ⟨empty⟩

/-! ## Reading -/

/-- The own bindings of a scope. -/
def bindings (s : Store) (scope : ScopeId) : Ordered Value :=
  match s.scopes[scope]? with
  | some found => found.bindings
  | none => []

/-- The scope around a scope. -/
def parent? (s : Store) (scope : ScopeId) : Option ScopeId :=
  match s.scopes[scope]? with
  | some found => found.parent
  | none => none

/-- A scope and the scopes around it, at most `length` of them. -/
def chainWithin (s : Store) : (length : Nat) → ScopeId → List ScopeId
  | 0, _ => []
  | length + 1, scope =>
      scope ::
        match s.parent? scope with
        | some parent => chainWithin s length parent
        | none => []

/-- A scope and the scopes around it, innermost first.  Parents are older than
their children, so no chain is longer than this. -/
def chain (s : Store) (scope : ScopeId) : List ScopeId :=
  s.chainWithin (scope + 1) scope

/-- The value of a name in the innermost scope that binds it. -/
def lookup? (s : Store) (scope : ScopeId) (name : String) : Option Value :=
  (s.chain scope).findSome? fun i => (s.bindings i).find? name

/-- Whether a name is bound in a scope or around it. -/
def contains (s : Store) (scope : ScopeId) (name : String) : Bool :=
  (s.chain scope).any fun i => ((s.bindings i).find? name).isSome

/-- The names bound directly in a scope, in the order of their first binding. -/
def names (s : Store) (scope : ScopeId) : List String :=
  (s.bindings scope).names

/-- A scope in words: its own names, and whether there is a scope around it. -/
def describe (s : Store) (scope : ScopeId) : String :=
  let names := (s.names scope).map fun name => String.ofList (Text.quoted name.toList)
  "Environment(names=[" ++ String.intercalate ", " names ++ "], parent=" ++
    (if (s.parent? scope).isSome then "yes" else "no") ++ ")"

/-! ## Changing -/

/-- Bind a name in one scope. -/
def bind (s : Store) (scope : ScopeId) (name : String) (value : Value) : Store :=
  { s with
    scopes := s.scopes.modify scope fun found =>
      { found with bindings := found.bindings.put name value } }

/-- The store with one more scope, and that scope. -/
def newScope (s : Store) (bindings : Ordered Value) (parent : Option ScopeId) : ScopeId × Store :=
  (s.scopes.size, { s with scopes := s.scopes.push ⟨bindings, parent⟩ })

/-- The store after a value was printed. -/
def print (s : Store) (value : Value) : Store :=
  { s with printed := s.printed.push value }

/-- A function that differs from all others. -/
def newFunction (s : Store) (parameters : List String) (body : Expr) (scope : ScopeId)
    (dialect : DialectId) : Value × Store :=
  (.closure ⟨s.functions, parameters, body, scope, dialect⟩, { s with functions := s.functions + 1 })

/-- A reading of a text that differs from all others. -/
def newSource (s : Store) (text : String) : Source × Store :=
  (⟨s.sources, text⟩, { s with sources := s.sources + 1 })

/-- The global scope that programs start from: truth values, operators and
`print`. -/
def globalBindings : Ordered Value :=
  ("true", .bool true) :: ("false", .bool false) ::
    (Operator.all.map fun op => (op.symbol, .builtin (.operator op))) ++
    [("print", .builtin .print)]

/-! ## What a change changes -/

section

variable (s : Store) (scope other : ScopeId) (name : String) (value : Value)
  (given : Ordered Value) (parent : Option ScopeId)

@[simp] theorem size_bind : (s.bind scope name value).scopes.size = s.scopes.size := by
  simp [bind]

@[simp] theorem parent?_bind : (s.bind scope name value).parent? other = s.parent? other := by
  simp only [parent?, bind, Array.getElem?_modify]
  by_cases same : scope = other
  · rw [if_pos same]
    cases s.scopes[other]? <;> rfl
  · rw [if_neg same]

theorem bindings_bind :
    (s.bind scope name value).bindings other =
      if other = scope ∧ scope < s.scopes.size then (s.bindings other).put name value
      else s.bindings other := by
  simp only [bindings, bind, Array.getElem?_modify]
  by_cases same : scope = other
  · subst same
    by_cases inStore : scope < s.scopes.size <;> simp [inStore]
  · simp [same, Ne.symm same]

@[simp] theorem size_newScope :
    (s.newScope given parent).2.scopes.size = s.scopes.size + 1 := by
  simp [newScope]

@[simp] theorem newScope_fst : (s.newScope given parent).1 = s.scopes.size :=
  rfl

theorem parent?_newScope :
    (s.newScope given parent).2.parent? other =
      if other = s.scopes.size then parent else s.parent? other := by
  simp only [parent?, newScope, Array.getElem?_push]
  by_cases new : other = s.scopes.size
  · rw [if_pos new, if_pos new]
  · rw [if_neg new, if_neg new]

theorem bindings_newScope :
    (s.newScope given parent).2.bindings other =
      if other = s.scopes.size then given else s.bindings other := by
  simp only [bindings, newScope, Array.getElem?_push]
  by_cases new : other = s.scopes.size
  · rw [if_pos new, if_pos new]
  · rw [if_neg new, if_neg new]

end

end Store

end EggLanguage
