/-
# EggLanguage.Expr.Basic -- the expressions of Egg

Everything in Egg is an expression: a literal, a word, or an application of an
expression to arguments.  Each node knows the span it was read from; spans do
not count for equality (`Expr.same`).

Two nodes are made by hosts of the interpreter only: no program text denotes
them.  A `function` is a literal that holds a function made before, and
`abstract` is a node that was left unspecified.

`Expr.spelling` writes an expression as program text.  A function that stands in
it is written by the outline of its body (`Expr.outline`), which names every node
and its parts; an `abstract` node has no text.
-/
import EggLanguage.Failure

namespace EggLanguage

set_option autoImplicit false

/-- A scope of a store. -/
abbrev ScopeId := Nat

/-- The set of special forms that an expression is evaluated with. -/
abbrev DialectId := Nat

/-- An expression, with the spans its nodes were read from. -/
inductive Expr where
  | literal (value : Constant) (span : Span)
  /-- A word refers to a binding, or names a special form where it is applied. -/
  | word (name : String) (span : Span)
  | apply (operator : Expr) (args : List Expr) (span : Span)
  /-- A function made before: its number, its parameters and body, and the scope
  and the dialect it belongs to. -/
  | function (identity : Nat) (parameters : List String) (body : Expr) (scope : ScopeId)
      (dialect : DialectId) (span : Span)
  | abstract
  deriving Repr

instance : Inhabited Expr := ⟨.abstract⟩

namespace Expr

/-- The place to blame for a failure of this node. -/
def place? : Expr → Option Place
  | literal _ span => some span.place
  | word _ span => some span.place
  | apply _ _ span => some span.place
  | function _ _ _ _ _ span => some span.place
  | abstract => none

/-! ## Outlines -/

/-- Parts between parentheses.  A single part has a comma after it. -/
def outlineParts : List (List Char) → List Char
  | [part] => '(' :: part ++ [',', ')']
  | parts => '(' :: [',', ' '].intercalate parts ++ [')']

/-- A function in an outline, given the outline of its body. -/
def outlineFunction (parameters : List String) (body : List Char) : List Char :=
  "Closure(params=".toList ++ outlineParts (parameters.map fun name => Text.quoted name.toList) ++
    ", body=".toList ++ body ++ [')']

mutual

/-- The outline of an expression: the kind of every node with its parts. -/
def outline : Expr → List Char
  | literal value _ => "Literal(value=".toList ++ value.outline ++ [')']
  | word name _ => "VariableRef(name=".toList ++ Text.quoted name.toList ++ [')']
  | apply operator args _ =>
      "Apply(operator=".toList ++ operator.outline ++ ", args=".toList ++
        outlineParts (outlines args) ++ [')']
  | function _ parameters body _ _ _ =>
      "Literal(value=".toList ++ outlineFunction parameters body.outline ++ [')']
  | abstract => []

def outlines : List Expr → List (List Char)
  | [] => []
  | e :: rest => e.outline :: outlines rest

end

/-! ## Writing -/

mutual

/-- The text of an expression: arguments are separated by a comma and a space,
and there is no other white space outside strings. -/
def spelling : Expr → List Char
  | literal value _ => value.spelling
  | word name _ => name.toList
  | apply operator args _ => operator.spelling ++ '(' :: spellArgs args
  | function _ parameters body _ _ _ => outlineFunction parameters body.outline
  | abstract => []

/-- The arguments of an application and the parenthesis that closes them. -/
def spellArgs : List Expr → List Char
  | [] => [')']
  | e :: rest => e.spelling ++ spellMoreArgs rest

/-- The arguments after the first, each after its comma. -/
def spellMoreArgs : List Expr → List Char
  | [] => [')']
  | e :: rest => ',' :: ' ' :: e.spelling ++ spellMoreArgs rest

end

mutual

/-- No node of the expression is abstract. -/
def isConcrete : Expr → Bool
  | literal _ _ => true
  | word _ _ => true
  | apply operator args _ => operator.isConcrete && areConcrete args
  | function _ _ body _ _ _ => body.isConcrete
  | abstract => false

def areConcrete : List Expr → Bool
  | [] => true
  | e :: rest => e.isConcrete && areConcrete rest

end

mutual

/-- How many applications at most lie around a node of the expression. -/
def height : Expr → Nat
  | apply operator args _ => max operator.height (heightOfArgs args) + 1
  | function _ _ body _ _ _ => body.height + 1
  | _ => 0

def heightOfArgs : List Expr → Nat
  | [] => 0
  | e :: rest => max e.height (heightOfArgs rest)

end

/-- The text of an expression, if it has one and the stack has room for writing
it. -/
def text (limit : Nat) (e : Expr) : Except Crash String :=
  if limit < e.height then .error .stackExhausted
  else if e.isConcrete then .ok (String.ofList e.spelling)
  else .error .abstractText

/-! ## Equality up to spans -/

mutual

/-- Equality of two nodes, whatever text they were read from. -/
def same : Expr → Expr → Bool
  | literal a _, literal b _ => a.same b
  | word a _, word b _ => a == b
  | apply f as _, apply g bs _ => f.same g && sameArgs as bs
  | function a _ _ _ _ _, function b _ _ _ _ _ => a == b
  | _, _ => false

def sameArgs : List Expr → List Expr → Bool
  | [], [] => true
  | a :: as, b :: bs => a.same b && sameArgs as bs
  | _, _ => false

end

/-- Whether a node equals itself.  Only a literal can fail to, when its value is
not a number. -/
def sameAsItself : Expr → Bool
  | literal value _ => value.same value
  | _ => true

/-- Which of the given nodes are equal to which. -/
def equalities (nodes : List Expr) : List (List Bool) :=
  nodes.zipIdx.map fun (a, i) =>
    nodes.zipIdx.map fun (b, j) => if i = j then a.sameAsItself else a.same b

/-- The nodes without those that are equal to an earlier one. -/
def distinct (nodes : List Expr) : List Expr :=
  nodes.foldl (fun kept e => if kept.any e.same then kept else kept ++ [e]) []

end Expr

end EggLanguage
