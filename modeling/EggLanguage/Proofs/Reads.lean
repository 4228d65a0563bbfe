/-
# EggLanguage.Proofs.Reads -- what a program may read

Words that name a special form, are defined or stand for a parameter are not read; all others
are (`Expr.reads`).  A program calls functions too, which read words of their own.  Which it
can call is a question about the store that it starts from: functions that are bound in scopes in
reach (`Store.Callable`, `Store.InReach`).  Here one name may be left out, so that what is bound to
it does not count.

What is in reach is bounded by any region that nothing leads out of (`Region.Closed.callable`).
-/
import EggLanguage.Proofs.Bodies

namespace EggLanguage

set_option autoImplicit false

/-! ## Reads -/

/-- Names that are bound for the members of a list. -/
theorem Ordered.find?_map {α β : Type} (key : β → String) (value : β → α) (name : String)
    (members : List β) :
    find? name (members.map fun m => (key m, value m)) =
      (members.find? fun m => key m = name).map value := by
  induction members with
  | nil => rfl
  | cons m rest ih =>
      rw [List.map_cons, find?, List.find?_cons]
      by_cases here : key m = name <;> simp [here, ih]

def Special.all : List Special :=
  [.conditional, .loop, .sequence, .definition, .function]

namespace Expr

/-- The standard form that the expression names as an operator. -/
def special? : Expr → Option Special
  | word name _ => Special.all.find? fun special => special.word = name
  | _ => none

theorem form?_eq (e : Expr) : Dialect.standard.form? e = e.special?.map Special.form := by
  cases e with
  | word name span => exact Ordered.find?_map Special.word Special.form name Special.all
  | _ => rfl

mutual

/-- The words that are read in an expression.  The word that names a special form is not, nor is
the word that a definition binds, nor a parameter.  What is read by a function that stands in the
expression is left to that function. -/
def reads : Expr → List String
  | literal _ _ => []
  | word name _ => [name]
  | apply operator args _ =>
      match operator.special? with
      | none => operator.reads ++ readsOfArgs args
      | some .definition => readsOfDefinition args
      | some .function => readsOfFunction args
      | some _ => readsOfArgs args
  | function _ _ _ _ _ _ => []
  | abstract => []

def readsOfArgs : List Expr → List String
  | [] => []
  | e :: rest => e.reads ++ readsOfArgs rest

/-- The first argument is what is bound, if it is a word. -/
def readsOfDefinition : List Expr → List String
  | [] => []
  | word _ _ :: rest => readsOfArgs rest
  | e :: rest => e.reads ++ readsOfArgs rest

/-- The last argument is the body, and the words before it are parameters. -/
def readsOfFunction : List Expr → List String
  | [] => []
  | [body] => body.reads
  | word _ _ :: next :: rest => readsOfFunction (next :: rest)
  | e :: next :: rest => e.reads ++ readsOfFunction (next :: rest)

end

theorem mem_readsOfArgs {name : String} {args : List Expr} :
    name ∈ readsOfArgs args ↔ ∃ a ∈ args, name ∈ a.reads := by
  induction args with
  | nil => simp [readsOfArgs]
  | cons a rest ih => simp [readsOfArgs, ih]

theorem mem_readsOfFunction {name : String} {body : Expr} (read : name ∈ body.reads)
    (args : List Expr) : name ∈ readsOfFunction (args ++ [body]) := by
  induction args with
  | nil => exact read
  | cons e rest ih =>
      obtain ⟨next, more, split⟩ := List.exists_cons_of_ne_nil (l := rest ++ [body]) (by simp)
      rw [List.cons_append, split]
      rw [split] at ih
      cases e with
      | word _ _ => exact ih
      | _ => exact List.mem_append_right _ ih

end Expr

/-! ## What is in reach -/

/-- The function stands in the expression, as a value. -/
def Closure.StandsIn (f : Closure) (e : Expr) : Prop :=
  ∃ span, .function f.identity f.parameters f.body f.scope f.dialect span ∈ e.nodes

theorem Closure.StandsIn.of_node {f : Closure} {x e : Expr} (stands : f.StandsIn x)
    (inside : x ∈ e.nodes) : f.StandsIn e :=
  stands.imp fun _ node => Expr.mem_nodes_trans node inside

namespace Store

section

variable (s : Store) (name : String) (e : Expr) (home : ScopeId)

mutual

/-- The scopes that an evaluation can search for names other than the given one: its own, those
that the functions it can call were made in, and those around them. -/
inductive InReach : ScopeId → Prop where
  | home : InReach home
  | around {i p : ScopeId} (within : InReach i) (parent : s.parent? i = some p) : InReach p
  | captured {f : Closure} (callable : Callable f) : InReach f.scope

/-- The functions that an evaluation can come to without reading the given name: those bound to
other names in reach, and those that stand in the expression, or in the body of another one. -/
inductive Callable : Closure → Prop where
  | bound {i : ScopeId} {other : String} {f : Closure} (within : InReach i)
      (different : other ≠ name) (found : (s.bindings i).find? other = some (.closure f)) :
      Callable f
  | standing {f : Closure} (stands : f.StandsIn e) : Callable f
  | inBody {f g : Closure} (callable : Callable f) (stands : g.StandsIn f.body) : Callable g

end

end

end Store

/-- Scopes and functions. -/
structure Region where
  scopes : ScopeId → Prop
  functions : Closure → Prop

/-- Nothing that is in reach from within a region lies beyond it. -/
structure Region.Closed (r : Region) (s : Store) (name : String) (e : Expr) (home : ScopeId) :
    Prop where
  home : r.scopes home
  around : ∀ {i p}, r.scopes i → s.parent? i = some p → r.scopes p
  captured : ∀ {f}, r.functions f → r.scopes f.scope
  bound : ∀ {i other f}, r.scopes i → other ≠ name →
    (s.bindings i).find? other = some (.closure f) → r.functions f
  standing : ∀ {f}, f.StandsIn e → r.functions f
  inBody : ∀ {f g}, r.functions f → g.StandsIn f.body → r.functions g

namespace Region.Closed

variable {r : Region} {s : Store} {name : String} {e : Expr} {home : ScopeId}

mutual

theorem inReach (closed : r.Closed s name e home) :
    ∀ {i : ScopeId}, s.InReach name e home i → r.scopes i
  | _, .home => closed.home
  | _, .around within parent => closed.around (closed.inReach within) parent
  | _, .captured callable => closed.captured (closed.callable callable)

/-- A closed region has all functions that can be called. -/
theorem callable (closed : r.Closed s name e home) :
    ∀ {f : Closure}, s.Callable name e home f → r.functions f
  | _, .bound within different found => closed.bound (closed.inReach within) different found
  | _, .standing stands => closed.standing stands
  | _, .inBody callable stands => closed.inBody (closed.callable callable) stands

end

end Region.Closed

end EggLanguage
