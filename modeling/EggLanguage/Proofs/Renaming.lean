/-
# EggLanguage.Proofs.Renaming -- trees with a word renamed

A word is renamed throughout a tree (`Expr.rename`), and a part of a program is replaced where
it stands (`Expr.Replaced`).  Both keep the shape of a tree: its size (`Expr.SameSize`), the
forms that its operators name, and what a form sees of arguments without evaluating them, but
for the names of words (`Expr.Shaped`).

A `Renaming` puts the two together: the parameter of a function, wherever the function
stands in a program.
-/
import EggLanguage.Proofs.Renumbering

namespace EggLanguage

set_option autoImplicit false

/-! ## Names -/

/-- The name, or the new one in place of the old one. -/
def renameWord (old new name : String) : String :=
  if name = old then new else name

section

variable {old new name name' : String}

theorem renameWord_old : renameWord old new old = new :=
  if_pos rfl

theorem renameWord_of_ne (other : name ≠ old) : renameWord old new name = name :=
  if_neg other

/-- Different names stay different, if none of them is the new one. -/
theorem renameWord_inj (unused : name ≠ new) (unused' : name' ≠ new) :
    name = name' ↔ renameWord old new name = renameWord old new name' := by
  by_cases here : name = old
  · by_cases here' : name' = old
    · rw [here, here']
      exact iff_of_true rfl rfl
    · rw [here, renameWord_old, renameWord_of_ne here']
      exact iff_of_false (Ne.symm here') (Ne.symm unused')
  · by_cases here' : name' = old
    · rw [here', renameWord_old, renameWord_of_ne here]
      exact iff_of_false here unused
    · rw [renameWord_of_ne here, renameWord_of_ne here']

/-- Words that name no form are renamed to words that name none. -/
theorem Dialect.find?_renameWord {dialect : Dialect} (ordinary : dialect.find? old = none)
    (ordinary' : dialect.find? new = none) (name : String) :
    dialect.find? (renameWord old new name) = dialect.find? name := by
  by_cases here : name = old
  · rw [here, renameWord_old, ordinary, ordinary']
  · rw [renameWord_of_ne here]

end

namespace Form

/-- The parameters of a function are the words among its arguments. -/
theorem mem_parameterNames_iff {args : List Expr} {parameters : List String}
    (named : parameterNames args = .ok parameters) (name : String) :
    name ∈ parameters ↔ ∃ span, .word name span ∈ args := by
  induction args generalizing parameters with
  | nil =>
      cases named
      simp
  | cons e rest ih =>
      cases isWord : e.isWord with
      | false =>
          rw [parameterNames_of_noWord isWord] at named
          cases place : e.place? <;> rw [place] at named <;> cases named
      | true =>
          cases e with
          | word first at' =>
              rw [parameterNames] at named
              cases more : parameterNames rest with
              | error stop =>
                  rw [more] at named
                  cases named
              | ok names =>
                  rw [more] at named
                  cases named
                  simp only [List.mem_cons, ih more, Expr.word.injEq, exists_or, exists_and_left,
                    exists_eq, and_true]
          | _ => cases isWord

end Form

/-! ## Sizes -/

namespace Expr

/-- The trees need the same room for reading and for writing. -/
def SameSize (e e' : Expr) : Prop :=
  e.nesting = e'.nesting ∧ e.height = e'.height

namespace SameSize

variable {e e' e'' : Expr}

theorem trans (first : e.SameSize e') (second : e'.SameSize e'') : e.SameSize e'' :=
  ⟨first.1.trans second.1, first.2.trans second.2⟩

theorem of_bare_eq (equal : e.bare = e'.bare) : e.SameSize e' :=
  ⟨nesting_eq_of_bare_eq equal, height_eq_of_bare_eq equal⟩

theorem apply {operator operator' : Expr} {args args' : List Expr} {span span' : Span}
    (applied : operator.SameSize operator') (each : args.Forall₂ SameSize args') :
    (Expr.apply operator args span).SameSize (.apply operator' args' span') := by
  have sizes : nestingOfArgs args = nestingOfArgs args' ∧ heightOfArgs args = heightOfArgs args' := by
    induction each with
    | nil => exact ⟨rfl, rfl⟩
    | cons first _ ih =>
        rw [nestingOfArgs, nestingOfArgs, heightOfArgs, heightOfArgs, first.1, first.2, ih.1, ih.2]
        exact ⟨rfl, rfl⟩
  rw [SameSize, nesting, nesting, height, height, applied.1, applied.2, sizes.1, sizes.2]
  exact ⟨rfl, rfl⟩

end SameSize

/-! ## Renaming a word -/

mutual

/-- The tree with a word renamed.  Functions that stand in it stay as they are. -/
def rename (old new : String) : Expr → Expr
  | literal value span => literal value span
  | word name span => word (renameWord old new name) span
  | apply operator args span => apply (operator.rename old new) (renameArgs old new args) span
  | function identity parameters body scope dialect span =>
      function identity parameters body scope dialect span
  | abstract => abstract

def renameArgs (old new : String) : List Expr → List Expr
  | [] => []
  | e :: rest => e.rename old new :: renameArgs old new rest

end

theorem renameArgs_eq_map (old new : String) (args : List Expr) :
    renameArgs old new args = args.map (rename old new) := by
  induction args with
  | nil => rfl
  | cons e rest ih => rw [renameArgs, ih, List.map_cons]

theorem shaped_rename (old new : String) (e : Expr) :
    e.Shaped (renameWord old new) (e.rename old new) := by
  cases e with
  | word name span => exact .word name span span
  | _ => exact .other rfl rfl rfl

mutual

theorem sameSize_rename (old new : String) : ∀ e : Expr, e.SameSize (e.rename old new)
  | literal _ _ => ⟨rfl, rfl⟩
  | word _ _ => ⟨rfl, rfl⟩
  | apply operator args _ => .apply (sameSize_rename old new operator) (sameSize_renameArgs old new args)
  | function _ _ _ _ _ _ => ⟨rfl, rfl⟩
  | abstract => ⟨rfl, rfl⟩

theorem sameSize_renameArgs (old new : String) :
    ∀ args : List Expr, args.Forall₂ SameSize (renameArgs old new args)
  | [] => .nil
  | e :: rest => .cons (sameSize_rename old new e) (sameSize_renameArgs old new rest)

end

mutual

theorem WellFormed.rename (old : String) {new : String} (lexical : Lexical new.toList) :
    ∀ {e : Expr}, e.WellFormed → (e.rename old new).WellFormed
  | literal _ _, formed => formed
  | word name _, formed => by
      by_cases here : name = old
      · rw [Expr.rename, here, renameWord_old]
        exact lexical
      · rw [Expr.rename, renameWord_of_ne here]
        exact formed
  | apply _ _ _, formed => ⟨formed.1.rename old lexical, AreWellFormed.rename old lexical formed.2⟩

theorem AreWellFormed.rename (old : String) {new : String} (lexical : Lexical new.toList) :
    ∀ {es : List Expr}, AreWellFormed es → AreWellFormed (renameArgs old new es)
  | [], _ => trivial
  | _ :: _, formed => ⟨formed.1.rename old lexical, AreWellFormed.rename old lexical formed.2⟩

end

/-! ## Shapes -/

namespace Shaped

variable {change : String → String} {e e' e'' : Expr}

theorem of_bare_eq (shaped : e.Shaped change e') (equal : e'.bare = e''.bare) :
    e.Shaped change e'' := by
  cases shaped with
  | word name span span' =>
      cases alike_of_bare_eq equal with
      | word _ _ at' => exact .word name span at'
  | other noWord noWord' placed =>
      cases shaped_of_bare_eq equal with
      | word => cases noWord'
      | other _ noWord'' placed' => exact .other noWord noWord'' (placed.trans placed')

/-- Operators of one shape name one form, if their names do. -/
theorem form?_eq (shaped : e.Shaped change e') {dialect : Dialect}
    (forms : ∀ name, dialect.find? (change name) = dialect.find? name) :
    dialect.form? e = dialect.form? e' := by
  cases shaped with
  | word name span span' => exact (forms name).symm
  | other noWord noWord' _ =>
      have none : ∀ x : Expr, x.isWord = false → dialect.form? x = .none := by
        intro x noWord
        cases x with
        | word => cases noWord
        | _ => rfl
      rw [none e noWord, none e' noWord']

end Shaped

/-! ## Replacing a part -/

/-- The second program is the first one with `part'` in place of `part`, up to spans. -/
inductive Replaced (part part' : Expr) : Expr → Expr → Prop where
  | here {e e' : Expr} (found : e = part) (equal : part'.bare = e'.bare) : Replaced part part' e e'
  | literal (c : Constant) (span span' : Span) :
      Replaced part part' (.literal c span) (.literal c span')
  | word (name : String) (span span' : Span) :
      Replaced part part' (.word name span) (.word name span')
  | apply {operator operator' : Expr} {args args' : List Expr} {span span' : Span}
      (other : .apply operator args span ≠ part) (applied : Replaced part part' operator operator')
      (each : args.Forall₂ (Replaced part part') args') :
      Replaced part part' (.apply operator args span) (.apply operator' args' span')

section

variable {part part' : Expr}

mutual

theorem Replaced.sameSize (size : part.SameSize part') : ∀ {e e' : Expr},
    Replaced part part' e e' → e.SameSize e'
  | e, e', replaced => by
      cases replaced with
      | here found equal => exact found ▸ size.trans (.of_bare_eq equal)
      | literal => exact ⟨rfl, rfl⟩
      | word => exact ⟨rfl, rfl⟩
      | apply _ applied each => exact .apply (applied.sameSize size) (Replaced.sameSizes size each)
termination_by e => sizeOf e

theorem Replaced.sameSizes (size : part.SameSize part') : ∀ {args args' : List Expr},
    args.Forall₂ (Replaced part part') args' → args.Forall₂ SameSize args'
  | [], _, each => by
      cases each
      exact .nil
  | _ :: _, _, each => by
      cases each with
      | cons first rest => exact .cons (first.sameSize size) (Replaced.sameSizes size rest)
termination_by args => sizeOf args

end

theorem Replaced.shaped (shape : part.Shaped id part') {e e' : Expr}
    (replaced : Replaced part part' e e') : e.Shaped id e' := by
  cases replaced with
  | here found equal => exact found ▸ shape.of_bare_eq equal
  | literal => exact .other rfl rfl rfl
  | word name span span' => exact .word name span span'
  | apply => exact .other rfl rfl rfl

mutual

/-- What is replaced may be written in other places. -/
theorem Replaced.of_bare_eq : ∀ {e e' e'' : Expr}, Replaced part part' e e' → e'.bare = e''.bare →
    Replaced part part' e e''
  | _, _, _, replaced, same => by
      cases replaced with
      | here found equal => exact .here found (equal.trans same)
      | literal c span span' =>
          cases alike_of_bare_eq same with
          | literal _ _ span'' => exact .literal c span span''
      | word name span span' =>
          cases alike_of_bare_eq same with
          | word _ _ span'' => exact .word name span span''
      | apply other applied each =>
          cases alike_of_bare_eq same with
          | apply _ _ applied' each' =>
              exact .apply other (applied.of_bare_eq applied') (Replaced.each_of_bare_eq each each')
termination_by e => sizeOf e

theorem Replaced.each_of_bare_eq : ∀ {args args' args'' : List Expr},
    args.Forall₂ (Replaced part part') args' → args'.Forall₂ (fun e e' => e.bare = e'.bare) args'' →
      args.Forall₂ (Replaced part part') args''
  | [], _, _, each, same => by
      cases each
      cases same
      exact .nil
  | _ :: _, _, _, each, same => by
      cases each with
      | cons first rest =>
          cases same with
          | cons same more => exact .cons (first.of_bare_eq same) (Replaced.each_of_bare_eq rest more)
termination_by args => sizeOf args

end

mutual

/-- A program can replace a part of a program. -/
theorem exists_replaced (formed' : part'.WellFormed) : ∀ {e : Expr}, e.WellFormed →
    ∃ e', Replaced part part' e e' ∧ e'.WellFormed
  | literal c span, formed => ⟨_, .literal c span span, formed⟩
  | word name span, formed => ⟨_, .word name span span, formed⟩
  | apply operator args span, formed => by
      by_cases found : apply operator args span = part
      · exact ⟨part', .here found rfl, formed'⟩
      · obtain ⟨operator', applied, formedOperator⟩ := exists_replaced formed' formed.1
        obtain ⟨args', each, formedArgs⟩ := exists_replacedEach formed' formed.2
        exact ⟨.apply operator' args' span, .apply found applied each, formedOperator, formedArgs⟩

theorem exists_replacedEach (formed' : part'.WellFormed) : ∀ {es : List Expr},
    AreWellFormed es → ∃ es', es.Forall₂ (Replaced part part') es' ∧ AreWellFormed es'
  | [], _ => ⟨[], .nil, trivial⟩
  | _ :: _, formed => by
      obtain ⟨e', first, formedFirst⟩ := exists_replaced formed' formed.1
      obtain ⟨es', rest, formedRest⟩ := exists_replacedEach formed' formed.2
      exact ⟨e' :: es', .cons first rest, formedFirst, formedRest⟩

end

end

/-! ## Functions -/

/-- The expression that makes a function. -/
def making (args : List Expr) (body : Expr) (span span' : Span) : Expr :=
  .apply (.word "fun" span) (args ++ [body]) span'

/-- Evaluating the expression makes a function with these parameters and this body. -/
def Makes (e : Expr) (parameters : List String) (body : Expr) : Prop :=
  ∃ args span span', e = making args body span span' ∧ Form.parameterNames args = .ok parameters

variable {e body : Expr} {parameters : List String}

theorem Makes.body_mem (makes : e.Makes parameters body) : body ∈ e.nodes := by
  obtain ⟨args, span, span', rfl, -⟩ := makes
  exact mem_nodes_argument _ (List.mem_append_right _ (List.mem_singleton_self body)) span'

theorem Makes.parameter_mem (makes : e.Makes parameters body) {name : String}
    (member : name ∈ parameters) : ∃ span, .word name span ∈ e.nodes := by
  obtain ⟨args, span, span', rfl, named⟩ := makes
  obtain ⟨at', stands⟩ := (Form.mem_parameterNames_iff named name).1 member
  exact ⟨at', mem_nodes_argument _ (List.mem_append_left _ stands) span'⟩

end Expr

/-- A parameter of an expression that makes a function, and a new name for it, a word that does
not stand in the expression.  Neither names a form. -/
structure Renaming where
  /-- The arguments before the body. -/
  args : List Expr
  body : Expr
  /-- Where `fun` stands, and the whole expression. -/
  span : Span
  span' : Span
  old : String
  new : String
  parameter : ∃ at', .word old at' ∈ args
  ordinary : Dialect.standard.find? old = none
  ordinary' : Dialect.standard.find? new = none
  lexical : Lexical new.toList
  unused : ∀ at', .word new at' ∉ (Expr.making args body span span').nodes

namespace Renaming

variable (r : Renaming)

/-- The expression that makes the function. -/
def code : Expr :=
  .making r.args r.body r.span r.span'

/-- The expression with the parameter renamed, wherever its name stands. -/
def code' : Expr :=
  r.code.rename r.old r.new

def change : String → String :=
  renameWord r.old r.new

end Renaming

end EggLanguage
