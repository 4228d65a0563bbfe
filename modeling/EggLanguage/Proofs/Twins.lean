/-
# EggLanguage.Proofs.Twins -- evaluation under dialects that agree

A function carries the dialect it was made under, so evaluations under different dialects
leave different functions behind.  `Expr.Twin` says when this is the only difference between
two trees, and the dialects on the two sides agree on every word that is applied there.
`Closure.Twin` and `Store.Twin` follow from it.

Dialects agree on a word that names the same standard form in both, or none.  A further form
may occur where both sides are under one dialect, and the form is `Form.Indifferent`: it
works through evaluation, whatever functions it is handed.  Then twins evaluate in step
(`Correspondence.twins_simulates`).
-/
import EggLanguage.Proofs.Chains
import EggLanguage.Proofs.Renumbering

namespace EggLanguage

set_option autoImplicit false

/-! ## Words that are applied -/

namespace Expr

/-- The word that the expression is, if it is one. -/
def ownName : Expr → List String
  | word name _ => [name]
  | _ => []

mutual

/-- The words that are applied in an expression.  What a function that stands in it applies
is a matter of its own dialect. -/
def operators : Expr → List String
  | apply operator args _ => operator.ownName ++ (operator.operators ++ operatorsOfArgs args)
  | _ => []

def operatorsOfArgs : List Expr → List String
  | [] => []
  | e :: rest => e.operators ++ operatorsOfArgs rest

end

end Expr

/-! ## Twins -/

/-- On which words two dialects agree. -/
abbrev Agreement := DialectId → DialectId → String → Prop

/-- Dialects do not count. -/
def Agreement.always : Agreement :=
  fun _ _ _ => True

mutual

/-- Trees, each under a dialect, that differ in the dialects of the functions that stand in
them only.  The dialects on both sides agree on the words that are applied. -/
inductive Expr.Twin (agree : Agreement) : DialectId → DialectId → Expr → Expr → Prop where
  | literal {d d' : DialectId} (c : Constant) (span : Span) :
      Expr.Twin agree d d' (.literal c span) (.literal c span)
  | word {d d' : DialectId} (name : String) (span : Span) :
      Expr.Twin agree d d' (.word name span) (.word name span)
  | apply {d d' : DialectId} {operator operator' : Expr} {args args' : List Expr} (span : Span)
      (agreed : ∀ name ∈ operator.ownName, agree d d' name)
      (applied : Expr.Twin agree d d' operator operator') (each : Expr.Twins agree d d' args args') :
      Expr.Twin agree d d' (.apply operator args span) (.apply operator' args' span)
  | function {d d' home home' : DialectId} (identity : Nat) (parameters : List String)
      {body body' : Expr} (scope : ScopeId) (span : Span)
      (bodies : Expr.Twin agree home home' body body') :
      Expr.Twin agree d d' (.function identity parameters body scope home span)
        (.function identity parameters body' scope home' span)
  | abstract {d d' : DialectId} : Expr.Twin agree d d' .abstract .abstract

inductive Expr.Twins (agree : Agreement) : DialectId → DialectId → List Expr → List Expr → Prop where
  | nil {d d' : DialectId} : Expr.Twins agree d d' [] []
  | cons {d d' : DialectId} {e e' : Expr} {es es' : List Expr} (first : Expr.Twin agree d d' e e')
      (rest : Expr.Twins agree d d' es es') : Expr.Twins agree d d' (e :: es) (e' :: es')

end

/-- One function, but for the dialects. -/
structure Closure.Twin (agree : Agreement) (f f' : Closure) : Prop where
  identity : f.identity = f'.identity
  parameters : f.parameters = f'.parameters
  scope : f.scope = f'.scope
  body : f.body.Twin agree f.dialect f'.dialect f'.body

abbrev Value.Twin (agree : Agreement) : Value → Value → Prop :=
  Value.Paired (Closure.Twin agree)

/-- States that differ in the dialects of functions only.  Functions that were printed are
not called any more. -/
structure Store.Twin (agree : Agreement) (s s' : Store) : Prop where
  size : s.scopes.size = s'.scopes.size
  parents : ∀ i, s.parent? i = s'.parent? i
  bindings : ∀ i, (s.bindings i).Paired (Value.Twin agree) (s'.bindings i)
  printed : s.printed.toList.Forall₂ (Value.Twin .always) s'.printed.toList
  functions : s.functions = s'.functions
  sources : s.sources = s'.sources

/-- The same value or stop, with its place, and states that are twins. -/
structure OutcomeTwin (agree : Agreement) (left right : Except Stop Value × Store) : Prop where
  ends : EndAlike Eq (Value.Twin agree) left.1 right.1
  stores : left.2.Twin agree right.2

/-- Computations with such outcomes from any states that are twins. -/
def Eval.Twin (agree : Agreement) (x x' : Eval Value) : Prop :=
  ∀ s s', s.Twin agree s' → OutcomeTwin agree (x.outcome s) (x'.outcome s')

variable {agree weaker : Agreement} {d d' : DialectId}

namespace Expr

mutual

theorem Twin.imp (implied : ∀ d d' name, agree d d' name → weaker d d' name) {d d' : DialectId}
    {e e' : Expr} : e.Twin agree d d' e' → e.Twin weaker d d' e'
  | .literal c span => .literal c span
  | .word name span => .word name span
  | .apply span agreed applied each =>
      .apply span (fun name member => implied _ _ name (agreed name member)) (applied.imp implied)
        (each.imp implied)
  | .function identity parameters scope span bodies =>
      .function identity parameters scope span (bodies.imp implied)
  | .abstract => .abstract

theorem Twins.imp (implied : ∀ d d' name, agree d d' name → weaker d d' name) {d d' : DialectId}
    {es es' : List Expr} : Twins agree d d' es es' → Twins weaker d d' es es'
  | .nil => .nil
  | .cons first rest => .cons (first.imp implied) (rest.imp implied)

end

theorem twins_iff {es es' : List Expr} :
    Twins agree d d' es es' ↔ es.Forall₂ (Twin agree d d') es' := by
  constructor
  · intro twins
    induction es generalizing es' with
    | nil =>
        cases twins
        exact .nil
    | cons e es ih =>
        cases twins with
        | cons first rest => exact .cons first (ih rest)
  · intro each
    induction each with
    | nil => exact .nil
    | cons first _ ih => exact .cons first ih

/-- The dialects of functions among the nodes agree with themselves on the words that the
functions apply. -/
def FunctionsAgree (agree : Agreement) (nodes : List Expr) : Prop :=
  ∀ identity parameters body scope home span,
    .function identity parameters body scope home span ∈ nodes →
      ∀ name ∈ body.operators, agree home home name

theorem FunctionsAgree.subset {nodes nodes' : List Expr} (held : FunctionsAgree agree nodes)
    (inside : nodes' ⊆ nodes) : FunctionsAgree agree nodes' :=
  fun _ _ _ _ _ _ node => held _ _ _ _ _ _ (inside node)

/-- The dialects agree on all words that are applied in an expression, and so do those of the
functions in it. -/
structure Agreeing (agree : Agreement) (d d' : DialectId) (e : Expr) : Prop where
  operators : ∀ name ∈ e.operators, agree d d' name
  held : FunctionsAgree agree e.nodes

mutual

/-- An expression is its own twin where the dialects agree. -/
theorem twin_self : ∀ {e : Expr} {d d' : DialectId}, e.Agreeing agree d d' → e.Twin agree d d' e
  | literal c span, _, _, _ => .literal c span
  | word name span, _, _, _ => .word name span
  | apply operator args span, _, _, ⟨operators, held⟩ => by
      simp only [Expr.operators, List.forall_mem_append] at operators
      obtain ⟨own, inOperator, inArgs⟩ := operators
      have inside := held.subset (List.subset_cons_self _ _)
      exact .apply span own (twin_self ⟨inOperator, inside.subset (List.subset_append_left _ _)⟩)
        (twins_self inArgs (inside.subset (List.subset_append_right _ _)))
  | function identity parameters body scope home span, _, _, ⟨_, held⟩ =>
      .function identity parameters scope span
        (twin_self ⟨held _ _ _ _ _ _ List.mem_cons_self, held.subset (List.subset_cons_self _ _)⟩)
  | abstract, _, _, _ => .abstract

theorem twins_self : ∀ {es : List Expr} {d d' : DialectId},
    (∀ name ∈ operatorsOfArgs es, agree d d' name) → FunctionsAgree agree (nodesOfArgs es) →
    Twins agree d d' es es
  | [], _, _, _, _ => .nil
  | e :: rest, _, _, operators, held => by
      rw [operatorsOfArgs, List.forall_mem_append] at operators
      exact .cons (twin_self ⟨operators.1, held.subset (List.subset_append_left _ _)⟩)
        (twins_self operators.2 (held.subset (List.subset_append_right _ _)))

end

variable {e e' : Expr}

theorem Twin.shaped (twin : e.Twin agree d d' e') : e.Shaped id e' := by
  cases twin with
  | word name span => exact .word name span span
  | _ => exact .other rfl rfl rfl

theorem Twin.form?_eq (twin : e.Twin agree d d' e') (dialect : Dialect) :
    dialect.form? e = dialect.form? e' := by
  cases twin <;> rfl

end Expr

/-- The parameters of functions that are twins are the same, or refused alike. -/
theorem Form.parameterNames_twin {words words' : List Expr}
    (each : words.Forall₂ (Expr.Twin agree d d') words') :
    parameterNames words = parameterNames words' := by
  induction each with
  | nil => rfl
  | @cons e e' rest rest' first _ ih =>
      cases first with
      | word name span => rw [parameterNames, parameterNames, ih]
      | literal c span => rfl
      | apply span agreed applied each => rfl
      | function identity parameters scope span bodies => rfl
      | abstract => rfl

/-! ## States -/

/-- The dialects of all functions that a state binds agree with themselves on the words that
these functions apply. -/
def Store.Agreeing (agree : Agreement) (s : Store) : Prop :=
  ∀ i, ∀ bound ∈ s.bindings i, ∀ f, bound.2 = .closure f →
    f.body.Agreeing agree f.dialect f.dialect

theorem Value.twin_self {v : Value}
    (known : ∀ f, v = .closure f → f.body.Agreeing agree f.dialect f.dialect) : v.Twin agree v := by
  cases v with
  | constant c => exact .constant c
  | closure f => exact .closure ⟨rfl, rfl, rfl, Expr.twin_self (known f rfl)⟩

theorem Value.Twin.always {v v' : Value} (twin : v.Twin agree v') : v.Twin .always v' :=
  twin.imp fun _ _ related => { related with body := related.body.imp fun _ _ _ _ => trivial }

namespace Store

variable {s s' : Store}

theorem twin_self (known : s.Agreeing agree) : s.Twin agree s where
  size := rfl
  parents _ := rfl
  bindings i := List.forall₂_same.2 fun bound member => ⟨rfl, Value.twin_self (known i bound member)⟩
  printed := List.forall₂_same.2 fun _ _ =>
    Value.twin_self fun _ _ => ⟨fun _ _ => trivial, fun _ _ _ _ _ _ _ _ _ => trivial⟩
  functions := rfl
  sources := rfl

namespace Twin

theorem lookup? (twin : s.Twin agree s') (scope : ScopeId) (name : String) :
    Option.Rel (Value.Twin agree) (s.lookup? scope name) (s'.lookup? scope name) := by
  rw [Store.lookup?, Store.lookup?, chain, chain, chainWithin_congr twin.parents]
  have same : (s'.chainWithin (scope + 1) scope).Forall₂ Eq (s'.chainWithin (scope + 1) scope) :=
    List.forall₂_refl _
  refine forall₂_findSome? ?_ same
  rintro i _ rfl
  exact (twin.bindings i).find? name

theorem bind (twin : s.Twin agree s') (scope : ScopeId) (name : String) {v v' : Value}
    (values : v.Twin agree v') : (s.bind scope name v).Twin agree (s'.bind scope name v') where
  size := by rw [size_bind, size_bind, twin.size]
  parents i := by rw [parent?_bind, parent?_bind, twin.parents i]
  bindings i := by
    rw [bindings_bind, bindings_bind, twin.size]
    split
    · exact (twin.bindings i).put name values
    · exact twin.bindings i
  printed := twin.printed
  functions := twin.functions
  sources := twin.sources

theorem newScope (twin : s.Twin agree s') {given given' : Ordered Value}
    (paired : given.Paired (Value.Twin agree) given') (parent : Option ScopeId) :
    (s.newScope given parent).2.Twin agree (s'.newScope given' parent).2 where
  size := by rw [size_newScope, size_newScope, twin.size]
  parents i := by rw [parent?_newScope, parent?_newScope, twin.size, twin.parents i]
  bindings i := by
    rw [bindings_newScope, bindings_newScope, twin.size]
    split
    · exact paired
    · exact twin.bindings i
  printed := twin.printed
  functions := twin.functions
  sources := twin.sources

theorem print (twin : s.Twin agree s') {v v' : Value} (values : v.Twin agree v') :
    (s.print v).Twin agree (s'.print v') where
  size := twin.size
  parents := twin.parents
  bindings := twin.bindings
  printed := by
    rw [Store.print, Store.print, Array.toList_push, Array.toList_push]
    exact List.rel_append twin.printed (.cons values.always .nil)
  functions := twin.functions
  sources := twin.sources

theorem newFunction (twin : s.Twin agree s') (parameters : List String) {body body' : Expr}
    (bodies : body.Twin agree d d' body') (scope : ScopeId) :
    (s.newFunction parameters body scope d).2.Twin agree
        (s'.newFunction parameters body' scope d').2 ∧
      (s.newFunction parameters body scope d).1.Twin agree
        (s'.newFunction parameters body' scope d').1 :=
  ⟨{ twin with functions := congrArg (· + 1) twin.functions },
    .closure ⟨twin.functions, rfl, rfl, bodies⟩⟩

end Twin

end Store

/-! ## Evaluation -/

namespace Correspondence

/-- Everything is in its place, and functions may have other dialects.  What was made since
does not matter, so all worlds are the same. -/
def twins (agree : Agreement) : Correspondence Nat where
  stores _ := Store.Twin agree
  places := Eq
  unknown := rfl
  closures _ := Closure.Twin agree
  tasks _ t t' := t.expr.Twin agree t.dialect t'.dialect t'.expr ∧ t.scope = t'.scope
  spans := Eq

theorem inStep_iff {w : Nat} {x x' : Eval Value} :
    Eval.InStep (twins agree).toComparison w (twins agree).values x x' ↔ x.Twin agree x' := by
  constructor
  · intro inStep s s' twin
    obtain ⟨_, -, stores, ends⟩ := inStep s s' twin
    exact ⟨ends, stores⟩
  · intro twins s s' twin
    obtain ⟨ends, stores⟩ := twins s s' twin
    exact ⟨w, le_rfl, stores, ends⟩

end Correspondence

/-- A form that does not care which dialects functions belong to: under its dialect, it does
the same on both sides if evaluation does. -/
def Form.Indifferent (agree : Agreement) (dialect : DialectId) (form : Form) : Prop :=
  ∀ (it : Evaluator) (args args' : List Expr) (scope : ScopeId), it.dialect = dialect →
    args.Forall₂ (Expr.Twin agree dialect dialect) args' →
    (∀ e e' scope', e.Twin agree dialect dialect e' →
      (it.evaluate e scope').Twin agree (it.evaluate e' scope')) →
    (form it args scope).Twin agree (form it args' scope)

/-- Two dialects agree on a word that names the same standard form in both, or none, and a
dialect agrees with itself on the words that are `known` to it. -/
def Setting.Agrees (setting : Setting) (known : DialectId → String → Prop) : Agreement :=
  fun d d' name =>
    (setting.dialects d).find? name = Dialect.standard.find? name ∧
        (setting.dialects d').find? name = Dialect.standard.find? name ∨
      d = d' ∧ known d name

/-- The words that are known to a dialect name indifferent forms. -/
def Setting.Knows (setting : Setting) (known : DialectId → String → Prop) : Prop :=
  ∀ d name form, known d name → (setting.dialects d).find? name = some form →
    form.Indifferent (setting.Agrees known) d

namespace Correspondence

variable {setting : Setting} {known : DialectId → String → Prop} {w : Nat}

/-- The arguments of a standard form, if they are twins. -/
theorem arguments_of_twins (special : Special) {scope : ScopeId} {args args' : List Expr}
    (each : args.Forall₂ (Expr.Twin agree d d') args') :
    (twins agree).Arguments w d d' scope scope special args args' := by
  have shaped := fun e e' (task : (twins agree).tasks w ⟨d, e, scope⟩ ⟨d', e', scope⟩) =>
    task.1.shaped
  refine arguments_of_shaped special shaped (fun words words' tasks => ?_)
    (each.imp fun _ _ twin => ⟨twin, rfl⟩) (fun later name _ v v' _ _ values => ?_)
    fun _ _ parameters body body' _ _ task => ?_
  · rw [Form.parameterNames_twin (tasks.imp fun _ _ => And.left)]
    cases Form.parameterNames words' with
    | ok names => exact .ok (List.map_id names).symm
    | error e => exact .error (.refl (fun _ => rfl) e)
  · exact .step fun s s' twin => ⟨later, le_rfl, twin.bind scope name values, trivial⟩
  · rw [List.map_id]
    exact .step fun s s' twin => ⟨w, le_rfl, twin.newFunction parameters task.1 scope⟩

/-- An application names a standard form on both sides, or none, or a form that is known. -/
theorem unfolds_twins (knows : setting.Knows known) {operator operator' : Expr}
    {args args' : List Expr} {scope : ScopeId} (span : Span)
    (agreed : ∀ name ∈ operator.ownName, setting.Agrees known d d' name)
    (applied : operator.Twin (setting.Agrees known) d d' operator')
    (each : args.Forall₂ (Expr.Twin (setting.Agrees known) d d') args') :
    (twins (setting.Agrees known)).Unfolds w setting setting ⟨d, .apply operator args span, scope⟩
      ⟨d', .apply operator' args' span, scope⟩ := by
  have tasks := each.imp fun _ _ twin => And.intro twin (Eq.refl scope)
  have standard : (setting.dialects d).form? operator = Dialect.standard.form? operator →
      (setting.dialects d').form? operator = Dialect.standard.form? operator →
      (twins (setting.Agrees known)).Unfolds w setting setting
        ⟨d, .apply operator args span, scope⟩ ⟨d', .apply operator' args' span, scope⟩ := by
    intro left right
    rw [applied.form?_eq, applied.form?_eq] at right
    exact unfolds_apply _ left right rfl (applied.form?_eq _) ⟨applied, rfl⟩ tasks
      fun special _ _ => arguments_of_twins special each
  cases operator with
  | word name at' =>
      obtain ⟨left, right⟩ | ⟨rfl, named⟩ := agreed name List.mem_cons_self
      · exact standard left right
      · cases form : (setting.dialects d).form? (.word name at') with
        | none =>
            exact .ordinary rfl form (applied.form?_eq _ ▸ form) ⟨applied, rfl⟩ tasks
        | some custom =>
            refine .custom rfl form (applied.form?_eq _ ▸ form) fun depth evaluates => ?_
            refine inStep_iff.2 (knows d name custom named form _ args args' scope rfl each ?_)
            exact fun e e' scope' twin =>
              inStep_iff.1 (evaluates w ⟨d, e, scope'⟩ ⟨d, e', scope'⟩ ⟨twin, rfl⟩)
  | _ => exact standard rfl rfl

/-- Twins evaluate in step. -/
theorem twins_simulates (knows : setting.Knows known) :
    (twins (setting.Agrees known)).Simulates setting setting where
  limits := rfl
  closures_later _ related := related
  tasks_later _ task := task
  settle := by
    rintro span _ f f' rfl placed
    exact Failure.place_settle_congr placed span.place
  bringTo := by
    rintro span _ f f' rfl placed
    exact Failure.place_bringTo_congr placed span
  identity left right := by rw [left.identity, right.identity]
  arity related := congrArg List.length related.parameters
  print values := .step fun _ _ twin => ⟨_, le_rfl, twin.print values, trivial⟩
  enter := by
    intro w f f' values values' related _ pairs
    rw [← related.parameters, ← related.scope]
    refine .step fun s s' twin => ⟨w, le_rfl, twin.newScope (.ofList_zip f.parameters pairs) _, ?_⟩
    exact ⟨related.body, twin.size⟩
  unfold := by
    rintro w ⟨d, e, scope⟩ ⟨d', e', scope'⟩ ⟨twin, same⟩
    obtain rfl : scope = scope' := same
    change e.Twin (setting.Agrees known) d d' e' at twin
    cases twin with
    | literal c span => exact .literal c
    | word name span =>
        exact .word rfl (.lookup fun s s' twin => ⟨twin.lookup? scope name, fun _ => rfl⟩)
    | apply span agreed applied each =>
        exact unfolds_twins knows span agreed applied (Expr.twins_iff.1 each)
    | function identity parameters home span bodies => exact .function ⟨rfl, rfl, rfl, bodies⟩
    | abstract => exact .abstract

end Correspondence

end EggLanguage
