/-
# EggLanguage.Proofs.Simulation -- two evaluations in step

Two evaluations that differ in scopes, in trees or in settings run in step if their
differences are under control: there is a `Correspondence` of functions and of tasks, and
each task can be unfolded alongside the one it corresponds to, down to parts that
correspond again (`Correspondence.Unfolds`).  What that takes of names, scopes and new
functions is listed in `Correspondence.Simulates`.

`Simulates.evaluate` is the induction over evaluations, once for all correspondences.
-/
import EggLanguage.Proofs.SideBySide
import EggLanguage.Proofs.Special

namespace EggLanguage

set_option autoImplicit false

/-- The last members of lists correspond if all do, or what stands for them if there are
none. -/
theorem forall₂_getLast?_getD {α β : Type} {R : α → β → Prop} {as : List α} {bs : List β}
    (each : as.Forall₂ R bs) {a : α} {b : β} (none : R a b) :
    R (as.getLast?.getD a) (bs.getLast?.getD b) := by
  induction each generalizing a b with
  | nil => exact none
  | cons first _ ih =>
      rw [List.getLast?_cons, List.getLast?_cons]
      exact ih first

theorem Failure.place_settle_congr {f f' : Failure} (placed : f.place = f'.place) (place : Place) :
    (f.settle place).place = (f'.settle place).place := by
  rw [settle, settle, placed]
  split
  · rfl
  · exact placed

theorem Failure.place_bringTo_congr {f f' : Failure} (placed : f.place = f'.place) (span : Span) :
    (f.bringTo span).place = (f'.bringTo span).place := by
  rw [bringTo, bringTo, placed]
  split
  · rfl
  · exact placed

/-- A function over words as parameters. -/
theorem Form.function_eq {args : List Expr} {parameters : List String}
    (named : parameterNames args = .ok parameters) (it : Evaluator) (body : Expr)
    (scope : ScopeId) :
    Form.function it (args ++ [body]) scope =
      Eval.newFunction parameters body scope it.dialect := by
  simp [Form.function, named]
  rfl

theorem Form.function_of_error {args : List Expr} {e : Stop}
    (refused : parameterNames args = .error e) (it : Evaluator) (body : Expr) (scope : ScopeId) :
    Form.function it (args ++ [body]) scope = throw e := by
  simp [Form.function, refused]
  rfl

/-! ## Values -/

/-- The same constant, or functions that correspond. -/
inductive Value.Paired (closures : Closure → Closure → Prop) : Value → Value → Prop where
  | constant (c : Constant) : Value.Paired closures (.constant c) (.constant c)
  | closure {f f' : Closure} (related : closures f f') :
      Value.Paired closures (.closure f) (.closure f')

/-- The same built-in function, or functions that correspond. -/
inductive Function.Paired (closures : Closure → Closure → Prop) : Function → Function → Prop where
  | builtin (b : Builtin) : Function.Paired closures (.builtin b) (.builtin b)
  | closure {f f' : Closure} (related : closures f f') :
      Function.Paired closures (.closure f) (.closure f')

theorem Function.Paired.imp {closures weaker : Closure → Closure → Prop}
    (implied : ∀ f f', closures f f' → weaker f f') {f f' : Function}
    (paired : f.Paired closures f') : f.Paired weaker f' := by
  cases paired with
  | builtin b => exact .builtin b
  | closure related => exact .closure (implied _ _ related)

namespace Value.Paired

variable {closures : Closure → Closure → Prop} {v v' a a' b b' : Value}

theorem refl (same : ∀ f, closures f f) (v : Value) : v.Paired closures v := by
  cases v with
  | constant c => exact .constant c
  | closure f => exact .closure (same f)

theorem imp {weaker : Closure → Closure → Prop} (implied : ∀ f f', closures f f' → weaker f f')
    (paired : v.Paired closures v') : v.Paired weaker v' := by
  cases paired with
  | constant c => exact .constant c
  | closure related => exact .closure (implied _ _ related)

theorem isTruthy_eq (paired : v.Paired closures v') : v.isTruthy = v'.isTruthy := by
  cases paired <;> rfl

theorem type_eq (paired : v.Paired closures v') : v.type = v'.type := by
  cases paired <;> rfl

theorem function? (paired : v.Paired closures v') :
    Option.Rel (Function.Paired closures) v.function? v'.function? := by
  cases paired with
  | constant c =>
      cases c with
      | builtin b => exact .some (.builtin b)
      | _ => exact .none
  | closure related => exact .some (.closure related)

/-- Operators see of a function that it is one, and `==` whether it is the same. -/
theorem apply_eq (op : Operator)
    (identity : ∀ f f' g g', closures f f' → closures g g' →
      (f.identity = g.identity ↔ f'.identity = g'.identity))
    (left : a.Paired closures a') (right : b.Paired closures b') :
    op.apply a b = op.apply a' b' := by
  cases left with
  | constant c =>
      cases right with
      | constant d => rfl
      | closure related => cases op <;> cases c <;> rfl
  | @closure f f' related =>
      cases right with
      | constant d => cases op <;> cases d <;> rfl
      | @closure g g' related' =>
          have same : (f.identity == g.identity) = (f'.identity == g'.identity) :=
            Bool.eq_iff_iff.2 (by simpa using identity f f' g g' related related')
          cases op <;>
            simp [Operator.apply, Operator.compute, Operator.applyAdd, Operator.applySubtract,
              Operator.applyMultiply, Operator.applyDivide, Value.precedes?, Value.equal,
              Value.numeric?, Value.type, same]

/-- A value beside itself, with something known of it if it is a function. -/
theorem same_iff {good : Closure → Prop} :
    v.Paired (fun f f' => f = f' ∧ good f) v' ↔ v = v' ∧ ∀ f, v = .closure f → good f := by
  constructor
  · intro paired
    cases paired with
    | constant c => exact ⟨rfl, nofun⟩
    | closure related =>
        obtain ⟨rfl, known⟩ := related
        refine ⟨rfl, ?_⟩
        rintro _ ⟨⟩
        exact known
  · rintro ⟨rfl, known⟩
    cases v with
    | constant c => exact .constant c
    | closure f => exact .closure ⟨rfl, known f rfl⟩

theorem forall₂_same {good : Closure → Prop} {values values' : List Value}
    (pairs : values.Forall₂ (Value.Paired fun f f' => f = f' ∧ good f) values') :
    values = values' ∧ ∀ v ∈ values, ∀ f, v = .closure f → good f := by
  induction pairs with
  | nil => exact ⟨rfl, List.forall_mem_nil _⟩
  | cons first _ ih =>
      obtain ⟨rfl, known⟩ := same_iff.1 first
      exact ⟨congrArg _ ih.1, List.forall_mem_cons.2 ⟨known, ih.2⟩⟩

end Value.Paired

theorem Operator.apply_alike {places : Place → Place → Prop} (unknown : places .unknown .unknown)
    {closures : Closure → Closure → Prop} {op : Operator} {a b : Value} :
    EndAlike places (Value.Paired closures) (op.apply a b) (op.apply a b) := by
  unfold Operator.apply
  split
  · exact .ok (.constant _)
  · exact .error (.crash _)
  · exact .error (.failure rfl unknown)

theorem Builtin.call_of_misfit {b : Builtin} {values : List Value}
    (misfit : values.length ≠ b.arity) :
    b.call values = Eval.fail (.arity b.arity values.length) := by
  unfold Builtin.call
  split
  · exact absurd rfl misfit
  · exact absurd rfl misfit
  · rfl

/-! ## Correspondences -/

/-- An expression to be evaluated, where, and with which forms. -/
structure Task where
  dialect : DialectId
  expr : Expr
  scope : ScopeId

/-- What two evaluations have in common although they differ. -/
structure Correspondence (W : Type) extends Comparison W where
  closures : W → Closure → Closure → Prop
  tasks : W → Task → Task → Prop
  spans : Span → Span → Prop

namespace Correspondence

variable {W : Type} [Preorder W]

section

variable (r : Correspondence W) (w : W)

/-- Values that correspond in a world. -/
abbrev values (v v' : Value) : Prop :=
  v.Paired (r.closures w) v'

/-- Arguments of a form that evaluate in step.  Only those that the form evaluates need
to correspond. -/
inductive Arguments (dialect dialect' : DialectId) (scope scope' : ScopeId) :
    Special → List Expr → List Expr → Prop where
  | conditional {c c' a a' b b' : Expr}
      (condition : r.tasks w ⟨dialect, c, scope⟩ ⟨dialect', c', scope'⟩)
      (consequence : r.tasks w ⟨dialect, a, scope⟩ ⟨dialect', a', scope'⟩)
      (alternative : r.tasks w ⟨dialect, b, scope⟩ ⟨dialect', b', scope'⟩) :
      Arguments dialect dialect' scope scope' .conditional [c, a, b] [c', a', b']
  | loop {c c' body body' : Expr}
      (condition : r.tasks w ⟨dialect, c, scope⟩ ⟨dialect', c', scope'⟩)
      (inRound : r.tasks w ⟨dialect, body, scope⟩ ⟨dialect', body', scope'⟩) :
      Arguments dialect dialect' scope scope' .loop [c, body] [c', body']
  | sequence {args args' : List Expr}
      (each : args.Forall₂
        (fun e e' => r.tasks w ⟨dialect, e, scope⟩ ⟨dialect', e', scope'⟩) args') :
      Arguments dialect dialect' scope scope' .sequence args args'
  | definition {name name' : String} {span span' : Span} {e e' : Expr}
      (value : r.tasks w ⟨dialect, e, scope⟩ ⟨dialect', e', scope'⟩)
      (binds : ∀ later v v', w ≤ later → r.values later v v' →
        Eval.InStep r.toComparison later (fun _ _ _ => True) (Eval.bind scope name v)
          (Eval.bind scope' name' v')) :
      Arguments dialect dialect' scope scope' .definition [.word name span, e]
        [.word name' span', e']
  | function {args args' : List Expr} {body body' : Expr} {parameters parameters' : List String}
      (named : Form.parameterNames args = .ok parameters)
      (named' : Form.parameterNames args' = .ok parameters')
      (makes : Eval.InStep r.toComparison w r.values (Eval.newFunction parameters body scope dialect)
        (Eval.newFunction parameters' body' scope' dialect')) :
      Arguments dialect dialect' scope scope' .function (args ++ [body]) (args' ++ [body'])
  | refused {special : Special} {args args' : List Expr} {e e' : Stop}
      (stops : e.Alike r.places e')
      (left : ∀ it, special.form it args scope = throw e)
      (right : ∀ it, special.form it args' scope' = throw e') :
      Arguments dialect dialect' scope scope' special args args'

/-- Tasks with nodes of one kind, whose parts correspond. -/
inductive Unfolds (setting setting' : Setting) : Task → Task → Prop where
  | literal {dialect dialect' : DialectId} {scope scope' : ScopeId} (c : Constant)
      {span span' : Span} :
      Unfolds setting setting' ⟨dialect, .literal c span, scope⟩
        ⟨dialect', .literal c span', scope'⟩
  | function {dialect dialect' home home' : DialectId} {scope scope' at' at'' : ScopeId}
      {identity identity' : Nat} {parameters parameters' : List String} {body body' : Expr}
      {span span' : Span}
      (related : r.closures w ⟨identity, parameters, body, at', home⟩
        ⟨identity', parameters', body', at'', home'⟩) :
      Unfolds setting setting' ⟨dialect, .function identity parameters body at' home span, scope⟩
        ⟨dialect', .function identity' parameters' body' at'' home' span', scope'⟩
  | word {dialect dialect' : DialectId} {scope scope' : ScopeId} {name name' : String}
      {span span' : Span} (spanned : r.spans span span')
      (reads : Eval.InStep r.toComparison w r.values (Eval.lookup scope name)
        (Eval.lookup scope' name')) :
      Unfolds setting setting' ⟨dialect, .word name span, scope⟩
        ⟨dialect', .word name' span', scope'⟩
  | abstract {dialect dialect' : DialectId} {scope scope' : ScopeId} :
      Unfolds setting setting' ⟨dialect, .abstract, scope⟩ ⟨dialect', .abstract, scope'⟩
  | ordinary {dialect dialect' : DialectId} {scope scope' : ScopeId} {operator operator' : Expr}
      {args args' : List Expr} {span span' : Span} (spanned : r.spans span span')
      (left : (setting.dialects dialect).form? operator = none)
      (right : (setting'.dialects dialect').form? operator' = none)
      (applied : r.tasks w ⟨dialect, operator, scope⟩ ⟨dialect', operator', scope'⟩)
      (each : args.Forall₂
        (fun e e' => r.tasks w ⟨dialect, e, scope⟩ ⟨dialect', e', scope'⟩) args') :
      Unfolds setting setting' ⟨dialect, .apply operator args span, scope⟩
        ⟨dialect', .apply operator' args' span', scope'⟩
  | special {dialect dialect' : DialectId} {scope scope' : ScopeId} {operator operator' : Expr}
      {args args' : List Expr} {span span' : Span} (special : Special)
      (spanned : r.spans span span')
      (left : (setting.dialects dialect).form? operator = some special.form)
      (right : (setting'.dialects dialect').form? operator' = some special.form)
      (arguments : r.Arguments w dialect dialect' scope scope' special args args') :
      Unfolds setting setting' ⟨dialect, .apply operator args span, scope⟩
        ⟨dialect', .apply operator' args' span', scope'⟩
  /-- Any other forms, if they run in step whenever evaluation does. -/
  | custom {dialect dialect' : DialectId} {scope scope' : ScopeId} {operator operator' : Expr}
      {args args' : List Expr} {span span' : Span} {form form' : Form}
      (spanned : r.spans span span')
      (left : (setting.dialects dialect).form? operator = some form)
      (right : (setting'.dialects dialect').form? operator' = some form')
      (runs : ∀ depth,
        (∀ later t t', r.tasks later t t' → Eval.InStep r.toComparison later r.values
          (setting.evaluate depth t.dialect t.expr t.scope)
          (setting'.evaluate depth t'.dialect t'.expr t'.scope)) →
        Eval.InStep r.toComparison w r.values
          (form ⟨dialect, setting.evaluate depth dialect, setting.limits.rounds⟩ args scope)
          (form' ⟨dialect', setting'.evaluate depth dialect', setting'.limits.rounds⟩ args' scope')) :
      Unfolds setting setting' ⟨dialect, .apply operator args span, scope⟩
        ⟨dialect', .apply operator' args' span', scope'⟩

end

/-- Applications whose operators name one standard form, or none. -/
theorem unfolds_apply (r : Correspondence W) {w : W} {setting setting' : Setting}
    {dialect dialect' : DialectId} {scope scope' : ScopeId} {operator operator' : Expr}
    {args args' : List Expr} {span span' : Span}
    (left : (setting.dialects dialect).form? operator = Dialect.standard.form? operator)
    (right : (setting'.dialects dialect').form? operator' = Dialect.standard.form? operator')
    (spanned : r.spans span span')
    (named : Dialect.standard.form? operator = Dialect.standard.form? operator')
    (applied : r.tasks w ⟨dialect, operator, scope⟩ ⟨dialect', operator', scope'⟩)
    (each : args.Forall₂ (fun e e' => r.tasks w ⟨dialect, e, scope⟩ ⟨dialect', e', scope'⟩) args')
    (arguments : ∀ (special : Special) (at' : Span), operator = .word special.word at' →
      r.Arguments w dialect dialect' scope scope' special args args') :
    r.Unfolds w setting setting' ⟨dialect, .apply operator args span, scope⟩
      ⟨dialect', .apply operator' args' span', scope'⟩ := by
  cases form : Dialect.standard.form? operator with
  | none =>
      exact .ordinary spanned (left.trans form) (right.trans (named.symm.trans form)) applied each
  | some form' =>
      obtain ⟨special, at', word, rfl⟩ := Special.exists_of_form? form
      exact .special special spanned (left.trans form) (right.trans (named.symm.trans form))
        (arguments special at' word)

/-- The correspondence is kept by evaluation under two settings. -/
structure Simulates (r : Correspondence W) (setting setting' : Setting) : Prop where
  limits : setting'.limits = setting.limits
  /-- Later worlds know what earlier ones do. -/
  closures_later : ∀ {w later f f'}, w ≤ later → r.closures w f f' → r.closures later f f'
  tasks_later : ∀ {w later t t'}, w ≤ later → r.tasks w t t' → r.tasks later t t'
  settle : ∀ {span span'} {f f' : Failure}, r.spans span span' → r.places f.place f'.place →
    r.places (f.settle span.place).place (f'.settle span'.place).place
  bringTo : ∀ {span span'} {f f' : Failure}, r.spans span span' → r.places f.place f'.place →
    r.places (f.bringTo span).place (f'.bringTo span').place
  identity : ∀ {w f f' g g'}, r.closures w f f' → r.closures w g g' →
    (f.identity = g.identity ↔ f'.identity = g'.identity)
  arity : ∀ {w f f'}, r.closures w f f' → f.parameters.length = f'.parameters.length
  print : ∀ {w v v'}, r.values w v v' →
    Eval.InStep r.toComparison w (fun _ _ _ => True) (Eval.print v) (Eval.print v')
  /-- A function is called with its body to be evaluated in a new scope. -/
  enter : ∀ {w f f' values values'}, r.closures w f f' → values.length = f.parameters.length →
    values.Forall₂ (r.values w) values' →
    Eval.InStep r.toComparison w
      (fun later scope scope' =>
        r.tasks later ⟨f.dialect, f.body, scope⟩ ⟨f'.dialect, f'.body, scope'⟩)
      (Eval.newScope (Ordered.ofList (f.parameters.zip values)) (some f.scope))
      (Eval.newScope (Ordered.ofList (f'.parameters.zip values')) (some f'.scope))
  unfold : ∀ {w t t'}, r.tasks w t t' → r.Unfolds w setting setting' t t'

namespace Simulates

variable {r : Correspondence W} {setting setting' : Setting} (sim : r.Simulates setting setting')
  {w : W}

include sim

theorem values_later {later : W} (le : w ≤ later) {v v' : Value} (paired : r.values w v v') :
    r.values later v v' :=
  paired.imp fun _ _ => sim.closures_later le

/-- A failure is blamed on nodes whose spans correspond. -/
theorem settled {x x' : Eval Value} {span span' : Span} (spanned : r.spans span span')
    (inStep : Eval.InStep r.toComparison w r.values x x') :
    Eval.InStep r.toComparison w r.values (x.onFailure (·.settle span.place))
      (x'.onFailure (·.settle span'.place)) := by
  refine inStep.onFailure fun f f' cause placed => ⟨?_, sim.settle spanned placed⟩
  rw [Failure.cause_settle, Failure.cause_settle, cause]

/-- A failure leaves calls whose spans correspond. -/
theorem brought {x x' : Eval Value} {span span' : Span} (spanned : r.spans span span')
    (inStep : Eval.InStep r.toComparison w r.values x x') :
    Eval.InStep r.toComparison w r.values (x.onFailure (·.bringTo span))
      (x'.onFailure (·.bringTo span')) := by
  refine inStep.onFailure fun f f' cause placed => ⟨?_, sim.bringTo spanned placed⟩
  rw [Failure.cause_bringTo, Failure.cause_bringTo, cause]

/-! ### Parts of an evaluation -/

/-- Two evaluators work in step on the tasks that correspond in two scopes. -/
def Serve (r : Correspondence W) (it it' : Evaluator) (scope scope' : ScopeId) : Prop :=
  ∀ w e e', r.tasks w ⟨it.dialect, e, scope⟩ ⟨it'.dialect, e', scope'⟩ →
    Eval.InStep r.toComparison w r.values (it.evaluate e scope) (it'.evaluate e' scope')

variable {it it' : Evaluator} {scope scope' : ScopeId} (serve : Serve r it it' scope scope')

include serve

theorem evaluateArgs {args args' : List Expr}
    (each : args.Forall₂
      (fun e e' => r.tasks w ⟨it.dialect, e, scope⟩ ⟨it'.dialect, e', scope'⟩) args') :
    Eval.InStep r.toComparison w
      (fun later values values' => values.Forall₂ (r.values later) values')
      (Setting.evaluateArgs (it.evaluate · scope) args)
      (Setting.evaluateArgs (it'.evaluate · scope') args') := by
  induction args generalizing w args' with
  | nil =>
      cases each
      exact .pure .nil
  | cons e rest ih =>
      obtain ⟨e', rest', first, more, rfl⟩ := List.forall₂_cons_left_iff.1 each
      refine (serve w e e' first).bind fun later v v' le paired => ?_
      refine (ih (more.imp fun _ _ => sim.tasks_later le)).bind fun last vs vs' le' pairs => ?_
      exact .pure (.cons (sim.values_later le' paired) pairs)

/-- A form applied to arguments that correspond. -/
theorem special (rounds : it.rounds = it'.rounds) {special : Special} {args args' : List Expr}
    (arguments : r.Arguments w it.dialect it'.dialect scope scope' special args args') :
    Eval.InStep r.toComparison w r.values (special.form it args scope)
      (special.form it' args' scope') := by
  cases arguments with
  | @conditional c c' a a' b b' condition consequence alternative =>
      refine (serve w c c' condition).bind fun later v v' le paired => ?_
      rw [paired.isTruthy_eq]
      split
      · exact serve later a a' (sim.tasks_later le consequence)
      · exact serve later b b' (sim.tasks_later le alternative)
  | @loop c c' body body' condition inRound =>
      have round : ∀ later, w ≤ later →
          Eval.InStep r.toComparison later (fun _ again again' => again = again')
            (Special.round it c body scope) (Special.round it' c' body' scope') := by
        intro later le
        refine (serve later c c' (sim.tasks_later le condition)).bind fun next v v' le' paired => ?_
        rw [paired.isTruthy_eq]
        split
        · have passes := serve next body body' (sim.tasks_later (le_trans le le') inRound)
          exact passes.bind fun _ _ _ _ _ => .pure rfl
        · exact .pure rfl
      show Eval.InStep _ _ _ (Form.loop it [c, body] scope) (Form.loop it' [c', body'] scope')
      rw [Special.loop_eq, Special.loop_eq, rounds]
      exact (Eval.InStep.repeatWhile round it'.rounds).bind fun _ _ _ _ _ => .pure (.constant _)
  | sequence each =>
      show Eval.InStep _ _ _ (Form.inOrder it scope _ args) (Form.inOrder it' scope' _ args')
      rw [Form.inOrder_eq, Form.inOrder_eq]
      refine (sim.evaluateArgs serve each).bind fun _ _ _ _ pairs => .pure ?_
      exact forall₂_getLast?_getD pairs (.constant _)
  | @definition name name' span span' e e' value binds =>
      refine (serve w e e' value).bind fun later v v' le paired => ?_
      refine (binds later v v' le paired).bind fun last _ _ le' _ => .pure ?_
      exact sim.values_later le' paired
  | @function args args' body body' parameters parameters' named named' makes =>
      show Eval.InStep _ _ _ (Form.function it (args ++ [body]) scope)
        (Form.function it' (args' ++ [body']) scope')
      rw [Form.function_eq named, Form.function_eq named']
      exact makes
  | refused stops left right =>
      rw [left, right]
      exact .stop stops

omit serve in
theorem builtin (b : Builtin) {values values' : List Value}
    (pairs : values.Forall₂ (r.values w) values') :
    Eval.InStep r.toComparison w r.values (b.call values) (b.call values') := by
  by_cases fits : values.length = b.arity
  · cases b with
    | operator op =>
        obtain ⟨a, b, rfl⟩ := List.length_eq_two.1 fits
        obtain ⟨a', rest, left, more, rfl⟩ := List.forall₂_cons_left_iff.1 pairs
        obtain ⟨b', rest, right, none, rfl⟩ := List.forall₂_cons_left_iff.1 more
        obtain rfl := List.forall₂_nil_left_iff.1 none
        show Eval.InStep _ _ _ (Eval.ofExcept (op.apply a b)) (Eval.ofExcept (op.apply a' b'))
        rw [left.apply_eq op (fun _ _ _ _ => sim.identity) right]
        exact .ofExcept (Operator.apply_alike r.unknown)
    | print =>
        obtain ⟨v, rfl⟩ := List.length_eq_one_iff.1 fits
        obtain ⟨v', rest, paired, none, rfl⟩ := List.forall₂_cons_left_iff.1 pairs
        obtain rfl := List.forall₂_nil_left_iff.1 none
        exact (sim.print paired).bind fun _ _ _ le _ => .pure (sim.values_later le paired)
  · rw [Builtin.call_of_misfit fits, Builtin.call_of_misfit (pairs.length_eq ▸ fits),
      pairs.length_eq]
    exact .fail _

omit serve in
/-- A call of functions that correspond, if their bodies evaluate in step. -/
theorem call {evaluate evaluate' : DialectId → Expr → ScopeId → Eval Value}
    (bodies : ∀ w t t', r.tasks w t t' → Eval.InStep r.toComparison w r.values
      (evaluate t.dialect t.expr t.scope) (evaluate' t'.dialect t'.expr t'.scope))
    {f f' : Function} (callees : f.Paired (r.closures w) f') {values values' : List Value}
    (pairs : values.Forall₂ (r.values w) values') :
    Eval.InStep r.toComparison w r.values (f.call evaluate values) (f'.call evaluate' values') := by
  cases callees with
  | builtin b => exact sim.builtin b pairs
  | @closure f f' related =>
      show Eval.InStep _ _ _ (f.call evaluate values) (f'.call evaluate' values')
      unfold Closure.call
      by_cases fits : values.length = f.parameters.length
      · rw [if_pos fits, if_pos (pairs.length_eq.symm.trans (fits.trans (sim.arity related)))]
        exact (sim.enter related fits pairs).bind fun later scope scope' _ task =>
          bodies later _ _ task
      · rw [sim.arity related, pairs.length_eq] at fits ⊢
        rw [if_neg fits, if_neg fits]
        exact .fail _

omit serve in
/-- **Evaluation in step.**  Tasks that correspond evaluate in step. -/
theorem evaluate (depth : Nat) {t t' : Task} (task : r.tasks w t t') :
    Eval.InStep r.toComparison w r.values (setting.evaluate depth t.dialect t.expr t.scope)
      (setting'.evaluate depth t'.dialect t'.expr t'.scope) := by
  induction depth generalizing w t t' with
  | zero => exact .crash _
  | succ depth ih =>
      cases sim.unfold task with
      | literal c => exact .pure (.constant c)
      | function related => exact .pure (.closure related)
      | word spanned reads => exact sim.settled spanned reads
      | abstract => exact .crash _
      | @ordinary dialect dialect' scope scope' operator operator' args args' span span' spanned
          left right applied each =>
          have serve : Serve r ⟨dialect, setting.evaluate depth dialect, setting.limits.rounds⟩
              ⟨dialect', setting'.evaluate depth dialect', setting'.limits.rounds⟩ scope scope' :=
            fun w e e' task => ih task
          rw [Setting.evaluate, Setting.evaluate, left, right]
          refine sim.settled spanned ((ih applied).bind fun later v v' le paired => ?_)
          have callees := paired.function?
          generalize v.function? = f at callees
          generalize v'.function? = f' at callees
          cases callees with
          | none => exact .fail _
          | some callees =>
              have passes := sim.evaluateArgs serve (each.imp fun _ _ => sim.tasks_later le)
              refine passes.bind fun last values values' le' pairs => ?_
              refine sim.brought spanned (sim.call (fun _ _ _ task => ih task) ?_ pairs)
              exact callees.imp fun _ _ => sim.closures_later le'
      | @special dialect dialect' scope scope' operator operator' args args' span span' special
          spanned left right arguments =>
          have serve : Serve r ⟨dialect, setting.evaluate depth dialect, setting.limits.rounds⟩
              ⟨dialect', setting'.evaluate depth dialect', setting'.limits.rounds⟩ scope scope' :=
            fun w e e' task => ih task
          rw [Setting.evaluate, Setting.evaluate, left, right]
          refine sim.settled spanned (sim.special serve ?_ arguments)
          exact congrArg Limits.rounds sim.limits.symm
      | custom spanned left right runs =>
          rw [Setting.evaluate, Setting.evaluate, left, right]
          exact sim.settled spanned (runs depth fun _ _ _ task => ih task)

omit serve in
/-- Calls from outside of any program, of values that correspond. -/
theorem callValue {v v' : Value} (paired : r.values w v v') {values values' : List Value}
    (pairs : values.Forall₂ (r.values w) values') :
    Eval.InStep r.toComparison w r.values (setting.callValue v values)
      (setting'.callValue v' values') := by
  have callees := paired.function?
  unfold Setting.callValue
  rw [paired.type_eq, sim.limits]
  generalize v.function? = f at callees
  generalize v'.function? = f' at callees
  cases callees with
  | none => exact .crash _
  | some callees =>
      exact sim.call (fun _ _ _ task => sim.evaluate setting.limits.depth task) callees pairs

end Simulates

end Correspondence

end EggLanguage
