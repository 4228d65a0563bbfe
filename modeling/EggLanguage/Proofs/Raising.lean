/-
# EggLanguage.Proofs.Raising -- which node of a program fails, and who called it

The interpreter moves the place of a failure while the failure leaves the nodes and
calls it happened in.  This module says without places in motion what happened: which node
raised the failure, and which calls of functions were active then (`Raised`).  `Raises`
follows an evaluation down to that node, one rule for each way of going down.

`evaluate_fails_iff` is the link: an evaluation fails exactly if something is raised, and
its failure is blamed on the span that the active calls make of the place where it was
raised, innermost call first (`Raised.blamed`).
-/
import EggLanguage.Proofs.Special

namespace EggLanguage

set_option autoImplicit false

/-- The setting in which every program and every function has the standard forms. -/
def Setting.standard (limits : Limits) : Setting :=
  ⟨fun _ => Dialect.standard, limits⟩

/-! ## What was raised -/

/-- An active call: the node that calls, and the function whose body it entered. -/
structure Call where
  span : Span
  callee : Closure

/-- A failure as it was raised: the active calls, outermost first, the cause, and the node
that raised it. -/
structure Raised where
  calls : List Call
  cause : Cause
  origin : Span

/-- The span to blame when a failure leaves a call: the call, if its source is not the one
that was blamed so far. -/
def Span.broughtTo (span call : Span) : Span :=
  if span.source.map Source.identity ≠ call.source.map Source.identity then call else span

namespace Raised

/-- The span to blame once a failure has left all active calls. -/
def blamed (calls : List Call) (origin : Span) : Span :=
  calls.foldr (fun call span => span.broughtTo call.span) origin

/-- The failure that is seen in the end. -/
def failure (r : Raised) : Failure :=
  ⟨r.cause, (blamed r.calls r.origin).place⟩

@[simp] theorem blamed_cons (call : Call) (calls : List Call) (origin : Span) :
    blamed (call :: calls) origin = (blamed calls origin).broughtTo call.span :=
  rfl

end Raised

namespace Failure

@[simp] theorem settle_placed (cause : Cause) (span : Span) (place : Place) :
    (⟨cause, span.place⟩ : Failure).settle place = ⟨cause, span.place⟩ :=
  rfl

theorem bringTo_placed (cause : Cause) (span call : Span) :
    (⟨cause, span.place⟩ : Failure).bringTo call = ⟨cause, (span.broughtTo call).place⟩ := by
  by_cases other : span.source.map Source.identity ≠ call.source.map Source.identity
  · simp [bringTo, Span.broughtTo, Span.place, moveTo, other]
  · simp [bringTo, Span.broughtTo, Span.place, other]

end Failure

/-! ## Raising -/

section

variable (limits : Limits)

/-- An operator that names no form gives a function, and the arguments their values. -/
structure Called (depth : Nat) (dialect : DialectId) (operator : Expr) (args : List Expr)
    (scope : ScopeId) (s : Store) (f : Function) (values : List Value) (s' : Store) : Prop where
  ordinary : Dialect.standard.form? operator = none
  applied : ∃ v s₁, ((Setting.standard limits).evaluate depth dialect operator scope).Gives s v s₁ ∧
    v.function? = some f ∧
      (Setting.evaluateArgs ((Setting.standard limits).evaluate depth dialect · scope) args).Gives
        s₁ values s'

/-- What the evaluation of an expression raises. -/
inductive Raises : (depth : Nat) → DialectId → Expr → ScopeId → Store → Raised → Prop where
  | undefined {depth : Nat} {dialect : DialectId} {name : String} {span : Span} {scope : ScopeId}
      {s : Store} (unbound : s.lookup? scope name = none) :
      Raises (depth + 1) dialect (.word name span) scope s ⟨[], .undefined name, span⟩
  | malformed {depth : Nat} {dialect : DialectId} {special : Special} {at' : Span}
      {args : List Expr} {span : Span} {scope : ScopeId} {s : Store} {cause : Cause}
      {own : Option Span} (malformed : Special.Malformed special args cause own) :
      Raises (depth + 1) dialect (.apply (.word special.word at') args span) scope s
        ⟨[], cause, own.getD span⟩
  | demanded {depth : Nat} {dialect : DialectId} {special : Special} {at' : Span}
      {args : List Expr} {span : Span} {scope : ScopeId} {s s₁ : Store} {e : Expr} {r : Raised}
      (demanded : Special.Demands
        ⟨dialect, (Setting.standard limits).evaluate depth dialect, limits.rounds⟩
        scope s special args e s₁)
      (raised : Raises depth dialect e scope s₁ r) :
      Raises (depth + 1) dialect (.apply (.word special.word at') args span) scope s r
  | operator {depth : Nat} {dialect : DialectId} {operator : Expr} {args : List Expr} {span : Span}
      {scope : ScopeId} {s : Store} {r : Raised}
      (ordinary : Dialect.standard.form? operator = none)
      (raised : Raises depth dialect operator scope s r) :
      Raises (depth + 1) dialect (.apply operator args span) scope s r
  | notAFunction {depth : Nat} {dialect : DialectId} {operator : Expr} {args : List Expr}
      {span : Span} {scope : ScopeId} {s s₁ : Store} {v : Value}
      (ordinary : Dialect.standard.form? operator = none)
      (applied : ((Setting.standard limits).evaluate depth dialect operator scope).Gives s v s₁)
      (constant : v.function? = none) :
      Raises (depth + 1) dialect (.apply operator args span) scope s ⟨[], .notAFunction, span⟩
  | argument {depth : Nat} {dialect : DialectId} {operator e : Expr} {before after : List Expr}
      {span : Span} {scope : ScopeId} {s s₁ : Store} {f : Function} {values : List Value}
      {r : Raised} (called : Called limits depth dialect operator before scope s f values s₁)
      (raised : Raises depth dialect e scope s₁ r) :
      Raises (depth + 1) dialect (.apply operator (before ++ e :: after) span) scope s r
  | builtin {depth : Nat} {dialect : DialectId} {operator : Expr} {args : List Expr} {span : Span}
      {scope : ScopeId} {s s₁ s₂ : Store} {f : Builtin} {values : List Value} {cause : Cause}
      (called : Called limits depth dialect operator args scope s (.builtin f) values s₁)
      (failed : (f.call values).Fails s₁ (.ofCause cause) s₂) :
      Raises (depth + 1) dialect (.apply operator args span) scope s ⟨[], cause, span⟩
  | arity {depth : Nat} {dialect : DialectId} {operator : Expr} {args : List Expr} {span : Span}
      {scope : ScopeId} {s s₁ : Store} {f : Closure} {values : List Value}
      (called : Called limits depth dialect operator args scope s (.closure f) values s₁)
      (misfit : values.length ≠ f.parameters.length) :
      Raises (depth + 1) dialect (.apply operator args span) scope s
        ⟨[], .arity f.parameters.length values.length, span⟩
  | body {depth : Nat} {dialect : DialectId} {operator : Expr} {args : List Expr} {span : Span}
      {scope : ScopeId} {s s₁ : Store} {f : Closure} {values : List Value} {r : Raised}
      (called : Called limits depth dialect operator args scope s (.closure f) values s₁)
      (fits : values.length = f.parameters.length)
      (raised : Raises depth f.dialect f.body
        (s₁.newScope (Ordered.ofList (f.parameters.zip values)) (some f.scope)).1
        (s₁.newScope (Ordered.ofList (f.parameters.zip values)) (some f.scope)).2 r) :
      Raises (depth + 1) dialect (.apply operator args span) scope s
        ⟨⟨span, f⟩ :: r.calls, r.cause, r.origin⟩

end

/-! ## One evaluation -/

/-- A built-in function does not know where it was called. -/
theorem Builtin.call_fails {b : Builtin} {values : List Value} {s s' : Store} {f : Failure}
    (failed : (b.call values).Fails s f s') : ∃ cause, f = .ofCause cause := by
  unfold Builtin.call at failed
  split at failed
  · rename_i op a b'
    have refused := (Eval.stops_ofExcept.1 failed).1
    unfold Operator.apply at refused
    split at refused
    · cases refused
    · cases refused
    · cases refused
      exact ⟨_, rfl⟩
  · obtain printed | ⟨_, _, -, done⟩ := Eval.stops_bind.1 failed
    · exact (Eval.stops_step printed).elim
    · exact (Eval.stops_pure done).elim
  · cases (Eval.stops_fail.1 failed).1
    exact ⟨_, rfl⟩

/-- A call of a function fails for the number of its arguments, or in its body. -/
theorem Closure.call_fails_iff {evaluate : DialectId → Expr → ScopeId → Eval Value} {g : Closure}
    {values : List Value} {s s' : Store} {f : Failure} :
    (g.call evaluate values).Fails s f s' ↔
      (values.length ≠ g.parameters.length ∧
          f = .ofCause (.arity g.parameters.length values.length) ∧ s' = s) ∨
        values.length = g.parameters.length ∧
          (evaluate g.dialect g.body
            (s.newScope (Ordered.ofList (g.parameters.zip values)) (some g.scope)).1).Fails
            (s.newScope (Ordered.ofList (g.parameters.zip values)) (some g.scope)).2 f s' := by
  unfold Closure.call
  split
  · rename_i fits
    rw [Eval.Fails, Eval.stops_bind]
    constructor
    · rintro (failed | ⟨inner, s₁, made, failed⟩)
      · exact (Eval.stops_step failed).elim
      · cases Eval.gives_step.1 made
        exact .inr ⟨fits, failed⟩
    · rintro (⟨misfit, -, -⟩ | ⟨-, failed⟩)
      · exact absurd fits misfit
      · exact .inr ⟨_, _, Eval.gives_step.2 rfl, failed⟩
  · rename_i misfit
    rw [Eval.Fails, Eval.stops_fail]
    constructor
    · rintro ⟨same, rfl⟩
      cases same
      exact .inl ⟨misfit, rfl, rfl⟩
    · rintro (⟨-, rfl, rfl⟩ | ⟨fits, -⟩)
      · exact ⟨rfl, rfl⟩
      · exact absurd fits misfit

section

variable {limits : Limits} {depth : Nat} {dialect : DialectId} {operator : Expr} {args : List Expr}
  {span : Span} {scope : ScopeId} {s s' : Store} {f : Failure}

theorem special_fails_iff {special : Special} {at' : Span} :
    ((Setting.standard limits).evaluate (depth + 1) dialect
        (.apply (.word special.word at') args span) scope).Fails s f s' ↔
      ∃ f', special.FailsBy
        ⟨dialect, (Setting.standard limits).evaluate depth dialect, limits.rounds⟩
        args scope s f' s' ∧ f = f'.settle span.place := by
  have named : Dialect.standard.form? (.word special.word at') = some special.form :=
    special.find?_standard
  have unfolded : (Setting.standard limits).evaluate (depth + 1) dialect
      (.apply (.word special.word at') args span) scope =
        (special.form ⟨dialect, (Setting.standard limits).evaluate depth dialect, limits.rounds⟩
          args scope).onFailure (·.settle span.place) := by
    simp only [Setting.evaluate, Setting.standard, named]
  simp only [unfolded, Eval.fails_onFailure, Special.fails_iff]

/-- An ordinary application fails in its operator, for a value that is no function, in its
arguments, or in the call. -/
theorem ordinary_fails_iff (ordinary : Dialect.standard.form? operator = none) :
    ((Setting.standard limits).evaluate (depth + 1) dialect
        (.apply operator args span) scope).Fails s f s' ↔
      ∃ f', f = f'.settle span.place ∧
        (((Setting.standard limits).evaluate depth dialect operator scope).Fails s f' s' ∨
          ∃ v s₁, ((Setting.standard limits).evaluate depth dialect operator scope).Gives s v s₁ ∧
            ((v.function? = none ∧ f' = .ofCause .notAFunction ∧ s' = s₁) ∨
              ∃ g, v.function? = some g ∧
                ((Setting.evaluateArgs
                    ((Setting.standard limits).evaluate depth dialect · scope) args).Fails s₁ f' s' ∨
                  ∃ values s₂, (Setting.evaluateArgs
                      ((Setting.standard limits).evaluate depth dialect · scope) args).Gives
                      s₁ values s₂ ∧
                    ∃ f'', (g.call ((Setting.standard limits).evaluate depth) values).Fails
                      s₂ f'' s' ∧ f' = f''.bringTo span))) := by
  rw [Setting.evaluate, Eval.fails_onFailure]
  refine exists_congr fun f' => ?_
  rw [and_comm]
  refine and_congr_right fun _ => ?_
  split
  · rename_i form found
    cases ordinary.symm.trans found
  rw [Eval.Fails, Eval.stops_bind]
  refine or_congr_right (exists_congr fun v => exists_congr fun s₁ => and_congr_right fun _ => ?_)
  cases called : v.function? with
  | none => simp [Stop.ofCause]
  | some g =>
      simp only [reduceCtorEq, false_and, false_or, Option.some.injEq, exists_eq_left',
        Eval.stops_bind]
      refine or_congr_right (exists_congr fun values => exists_congr fun s₂ => ?_)
      rw [← Eval.fails_onFailure]

/-- A call of a function that fails makes the application fail. -/
theorem Called.fails (span : Span) {g : Function} {values : List Value} {s₁ : Store}
    (called : Called limits depth dialect operator args scope s g values s₁)
    (failed : (g.call ((Setting.standard limits).evaluate depth) values).Fails s₁ f s') :
    ((Setting.standard limits).evaluate (depth + 1) dialect
      (.apply operator args span) scope).Fails s ((f.bringTo span).settle span.place) s' := by
  obtain ⟨ordinary, v, s₂, applied, callable, passed⟩ := called
  exact (ordinary_fails_iff ordinary).2
    ⟨_, rfl, .inr ⟨v, s₂, applied, .inr ⟨g, callable, .inr ⟨values, s₁, passed, f, failed, rfl⟩⟩⟩⟩

end

/-! ## Whole evaluations -/

section

variable {limits : Limits}

/-- What is raised is the failure of the evaluation. -/
theorem Raises.fails {depth : Nat} {dialect : DialectId} {e : Expr} {scope : ScopeId} {s : Store}
    {r : Raised} (raised : Raises limits depth dialect e scope s r) :
    ∃ s', ((Setting.standard limits).evaluate depth dialect e scope).Fails s r.failure s' := by
  induction raised with
  | undefined unbound =>
      exact ⟨_, Eval.fails_onFailure.2 ⟨_, Eval.stops_lookup.2 ⟨unbound, rfl, rfl⟩, rfl⟩⟩
  | @malformed _ _ _ _ _ _ _ _ _ own malformed =>
      refine ⟨_, special_fails_iff.2 ⟨_, .inl ⟨_, own, malformed, rfl, rfl⟩, ?_⟩⟩
      cases own <;> rfl
  | demanded demanded _ ih =>
      obtain ⟨s', failed⟩ := ih
      exact ⟨s', special_fails_iff.2 ⟨_, .inr ⟨_, _, demanded, failed⟩, rfl⟩⟩
  | operator ordinary _ ih =>
      obtain ⟨s', failed⟩ := ih
      exact ⟨s', (ordinary_fails_iff ordinary).2 ⟨_, rfl, .inl failed⟩⟩
  | notAFunction ordinary applied constant =>
      exact ⟨_, (ordinary_fails_iff ordinary).2
        ⟨_, rfl, .inr ⟨_, _, applied, .inl ⟨constant, rfl, rfl⟩⟩⟩⟩
  | @argument _ _ _ _ _ after _ _ _ _ _ _ _ called _ ih =>
      obtain ⟨s', failed⟩ := ih
      obtain ⟨ordinary, v, s₁, applied, callable, passed⟩ := called
      have argsFail := Setting.evaluateArgs_fails_iff.2 ⟨_, _, after, _, _, rfl, passed, failed⟩
      exact ⟨s', (ordinary_fails_iff ordinary).2
        ⟨_, rfl, .inr ⟨v, s₁, applied, .inr ⟨_, callable, .inl argsFail⟩⟩⟩⟩
  | @builtin _ _ _ _ span _ _ _ _ _ _ _ called failed => exact ⟨_, called.fails span failed⟩
  | @arity _ _ _ _ span _ _ _ _ _ called misfit =>
      exact ⟨_, called.fails span (Closure.call_fails_iff.2 (.inl ⟨misfit, rfl, rfl⟩))⟩
  | @body _ _ _ _ span _ _ _ _ _ r called fits _ ih =>
      obtain ⟨s', inBody⟩ := ih
      refine ⟨s', ?_⟩
      have failed := called.fails span (Closure.call_fails_iff.2 (.inr ⟨fits, inBody⟩))
      rwa [Raised.failure, Failure.bringTo_placed, Failure.settle_placed] at failed

/-- Every failure of an evaluation was raised. -/
theorem raises_of_fails {depth : Nat} {dialect : DialectId} {e : Expr} {scope : ScopeId}
    {s s' : Store} {f : Failure}
    (failed : ((Setting.standard limits).evaluate depth dialect e scope).Fails s f s') :
    ∃ r, Raises limits depth dialect e scope s r ∧ r.failure = f := by
  -- A part is evaluated one level down, so what failed in it was raised in it.  The bodies
  -- of functions are parts in this sense, too.
  induction depth generalizing dialect e scope s s' f with
  | zero => cases (Eval.stops_crash.1 failed).1
  | succ depth ih =>
      cases e with
      | literal value span => exact (Eval.stops_pure failed).elim
      | function => exact (Eval.stops_pure failed).elim
      | abstract => cases (Eval.stops_crash.1 failed).1
      | word name span =>
          obtain ⟨f', missing, rfl⟩ := Eval.fails_onFailure.1 failed
          obtain ⟨unbound, same, -⟩ := Eval.stops_lookup.1 missing
          cases same
          exact ⟨_, .undefined unbound, rfl⟩
      | apply operator args span =>
          cases found : Dialect.standard.form? operator with
          | some form =>
              obtain ⟨special, at', rfl, -⟩ := Special.exists_of_form? found
              obtain ⟨f', ⟨cause, own, malformed, rfl, -⟩ | ⟨e, s₁, demanded, inside⟩, rfl⟩ :=
                special_fails_iff.1 failed
              · refine ⟨_, .malformed malformed, ?_⟩
                cases own <;> rfl
              · obtain ⟨r, raised, rfl⟩ := ih inside
                exact ⟨r, .demanded demanded raised, rfl⟩
          | none =>
              obtain ⟨f', rfl, inOperator | ⟨v, s₁, applied, rest⟩⟩ :=
                (ordinary_fails_iff found).1 failed
              · obtain ⟨r, raised, rfl⟩ := ih inOperator
                exact ⟨r, .operator found raised, rfl⟩
              obtain ⟨constant, rfl, -⟩ | ⟨g, callable, argsFail | ⟨values, s₂, passed, f'', call, rfl⟩⟩ :=
                rest
              · exact ⟨_, .notAFunction found applied constant, rfl⟩
              · obtain ⟨before, e, after, values, s₂, rfl, passed, inArgument⟩ :=
                  Setting.evaluateArgs_fails_iff.1 argsFail
                obtain ⟨r, raised, rfl⟩ := ih inArgument
                exact ⟨r, .argument ⟨found, v, s₁, applied, callable, passed⟩ raised, rfl⟩
              · have called : Called limits depth dialect operator args scope s g values s₂ :=
                  ⟨found, v, s₁, applied, callable, passed⟩
                cases g with
                | builtin b =>
                    obtain ⟨cause, rfl⟩ := Builtin.call_fails call
                    exact ⟨_, .builtin called call, rfl⟩
                | closure g =>
                    obtain ⟨misfit, rfl, -⟩ | ⟨fits, inBody⟩ := Closure.call_fails_iff.1 call
                    · exact ⟨_, .arity called misfit, rfl⟩
                    · obtain ⟨r, raised, rfl⟩ := ih inBody
                      refine ⟨_, .body called fits raised, ?_⟩
                      exact congrArg (Failure.settle · span.place)
                        (Failure.bringTo_placed r.cause _ span).symm

/-- An evaluation fails exactly if it raises something, and with the failure that was
raised. -/
theorem evaluate_fails_iff {depth : Nat} {dialect : DialectId} {e : Expr} {scope : ScopeId}
    {s : Store} {f : Failure} :
    (∃ s', ((Setting.standard limits).evaluate depth dialect e scope).Fails s f s') ↔
      ∃ r, Raises limits depth dialect e scope s r ∧ r.failure = f := by
  constructor
  · rintro ⟨s', failed⟩
    exact raises_of_fails failed
  · rintro ⟨r, raised, rfl⟩
    exact raised.fails

end

end EggLanguage
