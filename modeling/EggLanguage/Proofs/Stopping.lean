/-
# EggLanguage.Proofs.Stopping -- what can stop a program

A program that was read from a text stops without a value in ordinary ways only
(`Stop.Ordinary`): it failed, for its grammar, for a name that is not bound or for the type
of a value, or a limit of the machine was reached.  Every other crash needs a node that no
text denotes.  `Setting.evaluate_orderly` says so for the evaluation of any expression
without such nodes, as long as the functions it may call have none either.

`Eval.Orderly` goes beside `Eval.Keeps`: what a computation keeps says in which stores its
later parts start, and what those stop with is the matter of this module.
-/
import EggLanguage.Proofs.Bodies

namespace EggLanguage

set_option autoImplicit false

/-! ## Ordinary stops -/

/-- The crashes that a limit of the machine accounts for. -/
def Crash.isLimit : Crash → Bool
  | stackExhausted | outOfMemory | unfinished => true
  | _ => false

/-- The kinds of failure that the text of a program can bring about. -/
def Kind.isOfPrograms : Kind → Bool
  | grammar | reference | type => true
  | general | file => false

theorem Crash.isLimit_iff {c : Crash} :
    c.isLimit = true ↔ c ∈ [stackExhausted, outOfMemory, unfinished] := by
  cases c <;> simp [isLimit]

theorem Kind.name_of_isOfPrograms {kind : Kind} (ofPrograms : kind.isOfPrograms = true) :
    kind.name ∈ ["SyntaxError", "ReferenceError", "TypeError"] := by
  cases kind with
  | general => cases ofPrograms
  | grammar => decide
  | reference => decide
  | type => decide
  | file => cases ofPrograms

/-- What stops a program that was read from a text. -/
inductive Stop.Ordinary : Stop → Prop where
  | failure {f : Failure} (kind : f.cause.kind.isOfPrograms = true) : Ordinary (.failure f)
  | limit {c : Crash} (limit : c.isLimit = true) : Ordinary (.crash c)

theorem Stop.Ordinary.ofCause {cause : Cause} (kind : cause.kind.isOfPrograms = true) :
    (Stop.ofCause cause).Ordinary :=
  .failure kind

/-- To find the place of a failure leaves its cause. -/
theorem Stop.Ordinary.mapFailure {e : Stop} (ordinary : e.Ordinary) {change : Failure → Failure}
    (keepsCause : ∀ f, (change f).cause = f.cause) : (e.mapFailure change).Ordinary := by
  cases ordinary with
  | failure kind => exact .failure (by rwa [keepsCause])
  | limit limit => exact .limit limit

/-! ## Computations -/

namespace Eval

variable {α β : Type} {inv : Store → Prop}

/-- From stores with a property the computation stops in ordinary ways only. -/
def Orderly (inv : Store → Prop) (x : Eval α) : Prop :=
  ∀ s e s', inv s → x.Stops s e s' → e.Ordinary

namespace Orderly

theorem pure (a : α) : Orderly inv (Pure.pure a : Eval α) :=
  fun _ _ _ _ stopped => (stops_pure stopped).elim

theorem stop {e : Stop} (ordinary : e.Ordinary) : Orderly inv (throw e : Eval α) := by
  intro s e' s' _ stopped
  obtain ⟨rfl, -⟩ := stops_throw.1 stopped
  exact ordinary

theorem fail {cause : Cause} (kind : cause.kind.isOfPrograms = true) :
    Orderly inv (Eval.fail cause : Eval α) :=
  stop (.ofCause kind)

theorem ofExcept {result : Except Stop α} (ordinary : ∀ e, result = .error e → e.Ordinary) :
    Orderly inv (Eval.ofExcept result) := by
  intro s e s' _ stopped
  exact ordinary e (stops_ofExcept.1 stopped).1

theorem step (change : Store → α × Store) : Orderly inv (Eval.step change) :=
  fun _ _ _ _ stopped => (stops_step stopped).elim

theorem bind {good : α → Prop} {x : Eval α} {next : α → Eval β} (keeps : x.Keeps inv good)
    (first : x.Orderly inv) (second : ∀ a, good a → (next a).Orderly inv) :
    Orderly inv (x >>= next) := by
  intro s e s' start stopped
  obtain stopped | ⟨a, s₁, given, stopped⟩ := stops_bind.1 stopped
  · exact first s e s' start stopped
  · obtain ⟨middle, goodFirst⟩ := keeps.gives start given
    exact second a goodFirst s₁ e s' middle stopped

/-- What is done with a result at the end stops nothing. -/
theorem thenPure {x : Eval α} (orderly : x.Orderly inv) (f : α → β) :
    Orderly inv (x >>= fun a => Pure.pure (f a)) := by
  intro s e s' start stopped
  obtain stopped | ⟨_, _, -, stopped⟩ := stops_bind.1 stopped
  · exact orderly s e s' start stopped
  · exact (stops_pure stopped).elim

theorem onFailure {x : Eval α} {change : Failure → Failure} (orderly : x.Orderly inv)
    (keepsCause : ∀ f, (change f).cause = f.cause) : Orderly inv (x.onFailure change) := by
  intro s e s' start stopped
  obtain ⟨e', inside, rfl⟩ := stops_onFailure.1 stopped
  exact (orderly s e' s' start inside).mapFailure keepsCause

theorem lookup (scope : ScopeId) (name : String) : Orderly inv (Eval.lookup scope name) := by
  intro s e s' _ stopped
  obtain ⟨-, rfl, -⟩ := stops_lookup.1 stopped
  exact .ofCause rfl

theorem repeatWhile {round : Eval Bool} (keeps : round.Keeps inv fun _ => True)
    (orderly : round.Orderly inv) (rounds : Nat) : Orderly inv (Eval.repeatWhile round rounds) := by
  induction rounds with
  | zero => exact stop (.limit rfl)
  | succ rounds ih =>
      refine bind keeps orderly fun again _ => ?_
      cases again with
      | true => exact ih
      | false => exact pure ()

end Orderly

end Eval

/-! ## The parts of an evaluation -/

section

variable {inv : Store → Prop} {good : Value → Prop}

theorem Setting.evaluateArgs_orderly {evaluate : Expr → Eval Value} {args : List Expr}
    (keeps : ∀ e ∈ args, (evaluate e).Keeps inv good)
    (orderly : ∀ e ∈ args, (evaluate e).Orderly inv) : (evaluateArgs evaluate args).Orderly inv := by
  induction args with
  | nil => exact .pure _
  | cons e rest ih =>
      rw [List.forall_mem_cons] at keeps orderly
      refine .bind keeps.1 orderly.1 fun v _ => ?_
      exact (ih keeps.2 orderly.2).thenPure (v :: ·)

/-- Parameters that are nodes of a text are refused in an ordinary way. -/
theorem Form.parameterNames_ordinary {args : List Expr} (concrete : ∀ e ∈ args, e ≠ .abstract)
    {e : Stop} (refused : parameterNames args = .error e) : e.Ordinary := by
  induction args with
  | nil => cases refused
  | cons a rest ih =>
      rw [List.forall_mem_cons] at concrete
      cases a with
      | word name span =>
          rw [parameterNames] at refused
          cases failed : parameterNames rest with
          | ok names =>
              rw [failed] at refused
              cases refused
          | error e' =>
              rw [failed] at refused
              cases refused
              exact ih concrete.2 failed
      | literal value span =>
          cases refused
          exact .failure rfl
      | apply operator args span =>
          cases refused
          exact .failure rfl
      | function identity parameters body scope dialect span =>
          cases refused
          exact .failure rfl
      | abstract => exact absurd rfl concrete.1

/-- A form stops in ordinary ways if the evaluation of its arguments does. -/
theorem Special.orderly {it : Evaluator} {args : List Expr} {scope : ScopeId} (special : Special)
    (concrete : ∀ e ∈ args, e ≠ .abstract)
    (keeps : ∀ e ∈ args, (it.evaluate e scope).Keeps inv good)
    (orderly : ∀ e ∈ args, (it.evaluate e scope).Orderly inv) :
    (special.form it args scope).Orderly inv := by
  cases special with
  | conditional =>
      show (Form.conditional it args scope).Orderly inv
      unfold Form.conditional
      split
      · rename_i c a b
        refine .bind (keeps c (by simp)) (orderly c (by simp)) fun v _ => ?_
        split
        · exact orderly a (by simp)
        · exact orderly b (by simp)
      · exact .fail rfl
  | loop =>
      show (Form.loop it args scope).Orderly inv
      by_cases count : args.length = 2
      · obtain ⟨c, body, rfl⟩ : ∃ c body, args = [c, body] := by
          match args, count with
          | [c, body], _ => exact ⟨c, body, rfl⟩
        have keepsRound := keeps_round (keeps c (by simp)) (keeps body (by simp))
        have orderlyRound : (round it c body scope).Orderly inv := by
          refine .bind (keeps c (by simp)) (orderly c (by simp)) fun v _ => ?_
          split
          · exact (orderly body (by simp)).thenPure fun _ => true
          · exact .pure _
        rw [loop_eq]
        exact (orderlyRound.repeatWhile keepsRound it.rounds).thenPure fun _ => Value.bool false
      · rw [loop_of_count count]
        exact .fail rfl
  | sequence =>
      show (Form.sequence it args scope).Orderly inv
      rw [Form.sequence, Form.inOrder_eq]
      exact (Setting.evaluateArgs_orderly keeps orderly).thenPure fun values =>
        values.getLast?.getD (.bool false)
  | definition =>
      show (Form.definition it args scope).Orderly inv
      unfold Form.definition
      split
      · rename_i name span e
        refine .bind (keeps e (by simp)) (orderly e (by simp)) fun v _ => ?_
        exact (Eval.Orderly.step _).thenPure fun _ => v
      · exact .fail rfl
  | function =>
      show (Form.function it args scope).Orderly inv
      unfold Form.function
      split
      · exact .fail rfl
      · have named : (Eval.ofExcept (Form.parameterNames args.dropLast)).Keeps inv fun _ => True :=
          .ofExcept fun _ _ => trivial
        refine .bind named (.ofExcept fun e refused => ?_) fun names _ => .step _
        exact Form.parameterNames_ordinary (fun a member => concrete a (List.dropLast_subset _ member))
          refused

theorem Operator.apply_ordinary {op : Operator} {a b : Value} {e : Stop}
    (refused : op.apply a b = .error e) : e.Ordinary := by
  unfold Operator.apply at refused
  split at refused
  · cases refused
  · cases refused
    exact .limit rfl
  · cases refused
    exact .ofCause rfl

/-- A built-in function stops for its arguments, or because there is no memory for the
result. -/
theorem Builtin.call_orderly (b : Builtin) (values : List Value) : (b.call values).Orderly inv := by
  unfold Builtin.call
  split
  · exact .ofExcept fun e refused => Operator.apply_ordinary refused
  · rename_i value
    exact (Eval.Orderly.step _).thenPure fun _ => value
  · exact .fail rfl

theorem Closure.call_orderly {evaluate : DialectId → Expr → ScopeId → Eval Value} {f : Closure}
    {values : List Value}
    (enters : (Eval.newScope (Ordered.ofList (f.parameters.zip values)) (some f.scope)).Keeps inv
      fun _ => True)
    (body : ∀ scope, (evaluate f.dialect f.body scope).Orderly inv) :
    (f.call evaluate values).Orderly inv := by
  unfold Closure.call
  split
  · exact .bind enters (.step _) fun scope _ => body scope
  · exact .fail rfl

end

/-! ## Evaluation -/

/-- **Evaluation stops in ordinary ways.**  Let a property of expressions leave out the
abstract node, and hold of an expression and of all bodies in the store.  Then the expression
stops because it fails, with a failure of a kind that programs have, or at a limit. -/
theorem Setting.evaluate_orderly {K : Expr → Prop} (inherited : Expr.Inherited K)
    (concrete : ∀ e, K e → e ≠ .abstract) {limits : Limits} (depth : Nat) (dialect : DialectId)
    (e : Expr) (scope : ScopeId) (known : K e) :
    ((Setting.standard limits).evaluate depth dialect e scope).Orderly (Store.Holds K) := by
  induction depth generalizing dialect e scope with
  | zero => exact .stop (.limit rfl)
  | succ depth ih =>
      cases e with
      | literal value span => exact .pure _
      | function identity parameters body home dialect span => exact .pure _
      | abstract => exact absurd rfl (concrete _ known)
      | word name span => exact (Eval.Orderly.lookup scope name).onFailure fun f => by simp
      | apply operator args span =>
          have knownArgs : ∀ a ∈ args, K a := fun a member =>
            inherited _ a known (Expr.mem_nodes_argument operator member span)
          have keeps : ∀ a ∈ args, ((Setting.standard limits).evaluate depth dialect a scope).Keeps
              (Store.Holds K) (Value.Holds K) := fun a member =>
            evaluate_keeps inherited depth dialect a scope (knownArgs a member)
          have orderly : ∀ a ∈ args,
              ((Setting.standard limits).evaluate depth dialect a scope).Orderly (Store.Holds K) :=
            fun a member => ih dialect a scope (knownArgs a member)
          refine Eval.Orderly.onFailure ?_ fun f => by simp
          split
          · rename_i form found
            obtain ⟨special, at', -, rfl⟩ := Special.exists_of_form? found
            exact special.orderly (fun a member => concrete a (knownArgs a member)) keeps orderly
          · have knownOperator : K operator :=
              inherited _ operator known (Expr.mem_nodes_operator operator args span)
            have applies := @evaluate_keeps K limits inherited depth dialect operator scope
              knownOperator
            refine .bind applies (ih dialect operator scope knownOperator) fun v goodFunction => ?_
            split
            · exact .fail rfl
            · rename_i f callable
              have passes := Setting.evaluateArgs_keeps keeps
              refine .bind passes (Setting.evaluateArgs_orderly keeps orderly) fun values good => ?_
              refine Eval.Orderly.onFailure ?_ fun f => by simp
              cases f with
              | builtin b => exact Builtin.call_orderly b values
              | closure f =>
                  refine Closure.call_orderly ?_ fun scope =>
                    ih f.dialect f.body scope (goodFunction.body callable)
                  exact .step fun s start => ⟨start.newScope (forall_parameters good), trivial⟩

end EggLanguage
