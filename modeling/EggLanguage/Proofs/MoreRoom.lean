/-
# EggLanguage.Proofs.MoreRoom -- room on the stack decides nothing but whether it lasts

An evaluation that has more room on the stack does the same as one that has less, unless the
latter exhausts it (`Setting.evaluate_within`).  The limits bear on evaluation in no other way
than by the rounds that a loop may take (`Setting.evaluate_eq`).

`Eval.Within` compares two computations, and has one law for each way of making one.
-/
import Mathlib.Data.List.Basic
import EggLanguage.Proofs.Raising

namespace EggLanguage

set_option autoImplicit false

/-! ## Computations -/

namespace Eval

variable {α β : Type}

/-- From every store, the first computation exhausts the stack, or the second one does what it
does. -/
def Within (x x' : Eval α) : Prop :=
  ∀ s, (x.outcome s).1 = .error (.crash .stackExhausted) ∨ x'.outcome s = x.outcome s

namespace Within

theorem refl (x : Eval α) : x.Within x :=
  fun _ => .inr rfl

theorem exhausted (x : Eval α) : (Eval.crash .stackExhausted : Eval α).Within x :=
  fun _ => .inl rfl

theorem bind {x x' : Eval α} {next next' : α → Eval β} (first : x.Within x')
    (second : ∀ a, (next a).Within (next' a)) : (x >>= next).Within (x' >>= next') := by
  intro s
  rw [outcome_bind, outcome_bind]
  obtain exhausted | same := first s
  · generalize x.outcome s = ended at exhausted
    obtain ⟨result, s₁⟩ := ended
    obtain rfl : result = .error (.crash .stackExhausted) := exhausted
    exact .inl rfl
  · rw [same]
    cases x.outcome s with
    | mk result s₁ =>
        cases result with
        | ok a => exact second a s₁
        | error e => exact .inr rfl

theorem onFailure {x x' : Eval α} (change : Failure → Failure) (within : x.Within x') :
    (x.onFailure change).Within (x'.onFailure change) := by
  intro s
  rw [outcome_onFailure, outcome_onFailure]
  obtain exhausted | same := within s
  · generalize x.outcome s = ended at exhausted
    obtain ⟨result, s₁⟩ := ended
    obtain rfl : result = .error (.crash .stackExhausted) := exhausted
    exact .inl rfl
  · rw [same]
    exact .inr rfl

theorem repeatWhile {round round' : Eval Bool} (within : round.Within round') (rounds : Nat) :
    (Eval.repeatWhile round rounds).Within (Eval.repeatWhile round' rounds) := by
  induction rounds with
  | zero => exact .refl _
  | succ rounds ih =>
      refine within.bind fun again => ?_
      cases again with
      | true => exact ih
      | false => exact .refl _

end Within

end Eval

/-! ## Parts of an evaluation -/

theorem Setting.evaluateArgs_within {evaluate evaluate' : Expr → Eval Value} {args : List Expr}
    (each : ∀ e ∈ args, (evaluate e).Within (evaluate' e)) :
    (evaluateArgs evaluate args).Within (evaluateArgs evaluate' args) := by
  induction args with
  | nil => exact .refl _
  | cons e rest ih =>
      rw [List.forall_mem_cons] at each
      exact each.1.bind fun value => (ih each.2).bind fun values => .refl _

/-- A form whose arguments have more room has more room. -/
theorem Special.within {dialect : DialectId} {evaluate evaluate' : Expr → ScopeId → Eval Value}
    {rounds : Nat} {args : List Expr} {scope : ScopeId} (special : Special)
    (each : ∀ e ∈ args, (evaluate e scope).Within (evaluate' e scope)) :
    (special.form ⟨dialect, evaluate, rounds⟩ args scope).Within
      (special.form ⟨dialect, evaluate', rounds⟩ args scope) := by
  cases special with
  | conditional =>
      show (Form.conditional _ args scope).Within (Form.conditional _ args scope)
      by_cases count : args.length = 3
      · obtain ⟨c, a, b, rfl⟩ := List.length_eq_three.1 count
        refine (each c (by simp)).bind fun v => ?_
        split
        · exact each a (by simp)
        · exact each b (by simp)
      · rw [conditional_of_count count, conditional_of_count count]
        exact .refl _
  | loop =>
      show (Form.loop _ args scope).Within (Form.loop _ args scope)
      by_cases count : args.length = 2
      · obtain ⟨c, body, rfl⟩ := List.length_eq_two.1 count
        have round : (Special.round ⟨dialect, evaluate, rounds⟩ c body scope).Within
            (Special.round ⟨dialect, evaluate', rounds⟩ c body scope) := by
          refine (each c (by simp)).bind fun v => ?_
          split
          · exact (each body (by simp)).bind fun _ => .refl _
          · exact .refl _
        rw [loop_eq, loop_eq]
        exact (round.repeatWhile rounds).bind fun _ => .refl _
      · rw [loop_of_count count, loop_of_count count]
        exact .refl _
  | sequence =>
      show (Form.sequence _ args scope).Within (Form.sequence _ args scope)
      rw [Form.sequence, Form.sequence, Form.inOrder_eq, Form.inOrder_eq]
      exact (Setting.evaluateArgs_within each).bind fun _ => .refl _
  | definition =>
      show (Form.definition _ args scope).Within (Form.definition _ args scope)
      by_cases shape : ∃ name span e, args = [.word name span, e]
      · obtain ⟨name, span, e, rfl⟩ := shape
        exact (each e (by simp)).bind fun _ => .refl _
      · have wrong : ∀ name span e, args ≠ [.word name span, e] := fun name span e same =>
          shape ⟨name, span, e, same⟩
        rw [definition_of_shape wrong, definition_of_shape wrong]
        exact .refl _
  | function => exact .refl _

theorem Closure.call_within {evaluate evaluate' : DialectId → Expr → ScopeId → Eval Value}
    (bodies : ∀ dialect e scope, (evaluate dialect e scope).Within (evaluate' dialect e scope))
    (f : Closure) (values : List Value) : (f.call evaluate values).Within (f.call evaluate' values) := by
  unfold Closure.call
  split
  · exact (Eval.Within.refl _).bind fun scope => bodies f.dialect f.body scope
  · exact .refl _

theorem Function.call_within {evaluate evaluate' : DialectId → Expr → ScopeId → Eval Value}
    (bodies : ∀ dialect e scope, (evaluate dialect e scope).Within (evaluate' dialect e scope))
    (f : Function) (values : List Value) : (f.call evaluate values).Within (f.call evaluate' values) := by
  cases f with
  | builtin b => exact .refl _
  | closure f => exact f.call_within bodies values

/-! ## Evaluation -/

namespace Setting

/-- Of the limits, evaluation with so much room depends on the rounds of a loop only. -/
theorem evaluate_eq {setting setting' : Setting} (dialects : setting.dialects = setting'.dialects)
    (rounds : setting.limits.rounds = setting'.limits.rounds) (depth : Nat) :
    setting.evaluate depth = setting'.evaluate depth := by
  induction depth with
  | zero => rfl
  | succ depth ih =>
      funext dialect e scope
      cases e with
      | apply operator args span => rw [evaluate, evaluate, ih, dialects, rounds]
      | _ => rfl

/-- **More room.**  An evaluation exhausts the stack, or does what it does with any more room. -/
theorem evaluate_within (limits : Limits) {depth depth' : Nat} (le : depth ≤ depth')
    (dialect : DialectId) (e : Expr) (scope : ScopeId) :
    ((standard limits).evaluate depth dialect e scope).Within
      ((standard limits).evaluate depth' dialect e scope) := by
  induction depth generalizing depth' dialect e scope with
  | zero => exact .exhausted _
  | succ depth ih =>
      obtain ⟨depth', rfl⟩ := Nat.exists_eq_add_one_of_ne_zero (Nat.ne_zero_of_lt le)
      replace ih := fun dialect e scope => ih (Nat.le_of_succ_le_succ le) dialect e scope
      cases e with
      | apply operator args span =>
          rw [evaluate, evaluate]
          refine Eval.Within.onFailure _ ?_
          split
          · rename_i form found
            obtain ⟨special, at', -, rfl⟩ := Special.exists_of_form? found
            exact special.within fun a _ => ih dialect a scope
          · refine (ih dialect operator scope).bind fun v => ?_
            split
            · exact .refl _
            · rename_i f callable
              refine (evaluateArgs_within fun a _ => ih dialect a scope).bind fun values => ?_
              exact (f.call_within ih values).onFailure _
      | _ => exact .refl _

end Setting

end EggLanguage
