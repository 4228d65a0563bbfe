/-
# EggLanguage.Proofs.Invariants -- what every evaluation keeps

Evaluation changes a store in five ways only: it binds a name in the scope it takes place in,
makes a function, makes the scope of a call, and prints a value; and it gives constants, values
that it looks up, and functions it made.  A property of stores that goes with all of these
(`Setting.Maintained`) is kept by every evaluation, however it ends (`evaluate_maintains`).

The property of stores comes with one of values, and with one of expressions in scopes: the
evaluations that are allowed.  Such an evaluation leads to allowed ones only.
-/
import EggLanguage.Proofs.Raising

namespace EggLanguage

set_option autoImplicit false

/-- A property of stores, of values and of evaluations that goes with all that evaluation
does. -/
structure Setting.Maintained (inv : Store → Prop) (good : Value → Prop)
    (allowed : Expr → ScopeId → Prop) : Prop where
  constant : ∀ c, good (.constant c)
  /-- A function may stand in an expression as a value. -/
  function : ∀ {identity parameters body home dialect span scope},
    allowed (.function identity parameters body home dialect span) scope →
      good (.closure ⟨identity, parameters, body, home, dialect⟩)
  lookup : ∀ {s scope name v}, inv s → s.lookup? scope name = some v → good v
  operator : ∀ {operator args span scope}, allowed (.apply operator args span) scope →
    allowed operator scope
  argument : ∀ {operator args span scope a}, allowed (.apply operator args span) scope → a ∈ args →
    allowed a scope
  bind : ∀ {s e scope name v}, allowed e scope → inv s → good v → inv (s.bind scope name v)
  made : ∀ {s parameters body scope dialect}, allowed body scope → inv s →
    inv (s.newFunction parameters body scope dialect).2 ∧
      good (s.newFunction parameters body scope dialect).1
  print : ∀ {s v}, inv s → good v → inv (s.print v)
  /-- A call binds the parameters in a new scope, and evaluates the body there. -/
  call : ∀ {s f values}, inv s → good (.closure f) → (∀ v ∈ values, good v) →
    inv (s.newScope (Ordered.ofList (f.parameters.zip values)) (some f.scope)).2 ∧
      allowed f.body s.scopes.size

theorem Operator.apply_ok {op : Operator} {a b v : Value} (applied : op.apply a b = .ok v) :
    ∃ c, v = .constant c := by
  unfold Operator.apply at applied
  split at applied
  · cases applied
    exact ⟨_, rfl⟩
  · cases applied
  · cases applied

/-- What can be called is a built-in function or one that a program made. -/
theorem Value.eq_closure {v : Value} {f : Closure} (callable : v.function? = some (.closure f)) :
    v = .closure f := by
  cases v with
  | constant c => cases c <;> cases callable
  | closure g =>
      cases callable
      rfl

namespace Setting.Maintained

variable {inv : Store → Prop} {good : Value → Prop} {allowed : Expr → ScopeId → Prop}
  (maintained : Maintained inv good allowed)

include maintained

theorem call_builtin {b : Builtin} {values : List Value} (goodArgs : ∀ v ∈ values, good v) :
    (b.call values).Keeps inv good := by
  unfold Builtin.call
  split
  · refine .ofExcept fun v applied => ?_
    obtain ⟨c, rfl⟩ := Operator.apply_ok applied
    exact maintained.constant c
  · rename_i v
    have goodArg : good v := goodArgs v (by simp)
    have prints : (Eval.print v).Keeps inv fun _ => True :=
      .step fun s start => ⟨maintained.print start goodArg, trivial⟩
    exact prints.bind fun _ _ => .pure goodArg
  · exact .fail _

theorem call_closure {evaluate : DialectId → Expr → ScopeId → Eval Value} {f : Closure}
    {values : List Value} (goodFunction : good (.closure f)) (goodArgs : ∀ v ∈ values, good v)
    (body : ∀ scope, allowed f.body scope → (evaluate f.dialect f.body scope).Keeps inv good) :
    (f.call evaluate values).Keeps inv good := by
  unfold Closure.call
  split
  · have enters : (Eval.newScope (Ordered.ofList (f.parameters.zip values)) (some f.scope)).Keeps
        inv (allowed f.body) :=
      .step fun s start => maintained.call start goodFunction goodArgs
    exact enters.bind body
  · exact .fail _

/-- **Evaluation keeps what goes with its steps.**  The induction is on the depth of the
evaluations that are under way. -/
theorem evaluate_maintains {limits : Limits} (depth : Nat) (dialect : DialectId) (e : Expr)
    (scope : ScopeId) (may : allowed e scope) :
    ((standard limits).evaluate depth dialect e scope).Keeps inv good := by
  induction depth generalizing dialect e scope with
  | zero => exact .crash _
  | succ depth ih =>
      cases e with
      | literal value span => exact .pure (maintained.constant value)
      | function identity parameters body home dialect span => exact .pure (maintained.function may)
      | abstract => exact .crash _
      | word name span =>
          have reads : (Eval.lookup scope name).Keeps inv good :=
            .lookup fun s v start found => maintained.lookup start found
          exact reads.onFailure
      | apply operator args span =>
          have each : ∀ a ∈ args, ((standard limits).evaluate depth dialect a scope).Keeps inv good :=
            fun a member => ih dialect a scope (maintained.argument may member)
          refine Eval.Keeps.onFailure ?_
          split
          · rename_i form found
            obtain ⟨special, at', -, rfl⟩ := Special.exists_of_form? found
            refine special.keeps each (fun b => maintained.constant (.bool b))
              (fun s name v start goodValue => maintained.bind may start goodValue) ?_
            exact fun s parameters body member start =>
              maintained.made (maintained.argument may member) start
          · refine (ih dialect operator scope (maintained.operator may)).bind fun v goodFunction => ?_
            split
            · exact .fail _
            · rename_i f callable
              refine (evaluateArgs_keeps each).bind fun values goodArgs => .onFailure ?_
              cases f with
              | builtin b => exact maintained.call_builtin goodArgs
              | closure f =>
                  rw [Value.eq_closure callable] at goodFunction
                  exact maintained.call_closure goodFunction goodArgs fun inner within =>
                    ih f.dialect f.body inner within

end Setting.Maintained

/-- Evaluation numbers no source. -/
theorem Setting.sources_maintained (n : Nat) :
    Maintained (fun s => s.sources = n) (fun _ => True) fun _ _ => True where
  constant _ := trivial
  function _ := trivial
  lookup _ _ := trivial
  operator _ := trivial
  argument _ _ := trivial
  bind _ start _ := start
  made _ start := ⟨start, trivial⟩
  print start _ := start
  call start _ _ := ⟨start, trivial⟩

end EggLanguage
