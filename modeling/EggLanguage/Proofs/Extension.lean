/-
# EggLanguage.Proofs.Extension -- further special forms change no program

A program that applies none of the words that an extended dialect adds does the same under it
as under the standard one (`Dialect.extend_conservative`).  The functions it makes carry the
one dialect or the other.  They behave alike from then on: whatever a host asks next, of two
states that came about so, has the same answers (`Setting.answers_twin`), under whichever
dialects it asks.
-/
import EggLanguage.Proofs.Twins

namespace EggLanguage

set_option autoImplicit false

/-! ## What hosts ask -/

/-- What a host asks of the interpreter: the value of an expression under a dialect, or a call
of a value. -/
inductive Request where
  | evaluate (dialect : DialectId) (e : Expr) (scope : ScopeId)
  | call (callee : Value) (args : List Value)

/-- Requests that differ in dialects only. -/
inductive Request.Twin (agree : Agreement) : Request → Request → Prop where
  | evaluate {d d' : DialectId} {e e' : Expr} (twin : e.Twin agree d d' e') (scope : ScopeId) :
      Request.Twin agree (.evaluate d e scope) (.evaluate d' e' scope)
  | call {callee callee' : Value} {args args' : List Value} (callees : callee.Twin agree callee')
      (each : args.Forall₂ (Value.Twin agree) args') :
      Request.Twin agree (.call callee args) (.call callee' args')

namespace Setting

variable {setting : Setting} {known : DialectId → String → Prop}

def answer (setting : Setting) : Request → Eval Value
  | .evaluate dialect e scope => setting.run dialect e scope
  | .call callee args => setting.callValue callee args

/-- The answers to requests made one after another, and the state after them. -/
def answers (setting : Setting) : List Request → Store → List (Except Stop Value) × Store
  | [], s => ([], s)
  | request :: rest, s =>
      let (answer, s₁) := (setting.answer request).outcome s
      let (answers, s₂) := setting.answers rest s₁
      (answer :: answers, s₂)

theorem answer_twin (knows : setting.Knows known) {request request' : Request}
    (twin : request.Twin (setting.Agrees known) request') :
    (setting.answer request).Twin (setting.Agrees known) (setting.answer request') := by
  have sim := Correspondence.twins_simulates knows
  cases twin with
  | @evaluate d d' e e' twin scope =>
      have task : (Correspondence.twins (setting.Agrees known)).tasks 0 ⟨d, e, scope⟩
          ⟨d', e', scope⟩ := ⟨twin, rfl⟩
      exact Correspondence.inStep_iff.1 (sim.evaluate setting.limits.depth task)
  | call callees each => exact (Correspondence.inStep_iff (w := 0)).1 (sim.callValue callees each)

/-- States that are twins stay so, and give the same answers. -/
theorem answers_twin (knows : setting.Knows known) {requests requests' : List Request}
    (each : requests.Forall₂ (Request.Twin (setting.Agrees known)) requests') {s s' : Store}
    (states : s.Twin (setting.Agrees known) s') :
    (setting.answers requests s).1.Forall₂ (EndAlike Eq (Value.Twin (setting.Agrees known)))
        (setting.answers requests' s').1 ∧
      (setting.answers requests s).2.Twin (setting.Agrees known) (setting.answers requests' s').2 := by
  induction each generalizing s s' with
  | nil => exact ⟨.nil, states⟩
  | cons first _ ih =>
      obtain ⟨ends, stores⟩ := answer_twin knows first s s' states
      obtain ⟨others, last⟩ := ih stores
      exact ⟨.cons ends others, last⟩

/-! ## The standard dialect and an extended one -/

/-- A dialect that keeps the standard forms agrees with the standard one on the words that it
does not add. -/
theorem agrees_extend {plain extended : DialectId} (standard : setting.dialects plain = .standard)
    {forms : List (String × Form)} (extends' : setting.dialects extended = .extend forms)
    (kept : ∀ name ∈ Dialect.standard.names,
      (Dialect.extend forms).find? name = Dialect.standard.find? name)
    {name : String} (old : name ∈ (Dialect.extend forms).names → name ∈ Dialect.standard.names) :
    setting.Agrees known extended plain name := by
  refine .inl ⟨?_, by rw [standard]⟩
  rw [extends']
  by_cases member : name ∈ Dialect.standard.names
  · exact kept name member
  · have absent : ∀ dialect : Dialect, name ∉ dialect.names → dialect.find? name = none := by
      intro dialect outside
      rw [← Ordered.find?_isSome_iff] at outside
      exact Option.not_isSome_iff_eq_none.1 outside
    rw [absent _ (mt old member), absent _ member]

end Setting

/-- **Further special forms change no program.**  Under a dialect that keeps the standard forms,
an expression that applies none of the words that the dialect adds has the same outcome as
under the standard dialect: the same value, or the same failure at the same place, and the same
state, but that functions made meanwhile carry the one dialect or the other.  And whatever is
asked later, under whichever dialects, has the same answers in the two states.

Functions that were there before may belong to any dialects, as long as the further forms that
they apply are indifferent to the dialects of functions. -/
theorem Dialect.extend_conservative {setting : Setting} {known : DialectId → String → Prop}
    (knows : setting.Knows known) {plain extended : DialectId}
    (standard : setting.dialects plain = .standard) {forms : List (String × Form)}
    (extends' : setting.dialects extended = .extend forms)
    (kept : ∀ name ∈ Dialect.standard.names,
      (Dialect.extend forms).find? name = Dialect.standard.find? name)
    {e : Expr}
    (unused : ∀ name ∈ e.operators,
      name ∈ (Dialect.extend forms).names → name ∈ Dialect.standard.names)
    (held : Expr.FunctionsAgree (setting.Agrees known) e.nodes) (scope : ScopeId) {s : Store}
    (before : s.Agreeing (setting.Agrees known)) :
    OutcomeTwin (setting.Agrees known) ((setting.run extended e scope).outcome s)
        ((setting.run plain e scope).outcome s) ∧
      ∀ requests requests' : List Request,
        requests.Forall₂ (Request.Twin (setting.Agrees known)) requests' →
        let left := setting.answers requests ((setting.run extended e scope).outcome s).2
        let right := setting.answers requests' ((setting.run plain e scope).outcome s).2
        left.1.Forall₂ (EndAlike Eq (Value.Twin (setting.Agrees known))) right.1 ∧
          left.2.Twin (setting.Agrees known) right.2 := by
  have twin : e.Twin (setting.Agrees known) extended plain e :=
    Expr.twin_self
      ⟨fun name member => Setting.agrees_extend standard extends' kept (unused name member), held⟩
  have outcome : OutcomeTwin (setting.Agrees known) ((setting.run extended e scope).outcome s)
      ((setting.run plain e scope).outcome s) :=
    Setting.answer_twin knows (.evaluate twin scope) s s (Store.twin_self before)
  exact ⟨outcome, fun _ _ each => Setting.answers_twin knows each outcome.stores⟩

/-! ## An extended dialect -/

namespace Form

/-- `unless(condition, body)`: the body is evaluated only where the condition is false. -/
def unlessTrue : Form
  | it, [condition, body], scope => do
      if (← it.evaluate condition scope).isTruthy then return .bool false
      else it.evaluate body scope
  | _, _, _ => Eval.fail (.argumentCount "unless")

theorem unlessTrue_of_count {it : Evaluator} {args : List Expr} {scope : ScopeId}
    (count : args.length ≠ 2) : Form.unlessTrue it args scope = Eval.fail (.argumentCount "unless") := by
  unfold Form.unlessTrue
  split
  · exact absurd rfl count
  · rfl

/-- The form only evaluates, and asks whether a value is false. -/
theorem unlessTrue_indifferent (agree : Agreement) (dialect : DialectId) :
    Form.unlessTrue.Indifferent agree dialect := by
  intro it args args' scope _ each evaluates
  by_cases count : args.length = 2
  · obtain ⟨condition, body, rfl⟩ := List.length_eq_two.1 count
    obtain _ | ⟨first, _ | ⟨second, _ | _⟩⟩ := each
    refine (Correspondence.inStep_iff (w := 0)).1 ((Correspondence.inStep_iff.2
      (evaluates _ _ scope first)).bind fun _ v v' _ values => ?_)
    rw [values.isTruthy_eq]
    split
    · exact .pure (.constant _)
    · exact Correspondence.inStep_iff.2 (evaluates _ _ scope second)
  · rw [unlessTrue_of_count count, unlessTrue_of_count (each.length_eq ▸ count)]
    exact (Correspondence.inStep_iff (w := 0)).1 (.fail _)

end Form

namespace Setting

/-- A setting with the standard dialect and one with a further form. -/
def withUnless : Setting where
  dialects
    | 1 => .extend [("unless", Form.unlessTrue)]
    | _ => .standard
  limits := .standard

/-- The further form is known where it was added. -/
def knownUnless (dialect : DialectId) (name : String) : Prop :=
  dialect = 1 ∧ name = "unless"

theorem withUnless_knows : withUnless.Knows knownUnless := by
  rintro d name form ⟨rfl, rfl⟩ named
  cases named
  exact Form.unlessTrue_indifferent _ 1

/-- A state with a function that was made under the extended dialect, and applies the form:
`fun(x, unless(x, 1))`. -/
def storeWithUnless : Store :=
  let body : Expr := .apply (.word "unless" .nowhere)
    [.word "x" .nowhere, .literal (.int 1) .nowhere] .nowhere
  ⟨#[⟨[("g", .closure ⟨0, ["x"], body, 0, 1⟩), ("false", .bool false)], none⟩], #[], 1, 0⟩

/-- The program `do(define(f, fun(x, g(x))), f(false))`. -/
def throughFunction : Expr :=
  let call (name : String) (args : List Expr) : Expr := .apply (.word name .nowhere) args .nowhere
  let x : Expr := .word "x" .nowhere
  call "do" [call "define" [.word "f" .nowhere, call "fun" [x, call "g" [x]]],
    call "f" [.word "false" .nowhere]]

/-- The later call `f(false)`. -/
def laterCall : Expr :=
  .apply (.word "f" .nowhere) [.word "false" .nowhere] .nowhere

theorem storeWithUnless_agreeing : storeWithUnless.Agreeing (withUnless.Agrees knownUnless) := by
  intro i bound member f same
  cases i with
  | zero =>
      obtain rfl | member := List.mem_cons.1 member
      · cases same
        refine ⟨fun name applied => ?_, fun _ _ _ _ _ _ node => ?_⟩
        · obtain rfl := List.mem_singleton.1 applied
          exact .inr ⟨rfl, rfl, rfl⟩
        · simp [Expr.nodes, Expr.nodesOfArgs] at node
      · obtain rfl := List.mem_singleton.1 member
        cases same
  | succ i => cases member

/-- The program has the value 1 under both dialects, although it calls a function that was made
under the extended one; so does a later call of the function that it makes, under the other
dialect than the program. -/
theorem extend_conservative_unless :
    let left := (withUnless.run 1 throughFunction 0).outcome storeWithUnless
    let right := (withUnless.run 0 throughFunction 0).outcome storeWithUnless
    left.1 = .ok (.int 1) ∧ OutcomeTwin (withUnless.Agrees knownUnless) left right ∧
      (withUnless.answers [.evaluate 0 laterCall 0] left.2).1.Forall₂
        (EndAlike Eq (Value.Twin (withUnless.Agrees knownUnless)))
        (withUnless.answers [.evaluate 1 laterCall 0] right.2).1 := by
  intro left right
  have value : left.1 = .ok (.int 1) := by with_unfolding_all rfl
  have kept : ∀ name ∈ Dialect.standard.names,
      (Dialect.extend [("unless", Form.unlessTrue)]).find? name = Dialect.standard.find? name := by
    intro name member
    simp only [Ordered.names, Dialect.standard, List.map_cons, List.map_nil, List.mem_cons,
      List.not_mem_nil, or_false] at member
    rcases member with rfl | rfl | rfl | rfl | rfl <;> rfl
  have held : Expr.FunctionsAgree (withUnless.Agrees knownUnless) throughFunction.nodes := by
    intro _ _ _ _ _ _ node
    simp [throughFunction, Expr.nodes, Expr.nodesOfArgs] at node
  have standard : withUnless.dialects 0 = .standard := rfl
  have extends' : withUnless.dialects 1 = .extend [("unless", Form.unlessTrue)] := rfl
  obtain ⟨outcome, later⟩ := Dialect.extend_conservative withUnless_knows standard extends' kept
    (by decide +kernel) held 0 storeWithUnless_agreeing
  have twin : laterCall.Twin (withUnless.Agrees knownUnless) 0 1 laterCall := by
    refine Expr.twin_self ⟨fun name applied => ?_, fun _ _ _ _ _ _ node => ?_⟩
    · obtain rfl := List.mem_singleton.1 applied
      exact .inl ⟨rfl, rfl⟩
    · simp [laterCall, Expr.nodes, Expr.nodesOfArgs] at node
  exact ⟨value, outcome, (later _ _ (.cons (.evaluate twin 0) .nil)).1⟩

end Setting

end EggLanguage
