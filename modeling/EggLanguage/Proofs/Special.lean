/-
# EggLanguage.Proofs.Special -- how the standard forms fail

A standard form fails in one of two ways.  Its arguments do not have the shape it
demands (`Special.Malformed`), or evaluating one of them fails.  Which of them a form
comes to evaluate, and in which store, is `Special.Demands`; that there is no third way is
`Special.fails_iff`.

The forms also keep what the evaluation of their arguments keeps (`Special.keeps`).
-/
import EggLanguage.Interpreter
import EggLanguage.Proofs.Run

namespace EggLanguage

set_option autoImplicit false

/-! ## Lists of expressions -/

/-- The span of a node, if it has one. -/
def Expr.span? : Expr → Option Span
  | .literal _ span => some span
  | .word _ span => some span
  | .apply _ _ span => some span
  | .function _ _ _ _ _ span => some span
  | .abstract => none

def Expr.isWord : Expr → Bool
  | .word _ _ => true
  | _ => false

theorem Expr.place?_eq (e : Expr) : e.place? = e.span?.map Span.place := by
  cases e <;> rfl

/-- Arguments are evaluated from left to right, up to the first that fails. -/
theorem Setting.evaluateArgs_fails_iff {evaluate : Expr → Eval Value} {args : List Expr}
    {s s' : Store} {f : Failure} :
    (evaluateArgs evaluate args).Fails s f s' ↔ ∃ before e after values s₁,
      args = before ++ e :: after ∧ (evaluateArgs evaluate before).Gives s values s₁ ∧
        (evaluate e).Fails s₁ f s' := by
  induction args generalizing s with
  | nil =>
      constructor
      · intro failed
        exact (Eval.stops_pure failed).elim
      · rintro ⟨before, e, after, -, -, split, -, -⟩
        exact absurd split (List.append_ne_nil_of_right_ne_nil before (List.cons_ne_nil e after)).symm
  | cons a rest ih =>
      rw [evaluateArgs, Eval.Fails, Eval.stops_bind]
      constructor
      · rintro (first | ⟨v, s₁, given, failed⟩)
        · exact ⟨[], a, rest, [], s, rfl, Eval.gives_pure.2 ⟨rfl, rfl⟩, first⟩
        · obtain failed | ⟨_, _, -, failed⟩ := Eval.stops_bind.1 failed
          · obtain ⟨before, e, after, values, s₂, rfl, passed, last⟩ := ih.1 failed
            refine ⟨a :: before, e, after, v :: values, s₂, rfl, ?_, last⟩
            rw [evaluateArgs]
            exact Eval.gives_bind.2 ⟨v, s₁, given,
              Eval.gives_bind.2 ⟨values, s₂, passed, Eval.gives_pure.2 ⟨rfl, rfl⟩⟩⟩
          · exact (Eval.stops_pure failed).elim
      · rintro ⟨before, e, after, values, s₂, split, passed, failed⟩
        cases before with
        | nil =>
            obtain ⟨rfl, rfl⟩ := List.cons.inj split
            obtain ⟨-, rfl⟩ := Eval.gives_pure.1 passed
            exact .inl failed
        | cons b before =>
            obtain ⟨rfl, rfl⟩ := List.cons.inj split
            rw [evaluateArgs] at passed
            obtain ⟨v, s₁, given, passed⟩ := Eval.gives_bind.1 passed
            obtain ⟨values', s₃, passed, done⟩ := Eval.gives_bind.1 passed
            obtain ⟨-, rfl⟩ := Eval.gives_pure.1 done
            have later := ih.2 ⟨before, e, after, values', _, rfl, passed, failed⟩
            exact .inr ⟨v, s₁, given, Eval.stops_bind.2 (.inl later)⟩

theorem Setting.evaluateArgs_keeps {inv : Store → Prop} {good : Value → Prop}
    {evaluate : Expr → Eval Value} {args : List Expr}
    (each : ∀ e ∈ args, (evaluate e).Keeps inv good) :
    (evaluateArgs evaluate args).Keeps inv fun values => ∀ v ∈ values, good v := by
  induction args with
  | nil => exact .pure (List.forall_mem_nil _)
  | cons e rest ih =>
      rw [List.forall_mem_cons] at each
      refine each.1.bind fun v goodFirst => (ih each.2).bind fun values goodRest => .pure ?_
      exact List.forall_mem_cons.2 ⟨goodFirst, goodRest⟩

/-- In a sequence all expressions are evaluated and the last value is kept. -/
theorem Form.inOrder_eq (it : Evaluator) (scope : ScopeId) (last : Value) (args : List Expr) :
    inOrder it scope last args =
      Setting.evaluateArgs (it.evaluate · scope) args >>= fun values =>
        pure (values.getLast?.getD last) := by
  induction args generalizing last with
  | nil => simp [inOrder, Setting.evaluateArgs]
  | cons e rest ih =>
      simp only [inOrder, Setting.evaluateArgs, ih, bind_assoc, pure_bind]
      congr 1
      funext value
      congr 1
      funext values
      cases values with
      | nil => rfl
      | cons v vs => rw [List.getLast?_cons_cons, List.getLast?_cons, Option.getD_some, Option.getD_some]

/-- Parameters are refused for the first that is not a word. -/
theorem Form.parameterNames_error_iff {args : List Expr} {f : Failure} :
    parameterNames args = .error (.failure f) ↔ ∃ names other rest span,
      args = names ++ other :: rest ∧ (∀ e ∈ names, e.isWord = true) ∧ other.isWord = false ∧
        other.span? = some span ∧ f = ⟨.parameterNotWord, span.place⟩ := by
  induction args with
  | nil => simp [parameterNames]
  | cons a args ih =>
      cases word : a.isWord with
      | true =>
          obtain ⟨name, span, rfl⟩ : ∃ name span, a = .word name span := by
            cases a <;> simp [Expr.isWord] at word
            exact ⟨_, _, rfl⟩
          have shift : parameterNames (.word name span :: args) = .error (.failure f) ↔
              parameterNames args = .error (.failure f) := by
            rw [parameterNames]
            cases parameterNames args <;> simp [Except.map]
          rw [shift, ih]
          constructor
          · rintro ⟨names, other, rest, at', rfl, words, notWord, spanned, same⟩
            exact ⟨.word name span :: names, other, rest, at', rfl,
              List.forall_mem_cons.2 ⟨rfl, words⟩, notWord, spanned, same⟩
          · rintro ⟨names, other, rest, at', split, words, notWord, spanned, same⟩
            cases names with
            | nil =>
                obtain ⟨rfl, rfl⟩ := List.cons.inj split
                cases notWord
            | cons b names =>
                obtain ⟨rfl, rfl⟩ := List.cons.inj split
                exact ⟨names, other, rest, at', rfl, (List.forall_mem_cons.1 words).2, notWord,
                  spanned, same⟩
      | false =>
          have refused : ∀ place, a.place? = some place →
              parameterNames (a :: args) = .error (.failure ⟨.parameterNotWord, place⟩) := by
            intro place known
            cases a <;> cases known <;> first | rfl | cases word
          have crashed : a.place? = none → parameterNames (a :: args) = .error (.crash .abstractPlace) := by
            intro unknown
            cases a <;> cases unknown
            rfl
          rw [Expr.place?_eq] at refused crashed
          constructor
          · intro failed
            cases spanned : a.span? with
            | none =>
                rw [crashed (by rw [spanned]; rfl)] at failed
                cases failed
            | some span =>
                rw [refused span.place (by rw [spanned]; rfl)] at failed
                cases failed
                exact ⟨[], a, args, span, rfl, List.forall_mem_nil _, word, spanned, rfl⟩
          · rintro ⟨names, other, rest, span, split, words, -, spanned, rfl⟩
            cases names with
            | nil =>
                obtain ⟨rfl, rfl⟩ := List.cons.inj split
                exact refused span.place (by rw [spanned]; rfl)
            | cons b names =>
                obtain ⟨rfl, rfl⟩ := List.cons.inj split
                rw [(List.forall_mem_cons.1 words).1] at word
                cases word

/-! ## The standard forms -/

/-- The forms of the standard dialect. -/
inductive Special where
  | conditional
  | loop
  | sequence
  | definition
  | function

namespace Special

def word : Special → String
  | conditional => "if"
  | loop => "while"
  | sequence => "do"
  | definition => "define"
  | function => "fun"

def form : Special → Form
  | conditional => Form.conditional
  | loop => Form.loop
  | sequence => Form.sequence
  | definition => Form.definition
  | function => Form.function

theorem find?_standard (special : Special) :
    Dialect.standard.find? special.word = some special.form := by
  cases special <;> rfl

/-- An operator that names a form is the word of a standard form. -/
theorem exists_of_form? {operator : Expr} {form : Form}
    (found : Dialect.standard.form? operator = some form) :
    ∃ (special : Special) (span : Span),
      operator = .word special.word span ∧ form = special.form := by
  cases operator with
  | word name span =>
      have member := Ordered.mem_of_find? found
      simp only [Dialect.standard, List.mem_cons, Prod.mk.injEq, List.not_mem_nil,
        or_false] at member
      rcases member with ⟨rfl, rfl⟩ | ⟨rfl, rfl⟩ | ⟨rfl, rfl⟩ | ⟨rfl, rfl⟩ | ⟨rfl, rfl⟩
      · exact ⟨.conditional, span, rfl, rfl⟩
      · exact ⟨.loop, span, rfl, rfl⟩
      · exact ⟨.sequence, span, rfl, rfl⟩
      · exact ⟨.definition, span, rfl, rfl⟩
      · exact ⟨.function, span, rfl, rfl⟩
  | _ => cases found

/-! ## Failures of their own -/

/-- Arguments that a form refuses, and the cause that it states.  The whole application
is to blame, or an argument on its own. -/
inductive Malformed : Special → List Expr → Cause → (own : Option Span) → Prop where
  | conditional {args : List Expr} (count : args.length ≠ 3) :
      Malformed .conditional args (.argumentCount "if") none
  | loop {args : List Expr} (count : args.length ≠ 2) :
      Malformed .loop args (.argumentCount "while") none
  | definition {args : List Expr} (shape : ∀ name span e, args ≠ [.word name span, e]) :
      Malformed .definition args .badDefinition none
  | noBody : Malformed .function [] .missingBody none
  | parameter {names rest : List Expr} {other body : Expr} {span : Span}
      (words : ∀ e ∈ names, e.isWord = true) (notWord : other.isWord = false)
      (spanned : other.span? = some span) :
      Malformed .function (names ++ other :: (rest ++ [body])) .parameterNotWord (some span)

/-- The failure of a form, before the application is blamed. -/
def ownFailure (cause : Cause) : Option Span → Failure
  | none => .ofCause cause
  | some span => ⟨cause, span.place⟩

/-! ## Failures of what they evaluate -/

/-- One round of a loop, and whether there is another one. -/
def round (it : Evaluator) (condition body : Expr) (scope : ScopeId) : Eval Bool := do
  if (← it.evaluate condition scope).isTruthy then
    let _ ← it.evaluate body scope
    return true
  else return false

/-- The expressions that a form comes to evaluate, and the store it evaluates them in. -/
inductive Demands (it : Evaluator) (scope : ScopeId) (s : Store) :
    Special → List Expr → Expr → Store → Prop where
  | condition {c a b : Expr} : Demands it scope s .conditional [c, a, b] c s
  | consequence {c a b : Expr} {v : Value} {s₁ : Store}
      (decided : (it.evaluate c scope).Gives s v s₁) (holds : v.isTruthy = true) :
      Demands it scope s .conditional [c, a, b] a s₁
  | alternative {c a b : Expr} {v : Value} {s₁ : Store}
      (decided : (it.evaluate c scope).Gives s v s₁) (fails : v.isTruthy = false) :
      Demands it scope s .conditional [c, a, b] b s₁
  | loopCondition {c body : Expr} {count : Nat} {s₁ : Store} (allowed : count < it.rounds)
      (taken : Eval.Rounds (round it c body scope) count s s₁) :
      Demands it scope s .loop [c, body] c s₁
  | loopBody {c body : Expr} {count : Nat} {v : Value} {s₁ s₂ : Store}
      (allowed : count < it.rounds) (taken : Eval.Rounds (round it c body scope) count s s₁)
      (decided : (it.evaluate c scope).Gives s₁ v s₂) (holds : v.isTruthy = true) :
      Demands it scope s .loop [c, body] body s₂
  | statement {before after : List Expr} {e : Expr} {values : List Value} {s₁ : Store}
      (passed : (Setting.evaluateArgs (it.evaluate · scope) before).Gives s values s₁) :
      Demands it scope s .sequence (before ++ e :: after) e s₁
  | value {name : String} {span : Span} {e : Expr} :
      Demands it scope s .definition [.word name span, e] e s

variable {it : Evaluator} {args : List Expr} {scope : ScopeId} {s s' : Store} {f : Failure}

/-- The two ways in which a form fails. -/
def FailsBy (special : Special) (it : Evaluator) (args : List Expr) (scope : ScopeId) (s : Store)
    (f : Failure) (s' : Store) : Prop :=
  (∃ cause own, Malformed special args cause own ∧ f = ownFailure cause own ∧ s' = s) ∨
    ∃ e s₁, Demands it scope s special args e s₁ ∧ (it.evaluate e scope).Fails s₁ f s'

/-- A form that refuses its arguments evaluates none of them. -/
theorem fails_iff_of_refused (special : Special) {cause : Cause}
    (refused : special.form it args scope = Eval.fail cause)
    (malformed : Malformed special args cause none)
    (only : ∀ cause' own, Malformed special args cause' own → cause' = cause ∧ own = none)
    (idle : ∀ e s₁, ¬ Demands it scope s special args e s₁) :
    (special.form it args scope).Fails s f s' ↔ FailsBy special it args scope s f s' := by
  rw [refused, Eval.Fails, Eval.stops_fail]
  constructor
  · rintro ⟨same, rfl⟩
    cases same
    exact .inl ⟨cause, none, malformed, rfl, rfl⟩
  · rintro (⟨cause', own, malformed', rfl, rfl⟩ | ⟨e, s₁, demanded, -⟩)
    · obtain ⟨rfl, rfl⟩ := only cause' own malformed'
      exact ⟨rfl, rfl⟩
    · exact (idle e s₁ demanded).elim

theorem conditional_of_count (count : args.length ≠ 3) :
    Form.conditional it args scope = Eval.fail (.argumentCount "if") := by
  unfold Form.conditional
  split
  · exact absurd rfl count
  · rfl

theorem loop_of_count (count : args.length ≠ 2) :
    Form.loop it args scope = Eval.fail (.argumentCount "while") := by
  unfold Form.loop
  split
  · exact absurd rfl count
  · rfl

theorem definition_of_shape (shape : ∀ name span e, args ≠ [.word name span, e]) :
    Form.definition it args scope = Eval.fail .badDefinition := by
  unfold Form.definition
  split
  · exact absurd rfl (shape _ _ _)
  · rfl

theorem conditional_fails_iff :
    (Form.conditional it args scope).Fails s f s' ↔ FailsBy .conditional it args scope s f s' := by
  by_cases count : args.length = 3
  · obtain ⟨c, a, b, rfl⟩ : ∃ c a b, args = [c, a, b] := by
      match args, count with
      | [c, a, b], _ => exact ⟨c, a, b, rfl⟩
    rw [Form.conditional, Eval.Fails, Eval.stops_bind]
    constructor
    · rintro (failed | ⟨v, s₁, decided, failed⟩)
      · exact .inr ⟨c, s, .condition, failed⟩
      · split at failed
        · rename_i holds
          exact .inr ⟨a, s₁, .consequence decided holds, failed⟩
        · rename_i fails
          exact .inr ⟨b, s₁, .alternative decided (by simpa using fails), failed⟩
    · rintro (⟨cause, own, malformed, -, -⟩ | ⟨e, s₁, demanded, failed⟩)
      · cases malformed with
        | conditional wrong => exact absurd count wrong
      · cases demanded with
        | condition => exact .inl failed
        | consequence decided holds => exact .inr ⟨_, _, decided, by rwa [if_pos holds]⟩
        | alternative decided fails => exact .inr ⟨_, _, decided, by rwa [if_neg (by simp [fails])]⟩
  · refine fails_iff_of_refused .conditional (conditional_of_count count) (.conditional count) ?_ ?_
    · rintro cause own ⟨⟩
      exact ⟨rfl, rfl⟩
    · intro e s₁ demanded
      cases demanded <;> exact count rfl

theorem loop_eq (it : Evaluator) (c body : Expr) (scope : ScopeId) :
    Form.loop it [c, body] scope =
      Eval.repeatWhile (round it c body scope) it.rounds >>= fun _ => pure (.bool false) :=
  rfl

theorem round_fails_iff {c body : Expr} :
    (round it c body scope).Fails s f s' ↔ (it.evaluate c scope).Fails s f s' ∨
      ∃ v s₁, (it.evaluate c scope).Gives s v s₁ ∧ v.isTruthy = true ∧
        (it.evaluate body scope).Fails s₁ f s' := by
  rw [round, Eval.Fails, Eval.stops_bind]
  refine or_congr_right ⟨?_, ?_⟩
  · rintro ⟨v, s₁, decided, failed⟩
    split at failed
    · rename_i holds
      obtain failed | ⟨_, _, -, failed⟩ := Eval.stops_bind.1 failed
      · exact ⟨v, s₁, decided, holds, failed⟩
      · exact (Eval.stops_pure failed).elim
    · exact (Eval.stops_pure failed).elim
  · rintro ⟨v, s₁, decided, holds, failed⟩
    refine ⟨v, s₁, decided, ?_⟩
    rw [if_pos holds]
    exact Eval.stops_bind.2 (.inl failed)

theorem loop_fails_iff :
    (Form.loop it args scope).Fails s f s' ↔ FailsBy .loop it args scope s f s' := by
  by_cases count : args.length = 2
  · obtain ⟨c, body, rfl⟩ : ∃ c body, args = [c, body] := by
      match args, count with
      | [c, body], _ => exact ⟨c, body, rfl⟩
    rw [loop_eq, Eval.Fails, Eval.stops_bind, Eval.stops_repeatWhile]
    constructor
    · rintro ((⟨count, s₁, allowed, taken, failed⟩ | ⟨-, full⟩) | ⟨_, _, -, failed⟩)
      · obtain failed | ⟨v, s₂, decided, holds, failed⟩ := round_fails_iff.1 failed
        · exact .inr ⟨c, s₁, .loopCondition allowed taken, failed⟩
        · exact .inr ⟨body, s₂, .loopBody allowed taken decided holds, failed⟩
      · cases full
      · exact (Eval.stops_pure failed).elim
    · rintro (⟨cause, own, malformed, -, -⟩ | ⟨e, s₁, demanded, failed⟩)
      · cases malformed with
        | loop wrong => exact absurd count wrong
      · cases demanded with
        | loopCondition allowed taken =>
            exact .inl (.inl ⟨_, s₁, allowed, taken, round_fails_iff.2 (.inl failed)⟩)
        | loopBody allowed taken decided holds =>
            have inRound := round_fails_iff.2 (.inr ⟨_, _, decided, holds, failed⟩)
            exact .inl (.inl ⟨_, _, allowed, taken, inRound⟩)
  · refine fails_iff_of_refused .loop (loop_of_count count) (.loop count) ?_ ?_
    · rintro cause own ⟨⟩
      exact ⟨rfl, rfl⟩
    · intro e s₁ demanded
      cases demanded <;> exact count rfl

theorem sequence_fails_iff :
    (Form.sequence it args scope).Fails s f s' ↔ FailsBy .sequence it args scope s f s' := by
  have last : (Form.sequence it args scope).Fails s f s' ↔
      (Setting.evaluateArgs (it.evaluate · scope) args).Fails s f s' := by
    rw [Form.sequence, Form.inOrder_eq, Eval.Fails, Eval.stops_bind]
    refine or_iff_left ?_
    rintro ⟨_, _, -, failed⟩
    exact Eval.stops_pure failed
  rw [last, Setting.evaluateArgs_fails_iff]
  constructor
  · rintro ⟨before, e, after, values, s₁, rfl, passed, failed⟩
    exact .inr ⟨e, s₁, .statement passed, failed⟩
  · rintro (⟨cause, own, malformed, -, -⟩ | ⟨e, s₁, demanded, failed⟩)
    · cases malformed
    · cases demanded with
      | statement passed => exact ⟨_, e, _, _, s₁, rfl, passed, failed⟩

theorem definition_fails_iff :
    (Form.definition it args scope).Fails s f s' ↔ FailsBy .definition it args scope s f s' := by
  by_cases shape : ∃ name span e, args = [.word name span, e]
  · obtain ⟨name, span, e, rfl⟩ := shape
    rw [Form.definition, Eval.Fails, Eval.stops_bind]
    constructor
    · rintro (failed | ⟨v, s₁, -, failed⟩)
      · exact .inr ⟨e, s, .value, failed⟩
      · obtain failed | ⟨_, _, -, failed⟩ := Eval.stops_bind.1 failed
        · exact (Eval.stops_step failed).elim
        · exact (Eval.stops_pure failed).elim
    · rintro (⟨cause, own, malformed, -, -⟩ | ⟨e, s₁, demanded, failed⟩)
      · cases malformed with
        | definition wrong => exact absurd rfl (wrong name span e)
      · cases demanded with
        | value => exact .inl failed
  · have wrong : ∀ name span e, args ≠ [.word name span, e] := fun name span e same =>
      shape ⟨name, span, e, same⟩
    refine fails_iff_of_refused .definition (definition_of_shape wrong) (.definition wrong) ?_ ?_
    · rintro cause own ⟨⟩
      exact ⟨rfl, rfl⟩
    · intro e s₁ demanded
      cases demanded
      exact shape ⟨_, _, _, rfl⟩

theorem function_fails_iff :
    (Form.function it args scope).Fails s f s' ↔ FailsBy .function it args scope s f s' := by
  cases last : args.getLast? with
  | none =>
      obtain rfl := List.getLast?_eq_none_iff.1 last
      have refused : Special.function.form it [] scope = Eval.fail .missingBody := rfl
      refine fails_iff_of_refused .function refused .noBody (fun cause own malformed => ?_) ?_
      · generalize none' : [] = args at malformed
        cases malformed with
        | noBody => exact ⟨rfl, rfl⟩
        | parameter _ _ _ => simp at none'
      · intro e s₁ demanded
        cases demanded
  | some body =>
      obtain ⟨parameters, rfl⟩ := List.getLast?_eq_some_iff.1 last
      have given : Form.function it (parameters ++ [body]) scope =
          Eval.ofExcept (Form.parameterNames parameters) >>= fun names =>
            Eval.newFunction names body scope it.dialect := by
        simp [Form.function]
      have unfolded : (Form.function it (parameters ++ [body]) scope).Fails s f s' ↔
          Form.parameterNames parameters = .error (.failure f) ∧ s' = s := by
        rw [given, Eval.Fails, Eval.stops_bind, Eval.stops_ofExcept]
        refine or_iff_left ?_
        rintro ⟨_, _, -, failed⟩
        exact Eval.stops_step failed
      rw [unfolded, Form.parameterNames_error_iff]
      constructor
      · rintro ⟨⟨names, other, rest, span, rfl, words, notWord, spanned, rfl⟩, rfl⟩
        refine .inl ⟨_, some span, ?_, rfl, rfl⟩
        rw [List.append_assoc, List.cons_append]
        exact .parameter words notWord spanned
      · rintro (⟨cause, own, malformed, rfl, rfl⟩ | ⟨e, s₁, demanded, -⟩)
        · generalize joined : parameters ++ [body] = args at malformed
          cases malformed with
          | noBody => simp at joined
          | @parameter names rest other body' span words notWord spanned =>
              have split : parameters ++ [body] = (names ++ other :: rest) ++ [body'] := by
                rw [joined, List.append_assoc, List.cons_append]
              obtain ⟨rfl, -⟩ := List.append_inj' split rfl
              exact ⟨⟨names, other, rest, span, rfl, words, notWord, spanned, rfl⟩, rfl⟩
        · cases demanded

/-- A form fails because its arguments are malformed or because an expression that it
comes to evaluate fails, and for no other reason. -/
theorem fails_iff (special : Special) :
    (special.form it args scope).Fails s f s' ↔ FailsBy special it args scope s f s' := by
  cases special with
  | conditional => exact conditional_fails_iff
  | loop => exact loop_fails_iff
  | sequence => exact sequence_fails_iff
  | definition => exact definition_fails_iff
  | function => exact function_fails_iff

/-! ## Invariants -/

section Keeps

variable {inv : Store → Prop} {good : Value → Prop}

theorem keeps_round {c body : Expr} (condition : (it.evaluate c scope).Keeps inv good)
    (inRound : (it.evaluate body scope).Keeps inv good) :
    (round it c body scope).Keeps inv fun _ => True := by
  refine condition.bind fun v _ => ?_
  split
  · exact inRound.bind fun _ _ => .pure trivial
  · exact .pure trivial

/-- What the evaluation of its arguments keeps, a form keeps: it makes no values but truth
values and functions, and changes the store by binding and by making functions only. -/
theorem keeps (special : Special) (each : ∀ e ∈ args, (it.evaluate e scope).Keeps inv good)
    (goodBool : ∀ b, good (.bool b))
    (bound : ∀ s name v, inv s → good v → inv (s.bind scope name v))
    (made : ∀ s parameters body, body ∈ args → inv s →
      inv (s.newFunction parameters body scope it.dialect).2 ∧
        good (s.newFunction parameters body scope it.dialect).1) :
    (special.form it args scope).Keeps inv good := by
  cases special with
  | conditional =>
      show (Form.conditional it args scope).Keeps inv good
      unfold Form.conditional
      split
      · rename_i c a b
        refine (each c (by simp)).bind fun v _ => ?_
        split
        · exact each a (by simp)
        · exact each b (by simp)
      · exact .fail _
  | loop =>
      show (Form.loop it args scope).Keeps inv good
      unfold Form.loop
      split
      · rename_i c body
        have rounds := (keeps_round (each c (by simp)) (each body (by simp))).repeatWhile it.rounds
        exact rounds.bind fun _ _ => .pure (goodBool false)
      · exact .fail _
  | sequence =>
      show (Form.sequence it args scope).Keeps inv good
      rw [Form.sequence, Form.inOrder_eq]
      refine (Setting.evaluateArgs_keeps each).bind fun values goodValues => .pure ?_
      cases last : values.getLast? with
      | none => exact goodBool false
      | some v => exact goodValues v (List.mem_of_getLast? last)
  | definition =>
      show (Form.definition it args scope).Keeps inv good
      unfold Form.definition
      split
      · rename_i name span e
        refine (each e (by simp)).bind fun v goodValue => ?_
        have binds : (Eval.bind scope name v).Keeps inv fun _ => True :=
          .step fun s start => ⟨bound s name v start goodValue, trivial⟩
        exact binds.bind fun _ _ => .pure goodValue
      · exact .fail _
  | function =>
      show (Form.function it args scope).Keeps inv good
      unfold Form.function
      split
      · exact .fail _
      · rename_i body last
        have named : (Eval.ofExcept (Form.parameterNames args.dropLast)).Keeps inv fun _ => True :=
          .ofExcept fun _ _ => trivial
        refine named.bind fun names _ => ?_
        exact .step fun s start => made s names body (List.mem_of_getLast? last) start

/-- A form evaluates its arguments only, in stores that their evaluation leaves. -/
theorem Demands.keeps {special : Special} {e : Expr}
    (demanded : Demands it scope s special args e s')
    (each : ∀ a ∈ args, (it.evaluate a scope).Keeps inv good) (start : inv s) :
    e ∈ args ∧ inv s' := by
  cases demanded with
  | condition => exact ⟨by simp, start⟩
  | @consequence c _ _ _ _ decided _ =>
      exact ⟨by simp, ((each c (by simp)).gives start decided).1⟩
  | @alternative c _ _ _ _ decided _ =>
      exact ⟨by simp, ((each c (by simp)).gives start decided).1⟩
  | @loopCondition _ body _ _ _ taken =>
      have rounds := keeps_round (each e (by simp)) (each body (by simp))
      exact ⟨by simp, rounds.rounds taken start⟩
  | @loopBody c _ _ _ _ _ _ taken decided _ =>
      have rounds := keeps_round (each c (by simp)) (each e (by simp))
      exact ⟨by simp, ((each c (by simp)).gives (rounds.rounds taken start) decided).1⟩
  | @statement before _ _ _ _ passed =>
      have passes := Setting.evaluateArgs_keeps fun a (member : a ∈ before) =>
        each a (List.mem_append_left _ member)
      exact ⟨by simp, (passes.gives start passed).1⟩
  | value => exact ⟨by simp, start⟩

end Keeps

end Special

end EggLanguage
