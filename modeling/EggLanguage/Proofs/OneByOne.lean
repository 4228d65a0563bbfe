/-
# EggLanguage.Proofs.OneByOne -- one program, or several one after another

Evaluating expressions as one program, put together with `do`, is the same as evaluating them
one after another, up to the first that stops (`Workspace.evaluate_sequence`): the one program
prints what the several print, leaves the scopes as they do and ends as they end, although the
functions it makes were read from another text.

The one program needs more room, for the application that puts it together: one more open
parenthesis, one more application to write and one more evaluation under way.  With that much
more it does what the several do; with as much as they have, it may exhaust the stack instead.
-/
import EggLanguage.Proofs.Histories
import EggLanguage.Proofs.Layout
import EggLanguage.Proofs.MoreRoom

namespace EggLanguage

set_option autoImplicit false

/-! ## Lists of expressions -/

namespace Expr

theorem areWellFormed_iff {es : List Expr} : AreWellFormed es ↔ ∀ e ∈ es, e.WellFormed := by
  induction es with
  | nil => simp [AreWellFormed]
  | cons e rest ih => rw [AreWellFormed, ih, List.forall_mem_cons]

theorem nestingOfArgs_le_iff {es : List Expr} {n : Nat} :
    nestingOfArgs es ≤ n ↔ ∀ e ∈ es, e.nesting < n := by
  induction es with
  | nil => simp [nestingOfArgs]
  | cons e rest ih => rw [nestingOfArgs, Nat.max_le, ih, List.forall_mem_cons, Nat.succ_le_iff]

theorem heightOfArgs_le_iff {es : List Expr} {n : Nat} :
    heightOfArgs es ≤ n ↔ ∀ e ∈ es, e.height ≤ n := by
  induction es with
  | nil => simp [heightOfArgs]
  | cons e rest ih => rw [heightOfArgs, Nat.max_le, ih, List.forall_mem_cons]

/-- The expressions as one, which evaluates them in order. -/
def sequence (es : List Expr) (span span' : Span) : Expr :=
  .apply (.word "do" span) es span'

theorem sequence_wellFormed {es : List Expr} (formed : ∀ e ∈ es, e.WellFormed) (span span' : Span) :
    (sequence es span span').WellFormed := by
  have named : Lexical ['d', 'o'] := lexical_of_first rfl rfl
  exact ⟨named, areWellFormed_iff.2 formed⟩

end Expr

/-! ## Outcomes -/

/-- Reading a text does nothing to a store but number a source. -/
theorem Store.Alike.newSource {s s' : Store} (alike : s.Alike s') (text : String) :
    s.Alike (s'.newSource text).2 :=
  ⟨alike.size, alike.parents, alike.bindings, alike.printed, alike.functions⟩

theorem Store.Alike.newSource_left {s s' : Store} (alike : s.Alike s') (text : String) :
    (s.newSource text).2.Alike s' :=
  ⟨alike.size, alike.parents, alike.bindings, alike.printed, alike.functions⟩

namespace OutcomeAlike

theorem bind {x x' : Eval Value} {next next' : Value → Eval Value} {s s' : Store}
    (first : OutcomeAlike (x.outcome s) (x'.outcome s'))
    (second : ∀ v v' s s', v.Paired Closure.Alike v' → s.Alike s' →
      OutcomeAlike ((next v).outcome s) ((next' v').outcome s')) :
    OutcomeAlike ((x >>= next).outcome s) ((x' >>= next').outcome s') := by
  obtain ⟨ends, stores⟩ := first
  rw [Eval.outcome_bind, Eval.outcome_bind]
  generalize x.outcome s = left at ends stores
  generalize x'.outcome s' = right at ends stores
  obtain ⟨result, s₁⟩ := left
  obtain ⟨result', s₁'⟩ := right
  cases ends with
  | ok related => exact second _ _ s₁ s₁' related stores
  | error stops => exact ⟨.error stops, stores⟩

/-- It does not matter where a failure is placed. -/
theorem settled {x : Eval Value} {s : Store} {right : Except Stop Value × Store}
    (alike : OutcomeAlike (x.outcome s) right) (place : Place) :
    OutcomeAlike ((x.onFailure (·.settle place)).outcome s) right := by
  obtain ⟨ends, stores⟩ := alike
  rw [Eval.outcome_onFailure]
  generalize x.outcome s = left at ends stores
  obtain ⟨result, s₁⟩ := left
  obtain ⟨result', s₁'⟩ := right
  cases ends with
  | ok related => exact ⟨.ok related, stores⟩
  | error stops =>
      cases stops with
      | failure cause placed =>
          exact ⟨.error (.failure ((Failure.cause_settle _ _).trans cause) trivial), stores⟩
      | crash c => exact ⟨.error (.crash c), stores⟩

end OutcomeAlike

/-! ## Texts in the lasting scope -/

namespace Workspace

open Grammar

/-- The stack has room for reading the expression and, if a log is kept, for writing it. -/
def Fits (w : Workspace) (e : Expr) : Prop :=
  e.nesting < w.setting.limits.nesting ∧ (w.verbose = true → e.height ≤ w.setting.limits.height)

instance (w : Workspace) (e : Expr) : Decidable (w.Fits e) :=
  inferInstanceAs (Decidable (_ ∧ _))

theorem logging_eq (w : Workspace) {e : Expr} (formed : e.WellFormed) :
    w.logging e = if w.verbose = true → e.height ≤ w.setting.limits.height then pure ()
      else Eval.crash .stackExhausted := by
  unfold logging
  by_cases verbose : w.verbose = true
  · by_cases written : e.height ≤ w.setting.limits.height
    · rw [if_pos verbose, if_pos fun _ => written, formed.text_eq written]
    · rw [if_pos verbose, if_neg fun fits => written (fits verbose), Expr.text,
        if_pos (Nat.lt_of_not_le written)]
  · rw [if_neg verbose, if_pos fun on => absurd on verbose]

/-- A program that is read is evaluated if it was shallow enough for reading. -/
theorem programOf_eq (w : Workspace) {source : Source} {e : Expr}
    (program : Program .exact source e) (choice : ScopeChoice) :
    w.programOf source choice =
      if e.nesting < w.setting.limits.nesting then do
        let scope ← w.scopeOf choice
        w.logging e
        w.setting.run w.dialect e scope
      else Eval.crash .stackExhausted := by
  rw [programOf, program.parse_eq]
  split <;> rfl

theorem programOf_lasting (w : Workspace) {source : Source} {e : Expr}
    (program : Program .exact source e) (s : Store) :
    (w.programOf source .lasting).outcome s =
      if w.Fits e then (w.setting.run w.dialect e w.lastingScope).outcome s
      else (.error (.crash .stackExhausted), s) := by
  have formed : e.WellFormed := by
    obtain ⟨c, d, stop, -, derived, -⟩ := program
    exact derived.wellFormed
  rw [programOf_eq w program, logging_eq w formed]
  by_cases room : e.nesting < w.setting.limits.nesting
  · by_cases written : w.verbose = true → e.height ≤ w.setting.limits.height
    · rw [if_pos room, if_pos written, if_pos ⟨room, written⟩]
      rfl
    · rw [if_pos room, if_neg written, if_neg fun fits => written fits.2]
      rfl
  · rw [if_neg room, if_neg fun fits => room fits.1]
    rfl

/-- The text of an expression is evaluated as the expression, up to spans, if there is room. -/
theorem program_of_text {e : Expr} (formed : e.WellFormed) {limit : Nat} {text : String}
    (written : e.text limit = .ok text) (s : Store) :
    ∃ e', e.bare = e'.bare ∧ ∀ w : Workspace, (w.program text .lasting).outcome s =
      if w.Fits e then (w.setting.run w.dialect e' w.lastingScope).outcome (s.newSource text).2
      else (.error (.crash .stackExhausted), (s.newSource text).2) := by
  have spelled : text = String.ofList e.spelling := by
    unfold Expr.text at written
    split at written
    · cases written
    · split at written <;> cases written
      rfl
  obtain ⟨e', parsed, equal⟩ := @Expr.WellFormed.parse_spelling e formed _ (Nat.lt_succ_self _)
    ⟨s.sources, text⟩ (by rw [spelled, String.toList_ofList])
  have bare := (Expr.wellFormed_of_parse parsed).bare_eq_of_same equal
  refine ⟨e', bare.symm, fun w => ?_⟩
  have fits : w.Fits e' ↔ w.Fits e := by
    rw [Fits, Fits, Expr.nesting_eq_of_same equal, Expr.height_eq_of_bare_eq bare]
  rw [program_outcome]
  have outcome := w.programOf_lasting (program_of_parse parsed) (s.newSource text).2
  simp only [fits] at outcome
  exact outcome

/-! ## One after another -/

/-- Evaluate texts one after another in the lasting scope, up to the first that stops.  The
value is that of the last text, or the given one if there is none. -/
def evaluateEach (path : Option String) (last : Value) : List String → Work Value
  | [] => return last
  | text :: rest => do evaluateEach path (← evaluate [text] .lasting path) rest

/-- What evaluating texts one after another does to the store. -/
def programs (w : Workspace) (last : Value) : List String → Eval Value
  | [] => return last
  | text :: rest => do programs w (← w.program text .lasting) rest

/-- What there is to see of a computation: how it ends, and the store it leaves. -/
def ending (w : Workspace) (x : Work Value) : Except Stop Value × Store :=
  ((x.outcome w).1, (x.outcome w).2.store)

theorem Continues.program {w w' : Workspace} (continues : w.Continues w') (text : String)
    (choice : ScopeChoice) : w'.program text choice = w.program text choice := by
  unfold Workspace.program
  rw [continues.reading, continues.scopeOf, continues.setting, continues.dialect]
  simp only [continues.logging]

theorem evaluateEach_follows (w : Workspace) (path : Option String) (last : Value)
    (texts : List String) :
    (evaluateEach path last texts).Follows w (w.programs last texts) := by
  suffices later : ∀ w', w.Continues w' →
      (evaluateEach path last texts).Follows w' (w.programs last texts) from later w (.refl w)
  induction texts generalizing last with
  | nil => exact fun w' _ => .pure last
  | cons text rest ih =>
      intro w' continues
      have first : (evaluate [text] .lasting path).Follows w' (w.program text .lasting) := by
        rw [← continues.program]
        exact evaluate_follows w' [text] .lasting path
      exact first.bind fun value w'' continues' => ih value w'' (continues.trans continues')

variable {limits : Limits} {w : Workspace}

/-- Expressions in order, and their texts one after another. -/
theorem inOrder_alike (standard : w.setting = .standard limits) {es args : List Expr}
    {texts : List String} (formed : ∀ e ∈ es, e.WellFormed) (fits : ∀ e ∈ es, w.Fits e)
    (written : es.Forall₂ (fun e text => ∃ limit, e.text limit = .ok text) texts)
    (same : es.Forall₂ (fun e arg => e.bare = arg.bare) args) {last last' : Value}
    (values : last.Paired Closure.Alike last') {s s' : Store} (alike : s.Alike s') :
    OutcomeAlike
      ((Form.inOrder ⟨w.dialect, (Setting.standard limits).evaluate limits.depth w.dialect,
        limits.rounds⟩ w.lastingScope last args).outcome s)
      ((w.programs last' texts).outcome s') := by
  induction written generalizing args last last' s s' with
  | nil =>
      obtain rfl := List.forall₂_nil_left_iff.1 same
      exact ⟨.ok values, alike⟩
  | @cons e text es texts first _ ih =>
      rw [List.forall_mem_cons] at formed fits
      obtain ⟨arg, args, equal, rest, rfl⟩ := List.forall₂_cons_left_iff.1 same
      obtain ⟨limit, first⟩ := first
      obtain ⟨e', bare, outcome⟩ := program_of_text formed.1 first s'
      refine OutcomeAlike.bind ?_ fun v v' s s' paired alike =>
        ih formed.2 fits.2 rest paired alike
      rw [outcome w, if_pos fits.1, standard]
      exact Setting.evaluate_alike limits limits.depth w.dialect w.lastingScope
        (equal.symm.trans bare) (alike.newSource text)

end Workspace

/-! ## One program -/

/-- The limits with room for one application more around a program. -/
def Limits.deeper (limits : Limits) : Limits :=
  { limits with
    nesting := limits.nesting + 1
    height := limits.height + 1
    depth := limits.depth + 1 }

/-- The workspace under other limits. -/
def Workspace.withLimits (w : Workspace) (limits : Limits) : Workspace :=
  { w with setting := .standard limits }

/-- A sequence is evaluated with one evaluation more under way than its parts. -/
theorem Setting.run_sequence (limits : Limits) (dialect : DialectId) (es : List Expr)
    (span span' : Span) (scope : ScopeId) :
    (standard limits.deeper).run dialect (.sequence es span span') scope =
      Eval.onFailure (·.settle span'.place)
        (Form.inOrder ⟨dialect, (standard limits).evaluate limits.depth dialect, limits.rounds⟩
          scope (.bool false) es) := by
  have shallow : (standard limits.deeper).evaluate limits.depth =
      (standard limits).evaluate limits.depth :=
    @evaluate_eq (standard limits.deeper) (standard limits) rfl rfl limits.depth
  rw [← shallow]
  rfl

namespace Workspace

open Grammar

variable {limits : Limits} {w : Workspace}

theorem fits_sequence_iff {es : List Expr} {span span' : Span} (standard : w.setting = .standard limits) :
    (w.withLimits limits.deeper).Fits (.sequence es span span') ↔ ∀ e ∈ es, w.Fits e := by
  have nesting : (Expr.sequence es span span').nesting = Expr.nestingOfArgs es := Nat.zero_max _
  have height : (Expr.sequence es span span').height = Expr.heightOfArgs es + 1 :=
    congrArg (· + 1) (Nat.zero_max _)
  have deeper : (w.withLimits limits.deeper).Fits (.sequence es span span') ↔
      Expr.nestingOfArgs es < limits.nesting + 1 ∧
        (w.verbose = true → Expr.heightOfArgs es + 1 ≤ limits.height + 1) := by
    rw [Fits, nesting, height]
    rfl
  have fits : ∀ e, w.Fits e ↔
      e.nesting < limits.nesting ∧ (w.verbose = true → e.height ≤ limits.height) := fun e => by
    rw [Fits, standard]
    rfl
  simp only [deeper, fits, Nat.lt_succ_iff, Nat.succ_le_succ_iff, Expr.nestingOfArgs_le_iff,
    Expr.heightOfArgs_le_iff]
  constructor
  · exact fun both e member => ⟨both.1 e member, fun verbose => both.2 verbose e member⟩
  · exact fun each => ⟨fun e member => (each e member).1,
      fun verbose e member => (each e member).2 verbose⟩

theorem fits_deeper (standard : w.setting = .standard limits) {e : Expr} (fits : w.Fits e) :
    (w.withLimits limits.deeper).Fits e := by
  rw [Fits, standard] at fits
  exact ⟨Nat.lt_succ_of_lt fits.1, fun verbose => Nat.le_succ_of_le (fits.2 verbose)⟩

/-- With more room, the text of an expression is evaluated as with less, unless that is
exhausted. -/
theorem program_within (standard : w.setting = .standard limits) {e : Expr}
    (formed : e.WellFormed) {limit : Nat} {text : String} (written : e.text limit = .ok text) :
    (w.program text .lasting).Within ((w.withLimits limits.deeper).program text .lasting) := by
  intro s
  obtain ⟨e', -, outcome⟩ := program_of_text formed written s
  rw [outcome w, outcome (w.withLimits limits.deeper)]
  by_cases fits : w.Fits e
  · have shallow : (Setting.standard limits.deeper).evaluate limits.deeper.depth =
        (Setting.standard limits).evaluate limits.deeper.depth :=
      @Setting.evaluate_eq (.standard limits.deeper) (.standard limits) rfl rfl _
    rw [if_pos fits, if_pos (fits_deeper standard fits), standard]
    show _ ∨ ((Setting.standard limits.deeper).evaluate limits.deeper.depth _ _ _).outcome _ = _
    rw [shallow]
    exact Setting.evaluate_within limits (Nat.le_succ limits.depth) w.dialect e' w.lastingScope _
  · rw [if_neg fits]
    exact .inl rfl

section

variable (standard : w.setting = .standard limits) {es : List Expr} {texts : List String}
  {span span' : Span} {limit : Nat} {whole : String} (formed : ∀ e ∈ es, e.WellFormed)
  (written : es.Forall₂ (fun e text => ∃ limit, e.text limit = .ok text) texts)
  (written' : (Expr.sequence es span span').text limit = .ok whole)

include standard formed written written'

/-- With more room, the sequence does what its parts do. -/
theorem program_deeper (fits : ∀ e ∈ es, w.Fits e) (s : Store) :
    OutcomeAlike (((w.withLimits limits.deeper).program whole .lasting).outcome s)
      ((w.programs (.bool false) texts).outcome s) := by
  obtain ⟨e', equal, outcome⟩ :=
    program_of_text (Expr.sequence_wellFormed formed span span') written' s
  rw [outcome, if_pos ((fits_sequence_iff standard).2 fits)]
  cases Expr.alike_of_bare_eq equal with
  | @apply _ operator _ args _ span₁ applied each =>
      cases Expr.alike_of_bare_eq applied with
      | word _ _ span₂ =>
          have alike := inOrder_alike standard formed fits written each (.constant (.bool false))
            ((Store.Alike.refl s).newSource_left whole)
          have evaluated := Setting.run_sequence limits w.dialect args span₂ span₁ w.lastingScope
          show OutcomeAlike (((Setting.standard limits.deeper).run w.dialect
            (.sequence args span₂ span₁) w.lastingScope).outcome _) _
          rw [evaluated]
          exact alike.settled span₁.place

/-- With the same room, the sequence may exhaust the stack instead. -/
theorem program_sequence (s : Store) :
    ((w.program whole .lasting).outcome s).1 = .error (.crash .stackExhausted) ∨
      OutcomeAlike ((w.program whole .lasting).outcome s)
        ((w.programs (.bool false) texts).outcome s) := by
  have formed' := Expr.sequence_wellFormed formed span span'
  by_cases fits : ∀ e ∈ es, w.Fits e
  · refine (program_within standard formed' written' s).imp_right fun same => ?_
    rw [← same]
    exact program_deeper standard formed written written' fits s
  · obtain ⟨e', -, outcome⟩ := program_of_text formed' written' s
    have full : ¬ w.Fits (.sequence es span span') := fun fits' =>
      fits ((fits_sequence_iff standard).1 (fits_deeper standard fits'))
    rw [outcome w, if_neg full]
    exact .inl rfl

end

/-- **One program or several.**  In any workspace, evaluate the texts of expressions one after
another in the lasting scope, up to the first that stops; or evaluate the text of the expression
that puts them together with `do`.  The latter does what the former does, as far as there is
to see: the same values are printed in the same order, all scopes hold the same names in the same
order with the same values, functions up to the spans in their bodies, and both end with one
value, with failures of one cause or with one crash.  There are two provisos about room.  The one
program may exhaust the stack instead; and with room for one application more it does not, if the
texts can be read, and logged where that is asked for. -/
theorem evaluate_sequence (limits : Limits) (w : Workspace) (standard : w.setting = .standard limits)
    (es : List Expr) (span span' : Span) (texts : List String) (whole : String)
    (path path' : Option String)
    (read : ∀ e ∈ es, ∃ nesting source, Expr.parse nesting source = .ok e)
    (written : es.Forall₂ (fun e text => ∃ limit, e.text limit = .ok text) texts)
    (written' : ∃ limit, (Expr.sequence es span span').text limit = .ok whole) :
    let each := w.ending (evaluateEach path (.bool false) texts)
    let together := fun w : Workspace => w.ending (evaluate [whole] .lasting path')
    ((together w).1 = .error (.crash .stackExhausted) ∨ OutcomeAlike (together w) each) ∧
      ((∀ e ∈ es, w.Fits e) → OutcomeAlike (together (w.withLimits limits.deeper)) each) := by
  have formed : ∀ e ∈ es, e.WellFormed := fun e member => by
    obtain ⟨nesting, source, parsed⟩ := read e member
    exact Expr.wellFormed_of_parse parsed
  obtain ⟨limit, written'⟩ := written'
  have one : ∀ w : Workspace, w.ending (evaluate [whole] .lasting path') =
      (w.program whole .lasting).outcome w.store := fun w =>
    Prod.ext (evaluate_follows w [whole] .lasting path').result
      (evaluate_follows w [whole] .lasting path').store
  have several : w.ending (evaluateEach path (.bool false) texts) =
      (w.programs (.bool false) texts).outcome w.store :=
    Prod.ext (evaluateEach_follows w path _ texts).result (evaluateEach_follows w path _ texts).store
  simp only [one, several]
  constructor
  · exact program_sequence standard formed written written' w.store
  · exact fun fits => program_deeper standard formed written written' fits w.store

/-- An expression that is written as it was read, by evaluation. -/
theorem exists_written {n : Nat} {source : Source}
    (check : (match Expr.parse n source with
      | .ok e => e.spelling == source.text.toList && decide (e.height ≤ n)
      | .error _ => false) = true) :
    ∃ e, Expr.parse n source = .ok e ∧ e.spelling = source.text.toList ∧ e.height ≤ n := by
  split at check
  · rename_i e parsed
    rw [Bool.and_eq_true, decide_eq_true_eq, beq_iff_eq] at check
    exact ⟨e, parsed, check⟩
  · cases check

/-- A definition, a call of what it defines and a failure, as three programs and as one. -/
theorem evaluate_sequence_three :
    let w := new (.standard .standard) 0 ⟨true, .plain, none⟩ false
    let texts := ["define(f, fun(x, print(x)))", "f(1)", "y"]
    let whole := "do(define(f, fun(x, print(x))), f(1), y)"
    let each := w.ending (evaluateEach none (.bool false) texts)
    OutcomeAlike ((w.withLimits Limits.standard.deeper).ending (evaluate [whole] .lasting none))
      each := by
  intro w texts whole each
  obtain ⟨e₁, parsed₁, spelled₁, high₁⟩ :=
    @exists_written 9 ⟨0, "define(f, fun(x, print(x)))"⟩ (by decide +kernel)
  obtain ⟨e₂, parsed₂, spelled₂, high₂⟩ := @exists_written 9 ⟨1, "f(1)"⟩ (by decide +kernel)
  obtain ⟨e₃, parsed₃, spelled₃, high₃⟩ := @exists_written 9 ⟨2, "y"⟩ (by decide +kernel)
  have formed : ∀ e ∈ [e₁, e₂, e₃], e.WellFormed := by
    simp [Expr.wellFormed_of_parse parsed₁, Expr.wellFormed_of_parse parsed₂,
      Expr.wellFormed_of_parse parsed₃]
  have written : [e₁, e₂, e₃].Forall₂ (fun e text => ∃ limit, e.text limit = .ok text) texts := by
    refine .cons ⟨9, ?_⟩ (.cons ⟨9, ?_⟩ (.cons ⟨9, ?_⟩ .nil))
    · rw [Expr.WellFormed.text_eq (formed e₁ (by simp)) high₁, spelled₁, String.ofList_toList]
    · rw [Expr.WellFormed.text_eq (formed e₂ (by simp)) high₂, spelled₂, String.ofList_toList]
    · rw [Expr.WellFormed.text_eq (formed e₃ (by simp)) high₃, spelled₃, String.ofList_toList]
  have written' : ∃ limit, (Expr.sequence [e₁, e₂, e₃] .nowhere .nowhere).text limit = .ok whole := by
    refine ⟨_, (Expr.sequence_wellFormed formed _ _).text_eq le_rfl |>.trans ?_⟩
    simp only [Expr.sequence, Expr.spelling, Expr.spellArgs, Expr.spellMoreArgs, spelled₁, spelled₂,
      spelled₃]
    rfl
  have read : ∀ e ∈ [e₁, e₂, e₃], ∃ nesting source, Expr.parse nesting source = .ok e := by
    simpa using ⟨⟨9, _, parsed₁⟩, ⟨9, _, parsed₂⟩, ⟨9, _, parsed₃⟩⟩
  have room : ∀ source e, Expr.parse 9 source = .ok e → w.Fits e := fun source e parsed =>
    ⟨Nat.lt_trans (parse_ok_iff.1 parsed).2 (by decide), fun verbose => by cases verbose⟩
  have fits : ∀ e ∈ [e₁, e₂, e₃], w.Fits e := by
    simpa using ⟨room _ e₁ parsed₁, room _ e₂ parsed₂, room _ e₃ parsed₃⟩
  exact (evaluate_sequence .standard w rfl _ _ _ texts whole none none read written written').2 fits

end Workspace

end EggLanguage
