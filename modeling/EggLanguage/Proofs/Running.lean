/-
# EggLanguage.Proofs.Running -- the program that the reporter takes to be running

A program is registered with the reporter before it is read, and is forgotten once it has a
value.  If it stops without one it stays registered, since the report needs its text
(`Workspace.evaluate_reporter`).  Besides that no use of a workspace changes the reporter
(`Workspace.after_reporter`).

`Work.Reports` says what a computation makes of the reporter, for either ending, and has one
law for each way of making a computation.
-/
import EggLanguage.Proofs.Isolation

namespace EggLanguage

set_option autoImplicit false

namespace Work

variable {α β : Type} {f g : Reporter → Reporter}

/-- What a computation makes of the reporter: `f` if it has a result, `g` if it has none. -/
structure Reports (f g : Reporter → Reporter) (x : Work α) : Prop where
  result : ∀ {w a w'}, x.outcome w = (.ok a, w') → w'.reporter = f w.reporter
  stop : ∀ {w e w'}, x.outcome w = (.error e, w') → w'.reporter = g w.reporter

/-- The computation leaves the reporter as it is. -/
abbrev Silent (x : Work α) : Prop :=
  x.Reports id id

theorem Silent.ofOutcome {x : Work α} (kept : ∀ w, (x.outcome w).2.reporter = w.reporter) :
    x.Silent where
  result := by
    intro w a w' ended
    rw [← kept w, ended]
    rfl
  stop := by
    intro w e w' ended
    rw [← kept w, ended]
    rfl

/-- A computation that sets the workspace anew may depend on the one it finds. -/
theorem Silent.ofState {next : Workspace → Work α}
    (kept : ∀ w, ((next w).outcome w).2.reporter = w.reporter) :
    Silent (MonadState.get >>= next) :=
  .ofOutcome kept

namespace Reports

theorem pure (a : α) : Silent (Pure.pure a : Work α) :=
  .ofOutcome fun _ => rfl

theorem ofExcept (result : Except Stop α) : Silent (ExceptT.mk (Pure.pure result) : Work α) :=
  .ofOutcome fun _ => rfl

theorem evaluating (x : Eval α) : Silent (Workspace.evaluating x) :=
  .ofOutcome fun _ => rfl

/-- A change of the workspace always has a result. -/
theorem modified {change : Workspace → Workspace}
    (changed : ∀ w, (change w).reporter = f w.reporter) :
    Reports f g (modify change : Work Unit) where
  result := by
    intro w a w' ended
    cases ended
    exact changed w
  stop := by
    intro w e w' ended
    cases ended

theorem get {next : Workspace → Work α} (each : ∀ w, (next w).Reports f g) :
    Reports f g (MonadState.get >>= next) where
  result := fun {w _ _} ended => (each w).result ended
  stop := fun {w _ _} ended => (each w).stop ended

/-- What the first computation makes of the reporter must not depend on how it ends, since the
second one may stop. -/
theorem bind {x : Work α} {next : α → Work β} (first : x.Reports g g)
    (second : ∀ a, (next a).Reports f id) : Reports (f ∘ g) g (x >>= next) where
  result := by
    intro w b w' ended
    rw [outcome_bind] at ended
    split at ended
    · rename_i a w₁ given
      rw [(second a).result ended, first.result given]
      rfl
    · cases ended
  stop := by
    intro w e w' ended
    rw [outcome_bind] at ended
    split at ended
    · rename_i a w₁ given
      rw [(second a).stop ended, first.result given]
      rfl
    · rename_i stopped
      cases ended
      exact first.stop stopped

end Reports

theorem Silent.bind {x : Work α} {next : α → Work β} (first : x.Silent)
    (second : ∀ a, (next a).Reports f id) : (x >>= next).Reports f id :=
  Reports.bind first second

end Work

namespace Workspace

open Work

theorem note_reporter (w : Workspace) (entry : String) : (w.note entry).reporter = w.reporter := by
  unfold note
  split <;> rfl

theorem begin_reporter (w : Workspace) (text : String) (path : Option String) :
    (w.begin text path).reporter = w.reporter.start (nameOf path) text :=
  note_reporter _ _

/-- What is read is registered, whether it can be read or not. -/
theorem parse_reports (fragments : List String) (path : Option String) :
    (parse fragments path).Reports (·.start (nameOf path) (join fragments))
      (·.start (nameOf path) (join fragments)) := by
  have begins : (modify fun w => w.begin (join fragments) path : Work Unit).Reports
      (·.start (nameOf path) (join fragments)) (·.start (nameOf path) (join fragments)) :=
    .modified fun w => begin_reporter w _ _
  have reads : (do
      let source ← newSource (join fragments)
      let setting := (← get).setting
      ExceptT.mk (pure (Expr.parse setting.limits.nesting source)) : Work Expr).Silent :=
    Silent.bind (.evaluating _) fun source => .get fun w => .ofExcept _
  exact begins.bind fun _ => reads

theorem scopeFor_silent (choice : ScopeChoice) : (scopeFor choice).Silent := by
  cases choice with
  | fresh => exact .get fun w => .evaluating _
  | lasting => exact .get fun w => .pure _

theorem noteExpr_silent (e : Expr) : (noteExpr e).Silent := by
  refine .ofState fun w => ?_
  split
  · cases e.text w.setting.limits.height with
    | ok text => exact note_reporter w _
    | error c => rfl
  · rfl

/-- A program is forgotten once it has a value. -/
theorem evaluate_reports (fragments : List String) (choice : ScopeChoice) (path : Option String) :
    (evaluate fragments choice path).Reports Reporter.forget
      (·.start (nameOf path) (join fragments)) := by
  have forgets : ∀ value : Value, (do
      modify fun w => { w with reporter := w.reporter.forget }
      return value : Work Value).Reports Reporter.forget id := by
    intro value
    constructor
    · intro w a w' ended
      cases ended
      rfl
    · intro w e w' ended
      cases ended
  have runs : ∀ e : Expr, (do
      let scope ← scopeFor choice
      noteExpr e
      let w ← get
      let value ← evaluating (w.setting.run w.dialect e scope)
      modify fun w => { w with reporter := w.reporter.forget }
      return value : Work Value).Reports Reporter.forget id := fun e =>
    (scopeFor_silent choice).bind fun scope => (noteExpr_silent e).bind fun _ =>
      .get fun w => Silent.bind (.evaluating _) forgets
  exact (parse_reports fragments path).bind runs

theorem evaluate_reporter (w : Workspace) (fragments : List String) (choice : ScopeChoice)
    (path : Option String) :
    ((evaluate fragments choice path).outcome w).2.reporter =
      match ((evaluate fragments choice path).outcome w).1 with
      | .ok _ => w.reporter.forget
      | .error _ => w.reporter.start (nameOf path) (join fragments) := by
  cases ended : (evaluate fragments choice path).outcome w with
  | mk result w' =>
      cases result with
      | ok value => exact (evaluate_reports fragments choice path).result ended
      | error stop => exact (evaluate_reports fragments choice path).stop ended

/-- To state a failure as a value changes no registration. -/
theorem run_reporter (w : Workspace) (fragments : List String) :
    ((run fragments).outcome w).2.reporter =
      ((evaluate fragments .fresh none).outcome w).2.reporter := by
  rw [run, outcome_tryCatch]
  cases (evaluate fragments .fresh none).outcome w with
  | mk result w' =>
      cases result with
      | ok value => rfl
      | error stop =>
          cases stop with
          | failure f => exact note_reporter w' _
          | crash c => rfl

/-! ## Histories -/

/-- A use changes in the reporter at most which program is running. -/
theorem use_reporter (w : Workspace) (used : Use) :
    ∃ running, (w.use used).reporter = { w.reporter with running := running } := by
  have evaluated : ∀ fragments choice path, ∃ running,
      ((evaluate fragments choice path).outcome w).2.reporter =
        { w.reporter with running := running } := by
    intro fragments choice path
    rw [evaluate_reporter]
    split
    · exact ⟨none, rfl⟩
    · exact ⟨some ⟨nameOf path, join fragments⟩, rfl⟩
  cases used with
  | run fragments =>
      obtain ⟨running, same⟩ := evaluated fragments .fresh none
      exact ⟨running, (run_reporter w fragments).trans same⟩
  | evaluate fragments choice path => exact evaluated fragments choice path
  | parse fragments path =>
      refine ⟨some ⟨nameOf path, join fragments⟩, ?_⟩
      rw [use]
      cases ended : (parse fragments path).outcome w with
      | mk result w' =>
          cases result with
          | ok e => exact (parse_reports fragments path).result ended
          | error stop => exact (parse_reports fragments path).stop ended

theorem after_reporter (w : Workspace) (uses : List Use) :
    ∃ running, (w.after uses).reporter = { w.reporter with running := running } := by
  induction uses generalizing w with
  | nil => exact ⟨w.reporter.running, rfl⟩
  | cons first rest ih =>
      obtain ⟨running, once⟩ := use_reporter w first
      obtain ⟨running', same⟩ := ih (w.use first)
      refine ⟨running', ?_⟩
      rw [once] at same
      exact same

end Workspace

end EggLanguage
