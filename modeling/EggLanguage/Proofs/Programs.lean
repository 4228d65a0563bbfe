/-
# EggLanguage.Proofs.Programs -- runs of programs, as the store sees them

A run passes through the whole workspace: it sets the last text, tells the reporter and
writes the log.  None of this comes back to the program.  `Workspace.program` is what a run
does to the store, and a run follows it step by step (`evaluate_follows`, `run_follows`),
so that what is known of evaluation holds of runs.
-/
import EggLanguage.Workspace
import EggLanguage.Proofs.Run

namespace EggLanguage

set_option autoImplicit false

/-! ## Following -/

/-- What programs depend on besides the store is the same in a later workspace. -/
structure Workspace.Continues (earlier later : Workspace) : Prop where
  setting : later.setting = earlier.setting
  dialect : later.dialect = earlier.dialect
  globalScope : later.globalScope = earlier.globalScope
  lastingScope : later.lastingScope = earlier.lastingScope
  verbose : later.verbose = earlier.verbose

namespace Workspace.Continues

theorem refl (w : Workspace) : w.Continues w :=
  ⟨rfl, rfl, rfl, rfl, rfl⟩

theorem trans {w w₁ w₂ : Workspace} (first : w.Continues w₁) (second : w₁.Continues w₂) :
    w.Continues w₂ where
  setting := second.setting.trans first.setting
  dialect := second.dialect.trans first.dialect
  globalScope := second.globalScope.trans first.globalScope
  lastingScope := second.lastingScope.trans first.lastingScope
  verbose := second.verbose.trans first.verbose

end Workspace.Continues

namespace Work

variable {α β : Type}

/-- How a computation from a workspace ends, and the workspace it leaves. -/
def outcome (x : Work α) (w : Workspace) : Except Stop α × Workspace :=
  (x.run.run w).run

theorem outcome_bind (x : Work α) (next : α → Work β) (w : Workspace) :
    (x >>= next).outcome w =
      match x.outcome w with
      | (.ok a, w') => (next a).outcome w'
      | (.error e, w') => (.error e, w') := by
  show (StateT.run (ExceptT.bindCont next (x.outcome w).1) (x.outcome w).2).run = _
  cases x.outcome w with
  | mk result w' => cases result <;> rfl

theorem outcome_tryCatch (x : Work α) (handler : Stop → Work α) (w : Workspace) :
    (tryCatch x handler).outcome w =
      match x.outcome w with
      | (.ok a, w') => (.ok a, w')
      | (.error e, w') => (handler e).outcome w' := by
  simp only [outcome, tryCatch, tryCatchThe, MonadExceptOf.tryCatch, ExceptT.tryCatch, ExceptT.run,
    ExceptT.mk, StateT.run_bind]
  generalize StateT.run x w = ended
  obtain ⟨result, w'⟩ := ended
  cases result <;> rfl

/-- From a workspace, the computation does what another one does to the store. -/
structure Follows (x : Work α) (w : Workspace) (y : Eval α) : Prop where
  result : (x.outcome w).1 = (y.outcome w.store).1
  store : (x.outcome w).2.store = (y.outcome w.store).2
  continues : w.Continues (x.outcome w).2

namespace Follows

variable {w : Workspace}

theorem pure (a : α) : Follows (Pure.pure a) w (Pure.pure a) :=
  ⟨rfl, rfl, .refl w⟩

theorem ofExcept (result : Except Stop α) :
    Follows (ExceptT.mk (Pure.pure result)) w (Eval.ofExcept result) :=
  ⟨rfl, rfl, .refl w⟩

theorem evaluating (y : Eval α) : Follows (Workspace.evaluating y) w y :=
  ⟨rfl, rfl, ⟨rfl, rfl, rfl, rfl, rfl⟩⟩

theorem bind {x : Work α} {y : Eval α} {next : α → Work β} {next' : α → Eval β}
    (first : x.Follows w y)
    (second : ∀ a w', w.Continues w' → (next a).Follows w' (next' a)) :
    (x >>= next).Follows w (y >>= next') := by
  obtain ⟨result, store, continues⟩ := first
  cases ended : y.outcome w.store with
  | mk answer s =>
      cases ended' : x.outcome w with
      | mk answer' w' =>
          rw [ended, ended'] at result store
          rw [ended'] at continues
          obtain rfl : answer' = answer := result
          obtain rfl : w'.store = s := store
          cases answer' with
          | ok a =>
              obtain ⟨result', store', continues'⟩ := second a w' continues
              refine ⟨?_, ?_, ?_⟩ <;> simp only [outcome_bind, Eval.outcome_bind, ended, ended']
              · exact result'
              · exact store'
              · exact continues.trans continues'
          | error e =>
              refine ⟨?_, ?_, ?_⟩ <;> simp only [outcome_bind, Eval.outcome_bind, ended, ended']
              exact continues

theorem get {next : Workspace → Work α} {y : Eval α} (follows : (next w).Follows w y) :
    Follows (MonadState.get >>= next) w y :=
  ⟨follows.result, follows.store, follows.continues⟩

/-- A step that the store does not see. -/
theorem aside {change : Workspace → Workspace} {next : Unit → Work α} {y : Eval α}
    (unseen : (change w).store = w.store) (continues : w.Continues (change w))
    (follows : (next ()).Follows (change w) y) : Follows (modify change >>= next) w y := by
  have outcome : (modify change >>= next).outcome w = (next ()).outcome (change w) := rfl
  obtain ⟨result, store, continues'⟩ := follows
  rw [unseen] at result store
  refine ⟨?_, ?_, ?_⟩ <;> rw [outcome]
  · exact result
  · exact store
  · exact continues.trans continues'

theorem thenAside {x : Work α} {y : Eval α} (follows : x.Follows w y)
    {change : Workspace → Workspace} (unseen : ∀ w, (change w).store = w.store)
    (continues : ∀ w, Workspace.Continues w (change w)) :
    Follows (do let a ← x; modify change; return a) w y := by
  have whole : Follows (do let a ← x; modify change; return a) w (y >>= Pure.pure) :=
    follows.bind fun a w' _ => aside (unseen w') (continues w') (pure a)
  rwa [bind_pure] at whole

end Follows

end Work

/-! ## Programs -/

namespace Workspace

variable (w : Workspace)

/-- Reading a text. -/
def reading (text : String) : Eval Expr := do
  let source ← Eval.step fun s => s.newSource text
  Eval.ofExcept (Expr.parse w.setting.limits.nesting source)

/-- The scope that a program is evaluated in. -/
def scopeOf : ScopeChoice → Eval ScopeId
  | .lasting => return w.lastingScope
  | .fresh => Eval.newScope [] (some w.globalScope)

/-- Logging an expression crashes if it cannot be written. -/
def logging (e : Expr) : Eval Unit :=
  if w.verbose then
    match e.text w.setting.limits.height with
    | .ok _ => return ()
    | .error c => Eval.crash c
  else return ()

/-- Reading a text and evaluating it. -/
def program (text : String) (choice : ScopeChoice) : Eval Value := do
  let e ← w.reading text
  let scope ← w.scopeOf choice
  w.logging e
  w.setting.run w.dialect e scope

/-- The end of a run: the text of a failure takes the place of a value. -/
def reported : Except Stop Value → Except Stop Value
  | .error (.failure f) => .ok (.string f.text)
  | result => result

variable {w}

theorem Continues.reading {w' : Workspace} (continues : w.Continues w') (text : String) :
    w'.reading text = w.reading text := by
  unfold Workspace.reading
  rw [continues.setting]

theorem Continues.scopeOf {w' : Workspace} (continues : w.Continues w') (choice : ScopeChoice) :
    w'.scopeOf choice = w.scopeOf choice := by
  cases choice
  · exact congrArg (fun scope => Eval.newScope [] (some scope)) continues.globalScope
  · exact congrArg pure continues.lastingScope

theorem Continues.logging {w' : Workspace} (continues : w.Continues w') (e : Expr) :
    w'.logging e = w.logging e := by
  unfold Workspace.logging
  rw [continues.verbose, continues.setting]

/-- A new log entry is nothing to programs. -/
theorem note_store (w : Workspace) (entry : String) : (w.note entry).store = w.store := by
  unfold note
  split <;> rfl

theorem note_continues (w : Workspace) (entry : String) : w.Continues (w.note entry) := by
  unfold note
  split <;> exact ⟨rfl, rfl, rfl, rfl, rfl⟩

theorem begin_store (w : Workspace) (text : String) (path : Option String) :
    (w.begin text path).store = w.store :=
  note_store _ _

theorem begin_continues (w : Workspace) (text : String) (path : Option String) :
    w.Continues (w.begin text path) := by
  unfold begin note
  split <;> exact ⟨rfl, rfl, rfl, rfl, rfl⟩

theorem parse_follows (w : Workspace) (fragments : List String) (path : Option String) :
    (parse fragments path).Follows w (w.reading (join fragments)) := by
  have continues := begin_continues w (join fragments) path
  refine .aside (begin_store w _ path) continues ?_
  rw [← continues.reading]
  refine (Work.Follows.evaluating _).bind fun source w' later => .get ?_
  rw [later.setting]
  exact .ofExcept _

theorem scopeFor_follows (w : Workspace) (choice : ScopeChoice) :
    (scopeFor choice).Follows w (w.scopeOf choice) := by
  cases choice with
  | fresh => exact .get (.evaluating _)
  | lasting => exact .get (.pure _)

theorem noteExpr_follows (w : Workspace) (e : Expr) : (noteExpr e).Follows w (w.logging e) := by
  refine .get ?_
  unfold logging
  split
  · cases e.text w.setting.limits.height with
    | ok text => exact ⟨rfl, note_store w _, note_continues w _⟩
    | error c => exact ⟨rfl, rfl, .refl w⟩
  · exact .pure _

theorem logging_keeps (w : Workspace) (e : Expr) (inv : Store → Prop) :
    (w.logging e).Keeps inv fun _ => True := by
  unfold logging
  split
  · cases e.text w.setting.limits.height with
    | ok text => exact .pure trivial
    | error c => exact .crash c
  · exact .pure trivial

/-- Running a program does to the store what reading and evaluating it does. -/
theorem evaluate_follows (w : Workspace) (fragments : List String) (choice : ScopeChoice)
    (path : Option String) :
    (evaluate fragments choice path).Follows w (w.program (join fragments) choice) := by
  refine (parse_follows w fragments path).bind fun e w₁ continues => ?_
  rw [← continues.scopeOf]
  refine (scopeFor_follows w₁ choice).bind fun scope w₂ continues' => ?_
  rw [← (continues.trans continues').logging]
  refine (noteExpr_follows w₂ e).bind fun _ w₃ continues'' => .get ?_
  have later := (continues.trans continues').trans continues''
  rw [← later.setting, ← later.dialect]
  exact (Work.Follows.evaluating _).thenAside (fun _ => rfl) fun _ => ⟨rfl, rfl, rfl, rfl, rfl⟩

/-- A run states a failure as its value. -/
theorem run_follows (w : Workspace) (fragments : List String) :
    ((run fragments).outcome w).1 =
        reported ((w.program (join fragments) .fresh).outcome w.store).1 ∧
      ((run fragments).outcome w).2.store =
        ((w.program (join fragments) .fresh).outcome w.store).2 ∧
      w.Continues ((run fragments).outcome w).2 := by
  obtain ⟨result, store, continues⟩ := evaluate_follows w fragments .fresh none
  rw [← result, ← store, run, Work.outcome_tryCatch]
  cases ended : (evaluate fragments .fresh none).outcome w with
  | mk answer w' =>
      rw [ended] at continues
      cases answer with
      | ok value => exact ⟨rfl, rfl, continues⟩
      | error e =>
          cases e with
          | failure f => exact ⟨rfl, note_store _ _, continues.trans (note_continues _ _)⟩
          | crash c => exact ⟨rfl, rfl, continues⟩

theorem join_singleton (text : String) : join [text] = text :=
  rfl

/-- What there is to see of a run: how it ends, and the store it leaves. -/
def runOutcome (w : Workspace) (fragments : List String) : Except Stop Value × Store :=
  let (result, later) := (run fragments).outcome w
  (result, later.store)

theorem runOutcome_eq (w : Workspace) (fragments : List String) :
    w.runOutcome fragments =
      (reported ((w.program (join fragments) .fresh).outcome w.store).1,
        ((w.program (join fragments) .fresh).outcome w.store).2) := by
  obtain ⟨result, store, -⟩ := run_follows w fragments
  exact Prod.ext result store

end Workspace

end EggLanguage
