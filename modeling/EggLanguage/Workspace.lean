/-
# EggLanguage.Workspace -- running programs one after another

A workspace holds one global scope that all its programs start from.  A program
runs in a fresh scope below it, or in the workspace's own lasting scope, where
what it defines stays for later programs.  The workspace remembers the last text
it was given, tells its reporter what is being run, and keeps a log if it is
verbose.

`Workspace.run` is where failures become texts; everything below it stops.
-/
import EggLanguage.Expr.Parser
import EggLanguage.Interpreter
import EggLanguage.Reporter

namespace EggLanguage

set_option autoImplicit false

structure Workspace where
  setting : Setting
  /-- The dialect that programs are evaluated in. -/
  dialect : DialectId
  store : Store
  globalScope : ScopeId
  lastingScope : ScopeId
  lastText : Option String
  reporter : Reporter
  /-- Whether a log is kept. -/
  verbose : Bool
  /-- What happened, in order. -/
  log : Array String

/-- A computation over a workspace that may stop without a result. -/
abbrev Work := ExceptT Stop (StateM Workspace)

namespace Workspace

/-- A new workspace: a global scope and, below it, the lasting scope. -/
def new (setting : Setting) (dialect : DialectId) (reporter : Reporter) (verbose : Bool) :
    Workspace :=
  let (globalScope, store) := Store.empty.newScope Store.globalBindings none
  let (lastingScope, store) := store.newScope [] (some globalScope)
  ⟨setting, dialect, store, globalScope, lastingScope, none, reporter, verbose, #[]⟩

/-- The path under which a program without one is reported. -/
def unnamed : String := "<in>"

/-- The path to report a program under. -/
def nameOf : Option String → String
  | none => unnamed
  | some path => if path = "" then unnamed else path

/-- Fragments make up one program, line after line. -/
def join (fragments : List String) : String :=
  String.intercalate "\n" fragments

/-- The workspace with a reporter that goes on after a report. -/
def resumable (w : Workspace) : Workspace :=
  { w with reporter := { w.reporter with fatal := false } }

/-! ## Steps -/

/-- The workspace with one more log entry, if a log is kept. -/
def note (w : Workspace) (entry : String) : Workspace :=
  if w.verbose then { w with log := w.log.push entry } else w

/-- The workspace once it has been given a text to run. -/
def begin (w : Workspace) (text : String) (path : Option String) : Workspace :=
  { w with
    lastText := some text
    reporter := w.reporter.start (nameOf path) text }
  |>.note s!"parsing {text.length} characters from {nameOf path}"

/-- Log the expression that is about to be evaluated. -/
def noteExpr (e : Expr) : Work Unit := do
  let w ← get
  if w.verbose then
    match e.text w.setting.limits.height with
    | .ok text => set (w.note s!"evaluating {text}")
    | .error c => throw (.crash c)

/-- Evaluate in the workspace's store. -/
def evaluating {α : Type} (x : Eval α) : Work α :=
  ExceptT.mk fun w =>
    let (result, store) := x.run.run w.store
    (result, { w with store := store })

/-- A reading of a text that differs from all others. -/
def newSource (text : String) : Work Source :=
  evaluating (Eval.step fun s => s.newSource text)

/-! ## Programs -/

/-- Read fragments as one program. -/
def parse (fragments : List String) (path : Option String) : Work Expr := do
  let text := join fragments
  modify fun w => w.begin text path
  let source ← newSource text
  let setting := (← get).setting
  ExceptT.mk (pure (Expr.parse setting.limits.nesting source))

/-- The scope that a program runs in: one of its own, or the lasting one. -/
inductive ScopeChoice where
  | fresh
  | lasting
  deriving DecidableEq, Repr

/-- The scope for a program to run in. -/
def scopeFor : ScopeChoice → Work ScopeId
  | .lasting => return (← get).lastingScope
  | .fresh => do
      let globalScope := (← get).globalScope
      evaluating (Eval.newScope [] (some globalScope))

/-- Run fragments as one program; its value.  The program that stopped stays the
one being run, for the report. -/
def evaluate (fragments : List String) (choice : ScopeChoice) (path : Option String) : Work Value := do
  let e ← parse fragments path
  let scope ← scopeFor choice
  noteExpr e
  let w ← get
  let value ← evaluating (w.setting.run w.dialect e scope)
  modify fun w => { w with reporter := w.reporter.forget }
  return value

/-- Run fragments as one program; its value or, if it failed, what the failure
says. -/
def run (fragments : List String) : Work Value :=
  tryCatch (evaluate fragments .fresh none) fun
    | .failure f => do
        modify fun w => w.note s!"program failed: {f.text}"
        return .string f.text
    | stop => throw stop

/-- The names bound in the lasting scope. -/
def names (w : Workspace) : List String :=
  w.store.names w.lastingScope

/-! ## Output -/

/-- What `print` writes for values: each on a line of its own. -/
def printedText (values : Array Value) : String :=
  String.join (values.toList.map fun v => v.display ++ "\n")

/-- The values printed since they were last taken. -/
def takePrinted (w : Workspace) : Array Value × Workspace :=
  (w.store.printed, { w with store := { w.store with printed := #[] } })

/-- The log entries since they were last taken. -/
def takeLog (w : Workspace) : Array String × Workspace :=
  (w.log, { w with log := #[] })

/-- A log entry as it is written. -/
def logLine (entry : String) : String :=
  "egg.lang.session: DEBUG: " ++ entry

end Workspace

end EggLanguage
