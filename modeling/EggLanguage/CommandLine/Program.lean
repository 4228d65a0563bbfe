/-
# EggLanguage.CommandLine.Program -- the interpreter as a program

With files or commands, the texts of the files and then the commands make up one
program, which is run, or only read and written out again.  With neither, the
program reads its input line by line.

A program is a function of its words, the files it can open and the lines of its
input; `Transcript` is all that it does.
-/
import EggLanguage.CommandLine.Options
import EggLanguage.Repl
import EggLanguage.SourceFile

namespace EggLanguage.CommandLine

set_option autoImplicit false

/-- What a program writes, and the crash it ends with, if it does. -/
structure Transcript where
  out : String
  err : String
  crash : Option Crash
  deriving DecidableEq, Repr

/-- The path under which commands without files are reported. -/
def commandPath : String := "<command>"

/-- The path to report a program under. -/
def pathOf (files : List String) : String :=
  if files = [] then commandPath else String.intercalate ", " files

/-- The lines that are logged. -/
def logText (w : Workspace) : String :=
  String.join (w.log.toList.map fun entry => Workspace.logLine entry ++ "\n")

/-- The texts of files, up to the first that cannot be read. -/
def readAll (files : Files) : List String → Except Stop (List String)
  | [] => .ok []
  | path :: rest =>
      match files.read path with
      | .error e => .error e
      | .ok text => (readAll files rest).map (text :: ·)

/-- The parts of a program, counted from `position`, if all of them are texts. -/
def allTexts (position : Nat) : List (Option String) → Except Stop (List String)
  | [] => .ok []
  | none :: _ => .error (.crash (.missingText position))
  | some text :: rest => (allTexts (position + 1) rest).map (text :: ·)

/-- The text that a program is to print in the end: its value, or itself. -/
def resultOf (files : Files) (o : Options) : Work String := do
  let texts ← ExceptT.mk (pure (readAll files o.files.files))
  let fragments ← ExceptT.mk (pure (allTexts 0 (texts.map some ++ o.commands)))
  let path := some (pathOf o.files.files)
  if o.tree then
    let e ← Workspace.parse fragments path
    match e.text (← get).setting.limits.height with
    | .ok text => return text
    | .error c => throw (.crash c)
  else
    let value ← Workspace.evaluate fragments .fresh path
    return value.display

/-- Run files and commands as one program. -/
def runProgram (w : Workspace) (files : Files) (o : Options) : Transcript :=
  let (result, w) := (resultOf files o).run.run w
  let (printed, w) := w.takePrinted
  let out := Workspace.printedText printed
  let err := logText w
  match result with
  | .ok text => ⟨out ++ text ++ "\n", err, none⟩
  | .error stop =>
      let aftermath := w.reporter.absorb stop
      ⟨out ++ aftermath.output, err, aftermath.escapes⟩

/-- Run the lines of an input one after another. -/
def runLines (w : Workspace) (lines : List String) : Transcript :=
  let repl := Repl.new w.resumable
  let (out, crash, repl) := repl.converse Repl.greeting lines
  let err := logText repl.workspace
  match crash with
  | none => ⟨out, err, none⟩
  | some c =>
      let aftermath := repl.workspace.reporter.absorb (.crash c)
      ⟨out ++ aftermath.output, err, aftermath.escapes⟩

/-- Whether a command line leaves it to the input to say what to run. -/
def Options.isInteractive (o : Options) : Bool :=
  o.files.files = [] && o.commands = []

/-- The transcript of a command line that asks for no program. -/
def Ending.transcript : Ending → Transcript
  | .help => ⟨helpText, "", some (.exit (some 0))⟩
  | .misuse m => ⟨"", usage ++ s!"egg: error: {m.message}\n", some (.exit (some 2))⟩

/-- A workspace for one run of the program. -/
def workspace (setting : Setting) (emphasis : Emphasis) (verbose : Bool) : Workspace :=
  Workspace.new setting 0 ⟨true, emphasis, none⟩ verbose

/-- The lines of a text; a last line may lack its end. -/
def linesOf (text : String) : List String :=
  let lines := text.splitOn "\n"
  if lines.getLast? = some "" then lines.dropLast else lines

/-- All that the program does. -/
def run (setting : Setting) (emphasis : Emphasis) (files : Files) (line : List String)
    (input : String) : Transcript :=
  match Options.ofLine line with
  | .error ending => ending.transcript
  | .ok o =>
      let w := workspace setting emphasis o.verbose
      if o.isInteractive then runLines w (linesOf input) else runProgram w files o

end EggLanguage.CommandLine
