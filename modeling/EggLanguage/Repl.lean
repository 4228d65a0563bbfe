/-
# EggLanguage.Repl -- running programs as they are typed

The loop reads a line, runs it in the lasting scope of its workspace, and prints
the value or the report.  A text with more opening than closing parentheses, not
counting those in strings, is unfinished: it is kept, the prompt changes, and the
next line continues it.  While nothing is kept, three words are commands:
`help`, `exit`, and `EOF` for the end of the input.
-/
import EggLanguage.Workspace

namespace EggLanguage

set_option autoImplicit false

/-- What the user sees before typing a line. -/
inductive Prompt where
  | primary
  | continuation
  deriving DecidableEq, Repr

def Prompt.text : Prompt → String
  | primary => "> "
  | continuation => ". "

structure Repl where
  workspace : Workspace
  /-- The lines of an unfinished text, each with its line end. -/
  pending : String
  prompt : Prompt

/-- The answer to a line: what is printed, whether the user asked to stop, and
the crash that ended it, if one did. -/
structure Reply where
  output : String
  stops : Bool
  crash : Option Crash
  deriving DecidableEq, Repr

namespace Repl

/-- A loop over a workspace that nothing was typed into. -/
def new (workspace : Workspace) : Repl :=
  ⟨workspace, "", .primary⟩

def greeting : String :=
  "Egg interpreter :: Python backend\nType 'help' for more information.\n"

def help : String :=
  "Welcome to the Egg interpreter!\n\n" ++
  "Everything in Egg is an expression. Values are numbers, strings, booleans and \n" ++
  "functions; everything else is an application like +(1, 2). The special forms \n" ++
  "if, while, do, define and fun control evaluation.\n\n" ++
  "Try it out by typing 'define(sq, fun(x, *(x, x)))'. This will bind a function \n" ++
  "to 'sq'. Next, try typing 'sq(4)', which will give '16' as the result.\n"

/-! ## Unfinished texts -/

/-- A text without its closed strings. -/
def withoutStrings : List Char → List Char
  | [] => []
  | c :: rest =>
      if c = '"' then
        match _closed : Token.readString? rest with
        | some (_, after) => withoutStrings after
        | none => c :: rest
      else c :: withoutStrings rest
termination_by text => text.length
decreasing_by
  · have := Token.readString?_length_lt _closed
    simp only [List.length_cons]
    omega
  · simp

/-- Whether more parentheses are opened than closed outside strings. -/
def isUnfinished (text : List Char) : Bool :=
  let code := withoutStrings text
  code.count ')' < code.count '('

/-! ## Lines -/

/-- Evaluate a finished text and print its value or the report. -/
def evaluate (r : Repl) (text : String) : Reply × Repl :=
  let (result, workspace) := (Workspace.evaluate [text] .lasting none).run.run r.workspace
  let (printed, workspace) := workspace.takePrinted
  let output := Workspace.printedText printed
  match result with
  | .ok value => (⟨output ++ value.display ++ "\n", false, none⟩, { r with workspace := workspace })
  | .error stop =>
      let aftermath := workspace.reporter.absorb stop
      (⟨output ++ aftermath.output, false, aftermath.escapes⟩,
        { r with workspace := { workspace with reporter := aftermath.reporter } })

/-- Take a line of a program: keep it if the text so far is unfinished, and
evaluate the text otherwise.  A text of blanks alone has no effect. -/
def accept (r : Repl) (line : String) : Reply × Repl :=
  let text := r.pending ++ line
  if isUnfinished text.toList then
    (⟨"", false, none⟩, { r with pending := text ++ "\n", prompt := .continuation })
  else
    let ready := { r with pending := "", prompt := .primary }
    if Text.trim text.toList = [] then (⟨"", false, none⟩, ready) else ready.evaluate text

/-- Take a line: a command, if nothing is pending, or a line of a program. -/
def enter (r : Repl) (line : String) : Reply × Repl :=
  let word := String.ofList (Text.trim line.toList)
  if r.pending = "" ∧ word = "help" then (⟨help, false, none⟩, r)
  else if r.pending = "" ∧ word = "exit" then (⟨"", true, none⟩, r)
  else if r.pending = "" ∧ word = "EOF" then (⟨"\n", true, none⟩, r)
  else r.accept line

/-! ## Conversations -/

/-- All that is written while lines are typed one after another, until one stops
the loop or crashes it.  The end of the input counts as the line `EOF`. -/
def converse (r : Repl) (output : String) : List String → String × Option Crash × Repl
  | [] =>
      let (reply, r') := r.enter "EOF"
      (output ++ r.prompt.text ++ reply.output, reply.crash, r')
  | line :: rest =>
      let (reply, r') := r.enter line
      let output := output ++ r.prompt.text ++ reply.output
      if reply.stops || reply.crash.isSome then (output, reply.crash, r')
      else r'.converse output rest

end Repl

end EggLanguage
