/-
# EggLanguage.Reporter -- telling the user what went wrong

A reporter knows the program that is being run: its path and its text.  A report
names the path, the line and the column of a failure, states its kind and
message, and shows the line with the offending part marked (`Reporter.excerpt`).
A failure that lies in another text than the one being run is reported without a
place.

A fatal reporter ends the program after a report; any other forgets the program
and goes on.
-/
import EggLanguage.Failure
import EggLanguage.Text.Lines

namespace EggLanguage

set_option autoImplicit false

open EggLanguage.Text (Location)

/-! ## Emphasis -/

inductive Colour where
  | red
  | magenta
  deriving DecidableEq, Repr

/-- How reports stand out: what is written for a text in bold, in a colour if there is one.  Reporters
work with any such way. -/
structure Emphasis where
  mark : Option Colour → String → String

namespace Emphasis

/-- Nothing stands out. -/
def plain : Emphasis :=
  ⟨fun _ text => text⟩

@[simp] theorem mark_plain (colour : Option Colour) (text : String) :
    plain.mark colour text = text :=
  rfl

/-- A text stands out between what opens and what closes its colour, and is not changed itself. -/
def Wraps (emphasis : Emphasis) (opening closing : Option Colour → String) : Prop :=
  ∀ colour text, emphasis.mark colour text = opening colour ++ text ++ closing colour

/-- The control sequences with which a terminal goes over to bold, and to a colour. -/
def sequences : Option Colour → String
  | none => "\x1b[1m"
  | some .red => "\x1b[1m\x1b[31m"
  | some .magenta => "\x1b[1m\x1b[35m"

/-- The way in which texts stand out on a terminal. -/
def coloured : Emphasis :=
  ⟨fun colour text => sequences colour ++ text ++ "\x1b[0m"⟩

end Emphasis

/-! ## Reporters -/

/-- The program that is being run. -/
structure Running where
  path : String
  text : String
  deriving DecidableEq, Repr

structure Reporter where
  fatal : Bool
  emphasis : Emphasis
  running : Option Running

namespace Reporter

def start (r : Reporter) (path text : String) : Reporter :=
  { r with running := some ⟨path, text⟩ }

def forget (r : Reporter) : Reporter :=
  { r with running := none }

/-! ## Places -/

/-- The text being run and the offset in it at which a failure lies, if it lies
in that text.  A failure without a source is taken to. -/
def offset? (r : Reporter) (place : Place) : Option (List Char × Nat) :=
  match r.running, place.start with
  | some running, some start =>
      if place.source.all (·.text == running.text) then some (running.text.toList, start) else none
  | _, _ => none

/-- The line at `start` with the characters up to `stop` marked, and a second
line that underlines them.  Nothing beyond the line is marked. -/
def excerptOf (emphasis : Emphasis) (colour : Colour) (text : List Char) (start : Nat)
    (stop : Option Nat) : String :=
  let location := Location.ofOffset text start
  let line := location.line
  let first := location.column - 1
  let wanted := max (first + stop.getD (start + 1) - start) (first + 1)
  let last := min wanted line.length
  let marked := String.ofList ((line.take last).drop first)
  let marker := String.ofList ('^' :: List.replicate (last - first - 1) '~')
  "  " ++ String.ofList (line.take first) ++ emphasis.mark (some colour) marked ++
    String.ofList (line.drop last) ++ "\n" ++
    "  " ++ String.ofList (List.replicate first ' ') ++ emphasis.mark (some colour) marker

/-- The excerpt of the text being run at a place, and a line end; nothing if the
place is elsewhere or at the end of the text. -/
def excerpt (r : Reporter) (colour : Colour) (place : Place) : String :=
  match r.offset? place with
  | some (text, start) =>
      if start < text.length then excerptOf r.emphasis colour text start place.stop ++ "\n" else ""
  | none => ""

/-- The path of the program being run, with the line and the column of a place
in it. -/
def header (r : Reporter) (place : Place) : String :=
  match r.running with
  | none => ""
  | some running =>
      match r.offset? place with
      | none => r.emphasis.mark none s!"{running.path}: "
      | some (text, start) =>
          let location := Location.ofOffset text start
          r.emphasis.mark none s!"{running.path}:{location.number}:{location.column}: "

/-! ## Reports -/

/-- The text of a warning. -/
def warning (r : Reporter) (message : String) (place : Place) : String :=
  r.header place ++ r.emphasis.mark (some .magenta) "warning: " ++ message ++ "\n" ++
    r.excerpt .magenta place

/-- The text of a report on a failure. -/
def failureReport (r : Reporter) (f : Failure) : String :=
  r.header f.place ++ r.emphasis.mark (some .red) "error: " ++ f.text ++ "\n" ++
    r.excerpt .red f.place

/-- The text of a report on a failure that is not the program's own. -/
def internalReport (r : Reporter) (f : Failure) : String :=
  r.header f.place ++ r.emphasis.mark (some .red) "[internal] " ++
    r.emphasis.mark (some .red) "error: " ++ f.text ++ "\n"

/-- What a report leaves behind: its text, the reporter after it, and the crash
that goes on after it, if one does. -/
structure Aftermath where
  output : String
  reporter : Reporter
  escapes : Option Crash

/-- After a report a fatal reporter ends the program; any other forgets the
program that was run, and `next` is what goes on. -/
def afterwards (r : Reporter) (output : String) (next : Option Crash) : Aftermath :=
  if r.fatal then ⟨output, r, some (.exit (some 1))⟩ else ⟨output, r.forget, next⟩

def report (r : Reporter) (f : Failure) : Aftermath :=
  r.afterwards (r.failureReport f) none

/-- Report a crash under its own name.  It goes on after the report. -/
def reportInternal (r : Reporter) (f : Failure) (crash : Option Crash) : Aftermath :=
  r.afterwards (r.internalReport f) crash

/-- Take in whatever stopped a program.  Failures, interruptions and an
exhausted stack end with the report; other crashes go on after it, and an exit
is not reported at all. -/
def absorb (r : Reporter) : Stop → Aftermath
  | .failure f => r.report f
  | .crash .interrupt => r.report (.ofCause .interrupted)
  | .crash .stackExhausted => r.report (.ofCause .tooDeep)
  | .crash (.exit status) => ⟨"", r, some (.exit status)⟩
  | .crash c => r.reportInternal (.ofCause (.unknown c.name c.message)) (some c)

end Reporter

end EggLanguage
