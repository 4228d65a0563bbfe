/-
# EggLanguage.Main -- the interpreter at a terminal

Everything the program decides is in `CommandLine`.  What is left to do here is
to open files, read lines and write texts.
-/
import EggLanguage.CommandLine.Program

namespace EggLanguage.CommandLine

set_option autoImplicit false

/-- The dialect of the program is the standard one. -/
def setting : Setting :=
  ⟨fun _ => Dialect.standard, .standard⟩

/-- The status that the program ends with. -/
def statusOf : Option Crash → UInt32
  | none => 0
  | some (.exit status) => UInt32.ofNat (status.getD 0).toNat
  | some _ => 1

/-- Write what is to be seen, and give the status. -/
def present (t : Transcript) : IO UInt32 := do
  (← IO.getStdout).putStr t.out
  (← IO.getStderr).putStr t.err
  return statusOf t.crash

/-- The bytes of the files that can be opened. -/
def openAll (paths : List String) : IO (List (String × List UInt8)) :=
  paths.filterMapM fun (path : String) => do
    try
      let bytes ← IO.FS.readBinFile path
      return some (path, bytes.toList)
    catch _ => return none

/-- Answer lines until one stops the loop; the state it leaves and the crash it
ended with. -/
partial def converse (r : Repl) : IO (Option Crash × Repl) := do
  let out ← IO.getStdout
  out.putStr r.prompt.text
  out.flush
  let line ← (← IO.getStdin).getLine
  let ended := line.isEmpty
  let text := if ended then "EOF" else if line.endsWith "\n" then (line.dropEnd 1).toString else line
  let (reply, r) := r.enter text
  (← IO.getStderr).putStr (logText r.workspace)
  let r := { r with workspace := r.workspace.takeLog.2 }
  out.putStr reply.output
  out.flush
  if ended || reply.stops || reply.crash.isSome then return (reply.crash, r)
  converse r

/-- Run the lines that are typed. -/
def interact (w : Workspace) : IO UInt32 := do
  (← IO.getStdout).putStr Repl.greeting
  let (crash, r) ← converse (Repl.new w.resumable)
  match crash with
  | none => return 0
  | some c =>
      let aftermath := r.workspace.reporter.absorb (.crash c)
      present ⟨aftermath.output, "", aftermath.escapes⟩

end EggLanguage.CommandLine

open EggLanguage EggLanguage.CommandLine in
def main (line : List String) : IO UInt32 := do
  match Options.ofLine line with
  | .error ending => present ending.transcript
  | .ok o =>
      let w := workspace setting .coloured o.verbose
      if o.isInteractive then interact w
      else
        let files ← openAll o.files.files
        present (runProgram w (fun path => files.lookup path) o)
