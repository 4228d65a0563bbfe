/-
# EggLanguage.Proofs.Reports -- failures are reported in the text that was typed

The loop evaluates a text that may call functions of any earlier one.  A failure is reported at
a line and a column of the text all the same, and the line is shown unless the text merely ran
out (`Repl.failure_reported`).  Two facts meet here: failures of a program are placed in its own
text (`Workspace.Sound.placed`), and that text is the one that is registered with the reporter
(`Workspace.evaluate_reporter`).

What the line and the column of an offset are is said in Proofs.Positions (`Location.Marks`).
-/
import EggLanguage.Proofs.Conversation
import EggLanguage.Proofs.Excerpts

namespace EggLanguage

set_option autoImplicit false

open EggLanguage.Text

/-! ## Plain reports -/

/-- A report in plain text: it names the line and the column of an offset in a text, states the
kind and the message of a failure, and shows the line if there is anything at the offset.  The
message may quote several lines of the text. -/
structure ReportedAt (path text : String) (offset : Nat) (f : Failure) (report : String) :
    Prop where
  inText : offset ≤ text.length
  report : ∃ (l : Location) (above below : List Char) (excerpt : String),
    l.Marks text.toList offset above below ∧
      report = s!"{path}:{l.number}:{l.column}: error: {f.cause.kind.name}: {f.cause.message}\n" ++
        excerpt ∧
      (offset < text.length → ∃ tildes, excerpt = Reporter.marked l tildes ++ "\n") ∧
      (offset = text.length → excerpt = "")

namespace Reporter

/-- A failure in the text that is registered is reported there. -/
theorem failureReport_plain {r : Reporter} {path text : String} {f : Failure} {offset : Nat}
    {stop : Option Nat} {source : Source} (running : r.running = some ⟨path, text⟩)
    (plain : r.emphasis = .plain) (place : f.place = ⟨some offset, stop, some source⟩)
    (own : source.text = text) (inText : offset ≤ text.length) :
    ReportedAt path text offset f (r.failureReport f) := by
  have located : r.offset? f.place = some (text.toList, offset) := by
    simp [offset?, running, place, own]
  have length : text.toList.length = text.length := String.length_toList
  obtain ⟨above, below, marks⟩ := Location.ofOffset_marks (show offset ≤ text.toList.length by omega)
  obtain ⟨tildes, shown⟩ : ∃ tildes, excerptOf .plain .red text.toList offset stop =
      marked (Location.ofOffset text.toList offset) tildes := ⟨_, excerptOf_plain _ _ _ _⟩
  refine ⟨inText, Location.ofOffset text.toList offset, above, below, r.excerpt .red f.place, marks,
    ?_, fun within => ⟨tildes, ?_⟩, fun atEnd => ?_⟩
  · have label : ": error: " = ": " ++ "error: " := rfl
    have same : ∀ s : String, toString s = s := fun _ => rfl
    simp only [failureReport, header, running, located, plain, Emphasis.mark_plain, Failure.text, same,
      label, String.append_assoc]
  · simp only [excerpt, located]
    rw [if_pos (by omega), plain, place, shown]
  · simp only [excerpt, located]
    rw [if_neg (by omega)]

theorem output_absorb_failure (r : Reporter) (f : Failure) :
    (r.absorb (.failure f)).output = r.failureReport f := by
  rw [absorb, report, afterwards]
  split <;> rfl

end Reporter

/-! ## The loop -/

namespace Repl

/-- **Failures are reported in the text that was typed.**  Whatever the workspace was used for and
whatever was typed before, a text that fails is reported at a line and a column of its own.  It is
reported behind its last character only if it cannot be read; what fails in its evaluation is
shown. -/
theorem failure_reported {limits : Limits} {dialect : DialectId} {fatal verbose : Bool}
    {uses : List Workspace.Use} {lines : List String} {line : String} {f : Failure} {r : Repl}
    (typed : r = (new ((Workspace.new (.standard limits) dialect ⟨fatal, .plain, none⟩
      verbose).after uses)).afterLines lines)
    (completes : r.Completes line)
    (failed : ((Workspace.evaluate [r.pending ++ line] .lasting none).outcome r.workspace).1 =
      .error (.failure f)) :
    let text := r.pending ++ line
    let source : Source := ⟨r.workspace.store.sources, text⟩
    let printed :=
      ((Workspace.evaluate [text] .lasting none).outcome r.workspace).2.store.printed
    ∃ offset stop report, f.place = ⟨some offset, some stop, some source⟩ ∧
      (r.enter line).1.output = Workspace.printedText printed ++ report ∧
      ReportedAt "<in>" text offset f report ∧
      ∀ e, Expr.parse limits.nesting source = .ok e → offset < text.length := by
  intro text source printed
  obtain ⟨sound, plain⟩ : r.workspace.Sound limits ∧ r.workspace.reporter.emphasis = .plain := by
    have start : (new ((Workspace.new (.standard limits) dialect ⟨fatal, .plain, none⟩
        verbose).after uses)).workspace.Sound limits :=
      (Workspace.Sound.new limits dialect ⟨fatal, .plain, none⟩ verbose).after uses
    obtain ⟨_, before⟩ := Workspace.after_reporter
      (Workspace.new (.standard limits) dialect ⟨fatal, .plain, none⟩ verbose) uses
    obtain ⟨sound, _, after⟩ := workspace_afterLines start lines
    rw [← typed] at sound after
    rw [after]
    exact ⟨sound, congrArg Reporter.emphasis before⟩
  obtain ⟨offset, stop, place, inText, shown⟩ := sound.evaluate_placed failed
  have registered := Workspace.evaluate_reporter r.workspace [text] .lasting none
  obtain ⟨value, w, ended, -⟩ | ⟨e, w, ended, answered⟩ := evaluate_cases r.ready text
  · exact absurd (failed.symm.trans (congrArg Prod.fst ended)) (by simp)
  · replace ended : (Workspace.evaluate [text] .lasting none).outcome r.workspace = (.error e, w) :=
      ended
    obtain rfl : e = .failure f := by
      rw [ended] at failed
      exact Except.error.inj failed
    rw [ended] at registered
    refine ⟨offset, stop, w.reporter.failureReport f, place, ?_, ?_, shown⟩
    · rw [completes.enter, answered, Reporter.output_absorb_failure]
      simp only [printed, ended]
    · refine Reporter.failureReport_plain ?_ ?_ place rfl inText
      · rw [registered]
        rfl
      · rw [registered]
        exact plain

/-- The loop after the definition of a function that looks for an unbound name. -/
def afterDefinition : Repl :=
  fresh.afterLines ["define(f, fun(x, y))"]

/-- What the call of that function fails with. -/
def unbound : Failure :=
  ⟨.undefined "y", ⟨some 0, some 4, some ⟨1, "f(1)"⟩⟩⟩

/-- Whether a program ended with a failure. -/
def failsWith (f : Failure) : Except Stop Value → Bool
  | .error stop => stop = .failure f
  | .ok _ => false

theorem eq_of_failsWith {f : Failure} {result : Except Stop Value} (fails : failsWith f result = true) :
    result = .error (.failure f) := by
  cases result with
  | ok value => cases fails
  | error stop => exact congrArg Except.error (of_decide_eq_true fails)

/-- The name stands on the first line that was typed, and the failure is reported on the
second. -/
theorem failure_reported_call :
    afterDefinition.Completes "f(1)" ∧ ∃ printed report,
      (afterDefinition.enter "f(1)").1.output = Workspace.printedText printed ++ report ∧
      ReportedAt "<in>" "f(1)" 0 unbound report := by
  have completes : afterDefinition.Completes "f(1)" := by
    refine ⟨fun command => ?_, by decide +kernel, by decide +kernel⟩
    exact absurd command.2 (by decide +kernel)
  have failed : ((Workspace.evaluate [afterDefinition.pending ++ "f(1)"] .lasting none).outcome
      afterDefinition.workspace).1 = .error (.failure unbound) :=
    eq_of_failsWith (by decide +kernel)
  obtain ⟨offset, stop, report, place, output, reported, -⟩ :=
    @failure_reported .standard 0 false false [] ["define(f, fun(x, y))"] "f(1)" unbound
      afterDefinition rfl completes failed
  obtain rfl : 0 = offset := Option.some.inj (congrArg Place.start place)
  have text : afterDefinition.pending ++ "f(1)" = "f(1)" := by decide +kernel
  rw [text] at reported
  exact ⟨completes, _, report, output, reported⟩

example : (afterDefinition.enter "f(1)").1.output =
    "<in>:1:1: error: ReferenceError: Undefined variable: y\n  f(1)\n  ^~~~\n" := by
  decide +kernel

end Repl

end EggLanguage
