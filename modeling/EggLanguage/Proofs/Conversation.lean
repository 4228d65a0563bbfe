/-
# EggLanguage.Proofs.Conversation -- the loop between two lines

Each line takes one of a few ways through the loop: it is a command, it is kept, it has no
effect, or the text that it completes is evaluated (`Repl.Entered`).  What holds of the loop
between two lines (`Repl.Settled`) is kept in each of these ways, so it holds after lines of
any text, typed in any order (`Repl.settled_afterLines`).
-/
import EggLanguage.Proofs.Histories
import EggLanguage.Proofs.Running
import EggLanguage.Proofs.TypedLines

namespace EggLanguage

set_option autoImplicit false

open EggLanguage.Text

/-! ## Line ends -/

theorem Text.count_outsideStrings_newline {p : Char} (other : p ≠ '\n') (inString : Bool)
    (text : List Char) :
    (outsideStrings inString (text ++ ['\n'])).count p = (outsideStrings inString text).count p := by
  induction text generalizing inString with
  | nil => cases inString <;> simp [outsideStrings, Ne.symm other]
  | cons c text ih =>
      simp only [List.cons_append, outsideStrings]
      split
      · exact ih _
      · split
        · exact ih _
        · simp only [List.count_cons, ih]

theorem Text.count_openString_newline {p : Char} (other : p ≠ '\n') (inString : Bool)
    (text : List Char) :
    (openString inString (text ++ ['\n'])).count p = (openString inString text).count p := by
  induction text generalizing inString with
  | nil => cases inString <;> simp [openString, Ne.symm other]
  | cons c text ih =>
      have quotes : '"' ∉ text ++ ['\n'] ↔ '"' ∉ text := by simp
      simp only [List.cons_append, openString, quotes]
      split
      · exact ih _
      · split
        · simp [List.count_cons, Ne.symm other]
        · exact ih _

/-- A line end neither finishes a text nor makes it unfinished. -/
theorem Repl.isUnfinished_newline (text : String) :
    isUnfinished (text ++ "\n").toList = isUnfinished text.toList := by
  have line : (text ++ "\n").toList = text.toList ++ ['\n'] := by
    rw [String.toList_append]
    rfl
  rw [Bool.eq_iff_iff, isUnfinished_iff, isUnfinished_iff, line, openLists, openLists]
  simp only [count_outsideStrings_newline (show '(' ≠ '\n' by decide),
    count_outsideStrings_newline (show ')' ≠ '\n' by decide),
    count_openString_newline (show '(' ≠ '\n' by decide),
    count_openString_newline (show ')' ≠ '\n' by decide)]

/-- A report changes in the reporter at most which program is running. -/
theorem Reporter.absorb_reporter (r : Reporter) (stop : Stop) :
    ∃ running, (r.absorb stop).reporter = { r with running := running } := by
  have afterwards : ∀ output next, ∃ running,
      (r.afterwards output next).reporter = { r with running := running } := by
    intro output next
    rw [Reporter.afterwards]
    split
    · exact ⟨r.running, rfl⟩
    · exact ⟨none, rfl⟩
  unfold absorb
  split
  · exact afterwards _ _
  · exact afterwards _ _
  · exact afterwards _ _
  · exact ⟨r.running, rfl⟩
  · exact afterwards _ _

/-- What a report on a program that stopped leaves behind: a reporter that is not fatal forgets
the program, and the crash goes on if it is none that the reporter takes in. -/
theorem Reporter.absorb_ordinary {r : Reporter} (lenient : r.fatal = false) {stop : Stop}
    (ordinary : stop.Ordinary) :
    (r.absorb stop).reporter = r.forget ∧
      (r.absorb stop).escapes ∈ [none, some .outOfMemory, some .unfinished] := by
  cases ordinary with
  | failure kind => simp [absorb, report, afterwards, lenient]
  | @limit c limit =>
      have which := Crash.isLimit_iff.1 limit
      simp only [List.mem_cons, List.not_mem_nil, or_false] at which
      rcases which with rfl | rfl | rfl <;>
        simp [absorb, report, reportInternal, afterwards, lenient]

namespace Repl

/-! ## One line -/

/-- The loop with nothing pending. -/
def ready (r : Repl) : Repl :=
  { r with pending := "", prompt := .primary }

/-- A line is taken for a command if it is one of three words and nothing is pending. -/
def IsCommand (r : Repl) (line : String) : Prop :=
  r.pending = "" ∧ String.ofList (trim line.toList) ∈ ["help", "exit", "EOF"]

/-- The line is no command, and with it the text is finished and not blank. -/
structure Completes (r : Repl) (line : String) : Prop where
  ordinary : ¬ r.IsCommand line
  finished : isUnfinished (r.pending ++ line).toList = false
  visible : trim (r.pending ++ line).toList ≠ []

/-- The ways in which a line is answered. -/
inductive Entered (r : Repl) (line : String) : Reply → Repl → Prop where
  | help (idle : r.pending = "") (named : String.ofList (trim line.toList) = "help") :
      Entered r line ⟨Repl.help, false, none⟩ r
  | stop (idle : r.pending = "") {output : String}
      (named : String.ofList (trim line.toList) ∈ ["exit", "EOF"]) :
      Entered r line ⟨output, true, none⟩ r
  | kept (ordinary : ¬ r.IsCommand line)
      (unfinished : isUnfinished (r.pending ++ line).toList = true) :
      Entered r line .silent (r.waiting (r.pending ++ line))
  | blank (ordinary : ¬ r.IsCommand line) : Entered r line .silent r.ready
  | evaluated (completes : r.Completes line) :
      Entered r line (r.ready.evaluate (r.pending ++ line)).1
        (r.ready.evaluate (r.pending ++ line)).2

/-- A line that is no command belongs to a program. -/
theorem enter_of_ordinary {r : Repl} {line : String} (ordinary : ¬ r.IsCommand line) :
    r.enter line = r.accept line := by
  have notCommand : ∀ word ∈ ["help", "exit", "EOF"],
      ¬ (r.pending = "" ∧ String.ofList (trim line.toList) = word) := by
    rintro word command ⟨idle, rfl⟩
    exact ordinary ⟨idle, command⟩
  rw [enter, if_neg (notCommand "help" (by simp)), if_neg (notCommand "exit" (by simp)),
    if_neg (notCommand "EOF" (by simp))]

theorem Completes.enter {r : Repl} {line : String} (completes : r.Completes line) :
    r.enter line = r.ready.evaluate (r.pending ++ line) := by
  have unfinished : ¬ isUnfinished (r.pending ++ line).toList = true := by
    rw [completes.finished]
    decide
  rw [enter_of_ordinary completes.ordinary, accept, if_neg unfinished]
  dsimp only
  rw [if_neg completes.visible]
  rfl

theorem entered (r : Repl) (line : String) : Entered r line (r.enter line).1 (r.enter line).2 := by
  by_cases command : r.IsCommand line
  · obtain ⟨idle, named⟩ := command
    rw [enter]
    simp only [idle, true_and]
    simp only [List.mem_cons, List.not_mem_nil, or_false] at named
    rcases named with help | exit | eof
    · rw [if_pos help]
      exact .help idle help
    · rw [if_neg (by rw [exit]; decide), if_pos exit]
      exact .stop idle (by simp [exit])
    · rw [if_neg (by rw [eof]; decide), if_neg (by rw [eof]; decide), if_pos eof]
      exact .stop idle (by simp [eof])
  · by_cases unfinished : isUnfinished (r.pending ++ line).toList = true
    · rw [enter_of_ordinary command, accept, if_pos unfinished]
      exact .kept command unfinished
    · by_cases blank : trim (r.pending ++ line).toList = []
      · rw [enter_of_ordinary command, accept, if_neg unfinished]
        dsimp only
        rw [if_pos blank]
        exact .blank command
      · have completes : r.Completes line := ⟨command, Bool.not_eq_true _ ▸ unfinished, blank⟩
        rw [completes.enter]
        exact .evaluated completes

/-! ## Evaluation -/

section

variable {r : Repl} {text : String}

/-- An evaluation ends in one of two ways. -/
theorem evaluate_cases (r : Repl) (text : String) :
    (∃ value w, (Workspace.evaluate [text] .lasting none).outcome r.workspace = (.ok value, w) ∧
      r.evaluate text =
        (⟨Workspace.printedText w.store.printed ++ value.display ++ "\n", false, none⟩,
          { r with workspace := w.takePrinted.2 })) ∨
    ∃ stop w, (Workspace.evaluate [text] .lasting none).outcome r.workspace = (.error stop, w) ∧
      r.evaluate text =
        (⟨Workspace.printedText w.store.printed ++ (w.reporter.absorb stop).output, false,
            (w.reporter.absorb stop).escapes⟩,
          { r with
            workspace :=
              { w.takePrinted.2 with reporter := (w.reporter.absorb stop).reporter } }) := by
  cases ended : (Workspace.evaluate [text] .lasting none).outcome r.workspace with
  | mk result w =>
      replace ended : (Workspace.evaluate [text] .lasting none).run.run r.workspace = (result, w) :=
        ended
      rw [evaluate, ended]
      cases result with
      | ok value => exact .inl ⟨value, w, rfl, rfl⟩
      | error stop => exact .inr ⟨stop, w, rfl, rfl⟩

theorem ready_evaluate (r : Repl) (text : String) : ((r.ready.evaluate text).2).IsIdle := by
  obtain ⟨value, w, -, evaluated⟩ | ⟨stop, w, -, evaluated⟩ := evaluate_cases r.ready text
  · rw [evaluated]
    exact ⟨rfl, rfl⟩
  · rw [evaluated]
    exact ⟨rfl, rfl⟩

/-- A program cannot ask to stop the loop. -/
theorem stops_evaluate (r : Repl) (text : String) : (r.evaluate text).1.stops = false := by
  obtain ⟨value, w, -, evaluated⟩ | ⟨stop, w, -, evaluated⟩ := evaluate_cases r text
  · rw [evaluated]
  · rw [evaluated]

theorem sound_evaluate {limits : Limits} (sound : r.workspace.Sound limits) :
    (r.evaluate text).2.workspace.Sound limits := by
  have after := sound.evaluate [text] .lasting none
  obtain ⟨value, w, ended, evaluated⟩ | ⟨stop, w, ended, evaluated⟩ := evaluate_cases r text
  · rw [ended] at after
    rw [evaluated]
    exact ⟨after.setting, after.bodies⟩
  · rw [ended] at after
    rw [evaluated]
    exact ⟨after.setting, after.bodies⟩

theorem reporter_evaluate (r : Repl) (text : String) :
    ∃ running, (r.evaluate text).2.workspace.reporter =
      { r.workspace.reporter with running := running } := by
  have registered := Workspace.evaluate_reporter r.workspace [text] .lasting none
  obtain ⟨value, w, ended, evaluated⟩ | ⟨stop, w, ended, evaluated⟩ := evaluate_cases r text
  · rw [ended] at registered
    rw [evaluated]
    exact ⟨none, registered⟩
  · rw [ended] at registered
    obtain ⟨running, same⟩ := w.reporter.absorb_reporter stop
    rw [evaluated]
    refine ⟨running, same.trans ?_⟩
    rw [registered]
    rfl

/-- If the reporter is not fatal, an evaluation is answered, and the program forgotten. -/
theorem evaluate_answered {limits : Limits} (sound : r.workspace.Sound limits)
    (lenient : r.workspace.reporter.fatal = false) :
    (r.evaluate text).1.crash ∈ [none, some .outOfMemory, some .unfinished] ∧
      (r.evaluate text).2.workspace.reporter = r.workspace.reporter.forget := by
  have registered := Workspace.evaluate_reporter r.workspace [text] .lasting none
  obtain ⟨value, w, ended, evaluated⟩ | ⟨stop, w, ended, evaluated⟩ := evaluate_cases r text
  · rw [ended] at registered
    rw [evaluated]
    exact ⟨List.mem_cons_self, registered⟩
  · rw [ended] at registered
    have ordinary : stop.Ordinary := sound.evaluate_ordinary (congrArg Prod.fst ended)
    have lenient' : w.reporter.fatal = false := by
      rw [registered]
      exact lenient
    obtain ⟨forgotten, escapes⟩ := w.reporter.absorb_ordinary lenient' ordinary
    rw [evaluated]
    refine ⟨escapes, forgotten.trans ?_⟩
    rw [registered]
    rfl

end

/-! ## Between two lines -/

/-- Nothing is pending, or an unfinished text is. -/
inductive Steady (r : Repl) : Prop where
  | idle (idle : r.IsIdle)
  | waiting (nonempty : r.pending ≠ "") (prompt : r.prompt = .continuation)
      (unfinished : isUnfinished r.pending.toList = true)

theorem Steady.isIdle {r : Repl} (steady : r.Steady) (empty : r.pending = "") : r.IsIdle := by
  cases steady with
  | idle idle => exact idle
  | waiting nonempty => exact absurd empty nonempty

theorem steady_waiting (r : Repl) {text : String} (unfinished : isUnfinished text.toList = true) :
    (r.waiting text).Steady := by
  refine .waiting (by simp [waiting]) rfl ?_
  rw [waiting, isUnfinished_newline]
  exact unfinished

/-- After a line the loop is idle, or the line was kept. -/
theorem Steady.enter {r : Repl} (steady : r.Steady) (line : String) :
    (r.enter line).2.IsIdle ∨ isUnfinished (r.pending ++ line).toList = true ∧
      (r.enter line).2 = r.waiting (r.pending ++ line) := by
  have entered := r.entered line
  generalize r.enter line = answer at entered
  obtain ⟨reply, next⟩ := answer
  cases entered with
  | help idle named => exact .inl (steady.isIdle idle)
  | stop idle named => exact .inl (steady.isIdle idle)
  | kept ordinary unfinished => exact .inr ⟨unfinished, rfl⟩
  | blank ordinary => exact .inl ⟨rfl, rfl⟩
  | evaluated completes => exact .inl (ready_evaluate r _)

/-- Of the lines that were typed, those since the loop was last idle are pending, each with its
line end. -/
def PendsSinceIdle (start : Repl) (lines : List String) : Prop :=
  ∃ before since, lines = before ++ since ∧ (start.afterLines before).IsIdle ∧
    (∀ typed rest, since = typed ++ rest → typed ≠ [] →
      ¬ (start.afterLines (before ++ typed)).IsIdle) ∧
    (start.afterLines lines).pending = String.join (since.map (· ++ "\n"))

section

variable {start : Repl} {lines : List String}

theorem pendsSinceIdle_of_isIdle (idle : (start.afterLines lines).IsIdle) :
    PendsSinceIdle start lines := by
  refine ⟨lines, [], (List.append_nil _).symm, idle, fun typed rest split some => ?_, idle.pending⟩
  exact absurd (List.append_eq_nil_iff.1 split.symm).1 some

/-- A line that is kept is one more of those that are pending. -/
theorem PendsSinceIdle.concat (pends : PendsSinceIdle start lines) {line : String}
    (kept : ((start.afterLines lines).enter line).2 =
      (start.afterLines lines).waiting ((start.afterLines lines).pending ++ line)) :
    PendsSinceIdle start (lines ++ [line]) := by
  obtain ⟨before, since, split, idle, busy, pending⟩ := pends
  have waits : (start.afterLines (lines ++ [line])).pending =
      (start.afterLines lines).pending ++ line ++ "\n" := by
    rw [afterLines_concat, kept]
    rfl
  refine ⟨before, since ++ [line], by rw [split, List.append_assoc], idle, ?_, ?_⟩
  · intro typed rest split' some
    cases rest using List.reverseRecOn with
    | nil =>
        rw [List.append_nil] at split'
        rw [← split', ← List.append_assoc, ← split]
        intro idle'
        have nonempty := idle'.pending
        rw [waits] at nonempty
        simp at nonempty
    | append_singleton rest last =>
        rw [← List.append_assoc] at split'
        exact busy typed rest (List.append_inj_left' split' rfl) some
  · rw [waits, pending, List.map_append, String.join_append]
    simp [String.append_assoc]

/-- The loop is steady after lines of any text. -/
theorem steady_afterLines (idle : start.IsIdle) (lines : List String) :
    (start.afterLines lines).Steady ∧ PendsSinceIdle start lines := by
  induction lines using List.reverseRecOn with
  | nil => exact ⟨.idle idle, pendsSinceIdle_of_isIdle idle⟩
  | append_singleton lines line ih =>
      obtain ⟨steady, pends⟩ := ih
      rcases steady.enter line with idle' | ⟨unfinished, kept⟩
      · rw [← afterLines_concat] at idle'
        exact ⟨.idle idle', pendsSinceIdle_of_isIdle idle'⟩
      · refine ⟨?_, pends.concat kept⟩
        rw [afterLines_concat, kept]
        exact steady_waiting _ unfinished

end

/-! ## Conversations -/

theorem stops_enter (r : Repl) (line : String) :
    (r.enter line).1.stops = true ↔
      r.pending = "" ∧ String.ofList (trim line.toList) ∈ ["exit", "EOF"] := by
  have entered := r.entered line
  generalize r.enter line = answer at entered ⊢
  obtain ⟨reply, next⟩ := answer
  have stopping : ¬ r.IsCommand line →
      ¬ (r.pending = "" ∧ String.ofList (trim line.toList) ∈ ["exit", "EOF"]) := by
    rintro ordinary ⟨idle, named⟩
    exact ordinary ⟨idle, List.mem_cons_of_mem _ named⟩
  cases entered with
  | help idle named => simp [named]
  | stop idle named => exact iff_of_true rfl ⟨idle, named⟩
  | kept ordinary unfinished => exact iff_of_false Bool.false_ne_true (stopping ordinary)
  | blank ordinary => exact iff_of_false Bool.false_ne_true (stopping ordinary)
  | evaluated completes =>
      refine iff_of_false ?_ (stopping completes.ordinary)
      rw [stops_evaluate]
      exact Bool.false_ne_true

section

variable {limits : Limits} {r : Repl} (sound : r.workspace.Sound limits)

include sound

/-- A line keeps the workspace sound, and changes in its reporter at most which program is
running. -/
theorem workspace_enter (line : String) :
    (r.enter line).2.workspace.Sound limits ∧ ∃ running,
      (r.enter line).2.workspace.reporter = { r.workspace.reporter with running := running } := by
  have unchanged : ∃ running,
      r.workspace.reporter = { r.workspace.reporter with running := running } := ⟨_, rfl⟩
  have entered := r.entered line
  generalize r.enter line = answer at entered ⊢
  obtain ⟨reply, next⟩ := answer
  cases entered with
  | help idle named => exact ⟨sound, unchanged⟩
  | stop idle named => exact ⟨sound, unchanged⟩
  | kept ordinary unfinished => exact ⟨sound, unchanged⟩
  | blank ordinary => exact ⟨sound, unchanged⟩
  | evaluated completes =>
      exact ⟨sound_evaluate sound, reporter_evaluate r.ready (r.pending ++ line)⟩

theorem workspace_afterLines (lines : List String) :
    (r.afterLines lines).workspace.Sound limits ∧ ∃ running,
      (r.afterLines lines).workspace.reporter =
        { r.workspace.reporter with running := running } := by
  induction lines using List.reverseRecOn with
  | nil => exact ⟨sound, r.workspace.reporter.running, rfl⟩
  | append_singleton lines line ih =>
      obtain ⟨soundBefore, running, before⟩ := ih
      obtain ⟨soundAfter, running', after⟩ := workspace_enter soundBefore line
      rw [afterLines_concat]
      refine ⟨soundAfter, running', after.trans ?_⟩
      rw [before]

/-- A line is answered whatever it holds: a crash goes on only if nothing can be done about it.
And if no program was registered before the line, none is after it. -/
theorem enter_answered (lenient : r.workspace.reporter.fatal = false) (line : String) :
    (r.enter line).1.crash ∈ [none, some .outOfMemory, some .unfinished] ∧
      (r.workspace.reporter.running = none → (r.enter line).2.workspace.reporter.running = none) := by
  have entered := r.entered line
  generalize r.enter line = answer at entered ⊢
  obtain ⟨reply, next⟩ := answer
  cases entered with
  | help idle named => exact ⟨List.mem_cons_self, id⟩
  | stop idle named => exact ⟨List.mem_cons_self, id⟩
  | kept ordinary unfinished => exact ⟨List.mem_cons_self, id⟩
  | blank ordinary => exact ⟨List.mem_cons_self, id⟩
  | evaluated completes =>
      obtain ⟨crash, forgotten⟩ := @evaluate_answered r.ready (r.pending ++ line) limits sound lenient
      refine ⟨crash, fun _ => ?_⟩
      rw [forgotten]
      rfl

theorem unregistered_afterLines (lenient : r.workspace.reporter.fatal = false)
    (unregistered : r.workspace.reporter.running = none) (lines : List String) :
    (r.afterLines lines).workspace.reporter.running = none := by
  induction lines using List.reverseRecOn with
  | nil => exact unregistered
  | append_singleton lines line ih =>
      obtain ⟨soundBefore, running, reporter⟩ := workspace_afterLines sound lines
      have lenientBefore : (r.afterLines lines).workspace.reporter.fatal = false := by
        rw [reporter]
        exact lenient
      rw [afterLines_concat]
      exact (enter_answered soundBefore lenientBefore line).2 ih

end

/-- What holds of the loop after lines were typed, and of its answer to the next one. -/
structure Settled (start : Repl) (lines : List String) : Prop where
  /-- No crash goes on but those of a machine without memory, and of a program that would not
  end. -/
  answers : ∀ line, ((start.afterLines lines).enter line).1.crash ∈
    [none, some .outOfMemory, some .unfinished]
  stops : ∀ line, ((start.afterLines lines).enter line).1.stops = true ↔
    (start.afterLines lines).pending = "" ∧
      String.ofList (trim line.toList) ∈ ["exit", "EOF"]
  unregistered : start.workspace.reporter.running = none →
    (start.afterLines lines).workspace.reporter.running = none
  prompt : (start.afterLines lines).prompt.text =
    if (start.afterLines lines).pending = "" then "> " else ". "
  pends : PendsSinceIdle start lines
  unfinished : (start.afterLines lines).pending ≠ "" →
    isUnfinished (start.afterLines lines).pending.toList = true

/-- **The loop is settled between any two lines.**  Whatever its workspace was used for before,
and whatever was typed. -/
theorem settled_afterLines (limits : Limits) (dialect : DialectId) (emphasis : Emphasis)
    (verbose : Bool) (uses : List Workspace.Use) (lines : List String) :
    let w := (Workspace.new (.standard limits) dialect ⟨false, emphasis, none⟩ verbose).after uses
    Settled (new w) lines := by
  intro w
  have sound : (new w).workspace.Sound limits :=
    (Workspace.Sound.new limits dialect ⟨false, emphasis, none⟩ verbose).after uses
  have lenient : (new w).workspace.reporter.fatal = false := by
    obtain ⟨running, reporter⟩ := Workspace.after_reporter _ uses
    exact congrArg Reporter.fatal reporter
  obtain ⟨soundAfter, running, reporter⟩ := workspace_afterLines sound lines
  have lenientAfter : ((new w).afterLines lines).workspace.reporter.fatal = false := by
    rw [reporter]
    exact lenient
  obtain ⟨steady, pends⟩ := @steady_afterLines (new w) ⟨rfl, rfl⟩ lines
  refine ⟨fun line => (enter_answered soundAfter lenientAfter line).1, stops_enter _,
    fun unregistered => unregistered_afterLines sound lenient unregistered lines, ?_, pends, ?_⟩
  · cases steady with
    | idle idle => rw [idle.prompt, if_pos idle.pending]; rfl
    | waiting nonempty prompt unfinished => rw [prompt, if_neg nonempty]; rfl
  · intro nonempty
    cases steady with
    | idle idle => exact absurd idle.pending nonempty
    | waiting nonempty prompt unfinished => exact unfinished

/-- Between two lines no program is registered, if the workspace was new. -/
theorem unregistered_new (limits : Limits) (dialect : DialectId) (emphasis : Emphasis)
    (verbose : Bool) (lines : List String) :
    let w := Workspace.new (.standard limits) dialect ⟨false, emphasis, none⟩ verbose
    ((new w).afterLines lines).workspace.reporter.running = none :=
  unregistered_afterLines (Workspace.Sound.new limits dialect ⟨false, emphasis, none⟩ verbose) rfl
    rfl lines

end Repl

end EggLanguage
