/-
# EggLanguage.Proofs.SourceFiles -- what comes of a file

A file that cannot be opened is an error of the program.  Bytes in UTF-8 are its text.  All other
bytes are neither: reading them ends in a crash, which the command line reports as an internal
error (`Files.read_cases`).
-/
import EggLanguage.CommandLine.Program
import EggLanguage.Proofs.Decoding
import EggLanguage.Proofs.Programs

namespace EggLanguage

set_option autoImplicit false

namespace CommandLine

/-- The command line has a file read: it names the file, and all files before it can be read. -/
def Reads (files : Files) (line : List String) (path : String) : Prop :=
  ∃ o before after, Options.ofLine line = .ok o ∧ o.files.files = before ++ path :: after ∧
    ∀ earlier ∈ before, ∃ text, files.read earlier = .ok text

/-- Reading ends with the first file that cannot be read. -/
theorem readAll_append {files : Files} {path : String} {stop : Stop}
    (unread : files.read path = .error stop) (after : List String) :
    ∀ before : List String, (∀ earlier ∈ before, ∃ text, files.read earlier = .ok text) →
      readAll files (before ++ path :: after) = .error stop := by
  intro before
  induction before with
  | nil =>
      intro _
      simp only [List.nil_append, readAll, unread]
  | cons first before ih =>
      intro read
      obtain ⟨text, given⟩ := read first List.mem_cons_self
      have rest := ih fun earlier mem => read earlier (List.mem_cons_of_mem _ mem)
      simp only [List.cons_append, readAll, given, rest]
      rfl

/-- What stops the reading of a file is what the program reports, and nothing else. -/
theorem Reads.run_eq {files : Files} {line : List String} {path : String} {stop : Stop}
    (reads : Reads files line path) (unread : files.read path = .error stop) (setting : Setting)
    (emphasis : Emphasis) (input : String) :
    run setting emphasis files line input =
      ⟨((Reporter.mk true emphasis none).absorb stop).output, "",
        ((Reporter.mk true emphasis none).absorb stop).escapes⟩ := by
  obtain ⟨o, before, after, parsed, named, read⟩ := reads
  have unattended : o.isInteractive = false := by
    simp [Options.isInteractive, named]
  have failed : readAll files o.files.files = .error stop := by
    rw [named]
    exact readAll_append unread after before read
  have ended (w : Workspace) : (resultOf files o).run.run w = (.error stop, w) := by
    have first : Work.outcome (ExceptT.mk (pure (readAll files o.files.files))) w =
        (.error stop, w) := by
      rw [failed]
      rfl
    show (resultOf files o).outcome w = _
    rw [resultOf, Work.outcome_bind, first]
  -- Nothing has been printed or logged so far.
  have silent : Workspace.printedText (workspace setting emphasis o.verbose).takePrinted.1 = "" :=
    rfl
  have unlogged : logText (workspace setting emphasis o.verbose).takePrinted.2 = "" := rfl
  simp only [run, parsed, unattended, runProgram, ended, silent, unlogged, String.empty_append,
    Bool.false_eq_true, if_false]
  rfl

/-- The report on a file that cannot be opened. -/
theorem Reads.run_of_unreadable {files : Files} {line : List String} {path : String}
    (reads : Reads files line path)
    (unread : files.read path = .error (.ofCause (.unreadable path)))
    (setting : Setting) (emphasis : Emphasis) (input : String) :
    run setting emphasis files line input =
      ⟨emphasis.mark (some .red) "error: " ++ ("IOError: " ++ s!"'{path}' could not be opened") ++
        "\n", "", some (.exit (some 1))⟩ := by
  have report : ((Reporter.mk true emphasis none).failureReport (.ofCause (.unreadable path))) =
      emphasis.mark (some .red) "error: " ++ (Failure.ofCause (.unreadable path)).text ++ "\n" := by
    simp only [Reporter.failureReport, Reporter.header, Reporter.excerpt, Reporter.offset?,
      String.empty_append, String.append_empty]
  rw [reads.run_eq unread]
  show (⟨Reporter.failureReport _ _, _, _⟩ : Transcript) = _
  rw [report]
  rfl

/-- The report on a file that holds no text. -/
theorem Reads.run_of_undecodable {files : Files} {line : List String} {path detail : String}
    (reads : Reads files line path)
    (unread : files.read path = .error (.crash (.undecodable detail)))
    (setting : Setting) (emphasis : Emphasis) (input : String) :
    run setting emphasis files line input =
      ⟨emphasis.mark (some .red) "[internal] " ++ emphasis.mark (some .red) "error: " ++
        ("Error: " ++ s!"unknown error: 'UnicodeDecodeError: {detail}'") ++ "\n", "",
        some (.exit (some 1))⟩ := by
  have report (f : Failure) : (Reporter.mk true emphasis none).internalReport f =
      emphasis.mark (some .red) "[internal] " ++ emphasis.mark (some .red) "error: " ++ f.text ++
        "\n" := by
    simp only [Reporter.internalReport, Reporter.header, String.empty_append]
  rw [reads.run_eq unread]
  show (⟨Reporter.internalReport _ _, _, _⟩ : Transcript) = _
  rw [report]
  rfl

end CommandLine

namespace Files

variable {files : Files} {path : String} (pathlike : '\x00' ∉ path.toList)

include pathlike

theorem read_of_none (absent : files path = none) :
    files.read path = .error (.ofCause (.unreadable path)) := by
  simp [read, pathlike, absent]

theorem read_of_text {text : List Char}
    (holds : files path = some (text.flatMap String.utf8EncodeChar)) :
    files.read path = .ok (String.ofList (Text.unifyNewlines text)) := by
  have decoded := Text.Utf8.decode_eq_ok_iff.2 (Eq.refl (text.flatMap String.utf8EncodeChar))
  simp [read, pathlike, holds, decoded]

theorem read_of_other {bytes : List UInt8} (holds : files path = some bytes)
    (other : ∀ text : List Char, bytes ≠ text.flatMap String.utf8EncodeChar) :
    ∃ detail, files.read path = .error (.crash (.undecodable detail)) := by
  cases decoded : Text.Utf8.decode bytes with
  | ok text => exact absurd (Text.Utf8.decode_eq_ok_iff.1 decoded) (other text)
  | error fault => exact ⟨fault.message, by simp [read, pathlike, holds, decoded]⟩

/-- **What comes of a file.**  The bytes of a text in UTF-8 are read as the text, with the ends of
its lines unified.  A file that cannot be opened is an error of the program, and reported as one.
Reading any other file ends in a crash, and the report calls it an internal error. -/
theorem read_cases :
    (∃ text : List Char, files path = some (text.flatMap String.utf8EncodeChar) ∧
      files.read path = .ok (String.ofList (Text.unifyNewlines text))) ∨
    (files path = none ∧ files.read path = .error (.ofCause (.unreadable path)) ∧
      (Cause.unreadable path).kind = .file ∧
      ∀ setting emphasis line input, CommandLine.Reads files line path →
        CommandLine.run setting emphasis files line input =
          ⟨emphasis.mark (some .red) "error: " ++
            ("IOError: " ++ s!"'{path}' could not be opened") ++ "\n", "",
            some (.exit (some 1))⟩) ∨
    (∃ bytes detail, files path = some bytes ∧
      (∀ text : List Char, bytes ≠ text.flatMap String.utf8EncodeChar) ∧
      files.read path = .error (.crash (.undecodable detail)) ∧
      ∀ setting emphasis line input, CommandLine.Reads files line path →
        CommandLine.run setting emphasis files line input =
          ⟨emphasis.mark (some .red) "[internal] " ++ emphasis.mark (some .red) "error: " ++
            ("Error: " ++ s!"unknown error: 'UnicodeDecodeError: {detail}'") ++ "\n", "",
            some (.exit (some 1))⟩) := by
  cases held : files path with
  | none =>
      have unread := read_of_none pathlike held
      refine .inr (.inl ⟨rfl, unread, rfl, ?_⟩)
      intro setting emphasis line input reads
      exact reads.run_of_unreadable unread setting emphasis input
  | some bytes =>
      by_cases encoded : ∃ text : List Char, bytes = text.flatMap String.utf8EncodeChar
      · obtain ⟨text, rfl⟩ := encoded
        exact .inl ⟨text, rfl, read_of_text pathlike held⟩
      · have other : ∀ text : List Char, bytes ≠ text.flatMap String.utf8EncodeChar :=
          fun text same => encoded ⟨text, same⟩
        obtain ⟨detail, unread⟩ := read_of_other pathlike held other
        refine .inr (.inr ⟨bytes, detail, rfl, other, unread, ?_⟩)
        intro setting emphasis line input reads
        exact reads.run_of_undecodable unread setting emphasis input

end Files

/-- Files with a byte that is in no text. -/
def Files.stray : Files :=
  fun _ => some [0x31, 0xFF]

/-- A file with a stray byte is reported as an internal error. -/
theorem Files.read_cases_stray :
    '\x00' ∉ "a.egg".toList ∧ ∃ detail,
      stray.read "a.egg" = .error (.crash (.undecodable detail)) ∧
      CommandLine.run ⟨fun _ => .standard, .standard⟩ .plain stray ["a.egg"] "" =
        ⟨"[internal] " ++ "error: " ++
          ("Error: " ++ s!"unknown error: 'UnicodeDecodeError: {detail}'") ++ "\n", "",
          some (.exit (some 1))⟩ := by
  have pathlike : '\x00' ∉ "a.egg".toList := by decide
  have reads : CommandLine.Reads stray ["a.egg"] "a.egg" := ⟨_, [], [], rfl, rfl, nofun⟩
  refine ⟨pathlike, ?_⟩
  obtain ⟨text, holds, -⟩ | ⟨absent, -⟩ | ⟨bytes, detail, -, -, unread, report⟩ :=
    @Files.read_cases stray "a.egg" pathlike
  · have decoded := Text.Utf8.decode_eq_ok_iff.2 (Option.some.inj holds)
    have fault : Text.Utf8.decode [0x31, 0xFF] = .error ⟨0xFF, 1, 1, .invalidStart⟩ := rfl
    rw [fault] at decoded
    cases decoded
  · cases absent
  · exact ⟨detail, unread, report _ _ _ _ reads⟩

/-- With a stray byte, reading a file gives neither a text nor an error of the program. -/
theorem Files.read_neither : ¬ ∀ (files : Files) (path : String), '\x00' ∉ path.toList →
    (∃ text, files.read path = .ok text) ∨
      ∃ f : Failure, files.read path = .error (.failure f) ∧ f.cause.kind = .file := by
  intro total
  have crash : ∃ detail, stray.read "a.egg" = .error (.crash (.undecodable detail)) := ⟨_, rfl⟩
  obtain ⟨detail, crash⟩ := crash
  rcases total stray "a.egg" (by decide) with ⟨text, read⟩ | ⟨f, read, -⟩
  · rw [crash] at read
    cases read
  · rw [crash] at read
    cases read

end EggLanguage
