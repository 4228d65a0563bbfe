/-
# EggLanguage.Proofs.TypedLines -- programs typed line by line

The loop keeps a line while the text so far is unfinished, and evaluates the text with the
first line that finishes it.  So typing the lines of a program evaluates it once, with its
last line, exactly if the text is unfinished after every other line
(`Repl.evaluatesOnce_iff_unfinished`).

Such a line may end within a string.  The parentheses of that string count, although they
are no tokens: where they close more than is open, the loop evaluates a text that is not
all there (`Repl.not_evaluatesOnce_closingString`).  `Repl.evaluatesOnce_iff` says where
this happens.
-/
import Mathlib.Data.List.Basic
import Mathlib.Data.List.Induction
import EggLanguage.Proofs.Unfinished

namespace EggLanguage

set_option autoImplicit false

open EggLanguage.Text

/-- Trimming takes no character that is not blank. -/
theorem Text.mem_trim {text : List Char} {c : Char} (member : c ∈ text)
    (visible : isBlank c = false) : c ∈ trim text := by
  have kept : ∀ {text : List Char}, c ∈ text → c ∈ text.dropWhile isBlank := by
    intro text member
    rw [← List.takeWhile_append_dropWhile (p := isBlank) (l := text)] at member
    rcases List.mem_append.1 member with blank | rest
    · rw [List.all_eq_true.1 List.all_takeWhile c blank] at visible
      cases visible
    · exact rest
  simpa [trim] using kept (List.mem_reverse.2 (kept member))

namespace Workspace

/-- One more fragment is one more line. -/
theorem join_concat {fragments : List String} (given : fragments ≠ []) (fragment : String) :
    join (fragments ++ [fragment]) = join fragments ++ "\n" ++ fragment := by
  rw [join, String.intercalate_append_of_ne_nil given (by simp), String.intercalate_singleton]
  rfl

end Workspace

/-- The reply to a line that has no effect. -/
def Reply.silent : Reply :=
  ⟨"", false, none⟩

namespace Repl

/-! ## One line -/

/-- The loop with a text that waits for its next line. -/
def waiting (r : Repl) (text : String) : Repl :=
  { r with pending := text ++ "\n", prompt := .continuation }

/-- Nothing is pending. -/
structure IsIdle (r : Repl) : Prop where
  pending : r.pending = ""
  prompt : r.prompt = .primary

theorem IsIdle.eq {r : Repl} (idle : r.IsIdle) :
    { r with pending := "", prompt := .primary } = r := by
  obtain ⟨workspace, pending, prompt⟩ := r
  obtain ⟨rfl, rfl⟩ := idle
  rfl

theorem withoutStrings_subset (text : List Char) : withoutStrings text ⊆ text := by
  fun_induction withoutStrings text with
  | case1 => exact List.Subset.refl _
  | case2 rest token after found ih =>
      have spelled := Token.readString?_spelling found
      rw [spelled]
      exact List.Subset.trans ih (List.subset_append_right _ _)
  | case3 rest absent => exact List.Subset.refl _
  | case4 c rest ordinary ih => exact List.cons_subset_cons c ih

/-- A text that is unfinished holds a parenthesis. -/
theorem mem_of_isUnfinished {text : List Char} (unfinished : isUnfinished text = true) :
    '(' ∈ text := by
  simp only [isUnfinished, decide_eq_true_eq] at unfinished
  exact withoutStrings_subset text (List.count_pos_iff.1 (Nat.zero_lt_of_lt unfinished))

/-- No command holds a parenthesis. -/
theorem enter_eq_accept {r : Repl} {line : String} (ordinary : r.pending ≠ "" ∨ '(' ∈ line.toList) :
    r.enter line = r.accept line := by
  have notCommand : ∀ word : String, '(' ∉ word.toList →
      ¬ (r.pending = "" ∧ String.ofList (trim line.toList) = word) := by
    rintro word plain ⟨idle, rfl⟩
    rcases ordinary with busy | opens
    · exact busy idle
    · rw [String.toList_ofList] at plain
      exact plain (mem_trim opens (by decide))
  rw [enter, if_neg (notCommand "help" (by decide)), if_neg (notCommand "exit" (by decide)),
    if_neg (notCommand "EOF" (by decide))]

/-- A line that leaves the text unfinished is kept. -/
theorem enter_of_unfinished {r : Repl} {line : String}
    (unfinished : isUnfinished (r.pending ++ line).toList = true) :
    r.enter line = (.silent, r.waiting (r.pending ++ line)) := by
  have ordinary : r.pending ≠ "" ∨ '(' ∈ line.toList := by
    by_cases idle : r.pending = ""
    · rw [idle, String.empty_append] at unfinished
      exact .inr (mem_of_isUnfinished unfinished)
    · exact .inl idle
  rw [enter_eq_accept ordinary, accept, if_pos unfinished]
  rfl

/-- A line that finishes a text with a parenthesis has the text evaluated. -/
theorem accept_of_finished {r : Repl} {line : String}
    (finished : isUnfinished (r.pending ++ line).toList = false)
    (opens : '(' ∈ (r.pending ++ line).toList) :
    r.accept line = { r with pending := "", prompt := .primary }.evaluate (r.pending ++ line) := by
  have visible : trim (r.pending ++ line).toList ≠ [] :=
    List.ne_nil_of_mem (mem_trim opens (by decide))
  rw [accept, if_neg (by rw [finished]; decide)]
  dsimp only
  rw [if_neg visible]

theorem pending_evaluate (r : Repl) (text : String) : (r.evaluate text).2.pending = r.pending := by
  rw [evaluate]
  dsimp only
  split
  split <;> rfl

/-- After a line that finishes the text nothing is pending. -/
theorem pending_enter {r : Repl} {line : String}
    (finished : isUnfinished (r.pending ++ line).toList = false) :
    (r.enter line).2.pending = "" := by
  have accepted : (r.accept line).2.pending = "" := by
    rw [accept, if_neg (by rw [finished]; decide)]
    dsimp only
    split
    · rfl
    · rw [pending_evaluate]
  have command : ∀ word : String, r.pending = "" ∧ String.ofList (trim line.toList) = word →
      ∀ reply : Reply, (reply, r).2.pending = "" := fun _ named _ => named.1
  rw [enter]
  split
  · exact command _ ‹_› _
  · split
    · exact command _ ‹_› _
    · split
      · exact command _ ‹_› _
      · exact accepted

/-! ## All lines of a text -/

/-- The loop after lines were typed one after another. -/
def afterLines (r : Repl) (lines : List String) : Repl :=
  lines.foldl (fun r line => (r.enter line).2) r

theorem afterLines_concat (r : Repl) (lines : List String) (line : String) :
    r.afterLines (lines ++ [line]) = ((r.afterLines lines).enter line).2 := by
  simp [afterLines]

/-- Of lines typed one after another, all but the last have no effect but to be kept, and
with the last one the text that they make up is evaluated. -/
structure EvaluatesOnce (r : Repl) (lines : List String) : Prop where
  kept : ∀ typed line rest, lines = typed ++ line :: rest → rest ≠ [] →
    (r.afterLines typed).enter line = (.silent, r.waiting (Workspace.join (typed ++ [line])))
  evaluated : ∀ typed last, lines = typed ++ [last] →
    (r.afterLines typed).enter last = r.evaluate (Workspace.join lines)

/-- A property holds of the text after every line but the last. -/
def BeforeLast (P : List Char → Prop) (lines : List String) : Prop :=
  ∀ typed rest, lines = typed ++ rest → typed ≠ [] → rest ≠ [] → P (Workspace.join typed).toList

/-- Lines of which the first leaves the text unfinished hold a parenthesis. -/
theorem opens_of_unfinished {lines : List String} (several : 2 ≤ lines.length)
    (unfinished : BeforeLast (isUnfinished · = true) lines) :
    '(' ∈ (Workspace.join lines).toList := by
  obtain rfl | ⟨typed, last, rfl⟩ := List.eq_nil_or_concat' lines
  · exact absurd several (by decide)
  · have some : typed ≠ [] := by
      rintro rfl
      simp at several
    have inside := mem_of_isUnfinished (unfinished typed [last] rfl some (by simp))
    rw [Workspace.join_concat some, String.toList_append, String.toList_append]
    exact List.mem_append_left _ (List.mem_append_left _ inside)

/-- The text after one more line. -/
theorem pending_append {r : Repl} (idle : r.IsIdle) {typed : List String}
    (waits : typed ≠ [] → r.afterLines typed = r.waiting (Workspace.join typed)) (line : String) :
    (r.afterLines typed).pending ++ line = Workspace.join (typed ++ [line]) := by
  by_cases first : typed = []
  · subst first
    rw [afterLines, List.foldl_nil, idle.pending]
    simp [Workspace.join]
  · rw [waits first, Workspace.join_concat first]
    rfl

/-- While it keeps lines, the loop changes in nothing else. -/
theorem waiting_afterLines {r : Repl} {typed : List String}
    (waits : typed ≠ [] → r.afterLines typed = r.waiting (Workspace.join typed)) (text : String) :
    (r.afterLines typed).waiting text = r.waiting text := by
  by_cases first : typed = []
  · subst first
    rfl
  · rw [waits first]
    rfl

/-- A further line is kept while the text is unfinished. -/
theorem enter_next {r : Repl} (idle : r.IsIdle) {typed : List String}
    (waits : typed ≠ [] → r.afterLines typed = r.waiting (Workspace.join typed)) {line : String}
    (unfinished : isUnfinished (Workspace.join (typed ++ [line])).toList = true) :
    (r.afterLines typed).enter line =
      (.silent, r.waiting (Workspace.join (typed ++ [line]))) := by
  rw [← pending_append idle waits line] at unfinished ⊢
  rw [enter_of_unfinished unfinished, waiting_afterLines waits]

/-- The text waits as long as it is unfinished after every line. -/
theorem afterLines_eq_waiting {r : Repl} (idle : r.IsIdle) {lines : List String}
    (unfinished : BeforeLast (isUnfinished · = true) lines) {typed rest : List String}
    (split : lines = typed ++ rest) (more : rest ≠ []) (some : typed ≠ []) :
    r.afterLines typed = r.waiting (Workspace.join typed) := by
  induction typed using List.reverseRecOn generalizing rest with
  | nil => exact absurd rfl some
  | append_singleton typed line ih =>
      have split' : lines = typed ++ line :: rest := by simpa using split
      have waits := ih split' (by simp)
      rw [afterLines_concat, enter_next idle waits (unfinished _ rest split some more)]

theorem EvaluatesOnce.afterLines {r : Repl} {lines : List String} (once : r.EvaluatesOnce lines)
    {typed rest : List String} (split : lines = typed ++ rest) (more : rest ≠ [])
    (some : typed ≠ []) :
    r.afterLines typed = r.waiting (Workspace.join typed) := by
  obtain ⟨before, line, rfl⟩ := (List.eq_nil_or_concat' typed).resolve_left some
  rw [afterLines_concat, once.kept before line rest (by simpa using split) more]

/-- The lines of a program evaluate it once exactly if the text is unfinished after every
line but the last. -/
theorem evaluatesOnce_iff_unfinished {r : Repl} (idle : r.IsIdle) {lines : List String}
    (several : 2 ≤ lines.length)
    (finished : isUnfinished (Workspace.join lines).toList = false) :
    r.EvaluatesOnce lines ↔ BeforeLast (isUnfinished · = true) lines := by
  constructor
  · intro once typed rest split some more
    obtain ⟨before, line, rfl⟩ := (List.eq_nil_or_concat' typed).resolve_left some
    have split' : lines = before ++ line :: rest := by simpa using split
    by_contra complete
    rw [← pending_append idle (once.afterLines split' (by simp)) line, Bool.not_eq_true] at complete
    -- Nothing would be pending, but the line was kept.
    have empty := pending_enter complete
    rw [once.kept before line rest split' more] at empty
    simp [waiting] at empty
  · intro unfinished
    refine ⟨fun typed line rest split more => ?_, fun typed last split => ?_⟩
    · have waits := afterLines_eq_waiting idle unfinished split (by simp)
      exact enter_next idle waits (unfinished _ rest (by simpa using split) (by simp) more)
    · have some : typed ≠ [] := by
        rintro rfl
        rw [split] at several
        simp at several
      have waits := afterLines_eq_waiting idle unfinished split (by simp) some
      have whole : (r.waiting (Workspace.join typed)).pending ++ last = Workspace.join lines := by
        rw [split, ← pending_append idle (fun _ => waits), waits]
      have opens := opens_of_unfinished several unfinished
      rw [← whole] at finished opens
      rw [waits, enter_eq_accept (.inl (by simp [waiting])), accept_of_finished finished opens, whole]
      exact congrArg (Repl.evaluate · _) idle.eq

/-! ## Strings that go on over a line end -/

/-- **A program typed line by line.**  Its lines evaluate it once, with the last of them,
exactly if after every other line the parentheses closed in the string that the text breaks
off in are outnumbered by the open lists of arguments and the parentheses opened in that
string.  So they do where a list of arguments is open at each line end, and no string that
goes on over a line end has a closing parenthesis before it. -/
theorem evaluatesOnce_iff {r : Repl} (idle : r.IsIdle) {lines : List String}
    (several : 2 ≤ lines.length) {n identity : Nat} {e : Expr}
    (parsed : Expr.parse n ⟨identity, Workspace.join lines⟩ = .ok e) :
    (r.EvaluatesOnce lines ↔ BeforeLast
      (fun text => ((openString false text).count ')' : Int) <
        openLists text + (openString false text).count '(') lines) ∧
    (BeforeLast (fun text => 0 < openLists text ∧ ')' ∉ openString false text) lines →
      r.EvaluatesOnce lines) := by
  have finished := Expr.finished_of_parse parsed
  have once := evaluatesOnce_iff_unfinished idle several finished
  simp only [isUnfinished_iff] at once
  refine ⟨once, fun listOpen => once.2 fun typed rest split some more => ?_⟩
  obtain ⟨lists, noParenthesis⟩ := listOpen typed rest split some more
  rw [List.count_eq_zero.2 noParenthesis]
  omega

/-- A loop that nothing was typed into. -/
def fresh : Repl :=
  new (Workspace.new ⟨fun _ => Dialect.standard, .standard⟩ 0 ⟨false, .plain, none⟩ false)

theorem fresh_isIdle : fresh.IsIdle :=
  ⟨rfl, rfl⟩

theorem exists_of_isOk {n : Nat} {source : Source} (read : (Expr.parse n source).isOk = true) :
    ∃ e, Expr.parse n source = .ok e := by
  cases parsed : Expr.parse n source with
  | ok e => exact ⟨e, rfl⟩
  | error stop =>
      rw [parsed] at read
      cases read

/-- The lines before the last are the first ones, in any number short of all. -/
theorem beforeLast_iff {P : List Char → Prop} {lines : List String} :
    BeforeLast P lines ↔
      ∀ count < lines.length, 0 < count → P (Workspace.join (lines.take count)).toList := by
  constructor
  · intro holds count short positive
    refine holds _ (lines.drop count) (List.take_append_drop count lines).symm ?_ ?_
    · exact List.ne_nil_of_length_pos (by rw [List.length_take]; omega)
    · exact List.ne_nil_of_length_pos (by rw [List.length_drop]; omega)
  · rintro holds typed rest rfl some more
    have short : typed.length < (typed ++ rest).length := by
      rw [List.length_append]
      exact Nat.lt_add_of_pos_right (List.length_pos_iff.2 more)
    have holds' := holds typed.length short (List.length_pos_iff.2 some)
    rwa [List.take_left] at holds'

/-- One list of arguments is closed in the string, and two are open. -/
theorem evaluatesOnce_nestedString :
    (∃ e, Expr.parse 3 ⟨0, Workspace.join ["do(print(\")", "\"))"]⟩ = .ok e) ∧
      fresh.EvaluatesOnce ["do(print(\")", "\"))"] := by
  obtain ⟨e, parsed⟩ := exists_of_isOk
    (show (Expr.parse 3 ⟨0, Workspace.join ["do(print(\")", "\"))"]⟩).isOk = true by decide +kernel)
  exact ⟨⟨e, parsed⟩, (evaluatesOnce_iff fresh_isIdle (by decide) parsed).1.2
    (beforeLast_iff.2 (by decide +kernel))⟩

/-- The first line of this program leaves a list of arguments open, and the loop evaluates
it all the same: the parenthesis in the string counts. -/
theorem not_evaluatesOnce_closingString :
    (∃ e, Expr.parse 2 ⟨0, Workspace.join ["print(\")", "\")"]⟩ = .ok e) ∧
      BeforeLast (0 < openLists ·) ["print(\")", "\")"] ∧
      ¬ fresh.EvaluatesOnce ["print(\")", "\")"] := by
  obtain ⟨e, parsed⟩ := exists_of_isOk
    (show (Expr.parse 2 ⟨0, Workspace.join ["print(\")", "\")"]⟩).isOk = true by decide +kernel)
  have finished := Expr.finished_of_parse parsed
  refine ⟨⟨e, parsed⟩, beforeLast_iff.2 (by decide +kernel), fun once => ?_⟩
  have unfinished := (evaluatesOnce_iff_unfinished fresh_isIdle (by decide) finished).1 once
  exact absurd (beforeLast_iff.1 unfinished) (by decide +kernel)

end Repl

end EggLanguage
