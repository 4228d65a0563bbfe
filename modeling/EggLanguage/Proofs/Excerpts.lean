/-
# EggLanguage.Proofs.Excerpts -- the offending part of a line

A report shows the line in which a failure lies and underlines the offending part of it.  The part
starts where the failure does and ends with it, but no later than the line does; and something is
underlined in any case, also behind the last character of a line and where the part is empty or
reversed (`Reporter.excerptOf_underlines`).

Of the way in which texts stand out nothing is assumed but that it leaves them as they are, between
what opens and what closes a colour (`Emphasis.Wraps`).

Offsets of a text and columns of one of its lines meet here: `Location.Marks.slice` is the one
place where the two ways of counting are compared.
-/
import EggLanguage.Proofs.Positions
import EggLanguage.Reporter

namespace EggLanguage

set_option autoImplicit false

open EggLanguage.Text (Location)

namespace Text.Location

/-- A stretch of a line is a stretch of the text, further on by what stands above the line. -/
theorem Marks.slice {text above below : List Char} {offset : Nat} {l : Location}
    (marks : Marks text offset l above below) (first : Nat) {last : Nat}
    (inLine : last ≤ l.line.length) :
    (text.take (above.length + last)).drop (above.length + first) =
      (l.line.take last).drop first := by
  rw [marks.spelled, List.append_assoc, List.take_length_add_append, List.drop_length_add_append,
    List.take_append_of_le_length inLine]

end Text.Location

namespace Reporter

/-! ## Plain excerpts -/

/-- A line, and below it a caret under one of its columns, followed by so many tildes. -/
def marked (l : Location) (tildes : Nat) : String :=
  "  " ++ String.ofList l.line ++ "\n" ++
    "  " ++ String.ofList (List.replicate (l.column - 1) ' ') ++ "^" ++
    String.ofList (List.replicate tildes '~')

/-- The column behind the last one that is marked, counted from zero: the line bounds it. -/
def lastMarked (l : Location) (start : Nat) (stop : Option Nat) : Nat :=
  min (max (l.column - 1 + stop.getD (start + 1) - start) (l.column - 1 + 1)) l.line.length

/-- A list up to one place, on to a later one, and from there. -/
theorem take_drop_drop {α : Type} (line : List α) {first last wanted : Nat} (le : first ≤ wanted)
    (bounded : last = min wanted line.length) :
    line.take first ++ (line.take last).drop first ++ line.drop last = line := by
  have start : line.take first = (line.take last).take first := by
    rw [List.take_take, List.take_eq_take_iff]
    omega
  rw [start, List.take_append_drop, List.take_append_drop]

/-- A line whose marked part is not set off shows the whole line. -/
theorem take_lastMarked (l : Location) (start : Nat) (stop : Option Nat) :
    l.line.take (l.column - 1) ++ (l.line.take (lastMarked l start stop)).drop (l.column - 1) ++
      l.line.drop (lastMarked l start stop) = l.line := by
  refine take_drop_drop l.line ?_ rfl
  omega

/-- An excerpt shows the whole line. -/
theorem excerptOf_plain (colour : Colour) (text : List Char) (start : Nat) (stop : Option Nat) :
    excerptOf .plain colour text start stop =
      marked (Location.ofOffset text start)
        (lastMarked (Location.ofOffset text start) start stop -
          ((Location.ofOffset text start).column - 1) - 1) := by
  have shown := congrArg String.ofList (take_lastMarked (Location.ofOffset text start) start stop)
  rw [String.ofList_append, String.ofList_append] at shown
  have marker : ∀ tildes, String.ofList ('^' :: tildes) = "^" ++ String.ofList tildes := by
    intro tildes
    rw [← List.singleton_append, String.ofList_append]
  rw [marked, ← shown]
  simp only [excerptOf, Emphasis.mark_plain, lastMarked, marker, String.append_assoc]

theorem count_newline_marked {l : Location} (oneLine : '\n' ∉ l.line) (tildes : Nat) :
    (marked l tildes).toList.count '\n' = 1 := by
  have lead : "  ".toList = [' ', ' '] := rfl
  have newline : "\n".toList = ['\n'] := rfl
  have caret : "^".toList = ['^'] := rfl
  simp [marked, lead, newline, caret, List.count_replicate, List.count_eq_zero.2 oneLine]

/-! ## What is underlined -/

/-- The part of a text that an excerpt underlines, and the line that shows it, between what stands
above and below. -/
structure Underlines (text : List Char) (start : Nat) (stop : Option Nat) (l : Location)
    (above below : List Char) (width : Nat) (shown rest : List Char) : Prop where
  marks : l.Marks text start above below
  /-- As far as the failure goes, and no further than the line, but one column at least. -/
  wide : (width : Int) = max 1 (min ((stop.getD (start + 1) : Int) - start)
    ((above.length + l.line.length : Int) - start))
  cut : shown = (text.take (min (start + width) (above.length + l.line.length))).drop start
  whole : l.line = l.line.take (l.column - 1) ++ shown ++ rest

/-- The width of what is underlined, told by offsets of the text, leads to the column behind the last
one that is marked.  Only behind the last character is more underlined than the line has. -/
theorem exists_width {l : Location} {start above : Nat} (start_eq : start = above + (l.column - 1))
    (inLine : l.column - 1 ≤ l.line.length) (stop : Option Nat) :
    ∃ width : Nat,
      (width : Int) = max 1 (min ((stop.getD (start + 1) : Int) - start)
        ((above + l.line.length : Int) - start)) ∧
      lastMarked l start stop - (l.column - 1) - 1 = width - 1 ∧
      min (start + width) (above + l.line.length) = above + lastMarked l start stop := by
  refine ⟨max 1 (min (stop.getD (start + 1) - start) (above + l.line.length - start)),
    by omega, ?_, ?_⟩
  · rw [lastMarked]
    omega
  · rw [lastMarked]
    omega

/-- **The offending part is underlined.**  The excerpt at any offset of a text, its end included,
consists of two lines: the whole line in which the offset lies, and below its column a caret and
tildes, as many as what is underlined is wide.  Where texts stand out between what opens and what
closes a colour, the same columns of the line do, and all of the marker, and nothing else. -/
theorem excerptOf_underlines {emphasis : Emphasis} {opening closing : Option Colour → String}
    (wraps : emphasis.Wraps opening closing) (colour : Colour) {text : List Char} {start : Nat}
    (inText : start ≤ text.length) (stop : Option Nat) :
    ∃ (l : Location) (above below : List Char) (width : Nat) (shown rest : List Char),
      Underlines text start stop l above below width shown rest ∧
      excerptOf .plain colour text start stop = marked l (width - 1) ∧
      (excerptOf .plain colour text start stop).toList.count '\n' = 1 ∧
      excerptOf emphasis colour text start stop =
        "  " ++ String.ofList (l.line.take (l.column - 1)) ++
          (opening (some colour) ++ String.ofList shown ++ closing (some colour)) ++
          String.ofList rest ++ "\n" ++
          "  " ++ String.ofList (List.replicate (l.column - 1) ' ') ++
          (opening (some colour) ++ String.ofList ('^' :: List.replicate (width - 1) '~') ++
            closing (some colour)) := by
  obtain ⟨above, below, marks⟩ := Location.ofOffset_marks inText
  generalize located : Location.ofOffset text start = l at marks
  have column := marks.column
  have inLine := marks.inLine
  have start_eq : start = above.length + (l.column - 1) := by omega
  have columnInLine : l.column - 1 ≤ l.line.length := by omega
  obtain ⟨width, width_eq, tildes, reach⟩ := exists_width start_eq columnInLine stop
  have shown := marks.slice (l.column - 1) (show lastMarked l start stop ≤ l.line.length from
    Nat.min_le_right _ _)
  rw [← start_eq, ← reach] at shown
  have plain := excerptOf_plain colour text start stop
  rw [located, tildes] at plain
  refine ⟨l, above, below, width, _, l.line.drop (lastMarked l start stop),
    ⟨marks, width_eq, shown.symm, (take_lastMarked l start stop).symm⟩, plain, ?_, ?_⟩
  · rw [plain]
    exact count_newline_marked marks.oneLine _
  · rw [← tildes]
    simp only [excerptOf, located, lastMarked, wraps (some colour)]

/-- A failure that goes on over the end of its line is underlined up to there. -/
theorem excerptOf_underlines_acrossLines :
    Emphasis.coloured.Wraps Emphasis.sequences (fun _ => "\x1b[0m") ∧
      3 ≤ "do(1,\n   foo)".toList.length ∧
      ∃ l above below width shown rest,
        Underlines "do(1,\n   foo)".toList 3 (some 9) l above below width shown rest ∧
        marked l (width - 1) = "  do(1,\n     ^~" ∧
        "  " ++ String.ofList (l.line.take (l.column - 1)) ++
          ("\x1b[1m\x1b[31m" ++ String.ofList shown ++ "\x1b[0m") ++ String.ofList rest ++ "\n" ++
          "  " ++ String.ofList (List.replicate (l.column - 1) ' ') ++
          ("\x1b[1m\x1b[31m" ++ String.ofList ('^' :: List.replicate (width - 1) '~') ++ "\x1b[0m") =
        "  do(\x1b[1m\x1b[31m1,\x1b[0m\n     \x1b[1m\x1b[31m^~\x1b[0m" := by
  have wraps : Emphasis.coloured.Wraps Emphasis.sequences (fun _ => "\x1b[0m") := fun _ _ => rfl
  have inText : 3 ≤ "do(1,\n   foo)".toList.length := by decide
  obtain ⟨l, above, below, width, shown, rest, underlines, plain, -, coloured⟩ :=
    excerptOf_underlines wraps .red inText (some 9)
  refine ⟨wraps, inText, l, above, below, width, shown, rest, underlines, ?_, ?_⟩
  · rw [← plain]
    decide +kernel
  · refine coloured.symm.trans ?_
    decide +kernel

/-- One without an end, behind the last character of the text. -/
example : excerptOf .plain .red "do(1,\n   foo)".toList 13 none = "     foo)\n         ^" := by
  decide +kernel

end Reporter

end EggLanguage
