/-
# EggLanguage.Proofs.Positions -- offsets, and lines with columns

A text is its lines laid end to end, with a newline after each but the last.  So a line and a
column stand for an offset: all lines before, each with its newline, and the columns to the left
(`Location.LaidOut`).  Finding the line and the column of an offset is the inverse of this, for
all texts, also at newlines and in empty lines (`Location.ofOffset_inverse`).

`Location.Marks` tells the line of an offset by what stands above it and below it instead.
-/
import EggLanguage.Text.Lines

namespace EggLanguage

set_option autoImplicit false

namespace Text.Location

/-! ## A line between what stands above and below -/

/-- The line of a text that an offset lies in, between what stands above and below it.  Lines
and columns are counted from one. -/
structure Marks (text : List Char) (offset : Nat) (l : Location) (above below : List Char) :
    Prop where
  spelled : text = above ++ l.line ++ below
  oneLine : '\n' ∉ l.line
  startsLine : above = [] ∨ ∃ rest, above = rest ++ ['\n']
  endsLine : below = [] ∨ ∃ rest, below = '\n' :: rest
  number : l.number = above.count '\n' + 1
  column : above.length + l.column = offset + 1
  inLine : 1 ≤ l.column ∧ l.column ≤ l.line.length + 1

/-- A text up to its first newline, and what follows. -/
theorem takeWhile_line (text : List Char) :
    '\n' ∉ text.takeWhile (· != '\n') ∧ (text.dropWhile (· != '\n') = [] ∨
      ∃ rest, text.dropWhile (· != '\n') = '\n' :: rest) := by
  constructor
  · intro member
    have kept := List.all_eq_true.1 List.all_takeWhile '\n' member
    simp at kept
  · have first := List.head?_dropWhile_not (· != '\n') text
    cases split : text.dropWhile (· != '\n') with
    | nil => exact .inl rfl
    | cons c rest =>
        rw [split] at first
        have newline : c = '\n' := by simpa using first
        exact .inr ⟨rest, by rw [newline]⟩

/-- A text is what stands above its last line, and that line. -/
theorem lastLine_split (text : List Char) :
    ∃ above, text = above ++ lastLine text ∧ '\n' ∉ lastLine text ∧
      (above = [] ∨ ∃ rest, above = rest ++ ['\n']) := by
  obtain ⟨oneLine, starts⟩ := takeWhile_line text.reverse
  refine ⟨(text.reverse.dropWhile (· != '\n')).reverse, ?_, ?_, ?_⟩
  · rw [lastLine, ← List.reverse_append, List.takeWhile_append_dropWhile, List.reverse_reverse]
  · rwa [lastLine, List.mem_reverse]
  · rcases starts with none | ⟨rest, newline⟩
    · exact .inl (by rw [none, List.reverse_nil])
    · exact .inr ⟨rest.reverse, by rw [newline, List.reverse_cons]⟩

theorem ofOffset_marks {text : List Char} {offset : Nat} (inText : offset ≤ text.length) :
    ∃ above below, Marks text offset (ofOffset text offset) above below := by
  obtain ⟨above, split, oneLine, startsLine⟩ := lastLine_split (text.take offset)
  obtain ⟨oneLine', endsLine⟩ := takeWhile_line (text.drop offset)
  have length := congrArg List.length split
  rw [List.length_take, Nat.min_eq_left inText, List.length_append] at length
  have column : (ofOffset text offset).column =
      (lastLine (text.take offset)).length + 1 := by
    rw [ofOffset]
    simp only [List.length_take, Nat.min_eq_left inText]
    omega
  refine ⟨above, (text.drop offset).dropWhile (· != '\n'), ?_, ?_, startsLine, endsLine, ?_, ?_, ?_⟩
  · simp only [ofOffset]
    rw [← List.append_assoc, ← split, List.append_assoc, List.takeWhile_append_dropWhile,
      List.take_append_drop]
  · simp only [ofOffset, List.mem_append, not_or]
    exact ⟨oneLine, oneLine'⟩
  · simp only [ofOffset]
    rw [split, List.count_append, List.count_eq_zero.2 oneLine, Nat.add_zero]
  · rw [column]
    omega
  · rw [column]
    simp only [ofOffset, List.length_append]
    omega

/-! ## Lines laid end to end -/

/-- The length of lines that are laid end to end, with a newline after each. -/
def extent : List (List Char) → Nat
  | [] => 0
  | line :: rest => line.length + 1 + extent rest

/-- The line and the column of an offset, in lines that are laid end to end. -/
structure LaidOut (lines : List (List Char)) (offset : Nat) (l : Location) : Prop where
  number : 1 ≤ l.number ∧ l.number ≤ lines.length
  line : lines[l.number - 1]? = some l.line
  column : 1 ≤ l.column ∧ l.column ≤ l.line.length + 1
  offset : offset = extent (lines.take (l.number - 1)) + l.column - 1

theorem extent_append (lines rest : List (List Char)) :
    extent (lines ++ rest) = extent lines + extent rest := by
  induction lines with
  | nil => rw [List.nil_append, extent, Nat.zero_add]
  | cons line lines ih =>
      rw [List.cons_append, extent, extent, ih]
      omega

theorem extent_take_succ {lines : List (List Char)} {n : Nat} {line : List Char}
    (here : lines[n]? = some line) :
    extent (lines.take (n + 1)) = extent (lines.take n) + line.length + 1 := by
  rw [List.take_add_one, here, extent_append, Option.toList_some, extent, extent]
  omega

theorem extent_take_le {lines : List (List Char)} {n m : Nat} (le : n ≤ m) :
    extent (lines.take n) ≤ extent (lines.take m) := by
  obtain ⟨rest, split⟩ := List.take_prefix_take_left (l := lines) le
  rw [← split, extent_append]
  exact Nat.le_add_right _ _

/-- There is a line more than there are newlines. -/
theorem length_splitOn (text : List Char) :
    (text.splitOn '\n').length = text.count '\n' + 1 := by
  induction text with
  | nil => rfl
  | cons c text ih =>
      rw [List.splitOn_cons_eq_if_modifyHead, List.count_cons]
      split
      · rw [List.length_cons, ih]
      · rw [List.length_modifyHead, ih, Nat.add_zero]

/-- The lines of a text take its length, and a newline that the last one lacks. -/
theorem extent_splitOn (text : List Char) : extent (text.splitOn '\n') = text.length + 1 := by
  induction text with
  | nil => rfl
  | cons c text ih =>
      obtain ⟨line, rest, split⟩ := List.exists_cons_of_ne_nil (List.splitOn_ne_nil '\n' text)
      rw [split, extent] at ih
      rw [List.splitOn_cons_eq_if_modifyHead, split, List.length_cons, ← ih]
      split
      · rw [extent, extent, List.length_nil]
        omega
      · rw [List.modifyHead_cons, extent, List.length_cons]
        omega

/-- A text that starts with a whole line has it for its first line. -/
theorem getElem?_splitOn_zero {line below : List Char} (oneLine : '\n' ∉ line)
    (endsLine : below = [] ∨ ∃ rest, below = '\n' :: rest) :
    ((line ++ below).splitOn '\n')[0]? = some line := by
  obtain rfl | ⟨rest, rfl⟩ := endsLine
  · rw [List.append_nil, List.splitOn_eq_singleton oneLine]
    rfl
  · rw [List.splitOn_append_cons_self_of_not_mem oneLine]
    rfl

theorem Marks.laidOut {text above below : List Char} {offset : Nat} {l : Location}
    (marks : Marks text offset l above below) : LaidOut (text.splitOn '\n') offset l := by
  have first := getElem?_splitOn_zero marks.oneLine marks.endsLine
  have column := marks.column
  have inLine := marks.inLine
  -- The lines above are all that stand before the line.
  have around : ∃ lines rest, text.splitOn '\n' = lines ++ rest ∧ rest[0]? = some l.line ∧
      lines.length + 1 = l.number ∧ extent lines = above.length := by
    rw [marks.spelled, List.append_assoc, marks.number]
    obtain none | ⟨before, same⟩ := marks.startsLine
    · rw [none]
      exact ⟨[], _, rfl, first, rfl, rfl⟩
    · rw [same, List.append_assoc, List.singleton_append, List.splitOn_append_cons_self]
      refine ⟨_, _, rfl, first, ?_, ?_⟩
      · rw [length_splitOn, List.count_append]
        rfl
      · rw [extent_splitOn, List.length_append, List.length_singleton]
  obtain ⟨lines, rest, split, here, count, length⟩ := around
  have before : l.number - 1 = lines.length := by omega
  have some : (text.splitOn '\n')[l.number - 1]? = some l.line := by
    rw [split, before, List.getElem?_append_right (Nat.le_refl _), Nat.sub_self, here]
  have within := (List.getElem?_eq_some_iff.1 some).1
  refine ⟨by omega, some, inLine, ?_⟩
  rw [split, before, List.take_left, length]
  omega

section

variable {lines : List (List Char)} {offset offset' : Nat} {l l' : Location}

/-- Offsets lie before what follows the line. -/
theorem LaidOut.lt_extent (laid : LaidOut lines offset l) {n : Nat} (le : l.number ≤ n) :
    offset < extent (lines.take n) := by
  have next := extent_take_succ laid.line
  rw [Nat.sub_add_cancel laid.number.1] at next
  have mono : extent (lines.take l.number) ≤ extent (lines.take n) := extent_take_le le
  have column := laid.column
  have same := laid.offset
  omega

/-- Offsets are in the order of their lines, and within a line in that of their columns. -/
theorem LaidOut.lt_iff (laid : LaidOut lines offset l) (laid' : LaidOut lines offset' l') :
    offset < offset' ↔ l.number < l'.number ∨ l.number = l'.number ∧ l.column < l'.column := by
  have column := laid.column
  have column' := laid'.column
  have same := laid.offset
  have same' := laid'.offset
  obtain before | equal | after := Nat.lt_trichotomy l.number l'.number
  · have bound := laid.lt_extent (Nat.le_sub_one_of_lt before)
    omega
  · rw [equal] at same
    omega
  · have bound := laid'.lt_extent (Nat.le_sub_one_of_lt after)
    omega

theorem LaidOut.unique (laid : LaidOut lines offset l) (laid' : LaidOut lines offset l') :
    l = l' := by
  have before := laid.lt_iff laid'
  have after := laid'.lt_iff laid
  have number : l.number = l'.number := by omega
  have column : l.column = l'.column := by omega
  have line : l.line = l'.line := Option.some.inj (laid.line.symm.trans (number ▸ laid'.line))
  calc
    l = ⟨l.line, l.number, l.column⟩ := rfl
    _ = ⟨l'.line, l'.number, l'.column⟩ := by rw [line, number, column]
    _ = l' := rfl

theorem LaidOut.le_length {text : List Char} (laid : LaidOut (text.splitOn '\n') offset l) :
    offset ≤ text.length := by
  have bound := laid.lt_extent laid.number.2
  rw [List.take_length, extent_splitOn] at bound
  exact Nat.le_of_lt_succ bound

end

/-- What stands at an offset within a line is no newline. -/
theorem Marks.column_of_newline {text above below : List Char} {offset : Nat} {l : Location}
    (marks : Marks text offset l above below) (newline : text[offset]? = some '\n') :
    l.column = l.line.length + 1 := by
  have column := marks.column
  obtain ⟨starts, ends⟩ := marks.inLine
  refine Nat.le_antisymm ends (Nat.le_of_not_lt fun within => marks.oneLine ?_)
  rw [marks.spelled, List.append_assoc, List.getElem?_append_right (by omega),
    List.getElem?_append_left (by omega)] at newline
  exact List.mem_of_getElem? newline

/-- **Offsets and places in lines are inverse.**  The offsets of a text, its end included, and the
columns of its lines, one behind the last character included, are in one-to-one correspondence:
a place stands for the length of the lines before it, with their newlines, and of what is to the
left of its column.  Offsets are in the order of their lines and then of their columns, and a
newline stands behind the last character of the line that it ends. -/
theorem ofOffset_inverse (text : List Char) :
    (∀ offset l, offset ≤ text.length ∧ ofOffset text offset = l ↔
      LaidOut (text.splitOn '\n') offset l) ∧
    (∀ offset offset', offset ≤ text.length → offset' ≤ text.length →
      (offset < offset' ↔ (ofOffset text offset).number < (ofOffset text offset').number ∨
        (ofOffset text offset).number = (ofOffset text offset').number ∧
          (ofOffset text offset).column < (ofOffset text offset').column)) ∧
    ∀ offset, text[offset]? = some '\n' →
      (ofOffset text offset).column = (ofOffset text offset).line.length + 1 := by
  have laid : ∀ offset, offset ≤ text.length →
      LaidOut (text.splitOn '\n') offset (ofOffset text offset) := fun offset inText => by
    obtain ⟨above, below, marks⟩ := ofOffset_marks inText
    exact marks.laidOut
  refine ⟨fun offset l => ⟨?_, fun known => ?_⟩, fun offset offset' inText inText' => ?_,
    fun offset newline => ?_⟩
  · rintro ⟨inText, rfl⟩
    exact laid offset inText
  · have inText := known.le_length
    exact ⟨inText, (laid offset inText).unique known⟩
  · exact (laid offset inText).lt_iff (laid offset' inText')
  · have inText := Nat.le_of_lt (List.getElem?_eq_some_iff.1 newline).1
    obtain ⟨above, below, marks⟩ := ofOffset_marks inText
    exact marks.column_of_newline newline

/-- The second line is empty, and the newline at offset 2 ends the first one. -/
example : (List.range 6).map (fun offset =>
      let l := ofOffset "ab\n\nc".toList offset
      (l.number, l.column, String.ofList l.line)) =
    [(1, 1, "ab"), (1, 2, "ab"), (1, 3, "ab"), (2, 1, ""), (3, 1, "c"), (3, 2, "c")] := by
  decide

end Text.Location

end EggLanguage
