/-
# EggLanguage.Text.Lines -- lines, and where an offset lies in them

Lines end at newlines and at the end of the text; no other character ends one.
`Location.ofOffset` finds the line that an offset lies in, its number and the
column, both counted from one.  A newline belongs to the line it ends.
-/
namespace EggLanguage.Text

set_option autoImplicit false

/-- A line of a text, its number, and a column of it. -/
structure Location where
  line : List Char
  number : Nat
  column : Nat
  deriving DecidableEq, Repr

namespace Location

/-- The characters after the last newline of a text. -/
def lastLine (text : List Char) : List Char :=
  (text.reverse.takeWhile (· != '\n')).reverse

/-- Where an offset lies in a text.  An offset beyond the end lies in the last
line. -/
def ofOffset (text : List Char) (offset : Nat) : Location :=
  let before := text.take offset
  let head := lastLine before
  let tail := (text.drop offset).takeWhile (· != '\n')
  ⟨head ++ tail, before.count '\n' + 1, offset - (before.length - head.length) + 1⟩

end Location

end EggLanguage.Text
