/-
# EggLanguage.Expr.Token -- the tokens that are expressions of their own

An expression starts with a string, a numeral or a word.  A string runs to the
next quote and may hold anything else.  A numeral is a run of ASCII digits that
no ASCII letter, digit or underscore follows; any other run of word characters
is a word, also one that starts with digits.

`Token.read?` takes one token off a text.  It loses nothing
(`read?_spelling`) and takes at least one character (`read?_length_lt`).
-/
import EggLanguage.Text.Blank
import EggLanguage.Expr.Basic

namespace EggLanguage

set_option autoImplicit false

open EggLanguage.Text

/-- A token that is an expression of its own. -/
inductive Token where
  | string (content : List Char)
  | numeral (digits : List Char)
  | word (name : List Char)
  deriving DecidableEq, Repr

namespace Token

/-- The characters of a token. -/
def spelling : Token → List Char
  | string content => '"' :: content ++ ['"']
  | numeral digits => digits
  | word name => name

/-- The node that a token denotes. -/
def node (span : Span) : Token → Expr
  | string content => .literal (.string (String.ofList content)) span
  | numeral digits => .literal (.int (Number.ofDigits digits)) span
  | word name => .word (String.ofList name) span

/-- Whether a numeral can end before this text. -/
def endsNumeral : List Char → Bool
  | [] => true
  | c :: _ => !isIdentifierChar c

/-- The string that a text after its opening quote starts with, if it is closed,
and the text after it. -/
def readString? (text : List Char) : Option (Token × List Char) :=
  match text.dropWhile (· != '"') with
  | [] => none
  | _ :: rest => some (.string (text.takeWhile (· != '"')), rest)

/-- The numeral that a text starts with, and the text after it. -/
def readNumeral? (text : List Char) : Option (Token × List Char) :=
  let digits := text.takeWhile Char.isDigit
  let rest := text.dropWhile Char.isDigit
  if digits ≠ [] ∧ endsNumeral rest then some (.numeral digits, rest) else none

/-- The word that a text starts with, and the text after it. -/
def readWord? (text : List Char) : Option (Token × List Char) :=
  let name := text.takeWhile isWordChar
  if name ≠ [] then some (.word name, text.dropWhile isWordChar) else none

/-- The token that a text starts with, and the text after it. -/
def read? : List Char → Option (Token × List Char)
  | [] => none
  | c :: rest =>
      if c = '"' then readString? rest
      else (readNumeral? (c :: rest)).or (readWord? (c :: rest))

/-! ## What reading a token does to the text -/

theorem readNumeral?_spelling {text rest : List Char} {t : Token}
    (found : readNumeral? text = some (t, rest)) :
    text = t.spelling ++ rest ∧ t.spelling ≠ [] := by
  simp only [readNumeral?] at found
  split at found
  · rename_i numeral
    cases found
    exact ⟨(List.takeWhile_append_dropWhile).symm, numeral.1⟩
  · cases found

theorem readWord?_spelling {text rest : List Char} {t : Token}
    (found : readWord? text = some (t, rest)) :
    text = t.spelling ++ rest ∧ t.spelling ≠ [] := by
  simp only [readWord?] at found
  split at found
  · rename_i nonempty
    cases found
    exact ⟨(List.takeWhile_append_dropWhile).symm, nonempty⟩
  · cases found

theorem readString?_spelling {text rest : List Char} {t : Token}
    (found : readString? text = some (t, rest)) : '"' :: text = t.spelling ++ rest := by
  simp only [readString?] at found
  split at found
  · cases found
  · rename_i quote after closes
    cases found
    have stopped := List.head?_dropWhile_not (· != '"') text
    rw [closes] at stopped
    have isQuote : quote = '"' := by simpa using stopped
    have joined := List.takeWhile_append_dropWhile (p := (· != '"')) (l := text)
    rw [closes, isQuote] at joined
    simp only [spelling, List.cons_append, List.append_assoc, List.nil_append]
    rw [joined]

theorem readString?_length_lt {text rest : List Char} {t : Token}
    (found : readString? text = some (t, rest)) : rest.length < text.length := by
  simp only [readString?] at found
  split at found
  · cases found
  · rename_i quote after closes
    cases found
    have shorter := (List.dropWhile_sublist (p := (· != '"')) (l := text)).length_le
    rw [closes, List.length_cons] at shorter
    omega

/-- Reading a token loses no character of the text. -/
theorem read?_spelling {text rest : List Char} {t : Token}
    (found : read? text = some (t, rest)) : text = t.spelling ++ rest ∧ t.spelling ≠ [] := by
  cases text with
  | nil => cases found
  | cons c after =>
      simp only [read?] at found
      split at found
      · rename_i quote
        subst quote
        refine ⟨readString?_spelling found, ?_⟩
        simp only [readString?] at found
        split at found
        · cases found
        · cases found
          simp [spelling]
      · cases numeral : readNumeral? (c :: after) with
        | some pair =>
            rw [numeral] at found
            cases found
            exact readNumeral?_spelling numeral
        | none =>
            rw [numeral] at found
            exact readWord?_spelling found

theorem read?_length_lt {text rest : List Char} {t : Token}
    (found : read? text = some (t, rest)) : rest.length < text.length := by
  obtain ⟨joined, nonempty⟩ := read?_spelling found
  have := List.length_pos_iff.2 nonempty
  rw [joined, List.length_append]
  omega

end Token

end EggLanguage
