/-
# EggLanguage.Text.Blank -- white space, words and places in a text

Egg programs are read character by character.  This module fixes the two
classes of characters that matter to the reader (`isBlank`, `isWordChar`) and
the `Cursor`, a place in a text: how many characters stand before it and which
follow.  All offsets count characters.

`Cursor.skipBlank` moves to the next character that is not blank.  It never
lengthens what follows (`Cursor.skipBlank_length_le`) and what it leaves does
not start with a blank (`Cursor.skipBlank_head`).
-/
namespace EggLanguage.Text

set_option autoImplicit false

/-! ## Character classes -/

/-- White space: the characters with the Unicode property of that name and the
four information separators U+001C to U+001F. -/
def isBlank (c : Char) : Bool :=
  let n := c.toNat
  (0x09 ≤ n && n ≤ 0x0D) || (0x1C ≤ n && n ≤ 0x20) || n == 0x85 || n == 0xA0 || n == 0x1680 ||
    (0x2000 ≤ n && n ≤ 0x200A) || n == 0x2028 || n == 0x2029 || n == 0x202F || n == 0x205F ||
    n == 0x3000

/-- The four characters that are tokens of their own or open one. -/
def isDelimiter (c : Char) : Bool :=
  c == '(' || c == ')' || c == ',' || c == '"'

/-- A word holds any characters but blanks and delimiters. -/
def isWordChar (c : Char) : Bool :=
  !isBlank c && !isDelimiter c

/-- The characters that a numeral must not run into: ASCII letters, digits and
the underscore. -/
def isIdentifierChar (c : Char) : Bool :=
  c.isAlphanum || c == '_'

theorem toNat_of_isIdentifierChar {c : Char} (identifier : isIdentifierChar c = true) :
    48 ≤ c.toNat ∧ c.toNat ≤ 57 ∨ 65 ≤ c.toNat ∧ c.toNat ≤ 90 ∨ c.toNat = 95 ∨
      97 ≤ c.toNat ∧ c.toNat ≤ 122 := by
  have classes : isIdentifierChar c =
      ((decide (65 ≤ c.val ∧ c.val ≤ 90) || (decide (97 ≤ c.val) && decide (c.val ≤ 122)) ||
        (decide (48 ≤ c.val) && decide (c.val ≤ 57))) || c == '_') := rfl
  simp only [classes, Bool.or_eq_true, decide_eq_true_eq, Bool.and_eq_true, beq_iff_eq,
    UInt32.le_iff_toNat_le] at identifier
  rcases identifier with ((upper | lower) | digit) | rfl
  · exact .inr (.inl upper)
  · exact .inr (.inr (.inr lower))
  · exact .inl digit
  · exact .inr (.inr (.inl rfl))

/-- The characters that numerals must not run into are word characters. -/
theorem isWordChar_of_isIdentifierChar {c : Char} (identifier : isIdentifierChar c = true) :
    isWordChar c = true := by
  have bounds := toNat_of_isIdentifierChar identifier
  have notDelimiter : isDelimiter c = false := by
    refine Bool.eq_false_iff.2 fun delimiter => ?_
    simp only [isDelimiter, Bool.or_eq_true, beq_iff_eq] at delimiter
    rcases delimiter with ((rfl | rfl) | rfl) | rfl <;> simp at bounds
  have notBlank : isBlank c = false := by
    simp only [isBlank, Bool.or_eq_false_iff, Bool.and_eq_false_iff, decide_eq_false_iff_not,
      beq_eq_false_iff_ne]
    omega
  simp [isWordChar, notDelimiter, notBlank]

theorem isIdentifierChar_of_isDigit {c : Char} (digit : c.isDigit = true) :
    isIdentifierChar c = true := by
  simp [isIdentifierChar, Char.isAlphanum, digit]

theorem isWordChar_of_isDigit {c : Char} (digit : c.isDigit = true) : isWordChar c = true :=
  isWordChar_of_isIdentifierChar (isIdentifierChar_of_isDigit digit)

theorem not_isBlank_of_isWordChar {c : Char} (char : isWordChar c = true) : isBlank c = false := by
  simp only [isWordChar, Bool.and_eq_true, Bool.not_eq_true'] at char
  exact char.1

/-- A text without the blanks at its two ends. -/
def trim (text : List Char) : List Char :=
  ((text.dropWhile isBlank).reverse.dropWhile isBlank).reverse

/-! ## Places in a text -/

/-- A place in a text: the number of characters before it and those after it. -/
structure Cursor where
  position : Nat
  rest : List Char
  deriving Repr

namespace Cursor

/-- The place after `offset` characters of `text`, or its end if there are fewer. -/
def ofText (text : List Char) (offset : Nat) : Cursor :=
  ⟨min offset text.length, text.drop offset⟩

/-- The offset at which the text ends. -/
def stop (c : Cursor) : Nat :=
  c.position + c.rest.length

/-- The first place from `position` on, before `rest`, that no blank follows. -/
def skipBlankFrom (position : Nat) : List Char → Cursor
  | [] => ⟨position, []⟩
  | c :: rest => if isBlank c then skipBlankFrom (position + 1) rest else ⟨position, c :: rest⟩

/-- The first place at or after this one that no blank follows. -/
def skipBlank (c : Cursor) : Cursor :=
  skipBlankFrom c.position c.rest

theorem skipBlankFrom_rest (position : Nat) (rest : List Char) :
    (skipBlankFrom position rest).rest = rest.dropWhile isBlank := by
  induction rest generalizing position with
  | nil => rfl
  | cons c rest ih =>
      by_cases blank : isBlank c
      · simp [skipBlankFrom, blank, ih]
      · simp [skipBlankFrom, blank]

theorem skipBlank_rest (c : Cursor) : c.skipBlank.rest = c.rest.dropWhile isBlank :=
  skipBlankFrom_rest c.position c.rest

theorem skipBlank_length_le (c : Cursor) : c.skipBlank.rest.length ≤ c.rest.length := by
  rw [skipBlank_rest]
  exact (List.dropWhile_sublist isBlank).length_le

theorem skipBlank_head (c : Cursor) {d : Char} {rest : List Char}
    (follows : c.skipBlank.rest = d :: rest) : isBlank d = false := by
  rw [skipBlank_rest] at follows
  have := List.head?_dropWhile_not isBlank c.rest
  rw [follows] at this
  simpa using this

end Cursor

end EggLanguage.Text
