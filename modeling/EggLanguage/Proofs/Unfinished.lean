/-
# EggLanguage.Proofs.Unfinished -- which texts the loop takes for unfinished

The loop over typed lines counts parentheses.  It leaves out the strings that are closed,
so where a text breaks off within a string the parentheses of that string are counted as
well (`Repl.isUnfinished_iff`).

For a program the counts come out even and no string is left open
(`Expr.finished_of_parse`): each derivation opens as many lists of arguments as it closes,
which is the invariant `Grammar.Climbs`, carried through the grammar.
-/
import EggLanguage.Proofs.Reading
import EggLanguage.Repl

namespace EggLanguage

set_option autoImplicit false

open EggLanguage.Text

/-! ## Inside and outside of strings -/

namespace Text

/-- The characters of a text that stand outside strings, quotes left out.  A string may be
open at its start. -/
def outsideStrings : (inString : Bool) → List Char → List Char
  | _, [] => []
  | inString, c :: rest =>
      if c = '"' then outsideStrings (!inString) rest
      else if inString then outsideStrings true rest
      else c :: outsideStrings false rest

/-- The characters of the string that a text breaks off in, none if it ends outside
strings. -/
def openString : (inString : Bool) → List Char → List Char
  | _, [] => []
  | inString, c :: rest =>
      if c = '"' then openString (!inString) rest
      else if inString ∧ '"' ∉ rest then c :: rest
      else openString inString rest

/-- How many lists of arguments are open at the end of a text: a parenthesis outside
strings opens or closes one. -/
def openLists (text : List Char) : Int :=
  (outsideStrings false text).count '(' - (outsideStrings false text).count ')'

theorem outsideStrings_append {chars : List Char} (rest : List Char)
    (noQuote : ∀ c ∈ chars, c ≠ '"') :
    outsideStrings false (chars ++ rest) = chars ++ outsideStrings false rest := by
  induction chars with
  | nil => rfl
  | cons c chars ih =>
      rw [List.forall_mem_cons] at noQuote
      simp [outsideStrings, noQuote.1, ih noQuote.2]

theorem openString_append {chars : List Char} (rest : List Char)
    (noQuote : ∀ c ∈ chars, c ≠ '"') :
    openString false (chars ++ rest) = openString false rest := by
  induction chars with
  | nil => rfl
  | cons c chars ih =>
      rw [List.forall_mem_cons] at noQuote
      simp [openString, noQuote.1, ih noQuote.2]

/-- A string that is closed leaves nothing. -/
theorem outsideStrings_string {content : List Char} (rest : List Char)
    (closed : '"' ∉ content) :
    outsideStrings true (content ++ '"' :: rest) = outsideStrings false rest := by
  induction content with
  | nil => rfl
  | cons c content ih =>
      obtain ⟨notQuote, others⟩ := List.ne_and_not_mem_of_not_mem_cons closed
      simp [outsideStrings, Ne.symm notQuote, ih others]

theorem openString_string {content : List Char} (rest : List Char) (closed : '"' ∉ content) :
    openString true (content ++ '"' :: rest) = openString false rest := by
  induction content with
  | nil => rfl
  | cons c content ih =>
      obtain ⟨notQuote, others⟩ := List.ne_and_not_mem_of_not_mem_cons closed
      simp [openString, Ne.symm notQuote, ih others]

/-- A string that is not closed is all there is. -/
theorem outsideStrings_of_not_mem {text : List Char} (open' : '"' ∉ text) :
    outsideStrings true text = [] := by
  induction text with
  | nil => rfl
  | cons c text ih =>
      obtain ⟨notQuote, others⟩ := List.ne_and_not_mem_of_not_mem_cons open'
      simp [outsideStrings, Ne.symm notQuote, ih others]

theorem openString_of_not_mem {text : List Char} (open' : '"' ∉ text) :
    openString true text = text := by
  cases text with
  | nil => rfl
  | cons c text =>
      obtain ⟨notQuote, others⟩ := List.ne_and_not_mem_of_not_mem_cons open'
      simp [openString, Ne.symm notQuote, others]

end Text

/-! ## What the loop counts -/

theorem Token.not_mem_of_readString? {text : List Char} (absent : readString? text = none) :
    '"' ∉ text := by
  simp only [readString?] at absent
  split at absent
  · rename_i run
    have all := List.takeWhile_append_dropWhile (p := (· != '"')) (l := text)
    rw [run, List.append_nil] at all
    rw [← all]
    intro quote
    have kept := List.all_eq_true.1 List.all_takeWhile '"' quote
    simp at kept
  · cases absent

namespace Repl

/-- What is left without the closed strings: the characters outside strings, and the
string that the text breaks off in. -/
theorem count_withoutStrings {p : Char} (notQuote : p ≠ '"') (text : List Char) :
    (withoutStrings text).count p =
      (outsideStrings false text).count p + (openString false text).count p := by
  fun_induction withoutStrings text with
  | case1 => rfl
  | case2 rest token after found ih =>
      obtain ⟨content, rfl, closed⟩ := Token.isString_of_readString? found
      have spelled : rest = content ++ '"' :: after := by
        simpa [Token.spelling] using Token.readString?_spelling found
      rw [ih, outsideStrings, openString, if_pos rfl, if_pos rfl, spelled, Bool.not_false,
        outsideStrings_string after closed, openString_string after closed]
  | case3 rest absent =>
      have open' := Token.not_mem_of_readString? absent
      rw [outsideStrings, openString, if_pos rfl, if_pos rfl, Bool.not_false,
        outsideStrings_of_not_mem open', openString_of_not_mem open',
        List.count_cons_of_ne (Ne.symm notQuote)]
      simp
  | case4 c rest ordinary ih =>
      simp only [outsideStrings, openString, ordinary]
      simp [List.count_cons, ih]
      omega

/-- A text counts as unfinished if the lists of arguments that it leaves open, together with
the parentheses opened in the string it breaks off in, outnumber those closed there. -/
theorem isUnfinished_iff {text : List Char} :
    isUnfinished text = true ↔
      ((openString false text).count ')' : Int) <
        openLists text + (openString false text).count '(' := by
  simp only [isUnfinished, decide_eq_true_eq, openLists,
    count_withoutStrings (show '(' ≠ '"' by decide),
    count_withoutStrings (show ')' ≠ '"' by decide)]
  omega

end Repl

/-! ## Counting along a derivation -/

namespace Grammar

/-- From one place to another, so many more lists of arguments are opened than closed, and
no string is left open. -/
structure Climbs (c d : Cursor) (height : Int) : Prop where
  lists : openLists c.rest = height + openLists d.rest
  string : openString false c.rest = openString false d.rest

theorem Climbs.trans {c d e : Cursor} {m n : Int} (first : Climbs c d m) (second : Climbs d e n) :
    Climbs c e (m + n) where
  lists := by
    rw [first.lists, second.lists]
    omega
  string := first.string.trans second.string

theorem climbs_of_passes {c d : Cursor} {chars : List Char} (passes : c.Passes chars d)
    (noQuote : ∀ ch ∈ chars, ch ≠ '"') :
    Climbs c d (chars.count '(' - chars.count ')') where
  lists := by
    simp only [openLists, passes.rest, outsideStrings_append _ noQuote, List.count_append]
    omega
  string := by
    rw [passes.rest, openString_append _ noQuote]

/-- Characters that are neither quotes nor parentheses change nothing. -/
theorem climbs_of_ordinary {c d : Cursor} {chars : List Char} (passes : c.Passes chars d)
    (ordinary : ∀ ch ∈ chars, ch ≠ '"' ∧ ch ≠ '(' ∧ ch ≠ ')') : Climbs c d 0 := by
  have climbs := climbs_of_passes passes fun ch member => (ordinary ch member).1
  rwa [List.count_eq_zero.2 fun member => (ordinary _ member).2.1 rfl,
    List.count_eq_zero.2 fun member => (ordinary _ member).2.2 rfl] at climbs

theorem climbs_of_blanks {c d : Cursor} (gap : c.Blanks d) : Climbs c d 0 := by
  obtain ⟨blanks, blank, passes⟩ := gap
  refine climbs_of_ordinary passes fun b member => ?_
  have visible := blank b member
  refine ⟨?_, ?_, ?_⟩ <;> rintro rfl <;> exact absurd visible (by decide)

theorem climbs_of_word {c d : Cursor} {name : List Char} (passes : c.Passes name d)
    (chars : ∀ ch ∈ name, isWordChar ch = true) : Climbs c d 0 := by
  refine climbs_of_ordinary passes fun ch member => ?_
  have char := chars ch member
  refine ⟨?_, ?_, ?_⟩ <;> rintro rfl <;> exact absurd char (by decide)

theorem climbs_of_symbol {c d : Cursor} {symbol : Char} (passes : c.Passes [symbol] d)
    (notQuote : symbol ≠ '"') : Climbs c d ([symbol].count '(' - [symbol].count ')') :=
  climbs_of_passes passes fun ch member => by rwa [List.mem_singleton.1 member]

theorem climbs_of_lexeme {rules : Rules} {t : Token} {c d : Cursor}
    (lexeme : Lexeme rules t d.rest) (passes : c.Passes t.spelling d) : Climbs c d 0 := by
  cases lexeme with
  | @string content _ closed =>
      have spelled : c.rest = '"' :: (content ++ '"' :: d.rest) := by
        simpa [Token.spelling] using passes.rest
      constructor
      · simp only [openLists, spelled, outsideStrings, if_true, Bool.not_false,
          outsideStrings_string d.rest closed]
        omega
      · rw [spelled, openString, if_pos rfl, Bool.not_false, openString_string d.rest closed]
  | numeral numeral =>
      exact climbs_of_word passes fun ch member => isWordChar_of_isDigit (numeral.digit ch member)
  | word nonempty chars fits => exact climbs_of_word passes chars

variable {rules : Rules} {source : Source}

mutual

/-- An expression closes the lists of arguments that it opens. -/
theorem Expression.climbs {c d : Cursor} {e : Expr} :
    Expression rules source c e d → Climbs c d 0
  | .token lexeme passes => climbs_of_lexeme lexeme passes
  | .apply head gap list => (head.climbs.trans (climbs_of_blanks gap)).trans list.climbs

theorem Arguments.climbs {c d : Cursor} {es : List Expr} :
    Arguments rules source c es d → Climbs c d 0
  | .none opens gap closes =>
      ((climbs_of_symbol opens (by decide)).trans (climbs_of_blanks gap)).trans
        (climbs_of_symbol closes (by decide))
  | .some opens gap first more =>
      (((climbs_of_symbol opens (by decide)).trans (climbs_of_blanks gap)).trans
        first.climbs).trans more.climbs

/-- What follows an argument closes the list that the argument stands in. -/
theorem More.climbs {c d : Cursor} {es : List Expr} :
    More rules source c es d → Climbs c d (-1)
  | .close gap closes => (climbs_of_blanks gap).trans (climbs_of_symbol closes (by decide))
  | .comma _ gap separator gap' closes =>
      (((climbs_of_blanks gap).trans (climbs_of_symbol separator (by decide))).trans
        (climbs_of_blanks gap')).trans (climbs_of_symbol closes (by decide))
  | .argument gap separator gap' next more =>
      ((((climbs_of_blanks gap).trans (climbs_of_symbol separator (by decide))).trans
        (climbs_of_blanks gap')).trans next.climbs).trans more.climbs

end

/-- A program leaves no list of arguments and no string open. -/
theorem Program.closed {e : Expr} (program : Program rules source e) :
    openLists source.text.toList = 0 ∧ openString false source.text.toList = [] := by
  obtain ⟨c, d, stop, before, derived, after, ended⟩ := program
  have climbs := ((climbs_of_blanks before).trans derived.climbs).trans (climbs_of_blanks after)
  have lists := climbs.lists
  have string := climbs.string
  rw [ended] at lists string
  exact ⟨lists, string⟩

end Grammar

namespace Expr

open EggLanguage.Grammar

/-- The loop takes no program for unfinished. -/
theorem finished_of_parse {n : Nat} {source : Source} {e : Expr}
    (parsed : parse n source = .ok e) : Repl.isUnfinished source.text.toList = false := by
  obtain ⟨lists, string⟩ := (parse_ok_iff.1 parsed).1.closed
  rw [← Bool.not_eq_true, Repl.isUnfinished_iff, lists, string]
  decide

end Expr

end EggLanguage
