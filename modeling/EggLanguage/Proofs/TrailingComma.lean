/-
# EggLanguage.Proofs.TrailingComma -- commas that separate nothing

Programs may have a comma after the last argument of a list.  The plain grammar
(`Grammar.Rules.plain`), in which commas only separate, has no such texts.  Nothing
else tells the two languages apart: `Expr.plain_iff_of_parse` says that a text that is
read is derived in the plain grammar exactly if it has no trailing comma.

A trailing comma is seen without parsing: it is a comma outside strings with at most
blanks between it and a closing parenthesis (`Grammar.TrailingComma`).  A scan from left
to right finds it (`Grammar.hasTrailingComma_iff`), and what one derivation takes off
the text changes what the scan finds only by such commas.
-/
import EggLanguage.Proofs.Reading

namespace EggLanguage

set_option autoImplicit false

open EggLanguage.Text

namespace Grammar

/-! ## Finding a trailing comma -/

/-- A comma outside strings stands before a closing parenthesis: the quotes before it
are in pairs, and only blanks are between the two. -/
def TrailingComma (text : List Char) : Prop :=
  ∃ before blanks after, text = before ++ ',' :: (blanks ++ ')' :: after) ∧
    (∀ b ∈ blanks, isBlank b = true) ∧ before.count '"' % 2 = 0

/-- Whether the next character that is not blank is a closing parenthesis. -/
def closesNext (text : List Char) : Bool :=
  (text.dropWhile isBlank).head? == some ')'

/-- Whether a text has a trailing comma, where a string may be open at its start. -/
def hasTrailingComma : (inString : Bool) → List Char → Bool
  | _, [] => false
  | inString, c :: rest =>
      if c = '"' then hasTrailingComma (!inString) rest
      else (!inString && c == ',' && closesNext rest) || hasTrailingComma inString rest

theorem closesNext_iff {text : List Char} :
    closesNext text = true ↔
      ∃ blanks after, text = blanks ++ ')' :: after ∧ ∀ b ∈ blanks, isBlank b = true := by
  rw [closesNext, beq_iff_eq]
  constructor
  · intro closes
    obtain ⟨after, follows⟩ := List.head?_eq_some_iff.1 closes
    refine ⟨text.takeWhile isBlank, after, ?_, List.all_eq_true.1 List.all_takeWhile⟩
    rw [← follows, List.takeWhile_append_dropWhile]
  · rintro ⟨blanks, after, rfl, blank⟩
    rw [List.dropWhile_append_of_pos blank]
    rfl

/-- The scan finds the commas that an even or an odd number of quotes stands before. -/
theorem hasTrailingComma_eq_true_iff {inString : Bool} {text : List Char} :
    hasTrailingComma inString text = true ↔ ∃ before blanks after,
      text = before ++ ',' :: (blanks ++ ')' :: after) ∧ (∀ b ∈ blanks, isBlank b = true) ∧
        before.count '"' % 2 = if inString then 1 else 0 := by
  induction text generalizing inString with
  | nil => simp [hasTrailingComma]
  | cons c rest ih =>
      constructor
      · intro found
        rw [hasTrailingComma] at found
        split at found
        · obtain ⟨before, blanks, after, rfl, blank, quotes⟩ := ih.1 found
          subst c
          refine ⟨'"' :: before, blanks, after, rfl, blank, ?_⟩
          rw [List.count_cons_self]
          cases inString <;> simp at quotes ⊢ <;> omega
        · rename_i notQuote
          rcases Bool.or_eq_true_iff.1 found with here | later
          · simp only [Bool.and_eq_true, Bool.not_eq_true', beq_iff_eq] at here
            obtain ⟨⟨rfl, rfl⟩, closes⟩ := here
            obtain ⟨blanks, after, rfl, blank⟩ := closesNext_iff.1 closes
            exact ⟨[], blanks, after, rfl, blank, rfl⟩
          · obtain ⟨before, blanks, after, rfl, blank, quotes⟩ := ih.1 later
            refine ⟨c :: before, blanks, after, rfl, blank, ?_⟩
            rw [List.count_cons_of_ne notQuote, quotes]
      · rintro ⟨before, blanks, after, split, blank, quotes⟩
        rw [hasTrailingComma]
        cases before with
        | nil =>
            obtain ⟨rfl, rfl⟩ := List.cons.inj split
            have closes : closesNext (blanks ++ ')' :: after) = true :=
              closesNext_iff.2 ⟨blanks, after, rfl, blank⟩
            cases inString with
            | false => simp [closes]
            | true => cases quotes
        | cons b before =>
            obtain ⟨rfl, rfl⟩ := List.cons.inj split
            by_cases quote : c = '"'
            · subst quote
              rw [List.count_cons_self] at quotes
              rw [if_pos rfl]
              refine ih.2 ⟨before, blanks, after, rfl, blank, ?_⟩
              cases inString <;> simp at quotes ⊢ <;> omega
            · rw [List.count_cons_of_ne quote] at quotes
              rw [if_neg quote, ih.2 ⟨before, blanks, after, rfl, blank, quotes⟩, Bool.or_true]

theorem hasTrailingComma_iff {text : List Char} :
    hasTrailingComma false text = true ↔ TrailingComma text :=
  hasTrailingComma_eq_true_iff

instance (text : List Char) : Decidable (TrailingComma text) :=
  decidable_of_iff _ hasTrailingComma_iff

theorem not_trailingComma_iff {text : List Char} :
    ¬ TrailingComma text ↔ hasTrailingComma false text = false := by
  rw [← hasTrailingComma_iff, Bool.not_eq_true]

/-! ## The scan along a derivation -/

/-- The scan passes over what is no comma and no quote, and over anything but quotes
within a string. -/
theorem hasTrailingComma_append {inString : Bool} {chars : List Char} (rest : List Char)
    (ordinary : ∀ c ∈ chars, c ≠ '"' ∧ (inString = true ∨ c ≠ ',')) :
    hasTrailingComma inString (chars ++ rest) = hasTrailingComma inString rest := by
  induction chars with
  | nil => rfl
  | cons c chars ih =>
      obtain ⟨notQuote, noComma⟩ := ordinary c List.mem_cons_self
      have others := ih fun d member => ordinary d (List.mem_cons_of_mem c member)
      rw [List.cons_append, hasTrailingComma, if_neg notQuote, others]
      rcases noComma with rfl | notComma
      · rfl
      · simp [notComma]

/-- The scan finds the same from two places. -/
def Level (c d : Cursor) : Prop :=
  hasTrailingComma false c.rest = hasTrailingComma false d.rest

theorem ordinary_of_isBlank {c : Char} (blank : isBlank c = true) : c ≠ '"' ∧ c ≠ ',' := by
  constructor
  · rintro rfl
    exact absurd blank (by decide)
  · rintro rfl
    exact absurd blank (by decide)

theorem ordinary_of_isWordChar {c : Char} (char : isWordChar c = true) : c ≠ '"' ∧ c ≠ ',' := by
  constructor
  · rintro rfl
    exact absurd char (by decide)
  · rintro rfl
    exact absurd char (by decide)

theorem level_of_passes {c d : Cursor} {chars : List Char} (passes : c.Passes chars d)
    (ordinary : ∀ ch ∈ chars, ch ≠ '"' ∧ ch ≠ ',') : Level c d := by
  rw [Level, passes.rest]
  exact hasTrailingComma_append d.rest fun ch member =>
    ⟨(ordinary ch member).1, .inr (ordinary ch member).2⟩

theorem level_of_blanks {c d : Cursor} (gap : c.Blanks d) : Level c d := by
  obtain ⟨blanks, blank, passes⟩ := gap
  exact level_of_passes passes fun b member => ordinary_of_isBlank (blank b member)

theorem level_of_symbol {c d : Cursor} {symbol : Char} (passes : c.Passes [symbol] d)
    (ordinary : symbol ≠ '"' ∧ symbol ≠ ',') : Level c d := by
  refine level_of_passes passes fun ch member => ?_
  rw [List.mem_singleton] at member
  rw [member]
  exact ordinary

theorem level_of_lexeme {rules : Rules} {t : Token} {c d : Cursor}
    (lexeme : Lexeme rules t d.rest) (passes : c.Passes t.spelling d) : Level c d := by
  cases lexeme with
  | @string content _ closed =>
      have inside : hasTrailingComma true (content ++ '"' :: d.rest) =
          hasTrailingComma true ('"' :: d.rest) := by
        refine hasTrailingComma_append _ fun ch member => ⟨?_, .inl rfl⟩
        rintro rfl
        exact closed member
      have spelled : c.rest = '"' :: (content ++ '"' :: d.rest) := by
        simpa [Token.spelling] using passes.rest
      rw [Level, spelled, hasTrailingComma, if_pos rfl, Bool.not_false, inside, hasTrailingComma,
        if_pos rfl, Bool.not_true]
  | numeral numeral =>
      exact level_of_passes passes fun ch member =>
        ordinary_of_isWordChar (isWordChar_of_isDigit (numeral.digit ch member))
  | word nonempty chars fits =>
      exact level_of_passes passes fun ch member => ordinary_of_isWordChar (chars ch member)

theorem hasTrailingComma_comma {c d : Cursor} (separator : c.Passes [','] d) :
    hasTrailingComma false c.rest = (closesNext d.rest || hasTrailingComma false d.rest) := by
  rw [separator.rest]
  rfl

theorem closesNext_of_close {c c₁ d : Cursor} (gap : c.Blanks c₁) (closes : c₁.Passes [')'] d) :
    closesNext c.rest = true := by
  obtain ⟨blanks, blank, passes⟩ := gap
  refine closesNext_iff.2 ⟨blanks, d.rest, ?_, blank⟩
  rw [passes.rest, closes.rest]
  rfl

/-- A closing parenthesis is not where an expression starts. -/
theorem not_closesNext_of_expression {rules : Rules} {source : Source} {c c₁ d : Cursor} {e : Expr}
    (gap : c.Blanks c₁) (derived : Expression rules source c₁ e d) : closesNext c.rest = false := by
  obtain ⟨ch, rest, starts, kind⟩ := derived.first_char
  have next : (c.rest.dropWhile isBlank).head? = some ch := by
    rw [← Cursor.skipBlank_rest, skipBlank_of_blanks gap derived.atToken, starts]
    rfl
  rw [closesNext, next, beq_eq_false_iff_ne]
  rintro same
  cases same
  rcases kind with quote | word
  · cases quote
  · exact absurd word (by decide)

variable {source : Source}

/-! ## The two languages -/

mutual

/-- In the plain grammar no expression holds a trailing comma. -/
theorem Expression.level {c d : Cursor} {e : Expr} : Expression .plain source c e d → Level c d
  | .token lexeme passes => level_of_lexeme lexeme passes
  | .apply head gap list => head.level.trans ((level_of_blanks gap).trans list.level)

theorem Arguments.level {c d : Cursor} {es : List Expr} :
    Arguments .plain source c es d → Level c d
  | .none opens gap closes =>
      (level_of_symbol opens (by decide)).trans
        ((level_of_blanks gap).trans (level_of_symbol closes (by decide)))
  | .some opens gap first more =>
      (level_of_symbol opens (by decide)).trans
        ((level_of_blanks gap).trans (first.level.trans more.level))

theorem More.level {c d : Cursor} {es : List Expr} : More .plain source c es d → Level c d
  | .close gap closes => (level_of_blanks gap).trans (level_of_symbol closes (by decide))
  | .comma allowed _ _ _ _ => allowed.elim
  | .argument gap separator gap' next more => by
      refine (level_of_blanks gap).trans ?_
      rw [hasTrailingComma_comma separator, not_closesNext_of_expression gap' next,
        Bool.false_or]
      exact (level_of_blanks gap').trans (next.level.trans more.level)

end

theorem Lexeme.plain {t : Token} {following : List Char} :
    Lexeme .exact t following → Lexeme .plain t following
  | .string closed => .string closed
  | .numeral digits => .numeral digits
  | .word nonempty chars _ => .word nonempty chars trivial

mutual

/-- What is derived from a text without trailing commas is derived in the plain grammar. -/
theorem Expression.plain {c d : Cursor} {e : Expr} (clean : hasTrailingComma false c.rest = false) :
    Expression .exact source c e d → Expression .plain source c e d
  | .token lexeme passes => .token lexeme.plain passes
  | .apply head gap list => by
      have head' := head.plain clean
      have after : hasTrailingComma false _ = false :=
        (head'.level.trans (level_of_blanks gap)).symm.trans clean
      exact .apply head' gap (list.plain after)

theorem Arguments.plain {c d : Cursor} {es : List Expr}
    (clean : hasTrailingComma false c.rest = false) :
    Arguments .exact source c es d → Arguments .plain source c es d
  | .none opens gap closes => .none opens gap closes
  | .some opens gap first more => by
      have inside : hasTrailingComma false _ = false :=
        ((level_of_symbol opens (by decide)).trans (level_of_blanks gap)).symm.trans clean
      have first' := first.plain inside
      have after : hasTrailingComma false _ = false := first'.level.symm.trans inside
      exact .some opens gap first' (more.plain after)

theorem More.plain {c d : Cursor} {es : List Expr} (clean : hasTrailingComma false c.rest = false) :
    More .exact source c es d → More .plain source c es d
  | .close gap closes => .close gap closes
  | .comma _ gap separator gap' closes => by
      -- The scan would have found this comma.
      have before : hasTrailingComma false _ = false := (level_of_blanks gap).symm.trans clean
      rw [hasTrailingComma_comma separator, closesNext_of_close gap' closes] at before
      cases before
  | .argument gap separator gap' next more => by
      have before : hasTrailingComma false _ = false := (level_of_blanks gap).symm.trans clean
      rw [hasTrailingComma_comma separator, not_closesNext_of_expression gap' next,
        Bool.false_or] at before
      have inside : hasTrailingComma false _ = false := (level_of_blanks gap').symm.trans before
      have next' := next.plain inside
      have after : hasTrailingComma false _ = false := next'.level.symm.trans inside
      exact .argument gap separator gap' next' (more.plain after)

end

theorem Program.not_trailingComma {e : Expr} (program : Program .plain source e) :
    ¬ TrailingComma source.text.toList := by
  obtain ⟨c, d, stop, before, derived, after, ended⟩ := program
  have level : Level ⟨0, source.text.toList⟩ stop :=
    (level_of_blanks before).trans (derived.level.trans (level_of_blanks after))
  rw [not_trailingComma_iff]
  rw [Level, ended] at level
  exact level

theorem Program.plain {e : Expr} (program : Program .exact source e)
    (clean : ¬ TrailingComma source.text.toList) : Program .plain source e := by
  obtain ⟨c, d, stop, before, derived, after, ended⟩ := program
  have start : hasTrailingComma false c.rest = false :=
    (level_of_blanks before).symm.trans (not_trailingComma_iff.1 clean)
  exact ⟨c, d, stop, before, derived.plain start, after, ended⟩

end Grammar

namespace Expr

open Grammar

/-- **What the plain grammar lacks.**  A text that is read is derived in the plain
grammar exactly if it has no trailing comma, and then the tree that is read is among
those it derives. -/
theorem plain_iff_of_parse {n : Nat} {source : Source} {e : Expr}
    (parsed : parse n source = .ok e) :
    ((∃ d, Program .plain source d) ↔ ¬ TrailingComma source.text.toList) ∧
      (Program .plain source e ↔ ¬ TrailingComma source.text.toList) := by
  have program := (parse_ok_iff.1 parsed).1
  refine ⟨⟨?_, fun clean => ⟨e, program.plain clean⟩⟩, fun plain => plain.not_trailingComma,
    program.plain⟩
  rintro ⟨d, plain⟩
  exact plain.not_trailingComma

/-- The tree of `f(1,)`, a text with a trailing comma. -/
def afterComma (source : Source) : Expr :=
  .apply (.word "f" ⟨0, 1, some source⟩) [.literal (.int 1) ⟨2, 3, some source⟩] ⟨0, 5, some source⟩

theorem parse_afterComma : parse 2 ⟨0, "f(1,)"⟩ = .ok (afterComma ⟨0, "f(1,)"⟩) := by
  have f : Lexeme .exact (.word ['f']) ['(', '1', ',', ')'] :=
    Token.lexeme_of_read? (show Token.read? ['f', '(', '1', ',', ')'] = _ from rfl)
  have one : Lexeme .exact (.numeral ['1']) [',', ')'] :=
    Token.lexeme_of_read? (show Token.read? ['1', ',', ')'] = _ from rfl)
  have head : Expression .exact ⟨0, "f(1,)"⟩ ⟨0, _⟩ _ ⟨1, _⟩ := .token f ⟨rfl, rfl⟩
  have argument : Expression .exact ⟨0, "f(1,)"⟩ ⟨2, ['1', ',', ')']⟩
      (.literal (.int 1) ⟨2, 3, some ⟨0, "f(1,)"⟩⟩) ⟨3, [',', ')']⟩ := by
    have value : Number.ofDigits ['1'] = 1 := Number.ofDigits_eq ['1']
    have derived : Expression .exact ⟨0, "f(1,)"⟩ ⟨2, ['1', ',', ')']⟩ _ ⟨3, [',', ')']⟩ :=
      .token one ⟨rfl, rfl⟩
    rwa [Token.node, value] at derived
  have list := Arguments.some (Cursor.passes_cons 1 '(' _) (.refl _) argument
    (.comma trivial (.refl _) (Cursor.passes_cons 3 ',' _) (.refl _) (Cursor.passes_cons 4 ')' []))
  have program : Program .exact ⟨0, "f(1,)"⟩ (afterComma ⟨0, "f(1,)"⟩) :=
    ⟨_, _, _, .refl _, .apply head (.refl _) list, .refl _, rfl⟩
  exact parse_ok_iff.2 ⟨program, by decide⟩

theorem plain_iff_of_parse_afterComma :
    parse 2 ⟨0, "f(1,)"⟩ = .ok (afterComma ⟨0, "f(1,)"⟩) ∧
      ((∃ d, Program .plain ⟨0, "f(1,)"⟩ d) ↔ ¬ TrailingComma "f(1,)".toList) ∧
      (Program .plain ⟨0, "f(1,)"⟩ (afterComma ⟨0, "f(1,)"⟩) ↔ ¬ TrailingComma "f(1,)".toList) :=
  ⟨parse_afterComma, plain_iff_of_parse parse_afterComma⟩

/-- A text that is read and that the plain grammar does not derive. -/
theorem parse_not_plain :
    (∃ e, parse 2 ⟨0, "f(1,)"⟩ = .ok e) ∧ ¬ ∃ d, Program .plain ⟨0, "f(1,)"⟩ d := by
  refine ⟨⟨_, parse_afterComma⟩, ?_⟩
  rintro ⟨d, plain⟩
  exact plain.not_trailingComma (by decide)

end Expr

end EggLanguage
