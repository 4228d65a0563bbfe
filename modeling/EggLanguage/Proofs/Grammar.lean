/-
# EggLanguage.Proofs.Grammar -- the language that programs are written in

The reader of `EggLanguage.Expr.Parser` is made of loops over a text.  This module
says without loops which texts are programs and which tree each of them denotes:

    program     = blanks expression blanks
    expression  = string | numeral | word | expression blanks arguments
    arguments   = "(" blanks ")" | "(" blanks expression more
    more        = blanks ")" | blanks "," blanks ")" | blanks "," blanks expression more

Each category is a relation between two places of a text and what stands between
them (`Cursor.Passes`), so that a derivation also fixes the span of every node.

A `Rules` settles two points.  Under `Rules.exact` a word ends where its run of
word characters does, it must not start with a numeral, and a comma may follow the
last argument: this is the language that is read.  Under `Rules.plain` any run of
word characters is a word, and a comma stands between two arguments only.
-/
import EggLanguage.Expr.Parser

namespace EggLanguage

set_option autoImplicit false

open EggLanguage.Text

/-! ## What stands between two places -/

namespace Text.Cursor

/-- Exactly the characters `chars` stand between the places `c` and `d`. -/
structure Passes (c : Cursor) (chars : List Char) (d : Cursor) : Prop where
  rest : c.rest = chars ++ d.rest
  position : d.position = c.position + chars.length

/-- Nothing but blanks stands between two places. -/
def Blanks (c d : Cursor) : Prop :=
  ∃ blanks : List Char, (∀ b ∈ blanks, isBlank b = true) ∧ c.Passes blanks d

theorem Passes.nil (c : Cursor) : c.Passes [] c :=
  ⟨rfl, rfl⟩

theorem Passes.append {c d e : Cursor} {xs ys : List Char} (first : c.Passes xs d)
    (second : d.Passes ys e) : c.Passes (xs ++ ys) e where
  rest := by rw [first.rest, second.rest, List.append_assoc]
  position := by rw [second.position, first.position, List.length_append, Nat.add_assoc]

/-- No place is beyond the end: the position and what remains make up the same length. -/
theorem Passes.position_add {c d : Cursor} {chars : List Char} (passes : c.Passes chars d) :
    d.position + d.rest.length = c.position + c.rest.length := by
  rw [passes.position, passes.rest, List.length_append, Nat.add_assoc]

/-- There is a place after the first characters of what stands between two places. -/
theorem Passes.split {c e : Cursor} {xs ys : List Char} (passes : c.Passes (xs ++ ys) e) :
    ∃ d, c.Passes xs d ∧ d.Passes ys e := by
  refine ⟨⟨c.position + xs.length, ys ++ e.rest⟩, ⟨?_, rfl⟩, ⟨rfl, ?_⟩⟩
  · rw [passes.rest, List.append_assoc]
  · rw [passes.position, List.length_append, Nat.add_assoc]

theorem Passes.uncons {c e : Cursor} {ch : Char} {chars : List Char}
    (passes : c.Passes (ch :: chars) e) : ∃ d, c.Passes [ch] d ∧ d.Passes chars e :=
  Passes.split (show c.Passes ([ch] ++ chars) e from passes)

theorem passes_cons (position : Nat) (ch : Char) (after : List Char) :
    Passes ⟨position, ch :: after⟩ [ch] ⟨position + 1, after⟩ :=
  ⟨rfl, rfl⟩

theorem passes_singleton_iff {c d : Cursor} {ch : Char} :
    c.Passes [ch] d ↔ ∃ after, c.rest = ch :: after ∧ d = ⟨c.position + 1, after⟩ := by
  constructor
  · rintro ⟨follows, moved⟩
    obtain ⟨position, after⟩ := d
    cases moved
    exact ⟨after, follows, rfl⟩
  · rintro ⟨after, follows, rfl⟩
    exact ⟨follows, rfl⟩

theorem Passes.ne_cons {c d : Cursor} {ch other : Char} (passes : c.Passes [ch] d)
    (differs : ch ≠ other) : ∀ after, c.rest ≠ other :: after := fun after follows => by
  rw [passes.rest] at follows
  exact differs (List.cons.inj follows).1

/-- Less of the text remains behind a symbol and the blanks after it. -/
theorem Passes.skipBlank_length_lt {c d : Cursor} {ch : Char} (passes : c.Passes [ch] d) :
    d.skipBlank.rest.length < c.rest.length := by
  have skipped := skipBlank_length_le d
  rw [passes.rest, List.length_append, List.length_singleton]
  omega

theorem Blanks.refl (c : Cursor) : c.Blanks c :=
  ⟨[], by simp, .nil c⟩

theorem Blanks.trans {c d e : Cursor} (first : c.Blanks d) (second : d.Blanks e) : c.Blanks e := by
  obtain ⟨xs, blank, passes⟩ := first
  obtain ⟨ys, blank', passes'⟩ := second
  refine ⟨xs ++ ys, fun b member => ?_, passes.append passes'⟩
  rcases List.mem_append.1 member with left | right
  · exact blank b left
  · exact blank' b right

theorem skipBlankFrom_eq (position : Nat) (rest : List Char) :
    skipBlankFrom position rest =
      ⟨position + (rest.takeWhile isBlank).length, rest.dropWhile isBlank⟩ := by
  induction rest generalizing position with
  | nil => rfl
  | cons c rest ih =>
      by_cases blank : isBlank c
      · simp only [skipBlankFrom, blank, if_true, ih, List.takeWhile_cons_of_pos,
          List.dropWhile_cons_of_pos, List.length_cons, mk.injEq, and_true]
        omega
      · simp [skipBlankFrom, blank]

/-- Skipping blanks passes over blanks. -/
theorem blanks_skipBlank (c : Cursor) : c.Blanks c.skipBlank := by
  rw [skipBlank, skipBlankFrom_eq]
  exact ⟨c.rest.takeWhile isBlank, List.all_eq_true.1 List.all_takeWhile,
    List.takeWhile_append_dropWhile.symm, rfl⟩

theorem Passes.skipBlank {c d : Cursor} {chars : List Char} (passes : c.Passes chars d) :
    ∃ more, c.Passes more d.skipBlank := by
  obtain ⟨_, -, blanks⟩ := blanks_skipBlank d
  exact ⟨_, passes.append blanks⟩

/-- Blanks lead to one place: the next token. -/
theorem Blanks.skipBlank_eq {c d : Cursor} (gap : c.Blanks d) : c.skipBlank = d.skipBlank := by
  obtain ⟨blanks, blank, passes⟩ := gap
  simp only [skipBlank, skipBlankFrom_eq, passes.rest, passes.position,
    List.takeWhile_append_of_pos blank, List.dropWhile_append_of_pos blank, List.length_append,
    Nat.add_assoc]

/-- No blank follows a place. -/
def AtToken (c : Cursor) : Prop :=
  ∀ d, c.rest.head? = some d → isBlank d = false

theorem AtToken.skipBlank_eq {c : Cursor} (ready : c.AtToken) : c.skipBlank = c := by
  obtain ⟨position, rest⟩ := c
  cases rest with
  | nil => rfl
  | cons d rest =>
      have notBlank := ready d rfl
      simp [skipBlank, skipBlankFrom, notBlank]

end Text.Cursor

namespace Grammar

/-! ## Tokens -/

/-- A run of ASCII digits that the following text lets end as a numeral. -/
structure IsNumeral (digits following : List Char) : Prop where
  nonempty : digits ≠ []
  digit : ∀ d ∈ digits, d.isDigit = true
  ends : ∀ c, following.head? = some c → isIdentifierChar c = false

/-- A run of word characters is as long as it can be and starts with no numeral. -/
structure IsWholeWord (name following : List Char) : Prop where
  maximal : ∀ c, following.head? = some c → isWordChar c = false
  noNumeral : ∀ digits rest, name ++ following = digits ++ rest → ¬ IsNumeral digits rest

/-- What the grammar leaves to be settled. -/
structure Rules where
  /-- Whether a run of word characters before a text may be a word. -/
  IsWord : (name following : List Char) → Prop
  /-- Whether a comma may follow the last argument. -/
  TrailingComma : Prop

/-- The rules of the language that is read. -/
def Rules.exact : Rules :=
  ⟨IsWholeWord, True⟩

/-- The rules of a grammar in which commas only separate and any run of word
characters is a word. -/
def Rules.plain : Rules :=
  ⟨fun _ _ => True, False⟩

/-- The tokens that are expressions of their own, before a text. -/
inductive Lexeme (rules : Rules) : Token → (following : List Char) → Prop where
  | string {content following : List Char} (closed : '"' ∉ content) :
      Lexeme rules (.string content) following
  | numeral {digits following : List Char} (numeral : IsNumeral digits following) :
      Lexeme rules (.numeral digits) following
  | word {name following : List Char} (nonempty : name ≠ [])
      (chars : ∀ c ∈ name, isWordChar c = true) (fits : rules.IsWord name following) :
      Lexeme rules (.word name) following

/-- The node of a token does not depend on its span, up to spans. -/
theorem same_node (t : Token) (span span' : Span) :
    (t.node span).same (t.node span') = true := by
  cases t <;> simp [Token.node, Expr.same, Constant.same]

/-! ## Expressions -/

mutual

/-- An expression of a source between two places, and the tree it denotes. -/
inductive Expression (rules : Rules) (source : Source) : Cursor → Expr → Cursor → Prop where
  | token {c d : Cursor} {t : Token} (lexeme : Lexeme rules t d.rest)
      (passes : c.Passes t.spelling d) :
      Expression rules source c (t.node ⟨c.position, d.position, some source⟩) d
  | apply {c c₁ c₂ d : Cursor} {operator : Expr} {args : List Expr}
      (head : Expression rules source c operator c₁) (gap : c₁.Blanks c₂)
      (list : Arguments rules source c₂ args d) :
      Expression rules source c (.apply operator args ⟨c.position, d.position, some source⟩) d

/-- A list of arguments with its parentheses. -/
inductive Arguments (rules : Rules) (source : Source) :
    Cursor → List Expr → Cursor → Prop where
  | none {c c₁ c₂ d : Cursor} (opens : c.Passes ['('] c₁) (gap : c₁.Blanks c₂)
      (closes : c₂.Passes [')'] d) :
      Arguments rules source c [] d
  | some {c c₁ c₂ c₃ d : Cursor} {e : Expr} {es : List Expr} (opens : c.Passes ['('] c₁)
      (gap : c₁.Blanks c₂) (first : Expression rules source c₂ e c₃)
      (more : More rules source c₃ es d) :
      Arguments rules source c (e :: es) d

/-- What may follow an argument: further arguments, and the closing parenthesis. -/
inductive More (rules : Rules) (source : Source) : Cursor → List Expr → Cursor → Prop where
  | close {c c₁ d : Cursor} (gap : c.Blanks c₁) (closes : c₁.Passes [')'] d) :
      More rules source c [] d
  | comma {c c₁ c₂ c₃ d : Cursor} (allowed : rules.TrailingComma) (gap : c.Blanks c₁)
      (separator : c₁.Passes [','] c₂) (gap' : c₂.Blanks c₃) (closes : c₃.Passes [')'] d) :
      More rules source c [] d
  | argument {c c₁ c₂ c₃ c₄ d : Cursor} {e : Expr} {es : List Expr} (gap : c.Blanks c₁)
      (separator : c₁.Passes [','] c₂) (gap' : c₂.Blanks c₃)
      (next : Expression rules source c₃ e c₄) (more : More rules source c₄ es d) :
      More rules source c (e :: es) d

end

/-- A source is one expression, with blanks around it. -/
def Program (rules : Rules) (source : Source) (e : Expr) : Prop :=
  ∃ c d stop : Cursor, (⟨0, source.text.toList⟩ : Cursor).Blanks c ∧
    Expression rules source c e d ∧ d.Blanks stop ∧ stop.rest = []

variable {rules : Rules} {source : Source}

/-! ## The places of a derivation -/

theorem Lexeme.first_char {t : Token} {following : List Char} (lexeme : Lexeme rules t following) :
    ∃ d rest, t.spelling = d :: rest ∧ (d = '"' ∨ isWordChar d = true) := by
  cases lexeme with
  | string closed => exact ⟨'"', _, rfl, .inl rfl⟩
  | @numeral digits _ numeral =>
      obtain ⟨d, ds, rfl⟩ := List.exists_cons_of_ne_nil numeral.nonempty
      exact ⟨d, ds, rfl, .inr (isWordChar_of_isDigit (numeral.digit d List.mem_cons_self))⟩
  | @word name _ nonempty chars fits =>
      obtain ⟨d, ds, rfl⟩ := List.exists_cons_of_ne_nil nonempty
      exact ⟨d, ds, rfl, .inr (chars d List.mem_cons_self)⟩

theorem Expression.first_char {c d : Cursor} {e : Expr} :
    Expression rules source c e d →
      ∃ ch rest, c.rest = ch :: rest ∧ (ch = '"' ∨ isWordChar ch = true)
  | .token lexeme passes => by
      obtain ⟨ch, rest, spelled, kind⟩ := lexeme.first_char
      refine ⟨ch, rest ++ d.rest, ?_, kind⟩
      rw [passes.rest, spelled, List.cons_append]
  | .apply head _ _ => head.first_char

theorem Expression.atToken {c d : Cursor} {e : Expr} (derived : Expression rules source c e d) :
    c.AtToken := by
  obtain ⟨ch, rest, starts, kind⟩ := derived.first_char
  intro ch' follows
  rw [starts] at follows
  cases follows
  rcases kind with rfl | word
  · decide
  · exact not_isBlank_of_isWordChar word

theorem atToken_of_passes {c d : Cursor} {ch : Char} {chars : List Char}
    (passes : c.Passes (ch :: chars) d) (visible : isBlank ch = false) : c.AtToken := by
  intro ch' follows
  rw [passes.rest] at follows
  cases follows
  exact visible

/-- Blanks that end at a token are the blanks that are skipped. -/
theorem skipBlank_of_blanks {c d : Cursor} (gap : c.Blanks d) (token : d.AtToken) :
    c.skipBlank = d :=
  gap.skipBlank_eq.trans token.skipBlank_eq

mutual

/-- A derivation goes forward through the text. -/
theorem Expression.passes {c d : Cursor} {e : Expr} :
    Expression rules source c e d → ∃ chars, c.Passes chars d
  | .token _ passes => ⟨_, passes⟩
  | .apply head gap list => by
      obtain ⟨_, first⟩ := head.passes
      obtain ⟨_, -, blank⟩ := gap
      obtain ⟨_, second⟩ := list.passes
      exact ⟨_, (first.append blank).append second⟩

theorem Arguments.passes {c d : Cursor} {es : List Expr} :
    Arguments rules source c es d → ∃ chars, c.Passes chars d
  | .none opens gap closes => by
      obtain ⟨_, -, blank⟩ := gap
      exact ⟨_, (opens.append blank).append closes⟩
  | .some opens gap first more => by
      obtain ⟨_, -, blank⟩ := gap
      obtain ⟨_, argument⟩ := first.passes
      obtain ⟨_, others⟩ := more.passes
      exact ⟨_, ((opens.append blank).append argument).append others⟩

theorem More.passes {c d : Cursor} {es : List Expr} :
    More rules source c es d → ∃ chars, c.Passes chars d
  | .close gap closes => by
      obtain ⟨_, -, blank⟩ := gap
      exact ⟨_, blank.append closes⟩
  | .comma _ gap separator gap' closes => by
      obtain ⟨_, -, blank⟩ := gap
      obtain ⟨_, -, blank'⟩ := gap'
      exact ⟨_, ((blank.append separator).append blank').append closes⟩
  | .argument gap separator gap' next more => by
      obtain ⟨_, -, blank⟩ := gap
      obtain ⟨_, -, blank'⟩ := gap'
      obtain ⟨_, argument⟩ := next.passes
      obtain ⟨_, others⟩ := more.passes
      exact ⟨_, (((blank.append separator).append blank').append argument).append others⟩

end

end Grammar

end EggLanguage
