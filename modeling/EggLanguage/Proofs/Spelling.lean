/-
# EggLanguage.Proofs.Spelling -- writing an expression and reading it back

The expressions that program texts denote are the well-formed ones
(`Expr.WellFormed`): they hold no value that has no literal and no name that is
not one word.  `Expr.parse_text` says that reading gives back what was written,
for exactly these expressions.

The argument goes through the grammar.  What is written for a well-formed
expression is derived from it wherever no word character follows
(`WellFormed.derived`), and what is derived is well-formed
(`Expression.wellFormed`).  Both rest on one fact about words: whether a name is
read as one word does not depend on what follows it (`Lexical.isWholeWord`,
`lexical_of_isWholeWord`).
-/
import EggLanguage.Proofs.Reading

namespace EggLanguage

set_option autoImplicit false

open EggLanguage.Text EggLanguage.Grammar

/-! ## Names that are words -/

/-- A name that is one word wherever it stands.  A name that starts with digits goes
on with an ASCII letter or an underscore, or else the digits would be a numeral. -/
structure Lexical (name : List Char) : Prop where
  nonempty : name ≠ []
  chars : ∀ c ∈ name, isWordChar c = true
  afterDigits : ∀ d rest, name = d :: rest → d.isDigit = true →
    ∃ c more, name.dropWhile Char.isDigit = c :: more ∧ (c.isAlpha = true ∨ c = '_')

theorem lexical_of_first {first : Char} {rest : List Char}
    (chars : (first :: rest).all isWordChar = true) (noDigit : first.isDigit = false) :
    Lexical (first :: rest) where
  nonempty := List.cons_ne_nil first rest
  chars := List.all_eq_true.1 chars
  afterDigits d rest' split digit := by
    cases split
    cases noDigit.symm.trans digit

theorem isIdentifierChar_iff {c : Char} :
    isIdentifierChar c = true ↔ (c.isAlpha = true ∨ c = '_') ∨ c.isDigit = true := by
  simp only [isIdentifierChar, Char.isAlphanum, Bool.or_eq_true, beq_iff_eq]
  exact or_right_comm

/-- The digits of a numeral are all the digits that a text starts with. -/
theorem Grammar.IsNumeral.eq_takeWhile {digits rest : List Char} (numeral : IsNumeral digits rest) :
    (digits ++ rest).takeWhile Char.isDigit = digits ∧
      (digits ++ rest).dropWhile Char.isDigit = rest := by
  refine Token.takeWhile_append_of_stop numeral.digit fun c follows => ?_
  refine Bool.eq_false_iff.2 fun digit => ?_
  have identifier := isIdentifierChar_of_isDigit digit
  rw [numeral.ends c follows] at identifier
  cases identifier

theorem Lexical.isWholeWord {name following : List Char} (lexical : Lexical name)
    (boundary : ∀ c, following.head? = some c → isWordChar c = false) :
    IsWholeWord name following where
  maximal := boundary
  noNumeral := by
    intro digits rest split numeral
    obtain ⟨d, ds, rfl⟩ := List.exists_cons_of_ne_nil numeral.nonempty
    obtain ⟨a, name, rfl⟩ := List.exists_cons_of_ne_nil lexical.nonempty
    have head : a = d := (List.cons.inj split).1
    subst head
    obtain ⟨c, more, goesOn, letter⟩ :=
      lexical.afterDigits a name rfl (numeral.digit a List.mem_cons_self)
    -- The name holds a character after its digits, so the numeral ends within it.
    have ends : rest = c :: (more ++ following) := by
      rw [← numeral.eq_takeWhile.2, ← split, List.dropWhile_append, goesOn]
      rfl
    have identifier : isIdentifierChar c = true := isIdentifierChar_iff.2 (.inl letter)
    rw [numeral.ends c (by rw [ends]; rfl)] at identifier
    cases identifier

theorem lexical_of_isWholeWord {name following : List Char} (nonempty : name ≠ [])
    (chars : ∀ c ∈ name, isWordChar c = true) (whole : IsWholeWord name following) :
    Lexical name where
  nonempty := nonempty
  chars := chars
  afterDigits := by
    intro d rest starts digit
    have split : name ++ following =
        name.takeWhile Char.isDigit ++ (name.dropWhile Char.isDigit ++ following) := by
      rw [← List.append_assoc, List.takeWhile_append_dropWhile]
    have digits : name.takeWhile Char.isDigit ≠ [] := by
      rw [starts, List.takeWhile_cons_of_pos digit]
      exact List.cons_ne_nil _ _
    have notNumeral := whole.noNumeral _ _ split
    cases goesOn : name.dropWhile Char.isDigit with
    | nil =>
        refine absurd ⟨digits, List.all_eq_true.1 List.all_takeWhile, ?_⟩ notNumeral
        rw [goesOn]
        intro c follows
        refine Bool.eq_false_iff.2 fun identifier => ?_
        have char := isWordChar_of_isIdentifierChar identifier
        rw [whole.maximal c follows] at char
        cases char
    | cons c more =>
        refine ⟨c, more, rfl, Decidable.not_not.1 fun other => ?_⟩
        refine notNumeral ⟨digits, List.all_eq_true.1 List.all_takeWhile, ?_⟩
        rw [goesOn]
        rintro c' follows
        cases follows
        have notDigit : c.isDigit = false := by
          have stopped := List.head?_dropWhile_not Char.isDigit name
          rw [goesOn] at stopped
          simpa using stopped
        refine Bool.eq_false_iff.2 fun identifier => ?_
        rcases isIdentifierChar_iff.1 identifier with letter | digit'
        · exact other letter
        · rw [notDigit] at digit'
          cases digit'

/-! ## Well-formed expressions -/

namespace Expr

mutual

/-- Whether an expression is one that program texts denote: its literals are strings
without quotes and whole numbers without a sign, and its names are words. -/
def WellFormed : Expr → Prop
  | literal (.int n) _ => 0 ≤ n
  | literal (.string s) _ => '"' ∉ s.toList
  | literal _ _ => False
  | word name _ => Lexical name.toList
  | apply operator args _ => operator.WellFormed ∧ AreWellFormed args
  | function _ _ _ _ _ _ => False
  | abstract => False

def AreWellFormed : List Expr → Prop
  | [] => True
  | e :: rest => e.WellFormed ∧ AreWellFormed rest

end

mutual

theorem WellFormed.isConcrete : ∀ {e : Expr}, e.WellFormed → e.isConcrete = true
  | literal _ _, _ => rfl
  | word _ _, _ => rfl
  | apply _ _ _, formed => by
      simp only [Expr.isConcrete, formed.1.isConcrete, AreWellFormed.areConcrete formed.2,
        Bool.and_self]
  | function _ _ _ _ _ _, formed => formed.elim
  | abstract, formed => formed.elim

theorem AreWellFormed.areConcrete : ∀ {es : List Expr}, AreWellFormed es → areConcrete es = true
  | [], _ => rfl
  | _ :: _, formed => by
      simp only [Expr.areConcrete, formed.1.isConcrete, AreWellFormed.areConcrete formed.2,
        Bool.and_self]

end

mutual

theorem nesting_eq_of_same : ∀ {a b : Expr}, a.same b = true → a.nesting = b.nesting
  | literal _ _, literal _ _, _ => rfl
  | word _ _, word _ _, _ => rfl
  | apply f as _, apply g bs _, equal => by
      simp only [same, Bool.and_eq_true] at equal
      simp only [nesting, nesting_eq_of_same equal.1, nestingOfArgs_eq_of_same equal.2]
  | function _ _ _ _ _ _, function _ _ _ _ _ _, _ => rfl

theorem nestingOfArgs_eq_of_same : ∀ {as bs : List Expr}, sameArgs as bs = true →
    nestingOfArgs as = nestingOfArgs bs
  | [], [], _ => rfl
  | a :: as, b :: bs, equal => by
      simp only [sameArgs, Bool.and_eq_true] at equal
      simp only [nestingOfArgs, nesting_eq_of_same equal.1, nestingOfArgs_eq_of_same equal.2]

end

theorem WellFormed.text_eq {e : Expr} (formed : e.WellFormed) {limit : Nat}
    (room : e.height ≤ limit) : e.text limit = .ok (String.ofList e.spelling) := by
  rw [text, if_neg (by omega), if_pos formed.isConcrete]

end Expr

/-! ## What is derived is well-formed -/

namespace Grammar

variable {source : Source}

theorem Lexeme.wellFormed {t : Token} {following : List Char}
    (lexeme : Lexeme .exact t following) (span : Span) : (t.node span).WellFormed := by
  cases lexeme with
  | string closed => simpa [Token.node, Expr.WellFormed] using closed
  | numeral numeral => exact Int.natCast_nonneg _
  | word nonempty chars fits =>
      simpa [Token.node, Expr.WellFormed] using lexical_of_isWholeWord nonempty chars fits

mutual

theorem Expression.wellFormed {c d : Cursor} {e : Expr} :
    Expression .exact source c e d → e.WellFormed
  | .token lexeme _ => lexeme.wellFormed _
  | .apply head _ list => ⟨head.wellFormed, list.wellFormed⟩

theorem Arguments.wellFormed {c d : Cursor} {es : List Expr} :
    Arguments .exact source c es d → Expr.AreWellFormed es
  | .none _ _ _ => trivial
  | .some _ _ first more => ⟨first.wellFormed, more.wellFormed⟩

theorem More.wellFormed {c d : Cursor} {es : List Expr} :
    More .exact source c es d → Expr.AreWellFormed es
  | .close _ _ => trivial
  | .comma _ _ _ _ _ => trivial
  | .argument _ _ _ next more => ⟨next.wellFormed, more.wellFormed⟩

end

end Grammar

/-! ## What is written is derived -/

/-- No word goes on at a place. -/
def Text.Cursor.EndsWord (c : Cursor) : Prop :=
  ∀ ch, c.rest.head? = some ch → isWordChar ch = false

theorem Text.Cursor.Passes.endsWord {c d : Cursor} {ch : Char} {chars : List Char}
    (passes : c.Passes (ch :: chars) d) (outside : isWordChar ch = false) : c.EndsWord := by
  intro ch' follows
  rw [passes.rest] at follows
  cases follows
  exact outside

namespace Expr

variable {source : Source}

/-- What is written after an argument starts with a comma or a parenthesis. -/
theorem spellMoreArgs_cons (es : List Expr) :
    ∃ ch chars, spellMoreArgs es = ch :: chars ∧ isWordChar ch = false := by
  cases es with
  | nil => exact ⟨')', [], rfl, by decide⟩
  | cons e rest => exact ⟨',', _, rfl, by decide⟩

theorem derived_of_token (source : Source) (span : Span) {t : Token} {c d : Cursor}
    (lexeme : Lexeme .exact t d.rest) (passes : c.Passes t.spelling d) :
    ∃ e, Expression .exact source c e d ∧ e.same (t.node span) = true :=
  ⟨_, .token lexeme passes, same_node t _ _⟩

mutual

/-- What is written for a well-formed expression denotes the same expression, where
no word goes on after it. -/
theorem WellFormed.derived {c d : Cursor} (boundary : d.EndsWord) :
    ∀ {e : Expr}, e.WellFormed → c.Passes e.spelling d →
      ∃ e', Expression .exact source c e' d ∧ e'.same e = true
  | literal (.int (.ofNat n)) span, _, passes => by
      have numeral : IsNumeral (Number.digits n) d.rest :=
        ⟨Number.digits_ne_nil n, fun _ => Number.isDigit_of_mem_digits, fun ch follows => by
          refine Bool.eq_false_iff.2 fun identifier => ?_
          have char := isWordChar_of_isIdentifierChar identifier
          rw [boundary ch follows] at char
          cases char⟩
      have read := derived_of_token source span (.numeral numeral) passes
      rwa [Token.node, Number.ofDigits_digits] at read
  | literal (.int (.negSucc _)) _, formed, _ => by
      simp only [WellFormed] at formed
      omega
  | literal (.string s) span, closed, passes => by
      have read := derived_of_token source span (.string closed) passes
      rwa [Token.node, String.ofList_toList] at read
  | literal (.float _) _, formed, _ => formed.elim
  | literal (.bool _) _, formed, _ => formed.elim
  | literal (.builtin _) _, formed, _ => formed.elim
  | word name span, lexical, passes => by
      have lexeme : Lexeme .exact (.word name.toList) d.rest :=
        .word lexical.nonempty lexical.chars (lexical.isWholeWord boundary)
      have read := derived_of_token source span lexeme passes
      rwa [Token.node, String.ofList_toList] at read
  | apply operator args _, formed, passes => by
      obtain ⟨c₁, before, list⟩ := passes.split
      obtain ⟨f, head, sameHead⟩ := formed.1.derived (list.endsWord (by decide)) before
      obtain ⟨as, derived, sameList⟩ := AreWellFormed.derived formed.2 list
      refine ⟨_, .apply head (.refl c₁) derived, ?_⟩
      simp [same, sameHead, sameList]
  | function _ _ _ _ _ _, formed, _ => formed.elim
  | abstract, formed, _ => formed.elim

theorem AreWellFormed.derived {c d : Cursor} : ∀ {es : List Expr}, AreWellFormed es →
    c.Passes ('(' :: spellArgs es) d →
      ∃ es', Arguments .exact source c es' d ∧ sameArgs es' es = true
  | [], _, passes => by
      obtain ⟨c₁, opens, closes⟩ := passes.uncons
      exact ⟨[], .none opens (.refl c₁) closes, rfl⟩
  | e :: rest, formed, passes => by
      obtain ⟨c₁, opens, inside⟩ := passes.uncons
      obtain ⟨c₂, first, others⟩ := inside.split
      obtain ⟨ch, chars, starts, outside⟩ := spellMoreArgs_cons rest
      have boundary : c₂.EndsWord := Cursor.Passes.endsWord (starts ▸ others) outside
      obtain ⟨e', argument, sameFirst⟩ := formed.1.derived boundary first
      obtain ⟨rest', more, sameRest⟩ := AreWellFormed.derivedMore formed.2 others
      refine ⟨e' :: rest', .some opens (.refl c₁) argument more, ?_⟩
      simp [sameArgs, sameFirst, sameRest]

theorem AreWellFormed.derivedMore {c d : Cursor} : ∀ {es : List Expr}, AreWellFormed es →
    c.Passes (spellMoreArgs es) d →
      ∃ es', More .exact source c es' d ∧ sameArgs es' es = true
  | [], _, closes => ⟨[], .close (.refl c) closes, rfl⟩
  | e :: rest, formed, passes => by
      obtain ⟨c₁, separator, after⟩ := passes.uncons
      obtain ⟨c₂, blank, inside⟩ := after.uncons
      obtain ⟨c₃, next, others⟩ := inside.split
      obtain ⟨ch, chars, starts, outside⟩ := spellMoreArgs_cons rest
      have boundary : c₃.EndsWord := Cursor.Passes.endsWord (starts ▸ others) outside
      have gap : c₁.Blanks c₂ := ⟨[' '], List.forall_mem_singleton.2 rfl, blank⟩
      obtain ⟨e', argument, sameNext⟩ := formed.1.derived boundary next
      obtain ⟨rest', more, sameRest⟩ := AreWellFormed.derivedMore formed.2 others
      refine ⟨e' :: rest', .argument (.refl c) separator gap argument more, ?_⟩
      simp [sameArgs, sameNext, sameRest]

end

/-- Reading what is written for a well-formed expression gives the same expression. -/
theorem WellFormed.parse_spelling {e : Expr} (formed : e.WellFormed) {n : Nat}
    (room : e.nesting < n) {source : Source} (written : source.text.toList = e.spelling) :
    ∃ e', parse n source = .ok e' ∧ e'.same e = true := by
  have passes : (⟨0, source.text.toList⟩ : Cursor).Passes e.spelling ⟨e.spelling.length, []⟩ :=
    ⟨by rw [written, List.append_nil], (Nat.zero_add _).symm⟩
  obtain ⟨e', derived, equal⟩ := formed.derived (fun _ follows => by cases follows) passes
  have program : Program .exact source e' := ⟨_, _, _, .refl _, derived, .refl _, rfl⟩
  exact ⟨e', parse_ok_iff.2 ⟨program, nesting_eq_of_same equal ▸ room⟩, equal⟩

theorem wellFormed_of_parse {n : Nat} {source : Source} {e : Expr}
    (parsed : parse n source = .ok e) : e.WellFormed := by
  obtain ⟨c, d, stop, -, derived, -⟩ := (parse_ok_iff.1 parsed).1
  exact derived.wellFormed

/-- **Writing and reading are inverse on what is read.**  Every well-formed expression
has a text, and every source of that text is read as the same expression, where the
stack has room for it.  What is read from any source is well-formed; so it, too, is
read back from its text, with the room that the first reading had. -/
theorem parse_text :
    (∀ e : Expr, e.WellFormed →
      ∃ text, (∀ limit, e.height ≤ limit → e.text limit = .ok text) ∧
        ∀ n source, source.text = text → e.nesting < n →
          ∃ e', parse n source = .ok e' ∧ e'.same e = true) ∧
    (∀ n source e, parse n source = .ok e →
      e.WellFormed ∧ ∃ text, (∀ limit, e.height ≤ limit → e.text limit = .ok text) ∧
        ∀ source' : Source, source'.text = text →
          ∃ e', parse n source' = .ok e' ∧ e'.same e = true) := by
  have readBack : ∀ {e : Expr}, e.WellFormed → ∀ n (source : Source),
      source.text = String.ofList e.spelling → e.nesting < n →
        ∃ e', parse n source = .ok e' ∧ e'.same e = true := by
    intro e formed n source written room
    exact formed.parse_spelling room (by rw [written, String.toList_ofList])
  constructor
  · intro e formed
    exact ⟨_, fun limit => formed.text_eq, readBack formed⟩
  · intro n source e parsed
    have formed := wellFormed_of_parse parsed
    refine ⟨formed, _, fun limit => formed.text_eq, fun source' written => ?_⟩
    exact readBack formed n source' written (parse_ok_iff.1 parsed).2

end Expr

end EggLanguage
