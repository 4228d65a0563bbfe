/-
# EggLanguage.Proofs.ViablePrefix -- how much of a text is the start of a program

Where reading fails, the text before the place is the start of a program, and with the character
at the place it is the start of none (`Expr.parse_viable`).  The one exception is a quote that
opens a string: it is blamed for the closing quote that is missing.

Both halves speak of other texts than the one that was read, so what was read is carried over to
them.  What stands between two places stands wherever the same characters stand, provided that
what follows them does not make a word of it longer (`Grammar.Expression.carried`).
`Grammar.StopsAt` is the statement about any place that reading starts from; the loops of the
reader carry it back to the start of the text.
-/
import EggLanguage.Proofs.Spelling

namespace EggLanguage

set_option autoImplicit false

open EggLanguage.Text

namespace Grammar

open EggLanguage.Expr

/-! ## The same characters in another text -/

/-- What may stand after a place instead of what stands there: it starts with the same character,
or with one that makes no word longer. -/
def MayFollow (following following' : List Char) : Prop :=
  ∀ ch, following'.head? = some ch → isWordChar ch = false ∨ following.head? = some ch

theorem MayFollow.prepend {following following' : List Char} (may : MayFollow following following')
    (chars : List Char) : MayFollow (chars ++ following) (chars ++ following') := by
  cases chars with
  | nil => exact may
  | cons first chars => exact fun ch follows => .inr follows

theorem mayFollow_of_head? {following following' : List Char}
    (same : following'.head? = following.head?) : MayFollow following following' :=
  fun _ follows => .inr (same ▸ follows)

theorem ne_cons_of_head? {symbol : Char} {following following' : List Char}
    (other : ∀ after, following ≠ symbol :: after) (same : following'.head? = following.head?) :
    ∀ after, following' ≠ symbol :: after := by
  rintro after rfl
  obtain ⟨after', starts⟩ := List.head?_eq_some_iff.1 same.symm
  exact other after' starts

theorem atToken_of_head? {c c' : Cursor} (token : c.AtToken)
    (same : c'.rest.head? = c.rest.head?) : c'.AtToken :=
  fun ch follows => token ch (same ▸ follows)

theorem Lexeme.follow {t : Token} {following following' : List Char}
    (may : MayFollow following following') :
    Lexeme .exact t following → Lexeme .exact t following'
  | .string closed => .string closed
  | .numeral digits => .numeral
      { digits with
        ends := fun ch follows => by
          obtain outside | same := may ch follows
          · refine Bool.eq_false_iff.2 fun identifier => ?_
            rw [isWordChar_of_isIdentifierChar identifier] at outside
            cases outside
          · exact digits.ends ch same }
  | .word nonempty chars fits => by
      have lexical := lexical_of_isWholeWord nonempty chars fits
      exact .word nonempty chars (lexical.isWholeWord fun ch follows =>
        (may ch follows).elim id (fits.maximal ch))

/-- What is known of two places holds of any two places with the same characters between them, if
what follows them may. -/
def Carried (c d : Cursor) (P : Source → Cursor → Cursor → Prop) : Prop :=
  ∃ chars, c.Passes chars d ∧
    ∀ source c' d', c'.Passes chars d' → MayFollow d.rest d'.rest → P source c' d'

theorem Carried.imp {c d : Cursor} {P Q : Source → Cursor → Cursor → Prop}
    (carried : Carried c d P) (implied : ∀ source c d, P source c d → Q source c d) :
    Carried c d Q := by
  obtain ⟨chars, passes, carries⟩ := carried
  exact ⟨chars, passes, fun source c' d' passes' may => implied _ _ _ (carries source c' d' passes' may)⟩

theorem Carried.trans {c d e : Cursor} {P Q : Source → Cursor → Cursor → Prop}
    (first : Carried c d P) (second : Carried d e Q) :
    Carried c e fun source c e => ∃ d, P source c d ∧ Q source d e := by
  obtain ⟨xs, passes, carries⟩ := first
  obtain ⟨ys, passes', carries'⟩ := second
  refine ⟨xs ++ ys, passes.append passes', fun source c' e' between may => ?_⟩
  obtain ⟨d', before, after⟩ := between.split
  refine ⟨d', carries source c' d' before ?_, carries' source d' e' after may⟩
  rw [passes'.rest, after.rest]
  exact may.prepend ys

theorem carried_of_blanks {c d : Cursor} (gap : c.Blanks d) :
    Carried c d fun _ c d => c.Blanks d := by
  obtain ⟨blanks, blank, passes⟩ := gap
  exact ⟨blanks, passes, fun _ _ _ passes' _ => ⟨blanks, blank, passes'⟩⟩

theorem carried_of_passes {c d : Cursor} {chars : List Char} (passes : c.Passes chars d) :
    Carried c d fun _ c d => c.Passes chars d :=
  ⟨chars, passes, fun _ _ _ passes' _ => passes'⟩

variable {source : Source}

mutual

/-- The same characters are an expression of the same nesting. -/
theorem Expression.carried {c d : Cursor} {e : Expr} : Expression .exact source c e d →
    Carried c d fun source c d =>
      ∃ e', Expression .exact source c e' d ∧ e'.nesting = e.nesting
  | @Expression.token _ _ _ _ t lexeme passes => by
      refine ⟨_, passes, fun source' c' d' passes' may => ⟨_, .token (lexeme.follow may) passes', ?_⟩⟩
      cases t <;> rfl
  | .apply head gap list =>
      ((head.carried.trans (carried_of_blanks gap)).trans list.carried).imp
        fun _ _ _ ⟨_, ⟨_, ⟨_, head', same⟩, gap'⟩, ⟨_, list', same'⟩⟩ =>
          ⟨_, .apply head' gap' list', by rw [nesting, nesting, same, same']⟩

theorem Arguments.carried {c d : Cursor} {es : List Expr} : Arguments .exact source c es d →
    Carried c d fun source c d =>
      ∃ es', Arguments .exact source c es' d ∧ nestingOfArgs es' = nestingOfArgs es
  | .none opens gap closes =>
      (((carried_of_passes opens).trans (carried_of_blanks gap)).trans
        (carried_of_passes closes)).imp
        fun _ _ _ ⟨_, ⟨_, opens', gap'⟩, closes'⟩ => ⟨[], .none opens' gap' closes', rfl⟩
  | .some opens gap first more =>
      ((((carried_of_passes opens).trans (carried_of_blanks gap)).trans first.carried).trans
        more.carried).imp
        fun _ _ _ ⟨_, ⟨_, ⟨_, opens', gap'⟩, ⟨_, first', same⟩⟩, ⟨_, more', same'⟩⟩ =>
          ⟨_, .some opens' gap' first' more', by rw [nestingOfArgs, nestingOfArgs, same, same']⟩

theorem More.carried {c d : Cursor} {es : List Expr} : More .exact source c es d →
    Carried c d fun source c d =>
      ∃ es', More .exact source c es' d ∧ nestingOfArgs es' = nestingOfArgs es
  | .close gap closes =>
      ((carried_of_blanks gap).trans (carried_of_passes closes)).imp
        fun _ _ _ ⟨_, gap', closes'⟩ => ⟨[], .close gap' closes', rfl⟩
  | .comma allowed gap separator between closes =>
      ((((carried_of_blanks gap).trans (carried_of_passes separator)).trans
        (carried_of_blanks between)).trans (carried_of_passes closes)).imp
        fun _ _ _ ⟨_, ⟨_, ⟨_, gap', separator'⟩, between'⟩, closes'⟩ =>
          ⟨[], .comma allowed gap' separator' between' closes', rfl⟩
  | .argument gap separator between next more =>
      (((((carried_of_blanks gap).trans (carried_of_passes separator)).trans
        (carried_of_blanks between)).trans next.carried).trans more.carried).imp
        fun _ _ _ ⟨_, ⟨_, ⟨_, ⟨_, gap', separator'⟩, between'⟩, ⟨_, next', same⟩⟩,
            ⟨_, more', same'⟩⟩ =>
          ⟨_, .argument gap' separator' between' next' more', by
            rw [nestingOfArgs, nestingOfArgs, same, same']⟩

end

theorem Stands.carried {c d : Cursor} {e : Expr} (stands : Stands source c e d) :
    Carried c d fun source c d => ∃ e', Stands source c e' d ∧ e'.nesting = e.nesting := by
  obtain ⟨c₁, d₁, before, derived, after⟩ := stands
  exact (((carried_of_blanks before).trans derived.carried).trans (carried_of_blanks after)).imp
    fun _ _ _ ⟨d₁, ⟨c₁, before', ⟨e', derived', same⟩⟩, after'⟩ =>
      ⟨e', ⟨c₁, d₁, before', derived', after'⟩, same⟩

/-- What is known of two places holds of any two places with the same characters between them,
whatever follows. -/
def CarriedAnywhere (c d : Cursor) (P : Source → Cursor → Cursor → Prop) : Prop :=
  ∃ chars, c.Passes chars d ∧ ∀ source c' d', c'.Passes chars d' → P source c' d'

theorem carriedAnywhere_of_blanks {c d : Cursor} (gap : c.Blanks d) :
    CarriedAnywhere c d fun _ c d => c.Blanks d := by
  obtain ⟨blanks, blank, passes⟩ := gap
  exact ⟨blanks, passes, fun _ _ _ passes' => ⟨blanks, blank, passes'⟩⟩

/-- Where a symbol follows, it decides what may follow. -/
theorem Carried.symbol {c d e : Cursor} {P : Source → Cursor → Cursor → Prop} {symbol : Char}
    (carried : Carried c d P) (passes : d.Passes [symbol] e) :
    CarriedAnywhere c e fun source c e => ∃ d, P source c d ∧ d.Passes [symbol] e := by
  obtain ⟨chars, before, carries⟩ := carried
  refine ⟨chars ++ [symbol], before.append passes, fun source c' e' between => ?_⟩
  obtain ⟨d', before', passes'⟩ := between.split
  refine ⟨d', carries source c' d' before' fun ch follows => .inr ?_, passes'⟩
  rw [passes'.rest] at follows
  rw [passes.rest]
  exact follows

/-! ## Where reading stops -/

/-- Whether a failure blames the quote of a string that is not closed. -/
def OpensString (f : Failure) (ch : Char) : Prop :=
  (∃ rest, f.cause = .noExpression rest) ∧ ch = '"'

/-- Reading from `c` fails at `d`.  The characters up to there can be completed to what is
`Whole`, and a text in which the character at `d` follows them is `Dead`. -/
structure StopsAt (source : Source) (f : Failure) (Whole : Source → Cursor → Cursor → Prop)
    (Dead : Source → Cursor → Prop) (c d : Cursor) : Prop where
  place : ∃ stop, f.place = ⟨some d.position, some stop, some source⟩
  atToken : d.AtToken
  viable : ∃ chars, c.Passes chars d ∧
    (∃ more, ∀ source c' d', c'.Passes (chars ++ more) d' → d'.EndsWord → Whole source c' d') ∧
    ∀ ch, d.rest.head? = some ch → ¬ OpensString f ch →
      ∀ source c' d', c'.Passes chars d' → d'.rest.head? = some ch → Dead source c'

theorem StopsAt.before {f : Failure} {Whole Whole' P : Source → Cursor → Cursor → Prop}
    {Dead Dead' : Source → Cursor → Prop} {c c₁ d : Cursor}
    (stops : StopsAt source f Whole Dead c₁ d) (carried : CarriedAnywhere c c₁ P)
    (whole : ∀ source c c₁ d, P source c c₁ → Whole source c₁ d → Whole' source c d)
    (dead : ∀ source c c₁, P source c c₁ → Dead source c₁ → Dead' source c) :
    StopsAt source f Whole' Dead' c d where
  place := stops.place
  atToken := stops.atToken
  viable := by
    obtain ⟨xs, passes, carries⟩ := carried
    obtain ⟨ys, passes', ⟨more, completes⟩, ends⟩ := stops.viable
    refine ⟨xs ++ ys, passes.append passes', ⟨more, fun source c' d' between endsWord => ?_⟩,
      fun ch follows plain source c' d' between follows' => ?_⟩
    · rw [List.append_assoc] at between
      obtain ⟨c₁', first, second⟩ := between.split
      exact whole _ _ _ _ (carries _ _ _ first) (completes _ _ _ second endsWord)
    · obtain ⟨c₁', first, second⟩ := between.split
      exact dead _ _ _ (carries _ _ _ first) (ends ch follows plain _ _ _ second follows')

theorem StopsAt.weaken {f : Failure} {Whole : Source → Cursor → Cursor → Prop}
    {Dead Dead' : Source → Cursor → Prop} {c d : Cursor} (stops : StopsAt source f Whole Dead c d)
    (weaker : ∀ source c, Dead source c → Dead' source c) : StopsAt source f Whole Dead' c d where
  place := stops.place
  atToken := stops.atToken
  viable := by
    obtain ⟨chars, passes, completes, dies⟩ := stops.viable
    exact ⟨chars, passes, completes, fun ch follows plain source' c' d' between follows' =>
      weaker _ _ (dies ch follows plain source' c' d' between follows')⟩

/-- An expression that is read with so much room. -/
def Whole (n : Nat) (source : Source) (c d : Cursor) : Prop :=
  ∃ e, Stands source c e d ∧ e.nesting < n

/-- No expression is read, with any room. -/
def Dead (source : Source) (c : Cursor) : Prop :=
  ∀ m, ∃ stop, (read source m c).map Reading.pair = .error stop

/-- Arguments, after an opening parenthesis, that are read with so much room. -/
def WholeList (n : Nat) (source : Source) (c d : Cursor) : Prop :=
  ∃ c₁ es, c.Blanks c₁ ∧ Inside source c₁ es d ∧ nestingOfArgs es ≤ n

/-- No arguments are read, with any room. -/
def DeadList (source : Source) (c : Cursor) : Prop :=
  ∀ m, ∃ stop, (readArguments (read source m) source c.skipBlank).map Reading.pair = .error stop

theorem StopsAt.afterBlanks {n : Nat} {f : Failure} {c d : Cursor}
    (stops : StopsAt source f (Whole n) Dead c.skipBlank d) : StopsAt source f (Whole n) Dead c d := by
  refine stops.before (carriedAnywhere_of_blanks (Cursor.blanks_skipBlank c)) ?_ ?_
  · rintro source c c₁ d gap ⟨e, ⟨c₂, d₁, before, derived, after⟩, room⟩
    exact ⟨e, ⟨c₂, d₁, gap.trans before, derived, after⟩, room⟩
  · intro source c c₁ gap dead m
    rw [read_congr m gap.skipBlank_eq]
    exact dead m

theorem StopsAt.listAfterBlanks {n : Nat} {f : Failure} {c d : Cursor}
    (stops : StopsAt source f (WholeList n) DeadList c.skipBlank d) :
    StopsAt source f (WholeList n) DeadList c d := by
  refine stops.before (carriedAnywhere_of_blanks (Cursor.blanks_skipBlank c)) ?_ ?_
  · rintro source c c₁ d gap ⟨c₂, es, gap', inside, room⟩
    exact ⟨c₂, es, gap.trans gap', inside, room⟩
  · intro source c c₁ gap dead m
    rw [gap.skipBlank_eq]
    exact dead m

/-! ### Before the place -/

/-- An expression that is read with so much room, and a symbol after it. -/
def Followed (symbol : Char) (n : Nat) (source : Source) (c d : Cursor) : Prop :=
  ∃ e c₁, Stands source c e c₁ ∧ e.nesting < n ∧ c₁.Passes [symbol] d

theorem Stands.followed {symbol : Char} {n : Nat} {c c₁ d : Cursor} {e : Expr}
    (stands : Stands source c e c₁) (room : e.nesting < n) (passes : c₁.Passes [symbol] d) :
    CarriedAnywhere c d (Followed symbol n) := by
  obtain ⟨chars, before, carries⟩ := stands.carried.symbol passes
  refine ⟨chars, before, fun source c' d' between => ?_⟩
  obtain ⟨c₁', ⟨e', stands', same⟩, passes'⟩ := carries source c' d' between
  exact ⟨e', c₁', stands', same ▸ room, passes'⟩

/-- An expression is read up to a token that does not open a list of arguments. -/
theorem Stands.reads {c d : Cursor} {e : Expr} (stands : Stands source c e d) (token : d.AtToken)
    (closed : ∀ after, d.rest ≠ '(' :: after) (m : Nat) :
    (read source m c).map Reading.pair = if e.nesting < m then .ok (e, d) else exhausted := by
  obtain ⟨c₁, d₁, before, derived, after⟩ := stands
  rw [read_congr m before.skipBlank_eq, derived.reads m]
  by_cases room : e.nesting < m
  · obtain ⟨k, rfl⟩ : ∃ k, m = k + 1 := ⟨m - 1, by omega⟩
    rw [if_pos room, if_pos room, resume, skipBlank_of_blanks after token]
    exact readApplications_stop _ _ _ _ closed
  · rw [if_neg room, if_neg room]

theorem Followed.whole {n : Nat} {c c₁ d : Cursor} (opened : Followed '(' (n + 1) source c c₁)
    (list : WholeList n source c₁ d) : Whole (n + 1) source c d := by
  obtain ⟨head, c₂, ⟨c₃, c₄, before, derived, after⟩, room, opens⟩ := opened
  obtain ⟨c₅, es, gap, inside, room'⟩ := list
  refine ⟨_, ⟨c₃, d, before, .apply derived after (inside.arguments opens gap), .refl d⟩, ?_⟩
  rw [nesting]
  omega

theorem Followed.dead {n : Nat} {c c₁ : Cursor} (opened : Followed '(' n source c c₁)
    (list : DeadList source c₁) : Dead source c := by
  obtain ⟨head, c₂, ⟨c₃, c₄, before, derived, after⟩, -, opens⟩ := opened
  intro m
  rw [read_congr m before.skipBlank_eq, derived.reads m]
  by_cases room : head.nesting < m
  · obtain ⟨k, rfl⟩ : ∃ k, m = k + 1 := ⟨m - 1, by omega⟩
    obtain ⟨stop, failed⟩ := list k
    have ready := skipBlank_of_blanks after (atToken_of_passes opens (by decide))
    rw [if_pos room, resume, ready, readApplications_open _ _ _ _ opens, failed]
    exact ⟨stop, rfl⟩
  · rw [if_neg room]
    exact ⟨_, rfl⟩

theorem Followed.wholeList {n : Nat} {c c₁ d : Cursor} (separated : Followed ',' n source c c₁)
    (list : WholeList n source c₁ d) : WholeList n source c d := by
  obtain ⟨e, c₂, ⟨c₃, c₄, before, derived, after⟩, room, separator⟩ := separated
  obtain ⟨c₅, es, gap, inside, room'⟩ := list
  have more := Inside.afterComma after separator gap inside
  refine ⟨c₃, e :: es, before, .inr ⟨e, es, rfl, c₃, c₄, .refl c₃, derived, more⟩, ?_⟩
  rw [nestingOfArgs]
  omega

/-- Arguments are not closed where an expression starts. -/
theorem Stands.opened {c d : Cursor} {e : Expr} (stands : Stands source c e d) :
    ∀ after, c.skipBlank.rest ≠ ')' :: after := by
  obtain ⟨c₁, d₁, before, derived, -⟩ := stands
  intro after closes
  obtain ⟨ch, rest, starts, kind⟩ := derived.first_char
  rw [skipBlank_of_blanks before derived.atToken, starts] at closes
  cases closes
  rcases kind with quote | word
  · cases quote
  · exact absurd word (by decide)

/-- The first of several arguments is read, and then what follows it. -/
theorem readArguments_of_stands {c d : Cursor} {e : Expr} (stands : Stands source c e d)
    (token : d.AtToken) (closed : ∀ after, d.rest ≠ '(' :: after) (m : Nat) :
    (readArguments (read source m) source c.skipBlank).map Reading.pair =
      if e.nesting < m then readAfter (read source m) source e d else exhausted := by
  have again := @read_congr source m _ _ (Cursor.blanks_skipBlank c).skipBlank_eq
  rw [readArguments_item _ _ stands.opened, ← again, stands.reads token closed m]
  by_cases room : e.nesting < m
  · rw [if_pos room, if_pos room]
    rfl
  · rw [if_neg room, if_neg room]
    rfl

theorem Followed.deadList {n : Nat} {c c₁ : Cursor} (separated : Followed ',' n source c c₁)
    (list : DeadList source c₁) : DeadList source c := by
  obtain ⟨e, c₂, stands, -, separator⟩ := separated
  have closed : ∀ after, c₂.rest ≠ '(' :: after := separator.ne_cons (by decide)
  intro m
  rw [readArguments_of_stands stands (atToken_of_passes separator (by decide)) closed m]
  by_cases room : e.nesting < m
  · obtain ⟨stop, failed⟩ := list m
    rw [if_pos room, readAfter_comma _ _ _ separator, failed]
    exact ⟨stop, rfl⟩
  · rw [if_neg room]
    exact ⟨_, rfl⟩

/-! ### At the place -/

theorem atToken_skipBlank (c : Cursor) : c.skipBlank.AtToken := fun ch follows => by
  obtain ⟨after, starts⟩ := List.head?_eq_some_iff.1 follows
  exact c.skipBlank_head starts

/-- A text that starts with no token still starts with none if it goes on in another way, unless a
string was opened. -/
theorem Token.read?_none {ch : Char} {rest : List Char} (absent : Token.read? (ch :: rest) = none)
    (plain : ch ≠ '"') (rest' : List Char) : Token.read? (ch :: rest') = none := by
  have outside : isWordChar ch = false := by
    rw [Token.read?, if_neg plain, Option.or_eq_none_iff] at absent
    refine Bool.eq_false_iff.2 fun word => ?_
    have noWord := absent.2
    simp [Token.readWord?, word] at noWord
  have noDigit : ch.isDigit = false := Bool.eq_false_iff.2 fun digit => by
    rw [isWordChar_of_isDigit digit] at outside
    cases outside
  rw [Token.read?, if_neg plain, Option.or_eq_none_iff]
  simp [Token.readNumeral?, Token.readWord?, outside, noDigit]

theorem whole_of_word {n : Nat} {c d : Cursor} (passes : c.Passes ['a'] d) (ends : d.EndsWord) :
    Whole (n + 1) source c d := by
  have lexical : Lexical ['a'] := lexical_of_first rfl rfl
  have lexeme : Lexeme .exact (.word ['a']) d.rest :=
    .word lexical.nonempty lexical.chars (lexical.isWholeWord ends)
  exact ⟨_, ⟨c, d, .refl c, .token lexeme passes, .refl d⟩, Nat.succ_pos n⟩

/-- Before a token that is missing, any token can stand. -/
theorem stopsAt_of_noToken {n : Nat} {c : Cursor} {f : Failure}
    (absent : Token.read? c.skipBlank.rest = none)
    (same : Stop.failure f = unreadable (.noExpression (String.ofList c.skipBlank.rest)) source
      c.skipBlank.position c.skipBlank.stop) :
    StopsAt source f (Whole (n + 1)) Dead c c.skipBlank := by
  obtain rfl := Stop.failure.inj same
  refine StopsAt.afterBlanks ⟨⟨_, rfl⟩, atToken_skipBlank c, [], .nil _, ⟨['a'], ?_⟩, ?_⟩
  · exact fun source c' d' passes ends => whole_of_word passes ends
  · intro ch follows plain source' c' d' passes follows'
    have notQuote : ch ≠ '"' := fun quote => plain ⟨⟨_, rfl⟩, quote⟩
    obtain ⟨after, starts⟩ := List.head?_eq_some_iff.1 follows
    obtain ⟨after', starts'⟩ := List.head?_eq_some_iff.1 follows'
    have here : c'.rest = ch :: after' := passes.rest.trans starts'
    have token : c'.AtToken :=
      atToken_of_head? (atToken_skipBlank c) (by rw [here, starts, List.head?_cons, List.head?_cons])
    intro m
    cases m with
    | zero => exact ⟨_, rfl⟩
    | succ m =>
        refine ⟨_, read_none source' m ?_⟩
        rw [token.skipBlank_eq, here]
        exact Token.read?_none (starts ▸ absent) notQuote after'

/-- The lists of arguments after an expression are read up to a token that opens none. -/
theorem readApplications_ends {item : Item} {start : Nat} {head e : Expr} {c d : Cursor}
    (token : c.AtToken)
    (read : (readApplications item source start head c).map Extension.pair = .ok (e, d)) :
    d.AtToken ∧ ∀ after, d.rest ≠ '(' :: after := by
  by_cases opening : ∃ after, c.rest = '(' :: after
  · obtain ⟨after, follows⟩ := opening
    have opens : c.Passes ['('] ⟨c.position + 1, after⟩ :=
      Cursor.passes_singleton_iff.2 ⟨after, follows, rfl⟩
    rw [readApplications_open item source _ _ opens] at read
    cases found : (readArguments item source
        (Cursor.skipBlank ⟨c.position + 1, after⟩)).map Reading.pair with
    | error stop =>
        rw [found] at read
        cases read
    | ok args =>
        obtain ⟨args, next⟩ := args
        rw [found] at read
        have shorter := shorter_of_list opens found
        exact readApplications_ends (atToken_skipBlank next) read
  · rw [readApplications_stop item source _ _ (not_exists.1 opening)] at read
    cases read
    exact ⟨token, not_exists.1 opening⟩
termination_by c.rest.length

/-- What is read stands in the text up to a token that opens no list of arguments. -/
theorem stands_of_read {n : Nat} {c d : Cursor} {e : Expr}
    (found : (read source n c).map Reading.pair = .ok (e, d)) :
    Stands source c e d ∧ e.nesting < n ∧ d.AtToken ∧ ∀ after, d.rest ≠ '(' :: after := by
  have stands := read_sound n c e d found
  have ⟨c₁, d₁, before, derived, after⟩ := stands
  rw [read_congr n before.skipBlank_eq, derived.reads n] at found
  split at found
  · rename_i room
    obtain ⟨k, rfl⟩ : ∃ k, n = k + 1 := ⟨n - 1, by omega⟩
    exact ⟨stands, room, readApplications_ends (atToken_skipBlank d₁) found⟩
  · cases found

theorem nestingOfArgs_le_of_read {n : Nat} (c d : Cursor) (es : List Expr)
    (found : (readArguments (read source n) source c).map Reading.pair = .ok (es, d)) :
    nestingOfArgs es ≤ n := by
  by_cases closing : ∃ after, c.rest = ')' :: after
  · obtain ⟨after, follows⟩ := closing
    rw [readArguments_close _ source (Cursor.passes_singleton_iff.2 ⟨after, follows, rfl⟩)] at found
    cases found
    exact nestingOfArgs_nil_le n
  · rw [readArguments_item _ source (not_exists.1 closing)] at found
    cases item : (read source n c).map Reading.pair with
    | error stop =>
        rw [item] at found
        cases found
    | ok first =>
        obtain ⟨first, next⟩ := first
        rw [item] at found
        replace found : readAfter (read source n) source first next = .ok (es, d) := found
        have room := (stands_of_read item).2.1
        obtain ⟨-, rfl⟩ | ⟨c₁, rest, separator, rfl, others⟩ := cases_readAfter found
        · rw [nestingOfArgs, nestingOfArgs]
          omega
        · have shorter := shorter_of_comma item separator
          have room' := nestingOfArgs_le_of_read _ _ _ others
          rw [nestingOfArgs]
          omega
termination_by c.rest.length

/-- After an argument that neither a comma nor a parenthesis follows, the list can be closed. -/
theorem stopsAt_of_noSeparator {n : Nat} {c next : Cursor} {first : Expr} {f : Failure}
    (found : (read source n c).map Reading.pair = .ok (first, next))
    (noComma : ∀ after, next.rest ≠ ',' :: after) (noClose : ∀ after, next.rest ≠ ')' :: after)
    (same : Stop.failure f =
      unreadable .unseparated source next.position (next.position + 1)) :
    StopsAt source f (WholeList n) DeadList c next := by
  obtain rfl := Stop.failure.inj same
  obtain ⟨stands, room, token, noList⟩ := stands_of_read found
  obtain ⟨chars, passes, carries⟩ := stands.carried
  refine ⟨⟨_, rfl⟩, token, chars, passes, ⟨[')'], ?_⟩, ?_⟩
  · intro source' c' d' between _
    obtain ⟨next', before, closes⟩ := between.split
    have may : MayFollow next.rest next'.rest := fun ch follows => by
      rw [closes.rest] at follows
      cases follows
      exact .inl (by decide)
    obtain ⟨e, ⟨c₁, d₁, gap, derived, after⟩, nesting⟩ := carries source' c' next' before may
    refine ⟨c₁, [e], gap, .inr ⟨e, [], rfl, c₁, d₁, .refl c₁, derived, .close after closes⟩, ?_⟩
    rw [nestingOfArgs, nestingOfArgs, nesting]
    omega
  · intro ch follows _ source' c' next' before follows' m
    have same : next'.rest.head? = next.rest.head? := follows'.trans follows.symm
    obtain ⟨e, stands', -⟩ := carries source' c' next' before (mayFollow_of_head? same)
    rw [readArguments_of_stands stands' (atToken_of_head? token same) (ne_cons_of_head? noList same) m]
    split
    · unfold readAfter
      split
      · exact absurd ‹_› (ne_cons_of_head? noComma same _)
      · exact absurd ‹_› (ne_cons_of_head? noClose same _)
      · exact ⟨_, rfl⟩
    · exact ⟨_, rfl⟩

/-- Where an argument cannot be read, neither can the list. -/
theorem StopsAt.list {n : Nat} {c d : Cursor} {f : Failure} (opened : ∀ after, c.rest ≠ ')' :: after)
    (ready : c.AtToken) (stops : StopsAt source f (Whole n) Dead c d) :
    StopsAt source f (WholeList n) DeadList c d where
  place := stops.place
  atToken := stops.atToken
  viable := by
    obtain ⟨chars, passes, ⟨more, completes⟩, dies⟩ := stops.viable
    refine ⟨chars, passes, ⟨more ++ [')'], fun source' c' d' between _ => ?_⟩,
      fun ch follows plain source' c' d' before follows' m => ?_⟩
    · rw [← List.append_assoc] at between
      obtain ⟨d₁, before, closes⟩ := between.split
      obtain ⟨e, ⟨c₁, c₂, gap, derived, after⟩, room⟩ :=
        completes source' c' d₁ before (closes.endsWord (by decide))
      refine ⟨c₁, [e], gap, .inr ⟨e, [], rfl, c₁, c₂, .refl c₁, derived, .close after closes⟩, ?_⟩
      rw [nestingOfArgs, nestingOfArgs]
      omega
    · have head : c'.rest.head? = c.rest.head? := by
        rw [passes.rest, before.rest, List.head?_append, List.head?_append, follows, follows']
      obtain ⟨stop, failed⟩ := dies ch follows plain source' c' d' before follows' m
      rw [(atToken_of_head? ready head).skipBlank_eq,
        readArguments_item _ _ (ne_cons_of_head? opened head), failed]
      exact ⟨stop, rfl⟩

end Grammar

/-! ## The reader -/

namespace Expr

open Grammar

variable {source : Source}

theorem readArguments_stopsAt {n : Nat}
    (itemStops : ∀ c f, (read source n c).map Reading.pair = .error (.failure f) →
      ∃ d, StopsAt source f (Whole n) Dead c d)
    (c : Cursor) (stop : Stop)
    (failed : (readArguments (read source n) source c).map Reading.pair = .error stop) :
    ∀ f, stop = .failure f → c.AtToken → ∃ d, StopsAt source f (WholeList n) DeadList c d := by
  refine readArguments_stops
    (P := fun c stop => ∀ f, stop = .failure f → c.AtToken →
      ∃ d, StopsAt source f (WholeList n) DeadList c d) ?_ ?_ ?_ c stop failed
  · rintro c stop opened failed f rfl ready
    obtain ⟨d, stops⟩ := itemStops c f failed
    exact ⟨d, stops.list opened ready⟩
  · intro c first next found noComma noClose f same _
    exact ⟨next, stopsAt_of_noSeparator found noComma noClose same.symm⟩
  · intro c first next d stop found separator later f same _
    obtain ⟨place, stops⟩ := later f same (atToken_skipBlank d)
    obtain ⟨stands, room, -⟩ := stands_of_read found
    exact ⟨place, stops.listAfterBlanks.before (stands.followed room separator)
      (fun _ _ _ _ => Followed.wholeList) fun _ _ _ => Followed.deadList⟩

/-- Lists of arguments stop the expression that they belong to. -/
theorem readApplications_stopsAt {n : Nat}
    (itemStops : ∀ c f, (read source n c).map Reading.pair = .error (.failure f) →
      ∃ d, StopsAt source f (Whole n) Dead c d)
    (start : Nat) (head : Expr) (c : Cursor) (stop : Stop)
    (failed : (readApplications (read source n) source start head c).map Extension.pair =
      .error stop) :
    ∀ f, stop = .failure f → ∀ c₀ e, Stands source c₀ e c → e.nesting ≤ n →
      ∃ d, StopsAt source f (Whole (n + 1)) Dead c₀ d := by
  refine readApplications_stops
    (P := fun c stop => ∀ f, stop = .failure f → ∀ c₀ e, Stands source c₀ e c → e.nesting ≤ n →
      ∃ d, StopsAt source f (Whole (n + 1)) Dead c₀ d) ?_ ?_ start head c stop failed
  · intro c d stop opens failed f same c₀ e stands room
    obtain ⟨place, stops⟩ :=
      readArguments_stopsAt itemStops _ stop failed f same (atToken_skipBlank d)
    exact ⟨place, stops.listAfterBlanks.before (stands.followed (Nat.lt_succ_of_le room) opens)
      (fun _ _ _ _ => Followed.whole) fun _ _ _ => Followed.dead⟩
  · intro c d args next stop opens found later f same c₀ e stands room
    obtain ⟨c₁, c₂, before, derived, after⟩ := stands
    have list := (readArguments_sound (read_sound n) _ _ _ found).arguments opens
      (Cursor.blanks_skipBlank d)
    refine later f same c₀ _ ⟨c₁, next, before, .apply derived after list,
      Cursor.blanks_skipBlank next⟩ ?_
    have room' := nestingOfArgs_le_of_read _ _ _ found
    rw [nesting]
    omega

theorem read_stopsAt (n : Nat) (c : Cursor) (f : Failure)
    (failed : (read source n c).map Reading.pair = .error (.failure f)) :
    ∃ d, StopsAt source f (Whole n) Dead c d := by
  induction n generalizing c f with
  | zero => cases failed
  | succ n ih =>
      obtain ⟨-, crash⟩ | ⟨m, same, ⟨absent, stopped⟩ | ⟨t, d, start, head, lexeme, passes, failed⟩⟩ :=
        read_stops failed
      · cases crash
      · exact ⟨_, stopsAt_of_noToken absent stopped⟩
      · cases same
        have stands : Stands source c _ d.skipBlank :=
          ⟨_, d, Cursor.blanks_skipBlank c, .token lexeme passes, Cursor.blanks_skipBlank d⟩
        refine readApplications_stopsAt ih _ _ _ _ failed f rfl c _ stands ?_
        cases t <;> exact Nat.zero_le n

/-- Nothing that is read reaches the end, with any room. -/
def DeadText (source : Source) (c : Cursor) : Prop :=
  ∀ m e d, (read source m c).map Reading.pair = .ok (e, d) → d.rest ≠ []

/-- An expression is whole without the text that follows it. -/
theorem stopsAt_of_trailing {n stop : Nat} {c d : Cursor} {e : Expr} {cause : Cause}
    (found : (read source n c).map Reading.pair = .ok (e, d)) :
    StopsAt source ⟨cause, ⟨some d.position, some stop, some source⟩⟩ (Whole n) DeadText c d := by
  obtain ⟨stands, room, token, noList⟩ := stands_of_read found
  obtain ⟨chars, passes, carries⟩ := stands.carried
  refine ⟨⟨_, rfl⟩, token, chars, passes, ⟨[], ?_⟩, ?_⟩
  · intro source' c' d' between ends
    rw [List.append_nil] at between
    obtain ⟨e', stands', same⟩ := carries source' c' d' between fun ch follows =>
      .inl (ends ch follows)
    exact ⟨e', stands', same ▸ room⟩
  · intro ch follows _ source' c' d' between follows' m e₁ d₁ found'
    have same : d'.rest.head? = d.rest.head? := follows'.trans follows.symm
    obtain ⟨e', stands', -⟩ := carries source' c' d' between (mayFollow_of_head? same)
    rw [stands'.reads (atToken_of_head? token same) (ne_cons_of_head? noList same) m] at found'
    split at found'
    · cases found'
      rintro ended
      rw [ended] at follows'
      cases follows'
    · cases found'

theorem parse_stopsAt {n : Nat} {f : Failure} (failed : parse n source = .error (.failure f)) :
    ∃ d, StopsAt source f (Whole n) DeadText ⟨0, source.text.toList⟩ d := by
  rw [parse_pair] at failed
  cases found : (read source n ⟨0, source.text.toList⟩).map Reading.pair with
  | error stop =>
      rw [found] at failed
      cases failed
      obtain ⟨d, stops⟩ := read_stopsAt n _ f found
      refine ⟨d, stops.weaken fun source c dead m e d read => ?_⟩
      obtain ⟨stop, failed⟩ := dead m
      rw [read] at failed
      cases failed
  | ok r =>
      obtain ⟨e, d⟩ := r
      rw [found] at failed
      replace failed : (if d.rest = [] then Except.ok e
        else .error (unreadable .trailingText source d.position d.stop)) = .error (.failure f) := failed
      split at failed
      · cases failed
      · cases failed
        exact ⟨d, stopsAt_of_trailing found⟩

/-- How the message starts that blames the start of an expression. -/
def noExpressionPrefix : String :=
  "Unexpected syntax"

theorem noExpressionPrefix_of_opensString {f : Failure} {ch : Char} (opens : OpensString f ch) :
    noExpressionPrefix.toList <+: f.cause.message.toList := by
  obtain ⟨⟨rest, cause⟩, -⟩ := opens
  refine ⟨": ".toList ++ rest.toList, ?_⟩
  rw [cause]
  show _ = ("Unexpected syntax: " ++ rest).toList
  rw [String.toList_append, ← List.append_assoc]
  rfl

/-- **Where reading fails.**  A failure of reading is placed in the text that was read, or at its
end, at a character that is not blank.  What comes before the place is the start of a program, with
as much room as there was; with the character at the place it is the start of none, with any room,
unless the character is a quote and the message blames the start of an expression, for then the
string is not closed. -/
theorem parse_viable {n : Nat} {source : Source} {f : Failure}
    (failed : parse n source = .error (.failure f)) :
    ∃ start, f.place.start = some start ∧ f.place.source = some source ∧
      start ≤ source.text.length ∧
      (∀ ch, source.text.toList[start]? = some ch → isBlank ch = false) ∧
      (∃ more : String, ∀ source' : Source,
        source'.text = String.ofList (source.text.toList.take start) ++ more →
          ∃ e, parse n source' = .ok e) ∧
      ∀ ch, source.text.toList[start]? = some ch →
        ¬ (noExpressionPrefix.toList <+: f.cause.message.toList ∧ ch = '"') →
          ∀ source' : Source, source.text.toList.take (start + 1) <+: source'.text.toList →
            ∀ m e, parse m source' ≠ .ok e := by
  obtain ⟨d, stops⟩ := parse_stopsAt failed
  obtain ⟨stop, place⟩ := stops.place
  obtain ⟨chars, passes, ⟨more, completes⟩, dies⟩ := stops.viable
  have text : source.text.toList = chars ++ d.rest := passes.rest
  have start : d.position = chars.length := passes.position.trans (Nat.zero_add _)
  have before : source.text.toList.take d.position = chars := by rw [text, start, List.take_left]
  have next : source.text.toList[d.position]? = d.rest.head? := by
    rw [text, start, List.getElem?_append_right (Nat.le_refl _), Nat.sub_self, List.head?_eq_getElem?]
  refine ⟨d.position, by rw [place], by rw [place], ?_, ?_, ⟨String.ofList more, ?_⟩, ?_⟩
  · rw [← String.length_toList, text, start, List.length_append]
    omega
  · exact fun ch here => stops.atToken ch (next ▸ here)
  · intro source' spelled
    have passes' : (⟨0, source'.text.toList⟩ : Cursor).Passes (chars ++ more)
        ⟨(chars ++ more).length, []⟩ := by
      refine ⟨?_, (Nat.zero_add _).symm⟩
      rw [spelled, before, String.toList_append, String.toList_ofList, String.toList_ofList,
        List.append_nil]
    obtain ⟨e, ⟨c₁, d₁, gap, derived, after⟩, room⟩ :=
      completes source' _ _ passes' fun ch follows => by cases follows
    exact ⟨e, parse_ok_iff.2 ⟨⟨c₁, d₁, _, gap, derived, after, rfl⟩, room⟩⟩
  · intro ch here plain source' starts m e parsed
    rw [next] at here
    obtain ⟨rest, follows⟩ := List.head?_eq_some_iff.1 here
    have plain' : ¬ OpensString f ch := fun opens =>
      plain ⟨noExpressionPrefix_of_opensString opens, opens.2⟩
    have shared : source.text.toList.take (d.position + 1) = chars ++ [ch] := by
      rw [text, start, follows, List.take_length_add_append]
      rfl
    obtain ⟨rest', spelled⟩ := starts
    rw [shared, List.append_assoc] at spelled
    have passes' : (⟨0, source'.text.toList⟩ : Cursor).Passes chars ⟨chars.length, ch :: rest'⟩ :=
      ⟨spelled.symm, (Nat.zero_add _).symm⟩
    have dead := dies ch here plain' source' _ _ passes' rfl
    rw [parse_pair] at parsed
    cases found : (read source' m ⟨0, source'.text.toList⟩).map Reading.pair with
    | error stop =>
        rw [found] at parsed
        cases parsed
    | ok r =>
        rw [found] at parsed
        replace parsed : (if r.2.rest = [] then Except.ok r.1
          else .error (unreadable .trailingText source' r.2.position r.2.stop)) = .ok e := parsed
        rw [if_neg (dead m r.1 r.2 found)] at parsed
        cases parsed

/-- A failure of reading that was found by evaluation. -/
theorem failure_of_check {n : Nat} {source : Source} {f : Failure}
    (check : (match parse n source with
      | .error (.failure f') => decide (f' = f)
      | _ => false) = true) : parse n source = .error (.failure f) := by
  split at check
  · rename_i f' failed
    rw [failed, of_decide_eq_true check]
  · cases check

/-- In `f(1 2)` reading fails at the second argument. -/
theorem parse_viable_unseparated :
    parse 4 ⟨0, "f(1 2)"⟩ = .error (.failure ⟨.unseparated, ⟨some 4, some 5, some ⟨0, "f(1 2)"⟩⟩⟩) ∧
      (∃ more : String, ∀ source' : Source, source'.text = "f(1 " ++ more →
        ∃ e, parse 4 source' = .ok e) ∧
      ∀ source' : Source, "f(1 2".toList <+: source'.text.toList → ∀ m e, parse m source' ≠ .ok e := by
  have failed : parse 4 ⟨0, "f(1 2)"⟩ =
      .error (.failure ⟨.unseparated, ⟨some 4, some 5, some ⟨0, "f(1 2)"⟩⟩⟩) :=
    failure_of_check (by decide +kernel)
  obtain ⟨start, place, -, -, -, completed, dead⟩ := parse_viable failed
  obtain rfl : 4 = start := Option.some.inj place
  exact ⟨failed, completed, dead '2' rfl fun opens => by cases opens.2⟩

end Expr

end EggLanguage
