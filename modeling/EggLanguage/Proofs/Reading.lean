/-
# EggLanguage.Proofs.Reading -- the reader follows the grammar

A text that the grammar derives is read as the tree of its derivation, if the
reader has room for the arguments that are open at once (`Expression.reads`), and
exhausts the stack otherwise.  Whatever is read has a derivation (`read_sound`).
A text without a derivation is refused for its grammar, or else exhausts a stack
that has no room for its parentheses (`read_refused`).  What is said of every way to stop
goes through the loops by `readArguments_stops` and `readApplications_stops`.

The reader's results carry the proof that they shortened the text.  The equations
`readArguments_pair`, `readApplications_pair` and `read_pair` state what is read
without that proof, and everything else rests on them.
-/
import EggLanguage.Proofs.Grammar

namespace EggLanguage

set_option autoImplicit false

open EggLanguage.Text
open EggLanguage.Grammar

/-! ## Tokens -/

namespace Token

theorem endsNumeral_iff {following : List Char} :
    endsNumeral following = true ↔ ∀ c, following.head? = some c → isIdentifierChar c = false := by
  cases following <;> simp [endsNumeral]

theorem takeWhile_append_of_stop {p : Char → Bool} {run following : List Char}
    (all : ∀ c ∈ run, p c = true) (stop : ∀ c, following.head? = some c → p c = false) :
    (run ++ following).takeWhile p = run ∧ (run ++ following).dropWhile p = following := by
  rw [List.takeWhile_append_of_pos all, List.dropWhile_append_of_pos all]
  cases following with
  | nil => simp
  | cons c following =>
      have stops : p c = false := stop c rfl
      simp [stops]

theorem readNumeral?_of_isNumeral {digits following : List Char}
    (numeral : IsNumeral digits following) :
    readNumeral? (digits ++ following) = some (.numeral digits, following) := by
  have stop : ∀ c, following.head? = some c → c.isDigit = false := by
    intro c follows
    refine Bool.eq_false_iff.2 fun digit => ?_
    have identifier := isIdentifierChar_of_isDigit digit
    rw [numeral.ends c follows] at identifier
    cases identifier
  obtain ⟨taken, dropped⟩ := takeWhile_append_of_stop numeral.digit stop
  simp [readNumeral?, taken, dropped, numeral.nonempty, endsNumeral_iff.2 numeral.ends]

theorem isNumeral_of_readNumeral? {text rest : List Char} {t : Token}
    (found : readNumeral? text = some (t, rest)) :
    ∃ digits, t = .numeral digits ∧ text = digits ++ rest ∧ IsNumeral digits rest := by
  simp only [readNumeral?] at found
  split at found
  · rename_i numeral
    cases found
    exact ⟨_, rfl, List.takeWhile_append_dropWhile.symm, numeral.1,
      List.all_eq_true.1 List.all_takeWhile, endsNumeral_iff.1 numeral.2⟩
  · cases found

/-- A numeral is found where a text starts with one. -/
theorem readNumeral?_eq_none_iff {text : List Char} :
    readNumeral? text = none ↔ ∀ digits rest, text = digits ++ rest → ¬ IsNumeral digits rest := by
  constructor
  · rintro absent digits rest rfl numeral
    rw [readNumeral?_of_isNumeral numeral] at absent
    cases absent
  · intro absent
    cases found : readNumeral? text with
    | none => rfl
    | some pair =>
        obtain ⟨t, rest⟩ := pair
        obtain ⟨digits, -, split, numeral⟩ := isNumeral_of_readNumeral? found
        exact absurd numeral (absent digits rest split)

theorem isString_of_readString? {text rest : List Char} {t : Token}
    (found : readString? text = some (t, rest)) : ∃ content, t = .string content ∧ '"' ∉ content := by
  simp only [readString?] at found
  split at found
  · cases found
  · cases found
    refine ⟨_, rfl, fun member => ?_⟩
    have kept := List.all_eq_true.1 (List.all_takeWhile (p := (· != '"')) (l := text)) '"' member
    simp at kept

theorem isWord_of_readWord? {text rest : List Char} {t : Token}
    (found : readWord? text = some (t, rest)) :
    ∃ name, t = .word name ∧ name ≠ [] ∧ (∀ c ∈ name, isWordChar c = true) ∧
      ∀ c, rest.head? = some c → isWordChar c = false := by
  simp only [readWord?] at found
  split at found
  · rename_i nonempty
    cases found
    refine ⟨_, rfl, nonempty, List.all_eq_true.1 List.all_takeWhile, fun c follows => ?_⟩
    have stopped := List.head?_dropWhile_not isWordChar text
    rw [follows] at stopped
    simpa using stopped
  · cases found

/-- What `read?` takes off a text is a token of the grammar. -/
theorem lexeme_of_read? {text rest : List Char} {t : Token}
    (found : read? text = some (t, rest)) : Lexeme .exact t rest := by
  have joined := (read?_spelling found).1
  cases text with
  | nil => cases found
  | cons c after =>
      simp only [read?] at found
      split at found
      · obtain ⟨content, rfl, closed⟩ := isString_of_readString? found
        exact .string closed
      · cases sought : readNumeral? (c :: after) with
        | some pair =>
            rw [sought] at found
            cases found
            obtain ⟨digits, rfl, -, numeral⟩ := isNumeral_of_readNumeral? sought
            exact .numeral numeral
        | none =>
            rw [sought] at found
            obtain ⟨name, rfl, nonempty, chars, maximal⟩ := isWord_of_readWord? found
            refine .word nonempty chars ⟨maximal, ?_⟩
            rw [joined] at sought
            exact readNumeral?_eq_none_iff.1 sought

/-- Every token of the grammar is taken off the text it starts. -/
theorem read?_of_lexeme {t : Token} {following : List Char} (lexeme : Lexeme .exact t following) :
    read? (t.spelling ++ following) = some (t, following) := by
  cases lexeme with
  | @string content _ closed =>
      have stop : ∀ c, ('"' :: following).head? = some c → (c != '"') = false := by simp
      have all : ∀ c ∈ content, (c != '"') = true := by
        intro c member
        simp only [bne_iff_ne, ne_eq]
        rintro rfl
        exact closed member
      obtain ⟨taken, dropped⟩ := takeWhile_append_of_stop all stop
      simp [spelling, read?, readString?, taken, dropped]
  | @numeral digits _ numeral =>
      have found := readNumeral?_of_isNumeral numeral
      obtain ⟨d, ds, rfl⟩ := List.exists_cons_of_ne_nil numeral.nonempty
      have notQuote : d ≠ '"' := by
        rintro rfl
        exact absurd (numeral.digit _ List.mem_cons_self) (by decide)
      simp only [spelling, List.cons_append] at found ⊢
      simp [read?, notQuote, found]
  | @word name _ nonempty chars fits =>
      obtain ⟨taken, dropped⟩ := takeWhile_append_of_stop chars fits.maximal
      have noNumeral := readNumeral?_eq_none_iff.2 fits.noNumeral
      obtain ⟨c, cs, rfl⟩ := List.exists_cons_of_ne_nil nonempty
      have notQuote : c ≠ '"' := by
        rintro rfl
        exact absurd (chars _ List.mem_cons_self) (by decide)
      simp only [spelling, List.cons_append] at taken dropped noNumeral ⊢
      simp [read?, notQuote, noNumeral, readWord?, taken, dropped]

end Token

/-! ## What is read, without the proof of progress -/

def Reading.pair {α : Type} {start : Cursor} (r : Reading α start) : α × Cursor :=
  (r.result, r.next)

def Extension.pair {α : Type} {start : Cursor} (r : Extension α start) : α × Cursor :=
  (r.result, r.next)

namespace Expr

/-- A reader of arguments. -/
abbrev Item := (c : Cursor) → Except Stop (Reading Expr c)

/-- The arguments from one on that was read up to `next`. -/
def readAfter (item : Item) (source : Source) (first : Expr) (next : Cursor) :
    Except Stop (List Expr × Cursor) :=
  match next.rest with
  | ',' :: after => do
      let rest ←
        (readArguments item source (Cursor.skipBlank ⟨next.position + 1, after⟩)).map Reading.pair
      return (first :: rest.1, rest.2)
  | ')' :: after => return ([first], ⟨next.position + 1, after⟩)
  | _ => throw (unreadable .unseparated source next.position (next.position + 1))

variable (item : Item) (source : Source)

theorem readArguments_close {c d : Cursor} (closes : c.Passes [')'] d) :
    (readArguments item source c).map Reading.pair = .ok ([], d) := by
  obtain ⟨after, follows, rfl⟩ := Cursor.passes_singleton_iff.1 closes
  rw [readArguments]
  split
  · rename_i after' closes'
    rw [follows] at closes'
    cases closes'
    rfl
  · rename_i opened
    exact absurd follows (opened _)

theorem readArguments_item {c : Cursor} (opened : ∀ after, c.rest ≠ ')' :: after) :
    (readArguments item source c).map Reading.pair =
      (item c).map Reading.pair >>= fun first => readAfter item source first.1 first.2 := by
  rw [readArguments]
  split
  · rename_i closes
    exact absurd closes (opened _)
  · cases item c with
    | error e => rfl
    | ok first =>
        show Except.map Reading.pair _ = readAfter item source first.result first.next
        unfold readAfter
        dsimp only
        split
        · rename_i after follows
          simp only [follows]
          cases readArguments item source (Cursor.skipBlank ⟨first.next.position + 1, after⟩) <;> rfl
        · rename_i after follows
          simp only [follows]
          rfl
        · rename_i other other'
          split
          · exact absurd ‹_› (other _)
          · exact absurd ‹_› (other' _)
          · rfl

theorem readAfter_close (first : Expr) {c d : Cursor} (closes : c.Passes [')'] d) :
    readAfter item source first c = .ok ([first], d) := by
  obtain ⟨after, follows, rfl⟩ := Cursor.passes_singleton_iff.1 closes
  simp only [readAfter, follows]
  rfl

theorem readAfter_comma (first : Expr) {c d : Cursor} (separator : c.Passes [','] d) :
    readAfter item source first c =
      (readArguments item source d.skipBlank).map Reading.pair >>=
        fun rest => .ok (first :: rest.1, rest.2) := by
  obtain ⟨after, follows, rfl⟩ := Cursor.passes_singleton_iff.1 separator
  simp only [readAfter, follows]
  rfl

theorem readApplications_open (start : Nat) (head : Expr) {c d : Cursor}
    (opens : c.Passes ['('] d) :
    (readApplications item source start head c).map Extension.pair =
      (readArguments item source d.skipBlank).map Reading.pair >>= fun args =>
        (readApplications item source start
          (.apply head args.1 ⟨start, args.2.position, some source⟩) args.2.skipBlank).map
          Extension.pair := by
  obtain ⟨after, follows, rfl⟩ := Cursor.passes_singleton_iff.1 opens
  rw [readApplications]
  split
  · rename_i after' opens'
    rw [follows] at opens'
    cases opens'
    cases readArguments item source (Cursor.skipBlank ⟨c.position + 1, after⟩) with
    | error e => rfl
    | ok args =>
        show Except.map Extension.pair _ = Except.map Extension.pair _
        dsimp only [Reading.pair]
        split
        · rename_i e failed
          rw [failed]
          rfl
        · rename_i more found
          rw [found]
          rfl
  · rename_i closed
    exact absurd follows (closed _)

theorem readApplications_stop (start : Nat) (head : Expr) {c : Cursor}
    (closed : ∀ after, c.rest ≠ '(' :: after) :
    (readApplications item source start head c).map Extension.pair = .ok (head, c) := by
  rw [readApplications]
  split
  · rename_i opens
    exact absurd opens (closed _)
  · rfl

theorem read_none (n : Nat) {c : Cursor} (absent : Token.read? c.skipBlank.rest = none) :
    (read source (n + 1) c).map Reading.pair =
      .error (unreadable (.noExpression (String.ofList c.skipBlank.rest)) source
        c.skipBlank.position c.skipBlank.stop) := by
  rw [read]
  split
  · rfl
  · rename_i found
    rw [absent] at found
    cases found

theorem read_token (n : Nat) {c d : Cursor} {t : Token}
    (found : Token.read? c.skipBlank.rest = some (t, d.rest))
    (passes : c.skipBlank.Passes t.spelling d) :
    (read source (n + 1) c).map Reading.pair =
      (readApplications (read source n) source c.skipBlank.position
        (t.node ⟨c.skipBlank.position, d.position, some source⟩) d.skipBlank).map
        Extension.pair := by
  obtain ⟨position, rest⟩ := d
  obtain rfl := passes.position
  rw [read]
  split
  · rename_i absent
    rw [absent] at found
    cases found
  · rename_i t' after' found'
    rw [found] at found'
    cases found'
    dsimp only
    split
    · rename_i e failed
      rw [failed]
      rfl
    · rename_i more read
      rw [read]
      rfl

/-! ## Room for arguments -/

mutual

/-- How many lists of arguments are open at once at most while the expression is
read. -/
def nesting : Expr → Nat
  | apply operator args _ => max operator.nesting (nestingOfArgs args)
  | _ => 0

def nestingOfArgs : List Expr → Nat
  | [] => 0
  | e :: rest => max (e.nesting + 1) (nestingOfArgs rest)

end

theorem nestingOfArgs_nil_le (n : Nat) : nestingOfArgs [] ≤ n :=
  Nat.zero_le n

/-- The stack had no room. -/
abbrev exhausted {α : Type} : Except Stop (α × Cursor) :=
  .error (.crash .stackExhausted)

/-- Reading goes on after an expression that started at `start` and ends at `d`. -/
def resume (source : Source) (start : Nat) (e : Expr) (d : Cursor) :
    (nesting : Nat) → Except Stop (Expr × Cursor)
  | 0 => exhausted
  | nesting + 1 =>
      (readApplications (read source nesting) source start e d.skipBlank).map Extension.pair

end Expr

namespace Grammar
open EggLanguage.Expr

variable {source : Source}

/-! ## Derivations are read -/

theorem More.next_char {rules : Rules} {c d : Cursor} {es : List Expr}
    (more : More rules source c es d) :
    ∃ ch rest, c.skipBlank.rest = ch :: rest ∧ (ch = ',' ∨ ch = ')') := by
  cases more with
  | close gap closes =>
      rw [skipBlank_of_blanks gap (atToken_of_passes closes (by decide))]
      exact ⟨')', _, closes.rest, .inr rfl⟩
  | comma allowed gap separator gap' closes =>
      rw [skipBlank_of_blanks gap (atToken_of_passes separator (by decide))]
      exact ⟨',', _, separator.rest, .inl rfl⟩
  | argument gap separator gap' next more =>
      rw [skipBlank_of_blanks gap (atToken_of_passes separator (by decide))]
      exact ⟨',', _, separator.rest, .inl rfl⟩

/-- No list of arguments follows what is followed by a comma or a closing
parenthesis. -/
theorem resume_of_more {rules : Rules} {c d : Cursor} {es : List Expr} (start : Nat) (e : Expr)
    (more : More rules source c es d) (n : Nat) :
    resume source start e c (n + 1) = .ok (e, c.skipBlank) := by
  obtain ⟨ch, rest, follows, kind⟩ := more.next_char
  refine readApplications_stop _ _ _ _ fun after opens => ?_
  rw [follows] at opens
  cases opens
  rcases kind with h | h <;> cases h

/-- An argument and what follows it are read, given that each of them is. -/
theorem readArguments_of_first {c c₁ d : Cursor} {e : Expr} {es : List Expr} {n : Nat}
    (first : Expression .exact source c e c₁) (more : More .exact source c₁ es d)
    (reads : (read source n c).map Reading.pair =
      if e.nesting < n then resume source c.position e c₁ n else exhausted)
    (readsMore : readAfter (read source n) source e c₁.skipBlank =
      if nestingOfArgs es ≤ n then .ok (e :: es, d) else exhausted) :
    (readArguments (read source n) source c).map Reading.pair =
      if nestingOfArgs (e :: es) ≤ n then .ok (e :: es, d) else exhausted := by
  have opened : ∀ after, c.rest ≠ ')' :: after := by
    intro after closes
    obtain ⟨ch, rest, starts, kind⟩ := first.first_char
    rw [starts] at closes
    cases closes
    rcases kind with h | h
    · cases h
    · exact absurd h (by decide)
  rw [readArguments_item _ _ opened, reads]
  by_cases room : e.nesting < n
  · obtain ⟨m, rfl⟩ : ∃ m, n = m + 1 := ⟨n - 1, by omega⟩
    have room' : e.nesting + 1 ≤ m + 1 := room
    rw [if_pos room, resume_of_more _ _ more]
    simp only [nestingOfArgs, Nat.max_le, room', true_and]
    exact readsMore
  · have full : ¬ nestingOfArgs (e :: es) ≤ n := by
      simp only [nestingOfArgs, Nat.max_le]
      omega
    rw [if_neg room, if_neg full]
    rfl

mutual

theorem Expression.reads {c d : Cursor} {e : Expr} (n : Nat) :
    Expression .exact source c e d → (read source n c).map Reading.pair =
      if e.nesting < n then resume source c.position e d n else exhausted
  | @Expression.token _ _ _ _ t lexeme passes => by
      have ready := (Expression.token lexeme passes : Expression .exact source c _ d).atToken
      have noArguments : (t.node ⟨c.position, d.position, some source⟩).nesting = 0 := by
        cases t <;> rfl
      have found : Token.read? c.skipBlank.rest = some (t, d.rest) := by
        rw [ready.skipBlank_eq, passes.rest]
        exact Token.read?_of_lexeme lexeme
      cases n with
      | zero => rfl
      | succ n =>
          have start := ready.skipBlank_eq
          rw [read_token source n found (by rwa [start]), start, noArguments]
          rfl
  | @Expression.apply _ _ _ c₁ c₂ _ operator args head gap list => by
      have readsHead := head.reads n
      have readsList := list.reads
      have ready : c₁.skipBlank = c₂ := by
        refine skipBlank_of_blanks gap ?_
        cases list with
        | none opens => exact atToken_of_passes opens (by decide)
        | some opens => exact atToken_of_passes opens (by decide)
      rw [readsHead]
      cases n with
      | zero => rfl
      | succ n =>
          by_cases room : operator.nesting < n + 1
          · rw [if_pos room, resume, ready, readsList n c.position operator]
            by_cases roomForArgs : nestingOfArgs args ≤ n
            · rw [if_pos roomForArgs, if_pos (by simp only [nesting]; omega)]
            · rw [if_neg roomForArgs, if_neg (by simp only [nesting]; omega)]
          · rw [if_neg room, if_neg (by simp only [nesting]; omega)]

theorem Arguments.reads {c d : Cursor} {es : List Expr} :
    Arguments .exact source c es d → ∀ (n start : Nat) (head : Expr),
      (readApplications (read source n) source start head c).map Extension.pair =
        if nestingOfArgs es ≤ n then
          resume source start (.apply head es ⟨start, d.position, some source⟩) d (n + 1)
        else exhausted
  | .none opens gap closes, n, start, head => by
      have ready := skipBlank_of_blanks gap (atToken_of_passes closes (by decide))
      have inside := readArguments_close (read source n) source closes
      rw [readApplications_open _ _ _ _ opens, ready, inside, if_pos (nestingOfArgs_nil_le n)]
      rfl
  | @Arguments.some _ _ _ _ _ _ _ e es opens gap first more, n, start, head => by
      have ready := skipBlank_of_blanks gap first.atToken
      have inside := readArguments_of_first first more (first.reads n) (more.reads n e)
      rw [readApplications_open _ _ _ _ opens, ready, inside]
      by_cases room : nestingOfArgs (e :: es) ≤ n
      · rw [if_pos room, if_pos room]
        rfl
      · rw [if_neg room, if_neg room]
        rfl

theorem More.reads {c d : Cursor} {es : List Expr} (n : Nat) :
    More .exact source c es d → ∀ (first : Expr),
      readAfter (read source n) source first c.skipBlank =
        if nestingOfArgs es ≤ n then .ok (first :: es, d) else exhausted
  | .close gap closes, first => by
      have ready := skipBlank_of_blanks gap (atToken_of_passes closes (by decide))
      rw [ready, readAfter_close _ _ _ closes, if_pos (nestingOfArgs_nil_le n)]
  | .comma allowed gap separator gap' closes, first => by
      have ready := skipBlank_of_blanks gap (atToken_of_passes separator (by decide))
      have ready' := skipBlank_of_blanks gap' (atToken_of_passes closes (by decide))
      have inside := readArguments_close (read source n) source closes
      rw [ready, readAfter_comma _ _ _ separator, ready', inside, 
        if_pos (nestingOfArgs_nil_le n)]
      rfl
  | @More.argument _ _ _ _ _ _ _ _ e es gap separator gap' next more, first => by
      have ready := skipBlank_of_blanks gap (atToken_of_passes separator (by decide))
      have ready' := skipBlank_of_blanks gap' next.atToken
      have inside := readArguments_of_first next more (next.reads n) (more.reads n e)
      rw [ready, readAfter_comma _ _ _ separator, ready', inside]
      by_cases room : nestingOfArgs (e :: es) ≤ n
      · rw [if_pos room, if_pos room]
        rfl
      · rw [if_neg room, if_neg room]
        rfl

end

/-! ## What is read is derived -/

/-- An expression with blanks around it. -/
def Stands (source : Source) (c : Cursor) (e : Expr) (d : Cursor) : Prop :=
  ∃ c₁ d₁ : Cursor, c.Blanks c₁ ∧ Expression .exact source c₁ e d₁ ∧ d₁.Blanks d

/-- Arguments and the parenthesis that closes their list, from a place where
either may come. -/
def Inside (source : Source) (c : Cursor) (es : List Expr) (d : Cursor) : Prop :=
  es = [] ∧ c.Passes [')'] d ∨
    ∃ e rest, es = e :: rest ∧ ∃ c₁ c₂ : Cursor, c.Blanks c₁ ∧
      Expression .exact source c₁ e c₂ ∧ More .exact source c₂ rest d

theorem Stands.passes {c d : Cursor} {e : Expr} (stands : Stands source c e d) :
    ∃ chars, c.Passes chars d := by
  obtain ⟨c₁, d₁, ⟨_, -, before⟩, derived, ⟨_, -, after⟩⟩ := stands
  obtain ⟨_, within⟩ := derived.passes
  exact ⟨_, (before.append within).append after⟩

theorem Inside.passes {c d : Cursor} {es : List Expr} (inside : Inside source c es d) :
    ∃ chars, c.Passes chars d := by
  obtain ⟨-, closes⟩ | ⟨e, rest, -, c₁, c₂, ⟨_, -, before⟩, first, more⟩ := inside
  · exact ⟨_, closes⟩
  · obtain ⟨_, within⟩ := first.passes
    obtain ⟨_, after⟩ := more.passes
    exact ⟨_, (before.append within).append after⟩

theorem Inside.arguments {c c₁ c₂ d : Cursor} {es : List Expr} (opens : c.Passes ['('] c₁)
    (gap : c₁.Blanks c₂) (inside : Inside source c₂ es d) : Arguments .exact source c es d := by
  obtain ⟨rfl, closes⟩ | ⟨e, rest, rfl, c₃, c₄, gap', first, more⟩ := inside
  · exact .none opens gap closes
  · exact .some opens (gap.trans gap') first more

theorem Inside.afterComma {c c₁ c₂ c₃ d : Cursor} {es : List Expr} (gap : c.Blanks c₁)
    (separator : c₁.Passes [','] c₂) (gap' : c₂.Blanks c₃) (inside : Inside source c₃ es d) :
    More .exact source c es d := by
  obtain ⟨rfl, closes⟩ | ⟨e, rest, rfl, c₄, c₅, gap'', next, more⟩ := inside
  · exact .comma trivial gap separator gap' closes
  · exact .argument gap separator (gap'.trans gap'') next more

end Grammar

namespace Expr

theorem shorter_of_pair {α : Type} {c d : Cursor} {x : Except Stop (Reading α c)} {a : α}
    (read : x.map Reading.pair = .ok (a, d)) : d.rest.length < c.rest.length := by
  cases x with
  | error e => cases read
  | ok r =>
      cases read
      exact r.shorter

/-- An argument and the comma after it take something off the text. -/
theorem shorter_of_comma {item : Item} {c d next : Cursor} {first : Expr}
    (found : (item c).map Reading.pair = .ok (first, next)) (separator : next.Passes [','] d) :
    d.skipBlank.rest.length < c.rest.length :=
  Nat.lt_trans separator.skipBlank_length_lt (shorter_of_pair found)

/-- A list of arguments takes something off the text. -/
theorem shorter_of_list {item : Item} {source : Source} {c d next : Cursor} {args : List Expr}
    (opens : c.Passes ['('] d)
    (found : (readArguments item source d.skipBlank).map Reading.pair = .ok (args, next)) :
    next.skipBlank.rest.length < c.rest.length :=
  Nat.lt_of_le_of_lt (Cursor.skipBlank_length_le next)
    (Nat.lt_trans (shorter_of_pair found) opens.skipBlank_length_lt)

theorem cases_readAfter {item : Item} {source : Source} {first : Expr} {next d : Cursor}
    {es : List Expr} (read : readAfter item source first next = .ok (es, d)) :
    next.Passes [')'] d ∧ es = [first] ∨
      ∃ (d₁ : Cursor) (rest : List Expr), next.Passes [','] d₁ ∧ es = first :: rest ∧
        (readArguments item source d₁.skipBlank).map Reading.pair = .ok (rest, d) := by
  unfold readAfter at read
  split at read
  · rename_i after follows
    refine .inr ⟨⟨next.position + 1, after⟩, ?_⟩
    cases found : (readArguments item source
        (Cursor.skipBlank ⟨next.position + 1, after⟩)).map Reading.pair with
    | error e =>
        rw [found] at read
        cases read
    | ok rest =>
        rw [found] at read
        cases read
        exact ⟨rest.1, Cursor.passes_singleton_iff.2 ⟨after, follows, rfl⟩, rfl, rfl⟩
  · rename_i after follows
    cases read
    exact .inl ⟨Cursor.passes_singleton_iff.2 ⟨after, follows, rfl⟩, rfl⟩
  · cases read

variable {item : Item} {source : Source}

theorem readArguments_sound
    (itemSound : ∀ c e d, (item c).map Reading.pair = .ok (e, d) → Stands source c e d)
    (c : Cursor) (es : List Expr) (d : Cursor)
    (read : (readArguments item source c).map Reading.pair = .ok (es, d)) :
    Inside source c es d := by
  by_cases closing : ∃ after, c.rest = ')' :: after
  · obtain ⟨after, follows⟩ := closing
    have closes := Cursor.passes_singleton_iff.2 ⟨after, follows, rfl⟩
    rw [readArguments_close item source closes] at read
    cases read
    exact .inl ⟨rfl, closes⟩
  · rw [readArguments_item item source (not_exists.1 closing)] at read
    cases found : (item c).map Reading.pair with
    | error stop =>
        rw [found] at read
        cases read
    | ok first =>
        obtain ⟨first, next⟩ := first
        rw [found] at read
        obtain ⟨c₁, c₂, before, derived, after⟩ := itemSound c first next found
        obtain ⟨closes, rfl⟩ | ⟨c₃, rest, separator, rfl, others⟩ := cases_readAfter read
        · exact .inr ⟨first, [], rfl, c₁, c₂, before, derived, .close after closes⟩
        · have shorter := shorter_of_comma found separator
          have inside := readArguments_sound itemSound _ _ _ others
          exact .inr ⟨first, rest, rfl, c₁, c₂, before, derived,
            inside.afterComma after separator (Cursor.blanks_skipBlank c₃)⟩
termination_by c.rest.length

theorem readApplications_sound
    (itemSound : ∀ c e d, (item c).map Reading.pair = .ok (e, d) → Stands source c e d)
    {start c₁ : Cursor} {head : Expr} (derived : Expression .exact source start head c₁)
    (c : Cursor) (gap : c₁.Blanks c) (e : Expr) (d : Cursor)
    (read : (readApplications item source start.position head c).map Extension.pair = .ok (e, d)) :
    ∃ d₁ : Cursor, Expression .exact source start e d₁ ∧ d₁.Blanks d := by
  by_cases opening : ∃ after, c.rest = '(' :: after
  · obtain ⟨after, follows⟩ := opening
    have opens := Cursor.passes_singleton_iff.2 ⟨after, follows, rfl⟩
    rw [readApplications_open item source _ _ opens] at read
    cases found : (readArguments item source
        (Cursor.skipBlank ⟨c.position + 1, after⟩)).map Reading.pair with
    | error stop =>
        rw [found] at read
        cases read
    | ok args =>
        obtain ⟨args, next⟩ := args
        rw [found] at read
        have inside := readArguments_sound itemSound _ _ _ found
        have list := inside.arguments opens (Cursor.blanks_skipBlank _)
        have shorter := shorter_of_list opens found
        exact readApplications_sound itemSound (.apply derived gap list) _
          (Cursor.blanks_skipBlank next) e d read
  · rw [readApplications_stop item source _ _ (not_exists.1 opening)] at read
    cases read
    exact ⟨c₁, derived, gap⟩
termination_by c.rest.length

/-- Whatever is read stands in the text. -/
theorem read_sound : ∀ (n : Nat) (c : Cursor) (e : Expr) (d : Cursor),
    (Expr.read source n c).map Reading.pair = .ok (e, d) → Stands source c e d
  | 0, c, e, d, read => by cases read
  | n + 1, c, e, d, read => by
      cases found : Token.read? c.skipBlank.rest with
      | none =>
          rw [read_none source n found] at read
          cases read
      | some pair =>
          obtain ⟨t, after⟩ := pair
          have passes : c.skipBlank.Passes t.spelling
              ⟨c.skipBlank.position + t.spelling.length, after⟩ :=
            ⟨(Token.read?_spelling found).1, rfl⟩
          rw [read_token source n found passes] at read
          have lexeme := Token.lexeme_of_read? found
          obtain ⟨d₁, derived, gap⟩ := readApplications_sound (read_sound n) (.token lexeme passes)
            _ (Cursor.blanks_skipBlank _) e d read
          exact ⟨_, d₁, Cursor.blanks_skipBlank c, derived, gap⟩

/-! ## How reading stops -/

/-- Reading arguments stops in an argument, at what follows one, or further on after a comma. -/
theorem readArguments_stops {P : Cursor → Stop → Prop}
    (atItem : ∀ c stop, (∀ after, c.rest ≠ ')' :: after) →
      (item c).map Reading.pair = .error stop → P c stop)
    (atSeparator : ∀ c first next, (item c).map Reading.pair = .ok (first, next) →
      (∀ after, next.rest ≠ ',' :: after) → (∀ after, next.rest ≠ ')' :: after) →
      P c (unreadable .unseparated source next.position (next.position + 1)))
    (afterComma : ∀ c first next d stop, (item c).map Reading.pair = .ok (first, next) →
      next.Passes [','] d → P d.skipBlank stop → P c stop)
    (c : Cursor) (stop : Stop)
    (failed : (readArguments item source c).map Reading.pair = .error stop) : P c stop := by
  by_cases closing : ∃ after, c.rest = ')' :: after
  · obtain ⟨after, follows⟩ := closing
    rw [readArguments_close item source (Cursor.passes_singleton_iff.2 ⟨after, follows, rfl⟩)] at failed
    cases failed
  · rw [readArguments_item item source (not_exists.1 closing)] at failed
    cases found : (item c).map Reading.pair with
    | error stop' =>
        rw [found] at failed
        cases failed
        exact atItem c stop (not_exists.1 closing) found
    | ok first =>
        obtain ⟨first, next⟩ := first
        rw [found] at failed
        replace failed : readAfter item source first next = .error stop := failed
        unfold readAfter at failed
        split at failed
        · rename_i after follows
          have separator : next.Passes [','] ⟨next.position + 1, after⟩ :=
            Cursor.passes_singleton_iff.2 ⟨after, follows, rfl⟩
          have shorter := shorter_of_comma found separator
          cases others : (readArguments item source
              (Cursor.skipBlank ⟨next.position + 1, after⟩)).map Reading.pair with
          | error stop' =>
              rw [others] at failed
              cases failed
              exact afterComma c first next _ _ found separator
                (readArguments_stops atItem atSeparator afterComma _ _ others)
          | ok rest =>
              rw [others] at failed
              cases failed
        · cases failed
        · rename_i noComma noClose
          cases failed
          exact atSeparator c first next found noComma noClose
termination_by c.rest.length

/-- Reading lists of arguments stops in the first of them, or after it. -/
theorem readApplications_stops {P : Cursor → Stop → Prop}
    (inside : ∀ c d stop, c.Passes ['('] d →
      (readArguments item source d.skipBlank).map Reading.pair = .error stop → P c stop)
    (after : ∀ c d args next stop, c.Passes ['('] d →
      (readArguments item source d.skipBlank).map Reading.pair = .ok (args, next) →
      P next.skipBlank stop → P c stop)
    (start : Nat) (head : Expr) (c : Cursor) (stop : Stop)
    (failed : (readApplications item source start head c).map Extension.pair = .error stop) :
    P c stop := by
  by_cases opening : ∃ after, c.rest = '(' :: after
  · obtain ⟨rest, follows⟩ := opening
    have opens : c.Passes ['('] ⟨c.position + 1, rest⟩ :=
      Cursor.passes_singleton_iff.2 ⟨rest, follows, rfl⟩
    rw [readApplications_open item source _ _ opens] at failed
    cases found : (readArguments item source
        (Cursor.skipBlank ⟨c.position + 1, rest⟩)).map Reading.pair with
    | error stop' =>
        rw [found] at failed
        cases failed
        exact inside c _ _ opens found
    | ok args =>
        obtain ⟨args, next⟩ := args
        rw [found] at failed
        have shorter := shorter_of_list opens found
        exact after c _ args next _ opens found
          (readApplications_stops inside after _ _ _ _ failed)
  · rw [readApplications_stop item source _ _ (not_exists.1 opening)] at failed
    cases failed
termination_by c.rest.length

/-- Reading an expression stops before its first token, or in the lists of arguments after
that, if there is room for reading at all. -/
theorem read_stops {n : Nat} {c : Cursor} {stop : Stop}
    (failed : (Expr.read source n c).map Reading.pair = .error stop) :
    n = 0 ∧ stop = .crash .stackExhausted ∨
      ∃ m, n = m + 1 ∧
        (Token.read? c.skipBlank.rest = none ∧
            stop = unreadable (.noExpression (String.ofList c.skipBlank.rest)) source
              c.skipBlank.position c.skipBlank.stop ∨
          ∃ (t : Token) (d : Cursor) (start : Nat) (head : Expr), Lexeme .exact t d.rest ∧
            c.skipBlank.Passes t.spelling d ∧
            (readApplications (Expr.read source m) source start head d.skipBlank).map
              Extension.pair = .error stop) := by
  cases n with
  | zero =>
      cases failed
      exact .inl ⟨rfl, rfl⟩
  | succ m =>
      refine .inr ⟨m, rfl, ?_⟩
      cases found : Token.read? c.skipBlank.rest with
      | none =>
          rw [read_none source m found] at failed
          cases failed
          exact .inl ⟨rfl, rfl⟩
      | some pair =>
          obtain ⟨t, after⟩ := pair
          have passes : c.skipBlank.Passes t.spelling
              ⟨c.skipBlank.position + t.spelling.length, after⟩ :=
            ⟨(Token.read?_spelling found).1, rfl⟩
          rw [read_token source m found passes] at failed
          exact .inr ⟨t, _, _, _, Token.lexeme_of_read? found, passes, failed⟩

/-! ## Texts that are not read -/

/-- A text is refused for its grammar, or exhausts a stack that has no room for its
parentheses. -/
def Refused (n : Nat) (c : Cursor) (stop : Stop) : Prop :=
  (∃ f, stop = .failure f ∧ f.cause.kind = .grammar) ∨
    stop = .crash .stackExhausted ∧ n ≤ c.rest.count '('

theorem Refused.before {n : Nat} {c d : Cursor} {stop : Stop} {chars : List Char}
    (passes : c.Passes chars d) (refused : Refused n d stop) :
    Refused (n + chars.count '(') c stop := by
  obtain grammar | ⟨crash, full⟩ := refused
  · exact .inl grammar
  · refine .inr ⟨crash, ?_⟩
    rw [passes.rest, List.count_append]
    omega

theorem Refused.le {m n : Nat} {c : Cursor} {stop : Stop} (refused : Refused n c stop)
    (le : m ≤ n) : Refused m c stop := by
  obtain grammar | ⟨crash, full⟩ := refused
  · exact .inl grammar
  · exact .inr ⟨crash, Nat.le_trans le full⟩

theorem Refused.after {n : Nat} {c d : Cursor} {stop : Stop} {chars : List Char}
    (refused : Refused n d stop) (passes : c.Passes chars d) : Refused n c stop :=
  (refused.before passes).le (Nat.le_add_right _ _)

theorem Refused.afterBlanks {n : Nat} {c : Cursor} {stop : Stop}
    (refused : Refused n c.skipBlank stop) : Refused n c stop := by
  obtain ⟨_, -, gap⟩ := Cursor.blanks_skipBlank c
  exact refused.after gap

theorem readArguments_refused {n : Nat}
    (itemSound : ∀ c e d, (item c).map Reading.pair = .ok (e, d) → Stands source c e d)
    (itemRefused : ∀ c stop, (item c).map Reading.pair = .error stop → Refused n c stop)
    (c : Cursor) (stop : Stop)
    (failed : (readArguments item source c).map Reading.pair = .error stop) : Refused n c stop := by
  refine readArguments_stops (fun c stop _ => itemRefused c stop)
    (fun c first next _ _ _ => .inl ⟨_, rfl, rfl⟩) ?_ c stop failed
  intro c first next d stop found separator refused
  obtain ⟨_, passes⟩ := (itemSound c first next found).passes
  exact refused.afterBlanks.after (passes.append separator)

theorem readApplications_refused {n : Nat}
    (itemSound : ∀ c e d, (item c).map Reading.pair = .ok (e, d) → Stands source c e d)
    (itemRefused : ∀ c stop, (item c).map Reading.pair = .error stop → Refused n c stop)
    (start : Nat) (head : Expr) (c : Cursor) (stop : Stop)
    (failed : (readApplications item source start head c).map Extension.pair = .error stop) :
    Refused (n + 1) c stop := by
  refine readApplications_stops ?_ ?_ start head c stop failed
  · intro c d stop opens failed
    exact (readArguments_refused itemSound itemRefused _ _ failed).afterBlanks.before opens
  · intro c d args next stop opens found refused
    obtain ⟨_, within⟩ := (readArguments_sound itemSound _ _ _ found).passes
    obtain ⟨_, opened⟩ := opens.skipBlank
    exact refused.afterBlanks.after (opened.append within)

theorem read_refused : ∀ (n : Nat) (c : Cursor) (stop : Stop),
    (Expr.read source n c).map Reading.pair = .error stop → Refused n c stop := by
  intro n c stop failed
  induction n generalizing c stop with
  | zero =>
      cases failed
      exact .inr ⟨rfl, Nat.zero_le _⟩
  | succ n ih =>
      obtain ⟨none, -⟩ | ⟨m, same, ⟨-, rfl⟩ | ⟨t, d, start, head, -, passes, failed⟩⟩ :=
        read_stops failed
      · cases none
      · exact .inl ⟨_, rfl, rfl⟩
      · cases same
        have refused := readApplications_refused (read_sound n) ih _ _ _ _ failed
        exact (refused.afterBlanks.after passes).afterBlanks

/-! ## Programs -/

/-- A reader looks at what follows the blanks only. -/
theorem read_congr (n : Nat) {c d : Cursor} (same : c.skipBlank = d.skipBlank) :
    (Expr.read source n c).map Reading.pair = (Expr.read source n d).map Reading.pair := by
  cases n with
  | zero => rfl
  | succ n =>
      cases found : Token.read? c.skipBlank.rest with
      | none =>
          have found' := found
          rw [same] at found'
          rw [read_none source n found, read_none source n found', same]
      | some pair =>
          obtain ⟨t, after⟩ := pair
          have passes : c.skipBlank.Passes t.spelling
              ⟨c.skipBlank.position + t.spelling.length, after⟩ :=
            ⟨(Token.read?_spelling found).1, rfl⟩
          have found' := found
          have passes' := passes
          rw [same] at found' passes'
          rw [read_token source n found passes, read_token source n found' passes', same]

theorem parse_pair (n : Nat) (source : Source) :
    parse n source =
      (Expr.read source n ⟨0, source.text.toList⟩).map Reading.pair >>= fun r =>
        if r.2.rest = [] then .ok r.1
        else .error (unreadable .trailingText source r.2.position r.2.stop) := by
  have start : Cursor.ofText source.text.toList 0 = ⟨0, source.text.toList⟩ := by
    simp [Cursor.ofText]
  rw [← start, parse]
  cases Expr.read source n (Cursor.ofText source.text.toList 0) <;> rfl

theorem parseFrom_pair (n : Nat) (source : Source) (offset : Nat) :
    parseFrom n source offset =
      ((Expr.read source n (Cursor.ofText source.text.toList offset)).map Reading.pair).map
        fun r => (r.1, r.2.position) := by
  rw [parseFrom]
  cases Expr.read source n (Cursor.ofText source.text.toList offset) <;> rfl

theorem parseFrom_eq_ok_iff {n : Nat} {source : Source} {offset next : Nat} {e : Expr} :
    parseFrom n source offset = .ok (e, next) ↔
      ∃ d, (Expr.read source n (Cursor.ofText source.text.toList offset)).map Reading.pair =
        .ok (e, d) ∧ d.position = next := by
  rw [parseFrom_pair]
  cases (Expr.read source n (Cursor.ofText source.text.toList offset)).map Reading.pair with
  | error stop => simp [Except.map]
  | ok r => simp [Except.map, Prod.ext_iff, and_assoc]

end Expr

namespace Grammar

open EggLanguage.Expr

/-- A program is read as the tree of its derivation, where the stack has room. -/
theorem Program.parse_eq {source : Source} {e : Expr} (program : Program .exact source e) (n : Nat) :
    Expr.parse n source = if e.nesting < n then .ok e else .error (.crash .stackExhausted) := by
  obtain ⟨c, d, stop, before, derived, after, ended⟩ := program
  rw [parse_pair, read_congr n before.skipBlank_eq, derived.reads n]
  have stays : stop.skipBlank.rest = [] := by
    rw [Cursor.skipBlank_rest, ended]
    rfl
  have stops : ∀ rest, d.skipBlank.rest ≠ '(' :: rest := by
    rw [after.skipBlank_eq, stays]
    exact fun rest => (List.cons_ne_nil _ _).symm
  by_cases room : e.nesting < n
  · obtain ⟨m, rfl⟩ : ∃ m, n = m + 1 := ⟨n - 1, by omega⟩
    have finish : resume source c.position e d (m + 1) = .ok (e, d.skipBlank) :=
      readApplications_stop _ _ _ _ stops
    rw [if_pos room, if_pos room, finish, after.skipBlank_eq]
    exact if_pos stays
  · rw [if_neg room, if_neg room]
    rfl

theorem program_of_parse {source : Source} {n : Nat} {e : Expr}
    (parsed : Expr.parse n source = .ok e) : Program .exact source e := by
  rw [parse_pair] at parsed
  cases found : (Expr.read source n ⟨0, source.text.toList⟩).map Reading.pair with
  | error stop =>
      rw [found] at parsed
      cases parsed
  | ok r =>
      obtain ⟨e', d⟩ := r
      rw [found] at parsed
      obtain ⟨c, d₁, before, derived, after⟩ := read_sound n _ _ _ found
      replace parsed : (if d.rest = [] then Except.ok e'
        else .error (unreadable .trailingText source d.position d.stop)) = .ok e := parsed
      split at parsed
      · cases parsed
        exact ⟨c, d₁, d, before, derived, after, ‹_›⟩
      · cases parsed

theorem refused_of_parse {source : Source} {n : Nat} {stop : Stop}
    (failed : Expr.parse n source = .error stop) :
    Expr.Refused n ⟨0, source.text.toList⟩ stop := by
  rw [parse_pair] at failed
  cases found : (Expr.read source n ⟨0, source.text.toList⟩).map Reading.pair with
  | error stop' =>
      rw [found] at failed
      cases failed
      exact read_refused n _ _ found
  | ok r =>
      rw [found] at failed
      replace failed : (if r.2.rest = [] then Except.ok r.1
        else .error (unreadable .trailingText source r.2.position r.2.stop)) = .error stop := failed
      split at failed
      · cases failed
      · cases failed
        exact .inl ⟨_, rfl, rfl⟩

/-- A text that opens fewer parentheses than the stack has room for exhausts no
stack, so a program never nests deeper than it opens parentheses. -/
theorem Program.nesting_le {source : Source} {e : Expr} (program : Program .exact source e) :
    e.nesting ≤ source.text.toList.count '(' := by
  have full := program.parse_eq e.nesting
  rw [if_neg (Nat.lt_irrefl _)] at full
  obtain ⟨f, failed, -⟩ | ⟨-, le⟩ := refused_of_parse full
  · cases failed
  · exact le

theorem Program.unique {source : Source} {e e' : Expr} (program : Program .exact source e)
    (program' : Program .exact source e') : e = e' := by
  have read := program.parse_eq (max e.nesting e'.nesting + 1)
  rw [program'.parse_eq, if_pos (by omega), if_pos (by omega)] at read
  cases read
  rfl

theorem parse_ok_iff {source : Source} {n : Nat} {e : Expr} :
    Expr.parse n source = .ok e ↔ Program .exact source e ∧ e.nesting < n := by
  constructor
  · intro parsed
    have program := program_of_parse parsed
    have read := program.parse_eq n
    rw [parsed] at read
    split at read
    · exact ⟨program, ‹_›⟩
    · cases read
  · rintro ⟨program, room⟩
    rw [program.parse_eq, if_pos room]

end Grammar

end EggLanguage
