/-
# EggLanguage.Proofs.Progress -- reading goes forward and ends

The reader is a loop over the arguments of a list inside a loop over the lists after an
expression, and the inner loop reads expressions in turn.  Here it is taken apart into what it
does between two tests of these loops (`Scan.step`).  A `Scan` is a state of reading: a place, what
comes next there, and the lists of arguments that are open around it.  Nothing makes such a machine
end, or keeps it in the text, so `Scan.run` counts its steps and may have no result.

`Scan.Effect` says once what a step can do, and three facts follow from it:

* a step goes forward through the text (`Effect.passes`), so that the machine never leaves it;
* it takes a character off the text, or goes on to a task of lower rank (`Effect.weight_lt`), so that
  the machine ends.  The loop over arguments goes on at the end of the text too, to an expression
  that is not there;
* it leaves alone what the reader gives from the state on (`Effect.finish_eq`), so that the machine
  ends with what the reader gives (`run_eq`).

`Expr.parseFrom_progress` puts them together, with what is known of an expression that is read.
Reading can also end for want of room: `Expr.parseFrom_exhausted` shows a text for which the
interpreter has none.
-/
import EggLanguage.Limits
import EggLanguage.Proofs.Slices

namespace EggLanguage

set_option autoImplicit false

open EggLanguage.Text
open EggLanguage.Expr
open EggLanguage.Grammar

/-! ## Places -/

namespace Text.Cursor

/-- A place between two characters of a text, or at one of its ends. -/
structure Inside (c : Cursor) (text : List Char) : Prop where
  position_le : c.position ≤ text.length
  rest_eq : c.In text

theorem Inside.ofText (text : List Char) (offset : Nat) : (Cursor.ofText text offset).Inside text :=
  ⟨Nat.min_le_right _ _, .ofText text offset⟩

theorem Inside.passes {c d : Cursor} {text chars : List Char} (inside : c.Inside text)
    (passes : c.Passes chars d) : d.Inside text := by
  refine ⟨?_, inside.rest_eq.passes passes⟩
  have total := passes.position_add
  have rest := congrArg List.length inside.rest_eq
  have le := inside.position_le
  rw [List.length_drop] at rest
  omega

end Text.Cursor

/-! ## Reading step by step -/

/-- A list of arguments that is not closed yet: the expression that it applies, where that starts,
and the arguments read so far. -/
structure OpenList where
  start : Nat
  head : Expr
  args : List Expr
  deriving Repr

namespace OpenList

def add (list : OpenList) (e : Expr) : OpenList :=
  { list with args := list.args ++ [e] }

/-- The application that the list makes if it is closed at `stop` after some more arguments. -/
def close (list : OpenList) (source : Source) (args : List Expr) (stop : Nat) : Expr :=
  .apply list.head (list.args ++ args) ⟨list.start, stop, some source⟩

theorem close_add (list : OpenList) (source : Source) (e : Expr) (args : List Expr) (stop : Nat) :
    (list.add e).close source args stop = list.close source (e :: args) stop := by
  simp [close, add]

end OpenList

/-- What comes next at a place. -/
inductive Scan.Task where
  | expression
  /-- A test of the loop over the lists of arguments after an expression, which starts at `start`. -/
  | applications (start : Nat) (e : Expr)
  /-- A test of the loop over the arguments of a list. -/
  | arguments (list : OpenList)
  deriving Repr

/-- A state of reading: a place, what comes next there, and the lists of arguments that are open
around that, from the inside out. -/
structure Scan where
  place : Cursor
  task : Scan.Task
  outer : List OpenList
  deriving Repr

namespace Scan

/-- What a step leads to. -/
inductive Next where
  | goesOn (s : Scan)
  | ends (result : Except Stop (Expr × Cursor))

/-- The step after an expression that no list of arguments follows: it is an argument of the
innermost list, or all there was to read. -/
def leave (source : Source) (e : Expr) (c : Cursor) : List OpenList → Next
  | [] => .ends (.ok (e, c))
  | list :: outer =>
      match c.rest with
      | ',' :: after =>
          .goesOn ⟨Cursor.skipBlank ⟨c.position + 1, after⟩, .arguments (list.add e), outer⟩
      | ')' :: _ => .goesOn ⟨c, .arguments (list.add e), outer⟩
      | _ => .ends (.error (unreadable .unseparated source c.position (c.position + 1)))

/-- One step of reading, with room for `n` expressions inside each other. -/
def step (n : Nat) (source : Source) : Scan → Next
  | ⟨c, .expression, outer⟩ =>
      if n ≤ outer.length then .ends exhausted
      else
        let first := c.skipBlank
        match Token.read? first.rest with
        | none =>
            .ends (.error
              (unreadable (.noExpression (String.ofList first.rest)) source first.position first.stop))
        | some (token, after) =>
            let stop := first.position + token.spelling.length
            let head := token.node ⟨first.position, stop, some source⟩
            .goesOn ⟨Cursor.skipBlank ⟨stop, after⟩, .applications first.position head, outer⟩
  | ⟨c, .applications start e, outer⟩ =>
      match c.rest with
      | '(' :: after =>
          .goesOn ⟨Cursor.skipBlank ⟨c.position + 1, after⟩, .arguments ⟨start, e, []⟩, outer⟩
      | _ => leave source e c outer
  | ⟨c, .arguments list, outer⟩ =>
      match c.rest with
      | ')' :: after =>
          .goesOn ⟨Cursor.skipBlank ⟨c.position + 1, after⟩,
            .applications list.start (list.close source [] (c.position + 1)), outer⟩
      | _ => .goesOn ⟨c, .expression, list :: outer⟩

/-- What reading ends with, if it ends within so many steps. -/
def run (n : Nat) (source : Source) : (steps : Nat) → Scan → Option (Except Stop (Expr × Cursor))
  | 0, _ => none
  | steps + 1, s =>
      match s.step n source with
      | .goesOn s' => run n source steps s'
      | .ends result => some result

/-- The states of reading for so many steps. -/
def states (n : Nat) (source : Source) : (steps : Nat) → Scan → List Scan
  | 0, s => [s]
  | steps + 1, s =>
      match s.step n source with
      | .goesOn s' => s :: states n source steps s'
      | .ends _ => [s]

/-- Reading starts at an offset of a source. -/
def start (source : Source) (offset : Nat) : Scan :=
  ⟨Cursor.ofText source.text.toList offset, .expression, []⟩

variable {n : Nat} {source : Source}

/-- What a step does. -/
inductive Effect (n : Nat) (source : Source) : Scan → Next → Prop where
  | exhausted {c : Cursor} {outer : List OpenList} (full : n ≤ outer.length) :
      Effect n source ⟨c, .expression, outer⟩ (.ends exhausted)
  | absent {c : Cursor} {outer : List OpenList} (room : outer.length < n)
      (absent : Token.read? c.skipBlank.rest = none) :
      Effect n source ⟨c, .expression, outer⟩ (.ends (.error
        (unreadable (.noExpression (String.ofList c.skipBlank.rest)) source
          c.skipBlank.position c.skipBlank.stop)))
  | token {c d : Cursor} {t : Token} {outer : List OpenList} (room : outer.length < n)
      (found : Token.read? c.skipBlank.rest = some (t, d.rest))
      (passes : c.skipBlank.Passes t.spelling d) :
      Effect n source ⟨c, .expression, outer⟩
        (.goesOn ⟨d.skipBlank, .applications c.skipBlank.position
          (t.node ⟨c.skipBlank.position, d.position, some source⟩), outer⟩)
  | opens {c d : Cursor} {start : Nat} {e : Expr} {outer : List OpenList}
      (passes : c.Passes ['('] d) :
      Effect n source ⟨c, .applications start e, outer⟩
        (.goesOn ⟨d.skipBlank, .arguments ⟨start, e, []⟩, outer⟩)
  | complete {c : Cursor} {start : Nat} {e : Expr} (noList : ∀ after, c.rest ≠ '(' :: after) :
      Effect n source ⟨c, .applications start e, []⟩ (.ends (.ok (e, c)))
  | comma {c d : Cursor} {start : Nat} {e : Expr} {list : OpenList} {outer : List OpenList}
      (separator : c.Passes [','] d) :
      Effect n source ⟨c, .applications start e, list :: outer⟩
        (.goesOn ⟨d.skipBlank, .arguments (list.add e), outer⟩)
  | last {c d : Cursor} {start : Nat} {e : Expr} {list : OpenList} {outer : List OpenList}
      (closes : c.Passes [')'] d) :
      Effect n source ⟨c, .applications start e, list :: outer⟩
        (.goesOn ⟨c, .arguments (list.add e), outer⟩)
  | unseparated {c : Cursor} {start : Nat} {e : Expr} {list : OpenList} {outer : List OpenList}
      (noList : ∀ after, c.rest ≠ '(' :: after) (noComma : ∀ after, c.rest ≠ ',' :: after)
      (noClose : ∀ after, c.rest ≠ ')' :: after) :
      Effect n source ⟨c, .applications start e, list :: outer⟩
        (.ends (.error (unreadable .unseparated source c.position (c.position + 1))))
  | closes {c d : Cursor} {list : OpenList} {outer : List OpenList} (passes : c.Passes [')'] d) :
      Effect n source ⟨c, .arguments list, outer⟩
        (.goesOn ⟨d.skipBlank, .applications list.start (list.close source [] d.position), outer⟩)
  | argument {c : Cursor} {list : OpenList} {outer : List OpenList}
      (noClose : ∀ after, c.rest ≠ ')' :: after) :
      Effect n source ⟨c, .arguments list, outer⟩ (.goesOn ⟨c, .expression, list :: outer⟩)

theorem effect_step (n : Nat) (source : Source) (s : Scan) : Effect n source s (s.step n source) := by
  obtain ⟨c, task, outer⟩ := s
  have passes : ∀ {symbol : Char} {after : List Char}, c.rest = symbol :: after →
      c.Passes [symbol] ⟨c.position + 1, after⟩ := fun follows =>
    Cursor.passes_singleton_iff.2 ⟨_, follows, rfl⟩
  cases task with
  | expression =>
      rw [step]
      split
      · exact .exhausted ‹_›
      · have room : outer.length < n := Nat.lt_of_not_le ‹_›
        dsimp only
        split
        · exact .absent room ‹_›
        · rename_i token after found
          exact .token (d := ⟨_, after⟩) room found ⟨(Token.read?_spelling found).1, rfl⟩
  | applications start e =>
      rw [step]
      split
      · exact .opens (passes ‹_›)
      · rename_i noList
        cases outer with
        | nil => exact .complete noList
        | cons list outer =>
            rw [leave]
            split
            · exact .comma (passes ‹_›)
            · exact .last (passes ‹_›)
            · exact .unseparated noList ‹_› ‹_›
  | arguments list =>
      rw [step]
      split
      · exact .closes (passes ‹_›)
      · exact .argument ‹_›

/-! ### Steps go forward -/

theorem Effect.passes {s s' : Scan} (effect : Effect n source s (.goesOn s')) :
    ∃ chars, s.place.Passes chars s'.place := by
  cases effect with
  | @token c d t outer room found passes =>
      obtain ⟨_, -, blanks⟩ := Cursor.blanks_skipBlank c
      exact (blanks.append passes).skipBlank
  | opens passes => exact passes.skipBlank
  | comma separator => exact separator.skipBlank
  | last => exact ⟨_, .nil _⟩
  | closes passes => exact passes.skipBlank
  | argument => exact ⟨_, .nil _⟩

/-- Reading stays inside the text. -/
theorem inside_of_mem_states {text : List Char} (steps : Nat) {s : Scan}
    (inside : s.place.Inside text) : ∀ s' ∈ s.states n source steps, s'.place.Inside text := by
  induction steps generalizing s with
  | zero => simpa [states] using inside
  | succ steps ih =>
      have effect := effect_step n source s
      rw [states]
      cases next : s.step n source with
      | goesOn s' =>
          rw [next] at effect
          obtain ⟨_, passes⟩ := effect.passes
          exact List.forall_mem_cons.2 ⟨inside, ih (inside.passes passes)⟩
      | ends result => simpa using inside

/-! ### Steps end -/

/-- How many steps can follow at most. -/
def weight (s : Scan) : Nat :=
  3 * s.place.rest.length +
    match s.task with
    | .expression => 0
    | .arguments _ => 1
    | .applications _ _ => 2

theorem weight_le (s : Scan) : s.weight ≤ 3 * s.place.rest.length + 2 := by
  unfold weight
  split <;> omega

theorem Effect.weight_lt {s s' : Scan} (effect : Effect n source s (.goesOn s')) :
    s'.weight < s.weight := by
  cases effect with
  | @token c d t outer room found passes =>
      have taken := Token.read?_length_lt found
      have before := Cursor.skipBlank_length_le c
      have after := Cursor.skipBlank_length_le d
      simp only [weight]
      omega
  | opens passes =>
      have shorter := passes.skipBlank_length_lt
      simp only [weight]
      omega
  | comma separator =>
      have shorter := separator.skipBlank_length_lt
      simp only [weight]
      omega
  | last => simp [weight]
  | closes passes =>
      have shorter := passes.skipBlank_length_lt
      simp only [weight]
      omega
  | argument => simp [weight]

/-! ### Steps follow the reader -/

/-- The reader of the arguments of a list that is open inside others. -/
abbrev argument (n : Nat) (source : Source) (outer : List OpenList) : Item :=
  read source (n - (outer.length + 1))

/-- The reader goes on after the last arguments of a list: with the application that they make
and the lists after it. -/
def closeWith (n : Nat) (source : Source) (list : OpenList) (outer : List OpenList)
    (rest : List Expr × Cursor) : Except Stop (Expr × Cursor) :=
  (readApplications (argument n source outer) source list.start
    (list.close source rest.1 rest.2.position) rest.2.skipBlank).map Extension.pair

/-- The reader goes on after an expression inside the given lists. -/
def resume (n : Nat) (source : Source) :
    List OpenList → Expr × Cursor → Except Stop (Expr × Cursor)
  | [], r => .ok r
  | list :: outer, (e, d) =>
      readAfter (argument n source outer) source e d >>= fun rest =>
        closeWith n source list outer rest >>= resume n source outer

/-- What the reader gives from a state on. -/
def finish (n : Nat) (source : Source) : Scan → Except Stop (Expr × Cursor)
  | ⟨c, .expression, outer⟩ =>
      (read source (n - outer.length) c).map Reading.pair >>= resume n source outer
  | ⟨c, .applications start e, outer⟩ =>
      (readApplications (argument n source outer) source start e c).map Extension.pair >>=
        resume n source outer
  | ⟨c, .arguments list, outer⟩ =>
      (readArguments (argument n source outer) source c).map Reading.pair >>= fun rest =>
        closeWith n source list outer rest >>= resume n source outer

def Next.finish (n : Nat) (source : Source) : Next → Except Stop (Expr × Cursor)
  | goesOn s => s.finish n source
  | ends result => result

theorem closeWith_add (list : OpenList) (outer : List OpenList) (e : Expr) (args : List Expr)
    (d : Cursor) :
    closeWith n source (list.add e) outer (args, d) =
      closeWith n source list outer (e :: args, d) := by
  simp only [closeWith, OpenList.close_add]
  rfl

/-- A step does not change what the reader gives. -/
theorem Effect.finish_eq {s : Scan} {next : Next} (effect : Effect n source s next) :
    next.finish n source = s.finish n source := by
  cases effect with
  | @exhausted c outer full =>
      have noRoom : n - outer.length = 0 := by omega
      simp only [Next.finish, finish, noRoom]
      rfl
  | @absent c outer room absent =>
      obtain ⟨m, left⟩ : ∃ m, n - outer.length = m + 1 := ⟨n - outer.length - 1, by omega⟩
      simp only [Next.finish, finish, left, read_none source m absent]
      rfl
  | @token c d t outer room found passes =>
      obtain ⟨m, left⟩ : ∃ m, n - outer.length = m + 1 := ⟨n - outer.length - 1, by omega⟩
      have inner : Scan.argument n source outer = read source m := by
        rw [Scan.argument, ← Nat.sub_sub, left, Nat.add_sub_cancel]
      simp only [Next.finish, finish, left, inner, read_token source m found passes]
  | opens passes =>
      simp only [Next.finish, finish, readApplications_open _ source _ _ passes, bind_assoc]
      rfl
  | complete noList =>
      simp only [Next.finish, finish, readApplications_stop _ source _ _ noList]
      rfl
  | @comma c d start e list outer separator =>
      have noList := separator.ne_cons (by decide : ',' ≠ '(')
      simp only [Next.finish, finish, readApplications_stop _ source _ _ noList]
      show _ = resume n source (list :: outer) (e, c)
      rw [resume, readAfter_comma _ source e separator, bind_assoc]
      exact bind_congr fun ⟨args, next⟩ => by rw [closeWith_add]; rfl
  | @last c d start e list outer closes =>
      have noList := closes.ne_cons (by decide : ')' ≠ '(')
      simp only [Next.finish, finish, readApplications_stop _ source _ _ noList,
        readArguments_close _ source closes]
      show closeWith n source (list.add e) outer ([], d) >>= resume n source outer =
        resume n source (list :: outer) (e, c)
      rw [resume, readAfter_close _ source e closes, closeWith_add]
      rfl
  | @unseparated c start e list outer noList noComma noClose =>
      simp only [Next.finish, finish, readApplications_stop _ source _ _ noList]
      show _ = resume n source (list :: outer) (e, c)
      rw [resume, readAfter_none noComma noClose]
      rfl
  | closes passes =>
      simp only [Next.finish, finish, readArguments_close _ source passes]
      rfl
  | argument noClose =>
      simp only [Next.finish, finish, readArguments_item _ source noClose, bind_assoc]
      rfl

/-- Reading ends, with what the reader gives. -/
theorem run_eq {steps : Nat} {s : Scan} (enough : s.weight < steps) :
    s.run n source steps = some (s.finish n source) := by
  induction steps generalizing s with
  | zero => omega
  | succ steps ih =>
      have effect := effect_step n source s
      rw [run]
      cases next : s.step n source with
      | goesOn s' =>
          rw [next] at effect
          have lighter := effect.weight_lt
          rw [← effect.finish_eq]
          exact ih (by omega)
      | ends result =>
          rw [next] at effect
          rw [← effect.finish_eq]
          rfl

theorem finish_start (n : Nat) (source : Source) (offset : Nat) :
    (start source offset).finish n source =
      (read source n (Cursor.ofText source.text.toList offset)).map Reading.pair := by
  show (read source n (Cursor.ofText source.text.toList offset)).map Reading.pair >>= _ = _
  cases (read source n (Cursor.ofText source.text.toList offset)).map Reading.pair <;> rfl

theorem weight_start (source : Source) (offset : Nat) :
    (start source offset).weight = 3 * (source.text.length - offset) := by
  simp [weight, start, Cursor.ofText, String.length_toList]

end Scan

/-! ## Expressions that are read -/

namespace Text

/-- How an expression of the span `span` lies in a text, if it is looked for from `offset` on and
reading goes on at `next`. -/
structure Delimited (text : List Char) (offset next : Nat) (span : Span) : Prop where
  starts : offset ≤ span.start
  nonempty : span.start < span.stop
  stops : span.stop ≤ next
  bounded : next ≤ text.length
  before : ∀ i, offset ≤ i → i < span.start → ∃ ch, text[i]? = some ch ∧ isBlank ch = true
  after : ∀ i, span.stop ≤ i → i < next → ∃ ch, text[i]? = some ch ∧ isBlank ch = true
  /-- The next character, if there is one, starts a token, but no list of arguments. -/
  next : ∀ ch, text[next]? = some ch → isBlank ch = false ∧ ch ≠ '('

/-- The characters that blanks pass over. -/
theorem Cursor.Inside.isBlank {c d : Cursor} {text : List Char} (inside : c.Inside text)
    (gap : c.Blanks d) {i : Nat} (from' : c.position ≤ i) (upTo : i < d.position) :
    ∃ ch, text[i]? = some ch ∧ Text.isBlank ch = true := by
  obtain ⟨blanks, blank, passes⟩ := gap
  obtain ⟨ch, member, found⟩ := inside.rest_eq.getElem? passes from' upTo
  exact ⟨ch, found, blank ch member⟩

end Text

namespace Expr

variable {n : Nat} {source : Source}

theorem delimited_of_read {c d : Cursor} {e : Expr} (inside : c.Inside source.text.toList)
    (found : (read source n c).map Reading.pair = .ok (e, d)) :
    ∃ span, e.span? = some span ∧ Delimited source.text.toList c.position d.position span := by
  obtain ⟨⟨c₁, d₁, before, derived, after⟩, -, token, noList⟩ := stands_of_read found
  obtain ⟨_, -, first⟩ := id before
  obtain ⟨_, within⟩ := derived.passes
  obtain ⟨_, -, last⟩ := id after
  have stopInside := (inside.passes first).passes within
  have nextInside := stopInside.passes last
  have next := nextInside.rest_eq.head?
  refine ⟨_, derived.span?_eq, ?_, derived.position_lt, ?_, nextInside.position_le,
    fun i => inside.isBlank before, fun i => stopInside.isBlank after, fun ch here => ⟨?_, ?_⟩⟩
  · exact first.position ▸ Nat.le_add_right _ _
  · exact last.position ▸ Nat.le_add_right _ _
  · exact token ch (next.trans here)
  · rintro rfl
    obtain ⟨after, follows⟩ := List.head?_eq_some_iff.1 (next.trans here)
    exact noList after follows

/-- **Reading goes forward and ends.**  From any state whatever the reader's loops end after at
most three steps for each character that is left and three more.  Started at an offset, they
stay inside the text and give what is read there: an expression that lies in the text between
blanks, or a failure of grammar.  Else the stack was exhausted, and then at least as many
parentheses open behind the offset as it has room for. -/
theorem parseFrom_progress (n : Nat) (source : Source) (offset : Nat) :
    (∀ s : Scan, (s.run n source (3 * s.place.rest.length + 3)).isSome) ∧
    (∀ steps, ∀ s ∈ (Scan.start source offset).states n source steps,
      s.place.Inside source.text.toList) ∧
    (∃ result,
      (Scan.start source offset).run n source (3 * (source.text.length - offset) + 1) = some result ∧
        parseFrom n source offset = result.map fun r => (r.1, r.2.position)) ∧
    match parseFrom n source offset with
    | .ok (e, next) =>
        ∃ span, e.span? = some span ∧ Delimited source.text.toList offset next span
    | .error (.failure f) => f.cause.kind = .grammar
    | .error (.crash c) =>
        c = .stackExhausted ∧ n ≤ (source.text.toList.drop offset).count '(' := by
  have inside := Cursor.Inside.ofText source.text.toList offset
  refine ⟨fun s => ?_, fun steps => Scan.inside_of_mem_states steps inside, ?_, ?_⟩
  · rw [Scan.run_eq (Nat.lt_succ_of_le s.weight_le)]
    rfl
  · have enough : (Scan.start source offset).weight < 3 * (source.text.length - offset) + 1 :=
      Nat.lt_succ_of_le (Nat.le_of_eq (Scan.weight_start source offset))
    exact ⟨_, Scan.run_eq enough, by rw [Scan.finish_start, parseFrom_pair]⟩
  · rw [parseFrom_pair]
    cases found : (read source n (Cursor.ofText source.text.toList offset)).map Reading.pair with
    | ok r =>
        obtain ⟨span, spanned, delimited⟩ := delimited_of_read inside found
        -- behind the end of the text there is nothing to read
        have position : (Cursor.ofText source.text.toList offset).position = offset := by
          have ⟨starts, nonempty, stops, bounded, _, _, _⟩ := delimited
          simp only [Cursor.ofText] at starts ⊢
          omega
        exact ⟨span, spanned, position ▸ delimited⟩
    | error stop =>
        obtain ⟨f, rfl, grammar⟩ | ⟨rfl, full⟩ := read_refused n _ stop found
        · exact grammar
        · exact ⟨rfl, full⟩

-- A text that stops behind a comma: the loop over arguments goes on to an expression.
example : (Scan.start ⟨0, "f(1,"⟩ 0).run 2 ⟨0, "f(1,"⟩ 7 =
    some (.error (unreadable (.noExpression "") ⟨0, "f(1,"⟩ 4 4)) := by
  rfl

/-! ## Texts that exhaust the stack -/

/-- So many calls inside each other, none of which is closed. -/
def openCalls : Nat → List Char
  | 0 => []
  | k + 1 => 'f' :: '(' :: openCalls k

theorem read_openCalls {k : Nat} (full : n ≤ k) (position : Nat) :
    (read source n ⟨position, openCalls k⟩).map Reading.pair = exhausted := by
  induction n generalizing k position with
  | zero => rfl
  | succ n ih =>
      obtain ⟨k, rfl⟩ : ∃ m, k = m + 1 := ⟨k - 1, by omega⟩
      have found : Token.read? (Cursor.skipBlank ⟨position, openCalls (k + 1)⟩).rest =
          some (.word ['f'], '(' :: openCalls k) := rfl
      have opens : (Cursor.skipBlank ⟨position + 1, '(' :: openCalls k⟩).Passes ['(']
          ⟨position + 2, openCalls k⟩ := ⟨rfl, rfl⟩
      have ready : Cursor.skipBlank ⟨position + 2, openCalls k⟩ = ⟨position + 2, openCalls k⟩ := by
        cases k <;> rfl
      have noClose : ∀ after, openCalls k ≠ ')' :: after := by
        cases k <;> simp [openCalls]
      rw [read_token source n (d := ⟨position + 1, _⟩) found ⟨rfl, rfl⟩,
        readApplications_open _ source _ _ opens, ready, readArguments_item _ source noClose,
        ih (Nat.le_of_succ_le_succ full)]
      rfl

/-- Five thousand open calls are neither read nor refused. -/
theorem parseFrom_exhausted :
    ¬ ((∃ r, parseFrom Limits.standard.nesting ⟨0, String.ofList (openCalls 5000)⟩ 0 = .ok r) ∨
      ∃ f, parseFrom Limits.standard.nesting ⟨0, String.ofList (openCalls 5000)⟩ 0 =
        .error (.failure f)) := by
  have full : Limits.standard.nesting ≤ 5000 := by decide
  have crashed : parseFrom Limits.standard.nesting ⟨0, String.ofList (openCalls 5000)⟩ 0 =
      .error (.crash .stackExhausted) := by
    have start : Cursor.ofText (String.ofList (openCalls 5000)).toList 0 = ⟨0, openCalls 5000⟩ := by
      rw [String.toList_ofList, Cursor.ofText, Nat.zero_min, List.drop_zero]
    rw [parseFrom_pair, start, read_openCalls full]
    rfl
  rintro (⟨r, parsed⟩ | ⟨f, failed⟩)
  · rw [crashed] at parsed
    cases parsed
  · rw [crashed] at failed
    cases failed

end Expr

end EggLanguage
