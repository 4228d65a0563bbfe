/-
# EggLanguage.Proofs.Slices -- the spans of nodes are exact

A node of a program owns its stretch of the text.  Cut out and read on its own, the stretch
gives the node again (`Grammar.Expression.parse_slice`): what follows a node may be replaced
by anything that makes no word longer (`Grammar.Expression.replaced`), the end of the text
included, and what stands before it only moves it.

The operator and the arguments of an application take up stretches of that one, in their
order, and what is left of it are blanks and punctuation (`Grammar.Row`, `Expr.LaidOut`).
-/
import EggLanguage.Proofs.Elsewhere
import EggLanguage.Proofs.Spans
import EggLanguage.Proofs.ViablePrefix

namespace EggLanguage

set_option autoImplicit false

open EggLanguage.Text

/-! ## Places in a text -/

namespace Text

/-- What may stand in an application outside its operator and its arguments. -/
def isJoint (ch : Char) : Bool :=
  isBlank ch || ch == '(' || ch == ',' || ch == ')'

namespace Cursor

/-- A place in a text. -/
def In (c : Cursor) (text : List Char) : Prop :=
  c.rest = text.drop c.position

theorem In.start (text : List Char) : (⟨0, text⟩ : Cursor).In text :=
  rfl

theorem In.ofText (text : List Char) (offset : Nat) : (Cursor.ofText text offset).In text := by
  obtain le | le := Nat.le_total offset text.length
  · simp [In, Cursor.ofText, Nat.min_eq_left le]
  · simp [In, Cursor.ofText, Nat.min_eq_right le, List.drop_eq_nil_of_le le]

theorem In.head? {c : Cursor} {text : List Char} (within : c.In text) :
    c.rest.head? = text[c.position]? := by
  rw [within, List.head?_drop]

theorem In.passes {c d : Cursor} {text chars : List Char} (within : c.In text)
    (passes : c.Passes chars d) : d.In text := by
  have rest : d.rest = c.rest.drop chars.length := by rw [passes.rest, List.drop_left]
  rw [In, rest, within, List.drop_drop, passes.position]

/-- The characters between two places, by their offsets. -/
theorem In.getElem? {c d : Cursor} {text chars : List Char} (within : c.In text)
    (passes : c.Passes chars d) {i : Nat} (from' : c.position ≤ i) (upTo : i < d.position) :
    ∃ ch ∈ chars, text[i]? = some ch := by
  obtain ⟨k, rfl⟩ := Nat.exists_eq_add_of_le from'
  rw [passes.position, Nat.add_lt_add_iff_left] at upTo
  refine ⟨chars[k], List.getElem_mem upTo, ?_⟩
  rw [← List.getElem?_drop, ← within, passes.rest, List.getElem?_append_left upTo,
    List.getElem?_eq_getElem upTo]

/-- The characters between two places are a slice of the text. -/
theorem In.slice {c d : Cursor} {text chars : List Char} (within : c.In text)
    (passes : c.Passes chars d) :
    (text.drop c.position).take (d.position - c.position) = chars := by
  rw [← within, passes.rest, passes.position, Nat.add_sub_cancel_left, List.take_left]

/-- Nothing but joints stands between two places. -/
def Joints (c d : Cursor) : Prop :=
  ∃ chars, c.Passes chars d ∧ ∀ ch ∈ chars, isJoint ch = true

theorem Blanks.joints {c d : Cursor} (gap : c.Blanks d) : c.Joints d := by
  obtain ⟨blanks, blank, passes⟩ := gap
  refine ⟨blanks, passes, fun ch member => ?_⟩
  rw [isJoint, blank ch member]
  rfl

theorem Passes.joints {c d : Cursor} {ch : Char} (passes : c.Passes [ch] d)
    (joint : isJoint ch = true) : c.Joints d :=
  ⟨[ch], passes, List.forall_mem_singleton.2 joint⟩

theorem Joints.trans {c d e : Cursor} (first : c.Joints d) (second : d.Joints e) : c.Joints e := by
  obtain ⟨xs, passes, joint⟩ := first
  obtain ⟨ys, passes', joint'⟩ := second
  exact ⟨xs ++ ys, passes.append passes', List.forall_mem_append.2 ⟨joint, joint'⟩⟩

theorem In.isJoint {c d : Cursor} {text : List Char} (within : c.In text) (joints : c.Joints d)
    {i : Nat} (from' : c.position ≤ i) (upTo : i < d.position) :
    ∃ ch, text[i]? = some ch ∧ Text.isJoint ch = true := by
  obtain ⟨chars, passes, joint⟩ := joints
  obtain ⟨ch, member, found⟩ := within.getElem? passes from' upTo
  exact ⟨ch, found, joint ch member⟩

/-- The place as it is if the text goes on differently from a later place on. -/
def replaced (c stop : Cursor) (following : List Char) : Cursor :=
  ⟨c.position, c.rest.take (c.rest.length - stop.rest.length) ++ following⟩

theorem Passes.replaced_eq {c d : Cursor} {chars : List Char} (passes : c.Passes chars d)
    (following : List Char) : c.replaced d following = ⟨c.position, chars ++ following⟩ := by
  rw [replaced, passes.rest, List.length_append, Nat.add_sub_cancel, List.take_left]

theorem Passes.replaced {c m d : Cursor} {chars chars' : List Char} (passes : c.Passes chars m)
    (rest : m.Passes chars' d) (following : List Char) :
    (c.replaced d following).Passes chars (m.replaced d following) where
  rest := by
    rw [(passes.append rest).replaced_eq, rest.replaced_eq, List.append_assoc]
  position := passes.position

theorem Blanks.replaced {c m d : Cursor} {chars : List Char} (gap : c.Blanks m)
    (rest : m.Passes chars d) (following : List Char) :
    (c.replaced d following).Blanks (m.replaced d following) := by
  obtain ⟨blanks, blank, passes⟩ := gap
  exact ⟨blanks, blank, passes.replaced rest following⟩

end Cursor

end Text

/-! ## What follows a node -/

namespace Grammar

variable {source : Source} {following : List Char} {stop : Cursor}

/-- What may follow the last place may follow, after the same characters, any place before it. -/
theorem MayFollow.replaced (may : MayFollow stop.rest following) {c : Cursor} {chars : List Char}
    (passes : c.Passes chars stop) : MayFollow c.rest (c.replaced stop following).rest := by
  rw [passes.replaced_eq, passes.rest]
  exact may.prepend chars

mutual

/-- What follows an expression may be replaced. -/
theorem Expression.replaced (may : MayFollow stop.rest following) {c d : Cursor} {e : Expr}
    {chars : List Char} :
    Expression .exact source c e d → d.Passes chars stop →
      Expression .exact source (c.replaced stop following) e (d.replaced stop following)
  | .token lexeme passes, rest =>
      .token (lexeme.follow (may.replaced rest)) (passes.replaced rest following)
  | .apply head gap list, rest => by
      obtain ⟨_, listed⟩ := list.passes
      obtain ⟨_, -, blanks⟩ := id gap
      have later := listed.append rest
      exact .apply (head.replaced may (blanks.append later)) (gap.replaced later following)
        (list.replaced may rest)

theorem Arguments.replaced (may : MayFollow stop.rest following) {c d : Cursor}
    {es : List Expr} {chars : List Char} :
    Arguments .exact source c es d → d.Passes chars stop →
      Arguments .exact source (c.replaced stop following) es (d.replaced stop following)
  | .none opens gap closes, rest => by
      obtain ⟨_, -, blanks⟩ := id gap
      have later := closes.append rest
      exact .none (opens.replaced (blanks.append later) following) (gap.replaced later following)
        (closes.replaced rest following)
  | .some opens gap first more, rest => by
      obtain ⟨_, others⟩ := more.passes
      obtain ⟨_, argument⟩ := first.passes
      obtain ⟨_, -, blanks⟩ := id gap
      have later := others.append rest
      have fromFirst := argument.append later
      exact .some (opens.replaced (blanks.append fromFirst) following)
        (gap.replaced fromFirst following) (first.replaced may later) (more.replaced may rest)

theorem More.replaced (may : MayFollow stop.rest following) {c d : Cursor} {es : List Expr}
    {chars : List Char} :
    More .exact source c es d → d.Passes chars stop →
      More .exact source (c.replaced stop following) es (d.replaced stop following)
  | .close gap closes, rest =>
      .close (gap.replaced (closes.append rest) following) (closes.replaced rest following)
  | .comma allowed gap separator gap' closes, rest => by
      obtain ⟨_, -, blanks'⟩ := id gap'
      have later := closes.append rest
      have fromGap := blanks'.append later
      exact .comma allowed (gap.replaced (separator.append fromGap) following)
        (separator.replaced fromGap following) (gap'.replaced later following)
        (closes.replaced rest following)
  | .argument gap separator gap' next more, rest => by
      obtain ⟨_, others⟩ := more.passes
      obtain ⟨_, argument⟩ := next.passes
      obtain ⟨_, -, blanks'⟩ := id gap'
      have later := others.append rest
      have fromNext := argument.append later
      have fromGap := blanks'.append fromNext
      exact .argument (gap.replaced (separator.append fromGap) following)
        (separator.replaced fromGap following) (gap'.replaced fromNext following)
        (next.replaced may later) (more.replaced may rest)

end

/-! ## The characters of a node -/

/-- An expression on its own, without what stands around it, is read as it was, up to where it
stands. -/
theorem Expression.parse_slice {c d : Cursor} {e : Expr} (derived : Expression .exact source c e d)
    {chars : List Char} (passes : c.Passes chars d) {n : Nat} (room : e.nesting < n)
    {source' : Source} (alone : source'.text.toList = chars) :
    ∃ e', Expr.parse n source' = .ok e' ∧ e'.move c.position source = e := by
  have cut : Expression .exact source ⟨c.position, chars⟩ e ⟨d.position, []⟩ := by
    have nothing : MayFollow d.rest [] := fun _ follows => by cases follows
    have derived' := derived.replaced nothing (.nil d)
    rwa [passes.replaced_eq, (Cursor.Passes.nil d).replaced_eq, List.append_nil,
      List.append_nil] at derived'
  have read := cut.reads n
  obtain ⟨m, rfl⟩ : ∃ m, n = m + 1 := ⟨n - 1, by omega⟩
  have finish : Expr.resume source c.position e ⟨d.position, []⟩ (m + 1) =
      .ok (e, ⟨d.position, []⟩) :=
    Expr.readApplications_stop _ _ _ _ fun _ opens => by cases opens
  rw [if_pos room, finish] at read
  have moved := Expr.read_move c.position source' source (m + 1) ⟨0, chars⟩
  rw [Cursor.move, Nat.zero_add, read] at moved
  rw [Expr.parse_pair, alone]
  cases alone' : (Expr.read source' (m + 1) ⟨0, chars⟩).map Reading.pair with
  | error e =>
      rw [alone'] at moved
      cases moved
  | ok r =>
      obtain ⟨e', d'⟩ := r
      rw [alone'] at moved
      obtain ⟨same, ended⟩ := Prod.mk.inj (Except.ok.inj moved)
      have done : d'.rest = [] := (congrArg Cursor.rest ended).symm
      exact ⟨e', if_pos done, same.symm⟩

/-- Expressions one after another, with nothing but joints before, between and after them. -/
inductive Row (rules : Rules) (source : Source) : Cursor → List Expr → Cursor → Prop where
  | nil {c d : Cursor} (joints : c.Joints d) : Row rules source c [] d
  | cons {c c₁ c₂ d : Cursor} {e : Expr} {es : List Expr} (joints : c.Joints c₁)
      (first : Expression rules source c₁ e c₂) (rest : Row rules source c₂ es d) :
      Row rules source c (e :: es) d

variable {rules : Rules}

theorem Row.before {c c₁ d : Cursor} {es : List Expr} (joints : c.Joints c₁)
    (row : Row rules source c₁ es d) : Row rules source c es d := by
  cases row with
  | nil joints' => exact .nil (joints.trans joints')
  | cons joints' first rest => exact .cons (joints.trans joints') first rest

theorem More.row {c d : Cursor} {es : List Expr} : More rules source c es d →
    ∃ d', Row rules source c es d' ∧ d'.Passes [')'] d
  | .close gap closes => ⟨_, .nil gap.joints, closes⟩
  | .comma _ gap separator gap' closes =>
      ⟨_, .nil ((gap.joints.trans (separator.joints rfl)).trans gap'.joints), closes⟩
  | .argument gap separator gap' next more => by
      obtain ⟨d', row, closes⟩ := more.row
      exact ⟨d', .cons ((gap.joints.trans (separator.joints rfl)).trans gap'.joints) next row,
        closes⟩

theorem Arguments.row {c d : Cursor} {es : List Expr} (list : Arguments rules source c es d) :
    ∃ d', Row rules source c es d' ∧ d'.Passes [')'] d := by
  cases list with
  | none opens gap closes => exact ⟨_, .nil ((opens.joints rfl).trans gap.joints), closes⟩
  | some opens gap first more =>
      obtain ⟨d', row, closes⟩ := more.row
      exact ⟨d', .cons ((opens.joints rfl).trans gap.joints) first row, closes⟩

end Grammar

/-! ## Spans -/

/-- Whether a span holds the character at an offset. -/
def Span.Covers (span : Span) (offset : Nat) : Prop :=
  span.start ≤ offset ∧ offset < span.stop

/-- The characters of a text that a span holds. -/
def Span.slice (span : Span) (text : List Char) : List Char :=
  (text.drop span.start).take (span.stop - span.start)

/-- Spans in order between two offsets of a text, with nothing but joints around them. -/
structure Text.Tiled (text : List Char) (start stop : Nat) (parts : List Span) : Prop where
  inside : ∀ part ∈ parts, start ≤ part.start ∧ part.stop ≤ stop
  ordered : parts.Pairwise fun a b => a.stop ≤ b.start
  joints : ∀ i, start ≤ i → i < stop → (∀ part ∈ parts, ¬ part.Covers i) →
    ∃ ch, text[i]? = some ch ∧ isJoint ch = true

/-- How the operator and the arguments of an application lie in the stretch of the text that the
application was read from. -/
structure Expr.LaidOut (text : List Char) (whole operator : Span) (args : List Span) : Prop where
  starts : operator.start = whole.start
  closes : whole.start < whole.stop ∧ text[whole.stop - 1]? = some ')'
  /-- The operator and the arguments stand before the last parenthesis. -/
  tiled : Text.Tiled text whole.start (whole.stop - 1) (operator :: args)

namespace Grammar

variable {rules : Rules} {source : Source}

theorem Row.passes {c d : Cursor} {es : List Expr} (row : Row rules source c es d) :
    ∃ chars, c.Passes chars d := by
  induction row with
  | nil joints =>
      obtain ⟨_, passes, -⟩ := joints
      exact ⟨_, passes⟩
  | cons joints first rest ih =>
      obtain ⟨_, before, -⟩ := joints
      obtain ⟨_, expression⟩ := first.passes
      obtain ⟨_, after⟩ := ih
      exact ⟨_, (before.append expression).append after⟩

/-- The expressions of a row have spans that tile the stretch of the row. -/
theorem Row.tiled {c d : Cursor} {es : List Expr} {text : List Char} (row : Row rules source c es d)
    (within : c.In text) :
    ∃ parts, es.map Expr.span? = parts.map some ∧ Tiled text c.position d.position parts := by
  induction row with
  | nil joints =>
      exact ⟨[], rfl, List.forall_mem_nil _, .nil, fun i from' upTo _ =>
        within.isJoint joints from' upTo⟩
  | @cons c c₁ c₂ d e es joints first rest ih =>
      obtain ⟨_, before, -⟩ := id joints
      obtain ⟨_, passes⟩ := first.passes
      obtain ⟨parts, spans, tiled⟩ := ih ((within.passes before).passes passes)
      have starts : c.position ≤ c₁.position := before.position ▸ Nat.le_add_right _ _
      have taken := first.position_lt
      obtain ⟨_, after⟩ := rest.passes
      have remains : c₂.position ≤ d.position := after.position ▸ Nat.le_add_right _ _
      refine ⟨⟨c₁.position, c₂.position, some source⟩ :: parts, ?_, ?_, ?_, ?_⟩
      · rw [List.map_cons, List.map_cons, first.span?_eq, spans]
      · refine List.forall_mem_cons.2 ⟨⟨starts, remains⟩, fun part member => ?_⟩
        obtain ⟨later, upTo⟩ := tiled.inside part member
        exact ⟨by omega, upTo⟩
      · exact List.pairwise_cons.2 ⟨fun part member => (tiled.inside part member).1, tiled.ordered⟩
      · intro i from' upTo outside
        rw [List.forall_mem_cons] at outside
        by_cases early : i < c₁.position
        · exact within.isJoint joints from' early
        · refine tiled.joints i (Nat.le_of_not_lt fun inside => ?_) upTo outside.2
          exact outside.1 ⟨Nat.le_of_not_lt early, inside⟩

theorem Expression.laidOut {c d : Cursor} {operator : Expr} {args : List Expr} {span : Span}
    (derived : Expression rules source c (.apply operator args span) d) {text : List Char}
    (within : c.In text) :
    ∃ first others, operator.span? = some first ∧ args.map Expr.span? = others.map some ∧
      Expr.LaidOut text span first others := by
  generalize same : Expr.apply operator args span = e at derived
  cases derived with
  | @token _ _ t lexeme passes => cases t <;> cases same
  | @apply _ c₁ c₂ _ _ _ head gap list =>
      cases same
      obtain ⟨d', row, closes⟩ := list.row
      have whole : Row rules source c (operator :: args) d' :=
        .cons ⟨[], .nil c, List.forall_mem_nil _⟩ head (row.before gap.joints)
      obtain ⟨parts, spans, tiled⟩ := whole.tiled within
      obtain ⟨first, others, rfl⟩ : ∃ first others, parts = first :: others := by
        cases parts with
        | nil => cases spans
        | cons first others => exact ⟨first, others, rfl⟩
      obtain ⟨operatorSpan, argSpans⟩ := List.cons.inj spans
      have starts : first.start = c.position := by
        rw [head.span?_eq] at operatorSpan
        rw [← Option.some.inj operatorSpan]
      have ends : d.position - 1 = d'.position := by
        rw [closes.position, List.length_singleton, Nat.add_sub_cancel]
      refine ⟨first, others, operatorSpan, argSpans, starts, ⟨?_, ?_⟩, ?_⟩
      · exact (Expression.apply head gap list).position_lt
      · obtain ⟨_, before⟩ := whole.passes
        obtain ⟨ch, member, found⟩ := (within.passes before).getElem? closes (Nat.le_refl _)
          (closes.position ▸ Nat.lt_succ_self _)
        rw [ends, found, List.mem_singleton.1 member]
      · show Tiled text c.position (d.position - 1) (first :: others)
        rwa [ends]

end Grammar

/-! ## Programs -/

namespace Expr

open EggLanguage.Grammar

mutual

/-- A node takes no more room to read than the program it stands in. -/
theorem WellFormed.nesting_node_le : ∀ {e x : Expr}, e.WellFormed → x ∈ e.nodes →
    x.nesting ≤ e.nesting
  | literal _ _, _, _, node => List.mem_singleton.1 node ▸ Nat.le_refl _
  | word _ _, _, _, node => List.mem_singleton.1 node ▸ Nat.le_refl _
  | apply _ _ _, _, formed, node => by
      rcases List.mem_cons.1 node with rfl | node
      · exact Nat.le_refl _
      · rcases List.mem_append.1 node with node | node
        · exact Nat.le_trans (formed.1.nesting_node_le node) (Nat.le_max_left _ _)
        · exact Nat.le_trans (AreWellFormed.nesting_node_le formed.2 node) (Nat.le_max_right _ _)
  | function _ _ _ _ _ _, _, formed, _ => formed.elim
  | abstract, _, formed, _ => formed.elim

theorem AreWellFormed.nesting_node_le : ∀ {es : List Expr} {x : Expr}, AreWellFormed es →
    x ∈ nodesOfArgs es → x.nesting ≤ nestingOfArgs es
  | [], _, _, node => by cases node
  | _ :: _, _, formed, node => by
      rcases List.mem_append.1 node with node | node
      · have le := formed.1.nesting_node_le node
        exact Nat.le_trans (Nat.le_succ_of_le le) (Nat.le_max_left _ _)
      · exact Nat.le_trans (AreWellFormed.nesting_node_le formed.2 node) (Nat.le_max_right _ _)

end

/-- A node of a program of a source has a span that is exactly its stretch of the text. -/
structure Spanned (nesting : Nat) (source : Source) (x : Expr) (span : Span) : Prop where
  span? : x.span? = some span
  origin : span.source = some source
  nonempty : span.start < span.stop
  bounded : span.stop ≤ source.text.length
  /-- The stretch on its own is a program: the node, with its spans counted from its start. -/
  alone : ∀ source' : Source, source'.text.toList = span.slice source.text.toList →
    ∃ e, parse nesting source' = .ok e ∧ e.move span.start source = x
  laidOut : ∀ operator args whole, x = apply operator args whole →
    ∃ first others, operator.span? = some first ∧ args.map Expr.span? = others.map some ∧
      LaidOut source.text.toList span first others

/-- All spans of a program are exact. -/
theorem spanned_of_parse {n : Nat} {source : Source} {program : Expr}
    (parsed : parse n source = .ok program) :
    ∀ x ∈ program.nodes, ∃ span, x.Spanned n source span := by
  intro x node
  obtain ⟨derivation, room⟩ := parse_ok_iff.1 parsed
  obtain ⟨stop, ⟨c, d, ⟨_, before⟩, derived, -⟩, -⟩ := derivation.of_mem_nodes node
  have within : c.In source.text.toList := (Cursor.In.start _).passes before
  have spanned := derived.span?_eq
  obtain ⟨nonempty, bounded⟩ := span_of_parse parsed node spanned
  refine ⟨_, spanned, rfl, nonempty, bounded, fun source' cut => ?_, ?_⟩
  · obtain ⟨_, passes⟩ := derived.passes
    have small := (wellFormed_of_parse parsed).nesting_node_le node
    exact derived.parse_slice passes (Nat.lt_of_le_of_lt small room)
      (cut.trans (within.slice passes))
  · rintro operator args whole rfl
    cases spanned
    exact derived.laidOut within

/-- A call of the result of a call, with blanks, a parenthesis in a string and a comma at the
end. -/
def curried : Source :=
  ⟨0, " f (1)( \"a(\" , 2,) "⟩

def curriedTree : Expr :=
  .apply
    (.apply (.word "f" ⟨1, 2, some curried⟩) [.literal (.int 1) ⟨4, 5, some curried⟩]
      ⟨1, 6, some curried⟩)
    [.literal (.string "a(") ⟨8, 12, some curried⟩, .literal (.int 2) ⟨15, 16, some curried⟩]
    ⟨1, 18, some curried⟩

/-- Both calls start at the word, and the stretch of each is a program. -/
theorem spanned_curried :
    parse 3 curried = .ok curriedTree ∧
      ∀ x ∈ curriedTree.nodes, ∃ span, x.Spanned 3 curried span := by
  have parsed : parse 3 curried = .ok curriedTree := by with_unfolding_all rfl
  exact ⟨parsed, spanned_of_parse parsed⟩

end Expr

end EggLanguage
