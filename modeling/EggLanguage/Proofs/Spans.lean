/-
# EggLanguage.Proofs.Spans -- the characters that a node was read from

Every node of a derived tree has a derivation of its own, between two places within those
of the whole (`Grammar.Expression.of_mem_nodes`).  Its span names these two places and the
source.  So the nodes of a program were read from its source, and each of them covers
characters of it (`readFrom_of_parse`, `Expr.span_of_parse`).
-/
import EggLanguage.Proofs.Bodies
import EggLanguage.Proofs.Reading

namespace EggLanguage

set_option autoImplicit false

open EggLanguage.Text

/-- All nodes of the expression were read from the source. -/
def ReadFrom (source : Source) (e : Expr) : Prop :=
  ∀ x ∈ e.nodes, ∀ span, x.span? = some span → span.source = some source

namespace Grammar

variable {rules : Rules} {source : Source}

theorem nodes_node (t : Token) (span : Span) : (t.node span).nodes = [t.node span] := by
  cases t <;> rfl

theorem span?_node (t : Token) (span : Span) : (t.node span).span? = some span := by
  cases t <;> rfl

theorem Expression.span?_eq {c d : Cursor} {e : Expr} (derived : Expression rules source c e d) :
    e.span? = some ⟨c.position, d.position, some source⟩ := by
  cases derived with
  | token lexeme passes => exact span?_node _ _
  | apply head gap list => rfl

theorem Arguments.position_lt {c d : Cursor} {es : List Expr}
    (list : Arguments rules source c es d) : c.position < d.position := by
  cases list with
  | none opens gap closes =>
      obtain ⟨_, -, blanks⟩ := gap
      have whole := ((opens.append blanks).append closes).position
      simp only [List.length_append, List.length_cons] at whole
      omega
  | some opens gap first more =>
      obtain ⟨_, -, blanks⟩ := gap
      obtain ⟨_, argument⟩ := first.passes
      obtain ⟨_, rest⟩ := more.passes
      have whole := (((opens.append blanks).append argument).append rest).position
      simp only [List.length_append, List.length_cons] at whole
      omega

/-- An expression takes up at least one character. -/
theorem Expression.position_lt {c d : Cursor} {e : Expr} (derived : Expression rules source c e d) :
    c.position < d.position := by
  cases derived with
  | token lexeme passes =>
      obtain ⟨ch, rest, spelled, -⟩ := lexeme.first_char
      rw [passes.position, spelled, List.length_cons]
      omega
  | apply head gap list =>
      obtain ⟨_, first⟩ := head.passes
      obtain ⟨_, -, blanks⟩ := gap
      have reaches := (first.append blanks).position
      have opened := list.position_lt
      omega

/-- An expression is derived somewhere between two places. -/
def Within (rules : Rules) (source : Source) (c : Cursor) (e : Expr) (d : Cursor) : Prop :=
  ∃ c' d' : Cursor, (∃ chars, c.Passes chars c') ∧ Expression rules source c' e d' ∧
    ∃ chars, d'.Passes chars d

theorem Expression.within {c d : Cursor} {e : Expr} (derived : Expression rules source c e d) :
    Within rules source c e d :=
  ⟨c, d, ⟨_, .nil c⟩, derived, _, .nil d⟩

theorem Within.before {c c₁ d : Cursor} {e : Expr} {chars : List Char} (passes : c.Passes chars c₁)
    (within : Within rules source c₁ e d) : Within rules source c e d := by
  obtain ⟨c', d', ⟨_, first⟩, derived, last⟩ := within
  exact ⟨c', d', ⟨_, passes.append first⟩, derived, last⟩

theorem Within.after {c d₁ d : Cursor} {e : Expr} {chars : List Char}
    (within : Within rules source c e d₁) (passes : d₁.Passes chars d) :
    Within rules source c e d := by
  obtain ⟨c', d', first, derived, ⟨_, last⟩⟩ := within
  exact ⟨c', d', first, derived, _, last.append passes⟩

mutual

/-- The nodes of a derived expression are derived within it. -/
theorem Expression.of_mem_nodes {c d : Cursor} {e x : Expr} :
    Expression rules source c e d → x ∈ e.nodes → Within rules source c x d
  | @Expression.token _ _ _ _ t lexeme passes, node => by
      rw [nodes_node, List.mem_singleton] at node
      subst node
      exact (Expression.token lexeme passes).within
  | .apply head gap list, node => by
      obtain ⟨_, first⟩ := head.passes
      obtain ⟨_, rest⟩ := list.passes
      rcases List.mem_cons.1 node with rfl | node
      · exact (Expression.apply head gap list).within
      · obtain ⟨_, -, blanks⟩ := gap
        rcases List.mem_append.1 node with node | node
        · exact (head.of_mem_nodes node).after (blanks.append rest)
        · exact (list.of_mem_nodes node).before (first.append blanks)

theorem Arguments.of_mem_nodes {c d : Cursor} {es : List Expr} {x : Expr} :
    Arguments rules source c es d → x ∈ Expr.nodesOfArgs es → Within rules source c x d
  | .none _ _ _, node => by cases node
  | .some opens gap first more, node => by
      obtain ⟨_, -, blanks⟩ := gap
      obtain ⟨_, argument⟩ := first.passes
      obtain ⟨_, rest⟩ := more.passes
      rcases List.mem_append.1 node with node | node
      · exact ((first.of_mem_nodes node).after rest).before (opens.append blanks)
      · exact (more.of_mem_nodes node).before ((opens.append blanks).append argument)

theorem More.of_mem_nodes {c d : Cursor} {es : List Expr} {x : Expr} :
    More rules source c es d → x ∈ Expr.nodesOfArgs es → Within rules source c x d
  | .close _ _, node => by cases node
  | .comma _ _ _ _ _, node => by cases node
  | .argument gap separator gap' next more, node => by
      obtain ⟨_, -, blanks⟩ := gap
      obtain ⟨_, -, blanks'⟩ := gap'
      obtain ⟨_, argument⟩ := next.passes
      obtain ⟨_, rest⟩ := more.passes
      have start := (blanks.append separator).append blanks'
      rcases List.mem_append.1 node with node | node
      · exact ((next.of_mem_nodes node).after rest).before start
      · exact (more.of_mem_nodes node).before (start.append argument)

end

/-- The nodes of a program are derived within its text. -/
theorem Program.of_mem_nodes {e x : Expr} (program : Program rules source e) (node : x ∈ e.nodes) :
    ∃ stop : Cursor, Within rules source ⟨0, source.text.toList⟩ x stop ∧
      stop.position = source.text.length := by
  obtain ⟨c, d, stop, ⟨_, -, before⟩, derived, ⟨_, -, after⟩, ended⟩ := program
  refine ⟨stop, ((derived.of_mem_nodes node).before before).after after, ?_⟩
  obtain ⟨_, within⟩ := derived.passes
  have length := ((before.append within).append after).position_add
  rw [ended, String.length_toList] at length
  simpa using length

end Grammar

/-! ## Programs -/

open EggLanguage.Grammar

theorem readFrom_of_parse {n : Nat} {source : Source} {program : Expr}
    (parsed : Expr.parse n source = .ok program) : ReadFrom source program := by
  intro x node span spanned
  obtain ⟨_, ⟨c', d', -, derived, -⟩, -⟩ := (program_of_parse parsed).of_mem_nodes node
  rw [derived.span?_eq] at spanned
  cases spanned
  rfl

/-- A node covers at least one character of the text, and none beyond its end. -/
theorem Expr.span_of_parse {n : Nat} {source : Source} {program : Expr}
    (parsed : parse n source = .ok program) {x : Expr} (node : x ∈ program.nodes) {span : Span}
    (spanned : x.span? = some span) :
    span.start < span.stop ∧ span.stop ≤ source.text.length := by
  obtain ⟨stop, ⟨c', d', -, derived, ⟨_, last⟩⟩, ended⟩ :=
    (program_of_parse parsed).of_mem_nodes node
  rw [derived.span?_eq] at spanned
  cases spanned
  refine ⟨derived.position_lt, ?_⟩
  have position := last.position
  simp only
  omega

end EggLanguage
