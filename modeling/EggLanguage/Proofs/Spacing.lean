/-
# EggLanguage.Proofs.Spacing -- white space between tokens does not count

A text falls into pieces: tokens and the three symbols, with blanks between them
(`Pieces`).  Texts that fall into the same pieces are programs together, and their
trees are the same up to spans (`Expression.respaced`).
-/
import EggLanguage.Proofs.Grammar

namespace EggLanguage.Grammar

set_option autoImplicit false

open EggLanguage.Text

/-- What blanks may stand between: a parenthesis or a comma, or a token. -/
inductive Piece where
  | symbol (char : Char)
  | token (token : Token)
  deriving DecidableEq, Repr

namespace Piece

def spelling : Piece → List Char
  | symbol char => [char]
  | token t => t.spelling

/-- Whether the piece is one where it stands before a text. -/
def Stands (rules : Rules) (following : List Char) : Piece → Prop
  | symbol char => char = '(' ∨ char = ')' ∨ char = ','
  | token t => Lexeme rules t following

end Piece

/-- A text consists of the given pieces, with blanks between them. -/
inductive Pieces (rules : Rules) : List Char → List Piece → Prop where
  | nil {blanks : List Char} (blank : ∀ b ∈ blanks, isBlank b = true) : Pieces rules blanks []
  | cons {blanks following : List Char} {piece : Piece} {pieces : List Piece}
      (blank : ∀ b ∈ blanks, isBlank b = true) (stands : piece.Stands rules following)
      (rest : Pieces rules following pieces) :
      Pieces rules (blanks ++ (piece.spelling ++ following)) (piece :: pieces)

variable {rules : Rules}

theorem Pieces.before {text : List Char} {pieces : List Piece} {blanks : List Char}
    (blank : ∀ b ∈ blanks, isBlank b = true) (split : Pieces rules text pieces) :
    Pieces rules (blanks ++ text) pieces := by
  have join : ∀ {more : List Char}, (∀ b ∈ more, isBlank b = true) →
      ∀ b ∈ blanks ++ more, isBlank b = true := by
    intro more blank' b member
    rcases List.mem_append.1 member with left | right
    · exact blank b left
    · exact blank' b right
  cases split with
  | nil blank' => exact .nil (join blank')
  | cons blank' stands rest =>
      rw [← List.append_assoc]
      exact .cons (join blank') stands rest

theorem Pieces.gap {c d : Cursor} {pieces : List Piece} (gap : c.Blanks d)
    (split : Pieces rules d.rest pieces) : Pieces rules c.rest pieces := by
  obtain ⟨blanks, blank, passes⟩ := gap
  rw [passes.rest]
  exact split.before blank

theorem Pieces.piece {c d : Cursor} {piece : Piece} {pieces : List Piece}
    (passes : c.Passes piece.spelling d) (stands : piece.Stands rules d.rest)
    (split : Pieces rules d.rest pieces) : Pieces rules c.rest (piece :: pieces) := by
  rw [passes.rest, ← List.nil_append (piece.spelling ++ d.rest)]
  exact .cons (List.forall_mem_nil _) stands split

/-- The first piece of a text, and what follows it. -/
theorem Pieces.first {c : Cursor} {piece : Piece} {pieces : List Piece}
    (split : Pieces rules c.rest (piece :: pieces)) :
    ∃ c₁ d : Cursor, c.Blanks c₁ ∧ c₁.Passes piece.spelling d ∧ piece.Stands rules d.rest ∧
      Pieces rules d.rest pieces := by
  generalize joined : c.rest = text at split
  cases split with
  | @cons blanks following _ _ blank stands rest =>
      refine ⟨⟨c.position + blanks.length, piece.spelling ++ following⟩,
        ⟨c.position + blanks.length + piece.spelling.length, following⟩,
        ⟨blanks, blank, joined, rfl⟩, ⟨rfl, rfl⟩, stands, rest⟩

mutual

/-- The pieces of an expression make up an expression in any text, with the same
tree up to spans. -/
theorem Expression.respaced {source : Source} {c d : Cursor} {e : Expr} :
    Expression rules source c e d → ∃ pieces : List Piece,
      (∀ more, Pieces rules d.rest more → Pieces rules c.rest (pieces ++ more)) ∧
      ∀ (source' : Source) (c' : Cursor) (more : List Piece),
        Pieces rules c'.rest (pieces ++ more) → ∃ (c₁ : Cursor) (e' : Expr) (d' : Cursor),
          c'.Blanks c₁ ∧ Expression rules source' c₁ e' d' ∧ e'.same e = true ∧
            Pieces rules d'.rest more
  | @Expression.token _ _ _ _ t lexeme passes => by
      refine ⟨[.token t], fun more split => .piece passes lexeme split, ?_⟩
      intro source' c' more split
      obtain ⟨c₁, d', gap, passes', lexeme', split'⟩ := split.first
      exact ⟨c₁, _, d', gap, .token lexeme' passes', same_node t _ _, split'⟩
  | .apply head gap list => by
      obtain ⟨heads, join, again⟩ := head.respaced
      obtain ⟨lists, join', again'⟩ := list.respaced
      refine ⟨heads ++ lists, fun more split => ?_, fun source' c' more split => ?_⟩
      · rw [List.append_assoc]
        exact join _ ((join' more split).gap gap)
      · rw [List.append_assoc] at split
        obtain ⟨c₁, f', c₂, gap₁, head', sameHead, split₁⟩ := again source' c' _ split
        obtain ⟨c₃, es', d', gap₂, list', sameList, split₂⟩ := again' source' c₂ more split₁
        refine ⟨c₁, _, d', gap₁, .apply head' gap₂ list', ?_, split₂⟩
        simp [Expr.same, sameHead, sameList]

theorem Arguments.respaced {source : Source} {c d : Cursor} {es : List Expr} :
    Arguments rules source c es d → ∃ pieces : List Piece,
      (∀ more, Pieces rules d.rest more → Pieces rules c.rest (pieces ++ more)) ∧
      ∀ (source' : Source) (c' : Cursor) (more : List Piece),
        Pieces rules c'.rest (pieces ++ more) → ∃ (c₁ : Cursor) (es' : List Expr) (d' : Cursor),
          c'.Blanks c₁ ∧ Arguments rules source' c₁ es' d' ∧ Expr.sameArgs es' es = true ∧
            Pieces rules d'.rest more
  | .none opens gap closes => by
      refine ⟨[.symbol '(', .symbol ')'], fun more split => ?_, fun source' c' more split => ?_⟩
      · exact .piece opens (.inl rfl) (.gap gap (.piece closes (.inr (.inl rfl)) split))
      · obtain ⟨c₁, c₂, gap₁, opens', -, split₁⟩ := split.first
        obtain ⟨c₃, d', gap₂, closes', -, split₂⟩ := split₁.first
        exact ⟨c₁, [], d', gap₁, .none opens' gap₂ closes', rfl, split₂⟩
  | .some opens gap first more => by
      obtain ⟨firsts, join, again⟩ := first.respaced
      obtain ⟨mores, join', again'⟩ := more.respaced
      refine ⟨.symbol '(' :: (firsts ++ mores), fun rest split => ?_, fun source' c' rest split => ?_⟩
      · rw [List.cons_append, List.append_assoc]
        exact .piece opens (.inl rfl) (.gap gap (join _ (join' rest split)))
      · rw [List.cons_append, List.append_assoc] at split
        obtain ⟨c₁, c₂, gap₁, opens', -, split₁⟩ := split.first
        obtain ⟨c₃, e', c₄, gap₂, first', sameFirst, split₂⟩ := again source' c₂ _ split₁
        obtain ⟨es', d', more', sameMore, split₃⟩ := again' source' c₄ rest split₂
        refine ⟨c₁, e' :: es', d', gap₁, .some opens' gap₂ first' more', ?_, split₃⟩
        simp [Expr.sameArgs, sameFirst, sameMore]

theorem More.respaced {source : Source} {c d : Cursor} {es : List Expr} :
    More rules source c es d → ∃ pieces : List Piece,
      (∀ more, Pieces rules d.rest more → Pieces rules c.rest (pieces ++ more)) ∧
      ∀ (source' : Source) (c' : Cursor) (more : List Piece),
        Pieces rules c'.rest (pieces ++ more) → ∃ (es' : List Expr) (d' : Cursor),
          More rules source' c' es' d' ∧ Expr.sameArgs es' es = true ∧ Pieces rules d'.rest more
  | .close gap closes => by
      refine ⟨[.symbol ')'], fun rest split => ?_, fun source' c' rest split => ?_⟩
      · exact .gap gap (.piece closes (.inr (.inl rfl)) split)
      · obtain ⟨c₁, d', gap₁, closes', -, split₁⟩ := split.first
        exact ⟨[], d', .close gap₁ closes', rfl, split₁⟩
  | .comma allowed gap separator gap' closes => by
      refine ⟨[.symbol ',', .symbol ')'], fun rest split => ?_, fun source' c' rest split => ?_⟩
      · exact .gap gap (.piece separator (.inr (.inr rfl))
          (.gap gap' (.piece closes (.inr (.inl rfl)) split)))
      · obtain ⟨c₁, c₂, gap₁, separator', -, split₁⟩ := split.first
        obtain ⟨c₃, d', gap₂, closes', -, split₂⟩ := split₁.first
        exact ⟨[], d', .comma allowed gap₁ separator' gap₂ closes', rfl, split₂⟩
  | .argument gap separator gap' next more => by
      obtain ⟨nexts, join, again⟩ := next.respaced
      obtain ⟨mores, join', again'⟩ := more.respaced
      refine ⟨.symbol ',' :: (nexts ++ mores), fun rest split => ?_, fun source' c' rest split => ?_⟩
      · rw [List.cons_append, List.append_assoc]
        exact .gap gap (.piece separator (.inr (.inr rfl)) (.gap gap' (join _ (join' rest split))))
      · rw [List.cons_append, List.append_assoc] at split
        obtain ⟨c₁, c₂, gap₁, separator', -, split₁⟩ := split.first
        obtain ⟨c₃, e', c₄, gap₂, next', sameNext, split₂⟩ := again source' c₂ _ split₁
        obtain ⟨es', d', more', sameMore, split₃⟩ := again' source' c₄ rest split₂
        refine ⟨e' :: es', d', .argument gap₁ separator' gap₂ next' more', ?_, split₃⟩
        simp [Expr.sameArgs, sameNext, sameMore]

end

/-- A program falls into pieces, and every source that falls into the same pieces
is a program with the same tree up to spans. -/
theorem Program.respaced {source : Source} {e : Expr} (program : Program rules source e) :
    ∃ pieces, Pieces rules source.text.toList pieces ∧
      ∀ source' : Source, Pieces rules source'.text.toList pieces →
        ∃ e', Program rules source' e' ∧ e'.same e = true := by
  obtain ⟨c, d, stop, before, derived, after, ended⟩ := program
  obtain ⟨pieces, join, again⟩ := derived.respaced
  have rest : Pieces rules d.rest [] := .gap after (by rw [ended]; exact .nil (by simp))
  refine ⟨pieces, ?_, fun source' split => ?_⟩
  · have whole : Pieces rules (⟨0, source.text.toList⟩ : Cursor).rest (pieces ++ []) :=
      .gap before (join [] rest)
    simpa using whole
  · obtain ⟨c₁, e', d', before', derived', same, rest'⟩ :=
      again source' ⟨0, source'.text.toList⟩ [] (by simpa using split)
    generalize joined : d'.rest = text at rest'
    cases rest' with
    | nil blank =>
        have after' : d'.Blanks ⟨d'.position + text.length, []⟩ :=
          ⟨text, blank, by rw [joined]; simp, rfl⟩
        exact ⟨e', ⟨c₁, d', _, before', derived', after', rfl⟩, same⟩

end EggLanguage.Grammar
