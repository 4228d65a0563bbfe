/-
# EggLanguage.Proofs.Elsewhere -- reading the same text in another place

Reading depends on the characters that follow only.  The same characters in another place,
or in another source, are read as the same tree with all spans moved there, or are refused
for the same cause (`Expr.read_move`).  In particular a text that is read a second time
gives the same tree up to spans (`Expr.parse_again`).
-/
import EggLanguage.Proofs.UpToSpans

namespace EggLanguage

set_option autoImplicit false

open EggLanguage.Text

/-! ## Moving -/

/-- The place `distance` characters further on. -/
def Text.Cursor.move (distance : Nat) (c : Cursor) : Cursor :=
  ⟨c.position + distance, c.rest⟩

/-- The same stretch, `distance` characters further on in another source. -/
def Span.move (distance : Nat) (source : Source) (span : Span) : Span :=
  ⟨span.start + distance, span.stop + distance, some source⟩

def Expr.move (distance : Nat) (source : Source) : Expr → Expr :=
  mapSpans (Span.move distance source)

/-- The stop with its failure, if it is one, moved. -/
def Stop.move (distance : Nat) (source : Source) : Stop → Stop :=
  mapFailure fun f =>
    f.moveTo ⟨f.place.start.map (· + distance), f.place.stop.map (· + distance), some source⟩

/-- What was read and the place after it, moved. -/
def moved {α : Type} (distance : Nat) (source : Source) (move : α → α) :
    Except Stop (α × Cursor) → Except Stop (α × Cursor)
  | .ok (a, d) => .ok (move a, d.move distance)
  | .error e => .error (e.move distance source)

theorem moved_bind {α β : Type} {distance : Nat} {source : Source} {move : α → α} {move' : β → β}
    {x x' : Except Stop (α × Cursor)} {next next' : α × Cursor → Except Stop (β × Cursor)}
    (first : x' = moved distance source move x)
    (second : ∀ a d, x = .ok (a, d) →
      next' (move a, d.move distance) = moved distance source move' (next (a, d))) :
    x' >>= next' = moved distance source move' (x >>= next) := by
  subst first
  cases x with
  | error e => rfl
  | ok r => exact second r.1 r.2 rfl

theorem Text.Cursor.skipBlank_move (distance : Nat) (c : Cursor) :
    (c.move distance).skipBlank = c.skipBlank.move distance := by
  simp only [skipBlank, move, skipBlankFrom_eq, Cursor.mk.injEq, and_true]
  exact Nat.add_right_comm _ _ _

theorem Text.Cursor.stop_move (distance : Nat) (c : Cursor) :
    (c.move distance).stop = c.stop + distance :=
  Nat.add_right_comm _ _ _

theorem Text.Cursor.Passes.move {c d : Cursor} {chars : List Char} (passes : c.Passes chars d)
    (distance : Nat) : (c.move distance).Passes chars (d.move distance) where
  rest := passes.rest
  position := by
    show d.position + distance = c.position + distance + chars.length
    rw [passes.position, Nat.add_right_comm]

/-! ## Reading -/

namespace Expr

variable {distance : Nat} {source source' : Source} {item item' : Item}

theorem readAfter_none {first : Expr} {c : Cursor} (noComma : ∀ after, c.rest ≠ ',' :: after)
    (open' : ∀ after, c.rest ≠ ')' :: after) :
    readAfter item source first c =
      .error (unreadable .unseparated source c.position (c.position + 1)) := by
  unfold readAfter
  split
  · exact absurd ‹_› (noComma _)
  · exact absurd ‹_› (open' _)
  · rfl

theorem readArguments_move
    (each : ∀ c, (item' (c.move distance)).map Reading.pair =
      moved distance source' (move distance source') ((item c).map Reading.pair)) (c : Cursor) :
    (readArguments item' source' (c.move distance)).map Reading.pair =
      moved distance source' (List.map (move distance source'))
        ((readArguments item source c).map Reading.pair) := by
  by_cases closing : ∃ after, c.rest = ')' :: after
  · obtain ⟨after, follows⟩ := closing
    have closes := Cursor.passes_singleton_iff.2 ⟨after, follows, rfl⟩
    rw [readArguments_close item source closes,
      readArguments_close item' source' (closes.move distance)]
    rfl
  · have opened := not_exists.1 closing
    have opened' : ∀ after, (c.move distance).rest ≠ ')' :: after := opened
    rw [readArguments_item item source opened, readArguments_item item' source' opened']
    refine moved_bind (each c) fun first next found => ?_
    by_cases separated : ∃ after, next.rest = ',' :: after
    · obtain ⟨after, follows⟩ := separated
      have separator := Cursor.passes_singleton_iff.2 ⟨after, follows, rfl⟩
      have shorter := shorter_of_comma found separator
      rw [readAfter_comma item source first separator,
        readAfter_comma item' source' _ (separator.move distance), Cursor.skipBlank_move]
      exact moved_bind (readArguments_move each _) fun rest d _ => rfl
    · by_cases closed : ∃ after, next.rest = ')' :: after
      · obtain ⟨after, follows⟩ := closed
        have closes := Cursor.passes_singleton_iff.2 ⟨after, follows, rfl⟩
        rw [readAfter_close item source first closes,
          readAfter_close item' source' _ (closes.move distance)]
        rfl
      · rw [readAfter_none (not_exists.1 separated) (not_exists.1 closed), readAfter_none
          (show ∀ after, (next.move distance).rest ≠ ',' :: after from not_exists.1 separated)
          (show ∀ after, (next.move distance).rest ≠ ')' :: after from not_exists.1 closed)]
        show Except.error (unreadable _ source' (next.position + distance)
            (next.position + distance + 1)) =
          .error (unreadable _ source' (next.position + distance) (next.position + 1 + distance))
        rw [Nat.add_right_comm]
termination_by c.rest.length

theorem readApplications_move
    (each : ∀ c, (item' (c.move distance)).map Reading.pair =
      moved distance source' (move distance source') ((item c).map Reading.pair))
    (start : Nat) (head : Expr) (c : Cursor) :
    (readApplications item' source' (start + distance) (head.move distance source')
        (c.move distance)).map Extension.pair =
      moved distance source' (move distance source')
        ((readApplications item source start head c).map Extension.pair) := by
  by_cases opening : ∃ after, c.rest = '(' :: after
  · obtain ⟨after, follows⟩ := opening
    have opens := Cursor.passes_singleton_iff.2 ⟨after, follows, rfl⟩
    rw [readApplications_open item source _ _ opens,
      readApplications_open item' source' _ _ (opens.move distance), Cursor.skipBlank_move]
    refine moved_bind (readArguments_move each _) fun args next found => ?_
    have shorter := shorter_of_list opens found
    have node : (apply head args ⟨start, next.position, some source⟩).move distance source' =
        apply (head.move distance source') (args.map (move distance source'))
          ⟨start + distance, next.position + distance, some source'⟩ := by
      simp only [move, mapSpans, mapSpansOfArgs_eq_map, Span.move]
    have rest := readApplications_move each start
      (apply head args ⟨start, next.position, some source⟩) next.skipBlank
    rw [node, ← Cursor.skipBlank_move] at rest
    exact rest
  · have closed := not_exists.1 opening
    have closed' : ∀ after, (c.move distance).rest ≠ '(' :: after := closed
    rw [readApplications_stop item source _ _ closed,
      readApplications_stop item' source' _ _ closed']
    rfl
termination_by c.rest.length

/-- The same characters are read alike in any place. -/
theorem read_move (distance : Nat) (source source' : Source) : ∀ (n : Nat) (c : Cursor),
    (read source' n (c.move distance)).map Reading.pair =
      moved distance source' (move distance source') ((read source n c).map Reading.pair)
  | 0, _ => rfl
  | n + 1, c => by
      have skipped := Cursor.skipBlank_move distance c
      cases found : Token.read? c.skipBlank.rest with
      | none =>
          have found' : Token.read? (c.move distance).skipBlank.rest = none := by
            rw [skipped]
            exact found
          rw [read_none source n found, read_none source' n found', skipped, Cursor.stop_move]
          rfl
      | some pair =>
          obtain ⟨t, after⟩ := pair
          have passes : c.skipBlank.Passes t.spelling
              ⟨c.skipBlank.position + t.spelling.length, after⟩ :=
            ⟨(Token.read?_spelling found).1, rfl⟩
          have passes' := passes.move distance
          rw [← skipped] at passes'
          have found' : Token.read? (c.move distance).skipBlank.rest = some (t, after) := by
            rw [skipped]
            exact found
          rw [read_token source n found passes, read_token source' n found' passes', skipped,
            Cursor.skipBlank_move]
          have node : (t.node ⟨c.skipBlank.position, c.skipBlank.position + t.spelling.length,
                some source⟩).move distance source' =
              t.node ⟨c.skipBlank.position + distance,
                c.skipBlank.position + t.spelling.length + distance, some source'⟩ := by
            cases t <;> rfl
          have rest := @readApplications_move _ source source' _ _
            (read_move distance source source' n) c.skipBlank.position
            (t.node ⟨c.skipBlank.position, c.skipBlank.position + t.spelling.length, some source⟩)
            (Cursor.skipBlank ⟨c.skipBlank.position + t.spelling.length, after⟩)
          rw [node] at rest
          exact rest

/-- A text that is read again gives the same tree up to spans, or is refused for the same
cause. -/
theorem parse_again (n : Nat) {source source' : Source} (same : source'.text = source.text) :
    EndAlike Place.anywhere (fun e e' => e.bare = e'.bare) (parse n source) (parse n source') := by
  rw [parse_pair, parse_pair, same]
  have again := read_move 0 source source' n ⟨0, source.text.toList⟩
  rw [show Cursor.move 0 ⟨0, source.text.toList⟩ = ⟨0, source.text.toList⟩ from rfl] at again
  rw [again]
  cases (read source n ⟨0, source.text.toList⟩).map Reading.pair with
  | error e =>
      cases e with
      | failure f => exact .error (.failure rfl trivial)
      | crash c => exact .error (.crash c)
  | ok r =>
      obtain ⟨e, d⟩ := r
      show EndAlike _ _ (if d.rest = [] then .ok e else .error _)
        (if d.rest = [] then .ok (e.move 0 source') else .error _)
      split
      · exact .ok (bare_mapSpans _ e).symm
      · exact .error (.failure rfl trivial)

end Expr

end EggLanguage
