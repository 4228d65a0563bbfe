/-
# EggLanguage.Proofs.Surroundings -- reading one expression is local

What is read at an offset of a text depends on no character before the offset, and on no more
than one character behind the place where reading stops (`Expr.parseFrom_local`).

Without the characters before it the rest of the text is read alike, a failure included, with all
offsets counted from its own start: this is `Expr.read_move`.  What follows the last place may be
replaced as long as its first character stays (`Expr.read_replaced`).  That character counts: it
may make a word longer, turn a numeral into a word, or open another list of arguments.
-/
import EggLanguage.Proofs.Slices

namespace EggLanguage

set_option autoImplicit false

open EggLanguage.Text

namespace Text

theorem Cursor.ofText_of_le {text : List Char} {offset : Nat} (inside : offset ≤ text.length) :
    Cursor.ofText text offset = ⟨offset, text.drop offset⟩ := by
  rw [Cursor.ofText, Nat.min_eq_left inside]

/-- What follows an offset of a text that starts like another one: a slice of that one, and what
follows the slice. -/
theorem drop_of_agree {text other : List Char} {offset stop : Nat} (le : offset ≤ stop)
    (agree : other.take stop = text.take stop) :
    other.drop offset = (text.drop offset).take (stop - offset) ++ other.drop stop := by
  calc other.drop offset
      = (other.drop offset).take (stop - offset) ++ (other.drop offset).drop (stop - offset) :=
        (List.take_append_drop _ _).symm
    _ = (other.take stop).drop offset ++ other.drop stop := by
        rw [List.drop_take, List.drop_drop, Nat.add_sub_cancel' le]
    _ = (text.drop offset).take (stop - offset) ++ other.drop stop := by
        rw [agree, List.drop_take]

end Text

namespace Grammar

variable {source : Source}

theorem Stands.replaced {following : List Char} {c d stop : Cursor} {e : Expr} {chars : List Char}
    (stands : Stands source c e d) (may : MayFollow stop.rest following)
    (rest : d.Passes chars stop) :
    Stands source (c.replaced stop following) e (d.replaced stop following) := by
  obtain ⟨c₁, d₁, before, derived, after⟩ := stands
  obtain ⟨_, within⟩ := derived.passes
  obtain ⟨_, -, blanks⟩ := id after
  have later := blanks.append rest
  exact ⟨_, _, before.replaced (within.append later) following, derived.replaced may later,
    after.replaced rest following⟩

end Grammar

namespace Expr

open Grammar

variable {source : Source}

/-- An expression is read as it was, whatever follows it, if that starts with the same character. -/
theorem read_replaced {n : Nat} {c d : Cursor} {e : Expr} {following : List Char}
    (found : (read source n c).map Reading.pair = .ok (e, d))
    (same : following.head? = d.rest.head?) :
    (read source n (c.replaced d following)).map Reading.pair = .ok (e, ⟨d.position, following⟩) := by
  obtain ⟨stands, room, token, noList⟩ := stands_of_read found
  have again := stands.replaced (mayFollow_of_head? same) (.nil d)
  rw [(Cursor.Passes.nil d).replaced_eq, List.nil_append] at again
  rw [again.reads (atToken_of_head? token same) (ne_cons_of_head? noList same) n, if_pos room]

/-- A text is read from an offset as what follows the offset is read from its start. -/
theorem parseFrom_drop (n : Nat) {source alone : Source} {offset : Nat}
    (inside : offset ≤ source.text.length)
    (cut : alone.text.toList = source.text.toList.drop offset) :
    parseFrom n source offset =
      match parseFrom n alone 0 with
      | .ok (e, next) => .ok (e.move offset source, next + offset)
      | .error stop => .error (stop.move offset source) := by
  rw [← String.length_toList] at inside
  have start : Cursor.ofText source.text.toList offset =
      (Cursor.ofText alone.text.toList 0).move offset := by
    rw [Cursor.ofText_of_le inside, Cursor.ofText_of_le (Nat.zero_le _), cut, List.drop_zero,
      Cursor.move, Nat.zero_add]
  rw [parseFrom_pair, parseFrom_pair, start, read_move offset alone source n]
  cases (read alone n (Cursor.ofText alone.text.toList 0)).map Reading.pair <;> rfl

/-- A text that starts like another one up to the character at which reading stopped is read
alike. -/
theorem parseFrom_agree {n : Nat} {source other : Source} {offset next : Nat} {e : Expr}
    (parsed : parseFrom n source offset = .ok (e, next)) (more : next < source.text.length)
    (agree : other.text.toList.take (next + 1) = source.text.toList.take (next + 1)) :
    parseFrom n other offset = .ok (e.move 0 other, next) := by
  rw [← String.length_toList] at more
  obtain ⟨d, found, rfl⟩ := parseFrom_eq_ok_iff.1 parsed
  obtain ⟨_, passes⟩ := (stands_of_read found).1.passes
  have within := Cursor.In.ofText source.text.toList offset
  have reached : offset ≤ d.position := by
    have forward := passes.position
    simp only [Cursor.ofText] at forward
    omega
  have long : d.position < other.text.toList.length := by
    have lengths := congrArg List.length agree
    simp only [List.length_take] at lengths
    omega
  have sameStart : other.text.toList.take d.position = source.text.toList.take d.position := by
    simpa [List.take_take] using congrArg (List.take d.position) agree
  have sameNext : (other.text.toList.drop d.position).head? = d.rest.head? := by
    rw [List.head?_drop, (within.passes passes).head?]
    simpa using congrArg (·[d.position]?) agree
  have place : (Cursor.ofText source.text.toList offset).replaced d
      (other.text.toList.drop d.position) = Cursor.ofText other.text.toList offset := by
    rw [passes.replaced_eq, ← within.slice passes, Cursor.ofText_of_le (by omega),
      Cursor.ofText_of_le (by omega), drop_of_agree reached sameStart]
  have again := read_replaced found sameNext
  rw [place] at again
  have moved := read_move 0 source other n (Cursor.ofText other.text.toList offset)
  rw [again] at moved
  exact parseFrom_eq_ok_iff.2 ⟨_, moved, rfl⟩

/-- **Reading one expression is local.**  From an offset of a text the reader gives what it gives
on the rest of the text alone, with all offsets moved there: the tree and the place after it, or
the failure.  And if characters are left after an expression that was read, any text that
agrees up to the first of them gives the same tree with the same spans, up to the same place. -/
theorem parseFrom_local {n : Nat} {source : Source} {offset : Nat}
    (inside : offset ≤ source.text.length) :
    (∀ alone : Source, alone.text.toList = source.text.toList.drop offset →
      parseFrom n source offset =
        match parseFrom n alone 0 with
        | .ok (e, next) => .ok (e.move offset source, next + offset)
        | .error stop => .error (stop.move offset source)) ∧
    ∀ e next, parseFrom n source offset = .ok (e, next) → next < source.text.length →
      ∀ other : Source,
        other.text.toList.take (next + 1) = source.text.toList.take (next + 1) →
          parseFrom n other offset = .ok (e.move 0 other, next) :=
  ⟨fun _ cut => parseFrom_drop n inside cut,
    fun _ _ parsed more _ agree => parseFrom_agree parsed more agree⟩

/-- A call of the result of a call, with a parenthesis in a string, between a parenthesis that is
not closed and a word that starts with a digit. -/
def amid : Source :=
  ⟨0, "(a f (1)(\"x)\") 7b"⟩

def amidTree : Expr :=
  .apply
    (.apply (.word "f" ⟨3, 4, some amid⟩) [.literal (.int 1) ⟨6, 7, some amid⟩] ⟨3, 8, some amid⟩)
    [.literal (.string "x)") ⟨9, 13, some amid⟩] ⟨3, 14, some amid⟩

/-- The call is read alike on its own, and with a numeral in place of the word. -/
theorem parseFrom_local_amid :
    2 ≤ amid.text.length ∧ parseFrom 2 amid 2 = .ok (amidTree, 15) ∧
      (∀ alone : Source, alone.text = " f (1)(\"x)\") 7b" →
        parseFrom 2 amid 2 =
          match parseFrom 2 alone 0 with
          | .ok (e, next) => .ok (e.move 2 amid, next + 2)
          | .error stop => .error (stop.move 2 amid)) ∧
      ∀ other : Source, other.text = "(a f (1)(\"x)\") 7" →
        parseFrom 2 other 2 = .ok (amidTree.move 0 other, 15) := by
  have inside : 2 ≤ amid.text.length := by decide
  have parsed : parseFrom 2 amid 2 = .ok (amidTree, 15) := by with_unfolding_all rfl
  obtain ⟨without, within⟩ := parseFrom_local inside
  refine ⟨inside, parsed, fun alone cut => without alone ?_, fun other agree => ?_⟩
  · rw [cut]
    rfl
  · refine within amidTree 15 parsed (by decide) other ?_
    rw [agree]
    rfl

end Expr

end EggLanguage
