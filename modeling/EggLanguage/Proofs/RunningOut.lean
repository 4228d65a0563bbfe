/-
# EggLanguage.Proofs.RunningOut -- where reading fails, and texts that ran out

Reading fails at a place of the text, and the failure says which.  Up to that place the
text reads like the start of a program: its strings are closed, and the lists of arguments
that are open are those that the reader is in (`Grammar.FailsAt`, `Expr.failsAt_of_parse`).

So the two readings of a typed text agree (`Repl.isUnfinished_agrees`).  The loop never
waits for more of a program.  Where reading fails because the text ran out, a list of
arguments is open and no string is, so the loop waits for the rest.
-/
import Mathlib.Data.List.TakeWhile
import EggLanguage.Proofs.Unfinished

namespace EggLanguage

set_option autoImplicit false

open EggLanguage.Text

namespace Grammar

open EggLanguage.Expr

variable {source : Source}

/-! ## Places and what leads to them -/

theorem Climbs.refl (c : Cursor) : Climbs c c 0 :=
  ⟨(Int.zero_add _).symm, rfl⟩

theorem Stands.climbs {c d : Cursor} {e : Expr} (stands : Stands source c e d) :
    Climbs c d 0 := by
  obtain ⟨c₁, d₁, before, derived, after⟩ := stands
  exact ((climbs_of_blanks before).trans derived.climbs).trans (climbs_of_blanks after)

theorem Inside.climbs {c d : Cursor} {es : List Expr} (inside : Inside source c es d) :
    Climbs c d (-1) := by
  obtain ⟨-, closes⟩ | ⟨e, rest, -, c₁, c₂, before, first, more⟩ := inside
  · exact climbs_of_symbol closes (by decide)
  · exact ((climbs_of_blanks before).trans first.climbs).trans more.climbs

/-- Reading from `c` fails at the place `d`.  In between so many more lists of arguments are
opened than closed, and no string is left open. -/
structure FailsAt (source : Source) (c : Cursor) (f : Failure) (height : Int) (d : Cursor) :
    Prop where
  passes : ∃ chars, c.Passes chars d
  climbs : Climbs c d height
  place : ∃ stop, f.place = ⟨some d.position, some stop, some source⟩

namespace FailsAt

variable {c c₁ d : Cursor} {f : Failure} {m n : Int}

theorem before (failure : FailsAt source c₁ f n d) (passes : ∃ chars, c.Passes chars c₁)
    (climbs : Climbs c c₁ m) : FailsAt source c f (m + n) d where
  passes := by
    obtain ⟨_, first⟩ := passes
    obtain ⟨_, second⟩ := failure.passes
    exact ⟨_, first.append second⟩
  climbs := climbs.trans failure.climbs
  place := failure.place

theorem afterBlanks (failure : FailsAt source c.skipBlank f n d) : FailsAt source c f n d := by
  have gap := Cursor.blanks_skipBlank c
  have moved := failure.before (gap.imp fun _ blanks => blanks.2) (climbs_of_blanks gap)
  rwa [Int.zero_add] at moved

end FailsAt

/-- Reading from `c` fails with at least so many lists of arguments open. -/
def FailsWithin (source : Source) (least : Int) (c : Cursor) (stop : Stop) : Prop :=
  ∀ f, stop = .failure f → ∃ height d, FailsAt source c f height d ∧ least ≤ height

theorem FailsWithin.before {c c₁ : Cursor} {stop : Stop} {least m : Int}
    (refused : FailsWithin source least c₁.skipBlank stop) (passes : ∃ chars, c.Passes chars c₁)
    (climbs : Climbs c c₁ m) : FailsWithin source (m + least) c stop := by
  rintro f rfl
  obtain ⟨height, d, failure, le⟩ := refused f rfl
  exact ⟨m + height, d, failure.afterBlanks.before passes climbs, by omega⟩

end Grammar

/-! ## The reader -/

namespace Expr

open EggLanguage.Grammar

variable {item : Item} {source : Source}

theorem readArguments_failsWithin
    (itemSound : ∀ c e d, (item c).map Reading.pair = .ok (e, d) → Stands source c e d)
    (itemRefused : ∀ c stop, (item c).map Reading.pair = .error stop →
      FailsWithin source 0 c stop)
    (c : Cursor) (stop : Stop)
    (failed : (readArguments item source c).map Reading.pair = .error stop) :
    FailsWithin source 0 c stop := by
  refine readArguments_stops (fun c stop _ => itemRefused c stop) ?_ ?_ c stop failed
  · intro c first next found _ _ f same
    cases same
    have stands := itemSound c first next found
    exact ⟨0, next, ⟨stands.passes, stands.climbs, _, rfl⟩, Int.le_refl 0⟩
  · intro c first next d stop found separator refused
    have stands := itemSound c first next found
    obtain ⟨_, passes⟩ := stands.passes
    exact refused.before ⟨_, passes.append separator⟩
      (stands.climbs.trans (climbs_of_symbol separator (by decide)))

/-- Lists of arguments are refused within one of them. -/
theorem readApplications_failsWithin
    (itemSound : ∀ c e d, (item c).map Reading.pair = .ok (e, d) → Stands source c e d)
    (itemRefused : ∀ c stop, (item c).map Reading.pair = .error stop →
      FailsWithin source 0 c stop)
    (start : Nat) (head : Expr) (c : Cursor) (stop : Stop)
    (failed : (readApplications item source start head c).map Extension.pair = .error stop) :
    FailsWithin source 1 c stop := by
  refine readApplications_stops ?_ ?_ start head c stop failed
  · intro c d stop opens failed
    have refused := readArguments_failsWithin itemSound itemRefused _ _ failed
    exact refused.before ⟨_, opens⟩ (climbs_of_symbol opens (by decide))
  · intro c d args next stop opens found refused
    have inside := readArguments_sound itemSound _ _ _ found
    have gap := Cursor.blanks_skipBlank d
    have climbs := ((climbs_of_symbol opens (by decide)).trans (climbs_of_blanks gap)).trans
      inside.climbs
    obtain ⟨_, -, blanks⟩ := gap
    obtain ⟨_, within⟩ := inside.passes
    exact refused.before ⟨_, (opens.append blanks).append within⟩ climbs

/-- An expression is refused before its first token, or else within its lists of arguments. -/
theorem read_failsAt (n : Nat) (c : Cursor) (f : Failure)
    (failed : (Expr.read source n c).map Reading.pair = .error (.failure f)) :
    ∃ height d, FailsAt source c f height d ∧ (height = 0 ∧ d = c.skipBlank ∨ 1 ≤ height) := by
  induction n generalizing c f with
  | zero => cases failed
  | succ n ih =>
      obtain ⟨-, crash⟩ | ⟨m, same, ⟨-, stopped⟩ | ⟨t, d, start, head, lexeme, passes, failed⟩⟩ :=
        read_stops failed
      · cases crash
      · cases stopped
        exact ⟨0, _, FailsAt.afterBlanks ⟨⟨_, .nil _⟩, .refl _, _, rfl⟩, .inl ⟨rfl, rfl⟩⟩
      · cases same
        have itemRefused : ∀ c stop, (Expr.read source n c).map Reading.pair = .error stop →
            FailsWithin source 0 c stop := by
          rintro c stop failed f rfl
          obtain ⟨height, d, failure, ⟨rfl, -⟩ | le⟩ := ih c f failed
          · exact ⟨0, d, failure, Int.le_refl 0⟩
          · exact ⟨height, d, failure, by omega⟩
        have refused := readApplications_failsWithin (read_sound n) itemRefused _ _ _ _ failed
        obtain ⟨height, place, failure, le⟩ :=
          refused.before ⟨_, passes⟩ (climbs_of_lexeme lexeme passes) f rfl
        exact ⟨height, place, failure.afterBlanks, .inr (by omega)⟩

/-- A text is refused before its first token, within the arguments of a call, or for what
follows its expression. -/
theorem failsAt_of_parse {n : Nat} {f : Failure} (failed : parse n source = .error (.failure f)) :
    ∃ height d, FailsAt source ⟨0, source.text.toList⟩ f height d ∧
      (height = 0 ∧ (d = Cursor.skipBlank ⟨0, source.text.toList⟩ ∨ d.rest ≠ []) ∨ 1 ≤ height) := by
  rw [parse_pair] at failed
  cases found : (Expr.read source n ⟨0, source.text.toList⟩).map Reading.pair with
  | error stop =>
      rw [found] at failed
      cases failed
      obtain ⟨height, d, failure, ⟨none, first⟩ | le⟩ := read_failsAt n _ f found
      · exact ⟨height, d, failure, .inl ⟨none, .inl first⟩⟩
      · exact ⟨height, d, failure, .inr le⟩
  | ok r =>
      obtain ⟨e, d⟩ := r
      rw [found] at failed
      replace failed : (if d.rest = [] then Except.ok e
        else .error (unreadable .trailingText source d.position d.stop)) = .error (.failure f) := failed
      have stands := read_sound n _ _ _ found
      split at failed
      · cases failed
      · rename_i more
        cases failed
        exact ⟨0, d, ⟨stands.passes, stands.climbs, _, rfl⟩, .inl ⟨rfl, .inr more⟩⟩

end Expr

/-! ## The loop -/

namespace Repl

open EggLanguage.Grammar

/-- **The loop agrees with the reader.**  It takes no program for unfinished.  And it takes a
text that is not blank for unfinished if reading it fails at its end: the text ran out. -/
theorem isUnfinished_agrees (n : Nat) (source : Source) :
    (∀ e, Expr.parse n source = .ok e → isUnfinished source.text.toList = false) ∧
    (∀ f, Expr.parse n source = .error (.failure f) → f.place.start = some source.text.length →
      (∃ c ∈ source.text.toList, isBlank c = false) →
        isUnfinished source.text.toList = true) := by
  refine ⟨fun e parsed => Expr.finished_of_parse parsed, fun f failed atEnd visible => ?_⟩
  obtain ⟨height, d, failure, kind⟩ := Expr.failsAt_of_parse failed
  obtain ⟨chars, passes⟩ := failure.passes
  have ranOut : d.rest = [] := by
    obtain ⟨stop, place⟩ := failure.place
    rw [place] at atEnd
    have length := passes.position_add
    simp only [Option.some.injEq, String.length_toList] at atEnd length
    exact List.length_eq_zero_iff.1 (by omega)
  have lists := failure.climbs.lists
  have string := failure.climbs.string
  rw [ranOut] at lists string
  rw [isUnfinished_iff, string, lists]
  obtain ⟨rfl, first | more⟩ | opened := kind
  · -- Nothing but blanks stands before the place, which is the end.
    obtain ⟨c, member, notBlank⟩ := visible
    have blank := congrArg Cursor.rest first
    rw [ranOut, Cursor.skipBlank_rest] at blank
    rw [List.dropWhile_eq_nil_iff.1 blank.symm c member] at notBlank
    cases notBlank
  · exact absurd ranOut more
  · simp [openLists, outsideStrings, openString]
    omega

end Repl

end EggLanguage
