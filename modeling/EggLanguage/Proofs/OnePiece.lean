/-
# EggLanguage.Proofs.OnePiece -- lines typed one by one or in one piece

Lines that leave the text unfinished are only kept, so that the line that finishes it is
answered as the whole text would have been, had it been typed in one piece
(`Repl.answered_as_one`).  Among these lines an empty one is one more line end, and a word
that is a command elsewhere is a word of the program.

Hence a whole conversation in such pieces prints the same and ends in the same loop, whether
its pieces are typed line by line or each at once (`Repl.conversation_as_pieces`).
-/
import EggLanguage.Proofs.Bookkeeping
import EggLanguage.Proofs.Conversation

namespace EggLanguage

set_option autoImplicit false

open EggLanguage.Text

namespace Repl

/-! ## Replies -/

/-- The replies to lines typed one after another. -/
def replies (r : Repl) : List String → List Reply
  | [] => []
  | line :: rest => (r.enter line).1 :: (r.enter line).2.replies rest

theorem replies_append (r : Repl) (typed rest : List String) :
    r.replies (typed ++ rest) = r.replies typed ++ (r.afterLines typed).replies rest := by
  induction typed generalizing r with
  | nil => rfl
  | cons line typed ih => exact congrArg ((r.enter line).1 :: ·) (ih (r.enter line).2)

theorem afterLines_append (r : Repl) (typed rest : List String) :
    r.afterLines (typed ++ rest) = (r.afterLines typed).afterLines rest :=
  List.foldl_append

/-- What is printed while lines are typed one after another. -/
def output (r : Repl) (lines : List String) : String :=
  String.join ((r.replies lines).map Reply.output)

theorem output_append (r : Repl) (typed rest : List String) :
    r.output (typed ++ rest) = r.output typed ++ (r.afterLines typed).output rest := by
  rw [output, replies_append, List.map_append, String.join_append]
  rfl

/-! ## One piece -/

/-- The lines of a text that only the last of them finishes. -/
structure IsPiece (lines : List String) : Prop where
  several : 2 ≤ lines.length
  unfinished : BeforeLast (isUnfinished · = true) lines
  finished : isUnfinished (Workspace.join lines).toList = false

namespace IsPiece

variable {r : Repl} {lines : List String}

theorem evaluatesOnce (piece : IsPiece lines) (idle : r.IsIdle) : r.EvaluatesOnce lines :=
  (evaluatesOnce_iff_unfinished idle piece.several piece.finished).2 piece.unfinished

/-- In one piece the text is no command and not blank, so it is evaluated. -/
theorem enter_join (piece : IsPiece lines) (idle : r.IsIdle) :
    r.enter (Workspace.join lines) = r.evaluate (Workspace.join lines) := by
  have opens := opens_of_unfinished piece.several piece.unfinished
  have whole : r.pending ++ Workspace.join lines = Workspace.join lines := by
    rw [idle.pending, String.empty_append]
  have finished := piece.finished
  rw [enter_eq_accept (.inr opens)]
  rw [← whole] at finished opens
  rw [accept_of_finished finished opens, whole]
  exact congrArg (Repl.evaluate · _) idle.eq

/-- The line that finishes the text is answered as the text in one piece. -/
theorem enter_last (piece : IsPiece lines) (idle : r.IsIdle) {typed : List String} {last : String}
    (split : lines = typed ++ [last]) :
    (r.afterLines typed).enter last = r.enter (Workspace.join lines) := by
  rw [(piece.evaluatesOnce idle).evaluated typed last split, piece.enter_join idle]

/-- No line before it says anything. -/
theorem replies_eq (piece : IsPiece lines) (idle : r.IsIdle) {typed rest : List String}
    (split : lines = typed ++ rest) (more : rest ≠ []) :
    r.replies typed = List.replicate typed.length .silent := by
  induction typed using List.reverseRecOn generalizing rest with
  | nil => rfl
  | append_singleton typed line ih =>
      have split' : lines = typed ++ line :: rest := by simpa using split
      have kept := (piece.evaluatesOnce idle).kept typed line rest split' more
      rw [replies_append, ih split' (by simp), List.length_append, List.length_singleton,
        List.replicate_succ']
      rw [replies, kept]
      rfl

theorem isIdle_enter (piece : IsPiece lines) (idle : r.IsIdle) :
    (r.enter (Workspace.join lines)).2.IsIdle := by
  rw [piece.enter_join idle, ← show r.ready = r from idle.eq]
  exact ready_evaluate r _

/-- The lines and the one piece lead to the same loop. -/
theorem afterLines_eq (piece : IsPiece lines) (idle : r.IsIdle) :
    r.afterLines lines = (r.enter (Workspace.join lines)).2 := by
  obtain rfl | ⟨typed, last, split⟩ := List.eq_nil_or_concat' lines
  · exact absurd piece.several (by decide)
  · rw [← piece.enter_last idle split, split, afterLines_concat]

/-- The lines and the one piece print the same. -/
theorem output_eq (piece : IsPiece lines) (idle : r.IsIdle) :
    r.output lines = r.output [Workspace.join lines] := by
  obtain rfl | ⟨typed, last, split⟩ := List.eq_nil_or_concat' lines
  · exact absurd piece.several (by decide)
  · have nothing : r.output typed = "" := by
      rw [output, piece.replies_eq idle split (by simp), List.map_replicate]
      induction typed.length with
      | zero => rfl
      | succ n ih => rw [List.replicate_succ, String.join_cons, ih]; rfl
    have joined := piece.enter_last idle split
    rw [split, output_append, nothing, String.empty_append]
    rw [split] at joined
    rw [output, output, replies, joined]
    rfl

end IsPiece

/-- A conversation in pieces prints the same and leads to the same loop when each piece is
typed at once. -/
theorem conversation_as_pieces {r : Repl} (idle : r.IsIdle) {pieces : List (List String)}
    (each : ∀ lines ∈ pieces, IsPiece lines) :
    r.output pieces.flatten = r.output (pieces.map Workspace.join) ∧
      r.afterLines pieces.flatten = r.afterLines (pieces.map Workspace.join) := by
  induction pieces generalizing r with
  | nil => exact ⟨rfl, rfl⟩
  | cons lines pieces ih =>
      obtain ⟨piece, others⟩ := List.forall_mem_cons.1 each
      obtain ⟨printed, ended⟩ := ih (piece.isIdle_enter idle) others
      have after := piece.afterLines_eq idle
      have first : r.afterLines [Workspace.join lines] = (r.enter (Workspace.join lines)).2 := rfl
      have step : (lines :: pieces).map Workspace.join =
          [Workspace.join lines] ++ pieces.map Workspace.join := rfl
      rw [step, List.flatten_cons, output_append, output_append, afterLines_append,
        afterLines_append, piece.output_eq idle, after, first, printed, ended]
      exact ⟨rfl, rfl⟩

end Repl

end EggLanguage
