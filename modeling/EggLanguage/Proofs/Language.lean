/-
# EggLanguage.Proofs.Language -- the texts that are read

`Expr.parse_exact` puts the reader and the grammar side by side: which texts are
read and as which tree, how every other text ends, and that white space between
tokens changes nothing.
-/
import EggLanguage.Proofs.Reading
import EggLanguage.Proofs.Spacing

namespace EggLanguage.Expr

set_option autoImplicit false

open EggLanguage.Grammar

/-- **The language of the reader.**  The sources that are read are the programs of
the grammar whose arguments the stack has room for, and each is read as the one
tree it denotes.  Any other source is refused for its grammar, or exhausts a stack
that has no room for the parentheses it opens; a stack with that room reads every
program.  The pieces of a program determine its tree up to spans. -/
theorem parse_exact (source : Source) (n : Nat) :
    (∀ e, parse n source = .ok e ↔ Program .exact source e ∧ e.nesting < n) ∧
    (∀ e e', Program .exact source e → Program .exact source e' → e = e') ∧
    (∀ f, parse n source = .error (.failure f) →
      f.cause.kind = .grammar ∧ ∀ e, ¬ Program .exact source e) ∧
    (∀ c, parse n source = .error (.crash c) →
      c = .stackExhausted ∧ n ≤ source.text.toList.count '(') ∧
    (∀ e, Program .exact source e → e.nesting ≤ source.text.toList.count '(') ∧
    (∀ e, Program .exact source e → ∃ pieces, Pieces .exact source.text.toList pieces ∧
      ∀ source' : Source, Pieces .exact source'.text.toList pieces →
        ∃ e', Program .exact source' e' ∧ e'.same e = true) := by
  refine ⟨fun e => parse_ok_iff, fun e e' program => program.unique, fun f failed => ⟨?_, ?_⟩,
    fun c crashed => ?_, fun e program => program.nesting_le, fun e program => program.respaced⟩
  · obtain ⟨f', same, grammar⟩ | ⟨crashed, -⟩ := refused_of_parse failed
    · cases same
      exact grammar
    · cases crashed
  · intro e program
    rw [program.parse_eq] at failed
    split at failed <;> cases failed
  · obtain ⟨f', failed, -⟩ | ⟨same, full⟩ := refused_of_parse crashed
    · cases failed
    · cases same
      exact ⟨rfl, full⟩

end EggLanguage.Expr
