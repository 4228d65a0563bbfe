/-
# EggLanguage.Limits -- how far a program may go

Reading, writing and evaluation use a stack, and a stack ends.  The limits say where:
they are parameters of everything that can reach them, so that a statement about
programs can leave them open.
-/
namespace EggLanguage

set_option autoImplicit false

structure Limits where
  /-- The number of parentheses that may be open at one place of a text. -/
  nesting : Nat
  /-- The number of applications around a node of an expression that is written. -/
  height : Nat
  /-- The number of evaluations that may be under way at one time. -/
  depth : Nat
  /-- The number of rounds that one loop may take. -/
  rounds : Nat
  deriving DecidableEq, Repr

/-- The limits of the interpreter: small enough for the stack of any machine. -/
def Limits.standard : Limits :=
  ⟨1000, 1000, 2000, Nat.pow 2 62⟩

end EggLanguage
