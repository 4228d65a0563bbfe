/-
# EggLanguage.Expr.Parser -- reading expressions from a text

    program     ::= blank* expression blank*
    expression  ::= (string | numeral | word) (blank* arguments)*
    arguments   ::= "(" blank* ")"
                  | "(" blank* expression (blank* "," blank* expression)* blank* ("," blank*)? ")"

Each list of arguments applies the expression before it, so `f(1)(2)` applies
the result of `f(1)`.  White space may stand before every token, and a comma may
follow the last argument.

Reading goes from left to right and never back.  A `Reading` keeps the proof
that something was taken off the text, which is why the loops over arguments
(`Expr.readArguments`) and over lists of arguments (`Expr.readApplications`) end.
The recursion is on `nesting`, the number of open parentheses that the reader
has room for: a text nested deeper exhausts the stack.
-/
import EggLanguage.Expr.Token

namespace EggLanguage

set_option autoImplicit false

open EggLanguage.Text

/-- What was read from a place in a text, and the place after it. -/
structure Reading (α : Type) (start : Cursor) where
  result : α
  next : Cursor
  shorter : next.rest.length < start.rest.length

/-- What was read from a place in a text, perhaps nothing, and the place after it. -/
structure Extension (α : Type) (start : Cursor) where
  result : α
  next : Cursor
  notLonger : next.rest.length ≤ start.rest.length

namespace Expr

/-- The failure of reading the characters from `start` to `stop`. -/
def unreadable (cause : Cause) (source : Source) (start stop : Nat) : Stop :=
  .failure ⟨cause, ⟨some start, some stop, some source⟩⟩

/-! ## Arguments -/

/-- Read the arguments after an opening parenthesis and the parenthesis that
closes them.  Each is read by `item`, which skips the blanks after it. -/
def readArguments (item : (c : Cursor) → Except Stop (Reading Expr c)) (source : Source)
    (c : Cursor) : Except Stop (Reading (List Expr) c) :=
  match closes : c.rest with
  | ')' :: after => .ok ⟨[], ⟨c.position + 1, after⟩, by simp [closes]⟩
  | _ =>
      match item c with
      | .error e => .error e
      | .ok first =>
          match follows : first.next.rest with
          | ',' :: after =>
              match readArguments item source (Cursor.skipBlank ⟨first.next.position + 1, after⟩) with
              | .error e => .error e
              | .ok rest =>
                  .ok ⟨first.result :: rest.result, rest.next, by
                    have h₁ := rest.shorter
                    have h₂ := Cursor.skipBlank_length_le ⟨first.next.position + 1, after⟩
                    have h₃ := first.shorter
                    simp only [follows, List.length_cons] at h₂ h₃
                    omega⟩
          | ')' :: after =>
              .ok ⟨[first.result], ⟨first.next.position + 1, after⟩, by
                have h := first.shorter
                simp only [follows, List.length_cons] at h ⊢
                omega⟩
          | _ =>
              .error (unreadable .unseparated source first.next.position (first.next.position + 1))
termination_by c.rest.length
decreasing_by
  have h₁ := Cursor.skipBlank_length_le ⟨first.next.position + 1, after⟩
  have h₂ := first.shorter
  simp only [follows, List.length_cons] at h₁ h₂
  omega

/-- Read the lists of arguments that apply `head`, which starts at `start`. -/
def readApplications (item : (c : Cursor) → Except Stop (Reading Expr c)) (source : Source)
    (start : Nat) (head : Expr) (c : Cursor) :
    Except Stop (Extension Expr c) :=
  match opens : c.rest with
  | '(' :: after =>
      match readArguments item source (Cursor.skipBlank ⟨c.position + 1, after⟩) with
      | .error e => .error e
      | .ok args =>
          let node := apply head args.result ⟨start, args.next.position, some source⟩
          match readApplications item source start node args.next.skipBlank with
          | .error e => .error e
          | .ok more =>
              .ok ⟨more.result, more.next, by
                have h₁ := args.shorter
                have h₂ := Cursor.skipBlank_length_le ⟨c.position + 1, after⟩
                have h₃ := Cursor.skipBlank_length_le args.next
                have h₄ := more.notLonger
                simp only [opens, List.length_cons] at h₂ ⊢
                omega⟩
  | _ => .ok ⟨head, c, Nat.le_refl _⟩
termination_by c.rest.length
decreasing_by
  have h₁ := args.shorter
  have h₂ := Cursor.skipBlank_length_le ⟨c.position + 1, after⟩
  have h₃ := Cursor.skipBlank_length_le args.next
  simp only [opens, List.length_cons] at h₂ ⊢
  omega

/-! ## Expressions -/

/-- Read one expression and the blanks around it. -/
def read (source : Source) : (nesting : Nat) → (c : Cursor) → Except Stop (Reading Expr c)
  | 0, _ => .error (.crash .stackExhausted)
  | nesting + 1, c =>
      let first := c.skipBlank
      match found : Token.read? first.rest with
      | none =>
          .error (unreadable (.noExpression (String.ofList first.rest)) source first.position first.stop)
      | some (token, after) =>
          let stop := first.position + token.spelling.length
          let head := token.node ⟨first.position, stop, some source⟩
          match readApplications (read source nesting) source first.position head
              (Cursor.skipBlank ⟨stop, after⟩) with
          | .error e => .error e
          | .ok more =>
              .ok ⟨more.result, more.next, by
                have h₁ : after.length < c.skipBlank.rest.length := Token.read?_length_lt found
                have h₂ := Cursor.skipBlank_length_le ⟨stop, after⟩
                have h₃ := Cursor.skipBlank_length_le c
                have h₄ := more.notLonger
                simp only at h₂
                omega⟩

/-- The expression that starts at an offset of a source, or after the blanks
there, and the offset of the next character that is not blank. -/
def parseFrom (nesting : Nat) (source : Source) (offset : Nat) : Except Stop (Expr × Nat) :=
  match read source nesting (Cursor.ofText source.text.toList offset) with
  | .error e => .error e
  | .ok r => .ok (r.result, r.next.position)

/-- The expression that a source consists of. -/
def parse (nesting : Nat) (source : Source) : Except Stop Expr :=
  match read source nesting (Cursor.ofText source.text.toList 0) with
  | .error e => .error e
  | .ok r =>
      if r.next.rest = [] then .ok r.result
      else .error (unreadable .trailingText source r.next.position r.next.stop)

end Expr

end EggLanguage
