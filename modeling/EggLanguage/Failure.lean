/-
# EggLanguage.Failure -- what can go wrong, and where

A `Failure` is an error of an Egg program: a `Cause` and the `Place` in a source
to blame, as far as it is known.  Its wording is in `Cause.message` alone, its
kind in `Cause.kind`.

A `Crash` is what stops a program although nothing is wrong with it as an Egg
program: no stack or memory is left, or the interpreter was handed something
that no program text denotes.  `Stop` joins the two.
-/
import EggLanguage.Constant

namespace EggLanguage

set_option autoImplicit false

/-! ## Sources -/

/-- A program text.  The identity tells apart two readings of equal texts. -/
structure Source where
  identity : Nat
  text : String
  deriving DecidableEq, Repr

/-- The stretch of a source that a node of a program was read from; nodes made
by hand have no source. -/
structure Span where
  start : Nat
  stop : Nat
  source : Option Source
  deriving DecidableEq, Repr

/-! ## Causes -/

/-- The kinds of failure that reports name. -/
inductive Kind where
  | general
  | grammar
  | reference
  | type
  | file
  deriving DecidableEq, Repr

def Kind.name : Kind → String
  | general => "Error"
  | grammar => "SyntaxError"
  | reference => "ReferenceError"
  | type => "TypeError"
  | file => "IOError"

/-- Why an operator refuses its operands. -/
inductive Refusal where
  /-- A string can be followed by a string only. -/
  | appended (right : ValueType)
  /-- A string can be repeated a whole number of times only. -/
  | repeatedBy (count : ValueType)
  | unsupported (op : Operator) (left right : ValueType)
  | unordered (op : Operator) (left right : ValueType)
  | divisionByZero
  | fractionalDivisionByZero
  /-- A whole number beyond the doubles meets a double. -/
  | operandTooLarge
  | quotientTooLarge
  /-- The count of a repetition does not fit a machine word. -/
  | countTooLarge
  | repetitionTooLong
  deriving DecidableEq, Repr

def Refusal.message : Refusal → String
  | appended right => s!"can only concatenate str (not \"{right.name}\") to str"
  | repeatedBy count => s!"can't multiply sequence by non-int of type '{count.name}'"
  | unsupported op left right =>
      s!"unsupported operand type(s) for {op.symbol}: '{left.name}' and '{right.name}'"
  | unordered op left right =>
      s!"'{op.symbol}' not supported between instances of '{left.name}' and '{right.name}'"
  | divisionByZero => "division by zero"
  | fractionalDivisionByZero => "float division by zero"
  | operandTooLarge => "int too large to convert to float"
  | quotientTooLarge => "integer division result too large for a float"
  | countTooLarge => "cannot fit 'int' into an index-sized integer"
  | repetitionTooLong => "repeated string is too long"

/-- Why a program failed. -/
inductive Cause where
  /-- No expression starts with the text that follows. -/
  | noExpression (rest : String)
  /-- An argument is followed by neither a comma nor a closing parenthesis. -/
  | unseparated
  | trailingText
  | argumentCount (form : String)
  | badDefinition
  | missingBody
  | parameterNotWord
  | undefined (name : String)
  | notAFunction
  | arity (expected given : Nat)
  | operands (op : Operator) (left right : ValueType) (refusal : Refusal)
  | unreadable (path : String)
  /-- The user stopped the program. -/
  | interrupted
  | tooDeep
  /-- A crash, as its report names it. -/
  | unknown (name message : String)
  /-- A failure stated by whoever hosts the interpreter. -/
  | stated (kind : Kind) (message : String)
  deriving DecidableEq, Repr

namespace Cause

def kind : Cause → Kind
  | noExpression _ | unseparated | trailingText => .grammar
  | argumentCount _ | badDefinition | missingBody | parameterNotWord => .grammar
  | undefined _ => .reference
  | notAFunction | arity _ _ | operands _ _ _ _ => .type
  | unreadable _ => .file
  | interrupted | tooDeep | unknown _ _ => .general
  | stated kind _ => kind

def message : Cause → String
  | noExpression rest => s!"Unexpected syntax: {rest}"
  | unseparated => "Expected ',' or ')'"
  | trailingText => "Unexpected text after program"
  | argumentCount form => s!"Bad number of args to {form}"
  | badDefinition => "Bad use of define"
  | missingBody => "Functions need a body"
  | parameterNotWord => "Arg names must be words"
  | undefined name => s!"Undefined variable: {name}"
  | notAFunction => "Applying a non-function."
  | arity expected given => s!"Wrong number of arguments. Expected {expected} got {given}"
  | operands op left right refusal =>
      s!"Bad operands for '{op.symbol}': {left.name} and {right.name} ({refusal.message})"
  | unreadable path => s!"'{path}' could not be opened"
  | interrupted => "keyboard interrupt"
  | tooDeep => "maximum recursion depth exceeded"
  | unknown name message => s!"unknown error: '{name}: {message}'"
  | stated _ message => message

end Cause

/-! ## Failures -/

/-- Where a failure happened, as far as it is known. -/
structure Place where
  start : Option Nat
  stop : Option Nat
  source : Option Source
  deriving DecidableEq, Repr

def Place.unknown : Place := ⟨none, none, none⟩

/-- The place that a span covers. -/
def Span.place (span : Span) : Place :=
  ⟨some span.start, some span.stop, span.source⟩

/-- An error of an Egg program. -/
structure Failure where
  cause : Cause
  place : Place
  deriving DecidableEq, Repr

namespace Failure

def ofCause (cause : Cause) : Failure :=
  ⟨cause, .unknown⟩

/-- The failure moved to another place. -/
def moveTo (f : Failure) (place : Place) : Failure :=
  { f with place := place }

/-- The failure at the given place, unless its start is known already. -/
def settle (f : Failure) (place : Place) : Failure :=
  if f.place.start = none then f.moveTo place else f

/-- A failure that was placed in another source than `span` is blamed on `span`:
a program is never told of text it does not hold. -/
def bringTo (f : Failure) (span : Span) : Failure :=
  if f.place.start ≠ none ∧ f.place.source.map Source.identity ≠ span.source.map Source.identity
  then f.moveTo span.place else f

/-- The kind and the message, as reports and results state them. -/
def text (f : Failure) : String :=
  s!"{f.cause.kind.name}: {f.cause.message}"

@[simp] theorem cause_settle (f : Failure) (place : Place) : (f.settle place).cause = f.cause := by
  unfold settle
  split <;> rfl

@[simp] theorem cause_bringTo (f : Failure) (span : Span) : (f.bringTo span).cause = f.cause := by
  unfold bringTo
  split <;> rfl

end Failure

/-! ## Crashes -/

/-- What stops a program that has not failed. -/
inductive Crash where
  | stackExhausted
  | outOfMemory
  /-- A loop ran for longer than it was allowed to. -/
  | unfinished
  /-- The abstract node was to be evaluated. -/
  | abstractValue
  /-- The abstract node was to be written. -/
  | abstractText
  /-- The abstract node was to be blamed. -/
  | abstractPlace
  /-- A file name holds the character U+0000. -/
  | invalidPath
  /-- The bytes of a file encode no text. -/
  | undecodable (detail : String)
  /-- A part of a program, counted from zero, is no text. -/
  | missingText (position : Nat)
  | interrupt
  | exit (status : Option Int)
  /-- A crash of whoever hosts the interpreter. -/
  | foreign (name message : String)
  deriving DecidableEq, Repr

namespace Crash

/-- The name that the report of a crash gives. -/
def name : Crash → String
  | stackExhausted => "RecursionError"
  | outOfMemory => "MemoryError"
  | unfinished => "TimeoutError"
  | abstractValue => "TypeError"
  | abstractText => "NotImplementedError"
  | abstractPlace => "AttributeError"
  | invalidPath => "ValueError"
  | undecodable _ => "UnicodeDecodeError"
  | missingText _ => "TypeError"
  | interrupt => "KeyboardInterrupt"
  | exit _ => "SystemExit"
  | foreign name _ => name

def message : Crash → String
  | stackExhausted => "maximum recursion depth exceeded"
  | outOfMemory | unfinished | abstractText | interrupt | exit _ => ""
  | abstractValue => "cannot evaluate Expression"
  | abstractPlace => "'Expression' object has no attribute 'start'"
  | invalidPath => "embedded null byte"
  | undecodable detail => detail
  | missingText position => s!"sequence item {position}: expected str instance, list found"
  | foreign _ message => message

end Crash

/-- Why a computation has no result. -/
inductive Stop where
  | failure (f : Failure)
  | crash (c : Crash)
  deriving DecidableEq, Repr

def Stop.ofCause (cause : Cause) : Stop :=
  .failure (.ofCause cause)

end EggLanguage
