/-
# EggLanguage.Text.Utf8 -- texts from bytes

Files hold texts in UTF-8.  `Utf8.decode` takes a file byte by byte: between
characters it expects a first byte, which says how many bytes follow and in which
range the next of them lies (`Utf8.lead?`).  The first byte that does not fit
makes the file unreadable, and the `Fault` says which bytes and why.

A line may end in a line feed, a carriage return or both; `unifyNewlines` leaves
the line feed only.
-/
namespace EggLanguage.Text

set_option autoImplicit false

namespace Utf8

/-- Why bytes encode no character. -/
inductive Reason where
  | invalidStart
  | invalidContinuation
  | unexpectedEnd
  deriving DecidableEq, Repr

def Reason.message : Reason → String
  | invalidStart => "invalid start byte"
  | invalidContinuation => "invalid continuation byte"
  | unexpectedEnd => "unexpected end of data"

/-- The bytes that encode no character: the first of them, its offset and how
many there are. -/
structure Fault where
  first : Nat
  offset : Nat
  count : Nat
  reason : Reason
  deriving DecidableEq, Repr

/-- A character that has begun: its first byte and offset, how many bytes it
still lacks, the range of the next one, and the bits read so far. -/
structure Open where
  first : Nat
  offset : Nat
  owed : Nat
  low : Nat
  high : Nat
  bits : Nat
  deriving DecidableEq, Repr

/-- The character of several bytes that a first byte begins.  The ranges leave
out encodings that are longer than needed, surrogates, and numbers beyond the
last character. -/
def lead? (b offset : Nat) : Option Open :=
  if 0xC2 ≤ b ∧ b ≤ 0xDF then some ⟨b, offset, 1, 0x80, 0xBF, b % 0x20⟩
  else if b = 0xE0 then some ⟨b, offset, 2, 0xA0, 0xBF, 0⟩
  else if b = 0xED then some ⟨b, offset, 2, 0x80, 0x9F, 0xD⟩
  else if 0xE1 ≤ b ∧ b ≤ 0xEF then some ⟨b, offset, 2, 0x80, 0xBF, b % 0x10⟩
  else if b = 0xF0 then some ⟨b, offset, 3, 0x90, 0xBF, 0⟩
  else if b = 0xF4 then some ⟨b, offset, 3, 0x80, 0x8F, 4⟩
  else if 0xF1 ≤ b ∧ b ≤ 0xF3 then some ⟨b, offset, 3, 0x80, 0xBF, b % 8⟩
  else none

/-- The open character after one more byte. -/
def Open.extend (o : Open) (b : Nat) : Open :=
  ⟨o.first, o.offset, o.owed - 1, 0x80, 0xBF, o.bits * 0x40 + b % 0x40⟩

/-- Decode the bytes from `offset` on, after the characters of `done` (the last
one first) and the open character. -/
def decodeFrom (done : List Char) (offset : Nat) : Option Open → List UInt8 → Except Fault (List Char)
  | none, [] => .ok done.reverse
  | some o, [] => .error ⟨o.first, o.offset, offset - o.offset, .unexpectedEnd⟩
  | none, byte :: rest =>
      let b := byte.toNat
      if b < 0x80 then decodeFrom (Char.ofNat b :: done) (offset + 1) none rest
      else
        match lead? b offset with
        | some o => decodeFrom done (offset + 1) (some o) rest
        | none => .error ⟨b, offset, 1, .invalidStart⟩
  | some o, byte :: rest =>
      let b := byte.toNat
      if o.low ≤ b ∧ b ≤ o.high then
        let next := o.extend b
        if next.owed = 0 then decodeFrom (Char.ofNat next.bits :: done) (offset + 1) none rest
        else decodeFrom done (offset + 1) (some next) rest
      else .error ⟨o.first, o.offset, offset - o.offset, .invalidContinuation⟩

/-- The text that bytes encode. -/
def decode (bytes : List UInt8) : Except Fault (List Char) :=
  decodeFrom [] 0 none bytes

/-- What a fault is reported as. -/
def Fault.message (f : Fault) : String :=
  if f.count = 1 then
    let byte := String.ofList (List.replicate (2 - (Nat.toDigits 16 f.first).length) '0' ++
      Nat.toDigits 16 f.first)
    s!"'utf-8' codec can't decode byte 0x{byte} in position {f.offset}: {f.reason.message}"
  else
    let last := f.offset + f.count - 1
    s!"'utf-8' codec can't decode bytes in position {f.offset}-{last}: {f.reason.message}"

end Utf8

/-- A text whose lines all end in a line feed. -/
def unifyNewlines : List Char → List Char
  | [] => []
  | '\r' :: '\n' :: rest => '\n' :: unifyNewlines rest
  | '\r' :: rest => '\n' :: unifyNewlines rest
  | c :: rest => c :: unifyNewlines rest

end EggLanguage.Text
