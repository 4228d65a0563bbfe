/-
# EggLanguage.Text.Quoted -- names between quotes

A name is shown between single quotes, or between double quotes if it holds a
single quote and no double one.  The quote and the backslash are written after a
backslash, as are line ends and tabs; other characters that cannot be seen are
written by their number in hexadecimal.
-/
import EggLanguage.Text.Unseen

namespace EggLanguage.Text

set_option autoImplicit false

/-- A number in hexadecimal, with leading zeros up to the given width. -/
def hexadecimal (width n : Nat) : List Char :=
  let digits := Nat.toDigits 16 n
  List.replicate (width - digits.length) '0' ++ digits

/-- A character as it stands between quotes. -/
def quoteChar (quote c : Char) : List Char :=
  if c == quote || c == '\\' then ['\\', c]
  else if c == '\n' then ['\\', 'n']
  else if c == '\r' then ['\\', 'r']
  else if c == '\t' then ['\\', 't']
  else if !isUnseen c then [c]
  else if c.toNat < 0x100 then '\\' :: 'x' :: hexadecimal 2 c.toNat
  else if c.toNat < 0x10000 then '\\' :: 'u' :: hexadecimal 4 c.toNat
  else '\\' :: 'U' :: hexadecimal 8 c.toNat

/-- A text between quotes. -/
def quoted (text : List Char) : List Char :=
  let quote := if text.contains '\'' && !text.contains '"' then '"' else '\''
  quote :: text.flatMap (quoteChar quote) ++ [quote]

end EggLanguage.Text
