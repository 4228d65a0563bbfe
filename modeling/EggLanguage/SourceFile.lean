/-
# EggLanguage.SourceFile -- reading programs from files

A file that cannot be opened is a failure.  Its bytes are UTF-8 text; lines may
end in any usual way.  Bytes that encode no text, and a path that no file can
have, are crashes.
-/
import EggLanguage.Failure
import EggLanguage.Text.Utf8

namespace EggLanguage

set_option autoImplicit false

/-- The bytes of the files that can be opened, by path. -/
abbrev Files := String → Option (List UInt8)

/-- The text of the file at a path. -/
def Files.read (files : Files) (path : String) : Except Stop String :=
  if path.toList.contains '\x00' then .error (.crash .invalidPath)
  else
    match files path with
    | none => .error (.ofCause (.unreadable path))
    | some bytes =>
        match Text.Utf8.decode bytes with
        | .ok text => .ok (String.ofList (Text.unifyNewlines text))
        | .error fault => .error (.crash (.undecodable fault.message))

end EggLanguage
