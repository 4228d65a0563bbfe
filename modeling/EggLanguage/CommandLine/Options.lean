/-
# EggLanguage.CommandLine.Options -- the words of a command line

    egg [-h] [-c COMMAND] [--ast] [-v] [files ...]

Every word of a command line is an option, an argument, or the separator `--`
after which all words are arguments.  Long options may be abbreviated; short ones
may be joined with each other and with a value.  An equals sign right after the
first option of a word only separates; any other is part of a value.  A word that
looks like a negative number, or holds a space, is an argument although it starts
with a dash.

The separator is never a text: where it is joined to an option as a value, the
program it belongs to lacks a part (`commandOf?`).

The files are the first group of arguments that belong to no option.  Whatever
else is left over is refused, after everything else.
-/
import EggLanguage.Text.DecimalDigit
import EggLanguage.Text.Quoted

namespace EggLanguage.CommandLine

set_option autoImplicit false

/-- The options that there are. -/
inductive Flag where
  | help
  | command
  | tree
  | verbose
  deriving DecidableEq, Repr

namespace Flag

/-- The spellings of the options, in the order in which they are considered. -/
def spellings : List (String × Flag) :=
  [("-h", help), ("--help", help), ("-c", command), ("--command", command), ("--ast", tree),
    ("-v", verbose), ("--verbose", verbose)]

/-- The name of an option in messages. -/
def title : Flag → String
  | help => "-h/--help"
  | command => "-c/--command"
  | tree => "--ast"
  | verbose => "-v/--verbose"

def takesValue : Flag → Bool
  | command => true
  | _ => false

def ofSpelling? (spelling : List Char) : Option Flag :=
  spellings.lookup (String.ofList spelling)

end Flag

/-- What is wrong with a command line. -/
inductive Misuse where
  | ambiguous (word : String) (candidates : List String)
  | expectedArgument (flag : Flag)
  | ignoredValue (flag : Flag) (value : List Char)
  | unrecognized (words : List String)
  deriving DecidableEq, Repr

def Misuse.message : Misuse → String
  | ambiguous word candidates =>
      s!"ambiguous option: {word} could match " ++ String.intercalate ", " candidates
  | expectedArgument flag => s!"argument {flag.title}: expected one argument"
  | ignoredValue flag value =>
      s!"argument {flag.title}: ignored explicit argument " ++ String.ofList (Text.quoted value)
  | unrecognized words => "unrecognized arguments: " ++ String.intercalate " " words

/-! ## Words -/

/-- A word of a command line. -/
inductive Word where
  | argument (text : String)
  | separator
  /-- An option, whether it is a short one, and what is joined to it. -/
  | option (flag : Flag) (short : Bool) (joined : Option (List Char))
  /-- A word with a dash that is no option. -/
  | unknown (text : String)
  deriving DecidableEq, Repr

namespace Word

/-- The parts of a word before and after its first equals sign. -/
def splitAtEquals (word : List Char) : List Char × Option (List Char) :=
  match word.dropWhile (· != '=') with
  | [] => (word, none)
  | _ :: value => (word.takeWhile (· != '='), some value)

/-- Digits with an optional fraction after a dash, possibly before a line end. -/
def looksNegative (word : List Char) : Bool :=
  let digits := if word.getLast? = some '\n' then word.dropLast.drop 1 else word.drop 1
  match digits.dropWhile Text.isDecimalDigit with
  | [] => digits ≠ []
  | '.' :: rest => rest ≠ [] && rest.all Text.isDecimalDigit
  | _ => false

/-- The word that starts with a dash but is no option as it stands. -/
def ofDashed (word : List Char) : Except Misuse Word :=
  let (name, value) := splitAtEquals word
  match value.bind fun v => (Flag.ofSpelling? name).map fun flag => (flag, v) with
  | some (flag, v) => .ok (.option flag (name.take 2 ≠ ['-', '-']) (some v))
  | none =>
      if word.take 2 = ['-', '-'] then
        match Flag.spellings.filter fun (spelling, _) => name.isPrefixOf spelling.toList with
        | [] => .ok (unmatched word)
        | [(_, flag)] => .ok (.option flag false value)
        | several => .error (.ambiguous (String.ofList word) (several.map Prod.fst))
      else
        match Flag.ofSpelling? (word.take 2) with
        | some flag => .ok (.option flag true (some (word.drop 2)))
        | none => .ok (unmatched word)
where
  unmatched (word : List Char) : Word :=
    if looksNegative word || word.contains ' ' then .argument (String.ofList word)
    else .unknown (String.ofList word)

/-- A word before the separator. -/
def ofText (word : List Char) : Except Misuse Word :=
  match word with
  | '-' :: _ :: _ =>
      match Flag.ofSpelling? word with
      | some flag => .ok (.option flag (word.take 2 ≠ ['-', '-']) none)
      | none => ofDashed word
  | _ => .ok (.argument (String.ofList word))

/-- The words of a command line. -/
def ofLine : List String → Except Misuse (List Word)
  | [] => .ok []
  | text :: rest =>
      if text = "--" then .ok (.separator :: rest.map .argument)
      else
        match ofText text.toList with
        | .error e => .error e
        | .ok word => (ofLine rest).map (word :: ·)

end Word

/-! ## Options -/

/-- The files of a command line as they are collected: one group of words. -/
inductive FileGroup where
  | awaited
  | collecting (files : List String)
  | closed (files : List String)
  deriving DecidableEq, Repr

namespace FileGroup

/-- No file follows without a gap. -/
def close : FileGroup → FileGroup
  | collecting files => closed files
  | group => group

def files : FileGroup → List String
  | awaited => []
  | collecting files => files
  | closed files => files

end FileGroup

/-- What a command line asks for. -/
structure Options where
  files : FileGroup
  /-- The texts to run, none where the separator stands for one. -/
  commands : List (Option String)
  tree : Bool
  verbose : Bool
  /-- The words that mean nothing. -/
  leftOver : List String
  deriving DecidableEq, Repr

/-- Why a command line asks for no program. -/
inductive Ending where
  | help
  | misuse (m : Misuse)
  deriving DecidableEq, Repr

namespace Options

def none : Options :=
  ⟨.awaited, [], false, false, []⟩

/-- The options that one word sets, each with its value.  A value is missing only
from the last. -/
abbrev Settings := List (Flag × Option (List Char))

/-- What an option sets together with the options joined to it: one a character,
up to the first that takes the remaining characters as its value. -/
def cluster (flag : Flag) : List Char → Except Misuse Settings
  | [] => .ok [(flag, .none)]
  | c :: rest =>
      if flag.takesValue then .ok [(flag, some (c :: rest))]
      else
        match Flag.ofSpelling? ['-', c] with
        | .none => .error (.ignoredValue flag (c :: rest))
        | some next => (cluster next rest).map ((flag, .none) :: ·)

/-- The options that one word sets. -/
def joined (flag : Flag) (short : Bool) : Option (List Char) → Except Misuse Settings
  | .none => .ok [(flag, .none)]
  | some text =>
      if flag.takesValue then .ok [(flag, some text)]
      else if short ∧ text ≠ [] then cluster flag text
      else .error (.ignoredValue flag text)

/-- The text that a value stands for: the separator stands for none. -/
def commandOf? (value : List Char) : Option String :=
  if value = ['-', '-'] then .none else some (String.ofList value)

/-- Set options in order; the first that asks for help is the end. -/
def set (o : Options) : Settings → Except Ending Options
  | [] => .ok o
  | (.help, _) :: _ => .error .help
  | (.command, value) :: rest =>
      set { o with commands := o.commands ++ value.toList.map commandOf? } rest
  | (.tree, _) :: rest => set { o with tree := true } rest
  | (.verbose, _) :: rest => set { o with verbose := true } rest

/-- Whether the last option still lacks its value. -/
def lacksValue (settings : Settings) : Option Flag :=
  match settings.getLast? with
  | some (flag, .none) => if flag.takesValue then some flag else .none
  | _ => .none

/-- Take an argument that belongs to no option. -/
def addArgument (o : Options) (text : String) : Options :=
  match o.files with
  | .awaited => { o with files := .collecting [text] }
  | .collecting files => { o with files := .collecting (files ++ [text]) }
  | .closed _ => { o with leftOver := o.leftOver ++ [text] }

def addSeparator (o : Options) : Options :=
  match o.files with
  | .awaited => { o with files := .collecting [] }
  | .collecting _ => o
  | .closed _ => { o with leftOver := o.leftOver ++ ["--"] }

/-- Take the words of a command line one after another. -/
def take (o : Options) : List Word → Except Ending Options
  | [] => if o.leftOver = [] then .ok o else .error (.misuse (.unrecognized o.leftOver))
  | .argument text :: rest => take (o.addArgument text) rest
  | .separator :: rest => take o.addSeparator rest
  | .unknown text :: rest =>
      take { o with files := o.files.close, leftOver := o.leftOver ++ [text] } rest
  | .option flag short tail :: rest =>
      match joined flag short tail with
      | .error m => .error (.misuse m)
      | .ok settings =>
          let o := { o with files := o.files.close }
          match lacksValue settings with
          | .none =>
              match o.set settings with
              | .error e => .error e
              | .ok o => take o rest
          | some flag =>
              match rest with
              | .argument text :: after =>
                  match o.set (settings.dropLast ++ [(flag, some text.toList)]) with
                  | .error e => .error e
                  | .ok o => take o after
              | _ => .error (.misuse (.expectedArgument flag))

/-- What a command line asks for. -/
def ofLine (line : List String) : Except Ending Options :=
  match Word.ofLine line with
  | .error m => .error (.misuse m)
  | .ok words => none.take words

end Options

/-! ## Texts -/

def usage : String :=
  "usage: egg [-h] [-c COMMAND] [--ast] [-v] [files ...]\n"

def helpText : String :=
  usage ++
  "\nEgg language interpreter\n" ++
  "\npositional arguments:\n" ++
  "  files                 files to run, joined into one program (if empty, goes\n" ++
  "                        to shell mode)\n" ++
  "\noptions:\n" ++
  "  -h, --help            show this help message and exit\n" ++
  "  -c COMMAND, --command COMMAND\n" ++
  "                        program text to run after any files\n" ++
  "  --ast                 print the parsed program instead of running it\n" ++
  "  -v, --verbose         log what the interpreter is doing\n"

end EggLanguage.CommandLine
