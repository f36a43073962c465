import NullScript.Console

/-!
# NullScript — the command line

The arguments name a program text, either by a file or on the line itself, and may set limits. They
are read from left to right, and the first one that is wrong, or that asks for help or for the
version, decides.

A text with errors is not run, and nothing is read from the standard input for it.

What goes to the standard error is left out: log events, what is said about wrong arguments, and
why a file cannot be read. An `Exit` holds the exit code, what is printed on the standard output,
and what is left of the standard input.
-/

namespace NullScript

/-- The name and version of the program. -/
def versionText : String := "nulla 0.1.0"

/-- Where the program text is. -/
inductive Script where
  | file (path : String)
  | code (text : String)
deriving DecidableEq

/-- A run that the arguments ask for. -/
structure Invocation where
  script : Script
  /-- How many errors in the text are shown before giving up. -/
  maxErrors : Nat
  maxDepth : Nat
deriving DecidableEq

/-- What the arguments ask for. -/
inductive Request where
  | run (i : Invocation)
  | help
  | version
  /-- The arguments are wrong. -/
  | misuse
deriving DecidableEq

/-- The options that take a value. -/
inductive OptionName where
  | code | maxErrors | maxDepth
deriving DecidableEq, Repr

namespace OptionName

/-- All options that take a value. -/
def all : List OptionName := [.code, .maxErrors, .maxDepth]

/-- The option as it is written behind two dashes. -/
def spelling : OptionName → String
  | .code => "std-in"
  | .maxErrors => "max-errors"
  | .maxDepth => "max-call-depth"

/-- The option that is written like this. -/
def ofSpelling? (s : String) : Option OptionName := all.find? fun o => o.spelling = s

end OptionName

/-- The options that take no value. Each of them decides what is done. -/
inductive FlagName where
  | help | version
deriving DecidableEq, Repr

namespace FlagName

/-- All options that take no value. -/
def all : List FlagName := [.help, .version]

/-- The option as it is written behind two dashes. -/
def spelling : FlagName → String
  | .help => "help"
  | .version => "version"

/-- The option as it is written behind one dash. -/
def letter : FlagName → Char
  | .help => 'h'
  | .version => 'V'

/-- The option that is written like this. -/
def ofSpelling? (s : String) : Option FlagName := all.find? fun f => f.spelling = s

/-- The option that has this letter. -/
def ofLetter? (c : Char) : Option FlagName := all.find? fun f => f.letter = c

/-- What the option asks for. -/
def request : FlagName → Request
  | .help => .help
  | .version => .version

end FlagName

/-- The number of errors that is shown if the arguments do not say otherwise. -/
def Invocation.defaultMaxErrors : Nat := 10

-- ---------------------------------------------------------------------------
-- Help
-- ---------------------------------------------------------------------------

/-- What the option's value is called in the help. -/
def OptionName.valueName : OptionName → String
  | .code => "CODE"
  | .maxErrors => "MAX_ERRORS"
  | .maxDepth => "MAX_CALL_DEPTH"

/-- What the help says about the option. -/
def OptionName.description : OptionName → String
  | .code => "Runs the given source code instead of a file"
  | .maxErrors =>
    s!"Stops after this many lexer and parser errors [default: {Invocation.defaultMaxErrors}]"
  | .maxDepth => s!"Maximum depth of nested function calls [default: {Config.defaultDepth}]"

/-- What the help says about the option. -/
def FlagName.description : FlagName → String
  | .help => "Print help"
  | .version => "Print version"

namespace Help

/-- An entry of a list in the help: how something is written, and what it does. -/
structure Entry where
  usage : String
  description : String

/-- The length of the longest usage in a list. -/
def width (entries : List Entry) : Nat :=
  entries.foldr (fun e longest => max e.usage.length longest) 0

/-- The text with blanks behind it, up to a length. -/
def padded (text : String) (length : Nat) : String :=
  text ++ String.ofList (List.replicate (length - text.length) ' ')

/-- The entries of a list, one on each line. What they do stands in one column, two places behind
the longest usage. -/
def column (entries : List Entry) : List String :=
  entries.map fun e => "  " ++ padded e.usage (width entries) ++ "  " ++ e.description

/-- An option with a value. The room in front is where the letter of another option stands. -/
def optionEntry (o : OptionName) : Entry :=
  ⟨"    --" ++ o.spelling ++ " <" ++ o.valueName ++ ">", o.description⟩

/-- An option without a value. -/
def flagEntry (f : FlagName) : Entry :=
  ⟨"-" ++ f.letter.toString ++ ", --" ++ f.spelling, f.description⟩

/-- All options. -/
def options : List Entry := OptionName.all.map optionEntry ++ FlagName.all.map flagEntry

theorem length_usage_le_width {entries : List Entry} {e : Entry} (h : e ∈ entries) :
    e.usage.length ≤ width entries := by
  induction entries with
  | nil => cases h
  | cons first rest ih =>
    rcases List.mem_cons.mp h with rfl | h
    · exact Nat.le_max_left _ _
    · exact Nat.le_trans (ih h) (Nat.le_max_right _ _)

theorem length_padded {text : String} {length : Nat} (h : text.length ≤ length) :
    (padded text length).length = length := by
  rw [padded, String.length_append, String.length_ofList, List.length_replicate]
  omega

/-- What the entries of a list do stands in one column: on each line as many characters are in front
of it. -/
theorem column_aligned {entries : List Entry} {line : String} (h : line ∈ column entries) :
    ∃ e ∈ entries, ∃ front : String,
      line = front ++ e.description ∧ front.length = width entries + 4 := by
  obtain ⟨e, he, rfl⟩ := List.mem_map.mp h
  refine ⟨e, he, "  " ++ padded e.usage (width entries) ++ "  ", rfl, ?_⟩
  have hblanks : "  ".length = 2 := rfl
  rw [String.length_append, String.length_append, length_padded (length_usage_le_width he),
    hblanks]
  omega

example : column options = [
    "      --std-in <CODE>                    Runs the given source code instead of a file",
    "      --max-errors <MAX_ERRORS>          " ++
      "Stops after this many lexer and parser errors [default: 10]",
    "      --max-call-depth <MAX_CALL_DEPTH>  " ++
      "Maximum depth of nested function calls [default: 200]",
    "  -h, --help                             Print help",
    "  -V, --version                          Print version"] := by decide +kernel

/-- The help. -/
def text : List String :=
  ["A tree-walking interpreter for a small statically-typed scripting language with nullable types",
    "", "Usage: nulla [OPTIONS] <FILE|--std-in <CODE>>",
    "", "Arguments:"] ++ column [⟨"[FILE]", "Path of the script to run"⟩] ++
  ["", "Options:"] ++ column options

end Help

-- ---------------------------------------------------------------------------
-- Reading arguments
-- ---------------------------------------------------------------------------

namespace Invocation

/-- What has been given so far. -/
structure Given where
  file : Option String
  code : Option String
  maxErrors : Option Nat
  maxDepth : Option Nat

/-- Reads a natural number below `2 ^ 64`. A plus sign may stand in front. -/
def number? (s : String) : Option Nat :=
  let digits :=
    match s.toList with
    | '+' :: digits => digits
    | digits => digits
  (Integer.parseNat? digits).filter (· < UInt64.size)

/-- Gives an option its value, which may be done once. -/
def Given.setOption (g : Given) (o : OptionName) (value : String) : Option Given :=
  match o with
  | .code => if g.code.isNone then some { g with code := some value } else none
  | .maxErrors =>
    if g.maxErrors.isNone then
      (number? value).map fun n => { g with maxErrors := some n }
    else none
  | .maxDepth =>
    if g.maxDepth.isNone then
      (number? value).map fun n => { g with maxDepth := some n }
    else none

/-- Gives the file, which may be done once and must have a name. -/
def Given.setFile (g : Given) (path : String) : Option Given :=
  if g.file.isNone ∧ path ≠ "" then some { g with file := some path } else none

/-- What was asked for when all arguments have been read: exactly one text must be given. -/
def Given.request (g : Given) : Request :=
  let run (script : Script) : Request :=
    .run ⟨script, g.maxErrors.getD defaultMaxErrors, g.maxDepth.getD Config.defaultDepth⟩
  match g.file, g.code with
  | some path, none => run (.file path)
  | none, some text => run (.code text)
  | _, _ => .misuse

/-- Reads arguments none of which is an option. -/
def contentOfs (g : Given) : List String → Request
  | [] => g.request
  | path :: rest =>
    match g.setFile path with
    | some g => contentOfs g rest
    | none => .misuse

/-- The parts of an argument before and behind its first equals sign. -/
def splitValue (text : List Char) : String × Option String :=
  match text.dropWhile (· ≠ '=') with
  | [] => (String.ofList text, none)
  | _ :: value => (String.ofList (text.takeWhile (· ≠ '=')), some (String.ofList value))

/-- Does the argument look like an option? A lone dash does not. -/
def looksLikeOption (arg : String) : Bool :=
  match arg.toList with
  | '-' :: _ :: _ => true
  | _ => false

/-- Reads arguments. -/
def read (g : Given) : List String → Request
  | [] => g.request
  | arg :: rest =>
    match arg.toList with
    | ['-', '-'] => contentOfs g rest
    | '-' :: '-' :: text =>
      let (name, value) := splitValue text
      match OptionName.ofSpelling? name, value, rest with
      | some o, some value, rest =>
        match g.setOption o value with
        | some g => read g rest
        | none => .misuse
      | some o, none, value :: rest =>
        if looksLikeOption value then .misuse
        else
          match g.setOption o value with
          | some g => read g rest
          | none => .misuse
      | some _, none, [] => .misuse
      | none, some _, _ => .misuse
      | none, none, _ => ((FlagName.ofSpelling? name).map FlagName.request).getD .misuse
    | '-' :: c :: _ => ((FlagName.ofLetter? c).map FlagName.request).getD .misuse
    | _ =>
      match g.setFile arg with
      | some g => read g rest
      | none => .misuse

/-- What the arguments ask for. -/
def ofArguments (args : List String) : Request := read ⟨none, none, none, none⟩ args

-- ---------------------------------------------------------------------------
-- Runs
-- ---------------------------------------------------------------------------

/-- Streams that do not fail, and nothing is written yet. -/
def plainStreams (input : ByteArray) : Streams :=
  ⟨⟨input.data.toList, false⟩, ⟨.empty, none, false⟩⟩

/-- Reads a text, and reports its errors on the console. Its program is to be run only if there
are none. -/
def prepare (i : Invocation) (text : String) : Except Console (Console × Program) :=
  let parsed := parseSource .default text
  let read := Console.handler.takeAll (.new i.maxErrors) (parsed.errors.map .source)
  if read.left || 0 < read.count then .error read else .ok (read, parsed.program)

/-- Runs a program that has been read. There is no result if the bound on the number of steps is
reached. -/
def execute (i : Invocation) (steps : Nat) (input : ByteArray) (read : Console) (p : Program) :
    Option Exit :=
  (read.interpret i.maxDepth steps (plainStreams input).input p).map fun x => x.1.exit x.2.bytes

/-- Reads and runs a text. -/
def run (i : Invocation) (steps : Nat) (input : ByteArray) (text : String) : Option Exit :=
  match i.prepare text with
  | .ok (read, p) => i.execute steps input read p
  | .error read => some (read.exit input.data.toList)

end Invocation

/-- What wrong arguments leave. -/
def misuseExit (unread : List UInt8) : Exit := ⟨2, .empty, unread⟩

/-- What a file leaves that cannot be read or is not UTF-8. -/
def unreadableExit (unread : List UInt8) : Exit := ⟨1, .empty, unread⟩

/-- What is left by showing the help. -/
def helpExit (unread : List UInt8) : Exit := ⟨0, lines Help.text, unread⟩

/-- What is left by showing the version. -/
def versionExit (unread : List UInt8) : Exit := ⟨0, lines [versionText], unread⟩

/-- The text of a script, given the bytes of the file if it is in one that exists. -/
def Script.text? (s : Script) (bytes : Option ByteArray) : Option String :=
  match s with
  | .code text => some text
  | .file _ => bytes.bind String.fromUTF8?

/-- The text of a script, given the bytes of every file that there is. -/
def Script.content? (s : Script) (contentOf : String → Option ByteArray) : Option String :=
  match s with
  | .code _ => s.text? none
  | .file path => s.text? (contentOf path)

/-- Does what the arguments ask for. `contentOf` gives the bytes of a file, if there is one. -/
def commandLine (steps : Nat) (args : List String) (contentOf : String → Option ByteArray)
    (input : ByteArray) : Option Exit :=
  match Invocation.ofArguments args with
  | .misuse => some (misuseExit input.data.toList)
  | .help => some (helpExit input.data.toList)
  | .version => some (versionExit input.data.toList)
  | .run i =>
    match i.script.content? contentOf with
    | some text => i.run steps input text
    | none => some (unreadableExit input.data.toList)

end NullScript
