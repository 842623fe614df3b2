/-
# Command line arguments

A command line is some common options, the name of a command, and the options
and words of that command.  Which options there are is a matter of tables; one
reader serves them all.  The reader keeps what was begun last pending: an option
waits for its value, and words are collected, until the next argument shows
that they are complete.  Only then is a value judged, so that of two faults the
one that is completed first is reported.
-/

import ErrorAccessors.Settings
import ErrorAccessors.Text.Split

namespace ErrorAccessors

/-- Why a command line does not lead to a command. -/
inductive UsageProblem where
  | helpRequested
  | versionRequested
  /-- There is nothing on the command line. -/
  | nothingGiven
  | commandMissing
  | unknownCommand (name : String)
  | unknownArgument (text : String)
  /-- A value is missing or empty. -/
  | valueMissing (name : String)
  | unknownVariant (word : String)
  /-- A switch is given a value. -/
  | valueUnneeded (name : String)
  | repeated (name : String)
  | codeMissing
deriving DecidableEq, Repr, Inhabited

/-- What is said about a command line. -/
def UsageProblem.message : UsageProblem → String
  | helpRequested => "usage: resultgen [OPTIONS] generate|check|fix|explain [ARGUMENTS]"
  | versionRequested => "resultgen 0.1.0"
  | nothingGiven => "usage: resultgen [OPTIONS] generate|check|fix|explain [ARGUMENTS]"
  | commandMissing => "a command is required: generate, check, fix or explain"
  | unknownCommand name => "unknown command `" ++ name ++ "`"
  | unknownArgument text => "unexpected argument `" ++ text ++ "`"
  | valueMissing name => "`" ++ name ++ "` needs a value"
  | unknownVariant word => Variant.unknownMessage word
  | valueUnneeded name => "`" ++ name ++ "` takes no value"
  | repeated name => "`" ++ name ++ "` is given more than once"
  | codeMissing => "a diagnostic code is required"

namespace CommandLine

/-- What an option does. -/
inductive OptionRole where
  | help
  | version
  /-- It is given or not. -/
  | switch
  /-- It takes a path, which must not be empty. -/
  | path
  /-- It takes the word of a build variant. -/
  | variant
deriving DecidableEq, Repr, Inhabited

/-- Whether a value belongs to an option. -/
def OptionRole.takesValue : OptionRole → Bool
  | path | variant => true
  | help | version | switch => false

/-- An option with its names. -/
structure OptionRow where
  long : String
  short : Option Char
  role : OptionRole
deriving DecidableEq, Repr, Inhabited

/-- Which words a command takes beside its options. -/
inductive WordRole where
  /-- None, but the name of a command ends its part of the command line. -/
  | command
  /-- Any number of paths, which must not be empty. -/
  | paths
  /-- One diagnostic code. -/
  | code
deriving DecidableEq, Repr, Inhabited

/-- The options and words of a part of the command line. -/
structure Shape where
  options : List OptionRow
  words : WordRole
deriving DecidableEq, Repr, Inhabited

/-- The commands. -/
inductive CommandName where
  | generate
  | check
  | fix
  | explain
deriving DecidableEq, Repr, Inhabited

/-- The word for a command. -/
def CommandName.text : CommandName → String
  | generate => "generate"
  | check => "check"
  | fix => "fix"
  | explain => "explain"

/-- All commands. -/
def CommandName.all : List CommandName := [generate, check, fix, explain]

/-- The word that asks for help about a command. -/
def helpWord : String := "help"

/-- The options that stand anywhere. -/
def commonOptions : List OptionRow :=
  [⟨"help", some 'h', .help⟩, ⟨"json", none, .switch⟩, ⟨"config", none, .path⟩,
    ⟨"verbose", some 'v', .switch⟩]

/-- The part in front of the name of the command. -/
def frontShape : Shape := ⟨⟨"version", some 'V', .version⟩ :: commonOptions, .command⟩

/-- The part of each command. -/
def CommandName.shape : CommandName → Shape
  | generate =>
    ⟨commonOptions ++ [⟨"out-dir", some 'o', .path⟩, ⟨"variant", none, .variant⟩,
      ⟨"watch", none, .switch⟩], .paths⟩
  | check => ⟨commonOptions, .paths⟩
  | fix => ⟨commonOptions ++ [⟨"dry-run", none, .switch⟩], .paths⟩
  | explain => ⟨commonOptions, .code⟩

/-- Whether a word names a command or asks for help. -/
def isCommandWord (word : String) : Bool :=
  word == helpWord || CommandName.all.any fun name => name.text == word

/-- What was begun last. -/
inductive Pending where
  | nothing
  /-- An option, with its value if that has come. -/
  | option (row : OptionRow) (value : Option String)
  | words (words : List String)
deriving DecidableEq, Repr, Inhabited

/-- What has been read of a part of the command line. -/
structure Reader where
  switches : List String := []
  values : List (String × String) := []
  words : List String := []
  pending : Pending := .nothing
  /-- Whether all that follows are words. -/
  wordsOnly : Bool := false
deriving DecidableEq, Repr, Inhabited

namespace Reader

/-- Whether a switch is on. -/
def isOn (reader : Reader) (long : String) : Bool :=
  reader.switches.contains long

/-- The value of an option. -/
def value? (reader : Reader) (long : String) : Option String :=
  (reader.values.find? fun entry => entry.1 == long).map (·.2)

/-- Whether no option has been read. -/
def isEmpty (reader : Reader) : Bool :=
  reader.switches.isEmpty && reader.values.isEmpty

/-- Take the value of an option. -/
def takeValue (reader : Reader) (row : OptionRow) (value : String) : Except UsageProblem Reader :=
  if (reader.value? row.long).isSome then .error (.repeated row.long)
  else if row.role = .path ∧ value = "" then .error (.valueMissing row.long)
  else if row.role = .variant ∧ Variant.ofText? value = none then .error (.unknownVariant value)
  else .ok { reader with values := reader.values ++ [(row.long, value)] }

/-- Judge and take what is pending. -/
def settle (shape : Shape) (reader : Reader) : Except UsageProblem Reader :=
  let settled := { reader with pending := .nothing }
  match reader.pending with
  | .nothing => .ok reader
  | .option row none => .error (.valueMissing row.long)
  | .option row (some value) => settled.takeValue row value
  | .words words =>
    if shape.words = .paths ∧ words.contains "" then .error (.valueMissing "PATHS")
    else .ok { settled with words := reader.words ++ words }

/-- Take an option that has no value. -/
def takeSwitch (shape : Shape) (reader : Reader) (row : OptionRow) :
    Except UsageProblem Reader := do
  let settled ← reader.settle shape
  match row.role with
  | .help => .error .helpRequested
  | .version => .error .versionRequested
  | _ =>
    if settled.isOn row.long then .error (.repeated row.long)
    else .ok { settled with switches := settled.switches ++ [row.long] }

/-- Take an option whose value is the next argument. -/
def await (shape : Shape) (reader : Reader) (row : OptionRow) : Except UsageProblem Reader := do
  return { ← reader.settle shape with pending := .option row none }

/-- Take an option whose value is part of the same argument. -/
def attach (shape : Shape) (reader : Reader) (row : OptionRow) (value : String) :
    Except UsageProblem Reader := do
  (← reader.settle shape).takeValue row value

/-- Take an option by its long name. -/
def takeLong (shape : Shape) (reader : Reader) (name : List Char) : Except UsageProblem Reader :=
  let long := String.ofList (name.takeWhile (· ≠ '='))
  match shape.options.find? fun row => row.long == long with
  | none => .error (.unknownArgument ("--" ++ long))
  | some row =>
    match name.dropWhile (· ≠ '='), row.role.takesValue with
    | [], false => reader.takeSwitch shape row
    | [], true => reader.await shape row
    | _ :: value, true => reader.attach shape row (String.ofList value)
    | _ :: _, false => .error (.valueUnneeded long)

/-- Take options by their short names.  What follows one that takes a value is
its value, with or without an equals sign. -/
def takeShort (shape : Shape) (reader : Reader) : List Char → Except UsageProblem Reader
  | [] => .ok reader
  | c :: rest =>
    match shape.options.find? fun row => row.short == some c with
    | none => .error (.unknownArgument (String.ofList ['-', c]))
    | some row =>
      if row.role.takesValue then
        match rest with
        | [] => reader.await shape row
        | '=' :: value => reader.attach shape row (String.ofList value)
        | value => reader.attach shape row (String.ofList value)
      else
        match reader.takeSwitch shape row with
        | .ok later => takeShort shape later rest
        | .error problem => .error problem

/-- Take a word. -/
def takeWord (shape : Shape) (reader : Reader) (word : String) : Except UsageProblem Reader :=
  match shape.words with
  | .command =>
    .error (if reader.wordsOnly ∧ isCommandWord word then .unknownArgument word
      else .unknownCommand word)
  | .paths =>
    match reader.pending with
    | .words words => .ok { reader with pending := .words (words ++ [word]) }
    | _ => (reader.settle shape).map fun settled => { settled with pending := .words [word] }
  | .code =>
    match reader.words, reader.pending with
    | _ :: _, _ | _, .words _ => .error (.unknownArgument word)
    | [], _ => (reader.settle shape).map fun settled => { settled with pending := .words [word] }

/-- Take an argument. -/
def take (shape : Shape) (reader : Reader) (argument : String) : Except UsageProblem Reader :=
  if reader.wordsOnly then reader.takeWord shape argument
  else
    match argument.toList, reader.pending with
    | ['-', '-'], _ => .ok { reader with wordsOnly := true }
    | '-' :: '-' :: name, _ => reader.takeLong shape name
    | '-' :: c :: names, _ => reader.takeShort shape (c :: names)
    | _, .option row none => .ok { reader with pending := .option row (some argument) }
    | _, _ => reader.takeWord shape argument

/-- Whether an argument ends the part in front of the command. -/
def endsFront (reader : Reader) (argument : String) : Bool :=
  let isAwaiting :=
    match reader.pending with
    | .option _ none => true
    | _ => false
  !reader.wordsOnly && !isAwaiting && isCommandWord argument

/-- Read the part in front of the command.  The rest begins with the word that
ends it. -/
def readFront (reader : Reader) : List String → Except UsageProblem (Reader × List String)
  | [] => .ok (reader, [])
  | argument :: rest =>
    if reader.endsFront argument then .ok (reader, argument :: rest)
    else
      match reader.take frontShape argument with
      | .ok later => later.readFront rest
      | .error problem => .error problem

/-- Read the part of a command to its end. -/
def read (shape : Shape) (arguments : List String) : Except UsageProblem Reader := do
  (← arguments.foldlM (take shape) {}).settle shape

end Reader

end CommandLine

/-- What a command is to do.  Paths are never missing, since the current
directory stands for none. -/
inductive Command where
  | generate (paths : List String) (outDir : Option String) (variant : Option Variant)
      (watch : Bool)
  | check (paths : List String)
  | fix (paths : List String) (dryRun : Bool)
  | explain (code : String)
deriving DecidableEq, Repr, Inhabited

/-- A command with the common options. -/
structure Invocation where
  command : Command
  json : Bool
  /-- The settings file, if it is given. -/
  config : Option String
deriving DecidableEq, Repr, Inhabited

namespace CommandLine

/-- The paths among the words of a command. -/
def Reader.paths (reader : Reader) : List String :=
  if reader.words = [] then ["."] else reader.words

/-- The command that its part of the command line describes. -/
def CommandName.command (name : CommandName) (reader : Reader) : Except UsageProblem Command :=
  match name with
  | generate =>
    .ok (.generate reader.paths (reader.value? "out-dir")
      ((reader.value? "variant").bind Variant.ofText?) (reader.isOn "watch"))
  | check => .ok (.check reader.paths)
  | fix => .ok (.fix reader.paths (reader.isOn "dry-run"))
  | explain =>
    match reader.words with
    | code :: _ => .ok (.explain code)
    | [] => .error .codeMissing

/-- The answer to a request for help about a command, which is always a usage
problem. -/
def helpAbout : List String → UsageProblem
  | [] => .helpRequested
  | [word] => if isCommandWord word then .helpRequested else .unknownCommand word
  | word :: next :: _ => .unknownCommand (if isCommandWord word then next else word)

/-- The problem with a command line that names no command. -/
def withoutCommand (front : Reader) : UsageProblem :=
  if front.isEmpty then .nothingGiven else .commandMissing

end CommandLine

open CommandLine in
/-- What a command line asks for.  An option that may stand anywhere counts
where it is nearest to the end. -/
def Invocation.ofArguments (arguments : List String) : Except UsageProblem Invocation := do
  let (front, rest) ← Reader.readFront {} arguments
  match rest with
  | [] => .error (withoutCommand (← front.settle frontShape))
  | word :: rest =>
    match CommandName.all.find? fun name => name.text == word with
    | none => .error (helpAbout rest)
    | some name =>
      let reader ← Reader.read name.shape rest
      let command ← name.command reader
      let front ← front.settle frontShape
      return {
        command
        json := reader.isOn "json" || front.isOn "json"
        config := (reader.value? "config").or (front.value? "config") }

end ErrorAccessors
