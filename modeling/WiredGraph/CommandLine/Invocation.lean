import WiredGraph.Text.Cut

/-!
# Command lines

A command line names one of three commands and its files. Flags and the configuration file may
stand before or after the command's name, and on both sides; what stands after it wins. Options
take their value from the same word or the next one, and two hyphens end all options.

Words are taken from left to right. An option waits for its value, and values are only looked at
when the next switch or file comes or the line ends; this decides which of several faults is
reported.
-/

namespace WiredGraph

namespace CommandLine

/-- The commands. -/
inductive CommandName where
  | schema
  | operations
  | check
deriving DecidableEq, Repr

namespace CommandName

/-- The command of a name. -/
def ofText? : String → Option CommandName
  | "schema" => some .schema
  | "operations" => some .operations
  | "check" => some .check
  | _ => none

end CommandName

/-- Why a command line is not carried out. -/
inductive UsageFault where
  /-- Help was asked for. -/
  | help
  /-- The version was asked for. -/
  | version
  | noArguments
  | noCommand
  | noFiles
  /-- An option has no value or an empty one, or a file's path is empty. -/
  | badValue
  /-- A flag or an option was given twice. -/
  | repeated
  | unknownArgument
  | unknownCommand
  /-- A flag was given a value. -/
  | unexpectedValue
deriving DecidableEq, Repr

/-- Switches without a value. -/
inductive Flag where
  | verbose
  | quiet
  | help
  | version
deriving DecidableEq, Repr

/-- Switches with a value. -/
inductive Setting where
  | config
  | output
deriving DecidableEq, Repr

/-- A switch of either sort. -/
inductive Switch where
  | flag (flag : Flag)
  | setting (setting : Setting)
deriving DecidableEq, Repr

/-- Whether a switch may stand before the command's name, or after that of a command. -/
def Switch.isAllowed : Switch → Option CommandName → Bool
  | .flag .version, place => place.isNone
  | .setting .output, place => place = some .schema ∨ place = some .operations
  | _, _ => true

namespace Switch

/-- The switch of a letter. -/
def ofLetter? : Char → Option Switch
  | 'v' => some (.flag .verbose)
  | 'q' => some (.flag .quiet)
  | 'h' => some (.flag .help)
  | 'V' => some (.flag .version)
  | 'c' => some (.setting .config)
  | 'o' => some (.setting .output)
  | _ => none

/-- The switch of a name. -/
def ofName? : String → Option Switch
  | "verbose" => some (.flag .verbose)
  | "quiet" => some (.flag .quiet)
  | "help" => some (.flag .help)
  | "version" => some (.flag .version)
  | "config" => some (.setting .config)
  | "output" => some (.setting .output)
  | _ => none

/-- The switch, if it may stand at a place. -/
def at? (place : Option CommandName) (switch : Option Switch) : Option Switch :=
  switch.filter (·.isAllowed place)

end Switch

/-- What a word looks like. -/
inductive WordShape where
  /-- Two hyphens and nothing else. -/
  | ending
  | long (name : String) (value : Option String)
  | short (letters : List Char)
  | plain
deriving DecidableEq, Repr

namespace WordShape

/-- The shape of a word. -/
def of (word : String) : WordShape :=
  match word.toList with
  | ['-', '-'] => .ending
  | '-' :: '-' :: rest =>
      match Text.splitAround? ['='] rest with
      | some (name, value) => .long (String.ofList name) (some (String.ofList value))
      | none => .long (String.ofList rest) none
  | '-' :: letter :: rest => .short (letter :: rest)
  | _ => .plain

end WordShape

/-- What has been taken but not looked at. -/
inductive Pending where
  | nothing
  | setting (setting : Setting) (value : Option String)
  | files (paths : List String)
deriving DecidableEq, Repr

/-- What has been given at one place of the command line. -/
structure Collected where
  verbose : Bool := false
  quiet : Bool := false
  config : Option String := none
  output : Option String := none
  files : List String := []
  pending : Pending := .nothing
deriving DecidableEq, Repr

namespace Collected

/-- The value of an option so far. -/
def settingValue (collected : Collected) : Setting → Option String
  | .config => collected.config
  | .output => collected.output

/-- Gives an option its value; it may have only one, and not an empty one. -/
def store (collected : Collected) (setting : Setting) (value : String) :
    Except UsageFault Collected :=
  if (collected.settingValue setting).isSome then .error .repeated
  else if value.isEmpty then .error .badValue
  else
    match setting with
    | .config => .ok { collected with config := some value }
    | .output => .ok { collected with output := some value }

/-- Looks at what has been taken. -/
def settle (collected : Collected) : Except UsageFault Collected :=
  let cleared := { collected with pending := .nothing }
  match collected.pending with
  | .nothing => .ok cleared
  | .setting _ none => .error .badValue
  | .setting setting (some value) => cleared.store setting value
  | .files paths =>
      if paths.any String.isEmpty then .error .badValue
      else .ok { cleared with files := collected.files ++ paths }

/-- Sets a flag, after a look at what has been taken. -/
def setFlag (collected : Collected) (flag : Flag) : Except UsageFault Collected := do
  let collected ← collected.settle
  match flag with
  | .help => throw .help
  | .version => throw .version
  | .verbose =>
      if collected.verbose then throw .repeated else return { collected with verbose := true }
  | .quiet =>
      if collected.quiet then throw .repeated else return { collected with quiet := true }

/-- Lets an option wait for its value, or gives it the one from its own word. -/
def setOption (collected : Collected) (setting : Setting) (value : Option String) :
    Except UsageFault Collected := do
  let collected ← collected.settle
  match value with
  | some value => collected.store setting value
  | none => return { collected with pending := .setting setting none }

/-- Takes a switch by name. -/
def takeLong (place : Option CommandName) (collected : Collected) (name : String)
    (value : Option String) : Except UsageFault Collected :=
  match Switch.at? place (Switch.ofName? name), value with
  | none, _ => .error .unknownArgument
  | some (.flag _), some _ => .error .unexpectedValue
  | some (.flag flag), none => collected.setFlag flag
  | some (.setting setting), value => collected.setOption setting value

/-- The value that follows an option's letter in the same word; an equals sign may stand between. -/
def attachedValue : List Char → Option String
  | [] => none
  | '=' :: value => some (String.ofList value)
  | value => some (String.ofList value)

/-- Takes switches by their letters, up to the first one with a value. -/
def takeShort (place : Option CommandName) (collected : Collected) :
    List Char → Except UsageFault Collected
  | [] => .ok collected
  | letter :: rest =>
      match Switch.at? place (Switch.ofLetter? letter) with
      | none => .error .unknownArgument
      | some (.flag flag) => do takeShort place (← collected.setFlag flag) rest
      | some (.setting setting) => collected.setOption setting (attachedValue rest)

/-- Takes the path of a file. -/
def takeFile (collected : Collected) (path : String) : Except UsageFault Collected :=
  match collected.pending with
  | .files paths => .ok { collected with pending := .files (paths ++ [path]) }
  | _ => do return { (← collected.settle) with pending := .files [path] }

/-- The option that waits for its value. -/
def awaiting? (collected : Collected) : Option Setting :=
  match collected.pending with
  | .setting setting none => some setting
  | _ => none

end Collected

/-- Takes the words after a command's name, given whether options have ended. -/
def collectFiles (name : CommandName) (collected : Collected) (ended : Bool) :
    List String → Except UsageFault Collected
  | [] => collected.settle
  | word :: rest =>
      if ended then do
        collectFiles name (← collected.takeFile word) true rest
      else
        match WordShape.of word, collected.awaiting? with
        | .ending, _ => collectFiles name collected true rest
        | .long switch value, _ => do
            collectFiles name (← collected.takeLong (some name) switch value) false rest
        | .short letters, _ => do
            collectFiles name (← collected.takeShort (some name) letters) false rest
        | .plain, some setting =>
            collectFiles name { collected with pending := .setting setting (some word) } false rest
        | .plain, none => do collectFiles name (← collected.takeFile word) false rest

/-- The fault of asking for help by a command: the words after it must name another command. -/
def helpFault : List String → UsageFault
  | [] => .help
  | [name] => if name = "help" ∨ (CommandName.ofText? name).isSome then .help else .unknownCommand
  | _ => .unknownCommand

/-- Whether a word is the name of a command, the one for help included. -/
def isCommand (word : String) : Bool := word == "help" || (CommandName.ofText? word).isSome

/-- The fault of ending before a command was named. -/
def unnamedFault (collected : Collected) : UsageFault :=
  if collected = {} then .noArguments else .noCommand

/-- Takes the words up to the command's name, and gives it with the words after it. -/
def collectCommand (collected : Collected) (ended : Bool) :
    List String → Except UsageFault (Collected × CommandName × List String)
  | [] => do throw (unnamedFault (← collected.settle))
  | word :: rest =>
      if ended then
        .error (if isCommand word then .unknownArgument else .unknownCommand)
      else
        match WordShape.of word, collected.awaiting? with
        | .ending, _ => collectCommand collected true rest
        | .long switch value, _ => do
            collectCommand (← collected.takeLong none switch value) false rest
        | .short letters, _ => do
            collectCommand (← collected.takeShort none letters) false rest
        | .plain, some setting =>
            collectCommand { collected with pending := .setting setting (some word) } false rest
        | .plain, none =>
            match CommandName.ofText? word with
            | some name => .ok (collected, name, rest)
            | none => .error (if word = "help" then helpFault rest else .unknownCommand)

/-- A command with its files, and with the directory for what it writes. -/
inductive Command where
  | schema (files : List String) (output : String)
  | operations (files : List String) (output : String)
  | check (files : List String)
deriving DecidableEq, Repr

/-- The command that was named. -/
def Command.ofCollected (name : CommandName) (collected : Collected) : Command :=
  match name with
  | .schema => .schema collected.files (collected.output.getD "build/schema")
  | .operations => .operations collected.files (collected.output.getD "build/operations")
  | .check => .check collected.files

/-- What a command line asks for. -/
structure Invocation where
  verbose : Bool
  quiet : Bool
  config : Option String
  command : Command
deriving DecidableEq, Repr

/-- What the words of a command line ask for. -/
def Invocation.parse (words : List String) : Except UsageFault Invocation := do
  let (before, name, rest) ← collectCommand {} false words
  let after ← collectFiles name {} false rest
  if after.files.isEmpty then
    throw .noFiles
  let before ← before.settle
  return {
    verbose := before.verbose || after.verbose
    quiet := before.quiet || after.quiet
    config := after.config.or before.config
    command := .ofCollected name after }

end CommandLine

end WiredGraph
