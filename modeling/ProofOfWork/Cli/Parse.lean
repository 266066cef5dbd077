import ProofOfWork.Cli.Args

/-! Reading the arguments of the command line. Options stand before or after the name of the command.
An option has a long name, as in `--block 7` or `--block=7`, and may have a letter, as in `-b 7`,
`-b7` or `-b=7`. Letters of options without a value can share a dash. After `--` nothing is an
option. -/

namespace ProofOfWork.Cli

/-- What is wrong with the arguments. -/
inductive UsageError
  | unknownArgument (text : String)
  | unknownCommand (text : String)
  | missingValue (o : Opt)
  | unneededValue (o : Opt)
  | badNumber (o : Opt) (cause : Numeral.Error)
  | repeated (o : Opt)
  | conflict (first second : Opt)
  | missingOption (o : Opt)
  | missingCommand
  /-- There is neither a command nor an option. -/
  | noArguments
deriving DecidableEq

def UsageError.message : UsageError → String
  | unknownArgument text => "unexpected argument '" ++ text ++ "'"
  | unknownCommand text => "unrecognized command '" ++ text ++ "'"
  | missingValue o => "a value is required for '--" ++ o.name ++ "'"
  | unneededValue o => "'--" ++ o.name ++ "' takes no value"
  | badNumber o cause => "invalid value for '--" ++ o.name ++ "': " ++ cause.message
  | repeated o => "'--" ++ o.name ++ "' cannot be used multiple times"
  | conflict first second =>
    "'--" ++ first.name ++ "' cannot be used with '--" ++ second.name ++ "'"
  | missingOption o => "'--" ++ o.name ++ "' is required"
  | missingCommand | noArguments => "a command is required"

/-- Why there is no command to run. -/
inductive Stop
  /-- The user wants to know how the program is used. -/
  | help
  /-- The user wants to know the version of the program. -/
  | version
  | misused (e : UsageError)
deriving DecidableEq

/-- What an option is set to. -/
inductive Value
  | on
  | number (n : UInt64)
  | text (s : String)
deriving DecidableEq

/-- The options that are set. -/
abbrev Settings := List (Opt × Value)

namespace Settings

def has (s : Settings) (o : Opt) : Bool := (s.lookup o).isSome

def number? (s : Settings) (o : Opt) : Option UInt64 :=
  match s.lookup o with
  | some (.number n) => some n
  | _ => none

def text? (s : Settings) (o : Opt) : Option String :=
  match s.lookup o with
  | some (.text t) => some t
  | _ => none

/-- The number of an option that must be set. -/
def number (s : Settings) (o : Opt) : Except UsageError UInt64 :=
  (s.number? o).elim (.error (.missingOption o)) .ok

/-- The text of an option that must be set. -/
def text (s : Settings) (o : Opt) : Except UsageError String :=
  (s.text? o).elim (.error (.missingOption o)) .ok

def goal (s : Settings) : Goal := ⟨s.text? .boundary, s.number? .difficulty⟩

def request (s : Settings) : Except UsageError HashRequest :=
  return ⟨← s.number .block, ← s.text .header, ← s.text .nonce, s.goal⟩

def fullOptions (s : Settings) : FullOptions :=
  ⟨(s.text? .dagDir).map Path.mk, s.has .force, s.has .parallel⟩

/-- The command of a name with these options. -/
def command (s : Settings) : CommandName → Except UsageError Command
  | .seedhash => return .seedhash (← s.number .block)
  | .sizes => return .sizes (← s.number .block)
  | .light => return .light (← s.request)
  | .makedag => return .makedag (← s.number .block) s.fullOptions
  | .full => return .full (← s.request) s.fullOptions
  | .check => return .check (← s.text .header) (← s.text .nonce) (← s.text .mix) s.goal

end Settings

/-- What an argument looks like. -/
inductive Word
  /-- The argument `--`. -/
  | endOfOptions
  /-- Two dashes and a name, which a value may follow after an equals sign. -/
  | long (name : List Char) (value : Option (List Char))
  /-- A dash and letters. -/
  | short (letters : List Char)
  | plain

/-- What an argument looks like. A single dash is plain. -/
def Word.of : List Char → Word
  | ['-', '-'] => .endOfOptions
  | '-' :: '-' :: text =>
    let name := text.takeWhile (· != '=')
    .long name (if name.length < text.length then some (text.drop (name.length + 1)) else none)
  | '-' :: c :: letters => .short (c :: letters)
  | _ => .plain

/-- The value that a text gives to an option. -/
def Opt.read (o : Opt) (text : List Char) : Except UsageError Value :=
  match o with
  | .block | .difficulty => ((Numeral.read .decimal text).mapError (.badNumber o)).map .number
  | .dagDir => if text.isEmpty then .error (.missingValue o) else .ok (.text (String.ofList text))
  | _ => .ok (.text (String.ofList text))

/-- The settings with one more option, whose value is checked last. -/
def Settings.assign (s : Settings) (o : Opt) (value : Option (List Char)) :
    Except Stop Settings :=
  match o, o.takesValue, value with
  | .help, _, _ => .error .help
  | .version, _, _ => .error .version
  | _, true, none => .error (.misused (.missingValue o))
  | _, takesValue, value =>
    if s.has o then .error (.misused (.repeated o))
    else
      match takesValue, value with
      | true, some text => ((o.read text).mapError .misused).map fun v => (o, v) :: s
      | _, _ => .ok ((o, .on) :: s)

/-- How far arguments have been read. -/
structure Reading where
  settings : Settings
  /-- The option that was named last, if it takes a value that is not yet checked, and the value if
  it has come. -/
  pending : Option (Opt × Option (List Char))
  /-- Whether `--` has come. -/
  ended : Bool

namespace Reading

def start : Reading := ⟨[], none, false⟩

/-- Checks the pending value. -/
def settle (r : Reading) : Except Stop Reading :=
  match r.pending with
  | none => .ok r
  | some (o, value) => (r.settings.assign o value).map fun s => { r with settings := s, pending := none }

/-- Sets an option. -/
def set (r : Reading) (o : Opt) (value : Option (List Char)) : Except Stop Reading := do
  let r ← r.settle
  return { r with settings := ← r.settings.assign o value }

/-- Waits for the value of an option. -/
def await (r : Reading) (o : Opt) : Except Stop Reading :=
  return { ← r.settle with pending := some (o, none) }

/-- Reads an argument with two dashes. -/
def long (options : List Opt) (r : Reading) (name : List Char) (value : Option (List Char)) :
    Except Stop Reading :=
  match options.find? (·.name.toList = name) with
  | none => .error (.misused (.unknownArgument (String.ofList ('-' :: '-' :: name))))
  | some o =>
    match o.takesValue, value with
    | true, none => r.await o
    | false, some _ => .error (.misused (.unneededValue o))
    | _, value => r.set o value

/-- Reads the letters after one dash. What follows the letter of an option with a value is its
value, with or without an equals sign before it. -/
def short (options : List Opt) (r : Reading) : List Char → Except Stop Reading
  | [] => .ok r
  | c :: rest =>
    match options.find? (·.letter? = some c) with
    | none => .error (.misused (.unknownArgument (String.ofList ['-', c])))
    | some o =>
      if o.takesValue then
        match rest with
        | [] => r.await o
        | '=' :: value => r.set o (some value)
        | value => r.set o (some value)
      else
        match r.set o none with
        | .ok r => short options r rest
        | .error e => .error e

/-- Reads an argument. One that belongs to no option is `stray`. -/
def next (options : List Opt) (stray : UsageError) (r : Reading) (argument : List Char) :
    Except Stop Reading :=
  if r.ended then .error (.misused stray)
  else
    match Word.of argument with
    | .endOfOptions => .ok { r with ended := true }
    | .long name value => r.long options name value
    | .short letters => r.short options letters
    | .plain =>
      match r.pending with
      | some (o, none) => .ok { r with pending := some (o, some argument) }
      | _ => .error (.misused stray)

end Reading

/-- The settings that the arguments after the name of a command make. -/
def readOptions (name : CommandName) (arguments : List String) : Except Stop Settings := do
  let step (r : Reading) (argument : String) : Except Stop Reading :=
    r.next name.options (.unknownArgument argument) argument.toList
  return (← (← arguments.foldlM step .start).settle).settings

/-- The command of a name, with the options before and after the name. An option that all commands
have may stand on both sides. -/
def Args.ofOptions (before : Settings) (name : CommandName) (arguments : List String) :
    Except Stop Args := do
  let s ← readOptions name arguments
  if s.has .boundary && s.has .difficulty then
    throw (.misused (.conflict .boundary .difficulty))
  let command ← (s.command name).mapError .misused
  let either (o : Opt) : Bool := before.has o || s.has o
  return ⟨command, either .debug, either .noColor, either .json⟩

/-- What becomes of a request for help with a command. -/
def helpWith : List String → Stop
  | [] => .help
  | name :: more =>
    if name = "help" ∨ (CommandName.ofText? name).isSome then
      match more with
      | [] => .help
      | text :: _ => .misused (.unknownCommand text)
    else .misused (.unknownCommand name)

/-- Reads the arguments up to the name of the command, and then those after it. -/
def Args.readFrom (r : Reading) : List String → Except Stop Args
  | [] => .error (.misused (if r.settings.isEmpty then .noArguments else .missingCommand))
  | argument :: rest =>
    let name? := CommandName.ofText? argument
    match r.ended, name? with
    | false, some name => ofOptions r.settings name rest
    | ended, name? =>
      if argument = "help" ∧ !ended then .error (helpWith rest)
      else
        let stray : UsageError :=
          if argument = "help" ∨ name?.isSome then .unknownArgument argument
          else .unknownCommand argument
        match r.next Opt.beforeCommand stray argument.toList with
        | .ok r => readFrom r rest
        | .error e => .error e

/-- Reads the arguments of the program. -/
def Args.parse (arguments : List String) : Except Stop Args := readFrom .start arguments

end ProofOfWork.Cli
