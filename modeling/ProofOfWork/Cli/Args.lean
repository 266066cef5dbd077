import ProofOfWork.Cli.Value
import ProofOfWork.Client.Full

/-! What the command line can ask for. -/

namespace ProofOfWork.Cli

/-- A hash that is asked for. -/
structure HashRequest where
  block : UInt64
  header : String
  nonce : String
  goal : Goal
deriving DecidableEq

/-- The commands with what they need. -/
inductive Command
  /-- Prints the seed of a block's epoch. -/
  | seedhash (block : UInt64)
  /-- Prints the epoch of a block and the sizes that belong to it. -/
  | sizes (block : UInt64)
  /-- Computes a hash from the cache. -/
  | light (request : HashRequest)
  /-- Makes the DAG file of a block's epoch, if there is none of use. -/
  | makedag (block : UInt64) (options : FullOptions)
  /-- Computes a hash from the DAG file. -/
  | full (request : HashRequest) (options : FullOptions)
  /-- Holds the hash that a claimed mix digest leads to against a boundary. -/
  | check (header nonce mix : String) (goal : Goal)
deriving DecidableEq

/-- A command with the options that all commands have. -/
structure Args where
  command : Command
  debug : Bool
  noColor : Bool
  json : Bool
deriving DecidableEq

/-- The names of the commands. -/
inductive CommandName
  | seedhash
  | sizes
  | light
  | makedag
  | full
  | check
deriving DecidableEq

/-- The options of all commands. -/
inductive Opt
  | debug
  | noColor
  | json
  | help
  | version
  | block
  | header
  | nonce
  | mix
  | boundary
  | difficulty
  | dagDir
  | force
  | parallel
deriving DecidableEq

namespace Opt

/-- The name that follows two dashes. -/
def name : Opt → String
  | debug => "debug"
  | noColor => "no-color"
  | json => "json"
  | help => "help"
  | version => "version"
  | block => "block"
  | header => "header"
  | nonce => "nonce"
  | mix => "mix"
  | boundary => "boundary"
  | difficulty => "difficulty"
  | dagDir => "dag-dir"
  | force => "force"
  | parallel => "parallel"

/-- The letter that follows one dash. -/
def letter? : Opt → Option Char
  | debug => some 'd'
  | help => some 'h'
  | version => some 'V'
  | block => some 'b'
  | nonce => some 'n'
  | _ => none

/-- Whether a value follows. -/
def takesValue : Opt → Bool
  | block | header | nonce | mix | boundary | difficulty | dagDir => true
  | _ => false

/-- The options that every command has. -/
def common : List Opt := [debug, noColor, json, help]

/-- The options that may stand before the name of a command. -/
def beforeCommand : List Opt := version :: common

end Opt

namespace CommandName

def all : List CommandName := [seedhash, sizes, light, makedag, full, check]

def text : CommandName → String
  | seedhash => "seedhash"
  | sizes => "sizes"
  | light => "light"
  | makedag => "makedag"
  | full => "full"
  | check => "check"

/-- The command with a name. -/
def ofText? (s : String) : Option CommandName := all.find? (·.text = s)

/-- The options that may stand after the name of a command. -/
def options (name : CommandName) : List Opt :=
  Opt.common ++
    match name with
    | seedhash | sizes => [.block]
    | light => [.block, .header, .nonce, .boundary, .difficulty]
    | makedag => [.block, .dagDir, .force, .parallel]
    | full =>
      [.block, .header, .nonce, .boundary, .difficulty, .dagDir, .force, .parallel]
    | check => [.header, .nonce, .mix, .boundary, .difficulty]

end CommandName

end ProofOfWork.Cli
