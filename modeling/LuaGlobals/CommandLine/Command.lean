import LuaGlobals.CommandLine.Options
import LuaGlobals.Config.Setting

/-! # Commands

* `Command` is what a command line asks for: to check units, to list the names that they touch,
  or to list the modules that they require.
* `Command.ofArguments` reads a command line.
-/

namespace LuaGlobals.CommandLine

/-- What to do with the units. -/
inductive CommandKind where
  /-- Check them. -/
  | check
  /-- List the names that they touch. -/
  | xref
  /-- List the modules that they require. -/
  | deps
deriving DecidableEq, Repr

/-- The commands by their names. -/
def commandNames : List (String × CommandKind) :=
  [("check", .check), ("xref", .xref), ("deps", .deps)]

/-- A command. -/
structure Command where
  /-- What to do. -/
  kind : CommandKind
  /-- The files and directories of the units. -/
  paths : List String
  /-- The options. -/
  settings : Settings
deriving DecidableEq, Repr

/-- The option that asks for help. -/
def helpOption : OptionSpec :=
  flag .help ["-h", "--help"]

/-- The options before the name of a command. -/
def programOptions : List OptionSpec :=
  [helpOption, flag .version ["--version"]]

/-- The options of the commands that list something. -/
def listOptions : List OptionSpec :=
  [helpOption, flag .listing ["--listing"], flag .json ["--json"], valued .luac ["--luac"]]

/-- The options of the command that checks. -/
def checkOptions : List OptionSpec :=
  [helpOption,
    flag .tolerant ["-t", "--tolerant"],
    flag .globalsInModule ["-g", "--globals-in-module"],
    flag .loadRequires ["-r", "--load-requires"],
    valued .whitelist ["-w", "--whitelist"],
    { valued .luaVersion ["--lua-version"] with choices := some supportedVersions },
    valued .luac ["--luac"],
    flag .listing ["--listing"],
    flag .json ["--json"]]

/-- The options of a command. -/
def CommandKind.options : CommandKind → List OptionSpec
  | .check => checkOptions
  | .xref | .deps => listOptions

/-- Reads what follows the name of a command. -/
def readCommand (kind : CommandKind) (arguments : List String) : Except Stop Arguments :=
  (readArguments kind.options arguments).bind fun read =>
    if read.operands.isNone then .error .usage else .ok read

/-- Reads a command line up to its end; the first number bounds how many options come before the
name of the command. `hasUnknown` tells whether some argument had no meaning. -/
def readProgram : Nat → Bool → List Argument → Except Stop Command
  | 0, _, _ => .error .usage
  | _ + 1, _, [] => .error .usage
  | fuel + 1, hasUnknown, argument :: rest =>
    match argument.kind with
    | .separator => .error .usage
    | .operand =>
      match commandNames.find? fun command => command.1 == argument.text with
      | none => .error .usage
      | some (_, kind) =>
        (readCommand kind (rest.map (·.text))).bind fun read =>
          -- Help that the command asks for comes before arguments without meaning.
          if hasUnknown || read.hasUnknown then .error .usage
          else .ok { kind, paths := read.operands.getD [], settings := read.settings }
    | .unknown => readProgram fuel true rest
    | .option spec name attached =>
      match readOption programOptions argument.text.length spec name attached rest with
      | .error stop => .error stop
      | .ok reading =>
        match applyOptions reading.settings with
        | .error stop => .error stop
        | .ok _ => readProgram fuel (hasUnknown || reading.hasUnknown) reading.rest

/-- Reads a command line. -/
def Command.ofArguments (arguments : List String) : Except Stop Command :=
  (classifyAll programOptions arguments).bind fun classified =>
    readProgram (classified.length + 1) false classified

end LuaGlobals.CommandLine
