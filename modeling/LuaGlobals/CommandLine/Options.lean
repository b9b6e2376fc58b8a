import LuaGlobals.Text.Digit

/-! # Options on a command line

An argument that starts with a hyphen names an option. Long options may be shortened as long as
they stay unambiguous, and take their value from the next argument or behind an equals sign.
Short options may be joined, and take their value from the rest of the argument or from the next
one. Behind two hyphens no argument names an option.

* `OptionSpec` describes an option and `Settings` the options that were given.
* `classify` tells options from other arguments.
* `readOption` reads an option with its value.
* `readArguments` reads the options and the operands of a command.
-/

namespace LuaGlobals.CommandLine

/-! ## Options -/

/-- The options of all commands. -/
inductive OptionKey where
  /-- Ask for help. -/
  | help
  /-- Ask for the version of the program. -/
  | version
  /-- Permit every assignment. -/
  | tolerant
  /-- Permit the names that a unit defines. -/
  | globalsInModule
  /-- Permit the exports of required modules. -/
  | loadRequires
  /-- Add a whitelist. -/
  | whitelist
  /-- Choose the version of Lua. -/
  | luaVersion
  /-- Choose the compiler. -/
  | luac
  /-- Take listings in place of sources. -/
  | listing
  /-- Print JSON. -/
  | json
deriving DecidableEq, Repr

/-- An option of a command. -/
structure OptionSpec where
  /-- Which option it is. -/
  key : OptionKey
  /-- The names that it goes by. -/
  names : List String
  /-- Whether it takes a value. -/
  takesValue : Bool
  /-- The values that it may take, if not any. -/
  choices : Option (List String)
deriving DecidableEq, Repr

/-- An option without value. -/
def flag (key : OptionKey) (names : List String) : OptionSpec :=
  { key, names, takesValue := false, choices := none }

/-- An option with a value. -/
def valued (key : OptionKey) (names : List String) : OptionSpec :=
  { key, names, takesValue := true, choices := none }

/-- The options that were given, in order, each with its value; without a value that is the empty
text. -/
abbrev Settings := List (OptionKey × String)

namespace Settings

/-- Whether an option was given. -/
def has (settings : Settings) (key : OptionKey) : Bool :=
  settings.any fun setting => setting.1 = key

/-- The values that were given to an option, in order. -/
def values (settings : Settings) (key : OptionKey) : List String :=
  (settings.filter fun setting => setting.1 = key).map Prod.snd

/-- The value that was given to an option last. -/
def last? (settings : Settings) (key : OptionKey) : Option String :=
  (settings.values key).getLast?

end Settings

/-- Why reading a command line stops. -/
inductive Stop where
  /-- It breaks a rule. -/
  | usage
  /-- It asks for help. -/
  | help
  /-- It asks for the version of the program. -/
  | version
deriving DecidableEq, Repr

/-! ## Telling options from operands -/

/-- A value that stands in the same argument as its option. -/
structure AttachedValue where
  /-- Whether an equals sign comes before it. -/
  afterEquals : Bool
  /-- The value. -/
  text : List Char
deriving DecidableEq, Repr

/-- What an argument is. -/
inductive ArgumentClass where
  /-- An operand, or the value of an option. -/
  | operand
  /-- The two hyphens behind which no argument names an option. -/
  | separator
  /-- An option, with the name that it goes by. -/
  | option (spec : OptionSpec) (name : List Char) (attached : Option AttachedValue)
  /-- An option that there is not. -/
  | unknown
deriving DecidableEq, Repr

/-- The options that go by a name. -/
def named (specs : List OptionSpec) (name : List Char) : Option OptionSpec :=
  specs.find? fun spec => spec.names.any fun other => other.toList = name

/-- All names of options, with their options. -/
def allNames (specs : List OptionSpec) : List (List Char × OptionSpec) :=
  specs.flatMap fun spec => spec.names.map fun name => (name.toList, spec)

/-- Splits an argument at its first equals sign. -/
def cutEquals? (argument : List Char) : Option (List Char × List Char) :=
  match argument.dropWhile (· != '=') with
  | '=' :: value => some (argument.takeWhile (· != '='), value)
  | _ => none

/-- The options that a shortened long option may mean. -/
def longMeanings (specs : List OptionSpec) (argument : List Char) : List ArgumentClass :=
  let cut? := cutEquals? argument
  let start := (cut?.map Prod.fst).getD argument
  let attached : Option AttachedValue := cut?.map fun cut => ⟨true, cut.2⟩
  ((allNames specs).filter fun name => start.isPrefixOf name.1).map fun name =>
    .option name.2 name.1 attached

/-- The options that an argument with one hyphen may mean: a short option with more behind it, or
the start of a name. -/
def shortMeanings (specs : List OptionSpec) (argument : List Char) : List ArgumentClass :=
  (allNames specs).filterMap fun name =>
    if name.1 = argument.take 2 then some (.option name.2 name.1 (some ⟨false, argument.drop 2⟩))
    else if argument.isPrefixOf name.1 then some (.option name.2 name.1 none)
    else none

/-- Whether an argument is a negative number, which is an operand. A line end may follow. -/
def isNegativeNumber (argument : List Char) : Bool :=
  let number := argument.drop 1
  let number := if number.getLast? = some '\n' then number.dropLast else number
  let whole := number.takeWhile Text.isDecimal
  match number.dropWhile Text.isDecimal with
  | [] => whole != []
  | '.' :: fraction => fraction != [] && fraction.all Text.isDecimal
  | _ => false

/-- What an argument with hyphens in front is that no rule on exact names settles. -/
def classifyLoosely (specs : List OptionSpec) (argument : List Char) :
    Except Stop ArgumentClass :=
  let meanings := match argument with
    | '-' :: '-' :: _ => longMeanings specs argument
    | _ => shortMeanings specs argument
  match meanings with
  | [meaning] => .ok meaning
  | _ :: _ :: _ => .error .usage
  | [] =>
    if isNegativeNumber argument || argument.contains ' ' then .ok .operand else .ok .unknown

/-- What an argument is that stands before any separator. -/
def classify (specs : List OptionSpec) (argument : List Char) : Except Stop ArgumentClass :=
  match argument with
  | ['-', '-'] => .ok .separator
  | '-' :: _ :: _ =>
    match named specs argument with
    | some spec => .ok (.option spec argument none)
    | none =>
      match cutEquals? argument with
      | some (name, value) =>
        match named specs name with
        | some spec => .ok (.option spec name (some ⟨true, value⟩))
        | none => classifyLoosely specs argument
      | none => classifyLoosely specs argument
  | _ => .ok .operand

/-- An argument and what it is. -/
structure Argument where
  /-- The argument. -/
  text : String
  /-- What it is. -/
  kind : ArgumentClass
deriving DecidableEq, Repr

/-- What each argument is. Behind a separator all are operands. -/
def classifyAll (specs : List OptionSpec) : List String → Except Stop (List Argument)
  | [] => .ok []
  | argument :: rest =>
    match classify specs argument.toList with
    | .error stop => .error stop
    | .ok .separator =>
      .ok (⟨argument, .separator⟩ :: rest.map fun operand => ⟨operand, .operand⟩)
    | .ok kind => (classifyAll specs rest).map (⟨argument, kind⟩ :: ·)

/-! ## Reading options -/

/-- What the options of one argument set, and what is left. -/
structure OptionReading where
  /-- The options with their values, in order. -/
  settings : List (OptionSpec × String)
  /-- Whether something in the argument is no option. -/
  hasUnknown : Bool
  /-- The arguments that are left. -/
  rest : List Argument
deriving Repr

/-- Whether a name has one hyphen in front. -/
def isShort (name : List Char) : Bool :=
  (name.drop 1).head? != some '-'

/-- Reads an option without attached value: an option with a value takes the next argument, which
must be an operand. -/
def readDetached (spec : OptionSpec) (rest : List Argument) : Except Stop OptionReading :=
  if spec.takesValue then
    match rest with
    | ⟨text, .operand⟩ :: rest => .ok ⟨[(spec, text)], false, rest⟩
    | _ => .error .usage
  else .ok ⟨[(spec, "")], false, rest⟩

/-- The value attached to a short option by the text behind it. -/
def attachedBehind (text : List Char) : Option AttachedValue :=
  match text with
  | [] => none
  | '=' :: value => some ⟨true, value⟩
  | _ => some ⟨false, text⟩

/-- Reads an option. Behind a short option without value further ones may be joined; the first
argument bounds their number. -/
def readOption (specs : List OptionSpec) : Nat → OptionSpec → List Char →
    Option AttachedValue → List Argument → Except Stop OptionReading
  | _, spec, _, none, rest => readDetached spec rest
  | 0, _, _, some _, _ => .error .usage
  | fuel + 1, spec, name, some attached, rest =>
    if spec.takesValue then .ok ⟨[(spec, String.ofList attached.text)], false, rest⟩
    else
      match attached.text with
      | [] => .error .usage
      | c :: behind =>
        -- Only the text right behind a short option can hold further ones.
        if !isShort name || attached.afterEquals || c = '-' then .error .usage
        else
          match named specs ['-', c] with
          | none => .ok ⟨[(spec, "")], true, rest⟩
          | some next =>
            (readOption specs fuel next ['-', c] (attachedBehind behind) rest).map fun reading =>
              { reading with settings := (spec, "") :: reading.settings }

/-- Whether an option may take a value. -/
def permits (spec : OptionSpec) (value : String) : Bool :=
  match spec.choices with
  | some choices => choices.contains value
  | none => true

/-- Puts options into effect one after the other. Some of them end the reading. -/
def applyOptions : List (OptionSpec × String) → Except Stop Settings
  | [] => .ok []
  | (spec, value) :: rest =>
    match spec.key with
    | .help => .error .help
    | .version => .error .version
    | key =>
      if permits spec value then (applyOptions rest).map ((key, value) :: ·) else .error .usage

/-! ## Reading a whole command -/

/-- What the arguments of a command say. -/
structure Arguments where
  /-- The options. -/
  settings : Settings
  /-- The operands, if there are any. -/
  operands : Option (List String)
  /-- Whether some argument has no meaning. -/
  hasUnknown : Bool
deriving Repr

/-- No arguments. -/
def Arguments.empty : Arguments :=
  ⟨[], none, false⟩

/-- Whether an argument is no option. -/
def Argument.isPlain (argument : Argument) : Bool :=
  argument.kind == .operand || argument.kind == .separator

/-- The arguments without the first pair of hyphens. -/
def dropSeparator (texts : List String) : List String :=
  texts.erase "--"

/-- Takes a row of arguments that are no options. The first such row that holds an operand gives
the operands of the command; further rows have no meaning. -/
def Arguments.takePlain (arguments : Arguments) (row : List Argument) : Arguments :=
  if arguments.operands.isNone && row.any (·.kind == .operand) then
    { arguments with operands := some (dropSeparator (row.map (·.text))) }
  else { arguments with hasUnknown := true }

/-- Reads arguments up to the end; the first number bounds how many rows and options there are. -/
def readWith (specs : List OptionSpec) : Nat → Arguments → List Argument → Except Stop Arguments
  | 0, arguments, _ => .ok arguments
  | _ + 1, arguments, [] => .ok arguments
  | fuel + 1, arguments, argument :: rest =>
    match argument.kind with
    | .operand | .separator =>
      let row := argument :: rest.takeWhile Argument.isPlain
      readWith specs fuel (arguments.takePlain row) (rest.dropWhile Argument.isPlain)
    | .unknown => readWith specs fuel { arguments with hasUnknown := true } rest
    | .option spec name attached =>
      match readOption specs argument.text.length spec name attached rest with
      | .error stop => .error stop
      | .ok reading =>
        match applyOptions reading.settings with
        | .error stop => .error stop
        | .ok settings =>
          readWith specs fuel
            { arguments with
              settings := arguments.settings ++ settings
              hasUnknown := arguments.hasUnknown || reading.hasUnknown }
            reading.rest

/-- Reads the arguments of a command. -/
def readArguments (specs : List OptionSpec) (arguments : List String) : Except Stop Arguments := do
  let classified ← classifyAll specs arguments
  readWith specs (classified.length + 1) .empty classified

end LuaGlobals.CommandLine
